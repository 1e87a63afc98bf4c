import VoceChat.Foundations.JsonOrder

/-!
# How deep JSON is read

A parser with a recursion limit does not read all that a printer prints: what is nested too deep is
an error. What is not is read as what it was, with the fields of objects in the order of their keys,
and with floats that may be other ones next to them.
-/

namespace Json

namespace Value

mutual

/-- How many arrays and objects are within each other. -/
def depth : Value → ℕ
  | array elems => depthElems elems + 1
  | object fields => depthFields fields + 1
  | null => 0
  | bool _ => 0
  | number _ => 0
  | string _ => 0

def depthElems : List Value → ℕ
  | [] => 0
  | v :: vs => max v.depth (depthElems vs)

def depthFields : List (String × Value) → ℕ
  | [] => 0
  | (_, v) :: fields => max v.depth (depthFields fields)

end

/-- A number as it is read again. -/
def rereadNumber (readFloat : UInt64 → UInt64) : Number → Number
  | .float bits => .float (readFloat bits)
  | .posInt n => .posInt n
  | .negInt n => .negInt n

mutual

def reread (readFloat : UInt64 → UInt64) : Value → Value
  | array elems => array (rereadElems readFloat elems)
  | object fields => object (rereadFields readFloat fields)
  | number n => number (rereadNumber readFloat n)
  | null => null
  | bool b => bool b
  | string s => string s

def rereadElems (readFloat : UInt64 → UInt64) : List Value → List Value
  | [] => []
  | v :: vs => v.reread readFloat :: rereadElems readFloat vs

def rereadFields (readFloat : UInt64 → UInt64) : List (String × Value) → List (String × Value)
  | [] => []
  | (key, v) :: fields => (key, v.reread readFloat) :: rereadFields readFloat fields

end

theorem rereadNumber_id (n : Number) : rereadNumber id n = n := by
  cases n with
  | posInt n => rfl
  | negInt n => rfl
  | float bits => rfl

mutual

theorem reread_id : (v : Value) → v.reread id = v
  | array elems => congrArg array (rereadElems_id elems)
  | object fields => congrArg object (rereadFields_id fields)
  | number n => congrArg number (rereadNumber_id n)
  | null => rfl
  | bool _ => rfl
  | string _ => rfl

theorem rereadElems_id : (vs : List Value) → rereadElems id vs = vs
  | [] => rfl
  | v :: vs => congrArg₂ List.cons (reread_id v) (rereadElems_id vs)

theorem rereadFields_id : (fields : List (String × Value)) → rereadFields id fields = fields
  | [] => rfl
  | (key, v) :: fields =>
    congrArg₂ List.cons (congrArg (Prod.mk key) (reread_id v)) (rereadFields_id fields)

end

/-- An integer, as `Number::from` has it. -/
def ofInt (n : ℤ) : Value :=
  number (if 0 ≤ n then .posInt (UInt64.ofNat n.toNat) else .negInt (Int64.ofInt n))

theorem depth_ofInt (n : ℤ) : (ofInt n).depth = 0 := rfl

theorem sorted_ofInt (n : ℤ) : (ofInt n).sorted = ofInt n := rfl

theorem reread_ofInt (readFloat : UInt64 → UInt64) (n : ℤ) :
    (ofInt n).reread readFloat = ofInt n := by
  show number (rereadNumber readFloat (if 0 ≤ n then _ else _)) = number (if 0 ≤ n then _ else _)
  split
  · rfl
  · rfl

/-- `get_mut` of a key, and an assignment to it. -/
def replace : Value → String → Value → Value
  | object fields, key, v => object (fields.map fun e ↦ if e.1 = key then (e.1, v) else e)
  | other, _, _ => other

/-- An assignment to a key, which can be a new one. -/
def insert : Value → String → Value → Value
  | object fields, key, v => object (OrderedMap.insertEntry key v fields)
  | other, _, _ => other

end Value

/-- `remaining_depth` of `serde_json`, at the start. -/
def remainingDepth : ℕ := 128

/-- A printer, and a parser with a recursion limit. -/
structure Library (Text : Type) where
  print : Value → Text
  read : Text → Option Value
  readFloat : UInt64 → UInt64
  read_print : ∀ v, read (print v) =
    if v.sorted.depth < remainingDepth then some (v.sorted.reread readFloat) else none

namespace Library

variable {Text : Type} (json : Library Text)

theorem read_print_of_lt {v : Value} (h : v.sorted.depth < remainingDepth) :
    json.read (json.print v) = some (v.sorted.reread json.readFloat) := by
  rw [json.read_print, if_pos h]

theorem read_print_of_le {v : Value} (h : remainingDepth ≤ v.sorted.depth) :
    json.read (json.print v) = none := by
  rw [json.read_print, if_neg (not_lt.2 h)]

/-- Texts without any layout: the values with their fields in order. -/
def plain : Library Value where
  print := Value.sorted
  read v := if v.depth < remainingDepth then some v else none
  readFloat := id
  read_print v := by
    rw [Value.reread_id]

end Library

end Json
