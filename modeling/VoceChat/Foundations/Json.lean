import Mathlib.Data.Int.Notation
import VoceChat.Foundations.Machine

/-!
# JSON values

The values `serde_json` parses into, and the accessors that look through them. Numbers keep the
three shapes of the parser: an unsigned integer, a negative integer, or a float given by its bits.
Objects are association lists; `get` answers with the first entry of a key.
-/

namespace Json

open Machine

inductive Number where
  | posInt (n : UInt64)
  | negInt (n : Int64)
  | float (bits : UInt64)
  deriving DecidableEq, Repr

inductive Value where
  | null
  | bool (b : Bool)
  | number (n : Number)
  | string (s : String)
  | array (elems : List Value)
  | object (fields : List (String × Value))

namespace Value

def asStr : Value → Option String
  | string s => some s
  | _ => none

def asBool : Value → Option Bool
  | bool b => some b
  | _ => none

def asU64 : Value → Option ℕ
  | number (.posInt n) => some n.toNat
  | _ => none

def asI64 : Value → Option ℤ
  | number (.posInt n) => if n.toNat < i64Size then some n.toNat else none
  | number (.negInt n) => some n.toInt
  | _ => none

def asArray : Value → Option (List Value)
  | array elems => some elems
  | _ => none

def asObject : Value → Option (List (String × Value))
  | object fields => some fields
  | _ => none

/-- `Value::get`, with a key. -/
def get (v : Value) (key : String) : Option Value := v.asObject.bind (List.lookup key)

end Value

theorem asStr_eq_some {o : Option Value} {text : String} :
    o.bind Value.asStr = some text ↔ o = some (.string text) := by
  constructor
  · intro h
    obtain ⟨v, rfl, hv⟩ := Option.bind_eq_some_iff.1 h
    cases v with
    | string s => exact congrArg (some ∘ Value.string) (Option.some.inj hv)
    | null => cases hv
    | bool b => cases hv
    | number n => cases hv
    | array vs => cases hv
    | object fs => cases hv
  · rintro rfl
    rfl

theorem asU64_eq_some {o : Option Value} {n : ℕ} :
    o.bind Value.asU64 = some n ↔ ∃ m : UInt64, o = some (.number (.posInt m)) ∧ m.toNat = n := by
  constructor
  · intro h
    obtain ⟨v, rfl, hv⟩ := Option.bind_eq_some_iff.1 h
    cases v with
    | number k =>
      cases k with
      | posInt m => exact ⟨m, rfl, Option.some.inj hv⟩
      | negInt m => cases hv
      | float bits => cases hv
    | null => cases hv
    | bool b => cases hv
    | string s => cases hv
    | array vs => cases hv
    | object fs => cases hv
  · rintro ⟨m, rfl, rfl⟩
    rfl

/-- A JSON object, as the hash map it is deserialized into. -/
abbrev Properties := List (String × Value)

def Properties.get (properties : Properties) (key : String) : Option Value :=
  properties.lookup key

/-- An object without some of its keys. -/
theorem Properties.get_filter (properties : Properties) (keep : String → Bool) (key : String) :
    Properties.get (properties.filter fun f ↦ keep f.1) key =
      if keep key = true then properties.get key else none := by
  induction properties with
  | nil => exact (ite_self none).symm
  | cons field properties ih =>
    rw [List.filter_cons]
    by_cases hfield : keep field.1 = true
    · rw [if_pos hfield, get, get, List.lookup_cons, List.lookup_cons]
      by_cases hkey : key = field.1
      · subst hkey
        rw [beq_self_eq_true, if_pos hfield]
      · rw [beq_false_of_ne hkey]
        exact ih
    · rw [if_neg hfield, ih, get, get, List.lookup_cons]
      by_cases hkey : key = field.1
      · subst hkey
        rw [if_neg hfield, if_neg hfield]
      · rw [beq_false_of_ne hkey]

/-- The fields of an object have different keys. -/
def Properties.Distinct (properties : Properties) : Prop := (properties.map Prod.fst).Nodup

theorem Properties.Distinct.lookup_eq_some {properties : Properties} (h : properties.Distinct)
    {key : String} {value : Value} :
    properties.lookup key = some value ↔ (key, value) ∈ properties := by
  induction properties with
  | nil => exact ⟨nofun, nofun⟩
  | cons field properties ih =>
    obtain ⟨hnotMem, hrest⟩ := List.nodup_cons.1 h
    rw [List.lookup_cons, List.mem_cons]
    by_cases hkey : key = field.1
    · subst hkey
      rw [beq_self_eq_true]
      show some field.2 = _ ↔ _
      rw [Option.some.injEq]
      constructor
      · rintro rfl
        exact .inl rfl
      · rintro (heq | hmem)
        · exact congrArg Prod.snd heq.symm
        · exact absurd (List.mem_map_of_mem hmem) hnotMem
    · rw [beq_false_of_ne hkey]
      show List.lookup key properties = _ ↔ _
      rw [ih hrest]
      exact ⟨.inr, fun hmem ↦ hmem.resolve_left fun heq ↦ hkey (congrArg Prod.fst heq)⟩

end Json
