import Mathlib.Data.Int.Notation
import VoceChat.Foundations.BigEndian

/-!
# Bincode with fixed widths

Numbers have their low byte first, an option has a tag, a string its length. A reader takes what it
needs off the front. `Reads` says that bytes are read as a value whatever follows them, and readers
in a row read bytes in a row (`Reads.bind`).
-/

namespace Bincode

open BigEndian Machine

abbrev Reader := StateT Bytes Option

/-! ### Writing -/

/-- The low `w` bytes of a number, the lowest first. -/
def leBytes : ℕ → ℕ → Bytes
  | 0, _ => []
  | w + 1, n => Fin.ofNat 256 n :: leBytes w (n / 256)

def u16 (n : ℕ) : Bytes := leBytes 2 n

def u32 (n : ℕ) : Bytes := leBytes 4 n

def u64 (n : ℕ) : Bytes := leBytes 8 n

/-- In two's complement. -/
def i64 (n : ℤ) : Bytes := u64 (n % (2 * i64Size)).toNat

def bool (b : Bool) : Bytes := [if b then 1 else 0]

def option {α : Type} (write : α → Bytes) : Option α → Bytes
  | none => [0]
  | some a => 1 :: write a

def string (bytes : Bytes) : Bytes := u64 bytes.length ++ bytes

/-! ### Reading -/

def leValue : Bytes → ℕ
  | [] => 0
  | b :: bs => b.val + 256 * leValue bs

def take (n : ℕ) : Reader Bytes := fun bytes ↦
  if n ≤ bytes.length then some (bytes.take n, bytes.drop n) else none

def readU16 : Reader ℕ := leValue <$> take 2

def readU32 : Reader ℕ := leValue <$> take 4

def readU64 : Reader ℕ := leValue <$> take 8

def readI64 : Reader ℤ :=
  (fun n ↦ if n < i64Size then (n : ℤ) else (n : ℤ) - 2 * i64Size) <$> readU64

/-- A byte that is no truth value is an error. -/
def readBool : Reader Bool := do
  match ← take 1 with
  | [0] => return false
  | [1] => return true
  | _ => failure

def readOption {α : Type} (read : Reader α) : Reader (Option α) := do
  if ← readBool then some <$> read else return none

/-- A string has to be UTF-8. -/
def readString : Reader String := do
  let n ← readU64
  let bytes ← take n
  StateT.lift (fromUtf8 bytes)

/-- So many in a row. -/
def readMany {α : Type} (read : Reader α) : ℕ → Reader (List α)
  | 0 => return []
  | n + 1 => do
    let a ← read
    let as ← readMany read n
    return a :: as

/-! ### What is written is read -/

section

variable {α β : Type} {read : Reader α} {f : α → Reader β} {bytes bytes' : Bytes} {a : α} {b : β}

/-- The bytes are read as the value, whatever follows. -/
def Reads (read : Reader α) (bytes : Bytes) (a : α) : Prop :=
  ∀ rest, read (bytes ++ rest) = some (a, rest)

theorem Reads.bind (h : Reads read bytes a) (h' : Reads (f a) bytes' b) :
    Reads (read >>= f) (bytes ++ bytes') b := by
  intro rest
  rw [List.append_assoc]
  show (read (bytes ++ (bytes' ++ rest))).bind _ = _
  rw [h]
  exact h' rest

/-- The last reader of a row. -/
theorem Reads.last (h : Reads read bytes a) (h' : Reads (f a) [] b) :
    Reads (read >>= f) bytes b := by
  have hbind := h.bind h'
  rwa [List.append_nil] at hbind

theorem Reads.map (h : Reads read bytes a) (g : α → β) : Reads (g <$> read) bytes (g a) := by
  intro rest
  show (read (bytes ++ rest)).bind _ = _
  rw [h]
  rfl

theorem reads_pure (a : α) : Reads (pure a) [] a := fun _ ↦ rfl

theorem reads_many {write : α → Bytes} {as : List α} (h : ∀ a ∈ as, Reads read (write a) a) :
    Reads (readMany read as.length) (as.flatMap write) as := by
  induction as with
  | nil => exact reads_pure []
  | cons a as ih =>
    rw [List.flatMap_cons]
    refine (h a List.mem_cons_self).bind ?_
    exact (ih fun b hb ↦ h b (List.mem_cons_of_mem a hb)).last (reads_pure (a :: as))

theorem reads_take (bytes : Bytes) : Reads (take bytes.length) bytes bytes := by
  intro rest
  rw [take, if_pos (by rw [List.length_append]; omega), List.take_left, List.drop_left]

theorem length_leBytes (w n : ℕ) : (leBytes w n).length = w := by
  induction w generalizing n with
  | zero => rfl
  | succ w ih => rw [leBytes, List.length_cons, ih]

theorem leValue_leBytes {w n : ℕ} (h : Fits w n) : leValue (leBytes w n) = n := by
  induction w generalizing n with
  | zero => exact h.symm
  | succ w ih =>
    rw [leBytes, leValue, ih h, Fin.val_ofNat]
    omega

theorem reads_le {w n : ℕ} (h : Fits w n) : Reads (leValue <$> take w) (leBytes w n) n := by
  have hread := (reads_take (leBytes w n)).map leValue
  rwa [length_leBytes, leValue_leBytes h] at hread

theorem reads_u16 {n : ℕ} (h : n < 65536) : Reads readU16 (u16 n) n := by
  refine reads_le ?_
  simp only [Fits]
  omega

theorem reads_u32 {n : ℕ} (h : n < u32Size) : Reads readU32 (u32 n) n := by
  refine reads_le ?_
  simp only [Fits]
  unfold u32Size at h
  omega

/-- The first byte is the low one. -/
theorem head_of_readU32 {n : ℕ} {rest : Bytes} (h : readU32 bytes = some (n, rest)) :
    bytes.head?.map (·.val) = some (n % 256) := by
  obtain ⟨⟨front, rest'⟩, htake, hn⟩ := Option.bind_eq_some_iff.1 h
  obtain ⟨rfl, rfl⟩ := Prod.mk.inj (Option.some.inj hn)
  rw [take] at htake
  split at htake
  · rename_i hlen
    obtain ⟨rfl, -⟩ := Prod.mk.inj (Option.some.inj htake)
    cases bytes with
    | nil => exact absurd hlen (by decide)
    | cons b bytes =>
      rw [List.take_succ_cons, leValue, Nat.add_mul_mod_self_left, Nat.mod_eq_of_lt b.isLt]
      rfl
  · cases htake

theorem reads_u64 {n : ℕ} (h : n < 2 * i64Size) : Reads readU64 (u64 n) n := by
  refine reads_le ?_
  simp only [Fits]
  unfold i64Size at h
  omega

theorem reads_i64 {n : ℤ} (hlow : -(i64Size : ℤ) ≤ n) (hhigh : n < i64Size) :
    Reads readI64 (i64 n) n := by
  have hread := (reads_u64 (n := (n % (2 * i64Size)).toNat) (by unfold i64Size; omega)).map
    fun n ↦ if n < i64Size then (n : ℤ) else (n : ℤ) - 2 * i64Size
  have hvalue : (if (n % (2 * i64Size)).toNat < i64Size then ((n % (2 * i64Size)).toNat : ℤ)
      else ((n % (2 * i64Size)).toNat : ℤ) - 2 * i64Size) = n := by
    unfold i64Size at hlow hhigh ⊢
    split <;> omega
  simp only [hvalue] at hread
  exact hread

theorem reads_bool (b : Bool) : Reads readBool (bool b) b := by
  intro rest
  cases b with
  | false => rfl
  | true => rfl

/-- A text that is not longer than a `u64` can say. -/
theorem reads_string {s : String} {bytes : Bytes} (h : fromUtf8 bytes = some s)
    (hlen : bytes.length < 2 * i64Size) : Reads readString (string bytes) s := by
  have hlift : Reads (StateT.lift (fromUtf8 bytes)) [] s := by
    intro rest
    show (fromUtf8 bytes).bind _ = _
    rw [h]
    rfl
  have htail : Reads (do let bs ← take bytes.length; StateT.lift (fromUtf8 bs)) (bytes ++ []) s :=
    (reads_take bytes).bind hlift
  have hread : Reads readString (u64 bytes.length ++ (bytes ++ [])) s :=
    (reads_u64 hlen).bind htail
  rwa [List.append_nil] at hread

theorem reads_option {write : α → Bytes} {o : Option α} (h : ∀ a ∈ o, Reads read (write a) a) :
    Reads (readOption read) (option write o) o := by
  cases o with
  | none => exact (reads_bool false).bind (reads_pure none)
  | some a => exact (reads_bool true).bind ((h a rfl).map some)

end

end Bincode
