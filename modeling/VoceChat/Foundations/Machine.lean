import Mathlib.Data.Nat.Notation

/-!
# Machine integers

Counters and ids of fixed width are natural numbers and integers here. These are the bounds of
their types, and the arithmetic that does not simply fail at them.
-/

namespace Machine

abbrev Byte := Fin 256

instance neZero_byte : @NeZero ℕ Zero.ofOfNat0 256 := Nat.instNeZeroSucc

/-- A byte string. -/
abbrev Bytes := List Byte

/-- Byte strings of one length, `[u8; n]`. -/
abbrev FixedBytes (n : ℕ) := {bytes : Bytes // bytes.length = n}

/-- `String::from_utf8`. -/
def fromUtf8 (bytes : Bytes) : Option String :=
  String.fromUTF8? ⟨(bytes.map fun b ↦ UInt8.ofNat b.val).toArray⟩

/-- One more than `u32::MAX`. -/
def u32Size : ℕ := 4294967296

/-- One more than `i64::MAX`. -/
def i64Size : ℕ := 9223372036854775808

/-- `+` on `u32`, without the overflow check of debug builds. -/
def wrappingAdd (a b : ℕ) : ℕ := (a + b) % u32Size

/-- `u32::saturating_add`. -/
def saturatingAdd (a b : ℕ) : ℕ := min (a + b) (u32Size - 1)

theorem wrappingAdd_of_lt {a b : ℕ} (h : a + b < u32Size) : wrappingAdd a b = a + b :=
  Nat.mod_eq_of_lt h

theorem saturatingAdd_of_lt {a b : ℕ} (h : a + b < u32Size) : saturatingAdd a b = a + b :=
  Nat.min_eq_left (Nat.le_sub_one_of_lt h)

end Machine
