import VoceChat.Foundations.Machine

/-!
# Hexadecimal text

Two digits a byte, written in lower case and read in either. What was written is read back
(`decode_encode`); what can be read consists of digits (`value_isSome_of_decode`).
-/

namespace Hex

open Machine

/-- The digit of a number below 16. -/
def digit (n : ℕ) : Char := if n < 10 then Char.ofNat (48 + n) else Char.ofNat (87 + n)

/-- The number of a digit. -/
def value (c : Char) : Option ℕ :=
  if 48 ≤ c.toNat ∧ c.toNat ≤ 57 then some (c.toNat - 48)
  else if 97 ≤ c.toNat ∧ c.toNat ≤ 102 then some (c.toNat - 87)
  else if 65 ≤ c.toNat ∧ c.toNat ≤ 70 then some (c.toNat - 55)
  else none

def encode : Bytes → List Char
  | [] => []
  | b :: bs => digit (b.val / 16) :: digit (b.val % 16) :: encode bs

/-- An odd length and anything that is no digit are errors. -/
def decode : List Char → Option Bytes
  | [] => some []
  | [_] => none
  | c :: d :: cs =>
    match value c, value d, decode cs with
    | some hi, some lo, some bs => some (Fin.ofNat 256 (16 * hi + lo) :: bs)
    | _, _, _ => none

theorem value_digit : ∀ n < 16, value (digit n) = some n := by decide

@[simp] theorem decode_encode (bs : Bytes) : decode (encode bs) = some bs := by
  induction bs with
  | nil => rfl
  | cons b bs ih =>
    have hb := b.isLt
    rw [encode, decode, value_digit _ (by omega), value_digit _ (by omega), ih]
    have hbyte : Fin.ofNat 256 (16 * (b.val / 16) + b.val % 16) = b := by
      refine Fin.ext ?_
      rw [Fin.val_ofNat]
      omega
    exact congrArg (fun b ↦ some (b :: bs)) hbyte

/-- The low digit of a byte is in the text. -/
theorem digit_mem_encode {b : Byte} {bs : Bytes} (h : b ∈ bs) :
    digit (b.val % 16) ∈ encode bs := by
  induction bs with
  | nil => cases h
  | cons b' bs ih =>
    rw [encode]
    rcases List.mem_cons.1 h with rfl | h
    · exact List.mem_cons_of_mem _ List.mem_cons_self
    · exact List.mem_cons_of_mem _ (List.mem_cons_of_mem _ (ih h))

/-- Nothing but digits can be read. -/
theorem value_isSome_of_decode {cs : List Char} {bs : Bytes} (h : decode cs = some bs) :
    ∀ c ∈ cs, (value c).isSome := by
  induction cs using decode.induct generalizing bs with
  | case1 => exact fun c hc ↦ absurd hc List.not_mem_nil
  | case2 c => cases h
  | case3 c d cs hi lo bs' hcs hd hc ih =>
    intro e he
    simp only [List.mem_cons] at he
    obtain rfl | rfl | he := he
    · rw [hc]
      rfl
    · rw [hd]
      rfl
    · exact ih hcs e he
  | case4 c d cs hnone =>
    rw [decode] at h
    split at h
    · rename_i hi lo bs' hc hd hcs
      exact absurd hcs (hnone hi lo bs' hc hd)
    · cases h

end Hex
