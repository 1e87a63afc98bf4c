import Mathlib.Data.Int.Notation
import VoceChat.Foundations.Decimal

/-!
# Numbers with a sign, in decimal

As for numbers without one: what was printed is parsed (`parseSigned_signed`).
-/

namespace Decimal

/-- `n.to_string()`. -/
def signed (n : ℤ) : String :=
  if n < 0 then String.ofList ('-' :: Nat.toDigits 10 n.natAbs) else decimal n.natAbs

/-- `str::parse`, for a signed type with numbers below `bound`, and down to `-bound`. -/
def parseSigned (bound : ℕ) (text : String) : Option ℤ :=
  match text.toList with
  | [] => none
  | c :: cs =>
    if c = '-' then
      if cs = [] then none else (parseDigits (bound + 1) 0 cs).map fun n ↦ -(n : ℤ)
    else (parseUnsigned bound text).map fun n ↦ (n : ℤ)

variable {bound : ℕ} {n : ℤ}

theorem digitChar_ne_minus : ∀ d < 10, d.digitChar ≠ '-' := by decide

/-- No number begins with a minus sign. -/
theorem toDigits_cons_ne_minus (n : ℕ) : ∃ c cs, Nat.toDigits 10 n = c :: cs ∧ c ≠ '-' := by
  induction n using Nat.strongRecOn with
  | ind n ih =>
    rw [toDigits_ten]
    split
    · exact ⟨_, [], rfl, digitChar_ne_minus _ (Nat.mod_lt n (by decide))⟩
    · obtain ⟨c, cs, hcons, hne⟩ := ih (n / 10) (by omega)
      exact ⟨c, cs ++ [_], by rw [hcons]; rfl, hne⟩

/-- **What was printed is parsed**, if it is in the range of the type. -/
theorem parseSigned_signed (hlo : -(bound : ℤ) ≤ n) (hhi : n < bound) :
    parseSigned bound (signed n) = some n := by
  obtain ⟨c, cs, hcons, hne⟩ := toDigits_cons_ne_minus n.natAbs
  by_cases hneg : n < 0
  · rw [signed, if_pos hneg, parseSigned, String.toList_ofList]
    show (if _ = [] then none else _) = _
    rw [hcons, if_neg (List.cons_ne_nil c cs), ← hcons, parseDigits_toDigits (by omega)]
    have habs : -(n.natAbs : ℤ) = n := by omega
    exact congrArg some habs
  · rw [signed, if_neg hneg, parseSigned, decimal, String.toList_ofList, hcons]
    show (if c = '-' then _ else _) = _
    rw [if_neg hne, ← hcons, ← decimal, parseUnsigned_decimal (by omega)]
    have habs : (n.natAbs : ℤ) = n := by omega
    exact congrArg some habs

end Decimal
