import Mathlib.Data.Nat.Notation
import Mathlib.Data.Nat.Digits.Lemmas

/-!
# Numbers in decimal

A number is printed in one way (`decimal`), but several texts are parsed as the same number: a plus
sign and zeros may stand in front of it. What was printed is parsed (`parseUnsigned_decimal`), also
with zeros in front (`parseDigits_padded`).
-/

namespace Decimal

/-- `n.to_string()`. -/
def decimal (n : ℕ) : String := String.ofList (Nat.toDigits 10 n)

def digit (c : Char) : Option ℕ :=
  if 48 ≤ c.toNat ∧ c.toNat ≤ 57 then some (c.toNat - 48) else none

/-- The loop over the digits, which ends where the number gets too large. -/
def parseDigits (bound : ℕ) : ℕ → List Char → Option ℕ
  | n, [] => some n
  | n, c :: cs => do
    let d ← digit c
    if n * 10 + d < bound then parseDigits bound (n * 10 + d) cs else none

/-- `str::parse`, for an unsigned type with numbers below `bound`. -/
def parseUnsigned (bound : ℕ) (text : String) : Option ℕ :=
  match text.toList with
  | [] => none
  | c :: cs =>
    if c = '+' then if cs = [] then none else parseDigits bound 0 cs
    else parseDigits bound 0 (c :: cs)

variable {bound n : ℕ}

theorem digit_digitChar : ∀ d < 10, digit d.digitChar = some d := by decide

theorem digitChar_ne_plus : ∀ d < 10, d.digitChar ≠ '+' := by decide

theorem parseDigits_append (cs cs' : List Char) (m : ℕ) :
    parseDigits bound m (cs ++ cs') = (parseDigits bound m cs).bind fun k ↦
    parseDigits bound k cs' := by
  induction cs generalizing m with
  | nil => rfl
  | cons c cs ih =>
    rw [List.cons_append, parseDigits, parseDigits]
    cases digit c with
    | none => rfl
    | some d =>
      show (if m * 10 + d < bound then parseDigits bound (m * 10 + d) (cs ++ cs') else none) =
        (if m * 10 + d < bound then parseDigits bound (m * 10 + d) cs else none).bind _
      split
      · exact ih _
      · rfl

/-- The digits of a number are those of its tenth and one more. -/
theorem toDigits_ten (n : ℕ) : Nat.toDigits 10 n =
    (if n < 10 then [] else Nat.toDigits 10 (n / 10)) ++ [(n % 10).digitChar] := by
  split
  · rename_i hlt
    rw [Nat.toDigits_of_lt_base hlt, Nat.mod_eq_of_lt hlt, List.nil_append]
  · rename_i hge
    rw [Nat.toDigits_of_base_le (by decide) (Nat.not_lt.1 hge)]

theorem parseDigits_toDigits (h : n < bound) :
    parseDigits bound 0 (Nat.toDigits 10 n) = some n := by
  induction n using Nat.strongRecOn with
  | ind n ih =>
    have hlast : ∀ k, k * 10 + n % 10 = n →
        parseDigits bound k [(n % 10).digitChar] = some n := by
      intro k hk
      rw [parseDigits, digit_digitChar _ (Nat.mod_lt n (by decide))]
      show (if k * 10 + n % 10 < bound then _ else none) = _
      rw [hk, if_pos h, parseDigits]
    rw [toDigits_ten, parseDigits_append]
    split
    · rename_i hlt
      exact hlast 0 (by omega)
    · rw [ih (n / 10) (by omega) (by omega)]
      exact hlast (n / 10) (by omega)

/-- No number begins with a sign. -/
theorem toDigits_cons (n : ℕ) : ∃ c cs, Nat.toDigits 10 n = c :: cs ∧ c ≠ '+' := by
  induction n using Nat.strongRecOn with
  | ind n ih =>
    rw [toDigits_ten]
    split
    · exact ⟨_, [], rfl, digitChar_ne_plus _ (Nat.mod_lt n (by decide))⟩
    · obtain ⟨c, cs, hcons, hne⟩ := ih (n / 10) (by omega)
      exact ⟨c, cs ++ [_], by rw [hcons]; rfl, hne⟩

/-- **What was printed is parsed**, if it is in the range of the type. -/
theorem parseUnsigned_decimal (h : n < bound) : parseUnsigned bound (decimal n) = some n := by
  obtain ⟨c, cs, hcons, hne⟩ := toDigits_cons n
  have hparse := parseDigits_toDigits h
  rw [parseUnsigned, decimal, String.toList_ofList, hcons]
  show (if c = '+' then _ else _) = _
  rw [if_neg hne, ← hcons, hparse]

theorem lt_of_parseDigits {m : ℕ} {cs : List Char} (hm : m < bound)
    (h : parseDigits bound m cs = some n) : n < bound := by
  induction cs generalizing m with
  | nil => exact Option.some.inj h ▸ hm
  | cons c cs ih =>
    rw [parseDigits, Option.bind_eq_bind, Option.bind_eq_some_iff] at h
    obtain ⟨d, -, h⟩ := h
    split at h
    · rename_i hlt
      exact ih hlt h
    · cases h

theorem lt_of_parseUnsigned {text : String} (hbound : 0 < bound)
    (h : parseUnsigned bound text = some n) : n < bound := by
  unfold parseUnsigned at h
  split at h
  · cases h
  · split at h
    · split at h
      · cases h
      · exact lt_of_parseDigits hbound h
    · exact lt_of_parseDigits hbound h

/-! ### Zeros in front -/

/-- `format!("{n:0w$}")`: zeros are put in front of a number that is shorter. -/
def padded (w n : ℕ) : List Char := (Nat.toDigits 10 n).leftpad w '0'

theorem parseDigits_zeros (h : 0 < bound) (k : ℕ) (cs : List Char) :
    parseDigits bound 0 (List.replicate k '0' ++ cs) = parseDigits bound 0 cs := by
  induction k with
  | zero => rfl
  | succ k ih =>
    rw [List.replicate_succ, List.cons_append, parseDigits]
    show (if 0 * 10 + 0 < bound then parseDigits bound 0 _ else none) = _
    rw [if_pos h, ih]

theorem parseDigits_padded (w : ℕ) (h : n < bound) :
    parseDigits bound 0 (padded w n) = some n := by
  rw [padded, List.leftpad, parseDigits_zeros (Nat.zero_lt_of_lt h), parseDigits_toDigits h]

theorem length_padded {w : ℕ} (hw : 0 < w) (h : n < 10 ^ w) : (padded w n).length = w := by
  have hle := (Nat.length_toDigits_le_iff (by decide) hw).2 h
  rw [padded, List.leftpad, List.length_append, List.length_replicate]
  omega

theorem padded_inj {w m : ℕ} (h : padded w m = padded w n) : m = n := by
  have hm : parseDigits (m + n + 1) 0 (padded w m) = some m := parseDigits_padded w (by omega)
  rw [h, parseDigits_padded w (by omega)] at hm
  exact (Option.some.inj hm).symm

theorem decimal_inj {m : ℕ} (h : decimal m = decimal n) : m = n := by
  have hm : parseUnsigned (m + n + 1) (decimal m) = some m := parseUnsigned_decimal (by omega)
  have hn : parseUnsigned (m + n + 1) (decimal n) = some n := parseUnsigned_decimal (by omega)
  rw [h, hn] at hm
  exact (Option.some.inj hm).symm

end Decimal
