import Mathlib.Order.Fin.Basic
import Mathlib.Data.List.Induction
import Mathlib.Data.List.Lex
import VoceChat.Foundations.Machine

/-!
# Big-endian keys

Numbers written with their most significant byte first compare as byte strings the way they compare
as numbers (`beBytes_lt`), which is what lets an ordered store scan them in numeric order. Byte
strings are ordered lexicographically.

A string between two strings with a common prefix has that prefix (`prefix_of_between`): a scan
between two such keys does not leave the prefix.
-/

namespace BigEndian

open Machine

/-- The low `w` bytes of `n`, most significant first. -/
def beBytes : ℕ → ℕ → Bytes
  | 0, _ => []
  | w + 1, n => beBytes w (n / 256) ++ [Fin.ofNat 256 n]

/-- The number has no more than `w` bytes. -/
def Fits : ℕ → ℕ → Prop
  | 0, n => n = 0
  | w + 1, n => Fits w (n / 256)

theorem length_beBytes (w n : ℕ) : (beBytes w n).length = w := by
  induction w generalizing n with
  | zero => rfl
  | succ w ih => rw [beBytes, List.length_append, ih, List.length_singleton]

/-- Strings of one length are compared by their fronts first, then by their last bytes. -/
theorem append_singleton_lt {l l' : Bytes} (hlen : l.length = l'.length) {x y : Byte} :
    l ++ [x] < l' ++ [y] ↔ l < l' ∨ l = l' ∧ x < y := by
  induction l generalizing l' with
  | nil =>
    obtain rfl : l' = [] := List.length_eq_zero_iff.1 hlen.symm
    rw [List.nil_append, List.nil_append, List.cons_lt_cons_iff]
    simp
  | cons a l ih =>
    cases l' with
    | nil => cases hlen
    | cons b l' =>
      simp only [List.cons_append, List.cons_lt_cons_iff, ih (Nat.succ.inj hlen), List.cons.injEq]
      grind

theorem beBytes_inj {w m n : ℕ} (hm : Fits w m) (hn : Fits w n)
    (h : beBytes w m = beBytes w n) : m = n := by
  induction w generalizing m n with
  | zero => exact hm.trans hn.symm
  | succ w ih =>
    rw [beBytes, beBytes] at h
    obtain ⟨hfront, hlast⟩ := List.append_inj' h rfl
    have hdiv := ih hm hn hfront
    have hmod : m % 256 = n % 256 := congrArg Fin.val (List.singleton_inj.1 hlast)
    omega

/-- Big-endian byte strings compare as the numbers do. -/
theorem beBytes_lt {w m n : ℕ} (hm : Fits w m) (hn : Fits w n) :
    beBytes w m < beBytes w n ↔ m < n := by
  induction w generalizing m n with
  | zero =>
    have hm : m = 0 := hm
    have hn : n = 0 := hn
    simp [beBytes, hm, hn]
  | succ w ih =>
    rw [beBytes, beBytes, append_singleton_lt (by rw [length_beBytes, length_beBytes]), ih hm hn]
    have hlast : Fin.ofNat 256 m < Fin.ofNat 256 n ↔ m % 256 < n % 256 := Iff.rfl
    rw [hlast]
    constructor
    · rintro (hlt | ⟨heq, hlt⟩)
      · omega
      · have := beBytes_inj (w := w) hm hn heq
        omega
    · intro hlt
      rcases Nat.lt_or_ge (m / 256) (n / 256) with hdiv | hdiv
      · exact .inl hdiv
      · have hdiv : m / 256 = n / 256 := by omega
        exact .inr ⟨by rw [hdiv], by omega⟩

/-- What lies between two strings with a common prefix has it too. -/
theorem prefix_of_between {p a b k : Bytes} (hlo : p ++ a ≤ k) (hhi : k < p ++ b) :
    ∃ c, k = p ++ c := by
  induction p generalizing k with
  | nil => exact ⟨k, rfl⟩
  | cons x p ih =>
    cases k with
    | nil => exact absurd hlo (not_le.2 (by simp))
    | cons y k =>
      rw [List.cons_append] at hlo hhi
      rcases List.cons_lt_cons_iff.1 hhi with hlt | ⟨rfl, hlt⟩
      · refine absurd hlo (not_le.2 ?_)
        exact List.cons_lt_cons_iff.2 (.inl hlt)
      · have hle : p ++ a ≤ k := by
          refine not_lt.1 fun hk ↦ not_lt.2 hlo ?_
          exact List.cons_lt_cons_iff.2 (.inr ⟨rfl, hk⟩)
        obtain ⟨c, rfl⟩ := ih hle hlt
        exact ⟨c, rfl⟩

/-- A common prefix does not matter in a comparison. -/
theorem append_lt_append_iff (p : Bytes) {a b : Bytes} : p ++ a < p ++ b ↔ a < b := by
  induction p with
  | nil => rfl
  | cons x p ih => simp [ih]

/-! ### Reading a number back -/

/-- The value of a big-endian number. -/
def ofBe (bytes : Bytes) : ℕ := bytes.foldl (fun n b ↦ 256 * n + b.val) 0

theorem ofBe_concat (bytes : Bytes) (b : Byte) : ofBe (bytes ++ [b]) = 256 * ofBe bytes + b.val :=
  List.foldl_append

theorem ofBe_beBytes {w n : ℕ} (h : Fits w n) : ofBe (beBytes w n) = n := by
  induction w generalizing n with
  | zero => exact h.symm
  | succ w ih =>
    rw [beBytes, ofBe_concat, ih h, Fin.val_ofNat]
    omega

theorem fits_ofBe (bytes : Bytes) : Fits bytes.length (ofBe bytes) := by
  induction bytes using List.reverseRecOn with
  | nil => rfl
  | append_singleton bytes b ih =>
    have hdiv : (256 * ofBe bytes + b.val) / 256 = ofBe bytes := by omega
    rw [List.length_append, List.length_singleton, ofBe_concat, Fits, hdiv]
    exact ih

theorem beBytes_ofBe (bytes : Bytes) : beBytes bytes.length (ofBe bytes) = bytes := by
  induction bytes using List.reverseRecOn with
  | nil => rfl
  | append_singleton bytes b ih =>
    have hdiv : (256 * ofBe bytes + b.val) / 256 = ofBe bytes := by omega
    have hlast : (Fin.ofNat 256 (256 * ofBe bytes + b.val) : Byte) = b :=
      Fin.ext (by rw [Fin.val_ofNat]; omega)
    rw [List.length_append, List.length_singleton, ofBe_concat, beBytes, hdiv, ih, hlast]

theorem fits_four {n : ℕ} : Fits 4 n ↔ n < u32Size := by
  simp only [Fits]
  unfold u32Size
  omega

end BigEndian
