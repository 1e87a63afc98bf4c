import Mathlib.Logic.Function.Iterate

/-!
# Chains of derived keys

Two facts about keys that are derived from one another by collision-free functions.

A **symmetric chain** starts at some key and repeats one injective derivation `next`. When no
start is itself an output of `next`, a chain key determines both the chain and the position in it
(`iterate_eq_iterate_iff`): peel the derivations off both sides until one side is bare.

A **root chain** mixes a fresh input into every derivation. When the first root is never derived,
its keys are pairwise distinct (`root_injective`), whatever the inputs are — repeated inputs do
not make the chain cycle.
-/

namespace KeyChain

variable {κ δ : Type*}

/-- Equal chain keys come from the same chain at the same position. -/
theorem iterate_eq_iterate_iff (next : κ → κ) (hinj : Function.Injective next) {a b : κ}
    (ha : ∀ k, next k ≠ a) (hb : ∀ k, next k ≠ b) {m n : ℕ} :
    next^[m] a = next^[n] b ↔ a = b ∧ m = n := by
  constructor
  · intro h
    induction m generalizing n with
    | zero =>
      cases n with
      | zero => exact ⟨h, rfl⟩
      | succ n =>
        rw [Function.iterate_succ_apply'] at h
        exact absurd h.symm (ha _)
    | succ m ih =>
      cases n with
      | zero =>
        rw [Function.iterate_succ_apply'] at h
        exact absurd h (hb _)
      | succ n =>
        rw [Function.iterate_succ_apply', Function.iterate_succ_apply'] at h
        obtain ⟨hab, hmn⟩ := ih (hinj h)
        exact ⟨hab, by rw [hmn]⟩
  · rintro ⟨rfl, rfl⟩
    rfl

/-- The keys of a root chain are pairwise distinct. -/
theorem root_injective (derive : κ → δ → κ) (input : ℕ → δ) {root : ℕ → κ}
    (hinj : ∀ {a b : κ} {c d : δ}, derive a c = derive b d → a = b)
    (hstart : ∀ a c, derive a c ≠ root 0)
    (hsucc : ∀ i, root (i + 1) = derive (root i) (input i)) : Function.Injective root := by
  intro i
  induction i with
  | zero =>
    intro j h
    cases j with
    | zero => rfl
    | succ j => exact absurd (h.trans (hsucc j)).symm (hstart _ _)
  | succ i ih =>
    intro j h
    cases j with
    | zero => exact absurd ((hsucc i).symm.trans h) (hstart _ _)
    | succ j =>
      rw [hsucc i, hsucc j] at h
      rw [ih (hinj h)]

end KeyChain
