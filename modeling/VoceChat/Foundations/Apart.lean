import VoceChat.Foundations.OrderedMap

/-!
# Maps whose values do not clash

A relation between values that no two entries of a map may be in, like the equality of a column with
a unique index. `Free` is the condition for putting a value at a key: that of the index, which does
not compare an entry with itself.
-/

namespace OrderedMap

variable {κ ν : Type} [LinearOrder κ] (clash : ν → ν → Bool) {m : OrderedMap κ ν} {k : κ} {v : ν}

/-- No other entry clashes with the value. -/
def Free (m : OrderedMap κ ν) (k : κ) (v : ν) : Prop :=
  ∀ l w, m.get l = some w → l ≠ k → clash v w = false

/-- No two entries clash. -/
def Apart (m : OrderedMap κ ν) : Prop := ∀ k v, m.get k = some v → m.Free clash k v

/-- The check of an index, before a value is put at a key. -/
def isFree (m : OrderedMap κ ν) (k : κ) (v : ν) : Bool :=
  m.entries.all fun e ↦ e.1 = k || !clash v e.2

theorem isFree_iff : m.isFree clash k v = true ↔ m.Free clash k v := by
  rw [isFree, List.all_eq_true]
  constructor
  · intro h l w hget hne
    have hall := h (l, w) (get_eq_some.1 hget)
    rw [decide_eq_false hne, Bool.false_or, Bool.not_eq_true'] at hall
    exact hall
  · intro h e hmem
    by_cases hk : e.1 = k
    · rw [decide_eq_true hk, Bool.true_or]
    · rw [h e.1 e.2 (get_eq_some.2 hmem) hk, Bool.not_false, Bool.or_true]

variable {clash}

theorem apart_empty : (empty : OrderedMap κ ν).Apart clash := fun k v h ↦ by cases h

/-- Putting a value that no other entry clashes with, whether its key is new or not. -/
theorem Apart.insert (h : m.Apart clash) (hsymm : ∀ a b, clash a b = clash b a)
    (hfree : m.Free clash k v) : (m.insert k v).Apart clash := by
  intro k₁ v₁ hget₁ k₂ v₂ hget₂ hne
  rw [get_insert] at hget₁ hget₂
  split at hget₁
  · -- the new value against an old one
    rename_i hk₁
    obtain rfl := Option.some.inj hget₁
    rw [if_neg fun hk₂ ↦ hne (hk₂.trans hk₁.symm)] at hget₂
    exact hfree k₂ v₂ hget₂ (hk₁ ▸ hne)
  · rename_i hk₁
    split at hget₂
    · rename_i hk₂
      obtain rfl := Option.some.inj hget₂
      rw [hsymm]
      exact hfree k₁ v₁ hget₁ hk₁
    · exact h k₁ v₁ hget₁ k₂ v₂ hget₂ hne

theorem Apart.erase (h : m.Apart clash) (k : κ) : (m.erase k).Apart clash := by
  intro k₁ v₁ hget₁ k₂ v₂ hget₂ hne
  rw [get_erase] at hget₁ hget₂
  split at hget₁
  · cases hget₁
  · split at hget₂
    · cases hget₂
    · exact h k₁ v₁ hget₁ k₂ v₂ hget₂ hne

/-- A coarser relation keeps more apart. -/
theorem Apart.mono {clash' : ν → ν → Bool} (h : m.Apart clash)
    (hle : ∀ a b, clash' a b = true → clash a b = true) : m.Apart clash' := by
  intro k₁ v₁ hget₁ k₂ v₂ hget₂ hne
  rw [Bool.eq_false_iff]
  intro hclash
  exact Bool.false_ne_true ((h k₁ v₁ hget₁ k₂ v₂ hget₂ hne).symm.trans (hle _ _ hclash))

end OrderedMap
