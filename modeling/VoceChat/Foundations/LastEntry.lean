import Mathlib.Order.Lattice

/-!
# The last entry of a log

A log has entries, each with a key and a value, and the entry with the greatest key decides
(`Shows`); where there is none, an initial value does. The log is given as a relation, so nothing is
said of how it is kept.

Entries need not be added in the order of their keys. `shows_insert` says what a log shows once an
entry has joined it: its value, if its key is the greatest, or else what the greatest had already.
-/

namespace LastEntry

variable {ι C : Type*} [LinearOrder ι]

/-- `v` is the value of the entry with the greatest key. -/
def IsLast (E : ι → C → Prop) (i : ι) (v : C) : Prop := E i v ∧ ∀ j w, E j w → j ≤ i

/-- The value of the last entry, or the initial one where there is no entry. -/
def Shows (E : ι → C → Prop) (v₀ v : C) : Prop :=
  (∃ i, IsLast E i v) ∨ (∀ i w, ¬E i w) ∧ v = v₀

variable {E E' : ι → C → Prop} {i : ι} {u v v₀ : C}

/-- Logs with the same entries show the same. -/
theorem shows_congr (h : ∀ j w, E' j w ↔ E j w) : Shows E' v₀ v ↔ Shows E v₀ v := by
  obtain rfl : E' = E := funext fun j ↦ funext fun w ↦ propext (h j w)
  rfl

/-- A log shows one value, if a key has one. -/
theorem Shows.unique (hE : ∀ j w w', E j w → E j w' → w = w') (hu : Shows E v₀ u)
    (hv : Shows E v₀ v) : u = v := by
  rcases hu with ⟨i, hi, hlast⟩ | ⟨hnone, rfl⟩
  · rcases hv with ⟨j, hj, hlast'⟩ | ⟨hnone, -⟩
    · obtain rfl : i = j := le_antisymm (hlast' i u hi) (hlast j v hj)
      exact hE i u v hi hj
    · exact absurd hi (hnone i u)
  · rcases hv with ⟨j, hj, -⟩ | ⟨-, rfl⟩
    · exact absurd hj (hnone j v)
    · rfl

/-- **An entry joins the log.** -/
theorem shows_insert (hnew : ∀ w, ¬E i w) (hE' : ∀ j w, E' j w ↔ E j w ∨ j = i ∧ w = u) :
    Shows E' v₀ v ↔ (∀ j w, E j w → j < i) ∧ v = u ∨ ∃ j, IsLast E j v ∧ i < j := by
  have hself : E' i u := (hE' i u).2 (.inr ⟨rfl, rfl⟩)
  have hne : ∀ j w, E j w → j ≠ i := fun j w h heq ↦ hnew w (heq ▸ h)
  constructor
  · rintro (⟨j, hj, hlast⟩ | ⟨hnone, -⟩)
    · rcases (hE' j v).1 hj with hj | ⟨rfl, rfl⟩
      · have hlt : i < j := lt_of_le_of_ne (hlast i u hself) (hne j v hj).symm
        exact .inr ⟨j, ⟨hj, fun k w hk ↦ hlast k w ((hE' k w).2 (.inl hk))⟩, hlt⟩
      · refine .inl ⟨fun k w hk ↦ ?_, rfl⟩
        exact lt_of_le_of_ne (hlast k w ((hE' k w).2 (.inl hk))) (hne k w hk)
    · exact absurd hself (hnone i u)
  · rintro (⟨hlast, rfl⟩ | ⟨j, ⟨hj, hlast⟩, hlt⟩)
    · refine .inl ⟨i, hself, fun k w hk ↦ ?_⟩
      rcases (hE' k w).1 hk with hk | ⟨rfl, -⟩
      · exact (hlast k w hk).le
      · exact le_rfl
    · refine .inl ⟨j, (hE' j v).2 (.inl hj), fun k w hk ↦ ?_⟩
      rcases (hE' k w).1 hk with hk | ⟨rfl, -⟩
      · exact hlast k w hk
      · exact hlt.le

/-- The log goes on to show its value, if a later entry is there or the value is the new one's. -/
theorem Shows.insert_iff (hE : ∀ j w w', E j w → E j w' → w = w') (hnew : ∀ w, ¬E i w)
    (hE' : ∀ j w, E' j w ↔ E j w ∨ j = i ∧ w = u) (hv : Shows E v₀ v) :
    Shows E' v₀ v ↔ (∃ j w, E j w ∧ i < j) ∨ Shows E v₀ u := by
  rw [shows_insert hnew hE']
  constructor
  · rintro (⟨-, rfl⟩ | ⟨j, ⟨hj, -⟩, hlt⟩)
    · exact .inr hv
    · exact .inl ⟨j, v, hj, hlt⟩
  · intro h
    by_cases hlater : ∃ j w, E j w ∧ i < j
    · obtain ⟨j, w, hj, hlt⟩ := hlater
      rcases hv with ⟨k, hlast⟩ | ⟨hnone, -⟩
      · exact .inr ⟨k, hlast, lt_of_lt_of_le hlt (hlast.2 j w hj)⟩
      · exact absurd hj (hnone j w)
    · refine .inl ⟨fun j w hj ↦ ?_, hv.unique hE (h.resolve_left hlater)⟩
      have hle : j ≤ i := not_lt.1 fun hlt ↦ hlater ⟨j, w, hj, hlt⟩
      exact lt_of_le_of_ne hle fun heq ↦ hnew w (heq ▸ hj)

end LastEntry
