import Mathlib.Data.List.Induction
import Mathlib.Data.List.Sort

/-!
# Sorting by a key, stably

`sortBy key xs` is `xs` in ascending order of the keys, with elements of one key in the order they
had. Elements are inserted one after the other, each behind those of its own key; so an element at
the end of a list is one insertion into the rest, sorted (`sortBy_append_singleton`), and everything
here is an induction from the end.
-/

namespace StableSort

variable {α β κ : Type*} [LinearOrder κ]

/-- Insert behind all elements whose keys are not greater. -/
abbrev insertBy (key : α → κ) (x : α) (xs : List α) : List α :=
  xs.orderedInsert (fun a b ↦ key a < key b) x

/-- Stable sort by a key. -/
def sortBy (key : α → κ) (xs : List α) : List α :=
  xs.reverse.insertionSort fun a b ↦ key a < key b

variable {key : α → κ} {x : α} {xs : List α}

@[simp] theorem sortBy_nil : sortBy key [] = [] := rfl

theorem sortBy_append_singleton (key : α → κ) (xs : List α) (x : α) :
    sortBy key (xs ++ [x]) = insertBy key x (sortBy key xs) := by
  rw [sortBy, List.reverse_append]
  rfl

@[simp] theorem mem_sortBy {a : α} : a ∈ sortBy key xs ↔ a ∈ xs := by
  rw [sortBy, List.mem_insertionSort, List.mem_reverse]

/-- Behind everything there is nothing to pass. -/
theorem insertBy_of_forall_le (h : ∀ a ∈ xs, key a ≤ key x) : insertBy key x xs = xs ++ [x] := by
  induction xs with
  | nil => rfl
  | cons a xs ih =>
    rw [insertBy, List.orderedInsert_cons, if_neg (not_lt.2 (h a List.mem_cons_self))]
    exact congrArg (a :: ·) (ih fun b hb ↦ h b (List.mem_cons_of_mem a hb))

theorem sorted_insertBy (x : α) (h : xs.Pairwise fun a b ↦ key a ≤ key b) :
    (insertBy key x xs).Pairwise fun a b ↦ key a ≤ key b := by
  induction xs with
  | nil => exact List.pairwise_singleton _ x
  | cons a xs ih =>
    obtain ⟨ha, hxs⟩ := List.pairwise_cons.1 h
    rw [insertBy, List.orderedInsert_cons]
    split
    · rename_i hlt
      refine List.pairwise_cons.2 ⟨fun b hb ↦ ?_, h⟩
      rcases List.mem_cons.1 hb with rfl | hb
      · exact le_of_lt hlt
      · exact (le_of_lt hlt).trans (ha b hb)
    · rename_i hle
      refine List.pairwise_cons.2 ⟨fun b hb ↦ ?_, ih hxs⟩
      rcases (List.mem_orderedInsert _).1 hb with rfl | hb
      · exact not_lt.1 hle
      · exact ha b hb

theorem sorted_sortBy (key : α → κ) (xs : List α) :
    (sortBy key xs).Pairwise fun a b ↦ key a ≤ key b := by
  induction xs using List.reverseRecOn with
  | nil => exact List.Pairwise.nil
  | append_singleton xs x ih =>
    rw [sortBy_append_singleton]
    exact sorted_insertBy x ih

/-- A list in order stays as it is. -/
theorem sortBy_eq_self (h : xs.Pairwise fun a b ↦ key a ≤ key b) : sortBy key xs = xs := by
  induction xs using List.reverseRecOn with
  | nil => rfl
  | append_singleton xs x ih =>
    obtain ⟨hxs, -, hlast⟩ := List.pairwise_append.1 h
    rw [sortBy_append_singleton, ih hxs]
    exact insertBy_of_forall_le fun a ha ↦ hlast a ha x (List.mem_singleton_self x)

/-- Sorting before an element is added makes no difference. -/
theorem sortBy_sortBy_append (key : α → κ) (xs : List α) (x : α) :
    sortBy key (sortBy key xs ++ [x]) = sortBy key (xs ++ [x]) := by
  rw [sortBy_append_singleton, sortBy_append_singleton, sortBy_eq_self (sorted_sortBy key xs)]

theorem filter_insertBy_of_pos {p : α → Bool} (hx : p x = true)
    (h : xs.Pairwise fun a b ↦ key a ≤ key b) :
    (insertBy key x xs).filter p = insertBy key x (xs.filter p) := by
  induction xs with
  | nil => exact List.filter_cons_of_pos hx
  | cons a xs ih =>
    obtain ⟨ha, hxs⟩ := List.pairwise_cons.1 h
    rw [insertBy, List.orderedInsert_cons]
    split
    · rename_i hlt
      rw [List.filter_cons_of_pos hx]
      -- everything that is left is greater than `x`
      cases hfilter : (a :: xs).filter p with
      | nil => rfl
      | cons b ys =>
        have hb : b ∈ a :: xs := (List.mem_filter.1 (hfilter ▸ List.mem_cons_self)).1
        rw [insertBy, List.orderedInsert_cons_of_le]
        rcases List.mem_cons.1 hb with rfl | hb
        · exact hlt
        · exact lt_of_lt_of_le hlt (ha b hb)
    · rename_i hle
      rw [List.filter_cons, List.filter_cons]
      split
      · rw [insertBy, List.orderedInsert_cons, if_neg hle]
        exact congrArg (a :: ·) (ih hxs)
      · exact ih hxs

theorem filter_insertBy_of_neg {p : α → Bool} (hx : p x = false) (xs : List α) :
    (insertBy key x xs).filter p = xs.filter p := by
  induction xs with
  | nil => exact List.filter_cons_of_neg (by rw [hx]; exact Bool.false_ne_true)
  | cons a xs ih =>
    rw [insertBy, List.orderedInsert_cons]
    split
    · exact List.filter_cons_of_neg (by rw [hx]; exact Bool.false_ne_true)
    · rw [List.filter_cons, List.filter_cons, ih]

/-- Elements may be taken out before or after. -/
theorem sortBy_filter (key : α → κ) (p : α → Bool) (xs : List α) :
    sortBy key (xs.filter p) = (sortBy key xs).filter p := by
  induction xs using List.reverseRecOn with
  | nil => rfl
  | append_singleton xs x ih =>
    rw [List.filter_append, sortBy_append_singleton]
    cases hx : p x with
    | true =>
      rw [List.filter_cons_of_pos hx, List.filter_nil, sortBy_append_singleton, ih,
        filter_insertBy_of_pos hx (sorted_sortBy key xs)]
    | false =>
      rw [List.filter_cons_of_neg (by rw [hx]; exact Bool.false_ne_true), List.filter_nil,
        List.append_nil, ih, filter_insertBy_of_neg hx]

/-- A function that keeps the keys may be applied before or after. -/
theorem sortBy_map {key' : β → κ} (f : α → β) (hf : ∀ a, key' (f a) = key a) (xs : List α) :
    sortBy key' (xs.map f) = (sortBy key xs).map f := by
  rw [sortBy, sortBy, ← List.map_reverse]
  refine (List.map_insertionSort _ _ f _ fun a _ b _ ↦ ?_).symm
  rw [hf, hf]

theorem sortBy_perm (key : α → κ) (xs : List α) : (sortBy key xs).Perm xs :=
  (List.perm_insertionSort _ _).trans (List.reverse_perm xs)

end StableSort
