import Mathlib.Data.List.DropRight
import Mathlib.Data.List.Infix
import Mathlib.Data.List.Nodup

/-!
# Paging back through a list

Rows are listed newest first here, under numbers that fall. A source hands out pages of them
(`Paged`): the newest rows that it has for a cursor, or those below the number of a row.

Some rows cannot be decoded. A reader that goes on below the oldest row of a page that it could
decode comes to see a first stretch of the rows (`stretch`), which ends at the last page it asks
for, or before so many rows in a row that cannot be decoded that they fill a page.

A selection from what was seen is then compared with the same selection from all there is: each
takes the first few that it wants, and they are equal exactly if those were seen
(`take_filter_eq_iff`).
-/

namespace Paging

/-- The source has these rows for the cursor, newest first. A page is oldest first. -/
structure Paged {β : Type} (fetch : Option ℤ → ℕ → List (ℤ × β)) (cursor : Option ℤ)
    (rows : List (ℤ × β)) : Prop where
  falling : rows.Pairwise fun x y ↦ y.1 < x.1
  first : ∀ size, fetch cursor size = (rows.take size).reverse
  later : ∀ e ∈ rows, ∀ size,
    fetch (some e.1) size = ((rows.filter fun x ↦ x.1 < e.1).take size).reverse
  fresh : ∀ e ∈ rows, cursor ≠ some e.1

/-- Below a row are the rows after it. -/
theorem filter_lt_eq {β : Type} {front rest : List (ℤ × β)} {e : ℤ × β}
    (h : (front ++ e :: rest).Pairwise fun x y ↦ y.1 < x.1) :
    ((front ++ e :: rest).filter fun x ↦ x.1 < e.1) = rest := by
  obtain ⟨-, htail, hcross⟩ := List.pairwise_append.1 h
  have hfront : (front.filter fun x ↦ x.1 < e.1) = [] := by
    refine List.filter_eq_nil_iff.2 fun x hx ↦ ?_
    have := hcross x hx e List.mem_cons_self
    rw [decide_eq_true_iff]
    omega
  have hrest : (rest.filter fun x ↦ x.1 < e.1) = rest :=
    List.filter_eq_self.2 fun x hx ↦ decide_eq_true ((List.pairwise_cons.1 htail).1 x hx)
  rw [List.filter_append, hfront, List.filter_cons_of_neg (by simp), hrest, List.nil_append]

/-- A source can be read on from any row. -/
theorem Paged.next {β : Type} {fetch : Option ℤ → ℕ → List (ℤ × β)} {cursor : Option ℤ}
    {front rest : List (ℤ × β)} {e : ℤ × β} (h : Paged fetch cursor (front ++ e :: rest)) :
    Paged fetch (some e.1) rest := by
  have hmem : ∀ x ∈ rest, x ∈ front ++ e :: rest :=
    fun x hx ↦ List.mem_append_right _ (List.mem_cons_of_mem _ hx)
  have htail := (List.pairwise_append.1 h.falling).2.1
  have hbelow := (List.pairwise_cons.1 htail).1
  refine ⟨(List.pairwise_cons.1 htail).2, fun size ↦ ?_, fun x hx size ↦ ?_, fun x hx heq ↦ ?_⟩
  · rw [h.later e (List.mem_append_right _ List.mem_cons_self), filter_lt_eq h.falling]
  · have hsame : ((front ++ e :: rest).filter fun y ↦ y.1 < x.1) = rest.filter fun y ↦
      y.1 < x.1 := by
      conv_rhs => rw [← filter_lt_eq h.falling]
      rw [List.filter_filter]
      refine List.filter_congr fun y _ ↦ ?_
      have := hbelow x hx
      rw [← Bool.decide_and, decide_eq_decide]
      omega
    rw [h.later x (hmem x hx), hsame]
  · have := hbelow x hx
    have := Option.some.inj heq
    omega

/-! ### What a reader comes to see -/

section

variable {α γ : Type} (decode : α → Option γ) (size : ℕ)

/-- A page, down to the oldest row that can be decoded. -/
def page (rows : List α) : List α := (rows.take size).rdropWhile fun e ↦ (decode e).isNone

/-- The rows that so many pages show, each page below the oldest row of the one before it that can
be decoded. -/
def stretch : ℕ → List α → List α
  | 0, _ => []
  | pages + 1, rows =>
    page decode size rows ++ stretch pages (rows.drop (page decode size rows).length)

variable {decode size} {rows : List α}

theorem isPrefix_page (decode : α → Option γ) (size : ℕ) (rows : List α) :
    page decode size rows <+: rows :=
  (List.rdropWhile_prefix _ _).trans (List.take_prefix _ _)

theorem filterMap_rdropWhile (rows : List α) :
    (rows.rdropWhile fun e ↦ (decode e).isNone).filterMap decode = rows.filterMap decode := by
  induction rows using List.reverseRecOn with
  | nil => rfl
  | append_singleton rows e ih =>
    rw [List.rdropWhile_concat]
    split
    case isTrue he =>
      rw [ih, List.filterMap_append, List.filterMap_cons_none (Option.isNone_iff_eq_none.1 he),
        List.filterMap_nil, List.append_nil]
    case isFalse => rfl

theorem filterMap_page (decode : α → Option γ) (size : ℕ) (rows : List α) :
    (page decode size rows).filterMap decode = (rows.take size).filterMap decode :=
  filterMap_rdropWhile _

theorem isPrefix_stretch (pages : ℕ) : stretch decode size pages rows <+: rows := by
  induction pages generalizing rows with
  | zero => exact List.nil_prefix
  | succ pages ih =>
    have hsplit := List.prefix_iff_eq_append.1 (isPrefix_page decode size rows)
    rw [stretch]
    conv_rhs => rw [← hsplit]
    exact (List.prefix_append_right_inj _).2 ih

/-- A page of rows that cannot be decoded is the end. -/
theorem stretch_eq_nil (h : (rows.take size).filterMap decode = []) (pages : ℕ) :
    stretch decode size pages rows = [] := by
  have hpage : page decode size rows = [] := by
    refine List.rdropWhile_eq_nil_iff.2 fun e he ↦ ?_
    exact Option.isNone_iff_eq_none.2 (List.filterMap_eq_nil_iff.1 h e he)
  induction pages with
  | zero => rfl
  | succ pages ih => rw [stretch, hpage, List.nil_append, List.length_nil, List.drop_zero, ih]

/-- Any other page ends with a row that can be decoded. -/
theorem exists_page_eq {m : γ} {newer : List γ}
    (h : (rows.take size).filterMap decode = newer ++ [m]) :
    ∃ front e rest, rows = front ++ e :: rest ∧ page decode size rows = front ++ [e] ∧
      decode e = some m := by
  have hne : page decode size rows ≠ [] := by
    intro hnil
    have hpage := filterMap_page decode size rows
    rw [hnil, h, List.filterMap_nil] at hpage
    exact List.append_ne_nil_of_right_ne_nil newer (List.cons_ne_nil m []) hpage.symm
  obtain ⟨rest, hrest⟩ := isPrefix_page decode size rows
  obtain ⟨front, e, hpage⟩ : ∃ front e, page decode size rows = front ++ [e] :=
    ⟨_, _, (List.dropLast_append_getLast hne).symm⟩
  refine ⟨front, e, rest, by rw [← hrest, hpage, List.append_assoc]; rfl, hpage, ?_⟩
  have hlast : ¬(decode ((page decode size rows).getLast hne)).isNone = true :=
    List.rdropWhile_last_not (fun e ↦ (decode e).isNone) (rows.take size) hne
  have hgetLast : (page decode size rows).getLast hne = e := by
    simp only [hpage, List.getLast_append_singleton]
  rw [hgetLast, Bool.not_eq_true, Option.isNone_eq_false_iff] at hlast
  obtain ⟨c, hc⟩ := Option.isSome_iff_exists.1 hlast
  have hmap := filterMap_page decode size rows
  rw [h, hpage, List.filterMap_append, List.filterMap_cons_some hc] at hmap
  rw [hc, (List.cons.inj (List.append_inj_right' hmap rfl)).1]

theorem take_filterMap_of_decoded (h : ∀ e ∈ rows, (decode e).isSome) (n : ℕ) :
    (rows.take n).filterMap decode = (rows.filterMap decode).take n := by
  induction rows generalizing n with
  | nil => rw [List.take_nil, List.filterMap_nil, List.take_nil]
  | cons e rows ih =>
    obtain ⟨he, hrest⟩ := List.forall_mem_cons.1 h
    obtain ⟨m, hm⟩ := Option.isSome_iff_exists.1 he
    cases n with
    | zero => rfl
    | succ n =>
      rw [List.take_succ_cons, List.filterMap_cons_some hm, List.filterMap_cons_some hm,
        List.take_succ_cons, ih hrest]

/-- If all rows can be decoded, the pages are full. -/
theorem stretch_of_decoded (h : ∀ e ∈ rows, (decode e).isSome) (pages : ℕ) :
    stretch decode size pages rows = rows.take (pages * size) := by
  have hpage : ∀ rows : List α, (∀ e ∈ rows, (decode e).isSome) →
    page decode size rows = rows.take size := by
    intro rows hrows
    rw [page, List.rdropWhile_eq_self_iff]
    intro hne
    have hlast := hrows _ (List.mem_of_mem_take (List.getLast_mem hne))
    rw [Bool.not_eq_true, Option.isNone_eq_false_iff]
    exact hlast
  induction pages generalizing rows with
  | zero => rw [stretch, Nat.zero_mul, List.take_zero]
  | succ pages ih =>
    rw [stretch, hpage rows h, ih fun e he ↦ h e (List.mem_of_mem_drop he), Nat.succ_mul,
      Nat.add_comm, List.take_add]
    congr 2
    rw [List.length_take]
    rcases Nat.le_total size rows.length with hle | hle
    · rw [Nat.min_eq_left hle]
    · rw [Nat.min_eq_right hle, List.drop_eq_nil_of_le hle, List.drop_eq_nil_of_le le_rfl]

end

/-! ### Selections -/

section

variable {γ : Type} {seen all : List γ}

theorem eq_of_prefix {l m : List γ} (h : l <+: m) (hm : m.Nodup) (hmem : ∀ x ∈ m, x ∈ l) :
    l = m := by
  obtain ⟨rest, rfl⟩ := h
  cases rest with
  | nil => rw [List.append_nil]
  | cons x rest =>
    have hx := hmem x (List.mem_append_right _ List.mem_cons_self)
    exact absurd rfl ((List.nodup_append.1 hm).2.2 x hx x List.mem_cons_self)

/-- What is selected from what was seen. -/
theorem mem_take_filter (h : seen <+: all) (want : γ → Bool) (limit : ℕ) (x : γ) :
    x ∈ (seen.filter want).take limit ↔ x ∈ seen ∧ x ∈ (all.filter want).take limit := by
  obtain ⟨rest, rfl⟩ := h
  rw [List.filter_append, List.take_append]
  constructor
  · intro hx
    exact ⟨(List.mem_filter.1 (List.mem_of_mem_take hx)).1, List.mem_append_left _ hx⟩
  · rintro ⟨hseen, hx⟩
    rcases List.mem_append.1 hx with hx | hx
    · exact hx
    · -- something beyond what was seen was selected, so all that was seen is
      have hlt : (seen.filter want).length < limit := by
        by_contra hge
        rw [Nat.sub_eq_zero_of_le (not_lt.1 hge), List.take_zero] at hx
        cases hx
      rw [List.take_of_length_le hlt.le]
      exact List.mem_filter.2 ⟨hseen, (List.mem_filter.1 (List.mem_of_mem_take hx)).2⟩

/-- **A selection is right** exactly if all of it was seen. -/
theorem take_filter_eq_iff (h : seen <+: all) (hall : all.Nodup) (want : γ → Bool) (limit : ℕ) :
    (seen.filter want).take limit = (all.filter want).take limit ↔
      ∀ x ∈ (all.filter want).take limit, x ∈ seen := by
  constructor
  · intro heq x hx
    exact ((mem_take_filter h want limit x).1 (heq ▸ hx)).1
  · intro hmem
    refine eq_of_prefix ((h.filter want).take limit)
      ((hall.filter _).sublist (List.take_sublist _ _)) fun x hx ↦ ?_
    exact (mem_take_filter h want limit x).2 ⟨hmem x hx, hx⟩

/-- **A selection from a selection** is right exactly if all of it was seen and was in the first. -/
theorem filter_take_filter_eq_iff (h : seen <+: all) (hall : all.Nodup) (want want' : γ → Bool)
    (limit : ℕ) :
    ((seen.filter want).take limit).filter want' = ((all.filter want).filter want').take limit ↔
      ∀ x ∈ ((all.filter want).filter want').take limit,
        x ∈ seen ∧ x ∈ (all.filter want).take limit := by
  simp only [← mem_take_filter h want limit]
  constructor
  · intro heq x hx
    exact (List.mem_filter.1 (heq ▸ hx)).1
  · intro hmem
    have hfirst : (seen.filter want).take limit <+: all.filter want :=
      (List.take_prefix _ _).trans (h.filter want)
    have hlength : (((seen.filter want).take limit).filter want').length ≤ limit :=
      (List.length_filter_le _ _).trans (List.length_take_le _ _)
    refine eq_of_prefix (List.prefix_take_iff.2 ⟨hfirst.filter want', hlength⟩)
      (((hall.filter _).filter _).sublist (List.take_sublist _ _)) fun x hx ↦ ?_
    exact List.mem_filter.2 ⟨hmem x hx, (List.mem_filter.1 (List.mem_of_mem_take hx)).2⟩

/-- In a list with numbers that fall, what comes before the first row that ends a search. -/
theorem mem_takeWhile {number : γ → ℤ} (h : seen <+: all)
    (hall : all.Pairwise fun x y ↦ number y < number x) (go : γ → Bool) (x : γ) :
    x ∈ seen.takeWhile go ↔ x ∈ seen ∧ ∀ y ∈ all, number x ≤ number y → go y = true := by
  obtain ⟨rest, rfl⟩ := h
  have hsplit := List.takeWhile_append_dropWhile (p := go) (l := seen)
  rw [← hsplit, List.append_assoc] at hall
  obtain ⟨-, -, hcross⟩ := List.pairwise_append.1 hall
  constructor
  · intro hx
    refine ⟨(List.takeWhile_prefix go).subset hx, fun y hy hle ↦ ?_⟩
    rw [← hsplit, List.append_assoc] at hy
    rcases List.mem_append.1 hy with hy | hy
    · exact List.mem_takeWhile_imp hy
    · have := hcross x hx y hy
      omega
  · rintro ⟨hx, hgo⟩
    rw [← hsplit] at hx
    rcases List.mem_append.1 hx with hx | hx
    · exact hx
    · cases hdrop : seen.dropWhile go with
      | nil =>
        rw [hdrop] at hx
        cases hx
      | cons y more =>
        -- the search ended at `y`, and `x` is not newer
        have hstop : go y = false := by
          have := List.head?_dropWhile_not go seen
          rwa [hdrop, List.head?_cons] at this
        have hy : y ∈ seen := (List.dropWhile_suffix go).subset (hdrop ▸ List.mem_cons_self)
        have hle : number x ≤ number y := by
          have hfalls := (List.pairwise_append.1 hall).2.1
          rw [hdrop] at hx hfalls
          rcases List.mem_cons.1 hx with rfl | hx
          · exact Int.le_refl _
          · exact Int.le_of_lt ((List.pairwise_cons.1 hfalls).1 x (List.mem_append_left _ hx))
        rw [hgo y (List.mem_append_left _ hy) hle] at hstop
        cases hstop

end

end Paging
