import Mathlib.Data.List.Nodup

/-!
# Tables with a primary key

The rows of a table in the order they were inserted, each under its key. Keys are unique, which is a
field of the structure; so a lookup and membership are the same thing (`get_eq_some`), and every
operation is described by what lookups say after it.

`put` is `insert … on conflict(key) do update`; with a check of `get` before it, it is an insert.
-/

structure Table (κ ν : Type) where
  rows : List (κ × ν)
  nodup : (rows.map Prod.fst).Nodup

namespace Table

variable {κ ν : Type} [DecidableEq κ]

def empty : Table κ ν := ⟨[], List.nodup_nil⟩

def get (t : Table κ ν) (k : κ) : Option ν := (t.rows.find? fun r ↦ r.1 = k).map Prod.snd

/-- Replace the row of a key, or add one at the end. -/
def putRow (k : κ) (v : ν) : List (κ × ν) → List (κ × ν)
  | [] => [(k, v)]
  | r :: rs => if r.1 = k then (k, v) :: rs else r :: putRow k v rs

theorem map_fst_putRow (k : κ) (v : ν) (rs : List (κ × ν)) :
    (putRow k v rs).map Prod.fst =
      if k ∈ rs.map Prod.fst then rs.map Prod.fst else rs.map Prod.fst ++ [k] := by
  induction rs with
  | nil => rfl
  | cons r rs ih =>
    rw [putRow]
    by_cases h : r.1 = k
    · rw [if_pos h, if_pos (h ▸ List.mem_cons_self)]
      exact congrArg (· :: rs.map Prod.fst) h.symm
    · rw [if_neg h, List.map_cons, ih, List.map_cons]
      by_cases hmem : k ∈ rs.map Prod.fst
      · rw [if_pos hmem, if_pos (List.mem_cons_of_mem _ hmem)]
      · have hnot : k ∉ r.1 :: rs.map Prod.fst := fun hk ↦
          (List.mem_cons.1 hk).elim (fun heq ↦ h heq.symm) hmem
        rw [if_neg hmem, if_neg hnot, List.cons_append]

def put (t : Table κ ν) (k : κ) (v : ν) : Table κ ν where
  rows := putRow k v t.rows
  nodup := by
    rw [map_fst_putRow]
    split
    · exact t.nodup
    · rename_i hmem
      exact List.nodup_append.2 ⟨t.nodup, List.pairwise_singleton _ _, fun a ha b hb heq ↦
        hmem (List.mem_singleton.1 hb ▸ heq ▸ ha)⟩

/-- `delete … where not keep`. -/
def filter (t : Table κ ν) (keep : κ → ν → Bool) : Table κ ν where
  rows := t.rows.filter fun r ↦ keep r.1 r.2
  nodup := t.nodup.sublist (List.filter_sublist.map _)

/-- `update … set row = f row`. -/
def update (t : Table κ ν) (f : κ → ν → ν) : Table κ ν where
  rows := t.rows.map fun r ↦ (r.1, f r.1 r.2)
  nodup := by
    rw [List.map_map]
    exact t.nodup

/-- `update … where key = k`. -/
def modify (t : Table κ ν) (k : κ) (f : ν → ν) : Table κ ν :=
  t.update fun l v ↦ if l = k then f v else v

/-! ### Lookups -/

variable {t : Table κ ν} {k l : κ} {v : ν}

theorem get_eq_some : t.get k = some v ↔ (k, v) ∈ t.rows := by
  unfold get
  cases hfind : t.rows.find? fun r ↦ decide (r.1 = k) with
  | none =>
    refine iff_of_false (fun h ↦ by cases h) fun h ↦ ?_
    exact absurd (decide_eq_true rfl) (List.find?_eq_none.1 hfind _ h)
  | some r =>
    obtain ⟨k', w⟩ := r
    have hmem := List.mem_of_find?_eq_some hfind
    obtain rfl : k' = k := by simpa using List.find?_some hfind
    rw [Option.map_some, Option.some_inj]
    constructor
    · rintro rfl
      exact hmem
    · intro h
      exact (Prod.ext_iff.1 (List.inj_on_of_nodup_map t.nodup hmem h rfl)).2

theorem get_eq_none : t.get k = none ↔ ∀ v, (k, v) ∉ t.rows := by
  rw [Option.eq_none_iff_forall_ne_some]
  exact forall_congr' fun v ↦ not_congr get_eq_some

theorem mem_putRow {rs : List (κ × ν)} (hnodup : (rs.map Prod.fst).Nodup) {r : κ × ν} :
    r ∈ putRow k v rs ↔ r = (k, v) ∨ r ∈ rs ∧ r.1 ≠ k := by
  induction rs with
  | nil => simp [putRow]
  | cons d rs ih =>
    obtain ⟨hd, hrs⟩ := List.nodup_cons.1 hnodup
    rw [putRow]
    by_cases h : d.1 = k
    · have hrest : ∀ r ∈ rs, r.1 ≠ k := fun r hr heq ↦
        hd (List.mem_map.2 ⟨r, hr, heq.trans h.symm⟩)
      rw [if_pos h, List.mem_cons, List.mem_cons]
      refine or_congr_right ⟨fun hr ↦ ⟨.inr hr, hrest r hr⟩, ?_⟩
      rintro ⟨rfl | hr, hne⟩
      · exact absurd h hne
      · exact hr
    · rw [if_neg h, List.mem_cons, List.mem_cons, ih hrs]
      constructor
      · rintro (rfl | rfl | ⟨hr, hne⟩)
        · exact .inr ⟨.inl rfl, h⟩
        · exact .inl rfl
        · exact .inr ⟨.inr hr, hne⟩
      · rintro (rfl | ⟨rfl | hr, hne⟩)
        · exact .inr (.inl rfl)
        · exact .inl rfl
        · exact .inr (.inr ⟨hr, hne⟩)

theorem mem_rows_put {r : κ × ν} : r ∈ (t.put k v).rows ↔ r = (k, v) ∨ r ∈ t.rows ∧ r.1 ≠ k :=
  mem_putRow t.nodup

theorem get_put (t : Table κ ν) (k l : κ) (v : ν) :
    (t.put k v).get l = if l = k then some v else t.get l := by
  refine Option.ext fun w ↦ ?_
  rw [get_eq_some, mem_rows_put]
  by_cases h : l = k
  · subst h
    rw [if_pos rfl, Option.some_inj]
    constructor
    · rintro (heq | ⟨-, hne⟩)
      · exact (Prod.ext_iff.1 heq).2.symm
      · exact absurd rfl hne
    · rintro rfl
      exact .inl rfl
  · rw [if_neg h, get_eq_some]
    constructor
    · rintro (heq | ⟨hr, -⟩)
      · exact absurd (Prod.ext_iff.1 heq).1 h
      · exact hr
    · exact fun hr ↦ .inr ⟨hr, h⟩

/-- A row with a new key is added at the end. -/
theorem rows_put_of_get_eq_none (h : t.get k = none) (v : ν) :
    (t.put k v).rows = t.rows ++ [(k, v)] := by
  have hnew := get_eq_none.1 h
  unfold put
  show putRow k v t.rows = _
  generalize t.rows = rs at hnew
  induction rs with
  | nil => rfl
  | cons r rs ih =>
    have hne : r.1 ≠ k := fun heq ↦ hnew r.2 (heq ▸ List.mem_cons_self)
    rw [putRow, if_neg hne, List.cons_append, ih fun w hw ↦ hnew w (List.mem_cons_of_mem r hw)]

@[simp] theorem get_put_self (t : Table κ ν) (k : κ) (v : ν) : (t.put k v).get k = some v := by
  rw [get_put, if_pos rfl]

theorem get_put_of_ne (t : Table κ ν) (v : ν) (h : l ≠ k) : (t.put k v).get l = t.get l := by
  rw [get_put, if_neg h]

theorem get_filter {keep : κ → ν → Bool} :
    (t.filter keep).get k = some v ↔ t.get k = some v ∧ keep k v = true := by
  rw [get_eq_some, get_eq_some, filter, List.mem_filter]

theorem get_update (t : Table κ ν) (f : κ → ν → ν) (k : κ) :
    (t.update f).get k = (t.get k).map (f k) := by
  refine Option.ext fun w ↦ ?_
  rw [get_eq_some, update, List.mem_map, Option.map_eq_some_iff]
  constructor
  · rintro ⟨⟨k', v⟩, hr, heq⟩
    obtain ⟨rfl, rfl⟩ := Prod.ext_iff.1 heq
    exact ⟨v, get_eq_some.2 hr, rfl⟩
  · rintro ⟨v, hv, rfl⟩
    exact ⟨(k, v), get_eq_some.1 hv, rfl⟩

theorem get_modify (t : Table κ ν) (k l : κ) (f : ν → ν) :
    (t.modify k f).get l = if l = k then (t.get l).map f else t.get l := by
  rw [modify, get_update]
  split
  · rfl
  · exact congrFun Option.map_id _

/-- What holds of all rows still does after an insert of a row of which it holds. -/
theorem forall_get_put {P : κ → ν → Prop} (h : ∀ l w, t.get l = some w → P l w) (hv : P k v) :
    ∀ l w, (t.put k v).get l = some w → P l w := by
  intro l w hget
  rw [get_put] at hget
  by_cases hl : l = k
  · subst hl
    rw [if_pos rfl] at hget
    exact Option.some_inj.1 hget ▸ hv
  · rw [if_neg hl] at hget
    exact h l w hget

theorem forall_get_modify {P : κ → ν → Prop} {f : ν → ν} (h : ∀ l w, t.get l = some w → P l w)
    (hf : ∀ w, t.get k = some w → P k (f w)) : ∀ l w, (t.modify k f).get l = some w → P l w := by
  intro l w hget
  rw [get_modify] at hget
  by_cases hl : l = k
  · subst hl
    rw [if_pos rfl, Option.map_eq_some_iff] at hget
    obtain ⟨v, hv, rfl⟩ := hget
    exact hf v hv
  · rw [if_neg hl] at hget
    exact h l w hget

@[simp] theorem get_empty (k : κ) : (empty : Table κ ν).get k = none := rfl

end Table
