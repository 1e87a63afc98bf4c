import VoceChat.Foundations.Table

/-!
# Tables with a unique index

A table with a primary key and a unique index besides: no two rows have the same entry in the
index. A row may have none, as a column that is null has.

`insert` is the insert of a database: it adds a row, or fails where a key or an entry of the index
is taken already. So an invalid table is never built, and what is said of a table needs only
lookups (`get_insert`, `insert_isSome_iff`, `get_filter`, `get_modify`).
-/

/-- A table, of which `index` is a unique index. -/
structure IndexedTable {κ ν ι : Type} (index : κ → ν → Option ι) where
  table : Table κ ν
  unique : ∀ r ∈ table.rows, ∀ r' ∈ table.rows, ∀ i, index r.1 r.2 = some i →
    index r'.1 r'.2 = some i → r = r'

namespace IndexedTable

variable {κ ν ι : Type} {index : κ → ν → Option ι}

section

variable [DecidableEq κ]

def empty : IndexedTable index := ⟨.empty, fun _ h ↦ absurd h List.not_mem_nil⟩

def get (t : IndexedTable index) (k : κ) : Option ν := t.table.get k

/-- The rows for which `keep` holds. -/
def filter (t : IndexedTable index) (keep : κ → ν → Bool) : IndexedTable index where
  table := t.table.filter keep
  unique r hr r' hr' := t.unique r (List.mem_filter.1 hr).1 r' (List.mem_filter.1 hr').1

/-- `update … where key = k`, of columns that are not in the index. -/
def modify (t : IndexedTable index) (k : κ) (f : ν → ν) (hf : ∀ l v, index l (f v) = index l v) :
    IndexedTable index where
  table := t.table.modify k f
  unique := by
    have hindex : ∀ r : κ × ν, index r.1 (if r.1 = k then f r.2 else r.2) = index r.1 r.2 := by
      intro r
      split
      · exact hf r.1 r.2
      · rfl
    intro r hr r' hr' i hi hi'
    obtain ⟨q, hq, rfl⟩ := List.mem_map.1 hr
    obtain ⟨q', hq', rfl⟩ := List.mem_map.1 hr'
    obtain rfl := t.unique q hq q' hq' i ((hindex q).symm.trans hi) ((hindex q').symm.trans hi')
    rfl

end

/-- A row has this entry in the index. -/
def Taken (t : IndexedTable index) (i : ι) : Prop := ∃ r ∈ t.table.rows, index r.1 r.2 = some i

instance [DecidableEq ι] (t : IndexedTable index) (i : ι) : Decidable (t.Taken i) :=
  inferInstanceAs (Decidable (∃ r ∈ t.table.rows, _))

variable [DecidableEq κ] [DecidableEq ι] {t t' : IndexedTable index} {k l : κ} {v w : ν} {i : ι}

/-- The key and the entry in the index are free. -/
def Free (t : IndexedTable index) (k : κ) (v : ν) : Prop :=
  t.get k = none ∧ ∀ i ∈ index k v, ¬t.Taken i

instance (t : IndexedTable index) (k : κ) (v : ν) : Decidable (t.Free k v) :=
  haveI : Decidable (t.get k = none) := decidable_of_iff _ Option.isNone_iff_eq_none
  inferInstanceAs (Decidable (_ ∧ _))

/-- `insert into`, with the constraints checked. -/
def insert (t : IndexedTable index) (k : κ) (v : ν) : Option (IndexedTable index) :=
  if h : t.Free k v then some {
    table := t.table.put k v
    unique := by
      intro r hr r' hr' i hi hi'
      rcases Table.mem_rows_put.1 hr with rfl | ⟨hr, -⟩
      · rcases Table.mem_rows_put.1 hr' with rfl | ⟨hr', -⟩
        · rfl
        · exact absurd ⟨r', hr', hi'⟩ (h.2 i hi)
      · rcases Table.mem_rows_put.1 hr' with rfl | ⟨hr', -⟩
        · exact absurd ⟨r, hr, hi⟩ (h.2 i hi')
        · exact t.unique r hr r' hr' i hi hi' }
  else none

theorem insert_isSome_iff : (t.insert k v).isSome ↔ t.Free k v := by
  rw [insert]
  split
  · rename_i h
    exact iff_of_true rfl h
  · rename_i h
    exact iff_of_false (fun h' ↦ nomatch h') h

theorem insert_eq_none (h : ¬t.Free k v) : t.insert k v = none := dif_neg h

theorem free_of_insert (h : t.insert k v = some t') : t.Free k v :=
  insert_isSome_iff.1 (by rw [h]; rfl)

theorem table_insert (h : t.insert k v = some t') : t'.table = t.table.put k v := by
  rw [insert, dif_pos (free_of_insert h)] at h
  exact (congrArg table (Option.some_inj.1 h)).symm

theorem get_insert (h : t.insert k v = some t') (l : κ) :
    t'.get l = if l = k then some v else t.get l := by
  rw [get, table_insert h]
  exact Table.get_put _ _ _ _

/-- A row that is there stays. -/
theorem get_insert_of_get (h : t.insert k v = some t') (hget : t.get l = some w) :
    t'.get l = some w := by
  have hne : l ≠ k := by
    rintro rfl
    cases (free_of_insert h).1.symm.trans hget
  rw [get_insert h, if_neg hne]
  exact hget

omit [DecidableEq ι] in
theorem get_filter {keep : κ → ν → Bool} :
    (t.filter keep).get k = some v ↔ t.get k = some v ∧ keep k v = true :=
  Table.get_filter

omit [DecidableEq ι] in
theorem get_modify {f : ν → ν} {hf : ∀ l v, index l (f v) = index l v} :
    (t.modify k f hf).get l = if l = k then (t.get l).map f else t.get l :=
  Table.get_modify _ _ _ _

omit [DecidableEq ι] in
theorem taken_iff : t.Taken i ↔ ∃ k v, t.get k = some v ∧ index k v = some i := by
  constructor
  · rintro ⟨⟨k, v⟩, hr, hi⟩
    exact ⟨k, v, Table.get_eq_some.2 hr, hi⟩
  · rintro ⟨k, v, hget, hi⟩
    exact ⟨(k, v), Table.get_eq_some.1 hget, hi⟩

omit [DecidableEq ι] in
/-- **The index is unique.** -/
theorem eq_of_index (hk : t.get k = some v) (hl : t.get l = some w) (hi : index k v = some i)
    (hi' : index l w = some i) : k = l :=
  (Prod.ext_iff.1 (t.unique (k, v) (Table.get_eq_some.1 hk) (l, w) (Table.get_eq_some.1 hl) i hi
    hi')).1

end IndexedTable
