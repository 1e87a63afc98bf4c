import Mathlib.Data.List.Induction
import Mathlib.Data.List.Nodup
import Mathlib.Order.Lattice

/-!
# Ordered maps

A finite map that can be read in key order, as an embedded key–value store offers it. The entries
are kept in strictly ascending key order, which is a field of the structure: lookups then agree
with membership (`get_eq_some`), and a range scan returns the entries between two keys, in order
and each once (`mem_range`, `range_sorted`).
-/

/-- A finite map with its entries in ascending key order. -/
structure OrderedMap (κ ν : Type) [LinearOrder κ] where
  entries : List (κ × ν)
  sorted : entries.Pairwise fun a b ↦ a.1 < b.1

namespace OrderedMap

variable {κ ν : Type} [LinearOrder κ]

/-- Put an entry at its place, or replace the one with its key. -/
def insertEntry (k : κ) (v : ν) : List (κ × ν) → List (κ × ν)
  | [] => [(k, v)]
  | e :: es =>
    if k < e.1 then (k, v) :: e :: es
    else if k = e.1 then (k, v) :: es
    else e :: insertEntry k v es

theorem mem_insertEntry {k : κ} {v : ν} {es : List (κ × ν)} {e : κ × ν}
    (h : e ∈ insertEntry k v es) : e = (k, v) ∨ e ∈ es := by
  induction es with
  | nil => exact .inl (List.mem_singleton.1 h)
  | cons d es ih =>
    rw [insertEntry] at h
    split at h
    · exact (List.mem_cons.1 h).imp_right id
    · split at h
      · exact (List.mem_cons.1 h).imp_right (List.mem_cons_of_mem d)
      · rcases List.mem_cons.1 h with rfl | h
        · exact .inr List.mem_cons_self
        · exact (ih h).imp_right (List.mem_cons_of_mem d)

theorem sorted_insertEntry (k : κ) (v : ν) {es : List (κ × ν)}
    (h : es.Pairwise fun a b ↦ a.1 < b.1) :
    (insertEntry k v es).Pairwise fun a b ↦ a.1 < b.1 := by
  induction es with
  | nil => exact List.pairwise_singleton _ _
  | cons d es ih =>
    obtain ⟨hd, hes⟩ := List.pairwise_cons.1 h
    rw [insertEntry]
    split
    · rename_i hlt
      refine List.pairwise_cons.2 ⟨fun e he ↦ ?_, h⟩
      rcases List.mem_cons.1 he with rfl | he
      · exact hlt
      · exact lt_trans hlt (hd e he)
    · rename_i hle
      split
      · rename_i heq
        subst heq
        exact List.pairwise_cons.2 ⟨hd, hes⟩
      · rename_i hne
        refine List.pairwise_cons.2 ⟨fun e he ↦ ?_, ih hes⟩
        rcases mem_insertEntry he with rfl | he
        · exact lt_of_le_of_ne (not_lt.1 hle) (Ne.symm hne)
        · exact hd e he

/-- The map without entries. -/
def empty : OrderedMap κ ν := ⟨[], List.Pairwise.nil⟩

/-- The value of a key. -/
def get (m : OrderedMap κ ν) (k : κ) : Option ν :=
  (m.entries.find? fun e ↦ e.1 = k).map Prod.snd

def insert (m : OrderedMap κ ν) (k : κ) (v : ν) : OrderedMap κ ν :=
  ⟨insertEntry k v m.entries, sorted_insertEntry k v m.sorted⟩

def erase (m : OrderedMap κ ν) (k : κ) : OrderedMap κ ν :=
  ⟨m.entries.filter fun e ↦ e.1 ≠ k, m.sorted.filter _⟩

/-- Every value replaced, or taken out. -/
def filterMapValues (m : OrderedMap κ ν) {ν' : Type} (f : κ → ν → Option ν') : OrderedMap κ ν' where
  entries := m.entries.filterMap fun e ↦ (f e.1 e.2).map (Prod.mk e.1)
  sorted := by
    refine List.pairwise_filterMap.2 (m.sorted.imp fun {a b} hlt c hc d hd ↦ ?_)
    obtain ⟨v, -, rfl⟩ := Option.map_eq_some_iff.1 hc
    obtain ⟨w, -, rfl⟩ := Option.map_eq_some_iff.1 hd
    exact hlt

/-- A batch: the entries are written one after the other. -/
def insertAll (m : OrderedMap κ ν) (es : List (κ × ν)) : OrderedMap κ ν :=
  es.foldl (fun m e ↦ m.insert e.1 e.2) m

/-- The entries from `lo` to below `hi`, ascending. -/
def range (m : OrderedMap κ ν) (lo hi : κ) : List (κ × ν) :=
  m.entries.filter fun e ↦ lo ≤ e.1 ∧ e.1 < hi

/-! ### Lookups -/

variable {m : OrderedMap κ ν} {k l : κ} {v w : ν}

/-- An ascending list has one entry a key. -/
theorem eq_of_mem_entries (h : (k, v) ∈ m.entries) (h' : (k, w) ∈ m.entries) : v = w := by
  have hirrefl : ∀ e ∈ m.entries, ∀ e' ∈ m.entries, e.1 = e'.1 → e = e' := by
    have := m.sorted
    generalize m.entries = es at this
    induction es with
    | nil => exact fun e he ↦ absurd he List.not_mem_nil
    | cons d es ih =>
      obtain ⟨hd, hes⟩ := List.pairwise_cons.1 this
      intro e he e' he' heq
      rcases List.mem_cons.1 he with rfl | htl <;> rcases List.mem_cons.1 he' with rfl | htl'
      · rfl
      · exact absurd heq (ne_of_lt (hd e' htl'))
      · exact absurd heq.symm (ne_of_lt (hd e htl))
      · exact ih hes e htl e' htl' heq
  exact (Prod.ext_iff.1 (hirrefl _ h _ h' rfl)).2

theorem get_eq_some : m.get k = some v ↔ (k, v) ∈ m.entries := by
  unfold get
  cases hfind : m.entries.find? fun e ↦ decide (e.1 = k) with
  | none =>
    refine iff_of_false (fun h ↦ by cases h) fun h ↦ ?_
    exact absurd (List.find?_eq_none.1 hfind _ h) (by simp)
  | some e =>
    obtain ⟨k', w⟩ := e
    have hmem := List.mem_of_find?_eq_some hfind
    obtain rfl : k' = k := by simpa using List.find?_some hfind
    rw [Option.map_some, Option.some_inj]
    constructor
    · rintro rfl
      exact hmem
    · exact fun h ↦ eq_of_mem_entries hmem h

@[simp] theorem get_empty (k : κ) : (empty : OrderedMap κ ν).get k = none := rfl

theorem get_insert_self (m : OrderedMap κ ν) (k : κ) (v : ν) : (m.insert k v).get k = some v := by
  rw [get_eq_some, insert]
  obtain ⟨es, h⟩ := m
  simp only
  clear h
  induction es with
  | nil => exact List.mem_singleton_self _
  | cons d es ih =>
    rw [insertEntry]
    split
    · exact List.mem_cons_self
    · split
      · exact List.mem_cons_self
      · exact List.mem_cons_of_mem d ih

theorem get_insert_of_ne (m : OrderedMap κ ν) (v : ν) (h : l ≠ k) :
    (m.insert k v).get l = m.get l := by
  unfold get
  congr 1
  rw [insert]
  obtain ⟨es, hs⟩ := m
  simp only
  clear hs
  induction es with
  | nil => simp [insertEntry, Ne.symm h]
  | cons d es ih =>
    rw [insertEntry]
    split
    · rw [List.find?_cons_of_neg (by simpa using Ne.symm h)]
    · split
      · rename_i heq
        rw [List.find?_cons_of_neg (by simpa using Ne.symm h),
          List.find?_cons_of_neg (by simpa [← heq] using Ne.symm h)]
      · rw [List.find?_cons, List.find?_cons, ih]

theorem get_insert (m : OrderedMap κ ν) (k l : κ) (v : ν) :
    (m.insert k v).get l = if l = k then some v else m.get l := by
  split
  · rename_i heq
    rw [heq, get_insert_self]
  · rename_i hne
    exact m.get_insert_of_ne v hne

theorem get_erase (m : OrderedMap κ ν) (k l : κ) :
    (m.erase k).get l = if l = k then none else m.get l := by
  refine Option.ext fun v ↦ ?_
  rw [get_eq_some, erase, List.mem_filter, ← get_eq_some]
  split
  · rename_i heq
    simp [heq]
  · rename_i hne
    simp [hne]

theorem get_filterMapValues (m : OrderedMap κ ν) {ν' : Type} (f : κ → ν → Option ν') (k : κ) :
    (m.filterMapValues f).get k = (m.get k).bind (f k) := by
  refine Option.ext fun w ↦ ?_
  rw [get_eq_some, filterMapValues, List.mem_filterMap, Option.bind_eq_some_iff]
  constructor
  · rintro ⟨e, he, heq⟩
    obtain ⟨w', hw', hpair⟩ := Option.map_eq_some_iff.1 heq
    obtain ⟨rfl, rfl⟩ := Prod.ext_iff.1 hpair
    exact ⟨e.2, get_eq_some.2 he, hw'⟩
  · rintro ⟨v, hv, hw⟩
    exact ⟨(k, v), get_eq_some.1 hv, Option.map_eq_some_iff.2 ⟨w, hw, rfl⟩⟩

theorem insertAll_concat (m : OrderedMap κ ν) (es : List (κ × ν)) (e : κ × ν) :
    m.insertAll (es ++ [e]) = (m.insertAll es).insert e.1 e.2 := by
  rw [insertAll, List.foldl_append]
  rfl

/-- A batch lies over what was there before. -/
theorem get_insertAll (m : OrderedMap κ ν) (es : List (κ × ν)) (k : κ) :
    (m.insertAll es).get k = ((empty.insertAll es).get k).or (m.get k) := by
  induction es using List.reverseRecOn with
  | nil => rfl
  | append_singleton es e ih =>
    rw [insertAll_concat, insertAll_concat, get_insert, get_insert, ih]
    split
    · rfl
    · rfl

/-- The values of a batch can be changed before or after. -/
theorem get_insertAll_map {ν' : Type} (f : ν → ν') (es : List (κ × ν)) (k : κ) :
    (empty.insertAll (es.map fun e ↦ (e.1, f e.2))).get k = ((empty.insertAll es).get k).map f := by
  induction es using List.reverseRecOn with
  | nil => rfl
  | append_singleton es e ih =>
    rw [List.map_append, List.map_singleton, insertAll_concat, insertAll_concat, get_insert,
      get_insert, ih]
    split
    · rfl
    · rfl

theorem get_foldl_erase (m : OrderedMap κ ν) (ks : List κ) (k : κ) :
    (ks.foldl erase m).get k = if k ∈ ks then none else m.get k := by
  induction ks generalizing m with
  | nil => rw [if_neg List.not_mem_nil, List.foldl_nil]
  | cons l ks ih =>
    rw [List.foldl_cons, ih, get_erase]
    by_cases hmem : k ∈ ks
    · rw [if_pos hmem, if_pos (List.mem_cons_of_mem l hmem)]
    · rw [if_neg hmem]
      exact if_congr (by rw [List.mem_cons, or_iff_left hmem]) rfl rfl

/-- Keys that are not in the batch keep their values. -/
theorem get_insertAll_of_notMem {es : List (κ × ν)} (h : ∀ e ∈ es, e.1 ≠ k) :
    (m.insertAll es).get k = m.get k := by
  unfold insertAll
  induction es generalizing m with
  | nil => rfl
  | cons e es ih =>
    rw [List.foldl_cons, ih fun d hd ↦ h d (List.mem_cons_of_mem e hd),
      get_insert_of_ne _ _ (h e List.mem_cons_self).symm]

/-- A key that the batch sets to one value only has it afterwards. -/
theorem get_insertAll_of_mem {es : List (κ × ν)} (hmem : ∃ e ∈ es, e.1 = k)
    (h : ∀ e ∈ es, e.1 = k → e.2 = v) : (m.insertAll es).get k = some v := by
  induction es generalizing m with
  | nil =>
    obtain ⟨e, he, -⟩ := hmem
    cases he
  | cons e es ih =>
    rw [insertAll, List.foldl_cons]
    by_cases hrest : ∃ d ∈ es, d.1 = k
    · exact ih hrest fun d hd ↦ h d (List.mem_cons_of_mem e hd)
    · have hkey : e.1 = k := by
        obtain ⟨d, hd, hk⟩ := hmem
        rcases List.mem_cons.1 hd with rfl | hd
        · exact hk
        · exact absurd ⟨d, hd, hk⟩ hrest
      refine (get_insertAll_of_notMem fun d hd hk ↦ hrest ⟨d, hd, hk⟩).trans ?_
      rw [hkey, get_insert_self, h e List.mem_cons_self hkey]

/-- What is found after a batch was in the batch, or was there before. -/
theorem mem_or_get_of_get_insertAll {es : List (κ × ν)} (h : (m.insertAll es).get k = some v) :
    (k, v) ∈ es ∨ m.get k = some v := by
  induction es generalizing m with
  | nil => exact .inr h
  | cons e es ih =>
    rw [insertAll, List.foldl_cons] at h
    rcases ih h with hmem | hget
    · exact .inl (List.mem_cons_of_mem e hmem)
    · rw [get_insert] at hget
      split at hget
      · rename_i hkey
        obtain rfl := Option.some_inj.1 hget
        exact .inl (hkey ▸ List.mem_cons_self)
      · exact .inr hget

/-- What is found after a batch that sets each key to one value. -/
theorem get_insertAll_eq_some {es : List (κ × ν)}
    (hes : ∀ v w, (k, v) ∈ es → (k, w) ∈ es → v = w) :
    (m.insertAll es).get k = some v ↔ (k, v) ∈ es ∨ (∀ w, (k, w) ∉ es) ∧ m.get k = some v := by
  by_cases hmem : ∃ w, (k, w) ∈ es
  · obtain ⟨w, hw⟩ := hmem
    have hget : (m.insertAll es).get k = some w := by
      refine get_insertAll_of_mem ⟨_, hw, rfl⟩ fun e he hkey ↦ ?_
      obtain rfl : e.1 = k := hkey
      exact hes e.2 w he hw
    rw [hget, Option.some_inj, or_iff_left fun h ↦ h.1 w hw]
    exact ⟨fun h ↦ h ▸ hw, fun h ↦ hes w v hw h⟩
  · have hnone : ∀ w, (k, w) ∉ es := fun w hw ↦ hmem ⟨w, hw⟩
    rw [get_insertAll_of_notMem fun e he hkey ↦ hnone e.2 (hkey ▸ he), or_iff_right (hnone v)]
    exact (and_iff_right hnone).symm

/-- A map is the row of its entries. -/
theorem ext_entries {m m' : OrderedMap κ ν} (h : m.entries = m'.entries) : m = m' := by
  obtain ⟨es, hes⟩ := m
  obtain ⟨es', hes'⟩ := m'
  obtain rfl : es = es' := h
  rfl

/-- A key above all others goes to the end. -/
theorem entries_insert_of_lt (h : ∀ e ∈ m.entries, e.1 < k) :
    (m.insert k v).entries = m.entries ++ [(k, v)] := by
  obtain ⟨es, hes⟩ := m
  show insertEntry k v es = es ++ [(k, v)]
  replace h : ∀ e ∈ es, e.1 < k := h
  clear hes
  induction es with
  | nil => rfl
  | cons d es ih =>
    obtain ⟨hd, hes⟩ := List.forall_mem_cons.1 h
    rw [insertEntry, if_neg (not_lt_of_gt hd), if_neg (ne_of_gt hd), ih hes, List.cons_append]

/-- A batch that sets each key once holds what was set. -/
theorem perm_entries_insertAll {es : List (κ × ν)} (h : (es.map Prod.fst).Nodup) :
    ((empty : OrderedMap κ ν).insertAll es).entries.Perm es := by
  have hone : ∀ k v w, (k, v) ∈ es → (k, w) ∈ es → v = w := by
    intro k v w hv hw
    exact congrArg Prod.snd (List.inj_on_of_nodup_map h hv hw rfl)
  have hnodup : ((empty : OrderedMap κ ν).insertAll es).entries.Nodup :=
    (sorted _).imp fun hlt heq ↦ ne_of_lt hlt (congrArg Prod.fst heq)
  refine (List.perm_ext_iff_of_nodup hnodup (List.Nodup.of_map _ h)).2 fun e ↦ ?_
  rw [← get_eq_some (k := e.1) (v := e.2), get_insertAll_eq_some (hone e.1)]
  exact ⟨fun h ↦ h.resolve_right fun hnone ↦ (nomatch hnone.2), .inl⟩

/-- The order of such a batch makes no difference. -/
theorem insertAll_eq_of_perm {es es' : List (κ × ν)} (h : (es.map Prod.fst).Nodup)
    (hperm : es.Perm es') :
    (empty : OrderedMap κ ν).insertAll es = (empty : OrderedMap κ ν).insertAll es' := by
  have h' : (es'.map Prod.fst).Nodup := (hperm.map Prod.fst).nodup_iff.1 h
  refine ext_entries (List.Perm.eq_of_pairwise ?_ (sorted _) (sorted _)
    ((perm_entries_insertAll h).trans (hperm.trans (perm_entries_insertAll h').symm)))
  exact fun a b _ _ hlt hlt' ↦ absurd hlt (lt_asymm hlt')

/-! ### Range scans -/

variable {lo hi : κ}

theorem mem_range : (k, v) ∈ m.range lo hi ↔ m.get k = some v ∧ lo ≤ k ∧ k < hi := by
  rw [range, List.mem_filter, get_eq_some, decide_eq_true_iff]

theorem range_sorted (m : OrderedMap κ ν) (lo hi : κ) :
    (m.range lo hi).Pairwise fun a b ↦ a.1 < b.1 :=
  m.sorted.filter _

end OrderedMap
