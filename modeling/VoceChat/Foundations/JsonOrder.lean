import Mathlib.Data.List.Sort
import Mathlib.Data.String.Basic
import VoceChat.Foundations.Json
import VoceChat.Foundations.OrderedMap

/-!
# The order of JSON fields

An object is the same whatever order its fields are written in. `Reordered` says so of whole values:
the fields of an object may change places anywhere in them. A library that keeps objects in ordered
maps has one value for all of these (`sorted`): `sorted_eq_iff` says that two values are the same
for it exactly if they can be reordered into each other.
-/

namespace Json

namespace Value

mutual

/-- The objects of the value as ordered maps. -/
def sorted : Value → Value
  | array elems => array (sortedElems elems)
  | object fields => object (OrderedMap.empty.insertAll (sortedFields fields)).entries
  | null => null
  | bool b => bool b
  | number n => number n
  | string s => string s

def sortedElems : List Value → List Value
  | [] => []
  | v :: vs => v.sorted :: sortedElems vs

def sortedFields : List (String × Value) → List (String × Value)
  | [] => []
  | (key, v) :: fields => (key, v.sorted) :: sortedFields fields

end

mutual

/-- No object has a key twice. -/
def WellFormed : Value → Prop
  | array elems => WellFormedElems elems
  | object fields => Properties.Distinct fields ∧ WellFormedFields fields
  | null => True
  | bool _ => True
  | number _ => True
  | string _ => True

def WellFormedElems : List Value → Prop
  | [] => True
  | v :: vs => v.WellFormed ∧ WellFormedElems vs

def WellFormedFields : List (String × Value) → Prop
  | [] => True
  | (_, v) :: fields => v.WellFormed ∧ WellFormedFields fields

end

/-- The values differ in the order of fields, in objects anywhere in them. -/
inductive Reordered : Value → Value → Prop
  | refl (v : Value) : Reordered v v
  | trans {u v w : Value} (h : Reordered u v) (h' : Reordered v w) : Reordered u w
  | fields {fs gs : List (String × Value)} (h : fs.Perm gs) : Reordered (object fs) (object gs)
  | elem {v w : Value} (before after : List Value) (h : Reordered v w) :
      Reordered (array (before ++ v :: after)) (array (before ++ w :: after))
  | field {v w : Value} (before after : List (String × Value)) (key : String) (h : Reordered v w) :
      Reordered (object (before ++ (key, v) :: after)) (object (before ++ (key, w) :: after))

theorem Reordered.symm {v w : Value} (h : Reordered v w) : Reordered w v := by
  induction h with
  | refl v => exact .refl v
  | trans _ _ ih ih' => exact ih'.trans ih
  | fields h => exact .fields h.symm
  | elem before after _ ih => exact .elem before after ih
  | field before after key _ ih => exact .field before after key ih

theorem sortedElems_eq (vs : List Value) : sortedElems vs = vs.map sorted := by
  induction vs with
  | nil => rfl
  | cons v vs ih => rw [sortedElems, ih, List.map_cons]

theorem sortedFields_eq (fs : List (String × Value)) :
    sortedFields fs = fs.map fun f ↦ (f.1, f.2.sorted) := by
  induction fs with
  | nil => rfl
  | cons f fs ih => rw [sortedFields, ih, List.map_cons]

theorem wellFormedElems_iff {vs : List Value} : WellFormedElems vs ↔ ∀ v ∈ vs, v.WellFormed := by
  induction vs with
  | nil => exact ⟨fun _ ↦ nofun, fun _ ↦ trivial⟩
  | cons v vs ih => rw [WellFormedElems, ih, List.forall_mem_cons]

theorem wellFormedFields_iff {fs : List (String × Value)} :
    WellFormedFields fs ↔ ∀ f ∈ fs, f.2.WellFormed := by
  induction fs with
  | nil => exact ⟨fun _ ↦ nofun, fun _ ↦ trivial⟩
  | cons f fs ih => rw [WellFormedFields, ih, List.forall_mem_cons]

mutual

/-- A value can be reordered into what the library holds. -/
theorem reordered_sorted : (v : Value) → v.WellFormed → Reordered v v.sorted
  | array elems, h => reordered_sortedElems [] elems h
  | object fields, h => by
    have hkeys : ((sortedFields fields).map Prod.fst).Nodup := by
      rw [sortedFields_eq, List.map_map]
      exact h.1
    exact (reordered_sortedFields [] fields h.2).trans
      (.fields (OrderedMap.perm_entries_insertAll hkeys).symm)
  | null, _ => .refl _
  | bool _, _ => .refl _
  | number _, _ => .refl _
  | string _, _ => .refl _

theorem reordered_sortedElems (done : List Value) : (vs : List Value) → WellFormedElems vs →
    Reordered (array (done ++ vs)) (array (done ++ sortedElems vs))
  | [], _ => .refl _
  | v :: vs, h => by
    have hrest := reordered_sortedElems (done ++ [v.sorted]) vs h.2
    rw [List.append_assoc, List.append_assoc] at hrest
    exact (Reordered.elem done vs (reordered_sorted v h.1)).trans hrest

theorem reordered_sortedFields (done : List (String × Value)) : (fs : List (String × Value)) →
    WellFormedFields fs → Reordered (object (done ++ fs)) (object (done ++ sortedFields fs))
  | [], _ => .refl _
  | (key, v) :: fs, h => by
    have hrest := reordered_sortedFields (done ++ [(key, v.sorted)]) fs h.2
    rw [List.append_assoc, List.append_assoc] at hrest
    exact (Reordered.field done fs key (reordered_sorted v h.1)).trans hrest

end

/-- The library holds one value for all orders. -/
theorem Reordered.sorted_eq {v w : Value} (h : Reordered v w) (hv : v.WellFormed) :
    w.WellFormed ∧ v.sorted = w.sorted := by
  induction h with
  | refl v => exact ⟨hv, rfl⟩
  | trans _ _ ih ih' =>
    obtain ⟨hmiddle, heq⟩ := ih hv
    obtain ⟨hlast, heq'⟩ := ih' hmiddle
    exact ⟨hlast, heq.trans heq'⟩
  | @fields fs gs hperm =>
    obtain ⟨hkeys, hfields⟩ := hv
    have hkeys' : Properties.Distinct gs := (hperm.map Prod.fst).nodup_iff.1 hkeys
    have hfields' : WellFormedFields gs :=
      wellFormedFields_iff.2 fun f hf ↦ wellFormedFields_iff.1 hfields f (hperm.mem_iff.2 hf)
    have hsorted : ((sortedFields fs).map Prod.fst).Nodup := by
      rw [sortedFields_eq, List.map_map]
      exact hkeys
    have hsortedPerm : (sortedFields fs).Perm (sortedFields gs) := by
      rw [sortedFields_eq, sortedFields_eq]
      exact hperm.map _
    refine ⟨⟨hkeys', hfields'⟩, ?_⟩
    rw [sorted, sorted, OrderedMap.insertAll_eq_of_perm hsorted hsortedPerm]
  | elem before after _ ih =>
    have hmem := wellFormedElems_iff.1 hv
    obtain ⟨hw, heq⟩ := ih (hmem _ (List.mem_append_right _ List.mem_cons_self))
    constructor
    · refine wellFormedElems_iff.2 fun u hu ↦ ?_
      rcases List.mem_append.1 hu with hu | hu
      · exact hmem u (List.mem_append_left _ hu)
      · rcases List.mem_cons.1 hu with rfl | hu
        · exact hw
        · exact hmem u (List.mem_append_right _ (List.mem_cons_of_mem _ hu))
    · rw [sorted, sorted, sortedElems_eq, sortedElems_eq, List.map_append, List.map_append,
        List.map_cons, List.map_cons, heq]
  | field before after key _ ih =>
    have hmem := wellFormedFields_iff.1 hv.2
    obtain ⟨hw, heq⟩ := ih (hmem _ (List.mem_append_right _ List.mem_cons_self))
    have hkeys := hv.1
    rw [Properties.Distinct, List.map_append, List.map_cons] at hkeys
    refine ⟨⟨?_, wellFormedFields_iff.2 fun f hf ↦ ?_⟩, ?_⟩
    · rw [Properties.Distinct, List.map_append, List.map_cons]
      exact hkeys
    · rcases List.mem_append.1 hf with hf | hf
      · exact hmem f (List.mem_append_left _ hf)
      · rcases List.mem_cons.1 hf with rfl | hf
        · exact hw
        · exact hmem f (List.mem_append_right _ (List.mem_cons_of_mem _ hf))
    · rw [sorted, sorted, sortedFields_eq, sortedFields_eq, List.map_append, List.map_append,
        List.map_cons, List.map_cons, heq]

/-- **Values are one for the library** exactly if they differ in the order of fields only. -/
theorem sorted_eq_iff {v w : Value} (hv : v.WellFormed) (hw : w.WellFormed) :
    v.sorted = w.sorted ↔ Reordered v w := by
  constructor
  · intro heq
    have hback := (reordered_sorted w hw).symm
    rw [← heq] at hback
    exact (reordered_sorted v hv).trans hback
  · exact fun h ↦ (h.sorted_eq hv).2

end Value

end Json
