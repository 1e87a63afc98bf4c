import Mathlib.Data.List.Basic
import Mathlib.Data.List.Induction
import Mathlib.Data.List.ModifyLast

/-!
# Objects that are opened, and then added to

An event opens a new object or adds to the last one; the first event opens one in any case. The
objects are then those of consecutive blocks of events: each block has the event that opened the
object, and the ones after it that do not open any (`exists_blocks`).
-/

namespace Blocks

variable {ε α : Type} (opens : ε → Bool) (new : ε → α) (add : ε → α → α)

/-- What an event does to the objects. -/
def place (objects : List α) (e : ε) : List α :=
  if opens e then objects ++ [new e]
  else (if objects.isEmpty then [new e] else objects).modifyLast (add e)

/-- An object, of the event that opened it and the ones that added to it. -/
def object (block : ε × List ε) : α :=
  block.2.foldl (fun a e ↦ add e a)
    (if opens block.1 then new block.1 else add block.1 (new block.1))

/-- The events of blocks, in their order. -/
def events (blocks : List (ε × List ε)) : List ε := blocks.flatMap fun b ↦ b.1 :: b.2

/-- Only the first event of a block opens an object, and it does, unless there is no event before.
-/
structure Divides (blocks : List (ε × List ε)) : Prop where
  adds : ∀ b ∈ blocks, ∀ e ∈ b.2, opens e = false
  opened : ∀ b ∈ blocks.tail, opens b.1 = true

variable {opens new add} {blocks : List (ε × List ε)} {e : ε}

theorem Divides.concat (h : Divides opens blocks) (he : blocks = [] ∨ opens e = true) :
    Divides opens (blocks ++ [(e, [])]) := by
  constructor
  · intro b hb d hd
    rcases List.mem_append.1 hb with hb | hb
    · exact h.adds b hb d hd
    · rw [List.mem_singleton.1 hb] at hd
      exact absurd hd List.not_mem_nil
  · intro b hb
    rcases he with rfl | he
    · exact absurd hb List.not_mem_nil
    · have hmem : b ∈ blocks.tail ∨ b = (e, []) := by
        cases blocks with
        | nil => exact absurd hb List.not_mem_nil
        | cons first rest => exact (List.mem_append.1 hb).imp_right List.mem_singleton.1
      rcases hmem with hmem | rfl
      · exact h.opened b hmem
      · exact he

theorem Divides.extend {last : ε × List ε} (h : Divides opens (blocks ++ [last]))
    (he : opens e = false) : Divides opens (blocks ++ [(last.1, last.2 ++ [e])]) := by
  constructor
  · intro b hb d hd
    rcases List.mem_append.1 hb with hb | hb
    · exact h.adds b (List.mem_append_left _ hb) d hd
    · rw [List.mem_singleton.1 hb] at hd
      rcases List.mem_append.1 hd with hd | hd
      · exact h.adds last (List.mem_append_right _ (List.mem_singleton_self _)) d hd
      · rw [List.mem_singleton.1 hd]
        exact he
  · intro b hb
    cases blocks with
    | nil => exact absurd hb List.not_mem_nil
    | cons first rest =>
      rcases List.mem_append.1 hb with hb | hb
      · exact h.opened b (List.mem_append_left _ hb)
      · rw [List.mem_singleton.1 hb]
        exact h.opened last (List.mem_append_right _ (List.mem_singleton_self _))

theorem object_extend (last : ε × List ε) (e : ε) :
    object opens new add (last.1, last.2 ++ [e]) = add e (object opens new add last) := by
  rw [object, object, List.foldl_append]
  rfl

theorem events_append (blocks blocks' : List (ε × List ε)) :
    events (blocks ++ blocks') = events blocks ++ events blocks' :=
  List.flatMap_append

/-- **The objects are those of blocks.** -/
theorem exists_blocks (es : List ε) : ∃ blocks, es = events blocks ∧ Divides opens blocks ∧
    es.foldl (place opens new add) [] = blocks.map (object opens new add) := by
  induction es using List.reverseRecOn with
  | nil => exact ⟨[], rfl, ⟨fun b hb ↦ absurd hb List.not_mem_nil,
      fun b hb ↦ absurd hb List.not_mem_nil⟩, rfl⟩
  | append_singleton es e ih =>
    obtain ⟨blocks, hes, hdivides, hobjects⟩ := ih
    rw [List.foldl_append, List.foldl_cons, List.foldl_nil, hobjects, place]
    by_cases he : opens e = true
    · refine ⟨blocks ++ [(e, [])], ?_, hdivides.concat (.inr he), ?_⟩
      · rw [hes, events_append]
        rfl
      · rw [if_pos he, List.map_append, List.map_singleton, object, if_pos he]
        rfl
    · rw [if_neg he]
      rcases List.eq_nil_or_concat' blocks with rfl | ⟨init, last, rfl⟩
      · refine ⟨[(e, [])], ?_, hdivides.concat (.inl rfl), ?_⟩
        · rw [hes]
          rfl
        · rw [List.map_singleton, object, if_neg he]
          rfl
      · refine ⟨init ++ [(last.1, last.2 ++ [e])], ?_,
          hdivides.extend (Bool.eq_false_iff.2 he), ?_⟩
        · have hone (b : ε × List ε) : events [b] = b.1 :: b.2 := List.append_nil _
          rw [hes, events_append, events_append, hone, hone, List.append_assoc, List.cons_append]
        · have hne : ¬((init ++ [last]).map (object opens new add)).isEmpty = true := by
            rw [List.map_append, List.map_singleton]
            exact fun h ↦ List.append_ne_nil_of_right_ne_nil _ (List.cons_ne_nil _ _)
              (List.isEmpty_iff.1 h)
          rw [if_neg hne, List.map_append, List.map_append, List.map_singleton, List.map_singleton,
            object_extend, List.modifyLast_concat]

/-- What is not added to stays what the event that opened the object made it. -/
theorem proj_object {β : Type} (f : α → β) (hadd : ∀ e a, f (add e a) = f a)
    (block : ε × List ε) : f (object opens new add block) = f (new block.1) := by
  have hfold : ∀ (es : List ε) (a : α), f (es.foldl (fun a e ↦ add e a) a) = f a := by
    intro es
    induction es with
    | nil => exact fun a ↦ rfl
    | cons e es ih => exact fun a ↦ (ih _).trans (hadd e a)
  rw [object, hfold]
  split
  · rfl
  · exact hadd _ _

end Blocks
