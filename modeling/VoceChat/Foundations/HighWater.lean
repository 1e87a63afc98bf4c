import Mathlib.Data.List.Induction
import Mathlib.Logic.Function.Basic
import Mathlib.Order.Basic
import Mathlib.Order.Lattice

/-!
# Marks that are to rise only

A mark is kept for each key, the highest value that was submitted for it (`Highest`). Submissions
come in batches, and of a batch only those are put, one after the other, that are above the mark as
it was before the batch (`ahead`).

The marks stay the highest as long as what is put of a batch ascends, for each key (`highest_put`).
That it does is all that it takes for everything that was ever put to ascend
(`ascending_append_iff`).
-/

namespace HighWater

variable {κ ι : Type*} [LinearOrder ι]

/-- The value is the highest of the key in the log, or the key has none. -/
def Highest (log : List (κ × ι)) (k : κ) : Option ι → Prop
  | none => ∀ n, (k, n) ∉ log
  | some m => (k, m) ∈ log ∧ ∀ n, (k, n) ∈ log → n ≤ m

/-- For each key, the values ascend. -/
def Ascending (log : List (κ × ι)) : Prop := log.Pairwise fun e f ↦ e.1 = f.1 → e.2 ≤ f.2

/-- Those of a batch that are above the marks. -/
def ahead (marks : κ → Option ι) (batch : List (κ × ι)) : List (κ × ι) :=
  batch.filter fun e ↦ (marks e.1).all (· < e.2)

variable {log batch : List (κ × ι)} {k : κ} {o : Option ι}

instance [DecidableEq κ] : Decidable (Ascending log) :=
  inferInstanceAs (Decidable (log.Pairwise fun e f ↦ e.1 = f.1 → e.2 ≤ f.2))

theorem Highest.unique (h : Highest log k o) {o' : Option ι} (h' : Highest log k o') : o = o' := by
  cases o with
  | none =>
    cases o' with
    | none => rfl
    | some m => exact absurd h'.1 (h m)
  | some m =>
    cases o' with
    | none => exact absurd h.1 (h' m)
    | some m' => exact congrArg some (le_antisymm (h'.2 m h.1) (h.2 m' h'.1))

theorem highest_nil (k : κ) : Highest ([] : List (κ × ι)) k none := fun _ ↦ List.not_mem_nil

/-- A log with more entries, none of them above one that was there before. -/
theorem Highest.of_dominated (h : Highest log k o) {log' : List (κ × ι)}
    (hsub : ∀ e ∈ log, e ∈ log') (hdom : ∀ n, (k, n) ∈ log' → ∃ n', (k, n') ∈ log ∧ n ≤ n') :
    Highest log' k o := by
  cases o with
  | none =>
    intro n hn
    obtain ⟨n', hn', -⟩ := hdom n hn
    exact h n' hn'
  | some m =>
    refine ⟨hsub _ h.1, fun n hn ↦ ?_⟩
    obtain ⟨n', hn', hle⟩ := hdom n hn
    exact hle.trans (h.2 n' hn')

theorem mem_ahead {marks : κ → Option ι} {e : κ × ι} :
    e ∈ ahead marks batch ↔ e ∈ batch ∧ ∀ m ∈ marks e.1, m < e.2 := by
  rw [ahead, List.mem_filter]
  refine and_congr_right fun _ ↦ ?_
  cases marks e.1 with
  | none => exact iff_of_true rfl fun m hm ↦ by cases hm
  | some m => simp

/-- All that was ever put ascends as long as each batch does. -/
theorem ascending_append_iff {marks : κ → Option ι} {reported : List (κ × ι)}
    (hreported : Ascending reported)
    (hlog : ∀ e ∈ reported, e ∈ log) (h : ∀ e ∈ batch, Highest log e.1 (marks e.1)) :
    Ascending (reported ++ ahead marks batch) ↔ Ascending (ahead marks batch) := by
  refine ⟨fun hall ↦ (List.pairwise_append.1 hall).2.1, fun hahead ↦ ?_⟩
  refine List.pairwise_append.2 ⟨hreported, hahead, fun e he f hf heq ↦ ?_⟩
  obtain ⟨hmem, hlt⟩ := mem_ahead.1 hf
  have hhigh := h f hmem
  have hold := hlog e he
  cases hmark : marks f.1 with
  | none =>
    rw [hmark, ← heq] at hhigh
    exact absurd hold (hhigh e.2)
  | some m =>
    rw [hmark, ← heq] at hhigh
    exact (hhigh.2 e.2 hold).trans (hlt m hmark).le

variable [DecidableEq κ] {marks : κ → Option ι}

/-- The marks when these values are put one after the other. -/
def put (marks : κ → Option ι) (batch : List (κ × ι)) : κ → Option ι :=
  batch.foldl (fun marks e ↦ Function.update marks e.1 (some e.2)) marks

omit [LinearOrder ι] in
/-- What a batch does not name stays. -/
theorem put_of_forall_ne (h : ∀ e ∈ batch, e.1 ≠ k) : put marks batch k = marks k := by
  induction batch generalizing marks with
  | nil => rfl
  | cons e batch ih =>
    obtain ⟨hne, hrest⟩ := List.forall_mem_cons.1 h
    exact (ih hrest).trans (Function.update_of_ne (Ne.symm hne) _ _)

omit [LinearOrder ι] in
/-- The marks of other keys make no difference. -/
theorem put_congr {marks' : κ → Option ι} (h : marks k = marks' k) :
    put marks batch k = put marks' batch k := by
  induction batch generalizing marks marks' with
  | nil => exact h
  | cons e batch ih =>
    refine ih ?_
    show Function.update marks e.1 (some e.2) k = Function.update marks' e.1 (some e.2) k
    rw [Function.update_apply, Function.update_apply, h]

/-- Values that ascend, from the mark on, leave the highest. -/
theorem highest_put_of_ascending (h : Highest log k (marks k)) (hascending : Ascending batch)
    (habove : ∀ v, (k, v) ∈ batch → ∀ n, (k, n) ∈ log → n ≤ v) :
    Highest (log ++ batch) k (put marks batch k) := by
  induction batch using List.reverseRecOn with
  | nil =>
    rw [List.append_nil]
    exact h
  | append_singleton batch e ih =>
    obtain ⟨hbatch, -, hlast⟩ := List.pairwise_append.1 hascending
    have hih := ih hbatch fun v hv ↦ habove v (List.mem_append_left _ hv)
    rw [put, List.foldl_append, List.foldl_cons, List.foldl_nil, ← List.append_assoc]
    by_cases hk : k = e.1
    · obtain rfl := hk
      rw [Function.update_self]
      refine ⟨List.mem_append_right _ List.mem_cons_self, fun n hn ↦ ?_⟩
      rcases List.mem_append.1 hn with hn | hn
      · rcases List.mem_append.1 hn with hn | hn
        · exact habove e.2 (List.mem_append_right _ List.mem_cons_self) n hn
        · exact hlast _ hn e List.mem_cons_self rfl
      · exact (Prod.mk.inj (List.mem_singleton.1 hn)).2.le
    · rw [Function.update_of_ne hk]
      refine hih.of_dominated (fun f hf ↦ List.mem_append_left _ hf) fun n hn ↦ ?_
      rcases List.mem_append.1 hn with hn | hn
      · exact ⟨n, hn, le_rfl⟩
      · exact absurd (Prod.mk.inj (List.mem_singleton.1 hn)).1 hk

/-- **A batch of which those ahead ascend.** -/
theorem highest_put (hk : Highest log k (marks k))
    (hascending : Ascending (ahead marks batch)) :
    Highest (log ++ batch) k (put marks (ahead marks batch) k) := by
  have hput := highest_put_of_ascending hk hascending fun v hv n hn ↦ by
    obtain ⟨hmem, hlt⟩ := mem_ahead.1 hv
    cases hmark : marks k with
    | none =>
      rw [hmark] at hk
      exact absurd hn (hk n)
    | some m =>
      rw [hmark] at hk
      exact (hk.2 n hn).trans (hlt m hmark).le
  refine hput.of_dominated (fun e he ↦ ?_) fun n hn ↦ ?_
  · rcases List.mem_append.1 he with he | he
    · exact List.mem_append_left _ he
    · exact List.mem_append_right _ (mem_ahead.1 he).1
  · rcases List.mem_append.1 hn with hn | hn
    · exact ⟨n, List.mem_append_left _ hn, le_rfl⟩
    · by_cases hahead : (k, n) ∈ ahead marks batch
      · exact ⟨n, List.mem_append_right _ hahead, le_rfl⟩
      · -- it is not above the mark, which is in the log
        rw [mem_ahead] at hahead
        push Not at hahead
        obtain ⟨m, hm, hle⟩ := hahead hn
        rw [Option.mem_def.1 hm] at hk
        exact ⟨m, List.mem_append_left _ hk.1, hle⟩

end HighWater
