import Mathlib.Logic.Function.Basic

/-!
# Runs of a guarded step function

The execution substrate shared by every transition system of the project: a system is a step
function `step : σ → α → Option σ`, where `none` says that the action is not enabled in the
state. A run is a list of actions; it is defined when every action is enabled where it is taken.

Nothing here depends on what the states and the actions are. Two rules carry the whole project:

* `run_induction` — what holds at the start and is kept by every enabled step holds at the end;
* `run_induction_along` — the same when the steps are only those that meet a side condition, the
  condition being judged in the state **before** the step (`Along`).

Runs are lists and `run` is structurally recursive, so a concrete run is checked by evaluation.
-/

namespace Transition

variable {σ α : Type*} (step : σ → α → Option σ)

/-- Run a list of actions; undefined as soon as one of them is not enabled. -/
def run : σ → List α → Option σ
  | s, [] => some s
  | s, a :: as => (step s a).bind fun t ↦ run t as

/-- Every step of the run meets `ok`, judged in the state the step is taken from. -/
def Along (ok : σ → α → Prop) : σ → List α → Prop
  | _, [] => True
  | s, a :: as => ok s a ∧ ∀ t ∈ step s a, Along ok t as

/-- `Along` is decidable when the side condition is: a concrete run can be checked. -/
instance decidableAlong (ok : σ → α → Prop) [∀ s a, Decidable (ok s a)] :
    ∀ s as, Decidable (Along step ok s as)
  | _, [] => .isTrue trivial
  | s, a :: as =>
    have : Decidable (∀ t ∈ step s a, Along step ok t as) :=
      match h : step s a with
      | none => .isTrue fun t ht ↦ by cases ht
      | some t =>
        have := decidableAlong ok t as
        decidable_of_iff (Along step ok t as) (by simp)
    inferInstanceAs (Decidable (ok s a ∧ ∀ t ∈ step s a, Along step ok t as))

variable {step}

@[simp] theorem run_nil (s : σ) : run step s [] = some s := rfl

theorem run_cons (s : σ) (a : α) (as : List α) :
    run step s (a :: as) = (step s a).bind fun t ↦ run step t as := rfl

theorem run_cons_eq_some {s u : σ} {a : α} {as : List α} :
    run step s (a :: as) = some u ↔ ∃ t, step s a = some t ∧ run step t as = some u := by
  rw [run_cons, Option.bind_eq_some_iff]

theorem run_append (s : σ) (as bs : List α) :
    run step s (as ++ bs) = (run step s as).bind fun t ↦ run step t bs := by
  induction as generalizing s with
  | nil => rfl
  | cons a as ih =>
    rw [List.cons_append, run_cons, run_cons]
    cases step s a with
    | none => rfl
    | some t => exact ih t

@[simp] theorem along_nil {ok : σ → α → Prop} (s : σ) : Along step ok s [] := trivial

theorem along_of_forall {ok : σ → α → Prop} (h : ∀ s a, ok s a) (s : σ) (as : List α) :
    Along step ok s as := by
  induction as generalizing s with
  | nil => trivial
  | cons a as ih => exact ⟨h s a, fun t _ ↦ ih t⟩

/-- A run in two parts. -/
theorem along_append {ok : σ → α → Prop} {s : σ} {as bs : List α} :
    Along step ok s (as ++ bs) ↔
      Along step ok s as ∧ ∀ t, run step s as = some t → Along step ok t bs := by
  induction as generalizing s with
  | nil => exact ⟨fun h ↦ ⟨trivial, fun t ht ↦ Option.some_inj.1 ht ▸ h⟩, fun h ↦ h.2 s rfl⟩
  | cons a as ih =>
    constructor
    · rintro ⟨ha, hrest⟩
      refine ⟨⟨ha, fun u hu ↦ (ih.1 (hrest u hu)).1⟩, fun t ht ↦ ?_⟩
      obtain ⟨u, hu, hrun⟩ := run_cons_eq_some.1 ht
      exact (ih.1 (hrest u hu)).2 t hrun
    · rintro ⟨⟨ha, hfirst⟩, hsecond⟩
      exact ⟨ha, fun u hu ↦ ih.2 ⟨hfirst u hu, fun t ht ↦
        hsecond t (run_cons_eq_some.2 ⟨u, hu, ht⟩)⟩⟩

theorem Along.mono {ok ok' : σ → α → Prop} (h : ∀ s a, ok s a → ok' s a) {s : σ} {as : List α}
    (hok : Along step ok s as) : Along step ok' s as := by
  induction as generalizing s with
  | nil => trivial
  | cons a as ih => exact ⟨h s a hok.1, fun t ht ↦ ih (hok.2 t ht)⟩

theorem Along.and {ok ok' : σ → α → Prop} {s : σ} {as : List α} (h : Along step ok s as)
    (h' : Along step ok' s as) : Along step (fun s a ↦ ok s a ∧ ok' s a) s as := by
  induction as generalizing s with
  | nil => trivial
  | cons a as ih => exact ⟨⟨h.1, h'.1⟩, fun t ht ↦ ih (h.2 t ht) (h'.2 t ht)⟩

/-- Conditions that agree in all states with an invariant agree along runs, if one of them keeps the
invariant. -/
theorem along_congr_of_keeps {I : σ → Prop} {ok ok' : σ → α → Prop}
    (hstep : ∀ s a t, I s → ok s a → step s a = some t → I t)
    (hok : ∀ s a, I s → (ok s a ↔ ok' s a)) {s : σ} (hs : I s) (as : List α) :
    Along step ok s as ↔ Along step ok' s as := by
  induction as generalizing s with
  | nil => rfl
  | cons a as ih =>
    refine (and_congr_right fun ha ↦ ?_).trans (and_congr_left' (hok s a hs))
    exact forall₂_congr fun t ht ↦ ih (hstep s a t hs ha ht)

/-- Conditions that agree in all states with an invariant agree along runs. -/
theorem along_congr {I : σ → Prop} {ok ok' : σ → α → Prop}
    (hstep : ∀ s a t, I s → step s a = some t → I t) (hok : ∀ s a, I s → (ok s a ↔ ok' s a)) {s : σ}
    (hs : I s) (as : List α) : Along step ok s as ↔ Along step ok' s as :=
  along_congr_of_keeps (fun s a t hI _ h ↦ hstep s a t hI h) hok hs as

/-- The side condition checked along a run, as a computation. -/
def alongCheck (step : σ → α → Option σ) (ok : σ → α → Prop) [∀ s a, Decidable (ok s a)] :
    σ → List α → Bool
  | _, [] => true
  | s, a :: as =>
    decide (ok s a) && match step s a with
      | none => true
      | some t => alongCheck step ok t as

theorem along_of_check {ok : σ → α → Prop} [∀ s a, Decidable (ok s a)] {s : σ} {as : List α}
    (h : alongCheck step ok s as = true) : Along step ok s as := by
  induction as generalizing s with
  | nil => trivial
  | cons a as ih =>
    rw [alongCheck, Bool.and_eq_true, decide_eq_true_iff] at h
    refine ⟨h.1, fun t ht ↦ ih ?_⟩
    have hrest := h.2
    rw [Option.mem_def.1 ht] at hrest
    exact hrest

/-- **The invariant rule, with a side condition on the steps.** -/
theorem run_induction_along {I : σ → Prop} {ok : σ → α → Prop}
    (hstep : ∀ s a t, I s → ok s a → step s a = some t → I t) :
    ∀ {s t : σ} {as : List α}, I s → Along step ok s as → run step s as = some t → I t := by
  intro s t as hs hok hrun
  induction as generalizing s with
  | nil =>
    obtain rfl : s = t := Option.some.inj hrun
    exact hs
  | cons a as ih =>
    obtain ⟨u, hu, hrest⟩ := run_cons_eq_some.1 hrun
    exact ih (hstep s a u hs hok.1 hu) (hok.2 u hu) hrest

/-- **The invariant rule.** -/
theorem run_induction {I : σ → Prop} (hstep : ∀ s a t, I s → step s a = some t → I t)
    {s t : σ} {as : List α} (hs : I s) (hrun : run step s as = some t) : I t :=
  run_induction_along (fun s a t hI _ h ↦ hstep s a t hI h) hs
    (along_of_forall (fun _ _ ↦ True.intro) _ _) hrun

/-! ### Total step functions -/

/-- A system whose actions are always enabled. -/
def total (f : σ → α → σ) : σ → α → Option σ := fun s a ↦ some (f s a)

theorem run_total (f : σ → α → σ) (s : σ) (as : List α) :
    run (total f) s as = some (as.foldl f s) := by
  induction as generalizing s with
  | nil => rfl
  | cons a as ih => exact ih (f s a)

theorem along_total_cons {f : σ → α → σ} {ok : σ → α → Prop} {s : σ} {a : α} {as : List α} :
    Along (total f) ok s (a :: as) ↔ ok s a ∧ Along (total f) ok (f s a) as :=
  and_congr_right fun _ ↦
    ⟨fun h ↦ h _ rfl, fun h _ ht ↦ by rwa [← Option.some_inj.1 (Option.mem_def.1 ht)]⟩

/-- The invariant rule, where every action is enabled. -/
theorem foldl_induction {I : σ → Prop} {f : σ → α → σ} (hstep : ∀ s a, I s → I (f s a)) {s : σ}
    (hs : I s) (as : List α) : I (as.foldl f s) :=
  run_induction (fun s a _ hI h ↦ Option.some_inj.1 h ▸ hstep s a hI) hs (run_total f s as)

/-- **What all states of a run have**, when a step keeps it exactly if the step meets a condition.
-/
theorem forall_prefix_iff_along {I P : σ → Prop} {f : σ → α → σ} {ok : σ → α → Prop}
    (hinv : ∀ s a, I s → I (f s a)) (hstep : ∀ s a, I s → P s → (P (f s a) ↔ ok s a)) {s : σ}
    (hs : I s) (hP : P s) (as : List α) :
    (∀ cs, cs <+: as → P (cs.foldl f s)) ↔ Along (total f) ok s as := by
  induction as generalizing s with
  | nil =>
    refine iff_of_true (fun cs hcs ↦ ?_) trivial
    obtain rfl := List.prefix_nil.1 hcs
    exact hP
  | cons a as ih =>
    rw [along_total_cons]
    constructor
    · intro h
      have hfirst : P (f s a) := h [a] (List.prefix_append [a] as)
      refine ⟨(hstep s a hs hP).1 hfirst, (ih (hinv s a hs) hfirst).1 fun cs hcs ↦ ?_⟩
      exact h (a :: cs) ((List.prefix_cons_inj a).2 hcs)
    · rintro ⟨hok, hrest⟩ cs hcs
      cases cs with
      | nil => exact hP
      | cons b cs =>
        obtain ⟨rfl, htail⟩ := List.cons_prefix_cons.1 hcs
        exact (ih (hinv s b hs) ((hstep s b hs hP).2 hok)).2 hrest cs htail

end Transition
