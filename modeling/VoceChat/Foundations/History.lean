import VoceChat.Foundations.Run
import Mathlib.Data.List.Induction

/-!
# Runs and what happened in them

An invariant of states does not say how a state came about. Here an invariant may speak of the run
that led to a state (`run_induction_history`), and so of what occurred in it: a step at which
something held of the state before it and of the action (`Occurred`). What occurred stays so when
the run goes on (`Occurred.concat`). What occurred may be called off by a later step; `Since` says
that it was not (`since_concat`), and `holds_iff_since` that a state says so.
-/

namespace Transition

variable {σ α : Type*} {step : σ → α → Option σ} {s t u : σ} {a : α} {as : List α}

theorem run_concat (h : run step s as = some t) (ht : step t a = some u) :
    run step s (as ++ [a]) = some u := by
  rw [run_append, h]
  exact run_cons_eq_some.2 ⟨u, ht, rfl⟩

/-- **The invariant rule, with the run so far.** -/
theorem run_induction_history {I : List α → σ → Prop} (hs : I [] s)
    (hstep : ∀ as t a u, run step s as = some t → I as t → step t a = some u → I (as ++ [a]) u) :
    ∀ {as : List α} {t : σ}, run step s as = some t → I as t := by
  intro as
  induction as using List.reverseRecOn with
  | nil =>
    rintro t ⟨⟩
    exact hs
  | append_singleton as a ih =>
    intro u hrun
    rw [run_append, Option.bind_eq_some_iff] at hrun
    obtain ⟨t, ht, hlast⟩ := hrun
    obtain ⟨u', hu, hnil⟩ := run_cons_eq_some.1 hlast
    obtain rfl : u' = u := Option.some.inj hnil
    exact hstep as t a u' ht (ih ht) hu

/-- What is left of a run after some of it. -/
theorem run_drop {bs cs : List α} (h : run step s (bs ++ a :: cs) = some u)
    (hbs : run step s bs = some t) {v : σ} (hstep : step t a = some v) :
    run step v cs = some u := by
  rw [run_append, hbs, Option.bind_some] at h
  obtain ⟨v', hv', hcs⟩ := run_cons_eq_some.1 h
  exact Option.some.inj (hstep.symm.trans hv') ▸ hcs

/-- A step that meets the condition, and the rest of the run. -/
theorem along_cons {ok : σ → α → Prop} (h : step s a = some t) (ha : ok s a)
    (hrest : Along step ok t as) : Along step ok s (a :: as) :=
  ⟨ha, fun _ ht ↦ Option.some.inj (h.symm.trans ht) ▸ hrest⟩

/-- Some step of the run was taken by an action, from a state, of which `P` holds. -/
def Occurred (step : σ → α → Option σ) (P : σ → α → Prop) (s : σ) (as : List α) : Prop :=
  ∃ bs a cs t, as = bs ++ a :: cs ∧ run step s bs = some t ∧ P t a

variable {P Q : σ → α → Prop}

theorem Occurred.concat (h : Occurred step P s as) (a : α) : Occurred step P s (as ++ [a]) := by
  obtain ⟨bs, b, cs, t, rfl, hrun, hP⟩ := h
  exact ⟨bs, b, cs ++ [a], t, by rw [List.append_assoc, List.cons_append], hrun, hP⟩

/-- The last step of a run occurred. -/
theorem occurred_concat (hrun : run step s as = some t) (hP : P t a) :
    Occurred step P s (as ++ [a]) :=
  ⟨as, a, [], t, rfl, hrun, hP⟩

theorem Occurred.mono (h : Occurred step P s as) (hPQ : ∀ t a, P t a → Q t a) :
    Occurred step Q s as := by
  obtain ⟨bs, b, cs, t, has, hrun, hP⟩ := h
  exact ⟨bs, b, cs, t, has, hrun, hPQ t b hP⟩

theorem not_occurred_nil : ¬Occurred step P s [] := by
  rintro ⟨bs, a, cs, t, heq, -⟩
  cases bs with
  | nil => cases heq
  | cons b bs => cases heq

theorem occurred_concat_iff (hrun : run step s as = some t) :
    Occurred step P s (as ++ [a]) ↔ Occurred step P s as ∨ P t a := by
  constructor
  · rintro ⟨bs, b, cs, u, heq, hu, hP⟩
    rcases List.eq_nil_or_concat cs with rfl | ⟨cs, c, rfl⟩
    · obtain ⟨rfl, hlast⟩ := List.append_inj' heq rfl
      obtain rfl := (List.cons.inj hlast).1
      obtain rfl := Option.some.inj (hrun.symm.trans hu)
      exact .inr hP
    · rw [List.concat_eq_append, ← List.cons_append, ← List.append_assoc] at heq
      exact .inl ⟨bs, b, cs, u, (List.append_inj' heq rfl).1, hu, hP⟩
  · rintro (hocc | hP)
    · exact hocc.concat a
    · exact occurred_concat hrun hP

/-- Some step was taken of which `P` holds, and since then none of which `Q` holds. -/
def Since (step : σ → α → Option σ) (P Q : σ → α → Prop) (s : σ) (as : List α) : Prop :=
  ∃ bs a cs t u, as = bs ++ a :: cs ∧ run step s bs = some t ∧ P t a ∧ step t a = some u ∧
    ¬Occurred step Q u cs

theorem not_since_nil : ¬Since step P Q s [] := by
  rintro ⟨bs, a, cs, t, u, heq, -⟩
  cases bs with
  | nil => cases heq
  | cons b bs => cases heq

/-- **What a step more makes of it.** -/
theorem since_concat (hrun : run step s as = some t) (ht : step t a = some u) :
    Since step P Q s (as ++ [a]) ↔ P t a ∨ Since step P Q s as ∧ ¬Q t a := by
  constructor
  · rintro ⟨bs, b, cs, v, w, heq, hv, hP, hw, hnot⟩
    rcases List.eq_nil_or_concat cs with rfl | ⟨cs, c, rfl⟩
    · obtain ⟨rfl, hlast⟩ := List.append_inj' heq rfl
      obtain rfl := (List.cons.inj hlast).1
      obtain rfl := Option.some.inj (hrun.symm.trans hv)
      exact .inl hP
    · rw [List.concat_eq_append, ← List.cons_append, ← List.append_assoc] at heq
      obtain ⟨rfl, hlast⟩ := List.append_inj' heq rfl
      obtain rfl := (List.cons.inj hlast).1
      have hcs : run step w cs = some t := run_drop hrun hv hw
      rw [List.concat_eq_append, occurred_concat_iff hcs, not_or] at hnot
      exact .inr ⟨⟨bs, b, cs, v, w, rfl, hv, hP, hw, hnot.1⟩, hnot.2⟩
  · rintro (hP | ⟨⟨bs, b, cs, v, w, rfl, hv, hP, hw, hnot⟩, hQ⟩)
    · exact ⟨as, a, [], t, u, rfl, hrun, hP, ht, not_occurred_nil⟩
    · have hcs : run step w cs = some t := run_drop hrun hv hw
      refine ⟨bs, b, cs ++ [a], v, w, by rw [List.append_assoc, List.cons_append], hv, hP, hw, ?_⟩
      rw [occurred_concat_iff hcs, not_or]
      exact ⟨hnot, hQ⟩

/-- **What holds since a step.** By steps of `P` something comes to hold of what is `Live`, and by
steps of `Q` it is called off. It also ends with what it holds of, which does not come back: what
was ever `Known` was live before if it is now. -/
theorem holds_iff_since (I Holds Live Known : σ → Prop)
    (hI : ∀ s a t, I s → step s a = some t → I t)
    (hholds : ∀ s a t, I s → step s a = some t →
      (Holds t ↔ Live t ∧ (P s a ∨ Holds s ∧ ¬Q s a)))
    (hknown : ∀ s a t, I s → step s a = some t → P s a ∨ Known s → Known t)
    (hlive : ∀ s a t, I s → step s a = some t → Known s → Live t → Live s)
    (hs : I s) (hnot : ¬Holds s) (hrun : run step s as = some t) :
    Holds t ↔ Live t ∧ Since step P Q s as := by
  suffices hsuff : I t ∧ (Since step P Q s as → Known t) ∧
      (Holds t ↔ Live t ∧ Since step P Q s as) from hsuff.2.2
  refine run_induction_history (I := fun as t ↦ I t ∧ (Since step P Q s as → Known t) ∧
    (Holds t ↔ Live t ∧ Since step P Q s as)) ⟨hs, fun h ↦ absurd h not_since_nil, ?_⟩ ?_ hrun
  · exact iff_of_false hnot fun h ↦ not_since_nil h.2
  · rintro as t a u hrun ⟨ht, hsince, hiff⟩ hstep
    rw [since_concat hrun hstep]
    refine ⟨hI t a u ht hstep, fun h ↦ ?_, ?_⟩
    · exact hknown t a u ht hstep (h.imp_right fun h ↦ hsince h.1)
    · refine (hholds t a u ht hstep).trans (and_congr_right fun hu ↦ or_congr_right ?_)
      refine and_congr_left fun _ ↦ hiff.trans (and_iff_right_of_imp fun h ↦ ?_)
      exact hlive t a u ht hstep (hsince h) hu

end Transition
