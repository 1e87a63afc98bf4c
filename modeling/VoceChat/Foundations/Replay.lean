import VoceChat.Foundations.Run

/-!
# Replicas fed from a log

A system with a log that only grows, and a view of its states. A replica that has a copy of the view
of some state catches up by applying the entries written since. `InSync` says that it then has the
view of the present state.

The rule of this module is `inSync_iff`: over a whole run, a replica taken at its start is in sync
at every moment exactly when every step of the run is accounted for by the entries it writes
(`Accounted`). A step that changes the view without saying so is out of sync at once.
-/

namespace Replay

/-- A system that logs, and the way a replica reads its log. -/
structure System (σ α ε ρ : Type) where
  step : σ → α → σ
  log : σ → List ε
  view : σ → ρ
  apply : ρ → ε → ρ
  /-- The log only grows. -/
  log_prefix : ∀ s a, log s <+: log (step s a)

variable {σ α ε ρ : Type} (S : System σ α ε ρ)

namespace System

/-- The state after some actions. -/
def after (s : σ) (as : List α) : σ := as.foldl S.step s

/-- The entries of the log that were written after those of an earlier state. -/
def since (s t : σ) : List ε := (S.log t).drop (S.log s).length

/-- A replica of the view of `s`, fed with what was written since, has the view of `t`. -/
def InSync (s t : σ) : Prop := (S.since s t).foldl S.apply (S.view s) = S.view t

/-- The step writes to the log what it does to the view. -/
def Accounted (s : σ) (a : α) : Prop := S.InSync s (S.step s a)

variable {S} {s t u : σ}

theorem log_after (s : σ) (as : List α) : S.log s <+: S.log (S.after s as) := by
  induction as generalizing s with
  | nil => exact List.prefix_rfl
  | cons a as ih => exact (S.log_prefix s a).trans (ih (S.step s a))

theorem inSync_refl (s : σ) : S.InSync s s := by
  rw [InSync, since, List.drop_length]
  rfl

/-- What was written since an earlier state, up to a moment in between and from there on. -/
theorem since_append (hst : S.log s <+: S.log t) (htu : S.log t <+: S.log u) :
    S.since s u = S.since s t ++ S.since t u := by
  obtain ⟨es, hes⟩ := hst
  obtain ⟨fs, hfs⟩ := htu
  rw [since, since, since, ← hfs, ← hes, List.append_assoc, List.drop_left, List.drop_left,
    ← List.append_assoc, List.drop_left]

/-- A replica in sync stays so exactly when one taken there would. -/
theorem inSync_iff_of_inSync (hst : S.log s <+: S.log t) (htu : S.log t <+: S.log u)
    (h : S.InSync s t) : S.InSync s u ↔ S.InSync t u := by
  rw [InSync, since_append hst htu, List.foldl_append, h, InSync]

/-- **A replica is in sync all along a run** exactly when every step is accounted for. -/
theorem inSync_iff (s : σ) (as : List α) :
    (∀ cs, cs <+: as → S.InSync s (S.after s cs)) ↔
      Transition.Along (Transition.total S.step) S.Accounted s as := by
  refine Transition.forall_prefix_iff_along (I := fun t ↦ S.log s <+: S.log t) (fun t a ht ↦ ?_)
    (fun t a ht hsync ↦ ?_) List.prefix_rfl (inSync_refl s) as
  · exact ht.trans (S.log_prefix t a)
  · exact inSync_iff_of_inSync ht (S.log_prefix t a) hsync

end System

end Replay
