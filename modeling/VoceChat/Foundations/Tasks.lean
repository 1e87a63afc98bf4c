import Mathlib.Logic.Function.Basic
import Mathlib.Data.Nat.Notation

/-!
# Tasks by number

A system keeps its tasks under numbers; a step puts one task, or drops it. What holds of all tasks
after that holds of the one that was put and of the others before (`forall_update`).
-/

namespace Tasks

variable {τ : Type} {tasks : ℕ → Option τ} {P : ℕ → τ → Prop} {i : ℕ} {task : Option τ}

theorem forall_update (hnew : ∀ new ∈ task, P i new)
    (hold : ∀ j old, tasks j = some old → P j old) :
    ∀ j new, Function.update tasks i task j = some new → P j new := by
  intro j new h
  rw [Function.update_apply] at h
  split at h
  · rename_i hj
    exact hj ▸ hnew new h
  · exact hold j new h

end Tasks
