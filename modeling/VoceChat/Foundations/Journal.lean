import Mathlib.Data.List.Basic

/-!
# Journals

A store that survives crashes in part: it keeps its writes in the order they were made, and after a
crash it is found as it was after some number of them. A `Journal` has the writes so far, each
with the state of the store after it; a crash keeps the first `n`.

What is proved of such a store has to hold of every prefix (`EveryPrefix`). It is enough to look at
the whole journal whenever there is a new write (`EveryPrefix.write`); crashes then cost nothing
(`EveryPrefix.crash`).
-/

/-- The writes of a store in their order, each with the state it leads to. -/
structure Journal (ω σ : Type) where
  start : σ
  log : List (ω × σ)

namespace Journal

variable {ω σ : Type} {j : Journal ω σ}

/-- The state after the last write. -/
def now (j : Journal ω σ) : σ := (j.log.getLast?.map Prod.snd).getD j.start

def write (j : Journal ω σ) (w : ω) (s : σ) : Journal ω σ := { j with log := j.log ++ [(w, s)] }

/-- What is found after a crash that keeps `n` writes. -/
def crash (j : Journal ω σ) (n : ℕ) : Journal ω σ := { j with log := j.log.take n }

/-- The write was made, and not lost. -/
def Has (j : Journal ω σ) (w : ω) : Prop := w ∈ j.log.map Prod.fst

instance [DecidableEq ω] (w : ω) : Decidable (j.Has w) := inferInstanceAs (Decidable (_ ∈ _))

/-- Wherever the journal is cut, it is as `R` says. -/
def EveryPrefix (R : Journal ω σ → Prop) (j : Journal ω σ) : Prop := ∀ n, R (j.crash n)

@[simp] theorem now_write (j : Journal ω σ) (w : ω) (s : σ) : (j.write w s).now = s := by
  rw [now, write, List.getLast?_concat]
  rfl

theorem has_write {w v : ω} {s : σ} : (j.write w s).Has v ↔ j.Has v ∨ v = w := by
  rw [Has, Has, write, List.map_append, List.mem_append]
  exact or_congr_right List.mem_singleton

theorem crash_of_length_le {n : ℕ} (h : j.log.length ≤ n) : j.crash n = j := by
  rw [crash, List.take_of_length_le h]

theorem crash_write_of_le {n : ℕ} (h : n ≤ j.log.length) (w : ω) (s : σ) :
    (j.write w s).crash n = j.crash n := by
  rw [crash, crash, write, List.take_append_of_le_length h]

theorem crash_crash (j : Journal ω σ) (m n : ℕ) : (j.crash m).crash n = j.crash (min n m) := by
  rw [crash, crash, crash, List.take_take]

variable {R : Journal ω σ → Prop}

theorem EveryPrefix.self (h : EveryPrefix R j) : R j :=
  crash_of_length_le (Nat.le_refl j.log.length) ▸ h j.log.length

theorem EveryPrefix.crash (h : EveryPrefix R j) (n : ℕ) : EveryPrefix R (j.crash n) := by
  intro m
  rw [crash_crash]
  exact h (min m n)

/-- A new write adds one prefix: the whole journal. -/
theorem EveryPrefix.write (h : EveryPrefix R j) {w : ω} {s : σ} (hw : R (j.write w s)) :
    EveryPrefix R (j.write w s) := by
  intro n
  rcases Nat.lt_or_ge j.log.length n with hlt | hle
  · have hlength : (j.write w s).log.length ≤ n := by
      rw [Journal.write, List.length_append]
      exact hlt
    rw [crash_of_length_le hlength]
    exact hw
  · rw [crash_write_of_le hle]
    exact h n

theorem everyPrefix_start {s : σ} (h : R ⟨s, []⟩) : EveryPrefix R ⟨s, []⟩ := fun _ ↦ by
  rw [Journal.crash, List.take_nil]
  exact h

theorem EveryPrefix.mono {S : Journal ω σ → Prop} (h : EveryPrefix R j) (hRS : ∀ i, R i → S i) :
    EveryPrefix S j := fun n ↦ hRS _ (h n)

end Journal
