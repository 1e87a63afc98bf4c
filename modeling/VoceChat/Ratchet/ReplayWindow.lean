import Mathlib.Data.Finset.Card
import Mathlib.Data.List.DropRight
import VoceChat.Ratchet.State

/-!
# The replay window (`voce-e2ee-core/src/envelope.rs`)

`ReplayWindow` remembers the keys it has accepted, up to its capacity. When it is full and another
key comes, it does not let go of the oldest key but of all of them.

`ReplayRun` keeps the accepted keys beside the window. What is in the window are the keys accepted
since it was cleared last, and how many these are follows from the number of keys accepted so far
(`sinceClear`, `ReplayRun.tracks_run`). Hence a key is protected exactly when it is not among those
that were accepted recently, but before the window was cleared (`protects_iff`).
-/

namespace VoceChat

structure ReplayWindow where
  seen : Finset String
  capacity : ℕ

namespace ReplayWindow

def new (capacity : ℕ) : ReplayWindow := ⟨∅, capacity⟩

/-- `check_and_record` on `&mut self`: the result and the window left behind. -/
def checkAndRecord (w : ReplayWindow) (key : String) : Except E2eError Unit × ReplayWindow :=
  if key ∈ w.seen then (.error (.replay 0), w)
  else if w.capacity ≤ w.seen.card then (.ok (), { w with seen := {key} })
  else (.ok (), { w with seen := insert key w.seen })

end ReplayWindow

/-- A window, and the keys it has accepted so far, the last one at the end. -/
structure ReplayRun where
  window : ReplayWindow
  accepted : List String

namespace ReplayRun

def start (capacity : ℕ) : ReplayRun := ⟨ReplayWindow.new capacity, []⟩

def check (r : ReplayRun) (key : String) : ReplayRun where
  window := (r.window.checkAndRecord key).2
  accepted := if (r.window.checkAndRecord key).1 = .ok () then r.accepted ++ [key] else r.accepted

/-- The state after these keys were checked. -/
def run (capacity : ℕ) (keys : List String) : ReplayRun := keys.foldl check (start capacity)

end ReplayRun

/-- How many of the accepted keys came after the window was cleared last, by the number of keys
accepted so far. -/
def sinceClear (capacity : ℕ) : ℕ → ℕ
  | 0 => 0
  | n + 1 => n % capacity + 1

/-- What is promised of checking `key` after the keys `before`. -/
structure Protects (capacity : ℕ) (before : List String) (key : String) : Prop where
  recent : key ∈ (ReplayRun.run capacity before).accepted.rtake capacity →
    ((ReplayRun.run capacity before).window.checkAndRecord key).1 = .error (.replay 0)
  fresh : key ∉ before → ((ReplayRun.run capacity before).window.checkAndRecord key).1 = .ok ()
  bounded : (ReplayRun.run capacity before).window.seen.card ≤ capacity

namespace ReplayRun

/-- The window holds the keys accepted since it was cleared. -/
structure Tracks (capacity : ℕ) (keys : List String) (r : ReplayRun) : Prop where
  capacity_eq : r.window.capacity = capacity
  nodup : (r.accepted.rtake (sinceClear capacity r.accepted.length)).Nodup
  seen_eq : r.window.seen = (r.accepted.rtake (sinceClear capacity r.accepted.length)).toFinset
  checked : ∀ key ∈ r.accepted, key ∈ keys

theorem sinceClear_le {capacity : ℕ} (h : 1 ≤ capacity) (n : ℕ) :
    sinceClear capacity n ≤ capacity ∧ sinceClear capacity n ≤ n := by
  cases n with
  | zero => exact ⟨Nat.zero_le _, Nat.le_refl _⟩
  | succ n =>
    have hlt := Nat.mod_lt n h
    have hle := Nat.mod_le n capacity
    rw [sinceClear]
    omega

/-- The next key either goes on filling the window, or is the first one after it was full. -/
theorem sinceClear_succ {capacity : ℕ} (h : 1 ≤ capacity) (n : ℕ) :
    sinceClear capacity (n + 1) =
      if capacity ≤ sinceClear capacity n then 1 else sinceClear capacity n + 1 := by
  cases n with
  | zero =>
    have hzero : ¬capacity ≤ sinceClear capacity 0 := Nat.not_le.2 h
    rw [if_neg hzero]
    show 0 % capacity + 1 = 0 + 1
    rw [Nat.zero_mod]
  | succ n =>
    have hlt := Nat.mod_lt n h
    rw [sinceClear, sinceClear]
    split
    · rename_i hfull
      have hmod : (n + 1) % capacity = 0 := by
        rw [Nat.add_mod, show n % capacity = capacity - 1 by omega]
        rcases Nat.eq_or_lt_of_le h with rfl | hone
        · rfl
        · rw [Nat.mod_eq_of_lt hone, Nat.sub_add_cancel h, Nat.mod_self]
      rw [hmod]
    · rename_i hroom
      rw [Nat.add_mod, Nat.mod_eq_of_lt (by omega : 1 < capacity), Nat.mod_eq_of_lt (by omega)]

variable {capacity : ℕ} {keys : List String} {r : ReplayRun} {key : String}

theorem Tracks.card (h : Tracks capacity keys r) (hcap : 1 ≤ capacity) :
    r.window.seen.card = sinceClear capacity r.accepted.length := by
  rw [h.seen_eq, List.toFinset_card_of_nodup h.nodup, List.rtake_eq_reverse_take_reverse,
    List.length_reverse, List.length_take, List.length_reverse]
  exact Nat.min_eq_left (sinceClear_le hcap _).2

theorem Tracks.mem_seen (h : Tracks capacity keys r) :
    key ∈ r.window.seen ↔ key ∈ r.accepted.rtake (sinceClear capacity r.accepted.length) := by
  rw [h.seen_eq, List.mem_toFinset]

/-- A key is recorded behind the ones that are still in the window, or alone. -/
theorem Tracks.check (h : Tracks capacity keys r) (hcap : 1 ≤ capacity) (key : String) :
    Tracks capacity (keys ++ [key]) (r.check key) := by
  have hchecked : ∀ k ∈ r.accepted, k ∈ keys ++ [key] :=
    fun k hk ↦ List.mem_append_left _ (h.checked k hk)
  have hcard := h.card hcap
  by_cases hmem : key ∈ r.window.seen
  · have hcheck : r.check key = r := by
      simp only [ReplayRun.check, ReplayWindow.checkAndRecord, if_pos hmem, reduceCtorEq, if_false]
    rw [hcheck]
    exact ⟨h.capacity_eq, h.nodup, h.seen_eq, hchecked⟩
  · have haccepted : (r.check key).accepted = r.accepted ++ [key] := by
      simp only [ReplayRun.check, ReplayWindow.checkAndRecord, if_neg hmem]
      split <;> rfl
    have hlength : (r.check key).accepted.length = r.accepted.length + 1 := by
      rw [haccepted, List.length_append, List.length_singleton]
    have hall : ∀ k ∈ (r.check key).accepted, k ∈ keys ++ [key] := by
      rw [haccepted]
      intro k hk
      rcases List.mem_append.1 hk with hk | hk
      · exact hchecked k hk
      · exact List.mem_append_right _ hk
    by_cases hfull : capacity ≤ sinceClear capacity r.accepted.length
    · have hwindow : (r.check key).window = ⟨{key}, capacity⟩ := by
        simp only [ReplayRun.check, ReplayWindow.checkAndRecord, if_neg hmem, hcard, h.capacity_eq,
          if_pos hfull]
      have hrtake : (r.check key).accepted.rtake
          (sinceClear capacity (r.check key).accepted.length) = [key] := by
        rw [hlength, sinceClear_succ hcap, if_pos hfull, haccepted, List.rtake_concat_succ,
          List.rtake_zero, List.nil_append]
      refine ⟨by rw [hwindow], ?_, ?_, hall⟩
      · rw [hrtake]
        exact List.nodup_singleton key
      · rw [hrtake, hwindow]
        rfl
    · have hwindow : (r.check key).window = ⟨insert key r.window.seen, capacity⟩ := by
        simp only [ReplayRun.check, ReplayWindow.checkAndRecord, if_neg hmem, hcard, h.capacity_eq,
          if_neg hfull]
      have hrtake : (r.check key).accepted.rtake
          (sinceClear capacity (r.check key).accepted.length) =
            r.accepted.rtake (sinceClear capacity r.accepted.length) ++ [key] := by
        rw [hlength, sinceClear_succ hcap, if_neg hfull, haccepted, List.rtake_concat_succ]
      refine ⟨by rw [hwindow], ?_, ?_, hall⟩
      · rw [hrtake]
        refine List.nodup_append.2 ⟨h.nodup, List.nodup_singleton key, fun k hk k' hk' heq ↦ ?_⟩
        rw [List.mem_singleton.1 hk'] at heq
        exact hmem (h.mem_seen.2 (heq ▸ hk))
      · rw [hrtake, hwindow, List.toFinset_append, ← h.seen_eq, Finset.union_comm]
        rfl

/-- **The window of every run** holds the keys accepted since it was cleared. -/
theorem tracks_run (hcap : 1 ≤ capacity) (keys : List String) :
    Tracks capacity keys (run capacity keys) := by
  induction keys using List.reverseRecOn with
  | nil => exact ⟨rfl, List.nodup_nil, rfl, fun _ hk ↦ absurd hk List.not_mem_nil⟩
  | append_singleton keys key ih =>
    rw [run, List.foldl_append]
    exact ih.check hcap key

end ReplayRun

open ReplayRun

/-- A key is rejected if it is in the window, and accepted otherwise. -/
theorem checkAndRecord_fst (w : ReplayWindow) (key : String) :
    (w.checkAndRecord key).1 = if key ∈ w.seen then .error (.replay 0) else .ok () := by
  rw [ReplayWindow.checkAndRecord]
  split
  · rfl
  · split <;> rfl

/-- **A check keeps its promise** exactly when the key is not one that was accepted recently, but
before the window was cleared. -/
theorem protects_iff {capacity : ℕ} (hcap : 1 ≤ capacity) (before : List String) (key : String) :
    Protects capacity before key ↔
      (key ∈ (run capacity before).accepted.rtake capacity →
        key ∈ (run capacity before).accepted.rtake
          (sinceClear capacity (run capacity before).accepted.length)) := by
  have htracks := tracks_run hcap before
  constructor
  · intro h hrecent
    have hrejected := h.recent hrecent
    rw [checkAndRecord_fst] at hrejected
    split at hrejected
    · rename_i hmem
      exact htracks.mem_seen.1 hmem
    · cases hrejected
  · intro h
    refine ⟨fun hrecent ↦ ?_, fun hfresh ↦ ?_, ?_⟩
    · rw [checkAndRecord_fst, if_pos (htracks.mem_seen.2 (h hrecent))]
    · have hnot : key ∉ (run capacity before).window.seen := fun hmem ↦
        hfresh (htracks.checked key (List.mem_of_mem_drop (htracks.mem_seen.1 hmem)))
      rw [checkAndRecord_fst, if_neg hnot]
    · rw [htracks.card hcap]
      exact (sinceClear_le hcap _).1

/-- The third key is in a window of two, which it was the first to enter again. -/
theorem protects_iff_two : Protects 2 ["a", "b", "c"] "c" :=
  (protects_iff (by decide) _ _).2 fun _ ↦ by decide

/-- The second of three keys is one of the last two accepted, and is accepted again. -/
theorem not_protects_two : ¬Protects 2 ["a", "b", "c"] "b" := fun h ↦
  absurd (h.recent (by decide)) (by decide)

end VoceChat
