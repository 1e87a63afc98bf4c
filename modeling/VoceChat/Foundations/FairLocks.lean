import Mathlib.Data.List.Nodup
import Mathlib.Data.Set.Defs
import Mathlib.Logic.Function.Basic

/-!
# Tasks and fair locks

Tasks take locks and give them back in the order of their scripts. A lock is held by one writer or
by any number of readers, and handed on in the order in which it was asked for: who asks for a lock
that somebody waits for waits too, even a reader that asks for what readers hold, or what it holds
itself.

A deadlock is a set of tasks each of which waits for another one in it, which holds the lock or is
before it in the queue. A task waits for one lock only, so in a deadlock some task that waits for a
lock waits for one that holds it (`exists_owner`).

`run_rule` is the induction rule: what is kept when a lock is given to a task, when a task is
queued, and when a lock is given back, is kept by all steps. Beside it, what every state has
(`Sound`), and that nobody waits in front for what could be given (`Blocked`).
-/

namespace FairLocks

inductive Mode where
  | read
  | write
  deriving DecidableEq

/-- A step of a script. -/
inductive Op (ℓ : Type) where
  | acquire (lock : ℓ) (mode : Mode)
  | release (lock : ℓ)
  deriving DecidableEq

def Op.lock {ℓ : Type} : Op ℓ → ℓ
  | .acquire l _ => l
  | .release l => l

/-- Who holds a lock, and who waits for it, each with the mode. -/
structure Lock where
  holders : List (ℕ × Mode)
  queue : List (ℕ × Mode)

/-- The lock can be given to one more. -/
def Lock.Grants (lock : Lock) : Mode → Prop
  | .read => ∀ e ∈ lock.holders, e.2 = .read
  | .write => lock.holders = []

instance (lock : Lock) : DecidablePred lock.Grants
  | .read => inferInstanceAs (Decidable (∀ e ∈ lock.holders, e.2 = .read))
  | .write => inferInstanceAs (Decidable (lock.holders = []))

/-- The tasks that hold the lock. -/
def Lock.owners (lock : Lock) : List ℕ := lock.holders.map Prod.fst

/-- The tasks that wait for it. -/
def Lock.waiting (lock : Lock) : List ℕ := lock.queue.map Prod.fst

/-- The locks, and what each task has still to do. -/
structure State (ℓ : Type) where
  locks : ℓ → Lock
  rest : ℕ → List (Op ℓ)

namespace State

variable {ℓ : Type}

/-- No lock is held. -/
def start (scripts : ℕ → List (Op ℓ)) : State ℓ := ⟨fun _ ↦ ⟨[], []⟩, scripts⟩

variable [DecidableEq ℓ]

/-- A task gets the lock, and goes on. -/
def grant (s : State ℓ) (l : ℓ) (e : ℕ × Mode) (queue : List (ℕ × Mode)) : State ℓ where
  locks := Function.update s.locks l ⟨(s.locks l).holders ++ [e], queue⟩
  rest := Function.update s.rest e.1 (s.rest e.1).tail

/-- A task has to wait. -/
def enqueue (s : State ℓ) (l : ℓ) (e : ℕ × Mode) : State ℓ :=
  ⟨Function.update s.locks l ⟨(s.locks l).holders, (s.locks l).queue ++ [e]⟩, s.rest⟩

/-- A task gives the lock back, and goes on. -/
def giveBack (s : State ℓ) (l : ℓ) (u : ℕ) : State ℓ where
  locks := Function.update s.locks l
    ⟨(s.locks l).holders.eraseP fun e ↦ e.1 = u, (s.locks l).queue⟩
  rest := Function.update s.rest u (s.rest u).tail

/-- The lock is given to those in front of the queue, as long as it can be. -/
def handOn : ℕ → State ℓ → ℓ → State ℓ
  | 0, s, _ => s
  | n + 1, s, l =>
    match (s.locks l).queue with
    | [] => s
    | e :: queue => if (s.locks l).Grants e.2 then handOn n (s.grant l e queue) l else s

/-- A task does what is next in its script, unless it waits. -/
def run (s : State ℓ) (u : ℕ) : State ℓ :=
  match s.rest u with
  | [] => s
  | .acquire l m :: _ =>
    if u ∈ (s.locks l).waiting then s
    else if (s.locks l).queue = [] ∧ (s.locks l).Grants m then s.grant l (u, m) []
    else s.enqueue l (u, m)
  | .release l :: _ => (s.giveBack l u).handOn (s.locks l).queue.length l

/-- One task waits for another one, which has the lock or was earlier. -/
def Waits (s : State ℓ) (t u : ℕ) : Prop :=
  ∃ l front m back, (s.locks l).queue = front ++ (t, m) :: back ∧
    (u ∈ (s.locks l).owners ∨ u ∈ front.map Prod.fst)

/-- All of these tasks wait for others of them. -/
def Deadlocked (s : State ℓ) (tasks : Set ℕ) : Prop :=
  (∃ t, t ∈ tasks) ∧ ∀ t ∈ tasks, ∃ u ∈ tasks, u ≠ t ∧ s.Waits t u

variable {s : State ℓ} {l l' k : ℓ} {e : ℕ × Mode} {queue : List (ℕ × Mode)} {u v : ℕ} {m : Mode}
  {ops : List (Op ℓ)}

@[simp] theorem locks_grant_self :
    (s.grant l e queue).locks l = ⟨(s.locks l).holders ++ [e], queue⟩ :=
  Function.update_self _ _ _

theorem owners_grant_self :
    ((s.grant l e queue).locks l).owners = (s.locks l).owners ++ [e.1] := by
  rw [locks_grant_self, Lock.owners, List.map_append]
  rfl

@[simp] theorem locks_grant_of_ne (h : k ≠ l) : (s.grant l e queue).locks k = s.locks k :=
  Function.update_of_ne h _ _

@[simp] theorem rest_grant_self : (s.grant l e queue).rest e.1 = (s.rest e.1).tail :=
  Function.update_self _ _ _

@[simp] theorem rest_grant_of_ne (h : v ≠ e.1) : (s.grant l e queue).rest v = s.rest v :=
  Function.update_of_ne h _ _

@[simp] theorem locks_enqueue_self :
    (s.enqueue l e).locks l = ⟨(s.locks l).holders, (s.locks l).queue ++ [e]⟩ :=
  Function.update_self _ _ _

@[simp] theorem locks_enqueue_of_ne (h : k ≠ l) : (s.enqueue l e).locks k = s.locks k :=
  Function.update_of_ne h _ _

@[simp] theorem rest_enqueue : (s.enqueue l e).rest = s.rest := rfl

@[simp] theorem locks_giveBack_self : (s.giveBack l u).locks l =
    ⟨(s.locks l).holders.eraseP fun e ↦ e.1 = u, (s.locks l).queue⟩ :=
  Function.update_self _ _ _

theorem owners_giveBack_self :
    ((s.giveBack l u).locks l).owners = (s.locks l).owners.erase u := by
  rw [locks_giveBack_self, Lock.owners, Lock.owners, List.erase_eq_eraseP', List.eraseP_map]
  congr 2

@[simp] theorem locks_giveBack_of_ne (h : k ≠ l) : (s.giveBack l u).locks k = s.locks k :=
  Function.update_of_ne h _ _

@[simp] theorem rest_giveBack_self : (s.giveBack l u).rest u = (s.rest u).tail :=
  Function.update_self _ _ _

@[simp] theorem rest_giveBack_of_ne (h : v ≠ u) : (s.giveBack l u).rest v = s.rest v :=
  Function.update_of_ne h _ _

theorem queue_giveBack : ((s.giveBack l u).locks k).queue = (s.locks k).queue := by
  by_cases hk : k = l
  · rw [hk, locks_giveBack_self]
  · rw [locks_giveBack_of_ne hk]

theorem holders_enqueue : ((s.enqueue l e).locks k).holders = (s.locks k).holders := by
  by_cases hk : k = l
  · rw [hk, locks_enqueue_self]
  · rw [locks_enqueue_of_ne hk]

/-! ### What every state has -/

/-- Who waits has asked for it, and is in one queue once; a writer is alone. -/
structure Sound (s : State ℓ) : Prop where
  asked : ∀ l, ∀ e ∈ (s.locks l).queue, ∃ ops, s.rest e.1 = .acquire l e.2 :: ops
  nodup : ∀ l, (s.locks l).waiting.Nodup
  exclusive : ∀ l u, (u, .write) ∈ (s.locks l).holders → (s.locks l).holders = [(u, .write)]

/-- To whom a lock can be given next: to the first of the queue, or to who asks while there is none.
-/
def Next (s : State ℓ) (l : ℓ) (e : ℕ × Mode) (queue : List (ℕ × Mode)) : Prop :=
  (s.locks l).queue = e :: queue ∨ (s.locks l).queue = [] ∧ queue = []

omit [DecidableEq ℓ] in
theorem sound_start (scripts : ℕ → List (Op ℓ)) : (start scripts).Sound where
  asked _ _ he := absurd he List.not_mem_nil
  nodup _ := List.nodup_nil
  exclusive _ _ hmem := absurd hmem List.not_mem_nil

omit [DecidableEq ℓ] in
/-- Who waits for one lock has not come to anything else. -/
theorem Sound.ne_of_rest (hs : s.Sound) (he : e ∈ (s.locks l).queue) {op : Op ℓ}
    (hrest : s.rest u = op :: ops) (hop : ∀ m, op ≠ .acquire l m) : e.1 ≠ u := by
  rintro rfl
  obtain ⟨ops', hops'⟩ := hs.asked l e he
  exact hop e.2 (List.cons.inj (hrest.symm.trans hops')).1

omit [DecidableEq ℓ] in
/-- Those who wait for the lock after it is given are others, and waited before. -/
theorem Sound.mem_of_next (hs : s.Sound) (hnext : s.Next l e queue) {e' : ℕ × Mode}
    (he' : e' ∈ queue) : e' ∈ (s.locks l).queue ∧ e'.1 ≠ e.1 := by
  rcases hnext with hqueue | ⟨-, rfl⟩
  · have hnodup := hs.nodup l
    rw [Lock.waiting, hqueue, List.map_cons, List.nodup_cons] at hnodup
    refine ⟨hqueue ▸ List.mem_cons_of_mem e he', fun heq ↦ hnodup.1 ?_⟩
    exact heq ▸ List.mem_map_of_mem he'
  · exact absurd he' List.not_mem_nil

/-- Those who wait after a lock is given have not moved. -/
theorem Sound.mem_queue_grant (hs : s.Sound) (hnext : s.Next l e queue)
    (hrest : s.rest e.1 = .acquire l e.2 :: ops) {e' : ℕ × Mode}
    (he' : e' ∈ ((s.grant l e queue).locks k).queue) : e' ∈ (s.locks k).queue ∧ e'.1 ≠ e.1 := by
  by_cases hk : k = l
  · obtain rfl := hk
    rw [locks_grant_self] at he'
    exact hs.mem_of_next hnext he'
  · rw [locks_grant_of_ne hk] at he'
    refine ⟨he', hs.ne_of_rest he' hrest fun m heq ↦ hk ?_⟩
    exact (Op.acquire.inj heq).1.symm

theorem Sound.mem_queue_giveBack (hs : s.Sound) (hrest : s.rest u = .release l :: ops)
    {e' : ℕ × Mode} (he' : e' ∈ ((s.giveBack l u).locks k).queue) :
    e' ∈ (s.locks k).queue ∧ e'.1 ≠ u := by
  rw [queue_giveBack] at he'
  exact ⟨he', hs.ne_of_rest he' hrest fun m heq ↦ by cases heq⟩

theorem Sound.grant (hs : s.Sound) (hnext : s.Next l e queue) (hgrants : (s.locks l).Grants e.2)
    (hrest : s.rest e.1 = .acquire l e.2 :: ops) : (s.grant l e queue).Sound where
  asked k e' he' := by
    obtain ⟨hold, hne⟩ := hs.mem_queue_grant hnext hrest he'
    rw [rest_grant_of_ne hne]
    exact hs.asked k e' hold
  nodup k := by
    by_cases hk : k = l
    · obtain rfl := hk
      rw [locks_grant_self]
      rcases hnext with hqueue | ⟨-, rfl⟩
      · have hnodup := hs.nodup k
        rw [Lock.waiting, hqueue] at hnodup
        exact (List.nodup_cons.1 hnodup).2
      · exact List.nodup_nil
    · rw [locks_grant_of_ne hk]
      exact hs.nodup k
  exclusive k u hu := by
    by_cases hk : k = l
    · obtain rfl := hk
      rw [locks_grant_self] at hu ⊢
      rcases List.mem_append.1 hu with hold | hnew
      · -- a writer has the lock, so that it can be given to nobody
        obtain ⟨w, m⟩ := e
        cases m with
        | read => cases hgrants _ hold
        | write => cases (hs.exclusive k u hold).symm.trans hgrants
      · obtain rfl := List.mem_singleton.1 hnew
        have hnil : (s.locks k).holders = [] := hgrants
        exact congrArg (· ++ [(u, Mode.write)]) hnil
    · rw [locks_grant_of_ne hk] at hu ⊢
      exact hs.exclusive k u hu

theorem Sound.enqueue (hs : s.Sound) (hnew : e.1 ∉ (s.locks l).waiting)
    (hrest : s.rest e.1 = .acquire l e.2 :: ops) : (s.enqueue l e).Sound where
  asked k e' he' := by
    by_cases hk : k = l
    · obtain rfl := hk
      rw [locks_enqueue_self] at he'
      rcases List.mem_append.1 he' with hold | hnew
      · exact hs.asked k e' hold
      · obtain rfl := List.mem_singleton.1 hnew
        exact ⟨ops, hrest⟩
    · rw [locks_enqueue_of_ne hk] at he'
      exact hs.asked k e' he'
  nodup k := by
    by_cases hk : k = l
    · obtain rfl := hk
      rw [locks_enqueue_self, Lock.waiting, List.map_append]
      refine List.nodup_append.2 ⟨hs.nodup k, List.nodup_singleton _, fun u hu v hv heq ↦ hnew ?_⟩
      rwa [← List.mem_singleton.1 hv, ← heq]
    · rw [locks_enqueue_of_ne hk]
      exact hs.nodup k
  exclusive k u hu := by
    rw [holders_enqueue] at hu ⊢
    exact hs.exclusive k u hu

theorem Sound.giveBack (hs : s.Sound) (hrest : s.rest u = .release l :: ops) :
    (s.giveBack l u).Sound where
  asked k e he := by
    obtain ⟨hold, hne⟩ := hs.mem_queue_giveBack hrest he
    rw [rest_giveBack_of_ne hne]
    exact hs.asked k e hold
  nodup k := by
    rw [Lock.waiting, queue_giveBack]
    exact hs.nodup k
  exclusive k v hv := by
    by_cases hk : k = l
    · obtain rfl := hk
      rw [locks_giveBack_self] at hv ⊢
      have hholders := hs.exclusive k v (List.mem_of_mem_eraseP hv)
      have hsub : ((s.locks k).holders.eraseP fun e ↦ e.1 = u).Sublist [(v, Mode.write)] :=
        hholders ▸ List.eraseP_sublist
      exact hsub.eq_of_length_le (List.length_pos_of_mem hv)
    · rw [locks_giveBack_of_ne hk] at hv ⊢
      exact hs.exclusive k v hv

/-! ### The induction rule -/

/-- What each way a lock changes hands keeps. -/
structure Keeps (P : State ℓ → Prop) : Prop where
  grant : ∀ {s l e queue ops}, s.Sound → P s → s.Next l e queue → (s.locks l).Grants e.2 →
    s.rest e.1 = .acquire l e.2 :: ops → P (s.grant l e queue)
  giveBack : ∀ {s l u ops}, s.Sound → P s → s.rest u = .release l :: ops → P (s.giveBack l u)

theorem Keeps.handOn {P : State ℓ → Prop} (hP : Keeps P) (n : ℕ) {s : State ℓ} (hs : s.Sound)
    (h : P s) (l : ℓ) : (s.handOn n l).Sound ∧ P (s.handOn n l) := by
  induction n generalizing s with
  | zero => exact ⟨hs, h⟩
  | succ n ih =>
    rw [State.handOn]
    split
    · exact ⟨hs, h⟩
    · rename_i e queue hqueue
      split
      · rename_i hgrants
        obtain ⟨ops, hops⟩ := hs.asked l e (hqueue ▸ List.mem_cons_self)
        exact ih (hs.grant (.inl hqueue) hgrants hops)
          (hP.grant hs h (.inl hqueue) hgrants hops)
      · exact ⟨hs, h⟩

/-- What is kept whenever a lock changes hands, and when this task has to wait, is kept when the
task runs. -/
theorem run_rule {P : State ℓ → Prop} (hP : Keeps P) (hs : s.Sound) (h : P s)
    (henqueue : ∀ {l m ops}, s.rest u = .acquire l m :: ops → u ∉ (s.locks l).waiting →
      ¬((s.locks l).queue = [] ∧ (s.locks l).Grants m) → P (s.enqueue l (u, m))) :
    (s.run u).Sound ∧ P (s.run u) := by
  rw [run]
  split
  · exact ⟨hs, h⟩
  · rename_i l m ops hops
    split
    · exact ⟨hs, h⟩
    · rename_i hnew
      split
      · rename_i hfree
        have hnext : s.Next l (u, m) [] := .inr ⟨hfree.1, rfl⟩
        exact ⟨hs.grant hnext hfree.2 hops, hP.grant hs h hnext hfree.2 hops⟩
      · rename_i hwait
        exact ⟨hs.enqueue hnew hops, henqueue hops hnew hwait⟩
  · rename_i l ops hops
    exact hP.handOn _ (hs.giveBack hops) (hP.giveBack hs h hops) l

/-! ### Who is first in a queue -/

/-- A lock that somebody waits for cannot be given to the first in the queue. -/
def Blocked (s : State ℓ) : Prop :=
  ∀ l e queue, (s.locks l).queue = e :: queue → ¬(s.locks l).Grants e.2

omit [DecidableEq ℓ] in
theorem blocked_start (scripts : ℕ → List (Op ℓ)) : (start scripts).Blocked :=
  fun _ _ _ hqueue ↦ absurd hqueue.symm (List.cons_ne_nil _ _)

theorem locks_handOn_of_ne (n : ℕ) (h : k ≠ l) : (s.handOn n l).locks k = s.locks k := by
  induction n generalizing s with
  | zero => rfl
  | succ n ih =>
    rw [handOn]
    split
    · rfl
    · split
      · rw [ih, locks_grant_of_ne h]
      · rfl

theorem blocked_handOn {n : ℕ} (hn : (s.locks l).queue.length ≤ n)
    (hother : ∀ k, k ≠ l → ∀ e queue, (s.locks k).queue = e :: queue → ¬(s.locks k).Grants e.2) :
    (s.handOn n l).Blocked := by
  induction n generalizing s with
  | zero =>
    intro k e queue hqueue
    by_cases hk : k = l
    · rw [handOn, hk, List.length_eq_zero_iff.1 (Nat.le_zero.1 hn)] at hqueue
      cases hqueue
    · exact hother k hk e queue hqueue
  | succ n ih =>
    rw [handOn]
    split
    · rename_i hnil
      intro k e queue hqueue
      by_cases hk : k = l
      · rw [hk, hnil] at hqueue
        cases hqueue
      · exact hother k hk e queue hqueue
    · rename_i e queue hqueue
      split
      · refine ih ?_ fun k hk ↦ ?_
        · rw [hqueue, List.length_cons] at hn
          rw [locks_grant_self]
          exact Nat.le_of_succ_le_succ hn
        · rw [locks_grant_of_ne hk]
          exact hother k hk
      · rename_i hnot
        intro k e' queue' hqueue'
        by_cases hk : k = l
        · rw [hk] at hqueue' ⊢
          rw [(List.cons.inj (hqueue.symm.trans hqueue')).1.symm]
          exact hnot
        · exact hother k hk e' queue' hqueue'

theorem Blocked.run (h : s.Blocked) (u : ℕ) : (s.run u).Blocked := by
  rw [State.run]
  split
  · exact h
  · rename_i l m ops hops
    split
    · exact h
    · split
      · rename_i hfree
        intro k e queue hqueue
        by_cases hk : k = l
        · rw [hk, locks_grant_self] at hqueue
          cases hqueue
        · rw [locks_grant_of_ne hk] at hqueue ⊢
          exact h k e queue hqueue
      · rename_i hwait
        intro k e queue hqueue
        by_cases hk : k = l
        · rw [hk, locks_enqueue_self] at hqueue ⊢
          cases hold : (s.locks l).queue with
          | nil =>
            rw [hold, List.nil_append] at hqueue
            obtain ⟨rfl, -⟩ := List.cons.inj hqueue
            exact fun hgrants ↦ hwait ⟨hold, hgrants⟩
          | cons e' queue' =>
            rw [hold, List.cons_append] at hqueue
            obtain ⟨rfl, -⟩ := List.cons.inj hqueue
            exact h l _ queue' hold
        · rw [locks_enqueue_of_ne hk] at hqueue ⊢
          exact h k e queue hqueue
  · rename_i l ops hops
    refine blocked_handOn ?_ fun k hk e queue hqueue ↦ ?_
    · exact Nat.le_of_eq (congrArg List.length queue_giveBack)
    · rw [locks_giveBack_of_ne hk] at hqueue ⊢
      exact h k e queue hqueue

/-! ### Deadlocks -/

omit [DecidableEq ℓ] in
/-- The first of some tasks in a queue. -/
theorem exists_first {tasks : Set ℕ} {queue : List (ℕ × Mode)} {e : ℕ × Mode} (he : e ∈ queue)
    (htask : e.1 ∈ tasks) : ∃ front f back, queue = front ++ f :: back ∧ f.1 ∈ tasks ∧
      ∀ g ∈ front, g.1 ∉ tasks := by
  induction queue with
  | nil => exact absurd he List.not_mem_nil
  | cons f queue ih =>
    by_cases hf : f.1 ∈ tasks
    · exact ⟨[], f, queue, rfl, hf, fun g hg ↦ absurd hg List.not_mem_nil⟩
    · have hmem : e ∈ queue :=
        (List.mem_cons.1 he).resolve_left fun heq ↦ hf (heq ▸ htask)
      obtain ⟨front, g, back, rfl, hg, hfront⟩ := ih hmem
      exact ⟨f :: front, g, back, rfl, hg, List.forall_mem_cons.2 ⟨hf, hfront⟩⟩

omit [DecidableEq ℓ] in
theorem Sound.not_mem_split (hs : s.Sound) {front back : List (ℕ × Mode)}
    (hqueue : (s.locks l).queue = front ++ e :: back) : e ∉ front ∧ e ∉ back := by
  have hnodup := (hs.nodup l).of_map
  rw [hqueue, List.nodup_middle, List.nodup_cons, List.mem_append] at hnodup
  exact not_or.1 hnodup.1

omit [DecidableEq ℓ] in
/-- **Among the tasks of a deadlock that wait for a lock, one waits for a task of it that has the
lock**, and that waits for another lock in turn. -/
theorem Deadlocked.exists_owner {tasks : Set ℕ} (hs : s.Sound) (h : s.Deadlocked tasks)
    (he : e ∈ (s.locks l).queue) (htask : e.1 ∈ tasks) :
    ∃ v ∈ tasks, ∃ m k m', (v, m) ∈ (s.locks l).holders ∧ (v, m') ∈ (s.locks k).queue := by
  obtain ⟨front, f, back, hqueue, hf, hfront⟩ := exists_first he htask
  obtain ⟨v, hv, -, k, front', m', back', hqueue', hwaits⟩ := h.2 f.1 hf
  obtain ⟨w, -, -, k', front'', m'', back'', hqueue'', -⟩ := h.2 v hv
  have hmem : f ∈ (s.locks l).queue := hqueue ▸ by simp
  have hmem' : (f.1, m') ∈ (s.locks k).queue := hqueue' ▸ by simp
  obtain ⟨ops, hops⟩ := hs.asked l f hmem
  obtain ⟨ops', hops'⟩ := hs.asked k (f.1, m') hmem'
  -- it waits for one lock only, and has one place in the queue
  obtain ⟨rfl, rfl⟩ := Op.acquire.inj (List.cons.inj (hops.symm.trans hops')).1
  have hfront' : front = front' := by
    have hsplit : front ++ f :: back = front' ++ f :: back' := hqueue.symm.trans hqueue'
    obtain ⟨hbefore, hafter⟩ := hs.not_mem_split hqueue
    exact ((List.append_cons_inj_of_notMem hbefore hafter).1 hsplit).1
  obtain hown | hbefore := hwaits
  · obtain ⟨g, hg, rfl⟩ := List.mem_map.1 hown
    exact ⟨g.1, hv, g.2, k', m'', hg, hqueue'' ▸ by simp⟩
  · obtain ⟨g, hg, rfl⟩ := List.mem_map.1 (hfront' ▸ hbefore)
    exact absurd hv (hfront g hg)

end State

end FairLocks
