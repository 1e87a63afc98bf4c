import VoceChat.Directory.System
import VoceChat.Foundations.Holders

/-!
# Who gets a one-time prekey

Two requests hand out the oldest unconsumed one-time prekey of a device. Both select it with one
statement and mark it with another, outside of a transaction, so that everything else may happen in
between. `PrekeySystem` runs these statements against each other and against the uploads of devices.

* `get_bundle` marks the row it has selected, whatever has become of it.
* `wrap_content_key_for_device` wraps a content key for the prekey first and then claims the row:
  its update asks for an unconsumed row, and it tries again when there is none.

What is handed out to a caller is the row that its task ends with (`PrekeyTask.prekey`).

## Main results

* `handedOut_of_run` — no prekey is handed out twice, provided that `get_bundle` finds the rows it
  marks unconsumed; and none is consumed that is not handed out, so a wrap that fails consumes none.
* `not_handedOut_twoBundles` — two requests that select before either of them marks.
* `takePrekey_of_steps` — `get_bundle` by itself is `KeyTables.takePrekey`.
-/

namespace VoceChat

open Guards

/-- Whether `update … where id = ? and consumed = false` finds its row. -/
def PrekeyTable.unconsumed (t : PrekeyTable) (id : ℕ) : Bool :=
  (t.rows.get id).any fun row ↦ !row.consumed

/-- `get_bundle` and `wrap_content_key_for_device`, by what they hold. -/
inductive PrekeyTask where
  /-- `get_bundle`, when it has read the identity. -/
  | bundling (k : DeviceKey) (keys : PublishedKeys)
  | marking (k : DeviceKey) (keys : PublishedKeys) (id : ℕ) (prekey : PrekeyRow)
  | bundled (bundle : E2ePrekeyBundle) (id : Option ℕ)
  /-- `wrap_content_key_for_device`, with so many tries left. -/
  | wrapping (device : DeviceKey) (retries : ℕ)
  | claiming (device : DeviceKey) (retries id : ℕ)
  /-- There is an envelope, for this prekey. -/
  | wrapped (id : Option ℕ)
  | failed
  deriving DecidableEq

/-- The prekey that is handed out with the result of a task. -/
def PrekeyTask.prekey : PrekeyTask → Option ℕ
  | .bundled _ id | .wrapped id => id
  | .bundling .. | .marking .. | .wrapping .. | .claiming .. | .failed => none

/-- The row that a task is going to mark is there, and not consumed. -/
def PrekeyTask.FindsUnconsumed (prekeys : PrekeyTable) : PrekeyTask → Prop
  | .marking _ _ id _ => prekeys.unconsumed id = true
  | .bundling .. | .bundled .. | .wrapping .. | .claiming .. | .wrapped _ | .failed => True

instance (prekeys : PrekeyTable) : ∀ task : PrekeyTask, Decidable (task.FindsUnconsumed prekeys)
  | .marking _ _ id _ => inferInstanceAs (Decidable (prekeys.unconsumed id = true))
  | .bundling .. | .bundled .. | .wrapping .. | .claiming .. | .wrapped _ | .failed =>
    .isTrue trivial

structure PrekeySystem where
  db : KeyTables
  tasks : List PrekeyTask

inductive PrekeyAction where
  | putPrekeys (token : Token) (req : PutE2ePrekeysRequest)
  /-- `get_bundle` up to the identity. -/
  | getBundle (uid : Int64) (deviceId : Option String)
  | selectPrekey (i : ℕ)
  | markConsumed (i : ℕ)
  | wrapContentKey (device : DeviceKey)
  /-- Select a prekey and wrap for it, or not. -/
  | peekAndWrap (i : ℕ) (wraps : Bool)
  | tryConsume (i : ℕ)

namespace PrekeySystem

def maxClaimRetries : ℕ := 8

/-- Nothing is asked for yet. -/
def init (db : KeyTables) : PrekeySystem := ⟨db, []⟩

def start (s : PrekeySystem) (task : PrekeyTask) : PrekeySystem :=
  { s with tasks := s.tasks ++ [task] }

def setTask (s : PrekeySystem) (i : ℕ) (task : PrekeyTask) : PrekeySystem :=
  { s with tasks := s.tasks.set i task }

/-- The row is marked, and task `i` ends with it. -/
def take (s : PrekeySystem) (i id : ℕ) (task : PrekeyTask) : PrekeySystem :=
  { s.setTask i task with db := { s.db with prekeys := s.db.prekeys.consume id } }

def step (ver : ℤ) (s : PrekeySystem) : PrekeyAction → Option PrekeySystem
  | .putPrekeys token req =>
    match s.db.putPrekeys token req with
    | .ok db => some { s with db }
    | .error _ => some s
  | .getBundle uid deviceId =>
    match s.db.bundleIdentity uid deviceId with
    | none => some s
    | some (k, row) =>
      if 2 ≤ ver → row.keys.HasSignedPrekey then some (s.start (.bundling k row.keys)) else some s
  | .selectPrekey i =>
    match s.tasks[i]? with
    | some (.bundling k keys) =>
      match s.db.prekeys.peek k with
      | none => some (s.setTask i (.bundled ⟨k.1, k.2, keys, none⟩ none))
      | some (id, prekey) => some (s.setTask i (.marking k keys id prekey))
    | _ => none
  | .markConsumed i =>
    match s.tasks[i]? with
    | some (.marking k keys id prekey) =>
      some (s.take i id (.bundled ⟨k.1, k.2, keys, some (prekey.keyId, prekey.publicKey)⟩
        (some id)))
    | _ => none
  | .wrapContentKey device => some (s.start (.wrapping device maxClaimRetries))
  | .peekAndWrap i wraps =>
    match s.tasks[i]? with
    | some (.wrapping device retries) =>
      if wraps then
        match retries, s.db.prekeys.peek device with
        | n + 1, some (id, _) => some (s.setTask i (.claiming device n id))
        -- there is no prekey, or too many were lost to others
        | _, _ => some (s.setTask i (.wrapped none))
      else some (s.setTask i .failed)
    | _ => none
  | .tryConsume i =>
    match s.tasks[i]? with
    | some (.claiming device retries id) =>
      if s.db.prekeys.unconsumed id then some (s.take i id (.wrapped (some id)))
      else some (s.setTask i (.wrapping device retries))
    | _ => none

end PrekeySystem

/-! ### Uploads -/

namespace PrekeyTable

variable {t t' : PrekeyTable}

/-- The rows of `t'` are rows of `t`, or new ones that are not consumed. -/
structure Renews (t t' : PrekeyTable) : Prop where
  next : t.nextId ≤ t'.nextId
  rows : ∀ id row, t'.rows.get id = some row →
    t.rows.get id = some row ∨ t.nextId ≤ id ∧ row.consumed = false

theorem renews_append (t : PrekeyTable) (owner : DeviceKey) (keyId : ℤ) (publicKey : String) :
    t.Renews (t.append ⟨owner, keyId, publicKey, false⟩) where
  next := Nat.le_succ _
  rows := Table.forall_get_put (fun _ _ h ↦ .inl h) (.inr ⟨Nat.le_refl _, rfl⟩)

theorem Renews.trans {t'' : PrekeyTable} (h : t.Renews t') (h' : t'.Renews t'') : t.Renews t'' where
  next := h.next.trans h'.next
  rows id row hrow := by
    rcases h'.rows id row hrow with hold | ⟨hle, hnew⟩
    · exact h.rows id row hold
    · exact .inr ⟨h.next.trans hle, hnew⟩

theorem renews_delete (t : PrekeyTable) (p : PrekeyRow → Bool) : t.Renews (t.delete p) where
  next := Nat.le_refl _
  rows _ _ h := .inl (Table.get_filter.1 h).1

theorem renews_insertAll {owner : DeviceKey} {keys : List (ℤ × String)}
    (h : insertAll owner keys t = some t') : t.Renews t' := by
  induction keys generalizing t with
  | nil =>
    obtain rfl := Option.some_inj.1 h
    exact ⟨Nat.le_refl _, fun _ _ h ↦ .inl h⟩
  | cons key keys ih =>
    rw [insertAll] at h
    split at h
    · cases h
    · exact (t.renews_append owner key.1 key.2).trans (ih h)

theorem unconsumed_iff {id : ℕ} :
    t.unconsumed id = true ↔ ∃ row, t.rows.get id = some row ∧ row.consumed = false := by
  rw [unconsumed]
  cases t.rows.get id with
  | none => exact iff_of_false (fun h ↦ by cases h) fun ⟨_, h, _⟩ ↦ by cases h
  | some row =>
    show (!row.consumed) = true ↔ _
    rw [Bool.not_eq_true']
    exact ⟨fun h ↦ ⟨row, rfl, h⟩, fun ⟨_, hrow, h⟩ ↦ Option.some_inj.1 hrow ▸ h⟩

/-- The rows when one is consumed. -/
theorem get_consume {id l : ℕ} {row : PrekeyRow} (h : (t.consume id).rows.get l = some row) :
    ∃ row', t.rows.get l = some row' ∧
      row.consumed = if l = id then true else row'.consumed := by
  have hget := h
  rw [consume, modify, Table.get_modify] at hget
  by_cases hl : l = id
  · rw [if_pos hl, Option.map_eq_some_iff] at hget
    obtain ⟨row', hrow', rfl⟩ := hget
    exact ⟨row', hrow', (if_pos hl).symm⟩
  · rw [if_neg hl] at hget
    exact ⟨row, hget, (if_neg hl).symm⟩

end PrekeyTable

theorem KeyTables.putPrekeys_renews {db db' : KeyTables} {token : Token}
    {req : PutE2ePrekeysRequest} (h : db.putPrekeys token req = .ok db') :
    db.prekeys.Renews db'.prekeys := by
  simp only [putPrekeys, validateAuthenticatedDevice, bind_eq_ok, mapError_eq_ok, ensure_eq_ok,
    exists_unit] at h
  obtain ⟨-, -, h⟩ := h
  split at h
  · rename_i prekeys hinsert
    obtain rfl := Except.ok.inj h
    exact (db.prekeys.renews_delete _).trans (PrekeyTable.renews_insertAll hinsert)
  · cases h

/-! ### What a step does -/

namespace PrekeySystem

variable {ver : ℤ} {s t : PrekeySystem} {a : PrekeyAction}

inductive Did (s : PrekeySystem) (a : PrekeyAction) (t : PrekeySystem) : Prop where
  | nothing (h : t = s)
  | uploaded (db : KeyTables) (hrenews : s.db.prekeys.Renews db.prekeys) (h : t = { s with db })
  | started (task : PrekeyTask) (hnone : task.prekey = none) (h : t = s.start task)
  | moved (i : ℕ) (task task' : PrekeyTask) (htask : s.tasks[i]? = some task)
      (hnone : task.prekey = none) (hnone' : task'.prekey = none) (h : t = s.setTask i task')
  | marked (i id : ℕ) (k : DeviceKey) (keys : PublishedKeys) (prekey : PrekeyRow)
      (task' : PrekeyTask) (ha : a = .markConsumed i)
      (htask : s.tasks[i]? = some (.marking k keys id prekey)) (hprekey : task'.prekey = some id)
      (h : t = s.take i id task')
  | claimed (i id : ℕ) (task task' : PrekeyTask) (htask : s.tasks[i]? = some task)
      (hnone : task.prekey = none) (hprekey : task'.prekey = some id)
      (hunconsumed : s.db.prekeys.unconsumed id = true) (h : t = s.take i id task')

/-- **The cases of a step.** -/
theorem did (h : s.step ver a = some t) : Did s a t := by
  cases a with
  | putPrekeys token req =>
    rw [step] at h
    split at h
    · rename_i db hput
      exact .uploaded db (KeyTables.putPrekeys_renews hput) (Option.some_inj.1 h).symm
    · exact .nothing (Option.some_inj.1 h).symm
  | getBundle uid deviceId =>
    rw [step] at h
    split at h
    · exact .nothing (Option.some_inj.1 h).symm
    · split at h
      · exact .started _ rfl (Option.some_inj.1 h).symm
      · exact .nothing (Option.some_inj.1 h).symm
  | selectPrekey i =>
    rw [step] at h
    split at h
    · rename_i k keys htask
      split at h
      · exact .moved i _ _ htask rfl rfl (Option.some_inj.1 h).symm
      · exact .moved i _ _ htask rfl rfl (Option.some_inj.1 h).symm
    · cases h
  | markConsumed i =>
    rw [step] at h
    split at h
    · rename_i k keys id prekey htask
      exact .marked i id k keys prekey _ rfl htask rfl (Option.some_inj.1 h).symm
    · cases h
  | wrapContentKey device => exact .started _ rfl (Option.some_inj.1 h).symm
  | peekAndWrap i wraps =>
    rw [step] at h
    split at h
    · rename_i device retries htask
      split at h
      · split at h
        · exact .moved i _ _ htask rfl rfl (Option.some_inj.1 h).symm
        · exact .moved i _ _ htask rfl rfl (Option.some_inj.1 h).symm
      · exact .moved i _ _ htask rfl rfl (Option.some_inj.1 h).symm
    · cases h
  | tryConsume i =>
    rw [step] at h
    split at h
    · rename_i device retries id htask
      split at h
      · rename_i hunconsumed
        exact .claimed i id _ _ htask rfl rfl hunconsumed (Option.some_inj.1 h).symm
      · exact .moved i _ _ htask rfl rfl (Option.some_inj.1 h).symm
    · cases h

/-! ### What is handed out -/

def handedOut (s : PrekeySystem) : List ℕ := s.tasks.filterMap PrekeyTask.prekey

theorem handedOut_start {task : PrekeyTask} (hnone : task.prekey = none) :
    (s.start task).handedOut = s.handedOut := by
  show (s.tasks ++ [task]).filterMap PrekeyTask.prekey = _
  rw [List.filterMap_append, List.filterMap_cons_none hnone]
  exact List.append_nil _

/-- The end of a task adds the prekey that it hands out. -/
theorem handedOut_setTask {i : ℕ} {task : PrekeyTask} (htask : s.tasks[i]? = some task)
    (hnone : task.prekey = none) (task' : PrekeyTask) :
    ((s.setTask i task').handedOut).Perm (task'.prekey.toList ++ s.handedOut) := by
  have hperm := Holders.filterMap_set PrekeyTask.prekey htask task'
  rw [hnone] at hperm
  exact hperm

/-- Prekeys that were handed out are consumed, and consumed ones were handed out or were consumed
before. -/
structure Accounted (prekeys : PrekeyTable) (s : PrekeySystem) : Prop where
  handedOut : ∀ id ∈ s.handedOut, id < s.db.prekeys.nextId ∧
    ∀ row, s.db.prekeys.rows.get id = some row → row.consumed = true
  consumed : ∀ id row, s.db.prekeys.rows.get id = some row → row.consumed = true →
    id ∈ s.handedOut ∨ ∃ row, prekeys.rows.get id = some row ∧ row.consumed = true

variable {prekeys : PrekeyTable}

theorem Accounted.of_perm (h : s.Accounted prekeys) (hdb : t.db = s.db)
    (hperm : t.handedOut.Perm s.handedOut) : t.Accounted prekeys where
  handedOut id hid := hdb ▸ h.handedOut id (hperm.mem_iff.1 hid)
  consumed id row hrow hconsumed :=
    (h.consumed id row (hdb ▸ hrow) hconsumed).imp_left hperm.mem_iff.2

/-- A row that is there is consumed, and handed out to task `i`. -/
theorem Accounted.take (h : s.Accounted prekeys) {i id : ℕ} {task task' : PrekeyTask}
    (htask : s.tasks[i]? = some task) (hnone : task.prekey = none)
    (hprekey : task'.prekey = some id) (hlt : id < s.db.prekeys.nextId) :
    (s.take i id task').Accounted prekeys := by
  have hperm : (s.take i id task').handedOut.Perm (id :: s.handedOut) := by
    have hset := handedOut_setTask htask hnone task'
    rwa [hprekey] at hset
  refine ⟨fun l hl ↦ ?_, fun l row hrow hconsumed ↦ ?_⟩
  · rcases List.mem_cons.1 (hperm.mem_iff.1 hl) with rfl | hl
    · refine ⟨hlt, fun row hrow ↦ ?_⟩
      obtain ⟨row', -, hconsumed⟩ := PrekeyTable.get_consume hrow
      rw [hconsumed, if_pos rfl]
    · obtain ⟨hlt, hall⟩ := h.handedOut l hl
      refine ⟨hlt, fun row hrow ↦ ?_⟩
      obtain ⟨row', hrow', hconsumed⟩ := PrekeyTable.get_consume hrow
      rw [hconsumed, hall row' hrow', ite_self]
  · obtain ⟨row', hrow', heq⟩ := PrekeyTable.get_consume hrow
    by_cases hl : l = id
    · exact .inl (hperm.mem_iff.2 (hl ▸ List.mem_cons_self))
    · rw [heq, if_neg hl] at hconsumed
      exact (h.consumed l row' hrow' hconsumed).imp_left fun hmem ↦
        hperm.mem_iff.2 (List.mem_cons_of_mem _ hmem)

/-! ### Runs -/

/-- `get_bundle` marks rows that are there and not consumed. -/
def MarksUnconsumed (s : PrekeySystem) : PrekeyAction → Prop
  | .markConsumed i => ∀ task ∈ s.tasks[i]?, task.FindsUnconsumed s.db.prekeys
  | .putPrekeys .. | .getBundle .. | .selectPrekey _ | .wrapContentKey _ | .peekAndWrap ..
  | .tryConsume _ => True

instance (s : PrekeySystem) : ∀ a, Decidable (s.MarksUnconsumed a)
  | .markConsumed i => inferInstanceAs (Decidable
    (∀ task ∈ s.tasks[i]?, task.FindsUnconsumed s.db.prekeys))
  | .putPrekeys .. | .getBundle .. | .selectPrekey _ | .wrapContentKey _ | .peekAndWrap ..
  | .tryConsume _ => .isTrue trivial

/-- No prekey is handed out to two callers, and none is consumed but those that are handed out and
those of `prekeys`. -/
def HandsOutOnce (prekeys : PrekeyTable) (s : PrekeySystem) : Prop :=
  s.handedOut.Nodup ∧ ∀ id row, s.db.prekeys.rows.get id = some row → row.consumed = true →
    id ∈ s.handedOut ∨ ∃ row, prekeys.rows.get id = some row ∧ row.consumed = true

/-- Every step keeps the accounts and hands out nothing twice. -/
theorem accounted_step (h : s.Accounted prekeys) (hnodup : s.handedOut.Nodup)
    (hok : s.MarksUnconsumed a) (hstep : s.step ver a = some t) :
    t.Accounted prekeys ∧ t.handedOut.Nodup := by
  -- a row that is not consumed is not handed out yet
  have htake : ∀ {i id : ℕ} {task task' : PrekeyTask}, s.tasks[i]? = some task →
      task.prekey = none → task'.prekey = some id → s.db.prekeys.unconsumed id = true →
        (s.take i id task').Accounted prekeys ∧ (s.take i id task').handedOut.Nodup := by
    intro i id task task' htask hnone hprekey hunconsumed
    obtain ⟨row, hrow, hfalse⟩ := PrekeyTable.unconsumed_iff.1 hunconsumed
    have hset := handedOut_setTask htask hnone task'
    rw [hprekey] at hset
    refine ⟨h.take htask hnone hprekey (s.db.prekeys.fresh id row hrow),
      hset.nodup_iff.2 (List.nodup_cons.2 ⟨fun hmem ↦ ?_, hnodup⟩)⟩
    rw [(h.handedOut id hmem).2 row hrow] at hfalse
    cases hfalse
  rcases did hstep with rfl | ⟨db, hrenews, rfl⟩ | ⟨task, hnone, rfl⟩ |
    ⟨i, task, task', htask, hnone, hnone', rfl⟩ |
    ⟨i, id, k, keys, prekey, task', rfl, htask, hprekey, rfl⟩ |
    ⟨i, id, task, task', htask, hnone, hprekey, hunconsumed, rfl⟩
  · exact ⟨h, hnodup⟩
  · refine ⟨⟨fun id hid ↦ ?_, fun id row hrow hconsumed ↦ ?_⟩, hnodup⟩
    · obtain ⟨hlt, hall⟩ := h.handedOut id hid
      refine ⟨hlt.trans_le hrenews.next, fun row hrow ↦ ?_⟩
      exact (hrenews.rows id row hrow).elim (hall row) fun hnew ↦
        absurd hlt (Nat.not_lt.2 hnew.1)
    · rcases hrenews.rows id row hrow with hold | ⟨-, hnew⟩
      · exact h.consumed id row hold hconsumed
      · rw [hnew] at hconsumed
        cases hconsumed
  · have hsame := handedOut_start (s := s) hnone
    exact ⟨h.of_perm rfl (hsame ▸ List.Perm.refl _), hsame ▸ hnodup⟩
  · have hset := handedOut_setTask htask hnone task'
    rw [hnone'] at hset
    exact ⟨h.of_perm rfl hset, hset.nodup_iff.2 hnodup⟩
  · exact htake htask rfl hprekey (hok _ htask)
  · exact htake htask hnone hprekey hunconsumed

/-- **A one-time prekey is handed out once**, in every run in which `get_bundle` finds the rows it
marks unconsumed; and none is consumed without being handed out. -/
theorem handedOut_of_run {db : KeyTables} {actions : List PrekeyAction}
    (hok : Transition.Along (PrekeySystem.step ver) MarksUnconsumed (init db) actions)
    (hrun : Transition.run (PrekeySystem.step ver) (init db) actions = some s) :
    s.HandsOutOnce db.prekeys := by
  have hinit : (init db).Accounted db.prekeys :=
    ⟨fun _ h ↦ absurd h List.not_mem_nil, fun _ row hrow hconsumed ↦ .inr ⟨row, hrow, hconsumed⟩⟩
  have h := Transition.run_induction_along
    (I := fun s : PrekeySystem ↦ s.Accounted db.prekeys ∧ s.handedOut.Nodup)
    (fun _ _ _ h hok hstep ↦ accounted_step h.1 h.2 hok hstep) ⟨hinit, List.nodup_nil⟩ hok hrun
  exact ⟨h.2, h.1.consumed⟩

/-- Marking a row that others have consumed hands it out again. -/
theorem not_nodup_of_consumed (h : s.Accounted prekeys) {i id : ℕ} {k : DeviceKey}
    {keys : PublishedKeys} {prekey row : PrekeyRow}
    (htask : s.tasks[i]? = some (.marking k keys id prekey))
    (hrow : s.db.prekeys.rows.get id = some row) (hconsumed : row.consumed = true)
    (hnew : ∀ row, prekeys.rows.get id = some row → row.consumed = false)
    (hstep : s.step ver (.markConsumed i) = some t) : ¬t.handedOut.Nodup := by
  rw [step, htask] at hstep
  obtain rfl := Option.some_inj.1 hstep
  have hset := handedOut_setTask htask rfl
    (.bundled ⟨k.1, k.2, keys, some (prekey.keyId, prekey.publicKey)⟩ (some id))
  intro hnodup
  refine (List.nodup_cons.1 (hset.nodup_iff.1 hnodup)).1 ?_
  refine (h.consumed id row hrow hconsumed).resolve_right ?_
  rintro ⟨row, hrow, htrue⟩
  rw [hnew row hrow] at htrue
  cases htrue

/-- The statements of `get_bundle` one after the other are `KeyTables.takePrekey`. -/
theorem takePrekey_of_steps {i : ℕ} {k : DeviceKey} {keys : PublishedKeys}
    (htask : s.tasks[i]? = some (.bundling k keys)) :
    ∃ rest, rest <+: [.selectPrekey i, .markConsumed i] ∧ ∃ t id,
      Transition.run (PrekeySystem.step ver) s rest = some t ∧ t.db = (s.db.takePrekey k).2 ∧
        t.tasks[i]? = some (.bundled ⟨k.1, k.2, keys, (s.db.takePrekey k).1⟩ id) := by
  have hlt := (List.getElem?_eq_some_iff.1 htask).1
  rw [KeyTables.takePrekey]
  cases hpeek : s.db.prekeys.peek k with
  | none =>
    refine ⟨[.selectPrekey i], ⟨[.markConsumed i], rfl⟩,
      s.setTask i (.bundled ⟨k.1, k.2, keys, none⟩ none), none, ?_, rfl,
      List.getElem?_set_self hlt⟩
    rw [Transition.run_cons, step, htask]
    simp only [hpeek, Option.bind_some, Transition.run_nil]
  | some r =>
    obtain ⟨id, prekey⟩ := r
    have hselect : s.step ver (.selectPrekey i) =
        some (s.setTask i (.marking k keys id prekey)) := by
      rw [step, htask]
      simp only [hpeek]
    have hmark : (s.setTask i (.marking k keys id prekey)).step ver (.markConsumed i) =
        some ((s.setTask i (.marking k keys id prekey)).take i id
          (.bundled ⟨k.1, k.2, keys, some (prekey.keyId, prekey.publicKey)⟩ (some id))) := by
      rw [step, setTask, List.getElem?_set_self hlt]
    refine ⟨_, List.prefix_refl _, _, some id, Transition.run_cons_eq_some.2 ⟨_, hselect,
      Transition.run_cons_eq_some.2 ⟨_, hmark, rfl⟩⟩, rfl, ?_⟩
    exact List.getElem?_set_self (by rwa [setTask, List.length_set])

/-! ### Two requests for a bundle -/

/-- A phone with two prekeys. -/
def twoPrekeys : KeyTables :=
  let row : IdentityRow := ⟨⟨"identity", some "prekey", some "signature"⟩, 0, 1, none⟩
  let prekeys := PrekeyTable.empty.append ⟨(1, "phone"), 1, "first", false⟩
  ⟨[(1, "phone")], Table.empty.put (1, "phone") row,
    prekeys.append ⟨(1, "phone"), 2, "second", false⟩, Table.empty⟩

/-- A bundle is asked for, and a content key is wrapped; each gets a prekey. -/
def bundleAndWrap : List PrekeyAction :=
  [.getBundle 1 none, .wrapContentKey (1, "phone"), .selectPrekey 0, .markConsumed 0,
    .peekAndWrap 1 true, .tryConsume 1]

/-- Two bundles are asked for, and both prekeys are selected before either is marked. -/
def twoBundles : List PrekeyAction :=
  [.getBundle 1 none, .getBundle 1 none, .selectPrekey 0, .selectPrekey 1, .markConsumed 0,
    .markConsumed 1]

theorem handedOut_of_run_bundleAndWrap : ∃ s,
    Transition.run (PrekeySystem.step 2) (init twoPrekeys) bundleAndWrap = some s ∧
      s.handedOut = [0, 1] ∧ s.HandsOutOnce twoPrekeys.prekeys := by
  have hrun : ((Transition.run (PrekeySystem.step 2) (init twoPrekeys) bundleAndWrap).map
      handedOut) = some [0, 1] := rfl
  obtain ⟨s, hs, hids⟩ := Option.map_eq_some_iff.1 hrun
  exact ⟨s, hs, hids, handedOut_of_run (Transition.along_of_check (by decide +kernel)) hs⟩

/-- Both requests are answered with the first prekey. -/
theorem not_handedOut_twoBundles : ∃ s,
    Transition.run (PrekeySystem.step 2) (init twoPrekeys) twoBundles = some s ∧
      s.handedOut = [0, 0] ∧ ¬s.HandsOutOnce twoPrekeys.prekeys := by
  have hrun : ((Transition.run (PrekeySystem.step 2) (init twoPrekeys) twoBundles).map
      handedOut) = some [0, 0] := rfl
  obtain ⟨s, hs, hids⟩ := Option.map_eq_some_iff.1 hrun
  refine ⟨s, hs, hids, fun h ↦ ?_⟩
  have hnodup := h.1
  rw [hids] at hnodup
  exact absurd hnodup (by decide)

end PrekeySystem

end VoceChat
