import VoceChat.Msgdb.Writes
import VoceChat.Pending.Markers

/-!
# Deferred messages in two stores

`PendingSystem` is the message database together with the table `e2e_pending_message`. SQLite keeps
every committed transaction, sled keeps what `DurableDb` says. Sends, crashes and restarts run
against each other and against any number of reconciliations: at startup, after a deferred DM, and
for the requests about pending messages. A reconciliation reads the markers in one step; then every
projection and every removal is a step of its own.

What holds of every run is that a marker, in the database or in the hands of a reconciliation, is
the marker of the message stored under its id (`Describes`, `Inv`). The rows are another matter:
`rows_describe` in the next module says when they are.

The stored messages of the model carry the payload that was sent; the date of a payload is a
`DateTime`, whose milliseconds fit into an `i64`.
-/

namespace VoceChat

open Guards Machine MsgDb

/-- A running `reconcile_pending_dm_markers`. -/
structure ReconcileTask where
  todo : List PendingMessageMarker
  /-- The first of `todo` is projected, and its marker is removed next. -/
  projected : Bool
  /-- It has not failed, and its request was not given up. -/
  active : Bool

structure PendingSystem where
  db : DurableDb
  tables : PendingTables
  tasks : List ReconcileTask

inductive PendingAction where
  | openDb
  /-- `send_message` up to the id of the message. -/
  | send (faults : SendFaults) (ctx : Context) (payload : ChatMessagePayload) (refuses : Bool)
  | applyBatch (i : ℕ)
  | storeMerged (i : ℕ)
  | finish (i : ℕ)
  | close (fails : Bool)
  | crash (n : ℕ)
  | reconcile
  | project (k : ℕ)
  | removeMarker (k : ℕ)
  | giveUp (k : ℕ)
  /-- An envelope of the message is stored. -/
  | complete (mid now : ℤ)
  | addUser (uid : Int64)
  | deleteUser (uid : Int64)

/-- The milliseconds of a `DateTime`. -/
def IsDate (valid : ℤ → Bool) (millis : ℤ) : Prop :=
  valid millis = true ∧ -i64Size ≤ millis ∧ millis < i64Size

instance (valid : ℤ → Bool) (millis : ℤ) : Decidable (IsDate valid millis) :=
  inferInstanceAs (Decidable (_ ∧ _))

/-- `update e2e_pending_message set completed_at = ? where mid = ? and completed_at is null`. -/
def PendingTables.complete (db : PendingTables) (mid now : ℤ) : PendingTables :=
  { db with pendings := db.pendings.modify mid fun row ↦
      { row with completedAt := row.completedAt.or (some now) } }

/-- Delete a user; the pending messages of the user go with it. -/
def PendingTables.deleteUser (db : PendingTables) (uid : Int64) : PendingTables where
  users := db.users.filter (· ≠ uid)
  pendings := db.pendings.filter fun _ row ↦ row.senderUid ≠ uid ∧ row.targetUid ≠ uid

namespace PendingSystem

def init : PendingSystem := ⟨DurableDb.init, ⟨[], Table.empty⟩, []⟩

/-- A step of the message database. -/
def onDb (s : PendingSystem) (a : DbAction) : Option PendingSystem :=
  (s.db.step a).map fun db ↦ { s with db }

/-- A step of a reconciliation that has a marker before it. -/
def stepTask (s : PendingSystem) (k : ℕ)
    (f : ReconcileTask → PendingMessageMarker → Option PendingSystem) : Option PendingSystem :=
  s.tasks[k]?.bind fun task ↦
    if task.active then task.todo.head?.bind (f task) else none

/-- The reconciliation does nothing more. -/
def stop (s : PendingSystem) (k : ℕ) (task : ReconcileTask) : PendingSystem :=
  { s with tasks := s.tasks.set k { task with active := false } }

variable (valid : ℤ → Bool)

def step (s : PendingSystem) : PendingAction → Option PendingSystem
  | .openDb => s.onDb .openDb
  | .send faults ctx payload refuses =>
    if IsDate valid payload.createdAt then
      match prepare faults ctx payload with
      | .ok p => s.onDb (.generate p refuses)
      | .error _ => some s
    else none
  | .applyBatch i => s.onDb (.applyBatch i)
  | .storeMerged i => s.onDb (.storeMerged i)
  | .finish i => s.onDb (.finish i)
  | .close fails => if s.tasks.any ReconcileTask.active then none else s.onDb (.close fails)
  | .crash n => (s.onDb (.crash n)).map fun t ↦
      { t with tasks := t.tasks.map fun task ↦ { task with active := false } }
  | .reconcile => s.db.sequence.bind fun seq ↦
      match (s.db.msgDb seq).pendingMessageMarkers with
      | .ok markers => some { s with tasks := s.tasks ++ [⟨markers, false, true⟩] }
      | .error _ => some s
  | .project k => s.stepTask k fun task m ↦
      if task.projected then none
      else match projectPendingDmMarker valid s.tables m with
        | .ok tables =>
          some { s with tables, tasks := s.tasks.set k { task with projected := true } }
        | .error _ => some (s.stop k task)
  | .removeMarker k => s.stepTask k fun task m ↦
      if task.projected then
        (s.onDb (.removeMarker m.mid)).map fun t ↦
          { t with tasks := t.tasks.set k ⟨task.todo.tail, false, true⟩ }
      else none
  | .giveUp k => s.tasks[k]?.map (s.stop k)
  | .complete mid now => some { s with tables := s.tables.complete mid now }
  | .addUser uid => some { s with tables := { s.tables with users := uid :: s.tables.users } }
  | .deleteUser uid => some { s with tables := s.tables.deleteUser uid }

end PendingSystem

/-! ### Messages and their markers -/

/-- The message stored under `mid` is this deferred one. -/
def Pends (map : SledMap) (mid : ℤ) (payload : ChatMessagePayload) (targetUid : Int64) : Prop :=
  IsMid mid ∧ map.get (keyMsg mid) = some (.message (.chat payload)) ∧
    enforceE2eV2TargetProtocol payload = .ok (some targetUid)

/-- The marker is that of the message stored under its id. -/
def Describes (valid : ℤ → Bool) (map : SledMap) (m : PendingMessageMarker) : Prop :=
  ∃ payload, Pends map m.mid payload m.targetUid ∧ m.senderUid = payload.fromUid ∧
    m.createdAtMillis = payload.createdAt ∧ IsDate valid payload.createdAt

/-- All markers in the database are those of their messages. -/
def MarkersDescribe (valid : ℤ → Bool) (map : SledMap) : Prop :=
  ∀ mid v, IsMid mid → map.get (keyPendingMessageMarker mid) = some v →
    ∃ m : PendingMessageMarker, m.mid = mid ∧ v = .bytes m.value ∧ Describes valid map m

section Describe

variable {valid : ℤ → Bool} {map map' : SledMap} {m m' : PendingMessageMarker} {mid : ℤ}
  {payload payload' : ChatMessagePayload} {uid uid' : Int64}

theorem Pends.mono (h : Pends map mid payload uid) (hkept : MessagesKept map map') :
    Pends map' mid payload uid :=
  ⟨h.1, hkept mid _ h.1 h.2.1, h.2.2⟩

/-- There is one message under an id. -/
theorem Pends.eq (h : Pends map mid payload uid) (h' : Pends map mid payload' uid') :
    payload = payload' ∧ uid = uid' := by
  have hblob := Option.some_inj.1 (h.2.1.symm.trans h'.2.1)
  obtain rfl : payload = payload' := Stored.chat.inj (Blob.message.inj hblob)
  exact ⟨rfl, Option.some_inj.1 (Except.ok.inj (h.2.2.symm.trans h'.2.2))⟩

theorem Describes.mono (h : Describes valid map m) (hkept : MessagesKept map map') :
    Describes valid map' m := by
  obtain ⟨payload, hpends, hrest⟩ := h
  exact ⟨payload, hpends.mono hkept, hrest⟩

/-- Two markers of one message are the same. -/
theorem Describes.eq (h : Describes valid map m) (h' : Describes valid map m')
    (hmid : m.mid = m'.mid) : m = m' := by
  obtain ⟨payload, hpends, hsender, hdate, -⟩ := h
  obtain ⟨payload', hpends', hsender', hdate', -⟩ := h'
  obtain ⟨mid, sender, target, date⟩ := m
  obtain ⟨mid', sender', target', date'⟩ := m'
  obtain rfl : mid = mid' := hmid
  obtain ⟨rfl, rfl⟩ := hpends.eq hpends'
  obtain rfl : sender = sender' := hsender.trans hsender'.symm
  obtain rfl : date = date' := hdate.trans hdate'.symm
  rfl

theorem Describes.fits (h : Describes valid map m) : m.Fits := by
  obtain ⟨payload, hpends, -, hdate, hvalid⟩ := h
  exact ⟨hpends.1, hdate ▸ hvalid.2⟩

theorem Describes.date (h : Describes valid map m) : valid m.createdAtMillis = true := by
  obtain ⟨payload, -, -, hdate, hvalid⟩ := h
  exact hdate ▸ hvalid.1

theorem MarkersDescribe.markersFit (h : MarkersDescribe valid map) (seq : Sequence) :
    MarkersFit (⟨map, seq⟩ : MsgDb Stored) := by
  intro mid v hmid hget
  obtain ⟨m, hm, hv, hdescribes⟩ := h mid v hmid hget
  exact ⟨m, hm, hdescribes.fits, hv⟩

/-- A marker in the database is that of its message. -/
theorem MarkersDescribe.describes (h : MarkersDescribe valid map) (hm : HasMarker map m) :
    Describes valid map m := by
  obtain ⟨m', hmid, hvalue, hdescribes⟩ := h m.mid _ hm.1.1 hm.2
  have hdecode := decodePendingMarkerValue_value hdescribes.fits
  rw [← Blob.bytes.inj hvalue, decodePendingMarkerValue_value hm.1] at hdecode
  obtain ⟨hsender, htarget, hdate⟩ :
      m.senderUid = m'.senderUid ∧ m.targetUid = m'.targetUid ∧
        m.createdAtMillis = m'.createdAtMillis := by
    simpa using hdecode
  obtain rfl : m' = m := by
    obtain ⟨a, b, c, d⟩ := m
    obtain ⟨a', b', c', d'⟩ := m'
    simp only at hmid hsender htarget hdate
    rw [hmid, hsender, htarget, hdate]
  exact hdescribes

end Describe

/-! ### What is sent -/

/-- A message that `send_message` sends. -/
structure Prepared.Sent (valid : ℤ → Bool) (p : Prepared) : Prop where
  date : IsDate valid p.payload.createdAt
  deferred : ∀ fromUid toUid, p.target = .dm fromUid toUid true ↔
    fromUid = p.payload.fromUid ∧ enforceE2eV2TargetProtocol p.payload = .ok (some toUid)

theorem enforceE2eV2TargetProtocol_congr {payload payload' : ChatMessagePayload}
    (htarget : payload'.target = payload.target)
    (hcontent : payload'.detail.content = payload.detail.content) :
    enforceE2eV2TargetProtocol payload' = enforceE2eV2TargetProtocol payload := by
  rw [enforceE2eV2TargetProtocol, enforceE2eV2TargetProtocol, htarget, hcontent]

/-- A deferred message goes to a user. -/
theorem target_of_enforce {payload : ChatMessagePayload} {uid : Int64}
    (h : enforceE2eV2TargetProtocol payload = .ok (some uid)) : payload.target = .user uid := by
  rw [enforceE2eV2TargetProtocol] at h
  cases hcontent : payload.detail.content with
  | none =>
    rw [hcontent] at h
    cases h
  | some content =>
    simp only [hcontent] at h
    split at h
    · cases h
    · split at h
      · cases h
      · simp only [bind_eq_ok, mapError_eq_ok] at h
        obtain ⟨route, -, hcheck⟩ := h
        unfold checkTargetProtocol at hcheck
        split at hcheck
        · rename_i uid' _ htarget _
          rw [htarget, Option.some_inj.1 (Except.ok.inj hcheck)]
        all_goals cases hcheck

theorem setExpiresIn_createdAt {cache : Cache} {payload result : ChatMessagePayload}
    (h : setExpiresIn cache payload = .ok result) : result.createdAt = payload.createdAt := by
  cases hdetail : payload.detail with
  | normal normal =>
    obtain ⟨user, -, rfl⟩ := (setExpiresIn_normal_eq_ok hdetail).1 h
    rfl
  | reaction reaction | reply reply =>
    rw [setExpiresIn, hdetail] at h
    obtain rfl := Except.ok.inj h
    rfl

theorem sent_of_prepare {valid : ℤ → Bool} {faults : SendFaults} {ctx : Context}
    {payload : ChatMessagePayload} {p : Prepared} (hdate : IsDate valid payload.createdAt)
    (h : prepare faults ctx payload = .ok p) : p.Sent valid := by
  simp only [prepare, resolve, bind_eq_ok, pure_eq_ok] at h
  obtain ⟨pendingDmTarget, henforce, _, -, payload', hexpires, target, hresolve, rfl⟩ := h
  obtain ⟨huid, htarget, hcontent⟩ := setExpiresIn_payload_eq hexpires
  have hsame := enforceE2eV2TargetProtocol_congr htarget hcontent
  refine ⟨(setExpiresIn_createdAt hexpires).symm ▸ hdate, fun fromUid toUid ↦ ?_⟩
  simp only [hsame, henforce, Except.ok.injEq]
  cases hkind : payload'.target with
  | group gid =>
    obtain ⟨group, -, -, rfl⟩ := (resolveTarget_group_eq_ok hkind).1 hresolve
    refine iff_of_false (fun h ↦ by cases h) fun ⟨_, h⟩ ↦ ?_
    cases hkind.symm.trans (htarget.trans (target_of_enforce (henforce.trans (congrArg _ h))))
  | user uid =>
    simp only [resolveTarget, hkind, bind_eq_ok, pure_eq_ok] at hresolve
    obtain ⟨_, -, rfl⟩ := hresolve
    simp only [InternalSendMessageTarget.dm.injEq]
    constructor
    · rintro ⟨rfl, rfl, hpending⟩
      obtain ⟨uid', rfl⟩ := Option.isSome_iff_exists.1 hpending
      have htarget' := htarget.trans (target_of_enforce henforce)
      rw [hkind] at htarget'
      obtain rfl := MessageTarget.user.inj htarget'
      exact ⟨rfl, rfl⟩
    · rintro ⟨rfl, rfl⟩
      have htarget' := htarget.trans (target_of_enforce henforce)
      rw [hkind] at htarget'
      exact ⟨rfl, MessageTarget.user.inj htarget', rfl⟩

/-! ### What a step does -/

namespace PendingSystem

variable {valid : ℤ → Bool} {s t : PendingSystem} {a : PendingAction}

inductive Did (valid : ℤ → Bool) (s : PendingSystem) (a : PendingAction) (t : PendingSystem) :
    Prop where
  | nothing (h : t = s)
  /-- A step of the message database, but no crash and no removal of a marker. -/
  | db (b : DbAction) (hstep : s.db.step b = some t.db) (htables : t.tables = s.tables)
      (htasks : t.tasks = s.tasks) (hcrash : ∀ n, b ≠ .crash n)
      (hremove : ∀ mid, b ≠ .removeMarker mid)
      (hsend : ∀ p fails, b = .generate p fails → ∃ faults ctx payload,
        a = .send faults ctx payload fails ∧ IsDate valid payload.createdAt ∧
          prepare faults ctx payload = .ok p)
  | crash (n : ℕ) (ha : a = .crash n) (hstep : s.db.step (.crash n) = some t.db)
      (htables : t.tables = s.tables)
      (htasks : t.tasks = s.tasks.map fun task ↦ { task with active := false })
  | reconcile (seq : Sequence) (markers : List PendingMessageMarker) (ha : a = .reconcile)
      (hseq : s.db.sequence = some seq)
      (hmarkers : (s.db.msgDb seq).pendingMessageMarkers = .ok markers)
      (h : t = { s with tasks := s.tasks ++ [⟨markers, false, true⟩] })
  | project (k : ℕ) (task : ReconcileTask) (m : PendingMessageMarker) (ha : a = .project k)
      (htask : s.tasks[k]? = some task) (hactive : task.active = true)
      (hm : task.todo.head? = some m) (hproject : Projectable valid s.tables m)
      (h : t = { s with
        tables := s.tables.projected m
        tasks := s.tasks.set k { task with projected := true } })
  | removeMarker (k : ℕ) (task : ReconcileTask) (m : PendingMessageMarker)
      (ha : a = .removeMarker k) (htask : s.tasks[k]? = some task) (hactive : task.active = true)
      (hm : task.todo.head? = some m) (hprojected : task.projected = true)
      (hstep : s.db.step (.removeMarker m.mid) = some t.db) (htables : t.tables = s.tables)
      (htasks : t.tasks = s.tasks.set k ⟨task.todo.tail, false, true⟩)
  | stop (k : ℕ) (task : ReconcileTask) (htask : s.tasks[k]? = some task) (h : t = s.stop k task)
  | complete (mid now : ℤ) (h : t = { s with tables := s.tables.complete mid now })
  | addUser (uid : Int64)
      (h : t = { s with tables := { s.tables with users := uid :: s.tables.users } })
  | deleteUser (uid : Int64) (ha : a = .deleteUser uid)
      (h : t = { s with tables := s.tables.deleteUser uid })

theorem onDb_eq_some {b : DbAction} : s.onDb b = some t ↔
    s.db.step b = some t.db ∧ t.tables = s.tables ∧ t.tasks = s.tasks := by
  rw [onDb, Option.map_eq_some_iff]
  constructor
  · rintro ⟨db, hdb, rfl⟩
    exact ⟨hdb, rfl, rfl⟩
  · rintro ⟨hdb, htables, htasks⟩
    exact ⟨t.db, hdb, by rw [← htables, ← htasks]⟩

theorem stepTask_eq_some {k : ℕ} {f : ReconcileTask → PendingMessageMarker → Option PendingSystem} :
    s.stepTask k f = some t ↔ ∃ task m, s.tasks[k]? = some task ∧ task.active = true ∧
      task.todo.head? = some m ∧ f task m = some t := by
  simp only [stepTask, Option.bind_eq_some_iff, Option.ite_none_right_eq_some]
  constructor
  · rintro ⟨task, htask, hactive, m, hm, hf⟩
    exact ⟨task, m, htask, hactive, hm, hf⟩
  · rintro ⟨task, m, htask, hactive, hm, hf⟩
    exact ⟨task, htask, hactive, m, hm, hf⟩

/-- A step of the message database that is neither a send nor the end of a marker. -/
theorem Did.ofDb {b : DbAction} (h : s.onDb b = some t) (hcrash : ∀ n, b ≠ .crash n)
    (hremove : ∀ mid, b ≠ .removeMarker mid) (hsend : ∀ p fails, b ≠ .generate p fails) :
    Did valid s a t := by
  obtain ⟨hstep, htables, htasks⟩ := onDb_eq_some.1 h
  exact .db b hstep htables htasks hcrash hremove fun p fails heq ↦ absurd heq (hsend p fails)

/-- **What a step does.** -/
theorem did (hstep : s.step valid a = some t) : Did valid s a t := by
  cases a with
  | openDb | applyBatch i | storeMerged i | finish i =>
    exact .ofDb hstep (fun _ h ↦ by cases h) (fun _ h ↦ by cases h) fun _ _ h ↦ by cases h
  | send faults ctx payload refuses =>
    rw [step, Option.ite_none_right_eq_some] at hstep
    obtain ⟨hdate, hstep⟩ := hstep
    cases hp : prepare faults ctx payload with
    | error e =>
      rw [hp] at hstep
      exact .nothing (Option.some_inj.1 hstep).symm
    | ok p =>
      rw [hp] at hstep
      obtain ⟨hstep, htables, htasks⟩ := onDb_eq_some.1 hstep
      refine .db _ hstep htables htasks (fun _ h ↦ by cases h) (fun _ h ↦ by cases h) ?_
      rintro p' fails heq
      obtain ⟨rfl, rfl⟩ := DbAction.generate.inj heq
      exact ⟨faults, ctx, payload, rfl, hdate, hp⟩
  | close fails =>
    rw [step, Option.ite_none_left_eq_some] at hstep
    exact .ofDb hstep.2 (fun _ h ↦ by cases h) (fun _ h ↦ by cases h) fun _ _ h ↦ by cases h
  | crash n =>
    rw [step, Option.map_eq_some_iff] at hstep
    obtain ⟨u, hu, rfl⟩ := hstep
    obtain ⟨hstep, htables, htasks⟩ := onDb_eq_some.1 hu
    exact .crash n rfl hstep htables (congrArg _ htasks)
  | reconcile =>
    obtain ⟨seq, hseq, hstep⟩ := Option.bind_eq_some_iff.1 hstep
    split at hstep
    · rename_i markers hmarkers
      exact .reconcile seq markers rfl hseq hmarkers (Option.some_inj.1 hstep).symm
    · exact .nothing (Option.some_inj.1 hstep).symm
  | project k =>
    obtain ⟨task, m, htask, hactive, hm, hstep⟩ := stepTask_eq_some.1 hstep
    rw [Option.ite_none_left_eq_some] at hstep
    obtain ⟨-, hstep⟩ := hstep
    by_cases hproject : Projectable valid s.tables m
    · rw [projectPendingDmMarker_of_projectable hproject] at hstep
      exact .project k task m rfl htask hactive hm hproject (Option.some_inj.1 hstep).symm
    · obtain ⟨e, he, -⟩ := projectPendingDmMarker_of_not hproject
      rw [he] at hstep
      exact .stop k task htask (Option.some_inj.1 hstep).symm
  | removeMarker k =>
    obtain ⟨task, m, htask, hactive, hm, hstep⟩ := stepTask_eq_some.1 hstep
    rw [Option.ite_none_right_eq_some] at hstep
    obtain ⟨hprojected, hstep⟩ := hstep
    obtain ⟨u, hu, rfl⟩ := Option.map_eq_some_iff.1 hstep
    obtain ⟨hstep, htables, htasks⟩ := onDb_eq_some.1 hu
    exact .removeMarker k task m rfl htask hactive hm hprojected hstep htables
      (congrArg (fun tasks : List ReconcileTask ↦ tasks.set k _) htasks)
  | giveUp k =>
    obtain ⟨task, htask, rfl⟩ := Option.map_eq_some_iff.1 hstep
    exact .stop k task htask rfl
  | complete mid now => exact .complete mid now (Option.some_inj.1 hstep).symm
  | addUser uid => exact .addUser uid (Option.some_inj.1 hstep).symm
  | deleteUser uid => exact .deleteUser uid rfl (Option.some_inj.1 hstep).symm

/-! ### The invariant -/

structure Inv (valid : ℤ → Bool) (s : PendingSystem) : Prop where
  db : s.db.Inv
  history : s.db.sled.EveryPrefix DurableDb.History
  sends : ∀ r ∈ s.db.sends, r.prepared.Sent valid
  markers : s.db.sled.EveryPrefix fun j ↦ MarkersDescribe valid j.now
  todo : ∀ task ∈ s.tasks, task.active = true → ∀ m ∈ task.todo, Describes valid s.db.map m

theorem inv_init : Inv valid init where
  db := DurableDb.inv_init
  history := DurableDb.history_init
  sends _ h := absurd h List.not_mem_nil
  markers := Journal.everyPrefix_start fun _ _ _ h ↦ by cases h
  todo _ h := absurd h List.not_mem_nil

theorem markersDescribe_of_sameMarkers {map map' : SledMap} (h : MarkersDescribe valid map)
    (hkept : MessagesKept map map')
    (hmarkers : ∀ mid v, IsMid mid → map'.get (keyPendingMessageMarker mid) = some v →
      map.get (keyPendingMessageMarker mid) = some v) : MarkersDescribe valid map' := by
  intro mid v hmid hget
  obtain ⟨m, hm, hv, hdescribes⟩ := h mid v hmid (hmarkers mid v hmid hget)
  exact ⟨m, hm, hv, hdescribes.mono hkept⟩

/-- The marker of a new message is its own. -/
theorem describes_batch {p : Prepared} (hp : p.Sent valid) {id : ℤ} (hid : IsMid id)
    {value : Bytes} (hvalue : p.marker = some value) (db : SledMap) :
    ∃ m : PendingMessageMarker, m.mid = id ∧ value = m.value ∧
      Describes valid (db.insertAll (p.batch id)) m := by
  obtain ⟨fromUid, toUid, htarget, rfl⟩ : ∃ fromUid toUid, p.target = .dm fromUid toUid true ∧
      pendingMarkerValue fromUid toUid p.payload.createdAt = value := by
    rw [Prepared.marker] at hvalue
    split at hvalue
    · rename_i fromUid toUid htarget
      exact ⟨fromUid, toUid, htarget, Option.some_inj.1 hvalue⟩
    · cases hvalue
  obtain ⟨hfrom, henforce⟩ := (hp.deferred fromUid toUid).1 htarget
  exact ⟨⟨id, fromUid, toUid, p.payload.createdAt⟩, rfl, rfl, p.payload,
    ⟨hid, p.get_msg_batch id db, henforce⟩, hfrom, rfl, hp.date⟩

theorem markersDescribe_of_wrote {s t : DurableDb} {a : DbAction} (h : DurableDb.Wrote s a t)
    (hinv : s.Inv) (hsends : ∀ r ∈ s.sends, r.prepared.Sent valid)
    (hs : s.sled.EveryPrefix fun j ↦ MarkersDescribe valid j.now) :
    t.sled.EveryPrefix fun j ↦ MarkersDescribe valid j.now := by
  have hkept : MessagesKept s.sled.now t.sled.now := h.messagesKept hinv
  have hself := hs.self
  rcases h with h | ⟨w, map, h, -, hsame⟩ | ⟨mid', -, h⟩ | ⟨r, hr, hstored, h⟩
  · rw [h]
    exact hs
  · rw [h, Journal.now_write] at hkept
    rw [h]
    refine hs.write ?_
    rw [Journal.now_write]
    exact markersDescribe_of_sameMarkers hself hkept fun mid v _ hget ↦ hsame.marker mid ▸ hget
  · rw [h, Journal.now_write] at hkept
    rw [h]
    refine hs.write ?_
    rw [Journal.now_write]
    refine markersDescribe_of_sameMarkers hself hkept fun mid v _ hget ↦ ?_
    rw [OrderedMap.get_erase] at hget
    split at hget
    · cases hget
    · exact hget
  · rw [h, Journal.now_write] at hkept
    rw [h]
    refine hs.write ?_
    rw [Journal.now_write]
    have hid := (hinv.sends r hr).1
    intro mid v hmid hget
    by_cases hne : mid = r.id
    · subst hne
      rw [Prepared.get_marker_batch (hinv.fresh r hr hstored (.pendingMarker r.id) hid rfl),
        Option.map_eq_some_iff] at hget
      obtain ⟨value, hvalue, rfl⟩ := hget
      obtain ⟨m, hm, rfl, hdescribes⟩ := describes_batch (hsends r hr) hid hvalue s.map
      exact ⟨m, hm, rfl, hdescribes⟩
    · rw [r.prepared.get_marker_batch_of_ne hid hmid hne] at hget
      obtain ⟨m, hm, hv, hdescribes⟩ := hself mid v hmid hget
      exact ⟨m, hm, hv, hdescribes.mono hkept⟩

/-- A step of the message database keeps the invariant. -/
theorem Inv.ofDb (h : Inv valid s) {b : DbAction} (hstep : s.db.step b = some t.db)
    (hcrash : ∀ n, b ≠ .crash n)
    (hsend : ∀ p fails, b = .generate p fails → p.Sent valid)
    (htodo : ∀ task ∈ t.tasks, task.active = true → ∀ m ∈ task.todo, Describes valid s.db.map m) :
    Inv valid t := by
  have hwrote := DurableDb.wrote h.db hstep hcrash
  refine ⟨h.db.step hstep, hwrote.history h.db h.history, fun r hr ↦ ?_,
    markersDescribe_of_wrote hwrote h.db h.sends h.markers, fun task htask hactive m hm ↦
      (htodo task htask hactive m hm).mono (hwrote.messagesKept h.db)⟩
  rcases DurableDb.prepared_of_step hstep hr with ⟨r', hr', heq⟩ | ⟨fails, hb⟩
  · exact heq ▸ h.sends r' hr'
  · exact hsend _ _ hb

/-- What a reconciliation finds. -/
theorem Inv.pendingMessageMarkers (h : Inv valid s) {seq : Sequence}
    (hseq : s.db.sequence = some seq) : ∃ ms,
      (s.db.msgDb seq).pendingMessageMarkers = .ok ms ∧
        (ms.map PendingMessageMarker.mid).Nodup ∧ ∀ m, m ∈ ms ↔ HasMarker s.db.map m :=
  pendingMessageMarkers_eq_ok (h.db.running seq hseq).keys.keysValid
    (h.markers.self.markersFit seq)

theorem Inv.step (h : Inv valid s) (hstep : s.step valid a = some t) : Inv valid t := by
  rcases did hstep with rfl | ⟨b, hdb, -, htasks, hcrash, -, hsend⟩ | ⟨n, -, hdb, -, htasks⟩ |
    ⟨seq, markers, -, hseq, hmarkers, rfl⟩ | ⟨k, task, m, -, htask, hactive, hm, -, rfl⟩ |
    ⟨k, task, m, -, htask, hactive, -, -, hdb, -, htasks⟩ | ⟨k, task, htask, rfl⟩ |
      ⟨mid, now, rfl⟩ |
    ⟨uid, rfl⟩ | ⟨uid, -, rfl⟩
  · exact h
  · refine h.ofDb hdb hcrash (fun p fails hb ↦ ?_) (htasks ▸ h.todo)
    obtain ⟨faults, ctx, payload, -, hdate, hprepare⟩ := hsend p fails hb
    exact sent_of_prepare hdate hprepare
  · obtain hdb := Option.some_inj.1 hdb
    refine ⟨h.db.step (a := .crash n) (hdb ▸ rfl), ?_, ?_, ?_, fun task htask hactive ↦ ?_⟩
    · rw [← hdb]
      exact h.history.crash n
    · rw [← hdb]
      exact fun _ hr ↦ absurd hr List.not_mem_nil
    · rw [← hdb]
      exact h.markers.crash n
    · rw [htasks] at htask
      obtain ⟨task', -, rfl⟩ := List.mem_map.1 htask
      cases hactive
  · refine ⟨h.db, h.history, h.sends, h.markers, fun task htask hactive m hm ↦ ?_⟩
    rcases List.mem_append.1 htask with htask | htask
    · exact h.todo task htask hactive m hm
    · obtain rfl := List.mem_singleton.1 htask
      obtain ⟨ms, hms, -, hmem⟩ := h.pendingMessageMarkers hseq
      obtain rfl : ms = markers := Except.ok.inj (hms.symm.trans hmarkers)
      exact h.markers.self.describes ((hmem m).1 hm)
  · refine ⟨h.db, h.history, h.sends, h.markers, fun task' htask' hactive' m' hm' ↦ ?_⟩
    rcases List.mem_or_eq_of_mem_set htask' with htask' | rfl
    · exact h.todo task' htask' hactive' m' hm'
    · exact h.todo task (List.mem_of_getElem? htask) hactive m' hm'
  · refine h.ofDb hdb (fun _ hb ↦ by cases hb) (fun _ _ hb ↦ by cases hb) ?_
    intro task' htask' hactive' m' hm'
    rw [htasks] at htask'
    rcases List.mem_or_eq_of_mem_set htask' with htask' | rfl
    · exact h.todo task' htask' hactive' m' hm'
    · exact h.todo task (List.mem_of_getElem? htask) hactive m' (List.mem_of_mem_tail hm')
  · refine ⟨h.db, h.history, h.sends, h.markers, fun task' htask' hactive' m' hm' ↦ ?_⟩
    rcases List.mem_or_eq_of_mem_set htask' with htask' | rfl
    · exact h.todo task' htask' hactive' m' hm'
    · cases hactive'
  · exact ⟨h.db, h.history, h.sends, h.markers, h.todo⟩
  · exact ⟨h.db, h.history, h.sends, h.markers, h.todo⟩
  · exact ⟨h.db, h.history, h.sends, h.markers, h.todo⟩

theorem inv_of_run {actions : List PendingAction}
    (hrun : Transition.run (step valid) init actions = some s) : Inv valid s :=
  Transition.run_induction (fun _ _ _ h hstep ↦ h.step hstep) inv_init hrun

end PendingSystem

end VoceChat
