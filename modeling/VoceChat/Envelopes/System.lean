import VoceChat.Directory.Versions
import VoceChat.Envelopes.Tables

/-!
# Deferred messages and their envelopes

`EnvelopeSystem` runs everything that reads or writes envelopes against everything that happens to
identities: clients post envelopes; the bot engine sends messages (`send_bot_dm`) and catches up
with devices that publish a new version (`catch_up_pending_sends`). The last two are tasks. Each of
their queries is a step, and so is every envelope they append.

A message keeps its id, and its marker can be projected at any time after it was sent. Messages here
are the deferred ones, each given by its marker.

For every stored envelope the state also has on behalf of whom it was appended and for which keys it
was wrapped (`origins`), and it has all keys that were ever published (`published`) and all bundles
that were handed out. No step reads these.

## What a step does

`did` lists the cases. An envelope is stored by `Appends`: a post, a sending bot, or a bot that
catches up.
-/

namespace VoceChat

open Guards

/-- `send_bot_dm` and `catch_up_pending_sends`, by what they hold. -/
inductive BotSendTask where
  /-- The message is sent. -/
  | sending (m : PendingMessageMarker)
  /-- The devices that are still to get an envelope, and whether any got one. -/
  | wrapping (m : PendingMessageMarker) (devices : List UsableDevice) (appendedAny : Bool)
  | waking (c : CatchUp)
  | fetching (c : CatchUp) (mids : List ℤ)
  | catchingUp (c : CatchUp) (mids : List ℤ) (keys : PublishedKeys)
  | done
  deriving DecidableEq

/-- The user on whose behalf an envelope was appended, and the keys it was wrapped for. -/
structure Origin where
  senderUid : Int64
  wrappedFor : PublishedKeys
  deriving DecidableEq, Repr

structure EnvelopeSystem where
  keys : KeySystem
  db : EnvelopeTables
  messages : Table ℤ PendingMessageMarker
  tasks : List BotSendTask
  origins : Table EnvelopeKey Origin
  published : List (DeviceKey × ℤ × PublishedKeys)
  bundles : List E2ePrekeyBundle

inductive EnvelopeAction where
  /-- A step that is about identities, but `put_identity`. -/
  | keys (a : KeyAction)
  /-- `put_identity`; `bots` are the users that the cache calls bots. -/
  | putIdentity (token : Token) (req : PutE2eIdentityRequest) (now : ℤ) (bots : List Int64)
  | sendMessage (m : PendingMessageMarker)
  /-- `send_bot_dm` up to the end of `send_message`. -/
  | sendBotDm (m : PendingMessageMarker)
  | project (mid : ℤ)
  /-- A post of an envelope that was wrapped for these keys. -/
  | post (token : Token) (mid : ℤ) (req : AppendPendingEnvelopeRequest) (now : ℤ)
      (wrappedFor : PublishedKeys)
  | fetchTargetDevices (k : ℕ)
  | listMids (k : ℕ)
  | fetchOneDevice (k : ℕ)
  /-- Wrap the content key for the next device or message, and append the envelope; `none` when it
  cannot be wrapped. -/
  | append (k : ℕ) (envelope : Option String) (now : ℤ)
  /-- The end of `send_bot_dm`. -/
  | retainSecret (k : ℕ)

/-- The task that a step is part of. -/
def EnvelopeAction.task : EnvelopeAction → Option ℕ
  | .fetchTargetDevices k | .listMids k | .fetchOneDevice k | .append k .. |
      .retainSecret k => some k
  | .keys _ | .putIdentity .. | .sendMessage _ | .sendBotDm _ | .project _ | .post .. => none

def KeyAction.isPutIdentity : KeyAction → Bool
  | .putIdentity .. => true
  | _ => false

/-- All keys that are published, each under its version. -/
def KeyTables.publications (db : KeyTables) : List (DeviceKey × ℤ × PublishedKeys) :=
  db.identities.rows.map fun r ↦ (r.1, r.2.keyVersion, r.2.keys)

namespace EnvelopeSystem

/-- There are these users, and nothing else. -/
def init (users : List Int64) : EnvelopeSystem :=
  ⟨KeySystem.init, ⟨⟨users, Table.empty⟩, Table.empty, Table.empty⟩, Table.empty, [], Table.empty,
    [], []⟩

def setTask (s : EnvelopeSystem) (k : ℕ) (task : BotSendTask) : EnvelopeSystem :=
  { s with tasks := s.tasks.set k task }

/-- The identities after a step about them. -/
def withKeys (s : EnvelopeSystem) (keys : KeySystem) : EnvelopeSystem :=
  { s with keys, published := s.published ++ keys.db.publications }

/-- The bundle that a step hands out. -/
def bundleOf (ver : ℤ) (s : EnvelopeSystem) : KeyAction → Option E2ePrekeyBundle
  | .getBundle uid deviceId => (s.keys.db.getBundle ver uid deviceId).toOption.map Prod.fst
  | _ => none

/-- What is stored and what is known of it, when an envelope may have been added. -/
def withEnvelope (s : EnvelopeSystem) (key : EnvelopeKey) (origin : Origin) (added : Bool)
    (db : EnvelopeTables) : EnvelopeSystem :=
  { s with db, origins := if added then s.origins.put key origin else s.origins }

/-- `append_pending_envelope_internal` of a task, which fails with it. -/
def appendInternal (s : EnvelopeSystem) (k : ℕ) (key : EnvelopeKey) (origin : Origin)
    (envelope : String) (now : ℤ) (next : Bool → BotSendTask) : EnvelopeSystem :=
  match s.db.appendEnvelope key envelope now with
  | none => s.setTask k .done
  | some (added, db) => (s.withEnvelope key origin added db).setTask k (next added)

/-- The step of a task that wraps a content key. -/
def appendNext (s : EnvelopeSystem) (k : ℕ) (envelope : Option String) (now : ℤ) :
    BotSendTask → Option EnvelopeSystem
  | .wrapping m (d :: devices) appendedAny =>
    match envelope with
    | none => some (s.setTask k (.wrapping m devices appendedAny))
    | some envelope =>
      some (s.appendInternal k ⟨m.mid, m.targetUid, d.deviceId, d.keyVersion⟩
        ⟨m.senderUid, d.keys⟩ envelope now fun added ↦ .wrapping m devices (appendedAny || added))
  | .catchingUp c (mid :: mids) keys =>
    -- secrets are not deleted, so reading one and using it are not told apart
    match s.db.secrets.get mid, envelope with
    | some _, some envelope =>
      some (s.appendInternal k (c.key mid) ⟨c.botUid, keys⟩ envelope now fun _ ↦
        .catchingUp c mids keys)
    | _, _ => some (s.setTask k (.catchingUp c mids keys))
  | _ => none

variable (ver : ℤ) (valid : ℤ → Bool) (verifies : PublishedKeys → Bool)

def step (s : EnvelopeSystem) : EnvelopeAction → Option EnvelopeSystem
  | .keys a =>
    if a.isPutIdentity then none
    else (s.keys.step ver a).map fun keys ↦
      { s.withKeys keys with bundles := s.bundles ++ (s.bundleOf ver a).toList }
  | .putIdentity token req now bots =>
    match s.keys.db.putIdentity ver token req now with
    | .error _ => some s
    | .ok (identityVersion, db) =>
      let senders := s.db.waitingSenders token.uid req.deviceId identityVersion
      let woken := (senders.filter (· ∈ bots)).map fun botUid ↦
        BotSendTask.waking ⟨botUid, token.uid, req.deviceId, identityVersion⟩
      some { s.withKeys { s.keys with db } with tasks := s.tasks ++ woken }
  | .sendMessage m =>
    match s.messages.get m.mid with
    | some _ => none
    | none => some { s with messages := s.messages.put m.mid m }
  | .sendBotDm m =>
    match s.messages.get m.mid with
    | some _ => none
    | none => some { s with messages := s.messages.put m.mid m, tasks := s.tasks ++ [.sending m] }
  | .project mid => (s.messages.get mid).map fun m ↦
      match projectPendingDmMarker valid s.db.tables m with
      | .ok tables => { s with db := { s.db with tables } }
      | .error _ => s
  | .post token mid req now wrappedFor =>
    match EnvelopeTables.postPendingEnvelope s.keys.db s.db token mid req now with
    | .ok (key, added, db) => some (s.withEnvelope key ⟨token.uid, wrappedFor⟩ added db)
    | .error _ => some s
  | .fetchTargetDevices k =>
    match s.tasks[k]? with
    | some (.sending m) =>
      some (s.setTask k (.wrapping m (s.keys.db.fetchTargetDevices verifies m.targetUid) false))
    | _ => none
  | .listMids k =>
    match s.tasks[k]? with
    | some (.waking c) =>
      match s.db.waitingMids c with
      | [] => some (s.setTask k .done)
      | mids => some (s.setTask k (.fetching c mids))
    | _ => none
  | .fetchOneDevice k =>
    match s.tasks[k]? with
    | some (.fetching c mids) =>
      match s.keys.db.fetchOneDevice verifies c.device with
      | none => some (s.setTask k .done)
      | some d => some (s.setTask k (.catchingUp c mids d.keys))
    | _ => none
  | .append k envelope now => s.tasks[k]?.bind (s.appendNext k envelope now)
  | .retainSecret k =>
    match s.tasks[k]? with
    | some (.wrapping _ [] true) => some (s.setTask k .done)
    | some (.wrapping m [] false) =>
      match s.db.insertSecret m.mid m.senderUid with
      | none => some (s.setTask k .done)
      | some db => some { s.setTask k .done with db }
    | _ => none

end EnvelopeSystem

/-! ### What a step does -/

namespace EnvelopeSystem

variable {ver : ℤ} {valid : ℤ → Bool} {verifies : PublishedKeys → Bool} {s t : EnvelopeSystem}
  {a : EnvelopeAction}

/-- The action appends an envelope under this key, if the key is free. -/
inductive Appends (s : EnvelopeSystem) : EnvelopeAction → EnvelopeKey → Origin → Prop where
  | post (token : Token) (mid : ℤ) (req : AppendPendingEnvelopeRequest) (now : ℤ)
      (wrappedFor : PublishedKeys) (row : PendingRow) (version : ℤ)
      (hrow : s.db.tables.pendings.get mid = some row) (hsender : row.senderUid = token.uid)
      (htarget : req.recipientUid = row.targetUid)
      (hversion : s.keys.db.liveVersion (req.recipientUid, req.deviceId) = some version) :
      Appends s (.post token mid req now wrappedFor)
        ⟨mid, req.recipientUid, req.deviceId, version⟩ ⟨token.uid, wrappedFor⟩
  | send (k : ℕ) (envelope : String) (now : ℤ) (m : PendingMessageMarker) (d : UsableDevice)
      (devices : List UsableDevice) (appendedAny : Bool)
      (htask : s.tasks[k]? = some (.wrapping m (d :: devices) appendedAny)) :
      Appends s (.append k (some envelope) now)
        ⟨m.mid, m.targetUid, d.deviceId, d.keyVersion⟩ ⟨m.senderUid, d.keys⟩
  | catchUp (k : ℕ) (envelope : String) (now : ℤ) (c : CatchUp) (mid : ℤ) (mids : List ℤ)
      (keys : PublishedKeys) (htask : s.tasks[k]? = some (.catchingUp c (mid :: mids) keys))
      (hsecret : (s.db.secrets.get mid).isSome) :
      Appends s (.append k (some envelope) now) (c.key mid) ⟨c.botUid, keys⟩

/-- How task `k` goes on. -/
inductive Moves (verifies : PublishedKeys → Bool) (s : EnvelopeSystem) :
    EnvelopeAction → ℕ → BotSendTask → BotSendTask → Prop where
  | fetched (k : ℕ) (m : PendingMessageMarker) : Moves verifies s (.fetchTargetDevices k) k
      (.sending m) (.wrapping m (s.keys.db.fetchTargetDevices verifies m.targetUid) false)
  | wrapped (k : ℕ) (envelope : Option String) (now : ℤ) (m : PendingMessageMarker)
      (d : UsableDevice) (devices : List UsableDevice) (any any' : Bool) :
      Moves verifies s (.append k envelope now) k (.wrapping m (d :: devices) any)
        (.wrapping m devices any')
  | listed (k : ℕ) (c : CatchUp) :
      Moves verifies s (.listMids k) k (.waking c) (.fetching c (s.db.waitingMids c))
  | found (k : ℕ) (c : CatchUp) (mids : List ℤ) (row : IdentityRow)
      (hrow : s.keys.db.identities.get c.device = some row) :
      Moves verifies s (.fetchOneDevice k) k (.fetching c mids) (.catchingUp c mids row.keys)
  | caughtUp (k : ℕ) (envelope : Option String) (now : ℤ) (c : CatchUp) (mid : ℤ) (mids : List ℤ)
      (keys : PublishedKeys) : Moves verifies s (.append k envelope now) k
        (.catchingUp c (mid :: mids) keys) (.catchingUp c mids keys)
  | done (a : EnvelopeAction) (k : ℕ) (task : BotSendTask) (ha : a.task = some k) :
      Moves verifies s a k task .done

theorem Moves.task_eq {verifies : PublishedKeys → Bool} {s : EnvelopeSystem} {a : EnvelopeAction}
    {k : ℕ} {task task' : BotSendTask} (h : Moves verifies s a k task task') : a.task = some k := by
  cases h with
  | done _ _ _ ha => exact ha
  | _ => rfl

/-- The tasks after a step: one of them goes on, or none. -/
def TasksMove (verifies : PublishedKeys → Bool) (s : EnvelopeSystem) (a : EnvelopeAction)
    (tasks : List BotSendTask) : Prop :=
  tasks = s.tasks ∨ ∃ k task task', s.tasks[k]? = some task ∧ Moves verifies s a k task task' ∧
    tasks = s.tasks.set k task'

theorem tasksMove_retainSecret (verifies : PublishedKeys → Bool) {k : ℕ} {task : BotSendTask}
    (ha : a = .retainSecret k) (htask : s.tasks[k]? = some task) :
    s.TasksMove verifies a (s.tasks.set k .done) :=
  .inr ⟨k, task, .done, htask, .done a k task (ha ▸ rfl), rfl⟩

/-- What a step does. -/
inductive Did (ver : ℤ) (valid : ℤ → Bool) (verifies : PublishedKeys → Bool) (s : EnvelopeSystem)
    (a : EnvelopeAction) (t : EnvelopeSystem) : Prop where
  | tasks (tasks : List BotSendTask) (hmove : s.TasksMove verifies a tasks)
      (h : t = { s with tasks })
  | keys (b : KeyAction) (keys : KeySystem) (bundles : List E2ePrekeyBundle)
      (woken : List BotSendTask) (hstep : s.keys.step ver b = some keys)
      (ha : a = .keys b ∨ ∃ token req now bots,
        a = .putIdentity token req now bots ∧ b = .putIdentity token req now)
      (hwoken : ∀ task ∈ woken, ∃ c row, task = .waking c ∧
        keys.db.identities.get c.device = some row ∧ row.keyVersion = c.identityVersion)
      (h : t = { s.withKeys keys with bundles, tasks := s.tasks ++ woken })
  | message (m : PendingMessageMarker) (started : List BotSendTask)
      (hnew : s.messages.get m.mid = none) (hstarted : ∀ task ∈ started, task = .sending m)
      (h : t = { s with messages := s.messages.put m.mid m, tasks := s.tasks ++ started })
  | project (mid : ℤ) (m : PendingMessageMarker) (hm : s.messages.get mid = some m)
      (hproject : Projectable valid s.db.tables m)
      (h : t = { s with db := { s.db with tables := s.db.tables.projected m } })
  | append (key : EnvelopeKey) (origin : Origin) (envelope : String) (now : ℤ)
      (tasks : List BotSendTask) (happends : s.Appends a key origin)
      (hfree : s.db.envelopes.get key = none) (hrow : (s.db.tables.pendings.get key.mid).isSome)
      (hmove : s.TasksMove verifies a tasks)
      (h : t = { s.withEnvelope key origin true (s.db.stored key envelope now) with tasks })
  | secret (k : ℕ) (m : PendingMessageMarker) (ha : a = .retainSecret k)
      (htask : s.tasks[k]? = some (.wrapping m [] false)) (hnew : s.db.secrets.get m.mid = none)
      (hrow : (s.db.tables.pendings.get m.mid).isSome)
      (h : t = { s.setTask k .done with
        db := { s.db with secrets := s.db.secrets.put m.mid m.senderUid } })

theorem did_nothing : Did ver valid verifies s a s := .tasks s.tasks (.inl rfl) rfl

theorem did_setTask {k : ℕ} {task task' : BotSendTask} (htask : s.tasks[k]? = some task)
    (hmove : Moves verifies s a k task task') : Did ver valid verifies s a (s.setTask k task') :=
  .tasks _ (.inr ⟨k, task, task', htask, hmove, rfl⟩) rfl

/-- An append of a task. -/
theorem did_appendInternal {k : ℕ} {key : EnvelopeKey} {origin : Origin} {envelope : String}
    {now : ℤ} {next : Bool → BotSendTask} {task : BotSendTask} (htask : s.tasks[k]? = some task)
    (ha : a.task = some k) (happends : s.Appends a key origin)
    (hmove : ∀ added, Moves verifies s a k task (next added)) :
    Did ver valid verifies s a (s.appendInternal k key origin envelope now next) := by
  rw [appendInternal]
  cases happend : s.db.appendEnvelope key envelope now with
  | none => exact did_setTask htask (.done a k task ha)
  | some r =>
    obtain ⟨added, db⟩ := r
    obtain ⟨rfl, -, rfl⟩ | ⟨rfl, hfree, hrow, -, rfl⟩ :=
      EnvelopeTables.appendEnvelope_eq_some.1 happend
    · exact did_setTask htask (hmove false)
    · exact .append key origin envelope now _ happends hfree hrow
        (.inr ⟨k, task, _, htask, hmove true, rfl⟩) rfl

theorem did_post {token : Token} {mid : ℤ} {req : AppendPendingEnvelopeRequest} {now : ℤ}
    {wrappedFor : PublishedKeys}
    (h : s.step ver valid verifies (.post token mid req now wrappedFor) = some t) :
    Did ver valid verifies s (.post token mid req now wrappedFor) t := by
  rw [step] at h
  cases hpost : EnvelopeTables.postPendingEnvelope s.keys.db s.db token mid req now with
  | error e =>
    rw [hpost] at h
    obtain rfl := Option.some_inj.1 h
    exact did_nothing
  | ok r =>
    obtain ⟨key, added, db⟩ := r
    rw [hpost] at h
    obtain rfl := Option.some_inj.1 h
    obtain ⟨-, -, row, hrow, hsender, htarget, version, hversion, rfl, happend⟩ :=
      EnvelopeTables.postPendingEnvelope_eq_ok.1 hpost
    obtain ⟨rfl, -, rfl⟩ | ⟨rfl, hfree, hsome, -, rfl⟩ :=
      EnvelopeTables.appendEnvelope_eq_some.1 happend
    · exact did_nothing
    · exact .append _ _ req.envelope now s.tasks
        (.post token mid req now wrappedFor row version hrow hsender htarget hversion) hfree hsome
        (.inl rfl) rfl

theorem did_putIdentity {token : Token} {req : PutE2eIdentityRequest} {now : ℤ}
    {bots : List Int64}
    (h : s.step ver valid verifies (.putIdentity token req now bots) = some t) :
    Did ver valid verifies s (.putIdentity token req now bots) t := by
  rw [step] at h
  cases hput : s.keys.db.putIdentity ver token req now with
  | error e =>
    rw [hput] at h
    obtain rfl := Option.some_inj.1 h
    exact did_nothing
  | ok r =>
    obtain ⟨version, db⟩ := r
    rw [hput] at h
    obtain rfl := Option.some_inj.1 h
    refine .keys (.putIdentity token req now) { s.keys with db } s.bundles _ ?_
      (.inr ⟨token, req, now, bots, rfl, rfl⟩) ?_ rfl
    · rw [KeySystem.step, hput]
      rfl
    · intro task htask
      obtain ⟨botUid, -, rfl⟩ := List.mem_map.1 htask
      obtain ⟨-, -, -, -, hversion, rfl⟩ := KeyTables.putIdentity_eq_ok.1 hput
      exact ⟨⟨botUid, token.uid, req.deviceId, version⟩, _, rfl, Table.get_put_self _ _ _, hversion⟩

/-- **The cases of a step.** -/
theorem did (h : s.step ver valid verifies a = some t) : Did ver valid verifies s a t := by
  cases a with
  | keys b =>
    rw [step, Option.ite_none_left_eq_some, Option.map_eq_some_iff] at h
    obtain ⟨-, keys, hstep, rfl⟩ := h
    refine .keys b keys (s.bundles ++ (s.bundleOf ver b).toList) [] hstep (.inl rfl)
      (fun task htask ↦ by cases htask) ?_
    rw [List.append_nil]
    rfl
  | putIdentity token req now bots => exact did_putIdentity h
  | sendMessage m =>
    rw [step] at h
    cases hnew : s.messages.get m.mid with
    | some m' =>
      rw [hnew] at h
      cases h
    | none =>
      rw [hnew] at h
      obtain rfl := Option.some_inj.1 h
      refine .message m [] hnew (fun task htask ↦ by cases htask) ?_
      rw [List.append_nil]
  | sendBotDm m =>
    rw [step] at h
    cases hnew : s.messages.get m.mid with
    | some m' =>
      rw [hnew] at h
      cases h
    | none =>
      rw [hnew] at h
      obtain rfl := Option.some_inj.1 h
      exact .message m [.sending m] hnew (fun task htask ↦ List.mem_singleton.1 htask) rfl
  | project mid =>
    rw [step, Option.map_eq_some_iff] at h
    obtain ⟨m, hm, rfl⟩ := h
    by_cases hproject : Projectable valid s.db.tables m
    · rw [projectPendingDmMarker_of_projectable hproject]
      exact .project mid m hm hproject rfl
    · obtain ⟨e, he, -⟩ := projectPendingDmMarker_of_not hproject
      rw [he]
      exact did_nothing
  | post token mid req now wrappedFor => exact did_post h
  | fetchTargetDevices k =>
    rw [step] at h
    split at h
    · rename_i m htask
      obtain rfl := Option.some_inj.1 h
      exact did_setTask htask (.fetched k m)
    · cases h
  | listMids k =>
    rw [step] at h
    split at h
    · rename_i c htask
      split at h
      · obtain rfl := Option.some_inj.1 h
        exact did_setTask htask (.done _ k _ rfl)
      · obtain rfl := Option.some_inj.1 h
        exact did_setTask htask (.listed k c)
    · cases h
  | fetchOneDevice k =>
    rw [step] at h
    split at h
    · rename_i c mids htask
      split at h
      · obtain rfl := Option.some_inj.1 h
        exact did_setTask htask (.done _ k _ rfl)
      · rename_i d hd
        obtain rfl := Option.some_inj.1 h
        obtain ⟨row, hrow, rfl⟩ := KeyTables.of_fetchOneDevice hd
        exact did_setTask htask (.found k c mids row hrow)
    · cases h
  | append k envelope now =>
    obtain ⟨task, htask, h⟩ := Option.bind_eq_some_iff.1 h
    unfold appendNext at h
    split at h
    · rename_i m d devices appendedAny
      cases envelope with
      | none =>
        obtain rfl := Option.some_inj.1 h
        exact did_setTask htask (.wrapped k none now m d devices appendedAny appendedAny)
      | some envelope =>
        obtain rfl := Option.some_inj.1 h
        exact did_appendInternal htask rfl (.send k envelope now m d devices appendedAny htask)
          fun added ↦ .wrapped k (some envelope) now m d devices appendedAny (appendedAny || added)
    · rename_i c mid mids keys
      cases hsecret : s.db.secrets.get mid with
      | none =>
        rw [hsecret] at h
        obtain rfl := Option.some_inj.1 h
        exact did_setTask htask (.caughtUp k envelope now c mid mids keys)
      | some uid =>
        rw [hsecret] at h
        cases envelope with
        | none =>
          obtain rfl := Option.some_inj.1 h
          exact did_setTask htask (.caughtUp k none now c mid mids keys)
        | some envelope =>
          obtain rfl := Option.some_inj.1 h
          exact did_appendInternal htask rfl
            (.catchUp k envelope now c mid mids keys htask (hsecret ▸ rfl))
            fun _ ↦ .caughtUp k (some envelope) now c mid mids keys
    · cases h
  | retainSecret k =>
    rw [step] at h
    split at h
    · rename_i m htask
      obtain rfl := Option.some_inj.1 h
      exact did_setTask htask (.done _ k _ rfl)
    · rename_i m htask
      cases hinsert : s.db.insertSecret m.mid m.senderUid with
      | none =>
        rw [hinsert] at h
        obtain rfl := Option.some_inj.1 h
        exact did_setTask htask (.done _ k _ rfl)
      | some db =>
        rw [hinsert] at h
        obtain rfl := Option.some_inj.1 h
        obtain ⟨-, rfl⟩ | ⟨hnew, hrow, -, rfl⟩ := EnvelopeTables.insertSecret_eq_some.1 hinsert
        · exact did_setTask htask (.done _ k _ rfl)
        · exact .secret k m rfl htask hnew hrow rfl
    · cases h

end EnvelopeSystem

end VoceChat
