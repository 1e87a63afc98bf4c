import VoceChat.Envelopes.System

/-!
# Where envelopes go

An envelope is stored for a device of the target of its message, on behalf of the sender of the
message, and for a version that the device has published. That is checked when a client posts it.
The bot engine checks nothing when it appends: its tasks hold what they read earlier, which is still
right because messages stay and versions only rise.

`addressed_of_run` says so of every run in which identities are published, retired and removed; and
that a message is completed exactly when it has an envelope, and that envelopes stay as they are.
-/

namespace VoceChat

/-- The device has published this version. -/
def KeyTables.Reached (db : KeyTables) (k : DeviceKey) (version : ℤ) : Prop :=
  1 ≤ version ∧ ∃ row, db.identities.get k = some row ∧ version ≤ row.keyVersion

theorem KeyTables.Reached.mono {db db' : KeyTables} {k : DeviceKey} {version : ℤ}
    (h : db.Reached k version) (hrises : db.Rises db') : db'.Reached k version := by
  obtain ⟨hpos, row, hrow, hle⟩ := h
  obtain ⟨row', hrow', hraised⟩ := hrises k row hrow
  exact ⟨hpos, row', hrow', hle.trans hraised.1⟩

theorem KeyTables.VersionsPositive.reached {db : KeyTables} {k : DeviceKey} {row : IdentityRow}
    (h : db.VersionsPositive) (hrow : db.identities.get k = some row) :
    db.Reached k row.keyVersion :=
  ⟨h k row hrow, row, hrow, le_refl _⟩

/-- The message stored under this id has this sender and this target. -/
def IsMessage (messages : Table ℤ PendingMessageMarker) (mid : ℤ) (senderUid targetUid : Int64) :
    Prop :=
  ∃ m, messages.get mid = some m ∧ m.senderUid = senderUid ∧ m.targetUid = targetUid

/-- What a task holds: a message that was sent, and versions that were published. -/
def BotSendTask.Ok (messages : Table ℤ PendingMessageMarker) (db : KeyTables) :
    BotSendTask → Prop
  | .sending m => messages.get m.mid = some m
  | .wrapping m devices _ =>
    messages.get m.mid = some m ∧ ∀ d ∈ devices, db.Reached (m.targetUid, d.deviceId) d.keyVersion
  | .waking c => db.Reached c.device c.identityVersion
  | .fetching c mids | .catchingUp c mids _ =>
    db.Reached c.device c.identityVersion ∧
      ∀ mid ∈ mids, IsMessage messages mid c.botUid c.targetUid
  | .done => True

theorem BotSendTask.Ok.mono {messages messages' : Table ℤ PendingMessageMarker}
    {db db' : KeyTables} {task : BotSendTask} (h : task.Ok messages db)
    (hmessages : ∀ mid m, messages.get mid = some m → messages'.get mid = some m)
    (hrises : db.Rises db') : task.Ok messages' db' := by
  have hmids : ∀ {c : CatchUp} {mids : List ℤ},
      (∀ mid ∈ mids, IsMessage messages mid c.botUid c.targetUid) →
        ∀ mid ∈ mids, IsMessage messages' mid c.botUid c.targetUid := by
    intro c mids h mid hmid
    obtain ⟨m, hm, hrest⟩ := h mid hmid
    exact ⟨m, hmessages mid m hm, hrest⟩
  cases task with
  | sending m => exact hmessages _ m h
  | wrapping m devices any => exact ⟨hmessages _ m h.1, fun d hd ↦ (h.2 d hd).mono hrises⟩
  | waking c => exact KeyTables.Reached.mono h hrises
  | fetching c mids => exact ⟨h.1.mono hrises, hmids h.2⟩
  | catchingUp c mids keys => exact ⟨h.1.mono hrises, hmids h.2⟩
  | done => trivial

/-- A transaction of a bot about its own identity. -/
def EnvelopeAction.isCommit : EnvelopeAction → Bool
  | .keys (.commit ..) => true
  | _ => false

namespace EnvelopeSystem

/-- Messages and their envelopes. -/
structure Addressed (s : EnvelopeSystem) : Prop where
  /-- A message is completed when it has an envelope. -/
  completed : ∀ mid row, s.db.tables.pendings.get mid = some row →
    (row.completedAt.isSome ↔ ∃ key env, s.db.envelopes.get key = some env ∧ key.mid = mid)
  /-- An envelope is for the target, and from the sender. -/
  target : ∀ key env, s.db.envelopes.get key = some env → ∃ row origin,
    s.db.tables.pendings.get key.mid = some row ∧ s.origins.get key = some origin ∧
      key.recipientUid = row.targetUid ∧ origin.senderUid = row.senderUid
  /-- It is for a version of the device that is not beyond its current one. -/
  version : ∀ key env, s.db.envelopes.get key = some env → 1 ≤ key.identityVersion ∧
    ∃ row, s.keys.db.identities.get key.device = some row ∧ key.identityVersion ≤ row.keyVersion

structure Inv (s : EnvelopeSystem) : Prop where
  devices : s.keys.db.DevicesExist
  positive : s.keys.db.VersionsPositive
  messages : ∀ mid m, s.messages.get mid = some m → m.mid = mid
  rows : ∀ mid row, s.db.tables.pendings.get mid = some row →
    IsMessage s.messages mid row.senderUid row.targetUid
  tasks : ∀ task ∈ s.tasks, task.Ok s.messages s.keys.db
  addressed : s.Addressed

/-- What a bot writes about identities is in order. -/
def InOrder (s : EnvelopeSystem) : EnvelopeAction → Prop
  | .keys a => s.keys.InOrder a
  | _ => True

variable {ver : ℤ} {valid : ℤ → Bool} {verifies : PublishedKeys → Bool} {s t : EnvelopeSystem}
  {a : EnvelopeAction}

theorem InOrder.keys (hok : s.InOrder a) {b : KeyAction}
    (ha : a = .keys b ∨ ∃ token req now bots,
      a = .putIdentity token req now bots ∧ b = .putIdentity token req now) :
    s.keys.InOrder b := by
  rcases ha with rfl | ⟨token, req, now, bots, rfl, rfl⟩
  · exact hok
  · trivial

theorem inv_init (users : List Int64) : (init users).Inv where
  devices _ _ h := by cases h
  positive _ _ h := by cases h
  messages _ _ h := by cases h
  rows _ _ h := by cases h
  tasks _ h := by cases h
  addressed :=
    ⟨(fun _ _ h ↦ by cases h), (fun _ _ h ↦ by cases h), (fun _ _ h ↦ by cases h)⟩

/-! ### Tasks -/

theorem Inv.ok_of_moves (h : s.Inv) {k : ℕ} {task task' : BotSendTask}
    (hok : task.Ok s.messages s.keys.db) (hmove : Moves verifies s a k task task') :
    task'.Ok s.messages s.keys.db := by
  cases hmove with
  | fetched _ m =>
    refine ⟨hok, fun d hd ↦ ?_⟩
    obtain ⟨row, hrow, hversion, -⟩ := KeyTables.mem_fetchTargetDevices hd
    exact hversion ▸ h.positive.reached hrow
  | wrapped _ envelope now m d devices any any' =>
    exact ⟨hok.1, fun d' hd' ↦ hok.2 d' (List.mem_cons_of_mem _ hd')⟩
  | listed _ c =>
    refine ⟨hok, fun mid hmid ↦ ?_⟩
    obtain ⟨row, hrow, hsender, htarget⟩ := EnvelopeTables.mem_waitingMids hmid
    exact hsender ▸ htarget ▸ h.rows mid row hrow
  | found _ c mids row hrow => exact hok
  | caughtUp _ envelope now c mid mids keys =>
    exact ⟨hok.1, fun mid' hmid' ↦ hok.2 mid' (List.mem_cons_of_mem _ hmid')⟩
  | done => trivial

theorem Inv.ok_of_tasksMove (h : s.Inv) {tasks : List BotSendTask}
    (hmove : s.TasksMove verifies a tasks) : ∀ task ∈ tasks, task.Ok s.messages s.keys.db := by
  rcases hmove with rfl | ⟨k, task, task', htask, hmove, rfl⟩
  · exact h.tasks
  · intro task'' htask''
    rcases List.mem_or_eq_of_mem_set htask'' with htask'' | rfl
    · exact h.tasks task'' htask''
    · exact h.ok_of_moves (h.tasks task (List.mem_of_getElem? htask)) hmove

/-! ### Envelopes -/

/-- Who appends an envelope: the sender of the message, for its target, and for a version that was
published. -/
theorem Inv.of_appends (h : s.Inv) {key : EnvelopeKey} {origin : Origin}
    (happends : s.Appends a key origin) :
    IsMessage s.messages key.mid origin.senderUid key.recipientUid ∧
      s.keys.db.Reached key.device key.identityVersion := by
  cases happends with
  | post token mid req now wrappedFor row version hrow hsender htarget hversion =>
    obtain ⟨identity, hidentity, -, rfl⟩ := KeyTables.of_liveVersion hversion
    refine ⟨?_, h.positive.reached hidentity⟩
    show IsMessage s.messages mid token.uid req.recipientUid
    rw [← hsender, htarget]
    exact h.rows mid row hrow
  | send k envelope now m d devices any htask =>
    obtain ⟨hm, hdevices⟩ := h.tasks _ (List.mem_of_getElem? htask)
    exact ⟨⟨m, hm, rfl, rfl⟩, hdevices d List.mem_cons_self⟩
  | catchUp k envelope now c mid mids keys htask hsecret =>
    obtain ⟨hreached, hmids⟩ := h.tasks _ (List.mem_of_getElem? htask)
    exact ⟨hmids mid List.mem_cons_self, hreached⟩

/-- The rows of an id and its message name the same users. -/
theorem Inv.row_of_isMessage (h : s.Inv) {mid : ℤ} {row : PendingRow} {senderUid targetUid : Int64}
    (hrow : s.db.tables.pendings.get mid = some row)
    (hm : IsMessage s.messages mid senderUid targetUid) :
    targetUid = row.targetUid ∧ senderUid = row.senderUid := by
  obtain ⟨m, hget, hsender, htarget⟩ := hm
  obtain ⟨m', hget', hsender', htarget'⟩ := h.rows mid row hrow
  obtain rfl := Option.some_inj.1 (hget.symm.trans hget')
  exact ⟨htarget.symm.trans htarget', hsender.symm.trans hsender'⟩

theorem get_stored {db : EnvelopeTables} {key l : EnvelopeKey} {envelope : String} {now : ℤ} :
    (db.stored key envelope now).envelopes.get l =
      if l = key then some ⟨envelope, now⟩ else db.envelopes.get l :=
  Table.get_put _ _ _ _

/-- Completing one message changes nothing else of the rows. -/
theorem pendings_stored {db : EnvelopeTables} {key : EnvelopeKey} {envelope : String} {now mid : ℤ}
    {row : PendingRow} (h : (db.stored key envelope now).tables.pendings.get mid = some row) :
    ∃ row', db.tables.pendings.get mid = some row' ∧ row.senderUid = row'.senderUid ∧
      row.targetUid = row'.targetUid ∧
      row.completedAt = if mid = key.mid then row'.completedAt.or (some now)
      else row'.completedAt := by
  have hget := h
  rw [EnvelopeTables.stored, EnvelopeTables.get_complete] at hget
  by_cases hmid : mid = key.mid
  · rw [if_pos hmid, Option.map_eq_some_iff] at hget
    obtain ⟨row', hrow', rfl⟩ := hget
    exact ⟨row', hrow', rfl, rfl, (if_pos hmid).symm⟩
  · rw [if_neg hmid] at hget
    exact ⟨row, hget, rfl, rfl, (if_neg hmid).symm⟩

/-- An envelope that is appended. -/
theorem Addressed.append (h : s.Inv) {key : EnvelopeKey} {origin : Origin} {envelope : String}
    {now : ℤ} (happends : s.Appends a key origin) (hfree : s.db.envelopes.get key = none)
    (hrow : (s.db.tables.pendings.get key.mid).isSome) :
    (s.withEnvelope key origin true (s.db.stored key envelope now)).Addressed := by
  obtain ⟨hmessage, hreached⟩ := h.of_appends happends
  have hrows : ∀ mid row, s.db.tables.pendings.get mid = some row → ∃ row',
      (s.db.stored key envelope now).tables.pendings.get mid = some row' ∧
        row'.senderUid = row.senderUid ∧ row'.targetUid = row.targetUid := by
    intro mid row hget
    rw [EnvelopeTables.stored, EnvelopeTables.get_complete, hget]
    by_cases hmid : mid = key.mid
    · exact ⟨{ row with completedAt := row.completedAt.or (some now) }, if_pos hmid, rfl, rfl⟩
    · exact ⟨row, if_neg hmid, rfl, rfl⟩
  refine ⟨fun mid row hget ↦ ?_, fun l env hget ↦ ?_, fun l env hget ↦ ?_⟩
  · obtain ⟨row', hrow', -, -, hcompleted⟩ := pendings_stored hget
    rw [hcompleted]
    by_cases hmid : mid = key.mid
    · rw [if_pos hmid]
      refine iff_of_true ?_ ⟨key, ⟨envelope, now⟩, get_stored.trans (if_pos rfl), hmid.symm⟩
      cases row'.completedAt <;> rfl
    · rw [if_neg hmid, h.addressed.completed mid row' hrow']
      -- the envelopes of another message are what they were
      refine exists_congr fun l ↦ exists_congr fun env ↦ and_congr_left fun hl ↦ ?_
      have hne : l ≠ key := fun heq ↦ hmid (hl.symm.trans (congrArg EnvelopeKey.mid heq))
      exact Eq.congr_left (get_stored.trans (if_neg hne)).symm
  · rw [show (s.withEnvelope key origin true (s.db.stored key envelope now)).origins =
      s.origins.put key origin from rfl, Table.get_put]
    by_cases hl : l = key
    · subst hl
      obtain ⟨row, hget⟩ := Option.isSome_iff_exists.1 hrow
      obtain ⟨htarget, hsender⟩ := h.row_of_isMessage hget hmessage
      obtain ⟨row', hget', hsender', htarget'⟩ := hrows _ row hget
      exact ⟨row', origin, hget', if_pos rfl, htarget.trans htarget'.symm,
        hsender.trans hsender'.symm⟩
    · obtain ⟨row, origin', hget', horigin', htarget, hsender⟩ :=
        h.addressed.target l env ((get_stored.trans (if_neg hl)).symm.trans hget)
      obtain ⟨row', hget'', hsender', htarget'⟩ := hrows _ row hget'
      exact ⟨row', origin', hget'', (if_neg hl).trans horigin', htarget.trans htarget'.symm,
        hsender.trans hsender'.symm⟩
  · by_cases hl : l = key
    · exact hl ▸ hreached
    · exact h.addressed.version l env ((get_stored.trans (if_neg hl)).symm.trans hget)

/-- A row that is projected is that of its message, and has no envelope yet. -/
theorem Addressed.project (h : s.Inv) {m : PendingMessageMarker} :
    Addressed { s with db := { s.db with tables := s.db.tables.projected m } } := by
  refine ⟨fun mid row hget ↦ ?_, fun l env hget ↦ ?_, h.addressed.version⟩
  · rw [PendingTables.get_projected] at hget
    by_cases hmid : mid = m.mid
    · rw [if_pos hmid, Option.some_inj] at hget
      cases hrow : s.db.tables.pendings.get mid with
      | some row' =>
        rw [hrow, Option.getD_some] at hget
        exact hget ▸ h.addressed.completed mid row' hrow
      | none =>
        rw [hrow, Option.getD_none] at hget
        obtain rfl := hget
        refine iff_of_false (fun h ↦ by cases h) ?_
        rintro ⟨l, env, henv, rfl⟩
        obtain ⟨row, -, hrow', -⟩ := h.addressed.target l env henv
        rw [hrow] at hrow'
        cases hrow'
    · rw [if_neg hmid] at hget
      exact h.addressed.completed mid row hget
  · obtain ⟨row, origin, hrow, horigin, hrest⟩ := h.addressed.target l env hget
    refine ⟨row, origin, ?_, horigin, hrest⟩
    rw [PendingTables.get_projected, hrow]
    split <;> rfl

/-! ### What a step keeps -/

theorem Inv.step (h : s.Inv) (hok : s.InOrder a) (hstep : s.step ver valid verifies a = some t) :
    t.Inv := by
  rcases did hstep with ⟨tasks, hmove, rfl⟩ |
    ⟨b, keys, bundles, woken, hkeys, ha, hwoken, rfl⟩ | ⟨m, started, hnew, hstarted, rfl⟩ |
    ⟨mid, m, hm, hproject, rfl⟩ |
    ⟨key, origin, envelope, now, tasks, happends, hfree, hrow, hmove, rfl⟩ |
    ⟨k, m, ha, htask, hnew, hrow, rfl⟩
  · exact ⟨h.devices, h.positive, h.messages, h.rows, h.ok_of_tasksMove hmove,
      h.addressed.completed, h.addressed.target, h.addressed.version⟩
  · have horder := hok.keys ha
    obtain ⟨hrises, hdevices⟩ := KeySystem.rises_of_step h.devices horder hkeys
    have hpositive := KeySystem.versionsPositive_step h.positive horder hkeys
    refine ⟨hdevices, hpositive, h.messages, h.rows, fun task htask ↦ ?_, h.addressed.completed,
      h.addressed.target, fun l env hget ↦ ?_⟩
    · rcases List.mem_append.1 htask with htask | htask
      · exact (h.tasks task htask).mono (fun _ _ hm ↦ hm) hrises
      · obtain ⟨c, row, rfl, hrow, hversion⟩ := hwoken task htask
        show keys.db.Reached c.device c.identityVersion
        exact hversion ▸ hpositive.reached hrow
    · exact KeyTables.Reached.mono (h.addressed.version l env hget) hrises
  · have hkept : ∀ mid m', s.messages.get mid = some m' →
        (s.messages.put m.mid m).get mid = some m' := by
      intro mid m' hm'
      rw [Table.get_put_of_ne _ _ fun heq ↦ ?_, hm']
      rw [heq, hnew] at hm'
      cases hm'
    refine ⟨h.devices, h.positive, Table.forall_get_put h.messages rfl, fun mid row hrow ↦ ?_,
      fun task htask ↦ ?_, h.addressed.completed, h.addressed.target, h.addressed.version⟩
    · obtain ⟨m', hm', hrest⟩ := h.rows mid row hrow
      exact ⟨m', hkept mid m' hm', hrest⟩
    · rcases List.mem_append.1 htask with htask | htask
      · exact (h.tasks task htask).mono hkept (.of_eq rfl)
      · obtain rfl := hstarted task htask
        exact Table.get_put_self _ _ _
  · refine ⟨h.devices, h.positive, h.messages, fun mid' row hget ↦ ?_, h.tasks, .project h⟩
    rw [PendingTables.get_projected] at hget
    by_cases hmid : mid' = m.mid
    · rw [if_pos hmid, Option.some_inj] at hget
      cases hrow : s.db.tables.pendings.get mid' with
      | some row' =>
        rw [hrow, Option.getD_some] at hget
        exact hget ▸ h.rows mid' row' hrow
      | none =>
        rw [hrow, Option.getD_none] at hget
        obtain rfl := hget
        refine ⟨m, ?_, rfl, rfl⟩
        rw [hmid, h.messages mid m hm]
        exact hm
    · rw [if_neg hmid] at hget
      exact h.rows mid' row hget
  · refine ⟨h.devices, h.positive, h.messages, fun mid row hget ↦ ?_, h.ok_of_tasksMove hmove, ?_⟩
    · obtain ⟨row', hrow', hsender, htarget, -⟩ := pendings_stored hget
      exact hsender ▸ htarget ▸ h.rows mid row' hrow'
    · have haddressed : (s.withEnvelope key origin true (s.db.stored key envelope now)).Addressed :=
        .append h happends hfree hrow
      exact ⟨haddressed.completed, haddressed.target, haddressed.version⟩
  · exact ⟨h.devices, h.positive, h.messages, h.rows,
      h.ok_of_tasksMove (tasksMove_retainSecret verifies ha htask), h.addressed.completed,
      h.addressed.target, h.addressed.version⟩

/-- A stored envelope stays as it is. -/
theorem envelopes_kept (hstep : s.step ver valid verifies a = some t) {key : EnvelopeKey}
    {row : EnvelopeRow} (hget : s.db.envelopes.get key = some row) :
    t.db.envelopes.get key = some row := by
  rcases did hstep with ⟨tasks, -, rfl⟩ | ⟨b, keys, bundles, woken, -, -, -, rfl⟩ |
    ⟨m, started, -, -, rfl⟩ | ⟨mid, m, -, -, rfl⟩ |
    ⟨key', origin, envelope, now, tasks, -, hfree, -, -, rfl⟩ | ⟨k, m, -, -, -, -, rfl⟩
  · exact hget
  · exact hget
  · exact hget
  · exact hget
  · refine (get_stored.trans (if_neg fun heq ↦ ?_)).trans hget
    rw [heq, hfree] at hget
    cases hget
  · exact hget

/-! ### Runs -/

theorem inv_of_run {users : List Int64} {actions : List EnvelopeAction}
    (hok : Transition.Along (EnvelopeSystem.step ver valid verifies) InOrder (init users) actions)
    (hrun : Transition.run (EnvelopeSystem.step ver valid verifies) (init users) actions = some s) :
    s.Inv :=
  Transition.run_induction_along (fun _ _ _ h hok hstep ↦ h.step hok hstep)
    (inv_init users) hok hrun

/-- Without a transaction of a bot everything about identities is in order. -/
theorem along_inOrder {actions : List EnvelopeAction}
    (h : ∀ a ∈ actions, a.isCommit = false) (s : EnvelopeSystem) :
    Transition.Along (EnvelopeSystem.step ver valid verifies) InOrder s actions := by
  induction actions generalizing s with
  | nil => trivial
  | cons a actions ih =>
    refine ⟨?_, fun t _ ↦ ih (fun b hb ↦ h b (List.mem_cons_of_mem _ hb)) t⟩
    have ha := h a List.mem_cons_self
    cases a with
    | keys b =>
      cases b with
      | commit i generated now => cases ha
      | _ => trivial
    | _ => trivial

/-- **Envelopes go where they should.** In every run without transactions of bots about their own
identities, messages are completed exactly when they have an envelope; every envelope is for the
target of its message, from its sender, and for a version the device has published; there is one
under a key; and from any earlier state on it stays as it is. -/
theorem addressed_of_run {users : List Int64} {earlier later : List EnvelopeAction}
    (hcommit : ∀ a ∈ earlier ++ later, a.isCommit = false)
    (hs : Transition.run (EnvelopeSystem.step ver valid verifies) (init users) earlier = some s)
    (ht : Transition.run (EnvelopeSystem.step ver valid verifies) s later = some t) :
    t.Addressed ∧ (t.db.envelopes.rows.map Prod.fst).Nodup ∧
      ∀ key row, s.db.envelopes.get key = some row → t.db.envelopes.get key = some row := by
  have hrun : Transition.run (EnvelopeSystem.step ver valid verifies) (init users)
      (earlier ++ later) = some t := by
    rw [Transition.run_append, hs]
    exact ht
  refine ⟨(inv_of_run (along_inOrder hcommit _) hrun).addressed, t.db.envelopes.nodup,
    fun key row hget ↦ ?_⟩
  exact Transition.run_induction
    (I := fun u : EnvelopeSystem ↦ u.db.envelopes.get key = some row)
    (fun _ _ _ h hstep ↦ envelopes_kept hstep h) hget ht

/-! ### A message that gets an envelope later -/

/-- User `1` writes to user `2`, who has no device yet. When the phone of `2` has published its
keys, `1` posts an envelope from the browser. -/
def latePhone : List EnvelopeAction :=
  [.keys (.login 1 "web"), .sendMessage ⟨1, 1, 2, 0⟩, .project 1, .keys (.login 2 "phone"),
    .putIdentity ⟨2, "phone", false, false⟩
      ⟨"phone", "identity", some "prekey", some "signature"⟩ 1 [],
    .post ⟨1, "web", false, false⟩ 1 ⟨2, "phone", "envelope"⟩ 2
      ⟨"identity", some "prekey", some "signature"⟩]

/-- The message of `latePhone` is completed, and the envelope stays when the phone logs out. -/
theorem addressed_of_run_latePhone : ∃ s t,
    Transition.run (EnvelopeSystem.step 2 (fun _ ↦ true) fun _ ↦ true) (init [1, 2]) latePhone =
      some s ∧
    s.step 2 (fun _ ↦ true) (fun _ ↦ true) (.keys (.logout ⟨2, "phone", false, false⟩ 3)) =
      some t ∧
    s.db.tables.pendings.get 1 = some ⟨1, 2, some 2, 0⟩ ∧
    t.db.envelopes.get ⟨1, 2, "phone", 1⟩ = some ⟨"envelope", 2⟩ ∧ t.Addressed := by
  have hrun : ((Transition.run (EnvelopeSystem.step 2 (fun _ ↦ true) fun _ ↦ true) (init [1, 2])
      latePhone).bind fun s ↦
        (s.step 2 (fun _ ↦ true) (fun _ ↦ true) (.keys (.logout ⟨2, "phone", false, false⟩ 3))).map
          fun _ ↦ (s.db.tables.pendings.get 1, s.db.envelopes.get ⟨1, 2, "phone", 1⟩)) =
      some (some ⟨1, 2, some 2, 0⟩, some ⟨"envelope", 2⟩) := rfl
  obtain ⟨s, hs, hrun⟩ := Option.bind_eq_some_iff.1 hrun
  obtain ⟨t, ht, hfacts⟩ := Option.map_eq_some_iff.1 hrun
  obtain ⟨hrow, henvelope⟩ := Prod.ext_iff.1 hfacts
  have hcommit : ∀ a ∈ latePhone ++ [.keys (.logout ⟨2, "phone", false, false⟩ 3)],
      a.isCommit = false := by
    decide
  obtain ⟨haddressed, -, hkept⟩ := addressed_of_run hcommit hs
    (Transition.run_cons_eq_some.2 ⟨t, ht, rfl⟩)
  exact ⟨s, t, hs, ht, hrow, hkept _ _ henvelope, haddressed⟩

end EnvelopeSystem

end VoceChat
