import VoceChat.Envelopes.Addressing

/-!
# What envelopes are wrapped for

A sender wraps a content key for the keys it was given, and the envelope is stored under a version
that is looked up at another time. A client gets its bundle without a version and posts later
(`post_pending_envelope` takes the version of that moment). A bot that catches up stores under the
version it was called for what it wraps for the keys that it fetches then. Only `send_bot_dm` reads
keys and version together.

`wrapsMatch_of_run` gives the condition under which every envelope was wrapped for the keys that
were published as its version. Then an envelope that finds its key taken is not missed. In
`not_wrapsMatch_staleKeys` a device publishes new keys in between.
-/

namespace VoceChat

/-- Every publication is recorded, under one set of keys for a version, and nothing else: the
current row of a device is raised from everything it published. -/
structure KeyTables.RecordedIn (db : KeyTables) (published : List (DeviceKey × ℤ × PublishedKeys)) :
    Prop where
  current : ∀ k row, db.identities.get k = some row → (k, row.keyVersion, row.keys) ∈ published
  raised : ∀ k version keys, (k, version, keys) ∈ published → ∃ row,
    db.identities.get k = some row ∧ IdentityRow.RaisedTo ⟨keys, 0, version, none⟩ row
  unique : ∀ k version keys keys', (k, version, keys) ∈ published →
    (k, version, keys') ∈ published → keys = keys'

namespace KeyTables

variable {db db' : KeyTables} {published : List (DeviceKey × ℤ × PublishedKeys)} {k : DeviceKey}
  {version : ℤ} {keys : PublishedKeys}

theorem mem_publications : (k, version, keys) ∈ db.publications ↔
    ∃ row, db.identities.get k = some row ∧ version = row.keyVersion ∧ keys = row.keys := by
  rw [publications, List.mem_map]
  constructor
  · rintro ⟨⟨k', row⟩, hr, heq⟩
    obtain ⟨rfl, heq⟩ := Prod.ext_iff.1 heq
    obtain ⟨rfl, rfl⟩ := Prod.ext_iff.1 heq
    exact ⟨row, Table.get_eq_some.2 hr, rfl, rfl⟩
  · rintro ⟨row, hrow, rfl, rfl⟩
    exact ⟨(k, row), Table.get_eq_some.1 hrow, rfl⟩

/-- The record goes on while versions rise. -/
theorem RecordedIn.append (h : db.RecordedIn published) (hrises : db.Rises db') :
    db'.RecordedIn (published ++ db'.publications) := by
  have hraised : ∀ k version keys, (k, version, keys) ∈ published ++ db'.publications → ∃ row,
      db'.identities.get k = some row ∧ IdentityRow.RaisedTo ⟨keys, 0, version, none⟩ row := by
    intro k version keys hmem
    rcases List.mem_append.1 hmem with hmem | hmem
    · obtain ⟨row, hrow, hfrom⟩ := h.raised k version keys hmem
      obtain ⟨row', hrow', hto⟩ := hrises k row hrow
      exact ⟨row', hrow', hfrom.trans hto⟩
    · obtain ⟨row, hrow, rfl, rfl⟩ := mem_publications.1 hmem
      exact ⟨row, hrow, le_refl _, fun hne ↦ absurd rfl hne⟩
  -- an earlier publication under the version of a row has its keys
  have hsame : ∀ {k version keys keys'}, (k, version, keys) ∈ published →
      (k, version, keys') ∈ db'.publications → keys' = keys := by
    intro k version keys keys' hmem hmem'
    obtain ⟨row, hrow, rfl, rfl⟩ := mem_publications.1 hmem'
    obtain ⟨row', hrow', hfrom⟩ := hraised k _ keys (List.mem_append_left _ hmem)
    obtain rfl := Option.some_inj.1 (hrow.symm.trans hrow')
    by_contra hne
    exact lt_irrefl _ (hfrom.2 hne)
  refine ⟨fun k row hrow ↦ ?_, hraised, fun k version keys keys' hmem hmem' ↦ ?_⟩
  · exact List.mem_append_right _ (mem_publications.2 ⟨row, hrow, rfl, rfl⟩)
  · rcases List.mem_append.1 hmem with hold | hnew <;>
      rcases List.mem_append.1 hmem' with hold' | hnew'
    · exact h.unique k version keys keys' hold hold'
    · exact (hsame hold hnew').symm
    · exact hsame hold' hnew
    · obtain ⟨row, hrow, -, rfl⟩ := mem_publications.1 hnew
      obtain ⟨row', hrow', -, rfl⟩ := mem_publications.1 hnew'
      obtain rfl := Option.some_inj.1 (hrow.symm.trans hrow')
      rfl

end KeyTables

/-- The keys that a task holds were published as the versions it stores envelopes under. -/
def BotSendTask.HoldsPublished (published : List (DeviceKey × ℤ × PublishedKeys)) :
    BotSendTask → Prop
  | .wrapping m devices _ =>
    ∀ d ∈ devices, ((m.targetUid, d.deviceId), d.keyVersion, d.keys) ∈ published
  | .catchingUp c _ keys => (c.device, c.identityVersion, keys) ∈ published
  | .sending _ | .waking _ | .fetching .. | .done => True

theorem BotSendTask.HoldsPublished.mono {published : List (DeviceKey × ℤ × PublishedKeys)}
    {task : BotSendTask} (h : task.HoldsPublished published)
    (more : List (DeviceKey × ℤ × PublishedKeys)) : task.HoldsPublished (published ++ more) := by
  cases task with
  | wrapping m devices any => exact fun d hd ↦ List.mem_append_left _ (h d hd)
  | catchingUp c mids keys => exact List.mem_append_left _ h
  | sending _ | waking _ | fetching _ _ | done => trivial

/-- A bot that catches up finds the keys of the version it was called for. -/
def BotSendTask.FindsKeys (db : KeyTables) (published : List (DeviceKey × ℤ × PublishedKeys)) :
    BotSendTask → Prop
  | .fetching c _ =>
    ∀ row ∈ db.identities.get c.device, (c.device, c.identityVersion, row.keys) ∈ published
  | .sending _ | .wrapping .. | .waking _ | .catchingUp .. | .done => True

instance (db : KeyTables) (published : List (DeviceKey × ℤ × PublishedKeys)) :
    ∀ task : BotSendTask, Decidable (task.FindsKeys db published)
  | .fetching c _ => inferInstanceAs (Decidable
    (∀ row ∈ db.identities.get c.device, (c.device, c.identityVersion, row.keys) ∈ published))
  | .sending _ | .wrapping .. | .waking _ | .catchingUp .. | .done => .isTrue trivial

namespace EnvelopeSystem

variable {ver : ℤ} {valid : ℤ → Bool} {verifies : PublishedKeys → Bool} {s t : EnvelopeSystem}
  {a : EnvelopeAction}

/-- Every envelope was wrapped for the keys that were published as its version. -/
def WrapsMatch (s : EnvelopeSystem) : Prop :=
  ∀ key row, s.db.envelopes.get key = some row → ∃ origin, s.origins.get key = some origin ∧
    (key.device, key.identityVersion, origin.wrappedFor) ∈ s.published ∧
    ∀ keys, (key.device, key.identityVersion, keys) ∈ s.published → keys = origin.wrappedFor

/-- Nobody wraps for keys that have changed: a post of the sender for a current device, under a free
key, was wrapped for the current keys of the device, and a bot that catches up finds the keys of the
version it was called for. And what a bot writes about its own identity is in order. -/
def WrapsCurrent (s : EnvelopeSystem) : EnvelopeAction → Prop
  | .keys a => s.keys.InOrder a
  | .post token mid req _ wrappedFor =>
    ∀ pending ∈ s.db.tables.pendings.get mid,
      ∀ row ∈ s.keys.db.identities.get (req.recipientUid, req.deviceId),
        pending.senderUid = token.uid ∧ s.keys.db.Live (req.recipientUid, req.deviceId) row ∧
            s.db.envelopes.get ⟨mid, req.recipientUid, req.deviceId, row.keyVersion⟩ = none →
          row.keys = wrappedFor
  | .fetchOneDevice k => ∀ task ∈ s.tasks[k]?, task.FindsKeys s.keys.db s.published
  | .putIdentity .. | .sendMessage _ | .sendBotDm _ | .project _ | .fetchTargetDevices _
  | .listMids _ | .append .. | .retainSecret _ => True

instance (s : EnvelopeSystem) : ∀ a, Decidable (s.WrapsCurrent a)
  | .keys a => inferInstanceAs (Decidable (s.keys.InOrder a))
  | .post token mid req _ wrappedFor => inferInstanceAs (Decidable
    (∀ pending ∈ s.db.tables.pendings.get mid,
      ∀ row ∈ s.keys.db.identities.get (req.recipientUid, req.deviceId),
        pending.senderUid = token.uid ∧ s.keys.db.Live (req.recipientUid, req.deviceId) row ∧
            s.db.envelopes.get ⟨mid, req.recipientUid, req.deviceId, row.keyVersion⟩ = none →
          row.keys = wrappedFor))
  | .fetchOneDevice k => inferInstanceAs (Decidable
    (∀ task ∈ s.tasks[k]?, task.FindsKeys s.keys.db s.published))
  | .putIdentity .. | .sendMessage _ | .sendBotDm _ | .project _ | .fetchTargetDevices _
  | .listMids _ | .append .. | .retainSecret _ => .isTrue trivial

theorem WrapsCurrent.inOrder (h : s.WrapsCurrent a) : s.InOrder a := by
  cases a with
  | keys b => exact h
  | _ => trivial

/-- The keys of stored envelopes and of tasks are among the published ones. -/
structure Recorded (s : EnvelopeSystem) : Prop where
  devices : s.keys.db.DevicesExist
  keys : s.keys.db.RecordedIn s.published
  tasks : ∀ task ∈ s.tasks, task.HoldsPublished s.published
  envelopes : ∀ key row, s.db.envelopes.get key = some row → ∃ origin,
    s.origins.get key = some origin ∧
      (key.device, key.identityVersion, origin.wrappedFor) ∈ s.published

theorem Recorded.wrapsMatch (h : s.Recorded) : s.WrapsMatch := by
  intro key row hget
  obtain ⟨origin, horigin, hmem⟩ := h.envelopes key row hget
  exact ⟨origin, horigin, hmem, fun keys hkeys ↦ h.keys.unique _ _ _ _ hkeys hmem⟩

theorem recorded_init (users : List Int64) : (init users).Recorded where
  devices _ _ h := by cases h
  keys := ⟨(fun _ _ h ↦ by cases h), (fun _ _ _ h ↦ by cases h), (fun _ _ _ _ h ↦ by cases h)⟩
  tasks _ h := by cases h
  envelopes _ _ h := by cases h

theorem Recorded.holds_of_tasksMove (h : s.Recorded) (hok : s.WrapsCurrent a)
    {tasks : List BotSendTask} (hmove : s.TasksMove verifies a tasks) :
    ∀ task ∈ tasks, task.HoldsPublished s.published := by
  rcases hmove with rfl | ⟨i, task, task', htask, hmove, rfl⟩
  · exact h.tasks
  · intro task'' htask''
    rcases List.mem_or_eq_of_mem_set htask'' with htask'' | rfl
    · exact h.tasks task'' htask''
    · have hold := h.tasks task (List.mem_of_getElem? htask)
      cases hmove with
      | fetched _ m =>
        intro d hd
        obtain ⟨row, hrow, hversion, hkeys⟩ := KeyTables.mem_fetchTargetDevices hd
        rw [hversion, hkeys]
        exact h.keys.current _ row hrow
      | wrapped _ envelope now m d devices any any' =>
        exact fun d' hd' ↦ hold d' (List.mem_cons_of_mem _ hd')
      | listed _ c => trivial
      | found _ c mids row hrow => exact hok _ htask row hrow
      | caughtUp _ envelope now c mid mids keys => exact hold
      | done => trivial

/-- An envelope that is appended was wrapped for the keys of its version. -/
theorem Recorded.of_appends (h : s.Recorded) (hok : s.WrapsCurrent a) {key : EnvelopeKey}
    {origin : Origin} (happends : s.Appends a key origin)
    (hfree : s.db.envelopes.get key = none) :
    (key.device, key.identityVersion, origin.wrappedFor) ∈ s.published := by
  cases happends with
  | post token mid req now wrappedFor pending version hpending hsender htarget hversion =>
    obtain ⟨row, hrow, hlive, rfl⟩ := KeyTables.of_liveVersion hversion
    obtain rfl : row.keys = wrappedFor := hok pending hpending row hrow ⟨hsender, hlive, hfree⟩
    exact h.keys.current _ row hrow
  | send k envelope now m d devices any htask =>
    exact h.tasks _ (List.mem_of_getElem? htask) d List.mem_cons_self
  | catchUp k envelope now c mid mids keys htask hsecret =>
    exact h.tasks _ (List.mem_of_getElem? htask)

theorem Recorded.step (h : s.Recorded) (hok : s.WrapsCurrent a)
    (hstep : s.step ver valid verifies a = some t) : t.Recorded := by
  rcases did hstep with ⟨tasks, hmove, rfl⟩ |
    ⟨b, keys, bundles, woken, hkeys, ha, hwoken, rfl⟩ | ⟨m, started, -, hstarted, rfl⟩ |
    ⟨mid, m, -, -, rfl⟩ | ⟨key, origin, envelope, now, tasks, happends, hfree, -, hmove, rfl⟩ |
    ⟨k, m, ha, htask, -, -, rfl⟩
  · exact ⟨h.devices, h.keys, h.holds_of_tasksMove hok hmove, h.envelopes⟩
  · obtain ⟨hrises, hdevices⟩ :=
      KeySystem.rises_of_step h.devices (hok.inOrder.keys ha) hkeys
    refine ⟨hdevices, h.keys.append hrises, fun task htask ↦ ?_, fun key row hget ↦ ?_⟩
    · rcases List.mem_append.1 htask with htask | htask
      · exact (h.tasks task htask).mono _
      · obtain ⟨c, -, rfl, -⟩ := hwoken task htask
        trivial
    · obtain ⟨origin, horigin, hmem⟩ := h.envelopes key row hget
      exact ⟨origin, horigin, List.mem_append_left _ hmem⟩
  · refine ⟨h.devices, h.keys, fun task htask ↦ ?_, h.envelopes⟩
    rcases List.mem_append.1 htask with htask | htask
    · exact h.tasks task htask
    · obtain rfl := hstarted task htask
      trivial
  · exact ⟨h.devices, h.keys, h.tasks, h.envelopes⟩
  · refine ⟨h.devices, h.keys, h.holds_of_tasksMove hok hmove, fun l row hget ↦ ?_⟩
    rw [show ({ s.withEnvelope key origin true (s.db.stored key envelope now) with tasks } :
      EnvelopeSystem).origins = s.origins.put key origin from rfl, Table.get_put]
    by_cases hl : l = key
    · subst hl
      exact ⟨origin, if_pos rfl, h.of_appends hok happends hfree⟩
    · obtain ⟨origin', horigin, hmem⟩ :=
        h.envelopes l row ((get_stored.trans (if_neg hl)).symm.trans hget)
      exact ⟨origin', (if_neg hl).trans horigin, hmem⟩
  · exact ⟨h.devices, h.keys, h.holds_of_tasksMove hok (tasksMove_retainSecret verifies ha htask),
      h.envelopes⟩

/-- The keys of the phone of user `2` come with this signed prekey. -/
def phoneKeys (signedPrekey : String) : PublishedKeys :=
  ⟨"identity", some signedPrekey, some signedPrekey⟩

/-- The phone publishes keys. -/
def phonePuts (signedPrekey : String) (now : ℤ) (bots : List Int64) : EnvelopeAction :=
  .putIdentity ⟨2, "phone", false, false⟩ ⟨"phone", phoneKeys signedPrekey⟩ now bots

/-- User `1` posts an envelope for the phone. -/
def webPosts (envelope signedPrekey : String) (now : ℤ) : EnvelopeAction :=
  .post ⟨1, "web", false, false⟩ 1 ⟨2, "phone", envelope⟩ now (phoneKeys signedPrekey)

/-- User `1` gets the bundle of the phone, which then publishes again. The envelope that `1` posts
takes the place of one that is wrapped for the new keys. -/
def staleBundle : List EnvelopeAction :=
  [.keys (.login 1 "web"), .keys (.login 2 "phone"), phonePuts "first" 0 [],
    .sendMessage ⟨1, 1, 2, 0⟩, .project 1, .keys (.getBundle 2 (some "phone")),
    phonePuts "second" 1 [], webPosts "stale" "first" 2, webPosts "right" "second" 3]

/-- Bot `3` catches up with the first keys of the phone and finds its second keys. -/
def staleVersion : List EnvelopeAction :=
  [.sendBotDm ⟨1, 3, 2, 0⟩, .project 1, .fetchTargetDevices 0, .retainSecret 0,
    .keys (.login 2 "phone"), phonePuts "first" 0 [3], .listMids 1, phonePuts "second" 1 [],
    .fetchOneDevice 1, .append 1 (some "other") 2]

/-- An envelope with the origin that is recorded for it. -/
def envelopeAt (s : EnvelopeSystem) (key : EnvelopeKey) : Option EnvelopeRow × Option Origin :=
  (s.db.envelopes.get key, s.origins.get key)

theorem not_wrapsMatch_of_origin {key : EnvelopeKey} {row : EnvelopeRow} {origin : Origin}
    {keys : PublishedKeys} (h : s.envelopeAt key = (some row, some origin))
    (hmem : (key.device, key.identityVersion, keys) ∈ s.published)
    (hne : keys ≠ origin.wrappedFor) : ¬s.WrapsMatch := by
  intro hmatch
  obtain ⟨hrow, horigin⟩ := Prod.ext_iff.1 h
  obtain ⟨origin', horigin', -, hunique⟩ := hmatch key row hrow
  obtain rfl := Option.some_inj.1 (horigin.symm.trans horigin')
  exact hne (hunique keys hmem)

end EnvelopeSystem

end VoceChat
