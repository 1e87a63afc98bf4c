import Mathlib.Data.List.Dedup
import VoceChat.Envelopes.Addressing

/-!
# Which devices a bot's message reaches

A bot that sends a message wraps its content key for the devices its target has at that moment. Only
when none of them gets an envelope the content key is retained, for devices that publish their keys
later: each publication starts a task that catches up with the retained keys.

So there are two promises, and what they promise is the same thing: an envelope is stored, or some
task is still going to store it (`Promised`). A step that succeeds keeps a promise, and when all
tasks are finished it is fulfilled (`stored_of_run`).

* The devices that are listed while a message is sent are promised an envelope for the version they
  are listed with.
* A device that publishes a version when the content key of a message is retained is promised one
  for that version.

Nothing is promised to a device that comes later to a message that has reached another device, and
nothing to one that comes after the listing and before the content key is retained
(`not_stored_laterDevice`).
-/

namespace VoceChat

/-- The task is finished. -/
def BotSendTask.Finished : BotSendTask → Prop
  | .done | .catchingUp _ [] _ => True
  | .sending _ | .wrapping .. | .waking _ | .fetching .. | .catchingUp _ (_ :: _) _ => False

instance : ∀ task : BotSendTask, Decidable task.Finished
  | .done | .catchingUp _ [] _ => .isTrue trivial
  | .sending _ | .wrapping .. | .waking _ | .fetching .. | .catchingUp _ (_ :: _) _ => .isFalse id

/-- The task is going to store an envelope under this key, if there is none. -/
def BotSendTask.Owes (db : EnvelopeTables) (key : EnvelopeKey) : BotSendTask → Prop
  | .wrapping m devices _ => ∃ d ∈ devices, key = ⟨m.mid, m.targetUid, d.deviceId, d.keyVersion⟩
  | .waking c => key = c.key key.mid ∧ (db.secrets.get key.mid).isSome ∧ ∃ row,
      db.tables.pendings.get key.mid = some row ∧ row.senderUid = c.botUid ∧
        row.targetUid = c.targetUid
  | .fetching c mids | .catchingUp c mids _ => ∃ mid ∈ mids, key = c.key mid
  | .sending _ | .done => False

/-- The next envelope of the task is accepted. -/
def BotSendTask.Accepted (db : EnvelopeTables) (envelope : String) (now : ℤ) : BotSendTask → Prop
  | .wrapping m (d :: _) _ =>
    (db.appendEnvelope ⟨m.mid, m.targetUid, d.deviceId, d.keyVersion⟩ envelope now).isSome
  | .catchingUp c (mid :: _) _ =>
    (db.secrets.get mid).isSome ∧ (db.appendEnvelope (c.key mid) envelope now).isSome
  | .wrapping _ [] _ | .catchingUp _ [] _ | .sending _ | .waking _ | .fetching .. | .done => True

instance (db : EnvelopeTables) (envelope : String) (now : ℤ) :
    ∀ task : BotSendTask, Decidable (task.Accepted db envelope now)
  | .wrapping m (d :: _) _ => inferInstanceAs (Decidable
    ((db.appendEnvelope ⟨m.mid, m.targetUid, d.deviceId, d.keyVersion⟩ envelope now).isSome = true))
  | .catchingUp c (mid :: _) _ => inferInstanceAs (Decidable
    ((db.secrets.get mid).isSome = true ∧
      (db.appendEnvelope (c.key mid) envelope now).isSome = true))
  | .wrapping _ [] _ | .catchingUp _ [] _ | .sending _ | .waking _ | .fetching .. | .done =>
    .isTrue trivial

/-- The device of the task can be used. -/
def BotSendTask.FindsDevice (verifies : PublishedKeys → Bool) (db : KeyTables) : BotSendTask → Prop
  | .fetching c _ => (db.fetchOneDevice verifies c.device).isSome
  | .sending _ | .wrapping .. | .waking _ | .catchingUp .. | .done => True

instance (verifies : PublishedKeys → Bool) (db : KeyTables) :
    ∀ task : BotSendTask, Decidable (task.FindsDevice verifies db)
  | .fetching c _ => inferInstanceAs (Decidable
    ((db.fetchOneDevice verifies c.device).isSome = true))
  | .sending _ | .wrapping .. | .waking _ | .catchingUp .. | .done => .isTrue trivial

namespace EnvelopeSystem

variable {ver : ℤ} {valid : ℤ → Bool} {verifies : PublishedKeys → Bool} {s t : EnvelopeSystem}
  {a : EnvelopeAction} {key : EnvelopeKey} {k : ℕ}

/-- No task fails in this step: content keys can be wrapped, devices can be used, and envelopes are
accepted. -/
def Succeeds (verifies : PublishedKeys → Bool) (s : EnvelopeSystem) : EnvelopeAction → Prop
  | .append k envelope now => ∀ task ∈ s.tasks[k]?, ∃ e ∈ envelope, task.Accepted s.db e now
  | .fetchOneDevice k => ∀ task ∈ s.tasks[k]?, task.FindsDevice verifies s.keys.db
  | .keys _ | .putIdentity .. | .sendMessage _ | .sendBotDm _ | .project _ | .post ..
  | .fetchTargetDevices _ | .listMids _ | .retainSecret _ => True

instance (verifies : PublishedKeys → Bool) (s : EnvelopeSystem) :
    ∀ a, Decidable (s.Succeeds verifies a)
  | .append k envelope now => inferInstanceAs (Decidable
    (∀ task ∈ s.tasks[k]?, ∃ e ∈ envelope, task.Accepted s.db e now))
  | .fetchOneDevice k => inferInstanceAs (Decidable
    (∀ task ∈ s.tasks[k]?, task.FindsDevice verifies s.keys.db))
  | .keys _ | .putIdentity .. | .sendMessage _ | .sendBotDm _ | .project _ | .post ..
  | .fetchTargetDevices _ | .listMids _ | .retainSecret _ => .isTrue trivial

/-- An envelope is stored under this key, or a task is going to store it. -/
def Promised (s : EnvelopeSystem) (key : EnvelopeKey) : Prop :=
  (s.db.envelopes.get key).isSome ∨
    ∃ (k : ℕ) (task : BotSendTask), s.tasks[k]? = some task ∧ task.Owes s.db key

/-! ### What other steps leave alone -/

/-- What a task owes does not depend on what happens to other rows. -/
theorem owes_of_step (hstep : s.step ver valid verifies a = some t) {task : BotSendTask}
    (h : task.Owes s.db key) : task.Owes t.db key := by
  have hsame : (∀ mid row, s.db.tables.pendings.get mid = some row → ∃ row',
      t.db.tables.pendings.get mid = some row' ∧ row'.senderUid = row.senderUid ∧
        row'.targetUid = row.targetUid) ∧
      ∀ mid, (s.db.secrets.get mid).isSome → (t.db.secrets.get mid).isSome := by
    rcases did hstep with ⟨tasks, -, rfl⟩ | ⟨b, keys, bundles, woken, -, -, -, rfl⟩ |
      ⟨m, started, -, -, rfl⟩ | ⟨mid, m, -, -, rfl⟩ |
      ⟨key, origin, envelope, now, tasks, -, -, -, -, rfl⟩ | ⟨k, m, -, -, -, -, rfl⟩
    · exact ⟨fun mid row hrow ↦ ⟨row, hrow, rfl, rfl⟩, fun _ h ↦ h⟩
    · exact ⟨fun mid row hrow ↦ ⟨row, hrow, rfl, rfl⟩, fun _ h ↦ h⟩
    · exact ⟨fun mid row hrow ↦ ⟨row, hrow, rfl, rfl⟩, fun _ h ↦ h⟩
    · refine ⟨fun mid row hrow ↦ ⟨row, ?_, rfl, rfl⟩, fun _ h ↦ h⟩
      show (s.db.tables.projected m).pendings.get mid = some row
      rw [PendingTables.get_projected, hrow]
      split <;> rfl
    · refine ⟨fun mid row hrow ↦ ?_, fun _ h ↦ h⟩
      show ∃ row', (s.db.tables.complete key.mid now).pendings.get mid = some row' ∧ _
      rw [EnvelopeTables.get_complete, hrow]
      split
      · exact ⟨_, rfl, rfl, rfl⟩
      · exact ⟨row, rfl, rfl, rfl⟩
    · refine ⟨fun mid row hrow ↦ ⟨row, hrow, rfl, rfl⟩, fun mid h ↦ ?_⟩
      show ((s.db.secrets.put m.mid m.senderUid).get mid).isSome
      rw [Table.get_put]
      split
      · rfl
      · exact h
  cases task with
  | waking c =>
    obtain ⟨hkey, hsecret, row, hrow, hsender, htarget⟩ := h
    obtain ⟨row', hrow', hsender', htarget'⟩ := hsame.1 _ row hrow
    exact ⟨hkey, hsame.2 _ hsecret, row', hrow', hsender'.trans hsender, htarget'.trans htarget⟩
  | _ => exact h

/-- A task goes on by its own steps only. -/
theorem getElem?_of_step (hstep : s.step ver valid verifies a = some t) (hk : a.task ≠ some k)
    {task : BotSendTask} (htask : s.tasks[k]? = some task) : t.tasks[k]? = some task := by
  have hlt := (List.getElem?_eq_some_iff.1 htask).1
  have happend : ∀ tasks : List BotSendTask, (s.tasks ++ tasks)[k]? = some task := fun tasks ↦
    (List.getElem?_append_left hlt).trans htask
  have hset : ∀ {j : ℕ} (task' : BotSendTask), a.task = some j →
      (s.tasks.set j task')[k]? = some task := fun _ hj ↦
    (List.getElem?_set_ne fun heq ↦ hk (hj.trans (congrArg some heq))).trans htask
  have hmoves : ∀ {tasks : List BotSendTask}, s.TasksMove verifies a tasks →
      tasks[k]? = some task := by
    rintro tasks (rfl | ⟨j, task₁, task₂, -, hmove, rfl⟩)
    · exact htask
    · exact hset task₂ hmove.task_eq
  rcases did hstep with ⟨tasks, hmove, rfl⟩ | ⟨b, keys, bundles, woken, -, -, -, rfl⟩ |
    ⟨m, started, -, -, rfl⟩ | ⟨mid, m, -, -, rfl⟩ |
    ⟨key, origin, envelope, now, tasks, -, -, -, hmove, rfl⟩ | ⟨j, m, rfl, -, -, -, rfl⟩
  · exact hmoves hmove
  · exact happend woken
  · exact happend started
  · exact htask
  · exact hmoves hmove
  · exact hset .done rfl

theorem stored_of_step (hstep : s.step ver valid verifies a = some t)
    (h : (s.db.envelopes.get key).isSome) : (t.db.envelopes.get key).isSome := by
  obtain ⟨row, hrow⟩ := Option.isSome_iff_exists.1 h
  exact Option.isSome_iff_exists.2 ⟨row, envelopes_kept hstep hrow⟩

/-! ### Promises -/

/-- An envelope that is accepted is the one that was promised, or the rest of the task is. -/
theorem promised_appendInternal {l : EnvelopeKey} {origin : Origin} {envelope : String} {now : ℤ}
    {next : Bool → BotSendTask} {task : BotSendTask} (htask : s.tasks[k]? = some task)
    (haccepted : (s.db.appendEnvelope l envelope now).isSome)
    (howes : key = l ∨ ∀ added db, (next added).Owes db key) :
    (s.appendInternal k l origin envelope now next).Promised key := by
  have hlt := (List.getElem?_eq_some_iff.1 htask).1
  obtain ⟨⟨added, db⟩, happend⟩ := Option.isSome_iff_exists.1 haccepted
  have heq : s.appendInternal k l origin envelope now next =
      (s.withEnvelope l origin added db).setTask k (next added) := by
    rw [appendInternal, happend]
  rw [heq]
  rcases howes with rfl | howes
  · refine .inl ?_
    show (db.envelopes.get key).isSome
    obtain ⟨-, htaken, rfl⟩ | ⟨-, -, -, -, rfl⟩ := EnvelopeTables.appendEnvelope_eq_some.1 happend
    · exact htaken
    · exact Option.isSome_iff_exists.2 ⟨_, Table.get_put_self _ _ _⟩
  · exact .inr ⟨k, next added, List.getElem?_set_self hlt, howes added _⟩

/-- A bot that wakes up finds the message. -/
theorem promised_listMids {c : CatchUp} (htask : s.tasks[k]? = some (.waking c))
    (howes : (BotSendTask.waking c).Owes s.db key)
    (hstep : s.step ver valid verifies (.listMids k) = some t) : t.Promised key := by
  obtain ⟨hkey, hsecret, row, hrow, hsender, htarget⟩ := howes
  by_cases hfree : s.db.envelopes.get key = none
  · have hmem : key.mid ∈ s.db.waitingMids c :=
      EnvelopeTables.mem_waitingMids_of hrow hsender htarget hsecret (hkey ▸ hfree)
    simp only [step, htask] at hstep
    split at hstep
    · rename_i hnil
      rw [hnil] at hmem
      cases hmem
    · obtain rfl := Option.some_inj.1 hstep
      exact .inr ⟨k, _, List.getElem?_set_self (List.getElem?_eq_some_iff.1 htask).1, key.mid, hmem,
        hkey⟩
  · exact .inl (stored_of_step hstep (Option.isSome_iff_ne_none.2 hfree))

/-- The next envelope of a task. -/
theorem promised_append {task : BotSendTask} {envelope : String} {now : ℤ}
    (htask : s.tasks[k]? = some task) (haccepted : task.Accepted s.db envelope now)
    (howes : task.Owes s.db key)
    (hstep : s.step ver valid verifies (.append k (some envelope) now) = some t) :
    t.Promised key := by
  rw [step, htask, Option.bind_some] at hstep
  cases task with
  | wrapping m devices any =>
    obtain ⟨d, hd, hkey⟩ := howes
    cases devices with
    | nil => cases hd
    | cons d' devices =>
      obtain rfl := Option.some_inj.1 hstep
      refine promised_appendInternal htask haccepted ?_
      rcases List.mem_cons.1 hd with rfl | hd
      · exact .inl hkey
      · exact .inr fun _ _ ↦ ⟨d, hd, hkey⟩
  | catchingUp c mids keys =>
    obtain ⟨mid, hmid, hkey⟩ := howes
    cases mids with
    | nil => cases hmid
    | cons mid' mids =>
      obtain ⟨hsecret, haccepted⟩ := haccepted
      obtain ⟨uid, huid⟩ := Option.isSome_iff_exists.1 hsecret
      simp only [appendNext, huid] at hstep
      obtain rfl := Option.some_inj.1 hstep
      refine promised_appendInternal htask haccepted ?_
      rcases List.mem_cons.1 hmid with rfl | hmid
      · exact .inl hkey
      · exact .inr fun _ _ ↦ ⟨mid, hmid, hkey⟩
  | _ => cases hstep

/-- A task keeps its promise in its own steps. -/
theorem promised_of_own_step (hok : s.Succeeds verifies a)
    (hstep : s.step ver valid verifies a = some t) (ha : a.task = some k) {task : BotSendTask}
    (htask : s.tasks[k]? = some task) (howes : task.Owes s.db key) : t.Promised key := by
  have hlt := (List.getElem?_eq_some_iff.1 htask).1
  cases a with
  | fetchTargetDevices j =>
    obtain rfl := Option.some_inj.1 ha
    rw [step, htask] at hstep
    cases task with
    | sending m => cases howes
    | _ => cases hstep
  | listMids j =>
    obtain rfl := Option.some_inj.1 ha
    cases task with
    | waking c => exact promised_listMids htask howes hstep
    | _ =>
      rw [step, htask] at hstep
      cases hstep
  | fetchOneDevice j =>
    obtain rfl := Option.some_inj.1 ha
    cases task with
    | fetching c mids =>
      obtain ⟨d, hd⟩ := Option.isSome_iff_exists.1 (hok _ htask)
      simp only [step, htask, hd] at hstep
      obtain rfl := Option.some_inj.1 hstep
      exact .inr ⟨j, _, List.getElem?_set_self hlt, howes⟩
    | _ =>
      rw [step, htask] at hstep
      cases hstep
  | append j envelope now =>
    obtain rfl := Option.some_inj.1 ha
    obtain ⟨e, rfl, haccepted⟩ := hok _ htask
    exact promised_append htask haccepted howes hstep
  | retainSecret j =>
    obtain rfl := Option.some_inj.1 ha
    rw [step, htask] at hstep
    cases task with
    | wrapping m devices any =>
      obtain ⟨d, hd, -⟩ := howes
      cases devices with
      | nil => cases hd
      | cons d' devices => cases hstep
    | _ => cases hstep
  | _ => cases ha

/-- **A step that succeeds keeps all promises.** -/
theorem Promised.step (h : s.Promised key) (hok : s.Succeeds verifies a)
    (hstep : s.step ver valid verifies a = some t) : t.Promised key := by
  rcases h with hstored | ⟨k, task, htask, howes⟩
  · exact .inl (stored_of_step hstep hstored)
  · by_cases hk : a.task = some k
    · exact promised_of_own_step hok hstep hk htask howes
    · exact .inr ⟨k, task, getElem?_of_step hstep hk htask, owes_of_step hstep howes⟩

/-- When all tasks are finished, all promises are fulfilled. -/
theorem Promised.stored (h : s.Promised key) (hfinished : ∀ task ∈ s.tasks, task.Finished) :
    (s.db.envelopes.get key).isSome := by
  rcases h with hstored | ⟨k, task, htask, howes⟩
  · exact hstored
  · have hdone := hfinished task (List.mem_of_getElem? htask)
    cases task with
    | done => cases howes
    | catchingUp c mids keys =>
      obtain ⟨mid, hmid, -⟩ := howes
      cases mids with
      | nil => cases hmid
      | cons mid' mids => cases hdone
    | _ => cases hdone

/-! ### What is promised -/

/-- The envelopes that a step promises: to the devices that a sending bot lists; and to a device
that publishes its keys, for the messages whose content key is retained. -/
inductive Promises (ver : ℤ) (verifies : PublishedKeys → Bool) (s : EnvelopeSystem) :
    EnvelopeAction → EnvelopeKey → Prop where
  | listed (k : ℕ) (m : PendingMessageMarker) (d : UsableDevice)
      (htask : s.tasks[k]? = some (.sending m))
      (hd : d ∈ s.keys.db.fetchTargetDevices verifies m.targetUid) :
      Promises ver verifies s (.fetchTargetDevices k) ⟨m.mid, m.targetUid, d.deviceId, d.keyVersion⟩
  | published (token : Token) (req : PutE2eIdentityRequest) (now : ℤ) (bots : List Int64) (mid : ℤ)
      (row : PendingRow) (version : ℤ) (db : KeyTables)
      (hput : s.keys.db.putIdentity ver token req now = .ok (version, db))
      (hrow : s.db.tables.pendings.get mid = some row) (hbot : row.senderUid ∈ bots)
      (htarget : row.targetUid = token.uid) (hsecret : (s.db.secrets.get mid).isSome) :
      Promises ver verifies s (.putIdentity token req now bots)
        ⟨mid, token.uid, req.deviceId, version⟩

theorem promised_of_promises (hpromises : s.Promises ver verifies a key)
    (hstep : s.step ver valid verifies a = some t) : t.Promised key := by
  cases hpromises with
  | listed k m d htask hd =>
    rw [step, htask] at hstep
    obtain rfl := Option.some_inj.1 hstep
    exact .inr ⟨k, _, List.getElem?_set_self (List.getElem?_eq_some_iff.1 htask).1, d, hd, rfl⟩
  | published token req now bots mid row version db hput hrow hbot htarget hsecret =>
    by_cases hfree : s.db.envelopes.get ⟨mid, token.uid, req.deviceId, version⟩ = none
    · have hsender : row.senderUid ∈ s.db.waitingSenders token.uid req.deviceId version :=
        List.mem_dedup.2 (List.mem_filterMap.2 ⟨(mid, row), Table.get_eq_some.1 hrow,
          if_pos ⟨htarget, hfree⟩⟩)
      rw [step, hput] at hstep
      obtain rfl := Option.some_inj.1 hstep
      have hwoken : BotSendTask.waking ⟨row.senderUid, token.uid, req.deviceId, version⟩ ∈
          ((s.db.waitingSenders token.uid req.deviceId version).filter (· ∈ bots)).map fun botUid ↦
            BotSendTask.waking ⟨botUid, token.uid, req.deviceId, version⟩ :=
        List.mem_map.2 ⟨_, List.mem_filter.2 ⟨hsender, decide_eq_true hbot⟩, rfl⟩
      obtain ⟨k, hk⟩ := List.mem_iff_getElem?.1 (List.mem_append_right s.tasks hwoken)
      exact .inr ⟨k, _, hk, rfl, hsecret, row, hrow, rfl, htarget⟩
    · exact .inl (stored_of_step hstep (Option.isSome_iff_ne_none.2 hfree))

/-- **Who gets a bot's message.** When all tasks are finished and none has failed, there is an
envelope for every device that was listed when the message was sent, for the version it had then;
and for every device that has published a version since the content key was retained. -/
theorem stored_of_run {u : EnvelopeSystem} {later : List EnvelopeAction}
    (hpromises : s.Promises ver verifies a key)
    (hstep : s.step ver valid verifies a = some t)
    (hok : Transition.Along (EnvelopeSystem.step ver valid verifies) (Succeeds verifies) t later)
    (hu : Transition.run (EnvelopeSystem.step ver valid verifies) t later = some u)
    (hfinished : ∀ task ∈ u.tasks, task.Finished) : (u.db.envelopes.get key).isSome := by
  have hpromised := Transition.run_induction_along (I := fun v : EnvelopeSystem ↦ v.Promised key)
    (fun _ _ _ h hok hstep ↦ h.step hok hstep) (promised_of_promises hpromises hstep) hok hu
  exact hpromised.stored hfinished

/-! ### Devices that come later -/

/-- Bot `3` has written to user `2`, who had no device; the phone of `2` logs in. -/
def retainedSecret : List EnvelopeAction :=
  [.sendBotDm ⟨1, 3, 2, 0⟩, .project 1, .fetchTargetDevices 0, .retainSecret 0,
    .keys (.login 2 "phone")]

/-- A device of user `2` publishes these keys. -/
def publishes (device : String) : Token × PutE2eIdentityRequest :=
  (⟨2, device, false, false⟩, ⟨device, "identity", some "prekey", some "signature"⟩)

/-- It does so, and bot `3` is a bot. -/
def publishesKeys (device : String) : EnvelopeAction :=
  .putIdentity (publishes device).1 (publishes device).2 1 [3]

/-- The bot catches up with it. -/
def catchesUp (k : ℕ) : List EnvelopeAction :=
  [.listMids k, .fetchOneDevice k, .append k (some "envelope") 2]

theorem stored_of_run_retainedSecret : ∃ s t u,
    Transition.run (step 2 (fun _ ↦ true) fun _ ↦ true) (init [2, 3]) retainedSecret = some s ∧
    s.step 2 (fun _ ↦ true) (fun _ ↦ true) (publishesKeys "phone") = some t ∧
    Transition.run (step 2 (fun _ ↦ true) fun _ ↦ true) t (catchesUp 1) = some u ∧
    (u.db.envelopes.get ⟨1, 2, "phone", 1⟩).isSome := by
  have hrun : ((Transition.run (step 2 (fun _ ↦ true) fun _ ↦ true) (init [2, 3])
      retainedSecret).bind fun s ↦
        (s.step 2 (fun _ ↦ true) (fun _ ↦ true) (publishesKeys "phone")).bind fun t ↦
          (Transition.run (step 2 (fun _ ↦ true) fun _ ↦ true) t (catchesUp 1)).map fun u ↦
            (s.db.tables.pendings.get 1, s.db.secrets.get 1,
              (s.keys.db.putIdentity 2 (publishes "phone").1 (publishes "phone").2 1).toOption.map
                Prod.fst, u.tasks)) =
      some (some ⟨3, 2, none, 0⟩, some 3, some 1, [.done,
        .catchingUp ⟨3, 2, "phone", 1⟩ [] ⟨"identity", some "prekey", some "signature"⟩]) := rfl
  obtain ⟨s, hs, hrun⟩ := Option.bind_eq_some_iff.1 hrun
  obtain ⟨t, ht, hrun⟩ := Option.bind_eq_some_iff.1 hrun
  obtain ⟨u, hu, hfacts⟩ := Option.map_eq_some_iff.1 hrun
  obtain ⟨hrow, hfacts⟩ := Prod.ext_iff.1 hfacts
  obtain ⟨hsecret, hfacts⟩ := Prod.ext_iff.1 hfacts
  obtain ⟨hput, htasks⟩ := Prod.ext_iff.1 hfacts
  obtain ⟨version, db, hput⟩ : ∃ version db, version = 1 ∧
      s.keys.db.putIdentity 2 (publishes "phone").1 (publishes "phone").2 1 =
      .ok (version, db) := by
    cases hr : s.keys.db.putIdentity 2 (publishes "phone").1 (publishes "phone").2 1 with
    | error e =>
      rw [hr] at hput
      cases hput
    | ok r =>
      rw [hr] at hput
      exact ⟨r.1, r.2, Option.some_inj.1 hput, rfl⟩
  obtain ⟨rfl, hput⟩ := hput
  have hok : Transition.Along (step 2 (fun _ ↦ true) fun _ ↦ true) (Succeeds fun _ ↦ true)
      (init [2, 3]) (retainedSecret ++ ([publishesKeys "phone"] ++ catchesUp 1)) :=
    Transition.along_of_check (by decide +kernel)
  have hlater := (Transition.along_append.1 ((Transition.along_append.1 hok).2 s hs)).2 t
    (Transition.run_cons_eq_some.2 ⟨t, ht, rfl⟩)
  refine ⟨s, t, u, hs, ht, hu,
    stored_of_run (.published _ _ 1 [3] 1 _ 1 db hput hrow (by decide) rfl
    (Option.isSome_iff_exists.2 ⟨3, hsecret⟩)) ht hlater hu ?_⟩
  rw [show u.tasks = _ from htasks]
  decide

/-- The phone has its keys when bot `3` writes to user `2`; the tablet comes after that. -/
def laterDevice : List EnvelopeAction :=
  [.keys (.login 2 "phone"), publishesKeys "phone", .sendBotDm ⟨1, 3, 2, 0⟩, .project 1,
    .fetchTargetDevices 0, .append 0 (some "envelope") 2, .retainSecret 0,
    .keys (.login 2 "tablet"), publishesKeys "tablet", .listMids 1]

/-- The phone comes while bot `3` is writing. -/
def deviceMeanwhile : List EnvelopeAction :=
  [.sendBotDm ⟨1, 3, 2, 0⟩, .project 1, .fetchTargetDevices 0, .keys (.login 2 "phone"),
    publishesKeys "phone", .listMids 1, .retainSecret 0]

/-- Nothing has failed, everything is finished, and a device that can be used has no envelope. -/
theorem not_stored_laterDevice :
    (Transition.Along (step 2 (fun _ ↦ true) fun _ ↦ true) (Succeeds fun _ ↦ true) (init [2, 3])
        laterDevice ∧ ∃ s,
      Transition.run (step 2 (fun _ ↦ true) fun _ ↦ true) (init [2, 3]) laterDevice = some s ∧
      s.tasks = [.done, .done] ∧ s.keys.db.liveVersion (2, "tablet") = some 1 ∧
      s.keys.db.fetchOneDevice (fun _ ↦ true) (2, "tablet") =
        some ⟨"tablet", 1, (publishes "tablet").2.keys⟩ ∧
      s.db.envelopes.get ⟨1, 2, "tablet", 1⟩ = none) ∧
    Transition.Along (step 2 (fun _ ↦ true) fun _ ↦ true) (Succeeds fun _ ↦ true) (init [2, 3])
        deviceMeanwhile ∧ ∃ s,
      Transition.run (step 2 (fun _ ↦ true) fun _ ↦ true) (init [2, 3]) deviceMeanwhile = some s ∧
      s.tasks = [.done, .done] ∧ s.keys.db.liveVersion (2, "phone") = some 1 ∧
      s.keys.db.fetchOneDevice (fun _ ↦ true) (2, "phone") =
        some ⟨"phone", 1, (publishes "phone").2.keys⟩ ∧
      s.db.envelopes.get ⟨1, 2, "phone", 1⟩ = none := by
  have hfinal : ∀ actions device,
    ((Transition.run (step 2 (fun _ ↦ true) fun _ ↦ true) (init [2, 3])
      actions).map fun s ↦ (s.tasks, s.keys.db.liveVersion (2, device),
        s.keys.db.fetchOneDevice (fun _ ↦ true) (2, device),
        s.db.envelopes.get ⟨1, 2, device, 1⟩)) = some ([.done, .done], some 1,
          some ⟨device, 1, (publishes device).2.keys⟩, none) → ∃ s,
      Transition.run (step 2 (fun _ ↦ true) fun _ ↦ true) (init [2, 3]) actions = some s ∧
      s.tasks = [.done, .done] ∧ s.keys.db.liveVersion (2, device) = some 1 ∧
      s.keys.db.fetchOneDevice (fun _ ↦ true) (2, device) =
        some ⟨device, 1, (publishes device).2.keys⟩ ∧
      s.db.envelopes.get ⟨1, 2, device, 1⟩ = none := by
    intro actions device hrun
    obtain ⟨s, hs, hfacts⟩ := Option.map_eq_some_iff.1 hrun
    obtain ⟨htasks, hfacts⟩ := Prod.ext_iff.1 hfacts
    obtain ⟨hlive, hfacts⟩ := Prod.ext_iff.1 hfacts
    obtain ⟨hfound, hnone⟩ := Prod.ext_iff.1 hfacts
    exact ⟨s, hs, htasks, hlive, hfound, hnone⟩
  exact ⟨⟨Transition.along_of_check (by decide +kernel), hfinal _ _ rfl⟩,
    Transition.along_of_check (by decide +kernel), hfinal _ _ rfl⟩

end EnvelopeSystem

end VoceChat
