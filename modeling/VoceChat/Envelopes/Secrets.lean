import VoceChat.Envelopes.System

/-!
# Retained content keys

A bot keeps the content key of a message that no device of its target could get yet
(`bot_e2ee_pending_secret`), to be deleted once the message is completed. Nothing deletes it.

So a secret is kept for a message that is not completed as long as no envelope is appended to a
message with a secret, and no secret is kept for a message that was completed in the meantime
(`secretsPending_of_run`). The first is just what catching up is for: `not_secretsPending_catchUp`.
-/

namespace VoceChat

/-- No envelope of the task goes to a message with a secret. -/
def BotSendTask.SparesSecrets (db : EnvelopeTables) : BotSendTask → Prop
  | .wrapping m (d :: _) _ =>
    db.envelopes.get ⟨m.mid, m.targetUid, d.deviceId, d.keyVersion⟩ = none →
      db.secrets.get m.mid = none
  | .catchingUp c (mid :: _) _ =>
    db.envelopes.get (c.key mid) = none → db.secrets.get mid = none
  | .wrapping _ [] _ | .catchingUp _ [] _ | .sending _ | .waking _ | .fetching .. | .done => True

instance (db : EnvelopeTables) : ∀ task : BotSendTask, Decidable (task.SparesSecrets db)
  | .wrapping m (d :: _) _ => inferInstanceAs (Decidable
    (db.envelopes.get ⟨m.mid, m.targetUid, d.deviceId, d.keyVersion⟩ = none →
      db.secrets.get m.mid = none))
  | .catchingUp c (mid :: _) _ => inferInstanceAs (Decidable
    (db.envelopes.get (c.key mid) = none → db.secrets.get mid = none))
  | .wrapping _ [] _ | .catchingUp _ [] _ | .sending _ | .waking _ | .fetching .. | .done =>
    .isTrue trivial

/-- The message whose secret the task keeps is not completed. -/
def BotSendTask.KeepsPending (db : EnvelopeTables) : BotSendTask → Prop
  | .wrapping m [] false =>
    ∀ row ∈ db.tables.pendings.get m.mid, row.completedAt = none
  | .wrapping _ [] true | .wrapping _ (_ :: _) _ | .catchingUp .. | .sending _ | .waking _
  | .fetching .. | .done => True

instance (db : EnvelopeTables) : ∀ task : BotSendTask, Decidable (task.KeepsPending db)
  | .wrapping m [] false => inferInstanceAs (Decidable
    (∀ row ∈ db.tables.pendings.get m.mid, row.completedAt = none))
  | .wrapping _ [] true | .wrapping _ (_ :: _) _ | .catchingUp .. | .sending _ | .waking _
  | .fetching .. | .done => .isTrue trivial

namespace EnvelopeSystem

variable {ver : ℤ} {valid : ℤ → Bool} {verifies : PublishedKeys → Bool} {s t : EnvelopeSystem}
  {a : EnvelopeAction}

/-- A secret is kept for a message only while the message is not completed. -/
def SecretsPending (s : EnvelopeSystem) : Prop :=
  ∀ mid botUid, s.db.secrets.get mid = some botUid →
    ∃ row, s.db.tables.pendings.get mid = some row ∧ row.completedAt = none

/-- No envelope under a free key goes to a message with a secret, neither posted by the sender for a
current device nor appended; and a secret is kept only for a message that is not completed. -/
def SparesSecrets (s : EnvelopeSystem) : EnvelopeAction → Prop
  | .post token mid req _ _ =>
    ∀ pending ∈ s.db.tables.pendings.get mid,
      ∀ version ∈ s.keys.db.liveVersion (req.recipientUid, req.deviceId),
        pending.senderUid = token.uid ∧
            s.db.envelopes.get ⟨mid, req.recipientUid, req.deviceId, version⟩ = none →
          s.db.secrets.get mid = none
  | .append k _ _ => ∀ task ∈ s.tasks[k]?, task.SparesSecrets s.db
  | .retainSecret k => ∀ task ∈ s.tasks[k]?, task.KeepsPending s.db
  | .keys _ | .putIdentity .. | .sendMessage _ | .sendBotDm _ | .project _ | .fetchTargetDevices _
  | .listMids _ | .fetchOneDevice _ => True

instance (s : EnvelopeSystem) : ∀ a, Decidable (s.SparesSecrets a)
  | .post token mid req _ _ => inferInstanceAs (Decidable
    (∀ pending ∈ s.db.tables.pendings.get mid,
      ∀ version ∈ s.keys.db.liveVersion (req.recipientUid, req.deviceId),
        pending.senderUid = token.uid ∧
            s.db.envelopes.get ⟨mid, req.recipientUid, req.deviceId, version⟩ = none →
          s.db.secrets.get mid = none))
  | .append k _ _ => inferInstanceAs (Decidable (∀ task ∈ s.tasks[k]?, task.SparesSecrets s.db))
  | .retainSecret k => inferInstanceAs (Decidable (∀ task ∈ s.tasks[k]?, task.KeepsPending s.db))
  | .keys _ | .putIdentity .. | .sendMessage _ | .sendBotDm _ | .project _ | .fetchTargetDevices _
  | .listMids _ | .fetchOneDevice _ => .isTrue trivial

/-- The message of an envelope that is appended has no secret. -/
theorem SparesSecrets.of_appends (hok : s.SparesSecrets a) {key : EnvelopeKey} {origin : Origin}
    (happends : s.Appends a key origin) (hfree : s.db.envelopes.get key = none) :
    s.db.secrets.get key.mid = none := by
  cases happends with
  | post token mid req now wrappedFor row version hrow hsender htarget hversion =>
    exact hok row hrow version hversion ⟨hsender, hfree⟩
  | send k envelope now m d devices any htask => exact hok _ htask hfree
  | catchUp k envelope now c mid mids keys htask hsecret => exact hok _ htask hfree

theorem secretsPending_step (h : s.SecretsPending) (hok : s.SparesSecrets a)
    (hstep : s.step ver valid verifies a = some t) : t.SecretsPending := by
  rcases did hstep with ⟨tasks, -, rfl⟩ | ⟨b, keys, bundles, woken, -, -, -, rfl⟩ |
    ⟨m, started, -, -, rfl⟩ | ⟨mid, m, -, -, rfl⟩ |
    ⟨key, origin, envelope, now, tasks, happends, hfree, -, -, rfl⟩ |
    ⟨k, m, rfl, htask, hnew, hrow, rfl⟩
  · exact h
  · exact h
  · exact h
  · intro mid' botUid hsecret
    obtain ⟨row, hrow, hcompleted⟩ := h mid' botUid hsecret
    refine ⟨row, ?_, hcompleted⟩
    rw [PendingTables.get_projected, hrow]
    split <;> rfl
  · intro mid botUid hsecret
    obtain ⟨row, hrow, hcompleted⟩ := h mid botUid hsecret
    have hne : mid ≠ key.mid := by
      rintro rfl
      cases (hok.of_appends happends hfree).symm.trans hsecret
    exact ⟨row, (EnvelopeTables.get_complete _ _ _ _).trans ((if_neg hne).trans hrow), hcompleted⟩
  · obtain ⟨row, hrow⟩ := Option.isSome_iff_exists.1 hrow
    exact Table.forall_get_put h ⟨row, hrow, hok _ htask row hrow⟩

/-- **A secret is kept for a message only while it is not completed**, in every run in which no
message with a secret is completed and no secret is kept for a completed message. -/
theorem secretsPending_of_run {users : List Int64} {actions : List EnvelopeAction}
    (hok : Transition.Along (step ver valid verifies) SparesSecrets (init users) actions)
    (hrun : Transition.run (step ver valid verifies) (init users) actions = some s) :
    s.SecretsPending :=
  Transition.run_induction_along (fun _ _ _ h hok hstep ↦ secretsPending_step h hok hstep)
    (fun _ _ h ↦ by cases h) hok hrun

/-! ### A bot that catches up -/

/-- Bot `3` writes to user `2`, who has no device yet. -/
def botMessage : List EnvelopeAction :=
  [.sendBotDm ⟨1, 3, 2, 0⟩, .project 1, .fetchTargetDevices 0, .retainSecret 0]

/-- User `2` gets a device, and the bot catches up. -/
def botCatchesUp : List EnvelopeAction :=
  [.keys (.login 2 "phone"),
    .putIdentity ⟨2, "phone", false, false⟩
      ⟨"phone", "identity", some "prekey", some "signature"⟩ 1 [3],
    .listMids 1, .fetchOneDevice 1, .append 1 (some "envelope") 2]

theorem secretsPending_of_run_botMessage : ∃ s,
    Transition.run (step 2 (fun _ ↦ true) fun _ ↦ true) (init [2, 3]) botMessage = some s ∧
    s.db.secrets.get 1 = some 3 ∧ s.SecretsPending := by
  have hrun : ((Transition.run (step 2 (fun _ ↦ true) fun _ ↦ true) (init [2, 3])
      botMessage).map fun s ↦ s.db.secrets.get 1) = some (some 3) := rfl
  obtain ⟨s, hs, hsecret⟩ := Option.map_eq_some_iff.1 hrun
  exact ⟨s, hs, hsecret, secretsPending_of_run (Transition.along_of_check (by decide +kernel)) hs⟩

/-- The message is completed, with its envelope, and the secret is still there. -/
theorem not_secretsPending_catchUp : ∃ s,
    Transition.run (step 2 (fun _ ↦ true) fun _ ↦ true) (init [2, 3])
      (botMessage ++ botCatchesUp) = some s ∧
    s.db.tables.pendings.get 1 = some ⟨3, 2, some 2, 0⟩ ∧
    s.db.envelopes.get ⟨1, 2, "phone", 1⟩ = some ⟨"envelope", 2⟩ ∧
    s.db.secrets.get 1 = some 3 ∧ ¬s.SecretsPending := by
  have hrun : ((Transition.run (step 2 (fun _ ↦ true) fun _ ↦ true) (init [2, 3])
      (botMessage ++ botCatchesUp)).map fun s ↦ (s.db.tables.pendings.get 1,
        s.db.envelopes.get ⟨1, 2, "phone", 1⟩, s.db.secrets.get 1)) =
      some (some ⟨3, 2, some 2, 0⟩, some ⟨"envelope", 2⟩, some 3) := rfl
  obtain ⟨s, hs, hfacts⟩ := Option.map_eq_some_iff.1 hrun
  obtain ⟨hrow, hfacts⟩ := Prod.ext_iff.1 hfacts
  obtain ⟨henvelope, hsecret⟩ := Prod.ext_iff.1 hfacts
  refine ⟨s, hs, hrow, henvelope, hsecret, fun h ↦ ?_⟩
  obtain ⟨row, hget, hcompleted⟩ := h 1 3 hsecret
  obtain rfl := Option.some_inj.1 (hrow.symm.trans hget)
  cases hcompleted

end EnvelopeSystem

end VoceChat
