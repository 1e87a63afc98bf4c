import VoceChat.Envelopes.Addressing
import VoceChat.Message.Payload

/-!
# Deferred messages to bots

When a client has stored an envelope for a bot, the server opens it with the secrets of the bot
(`handle_inbound_bot_envelope`) and hands the text of the message over to the webhook of the bot
(`deliver_bot_webhook_plaintext`). `InboundSystem` runs this against everything in `EnvelopeSystem`.

Such a call is a task. It reads the message, selects an envelope, loads the secrets and opens the
envelope, writes the secrets back when a one-time prekey was used, and hands over. Each read and
each write is a step; a task that goes no further has failed, or its request was given up. So the
envelope that a task opens may be another one than that which started it, and the secrets it writes
back may be older than those in the table.

What parses and what decrypts is a parameter, of which nothing is assumed. `merged` of a step is
what the message database answers then: messages are edited and deleted.
-/

namespace VoceChat

open Guards Json Machine

/-- `InboundWire`, decoded. -/
structure InboundWire where
  ciphertext : Bytes
  nonce : Bytes
  metadata : Value

/-- An envelope, of which only the one-time prekey it was wrapped for is told apart. -/
structure DeferredEnvelope where
  usedOneTimePrekeyId : Option ℕ
  wrapped : Bytes
  deriving DecidableEq, Repr

/-- `DeferredLocalIdentity`. -/
structure DeferredLocalIdentity where
  ikSecret : Bytes
  spkSecret : Bytes
  otkSecret : Option Bytes
  deriving DecidableEq, Repr

/-- The parsers and the primitives; `none` when they fail. -/
structure InboundCrypto where
  parseWire : String → Option InboundWire
  parseEnvelope : String → Option DeferredEnvelope
  deferredUnwrapKey : DeferredEnvelope → DeferredLocalIdentity → Option Bytes
  deferredMetadataCommitment : Value → Option Bytes
  /-- Ciphertext, key, nonce and commitment. -/
  deferredDecrypt : Bytes → Bytes → Bytes → Bytes → Option Bytes

/-- What `handle_inbound_bot_envelope` returns to be logged. -/
inductive InboundError where
  | messageNotFound
  | envelopeNotFound
  | notInitialized
  | oneTimePrekeyUnavailable
  | metadataMismatch
  | crypto
  deriving DecidableEq, Repr

/-! ### Opening an envelope -/

/-- The secret of a one-time prekey, of which the first of that id is taken. -/
def BotSecretMaterial.oneTimePrekey (material : BotSecretMaterial) (id : ℕ) : Option Bytes :=
  (material.oneTimePrekeys.find? fun otp ↦ otp.1 = id).map Prod.snd

/-- `one_time_prekeys.remove(idx)`. -/
def BotSecretMaterial.removePrekey (material : BotSecretMaterial) (id : ℕ) : BotSecretMaterial :=
  { material with oneTimePrekeys := material.oneTimePrekeys.eraseP fun otp ↦ otp.1 = id }

namespace InboundCrypto

/-- `deferred_verify_metadata`. -/
def deferredVerifyMetadata (crypto : InboundCrypto) (metadata : Value) (sha256 : Bytes) :
    Option Bool :=
  (crypto.deferredMetadataCommitment metadata).map (· == sha256)

/-- The message and its sender. -/
def readWire (crypto : InboundCrypto) (merged : Option MergedMessagePayload) :
    Except InboundError (Int64 × InboundWire) := do
  let merged ← okOr merged .messageNotFound
  ensure (merged.content.contentType = contentType) .messageNotFound
  let wire ← okOr (crypto.parseWire merged.content.content) .crypto
  return (merged.fromUid, wire)

/-- The plaintext, and the material to write back if a one-time prekey was used. -/
def openEnvelope (crypto : InboundCrypto) (wire : InboundWire) (envelope : DeferredEnvelope)
    (material : BotSecretMaterial) : Except InboundError (Bytes × Option BotSecretMaterial) := do
  let otkSecret ← match envelope.usedOneTimePrekeyId with
    | some id => (okOr (material.oneTimePrekey id) .oneTimePrekeyUnavailable).map some
    | none => .ok none
  let localIdentity := ⟨material.identityX25519, material.signedPrekeySecret, otkSecret⟩
  let contentKey ← okOr (crypto.deferredUnwrapKey envelope localIdentity) .crypto
  let sha256 ← okOr (crypto.deferredMetadataCommitment wire.metadata) .crypto
  let verified ← okOr (crypto.deferredVerifyMetadata wire.metadata sha256) .crypto
  ensure (verified = true) .metadataMismatch
  let plaintext ← okOr (crypto.deferredDecrypt wire.ciphertext contentKey wire.nonce sha256) .crypto
  return (plaintext, envelope.usedOneTimePrekeyId.map material.removePrekey)

end InboundCrypto

/-- `metadata.get("content_type")…unwrap_or("text/plain")`. -/
def InboundWire.contentType (wire : InboundWire) : String :=
  match wire.metadata with
  | .object fields => ((fields.lookup "content_type").bind Value.asStr).getD "text/plain"
  | _ => "text/plain"

/-- `select envelope … order by identity_version desc limit 1`. -/
def EnvelopeTables.newestEnvelope (db : EnvelopeTables) (mid : ℤ) (botUid : Int64)
    (deviceId : String) : Option String :=
  ((db.envelopes.rows.filter fun r ↦
    r.1.mid = mid ∧ r.1.recipientUid = botUid ∧ r.1.deviceId = deviceId).maxOn? fun r ↦
      r.1.identityVersion).map fun r ↦ r.2.envelope

/-- The requests to a webhook that is answered like this: as many as allowed, up to the first
success. -/
def postAttempts : ℕ → List Bool → List Bool
  | n + 1, success :: answers => if success then [true] else false :: postAttempts n answers
  | 0, _ | _, [] => []

theorem length_postAttempts_le (n : ℕ) (answers : List Bool) :
    (postAttempts n answers).length ≤ n := by
  induction n generalizing answers with
  | zero => cases answers <;> exact Nat.le_refl _
  | succ n ih =>
    cases answers with
    | nil => exact Nat.zero_le _
    | cons success answers =>
      rw [postAttempts]
      split
      · exact Nat.succ_le_succ (Nat.zero_le n)
      · exact Nat.succ_le_succ (ih answers)

theorem count_true_postAttempts_le (n : ℕ) (answers : List Bool) :
    (postAttempts n answers).count true ≤ 1 := by
  induction n generalizing answers with
  | zero => cases answers <;> exact Nat.zero_le _
  | succ n ih =>
    cases answers with
    | nil => exact Nat.zero_le _
    | cons success answers =>
      rw [postAttempts]
      split
      · exact Nat.le_refl _
      · rw [List.count_cons_of_ne (by decide)]
        exact ih answers

/-! ### The system -/

/-- `handle_inbound_bot_envelope`, with the envelope whose storing started it. Of its key the call
itself knows all but the version. -/
inductive InboundTask where
  | received (key : EnvelopeKey)
  | read (key : EnvelopeKey) (fromUid : Int64) (wire : InboundWire)
  | selected (key : EnvelopeKey) (fromUid : Int64) (wire : InboundWire)
      (envelope : DeferredEnvelope)
  /-- The envelope is opened; the material is still to be written back, if there is one. -/
  | opened (key : EnvelopeKey) (fromUid : Int64) (contentType : String) (plaintext : Bytes)
      (material : Option BotSecretMaterial)
  | handedOver (key : EnvelopeKey)
  | failed (key : EnvelopeKey) (error : InboundError)

def InboundTask.key : InboundTask → EnvelopeKey
  | .received key | .read key .. | .selected key .. | .opened key .. | .handedOver key
  | .failed key _ => key

/-- A call of `deliver_bot_webhook_plaintext` about message `key.mid` for bot `key.recipientUid`. -/
structure HandOver where
  key : EnvelopeKey
  fromUid : Int64
  contentType : String
  content : String
  /-- Where it goes to, if the bot has a webhook. -/
  webhookUrl : Option String
  /-- The requests that were made, each with whether it succeeded. -/
  attempts : List Bool
  deriving DecidableEq, Repr

structure InboundSystem where
  envelopes : EnvelopeSystem
  tasks : List InboundTask
  handOvers : List HandOver

inductive InboundAction where
  /-- A step that is not the post of an envelope. -/
  | envelopes (a : EnvelopeAction)
  /-- `bots` are the users that the cache calls bots. -/
  | post (token : Token) (mid : ℤ) (req : AppendPendingEnvelopeRequest) (now : ℤ)
      (wrappedFor : PublishedKeys) (bots : List Int64)
  | getMergedMessage (k : ℕ) (merged : Option MergedMessagePayload)
  | selectEnvelope (k : ℕ)
  | loadMaterial (k : ℕ)
  | persistMaterial (k : ℕ)
  | deliver (k : ℕ) (webhookUrl : Option String) (answers : List Bool)

def EnvelopeAction.isPost : EnvelopeAction → Bool
  | .post .. => true
  | _ => false

/-- `persist_material`. -/
def KeyTables.persistMaterial (db : KeyTables) (uid : Int64) (material : BotSecretMaterial) :
    KeyTables :=
  { db with bots := db.bots.modify uid fun row ↦ { row with material } }

namespace InboundSystem

def init (users : List Int64) : InboundSystem := ⟨EnvelopeSystem.init users, [], []⟩

def setTask (s : InboundSystem) (k : ℕ) (task : InboundTask) : InboundSystem :=
  { s with tasks := s.tasks.set k task }

/-- Task `k` goes on, or fails. -/
def proceed {α : Type} (s : InboundSystem) (k : ℕ) (key : EnvelopeKey) (next : α → InboundTask) :
    Except InboundError α → InboundSystem
  | .ok a => s.setTask k (next a)
  | .error e => s.setTask k (.failed key e)

variable (ver : ℤ) (valid : ℤ → Bool) (verifies : PublishedKeys → Bool) (crypto : InboundCrypto)

def step (s : InboundSystem) : InboundAction → Option InboundSystem
  | .envelopes a =>
    if a.isPost then none
    else (s.envelopes.step ver valid verifies a).map fun envelopes ↦ { s with envelopes }
  | .post token mid req now wrappedFor bots =>
    match EnvelopeTables.postPendingEnvelope s.envelopes.keys.db s.envelopes.db token mid req
      now with
    | .error _ => some s
    | .ok (key, added, db) =>
      some { s with
        envelopes := s.envelopes.withEnvelope key ⟨token.uid, wrappedFor⟩ added db
        tasks := if added = true ∧ key.recipientUid ∈ bots then s.tasks ++ [.received key]
          else s.tasks }
  | .getMergedMessage k merged =>
    match s.tasks[k]? with
    | some (.received key) =>
      some (s.proceed k key (fun r ↦ .read key r.1 r.2) (crypto.readWire merged))
    | _ => none
  | .selectEnvelope k =>
    match s.tasks[k]? with
    | some (.read key fromUid wire) =>
      some <| s.proceed k key (.selected key fromUid wire) <| do
        let envelope ← okOr
          (s.envelopes.db.newestEnvelope key.mid key.recipientUid key.deviceId) .envelopeNotFound
        okOr (crypto.parseEnvelope envelope) .crypto
    | _ => none
  | .loadMaterial k =>
    match s.tasks[k]? with
    | some (.selected key fromUid wire envelope) =>
      some <| s.proceed k key (fun r ↦ .opened key fromUid wire.contentType r.1 r.2) <| do
        let row ← okOr (s.envelopes.keys.db.bots.get key.recipientUid) .notInitialized
        crypto.openEnvelope wire envelope row.material
    | _ => none
  | .persistMaterial k =>
    match s.tasks[k]? with
    | some (.opened key fromUid contentType plaintext (some material)) =>
      let keys := s.envelopes.keys
      some { s.setTask k (.opened key fromUid contentType plaintext none) with
        envelopes := { s.envelopes with
          keys := { keys with db := keys.db.persistMaterial key.recipientUid material } } }
    | _ => none
  | .deliver k webhookUrl answers =>
    match s.tasks[k]? with
    | some (.opened key fromUid contentType plaintext none) =>
      match fromUtf8 plaintext with
      | none => some (s.setTask k (.failed key .crypto))
      | some content =>
        some { s.setTask k (.handedOver key) with
          handOvers := s.handOvers ++ [⟨key, fromUid, contentType, content, webhookUrl,
            if webhookUrl.isSome then postAttempts 3 answers else []⟩] }
    | _ => none

end InboundSystem

/-! ### What a step does -/

namespace InboundSystem

variable {ver : ℤ} {valid : ℤ → Bool} {verifies : PublishedKeys → Bool} {crypto : InboundCrypto}
  {s t : InboundSystem} {a : InboundAction}

/-- How a task goes on without writing anything. -/
inductive Moves (crypto : InboundCrypto) (s : InboundSystem) :
    InboundTask → InboundTask → Prop where
  | read (key : EnvelopeKey) (fromUid : Int64) (wire : InboundWire) :
      Moves crypto s (.received key) (.read key fromUid wire)
  | selected (key : EnvelopeKey) (fromUid : Int64) (wire : InboundWire)
      (envelope : DeferredEnvelope) :
      Moves crypto s (.read key fromUid wire) (.selected key fromUid wire envelope)
  | opened (key : EnvelopeKey) (fromUid : Int64) (wire : InboundWire)
      (envelope : DeferredEnvelope) (row : StoredIdentityRow) (plaintext : Bytes)
      (material : Option BotSecretMaterial)
      (hrow : s.envelopes.keys.db.bots.get key.recipientUid = some row)
      (hopen : crypto.openEnvelope wire envelope row.material = .ok (plaintext, material)) :
      Moves crypto s (.selected key fromUid wire envelope)
        (.opened key fromUid wire.contentType plaintext material)
  /-- Before anything is opened. -/
  | failed (task : InboundTask) (error : InboundError)
      (hreceived : ∀ key, task ≠ .handedOver key)
      (hopened : ∀ key fromUid contentType plaintext material,
        task ≠ .opened key fromUid contentType plaintext material) :
      Moves crypto s task (.failed task.key error)
  | noText (key : EnvelopeKey) (fromUid : Int64) (contentType : String) (plaintext : Bytes)
      (htext : fromUtf8 plaintext = none) :
      Moves crypto s (.opened key fromUid contentType plaintext none) (.failed key .crypto)

theorem Moves.key_eq {task task' : InboundTask} (h : Moves crypto s task task') :
    task'.key = task.key := by
  cases h <;> rfl

theorem Moves.not_handedOver {task task' : InboundTask} (h : Moves crypto s task task')
    (key : EnvelopeKey) : task ≠ .handedOver key := by
  cases h with
  | failed task error hreceived hopened => exact hreceived key
  | _ => rintro ⟨⟩

/-- What a step does. -/
inductive Did (ver : ℤ) (valid : ℤ → Bool) (verifies : PublishedKeys → Bool)
    (crypto : InboundCrypto) (s : InboundSystem) (t : InboundSystem) : Prop where
  | envelopes (a : EnvelopeAction) (envelopes : EnvelopeSystem)
      (hstep : s.envelopes.step ver valid verifies a = some envelopes)
      (h : t = { s with envelopes })
  /-- An envelope is stored, which starts a task. -/
  | received (a : EnvelopeAction) (envelopes : EnvelopeSystem) (key : EnvelopeKey)
      (hstep : s.envelopes.step ver valid verifies a = some envelopes)
      (hfree : s.envelopes.db.envelopes.get key = none)
      (hstored : (envelopes.db.envelopes.get key).isSome)
      (h : t = { s with envelopes, tasks := s.tasks ++ [.received key] })
  | nothing (h : t = s)
  | moves (k : ℕ) (task task' : InboundTask) (htask : s.tasks[k]? = some task)
      (hmoves : Moves crypto s task task') (h : t = s.setTask k task')
  | persisted (k : ℕ) (key : EnvelopeKey) (fromUid : Int64) (contentType : String)
      (plaintext : Bytes) (material : BotSecretMaterial)
      (htask : s.tasks[k]? = some (.opened key fromUid contentType plaintext (some material)))
      (h : t = { s.setTask k (.opened key fromUid contentType plaintext none) with
        envelopes := { s.envelopes with
          keys := { s.envelopes.keys with
            db := s.envelopes.keys.db.persistMaterial key.recipientUid material } } })
  | handedOver (k : ℕ) (key : EnvelopeKey) (fromUid : Int64) (contentType : String)
      (plaintext : Bytes) (content : String) (webhookUrl : Option String) (answers : List Bool)
      (htask : s.tasks[k]? = some (.opened key fromUid contentType plaintext none))
      (htext : fromUtf8 plaintext = some content)
      (h : t = { s.setTask k (.handedOver key) with
        handOvers := s.handOvers ++ [⟨key, fromUid, contentType, content, webhookUrl,
          if webhookUrl.isSome then postAttempts 3 answers else []⟩] })

/-- A step of a task whose first part may fail. -/
theorem did_proceed {α : Type} {k : ℕ} {task : InboundTask} {next : α → InboundTask}
    {r : Except InboundError α} (htask : s.tasks[k]? = some task)
    (hreceived : ∀ key, task ≠ .handedOver key)
    (hopened : ∀ key fromUid contentType plaintext material,
      task ≠ .opened key fromUid contentType plaintext material)
    (hnext : ∀ a, r = .ok a → Moves crypto s task (next a)) :
    Did ver valid verifies crypto s (s.proceed k task.key next r) := by
  cases r with
  | error e => exact .moves k task _ htask (.failed task e hreceived hopened) rfl
  | ok a => exact .moves k task _ htask (hnext a rfl) rfl

/-- The post of an envelope is that of `EnvelopeSystem`. -/
theorem did_post {token : Token} {mid : ℤ} {req : AppendPendingEnvelopeRequest} {now : ℤ}
    {wrappedFor : PublishedKeys} {bots : List Int64}
    (h : s.step ver valid verifies crypto (.post token mid req now wrappedFor bots) = some t) :
    Did ver valid verifies crypto s t := by
  rw [step] at h
  cases hpost : EnvelopeTables.postPendingEnvelope s.envelopes.keys.db s.envelopes.db token mid
      req now with
  | error e =>
    rw [hpost] at h
    exact .nothing (Option.some_inj.1 h).symm
  | ok r =>
    obtain ⟨key, added, db⟩ := r
    rw [hpost] at h
    obtain rfl := Option.some_inj.1 h
    have hstep : s.envelopes.step ver valid verifies (.post token mid req now wrappedFor) =
        some (s.envelopes.withEnvelope key ⟨token.uid, wrappedFor⟩ added db) := by
      rw [EnvelopeSystem.step, hpost]
    by_cases hbot : added = true ∧ key.recipientUid ∈ bots
    · obtain ⟨-, -, -, -, -, -, -, -, -, happend⟩ :=
        EnvelopeTables.postPendingEnvelope_eq_ok.1 hpost
      obtain ⟨rfl, -⟩ | ⟨-, hfree, -, -, rfl⟩ := EnvelopeTables.appendEnvelope_eq_some.1 happend
      · cases hbot.1
      · refine .received _ _ key hstep hfree ?_ (by rw [if_pos hbot])
        exact Option.isSome_iff_exists.2 ⟨_, Table.get_put_self _ _ _⟩
    · exact .envelopes _ _ hstep (by rw [if_neg hbot])

/-- **The cases of a step.** -/
theorem did (h : s.step ver valid verifies crypto a = some t) :
    Did ver valid verifies crypto s t := by
  cases a with
  | envelopes b =>
    rw [step, Option.ite_none_left_eq_some, Option.map_eq_some_iff] at h
    obtain ⟨-, envelopes, hstep, rfl⟩ := h
    exact .envelopes b envelopes hstep rfl
  | post token mid req now wrappedFor bots => exact did_post h
  | getMergedMessage k merged =>
    rw [step] at h
    split at h
    · rename_i key htask
      obtain rfl := Option.some_inj.1 h
      exact did_proceed htask (by rintro _ ⟨⟩) (by rintro _ _ _ _ _ ⟨⟩) fun r _ ↦ .read key r.1 r.2
    · cases h
  | selectEnvelope k =>
    rw [step] at h
    split at h
    · rename_i key fromUid wire htask
      obtain rfl := Option.some_inj.1 h
      exact did_proceed htask (by rintro _ ⟨⟩) (by rintro _ _ _ _ _ ⟨⟩) fun envelope _ ↦
        .selected key fromUid wire envelope
    · cases h
  | loadMaterial k =>
    rw [step] at h
    split at h
    · rename_i key fromUid wire envelope htask
      obtain rfl := Option.some_inj.1 h
      refine did_proceed htask (by rintro _ ⟨⟩) (by rintro _ _ _ _ _ ⟨⟩) fun r hr ↦ ?_
      simp only [bind_eq_ok, okOr_eq_ok] at hr
      obtain ⟨row, hrow, hopen⟩ := hr
      exact .opened key fromUid wire envelope row r.1 r.2 hrow hopen
    · cases h
  | persistMaterial k =>
    rw [step] at h
    split at h
    · rename_i key fromUid contentType plaintext material htask
      exact .persisted k key fromUid contentType plaintext material htask (Option.some_inj.1 h).symm
    · cases h
  | deliver k webhookUrl answers =>
    rw [step] at h
    split at h
    · rename_i key fromUid contentType plaintext htask
      cases htext : fromUtf8 plaintext with
      | none =>
        rw [htext] at h
        exact .moves k _ _ htask (.noText key fromUid contentType plaintext htext)
          (Option.some_inj.1 h).symm
      | some content =>
        rw [htext] at h
        exact .handedOver k key fromUid contentType plaintext content webhookUrl answers htask htext
          (Option.some_inj.1 h).symm
    · cases h

end InboundSystem

end VoceChat
