import VoceChat.Directory.Tables
import VoceChat.Pending.System

/-!
# Envelopes of deferred messages

The content key of a deferred message reaches a device of its target in an envelope, which is stored
for one version of the identity of the device (`e2e_pending_envelope`). The sender posts it
(`post_pending_envelope`); for a bot the server appends it (`append_pending_envelope_internal`).
Both insert a row if there is none under its key, and then the message is completed. The content
keys of bots wait in `bot_e2ee_pending_secret`.

An envelope is opaque here, and so is the content key of a bot, of which only its bot is in the
model.
-/

namespace VoceChat

open Guards

/-- `unique (mid, recipient_uid, device_id, identity_version)`. -/
structure EnvelopeKey where
  mid : ℤ
  recipientUid : Int64
  deviceId : String
  identityVersion : ℤ
  deriving DecidableEq, Repr

def EnvelopeKey.device (key : EnvelopeKey) : DeviceKey := (key.recipientUid, key.deviceId)

/-- A row of `e2e_pending_envelope`, without its key. -/
structure EnvelopeRow where
  envelope : String
  createdAt : ℤ
  deriving DecidableEq, Repr

structure EnvelopeTables where
  tables : PendingTables
  envelopes : Table EnvelopeKey EnvelopeRow
  /-- `bot_e2ee_pending_secret`: the bot of a message. -/
  secrets : Table ℤ Int64

structure AppendPendingEnvelopeRequest where
  recipientUid : Int64
  deviceId : String
  envelope : String

/-- A device of the target of a bot's message, to which its content key can be wrapped. -/
structure UsableDevice where
  deviceId : String
  keyVersion : ℤ
  keys : PublishedKeys
  deriving DecidableEq, Repr

/-- What a bot catches up with: a device of `targetUid` has published this version. -/
structure CatchUp where
  botUid : Int64
  targetUid : Int64
  deviceId : String
  identityVersion : ℤ
  deriving DecidableEq, Repr

def CatchUp.device (c : CatchUp) : DeviceKey := (c.targetUid, c.deviceId)

/-- Where the bot appends the envelope of a message. -/
def CatchUp.key (c : CatchUp) (mid : ℤ) : EnvelopeKey :=
  ⟨mid, c.targetUid, c.deviceId, c.identityVersion⟩

/-! ### What is read of identities -/

namespace KeyTables

/-- The version of the current identity of a device: the query of `post_pending_envelope`. -/
def liveVersion (db : KeyTables) (k : DeviceKey) : Option ℤ :=
  (db.identities.get k).bind fun row ↦ if db.Live k row then some row.keyVersion else none

/-- `to_usable_device`; `verifies` says whether the keys are well formed and the signature is that
of the identity key. -/
def IsUsable (verifies : PublishedKeys → Bool) (row : IdentityRow) : Prop :=
  row.retiredAt = none ∧ row.keys.HasSignedPrekey ∧ verifies row.keys = true

instance (verifies : PublishedKeys → Bool) (row : IdentityRow) :
    Decidable (IsUsable verifies row) :=
  inferInstanceAs (Decidable (_ ∧ _ ∧ _))

/-- `fetch_target_devices`. -/
def fetchTargetDevices (verifies : PublishedKeys → Bool) (db : KeyTables) (targetUid : Int64) :
    List UsableDevice :=
  db.identities.rows.filterMap fun r ↦
    if r.1.1 = targetUid ∧ IsUsable verifies r.2 then some ⟨r.1.2, r.2.keyVersion, r.2.keys⟩
    else none

/-- `fetch_one_device`. -/
def fetchOneDevice (verifies : PublishedKeys → Bool) (db : KeyTables) (k : DeviceKey) :
    Option UsableDevice :=
  (db.identities.get k).bind fun row ↦
    if IsUsable verifies row then some ⟨k.2, row.keyVersion, row.keys⟩ else none

end KeyTables

/-! ### Statements and requests -/

namespace EnvelopeTables

/-- An envelope is stored under a key that was free, and its message is completed. -/
def stored (db : EnvelopeTables) (key : EnvelopeKey) (envelope : String) (now : ℤ) :
    EnvelopeTables :=
  { db with
    envelopes := db.envelopes.put key ⟨envelope, now⟩
    tables := db.tables.complete key.mid now }

/-- `insert into e2e_pending_envelope … on conflict … do nothing`, with its foreign keys, and then
`update e2e_pending_message …` if a row was inserted: `append_pending_envelope_internal`. -/
def appendEnvelope (db : EnvelopeTables) (key : EnvelopeKey) (envelope : String) (now : ℤ) :
    Option (Bool × EnvelopeTables) :=
  match db.envelopes.get key with
  | some _ => some (false, db)
  | none =>
    if (db.tables.pendings.get key.mid).isSome ∧ key.recipientUid ∈ db.tables.users then
      some (true, db.stored key envelope now)
    else none

/-- `post_pending_envelope` after the reconciliation: its transaction. -/
def postPendingEnvelope (keys : KeyTables) (db : EnvelopeTables) (token : Token) (mid : ℤ)
    (req : AppendPendingEnvelopeRequest) (now : ℤ) :
    Except ApiError (EnvelopeKey × Bool × EnvelopeTables) := do
  ensure (req.deviceId ≠ "" ∧ req.envelope ≠ "") (.fromStatus 400)
  ensure ((token.uid, token.device) ∈ keys.devices) (.fromString "E2E_SENDER_DEVICE_REVOKED" 403)
  let row ← okOr (db.tables.pendings.get mid) (.fromStatus 404)
  ensure (row.senderUid = token.uid) (.fromString "E2E_PENDING_FORBIDDEN" 403)
  ensure (req.recipientUid = row.targetUid) (.fromString "E2E_PENDING_WRONG_RECIPIENT" 400)
  let identityVersion ← okOr (keys.liveVersion (req.recipientUid, req.deviceId))
    (.fromString "E2E_PENDING_UNKNOWN_DEVICE" 400)
  let key : EnvelopeKey := ⟨mid, req.recipientUid, req.deviceId, identityVersion⟩
  let (envelopeAdded, db) ← okOr (db.appendEnvelope key req.envelope now) .internal
  return (key, envelopeAdded, db)

/-- `insert into bot_e2ee_pending_secret … on conflict(mid) do nothing`, with its foreign keys. -/
def insertSecret (db : EnvelopeTables) (mid : ℤ) (botUid : Int64) : Option EnvelopeTables :=
  match db.secrets.get mid with
  | some _ => some db
  | none =>
    if (db.tables.pendings.get mid).isSome ∧ botUid ∈ db.tables.users then
      some { db with secrets := db.secrets.put mid botUid }
    else none

/-- `waiting_senders` of `put_identity`: the senders of messages to the user without an envelope for
this version of the device. -/
def waitingSenders (db : EnvelopeTables) (uid : Int64) (deviceId : String) (identityVersion : ℤ) :
    List Int64 :=
  (db.tables.pendings.rows.filterMap fun r ↦
    if r.2.targetUid = uid ∧ db.envelopes.get ⟨r.1, uid, deviceId, identityVersion⟩ = none then
      some r.2.senderUid
    else none).dedup

/-- `mids` of `catch_up_pending_sends`. -/
def waitingMids (db : EnvelopeTables) (c : CatchUp) : List ℤ :=
  db.tables.pendings.rows.filterMap fun r ↦
    if r.2.senderUid = c.botUid ∧ r.2.targetUid = c.targetUid ∧ (db.secrets.get r.1).isSome ∧
        db.envelopes.get (c.key r.1) = none then
      some r.1
    else none

variable {db db' : EnvelopeTables} {key : EnvelopeKey} {envelope : String} {now : ℤ}

/-! ### What they do -/

theorem appendEnvelope_eq_some {added : Bool} :
    db.appendEnvelope key envelope now = some (added, db') ↔
      (added = false ∧ (db.envelopes.get key).isSome ∧ db' = db) ∨
        (added = true ∧ db.envelopes.get key = none ∧ (db.tables.pendings.get key.mid).isSome ∧
          key.recipientUid ∈ db.tables.users ∧ db' = db.stored key envelope now) := by
  rw [appendEnvelope]
  cases hget : db.envelopes.get key with
  | some row =>
    rw [Option.some_inj, Prod.mk.injEq]
    constructor
    · rintro ⟨rfl, rfl⟩
      exact .inl ⟨rfl, rfl, rfl⟩
    · rintro (⟨rfl, -, rfl⟩ | ⟨-, h, -⟩)
      · exact ⟨rfl, rfl⟩
      · cases h
  | none =>
    rw [Option.ite_none_right_eq_some, Option.some_inj, Prod.mk.injEq]
    constructor
    · rintro ⟨⟨hrow, huser⟩, rfl, rfl⟩
      exact .inr ⟨rfl, rfl, hrow, huser, rfl⟩
    · rintro (⟨-, h, -⟩ | ⟨rfl, -, hrow, huser, rfl⟩)
      · cases h
      · exact ⟨⟨hrow, huser⟩, rfl, rfl⟩

theorem postPendingEnvelope_eq_ok {keys : KeyTables} {token : Token} {mid : ℤ}
    {req : AppendPendingEnvelopeRequest} {added : Bool} :
    postPendingEnvelope keys db token mid req now = .ok (key, added, db') ↔
      (req.deviceId ≠ "" ∧ req.envelope ≠ "") ∧ (token.uid, token.device) ∈ keys.devices ∧
        ∃ row, db.tables.pendings.get mid = some row ∧ row.senderUid = token.uid ∧
          req.recipientUid = row.targetUid ∧ ∃ version,
            keys.liveVersion (req.recipientUid, req.deviceId) = some version ∧
              key = ⟨mid, req.recipientUid, req.deviceId, version⟩ ∧
              db.appendEnvelope key req.envelope now = some (added, db') := by
  simp only [postPendingEnvelope, bind_eq_ok, ensure_eq_ok, exists_unit, okOr_eq_ok, pure_eq_ok,
    Prod.mk.injEq, Prod.exists]
  constructor
  · rintro ⟨hreq, hdevice, row, hrow, hsender, htarget, version, hversion, added, db', hadd, rfl,
      rfl, rfl⟩
    exact ⟨hreq, hdevice, row, hrow, hsender, htarget, version, hversion, rfl, hadd⟩
  · rintro ⟨hreq, hdevice, row, hrow, hsender, htarget, version, hversion, rfl, hadd⟩
    exact ⟨hreq, hdevice, row, hrow, hsender, htarget, version, hversion, _, _, hadd, rfl, rfl, rfl⟩

theorem insertSecret_eq_some {mid : ℤ} {botUid : Int64} :
    db.insertSecret mid botUid = some db' ↔
      ((db.secrets.get mid).isSome ∧ db' = db) ∨
        (db.secrets.get mid = none ∧ (db.tables.pendings.get mid).isSome ∧
          botUid ∈ db.tables.users ∧ db' = { db with secrets := db.secrets.put mid botUid }) := by
  rw [insertSecret]
  cases hget : db.secrets.get mid with
  | some uid =>
    rw [Option.some_inj]
    constructor
    · rintro rfl
      exact .inl ⟨rfl, rfl⟩
    · rintro (⟨-, rfl⟩ | ⟨h, -⟩)
      · rfl
      · cases h
  | none =>
    rw [Option.ite_none_right_eq_some, Option.some_inj]
    constructor
    · rintro ⟨⟨hrow, huser⟩, rfl⟩
      exact .inr ⟨rfl, hrow, huser, rfl⟩
    · rintro (⟨h, -⟩ | ⟨-, hrow, huser, rfl⟩)
      · cases h
      · exact ⟨⟨hrow, huser⟩, rfl⟩

theorem mem_waitingMids {c : CatchUp} {mid : ℤ} (h : mid ∈ db.waitingMids c) :
    ∃ row, db.tables.pendings.get mid = some row ∧ row.senderUid = c.botUid ∧
      row.targetUid = c.targetUid := by
  obtain ⟨r, hr, heq⟩ := List.mem_filterMap.1 h
  rw [Option.ite_none_right_eq_some, Option.some_inj] at heq
  obtain ⟨⟨hsender, htarget, -⟩, rfl⟩ := heq
  exact ⟨r.2, Table.get_eq_some.2 hr, hsender, htarget⟩

theorem mem_waitingMids_of {c : CatchUp} {mid : ℤ} {row : PendingRow}
    (hrow : db.tables.pendings.get mid = some row) (hsender : row.senderUid = c.botUid)
    (htarget : row.targetUid = c.targetUid) (hsecret : (db.secrets.get mid).isSome)
    (hfree : db.envelopes.get (c.key mid) = none) : mid ∈ db.waitingMids c :=
  List.mem_filterMap.2 ⟨(mid, row), Table.get_eq_some.1 hrow,
    if_pos ⟨hsender, htarget, hsecret, hfree⟩⟩

/-- The row of a message when another one, or itself, is completed. -/
theorem get_complete (tables : PendingTables) (mid now l : ℤ) :
    (tables.complete mid now).pendings.get l =
      if l = mid then (tables.pendings.get l).map fun row ↦
        { row with completedAt := row.completedAt.or (some now) }
      else tables.pendings.get l :=
  Table.get_modify _ _ _ _

end EnvelopeTables

namespace KeyTables

variable {verifies : PublishedKeys → Bool} {db : KeyTables} {k : DeviceKey}

theorem of_liveVersion {version : ℤ} (h : db.liveVersion k = some version) :
    ∃ row, db.identities.get k = some row ∧ db.Live k row ∧ version = row.keyVersion := by
  obtain ⟨row, hrow, hlive⟩ := Option.bind_eq_some_iff.1 h
  rw [Option.ite_none_right_eq_some, Option.some_inj] at hlive
  exact ⟨row, hrow, hlive.1, hlive.2.symm⟩

theorem mem_fetchTargetDevices {targetUid : Int64} {d : UsableDevice}
    (h : d ∈ db.fetchTargetDevices verifies targetUid) :
    ∃ row, db.identities.get (targetUid, d.deviceId) = some row ∧ d.keyVersion = row.keyVersion ∧
      d.keys = row.keys := by
  obtain ⟨⟨⟨uid, device⟩, row⟩, hr, heq⟩ := List.mem_filterMap.1 h
  rw [Option.ite_none_right_eq_some, Option.some_inj] at heq
  obtain ⟨⟨huid, -⟩, rfl⟩ := heq
  obtain rfl : uid = targetUid := huid
  exact ⟨row, Table.get_eq_some.2 hr, rfl, rfl⟩

theorem of_fetchOneDevice {d : UsableDevice} (h : db.fetchOneDevice verifies k = some d) :
    ∃ row, db.identities.get k = some row ∧ d = ⟨k.2, row.keyVersion, row.keys⟩ := by
  obtain ⟨row, hrow, husable⟩ := Option.bind_eq_some_iff.1 h
  rw [Option.ite_none_right_eq_some, Option.some_inj] at husable
  exact ⟨row, hrow, husable.2.symm⟩

end KeyTables

end VoceChat
