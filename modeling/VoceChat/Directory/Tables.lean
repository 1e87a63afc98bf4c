import VoceChat.Api.GroupSend
import VoceChat.Foundations.Table

/-!
# Published keys

The tables in which users find each other's keys: the devices of a user, the identity published for
a device (`e2e_identity`), its one-time prekeys (`e2e_prekey`), and the rows of bots
(`bot_e2ee_identity`), whose keys the server generates itself. Every transaction of
`src/api/e2e.rs`, `src/api/user.rs`, `src/api/token.rs` and `src/bot_e2ee.rs` that writes one of
them is a function on `KeyTables`; a transaction that fails leaves them as they were.

An identity row is never deleted. It is retired when its device is, and comes back when the device
publishes again; `key_version` counts the changes of its keys.

## Main definitions

* `KeyTables.putIdentity`, `KeyTables.putPrekeys` — what a device publishes;
* `KeyTables.getIdentity`, `KeyTables.getBundle` — the two ways to ask for keys;
* `KeyTables.deleteDevice`, `KeyTables.logout`, `KeyTables.login` — devices;
* `KeyTables.initializeBot`, `KeyTables.rotateBot`, `KeyTables.rebuildBot` — the transactions of a
  bot.

Users are there throughout, so the foreign keys into the table of users hold. Times are integers in
the order in which the database sorts them. What is sealed with the master key is represented by the
material itself.
-/

namespace VoceChat

open Guards Machine

/-- A user and the name of a device. -/
abbrev DeviceKey := Int64 × String

instance (k : DeviceKey) (ks : List DeviceKey) : Decidable (k ∈ ks) := inferInstance

/-- What a device publishes. -/
structure PublishedKeys where
  identityKeyPub : String
  signedPrekeyPub : Option String
  signedPrekeySig : Option String
  deriving DecidableEq, Repr

/-- A row of `e2e_identity`, without its key. -/
structure IdentityRow where
  keys : PublishedKeys
  updatedAt : ℤ
  keyVersion : ℤ
  retiredAt : Option ℤ
  deriving DecidableEq, Repr

/-- A row of `e2e_prekey`, without its id. -/
structure PrekeyRow where
  owner : DeviceKey
  keyId : ℤ
  publicKey : String
  consumed : Bool
  deriving DecidableEq, Repr

/-- The table `e2e_prekey`: ids are handed out in order and not used again. -/
structure PrekeyTable where
  rows : Table ℕ PrekeyRow
  nextId : ℕ
  fresh : ∀ id row, rows.get id = some row → id < nextId

/-- The secrets of a bot, of which `OtpSecret` is the pair of an id and a secret. -/
structure BotSecretMaterial where
  identityX25519 : Bytes
  identityEd25519 : Bytes
  signedPrekeySecret : Bytes
  oneTimePrekeys : List (ℕ × Bytes)
  deriving DecidableEq, Repr

/-- A row of `bot_e2ee_identity`, without its key. -/
structure StoredIdentityRow where
  deviceId : String
  keyVersion : ℤ
  material : BotSecretMaterial
  deriving DecidableEq, Repr

structure KeyTables where
  devices : List DeviceKey
  identities : Table DeviceKey IdentityRow
  prekeys : PrekeyTable
  bots : Table Int64 StoredIdentityRow

/-! ### One-time prekeys -/

namespace PrekeyTable

def empty : PrekeyTable := ⟨Table.empty, 0, fun _ _ h ↦ by cases h⟩

/-- `delete from e2e_prekey where …`. -/
def delete (t : PrekeyTable) (p : PrekeyRow → Bool) : PrekeyTable where
  rows := t.rows.filter fun _ row ↦ !p row
  nextId := t.nextId
  fresh id row h := t.fresh id row (Table.get_filter.1 h).1

/-- `update e2e_prekey set … where id = ?`. -/
def modify (t : PrekeyTable) (id : ℕ) (f : PrekeyRow → PrekeyRow) : PrekeyTable where
  rows := t.rows.modify id f
  nextId := t.nextId
  fresh l row h := by
    rw [Table.get_modify] at h
    by_cases hl : l = id
    · rw [if_pos hl, Option.map_eq_some_iff] at h
      obtain ⟨row', hrow', -⟩ := h
      exact t.fresh l row' hrow'
    · rw [if_neg hl] at h
      exact t.fresh l row h

/-- A row under the next id. -/
def append (t : PrekeyTable) (row : PrekeyRow) : PrekeyTable where
  rows := t.rows.put t.nextId row
  nextId := t.nextId + 1
  fresh id row' h := by
    rw [Table.get_put] at h
    by_cases hid : id = t.nextId
    · exact hid ▸ Nat.lt_succ_self _
    · rw [if_neg hid] at h
      exact Nat.lt_succ_of_lt (t.fresh id row' h)

/-- The row with these values: `unique (uid, device_id, key_id)`. -/
def find (t : PrekeyTable) (owner : DeviceKey) (keyId : ℤ) : Option (ℕ × PrekeyRow) :=
  t.rows.rows.find? fun r ↦ r.2.owner = owner ∧ r.2.keyId = keyId

/-- `insert into e2e_prekey …` for each key in turn; a key id that is taken makes it fail. -/
def insertAll (owner : DeviceKey) : List (ℤ × String) → PrekeyTable → Option PrekeyTable
  | [], t => some t
  | (keyId, publicKey) :: keys, t =>
    match t.find owner keyId with
    | some _ => none
    | none => insertAll owner keys (t.append ⟨owner, keyId, publicKey, false⟩)

/-- The same with `on conflict … do update set public_key = excluded.public_key, consumed = false`.
-/
def upsertAll (owner : DeviceKey) : List (ℤ × String) → PrekeyTable → PrekeyTable
  | [], t => t
  | (keyId, publicKey) :: keys, t =>
    match t.find owner keyId with
    | some (id, _) =>
      upsertAll owner keys (t.modify id fun row ↦ { row with publicKey, consumed := false })
    | none => upsertAll owner keys (t.append ⟨owner, keyId, publicKey, false⟩)

/-- `select … where uid = ? and device_id = ? and consumed = false order by id asc limit 1`: the ids
grow along the table. -/
def peek (t : PrekeyTable) (owner : DeviceKey) : Option (ℕ × PrekeyRow) :=
  t.rows.rows.find? fun r ↦ r.2.owner = owner ∧ r.2.consumed = false

/-- `update e2e_prekey set consumed = true where id = ?`. -/
def consume (t : PrekeyTable) (id : ℕ) : PrekeyTable :=
  t.modify id fun row ↦ { row with consumed := true }

end PrekeyTable

/-! ### Requests about keys -/

/-- What `str::trim` removes. -/
def isWhitespace (c : Char) : Bool :=
  let n := c.toNat
  (9 ≤ n && n ≤ 13) || n == 32 || n == 133 || n == 160 || n == 5760 || (8192 ≤ n && n ≤ 8202) ||
    n == 8232 || n == 8233 || n == 8239 || n == 8287 || n == 12288

/-- The text is absent, or nothing is left of it when it is trimmed. -/
def isBlank (text : Option String) : Bool := (text.getD "").toList.all isWhitespace

/-- What generation 2 of the protocol asks of published keys. -/
def PublishedKeys.HasSignedPrekey (keys : PublishedKeys) : Prop :=
  isBlank keys.signedPrekeyPub = false ∧ isBlank keys.signedPrekeySig = false

instance (keys : PublishedKeys) : Decidable keys.HasSignedPrekey :=
  inferInstanceAs (Decidable (_ ∧ _))

structure PutE2eIdentityRequest where
  deviceId : String
  keys : PublishedKeys

structure PutE2ePrekeysRequest where
  deviceId : String
  /-- Key ids and public keys. -/
  keys : List (ℤ × String)

/-- What `get_identity` lists of a device. -/
structure E2eIdentity where
  uid : Int64
  deviceId : String
  identityVersion : ℤ
  keys : PublishedKeys
  updatedAt : ℤ
  deriving DecidableEq, Repr

structure E2ePrekeyBundle where
  uid : Int64
  deviceId : String
  keys : PublishedKeys
  /-- The id of a one-time prekey and the prekey. -/
  oneTimePrekey : Option (ℤ × String)
  deriving DecidableEq, Repr

/-- `validate_authenticated_device`. -/
def validateAuthenticatedDevice (providedDevice authenticatedDevice : String) :
    Except E2eV2Error Unit :=
  ensure (providedDevice = authenticatedDevice) .deviceMismatch

/-- `insert … on conflict(uid, device_id) do update set …` of `put_identity`. -/
def IdentityRow.publish (keys : PublishedKeys) (now : ℤ) : Option IdentityRow → IdentityRow
  | none => ⟨keys, now, 1, none⟩
  | some row => ⟨keys, now, if row.keys ≠ keys then row.keyVersion + 1 else row.keyVersion, none⟩

@[simp] theorem IdentityRow.keys_publish (keys : PublishedKeys) (now : ℤ)
    (row : Option IdentityRow) : (publish keys now row).keys = keys := by
  cases row <;> rfl

namespace KeyTables

def empty : KeyTables := ⟨[], Table.empty, PrekeyTable.empty, Table.empty⟩

/-- `put_identity`, to the commit of its transaction; it goes on with the version of the row. -/
def putIdentity (ver : ℤ) (db : KeyTables) (token : Token) (req : PutE2eIdentityRequest)
    (now : ℤ) : Except ApiError (ℤ × KeyTables) := do
  (validateAuthenticatedDevice req.deviceId token.device).mapError .badRequest
  ensure (req.deviceId ≠ "" ∧ req.keys.identityKeyPub ≠ "") (.fromStatus 400)
  ensure (2 ≤ ver → req.keys.HasSignedPrekey) (.fromString "E2E_SIGNED_PREKEY_REQUIRED" 400)
  ensure ((token.uid, token.device) ∈ db.devices) (.fromString "E2E_SENDER_DEVICE_REVOKED" 403)
  let row := IdentityRow.publish req.keys now (db.identities.get (token.uid, req.deviceId))
  return (row.keyVersion, { db with
    identities := db.identities.put (token.uid, req.deviceId) row })

def putPrekeys (db : KeyTables) (token : Token) (req : PutE2ePrekeysRequest) :
    Except ApiError KeyTables := do
  (validateAuthenticatedDevice req.deviceId token.device).mapError .badRequest
  ensure (req.deviceId ≠ "") (.fromStatus 400)
  let owner := (token.uid, req.deviceId)
  match (db.prekeys.delete fun row ↦ row.owner = owner && !row.consumed).insertAll owner
    req.keys with
  | some prekeys => return { db with prekeys }
  | none => .error .internal

/-- The identity of the device is current: it is not retired, and there is the device. -/
def Live (db : KeyTables) (k : DeviceKey) (row : IdentityRow) : Prop :=
  row.retiredAt = none ∧ k ∈ db.devices

instance (db : KeyTables) (k : DeviceKey) (row : IdentityRow) : Decidable (db.Live k row) :=
  inferInstanceAs (Decidable (_ ∧ _))

def getIdentity (db : KeyTables) (uid : Int64) : List E2eIdentity :=
  db.identities.rows.filterMap fun r ↦
    if r.1.1 = uid ∧ db.Live r.1 r.2 then
      some ⟨r.1.1, r.1.2, r.2.keyVersion, r.2.keys, r.2.updatedAt⟩
    else none

/-- `where uid = ? order by updated_at desc limit 1`; of several newest rows the first. -/
def newest (db : KeyTables) (uid : Int64) : Option (DeviceKey × IdentityRow) :=
  (db.identities.rows.filter fun r ↦ r.1.1 = uid).maxOn? fun r ↦ r.2.updatedAt

/-- The row that `get_bundle` answers with. -/
def bundleIdentity (db : KeyTables) (uid : Int64) :
    Option String → Option (DeviceKey × IdentityRow)
  | some deviceId => (db.identities.get (uid, deviceId)).map fun row ↦ ((uid, deviceId), row)
  | none => db.newest uid

/-- The end of `get_bundle`: select a one-time prekey and mark it. -/
def takePrekey (db : KeyTables) (k : DeviceKey) : Option (ℤ × String) × KeyTables :=
  match db.prekeys.peek k with
  | none => (none, db)
  | some (id, row) =>
    (some (row.keyId, row.publicKey), { db with prekeys := db.prekeys.consume id })

def getBundle (ver : ℤ) (db : KeyTables) (uid : Int64) (deviceId : Option String) :
    Except ApiError (E2ePrekeyBundle × KeyTables) :=
  match db.bundleIdentity uid deviceId with
  | none => .error (.fromStatus 404)
  | some (k, row) => do
    ensure (2 ≤ ver → row.keys.HasSignedPrekey) (.fromString "E2E_SIGNED_PREKEY_REQUIRED" 409)
    let (oneTimePrekey, db) := db.takePrekey k
    return (⟨uid, k.2, row.keys, oneTimePrekey⟩, db)

/-! ### Devices -/

/-- `update e2e_identity set retired_at = ? where … and retired_at is null`. -/
def retire (db : KeyTables) (k : DeviceKey) (now : ℤ) : KeyTables :=
  { db with identities := db.identities.modify k fun row ↦
      { row with retiredAt := row.retiredAt.or (some now) } }

/-- `delete from device where uid = ? and device = ?`. -/
def removeDevice (db : KeyTables) (k : DeviceKey) : KeyTables :=
  { db with devices := db.devices.filter (· ≠ k) }

/-- `delete_device`, to the commit of its transaction. -/
def deleteDevice (db : KeyTables) (token : Token) (device : String) (now : ℤ) :
    Except ApiError KeyTables := do
  guestForbidden token
  ensure ((token.uid, device) ∈ db.devices) (.fromStatus 401)
  return (db.removeDevice (token.uid, device)).retire (token.uid, device) now

/-- `logout` of a user who is there. -/
def logout (db : KeyTables) (token : Token) (now : ℤ) : KeyTables :=
  (db.removeDevice (token.uid, token.device)).retire (token.uid, token.device) now

/-- `insert into device … on conflict(uid, device) do …` of `do_login`, of `initialize`, and of
`update_fcm_token`. -/
def login (db : KeyTables) (k : DeviceKey) : KeyTables :=
  if k ∈ db.devices then db else { db with devices := k :: db.devices }

end KeyTables

/-! ### The transactions of a bot -/

inductive BotE2eeError where
  | alreadyInitialized
  | notInitialized
  | confirmationRequired
  | database
  deriving DecidableEq, Repr

/-- What `generate_material` generates. The keys are base64 texts of keys, so they are not blank. -/
structure GeneratedMaterial where
  secret : BotSecretMaterial
  identityPublic : String
  signedPrekeyPublic : String
  signature : String
  otpPublics : List (ℤ × String)
  signedPrekeyPublic_not_blank : isBlank (some signedPrekeyPublic) = false
  signature_not_blank : isBlank (some signature) = false

def GeneratedMaterial.keys (generated : GeneratedMaterial) : PublishedKeys :=
  ⟨generated.identityPublic, some generated.signedPrekeyPublic, some generated.signature⟩

/-- `bot_device_id`. -/
def botDeviceId (uid : Int64) : String := "bot:" ++ toString uid.toInt

/-- The keys of the row when `rotate` writes it: only the signed prekey is new. -/
def GeneratedMaterial.rotated (generated : GeneratedMaterial) (keys : PublishedKeys) :
    PublishedKeys :=
  { keys with
    signedPrekeyPub := some generated.signedPrekeyPublic
    signedPrekeySig := some generated.signature }

namespace KeyTables

/-- The transaction of `initialize`. Nothing of it is done when the bot's device has published keys
or one-time prekeys before. -/
def initializeBot (db : KeyTables) (botUid : Int64) (generated : GeneratedMaterial) (now : ℤ) :
    Except BotE2eeError KeyTables := do
  let k := (botUid, botDeviceId botUid)
  let db := db.login k
  ensure (db.identities.get k = none ∧ db.bots.get botUid = none) .database
  match db.prekeys.insertAll k generated.otpPublics with
  | none => .error .database
  | some prekeys =>
    return { db with
      identities := db.identities.put k ⟨generated.keys, now, 1, none⟩
      prekeys
      bots := db.bots.put botUid ⟨k.2, 1, generated.secret⟩ }

/-- The transaction of `rotate`, with the row and the material that were read before. -/
def rotateBot (db : KeyTables) (botUid : Int64) (existing : StoredIdentityRow)
    (material : BotSecretMaterial) (generated : GeneratedMaterial) (now : ℤ) : KeyTables :=
  let k := (botUid, existing.deviceId)
  let newKeyVersion := existing.keyVersion + 1
  let material := { material with
    signedPrekeySecret := generated.secret.signedPrekeySecret
    oneTimePrekeys := generated.secret.oneTimePrekeys }
  { db with
    prekeys := (db.prekeys.delete fun row ↦ row.owner = k && !row.consumed).upsertAll k
      generated.otpPublics
    identities := db.identities.modify k fun row ↦
      { row with keys := generated.rotated row.keys, updatedAt := now, keyVersion := newKeyVersion }
    bots := db.bots.modify botUid fun row ↦ { row with keyVersion := newKeyVersion, material } }

/-- The transaction of `rebuild`, with the row that was read before. -/
def rebuildBot (db : KeyTables) (botUid : Int64) (existing : StoredIdentityRow)
    (generated : GeneratedMaterial) (now : ℤ) : Except BotE2eeError KeyTables :=
  let k := (botUid, existing.deviceId)
  let newKeyVersion := existing.keyVersion + 1
  match (db.prekeys.delete fun row ↦ row.owner = k).insertAll k generated.otpPublics with
  | none => .error .database
  | some prekeys =>
    .ok { db with
      prekeys
      identities := db.identities.modify k fun _ ↦ ⟨generated.keys, now, newKeyVersion, none⟩
      bots := db.bots.modify botUid fun row ↦
        { row with keyVersion := newKeyVersion, material := generated.secret } }

end KeyTables

end VoceChat
