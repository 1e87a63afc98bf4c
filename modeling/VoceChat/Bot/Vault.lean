import VoceChat.Bot.Inbound
import VoceChat.Directory.OneTimePrekeys

/-!
# The secrets of a bot (`src/bot_e2ee.rs`)

The secrets of a bot are one row, its vault, and their public halves are published in two other
tables. Initializing, rotating and rebuilding write all three in one transaction, from what they
read before it; a call for an envelope that uses a one-time prekey reads the vault, opens the
envelope, and writes the vault back without that prekey's secret. Nothing keeps the vault as it is
in between, so a call can take back a rotation, or bring a secret back that another call has
removed. A device that calls itself by the name of the bot's device publishes keys of its own.

`VaultSystem` runs each read and each write of these against all requests about keys. In a run of
careful steps (`Careful`) the vault has at all times the private halves of what is published, and no
secret that was used (`kept_of_run`). A rotation, or another call, between the read and the write of
a call is enough for the contrary (`not_kept_overwritten`).
-/

namespace VoceChat

open Machine

/-- How envelopes are opened, and how public keys are made. -/
structure VaultCrypto where
  inbound : InboundCrypto
  /-- `serde_json::to_string(&identity_public)`, from both secrets of an identity. -/
  identityPublic : Bytes → Bytes → String
  /-- `dh_pub_b64` of a prekey, from its secret. -/
  dhPublic : Bytes → String

namespace BotSecretMaterial

variable (material : BotSecretMaterial)

/-- The secrets of the one-time prekeys. -/
def secrets : List Bytes := material.oneTimePrekeys.map Prod.snd

/-- The identity key and the signed prekey are the private halves of these. -/
structure Backs (crypto : VaultCrypto) (keys : PublishedKeys) : Prop where
  identity : keys.identityKeyPub =
    crypto.identityPublic material.identityX25519 material.identityEd25519
  signedPrekey : keys.signedPrekeyPub = some (crypto.dhPublic material.signedPrekeySecret)

/-- The secret of a one-time prekey is there. -/
def Holds (crypto : VaultCrypto) (keyId : ℤ) (publicKey : String) : Prop :=
  ∃ otp ∈ material.oneTimePrekeys, (otp.1 : ℤ) = keyId ∧ crypto.dhPublic otp.2 = publicKey

instance (crypto : VaultCrypto) (keys : PublishedKeys) : Decidable (material.Backs crypto keys) :=
  decidable_of_iff (_ ∧ _) ⟨fun ⟨hidentity, hprekey⟩ ↦ ⟨hidentity, hprekey⟩,
    fun ⟨hidentity, hprekey⟩ ↦ ⟨hidentity, hprekey⟩⟩

instance (crypto : VaultCrypto) (keyId : ℤ) (publicKey : String) :
    Decidable (material.Holds crypto keyId publicKey) :=
  inferInstanceAs (Decidable (∃ otp ∈ material.oneTimePrekeys, _))

end BotSecretMaterial

/-- The key generators make pairs, and no secret twice. -/
structure GeneratedMaterial.Paired (crypto : VaultCrypto) (generated : GeneratedMaterial) :
    Prop where
  backs : generated.secret.Backs crypto generated.keys
  otpPublics : generated.otpPublics =
    generated.secret.oneTimePrekeys.map fun otp ↦ ((otp.1 : ℤ), crypto.dhPublic otp.2)
  nodup : generated.secret.secrets.Nodup

instance (crypto : VaultCrypto) (generated : GeneratedMaterial) :
    Decidable (generated.Paired crypto) :=
  decidable_of_iff (_ ∧ _ ∧ _) ⟨fun ⟨hbacks, hpublics, hnodup⟩ ↦ ⟨hbacks, hpublics, hnodup⟩,
    fun ⟨hbacks, hpublics, hnodup⟩ ↦ ⟨hbacks, hpublics, hnodup⟩⟩

/-- The bot and the material that a rotation goes on with. -/
def BotTask.loaded : BotTask → Option (Int64 × BotSecretMaterial)
  | .rotating botUid _ material => material.map fun material ↦ (botUid, material)
  | .initializing _ | .rebuilding _ _ | .done => none

def BotTask.isDone : BotTask → Bool
  | .done => true
  | .initializing _ | .rotating _ _ _ | .rebuilding _ _ => false

/-- `handle_inbound_bot_envelope`, when it has read the message and selected an envelope. -/
inductive VaultCall where
  | selected (botUid : Int64) (wire : InboundWire) (envelope : DeferredEnvelope)
  /-- The envelope is opened with this secret of a one-time prekey, and the material is to be
  written back. -/
  | opened (botUid : Int64) (secret : Bytes) (material : BotSecretMaterial)
  | done

/-- The bot and the material that a call is to write back. -/
def VaultCall.written : VaultCall → Option (Int64 × BotSecretMaterial)
  | .opened botUid _ material => some (botUid, material)
  | .selected .. | .done => none

def VaultCall.isDone : VaultCall → Bool
  | .done => true
  | .selected .. | .opened .. => false

structure VaultSystem where
  keys : KeySystem
  calls : List VaultCall
  /-- All one-time prekey secrets that were generated. -/
  drawn : List Bytes
  /-- Those that a bot's call has removed. -/
  removed : List (Int64 × Bytes)

inductive VaultAction where
  | keys (a : KeyAction)
  /-- `update e2e_prekey set consumed = true where id = ?`, wherever that is done. -/
  | consume (id : ℕ)
  | receive (botUid : Int64) (wire : InboundWire) (envelope : DeferredEnvelope)
  /-- `load_and_decrypt_material` of a call, and what it does with it. -/
  | load (k : ℕ)
  /-- `persist_material`. -/
  | persist (k : ℕ)

namespace VaultSystem

def init : VaultSystem := ⟨KeySystem.init, [], [], []⟩

def setCall (s : VaultSystem) (k : ℕ) (call : VaultCall) : VaultSystem :=
  { s with calls := s.calls.set k call }

/-- The one-time prekey secrets that a step generates. -/
def generates : KeyAction → List Bytes
  | .commit _ generated _ => generated.secret.secrets
  | _ => []

/-- What the generators do: they make pairs of keys, and no secret that was drawn before. -/
def Random (crypto : VaultCrypto) (s : VaultSystem) : VaultAction → Prop
  | .keys (.commit _ generated _) =>
    generated.Paired crypto ∧ ∀ secret ∈ generated.secret.secrets, secret ∉ s.drawn
  | _ => True

/-- What a call does with the material it has loaded. -/
def openWith (crypto : InboundCrypto) (botUid : Int64) (wire : InboundWire)
    (envelope : DeferredEnvelope) (material : BotSecretMaterial) : VaultCall :=
  match crypto.openEnvelope wire envelope material,
    envelope.usedOneTimePrekeyId.bind material.oneTimePrekey with
  | .ok (_, some material), some secret => .opened botUid secret material
  | _, _ => .done

def step (ver : ℤ) (crypto : VaultCrypto) (s : VaultSystem) : VaultAction → Option VaultSystem
  | .keys a => (s.keys.step ver a).map fun keys ↦ { s with keys, drawn := generates a ++ s.drawn }
  | .consume id => some { s with
      keys := { s.keys with db := { s.keys.db with prekeys := s.keys.db.prekeys.consume id } } }
  | .receive botUid wire envelope =>
    some { s with calls := s.calls ++ [.selected botUid wire envelope] }
  | .load k =>
    match s.calls[k]? with
    | some (.selected botUid wire envelope) =>
      match s.keys.db.bots.get botUid with
      | none => some (s.setCall k .done)
      | some row => some (s.setCall k (openWith crypto.inbound botUid wire envelope row.material))
    | _ => none
  | .persist k =>
    match s.calls[k]? with
    | some (.opened botUid secret material) =>
      some { s.setCall k .done with
        keys := { s.keys with db := s.keys.db.persistMaterial botUid material }
        removed := (botUid, secret) :: s.removed }
    | _ => none

/-- No call is in progress. -/
def Idle (s : VaultSystem) : Prop :=
  (∀ call ∈ s.calls, call.isDone = true) ∧ ∀ task ∈ s.keys.tasks, task.isDone = true

instance (s : VaultSystem) : Decidable s.Idle := inferInstanceAs (Decidable (_ ∧ _))

/-- The vault of every bot has the private halves of what is published for its device, and no secret
that was used. -/
structure Kept (crypto : VaultCrypto) (s : VaultSystem) : Prop where
  keys : ∀ uid row, s.keys.db.bots.get uid = some row →
    ∃ identity, s.keys.db.identities.get (uid, row.deviceId) = some identity ∧
      row.material.Backs crypto identity.keys
  prekeys : ∀ uid row, s.keys.db.bots.get uid = some row → ∀ id prekey,
    s.keys.db.prekeys.rows.get id = some prekey → prekey.owner = (uid, row.deviceId) →
      prekey.consumed = false → row.material.Holds crypto prekey.keyId prekey.publicKey
  removed : ∀ uid row, s.keys.db.bots.get uid = some row → ∀ secret,
    (uid, secret) ∈ s.removed → secret ∉ row.material.secrets

/-- What is written back is the vault as it is, less secrets of one-time prekeys that are not
offered any more. -/
structure WritesBack (crypto : VaultCrypto) (db : KeyTables) (botUid : Int64)
    (row : StoredIdentityRow) (material : BotSecretMaterial) : Prop where
  identityX25519 : material.identityX25519 = row.material.identityX25519
  identityEd25519 : material.identityEd25519 = row.material.identityEd25519
  signedPrekeySecret : material.signedPrekeySecret = row.material.signedPrekeySecret
  subset : material.oneTimePrekeys ⊆ row.material.oneTimePrekeys
  offered : ∀ r ∈ db.prekeys.rows.rows, r.2.owner = (botUid, row.deviceId) →
    r.2.consumed = false → material.Holds crypto r.2.keyId r.2.publicKey

instance (crypto : VaultCrypto) (db : KeyTables) (botUid : Int64) (row : StoredIdentityRow)
    (material : BotSecretMaterial) : Decidable (WritesBack crypto db botUid row material) :=
  decidable_of_iff (_ ∧ _ ∧ _ ∧ _ ∧ _)
    ⟨fun ⟨hx, he, hspk, hsub, hoff⟩ ↦ ⟨hx, he, hspk, hsub, hoff⟩,
      fun ⟨hx, he, hspk, hsub, hoff⟩ ↦ ⟨hx, he, hspk, hsub, hoff⟩⟩

/-- A device with the name of the bot's publishes nothing but the keys of the vault; a rotation has
read the identity that is still in the vault; and a call writes back the vault less secrets that are
not offered any more. -/
def Careful (crypto : VaultCrypto) (s : VaultSystem) : VaultAction → Prop
  | .keys (.putIdentity token req _) => ∀ row ∈ s.keys.db.bots.get token.uid,
      req.deviceId = row.deviceId → row.material.Backs crypto req.keys
  | .keys (.putPrekeys token req) => req.deviceId = botDeviceId token.uid → ∀ key ∈ req.keys,
      ∃ row ∈ s.keys.db.bots.get token.uid, row.material.Holds crypto key.1 key.2
  | .keys (.commit i _ _) => ∀ r ∈ (s.keys.tasks[i]?).bind BotTask.loaded,
      ∀ row ∈ s.keys.db.bots.get r.1,
        r.2.identityX25519 = row.material.identityX25519 ∧
          r.2.identityEd25519 = row.material.identityEd25519
  | .persist k => ∀ r ∈ (s.calls[k]?).bind VaultCall.written, ∀ row ∈ s.keys.db.bots.get r.1,
      WritesBack crypto s.keys.db r.1 row r.2
  | _ => True

instance (crypto : VaultCrypto) (s : VaultSystem) (a : VaultAction) :
    Decidable (s.Random crypto a) := by
  cases a with
  | keys a => cases a <;> unfold Random <;> infer_instance
  | _ => unfold Random; infer_instance

instance (crypto : VaultCrypto) (s : VaultSystem) (a : VaultAction) :
    Decidable (s.Careful crypto a) := by
  cases a with
  | keys a => cases a <;> unfold Careful <;> infer_instance
  | _ => unfold Careful; infer_instance

end VaultSystem

/-! ### One-time prekeys that are offered -/

namespace PrekeyTable

variable {t t' : PrekeyTable} {owner : DeviceKey} {keys : List (ℤ × String)} {id : ℕ}
  {row : PrekeyRow}

/-- Rows that are inserted are rows of these keys. -/
theorem get_insertAll (h : insertAll owner keys t = some t') (hrow : t'.rows.get id = some row) :
    t.rows.get id = some row ∨ row.owner = owner ∧ (row.keyId, row.publicKey) ∈ keys := by
  induction keys generalizing t with
  | nil =>
    obtain rfl := Option.some_inj.1 h
    exact .inl hrow
  | cons key keys ih =>
    rw [insertAll] at h
    split at h
    · cases h
    · rcases ih h with hold | ⟨howner, hmem⟩
      · rw [append, Table.get_put] at hold
        split at hold
        · obtain rfl := Option.some_inj.1 hold
          exact .inr ⟨rfl, List.mem_cons_self⟩
        · exact .inl hold
      · exact .inr ⟨howner, List.mem_cons_of_mem _ hmem⟩

theorem get_upsertAll (hrow : (upsertAll owner keys t).rows.get id = some row) :
    t.rows.get id = some row ∨ row.owner = owner ∧ (row.keyId, row.publicKey) ∈ keys := by
  induction keys generalizing t with
  | nil => exact .inl hrow
  | cons key keys ih =>
    rw [upsertAll] at hrow
    split at hrow
    · rename_i id' row' hfind
      rw [find] at hfind
      have hfound := List.find?_some hfind
      rw [decide_eq_true_iff] at hfound
      obtain ⟨howner, hkey⟩ := hfound
      have hget : t.rows.get id' = some row' :=
        Table.get_eq_some.2 (List.mem_of_find?_eq_some hfind)
      rcases ih hrow with hold | ⟨howner, hmem⟩
      · rw [modify, Table.get_modify] at hold
        split at hold
        · rename_i hid
          rw [hid, hget] at hold
          obtain rfl := Option.some_inj.1 hold
          exact .inr ⟨howner, List.mem_cons.2 (.inl (Prod.ext hkey rfl))⟩
        · exact .inl hold
      · exact .inr ⟨howner, List.mem_cons_of_mem _ hmem⟩
    · rcases ih hrow with hold | ⟨howner, hmem⟩
      · rw [append, Table.get_put] at hold
        split at hold
        · obtain rfl := Option.some_inj.1 hold
          exact .inr ⟨rfl, List.mem_cons_self⟩
        · exact .inl hold
      · exact .inr ⟨howner, List.mem_cons_of_mem _ hmem⟩

theorem get_delete {p : PrekeyRow → Bool} (hrow : (t.delete p).rows.get id = some row) :
    t.rows.get id = some row ∧ p row = false := by
  obtain ⟨hget, hkeep⟩ := Table.get_filter.1 hrow
  exact ⟨hget, by simpa using hkeep⟩

/-- Consuming a prekey leaves the others. -/
theorem get_of_consume {l : ℕ} (hrow : (t.consume l).rows.get id = some row)
    (hconsumed : row.consumed = false) : t.rows.get id = some row := by
  rw [consume, modify, Table.get_modify] at hrow
  split at hrow
  · obtain ⟨row', -, rfl⟩ := Option.map_eq_some_iff.1 hrow
    cases hconsumed
  · exact hrow

end PrekeyTable

/-- The secrets of the prekeys that are published are there. -/
theorem GeneratedMaterial.Paired.holds {crypto : VaultCrypto} {generated : GeneratedMaterial}
    (h : generated.Paired crypto) {keyId : ℤ} {publicKey : String}
    (hmem : (keyId, publicKey) ∈ generated.otpPublics) :
    generated.secret.Holds crypto keyId publicKey := by
  rw [h.otpPublics] at hmem
  obtain ⟨otp, hotp, heq⟩ := List.mem_map.1 hmem
  obtain ⟨hid, hpublic⟩ := Prod.ext_iff.1 heq
  exact ⟨otp, hotp, hid, hpublic⟩

/-! ### The tables -/

namespace KeyTables

variable {crypto : VaultCrypto} {db db' : KeyTables} {uid : Int64} {generated : GeneratedMaterial}
  {now : ℤ} {row : StoredIdentityRow} {existing : StoredIdentityRow} {material : BotSecretMaterial}

/-- The vaults of the bots and what is published fit together. -/
structure Vaults (crypto : VaultCrypto) (db : KeyTables) : Prop where
  device : ∀ uid row, db.bots.get uid = some row → row.deviceId = botDeviceId uid
  keys : ∀ uid row, db.bots.get uid = some row → ∃ identity,
    db.identities.get (uid, botDeviceId uid) = some identity ∧
      row.material.Backs crypto identity.keys
  prekeys : ∀ uid id prekey, db.prekeys.rows.get id = some prekey →
    prekey.owner = (uid, botDeviceId uid) → prekey.consumed = false →
      ∃ row, db.bots.get uid = some row ∧
        row.material.Holds crypto prekey.keyId prekey.publicKey

/-- Requests that leave the vaults and the published keys, and offer no new prekeys. -/
theorem Vaults.of_frame (h : db.Vaults crypto) (hbots : db'.bots = db.bots)
    (hidentities : ∀ k row, db.identities.get k = some row →
      ∃ row', db'.identities.get k = some row' ∧ row'.keys = row.keys)
    (hprekeys : ∀ id prekey, db'.prekeys.rows.get id = some prekey → prekey.consumed = false →
      db.prekeys.rows.get id = some prekey) : db'.Vaults crypto where
  device uid row hrow := h.device uid row (hbots ▸ hrow)
  keys uid row hrow := by
    obtain ⟨identity, hget, hbacks⟩ := h.keys uid row (hbots ▸ hrow)
    obtain ⟨identity', hget', hkeys⟩ := hidentities _ _ hget
    exact ⟨identity', hget', hkeys ▸ hbacks⟩
  prekeys uid id prekey hrow howner hconsumed := by
    rw [hbots]
    exact h.prekeys uid id prekey (hprekeys id prekey hrow hconsumed) howner hconsumed

/-- A transaction that writes the vault of a bot, and publishes for its device. -/
theorem Vaults.replace (h : db.Vaults crypto)
    (hbots : ∀ u, db'.bots.get u = if u = uid then some row else db.bots.get u)
    (hdevice : row.deviceId = botDeviceId uid)
    (hself : ∃ identity, db'.identities.get (uid, botDeviceId uid) = some identity ∧
      row.material.Backs crypto identity.keys)
    (hother : ∀ k, k ≠ (uid, botDeviceId uid) → db'.identities.get k = db.identities.get k)
    (hprekeys : ∀ id prekey, db'.prekeys.rows.get id = some prekey → prekey.consumed = false →
      (prekey.owner = (uid, botDeviceId uid) →
        row.material.Holds crypto prekey.keyId prekey.publicKey) ∧
      (prekey.owner ≠ (uid, botDeviceId uid) → db.prekeys.rows.get id = some prekey)) :
    db'.Vaults crypto where
  device u row' hrow := by
    rw [hbots] at hrow
    split at hrow
    · rename_i hu
      obtain rfl := Option.some_inj.1 hrow
      rw [hu]
      exact hdevice
    · exact h.device u row' hrow
  keys u row' hrow := by
    rw [hbots] at hrow
    split at hrow
    · rename_i hu
      obtain rfl := Option.some_inj.1 hrow
      rw [hu]
      exact hself
    · rename_i hu
      rw [hother _ fun heq ↦ hu (Prod.ext_iff.1 heq).1]
      exact h.keys u row' hrow
  prekeys u id prekey hrow howner hconsumed := by
    obtain ⟨hown, hkept⟩ := hprekeys id prekey hrow hconsumed
    rw [hbots]
    by_cases hu : u = uid
    · subst hu
      exact ⟨row, if_pos rfl, hown howner⟩
    · rw [if_neg hu]
      refine h.prekeys u id prekey (hkept fun heq ↦ hu ?_) howner hconsumed
      exact (Prod.ext_iff.1 (howner.symm.trans heq)).1

/-- A vault that is there is changed. -/
theorem get_bots_modify {existing : StoredIdentityRow} (hrow : db.bots.get uid = some existing)
    (f : StoredIdentityRow → StoredIdentityRow) (u : Int64) :
    (db.bots.modify uid f).get u = if u = uid then some (f existing) else db.bots.get u := by
  rw [Table.get_modify]
  split
  · rename_i hu
    rw [hu, hrow]
    rfl
  · rfl

theorem initializeBot_vaults (h : db.Vaults crypto) (hpaired : generated.Paired crypto)
    (hdb : db.initializeBot uid generated now = .ok db') :
    db'.Vaults crypto ∧ ∀ u, db'.bots.get u =
      if u = uid then some ⟨botDeviceId uid, 1, generated.secret⟩ else db.bots.get u := by
  simp only [initializeBot, Guards.bind_eq_ok, Guards.ensure_eq_ok, Guards.exists_unit,
    identities_login] at hdb
  obtain ⟨⟨-, hnone⟩, hdb⟩ := hdb
  have hlogin : (db.login (uid, botDeviceId uid)).bots = db.bots ∧
      (db.login (uid, botDeviceId uid)).prekeys = db.prekeys := by
    rw [login]
    split <;> exact ⟨rfl, rfl⟩
  rw [hlogin.1] at hnone
  split at hdb
  · cases hdb
  rename_i prekeys hinsert
  rw [hlogin.2] at hinsert
  obtain rfl := Except.ok.inj hdb
  have hbots : ∀ u, ((db.login (uid, botDeviceId uid)).bots.put uid
      ⟨botDeviceId uid, 1, generated.secret⟩).get u =
        if u = uid then some ⟨botDeviceId uid, 1, generated.secret⟩ else db.bots.get u := by
    intro u
    rw [Table.get_put, hlogin.1]
  refine ⟨h.replace hbots rfl ⟨_, Table.get_put_self _ _ _, hpaired.backs⟩
    (fun k hk ↦ Table.get_put_of_ne _ _ hk) fun id prekey hrow hconsumed ↦ ?_, hbots⟩
  rcases PrekeyTable.get_insertAll hinsert hrow with hold | ⟨howner, hmem⟩
  · refine ⟨fun howner ↦ ?_, fun _ ↦ hold⟩
    -- nothing is offered for the device yet
    obtain ⟨row, hget, -⟩ := h.prekeys uid id prekey hold howner hconsumed
    rw [hnone] at hget
    cases hget
  · exact ⟨fun _ ↦ hpaired.holds hmem, fun hne ↦ absurd howner hne⟩

theorem rebuildBot_vaults (h : db.Vaults crypto) (hpaired : generated.Paired crypto)
    (hrow : db.bots.get uid = some row) (hdevice : existing.deviceId = botDeviceId uid)
    (hdb : db.rebuildBot uid existing generated now = .ok db') :
    db'.Vaults crypto ∧ ∀ u, db'.bots.get u = if u = uid then
      some { row with keyVersion := existing.keyVersion + 1, material := generated.secret }
      else db.bots.get u := by
  rw [rebuildBot] at hdb
  split at hdb
  · cases hdb
  rename_i prekeys hinsert
  obtain rfl := Except.ok.inj hdb
  have hbots := get_bots_modify hrow fun row ↦
    { row with keyVersion := existing.keyVersion + 1, material := generated.secret }
  obtain ⟨identity, hidentity, -⟩ := h.keys uid row hrow
  refine ⟨h.replace hbots (h.device uid row hrow)
    ⟨⟨generated.keys, now, existing.keyVersion + 1, none⟩, ?_, hpaired.backs⟩ (fun k hk ↦ ?_)
    fun id prekey hget hconsumed ↦ ?_, hbots⟩
  · rw [hdevice, Table.get_modify, if_pos rfl, hidentity]
    rfl
  · rw [hdevice, Table.get_modify, if_neg hk]
  · rw [hdevice] at hinsert
    rcases PrekeyTable.get_insertAll hinsert hget with hold | ⟨howner, hmem⟩
    · obtain ⟨hold, hkept⟩ := PrekeyTable.get_delete hold
      exact ⟨fun howner ↦ absurd howner (of_decide_eq_false hkept), fun _ ↦ hold⟩
    · exact ⟨fun _ ↦ hpaired.holds hmem, fun hne ↦ absurd howner hne⟩

/-- Rotating keeps the identity, which is to be the one in the vault. -/
theorem rotateBot_vaults (now : ℤ) (h : db.Vaults crypto) (hpaired : generated.Paired crypto)
    (hrow : db.bots.get uid = some row) (hdevice : existing.deviceId = botDeviceId uid)
    (hx25519 : material.identityX25519 = row.material.identityX25519)
    (hed25519 : material.identityEd25519 = row.material.identityEd25519) :
    (db.rotateBot uid existing material generated now).Vaults crypto ∧
      ∀ u, (db.rotateBot uid existing material generated now).bots.get u = if u = uid then
        some { row with
          keyVersion := existing.keyVersion + 1
          material := { material with
            signedPrekeySecret := generated.secret.signedPrekeySecret
            oneTimePrekeys := generated.secret.oneTimePrekeys } }
        else db.bots.get u := by
  have hbots := get_bots_modify hrow fun row ↦ { row with
    keyVersion := existing.keyVersion + 1
    material := { material with
      signedPrekeySecret := generated.secret.signedPrekeySecret
      oneTimePrekeys := generated.secret.oneTimePrekeys } }
  obtain ⟨identity, hidentity, hbacks⟩ := h.keys uid row hrow
  refine ⟨h.replace hbots (h.device uid row hrow)
    ⟨⟨generated.rotated identity.keys, now, existing.keyVersion + 1, identity.retiredAt⟩, ?_, ?_,
      hpaired.backs.signedPrekey⟩
    (fun k hk ↦ ?_) fun id prekey hget hconsumed ↦ ?_, hbots⟩
  · rw [rotateBot, hdevice, Table.get_modify, if_pos rfl, hidentity]
    rfl
  · show identity.keys.identityKeyPub = _
    rw [hbacks.identity, ← hx25519, ← hed25519]
  · rw [rotateBot, hdevice, Table.get_modify, if_neg hk]
  · rw [rotateBot, hdevice] at hget
    rcases PrekeyTable.get_upsertAll hget with hold | ⟨howner, hmem⟩
    · obtain ⟨hold, hkept⟩ := PrekeyTable.get_delete hold
      refine ⟨fun howner ↦ ?_, fun _ ↦ hold⟩
      simp [howner, hconsumed] at hkept
    · exact ⟨fun _ ↦ hpaired.holds hmem, fun hne ↦ absurd howner hne⟩

theorem persistMaterial_vaults (h : db.Vaults crypto) (hrow : db.bots.get uid = some row)
    (hwrites : VaultSystem.WritesBack crypto db uid row material) :
    (db.persistMaterial uid material).Vaults crypto ∧
      ∀ u, (db.persistMaterial uid material).bots.get u =
        if u = uid then some { row with material } else db.bots.get u := by
  have hbots := get_bots_modify hrow fun row ↦ { row with material }
  have hdevice := h.device uid row hrow
  obtain ⟨identity, hidentity, hbacks⟩ := h.keys uid row hrow
  refine ⟨h.replace hbots hdevice ⟨identity, hidentity, ?_, ?_⟩ (fun _ _ ↦ rfl)
    fun id prekey hget hconsumed ↦ ⟨fun howner ↦ ?_, fun _ ↦ hget⟩, hbots⟩
  · show _ = crypto.identityPublic material.identityX25519 material.identityEd25519
    rw [hwrites.identityX25519, hwrites.identityEd25519]
    exact hbacks.identity
  · show _ = some (crypto.dhPublic material.signedPrekeySecret)
    rw [hwrites.signedPrekeySecret]
    exact hbacks.signedPrekey
  · exact hwrites.offered (id, prekey) (Table.get_eq_some.1 hget) (hdevice ▸ howner) hconsumed

theorem putIdentity_vaults {ver version : ℤ} {token : Token} {req : PutE2eIdentityRequest}
    (h : db.Vaults crypto) (hput : db.putIdentity ver token req now = .ok (version, db'))
    (hcareful : ∀ row, db.bots.get token.uid = some row → req.deviceId = row.deviceId →
      row.material.Backs crypto req.keys) : db'.Vaults crypto ∧ db'.bots = db.bots := by
  obtain ⟨-, -, -, -, -, rfl⟩ := putIdentity_eq_ok.1 hput
  refine ⟨⟨h.device, fun uid row hrow ↦ ?_, h.prekeys⟩, rfl⟩
  by_cases hk : (uid, botDeviceId uid) = (token.uid, req.deviceId)
  · obtain ⟨rfl, hdevice⟩ := Prod.ext_iff.1 hk
    refine ⟨.publish req.keys now (db.identities.get (token.uid, req.deviceId)), ?_, ?_⟩
    · rw [hk]
      exact Table.get_put_self _ _ _
    · rw [IdentityRow.keys_publish]
      exact hcareful row hrow (hdevice.symm.trans (h.device _ row hrow).symm)
  · obtain ⟨identity, hidentity, hbacks⟩ := h.keys uid row hrow
    exact ⟨identity, (Table.get_put_of_ne _ _ hk).trans hidentity, hbacks⟩

theorem putPrekeys_vaults {token : Token} {req : PutE2ePrekeysRequest} (h : db.Vaults crypto)
    (hput : db.putPrekeys token req = .ok db')
    (hcareful : req.deviceId = botDeviceId token.uid → ∀ key ∈ req.keys,
      ∃ row, db.bots.get token.uid = some row ∧ row.material.Holds crypto key.1 key.2) :
    db'.Vaults crypto ∧ db'.bots = db.bots := by
  simp only [putPrekeys, validateAuthenticatedDevice, Guards.bind_eq_ok, Guards.mapError_eq_ok,
    Guards.ensure_eq_ok, Guards.exists_unit] at hput
  obtain ⟨-, -, hput⟩ := hput
  split at hput
  · rename_i prekeys hinsert
    obtain rfl := Except.ok.inj hput
    refine ⟨⟨h.device, h.keys, fun uid id prekey hget howner hconsumed ↦ ?_⟩, rfl⟩
    rcases PrekeyTable.get_insertAll hinsert hget with hold | ⟨hnew, hmem⟩
    · exact h.prekeys uid id prekey (PrekeyTable.get_delete hold).1 howner hconsumed
    · obtain ⟨rfl, hdevice⟩ := Prod.ext_iff.1 (hnew.symm.trans howner)
      exact hcareful hdevice _ hmem
  · cases hput

/-- Devices come and go, and prekeys are consumed. -/
theorem Vaults.consume (h : db.Vaults crypto) (id : ℕ) :
    KeyTables.Vaults crypto { db with prekeys := db.prekeys.consume id } :=
  h.of_frame rfl (fun _ row hrow ↦ ⟨row, hrow, rfl⟩) fun _ _ hget hconsumed ↦
    PrekeyTable.get_of_consume hget hconsumed

theorem Vaults.retire (h : db.Vaults crypto) (k : DeviceKey) (now : ℤ) :
    ((db.removeDevice k).retire k now).Vaults crypto := by
  refine h.of_frame rfl (fun l row hrow ↦ ?_) fun _ _ hget _ ↦ hget
  by_cases hl : l = k
  · refine ⟨{ row with retiredAt := row.retiredAt.or (some now) }, ?_, rfl⟩
    rw [KeyTables.retire, Table.get_modify, if_pos hl]
    exact congrArg (Option.map _) hrow
  · refine ⟨row, ?_, rfl⟩
    rw [KeyTables.retire, Table.get_modify, if_neg hl]
    exact hrow

end KeyTables

/-! ### Requests about keys -/

/-- The vault that a task has read is there, for the device that all bots have. -/
def BotTask.Reads (db : KeyTables) : BotTask → Prop
  | .rotating botUid existing _ | .rebuilding botUid existing =>
    existing.deviceId = botDeviceId botUid ∧ (db.bots.get botUid).isSome
  | .initializing _ | .done => True

theorem BotTask.Reads.mono {db db' : KeyTables} {task : BotTask} (h : task.Reads db)
    (hbots : ∀ u, (db.bots.get u).isSome → (db'.bots.get u).isSome) : task.Reads db' := by
  cases task with
  | rotating botUid existing material => exact ⟨h.1, hbots botUid h.2⟩
  | rebuilding botUid existing => exact ⟨h.1, hbots botUid h.2⟩
  | initializing botUid => trivial
  | done => trivial

namespace VaultSystem

variable {ver : ℤ} {crypto : VaultCrypto} {s t : VaultSystem} {k : ℕ}

/-- The vaults fit, and so does what the tasks have read. -/
structure Fits (crypto : VaultCrypto) (keys : KeySystem) : Prop where
  vaults : keys.db.Vaults crypto
  tasks : ∀ task ∈ keys.tasks, task.Reads keys.db

/-- Each vault is as it was, or has new one-time prekeys. -/
def Renews (secrets : List Bytes) (db db' : KeyTables) : Prop :=
  ∀ uid, db'.bots.get uid = db.bots.get uid ∨
    ∃ row, db'.bots.get uid = some row ∧ row.material.secrets = secrets

theorem Renews.of_eq {secrets : List Bytes} {db db' : KeyTables} (h : db'.bots = db.bots) :
    Renews secrets db db' :=
  fun _ ↦ .inl (h ▸ rfl)

theorem Renews.of_get {secrets : List Bytes} {db db' : KeyTables} {uid : Int64}
    {row : StoredIdentityRow}
    (h : ∀ u, db'.bots.get u = if u = uid then some row else db.bots.get u)
    (hrow : row.material.secrets = secrets) : Renews secrets db db' := by
  intro u
  rw [h u]
  split
  · exact .inr ⟨row, rfl, hrow⟩
  · exact .inl rfl

theorem Renews.isSome {secrets : List Bytes} {db db' : KeyTables} (h : Renews secrets db db')
    (u : Int64) (hsome : (db.bots.get u).isSome) : (db'.bots.get u).isSome := by
  rcases h u with hsame | ⟨row, hrow, -⟩
  · rwa [hsame]
  · rw [hrow]
    rfl

/-- New tables, with the same tasks or some that read the vaults as they are. -/
theorem Fits.with_db {keys keys' : KeySystem} {secrets : List Bytes} (h : Fits crypto keys)
    (hvaults : keys'.db.Vaults crypto) (hrenews : Renews secrets keys.db keys'.db)
    (htasks : ∀ task ∈ keys'.tasks, task ∈ keys.tasks ∨ task.Reads keys'.db) :
    Fits crypto keys' ∧ Renews secrets keys.db keys'.db :=
  ⟨⟨hvaults, fun task htask ↦ (htasks task htask).elim
    (fun hold ↦ (h.tasks task hold).mono hrenews.isSome) id⟩, hrenews⟩

/-- A transaction, of which it is enough to look at its success. -/
theorem Fits.transact {ε : Type} {keys : KeySystem} {secrets : List Bytes} (h : Fits crypto keys)
    {result : Except ε KeyTables} (hok : ∀ db, result = .ok db →
      db.Vaults crypto ∧ Renews secrets keys.db db) :
    Fits crypto (keys.transact result) ∧ Renews secrets keys.db (keys.transact result).db := by
  cases result with
  | error e => exact ⟨h, .of_eq rfl⟩
  | ok db =>
    obtain ⟨hvaults, hrenews⟩ := hok db rfl
    exact h.with_db hvaults hrenews fun task htask ↦ .inl htask

theorem Fits.start {keys : KeySystem} (h : Fits crypto keys)
    {result : Except BotE2eeError BotTask} (hok : ∀ task, result = .ok task → task.Reads keys.db) :
    Fits crypto (keys.start result) ∧ Renews [] keys.db (keys.start result).db := by
  cases result with
  | error e => exact ⟨h, .of_eq rfl⟩
  | ok task =>
    refine h.with_db h.vaults (.of_eq rfl) fun task' htask' ↦ ?_
    rcases List.mem_append.1 htask' with hold | hnew
    · exact .inl hold
    · exact .inr (List.mem_singleton.1 hnew ▸ hok task rfl)

theorem Fits.finish {keys : KeySystem} (h : Fits crypto keys) (i : ℕ) :
    Fits crypto (keys.finish i) := by
  refine ⟨h.vaults, fun task htask ↦ ?_⟩
  rcases List.mem_or_eq_of_mem_set htask with hold | rfl
  · exact h.tasks task hold
  · trivial

/-- The transaction of a task. -/
theorem Fits.commit (h : Fits crypto s.keys) {i : ℕ} {generated : GeneratedMaterial} {now : ℤ}
    {keys : KeySystem} (hpaired : generated.Paired crypto)
    (hcareful : s.Careful crypto (.keys (.commit i generated now)))
    (hstep : s.keys.step ver (.commit i generated now) = some keys) :
    Fits crypto keys ∧ Renews generated.secret.secrets s.keys.db keys.db := by
  have hfinish := h.finish i
  have htasks : ∀ task ∈ (s.keys.finish i).tasks, task ∈ s.keys.tasks ∨ task.Reads s.keys.db :=
    fun task htask ↦ .inr (hfinish.tasks task htask)
  rw [KeySystem.step] at hstep
  split at hstep
  · rename_i botUid htask
    obtain rfl := Option.some_inj.1 hstep
    refine hfinish.transact fun db hok ↦ ?_
    obtain ⟨hvaults, hget⟩ := KeyTables.initializeBot_vaults h.vaults hpaired hok
    exact ⟨hvaults, .of_get hget rfl⟩
  · rename_i botUid existing material htask
    obtain rfl := Option.some_inj.1 hstep
    obtain ⟨hdevice, hsome⟩ := h.tasks _ (List.mem_of_getElem? htask)
    obtain ⟨row, hrow⟩ := Option.isSome_iff_exists.1 hsome
    obtain ⟨hx25519, hed25519⟩ := hcareful (botUid, material) (by rw [htask]; rfl) row hrow
    obtain ⟨hvaults, hget⟩ := KeyTables.rotateBot_vaults now h.vaults hpaired hrow hdevice hx25519
      hed25519
    have hrenews : Renews generated.secret.secrets s.keys.db _ := .of_get hget rfl
    exact hfinish.with_db hvaults hrenews fun task htask ↦ .inl htask
  · rename_i botUid existing htask
    obtain rfl := Option.some_inj.1 hstep
    obtain ⟨hdevice, hsome⟩ := h.tasks _ (List.mem_of_getElem? htask)
    obtain ⟨row, hrow⟩ := Option.isSome_iff_exists.1 hsome
    refine hfinish.transact fun db hok ↦ ?_
    obtain ⟨hvaults, hget⟩ := KeyTables.rebuildBot_vaults h.vaults hpaired hrow hdevice hok
    exact ⟨hvaults, .of_get hget rfl⟩
  · cases hstep

/-- **A request about keys**, or a step of a bot's task. -/
theorem Fits.step (h : Fits crypto s.keys) {a : KeyAction} {keys : KeySystem}
    (hrandom : s.Random crypto (.keys a)) (hcareful : s.Careful crypto (.keys a))
    (hstep : s.keys.step ver a = some keys) :
    Fits crypto keys ∧ Renews (generates a) s.keys.db keys.db := by
  cases a with
  | putIdentity token req now =>
    obtain rfl := Option.some_inj.1 hstep
    refine h.transact fun db hok ↦ ?_
    cases hput : s.keys.db.putIdentity ver token req now with
    | error e =>
      rw [hput] at hok
      cases hok
    | ok r =>
      rw [hput] at hok
      obtain rfl : r.2 = db := Except.ok.inj hok
      obtain ⟨hvaults, hbots⟩ := KeyTables.putIdentity_vaults h.vaults hput hcareful
      exact ⟨hvaults, .of_eq hbots⟩
  | putPrekeys token req =>
    obtain rfl := Option.some_inj.1 hstep
    refine h.transact fun db hok ↦ ?_
    obtain ⟨hvaults, hbots⟩ := KeyTables.putPrekeys_vaults h.vaults hok hcareful
    exact ⟨hvaults, .of_eq hbots⟩
  | getBundle uid deviceId =>
    obtain rfl := Option.some_inj.1 hstep
    refine h.transact fun db hok ↦ ?_
    cases hbundle : s.keys.db.getBundle ver uid deviceId with
    | error e =>
      rw [hbundle] at hok
      cases hok
    | ok r =>
      rw [hbundle] at hok
      obtain rfl : r.2 = db := Except.ok.inj hok
      obtain ⟨k, row, -, -, -, hdb⟩ := KeyTables.getBundle_eq_ok.1 hbundle
      rw [hdb, KeyTables.takePrekey]
      split
      · exact ⟨h.vaults, .of_eq rfl⟩
      · exact ⟨h.vaults.consume _, .of_eq rfl⟩
  | deleteDevice token device now =>
    obtain rfl := Option.some_inj.1 hstep
    refine h.transact fun db hok ↦ ?_
    obtain ⟨-, -, rfl⟩ := KeyTables.deleteDevice_eq_ok.1 hok
    exact ⟨h.vaults.retire _ _, .of_eq rfl⟩
  | logout token now =>
    obtain rfl := Option.some_inj.1 hstep
    exact h.with_db (h.vaults.retire _ _) (.of_eq rfl) fun task htask ↦ .inl htask
  | login uid device =>
    obtain rfl := Option.some_inj.1 hstep
    have hlogin : (s.keys.db.login (uid, device)).bots = s.keys.db.bots ∧
        (s.keys.db.login (uid, device)).prekeys = s.keys.db.prekeys := by
      rw [KeyTables.login]
      split <;> exact ⟨rfl, rfl⟩
    refine h.with_db ?_ (.of_eq hlogin.1) fun task htask ↦ .inl htask
    refine h.vaults.of_frame hlogin.1 (fun k row hrow ↦ ⟨row, ?_, rfl⟩) fun id prekey hget _ ↦ ?_
    · rw [KeyTables.identities_login]
      exact hrow
    · exact hlogin.2 ▸ hget
  | readInitialize botUid =>
    obtain rfl := Option.some_inj.1 hstep
    refine h.start fun task hok ↦ ?_
    split at hok
    · cases hok
    · obtain rfl := Except.ok.inj hok
      trivial
  | readRotate botUid =>
    obtain rfl := Option.some_inj.1 hstep
    refine h.start fun task hok ↦ ?_
    split at hok
    · cases hok
    · rename_i existing hget
      obtain rfl := Except.ok.inj hok
      exact ⟨h.vaults.device _ _ hget, by rw [hget]; rfl⟩
  | readRebuild botUid confirm =>
    obtain rfl := Option.some_inj.1 hstep
    refine h.start fun task hok ↦ ?_
    split at hok
    · split at hok
      · cases hok
      · rename_i existing hget
        obtain rfl := Except.ok.inj hok
        exact ⟨h.vaults.device _ _ hget, by rw [hget]; rfl⟩
    · cases hok
  | loadMaterial i =>
    rw [KeySystem.step] at hstep
    split at hstep
    · rename_i botUid existing htask
      have hreads : (BotTask.rotating botUid existing none).Reads s.keys.db :=
        h.tasks _ (List.mem_of_getElem? htask)
      split at hstep
      · obtain rfl := Option.some_inj.1 hstep
        exact ⟨h.finish i, .of_eq rfl⟩
      · obtain rfl := Option.some_inj.1 hstep
        refine h.with_db h.vaults (.of_eq rfl) fun task hmem ↦ ?_
        rcases List.mem_or_eq_of_mem_set hmem with hold | rfl
        · exact .inl hold
        · exact .inr hreads
    · cases hstep
  | commit i generated now => exact h.commit hrandom.1 hcareful hstep

/-! ### Secrets that were removed -/

/-- The secrets of the vaults and of the calls were drawn, and are not among those removed. -/
structure Accounted (s : VaultSystem) : Prop where
  nodup : ∀ uid row, s.keys.db.bots.get uid = some row → row.material.secrets.Nodup
  drawn : ∀ uid row, s.keys.db.bots.get uid = some row → row.material.secrets ⊆ s.drawn
  removed : ∀ uid secret, (uid, secret) ∈ s.removed → secret ∈ s.drawn ∧
    ∀ row, s.keys.db.bots.get uid = some row → secret ∉ row.material.secrets
  calls : ∀ botUid secret material, .opened botUid secret material ∈ s.calls →
    (s.keys.db.bots.get botUid).isSome ∧ secret ∈ s.drawn ∧ secret ∉ material.secrets ∧
      material.secrets.Nodup

/-- New one-time prekeys have secrets that were not drawn before. -/
theorem Accounted.renew (h : s.Accounted) {secrets : List Bytes} {keys : KeySystem}
    (hrenews : Renews secrets s.keys.db keys.db) (hnodup : secrets.Nodup)
    (hfresh : ∀ secret ∈ secrets, secret ∉ s.drawn) :
    Accounted { s with keys, drawn := secrets ++ s.drawn } where
  nodup uid row hrow := by
    rcases hrenews uid with hsame | ⟨row', hrow', rfl⟩
    · exact h.nodup uid row (hsame ▸ hrow)
    · obtain rfl := Option.some_inj.1 (hrow.symm.trans hrow')
      exact hnodup
  drawn uid row hrow := by
    rcases hrenews uid with hsame | ⟨row', hrow', rfl⟩
    · exact List.subset_append_of_subset_right _ (h.drawn uid row (hsame ▸ hrow))
    · obtain rfl := Option.some_inj.1 (hrow.symm.trans hrow')
      exact List.subset_append_left _ _
  removed uid secret hmem := by
    obtain ⟨hdrawn, hgone⟩ := h.removed uid secret hmem
    refine ⟨List.mem_append_right _ hdrawn, fun row hrow ↦ ?_⟩
    rcases hrenews uid with hsame | ⟨row', hrow', rfl⟩
    · exact hgone row (hsame ▸ hrow)
    · obtain rfl := Option.some_inj.1 (hrow.symm.trans hrow')
      exact fun hsecret ↦ hfresh secret hsecret hdrawn
  calls botUid secret material hmem := by
    obtain ⟨hsome, hdrawn, hrest⟩ := h.calls botUid secret material hmem
    exact ⟨hrenews.isSome botUid hsome, List.mem_append_right _ hdrawn, hrest⟩

/-- The secret that an envelope was opened with is the only one that is taken out. -/
theorem removePrekey_secrets {material : BotSecretMaterial} {id : ℕ} {secret : Bytes}
    (hnodup : material.secrets.Nodup) (hsecret : material.oneTimePrekey id = some secret) :
    secret ∈ material.secrets ∧ secret ∉ (material.removePrekey id).secrets ∧
      (material.removePrekey id).secrets.Nodup := by
  obtain ⟨otp, hfind, rfl⟩ := Option.map_eq_some_iff.1 hsecret
  obtain ⟨hid, before, after, happend, hbefore⟩ := List.find?_eq_some_iff_append.1 hfind
  have herase : (material.removePrekey id).oneTimePrekeys = before ++ after := by
    rw [BotSecretMaterial.removePrekey, happend,
      List.eraseP_append_right _ (by simpa using hbefore)]
    have hfirst : (otp :: after).eraseP (fun r ↦ decide (r.1 = id)) = after :=
      List.eraseP_cons_of_pos hid
    rw [hfirst]
  rw [BotSecretMaterial.secrets, happend, List.map_append, List.map_cons] at hnodup
  rw [BotSecretMaterial.secrets, BotSecretMaterial.secrets, herase, happend, List.map_append,
    List.map_append, List.map_cons]
  obtain ⟨hmem, hnodup⟩ := List.nodup_middle.1 hnodup |> List.nodup_cons.1
  exact ⟨List.mem_append_right _ List.mem_cons_self, hmem, hnodup⟩

theorem openEnvelope_removes {inbound : InboundCrypto} {wire : InboundWire}
    {envelope : DeferredEnvelope} {material : BotSecretMaterial} {plaintext : Bytes}
    {left : Option BotSecretMaterial}
    (h : inbound.openEnvelope wire envelope material = .ok (plaintext, left)) :
    left = envelope.usedOneTimePrekeyId.map material.removePrekey := by
  rw [InboundCrypto.openEnvelope] at h
  split at h
  all_goals
    simp only [Guards.bind_eq_ok, Guards.pure_eq_ok, Prod.mk.injEq] at h
    obtain ⟨-, -, -, -, -, -, -, -, -, -, -, -, -, hleft⟩ := h
    exact hleft.symm

/-- A call that goes on has taken out the secret it opened the envelope with. -/
theorem openWith_eq_opened {inbound : InboundCrypto} {botUid botUid' : Int64} {wire : InboundWire}
    {envelope : DeferredEnvelope} {material material' : BotSecretMaterial} {secret : Bytes}
    (h : openWith inbound botUid wire envelope material = .opened botUid' secret material') :
    botUid' = botUid ∧
      ∃ id, material.oneTimePrekey id = some secret ∧ material' = material.removePrekey id := by
  rw [openWith] at h
  split at h
  · rename_i plaintext left used hopen hused
    obtain ⟨rfl, rfl, rfl⟩ := VaultCall.opened.inj h
    obtain ⟨id, hid, hsecret⟩ := Option.bind_eq_some_iff.1 hused
    refine ⟨rfl, id, hsecret, ?_⟩
    have hleft := openEnvelope_removes hopen
    rw [hid] at hleft
    exact Option.some_inj.1 hleft
  · cases h

/-- A call goes on with the secrets it has read. -/
theorem Accounted.setCall (h : s.Accounted) {call : VaultCall}
    (hcall : ∀ botUid secret material, call = .opened botUid secret material →
      (s.keys.db.bots.get botUid).isSome ∧ secret ∈ s.drawn ∧ secret ∉ material.secrets ∧
        material.secrets.Nodup) :
    (s.setCall k call).Accounted where
  nodup := h.nodup
  drawn := h.drawn
  removed := h.removed
  calls botUid secret material hmem := by
    rcases List.mem_or_eq_of_mem_set hmem with hold | heq
    · exact h.calls botUid secret material hold
    · exact hcall botUid secret material heq.symm

theorem accounted_opened (h : s.Accounted) {botUid : Int64} {row : StoredIdentityRow}
    (hrow : s.keys.db.bots.get botUid = some row) {inbound : InboundCrypto} {wire : InboundWire}
    {envelope : DeferredEnvelope} {uid : Int64} {secret : Bytes} {material : BotSecretMaterial}
    (hopen : openWith inbound botUid wire envelope row.material = .opened uid secret material) :
    (s.keys.db.bots.get uid).isSome ∧ secret ∈ s.drawn ∧ secret ∉ material.secrets ∧
      material.secrets.Nodup := by
  obtain ⟨rfl, id, hsecret, rfl⟩ := openWith_eq_opened hopen
  obtain ⟨hmem, hgone, hnodup⟩ := removePrekey_secrets (h.nodup uid row hrow) hsecret
  exact ⟨by rw [hrow]; rfl, h.drawn uid row hrow hmem, hgone, hnodup⟩

/-- The vault that is written back has no secret that was removed, and not the one that was used. -/
theorem Accounted.persist (h : s.Accounted) {botUid : Int64} {secret : Bytes}
    {material : BotSecretMaterial} (hcall : s.calls[k]? = some (.opened botUid secret material))
    {row : StoredIdentityRow} (hrow : s.keys.db.bots.get botUid = some row)
    (hsubset : material.oneTimePrekeys ⊆ row.material.oneTimePrekeys) {db : KeyTables}
    (hbots : ∀ u, db.bots.get u =
      if u = botUid then some { row with material } else s.keys.db.bots.get u) :
    Accounted { s.setCall k .done with
      keys := { s.keys with db }
      removed := (botUid, secret) :: s.removed } := by
  obtain ⟨-, hdrawn, hgone, hnodup⟩ := h.calls _ _ _ (List.mem_of_getElem? hcall)
  have hsecrets : material.secrets ⊆ row.material.secrets := List.map_subset _ hsubset
  have hcases : ∀ u row', db.bots.get u = some row' → u = botUid ∧ row' = { row with material } ∨
      u ≠ botUid ∧ s.keys.db.bots.get u = some row' := by
    intro u row' hrow'
    rw [hbots] at hrow'
    split at hrow'
    · rename_i hu
      exact .inl ⟨hu, (Option.some_inj.1 hrow').symm⟩
    · rename_i hu
      exact .inr ⟨hu, hrow'⟩
  have hset : (s.setCall k .done).Accounted := h.setCall fun _ _ _ heq ↦ by cases heq
  refine ⟨fun u row' hrow' ↦ ?_, fun u row' hrow' ↦ ?_, fun u x hx ↦ ?_, fun u x left hmem ↦ ?_⟩
  · obtain ⟨-, rfl⟩ | ⟨-, hold⟩ := hcases u row' hrow'
    · exact hnodup
    · exact h.nodup u row' hold
  · obtain ⟨rfl, rfl⟩ | ⟨-, hold⟩ := hcases u row' hrow'
    · exact List.Subset.trans hsecrets (h.drawn _ row hrow)
    · exact h.drawn u row' hold
  · have hmem : x ∈ s.drawn := by
      rcases List.mem_cons.1 hx with heq | hx
      · obtain ⟨-, rfl⟩ := Prod.ext_iff.1 heq
        exact hdrawn
      · exact (h.removed u x hx).1
    refine ⟨hmem, fun row' hrow' ↦ ?_⟩
    obtain ⟨rfl, rfl⟩ | ⟨hne, hold⟩ := hcases u row' hrow'
    · rcases List.mem_cons.1 hx with heq | hx
      · obtain ⟨-, rfl⟩ := Prod.ext_iff.1 heq
        exact hgone
      · exact fun hback ↦ (h.removed u x hx).2 row hrow (hsecrets hback)
    · rcases List.mem_cons.1 hx with heq | hx
      · exact absurd (Prod.ext_iff.1 heq).1 hne
      · exact (h.removed u x hx).2 row' hold
  · obtain ⟨hsome, hrest⟩ := hset.calls u x left hmem
    refine ⟨?_, hrest⟩
    show (db.bots.get u).isSome
    rw [hbots]
    split
    · rfl
    · exact hsome

/-! ### Runs -/

structure Inv (crypto : VaultCrypto) (s : VaultSystem) : Prop where
  fits : Fits crypto s.keys
  accounted : s.Accounted

theorem inv_init (crypto : VaultCrypto) : Inv crypto init where
  fits := ⟨⟨fun _ _ h ↦ (by cases h), fun _ _ h ↦ (by cases h), fun _ _ _ h ↦ (by cases h)⟩,
    fun _ h ↦ absurd h List.not_mem_nil⟩
  accounted := ⟨fun _ _ h ↦ (by cases h), fun _ _ h ↦ (by cases h),
    fun _ _ h ↦ absurd h List.not_mem_nil, fun _ _ _ h ↦ absurd h List.not_mem_nil⟩

theorem Inv.step (h : s.Inv crypto) {a : VaultAction} (hrandom : s.Random crypto a)
    (hcareful : s.Careful crypto a) (hstep : s.step ver crypto a = some t) : t.Inv crypto := by
  cases a with
  | keys a =>
    obtain ⟨keys, hkeys, rfl⟩ := Option.map_eq_some_iff.1 hstep
    obtain ⟨hfits, hrenews⟩ := h.fits.step hrandom hcareful hkeys
    have hgenerates : (generates a).Nodup ∧ ∀ secret ∈ generates a, secret ∉ s.drawn := by
      cases a with
      | commit i generated now => exact ⟨hrandom.1.nodup, hrandom.2⟩
      | _ => exact ⟨List.nodup_nil, fun _ h ↦ absurd h List.not_mem_nil⟩
    exact ⟨hfits, h.accounted.renew hrenews hgenerates.1 hgenerates.2⟩
  | consume id =>
    obtain rfl := Option.some_inj.1 hstep
    refine ⟨⟨h.fits.vaults.consume id, fun task htask ↦ ?_⟩, ?_⟩
    · exact (h.fits.tasks task htask).mono fun _ hsome ↦ hsome
    · exact ⟨h.accounted.nodup, h.accounted.drawn, h.accounted.removed, h.accounted.calls⟩
  | receive botUid wire envelope =>
    obtain rfl := Option.some_inj.1 hstep
    refine ⟨h.fits, ⟨h.accounted.nodup, h.accounted.drawn, h.accounted.removed,
      fun uid secret material hmem ↦ ?_⟩⟩
    rcases List.mem_append.1 hmem with hold | hnew
    · exact h.accounted.calls uid secret material hold
    · cases List.mem_singleton.1 hnew
  | load k =>
    rw [VaultSystem.step] at hstep
    split at hstep
    · rename_i botUid wire envelope hcall
      split at hstep
      · obtain rfl := Option.some_inj.1 hstep
        exact ⟨h.fits, h.accounted.setCall fun _ _ _ heq ↦ by cases heq⟩
      · rename_i row hrow
        obtain rfl := Option.some_inj.1 hstep
        exact ⟨h.fits, h.accounted.setCall fun uid secret material hopen ↦
          accounted_opened h.accounted hrow hopen⟩
    · cases hstep
  | persist k =>
    rw [VaultSystem.step] at hstep
    split at hstep
    · rename_i botUid secret material hcall
      obtain rfl := Option.some_inj.1 hstep
      obtain ⟨row, hrow⟩ := Option.isSome_iff_exists.1
        (h.accounted.calls _ _ _ (List.mem_of_getElem? hcall)).1
      have hwrites := hcareful (botUid, material) (by rw [hcall]; rfl) row hrow
      obtain ⟨hvaults, hbots⟩ := KeyTables.persistMaterial_vaults h.fits.vaults hrow hwrites
      refine ⟨⟨hvaults, fun task htask ↦ (h.fits.tasks task htask).mono fun u hsome ↦ ?_⟩,
        h.accounted.persist hcall hrow hwrites.subset hbots⟩
      show ((s.keys.db.persistMaterial botUid material).bots.get u).isSome
      rw [hbots]
      split
      · rfl
      · exact hsome
    · cases hstep

/-- **The secrets of bots**: in a run of careful steps, with keys generated at random, every vault
has the private halves of what is published for its bot, and no secret that was used. -/
theorem kept_of_run {actions : List VaultAction}
    (hrandom : Transition.Along (step ver crypto) (Random crypto) init actions)
    (hcareful : Transition.Along (step ver crypto) (Careful crypto) init actions)
    (hrun : Transition.run (step ver crypto) init actions = some s) : s.Kept crypto := by
  have hinv : s.Inv crypto := Transition.run_induction_along
    (fun s a t hs hok hstep ↦ hs.step hok.1 hok.2 hstep) (inv_init crypto) (hrandom.and hcareful)
    hrun
  have hvaults := hinv.fits.vaults
  refine ⟨fun uid row hrow ↦ ?_, fun uid row hrow id prekey hget howner hconsumed ↦ ?_,
    fun uid row hrow secret hmem ↦ (hinv.accounted.removed uid secret hmem).2 row hrow⟩
  · rw [hvaults.device uid row hrow]
    exact hvaults.keys uid row hrow
  · rw [hvaults.device uid row hrow] at howner
    obtain ⟨row', hrow', hholds⟩ := hvaults.prekeys uid id prekey hget howner hconsumed
    obtain rfl := Option.some_inj.1 (hrow.symm.trans hrow')
    exact hholds

/-- Keys are written out, and envelopes open with what they are wrapped for. -/
def plain : VaultCrypto where
  inbound := {
    parseWire _ := none
    parseEnvelope _ := none
    deferredUnwrapKey _ identity := identity.otkSecret
    deferredMetadataCommitment _ := some []
    deferredDecrypt ciphertext _ _ _ := some ciphertext }
  identityPublic x25519 ed25519 :=
    String.ofList ((x25519 ++ ed25519).map fun b ↦ Char.ofNat (97 + b.val))
  dhPublic secret := String.ofList (secret.map fun b ↦ Char.ofNat (97 + b.val))

/-- Generated keys, with two one-time prekeys. -/
def firstKeys : GeneratedMaterial where
  secret := ⟨[0], [1], [2], [(1, [3]), (2, [4])]⟩
  identityPublic := "ab"
  signedPrekeyPublic := "c"
  signature := "s"
  otpPublics := [(1, "d"), (2, "e")]
  signedPrekeyPublic_not_blank := by decide
  signature_not_blank := by decide

def secondKeys : GeneratedMaterial where
  secret := ⟨[5], [6], [7], [(1, [8])]⟩
  identityPublic := "fg"
  signedPrekeyPublic := "h"
  signature := "s"
  otpPublics := [(1, "i")]
  signedPrekeyPublic_not_blank := by decide
  signature_not_blank := by decide

/-- Bot `1` is set up, a one-time prekey is handed out, and an envelope for it is opened. -/
def opened : List VaultAction :=
  [.keys (.readInitialize 1), .keys (.commit 0 firstKeys 10), .consume 0,
    .receive 1 ⟨[], [], .null⟩ ⟨some 1, []⟩, .load 0]

/-- The keys are rotated before the call writes the vault back. -/
def rotated : List VaultAction :=
  opened ++ [.keys (.readRotate 1), .keys (.loadMaterial 1), .keys (.commit 1 secondKeys 20),
    .persist 0]

/-- An envelope for the other prekey is opened before the call writes the vault back. -/
def openedTwice : List VaultAction :=
  opened ++ [.consume 1, .receive 1 ⟨[], [], .null⟩ ⟨some 2, []⟩, .load 1, .persist 0, .persist 1]

theorem kept_of_run_opened : ∃ s, Transition.run (step 2 plain) init (opened ++ [.persist 0]) =
    some s ∧ s.removed = [(1, [3])] ∧ s.Kept plain := by
  have hsome : (Transition.run (step 2 plain) init (opened ++ [.persist 0])).map
      VaultSystem.removed = some [(1, [3])] := by decide +kernel
  obtain ⟨s, hs, hremoved⟩ := Option.map_eq_some_iff.1 hsome
  exact ⟨s, hs, hremoved, kept_of_run (Transition.along_of_check (by decide +kernel))
    (Transition.along_of_check (by decide +kernel)) hs⟩

/-- What is written back can be older than a rotation: then the vault has the signed prekey of
before. And of two calls that open envelopes the one that is last to write brings back the secret
that the other has removed. -/
theorem not_kept_overwritten :
    (¬∀ actions s, Transition.Along (step 2 plain) (Random plain) init actions →
      Transition.run (step 2 plain) init actions = some s → s.Idle → s.Kept plain) ∧
    ∃ s row, Transition.Along (step 2 plain) (Random plain) init openedTwice ∧
      Transition.run (step 2 plain) init openedTwice = some s ∧ s.Idle ∧
      s.keys.db.bots.get 1 = some row ∧ (1, [3]) ∈ s.removed ∧ [3] ∈ row.material.secrets := by
  have hstale : ∃ s ∈ Transition.run (step 2 plain) init rotated, s.Idle ∧
      ∃ row ∈ s.keys.db.bots.get 1, ∀ identity ∈ s.keys.db.identities.get (1, row.deviceId),
        ¬row.material.Backs plain identity.keys := by decide +kernel
  have hback : ∃ s ∈ Transition.run (step 2 plain) init openedTwice, s.Idle ∧
      ∃ row ∈ s.keys.db.bots.get 1, (1, [3]) ∈ s.removed ∧ [3] ∈ row.material.secrets := by
    decide +kernel
  refine ⟨fun h ↦ ?_, ?_⟩
  · obtain ⟨s, hrun, hidle, row, hrow, hnot⟩ := hstale
    have hkept := h rotated s (Transition.along_of_check (by decide +kernel)) hrun hidle
    obtain ⟨identity, hidentity, hbacks⟩ := hkept.keys 1 row hrow
    exact hnot identity hidentity hbacks
  · obtain ⟨s, hrun, hidle, row, hrow, hremoved, hsecret⟩ := hback
    exact ⟨s, row, Transition.along_of_check (by decide +kernel), hrun, hidle, hrow, hremoved,
      hsecret⟩

end VaultSystem

end VoceChat
