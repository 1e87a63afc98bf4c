import VoceChat.Foundations.Json
import VoceChat.Foundations.Run
import VoceChat.Mls.Delivery

/-!
# What a bot publishes for its channels (`src/bot_e2ee.rs`)

When a channel is enabled for a bot (`set_channel_enabled`), the bot's MLS credential and one key
package are published for its device, unless this was done before for the channel. `rebuild` gives
the bot a new identity and forgets that anything was published, so that it is published again; what
was published before stays in `mls_device` and `mls_key_package`, and is handed out.

## The runs

`set_channel_enabled` loads the identity first and then makes its statements one after the other,
each by itself; `Enabling` is a call under way. `rotate` and `rebuild` are taken as a whole: what
they read before their transaction is the name of the device, which does not change, and the key
version, which nothing here depends on. Whether the master key can be loaded is an argument.

`rebuilds` counts the identities of a bot, and what is published is remembered with the count when
its identity was loaded. Everything that is there to be handed out is of the present identity
(`Clean`) if and only if no identity is rebuilt once something was published, and none while a
channel is being enabled (`current_iff_orderly`).
-/

namespace VoceChat

open Guards Machine Transition Json

namespace Channels

/-- `bot_device_id`. -/
def botDeviceId (uid : ℤ) : String := "bot:" ++ toString uid

/-- The device of a bot. -/
def botDevice (uid : ℤ) : ℤ × String := (uid, botDeviceId uid)

/-- A row of `bot_e2ee_identity`, without its key and the sealed material. -/
structure BotIdentityRow where
  deviceId : String
  keyVersion : ℤ
  identityKeyPub : String
  deriving DecidableEq, Repr

/-- A row of `bot_e2ee_channel`, without its key. -/
structure BotChannelRow where
  enabledAt : Option ℤ
  mlsDeviceId : Option String
  credentialPublishedAt : Option ℤ
  keyPackagePublishedAt : Option ℤ
  deriving DecidableEq, Repr

inductive BotError where
  | notBot
  | alreadyInitialized
  | notInitialized
  | confirmationRequired
  | masterKey
  | channelNotFound
  deriving DecidableEq, Repr

/-- An `i64` as `serde_json` has it. -/
def intValue (n : ℤ) : Value :=
  .number (if 0 ≤ n then .posInt (UInt64.ofNat n.toNat) else .negInt (Int64.ofInt n))

def botMlsCredential (deviceId : String) (gid : ℤ) (identityKeyPub : String) : Value :=
  .object [("kind", .string "vocechat-bot-mls-credential-placeholder-v1"),
    ("device_id", .string deviceId), ("gid", intValue gid),
    ("identity_key_pub", .string identityKeyPub)]

def botMlsKeyPackage (deviceId : String) (gid : ℤ) (packageId : String) : Value :=
  .object [("kind", .string "vocechat-bot-mls-key-package-placeholder-v1"),
    ("device_id", .string deviceId), ("gid", intValue gid), ("package_id", .string packageId)]

/-- What a call of `set_channel_enabled` does next. `package` says whether a key package is to be
published after the credential. -/
inductive Stage where
  | upsert
  | select
  | credential (package : Bool)
  | credentialPublished (package : Bool)
  | package
  | packagePublished
  deriving DecidableEq, Repr

/-- A call of `set_channel_enabled` under way, with the identity that it has loaded. -/
structure Enabling where
  bot : ℤ
  gid : ℤ
  now : ℤ
  identity : BotIdentityRow
  rebuilds : ℕ
  stage : Stage
  deriving DecidableEq, Repr

/-- Something was handed out for a bot's device: the identity under which it was published, and the
identity that the bot has then. -/
structure Delivered where
  bot : ℤ
  published : ℕ
  rebuilds : ℕ
  deriving DecidableEq, Repr

/-- The tables, the calls under way, and what is remembered of identities. -/
structure State where
  bots : List ℤ
  groups : List ℤ
  identities : Table ℤ BotIdentityRow
  channels : Table (ℤ × ℤ) BotChannelRow
  delivery : PackageTables
  calls : List Enabling
  rebuilds : ℤ → ℕ
  credentialOf : ℤ × String → ℕ
  packageOf : ℕ → ℕ
  delivered : List Delivered

namespace State

/-- Some bots and groups, before anything else. -/
def start (bots groups : List ℤ) : State :=
  ⟨bots, groups, Table.empty, Table.empty, .empty bots, [], fun _ ↦ 0, fun _ ↦ 0, fun _ ↦ 0, []⟩

/-- `ensure_target_is_bot` and `load_identity_row`. -/
def loadIdentity (s : State) (bot : ℤ) : Except BotError BotIdentityRow := do
  ensure (bot ∈ s.bots) .notBot
  okOr (s.identities.get bot) .notInitialized

/-- `initialize`. -/
def initializeBot (s : State) (bot : ℤ) (masterKey : Bool) (identityKeyPub : String) :
    Except BotError State := do
  ensure (bot ∈ s.bots) .notBot
  ensure (s.identities.get bot = none) .alreadyInitialized
  ensure (masterKey = true) .masterKey
  return { s with identities := s.identities.put bot ⟨botDeviceId bot, 1, identityKeyPub⟩ }

/-- A rotation keeps the identity. -/
def rotate (s : State) (bot : ℤ) (masterKey : Bool) : Except BotError State := do
  let existing ← s.loadIdentity bot
  ensure (masterKey = true) .masterKey
  return { s with
    identities := s.identities.put bot { existing with keyVersion := existing.keyVersion + 1 } }

def rebuild (s : State) (bot : ℤ) (confirm masterKey : Bool) (identityKeyPub : String) :
    Except BotError State := do
  ensure (confirm = true) .confirmationRequired
  let existing ← s.loadIdentity bot
  ensure (masterKey = true) .masterKey
  return { s with
    identities := s.identities.put bot
      { existing with identityKeyPub, keyVersion := existing.keyVersion + 1 }
    channels := s.channels.update fun k row ↦
      if k.1 = bot then { row with credentialPublishedAt := none, keyPackagePublishedAt := none }
      else row
    rebuilds := Function.update s.rebuilds bot (s.rebuilds bot + 1) }

/-- `set_channel_enabled` up to its first write. -/
def enable (s : State) (bot gid : ℤ) (masterKey : Bool) (now : ℤ) : Except BotError State := do
  let identity ← s.loadIdentity bot
  ensure (gid ∈ s.groups) .channelNotFound
  ensure (masterKey = true) .masterKey
  return { s with calls := s.calls ++ [⟨bot, gid, now, identity, s.rebuilds bot, .upsert⟩] }

def disable (s : State) (bot gid : ℤ) : Except BotError State := do
  let _ ← s.loadIdentity bot
  ensure (gid ∈ s.groups) .channelNotFound
  return { s with
    channels := s.channels.modify (bot, gid) fun row ↦ { row with enabledAt := none } }

/-- The insert of `set_channel_enabled`, on conflict an update. -/
def upsertChannel (s : State) (c : Enabling) : Table (ℤ × ℤ) BotChannelRow :=
  s.channels.put (c.bot, c.gid) <|
    match s.channels.get (c.bot, c.gid) with
    | some row => { row with enabledAt := some c.now, mlsDeviceId := some c.identity.deviceId }
    | none => ⟨some c.now, some c.identity.deviceId, none, none⟩

/-- A call goes on, or is done. -/
def goOn (s : State) (i : ℕ) (c : Enabling) : Option Stage → State
  | some stage => { s with calls := s.calls.set i { c with stage } }
  | none => { s with calls := s.calls.eraseIdx i }

variable (toVec : Value → Bytes)

def putCredential (s : State) (c : Enabling) : Except DeliveryError State := do
  let db ← s.delivery.putCredential c.bot c.identity.deviceId
    (toVec (botMlsCredential c.identity.deviceId c.gid c.identity.identityKeyPub))
  return { s with
    delivery := db
    credentialOf := Function.update s.credentialOf (c.bot, c.identity.deviceId) c.rebuilds }

def publishKeyPackage (s : State) (c : Enabling) (packageId : String) :
    Except DeliveryError State := do
  let db ← s.delivery.publishKeyPackage c.bot c.identity.deviceId
    (toVec (botMlsKeyPackage c.identity.deviceId c.gid packageId))
  return { s with
    delivery := db
    packageOf := Function.update s.packageOf s.delivery.nextId c.rebuilds }

/-- One statement of a call of `set_channel_enabled`. A call ends with an error of one. -/
def advanceCall (s : State) (i : ℕ) (c : Enabling) (packageId : String) : State :=
  match c.stage with
  | .upsert => { s with channels := s.upsertChannel c }.goOn i c (some .select)
  | .select =>
    s.goOn i c <| (s.channels.get (c.bot, c.gid)).bind fun row ↦
      if row.credentialPublishedAt = none then
        some (.credential (row.keyPackagePublishedAt = none))
      else if row.keyPackagePublishedAt = none then some .package
      else none
  | .credential package =>
    match s.putCredential toVec c with
    | .ok s => s.goOn i c (some (.credentialPublished package))
    | .error _ => s.goOn i c none
  | .credentialPublished package =>
    { s with channels := s.channels.modify (c.bot, c.gid) fun row ↦
        { row with credentialPublishedAt := some c.now } }.goOn i c
      (if package then some .package else none)
  | .package =>
    match s.publishKeyPackage toVec c packageId with
    | .ok s => s.goOn i c (some .packagePublished)
    | .error _ => s.goOn i c none
  | .packagePublished =>
    { s with channels := s.channels.modify (c.bot, c.gid) fun row ↦
        { row with keyPackagePublishedAt := some c.now } }.goOn i c none

/-- `consume_key_package`, of any device by anyone. -/
def consumeKeyPackage (s : State) (uid : ℤ) (deviceId : String) (now : ℕ) :
    Except DeliveryError State := do
  let row ← s.delivery.selectKeyPackage uid deviceId
  return { s with
    delivery := s.delivery.consume now row.id
    delivered := s.delivered ++ [⟨uid, s.packageOf row.id, s.rebuilds uid⟩] }

def getCredential (s : State) (uid : ℤ) (deviceId : String) : Except DeliveryError State := do
  let _ ← s.delivery.getCredential uid deviceId
  return { s with
    delivered := s.delivered ++ [⟨uid, s.credentialOf (uid, deviceId), s.rebuilds uid⟩] }

end State

inductive Action where
  | initializeBot (bot : ℤ) (masterKey : Bool) (identityKeyPub : String)
  | rotate (bot : ℤ) (masterKey : Bool)
  | rebuild (bot : ℤ) (confirm masterKey : Bool) (identityKeyPub : String)
  | enable (bot gid : ℤ) (masterKey : Bool) (now : ℤ)
  | disable (bot gid : ℤ)
  | advance (i : ℕ) (packageId : String)
  /-- A call goes no further. -/
  | stop (i : ℕ)
  | consumeKeyPackage (uid : ℤ) (deviceId : String) (now : ℕ)
  | getCredential (uid : ℤ) (deviceId : String)

namespace State

/-- What fails changes nothing. -/
def orSelf {ε : Type} (s : State) (r : Except ε State) : State := r.toOption.getD s

variable (toVec : Value → Bytes)

def perform (s : State) : Action → State
  | .initializeBot bot masterKey identityKeyPub =>
    s.orSelf (s.initializeBot bot masterKey identityKeyPub)
  | .rotate bot masterKey => s.orSelf (s.rotate bot masterKey)
  | .rebuild bot confirm masterKey identityKeyPub =>
    s.orSelf (s.rebuild bot confirm masterKey identityKeyPub)
  | .enable bot gid masterKey now => s.orSelf (s.enable bot gid masterKey now)
  | .disable bot gid => s.orSelf (s.disable bot gid)
  | .advance i packageId =>
    match s.calls[i]? with
    | some c => s.advanceCall toVec i c packageId
    | none => s
  | .stop i => { s with calls := s.calls.eraseIdx i }
  | .consumeKeyPackage uid deviceId now => s.orSelf (s.consumeKeyPackage uid deviceId now)
  | .getCredential uid deviceId => s.orSelf (s.getCredential uid deviceId)

def after (bots groups : List ℤ) (as : List Action) : State :=
  as.foldl (perform toVec) (start bots groups)

/-! ### What is there to be handed out -/

/-- The credential of a bot's device, and its key packages that are not consumed, are of the
identity that the bot has. -/
def Clean (s : State) : Prop := ∀ bot,
  ((s.delivery.devices.get (botDevice bot)).isSome = true →
    s.credentialOf (botDevice bot) = s.rebuilds bot) ∧
  ∀ row ∈ s.delivery.packages, row.device = botDevice bot → row.consumedAt = none →
    s.packageOf row.id = s.rebuilds bot

/-- The call publishes something now. -/
def Publishes (s : State) (c : Enabling) (packageId : String) : Prop :=
  (∃ package, c.stage = .credential package) ∧ (∃ s', s.putCredential toVec c = .ok s') ∨
    c.stage = .package ∧ ∃ s', s.publishKeyPackage toVec c packageId = .ok s'

/-- An identity is rebuilt only as long as nothing was published for the bot's device; and a call of
`set_channel_enabled` publishes only under the identity that the bot has. -/
def Orderly (s : State) : Action → Prop
  | .rebuild bot confirm masterKey identityKeyPub =>
    (∃ s', s.rebuild bot confirm masterKey identityKeyPub = .ok s') →
      s.delivery.devices.get (botDevice bot) = none
  | .advance i packageId => ∀ c, s.calls[i]? = some c → s.Publishes toVec c packageId →
      c.rebuilds = s.rebuilds c.bot
  | _ => True

/-- What holds in any case: only bots have devices here, key packages have a device, and a call
knows the device of its bot. -/
structure Inv (s : State) : Prop where
  devices : ∀ device credential, s.delivery.devices.get device = some credential →
    device = botDevice device.1
  packages : ∀ row ∈ s.delivery.packages, (s.delivery.devices.get row.device).isSome = true
  fresh : ∀ row ∈ s.delivery.packages, row.id < s.delivery.nextId
  identities : ∀ bot row, s.identities.get bot = some row → row.deviceId = botDeviceId bot
  calls : ∀ c ∈ s.calls, c.identity.deviceId = botDeviceId c.bot

/-- Nothing is published or handed out, and no identity is new. -/
structure Quiet (s s' : State) : Prop where
  delivery : s'.delivery = s.delivery
  rebuilds : s'.rebuilds = s.rebuilds
  credentialOf : s'.credentialOf = s.credentialOf
  packageOf : s'.packageOf = s.packageOf
  delivered : s'.delivered = s.delivered

variable {toVec} {s s' : State} {c : Enabling} {i : ℕ} {bot : ℤ}

theorem inv_start (bots groups : List ℤ) : (start bots groups).Inv where
  devices _ _ h := by cases h
  packages _ h := absurd h List.not_mem_nil
  fresh _ h := absurd h List.not_mem_nil
  identities _ _ h := by cases h
  calls _ h := absurd h List.not_mem_nil

theorem clean_start (bots groups : List ℤ) : (start bots groups).Clean :=
  fun _ ↦ ⟨(fun h ↦ by cases h), fun _ h ↦ absurd h List.not_mem_nil⟩

theorem Quiet.clean_iff (h : s.Quiet s') : s'.Clean ↔ s.Clean := by
  rw [Clean, Clean, h.delivery, h.rebuilds, h.credentialOf, h.packageOf]

/-- Identities and calls may change, but for the name of the device. -/
theorem Inv.quiet (h : s.Inv) (hquiet : s.Quiet s')
    (hidentities : ∀ bot row, s'.identities.get bot = some row → row.deviceId = botDeviceId bot)
    (hcalls : ∀ c ∈ s'.calls, c.identity.deviceId = botDeviceId c.bot) : s'.Inv where
  devices := hquiet.delivery ▸ h.devices
  packages := hquiet.delivery ▸ h.packages
  fresh := hquiet.delivery ▸ h.fresh
  identities := hidentities
  calls := hcalls

/-- A call goes on as the same call. -/
theorem calls_goOn (h : ∀ c ∈ s.calls, c.identity.deviceId = botDeviceId c.bot)
    (hc : s.calls[i]? = some c) (stage : Option Stage) :
    ∀ c' ∈ (s.goOn i c stage).calls, c'.identity.deviceId = botDeviceId c'.bot := by
  intro c' hc'
  cases stage with
  | none => exact h c' (List.mem_of_mem_eraseIdx hc')
  | some stage =>
    rcases List.mem_or_eq_of_mem_set hc' with hc' | rfl
    · exact h c' hc'
    · exact h c (List.mem_of_getElem? hc)

theorem quiet_goOn (s : State) (i : ℕ) (c : Enabling) (stage : Option Stage) :
    s.Quiet (s.goOn i c stage) := by
  cases stage <;> exact ⟨rfl, rfl, rfl, rfl, rfl⟩

theorem identities_goOn (s : State) (i : ℕ) (c : Enabling) (stage : Option Stage) :
    (s.goOn i c stage).identities = s.identities := by
  cases stage <;> rfl

/-! ### Publishing -/

theorem putCredential_eq_ok (h : s.putCredential toVec c = .ok s') : ∃ credential,
    s' = { s with
      delivery := { s.delivery with
        devices := s.delivery.devices.put (c.bot, c.identity.deviceId) credential }
      credentialOf := Function.update s.credentialOf (c.bot, c.identity.deviceId) c.rebuilds } := by
  simp only [putCredential, PackageTables.putCredential, bind_eq_ok, ensure_eq_ok, exists_unit,
    pure_eq_ok] at h
  obtain ⟨db, ⟨-, -, -, rfl⟩, rfl⟩ := h
  exact ⟨_, rfl⟩

theorem publishKeyPackage_eq_ok {packageId : String}
    (h : s.publishKeyPackage toVec c packageId = .ok s') : ∃ package,
    (s.delivery.devices.get (c.bot, c.identity.deviceId)).isSome = true ∧ s' = { s with
      delivery := { s.delivery with
        packages := s.delivery.packages ++
          [⟨s.delivery.nextId, (c.bot, c.identity.deviceId), package, none⟩]
        nextId := s.delivery.nextId + 1 }
      packageOf := Function.update s.packageOf s.delivery.nextId c.rebuilds } := by
  simp only [publishKeyPackage, PackageTables.publishKeyPackage, bind_eq_ok, ensure_eq_ok,
    exists_unit, pure_eq_ok] at h
  obtain ⟨db, ⟨-, -, hdevice, rfl⟩, rfl⟩ := h
  exact ⟨_, hdevice, rfl⟩

theorem Inv.putCredential (h : s.Inv) (hc : c.identity.deviceId = botDeviceId c.bot)
    (hput : s.putCredential toVec c = .ok s') : s'.Inv := by
  obtain ⟨credential, rfl⟩ := putCredential_eq_ok hput
  refine ⟨?_, fun row hrow ↦ ?_, h.fresh, h.identities, h.calls⟩
  · exact Table.forall_get_put h.devices (by rw [hc, botDevice])
  · show ((s.delivery.devices.put _ _).get row.device).isSome = true
    rw [Table.get_put]
    split
    · rfl
    · exact h.packages row hrow

theorem Inv.publishKeyPackage (h : s.Inv) {packageId : String}
    (hpublish : s.publishKeyPackage toVec c packageId = .ok s') : s'.Inv := by
  obtain ⟨package, hdevice, rfl⟩ := publishKeyPackage_eq_ok hpublish
  refine ⟨h.devices, fun row hrow ↦ ?_, fun row hrow ↦ ?_, h.identities, h.calls⟩
  · rcases List.mem_append.1 hrow with hrow | hrow
    · exact h.packages row hrow
    · obtain rfl := List.mem_singleton.1 hrow
      exact hdevice
  · rcases List.mem_append.1 hrow with hrow | hrow
    · exact (h.fresh row hrow).trans (Nat.lt_succ_self _)
    · obtain rfl := List.mem_singleton.1 hrow
      exact Nat.lt_succ_self _

/-- A credential is of the bot's identity if the call has loaded that. -/
theorem clean_putCredential_iff (hclean : s.Clean) (hc : c.identity.deviceId = botDeviceId c.bot)
    (hput : s.putCredential toVec c = .ok s') : s'.Clean ↔ c.rebuilds = s.rebuilds c.bot := by
  obtain ⟨credential, rfl⟩ := putCredential_eq_ok hput
  have hdevice : (c.bot, c.identity.deviceId) = botDevice c.bot := by rw [hc, botDevice]
  rw [hdevice]
  constructor
  · intro hafter
    have hself := (hafter c.bot).1 (by
      show ((s.delivery.devices.put _ _).get _).isSome = true
      rw [Table.get_put_self]
      rfl)
    change Function.update s.credentialOf (botDevice c.bot) c.rebuilds _ = _ at hself
    rwa [Function.update_self] at hself
  · intro heq b
    refine ⟨fun hsome ↦ ?_, (hclean b).2⟩
    show Function.update s.credentialOf (botDevice c.bot) c.rebuilds (botDevice b) = s.rebuilds b
    change ((s.delivery.devices.put _ _).get (botDevice b)).isSome = true at hsome
    rw [Function.update_apply]
    rw [Table.get_put] at hsome
    split
    · rename_i hb
      obtain rfl : b = c.bot := congrArg Prod.fst hb
      exact heq
    · rename_i hb
      rw [if_neg hb] at hsome
      exact (hclean b).1 hsome

/-- The same of a key package. -/
theorem clean_publishKeyPackage_iff (h : s.Inv) (hclean : s.Clean)
    (hc : c.identity.deviceId = botDeviceId c.bot) {packageId : String}
    (hpublish : s.publishKeyPackage toVec c packageId = .ok s') :
    s'.Clean ↔ c.rebuilds = s.rebuilds c.bot := by
  obtain ⟨package, -, rfl⟩ := publishKeyPackage_eq_ok hpublish
  have hdevice : (c.bot, c.identity.deviceId) = botDevice c.bot := by rw [hc, botDevice]
  rw [hdevice]
  constructor
  · intro hafter
    have hself := (hafter c.bot).2 ⟨s.delivery.nextId, botDevice c.bot, package, none⟩
      (List.mem_append_right _ (List.mem_singleton_self _)) rfl rfl
    change Function.update s.packageOf s.delivery.nextId c.rebuilds s.delivery.nextId = _ at hself
    rwa [Function.update_self] at hself
  · intro heq b
    refine ⟨(hclean b).1, fun row hrow hb hnull ↦ ?_⟩
    show Function.update s.packageOf s.delivery.nextId c.rebuilds row.id = s.rebuilds b
    rcases List.mem_append.1 hrow with hrow | hrow
    · rw [Function.update_of_ne (h.fresh row hrow).ne]
      exact (hclean b).2 row hrow hb hnull
    · obtain rfl := List.mem_singleton.1 hrow
      obtain rfl : c.bot = b := congrArg Prod.fst hb
      rw [Function.update_self]
      exact heq

/-! ### Identities -/

theorem loadIdentity_eq_ok {row : BotIdentityRow} (h : s.loadIdentity bot = .ok row) :
    s.identities.get bot = some row := by
  simp only [loadIdentity, bind_eq_ok, ensure_eq_ok, exists_unit, okOr_eq_ok] at h
  exact h.2

theorem Inv.put_identity (h : s.Inv) {row : BotIdentityRow}
    (hrow : row.deviceId = botDeviceId bot) :
    ∀ b r, (s.identities.put bot row).get b = some r → r.deviceId = botDeviceId b :=
  Table.forall_get_put
    (P := fun b (r : BotIdentityRow) ↦ r.deviceId = botDeviceId b) h.identities hrow

theorem Inv.rebuild (h : s.Inv) {confirm masterKey : Bool} {identityKeyPub : String}
    (hrebuild : s.rebuild bot confirm masterKey identityKeyPub = .ok s') : s'.Inv := by
  simp only [State.rebuild, bind_eq_ok, ensure_eq_ok, exists_unit, pure_eq_ok] at hrebuild
  obtain ⟨-, existing, hexisting, -, rfl⟩ := hrebuild
  have hdevice := h.identities bot existing (loadIdentity_eq_ok hexisting)
  exact ⟨h.devices, h.packages, h.fresh, h.put_identity hdevice, h.calls⟩

/-- A new identity: what was published before is of another one. -/
theorem clean_rebuild_iff (h : s.Inv) (hclean : s.Clean) {confirm masterKey : Bool}
    {identityKeyPub : String} (hrebuild : s.rebuild bot confirm masterKey identityKeyPub = .ok s') :
    s'.Clean ↔ s.delivery.devices.get (botDevice bot) = none := by
  simp only [State.rebuild, bind_eq_ok, ensure_eq_ok, exists_unit, pure_eq_ok] at hrebuild
  obtain ⟨-, existing, -, -, rfl⟩ := hrebuild
  constructor
  · intro hafter
    by_contra hsome
    have hsome' := Option.isSome_iff_ne_none.2 hsome
    have hold := (hclean bot).1 hsome'
    have hnew := (hafter bot).1 hsome'
    change s.credentialOf (botDevice bot) = Function.update s.rebuilds bot _ bot at hnew
    rw [Function.update_self, hold] at hnew
    omega
  · intro hnone b
    by_cases hb : b = bot
    · obtain rfl := hb
      refine ⟨fun hsome ↦ ?_, fun row hrow hdevice _ ↦ ?_⟩
      · change (s.delivery.devices.get (botDevice b)).isSome = true at hsome
        rw [hnone] at hsome
        cases hsome
      · have hsome := h.packages row hrow
        rw [hdevice, hnone] at hsome
        cases hsome
    · show (_ → s.credentialOf (botDevice b) = Function.update s.rebuilds bot _ b) ∧
        ∀ row ∈ s.delivery.packages, row.device = botDevice b → row.consumedAt = none →
          s.packageOf row.id = Function.update s.rebuilds bot _ b
      rw [Function.update_of_ne hb]
      exact hclean b

/-! ### Handing out -/

theorem Inv.consumeKeyPackage (h : s.Inv) {uid : ℤ} {deviceId : String} {now : ℕ}
    (hconsume : s.consumeKeyPackage uid deviceId now = .ok s') : s'.Inv := by
  simp only [State.consumeKeyPackage, bind_eq_ok, pure_eq_ok] at hconsume
  obtain ⟨row, -, rfl⟩ := hconsume
  refine ⟨h.devices, fun r hr ↦ ?_, fun r hr ↦ ?_, h.identities, h.calls⟩
  · obtain ⟨old, hold, rfl⟩ := List.mem_map.1 hr
    have hdevice := h.packages old hold
    split
    · exact hdevice
    · exact hdevice
  · obtain ⟨old, hold, rfl⟩ := List.mem_map.1 hr
    have hlt := h.fresh old hold
    split
    · exact hlt
    · exact hlt

/-- A key package that is handed out is of the identity that the bot has, and so are the others. -/
theorem clean_consumeKeyPackage (h : s.Inv) (hclean : s.Clean) {uid : ℤ} {deviceId : String}
    {now : ℕ} (hconsume : s.consumeKeyPackage uid deviceId now = .ok s') :
    s'.Clean ∧ ∀ d ∈ s'.delivered, d ∈ s.delivered ∨ d.published = d.rebuilds := by
  simp only [State.consumeKeyPackage, PackageTables.selectKeyPackage, bind_eq_ok, ensure_eq_ok,
    exists_unit, okOr_eq_ok, pure_eq_ok] at hconsume
  obtain ⟨row, ⟨-, hnext⟩, rfl⟩ := hconsume
  have hmem : row ∈ s.delivery.packages := List.mem_of_find?_eq_some hnext
  have hfound := List.find?_some hnext
  rw [Bool.and_eq_true, decide_eq_true_iff, Option.isNone_iff_eq_none] at hfound
  obtain ⟨hdevice, hnull⟩ := hfound
  refine ⟨fun b ↦ ⟨(hclean b).1, fun r hr hb hrnull ↦ ?_⟩, fun d hd ↦ ?_⟩
  · obtain ⟨old, hold, rfl⟩ := List.mem_map.1 hr
    split at hb
    · rename_i hid
      rw [if_pos hid] at hrnull
      cases hrnull
    · rename_i hid
      rw [if_neg hid] at hrnull ⊢
      exact (hclean b).2 old hold hb hrnull
  · refine (List.mem_append.1 hd).imp_right fun hnew ↦ ?_
    obtain rfl := List.mem_singleton.1 hnew
    obtain ⟨credential, hcredential⟩ := Option.isSome_iff_exists.1 (h.packages row hmem)
    have hbot := h.devices row.device credential hcredential
    rw [hdevice] at hbot
    exact (hclean uid).2 row hmem (hdevice.trans hbot) hnull

theorem clean_getCredential (h : s.Inv) (hclean : s.Clean) {uid : ℤ} {deviceId : String}
    (hget : s.getCredential uid deviceId = .ok s') :
    s'.Clean ∧ ∀ d ∈ s'.delivered, d ∈ s.delivered ∨ d.published = d.rebuilds := by
  simp only [State.getCredential, PackageTables.getCredential, bind_eq_ok, ensure_eq_ok,
    exists_unit, okOr_eq_ok, pure_eq_ok] at hget
  obtain ⟨credential, ⟨-, hcredential⟩, rfl⟩ := hget
  refine ⟨hclean, fun d hd ↦ (List.mem_append.1 hd).imp_right fun hnew ↦ ?_⟩
  obtain rfl := List.mem_singleton.1 hnew
  have hbot : (uid, deviceId) = botDevice uid := h.devices _ credential hcredential
  show s.credentialOf (uid, deviceId) = s.rebuilds uid
  rw [hbot]
  exact (hclean uid).1 (by rw [← hbot, hcredential]; rfl)

/-! ### Steps and runs -/

/-- A statement of a call publishes something, or is of no account. -/
theorem advanceCall_cases (s : State) (i : ℕ) (c : Enabling) (packageId : String) :
    (¬s.Publishes toVec c packageId ∧ s.Quiet (s.advanceCall toVec i c packageId) ∧
      (s.advanceCall toVec i c packageId).identities = s.identities ∧
        ∃ stage, (s.advanceCall toVec i c packageId).calls = (s.goOn i c stage).calls) ∨
    (s.Publishes toVec c packageId ∧ ∃ s₁ stage,
      s.advanceCall toVec i c packageId = s₁.goOn i c stage ∧
        (s.putCredential toVec c = .ok s₁ ∨ s.publishKeyPackage toVec c packageId = .ok s₁)) := by
  have hother : (∀ package, c.stage ≠ .credential package) → c.stage ≠ .package →
      ¬s.Publishes toVec c packageId := by
    rintro hcredential hpackage (⟨⟨package, hstage⟩, -⟩ | ⟨hstage, -⟩)
    · exact hcredential package hstage
    · exact hpackage hstage
  have hquiet : ∀ channels stage, s.Quiet (goOn { s with channels } i c stage) ∧
      (goOn { s with channels } i c stage).identities = s.identities ∧
        ∃ stage', (goOn { s with channels } i c stage).calls = (s.goOn i c stage').calls := by
    intro channels stage
    cases stage with
    | none => exact ⟨⟨rfl, rfl, rfl, rfl, rfl⟩, rfl, none, rfl⟩
    | some stage => exact ⟨⟨rfl, rfl, rfl, rfl, rfl⟩, rfl, some stage, rfl⟩
  rw [advanceCall]
  split
  · rename_i hstage
    exact .inl ⟨hother (by simp [hstage]) (by simp [hstage]), hquiet _ _⟩
  · rename_i hstage
    exact .inl ⟨hother (by simp [hstage]) (by simp [hstage]), hquiet s.channels _⟩
  · rename_i package hstage
    cases hput : s.putCredential toVec c with
    | ok s₁ => exact .inr ⟨.inl ⟨⟨package, hstage⟩, s₁, hput⟩, s₁, _, rfl, .inl rfl⟩
    | error e =>
      refine .inl ⟨?_, hquiet s.channels none⟩
      rintro (⟨-, s₁, hs₁⟩ | ⟨hpackage, -⟩)
      · cases hput.symm.trans hs₁
      · cases hstage.symm.trans hpackage
  · rename_i package hstage
    exact .inl ⟨hother (by simp [hstage]) (by simp [hstage]), hquiet _ _⟩
  · rename_i hstage
    cases hpublish : s.publishKeyPackage toVec c packageId with
    | ok s₁ => exact .inr ⟨.inr ⟨hstage, s₁, hpublish⟩, s₁, _, rfl, .inr rfl⟩
    | error e =>
      refine .inl ⟨?_, hquiet s.channels none⟩
      rintro (⟨⟨package, hcredential⟩, -⟩ | ⟨-, s₁, hs₁⟩)
      · cases hstage.symm.trans hcredential
      · cases hpublish.symm.trans hs₁
  · rename_i hstage
    exact .inl ⟨hother (by simp [hstage]) (by simp [hstage]), hquiet _ _⟩

/-- A bot, its calls and what is there for it are as before, or its identity is new, or something is
handed out. -/
theorem inv_advanceCall (h : s.Inv) (hc : s.calls[i]? = some c) (packageId : String) :
    (s.advanceCall toVec i c packageId).Inv := by
  have hdevice := h.calls c (List.mem_of_getElem? hc)
  rcases s.advanceCall_cases i c packageId with
    ⟨-, hquiet, hidentities, stage, hcalls⟩ | ⟨-, s₁, stage, heq, hpublish⟩
  · refine h.quiet hquiet (hidentities ▸ h.identities) ?_
    rw [hcalls]
    exact calls_goOn h.calls hc stage
  · rw [heq]
    have hs₁ : s₁.Inv ∧ s₁.calls = s.calls := by
      rcases hpublish with hput | hpublish
      · refine ⟨h.putCredential hdevice hput, ?_⟩
        obtain ⟨credential, rfl⟩ := putCredential_eq_ok hput
        rfl
      · refine ⟨h.publishKeyPackage hpublish, ?_⟩
        obtain ⟨package, -, rfl⟩ := publishKeyPackage_eq_ok hpublish
        rfl
    refine hs₁.1.quiet (quiet_goOn s₁ i c stage) ?_ (calls_goOn hs₁.1.calls (hs₁.2 ▸ hc) stage)
    rw [identities_goOn]
    exact hs₁.1.identities

theorem clean_advanceCall_iff (h : s.Inv) (hclean : s.Clean) (hc : s.calls[i]? = some c)
    (packageId : String) : (s.advanceCall toVec i c packageId).Clean ↔
      s.Orderly toVec (.advance i packageId) := by
  have hdevice := h.calls c (List.mem_of_getElem? hc)
  rcases s.advanceCall_cases i c packageId with
    ⟨hnot, hquiet, -⟩ | ⟨hpublishes, s₁, stage, heq, hpublish⟩
  · rw [hquiet.clean_iff]
    refine iff_of_true hclean fun c' hc' hpublishes ↦ ?_
    obtain rfl := Option.some_inj.1 (hc.symm.trans hc')
    exact absurd hpublishes hnot
  · have hiff : s₁.Clean ↔ c.rebuilds = s.rebuilds c.bot := by
      rcases hpublish with hput | hpublish
      · exact clean_putCredential_iff hclean hdevice hput
      · exact clean_publishKeyPackage_iff h hclean hdevice hpublish
    rw [heq, (quiet_goOn s₁ i c stage).clean_iff, hiff]
    constructor
    · intro hsame c' hc' _
      obtain rfl := Option.some_inj.1 (hc.symm.trans hc')
      exact hsame
    · exact fun horderly ↦ horderly c hc hpublishes

theorem delivered_advanceCall (s : State) (i : ℕ) (c : Enabling) (packageId : String) :
    (s.advanceCall toVec i c packageId).delivered = s.delivered := by
  rcases s.advanceCall_cases i c packageId with ⟨-, hquiet, -⟩ | ⟨-, s₁, stage, heq, hpublish⟩
  · exact hquiet.delivered
  · rw [heq, (quiet_goOn s₁ i c stage).delivered]
    rcases hpublish with hput | hpublish
    · obtain ⟨credential, rfl⟩ := putCredential_eq_ok hput
      rfl
    · obtain ⟨package, -, rfl⟩ := publishKeyPackage_eq_ok hpublish
      rfl

/-- Nothing that is there, and nothing that was handed out, is of an identity other than the bot's.
-/
def Current (s : State) : Prop := s.Clean ∧ ∀ d ∈ s.delivered, d.published = d.rebuilds

theorem Current.quiet (h : s.Current) (hquiet : s.Quiet s') : s'.Current := by
  rw [Current, hquiet.clean_iff, hquiet.delivered]
  exact h

/-- What the requests on a bot's identity and channels do, but for a new identity. -/
theorem inv_quiet_perform (h : s.Inv) (a : Action)
    (hrebuild : ∀ bot confirm masterKey identityKeyPub,
      a ≠ .rebuild bot confirm masterKey identityKeyPub)
    (hadvance : ∀ i packageId, a ≠ .advance i packageId)
    (hconsume : ∀ uid deviceId now, a ≠ .consumeKeyPackage uid deviceId now)
    (hget : ∀ uid deviceId, a ≠ .getCredential uid deviceId) :
    (s.perform toVec a).Inv ∧ s.Quiet (s.perform toVec a) := by
  have hself : s.Inv ∧ s.Quiet s := ⟨h, rfl, rfl, rfl, rfl, rfl⟩
  cases a with
  | rebuild bot confirm masterKey identityKeyPub => exact absurd rfl (hrebuild _ _ _ _)
  | advance i packageId => exact absurd rfl (hadvance _ _)
  | consumeKeyPackage uid deviceId now => exact absurd rfl (hconsume _ _ _)
  | getCredential uid deviceId => exact absurd rfl (hget _ _)
  | initializeBot bot masterKey identityKeyPub =>
    rw [perform, orSelf]
    cases hok : s.initializeBot bot masterKey identityKeyPub with
    | error e => exact hself
    | ok s' =>
      simp only [State.initializeBot, bind_eq_ok, ensure_eq_ok, exists_unit, pure_eq_ok] at hok
      obtain ⟨-, -, -, rfl⟩ := hok
      exact ⟨⟨h.devices, h.packages, h.fresh, h.put_identity rfl, h.calls⟩, rfl, rfl, rfl, rfl, rfl⟩
  | rotate bot masterKey =>
    rw [perform, orSelf]
    cases hok : s.rotate bot masterKey with
    | error e => exact hself
    | ok s' =>
      simp only [State.rotate, bind_eq_ok, ensure_eq_ok, exists_unit, pure_eq_ok] at hok
      obtain ⟨existing, hexisting, -, rfl⟩ := hok
      have hdevice := h.identities bot existing (loadIdentity_eq_ok hexisting)
      exact ⟨⟨h.devices, h.packages, h.fresh, h.put_identity hdevice, h.calls⟩, rfl, rfl, rfl, rfl,
        rfl⟩
  | enable bot gid masterKey now =>
    rw [perform, orSelf]
    cases hok : s.enable bot gid masterKey now with
    | error e => exact hself
    | ok s' =>
      simp only [State.enable, bind_eq_ok, ensure_eq_ok, exists_unit, pure_eq_ok] at hok
      obtain ⟨identity, hidentity, -, -, rfl⟩ := hok
      refine ⟨⟨h.devices, h.packages, h.fresh, h.identities, fun c hc ↦ ?_⟩, rfl, rfl, rfl,
        rfl, rfl⟩
      rcases List.mem_append.1 hc with hc | hc
      · exact h.calls c hc
      · obtain rfl := List.mem_singleton.1 hc
        exact h.identities bot identity (loadIdentity_eq_ok hidentity)
  | disable bot gid =>
    rw [perform, orSelf]
    cases hok : s.disable bot gid with
    | error e => exact hself
    | ok s' =>
      simp only [State.disable, bind_eq_ok, ensure_eq_ok, exists_unit, pure_eq_ok] at hok
      obtain ⟨_, -, -, rfl⟩ := hok
      exact ⟨⟨h.devices, h.packages, h.fresh, h.identities, h.calls⟩, rfl, rfl, rfl, rfl, rfl⟩
  | stop i =>
    refine ⟨⟨h.devices, h.packages, h.fresh, h.identities, fun c hc ↦ ?_⟩, rfl, rfl, rfl, rfl, rfl⟩
    exact h.calls c (List.mem_of_mem_eraseIdx hc)

theorem inv_perform (h : s.Inv) (a : Action) : (s.perform toVec a).Inv := by
  cases a with
  | rebuild bot confirm masterKey identityKeyPub =>
    show (s.orSelf (s.rebuild bot confirm masterKey identityKeyPub)).Inv
    cases hok : s.rebuild bot confirm masterKey identityKeyPub with
    | error e => exact h
    | ok s' => exact h.rebuild hok
  | advance i packageId =>
    rw [perform]
    split
    · rename_i c hc
      exact inv_advanceCall h hc packageId
    · exact h
  | consumeKeyPackage uid deviceId now =>
    show (s.orSelf (s.consumeKeyPackage uid deviceId now)).Inv
    cases hok : s.consumeKeyPackage uid deviceId now with
    | error e => exact h
    | ok s' => exact h.consumeKeyPackage hok
  | getCredential uid deviceId =>
    show (s.orSelf (s.getCredential uid deviceId)).Inv
    cases hok : s.getCredential uid deviceId with
    | error e => exact h
    | ok s' =>
      simp only [State.getCredential, bind_eq_ok, pure_eq_ok] at hok
      obtain ⟨_, -, rfl⟩ := hok
      exact ⟨h.devices, h.packages, h.fresh, h.identities, h.calls⟩
  | _ => exact (inv_quiet_perform h _ (by simp) (by simp) (by simp) (by simp)).1

/-- What is handed out in a step is of the identity that the bot has, if what was there is. -/
theorem Current.of_delivered (h : s.Current)
    (hdelivered : s'.Clean ∧ ∀ d ∈ s'.delivered, d ∈ s.delivered ∨ d.published = d.rebuilds) :
    s'.Current :=
  ⟨hdelivered.1, fun d hd ↦ (hdelivered.2 d hd).elim (h.2 d) id⟩

/-- A step keeps what is there of the present identities exactly if it is orderly. -/
theorem current_perform_iff (h : s.Inv) (hcurrent : s.Current) (a : Action) :
    (s.perform toVec a).Current ↔ s.Orderly toVec a := by
  cases a with
  | rebuild bot confirm masterKey identityKeyPub =>
    show (s.orSelf (s.rebuild bot confirm masterKey identityKeyPub)).Current ↔
      ((∃ s', s.rebuild bot confirm masterKey identityKeyPub = .ok s') →
        s.delivery.devices.get (botDevice bot) = none)
    cases hok : s.rebuild bot confirm masterKey identityKeyPub with
    | error e =>
      refine iff_of_true hcurrent fun hex ↦ ?_
      obtain ⟨s', hs'⟩ := hex
      cases hs'
    | ok s' =>
      have hdelivered : s'.delivered = s.delivered := by
        simp only [State.rebuild, bind_eq_ok, ensure_eq_ok, exists_unit, pure_eq_ok] at hok
        obtain ⟨-, existing, -, -, rfl⟩ := hok
        rfl
      have hiff := clean_rebuild_iff h hcurrent.1 hok
      show (s'.Clean ∧ ∀ d ∈ s'.delivered, d.published = d.rebuilds) ↔ _
      rw [hdelivered, hiff]
      exact ⟨fun hafter _ ↦ hafter.1, fun horderly ↦ ⟨horderly ⟨s', rfl⟩, hcurrent.2⟩⟩
  | advance i packageId =>
    rw [perform]
    split
    · rename_i c hc
      have hdelivered : (s.advanceCall toVec i c packageId).delivered = s.delivered :=
        delivered_advanceCall s i c packageId
      rw [Current, hdelivered, clean_advanceCall_iff h hcurrent.1 hc packageId]
      exact and_iff_left hcurrent.2
    · rename_i hnone
      refine iff_of_true hcurrent fun c hc ↦ ?_
      cases hnone.symm.trans hc
  | consumeKeyPackage uid deviceId now =>
    refine iff_of_true ?_ trivial
    show (s.orSelf (s.consumeKeyPackage uid deviceId now)).Current
    cases hok : s.consumeKeyPackage uid deviceId now with
    | error e => exact hcurrent
    | ok s' => exact hcurrent.of_delivered (clean_consumeKeyPackage h hcurrent.1 hok)
  | getCredential uid deviceId =>
    refine iff_of_true ?_ trivial
    show (s.orSelf (s.getCredential uid deviceId)).Current
    cases hok : s.getCredential uid deviceId with
    | error e => exact hcurrent
    | ok s' => exact hcurrent.of_delivered (clean_getCredential h hcurrent.1 hok)
  | _ =>
    refine iff_of_true (hcurrent.quiet ?_) trivial
    exact (inv_quiet_perform h _ (by simp) (by simp) (by simp) (by simp)).2

/-- **What is there for a bot's device, and what is handed out, is of the identity that the bot
has** all along a run, if and only if no identity is rebuilt after something was published for the
bot, and nothing is published under an identity that was rebuilt meanwhile. -/
theorem current_iff_orderly (toVec : Value → Bytes) (bots groups : List ℤ) (as : List Action) :
    (∀ cs, cs <+: as → (after toVec bots groups cs).Current) ↔
      Along (total (perform toVec)) (Orderly toVec) (start bots groups) as :=
  forall_prefix_iff_along (I := Inv) (P := Current) (f := perform toVec)
    (fun _ a h ↦ inv_perform h a) (fun _ a h hcurrent ↦ current_perform_iff h hcurrent a)
    (inv_start bots groups) ⟨clean_start bots groups, fun _ h ↦ absurd h List.not_mem_nil⟩ as

/-- A key package of the identity that was discarded is handed out. -/
theorem not_forall_deliveredCurrent :
    ¬∀ (toVec : Value → Bytes) (bots groups : List ℤ) (as : List Action),
    ∀ d ∈ (after toVec bots groups as).delivered, d.published = d.rebuilds := by
  intro h
  have hrun := h (fun _ ↦ [0]) [2] [1]
    [.initializeBot 2 true "old", .enable 2 1 true 0, .advance 0 "p", .advance 0 "p",
      .advance 0 "p", .advance 0 "p", .advance 0 "p", .advance 0 "p", .rebuild 2 true true "new",
      .consumeKeyPackage 2 "bot:2" 0]
  revert hrun
  decide +kernel

end State

end Channels

end VoceChat
