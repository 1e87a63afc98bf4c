import VoceChat.Directory.Tables
import VoceChat.Foundations.Run

/-!
# Requests about keys against each other

`KeySystem` runs every transaction on `KeyTables` against every other. A request of a client or a
device is one transaction (`get_bundle` is none; its statements about one-time prekeys are taken
apart in `PrekeySystem`). The three operations of a bot read its row first and write in a
transaction later: initializing, rotating and rebuilding are tasks, which hold what they read. A
task that goes no further has failed, or its request was given up. Whether a user is a bot is
nowhere checked here, so any user may have these tasks.

`did` says once what a step does to the identities and the devices. The rest of a step, which is
about one-time prekeys and secrets, is in the definitions only.
-/

namespace VoceChat

open Guards

inductive BotTask where
  | initializing (botUid : Int64)
  /-- `rotate` reads the row first and the material later. -/
  | rotating (botUid : Int64) (existing : StoredIdentityRow) (material : Option BotSecretMaterial)
  | rebuilding (botUid : Int64) (existing : StoredIdentityRow)
  | done
  deriving DecidableEq

structure KeySystem where
  db : KeyTables
  tasks : List BotTask

inductive KeyAction where
  | putIdentity (token : Token) (req : PutE2eIdentityRequest) (now : ℤ)
  | putPrekeys (token : Token) (req : PutE2ePrekeysRequest)
  | getBundle (uid : Int64) (deviceId : Option String)
  | deleteDevice (token : Token) (device : String) (now : ℤ)
  | logout (token : Token) (now : ℤ)
  /-- `do_login`, or `update_fcm_token`. -/
  | login (uid : Int64) (device : String)
  /-- `initialize`, `rotate` and `rebuild` up to the first read. -/
  | readInitialize (botUid : Int64)
  | readRotate (botUid : Int64)
  | readRebuild (botUid : Int64) (confirm : Bool)
  /-- `load_and_decrypt_material` of `rotate`. -/
  | loadMaterial (i : ℕ)
  | commit (i : ℕ) (generated : GeneratedMaterial) (now : ℤ)

namespace KeySystem

def init : KeySystem := ⟨KeyTables.empty, []⟩

/-- A transaction, which is committed if it succeeds. -/
def transact {ε : Type} (s : KeySystem) : Except ε KeyTables → KeySystem
  | .ok db => { s with db }
  | .error _ => s

def start (s : KeySystem) : Except BotE2eeError BotTask → KeySystem
  | .ok task => { s with tasks := s.tasks ++ [task] }
  | .error _ => s

def finish (s : KeySystem) (i : ℕ) : KeySystem := { s with tasks := s.tasks.set i .done }

def step (ver : ℤ) (s : KeySystem) : KeyAction → Option KeySystem
  | .putIdentity token req now =>
    some (s.transact ((s.db.putIdentity ver token req now).map Prod.snd))
  | .putPrekeys token req => some (s.transact (s.db.putPrekeys token req))
  | .getBundle uid deviceId => some (s.transact ((s.db.getBundle ver uid deviceId).map Prod.snd))
  | .deleteDevice token device now => some (s.transact (s.db.deleteDevice token device now))
  | .logout token now => some { s with db := s.db.logout token now }
  | .login uid device => some { s with db := s.db.login (uid, device) }
  | .readInitialize botUid => some <| s.start <|
    match s.db.bots.get botUid with
    | some _ => .error .alreadyInitialized
    | none => .ok (.initializing botUid)
  | .readRotate botUid => some <| s.start <|
    match s.db.bots.get botUid with
    | none => .error .notInitialized
    | some existing => .ok (.rotating botUid existing none)
  | .readRebuild botUid confirm => some <| s.start <|
    if confirm then
      match s.db.bots.get botUid with
      | none => .error .notInitialized
      | some existing => .ok (.rebuilding botUid existing)
    else .error .confirmationRequired
  | .loadMaterial i =>
    match s.tasks[i]? with
    | some (.rotating botUid existing none) =>
      match s.db.bots.get botUid with
      | none => some (s.finish i)
      | some row => some { s with
          tasks := s.tasks.set i (.rotating botUid existing (some row.material)) }
    | _ => none
  | .commit i generated now =>
    match s.tasks[i]? with
    | some (.initializing botUid) =>
      some ((s.finish i).transact (s.db.initializeBot botUid generated now))
    | some (.rotating botUid existing (some material)) =>
      some { s.finish i with db := s.db.rotateBot botUid existing material generated now }
    | some (.rebuilding botUid existing) =>
      some ((s.finish i).transact (s.db.rebuildBot botUid existing generated now))
    | _ => none

end KeySystem

/-! ### What the transactions do to identities and devices -/

namespace KeyTables

variable {ver : ℤ} {db db' : KeyTables} {k : DeviceKey} {token : Token} {now : ℤ}

theorem putIdentity_eq_ok {req : PutE2eIdentityRequest} {version : ℤ} :
    db.putIdentity ver token req now = .ok (version, db') ↔
      req.deviceId = token.device ∧ (req.deviceId ≠ "" ∧ req.keys.identityKeyPub ≠ "") ∧
        (2 ≤ ver → req.keys.HasSignedPrekey) ∧ (token.uid, token.device) ∈ db.devices ∧
        (IdentityRow.publish req.keys now
          (db.identities.get (token.uid, req.deviceId))).keyVersion =
          version ∧
        { db with
          identities := db.identities.put (token.uid, req.deviceId)
            (.publish req.keys now (db.identities.get (token.uid, req.deviceId))) } = db' := by
  simp only [putIdentity, validateAuthenticatedDevice, bind_eq_ok, mapError_eq_ok, ensure_eq_ok,
    exists_unit, pure_eq_ok, Prod.mk.injEq]

theorem putPrekeys_frame {req : PutE2ePrekeysRequest} (h : db.putPrekeys token req = .ok db') :
    ∃ prekeys, db' = { db with prekeys } := by
  simp only [putPrekeys, validateAuthenticatedDevice, bind_eq_ok, mapError_eq_ok, ensure_eq_ok,
    exists_unit] at h
  obtain ⟨-, -, h⟩ := h
  split at h
  · exact ⟨_, (Except.ok.inj h).symm⟩
  · cases h

theorem takePrekey_frame (db : KeyTables) (k : DeviceKey) :
    (db.takePrekey k).2.identities = db.identities ∧
      (db.takePrekey k).2.devices = db.devices := by
  rw [takePrekey]
  split <;> exact ⟨rfl, rfl⟩

theorem getBundle_eq_ok {uid : Int64} {deviceId : Option String} {bundle : E2ePrekeyBundle} :
    db.getBundle ver uid deviceId = .ok (bundle, db') ↔
      ∃ k row, db.bundleIdentity uid deviceId = some (k, row) ∧
        (2 ≤ ver → row.keys.HasSignedPrekey) ∧
        bundle = ⟨uid, k.2, row.keys, (db.takePrekey k).1⟩ ∧ db' = (db.takePrekey k).2 := by
  rw [getBundle]
  cases hrow : db.bundleIdentity uid deviceId with
  | none => exact iff_of_false (fun h ↦ by cases h) fun ⟨_, _, h, _⟩ ↦ by cases h
  | some r =>
    obtain ⟨k, row⟩ := r
    simp only [bind_eq_ok, ensure_eq_ok, exists_unit, pure_eq_ok, Prod.mk.injEq, Option.some_inj]
    constructor
    · rintro ⟨hprekey, rfl, rfl⟩
      exact ⟨k, row, ⟨rfl, rfl⟩, hprekey, rfl, rfl⟩
    · rintro ⟨_, _, ⟨rfl, rfl⟩, hprekey, rfl, rfl⟩
      exact ⟨hprekey, rfl, rfl⟩

theorem deleteDevice_eq_ok {device : String} :
    db.deleteDevice token device now = .ok db' ↔
      token.isGuest = false ∧ (token.uid, device) ∈ db.devices ∧
        (db.removeDevice (token.uid, device)).retire (token.uid, device) now = db' := by
  simp only [deleteDevice, guestForbidden, bind_eq_ok, ensure_eq_ok, exists_unit, pure_eq_ok]

theorem mem_devices_login {l : DeviceKey} :
    l ∈ (db.login k).devices ↔ l = k ∨ l ∈ db.devices := by
  rw [login]
  by_cases h : k ∈ db.devices
  · rw [if_pos h]
    exact ⟨.inr, fun hl ↦ hl.elim (fun heq ↦ heq ▸ h) id⟩
  · rw [if_neg h]
    exact List.mem_cons

@[simp] theorem identities_login : (db.login k).identities = db.identities := by
  rw [login]
  split <;> rfl

theorem initializeBot_eq_ok {botUid : Int64} {generated : GeneratedMaterial}
    (h : db.initializeBot botUid generated now = .ok db') :
    db.identities.get (botUid, botDeviceId botUid) = none ∧
      db'.identities =
        db.identities.put (botUid, botDeviceId botUid) ⟨generated.keys, now, 1, none⟩ ∧
      db'.devices = (db.login (botUid, botDeviceId botUid)).devices := by
  simp only [initializeBot, bind_eq_ok, ensure_eq_ok, exists_unit, identities_login] at h
  obtain ⟨⟨hnone, -⟩, h⟩ := h
  split at h
  · cases h
  · obtain rfl := Except.ok.inj h
    exact ⟨hnone, rfl, rfl⟩

theorem rebuildBot_eq_ok {botUid : Int64} {existing : StoredIdentityRow}
    {generated : GeneratedMaterial} (h : db.rebuildBot botUid existing generated now = .ok db') :
    db'.identities = db.identities.modify (botUid, existing.deviceId)
        (fun _ ↦ ⟨generated.keys, now, existing.keyVersion + 1, none⟩) ∧
      db'.devices = db.devices := by
  rw [rebuildBot] at h
  split at h
  · cases h
  · obtain rfl := Except.ok.inj h
    exact ⟨rfl, rfl⟩

end KeyTables

/-! ### What a step does -/

namespace KeySystem

variable {ver : ℤ} {s t : KeySystem} {a : KeyAction}

/-- What a step does to the identities and the devices. -/
inductive Did (ver : ℤ) (s : KeySystem) (a : KeyAction) (t : KeySystem) : Prop where
  | nothing (hids : t.db.identities = s.db.identities) (hdevices : t.db.devices = s.db.devices)
  | publish (k : DeviceKey) (keys : PublishedKeys) (now : ℤ) (hk : k ∈ s.db.devices)
      (hkeys : 2 ≤ ver → keys.HasSignedPrekey)
      (hids : t.db.identities =
        s.db.identities.put k (.publish keys now (s.db.identities.get k)))
      (hdevices : t.db.devices = s.db.devices)
  | retire (k : DeviceKey) (now : ℤ)
      (hids : t.db.identities = (s.db.retire k now).identities)
      (hdevices : t.db.devices = (s.db.removeDevice k).devices)
  | login (k : DeviceKey) (hids : t.db.identities = s.db.identities)
      (hdevices : t.db.devices = (s.db.login k).devices)
  | initialized (k : DeviceKey) (generated : GeneratedMaterial) (now : ℤ)
      (hnone : s.db.identities.get k = none)
      (hids : t.db.identities = s.db.identities.put k ⟨generated.keys, now, 1, none⟩)
      (hdevices : t.db.devices = (s.db.login k).devices)
  | rotated (i : ℕ) (botUid : Int64) (existing : StoredIdentityRow)
      (material : BotSecretMaterial) (generated : GeneratedMaterial) (now : ℤ)
      (ha : a = .commit i generated now)
      (htask : s.tasks[i]? = some (.rotating botUid existing (some material)))
      (hids : t.db.identities = s.db.identities.modify (botUid, existing.deviceId) fun row ↦
        ⟨generated.rotated row.keys, now, existing.keyVersion + 1, row.retiredAt⟩)
      (hdevices : t.db.devices = s.db.devices)
  | rebuilt (i : ℕ) (botUid : Int64) (existing : StoredIdentityRow)
      (generated : GeneratedMaterial) (now : ℤ) (ha : a = .commit i generated now)
      (htask : s.tasks[i]? = some (.rebuilding botUid existing))
      (hids : t.db.identities = s.db.identities.modify (botUid, existing.deviceId) fun _ ↦
        ⟨generated.keys, now, existing.keyVersion + 1, none⟩)
      (hdevices : t.db.devices = s.db.devices)

@[simp] theorem db_start (s : KeySystem) (r : Except BotE2eeError BotTask) :
    (s.start r).db = s.db := by
  cases r <;> rfl

/-- **The cases of a step.** -/
theorem did (h : s.step ver a = some t) : Did ver s a t := by
  cases a with
  | putIdentity token req now =>
    obtain rfl := Option.some_inj.1 h
    cases hput : s.db.putIdentity ver token req now with
    | error e => exact .nothing rfl rfl
    | ok r =>
      obtain ⟨version, db⟩ := r
      obtain ⟨hdevice, -, hkeys, hk, -, rfl⟩ := KeyTables.putIdentity_eq_ok.1 hput
      exact .publish (token.uid, req.deviceId) req.keys now (hdevice ▸ hk) hkeys rfl rfl
  | putPrekeys token req =>
    obtain rfl := Option.some_inj.1 h
    cases hput : s.db.putPrekeys token req with
    | error e => exact .nothing rfl rfl
    | ok db =>
      obtain ⟨prekeys, rfl⟩ := KeyTables.putPrekeys_frame hput
      exact .nothing rfl rfl
  | getBundle uid deviceId =>
    obtain rfl := Option.some_inj.1 h
    cases hget : s.db.getBundle ver uid deviceId with
    | error e => exact .nothing rfl rfl
    | ok r =>
      obtain ⟨bundle, db⟩ := r
      obtain ⟨k, row, -, -, -, rfl⟩ := KeyTables.getBundle_eq_ok.1 hget
      exact .nothing (s.db.takePrekey_frame k).1 (s.db.takePrekey_frame k).2
  | deleteDevice token device now =>
    obtain rfl := Option.some_inj.1 h
    cases hdelete : s.db.deleteDevice token device now with
    | error e => exact .nothing rfl rfl
    | ok db =>
      obtain ⟨-, -, rfl⟩ := KeyTables.deleteDevice_eq_ok.1 hdelete
      exact .retire (token.uid, device) now rfl rfl
  | logout token now =>
    obtain rfl := Option.some_inj.1 h
    exact .retire (token.uid, token.device) now rfl rfl
  | login uid device =>
    obtain rfl := Option.some_inj.1 h
    exact .login (uid, device) KeyTables.identities_login rfl
  | readInitialize botUid | readRotate botUid | readRebuild botUid confirm =>
    obtain rfl := Option.some_inj.1 h
    exact .nothing (by rw [db_start]) (by rw [db_start])
  | loadMaterial i =>
    rw [step] at h
    split at h
    · split at h
      all_goals
        obtain rfl := Option.some_inj.1 h
        exact .nothing rfl rfl
    · cases h
  | commit i generated now =>
    rw [step] at h
    split at h
    · rename_i botUid htask
      obtain rfl := Option.some_inj.1 h
      cases hcommit : s.db.initializeBot botUid generated now with
      | error e => exact .nothing rfl rfl
      | ok db =>
        obtain ⟨hnone, hids, hdevices⟩ := KeyTables.initializeBot_eq_ok hcommit
        exact .initialized _ generated now hnone hids hdevices
    · rename_i botUid existing material htask
      obtain rfl := Option.some_inj.1 h
      exact .rotated i botUid existing material generated now rfl htask rfl rfl
    · rename_i botUid existing htask
      obtain rfl := Option.some_inj.1 h
      cases hcommit : s.db.rebuildBot botUid existing generated now with
      | error e => exact .nothing rfl rfl
      | ok db =>
        obtain ⟨hids, hdevices⟩ := KeyTables.rebuildBot_eq_ok hcommit
        exact .rebuilt i botUid existing generated now rfl htask hids hdevices
    · cases h

end KeySystem

end VoceChat
