import VoceChat.Groups.Restart

/-!
# The settings of the users (`src/api/user.rs`, devices in `src/api/token.rs`)

The devices of a user, what it has muted, its burn-after-reading times and its read indexes are kept
in the tables `device`, `mute`, `burn_after_reading` and `read_index`, and in the cache. A request
writes the tables and then the cache, each `insert … on conflict`, `update` or `delete` and its
counterpart in the cache being one `Write`.

All of these rows go with their user, and those that have a user or a group as their target go with
that, through foreign keys. In the cache of the other users the deletion of a user takes out read
indexes only, and so does the deletion of a group.

What is left out: frozen users and the refresh tokens, which only make more requests fail, and the
streams that hang on a device in the cache.
-/

namespace VoceChat

open Guards Transition

namespace Groups

/-- Whom a setting is about. -/
inductive Target where
  | user (uid : ℤ)
  | group (gid : ℤ)
  deriving DecidableEq

/-- The settings of a user: the rows of a user in the four tables, or what is in the cache. -/
@[ext] structure Settings where
  /-- `device`, with the `device_token`. -/
  devices : String → Option (Option String)
  /-- `mute`, with `expired_at`. -/
  mute : Target → Option (Option ℤ)
  /-- `burn_after_reading`, with `expires_in`. -/
  burnAfterReading : Target → Option ℤ
  /-- `read_index`, with the `mid`. -/
  readIndex : Target → Option ℤ

/-- A row is put (`some`) or taken out (`none`). -/
inductive Write where
  | device (device : String) (value : Option (Option String))
  /-- `update device`: of a row that is there. -/
  | updateDevice (device : String) (deviceToken : Option String)
  | mute (target : Target) (value : Option (Option ℤ))
  | burnAfterReading (target : Target) (value : Option ℤ)
  | readIndex (target : Target) (value : Option ℤ)

namespace Settings

def empty : Settings := ⟨fun _ ↦ none, fun _ ↦ none, fun _ ↦ none, fun _ ↦ none⟩

def write (st : Settings) : Write → Settings
  | .device device value => { st with devices := Function.update st.devices device value }
  | .updateDevice device deviceToken => { st with
      devices := Function.update st.devices device ((st.devices device).map fun _ ↦ deviceToken) }
  | .mute target value => { st with mute := Function.update st.mute target value }
  | .burnAfterReading target value =>
    { st with burnAfterReading := Function.update st.burnAfterReading target value }
  | .readIndex target value => { st with readIndex := Function.update st.readIndex target value }

def writeAll (st : Settings) (ws : List Write) : Settings := ws.foldl write st

/-- Nothing is about this target any more: the rows that go with it. -/
def cascade (st : Settings) (target : Target) : Settings where
  devices := st.devices
  mute := Function.update st.mute target none
  burnAfterReading := Function.update st.burnAfterReading target none
  readIndex := Function.update st.readIndex target none

/-- `expired_at notnull and expired_at < now`. -/
def expired (now : ℤ) (expiredAt : Option ℤ) : Bool := expiredAt.any (· < now)

/-- `clean_mute`, of one user: without the expired mutes. -/
def cleanMute (now : ℤ) (st : Settings) : Settings :=
  { st with mute := fun target ↦ (st.mute target).filter fun expiredAt ↦ !expired now expiredAt }

end Settings

structure MuteRequest where
  addUsers : List (ℤ × Option ℕ)
  addGroups : List (ℤ × Option ℕ)
  removeUsers : List ℤ
  removeGroups : List ℤ
  deriving DecidableEq

/-- `UpdateBurnAfterReadingRequest` with the `expires_in`, `UpdateReadIndexRequest` with the `mid`.
-/
structure TargetsRequest where
  users : List (ℤ × ℤ)
  groups : List (ℤ × ℤ)
  deriving DecidableEq

/-- The groups with the settings of their users, in the tables and in the cache. -/
structure SettingsSystem where
  now : ℤ
  groups : State
  tables : ℤ → Settings
  cached : ℤ → Option Settings

namespace SettingsSystem

def start (now : ℤ) : SettingsSystem := ⟨now, State.start, fun _ ↦ .empty, fun _ ↦ none⟩

def hasUser (s : SettingsSystem) (uid : ℤ) : Bool := (s.groups.users.get uid).isSome

def hasGroup (s : SettingsSystem) (gid : ℤ) : Bool := (s.groups.groups.get gid).isSome

/-- The settings that `load_users_cache` loads of a user. -/
def loadUsersCache (s : SettingsSystem) (uid : ℤ) : Option Settings :=
  if s.hasUser uid then some (s.tables uid) else none

/-- The tables are written, and then the cache. -/
def write (s : SettingsSystem) (uid : ℤ) (ws : List Write) : SettingsSystem where
  now := s.now
  groups := s.groups
  tables := Function.update s.tables uid ((s.tables uid).writeAll ws)
  cached := Function.update s.cached uid ((s.cached uid).map (Settings.writeAll · ws))

/-! ### The requests -/

/-- `mute`. -/
def mute (s : SettingsSystem) (token : CurrentUser) (req : MuteRequest) :
    Except GroupError SettingsSystem := do
  ensure (req.addUsers.all (fun item ↦ item.1 ≠ token.uid && s.hasUser item.1) = true) .badRequest
  ensure (req.addGroups.all (fun item ↦ s.hasGroup item.1) = true) .badRequest
  ensure (req.removeUsers.all s.hasUser = true) .badRequest
  ensure (req.removeGroups.all s.hasGroup = true) .badRequest
  let _ ← okOr (s.cached token.uid) .unauthorized
  let expiredAt (expiredIn : Option ℕ) : Option ℤ := expiredIn.map fun seconds ↦ s.now + seconds
  return s.write token.uid
    (req.addUsers.map (fun item ↦ .mute (.user item.1) (some (expiredAt item.2))) ++
      req.addGroups.map (fun item ↦ .mute (.group item.1) (some (expiredAt item.2))) ++
      req.removeUsers.map (fun uid ↦ .mute (.user uid) none) ++
      req.removeGroups.map (fun gid ↦ .mute (.group gid) none))

/-- `update_burn_after_reading`. -/
def updateBurnAfterReading (s : SettingsSystem) (token : CurrentUser) (req : TargetsRequest) :
    Except GroupError SettingsSystem := do
  ensure (req.users.all (fun item ↦
    item.1 ≠ token.uid && s.hasUser item.1 && decide (0 ≤ item.2)) = true) .badRequest
  ensure (req.groups.all (fun item ↦ s.hasGroup item.1 && decide (0 ≤ item.2)) = true) .badRequest
  let _ ← okOr (s.cached token.uid) .unauthorized
  let value (expiresIn : ℤ) : Option ℤ := if expiresIn > 0 then some expiresIn else none
  return s.write token.uid
    (req.users.map (fun item ↦ .burnAfterReading (.user item.1) (value item.2)) ++
      req.groups.map (fun item ↦ .burnAfterReading (.group item.1) (value item.2)))

/-- `update_read_index`. What is not ahead of the index in the cache is passed over. -/
def updateReadIndex (s : SettingsSystem) (token : CurrentUser) (req : TargetsRequest) :
    Except GroupError SettingsSystem := do
  ensure (req.users.all (fun item ↦ item.1 ≠ token.uid && s.hasUser item.1) = true) .badRequest
  ensure (req.groups.all (fun item ↦ s.hasGroup item.1) = true) .badRequest
  let user ← okOr (s.cached token.uid) .unauthorized
  let ahead (target : Target) (mid : ℤ) : Bool := (user.readIndex target).all (· < mid)
  let users := req.users.filter fun item ↦ ahead (.user item.1) item.2
  let groups := req.groups.filter fun item ↦ ahead (.group item.1) item.2
  return s.write token.uid
    (users.map (fun item ↦ .readIndex (.user item.1) (some item.2)) ++
      groups.map (fun item ↦ .readIndex (.group item.1) (some item.2)))

/-- `do_login`, and `update_fcm_token`. -/
def putDevice (s : SettingsSystem) (uid : ℤ) (device : String) (deviceToken : Option String) :
    Except GroupError SettingsSystem := do
  let _ ← okOr (s.cached uid) .unauthorized
  return s.write uid [.device device (some deviceToken)]

/-- `logout`. -/
def logout (s : SettingsSystem) (token : CurrentUser) : Except GroupError SettingsSystem := do
  let _ ← okOr (s.cached token.uid) .unauthorized
  return s.write token.uid [.device token.device none]

/-- `delete_device`. It is the tables that say whether there is one. -/
def deleteDevice (s : SettingsSystem) (token : CurrentUser) (device : String) :
    Except GroupError SettingsSystem := do
  ensure (((s.tables token.uid).devices device).isSome = true) .unauthorized
  return s.write token.uid [.device device none]

/-- `update_device_token`. -/
def updateDeviceToken (s : SettingsSystem) (token : CurrentUser) (deviceToken : Option String) :
    Except GroupError SettingsSystem := do
  let _ ← okOr (s.cached token.uid) .notFound
  return s.write token.uid [.updateDevice token.device deviceToken]

/-- `clean_mute`. -/
def cleanMute (s : SettingsSystem) : SettingsSystem where
  now := s.now
  groups := s.groups
  tables uid := (s.tables uid).cleanMute s.now
  cached uid := (s.cached uid).map (Settings.cleanMute s.now)

/-- `delete` of a group, with what it does to the settings. -/
def deleteGroup (s : SettingsSystem) (token : CurrentUser) (gid : ℤ) :
    Except GroupError SettingsSystem := do
  let groups ← s.groups.delete token gid
  return {
    now := s.now
    groups := groups
    tables := fun uid ↦ (s.tables uid).cascade (.group gid)
    cached := fun uid ↦ (s.cached uid).map (Settings.writeAll · [.readIndex (.group gid) none]) }

/-- `removed_groups_id`: the private groups of a user. -/
def removedGroupsId (s : SettingsSystem) (uid : ℤ) : List ℤ :=
  (s.groups.groups.entries.filter fun e ↦ e.2.ty = .isPrivate uid).map Prod.fst

/-- `delete_user`, with what it does to the settings. -/
def deleteUser (s : SettingsSystem) (uid : ℤ) : Except GroupError SettingsSystem := do
  let groups ← s.groups.deleteUser uid
  return {
    now := s.now
    groups := groups
    tables := fun u ↦ if u = uid then .empty else (s.tables u).cascade (.user uid)
    cached := fun u ↦ if u = uid then none else (s.cached u).map (Settings.writeAll ·
      (.readIndex (.user uid) none ::
        (s.removedGroupsId uid).map fun gid ↦ .readIndex (.group gid) none)) }

def createUser (s : SettingsSystem) (isGuest : Bool) : SettingsSystem :=
  { s with
    groups := s.groups.createUser isGuest
    cached := Function.update s.cached s.groups.nextUid (some .empty) }

end SettingsSystem

inductive SettingsAction where
  | tick (seconds : ℕ)
  | mute (token : CurrentUser) (req : MuteRequest)
  | updateBurnAfterReading (token : CurrentUser) (req : TargetsRequest)
  | updateReadIndex (token : CurrentUser) (req : TargetsRequest)
  | putDevice (uid : ℤ) (device : String) (deviceToken : Option String)
  | logout (token : CurrentUser)
  | deleteDevice (token : CurrentUser) (device : String)
  | updateDeviceToken (token : CurrentUser) (deviceToken : Option String)
  | cleanMute
  /-- Anything that is done with groups and users. -/
  | groups (a : Action)

namespace SettingsSystem

/-- Of the requests on groups, only the deletions, and that of a user, concern settings. -/
def requestGroups (s : SettingsSystem) : Action → Except GroupError SettingsSystem
  | .createUser isGuest => .ok (s.createUser isGuest)
  | .deleteUser uid => s.deleteUser uid
  | .delete token gid => s.deleteGroup token gid
  | a => do return { s with groups := ← s.groups.request a }

def request (s : SettingsSystem) : SettingsAction → Except GroupError SettingsSystem
  | .tick seconds => .ok { s with now := s.now + seconds }
  | .mute token req => s.mute token req
  | .updateBurnAfterReading token req => s.updateBurnAfterReading token req
  | .updateReadIndex token req => s.updateReadIndex token req
  | .putDevice uid device deviceToken => s.putDevice uid device deviceToken
  | .logout token => s.logout token
  | .deleteDevice token device => s.deleteDevice token device
  | .updateDeviceToken token deviceToken => s.updateDeviceToken token deviceToken
  | .cleanMute => .ok s.cleanMute
  | .groups a => s.requestGroups a

/-- A request that fails changes nothing. -/
def perform (s : SettingsSystem) (a : SettingsAction) : SettingsSystem :=
  (s.request a).toOption.getD s

/-- A restart makes no difference to the settings, but for expired mutes. -/
def Agree (s : SettingsSystem) : Prop :=
  ∀ uid, (s.loadUsersCache uid).map (Settings.cleanMute s.now) =
    (s.cached uid).map (Settings.cleanMute s.now)

/-- No settings but read indexes are lost with a group or a user that is deleted, and of the groups
that a deleted user owns not even these. -/
def Orderly (s : SettingsSystem) : SettingsAction → Prop
  | .groups (.delete token gid) => (∃ t, s.groups.delete token gid = .ok t) →
      ∀ uid st, s.cached uid = some st →
        (st.cleanMute s.now).mute (.group gid) = none ∧ st.burnAfterReading (.group gid) = none
  | .groups (.deleteUser uid) => s.hasUser uid = true →
      ∀ u st, u ≠ uid → s.cached u = some st →
        (st.cleanMute s.now).mute (.user uid) = none ∧ st.burnAfterReading (.user uid) = none ∧
          ∀ gid group, s.groups.groups.get gid = some group → group.ty = .isPrivate uid →
            st.readIndex (.group gid) = none
  | _ => True

end SettingsSystem

namespace Settings

variable {st r : Settings} {now : ℤ}

/-! ### What is left of the mutes -/

theorem cleanMute_eq_iff : r.cleanMute now = st.cleanMute now ↔
    r.devices = st.devices ∧ (r.cleanMute now).mute = (st.cleanMute now).mute ∧
      r.burnAfterReading = st.burnAfterReading ∧ r.readIndex = st.readIndex := by
  constructor
  · intro h
    have hdevices : (r.cleanMute now).devices = (st.cleanMute now).devices := congrArg devices h
    have hburn : (r.cleanMute now).burnAfterReading = (st.cleanMute now).burnAfterReading :=
      congrArg burnAfterReading h
    have hread : (r.cleanMute now).readIndex = (st.cleanMute now).readIndex := congrArg readIndex h
    exact ⟨hdevices, congrArg Settings.mute h, hburn, hread⟩
  · rintro ⟨hdevices, hmute, hburn, hread⟩
    exact Settings.ext hdevices hmute hburn hread

theorem cleanMute_cleanMute (st : Settings) {later : ℤ} (h : now ≤ later) :
    (st.cleanMute now).cleanMute later = st.cleanMute later := by
  refine Settings.ext rfl (funext fun target ↦ ?_) rfl rfl
  show ((st.mute target).filter _).filter _ = (st.mute target).filter _
  rw [Option.filter_filter]
  refine congrArg (Option.filter · _) (funext fun expiredAt ↦ ?_)
  -- what has expired by now has later
  cases expiredAt with
  | none => rfl
  | some e =>
    have hlt : e < now → e < later := fun he ↦ lt_of_lt_of_le he h
    by_cases hnow : e < now <;> simp [expired, hnow, hlt]

/-- Settings that differ in expired mutes do so after a write. -/
theorem cleanMute_write (h : r.cleanMute now = st.cleanMute now) (w : Write) :
    (r.write w).cleanMute now = (st.write w).cleanMute now := by
  obtain ⟨hdevices, hmute, hburn, hread⟩ := cleanMute_eq_iff.1 h
  rw [cleanMute_eq_iff]
  cases w with
  | device device value => exact ⟨by simp only [write, hdevices], hmute, hburn, hread⟩
  | updateDevice device token => exact ⟨by simp only [write, hdevices], hmute, hburn, hread⟩
  | mute target value =>
    refine ⟨hdevices, funext fun t ↦ ?_, hburn, hread⟩
    show (Function.update r.mute target value t).filter _ =
      (Function.update st.mute target value t).filter _
    rw [Function.update_apply, Function.update_apply]
    split
    · rfl
    · exact congrFun hmute t
  | burnAfterReading target value => exact ⟨hdevices, hmute, by simp only [write, hburn], hread⟩
  | readIndex target value => exact ⟨hdevices, hmute, hburn, by simp only [write, hread]⟩

theorem cleanMute_writeAll (h : r.cleanMute now = st.cleanMute now) (ws : List Write) :
    (r.writeAll ws).cleanMute now = (st.writeAll ws).cleanMute now := by
  induction ws generalizing r st with
  | nil => exact h
  | cons w ws ih => exact ih (cleanMute_write h w)

theorem writeAll_readIndex (ts : List Target) (st : Settings) :
    st.writeAll (ts.map fun target ↦ .readIndex target none) =
      { st with readIndex := fun target ↦ if target ∈ ts then none else st.readIndex target } := by
  induction ts generalizing st with
  | nil => rfl
  | cons t ts ih =>
    rw [List.map_cons, writeAll, List.foldl_cons]
    refine (ih _).trans (Settings.ext rfl rfl rfl (funext fun target ↦ ?_))
    show (if target ∈ ts then none else Function.update st.readIndex t none target) = _
    by_cases ht : target = t <;> by_cases hts : target ∈ ts <;> simp [ht, hts]

/-- The rows about a target go, and some read indexes, of that target and of others, from the cache:
the same is left when there was nothing more to go on either side. -/
theorem cleanMute_cascade_iff (h : r.cleanMute now = st.cleanMute now) {target : Target}
    {ts : List Target} (ht : target ∈ ts) :
    (r.cascade target).cleanMute now =
        (st.writeAll (ts.map fun t ↦ .readIndex t none)).cleanMute now ↔
      (st.cleanMute now).mute target = none ∧ st.burnAfterReading target = none ∧
        ∀ t ∈ ts, t ≠ target → st.readIndex t = none := by
  obtain ⟨hdevices, hmute, hburn, hread⟩ := cleanMute_eq_iff.1 h
  rw [writeAll_readIndex, cleanMute_eq_iff]
  have hmute' : ((r.cascade target).cleanMute now).mute =
      Function.update (st.cleanMute now).mute target none := by
    rw [← hmute]
    funext t
    show (Function.update r.mute target none t).filter _ = _
    rw [Function.update_apply, Function.update_apply]
    split <;> rfl
  refine (and_iff_right hdevices).trans (and_congr ?_ (and_congr ?_ ?_))
  · rw [hmute']
    show Function.update (st.cleanMute now).mute target none = (st.cleanMute now).mute ↔ _
    rw [Function.update_eq_self_iff, eq_comm]
  · show Function.update r.burnAfterReading target none = st.burnAfterReading ↔ _
    rw [hburn, Function.update_eq_self_iff, eq_comm]
  · show Function.update r.readIndex target none = (fun t ↦ if t ∈ ts then none
      else st.readIndex t) ↔ _
    rw [hread]
    constructor
    · intro heq t hts hne
      have := congrFun heq t
      rwa [Function.update_of_ne hne, if_pos hts] at this
    · intro hnone
      funext t
      rw [Function.update_apply]
      by_cases heq : t = target
      · rw [if_pos heq, if_pos (heq ▸ ht)]
      · rw [if_neg heq]
        split
        · exact hnone t ‹_› heq
        · rfl

end Settings

namespace SettingsSystem

variable {s s' : SettingsSystem} {token : CurrentUser}

/-! ### Who there is -/

/-- The users are those in the cache, others have no rows, and ids that are to come have no user. -/
structure Inv (s : SettingsSystem) : Prop where
  groups : s.groups.WellFormed
  cached : ∀ uid, (s.cached uid).isSome = s.hasUser uid
  tables : ∀ uid, s.hasUser uid = false → s.tables uid = .empty
  fresh : ∀ uid, s.groups.nextUid ≤ uid → s.hasUser uid = false

theorem inv_start (now : ℤ) : (start now).Inv where
  groups := State.wellFormed_start
  cached _ := rfl
  tables _ _ := rfl
  fresh _ _ := rfl

/-- The copies that are compared are those of the users in the cache. -/
theorem agree_iff (hs : s.Inv) : s.Agree ↔ ∀ uid st, s.cached uid = some st →
    (s.tables uid).cleanMute s.now = st.cleanMute s.now := by
  refine forall_congr' fun uid ↦ ?_
  have hcached := hs.cached uid
  rw [loadUsersCache, ← hcached]
  cases hst : s.cached uid with
  | none => exact iff_of_true rfl fun st h ↦ by cases h
  | some st =>
    show some _ = some _ ↔ _
    rw [Option.some_inj]
    refine ⟨fun h st' heq ↦ ?_, fun h ↦ h st rfl⟩
    rw [← Option.some_inj.1 heq]
    exact h

theorem agree_start (now : ℤ) : (start now).Agree := fun _ ↦ rfl

/-! ### Writes to one user -/

theorem write_inv (hs : s.Inv) {uid : ℤ} (huser : s.hasUser uid = true) (ws : List Write) :
    (s.write uid ws).Inv where
  groups := hs.groups
  cached u := by
    show (Function.update s.cached uid _ u).isSome = s.hasUser u
    rw [Function.update_apply]
    split
    · rename_i hu
      rw [Option.isSome_map, hu, hs.cached uid]
    · exact hs.cached u
  tables u hu := by
    have hne : u ≠ uid := fun heq ↦ by
      have hfalse : s.hasUser u = false := hu
      rw [heq, huser] at hfalse
      cases hfalse
    show Function.update s.tables uid _ u = _
    rw [Function.update_of_ne hne]
    exact hs.tables u hu
  fresh := hs.fresh

theorem write_agree (hs : s.Inv) (hagree : s.Agree) {uid : ℤ} (huser : s.hasUser uid = true)
    (ws : List Write) : (s.write uid ws).Agree := by
  rw [agree_iff (write_inv hs huser ws)]
  intro u st hst
  change Function.update s.cached uid _ u = some st at hst
  show (Function.update s.tables uid _ u).cleanMute s.now = _
  rw [Function.update_apply] at hst ⊢
  split at hst
  · rename_i hu
    obtain ⟨origin, horigin, rfl⟩ := Option.map_eq_some_iff.1 hst
    rw [if_pos hu]
    exact Settings.cleanMute_writeAll ((agree_iff hs).1 hagree uid origin horigin) ws
  · rename_i hu
    rw [if_neg hu]
    exact (agree_iff hs).1 hagree u st hst

theorem hasUser_of_cached (hs : s.Inv) {uid : ℤ} {st : Settings} (h : s.cached uid = some st) :
    s.hasUser uid = true := by
  rw [← hs.cached uid, h]
  rfl

/-- A device that is in the tables is a user's. -/
theorem hasUser_of_device (hs : s.Inv) {uid : ℤ} {device : String}
    (h : ((s.tables uid).devices device).isSome = true) : s.hasUser uid = true := by
  by_contra hno
  rw [hs.tables uid (Bool.not_eq_true _ ▸ hno)] at h
  cases h

/-! ### Steps -/

variable {a : SettingsAction}

/-- Requests on groups that delete nothing leave the settings as they are. -/
theorem requestGroups_eq_ok {a : Action} (hs : s.Inv) (h : s.request (.groups a) = .ok s')
    (hcreate : ∀ isGuest, a ≠ .createUser isGuest) (hdelete : ∀ uid, a ≠ .deleteUser uid)
    (hgroup : ∀ token gid, a ≠ .delete token gid) :
    ∃ groups', s' = { s with groups := groups' } ∧ groups'.WellFormed ∧
      s.groups.SameUsers groups' := by
  have hother : s.request (.groups a) = (do return { s with groups := ← s.groups.request a }) := by
    cases a with
    | createUser isGuest => exact absurd rfl (hcreate isGuest)
    | deleteUser uid => exact absurd rfl (hdelete uid)
    | delete token gid => exact absurd rfl (hgroup token gid)
    | _ => rfl
  rw [hother, bind_eq_ok] at h
  obtain ⟨groups', hgroups', h⟩ := h
  have hwell := State.perform_wellFormed hs.groups a
  rw [State.perform, hgroups'] at hwell
  exact ⟨groups', (pure_eq_ok.1 h).symm, hwell,
    State.request_sameUsers hs.groups hgroups' hcreate hdelete⟩

/-- What a step can do: write the settings of one user, leave all settings as they are, or one of
five things that concern all users. -/
theorem request_eq_ok (hs : s.Inv) (h : s.request a = .ok s') :
    (∃ uid ws, s.hasUser uid = true ∧ s' = s.write uid ws) ∧ s.Orderly a ∨
      (∃ groups', s' = { s with groups := groups' } ∧ groups'.WellFormed ∧
        s.groups.SameUsers groups') ∧ s.Orderly a ∨
      (∃ seconds, a = .tick seconds) ∨ a = .cleanMute ∨
      (∃ isGuest, a = .groups (.createUser isGuest)) ∨
      (∃ uid, a = .groups (.deleteUser uid)) ∨ ∃ token gid, a = .groups (.delete token gid) := by
  cases a with
  | tick seconds => exact .inr (.inr (.inl ⟨seconds, rfl⟩))
  | mute token req =>
    simp only [request, mute, bind_eq_ok, okOr_eq_ok, ensure_eq_ok, exists_unit, pure_eq_ok] at h
    obtain ⟨-, -, -, -, st, hst, rfl⟩ := h
    exact .inl ⟨⟨token.uid, _, hasUser_of_cached hs hst, rfl⟩, trivial⟩
  | updateBurnAfterReading token req =>
    simp only [request, updateBurnAfterReading, bind_eq_ok, okOr_eq_ok, ensure_eq_ok, exists_unit,
      pure_eq_ok] at h
    obtain ⟨-, -, st, hst, rfl⟩ := h
    exact .inl ⟨⟨token.uid, _, hasUser_of_cached hs hst, rfl⟩, trivial⟩
  | updateReadIndex token req =>
    simp only [request, updateReadIndex, bind_eq_ok, okOr_eq_ok, ensure_eq_ok, exists_unit,
      pure_eq_ok] at h
    obtain ⟨-, -, st, hst, rfl⟩ := h
    exact .inl ⟨⟨token.uid, _, hasUser_of_cached hs hst, rfl⟩, trivial⟩
  | putDevice uid device deviceToken =>
    simp only [request, putDevice, bind_eq_ok, okOr_eq_ok, pure_eq_ok] at h
    obtain ⟨st, hst, rfl⟩ := h
    exact .inl ⟨⟨uid, _, hasUser_of_cached hs hst, rfl⟩, trivial⟩
  | logout token =>
    simp only [request, logout, bind_eq_ok, okOr_eq_ok, pure_eq_ok] at h
    obtain ⟨st, hst, rfl⟩ := h
    exact .inl ⟨⟨token.uid, _, hasUser_of_cached hs hst, rfl⟩, trivial⟩
  | deleteDevice token device =>
    simp only [request, deleteDevice, bind_eq_ok, ensure_eq_ok, exists_unit, pure_eq_ok] at h
    obtain ⟨hdevice, rfl⟩ := h
    exact .inl ⟨⟨token.uid, _, hasUser_of_device hs hdevice, rfl⟩, trivial⟩
  | updateDeviceToken token deviceToken =>
    simp only [request, updateDeviceToken, bind_eq_ok, okOr_eq_ok, pure_eq_ok] at h
    obtain ⟨st, hst, rfl⟩ := h
    exact .inl ⟨⟨token.uid, _, hasUser_of_cached hs hst, rfl⟩, trivial⟩
  | cleanMute => exact .inr (.inr (.inr (.inl rfl)))
  | groups a =>
    cases a with
    | createUser isGuest => exact .inr (.inr (.inr (.inr (.inl ⟨isGuest, rfl⟩))))
    | deleteUser uid => exact .inr (.inr (.inr (.inr (.inr (.inl ⟨uid, rfl⟩)))))
    | delete token gid => exact .inr (.inr (.inr (.inr (.inr (.inr ⟨token, gid, rfl⟩)))))
    | _ =>
      refine .inr (.inl ⟨requestGroups_eq_ok hs h (fun _ heq ↦ ?_) (fun _ heq ↦ ?_)
        fun _ _ heq ↦ ?_, trivial⟩) <;> cases heq

theorem hasUser_createUser (isGuest : Bool) (u : ℤ) : (s.createUser isGuest).hasUser u =
    if u = s.groups.nextUid then true else s.hasUser u := by
  show ((s.groups.users.insert s.groups.nextUid isGuest).get u).isSome = _
  rw [OrderedMap.get_insert]
  split <;> rfl

theorem createUser_inv (hs : s.Inv) (isGuest : Bool) : (s.createUser isGuest).Inv where
  groups := ⟨hs.groups.copies, hs.groups.fresh⟩
  cached u := by
    rw [hasUser_createUser]
    show (Function.update s.cached s.groups.nextUid _ u).isSome = _
    rw [Function.update_apply]
    split
    · rfl
    · exact hs.cached u
  tables u hu := by
    rw [hasUser_createUser] at hu
    split at hu
    · cases hu
    · exact hs.tables u hu
  fresh u hu := by
    have hlt : s.groups.nextUid + 1 ≤ u := hu
    rw [hasUser_createUser, if_neg (by omega)]
    exact hs.fresh u (by omega)

theorem createUser_agree (hs : s.Inv) (hagree : s.Agree) (isGuest : Bool) :
    (s.createUser isGuest).Agree := by
  rw [agree_iff (createUser_inv hs isGuest)]
  intro u st hst
  change Function.update s.cached s.groups.nextUid _ u = some st at hst
  rw [Function.update_apply] at hst
  split at hst
  · rename_i hu
    obtain rfl := Option.some_inj.1 hst
    show (s.tables u).cleanMute s.now = _
    rw [hu, hs.tables _ (hs.fresh _ le_rfl)]
    rfl
  · exact (agree_iff hs).1 hagree u st hst

/-! ### What is deleted -/

theorem deleteGroup_eq_ok {gid : ℤ} (h : s.deleteGroup token gid = .ok s') :
    ∃ groups', s.groups.delete token gid = .ok groups' ∧ s' = {
      now := s.now
      groups := groups'
      tables := fun uid ↦ (s.tables uid).cascade (.group gid)
      cached := fun uid ↦ (s.cached uid).map (Settings.writeAll ·
        [.readIndex (.group gid) none]) } := by
  rw [deleteGroup, bind_eq_ok] at h
  obtain ⟨groups', hgroups', h⟩ := h
  exact ⟨groups', hgroups', (pure_eq_ok.1 h).symm⟩

theorem deleteUser_eq_ok {uid : ℤ} (h : s.deleteUser uid = .ok s') :
    ∃ groups', s.groups.deleteUser uid = .ok groups' ∧ s' = {
      now := s.now
      groups := groups'
      tables := fun u ↦ if u = uid then .empty else (s.tables u).cascade (.user uid)
      cached := fun u ↦ if u = uid then none else (s.cached u).map (Settings.writeAll ·
        (.readIndex (.user uid) none ::
          (s.removedGroupsId uid).map fun gid ↦ .readIndex (.group gid) none)) } := by
  rw [deleteUser, bind_eq_ok] at h
  obtain ⟨groups', hgroups', h⟩ := h
  exact ⟨groups', hgroups', (pure_eq_ok.1 h).symm⟩

theorem deleteGroup_inv (hs : s.Inv) {gid : ℤ} (h : s.deleteGroup token gid = .ok s') : s'.Inv := by
  obtain ⟨groups', hgroups', rfl⟩ := deleteGroup_eq_ok h
  have hchanges := State.delete_changes hs.groups hgroups'
  obtain ⟨-, -, -, -, -, -, -, -, husers, huid⟩ := id hchanges
  have huser : ∀ u, (groups'.users.get u).isSome = s.hasUser u := fun u ↦ by rw [husers]; rfl
  refine ⟨hchanges.wellFormed hs.groups, fun u ↦ ?_, fun u hu ↦ ?_, fun u hu ↦ ?_⟩
  · refine Option.isSome_map.trans ((hs.cached u).trans (huser u).symm)
  · have hu' : (groups'.users.get u).isSome = false := hu
    rw [huser] at hu'
    show (s.tables u).cascade _ = _
    rw [hs.tables u hu']
    exact Settings.ext rfl (Function.update_eq_self _ _) (Function.update_eq_self _ _)
      (Function.update_eq_self _ _)
  · refine (huser u).trans (hs.fresh u ?_)
    rw [← huid]
    exact hu

theorem deleteUser_inv (hs : s.Inv) {uid : ℤ} (h : s.deleteUser uid = .ok s') : s'.Inv := by
  obtain ⟨groups', hgroups', rfl⟩ := deleteUser_eq_ok h
  have hwell := State.deleteUser_wellFormed hs.groups hgroups'
  obtain ⟨-, -, -, -, -, husers, huid⟩ := State.deleteUser_eq_ok hgroups'
  have huser : ∀ u, (groups'.users.get u).isSome = if u = uid then false else s.hasUser u := by
    intro u
    rw [husers, OrderedMap.get_erase]
    split <;> rfl
  refine ⟨hwell, fun u ↦ ?_, fun u hu ↦ ?_, fun u hu ↦ ?_⟩
  · refine Eq.trans ?_ (huser u).symm
    show Option.isSome (if u = uid then none else _) = _
    split
    · rfl
    · exact Option.isSome_map.trans (hs.cached u)
  · have hu' : (groups'.users.get u).isSome = false := hu
    rw [huser] at hu'
    show (if u = uid then Settings.empty else (s.tables u).cascade _) = _
    split
    · rfl
    · rename_i hne
      rw [if_neg hne] at hu'
      rw [hs.tables u hu']
      exact Settings.ext rfl (Function.update_eq_self _ _) (Function.update_eq_self _ _)
        (Function.update_eq_self _ _)
  · refine (huser u).trans ?_
    split
    · rfl
    · refine hs.fresh u ?_
      rw [← huid]
      exact hu

theorem perform_inv (hs : s.Inv) (a : SettingsAction) : (s.perform a).Inv := by
  unfold perform
  cases h : s.request a with
  | error e => exact hs
  | ok s' =>
    show s'.Inv
    rcases request_eq_ok hs h with ⟨⟨uid, ws, huser, rfl⟩, -⟩ | ⟨⟨groups', rfl, hwell, hsame⟩, -⟩ |
      ⟨seconds, rfl⟩ | rfl | ⟨isGuest, rfl⟩ | ⟨uid, rfl⟩ | ⟨token, gid, rfl⟩
    · exact write_inv hs huser ws
    · have huser : ∀ u, (groups'.users.get u).isSome = s.hasUser u := fun u ↦ by
        rw [hsame.1]
        rfl
      refine ⟨hwell, fun u ↦ (hs.cached u).trans (huser u).symm, fun u hu ↦ ?_, fun u hu ↦ ?_⟩
      · exact hs.tables u ((huser u).symm.trans hu)
      · exact (huser u).trans (hs.fresh u (hsame.2 ▸ hu))
    · obtain rfl := Except.ok.inj h
      exact ⟨hs.groups, hs.cached, hs.tables, hs.fresh⟩
    · obtain rfl := Except.ok.inj h
      refine ⟨hs.groups, fun u ↦ Option.isSome_map.trans (hs.cached u), fun u hu ↦ ?_, hs.fresh⟩
      show (s.tables u).cleanMute s.now = _
      rw [hs.tables u hu]
      rfl
    · obtain rfl := Except.ok.inj h
      exact createUser_inv hs isGuest
    · exact deleteUser_inv hs h
    · exact deleteGroup_inv hs h

/-! ### What a deletion leaves apart -/

theorem deleteGroup_agree_iff (hs : s.Inv) (hagree : s.Agree) {gid : ℤ}
    (h : s.deleteGroup token gid = .ok s') :
    s'.Agree ↔ s.Orderly (.groups (.delete token gid)) := by
  rw [agree_iff (deleteGroup_inv hs h)]
  obtain ⟨groups', hgroups', rfl⟩ := deleteGroup_eq_ok h
  have hpoint : ∀ uid st, s.cached uid = some st →
      (((s.tables uid).cascade (.group gid)).cleanMute s.now =
          (st.writeAll [.readIndex (.group gid) none]).cleanMute s.now ↔
        (st.cleanMute s.now).mute (.group gid) = none ∧
        st.burnAfterReading (.group gid) = none) := by
    intro uid st hst
    refine (Settings.cleanMute_cascade_iff ((agree_iff hs).1 hagree uid st hst)
      (List.mem_singleton_self _)).trans (and_congr_right fun _ ↦ and_iff_left fun t ht hne ↦ ?_)
    exact absurd (List.mem_singleton.1 ht) hne
  constructor
  · intro hall _ uid st hst
    refine (hpoint uid st hst).1 (hall uid _ ?_)
    show (s.cached uid).map _ = _
    rw [hst]
    rfl
  · intro hall uid st hst
    obtain ⟨origin, horigin, rfl⟩ := Option.map_eq_some_iff.1 hst
    exact (hpoint uid origin horigin).2 (hall ⟨groups', hgroups'⟩ uid origin horigin)

theorem mem_removedGroupsId {uid gid : ℤ} : gid ∈ s.removedGroupsId uid ↔
    ∃ group, s.groups.groups.get gid = some group ∧ group.ty = .isPrivate uid := by
  rw [removedGroupsId, List.mem_map]
  constructor
  · rintro ⟨⟨g, group⟩, he, rfl⟩
    obtain ⟨hmem, hty⟩ := List.mem_filter.1 he
    exact ⟨group, OrderedMap.get_eq_some.2 hmem, of_decide_eq_true hty⟩
  · rintro ⟨group, hgroup, hty⟩
    exact ⟨(gid, group),
      List.mem_filter.2 ⟨OrderedMap.get_eq_some.1 hgroup, decide_eq_true hty⟩, rfl⟩

theorem deleteUser_agree_iff (hs : s.Inv) (hagree : s.Agree) {uid : ℤ}
    (h : s.deleteUser uid = .ok s') : s'.Agree ↔ s.Orderly (.groups (.deleteUser uid)) := by
  rw [agree_iff (deleteUser_inv hs h)]
  obtain ⟨groups', hgroups', rfl⟩ := deleteUser_eq_ok h
  obtain ⟨huser, -⟩ := State.deleteUser_eq_ok hgroups'
  have hpoint : ∀ u st, s.cached u = some st →
      (((s.tables u).cascade (.user uid)).cleanMute s.now =
          (st.writeAll (.readIndex (.user uid) none ::
            (s.removedGroupsId uid).map fun gid ↦ .readIndex (.group gid) none)).cleanMute s.now ↔
        (st.cleanMute s.now).mute (.user uid) = none ∧ st.burnAfterReading (.user uid) = none ∧
          ∀ gid group, s.groups.groups.get gid = some group → group.ty = .isPrivate uid →
            st.readIndex (.group gid) = none) := by
    intro u st hst
    have hws : (.readIndex (.user uid) none ::
        (s.removedGroupsId uid).map fun gid ↦ Write.readIndex (.group gid) none) =
          (.user uid :: (s.removedGroupsId uid).map Target.group).map fun t ↦
          .readIndex t none := by
      rw [List.map_cons, List.map_map]
      rfl
    rw [hws]
    refine (Settings.cleanMute_cascade_iff ((agree_iff hs).1 hagree u st hst)
      List.mem_cons_self).trans (and_congr_right fun _ ↦ and_congr_right fun _ ↦ ?_)
    constructor
    · intro hall gid group hgroup hty
      refine hall _ (List.mem_cons_of_mem _ (List.mem_map_of_mem ?_)) fun heq ↦ by cases heq
      exact mem_removedGroupsId.2 ⟨group, hgroup, hty⟩
    · intro hall t ht hne
      rcases List.mem_cons.1 ht with rfl | ht
      · exact absurd rfl hne
      · obtain ⟨gid, hgid, rfl⟩ := List.mem_map.1 ht
        obtain ⟨group, hgroup, hty⟩ := mem_removedGroupsId.1 hgid
        exact hall gid group hgroup hty
  constructor
  · intro hall _ u st hne hst
    have hu := hall u (st.writeAll _) (by
      show (if u = uid then none else (s.cached u).map _) = _
      rw [if_neg hne, hst]
      rfl)
    change (if u = uid then Settings.empty else _).cleanMute s.now = _ at hu
    rw [if_neg hne] at hu
    exact (hpoint u st hst).1 hu
  · intro hall u st hst
    change (if u = uid then none else (s.cached u).map _) = some st at hst
    show (if u = uid then Settings.empty else _).cleanMute s.now = _
    split at hst
    · cases hst
    · rename_i hne
      obtain ⟨origin, horigin, rfl⟩ := Option.map_eq_some_iff.1 hst
      rw [if_neg hne]
      exact (hpoint u origin horigin).2 (hall huser u origin hne horigin)

theorem perform_agree_iff (hs : s.Inv) (hagree : s.Agree) (a : SettingsAction) :
    (s.perform a).Agree ↔ s.Orderly a := by
  have hinv := perform_inv hs a
  unfold perform at hinv ⊢
  cases h : s.request a with
  | error e =>
    refine iff_of_true hagree ?_
    -- a deletion that is refused deletes nothing
    cases a with
    | groups a =>
      cases a with
      | delete token gid =>
        rintro ⟨groups', hgroups'⟩
        change s.deleteGroup token gid = .error e at h
        rw [deleteGroup, hgroups'] at h
        cases h
      | deleteUser uid =>
        intro huser
        have hensure : (s.groups.users.get uid).isSome = true := huser
        change s.deleteUser uid = .error e at h
        rw [deleteUser, State.deleteUser, ensure, if_pos hensure] at h
        cases h
      | _ => trivial
    | _ => trivial
  | ok s' =>
    rw [h] at hinv
    show s'.Agree ↔ _
    rcases request_eq_ok hs h with ⟨⟨uid, ws, huser, rfl⟩, hok⟩ |
      ⟨⟨groups', rfl, hwell, hsame⟩, hok⟩ | ⟨seconds, rfl⟩ | rfl | ⟨isGuest, rfl⟩ | ⟨uid, rfl⟩ |
        ⟨token, gid, rfl⟩
    · exact iff_of_true (write_agree hs hagree huser ws) hok
    · exact iff_of_true ((agree_iff hinv).2 ((agree_iff hs).1 hagree)) hok
    · obtain rfl := Except.ok.inj h
      refine iff_of_true ((agree_iff hinv).2 fun u st hst ↦ ?_) trivial
      show (s.tables u).cleanMute (s.now + seconds) = st.cleanMute (s.now + seconds)
      have hlater : s.now ≤ s.now + seconds := by omega
      rw [← Settings.cleanMute_cleanMute (s.tables u) hlater, (agree_iff hs).1 hagree u st hst,
        Settings.cleanMute_cleanMute st hlater]
    · obtain rfl := Except.ok.inj h
      refine iff_of_true ((agree_iff hinv).2 fun u st hst ↦ ?_) trivial
      obtain ⟨origin, horigin, rfl⟩ := Option.map_eq_some_iff.1 hst
      exact congrArg (Settings.cleanMute s.now) ((agree_iff hs).1 hagree u origin horigin)
    · obtain rfl := Except.ok.inj h
      exact iff_of_true (createUser_agree hs hagree isGuest) trivial
    · exact deleteUser_agree_iff hs hagree h
    · exact deleteGroup_agree_iff hs hagree h

/-- A restart at any time makes no difference to any user's settings but for expired mutes, exactly
when no step was out of order. -/
theorem settings_iff (now : ℤ) (as : List SettingsAction) :
    (∀ cs, cs <+: as → ∀ uid,
      ((cs.foldl perform (start now)).loadUsersCache uid).map
          (Settings.cleanMute (cs.foldl perform (start now)).now) =
        ((cs.foldl perform (start now)).cached uid).map
          (Settings.cleanMute (cs.foldl perform (start now)).now)) ↔
      Along (total perform) Orderly (start now) as :=
  forall_prefix_iff_along (I := Inv) (P := Agree) (f := perform) (fun _ a hs ↦ perform_inv hs a)
    (fun _ a hs hagree ↦ perform_agree_iff hs hagree a) (inv_start now) (agree_start now) as

/-- The first user, an administrator, mutes a group that it has created, for good, and deletes it.
The mute stays in the cache. -/
theorem not_forall_loadUsersCache : ¬∀ (now : ℤ) (as : List SettingsAction) (uid : ℤ),
    ((as.foldl perform (start now)).loadUsersCache uid).map
        (Settings.cleanMute (as.foldl perform (start now)).now) =
      ((as.foldl perform (start now)).cached uid).map
        (Settings.cleanMute (as.foldl perform (start now)).now) := by
  intro h
  have hload := h 0 [.groups (.createUser false),
    .groups (.create ⟨1, "web", true, false⟩ ⟨"ours", none, [], false, false⟩),
    .mute ⟨1, "web", true, false⟩ ⟨[], [(1, none)], [], []⟩,
    .groups (.delete ⟨1, "web", true, false⟩ 1)] 1
  have hmute := congrArg (Option.map fun st ↦ st.mute (.group 1)) hload
  revert hmute
  decide +kernel

end SettingsSystem

end Groups

end VoceChat
