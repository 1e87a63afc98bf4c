import VoceChat.Foundations.Guards
import VoceChat.Foundations.OrderedMap
import VoceChat.Foundations.Run
import VoceChat.Foundations.Table

/-!
# Muted users and groups (`src/state.rs`, `src/api/user.rs`)

A user mutes other users and groups, for some seconds or for good. Three places read the expiry
time: `is_user_muted` and `is_group_muted` decide on notifications, `get_user_settings_msg` tells
the client what is muted, and `clean_mute` throws out what has expired.

The last two agree: an entry counts until its expiry time, that time included. The predicates have
the comparison the other way round. A timed entry is muted for them once it **has** expired, and
until it is thrown out; so on a timed entry they are wrong at every time, before its expiry and
after. On permanent entries all three agree.

`Mirrored.run` keeps the table `mute` and the cache together. `consistent_iff_noTimed` says what was
said above of one state. `consistent_along_iff` follows it through runs: the answers are what the
client is told in every state reached exactly when no request leaves a timed entry.

Times are nanoseconds. A call of `mute` holds the cache for writing, so it is one step; `clean_mute`
is one step as well, and only ever looks at the time it was started at.
-/

namespace VoceChat

open Guards Transition

/-! ### One map of muted ids -/

/-- Muted ids with their expiry times; without one, an entry is permanent. -/
abbrev MuteMap := OrderedMap ℤ (Option ℤ)

namespace MuteMap

/-- The body of `is_user_muted` and `is_group_muted`. -/
def isMuted (m : MuteMap) (now id : ℤ) : Bool :=
  match m.get id with
  | some (some expiredAt) => decide (expiredAt < now)
  | some none => true
  | none => false

/-- The body of the two `filter_map`s of `get_user_settings_msg`. -/
def reported (m : MuteMap) (now : ℤ) : List (ℤ × Option ℤ) :=
  m.entries.filter fun e ↦ !e.2.any fun expiredAt ↦ decide (now > expiredAt)

/-- The body of the two loops of `clean_mute`. -/
def clean (m : MuteMap) (now : ℤ) : MuteMap :=
  m.filterMapValues fun _ expiredAt ↦
    if expiredAt.any (fun expiredAt ↦ decide (expiredAt < now)) = true then none else some expiredAt

/-- The body of the cache update of `mute`: first what is added, then what is removed. -/
def change (m : MuteMap) (add : List (ℤ × Option ℤ)) (remove : List ℤ) : MuteMap :=
  remove.foldl OrderedMap.erase (m.insertAll add)

/-- Permanent entries only. -/
def NoTimed (m : MuteMap) : Prop := ∀ id expiredAt, m.get id ≠ some (some expiredAt)

variable {m : MuteMap} {now now' id : ℤ}

theorem mem_reported : id ∈ (m.reported now).map Prod.fst ↔
    ∃ expiredAt, m.get id = some expiredAt ∧ ∀ e ∈ expiredAt, now ≤ e := by
  rw [List.mem_map]
  constructor
  · rintro ⟨⟨id', expiredAt⟩, hmem, rfl⟩
    obtain ⟨hmem, hlive⟩ := List.mem_filter.1 hmem
    refine ⟨expiredAt, OrderedMap.get_eq_some.2 hmem, fun e he ↦ ?_⟩
    obtain rfl := Option.mem_def.1 he
    simpa using hlive
  · rintro ⟨expiredAt, hget, hlive⟩
    refine ⟨(id, expiredAt), List.mem_filter.2 ⟨OrderedMap.get_eq_some.1 hget, ?_⟩, rfl⟩
    cases expiredAt with
    | none => rfl
    | some e => simpa using hlive e rfl

/-- On a timed entry the predicate and the report never agree. -/
theorem isMuted_iff_reported :
    (m.isMuted now id = true ↔ id ∈ (m.reported now).map Prod.fst) ↔
      ∀ expiredAt, m.get id ≠ some (some expiredAt) := by
  rw [mem_reported, isMuted]
  cases hget : m.get id with
  | none =>
    refine iff_of_true (iff_of_false Bool.false_ne_true ?_) nofun
    rintro ⟨expiredAt, hsome, -⟩
    cases hsome
  | some expiredAt =>
    cases expiredAt with
    | none =>
      refine iff_of_true (iff_of_true rfl ⟨none, rfl, nofun⟩) fun e heq ↦ ?_
      cases Option.some.inj heq
    | some e =>
      have hreported : (∃ expiredAt, some (some e) = some expiredAt ∧ ∀ e ∈ expiredAt, now ≤ e) ↔
          now ≤ e := by
        constructor
        · rintro ⟨expiredAt, heq, hlive⟩
          exact hlive e (Option.some.inj heq).symm
        · exact fun hlive ↦ ⟨some e, rfl, fun e' he' ↦ Option.some.inj he' ▸ hlive⟩
      rw [hreported, decide_eq_true_iff]
      refine iff_of_false (fun hiff ↦ ?_) fun hnot ↦ hnot e rfl
      omega

/-- **One map: the predicate is the report exactly when all entries are permanent.** -/
theorem forall_isMuted_iff_reported :
    (∀ id, m.isMuted now id = true ↔ id ∈ (m.reported now).map Prod.fst) ↔ m.NoTimed :=
  forall_congr' fun _ ↦ isMuted_iff_reported

theorem get_clean : (m.clean now).get id =
    (m.get id).bind fun expiredAt ↦
      if expiredAt.any (fun expiredAt ↦ decide (expiredAt < now)) = true then none
      else some expiredAt :=
  OrderedMap.get_filterMapValues m _ id

/-- A purge keeps what is permanent. -/
theorem NoTimed.get_clean (h : m.NoTimed) : (m.clean now).get id = m.get id := by
  rw [MuteMap.get_clean]
  cases hget : m.get id with
  | none => rfl
  | some expiredAt =>
    cases expiredAt with
    | none => rfl
    | some e => exact absurd hget (h id e)

theorem NoTimed.isMuted_clean (h : m.NoTimed) :
    (m.clean now).isMuted now' id = m.isMuted now' id := by
  rw [isMuted, isMuted, h.get_clean]

theorem NoTimed.clean (h : m.NoTimed) : (m.clean now).NoTimed := fun id e ↦ by
  rw [h.get_clean]
  exact h id e

theorem get_change (m : MuteMap) (add : List (ℤ × Option ℤ)) (remove : List ℤ) (id : ℤ) :
    (m.change add remove).get id = if id ∈ remove then none
      else ((OrderedMap.empty.insertAll add).get id).or (m.get id) := by
  rw [change, OrderedMap.get_foldl_erase, OrderedMap.get_insertAll]

/-- What the list alone would leave timed is taken back by the removals. -/
def Settled (add : List (ℤ × Option ℕ)) (remove : List ℤ) : Prop :=
  ∀ id seconds, (OrderedMap.empty.insertAll add).get id = some (some seconds) → id ∈ remove

/-- `expired_in`, from the time of the request. -/
def expiredAfter (now : ℤ) (expiredIn : Option ℕ) : Option ℤ :=
  expiredIn.map fun seconds ↦ now + seconds * 1000000000

/-- Permanent entries stay the only ones exactly if no timed one is left by the change. -/
theorem NoTimed.change_iff (h : m.NoTimed) (add : List (ℤ × Option ℕ)) (remove : List ℤ) :
    (m.change (add.map fun e ↦ (e.1, expiredAfter now e.2)) remove).NoTimed ↔
      Settled add remove := by
  unfold NoTimed Settled
  simp only [get_change, OrderedMap.get_insertAll_map]
  constructor
  · intro hchange id seconds hadd
    refine of_not_not fun hnot ↦ ?_
    refine hchange id (now + seconds * 1000000000) ?_
    rw [if_neg hnot, hadd]
    rfl
  · intro hsettled id expiredAt hget
    by_cases hrem : id ∈ remove
    · rw [if_pos hrem] at hget
      cases hget
    · rw [if_neg hrem] at hget
      cases hadd : (OrderedMap.empty.insertAll add).get id with
      | none =>
        rw [hadd] at hget
        exact h id expiredAt hget
      | some expiredIn =>
        cases expiredIn with
        | none =>
          rw [hadd] at hget
          cases Option.some.inj hget
        | some seconds => exact hrem (hsettled id seconds hadd)

end MuteMap

/-! ### Requests -/

open MuteMap (expiredAfter)

structure MuteRequestUser where
  uid : ℤ
  /-- In seconds. -/
  expiredIn : Option ℕ

structure MuteRequestGroup where
  gid : ℤ
  /-- In seconds. -/
  expiredIn : Option ℕ

structure MuteRequest where
  addUsers : List MuteRequestUser
  addGroups : List MuteRequestGroup
  removeUsers : List ℤ
  removeGroups : List ℤ

/-- The timed additions that are not made permanent later in their list are among the removals. -/
def MuteRequest.Settled (req : MuteRequest) : Prop :=
  MuteMap.Settled (req.addUsers.map fun item ↦ (item.uid, item.expiredIn)) req.removeUsers ∧
    MuteMap.Settled (req.addGroups.map fun item ↦ (item.gid, item.expiredIn)) req.removeGroups

structure MuteUser where
  uid : ℤ
  expiredAt : Option ℤ
  deriving DecidableEq

structure MuteGroup where
  gid : ℤ
  expiredAt : Option ℤ
  deriving DecidableEq

/-- The mutes of `UserSettingsMessage`. -/
structure UserSettingsMessage where
  muteUsers : List MuteUser
  muteGroups : List MuteGroup

inductive MuteError where
  | badRequest
  | unauthorized
  deriving DecidableEq

/-- Whom a row of the table `mute` is about: one of `mute_uid` and `mute_gid` is set. -/
inductive MuteTarget where
  | user (uid : ℤ)
  | group (gid : ℤ)
  deriving DecidableEq

/-- The mutes of a cached user. -/
structure CacheMutes where
  muteUser : MuteMap
  muteGroup : MuteMap

namespace CacheMutes

/-- `is_user_muted`. -/
def isUserMuted (user : CacheMutes) (now uid : ℤ) : Bool := user.muteUser.isMuted now uid

/-- `is_group_muted`. -/
def isGroupMuted (user : CacheMutes) (now gid : ℤ) : Bool := user.muteGroup.isMuted now gid

/-- `get_user_settings_msg`. -/
def settingsMsg (user : CacheMutes) (now : ℤ) : UserSettingsMessage where
  muteUsers := (user.muteUser.reported now).map fun e ↦ ⟨e.1, e.2⟩
  muteGroups := (user.muteGroup.reported now).map fun e ↦ ⟨e.1, e.2⟩

theorem map_uid_settingsMsg (user : CacheMutes) (now : ℤ) :
    (user.settingsMsg now).muteUsers.map MuteUser.uid =
      (user.muteUser.reported now).map Prod.fst := by
  rw [settingsMsg, List.map_map]
  rfl

theorem map_gid_settingsMsg (user : CacheMutes) (now : ℤ) :
    (user.settingsMsg now).muteGroups.map MuteGroup.gid =
      (user.muteGroup.reported now).map Prod.fst := by
  rw [settingsMsg, List.map_map]
  rfl

/-- What `clean_mute` does to a user. -/
def cleanMute (user : CacheMutes) (now : ℤ) : CacheMutes where
  muteUser := user.muteUser.clean now
  muteGroup := user.muteGroup.clean now

/-- What an accepted `mute` does to the user who asked. -/
def mute (user : CacheMutes) (now : ℤ) (req : MuteRequest) : CacheMutes where
  muteUser := user.muteUser.change
    (req.addUsers.map fun item ↦ (item.uid, expiredAfter now item.expiredIn)) req.removeUsers
  muteGroup := user.muteGroup.change
    (req.addGroups.map fun item ↦ (item.gid, expiredAfter now item.expiredIn)) req.removeGroups

end CacheMutes

/-! ### The system -/

/-- The table and the cache, the groups there are, and the clock. -/
structure MuteState where
  rows : Table (ℤ × MuteTarget) (Option ℤ)
  users : OrderedMap ℤ CacheMutes
  groups : List ℤ
  now : ℤ

inductive MuteAction where
  | mute (uid : ℤ) (req : MuteRequest)
  | cleanMute
  | elapse (nanoseconds : ℕ)

namespace MuteState

/-- The checks of `mute`, and the user who asks. -/
def checkMute (s : MuteState) (uid : ℤ) (req : MuteRequest) : Except MuteError CacheMutes := do
  ensure (¬req.addUsers.any
    (fun item ↦ item.uid = uid || (s.users.get item.uid).isNone) = true) .badRequest
  ensure (¬req.addGroups.any (fun item ↦ item.gid ∉ s.groups) = true) .badRequest
  ensure (¬req.removeUsers.any (fun uid ↦ (s.users.get uid).isNone) = true) .badRequest
  ensure (¬req.removeGroups.any (fun gid ↦ gid ∉ s.groups) = true) .badRequest
  okOr (s.users.get uid) .unauthorized

/-- The transaction of `mute`. -/
def muteRows (rows : Table (ℤ × MuteTarget) (Option ℤ)) (now uid : ℤ) (req : MuteRequest) :
    Table (ℤ × MuteTarget) (Option ℤ) :=
  let rows := req.addUsers.foldl
    (fun rows item ↦ rows.put (uid, .user item.uid) (expiredAfter now item.expiredIn)) rows
  let rows := req.addGroups.foldl
    (fun rows item ↦ rows.put (uid, .group item.gid) (expiredAfter now item.expiredIn)) rows
  rows.filter fun key _ ↦ !(key.1 = uid && match key.2 with
    | .user id => id ∈ req.removeUsers
    | .group id => id ∈ req.removeGroups)

/-- `mute`. -/
def mute (s : MuteState) (uid : ℤ) (req : MuteRequest) : Except MuteError MuteState := do
  let user ← s.checkMute uid req
  pure { s with
    rows := muteRows s.rows s.now uid req
    users := s.users.insert uid (user.mute s.now req) }

/-- `clean_mute`. -/
def cleanMute (s : MuteState) : MuteState :=
  { s with
    rows := s.rows.filter fun _ expiredAt ↦ !expiredAt.any fun expiredAt ↦ expiredAt < s.now
    users := s.users.filterMapValues fun _ user ↦ some (user.cleanMute s.now) }

/-- A request that is refused changes nothing. -/
def step (s : MuteState) : MuteAction → MuteState
  | .mute uid req =>
    match s.mute uid req with
    | .ok s' => s'
    | .error _ => s
  | .cleanMute => s.cleanMute
  | .elapse nanoseconds => { s with now := s.now + nanoseconds }

/-- The answers on notifications are what the client is told at this time, and a purge at this time
changes none of them, now or later. -/
structure Consistent (s : MuteState) : Prop where
  users : ∀ uid user, s.users.get uid = some user → ∀ id,
    user.isUserMuted s.now id = true ↔ id ∈ (user.settingsMsg s.now).muteUsers.map MuteUser.uid
  groups : ∀ uid user, s.users.get uid = some user → ∀ id,
    user.isGroupMuted s.now id = true ↔ id ∈ (user.settingsMsg s.now).muteGroups.map MuteGroup.gid
  cleaned : ∀ uid user, s.users.get uid = some user → ∃ user',
    s.cleanMute.users.get uid = some user' ∧
    ∀ now id, s.now ≤ now → user'.isUserMuted now id = user.isUserMuted now id ∧
      user'.isGroupMuted now id = user.isGroupMuted now id

/-! ### One state -/

variable {s : MuteState}

/-- Nobody has a timed entry. -/
def NoTimed (s : MuteState) : Prop := ∀ uid user, s.users.get uid = some user →
  user.muteUser.NoTimed ∧ user.muteGroup.NoTimed

theorem get_cleanMute {uid : ℤ} :
    s.cleanMute.users.get uid = (s.users.get uid).map fun user ↦ user.cleanMute s.now := by
  rw [cleanMute, OrderedMap.get_filterMapValues]
  cases s.users.get uid with
  | none => rfl
  | some user => rfl

/-- **The three readings of the expiry time agree exactly where nothing is timed.** -/
theorem consistent_iff_noTimed : s.Consistent ↔ s.NoTimed := by
  constructor
  · intro h uid user huser
    have husers := h.users uid user huser
    have hgroups := h.groups uid user huser
    rw [CacheMutes.map_uid_settingsMsg] at husers
    rw [CacheMutes.map_gid_settingsMsg] at hgroups
    exact ⟨MuteMap.forall_isMuted_iff_reported.1 husers,
      MuteMap.forall_isMuted_iff_reported.1 hgroups⟩
  · intro h
    constructor
    case users =>
      intro uid user huser id
      rw [CacheMutes.map_uid_settingsMsg]
      exact MuteMap.forall_isMuted_iff_reported.2 (h uid user huser).1 id
    case groups =>
      intro uid user huser id
      rw [CacheMutes.map_gid_settingsMsg]
      exact MuteMap.forall_isMuted_iff_reported.2 (h uid user huser).2 id
    case cleaned =>
      intro uid user huser
      obtain ⟨husers, hgroups⟩ := h uid user huser
      refine ⟨user.cleanMute s.now, by rw [get_cleanMute, huser]; rfl, fun now id _ ↦ ?_⟩
      exact ⟨husers.isMuted_clean, hgroups.isMuted_clean⟩

/-! ### Runs -/

/-- What a step may do: an accepted request leaves no timed entry. -/
def LeavesNoTimed (s : MuteState) : MuteAction → Prop
  | .mute uid req => (∃ user, s.checkMute uid req = .ok user) → req.Settled
  | .cleanMute => True
  | .elapse _ => True

theorem checkMute_eq_ok {uid : ℤ} {req : MuteRequest} {user : CacheMutes}
    (h : s.checkMute uid req = .ok user) : s.users.get uid = some user := by
  simp only [checkMute, bind_eq_ok, okOr_eq_ok] at h
  obtain ⟨-, -, -, -, -, -, -, -, hget⟩ := h
  exact hget

/-- What `mute` does, by its checks. -/
theorem step_mute (s : MuteState) (uid : ℤ) (req : MuteRequest) :
    (∃ user, s.checkMute uid req = .ok user ∧ s.users.get uid = some user ∧
      s.step (.mute uid req) = { s with
        rows := muteRows s.rows s.now uid req
        users := s.users.insert uid (user.mute s.now req) }) ∨
      (∀ user, s.checkMute uid req ≠ .ok user) ∧ s.step (.mute uid req) = s := by
  cases hcheck : s.checkMute uid req with
  | error e =>
    refine .inr ⟨nofun, ?_⟩
    rw [step, mute, hcheck]
    rfl
  | ok user =>
    refine .inl ⟨user, rfl, checkMute_eq_ok hcheck, ?_⟩
    rw [step, mute, hcheck]
    rfl

theorem NoTimed.mute_iff (h : s.NoTimed) {uid : ℤ} {user : CacheMutes}
    (huser : s.users.get uid = some user) (req : MuteRequest) :
    NoTimed { s with
      rows := muteRows s.rows s.now uid req
      users := s.users.insert uid (user.mute s.now req) } ↔ req.Settled := by
  have huserNow := @MuteMap.NoTimed.change_iff _ s.now (h uid user huser).1
    (req.addUsers.map fun item ↦ (item.uid, item.expiredIn)) req.removeUsers
  have hgroupNow := @MuteMap.NoTimed.change_iff _ s.now (h uid user huser).2
    (req.addGroups.map fun item ↦ (item.gid, item.expiredIn)) req.removeGroups
  rw [List.map_map] at huserNow hgroupNow
  constructor
  · intro hnext
    obtain ⟨hu, hg⟩ := hnext uid (user.mute s.now req) (OrderedMap.get_insert_self _ _ _)
    exact ⟨huserNow.1 hu, hgroupNow.1 hg⟩
  · rintro ⟨hu, hg⟩ uid' user' hget
    simp only [OrderedMap.get_insert] at hget
    split at hget
    · obtain rfl := Option.some.inj hget
      exact ⟨huserNow.2 hu, hgroupNow.2 hg⟩
    · exact h uid' user' hget

/-- One step. -/
theorem NoTimed.step_iff (h : s.NoTimed) (a : MuteAction) :
    (s.step a).NoTimed ↔ s.LeavesNoTimed a := by
  cases a with
  | mute uid req =>
    rcases s.step_mute uid req with ⟨user, hcheck, huser, hstep⟩ | ⟨hrefused, hstep⟩
    · rw [hstep, h.mute_iff huser]
      exact ⟨fun hreq _ ↦ hreq, fun hok ↦ hok ⟨user, hcheck⟩⟩
    · rw [hstep]
      exact iff_of_true h fun ⟨user, hcheck⟩ ↦ absurd hcheck (hrefused user)
  | cleanMute =>
    refine iff_of_true (fun uid user' huser' ↦ ?_) True.intro
    rw [step, get_cleanMute, Option.map_eq_some_iff] at huser'
    obtain ⟨user, huser, rfl⟩ := huser'
    exact ⟨(h uid user huser).1.clean, (h uid user huser).2.clean⟩
  | elapse nanoseconds => exact iff_of_true h trivial

/-- **Along a run from a state without timed entries, the answers on notifications are what the
clients are told exactly if no accepted request leaves a timed entry.** -/
theorem consistent_along_iff (h : s.NoTimed) (as : List MuteAction) :
    (∀ cs, cs <+: as → (cs.foldl step s).Consistent) ↔ Along (total step) LeavesNoTimed s as := by
  simp only [consistent_iff_noTimed]
  exact forall_prefix_iff_along (I := fun _ ↦ True) (P := NoTimed) (fun _ _ _ ↦ trivial)
    (fun _ a _ hs ↦ hs.step_iff a) trivial h as

/-- Two users who mute nobody. -/
def twoUsers : MuteState where
  rows := Table.empty
  users := OrderedMap.empty.insertAll [(1, ⟨OrderedMap.empty, OrderedMap.empty⟩),
    (2, ⟨OrderedMap.empty, OrderedMap.empty⟩)]
  groups := []
  now := 0

theorem noTimed_twoUsers : twoUsers.NoTimed := by
  intro uid user huser
  rcases OrderedMap.mem_or_get_of_get_insertAll huser with hmem | hget
  · simp only [List.mem_cons, Prod.mk.injEq, List.not_mem_nil, or_false] at hmem
    obtain ⟨-, rfl⟩ | ⟨-, rfl⟩ := hmem <;> exact ⟨nofun, nofun⟩
  · cases hget

/-- User 1 mutes user 2 for a minute. The client shows it, and the notifications go on. -/
theorem not_forall_mutes_consistent :
    ¬∀ as : List MuteAction, (as.foldl step twoUsers).Consistent := by
  intro h
  have hmuted := (h [.mute 1 ⟨[⟨2, some 60⟩], [], [], []⟩]).users 1 _ rfl 2
  revert hmuted
  decide +kernel

/-- User 1 mutes user 2 for good, and a purge runs a minute later. -/
def permanentRun : List MuteAction :=
  [.mute 1 ⟨[⟨2, none⟩], [], [], []⟩, .elapse 60000000000, .cleanMute]

theorem consistent_permanentRun : (permanentRun.foldl step twoUsers).Consistent := by
  refine (consistent_along_iff noTimed_twoUsers permanentRun).2 ?_ permanentRun (List.prefix_refl _)
  refine ⟨fun _ ↦ ⟨fun id seconds hget ↦ ?_, nofun⟩, ?_⟩
  · rcases OrderedMap.mem_or_get_of_get_insertAll hget with hmem | hget
    · cases (Prod.ext_iff.1 (List.mem_singleton.1 hmem)).2
    · cases hget
  · exact fun _ _ ↦ ⟨trivial, fun _ _ ↦ ⟨trivial, fun _ _ ↦ trivial⟩⟩

/-! ### The table -/

/-- The rows of every user are the user's cached entries: a restart loads what is there. -/
def Mirrored (s : MuteState) : Prop := ∀ uid user, s.users.get uid = some user →
  (∀ id, s.rows.get (uid, .user id) = user.muteUser.get id) ∧
    ∀ id, s.rows.get (uid, .group id) = user.muteGroup.get id

section Rows

variable {rows : Table (ℤ × MuteTarget) (Option ℤ)} {uid : ℤ} {target : ℤ → MuteTarget} {ι : Type}

/-- One of the two loops of inserts, on the kind of row it writes. -/
theorem get_foldl_put (htarget : ∀ i j, target i = target j → i = j) (key : ι → ℤ)
    (val : ι → Option ℤ) (items : List ι) {m : MuteMap}
    (h : ∀ id, rows.get (uid, target id) = m.get id) (id : ℤ) :
    (items.foldl (fun rows item ↦ rows.put (uid, target (key item)) (val item)) rows).get
        (uid, target id) = (m.insertAll (items.map fun item ↦ (key item, val item))).get id := by
  induction items generalizing rows m with
  | nil => exact h id
  | cons item items ih =>
    rw [List.foldl_cons, List.map_cons, OrderedMap.insertAll, List.foldl_cons]
    refine ih fun id ↦ ?_
    rw [Table.get_put, OrderedMap.get_insert, h]
    refine if_congr ⟨fun heq ↦ ?_, fun heq ↦ by rw [heq]⟩ rfl rfl
    exact htarget _ _ (Prod.ext_iff.1 heq).2

/-- The loop leaves the other rows. -/
theorem get_foldl_put_of_ne (key : ι → ℤ) (val : ι → Option ℤ) (items : List ι)
    {k : ℤ × MuteTarget} (hk : ∀ id, k ≠ (uid, target id)) :
    (items.foldl (fun rows item ↦ rows.put (uid, target (key item)) (val item)) rows).get k =
      rows.get k := by
  induction items generalizing rows with
  | nil => rfl
  | cons item items ih => rw [List.foldl_cons, ih, Table.get_put_of_ne _ _ (hk _)]

/-- The rows of other users stay. -/
theorem get_muteRows_of_ne {uid' : ℤ} (hne : uid' ≠ uid) (now : ℤ) (req : MuteRequest)
    (t : MuteTarget) : (muteRows rows now uid req).get (uid', t) = rows.get (uid', t) := by
  have hkey : ∀ (target : ℤ → MuteTarget) id, (uid', t) ≠ (uid, target id) :=
    fun target id heq ↦ hne (Prod.ext_iff.1 heq).1
  refine Option.ext fun v ↦ ?_
  rw [muteRows, Table.get_filter, get_foldl_put_of_ne _ _ _ (hkey .group),
    get_foldl_put_of_ne _ _ _ (hkey .user)]
  simp [hne]

/-- The user's own rows about users follow the map. -/
theorem get_muteRows_user {m : MuteMap} (h : ∀ id, rows.get (uid, .user id) = m.get id) (now : ℤ)
    (req : MuteRequest) (id : ℤ) : (muteRows rows now uid req).get (uid, .user id) =
      (m.change (req.addUsers.map fun item ↦ (item.uid, expiredAfter now item.expiredIn))
        req.removeUsers).get id := by
  refine Option.ext fun v ↦ ?_
  rw [muteRows, Table.get_filter, get_foldl_put_of_ne _ _ _ fun _ ↦ by simp,
    get_foldl_put (fun _ _ ↦ MuteTarget.user.inj) _ _ _ h, MuteMap.change,
    OrderedMap.get_foldl_erase]
  by_cases hmem : id ∈ req.removeUsers <;> simp [hmem]

/-- The user's own rows about groups follow the map. -/
theorem get_muteRows_group {m : MuteMap} (h : ∀ id, rows.get (uid, .group id) = m.get id) (now : ℤ)
    (req : MuteRequest) (id : ℤ) : (muteRows rows now uid req).get (uid, .group id) =
      (m.change (req.addGroups.map fun item ↦ (item.gid, expiredAfter now item.expiredIn))
        req.removeGroups).get id := by
  refine Option.ext fun v ↦ ?_
  rw [muteRows, Table.get_filter, get_foldl_put (fun _ _ ↦ MuteTarget.group.inj) _ _ _ fun id ↦
    (get_foldl_put_of_ne _ _ _ fun _ ↦ by simp).trans (h id), MuteMap.change,
    OrderedMap.get_foldl_erase]
  by_cases hmem : id ∈ req.removeGroups <;> simp [hmem]

end Rows

/-- A purge of the rows is the purge of the cache. -/
theorem get_cleanMute_rows {k : ℤ × MuteTarget} {m : MuteMap} {id : ℤ}
    (h : s.rows.get k = m.get id) : s.cleanMute.rows.get k = (m.clean s.now).get id := by
  refine Option.ext fun v ↦ ?_
  rw [cleanMute, Table.get_filter, MuteMap.get_clean, h, Option.bind_eq_some_iff]
  constructor
  · rintro ⟨hget, hlive⟩
    refine ⟨v, hget, ?_⟩
    rw [if_neg (by simpa using hlive)]
  · rintro ⟨w, hget, hlive⟩
    split at hlive
    · cases hlive
    · rename_i hnot
      obtain rfl := Option.some.inj hlive
      exact ⟨hget, by simpa using hnot⟩

theorem Mirrored.step (h : s.Mirrored) (a : MuteAction) : (s.step a).Mirrored := by
  cases a with
  | mute uid req =>
    rcases s.step_mute uid req with ⟨user, -, huser, hstep⟩ | ⟨-, hstep⟩
    · rw [hstep]
      intro uid' user' hget
      simp only [OrderedMap.get_insert] at hget
      split at hget
      · rename_i heq
        subst heq
        obtain rfl := Option.some.inj hget
        exact ⟨get_muteRows_user (h uid' user huser).1 s.now req,
          get_muteRows_group (h uid' user huser).2 s.now req⟩
      · rename_i hne
        exact ⟨fun id ↦ (get_muteRows_of_ne hne s.now req _).trans ((h uid' user' hget).1 id),
          fun id ↦ (get_muteRows_of_ne hne s.now req _).trans ((h uid' user' hget).2 id)⟩
    · rwa [hstep]
  | cleanMute =>
    intro uid user' huser'
    rw [MuteState.step, get_cleanMute, Option.map_eq_some_iff] at huser'
    obtain ⟨user, huser, rfl⟩ := huser'
    exact ⟨fun id ↦ get_cleanMute_rows ((h uid user huser).1 id),
      fun id ↦ get_cleanMute_rows ((h uid user huser).2 id)⟩
  | elapse nanoseconds => exact h

/-- **Table and cache stay the same**, whatever is muted, purged or waited for. -/
theorem Mirrored.run (h : s.Mirrored) (as : List MuteAction) :
    (as.foldl MuteState.step s).Mirrored :=
  foldl_induction (fun _ a hs ↦ hs.step a) h as

end MuteState

end VoceChat
