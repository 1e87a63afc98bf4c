import Mathlib.Data.Finset.Card
import VoceChat.Accounts.Users
import VoceChat.Foundations.StableSort

/-!
# Groups (`src/api/group.rs`, `delete_user` and `process_msg_updated`)

Groups are kept twice: in the tables `group`, `group_user` and `pinned_message`, and in the cache.
Every request holds the cache for writing, writes the tables, and then, if that went well, the
cache. A restart reads the tables only (`load_groups_cache`).

The pinned messages in the cache come with their content, which a restart takes from the message
database. An edit is heard of through a channel, and gets into the cache when `process_msg_updated`
takes it from there; the channel is the list `updated`, from which anything may be taken next.

Of the users it only matters who there is, and who is a guest. Groups have the creation and update
times that nothing here compares left out.
-/

namespace VoceChat

open Guards StableSort

namespace Groups

/-! ### The cache -/

inductive GroupType where
  | isPublic
  | isPrivate (owner : ℤ)
  deriving DecidableEq

@[ext] structure PinnedMessage where
  mid : ℤ
  createdBy : ℤ
  createdAt : ℤ
  content : ChatMessageContent

structure CacheGroup where
  ty : GroupType
  name : String
  description : String
  members : Finset ℤ
  avatarUpdatedAt : ℤ
  pinnedMessages : List PinnedMessage
  e2eEnabled : Bool

/-- `contains_user`. -/
def CacheGroup.containsUser (group : CacheGroup) (uid : ℤ) : Bool :=
  group.ty = .isPublic || uid ∈ group.members

/-- What `delete_user` makes of a group: one that is private and the user's own is taken out of the
cache, and the user out of the other private ones. -/
def CacheGroup.deleteUser (uid : ℤ) (group : CacheGroup) : Option CacheGroup :=
  match group.ty with
  | .isPublic => some group
  | .isPrivate owner =>
    if owner = uid then none else some { group with members := group.members.erase uid }

/-- `sort_by(|a, b| a.created_at.cmp(&b.created_at))`. -/
abbrev sortPins (pins : List PinnedMessage) : List PinnedMessage :=
  sortBy PinnedMessage.createdAt pins

/-- The content of a pinned message is set: of the first with this id. -/
def replacePin (mid : ℤ) (content : ChatMessageContent) (pins : List PinnedMessage) :
    List PinnedMessage :=
  pins.replaceF fun msg ↦ if msg.mid = mid then some { msg with content := content } else none

def CacheGroup.replacePin (mid : ℤ) (content : ChatMessageContent) (group : CacheGroup) :
    CacheGroup :=
  { group with pinnedMessages := Groups.replacePin mid content group.pinnedMessages }

/-! ### The tables -/

structure GroupRow where
  name : String
  description : String
  owner : Option ℤ
  isPublic : Bool
  avatarUpdatedAt : ℤ
  e2eEnabled : Bool
  deriving DecidableEq

/-- The type of a group. A private group has an owner (`owner.unwrap()`). -/
def GroupRow.ty (row : GroupRow) : Option GroupType :=
  if row.isPublic then some .isPublic else row.owner.map .isPrivate

structure PinRow where
  gid : ℤ
  mid : ℤ
  createdBy : ℤ
  createdAt : ℤ
  deriving DecidableEq

/-- The tables. Rows of `group_user` are unique; `pinned_message` is in the order of its ids. -/
structure Tables where
  group : ℤ → Option GroupRow
  groupUser : ℤ → Finset ℤ
  pinnedMessage : List PinRow
  nextGid : ℤ

inductive GroupError where
  | badRequest
  | unauthorized
  | forbidden
  | notFound
  | conflict
  /-- A constraint of the database. -/
  | internal
  deriving DecidableEq, Repr

namespace Tables

/-- `insert into group_user`: of a user that is there, and not in the group yet. -/
def insertGroupUser (users : OrderedMap ℤ Bool) (gid : ℤ) (t : Tables) (uid : ℤ) :
    Except GroupError Tables := do
  ensure ((users.get uid).isSome = true) .internal
  ensure (uid ∉ t.groupUser gid) .internal
  return { t with groupUser := Function.update t.groupUser gid (insert uid (t.groupUser gid)) }

/-- One after the other, in a transaction. -/
def insertGroupUsers (users : OrderedMap ℤ Bool) (gid : ℤ) (t : Tables) (uids : List ℤ) :
    Except GroupError Tables :=
  uids.foldlM (insertGroupUser users gid) t

/-- ``update `group` ``. -/
def updateGroup (t : Tables) (gid : ℤ) (f : GroupRow → GroupRow) : Tables :=
  { t with group := Function.update t.group gid ((t.group gid).map f) }

/-- ``delete from `group` ``, which cascades. -/
def deleteGroup (t : Tables) (gid : ℤ) : Tables where
  group := Function.update t.group gid none
  groupUser := Function.update t.groupUser gid ∅
  pinnedMessage := t.pinnedMessage.filter fun row ↦ row.gid ≠ gid
  nextGid := t.nextGid

/-- `delete from user`, which cascades to the memberships of the user and to what it has pinned. The
owner of a group is no foreign key. -/
def deleteUser (t : Tables) (uid : ℤ) : Tables where
  group := t.group
  groupUser gid := (t.groupUser gid).erase uid
  pinnedMessage := t.pinnedMessage.filter fun row ↦ row.createdBy ≠ uid
  nextGid := t.nextGid

/-- `delete from group_user`. -/
def deleteGroupUser (gid : ℤ) (t : Tables) (uid : ℤ) : Tables :=
  { t with groupUser := Function.update t.groupUser gid ((t.groupUser gid).erase uid) }

/-- `delete from pinned_message`. -/
def deletePin (t : Tables) (gid mid : ℤ) : Tables :=
  { t with pinnedMessage := t.pinnedMessage.filter fun row ↦ ¬(row.gid = gid ∧ row.mid = mid) }

/-- The pins of a group, in the order in which they are loaded. -/
def pins (t : Tables) (gid : ℤ) : List PinRow := t.pinnedMessage.filter fun row ↦ row.gid = gid

end Tables

/-- The users with their guest flag, the groups in the tables and in the cache, the contents of the
messages, and the messages that were updated. -/
structure State where
  users : OrderedMap ℤ Bool
  nextUid : ℤ
  tables : Tables
  groups : OrderedMap ℤ CacheGroup
  merged : ℤ → Option ChatMessageContent
  updated : List ℤ

def State.start : State :=
  ⟨OrderedMap.empty, 1, ⟨fun _ ↦ none, fun _ ↦ ∅, [], 1⟩, OrderedMap.empty, fun _ ↦ none, []⟩

/-! ### A restart -/

namespace State

/-- The pinned messages of a group, as loaded: those that there is a content for. -/
def loadPins (s : State) (gid : ℤ) : List PinnedMessage :=
  sortPins ((s.tables.pins gid).filterMap fun row ↦
    (s.merged row.mid).map (PinnedMessage.mk row.mid row.createdBy row.createdAt))

/-- A group as loaded. -/
def loadGroup (s : State) (gid : ℤ) (row : GroupRow) : Option CacheGroup := do
  let ty ← row.ty
  return {
    ty := ty
    name := row.name
    description := row.description
    members := s.tables.groupUser gid
    avatarUpdatedAt := row.avatarUpdatedAt
    pinnedMessages := s.loadPins gid
    e2eEnabled := row.e2eEnabled }

/-- `load_groups_cache`. -/
def loadGroupsCache (s : State) (gid : ℤ) : Option CacheGroup :=
  (s.tables.group gid).bind (s.loadGroup gid)

end State

/-! ### The requests -/

/-- The requester may change the group. -/
def GroupType.managedBy (token : CurrentUser) : GroupType → Bool
  | isPublic => token.isAdmin
  | isPrivate owner => owner = token.uid || token.isAdmin

/-- A private group with a new owner, if one is given. -/
def GroupType.withOwner (newOwner : Option ℤ) : GroupType → GroupType
  | isPublic => isPublic
  | isPrivate owner => isPrivate (newOwner.getD owner)

structure CreateGroupRequest where
  name : String
  description : Option String
  members : List ℤ
  isPublic : Bool
  e2eEnabled : Bool
  deriving DecidableEq

structure UpdateGroupRequest where
  name : Option String
  description : Option String
  owner : Option ℤ
  e2eEnabled : Option Bool
  deriving DecidableEq

def UpdateGroupRequest.isEmpty (req : UpdateGroupRequest) : Bool :=
  req.name.isNone && req.owner.isNone && req.description.isNone && req.e2eEnabled.isNone

structure ChangeGroupTypeRequest where
  isPublic : Bool
  members : List ℤ
  deriving DecidableEq

namespace State

/-- A user is created. -/
def createUser (s : State) (isGuest : Bool) : State :=
  { s with users := s.users.insert s.nextUid isGuest, nextUid := s.nextUid + 1 }

/-- `create`. -/
def create (s : State) (token : CurrentUser) (req : CreateGroupRequest) :
    Except GroupError State := do
  ensure (token.isGuest = false) .forbidden
  ensure (¬(req.isPublic = true ∧ token.isAdmin = false)) .forbidden
  ensure (¬(req.isPublic = true ∧ req.members ≠ [])) .badRequest
  let members := if req.isPublic then [] else (req.members ++ [token.uid]).dedup
  ensure (members.all (fun uid ↦ (s.users.get uid).isSome) = true) .badRequest
  let gid := s.tables.nextGid
  let row : GroupRow :=
    { name := req.name
      description := req.description.getD ""
      owner := if req.isPublic then none else some token.uid
      isPublic := req.isPublic
      avatarUpdatedAt := dateTimeZero
      e2eEnabled := req.e2eEnabled }
  let tables ← Tables.insertGroupUsers s.users gid
    { s.tables with group := Function.update s.tables.group gid (some row), nextGid := gid + 1 }
    members
  return { s with
    tables := tables
    groups := s.groups.insert gid
      { ty := if req.isPublic then .isPublic else .isPrivate token.uid
        name := req.name
        description := req.description.getD ""
        members := members.toFinset
        avatarUpdatedAt := dateTimeZero
        pinnedMessages := []
        e2eEnabled := req.e2eEnabled } }

/-- `upload_avatar`. -/
def uploadAvatar (s : State) (token : CurrentUser) (gid now : ℤ) : Except GroupError State := do
  let group ← okOr (s.groups.get gid) .unauthorized
  ensure (group.ty.managedBy token = true) .forbidden
  return { s with
    tables := s.tables.updateGroup gid fun row ↦ { row with avatarUpdatedAt := now }
    groups := s.groups.insert gid { group with avatarUpdatedAt := now } }

/-- `delete`. -/
def delete (s : State) (token : CurrentUser) (gid : ℤ) : Except GroupError State := do
  let group ← okOr (s.groups.get gid) .notFound
  ensure (group.ty.managedBy token = true) .forbidden
  return { s with tables := s.tables.deleteGroup gid, groups := s.groups.erase gid }

/-- `update`. -/
def update (s : State) (token : CurrentUser) (gid : ℤ) (req : UpdateGroupRequest) :
    Except GroupError State := do
  ensure (req.isEmpty = false) .badRequest
  let group ← okOr (s.groups.get gid) .notFound
  ensure (group.ty.managedBy token = true) .forbidden
  ensure (¬(req.owner.isSome = true ∧ group.ty = .isPublic)) .forbidden
  ensure (req.owner.all group.containsUser = true) .badRequest
  return { s with
    tables := s.tables.updateGroup gid fun row ↦ { row with
      name := req.name.getD row.name
      owner := req.owner.or row.owner
      description := req.description.getD row.description
      e2eEnabled := req.e2eEnabled.getD row.e2eEnabled }
    groups := s.groups.insert gid { group with
      name := req.name.getD group.name
      description := req.description.getD group.description
      ty := group.ty.withOwner req.owner
      e2eEnabled := req.e2eEnabled.getD group.e2eEnabled } }

/-- The users that are no guests. -/
def regularUsers (s : State) : List ℤ := (s.users.entries.filter fun e ↦ !e.2).map Prod.fst

/-- `change_type`. -/
def changeType (s : State) (token : CurrentUser) (gid : ℤ) (req : ChangeGroupTypeRequest) :
    Except GroupError State := do
  let group ← okOr (s.groups.get gid) .notFound
  ensure (group.ty.managedBy token = true) .forbidden
  match group.ty, req.isPublic with
  | .isPublic, false =>
    let members := if req.members ≠ [] then req.members else s.regularUsers
    let tables ← Tables.insertGroupUsers s.users gid
      (s.tables.updateGroup gid fun row ↦ { row with isPublic := false, owner := some token.uid })
      members
    return { s with
      tables := tables
      groups := s.groups.insert gid
        { group with ty := .isPrivate token.uid, members := members.toFinset } }
  | .isPrivate _, true =>
    let tables := s.tables.updateGroup gid fun row ↦ { row with isPublic := true, owner := none }
    return { s with
      tables := { tables with groupUser := Function.update tables.groupUser gid ∅ }
      groups := s.groups.insert gid { group with ty := .isPublic, members := ∅ } }
  | _, _ => return s

/-- `leave`. -/
def leave (s : State) (token : CurrentUser) (gid : ℤ) : Except GroupError State := do
  let group ← okOr (s.groups.get gid) .notFound
  ensure (group.ty ≠ .isPublic) .forbidden
  ensure (group.containsUser token.uid = true) .forbidden
  ensure (group.ty ≠ .isPrivate token.uid) .forbidden
  return { s with
    tables := s.tables.deleteGroupUser gid token.uid
    groups := s.groups.insert gid { group with members := group.members.erase token.uid } }

/-- `add_members`. -/
def addMembers (s : State) (token : CurrentUser) (gid : ℤ) (members : List ℤ) :
    Except GroupError State := do
  ensure (members.all (fun uid ↦ (s.users.get uid).isSome) = true) .badRequest
  let group ← okOr (s.groups.get gid) .notFound
  ensure (group.ty ≠ .isPublic) .forbidden
  ensure (token.uid ∈ group.members ∨ token.isAdmin = true) .forbidden
  ensure (members.all (fun uid ↦ !group.containsUser uid) = true) .badRequest
  let tables ← Tables.insertGroupUsers s.users gid s.tables members
  return { s with
    tables := tables
    groups := s.groups.insert gid { group with members := group.members ∪ members.toFinset } }

/-- `remove_members`. -/
def removeMembers (s : State) (token : CurrentUser) (gid : ℤ) (members : List ℤ) :
    Except GroupError State := do
  let group ← okOr (s.groups.get gid) .notFound
  ensure (group.ty ≠ .isPublic) .forbidden
  ensure (group.ty.managedBy token = true) .forbidden
  for uid in members do
    ensure (group.ty ≠ .isPrivate uid) .forbidden
    ensure (group.containsUser uid = true) .notFound
  return { s with
    tables := members.foldl (Tables.deleteGroupUser gid) s.tables
    groups := s.groups.insert gid
      { group with members := members.foldl Finset.erase group.members } }

/-- The end of `register`: a user that was invited to a group joins it. -/
def join (s : State) (uid gid : ℤ) : Except GroupError State := do
  match s.groups.get gid with
  | some group =>
    if group.ty = .isPublic then return s
    let tables ← Tables.insertGroupUsers s.users gid s.tables [uid]
    return { s with
      tables := tables
      groups := s.groups.insert gid { group with members := insert uid group.members } }
  | none => return s

/-- `pin_message`. Who pinned it is a foreign key. -/
def pinMessage (s : State) (token : CurrentUser) (gid mid now : ℤ) : Except GroupError State := do
  let group ← okOr (s.groups.get gid) .notFound
  ensure (group.ty.managedBy token = true) .forbidden
  ensure (group.pinnedMessages.all (fun msg ↦ msg.mid ≠ mid) = true) .conflict
  let content ← okOr (s.merged mid) .notFound
  ensure ((s.users.get token.uid).isSome = true) .internal
  return { s with
    tables := { s.tables with
      pinnedMessage := s.tables.pinnedMessage ++ [⟨gid, mid, token.uid, now⟩] }
    groups := s.groups.insert gid { group with
      pinnedMessages := sortPins (group.pinnedMessages ++ [⟨mid, token.uid, now, content⟩]) } }

/-- `unpin_message`. -/
def unpinMessage (s : State) (token : CurrentUser) (gid mid : ℤ) : Except GroupError State := do
  let group ← okOr (s.groups.get gid) .notFound
  ensure (group.ty.managedBy token = true) .forbidden
  ensure (group.pinnedMessages.any (fun msg ↦ msg.mid = mid) = true) .notFound
  return { s with
    tables := s.tables.deletePin gid mid
    groups := s.groups.insert gid { group with
      pinnedMessages := group.pinnedMessages.eraseP fun msg ↦ msg.mid = mid } }

/-- `delete_user`, as far as the groups are concerned. -/
def deleteUser (s : State) (uid : ℤ) : Except GroupError State := do
  ensure ((s.users.get uid).isSome = true) .notFound
  return { s with
    users := s.users.erase uid
    tables := s.tables.deleteUser uid
    groups := s.groups.filterMapValues fun _ ↦ CacheGroup.deleteUser uid }

/-! ### What accepted requests passed and did -/

variable {s s' : State} {token : CurrentUser} {gid : ℤ}

theorem create_eq_ok_iff {req : CreateGroupRequest} : s.create token req = .ok s' ↔
    let members := if req.isPublic then [] else (req.members ++ [token.uid]).dedup
    token.isGuest = false ∧ ¬(req.isPublic = true ∧ token.isAdmin = false) ∧
      ¬(req.isPublic = true ∧ req.members ≠ []) ∧
      members.all (fun uid ↦ (s.users.get uid).isSome) = true ∧
      ∃ tables, Tables.insertGroupUsers s.users s.tables.nextGid
          { s.tables with
            group := Function.update s.tables.group s.tables.nextGid (some
              { name := req.name
                description := req.description.getD ""
                owner := if req.isPublic then none else some token.uid
                isPublic := req.isPublic
                avatarUpdatedAt := dateTimeZero
                e2eEnabled := req.e2eEnabled })
            nextGid := s.tables.nextGid + 1 } members = .ok tables ∧
        { s with
          tables := tables
          groups := s.groups.insert s.tables.nextGid
            { ty := if req.isPublic then .isPublic else .isPrivate token.uid
              name := req.name
              description := req.description.getD ""
              members := members.toFinset
              avatarUpdatedAt := dateTimeZero
              pinnedMessages := []
              e2eEnabled := req.e2eEnabled } } = s' := by
  simp only [create, bind_eq_ok, ensure_eq_ok, exists_unit, pure_eq_ok]

theorem uploadAvatar_eq_ok_iff {now : ℤ} : s.uploadAvatar token gid now = .ok s' ↔
    ∃ group, s.groups.get gid = some group ∧ group.ty.managedBy token = true ∧
      { s with
        tables := s.tables.updateGroup gid fun row ↦ { row with avatarUpdatedAt := now }
        groups := s.groups.insert gid { group with avatarUpdatedAt := now } } = s' := by
  simp only [uploadAvatar, bind_eq_ok, okOr_eq_ok, ensure_eq_ok, exists_unit, pure_eq_ok]

theorem delete_eq_ok_iff : s.delete token gid = .ok s' ↔
    ∃ group, s.groups.get gid = some group ∧ group.ty.managedBy token = true ∧
      { s with tables := s.tables.deleteGroup gid, groups := s.groups.erase gid } = s' := by
  simp only [delete, bind_eq_ok, okOr_eq_ok, ensure_eq_ok, exists_unit, pure_eq_ok]

theorem update_eq_ok_iff {req : UpdateGroupRequest} : s.update token gid req = .ok s' ↔
    req.isEmpty = false ∧ ∃ group, s.groups.get gid = some group ∧
      group.ty.managedBy token = true ∧ ¬(req.owner.isSome = true ∧ group.ty = .isPublic) ∧
      req.owner.all group.containsUser = true ∧
      { s with
        tables := s.tables.updateGroup gid fun row ↦ { row with
          name := req.name.getD row.name
          owner := req.owner.or row.owner
          description := req.description.getD row.description
          e2eEnabled := req.e2eEnabled.getD row.e2eEnabled }
        groups := s.groups.insert gid { group with
          name := req.name.getD group.name
          description := req.description.getD group.description
          ty := group.ty.withOwner req.owner
          e2eEnabled := req.e2eEnabled.getD group.e2eEnabled } } = s' := by
  simp only [update, bind_eq_ok, okOr_eq_ok, ensure_eq_ok, exists_unit, pure_eq_ok]

/-- To private, to public, or nothing to change. -/
theorem changeType_eq_ok {req : ChangeGroupTypeRequest} (h : s.changeType token gid req = .ok s') :
    ∃ group, s.groups.get gid = some group ∧ group.ty.managedBy token = true ∧
      ((group.ty = .isPublic ∧ req.isPublic = false ∧
          let members := if req.members ≠ [] then req.members else s.regularUsers
          ∃ tables, Tables.insertGroupUsers s.users gid (s.tables.updateGroup gid
              fun row ↦ { row with isPublic := false, owner := some token.uid }) members =
              .ok tables ∧
            { s with
              tables := tables
              groups := s.groups.insert gid
                { group with ty := .isPrivate token.uid, members := members.toFinset } } = s') ∨
        (∃ owner, group.ty = .isPrivate owner ∧ req.isPublic = true ∧
          let tables := s.tables.updateGroup gid
            fun row ↦ { row with isPublic := true, owner := none }
          { s with
            tables := { tables with groupUser := Function.update tables.groupUser gid ∅ }
            groups := s.groups.insert gid { group with ty := .isPublic, members := ∅ } } = s') ∨
        (group.ty = .isPublic ↔ req.isPublic = true) ∧ s = s') := by
  simp only [changeType, bind_eq_ok, okOr_eq_ok, ensure_eq_ok, exists_unit] at h
  obtain ⟨group, hgroup, hmanaged, h⟩ := h
  refine ⟨group, hgroup, hmanaged, ?_⟩
  cases hty : group.ty with
  | isPublic =>
    cases hreq : req.isPublic with
    | false =>
      simp only [hty, hreq, bind_eq_ok, pure_eq_ok] at h
      exact .inl ⟨rfl, rfl, h⟩
    | true =>
      simp only [hty, hreq, pure_eq_ok] at h
      exact .inr (.inr ⟨iff_of_true rfl rfl, h⟩)
  | isPrivate owner =>
    cases hreq : req.isPublic with
    | false =>
      simp only [hty, hreq, pure_eq_ok] at h
      exact .inr (.inr ⟨iff_of_false (fun hpublic ↦ by cases hpublic) Bool.false_ne_true, h⟩)
    | true =>
      simp only [hty, hreq, pure_eq_ok] at h
      exact .inr (.inl ⟨owner, rfl, rfl, h⟩)

/-- A public group, or one that is gone, is not joined. -/
theorem join_eq_ok {uid : ℤ} (h : s.join uid gid = .ok s') :
    s = s' ∨ ∃ group, s.groups.get gid = some group ∧ group.ty ≠ .isPublic ∧
      ∃ tables, Tables.insertGroupUsers s.users gid s.tables [uid] = .ok tables ∧
        { s with
          tables := tables
          groups := s.groups.insert gid { group with members := insert uid group.members } } =
          s' := by
  unfold join at h
  split at h
  · rename_i group hgroup
    split at h
    · exact .inl (pure_eq_ok.1 h)
    · rename_i hty
      simp only [bind_eq_ok, pure_eq_ok] at h
      exact .inr ⟨group, hgroup, hty, h⟩
  · exact .inl (pure_eq_ok.1 h)

theorem leave_eq_ok_iff : s.leave token gid = .ok s' ↔
    ∃ group, s.groups.get gid = some group ∧ group.ty ≠ .isPublic ∧
      group.containsUser token.uid = true ∧ group.ty ≠ .isPrivate token.uid ∧
      { s with
        tables := s.tables.deleteGroupUser gid token.uid
        groups := s.groups.insert gid { group with members := group.members.erase token.uid } } =
        s' := by
  simp only [leave, bind_eq_ok, okOr_eq_ok, ensure_eq_ok, exists_unit, pure_eq_ok]

theorem addMembers_eq_ok_iff {members : List ℤ} : s.addMembers token gid members = .ok s' ↔
    members.all (fun uid ↦ (s.users.get uid).isSome) = true ∧
      ∃ group, s.groups.get gid = some group ∧ group.ty ≠ .isPublic ∧
        (token.uid ∈ group.members ∨ token.isAdmin = true) ∧
        members.all (fun uid ↦ !group.containsUser uid) = true ∧
        ∃ tables, Tables.insertGroupUsers s.users gid s.tables members = .ok tables ∧
          { s with
            tables := tables
            groups := s.groups.insert gid
              { group with members := group.members ∪ members.toFinset } } = s' := by
  simp only [addMembers, bind_eq_ok, okOr_eq_ok, ensure_eq_ok, exists_unit, pure_eq_ok]

theorem removeMembers_eq_ok {members : List ℤ} (h : s.removeMembers token gid members = .ok s') :
    ∃ group, s.groups.get gid = some group ∧ group.ty ≠ .isPublic ∧
      group.ty.managedBy token = true ∧
      (∀ uid ∈ members, group.ty ≠ .isPrivate uid ∧ group.containsUser uid = true) ∧
      { s with
        tables := members.foldl (Tables.deleteGroupUser gid) s.tables
        groups := s.groups.insert gid
          { group with members := members.foldl Finset.erase group.members } } = s' := by
  simp only [removeMembers, bind_eq_ok, okOr_eq_ok, ensure_eq_ok, exists_unit, pure_eq_ok] at h
  obtain ⟨group, hgroup, hty, hmanaged, hchecks, hs'⟩ := h
  refine ⟨group, hgroup, hty, hmanaged, fun uid huid ↦ ?_, hs'⟩
  have hround := of_forIn_eq_ok hchecks (fun uid step hstep ↦ by
    simp only [bind_eq_ok, ensure_eq_ok, exists_unit, pure_eq_ok] at hstep
    exact hstep.2.2.symm) uid huid
  simp only [bind_eq_ok, ensure_eq_ok, exists_unit] at hround
  exact ⟨hround.1, hround.2.1⟩

theorem pinMessage_eq_ok_iff {mid now : ℤ} : s.pinMessage token gid mid now = .ok s' ↔
    ∃ group, s.groups.get gid = some group ∧ group.ty.managedBy token = true ∧
      group.pinnedMessages.all (fun msg ↦ msg.mid ≠ mid) = true ∧
      ∃ content, s.merged mid = some content ∧ (s.users.get token.uid).isSome = true ∧
        { s with
          tables := { s.tables with
            pinnedMessage := s.tables.pinnedMessage ++ [⟨gid, mid, token.uid, now⟩] }
          groups := s.groups.insert gid { group with
            pinnedMessages :=
              sortPins (group.pinnedMessages ++ [⟨mid, token.uid, now, content⟩]) } } = s' := by
  simp only [pinMessage, bind_eq_ok, okOr_eq_ok, ensure_eq_ok, exists_unit, pure_eq_ok]

theorem unpinMessage_eq_ok_iff {mid : ℤ} : s.unpinMessage token gid mid = .ok s' ↔
    ∃ group, s.groups.get gid = some group ∧ group.ty.managedBy token = true ∧
      group.pinnedMessages.any (fun msg ↦ msg.mid = mid) = true ∧
      { s with
        tables := s.tables.deletePin gid mid
        groups := s.groups.insert gid { group with
          pinnedMessages := group.pinnedMessages.eraseP fun msg ↦ msg.mid = mid } } = s' := by
  simp only [unpinMessage, bind_eq_ok, okOr_eq_ok, ensure_eq_ok, exists_unit, pure_eq_ok]

theorem deleteUser_eq_ok_iff {uid : ℤ} : s.deleteUser uid = .ok s' ↔
    (s.users.get uid).isSome = true ∧
      { s with
        users := s.users.erase uid
        tables := s.tables.deleteUser uid
        groups := s.groups.filterMapValues fun _ ↦ CacheGroup.deleteUser uid } = s' := by
  simp only [deleteUser, bind_eq_ok, ensure_eq_ok, exists_unit, pure_eq_ok]

/-! ### Messages -/

/-- A message is sent. -/
def sendMessage (s : State) (mid : ℤ) (content : ChatMessageContent) : State :=
  { s with merged := Function.update s.merged mid (some content), updated := s.updated ++ [mid] }

/-- A message is edited, if it is there. -/
def editMessage (s : State) (mid : ℤ) (content : ChatMessageContent) : State :=
  { s with
    merged := Function.update s.merged mid ((s.merged mid).map fun _ ↦ content)
    updated := s.updated ++ [mid] }

/-- The first group that a message is pinned in. -/
def findPin (s : State) (mid : ℤ) : Option (ℤ × CacheGroup) :=
  s.groups.entries.find? fun e ↦ e.2.pinnedMessages.any fun msg ↦ msg.mid = mid

/-- `process_msg_updated`, for one message. It is done after the first group. -/
def processMsgUpdated (s : State) (mid : ℤ) : State :=
  if mid ∈ s.updated then
    let s := { s with updated := s.updated.erase mid }
    match s.findPin mid, s.merged mid with
    | some (gid, group), some content =>
      { s with groups := s.groups.insert gid (group.replacePin mid content) }
    | some (gid, group), none =>
      { s with
        tables := s.tables.deletePin gid mid
        groups := s.groups.insert gid { group with
          pinnedMessages := group.pinnedMessages.eraseP fun msg ↦ msg.mid = mid } }
    | none, _ => s
  else s

end State

end Groups

end VoceChat
