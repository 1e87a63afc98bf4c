import VoceChat.Groups.Restart

/-!
# What is told of a changed group (`update` and `change_type` in `src/api/group.rs`)

Both requests broadcast what they did: a `GroupChanged` with the fields that they set, to whoever
may see the group. `events_loop` passes it on to the targets. Each builds its event by hand:

* `update` sets what the request gives, which is what it writes. It tells the members, or everyone
  of a public group;
* `change_type` to private has a slip: the owner that it tells is the id of the group,
  `Some(gid.0)`;
* `change_type` to public sets no owner. The group has none any more, and a field that is not set is
  also what the event has for a field that did not change.

`events_announced_iff` is the exact condition. The last point depends on how one reads the event:
with `strict`, an owner that is gone is a change to tell of.
-/

namespace VoceChat

open Guards

namespace Groups

/-- `GroupType::owner`. -/
def GroupType.owner : GroupType → Option ℤ
  | isPublic => none
  | isPrivate owner => some owner

/-- `GroupChangedMessage`. -/
structure GroupChangedMessage where
  gid : ℤ
  name : Option String := none
  description : Option String := none
  owner : Option ℤ := none
  avatarUpdatedAt : Option ℤ := none
  isPublic : Option Bool := none
  e2eEnabled : Option Bool := none
  deriving DecidableEq

/-- What the requests here broadcast. -/
inductive GroupEvent where
  | groupChanged (targets : Finset ℤ) (msg : GroupChangedMessage)
  | userJoinedGroup (targets : Finset ℤ) (gid : ℤ) (uid : Finset ℤ)
  | joinedGroup (targets : Finset ℤ) (gid : ℤ) (group : CacheGroup)

inductive GroupRequest where
  | update (token : CurrentUser) (gid : ℤ) (req : UpdateGroupRequest)
  | changeType (token : CurrentUser) (gid : ℤ) (req : ChangeGroupTypeRequest)
  deriving DecidableEq

def GroupRequest.gid : GroupRequest → ℤ
  | update _ gid _ | changeType _ gid _ => gid

namespace State

/-- The keys of the users. -/
def userIds (s : State) : Finset ℤ := (s.users.entries.map Prod.fst).toFinset

/-- `update`, with its event. -/
def updateEvents (s : State) (token : CurrentUser) (gid : ℤ) (req : UpdateGroupRequest) :
    Except GroupError (State × List GroupEvent) := do
  let s' ← s.update token gid req
  let group ← okOr (s'.groups.get gid) .notFound
  return (s', [.groupChanged
    (if group.ty ≠ .isPublic then group.members else s'.userIds)
    { gid := gid
      name := req.name
      description := req.description
      owner := if group.ty ≠ .isPublic then req.owner else none
      e2eEnabled := req.e2eEnabled }])

/-- `change_type`, with its events. -/
def changeTypeEvents (s : State) (token : CurrentUser) (gid : ℤ) (req : ChangeGroupTypeRequest) :
    Except GroupError (State × List GroupEvent) := do
  let group ← okOr (s.groups.get gid) .notFound
  let s' ← s.changeType token gid req
  match group.ty, req.isPublic with
  | .isPublic, false =>
    return (s', [.groupChanged s.userIds { gid := gid, owner := some gid, isPublic := some false }])
  | .isPrivate _, true =>
    let newMembers := s.regularUsers.toFinset \ group.members
    return (s',
      [.groupChanged s.userIds { gid := gid, isPublic := some true },
        .userJoinedGroup group.members gid newMembers,
        .joinedGroup newMembers gid { group with ty := .isPublic, members := ∅ }])
  | _, _ => return (s', [])

/-- A request, with what it broadcasts. -/
def announce (s : State) : GroupRequest → Except GroupError (State × List GroupEvent)
  | .update token gid req => s.updateEvents token gid req
  | .changeType token gid req => s.changeTypeEvents token gid req

end State

/-! ### What an event should tell -/

section Fields

variable {α : Type} (strict : Bool) {before after field : Option α}

/-- A field that is set has the value after the request; one that changed is set. Only with `strict`
this includes one that has no value after it. -/
structure FieldTells (before after field : Option α) : Prop where
  exact : ∀ v, field = some v → after = some v
  complete : before ≠ after → (strict = true ∨ after.isSome = true) → field.isSome = true

theorem fieldTells_refl (value : Option α) : FieldTells strict value value none where
  exact _ h := by cases h
  complete hne := absurd rfl hne

theorem fieldTells_some (before : Option α) (value : α) :
    FieldTells strict before (some value) (some value) where
  exact _ h := h
  complete _ _ := rfl

/-- What a request may give, with what it replaces. -/
theorem fieldTells_getD (old : α) (given : Option α) :
    FieldTells strict (some old) (some (given.getD old)) given := by
  cases given with
  | none => exact fieldTells_refl strict (some old)
  | some value => exact fieldTells_some strict (some old) value

/-- A value that is gone cannot be told. -/
theorem fieldTells_gone {old : α} : FieldTells strict (some old) none none ↔ strict = false := by
  constructor
  · intro h
    rw [← Bool.not_eq_true]
    intro hstrict
    cases h.complete (Option.some_ne_none old) (Or.inl hstrict)
  · rintro rfl
    refine ⟨?_, ?_⟩
    · intro v h
      cases h
    · rintro - (h | h)
      · cases h
      · cases h

end Fields

/-- All that the event could tell of a group. -/
def CacheGroup.told (gid : ℤ) (group : CacheGroup) : GroupChangedMessage where
  gid := gid
  name := some group.name
  description := some group.description
  owner := group.ty.owner
  avatarUpdatedAt := some group.avatarUpdatedAt
  isPublic := some (group.ty = .isPublic)
  e2eEnabled := some group.e2eEnabled

/-- An event tells of a change. -/
structure GroupChangedMessage.Tells (msg : GroupChangedMessage) (strict : Bool)
    (before after : GroupChangedMessage) : Prop where
  gid : msg.gid = after.gid
  name : FieldTells strict before.name after.name msg.name
  description : FieldTells strict before.description after.description msg.description
  owner : FieldTells strict before.owner after.owner msg.owner
  avatarUpdatedAt : FieldTells strict before.avatarUpdatedAt after.avatarUpdatedAt
    msg.avatarUpdatedAt
  isPublic : FieldTells strict before.isPublic after.isPublic msg.isPublic
  e2eEnabled : FieldTells strict before.e2eEnabled after.e2eEnabled msg.e2eEnabled

/-- A user who is there, and is in the group or needs not be (`get_related_groups`). -/
def CacheGroup.VisibleTo (group : CacheGroup) (s : State) (uid : ℤ) : Prop :=
  (s.users.get uid).isSome = true ∧ group.containsUser uid = true

/-- What is broadcast tells of what happened to a group, to everyone who sees it before or after,
and something is broadcast if something happened. -/
structure Announced (strict : Bool) (gid : ℤ) (s s' : State) (before after : CacheGroup)
    (events : List GroupEvent) : Prop where
  tells : ∀ targets msg, .groupChanged targets msg ∈ events →
    msg.Tells strict (before.told gid) (after.told gid)
  reaches : ∀ targets msg, .groupChanged targets msg ∈ events → ∀ uid,
    before.VisibleTo s uid ∨ after.VisibleTo s' uid → uid ∈ targets
  something : before.told gid ≠ after.told gid → ∃ targets msg, .groupChanged targets msg ∈ events

/-- The request, on a group, leads to no wrong owner; and, with `strict`, to none that is gone. -/
def CacheGroup.OwnerTold (strict : Bool) (group : CacheGroup) : GroupRequest → Prop
  | .update .. => True
  | .changeType token gid req =>
    (group.ty = .isPublic → req.isPublic = false → token.uid = gid) ∧
      (group.ty ≠ .isPublic → req.isPublic = true → strict = false)

variable {s s' : State} {token : CurrentUser} {gid : ℤ} {before after : CacheGroup} {strict : Bool}
  {events : List GroupEvent}

theorem State.mem_userIds {uid : ℤ} : uid ∈ s.userIds ↔ (s.users.get uid).isSome = true := by
  rw [State.userIds, List.mem_toFinset, List.mem_map, Option.isSome_iff_exists]
  constructor
  · rintro ⟨e, hmem, rfl⟩
    exact ⟨e.2, OrderedMap.get_eq_some.2 hmem⟩
  · rintro ⟨isGuest, hget⟩
    exact ⟨(uid, isGuest), OrderedMap.get_eq_some.1 hget, rfl⟩

/-- Everyone is told. -/
theorem mem_userIds_of_visibleTo (husers : s'.users = s.users) {uid : ℤ}
    (h : before.VisibleTo s uid ∨ after.VisibleTo s' uid) : uid ∈ s.userIds := by
  rw [State.mem_userIds]
  rcases h with h | h
  · exact h.1
  · exact husers ▸ h.1

theorem mem_singleton_iff {targets t : Finset ℤ} {msg m : GroupChangedMessage} :
    GroupEvent.groupChanged t m ∈ [.groupChanged targets msg] ↔ t = targets ∧ m = msg := by
  rw [List.mem_singleton, GroupEvent.groupChanged.injEq]

/-- With one event about the change, it depends on its message and its targets. -/
theorem announced_single {targets : Finset ℤ} {msg : GroupChangedMessage}
    (hevents : ∀ t m, .groupChanged t m ∈ events ↔ t = targets ∧ m = msg)
    (hreaches : ∀ uid, before.VisibleTo s uid ∨ after.VisibleTo s' uid → uid ∈ targets) :
    Announced strict gid s s' before after events ↔
      msg.Tells strict (before.told gid) (after.told gid) := by
  constructor
  · intro h
    exact h.tells targets msg ((hevents targets msg).2 ⟨rfl, rfl⟩)
  · intro h
    refine ⟨fun t m hmem ↦ ?_, fun t m hmem ↦ ?_,
      fun _ ↦ ⟨targets, msg, (hevents _ _).2 ⟨rfl, rfl⟩⟩⟩
    · obtain ⟨-, rfl⟩ := (hevents t m).1 hmem
      exact h
    · obtain ⟨rfl, -⟩ := (hevents t m).1 hmem
      exact hreaches

/-! ### `update` -/

/-- The group that `update` leaves. -/
def CacheGroup.updated (req : UpdateGroupRequest) (group : CacheGroup) : CacheGroup :=
  { group with
    name := req.name.getD group.name
    description := req.description.getD group.description
    ty := group.ty.withOwner req.owner
    e2eEnabled := req.e2eEnabled.getD group.e2eEnabled }

theorem GroupType.withOwner_eq_isPublic {ty : GroupType} {newOwner : Option ℤ} :
    ty.withOwner newOwner = .isPublic ↔ ty = .isPublic := by
  cases ty with
  | isPublic => exact Iff.rfl
  | isPrivate owner => exact iff_of_false (fun h ↦ by cases h) (fun h ↦ by cases h)

/-- The targets of `update`. -/
def CacheGroup.audience (group : CacheGroup) (s : State) : Finset ℤ :=
  if group.ty ≠ .isPublic then group.members else s.userIds

theorem CacheGroup.VisibleTo.mem_audience {uid : ℤ} (h : before.VisibleTo s uid) :
    uid ∈ before.audience s := by
  rw [CacheGroup.audience]
  split
  · rename_i hty
    have hin := h.2
    rw [CacheGroup.containsUser, decide_eq_false hty, Bool.false_or] at hin
    exact of_decide_eq_true hin
  · exact State.mem_userIds.2 h.1

theorem updateEvents_eq_ok {req : UpdateGroupRequest}
    (h : s.updateEvents token gid req = .ok (s', events)) :
    ∃ group, s.groups.get gid = some group ∧ s'.users = s.users ∧
      s'.groups.get gid = some (group.updated req) ∧
      events = [.groupChanged ((group.updated req).audience s')
        { gid := gid
          name := req.name
          description := req.description
          owner := if (group.updated req).ty ≠ .isPublic then req.owner else none
          e2eEnabled := req.e2eEnabled }] := by
  simp only [State.updateEvents, bind_eq_ok, okOr_eq_ok, pure_eq_ok] at h
  obtain ⟨t, ht, new, hnew, heq⟩ := h
  obtain ⟨-, group, hgroup, -, -, -, rfl⟩ := State.update_eq_ok_iff.1 ht
  rw [OrderedMap.get_insert_self] at hnew
  obtain rfl := Option.some.inj hnew
  obtain ⟨rfl, rfl⟩ := Prod.ext_iff.1 heq
  exact ⟨group, hgroup, rfl, OrderedMap.get_insert_self _ _ _, rfl⟩

/-- **An update is announced**, whatever it sets. -/
theorem announced_update {req : UpdateGroupRequest}
    (h : s.updateEvents token gid req = .ok (s', events)) :
    ∃ before after, s.groups.get gid = some before ∧ s'.groups.get gid = some after ∧
      Announced strict gid s s' before after events := by
  obtain ⟨group, hgroup, husers, hgroup', rfl⟩ := updateEvents_eq_ok h
  refine ⟨group, _, hgroup, hgroup', ?_⟩
  have hreaches : ∀ uid, group.VisibleTo s uid ∨ (group.updated req).VisibleTo s' uid →
      uid ∈ (group.updated req).audience s' := by
    -- the update changes neither who is in the group nor whether it is public
    intro uid hsees
    refine CacheGroup.VisibleTo.mem_audience ?_
    rcases hsees with hsees | hsees
    · have hpublic : (group.updated req).ty = .isPublic ↔ group.ty = .isPublic :=
        GroupType.withOwner_eq_isPublic
      refine ⟨husers ▸ hsees.1, ?_⟩
      rw [CacheGroup.containsUser, decide_eq_decide.2 hpublic]
      exact hsees.2
    · exact hsees
  rw [announced_single (fun t m ↦ mem_singleton_iff) hreaches]
  refine ⟨rfl, fieldTells_getD strict _ _, fieldTells_getD strict _ _, ?_,
    fieldTells_refl strict _, ?_, fieldTells_getD strict _ _⟩
  · show FieldTells strict group.ty.owner (group.ty.withOwner req.owner).owner
      (if group.ty.withOwner req.owner ≠ .isPublic then req.owner else none)
    cases group.ty with
    | isPublic => exact fieldTells_refl strict none
    | isPrivate owner => exact fieldTells_getD strict owner req.owner
  · show FieldTells strict (some (decide (group.ty = .isPublic)))
      (some (decide (group.ty.withOwner req.owner = .isPublic))) none
    rw [decide_eq_decide.2 GroupType.withOwner_eq_isPublic]
    exact fieldTells_refl strict _

/-! ### `change_type` -/

/-- What an accepted `change_type` does, and broadcasts. -/
inductive TypeChanged (s s' : State) (token : CurrentUser) (gid : ℤ) (req : ChangeGroupTypeRequest)
    (group : CacheGroup) : List GroupEvent → Prop
  | toPrivate (members : Finset ℤ) (hpublic : group.ty = .isPublic) (hreq : req.isPublic = false)
      (hgroup : s'.groups.get gid =
        some { group with ty := .isPrivate token.uid, members := members }) :
    TypeChanged s s' token gid req group
      [.groupChanged s.userIds { gid := gid, owner := some gid, isPublic := some false }]
  | toPublic (owner : ℤ) (targets newMembers : Finset ℤ) (hprivate : group.ty = .isPrivate owner)
      (hreq : req.isPublic = true)
      (hgroup : s'.groups.get gid = some { group with ty := .isPublic, members := ∅ }) :
    TypeChanged s s' token gid req group
      [.groupChanged s.userIds { gid := gid, isPublic := some true },
        .userJoinedGroup targets gid newMembers,
        .joinedGroup newMembers gid { group with ty := .isPublic, members := ∅ }]
  | same (hsame : group.ty = .isPublic ↔ req.isPublic = true)
      (hgroup : s'.groups.get gid = some group) : TypeChanged s s' token gid req group []

theorem changeTypeEvents_eq_ok {req : ChangeGroupTypeRequest}
    (h : s.changeTypeEvents token gid req = .ok (s', events)) :
    ∃ group, s.groups.get gid = some group ∧ s'.users = s.users ∧
      TypeChanged s s' token gid req group events := by
  simp only [State.changeTypeEvents, State.changeType, bind_eq_ok, okOr_eq_ok, ensure_eq_ok,
    exists_unit] at h
  obtain ⟨group, hgroup, t, ⟨other, hother, -, ht⟩, heq⟩ := h
  obtain rfl := Option.some.inj (hgroup.symm.trans hother)
  refine ⟨group, hgroup, ?_⟩
  cases hty : group.ty with
  | isPublic =>
    cases hreq : req.isPublic with
    | false =>
      simp only [hty, hreq, bind_eq_ok, pure_eq_ok, Prod.mk.injEq] at ht heq
      obtain ⟨tables, -, rfl⟩ := ht
      obtain ⟨rfl, rfl⟩ := heq
      exact ⟨rfl, .toPrivate _ hty hreq (OrderedMap.get_insert_self _ _ _)⟩
    | true =>
      simp only [hty, hreq, pure_eq_ok, Prod.mk.injEq] at ht heq
      obtain ⟨rfl, rfl⟩ := heq
      obtain rfl := ht
      exact ⟨rfl, .same (iff_of_true hty hreq) hgroup⟩
  | isPrivate owner =>
    have hne : ¬group.ty = .isPublic := fun hpublic ↦ by cases hty.symm.trans hpublic
    cases hreq : req.isPublic with
    | false =>
      simp only [hty, hreq, pure_eq_ok, Prod.mk.injEq] at ht heq
      obtain ⟨rfl, rfl⟩ := heq
      obtain rfl := ht
      exact ⟨rfl, .same (iff_of_false hne (by rw [hreq]; exact Bool.false_ne_true)) hgroup⟩
    | true =>
      simp only [hty, hreq, pure_eq_ok, Prod.mk.injEq] at ht heq
      obtain ⟨rfl, rfl⟩ := heq
      obtain rfl := ht
      exact ⟨rfl, .toPublic owner _ _ hty hreq (OrderedMap.get_insert_self _ _ _)⟩

theorem TypeChanged.exists_group {req : ChangeGroupTypeRequest}
    (h : TypeChanged s s' token gid req before events) :
    ∃ after, s'.groups.get gid = some after := by
  cases h with
  | toPrivate members hpublic hreq hgroup => exact ⟨_, hgroup⟩
  | toPublic owner targets newMembers hprivate hreq hgroup => exact ⟨_, hgroup⟩
  | same hsame hgroup => exact ⟨_, hgroup⟩

/-- **A change of type is announced** exactly if its owner is told right. -/
theorem TypeChanged.announced_iff {req : ChangeGroupTypeRequest} (husers : s'.users = s.users)
    (h : TypeChanged s s' token gid req before events) (hafter : s'.groups.get gid = some after) :
    Announced strict gid s s' before after events ↔
      before.OwnerTold strict (.changeType token gid req) := by
  cases h with
  | toPrivate members hpublic hreq hgroup =>
    obtain rfl := Option.some.inj (hgroup.symm.trans hafter)
    rw [announced_single (fun t m ↦ mem_singleton_iff)
      fun uid hsees ↦ mem_userIds_of_visibleTo husers hsees]
    constructor
    · intro htells
      refine ⟨fun _ _ ↦ ?_, fun hne ↦ absurd hpublic hne⟩
      exact Option.some.inj (htells.owner.exact gid rfl)
    · intro htold
      have howner : token.uid = gid := htold.1 hpublic hreq
      exact ⟨rfl, fieldTells_refl strict _, fieldTells_refl strict _,
        ⟨fun v hv ↦ (congrArg some howner).trans hv, fun _ _ ↦ rfl⟩,
        fieldTells_refl strict _, fieldTells_some strict _ _, fieldTells_refl strict _⟩
  | toPublic owner targets newMembers hprivate hreq hgroup =>
    obtain rfl := Option.some.inj (hgroup.symm.trans hafter)
    rw [@announced_single _ _ _ _ _ _ _ s.userIds
      { gid := gid, isPublic := some true } (fun t m ↦ ?_)
      fun uid hsees ↦ mem_userIds_of_visibleTo husers hsees]
    · have hne : before.ty ≠ .isPublic := fun hpublic ↦ by cases hprivate.symm.trans hpublic
      have howner : (before.told gid).owner = some owner := congrArg GroupType.owner hprivate
      constructor
      · intro htells
        refine ⟨fun hpublic ↦ absurd hpublic hne, fun _ _ ↦ ?_⟩
        have hgone := htells.owner
        rw [howner] at hgone
        exact (fieldTells_gone strict).1 hgone
      · intro htold
        refine ⟨rfl, fieldTells_refl strict _, fieldTells_refl strict _, ?_,
          fieldTells_refl strict _, fieldTells_some strict _ _, fieldTells_refl strict _⟩
        rw [howner]
        exact (fieldTells_gone strict).2 (htold.2 hne hreq)
    · simp
  | same hsame hgroup =>
    obtain rfl := Option.some.inj (hgroup.symm.trans hafter)
    refine iff_of_true ⟨fun t m hmem ↦ ?_, fun t m hmem ↦ ?_, fun hne ↦ absurd rfl hne⟩ ⟨?_, ?_⟩
    · cases hmem
    · cases hmem
    · intro hpublic hreq
      exact absurd (hsame.1 hpublic) (by rw [hreq]; exact Bool.false_ne_true)
    · intro hne hreq
      exact absurd (hsame.2 hreq) hne

/-! ### Both -/

/-- The events of an accepted request are right exactly if the owner is. -/
theorem events_announced_iff (strict : Bool) {s s' : State} {req : GroupRequest}
    {events : List GroupEvent}
    (h : s.announce req = .ok (s', events)) :
    (∃ before after, s.groups.get req.gid = some before ∧ s'.groups.get req.gid = some after ∧
      Announced strict req.gid s s' before after events) ↔
    ∃ before, s.groups.get req.gid = some before ∧ before.OwnerTold strict req := by
  cases req with
  | update token gid req =>
    obtain ⟨before, after, hbefore, hafter, hannounced⟩ := @announced_update _ _ _ _ strict _ _ h
    exact iff_of_true ⟨before, after, hbefore, hafter, hannounced⟩ ⟨before, hbefore, True.intro⟩
  | changeType token gid req =>
    obtain ⟨group, hgroup, husers, hchanged⟩ := changeTypeEvents_eq_ok h
    constructor
    · rintro ⟨before, after, hbefore, hafter, hannounced⟩
      obtain rfl := Option.some.inj (hgroup.symm.trans hbefore)
      exact ⟨group, hgroup, (hchanged.announced_iff husers hafter).1 hannounced⟩
    · rintro ⟨before, hbefore, htold⟩
      obtain rfl := Option.some.inj (hgroup.symm.trans hbefore)
      obtain ⟨after, hafter⟩ := hchanged.exists_group
      exact ⟨group, after, hgroup, hafter, (hchanged.announced_iff husers hafter).2 htold⟩

/-- The group with the id of a user, made private by that user. -/
def ownGroup : State := State.after [.createUser false,
  .create ⟨1, "web", true, false⟩ ⟨"all", none, [], true, false⟩]

theorem events_announced_own : ∃ s' events,
    ownGroup.announce (.changeType ⟨1, "web", true, false⟩ 1 ⟨false, [1]⟩) = .ok (s', events) ∧
    ∃ before after, ownGroup.groups.get 1 = some before ∧ s'.groups.get 1 = some after ∧
      Announced true 1 ownGroup s' before after events := by
  have hok : (ownGroup.announce
      (.changeType ⟨1, "web", true, false⟩ 1 ⟨false, [1]⟩)).toOption.isSome = true := by
    decide +kernel
  have hget : (ownGroup.groups.get 1).isSome = true := by decide +kernel
  obtain ⟨⟨s', events⟩, h⟩ := Option.isSome_iff_exists.1 hok
  obtain ⟨before, hbefore⟩ := Option.isSome_iff_exists.1 hget
  rw [toOption_eq_some] at h
  exact ⟨s', events, h, (events_announced_iff true h).2
    ⟨before, hbefore, fun _ _ ↦ rfl, fun _ hreq ↦ absurd hreq Bool.false_ne_true⟩⟩

/-- The second user makes the first group private, and everyone is told that the first user owns
it. -/
theorem not_forall_announced : ¬∀ (as : List Action) (req : GroupRequest) (s' : State)
    (events : List GroupEvent), (State.after as).announce req = .ok (s', events) →
      ∃ before after, (State.after as).groups.get req.gid = some before ∧
        s'.groups.get req.gid = some after ∧
          Announced false req.gid (State.after as) s' before after events := by
  intro h
  have hok : ((State.after [.createUser false, .createUser false,
      .create ⟨2, "web", true, false⟩ ⟨"all", none, [], true, false⟩]).announce
      (.changeType ⟨2, "web", true, false⟩ 1 ⟨false, [2]⟩)).toOption.isSome = true := by
    decide +kernel
  have hty : ((State.after [.createUser false, .createUser false,
      .create ⟨2, "web", true, false⟩ ⟨"all", none, [], true, false⟩]).groups.get 1).map
      CacheGroup.ty = some .isPublic := by decide +kernel
  obtain ⟨⟨s', events⟩, hrun⟩ := Option.isSome_iff_exists.1 hok
  rw [toOption_eq_some] at hrun
  obtain ⟨before, after, hbefore, hafter, hannounced⟩ := h _ _ s' events hrun
  obtain ⟨group, hgroup, husers, hchanged⟩ := changeTypeEvents_eq_ok hrun
  obtain rfl := Option.some.inj (hgroup.symm.trans hbefore)
  have htold := (hchanged.announced_iff husers hafter).1 hannounced
  have hpublic : group.ty = .isPublic := by
    have hmap := congrArg (Option.map CacheGroup.ty) hgroup
    exact Option.some.inj (hmap.symm.trans hty)
  exact absurd (htold.1 hpublic rfl) (by decide)

end Groups

end VoceChat
