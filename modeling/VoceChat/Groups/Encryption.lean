import VoceChat.Groups.Restart

/-!
# Which groups are encrypted

A group is made with or without end-to-end encryption (`e2e_enabled`), and whoever manages it may
change this. The setting is in the row of the group and in the cache. No other request concerns it:
`e2eDid_of_request` says what any of them does to the settings of all groups.

As the cache may lose a group whose row stays, and get it back in a restart, what is known of the
setting is known of the row, and of the cache that it says nothing else.
-/

namespace VoceChat

open Guards

namespace Groups

namespace State

/-- What the row of a group says. -/
def storedE2e (s : State) (gid : ℤ) : Option Bool := (s.tables.group gid).map GroupRow.e2eEnabled

/-- What the cache says of a group. -/
def cachedE2e (s : State) (gid : ℤ) : Option Bool := (s.groups.get gid).map CacheGroup.e2eEnabled

/-- The server is started again: `load_groups_cache`. The updates that waited are lost. -/
def reload (s : State) : State :=
  { s with
    groups := OrderedMap.empty.insertAll ((List.range s.tables.nextGid.toNat).filterMap fun gid ↦
      (s.loadGroupsCache gid).map ((gid : ℤ), ·))
    updated := [] }

/-- An accepted request makes the group with this setting, or gives it to it. -/
def SetsE2e (gid : ℤ) (on : Bool) (s : State) (a : Action) : Prop :=
  (s.request a).toOption.isSome = true ∧
    ((∃ token req, a = .create token req ∧ gid = s.tables.nextGid ∧ req.e2eEnabled = on) ∨
      ∃ token req, a = .update token gid req ∧ req.e2eEnabled = some on)

/-- The cache says of no group what its row does not say, and ids are those that were handed out. -/
structure E2eInv (s : State) : Prop where
  cached : ∀ gid on, s.cachedE2e gid = some on → s.storedE2e gid = some on
  gids : ∀ gid on, s.storedE2e gid = some on → gid < s.tables.nextGid

/-- Users come with new ids only. -/
structure OnlyNewUsers (s t : State) : Prop where
  nextUid : s.nextUid ≤ t.nextUid
  users : ∀ uid, (t.users.get uid).isSome = true →
    (s.users.get uid).isSome = true ∨ s.nextUid ≤ uid ∧ uid < t.nextUid

/-- What an action does to the settings. -/
structure E2eDid (s : State) (a : Action) (t : State) : Prop where
  inv : t.E2eInv
  users : s.OnlyNewUsers t
  nextGid : s.tables.nextGid ≤ t.tables.nextGid
  stored : ∀ gid on, t.storedE2e gid = some on →
    s.SetsE2e gid on a ∨ s.storedE2e gid = some on ∧ ∀ on', ¬s.SetsE2e gid on' a
  known : ∀ gid on, s.SetsE2e gid on a → gid < t.tables.nextGid

/-- The settings of all groups are left, though some groups may be gone from the cache. -/
structure Quiet (s t : State) : Prop where
  users : s.OnlyNewUsers t
  nextGid : t.tables.nextGid = s.tables.nextGid
  stored : ∀ gid, t.storedE2e gid = s.storedE2e gid
  cached : ∀ gid on, t.cachedE2e gid = some on → s.cachedE2e gid = some on

variable {s t : State} {a : Action} {gid : ℤ} {on on' : Bool} {group group' : CacheGroup}

/-! ### Quiet requests -/

theorem SameUsers.onlyNewUsers (h : s.SameUsers t) : s.OnlyNewUsers t where
  nextUid := h.2.ge
  users _ huser := .inl (h.1 ▸ huser)

theorem quiet_of_same (husers : s.OnlyNewUsers t) (htables : t.tables = s.tables)
    (hgroups : t.groups = s.groups) : s.Quiet t where
  users := husers
  nextGid := by rw [htables]
  stored gid := by rw [storedE2e, htables, storedE2e]
  cached gid on h := by rwa [cachedE2e, hgroups] at h

/-- One group is changed, in other respects. -/
theorem quiet_put (hgroup : s.groups.get gid = some group)
    (hgroups : t.groups = s.groups.insert gid group') (he2e : group'.e2eEnabled = group.e2eEnabled)
    (hstored : ∀ g, t.storedE2e g = s.storedE2e g) (hnext : t.tables.nextGid = s.tables.nextGid)
    (husers : s.SameUsers t) : s.Quiet t where
  users := husers.onlyNewUsers
  nextGid := hnext
  stored := hstored
  cached g on h := by
    rw [cachedE2e, hgroups, OrderedMap.get_insert] at h
    split at h
    · rename_i hg
      subst hg
      rw [cachedE2e, hgroup, ← h]
      exact congrArg some he2e.symm
    · exact h

theorem storedE2e_updateGroup {f : GroupRow → GroupRow}
    (hgroup : t.tables.group = (s.tables.updateGroup gid f).group)
    (hf : ∀ row, (f row).e2eEnabled = row.e2eEnabled) (g : ℤ) : t.storedE2e g = s.storedE2e g := by
  rw [storedE2e, hgroup]
  show (Function.update s.tables.group gid _ g).map _ = (s.tables.group g).map _
  rw [Function.update_apply]
  split
  · rename_i hg
    rw [hg, Option.map_map]
    exact congrArg (Option.map · (s.tables.group gid)) (funext hf)
  · rfl

theorem quiet_processMsgUpdated (s : State) (mid : ℤ) : s.Quiet (s.processMsgUpdated mid) := by
  unfold processMsgUpdated
  split
  · dsimp only
    split
    · rename_i gid group content hfind _
      exact quiet_put (findPin_eq_some hfind).1 rfl rfl (fun _ ↦ rfl) rfl ⟨rfl, rfl⟩
    · rename_i gid group hfind _
      exact quiet_put (findPin_eq_some hfind).1 rfl rfl (fun _ ↦ rfl) rfl ⟨rfl, rfl⟩
    · exact quiet_of_same (SameUsers.onlyNewUsers ⟨rfl, rfl⟩) rfl rfl
  · exact quiet_of_same (SameUsers.onlyNewUsers ⟨rfl, rfl⟩) rfl rfl

theorem quiet_deleteUser {uid : ℤ} (h : s.deleteUser uid = .ok t) : s.Quiet t := by
  obtain ⟨-, rfl⟩ := deleteUser_eq_ok_iff.1 h
  refine ⟨⟨le_rfl, fun u hu ↦ .inl ?_⟩, rfl, fun _ ↦ rfl, fun gid on h ↦ ?_⟩
  · rw [OrderedMap.get_erase] at hu
    split at hu
    · cases hu
    · exact hu
  obtain ⟨group', hgroup', rfl⟩ := Option.map_eq_some_iff.1 h
  rw [OrderedMap.get_filterMapValues, Option.bind_eq_some_iff] at hgroup'
  obtain ⟨group, hgroup, hdelete⟩ := hgroup'
  rw [cachedE2e, hgroup]
  obtain ⟨-, hsame, -, -⟩ := Copies.deleteUser_eq_some hdelete
  rw [hsame]
  rfl

/-- Most requests say nothing about encryption. -/
theorem quiet_of_request (h : s.request a = .ok t) (hcreate : ∀ token req, a ≠ .create token req)
    (hupdate : ∀ token gid req, a ≠ .update token gid req)
    (hdelete : ∀ token gid, a ≠ .delete token gid) : s.Quiet t := by
  cases a with
  | createUser isGuest =>
    obtain rfl := Except.ok.inj h
    refine quiet_of_same ⟨(Int.lt_succ _).le, fun uid huser ↦ ?_⟩ rfl rfl
    rw [createUser, OrderedMap.get_insert] at huser
    split at huser
    · rename_i huid
      exact .inr ⟨huid.ge, huid.trans_lt (Int.lt_succ _)⟩
    · exact .inl huser
  | deleteUser uid => exact quiet_deleteUser h
  | create token req => exact absurd rfl (hcreate token req)
  | uploadAvatar token gid now =>
    obtain ⟨group, hgroup, -, rfl⟩ := uploadAvatar_eq_ok_iff.1 h
    exact quiet_put hgroup rfl rfl (storedE2e_updateGroup rfl fun _ ↦ rfl) rfl ⟨rfl, rfl⟩
  | delete token gid => exact absurd rfl (hdelete token gid)
  | update token gid req => exact absurd rfl (hupdate token gid req)
  | changeType token gid req =>
    obtain ⟨group, hgroup, -, ⟨-, -, tables, htables, rfl⟩ | ⟨owner, -, -, rfl⟩ | ⟨-, rfl⟩⟩ :=
      changeType_eq_ok h
    · obtain rfl := Tables.insertGroupUsers_eq_ok htables
      exact quiet_put hgroup rfl rfl (storedE2e_updateGroup rfl fun _ ↦ rfl) rfl ⟨rfl, rfl⟩
    · exact quiet_put hgroup rfl rfl (storedE2e_updateGroup rfl fun _ ↦ rfl) rfl ⟨rfl, rfl⟩
    · exact quiet_of_same (SameUsers.onlyNewUsers ⟨rfl, rfl⟩) rfl rfl
  | leave token gid =>
    obtain ⟨group, hgroup, -, -, -, rfl⟩ := leave_eq_ok_iff.1 h
    exact quiet_put hgroup rfl rfl (fun _ ↦ rfl) rfl ⟨rfl, rfl⟩
  | addMembers token gid members =>
    obtain ⟨-, group, hgroup, -, -, -, tables, htables, rfl⟩ := addMembers_eq_ok_iff.1 h
    obtain rfl := Tables.insertGroupUsers_eq_ok htables
    exact quiet_put hgroup rfl rfl (fun _ ↦ rfl) rfl ⟨rfl, rfl⟩
  | removeMembers token gid members =>
    obtain ⟨group, hgroup, -, -, -, rfl⟩ := removeMembers_eq_ok h
    rw [Tables.foldl_deleteGroupUser]
    exact quiet_put hgroup rfl rfl (fun _ ↦ rfl) rfl ⟨rfl, rfl⟩
  | join uid gid =>
    obtain rfl | ⟨group, hgroup, -, tables, htables, rfl⟩ := join_eq_ok h
    · exact quiet_of_same (SameUsers.onlyNewUsers ⟨rfl, rfl⟩) rfl rfl
    · obtain rfl := Tables.insertGroupUsers_eq_ok htables
      exact quiet_put hgroup rfl rfl (fun _ ↦ rfl) rfl ⟨rfl, rfl⟩
  | pinMessage token gid mid now =>
    obtain ⟨group, hgroup, -, -, content, -, -, rfl⟩ := pinMessage_eq_ok_iff.1 h
    exact quiet_put hgroup rfl rfl (fun _ ↦ rfl) rfl ⟨rfl, rfl⟩
  | unpinMessage token gid mid =>
    obtain ⟨group, hgroup, -, -, rfl⟩ := unpinMessage_eq_ok_iff.1 h
    exact quiet_put hgroup rfl rfl (fun _ ↦ rfl) rfl ⟨rfl, rfl⟩
  | sendMessage mid content =>
    obtain rfl := Except.ok.inj h
    exact quiet_of_same (SameUsers.onlyNewUsers ⟨rfl, rfl⟩) rfl rfl
  | editMessage mid content =>
    obtain rfl := Except.ok.inj h
    exact quiet_of_same (SameUsers.onlyNewUsers ⟨rfl, rfl⟩) rfl rfl
  | processMsgUpdated mid =>
    obtain rfl := Except.ok.inj h
    exact quiet_processMsgUpdated s mid

/-! ### What a request does -/

theorem SetsE2e.unique (h : s.SetsE2e gid on a) (h' : s.SetsE2e gid on' a) : on = on' := by
  obtain ⟨-, ⟨token, req, rfl, -, hreq⟩ | ⟨token, req, rfl, hreq⟩⟩ := h
  · obtain ⟨-, ⟨token', req', ha, -, hreq'⟩ | ⟨token', req', ha, -⟩⟩ := h'
    · obtain ⟨rfl, rfl⟩ := Action.create.inj ha
      exact hreq.symm.trans hreq'
    · cases ha
  · obtain ⟨-, ⟨token', req', ha, -⟩ | ⟨token', req', ha, hreq'⟩⟩ := h'
    · cases ha
    · obtain ⟨rfl, -, rfl⟩ := Action.update.inj ha
      exact Option.some.inj (hreq.symm.trans hreq')

theorem not_setsE2e (hcreate : ∀ token req, a ≠ .create token req)
    (hupdate : ∀ token req, a ≠ .update token gid req) (on : Bool) : ¬s.SetsE2e gid on a := by
  rintro ⟨-, ⟨token, req, rfl, -⟩ | ⟨token, req, rfl, -⟩⟩
  · exact hcreate token req rfl
  · exact hupdate token req rfl

theorem Quiet.e2eDid (h : s.Quiet t) (hs : s.E2eInv) (hsets : ∀ gid on, ¬s.SetsE2e gid on a) :
    s.E2eDid a t where
  inv :=
    { cached := fun gid on hcached ↦
        (h.stored gid).trans (hs.cached gid on (h.cached gid on hcached))
      gids := fun gid on hstored ↦
        h.nextGid.symm ▸ hs.gids gid on ((h.stored gid).symm.trans hstored) }
  users := h.users
  nextGid := h.nextGid.ge
  stored gid _ hstored := .inr ⟨(h.stored gid).symm.trans hstored, hsets gid⟩
  known gid on h := absurd h (hsets gid on)

/-- A group that is updated is there. -/
theorem E2eInv.of_update (hs : s.E2eInv) {token : CurrentUser} {req : UpdateGroupRequest}
    (hok : (s.request (.update token gid req)).toOption.isSome = true) :
    gid < s.tables.nextGid ∧ (s.storedE2e gid).isSome = true := by
  cases h : s.update token gid req with
  | error e =>
    rw [request, h] at hok
    cases hok
  | ok t =>
    obtain ⟨-, group, hgroup, -⟩ := update_eq_ok_iff.1 h
    have hstored := hs.cached gid group.e2eEnabled (by rw [cachedE2e, hgroup]; rfl)
    exact ⟨hs.gids gid _ hstored, Option.isSome_of_eq_some hstored⟩

theorem e2eDid_create {token : CurrentUser} {req : CreateGroupRequest} (hs : s.E2eInv)
    (h : s.create token req = .ok t) : s.E2eDid (.create token req) t := by
  have hok : (s.request (.create token req)).toOption.isSome = true := by
    rw [request, h]
    rfl
  obtain ⟨-, -, -, -, tables, htables, rfl⟩ := create_eq_ok_iff.1 h
  obtain rfl := Tables.insertGroupUsers_eq_ok htables
  have hnext : s.tables.nextGid < s.tables.nextGid + 1 := Int.lt_succ _
  refine ⟨⟨fun gid on hcached ↦ ?_, fun gid on hstored ↦ ?_⟩,
    SameUsers.onlyNewUsers ⟨rfl, rfl⟩, hnext.le, fun gid on hstored ↦ ?_, ?_⟩
  rotate_right
  · rintro gid on ⟨-, ⟨_, _, -, rfl, -⟩ | ⟨_, _, ha, -⟩⟩
    · exact hnext
    · cases ha
  · change ((s.groups.insert s.tables.nextGid _).get gid).map _ = _ at hcached
    show (Function.update s.tables.group s.tables.nextGid _ gid).map _ = _
    rw [OrderedMap.get_insert] at hcached
    rw [Function.update_apply]
    split at hcached
    · rename_i hgid
      rw [if_pos hgid]
      exact hcached
    · rename_i hgid
      rw [if_neg hgid]
      exact hs.cached gid on hcached
  all_goals
    change (Function.update s.tables.group s.tables.nextGid _ gid).map _ = _ at hstored
    rw [Function.update_apply] at hstored
    split at hstored
  · rename_i hgid
    exact hgid.trans_lt hnext
  · exact (hs.gids gid on hstored).trans hnext
  · rename_i hgid
    exact .inl ⟨hok, .inl ⟨token, req, rfl, hgid, Option.some.inj hstored⟩⟩
  · rename_i hgid
    refine .inr ⟨hstored, ?_⟩
    rintro on' ⟨-, ⟨token', req', -, heq, -⟩ | ⟨token', req', ha, -⟩⟩
    · exact hgid heq
    · cases ha

theorem e2eDid_update {token : CurrentUser} {gid' : ℤ} {req : UpdateGroupRequest} (hs : s.E2eInv)
    (h : s.update token gid' req = .ok t) : s.E2eDid (.update token gid' req) t := by
  have hok : (s.request (.update token gid' req)).toOption.isSome = true := by
    rw [request, h]
    rfl
  obtain ⟨-, group, hgroup, -, -, -, rfl⟩ := update_eq_ok_iff.1 h
  obtain ⟨row, hrow, he2e⟩ := Option.map_eq_some_iff.1
    (hs.cached gid' group.e2eEnabled (by rw [cachedE2e, hgroup]; rfl))
  have hput : ∀ gid, (Function.update s.tables.group gid' ((s.tables.group gid').map fun row ↦
      { row with
        name := req.name.getD row.name
        owner := req.owner.or row.owner
        description := req.description.getD row.description
        e2eEnabled := req.e2eEnabled.getD row.e2eEnabled }) gid).map GroupRow.e2eEnabled =
      if gid = gid' then some (req.e2eEnabled.getD group.e2eEnabled) else s.storedE2e gid := by
    intro gid
    rw [Function.update_apply, hrow, ← he2e]
    split
    · rfl
    · rfl
  refine ⟨⟨fun gid on hcached ↦ (hput gid).trans ?_, fun gid on hstored ↦ ?_⟩,
    SameUsers.onlyNewUsers ⟨rfl, rfl⟩, le_rfl, fun gid on hstored ↦ ?_, ?_⟩
  rotate_right
  · rintro gid on ⟨-, ⟨_, _, ha, -⟩ | ⟨_, _, ha, -⟩⟩
    · cases ha
    · obtain ⟨-, rfl, -⟩ := Action.update.inj ha
      exact (hs.of_update hok).1
  · change ((s.groups.insert gid' _).get gid).map _ = _ at hcached
    rw [OrderedMap.get_insert] at hcached
    split at hcached
    · rename_i hgid
      rw [if_pos hgid]
      exact hcached
    · rename_i hgid
      rw [if_neg hgid]
      exact hs.cached gid on hcached
  all_goals
    replace hstored := (hput gid).symm.trans hstored
    split at hstored
  · rename_i hgid
    exact hs.gids gid group.e2eEnabled (hgid ▸ Option.map_eq_some_iff.2 ⟨row, hrow, he2e⟩)
  · exact hs.gids gid on hstored
  · rename_i hgid
    subst hgid
    cases hreq : req.e2eEnabled with
    | some new =>
      rw [hreq] at hstored
      exact .inl ⟨hok, .inr ⟨token, req, rfl, hreq.trans hstored⟩⟩
    | none =>
      rw [hreq] at hstored
      refine .inr ⟨Option.map_eq_some_iff.2 ⟨row, hrow, he2e.trans (Option.some.inj hstored)⟩, ?_⟩
      rintro on' ⟨-, ⟨token', req', ha, -⟩ | ⟨token', req', ha, hreq'⟩⟩
      · cases ha
      · obtain ⟨-, -, rfl⟩ := Action.update.inj ha
        cases hreq.symm.trans hreq'
  · rename_i hgid
    refine .inr ⟨hstored, not_setsE2e (fun _ _ ha ↦ by cases ha) fun token' req' ha ↦ ?_⟩
    exact hgid (Action.update.inj ha).2.1.symm

theorem e2eDid_delete {token : CurrentUser} {gid' : ℤ} (hs : s.E2eInv)
    (h : s.delete token gid' = .ok t) : s.E2eDid (.delete token gid') t := by
  obtain ⟨group, hgroup, -, rfl⟩ := delete_eq_ok_iff.1 h
  have herase : ∀ gid on, (Function.update s.tables.group gid' none gid).map GroupRow.e2eEnabled =
      some on ↔ gid ≠ gid' ∧ s.storedE2e gid = some on := by
    intro gid on
    rw [Function.update_apply]
    split
    · rename_i hgid
      exact iff_of_false (fun h ↦ by cases h) fun h ↦ h.1 hgid
    · rename_i hgid
      exact (and_iff_right hgid).symm
  have hsets : ∀ gid on, ¬s.SetsE2e gid on (.delete token gid') := fun gid ↦
    not_setsE2e (fun _ _ ha ↦ by cases ha) fun _ _ ha ↦ by cases ha
  refine ⟨⟨fun gid on hcached ↦ (herase gid on).2 ?_,
    fun gid on hstored ↦ hs.gids gid on ((herase gid on).1 hstored).2⟩,
    SameUsers.onlyNewUsers ⟨rfl, rfl⟩, le_rfl,
    fun gid on hstored ↦ .inr ⟨((herase gid on).1 hstored).2, hsets gid⟩,
    fun gid on h ↦ absurd h (hsets gid on)⟩
  · change ((s.groups.erase gid').get gid).map _ = _ at hcached
    rw [OrderedMap.get_erase] at hcached
    split at hcached
    · cases hcached
    · rename_i hgid
      exact ⟨hgid, hs.cached gid on hcached⟩

/-- **What an action does to the settings.** -/
theorem e2eDid_perform (hs : s.E2eInv) (a : Action) : s.E2eDid a (s.perform a) := by
  rw [perform]
  cases h : s.request a with
  | error e =>
    have hquiet : s.Quiet s := quiet_of_same (SameUsers.onlyNewUsers ⟨rfl, rfl⟩) rfl rfl
    refine hquiet.e2eDid hs fun gid on hsets ↦ ?_
    have hok := hsets.1
    rw [h] at hok
    cases hok
  | ok t =>
    show s.E2eDid a t
    by_cases hcreate : ∃ token req, a = .create token req
    · obtain ⟨token, req, rfl⟩ := hcreate
      exact e2eDid_create hs h
    by_cases hupdate : ∃ token gid req, a = .update token gid req
    · obtain ⟨token, gid, req, rfl⟩ := hupdate
      exact e2eDid_update hs h
    by_cases hdelete : ∃ token gid, a = .delete token gid
    · obtain ⟨token, gid, rfl⟩ := hdelete
      exact e2eDid_delete hs h
    push Not at hcreate hupdate hdelete
    exact (quiet_of_request h hcreate hupdate hdelete).e2eDid hs fun gid ↦
      not_setsE2e hcreate fun token req ↦ hupdate token gid req

theorem e2eInv_start : start.E2eInv where
  cached _ _ h := by cases h
  gids _ _ h := by cases h

/-- A start takes the settings from the rows. -/
theorem E2eInv.reload (hs : s.E2eInv) : s.reload.E2eInv where
  cached gid on h := by
    obtain ⟨group, hgroup, rfl⟩ := Option.map_eq_some_iff.1 h
    rcases OrderedMap.mem_or_get_of_get_insertAll hgroup with hmem | hempty
    · obtain ⟨n, -, hn⟩ := List.mem_filterMap.1 hmem
      obtain ⟨loaded, hloaded, heq⟩ := Option.map_eq_some_iff.1 hn
      obtain ⟨rfl, rfl⟩ := Prod.mk.inj heq
      obtain ⟨row, hrow, hload⟩ := Option.bind_eq_some_iff.1 hloaded
      obtain ⟨ty, -, hty⟩ := Option.bind_eq_some_iff.1 hload
      obtain rfl := Option.some.inj hty
      exact Option.map_eq_some_iff.2 ⟨row, hrow, rfl⟩
    · cases hempty
  gids := hs.gids

/-- **The row says what was set last.** -/
theorem E2eDid.stored_iff (h : s.E2eDid a t) : t.storedE2e gid = some on ↔
    (t.storedE2e gid).isSome = true ∧
      (s.SetsE2e gid on a ∨ s.storedE2e gid = some on ∧ ¬s.SetsE2e gid (!on) a) := by
  constructor
  · intro hon
    exact ⟨Option.isSome_of_eq_some hon, (h.stored gid on hon).imp_right fun h ↦ ⟨h.1, h.2 _⟩⟩
  · rintro ⟨hsome, hsets⟩
    obtain ⟨on', hon'⟩ := Option.isSome_iff_exists.1 hsome
    rcases Bool.eq_or_eq_not on' on with rfl | rfl
    · exact hon'
    · rcases h.stored gid _ hon', hsets with ⟨hnot | ⟨hnot, hquiet⟩, hsets | ⟨hon, hcalled⟩⟩
      · cases on <;> cases hsets.unique hnot
      · exact absurd hnot hcalled
      · exact absurd hsets (hquiet on)
      · cases on <;> cases hnot.symm.trans hon

/-- A group that was known before was there before. -/
theorem E2eDid.of_known (h : s.E2eDid a t) (hs : s.E2eInv) (hknown : gid < s.tables.nextGid)
    (hstored : (t.storedE2e gid).isSome = true) : (s.storedE2e gid).isSome = true := by
  obtain ⟨on, hon⟩ := Option.isSome_iff_exists.1 hstored
  rcases h.stored gid on hon with ⟨hok, ⟨-, -, -, rfl, -⟩ | ⟨token, req, rfl, -⟩⟩ | ⟨hbefore, -⟩
  · exact absurd hknown (lt_irrefl _)
  · exact (hs.of_update hok).2
  · exact Option.isSome_of_eq_some hbefore

end State

end Groups

end VoceChat
