import VoceChat.Groups.Settings

/-!
# Read indexes and their targets

Only an update of read indexes writes an index. All other requests keep them, or take them out with
their user or their target (`request_keeps`), and a target that is gone does not come back: ids of
users and groups are used once (`State.request_grows`).
-/

namespace VoceChat

open Guards

namespace Groups

/-! ### Which targets there are -/

namespace SettingsSystem

/-- A request may name the target. -/
def isTarget (s : SettingsSystem) : Target → Bool
  | .user uid => s.hasUser uid
  | .group gid => s.hasGroup gid

/-- The index in the cache. -/
def cachedIndex (s : SettingsSystem) (uid : ℤ) (target : Target) : Option ℤ :=
  (s.cached uid).bind (Settings.readIndex · target)

/-- The index in the table. -/
def storedIndex (s : SettingsSystem) (uid : ℤ) (target : Target) : Option ℤ :=
  (s.tables uid).readIndex target

/-- A target of this name has been created at some time. -/
def Known (s : SettingsSystem) : Target → Prop
  | .user uid => uid < s.groups.nextUid
  | .group gid => gid < s.groups.tables.nextGid

end SettingsSystem

namespace State

variable {s s' : State} {a : Action}

/-- The cache has no group that it did not have before, but one with an id that is new. -/
def Grows (s s' : State) : Prop := s.tables.nextGid ≤ s'.tables.nextGid ∧
  ∀ gid, (s'.groups.get gid).isSome = true →
    (s.groups.get gid).isSome = true ∨ s.tables.nextGid ≤ gid

theorem grows_refl (s : State) : s.Grows s := ⟨le_rfl, fun _ ↦ .inl⟩

theorem grows_insert {gid : ℤ} {group : CacheGroup}
    (hgroups : s'.groups = s.groups.insert gid group) (hnext : s.tables.nextGid ≤ s'.tables.nextGid)
    (hgid : (s.groups.get gid).isSome = true ∨ s.tables.nextGid ≤ gid) : s.Grows s' := by
  refine ⟨hnext, fun g hg ↦ ?_⟩
  rw [hgroups, OrderedMap.get_insert] at hg
  split at hg
  · rename_i heq
    rwa [heq]
  · exact .inl hg

theorem isSome_of_eq {gid : ℤ} {group : CacheGroup} (h : s.groups.get gid = some group) :
    (s.groups.get gid).isSome = true := by
  rw [h]
  rfl

theorem request_nextGid (hs : s.WellFormed) (h : s.request a = .ok s') :
    s.tables.nextGid ≤ s'.tables.nextGid := by
  rcases request_eq_ok hs h with ⟨rfl | hchanges, -⟩ | ⟨isGuest, rfl⟩ | ⟨uid, rfl⟩ |
    ⟨mid, content, rfl⟩ | ⟨mid, content, rfl⟩ | ⟨mid, rfl⟩
  · exact le_rfl
  · obtain ⟨gid, c', -, -, -, -, hnext, -⟩ := hchanges
    exact hnext
  · obtain rfl := Except.ok.inj h
    exact le_rfl
  · obtain ⟨-, rfl⟩ := deleteUser_eq_ok_iff.1 h
    exact le_rfl
  · obtain rfl := Except.ok.inj h
    exact le_rfl
  · obtain rfl := Except.ok.inj h
    exact le_rfl
  · obtain rfl := Except.ok.inj h
    show _ ≤ (s.processMsgUpdated mid).tables.nextGid
    unfold processMsgUpdated
    split
    · dsimp only
      split <;> exact le_rfl
    · exact le_rfl

theorem processMsgUpdated_groups (s : State) (mid : ℤ) :
    (s.processMsgUpdated mid).groups = s.groups ∨ ∃ gid group group',
      s.groups.get gid = some group ∧
        (s.processMsgUpdated mid).groups = s.groups.insert gid group' := by
  unfold processMsgUpdated
  split
  · dsimp only
    split
    · rename_i gid group content hfind hcontent
      exact .inr ⟨gid, group, _, (findPin_eq_some hfind).1, rfl⟩
    · rename_i gid group hfind hcontent
      exact .inr ⟨gid, group, _, (findPin_eq_some hfind).1, rfl⟩
    · exact .inl rfl
  · exact .inl rfl

/-- No request brings back a group that is gone. -/
theorem request_grows (hs : s.WellFormed) (h : s.request a = .ok s') : s.Grows s' := by
  have hnext := request_nextGid hs h
  have hold {t : State} {gid : ℤ} {group group' : CacheGroup} (hget : s.groups.get gid = some group)
      (hgroups : t.groups = s.groups.insert gid group')
      (hle : s.tables.nextGid ≤ t.tables.nextGid) : s.Grows t :=
    grows_insert hgroups hle (.inl (isSome_of_eq hget))
  cases a with
  | createUser isGuest =>
    obtain rfl := Except.ok.inj h
    exact ⟨le_rfl, fun _ ↦ .inl⟩
  | deleteUser uid =>
    obtain ⟨-, rfl⟩ := deleteUser_eq_ok_iff.1 h
    refine ⟨le_rfl, fun g hg ↦ .inl ?_⟩
    have hg' : ((s.groups.filterMapValues fun _ ↦ CacheGroup.deleteUser uid).get g).isSome = true :=
      hg
    rw [OrderedMap.get_filterMapValues] at hg'
    cases hget : s.groups.get g with
    | none =>
      rw [hget] at hg'
      cases hg'
    | some group => rfl
  | create token req =>
    obtain ⟨-, -, -, -, t', -, rfl⟩ := create_eq_ok_iff.1 h
    exact grows_insert rfl hnext (.inr le_rfl)
  | uploadAvatar token gid now =>
    obtain ⟨group, hgroup, -, rfl⟩ := uploadAvatar_eq_ok_iff.1 h
    exact hold hgroup rfl hnext
  | delete token gid =>
    obtain ⟨group, -, -, rfl⟩ := delete_eq_ok_iff.1 h
    refine ⟨le_rfl, fun g hg ↦ .inl ?_⟩
    have hg' : ((s.groups.erase gid).get g).isSome = true := hg
    rw [OrderedMap.get_erase] at hg'
    split at hg'
    · cases hg'
    · exact hg'
  | update token gid req =>
    obtain ⟨-, group, hgroup, -, -, -, rfl⟩ := update_eq_ok_iff.1 h
    exact hold hgroup rfl hnext
  | changeType token gid req =>
    obtain ⟨group, hgroup, -, ⟨-, -, t', -, rfl⟩ | ⟨owner, -, -, rfl⟩ | ⟨-, rfl⟩⟩ :=
      changeType_eq_ok h
    · exact hold hgroup rfl hnext
    · exact hold hgroup rfl hnext
    · exact grows_refl s
  | leave token gid =>
    obtain ⟨group, hgroup, -, -, -, rfl⟩ := leave_eq_ok_iff.1 h
    exact hold hgroup rfl hnext
  | addMembers token gid members =>
    obtain ⟨-, group, hgroup, -, -, -, t', -, rfl⟩ := addMembers_eq_ok_iff.1 h
    exact hold hgroup rfl hnext
  | removeMembers token gid members =>
    obtain ⟨group, hgroup, -, -, -, rfl⟩ := removeMembers_eq_ok h
    exact hold hgroup rfl hnext
  | join uid gid =>
    rcases join_eq_ok h with rfl | ⟨group, hgroup, -, t', -, rfl⟩
    · exact grows_refl s
    · exact hold hgroup rfl hnext
  | pinMessage token gid mid now =>
    obtain ⟨group, hgroup, -, -, content, -, -, rfl⟩ := pinMessage_eq_ok_iff.1 h
    exact hold hgroup rfl hnext
  | unpinMessage token gid mid =>
    obtain ⟨group, hgroup, -, -, rfl⟩ := unpinMessage_eq_ok_iff.1 h
    exact hold hgroup rfl hnext
  | sendMessage mid content =>
    obtain rfl := Except.ok.inj h
    exact ⟨le_rfl, fun _ ↦ .inl⟩
  | editMessage mid content =>
    obtain rfl := Except.ok.inj h
    exact ⟨le_rfl, fun _ ↦ .inl⟩
  | processMsgUpdated mid =>
    obtain rfl := Except.ok.inj h
    rcases s.processMsgUpdated_groups mid with hgroups | ⟨gid, group, group', hgroup, hgroups⟩
    · refine ⟨hnext, fun g hg ↦ .inl ?_⟩
      rwa [hgroups] at hg
    · exact hold hgroup hgroups hnext

end State

namespace SettingsSystem

variable {s s' : SettingsSystem} {a : SettingsAction}

/-- No index is written, and indexes go only with their targets. -/
structure Keeps (s s' : SettingsSystem) : Prop where
  known : ∀ target, s.Known target → s'.Known target
  target : ∀ target, s'.isTarget target = true → s.isTarget target = true ∨ ¬s.Known target
  cached : ∀ uid target, s'.cachedIndex uid target = s.cachedIndex uid target ∨
    s'.cachedIndex uid target = none ∧ ¬(s'.hasUser uid = true ∧ s'.isTarget target = true)
  stored : ∀ uid target, s'.storedIndex uid target = s.storedIndex uid target ∨
    s'.storedIndex uid target = none ∧ ¬(s'.hasUser uid = true ∧ s'.isTarget target = true)

theorem isTarget_known (hs : s.Inv) {target : Target} (h : s.isTarget target = true) :
    s.Known target := by
  cases target with
  | user uid =>
    by_contra hnot
    rw [isTarget, hs.fresh uid (not_lt.1 hnot)] at h
    cases h
  | group gid =>
    obtain ⟨group, hgroup⟩ := Option.isSome_iff_exists.1 h
    exact State.lt_nextGid hs.groups hgroup

theorem Keeps.of_eq (hcached : ∀ uid target, s'.cachedIndex uid target = s.cachedIndex uid target)
    (hstored : ∀ uid target, s'.storedIndex uid target = s.storedIndex uid target)
    (hsame : s.groups.SameUsers s'.groups) (hgrows : s.groups.Grows s'.groups) : s.Keeps s' where
  known target h := by
    cases target with
    | user uid =>
      show uid < s'.groups.nextUid
      rw [hsame.2]
      exact h
    | group gid => exact lt_of_lt_of_le h hgrows.1
  target target h := by
    cases target with
    | user uid =>
      have huser : (s'.groups.users.get uid).isSome = true := h
      rw [hsame.1] at huser
      exact .inl huser
    | group gid => exact (hgrows.2 gid h).imp_right fun hle ↦ not_lt.2 hle
  cached uid target := .inl (hcached uid target)
  stored uid target := .inl (hstored uid target)

theorem readIndex_writeAll_of_forall {ws : List Write}
    (h : ∀ w ∈ ws, ∀ target value, w ≠ .readIndex target value) (st : Settings) :
    (st.writeAll ws).readIndex = st.readIndex := by
  induction ws generalizing st with
  | nil => rfl
  | cons w ws ih =>
    obtain ⟨hw, hrest⟩ := List.forall_mem_cons.1 h
    refine (ih hrest (st.write w)).trans ?_
    cases w with
    | readIndex target value => exact absurd rfl (hw target value)
    | _ => rfl

theorem storedIndex_write (uid : ℤ) (ws : List Write) (u : ℤ) (target : Target) :
    (s.write uid ws).storedIndex u target =
      if u = uid then ((s.tables uid).writeAll ws).readIndex target
      else s.storedIndex u target := by
  show (Function.update s.tables uid _ u).readIndex target = _
  rw [Function.update_apply]
  split <;> rfl

theorem cachedIndex_write (uid : ℤ) (ws : List Write) (u : ℤ) (target : Target) :
    (s.write uid ws).cachedIndex u target =
      if u = uid then (s.cached uid).bind fun st ↦ (st.writeAll ws).readIndex target
      else s.cachedIndex u target := by
  show (Function.update s.cached uid _ u).bind _ = _
  rw [Function.update_apply]
  split
  · rw [Option.bind_map]
    rfl
  · rfl

theorem write_keeps (uid : ℤ) {ws : List Write}
    (h : ∀ w ∈ ws, ∀ target value, w ≠ .readIndex target value) : s.Keeps (s.write uid ws) := by
  refine .of_eq (fun u target ↦ ?_) (fun u target ↦ ?_) ⟨rfl, rfl⟩ (State.grows_refl _)
  · rw [cachedIndex_write]
    split
    · rename_i hu
      rw [hu]
      exact congrArg (s.cached uid).bind (funext fun st ↦
        congrFun (readIndex_writeAll_of_forall h st) target)
    · rfl
  · rw [storedIndex_write]
    split
    · rename_i hu
      rw [hu]
      exact congrFun (readIndex_writeAll_of_forall h _) target
    · rfl

theorem createUser_keeps (hs : s.Inv) (isGuest : Bool) : s.Keeps (s.createUser isGuest) where
  known target h := by
    cases target with
    | user uid => exact lt_of_lt_of_le h (Int.le_add_one le_rfl)
    | group gid => exact h
  target target h := by
    cases target with
    | user uid =>
      rw [isTarget, hasUser_createUser] at h
      split at h
      · rename_i hu
        exact .inr (not_lt.2 hu.ge)
      · exact .inl h
    | group gid => exact .inl h
  cached uid target := by
    refine .inl ?_
    show (Function.update s.cached s.groups.nextUid _ uid).bind _ = (s.cached uid).bind _
    rw [Function.update_apply]
    split
    · rename_i hu
      have hnone : s.cached uid = none := by
        rw [← Option.isNone_iff_eq_none, ← Option.not_isSome, hs.cached, hs.fresh uid hu.ge]
        rfl
      rw [hnone]
      rfl
    · rfl
  stored uid target := .inl rfl

theorem deleteGroup_keeps (hs : s.Inv) {token : CurrentUser} {gid : ℤ}
    (h : s.deleteGroup token gid = .ok s') : s.Keeps s' := by
  obtain ⟨groups', hgroups', rfl⟩ := deleteGroup_eq_ok h
  have hgrows : s.groups.Grows groups' :=
    State.request_grows (a := .delete token gid) hs.groups hgroups'
  obtain ⟨group, -, -, rfl⟩ := State.delete_eq_ok_iff.1 hgroups'
  have hgone : ((s.groups.groups.erase gid).get gid).isSome ≠ true := by
    rw [OrderedMap.get_erase, if_pos rfl]
    exact Bool.false_ne_true
  refine ⟨fun target ht ↦ ?_, fun target ht ↦ ?_, fun uid target ↦ ?_, fun uid target ↦ ?_⟩
  · cases target with
    | user uid => exact ht
    | group g => exact ht
  · cases target with
    | user uid => exact .inl ht
    | group g => exact (hgrows.2 g ht).imp_right fun hle ↦ not_lt.2 hle
  · by_cases ht : target = .group gid
    · obtain rfl := ht
      refine .inr ⟨?_, fun hboth ↦ hgone hboth.2⟩
      show ((s.cached uid).map _).bind _ = none
      rw [Option.bind_map]
      cases s.cached uid with
      | none => rfl
      | some st => exact Function.update_self _ _ _
    · refine .inl ?_
      show ((s.cached uid).map _).bind _ = (s.cached uid).bind _
      rw [Option.bind_map]
      exact congrArg (s.cached uid).bind (funext fun st ↦ Function.update_of_ne ht _ _)
  · by_cases ht : target = .group gid
    · obtain rfl := ht
      exact .inr ⟨Function.update_self _ _ _, fun hboth ↦ hgone hboth.2⟩
    · exact .inl (Function.update_of_ne ht _ _)

/-- The user that is deleted and the groups that go with it. -/
def goneWith (s : SettingsSystem) (uid : ℤ) : List Target :=
  .user uid :: (s.removedGroupsId uid).map .group

theorem isTarget_deleteUser {uid : ℤ} (h : s.deleteUser uid = .ok s') {target : Target}
    (htarget : target ∈ s.goneWith uid) : s'.isTarget target = false := by
  obtain ⟨groups', hgroups', rfl⟩ := deleteUser_eq_ok h
  obtain ⟨-, rfl⟩ := State.deleteUser_eq_ok_iff.1 hgroups'
  rcases List.mem_cons.1 htarget with rfl | htarget
  · show ((s.groups.users.erase uid).get uid).isSome = false
    rw [OrderedMap.get_erase, if_pos rfl]
    rfl
  · obtain ⟨gid, hgid, rfl⟩ := List.mem_map.1 htarget
    obtain ⟨group, hgroup, hty⟩ := mem_removedGroupsId.1 hgid
    show ((s.groups.groups.filterMapValues fun _ ↦ CacheGroup.deleteUser uid).get
      gid).isSome = false
    rw [OrderedMap.get_filterMapValues, hgroup, Option.bind_some, CacheGroup.deleteUser, hty]
    show (if uid = uid then _ else _ : Option CacheGroup).isSome = false
    rw [if_pos rfl]
    rfl

theorem cachedIndex_deleteUser {uid : ℤ} (h : s.deleteUser uid = .ok s') (u : ℤ)
    (target : Target) : s'.cachedIndex u target =
      if u = uid ∨ target ∈ s.goneWith uid then none else s.cachedIndex u target := by
  obtain ⟨groups', -, rfl⟩ := deleteUser_eq_ok h
  show (if u = uid then none else (s.cached u).map _).bind _ = _
  by_cases hu : u = uid
  · rw [if_pos hu, if_pos (.inl hu)]
    rfl
  · have hws : (.readIndex (.user uid) none ::
        (s.removedGroupsId uid).map fun gid ↦ Write.readIndex (.group gid) none) =
          (s.goneWith uid).map fun t ↦ .readIndex t none := by
      rw [goneWith, List.map_cons, List.map_map]
      rfl
    rw [if_neg hu, Option.bind_map, hws, cachedIndex]
    cases s.cached u with
    | none => exact (ite_self _).symm
    | some st =>
      show (st.writeAll _).readIndex target = _
      rw [Settings.writeAll_readIndex]
      exact if_congr (or_iff_right hu).symm rfl rfl

theorem storedIndex_deleteUser {uid : ℤ} (h : s.deleteUser uid = .ok s') (u : ℤ)
    (target : Target) : s'.storedIndex u target =
      if u = uid ∨ target = .user uid then none else s.storedIndex u target := by
  obtain ⟨groups', -, rfl⟩ := deleteUser_eq_ok h
  show Settings.readIndex (if u = uid then .empty else (s.tables u).cascade (.user uid)) target = _
  by_cases hu : u = uid
  · rw [if_pos hu, if_pos (.inl hu)]
    rfl
  · rw [if_neg hu]
    show Function.update (s.tables u).readIndex (.user uid) none target = _
    rw [Function.update_apply]
    exact if_congr (or_iff_right hu).symm rfl rfl

theorem deleteUser_keeps (hs : s.Inv) {uid : ℤ} (h : s.deleteUser uid = .ok s') :
    s.Keeps s' := by
  have hself : s'.hasUser uid = false := isTarget_deleteUser h List.mem_cons_self
  have hgone {u : ℤ} {target : Target} (hor : u = uid ∨ target ∈ s.goneWith uid) :
      ¬(s'.hasUser u = true ∧ s'.isTarget target = true) := by
    rintro ⟨huser, htarget⟩
    rcases hor with rfl | hmem
    · rw [hself] at huser
      cases huser
    · rw [isTarget_deleteUser h hmem] at htarget
      cases htarget
  refine ⟨fun target ht ↦ ?_, fun target ht ↦ ?_, fun u target ↦ ?_, fun u target ↦ ?_⟩
  · obtain ⟨groups', hgroups', rfl⟩ := deleteUser_eq_ok h
    obtain ⟨-, rfl⟩ := State.deleteUser_eq_ok_iff.1 hgroups'
    cases target with
    | user v => exact ht
    | group g => exact ht
  · obtain ⟨groups', hgroups', rfl⟩ := deleteUser_eq_ok h
    have hgrows : s.groups.Grows groups' :=
      State.request_grows (a := .deleteUser uid) hs.groups hgroups'
    obtain ⟨-, rfl⟩ := State.deleteUser_eq_ok_iff.1 hgroups'
    cases target with
    | user v =>
      have huser : ((s.groups.users.erase uid).get v).isSome = true := ht
      rw [OrderedMap.get_erase] at huser
      split at huser
      · cases huser
      · exact .inl huser
    | group g => exact (hgrows.2 g ht).imp_right fun hle ↦ not_lt.2 hle
  · rw [cachedIndex_deleteUser h]
    split
    · rename_i hor
      exact .inr ⟨rfl, hgone hor⟩
    · exact .inl rfl
  · rw [storedIndex_deleteUser h]
    split
    · rename_i hor
      refine .inr ⟨rfl, hgone (hor.imp_right fun heq ↦ ?_)⟩
      rw [heq]
      exact List.mem_cons_self
    · exact .inl rfl

/-- What the other requests do to the indexes. -/
theorem request_keeps (hs : s.Inv) (h : s.request a = .ok s')
    (hother : ∀ token req, a ≠ .updateReadIndex token req) : s.Keeps s' := by
  cases a with
  | tick seconds =>
    obtain rfl := Except.ok.inj h
    exact .of_eq (fun _ _ ↦ rfl) (fun _ _ ↦ rfl) ⟨rfl, rfl⟩ (State.grows_refl _)
  | cleanMute =>
    obtain rfl := Except.ok.inj h
    refine .of_eq (fun uid target ↦ ?_) (fun _ _ ↦ rfl) ⟨rfl, rfl⟩ (State.grows_refl _)
    show ((s.cached uid).map _).bind _ = _
    rw [Option.bind_map]
    rfl
  | mute token req =>
    simp only [request, mute, bind_eq_ok, okOr_eq_ok, ensure_eq_ok, exists_unit, pure_eq_ok] at h
    obtain ⟨-, -, -, -, st, -, rfl⟩ := h
    refine write_keeps token.uid fun w hw target value heq ↦ ?_
    subst heq
    simp at hw
  | updateBurnAfterReading token req =>
    simp only [request, updateBurnAfterReading, bind_eq_ok, okOr_eq_ok, ensure_eq_ok, exists_unit,
      pure_eq_ok] at h
    obtain ⟨-, -, st, -, rfl⟩ := h
    refine write_keeps token.uid fun w hw target value heq ↦ ?_
    subst heq
    simp at hw
  | updateReadIndex token req => exact absurd rfl (hother token req)
  | putDevice uid device deviceToken =>
    simp only [request, putDevice, bind_eq_ok, okOr_eq_ok, pure_eq_ok] at h
    obtain ⟨st, -, rfl⟩ := h
    exact write_keeps uid (by simp)
  | logout token =>
    simp only [request, logout, bind_eq_ok, okOr_eq_ok, pure_eq_ok] at h
    obtain ⟨st, -, rfl⟩ := h
    exact write_keeps token.uid (by simp)
  | deleteDevice token device =>
    simp only [request, deleteDevice, bind_eq_ok, ensure_eq_ok, exists_unit, pure_eq_ok] at h
    obtain ⟨-, rfl⟩ := h
    exact write_keeps token.uid (by simp)
  | updateDeviceToken token deviceToken =>
    simp only [request, updateDeviceToken, bind_eq_ok, okOr_eq_ok, pure_eq_ok] at h
    obtain ⟨st, -, rfl⟩ := h
    exact write_keeps token.uid (by simp)
  | groups a =>
    have hgroups {groups' : State} (hgroups' : s.groups.request a = .ok groups')
        (hsame : s.groups.SameUsers groups') : s.Keeps { s with groups := groups' } :=
      .of_eq (fun _ _ ↦ rfl) (fun _ _ ↦ rfl) hsame (State.request_grows hs.groups hgroups')
    cases a with
    | createUser isGuest =>
      obtain rfl := Except.ok.inj h
      exact createUser_keeps hs isGuest
    | deleteUser uid => exact deleteUser_keeps hs h
    | delete token gid => exact deleteGroup_keeps hs h
    | _ =>
      obtain ⟨groups', hgroups', h⟩ := bind_eq_ok.1 h
      obtain rfl := pure_eq_ok.1 h
      refine hgroups hgroups' (State.request_sameUsers hs.groups hgroups' ?_ ?_) <;>
        exact fun _ heq ↦ by cases heq

end SettingsSystem

end Groups

end VoceChat
