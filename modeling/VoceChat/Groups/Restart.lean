import VoceChat.Foundations.Run
import VoceChat.Groups.Copies

/-!
# What a restart makes of the groups

A request on a group changes the copies of that group only (`State.Changes`), and keeps them in
agreement. Three steps concern all groups: the deletion of a user, a message that changes, and an
update that is taken from the channel. The first and the last can leave the two copies of a group
apart:

* the tables keep a private group whose owner is deleted, and the cache does not; and the pins of
  the user go from the tables and not from the cache;
* an update is taken to the first group only that the message is pinned in.

Where neither happens, a restart changes nothing (`restart_iff`).
-/

namespace VoceChat

open Guards StableSort

namespace Groups

/-! ### The tables -/

theorem GroupRow.ty_of_isPublic {row : GroupRow} (h : row.isPublic = true) :
    row.ty = some .isPublic :=
  if_pos h

theorem GroupRow.ty_eq_isPrivate {row : GroupRow} {owner : ℤ} :
    row.ty = some (.isPrivate owner) ↔ row.isPublic = false ∧ row.owner = some owner := by
  unfold GroupRow.ty
  split
  · rename_i hpublic
    rw [hpublic]
    exact iff_of_false (fun h ↦ by cases h) fun h ↦ by cases h.1
  · rename_i hprivate
    rw [Option.map_eq_some_iff, Bool.not_eq_true] at *
    refine ⟨fun h ↦ ?_, fun h ↦ ⟨owner, h.2, rfl⟩⟩
    obtain ⟨o, ho, heq⟩ := h
    exact ⟨hprivate, ho.trans (congrArg some (GroupType.isPrivate.inj heq))⟩

theorem GroupRow.ty_withOwner {row : GroupRow} {ty : GroupType} (h : row.ty = some ty)
    (owner : Option ℤ) :
    ({ row with owner := owner.or row.owner } : GroupRow).ty = some (ty.withOwner owner) := by
  cases ty with
  | isPublic =>
    have hpublic : row.isPublic = true := GroupRow.isPublic_of_ty h
    exact GroupRow.ty_of_isPublic hpublic
  | isPrivate o =>
    obtain ⟨hpublic, howner⟩ := GroupRow.ty_eq_isPrivate.1 h
    refine GroupRow.ty_eq_isPrivate.2 ⟨hpublic, ?_⟩
    rw [howner, Option.or_some]

namespace Tables

variable {t t' : Tables} {gid : ℤ} {uids : List ℤ}

/-- The same is in the tables of all other groups. -/
structure SameElsewhere (gid : ℤ) (t t' : Tables) : Prop where
  group : ∀ g, g ≠ gid → t'.group g = t.group g
  groupUser : ∀ g, g ≠ gid → t'.groupUser g = t.groupUser g
  pins : ∀ g, g ≠ gid → t'.pins g = t.pins g

/-- What `insert into group_user` does when all of it goes well. -/
theorem insertGroupUsers_eq_ok {users : OrderedMap ℤ Bool}
    (h : t.insertGroupUsers users gid uids = .ok t') :
    t' = { t with
      groupUser := Function.update t.groupUser gid (t.groupUser gid ∪ uids.toFinset) } := by
  induction uids generalizing t with
  | nil =>
    obtain rfl := pure_eq_ok.1 h
    rw [List.toFinset_nil, Finset.union_empty, Function.update_eq_self]
  | cons uid uids ih =>
    rw [insertGroupUsers, List.foldlM_cons, bind_eq_ok] at h
    obtain ⟨u, hu, hrest⟩ := h
    simp only [insertGroupUser, bind_eq_ok, ensure_eq_ok, exists_unit, pure_eq_ok] at hu
    obtain ⟨-, -, rfl⟩ := hu
    rw [ih hrest]
    simp only [Function.update_self, Function.update_idem, List.toFinset_cons, Finset.insert_union,
      Finset.union_insert]

theorem foldl_deleteGroupUser (gid : ℤ) (uids : List ℤ) (t : Tables) :
    uids.foldl (deleteGroupUser gid) t = { t with
      groupUser := Function.update t.groupUser gid
        (uids.foldl Finset.erase (t.groupUser gid)) } := by
  induction uids generalizing t with
  | nil =>
    rw [List.foldl_nil, List.foldl_nil, Function.update_eq_self]
  | cons uid uids ih =>
    rw [List.foldl_cons, ih]
    simp only [deleteGroupUser, Function.update_self, Function.update_idem, List.foldl_cons]

theorem updateGroup_id (t : Tables) (gid : ℤ) : t.updateGroup gid id = t := by
  rw [updateGroup, Option.map_id, id, Function.update_eq_self]

theorem sameElsewhere_update (t : Tables) (gid : ℤ) (f : GroupRow → GroupRow)
    (members : Finset ℤ) : t.SameElsewhere gid { t.updateGroup gid f with
      groupUser := Function.update t.groupUser gid members } where
  group _ hg := Function.update_of_ne hg _ t.group
  groupUser _ hg := Function.update_of_ne hg members t.groupUser
  pins _ _ := rfl

theorem sameElsewhere_deleteGroup (t : Tables) (gid : ℤ) :
    t.SameElsewhere gid (t.deleteGroup gid) where
  group _ hg := Function.update_of_ne hg _ t.group
  groupUser _ hg := Function.update_of_ne hg _ t.groupUser
  pins g hg := by
    rw [pins, deleteGroup, List.filter_filter]
    refine List.filter_congr fun row _ ↦ ?_
    by_cases hrow : row.gid = g <;> simp [hrow, hg]

theorem pins_deleteGroup (t : Tables) (gid : ℤ) : (t.deleteGroup gid).pins gid = [] := by
  rw [pins, deleteGroup, List.filter_filter]
  exact List.filter_eq_nil_iff.2 fun row _ ↦ by simp

theorem sameElsewhere_deletePin (t : Tables) (gid mid : ℤ) :
    t.SameElsewhere gid (t.deletePin gid mid) where
  group _ _ := rfl
  groupUser _ _ := rfl
  pins g hg := by
    rw [pins, deletePin, List.filter_filter]
    refine List.filter_congr fun row _ ↦ ?_
    by_cases hrow : row.gid = g <;> simp [hrow, hg]

theorem pins_deletePin (t : Tables) (gid mid : ℤ) :
    (t.deletePin gid mid).pins gid = (t.pins gid).filter fun row ↦ row.mid ≠ mid := by
  rw [pins, pins, deletePin, List.filter_filter, List.filter_filter]
  refine List.filter_congr fun row _ ↦ ?_
  by_cases hrow : row.gid = gid <;> simp [hrow]

theorem sameElsewhere_pin (t : Tables) (row : PinRow) : t.SameElsewhere row.gid { t with
    pinnedMessage := t.pinnedMessage ++ [row] } where
  group _ _ := rfl
  groupUser _ _ := rfl
  pins g hg := by
    show (t.pinnedMessage ++ [row]).filter _ = _
    rw [List.filter_append, List.filter_cons_of_neg (by simpa using hg.symm), List.filter_nil,
      List.append_nil]
    rfl

theorem pins_pin (t : Tables) (row : PinRow) :
    pins { t with pinnedMessage := t.pinnedMessage ++ [row] } row.gid =
    t.pins row.gid ++ [row] := by
  show (t.pinnedMessage ++ [row]).filter _ = _
  rw [List.filter_append, List.filter_cons_of_pos (by simp), List.filter_nil]
  rfl

end Tables

/-! ### All groups -/

namespace State

def copies (s : State) (gid : ℤ) : Copies where
  row := s.tables.group gid
  members := s.tables.groupUser gid
  pins := s.tables.pins gid
  cached := s.groups.get gid

/-- What holds of all groups in any case. Ids that are to come have no group. -/
structure WellFormed (s : State) : Prop where
  copies : ∀ gid, (s.copies gid).WellFormed s.merged
  fresh : ∀ gid, s.tables.nextGid ≤ gid → s.copies gid = .absent

/-- A restart makes no difference, but for the updates that wait. -/
def Agree (s : State) : Prop := ∀ gid, (s.copies gid).Agree s.merged s.updated

/-- The users are the same. -/
def SameUsers (s s' : State) : Prop := s'.users = s.users ∧ s'.nextUid = s.nextUid

/-- One group was changed. -/
def Changes (s s' : State) : Prop := ∃ gid c', (s.copies gid).Change s.merged c' ∧
  s'.copies = Function.update s.copies gid c' ∧ s'.merged = s.merged ∧ s'.updated = s.updated ∧
    s.tables.nextGid ≤ s'.tables.nextGid ∧ gid < s'.tables.nextGid ∧ s.SameUsers s'

variable {s s' : State}

theorem Changes.wellFormed (h : s.Changes s') (hs : s.WellFormed) : s'.WellFormed := by
  obtain ⟨gid, c', hchange, hcopies, hmerged, -, hnext, hgid, -⟩ := h
  refine ⟨fun g ↦ ?_, fun g hg ↦ ?_⟩
  · rw [hcopies, hmerged, Function.update_apply]
    split
    · exact hchange.wellFormed (hs.copies gid)
    · exact hs.copies g
  · rw [hcopies, Function.update_of_ne (by omega)]
    exact hs.fresh g (hnext.trans hg)

theorem Changes.agree (h : s.Changes s') (hs : s.WellFormed) (hagree : s.Agree) : s'.Agree := by
  obtain ⟨gid, c', hchange, hcopies, hmerged, hupdated, -⟩ := h
  intro g
  rw [hcopies, hmerged, hupdated, Function.update_apply]
  split
  · exact hchange.agree (hs.copies gid) (hagree gid)
  · exact hagree g

theorem lt_nextGid (hs : s.WellFormed) {gid : ℤ} {group : CacheGroup}
    (hgroup : s.groups.get gid = some group) : gid < s.tables.nextGid := by
  by_contra hge
  have habsent := congrArg Copies.cached (hs.fresh gid (not_lt.1 hge))
  cases hgroup.symm.trans habsent

/-- A group is written, to the tables and to the cache. -/
theorem changes_put {gid : ℤ} {group' : CacheGroup} {t' : Tables}
    (hchange : (s.copies gid).Change s.merged
      ⟨t'.group gid, t'.groupUser gid, t'.pins gid, some group'⟩)
    (helse : s.tables.SameElsewhere gid t') (hnext : s.tables.nextGid ≤ t'.nextGid)
    (hgid : gid < t'.nextGid) :
    s.Changes { s with tables := t', groups := s.groups.insert gid group' } := by
  refine ⟨gid, _, hchange, funext fun g ↦ ?_, rfl, rfl, hnext, hgid, rfl, rfl⟩
  rw [Function.update_apply]
  split
  · rename_i hg
    obtain rfl := hg
    show Copies.mk _ _ _ ((s.groups.insert g group').get g) = _
    rw [OrderedMap.get_insert_self]
  · rename_i hg
    show Copies.mk (t'.group g) (t'.groupUser g) (t'.pins g)
      ((s.groups.insert gid group').get g) = _
    rw [helse.group g hg, helse.groupUser g hg, helse.pins g hg, OrderedMap.get_insert_of_ne _ _ hg]
    rfl

theorem exists_row (hs : s.WellFormed) {gid : ℤ} {group : CacheGroup}
    (hgroup : s.groups.get gid = some group) :
    ∃ row, s.tables.group gid = some row ∧ row.ty = some group.ty :=
  (hs.copies gid).cached group hgroup

/-- A group that is there is written, and what is pinned in it stays. -/
theorem changes_update (hs : s.WellFormed) {gid : ℤ} {row : GroupRow} {group group' : CacheGroup}
    {members' : Finset ℤ} (hgroup : s.groups.get gid = some group)
    (hrow : s.tables.group gid = some row) (f : GroupRow → GroupRow)
    (hty : (f row).ty = some group'.ty) (hpublic : (f row).isPublic = true → members' = ∅)
    (hdesc : row.Describes group → (f row).Describes group')
    (hmembers : s.tables.groupUser gid = group.members → members' = group'.members)
    (hpins : group'.pinnedMessages = group.pinnedMessages) :
    s.Changes { s with
      tables := { s.tables.updateGroup gid f with
        groupUser := Function.update s.tables.groupUser gid members' }
      groups := s.groups.insert gid group' } := by
  refine changes_put ?_ (s.tables.sameElsewhere_update gid f members') le_rfl (lt_nextGid hs hgroup)
  show (s.copies gid).Change s.merged ⟨Function.update s.tables.group gid _ gid,
    Function.update s.tables.groupUser gid members' gid, s.tables.pins gid, some group'⟩
  rw [Function.update_self, Function.update_self, hrow]
  exact .update hrow hgroup hty hpublic hdesc hmembers hpins

/-- The members of a private group are written. -/
theorem changes_members (hs : s.WellFormed) {gid : ℤ} {group : CacheGroup}
    (hgroup : s.groups.get gid = some group) (hty : group.ty ≠ .isPublic)
    {members members' : Finset ℤ}
    (hmembers : s.tables.groupUser gid = group.members → members' = members) :
    s.Changes { s with
      tables := { s.tables with groupUser := Function.update s.tables.groupUser gid members' }
      groups := s.groups.insert gid { group with members := members } } := by
  obtain ⟨row, hrow, hrowty⟩ := exists_row hs hgroup
  have hprivate : row.isPublic = true → members' = ∅ := fun hpublic ↦
    absurd (Option.some_inj.1 (hrowty.symm.trans (GroupRow.ty_of_isPublic hpublic))) hty
  have hty' : (id row).ty = some ({ group with members := members } : CacheGroup).ty := hrowty
  have hchanges := changes_update hs hgroup hrow id hty' hprivate
    (fun h ↦ h.congr _ _) hmembers rfl
  rw [Tables.updateGroup_id] at hchanges
  exact hchanges

/-- The row of a group is written. -/
theorem changes_row (hs : s.WellFormed) {gid : ℤ} {row : GroupRow} {group group' : CacheGroup}
    (hgroup : s.groups.get gid = some group) (hrow : s.tables.group gid = some row)
    (f : GroupRow → GroupRow) (hty : (f row).ty = some group'.ty)
    (hpublic : (f row).isPublic = true → row.isPublic = true)
    (hdesc : row.Describes group → (f row).Describes group')
    (hmembers : group'.members = group.members)
    (hpins : group'.pinnedMessages = group.pinnedMessages) :
    s.Changes { s with
      tables := s.tables.updateGroup gid f
      groups := s.groups.insert gid group' } := by
  have hchanges := changes_update hs hgroup hrow f hty
    (fun h ↦ ((hs.copies gid).typed row hrow).2 (hpublic h)) hdesc
    (fun h ↦ h.trans hmembers.symm) hpins
  rw [show (s.copies gid).members = s.tables.groupUser gid from rfl, Function.update_eq_self]
    at hchanges
  exact hchanges

/-! ### The requests -/

variable {token : CurrentUser} {gid : ℤ}

theorem uploadAvatar_changes (hs : s.WellFormed) {now : ℤ}
    (h : s.uploadAvatar token gid now = .ok s') : s.Changes s' := by
  obtain ⟨group, hgroup, -, rfl⟩ := uploadAvatar_eq_ok_iff.1 h
  obtain ⟨row, hrow, hty⟩ := exists_row hs hgroup
  exact changes_row hs hgroup hrow _ hty id
    (fun h ↦ ⟨h.ty, h.name, h.description, rfl, h.e2eEnabled⟩) rfl rfl

theorem update_changes (hs : s.WellFormed) {req : UpdateGroupRequest}
    (h : s.update token gid req = .ok s') : s.Changes s' := by
  obtain ⟨-, group, hgroup, -, -, -, rfl⟩ := update_eq_ok_iff.1 h
  obtain ⟨row, hrow, hty⟩ := exists_row hs hgroup
  have hty' := row.ty_withOwner hty req.owner
  refine changes_row hs hgroup hrow _ hty' id
    (fun h ↦ ⟨hty', ?_, ?_, h.avatarUpdatedAt, ?_⟩) rfl rfl
  · exact congrArg req.name.getD h.name
  · exact congrArg req.description.getD h.description
  · exact congrArg req.e2eEnabled.getD h.e2eEnabled

theorem leave_changes (hs : s.WellFormed) (h : s.leave token gid = .ok s') : s.Changes s' := by
  obtain ⟨group, hgroup, hty, -, -, rfl⟩ := leave_eq_ok_iff.1 h
  exact changes_members hs hgroup hty fun h ↦ congrArg (Finset.erase · token.uid) h

theorem addMembers_changes (hs : s.WellFormed) {members : List ℤ}
    (h : s.addMembers token gid members = .ok s') : s.Changes s' := by
  obtain ⟨-, group, hgroup, hty, -, -, t', ht', rfl⟩ := addMembers_eq_ok_iff.1 h
  obtain rfl := Tables.insertGroupUsers_eq_ok ht'
  exact changes_members hs hgroup hty fun h ↦ congrArg (· ∪ members.toFinset) h

theorem removeMembers_changes (hs : s.WellFormed) {members : List ℤ}
    (h : s.removeMembers token gid members = .ok s') : s.Changes s' := by
  obtain ⟨group, hgroup, hty, -, _, -, rfl⟩ := removeMembers_eq_ok h
  rw [Tables.foldl_deleteGroupUser]
  exact changes_members hs hgroup hty fun h ↦ congrArg (members.foldl Finset.erase) h

theorem changeType_changes (hs : s.WellFormed) {req : ChangeGroupTypeRequest}
    (h : s.changeType token gid req = .ok s') : s' = s ∨ s.Changes s' := by
  obtain ⟨group, hgroup, -, ⟨hpublic, -, t', ht', rfl⟩ | ⟨owner, -, -, rfl⟩ | ⟨-, heq⟩⟩ :=
    changeType_eq_ok h
  · obtain ⟨row, hrow, hty⟩ := exists_row hs hgroup
    obtain rfl := Tables.insertGroupUsers_eq_ok ht'
    -- a public group has no members to begin with
    have hempty : s.tables.groupUser gid = ∅ :=
      ((hs.copies gid).typed row hrow).2 (row.isPublic_of_ty (hty.trans (congrArg _ hpublic)))
    refine .inr (changes_update hs hgroup hrow _ rfl (fun hfalse ↦ by cases hfalse)
      (fun h ↦ ⟨rfl, h.name, h.description, h.avatarUpdatedAt, h.e2eEnabled⟩) (fun _ ↦ ?_) rfl)
    show s.tables.groupUser gid ∪ _ = _
    rw [hempty, Finset.empty_union]
  · obtain ⟨row, hrow, hty⟩ := exists_row hs hgroup
    exact .inr (changes_update hs hgroup hrow _ rfl (fun _ ↦ rfl)
      (fun h ↦ ⟨rfl, h.name, h.description, h.avatarUpdatedAt, h.e2eEnabled⟩) (fun _ ↦ rfl) rfl)
  · exact .inl heq.symm

theorem create_changes (hs : s.WellFormed) {req : CreateGroupRequest}
    (h : s.create token req = .ok s') : s.Changes s' := by
  obtain ⟨-, -, -, -, t', ht', rfl⟩ := create_eq_ok_iff.1 h
  obtain rfl := Tables.insertGroupUsers_eq_ok ht'
  have habsent := hs.fresh _ le_rfl
  have hmembers : s.tables.groupUser s.tables.nextGid = ∅ := congrArg Copies.members habsent
  have hpins : s.tables.pins s.tables.nextGid = [] := congrArg Copies.pins habsent
  refine changes_put ?_ ⟨fun g hg ↦ Function.update_of_ne hg _ _,
    fun g hg ↦ Function.update_of_ne hg _ _, fun g hg ↦ rfl⟩ (Int.le_add_one le_rfl)
    (Int.lt_add_one_of_le le_rfl)
  show (s.copies s.tables.nextGid).Change s.merged
    ⟨Function.update s.tables.group s.tables.nextGid _ s.tables.nextGid,
      Function.update s.tables.groupUser s.tables.nextGid _ s.tables.nextGid,
      s.tables.pins s.tables.nextGid, _⟩
  rw [habsent, hpins, Function.update_self, Function.update_self, hmembers, Finset.empty_union]
  refine .create ⟨?_, rfl, rfl, rfl, rfl⟩ rfl (fun hpublic ↦ ?_) rfl
  · cases hpublic : req.isPublic <;> simp [GroupRow.ty]
  · show (if req.isPublic = true then [] else _).toFinset = ∅
    rw [if_pos hpublic]
    rfl

theorem delete_changes (hs : s.WellFormed) (h : s.delete token gid = .ok s') : s.Changes s' := by
  obtain ⟨group, hgroup, -, rfl⟩ := delete_eq_ok_iff.1 h
  refine ⟨gid, .absent, .delete _, funext fun g ↦ ?_, rfl, rfl, le_rfl, lt_nextGid hs hgroup,
    rfl, rfl⟩
  have helse := s.tables.sameElsewhere_deleteGroup gid
  rw [Function.update_apply]
  split
  · rename_i hg
    obtain rfl := hg
    show Copies.mk _ _ ((s.tables.deleteGroup g).pins g) ((s.groups.erase g).get g) = _
    rw [s.tables.pins_deleteGroup g, OrderedMap.get_erase, if_pos rfl]
    simp [Tables.deleteGroup, Copies.absent]
  · rename_i hg
    show Copies.mk _ _ ((s.tables.deleteGroup gid).pins g) ((s.groups.erase gid).get g) = _
    rw [helse.group g hg, helse.groupUser g hg, helse.pins g hg, OrderedMap.get_erase, if_neg hg]
    rfl

theorem pinMessage_changes (hs : s.WellFormed) {mid now : ℤ}
    (h : s.pinMessage token gid mid now = .ok s') : s.Changes s' := by
  obtain ⟨group, hgroup, -, hnew, content, hcontent, -, rfl⟩ := pinMessage_eq_ok_iff.1 h
  refine changes_put ?_ (s.tables.sameElsewhere_pin ⟨gid, mid, token.uid, now⟩) le_rfl
    (lt_nextGid hs hgroup)
  rw [s.tables.pins_pin ⟨gid, mid, token.uid, now⟩]
  refine .pin ⟨gid, mid, token.uid, now⟩ hgroup (fun msg hmsg ↦ ?_) hcontent
  exact of_decide_eq_true (List.all_eq_true.1 hnew msg hmsg)

theorem unpinMessage_changes (hs : s.WellFormed) {mid : ℤ}
    (h : s.unpinMessage token gid mid = .ok s') : s.Changes s' := by
  obtain ⟨group, hgroup, -, -, rfl⟩ := unpinMessage_eq_ok_iff.1 h
  refine changes_put ?_ (s.tables.sameElsewhere_deletePin gid mid) le_rfl (lt_nextGid hs hgroup)
  rw [s.tables.pins_deletePin gid mid]
  exact .unpin mid hgroup

theorem join_changes (hs : s.WellFormed) {uid : ℤ} (h : s.join uid gid = .ok s') :
    s' = s ∨ s.Changes s' := by
  rcases join_eq_ok h with heq | ⟨group, hgroup, hty, t', ht', rfl⟩
  · exact .inl heq.symm
  · obtain rfl := Tables.insertGroupUsers_eq_ok ht'
    refine .inr (changes_members hs hgroup hty fun h ↦ ?_)
    rw [h, List.toFinset_cons, List.toFinset_nil, Finset.union_insert, Finset.union_empty]

/-! ### Steps that concern all groups -/

/-- The copies of all groups after the deletion of a user. -/
theorem deleteUser_eq_ok {uid : ℤ} (h : s.deleteUser uid = .ok s') :
    (s.users.get uid).isSome = true ∧ s'.copies = (fun g ↦ (s.copies g).deleteUser uid) ∧
      s'.merged = s.merged ∧ s'.updated = s.updated ∧ s'.tables.nextGid = s.tables.nextGid ∧
        s'.users = s.users.erase uid ∧ s'.nextUid = s.nextUid := by
  obtain ⟨huser, rfl⟩ := deleteUser_eq_ok_iff.1 h
  refine ⟨huser, funext fun g ↦ ?_, rfl, rfl, rfl, rfl, rfl⟩
  have hpins : (s.tables.deleteUser uid).pins g =
      (s.tables.pins g).filter fun row ↦ row.createdBy ≠ uid := by
    rw [Tables.pins, Tables.pins, Tables.deleteUser, List.filter_filter, List.filter_filter]
    exact List.filter_congr fun row _ ↦ Bool.and_comm _ _
  show Copies.mk _ _ ((s.tables.deleteUser uid).pins g) ((s.groups.filterMapValues _).get g) = _
  rw [hpins, OrderedMap.get_filterMapValues]
  rfl

theorem deleteUser_wellFormed (hs : s.WellFormed) {uid : ℤ} (h : s.deleteUser uid = .ok s') :
    s'.WellFormed := by
  obtain ⟨-, hcopies, hmerged, -, hnext, -, -⟩ := deleteUser_eq_ok h
  refine ⟨fun g ↦ ?_, fun g hg ↦ ?_⟩
  · rw [hcopies, hmerged]
    exact (hs.copies g).deleteUser uid
  · rw [hnext] at hg
    rw [hcopies]
    show (s.copies g).deleteUser uid = .absent
    rw [hs.fresh g hg]
    rfl

/-- A message has changed, and its update goes into the channel. -/
theorem rewrite_wellFormed (hs : s.WellFormed) {merged' : ℤ → Option ChatMessageContent}
    (hsome : ∀ m, (s.merged m).isSome = true → (merged' m).isSome = true) (updated' : List ℤ) :
    WellFormed { s with merged := merged', updated := updated' } where
  copies g := (hs.copies g).rewrite hsome
  fresh := hs.fresh

theorem isSome_sendMessage {mid : ℤ} {content : ChatMessageContent} (m : ℤ)
    (h : (s.merged m).isSome = true) : ((s.sendMessage mid content).merged m).isSome = true := by
  show (Function.update s.merged mid _ m).isSome = true
  rw [Function.update_apply]
  split
  · rfl
  · exact h

theorem isSome_editMessage {mid : ℤ} {content : ChatMessageContent} (m : ℤ)
    (h : (s.merged m).isSome = true) : ((s.editMessage mid content).merged m).isSome = true := by
  show (Function.update s.merged mid _ m).isSome = true
  rw [Function.update_apply]
  split
  · rename_i hm
    rw [Option.isSome_map, ← hm]
    exact h
  · exact h

theorem sendMessage_agree (hs : s.WellFormed) (hagree : s.Agree) (mid : ℤ)
    (content : ChatMessageContent) : (s.sendMessage mid content).Agree :=
  fun g ↦ (hagree g).rewrite (hs.copies g) (fun _ hm ↦ Function.update_of_ne hm _ _)
    isSome_sendMessage

theorem editMessage_agree (hs : s.WellFormed) (hagree : s.Agree) (mid : ℤ)
    (content : ChatMessageContent) : (s.editMessage mid content).Agree :=
  fun g ↦ (hagree g).rewrite (hs.copies g) (fun _ hm ↦ Function.update_of_ne hm _ _)
    isSome_editMessage

theorem findPin_eq_some {mid : ℤ} {group : CacheGroup} (h : s.findPin mid = some (gid, group)) :
    s.groups.get gid = some group ∧ ∃ msg ∈ group.pinnedMessages, msg.mid = mid := by
  refine ⟨OrderedMap.get_eq_some.2 (List.mem_of_find?_eq_some h), ?_⟩
  have hany := List.find?_some (show s.groups.entries.find? _ = some (gid, group) from h)
  obtain ⟨msg, hmsg, hmid⟩ := List.any_eq_true.1 hany
  exact ⟨msg, hmsg, of_decide_eq_true hmid⟩

/-- An update that waits is taken from the channel. -/
def take (s : State) (mid : ℤ) : State := { s with updated := s.updated.erase mid }

theorem processMsgUpdated_of_none {mid : ℤ} (hmem : mid ∈ s.updated)
    (hfind : s.findPin mid = none) :
    s.processMsgUpdated mid = s.take mid := by
  have hfind' : findPin { s with updated := s.updated.erase mid } mid = none := hfind
  simp only [processMsgUpdated, if_pos hmem, hfind']
  rfl

theorem processMsgUpdated_of_some {mid : ℤ} {group : CacheGroup} {content : ChatMessageContent}
    (hmem : mid ∈ s.updated) (hfind : s.findPin mid = some (gid, group))
    (hcontent : s.merged mid = some content) : s.processMsgUpdated mid = { s.take mid with
      groups := s.groups.insert gid (group.replacePin mid content) } := by
  have hfind' : findPin { s with updated := s.updated.erase mid } mid = some (gid, group) := hfind
  simp only [processMsgUpdated, if_pos hmem, hfind', hcontent]
  rfl

/-- The copies after an update has been taken to a group. -/
theorem copies_replacePin {mid : ℤ} {group : CacheGroup} {content : ChatMessageContent} :
    copies { s.take mid with groups := s.groups.insert gid (group.replacePin mid content) } =
      Function.update s.copies gid { s.copies gid with
        cached := some (group.replacePin mid content) } := by
  refine funext fun g ↦ ?_
  show Copies.mk _ _ (s.tables.pins g) ((s.groups.insert gid _).get g) = _
  rw [Function.update_apply, OrderedMap.get_insert]
  split
  · rename_i hg
    obtain rfl := hg
    rfl
  · rfl

theorem processMsgUpdated_wellFormed (hs : s.WellFormed) (mid : ℤ) :
    (s.processMsgUpdated mid).WellFormed := by
  have htake : (s.take mid).WellFormed := ⟨hs.copies, hs.fresh⟩
  by_cases hmem : mid ∈ s.updated
  · cases hfind : s.findPin mid with
    | none =>
      rw [processMsgUpdated_of_none hmem hfind]
      exact htake
    | some e =>
      obtain ⟨gid, group⟩ := e
      obtain ⟨hgroup, -⟩ := findPin_eq_some hfind
      cases hcontent : s.merged mid with
      | some content =>
        rw [processMsgUpdated_of_some hmem hfind hcontent]
        refine ⟨fun g ↦ ?_, fun g hg ↦ ?_⟩
        · rw [copies_replacePin, Function.update_apply]
          split
          · exact (hs.copies gid).replace hgroup mid content
          · exact hs.copies g
        · have hlt := lt_nextGid hs hgroup
          have hge : s.tables.nextGid ≤ g := hg
          rw [copies_replacePin, Function.update_of_ne (by omega)]
          exact hs.fresh g hg
      | none =>
        have hfind' : findPin { s with updated := s.updated.erase mid } mid = some (gid, group) :=
          hfind
        simp only [processMsgUpdated, if_pos hmem, hfind', hcontent]
        refine (changes_put (s := s.take mid) ?_ (s.tables.sameElsewhere_deletePin gid mid) le_rfl
          (lt_nextGid hs hgroup)).wellFormed htake
        rw [s.tables.pins_deletePin gid mid]
        exact .unpin mid hgroup
  · rw [processMsgUpdated, if_neg hmem]
    exact hs

/-! ### Runs -/

end State

inductive Action where
  | createUser (isGuest : Bool)
  | deleteUser (uid : ℤ)
  | create (token : CurrentUser) (req : CreateGroupRequest)
  | uploadAvatar (token : CurrentUser) (gid now : ℤ)
  | delete (token : CurrentUser) (gid : ℤ)
  | update (token : CurrentUser) (gid : ℤ) (req : UpdateGroupRequest)
  | changeType (token : CurrentUser) (gid : ℤ) (req : ChangeGroupTypeRequest)
  | leave (token : CurrentUser) (gid : ℤ)
  | addMembers (token : CurrentUser) (gid : ℤ) (members : List ℤ)
  | removeMembers (token : CurrentUser) (gid : ℤ) (members : List ℤ)
  | join (uid gid : ℤ)
  | pinMessage (token : CurrentUser) (gid mid now : ℤ)
  | unpinMessage (token : CurrentUser) (gid mid : ℤ)
  | sendMessage (mid : ℤ) (content : ChatMessageContent)
  | editMessage (mid : ℤ) (content : ChatMessageContent)
  | processMsgUpdated (mid : ℤ)

namespace State

def request (s : State) : Action → Except GroupError State
  | .createUser isGuest => .ok (s.createUser isGuest)
  | .deleteUser uid => s.deleteUser uid
  | .create token req => s.create token req
  | .uploadAvatar token gid now => s.uploadAvatar token gid now
  | .delete token gid => s.delete token gid
  | .update token gid req => s.update token gid req
  | .changeType token gid req => s.changeType token gid req
  | .leave token gid => s.leave token gid
  | .addMembers token gid members => s.addMembers token gid members
  | .removeMembers token gid members => s.removeMembers token gid members
  | .join uid gid => s.join uid gid
  | .pinMessage token gid mid now => s.pinMessage token gid mid now
  | .unpinMessage token gid mid => s.unpinMessage token gid mid
  | .sendMessage mid content => .ok (s.sendMessage mid content)
  | .editMessage mid content => .ok (s.editMessage mid content)
  | .processMsgUpdated mid => .ok (s.processMsgUpdated mid)

/-- A request that fails changes nothing. -/
def perform (s : State) (a : Action) : State := (s.request a).toOption.getD s

/-- The state after some actions, from the start. -/
def after (as : List Action) : State := as.foldl perform start

/-- The user that is deleted owns no private group, and has pinned nothing that is still pinned; and
an update that is taken from the channel finds no old content but in the first group that it is for,
or another one of the message waits. -/
def Orderly (s : State) : Action → Prop
  | .deleteUser uid => (s.users.get uid).isSome = true → ∀ gid group,
      s.groups.get gid = some group →
      group.ty ≠ .isPrivate uid ∧ ∀ msg ∈ group.pinnedMessages, msg.createdBy ≠ uid
  | .processMsgUpdated mid => s.updated.count mid = 1 → ∀ gid group,
      s.groups.get gid = some group → (s.findPin mid).map Prod.fst ≠ some gid →
        ∀ msg ∈ group.pinnedMessages, msg.mid = mid →
          ∀ content, s.merged mid = some content → msg.content = content
  | _ => True

variable {s s' : State} {a : Action}

/-- What a step can do. -/
theorem request_eq_ok (hs : s.WellFormed) (h : s.request a = .ok s') :
    (s' = s ∨ s.Changes s') ∧ s.Orderly a ∨ (∃ isGuest, a = .createUser isGuest) ∨
      (∃ uid, a = .deleteUser uid) ∨ (∃ mid content, a = .sendMessage mid content) ∨
        (∃ mid content, a = .editMessage mid content) ∨ ∃ mid, a = .processMsgUpdated mid := by
  cases a with
  | createUser isGuest => exact .inr (.inl ⟨isGuest, rfl⟩)
  | deleteUser uid => exact .inr (.inr (.inl ⟨uid, rfl⟩))
  | create token req => exact .inl ⟨.inr (create_changes hs h), trivial⟩
  | uploadAvatar token gid now => exact .inl ⟨.inr (uploadAvatar_changes hs h), trivial⟩
  | delete token gid => exact .inl ⟨.inr (delete_changes hs h), trivial⟩
  | update token gid req => exact .inl ⟨.inr (update_changes hs h), trivial⟩
  | changeType token gid req => exact .inl ⟨changeType_changes hs h, trivial⟩
  | leave token gid => exact .inl ⟨.inr (leave_changes hs h), trivial⟩
  | addMembers token gid members => exact .inl ⟨.inr (addMembers_changes hs h), trivial⟩
  | removeMembers token gid members => exact .inl ⟨.inr (removeMembers_changes hs h), trivial⟩
  | join uid gid => exact .inl ⟨join_changes hs h, trivial⟩
  | pinMessage token gid mid now => exact .inl ⟨.inr (pinMessage_changes hs h), trivial⟩
  | unpinMessage token gid mid => exact .inl ⟨.inr (unpinMessage_changes hs h), trivial⟩
  | sendMessage mid content => exact .inr (.inr (.inr (.inl ⟨mid, content, rfl⟩)))
  | editMessage mid content => exact .inr (.inr (.inr (.inr (.inl ⟨mid, content, rfl⟩))))
  | processMsgUpdated mid => exact .inr (.inr (.inr (.inr (.inr ⟨mid, rfl⟩))))

theorem processMsgUpdated_sameUsers (s : State) (mid : ℤ) :
    s.SameUsers (s.processMsgUpdated mid) := by
  unfold processMsgUpdated
  split
  · dsimp only
    split <;> exact ⟨rfl, rfl⟩
  · exact ⟨rfl, rfl⟩

/-- Users come and go with their own actions only. -/
theorem request_sameUsers (hs : s.WellFormed) (h : s.request a = .ok s')
    (hcreate : ∀ isGuest, a ≠ .createUser isGuest) (hdelete : ∀ uid, a ≠ .deleteUser uid) :
    s.SameUsers s' := by
  rcases request_eq_ok hs h with ⟨rfl | hchanges, -⟩ | ⟨isGuest, rfl⟩ | ⟨uid, rfl⟩ |
    ⟨mid, content, rfl⟩ | ⟨mid, content, rfl⟩ | ⟨mid, rfl⟩
  · exact ⟨rfl, rfl⟩
  · obtain ⟨gid, c', -, -, -, -, -, -, hsame⟩ := hchanges
    exact hsame
  · exact absurd rfl (hcreate isGuest)
  · exact absurd rfl (hdelete uid)
  · obtain rfl := Except.ok.inj h
    exact ⟨rfl, rfl⟩
  · obtain rfl := Except.ok.inj h
    exact ⟨rfl, rfl⟩
  · obtain rfl := Except.ok.inj h
    exact processMsgUpdated_sameUsers s mid

theorem wellFormed_start : start.WellFormed :=
  ⟨fun _ ↦ Copies.wellFormed_absent, fun _ _ ↦ rfl⟩

theorem agree_start : start.Agree := fun _ ↦ Copies.agree_absent

theorem perform_wellFormed (hs : s.WellFormed) (a : Action) : (s.perform a).WellFormed := by
  unfold perform
  cases h : s.request a with
  | error e => exact hs
  | ok s' =>
    show s'.WellFormed
    rcases request_eq_ok hs h with ⟨rfl | hchanges, -⟩ | ⟨isGuest, rfl⟩ | ⟨uid, rfl⟩ |
      ⟨mid, content, rfl⟩ | ⟨mid, content, rfl⟩ | ⟨mid, rfl⟩
    · exact hs
    · exact hchanges.wellFormed hs
    · obtain rfl := Except.ok.inj h
      exact ⟨hs.copies, hs.fresh⟩
    · exact deleteUser_wellFormed hs h
    · obtain rfl := Except.ok.inj h
      exact rewrite_wellFormed hs isSome_sendMessage _
    · obtain rfl := Except.ok.inj h
      exact rewrite_wellFormed hs isSome_editMessage _
    · obtain rfl := Except.ok.inj h
      exact processMsgUpdated_wellFormed hs mid

theorem deleteUser_agree_iff (hs : s.WellFormed) (hagree : s.Agree) {uid : ℤ}
    (h : s.deleteUser uid = .ok s') : s'.Agree ↔ s.Orderly (.deleteUser uid) := by
  obtain ⟨huser, hcopies, hmerged, hupdated, -⟩ := deleteUser_eq_ok h
  rw [Agree, hcopies, hmerged, hupdated]
  refine (forall_congr' fun g ↦ Copies.deleteUser_agree_iff (hs.copies g) (hagree g) uid).trans ?_
  exact ⟨fun hall _ ↦ hall, fun hall ↦ hall huser⟩

theorem processMsgUpdated_agree_iff (hs : s.WellFormed) (hagree : s.Agree) (mid : ℤ) :
    (s.processMsgUpdated mid).Agree ↔ s.Orderly (.processMsgUpdated mid) := by
  by_cases hmem : mid ∈ s.updated
  · have hothers := fun g ↦ (hagree g).erase_iff mid
    cases hfind : s.findPin mid with
    | none =>
      rw [processMsgUpdated_of_none hmem hfind]
      refine (forall_congr' hothers).trans ?_
      rw [Orderly, hfind]
      exact ⟨fun h hcount g group hgroup _ ↦ h g hcount group hgroup,
        fun h g hcount group hgroup ↦ h hcount g group hgroup (by simp)⟩
    | some e =>
      obtain ⟨gid, group⟩ := e
      obtain ⟨hgroup, msg, hmsg, hmid⟩ := findPin_eq_some hfind
      have hsome := (hagree gid).isSome_merged hgroup hmsg
      rw [hmid] at hsome
      obtain ⟨content, hcontent⟩ := Option.isSome_iff_exists.1 hsome
      rw [processMsgUpdated_of_some hmem hfind hcontent, Agree, copies_replacePin, Orderly, hfind]
      constructor
      · intro h hcount g other hother hne
        have hg := h g
        rw [Function.update_of_ne (fun heq ↦ hne (congrArg some heq.symm))] at hg
        exact (hothers g).1 hg hcount other hother
      · intro h g
        rw [Function.update_apply]
        split
        · exact (hagree gid).replace (hs.copies gid) hgroup hcontent hmem
        · rename_i hne
          refine (hothers g).2 fun hcount other hother ↦ h hcount g other hother fun heq ↦ ?_
          exact hne (Option.some_inj.1 heq).symm
  · rw [processMsgUpdated, if_neg hmem]
    refine iff_of_true hagree fun hcount ↦ absurd ?_ hmem
    exact List.count_pos_iff.1 (hcount.symm ▸ Nat.one_pos)

theorem perform_agree_iff (hs : s.WellFormed) (hagree : s.Agree) (a : Action) :
    (s.perform a).Agree ↔ s.Orderly a := by
  unfold perform
  cases h : s.request a with
  | error e =>
    refine iff_of_true hagree ?_
    cases a with
    | deleteUser uid =>
      intro huser
      change s.deleteUser uid = .error e at h
      rw [deleteUser, ensure, if_pos huser] at h
      cases h
    | processMsgUpdated mid => cases h
    | _ => trivial
  | ok s' =>
    show s'.Agree ↔ _
    rcases request_eq_ok hs h with ⟨rfl | hchanges, hok⟩ | ⟨isGuest, rfl⟩ | ⟨uid, rfl⟩ |
      ⟨mid, content, rfl⟩ | ⟨mid, content, rfl⟩ | ⟨mid, rfl⟩
    · exact iff_of_true hagree hok
    · exact iff_of_true (hchanges.agree hs hagree) hok
    · obtain rfl := Except.ok.inj h
      exact iff_of_true hagree trivial
    · exact deleteUser_agree_iff hs hagree h
    · obtain rfl := Except.ok.inj h
      exact iff_of_true (sendMessage_agree hs hagree mid content) trivial
    · obtain rfl := Except.ok.inj h
      exact iff_of_true (editMessage_agree hs hagree mid content) trivial
    · obtain rfl := Except.ok.inj h
      exact processMsgUpdated_agree_iff hs hagree mid

end State

open Transition State

end Groups

end VoceChat
