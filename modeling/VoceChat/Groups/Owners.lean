import VoceChat.Groups.Restart

/-!
# Owners and members

A private group in the cache has members that are users (`CacheGroup.Sound`), whatever is done. That
its owner is one of them (`CacheGroup.OwnerIn`) is checked, or seen to, by every request but one:
when a public group is made private with a list of members, whoever does so becomes the owner, and
need not be in the list (`KeepsOwner`).

All requests but the deletions put one group into the cache (`State.Puts`); each has a lemma that
says so, and what it takes for the owner to be a member.
-/

namespace VoceChat

open Guards Transition

namespace Groups

/-- The members are users, and those of a public group are not listed. -/
structure CacheGroup.Sound (users : OrderedMap ℤ Bool) (group : CacheGroup) : Prop where
  members : ∀ uid ∈ group.members, (users.get uid).isSome = true
  isPublic : group.ty = .isPublic → group.members = ∅

/-- The owner is a member. -/
def CacheGroup.OwnerIn (group : CacheGroup) : Prop :=
  ∀ owner, group.ty = .isPrivate owner → owner ∈ group.members

variable {users : OrderedMap ℤ Bool} {group group' : CacheGroup}

/-- Type and members are all that counts. -/
theorem CacheGroup.Sound.congr (h : group.Sound users) (hty : group'.ty = group.ty)
    (hmembers : group'.members = group.members) : group'.Sound users where
  members := hmembers ▸ h.members
  isPublic := by
    rw [hty, hmembers]
    exact h.isPublic

theorem CacheGroup.ownerIn_congr (hty : group'.ty = group.ty)
    (hmembers : group'.members = group.members) : group'.OwnerIn ↔ group.OwnerIn := by
  rw [OwnerIn, OwnerIn, hty, hmembers]

theorem Tables.isSome_of_insertGroupUsers {gid : ℤ} {uids : List ℤ} {t t' : Tables}
    (h : t.insertGroupUsers users gid uids = .ok t') :
    ∀ uid ∈ uids, (users.get uid).isSome = true := by
  induction uids generalizing t with
  | nil => exact fun uid huid ↦ absurd huid List.not_mem_nil
  | cons uid uids ih =>
    rw [insertGroupUsers, List.foldlM_cons, bind_eq_ok] at h
    obtain ⟨u, hu, hrest⟩ := h
    simp only [insertGroupUser, bind_eq_ok, ensure_eq_ok, exists_unit, pure_eq_ok] at hu
    intro other hother
    rcases List.mem_cons.1 hother with rfl | hother
    · exact hu.1
    · exact ih hrest other hother

theorem mem_foldl_erase {uids : List ℤ} {members : Finset ℤ} {uid : ℤ} :
    uid ∈ uids.foldl Finset.erase members ↔ uid ∈ members ∧ uid ∉ uids := by
  induction uids generalizing members with
  | nil => simp
  | cons u uids ih =>
    rw [List.foldl_cons, ih, Finset.mem_erase, List.mem_cons, not_or]
    tauto

namespace State

/-- Every private group has an owner who exists and is one of its members, and a public group has no
members listed (and no owner). -/
def Owned (s : State) : Prop := ∀ gid group, s.groups.get gid = some group →
  (∀ owner, group.ty = .isPrivate owner → (s.users.get owner).isSome = true ∧
    owner ∈ group.members) ∧
    (group.ty = .isPublic → group.members = ∅)

/-- The members of a public group that is made private, by default the users that are no guests. -/
def newMembers (s : State) (req : ChangeGroupTypeRequest) : List ℤ :=
  if req.members ≠ [] then req.members else s.regularUsers

/-- Whoever makes a public group private, and so becomes its owner, is one of its members. -/
def KeepsOwner (s : State) : Action → Prop
  | .changeType token gid req => (∃ s', s.changeType token gid req = .ok s') →
      ∀ group, s.groups.get gid = some group → group.ty = .isPublic → req.isPublic = false →
        token.uid ∈ s.newMembers req
  | _ => True

def Sound (s : State) : Prop := ∀ gid group, s.groups.get gid = some group → group.Sound s.users

/-- One group is put into the cache; its owner is a member if and only if `kept`. -/
def Puts (s s' : State) (kept : Prop) : Prop :=
  ∃ gid group', s'.groups = s.groups.insert gid group' ∧
  s'.users = s.users ∧ group'.Sound s.users ∧ (s.Owned → (group'.OwnerIn ↔ kept))

variable {s s' : State} {kept : Prop} {token : CurrentUser} {gid : ℤ}

theorem owned_iff (hs : s.Sound) :
    s.Owned ↔ ∀ gid group, s.groups.get gid = some group → group.OwnerIn := by
  refine forall_congr' fun gid ↦ forall_congr' fun group ↦ forall_congr' fun hgroup ↦ ?_
  obtain ⟨hmembers, hpublic⟩ := hs gid group hgroup
  exact ⟨fun h owner hty ↦ (h.1 owner hty).2,
    fun h ↦ ⟨fun owner hty ↦ ⟨hmembers owner (h owner hty), h owner hty⟩, hpublic⟩⟩

theorem Puts.sound (h : s.Puts s' kept) (hs : s.Sound) : s'.Sound := by
  obtain ⟨gid, group', hgroups, husers, hsound, -⟩ := h
  intro g group hgroup
  rw [hgroups, OrderedMap.get_insert] at hgroup
  rw [husers]
  split at hgroup
  · obtain rfl := Option.some_inj.1 hgroup
    exact hsound
  · exact hs g group hgroup

theorem Puts.owned_iff (h : s.Puts s' kept) (hs : s.Sound) (howned : s.Owned) :
    s'.Owned ↔ kept := by
  rw [State.owned_iff (h.sound hs)]
  obtain ⟨gid, group', hgroups, -, -, hkept⟩ := h
  rw [hgroups, ← hkept howned]
  constructor
  · exact fun hall ↦ hall gid group' (OrderedMap.get_insert_self _ _ _)
  · intro hin g group hgroup
    rw [OrderedMap.get_insert] at hgroup
    split at hgroup
    · obtain rfl := Option.some_inj.1 hgroup
      exact hin
    · exact (State.owned_iff hs).1 howned g group hgroup

/-- A group stays as it is, but for what does not count. -/
theorem puts_congr (hs : s.Sound) (hgroup : s.groups.get gid = some group)
    (hgroups : s'.groups = s.groups.insert gid group') (husers : s'.users = s.users)
    (hty : group'.ty = group.ty) (hmembers : group'.members = group.members) : s.Puts s' True := by
  refine ⟨gid, group', hgroups, husers, (hs gid group hgroup).congr hty hmembers, fun howned ↦ ?_⟩
  rw [CacheGroup.ownerIn_congr hty hmembers]
  exact iff_true_intro ((owned_iff hs).1 howned gid group hgroup)

/-! ### The requests -/

theorem uploadAvatar_puts (hs : s.Sound) {now : ℤ} (h : s.uploadAvatar token gid now = .ok s') :
    s.Puts s' True := by
  obtain ⟨group, hgroup, -, rfl⟩ := uploadAvatar_eq_ok_iff.1 h
  exact puts_congr hs hgroup rfl rfl rfl rfl

theorem pinMessage_puts (hs : s.Sound) {mid now : ℤ} (h : s.pinMessage token gid mid now = .ok s') :
    s.Puts s' True := by
  obtain ⟨group, hgroup, -, -, content, -, -, rfl⟩ := pinMessage_eq_ok_iff.1 h
  exact puts_congr hs hgroup rfl rfl rfl rfl

theorem unpinMessage_puts (hs : s.Sound) {mid : ℤ} (h : s.unpinMessage token gid mid = .ok s') :
    s.Puts s' True := by
  obtain ⟨group, hgroup, -, -, rfl⟩ := unpinMessage_eq_ok_iff.1 h
  exact puts_congr hs hgroup rfl rfl rfl rfl

/-- The new owner is checked to be a member. -/
theorem update_puts (hs : s.Sound) {req : UpdateGroupRequest}
    (h : s.update token gid req = .ok s') :
    s.Puts s' True := by
  obtain ⟨-, group, hgroup, -, -, howner, rfl⟩ := update_eq_ok_iff.1 h
  obtain ⟨hmembers, hpublic⟩ := hs gid group hgroup
  refine ⟨gid, _, rfl, rfl, ⟨hmembers, fun hty ↦ hpublic ?_⟩, fun howned ↦ iff_true_intro ?_⟩
  · cases hgty : group.ty with
    | isPublic => rfl
    | isPrivate owner =>
      change group.ty.withOwner req.owner = .isPublic at hty
      rw [hgty] at hty
      cases hty
  · intro owner hty
    have hin := (owned_iff hs).1 howned gid group hgroup
    show owner ∈ group.members
    change group.ty.withOwner req.owner = .isPrivate owner at hty
    cases hgty : group.ty with
    | isPublic =>
      rw [hgty] at hty
      cases hty
    | isPrivate old =>
      rw [hgty] at hty
      cases hreq : req.owner with
      | none =>
        rw [hreq] at hty
        exact hin owner (hgty.trans hty)
      | some new =>
        rw [hreq] at hty howner
        obtain rfl : new = owner := GroupType.isPrivate.inj hty
        simpa [CacheGroup.containsUser, hgty] using howner

/-- The owner may not leave. -/
theorem leave_puts (hs : s.Sound) (h : s.leave token gid = .ok s') : s.Puts s' True := by
  obtain ⟨group, hgroup, hty, -, howner, rfl⟩ := leave_eq_ok_iff.1 h
  obtain ⟨hmembers, -⟩ := hs gid group hgroup
  refine ⟨gid, _, rfl, rfl, ⟨fun uid huid ↦ hmembers uid (Finset.mem_of_mem_erase huid),
    fun hpublic ↦ absurd hpublic hty⟩, fun howned ↦ iff_true_intro fun owner hprivate ↦ ?_⟩
  refine Finset.mem_erase.2 ⟨fun heq ↦ howner ?_,
    (owned_iff hs).1 howned gid group hgroup _ hprivate⟩
  rw [← heq]
  exact hprivate

theorem addMembers_puts (hs : s.Sound) {members : List ℤ}
    (h : s.addMembers token gid members = .ok s') : s.Puts s' True := by
  obtain ⟨-, group, hgroup, hty, -, -, t', ht', rfl⟩ := addMembers_eq_ok_iff.1 h
  obtain ⟨hmembers, -⟩ := hs gid group hgroup
  refine ⟨gid, _, rfl, rfl, ⟨fun uid huid ↦ ?_, fun hpublic ↦ absurd hpublic hty⟩,
    fun howned ↦ iff_true_intro fun owner hprivate ↦ ?_⟩
  · rcases Finset.mem_union.1 huid with hold | hnew
    · exact hmembers uid hold
    · exact Tables.isSome_of_insertGroupUsers ht' uid (List.mem_toFinset.1 hnew)
  · exact Finset.mem_union_left _ ((owned_iff hs).1 howned gid group hgroup owner hprivate)

/-- The owner may not be removed. -/
theorem removeMembers_puts (hs : s.Sound) {members : List ℤ}
    (h : s.removeMembers token gid members = .ok s') : s.Puts s' True := by
  obtain ⟨group, hgroup, hty, -, hchecks, rfl⟩ := removeMembers_eq_ok h
  obtain ⟨hmembers, -⟩ := hs gid group hgroup
  refine ⟨gid, _, rfl, rfl, ⟨fun uid huid ↦ hmembers uid (mem_foldl_erase.1 huid).1,
    fun hpublic ↦ absurd hpublic hty⟩, fun howned ↦ iff_true_intro fun owner hprivate ↦ ?_⟩
  refine mem_foldl_erase.2 ⟨(owned_iff hs).1 howned gid group hgroup owner hprivate, fun hmem ↦ ?_⟩
  exact (hchecks owner hmem).1 hprivate

theorem join_puts (hs : s.Sound) {uid : ℤ} (h : s.join uid gid = .ok s') :
    s' = s ∨ s.Puts s' True := by
  rcases join_eq_ok h with heq | ⟨group, hgroup, hty, t', ht', rfl⟩
  · exact .inl heq.symm
  · obtain ⟨hmembers, -⟩ := hs gid group hgroup
    refine .inr ⟨gid, _, rfl, rfl, ⟨fun u hu ↦ ?_, fun hpublic ↦ absurd hpublic hty⟩,
      fun howned ↦ iff_true_intro fun owner hprivate ↦ ?_⟩
    · rcases Finset.mem_insert.1 hu with rfl | hold
      · exact Tables.isSome_of_insertGroupUsers ht' u (List.mem_singleton_self u)
      · exact hmembers u hold
    · exact Finset.mem_insert_of_mem ((owned_iff hs).1 howned gid group hgroup owner hprivate)

theorem create_puts {req : CreateGroupRequest} (h : s.create token req = .ok s') :
    s.Puts s' True := by
  obtain ⟨-, -, -, -, t', ht', rfl⟩ := create_eq_ok_iff.1 h
  refine ⟨_, _, rfl, rfl, ⟨fun uid huid ↦ ?_, fun hty ↦ ?_⟩,
    fun _ ↦ iff_true_intro fun owner hty ↦ ?_⟩
  · exact Tables.isSome_of_insertGroupUsers ht' uid (List.mem_toFinset.1 huid)
  · cases hpublic : req.isPublic with
    | true => simp
    | false => simp [hpublic] at hty
  · cases hpublic : req.isPublic with
    | true => simp [hpublic] at hty
    | false =>
      simp only [hpublic, Bool.false_eq_true, if_false] at hty ⊢
      obtain rfl := GroupType.isPrivate.inj hty
      simp

/-- The new owner of a group that is made private need not be listed. -/
theorem changeType_puts {req : ChangeGroupTypeRequest}
    (h : s.changeType token gid req = .ok s') :
    s' = s ∧ s.KeepsOwner (.changeType token gid req) ∨
      s.Puts s' (s.KeepsOwner (.changeType token gid req)) := by
  obtain ⟨group, hgroup, -, ⟨hpublic, hreq, t', ht', rfl⟩ | ⟨owner, hprivate, hreq, rfl⟩ |
    ⟨hsame, heq⟩⟩ := changeType_eq_ok h
  · refine .inr ⟨gid, _, rfl, rfl, ⟨fun uid huid ↦ ?_, fun hty ↦ by cases hty⟩, fun _ ↦ ?_⟩
    · exact Tables.isSome_of_insertGroupUsers ht' uid (List.mem_toFinset.1 huid)
    · have hin : ∀ {members : Finset ℤ}, CacheGroup.OwnerIn { group with
          ty := .isPrivate token.uid, members := members } ↔ token.uid ∈ members := by
        intro members
        refine ⟨fun hall ↦ hall token.uid rfl, fun hmem owner hty ↦ ?_⟩
        obtain rfl := GroupType.isPrivate.inj hty
        exact hmem
      rw [hin, List.mem_toFinset]
      refine ⟨fun hmem _ _ _ _ _ ↦ hmem, fun hkeeps ↦ ?_⟩
      exact hkeeps ⟨_, h⟩ group hgroup hpublic hreq
  · refine .inr ⟨gid, _, rfl, rfl, ⟨fun uid huid ↦ absurd huid (Finset.notMem_empty uid),
      fun _ ↦ rfl⟩, fun _ ↦ iff_of_true (fun owner hty ↦ by cases hty) ?_⟩
    intro _ other hother hpublic
    rw [hgroup] at hother
    obtain rfl := Option.some_inj.1 hother
    cases hprivate.symm.trans hpublic
  · refine .inl ⟨heq.symm, fun _ other hother hpublic hreq ↦ ?_⟩
    rw [hgroup] at hother
    obtain rfl := Option.some_inj.1 hother
    exact absurd (hsame.1 hpublic) (by rw [hreq]; exact Bool.false_ne_true)

/-! ### All steps -/

theorem delete_sound (hs : s.Sound) (h : s.delete token gid = .ok s') :
    s'.Sound ∧ (s.Owned → s'.Owned) := by
  obtain ⟨group, -, -, rfl⟩ := delete_eq_ok_iff.1 h
  have hold : ∀ g group, (s.groups.erase gid).get g = some group → s.groups.get g = some group := by
    intro g group hgroup
    rw [OrderedMap.get_erase] at hgroup
    split at hgroup
    · cases hgroup
    · exact hgroup
  exact ⟨fun g group hgroup ↦ hs g group (hold g group hgroup),
    fun howned g group hgroup ↦ howned g group (hold g group hgroup)⟩

/-- A deleted user is taken out of all groups, and its own groups are gone. -/
theorem deleteUser_sound (hs : s.Sound) {uid : ℤ} (h : s.deleteUser uid = .ok s') :
    s'.Sound ∧ (s.Owned → s'.Owned) := by
  obtain ⟨-, rfl⟩ := deleteUser_eq_ok_iff.1 h
  have hold : ∀ g group',
    (s.groups.filterMapValues fun _ ↦ CacheGroup.deleteUser uid).get g = some group' →
      ∃ group, s.groups.get g = some group ∧ group.deleteUser uid = some group' := by
    intro g group' hgroup
    rw [OrderedMap.get_filterMapValues] at hgroup
    exact Option.bind_eq_some_iff.1 hgroup
  have hsound : Sound { s with
      users := s.users.erase uid
      tables := s.tables.deleteUser uid
      groups := s.groups.filterMapValues fun _ ↦ CacheGroup.deleteUser uid } := by
    intro g group' hgroup
    obtain ⟨group, horigin, hdelete⟩ := hold g group' hgroup
    obtain ⟨hmembers, hpublic⟩ := hs g group horigin
    obtain ⟨-, hgroup', hprivate, hsame⟩ := Copies.deleteUser_eq_some hdelete
    have hty : group'.ty = group.ty := by rw [hgroup']
    refine ⟨fun u hu ↦ ?_, fun hpublic' ↦ ?_⟩
    · have hne : group.ty ≠ .isPublic := fun heq ↦ by
        rw [hsame heq, hpublic heq] at hu
        exact absurd hu (Finset.notMem_empty u)
      rw [hprivate hne] at hu
      show ((s.users.erase uid).get u).isSome = true
      rw [OrderedMap.get_erase, if_neg (Finset.ne_of_mem_erase hu)]
      exact hmembers u (Finset.mem_of_mem_erase hu)
    · rw [hty] at hpublic'
      rw [hsame hpublic']
      exact hpublic hpublic'
  refine ⟨hsound, fun howned ↦ (owned_iff hsound).2 fun g group' hgroup owner hty' ↦ ?_⟩
  obtain ⟨group, horigin, hdelete⟩ := hold g group' hgroup
  obtain ⟨hown, hgroup', hprivate, -⟩ := Copies.deleteUser_eq_some hdelete
  have hty : group.ty = .isPrivate owner := by rw [← hty', hgroup']
  have hne : group.ty ≠ .isPublic := fun heq ↦ by cases hty.symm.trans heq
  rw [hprivate hne]
  refine Finset.mem_erase.2 ⟨fun heq ↦ hown ?_, (owned_iff hs).1 howned g group horigin owner hty⟩
  rw [hty, heq]

theorem createUser_sound (hs : s.Sound) (isGuest : Bool) :
    (s.createUser isGuest).Sound ∧ (s.Owned → (s.createUser isGuest).Owned) := by
  have hsound : (s.createUser isGuest).Sound := by
    intro g group hgroup
    obtain ⟨hmembers, hpublic⟩ := hs g group hgroup
    refine ⟨fun uid huid ↦ ?_, hpublic⟩
    show ((s.users.insert s.nextUid isGuest).get uid).isSome = true
    rw [OrderedMap.get_insert]
    split
    · rfl
    · exact hmembers uid huid
  exact ⟨hsound, fun howned ↦ (owned_iff hsound).2 ((owned_iff hs).1 howned)⟩

theorem processMsgUpdated_puts (hs : s.Sound) (mid : ℤ) :
    s.Puts (s.processMsgUpdated mid) True ∨
      (s.processMsgUpdated mid).groups = s.groups ∧ (s.processMsgUpdated mid).users = s.users := by
  by_cases hmem : mid ∈ s.updated
  · cases hfind : s.findPin mid with
    | none =>
      rw [processMsgUpdated_of_none hmem hfind]
      exact .inr ⟨rfl, rfl⟩
    | some e =>
      obtain ⟨gid, group⟩ := e
      obtain ⟨hgroup, -⟩ := findPin_eq_some hfind
      have hfind' : findPin { s with updated := s.updated.erase mid } mid = some (gid, group) :=
        hfind
      cases hcontent : s.merged mid with
      | some content =>
        rw [processMsgUpdated_of_some hmem hfind hcontent]
        exact .inl (puts_congr hs hgroup rfl rfl rfl rfl)
      | none =>
        simp only [processMsgUpdated, if_pos hmem, hfind', hcontent]
        exact .inl (puts_congr hs hgroup rfl rfl rfl rfl)
  · rw [processMsgUpdated, if_neg hmem]
    exact .inr ⟨rfl, rfl⟩

/-- Nothing about users and groups in the cache has changed. -/
theorem sound_congr (hs : s.Sound) (hgroups : s'.groups = s.groups) (husers : s'.users = s.users) :
    s'.Sound ∧ (s.Owned → s'.Owned) := by
  rw [Sound, Owned, Owned, hgroups, husers]
  exact ⟨hs, id⟩

/-- What a step does to the groups in the cache. -/
theorem request_puts (hs : s.Sound) {a : Action} (h : s.request a = .ok s') :
    s.Puts s' (s.KeepsOwner a) ∨ s'.Sound ∧ (s.Owned → s'.Owned) ∧ s.KeepsOwner a := by
  have hsame : s' = s → s'.Sound ∧ (s.Owned → s'.Owned) := fun heq ↦
    sound_congr hs (congrArg State.groups heq) (congrArg State.users heq)
  cases a with
  | createUser isGuest =>
    obtain rfl := Except.ok.inj h
    obtain ⟨hsound, howned⟩ := createUser_sound hs isGuest
    exact .inr ⟨hsound, howned, trivial⟩
  | deleteUser uid =>
    obtain ⟨hsound, howned⟩ := deleteUser_sound hs h
    exact .inr ⟨hsound, howned, trivial⟩
  | create token req => exact .inl (create_puts h)
  | uploadAvatar token gid now => exact .inl (uploadAvatar_puts hs h)
  | delete token gid =>
    obtain ⟨hsound, howned⟩ := delete_sound hs h
    exact .inr ⟨hsound, howned, trivial⟩
  | update token gid req => exact .inl (update_puts hs h)
  | changeType token gid req =>
    rcases changeType_puts h with ⟨heq, hkeeps⟩ | hputs
    · exact .inr ⟨(hsame heq).1, (hsame heq).2, hkeeps⟩
    · exact .inl hputs
  | leave token gid => exact .inl (leave_puts hs h)
  | addMembers token gid members => exact .inl (addMembers_puts hs h)
  | removeMembers token gid members => exact .inl (removeMembers_puts hs h)
  | join uid gid =>
    rcases join_puts hs h with heq | hputs
    · exact .inr ⟨(hsame heq).1, (hsame heq).2, trivial⟩
    · exact .inl hputs
  | pinMessage token gid mid now => exact .inl (pinMessage_puts hs h)
  | unpinMessage token gid mid => exact .inl (unpinMessage_puts hs h)
  | sendMessage mid content =>
    obtain rfl := Except.ok.inj h
    exact .inr ⟨hs, id, trivial⟩
  | editMessage mid content =>
    obtain rfl := Except.ok.inj h
    exact .inr ⟨hs, id, trivial⟩
  | processMsgUpdated mid =>
    obtain rfl := Except.ok.inj h
    rcases processMsgUpdated_puts hs mid with hputs | ⟨hgroups, husers⟩
    · exact .inl hputs
    · obtain ⟨hsound, howned⟩ := sound_congr hs hgroups husers
      exact .inr ⟨hsound, howned, trivial⟩

theorem perform_sound (hs : s.Sound) (a : Action) : (s.perform a).Sound := by
  unfold perform
  cases h : s.request a with
  | error e => exact hs
  | ok s' =>
    rcases request_puts hs h with hputs | ⟨hsound, -, -⟩
    · exact hputs.sound hs
    · exact hsound

theorem perform_owned_iff (hs : s.Sound) (howned : s.Owned) (a : Action) :
    (s.perform a).Owned ↔ s.KeepsOwner a := by
  unfold perform
  cases h : s.request a with
  | error e =>
    refine iff_of_true howned ?_
    cases a with
    | changeType token gid req =>
      rintro ⟨s', hs'⟩
      cases h.symm.trans hs'
    | _ => trivial
  | ok s' =>
    rcases request_puts hs h with hputs | ⟨-, howned', hkeeps⟩
    · exact hputs.owned_iff hs howned
    · exact iff_of_true (howned' howned) hkeeps

end State

open State

/-- In every state reached each private group has an owner who exists and is a member, and each
public group none of both, exactly when whoever made a group private was put on its list. -/
theorem owned_iff_keepsOwner (as : List Action) :
    (∀ cs, cs <+: as → ∀ gid group, (after cs).groups.get gid = some group →
      (∀ owner, group.ty = .isPrivate owner →
        ((after cs).users.get owner).isSome = true ∧ owner ∈ group.members) ∧
      (group.ty = .isPublic → group.members = ∅)) ↔
    Along (total perform) KeepsOwner start as :=
  forall_prefix_iff_along (I := Sound) (P := Owned) (f := perform) (fun _ a hs ↦ perform_sound hs a)
    (fun _ a hs howned ↦ perform_owned_iff hs howned a) (fun _ _ h ↦ by cases h)
    (fun _ _ h ↦ by cases h) as

/-- An administrator makes a public group private for another user alone, and is its owner without
being a member. -/
theorem not_forall_owned : ¬∀ (as : List Action) (gid : ℤ) (group : CacheGroup),
    (after as).groups.get gid = some group →
      ∀ owner, group.ty = .isPrivate owner → owner ∈ group.members := by
  intro h
  have hrun := h [.createUser false, .createUser false,
    .create ⟨1, "web", true, false⟩ ⟨"all", none, [], true, false⟩,
    .changeType ⟨1, "web", true, false⟩ 1 ⟨false, [2]⟩] 1
    ⟨.isPrivate 1, "all", "", {2}, 0, [], false⟩ rfl 1 rfl
  revert hrun
  decide +kernel

end Groups

end VoceChat
