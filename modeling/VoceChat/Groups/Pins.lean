import VoceChat.Groups.Restart

/-!
# What is pinned in a group

A message is pinned by its id: `pin_message` looks up its merged content and copies it into the
group. When the message is edited its id goes into a channel, and `process_msg_updated` copies the
new content. Two questions are asked of a message that is pinned.

* **Was it sent to this group?** A merged message knows its target, and nobody looks at it: whoever
  manages a group may pin any message (`sentHere_iff`).
* **Is the content that of the message?** It is in a group that the update reaches. The loop over
  the groups ends at the first that has the message pinned, and an edit whose request ends between
  its merge and the channel is never heard of (`current_iff`).

All requests but `pin_message` only take messages out of the pinned lists (`State.KeepsPins`).
-/

namespace VoceChat

open Guards StableSort Transition

namespace Groups

namespace State

def Pinned (s : State) (gid : ℤ) (msg : PinnedMessage) : Prop :=
  ∃ group, s.groups.get gid = some group ∧ msg ∈ group.pinnedMessages

/-- Nothing is pinned that was not, and no message is touched. -/
structure KeepsPins (s s' : State) : Prop where
  pinned : ∀ gid msg, s'.Pinned gid msg → s.Pinned gid msg
  rows : ∀ row ∈ s'.tables.pinnedMessage, row ∈ s.tables.pinnedMessage
  merged : s'.merged = s.merged
  updated : s'.updated = s.updated

variable {s s' : State} {gid : ℤ} {group group' : CacheGroup} {token : CurrentUser}

theorem keepsPins_refl (s : State) : s.KeepsPins s := ⟨fun _ _ h ↦ h, fun _ h ↦ h, rfl, rfl⟩

/-- One group is put into the cache. -/
theorem keepsPins_put {t' : Tables} (hpins : ∀ msg ∈ group'.pinnedMessages, s.Pinned gid msg)
    (hrows : ∀ row ∈ t'.pinnedMessage, row ∈ s.tables.pinnedMessage) :
    s.KeepsPins { s with tables := t', groups := s.groups.insert gid group' } where
  pinned g msg := by
    rintro ⟨other, hother, hmsg⟩
    change (s.groups.insert gid group').get g = some other at hother
    rw [OrderedMap.get_insert] at hother
    split at hother
    · rename_i hg
      obtain rfl := hg
      obtain rfl := Option.some_inj.1 hother
      exact hpins msg hmsg
    · exact ⟨other, hother, hmsg⟩
  rows := hrows
  merged := rfl
  updated := rfl

/-- A group that is there keeps its pinned messages. -/
theorem keepsPins_update {t' : Tables} (hgroup : s.groups.get gid = some group)
    (hpins : group'.pinnedMessages = group.pinnedMessages)
    (hrows : t'.pinnedMessage = s.tables.pinnedMessage) :
    s.KeepsPins { s with tables := t', groups := s.groups.insert gid group' } :=
  keepsPins_put (fun _ hmsg ↦ ⟨group, hgroup, hpins ▸ hmsg⟩) fun _ hrow ↦ hrows ▸ hrow

theorem pinnedMessage_insertGroupUsers {users : OrderedMap ℤ Bool} {uids : List ℤ} {t t' : Tables}
    (h : t.insertGroupUsers users gid uids = .ok t') : t'.pinnedMessage = t.pinnedMessage := by
  rw [Tables.insertGroupUsers_eq_ok h]

/-! ### The requests -/

theorem create_keepsPins {req : CreateGroupRequest} (h : s.create token req = .ok s') :
    s.KeepsPins s' := by
  obtain ⟨-, -, -, -, t', ht', rfl⟩ := create_eq_ok_iff.1 h
  have hrows : t'.pinnedMessage = s.tables.pinnedMessage := (pinnedMessage_insertGroupUsers ht' :)
  exact keepsPins_put (fun msg hmsg ↦ absurd hmsg List.not_mem_nil) fun row hrow ↦ hrows ▸ hrow

theorem delete_keepsPins (h : s.delete token gid = .ok s') : s.KeepsPins s' := by
  obtain ⟨group, hgroup, -, rfl⟩ := delete_eq_ok_iff.1 h
  refine ⟨?_, fun row hrow ↦ List.mem_of_mem_filter hrow, rfl, rfl⟩
  rintro g msg ⟨other, hother, hmsg⟩
  change (s.groups.erase gid).get g = some other at hother
  rw [OrderedMap.get_erase] at hother
  split at hother
  · cases hother
  · exact ⟨other, hother, hmsg⟩

theorem deleteUser_keepsPins {uid : ℤ} (h : s.deleteUser uid = .ok s') : s.KeepsPins s' := by
  obtain ⟨-, rfl⟩ := deleteUser_eq_ok_iff.1 h
  refine ⟨?_, fun row hrow ↦ List.mem_of_mem_filter hrow, rfl, rfl⟩
  rintro g msg ⟨other, hother, hmsg⟩
  change (s.groups.filterMapValues _).get g = some other at hother
  rw [OrderedMap.get_filterMapValues] at hother
  obtain ⟨group, hgroup, hdelete⟩ := Option.bind_eq_some_iff.1 hother
  rw [(Copies.deleteUser_eq_some hdelete).2.1] at hmsg
  exact ⟨group, hgroup, hmsg⟩

theorem uploadAvatar_keepsPins {now : ℤ} (h : s.uploadAvatar token gid now = .ok s') :
    s.KeepsPins s' := by
  obtain ⟨group, hgroup, -, rfl⟩ := uploadAvatar_eq_ok_iff.1 h
  exact keepsPins_update hgroup rfl rfl

theorem update_keepsPins {req : UpdateGroupRequest} (h : s.update token gid req = .ok s') :
    s.KeepsPins s' := by
  obtain ⟨-, group, hgroup, -, -, -, rfl⟩ := update_eq_ok_iff.1 h
  exact keepsPins_update hgroup rfl rfl

theorem changeType_keepsPins {req : ChangeGroupTypeRequest}
    (h : s.changeType token gid req = .ok s') : s.KeepsPins s' := by
  obtain ⟨group, hgroup, -, ⟨-, -, t', ht', rfl⟩ | ⟨owner, -, -, rfl⟩ | ⟨-, rfl⟩⟩ :=
    changeType_eq_ok h
  · have hrows : t'.pinnedMessage = s.tables.pinnedMessage :=
      (pinnedMessage_insertGroupUsers ht' :)
    exact keepsPins_update hgroup rfl hrows
  · exact keepsPins_update hgroup rfl rfl
  · exact keepsPins_refl s

theorem leave_keepsPins (h : s.leave token gid = .ok s') : s.KeepsPins s' := by
  obtain ⟨group, hgroup, -, -, -, rfl⟩ := leave_eq_ok_iff.1 h
  exact keepsPins_update hgroup rfl rfl

theorem addMembers_keepsPins {members : List ℤ} (h : s.addMembers token gid members = .ok s') :
    s.KeepsPins s' := by
  obtain ⟨-, group, hgroup, -, -, -, t', ht', rfl⟩ := addMembers_eq_ok_iff.1 h
  exact keepsPins_update hgroup rfl (pinnedMessage_insertGroupUsers ht')

theorem removeMembers_keepsPins {members : List ℤ}
    (h : s.removeMembers token gid members = .ok s') : s.KeepsPins s' := by
  obtain ⟨group, hgroup, -, -, _, -, rfl⟩ := removeMembers_eq_ok h
  refine keepsPins_update hgroup rfl ?_
  rw [Tables.foldl_deleteGroupUser]

theorem join_keepsPins {uid : ℤ} (h : s.join uid gid = .ok s') : s.KeepsPins s' := by
  rcases join_eq_ok h with rfl | ⟨group, hgroup, -, t', ht', rfl⟩
  · exact keepsPins_refl s
  · exact keepsPins_update hgroup rfl (pinnedMessage_insertGroupUsers ht')

theorem unpinMessage_keepsPins {mid : ℤ} (h : s.unpinMessage token gid mid = .ok s') :
    s.KeepsPins s' := by
  obtain ⟨group, hgroup, -, -, rfl⟩ := unpinMessage_eq_ok_iff.1 h
  exact keepsPins_put (fun msg hmsg ↦ ⟨group, hgroup, List.mem_of_mem_eraseP hmsg⟩)
    fun row hrow ↦ List.mem_of_mem_filter hrow

/-- A message is pinned that has a content. -/
theorem pinMessage_eq_ok {mid now : ℤ} (h : s.pinMessage token gid mid now = .ok s') :
    ∃ content, s.merged mid = some content ∧ s'.merged = s.merged ∧ s'.updated = s.updated ∧
      (∀ g msg, s'.Pinned g msg ↔ s.Pinned g msg ∨ g = gid ∧ msg = ⟨mid, token.uid, now, content⟩) ∧
        ∀ row, row ∈ s'.tables.pinnedMessage ↔
          row ∈ s.tables.pinnedMessage ∨ row = ⟨gid, mid, token.uid, now⟩ := by
  obtain ⟨group, hgroup, -, -, content, hcontent, -, rfl⟩ := pinMessage_eq_ok_iff.1 h
  refine ⟨content, hcontent, rfl, rfl, fun g msg ↦ ?_, fun row ↦ ?_⟩
  · show (∃ other, (s.groups.insert gid _).get g = some other ∧ _) ↔ _
    by_cases hg : g = gid
    · obtain rfl := hg
      have hsort : msg ∈ sortPins (group.pinnedMessages ++ [⟨mid, token.uid, now, content⟩]) ↔
          msg ∈ group.pinnedMessages ∨ msg = ⟨mid, token.uid, now, content⟩ := by
        rw [mem_sortBy, List.mem_append, List.mem_singleton]
      rw [OrderedMap.get_insert_self]
      constructor
      · rintro ⟨other, hother, hmsg⟩
        obtain rfl := Option.some_inj.1 hother
        exact (hsort.1 hmsg).imp (fun hmsg ↦ ⟨group, hgroup, hmsg⟩) fun hmsg ↦ ⟨rfl, hmsg⟩
      · rintro (⟨other, hother, hmsg⟩ | ⟨-, hmsg⟩)
        · obtain rfl := Option.some_inj.1 (hgroup.symm.trans hother)
          exact ⟨_, rfl, hsort.2 (.inl hmsg)⟩
        · exact ⟨_, rfl, hsort.2 (.inr hmsg)⟩
    · rw [OrderedMap.get_insert_of_ne _ _ hg]
      exact ⟨.inl, fun h ↦ h.resolve_right fun hnew ↦ hg hnew.1⟩
  · show row ∈ s.tables.pinnedMessage ++ [_] ↔ _
    rw [List.mem_append, List.mem_singleton]

/-! ### The channel -/

theorem mem_replacePin {pins : List PinnedMessage} {mid : ℤ} {content : ChatMessageContent}
    {msg : PinnedMessage} (h : (pins.map PinnedMessage.mid).Nodup)
    (hmsg : msg ∈ replacePin mid content pins) :
    msg.mid = mid ∧ msg.content = content ∧ (∃ old ∈ pins, old.mid = mid) ∨
      msg.mid ≠ mid ∧ msg ∈ pins := by
  induction pins with
  | nil => exact absurd hmsg List.not_mem_nil
  | cons head pins ih =>
    obtain ⟨hnew, hpins⟩ := List.nodup_cons.1 h
    rw [Copies.replacePin_cons] at hmsg
    split at hmsg
    · rename_i hhead
      rcases List.mem_cons.1 hmsg with rfl | hmsg
      · exact .inl ⟨hhead, rfl, head, List.mem_cons_self, hhead⟩
      · refine .inr ⟨fun hmid ↦ hnew ?_, List.mem_cons_of_mem _ hmsg⟩
        rw [hhead, ← hmid]
        exact List.mem_map_of_mem hmsg
    · rename_i hhead
      rcases List.mem_cons.1 hmsg with rfl | hmsg
      · exact .inr ⟨hhead, List.mem_cons_self⟩
      · rcases ih hpins hmsg with ⟨hmid, hcontent, old, hold, holdmid⟩ | ⟨hmid, hmsg⟩
        · exact .inl ⟨hmid, hcontent, old, List.mem_cons_of_mem _ hold, holdmid⟩
        · exact .inr ⟨hmid, List.mem_cons_of_mem _ hmsg⟩

/-- The messages that are pinned have a content. -/
def Backed (s : State) : Prop := ∀ gid msg, s.Pinned gid msg → (s.merged msg.mid).isSome = true

/-- The group that an update is taken to: the message in it is as it is now, the others stay. -/
theorem pinned_replacePin {mid : ℤ} {content : ChatMessageContent} (hs : s.WellFormed)
    (hgroup : s.groups.get gid = some group) {g : ℤ} {msg : PinnedMessage}
    (h : Pinned { s.take mid with groups := s.groups.insert gid (group.replacePin mid content) }
      g msg) :
    g = gid ∧ msg.mid = mid ∧ msg.content = content ∧
      (∃ old ∈ group.pinnedMessages, old.mid = mid) ∨
      (g ≠ gid ∨ msg.mid ≠ mid) ∧ s.Pinned g msg := by
  obtain ⟨other, hother, hmsg⟩ := h
  change (s.groups.insert gid _).get g = some other at hother
  rw [OrderedMap.get_insert] at hother
  split at hother
  · rename_i hg
    obtain rfl := hg
    obtain rfl := Option.some_inj.1 hother
    rcases mem_replacePin ((hs.copies g).pinnedOnce group hgroup) hmsg with
      ⟨hmid, hcontent, hold⟩ | ⟨hmid, hmsg⟩
    · exact .inl ⟨rfl, hmid, hcontent, hold⟩
    · exact .inr ⟨.inr hmid, group, hgroup, hmsg⟩
  · rename_i hg
    exact .inr ⟨.inl hg, other, hother, hmsg⟩

/-- What `process_msg_updated` does with an update that waits, when pinned messages have a content.
-/
theorem processMsgUpdated_cases (hbacked : s.Backed) {mid : ℤ} (hmem : mid ∈ s.updated) :
    s.findPin mid = none ∧ s.processMsgUpdated mid = s.take mid ∨
      ∃ gid group content, s.findPin mid = some (gid, group) ∧ s.groups.get gid = some group ∧
        s.merged mid = some content ∧ s.processMsgUpdated mid = { s.take mid with
          groups := s.groups.insert gid (group.replacePin mid content) } := by
  cases hfind : s.findPin mid with
  | none => exact .inl ⟨rfl, processMsgUpdated_of_none hmem hfind⟩
  | some e =>
    obtain ⟨gid, group⟩ := e
    obtain ⟨hgroup, msg, hmsg, rfl⟩ := findPin_eq_some hfind
    obtain ⟨content, hcontent⟩ :=
      Option.isSome_iff_exists.1 (hbacked gid msg ⟨group, hgroup, hmsg⟩)
    exact .inr ⟨gid, group, content, rfl, hgroup, hcontent,
      processMsgUpdated_of_some hmem hfind hcontent⟩

/-- What a request does to what is pinned. -/
theorem request_cases {a : Action} (h : s.request a = .ok s') :
    s.KeepsPins s' ∨ (∃ token gid mid now, a = .pinMessage token gid mid now) ∨
      (∃ mid content, a = .sendMessage mid content) ∨
        (∃ mid content, a = .editMessage mid content) ∨ ∃ mid, a = .processMsgUpdated mid := by
  cases a with
  | createUser isGuest =>
    obtain rfl := Except.ok.inj h
    exact .inl ⟨fun _ _ h ↦ h, fun _ h ↦ h, rfl, rfl⟩
  | deleteUser uid => exact .inl (deleteUser_keepsPins h)
  | create token req => exact .inl (create_keepsPins h)
  | uploadAvatar token gid now => exact .inl (uploadAvatar_keepsPins h)
  | delete token gid => exact .inl (delete_keepsPins h)
  | update token gid req => exact .inl (update_keepsPins h)
  | changeType token gid req => exact .inl (changeType_keepsPins h)
  | leave token gid => exact .inl (leave_keepsPins h)
  | addMembers token gid members => exact .inl (addMembers_keepsPins h)
  | removeMembers token gid members => exact .inl (removeMembers_keepsPins h)
  | join uid gid => exact .inl (join_keepsPins h)
  | unpinMessage token gid mid => exact .inl (unpinMessage_keepsPins h)
  | pinMessage token gid mid now => exact .inr (.inl ⟨token, gid, mid, now, rfl⟩)
  | sendMessage mid content => exact .inr (.inr (.inl ⟨mid, content, rfl⟩))
  | editMessage mid content => exact .inr (.inr (.inr (.inl ⟨mid, content, rfl⟩)))
  | processMsgUpdated mid => exact .inr (.inr (.inr (.inr ⟨mid, rfl⟩)))

end State

/-! ### Messages and pins -/

/-- The groups, and the targets of the merged messages. -/
structure PinSystem where
  state : State
  sentTo : ℤ → Option MessageTarget
  nextMid : ℤ

inductive PinAction where
  /-- A message, or a reply, to a group or to a user. -/
  | send (target : MessageTarget) (content : ChatMessageContent)
  /-- The deletion of a message: it is stored, and the merged message stays as it is. -/
  | deleteMessage (mid : ℤ)
  /-- An edit whose request ends before it writes to the channel. -/
  | editUnnoticed (mid : ℤ) (content : ChatMessageContent)
  /-- Any other step: a message is sent by `send`. -/
  | other (a : Action)

namespace PinSystem

def start : PinSystem := ⟨.start, fun _ ↦ none, 1⟩

def send (p : PinSystem) (target : MessageTarget) (content : ChatMessageContent) : PinSystem where
  state := p.state.sendMessage p.nextMid content
  sentTo := Function.update p.sentTo p.nextMid (some target)
  nextMid := p.nextMid + 1

def editUnnoticed (p : PinSystem) (mid : ℤ) (content : ChatMessageContent) : PinSystem :=
  { p with state := { p.state.editMessage mid content with updated := p.state.updated } }

def perform (p : PinSystem) : PinAction → PinSystem
  | .send target content => p.send target content
  | .deleteMessage _ => p
  | .editUnnoticed mid content => p.editUnnoticed mid content
  | .other (.sendMessage _ _) => p
  | .other a => { p with state := p.state.perform a }

def after (as : List PinAction) : PinSystem := as.foldl perform start

/-- The message was sent to the group. -/
def IsSentTo (p : PinSystem) (gid mid : ℤ) : Prop :=
  ∃ g, p.sentTo mid = some (.group g) ∧ g.toInt = gid

/-- What is pinned in a group, in the cache or in the table, was sent to it. -/
def SentHere (p : PinSystem) : Prop :=
  (∀ gid msg, p.state.Pinned gid msg → p.IsSentTo gid msg.mid) ∧
    ∀ row ∈ p.state.tables.pinnedMessage, p.IsSentTo row.gid row.mid

/-- A message that is pinned in a group was sent to it. -/
def PinsOwn (p : PinSystem) : PinAction → Prop
  | .other (.pinMessage token gid mid now) =>
    (∃ s', p.state.pinMessage token gid mid now = .ok s') → p.IsSentTo gid mid
  | _ => True

/-- What is pinned has the content of the message, if no update of it waits. -/
def Current (p : PinSystem) : Prop := ∀ gid msg, p.state.Pinned gid msg →
  msg.mid ∉ p.state.updated → p.state.merged msg.mid = some msg.content

/-- An update that is taken from the channel finds no old content but in the first group that it is
for, or another one of the message waits; and an edit that is not written to the channel finds the
message pinned with its content only. -/
def Noticed (p : PinSystem) : PinAction → Prop
  | .editUnnoticed mid content => (p.state.merged mid).isSome = true → mid ∉ p.state.updated →
      ∀ gid msg, p.state.Pinned gid msg → msg.mid = mid → msg.content = content
  | .other (.processMsgUpdated mid) => p.state.Orderly (.processMsgUpdated mid)
  | _ => True

/-- What holds in any case. -/
structure Inv (p : PinSystem) : Prop where
  wellFormed : p.state.WellFormed
  backed : p.state.Backed
  known : ∀ mid, (p.state.merged mid).isSome = true → mid < p.nextMid

variable {p : PinSystem} {s' : State}

theorem not_pinned_start (gid : ℤ) (msg : PinnedMessage) : ¬start.state.Pinned gid msg := by
  rintro ⟨group, hgroup, -⟩
  cases hgroup

theorem inv_start : start.Inv where
  wellFormed := State.wellFormed_start
  backed gid msg h := absurd h (not_pinned_start gid msg)
  known _ h := by cases h

theorem Inv.merged_row (h : p.Inv) {row : PinRow} (hrow : row ∈ p.state.tables.pinnedMessage) :
    (p.state.merged row.mid).isSome = true :=
  (h.wellFormed.copies row.gid).content row (List.mem_filter.2 ⟨hrow, decide_eq_true rfl⟩)

/-- Other contents, of the same messages or more. -/
theorem Inv.rewrite (h : p.Inv) {merged' : ℤ → Option ChatMessageContent} {updated' : List ℤ}
    {sentTo' : ℤ → Option MessageTarget} {nextMid' : ℤ}
    (hsome : ∀ m, (p.state.merged m).isSome = true → (merged' m).isSome = true)
    (hknown : ∀ m, (merged' m).isSome = true → m < nextMid') :
    Inv ⟨{ p.state with merged := merged', updated := updated' }, sentTo', nextMid'⟩ where
  wellFormed := State.rewrite_wellFormed h.wellFormed hsome updated'
  backed gid msg hmsg := hsome _ (h.backed gid msg hmsg)
  known := hknown

theorem isSome_of_isSome_edit {mid : ℤ} {content : ChatMessageContent} {m : ℤ}
    (h : (Function.update p.state.merged mid ((p.state.merged mid).map fun _ ↦ content) m).isSome =
      true) : (p.state.merged m).isSome = true := by
  rw [Function.update_apply] at h
  split at h
  · rename_i hm
    rwa [Option.isSome_map, ← hm] at h
  · exact h

theorem Inv.keepsPins (h : p.Inv) (hs : s'.WellFormed) (hkeeps : p.state.KeepsPins s') :
    Inv { p with state := s' } where
  wellFormed := hs
  backed gid msg hmsg := by
    show (s'.merged msg.mid).isSome = true
    rw [hkeeps.merged]
    exact h.backed gid msg (hkeeps.pinned gid msg hmsg)
  known := by
    show ∀ mid, (s'.merged mid).isSome = true → _
    rw [hkeeps.merged]
    exact h.known

theorem Inv.pinMessage (h : p.Inv) {token : CurrentUser} {gid mid now : ℤ} (hs : s'.WellFormed)
    (hpin : p.state.pinMessage token gid mid now = .ok s') : Inv { p with state := s' } := by
  obtain ⟨content, hcontent, hmerged, -, hpinned, -⟩ := State.pinMessage_eq_ok hpin
  refine ⟨hs, fun g msg hmsg ↦ ?_, ?_⟩
  · show (s'.merged msg.mid).isSome = true
    rw [hmerged]
    rcases (hpinned g msg).1 hmsg with hold | ⟨-, rfl⟩
    · exact h.backed g msg hold
    · rw [hcontent]
      rfl
  · show ∀ mid, (s'.merged mid).isSome = true → _
    rw [hmerged]
    exact h.known

theorem Inv.take (h : p.Inv) (mid : ℤ) : Inv { p with state := p.state.take mid } :=
  h.rewrite (fun _ h ↦ h) h.known

theorem Inv.processMsgUpdated (h : p.Inv) (mid : ℤ) :
    Inv { p with state := p.state.processMsgUpdated mid } := by
  have hs := State.processMsgUpdated_wellFormed h.wellFormed mid
  by_cases hmem : mid ∈ p.state.updated
  · rcases State.processMsgUpdated_cases h.backed hmem with
      ⟨-, heq⟩ | ⟨gid, group, content, -, hgroup, hcontent, heq⟩
    · rw [heq]
      exact h.take mid
    · rw [heq] at hs ⊢
      refine ⟨hs, fun g msg hmsg ↦ ?_, h.known⟩
      rcases State.pinned_replacePin h.wellFormed hgroup hmsg with ⟨-, hmid, -, -⟩ | ⟨-, hold⟩
      · show (p.state.merged msg.mid).isSome = true
        rw [hmid, hcontent]
        rfl
      · exact h.backed g msg hold
  · rw [State.processMsgUpdated, if_neg hmem]
    exact h

/-- What a step that sends nothing can do: take out pins, if anything, or pin a message, or touch
the contents. -/
theorem other_cases (h : p.Inv) (a : Action) :
    (∃ s', p.perform (.other a) = { p with state := s' } ∧ s'.WellFormed ∧ p.state.KeepsPins s' ∧
      p.PinsOwn (.other a) ∧ p.Noticed (.other a)) ∨
    (∃ token gid mid now s', a = .pinMessage token gid mid now ∧
      p.state.pinMessage token gid mid now = .ok s' ∧ s'.WellFormed ∧
        p.perform (.other a) = { p with state := s' }) ∨
    (∃ mid content, a = .editMessage mid content) ∨ ∃ mid, a = .processMsgUpdated mid := by
  have hwf := State.perform_wellFormed h.wellFormed a
  by_cases hsend : ∃ mid content, a = .sendMessage mid content
  · obtain ⟨mid, content, rfl⟩ := hsend
    exact .inl ⟨p.state, rfl, h.wellFormed, State.keepsPins_refl _, trivial, trivial⟩
  have hperform : p.perform (.other a) = { p with state := p.state.perform a } := by
    cases a with
    | sendMessage mid content => exact absurd ⟨mid, content, rfl⟩ hsend
    | _ => rfl
  rw [hperform]
  cases hreq : p.state.request a with
  | error e =>
    have hsame : p.state.perform a = p.state := by rw [State.perform, hreq]; rfl
    rw [hsame]
    refine .inl ⟨p.state, rfl, h.wellFormed, State.keepsPins_refl _, ?_, ?_⟩
    · cases a with
      | pinMessage token gid mid now =>
        rintro ⟨s', hs'⟩
        cases hreq.symm.trans hs'
      | _ => trivial
    · cases a with
      | processMsgUpdated mid => cases hreq
      | _ => trivial
  | ok s' =>
    have hnext : p.state.perform a = s' := by rw [State.perform, hreq]; rfl
    rw [hnext] at hwf ⊢
    rcases State.request_cases hreq with hkeeps | ⟨token, gid, mid, now, rfl⟩ | hmsg | hmsg | hmsg
    · by_cases hpin : ∃ token gid mid now, a = .pinMessage token gid mid now
      · obtain ⟨token, gid, mid, now, rfl⟩ := hpin
        exact .inr (.inl ⟨token, gid, mid, now, s', rfl, hreq, hwf, rfl⟩)
      by_cases htake : ∃ mid, a = .processMsgUpdated mid
      · exact .inr (.inr (.inr htake))
      · refine .inl ⟨s', rfl, hwf, hkeeps, ?_, ?_⟩
        · cases a with
          | pinMessage token gid mid now => exact absurd ⟨token, gid, mid, now, rfl⟩ hpin
          | _ => trivial
        · cases a with
          | processMsgUpdated mid => exact absurd ⟨mid, rfl⟩ htake
          | _ => trivial
    · exact .inr (.inl ⟨token, gid, mid, now, s', rfl, hreq, hwf, rfl⟩)
    · exact absurd hmsg hsend
    · exact .inr (.inr (.inl hmsg))
    · exact .inr (.inr (.inr hmsg))

theorem inv_perform (h : p.Inv) (a : PinAction) : (p.perform a).Inv := by
  cases a with
  | send target content =>
    refine h.rewrite State.isSome_sendMessage fun m hm ↦ ?_
    change (Function.update p.state.merged p.nextMid _ m).isSome = true at hm
    rw [Function.update_apply] at hm
    split at hm
    · omega
    · have hlt := h.known m hm
      omega
  | deleteMessage mid => exact h
  | editUnnoticed mid content =>
    exact h.rewrite State.isSome_editMessage fun m hm ↦ h.known m (isSome_of_isSome_edit hm)
  | other a =>
    rcases other_cases h a with ⟨s', heq, hs', hkeeps, -, -⟩ |
      ⟨token, gid, mid, now, s', -, hpin, hs', heq⟩ | ⟨mid, content, rfl⟩ | ⟨mid, rfl⟩
    · exact heq ▸ h.keepsPins hs' hkeeps
    · exact heq ▸ h.pinMessage hs' hpin
    · exact h.rewrite State.isSome_editMessage fun m hm ↦ h.known m (isSome_of_isSome_edit hm)
    · exact h.processMsgUpdated mid

/-! ### Was it sent here? -/

theorem sentHere_perform_iff (h : p.Inv) (hsent : p.SentHere) (a : PinAction) :
    (p.perform a).SentHere ↔ p.PinsOwn a := by
  obtain ⟨hpins, hrows⟩ := hsent
  cases a with
  | send target content =>
    -- a new message is not pinned yet
    have hold : ∀ gid mid, mid < p.nextMid → p.IsSentTo gid mid →
        (p.send target content).IsSentTo gid mid := by
      rintro gid mid hlt ⟨g, hg, hgid⟩
      refine ⟨g, ?_, hgid⟩
      show Function.update p.sentTo p.nextMid _ mid = _
      rw [Function.update_of_ne (by omega)]
      exact hg
    refine iff_of_true ⟨fun gid msg hmsg ↦ ?_, fun row hrow ↦ ?_⟩ trivial
    · exact hold gid msg.mid (h.known _ (h.backed gid msg hmsg)) (hpins gid msg hmsg)
    · exact hold row.gid row.mid (h.known _ (h.merged_row hrow)) (hrows row hrow)
  | deleteMessage mid => exact iff_of_true ⟨hpins, hrows⟩ trivial
  | editUnnoticed mid content => exact iff_of_true ⟨hpins, hrows⟩ trivial
  | other a =>
    rcases other_cases h a with ⟨s', heq, -, hkeeps, hown, -⟩ |
      ⟨token, gid, mid, now, s', rfl, hpin, -, heq⟩ | ⟨mid, content, rfl⟩ | ⟨mid, rfl⟩
    · rw [heq]
      exact iff_of_true ⟨fun gid msg hmsg ↦ hpins gid msg (hkeeps.pinned gid msg hmsg),
        fun row hrow ↦ hrows row (hkeeps.rows row hrow)⟩ hown
    · obtain ⟨content, -, -, -, hpinned, hrow⟩ := State.pinMessage_eq_ok hpin
      rw [heq]
      constructor
      · rintro ⟨-, hrows'⟩ -
        exact hrows' _ ((hrow ⟨gid, mid, token.uid, now⟩).2 (.inr rfl))
      · intro hown
        have hsentTo : p.IsSentTo gid mid := hown ⟨s', hpin⟩
        refine ⟨fun g msg hmsg ↦ ?_, fun row hmem ↦ ?_⟩
        · rcases (hpinned g msg).1 hmsg with hmsg | ⟨rfl, rfl⟩
          · exact hpins g msg hmsg
          · exact hsentTo
        · rcases (hrow row).1 hmem with hmem | rfl
          · exact hrows row hmem
          · exact hsentTo
    · exact iff_of_true ⟨hpins, hrows⟩ trivial
    · refine iff_of_true ?_ trivial
      show SentHere { p with state := p.state.processMsgUpdated mid }
      by_cases hmem : mid ∈ p.state.updated
      · rcases State.processMsgUpdated_cases h.backed hmem with
          ⟨-, heq⟩ | ⟨gid, group, content, -, hgroup, -, heq⟩
        · rw [heq]
          exact ⟨hpins, hrows⟩
        · rw [heq]
          refine ⟨fun g msg hmsg ↦ ?_, hrows⟩
          rcases State.pinned_replacePin h.wellFormed hgroup hmsg with
            ⟨rfl, hmid, -, old, hold, holdmid⟩ | ⟨-, hold⟩
          · rw [hmid, ← holdmid]
            exact hpins g old ⟨group, hgroup, hold⟩
          · exact hpins g msg hold
      · rw [State.processMsgUpdated, if_neg hmem]
        exact ⟨hpins, hrows⟩

/-! ### Is the content current? -/

/-- One update of a message is taken: the last, or another one waits. -/
theorem not_mem_erase_iff {updated : List ℤ} {mid m : ℤ} (hmem : mid ∈ updated) :
    m ∉ updated.erase mid ↔ m ∉ updated ∨ m = mid ∧ updated.count mid = 1 := by
  by_cases hm : m = mid
  · obtain rfl := hm
    have hpos := List.count_pos_iff.2 hmem
    rw [← List.count_eq_zero, List.count_erase_self]
    constructor
    · exact fun hzero ↦ .inr ⟨rfl, by omega⟩
    · rintro (hnot | ⟨-, hone⟩)
      · exact absurd hmem hnot
      · omega
  · rw [List.mem_erase_of_ne hm]
    exact ⟨.inl, fun h ↦ h.resolve_right fun hne ↦ hm hne.1⟩

theorem current_processMsgUpdated_iff (h : p.Inv) (hcurrent : p.Current) (mid : ℤ) :
    Current { p with state := p.state.processMsgUpdated mid } ↔
      p.state.Orderly (.processMsgUpdated mid) := by
  by_cases hmem : mid ∈ p.state.updated
  · -- a message that is pinned, and not in the group that the update is taken to
    have hother : ∀ gid msg, p.state.Pinned gid msg → msg.mid ∉ p.state.updated.erase mid →
        (p.state.findPin mid).map Prod.fst ≠ some gid ∨ msg.mid ≠ mid →
          p.state.Orderly (.processMsgUpdated mid) →
            p.state.merged msg.mid = some msg.content := by
      rintro gid msg ⟨group, hgroup, hmsg⟩ hwaits hne horderly
      rcases (not_mem_erase_iff hmem).1 hwaits with hnot | ⟨rfl, hone⟩
      · exact hcurrent gid msg ⟨group, hgroup, hmsg⟩ hnot
      · obtain ⟨content, hcontent⟩ :=
          Option.isSome_iff_exists.1 (h.backed gid msg ⟨group, hgroup, hmsg⟩)
        have hgid := hne.resolve_right fun hself ↦ hself rfl
        rw [horderly hone gid group hgroup hgid msg hmsg rfl content hcontent]
        exact hcontent
    rcases State.processMsgUpdated_cases h.backed hmem with
      ⟨hnone, heq⟩ | ⟨gid, group, content, hfind, hgroup, hcontent, heq⟩
    · rw [heq]
      constructor
      · intro hafter hone g other hget _ msg hmsg hmid content hcontent
        have hmsg' := hafter g msg ⟨other, hget, hmsg⟩
          ((not_mem_erase_iff hmem).2 (.inr ⟨hmid, hone⟩))
        change p.state.merged msg.mid = _ at hmsg'
        rw [hmid, hcontent] at hmsg'
        exact (Option.some_inj.1 hmsg').symm
      · intro horderly g msg hmsg hwaits
        refine hother g msg hmsg hwaits (.inl ?_) horderly
        rw [hnone]
        exact fun hsome ↦ by cases hsome
    · rw [heq]
      have hfst : (p.state.findPin mid).map Prod.fst = some gid := by rw [hfind]; rfl
      constructor
      · intro hafter hone g other hget hne msg hmsg hmid content' hcontent'
        have hg : g ≠ gid := fun hself ↦ hne (hself ▸ hfst)
        have hkept : State.Pinned { p.state.take mid with
            groups := p.state.groups.insert gid (group.replacePin mid content) } g msg :=
          ⟨other, (OrderedMap.get_insert_of_ne _ _ hg).trans hget, hmsg⟩
        have hmsg' := hafter g msg hkept ((not_mem_erase_iff hmem).2 (.inr ⟨hmid, hone⟩))
        change p.state.merged msg.mid = _ at hmsg'
        rw [hmid, hcontent'] at hmsg'
        exact (Option.some_inj.1 hmsg').symm
      · intro horderly g msg hmsg hwaits
        show p.state.merged msg.mid = some msg.content
        rcases State.pinned_replacePin h.wellFormed hgroup hmsg with
          ⟨-, hmid, hnew, -⟩ | ⟨hne, hold⟩
        · rw [hmid, hcontent, hnew]
        · refine hother g msg hold hwaits (hne.imp_left fun hg hself ↦ hg ?_) horderly
          exact (Option.some_inj.1 (hfst.symm.trans hself)).symm
  · rw [State.processMsgUpdated, if_neg hmem]
    refine iff_of_true hcurrent fun hone ↦ absurd ?_ hmem
    exact List.count_pos_iff.1 (hone.symm ▸ Nat.one_pos)

theorem current_perform_iff (h : p.Inv) (hcurrent : p.Current) (a : PinAction) :
    (p.perform a).Current ↔ p.Noticed a := by
  -- a message that has changed, or is new, with its update in the channel
  have hrewrite : ∀ {mid : ℤ} {content' : Option ChatMessageContent}
      {sentTo' : ℤ → Option MessageTarget} {nextMid' : ℤ},
      Current ⟨{ p.state with
        merged := Function.update p.state.merged mid content'
        updated := p.state.updated ++ [mid] }, sentTo', nextMid'⟩ := by
    intro mid content' sentTo' nextMid' gid msg hmsg hwaits
    have hne : msg.mid ≠ mid := fun heq ↦
      hwaits (List.mem_append_right _ (List.mem_singleton.2 heq))
    show Function.update p.state.merged mid _ msg.mid = _
    rw [Function.update_of_ne hne]
    exact hcurrent gid msg hmsg fun hmem ↦ hwaits (List.mem_append_left _ hmem)
  cases a with
  | send target content => exact iff_of_true hrewrite trivial
  | deleteMessage mid => exact iff_of_true hcurrent trivial
  | editUnnoticed mid content =>
    constructor
    · intro hafter hsome hnot gid msg hmsg hmid
      have hmsg' := hafter gid msg hmsg (hmid ▸ hnot)
      obtain ⟨old, hold⟩ := Option.isSome_iff_exists.1 hsome
      change Function.update p.state.merged mid _ msg.mid = _ at hmsg'
      rw [hmid, Function.update_self, hold] at hmsg'
      exact (Option.some_inj.1 hmsg').symm
    · intro hnoticed gid msg hmsg hnot
      show Function.update p.state.merged mid _ msg.mid = _
      have hold := hcurrent gid msg hmsg hnot
      rw [Function.update_apply]
      split
      · rename_i hmid
        rw [hmid] at hold hnot
        rw [hold, Option.map_some, hnoticed (by rw [hold]; rfl) hnot gid msg hmsg hmid]
      · exact hold
  | other a =>
    rcases other_cases h a with ⟨s', heq, -, hkeeps, -, hnoticed⟩ |
      ⟨token, gid, mid, now, s', rfl, hpin, -, heq⟩ | ⟨mid, content, rfl⟩ | ⟨mid, rfl⟩
    · rw [heq]
      refine iff_of_true (fun gid msg hmsg hnot ↦ ?_) hnoticed
      show s'.merged msg.mid = _
      rw [hkeeps.merged]
      exact hcurrent gid msg (hkeeps.pinned gid msg hmsg) (hkeeps.updated ▸ hnot)
    · obtain ⟨content, hcontent, hmerged, hupdated, hpinned, -⟩ := State.pinMessage_eq_ok hpin
      rw [heq]
      refine iff_of_true (fun g msg hmsg hnot ↦ ?_) trivial
      show s'.merged msg.mid = _
      rw [hmerged]
      rcases (hpinned g msg).1 hmsg with hold | ⟨-, rfl⟩
      · exact hcurrent g msg hold (hupdated ▸ hnot)
      · exact hcontent
    · exact iff_of_true hrewrite trivial
    · exact current_processMsgUpdated_iff h hcurrent mid

end PinSystem

open PinSystem

/-- **What is pinned in a group was sent to it**, in every state of a run, if and only if whenever a
message is pinned in a group it is one that was sent to it: nothing else sees to it. -/
theorem sentHere_iff (as : List PinAction) :
    (∀ cs, cs <+: as →
      (∀ gid msg, (after cs).state.Pinned gid msg → (after cs).IsSentTo gid msg.mid) ∧
        ∀ row ∈ (after cs).state.tables.pinnedMessage, (after cs).IsSentTo row.gid row.mid) ↔
      Along (total perform) PinsOwn start as :=
  forall_prefix_iff_along (I := Inv) (P := SentHere) (f := perform) (fun _ a h ↦ inv_perform h a)
    (fun _ a h hsent ↦ sentHere_perform_iff h hsent a) inv_start
    ⟨fun gid msg h ↦ absurd h (not_pinned_start gid msg),
      fun _ hrow ↦ absurd hrow List.not_mem_nil⟩ as

/-- An administrator pins a direct message between two others in a public group. -/
theorem not_forall_isSentTo : ¬∀ (as : List PinAction) (gid : ℤ) (msg : PinnedMessage),
    (after as).state.Pinned gid msg → (after as).IsSentTo gid msg.mid := by
  intro h
  obtain ⟨g, hg, -⟩ := h [.other (.createUser false), .other (.createUser false),
    .other (.createUser false),
    .other (.create ⟨1, "web", true, false⟩ ⟨"all", none, [], true, false⟩),
    .send (.user 3) ⟨none, "text/plain", "between us"⟩,
    .other (.pinMessage ⟨1, "web", true, false⟩ 1 1 0)] 1
    ⟨1, 1, 0, ⟨none, "text/plain", "between us"⟩⟩ ⟨_, rfl, List.mem_singleton_self _⟩
  cases hg

/-- **What is pinned has the content of the message**, once the updates of it have been taken from
the channel, in every state of a run, if and only if no update is taken that another group needs,
and no edit of a pinned message is kept from the channel. And whatever happens, nothing is pinned
without a merged message, in the cache or in the table. -/
theorem current_iff (as : List PinAction) :
    ((∀ cs, cs <+: as → ∀ gid msg, (after cs).state.Pinned gid msg →
        msg.mid ∉ (after cs).state.updated → (after cs).state.merged msg.mid = some msg.content) ↔
      Along (total perform) Noticed start as) ∧
    (∀ gid msg, (after as).state.Pinned gid msg →
      ((after as).state.merged msg.mid).isSome = true) ∧
    ∀ row ∈ (after as).state.tables.pinnedMessage,
      ((after as).state.merged row.mid).isSome = true := by
  have hinv : (after as).Inv :=
    foldl_induction (I := Inv) (f := perform) (fun _ a h ↦ inv_perform h a) inv_start as
  refine ⟨?_, hinv.backed, fun row hrow ↦ hinv.merged_row hrow⟩
  exact forall_prefix_iff_along (I := Inv) (P := Current) (f := perform)
    (fun _ a h ↦ inv_perform h a) (fun _ a h hcurrent ↦ current_perform_iff h hcurrent a) inv_start
    (fun gid msg h ↦ absurd h (not_pinned_start gid msg)) as

/-- A message that is pinned in two groups is edited: the second keeps the old content. -/
theorem not_forall_current : ¬∀ as : List PinAction, (after as).state.updated = [] →
    ∀ gid msg, (after as).state.Pinned gid msg →
      (after as).state.merged msg.mid = some msg.content := by
  intro h
  have hrun := h [.other (.createUser false),
    .other (.create ⟨1, "web", true, false⟩ ⟨"all", none, [], true, false⟩),
    .other (.create ⟨1, "web", true, false⟩ ⟨"news", none, [], true, false⟩),
    .send (.group 1) ⟨none, "text/plain", "old"⟩,
    .other (.pinMessage ⟨1, "web", true, false⟩ 1 1 0),
    .other (.pinMessage ⟨1, "web", true, false⟩ 2 1 0),
    .other (.editMessage 1 ⟨none, "text/plain", "new"⟩),
    .other (.processMsgUpdated 1), .other (.processMsgUpdated 1)] rfl 2
    ⟨1, 1, 0, ⟨none, "text/plain", "old"⟩⟩ ⟨_, rfl, List.mem_singleton_self _⟩
  have hcontent := congrArg (Option.map ChatMessageContent.content) hrun
  revert hcontent
  decide +kernel

end Groups

end VoceChat
