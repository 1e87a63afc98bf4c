import VoceChat.Groups.State

/-!
# The two copies of a group

What is in the tables of a group and what is in the cache (`Copies`), and when a restart makes the
one the other (`Copies.Agree`). The content of a pinned message may be old in the cache while an
update of the message waits in the channel; `refresh` is what such a message becomes.

A request changes one group, in one of five ways (`Change`), and each of them keeps the copies in
agreement (`Change.agree`).
-/

namespace VoceChat

open Guards StableSort

namespace Groups

variable {merged merged' : ℤ → Option ChatMessageContent} {updated updated' : List ℤ}

/-! ### Contents that wait for an update -/

/-- A pinned message with the content of the message, if an update of it waits. -/
def PinnedMessage.refresh (merged : ℤ → Option ChatMessageContent) (updated : List ℤ)
    (msg : PinnedMessage) : PinnedMessage :=
  if msg.mid ∈ updated then { msg with content := (merged msg.mid).getD msg.content } else msg

def CacheGroup.refresh (merged : ℤ → Option ChatMessageContent) (updated : List ℤ)
    (group : CacheGroup) : CacheGroup :=
  { group with pinnedMessages := group.pinnedMessages.map (PinnedMessage.refresh merged updated) }

namespace PinnedMessage

@[simp] theorem refresh_mid (msg : PinnedMessage) : (msg.refresh merged updated).mid = msg.mid := by
  unfold refresh
  split <;> rfl

@[simp] theorem refresh_createdBy (msg : PinnedMessage) :
    (msg.refresh merged updated).createdBy = msg.createdBy := by
  unfold refresh
  split <;> rfl

@[simp] theorem refresh_createdAt (msg : PinnedMessage) :
    (msg.refresh merged updated).createdAt = msg.createdAt := by
  unfold refresh
  split <;> rfl

theorem refresh_content (msg : PinnedMessage) : (msg.refresh merged updated).content =
    if msg.mid ∈ updated then (merged msg.mid).getD msg.content else msg.content := by
  unfold refresh
  split <;> rfl

theorem refresh_of_merged {msg : PinnedMessage} (h : merged msg.mid = some msg.content) :
    msg.refresh merged updated = msg := by
  unfold refresh
  split
  · rw [h]
    rfl
  · rfl

theorem refresh_of_not_mem {msg : PinnedMessage} (h : msg.mid ∉ updated) :
    msg.refresh merged updated = msg :=
  if_neg h

/-- Of a message that was pinned with its content, or with one that waits for an update, the content
is what the message has now, once its latest update has been taken. -/
theorem refresh_append {mid : ℤ} (msg : PinnedMessage)
    (hother : ∀ m, m ≠ mid → merged' m = merged m)
    (hsome : ∀ m, (merged m).isSome = true → (merged' m).isSome = true) :
    (msg.refresh merged updated).refresh merged' [mid] =
    msg.refresh merged' (updated ++ [mid]) := by
  refine PinnedMessage.ext (by simp) (by simp) (by simp) ?_
  rw [refresh_content, refresh_content, refresh_content, refresh_mid]
  by_cases hmid : msg.mid = mid
  · rw [if_pos (List.mem_singleton.2 hmid),
      if_pos (List.mem_append_right _ (List.mem_singleton.2 hmid))]
    cases hmerged : merged' msg.mid with
    | some content => rfl
    | none =>
      have hnone : merged msg.mid = none := by
        by_contra hne
        have := hsome msg.mid (Option.isSome_iff_ne_none.2 hne)
        rw [hmerged] at this
        cases this
      rw [hnone, Option.getD_none, Option.getD_none, ite_self]
  · have hmem : msg.mid ∈ updated ++ [mid] ↔ msg.mid ∈ updated := by
      rw [List.mem_append, List.mem_singleton, or_iff_left hmid]
    rw [if_neg (mt List.mem_singleton.1 hmid), hother msg.mid hmid]
    simp only [hmem]

/-- An update is taken. -/
theorem refresh_erase_iff {msg : PinnedMessage} {mid : ℤ} :
    msg.refresh merged (updated.erase mid) = msg.refresh merged updated ↔
      (updated.count mid = 1 → msg.mid = mid →
        ∀ content, merged mid = some content → msg.content = content) := by
  have hcontent : msg.refresh merged (updated.erase mid) = msg.refresh merged updated ↔
      (msg.refresh merged (updated.erase mid)).content = (msg.refresh merged updated).content :=
    ⟨fun h ↦ congrArg _ h, fun h ↦ PinnedMessage.ext (by simp) (by simp) (by simp) h⟩
  rw [hcontent, refresh_content, refresh_content]
  by_cases hmid : msg.mid = mid
  · obtain rfl := hmid
    by_cases hcount : updated.count msg.mid = 1
    · have hmem : msg.mid ∈ updated := List.count_pos_iff.1 (by omega)
      have hnot : msg.mid ∉ updated.erase msg.mid := by
        rw [← List.count_eq_zero, List.count_erase_self, hcount]
      rw [if_neg hnot, if_pos hmem]
      cases merged msg.mid with
      | none => exact iff_of_true rfl fun _ _ content h ↦ by cases h
      | some content =>
        refine ⟨fun h _ _ other hother ↦ ?_, fun h ↦ h hcount rfl content rfl⟩
        rw [← Option.some_inj.1 hother]
        exact h
    · have hmem : msg.mid ∈ updated.erase msg.mid ↔ msg.mid ∈ updated := by
        rw [← List.count_pos_iff, ← List.count_pos_iff, List.count_erase_self]
        omega
      simp only [hmem]
      exact iff_of_true trivial fun h ↦ absurd h hcount
  · simp only [List.mem_erase_of_ne hmid]
    exact iff_of_true trivial fun _ h ↦ absurd h hmid

end PinnedMessage

theorem CacheGroup.refresh_of_forall {group : CacheGroup}
    (h : ∀ msg ∈ group.pinnedMessages, msg.mid ∉ updated) :
    group.refresh merged updated = group := by
  have hpins : group.pinnedMessages.map (PinnedMessage.refresh merged updated) =
      group.pinnedMessages :=
    (List.map_congr_left fun msg hmsg ↦ msg.refresh_of_not_mem (h msg hmsg)).trans (List.map_id _)
  rw [CacheGroup.refresh, hpins]

/-! ### The copies -/

/-- A group in the tables and in the cache. -/
structure Copies where
  row : Option GroupRow
  members : Finset ℤ
  pins : List PinRow
  cached : Option CacheGroup

/-- The row says of a group what the cache says. -/
structure GroupRow.Describes (row : GroupRow) (group : CacheGroup) : Prop where
  ty : row.ty = some group.ty
  name : row.name = group.name
  description : row.description = group.description
  avatarUpdatedAt : row.avatarUpdatedAt = group.avatarUpdatedAt
  e2eEnabled : row.e2eEnabled = group.e2eEnabled

/-- The row does not say who the members are and what is pinned. -/
theorem GroupRow.Describes.congr {row : GroupRow} {group : CacheGroup} (h : row.Describes group)
    (members : Finset ℤ) (pinnedMessages : List PinnedMessage) :
    row.Describes { group with members, pinnedMessages } :=
  ⟨h.ty, h.name, h.description, h.avatarUpdatedAt, h.e2eEnabled⟩

theorem GroupRow.isPublic_of_ty {row : GroupRow} (h : row.ty = some .isPublic) :
    row.isPublic = true := by
  unfold GroupRow.ty at h
  split at h
  · assumption
  · obtain ⟨owner, -, howner⟩ := Option.map_eq_some_iff.1 h
    cases howner

namespace Copies

/-- There is no such group. -/
def absent : Copies := ⟨none, ∅, [], none⟩

def loadPins (merged : ℤ → Option ChatMessageContent) (pins : List PinRow) : List PinnedMessage :=
  sortPins (pins.filterMap fun row ↦
    (merged row.mid).map (PinnedMessage.mk row.mid row.createdBy row.createdAt))

/-- The group as a restart loads it. -/
def load (merged : ℤ → Option ChatMessageContent) (c : Copies) : Option CacheGroup := do
  let row ← c.row
  let ty ← row.ty
  return {
    ty := ty
    name := row.name
    description := row.description
    members := c.members
    avatarUpdatedAt := row.avatarUpdatedAt
    pinnedMessages := loadPins merged c.pins
    e2eEnabled := row.e2eEnabled }

/-- The cache has what a restart loads, once the updates that wait have been taken. -/
def Agree (merged : ℤ → Option ChatMessageContent) (updated : List ℤ) (c : Copies) : Prop :=
  c.load merged = c.cached.map (CacheGroup.refresh merged updated)

/-- What holds of the copies in any case: only groups that are there have members, pins and an entry
in the cache, a private group has an owner, a public group has no members, and what is pinned is
pinned once and has a content. -/
structure WellFormed (merged : ℤ → Option ChatMessageContent) (c : Copies) : Prop where
  rowless : c.row = none → c = absent
  typed : ∀ row, c.row = some row → row.ty.isSome = true ∧ (row.isPublic = true → c.members = ∅)
  cached : ∀ group, c.cached = some group → ∃ row, c.row = some row ∧ row.ty = some group.ty
  pinnedOnce : ∀ group, c.cached = some group →
    (group.pinnedMessages.map PinnedMessage.mid).Nodup
  content : ∀ row ∈ c.pins, (merged row.mid).isSome = true

variable {c : Copies} {group : CacheGroup}

theorem wellFormed_absent : absent.WellFormed merged where
  rowless _ := rfl
  typed _ h := by cases h
  cached _ h := by cases h
  pinnedOnce _ h := by cases h
  content _ h := by cases h

theorem load_eq_some : c.load merged = some group ↔
    ∃ row, c.row = some row ∧ row.Describes group ∧ c.members = group.members ∧
      loadPins merged c.pins = group.pinnedMessages := by
  unfold load
  constructor
  · intro h
    obtain ⟨row, hrow, h⟩ := Option.bind_eq_some_iff.1 h
    obtain ⟨ty, hty, h⟩ := Option.bind_eq_some_iff.1 h
    obtain rfl := Option.some_inj.1 h
    exact ⟨row, hrow, ⟨hty, rfl, rfl, rfl, rfl⟩, rfl, rfl⟩
  · rintro ⟨row, hrow, ⟨hty, hname, hdescription, havatar, he2e⟩, hmembers, hpins⟩
    rw [hrow, Option.bind_eq_bind, Option.bind_some, hty, Option.bind_eq_bind, Option.bind_some,
      hname, hdescription, havatar, he2e, hmembers, hpins]
    rfl

theorem load_eq_none (h : c.WellFormed merged) : c.load merged' = none ↔ c.row = none := by
  constructor
  · intro hload
    by_contra hrow
    obtain ⟨row, hrow⟩ := Option.ne_none_iff_exists'.1 hrow
    obtain ⟨ty, hty⟩ := Option.isSome_iff_exists.1 (h.typed row hrow).1
    unfold load at hload
    rw [hrow, Option.bind_eq_bind, Option.bind_some, hty] at hload
    cases hload
  · intro hrow
    rw [load, hrow]
    rfl

theorem agree_of_none (hc : c.cached = none) : c.Agree merged updated ↔ c.load merged = none := by
  rw [Agree, hc, Option.map_none]

theorem agree_of_some (hc : c.cached = some group) : c.Agree merged updated ↔
    ∃ row, c.row = some row ∧ row.Describes group ∧ c.members = group.members ∧
      loadPins merged c.pins = group.pinnedMessages.map (PinnedMessage.refresh merged updated) := by
  rw [Agree, hc, Option.map_some, load_eq_some]
  -- the fields that `Describes` compares are those that `refresh` keeps
  refine exists_congr fun row ↦ and_congr_right fun _ ↦ and_congr_left fun _ ↦ ?_
  exact ⟨fun h ↦ ⟨h.ty, h.name, h.description, h.avatarUpdatedAt, h.e2eEnabled⟩,
    fun h ↦ ⟨h.ty, h.name, h.description, h.avatarUpdatedAt, h.e2eEnabled⟩⟩

theorem agree_absent : absent.Agree merged updated := rfl

/-! ### Pins -/

theorem loadPins_filter (p : ℤ → ℤ → Bool) (pins : List PinRow) :
    loadPins merged (pins.filter fun row ↦ p row.mid row.createdBy) =
      (loadPins merged pins).filter fun msg ↦ p msg.mid msg.createdBy := by
  rw [loadPins, loadPins, ← sortBy_filter, List.filter_filterMap, List.filterMap_filter]
  refine congrArg _ (List.filterMap_congr fun row _ ↦ ?_)
  cases merged row.mid with
  | none => cases p row.mid row.createdBy <;> rfl
  | some content => rfl

/-- A message that is pinned last. -/
theorem loadPins_append {row : PinRow} {content : ChatMessageContent}
    (h : merged row.mid = some content) (pins : List PinRow) :
    loadPins merged (pins ++ [row]) =
      sortPins (loadPins merged pins ++ [⟨row.mid, row.createdBy, row.createdAt, content⟩]) := by
  have hlast : [row].filterMap (fun row ↦
      (merged row.mid).map (PinnedMessage.mk row.mid row.createdBy row.createdAt)) =
        [⟨row.mid, row.createdBy, row.createdAt, content⟩] := by
    rw [List.filterMap_cons, h]
    rfl
  rw [loadPins, loadPins, sortPins, sortPins, sortBy_sortBy_append, List.filterMap_append, hlast]

theorem merged_of_mem_loadPins {pins : List PinRow} {msg : PinnedMessage}
    (h : msg ∈ loadPins merged pins) : merged msg.mid = some msg.content := by
  obtain ⟨row, -, hrow⟩ := List.mem_filterMap.1 (mem_sortBy.1 h)
  obtain ⟨content, hcontent, rfl⟩ := Option.map_eq_some_iff.1 hrow
  exact hcontent

theorem map_refresh_sortPins (pins : List PinnedMessage) :
    (sortPins pins).map (PinnedMessage.refresh merged updated) =
      sortPins (pins.map (PinnedMessage.refresh merged updated)) :=
  (sortBy_map _ PinnedMessage.refresh_createdAt pins).symm

/-- What is pinned once is all there is of it. -/
theorem eraseP_mid {pins : List PinnedMessage} (h : (pins.map PinnedMessage.mid).Nodup) (mid : ℤ) :
    pins.eraseP (fun msg ↦ msg.mid = mid) = pins.filter fun msg ↦ msg.mid ≠ mid := by
  induction pins with
  | nil => rfl
  | cons msg pins ih =>
    obtain ⟨hnew, hpins⟩ := List.nodup_cons.1 h
    rw [List.eraseP_cons, List.filter_cons]
    by_cases hmid : msg.mid = mid
    · have hrest : ∀ other ∈ pins, other.mid ≠ mid := by
        rintro other hother rfl
        exact hnew (hmid ▸ List.mem_map_of_mem hother)
      simp only [hmid, decide_true, cond_true, ne_eq, not_true_eq_false, decide_false]
      exact (List.filter_eq_self.2 fun other hother ↦ decide_eq_true (hrest other hother)).symm
    · simp only [hmid, decide_false, cond_false, ne_eq, not_false_eq_true, decide_true, if_true]
      exact congrArg (msg :: ·) (ih hpins)

theorem replacePin_cons (mid : ℤ) (content : ChatMessageContent) (msg : PinnedMessage)
    (pins : List PinnedMessage) : replacePin mid content (msg :: pins) =
      if msg.mid = mid then { msg with content := content } :: pins
      else msg :: replacePin mid content pins := by
  by_cases hmid : msg.mid = mid
  · rw [if_pos hmid, replacePin, List.replaceF_cons_of_some]
    exact if_pos hmid
  · rw [if_neg hmid, replacePin, List.replaceF_cons_of_none]
    · rfl
    · exact if_neg hmid

theorem map_mid_replacePin (pins : List PinnedMessage) (mid : ℤ) (content : ChatMessageContent) :
    (replacePin mid content pins).map PinnedMessage.mid = pins.map PinnedMessage.mid := by
  induction pins with
  | nil => rfl
  | cons msg pins ih =>
    rw [replacePin_cons]
    split
    · rfl
    · exact congrArg (msg.mid :: ·) ih

/-- What is pinned once has no other update that waits, when its own has been taken. -/
theorem map_refresh_replacePin {pins : List PinnedMessage}
    (h : (pins.map PinnedMessage.mid).Nodup) {mid : ℤ} {content : ChatMessageContent}
    (hcontent : merged mid = some content) (hmem : mid ∈ updated) :
    (replacePin mid content pins).map (PinnedMessage.refresh merged (updated.erase mid)) =
      pins.map (PinnedMessage.refresh merged updated) := by
  have hne : ∀ msg : PinnedMessage, msg.mid ≠ mid →
      msg.refresh merged (updated.erase mid) = msg.refresh merged updated :=
    fun msg hmid ↦ PinnedMessage.refresh_erase_iff.2 fun _ heq ↦ absurd heq hmid
  induction pins with
  | nil => rfl
  | cons msg pins ih =>
    obtain ⟨hnew, hpins⟩ := List.nodup_cons.1 h
    rw [replacePin_cons]
    split
    · rename_i hmid
      have hhead : ({ msg with content := content } : PinnedMessage).refresh merged
          (updated.erase mid) = msg.refresh merged updated := by
        rw [PinnedMessage.refresh_of_merged (hmid ▸ hcontent), PinnedMessage.refresh,
          if_pos (hmid ▸ hmem), hmid, hcontent]
        rfl
      rw [List.map_cons, List.map_cons, hhead]
      refine congrArg _ (List.map_congr_left fun other hother ↦ hne other fun heq ↦ hnew ?_)
      rw [hmid, ← heq]
      exact List.mem_map_of_mem hother
    · rename_i hmid
      rw [List.map_cons, List.map_cons, hne msg hmid, ih hpins]

/-- What is pinned in a group whose copies agree has a content. -/
theorem Agree.isSome_merged (hagree : c.Agree merged updated) (hcached : c.cached = some group)
    {msg : PinnedMessage} (hmsg : msg ∈ group.pinnedMessages) : (merged msg.mid).isSome = true := by
  obtain ⟨row, -, -, -, hpins⟩ := (agree_of_some hcached).1 hagree
  have hmem : msg.refresh merged updated ∈ loadPins merged c.pins := by
    rw [hpins]
    exact List.mem_map_of_mem hmsg
  have hmerged := merged_of_mem_loadPins hmem
  rw [PinnedMessage.refresh_mid] at hmerged
  rw [hmerged]
  rfl

/-! ### Changes -/

/-- What a request does with a group. -/
inductive Change (merged : ℤ → Option ChatMessageContent) : Copies → Copies → Prop
  | create {row : GroupRow} {group : CacheGroup} {members : Finset ℤ} (hdesc : row.Describes group)
      (hmembers : members = group.members) (hpublic : row.isPublic = true → members = ∅)
      (hpins : group.pinnedMessages = []) : Change merged absent ⟨some row, members, [], some group⟩
  | delete (c : Copies) : Change merged c absent
  | update {c : Copies} {row row' : GroupRow} {group group' : CacheGroup} {members' : Finset ℤ}
      (hrow : c.row = some row) (hcached : c.cached = some group) (hty : row'.ty = some group'.ty)
      (hpublic : row'.isPublic = true → members' = ∅)
      (hdesc : row.Describes group → row'.Describes group')
      (hmembers : c.members = group.members → members' = group'.members)
      (hpins : group'.pinnedMessages = group.pinnedMessages) :
      Change merged c ⟨some row', members', c.pins, some group'⟩
  | pin {c : Copies} {group : CacheGroup} (row : PinRow) {content : ChatMessageContent}
      (hcached : c.cached = some group) (hnew : ∀ msg ∈ group.pinnedMessages, msg.mid ≠ row.mid)
      (hcontent : merged row.mid = some content) :
      Change merged c { c with
        pins := c.pins ++ [row]
        cached := some { group with
          pinnedMessages := sortPins
            (group.pinnedMessages ++ [⟨row.mid, row.createdBy, row.createdAt, content⟩]) } }
  | unpin {c : Copies} {group : CacheGroup} (mid : ℤ) (hcached : c.cached = some group) :
      Change merged c { c with
        pins := c.pins.filter fun row ↦ row.mid ≠ mid
        cached := some { group with
          pinnedMessages := group.pinnedMessages.eraseP fun msg ↦ msg.mid = mid } }

variable {c' : Copies}

theorem Change.wellFormed (hchange : Change merged c c') (h : c.WellFormed merged) :
    c'.WellFormed merged := by
  cases hchange with
  | create hdesc hmembers hpublic hpins =>
    refine ⟨fun hrow ↦ absurd hrow (Option.some_ne_none _), fun row hrow ↦ ?_,
      fun group hgroup ↦ ?_, fun group hgroup ↦ ?_, fun row hrow ↦ absurd hrow List.not_mem_nil⟩
    · obtain rfl := Option.some_inj.1 hrow
      exact ⟨Option.isSome_iff_exists.2 ⟨_, hdesc.ty⟩, hpublic⟩
    · obtain rfl := Option.some_inj.1 hgroup
      exact ⟨_, rfl, hdesc.ty⟩
    · obtain rfl := Option.some_inj.1 hgroup
      rw [hpins]
      exact List.nodup_nil
  | delete => exact wellFormed_absent
  | update hrow hcached hty hpublic hdesc hmembers hpins =>
    refine ⟨fun hrow ↦ absurd hrow (Option.some_ne_none _), fun row hrow ↦ ?_,
      fun group hgroup ↦ ?_, fun group hgroup ↦ ?_, h.content⟩
    · obtain rfl := Option.some_inj.1 hrow
      exact ⟨Option.isSome_iff_exists.2 ⟨_, hty⟩, hpublic⟩
    · obtain rfl := Option.some_inj.1 hgroup
      exact ⟨_, rfl, hty⟩
    · obtain rfl := Option.some_inj.1 hgroup
      rw [hpins]
      exact h.pinnedOnce _ hcached
  | pin row hcached hnew hcontent =>
    obtain ⟨grow, hrow, hty⟩ := h.cached _ hcached
    refine ⟨fun hnone ↦ absurd (hrow.symm.trans hnone) (Option.some_ne_none _), h.typed,
      fun group hgroup ↦ ?_, fun group hgroup ↦ ?_, fun other hother ↦ ?_⟩
    · obtain rfl := Option.some_inj.1 hgroup
      exact ⟨grow, hrow, hty⟩
    · obtain rfl := Option.some_inj.1 hgroup
      refine (((sortBy_perm _ _).map PinnedMessage.mid).nodup_iff).2 ?_
      rw [List.map_append]
      refine List.nodup_append.2 ⟨h.pinnedOnce _ hcached, List.nodup_singleton _, ?_⟩
      intro mid hmid other hother
      obtain ⟨msg, hmsg, rfl⟩ := List.mem_map.1 hmid
      rw [List.mem_singleton.1 hother]
      exact hnew msg hmsg
    · rcases List.mem_append.1 hother with hother | hother
      · exact h.content other hother
      · rw [List.mem_singleton.1 hother, hcontent]
        rfl
  | unpin mid hcached =>
    obtain ⟨grow, hrow, hty⟩ := h.cached _ hcached
    refine ⟨fun hnone ↦ absurd (hrow.symm.trans hnone) (Option.some_ne_none _), h.typed,
      fun group hgroup ↦ ?_, fun group hgroup ↦ ?_, fun other hother ↦ ?_⟩
    · obtain rfl := Option.some_inj.1 hgroup
      exact ⟨grow, hrow, hty⟩
    · obtain rfl := Option.some_inj.1 hgroup
      exact (h.pinnedOnce _ hcached).sublist (List.eraseP_sublist.map _)
    · exact h.content other (List.mem_of_mem_filter hother)

/-- Copies that agree still do when a request has changed the group. -/
theorem Change.agree (hchange : Change merged c c') (h : c.WellFormed merged)
    (hagree : c.Agree merged updated) : c'.Agree merged updated := by
  cases hchange with
  | create hdesc hmembers hpublic hpins =>
    refine (agree_of_some rfl).2 ⟨_, rfl, hdesc, hmembers, ?_⟩
    rw [hpins]
    rfl
  | delete => exact agree_absent
  | update hrow hcached hty hpublic hdesc hmembers hpins =>
    obtain ⟨row, hrow', hrdesc, hrmembers, hrpins⟩ := (agree_of_some hcached).1 hagree
    obtain rfl := Option.some_inj.1 (hrow.symm.trans hrow')
    refine (agree_of_some rfl).2 ⟨_, rfl, hdesc hrdesc, hmembers hrmembers, ?_⟩
    rw [hpins]
    exact hrpins
  | pin row hcached hnew hcontent =>
    obtain ⟨grow, hrow, hdesc, hmembers, hpins⟩ := (agree_of_some hcached).1 hagree
    refine (agree_of_some rfl).2 ?_
    refine ⟨grow, hrow, hdesc.congr _ _, hmembers, ?_⟩
    rw [loadPins_append hcontent, hpins, map_refresh_sortPins, List.map_append, List.map_singleton,
      PinnedMessage.refresh_of_merged hcontent]
  | unpin mid hcached =>
    obtain ⟨grow, hrow, hdesc, hmembers, hpins⟩ := (agree_of_some hcached).1 hagree
    refine (agree_of_some rfl).2 ?_
    refine ⟨grow, hrow, hdesc.congr _ _, hmembers, ?_⟩
    rw [eraseP_mid (h.pinnedOnce _ hcached)]
    show loadPins merged (c.pins.filter fun row ↦ row.mid ≠ mid) = _
    rw [loadPins_filter (fun m _ ↦ m ≠ mid), hpins, List.filter_map]
    simp only [Function.comp_def, PinnedMessage.refresh_mid]

/-! ### The deletion of a user -/

def deleteUser (uid : ℤ) (c : Copies) : Copies where
  row := c.row
  members := c.members.erase uid
  pins := c.pins.filter fun row ↦ row.createdBy ≠ uid
  cached := c.cached.bind (CacheGroup.deleteUser uid)

/-- A group that stays in the cache is not the user's own. It keeps all but the members. -/
theorem deleteUser_eq_some {uid : ℤ} {group' : CacheGroup}
    (h : group.deleteUser uid = some group') : group.ty ≠ .isPrivate uid ∧
      group' = { group with members := group'.members } ∧
      (group.ty ≠ .isPublic → group'.members = group.members.erase uid) ∧
      (group.ty = .isPublic → group'.members = group.members) := by
  unfold CacheGroup.deleteUser at h
  split at h
  · rename_i hty
    obtain rfl := Option.some_inj.1 h
    exact ⟨fun hown ↦ (by cases hty.symm.trans hown), rfl, fun hne ↦ absurd hty hne, fun _ ↦ rfl⟩
  · rename_i owner hty
    obtain ⟨hown, h⟩ := (Option.ite_none_left_eq_some).1 h
    obtain rfl := Option.some_inj.1 h
    refine ⟨fun heq ↦ hown ?_, rfl, fun _ ↦ rfl, fun hpublic ↦ (by cases hty.symm.trans hpublic)⟩
    exact GroupType.isPrivate.inj (hty.symm.trans heq)

theorem deleteUser_eq_none {uid : ℤ} : group.deleteUser uid = none ↔ group.ty = .isPrivate uid := by
  unfold CacheGroup.deleteUser
  split
  · rename_i hty
    exact iff_of_false (Option.some_ne_none _) fun hown ↦ by cases hty.symm.trans hown
  · rename_i owner hty
    rw [hty, GroupType.isPrivate.injEq]
    split <;> rename_i hown
    · exact iff_of_true rfl hown
    · exact iff_of_false (Option.some_ne_none _) hown

theorem WellFormed.deleteUser (h : c.WellFormed merged) (uid : ℤ) :
    (c.deleteUser uid).WellFormed merged where
  rowless hrow := by
    rw [h.rowless hrow]
    rfl
  typed row hrow := by
    refine ⟨(h.typed row hrow).1, fun hpublic ↦ ?_⟩
    rw [Copies.deleteUser, (h.typed row hrow).2 hpublic]
    rfl
  cached group hgroup := by
    obtain ⟨origin, horigin, hdelete⟩ := Option.bind_eq_some_iff.1 hgroup
    obtain ⟨row, hrow, hty⟩ := h.cached origin horigin
    refine ⟨row, hrow, hty.trans ?_⟩
    rw [(deleteUser_eq_some hdelete).2.1]
  pinnedOnce group hgroup := by
    obtain ⟨origin, horigin, hdelete⟩ := Option.bind_eq_some_iff.1 hgroup
    rw [(deleteUser_eq_some hdelete).2.1]
    exact h.pinnedOnce origin horigin
  content row hrow := h.content row (List.mem_of_mem_filter hrow)

/-- The copies agree on what is left exactly when the user neither owned the group nor had pinned
anything there: the tables keep the group, and the cache keeps the pins. -/
theorem deleteUser_agree_iff (h : c.WellFormed merged) (hagree : c.Agree merged updated) (uid : ℤ) :
    (c.deleteUser uid).Agree merged updated ↔ ∀ group, c.cached = some group →
      group.ty ≠ .isPrivate uid ∧ ∀ msg ∈ group.pinnedMessages, msg.createdBy ≠ uid := by
  cases hcached : c.cached with
  | none =>
    refine iff_of_true ?_ fun group hgroup ↦ by cases hgroup
    have hrow := (load_eq_none h).1 ((agree_of_none hcached).1 hagree)
    rw [h.rowless hrow]
    exact agree_absent
  | some group =>
    obtain ⟨row, hrow, hdesc, hmembers, hpins⟩ := (agree_of_some hcached).1 hagree
    have hbind : (c.deleteUser uid).cached = group.deleteUser uid := by
      rw [Copies.deleteUser, hcached]
      rfl
    have hforall : (∀ other, some group = some other → other.ty ≠ .isPrivate uid ∧
        ∀ msg ∈ other.pinnedMessages, msg.createdBy ≠ uid) ↔
          group.ty ≠ .isPrivate uid ∧ ∀ msg ∈ group.pinnedMessages, msg.createdBy ≠ uid := by
      refine ⟨fun hall ↦ hall group rfl, fun hall other heq ↦ ?_⟩
      obtain rfl := Option.some_inj.1 heq
      exact hall
    rw [hforall]
    cases hdelete : group.deleteUser uid with
    | none =>
      -- the row of the group is still there
      refine iff_of_false (fun hagree' ↦ ?_) fun hall ↦ hall.1 (deleteUser_eq_none.1 hdelete)
      have hload := (agree_of_none (hbind.trans hdelete)).1 hagree'
      rw [load_eq_none (h.deleteUser uid)] at hload
      cases hrow.symm.trans hload
    | some group' =>
      obtain ⟨hown, hgroup', hprivate, hpublic⟩ := deleteUser_eq_some hdelete
      have hmembers' : c.members.erase uid = group'.members := by
        by_cases hty : group.ty = .isPublic
        · have hempty := (h.typed row hrow).2 (row.isPublic_of_ty (hdesc.ty.trans (congrArg _ hty)))
          rw [hpublic hty, ← hmembers, hempty]
          rfl
        · rw [hprivate hty, hmembers]
      have hpins' : loadPins merged (c.deleteUser uid).pins =
          (group.pinnedMessages.map (PinnedMessage.refresh merged updated)).filter
            fun msg ↦ msg.createdBy ≠ uid := by
        rw [← hpins]
        exact loadPins_filter (fun _ u ↦ u ≠ uid) c.pins
      have hsame : group'.pinnedMessages = group.pinnedMessages := by
        rw [hgroup']
      rw [agree_of_some (hbind.trans hdelete), hpins', hsame]
      constructor
      · rintro ⟨-, -, -, -, hfilter⟩
        refine ⟨hown, fun msg hmsg ↦ ?_⟩
        have hkept := List.filter_eq_self.1 hfilter _ (List.mem_map_of_mem hmsg)
        rwa [decide_eq_true_iff, PinnedMessage.refresh_createdBy] at hkept
      · rintro ⟨-, hall⟩
        refine ⟨row, hrow, ?_, hmembers', List.filter_eq_self.2 fun msg hmsg ↦ ?_⟩
        · rw [hgroup']
          exact hdesc.congr _ _
        · obtain ⟨origin, horigin, rfl⟩ := List.mem_map.1 hmsg
          rw [decide_eq_true_iff, PinnedMessage.refresh_createdBy]
          exact hall origin horigin

/-! ### Messages that change -/

theorem WellFormed.rewrite (h : c.WellFormed merged)
    (hsome : ∀ mid, (merged mid).isSome = true → (merged' mid).isSome = true) :
    c.WellFormed merged' where
  rowless := h.rowless
  typed := h.typed
  cached := h.cached
  pinnedOnce := h.pinnedOnce
  content row hrow := hsome row.mid (h.content row hrow)

/-- A message whose content has changed waits for its update. -/
theorem Agree.rewrite (hagree : c.Agree merged updated) (h : c.WellFormed merged) {mid : ℤ}
    (hother : ∀ m, m ≠ mid → merged' m = merged m)
    (hsome : ∀ m, (merged m).isSome = true → (merged' m).isSome = true) :
    c.Agree merged' (updated ++ [mid]) := by
  cases hcached : c.cached with
  | none =>
    have hload := (agree_of_none hcached).1 hagree
    exact (agree_of_none hcached).2 ((load_eq_none h).2 ((load_eq_none h).1 hload))
  | some group =>
    obtain ⟨row, hrow, hdesc, hmembers, hpins⟩ := (agree_of_some hcached).1 hagree
    refine (agree_of_some hcached).2 ⟨row, hrow, hdesc, hmembers, ?_⟩
    -- on both sides the content of this message is replaced
    have hload : loadPins merged' c.pins =
        (loadPins merged c.pins).map (PinnedMessage.refresh merged' [mid]) := by
      rw [loadPins, loadPins, map_refresh_sortPins, List.map_filterMap]
      refine congrArg _ (List.filterMap_congr fun row hrow ↦ ?_)
      obtain ⟨content, hcontent⟩ := Option.isSome_iff_exists.1 (h.content row hrow)
      obtain ⟨content', hcontent'⟩ := Option.isSome_iff_exists.1 (hsome _ (h.content row hrow))
      rw [hcontent, hcontent', Option.map_some, Option.map_some, Option.map_some]
      by_cases hmid : row.mid = mid
      · rw [PinnedMessage.refresh, if_pos (List.mem_singleton.2 hmid), hcontent']
        rfl
      · have hsame : content' = content := by
          refine Option.some_inj.1 ?_
          rw [← hcontent', ← hcontent, hother row.mid hmid]
        rw [PinnedMessage.refresh_of_not_mem fun hmem ↦ hmid (List.mem_singleton.1 hmem), hsame]
    rw [hload, hpins, List.map_map]
    exact List.map_congr_left fun msg _ ↦ msg.refresh_append hother hsome

/-- Only the pinned messages are replaced. -/
theorem Agree.repin_iff (hagree : c.Agree merged updated) (hcached : c.cached = some group)
    {pins : List PinnedMessage} : Agree merged updated' { c with
      cached := some { group with pinnedMessages := pins } } ↔
        pins.map (PinnedMessage.refresh merged updated') =
          group.pinnedMessages.map (PinnedMessage.refresh merged updated) := by
  obtain ⟨row, hrow, hdesc, hmembers, hpins⟩ := (agree_of_some hcached).1 hagree
  rw [agree_of_some rfl]
  constructor
  · rintro ⟨-, -, -, -, hpins'⟩
    exact hpins'.symm.trans hpins
  · intro heq
    exact ⟨row, hrow, hdesc.congr _ _, hmembers, hpins.trans heq.symm⟩

/-- An update is taken and nothing done about it here: it must have been the last that waits of the
message, and the content here old, for this to make a difference. -/
theorem Agree.erase_iff (hagree : c.Agree merged updated) (mid : ℤ) :
    c.Agree merged (updated.erase mid) ↔ (updated.count mid = 1 → ∀ group, c.cached = some group →
      ∀ msg ∈ group.pinnedMessages, msg.mid = mid →
        ∀ content, merged mid = some content → msg.content = content) := by
  cases hcached : c.cached with
  | none =>
    exact iff_of_true ((agree_of_none hcached).2 ((agree_of_none hcached).1 hagree))
      fun _ group hgroup ↦ by cases hgroup
  | some group =>
    have hself : c = { c with
        cached := some { group with pinnedMessages := group.pinnedMessages } } := by
      rw [← hcached]
    rw [hself, hagree.repin_iff hcached, List.map_inj_left]
    constructor
    · intro hall hcount other heq msg hmsg
      obtain rfl := Option.some_inj.1 heq
      exact PinnedMessage.refresh_erase_iff.1 (hall msg hmsg) hcount
    · intro hall msg hmsg
      exact PinnedMessage.refresh_erase_iff.2 fun hcount ↦ hall hcount group rfl msg hmsg

/-- An update is taken to the pinned message that it is of. -/
theorem Agree.replace (hagree : c.Agree merged updated) (h : c.WellFormed merged)
    (hcached : c.cached = some group) {mid : ℤ} {content : ChatMessageContent}
    (hcontent : merged mid = some content) (hmem : mid ∈ updated) :
    Agree merged (updated.erase mid) { c with cached := some (group.replacePin mid content) } :=
  (hagree.repin_iff hcached).2 (map_refresh_replacePin (h.pinnedOnce group hcached) hcontent hmem)

theorem WellFormed.replace (h : c.WellFormed merged) (hcached : c.cached = some group) (mid : ℤ)
    (content : ChatMessageContent) :
    WellFormed merged { c with cached := some (group.replacePin mid content) } := by
  obtain ⟨row, hrow, hty⟩ := h.cached group hcached
  refine ⟨fun hnone ↦ absurd (hrow.symm.trans hnone) (Option.some_ne_none _), h.typed,
    fun group' hgroup ↦ ?_, fun group' hgroup ↦ ?_, h.content⟩
  · obtain rfl := Option.some_inj.1 hgroup
    exact ⟨row, hrow, hty⟩
  · obtain rfl := Option.some_inj.1 hgroup
    rw [CacheGroup.replacePin, map_mid_replacePin]
    exact h.pinnedOnce group hcached

end Copies

end Groups

end VoceChat
