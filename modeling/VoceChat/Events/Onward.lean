import VoceChat.Events.Delivery

/-!
# What any step does to a session and to its messages

Two frame results over all actions, for what is built on the event system: messages stay and new ids
are larger (`Follows`), and an open session goes on for the same user until it is closed
(`Onward`).
-/

namespace VoceChat

open MsgDb

theorem EventSession.mem_mids_push (x : EventSession) {event : ChatEvent} {mid : ℤ}
    (h : mid ∈ (x.push event).mids) : mid ∈ x.mids ∨ mid = event.message.mid := by
  have hqueue : (x.push event).queue.Sublist (x.queue ++ [event]) ∧ (x.push event).tx = x.tx ∧
      (x.push event).uid = x.uid := by
    rw [push]
    split
    · exact ⟨.refl _, rfl, rfl⟩
    · exact ⟨.refl _, rfl, rfl⟩
    · exact ⟨List.sublist_append_left _ _, rfl, rfl⟩
    · exact ⟨List.sublist_append_left _ _, rfl, rfl⟩
  obtain ⟨hsub, htx, huid⟩ := hqueue
  obtain ⟨msg, hmsg, rfl⟩ := List.mem_map.1 h
  rw [inbox, htx, List.mem_append] at hmsg
  rcases hmsg with hmsg | hmsg
  · exact .inl (List.mem_map_of_mem (List.mem_append_left _ hmsg))
  · rw [pending, huid] at hmsg
    obtain ⟨e, he, rfl⟩ := List.mem_map.1 hmsg
    obtain ⟨he, htarget⟩ := List.mem_filter.1 he
    rcases List.mem_append.1 (hsub.mem he) with he | he
    · exact .inl (List.mem_map_of_mem (List.mem_append_right _
        (List.mem_map_of_mem (List.mem_filter.2 ⟨he, htarget⟩))))
    · exact .inr (congrArg _ (congrArg _ (List.mem_singleton.1 he)))

namespace EventSystem

variable {s t : EventSystem} {a : EventAction} {k : ℕ} {x : EventSession}

/-- No step takes a message away. New messages wait for their broadcast, and new ids are above all
that were taken. -/
structure Follows (s t : EventSystem) : Prop where
  nextId : s.messages.nextId ≤ t.messages.nextId
  keeps : Keeps s.messages t.messages
  underway : ∀ mid ∈ underway t.senders, mid ∈ underway s.senders ∨ s.messages.nextId ≤ mid
  has : ∀ uid mid, IsMid mid → HasMessage t.messages uid mid →
    HasMessage s.messages uid mid ∨ ∃ y ∈ t.senders, y.Awaits uid mid

theorem Advances.follows (h : s.Advances t) : s.Follows t := ⟨h.nextId, h.keeps, h.underway, h.has⟩

theorem Follows.of_eq (hmessages : t.messages = s.messages)
    (hunderway : ∀ mid ∈ VoceChat.underway t.senders, mid ∈ VoceChat.underway s.senders) :
    s.Follows t where
  nextId := (congrArg MsgDb.nextId hmessages).ge
  keeps _ _ _ _ hget := hmessages ▸ hget
  underway mid hmid := .inl (hunderway mid hmid)
  has _ _ _ hhas := .inl (hmessages ▸ hhas)

theorem Inv.follows (h : s.Inv) (hstep : s.step a = some t) : s.Follows t := by
  cases a with
  | lockRead payload pendingDmTarget => exact (h.lockRead hstep).follows
  | takeId i => exact (h.takeId hstep).follows
  | applyBatch i => exact (h.applyBatch hstep).follows
  | storeMerged i => exact (h.storeMerged hstep).follows
  | unlockRead i => exact (h.unlockRead hstep).follows
  | broadcast i =>
    obtain ⟨x, mid, -, -, rfl, hperm⟩ := broadcast_cases hstep
    exact .of_eq rfl fun m hm ↦ hperm.mem_iff.2 (List.mem_cons_of_mem _ hm)
  | lockWrite uid afterMid =>
    simp only [EventSystem.step, Option.ite_none_right_eq_some, Option.some_inj] at hstep
    obtain ⟨-, rfl⟩ := hstep
    exact .of_eq rfl fun _ hm ↦ hm
  | subscribe j | fetch j | recv j | read j =>
    obtain ⟨_, _, _, _, _, rfl⟩ := stepSession_eq_some.1 hstep
    exact .of_eq rfl fun _ hm ↦ hm
  | close j =>
    obtain ⟨_, _, rfl⟩ := Option.map_eq_some_iff.1 hstep
    exact .of_eq rfl fun _ hm ↦ hm
  | setCache cache =>
    simp only [EventSystem.step, Option.ite_none_right_eq_some, Option.some_inj] at hstep
    obtain ⟨-, rfl⟩ := hstep
    exact .of_eq rfl fun _ hm ↦ hm

/-- A sender with an id had it before, or took the next one. -/
theorem Inv.sender_before (h : s.Inv) (hstep : s.step a = some t) {y : Sending}
    (hy : y ∈ t.senders) {mid : ℤ} (hmid : y.mid = some mid) :
    s.messages.nextId = mid ∨ ∃ z ∈ s.senders, z.mid = some mid ∧ z.prepared = y.prepared := by
  have hset : ∀ {i x phase}, s.senders[i]? = some x → t.senders = s.senders.set i { x with phase } →
      (Sending.mid { x with phase } = some mid → x.mid = some mid) →
      ∃ z ∈ s.senders, z.mid = some mid ∧ z.prepared = y.prepared := by
    intro i x phase hx hsenders hkeep
    rw [hsenders] at hy
    rcases List.mem_or_eq_of_mem_set hy with hy | rfl
    · exact ⟨y, hy, hmid, rfl⟩
    · exact ⟨x, List.mem_of_getElem? hx, hkeep hmid, rfl⟩
  have hsub : y ∈ s.senders → ∃ z ∈ s.senders, z.mid = some mid ∧ z.prepared = y.prepared :=
    fun hy ↦ ⟨y, hy, hmid, rfl⟩
  cases a with
  | lockRead payload pendingDmTarget =>
    simp only [EventSystem.step, Option.ite_none_right_eq_some] at hstep
    obtain ⟨-, hstep⟩ := hstep
    split at hstep
    · obtain rfl := Option.some_inj.1 hstep
      exact .inr (hsub hy)
    · obtain rfl := Option.some_inj.1 hstep
      rcases List.mem_append.1 hy with hy | hy
      · exact .inr (hsub hy)
      · obtain rfl := List.mem_singleton.1 hy
        cases hmid
  | takeId i =>
    obtain ⟨x, hx, hstep⟩ := Option.bind_eq_some_iff.1 hstep
    rcases h.wellFormed.generateMsgId_cases fun _ ↦ false with
      ⟨-, db, hid, -⟩ | ⟨-, e, he⟩
    · rw [hid] at hstep
      split at hstep
      · rename_i mid' messages hphase heq
        obtain ⟨rfl, rfl⟩ : s.messages.nextId = mid' ∧ db = messages := by simpa using heq
        obtain rfl := Option.some_inj.1 hstep
        rcases List.mem_or_eq_of_mem_set hy with hy | rfl
        · exact .inr (hsub hy)
        · exact .inl (Option.some_inj.1 hmid)
      · cases hstep
    · rw [he] at hstep
      split at hstep
      · rename_i heq
        cases heq
      · cases hstep
  | applyBatch i | storeMerged i | broadcast i =>
    obtain ⟨x, hx, hstep⟩ := Option.bind_eq_some_iff.1 hstep
    split at hstep
    · rename_i mid' hphase
      obtain rfl := Option.some_inj.1 hstep
      refine .inr (hset hx rfl fun hnew ↦ ?_)
      rw [Sending.mid, hphase]
      first | exact hnew | cases hnew
    · cases hstep
  | unlockRead i =>
    obtain ⟨x, hx, hstep⟩ := Option.bind_eq_some_iff.1 hstep
    rw [Option.ite_none_right_eq_some, Option.some_inj] at hstep
    obtain ⟨-, rfl⟩ := hstep
    exact .inr (hsub ((List.eraseIdx_sublist _ _).mem hy))
  | lockWrite uid afterMid =>
    simp only [EventSystem.step, Option.ite_none_right_eq_some, Option.some_inj] at hstep
    obtain ⟨-, rfl⟩ := hstep
    exact .inr (hsub hy)
  | subscribe j | fetch j | recv j | read j =>
    obtain ⟨_, _, _, _, _, rfl⟩ := stepSession_eq_some.1 hstep
    exact .inr (hsub hy)
  | close j =>
    obtain ⟨_, _, rfl⟩ := Option.map_eq_some_iff.1 hstep
    exact .inr (hsub hy)
  | setCache cache =>
    simp only [EventSystem.step, Option.ite_none_right_eq_some, Option.some_inj] at hstep
    obtain ⟨-, rfl⟩ := hstep
    exact .inr (hsub hy)

/-- What becomes of a session: it goes on for the same user, and what it gets is above its
`after_mid` or was under way. -/
structure Onward (s : EventSystem) (x y : EventSession) : Prop where
  phase : y.phase ≠ .closed
  uid : y.uid = x.uid
  afterMid : y.afterMid = x.afterMid
  mids : ∀ mid ∈ y.mids, mid ∈ x.mids ∨ mid ∈ VoceChat.underway s.senders ∨
    ∀ a ∈ x.afterMid, a < mid

theorem Onward.of_mids {y : EventSession} (hphase : y.phase ≠ .closed) (huid : y.uid = x.uid)
    (hafter : y.afterMid = x.afterMid) (hmids : ∀ mid ∈ y.mids, mid ∈ x.mids) : s.Onward x y :=
  ⟨hphase, huid, hafter, fun mid hmid ↦ .inl (hmids mid hmid)⟩

theorem getElem?_setSession {j : ℕ} {x' y : EventSession} (hy : s.sessions[j]? = some y)
    (hx : s.sessions[k]? = some x) : (s.setSession j x').sessions[k]? =
      if j = k then some x' else some x := by
  obtain ⟨hlt, -⟩ := List.getElem?_eq_some_iff.1 hy
  rw [EventSystem.setSession, List.getElem?_set]
  by_cases heq : j = k
  · rw [if_pos heq, if_pos heq, if_pos hlt]
  · rw [if_neg heq, if_neg heq, hx]

theorem Inv.onward (h : s.Inv) (hx : s.sessions[k]? = some x) (hopen : x.phase ≠ .closed)
    (hafter : x.ValidAfter) (hclose : a ≠ .close k) (hstep : s.step a = some t) :
    ∃ y, t.sessions[k]? = some y ∧ s.Onward x y := by
  have hmem := List.mem_of_getElem? hx
  have hsame : t.sessions[k]? = s.sessions[k]? → ∃ y, t.sessions[k]? = some y ∧ s.Onward x y :=
    fun heq ↦ ⟨x, heq.trans hx, .of_mids hopen rfl rfl fun _ hmid ↦ hmid⟩
  -- A step of a session: of this one or of another.
  have hset : ∀ {j y y'}, s.sessions[j]? = some y → t = s.setSession j y' →
      (y = x → s.Onward x y') → ∃ y, t.sessions[k]? = some y ∧ s.Onward x y := by
    intro j y y' hy ht honward
    rw [ht, getElem?_setSession hy hx]
    by_cases heq : j = k
    · subst heq
      exact ⟨y', if_pos rfl, honward (Option.some_inj.1 (hy.symm.trans hx))⟩
    · exact ⟨x, if_neg heq, .of_mids hopen rfl rfl fun _ hmid ↦ hmid⟩
  cases a with
  | lockRead payload pendingDmTarget => exact hsame (by rw [(h.lockRead hstep).sessions])
  | takeId i => exact hsame (by rw [(h.takeId hstep).sessions])
  | applyBatch i => exact hsame (by rw [(h.applyBatch hstep).sessions])
  | storeMerged i => exact hsame (by rw [(h.storeMerged hstep).sessions])
  | unlockRead i => exact hsame (by rw [(h.unlockRead hstep).sessions])
  | broadcast i =>
    obtain ⟨z, mid, hz, hphase, rfl, hperm⟩ := broadcast_cases hstep
    refine ⟨_, (List.getElem?_map ..).trans (congrArg (Option.map _) hx), ?_⟩
    refine ⟨by rwa [EventSession.phase_push], EventSession.uid_push ..,
      EventSession.afterMid_push .., fun m hm ↦ ?_⟩
    rcases x.mem_mids_push hm with hm | rfl
    · exact .inl hm
    · exact .inr (.inl (hperm.mem_iff.2 List.mem_cons_self))
  | lockWrite uid afterMid =>
    simp only [EventSystem.step, Option.ite_none_right_eq_some, Option.some_inj] at hstep
    obtain ⟨-, rfl⟩ := hstep
    refine hsame ?_
    show (s.sessions ++ _)[k]? = _
    rw [List.getElem?_append_left (List.getElem?_eq_some_iff.1 hx).1]
  | subscribe j =>
    obtain ⟨y, y', hy, hphase, hf, ht⟩ := stepSession_eq_some.1 hstep
    rw [Option.ite_none_right_eq_some, Option.some_inj] at hf
    obtain ⟨-, rfl⟩ := hf
    refine hset hy ht ?_
    rintro rfl
    exact .of_mids (fun heq ↦ by cases heq) rfl rfl fun _ hmid ↦ hmid
  | fetch j =>
    obtain ⟨y, y', hy, hphase, hf, ht⟩ := stepSession_eq_some.1 hstep
    obtain rfl := Option.some_inj.1 hf
    refine hset hy ht ?_
    rintro rfl
    refine ⟨SessionPhase.noConfusion, rfl, rfl, fun mid hmid ↦ .inr (.inr ?_)⟩
    rw [EventSession.mids, (h.settled_goLive hmem hphase hafter rfl).2] at hmid
    obtain ⟨msg, hmsg, rfl⟩ := List.mem_map.1 hmid
    have hkeys := h.wellFormed.keys.keysValid
    exact ((mem_wanted hkeys hafter).1 (mem_wanted_of_mem_fetch hkeys hafter hmsg)).2.2.1
  | recv j =>
    obtain ⟨y, y', hy, hphase, hf, ht⟩ := stepSession_eq_some.1 hstep
    split at hf
    · rename_i event queue hqueue
      obtain rfl := Option.some_inj.1 hf
      obtain ⟨huid', hafter', hphase'⟩ := EventSession.recv_fields { y with queue } event
      refine hset hy ht ?_
      rintro rfl
      refine .of_mids (fun heq ↦ ?_) huid' hafter' fun mid hmid ↦ ?_
      · rw [hphase', hphase] at heq
        cases heq
      · rwa [EventSession.mids, ((h.live y hmem hphase hafter).recv hqueue).1] at hmid
    · cases hf
  | read j =>
    obtain ⟨y, y', hy, hphase, hf, ht⟩ := stepSession_eq_some.1 hstep
    rw [Option.ite_none_right_eq_some, Option.some_inj] at hf
    obtain ⟨-, rfl⟩ := hf
    refine hset hy ht ?_
    rintro rfl
    exact .of_mids hopen rfl rfl fun _ hmid ↦ hmid
  | close j =>
    obtain ⟨y, hy, rfl⟩ := Option.map_eq_some_iff.1 hstep
    have hne : j ≠ k := fun heq ↦ hclose (congrArg _ heq)
    exact hsame (List.getElem?_set_ne hne)
  | setCache cache =>
    simp only [EventSystem.step, Option.ite_none_right_eq_some, Option.some_inj] at hstep
    obtain ⟨-, rfl⟩ := hstep
    exact hsame rfl

end EventSystem

end VoceChat
