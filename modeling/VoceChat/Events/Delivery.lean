import VoceChat.Events.Backlog
import VoceChat.Events.Invariant

/-!
# Nothing lost between snapshot and subscription

The step lemma of the invariant, with one case per action, and the theorem it is for: a live session
has every message above its `after_mid` whose broadcast is over exactly once, in what it has been
sent or in its queue (`delivered_once`). The backlog has to be within the limit and the groups of
its messages have to exist; both are asked for at the step that fetches it (`Fits`).
-/

namespace VoceChat

open MsgDb
open scoped List

namespace EventSystem

variable {s t : EventSystem} {i k : ℕ} {x x' : EventSession}

/-! ### The steps of a session -/

theorem stepSession_eq_some {phase : SessionPhase} {f : EventSession → Option EventSession} :
    s.stepSession k phase f = some t ↔ ∃ x x', s.sessions[k]? = some x ∧ x.phase = phase ∧
      f x = some x' ∧ t = s.setSession k x' := by
  simp only [stepSession, Option.bind_eq_some_iff, Option.filter_eq_some_iff, decide_eq_true_iff,
    Option.map_eq_some_iff]
  constructor
  · rintro ⟨x, ⟨hx, hphase⟩, x', hf, rfl⟩
    exact ⟨x, x', hx, hphase, hf, rfl⟩
  · rintro ⟨x, x', hx, hphase, hf, rfl⟩
    exact ⟨x, ⟨hx, hphase⟩, x', hf, rfl⟩

/-- One session goes on; the others stay as they are. -/
theorem Inv.setSession (h : s.Inv) (x' : EventSession)
    (hwriting : x'.writes → s.senders = [] ∧ x'.queue = [] ∧ x'.tx = [])
    (hlive : x'.phase = .live → x'.ValidAfter → x'.Settled s.messages s.senders) :
    (s.setSession k x').Inv where
  wellFormed := h.wellFormed
  chat := h.chat
  ids := h.ids
  senders := h.senders
  writing y hy := by
    rcases List.mem_or_eq_of_mem_set hy with hy | rfl
    · exact h.writing y hy
    · exact hwriting
  live y hy := by
    rcases List.mem_or_eq_of_mem_set hy with hy | rfl
    · exact h.live y hy
    · exact hlive

/-- The ids of stored messages were handed out. -/
theorem Inv.lt_nextId_of_get (h : s.Inv) {uid : Int64} {mid : ℤ} {v : Blob Stored}
    (hmid : IsMid mid)
    (hget : s.messages.db.get (keyUserMsg uid mid) = some v) : mid < s.messages.nextId := by
  by_contra hle
  have hnone : s.messages.db.get (keyUserMsg uid mid) = none :=
    h.wellFormed.keys.get_eq_none (k := .user uid mid) hmid rfl (not_lt.1 hle)
  rw [hnone] at hget
  cases hget

theorem Inv.lt_maxMid_of_get (h : s.Inv) {uid : Int64} {mid : ℤ} {v : Blob Stored}
    (hmid : IsMid mid)
    (hget : s.messages.db.get (keyUserMsg uid mid) = some v) : mid < maxMid := by
  have hlt := h.lt_nextId_of_get hmid hget
  have := h.wellFormed.nextId_pos.2
  rw [maxMid]
  omega

/-- A new backlog: its messages are stored, and nothing is under way. -/
theorem Inv.settled_goLive (h : s.Inv) (hx : x ∈ s.sessions) (hphase : x.phase = .subscribed)
    (hafter : x.ValidAfter) {backlog : List ChatMessage}
    (hbacklog : fetchNewestMessages s.cache s.messages x.uid x.afterMid = backlog) :
    (x.goLive backlog).Settled s.messages s.senders ∧ (x.goLive backlog).inbox = backlog := by
  obtain ⟨hsenders, hqueue, -⟩ := h.writing x hx (by rw [EventSession.writes, hphase]; rfl)
  have hkeys := h.wellFormed.keys.keysValid
  have hsub := @fetchNewestMessages_sublist s.cache s.messages x.uid x.afterMid hkeys hafter
  rw [hbacklog] at hsub
  have hwanted : ∀ msg ∈ backlog, IsMid msg.mid ∧ HasPayload s.messages x.uid msg := by
    intro msg hmsg
    obtain ⟨hget, hmid, -⟩ :=
      (mem_wanted hkeys hafter).1 (mem_wanted_of_mem_fetch hkeys hafter (hbacklog ▸ hmsg))
    exact ⟨hmid, hget⟩
  have hbelow : ∀ msg ∈ backlog, msg.mid < s.messages.nextId := fun msg hmsg ↦
    h.lt_nextId_of_get (hwanted msg hmsg).1 (hwanted msg hmsg).2
  have hqueue' : (x.goLive backlog).queue = [] := hqueue
  have hinbox : (x.goLive backlog).inbox = backlog := by
    unfold EventSession.inbox EventSession.pending
    rw [hqueue', List.filter_nil, List.map_nil, List.append_nil]
    rfl
  have hmids : (x.goLive backlog).mids = backlog.map ChatMessage.mid :=
    congrArg (List.map ChatMessage.mid) hinbox
  have hnothing : underway s.senders = [] := by rw [hsenders]; rfl
  refine ⟨⟨hmids ▸ (wanted_nodup hkeys hafter).sublist hsub, fun msg hmsg ↦ ?_, fun mid hmid ↦ ?_,
    fun id hid ↦ ?_⟩, hinbox⟩
  · exact hwanted msg (hinbox ▸ hmsg)
  · rw [hmids] at hmid
    obtain ⟨msg, hmsg, rfl⟩ := List.mem_map.1 hmid
    rw [hnothing]
    exact ⟨hbelow msg hmsg, List.not_mem_nil⟩
  · obtain ⟨msg, hlast, rfl⟩ := Option.map_eq_some_iff.1 hid
    rw [hnothing, hqueue']
    exact ⟨hbelow msg (List.mem_of_getLast? hlast), fun _ hm ↦ absurd hm List.not_mem_nil,
      fun _ he ↦ absurd he List.not_mem_nil⟩

/-! ### The step lemma -/

theorem Inv.broadcast (h : s.Inv) (hstep : s.step (.broadcast i) = some t) : t.Inv := by
  obtain ⟨x, mid, hx, hphase, rfl, hperm⟩ := broadcast_cases hstep
  have hmem := List.mem_of_getElem? hx
  refine ⟨h.wellFormed, h.chat, (List.nodup_cons.1 (hperm.nodup_iff.1 h.ids)).2, fun y hy ↦ ?_,
    fun y hy hwrites ↦ ?_, fun y hy hlive hafter ↦ ?_⟩
  · rcases List.mem_or_eq_of_mem_set hy with hy | rfl
    · exact h.senders y hy
    · trivial
  · obtain ⟨z, hz, rfl⟩ := List.mem_map.1 hy
    rw [EventSession.writes, EventSession.phase_push, ← EventSession.writes,
      h.not_writes hx z hz] at hwrites
    cases hwrites
  · obtain ⟨z, hz, rfl⟩ := List.mem_map.1 hy
    rw [EventSession.phase_push] at hlive
    rw [EventSession.ValidAfter, EventSession.afterMid_push] at hafter
    have hinv := h.senders x hmem
    rw [Sending.Inv, hphase] at hinv
    exact (h.live z hz hlive hafter).push hlive h.ids hinv.2.1
      (fun htarget ↦ ⟨hinv.1, hinv.2.2 z.uid htarget⟩) hperm

/-- One case per action: the sender's steps first, then the session's. -/
theorem Inv.step {a : EventAction} (h : s.Inv) (hstep : s.step a = some t) : t.Inv := by
  cases a with
  | lockRead payload pendingDmTarget => exact (h.lockRead hstep).inv h
  | takeId i => exact (h.takeId hstep).inv h
  | applyBatch i => exact (h.applyBatch hstep).inv h
  | storeMerged i => exact (h.storeMerged hstep).inv h
  | unlockRead i => exact (h.unlockRead hstep).inv h
  | broadcast i => exact h.broadcast hstep
  | lockWrite uid afterMid =>
    simp only [EventSystem.step, Option.ite_none_right_eq_some, Bool.and_eq_true,
      List.isEmpty_iff, Option.some_inj] at hstep
    obtain ⟨⟨hsenders, hunwritten⟩, rfl⟩ := hstep
    refine ⟨h.wellFormed, h.chat, h.ids, h.senders, fun y hy hwrites ↦ ?_, fun y hy hlive ↦ ?_⟩
    · rcases List.mem_append.1 hy with hy | hy
      · exact h.writing y hy hwrites
      · obtain rfl := List.mem_singleton.1 hy
        exact ⟨hsenders, rfl, rfl⟩
    · rcases List.mem_append.1 hy with hy | hy
      · exact h.live y hy hlive
      · obtain rfl := List.mem_singleton.1 hy
        cases hlive
  | subscribe k =>
    obtain ⟨x, x', hx, hphase, hf, rfl⟩ := stepSession_eq_some.1 hstep
    rw [Option.ite_none_right_eq_some, Option.some_inj] at hf
    obtain ⟨-, rfl⟩ := hf
    have hwriting := h.writing x (List.mem_of_getElem? hx)
      (by rw [EventSession.writes, hphase]; rfl)
    exact h.setSession _ (fun _ ↦ hwriting) fun hlive ↦ by cases hlive
  | fetch k =>
    obtain ⟨x, x', hx, hphase, hf, rfl⟩ := stepSession_eq_some.1 hstep
    obtain rfl := Option.some_inj.1 hf
    exact h.setSession _ (fun hwrites ↦ by cases hwrites) fun _ hafter ↦
      (h.settled_goLive (List.mem_of_getElem? hx) hphase hafter rfl).1
  | recv k =>
    obtain ⟨x, x', hx, hphase, hf, rfl⟩ := stepSession_eq_some.1 hstep
    split at hf
    · rename_i event queue hqueue
      obtain rfl := Option.some_inj.1 hf
      obtain ⟨-, hafter', hphase'⟩ := EventSession.recv_fields { x with queue } event
      refine h.setSession _ (fun hwrites ↦ ?_) fun _ hafter ↦ ?_
      · rw [EventSession.not_writes_of_live (hphase'.trans hphase)] at hwrites
        cases hwrites
      · rw [EventSession.ValidAfter, hafter'] at hafter
        exact ((h.live x (List.mem_of_getElem? hx) hphase hafter).recv hqueue).2
    · cases hf
  | read k =>
    obtain ⟨x, x', hx, hphase, hf, rfl⟩ := stepSession_eq_some.1 hstep
    rw [Option.ite_none_right_eq_some, Option.some_inj] at hf
    obtain ⟨-, rfl⟩ := hf
    have hsettled := h.live x (List.mem_of_getElem? hx) hphase
    refine h.setSession _ (fun hwrites ↦ ?_) fun _ hafter ↦ ?_
    · have hfalse := EventSession.not_writes_of_live (x := { x with read := x.read + 1 }) hphase
      rw [hfalse] at hwrites
      cases hwrites
    · obtain ⟨hnodup, hcontent, hknown, hstart⟩ := hsettled hafter
      exact ⟨hnodup, hcontent, hknown, hstart⟩
  | close k =>
    obtain ⟨x, hx, rfl⟩ := Option.map_eq_some_iff.1 hstep
    exact h.setSession _ (fun hwrites ↦ by cases hwrites) fun hlive ↦ by cases hlive
  | setCache cache =>
    simp only [EventSystem.step, Option.ite_none_right_eq_some, Option.some_inj] at hstep
    obtain ⟨-, rfl⟩ := hstep
    exact ⟨h.wellFormed, h.chat, h.ids, h.senders, h.writing, h.live⟩

/-! ### Every message -/

/-- When the session fetches its backlog, that is within the limit and its groups exist. -/
def Fits (k : ℕ) (s : EventSystem) : EventAction → Prop
  | .fetch k' => k' = k → ∀ x ∈ s.sessions[k]?,
      (wanted s.messages x.uid x.afterMid).length ≤ maxNewestMessages ∧
        GroupsExist s.cache s.messages x.uid x.afterMid
  | _ => True

/-- The session has every message, once it is live. -/
def CompleteAt (k : ℕ) (s : EventSystem) : Prop :=
  ∀ x, s.sessions[k]? = some x → x.phase = .live → x.ValidAfter →
    x.Complete s.messages s.senders

theorem CompleteAt.setSession {j : ℕ} (h : CompleteAt k s) (x' : EventSession)
    (hx' : j = k → x'.phase = .live → x'.ValidAfter → x'.Complete s.messages s.senders) :
    CompleteAt k (s.setSession j x') := by
  intro y hy
  rw [EventSystem.setSession, List.getElem?_set] at hy
  split at hy
  · rename_i heq
    split at hy
    · obtain rfl := Option.some_inj.1 hy
      exact hx' heq
    · cases hy
  · exact h y hy

theorem CompleteAt.advances (h : CompleteAt k s) (hstep : s.Advances t) : CompleteAt k t := by
  intro x hx hlive hafter
  rw [hstep.sessions] at hx
  exact (h x hx hlive hafter).frame (fun mid hmid ↦ hstep.has x.uid mid hmid)
    fun mid y ↦ hstep.awaits x.uid mid y

/-- The broadcast hands its message over to the sessions of its targets. -/
theorem CompleteAt.broadcast (h : CompleteAt k s) (hstep : s.step (.broadcast i) = some t) :
    CompleteAt k t := by
  obtain ⟨x, mid, hx, hphase, rfl, -⟩ := broadcast_cases hstep
  intro y hy hlive hafter m hm habove hhas
  rw [List.getElem?_map] at hy
  obtain ⟨z, hz, rfl⟩ := Option.map_eq_some_iff.1 hy
  rw [EventSession.phase_push] at hlive
  rw [EventSession.ValidAfter, EventSession.afterMid_push] at hafter
  rw [EventSession.afterMid_push] at habove
  rw [EventSession.uid_push] at hhas ⊢
  rw [EventSession.mids, EventSession.inbox_push hlive, List.map_append, List.mem_append]
  rcases h z hz hlive hafter m hm habove hhas with hmem | ⟨y, hy, hawait⟩
  · exact .inl (.inl hmem)
  · rcases Holders.mem_set_of_mem hx { x with phase := .broadcast } hy with rfl | hin
    · obtain rfl : mid = m := by
        rcases hawait.1 with heq | heq <;> rw [hphase] at heq <;> cases heq
        rfl
      refine .inl (.inr ?_)
      rw [if_pos (List.contains_iff_mem.2 hawait.2)]
      exact List.mem_singleton_self _
    · exact .inr ⟨y, hin, hawait⟩

/-- A backlog within the limit has every message there is. -/
theorem Inv.complete_goLive (h : s.Inv) (hx : x ∈ s.sessions) (hphase : x.phase = .subscribed)
    (hafter : x.ValidAfter)
    (hlength : (wanted s.messages x.uid x.afterMid).length ≤ maxNewestMessages)
    (hgroups : GroupsExist s.cache s.messages x.uid x.afterMid) :
    (x.goLive (fetchNewestMessages s.cache s.messages x.uid x.afterMid)).Complete s.messages
      s.senders := by
  intro mid hmid habove hhas
  have hkeys := h.wellFormed.keys.keysValid
  obtain ⟨v, hv⟩ : ∃ v, s.messages.db.get (keyUserMsg x.uid mid) = some v :=
    Option.isSome_iff_exists.1 hhas
  left
  rw [EventSession.mids, (h.settled_goLive hx hphase hafter rfl).2,
    fetchNewestMessages_mids hkeys hafter h.chat hgroups, newest_of_length_le hlength, List.mem_map]
  refine ⟨(mid, v), (mem_wanted hkeys hafter).2 ⟨hv, hmid, habove, ?_⟩, rfl⟩
  exact h.lt_maxMid_of_get hmid hv

theorem CompleteAt.step {a : EventAction} (h : s.Inv) (hc : CompleteAt k s) (hfits : Fits k s a)
    (hstep : s.step a = some t) : CompleteAt k t := by
  cases a with
  | lockRead payload pendingDmTarget => exact hc.advances (h.lockRead hstep)
  | takeId i => exact hc.advances (h.takeId hstep)
  | applyBatch i => exact hc.advances (h.applyBatch hstep)
  | storeMerged i => exact hc.advances (h.storeMerged hstep)
  | unlockRead i => exact hc.advances (h.unlockRead hstep)
  | broadcast i => exact hc.broadcast hstep
  | lockWrite uid afterMid =>
    simp only [EventSystem.step, Option.ite_none_right_eq_some, Option.some_inj] at hstep
    obtain ⟨-, rfl⟩ := hstep
    intro y hy hlive hafter
    rw [List.getElem?_append] at hy
    split at hy
    · exact hc y hy hlive hafter
    · obtain rfl := List.mem_singleton.1 (List.mem_of_getElem? hy)
      cases hlive
  | subscribe j =>
    obtain ⟨x, x', hx, hphase, hf, rfl⟩ := stepSession_eq_some.1 hstep
    rw [Option.ite_none_right_eq_some, Option.some_inj] at hf
    obtain ⟨-, rfl⟩ := hf
    exact hc.setSession _ fun _ hlive ↦ by cases hlive
  | fetch j =>
    obtain ⟨x, x', hx, hphase, hf, rfl⟩ := stepSession_eq_some.1 hstep
    obtain rfl := Option.some_inj.1 hf
    refine hc.setSession _ fun heq _ hafter ↦ ?_
    subst heq
    obtain ⟨hlength, hgroups⟩ := hfits rfl x hx
    exact h.complete_goLive (List.mem_of_getElem? hx) hphase hafter hlength hgroups
  | recv j =>
    obtain ⟨x, x', hx, hphase, hf, rfl⟩ := stepSession_eq_some.1 hstep
    split at hf
    · rename_i event queue hqueue
      obtain rfl := Option.some_inj.1 hf
      obtain ⟨huid', hafter', -⟩ := EventSession.recv_fields { x with queue } event
      refine hc.setSession _ fun heq _ hafter ↦ ?_
      subst heq
      rw [EventSession.ValidAfter, hafter'] at hafter
      rw [EventSession.Complete, huid', hafter', EventSession.mids,
        ((h.live x (List.mem_of_getElem? hx) hphase hafter).recv hqueue).1]
      exact hc x hx hphase hafter
    · cases hf
  | read j =>
    obtain ⟨x, x', hx, hphase, hf, rfl⟩ := stepSession_eq_some.1 hstep
    rw [Option.ite_none_right_eq_some, Option.some_inj] at hf
    obtain ⟨-, rfl⟩ := hf
    refine hc.setSession _ fun heq _ hafter ↦ ?_
    subst heq
    exact hc x hx hphase hafter
  | close j =>
    obtain ⟨x, hx, rfl⟩ := Option.map_eq_some_iff.1 hstep
    exact hc.setSession _ fun _ hlive ↦ by cases hlive
  | setCache cache =>
    simp only [EventSystem.step, Option.ite_none_right_eq_some, Option.some_inj] at hstep
    obtain ⟨-, rfl⟩ := hstep
    exact hc

/-! ### Exactly once -/

theorem recv_with_queue (x : EventSession) (event : ChatEvent) (queue : List ChatEvent) :
    { x.recv event with queue } = EventSession.recv { x with queue } event := by
  obtain ⟨uid, afterMid, phase, _, pushStartId, tx, read⟩ := x
  simp only [EventSession.recv]
  cases event.targets.contains uid with
  | false => rfl
  | true =>
    cases pushStartId with
    | none => rfl
    | some id => by_cases hle : event.message.mid ≤ id <;> simp [hle]

/-- Receiving what is in the queue brings exactly the messages that are for the session. -/
theorem foldl_recv_tx {db : MsgDb Stored} {senders : List Sending} {queue : List ChatEvent}
    (h : EventSession.Settled db senders { x with queue }) :
    (queue.foldl EventSession.recv x).tx = EventSession.inbox { x with queue } := by
  induction queue generalizing x with
  | nil => exact (List.append_nil x.tx).symm
  | cons event queue ih =>
    obtain ⟨hinbox, hsettled⟩ := h.recv (rfl : EventSession.queue _ = event :: queue)
    have hmove := recv_with_queue x event queue
    rw [List.foldl_cons, ih (hmove ▸ hsettled), hmove]
    exact hinbox

theorem filter_eq_singleton {α β : Type} [DecidableEq β] {f : α → β} {l : List α} {a : α}
    (hnodup : (l.map f).Nodup) (ha : a ∈ l) : l.filter (fun b ↦ f b = f a) = [a] := by
  induction l with
  | nil => cases ha
  | cons b l ih =>
    obtain ⟨hb, hl⟩ := List.nodup_cons.1 hnodup
    rw [List.filter_cons]
    rcases List.mem_cons.1 ha with rfl | ha
    · rw [if_pos (decide_eq_true rfl), List.cons_inj_right, List.filter_eq_nil_iff]
      intro c hc heq
      exact hb (decide_eq_true_iff.1 heq ▸ List.mem_map_of_mem hc)
    · have hne : f b ≠ f a := fun heq ↦ hb (heq.symm ▸ List.mem_map_of_mem ha)
      rw [decide_eq_false hne, if_neg Bool.false_ne_true]
      exact ih hl ha

theorem inv_of_run {cache : Cache} {actions : List EventAction}
    (hrun : Transition.run EventSystem.step (init cache) actions = some s) : s.Inv :=
  Transition.run_induction (fun _ _ _ h hstep ↦ Inv.step h hstep) (inv_init cache) hrun

theorem completeAt_of_run {cache : Cache} {actions : List EventAction}
    (hfits : Transition.Along EventSystem.step (Fits k) (init cache) actions)
    (hrun : Transition.run EventSystem.step (init cache) actions = some s) : CompleteAt k s := by
  have hinit : (init cache).Inv ∧ CompleteAt k (init cache) :=
    ⟨inv_init cache, fun x hx ↦ by cases hx⟩
  exact (Transition.run_induction_along (I := fun s ↦ s.Inv ∧ CompleteAt k s)
    (fun _ _ _ h hok hstep ↦ ⟨h.1.step hstep, h.2.step h.1 hok hstep⟩) hinit hfits hrun).2

/-- **Exactly once.** The locks exclude each other, and a live session gets every message for its
user above its `after_mid` whose sender has broadcast it, once: in its backlog or from its queue. -/
theorem delivered_once {cache : Cache} {actions : List EventAction}
    (hfits : Transition.Along EventSystem.step (Fits k) (init cache) actions)
    (hrun : Transition.run EventSystem.step (init cache) actions = some s)
    (hx : s.sessions[k]? = some x) (hlive : x.phase = .live) (hafter : x.ValidAfter) :
    (∀ y ∈ s.sessions, y.writes → s.senders = []) ∧
    (x.recvAll.tx.map ChatMessage.mid).Nodup ∧
    ∀ msg : ChatMessage, IsMid msg.mid → (∀ a ∈ x.afterMid, a < msg.mid) →
      HasPayload s.messages x.uid msg → msg.mid ∉ underway s.senders →
      x.recvAll.tx.filter (fun m ↦ m.mid = msg.mid) = [msg] := by
  have hinv := inv_of_run hrun
  have hsettled := hinv.live x (List.mem_of_getElem? hx) hlive hafter
  have htx : x.recvAll.tx = x.inbox := foldl_recv_tx (x := { x with queue := [] }) hsettled
  refine ⟨fun y hy hwrites ↦ (hinv.writing y hy hwrites).1, htx ▸ hsettled.nodup,
    fun msg hmid habove hpayload hdone ↦ ?_⟩
  have hmem : msg.mid ∈ x.mids := by
    refine (completeAt_of_run hfits hrun x hx hlive hafter msg.mid hmid habove
      (Option.isSome_iff_exists.2 ⟨_, hpayload⟩)).resolve_right ?_
    rintro ⟨y, hy, hphase | hphase, -⟩ <;>
      exact hdone (List.mem_filterMap.2 ⟨y, hy, by rw [Sending.mid, hphase]⟩)
  obtain ⟨m, hm, hmid'⟩ := List.mem_map.1 hmem
  have hsame : m = msg := (hsettled.content m hm).2.eq_of_mid hpayload hmid'
  rw [htx]
  exact filter_eq_singleton hsettled.nodup (hsame ▸ hm)

/-! ### One message, live -/

/-- A greeting. -/
def greeting : ChatMessagePayload := ⟨1, 0, .user 2, .normal ⟨⟨none, "text/plain", "hi"⟩, none⟩⟩

/-- Two users without groups. -/
def twoUsers : Cache where
  users := [(1, ⟨.normal, [], []⟩), (2, ⟨.normal, [], []⟩)]
  groups := []
  e2eProtocolVer := none

/-- The steps of a send, up to its broadcast. -/
def sendSteps (i : ℕ) : List EventAction :=
  [.takeId i, .applyBatch i, .storeMerged i, .broadcast i]

/-- The second user connects, and is sent a greeting. -/
def greet : List EventAction :=
  [.lockWrite 2 none, .subscribe 0, .fetch 0, .lockRead greeting none] ++ sendSteps 0

theorem fits_greet : Transition.Along EventSystem.step (Fits 0) (init twoUsers) greet := by
  refine ⟨trivial, fun s₁ h₁ ↦ ⟨trivial, fun s₂ h₂ ↦ ⟨fun _ x hx ↦ ?_, fun _ _ ↦ ?_⟩⟩⟩
  · obtain rfl := Option.some_inj.1 h₁
    obtain rfl := Option.some_inj.1 h₂
    obtain rfl := Option.some_inj.1 hx
    have hnone : wanted (init twoUsers).messages 2 none = [] := rfl
    refine ⟨?_, fun e (he : e ∈ wanted (init twoUsers).messages 2 none) ↦ ?_⟩
    · show (wanted (init twoUsers).messages 2 none).length ≤ _
      rw [hnone]
      decide
    · rw [hnone] at he
      cases he
  · exact ⟨trivial, fun _ _ ↦ ⟨trivial, fun _ _ ↦ ⟨trivial, fun _ _ ↦ ⟨trivial, fun _ _ ↦
      ⟨trivial, fun _ _ ↦ trivial⟩⟩⟩⟩⟩

theorem delivered_once_greet : ∃ s x,
    Transition.run EventSystem.step (init twoUsers) greet = some s ∧ s.sessions[0]? = some x ∧
      x.recvAll.tx.filter (fun m ↦ m.mid = 1) = [⟨1, greeting⟩] := by
  have hrun : (Transition.run EventSystem.step (init twoUsers) greet).map (fun s ↦
      (s.sessions[0]?.map fun x ↦ (x.phase, x.uid, x.afterMid),
        s.messages.db.get (keyUserMsg 2 1), underway s.senders)) =
      some (some (.live, 2, none), some (.message (.chat greeting)), []) := rfl
  obtain ⟨s, hs, hfacts⟩ := Option.map_eq_some_iff.1 hrun
  simp only [Prod.mk.injEq, Option.map_eq_some_iff] at hfacts
  obtain ⟨⟨x, hx, hlive, huid, hafter⟩, hget, hdone⟩ := hfacts
  have hvalid : x.ValidAfter := fun a ha ↦ by rw [hafter] at ha; cases ha
  refine ⟨s, x, hs, hx, ?_⟩
  refine (delivered_once fits_greet hs hx hlive hvalid).2.2 ⟨1, greeting⟩ (by decide)
    (fun a ha ↦ ?_)
    ?_ ?_
  · rw [hafter] at ha
    cases ha
  · rw [HasPayload, huid]
    exact hget
  · rw [hdone]
    exact List.not_mem_nil

end EventSystem

end VoceChat
