import VoceChat.Events.Onward

/-!
# A client that comes and goes

`ClientSystem` adds one client to the event system: it connects with `after_mid` set to the largest
id it has received so far, and disconnects at any point, which leaves unread what it has not read.
Other sessions and all senders go on as before.

## What the client gets

It never gets a message twice. Each backlog has the newest `MAX_NEWEST_MESSAGES` of the messages
that accumulated, so the older ones of a long absence are passed over. And it gets every message
exactly once if none of its backlogs is over the limit and it is never disconnected while something
older than what it has received is still on its way (`Undisturbed`): ids are taken before they are
broadcast, so two senders may broadcast in the other order, and a client that leaves between the two
broadcasts will not ask for the older message again (`gap`).
-/

namespace VoceChat

open MsgDb
open scoped List

structure Client where
  uid : Int64
  /-- What it received in the sessions that are over. -/
  past : List ChatMessage
  /-- The index of its session. -/
  session : Option ℕ

structure ClientSystem where
  server : EventSystem
  client : Client

inductive ClientAction where
  | connect
  | disconnect
  | server (a : EventAction)

/-- The largest id, if there is one. -/
def largestMid (messages : List ChatMessage) : Option ℤ := (messages.map ChatMessage.mid).max?

theorem mem_largestMid {messages : List ChatMessage} {a : ℤ} (h : a ∈ largestMid messages) :
    (∃ msg ∈ messages, msg.mid = a) ∧ ∀ msg ∈ messages, msg.mid ≤ a := by
  obtain ⟨hmem, hle⟩ := List.max?_eq_some_iff.1 h
  exact ⟨List.mem_map.1 hmem, fun msg hmsg ↦ hle _ (List.mem_map_of_mem hmsg)⟩

theorem forall_largestMid_lt {messages : List ChatMessage} {mid : ℤ} :
    (∀ a ∈ largestMid messages, a < mid) ↔ ∀ msg ∈ messages, msg.mid < mid := by
  constructor
  · intro h msg hmsg
    obtain ⟨a, ha⟩ : ∃ a, largestMid messages = some a := by
      cases hmax : largestMid messages with
      | some a => exact ⟨a, rfl⟩
      | none =>
        rw [largestMid, List.max?_eq_none_iff, List.map_eq_nil_iff] at hmax
        exact absurd (hmax ▸ hmsg) List.not_mem_nil
    exact lt_of_le_of_lt ((mem_largestMid ha).2 msg hmsg) (h a ha)
  · intro h a ha
    obtain ⟨⟨msg, hmsg, rfl⟩, -⟩ := mem_largestMid ha
    exact h msg hmsg

namespace ClientSystem

def init (cache : Cache) (uid : Int64) : ClientSystem := ⟨.init cache, ⟨uid, [], none⟩⟩

/-- The session of the client. -/
def current (s : ClientSystem) : Option EventSession :=
  s.client.session.bind fun k ↦ s.server.sessions[k]?

/-- All that the client has received. -/
def received (s : ClientSystem) : List ChatMessage :=
  s.client.past ++ (s.current.map fun x ↦ x.tx.take x.read).getD []

/-- Closing the client's session is up to the client. -/
def closes (s : ClientSystem) : EventAction → Bool
  | .close k => s.client.session = some k
  | _ => false

def step (s : ClientSystem) : ClientAction → Option ClientSystem
  | .connect =>
    match s.client.session with
    | some _ => none
    | none =>
      (s.server.step (.lockWrite s.client.uid (largestMid s.client.past))).map fun server ↦
        ⟨server, { s.client with session := some s.server.sessions.length }⟩
  | .disconnect =>
    match s.client.session with
    | none => none
    | some k => (s.server.step (.close k)).map fun server ↦
        ⟨server, { s.client with past := s.received, session := none }⟩
  | .server a => if s.closes a then none else (s.server.step a).map fun server ↦ ⟨server, s.client⟩

/-- What is on its way to the client: unread, in the queue of its session, or not broadcast yet. -/
def Coming (s : ClientSystem) (mid : ℤ) : Prop :=
  (∃ x ∈ s.current, mid ∈ (x.tx.drop x.read ++ x.pending).map ChatMessage.mid) ∨
    ∃ y ∈ s.server.senders, y.mid = some mid ∧ s.client.uid ∈ y.prepared.target.targets

/-- The backlogs are within the limit, and when the client disconnects only newer messages than it
has received are on their way. -/
def Undisturbed (s : ClientSystem) : ClientAction → Prop
  | .connect => True
  | .disconnect => ∀ msg ∈ s.received, ∀ mid, s.Coming mid → msg.mid < mid
  | .server a => ∀ k ∈ s.client.session, EventSystem.Fits k s.server a

/-! ### The client's invariant -/

/-- What the session was asked for is above what the client had. -/
structure Above (server : EventSystem) (x : EventSession) : Prop where
  nextId : ∀ a ∈ x.afterMid, a < server.messages.nextId
  underway : ∀ a ∈ x.afterMid, ∀ mid ∈ underway server.senders, a < mid
  mids : ∀ a ∈ x.afterMid, ∀ mid ∈ x.mids, a < mid

structure Inv (s : ClientSystem) : Prop where
  server : s.server.Inv
  nodup : (s.client.past.map ChatMessage.mid).Nodup
  past : ∀ msg ∈ s.client.past, IsMid msg.mid ∧ HasPayload s.server.messages s.client.uid msg
  session : ∀ k ∈ s.client.session, ∃ x, s.server.sessions[k]? = some x ∧ x.phase ≠ .closed ∧
    x.uid = s.client.uid ∧ x.afterMid = largestMid s.client.past ∧ Above s.server x

/-- Below what the client has received nothing is missing, and nothing is to come. -/
structure Gapless (s : ClientSystem) : Prop where
  stored : ∀ mid, IsMid mid → HasMessage s.server.messages s.client.uid mid →
    (∀ msg ∈ s.client.past, msg.mid < mid) ∨ mid ∈ s.client.past.map ChatMessage.mid
  senders : ∀ y ∈ s.server.senders, ∀ mid, y.mid = some mid →
    s.client.uid ∈ y.prepared.target.targets → ∀ msg ∈ s.client.past, msg.mid < mid
  session : ∀ k ∈ s.client.session, EventSystem.CompleteAt k s.server

variable {s t : ClientSystem} {a : ClientAction}

theorem Inv.validAfter (h : s.Inv) {k : ℕ} {x : EventSession} (hx : s.server.sessions[k]? = some x)
    (hk : s.client.session = some k) : x.ValidAfter := by
  intro a ha
  obtain ⟨y, hy, -, -, hafter, habove⟩ := h.session k hk
  obtain rfl : x = y := Option.some_inj.1 (hx.symm.trans hy)
  have hlt := habove.nextId a ha
  have hsize := h.server.wellFormed.nextId_pos.2
  obtain ⟨⟨msg, hmsg, rfl⟩, -⟩ := mem_largestMid (hafter ▸ ha)
  refine ⟨(h.past msg hmsg).1.1, ?_⟩
  rw [maxMid]
  omega

/-- The session of the client, with all that the invariants say about it. -/
theorem Inv.session_cases (h : s.Inv) {k : ℕ} (hk : s.client.session = some k) :
    ∃ x, s.server.sessions[k]? = some x ∧ s.current = some x ∧
      s.received = s.client.past ++ x.tx.take x.read ∧ x.phase ≠ .closed ∧
      x.uid = s.client.uid ∧ x.afterMid = largestMid s.client.past ∧ Above s.server x ∧
      (x.phase = .live ∧ x.Settled s.server.messages s.server.senders ∨
        x.phase ≠ .live ∧ x.tx = []) := by
  obtain ⟨x, hx, hopen, huid, hafter, habove⟩ := h.session k hk
  have hcurrent : s.current = some x := by rw [current, hk]; exact hx
  have hmem := List.mem_of_getElem? hx
  refine ⟨x, hx, hcurrent, by rw [received, hcurrent]; rfl, hopen, huid, hafter, habove, ?_⟩
  by_cases hlive : x.phase = .live
  · exact .inl ⟨hlive, h.server.live x hmem hlive (h.validAfter hx hk)⟩
  · refine .inr ⟨hlive, (h.server.writing x hmem ?_).2.2⟩
    rw [EventSession.writes]
    cases hphase : x.phase with
    | locked | subscribed => rfl
    | live => exact absurd hphase hlive
    | closed => exact absurd hphase hopen

theorem inv_init (cache : Cache) (uid : Int64) : (init cache uid).Inv where
  server := EventSystem.inv_init cache
  nodup := List.nodup_nil
  past _ h := nomatch h
  session _ h := nomatch h

/-- The client's stream is above what it had, so what it receives is new to it. -/
theorem Inv.nodup_append (h : s.Inv) {k : ℕ} {x : EventSession}
    (hx : s.server.sessions[k]? = some x) (hk : s.client.session = some k)
    {l : List ChatMessage} (hsub : (l.map ChatMessage.mid).Sublist x.mids)
    (hnodup : x.mids.Nodup) : ((s.client.past ++ l).map ChatMessage.mid).Nodup := by
  obtain ⟨y, hy, -, -, hafter, habove⟩ := h.session k hk
  obtain rfl : x = y := Option.some_inj.1 (hx.symm.trans hy)
  rw [List.map_append, List.nodup_append]
  refine ⟨h.nodup, hnodup.sublist hsub, fun mid hmid mid' hmid' heq ↦ ?_⟩
  obtain ⟨msg, hmsg, rfl⟩ := List.mem_map.1 hmid
  have hlt := forall_largestMid_lt.1
    (fun a ha ↦ habove.mids a (hafter ▸ ha) mid' (hsub.mem hmid')) msg hmsg
  omega

theorem Inv.nodup_received (h : s.Inv) : (s.received.map ChatMessage.mid).Nodup := by
  cases hk : s.client.session with
  | none =>
    rw [received, current, hk]
    exact (List.append_nil s.client.past).symm ▸ h.nodup
  | some k =>
    obtain ⟨x, hx, -, hreceived, -, -, -, -, hcases⟩ := h.session_cases hk
    rw [hreceived]
    rcases hcases with ⟨-, hsettled⟩ | ⟨-, htx⟩
    · refine h.nodup_append hx hk (List.Sublist.map _ ?_) hsettled.nodup
      exact (List.take_sublist _ _).trans (List.sublist_append_left _ _)
    · rw [htx, List.take_nil, List.append_nil]
      exact h.nodup

theorem Inv.content_received (h : s.Inv) : ∀ msg ∈ s.received,
    IsMid msg.mid ∧ HasPayload s.server.messages s.client.uid msg := by
  intro msg hmsg
  cases hk : s.client.session with
  | none =>
    rw [received, current, hk] at hmsg
    exact h.past msg ((List.append_nil s.client.past) ▸ hmsg)
  | some k =>
    obtain ⟨x, hx, -, hreceived, -, huid, -, -, hcases⟩ := h.session_cases hk
    rw [hreceived, List.mem_append] at hmsg
    rcases hmsg with hmsg | hmsg
    · exact h.past msg hmsg
    · rcases hcases with ⟨-, hsettled⟩ | ⟨-, htx⟩
      · exact huid ▸ hsettled.content msg (List.mem_append_left _ (List.mem_of_mem_take hmsg))
      · rw [htx, List.take_nil] at hmsg
        cases hmsg

/-- One step: the client's own session goes on, starts or ends. -/
theorem Inv.step (h : s.Inv) (hstep : s.step a = some t) : t.Inv := by
  cases a with
  | connect =>
    rw [ClientSystem.step] at hstep
    split at hstep
    · cases hstep
    · rename_i hnone
      obtain ⟨server, hserver, rfl⟩ := Option.map_eq_some_iff.1 hstep
      have hinv := h.server.step hserver
      simp only [EventSystem.step, Option.ite_none_right_eq_some, Bool.and_eq_true,
        List.isEmpty_iff, Option.some_inj] at hserver
      obtain ⟨⟨hsenders, -⟩, rfl⟩ := hserver
      refine ⟨hinv, h.nodup, h.past, fun k hk ↦ ?_⟩
      obtain rfl := Option.some_inj.1 hk
      refine ⟨_, List.getElem?_concat_length, SessionPhase.noConfusion, rfl, rfl, ?_, ?_, ?_⟩
      · intro a ha
        obtain ⟨⟨msg, hmsg, rfl⟩, -⟩ := mem_largestMid ha
        obtain ⟨hmid, hget⟩ := h.past msg hmsg
        exact h.server.lt_nextId_of_get hmid hget
      · intro a _ mid hmid
        exact absurd (hsenders ▸ hmid) List.not_mem_nil
      · exact fun _ _ mid hmid ↦ absurd hmid List.not_mem_nil
  | disconnect =>
    rw [ClientSystem.step] at hstep
    split at hstep
    · cases hstep
    · rename_i k hk
      obtain ⟨server, hserver, rfl⟩ := Option.map_eq_some_iff.1 hstep
      have hinv := h.server.step hserver
      obtain ⟨_, -, rfl⟩ := Option.map_eq_some_iff.1 hserver
      exact ⟨hinv, h.nodup_received, h.content_received, fun _ hk' ↦ by cases hk'⟩
  | server a =>
    rw [ClientSystem.step] at hstep
    split at hstep
    · cases hstep
    · rename_i hcloses
      obtain ⟨server, hserver, rfl⟩ := Option.map_eq_some_iff.1 hstep
      have hfollows := h.server.follows hserver
      refine ⟨h.server.step hserver, h.nodup, fun msg hmsg ↦ ?_, fun k hk ↦ ?_⟩
      · obtain ⟨hmid, hget⟩ := h.past msg hmsg
        exact ⟨hmid, hfollows.keeps _ _ _ hmid hget⟩
      · obtain ⟨x, hx, hopen, huid, hafter, habove⟩ := h.session k hk
        have hclose : a ≠ .close k :=
          fun heq ↦ hcloses (by rw [heq, closes, hk]; exact decide_eq_true rfl)
        obtain ⟨y, hy, honward⟩ := h.server.onward hx hopen (h.validAfter hx hk) hclose hserver
        refine ⟨y, hy, honward.phase, honward.uid.trans huid, honward.afterMid.trans hafter,
          ?_, ?_, ?_⟩
        · intro a ha
          exact lt_of_lt_of_le (habove.nextId a (honward.afterMid ▸ ha)) hfollows.nextId
        · intro a ha mid hmid
          rcases hfollows.underway mid hmid with hold | hnew
          · exact habove.underway a (honward.afterMid ▸ ha) mid hold
          · exact lt_of_lt_of_le (habove.nextId a (honward.afterMid ▸ ha)) hnew
        · intro a ha mid hmid
          rcases honward.mids mid hmid with hold | hunder | hlt
          · exact habove.mids a (honward.afterMid ▸ ha) mid hold
          · exact habove.underway a (honward.afterMid ▸ ha) mid hunder
          · exact hlt a (honward.afterMid ▸ ha)

/-! ### No gaps -/

/-- At a disconnect the client has received what is stored, or it is on its way and newer. -/
theorem Gapless.disconnect (h : s.Inv) (hg : s.Gapless) {k : ℕ} (hk : s.client.session = some k)
    (hok : ∀ msg ∈ s.received, ∀ mid, s.Coming mid → msg.mid < mid) {mid : ℤ} (hmid : IsMid mid)
    (hhas : HasMessage s.server.messages s.client.uid mid) :
    (∀ msg ∈ s.received, msg.mid < mid) ∨ mid ∈ s.received.map ChatMessage.mid := by
  obtain ⟨x, hx, hcurrent, hreceived, -, huid, hafter, -, hcases⟩ := h.session_cases hk
  rcases hg.stored mid hmid hhas with hnew | hold
  · rcases hcases with ⟨hlive, -⟩ | ⟨-, htx⟩
    · have habove : ∀ a ∈ x.afterMid, a < mid := hafter ▸ forall_largestMid_lt.2 hnew
      rcases hg.session k hk x hx hlive (h.validAfter hx hk) mid hmid habove (huid ▸ hhas) with
        hmem | ⟨y, hy, hphase, htarget⟩
      · rw [EventSession.mids, EventSession.inbox, ← List.take_append_drop x.read x.tx,
          List.append_assoc, List.map_append, List.mem_append] at hmem
        rcases hmem with hread | hrest
        · rw [hreceived, List.map_append]
          exact .inr (List.mem_append_right _ hread)
        · exact .inl fun msg hmsg ↦ hok msg hmsg mid (.inl ⟨x, hcurrent, hrest⟩)
      · refine .inl fun msg hmsg ↦ hok msg hmsg mid (.inr ⟨y, hy, ?_, huid ▸ htarget⟩)
        rcases hphase with hphase | hphase <;> rw [Sending.mid, hphase]
    · left
      rw [hreceived, htx, List.take_nil, List.append_nil]
      exact hnew
  · right
    rw [hreceived, List.map_append]
    exact List.mem_append_left _ hold

theorem Gapless.step (h : s.Inv) (hg : s.Gapless) (hok : s.Undisturbed a)
    (hstep : s.step a = some t) : t.Gapless := by
  cases a with
  | connect =>
    rw [ClientSystem.step] at hstep
    split at hstep
    · cases hstep
    · obtain ⟨server, hserver, rfl⟩ := Option.map_eq_some_iff.1 hstep
      simp only [EventSystem.step, Option.ite_none_right_eq_some, Option.some_inj] at hserver
      obtain ⟨-, rfl⟩ := hserver
      refine ⟨hg.stored, hg.senders, fun k hk x hx hlive ↦ ?_⟩
      obtain rfl := Option.some_inj.1 hk
      obtain rfl := Option.some_inj.1 (List.getElem?_concat_length.symm.trans hx)
      cases hlive
  | disconnect =>
    rw [ClientSystem.step] at hstep
    split at hstep
    · cases hstep
    · rename_i k hk
      obtain ⟨server, hserver, rfl⟩ := Option.map_eq_some_iff.1 hstep
      obtain ⟨_, -, rfl⟩ := Option.map_eq_some_iff.1 hserver
      exact ⟨fun mid ↦ hg.disconnect h hk hok,
        fun y hy mid hmid htarget msg hmsg ↦ hok msg hmsg mid (.inr ⟨y, hy, hmid, htarget⟩),
        fun _ hk' ↦ by cases hk'⟩
  | server a =>
    rw [ClientSystem.step] at hstep
    split at hstep
    · cases hstep
    · obtain ⟨server, hserver, rfl⟩ := Option.map_eq_some_iff.1 hstep
      -- What is numbered has an id above everything the client has received.
      have hsenders : ∀ y ∈ server.senders, ∀ mid, y.mid = some mid →
          s.client.uid ∈ y.prepared.target.targets → ∀ msg ∈ s.client.past, msg.mid < mid := by
        intro y hy mid hmid htarget msg hmsg
        rcases h.server.sender_before hserver hy hmid with rfl | ⟨z, hz, hzmid, hprepared⟩
        · obtain ⟨hid, hget⟩ := h.past msg hmsg
          exact h.server.lt_nextId_of_get hid hget
        · exact hg.senders z hz mid hzmid (hprepared ▸ htarget) msg hmsg
      refine ⟨fun mid hmid hhas ↦ ?_, hsenders, fun k hk ↦ ?_⟩
      · rcases (h.server.follows hserver).has _ mid hmid hhas with hold | ⟨y, hy, hphase, htarget⟩
        · exact hg.stored mid hmid hold
        · refine .inl (hsenders y hy mid ?_ htarget)
          rcases hphase with hphase | hphase <;> rw [Sending.mid, hphase]
      · exact (hg.session k hk).step h.server (hok k hk) hserver

theorem gapless_init (cache : Cache) (uid : Int64) : (init cache uid).Gapless where
  stored _ _ _ := .inl fun _ h ↦ nomatch h
  senders _ h := nomatch h
  session _ h := nomatch h

/-! ### What the client gets -/

theorem inv_of_run {cache : Cache} {uid : Int64} {actions : List ClientAction}
    (hrun : Transition.run step (init cache uid) actions = some s) : s.Inv :=
  Transition.run_induction (fun _ _ _ h hstep ↦ Inv.step h hstep) (inv_init cache uid) hrun

theorem gapless_of_run {cache : Cache} {uid : Int64} {actions : List ClientAction}
    (hok : Transition.Along step Undisturbed (init cache uid) actions)
    (hrun : Transition.run step (init cache uid) actions = some s) : s.Gapless :=
  (Transition.run_induction_along (I := fun s ↦ s.Inv ∧ s.Gapless)
    (fun _ _ _ h hok hstep ↦ ⟨h.1.step hstep, h.2.step h.1 hok hstep⟩)
    ⟨inv_init cache uid, gapless_init cache uid⟩ hok hrun).2

/-- The live stream of the client, with all of its past. -/
theorem Gapless.filter_eq (h : s.Inv) (hg : s.Gapless) {k : ℕ} (hk : s.client.session = some k)
    {x : EventSession} (hx : s.server.sessions[k]? = some x) (hlive : x.phase = .live)
    {msg : ChatMessage} (hmid : IsMid msg.mid)
    (hpayload : HasPayload s.server.messages s.client.uid msg)
    (hdone : msg.mid ∉ underway s.server.senders) :
    (s.client.past ++ x.recvAll.tx).filter (fun m ↦ m.mid = msg.mid) = [msg] := by
  obtain ⟨y, hy, -, huid, hafter, -⟩ := h.session k hk
  obtain rfl : x = y := Option.some_inj.1 (hx.symm.trans hy)
  have hvalid := h.validAfter hx hk
  have hsettled := h.server.live x (List.mem_of_getElem? hx) hlive hvalid
  have htx : x.recvAll.tx = x.inbox :=
    EventSystem.foldl_recv_tx (x := { x with queue := [] }) hsettled
  have hnodup : ((s.client.past ++ x.inbox).map ChatMessage.mid).Nodup :=
    h.nodup_append hx hk (.refl _) hsettled.nodup
  have hmem : msg.mid ∈ (s.client.past ++ x.inbox).map ChatMessage.mid := by
    rw [List.map_append, List.mem_append]
    have hhas : HasMessage s.server.messages s.client.uid msg.mid :=
      Option.isSome_iff_exists.2 ⟨_, hpayload⟩
    rcases hg.stored msg.mid hmid hhas with hnew | hold
    · have habove : ∀ a ∈ x.afterMid, a < msg.mid := hafter ▸ forall_largestMid_lt.2 hnew
      refine .inr ((hg.session k hk x hx hlive hvalid msg.mid hmid habove
        (huid ▸ hhas)).resolve_right ?_)
      rintro ⟨y, hy, hphase | hphase, -⟩ <;>
        exact hdone (List.mem_filterMap.2 ⟨y, hy, by rw [Sending.mid, hphase]⟩)
    · exact .inl hold
  obtain ⟨m, hm, hmid'⟩ := List.mem_map.1 hmem
  have hsame : m = msg := by
    refine HasPayload.eq_of_mid ?_ hpayload hmid'
    rcases List.mem_append.1 hm with hm | hm
    · exact (h.past m hm).2
    · exact huid ▸ (hsettled.content m hm).2
  rw [htx]
  exact EventSystem.filter_eq_singleton hnodup (hsame ▸ hm)

open EventSystem

/-- Connect and go live, as the session of the given index. -/
def goLive (k : ℕ) : List ClientAction := [.connect, .server (.subscribe k), .server (.fetch k)]

/-- A greeting from the beginning to the end. -/
def sendGreeting : List EventAction := .lockRead greeting none :: sendSteps 0 ++ [.unlockRead 0]

/-- The second user is greeted while it is away. -/
def greetedAway : List ClientAction :=
  goLive 0 ++ [.disconnect] ++ sendGreeting.map .server ++ goLive 1

/-- A sufficient condition that can be evaluated: the backlog is small and has greetings only, and
the client has received nothing before it leaves. -/
def easy (s : ClientSystem) : ClientAction → Bool
  | .connect => true
  | .disconnect => s.received.isEmpty
  | .server (.fetch k) => s.server.sessions[k]?.all fun x ↦
      (wanted s.server.messages x.uid x.afterMid).length ≤ maxNewestMessages ∧
        (wanted s.server.messages x.uid x.afterMid).all fun e ↦
          (Stored.payload e.2).all fun payload ↦ payload.target = .user 2
  | .server _ => true

theorem undisturbed_of_easy (h : s.easy a = true) : s.Undisturbed a := by
  cases a with
  | connect => trivial
  | disconnect =>
    intro msg hmsg
    rw [List.isEmpty_iff.1 h] at hmsg
    cases hmsg
  | server a =>
    intro k _
    cases a with
    | fetch j =>
      intro hj x hx
      subst hj
      obtain ⟨hlength, hall⟩ := of_decide_eq_true ((Option.all_eq_true _ _).1 h x hx)
      refine ⟨hlength, fun e he payload gid hpayload htarget ↦ ?_⟩
      have huser := List.all_eq_true.1 hall e he
      rw [hpayload] at huser
      rw [show payload.target = .user 2 from of_decide_eq_true huser] at htarget
      cases htarget
    | _ => trivial

/-- Two greetings, of which the second is broadcast first; the client leaves in between. -/
def overtaken : List ClientAction :=
  goLive 0 ++ [.lockRead greeting none, .lockRead greeting none, .takeId 0, .takeId 1,
    .applyBatch 0, .storeMerged 0, .applyBatch 1, .storeMerged 1, .broadcast 1, .recv 0,
    .read 0].map .server ++ [.disconnect] ++
  [EventAction.broadcast 0, .unlockRead 0, .unlockRead 0].map .server ++ goLive 1

/-- Away for so many greetings. -/
def away (n : ℕ) : List ClientAction :=
  goLive 0 ++ [.disconnect] ++ ((List.replicate n sendGreeting).flatten).map .server ++ goLive 1

/-- A state between two greetings, after so many of them. -/
structure Greeted (n : ℕ) (s : EventSystem) : Prop where
  inv : s.Inv
  idle : s.senders = []
  closed : ∃ x : EventSession, s.sessions = [x] ∧ x.phase = .closed
  cache : s.cache = twoUsers
  leaseEnd : s.messages.leaseEnd ≤ 33 + 32 * n
  mids : ∃ l : List ℤ, l.Nodup ∧ l.length = n ∧
    ∀ mid ∈ l, IsMid mid ∧ HasPayload s.messages 2 ⟨mid, greeting⟩

/-- A greeting is sent in full. -/
theorem run_sendGreeting {messages db : MsgDb Stored} {x : EventSession} {mid : ℤ}
    (hx : x.phase = .closed) (hid : messages.generateMsgId (fun _ ↦ false) = (.ok mid, db)) :
    Transition.run EventSystem.step ⟨twoUsers, messages, [], [x]⟩ sendGreeting =
      some ⟨twoUsers, (storeMerged (fun _ ↦ false)
        (db.applyBatch (Prepared.batch ⟨.dm 1 2 false, greeting⟩ mid)) greeting mid).2, [],
        [x]⟩ := by
  obtain ⟨uid, afterMid, phase, queue, pushStartId, tx, read⟩ := x
  obtain rfl : phase = .closed := hx
  have htake : EventSystem.step ⟨twoUsers, messages, [⟨⟨.dm 1 2 false, greeting⟩, .locked⟩],
      [⟨uid, afterMid, .closed, queue, pushStartId, tx, read⟩]⟩ (.takeId 0) =
      some ⟨twoUsers, db, [⟨⟨.dm 1 2 false, greeting⟩, .numbered mid⟩],
        [⟨uid, afterMid, .closed, queue, pushStartId, tx, read⟩]⟩ := by
    simp only [EventSystem.step, EventSystem.stepSender, List.getElem?_cons_zero, Option.bind_some,
      hid]
    rfl
  rw [sendGreeting, List.cons_append, Transition.run_cons]
  show Transition.run EventSystem.step ⟨twoUsers, messages, [⟨⟨.dm 1 2 false, greeting⟩, .locked⟩],
      [⟨uid, afterMid, .closed, queue, pushStartId, tx, read⟩]⟩ (sendSteps 0 ++ [.unlockRead 0]) = _
  rw [sendSteps, List.cons_append, Transition.run_cons, htake]
  rfl

theorem Greeted.send {n : ℕ} {s : EventSystem} (h : Greeted n s) (hn : n ≤ 10000) :
    ∃ t, Transition.run EventSystem.step s sendGreeting = some t ∧ Greeted (n + 1) t := by
  obtain ⟨cache, messages, senders, sessions⟩ := s
  obtain ⟨hinv, hidle, ⟨x, hx, hclosed⟩, hcache, hlease, l, hnodup, hlength, hl⟩ := h
  obtain rfl : senders = [] := hidle
  obtain rfl : sessions = [x] := hx
  obtain rfl : cache = twoUsers := hcache
  change messages.leaseEnd ≤ _ at hlease
  have hband : sequenceBandwidth = 32 := rfl
  have hsize : (Machine.i64Size : ℤ) = 9223372036854775808 := rfl
  have hcan : messages.CanAllocate fun _ ↦ false := .inr ⟨rfl, by omega⟩
  have hwf : messages.WellFormed := hinv.wellFormed
  rcases hwf.generateMsgId_cases fun _ ↦ false with
    ⟨-, db, hid, hdb, hlt, hsame⟩ | ⟨hnot, -⟩
  · have hgrow : db.leaseEnd ≤ messages.leaseEnd + sequenceBandwidth := by
      have hle : (messages.generateMsgId fun _ ↦ false).2.leaseEnd ≤
          messages.leaseEnd + sequenceBandwidth := hwf.leaseEnd_generateMsgId
      rwa [hid] at hle
    have hrun := run_sendGreeting hclosed hid
    have hmid : IsMid messages.nextId := hwf.nextId_pos
    set p : Prepared := ⟨.dm 1 2 false, greeting⟩
    have hbatch := p.batches_batch messages.nextId hmid
    obtain ⟨r, u, hu, hmerged, -⟩ := storeMerged_cases (hdb.insertAll hlt hbatch) hmid
      (by rw [MsgDb.applyBatch, nextId_of_get_sequence (get_insertAll_sequence hbatch)]; exact hlt)
      (fun _ ↦ false) greeting
    rw [hu] at hrun
    have hget : ∀ uid m, u.db.get (keyUserMsg uid m) =
        (db.applyBatch (p.batch messages.nextId)).db.get (keyUserMsg uid m) :=
      fun uid m ↦ hmerged.get (.user uid m) fun _ heq ↦ by cases heq
    have hinv' : EventSystem.Inv ⟨twoUsers, u, [], [x]⟩ :=
      Transition.run_induction (fun _ _ _ h hstep ↦ EventSystem.Inv.step h hstep) hinv hrun
    have hold : ∀ mid ∈ l, mid < messages.nextId := fun mid hmem ↦
      hinv.lt_nextId_of_get (hl mid hmem).1 (hl mid hmem).2
    refine ⟨_, hrun, hinv', rfl, ⟨x, rfl, hclosed⟩, rfl, ?_, messages.nextId :: l,
      List.nodup_cons.2 ⟨fun hmem ↦ lt_irrefl _ (hold _ hmem), hnodup⟩, congrArg (· + 1) hlength,
      fun mid hmem ↦ ?_⟩
    · show u.leaseEnd ≤ _
      have hseq : _ = db.db.get (keySequence msgSequenceTy) :=
        (hmerged.get (.sequence msgSequenceTy) fun _ heq ↦ by cases heq).trans
          (get_insertAll_sequence hbatch)
      rw [leaseEnd_of_get_sequence (s := db) hseq]
      push_cast
      omega
    · rcases List.mem_cons.1 hmem with rfl | hmem
      · refine ⟨hmid, (hget 2 _).trans ?_⟩
        exact Prepared.get_batch_of_mem _ ((p.mem_batch _).2.1 2 (by decide))
          (bytes_ne_of_head (by decide))
      · obtain ⟨hm, hpayload⟩ := hl mid hmem
        refine ⟨hm, (hget 2 mid).trans ?_⟩
        rw [← hpayload]
        refine Eq.trans (get_insertAll_of_batchOf (k := .user 2 mid) hbatch hm fun heq ↦ ?_)
          (hsame _ (bytes_ne_of_head (by decide)))
        exact (hold mid hmem).ne (Option.some_inj.1 heq)
  · exact absurd hcan hnot

theorem greeted_of_run (n : ℕ) (hn : n ≤ 10000) {s : EventSystem} (h : Greeted 0 s) :
    ∃ t, Transition.run EventSystem.step s (List.replicate n sendGreeting).flatten = some t ∧
      Greeted n t := by
  induction n with
  | zero => exact ⟨s, rfl, h⟩
  | succ n ih =>
    obtain ⟨t, ht, hgreeted⟩ := ih (by omega)
    obtain ⟨u, hu, hgreeted'⟩ := hgreeted.send (by omega)
    refine ⟨u, ?_, hgreeted'⟩
    rw [List.replicate_succ', List.flatten_append, Transition.run_append, ht]
    exact (congrArg (Transition.run _ t) (List.append_nil _)).trans hu

/-- While the client is away, the server goes on without it. -/
theorem run_server {c : Client} (hc : c.session = none) (server : EventSystem)
    (actions : List EventAction) :
    Transition.run step ⟨server, c⟩ (actions.map .server) =
      (Transition.run EventSystem.step server actions).map (ClientSystem.mk · c) := by
  induction actions generalizing server with
  | nil => rfl
  | cons a actions ih =>
    have hcloses : ClientSystem.closes ⟨server, c⟩ a = false := by
      cases a with
      | close k => exact decide_eq_false (by rw [hc]; intro h; cases h)
      | _ => rfl
    rw [List.map_cons, Transition.run_cons, Transition.run_cons, ClientSystem.step, hcloses,
      if_neg Bool.false_ne_true, Option.bind_map, Option.map_bind]
    exact congrArg _ (funext fun server ↦ ih server)

theorem length_fetchNewestMessages_le {s : EventSystem} (h : s.Inv) {uid : Int64}
    {afterMid : Option ℤ} (hafter : ∀ a ∈ afterMid, 0 ≤ a ∧ a < maxMid) :
    (fetchNewestMessages s.cache s.messages uid afterMid).length ≤ maxNewestMessages := by
  rw [fetchNewestMessages_eq h.wellFormed.keys.keysValid hafter]
  refine (List.length_filter_le _ _).trans ((List.length_filterMap_le _ _).trans ?_)
  rw [newest, List.length_drop]
  omega

end ClientSystem

end VoceChat
