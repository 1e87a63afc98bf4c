import VoceChat.Api.Messages
import VoceChat.Foundations.Holders
import VoceChat.Foundations.Run

/-!
# MLS messages in groups, over every run

Group sends, replies, reactions and bot messages as one system. A group send is two steps: it
reserves its position (`start`), and later it calls `send_message` (`finish`) or is cut off
(`abandon`); anything may happen in between. The other requests are one step each.

The log is history, not state of the server: for each stored message it says who was authenticated
by the request, and which reservation the request made.

## What goes through without a reservation

`Sequenced` asks that every stored MLS message has a reservation of its own, in the name of the
device that was authenticated. Group sends alone keep it. A reply, an edit or a bot message with an
MLS body is accepted all the same, without a reservation and in the name of any device
(`not_sequenced_reply`); runs without one keep `Sequenced` (`sequenced_of_run`).
-/

namespace VoceChat

open Guards Json Machine MsgDb
open scoped List

/-- Who was authenticated: a bot has no device. -/
structure Sender where
  uid : Int64
  device : Option String
  deriving DecidableEq, Repr

/-- A group send after its reservation. -/
structure SendTask where
  call : GroupSend
  payload : ChatMessagePayload
  route : Option RoutingProperties

/-- The reservation that the send made. -/
def SendTask.reservation (task : SendTask) : Option Reservation :=
  task.route.bind fun route ↦ route.reservation task.call.gid task.call.token.uid

structure LogEntry where
  mid : ℤ
  sender : Sender
  reservation : Option Reservation
  deriving DecidableEq, Repr

structure GroupSystem where
  sequences : SequenceTables
  messages : MsgDb Stored
  tasks : List SendTask
  log : List LogEntry

inductive GroupAction where
  | start (env : Env) (call : GroupSend)
  | finish (i : ℕ) (env : Env)
  | abandon (i : ℕ)
  | reply (env : Env) (token : Token) (mid : ℤ) (properties : Option Properties)
      (req : SendMessageRequest)
  | react (env : Env) (token : Token) (mid : ℤ) (req : ReactionRequest)
  | botSend (env : Env) (uid gid : Int64) (properties : Option Properties)
      (req : SendMessageRequest)

/-- The body of an edit is one for MLS. -/
def ReactionRequest.mlsBody : ReactionRequest → Bool
  | .edit properties req => req.mlsBody properties
  | .like _ | .delete => false

namespace GroupSystem

/-- A new server. -/
def init : GroupSystem := ⟨.empty, created, [], []⟩

/-- The message database after a send, and a line in the log if it stored a message. -/
def record (s : GroupSystem) (messages : MsgDb Stored) (sender : Sender)
    (reservation : Option Reservation) : GroupSystem :=
  { s with
    messages
    log := if (messages.getMsg s.messages.nextId).isSome then
      ⟨s.messages.nextId, sender, reservation⟩ :: s.log else s.log }

def step (s : GroupSystem) : GroupAction → Option GroupSystem
  | .start env call =>
    match checkGroupSend env call with
    | .error _ => some s
    | .ok (payload, route) =>
      match reserveRoute env.sequenceFaults s.sequences call.gid call.token.uid route with
      | (.error _, sequences) => some { s with sequences }
      | (.ok (), sequences) =>
        some { s with sequences, tasks := s.tasks ++ [⟨call, payload, route⟩] }
  | .finish i env =>
    s.tasks[i]?.map fun task ↦
      { s with tasks := s.tasks.eraseIdx i }.record
        (sendMessage env.sendFaults env.ctx s.messages task.payload).2
        ⟨task.call.token.uid, some task.call.token.device⟩ task.reservation
  | .abandon i => s.tasks[i]?.map fun _ ↦ { s with tasks := s.tasks.eraseIdx i }
  | .reply env token mid properties req =>
    some (s.record (reply env s.messages token mid properties req).2 ⟨token.uid, some token.device⟩
      none)
  | .react env token mid req =>
    some (s.record (react env s.messages token mid req).2 ⟨token.uid, some token.device⟩ none)
  | .botSend env uid gid properties req =>
    some (s.record (botSendToGroup env s.messages uid gid properties req).2 ⟨uid, none⟩ none)

/-- Every stored MLS message has a reservation of its own: for its group, epoch, generation and
sender, and in the name of the device that was authenticated. -/
structure Sequenced (s : GroupSystem) : Prop where
  reserved : ∀ mid payload gid route, IsMid mid →
    s.messages.getMsg mid = some (.message (.chat payload)) → payload.MlsIn gid route →
    ∃ r, route.reservation gid payload.fromUid = some r ∧ s.sequences.Has r ∧
      ∃ entry ∈ s.log, entry.mid = mid ∧
        entry.sender = ⟨payload.fromUid, some route.senderDeviceId⟩
  own : ∀ mid mid' payload payload' gid gid' route route', IsMid mid → IsMid mid' →
    s.messages.getMsg mid = some (.message (.chat payload)) → payload.MlsIn gid route →
    s.messages.getMsg mid' = some (.message (.chat payload')) → payload'.MlsIn gid' route' →
    route.reservation gid payload.fromUid = route'.reservation gid' payload'.fromUid → mid = mid'

/-- No reply, edit or bot message that is allowed to go to a group has an MLS body. -/
def Reserving (s : GroupSystem) : GroupAction → Prop
  | .start _ _ | .finish _ _ | .abandon _ => True
  | .reply env token mid properties req =>
    token.isGuest = false → ∀ payload ∈ (s.messages.getMsg mid).bind Stored.payload,
      canReply env.ctx.cache token.uid payload → (∃ gid, payload.target = .group gid) →
        req.mlsBody properties = false
  | .react env token mid req =>
    token.isGuest = false → ∀ payload ∈ (s.messages.getMsg mid).bind Stored.payload,
      ∀ detail, req.detail env.files = .ok detail →
        detail.canReaction token.uid token.isAdmin payload →
        (∃ gid, payload.target = .group gid) → req.mlsBody = false
  | .botSend env uid gid properties req =>
    (∃ group ∈ env.ctx.cache.group gid, group.containsUser uid) → req.mlsBody properties = false

/-! ### The invariant -/

/-- The reservations that belong to someone: to a send that is under way, or to a stored message. -/
def held (s : GroupSystem) : List Reservation :=
  s.tasks.filterMap SendTask.reservation ++ s.log.filterMap LogEntry.reservation

end GroupSystem

/-- An MLS message is handed to `send_message` by the device it names, with its reservation. -/
def Bound (payload : ChatMessagePayload) (sender : Sender) (reservation : Option Reservation) :
    Prop :=
  ∀ gid route, payload.MlsIn gid route → ∃ r, route.reservation gid payload.fromUid = some r ∧
    reservation = some r ∧ sender = ⟨payload.fromUid, some route.senderDeviceId⟩

/-- Who sent the request of the task. -/
def SendTask.sender (task : SendTask) : Sender :=
  ⟨task.call.token.uid, some task.call.token.device⟩

namespace GroupSystem

/-- A reservation is held once and is in the tables; what is under way is bound to its device, and
what is stored was. -/
structure Inv (s : GroupSystem) : Prop where
  wellFormed : s.messages.WellFormed
  nodup : s.held.Nodup
  has : ∀ r ∈ s.held, s.sequences.Has r
  tasks : ∀ task ∈ s.tasks, Bound task.payload task.sender task.reservation
  stored : ∀ mid payload, IsMid mid → s.messages.getMsg mid = some (.message (.chat payload)) →
    ∀ gid route, payload.MlsIn gid route → ∃ entry ∈ s.log, entry.mid = mid ∧
      Bound payload entry.sender entry.reservation

variable {s : GroupSystem} {env : Env}

theorem Inv.sequenced (h : s.Inv) : s.Sequenced where
  reserved mid payload gid route hmid hget hmls := by
    obtain ⟨entry, hentry, heq, hbound⟩ := h.stored mid payload hmid hget gid route hmls
    obtain ⟨r, hr, hreservation, hsender⟩ := hbound gid route hmls
    refine ⟨r, hr, h.has r ?_, entry, hentry, heq, hsender⟩
    exact List.mem_append_right _ (List.mem_filterMap.2 ⟨entry, hentry, hreservation⟩)
  own mid mid' payload payload' gid gid' route route' hmid hmid' hget hmls hget' hmls' hsame := by
    obtain ⟨entry, hentry, rfl, hbound⟩ := h.stored mid payload hmid hget gid route hmls
    obtain ⟨entry', hentry', rfl, hbound'⟩ := h.stored mid' payload' hmid' hget' gid' route' hmls'
    obtain ⟨r, hr, hreservation, -⟩ := hbound gid route hmls
    obtain ⟨r', hr', hreservation', -⟩ := hbound' gid' route' hmls'
    obtain rfl : r = r' := Option.some_inj.1 (hr.symm.trans (hsame.trans hr'))
    -- Two entries with one reservation would be two of its holders.
    have hnodup := (List.nodup_append.1 h.nodup).2.1
    rw [Holders.eq_of_nodup hnodup hentry hentry' hreservation hreservation']

theorem inv_init : init.Inv where
  wellFormed := wellFormed_created
  nodup := List.nodup_nil
  has _ h := nomatch h
  tasks _ h := nomatch h
  stored mid payload hmid hget := by
    have hnone : init.messages.getMsg mid = none := getMsg_created mid
    rw [hnone] at hget
    cases hget

/-! ### Storing a message -/

theorem getMsg_nextId (hw : s.messages.WellFormed) : s.messages.getMsg s.messages.nextId = none :=
  hw.keys.get_eq_none (k := .msg _) hw.nextId_pos rfl le_rfl

/-- Where nothing is stored there is nothing to record. -/
theorem record_self (hw : s.messages.WellFormed) (sender : Sender)
    (reservation : Option Reservation) : s.record s.messages sender reservation = s := by
  rw [record, getMsg_nextId hw]
  rfl

/-- One more entry: its reservation is held besides the others. -/
theorem held_perm (s : GroupSystem) (messages : MsgDb Stored) (entry : LogEntry) :
    held { s with messages, log := entry :: s.log } ~ entry.reservation.toList ++ s.held := by
  rw [held, held, Holders.filterMap_cons, ← List.append_assoc, ← List.append_assoc]
  exact List.perm_append_comm.append_right _

/-- The step lemma of all sends: what is stored is bound to its sender, and the reservation that it
came with, if any, is held by nobody else. -/
theorem Inv.record {payload : ChatMessagePayload} {sender : Sender}
    {reservation : Option Reservation} (h : s.Inv) (hbound : Bound payload sender reservation)
    (hnodup : (reservation.toList ++ s.held).Nodup)
    (hhas : ∀ r ∈ reservation, s.sequences.Has r) (faults : SendFaults) (ctx : Context) :
    (s.record (sendMessage faults ctx s.messages payload).2 sender reservation).Inv := by
  rcases sendMessage_cases h.wellFormed faults ctx payload with
    ⟨p, t, hp, -, hsend, hstored, ht, -⟩ | ⟨-, e, t, hsend, ht, hsame⟩
  · have hget : t.getMsg s.messages.nextId = some (.message (.chat p.payload)) := hstored.msg
    have hrecord : s.record t sender reservation =
        { s with messages := t, log := ⟨s.messages.nextId, sender, reservation⟩ :: s.log } := by
      rw [GroupSystem.record, hget]
      rfl
    have hperm := s.held_perm t ⟨s.messages.nextId, sender, reservation⟩
    rw [hsend, hrecord]
    refine ⟨ht, hperm.nodup_iff.2 hnodup, fun r hr ↦ ?_, h.tasks, fun mid payload' hmid hget' gid
      route hmls ↦ ?_⟩
    · rcases List.mem_append.1 (hperm.mem_iff.1 hr) with hr | hr
      · exact hhas r (Option.mem_toList.1 hr)
      · exact h.has r hr
    · by_cases hnew : mid = s.messages.nextId
      · -- The new message carries the content of the payload it was sent as.
        subst hnew
        obtain rfl : p.payload = payload' := by simpa using hget.symm.trans hget'
        obtain ⟨huid, htarget, hcontent⟩ := prepare_payload_eq hp
        refine ⟨_, List.mem_cons_self, rfl, fun gid' route' hmls' ↦ ?_⟩
        have := hbound gid' route' ⟨htarget ▸ hmls'.target, hcontent ▸ hmls'.valid, hmls'.mls⟩
        rwa [← huid] at this
      · have hold : t.getMsg mid = s.messages.getMsg mid :=
          hstored.others (.msg mid) hmid (Option.some_ne_none _)
            (fun heq ↦ hnew (Option.some_inj.1 heq)) fun _ heq ↦ by cases heq
        obtain ⟨entry, hentry, hrest⟩ :=
          h.stored mid payload' hmid (hold ▸ hget') gid route hmls
        exact ⟨entry, List.mem_cons_of_mem _ hentry, hrest⟩
  · have hget : ∀ mid, IsMid mid → t.getMsg mid = s.messages.getMsg mid := fun mid hmid ↦
      hsame (.msg mid) hmid (Option.some_ne_none _) fun _ heq ↦ by cases heq
    have hrecord : s.record t sender reservation = { s with messages := t } := by
      rw [GroupSystem.record, hget _ h.wellFormed.nextId_pos, getMsg_nextId h.wellFormed]
      rfl
    rw [hsend, hrecord]
    exact ⟨ht, h.nodup, h.has, h.tasks, fun mid payload' hmid hget' ↦
      h.stored mid payload' hmid (hget mid hmid ▸ hget')⟩

/-- A message that is no MLS message needs no reservation. -/
theorem Inv.record_of_not_mls {payload : ChatMessagePayload} (h : s.Inv) (sender : Sender)
    (hnot : ∀ gid route, ¬payload.MlsIn gid route) (faults : SendFaults) (ctx : Context) :
    (s.record (sendMessage faults ctx s.messages payload).2 sender none).Inv := by
  have hnodup : ((none : Option Reservation).toList ++ s.held).Nodup := h.nodup
  exact h.record (fun gid route hmls ↦ absurd hmls (hnot gid route)) hnodup (fun _ hr ↦ by cases hr)
    faults ctx

/-! ### The steps -/

/-- A v2 message is bound to the device that passed the sender binding. -/
theorem bound_payload {call : GroupSend} {route : RoutingProperties} (h : call.Sequenced route)
    {r : Reservation} (hr : route.reservation call.gid call.token.uid = some r) (now : ℤ) :
    Bound (call.payload now) ⟨call.token.uid, some call.token.device⟩ (some r) := by
  intro gid route' hmls
  obtain ⟨properties, hproperties, hvalid⟩ := h.valid
  obtain ⟨content, properties', hcontent, -, hproperties', hvalid'⟩ := hmls.valid
  obtain rfl : _ = content := Option.some_inj.1 hcontent
  obtain rfl : properties = properties' := Option.some_inj.1 (hproperties.symm.trans hproperties')
  obtain rfl : route = route' := Except.ok.inj (hvalid.symm.trans hvalid')
  obtain rfl : call.gid = gid := MessageTarget.group.inj hmls.target
  exact ⟨r, hr, rfl, by rw [h.device]; rfl⟩

/-- One more send under way: its reservation is held besides the others. -/
theorem held_start (s : GroupSystem) (sequences : SequenceTables) (task : SendTask) :
    held { s with sequences, tasks := s.tasks ++ [task] } ~ task.reservation.toList ++ s.held := by
  rw [held, held, ← List.append_assoc]
  exact (Holders.filterMap_concat SendTask.reservation s.tasks task).append_right _

theorem Inv.start {call : GroupSend} {t : GroupSystem} (h : s.Inv)
    (hstep : s.step (.start env call) = some t) : t.Inv := by
  rw [step] at hstep
  cases hcheck : checkGroupSend env call with
  | error e =>
    rw [hcheck] at hstep
    obtain rfl := Option.some_inj.1 hstep
    exact h
  | ok checked =>
    obtain ⟨payload, result⟩ := checked
    simp only [hcheck] at hstep
    rcases checkGroupSend_cases hcheck with
      ⟨rfl, htype, content, hcontent, hctype⟩ | ⟨route, rfl, hsequenced, rfl⟩
    · obtain rfl := Option.some_inj.1 hstep
      have hperm := s.held_start s.sequences ⟨call, payload, none⟩
      refine ⟨h.wellFormed, hperm.nodup_iff.2 h.nodup, fun r hr ↦ h.has r (hperm.mem_iff.1 hr),
        fun task htask ↦ ?_, h.stored⟩
      rcases List.mem_append.1 htask with htask | htask
      · exact h.tasks task htask
      · obtain rfl := List.mem_singleton.1 htask
        rintro gid route ⟨-, ⟨content', -, hcontent', htype', -⟩, -⟩
        obtain rfl := Option.some_inj.1 (hcontent.symm.trans hcontent')
        exact absurd htype' (hctype ▸ htype)
    · rcases reserveRoute_some_cases env.sequenceFaults s.sequences call.gid call.token.uid
        route with
        ⟨r, hr, hnext, -, hok⟩ | ⟨-, e, he⟩
      · rw [hok] at hstep
        obtain rfl := Option.some_inj.1 hstep
        have hreservation : SendTask.reservation ⟨call, call.payload env.now, some route⟩ =
          some r :=
          hr
        have hperm := s.held_start (s.sequences.add r) ⟨call, call.payload env.now, some route⟩
        rw [hreservation] at hperm
        -- The position was free, so nobody holds it.
        have hfree : r ∉ s.held := fun hmem ↦ hnext.not_has (h.has r hmem)
        refine ⟨h.wellFormed, hperm.nodup_iff.2 (List.nodup_cons.2 ⟨hfree, h.nodup⟩),
          fun r' hr' ↦ ?_, fun task htask ↦ ?_, h.stored⟩
        · rcases List.mem_cons.1 (hperm.mem_iff.1 hr') with rfl | hr'
          · exact s.sequences.has_add r'
          · exact (h.has r' hr').add r
        · rcases List.mem_append.1 htask with htask | htask
          · exact h.tasks task htask
          · obtain rfl := List.mem_singleton.1 htask
            rw [hreservation]
            exact bound_payload hsequenced hr env.now
      · rw [he] at hstep
        obtain rfl := Option.some_inj.1 hstep
        exact h

/-- A task that is taken off the list lets go of its reservation. -/
theorem held_eraseIdx {i : ℕ} {task : SendTask} (hi : s.tasks[i]? = some task) :
    task.reservation.toList ++ held { s with tasks := s.tasks.eraseIdx i } ~ s.held := by
  rw [held, held, ← List.append_assoc]
  exact (Holders.filterMap_eraseIdx SendTask.reservation hi).append_right _

theorem Inv.eraseIdx {i : ℕ} {task : SendTask} (h : s.Inv) (hi : s.tasks[i]? = some task) :
    Inv { s with tasks := s.tasks.eraseIdx i } := by
  have hperm := held_eraseIdx hi
  refine ⟨h.wellFormed, (List.nodup_append.1 (hperm.nodup_iff.2 h.nodup)).2.1, fun r hr ↦ ?_,
    fun task htask ↦ h.tasks task ((List.eraseIdx_sublist _ _).mem htask), h.stored⟩
  exact h.has r (hperm.mem_iff.1 (List.mem_append_right _ hr))

theorem Inv.finish {i : ℕ} {task : SendTask} (h : s.Inv) (hi : s.tasks[i]? = some task) :
    ({ s with tasks := s.tasks.eraseIdx i }.record
      (sendMessage env.sendFaults env.ctx s.messages task.payload).2
      ⟨task.call.token.uid, some task.call.token.device⟩ task.reservation).Inv := by
  have hperm := held_eraseIdx hi
  refine (h.eraseIdx hi).record (h.tasks task (List.mem_of_getElem? hi))
    (hperm.nodup_iff.2 h.nodup) (fun r hr ↦ ?_) _ _
  exact h.has r (hperm.mem_iff.1 (List.mem_append_left _ (Option.mem_toList.2 hr)))

/-- The target of a message that refers to another is a group only if that was in one. -/
theorem target_of_getTarget {uid gid : Int64} {payload : ChatMessagePayload}
    (h : getTarget uid payload = .group gid) : payload.target = .group gid := by
  rw [getTarget] at h
  cases htarget : payload.target with
  | user uid' => rw [htarget] at h; cases h
  | group gid' => rwa [htarget] at h

theorem Inv.reply {token : Token} {mid : ℤ} {properties : Option Properties}
    {req : SendMessageRequest} (h : s.Inv)
    (hok : s.Reserving (.reply env token mid properties req)) :
    (s.record (reply env s.messages token mid properties req).2 ⟨token.uid, some token.device⟩
      none).Inv := by
  rcases reply_cases with hsame | ⟨content, payload, hcontent, hpayload, hguest, hreply, hsend⟩
  · rw [hsame, record_self h.wellFormed]
    exact h
  · rw [hsend]
    refine h.record_of_not_mls _ ?_ _ _
    rintro gid route ⟨htarget, ⟨content', p, hcontent', htype, hp, hvalid⟩, hmls⟩
    obtain rfl : content = content' := Option.some_inj.1 hcontent'
    have hbody := SendMessageRequest.mlsBody_of_content hcontent htype hp hvalid hmls
    rw [hok hguest payload hpayload hreply ⟨gid, target_of_getTarget htarget⟩] at hbody
    cases hbody

theorem Inv.react {token : Token} {mid : ℤ} {req : ReactionRequest} (h : s.Inv)
    (hok : s.Reserving (.react env token mid req)) :
    (s.record (react env s.messages token mid req).2 ⟨token.uid, some token.device⟩ none).Inv := by
  rcases react_cases with hsame | ⟨detail, payload, hdetail, hpayload, hguest, hreact, hsend⟩
  · rw [hsame, record_self h.wellFormed]
    exact h
  · rw [hsend]
    refine h.record_of_not_mls _ ?_ _ _
    rintro gid route ⟨htarget, ⟨content, p, hcontent, htype, hp, hvalid⟩, hmls⟩
    have hbody := hok hguest payload hpayload detail hdetail hreact
      ⟨gid, target_of_getTarget htarget⟩
    -- Only an edit has content.
    cases req with
    | like action =>
      simp only [ReactionRequest.detail, bind_eq_ok, pure_eq_ok] at hdetail
      obtain ⟨-, -, rfl⟩ := hdetail
      cases hcontent
    | delete =>
      obtain rfl := Except.ok.inj hdetail
      cases hcontent
    | edit properties req =>
      rw [ReactionRequest.detail] at hdetail
      cases hmade : req.intoChatMessageContent env.files properties with
      | error e => rw [hmade] at hdetail; cases hdetail
      | ok content' =>
        rw [hmade] at hdetail
        obtain rfl := Except.ok.inj hdetail
        obtain rfl : content' = content := Option.some_inj.1 hcontent
        have := SendMessageRequest.mlsBody_of_content hmade htype hp hvalid hmls
        rw [ReactionRequest.mlsBody, this] at hbody
        cases hbody

theorem Inv.botSend {uid gid : Int64} {properties : Option Properties} {req : SendMessageRequest}
    (h : s.Inv) (hok : s.Reserving (.botSend env uid gid properties req)) :
    (s.record (botSendToGroup env s.messages uid gid properties req).2 ⟨uid, none⟩ none).Inv := by
  rcases botSendToGroup_cases with hsame | ⟨content, hcontent, hsend⟩
  · rw [hsame, record_self h.wellFormed]
    exact h
  by_cases hmember : ∃ group ∈ env.ctx.cache.group gid, group.containsUser uid
  · rw [hsend]
    refine h.record_of_not_mls _ ?_ _ _
    rintro gid' route ⟨-, ⟨content', p, hcontent', htype, hp, hvalid⟩, hmls⟩
    obtain rfl : content = content' := Option.some_inj.1 hcontent'
    have hbody := SendMessageRequest.mlsBody_of_content hcontent htype hp hvalid hmls
    rw [hok hmember] at hbody
    cases hbody
  · rw [hsend, sendMessage_of_prepare_ne, record_self h.wellFormed]
    · exact h
    · exact fun p hp ↦ hmember (containsUser_of_prepare hp rfl)

/-- One case per kind of request. -/
theorem Inv.step {a : GroupAction} {t : GroupSystem} (h : s.Inv) (hok : s.Reserving a)
    (hstep : s.step a = some t) : t.Inv := by
  cases a with
  | start env call => exact h.start hstep
  | finish i env =>
    obtain ⟨task, hi, rfl⟩ := Option.map_eq_some_iff.1 hstep
    exact h.finish hi
  | abandon i =>
    obtain ⟨task, hi, rfl⟩ := Option.map_eq_some_iff.1 hstep
    exact h.eraseIdx hi
  | reply env token mid properties req =>
    obtain rfl := Option.some_inj.1 hstep
    exact h.reply hok
  | react env token mid req =>
    obtain rfl := Option.some_inj.1 hstep
    exact h.react hok
  | botSend env uid gid properties req =>
    obtain rfl := Option.some_inj.1 hstep
    exact h.botSend hok

/-- **Every stored MLS message has a reservation of its own**, in every run in which no MLS body
comes to a group by another way than a group send. -/
theorem sequenced_of_run {actions : List GroupAction}
    (hok : Transition.Along GroupSystem.step Reserving init actions)
    (hrun : Transition.run GroupSystem.step init actions = some s) : s.Sequenced :=
  (Transition.run_induction_along (fun _ _ _ hs hok hstep ↦ Inv.step hs hok hstep) inv_init hok
    hrun).sequenced

/-! ### A reply in the name of another device -/

/-- The first message of a device in a group without commits. -/
def applicationProperties : Properties :=
  [("e2e_version", .number (.posInt 2)), ("protocol", .string "mls"),
    ("wire_class", .string "mls_application"), ("sender_device_id", .string "phone"),
    ("local_id", .string "a"), ("mls_epoch", .number (.posInt 0)),
    ("mls_generation", .number (.posInt 0))]

/-- A user sends to group `7` from the phone. -/
def phoneSend : List GroupAction :=
  [.start quietEnv ⟨⟨1, "phone", false, false⟩, 7, some applicationProperties, .e2eV2 "cipher"⟩,
    .finish 0 quietEnv]

/-- The same message again, as a reply from the laptop. -/
def laptopReply : GroupAction :=
  .reply quietEnv ⟨1, "laptop", false, false⟩ 1 (some applicationProperties) (.e2eV2 "cipher")

theorem sequenced_of_run_phoneSend :
    ∃ s, Transition.run GroupSystem.step init phoneSend = some s ∧ s.Sequenced := by
  obtain ⟨s, hs⟩ := Option.isSome_iff_exists.1
    (rfl : (Transition.run GroupSystem.step init phoneSend).isSome = true)
  have hok : Transition.Along GroupSystem.step Reserving init phoneSend :=
    ⟨trivial, fun _ _ ↦ ⟨trivial, fun _ _ ↦ trivial⟩⟩
  exact ⟨s, hs, sequenced_of_run hok hs⟩

/-- The reply is stored: the generation is used twice, the second time by another device. -/
theorem not_sequenced_reply : ∃ s,
    Transition.run GroupSystem.step init (phoneSend ++ [laptopReply]) = some s ∧ ¬s.Sequenced := by
  let content : ChatMessageContent := ⟨some applicationProperties, contentType, "cipher"⟩
  let sent : ChatMessagePayload := ⟨1, 0, .group 7, .normal ⟨content, none⟩⟩
  let replied : ChatMessagePayload := ⟨1, 0, .group 7, .reply ⟨1, content⟩⟩
  let route : RoutingProperties :=
    { protocol := .mls, wireClass := .mlsApplication, senderDeviceId := "phone",
      recipientDeviceId := none, localId := "a", mlsEpoch := some 0, mlsGeneration := some 0,
      mlsHandshakeKind := none, mlsCommitId := none }
  have hrun : (Transition.run GroupSystem.step init (phoneSend ++ [laptopReply])).map
      (fun s ↦ (s.messages.getMsg 1, s.messages.getMsg 2)) =
      some (some (.message (.chat sent)), some (.message (.chat replied))) := rfl
  obtain ⟨s, hs, hmessages⟩ := Option.map_eq_some_iff.1 hrun
  obtain ⟨hsent, hreplied⟩ := Prod.ext_iff.1 hmessages
  have hmls : ∀ payload : ChatMessagePayload, payload.target = .group 7 →
      payload.detail.content = some content → payload.MlsIn 7 route := fun _ htarget hcontent ↦
    ⟨htarget, ⟨content, applicationProperties, hcontent, rfl, rfl, rfl⟩, rfl⟩
  refine ⟨s, hs, fun h ↦ absurd ?_ (by decide : ¬(1 : ℤ) = 2)⟩
  exact h.own 1 2 sent replied 7 7 route route (by decide) (by decide) hsent
    (hmls _ rfl rfl) hreplied
    (hmls _ rfl rfl) rfl

end GroupSystem

end VoceChat
