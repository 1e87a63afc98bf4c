import VoceChat.Message.SendLaws
import VoceChat.Mls.Sequence

/-!
# Sending to a group (`send` of `src/api/group.rs`)

The endpoint checks the request (`checkGroupSend`), reserves the sequence position of an MLS
message, and then calls `send_message`. The reservation is a transaction of its own in the SQL
database, the message goes into the message database, and nothing undoes the first when the second
does not happen.

## Whether a row and its message go together

`Atomic` is what one would want of a call: a row is left behind exactly when its message was stored,
and a call that fails leaves the sequencing tables alone. `groupSend_atomic_iff` says when that is
so: whenever the call reserves a position, everything that `send_message` goes on to check and to
write must succeed. A sender who is not a member of the group passes the reservation all the same
(`groupSend_notMember`).
-/

namespace VoceChat

open Guards Json Machine MsgDb

/-- The authenticated part of a request. -/
structure Token where
  uid : Int64
  device : String
  isAdmin : Bool
  isGuest : Bool
  deriving DecidableEq, Repr

/-- What a request finds: the file directory, the clock, the cache and settings at the time the
message is sent, and what happens to fail. -/
structure Env where
  files : String → Option StoredFile
  now : ℤ
  ctx : Context
  sequenceFaults : Faults
  sendFaults : SendFaults

/-- The two databases. -/
structure ServerState where
  sequences : SequenceTables
  messages : MsgDb Stored

/-- `guest_forbidden`. -/
def guestForbidden (token : Token) : Except ApiError Unit :=
  ensure (token.isGuest = false) (.fromStatus 403)

/-- A request to `/group/:gid/send`, with its `X-Properties` decoded. -/
structure GroupSend where
  token : Token
  gid : Int64
  properties : Option Properties
  req : SendMessageRequest

/-- The sender binding of a v2 request: its properties name the device that sent it. -/
def bindSender (properties : Option Properties) (device : String) :
    SendMessageRequest → Except ApiError Unit
  | .e2eV2 _ =>
    match properties with
    | none => .error (.fromStatus 400)
    | some properties => do
      let _ ← (validateAuthenticatedSender properties device).mapError .badRequest
      return ()
  | .text _ | .markdown _ | .file _ | .archive _ => .ok ()

/-- The routing properties for which a position is reserved: those of a v2 message, which has to be
an MLS message here. -/
def sequenceRoute (payload : ChatMessagePayload) : Except ApiError (Option RoutingProperties) :=
  match payload.detail with
  | .normal normal =>
    if normal.content.contentType = contentType then
      match normal.content.properties with
      | none => .error (.fromStatus 400)
      | some properties => do
        let route ← (validateProperties properties).mapError .badRequest
        ensure (route.protocol = .mls) (.fromStatus 400)
        return some route
    else .ok none
  | .reaction _ | .reply _ => .ok none

/-- `send` up to the reservation. -/
def checkGroupSend (env : Env) (call : GroupSend) :
    Except ApiError (ChatMessagePayload × Option RoutingProperties) := do
  guestForbidden call.token
  bindSender call.properties call.token.device call.req
  let payload ← call.req.intoChatMessagePayload env.files env.now call.token.uid
    (.group call.gid) call.properties
  let route ← sequenceRoute payload
  return (payload, route)

/-- The response to a reservation that was not granted. -/
def MlsSequenceError.response : MlsSequenceError → ApiError
  | conflict => .fromString "E2E_MLS_SEQUENCE_CONFLICT" 409
  | database _ => .internal

/-- The reservation of `send`. -/
def reserveRoute (faults : Faults) (db : SequenceTables) (gid uid : Int64) :
    Option RoutingProperties → Except ApiError Unit × SequenceTables
  | none => (.ok (), db)
  | some route =>
    match reserveMlsSequence faults db gid uid route with
    | (answer, db) => (answer.mapError MlsSequenceError.response, db)

/-- `send`: the answer and the databases it leaves. -/
def groupSend (env : Env) (s : ServerState) (call : GroupSend) :
    Except ApiError ℤ × ServerState :=
  match checkGroupSend env call with
  | .error e => (.error e, s)
  | .ok (payload, route) =>
    match reserveRoute env.sequenceFaults s.sequences call.gid call.token.uid route with
    | (.error e, sequences) => (.error e, { s with sequences })
    | (.ok (), sequences) =>
      match sendMessage env.sendFaults env.ctx s.messages payload with
      | (answer, messages) => (answer, ⟨sequences, messages⟩)

namespace GroupSend

/-- A v2 request of a device in its own name, with valid routing properties for MLS. -/
structure Sequenced (call : GroupSend) (route : RoutingProperties) : Prop where
  notGuest : call.token.isGuest = false
  v2 : ∃ cipher, call.req = .e2eV2 cipher
  valid : ∃ properties, call.properties = some properties ∧
    validateProperties properties = .ok route
  device : route.senderDeviceId = call.token.device
  mls : route.protocol = .mls

/-- The payload of a v2 request. -/
def payload (call : GroupSend) (now : ℤ) : ChatMessagePayload :=
  ⟨call.token.uid, now, .group call.gid,
    .normal ⟨⟨call.properties, contentType, call.req.body⟩, none⟩⟩

/-- The request asks for the next position, and the reservation does not fail on its own. -/
def Reserves (call : GroupSend) (env : Env) (s : ServerState) : Prop :=
  ∃ route r, call.Sequenced route ∧ route.reservation call.gid call.token.uid = some r ∧
    s.sequences.IsNext r ∧ env.sequenceFaults.Quiet r

/-- The sender is known and in the group, an id is left, and both writes succeed. -/
structure CanStore (call : GroupSend) (env : Env) (s : ServerState) : Prop where
  sender : (env.ctx.cache.user call.token.uid).isSome
  member : ∃ group, env.ctx.cache.group call.gid = some group ∧ group.containsUser call.token.uid
  id : s.messages.CanAllocate env.sendFaults.store
  batch : env.sendFaults.store .applyBatch = false
  merged : env.sendFaults.store .insertMerged = false

/-- Between the two states, the v2 message of the request was stored in its group. -/
def MessageStored (call : GroupSend) (s t : ServerState) : Prop :=
  ∃ mid payload content, s.messages.db.get (keyGroupMsg call.gid mid) = none ∧
    t.messages.db.get (keyGroupMsg call.gid mid) = some (.message (.chat payload)) ∧
    payload.fromUid = call.token.uid ∧ payload.detail.content = some content ∧
    content.contentType = contentType ∧ content.content = call.req.body

/-- A row is left behind exactly when the message was stored, and no call that fails leaves one. -/
def Atomic (call : GroupSend) (s : ServerState) (out : Except ApiError ℤ × ServerState) : Prop :=
  ((∃ r, out.2.sequences = s.sequences.add r) ↔ call.MessageStored s out.2) ∧
    ∀ e, out.1 = .error e → out.2.sequences = s.sequences

end GroupSend

/-! ### What passes the checks -/

section Checks

variable {env : Env} {s : ServerState} {call : GroupSend} {route : RoutingProperties}

theorem bindSender_e2eV2_eq_ok {properties : Option Properties} {device cipher : String} :
    bindSender properties device (.e2eV2 cipher) = .ok () ↔ ∃ p, properties = some p ∧
      ∃ route, validateProperties p = .ok route ∧ route.senderDeviceId = device := by
  cases properties with
  | none => exact iff_of_false (fun h ↦ by cases h) (fun ⟨_, h, _⟩ ↦ by cases h)
  | some p =>
    simp only [bindSender, bind_eq_ok, mapError_eq_ok, validateAuthenticatedSender_eq_ok,
      pure_eq_ok, and_true, Option.some_inj, exists_eq_left']

theorem sequenceRoute_of_ne {payload : ChatMessagePayload} {normal : MessageNormal}
    (h : payload.detail = .normal normal) (hne : normal.content.contentType ≠ contentType) :
    sequenceRoute payload = .ok none := by
  rw [sequenceRoute, h]
  exact if_neg hne

theorem sequenceRoute_payload_eq_ok {now : ℤ} {properties : Properties}
    {result : Option RoutingProperties} (h : call.properties = some properties) :
    sequenceRoute (call.payload now) = .ok result ↔
      ∃ route, validateProperties properties = .ok route ∧ route.protocol = .mls ∧
        some route = result := by
  have hroute : sequenceRoute (call.payload now) = do
      let route ← (validateProperties properties).mapError .badRequest
      ensure (route.protocol = .mls) (.fromStatus 400)
      return some route := by
    rw [sequenceRoute, GroupSend.payload, h]
    exact if_pos rfl
  rw [hroute]
  simp only [bind_eq_ok, mapError_eq_ok, ensure_eq_ok, exists_unit, pure_eq_ok]

theorem checkGroupSend_of_sequenced (h : call.Sequenced route) :
    checkGroupSend env call = .ok (call.payload env.now, some route) := by
  obtain ⟨cipher, hreq⟩ := h.v2
  obtain ⟨properties, hproperties, hvalid⟩ := h.valid
  have hbind : bindSender call.properties call.token.device call.req = .ok () :=
    hreq ▸ bindSender_e2eV2_eq_ok.2 ⟨properties, hproperties, route, hvalid, h.device⟩
  have hpayload : call.req.intoChatMessagePayload env.files env.now call.token.uid
      (.group call.gid) call.properties = .ok (call.payload env.now) := by
    refine SendMessageRequest.intoChatMessagePayload_eq_ok.2 ⟨call.properties, ?_, ?_⟩
    · rw [hreq, hproperties, SendMessageRequest.contentProperties_e2eV2 hvalid]
    · rw [GroupSend.payload, hreq]
      rfl
  have hroute : sequenceRoute (call.payload env.now) = .ok (some route) :=
    (sequenceRoute_payload_eq_ok hproperties).2 ⟨route, hvalid, h.mls, rfl⟩
  simp only [checkGroupSend, guestForbidden, bind_eq_ok, ensure_eq_ok, exists_unit]
  exact ⟨h.notGuest, hbind, _, hpayload, _, hroute, rfl⟩

/-- A request that passes the checks is not a v2 message, or it is the v2 message of an MLS route
that its device may use. -/
theorem checkGroupSend_cases {payload : ChatMessagePayload} {result : Option RoutingProperties}
    (h : checkGroupSend env call = .ok (payload, result)) :
    (result = none ∧ call.req.contentType ≠ contentType ∧ ∃ content,
      payload.detail.content = some content ∧ content.contentType = call.req.contentType) ∨
    ∃ route, result = some route ∧ call.Sequenced route ∧ payload = call.payload env.now := by
  simp only [checkGroupSend, guestForbidden, bind_eq_ok, ensure_eq_ok, exists_unit, pure_eq_ok,
    Prod.mk.injEq] at h
  obtain ⟨hguest, hbind, _, hpayload, _, hroute, rfl, rfl⟩ := h
  obtain ⟨properties', hproperties', rfl⟩ :=
    SendMessageRequest.intoChatMessagePayload_eq_ok.1 hpayload
  by_cases htype : call.req.contentType = contentType
  · obtain ⟨cipher, hreq⟩ := call.req.contentType_eq_iff.1 htype
    rw [hreq] at hbind
    obtain ⟨properties, hproperties, route, hvalid, hdevice⟩ := bindSender_e2eV2_eq_ok.1 hbind
    have hkeep : properties' = call.properties := by
      rw [hreq, hproperties, SendMessageRequest.contentProperties_e2eV2 hvalid] at hproperties'
      rw [hproperties]
      exact (Except.ok.inj hproperties').symm
    have hpay : (⟨call.token.uid, env.now, .group call.gid, .normal
        ⟨⟨properties', call.req.contentType, call.req.body⟩, none⟩⟩ : ChatMessagePayload) =
        call.payload env.now := by
      rw [hkeep, htype]
      rfl
    rw [hpay] at hroute
    obtain ⟨route', hvalid', hmls, rfl⟩ := (sequenceRoute_payload_eq_ok hproperties).1 hroute
    obtain rfl : route = route' := Except.ok.inj (hvalid.symm.trans hvalid')
    exact .inr ⟨route, rfl, ⟨hguest, ⟨cipher, hreq⟩, ⟨properties, hproperties, hvalid⟩, hdevice,
      hmls⟩, hpay⟩
  · rw [sequenceRoute_of_ne rfl htype] at hroute
    exact .inl ⟨(Except.ok.inj hroute).symm, htype, _, rfl, rfl⟩

theorem GroupSend.Sequenced.mlsIn (h : call.Sequenced route) (now : ℤ) :
    (call.payload now).MlsIn call.gid route := by
  obtain ⟨properties, hproperties, hvalid⟩ := h.valid
  exact ⟨rfl, ⟨_, properties, rfl, rfl, hproperties, hvalid⟩, h.mls⟩

/-- A known sender and a group it may send to are all that `send_message` asks of the message. -/
theorem prepare_payload_eq_ok (h : call.Sequenced route) {faults : SendFaults} {ctx : Context}
    {now : ℤ} {p : Prepared} : prepare faults ctx (call.payload now) = .ok p ↔
      ∃ user group, ctx.cache.user call.token.uid = some user ∧
        ctx.cache.group call.gid = some group ∧ group.containsUser call.token.uid ∧
        p = ⟨.group call.gid
            (if group.ty = .isPublic then ctx.cache.users.map Prod.fst else group.members),
          { call.payload now with detail := .normal ⟨⟨call.properties, contentType, call.req.body⟩,
            user.burnAfterReadingGroup.lookup call.gid⟩ }⟩ := by
  obtain ⟨htarget, hrequired⟩ := (h.mlsIn now).enforce faults ctx
  have hprepare : prepare faults ctx (call.payload now) =
      resolve ctx.cache (call.payload now) none := by
    rw [prepare, htarget, hrequired]
    rfl
  have hdetail : (call.payload now).detail = .normal _ := rfl
  rw [hprepare, resolve]
  simp only [bind_eq_ok, pure_eq_ok, setExpiresIn_normal_eq_ok hdetail]
  constructor
  · rintro ⟨_, ⟨user, huser, rfl⟩, target, hresolve, rfl⟩
    obtain ⟨group, hgroup, hmember, rfl⟩ := (resolveTarget_group_eq_ok rfl).1 hresolve
    exact ⟨user, group, huser, hgroup, hmember, rfl⟩
  · rintro ⟨user, group, huser, hgroup, hmember, rfl⟩
    exact ⟨_, ⟨user, huser, rfl⟩, _,
      (resolveTarget_group_eq_ok rfl).2 ⟨group, hgroup, hmember, rfl⟩, rfl⟩

end Checks

/-! ### A whole call -/

section Call

variable {env : Env} {s : ServerState} {call : GroupSend} {route : RoutingProperties}

theorem reserveRoute_some_cases (faults : Faults) (db : SequenceTables) (gid uid : Int64)
    (route : RoutingProperties) :
    (∃ r, route.reservation gid uid = some r ∧ db.IsNext r ∧ faults.Quiet r ∧
      reserveRoute faults db gid uid (some route) = (.ok (), db.add r)) ∨
    ((¬∃ r, route.reservation gid uid = some r ∧ db.IsNext r ∧ faults.Quiet r) ∧
      ∃ e, reserveRoute faults db gid uid (some route) = (.error e, db)) := by
  rw [reserveRoute]
  by_cases hgrant : ∃ r, route.reservation gid uid = some r ∧ db.IsNext r ∧ faults.Quiet r
  · obtain ⟨r, hr, hnext, hquiet⟩ := hgrant
    refine .inl ⟨r, hr, hnext, hquiet, ?_⟩
    rw [reserveMlsSequence, reserveInTransaction_eq_ok.2 ⟨r, hr, hnext, hquiet, rfl⟩]
    rfl
  · refine .inr ⟨hgrant, ?_⟩
    rcases reserveMlsSequence_cases faults db gid uid route with ⟨r, hr, hnext, hquiet, -⟩ | ⟨e, he⟩
    · exact absurd ⟨r, hr, hnext, hquiet⟩ hgrant
    · rw [he]
      exact ⟨e.response, rfl⟩

/-- A row makes a difference. -/
theorem SequenceTables.add_ne (db : SequenceTables) (r : Reservation) : db.add r ≠ db := by
  intro h
  cases r with
  | commit row => simpa [add] using congrArg (fun t ↦ t.commits.length) h
  | welcome row => simpa [add] using congrArg (fun t ↦ t.welcomes.length) h
  | application row => simpa [add] using congrArg (fun t ↦ t.applications.length) h

theorem not_messageStored_of_messages_eq {t : ServerState} (h : t.messages = s.messages) :
    ¬call.MessageStored s t := by
  rintro ⟨mid, payload, content, hnew, hget, -⟩
  rw [h, hnew] at hget
  cases hget

/-- `send_message` stores no v2 message when it is handed none. -/
theorem not_messageStored_of_ne (hw : s.messages.WellFormed) {payload : ChatMessagePayload}
    {content : ChatMessageContent} (hcontent : payload.detail.content = some content)
    (htype : content.contentType ≠ contentType) {sequences : SequenceTables} :
    ¬call.MessageStored s
      ⟨sequences, (sendMessage env.sendFaults env.ctx s.messages payload).2⟩ := by
  rintro ⟨mid, payload', content', hnew, hget, -, hcontent', htype', -⟩
  rcases sendMessage_cases hw env.sendFaults env.ctx payload with
    ⟨p, t, hp, -, hsend, hstored, ht, -⟩ | ⟨-, e, t, hsend, ht, hsame⟩
  · rw [hsend] at hget
    obtain rfl := hstored.eq_of_new ht hnew hget (fun _ ↦ bytes_ne_of_head (by decide))
      fun _ ↦ bytes_ne_of_head (by decide)
    rw [(prepare_payload_eq hp).2.2, hcontent] at hcontent'
    obtain rfl := Option.some_inj.1 hcontent'
    exact htype htype'
  · rw [hsend] at hget
    rw [hsame.get_eq_none ht hnew (fun _ ↦ bytes_ne_of_head (by decide))
      fun _ ↦ bytes_ne_of_head (by decide)] at hget
    cases hget

/-- A request that is not granted a position stores no MLS message and leaves no row. -/
theorem groupSend_of_not_reserves (hw : s.messages.WellFormed) (h : ¬call.Reserves env s) :
    (groupSend env s call).2.sequences = s.sequences ∧
      ¬call.MessageStored s (groupSend env s call).2 := by
  cases hcheck : checkGroupSend env call with
  | error e =>
    rw [groupSend, hcheck]
    exact ⟨rfl, not_messageStored_of_messages_eq rfl⟩
  | ok checked =>
    obtain ⟨payload, result⟩ := checked
    rcases checkGroupSend_cases hcheck with
      ⟨rfl, htype, content, hcontent, hctype⟩ | ⟨route, rfl, hsequenced, rfl⟩
    · have hsend : (groupSend env s call).2 =
          ⟨s.sequences, (sendMessage env.sendFaults env.ctx s.messages payload).2⟩ := by
        rw [groupSend, hcheck]
        rfl
      rw [hsend]
      exact ⟨rfl, not_messageStored_of_ne hw hcontent (hctype ▸ htype)⟩
    · rcases reserveRoute_some_cases env.sequenceFaults s.sequences call.gid call.token.uid
        route with
        ⟨r, hr, hnext, hquiet, -⟩ | ⟨-, e, he⟩
      · exact absurd ⟨route, r, hsequenced, hr, hnext, hquiet⟩ h
      · rw [groupSend, hcheck]
        simp only [he]
        exact ⟨trivial, not_messageStored_of_messages_eq rfl⟩

/-- A request that is granted a position leaves its row, whatever `send_message` then answers. -/
theorem groupSend_of_reserves (h : call.Reserves env s) :
    ∃ r, groupSend env s call =
      ((sendMessage env.sendFaults env.ctx s.messages (call.payload env.now)).1,
        ⟨s.sequences.add r, (sendMessage env.sendFaults env.ctx s.messages
          (call.payload env.now)).2⟩) ∧
      ∃ route, call.Sequenced route := by
  obtain ⟨route, r, hsequenced, hr, hnext, hquiet⟩ := h
  refine ⟨r, ?_, route, hsequenced⟩
  rcases reserveRoute_some_cases env.sequenceFaults s.sequences call.gid call.token.uid route with
    ⟨r', hr', -, -, hok⟩ | ⟨hnot, -⟩
  · obtain rfl : r = r' := Option.some_inj.1 (hr.symm.trans hr')
    rw [groupSend, checkGroupSend_of_sequenced hsequenced]
    simp only [hok]
  · exact absurd ⟨r, hr, hnext, hquiet⟩ hnot

/-- `send_message` stores the message of such a request and answers with its id if it can, and
fails otherwise. -/
theorem sendMessage_payload (env : Env) (hw : s.messages.WellFormed)
    (hsequenced : call.Sequenced route) {sequences : SequenceTables} :
    (call.CanStore env s →
      (∃ mid, (sendMessage env.sendFaults env.ctx s.messages (call.payload env.now)).1 = .ok mid) ∧
      call.MessageStored s ⟨sequences,
        (sendMessage env.sendFaults env.ctx s.messages (call.payload env.now)).2⟩) ∧
    (¬call.CanStore env s →
      ∃ e, (sendMessage env.sendFaults env.ctx s.messages (call.payload env.now)).1 =
      .error e) := by
  rcases sendMessage_cases hw env.sendFaults env.ctx (call.payload env.now) with
    ⟨p, t, hp, ⟨hid, hbatch⟩, hsend, hstored, ht, -⟩ | ⟨hnot, e, t, hsend, ht, hsame⟩
  · obtain ⟨user, group, huser, hgroup, hmember, rfl⟩ := (prepare_payload_eq_ok hsequenced).1 hp
    rw [hsend]
    constructor
    · intro hcan
      refine ⟨⟨_, if_neg ?_⟩, ?_⟩
      · simp [mergedFails, reconcileFails, hcan.merged]
      · exact ⟨_, _, _, hstored.unused (.group call.gid _) hstored.isMid rfl,
          hstored.group _ _ rfl, rfl, rfl, rfl, rfl⟩
    · intro hcannot
      refine ⟨_, if_pos ?_⟩
      by_contra hmerged
      refine hcannot ⟨by rw [huser]; rfl, ⟨group, hgroup, hmember⟩, hid, hbatch, ?_⟩
      simpa [mergedFails, reconcileFails] using hmerged
  · rw [hsend]
    refine ⟨fun hcan ↦ ?_, fun _ ↦ ⟨e, rfl⟩⟩
    obtain ⟨user, huser⟩ := Option.isSome_iff_exists.1 hcan.sender
    obtain ⟨group, hgroup, hmember⟩ := hcan.member
    exact absurd ⟨hcan.id, hcan.batch⟩
      (hnot _ ((prepare_payload_eq_ok hsequenced).2 ⟨user, group, huser, hgroup, hmember, rfl⟩))

/-- **A row and its message go together** exactly when a granted position is followed by a store
that succeeds. -/
theorem groupSend_atomic_iff (hw : s.messages.WellFormed) :
    call.Atomic s (groupSend env s call) ↔ (call.Reserves env s → call.CanStore env s) := by
  by_cases hreserves : call.Reserves env s
  · obtain ⟨r, hr, route, hsequenced⟩ := groupSend_of_reserves hreserves
    obtain ⟨hcan, hcannot⟩ := sendMessage_payload env hw hsequenced
    rw [hr]
    constructor
    · intro hatomic _
      by_contra hnot
      obtain ⟨e, he⟩ := hcannot hnot
      exact s.sequences.add_ne r (hatomic.2 e he)
    · intro h
      obtain ⟨⟨mid, hmid⟩, hstored⟩ := hcan (h hreserves)
      refine ⟨iff_of_true ⟨r, rfl⟩ hstored, fun e he ↦ ?_⟩
      rw [hmid] at he
      cases he
  · obtain ⟨hsame, hstored⟩ := groupSend_of_not_reserves hw hreserves
    refine iff_of_true ⟨iff_of_false (fun ⟨r, hr⟩ ↦ ?_) hstored, fun _ _ ↦ hsame⟩
      fun h ↦ absurd h hreserves
    exact s.sequences.add_ne r (hr.symm.trans hsame)

end Call

/-! ### A commit of someone else -/

/-- The routing properties of the first commit of a group. -/
def commitProperties : Properties :=
  [("e2e_version", .number (.posInt 2)), ("protocol", .string "mls"),
    ("wire_class", .string "mls_handshake"), ("sender_device_id", .string "phone"),
    ("local_id", .string "a"), ("mls_epoch", .number (.posInt 1)),
    ("mls_generation", .number (.posInt 0)), ("mls_handshake_kind", .string "commit"),
    ("mls_commit_id", .string "c")]

/-- Two users, and a private group of the first. -/
def smallCache : Cache where
  users := [(1, ⟨.normal, [], []⟩), (2, ⟨.normal, [], []⟩)]
  groups := [(7, ⟨.isPrivate 1, [1], true⟩)]
  e2eProtocolVer := some 2

/-- Nothing fails on its own. -/
def quietEnv : Env where
  files _ := none
  now := 0
  ctx := ⟨smallCache, []⟩
  sequenceFaults _ := none
  sendFaults := .none

def newServer : ServerState := ⟨.empty, created⟩

/-- A commit that a user sends to group `7`. -/
def commitBy (uid : Int64) : GroupSend where
  token := ⟨uid, "phone", false, false⟩
  gid := 7
  properties := some commitProperties
  req := .e2eV2 "cipher"

/-- The first user is in the group: the row and the message are both there. -/
theorem groupSend_atomic_iff_member :
    (commitBy 1).Atomic newServer (groupSend quietEnv newServer (commitBy 1)) :=
  (groupSend_atomic_iff wellFormed_created).2 fun _ ↦
    ⟨rfl, ⟨_, rfl, rfl⟩, by decide, rfl, rfl⟩

/-- The second is not. The request is refused, and the group's epoch has moved on. -/
theorem groupSend_notMember :
    (groupSend quietEnv newServer (commitBy 2)).1 = .error (.fromStatus 403) ∧
    (groupSend quietEnv newServer (commitBy 2)).2.sequences.currentEpoch 7 = 1 ∧
    ¬(commitBy 2).Atomic newServer (groupSend quietEnv newServer (commitBy 2)) := by
  have hanswer : (groupSend quietEnv newServer (commitBy 2)).1 = .error (.fromStatus 403) := rfl
  have hrow : (groupSend quietEnv newServer (commitBy 2)).2.sequences =
    ⟨[⟨7, 1, "c", 2, "phone"⟩], [], []⟩ := rfl
  refine ⟨hanswer, by rw [hrow]; decide, fun hatomic ↦ ?_⟩
  have hsame := hatomic.2 _ hanswer
  rw [hrow] at hsame
  cases hsame

end VoceChat
