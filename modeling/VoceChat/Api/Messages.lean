import VoceChat.Api.GroupSend

/-!
# Replies, reactions and bot messages (`src/api/message_api.rs`, `src/api/bot.rs`)

The other endpoints that put a message into a group. A reply or a reaction goes where the message it
refers to went; a bot names its target itself. All of them end in `send_message`. None of them binds
the routing properties to the device of the request or reserves a sequence position.
-/

namespace VoceChat

open Guards Json MsgDb

/-- `ReactionApiResponse`. -/
inductive ReactionApiResponse where
  | ok (mid : ℤ)
  | messageDoesNotExist
  | forbidden
  deriving DecidableEq, Repr

/-- `get_target`: back to the other party of a DM, or to the same group. -/
def getTarget (currentUid : Int64) (payload : ChatMessagePayload) : MessageTarget :=
  match payload.target with
  | .user uid => .user (if uid = currentUid then payload.fromUid else uid)
  | .group gid => .group gid

/-- `can_reaction`. -/
def MessageReactionDetail.canReaction (detail : MessageReactionDetail) (currentUid : Int64)
    (isAdmin : Bool) (payload : ChatMessagePayload) : Bool :=
  match payload.detail with
  | .normal _ | .reply _ =>
    match detail with
    | .edit _ => currentUid = payload.fromUid
    | .like _ => true
    | .delete => currentUid = payload.fromUid || isAdmin
  | .reaction _ => false

/-- The message that is referred to, parsed. -/
def loadPayload (db : MsgDb Stored) (mid : ℤ) : Except ApiError (Option ChatMessagePayload) :=
  match db.getMsg mid with
  | none => .ok none
  | some data =>
    match Stored.payload data with
    | none => .error .internal
    | some payload => .ok (some payload)

/-- What replies and reactions have in common: look the message up, check that it may be referred
to, and send the new one. -/
def sendReferring (env : Env) (db : MsgDb Stored) (mid : ℤ) (allowed : ChatMessagePayload → Bool)
    (newPayload : ChatMessagePayload → ChatMessagePayload) :
    Except ApiError ReactionApiResponse × MsgDb Stored :=
  match loadPayload db mid with
  | .error e => (.error e, db)
  | .ok none => (.ok .messageDoesNotExist, db)
  | .ok (some payload) =>
    if allowed payload then
      match sendMessage env.sendFaults env.ctx db (newPayload payload) with
      | (answer, db) => (answer.map .ok, db)
    else (.ok .forbidden, db)

/-- `do_reaction`. -/
def doReaction (env : Env) (db : MsgDb Stored) (token : Token) (mid : ℤ)
    (detail : MessageReactionDetail) : Except ApiError ReactionApiResponse × MsgDb Stored :=
  sendReferring env db mid (detail.canReaction token.uid token.isAdmin) fun payload ↦
    ⟨token.uid, env.now, getTarget token.uid payload, .reaction ⟨mid, detail⟩⟩

/-- `ALLOWED_EMOJI`. -/
def allowedEmoji : List String := ["❤️", "😄", "👀", "👍", "👎", "🎉", "🙁", "🚀"]

/-- What a request asks for: an edit with its `X-Properties`, or one of the reactions without
content. -/
inductive ReactionRequest where
  | edit (properties : Option Properties) (req : SendMessageRequest)
  | like (action : String)
  | delete

/-- The detail that `edit`, `like` and `delete` hand to `do_reaction`. -/
def ReactionRequest.detail (files : String → Option StoredFile) :
    ReactionRequest → Except ApiError MessageReactionDetail
  | edit properties req => (req.intoChatMessageContent files properties).map .edit
  | like action => do
    ensure (allowedEmoji.contains action) (.fromStatus 400)
    return .like action
  | delete => .ok .delete

/-- `edit`, `like` and `delete`. -/
def react (env : Env) (db : MsgDb Stored) (token : Token) (mid : ℤ) (req : ReactionRequest) :
    Except ApiError ReactionApiResponse × MsgDb Stored :=
  match do guestForbidden token; req.detail env.files with
  | .error e => (.error e, db)
  | .ok detail => doReaction env db token mid detail

/-- Who may reply: a party of the DM, or a user of the group. -/
def canReply (cache : Cache) (uid : Int64) (payload : ChatMessagePayload) : Bool :=
  match payload.detail with
  | .reaction _ => false
  | .normal _ | .reply _ =>
    match payload.target with
    | .user target => target = uid || payload.fromUid = uid
    | .group gid => ((cache.group gid).map fun group ↦ group.containsUser uid).getD false

/-- `reply`. -/
def reply (env : Env) (db : MsgDb Stored) (token : Token) (mid : ℤ)
    (properties : Option Properties) (req : SendMessageRequest) :
    Except ApiError ReactionApiResponse × MsgDb Stored :=
  match do guestForbidden token; req.intoChatMessageContent env.files properties with
  | .error e => (.error e, db)
  | .ok content =>
    sendReferring env db mid (canReply env.ctx.cache token.uid) fun payload ↦
      ⟨token.uid, env.now, getTarget token.uid payload, .reply ⟨mid, content⟩⟩

/-- `send_to_group` of a bot, whose key names its uid. -/
def botSendToGroup (env : Env) (db : MsgDb Stored) (currentUid gid : Int64)
    (properties : Option Properties) (req : SendMessageRequest) :
    Except ApiError ℤ × MsgDb Stored :=
  match req.intoChatMessagePayload env.files env.now currentUid (.group gid) properties with
  | .error e => (.error e, db)
  | .ok payload => sendMessage env.sendFaults env.ctx db payload

/-! ### What they hand to `send_message` -/

section Handed

variable {env : Env} {db : MsgDb Stored} {token : Token} {mid : ℤ} {req : SendMessageRequest}
  {properties : Option Properties}

theorem loadPayload_eq_ok {payload : ChatMessagePayload} :
    loadPayload db mid = .ok (some payload) ↔
      (db.getMsg mid).bind Stored.payload = some payload := by
  rw [loadPayload]
  cases db.getMsg mid with
  | none => exact iff_of_false (fun h ↦ by cases h) (fun h ↦ by cases h)
  | some data =>
    show _ ↔ Stored.payload data = some payload
    cases hdata : Stored.payload data with
    | none => simp [hdata]
    | some payload' => simp [hdata]

theorem sendReferring_cases (env : Env) (db : MsgDb Stored) (mid : ℤ)
    (allowed : ChatMessagePayload → Bool) (newPayload : ChatMessagePayload → ChatMessagePayload) :
    (sendReferring env db mid allowed newPayload).2 = db ∨
    ∃ payload, (db.getMsg mid).bind Stored.payload = some payload ∧ allowed payload ∧
      (sendReferring env db mid allowed newPayload).2 =
        (sendMessage env.sendFaults env.ctx db (newPayload payload)).2 := by
  rw [sendReferring]
  cases hload : loadPayload db mid with
  | error e => exact .inl rfl
  | ok found =>
    cases found with
    | none => exact .inl rfl
    | some payload =>
      cases hallowed : allowed payload with
      | false => exact .inl (by simp only [hallowed, Bool.false_eq_true, if_false])
      | true =>
        refine .inr ⟨payload, loadPayload_eq_ok.1 hload, hallowed, ?_⟩
        simp only [hallowed, if_true]

/-- A reply either stores nothing or sends its content back to where the message came from. -/
theorem reply_cases : (reply env db token mid properties req).2 = db ∨
    ∃ content payload, req.intoChatMessageContent env.files properties = .ok content ∧
      (db.getMsg mid).bind Stored.payload = some payload ∧ token.isGuest = false ∧
      canReply env.ctx.cache token.uid payload ∧
      (reply env db token mid properties req).2 = (sendMessage env.sendFaults env.ctx db
        ⟨token.uid, env.now, getTarget token.uid payload, .reply ⟨mid, content⟩⟩).2 := by
  rw [reply]
  cases hcontent : (do guestForbidden token; req.intoChatMessageContent env.files properties) with
  | error e => exact .inl rfl
  | ok content =>
    simp only [guestForbidden, bind_eq_ok, ensure_eq_ok, exists_unit] at hcontent
    refine (sendReferring_cases ..).imp_right ?_
    rintro ⟨payload, hpayload, hallowed, hsend⟩
    exact ⟨content, payload, hcontent.2, hpayload, hcontent.1, hallowed, hsend⟩

/-- So does a reaction, with the detail of its request. -/
theorem react_cases {req : ReactionRequest} : (react env db token mid req).2 = db ∨
    ∃ detail payload, req.detail env.files = .ok detail ∧
      (db.getMsg mid).bind Stored.payload = some payload ∧ token.isGuest = false ∧
      detail.canReaction token.uid token.isAdmin payload ∧
      (react env db token mid req).2 = (sendMessage env.sendFaults env.ctx db
        ⟨token.uid, env.now, getTarget token.uid payload, .reaction ⟨mid, detail⟩⟩).2 := by
  rw [react]
  cases hdetail : (do guestForbidden token; req.detail env.files) with
  | error e => exact .inl rfl
  | ok detail =>
    simp only [guestForbidden, bind_eq_ok, ensure_eq_ok, exists_unit] at hdetail
    refine (sendReferring_cases ..).imp_right ?_
    rintro ⟨payload, hpayload, hallowed, hsend⟩
    exact ⟨detail, payload, hdetail.2, hpayload, hdetail.1, hallowed, hsend⟩

theorem botSendToGroup_cases {uid gid : Int64} :
    (botSendToGroup env db uid gid properties req).2 = db ∨
    ∃ content, req.intoChatMessageContent env.files properties = .ok content ∧
      (botSendToGroup env db uid gid properties req).2 = (sendMessage env.sendFaults env.ctx db
        ⟨uid, env.now, .group gid, .normal ⟨content, none⟩⟩).2 := by
  rw [botSendToGroup, SendMessageRequest.intoChatMessagePayload]
  cases req.intoChatMessageContent env.files properties with
  | error e => exact .inl rfl
  | ok content => exact .inr ⟨content, rfl, rfl⟩

end Handed

end VoceChat
