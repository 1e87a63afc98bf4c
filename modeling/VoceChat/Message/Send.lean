import VoceChat.Message.Payload

/-!
# Sending a message (`send_message`)

`sendMessage` checks a payload against the configuration and the cache, stores it in the message
database and answers with its id. The checks come first (`prepare`) and write nothing; then
`internalSendMessage` writes the message and its merged copy.

The server's state is a parameter of the calls. What may fail on its own — the settings query, the
store, the projection of pending markers that follows a deferred DM — is in `SendFaults`. Push
notifications leave the server and are not part of the model, except that a DM that would notify
its target looks the target up.
-/

namespace VoceChat

open Guards Json

/-- What the server knows when it sends a message. -/
structure Context where
  cache : Cache
  /-- `e2e_dm_setting`, by lower and higher uid. -/
  dmSettings : List ((ℤ × ℤ) × Bool)

structure SendFaults where
  /-- The query of `e2e_dm_setting` fails. -/
  dmSetting : Bool
  store : StoreStep → Bool
  /-- `reconcile_pending_dm_markers` fails. -/
  reconcile : Bool

/-- Nothing fails on its own. -/
def SendFaults.none : SendFaults := ⟨false, fun _ ↦ false, false⟩

/-- `E2E_REQUIRED`. -/
def e2eRequired : ApiError := .fromString "E2E_REQUIRED" 403

/-- The protocol of a v2 message has to fit its target. The answer is the target of a deferred
DM. -/
def checkTargetProtocol : MessageTarget → Protocol → Except ApiError (Option Int64)
  | .user uid, .drPending => .ok (some uid)
  | .user _, .dr => .ok none
  | .group _, .mls => .ok none
  | _, _ => .error (.fromString "E2E_PROTOCOL_TARGET_MISMATCH" 400)

/-- `enforce_e2e_v2_target_protocol`. -/
def enforceE2eV2TargetProtocol (payload : ChatMessagePayload) :
    Except ApiError (Option Int64) :=
  match payload.detail.content with
  | none => .ok none
  | some content =>
    if content.contentType ≠ contentType then .ok none
    else match content.properties with
      | none => .error (.fromStatus 400)
      | some properties => do
        let routing ← (validateProperties properties).mapError .badRequest
        checkTargetProtocol payload.target routing.protocol

/-- `enforce_e2e_required`: plaintext is refused where end-to-end encryption is required. -/
def enforceE2eRequired (faults : SendFaults) (ctx : Context) (payload : ChatMessagePayload) :
    Except ApiError Unit :=
  let generationTwo := (ctx.cache.e2eProtocolVer.map fun ver ↦ decide (2 ≤ ver)).getD true
  match payload.detail.content with
  | none => if generationTwo then .error e2eRequired else .ok ()
  | some content =>
    if content.contentType = contentType then .ok ()
    else if generationTwo then .error e2eRequired
    else do
      let required ← match payload.target with
        | .user uid =>
          let key := (min payload.fromUid.toInt uid.toInt, max payload.fromUid.toInt uid.toInt)
          if faults.dmSetting then .error .internal
          else .ok ((ctx.dmSettings.lookup key).getD true)
        | .group gid => .ok (((ctx.cache.group gid).map CacheGroup.e2eEnabled).getD true)
      ensure (required = false) e2eRequired

/-- `notify_message(..).is_some()`: the message is one that users are notified of. -/
def notifies (detail : MessageDetail) : Bool :=
  match detail with
  | .reaction _ => false
  | .normal ⟨content, _⟩ | .reply ⟨_, content⟩ =>
    ["text/plain", "text/markdown", "vocechat/file", contentType].contains content.contentType ||
      ((content.properties.bind (·.get "e2e")).bind Value.asBool).getD false

inductive InternalSendMessageTarget where
  | group (gid : Int64) (targets : List Int64)
  | dm (fromUid toUid : Int64) (pending : Bool)
  deriving DecidableEq, Repr

/-- A message that passed all checks. -/
structure Prepared where
  target : InternalSendMessageTarget
  payload : ChatMessagePayload

/-- The `expires_in` of a normal message comes from its sender's settings. -/
def setExpiresIn (cache : Cache) (payload : ChatMessagePayload) :
    Except ApiError ChatMessagePayload :=
  match payload.detail with
  | .normal normal =>
    match cache.user payload.fromUid with
    | none => .error (.fromStatus 401)
    | some currentUser =>
      let expiresIn := match payload.target with
        | .user uid => currentUser.burnAfterReadingUser.lookup uid
        | .group gid => currentUser.burnAfterReadingGroup.lookup gid
      .ok { payload with detail := .normal { normal with expiresIn } }
  | _ => .ok payload

/-- Who receives the message, and who may send it. -/
def resolveTarget (cache : Cache) (payload : ChatMessagePayload) (pendingDmTarget : Option Int64) :
    Except ApiError InternalSendMessageTarget :=
  match payload.target with
  | .user uid => do
    ensure ((∃ user ∈ cache.user payload.fromUid, user.status = .normal) →
      notifies payload.detail → (cache.user uid).isSome) (.fromStatus 404)
    return .dm payload.fromUid uid pendingDmTarget.isSome
  | .group gid =>
    match cache.group gid with
    | none => .error (.fromStatus 404)
    | some group => do
      ensure (group.containsUser payload.fromUid) (.fromStatus 403)
      return .group gid
        (if group.ty = .isPublic then cache.users.map Prod.fst else group.members)

/-- The checks of `send_message` that it makes with the cache locked. -/
def resolve (cache : Cache) (payload : ChatMessagePayload) (pendingDmTarget : Option Int64) :
    Except ApiError Prepared := do
  let payload ← setExpiresIn cache payload
  let target ← resolveTarget cache payload pendingDmTarget
  return ⟨target, payload⟩

/-- `send_message` up to the writes. -/
def prepare (faults : SendFaults) (ctx : Context) (payload : ChatMessagePayload) :
    Except ApiError Prepared := do
  let pendingDmTarget ← enforceE2eV2TargetProtocol payload
  enforceE2eRequired faults ctx payload
  resolve ctx.cache payload pendingDmTarget

structure InternalSendMessageResult where
  mid : ℤ
  targets : List Int64
  payload : ChatMessagePayload
  mergedId : Option ℤ

/-- Write the message itself. -/
def storeMessage (fails : StoreStep → Bool) (db : MsgDb Stored) (p : Prepared) :
    Except MsgDbError ℤ × MsgDb Stored :=
  match p.target with
  | .group gid targets => db.sendToGroup fails gid targets (.chat p.payload)
  | .dm fromUid toUid false => db.sendToDm fails fromUid toUid (.chat p.payload)
  | .dm fromUid toUid true =>
    db.sendToDmWithPendingMarker fails fromUid toUid p.payload.createdAt (.chat p.payload)

/-- The uids a message is written for. -/
def InternalSendMessageTarget.targets : InternalSendMessageTarget → List Int64
  | .group _ targets => targets
  | .dm fromUid toUid _ => [fromUid, toUid]

/-- The content a merged message takes over from an edit. -/
def mergeEdit (content : ChatMessageContent) : Blob Stored → Blob Stored
  | .message (.merged payload) => .message (.merged { payload with content })
  | data => data

/-- Update the merged message: a normal message or a reply starts one, an edit changes one. -/
def storeMerged (fails : StoreStep → Bool) (db : MsgDb Stored) (payload : ChatMessagePayload)
    (mid : ℤ) : Except ApiError (Option ℤ) × MsgDb Stored :=
  match payload.detail with
  | .normal ⟨content, _⟩ | .reply ⟨_, content⟩ =>
    if fails .insertMerged then (.error .internal, db)
    else (.ok (some mid), db.insertMergedMsg mid
      (.merged ⟨payload.fromUid, payload.target, content, payload.createdAt⟩))
  | .reaction ⟨origin, .edit content⟩ =>
    if fails .updateMerged then (.error .internal, db)
    else (.ok (some origin), db.updateMergedMsg origin (mergeEdit content))
  | .reaction ⟨_, .like _⟩ | .reaction ⟨_, .delete⟩ => (.ok none, db)

/-- `internal_send_message`. -/
def internalSendMessage (fails : StoreStep → Bool) (db : MsgDb Stored) (p : Prepared) :
    Except ApiError InternalSendMessageResult × MsgDb Stored :=
  match storeMessage fails db p with
  | (.error _, db) => (.error .internal, db)
  | (.ok mid, db) =>
    match storeMerged fails db p.payload mid with
    | (.error e, db) => (.error e, db)
    | (.ok mergedId, db) => (.ok ⟨mid, p.target.targets, p.payload, mergedId⟩, db)

/-- `send_message`: the id of the new message, and the database it leaves. -/
def sendMessage (faults : SendFaults) (ctx : Context) (db : MsgDb Stored)
    (payload : ChatMessagePayload) : Except ApiError ℤ × MsgDb Stored :=
  match prepare faults ctx payload with
  | .error e => (.error e, db)
  | .ok p =>
    match internalSendMessage faults.store db p with
    | (.error e, db) => (.error e, db)
    | (.ok result, db) =>
      match p.target, faults.reconcile with
      | .dm _ _ true, true => (.error .internal, db)
      | _, _ => (.ok result.mid, db)

end VoceChat
