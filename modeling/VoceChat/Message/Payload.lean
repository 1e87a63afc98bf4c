import VoceChat.Mls.Routing
import VoceChat.Msgdb.Store

/-!
# Chat messages and their requests (`src/api/message.rs`)

The payload of a chat message, the request bodies it is made from, and what the server keeps in its
cache about users and groups as far as sending a message reads it.

Messages are stored as JSON. A stored blob is either a `ChatMessagePayload`, a merged message or
the raw bytes of the store itself; parsing a blob as a payload (`Stored.payload`) succeeds on the
first kind only.
-/

namespace VoceChat

open Guards Json Machine

/-- A response other than success: its status and its text, if it has one. -/
structure ApiError where
  status : ℕ
  message : Option String
  deriving DecidableEq, Repr

namespace ApiError

/-- `Error::from_status`. -/
def fromStatus (status : ℕ) : ApiError := ⟨status, none⟩

/-- `Error::from_string`. -/
def fromString (message : String) (status : ℕ) : ApiError := ⟨status, some message⟩

/-- `InternalServerError`, whatever the cause. -/
def internal : ApiError := fromStatus 500

/-- `BadRequest` around an E2EE v2 error. -/
def badRequest (error : E2eV2Error) : ApiError := fromString error.message 400

end ApiError

inductive MessageTarget where
  | user (uid : Int64)
  | group (gid : Int64)
  deriving DecidableEq, Repr

structure ChatMessageContent where
  properties : Option Properties
  contentType : String
  content : String

structure MessageNormal where
  content : ChatMessageContent
  /-- In seconds. -/
  expiresIn : Option ℤ

structure MessageReply where
  mid : ℤ
  content : ChatMessageContent

inductive MessageReactionDetail where
  | edit (content : ChatMessageContent)
  | like (action : String)
  | delete

structure MessageReaction where
  mid : ℤ
  detail : MessageReactionDetail

inductive MessageDetail where
  | normal (normal : MessageNormal)
  | reaction (reaction : MessageReaction)
  | reply (reply : MessageReply)

structure ChatMessagePayload where
  fromUid : Int64
  /-- In milliseconds. -/
  createdAt : ℤ
  target : MessageTarget
  detail : MessageDetail

structure MergedMessagePayload where
  fromUid : Int64
  target : MessageTarget
  content : ChatMessageContent
  createdAt : ℤ

/-- What is serialized into the message database. -/
inductive Stored where
  | chat (payload : ChatMessagePayload)
  | merged (payload : MergedMessagePayload)

/-- `from_slice::<ChatMessagePayload>`. -/
def Stored.payload : Blob Stored → Option ChatMessagePayload
  | .message (.chat payload) => some payload
  | _ => none

/-- The content a message brings, be it a normal message, a reply or an edit. -/
def MessageDetail.content : MessageDetail → Option ChatMessageContent
  | .normal m => some m.content
  | .reply m => some m.content
  | .reaction m =>
    match m.detail with
    | .edit content => some content
    | .like _ | .delete => none

/-! ### Users and groups -/

inductive UserStatus where
  | normal
  | frozen
  deriving DecidableEq, Repr

structure CacheUser where
  status : UserStatus
  burnAfterReadingUser : List (Int64 × ℤ)
  burnAfterReadingGroup : List (Int64 × ℤ)
  deriving DecidableEq, Repr

inductive GroupType where
  | isPublic
  | isPrivate (owner : Int64)
  deriving DecidableEq, Repr

structure CacheGroup where
  ty : GroupType
  members : List Int64
  e2eEnabled : Bool
  deriving DecidableEq, Repr

/-- `contains_user`. -/
def CacheGroup.containsUser (group : CacheGroup) (uid : Int64) : Bool :=
  group.ty = .isPublic || group.members.contains uid

structure Cache where
  users : List (Int64 × CacheUser)
  groups : List (Int64 × CacheGroup)
  /-- `e2e_protocol_ver` of the dynamic login configuration, if there is one. -/
  e2eProtocolVer : Option ℤ
  deriving DecidableEq, Repr

def Cache.user (cache : Cache) (uid : Int64) : Option CacheUser := cache.users.lookup uid

def Cache.group (cache : Cache) (gid : Int64) : Option CacheGroup := cache.groups.lookup gid

/-! ### Requests -/

/-- What the file directory knows about a path: the length of the file, and the content type and
name of its `.meta` file if that can be read. -/
structure StoredFile where
  size : UInt64
  metaFile : Option (String × Option String)

inductive SendMessageRequest where
  | text (body : String)
  | markdown (body : String)
  | file (path : String)
  | archive (path : String)
  /-- Version 2 opaque DR/MLS envelope. -/
  | e2eV2 (cipher : String)

/-- `HashMap::insert`. -/
def setProperty (properties : Properties) (key : String) (value : Value) : Properties :=
  (key, value) :: properties.filter fun e ↦ e.1 ≠ key

/-- The properties of a file message. -/
def fileProperties (properties : Option Properties) (file : StoredFile) : Properties :=
  let properties := properties.getD []
  let properties := match file.metaFile with
    | some (_, some filename) => setProperty properties "name" (.string filename)
    | _ => properties
  let properties := setProperty properties "content_type"
    (.string ((file.metaFile.map Prod.fst).getD "application/octet-stream"))
  setProperty properties "size" (.number (.posInt file.size))

/-- The content type a request has. -/
def SendMessageRequest.contentType : SendMessageRequest → String
  | .text _ => "text/plain"
  | .markdown _ => "text/markdown"
  | .file _ => "vocechat/file"
  | .archive _ => "vocechat/archive"
  | .e2eV2 _ => VoceChat.contentType

/-- The properties a request's content has; `files` is the file directory. -/
def SendMessageRequest.contentProperties (files : String → Option StoredFile)
    (properties : Option Properties) : SendMessageRequest → Except ApiError (Option Properties)
  | .text _ | .markdown _ | .archive _ => .ok properties
  | .file path =>
    match files path with
    | some stored => .ok (some (fileProperties properties stored))
    | none => .error (.fromStatus 400)
  | .e2eV2 _ =>
    match properties with
    | none => .error (.fromStatus 400)
    | some properties => do
      let _ ← (validateProperties properties).mapError .badRequest
      return some properties

/-- The body of a request. -/
def SendMessageRequest.body : SendMessageRequest → String
  | .text s | .markdown s | .file s | .archive s | .e2eV2 s => s

/-- `into_chat_message_content`. -/
def SendMessageRequest.intoChatMessageContent (files : String → Option StoredFile)
    (req : SendMessageRequest) (properties : Option Properties) :
    Except ApiError ChatMessageContent :=
  (req.contentProperties files properties).map fun properties ↦
    ⟨properties, req.contentType, req.body⟩

/-- `into_chat_message_payload`; `now` is the time of the request. -/
def SendMessageRequest.intoChatMessagePayload (files : String → Option StoredFile)
    (req : SendMessageRequest) (now : ℤ) (fromUid : Int64) (target : MessageTarget)
    (properties : Option Properties) : Except ApiError ChatMessagePayload :=
  (req.intoChatMessageContent files properties).map fun content ↦
    ⟨fromUid, now, target, .normal ⟨content, none⟩⟩

theorem SendMessageRequest.contentType_eq_iff (req : SendMessageRequest) :
    req.contentType = VoceChat.contentType ↔ ∃ cipher, req = .e2eV2 cipher := by
  cases req with
  | e2eV2 cipher => exact iff_of_true rfl ⟨cipher, rfl⟩
  | text s => exact iff_of_false (show "text/plain" ≠ _ by decide) (by simp)
  | markdown s => exact iff_of_false (show "text/markdown" ≠ _ by decide) (by simp)
  | file s => exact iff_of_false (show "vocechat/file" ≠ _ by decide) (by simp)
  | archive s => exact iff_of_false (show "vocechat/archive" ≠ _ by decide) (by simp)

namespace SendMessageRequest

variable {files : String → Option StoredFile} {req : SendMessageRequest}
  {properties : Option Properties}

theorem intoChatMessageContent_eq_ok {content : ChatMessageContent} :
    req.intoChatMessageContent files properties = .ok content ↔
      ∃ properties', req.contentProperties files properties = .ok properties' ∧
        content = ⟨properties', req.contentType, req.body⟩ := by
  rw [intoChatMessageContent]
  cases req.contentProperties files properties with
  | error e => exact iff_of_false (fun h ↦ by cases h) (fun ⟨_, h, _⟩ ↦ by cases h)
  | ok properties' =>
    constructor
    · exact fun h ↦ ⟨properties', rfl, (Except.ok.inj h).symm⟩
    · rintro ⟨_, heq, rfl⟩
      cases heq
      rfl

theorem intoChatMessagePayload_eq_ok {now : ℤ} {uid : Int64} {target : MessageTarget}
    {payload : ChatMessagePayload} :
    req.intoChatMessagePayload files now uid target properties = .ok payload ↔
      ∃ properties', req.contentProperties files properties = .ok properties' ∧
        payload = ⟨uid, now, target, .normal ⟨⟨properties', req.contentType, req.body⟩, none⟩⟩ := by
  rw [intoChatMessagePayload]
  cases hcontent : req.intoChatMessageContent files properties with
  | error e =>
    refine iff_of_false (fun h ↦ by cases h) fun ⟨properties', h, _⟩ ↦ ?_
    rw [intoChatMessageContent_eq_ok.2 ⟨properties', h, rfl⟩] at hcontent
    cases hcontent
  | ok content =>
    obtain ⟨properties', hproperties, rfl⟩ := intoChatMessageContent_eq_ok.1 hcontent
    rw [hproperties]
    constructor
    · exact fun h ↦ ⟨properties', rfl, (Except.ok.inj h).symm⟩
    · rintro ⟨_, heq, rfl⟩
      cases heq
      rfl

theorem contentProperties_e2eV2 {cipher : String} {properties : Properties}
    {route : RoutingProperties} (h : validateProperties properties = .ok route) :
    (e2eV2 cipher).contentProperties files (some properties) = .ok (some properties) := by
  rw [contentProperties]
  simp only [bind_eq_ok, mapError_eq_ok, pure_eq_ok]
  exact ⟨route, h, trivial⟩

/-- The body is a v2 message with valid routing properties for MLS. -/
def mlsBody (properties : Option Properties) : SendMessageRequest → Bool
  | .e2eV2 _ =>
    match properties.map validateProperties with
    | some (.ok route) => route.protocol = .mls
    | _ => false
  | .text _ | .markdown _ | .file _ | .archive _ => false

/-- Only such a body becomes MLS content. -/
theorem mlsBody_of_content {content : ChatMessageContent} {p : Properties}
    {route : RoutingProperties} (h : req.intoChatMessageContent files properties = .ok content)
    (htype : content.contentType = VoceChat.contentType) (hp : content.properties = some p)
    (hvalid : validateProperties p = .ok route) (hmls : route.protocol = .mls) :
    req.mlsBody properties = true := by
  obtain ⟨properties', hproperties', rfl⟩ := intoChatMessageContent_eq_ok.1 h
  obtain ⟨cipher, rfl⟩ := req.contentType_eq_iff.1 htype
  obtain rfl : properties' = some p := hp
  cases properties with
  | none => cases hproperties'
  | some q =>
    simp only [contentProperties, bind_eq_ok, mapError_eq_ok, pure_eq_ok, Option.some_inj]
      at hproperties'
    obtain ⟨-, -, rfl⟩ := hproperties'
    rw [mlsBody, Option.map_some, hvalid]
    exact decide_eq_true hmls

end SendMessageRequest

end VoceChat
