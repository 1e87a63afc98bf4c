import VoceChat.Events.System
import VoceChat.Foundations.JsonLimits

/-!
# What webhooks are told of encrypted messages (`src/api/e2e.rs`, `src/state.rs`)

A message that is end-to-end encrypted is forwarded to webhooks without its detail. The body is made
by printing the whole message, reading that again, and putting something opaque where the detail
was; if it cannot be read again, the body has the id of the message only. It cannot when the
properties of the message are nested too deep: a header with properties is read up to the same
depth, but they are two levels deeper in a message.

So which of the two bodies there is depends on the properties, and nothing else on what is
encrypted: two messages with the same id, sender, target and time have the same bodies exactly when
both are nested too deep or neither is (`forwards_eq_iff`).
-/

namespace VoceChat

open Json

/-! ### Messages as JSON -/

def MessageTarget.toJson : MessageTarget → Value
  | .user uid => .object [("uid", .ofInt uid.toInt)]
  | .group gid => .object [("gid", .ofInt gid.toInt)]

/-- `Option::to_json`. -/
def optionToJson {α : Type} (f : α → Value) : Option α → Value
  | some a => f a
  | none => .null

/-- The fields of a content, which are flattened. -/
def ChatMessageContent.fields (content : ChatMessageContent) : List (String × Value) :=
  [("properties", optionToJson Value.object content.properties),
    ("content_type", .string content.contentType), ("content", .string content.content)]

def MessageReactionDetail.toJson : MessageReactionDetail → Value
  | .edit content => .object (content.fields ++ [("type", .string "edit")])
  | .like action => .object [("action", .string action), ("type", .string "like")]
  | .delete => .object [("type", .string "delete")]

def MessageDetail.toJson : MessageDetail → Value
  | .normal m => .object (m.content.fields ++
      [("expires_in", optionToJson .ofInt m.expiresIn), ("type", .string "normal")])
  | .reaction m => .object [("mid", .ofInt m.mid), ("detail", m.detail.toJson),
      ("type", .string "reaction")]
  | .reply m => .object (("mid", .ofInt m.mid) :: (m.content.fields ++ [("type", .string "reply")]))

/-- The payload is flattened. -/
def ChatMessage.toJson (message : ChatMessage) : Value :=
  .object [("mid", .ofInt message.mid), ("from_uid", .ofInt message.payload.fromUid.toInt),
    ("created_at", .ofInt message.payload.createdAt), ("target", message.payload.target.toJson),
    ("detail", message.payload.detail.toJson)]

/-! ### Redaction -/

/-- The content of a normal message or a reply. -/
def MessageDetail.said : MessageDetail → Option ChatMessageContent
  | .normal m => some m.content
  | .reply m => some m.content
  | .reaction _ => none

/-- `is_e2e`, of a content. -/
def ChatMessageContent.isE2e (content : ChatMessageContent) : Bool :=
  content.contentType = VoceChat.contentType ||
    ((content.properties.bind fun p ↦ p.get "e2e").bind Value.asBool).getD false

def opaqueDetail : Value := .object [("type", .string "e2e_opaque")]

section

variable {Text : Type} (json : Library Text)

/-- `redact_e2e_chat_message_json`. -/
def redactE2eChatMessageJson (message : ChatMessage) : Option Text :=
  if (message.payload.detail.said.map ChatMessageContent.isE2e).getD false then
    let v := (json.read (json.print message.toJson)).getD
      (Value.object [("mid", .ofInt message.mid), ("e2e", .bool true),
        ("detail", opaqueDetail)]).sorted
    let v := v.replace "detail" opaqueDetail
    some (json.print (v.insert "e2e" (.bool true)))
  else none

/-- The attempts to post a body to a webhook, until one succeeds. -/
def postBody (succeeds : ℕ → Bool) (body : Text) : ℕ → List Text
  | 0 => []
  | attempts + 1 =>
    body :: if succeeds attempts then [] else postBody succeeds body attempts

/-- `forward_chat_messages_to_webhook`, at an event: what is posted to which webhook. -/
def forwardChatMessagesToWebhook (users : List (Int64 × Option String))
    (succeeds : String → Text → ℕ → Bool) (event : ChatEvent) : List (String × List Text) :=
  if event.message.payload.detail.said.isSome then
    let webhookUrls := users.filterMap fun u ↦ if u.1 ∈ event.targets then u.2 else none
    let msgBody := (redactE2eChatMessageJson json event.message).getD
      (json.print event.message.toJson)
    webhookUrls.map fun url ↦ (url, postBody (succeeds url msgBody) msgBody 3)
  else []

end

/-! ### Printing, and reading again -/

theorem sorted_target (target : MessageTarget) : target.toJson.sorted = target.toJson := by
  cases target with
  | user uid => rfl
  | group gid => rfl

theorem depth_target (target : MessageTarget) : target.toJson.depth = 1 := by
  cases target with
  | user uid => rfl
  | group gid => rfl

theorem reread_target (readFloat : UInt64 → UInt64) (target : MessageTarget) :
    target.toJson.reread readFloat = target.toJson := by
  cases target with
  | user uid => exact congrArg (fun v ↦ Value.object [("uid", v)]) (Value.reread_ofInt _ _)
  | group gid => exact congrArg (fun v ↦ Value.object [("gid", v)]) (Value.reread_ofInt _ _)

theorem sorted_message (message : ChatMessage) : message.toJson.sorted =
    .object [("created_at", .ofInt message.payload.createdAt),
      ("detail", message.payload.detail.toJson.sorted),
      ("from_uid", .ofInt message.payload.fromUid.toInt), ("mid", .ofInt message.mid),
      ("target", message.payload.target.toJson)] := by
  rw [← sorted_target message.payload.target]
  simp +decide only [ChatMessage.toJson, Value.sorted, Value.sortedFields, OrderedMap.insertAll,
    List.foldl, OrderedMap.insert, OrderedMap.empty, OrderedMap.insertEntry, if_true, if_false,
    Value.sorted_ofInt]

/-- How deep the properties of a message are nested. -/
def ChatMessageContent.depth (content : ChatMessageContent) : ℕ :=
  (optionToJson Value.object content.properties).sorted.depth

/-- The detail of a message is one level deeper than its properties. -/
theorem depth_detail {detail : MessageDetail} {content : ChatMessageContent}
    (h : detail.said = some content) : detail.toJson.sorted.depth = content.depth + 1 := by
  cases detail with
  | normal m =>
    obtain rfl := Option.some_inj.1 h
    have hexpires : (optionToJson Value.ofInt m.expiresIn).sorted.depth = 0 := by
      cases m.expiresIn with
      | none => rfl
      | some n => rfl
    simp +decide only [MessageDetail.toJson, ChatMessageContent.fields, List.cons_append,
      List.nil_append, Value.sorted, Value.sortedFields, OrderedMap.insertAll, List.foldl,
      OrderedMap.insert, OrderedMap.empty, OrderedMap.insertEntry, if_true, if_false, Value.depth,
      Value.depthFields, hexpires, ChatMessageContent.depth, Nat.zero_max, Nat.max_zero]
  | reply m =>
    obtain rfl := Option.some_inj.1 h
    simp +decide only [MessageDetail.toJson, ChatMessageContent.fields, List.cons_append,
      List.nil_append, Value.sorted, Value.sortedFields, OrderedMap.insertAll, List.foldl,
      OrderedMap.insert, OrderedMap.empty, OrderedMap.insertEntry, if_true, if_false, Value.depth,
      Value.depthFields, Value.sorted_ofInt, Value.depth_ofInt, ChatMessageContent.depth,
      Nat.zero_max, Nat.max_zero]
  | reaction m => cases h

theorem depth_message {message : ChatMessage} {content : ChatMessageContent}
    (h : message.payload.detail.said = some content) :
    message.toJson.sorted.depth = content.depth + 2 := by
  rw [sorted_message]
  simp only [Value.depth, Value.depthFields, Value.depth_ofInt, depth_detail h, depth_target,
    Nat.zero_max, Nat.max_zero]
  omega

/-! ### The two bodies -/

/-- What a message is redacted to. -/
def redactedBody (message : ChatMessage) : Value :=
  .object [("created_at", .ofInt message.payload.createdAt), ("detail", opaqueDetail),
    ("e2e", .bool true), ("from_uid", .ofInt message.payload.fromUid.toInt),
    ("mid", .ofInt message.mid), ("target", message.payload.target.toJson)]

/-- What a message that cannot be read again is redacted to. -/
def bareBody (mid : ℤ) : Value :=
  .object [("detail", opaqueDetail), ("e2e", .bool true), ("mid", .ofInt mid)]

/-- The properties are not nested too deep for the message to be read again. -/
def ChatMessage.Shallow (message : ChatMessage) : Prop :=
  ∀ content, message.payload.detail.said = some content → content.depth + 2 < remainingDepth

variable {Text : Type} {json : Library Text} {message m m' : ChatMessage}

theorem insert_redacted (message : ChatMessage) :
    ((message.toJson.sorted.reread json.readFloat).replace "detail" opaqueDetail).insert "e2e"
      (.bool true) = redactedBody message := by
  rw [sorted_message]
  simp +decide only [redactedBody, Value.reread, Value.rereadFields, Value.reread_ofInt,
    reread_target, Value.replace, Value.insert, List.map, OrderedMap.insertEntry, if_true, if_false]

theorem insert_bare (mid : ℤ) :
    ((Value.object [("mid", .ofInt mid), ("e2e", .bool true),
      ("detail", opaqueDetail)]).sorted.replace "detail" opaqueDetail).insert "e2e" (.bool true) =
      bareBody mid := by
  simp +decide only [bareBody, opaqueDetail, Value.sorted, Value.sortedFields, OrderedMap.insertAll,
    List.foldl, OrderedMap.insert, OrderedMap.empty, OrderedMap.insertEntry, if_true, if_false,
    Value.sorted_ofInt, Value.replace, Value.insert, List.map]

/-- What is classified as encrypted has a content. -/
theorem said_of_redacted (h : (redactE2eChatMessageJson json message).isSome = true) :
    ∃ content, message.payload.detail.said = some content ∧ content.isE2e = true := by
  unfold redactE2eChatMessageJson at h
  cases hsaid : message.payload.detail.said with
  | none =>
    rw [hsaid] at h
    cases h
  | some content =>
    refine ⟨content, rfl, ?_⟩
    by_contra hnot
    rw [hsaid, Option.map_some, Option.getD_some, if_neg hnot] at h
    cases h

theorem redact_eq (h : (redactE2eChatMessageJson json message).isSome = true) :
    redactE2eChatMessageJson json message = some (json.print
      ((((json.read (json.print message.toJson)).getD
        (Value.object [("mid", .ofInt message.mid), ("e2e", .bool true),
          ("detail", opaqueDetail)]).sorted).replace "detail" opaqueDetail).insert "e2e"
            (.bool true))) := by
  obtain ⟨content, hsaid, he2e⟩ := said_of_redacted h
  rw [redactE2eChatMessageJson, hsaid, Option.map_some, Option.getD_some, if_pos he2e]

/-- A message that is read again loses its detail. -/
theorem redact_of_shallow (h : (redactE2eChatMessageJson json message).isSome = true)
    (hshallow : message.Shallow) :
    redactE2eChatMessageJson json message = some (json.print (redactedBody message)) := by
  obtain ⟨content, hsaid, -⟩ := said_of_redacted h
  have hread := json.read_print_of_lt (v := message.toJson)
    (by rw [depth_message hsaid]; exact hshallow content hsaid)
  rw [redact_eq h, hread, Option.getD_some, insert_redacted]

/-- Any other loses all but its id. -/
theorem redact_of_not_shallow (h : (redactE2eChatMessageJson json message).isSome = true)
    (hdeep : ¬message.Shallow) :
    redactE2eChatMessageJson json message = some (json.print (bareBody message.mid)) := by
  obtain ⟨content, hsaid, -⟩ := said_of_redacted h
  have hle : remainingDepth ≤ message.toJson.sorted.depth := by
    rw [depth_message hsaid]
    by_contra hlt
    refine hdeep fun other hother ↦ ?_
    rw [hsaid] at hother
    obtain rfl := Option.some_inj.1 hother
    exact not_le.1 hlt
  rw [redact_eq h, json.read_print_of_le hle, Option.getD_none, insert_bare]

theorem sorted_redactedBody (message : ChatMessage) :
    (redactedBody message).sorted = redactedBody message := by
  simp +decide only [redactedBody, opaqueDetail, Value.sorted, Value.sortedFields,
    OrderedMap.insertAll, List.foldl, OrderedMap.insert, OrderedMap.empty, OrderedMap.insertEntry,
    if_false, Value.sorted_ofInt, sorted_target]

theorem sorted_bareBody (mid : ℤ) : (bareBody mid).sorted = bareBody mid := by
  simp +decide only [bareBody, opaqueDetail, Value.sorted, Value.sortedFields,
    OrderedMap.insertAll, List.foldl, OrderedMap.insert, OrderedMap.empty, OrderedMap.insertEntry,
    if_false, Value.sorted_ofInt]

/-- The bodies are read as what they are, so they are different texts. -/
theorem print_redactedBody_ne (message : ChatMessage) (mid : ℤ) :
    json.print (redactedBody message) ≠ json.print (bareBody mid) := by
  intro heq
  have hdepth : (redactedBody message).depth < remainingDepth := by
    simp only [redactedBody, opaqueDetail, Value.depth, Value.depthFields, Value.depth_ofInt,
      depth_target]
    decide
  have hdepth' : (bareBody mid).depth < remainingDepth := by
    simp only [bareBody, opaqueDetail, Value.depth, Value.depthFields, Value.depth_ofInt]
    decide
  rw [← sorted_redactedBody] at hdepth
  rw [← sorted_bareBody] at hdepth'
  have hread := json.read_print_of_lt hdepth
  rw [heq, json.read_print_of_lt hdepth', sorted_redactedBody, sorted_bareBody] at hread
  have hfields := Value.object.inj (Option.some_inj.1 hread)
  have hlength : 3 = 6 := congrArg List.length hfields
  exact absurd hlength (by decide)

/-! ### Two messages -/

/-- The messages agree on all that is not encrypted. -/
structure SameEnvelope (m m' : ChatMessage) : Prop where
  mid : m.mid = m'.mid
  fromUid : m.payload.fromUid = m'.payload.fromUid
  target : m.payload.target = m'.payload.target
  createdAt : m.payload.createdAt = m'.payload.createdAt

theorem SameEnvelope.redactedBody_eq (h : SameEnvelope m m') :
    redactedBody m = redactedBody m' := by
  rw [redactedBody, redactedBody, h.mid, h.fromUid, h.target, h.createdAt]

/-- The bodies are the same when both messages are read again, or neither is. -/
theorem SameEnvelope.redact_eq_iff (h : SameEnvelope m m')
    (hm : (redactE2eChatMessageJson json m).isSome = true)
    (hm' : (redactE2eChatMessageJson json m').isSome = true) :
    redactE2eChatMessageJson json m = redactE2eChatMessageJson json m' ↔
      (m.Shallow ↔ m'.Shallow) := by
  by_cases hshallow : m.Shallow
  · rw [redact_of_shallow hm hshallow, iff_true_left hshallow]
    by_cases hshallow' : m'.Shallow
    · rw [redact_of_shallow hm' hshallow', h.redactedBody_eq]
      exact iff_of_true rfl hshallow'
    · rw [redact_of_not_shallow hm' hshallow', Option.some_inj]
      exact iff_of_false (print_redactedBody_ne m m'.mid) hshallow'
  · rw [redact_of_not_shallow hm hshallow, iff_false_left hshallow]
    by_cases hshallow' : m'.Shallow
    · rw [redact_of_shallow hm' hshallow', Option.some_inj]
      exact iff_of_false (print_redactedBody_ne m' m.mid).symm (not_not_intro hshallow')
    · rw [redact_of_not_shallow hm' hshallow', h.mid]
      exact iff_of_true rfl hshallow'

theorem forward_eq (hm : (redactE2eChatMessageJson json m).isSome = true)
    (users : List (Int64 × Option String)) (succeeds : String → Text → ℕ → Bool)
    (targets : List Int64) :
    ∃ body, redactE2eChatMessageJson json m = some body ∧
      forwardChatMessagesToWebhook json users succeeds ⟨targets, m⟩ =
        (users.filterMap fun u ↦ if u.1 ∈ targets then u.2 else none).map fun url ↦
          (url, postBody (succeeds url body) body 3) := by
  obtain ⟨content, hsaid, -⟩ := said_of_redacted hm
  obtain ⟨body, hbody⟩ := Option.isSome_iff_exists.1 hm
  refine ⟨body, hbody, ?_⟩
  have hsome : m.payload.detail.said.isSome = true := Option.isSome_of_eq_some hsaid
  rw [forwardChatMessagesToWebhook, if_pos hsome, hbody]
  rfl

/-- One webhook shows the body. -/
theorem redact_eq_of_forward_eq (hm : (redactE2eChatMessageJson json m).isSome = true)
    (hm' : (redactE2eChatMessageJson json m').isSome = true)
    (h : forwardChatMessagesToWebhook json [(8, some "")] (fun _ _ _ ↦ true) ⟨[8], m⟩ =
      forwardChatMessagesToWebhook json [(8, some "")] (fun _ _ _ ↦ true) ⟨[8], m'⟩) :
    redactE2eChatMessageJson json m = redactE2eChatMessageJson json m' := by
  obtain ⟨body, hbody, hforward⟩ := forward_eq hm [(8, some "")] (fun _ _ _ ↦ true) [8]
  obtain ⟨body', hbody', hforward'⟩ := forward_eq hm' [(8, some "")] (fun _ _ _ ↦ true) [8]
  rw [hforward, hforward'] at h
  have hposts : [("", [body])] = [("", [body'])] := h
  rw [hbody, hbody', (List.cons.inj (Prod.mk.inj (List.cons.inj hposts).1).2).1]

/-- **Webhooks are told the same of two messages that differ only in what is encrypted, exactly when
both are nested too deep or neither is.** -/
theorem forwards_eq_iff (json : Library Text)
    (hm : (redactE2eChatMessageJson json m).isSome = true)
    (hm' : (redactE2eChatMessageJson json m').isSome = true) (h : SameEnvelope m m') :
    (∀ users succeeds targets, forwardChatMessagesToWebhook json users succeeds ⟨targets, m⟩ =
      forwardChatMessagesToWebhook json users succeeds ⟨targets, m'⟩) ↔
        (m.Shallow ↔ m'.Shallow) := by
  rw [← h.redact_eq_iff hm hm']
  constructor
  · intro hall
    exact redact_eq_of_forward_eq hm hm' (hall [(8, some "")] (fun _ _ _ ↦ true) [8])
  · intro heq users succeeds targets
    obtain ⟨body, hbody, hforward⟩ := forward_eq hm users succeeds targets
    obtain ⟨body', hbody', hforward'⟩ := forward_eq hm' users succeeds targets
    rw [hbody, hbody', Option.some_inj] at heq
    rw [hforward, hforward', heq]

/-- Arrays within each other. -/
def nested : ℕ → Value
  | 0 => .null
  | n + 1 => .array [nested n]

/-- Properties with something in them. -/
def propertiesWith (extra : Value) : Properties := [("e2e", .bool true), ("x", extra)]

/-- An encrypted message with these. -/
def encrypted (extra : Value) : ChatMessage :=
  ⟨1, 7, 0, .user 8, .normal ⟨⟨some (propertiesWith extra), "text/plain", ""⟩, none⟩⟩

theorem forwards_encrypted :
    (∀ users succeeds targets,
      forwardChatMessagesToWebhook Library.plain users succeeds ⟨targets, encrypted .null⟩ =
        forwardChatMessagesToWebhook Library.plain users succeeds ⟨targets, encrypted (nested 3)⟩) ↔
      ((encrypted .null).Shallow ↔ (encrypted (nested 3)).Shallow) :=
  forwards_eq_iff Library.plain rfl rfl ⟨rfl, rfl, rfl, rfl⟩

theorem sorted_nested (n : ℕ) : (nested n).sorted = nested n := by
  induction n with
  | zero => rfl
  | succ n ih => exact congrArg (fun v ↦ Value.array [v]) ih

theorem depth_nested (n : ℕ) : (nested n).depth = n := by
  induction n with
  | zero => rfl
  | succ n ih =>
    show max (nested n).depth 0 + 1 = n + 1
    rw [ih, Nat.max_zero]

theorem depth_propertiesWith (n : ℕ) :
    (Value.object (propertiesWith (nested n))).sorted.depth = n + 1 := by
  simp +decide only [propertiesWith, Value.sorted, Value.sortedFields, OrderedMap.insertAll,
    List.foldl, OrderedMap.insert, OrderedMap.empty, OrderedMap.insertEntry, if_false,
    sorted_nested, Value.depth, Value.depthFields, depth_nested, Nat.zero_max, Nat.max_zero]

theorem shallow_encrypted_iff (n : ℕ) : (encrypted (nested n)).Shallow ↔ n < 125 := by
  have hdepth : ∀ content, (encrypted (nested n)).payload.detail.said = some content →
      content.depth = n + 1 := by
    rintro content hsaid
    obtain rfl := Option.some_inj.1 hsaid
    exact depth_propertiesWith n
  constructor
  · intro h
    have hlt := h _ rfl
    rw [hdepth _ rfl, remainingDepth] at hlt
    omega
  · intro h content hsaid
    rw [hdepth content hsaid, remainingDepth]
    omega

/-- Properties that a header can have, and that cannot be read again in a message. -/
theorem not_forwards_nested :
    (Library.plain.read (Library.plain.print (.object (propertiesWith (nested 125))))).isSome =
        true ∧
      (redactE2eChatMessageJson Library.plain (encrypted (nested 0))).isSome = true ∧
      (redactE2eChatMessageJson Library.plain (encrypted (nested 125))).isSome = true ∧
      SameEnvelope (encrypted (nested 0)) (encrypted (nested 125)) ∧
      forwardChatMessagesToWebhook Library.plain [(8, some "")] (fun _ _ _ ↦ true)
          ⟨[8], encrypted (nested 0)⟩ ≠
        forwardChatMessagesToWebhook Library.plain [(8, some "")] (fun _ _ _ ↦ true)
          ⟨[8], encrypted (nested 125)⟩ := by
  have hsame : SameEnvelope (encrypted (nested 0)) (encrypted (nested 125)) := ⟨rfl, rfl, rfl, rfl⟩
  refine ⟨?_, rfl, rfl, hsame, fun heq ↦ ?_⟩
  · rw [Library.read_print_of_lt]
    · rfl
    · rw [depth_propertiesWith]
      decide
  · have hiff := (hsame.redact_eq_iff rfl rfl).1 (redact_eq_of_forward_eq rfl rfl heq)
    rw [shallow_encrypted_iff, shallow_encrypted_iff] at hiff
    exact absurd (hiff.1 (by decide)) (by decide)

end VoceChat
