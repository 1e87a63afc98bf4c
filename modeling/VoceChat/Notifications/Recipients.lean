import Mathlib.Data.String.Basic
import VoceChat.Accounts.Mutes
import VoceChat.Foundations.SignedDecimal
import VoceChat.Message.Send

/-!
# Whom a message notifies (`send_message` and `notify_message` in `src/api/message.rs`)

A message is announced on the devices of those who get it, if they have given a token for push
notifications. In a direct message that is the target, unless he has muted the sender. In a group it
is everyone in the group who is neither the sender nor frozen, and who has not muted the group or is
mentioned in the message. Nobody is notified twice on one device (`tokens_eq`).

A plain text is shown as it is, with the names of the users who are mentioned in place of their ids;
of all other messages the notification says only that they are there.

The devices of a user are in the order of their names here, where the source has a `HashMap`; the
order in which a `HashSet` of mentions is gone through is an argument.
-/

namespace VoceChat

open Json

/-- What a notification needs of a user in the cache. -/
structure NotifiedUser where
  name : String
  status : UserStatus
  /-- `devices`, with the `device_token`. -/
  devices : OrderedMap String (Option String)
  mutes : CacheMutes

/-- What a notification needs of a group in the cache. The members are a set. -/
structure NotifiedGroup where
  name : String
  isPublic : Bool
  members : List ℤ
  nodup : members.Nodup

structure NotificationCache where
  users : OrderedMap ℤ NotifiedUser
  groups : OrderedMap ℤ NotifiedGroup

/-- What is sent to each of the tokens. -/
structure Notification where
  tokens : List String
  title : String
  message : String
  /-- The fields of the JSON object. -/
  data : List (String × String)
  deriving DecidableEq

/-! ### What it says -/

/-- `str::replace`; so many characters are still to be passed over. -/
def replaceFrom (pattern replacement : List Char) : ℕ → List Char → List Char
  | _, [] => []
  | n + 1, _ :: cs => replaceFrom pattern replacement n cs
  | 0, c :: cs =>
    if pattern.isPrefixOf (c :: cs) then
      replacement ++ replaceFrom pattern replacement (pattern.length - 1) cs
    else c :: replaceFrom pattern replacement 0 cs

/-- The `mentions` among the properties of a message. -/
def MessageDetail.mentions : MessageDetail → List ℤ
  | .normal ⟨content, _⟩ | .reply ⟨_, content⟩ =>
    (((content.properties.bind (·.get "mentions")).bind Value.asArray).getD []).filterMap
      Value.asI64
  | .reaction _ => []

/-- The name of a mentioned user in place of the id. -/
def replaceMention (users : OrderedMap ℤ NotifiedUser) (msg : List Char) (uid : ℤ) : List Char :=
  match users.get uid with
  | some user => replaceFrom (" @" ++ Decimal.signed uid ++ " ").toList
      (" @" ++ user.name ++ " ").toList 0 msg
  | none => msg

/-- `notify_message`. The ids of `mentions` come in the order in which the set is gone through. -/
def ChatMessageContent.notifyMessage (users : OrderedMap ℤ NotifiedUser) (mentions : List ℤ)
    (content : ChatMessageContent) : Option String :=
  if content.contentType = "text/plain" then
    some (if mentions.isEmpty then content.content
      else String.ofList (mentions.foldl (replaceMention users) content.content.toList))
  else if content.contentType = "text/markdown" then some "You have a new message"
  else if content.contentType = "vocechat/file" then some "You have a new file"
  else if content.contentType = VoceChat.contentType then some "You have a new message"
  else if ((content.properties.bind (·.get "e2e")).bind Value.asBool).getD false then
    some "You have a new message"
  else none

def MessageDetail.notifyMessage (users : OrderedMap ℤ NotifiedUser) (mentions : List ℤ) :
    MessageDetail → Option String
  | .normal ⟨content, _⟩ | .reply ⟨_, content⟩ => content.notifyMessage users mentions
  | .reaction _ => none

/-- It is by `notifies` that `send_message` looks the target up. -/
theorem isSome_notifyMessage (users : OrderedMap ℤ NotifiedUser) (mentions : List ℤ)
    (detail : MessageDetail) :
    (detail.notifyMessage users mentions).isSome = notifies detail := by
  have hcontent (content : ChatMessageContent) :
      (content.notifyMessage users mentions).isSome =
        (["text/plain", "text/markdown", "vocechat/file", contentType].contains
            content.contentType ||
          ((content.properties.bind (·.get "e2e")).bind Value.asBool).getD false) := by
    rw [ChatMessageContent.notifyMessage]
    split_ifs with hplain hmarkdown hfile hv2 he2e <;> simp_all
  cases detail with
  | normal normal => exact hcontent normal.content
  | reply reply => exact hcontent reply.content
  | reaction reaction => rfl

/-! ### Whom it is for -/

/-- The tokens of the devices that have one. -/
def NotifiedUser.deviceTokens (user : NotifiedUser) : List String :=
  user.devices.entries.filterMap Prod.snd

/-- The `target_users` of a message to a group. -/
def NotifiedGroup.targetUsers (group : NotifiedGroup) (cache : NotificationCache) : List ℤ :=
  if group.isPublic then cache.users.entries.map Prod.fst else group.members

/-- The user is notified of a message to the group. -/
def NotificationCache.inGroup (cache : NotificationCache) (now gid fromUid : ℤ)
    (mentions : List ℤ) (uid : ℤ) : Option NotifiedUser :=
  (cache.users.get uid).filter fun user ↦ uid ≠ fromUid && user.status = .normal &&
    (mentions.contains uid || !user.mutes.isGroupMuted now gid)

/-- The notification of a message that passes the checks of `send_message`. -/
def NotificationCache.notification (cache : NotificationCache) (serverId : String) (now : ℤ)
    (mentions : List ℤ) (payload : ChatMessagePayload) : Option Notification :=
  let fromUid := payload.fromUid.toInt
  match payload.target with
  | .user uid => do
    let sender ← (cache.users.get fromUid).filter fun sender ↦ sender.status = .normal
    let message ← payload.detail.notifyMessage cache.users mentions
    let target ← cache.users.get uid.toInt
    return {
      tokens := if target.mutes.isUserMuted now fromUid then [] else target.deviceTokens
      title := sender.name
      message := message
      data := [("vocechat_server_id", serverId), ("vocechat_from_uid", Decimal.signed fromUid),
        ("vocechat_to_uid", Decimal.signed uid.toInt)] }
  | .group gid => do
    let group ← (cache.groups.get gid.toInt).filter fun group ↦
      group.isPublic || group.members.contains fromUid
    let sender ← cache.users.get fromUid
    let message ← payload.detail.notifyMessage cache.users mentions
    return {
      tokens := ((group.targetUsers cache).filterMap
        (cache.inGroup now gid.toInt fromUid mentions)).flatMap NotifiedUser.deviceTokens
      title := group.name
      message := sender.name ++ ": " ++ message
      data := [("vocechat_server_id", serverId), ("vocechat_from_uid", Decimal.signed fromUid),
        ("vocechat_to_gid", Decimal.signed gid.toInt)] }

/-- A user who is notified of a message. -/
def NotificationCache.Notifies (cache : NotificationCache) (now : ℤ) (mentions : List ℤ)
    (payload : ChatMessagePayload) (uid : ℤ) (user : NotifiedUser) : Prop :=
  cache.users.get uid = some user ∧
    match payload.target with
    | .user target =>
      uid = target.toInt ∧ user.mutes.isUserMuted now payload.fromUid.toInt = false
    | .group gid =>
      (∃ group, cache.groups.get gid.toInt = some group ∧
        (group.isPublic = true ∨ uid ∈ group.members)) ∧
      uid ≠ payload.fromUid.toInt ∧ user.status = .normal ∧
        (uid ∈ mentions ∨ user.mutes.isGroupMuted now gid.toInt = false)

namespace NotificationCache

variable {cache : NotificationCache} {serverId : String} {now : ℤ} {mentions : List ℤ}
  {payload : ChatMessagePayload} {n : Notification} {uid : ℤ} {user : NotifiedUser}

theorem inGroup_eq_some {gid fromUid : ℤ} :
    cache.inGroup now gid fromUid mentions uid = some user ↔
      cache.users.get uid = some user ∧ uid ≠ fromUid ∧ user.status = .normal ∧
        (uid ∈ mentions ∨ user.mutes.isGroupMuted now gid = false) := by
  rw [inGroup, Option.filter_eq_some_iff]
  simp [and_assoc]

/-- Those of a list who pass the check, as users of the cache. -/
theorem filterMap_inGroup {gid fromUid : ℤ} (uids : List ℤ) :
    uids.filterMap (cache.inGroup now gid fromUid mentions) =
      (uids.filter fun uid ↦ (cache.inGroup now gid fromUid mentions uid).isSome).filterMap
        cache.users.get := by
  rw [List.filterMap_filter]
  refine List.filterMap_congr fun uid _ ↦ ?_
  cases hget : cache.inGroup now gid fromUid mentions uid with
  | none => rfl
  | some user => exact (inGroup_eq_some.1 hget).1.symm

theorem nodup_targetUsers (group : NotifiedGroup) : (group.targetUsers cache).Nodup := by
  rw [NotifiedGroup.targetUsers]
  split
  · exact List.pairwise_map.2 (cache.users.sorted.imp fun h ↦ h.ne)
  · exact group.nodup

theorem mem_targetUsers {group : NotifiedGroup} (h : cache.users.get uid = some user) :
    uid ∈ group.targetUsers cache ↔ group.isPublic = true ∨ uid ∈ group.members := by
  have hmem : uid ∈ cache.users.entries.map Prod.fst :=
    List.mem_map_of_mem (OrderedMap.get_eq_some.1 h)
  rw [NotifiedGroup.targetUsers]
  split
  · rename_i hpublic
    exact iff_of_true hmem (.inl hpublic)
  · rename_i hprivate
    exact (or_iff_right hprivate).symm

/-- **Who is notified**, everyone once, on each device with a token. -/
theorem tokens_eq (h : cache.notification serverId now mentions payload = some n) :
    ∃ uids : List ℤ, uids.Nodup ∧
      (∀ uid, uid ∈ uids ↔ ∃ user, cache.Notifies now mentions payload uid user) ∧
      n.tokens = (uids.filterMap cache.users.get).flatMap NotifiedUser.deviceTokens := by
  rw [notification] at h
  simp only [Notifies]
  cases htarget : payload.target with
  | user target =>
    rw [htarget] at h
    obtain ⟨sender, -, h⟩ := Option.bind_eq_some_iff.1 h
    obtain ⟨message, -, h⟩ := Option.bind_eq_some_iff.1 h
    obtain ⟨user, huser, h⟩ := Option.bind_eq_some_iff.1 h
    obtain rfl := Option.some.inj h
    cases hmuted : user.mutes.isUserMuted now payload.fromUid.toInt with
    | true =>
      refine ⟨[], List.nodup_nil, fun uid ↦ ?_, rfl⟩
      refine iff_of_false List.not_mem_nil ?_
      rintro ⟨user', huser', rfl, hnot⟩
      obtain rfl := Option.some.inj (huser.symm.trans huser')
      exact Bool.false_ne_true (hnot.symm.trans hmuted)
    | false =>
      refine ⟨[target.toInt], List.nodup_singleton _, fun uid ↦ ?_, ?_⟩
      · rw [List.mem_singleton]
        constructor
        · rintro rfl
          exact ⟨user, huser, rfl, hmuted⟩
        · rintro ⟨-, -, heq, -⟩
          exact heq
      · rw [List.filterMap_cons_some huser, List.filterMap_nil, List.flatMap_singleton]
        rfl
  | group gid =>
    rw [htarget] at h
    obtain ⟨group, hgroup, h⟩ := Option.bind_eq_some_iff.1 h
    obtain ⟨sender, -, h⟩ := Option.bind_eq_some_iff.1 h
    obtain ⟨message, -, h⟩ := Option.bind_eq_some_iff.1 h
    obtain rfl := Option.some.inj h
    obtain ⟨hget, -⟩ := Option.filter_eq_some_iff.1 hgroup
    refine ⟨_, (nodup_targetUsers group).filter _, fun uid ↦ ?_,
      congrArg (List.flatMap _) (filterMap_inGroup _)⟩
    rw [List.mem_filter, Option.isSome_iff_exists]
    constructor
    · rintro ⟨hmem, user, huser⟩
      obtain ⟨huser, hrest⟩ := inGroup_eq_some.1 huser
      exact ⟨user, huser, ⟨group, hget, (mem_targetUsers huser).1 hmem⟩, hrest⟩
    · rintro ⟨user, huser, ⟨group', hget', hmem⟩, hrest⟩
      obtain rfl := Option.some.inj (hget.symm.trans hget')
      exact ⟨(mem_targetUsers huser).2 hmem, user, inGroup_eq_some.2 ⟨huser, hrest⟩⟩

/-- A token is of a device of somebody who is notified. -/
theorem mem_tokens_iff (h : cache.notification serverId now mentions payload = some n)
    {token : String} :
    token ∈ n.tokens ↔ ∃ uid user device, cache.Notifies now mentions payload uid user ∧
      user.devices.get device = some (some token) := by
  obtain ⟨uids, -, huids, htokens⟩ := tokens_eq h
  simp only [htokens, List.mem_flatMap, List.mem_filterMap, NotifiedUser.deviceTokens, huids]
  constructor
  · rintro ⟨user, ⟨uid, ⟨user', hnotifies⟩, huser⟩, ⟨device, value⟩, hdevice, htoken⟩
    obtain rfl := Option.some.inj (hnotifies.1.symm.trans huser)
    obtain rfl : value = some token := htoken
    exact ⟨uid, user', device, hnotifies, OrderedMap.get_eq_some.2 hdevice⟩
  · rintro ⟨uid, user, device, hnotifies, hdevice⟩
    exact ⟨user, ⟨uid, ⟨user, hnotifies⟩, hnotifies.1⟩, (device, some token),
      OrderedMap.get_eq_some.1 hdevice, rfl⟩

end NotificationCache

end VoceChat
