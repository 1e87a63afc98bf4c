import Mathlib.Data.Sym.Sym2
import VoceChat.Api.Messages
import VoceChat.Events.System
import VoceChat.Msgdb.KeySpace

/-!
# Where replies and reactions go (`src/api/message_api.rs`)

A reply or a reaction is meant for the conversation of the message that it refers to. `get_target`
computes it again, from the sender and the target of that message and from whoever refers to it: in
a group it is the same group, in a direct message the other one of the two users.

This is right for the users of the conversation, and `send_message` refuses the others where the
conversation is a group. It does not refuse anybody in direct messages. There `reply` and the edits
have checks of their own, but anyone may like a message, and an administrator may delete it: what
they send goes into the conversation that *they* have with the one whom the message was for.

`Conversation` is what a payload's sender and target stand for. `referred_iff` says of a request
that the message which it stores, if it stores one, is in its right place: if and only if the
request is not such a like or deletion, on a server that still lets them through (`Misdirected`).
-/

namespace VoceChat

open Guards Json Machine MsgDb

/-- A group, or two users with their direct messages. -/
inductive Conversation where
  | group (gid : Int64)
  | dm (users : Sym2 Int64)
  deriving DecidableEq

namespace Conversation

variable (cache : Cache) (uid : Int64)

/-- Who may write: a member of the private group, anyone in a public group, one of the two users. -/
def Participant : Conversation → Prop
  | group gid => ∃ group, cache.group gid = some group ∧ group.containsUser uid
  | dm users => uid ∈ users

/-- Whom messages are for: the members of the private group, all users for a public group, the two
users. -/
def Member : Conversation → Prop
  | group gid => ∃ group, cache.group gid = some group ∧
      uid ∈ if group.ty = .isPublic then cache.users.map Prod.fst else group.members
  | dm users => uid ∈ users

/-- Where a message of the conversation is listed. -/
def Lists (c : Conversation) : MsgIndex → Prop
  | .user uid => c.Member cache uid
  | .group gid => c = group gid
  | .dm fromUid toUid => c = dm s(fromUid, toUid)

end Conversation

/-- The conversation that a message is part of. -/
def ChatMessagePayload.conversation (payload : ChatMessagePayload) : Conversation :=
  match payload.target with
  | .user uid => .dm s(payload.fromUid, uid)
  | .group gid => .group gid

/-! ### The requests -/

/-- A request that refers to a message. -/
inductive Referring where
  | reply (properties : Option Properties) (req : SendMessageRequest)
  | react (req : ReactionRequest)

def refer (env : Env) (db : MsgDb Stored) (token : Token) (mid : ℤ) :
    Referring → Except ApiError ReactionApiResponse × MsgDb Stored
  | .reply properties req => reply env db token mid properties req
  | .react req => react env db token mid req

/-- What the new message is. -/
def Referring.detail (files : String → Option StoredFile) (mid : ℤ) :
    Referring → Except ApiError MessageDetail
  | .reply properties req =>
    (req.intoChatMessageContent files properties).map fun content ↦ .reply ⟨mid, content⟩
  | .react req => (req.detail files).map fun detail ↦ .reaction ⟨mid, detail⟩

/-- The check that the endpoints make on the message that is referred to. -/
def mayRefer (cache : Cache) (token : Token) (original : ChatMessagePayload) :
    MessageDetail → Bool
  | .reply _ => canReply cache token.uid original
  | .reaction ⟨_, detail⟩ => detail.canReaction token.uid token.isAdmin original
  | .normal _ => false

/-- What a request hands to `send_message`. -/
def handed (env : Env) (db : MsgDb Stored) (token : Token) (mid : ℤ) (r : Referring) :
    Option ChatMessagePayload :=
  match do guestForbidden token; r.detail env.files mid with
  | .error _ => none
  | .ok detail => ((db.getMsg mid).bind Stored.payload).bind fun original ↦
      if mayRefer env.ctx.cache token original detail then
        some ⟨token.uid, env.now, getTarget token.uid original, detail⟩
      else none

/-- The event that `send_message` broadcasts at its end. -/
def sendMessageEvent (faults : SendFaults) (ctx : Context) (db : MsgDb Stored)
    (payload : ChatMessagePayload) : Option ChatEvent :=
  match prepare faults ctx payload, (sendMessage faults ctx db payload).1 with
  | .ok p, .ok mid => some ⟨p.target.targets, mid, p.payload⟩
  | _, _ => none

/-- The event of a request. -/
def referEvent (env : Env) (db : MsgDb Stored) (token : Token) (mid : ℤ) (r : Referring) :
    Option ChatEvent :=
  (handed env db token mid r).bind (sendMessageEvent env.sendFaults env.ctx db)

section Handed

variable {env : Env} {db : MsgDb Stored} {token : Token} {mid : ℤ} {r : Referring}
  {payload : ChatMessagePayload}

theorem handed_eq_some : handed env db token mid r = some payload ↔
    ∃ detail original, token.isGuest = false ∧ r.detail env.files mid = .ok detail ∧
      (db.getMsg mid).bind Stored.payload = some original ∧
      mayRefer env.ctx.cache token original detail = true ∧
      payload = ⟨token.uid, env.now, getTarget token.uid original, detail⟩ := by
  rw [handed]
  cases hdetail : (do guestForbidden token; r.detail env.files mid) with
  | error e =>
    refine iff_of_false (fun h ↦ by cases h) ?_
    rintro ⟨detail, original, hguest, hok, -⟩
    rw [guestForbidden, hguest, hok] at hdetail
    cases hdetail
  | ok detail =>
    simp only [guestForbidden, bind_eq_ok, ensure_eq_ok, exists_unit] at hdetail
    show (((db.getMsg mid).bind Stored.payload).bind _ = some payload) ↔ _
    rw [Option.bind_eq_some_iff]
    constructor
    · rintro ⟨original, horiginal, hsend⟩
      obtain ⟨hmay, hpayload⟩ := Option.ite_none_right_eq_some.1 hsend
      exact ⟨detail, original, hdetail.1, hdetail.2, horiginal, hmay,
        (Option.some_inj.1 hpayload).symm⟩
    · rintro ⟨detail', original, -, hok, horiginal, hmay, rfl⟩
      obtain rfl := Except.ok.inj (hdetail.2.symm.trans hok)
      exact ⟨original, horiginal, if_pos hmay⟩

theorem sendReferring_snd (env : Env) (db : MsgDb Stored) (mid : ℤ)
    (allowed : ChatMessagePayload → Bool) (newPayload : ChatMessagePayload → ChatMessagePayload) :
    (sendReferring env db mid allowed newPayload).2 =
      (((db.getMsg mid).bind Stored.payload).bind fun original ↦
        if allowed original then some (newPayload original) else none).elim db
          fun payload ↦ (sendMessage env.sendFaults env.ctx db payload).2 := by
  rw [sendReferring, loadPayload]
  cases db.getMsg mid with
  | none => rfl
  | some data =>
    show _ = Option.elim ((Stored.payload data).bind _) _ _
    cases hdata : Stored.payload data with
    | none => simp only [hdata, Option.bind_none, Option.elim_none]
    | some original =>
      simp only [hdata, Option.bind_some]
      cases allowed original with
      | false => rfl
      | true => rfl

/-- **A request ends in `send_message`**, or does nothing. -/
theorem refer_snd (env : Env) (db : MsgDb Stored) (token : Token) (mid : ℤ) (r : Referring) :
    (refer env db token mid r).2 = (handed env db token mid r).elim db
      fun payload ↦ (sendMessage env.sendFaults env.ctx db payload).2 := by
  cases r with
  | reply properties req =>
    rw [refer, reply, handed, Referring.detail, guestForbidden]
    cases token.isGuest with
    | true => rfl
    | false =>
      cases hcontent : req.intoChatMessageContent env.files properties with
      | error e => rfl
      | ok content => exact sendReferring_snd env db mid _ _
  | react req =>
    rw [refer, react, handed, Referring.detail, guestForbidden]
    cases token.isGuest with
    | true => rfl
    | false =>
      cases hdetail : req.detail env.files with
      | error e => rfl
      | ok detail => exact sendReferring_snd env db mid _ _

end Handed

/-! ### Where a message is listed -/

namespace Prepared

/-- The indexes that the batch of a message has an entry for. -/
def Lists (p : Prepared) : MsgIndex → Prop
  | .user uid => uid ∈ p.target.targets
  | .group gid => ∃ targets, p.target = .group gid targets
  | .dm fromUid toUid => ∃ a b pending, p.target = .dm a b pending ∧ s(a, b) = s(fromUid, toUid)

variable {p : Prepared} {id : ℤ} {i : MsgIndex}

theorem mem_batch_of_lists (h : p.Lists i) :
    ((i.key id).bytes, Blob.message (.chat p.payload)) ∈ p.batch id := by
  obtain ⟨-, huser, hgroup⟩ := p.mem_batch id
  cases i with
  | user uid => exact huser uid h
  | group gid =>
    obtain ⟨targets, htarget⟩ := h
    exact hgroup gid targets htarget
  | dm fromUid toUid =>
    obtain ⟨a, b, pending, htarget, hpair⟩ := h
    have hkey : keyDmMsg fromUid toUid id = keyDmMsg a b id := by
      rcases Sym2.eq_iff.1 hpair with ⟨rfl, rfl⟩ | ⟨rfl, rfl⟩
      · rfl
      · exact keyDmMsg_comm b a id
    show (keyDmMsg fromUid toUid id, _) ∈ _
    rw [hkey]
    obtain ⟨target, payload⟩ := p
    obtain rfl : target = .dm a b pending := htarget
    cases pending with
    | false => simp [batch, dmBatch]
    | true => simp [batch, dmBatch]

theorem lists_of_mem_batch (hid : IsMid id) {v : Blob Stored}
    (h : ((i.key id).bytes, v) ∈ p.batch id) : p.Lists i := by
  have hof : ∀ k : RecordKey, k.IsI64 → k.bytes = (i.key id).bytes → k.Same (i.key id) :=
    fun k hk ↦ RecordKey.same_of_index hk i hid.range
  obtain ⟨target, payload⟩ := p
  match target with
  | .group gid targets =>
    simp only [batch, groupBatch, List.mem_append, List.mem_cons, List.mem_map, List.not_mem_nil,
      or_false, Prod.mk.injEq] at h
    rcases h with (⟨hkey, -⟩ | ⟨uid, huid, hkey, -⟩) | ⟨hkey, -⟩
    · have hsame := hof (.msg id) hid.range hkey.symm
      cases i <;> cases hsame
    · have hsame := hof (.user uid id) hid.range hkey
      cases i <;> cases hsame
      exact huid
    · have hsame := hof (.group gid id) hid.range hkey.symm
      cases i <;> cases hsame
      exact ⟨targets, rfl⟩
  | .dm fromUid toUid false | .dm fromUid toUid true =>
    simp only [batch, dmBatch, List.mem_append, List.mem_cons, List.mem_map, List.not_mem_nil,
      or_false, Option.mem_toList, Option.map_eq_some_iff, Prod.mk.injEq] at h
    rcases h with ((⟨hkey, -⟩ | ⟨uid, huid, hkey, -⟩) | ⟨hkey, -⟩) | ⟨_, -, hkey, -⟩
    · have hsame := hof (.msg id) hid.range hkey.symm
      cases i <;> cases hsame
    · have hsame := hof (.user uid id) hid.range hkey
      cases i <;> cases hsame
      exact List.mem_cons.2 (huid.imp_right List.mem_singleton.2)
    · have hsame := hof (.dm fromUid toUid id) hid.range hkey.symm
      cases i <;> cases hsame
      · exact ⟨_, _, _, rfl, rfl⟩
      · exact ⟨_, _, _, rfl, Sym2.eq_swap⟩
    · have hsame := hof (.pendingMarker id) hid.range hkey
      cases i <;> cases hsame

end Prepared

section Send

variable {faults : SendFaults} {ctx : Context} {db : MsgDb Stored} {payload : ChatMessagePayload}
  {p : Prepared}

/-- A message that is stored is in the indexes of its batch, and in no other. -/
theorem get_index_sendMessage (hw : db.WellFormed) (hp : prepare faults ctx payload = .ok p)
    (hcan : db.CanAllocate faults.store ∧ faults.store .applyBatch = false) (i : MsgIndex) :
    (p.Lists i → (sendMessage faults ctx db payload).2.db.get (i.key db.nextId).bytes =
      some (.message (.chat p.payload))) ∧
    (¬p.Lists i → (sendMessage faults ctx db payload).2.db.get (i.key db.nextId).bytes = none) := by
  have hid : IsMid db.nextId := hw.nextId_pos
  have hvalid : (i.key db.nextId).Valid := i.valid_key hid
  have hmid : (i.key db.nextId).mid = some db.nextId := i.mid_key db.nextId
  have hmerged : ∀ m, i.key db.nextId ≠ .merged m := by cases i <;> exact fun _ h ↦ by cases h
  have hmarker : (i.key db.nextId).bytes ≠ keyPendingMessageMarker db.nextId := by
    cases i <;> exact bytes_ne_of_head (by decide)
  rcases hw.send_cases p.batches_batch faults.store with
    ⟨-, -, t, u, hsend, rfl, hwu, hlt, hsame⟩ | ⟨hnot, -⟩
  · obtain ⟨r, v, hstoreMerged, hv, -⟩ := storeMerged_cases hwu hid hlt faults.store p.payload
    have hget : (sendMessage faults ctx db payload).2.db.get (i.key db.nextId).bytes =
        (t.db.insertAll (p.batch db.nextId)).get (i.key db.nextId).bytes := by
      rw [sendMessage_snd hp, internalSendMessage, p.storeMessage_eq_send]
      simp only [hsend, hstoreMerged]
      cases r with
      | error e | ok m => exact hv.get _ hmerged
    rw [hget]
    refine ⟨fun hlists ↦ Prepared.get_batch_of_mem _ (Prepared.mem_batch_of_lists hlists) hmarker,
      fun hnot ↦ ?_⟩
    rw [OrderedMap.get_insertAll_of_notMem]
    · rw [unchanged_of_sameRecords hsame _ hvalid (by rw [hmid]; simp) hmerged]
      exact hw.keys.get_eq_none hvalid hmid le_rfl
    · intro e he heq
      exact hnot (Prepared.lists_of_mem_batch hid (v := e.2) (heq ▸ he))
  · exact absurd hcan hnot

/-- The indexes of a message are those of its conversation. -/
theorem lists_iff_of_prepare (hp : prepare faults ctx payload = .ok p) (i : MsgIndex) :
    p.Lists i ↔ payload.conversation.Lists ctx.cache i := by
  simp only [prepare, resolve, bind_eq_ok, pure_eq_ok] at hp
  obtain ⟨pending, -, _, -, payload', hexpires, target, hresolve, rfl⟩ := hp
  obtain ⟨hfrom, htarget', -⟩ := setExpiresIn_payload_eq hexpires
  rw [ChatMessagePayload.conversation]
  cases htarget : payload.target with
  | user toUid =>
    rw [resolveTarget, htarget', htarget] at hresolve
    simp only [bind_eq_ok, ensure_eq_ok, exists_unit, pure_eq_ok] at hresolve
    obtain ⟨-, rfl⟩ := hresolve
    rw [hfrom]
    cases i with
    | user uid =>
      show uid ∈ [payload.fromUid, toUid] ↔ uid ∈ s(payload.fromUid, toUid)
      rw [Sym2.mem_iff, List.mem_pair]
    | group gid => exact iff_of_false (fun ⟨_, h⟩ ↦ by cases h) (fun h ↦ by cases h)
    | dm a b =>
      constructor
      · rintro ⟨_, _, _, h, hpair⟩
        cases h
        exact congrArg Conversation.dm hpair
      · exact fun h ↦ ⟨_, _, _, rfl, Conversation.dm.inj h⟩
  | group gid =>
    obtain ⟨group, hgroup, -, rfl⟩ :=
      (resolveTarget_group_eq_ok (htarget'.trans htarget)).1 hresolve
    cases i with
    | user uid =>
      constructor
      · exact fun huid ↦ ⟨group, hgroup, huid⟩
      · rintro ⟨group', hgroup', huid⟩
        obtain rfl := Option.some_inj.1 (hgroup.symm.trans hgroup')
        exact huid
    | group gid' =>
      constructor
      · rintro ⟨_, h⟩
        cases h
        rfl
      · intro h
        cases h
        exact ⟨_, rfl⟩
    | dm a b => exact iff_of_false (fun ⟨_, _, _, h, _⟩ ↦ by cases h) (fun h ↦ by cases h)

/-- Whoever writes takes part in the conversation that the message is then part of. -/
theorem participant_of_prepare (hp : prepare faults ctx payload = .ok p) :
    payload.conversation.Participant ctx.cache payload.fromUid := by
  rw [ChatMessagePayload.conversation]
  cases htarget : payload.target with
  | user toUid => exact Sym2.mem_mk_left _ _
  | group gid => exact containsUser_of_prepare hp htarget

end Send

/-! ### Right and wrong places -/

/-- A direct message between two others. -/
def ChatMessagePayload.Outside (original : ChatMessagePayload) (uid : Int64) : Prop :=
  ∃ toUid, original.target = .user toUid ∧ uid ≠ toUid ∧ uid ≠ original.fromUid

/-- `get_target` is right but for those who have nothing to do with the message. -/
theorem conversation_getTarget {original : ChatMessagePayload} {uid : Int64} {now : ℤ}
    {detail : MessageDetail} :
    ChatMessagePayload.conversation ⟨uid, now, getTarget uid original, detail⟩ =
      original.conversation ↔ ¬original.Outside uid := by
  rw [ChatMessagePayload.conversation, ChatMessagePayload.conversation, getTarget]
  cases htarget : original.target with
  | group gid =>
    refine iff_of_true rfl ?_
    rintro ⟨toUid, h, -⟩
    cases htarget.symm.trans h
  | user toUid =>
    show Conversation.dm s(uid, if toUid = uid then _ else _) = Conversation.dm _ ↔ _
    rw [Conversation.dm.injEq]
    constructor
    · rintro hpair ⟨toUid', h, hto, hfrom⟩
      obtain rfl := MessageTarget.user.inj (htarget.symm.trans h)
      have hmem : uid ∈ s(original.fromUid, toUid) := hpair ▸ Sym2.mem_mk_left _ _
      exact (Sym2.mem_iff.1 hmem).elim hfrom hto
    · intro hinside
      by_cases hto : uid = toUid
      · rw [if_pos hto.symm, hto]
        exact Sym2.eq_swap
      · have hfrom : uid = original.fromUid := by
          by_contra hne
          exact hinside ⟨toUid, htarget, hto, hne⟩
        rw [if_neg (Ne.symm hto), hfrom]

/-- A new message is where the one is that it refers to. -/
structure Placed (cache : Cache) (token : Token) (r : Referring) (original : ChatMessagePayload)
    (t : MsgDb Stored) (id : ℤ) (payload : ChatMessagePayload) : Prop where
  sender : payload.fromUid = token.uid
  author : original.conversation.Participant cache payload.fromUid ∨
    token.isAdmin = true ∧ r = .react .delete
  conversation : payload.conversation = original.conversation
  listed : ∀ i, original.conversation.Lists cache i →
    t.db.get (i.key id).bytes = some (.message (.chat payload))
  unlisted : ∀ i, ¬original.conversation.Lists cache i → t.db.get (i.key id).bytes = none

/-- What a request stores is in its place, and its event is for the members of the conversation. -/
def Referred (env : Env) (db : MsgDb Stored) (token : Token) (mid : ℤ) (r : Referring) : Prop :=
  (∀ id payload, IsMid id → db.db.get (keyMsg id) = none →
    (refer env db token mid r).2.db.get (keyMsg id) = some (.message (.chat payload)) →
      ∃ original, (db.getMsg mid).bind Stored.payload = some original ∧
        Placed env.ctx.cache token r original (refer env db token mid r).2 id payload) ∧
  ∀ event ∈ referEvent env db token mid r, ∃ original,
    (db.getMsg mid).bind Stored.payload = some original ∧
      ∀ uid, uid ∈ event.targets ↔ original.conversation.Member env.ctx.cache uid

/-- A direct message of two others is liked, or deleted by an administrator, and nothing stops it.
-/
structure Misdirected (env : Env) (db : MsgDb Stored) (token : Token) (mid : ℤ) (r : Referring)
    (original : ChatMessagePayload) : Prop where
  found : (db.getMsg mid).bind Stored.payload = some original
  outside : original.Outside token.uid
  content : ∀ reaction, original.detail ≠ .reaction reaction
  user : token.isGuest = false
  kind : (∃ action, r = .react (.like action) ∧ allowedEmoji.contains action = true) ∨
    r = .react .delete ∧ token.isAdmin = true
  /-- Generation two refuses everything without content. -/
  version : ∃ ver, env.ctx.cache.e2eProtocolVer = some ver ∧ ver < 2
  store : db.CanAllocate env.sendFaults.store ∧ env.sendFaults.store .applyBatch = false

section Referred

variable {env : Env} {db : MsgDb Stored} {token : Token} {mid : ℤ} {r : Referring}
  {payload original : ChatMessagePayload} {p : Prepared}

/-- A reaction without content passes the checks of `send_message` on a server of generation one. -/
theorem enforceE2eRequired_of_content (faults : SendFaults) (ctx : Context)
    (h : payload.detail.content = none) : enforceE2eRequired faults ctx payload = .ok () ↔
      ∃ ver, ctx.cache.e2eProtocolVer = some ver ∧ ver < 2 := by
  rw [enforceE2eRequired, h]
  cases ctx.cache.e2eProtocolVer with
  | none =>
    refine iff_of_false (fun h ↦ by cases h) ?_
    rintro ⟨_, h, -⟩
    cases h
  | some ver =>
    by_cases hver : 2 ≤ ver
    · refine iff_of_false (fun hok ↦ ?_) ?_
      · simp [hver] at hok
      · rintro ⟨_, h, hlt⟩
        obtain rfl := Option.some_inj.1 h
        omega
    · exact iff_of_true (by simp [hver]) ⟨ver, rfl, by omega⟩

theorem canReaction_iff {detail : MessageReactionDetail} {uid : Int64} {isAdmin : Bool} :
    detail.canReaction uid isAdmin original = true ↔
      (∀ reaction, original.detail ≠ .reaction reaction) ∧
        ((∃ content, detail = .edit content) ∧ uid = original.fromUid ∨
          (∃ action, detail = .like action) ∨
          detail = .delete ∧ (uid = original.fromUid ∨ isAdmin = true)) := by
  obtain ⟨fromUid, createdAt, target, content⟩ := original
  cases content with
  | reaction reaction => exact iff_of_false (fun h ↦ by cases h) fun h ↦ h.1 reaction rfl
  | normal _ | reply _ => cases detail <;> simp [MessageReactionDetail.canReaction]

/-- Whoever is outside may only like or, as an administrator, delete. -/
theorem kind_of_outside {detail : MessageDetail} (houtside : original.Outside token.uid)
    (hdetail : r.detail env.files mid = .ok detail)
    (hmay : mayRefer env.ctx.cache token original detail = true) :
    (∀ reaction, original.detail ≠ .reaction reaction) ∧ detail.content = none ∧
      ((∃ action, r = .react (.like action) ∧ allowedEmoji.contains action = true) ∨
        r = .react .delete ∧ token.isAdmin = true) := by
  obtain ⟨toUid, htarget, hto, hfrom⟩ := houtside
  cases r with
  | reply properties req =>
    obtain ⟨content, -, rfl⟩ := map_eq_ok.1 hdetail
    rw [mayRefer, canReply, htarget] at hmay
    cases horiginal : original.detail with
    | reaction reaction => simp [horiginal] at hmay
    | normal _ | reply _ => simp [horiginal, hto.symm, hfrom.symm] at hmay
  | react req =>
    obtain ⟨detail', hdetail', rfl⟩ := map_eq_ok.1 hdetail
    obtain ⟨hcontent, hkind⟩ := canReaction_iff.1 hmay
    cases req with
    | edit properties req =>
      obtain ⟨content, -, rfl⟩ := map_eq_ok.1 hdetail'
      rcases hkind with ⟨-, hsame⟩ | ⟨_, h⟩ | ⟨h, -⟩
      · exact absurd hsame hfrom
      · cases h
      · cases h
    | like action =>
      simp only [ReactionRequest.detail, bind_eq_ok, ensure_eq_ok, exists_unit, pure_eq_ok]
        at hdetail'
      obtain ⟨hemoji, rfl⟩ := hdetail'
      exact ⟨hcontent, rfl, .inl ⟨action, rfl, hemoji⟩⟩
    | delete =>
      obtain rfl := Except.ok.inj hdetail'
      rcases hkind with ⟨⟨_, h⟩, -⟩ | ⟨_, h⟩ | ⟨-, hmay⟩
      · cases h
      · cases h
      · exact ⟨hcontent, rfl, .inr ⟨rfl, hmay.resolve_left hfrom⟩⟩

/-- What is handed to `send_message` and stored belongs where the original is, unless the request is
misdirected. -/
theorem conversation_of_not_misdirected (hhanded : handed env db token mid r = some payload)
    (hp : prepare env.sendFaults env.ctx payload = .ok p)
    (hcan : db.CanAllocate env.sendFaults.store ∧ env.sendFaults.store .applyBatch = false)
    (hnot : ¬∃ original, Misdirected env db token mid r original) :
    payload.fromUid = token.uid ∧ ∃ original, (db.getMsg mid).bind Stored.payload = some original ∧
      payload.conversation = original.conversation := by
  obtain ⟨detail, original, hguest, hdetail, horiginal, hmay, rfl⟩ := handed_eq_some.1 hhanded
  refine ⟨rfl, original, horiginal, conversation_getTarget.2 fun houtside ↦ hnot ⟨original, ?_⟩⟩
  obtain ⟨hcontent, hnone, hkind⟩ := kind_of_outside houtside hdetail hmay
  have hversion : ∃ ver, env.ctx.cache.e2eProtocolVer = some ver ∧ ver < 2 := by
    simp only [prepare, bind_eq_ok] at hp
    obtain ⟨_, -, _, henforce, -⟩ := hp
    exact (enforceE2eRequired_of_content _ _ hnone).1 henforce
  exact ⟨horiginal, houtside, hcontent, hguest, hkind, hversion, hcan⟩

/-- A misdirected request passes every check, and goes to the wrong place. -/
theorem Misdirected.exists_prepare (h : Misdirected env db token mid r original) :
    ∃ payload p, handed env db token mid r = some payload ∧
      prepare env.sendFaults env.ctx payload = .ok p ∧
      payload.conversation ≠ original.conversation := by
  obtain ⟨toUid, htarget, hto, -⟩ := h.outside
  obtain ⟨detail, hdetail, hcan, hnone⟩ : ∃ detail,
      r.detail env.files mid = .ok (.reaction ⟨mid, detail⟩) ∧
      detail.canReaction token.uid token.isAdmin original = true ∧
      (MessageDetail.reaction ⟨mid, detail⟩).content = none := by
    rcases h.kind with ⟨action, rfl, hemoji⟩ | ⟨rfl, hadmin⟩
    · refine ⟨.like action, ?_, ?_, rfl⟩
      · rw [Referring.detail, ReactionRequest.detail, hemoji]
        rfl
      · exact canReaction_iff.2 ⟨h.content, .inr (.inl ⟨action, rfl⟩)⟩
    · exact ⟨.delete, rfl, canReaction_iff.2 ⟨h.content, .inr (.inr ⟨rfl, .inr hadmin⟩)⟩, rfl⟩
  have hhanded : handed env db token mid r =
      some ⟨token.uid, env.now, getTarget token.uid original, .reaction ⟨mid, detail⟩⟩ :=
    handed_eq_some.2 ⟨_, original, h.user, hdetail, h.found, hcan, rfl⟩
  have hnew : getTarget token.uid original = .user toUid := by
    rw [getTarget, htarget]
    exact congrArg MessageTarget.user (if_neg (Ne.symm hto))
  refine ⟨_, ⟨.dm token.uid toUid false,
    ⟨token.uid, env.now, .user toUid, .reaction ⟨mid, detail⟩⟩⟩, hhanded, ?_, fun heq ↦
      conversation_getTarget.1 heq h.outside⟩
  have hprotocol : enforceE2eV2TargetProtocol
      ⟨token.uid, env.now, getTarget token.uid original, .reaction ⟨mid, detail⟩⟩ = .ok none := by
    rw [enforceE2eV2TargetProtocol, hnone]
  have hresolve : resolveTarget env.ctx.cache
      ⟨token.uid, env.now, .user toUid, .reaction ⟨mid, detail⟩⟩ none =
        .ok (.dm token.uid toUid false) := by
    simp only [resolveTarget, bind_eq_ok, ensure_eq_ok, exists_unit, pure_eq_ok]
    exact ⟨(fun _ hnotifies ↦ by cases hnotifies), rfl⟩
  have henforce : enforceE2eRequired env.sendFaults env.ctx
      ⟨token.uid, env.now, getTarget token.uid original, .reaction ⟨mid, detail⟩⟩ = .ok () :=
    (enforceE2eRequired_of_content _ _ hnone).2 h.version
  rw [hnew] at hprotocol henforce ⊢
  simp only [prepare, resolve, bind_eq_ok, pure_eq_ok]
  exact ⟨none, hprotocol, (), henforce, _, rfl, _, hresolve, rfl⟩

/-- It stores its message there. -/
theorem Misdirected.not_referred (hw : db.WellFormed)
    (h : Misdirected env db token mid r original) :
    ¬Referred env db token mid r := by
  intro hreferred
  obtain ⟨payload, p, hhanded, hp, hwrong⟩ := h.exists_prepare
  have hdb : (refer env db token mid r).2 =
      (sendMessage env.sendFaults env.ctx db payload).2 := by
    rw [refer_snd, hhanded, Option.elim_some]
  rcases sendMessage_cases hw env.sendFaults env.ctx payload with
    ⟨p', t, hp', -, hsend, hstored, -⟩ | ⟨hnot, -⟩
  · obtain rfl := Except.ok.inj (hp.symm.trans hp')
    obtain ⟨original', horiginal', hplaced⟩ := hreferred.1 db.nextId p.payload hstored.isMid
      (hstored.unused (.msg _) hstored.isMid rfl) (by rw [hdb, hsend]; exact hstored.msg)
    obtain rfl := Option.some_inj.1 (h.found.symm.trans horiginal')
    obtain ⟨hfrom, htarget, -⟩ := prepare_payload_eq hp
    refine hwrong (Eq.trans ?_ hplaced.conversation)
    rw [ChatMessagePayload.conversation, ChatMessagePayload.conversation, hfrom, htarget]
  · exact hnot p hp h.store

/-- Any other request stores its message in the right place, if it stores one. -/
theorem placed_of_new (hw : db.WellFormed)
    (hnot : ¬∃ original, Misdirected env db token mid r original) {id : ℤ} (hid : IsMid id)
    (hnone : db.db.get (keyMsg id) = none)
    (hget : (refer env db token mid r).2.db.get (keyMsg id) = some (.message (.chat payload))) :
    ∃ original, (db.getMsg mid).bind Stored.payload = some original ∧
      Placed env.ctx.cache token r original (refer env db token mid r).2 id payload := by
  rw [refer_snd] at hget ⊢
  cases hhanded : handed env db token mid r with
  | none =>
    rw [hhanded, Option.elim_none, hnone] at hget
    cases hget
  | some new =>
    rw [hhanded, Option.elim_some] at hget
    rcases sendMessage_cases hw env.sendFaults env.ctx new with
      ⟨p, t, hp, hcan, hsend, hstored, -⟩ | ⟨-, e, t, hsend, -, hunchanged⟩
    · obtain ⟨huid, original, horiginal, hconversation⟩ :=
        conversation_of_not_misdirected hhanded hp hcan hnot
      obtain ⟨hfrom, htarget, -⟩ := prepare_payload_eq hp
      rw [hsend] at hget
      -- the message is the one that was sent, under the next id
      obtain rfl : id = db.nextId := by
        by_contra hne
        have hkept : t.db.get (keyMsg id) = db.db.get (keyMsg id) :=
          hstored.others (.msg id) hid (Option.some_ne_none _)
            (fun h ↦ hne (Option.some_inj.1 h)) (fun _ h ↦ by cases h)
        have hnew : t.db.get (keyMsg id) = some (.message (.chat payload)) := hget
        rw [hkept, hnone] at hnew
        cases hnew
      obtain rfl : payload = p.payload :=
        hstored.only (.msg _) hid rfl (fun _ h ↦ by cases h) payload hget
      have hsame : p.payload.conversation = original.conversation := by
        rw [← hconversation, ChatMessagePayload.conversation, ChatMessagePayload.conversation,
          hfrom, htarget]
      have hindex := get_index_sendMessage hw hp hcan
      have hlists : ∀ i, p.Lists i ↔ original.conversation.Lists env.ctx.cache i :=
        fun i ↦ hconversation ▸ lists_iff_of_prepare hp i
      refine ⟨original, horiginal, hfrom.trans huid, .inl ?_, hsame, fun i hi ↦ ?_, fun i hi ↦ ?_⟩
      · rw [← hconversation, hfrom]
        exact participant_of_prepare hp
      · exact (hindex i).1 ((hlists i).2 hi)
      · exact (hindex i).2 fun h ↦ hi ((hlists i).1 h)
    · have hkept : t.db.get (keyMsg id) = db.db.get (keyMsg id) :=
        hunchanged (.msg id) hid (Option.some_ne_none _) (fun _ h ↦ by cases h)
      rw [hsend, hkept, hnone] at hget
      cases hget

/-- And its event goes to the members. -/
theorem targets_of_event (hw : db.WellFormed)
    (hnot : ¬∃ original, Misdirected env db token mid r original) {event : ChatEvent}
    (hevent : event ∈ referEvent env db token mid r) :
    ∃ original, (db.getMsg mid).bind Stored.payload = some original ∧
      ∀ uid, uid ∈ event.targets ↔ original.conversation.Member env.ctx.cache uid := by
  obtain ⟨payload, hhanded, hsent⟩ := Option.bind_eq_some_iff.1 hevent
  rw [sendMessageEvent] at hsent
  rcases sendMessage_cases hw env.sendFaults env.ctx payload with
    ⟨p, t, hp, hcan, hsend, -⟩ | ⟨-, e, t, hsend, -⟩
  · obtain ⟨-, original, horiginal, hconversation⟩ :=
      conversation_of_not_misdirected hhanded hp hcan hnot
    have htargets : event.targets = p.target.targets := by
      rw [hp] at hsent
      split at hsent
      · rename_i p' mid' hp' hmid'
        obtain rfl := Except.ok.inj hp'
        exact congrArg ChatEvent.targets (Option.some_inj.1 hsent).symm
      · cases hsent
    refine ⟨original, horiginal, fun uid ↦ ?_⟩
    rw [htargets, ← hconversation]
    exact lists_iff_of_prepare hp (.user uid)
  · rw [hsend] at hsent
    split at hsent
    · rename_i _ _ _ hmid
      cases hmid
    · cases hsent

/-- **Replies and reactions are in their place**, if and only if the request is not a like of the
direct message of two others, or an administrator's deletion of it, that the server lets through. -/
theorem referred_iff (hw : db.WellFormed) :
    Referred env db token mid r ↔ ¬∃ original, Misdirected env db token mid r original := by
  constructor
  · rintro hreferred ⟨original, h⟩
    exact h.not_referred hw hreferred
  · exact fun hnot ↦ ⟨fun _ _ hid hnone hget ↦ placed_of_new hw hnot hid hnone hget,
      fun _ hevent ↦ targets_of_event hw hnot hevent⟩

end Referred

/-! ### A like from outside -/

/-- Three users of a server that takes plaintext. -/
def plainEnv : Env where
  files _ := none
  now := 0
  ctx :=
    { cache :=
        { users := [(1, ⟨.normal, [], []⟩), (2, ⟨.normal, [], []⟩), (3, ⟨.normal, [], []⟩)]
          groups := []
          e2eProtocolVer := some 1 }
      dmSettings := [((1, 2), false)] }
  sequenceFaults _ := none
  sendFaults := .none

/-- The first user has written to the second. -/
def noted : MsgDb Stored :=
  (sendMessage .none plainEnv.ctx created
    ⟨1, 0, .user 2, .normal ⟨⟨none, "text/plain", "hi"⟩, none⟩⟩).2

theorem wellFormed_noted : noted.WellFormed := by
  rcases sendMessage_cases wellFormed_created .none plainEnv.ctx
    ⟨1, 0, .user 2, .normal ⟨⟨none, "text/plain", "hi"⟩, none⟩⟩ with
    ⟨p, t, -, -, hsend, -, hwt, -⟩ | ⟨-, e, t, hsend, hwt, -⟩
  · rw [noted, hsend]
    exact hwt
  · rw [noted, hsend]
    exact hwt

/-- The second user answers. -/
theorem referred_reply :
    Referred plainEnv noted ⟨2, "phone", false, false⟩ 1 (.reply none (.text "hello")) := by
  refine (referred_iff wellFormed_noted).2 ?_
  rintro ⟨original, h⟩
  rcases h.kind with ⟨action, hkind, -⟩ | ⟨hkind, -⟩
  · cases hkind
  · cases hkind

/-- The third user likes the message, and the second finds a reaction of a conversation with them.
-/
theorem not_forall_referred : ¬∀ env db token mid r, db.WellFormed →
    Referred env db token mid r := by
  intro h
  have hreferred := h plainEnv noted ⟨3, "phone", false, false⟩ 1
    (.react (.like "👍")) wellFormed_noted
  obtain ⟨original, horiginal, hplaced⟩ := hreferred.1 2 ⟨3, 0, .user 2, .reaction ⟨1, .like "👍"⟩⟩
    (by decide) rfl rfl
  obtain rfl : ⟨1, 0, .user 2, .normal ⟨⟨none, "text/plain", "hi"⟩, none⟩⟩ = original :=
    Option.some_inj.1 (Eq.trans rfl horiginal)
  have hpair : s((3 : Int64), 2) = s(1, 2) := Conversation.dm.inj hplaced.conversation
  revert hpair
  decide

end VoceChat
