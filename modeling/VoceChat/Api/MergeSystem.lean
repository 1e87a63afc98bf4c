import VoceChat.Api.Conversations
import VoceChat.Foundations.LastEntry

/-!
# Merged messages (`internal_send_message`, `get_merged_message`)

A merged message is what an original message, a normal one or a reply, has become through its edits.
It has a record of its own, which `internal_send_message` writes after the record of the message
that it stores: a new original starts one, an edit overwrites the content of the one that is there.
Pins, archives and the search index read these records and never the edits.

The writes of a call are separate steps here, so other calls may get in between, and each of them
may fail (`MergeAction.abandon`). A crash gives up all calls there are at once.

A message whose call is still between the two writes is `Pending`. `Right` says what a merged
message should be in terms of the messages stored. An edit counts there from the end of its call on,
in whatever way the call ends, and a deletion as soon as it is stored.
-/

namespace VoceChat

open MsgDb

/-! ### The system -/

/-- `get_merged_msg`. -/
def MsgDb.getMergedMsg {μ : Type} (s : MsgDb μ) (mid : ℤ) : Option (Blob μ) :=
  s.db.get (keyMergedMsg mid)

/-- `from_slice::<MergedMessagePayload>`. -/
def Stored.mergedPayload : Blob Stored → Option MergedMessagePayload
  | .message (.merged payload) => some payload
  | _ => none

/-- `get_merged_message`. -/
def getMergedMessage (db : MsgDb Stored) (mid : ℤ) : Option MergedMessagePayload :=
  (db.getMergedMsg mid).bind Stored.mergedPayload

/-- How far a call of `send_message` is. -/
inductive MergePhase where
  | prepared
  | numbered (mid : ℤ)
  | stored (mid : ℤ)
  deriving DecidableEq, Repr

structure Merging where
  prepared : Prepared
  phase : MergePhase

/-- The id of the message, once it has one. -/
def Merging.mid (x : Merging) : Option ℤ :=
  match x.phase with
  | .prepared => none
  | .numbered mid | .stored mid => some mid

structure MergeSystem where
  messages : MsgDb Stored
  sends : List Merging

inductive MergeAction where
  /-- `send_message` with anything but a reaction, up to the writes. -/
  | send (faults : SendFaults) (ctx : Context) (payload : ChatMessagePayload)
  /-- A reply or a reaction; `ctx` is what `send_message` finds after the request's own checks. -/
  | refer (env : Env) (ctx : Context) (token : Token) (mid : Int64) (r : Referring)
  /-- `fails` says whether sled refuses to lease. -/
  | takeId (i : ℕ) (fails : Bool)
  | applyBatch (i : ℕ)
  | storeMerged (i : ℕ)
  /-- The next write fails, or the server stops. -/
  | abandon (i : ℕ)

/-- The content that starts a merged message. -/
def MessageDetail.original : MessageDetail → Option ChatMessageContent
  | .normal m => some m.content
  | .reply m => some m.content
  | .reaction _ => none

namespace MergeSystem

def init : MergeSystem := ⟨created, []⟩

/-- A call begins if its checks let it. -/
def prepare (s : MergeSystem) (faults : SendFaults) (ctx : Context) (payload : ChatMessagePayload) :
    MergeSystem :=
  match VoceChat.prepare faults ctx payload with
  | .error _ => s
  | .ok prepared => { s with sends := s.sends ++ [⟨prepared, .prepared⟩] }

def setSend (s : MergeSystem) (i : ℕ) (x : Merging) (phase : MergePhase) : MergeSystem :=
  { s with sends := s.sends.set i { x with phase } }

def removeSend (s : MergeSystem) (i : ℕ) : MergeSystem :=
  { s with sends := s.sends.eraseIdx i }

def perform (s : MergeSystem) : MergeAction → MergeSystem
  | .send faults ctx payload =>
    match payload.detail with
    | .normal _ | .reply _ => s.prepare faults ctx payload
    | .reaction _ => s
  | .refer env ctx token mid r =>
    match handed env s.messages token mid.toInt r with
    | none => s
    | some payload => s.prepare env.sendFaults ctx payload
  | .takeId i fails =>
    match s.sends[i]? with
    | some ⟨prepared, .prepared⟩ =>
      match s.messages.generateMsgId fun _ ↦ fails with
      | (.error _, messages) => { s with messages }.removeSend i
      | (.ok mid, messages) => { s with messages }.setSend i ⟨prepared, .prepared⟩ (.numbered mid)
    | _ => s
  | .applyBatch i =>
    match s.sends[i]? with
    | some ⟨prepared, .numbered mid⟩ =>
      let messages := s.messages.applyBatch (prepared.batch mid)
      { s with messages }.setSend i ⟨prepared, .numbered mid⟩ (.stored mid)
    | _ => s
  | .storeMerged i =>
    match s.sends[i]? with
    | some ⟨prepared, .stored mid⟩ =>
      let messages := (VoceChat.storeMerged (fun _ ↦ false) s.messages prepared.payload mid).2
      { s with messages }.removeSend i
    | _ => s
  | .abandon i => s.removeSend i

/-! ### What merged messages should be -/

/-- The message is stored under this id. -/
def Has (s : MergeSystem) (mid : ℤ) (payload : ChatMessagePayload) : Prop :=
  IsMid mid ∧ s.messages.getMsg mid = some (.message (.chat payload))

/-- Its call has stored it and has not ended. -/
def Pending (s : MergeSystem) (mid : ℤ) : Prop := ∃ x ∈ s.sends, x.phase = .stored mid

/-- The message is a normal one or a reply, with this content. -/
def Original (s : MergeSystem) (mid : ℤ) (payload : ChatMessagePayload)
    (content : ChatMessageContent) : Prop :=
  s.Has mid payload ∧ payload.detail.original = some content

/-- The edits of a message, by their ids. -/
def Edit (s : MergeSystem) (mid id : ℤ) (content : ChatMessageContent) : Prop :=
  (∃ payload, s.Has id payload ∧ payload.detail = .reaction ⟨mid, .edit content⟩) ∧ ¬s.Pending id

/-- A deletion of the message is stored. -/
def Deleted (s : MergeSystem) (mid : ℤ) : Prop :=
  ∃ id payload, s.Has id payload ∧ payload.detail = .reaction ⟨mid, .delete⟩

/-- The content of the edit with the greatest id, or the original one where there is no edit. -/
def Shows (s : MergeSystem) (mid : ℤ) (original content : ChatMessageContent) : Prop :=
  LastEntry.Shows (s.Edit mid) original content

/-- What the merged message of an original one should be: none once it is deleted, and otherwise its
current content with the sender, the target and the time of the original. -/
def RightAt (s : MergeSystem) (mid : ℤ) (payload : ChatMessagePayload)
    (original : ChatMessageContent) : Prop :=
  (s.Deleted mid → getMergedMessage s.messages mid = none) ∧
  (¬s.Deleted mid → ¬s.Pending mid → ∃ content, s.Shows mid original content ∧
    getMergedMessage s.messages mid =
      some ⟨payload.fromUid, payload.target, content, payload.createdAt⟩)

/-- Every original message has the merged message it should have. -/
def Right (s : MergeSystem) : Prop :=
  ∀ mid payload original, s.Original mid payload original → s.RightAt mid payload original

/-! ### The steps that keep them so -/

/-- There is a merged message to serve. -/
def Served (s : MergeSystem) (mid : ℤ) : Prop :=
  (∃ payload original, s.Original mid payload original) ∧ ¬s.Pending mid ∧ ¬s.Deleted mid

/-- The merged message may be written now. For an original message: it has not been deleted in the
meantime, nor edited to something else. For an edit: no later edit, to something else, has overtaken
it. -/
def InOrder (s : MergeSystem) (id : ℤ) : MessageDetail → Prop
  | .normal ⟨content, _⟩ | .reply ⟨_, content⟩ => ¬s.Deleted id ∧ s.Shows id content content
  | .reaction ⟨mid, .edit content⟩ => s.Served mid → (∀ id' c, s.Edit mid id' c → id' < id) ∨
      ∃ id', LastEntry.IsLast (s.Edit mid) id' content ∧ id < id'
  | .reaction ⟨_, .like _⟩ | .reaction ⟨_, .delete⟩ => True

/-- Nothing is missed if the merged message is not written. An original message has been deleted; an
edit has been overtaken by a later one, or changes nothing. -/
def Dispensable (s : MergeSystem) (id : ℤ) : MessageDetail → Prop
  | .normal _ | .reply _ => s.Deleted id
  | .reaction ⟨mid, .edit content⟩ => s.Served mid → (∃ id' c, s.Edit mid id' c ∧ id < id') ∨
      ∃ payload original, s.Original mid payload original ∧ s.Shows mid original content
  | .reaction ⟨_, .like _⟩ | .reaction ⟨_, .delete⟩ => True

/-- No deletion of a message whose merged message is served, no merged message written in the wrong
order, and none left out. -/
def Orderly (s : MergeSystem) : MergeAction → Prop
  | .applyBatch i => ∀ x id mid, s.sends[i]? = some x → x.phase = .numbered id →
      x.prepared.payload.detail = .reaction ⟨mid, .delete⟩ → ¬s.Served mid
  | .storeMerged i => ∀ x id, s.sends[i]? = some x → x.phase = .stored id →
      s.InOrder id x.prepared.payload.detail
  | .abandon i => ∀ x id, s.sends[i]? = some x → x.phase = .stored id →
      s.Dispensable id x.prepared.payload.detail
  | .send .. | .refer .. | .takeId .. => True

end MergeSystem

end VoceChat
