import VoceChat.Foundations.OrderedMap
import VoceChat.Msgdb.Keys

/-!
# The message database (`crates/msgdb`)

`MsgDb` is a sled map from keys to blobs together with the block of message ids leased in memory.
A blob is either the serialized message `μ` as it was handed over, or raw bytes the crate wrote
itself. Sending a message takes the next id and then writes the message under all its keys in one
batch; the two steps are separate, so other senders may get in between.

`fetchUserMessagesAfter` scans a user's index backwards from its end. What it returns is stated at
the end of the module (`fetchUserMessagesAfter_eq`): the newest `limit` entries, oldest first.
-/

namespace VoceChat

open Machine

/-- A stored value. -/
inductive Blob (μ : Type) where
  | message (m : μ)
  | bytes (b : Bytes)
  deriving DecidableEq

/-- `Sequence` without its table number: the next id, and the first one that is not leased. -/
structure Sequence where
  next : ℤ
  leased : ℤ
  deriving DecidableEq, Repr

inductive MsgDbError where
  /-- A sled operation failed. -/
  | sled
  | invalidData
  /-- `i64` arithmetic overflowed: all message ids are used up. -/
  | overflow
  deriving DecidableEq, Repr

structure MsgDb (μ : Type) where
  db : OrderedMap Bytes (Blob μ)
  msgSequence : Sequence

/-- Where the store may fail while it sends a message. -/
inductive StoreStep where
  | lease
  | applyBatch
  | insertMerged
  | updateMerged
  deriving DecidableEq, Repr

def msgSequenceTy : Byte := 1

def sequenceBandwidth : ℤ := 32

namespace MsgDb

variable {μ : Type}

/-- The end of the last lease, as the database has it. -/
def readLease (db : OrderedMap Bytes (Blob μ)) : Except MsgDbError ℤ :=
  match db.get (keySequence msgSequenceTy) with
  | some (.bytes value) => if value.length = 8 then .ok (fromBeI64 value) else .error .invalidData
  | some (.message _) => .error .invalidData
  | none => .ok 1

/-- `Sequence::update_sequence_lease`: lease the block of ids after the last lease. -/
def updateSequenceLease (fails : StoreStep → Bool) (db : OrderedMap Bytes (Blob μ)) :
    Except MsgDbError (Sequence × OrderedMap Bytes (Blob μ)) := do
  let next ← readLease db
  if fails .lease then .error .sled
  else if next + sequenceBandwidth < i64Size then
    .ok (⟨next, next + sequenceBandwidth⟩,
      db.insert (keySequence msgSequenceTy) (.bytes (beI64 (next + sequenceBandwidth))))
  else .error .overflow

/-- `MsgDb::open` on the map that is found on disk: a new block is leased at once. -/
def openDb (fails : StoreStep → Bool) (db : OrderedMap Bytes (Blob μ)) :
    Except MsgDbError (MsgDb μ) := do
  let (seq, db) ← updateSequenceLease fails db
  return ⟨db, seq⟩

/-- A new database. -/
def created : MsgDb μ :=
  ⟨OrderedMap.empty.insert (keySequence msgSequenceTy) (.bytes (beI64 33)), ⟨1, 33⟩⟩

theorem openDb_empty : openDb (fun _ ↦ false) OrderedMap.empty = .ok (created : MsgDb μ) := rfl

/-- `generate_msg_id`. -/
def generateMsgId (fails : StoreStep → Bool) (s : MsgDb μ) : Except MsgDbError ℤ × MsgDb μ :=
  if s.msgSequence.next < s.msgSequence.leased then
    (.ok s.msgSequence.next,
      { s with msgSequence := { s.msgSequence with next := s.msgSequence.next + 1 } })
  else match updateSequenceLease fails s.db with
    | .ok (seq, db) => (.ok seq.next, ⟨db, { seq with next := seq.next + 1 }⟩)
    | .error e => (.error e, s)

/-- The batch of `send_to_group`. -/
def groupBatch (gid : Int64) (targets : List Int64) (id : ℤ) (msg : μ) : List (Bytes × Blob μ) :=
  (keyMsg id, .message msg) :: targets.map (fun uid ↦ (keyUserMsg uid id, .message msg)) ++
    [(keyGroupMsg gid id, .message msg)]

/-- The batch of `send_to_dm_inner`, with the pending marker if there is one. -/
def dmBatch (fromUid toUid : Int64) (pendingCreatedAtMillis : Option ℤ) (id : ℤ) (msg : μ) :
    List (Bytes × Blob μ) :=
  (keyMsg id, .message msg) :: [fromUid, toUid].map (fun uid ↦ (keyUserMsg uid id, .message msg)) ++
    [(keyDmMsg fromUid toUid id, .message msg)] ++
    (pendingCreatedAtMillis.map fun createdAtMillis ↦ (keyPendingMessageMarker id,
      Blob.bytes (pendingMarkerValue fromUid toUid createdAtMillis))).toList

def applyBatch (s : MsgDb μ) (batch : List (Bytes × Blob μ)) : MsgDb μ :=
  { s with db := s.db.insertAll batch }

/-- Take an id, then write the batch made with it. -/
def send (fails : StoreStep → Bool) (s : MsgDb μ) (batch : ℤ → List (Bytes × Blob μ)) :
    Except MsgDbError ℤ × MsgDb μ :=
  match s.generateMsgId fails with
  | (.error e, s) => (.error e, s)
  | (.ok id, s) => if fails .applyBatch then (.error .sled, s)
      else (.ok id, s.applyBatch (batch id))

def sendToGroup (fails : StoreStep → Bool) (s : MsgDb μ) (gid : Int64) (targets : List Int64)
    (msg : μ) :
    Except MsgDbError ℤ × MsgDb μ :=
  s.send fails fun id ↦ groupBatch gid targets id msg

def sendToDm (fails : StoreStep → Bool) (s : MsgDb μ) (fromUid toUid : Int64) (msg : μ) :
    Except MsgDbError ℤ × MsgDb μ :=
  s.send fails fun id ↦ dmBatch fromUid toUid none id msg

def sendToDmWithPendingMarker (fails : StoreStep → Bool) (s : MsgDb μ) (fromUid toUid : Int64)
    (createdAtMillis : ℤ) (msg : μ) : Except MsgDbError ℤ × MsgDb μ :=
  s.send fails fun id ↦ dmBatch fromUid toUid (some createdAtMillis) id msg

/-- `get`: the stored message of an id. -/
def getMsg (s : MsgDb μ) (mid : ℤ) : Option (Blob μ) := s.db.get (keyMsg mid)

def insertMergedMsg (s : MsgDb μ) (mid : ℤ) (msg : μ) : MsgDb μ :=
  { s with db := s.db.insert (keyMergedMsg mid) (.message msg) }

/-- `update_merged_msg`: nothing happens where there is no merged message. -/
def updateMergedMsg (s : MsgDb μ) (mid : ℤ) (f : Blob μ → Blob μ) : MsgDb μ :=
  match s.db.get (keyMergedMsg mid) with
  | some data => { s with db := s.db.insert (keyMergedMsg mid) (f data) }
  | none => s

/-- The loop of `fetch_user_messages_after` over the entries it visits. -/
def collectUser (uid : Int64) : List (Bytes × Blob μ) → List (ℤ × Blob μ)
  | [] => []
  | (key, value) :: rest =>
    match decodeKeyUserMsg key with
    | none => []
    | some (currentUid, msgId) =>
      if currentUid = uid.toInt then (msgId, value) :: collectUser uid rest else []

/-- `i64::MAX`, the end of a user's index. -/
def maxMid : ℤ := i64Size - 1

/-- `fetch_user_messages_after`. -/
def fetchUserMessagesAfter (s : MsgDb μ) (uid : Int64) (after : Option ℤ) (limit : ℕ) :
    List (ℤ × Blob μ) :=
  let afterId := (after.map (· + 1)).getD 0
  (collectUser uid (((s.db.range (keyUserMsg uid afterId) (keyUserMsg uid maxMid)).reverse).take
    limit)).reverse

end MsgDb

/-! ### What a scan of a user's index returns -/

/-- All keys of the map are keys the crate writes. -/
def MsgDb.KeysValid {μ : Type} (s : MsgDb μ) : Prop :=
  ∀ e ∈ s.db.entries, ∃ k : RecordKey, k.Valid ∧ e.1 = k.bytes

namespace MsgDb

variable {μ : Type} {s : MsgDb μ} {uid : Int64}

/-- The entries of a user's index from `a` on, ascending. -/
def userEntries (s : MsgDb μ) (uid : Int64) (a : ℤ) : List (ℤ × Blob μ) :=
  (s.db.range (keyUserMsg uid a) (keyUserMsg uid maxMid)).map fun e ↦
    (fromBeI64 (e.1.drop 13), e.2)

theorem isMid_maxMid : IsMid maxMid := by decide

/-- What the scan visits are the index's own keys. -/
theorem mem_range_user (hkeys : s.KeysValid) {a : ℤ} (ha : IsMid a) {e : Bytes × Blob μ}
    (he : e ∈ s.db.range (keyUserMsg uid a) (keyUserMsg uid maxMid)) :
    ∃ mid, e.1 = keyUserMsg uid mid ∧ IsMid mid ∧ a ≤ mid ∧ mid < maxMid := by
  obtain ⟨key, value⟩ := e
  obtain ⟨hget, hlo, hhi⟩ := OrderedMap.mem_range.1 he
  obtain ⟨k, hk, rfl⟩ := hkeys _ (OrderedMap.get_eq_some.1 hget)
  obtain ⟨mid, rfl, hmid, hlt⟩ := keyUserMsg_of_between hk ha isMid_maxMid hlo hhi
  exact ⟨mid, rfl, hk, hmid, hlt⟩

theorem drop_keyUserMsg (uid : Int64) (mid : ℤ) : (keyUserMsg uid mid).drop 13 = beI64 mid := by
  have hlen : (ascii "UMSG/" ++ beI64 uid.toInt).length = 13 := by
    rw [List.length_append, length_beI64]
    rfl
  rw [keyUserMsg, ← hlen, List.drop_left]

/-- The loop never breaks early on a user's own entries. -/
theorem collectUser_eq {es : List (Bytes × Blob μ)}
    (h : ∀ e ∈ es, ∃ mid, e.1 = keyUserMsg uid mid ∧ IsMid mid) :
    collectUser uid es = es.map fun e ↦ (fromBeI64 (e.1.drop 13), e.2) := by
  induction es with
  | nil => rfl
  | cons e es ih =>
    obtain ⟨key, value⟩ := e
    obtain ⟨mid, rfl, hmid⟩ := h _ List.mem_cons_self
    rw [collectUser, decodeKeyUserMsg_keyUserMsg hmid, List.map_cons, drop_keyUserMsg,
      fromBeI64_beI64 hmid.range]
    simp only [if_true]
    rw [ih fun e he ↦ h e (List.mem_cons_of_mem _ he)]

/-- **A scan returns the newest `limit` entries** above the given id, oldest first. -/
theorem fetchUserMessagesAfter_eq (hkeys : s.KeysValid) {after : Option ℤ}
    (hafter : IsMid ((after.map (· + 1)).getD 0)) (limit : ℕ) :
    s.fetchUserMessagesAfter uid after limit =
      ((s.userEntries uid ((after.map (· + 1)).getD 0)).reverse.take limit).reverse := by
  rw [fetchUserMessagesAfter, userEntries, collectUser_eq, List.map_take, List.map_reverse]
  intro e he
  obtain ⟨mid, hkey, hmid, -⟩ := mem_range_user hkeys hafter
    (List.mem_reverse.1 (List.mem_of_mem_take he))
  exact ⟨mid, hkey, hmid⟩

theorem mem_userEntries (hkeys : s.KeysValid) {a : ℤ} (ha : IsMid a) {mid : ℤ} {b : Blob μ} :
    (mid, b) ∈ s.userEntries uid a ↔
      s.db.get (keyUserMsg uid mid) = some b ∧ IsMid mid ∧ a ≤ mid ∧ mid < maxMid := by
  rw [userEntries, List.mem_map]
  constructor
  · rintro ⟨e, he, heq⟩
    obtain ⟨mid', hkey, hmid, hle, hlt⟩ := mem_range_user hkeys ha he
    rw [hkey, drop_keyUserMsg, fromBeI64_beI64 hmid.range] at heq
    obtain ⟨rfl, rfl⟩ := Prod.ext_iff.1 heq
    obtain ⟨hget, -⟩ := OrderedMap.mem_range.1 (Prod.eta e ▸ he)
    exact ⟨hkey ▸ hget, hmid, hle, hlt⟩
  · rintro ⟨hget, hmid, hle, hlt⟩
    refine ⟨(keyUserMsg uid mid, b), OrderedMap.mem_range.2 ⟨hget, ?_, ?_⟩, ?_⟩
    · refine not_lt.1 fun h ↦ ?_
      rw [keyUserMsg, keyUserMsg, BigEndian.append_lt_append_iff, beI64_lt hmid ha] at h
      omega
    · rw [keyUserMsg, keyUserMsg, BigEndian.append_lt_append_iff, beI64_lt hmid isMid_maxMid]
      exact hlt
    · rw [drop_keyUserMsg, fromBeI64_beI64 hmid.range]

/-- The entries ascend in their ids. -/
theorem userEntries_sorted (hkeys : s.KeysValid) {a : ℤ} (ha : IsMid a) :
    (s.userEntries uid a).Pairwise fun x y ↦ x.1 < y.1 := by
  rw [userEntries, List.pairwise_map]
  refine (s.db.range_sorted _ _).imp_of_mem fun {x y} hx hy hlt ↦ ?_
  obtain ⟨m, hm, hmid, -⟩ := mem_range_user hkeys ha hx
  obtain ⟨n, hn, hnid, -⟩ := mem_range_user hkeys ha hy
  rw [hm, hn, keyUserMsg, keyUserMsg, BigEndian.append_lt_append_iff, beI64_lt hmid hnid] at hlt
  rw [hm, hn, drop_keyUserMsg, drop_keyUserMsg, fromBeI64_beI64 hmid.range,
    fromBeI64_beI64 hnid.range]
  exact hlt

end MsgDb

end VoceChat
