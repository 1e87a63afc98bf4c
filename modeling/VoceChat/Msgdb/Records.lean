import Mathlib.Data.List.Sort
import VoceChat.Foundations.Run
import VoceChat.Msgdb.StoredMessages

/-!
# The records of the messages sent (`crates/msgdb/src/messages.rs`)

`RecordedDb` is the message database together with the messages it was asked to send, in the order
of the sends, each with the id that was returned for it. The database holds just the records of
these messages (`RecordedDb.Inv.stored`), whatever is done to merged messages in between: one key
is one entry (`RecordKey.same_of_bytes`), so a batch changes the entries of its own message and no
others. `faithful_after` reads the tables off this, one by one.
-/

namespace VoceChat

open BigEndian Machine

/-! ### The database and what was sent -/

/-- `remove_merged_msg`. -/
def MsgDb.removeMergedMsg {μ : Type} (s : MsgDb μ) (mid : ℤ) : MsgDb μ :=
  { s with db := s.db.erase (keyMergedMsg mid) }

/-- The message database and the messages sent, oldest first. -/
structure RecordedDb (μ : Type) where
  db : MsgDb μ
  sent : List (StoredMessage μ)

/-- What is done to the database, in one call each. -/
inductive RecordAction (μ : Type) where
  | sendToGroup (gid : Int64) (targets : List Int64) (msg : μ) (fails : StoreStep → Bool)
  | sendToDm (fromUid toUid : Int64) (msg : μ) (fails : StoreStep → Bool)
  | sendToDmWithPendingMarker (fromUid toUid createdAtMillis : Int64) (msg : μ)
      (fails : StoreStep → Bool)
  | insertMergedMsg (mid : Int64) (msg : μ)
  | updateMergedMsg (mid : Int64) (f : Blob μ → Blob μ)
  | removeMergedMsg (mid : Int64)
  | removePendingMessageMarker (mid : Int64)

namespace RecordedDb

variable {μ : Type}

def created : RecordedDb μ := ⟨MsgDb.created, []⟩

/-- Remember a message if an id was returned for it. -/
def record (r : RecordedDb μ) (recipients : Recipients) (msg : μ) :
    Except MsgDbError ℤ × MsgDb μ → RecordedDb μ
  | (.ok id, db) => ⟨db, r.sent ++ [⟨id, recipients, msg, false⟩]⟩
  | (.error _, db) => ⟨db, r.sent⟩

def perform (r : RecordedDb μ) : RecordAction μ → RecordedDb μ
  | .sendToGroup gid targets msg fails =>
    r.record (.group gid targets) msg (r.db.sendToGroup fails gid targets msg)
  | .sendToDm fromUid toUid msg fails =>
    r.record (.dm fromUid toUid none) msg (r.db.sendToDm fails fromUid toUid msg)
  | .sendToDmWithPendingMarker fromUid toUid createdAtMillis msg fails =>
    r.record (.dm fromUid toUid (some createdAtMillis)) msg
      (r.db.sendToDmWithPendingMarker fails fromUid toUid createdAtMillis.toInt msg)
  | .insertMergedMsg mid msg => { r with db := r.db.insertMergedMsg mid.toInt msg }
  | .updateMergedMsg mid f => { r with db := r.db.updateMergedMsg mid.toInt f }
  | .removeMergedMsg mid => { r with db := r.db.removeMergedMsg mid.toInt }
  | .removePendingMessageMarker mid =>
    ⟨r.db.removePendingMessageMarker mid.toInt,
      r.sent.map (StoredMessage.removeMarker mid.toInt)⟩

/-- The database after a sequence of calls. -/
def after (as : List (RecordAction μ)) : RecordedDb μ := as.foldl perform created

end RecordedDb

/-! ### The map holds what was sent -/

/-- A key that a send writes. -/
def RecordKey.OfMessage : RecordKey → Prop
  | merged _ | sequence _ => False
  | _ => True

/-- The map holds the records of the messages sent; merged messages and the lease are apart. -/
structure RecordedDb.Inv {μ : Type} (r : RecordedDb μ) : Prop where
  leased : r.db.Leased
  ascending : r.sent.Pairwise fun m n ↦ m.mid < n.mid
  issued : ∀ m ∈ r.sent, IsMid m.mid ∧ m.mid < r.db.nextId
  keys : ∀ key v, r.db.db.get key = some v → ∃ k : RecordKey, k.IsI64 ∧ key = k.bytes
  stored : ∀ (k : RecordKey) v, k.IsI64 → k.OfMessage →
    (r.db.db.get k.bytes = some v ↔ ∃ m ∈ r.sent, m.Stores k v)

namespace RecordedDb

open MsgDb

variable {μ : Type} {r : RecordedDb μ}

theorem ofMessage_mid {k : RecordKey} (h : k.OfMessage) : ∃ mid, k.mid = some mid := by
  cases k with
  | merged mid => exact h.elim
  | sequence ty => exact h.elim
  | _ => exact ⟨_, rfl⟩

/-- The map at the start has the lease only. -/
theorem get_created {key : Bytes} (h : key ≠ keySequence msgSequenceTy) :
    (MsgDb.created : MsgDb μ).db.get key = none :=
  OrderedMap.get_insert_of_ne _ _ h

theorem inv_created : (created : RecordedDb μ).Inv where
  leased := wellFormed_created.leased
  ascending := List.Pairwise.nil
  issued m hm := absurd hm List.not_mem_nil
  keys key v hget := by
    by_cases hkey : key = keySequence msgSequenceTy
    · exact ⟨.sequence msgSequenceTy, trivial, hkey⟩
    · have hnone : (RecordedDb.created : RecordedDb μ).db.db.get key = none := get_created hkey
      rw [hnone] at hget
      cases hget
  stored k v _ hk := by
    obtain ⟨mid, hmid⟩ := ofMessage_mid hk
    have hnone : (RecordedDb.created : RecordedDb μ).db.db.get k.bytes = none :=
      get_created (k.bytes_ne_sequence hmid _)
    rw [hnone]
    refine iff_of_false (fun h ↦ by cases h) ?_
    rintro ⟨m, hm, -⟩
    exact absurd hm List.not_mem_nil

/-- Taking an id does not touch the records. -/
theorem Inv.of_sameRecords (h : r.Inv) {t : MsgDb μ} (ht : t.Leased)
    (hle : r.db.nextId ≤ t.nextId) (hsame : r.db.SameRecords t) : Inv ⟨t, r.sent⟩ where
  leased := ht
  ascending := h.ascending
  issued m hm := ⟨(h.issued m hm).1, lt_of_lt_of_le (h.issued m hm).2 hle⟩
  keys key v hget := by
    by_cases hkey : key = keySequence msgSequenceTy
    · exact ⟨.sequence msgSequenceTy, trivial, hkey⟩
    · exact h.keys key v ((hsame key hkey).symm.trans hget)
  stored k v hk hof := by
    obtain ⟨mid, hmid⟩ := ofMessage_mid hof
    show t.db.get k.bytes = some v ↔ _
    rw [hsame _ (k.bytes_ne_sequence hmid _)]
    exact h.stored k v hk hof

/-- A message under a new id adds its own records. -/
theorem Inv.applyBatch (h : r.Inv) {m : StoredMessage μ} (hmid : IsMid m.mid)
    (hnew : ∀ n ∈ r.sent, n.mid < m.mid) (hlt : m.mid < r.db.nextId)
    (hmarker : m.markerRemoved = false) :
    Inv ⟨r.db.applyBatch (m.recipients.batch m.msg m.mid), r.sent ++ [m]⟩ := by
  have hbatch : BatchOf m.mid (m.recipients.batch m.msg m.mid) := by
    rintro ⟨key, v⟩ he
    obtain ⟨k, hk, rfl⟩ := (StoredMessage.mem_batch hmarker).1 he
    exact ⟨k, hk.valid hmid, hk.mid_eq, rfl⟩
  have hseq : (r.db.db.insertAll (m.recipients.batch m.msg m.mid)).get (keySequence msgSequenceTy) =
      r.db.db.get (keySequence msgSequenceTy) := get_insertAll_sequence hbatch
  refine ⟨h.leased.of_get_sequence hseq, ?_, ?_, ?_, ?_⟩
  · refine List.pairwise_append.2 ⟨h.ascending, List.pairwise_singleton _ _, fun n hn m' hm' ↦ ?_⟩
    obtain rfl := List.mem_singleton.1 hm'
    exact hnew n hn
  · intro n hn
    show IsMid n.mid ∧ n.mid < nextId ⟨r.db.db.insertAll _, r.db.msgSequence⟩
    rw [nextId_of_get_sequence hseq]
    rcases List.mem_append.1 hn with hn | hn
    · exact h.issued n hn
    · obtain rfl := List.mem_singleton.1 hn
      exact ⟨hmid, hlt⟩
  · intro key v hget
    rcases OrderedMap.mem_or_get_of_get_insertAll hget with hmem | hget
    · obtain ⟨k, hk, rfl⟩ := (StoredMessage.mem_batch hmarker).1 hmem
      exact ⟨k, (hk.valid hmid).isI64, rfl⟩
    · exact h.keys key v hget
  · intro k v hk hof
    have hmem : ∀ w, (k.bytes, w) ∈ m.recipients.batch m.msg m.mid ↔ m.Stores k w := fun w ↦
      StoredMessage.mem_batch_bytes hmarker hmid hk
    show (r.db.db.insertAll _).get k.bytes = some v ↔ _
    rw [OrderedMap.get_insertAll_eq_some fun v w hv hw ↦ ((hmem v).1 hv).unique ((hmem w).1 hw),
      hmem, h.stored k v hk hof]
    simp only [List.mem_append, List.mem_singleton]
    constructor
    · rintro (hst | ⟨-, n, hn, hst⟩)
      · exact ⟨m, .inr rfl, hst⟩
      · exact ⟨n, .inl hn, hst⟩
    · rintro ⟨n, hn | rfl, hst⟩
      · -- the key carries the id of `n`, which is not the new one
        refine .inr ⟨fun w hw ↦ ?_, n, hn, hst⟩
        have hids := Option.some_inj.1 (hst.mid_eq.symm.trans ((hmem w).1 hw).mid_eq)
        have := hnew n hn
        omega
      · exact .inl hst

theorem Inv.record_send (h : r.Inv) (rs : Recipients) (msg : μ) (fails : StoreStep → Bool) :
    Inv (r.record rs msg (r.db.send fails (rs.batch msg))) := by
  rcases h.leased.send_cases (rs.batch msg) fails with
    ⟨-, -, t, hsend, ht, hlt, hsame⟩ | ⟨-, e, t, hsend, ht, hle, hsame⟩
  · rw [hsend]
    have ht := h.of_sameRecords ht hlt.le hsame
    exact ht.applyBatch (m := ⟨r.db.nextId, rs, msg, false⟩) h.leased.nextId_range
      (fun n hn ↦ (h.issued n hn).2) hlt rfl
  · rw [hsend]
    exact h.of_sameRecords ht hle hsame

/-- What happens at keys that no send writes does not matter. -/
theorem Inv.elsewhere (h : r.Inv) {map : OrderedMap Bytes (Blob μ)} {l : RecordKey} (hl : l.IsI64)
    {n : ℤ} (hn : l.mid = some n) (hof : ¬l.OfMessage)
    (hget : ∀ key, key ≠ l.bytes → map.get key = r.db.db.get key) :
    Inv ⟨⟨map, r.db.msgSequence⟩, r.sent⟩ := by
  have hseq := hget _ (l.bytes_ne_sequence hn msgSequenceTy).symm
  refine ⟨h.leased.of_get_sequence hseq, h.ascending, ?_, ?_, ?_⟩
  · intro m hm
    rw [nextId_of_get_sequence hseq]
    exact h.issued m hm
  · intro key v hkey
    by_cases heq : key = l.bytes
    · exact ⟨l, hl, heq⟩
    · exact h.keys key v ((hget key heq).symm.trans hkey)
  · intro k v hk hofk
    have hne : k.bytes ≠ l.bytes := by
      intro heq
      cases RecordKey.same_of_bytes hk hl heq with
      | refl => exact hof hofk
      | swap fromUid toUid mid => exact hof trivial
    show map.get k.bytes = some v ↔ _
    rw [hget _ hne]
    exact h.stored k v hk hofk

/-- Without a marker, only the record of the marker is gone. -/
theorem Inv.removeMarker (h : r.Inv) {mid : ℤ} (hmid : IsI64 mid) :
    Inv ⟨r.db.removePendingMessageMarker mid,
      r.sent.map (StoredMessage.removeMarker mid)⟩ := by
  have hseq : (r.db.db.erase (keyPendingMessageMarker mid)).get (keySequence msgSequenceTy) =
      r.db.db.get (keySequence msgSequenceTy) := by
    rw [OrderedMap.get_erase, if_neg]
    exact bytes_ne_of_head (by decide)
  refine ⟨h.leased.of_get_sequence hseq, ?_, ?_, ?_, ?_⟩
  · refine List.pairwise_map.2 (h.ascending.imp fun hlt ↦ ?_)
    rwa [StoredMessage.mid_removeMarker, StoredMessage.mid_removeMarker]
  · intro n hn
    obtain ⟨m, hm, rfl⟩ := List.mem_map.1 hn
    rw [StoredMessage.mid_removeMarker]
    show _ ∧ _ < nextId ⟨r.db.db.erase _, r.db.msgSequence⟩
    rw [nextId_of_get_sequence hseq]
    exact h.issued m hm
  · intro key v hget
    rw [removePendingMessageMarker, OrderedMap.get_erase] at hget
    split at hget
    · cases hget
    · exact h.keys key v hget
  · intro k v hk hof
    have hkey : k.bytes = keyPendingMessageMarker mid ↔ k = .pendingMarker mid := by
      constructor
      · intro heq
        cases RecordKey.same_of_bytes (l := .pendingMarker mid) hk hmid heq
        rfl
      · rintro rfl
        rfl
    rw [removePendingMessageMarker, OrderedMap.get_erase]
    simp only [List.mem_map, exists_exists_and_eq_and, StoredMessage.stores_removeMarker]
    by_cases hmarker : k = .pendingMarker mid
    · rw [if_pos (hkey.2 hmarker)]
      refine iff_of_false (fun heq ↦ by cases heq) ?_
      rintro ⟨m, -, -, hne⟩
      exact hne hmarker
    · rw [if_neg (mt hkey.1 hmarker), h.stored k v hk hof]
      exact exists_congr fun m ↦ and_congr_right fun _ ↦ (and_iff_left hmarker).symm

theorem Inv.perform (h : r.Inv) (a : RecordAction μ) : Inv (r.perform a) := by
  cases a with
  | sendToGroup gid targets msg fails =>
    have hbatch : (fun id ↦ groupBatch gid targets id msg) =
      (Recipients.group gid targets).batch msg :=
      funext fun id ↦ Recipients.groupBatch_eq gid targets id msg
    rw [RecordedDb.perform, sendToGroup, hbatch]
    exact h.record_send _ msg fails
  | sendToDm fromUid toUid msg fails =>
    have hbatch : (fun id ↦ dmBatch fromUid toUid none id msg) =
        (Recipients.dm fromUid toUid none).batch msg :=
      funext fun id ↦ Recipients.dmBatch_eq fromUid toUid none id msg
    rw [RecordedDb.perform, sendToDm, hbatch]
    exact h.record_send _ msg fails
  | sendToDmWithPendingMarker fromUid toUid createdAtMillis msg fails =>
    have hbatch : (fun id ↦ dmBatch fromUid toUid (some createdAtMillis.toInt) id msg) =
        (Recipients.dm fromUid toUid (some createdAtMillis)).batch msg :=
      funext fun id ↦ Recipients.dmBatch_eq fromUid toUid (some createdAtMillis) id msg
    rw [RecordedDb.perform, sendToDmWithPendingMarker, hbatch]
    exact h.record_send _ msg fails
  | insertMergedMsg mid msg =>
    exact h.elsewhere (l := .merged mid.toInt) (toInt_range mid) rfl id fun key hkey ↦
      OrderedMap.get_insert_of_ne _ _ hkey
  | updateMergedMsg mid f =>
    rw [RecordedDb.perform, updateMergedMsg]
    split
    · exact h.elsewhere (l := .merged mid.toInt) (toInt_range mid) rfl id fun key hkey ↦
        OrderedMap.get_insert_of_ne _ _ hkey
    · exact h
  | removeMergedMsg mid =>
    refine h.elsewhere (l := .merged mid.toInt) (toInt_range mid) rfl id fun key hkey ↦ ?_
    exact (OrderedMap.get_erase _ _ _).trans (if_neg hkey)
  | removePendingMessageMarker mid => exact h.removeMarker (toInt_range mid)

theorem inv_after (as : List (RecordAction μ)) : (after as).Inv :=
  Transition.foldl_induction (fun _ a h ↦ h.perform a) inv_created as

end RecordedDb

/-! ### The markers -/

theorem keyPendingMessageMarker_lt {m n : ℤ} (hm : IsMid m) (hn : IsMid n) :
    keyPendingMessageMarker m < keyPendingMessageMarker n ↔ m < n := by
  rw [keyPendingMessageMarker, keyPendingMessageMarker, append_lt_append_iff, beI64_lt hm hn]

namespace RecordedDb

variable {μ : Type} {r : RecordedDb μ}

/-- Entries that hold markers decode to them. -/
theorem collectMarkers_map {ms : List PendingMessageMarker} (hms : ∀ m ∈ ms, m.Fits) :
    MsgDb.collectMarkers (ms.map fun m ↦
      (keyPendingMessageMarker m.mid, (Blob.bytes m.value : Blob μ))) = .ok ms := by
  induction ms with
  | nil => rfl
  | cons m ms ih =>
    obtain ⟨hm, hrest⟩ := List.forall_mem_cons.1 hms
    rw [List.map_cons, MsgDb.collectMarkers, MsgDb.decodeMarker_eq_ok hm rfl, ih hrest]
    rfl

/-- The entries under the prefix of the markers are those of the messages sent. -/
theorem Inv.markerEntries (h : r.Inv) :
    (r.db.db.entries.filter fun e ↦ e.1.take 5 = ascii "PEND/") =
      (r.sent.filterMap StoredMessage.marker).map fun m ↦
        (keyPendingMessageMarker m.mid, .bytes m.value) := by
  have hirrefl : Std.Irrefl fun x y : Bytes × Blob μ ↦ x.1 < y.1 := ⟨fun x ↦ lt_irrefl x.1⟩
  refine List.Pairwise.eq_of_mem_iff (r := fun x y : Bytes × Blob μ ↦ x.1 < y.1)
    (r.db.db.sorted.filter _) ?_ fun e ↦ ?_
  · refine List.pairwise_map.2 (List.pairwise_filterMap.2 ?_)
    refine h.ascending.imp_of_mem fun {m n} hm hn hlt p hp q hq ↦ ?_
    rw [StoredMessage.marker_mid hp, StoredMessage.marker_mid hq,
      keyPendingMessageMarker_lt (h.issued m hm).1 (h.issued n hn).1]
    exact hlt
  · obtain ⟨key, v⟩ := e
    rw [List.mem_filter, ← OrderedMap.get_eq_some, decide_eq_true_iff, List.mem_map]
    simp only [List.mem_filterMap, Prod.mk.injEq]
    constructor
    · rintro ⟨hget, hprefix⟩
      obtain ⟨k, hk, rfl⟩ := h.keys key v hget
      obtain ⟨mid, rfl⟩ := pendingMarker_of_take hprefix
      obtain ⟨m, hm, rfl, p, hp, rfl⟩ := (h.stored _ v hk trivial).1 hget
      exact ⟨p, ⟨m, hm, hp⟩, congrArg _ (StoredMessage.marker_mid hp), rfl⟩
    · rintro ⟨p, ⟨m, hm, hp⟩, rfl, rfl⟩
      have hlength : (ascii "PEND/").length = 5 := by decide
      have hfits := StoredMessage.marker_fits (h.issued m hm).1 hp
      refine ⟨(h.stored (.pendingMarker p.mid) _ hfits.1.range trivial).2
        ⟨m, hm, StoredMessage.marker_mid hp, p, hp, rfl⟩, ?_⟩
      rw [keyPendingMessageMarker, ← hlength, List.take_left]

end RecordedDb

/-! ### The tables, one by one -/

/-- No table's scans or lookups meet the keys of another table, or of other arguments. -/
structure KeysApart : Prop where
  lookups : ∀ k l : RecordKey, k.IsI64 → l.IsI64 → (k.bytes = l.bytes ↔ k.Same l)
  scans : ∀ (i : MsgIndex) (k : RecordKey) (a b : ℤ), (i.key a).bytes ≤ k.bytes →
    k.bytes < (i.key b).bytes → ∃ mid, k.Same (i.key mid)
  markers : ∀ k : RecordKey, k.bytes.take 5 = ascii "PEND/" → ∃ mid, k = .pendingMarker mid

theorem keysApart : KeysApart where
  lookups _ _ hk hl := ⟨RecordKey.same_of_bytes hk hl, RecordKey.Same.bytes_eq⟩
  scans i k a b hlo hhi := by
    obtain ⟨mid, -, hsame⟩ := i.same_of_between hlo hhi
    exact ⟨mid, hsame⟩
  markers _ h := pendingMarker_of_take h

/-- What the tables have to do with the messages sent. -/
structure RecordedDb.Faithful {μ : Type} (r : RecordedDb μ) : Prop where
  /-- An id has a record exactly when it was returned by a send; no id is returned twice. -/
  messages : ∀ mid, IsI64 mid → ((r.db.getMsg mid).isSome ↔ ∃ m ∈ r.sent, m.mid = mid)
  distinct : (r.sent.map StoredMessage.mid).Nodup
  /-- A user's index has an entry exactly for the targets of the send. -/
  users : ∀ uid mid, IsI64 mid →
    ((r.db.db.get (keyUserMsg uid mid)).isSome ↔ ∃ m ∈ r.sent,
      m.mid = mid ∧ uid ∈ m.recipients.targets)
  /-- A message is in the index of its own conversation and in no other conversation's. -/
  conversations : ∀ m ∈ r.sent, ∀ i : MsgIndex, (∀ uid, i ≠ .user uid) →
    ((r.db.db.get (i.key m.mid).bytes).isSome ↔
      i = m.recipients.conversation ∨ i = m.recipients.conversation.swap)
  /-- Every entry of an index has the bytes of the record of its message. -/
  entries : ∀ (i : MsgIndex) mid v, IsI64 mid → r.db.db.get (i.key mid).bytes = some v →
    r.db.getMsg mid = some v
  stored : ∀ m ∈ r.sent, r.db.getMsg m.mid = some (.message m.msg)
  /-- A marker is there exactly for a pending send whose marker was not removed. -/
  markers : ∀ mid, IsI64 mid → ((r.db.db.get (keyPendingMessageMarker mid)).isSome ↔
    ∃ m ∈ r.sent, m.mid = mid ∧ m.markerRemoved = false ∧
      ∃ fromUid toUid createdAtMillis, m.recipients = .dm fromUid toUid (some createdAtMillis))
  /-- The markers decode to sender, target and time of those sends, in the order of the sends. -/
  decoded : r.db.pendingMessageMarkers = .ok (r.sent.filterMap StoredMessage.marker)

namespace RecordedDb

variable {μ : Type} {r : RecordedDb μ}

/-- A record is there exactly when some message is stored as it. -/
theorem Inv.isSome_get (h : r.Inv) {k : RecordKey} (hk : k.IsI64) (hof : k.OfMessage) :
    (r.db.db.get k.bytes).isSome ↔ ∃ m ∈ r.sent, ∃ v, m.Stores k v := by
  rw [Option.isSome_iff_exists]
  simp only [h.stored k _ hk hof]
  constructor
  · rintro ⟨v, m, hm, hst⟩
    exact ⟨m, hm, v, hst⟩
  · rintro ⟨m, hm, v, hst⟩
    exact ⟨v, m, hm, hst⟩

theorem ofMessage_key (i : MsgIndex) (mid : ℤ) : (i.key mid).OfMessage := by
  cases i <;> trivial

theorem Inv.isSome_index (h : r.Inv) (i : MsgIndex) {mid : ℤ} (hmid : IsI64 mid) :
    (r.db.db.get (i.key mid).bytes).isSome ↔
      ∃ m ∈ r.sent, m.mid = mid ∧ m.recipients.Listed i := by
  rw [h.isSome_get (i.isI64_key hmid) (ofMessage_key i mid)]
  simp only [StoredMessage.stores_key]
  exact exists_congr fun m ↦ and_congr_right fun _ ↦
    ⟨fun ⟨_, hst⟩ ↦ ⟨hst.1.symm, hst.2.1⟩, fun ⟨heq, hlisted⟩ ↦ ⟨_, heq.symm, hlisted, rfl⟩⟩

/-- An id names one message. -/
theorem Inv.eq_of_mid (h : r.Inv) {m n : StoredMessage μ} (hm : m ∈ r.sent) (hn : n ∈ r.sent)
    (heq : m.mid = n.mid) : m = n := by
  have hnodup : (r.sent.map StoredMessage.mid).Nodup :=
    List.nodup_iff_pairwise_ne.2 ((List.pairwise_map.2 h.ascending).imp ne_of_lt)
  exact List.inj_on_of_nodup_map hnodup hm hn heq

theorem Inv.getMsg (h : r.Inv) {m : StoredMessage μ} (hm : m ∈ r.sent) :
    r.db.getMsg m.mid = some (.message m.msg) :=
  (h.stored (.msg m.mid) _ (h.issued m hm).1.range trivial).2 ⟨m, hm, rfl, rfl⟩

theorem Inv.faithful (h : r.Inv) : r.Faithful where
  messages mid hmid := by
    have hget := h.isSome_get (k := .msg mid) hmid trivial
    refine hget.trans (exists_congr fun m ↦ and_congr_right fun _ ↦ ?_)
    exact ⟨fun ⟨_, hst⟩ ↦ hst.1.symm, fun heq ↦ ⟨_, heq.symm, rfl⟩⟩
  distinct := List.nodup_iff_pairwise_ne.2 ((List.pairwise_map.2 h.ascending).imp ne_of_lt)
  users uid mid hmid := by
    refine (h.isSome_index (.user uid) hmid).trans (exists_congr fun m ↦ and_congr_right fun _ ↦ ?_)
    rw [Recipients.listed_user]
  conversations m hm i hi := by
    rw [h.isSome_index i (h.issued m hm).1.range, ← Recipients.listed_conversation hi]
    constructor
    · rintro ⟨n, hn, heq, hlisted⟩
      rwa [← h.eq_of_mid hn hm heq]
    · exact fun hlisted ↦ ⟨m, hm, rfl, hlisted⟩
  entries i mid v hmid hget := by
    obtain ⟨m, hm, hst⟩ := (h.stored _ v (i.isI64_key hmid) (ofMessage_key i mid)).1 hget
    obtain ⟨rfl, -, rfl⟩ := StoredMessage.stores_key.1 hst
    exact h.getMsg hm
  stored _ hm := h.getMsg hm
  markers mid hmid := by
    have hget := h.isSome_get (k := .pendingMarker mid) hmid trivial
    refine hget.trans (exists_congr fun m ↦ and_congr_right fun _ ↦ ?_)
    rw [← StoredMessage.isSome_marker, Option.isSome_iff_exists]
    exact ⟨fun ⟨_, heq, p, hp, _⟩ ↦ ⟨heq.symm, p, hp⟩,
      fun ⟨heq, p, hp⟩ ↦ ⟨_, heq.symm, p, hp, rfl⟩⟩
  decoded := by
    rw [MsgDb.pendingMessageMarkers, h.markerEntries]
    refine collectMarkers_map fun p hp ↦ ?_
    obtain ⟨m, hm, hmp⟩ := List.mem_filterMap.1 hp
    exact StoredMessage.marker_fits (h.issued m hm).1 hmp

/-- **The tables are those of the messages sent**, after every sequence of calls, and no key of one
table or of one argument is met by the scans and lookups of another. -/
theorem faithful_after (as : List (RecordAction μ)) : (after as).Faithful ∧ KeysApart :=
  ⟨(inv_after as).faithful, keysApart⟩

end RecordedDb

end VoceChat
