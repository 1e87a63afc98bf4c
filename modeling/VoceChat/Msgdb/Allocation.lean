import Mathlib.Tactic.Common
import VoceChat.Msgdb.Store

/-!
# Message ids are used once

The store hands out message ids from a leased block and writes every record of a message under
keys that end in its id. `WellFormed` says that the lease is ahead of the ids handed out, and the
ids handed out ahead of the records: a new id names no record yet.

`generateMsgId_cases` and `send_cases` say once what the two operations can do. Everything later
about the store is derived from these and from `get_applyBatch`-style lookups in the batch.
-/

namespace VoceChat

open BigEndian Machine

namespace RecordKey

/-- The message id at the end of a key. -/
def mid : RecordKey → Option ℤ
  | msg mid | merged mid | pendingMarker mid | user _ mid | group _ mid | dm _ _ mid => some mid
  | sequence _ => none

theorem Valid.isMid {k : RecordKey} (hk : k.Valid) {m : ℤ} (hm : k.mid = some m) : IsMid m := by
  cases k with
  | sequence ty => cases hm
  | _ => exact Option.some_inj.1 hm ▸ hk

/-- A key with a message id ends in its eight bytes. -/
theorem bytes_eq_append {k : RecordKey} {m : ℤ} (hm : k.mid = some m) :
    ∃ front, k.bytes = front ++ beI64 m := by
  cases k with
  | sequence ty => cases hm
  | _ =>
    obtain rfl := Option.some_inj.1 hm
    exact ⟨_, rfl⟩

/-- Equal keys have equal message ids. -/
theorem mid_inj {k l : RecordKey} (hk : k.Valid) (hl : l.Valid) {m n : ℤ} (hm : k.mid = some m)
    (hn : l.mid = some n) (h : k.bytes = l.bytes) : m = n := by
  obtain ⟨front, hfront⟩ := bytes_eq_append hm
  obtain ⟨front', hfront'⟩ := bytes_eq_append hn
  rw [hfront, hfront'] at h
  obtain ⟨-, hback⟩ := List.append_inj' h (by rw [length_beI64, length_beI64])
  exact beI64_inj (hk.isMid hm).range (hl.isMid hn).range hback

/-- The record of a sequence is not the record of a message. -/
theorem bytes_ne_sequence {k : RecordKey} {m : ℤ} (hm : k.mid = some m) (ty : Byte) :
    k.bytes ≠ keySequence ty := by
  cases k with
  | sequence ty => cases hm
  | _ => exact bytes_ne_of_head (by decide)

end RecordKey

namespace MsgDb

variable {μ : Type} {s t : MsgDb μ} {fails : StoreStep → Bool}

/-- The end of the last lease; `1` where no id was ever leased. -/
def leaseEnd (s : MsgDb μ) : ℤ := (readLease s.db).toOption.getD 1

/-- The id the store hands out next. -/
def nextId (s : MsgDb μ) : ℤ :=
  if s.msgSequence.next < s.msgSequence.leased then s.msgSequence.next else s.leaseEnd

/-- The keys are the crate's, with message ids below `b`. -/
def KeysBelow (s : MsgDb μ) (b : ℤ) : Prop :=
  ∀ key v, s.db.get key = some v →
    ∃ k : RecordKey, k.Valid ∧ key = k.bytes ∧ ∀ mid ∈ k.mid, mid < b

/-- The lease on disk is ahead of the one in memory, and that ahead of the next id. -/
structure Leased (s : MsgDb μ) : Prop where
  lease : ∃ l, readLease s.db = .ok l ∧ s.msgSequence.leased ≤ l ∧ 0 < l ∧ l < i64Size
  next : 0 ≤ s.msgSequence.next ∧ s.msgSequence.next ≤ s.msgSequence.leased

structure WellFormed (s : MsgDb μ) : Prop where
  lease : ∃ l, readLease s.db = .ok l ∧ s.msgSequence.leased ≤ l ∧ 0 < l ∧ l < i64Size
  next : 0 ≤ s.msgSequence.next ∧ s.msgSequence.next ≤ s.msgSequence.leased
  keys : s.KeysBelow s.nextId

theorem WellFormed.leased (hw : s.WellFormed) : s.Leased := ⟨hw.lease, hw.next⟩

/-- There is an id left in the block, or a new block can be leased. -/
def CanAllocate (s : MsgDb μ) (fails : StoreStep → Bool) : Prop :=
  s.msgSequence.next < s.msgSequence.leased ∨
    fails .lease = false ∧ s.leaseEnd + sequenceBandwidth < i64Size

instance : Decidable (s.CanAllocate fails) := inferInstanceAs (Decidable (_ ∨ _))

/-- The messages of two states are the same; the sequence record may differ. -/
def SameRecords (s t : MsgDb μ) : Prop :=
  ∀ key, key ≠ keySequence msgSequenceTy → t.db.get key = s.db.get key

theorem SameRecords.refl (s : MsgDb μ) : s.SameRecords s := fun _ _ ↦ rfl

theorem KeysBelow.mono {a b : ℤ} (h : s.KeysBelow a) (hab : a ≤ b) : s.KeysBelow b := by
  intro key v hget
  obtain ⟨k, hk, hkey, hlt⟩ := h key v hget
  exact ⟨k, hk, hkey, fun mid hmid ↦ lt_of_lt_of_le (hlt mid hmid) hab⟩

theorem KeysBelow.keysValid {b : ℤ} (h : s.KeysBelow b) : s.KeysValid := by
  intro e he
  obtain ⟨k, hk, hkey, -⟩ := h e.1 e.2 (OrderedMap.get_eq_some.2 he)
  exact ⟨k, hk, hkey⟩

/-- An id that is not below the bound has no record. -/
theorem KeysBelow.get_eq_none {b : ℤ} (h : s.KeysBelow b) {k : RecordKey} (hk : k.Valid) {m : ℤ}
    (hm : k.mid = some m) (hle : b ≤ m) : s.db.get k.bytes = none := by
  rw [Option.eq_none_iff_forall_ne_some]
  intro v hget
  obtain ⟨l, hl, hkey, hlt⟩ := h _ v hget
  cases hn : l.mid with
  | none =>
    cases l with
    | sequence ty => exact k.bytes_ne_sequence hm ty hkey
    | _ => cases hn
  | some n =>
    have := hlt n hn
    obtain rfl : m = n := RecordKey.mid_inj hk hl hm hn hkey
    omega

theorem leaseEnd_eq {l : ℤ} (h : readLease s.db = .ok l) : s.leaseEnd = l := by
  rw [leaseEnd, h]
  rfl

theorem readLease_insert_lease (db : OrderedMap Bytes (Blob μ)) {l : ℤ} (hl : IsMid l) :
    readLease (db.insert (keySequence msgSequenceTy) (.bytes (beI64 l))) = .ok l := by
  rw [readLease, OrderedMap.get_insert_self]
  show (if (beI64 l).length = 8 then _ else _) = _
  rw [if_pos (length_beI64 l), fromBeI64_beI64 hl.range]

/-- What leasing a block does when the last lease can be read. -/
theorem updateSequenceLease_eq {db : OrderedMap Bytes (Blob μ)} {l : ℤ} (h : readLease db = .ok l) :
    updateSequenceLease fails db =
      if fails .lease then .error .sled
      else if l + sequenceBandwidth < i64Size then
        .ok (⟨l, l + sequenceBandwidth⟩,
          db.insert (keySequence msgSequenceTy) (.bytes (beI64 (l + sequenceBandwidth))))
      else .error .overflow := by
  rw [updateSequenceLease, h]
  rfl

theorem wellFormed_created : (created : MsgDb μ).WellFormed where
  lease := ⟨33, readLease_insert_lease _ (by decide), le_rfl, by decide, by decide⟩
  next := by
    show (0 : ℤ) ≤ 1 ∧ (1 : ℤ) ≤ 33
    decide
  keys key v hget := by
    refine ⟨.sequence msgSequenceTy, trivial, ?_, fun _ h ↦ by cases h⟩
    by_contra hkey
    have hnone : (created : MsgDb μ).db.get key = none := OrderedMap.get_insert_of_ne _ _ hkey
    rw [hnone] at hget
    cases hget

theorem getMsg_created (mid : ℤ) : (created : MsgDb μ).getMsg mid = none :=
  OrderedMap.get_insert_of_ne _ _ (bytes_ne_of_head (by decide))

/-- The next id is below the end of a lease that is an `i64`. -/
theorem Leased.nextId_range (hw : s.Leased) : 0 ≤ s.nextId ∧ s.nextId < i64Size := by
  obtain ⟨l, hl, hle, hpos, hlt⟩ := hw.lease
  have := hw.next
  rw [nextId, leaseEnd_eq hl]
  split <;> omega

theorem WellFormed.nextId_pos (hw : s.WellFormed) : 0 ≤ s.nextId ∧ s.nextId < i64Size :=
  hw.leased.nextId_range

/-! ### Taking an id -/

theorem generateMsgId_of_lt (h : s.msgSequence.next < s.msgSequence.leased) :
    s.generateMsgId fails =
      (.ok s.nextId, ⟨s.db, ⟨s.msgSequence.next + 1, s.msgSequence.leased⟩⟩) := by
  rw [generateMsgId, if_pos h, nextId, if_pos h]

theorem Leased.generateMsgId_of_le (hw : s.Leased)
    (h : ¬s.msgSequence.next < s.msgSequence.leased) (hfails : fails .lease = false)
    (hroom : s.leaseEnd + sequenceBandwidth < i64Size) :
    s.generateMsgId fails = (.ok s.nextId,
      ⟨s.db.insert (keySequence msgSequenceTy) (.bytes (beI64 (s.leaseEnd + sequenceBandwidth))),
        ⟨s.leaseEnd + 1, s.leaseEnd + sequenceBandwidth⟩⟩) := by
  obtain ⟨l, hl, -⟩ := hw.lease
  rw [leaseEnd_eq hl] at hroom
  rw [generateMsgId, if_neg h, nextId, if_neg h, leaseEnd_eq hl, updateSequenceLease_eq hl, hfails,
    if_neg Bool.false_ne_true, if_pos hroom]

theorem Leased.generateMsgId_of_not (hw : s.Leased) (h : ¬s.CanAllocate fails) :
    ∃ e, s.generateMsgId fails = (.error e, s) := by
  obtain ⟨hnext, hlease⟩ := not_or.1 h
  obtain ⟨l, hl, -⟩ := hw.lease
  rw [leaseEnd_eq hl] at hlease
  rw [generateMsgId, if_neg hnext, updateSequenceLease_eq hl]
  cases hfails : fails .lease with
  | true => exact ⟨.sled, rfl⟩
  | false =>
    rw [if_neg Bool.false_ne_true, if_neg fun hroom ↦ hlease ⟨hfails, hroom⟩]
    exact ⟨.overflow, rfl⟩

/-- **What taking an id does**: the id is `nextId`, later ids are larger, and no message changes. -/
theorem Leased.generateMsgId_cases (hw : s.Leased) (fails : StoreStep → Bool) :
    (s.CanAllocate fails ∧ ∃ t, s.generateMsgId fails = (.ok s.nextId, t) ∧ t.Leased ∧
      s.nextId < t.nextId ∧ s.SameRecords t) ∨
    (¬s.CanAllocate fails ∧ ∃ e, s.generateMsgId fails = (.error e, s)) := by
  by_cases hcan : s.CanAllocate fails
  · refine .inl ⟨hcan, ?_⟩
    obtain ⟨l, hl, hle, hpos, hlt⟩ := hw.lease
    have hnext := hw.next
    by_cases h : s.msgSequence.next < s.msgSequence.leased
    · have hend : leaseEnd ⟨s.db, ⟨s.msgSequence.next + 1, s.msgSequence.leased⟩⟩ = l :=
        leaseEnd_eq hl
      have hgrow : s.nextId <
          nextId ⟨s.db, ⟨s.msgSequence.next + 1, s.msgSequence.leased⟩⟩ := by
        rw [nextId, if_pos h, nextId, hend]
        show s.msgSequence.next <
          if s.msgSequence.next + 1 < s.msgSequence.leased then s.msgSequence.next + 1 else l
        split <;> omega
      refine ⟨_, generateMsgId_of_lt h, ⟨⟨l, hl, hle, hpos, hlt⟩, ?_⟩, hgrow, fun _ _ ↦ rfl⟩
      show 0 ≤ s.msgSequence.next + 1 ∧ s.msgSequence.next + 1 ≤ s.msgSequence.leased
      omega
    · obtain ⟨hfails, hroom⟩ := hcan.resolve_left h
      have hband : sequenceBandwidth = 32 := rfl
      rw [leaseEnd_eq hl] at hroom
      have hend : IsMid (l + sequenceBandwidth) := ⟨by omega, hroom⟩
      have hid : s.nextId = l := by rw [nextId, if_neg h, leaseEnd_eq hl]
      refine ⟨_, hw.generateMsgId_of_le h hfails (leaseEnd_eq hl ▸ hroom), ?_⟩
      rw [leaseEnd_eq hl, hid]
      have hid' : nextId (⟨s.db.insert (keySequence msgSequenceTy)
          (.bytes (beI64 (l + sequenceBandwidth))), ⟨l + 1, l + sequenceBandwidth⟩⟩ : MsgDb μ) =
          l + 1 := by
        rw [nextId, if_pos]
        show l + 1 < l + sequenceBandwidth
        omega
      refine ⟨⟨⟨_, readLease_insert_lease _ hend, le_rfl, by omega, hroom⟩, ?_⟩, ?_,
        fun key hkey ↦ OrderedMap.get_insert_of_ne _ _ hkey⟩
      · show 0 ≤ l + 1 ∧ l + 1 ≤ l + sequenceBandwidth
        omega
      · omega
  · exact .inr ⟨hcan, hw.generateMsgId_of_not hcan⟩

/-- A state with the records of another, as far as messages go, has its keys too. -/
theorem SameRecords.keysBelow (h : s.SameRecords t) {a b : ℤ} (hkeys : s.KeysBelow a)
    (hab : a ≤ b) : t.KeysBelow b := by
  intro key v hget
  by_cases hkey : key = keySequence msgSequenceTy
  · exact ⟨.sequence msgSequenceTy, trivial, hkey, fun _ h ↦ by cases h⟩
  · rw [h key hkey] at hget
    exact hkeys.mono hab key v hget

theorem WellFormed.generateMsgId_cases (hw : s.WellFormed) (fails : StoreStep → Bool) :
    (s.CanAllocate fails ∧ ∃ t, s.generateMsgId fails = (.ok s.nextId, t) ∧ t.WellFormed ∧
      s.nextId < t.nextId ∧ s.SameRecords t) ∨
    (¬s.CanAllocate fails ∧ ∃ e, s.generateMsgId fails = (.error e, s)) := by
  refine (hw.leased.generateMsgId_cases fails).imp_left ?_
  rintro ⟨hcan, t, hid, ht, hlt, hsame⟩
  exact ⟨hcan, t, hid, ⟨ht.lease, ht.next, hsame.keysBelow hw.keys hlt.le⟩, hlt, hsame⟩

theorem leaseEnd_of_get_sequence
    (h : t.db.get (keySequence msgSequenceTy) = s.db.get (keySequence msgSequenceTy)) :
    t.leaseEnd = s.leaseEnd := by
  rw [leaseEnd, leaseEnd, readLease, readLease, h]

/-- An id costs at most one lease. -/
theorem WellFormed.leaseEnd_generateMsgId (hw : s.WellFormed) :
    (s.generateMsgId fails).2.leaseEnd ≤ s.leaseEnd + sequenceBandwidth := by
  have hband : sequenceBandwidth = 32 := rfl
  by_cases h : s.msgSequence.next < s.msgSequence.leased
  · have hsame : leaseEnd ⟨s.db, ⟨s.msgSequence.next + 1, s.msgSequence.leased⟩⟩ = s.leaseEnd :=
      leaseEnd_of_get_sequence rfl
    rw [generateMsgId_of_lt h, hsame]
    omega
  · by_cases hcan : s.CanAllocate fails
    · obtain ⟨hfails, hroom⟩ := hcan.resolve_left h
      obtain ⟨l, hl, -, hpos, -⟩ := hw.lease
      rw [hw.leased.generateMsgId_of_le h hfails hroom]
      rw [leaseEnd_eq hl] at hroom ⊢
      exact (leaseEnd_eq (readLease_insert_lease _ ⟨by omega, hroom⟩)).le
    · obtain ⟨e, he⟩ := hw.leased.generateMsgId_of_not hcan
      rw [he]
      show s.leaseEnd ≤ _
      omega

/-! ### Writing the records of an id -/

/-- The batch writes records of this message id only. -/
def BatchOf (id : ℤ) (batch : List (Bytes × Blob μ)) : Prop :=
  ∀ e ∈ batch, ∃ k : RecordKey, k.Valid ∧ k.mid = some id ∧ e.1 = k.bytes

theorem groupBatch_batchOf (gid : Int64) (targets : List Int64) {id : ℤ} (hid : IsMid id)
    (msg : μ) : BatchOf id (groupBatch gid targets id msg) := by
  intro e he
  simp only [groupBatch, List.mem_append, List.mem_cons, List.mem_map, List.not_mem_nil,
    or_false] at he
  rcases he with (rfl | ⟨uid, -, rfl⟩) | rfl
  · exact ⟨.msg id, hid, rfl, rfl⟩
  · exact ⟨.user uid id, hid, rfl, rfl⟩
  · exact ⟨.group gid id, hid, rfl, rfl⟩

theorem dmBatch_batchOf (fromUid toUid : Int64) (pending : Option ℤ) {id : ℤ} (hid : IsMid id)
    (msg : μ) : BatchOf id (dmBatch fromUid toUid pending id msg) := by
  intro e he
  simp only [dmBatch, List.mem_append, List.mem_cons, List.mem_map, List.not_mem_nil,
    or_false, Option.mem_toList, Option.map_eq_some_iff] at he
  rcases he with ((rfl | ⟨uid, -, rfl⟩) | rfl) | ⟨createdAt, -, rfl⟩
  · exact ⟨.msg id, hid, rfl, rfl⟩
  · exact ⟨.user uid id, hid, rfl, rfl⟩
  · exact ⟨.dm fromUid toUid id, hid, rfl, rfl⟩
  · exact ⟨.pendingMarker id, hid, rfl, rfl⟩

/-- Records of other ids, and the sequence record, are not touched. -/
theorem get_insertAll_of_batchOf {db : OrderedMap Bytes (Blob μ)} {id : ℤ}
    {batch : List (Bytes × Blob μ)} (hbatch : BatchOf id batch) {k : RecordKey} (hk : k.Valid)
    (hne : k.mid ≠ some id) : (db.insertAll batch).get k.bytes = db.get k.bytes := by
  refine OrderedMap.get_insertAll_of_notMem fun e he heq ↦ ?_
  obtain ⟨l, hl, hmid, hkey⟩ := hbatch e he
  rw [hkey] at heq
  cases hm : k.mid with
  | none =>
    cases k with
    | sequence ty => exact l.bytes_ne_sequence hmid ty heq
    | _ => cases hm
  | some m => exact hne (hm.trans (congrArg some (RecordKey.mid_inj hk hl hm hmid heq.symm)))

theorem get_insertAll_sequence {db : OrderedMap Bytes (Blob μ)} {id : ℤ}
    {batch : List (Bytes × Blob μ)} (hbatch : BatchOf id batch) :
    (db.insertAll batch).get (keySequence msgSequenceTy) = db.get (keySequence msgSequenceTy) :=
  get_insertAll_of_batchOf (k := .sequence msgSequenceTy) hbatch trivial (by intro h; cases h)

theorem nextId_of_get_sequence {db : OrderedMap Bytes (Blob μ)}
    (h : db.get (keySequence msgSequenceTy) = s.db.get (keySequence msgSequenceTy)) :
    nextId ⟨db, s.msgSequence⟩ = s.nextId := by
  rw [nextId, nextId, leaseEnd, leaseEnd, readLease, readLease, h]

/-- A change elsewhere in the map does not touch the lease. -/
theorem Leased.of_get_sequence (hw : s.Leased) {db : OrderedMap Bytes (Blob μ)}
    (h : db.get (keySequence msgSequenceTy) = s.db.get (keySequence msgSequenceTy)) :
    Leased ⟨db, s.msgSequence⟩ := by
  refine ⟨?_, hw.next⟩
  obtain ⟨l, hl, hrest⟩ := hw.lease
  refine ⟨l, ?_, hrest⟩
  rw [← hl, readLease, readLease, h]

/-- Writing records of ids that were handed out keeps the store well formed. -/
theorem WellFormed.insertAll (hw : s.WellFormed) {id : ℤ} (hid : id < s.nextId)
    {batch : List (Bytes × Blob μ)} (hbatch : BatchOf id batch) :
    WellFormed (s.applyBatch batch) := by
  have hseq : (s.db.insertAll batch).get (keySequence msgSequenceTy) =
      s.db.get (keySequence msgSequenceTy) := get_insertAll_sequence hbatch
  refine ⟨(hw.leased.of_get_sequence hseq).lease, hw.next, ?_⟩
  · rw [applyBatch, nextId_of_get_sequence hseq]
    intro key v hget
    by_cases hmem : ∃ e ∈ batch, e.1 = key
    · obtain ⟨e, he, rfl⟩ := hmem
      obtain ⟨k, hk, hmid, hkey⟩ := hbatch e he
      refine ⟨k, hk, hkey, fun mid hm ↦ ?_⟩
      obtain rfl : id = mid := Option.some_inj.1 (hmid.symm.trans hm)
      exact hid
    · rw [OrderedMap.get_insertAll_of_notMem fun e he heq ↦ hmem ⟨e, he, heq⟩] at hget
      exact hw.keys key v hget

/-- So does one more record of an id that was handed out. -/
theorem WellFormed.insert (hw : s.WellFormed) {k : RecordKey} (hk : k.Valid) {m : ℤ}
    (hm : k.mid = some m) (hlt : m < s.nextId) (v : Blob μ) :
    WellFormed ⟨s.db.insert k.bytes v, s.msgSequence⟩ ∧
      nextId ⟨s.db.insert k.bytes v, s.msgSequence⟩ = s.nextId := by
  have hof : BatchOf m [(k.bytes, v)] := fun e he ↦
    ⟨k, hk, hm, (Prod.ext_iff.1 (List.mem_singleton.1 he)).1⟩
  exact ⟨hw.insertAll hlt hof, nextId_of_get_sequence (get_insertAll_sequence hof)⟩

/-! ### Sending -/

variable {batch : ℤ → List (Bytes × Blob μ)}

/-- The batch of an id writes records of that id only. -/
def Batches (batch : ℤ → List (Bytes × Blob μ)) : Prop := ∀ id, IsMid id → BatchOf id (batch id)

/-- **What a send does**: the batch is written under a new id, or no message changes. -/
theorem Leased.send_cases (hw : s.Leased) (batch : ℤ → List (Bytes × Blob μ))
    (fails : StoreStep → Bool) :
    (s.CanAllocate fails ∧ fails .applyBatch = false ∧ ∃ t, s.send fails batch =
      (.ok s.nextId, t.applyBatch (batch s.nextId)) ∧ t.Leased ∧ s.nextId < t.nextId ∧
        s.SameRecords t) ∨
    (¬(s.CanAllocate fails ∧ fails .applyBatch = false) ∧ ∃ e t,
      s.send fails batch = (.error e, t) ∧
      t.Leased ∧ s.nextId ≤ t.nextId ∧ s.SameRecords t) := by
  rcases hw.generateMsgId_cases fails with ⟨hcan, t, hid, ht, hlt, hsame⟩ | ⟨hcan, e, he⟩
  · rw [MsgDb.send, hid]
    cases hfails : fails .applyBatch with
    | true =>
      exact .inr ⟨fun h ↦ Bool.true_eq_false_eq_False h.2, .sled, t, rfl, ht, hlt.le, hsame⟩
    | false => exact .inl ⟨hcan, rfl, t, rfl, ht, hlt, hsame⟩
  · rw [MsgDb.send, he]
    exact .inr ⟨fun h ↦ hcan h.1, e, s, rfl, hw, le_rfl, .refl s⟩

theorem WellFormed.send_cases (hw : s.WellFormed) (hbatch : Batches batch)
    (fails : StoreStep → Bool) :
    (s.CanAllocate fails ∧ fails .applyBatch = false ∧ ∃ t u, s.send fails batch =
      (.ok s.nextId, u) ∧ u = t.applyBatch (batch s.nextId) ∧ u.WellFormed ∧
        s.nextId < u.nextId ∧ s.SameRecords t) ∨
    (¬(s.CanAllocate fails ∧ fails .applyBatch = false) ∧ ∃ e t,
      s.send fails batch = (.error e, t) ∧
      t.WellFormed ∧ s.SameRecords t) := by
  refine (hw.leased.send_cases batch fails).imp ?_ ?_
  · rintro ⟨hcan, hfails, t, hsend, ht, hlt, hsame⟩
    have hof := hbatch _ hw.nextId_pos
    have hwt : t.WellFormed := ⟨ht.lease, ht.next, hsame.keysBelow hw.keys hlt.le⟩
    refine ⟨hcan, hfails, t, _, hsend, rfl, hwt.insertAll hlt hof, ?_, hsame⟩
    rw [applyBatch, nextId_of_get_sequence (get_insertAll_sequence hof)]
    exact hlt
  · rintro ⟨hcannot, e, t, hsend, ht, hle, hsame⟩
    exact ⟨hcannot, e, t, hsend, ⟨ht.lease, ht.next, hsame.keysBelow hw.keys hle⟩, hsame⟩

end MsgDb

end VoceChat
