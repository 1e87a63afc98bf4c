import Mathlib.Data.List.Nodup
import VoceChat.Foundations.Journal
import VoceChat.Foundations.Run
import VoceChat.Message.SendLaws

/-!
# Message ids across restarts (`crates/msgdb/src/sequence.rs`, `db.rs`)

`DurableDb` is the message database of a server that is started, stopped and crashes. What sled has
written is a journal, and a crash keeps a prefix of it. The open database is a `Sequence` in memory;
the sends that took an id write their batch and their merged copy later, in any order.

Opening leases a block of ids at once, and closing returns what is left of it. Both are writes to
the journal like any other. The invariant is that wherever the journal is cut, the bound that is
found is above all ids that have records there (`Sound`): a batch is always written after the lease
its id is from.
-/

namespace VoceChat

open Machine MsgDb

/-- A write to sled. -/
inductive SledWrite where
  | lease
  | release
  /-- The batch of a message. -/
  | batch (mid : ℤ)
  | merged (mid : ℤ)
  | removeMarker (mid : ℤ)
  deriving DecidableEq, Repr

/-- A send that has an id. -/
structure NumberedSend where
  id : ℤ
  prepared : Prepared
  /-- Its batch is written. -/
  stored : Bool

abbrev SledMap := OrderedMap Bytes (Blob Stored)

structure DurableDb where
  sled : Journal SledWrite SledMap
  /-- The block of ids of the open database. -/
  sequence : Option Sequence
  sends : List NumberedSend
  /-- The ids handed out since the last crash, newest first. -/
  issued : List ℤ

inductive DbAction where
  /-- `MsgDb::open`. -/
  | openDb
  /-- A send takes its id; `fails` says whether sled refuses to lease. -/
  | generate (p : Prepared) (fails : Bool)
  | applyBatch (i : ℕ)
  | storeMerged (i : ℕ)
  /-- The send is over, or given up. -/
  | finish (i : ℕ)
  | removeMarker (mid : ℤ)
  /-- The database is dropped, which waits for every send that uses it; `fails` says whether the
  write is refused. -/
  | close (fails : Bool)
  | crash (n : ℕ)

namespace DurableDb

def init : DurableDb := ⟨⟨OrderedMap.empty, []⟩, none, [], []⟩

/-- The records there are. -/
def map (s : DurableDb) : SledMap := s.sled.now

/-- The open database. -/
def msgDb (s : DurableDb) (seq : Sequence) : MsgDb Stored := ⟨s.map, seq⟩

/-- `Sequence::release`. -/
def release (s : DurableDb) (seq : Sequence) : DurableDb :=
  let map := s.map.insert (keySequence msgSequenceTy) (.bytes (beI64 seq.next))
  { s with sled := s.sled.write .release map }

/-- A step of a send that has its id. -/
def stepSend (s : DurableDb) (i : ℕ) (f : Sequence → NumberedSend → Option DurableDb) :
    Option DurableDb :=
  s.sequence.bind fun seq ↦ s.sends[i]?.bind (f seq)

def step (s : DurableDb) : DbAction → Option DurableDb
  | .openDb =>
    match s.sequence, MsgDb.openDb (fun _ ↦ false) s.map with
    | none, .ok db =>
      some { s with sled := s.sled.write .lease db.db, sequence := some db.msgSequence }
    | _, _ => none
  | .generate p fails => s.sequence.bind fun seq ↦
      match (s.msgDb seq).generateMsgId fun _ ↦ fails with
      | (.error _, _) => some s
      | (.ok id, db) => some
        { sled := if seq.next < seq.leased then s.sled else s.sled.write .lease db.db
          sequence := some db.msgSequence
          sends := s.sends ++ [⟨id, p, false⟩]
          issued := id :: s.issued }
  | .applyBatch i => s.stepSend i fun seq r ↦
      if r.stored then none
      else
        let db := (s.msgDb seq).applyBatch (r.prepared.batch r.id)
        some { s with
          sled := s.sled.write (.batch r.id) db.db
          sends := s.sends.set i { r with stored := true } }
  | .storeMerged i => s.stepSend i fun seq r ↦
      if r.stored then
        let db := (VoceChat.storeMerged (fun _ ↦ false) (s.msgDb seq) r.prepared.payload r.id).2
        some { s with sled := s.sled.write (.merged r.id) db.db }
      else none
  | .finish i => s.stepSend i fun _ _ ↦ some { s with sends := s.sends.eraseIdx i }
  | .removeMarker mid => s.sequence.bind fun _ ↦
      let map := s.map.erase (keyPendingMessageMarker mid)
      some { s with sled := s.sled.write (.removeMarker mid) map }
  | .close fails => s.sequence.bind fun seq ↦
      if s.sends.isEmpty then
        let t := if fails then s else s.release seq
        some { t with sequence := none }
      else none
  | .crash n => some ⟨s.sled.crash n, none, [], []⟩

/-! ### The invariant -/

/-- All keys are the crate's, and the bound of the sequence is above all ids that have records. -/
def Sound (map : SledMap) : Prop :=
  ∃ l, readLease map = .ok l ∧ 0 < l ∧ l < i64Size ∧ KeysBelow ⟨map, ⟨0, 0⟩⟩ l

/-- What is true while the database is open with this block. -/
structure Open (s : DurableDb) (seq : Sequence) : Prop where
  lease : readLease s.map = .ok seq.leased
  range : 0 < seq.next ∧ seq.next ≤ seq.leased ∧ seq.leased < i64Size
  keys : KeysBelow (s.msgDb seq) seq.next
  issued : ∀ id ∈ s.issued, id < seq.next

structure Inv (s : DurableDb) : Prop where
  prefixes : s.sled.EveryPrefix fun j ↦ Sound j.now
  running : ∀ seq ∈ s.sequence, s.Open seq
  stopped : s.sequence = none → s.sends = [] ∧ ∀ l, readLease s.map = .ok l →
    ∀ id ∈ s.issued, id < l
  issued : s.issued.Pairwise fun a b ↦ b < a
  sends : ∀ r ∈ s.sends, IsMid r.id ∧ r.id ∈ s.issued
  ids : (s.sends.map NumberedSend.id).Nodup
  fresh : ∀ r ∈ s.sends, r.stored = false → ∀ k : RecordKey, k.Valid → k.mid = some r.id →
    s.map.get k.bytes = none

theorem Sound.keysBelow {map : SledMap} (h : Sound map) {l : ℤ} (hl : readLease map = .ok l)
    (seq : Sequence) : 0 < l ∧ l < i64Size ∧ KeysBelow (⟨map, seq⟩ : MsgDb Stored) l := by
  obtain ⟨l', hl', hpos, hlt, hkeys⟩ := h
  obtain rfl : l' = l := Except.ok.inj (hl'.symm.trans hl)
  exact ⟨hpos, hlt, hkeys⟩

theorem readLease_eq_of_get {map map' : SledMap}
    (h : map.get (keySequence msgSequenceTy) = map'.get (keySequence msgSequenceTy)) :
    readLease map = readLease map' := by
  rw [readLease, readLease, h]

variable {s t : DurableDb} {seq : Sequence} {i : ℕ} {r : NumberedSend}

theorem Open.sound (h : s.Open seq) : Sound s.map :=
  ⟨seq.leased, h.lease, by have := h.range; omega, h.range.2.2, h.keys.mono h.range.2.1⟩

/-- An open database hands out `next`. -/
theorem Open.nextId (h : s.Open seq) : (s.msgDb seq).nextId = seq.next := by
  have hend : (s.msgDb seq).leaseEnd = seq.leased := leaseEnd_eq h.lease
  have := h.range
  rw [MsgDb.nextId, hend]
  show (if seq.next < seq.leased then seq.next else seq.leased) = seq.next
  split <;> omega

theorem Open.wellFormed (h : s.Open seq) : (s.msgDb seq).WellFormed where
  lease := ⟨seq.leased, h.lease, le_rfl, by have := h.range; omega, h.range.2.2⟩
  next := by
    have := h.range
    exact ⟨this.1.le, this.2.1⟩
  keys := h.nextId ▸ h.keys

theorem inv_init : init.Inv where
  prefixes := Journal.everyPrefix_start
    ⟨1, rfl, by decide, by decide, fun _ _ hget ↦ by cases hget⟩
  running _ h := nomatch h
  stopped _ := ⟨rfl, fun _ _ _ h ↦ nomatch h⟩
  issued := List.Pairwise.nil
  sends _ h := nomatch h
  ids := List.nodup_nil
  fresh _ h := nomatch h

/-! ### The steps -/

/-- A new write of an open database: the records stay below `next`, and the lease is the one in
memory. -/
theorem Inv.write (h : s.Inv) (hseq : s.sequence = some seq) {w : SledWrite} {map : SledMap}
    (hlease : readLease map = .ok seq.leased)
    (hkeys : KeysBelow (⟨map, seq⟩ : MsgDb Stored) seq.next)
    {sends : List NumberedSend} (hsends : ∀ r ∈ sends, IsMid r.id ∧ r.id ∈ s.issued)
    (hids : (sends.map NumberedSend.id).Nodup)
    (hfresh : ∀ r ∈ sends, r.stored = false → ∀ k : RecordKey, k.Valid → k.mid = some r.id →
      map.get k.bytes = none) :
    Inv { s with sled := s.sled.write w map, sends } := by
  have hopen := h.running seq hseq
  have hmap : (s.sled.write w map).now = map := Journal.now_write _ _ _
  have hnew : Open { s with sled := s.sled.write w map, sends } seq :=
    ⟨by rw [DurableDb.map, hmap]; exact hlease, hopen.range,
      by rw [msgDb, DurableDb.map, hmap]; exact hkeys, hopen.issued⟩
  refine ⟨h.prefixes.write (hmap ▸ hnew.sound), fun seq' hseq' ↦ ?_, fun hnone ↦ ?_, h.issued,
    hsends, hids, ?_⟩
  · obtain rfl : seq = seq' := Option.some_inj.1 (hseq.symm.trans hseq')
    exact hnew
  · cases hseq.symm.trans hnone
  · rw [DurableDb.map, hmap]
    exact hfresh

theorem stepSend_eq_some {f : Sequence → NumberedSend → Option DurableDb} :
    s.stepSend i f = some t ↔ ∃ seq r, s.sequence = some seq ∧ s.sends[i]? = some r ∧
      f seq r = some t := by
  simp only [stepSend, Option.bind_eq_some_iff]
  constructor
  · rintro ⟨seq, hseq, r, hr, hf⟩
    exact ⟨seq, r, hseq, hr, hf⟩
  · rintro ⟨seq, r, hseq, hr, hf⟩
    exact ⟨seq, hseq, r, hr, hf⟩

/-- Opening leases the ids from the bound on. -/
theorem openDb_eq_ok {map : SledMap} {db : MsgDb Stored}
    (h : MsgDb.openDb (fun _ ↦ false) map = .ok db) : ∃ l, readLease map = .ok l ∧
      l + sequenceBandwidth < i64Size ∧ db.msgSequence = ⟨l, l + sequenceBandwidth⟩ ∧
        db.db = map.insert (keySequence msgSequenceTy)
        (.bytes (beI64 (l + sequenceBandwidth))) := by
  rw [MsgDb.openDb] at h
  cases hl : readLease map with
  | error e =>
    rw [updateSequenceLease, hl] at h
    cases h
  | ok l =>
    rw [updateSequenceLease_eq hl, if_neg Bool.false_ne_true] at h
    split at h
    · rename_i hroom
      cases h
      exact ⟨l, rfl, hroom, rfl, rfl⟩
    · cases h

/-- The record of the sequence is no message. -/
theorem keysBelow_insert_lease {map : SledMap} {b : ℤ}
    (h : KeysBelow (⟨map, seq⟩ : MsgDb Stored) b) (value : Bytes) (seq' : Sequence) :
    KeysBelow (⟨map.insert (keySequence msgSequenceTy) (.bytes value), seq'⟩ : MsgDb Stored) b := by
  intro key v hget
  by_cases hkey : key = keySequence msgSequenceTy
  · exact ⟨.sequence msgSequenceTy, trivial, hkey, fun _ h ↦ by cases h⟩
  · rw [OrderedMap.get_insert_of_ne _ _ hkey] at hget
    exact h key v hget

theorem get_insert_lease {map : SledMap} {k : RecordKey} {m : ℤ} (hm : k.mid = some m)
    (value : Bytes) : (map.insert (keySequence msgSequenceTy) (.bytes value)).get k.bytes =
      map.get k.bytes :=
  OrderedMap.get_insert_of_ne _ _ (k.bytes_ne_sequence hm msgSequenceTy)

theorem Inv.openDb (h : s.Inv) (hstep : s.step .openDb = some t) : t.Inv := by
  rw [DurableDb.step] at hstep
  split at hstep
  · rename_i db hseq hdb
    obtain rfl := Option.some_inj.1 hstep
    obtain ⟨l, hl, hroom, hblock, hmap⟩ := openDb_eq_ok hdb
    obtain ⟨hpos, hlt, hkeys⟩ := h.prefixes.self.keysBelow hl ⟨0, 0⟩
    obtain ⟨hsends, hissued⟩ := h.stopped hseq
    have hband : sequenceBandwidth = 32 := rfl
    have hnew : Open { s with
        sled := s.sled.write .lease db.db, sequence := some db.msgSequence } db.msgSequence := by
      refine ⟨?_, ?_, ?_, ?_⟩
      · rw [DurableDb.map, Journal.now_write, hmap, hblock]
        exact readLease_insert_lease _ ⟨by omega, hroom⟩
      · rw [hblock]
        exact ⟨hpos, show l ≤ l + sequenceBandwidth by omega, hroom⟩
      · rw [msgDb, DurableDb.map, Journal.now_write, hmap, hblock]
        exact keysBelow_insert_lease hkeys _ _
      · rw [hblock]
        exact hissued l hl
    refine ⟨h.prefixes.write ?_, fun seq' hseq' ↦ ?_, (fun hnone ↦ by cases hnone), h.issued,
      h.sends, h.ids, fun r hr ↦ ?_⟩
    · exact hnew.sound
    · obtain rfl := Option.some_inj.1 hseq'
      exact hnew
    · rw [hsends] at hr
      cases hr
  · cases hstep

/-- Taking an id: it is `next`, and after it the database is open with the block after it. -/
theorem Open.generate (h : s.Open seq) {fails : Bool} {id : ℤ} {db : MsgDb Stored}
    (hid : (s.msgDb seq).generateMsgId (fun _ ↦ fails) = (.ok id, db)) :
    id = seq.next ∧ readLease db.db = .ok db.msgSequence.leased ∧
      db.msgSequence.next = seq.next + 1 ∧ db.msgSequence.next ≤ db.msgSequence.leased ∧
      db.msgSequence.leased < i64Size ∧ (s.msgDb seq).SameRecords db ∧
      (seq.next < seq.leased → db.db = s.map) := by
  have hw := h.wellFormed
  have hend : (s.msgDb seq).leaseEnd = seq.leased := leaseEnd_eq h.lease
  have hrange := h.range
  rcases hw.generateMsgId_cases fun _ ↦ fails with ⟨hcan, u, hu, -, -, hsame⟩ | ⟨-, e, he⟩
  · obtain ⟨rfl, rfl⟩ : (s.msgDb seq).nextId = id ∧ u = db := by simpa using hu.symm.trans hid
    by_cases hlt : seq.next < seq.leased
    · rw [generateMsgId_of_lt (s := s.msgDb seq) hlt] at hu
      obtain rfl := (Prod.ext_iff.1 hu).2
      exact ⟨h.nextId, h.lease, rfl, by show seq.next + 1 ≤ seq.leased; omega, hrange.2.2, hsame,
        fun _ ↦ rfl⟩
    · obtain ⟨hfails, hroom⟩ := hcan.resolve_left hlt
      rw [hw.leased.generateMsgId_of_le hlt hfails hroom] at hu
      obtain rfl := (Prod.ext_iff.1 hu).2
      rw [hend] at hroom hsame
      have hband : sequenceBandwidth = 32 := rfl
      have heq : seq.leased = seq.next := by omega
      rw [hend]
      refine ⟨h.nextId, readLease_insert_lease _ ⟨by omega, hroom⟩, ?_, ?_, hroom, hsame,
        fun hlt' ↦ absurd hlt' hlt⟩
      · show seq.leased + 1 = seq.next + 1
        omega
      · show seq.leased + 1 ≤ seq.leased + sequenceBandwidth
        omega
  · rw [he] at hid
    cases (Prod.ext_iff.1 hid).1

theorem keysBelow_of_sameRecords {u db : MsgDb Stored} {b : ℤ} (h : KeysBelow u b)
    (hsame : u.SameRecords db) (seq' : Sequence) :
    KeysBelow (⟨db.db, seq'⟩ : MsgDb Stored) b := by
  intro key v hget
  by_cases hkey : key = keySequence msgSequenceTy
  · exact ⟨.sequence msgSequenceTy, trivial, hkey, fun _ h ↦ by cases h⟩
  · exact h key v ((hsame key hkey).symm.trans hget)

/-- A generated id is `next`; the ids handed out stay below the new `next`. -/
theorem generate_cases {p : Prepared} {fails : Bool}
    (hstep : s.step (.generate p fails) = some t) : ∃ seq, s.sequence = some seq ∧
      (t = s ∨ ∃ id db, (s.msgDb seq).generateMsgId (fun _ ↦ fails) = (.ok id, db) ∧
          t = { sled := if seq.next < seq.leased then s.sled else s.sled.write .lease db.db
                sequence := some db.msgSequence
                sends := s.sends ++ [⟨id, p, false⟩]
                issued := id :: s.issued }) := by
  obtain ⟨seq, hseq, hstep⟩ := Option.bind_eq_some_iff.1 hstep
  refine ⟨seq, hseq, ?_⟩
  split at hstep
  · exact .inl (Option.some_inj.1 hstep).symm
  · rename_i id db heq
    exact .inr ⟨id, db, heq, (Option.some_inj.1 hstep).symm⟩

theorem Inv.generate (h : s.Inv) {p : Prepared} {fails : Bool}
    (hstep : s.step (.generate p fails) = some t) : t.Inv := by
  obtain ⟨seq, hseq, rfl | ⟨id, db, hid, rfl⟩⟩ := generate_cases hstep
  · exact h
  · have hopen := h.running seq hseq
    obtain ⟨rfl, hlease, hnext, hle, hlt, hsame, hno⟩ := hopen.generate hid
    have hrange := hopen.range
    set sled := if seq.next < seq.leased then s.sled else s.sled.write .lease db.db with hsled
    have hmap : sled.now = db.db := by
      rw [hsled]
      split
      · rename_i hlt
        exact (hno hlt).symm
      · exact Journal.now_write _ _ _
    have hget : ∀ k : RecordKey, ∀ m, k.mid = some m → db.db.get k.bytes = s.map.get k.bytes :=
      fun k m hm ↦ hsame _ (k.bytes_ne_sequence hm msgSequenceTy)
    have hnew : Open ⟨sled, some db.msgSequence, s.sends ++ [⟨seq.next, p, false⟩],
        seq.next :: s.issued⟩ db.msgSequence := by
      refine ⟨by rw [DurableDb.map, hmap]; exact hlease, ⟨by omega, hle, hlt⟩, ?_, fun m hm ↦ ?_⟩
      · rw [msgDb, DurableDb.map, hmap]
        exact (keysBelow_of_sameRecords hopen.keys hsame _).mono (by omega)
      · rcases List.mem_cons.1 hm with rfl | hm
        · omega
        · have := hopen.issued m hm
          omega
    refine ⟨?_, fun seq' hseq' ↦ ?_, (fun hnone ↦ by cases hnone),
      List.pairwise_cons.2 ⟨hopen.issued, h.issued⟩, fun r hr ↦ ?_, ?_,
      fun r hr hstored k hk hm ↦ ?_⟩
    · show sled.EveryPrefix _
      rw [hsled]
      split
      · exact h.prefixes
      · refine h.prefixes.write ?_
        rw [Journal.now_write, ← hmap]
        exact hnew.sound
    · obtain rfl := Option.some_inj.1 hseq'
      exact hnew
    · rcases List.mem_append.1 hr with hr | hr
      · exact ⟨(h.sends r hr).1, List.mem_cons_of_mem _ (h.sends r hr).2⟩
      · obtain rfl := List.mem_singleton.1 hr
        exact ⟨⟨hrange.1.le, show seq.next < _ by omega⟩, List.mem_cons_self⟩
    · rw [List.map_append, List.nodup_append]
      refine ⟨h.ids, List.pairwise_singleton _ _, fun m hm m' hm' heq ↦ ?_⟩
      obtain ⟨r, hr, rfl⟩ := List.mem_map.1 hm
      have hbelow := hopen.issued _ (h.sends r hr).2
      rw [heq, List.mem_singleton.1 hm'] at hbelow
      exact lt_irrefl _ hbelow
    · show sled.now.get k.bytes = none
      rw [hmap, hget k r.id hm]
      rcases List.mem_append.1 hr with hr | hr
      · exact h.fresh r hr hstored k hk hm
      · obtain rfl := List.mem_singleton.1 hr
        exact hopen.keys.get_eq_none hk hm le_rfl

theorem Inv.applyBatch (h : s.Inv) (hstep : s.step (.applyBatch i) = some t) : t.Inv := by
  obtain ⟨seq, r, hseq, hr, hstep⟩ := stepSend_eq_some.1 hstep
  split at hstep
  · cases hstep
  · rename_i hstored
    obtain rfl := Option.some_inj.1 hstep
    have hopen := h.running seq hseq
    have hmem := List.mem_of_getElem? hr
    obtain ⟨hmid, hissued⟩ := h.sends r hmem
    have hlt : r.id < (s.msgDb seq).nextId := hopen.nextId ▸ hopen.issued _ hissued
    have hbatch := r.prepared.batches_batch r.id hmid
    have hwf := hopen.wellFormed.insertAll hlt hbatch
    have hnext : ((s.msgDb seq).applyBatch (r.prepared.batch r.id)).nextId = seq.next :=
      (nextId_of_get_sequence (get_insertAll_sequence hbatch)).trans hopen.nextId
    obtain ⟨hlt', heq⟩ := List.getElem?_eq_some_iff.1 hr
    have hids : (s.sends.set i { r with stored := true }).map NumberedSend.id =
        s.sends.map NumberedSend.id := by
      refine List.ext_getElem? fun k ↦ ?_
      rw [List.getElem?_map, List.getElem?_map, List.getElem?_set]
      split
      · rename_i hk
        subst hk
        rw [hr]
        rfl
      · rfl
    refine h.write hseq ?_ (hnext ▸ hwf.keys) (fun r' hr' ↦ ?_) (hids ▸ h.ids)
      fun r' hr' hstored' k hk hm ↦ ?_
    · exact (readLease_eq_of_get (get_insertAll_sequence hbatch)).trans hopen.lease
    · rcases List.mem_or_eq_of_mem_set hr' with hr' | rfl
      · exact h.sends r' hr'
      · exact ⟨hmid, hissued⟩
    · rcases List.mem_or_eq_of_mem_set hr' with hr'' | rfl
      · -- The other sends have other ids.
        have hne : k.mid ≠ some r.id := fun hk' ↦ by
          have hid : r'.id = r.id := Option.some_inj.1 (hm.symm.trans hk')
          have hin : { r with stored := true } ∈ s.sends.set i { r with stored := true } :=
            List.mem_set hlt' _
          obtain rfl := List.inj_on_of_nodup_map (hids ▸ h.ids) hr' hin hid
          cases hstored'
        exact (get_insertAll_of_batchOf hbatch hk hne).trans (h.fresh r' hr'' hstored' k hk hm)
      · cases hstored'

/-- A message without a merged copy gets none from another message. -/
theorem get_merged_storeMerged {db : MsgDb Stored} {payload : ChatMessagePayload} {m id : ℤ}
    (hm : IsMid m) (hid : IsMid id) (hne : m ≠ id) (hnone : db.db.get (keyMergedMsg m) = none) :
    (VoceChat.storeMerged (fun _ ↦ false) db payload id).2.db.get (keyMergedMsg m) = none := by
  have hkey : keyMergedMsg m ≠ keyMergedMsg id := fun heq ↦
    hne (RecordKey.mid_inj (k := .merged m) (l := .merged id) hm hid rfl rfl heq)
  obtain ⟨fromUid, createdAt, target, detail⟩ := payload
  match detail with
  | .normal _ | .reply _ => exact (OrderedMap.get_insert_of_ne _ _ hkey).trans hnone
  | .reaction ⟨_, .like _⟩ | .reaction ⟨_, .delete⟩ => exact hnone
  | .reaction ⟨origin, .edit content⟩ =>
    show (db.updateMergedMsg origin (mergeEdit content)).db.get (keyMergedMsg m) = none
    rw [MsgDb.updateMergedMsg]
    split
    · rename_i data hdata
      refine (OrderedMap.get_insert_of_ne _ _ fun heq ↦ ?_).trans hnone
      rw [← heq, hnone] at hdata
      cases hdata
    · exact hnone

theorem Inv.storeMerged (h : s.Inv) (hstep : s.step (.storeMerged i) = some t) : t.Inv := by
  obtain ⟨seq, r, hseq, hr, hstep⟩ := stepSend_eq_some.1 hstep
  split at hstep
  · rename_i hdone
    obtain rfl := Option.some_inj.1 hstep
    have hopen := h.running seq hseq
    obtain ⟨hmid, hissued⟩ := h.sends r (List.mem_of_getElem? hr)
    have hlt : r.id < (s.msgDb seq).nextId := hopen.nextId ▸ hopen.issued _ hissued
    obtain ⟨e, db, hdb, hsame, -⟩ :=
      storeMerged_cases hopen.wellFormed hmid hlt (fun _ ↦ false) r.prepared.payload
    have hnext : db.nextId = seq.next := hsame.nextId.trans hopen.nextId
    rw [hdb]
    refine h.write hseq ?_ (hnext ▸ hsame.wellFormed.keys) h.sends h.ids
      fun r' hr' hstored k hk hm ↦ ?_
    · exact (readLease_eq_of_get (hsame.get (.sequence msgSequenceTy) fun _ heq ↦ by
        cases heq)).trans hopen.lease
    · have hne : r'.id ≠ r.id := fun heq ↦ by
        obtain rfl := List.inj_on_of_nodup_map h.ids hr' (List.mem_of_getElem? hr) heq
        cases hdone.symm.trans hstored
      have hnone : (s.msgDb seq).db.get k.bytes = none := h.fresh r' hr' hstored k hk hm
      by_cases hmerged : ∃ m, k = .merged m
      · obtain ⟨m, rfl⟩ := hmerged
        obtain rfl : m = r'.id := Option.some_inj.1 hm
        have hkept : (VoceChat.storeMerged (fun _ ↦ false) (s.msgDb seq) r.prepared.payload
            r.id).2.db.get (keyMergedMsg r'.id) = none :=
          get_merged_storeMerged (h.sends r' hr').1 hmid hne hnone
        rw [hdb] at hkept
        exact hkept
      · exact (hsame.get k fun m heq ↦ hmerged ⟨m, heq⟩).trans hnone
  · cases hstep

theorem Inv.finish (h : s.Inv) (hstep : s.step (.finish i) = some t) : t.Inv := by
  obtain ⟨seq, r, hseq, -, hstep⟩ := stepSend_eq_some.1 hstep
  obtain rfl := Option.some_inj.1 hstep
  have hsub := List.eraseIdx_sublist s.sends i
  exact ⟨h.prefixes, fun seq' hseq' ↦ ⟨(h.running seq' hseq').1, (h.running seq' hseq').2,
      (h.running seq' hseq').3, (h.running seq' hseq').4⟩,
    (fun hnone ↦ by cases hseq.symm.trans hnone),
    h.issued, fun r hr ↦ h.sends r (hsub.mem hr), h.ids.sublist (hsub.map _),
    fun r hr ↦ h.fresh r (hsub.mem hr)⟩

theorem Inv.removeMarker (h : s.Inv) {mid : ℤ} (hstep : s.step (.removeMarker mid) = some t) :
    t.Inv := by
  obtain ⟨seq, hseq, hstep⟩ := Option.bind_eq_some_iff.1 hstep
  obtain rfl := Option.some_inj.1 hstep
  have hopen := h.running seq hseq
  refine h.write hseq ?_ (fun key v hget ↦ ?_) h.sends h.ids fun r hr hstored k hk hm ↦ ?_
  · refine (readLease_eq_of_get ?_).trans hopen.lease
    have hne : keySequence msgSequenceTy ≠ keyPendingMessageMarker mid :=
      bytes_ne_of_head (by decide)
    rw [OrderedMap.get_erase, if_neg hne]
  · rw [OrderedMap.get_erase] at hget
    split at hget
    · cases hget
    · exact hopen.keys key v hget
  · rw [OrderedMap.get_erase, h.fresh r hr hstored k hk hm, ite_self]

/-- Closing returns the rest of the block: the ids handed out and the records are below `next`. -/
theorem Inv.close (h : s.Inv) {fails : Bool} (hstep : s.step (.close fails) = some t) : t.Inv := by
  obtain ⟨seq, hseq, hstep⟩ := Option.bind_eq_some_iff.1 hstep
  rw [Option.ite_none_right_eq_some, Option.some_inj, List.isEmpty_iff] at hstep
  obtain ⟨hsends, rfl⟩ := hstep
  have hopen := h.running seq hseq
  have hrange := hopen.range
  cases fails with
  | true =>
    refine ⟨h.prefixes, (fun _ hnone ↦ by cases hnone), fun _ ↦ ⟨hsends, fun l hl id hid ↦ ?_⟩,
      h.issued, h.sends, h.ids, h.fresh⟩
    obtain rfl : seq.leased = l := Except.ok.inj (hopen.lease.symm.trans hl)
    exact lt_of_lt_of_le (hopen.issued id hid) hrange.2.1
  | false =>
    have hlease : readLease (s.map.insert (keySequence msgSequenceTy) (.bytes (beI64 seq.next))) =
        .ok seq.next := readLease_insert_lease _ ⟨hrange.1.le, by omega⟩
    have hkeys := keysBelow_insert_lease hopen.keys (beI64 seq.next)
    refine ⟨h.prefixes.write ?_, (fun _ hnone ↦ by cases hnone),
      fun _ ↦ ⟨hsends, fun l hl id hid ↦ ?_⟩, h.issued, h.sends, h.ids, fun r hr ↦ ?_⟩
    · rw [Journal.now_write]
      exact ⟨seq.next, hlease, hrange.1, by omega, hkeys _⟩
    · have heq : seq.next = l := by
        refine Except.ok.inj (hlease.symm.trans ?_)
        rw [← hl]
        exact congrArg readLease (Journal.now_write _ _ _).symm
      exact heq ▸ hopen.issued id hid
    · exact absurd (hsends ▸ show r ∈ s.sends from hr) List.not_mem_nil

theorem Inv.step {a : DbAction} (h : s.Inv) (hstep : s.step a = some t) : t.Inv := by
  cases a with
  | openDb => exact h.openDb hstep
  | generate p fails => exact h.generate hstep
  | applyBatch i => exact h.applyBatch hstep
  | storeMerged i => exact h.storeMerged hstep
  | finish i => exact h.finish hstep
  | removeMarker mid => exact h.removeMarker hstep
  | close fails => exact h.close hstep
  | crash n =>
    obtain rfl := Option.some_inj.1 hstep
    exact ⟨h.prefixes.crash n, (fun _ hnone ↦ by cases hnone),
      fun _ ↦ ⟨rfl, fun _ _ _ hid ↦ absurd hid List.not_mem_nil⟩, List.Pairwise.nil,
      (fun _ hr ↦ nomatch hr), List.nodup_nil, fun _ hr ↦ nomatch hr⟩

theorem inv_of_run {actions : List DbAction}
    (hrun : Transition.run step init actions = some s) : s.Inv :=
  Transition.run_induction (fun _ _ _ h hstep ↦ Inv.step h hstep) inv_init hrun

/-- **Ids are never used twice.** The ids handed out since the last crash ascend; a new id is above
them and above every id that has a record; and a batch overwrites nothing. -/
theorem fresh_ids {actions : List DbAction}
    (hrun : Transition.run step init actions = some s) :
    s.issued.Pairwise (fun a b ↦ b < a) ∧
    (∀ p fails t id, s.step (.generate p fails) = some t → t.issued = id :: s.issued →
      (∀ old ∈ s.issued, old < id) ∧
      ∀ (k : RecordKey) (mid : ℤ), k.Valid → k.mid = some mid → (s.map.get k.bytes).isSome →
        mid < id) ∧
    ∀ i t r, s.step (.applyBatch i) = some t → s.sends[i]? = some r →
      ∀ e ∈ r.prepared.batch r.id, s.map.get e.1 = none := by
  have hinv := inv_of_run hrun
  refine ⟨hinv.issued, fun p fails t id hstep hid ↦ ?_, fun i t r hstep hr e he ↦ ?_⟩
  · obtain ⟨seq, hseq, rfl | ⟨id', db, hgenerate, rfl⟩⟩ := generate_cases hstep
    · exact absurd hid.symm (List.cons_ne_self _ _)
    · obtain rfl : id' = id := (List.cons.inj hid).1
      have hopen := hinv.running seq hseq
      obtain ⟨rfl, -⟩ := hopen.generate hgenerate
      refine ⟨hopen.issued, fun k mid hk hmid hsome ↦ ?_⟩
      by_contra hle
      rw [show s.map.get k.bytes = none from
        hopen.keys.get_eq_none hk hmid (not_lt.1 hle)] at hsome
      cases hsome
  · obtain ⟨seq, r', hseq, hr', hstep⟩ := stepSend_eq_some.1 hstep
    obtain rfl : r = r' := Option.some_inj.1 (hr.symm.trans hr')
    have hmem := List.mem_of_getElem? hr
    split at hstep
    · cases hstep
    · rename_i hstored
      obtain ⟨k, hk, hmid, hkey⟩ :=
        r.prepared.batches_batch r.id (hinv.sends r hmem).1 e he
      rw [hkey]
      exact hinv.fresh r hmem (Bool.eq_false_of_not_eq_true hstored) k hk hmid

/-- A message from one user to another. -/
def hello : Prepared :=
  ⟨.dm 1 2 false, ⟨1, 0, .user 2, .normal ⟨⟨none, "text/plain", "hello"⟩, none⟩⟩⟩

/-- The server crashes after its first message and hands out the next id. -/
theorem fresh_ids_crash : ∃ s t,
    Transition.run step init [.openDb, .generate hello false, .applyBatch 0, .crash 2, .openDb] =
      some s ∧ s.step (.generate hello false) = some t ∧ t.issued = [33] ∧
      ∀ (k : RecordKey) (mid : ℤ), k.Valid → k.mid = some mid → (s.map.get k.bytes).isSome →
        mid < 33 := by
  have hrun : (Transition.run step init
      [.openDb, .generate hello false, .applyBatch 0, .crash 2, .openDb]).bind (fun s ↦
        (s.step (.generate hello false)).map fun t ↦ (t.issued, s.issued)) = some ([33], []) := rfl
  obtain ⟨s, hs, hfacts⟩ := Option.bind_eq_some_iff.1 hrun
  obtain ⟨t, ht, hissued⟩ := Option.map_eq_some_iff.1 hfacts
  obtain ⟨hissued, hold⟩ := Prod.ext_iff.1 hissued
  refine ⟨s, t, hs, ht, hissued, ((fresh_ids hs).2.1 hello false t 33 ht ?_).2⟩
  rw [show s.issued = [] from hold]
  exact hissued

end DurableDb

end VoceChat
