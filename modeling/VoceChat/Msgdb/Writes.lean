import VoceChat.Msgdb.Durability

/-!
# What a step writes to the message database

`DurableDb.wrote` says for every step but a crash what it adds to the journal: nothing, a record
that is no message, the removal of a marker, or the batch of a send. From it follow the facts that
the rest needs of the database's history:

* a message is never changed or removed: what a prefix of the journal has is there in every longer
  one (`history_of_step`);
* the messages that a crash leaves are those whose batches it leaves (`get_msg_crash`).
-/

namespace VoceChat

open Machine MsgDb

/-- The records of messages are the same, merged copies apart. -/
def SameMessages (map map' : SledMap) : Prop :=
  ∀ k : RecordKey, k.mid ≠ none → (∀ m, k ≠ .merged m) → map'.get k.bytes = map.get k.bytes

/-- The messages that are there stay as they are. -/
def MessagesKept (map map' : SledMap) : Prop :=
  ∀ mid v, IsMid mid → map.get (keyMsg mid) = some v → map'.get (keyMsg mid) = some v

theorem MessagesKept.refl (map : SledMap) : MessagesKept map map := fun _ _ _ h ↦ h

theorem MessagesKept.trans {map map' map'' : SledMap} (h : MessagesKept map map')
    (h' : MessagesKept map' map'') : MessagesKept map map'' := fun mid v hmid hget ↦
  h' mid v hmid (h mid v hmid hget)

theorem SameMessages.msg {map map' : SledMap} (h : SameMessages map map') (mid : ℤ) :
    map'.get (keyMsg mid) = map.get (keyMsg mid) :=
  h (.msg mid) (Option.some_ne_none _) fun _ heq ↦ by cases heq

theorem SameMessages.marker {map map' : SledMap} (h : SameMessages map map') (mid : ℤ) :
    map'.get (keyPendingMessageMarker mid) = map.get (keyPendingMessageMarker mid) :=
  h (.pendingMarker mid) (Option.some_ne_none _) fun _ heq ↦ by cases heq

theorem keyMsg_ne_marker (m n : ℤ) : keyMsg m ≠ keyPendingMessageMarker n :=
  bytes_ne_of_head (by decide)

theorem keyPendingMessageMarker_inj {m n : ℤ} (hm : IsMid m) (hn : IsMid n)
    (h : keyPendingMessageMarker m = keyPendingMessageMarker n) : m = n :=
  RecordKey.mid_inj (k := .pendingMarker m) (l := .pendingMarker n) hm hn rfl rfl h

/-- The value of the marker that a message is stored with. -/
def Prepared.marker (p : Prepared) : Option Bytes :=
  match p.target with
  | .dm fromUid toUid true => some (pendingMarkerValue fromUid toUid p.payload.createdAt)
  | _ => none

namespace Prepared

/-- The batch has a marker when the message is a deferred one. -/
theorem mem_batch_marker {p : Prepared} {id mid : ℤ} {v : Blob Stored} :
    (keyPendingMessageMarker mid, v) ∈ p.batch id ↔
      keyPendingMessageMarker mid = keyPendingMessageMarker id ∧
        ∃ value ∈ p.marker, v = .bytes value := by
  have hmsg : keyPendingMessageMarker mid ≠ keyMsg id := (keyMsg_ne_marker _ _).symm
  have huser : ∀ uid, keyUserMsg uid id ≠ keyPendingMessageMarker mid := fun _ ↦
    bytes_ne_of_head (by decide)
  have hgroup : ∀ gid, keyPendingMessageMarker mid ≠ keyGroupMsg gid id := fun _ ↦
    bytes_ne_of_head (by decide)
  have hdm : ∀ a b, keyPendingMessageMarker mid ≠ keyDmMsg a b id := fun _ _ ↦
    bytes_ne_of_head (by decide)
  obtain ⟨target, payload⟩ := p
  match target with
  | .group gid targets =>
    simp [batch, groupBatch, marker, hmsg, huser, hgroup]
  | .dm fromUid toUid false =>
    simp [batch, dmBatch, marker, hmsg, (huser _).symm, hdm]
  | .dm fromUid toUid true =>
    simp [batch, dmBatch, marker, hmsg, (huser _).symm, hdm]

/-- The marker of the message that a batch stores. -/
theorem get_marker_batch {p : Prepared} {id : ℤ} {db : SledMap}
    (hnone : db.get (keyPendingMessageMarker id) = none) :
    (db.insertAll (p.batch id)).get (keyPendingMessageMarker id) = p.marker.map Blob.bytes := by
  cases hmarker : p.marker with
  | none =>
    refine (OrderedMap.get_insertAll_of_notMem fun e he heq ↦ ?_).trans hnone
    obtain ⟨key, v⟩ := e
    obtain rfl : key = keyPendingMessageMarker id := heq
    obtain ⟨-, value, hvalue, -⟩ := mem_batch_marker.1 he
    cases hmarker ▸ hvalue
  | some value =>
    refine OrderedMap.get_insertAll_of_mem
      ⟨_, mem_batch_marker.2 ⟨rfl, value, hmarker, rfl⟩, rfl⟩ fun e he heq ↦ ?_
    obtain ⟨key, v⟩ := e
    obtain rfl : key = keyPendingMessageMarker id := heq
    obtain ⟨-, value', hvalue', rfl⟩ := mem_batch_marker.1 he
    obtain rfl := Option.some_inj.1 (hmarker.symm.trans hvalue')
    rfl

/-- The message that a batch stores. -/
theorem get_msg_batch (p : Prepared) (id : ℤ) (db : SledMap) :
    (db.insertAll (p.batch id)).get (keyMsg id) = some (.message (.chat p.payload)) :=
  get_batch_of_mem db (p.mem_batch id).1 (keyMsg_ne_marker _ _)

theorem get_msg_batch_of_ne (p : Prepared) {id mid : ℤ} (hid : IsMid id) (hmid : IsMid mid)
    (hne : mid ≠ id) (db : SledMap) :
    (db.insertAll (p.batch id)).get (keyMsg mid) = db.get (keyMsg mid) :=
  get_insertAll_of_batchOf (k := .msg mid) (p.batches_batch id hid) hmid fun heq ↦
    hne (Option.some_inj.1 heq)

theorem get_marker_batch_of_ne (p : Prepared) {id mid : ℤ} (hid : IsMid id) (hmid : IsMid mid)
    (hne : mid ≠ id) (db : SledMap) :
    (db.insertAll (p.batch id)).get (keyPendingMessageMarker mid) =
      db.get (keyPendingMessageMarker mid) :=
  get_insertAll_of_batchOf (k := .pendingMarker mid) (p.batches_batch id hid) hmid fun heq ↦
    hne (Option.some_inj.1 heq)

end Prepared

namespace DurableDb

variable {s t : DurableDb} {a : DbAction}

/-- What a step that is no crash adds to the journal. -/
inductive Wrote (s : DurableDb) (a : DbAction) (t : DurableDb) : Prop where
  | nothing (h : t.sled = s.sled)
  /-- The lease of the ids, or a merged copy. -/
  | elsewhere (w : SledWrite) (map : SledMap) (h : t.sled = s.sled.write w map)
      (hw : ∀ mid, w ≠ .batch mid) (hsame : SameMessages s.map map)
  | unmarked (mid : ℤ) (ha : a = .removeMarker mid) (h : t.sled =
      s.sled.write (.removeMarker mid) (s.map.erase (keyPendingMessageMarker mid)))
  | batch (r : NumberedSend) (hr : r ∈ s.sends) (hstored : r.stored = false)
      (h : t.sled = s.sled.write (.batch r.id) (s.map.insertAll (r.prepared.batch r.id)))

theorem sameMessages_insert_lease (map : SledMap) (value : Bytes) :
    SameMessages map (map.insert (keySequence msgSequenceTy) (.bytes value)) := by
  intro k hk _
  obtain ⟨m, hm⟩ := Option.ne_none_iff_exists'.1 hk
  exact get_insert_lease hm value

theorem sameMessages_storeMerged {seq : Sequence} (hopen : s.Open seq) {r : NumberedSend}
    (hmid : IsMid r.id) (hlt : r.id < seq.next) :
    SameMessages s.map
      (VoceChat.storeMerged (fun _ ↦ false) (s.msgDb seq) r.prepared.payload r.id).2.db := by
  obtain ⟨e, db, hdb, hsame, -⟩ := storeMerged_cases hopen.wellFormed hmid (hopen.nextId ▸ hlt)
    (fun _ ↦ false) r.prepared.payload
  rw [hdb]
  exact fun k _ hk ↦ hsame.get k hk

/-- **What a step writes**, crashes apart. -/
theorem wrote (hinv : s.Inv) (hstep : s.step a = some t) (hcrash : ∀ n, a ≠ .crash n) :
    Wrote s a t := by
  cases a with
  | openDb =>
    rw [DurableDb.step] at hstep
    split at hstep
    · rename_i db _ hdb
      obtain rfl := Option.some_inj.1 hstep
      obtain ⟨l, -, -, -, hmap⟩ := openDb_eq_ok hdb
      exact .elsewhere .lease db.db rfl (fun _ h ↦ by cases h)
        (hmap ▸ sameMessages_insert_lease _ _)
    · cases hstep
  | generate p fails =>
    obtain ⟨seq, hseq, rfl | ⟨id, db, hid, rfl⟩⟩ := generate_cases hstep
    · exact .nothing rfl
    · obtain ⟨-, -, -, -, -, hsame, -⟩ := (hinv.running seq hseq).generate hid
      by_cases hlt : seq.next < seq.leased
      · exact .nothing (if_pos hlt)
      · refine .elsewhere .lease db.db (if_neg hlt) (fun _ h ↦ by cases h) fun k hk _ ↦ ?_
        obtain ⟨m, hm⟩ := Option.ne_none_iff_exists'.1 hk
        exact hsame _ (k.bytes_ne_sequence hm _)
  | applyBatch i =>
    obtain ⟨seq, r, -, hr, hstep⟩ := stepSend_eq_some.1 hstep
    split at hstep
    · cases hstep
    · rename_i hstored
      obtain rfl := Option.some_inj.1 hstep
      exact .batch r (List.mem_of_getElem? hr) (Bool.eq_false_of_not_eq_true hstored) rfl
  | storeMerged i =>
    obtain ⟨seq, r, hseq, hr, hstep⟩ := stepSend_eq_some.1 hstep
    split at hstep
    · obtain rfl := Option.some_inj.1 hstep
      have hopen := hinv.running seq hseq
      obtain ⟨hmid, hissued⟩ := hinv.sends r (List.mem_of_getElem? hr)
      exact .elsewhere (.merged r.id) _ rfl (fun _ h ↦ by cases h)
        (sameMessages_storeMerged hopen hmid (hopen.issued _ hissued))
    · cases hstep
  | finish i =>
    obtain ⟨seq, r, -, -, hstep⟩ := stepSend_eq_some.1 hstep
    obtain rfl := Option.some_inj.1 hstep
    exact .nothing rfl
  | removeMarker mid =>
    obtain ⟨seq, -, hstep⟩ := Option.bind_eq_some_iff.1 hstep
    obtain rfl := Option.some_inj.1 hstep
    exact .unmarked mid rfl rfl
  | close fails =>
    obtain ⟨seq, -, hstep⟩ := Option.bind_eq_some_iff.1 hstep
    rw [Option.ite_none_right_eq_some, Option.some_inj] at hstep
    obtain ⟨-, rfl⟩ := hstep
    cases fails with
    | true => exact .nothing rfl
    | false =>
      exact .elsewhere .release _ rfl (fun _ h ↦ by cases h) (sameMessages_insert_lease _ _)
  | crash n => exact absurd rfl (hcrash n)

/-- The sends under way were under way before, or have just taken their id. -/
theorem prepared_of_step (hstep : s.step a = some t) {r : NumberedSend} (hr : r ∈ t.sends) :
    (∃ r' ∈ s.sends, r.prepared = r'.prepared) ∨ ∃ fails, a = .generate r.prepared fails := by
  cases a with
  | openDb =>
    rw [DurableDb.step] at hstep
    split at hstep
    · obtain rfl := Option.some_inj.1 hstep
      exact .inl ⟨r, hr, rfl⟩
    · cases hstep
  | generate p fails =>
    obtain ⟨seq, -, rfl | ⟨id, db, -, rfl⟩⟩ := generate_cases hstep
    · exact .inl ⟨r, hr, rfl⟩
    · rcases List.mem_append.1 hr with hr | hr
      · exact .inl ⟨r, hr, rfl⟩
      · obtain rfl := List.mem_singleton.1 hr
        exact .inr ⟨fails, rfl⟩
  | applyBatch i =>
    obtain ⟨seq, r', -, hr', hstep⟩ := stepSend_eq_some.1 hstep
    split at hstep
    · cases hstep
    · obtain rfl := Option.some_inj.1 hstep
      rcases List.mem_or_eq_of_mem_set hr with hr | rfl
      · exact .inl ⟨r, hr, rfl⟩
      · exact .inl ⟨r', List.mem_of_getElem? hr', rfl⟩
  | storeMerged i =>
    obtain ⟨seq, r', -, -, hstep⟩ := stepSend_eq_some.1 hstep
    split at hstep
    · obtain rfl := Option.some_inj.1 hstep
      exact .inl ⟨r, hr, rfl⟩
    · cases hstep
  | finish i =>
    obtain ⟨seq, r', -, -, hstep⟩ := stepSend_eq_some.1 hstep
    obtain rfl := Option.some_inj.1 hstep
    exact .inl ⟨r, (List.eraseIdx_sublist s.sends i).mem hr, rfl⟩
  | removeMarker mid =>
    obtain ⟨seq, -, hstep⟩ := Option.bind_eq_some_iff.1 hstep
    obtain rfl := Option.some_inj.1 hstep
    exact .inl ⟨r, hr, rfl⟩
  | close fails =>
    obtain ⟨seq, -, hstep⟩ := Option.bind_eq_some_iff.1 hstep
    rw [Option.ite_none_right_eq_some, Option.some_inj] at hstep
    obtain ⟨-, rfl⟩ := hstep
    cases fails <;> exact .inl ⟨r, hr, rfl⟩
  | crash n =>
    obtain rfl := Option.some_inj.1 hstep
    cases hr

/-! ### The history of the messages -/

/-- No message changes from one write to the next, and the messages that are there are those whose
batches are. -/
structure History (j : Journal SledWrite SledMap) : Prop where
  kept : ∀ n, MessagesKept (j.crash n).now j.now
  isMid : ∀ mid, j.Has (.batch mid) → IsMid mid
  stored : ∀ mid, IsMid mid → ((j.now.get (keyMsg mid)).isSome ↔ j.Has (.batch mid))

theorem History.write {j : Journal SledWrite SledMap} (h : History j) {w : SledWrite}
    {map : SledMap} (hkept : MessagesKept j.now map) (hw : ∀ mid, w = .batch mid → IsMid mid)
    (hstored : ∀ mid, IsMid mid →
      ((map.get (keyMsg mid)).isSome ↔ (j.now.get (keyMsg mid)).isSome ∨ .batch mid = w)) :
    History (j.write w map) where
  kept n := by
    rw [Journal.now_write]
    rcases Nat.lt_or_ge j.log.length n with hlt | hle
    · have hlength : (j.write w map).log.length ≤ n := by
        rw [Journal.write, List.length_append]
        exact hlt
      rw [Journal.crash_of_length_le hlength, Journal.now_write]
      exact .refl map
    · rw [Journal.crash_write_of_le hle]
      exact (h.kept n).trans hkept
  isMid mid hhas := (Journal.has_write.1 hhas).elim (h.isMid mid) fun heq ↦ hw mid heq.symm
  stored mid hmid := by
    rw [Journal.now_write, hstored mid hmid, h.stored mid hmid]
    exact Journal.has_write.symm

theorem Wrote.messagesKept (h : Wrote s a t) (hinv : s.Inv) : MessagesKept s.map t.map := by
  intro mid v hmid hget
  rcases h with h | ⟨w, map, h, -, hsame⟩ | ⟨mid', -, h⟩ | ⟨r, hr, hstored, h⟩
  · rw [DurableDb.map, h]
    exact hget
  · rw [DurableDb.map, h, Journal.now_write, hsame.msg]
    exact hget
  · rw [DurableDb.map, h, Journal.now_write, OrderedMap.get_erase, if_neg (keyMsg_ne_marker _ _)]
    exact hget
  · have hne : mid ≠ r.id := by
      rintro rfl
      rw [show s.map.get (keyMsg r.id) = none from hinv.fresh r hr hstored (.msg r.id) hmid rfl]
        at hget
      cases hget
    rw [DurableDb.map, h, Journal.now_write,
      r.prepared.get_msg_batch_of_ne (hinv.sends r hr).1 hmid hne]
    exact hget

theorem Wrote.history (h : Wrote s a t) (hinv : s.Inv) (hs : s.sled.EveryPrefix History) :
    t.sled.EveryPrefix History := by
  have hkept : MessagesKept s.sled.now t.sled.now := h.messagesKept hinv
  rcases h with h | ⟨w, map, h, hw, hsame⟩ | ⟨mid', -, h⟩ | ⟨r, hr, -, h⟩
  · rw [h]
    exact hs
  · rw [h, Journal.now_write] at hkept
    rw [h]
    refine hs.write (hs.self.write hkept (fun mid heq ↦ absurd heq (hw mid)) fun mid _ ↦ ?_)
    rw [hsame.msg]
    exact (or_iff_left fun heq ↦ hw mid heq.symm).symm
  · rw [h, Journal.now_write] at hkept
    rw [h]
    refine hs.write (hs.self.write hkept (fun mid heq ↦ by cases heq) fun mid _ ↦ ?_)
    rw [OrderedMap.get_erase, if_neg (keyMsg_ne_marker _ _)]
    exact (or_iff_left fun heq ↦ by cases heq).symm
  · rw [h, Journal.now_write] at hkept
    have hid := (hinv.sends r hr).1
    rw [h]
    refine hs.write (hs.self.write hkept (fun mid heq ↦ ?_) fun mid hmid ↦ ?_)
    · obtain rfl := SledWrite.batch.inj heq
      exact hid
    · by_cases hne : mid = r.id
      · subst hne
        rw [r.prepared.get_msg_batch]
        exact iff_of_true rfl (.inr rfl)
      · rw [r.prepared.get_msg_batch_of_ne hid hmid hne]
        exact (or_iff_left fun heq ↦ hne (SledWrite.batch.inj heq)).symm

theorem history_init : init.sled.EveryPrefix History :=
  Journal.everyPrefix_start ⟨fun n ↦ by
    rw [Journal.crash, List.take_nil]
    exact .refl _, fun _ h ↦ absurd h List.not_mem_nil,
    fun _ _ ↦ iff_of_false (fun h ↦ by cases h) List.not_mem_nil⟩

/-- **What a crash leaves of the messages**: those whose batches it leaves. -/
theorem get_msg_crash {j : Journal SledWrite SledMap} (h : j.EveryPrefix History) (n : ℕ)
    {mid : ℤ} (hmid : IsMid mid) {v : Blob Stored} (hget : j.now.get (keyMsg mid) = some v) :
    (j.crash n).now.get (keyMsg mid) = some v ↔ (j.crash n).Has (.batch mid) := by
  rw [← (h n).stored mid hmid]
  constructor
  · exact fun hget' ↦ Option.isSome_iff_exists.2 ⟨v, hget'⟩
  · intro hsome
    obtain ⟨w, hw⟩ := Option.isSome_iff_exists.1 hsome
    rw [hw, ← hget, h.self.kept n mid w hmid hw]

end DurableDb

end VoceChat
