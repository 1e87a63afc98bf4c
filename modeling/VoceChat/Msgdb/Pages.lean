import Mathlib.Data.List.DropRight
import VoceChat.Msgdb.Records

/-!
# Pages of the messages before an id (`crates/msgdb/src/messages.rs`)

`fetch_user_messages_before`, `fetch_group_messages_before` and `fetch_dm_messages_before` scan one
index backwards from an id (`MsgDb.fetchBefore`). What they return is stated over the messages sent:
the newest `limit` of the index that are below the id (`RecordedDb.page`).

They do return that for every id that is not negative. A negative id is above all others in the
order of the keys, and the newest messages of all are returned instead (`page_iff`).

A client that asks again and again for the page before the oldest message it holds starts without
an id and goes on with ids it was given, so it never meets that case: after `n` pages it holds the
newest `n * limit` messages, each once (`backfill_eq`).
-/

namespace VoceChat

open BigEndian Machine

/-! ### The scan -/

/-- `decode_key_group_msg`. -/
def decodeKeyGroupMsg (data : Bytes) : Option (ℤ × ℤ) :=
  if data.take 5 = ascii "GMSG/" ∧ (data.drop 5).length = 16 then
    some (fromBeI64 ((data.drop 5).take 8), fromBeI64 ((data.drop 5).drop 8))
  else none

/-- `decode_key_dm_msg`. -/
def decodeKeyDmMsg (data : Bytes) : Option (ℤ × ℤ × ℤ) :=
  if data.take 3 = ascii "DM/" ∧ (data.drop 3).length = 24 then
    some (fromBeI64 ((data.drop 3).take 8), fromBeI64 (((data.drop 3).drop 8).take 8),
      fromBeI64 (((data.drop 3).drop 8).drop 8))
  else none

/-- The message id of a key of this user's index. -/
def ownUserMsg (uid : Int64) (key : Bytes) : Option ℤ :=
  match decodeKeyUserMsg key with
  | some (currentUid, msgId) => if currentUid = uid.toInt then some msgId else none
  | none => none

def ownGroupMsg (gid : Int64) (key : Bytes) : Option ℤ :=
  match decodeKeyGroupMsg key with
  | some (currentGid, msgId) => if currentGid = gid.toInt then some msgId else none
  | none => none

def ownDmMsg (fromUid toUid : Int64) (key : Bytes) : Option ℤ :=
  match decodeKeyDmMsg key with
  | some (a, b, msgId) =>
    if fromUid.toInt = a ∧ toUid.toInt = b ∨ fromUid.toInt = b ∧ toUid.toInt = a then some msgId
    else none
  | none => none

namespace MsgDb

variable {μ : Type}

/-- The loop over the entries visited: it ends at a key that is not the index's own. -/
def collectOwn (own : Bytes → Option ℤ) : List (Bytes × Blob μ) → List (ℤ × Blob μ)
  | [] => []
  | (key, value) :: rest =>
    match own key with
    | some msgId => (msgId, value) :: collectOwn own rest
    | none => []

/-- The body of the three functions: `key` builds the keys of the index, `own` takes them apart. -/
def fetchBefore (s : MsgDb μ) (key : ℤ → Bytes) (own : Bytes → Option ℤ) (before : Option ℤ)
    (limit : ℕ) : List (ℤ × Blob μ) :=
  (collectOwn own ((s.db.range (key 0) (key (before.getD maxMid))).reverse.take limit)).reverse

def fetchUserMessagesBefore (s : MsgDb μ) (uid : Int64) (before : Option ℤ) (limit : ℕ) :
    List (ℤ × Blob μ) :=
  s.fetchBefore (keyUserMsg uid) (ownUserMsg uid) before limit

def fetchGroupMessagesBefore (s : MsgDb μ) (gid : Int64) (before : Option ℤ) (limit : ℕ) :
    List (ℤ × Blob μ) :=
  s.fetchBefore (keyGroupMsg gid) (ownGroupMsg gid) before limit

def fetchDmMessagesBefore (s : MsgDb μ) (fromUid toUid : Int64) (before : Option ℤ) (limit : ℕ) :
    List (ℤ × Blob μ) :=
  s.fetchBefore (keyDmMsg fromUid toUid) (ownDmMsg fromUid toUid) before limit

/-- The function that reads an index. -/
def fetchMessagesBefore (s : MsgDb μ) : MsgIndex → Option ℤ → ℕ → List (ℤ × Blob μ)
  | .user uid => s.fetchUserMessagesBefore uid
  | .group gid => s.fetchGroupMessagesBefore gid
  | .dm fromUid toUid => s.fetchDmMessagesBefore fromUid toUid

end MsgDb

/-- What a client holds after some rounds of asking for the page before the oldest message held. -/
def backfill {β : Type} (fetch : Option ℤ → List (ℤ × β)) : ℕ → List (ℤ × β)
  | 0 => []
  | n + 1 =>
    let held := backfill fetch n
    fetch (held.head?.map Prod.fst) ++ held

namespace RecordedDb

variable {μ : Type}

/-- The messages of an index, oldest first. -/
def messagesOf (r : RecordedDb μ) (i : MsgIndex) : List (ℤ × Blob μ) :=
  (r.sent.filter fun m ↦ m.recipients.Listed i).map fun m ↦ (m.mid, .message m.msg)

/-- The newest `limit` messages of an index that are below an id, oldest first. -/
def page (r : RecordedDb μ) (i : MsgIndex) (before : ℤ) (limit : ℕ) : List (ℤ × Blob μ) :=
  ((r.messagesOf i).filter fun e ↦ e.1 < before).rtake limit

end RecordedDb

/-! ### A key is taken apart again -/

theorem decodeKeyGroupMsg_keyGroupMsg {gid : Int64} {mid : ℤ} (hmid : IsMid mid) :
    decodeKeyGroupMsg (keyGroupMsg gid mid) = some (gid.toInt, mid) := by
  have hprefix : (ascii "GMSG/").length = 5 := by decide
  have hdrop : (keyGroupMsg gid mid).drop 5 = beI64 gid.toInt ++ beI64 mid := by
    rw [keyGroupMsg, List.append_assoc, ← hprefix, List.drop_left]
  have htake : (keyGroupMsg gid mid).take 5 = ascii "GMSG/" := by
    rw [keyGroupMsg, List.append_assoc, ← hprefix, List.take_left]
  rw [decodeKeyGroupMsg, hdrop, htake, if_pos ⟨rfl, by simp [length_beI64]⟩,
    List.take_left' (length_beI64 _), List.drop_left' (length_beI64 _),
    fromBeI64_beI64 (toInt_range gid), fromBeI64_beI64 hmid.range]

theorem decodeKeyDmMsg_keyDmMsg {fromUid toUid : Int64} {mid : ℤ} (hmid : IsMid mid) :
    decodeKeyDmMsg (keyDmMsg fromUid toUid mid) =
      some (min fromUid.toInt toUid.toInt, max fromUid.toInt toUid.toInt, mid) := by
  have hprefix : (ascii "DM/").length = 3 := by decide
  have hfrom := toInt_range fromUid
  have hto := toInt_range toUid
  have hdrop : (keyDmMsg fromUid toUid mid).drop 3 = beI64 (min fromUid.toInt toUid.toInt) ++
      (beI64 (max fromUid.toInt toUid.toInt) ++ beI64 mid) := by
    rw [keyDmMsg, List.append_assoc, List.append_assoc, ← hprefix, List.drop_left]
  have htake : (keyDmMsg fromUid toUid mid).take 3 = ascii "DM/" := by
    rw [keyDmMsg, List.append_assoc, List.append_assoc, ← hprefix, List.take_left]
  rw [decodeKeyDmMsg, hdrop, htake, if_pos ⟨rfl, by simp [length_beI64]⟩,
    List.take_left' (length_beI64 _), List.drop_left' (length_beI64 _),
    List.take_left' (length_beI64 _), List.drop_left' (length_beI64 _),
    fromBeI64_beI64 (by omega), fromBeI64_beI64 (by omega), fromBeI64_beI64 hmid.range]

theorem ownUserMsg_key (uid : Int64) {mid : ℤ} (hmid : IsMid mid) :
    ownUserMsg uid (keyUserMsg uid mid) = some mid := by
  rw [ownUserMsg, decodeKeyUserMsg_keyUserMsg hmid]
  exact if_pos rfl

theorem ownGroupMsg_key (gid : Int64) {mid : ℤ} (hmid : IsMid mid) :
    ownGroupMsg gid (keyGroupMsg gid mid) = some mid := by
  rw [ownGroupMsg, decodeKeyGroupMsg_keyGroupMsg hmid]
  exact if_pos rfl

theorem ownDmMsg_key (fromUid toUid : Int64) {mid : ℤ} (hmid : IsMid mid) :
    ownDmMsg fromUid toUid (keyDmMsg fromUid toUid mid) = some mid := by
  rw [ownDmMsg, decodeKeyDmMsg_keyDmMsg hmid]
  refine if_pos ?_
  omega

/-! ### What a scan returns -/

namespace RecordedDb

open MsgDb

variable {μ : Type} {r : RecordedDb μ}

/-- The entries of some messages in an index. -/
def indexEntries (i : MsgIndex) (ms : List (StoredMessage μ)) : List (Bytes × Blob μ) :=
  ms.map fun m ↦ ((i.key m.mid).bytes, .message m.msg)

/-- The loop does not end early on the index's own entries. -/
theorem collectOwn_indexEntries {i : MsgIndex} {own : Bytes → Option ℤ}
    (hown : ∀ mid, IsMid mid → own (i.key mid).bytes = some mid) {ms : List (StoredMessage μ)}
    (hms : ∀ m ∈ ms, IsMid m.mid) :
    collectOwn own (indexEntries i ms) = ms.map fun m ↦ (m.mid, .message m.msg) := by
  induction ms with
  | nil => rfl
  | cons m ms ih =>
    obtain ⟨hm, hrest⟩ := List.forall_mem_cons.1 hms
    show collectOwn own (((i.key m.mid).bytes, .message m.msg) :: indexEntries i ms) = _
    rw [collectOwn, hown m.mid hm]
    show (m.mid, Blob.message m.msg) :: collectOwn own (indexEntries i ms) = _
    rw [ih hrest, List.map_cons]

theorem key_zero_le (i : MsgIndex) {mid : ℤ} (hmid : IsMid mid) :
    (i.key 0).bytes ≤ (i.key mid).bytes := by
  refine not_lt.1 fun h ↦ ?_
  rw [i.mid_lt_iff hmid (by decide)] at h
  exact absurd hmid.1 (by omega)

/-- **A range of an index** holds the messages of that index whose keys are below its end. -/
theorem Inv.range_eq (h : r.Inv) (i : MsgIndex) (b : ℤ) :
    r.db.db.range (i.key 0).bytes (i.key b).bytes = indexEntries i
      ((r.sent.filter fun m ↦ m.recipients.Listed i).filter fun m ↦
        (i.key m.mid).bytes < (i.key b).bytes) := by
  have hirrefl : Std.Irrefl fun x y : Bytes × Blob μ ↦ x.1 < y.1 := ⟨fun x ↦ lt_irrefl x.1⟩
  refine List.Pairwise.eq_of_mem_iff (r := fun x y : Bytes × Blob μ ↦ x.1 < y.1)
    (r.db.db.range_sorted _ _) ?_ fun e ↦ ?_
  · refine List.pairwise_map.2 (((h.ascending.imp_of_mem ?_).filter _).filter _)
    intro m n hm hn hlt
    exact (i.mid_lt_iff (h.issued m hm).1 (h.issued n hn).1).2 hlt
  · obtain ⟨key, v⟩ := e
    rw [OrderedMap.mem_range, indexEntries, List.mem_map]
    simp only [List.mem_filter, decide_eq_true_iff, Prod.mk.injEq]
    constructor
    · rintro ⟨hget, hlo, hhi⟩
      obtain ⟨k, hk, rfl⟩ := h.keys key v hget
      obtain ⟨mid, hmid, hsame⟩ := i.same_of_between hlo hhi
      rw [hsame.bytes_eq] at hget hhi ⊢
      obtain ⟨m, hm, hst⟩ := (h.stored _ v (i.isI64_key (hk.mid hmid)) (ofMessage_key i mid)).1 hget
      obtain ⟨rfl, hlisted, rfl⟩ := StoredMessage.stores_key.1 hst
      exact ⟨m, ⟨⟨hm, hlisted⟩, hhi⟩, rfl, rfl⟩
    · rintro ⟨m, ⟨⟨hm, hlisted⟩, hhi⟩, rfl, rfl⟩
      have hmid := (h.issued m hm).1
      refine ⟨?_, key_zero_le i hmid, hhi⟩
      exact (h.stored _ _ (i.isI64_key hmid.range) (ofMessage_key i m.mid)).2
        ⟨m, hm, StoredMessage.stores_key.2 ⟨rfl, hlisted, rfl⟩⟩

/-- The function that reads an index returns the newest entries below the key of the id. -/
theorem Inv.fetchBefore_eq (h : r.Inv) (i : MsgIndex) {own : Bytes → Option ℤ}
    (hown : ∀ mid, IsMid mid → own (i.key mid).bytes = some mid) (before : Option ℤ) (limit : ℕ) :
    r.db.fetchBefore (fun mid ↦ (i.key mid).bytes) own before limit =
      ((r.messagesOf i).filter fun e ↦
        (i.key e.1).bytes < (i.key (before.getD maxMid)).bytes).rtake limit := by
  rw [fetchBefore, h.range_eq, indexEntries, ← List.map_reverse, ← List.map_take]
  rw [← indexEntries, collectOwn_indexEntries hown, messagesOf, List.filter_map,
    List.rtake_eq_reverse_take_reverse]
  · rw [List.map_take, List.map_reverse]
    rfl
  · intro m hm
    have hmem := List.mem_reverse.1 (List.mem_of_mem_take hm)
    exact (h.issued m (List.mem_filter.1 (List.mem_filter.1 hmem).1).1).1

theorem Inv.fetchMessagesBefore_eq (h : r.Inv) (i : MsgIndex) (before : Option ℤ) (limit : ℕ) :
    r.db.fetchMessagesBefore i before limit = ((r.messagesOf i).filter fun e ↦
      (i.key e.1).bytes < (i.key (before.getD maxMid)).bytes).rtake limit := by
  cases i with
  | user uid => exact h.fetchBefore_eq (.user uid) (fun _ ↦ ownUserMsg_key uid) before limit
  | group gid => exact h.fetchBefore_eq (.group gid) (fun _ ↦ ownGroupMsg_key gid) before limit
  | dm fromUid toUid =>
    exact h.fetchBefore_eq (.dm fromUid toUid) (fun _ ↦ ownDmMsg_key fromUid toUid) before limit

theorem Inv.isMid_messagesOf (h : r.Inv) {i : MsgIndex} {e : ℤ × Blob μ}
    (he : e ∈ r.messagesOf i) : IsMid e.1 := by
  obtain ⟨m, hm, rfl⟩ := List.mem_map.1 he
  exact (h.issued m (List.mem_filter.1 hm).1).1

theorem Inv.messagesOf_sorted (h : r.Inv) (i : MsgIndex) :
    (r.messagesOf i).Pairwise fun x y ↦ x.1 < y.1 :=
  List.pairwise_map.2 (h.ascending.filter _)

/-- An id that is not negative is compared as a number. -/
theorem Inv.fetchMessagesBefore_of_isMid (h : r.Inv) (i : MsgIndex) {before : ℤ}
    (hbefore : IsMid before) (limit : ℕ) :
    r.db.fetchMessagesBefore i (some before) limit = r.page i before limit := by
  rw [h.fetchMessagesBefore_eq, page]
  congr 1
  refine List.filter_congr fun e he ↦ ?_
  exact decide_eq_decide.2 (i.mid_lt_iff (h.isMid_messagesOf he) hbefore)

/-- A negative id is above all others. -/
theorem Inv.fetchMessagesBefore_of_neg (h : r.Inv) (i : MsgIndex) {before : ℤ}
    (hbefore : IsI64 before) (hneg : before < 0) (limit : ℕ) :
    r.db.fetchMessagesBefore i (some before) limit = (r.messagesOf i).rtake limit := by
  rw [h.fetchMessagesBefore_eq, List.filter_eq_self.2]
  intro e he
  rw [decide_eq_true_iff, i.bytes_key, i.bytes_key, append_lt_append_iff]
  exact beI64_lt_of_neg (h.isMid_messagesOf he) hbefore hneg

/-- Without an id all messages are visited: no message has the id `i64::MAX`. -/
theorem Inv.fetchMessagesBefore_none (h : r.Inv) (i : MsgIndex) (limit : ℕ) :
    r.db.fetchMessagesBefore i none limit = (r.messagesOf i).rtake limit := by
  rw [h.fetchMessagesBefore_eq, List.filter_eq_self.2]
  intro e he
  obtain ⟨m, hm, rfl⟩ := List.mem_map.1 he
  obtain ⟨hmid, hlt⟩ := h.issued m (List.mem_filter.1 hm).1
  rw [decide_eq_true_iff]
  show (i.key m.mid).bytes < (i.key maxMid).bytes
  rw [i.mid_lt_iff hmid isMid_maxMid, maxMid]
  have := h.leased.nextId_range.2
  omega

/-! ### One page -/

theorem rtake_eq_nil {β : Type} {l : List β} {n : ℕ} : l.rtake n = [] ↔ n = 0 ∨ l = [] := by
  rw [List.rtake, List.drop_eq_nil_iff]
  constructor
  · intro hle
    rcases Nat.eq_zero_or_pos n with hn | hn
    · exact .inl hn
    · exact .inr (List.length_eq_zero_iff.1 (by omega))
  · rintro (rfl | rfl)
    · exact le_rfl
    · exact Nat.zero_le _

/-- **When a page is the newest messages below the id**: the id is not negative, or there is
nothing to return in any case. -/
theorem Inv.page_iff (h : r.Inv) (i : MsgIndex) {before : ℤ} (hbefore : IsI64 before) (limit : ℕ) :
    r.db.fetchMessagesBefore i (some before) limit = r.page i before limit ↔
      0 ≤ before ∨ limit = 0 ∨ r.messagesOf i = [] := by
  by_cases hneg : before < 0
  · have hnone : r.page i before limit = [] := by
      have hfilter : ((r.messagesOf i).filter fun e ↦ e.1 < before) = [] := by
        rw [List.filter_eq_nil_iff]
        intro e he
        have := (h.isMid_messagesOf he).1
        simp only [decide_eq_true_iff]
        omega
      rw [page, hfilter, List.rtake_nil]
    rw [h.fetchMessagesBefore_of_neg i hbefore hneg, hnone, rtake_eq_nil]
    exact (or_iff_right (not_le.2 hneg)).symm
  · have hnonneg := not_lt.1 hneg
    exact iff_of_true (h.fetchMessagesBefore_of_isMid i ⟨hnonneg, hbefore.2⟩ limit) (.inl hnonneg)

/-! ### Page after page -/

/-- The newest messages, from those that are held already and those before them. -/
theorem rtake_add {β : Type} (l : List β) (k n : ℕ) :
    l.rtake (k + n) = (l.rdrop k).rtake n ++ l.rtake k := by
  rw [List.rtake_eq_reverse_take_reverse, List.take_add, List.reverse_append,
    List.rtake_eq_reverse_take_reverse, List.rtake_eq_reverse_take_reverse,
    List.rdrop_eq_reverse_drop_reverse, List.reverse_reverse]

/-- In an ascending list, what is below the first of the newest entries is what comes before it. -/
theorem filter_lt_eq_rdrop {β : Type} {l : List (ℤ × β)}
    (hl : l.Pairwise fun x y ↦ x.1 < y.1) {k : ℕ} {e : ℤ × β} {held : List (ℤ × β)}
    (hheld : l.rtake k = e :: held) : (l.filter fun x ↦ x.1 < e.1) = l.rdrop k := by
  have hsplit : l = l.rdrop k ++ e :: held := by
    rw [← hheld]
    exact (List.take_append_drop _ l).symm
  rw [hsplit] at hl
  obtain ⟨-, hnewer, hlt⟩ := List.pairwise_append.1 hl
  have hkept : (l.rdrop k).filter (fun x ↦ x.1 < e.1) = l.rdrop k :=
    List.filter_eq_self.2 fun x hx ↦ decide_eq_true (hlt x hx e List.mem_cons_self)
  have hdropped : (e :: held).filter (fun x ↦ x.1 < e.1) = [] := by
    refine List.filter_eq_nil_iff.2 fun x hx ↦ ?_
    rw [decide_eq_true_iff]
    rcases List.mem_cons.1 hx with rfl | hx
    · exact lt_irrefl x.1
    · exact ((List.pairwise_cons.1 hnewer).1 x hx).le.not_gt
  conv_lhs => rw [hsplit]
  rw [List.filter_append, hkept, hdropped, List.append_nil]

/-- **After `n` pages the newest `n * limit` messages are held**, each once and in order. -/
theorem Inv.backfill_eq (h : r.Inv) (i : MsgIndex) (limit n : ℕ) :
    backfill (fun before ↦ r.db.fetchMessagesBefore i before limit) n =
      (r.messagesOf i).rtake (n * limit) := by
  induction n with
  | zero => rw [Nat.zero_mul, List.rtake_zero, backfill]
  | succ n ih =>
    rw [backfill, ih, Nat.succ_mul, rtake_add]
    congr 1
    cases hheld : (r.messagesOf i).rtake (n * limit) with
    | nil =>
      -- nothing is held, because nothing was asked for or there is nothing
      show r.db.fetchMessagesBefore i none limit = _
      rw [h.fetchMessagesBefore_none]
      rcases rtake_eq_nil.1 hheld with hzero | hnil
      · rw [hzero, List.rdrop_zero]
      · rw [hnil, List.rdrop_nil]
    | cons e held =>
      have he : e ∈ r.messagesOf i := by
        refine List.mem_of_mem_drop (i := (r.messagesOf i).length - n * limit) ?_
        show e ∈ (r.messagesOf i).rtake (n * limit)
        rw [hheld]
        exact List.mem_cons_self
      show r.db.fetchMessagesBefore i (some e.1) limit = _
      rw [h.fetchMessagesBefore_of_isMid i (h.isMid_messagesOf he), page,
        filter_lt_eq_rdrop (h.messagesOf_sorted i) hheld]

/-- **Pages of history**, after every sequence of calls: a page is the newest messages of the index
below the id exactly when the id is not negative or there is nothing to return; and asking on from
the newest page enumerates the messages of the index, each once, and no others. -/
theorem pages_after (as : List (RecordAction μ)) (i : MsgIndex) (limit : ℕ) :
    (∀ before : Int64, (after as).db.fetchMessagesBefore i (some before.toInt) limit =
        (after as).page i before.toInt limit ↔
      0 ≤ before.toInt ∨ limit = 0 ∨ (after as).messagesOf i = []) ∧
    (∀ n, backfill (fun before ↦ (after as).db.fetchMessagesBefore i before limit) n =
      ((after as).messagesOf i).rtake (n * limit)) ∧
    ((after as).messagesOf i).Pairwise fun x y ↦ x.1 < y.1 :=
  ⟨fun before ↦ (inv_after as).page_iff i (toInt_range before) limit,
    (inv_after as).backfill_eq i limit, (inv_after as).messagesOf_sorted i⟩

/-- Before the id `-1` there is no message, but one is returned. -/
theorem not_page_negative :
    ¬∀ (as : List (RecordAction ℕ)) (i : MsgIndex) (before : Int64) (limit : ℕ),
    (after as).db.fetchMessagesBefore i (some before.toInt) limit =
      (after as).page i before.toInt limit := by
  intro h
  have hpage := h [.sendToGroup 7 [1] 42 fun _ ↦ false] (.group 7) (-1) 1
  revert hpage
  decide +kernel

end RecordedDb

end VoceChat
