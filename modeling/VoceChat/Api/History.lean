import VoceChat.Directory.Tables
import VoceChat.Events.System
import VoceChat.Foundations.Paging
import VoceChat.Msgdb.Pages

/-!
# History in a time window (`src/api/message.rs`, `src/api/user.rs`)

`fetch_history_by_time` returns the newest messages of a conversation that are below an id and were
created in a window of time. Without a window it is one page. With one it reads page after page,
from the newest message on, and stops

* when it has as many messages as it was asked for;
* at a message that was created before the window, as if times rose with ids;
* at a page with no message that can be decoded;
* after fifty pages.

`search_messages_by_time` keeps what matches a query, of the messages that it was given: the limit
has been applied by then.

What is returned is right exactly if every message to be returned is one that is reached
(`RecordedDb.Reaches`), and for a search one of the newest of its window (`timeWindows_iff`). That
is so where times rise with ids, all records can be decoded and fifty pages are enough
(`historyReached_of_rising`).
-/

namespace VoceChat

open Paging

/-! ### Messages -/

/-- `decode_messages`. -/
def decodeMessages (rows : List (ℤ × Blob Stored)) : List ChatMessage :=
  rows.filterMap ChatMessage.decode

/-- The content that is searched. -/
def MessageDetail.searched : MessageDetail → Option ChatMessageContent
  | .normal n => some n.content
  | .reply r => some r.content
  | .reaction _ => none

/-- `message_matches_query`, of a query in lower case. -/
def messageMatchesQuery (toLowercase : String → String) (msg : ChatMessage)
    (query : String) : Bool :=
  match msg.payload.detail.searched with
  | some c =>
    (c.contentType = "text/plain" || c.contentType = "text/markdown") &&
      decide (query.toList <:+: (toLowercase c.content).toList)
  | none => false

/-! ### The window -/

/-- Created after the window. -/
def ChatMessage.Late (beforeTs : Option ℤ) (msg : ChatMessage) : Prop :=
  ∃ b ∈ beforeTs, b < msg.payload.createdAt

/-- Created before the window. -/
def ChatMessage.Early (afterTs : Option ℤ) (msg : ChatMessage) : Prop :=
  ∃ a ∈ afterTs, msg.payload.createdAt < a

instance (ts : Option ℤ) (msg : ChatMessage) : Decidable (msg.Late ts) :=
  inferInstanceAs (Decidable (∃ b ∈ ts, _))

instance (ts : Option ℤ) (msg : ChatMessage) : Decidable (msg.Early ts) :=
  inferInstanceAs (Decidable (∃ a ∈ ts, _))

/-- The loop over a batch, from its newest message on: what was matched, and whether it has come to
a message before the window. -/
def matchBatch (afterTs beforeTs : Option ℤ) (limit : ℕ) :
    List ChatMessage → List ChatMessage → List ChatMessage × Bool
  | [], matched => (matched, false)
  | msg :: rest, matched =>
    if msg.Late beforeTs then matchBatch afterTs beforeTs limit rest matched
    else if msg.Early afterTs then (matched, true)
    else if limit ≤ (matched ++ [msg]).length then (matched ++ [msg], false)
    else matchBatch afterTs beforeTs limit rest (matched ++ [msg])

section

variable (fetchPage : Option ℤ → ℕ → List (ℤ × Blob Stored))

/-- The loop over the pages, with how many are left. -/
def fetchPages (afterTs beforeTs : Option ℤ) (limit pageSize : ℕ) :
    ℕ → Option ℤ → List ChatMessage → List ChatMessage
  | 0, _, matched => matched
  | pages + 1, cursor, matched =>
    match decodeMessages (fetchPage cursor pageSize) with
    | [] => matched
    | oldest :: newer =>
      let (matched, hitTooOld) :=
        matchBatch afterTs beforeTs limit (oldest :: newer).reverse matched
      if limit ≤ matched.length ∨ hitTooOld = true then matched
      else if some oldest.mid ≠ cursor then
        fetchPages afterTs beforeTs limit pageSize pages (some oldest.mid) matched
      else matched

/-- `fetch_history_by_time`. -/
def fetchHistoryByTime (beforeMid afterTs beforeTs : Option ℤ) (limit : ℕ) : List ChatMessage :=
  if afterTs = none ∧ beforeTs = none then decodeMessages (fetchPage beforeMid limit)
  else (fetchPages fetchPage afterTs beforeTs limit (max 200 limit) 50 beforeMid []).reverse

end

/-- `str::trim`. -/
def trim (text : String) : String :=
  String.ofList ((text.toList.dropWhile isWhitespace).rdropWhile isWhitespace)

/-- The query that is searched for, if there is one. -/
def searchedQuery (toLowercase : String → String) (q : Option String) : Option String :=
  (q.map fun s ↦ toLowercase (trim s)).filter fun s ↦ !s.isEmpty

/-- The limit of a search. -/
def searchLimit (limit : ℕ) : ℕ := max (min limit 500) 1

/-- `search_messages_by_time`, at a time. -/
def searchMessagesByTime (toLowercase : String → String) (db : MsgDb Stored) (now : ℤ) (uid : Int64)
    (afterTs beforeTs : Option ℤ) (q : Option String) (limit : ℕ) : List ChatMessage :=
  let msgs := fetchHistoryByTime (db.fetchUserMessagesBefore uid) none afterTs
    (beforeTs.or (some now)) (searchLimit limit)
  match searchedQuery toLowercase q with
  | some query => msgs.filter fun m ↦ messageMatchesQuery toLowercase m query
  | none => msgs

/-- The message is what a search is for. -/
def SearchedFor (toLowercase : String → String) (q : Option String) (msg : ChatMessage) : Bool :=
  (searchedQuery toLowercase q).all fun query ↦ messageMatchesQuery toLowercase msg query

/-! ### What is to be returned -/

/-- Created in the window. -/
def ChatMessage.InWindow (afterTs beforeTs : Option ℤ) (msg : ChatMessage) : Prop :=
  (∀ a ∈ afterTs, a ≤ msg.payload.createdAt) ∧ ∀ b ∈ beforeTs, msg.payload.createdAt ≤ b

instance (afterTs beforeTs : Option ℤ) (msg : ChatMessage) :
    Decidable (msg.InWindow afterTs beforeTs) :=
  inferInstanceAs (Decidable ((∀ a ∈ afterTs, _) ∧ ∀ b ∈ beforeTs, _))

/-- Below an id, if there is one. -/
def IsBelow (before : Option ℤ) (mid : ℤ) : Prop := ∀ k ∈ before, mid < k

instance (before : Option ℤ) (mid : ℤ) : Decidable (IsBelow before mid) :=
  inferInstanceAs (Decidable (∀ k ∈ before, _))

namespace RecordedDb

/-- The messages of a conversation that are below an id and in a window, oldest first. -/
def messagesIn (r : RecordedDb Stored) (i : MsgIndex) (before afterTs beforeTs : Option ℤ) :
    List ChatMessage :=
  (decodeMessages (r.messagesOf i)).filter fun m ↦
    IsBelow before m.mid ∧ m.InWindow afterTs beforeTs

/-- The newest of them are returned. -/
def HistoryRight (r : RecordedDb Stored) (i : MsgIndex) (before afterTs beforeTs : Option ℤ)
    (limit : ℕ) : Prop :=
  fetchHistoryByTime (r.db.fetchMessagesBefore i) before afterTs beforeTs limit =
    (r.messagesIn i before afterTs beforeTs).rtake limit

/-- What a search is to return: the newest messages of a user that match. -/
def found (toLowercase : String → String) (r : RecordedDb Stored) (now : ℤ) (uid : Int64)
    (afterTs beforeTs : Option ℤ) (q : Option String) (limit : ℕ) : List ChatMessage :=
  ((r.messagesIn (.user uid) none afterTs (beforeTs.or (some now))).filter
    (SearchedFor toLowercase q)).rtake (searchLimit limit)

def SearchRight (toLowercase : String → String) (r : RecordedDb Stored) (now : ℤ) (uid : Int64)
    (afterTs beforeTs : Option ℤ) (q : Option String) (limit : ℕ) : Prop :=
  searchMessagesByTime toLowercase r.db now uid afterTs beforeTs q limit =
    r.found toLowercase now uid afterTs beforeTs q limit

/-! ### What is reached -/

/-- The records of a conversation that are below an id, newest first. -/
def below (r : RecordedDb Stored) (i : MsgIndex) (before : Option ℤ) : List (ℤ × Blob Stored) :=
  ((r.messagesOf i).filter fun e ↦ IsBelow before e.1).reverse

/-- Without a window a message is reached if it is in the first page. With one it is reached if it
is in the first fifty pages, and every newer message that was created before the window was also
created after it. -/
def Reaches (rows : List (ℤ × Blob Stored)) (afterTs beforeTs : Option ℤ) (limit : ℕ)
    (m : ChatMessage) : Prop :=
  if afterTs = none ∧ beforeTs = none then m ∈ decodeMessages (rows.take limit)
  else m ∈ decodeMessages (stretch ChatMessage.decode (max 200 limit) 50 rows) ∧
    ∀ n ∈ decodeMessages rows, m.mid ≤ n.mid → n.Early afterTs → n.Late beforeTs

/-- The messages to be returned are reached. Before an id that is negative there are none, and none
is reached from the newest message on. -/
structure HistoryReached (r : RecordedDb Stored) (i : MsgIndex) (before afterTs beforeTs : Option ℤ)
    (limit : ℕ) : Prop where
  returned : ∀ m ∈ (r.messagesIn i before afterTs beforeTs).rtake limit,
    Reaches (r.below i before) afterTs beforeTs limit m
  negative : ∀ k ∈ before, k < 0 → ∀ m ∈ r.messagesIn i none afterTs beforeTs,
    ¬Reaches (r.below i none) afterTs beforeTs limit m

/-- The messages to be found are reached, and are among the newest of their window. -/
def SearchReached (toLowercase : String → String) (r : RecordedDb Stored) (now : ℤ) (uid : Int64)
    (afterTs beforeTs : Option ℤ) (q : Option String) (limit : ℕ) : Prop :=
  ∀ m ∈ r.found toLowercase now uid afterTs beforeTs q limit,
    Reaches (r.below (.user uid) none) afterTs (beforeTs.or (some now)) (searchLimit limit) m ∧
      m ∈ (r.messagesIn (.user uid) none afterTs (beforeTs.or (some now))).rtake (searchLimit limit)

end RecordedDb

/-! ### A batch -/

section

variable {afterTs beforeTs : Option ℤ} {limit : ℕ}

/-- The messages that do not end the search. -/
def goesOn (afterTs beforeTs : Option ℤ) (m : ChatMessage) : Bool :=
  decide (m.Early afterTs → m.Late beforeTs)

/-- What is matched of some messages, newest first, if nothing limits it. -/
def matchedOf (afterTs beforeTs : Option ℤ) (msgs : List ChatMessage) : List ChatMessage :=
  (msgs.takeWhile (goesOn afterTs beforeTs)).filter fun m ↦ m.InWindow afterTs beforeTs

theorem ChatMessage.inWindow_iff {m : ChatMessage} :
    m.InWindow afterTs beforeTs ↔ ¬m.Late beforeTs ∧ ¬m.Early afterTs := by
  simp only [InWindow, Late, Early, not_exists, not_and, not_lt]
  exact and_comm

theorem matchedOf_cons_of_late {m : ChatMessage} (h : m.Late beforeTs) (msgs : List ChatMessage) :
    matchedOf afterTs beforeTs (m :: msgs) = matchedOf afterTs beforeTs msgs := by
  have hgo : goesOn afterTs beforeTs m = true := decide_eq_true fun _ ↦ h
  have hout : ¬m.InWindow afterTs beforeTs := fun hin ↦ (ChatMessage.inWindow_iff.1 hin).1 h
  rw [matchedOf, List.takeWhile_cons_of_pos hgo, List.filter_cons_of_neg (by simpa using hout),
    matchedOf]

theorem matchedOf_cons_of_early {m : ChatMessage} (hlate : ¬m.Late beforeTs) (h : m.Early afterTs)
    (msgs : List ChatMessage) : matchedOf afterTs beforeTs (m :: msgs) = [] := by
  have hgo : ¬goesOn afterTs beforeTs m = true := fun hgo ↦ hlate (of_decide_eq_true hgo h)
  rw [matchedOf, List.takeWhile_cons_of_neg hgo, List.filter_nil]

theorem matchedOf_cons_of_inWindow {m : ChatMessage} (hlate : ¬m.Late beforeTs)
    (h : ¬m.Early afterTs) (msgs : List ChatMessage) :
    matchedOf afterTs beforeTs (m :: msgs) = m :: matchedOf afterTs beforeTs msgs := by
  have hgo : goesOn afterTs beforeTs m = true := decide_eq_true fun hearly ↦ absurd hearly h
  have hin : m.InWindow afterTs beforeTs := ChatMessage.inWindow_iff.2 ⟨hlate, h⟩
  rw [matchedOf, List.takeWhile_cons_of_pos hgo, List.filter_cons_of_pos (by simpa using hin),
    matchedOf]

/-- The messages of further pages add nothing once a search has ended, and go on with it otherwise.
-/
theorem matchedOf_append (msgs more : List ChatMessage) :
    matchedOf afterTs beforeTs (msgs ++ more) = matchedOf afterTs beforeTs msgs ++
      if ∀ m ∈ msgs, goesOn afterTs beforeTs m = true then matchedOf afterTs beforeTs more
        else [] := by
  rw [matchedOf, List.takeWhile_append]
  by_cases hall : ∀ m ∈ msgs, goesOn afterTs beforeTs m = true
  · have hwhole := List.takeWhile_eq_self_iff.2 hall
    rw [if_pos (by rw [hwhole]), if_pos hall, List.filter_append, matchedOf, hwhole, matchedOf]
  · have hpart : (msgs.takeWhile (goesOn afterTs beforeTs)).length ≠ msgs.length := fun hlength ↦
      hall (List.takeWhile_eq_self_iff.1 ((List.takeWhile_prefix _).eq_of_length hlength))
    rw [if_neg hpart, if_neg hall, List.append_nil, matchedOf]

/-- **A batch** is matched up to the limit, or up to a message before the window. -/
theorem matchBatch_eq (afterTs beforeTs : Option ℤ) (msgs : List ChatMessage)
    {matched : List ChatMessage}
    (h : matched.length < limit) :
    (matchBatch afterTs beforeTs limit msgs matched).1 =
        (matched ++ matchedOf afterTs beforeTs msgs).take limit ∧
      ((matchBatch afterTs beforeTs limit msgs matched).1.length < limit →
        ((matchBatch afterTs beforeTs limit msgs matched).2 = false ↔
          ∀ m ∈ msgs, goesOn afterTs beforeTs m = true)) := by
  induction msgs generalizing matched with
  | nil =>
    refine ⟨?_, fun _ ↦ iff_of_true rfl fun m hm ↦ absurd hm List.not_mem_nil⟩
    rw [matchBatch, matchedOf, List.takeWhile_nil, List.filter_nil, List.append_nil,
      List.take_of_length_le h.le]
  | cons msg rest ih =>
    rw [matchBatch]
    by_cases hlate : msg.Late beforeTs
    · rw [if_pos hlate, matchedOf_cons_of_late hlate, List.forall_mem_cons]
      have hgo : goesOn afterTs beforeTs msg = true := decide_eq_true fun _ ↦ hlate
      rw [and_iff_right hgo]
      exact ih h
    rw [if_neg hlate]
    by_cases hearly : msg.Early afterTs
    · rw [if_pos hearly, matchedOf_cons_of_early hlate hearly, List.append_nil,
        List.take_of_length_le h.le, List.forall_mem_cons]
      refine ⟨rfl, fun _ ↦ iff_of_false Bool.true_eq_false.mp fun hgo ↦ ?_⟩
      exact hlate (of_decide_eq_true hgo.1 hearly)
    rw [if_neg hearly, matchedOf_cons_of_inWindow hlate hearly, List.forall_mem_cons]
    have hgo : goesOn afterTs beforeTs msg = true := decide_eq_true fun he ↦ absurd he hearly
    rw [and_iff_right hgo]
    have hpush : matched ++ msg :: matchedOf afterTs beforeTs rest =
        (matched ++ [msg]) ++ matchedOf afterTs beforeTs rest := by
      rw [List.append_assoc, List.singleton_append]
    rw [hpush]
    by_cases hfull : limit ≤ (matched ++ [msg]).length
    · have hlength : (matched ++ [msg]).length = limit := by
        rw [List.length_append, List.length_singleton] at hfull ⊢
        omega
      rw [if_pos hfull, ← hlength, List.take_left]
      exact ⟨rfl, fun hlt ↦ absurd hlt (lt_irrefl _)⟩
    · rw [if_neg hfull]
      exact ih (not_le.1 hfull)

/-- What was matched when a search ends, whatever may come after the batch. -/
theorem matchBatch_of_stop {msgs matched : List ChatMessage} (h : matched.length < limit)
    (hstop : limit ≤ (matchBatch afterTs beforeTs limit msgs matched).1.length ∨
      (matchBatch afterTs beforeTs limit msgs matched).2 = true) (more : List ChatMessage) :
    (matchBatch afterTs beforeTs limit msgs matched).1 =
      (matched ++ matchedOf afterTs beforeTs (msgs ++ more)).take limit := by
  obtain ⟨hmatched, hends⟩ := matchBatch_eq afterTs beforeTs msgs h
  rw [matchedOf_append]
  by_cases hfull : limit ≤ (matchBatch afterTs beforeTs limit msgs matched).1.length
  · have hle : limit ≤ (matched ++ matchedOf afterTs beforeTs msgs).length := by
      rw [hmatched, List.length_take] at hfull
      omega
    rw [← List.append_assoc, List.take_append_of_le_length hle, hmatched]
  · have htooOld := hstop.resolve_left hfull
    have hnot : ¬∀ m ∈ msgs, goesOn afterTs beforeTs m = true := by
      rw [← hends (not_le.1 hfull), htooOld]
      exact fun heq ↦ Bool.noConfusion heq
    rw [if_neg hnot, List.append_nil, hmatched]

/-- A search that does not end has matched all there is so far. -/
theorem matchBatch_of_not_stop {msgs matched : List ChatMessage} (h : matched.length < limit)
    (hgo : ¬(limit ≤ (matchBatch afterTs beforeTs limit msgs matched).1.length ∨
      (matchBatch afterTs beforeTs limit msgs matched).2 = true)) (more : List ChatMessage) :
    (matchBatch afterTs beforeTs limit msgs matched).1.length < limit ∧
      (matchBatch afterTs beforeTs limit msgs matched).1 ++ matchedOf afterTs beforeTs more =
        matched ++ matchedOf afterTs beforeTs (msgs ++ more) := by
  obtain ⟨hfull, hhit⟩ := not_or.1 hgo
  obtain ⟨hmatched, hends⟩ := matchBatch_eq afterTs beforeTs msgs h
  have hall := (hends (not_le.1 hfull)).1 (Bool.eq_false_of_not_eq_true hhit)
  refine ⟨not_le.1 hfull, ?_⟩
  have hlt : (matched ++ matchedOf afterTs beforeTs msgs).length < limit := by
    rw [hmatched, List.length_take] at hfull
    omega
  rw [hmatched, List.take_of_length_le hlt.le, matchedOf_append, if_pos hall, List.append_assoc]

/-! ### Page after page -/

variable {fetchPage : Option ℤ → ℕ → List (ℤ × Blob Stored)} {cursor : Option ℤ}
  {rows : List (ℤ × Blob Stored)}

theorem decodeMessages_reverse (rows : List (ℤ × Blob Stored)) :
    decodeMessages rows.reverse = (decodeMessages rows).reverse :=
  List.filterMap_reverse

theorem ChatMessage.mid_of_decode {e : ℤ × Blob Stored} {m : ChatMessage}
    (h : ChatMessage.decode e = some m) : m.mid = e.1 := by
  obtain ⟨payload, -, rfl⟩ := Option.map_eq_some_iff.1 h
  rfl

/-- **The pages** are matched up to the limit, as far as they reach. -/
theorem fetchPages_eq (pageSize pages : ℕ) {matched : List ChatMessage}
    (hpaged : Paged fetchPage cursor rows) (h : matched.length < limit) :
    fetchPages fetchPage afterTs beforeTs limit pageSize pages cursor matched =
      (matched ++ matchedOf afterTs beforeTs
        (decodeMessages (stretch ChatMessage.decode pageSize pages rows))).take limit := by
  -- on the pages left, for whatever cursor the source has the rest of the rows for
  induction pages generalizing cursor rows matched with
  | zero =>
    rw [fetchPages, stretch, decodeMessages, List.filterMap_nil, matchedOf, List.takeWhile_nil,
      List.filter_nil, List.append_nil, List.take_of_length_le h.le]
  | succ pages ih =>
    rw [fetchPages, hpaged.first, decodeMessages_reverse]
    cases hbatch : (decodeMessages (rows.take pageSize)).reverse with
    | nil =>
      -- no message of this page can be decoded, and older pages are not asked for
      have hnone := List.reverse_eq_nil_iff.1 hbatch
      rw [stretch_eq_nil hnone, decodeMessages, List.filterMap_nil, matchedOf, List.takeWhile_nil,
        List.filter_nil, List.append_nil, List.take_of_length_le h.le]
    | cons oldest newer =>
      have hdecoded : decodeMessages (rows.take pageSize) = newer.reverse ++ [oldest] := by
        rw [← List.reverse_reverse (decodeMessages _), hbatch, List.reverse_cons]
      obtain ⟨front, e, rest, hrows, hpage, he⟩ := exists_page_eq hdecoded
      have hmid := ChatMessage.mid_of_decode he
      have hdrop : rows.drop (page ChatMessage.decode pageSize rows).length = rest := by
        rw [hpage, hrows, List.append_cons front e rest, List.drop_left]
      have hseen : decodeMessages (stretch ChatMessage.decode pageSize (pages + 1) rows) =
          decodeMessages (rows.take pageSize) ++
            decodeMessages (stretch ChatMessage.decode pageSize pages rest) := by
        rw [stretch, hdrop, decodeMessages, List.filterMap_append, filterMap_page]
        rfl
      have hnewest : (oldest :: newer).reverse = decodeMessages (rows.take pageSize) := by
        rw [hdecoded, List.reverse_cons]
      simp only [hnewest, hseen]
      by_cases hstop :
        limit ≤ (matchBatch afterTs beforeTs limit (decodeMessages (rows.take pageSize))
          matched).1.length ∨
        (matchBatch afterTs beforeTs limit (decodeMessages (rows.take pageSize)) matched).2 = true
      · rw [if_pos hstop]
        exact matchBatch_of_stop h hstop _
      · obtain ⟨hlength, hmatched⟩ := matchBatch_of_not_stop h hstop
          (decodeMessages (stretch ChatMessage.decode pageSize pages rest))
        have hnext : Paged fetchPage (some oldest.mid) rest := by
          rw [hrows] at hpaged
          rw [hmid]
          exact hpaged.next
        have hfresh : some oldest.mid ≠ cursor := by
          rw [hmid]
          exact (hpaged.fresh e (hrows ▸ List.mem_append_right _ List.mem_cons_self)).symm
        rw [if_neg hstop, if_pos hfresh, ih hnext hlength, hmatched]

/-- The messages that are looked at, newest first. -/
def seen (rows : List (ℤ × Blob Stored)) (afterTs beforeTs : Option ℤ) (limit : ℕ) :
    List ChatMessage :=
  if afterTs = none ∧ beforeTs = none then decodeMessages (rows.take limit)
  else (decodeMessages (stretch ChatMessage.decode (max 200 limit) 50 rows)).takeWhile
    (goesOn afterTs beforeTs)

/-- **What is returned**: of the messages looked at, the newest in the window. -/
theorem fetchHistoryByTime_eq (hpaged : Paged fetchPage cursor rows) (hlimit : 1 ≤ limit) :
    fetchHistoryByTime fetchPage cursor afterTs beforeTs limit =
      (((seen rows afterTs beforeTs limit).filter fun m ↦
        m.InWindow afterTs beforeTs).take limit).reverse := by
  rw [fetchHistoryByTime, seen]
  by_cases hopen : afterTs = none ∧ beforeTs = none
  · obtain ⟨rfl, rfl⟩ := hopen
    have hall : ((decodeMessages (rows.take limit)).filter fun m ↦ m.InWindow none none) =
        decodeMessages (rows.take limit) :=
      List.filter_eq_self.2 fun m _ ↦ decide_eq_true ⟨nofun, nofun⟩
    have hlength : (decodeMessages (rows.take limit)).length ≤ limit :=
      (List.length_filterMap_le _ _).trans (List.length_take_le _ _)
    rw [if_pos ⟨rfl, rfl⟩, if_pos ⟨rfl, rfl⟩, hall, List.take_of_length_le hlength, hpaged.first,
      decodeMessages_reverse]
  · rw [if_neg hopen, if_neg hopen, fetchPages_eq (max 200 limit) 50 hpaged hlimit, List.nil_append,
      matchedOf]

theorem decodeMessages_falling (h : rows.Pairwise fun x y ↦ y.1 < x.1) :
    (decodeMessages rows).Pairwise fun m n ↦ n.mid < m.mid := by
  refine List.Pairwise.filterMap _ (fun x y hlt m hm n hn ↦ ?_) h
  rw [ChatMessage.mid_of_decode hm, ChatMessage.mid_of_decode hn]
  exact hlt

theorem decodeMessages_nodup (h : rows.Pairwise fun x y ↦ y.1 < x.1) :
    (decodeMessages rows).Nodup := by
  refine (decodeMessages_falling h).imp fun hlt heq ↦ ?_
  rw [heq] at hlt
  exact lt_irrefl _ hlt

theorem isPrefix_decodeMessages_stretch (rows : List (ℤ × Blob Stored)) (limit : ℕ) :
    decodeMessages (stretch ChatMessage.decode (max 200 limit) 50 rows) <+: decodeMessages rows :=
  (isPrefix_stretch 50).filterMap _

theorem isPrefix_seen (rows : List (ℤ × Blob Stored)) (afterTs beforeTs : Option ℤ) (limit : ℕ) :
    seen rows afterTs beforeTs limit <+: decodeMessages rows := by
  rw [seen]
  split
  · exact (List.take_prefix _ _).filterMap _
  · exact (List.takeWhile_prefix _).trans (isPrefix_decodeMessages_stretch rows limit)

/-- The messages that are looked at are those that are reached. -/
theorem mem_seen_iff (h : rows.Pairwise fun x y ↦ y.1 < x.1) {m : ChatMessage} :
    m ∈ seen rows afterTs beforeTs limit ↔ RecordedDb.Reaches rows afterTs beforeTs limit m := by
  rw [seen, RecordedDb.Reaches]
  split
  · exact Iff.rfl
  · rw [mem_takeWhile (isPrefix_decodeMessages_stretch rows limit) (decodeMessages_falling h)]
    simp only [goesOn, decide_eq_true_iff]

end

/-! ### The pages of the database -/

namespace RecordedDb

variable {r : RecordedDb Stored} {i : MsgIndex}

theorem Inv.below_falling (h : r.Inv) (before : Option ℤ) :
    (r.below i before).Pairwise fun x y ↦ y.1 < x.1 :=
  List.pairwise_reverse.2 ((h.messagesOf_sorted i).filter _)

theorem mem_below {before : Option ℤ} {e : ℤ × Blob Stored} :
    e ∈ r.below i before ↔ e ∈ r.messagesOf i ∧ IsBelow before e.1 := by
  rw [below, List.mem_reverse, List.mem_filter, decide_eq_true_iff]

/-- The pages of a conversation, from a cursor with these records. -/
theorem Inv.paged_of_first (h : r.Inv) {cursor before : Option ℤ}
    (hfirst : ∀ size, r.db.fetchMessagesBefore i cursor size =
      ((r.below i before).take size).reverse)
    (hfresh : ∀ e ∈ r.below i before, cursor ≠ some e.1) :
    Paged (r.db.fetchMessagesBefore i) cursor (r.below i before) where
  falling := h.below_falling before
  first := hfirst
  fresh := hfresh
  later e he size := by
    obtain ⟨hmem, hlt⟩ := mem_below.1 he
    have hsame : ((r.below i before).filter fun x ↦ x.1 < e.1) =
        ((r.messagesOf i).filter fun x ↦ x.1 < e.1).reverse := by
      rw [below, List.filter_reverse, List.filter_filter]
      refine congrArg List.reverse (List.filter_congr fun x _ ↦ ?_)
      rw [← Bool.decide_and, decide_eq_decide]
      exact and_iff_left_of_imp fun hx k hk ↦ hx.trans (hlt k hk)
    rw [h.fetchMessagesBefore_of_isMid i (h.isMid_messagesOf hmem), page, hsame,
      List.rtake_eq_reverse_take_reverse]

theorem Inv.paged (h : r.Inv) {before : Option ℤ} (hbefore : ∀ k ∈ before, IsMid k) :
    Paged (r.db.fetchMessagesBefore i) before (r.below i before) := by
  refine h.paged_of_first (fun size ↦ ?_) fun e he heq ↦ ?_
  · cases before with
    | none =>
      have hall : ((r.messagesOf i).filter fun e ↦ IsBelow none e.1) = r.messagesOf i :=
        List.filter_eq_self.2 fun e _ ↦ decide_eq_true nofun
      rw [h.fetchMessagesBefore_none, below, hall, List.rtake_eq_reverse_take_reverse]
    | some k =>
      have hsame : ((r.messagesOf i).filter fun e ↦ IsBelow (some k) e.1) =
          (r.messagesOf i).filter fun e ↦ e.1 < k := by
        refine List.filter_congr fun e _ ↦ decide_eq_decide.2 ?_
        simp only [IsBelow, Option.mem_def, Option.some.injEq, forall_eq']
      rw [h.fetchMessagesBefore_of_isMid i (hbefore k rfl), RecordedDb.page, below, hsame,
        List.rtake_eq_reverse_take_reverse]
  · exact lt_irrefl _ ((mem_below.1 he).2 _ heq)

/-- From an id that is negative, all records are read. -/
theorem Inv.paged_of_neg (h : r.Inv) {k : ℤ} (hk : IsI64 k) (hneg : k < 0) :
    Paged (r.db.fetchMessagesBefore i) (some k) (r.below i none) := by
  refine h.paged_of_first (fun size ↦ ?_) fun e he heq ↦ ?_
  · have hnone : ∀ k ∈ (none : Option ℤ), IsMid k := nofun
    rw [h.fetchMessagesBefore_of_neg i hk hneg, ← h.fetchMessagesBefore_none, (h.paged hnone).first]
  · have := (h.isMid_messagesOf (mem_below.1 he).1).1
    have := Option.some.inj heq
    omega

/-! ### When it is right -/

theorem messagesIn_eq (before afterTs beforeTs : Option ℤ) :
    r.messagesIn i before afterTs beforeTs =
    ((decodeMessages (r.below i before)).filter fun m ↦ m.InWindow afterTs beforeTs).reverse := by
  have hbelow : decodeMessages ((r.messagesOf i).filter fun e ↦ IsBelow before e.1) =
      (decodeMessages (r.messagesOf i)).filter fun m ↦ IsBelow before m.mid := by
    rw [decodeMessages, decodeMessages, List.filterMap_filter, List.filter_filterMap]
    refine List.filterMap_congr fun e _ ↦ ?_
    cases hdecode : ChatMessage.decode e with
    | none => exact ite_self _
    | some m =>
      rw [Option.filter_some, ChatMessage.mid_of_decode hdecode]
  rw [below, decodeMessages_reverse, hbelow, List.filter_reverse, List.reverse_reverse,
    List.filter_filter, messagesIn]
  refine List.filter_congr fun m _ ↦ ?_
  rw [← Bool.decide_and, decide_eq_decide]
  exact and_comm

/-- The newest of some messages, from a list of them with the newest first. -/
theorem rtake_messagesIn (before afterTs beforeTs : Option ℤ) (limit : ℕ) :
    (r.messagesIn i before afterTs beforeTs).rtake limit =
      (((decodeMessages (r.below i before)).filter fun m ↦
        m.InWindow afterTs beforeTs).take limit).reverse := by
  rw [messagesIn_eq, List.rtake_eq_reverse_take_reverse, List.reverse_reverse]

/-- Before a negative id there is no message. -/
theorem Inv.messagesIn_of_neg (h : r.Inv) {k : ℤ} (hneg : k < 0) (afterTs beforeTs : Option ℤ) :
    r.messagesIn i (some k) afterTs beforeTs = [] := by
  refine List.filter_eq_nil_iff.2 fun m hm ↦ ?_
  obtain ⟨e, he, hdecode⟩ := List.mem_filterMap.1 hm
  have hmid := (h.isMid_messagesOf he).1
  rw [← ChatMessage.mid_of_decode hdecode] at hmid
  rw [decide_eq_true_iff]
  rintro ⟨hlt, -⟩
  have := hlt k rfl
  omega

theorem Inv.historyRight_of_isMid (h : r.Inv) {before : Option ℤ} (hbefore : ∀ k ∈ before, IsMid k)
    {afterTs beforeTs : Option ℤ} {limit : ℕ} (hlimit : 1 ≤ limit) :
    r.HistoryRight i before afterTs beforeTs limit ↔
      ∀ m ∈ (r.messagesIn i before afterTs beforeTs).rtake limit,
        Reaches (r.below i before) afterTs beforeTs limit m := by
  have hfalling := h.below_falling (i := i) before
  rw [HistoryRight, fetchHistoryByTime_eq (h.paged hbefore) hlimit, rtake_messagesIn,
    List.reverse_inj,
    take_filter_eq_iff (isPrefix_seen _ _ _ _) (decodeMessages_nodup hfalling)]
  simp only [List.mem_reverse, mem_seen_iff hfalling]

theorem Inv.historyRight_of_neg (h : r.Inv) {k : ℤ} (hk : IsI64 k) (hneg : k < 0)
    {afterTs beforeTs : Option ℤ} {limit : ℕ} (hlimit : 1 ≤ limit) :
    r.HistoryRight i (some k) afterTs beforeTs limit ↔
      ∀ m ∈ r.messagesIn i none afterTs beforeTs,
        ¬Reaches (r.below i none) afterTs beforeTs limit m := by
  have hfalling := h.below_falling (i := i) none
  rw [HistoryRight, h.messagesIn_of_neg hneg, List.rtake_nil,
    fetchHistoryByTime_eq (h.paged_of_neg hk hneg) hlimit, List.reverse_eq_nil_iff,
    List.take_eq_nil_iff, or_iff_right (by omega), List.filter_eq_nil_iff, messagesIn_eq]
  simp only [List.mem_reverse, List.mem_filter, decide_eq_true_iff, ← mem_seen_iff hfalling]
  constructor
  · exact fun hnone m hm hseen ↦ hnone m hseen hm.2
  · exact fun hnone m hseen hin ↦ hnone m ⟨(isPrefix_seen _ _ _ _).subset hseen, hin⟩ hseen

/-- **When history is right.** -/
theorem Inv.historyRight_iff (h : r.Inv) {before : Option ℤ} (hbefore : ∀ k ∈ before, IsI64 k)
    {afterTs beforeTs : Option ℤ} {limit : ℕ} (hlimit : 1 ≤ limit) :
    r.HistoryRight i before afterTs beforeTs limit ↔
      r.HistoryReached i before afterTs beforeTs limit := by
  by_cases hneg : ∃ k ∈ before, k < 0
  · obtain ⟨k, rfl, hneg⟩ := hneg
    rw [h.historyRight_of_neg (hbefore k rfl) hneg hlimit]
    constructor
    · refine fun hnone ↦ ⟨fun m hm ↦ ?_, fun _ _ _ ↦ hnone⟩
      rw [h.messagesIn_of_neg hneg, List.rtake_nil] at hm
      cases hm
    · exact fun hreached ↦ hreached.negative k rfl hneg
  · have hmid : ∀ k ∈ before, IsMid k :=
      fun k hk ↦ ⟨not_lt.1 fun hlt ↦ hneg ⟨k, hk, hlt⟩, (hbefore k hk).2⟩
    rw [h.historyRight_of_isMid hmid hlimit]
    constructor
    · exact fun hall ↦ ⟨hall, fun k hk hlt ↦ absurd ⟨k, hk, hlt⟩ hneg⟩
    · exact fun hreached ↦ hreached.returned

/-- Where all records can be decoded, times rise with ids and there are no more records than fifty
pages have, all is reached. -/
theorem historyReached_of_rising {before afterTs beforeTs : Option ℤ} {limit : ℕ}
    (hbefore : ∀ k ∈ before, IsMid k)
    (hdecoded : ∀ e ∈ r.messagesOf i, (ChatMessage.decode e).isSome)
    (hrising : ∀ m ∈ decodeMessages (r.messagesOf i), ∀ n ∈ decodeMessages (r.messagesOf i),
      m.mid ≤ n.mid → m.payload.createdAt ≤ n.payload.createdAt)
    (hlength : (r.messagesOf i).length ≤ 50 * max 200 limit) :
    r.HistoryReached i before afterTs beforeTs limit := by
  have hrows : ∀ e ∈ r.below i before, (ChatMessage.decode e).isSome :=
    fun e he ↦ hdecoded e (mem_below.1 he).1
  have hsubset : ∀ m ∈ decodeMessages (r.below i before), m ∈ decodeMessages (r.messagesOf i) := by
    intro m hm
    obtain ⟨e, he, hdecode⟩ := List.mem_filterMap.1 hm
    exact List.mem_filterMap.2 ⟨e, (mem_below.1 he).1, hdecode⟩
  refine ⟨fun m hm ↦ ?_, fun k hk hneg ↦ absurd (hbefore k hk).1 (not_le.2 hneg)⟩
  rw [rtake_messagesIn, List.mem_reverse] at hm
  have hin := List.mem_filter.1 (List.mem_of_mem_take hm)
  rw [decide_eq_true_iff] at hin
  rw [Reaches]
  split
  case isTrue hopen =>
    obtain ⟨rfl, rfl⟩ := hopen
    have hall : ((decodeMessages (r.below i before)).filter fun m ↦ m.InWindow none none) =
        decodeMessages (r.below i before) :=
      List.filter_eq_self.2 fun m _ ↦ decide_eq_true ⟨nofun, nofun⟩
    rw [hall] at hm
    rw [decodeMessages, take_filterMap_of_decoded hrows]
    exact hm
  case isFalse =>
    have hbelow : (r.below i before).length ≤ 50 * max 200 limit := by
      rw [below, List.length_reverse]
      exact (List.length_filter_le _ _).trans hlength
    rw [stretch_of_decoded hrows, List.take_of_length_le hbelow]
    refine ⟨hin.1, fun n hn hle hearly ↦ ?_⟩
    -- what is newer was not created earlier, so it cannot be before a window that `m` is in
    obtain ⟨a, ha, hlt⟩ := hearly
    have hrise := hrising m (hsubset m hin.1) n (hsubset n hn) hle
    exact absurd (hin.2.1 a ha) (by omega)

/-- What a search does to the messages that it is given. -/
theorem searchMessagesByTime_eq (toLowercase : String → String) (db : MsgDb Stored) (now : ℤ)
    (uid : Int64) (afterTs beforeTs : Option ℤ) (q : Option String) (limit : ℕ) :
    searchMessagesByTime toLowercase db now uid afterTs beforeTs q limit =
      (fetchHistoryByTime (db.fetchUserMessagesBefore uid) none afterTs (beforeTs.or (some now))
        (searchLimit limit)).filter (SearchedFor toLowercase q) := by
  rw [searchMessagesByTime]
  cases hquery : searchedQuery toLowercase q with
  | none =>
    refine (List.filter_eq_self.2 fun m _ ↦ ?_).symm
    rw [SearchedFor, hquery, Option.all_none]
  | some query =>
    refine List.filter_congr fun m _ ↦ ?_
    rw [SearchedFor, hquery, Option.all_some]

/-- **When a search is right.** -/
theorem Inv.searchRight_iff (h : r.Inv) (toLowercase : String → String) (now : ℤ) (uid : Int64)
    (afterTs beforeTs : Option ℤ) (q : Option String) (limit : ℕ) :
    r.SearchRight toLowercase now uid afterTs beforeTs q limit ↔
      r.SearchReached toLowercase now uid afterTs beforeTs q limit := by
  have hlimit : 1 ≤ searchLimit limit := le_max_right _ _
  have hnone : ∀ k ∈ (none : Option ℤ), IsMid k := nofun
  have hfalling := h.below_falling (i := .user uid) none
  have hfetch : fetchHistoryByTime (r.db.fetchUserMessagesBefore uid) none afterTs
      (beforeTs.or (some now)) (searchLimit limit) = _ :=
    fetchHistoryByTime_eq (h.paged (i := .user uid) hnone) hlimit
  rw [SearchRight, SearchReached, searchMessagesByTime_eq, hfetch, found, messagesIn_eq,
    List.filter_reverse, List.filter_reverse, List.rtake_eq_reverse_take_reverse,
    List.reverse_reverse, List.reverse_inj,
    filter_take_filter_eq_iff (isPrefix_seen _ _ _ _) (decodeMessages_nodup hfalling)]
  simp only [List.mem_reverse, mem_seen_iff hfalling, List.rtake_eq_reverse_take_reverse,
    List.reverse_reverse]

/-- **History in a time window**, after every sequence of calls: a request returns the newest
messages of the conversation below its id and in its window exactly when these are all reached, and
a search finds the newest that match exactly when these are all reached and among the newest of the
window. -/
theorem timeWindows_iff (toLowercase : String → String) (as : List (RecordAction Stored)) :
    (∀ (i : MsgIndex) (before : Option Int64) (afterTs beforeTs : Option ℤ) (limit : ℕ), 1 ≤ limit →
      ((after as).HistoryRight i (before.map Int64.toInt) afterTs beforeTs limit ↔
        (after as).HistoryReached i (before.map Int64.toInt) afterTs beforeTs limit)) ∧
    ∀ (now : ℤ) (uid : Int64) (afterTs beforeTs : Option ℤ) (q : Option String) (limit : ℕ),
      (after as).SearchRight toLowercase now uid afterTs beforeTs q limit ↔
        (after as).SearchReached toLowercase now uid afterTs beforeTs q limit := by
  refine ⟨fun i before afterTs beforeTs limit hlimit ↦ ?_, ?_⟩
  · refine (inv_after as).historyRight_iff (fun k hk ↦ ?_) hlimit
    obtain ⟨b, -, rfl⟩ := Option.map_eq_some_iff.1 hk
    exact toInt_range b
  · exact (inv_after as).searchRight_iff toLowercase

/-- A group with two messages, created at these times. -/
def twoMessages (first second : ℤ) : List (RecordAction Stored) :=
  [first, second].map fun createdAt ↦ .sendToGroup 7 [1] (.chat ⟨1, createdAt, .group 7,
    .normal ⟨⟨none, "text/plain", "hello"⟩, none⟩⟩) fun _ ↦ false

/-- The first of two messages, created after the second, is not returned. -/
theorem not_historyRight_late :
    ¬∀ (toLowercase : String → String) (as : List (RecordAction Stored)),
    (∀ (i : MsgIndex) (before : Option Int64) (afterTs beforeTs : Option ℤ) (limit : ℕ), 1 ≤ limit →
      (after as).HistoryRight i (before.map Int64.toInt) afterTs beforeTs limit) ∧
    ∀ (now : ℤ) (uid : Int64) (afterTs beforeTs : Option ℤ) (q : Option String) (limit : ℕ),
      (after as).SearchRight toLowercase now uid afterTs beforeTs q limit := by
  intro h
  have hright := (h id (twoMessages 10 5)).1 (.group 7) none (some 8) none 1 le_rfl
  have hlength := congrArg List.length hright
  revert hlength
  decide +kernel

/-- Where the second message is the later one, it is returned. -/
theorem timeWindows_iff_rising :
    (after (twoMessages 5 10)).HistoryRight (.group 7) none (some 8) none 1 :=
  ((timeWindows_iff id (twoMessages 5 10)).1 (.group 7) none (some 8) none 1 le_rfl).2
    (historyReached_of_rising (fun k hk ↦ absurd hk (Option.not_mem_none k)) (by decide +kernel)
      (by decide +kernel) (by decide +kernel))

end RecordedDb

end VoceChat
