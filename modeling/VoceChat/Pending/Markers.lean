import VoceChat.Foundations.Guards
import VoceChat.Foundations.Table
import VoceChat.Msgdb.Allocation

/-!
# Pending markers and their projection (`src/e2ee_v2.rs`)

A deferred DM is stored together with a marker under `PEND/`. The marker is projected into the table
`e2e_pending_message` of the SQLite database, and removed afterwards. A projection that was made
before is not made again, but it has to name the same sender and target.

`reconcilePendingDmMarkers` projects all markers in the order of their ids and stops at the first
that cannot be projected: it succeeds when every marker can be (`reconcileMarkers_of_projectable`),
and only then (`reconcileMarkers_isOk`).

The date of a marker is given by its milliseconds; `valid` says which are dates of `chrono`.
-/

namespace VoceChat

open BigEndian Guards Machine

structure PendingMessageMarker where
  mid : ℤ
  senderUid : Int64
  targetUid : Int64
  createdAtMillis : ℤ
  deriving DecidableEq, Repr

/-- `decode_key_pending_message_marker`. -/
def decodeKeyPendingMessageMarker (data : Bytes) : Option ℤ :=
  if data.take 5 = ascii "PEND/" ∧ (data.drop 5).length = 8 then some (fromBeI64 (data.drop 5))
  else none

/-- `decode_pending_marker_value`. -/
def decodePendingMarkerValue (data : Bytes) : Option (Int64 × Int64 × ℤ) :=
  if data.length = 24 then
    some (Int64.ofInt (fromBeI64 (data.take 8)), Int64.ofInt (fromBeI64 ((data.drop 8).take 8)),
      fromBeI64 ((data.drop 8).drop 8))
  else none

def PendingMessageMarker.value (m : PendingMessageMarker) : Bytes :=
  pendingMarkerValue m.senderUid m.targetUid m.createdAtMillis

namespace MsgDb

variable {μ : Type}

def decodeMarker (e : Bytes × Blob μ) : Except MsgDbError PendingMessageMarker :=
  match decodeKeyPendingMessageMarker e.1, e.2 with
  | some mid, .bytes value =>
    match decodePendingMarkerValue value with
    | some (senderUid, targetUid, createdAtMillis) =>
      .ok ⟨mid, senderUid, targetUid, createdAtMillis⟩
    | none => .error .invalidData
  | _, _ => .error .invalidData

/-- The loop of `pending_message_markers`. -/
def collectMarkers : List (Bytes × Blob μ) → Except MsgDbError (List PendingMessageMarker)
  | [] => .ok []
  | e :: rest => do
    let marker ← decodeMarker e
    let markers ← collectMarkers rest
    return marker :: markers

/-- `pending_message_markers`. -/
def pendingMessageMarkers (s : MsgDb μ) : Except MsgDbError (List PendingMessageMarker) :=
  collectMarkers (s.db.entries.filter fun e ↦ e.1.take 5 = ascii "PEND/")

/-- `remove_pending_message_marker`. -/
def removePendingMessageMarker (s : MsgDb μ) (mid : ℤ) : MsgDb μ :=
  { s with db := s.db.erase (keyPendingMessageMarker mid) }

end MsgDb

/-! ### The table -/

/-- A row of `e2e_pending_message`, without its key. -/
structure PendingRow where
  senderUid : Int64
  targetUid : Int64
  completedAt : Option ℤ
  createdAt : ℤ
  deriving DecidableEq, Repr

/-- The tables that a projection reads and writes; of the users only who there is. -/
structure PendingTables where
  users : List Int64
  pendings : Table ℤ PendingRow

inductive PendingProjectionError where
  | metadataConflict
  | invalidMarker
  | sqlite
  | marker (e : MsgDbError)
  deriving DecidableEq, Repr

/-- `insert into e2e_pending_message … on conflict(mid) do nothing`, with its foreign keys. -/
def PendingTables.insertPending (db : PendingTables) (m : PendingMessageMarker) :
    Except PendingProjectionError PendingTables :=
  match db.pendings.get m.mid with
  | some _ => .ok db
  | none => do
    ensure (m.senderUid ∈ db.users ∧ m.targetUid ∈ db.users) .sqlite
    return { db with
      pendings := db.pendings.put m.mid ⟨m.senderUid, m.targetUid, none, m.createdAtMillis⟩ }

/-- `project_pending_dm_marker`: a transaction. -/
def projectPendingDmMarker (valid : ℤ → Bool) (db : PendingTables) (m : PendingMessageMarker) :
    Except PendingProjectionError PendingTables := do
  ensure (valid m.createdAtMillis) .invalidMarker
  let db ← db.insertPending m
  match db.pendings.get m.mid with
  | none => .error .sqlite
  | some stored => do
    ensure ((stored.senderUid, stored.targetUid) = (m.senderUid, m.targetUid)) .metadataConflict
    return db

/-- The loop of `reconcile_pending_dm_markers`. -/
def reconcileMarkers {μ : Type} (valid : ℤ → Bool) : List PendingMessageMarker →
    MsgDb μ → PendingTables → Except PendingProjectionError ℕ × MsgDb μ × PendingTables
  | [], msgDb, db => (.ok 0, msgDb, db)
  | m :: markers, msgDb, db =>
    match projectPendingDmMarker valid db m with
    | .error e => (.error e, msgDb, db)
    | .ok db =>
      let (reconciled, msgDb, db) :=
        reconcileMarkers valid markers (msgDb.removePendingMessageMarker m.mid) db
      (reconciled.map (· + 1), msgDb, db)

/-- `reconcile_pending_dm_markers`, when nothing else happens meanwhile. -/
def reconcilePendingDmMarkers {μ : Type} (valid : ℤ → Bool) (msgDb : MsgDb μ)
    (db : PendingTables) : Except PendingProjectionError ℕ × MsgDb μ × PendingTables :=
  match msgDb.pendingMessageMarkers with
  | .error e => (.error (.marker e), msgDb, db)
  | .ok markers => reconcileMarkers valid markers msgDb db

/-! ### Markers in the message database -/

/-- What fits into a marker: the id is one and the date has its milliseconds in an `i64`. -/
def PendingMessageMarker.Fits (m : PendingMessageMarker) : Prop :=
  IsMid m.mid ∧ -i64Size ≤ m.createdAtMillis ∧ m.createdAtMillis < i64Size

theorem decodePendingMarkerValue_value {m : PendingMessageMarker} (hm : m.Fits) :
    decodePendingMarkerValue m.value = some (m.senderUid, m.targetUid, m.createdAtMillis) := by
  have htail : (m.value.drop 8).length = 16 := by
    simp [PendingMessageMarker.value, pendingMarkerValue, length_beI64]
  have hlength : m.value.length = 24 := by
    simp [PendingMessageMarker.value, pendingMarkerValue, length_beI64]
  have hdrop : m.value.drop 8 = beI64 m.targetUid.toInt ++ beI64 m.createdAtMillis := by
    rw [PendingMessageMarker.value, pendingMarkerValue, List.append_assoc,
      List.drop_left' (length_beI64 _)]
  have htake : m.value.take 8 = beI64 m.senderUid.toInt := by
    rw [PendingMessageMarker.value, pendingMarkerValue, List.append_assoc,
      List.take_left' (length_beI64 _)]
  rw [decodePendingMarkerValue, if_pos hlength, htake, hdrop, List.take_left' (length_beI64 _),
    List.drop_left' (length_beI64 _), fromBeI64_beI64 (toInt_range _),
    fromBeI64_beI64 (toInt_range _), fromBeI64_beI64 hm.2, Int64.ofInt_toInt, Int64.ofInt_toInt]

theorem decodeKeyPendingMessageMarker_key {mid : ℤ} (hmid : IsMid mid) :
    decodeKeyPendingMessageMarker (keyPendingMessageMarker mid) = some mid := by
  have hprefix : (ascii "PEND/").length = 5 := by decide
  have hdrop : (keyPendingMessageMarker mid).drop 5 = beI64 mid := by
    rw [keyPendingMessageMarker, ← hprefix, List.drop_left]
  have htake : (keyPendingMessageMarker mid).take 5 = ascii "PEND/" := by
    rw [keyPendingMessageMarker, ← hprefix, List.take_left]
  rw [decodeKeyPendingMessageMarker, htake, hdrop, if_pos ⟨rfl, length_beI64 _⟩,
    fromBeI64_beI64 hmid.range]

/-- A key under the prefix of the markers is the key of a marker. -/
theorem pendingMarker_of_take {k : RecordKey} (h : k.bytes.take 5 = ascii "PEND/") :
    ∃ mid, k = .pendingMarker mid := by
  cases k with
  | pendingMarker mid => exact ⟨mid, rfl⟩
  | msg mid => exact absurd h (bytes_ne_of_head (by decide))
  | merged mid => exact absurd h (bytes_ne_of_head (by decide))
  | user uid mid => exact absurd h (bytes_ne_of_head (by decide))
  | group gid mid => exact absurd h (bytes_ne_of_head (by decide))
  | dm fromUid toUid mid => exact absurd h (bytes_ne_of_head (by decide))
  | sequence ty => exact absurd h (bytes_ne_of_head (by decide))

/-- The message database has this marker. -/
def MsgDb.HasMarker {μ : Type} (map : OrderedMap Bytes (Blob μ)) (m : PendingMessageMarker) :
    Prop :=
  m.Fits ∧ map.get (keyPendingMessageMarker m.mid) = some (.bytes m.value)

/-- What is stored under the prefix of the markers are markers. -/
def MsgDb.MarkersFit {μ : Type} (s : MsgDb μ) : Prop :=
  ∀ mid v, IsMid mid → s.db.get (keyPendingMessageMarker mid) = some v →
    ∃ m : PendingMessageMarker, m.mid = mid ∧ m.Fits ∧ v = .bytes m.value

namespace MsgDb

variable {μ : Type} {s : MsgDb μ}

theorem decodeMarker_eq_ok {key : Bytes} {m : PendingMessageMarker} (hm : m.Fits)
    (hkey : key = keyPendingMessageMarker m.mid) :
    decodeMarker (key, (.bytes m.value : Blob μ)) = .ok m := by
  simp only [decodeMarker, hkey, decodeKeyPendingMessageMarker_key hm.1,
    decodePendingMarkerValue_value hm]

theorem collectMarkers_eq_ok {es : List (Bytes × Blob μ)}
    (h : ∀ e ∈ es, ∃ m : PendingMessageMarker, m.Fits ∧
      e = (keyPendingMessageMarker m.mid, .bytes m.value)) :
    ∃ ms, collectMarkers es = .ok ms ∧ (∀ m ∈ ms, m.Fits) ∧
      es = ms.map fun m ↦ (keyPendingMessageMarker m.mid, .bytes m.value) := by
  induction es with
  | nil => exact ⟨[], rfl, fun _ hm ↦ absurd hm List.not_mem_nil, rfl⟩
  | cons e es ih =>
    obtain ⟨m, hm, rfl⟩ := h _ List.mem_cons_self
    obtain ⟨ms, hms, hfits, hes⟩ := ih fun e he ↦ h e (List.mem_cons_of_mem _ he)
    refine ⟨m :: ms, ?_, List.forall_mem_cons.2 ⟨hm, hfits⟩, by rw [List.map_cons, ← hes]⟩
    rw [collectMarkers, decodeMarker_eq_ok hm rfl, hms]
    rfl

/-- **The scan finds the markers**, each once. -/
theorem pendingMessageMarkers_eq_ok (hkeys : s.KeysValid) (hfit : s.MarkersFit) :
    ∃ ms, s.pendingMessageMarkers = .ok ms ∧ (ms.map PendingMessageMarker.mid).Nodup ∧
      ∀ m, m ∈ ms ↔ HasMarker s.db m := by
  set es := s.db.entries.filter fun e ↦ e.1.take 5 = ascii "PEND/" with hes
  have hmarkers : ∀ e ∈ es, ∃ m : PendingMessageMarker, m.Fits ∧
      e = (keyPendingMessageMarker m.mid, .bytes m.value) := by
    rintro ⟨key, v⟩ he
    obtain ⟨hmem, hprefix⟩ := List.mem_filter.1 he
    obtain ⟨k, hk, rfl⟩ := hkeys _ hmem
    obtain ⟨mid, rfl⟩ := pendingMarker_of_take (of_decide_eq_true hprefix)
    obtain ⟨m, rfl, hm, rfl⟩ := hfit mid v hk (OrderedMap.get_eq_some.2 hmem)
    exact ⟨m, hm, rfl⟩
  obtain ⟨ms, hms, hfits, hlist⟩ := collectMarkers_eq_ok hmarkers
  refine ⟨ms, hms, ?_, fun m ↦ ⟨fun hm ↦ ⟨hfits m hm, ?_⟩, fun hm ↦ ?_⟩⟩
  · have hsorted : (es.map Prod.fst).Nodup :=
      (List.nodup_iff_pairwise_ne.2 ((List.pairwise_map.2 s.db.sorted).imp ne_of_lt)).sublist
        (List.filter_sublist.map _)
    rw [hlist, List.map_map] at hsorted
    refine List.Nodup.of_map keyPendingMessageMarker ?_
    rw [List.map_map]
    exact hsorted
  · have hmem : (keyPendingMessageMarker m.mid, Blob.bytes m.value) ∈ es :=
      hlist ▸ List.mem_map.2 ⟨m, hm, rfl⟩
    exact OrderedMap.get_eq_some.2 (List.mem_filter.1 hmem).1
  · have hprefix : (ascii "PEND/").length = 5 := by decide
    have hmem : (keyPendingMessageMarker m.mid, Blob.bytes m.value) ∈ es := by
      refine List.mem_filter.2 ⟨OrderedMap.get_eq_some.1 hm.2, decide_eq_true ?_⟩
      rw [keyPendingMessageMarker, ← hprefix, List.take_left]
    rw [hlist] at hmem
    obtain ⟨m', hm', heq⟩ := List.mem_map.1 hmem
    have hdecode : decodeMarker (keyPendingMessageMarker m'.mid, (.bytes m'.value : Blob μ)) =
        .ok m := by
      rw [heq]
      exact decodeMarker_eq_ok hm.1 rfl
    obtain rfl := Except.ok.inj ((decodeMarker_eq_ok (hfits m' hm') rfl).symm.trans hdecode)
    exact hm'

end MsgDb

/-! ### What a projection does -/

/-- The marker can be projected: its row is there already, or can be inserted. -/
def Projectable (valid : ℤ → Bool) (db : PendingTables) (m : PendingMessageMarker) : Prop :=
  valid m.createdAtMillis = true ∧
    match db.pendings.get m.mid with
    | some row => row.senderUid = m.senderUid ∧ row.targetUid = m.targetUid
    | none => m.senderUid ∈ db.users ∧ m.targetUid ∈ db.users

/-- The row of a new marker. -/
def PendingMessageMarker.row (m : PendingMessageMarker) : PendingRow :=
  ⟨m.senderUid, m.targetUid, none, m.createdAtMillis⟩

/-- The tables when the marker is projected. -/
def PendingTables.projected (db : PendingTables) (m : PendingMessageMarker) : PendingTables :=
  match db.pendings.get m.mid with
  | some _ => db
  | none => { db with pendings := db.pendings.put m.mid m.row }

section Project

variable {valid : ℤ → Bool} {db : PendingTables} {m : PendingMessageMarker}

@[simp] theorem PendingTables.users_projected (db : PendingTables) (m : PendingMessageMarker) :
    (db.projected m).users = db.users := by
  rw [projected]
  split <;> rfl

theorem PendingTables.get_projected (db : PendingTables) (m : PendingMessageMarker) (mid : ℤ) :
    (db.projected m).pendings.get mid =
      if mid = m.mid then some ((db.pendings.get mid).getD m.row) else db.pendings.get mid := by
  rw [projected]
  cases hget : db.pendings.get m.mid with
  | some row =>
    by_cases h : mid = m.mid
    · rw [if_pos h, h, hget, Option.getD_some]
    · rw [if_neg h]
  | none =>
    show (db.pendings.put m.mid m.row).get mid = _
    rw [Table.get_put]
    by_cases h : mid = m.mid
    · rw [if_pos h, if_pos h, h, hget, Option.getD_none]
    · rw [if_neg h, if_neg h]

theorem projectPendingDmMarker_of_projectable (h : Projectable valid db m) :
    projectPendingDmMarker valid db m = .ok (db.projected m) := by
  obtain ⟨hvalid, h⟩ := h
  rw [projectPendingDmMarker, PendingTables.insertPending, PendingTables.projected]
  cases hget : db.pendings.get m.mid with
  | some row =>
    rw [hget] at h
    simp [ensure, hvalid, hget, h, bind, Except.bind, pure, Except.pure]
  | none =>
    rw [hget] at h
    simp [ensure, hvalid, h, PendingMessageMarker.row, bind, Except.bind, pure, Except.pure]

/-- A failed projection leaves no trace; with the users there and the row of another message, it is
a conflict. -/
theorem projectPendingDmMarker_of_not (h : ¬Projectable valid db m) :
    ∃ e, projectPendingDmMarker valid db m = .error e ∧
      (e = .metadataConflict ↔ valid m.createdAtMillis = true ∧
        ∃ row ∈ db.pendings.get m.mid,
        ¬(row.senderUid = m.senderUid ∧ row.targetUid = m.targetUid)) := by
  rw [Projectable] at h
  rw [projectPendingDmMarker, PendingTables.insertPending]
  by_cases hvalid : valid m.createdAtMillis = true
  · cases hget : db.pendings.get m.mid with
    | some row =>
      rw [hget] at h
      have hdiffer : ¬(row.senderUid = m.senderUid ∧ row.targetUid = m.targetUid) :=
        fun hsame ↦ h ⟨hvalid, hsame⟩
      refine ⟨.metadataConflict, ?_, iff_of_true rfl ⟨hvalid, row, rfl, hdiffer⟩⟩
      simp [ensure, hvalid, hget, hdiffer, bind, Except.bind]
    | none =>
      rw [hget] at h
      have husers : ¬(m.senderUid ∈ db.users ∧ m.targetUid ∈ db.users) :=
        fun husers ↦ h ⟨hvalid, husers⟩
      refine ⟨.sqlite, ?_, iff_of_false (fun he ↦ by cases he) ?_⟩
      · simp [ensure, hvalid, husers, bind, Except.bind]
      · rintro ⟨-, row, hrow, -⟩
        cases hrow
  · refine ⟨.invalidMarker, ?_, iff_of_false (fun he ↦ by cases he) fun he ↦ hvalid he.1⟩
    simp [ensure, hvalid, bind, Except.bind]

/-- The projection of another marker changes nothing for this one. -/
theorem projectable_projected {m' : PendingMessageMarker} (hne : m.mid ≠ m'.mid) :
    Projectable valid (db.projected m') m ↔ Projectable valid db m := by
  rw [Projectable, Projectable, PendingTables.get_projected, if_neg hne,
    PendingTables.users_projected]

end Project

/-! ### The loop -/

section Loop

variable {μ : Type} {valid : ℤ → Bool} {markers : List PendingMessageMarker}

theorem get_foldl_projected {db : PendingTables} (mid : ℤ) :
    (markers.foldl PendingTables.projected db).pendings.get mid =
      match db.pendings.get mid with
      | some row => some row
      | none => (markers.find? fun m ↦ m.mid = mid).map PendingMessageMarker.row := by
  induction markers generalizing db with
  | nil =>
    rw [List.foldl_nil]
    cases db.pendings.get mid <;> rfl
  | cons m markers ih =>
    rw [List.foldl_cons, ih, PendingTables.get_projected, List.find?_cons]
    by_cases h : mid = m.mid
    · subst h
      simp only [if_true, decide_true]
      cases db.pendings.get m.mid <;> rfl
    · simp only [if_neg h, decide_eq_false (Ne.symm h)]

/-- The database without these markers. -/
def MsgDb.withoutMarkers (s : MsgDb μ) (markers : List PendingMessageMarker) : MsgDb μ :=
  markers.foldl (fun s m ↦ s.removePendingMessageMarker m.mid) s

/-- When every marker can be projected, all are, and removed. -/
theorem reconcileMarkers_of_projectable (hnodup : (markers.map PendingMessageMarker.mid).Nodup)
    {db : PendingTables} (h : ∀ m ∈ markers, Projectable valid db m) (msgDb : MsgDb μ) :
    reconcileMarkers valid markers msgDb db =
      (.ok markers.length, msgDb.withoutMarkers markers,
        markers.foldl PendingTables.projected db) := by
  induction markers generalizing db msgDb with
  | nil => rfl
  | cons m markers ih =>
    obtain ⟨hm, hrest⟩ := List.nodup_cons.1 hnodup
    obtain ⟨hproject, h⟩ := List.forall_mem_cons.1 h
    have hothers : ∀ m' ∈ markers, Projectable valid (db.projected m) m' := fun m' hm' ↦
      (projectable_projected fun heq ↦ hm (List.mem_map.2 ⟨m', hm', heq⟩)).2 (h m' hm')
    rw [reconcileMarkers, projectPendingDmMarker_of_projectable hproject]
    simp only [ih hrest hothers]
    rfl

/-- One marker that cannot be projected, and the loop fails. -/
theorem reconcileMarkers_isOk (hnodup : (markers.map PendingMessageMarker.mid).Nodup)
    {db : PendingTables} {msgDb : MsgDb μ} {n : ℕ}
    (h : (reconcileMarkers valid markers msgDb db).1 = .ok n) :
    ∀ m ∈ markers, Projectable valid db m := by
  induction markers generalizing db msgDb n with
  | nil => exact fun _ hm ↦ absurd hm List.not_mem_nil
  | cons m markers ih =>
    obtain ⟨hm, hrest⟩ := List.nodup_cons.1 hnodup
    rw [reconcileMarkers] at h
    by_cases hproject : Projectable valid db m
    · rw [projectPendingDmMarker_of_projectable hproject] at h
      cases hloop : (reconcileMarkers valid markers (msgDb.removePendingMessageMarker m.mid)
          (db.projected m)).1 with
      | error e =>
        simp only [hloop] at h
        cases h
      | ok k =>
        refine List.forall_mem_cons.2 ⟨hproject, fun m' hm' ↦ ?_⟩
        exact (projectable_projected fun heq ↦ hm (List.mem_map.2 ⟨m', hm', heq⟩)).1
          (ih hrest hloop m' hm')
    · obtain ⟨e, he, -⟩ := projectPendingDmMarker_of_not hproject
      rw [he] at h
      cases h

theorem get_withoutMarkers (s : MsgDb μ) (markers : List PendingMessageMarker) (key : Bytes) :
    (s.withoutMarkers markers).db.get key =
      if ∃ m ∈ markers, key = keyPendingMessageMarker m.mid then none else s.db.get key := by
  rw [MsgDb.withoutMarkers]
  induction markers generalizing s with
  | nil => simp
  | cons m markers ih =>
    rw [List.foldl_cons, ih]
    show (if _ then none else (s.db.erase (keyPendingMessageMarker m.mid)).get key) = _
    rw [OrderedMap.get_erase]
    by_cases h : key = keyPendingMessageMarker m.mid
    · rw [if_pos h, ite_self, if_pos ⟨m, List.mem_cons_self, h⟩]
    · rw [if_neg h]
      refine if_congr ?_ rfl rfl
      rw [List.exists_mem_cons_iff, or_iff_right h]

end Loop

end VoceChat
