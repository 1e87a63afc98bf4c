import Mathlib.Data.List.Basic
import VoceChat.Mls.Routing

/-!
# Reserving MLS sequence positions (`reserve_mls_sequence`)

The three tables of `20260718010000_e2ee_v2_mls_sequence.sql` and the function that adds rows to
them. Rows are kept in insertion order; the keys and the foreign key of the tables are checked by
the inserts, with SQLite's error codes.

A call is one SQLite transaction. Any of its statements may fail for a reason of its own (`Faults`);
an error, of whatever origin, drops the transaction and the tables are as they were.

## The abstract counter

Under the SQL there is a simple idea: a group has a next epoch, a commit has room for one welcome,
and a device has a next generation in the current epoch. `Reservation` names a position, `IsNext`
says that it is the one to be taken now, and `reserveMlsSequence_eq_ok` shows that the function
grants exactly the next positions.
-/

namespace VoceChat

open Guards Machine

structure CommitRow where
  gid : Int64
  epoch : ℕ
  commitId : String
  senderUid : Int64
  senderDeviceId : String
  deriving DecidableEq, Repr

structure WelcomeRow where
  gid : Int64
  epoch : ℕ
  commitId : String
  senderUid : Int64
  senderDeviceId : String
  deriving DecidableEq, Repr

structure ApplicationRow where
  gid : Int64
  epoch : ℕ
  senderUid : Int64
  senderDeviceId : String
  generation : ℕ
  deriving DecidableEq, Repr

structure SequenceTables where
  /-- `e2e_v2_mls_commit` -/
  commits : List CommitRow
  /-- `e2e_v2_mls_welcome` -/
  welcomes : List WelcomeRow
  /-- `e2e_v2_mls_application` -/
  applications : List ApplicationRow
  deriving DecidableEq, Repr

/-- What `sqlx` reports: the code of a database error, or a failure without one. -/
inductive SqlxError where
  | database (code : String)
  | other
  deriving DecidableEq, Repr

inductive MlsSequenceError where
  | conflict
  | database (error : SqlxError)
  deriving DecidableEq, Repr

/-- `sequence_database_error`: a violated primary key or unique index is a conflict. -/
def sequenceDatabaseError (error : SqlxError) : MlsSequenceError :=
  match error with
  | .database code => if code = "1555" ∨ code = "2067" then .conflict else .database error
  | .other => .database error

/-- The statements of a reservation that may fail on their own. -/
inductive SequenceStatement where
  | begin
  /-- `select max(epoch)`, or `select count(*)` for a welcome -/
  | select
  /-- `select max(generation)` -/
  | lastGeneration
  | insert
  | commit
  deriving DecidableEq, Repr

/-- Which statements fail, and how. -/
abbrev Faults := SequenceStatement → Option SqlxError

namespace SequenceTables

/-- The tables of a new database. -/
def empty : SequenceTables := ⟨[], [], []⟩

/-- The epochs of a group's commits, in the order they were stored. -/
def epochs (db : SequenceTables) (gid : Int64) : List ℕ :=
  (db.commits.filter fun row ↦ row.gid = gid).map CommitRow.epoch

/-- The generations a device has used in an epoch, in the order they were stored. -/
def generations (db : SequenceTables) (gid : Int64) (epoch : ℕ) (senderUid : Int64)
    (senderDeviceId : String) : List ℕ :=
  (db.applications.filter fun row ↦ row.gid = gid ∧ row.epoch = epoch ∧
    row.senderUid = senderUid ∧ row.senderDeviceId = senderDeviceId).map ApplicationRow.generation

/-- `select max(epoch) from e2e_v2_mls_commit where gid = ?`, with `0` for no row. -/
def currentEpoch (db : SequenceTables) (gid : Int64) : ℕ := (db.epochs gid).max?.getD 0

/-- One more than `select max(generation)`, or `0` for no row. -/
def expectedGeneration (db : SequenceTables) (gid : Int64) (epoch : ℕ) (senderUid : Int64)
    (senderDeviceId : String) : ℕ :=
  ((db.generations gid epoch senderUid senderDeviceId).max?.map (· + 1)).getD 0

/-- `select count(*) from e2e_v2_mls_commit where gid = ? and epoch = ? and commit_id = ?`. -/
def countCommits (db : SequenceTables) (gid : Int64) (epoch : ℕ) (commitId : String) : ℕ :=
  db.commits.countP fun row ↦ row.gid = gid ∧ row.epoch = epoch ∧ row.commitId = commitId

def insertCommit (db : SequenceTables) (row : CommitRow) : Except SqlxError SequenceTables :=
  if ∃ r ∈ db.commits, r.gid = row.gid ∧ r.epoch = row.epoch then .error (.database "1555")
  else if ∃ r ∈ db.commits, r.gid = row.gid ∧ r.commitId = row.commitId then
    .error (.database "2067")
  else .ok { db with commits := db.commits ++ [row] }

def insertWelcome (db : SequenceTables) (row : WelcomeRow) : Except SqlxError SequenceTables :=
  if ∃ r ∈ db.welcomes, r.gid = row.gid ∧ r.epoch = row.epoch ∧ r.commitId = row.commitId then
    .error (.database "1555")
  else if ∃ r ∈ db.commits, r.gid = row.gid ∧ r.epoch = row.epoch then
    .ok { db with welcomes := db.welcomes ++ [row] }
  else .error (.database "787")

def insertApplication (db : SequenceTables) (row : ApplicationRow) :
    Except SqlxError SequenceTables :=
  if row ∈ db.applications then .error (.database "1555")
  else .ok { db with applications := db.applications ++ [row] }

end SequenceTables

/-- `ok_or(MlsSequenceError::Conflict)`. -/
def orConflict {α : Type} : Option α → Except MlsSequenceError α
  | some a => .ok a
  | none => .error .conflict

/-- A statement that may fail on its own. -/
def Faults.attempt (faults : Faults) (statement : SequenceStatement)
    (mapErr : SqlxError → MlsSequenceError) : Except MlsSequenceError Unit :=
  match faults statement with
  | some error => .error (mapErr error)
  | none => .ok ()

/-- The `match` of `reserve_mls_sequence`: the row is added, or nothing is. -/
def reserveRow (faults : Faults) (db : SequenceTables) (gid senderUid : Int64)
    (route : RoutingProperties) (epoch generation : ℕ) : Except MlsSequenceError SequenceTables :=
  match route.wireClass, route.mlsHandshakeKind with
  | .mlsHandshake, some .commit => do
    faults.attempt .select .database
    ensure (epoch = db.currentEpoch gid + 1) .conflict
    let commitId ← orConflict route.mlsCommitId
    faults.attempt .insert sequenceDatabaseError
    (db.insertCommit ⟨gid, epoch, commitId, senderUid, route.senderDeviceId⟩).mapError
      sequenceDatabaseError
  | .mlsHandshake, some .welcome => do
    let commitId ← orConflict route.mlsCommitId
    faults.attempt .select .database
    ensure (db.countCommits gid epoch commitId = 1) .conflict
    faults.attempt .insert sequenceDatabaseError
    (db.insertWelcome ⟨gid, epoch, commitId, senderUid, route.senderDeviceId⟩).mapError
      sequenceDatabaseError
  | .mlsApplication, none => do
    faults.attempt .select .database
    ensure (epoch = db.currentEpoch gid) .conflict
    faults.attempt .lastGeneration .database
    ensure (generation = db.expectedGeneration gid epoch senderUid route.senderDeviceId) .conflict
    faults.attempt .insert sequenceDatabaseError
    (db.insertApplication ⟨gid, epoch, senderUid, route.senderDeviceId, generation⟩).mapError
      sequenceDatabaseError
  | _, _ => .error .conflict

/-- The body of `reserve_mls_sequence`: the tables as the transaction commits them. -/
def reserveInTransaction (faults : Faults) (db : SequenceTables) (gid senderUid : Int64)
    (route : RoutingProperties) : Except MlsSequenceError SequenceTables := do
  ensure (route.protocol = .mls) .conflict
  let epoch ← orConflict (route.mlsEpoch.filter (· < i64Size))
  let generation ← orConflict route.mlsGeneration
  faults.attempt .begin .database
  let db ← reserveRow faults db gid senderUid route epoch generation
  faults.attempt .commit .database
  return db

/-- `reserve_mls_sequence`: the answer and the tables it leaves. A transaction that is dropped is
rolled back. -/
def reserveMlsSequence (faults : Faults) (db : SequenceTables) (gid senderUid : Int64)
    (route : RoutingProperties) : Except MlsSequenceError Unit × SequenceTables :=
  match reserveInTransaction faults db gid senderUid route with
  | .ok db' => (.ok (), db')
  | .error e => (.error e, db)

/-! ### Positions -/

/-- A row to be added to one of the tables. -/
inductive Reservation where
  | commit (row : CommitRow)
  | welcome (row : WelcomeRow)
  | application (row : ApplicationRow)
  deriving DecidableEq, Repr

/-- The row that a message of this epoch and generation asks for, if its other fields name one. -/
def RoutingProperties.row (route : RoutingProperties) (gid senderUid : Int64)
    (epoch generation : ℕ) : Option Reservation :=
  match route.wireClass, route.mlsHandshakeKind with
  | .mlsHandshake, some .commit =>
    route.mlsCommitId.map fun commitId ↦
      .commit ⟨gid, epoch, commitId, senderUid, route.senderDeviceId⟩
  | .mlsHandshake, some .welcome =>
    route.mlsCommitId.map fun commitId ↦
      .welcome ⟨gid, epoch, commitId, senderUid, route.senderDeviceId⟩
  | .mlsApplication, none =>
    some (.application ⟨gid, epoch, senderUid, route.senderDeviceId, generation⟩)
  | _, _ => none

/-- The position a message with these properties asks for. -/
def RoutingProperties.reservation (route : RoutingProperties) (gid senderUid : Int64) :
    Option Reservation :=
  if route.protocol = .mls then
    (route.mlsEpoch.filter (· < i64Size)).bind fun epoch ↦
      route.mlsGeneration.bind fun generation ↦ route.row gid senderUid epoch generation
  else none

namespace SequenceTables

def add (db : SequenceTables) : Reservation → SequenceTables
  | .commit row => { db with commits := db.commits ++ [row] }
  | .welcome row => { db with welcomes := db.welcomes ++ [row] }
  | .application row => { db with applications := db.applications ++ [row] }

/-- The row is there. -/
def Has (db : SequenceTables) : Reservation → Prop
  | .commit row => row ∈ db.commits
  | .welcome row => row ∈ db.welcomes
  | .application row => row ∈ db.applications

/-- The position is the next one to be taken. -/
def IsNext (db : SequenceTables) : Reservation → Prop
  | .commit row => row.epoch = db.currentEpoch row.gid + 1 ∧
      ∀ r ∈ db.commits, r.gid = row.gid → r.commitId ≠ row.commitId
  | .welcome row => db.countCommits row.gid row.epoch row.commitId = 1 ∧
      ∀ r ∈ db.welcomes, r.gid = row.gid → r.epoch = row.epoch → r.commitId ≠ row.commitId
  | .application row => row.epoch = db.currentEpoch row.gid ∧
      row.generation = db.expectedGeneration row.gid row.epoch row.senderUid row.senderDeviceId

instance (db : SequenceTables) (r : Reservation) : Decidable (db.IsNext r) := by
  cases r <;> unfold IsNext <;> infer_instance

/-! ### The inserts at a next position -/

theorem mem_epochs {db : SequenceTables} {r : CommitRow} (h : r ∈ db.commits) :
    r.epoch ∈ db.epochs r.gid :=
  List.mem_map.2 ⟨r, List.mem_filter.2 ⟨h, by simp⟩, rfl⟩

theorem epoch_le_currentEpoch {db : SequenceTables} {r : CommitRow} (h : r ∈ db.commits) :
    r.epoch ≤ db.currentEpoch r.gid :=
  List.le_max?_getD_of_mem (mem_epochs h)

/-- A row of the next epoch cannot violate the primary key, so only its commit id matters. -/
theorem insertCommit_eq_ok {db db' : SequenceTables} {row : CommitRow}
    (hepoch : row.epoch = db.currentEpoch row.gid + 1) : db.insertCommit row = .ok db' ↔
      (∀ r ∈ db.commits, r.gid = row.gid → r.commitId ≠ row.commitId) ∧
        db' = db.add (.commit row) := by
  have hkey : ¬∃ r ∈ db.commits, r.gid = row.gid ∧ r.epoch = row.epoch := by
    rintro ⟨r, hr, hgid, heq⟩
    have := epoch_le_currentEpoch hr
    rw [hgid] at this
    omega
  rw [insertCommit, if_neg hkey]
  split
  · rename_i hid
    obtain ⟨r, hr, hgid, heq⟩ := hid
    exact iff_of_false nofun fun h ↦ h.1 r hr hgid heq
  · rename_i hid
    exact ⟨fun h ↦ ⟨fun r hr hgid heq ↦ hid ⟨r, hr, hgid, heq⟩, (Except.ok.inj h).symm⟩,
      fun h ↦ congrArg _ h.2.symm⟩

/-- A welcome to an existing commit cannot violate the foreign key. -/
theorem insertWelcome_eq_ok {db db' : SequenceTables} {row : WelcomeRow}
    (hcount : db.countCommits row.gid row.epoch row.commitId = 1) :
    db.insertWelcome row = .ok db' ↔
      (∀ r ∈ db.welcomes, r.gid = row.gid → r.epoch = row.epoch → r.commitId ≠ row.commitId) ∧
        db' = db.add (.welcome row) := by
  have hforeign : ∃ r ∈ db.commits, r.gid = row.gid ∧ r.epoch = row.epoch := by
    obtain ⟨r, hr, hrow⟩ := List.countP_pos_iff.1 (hcount.symm ▸ Nat.one_pos)
    rw [decide_eq_true_iff] at hrow
    exact ⟨r, hr, hrow.1, hrow.2.1⟩
  rw [insertWelcome, if_pos hforeign]
  split
  · rename_i hkey
    obtain ⟨r, hr, hgid, hepoch, heq⟩ := hkey
    exact iff_of_false nofun fun h ↦ h.1 r hr hgid hepoch heq
  · rename_i hkey
    exact ⟨fun h ↦ ⟨fun r hr hgid hepoch heq ↦ hkey ⟨r, hr, hgid, hepoch, heq⟩,
      (Except.ok.inj h).symm⟩, fun h ↦ congrArg _ h.2.symm⟩

theorem generation_lt_expected {db : SequenceTables} {r : ApplicationRow}
    (h : r ∈ db.applications) :
    r.generation < db.expectedGeneration r.gid r.epoch r.senderUid r.senderDeviceId := by
  have hmem : r.generation ∈ db.generations r.gid r.epoch r.senderUid r.senderDeviceId :=
    List.mem_map.2 ⟨r, List.mem_filter.2 ⟨h, by simp⟩, rfl⟩
  have hle := List.le_max?_getD_of_mem (k := 0) hmem
  unfold expectedGeneration
  cases hmax : (db.generations r.gid r.epoch r.senderUid r.senderDeviceId).max? with
  | none => rw [List.max?_eq_none_iff.1 hmax] at hmem; cases hmem
  | some g =>
    rw [hmax] at hle
    exact Nat.lt_succ_of_le hle

/-- A row of the next generation cannot violate the primary key. -/
theorem insertApplication_eq_ok {db db' : SequenceTables} {row : ApplicationRow}
    (hgen : row.generation =
      db.expectedGeneration row.gid row.epoch row.senderUid row.senderDeviceId) :
    db.insertApplication row = .ok db' ↔ db' = db.add (.application row) := by
  rw [insertApplication, if_neg fun h ↦ absurd hgen (Nat.ne_of_lt (generation_lt_expected h))]
  exact ⟨fun h ↦ (Except.ok.inj h).symm, fun h ↦ congrArg _ h.symm⟩

/-- A next position is not taken yet. -/
theorem IsNext.not_has {db : SequenceTables} {r : Reservation} (h : db.IsNext r) : ¬db.Has r := by
  intro hhas
  cases r with
  | commit row => exact h.2 row hhas rfl rfl
  | welcome row => exact h.2 row hhas rfl rfl rfl
  | application row => exact absurd h.2 (Nat.ne_of_lt (generation_lt_expected hhas))

theorem has_add (db : SequenceTables) (r : Reservation) : (db.add r).Has r := by
  cases r with
  | commit row | welcome row | application row =>
    exact List.mem_append_right _ (List.mem_singleton_self _)

theorem Has.add {db : SequenceTables} {r : Reservation} (h : db.Has r) (r' : Reservation) :
    (db.add r').Has r := by
  cases r with
  | commit row | welcome row | application row =>
    cases r' with
    | commit _ | welcome _ | application _ =>
      first
      | exact h
      | exact List.mem_append_left _ h

end SequenceTables

/-! ### What a reservation grants -/

/-- The statements a reservation of this kind runs all succeed on their own. -/
structure Faults.Quiet (faults : Faults) (r : Reservation) : Prop where
  begin : faults .begin = none
  select : faults .select = none
  lastGeneration : ∀ row, r = .application row → faults .lastGeneration = none
  insert : faults .insert = none
  commit : faults .commit = none

@[simp] theorem Faults.attempt_eq_ok {faults : Faults} {statement : SequenceStatement}
    {mapErr : SqlxError → MlsSequenceError} :
    faults.attempt statement mapErr = .ok () ↔ faults statement = none := by
  unfold attempt
  cases faults statement with
  | none => exact iff_of_true rfl rfl
  | some e => exact iff_of_false nofun nofun

@[simp] theorem orConflict_eq_ok {α : Type} {o : Option α} {a : α} :
    orConflict o = .ok a ↔ o = some a := by
  cases o with
  | none => exact iff_of_false nofun nofun
  | some b => exact ⟨fun h ↦ congrArg _ (Except.ok.inj h), fun h ↦ congrArg _ (Option.some.inj h)⟩

/-- One case per branch of the `match`: a statement's own failure apart, the row is added exactly
where it is the next one. -/
theorem reserveRow_eq_ok {faults : Faults} {db db' : SequenceTables} {gid uid : Int64}
    {route : RoutingProperties} {epoch generation : ℕ} :
    reserveRow faults db gid uid route epoch generation = .ok db' ↔
      ∃ r, route.row gid uid epoch generation = some r ∧ db.IsNext r ∧
        (faults .select = none ∧ (∀ row, r = .application row → faults .lastGeneration = none) ∧
          faults .insert = none) ∧ db' = db.add r := by
  unfold reserveRow RoutingProperties.row
  split
  · simp only [bind_eq_ok, ensure_eq_ok, exists_unit, orConflict_eq_ok, Faults.attempt_eq_ok,
      mapError_eq_ok, Option.map_eq_some_iff]
    constructor
    · rintro ⟨hselect, hepoch, commitId, hid, hinsert, hrow⟩
      obtain ⟨hnew, rfl⟩ := (SequenceTables.insertCommit_eq_ok hepoch).1 hrow
      exact ⟨_, ⟨commitId, hid, rfl⟩, ⟨hepoch, hnew⟩,
        ⟨hselect, (fun _ h ↦ by cases h), hinsert⟩, rfl⟩
    · rintro ⟨_, ⟨commitId, hid, rfl⟩, ⟨hepoch, hnew⟩, ⟨hselect, -, hinsert⟩, rfl⟩
      exact ⟨hselect, hepoch, commitId, hid, hinsert,
        (SequenceTables.insertCommit_eq_ok hepoch).2 ⟨hnew, rfl⟩⟩
  · simp only [bind_eq_ok, ensure_eq_ok, exists_unit, orConflict_eq_ok, Faults.attempt_eq_ok,
      mapError_eq_ok, Option.map_eq_some_iff]
    constructor
    · rintro ⟨commitId, hid, hselect, hcount, hinsert, hrow⟩
      obtain ⟨hnew, rfl⟩ := (SequenceTables.insertWelcome_eq_ok hcount).1 hrow
      exact ⟨_, ⟨commitId, hid, rfl⟩, ⟨hcount, hnew⟩,
        ⟨hselect, (fun _ h ↦ by cases h), hinsert⟩, rfl⟩
    · rintro ⟨_, ⟨commitId, hid, rfl⟩, ⟨hcount, hnew⟩, ⟨hselect, -, hinsert⟩, rfl⟩
      exact ⟨commitId, hid, hselect, hcount, hinsert,
        (SequenceTables.insertWelcome_eq_ok hcount).2 ⟨hnew, rfl⟩⟩
  · simp only [bind_eq_ok, ensure_eq_ok, exists_unit, Faults.attempt_eq_ok, mapError_eq_ok,
      Option.some_inj]
    constructor
    · rintro ⟨hselect, hepoch, hlast, hgen, hinsert, hrow⟩
      obtain rfl := (SequenceTables.insertApplication_eq_ok hgen).1 hrow
      exact ⟨_, rfl, ⟨hepoch, hgen⟩, ⟨hselect, fun _ _ ↦ hlast, hinsert⟩, rfl⟩
    · rintro ⟨_, rfl, ⟨hepoch, hgen⟩, ⟨hselect, hlast, hinsert⟩, rfl⟩
      exact ⟨hselect, hepoch, hlast _ rfl, hgen, hinsert,
        (SequenceTables.insertApplication_eq_ok hgen).2 rfl⟩
  · constructor
    · intro h
      cases h
    · rintro ⟨_, h, -⟩
      cases h

/-- **A reservation is granted exactly at the next position**, and adds that row alone. -/
theorem reserveInTransaction_eq_ok {faults : Faults} {db db' : SequenceTables} {gid uid : Int64}
    {route : RoutingProperties} : reserveInTransaction faults db gid uid route = .ok db' ↔
      ∃ r, route.reservation gid uid = some r ∧ db.IsNext r ∧ faults.Quiet r ∧ db' = db.add r := by
  simp only [reserveInTransaction, bind_eq_ok, ensure_eq_ok, exists_unit, pure_eq_ok,
    orConflict_eq_ok, Faults.attempt_eq_ok, reserveRow_eq_ok]
  unfold RoutingProperties.reservation
  constructor
  · rintro ⟨hmls, epoch, hepoch, generation, hgen, hbegin, _,
      ⟨r, hrow, hnext, ⟨hselect, hlast, hinsert⟩, rfl⟩, hcommit, rfl⟩
    rw [if_pos hmls, hepoch, hgen]
    exact ⟨r, hrow, hnext, ⟨hbegin, hselect, hlast, hinsert, hcommit⟩, rfl⟩
  · rintro ⟨r, hrow, hnext, hquiet, rfl⟩
    split at hrow
    · rename_i hmls
      obtain ⟨epoch, hepoch, hrow⟩ := Option.bind_eq_some_iff.1 hrow
      obtain ⟨generation, hgen, hrow⟩ := Option.bind_eq_some_iff.1 hrow
      exact ⟨hmls, epoch, hepoch, generation, hgen, hquiet.begin, _,
        ⟨r, hrow, hnext, ⟨hquiet.select, hquiet.lastGeneration, hquiet.insert⟩, rfl⟩,
        hquiet.commit, rfl⟩
    · cases hrow

/-- A call either takes one next position or leaves the tables alone. -/
theorem reserveMlsSequence_cases (faults : Faults) (db : SequenceTables) (gid uid : Int64)
    (route : RoutingProperties) :
    (∃ r, route.reservation gid uid = some r ∧ db.IsNext r ∧ faults.Quiet r ∧
      reserveMlsSequence faults db gid uid route = (.ok (), db.add r)) ∨
    ∃ e, reserveMlsSequence faults db gid uid route = (.error e, db) := by
  unfold reserveMlsSequence
  cases h : reserveInTransaction faults db gid uid route with
  | error e => exact .inr ⟨e, rfl⟩
  | ok db' =>
    obtain ⟨r, hr, hnext, hquiet, rfl⟩ := reserveInTransaction_eq_ok.1 h
    exact .inl ⟨r, hr, hnext, hquiet, rfl⟩

end VoceChat
