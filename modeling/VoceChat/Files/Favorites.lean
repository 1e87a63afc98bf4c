import Mathlib.Data.Int.Notation
import VoceChat.Foundations.Machine
import VoceChat.Foundations.Run
import VoceChat.Foundations.Table

/-!
# Favorite archives (`src/api/favorite.rs`)

A user keeps archives of messages, at most `max_favorite_archives` of them. `create` counts the rows
of the user, builds the archive, writes it to a file and inserts a row; `delete` looks for the file,
deletes the row and removes the file. No lock is held over these steps, so the steps of all calls
that are under way interleave.

The count query has a placeholder for the user, but no value is bound to it. SQLite reads an unbound
parameter as `NULL`, no row is equal to that, and the count is zero for everyone. So nothing is ever
refused under a limit that `as i64` leaves positive, and everything under one that it does not.

`withinLimit_along_iff` gives the steps that keep the limit: an insert for a user below it. That is
nothing `create` sees to, with its own count or with the right one.

What is in an archive does not matter here; a failure in building, writing or inserting ends a call.
-/

namespace VoceChat

open Machine Transition

/-- Where a call of `create` or `delete` is. -/
inductive FavoriteTask where
  /-- `create` has counted. -/
  | creating (uid : ℤ)
  /-- `create` has written its file. -/
  | written (uid : ℤ) (archiveId : String)
  /-- `delete` has found the file. -/
  | deleting (uid : ℤ) (id : String)
  /-- `delete` has deleted the row. -/
  | deleted (uid : ℤ) (id : String)
  deriving DecidableEq

/-- The table `favorite_archive` with the creation times, the files below the users' directories,
and the calls under way. `tooMany` is history: who was refused, and how many rows there were then.
-/
structure FavoriteState where
  rows : Table (ℤ × String) ℤ
  files : List (ℤ × String)
  running : List FavoriteTask
  tooMany : List (ℤ × ℕ)

inductive FavoriteAction where
  | create (uid : ℤ)
  | write (i : ℕ) (uuid : String)
  | insert (i : ℕ) (now : ℤ)
  | delete (uid : ℤ) (id : String)
  | deleteRow (i : ℕ)
  | removeFile (i : ℕ)
  | fail (i : ℕ)

/-- `as i64`, of a `usize`. -/
def asI64 (n : ℕ) : ℤ := if n < i64Size then (n : ℤ) else (n : ℤ) - 2 * i64Size

namespace FavoriteState

/-- `select count(*) from favorite_archive where uid = ?`; `none` is `NULL`. -/
def count (s : FavoriteState) (uid : Option ℤ) : ℕ :=
  (s.rows.rows.filter fun row ↦ uid.any fun uid ↦ decide (row.1.1 = uid)).length

/-- The count query of `create` binds no value. -/
def isFull (s : FavoriteState) (maxFavoriteArchives : ℕ) : Bool :=
  decide ((s.count none : ℤ) ≥ asI64 maxFavoriteArchives)

/-- The insert fails on a row that is there. -/
def insertRow (s : FavoriteState) (uid : ℤ) (archiveId : String) (now : ℤ) : FavoriteState :=
  match s.rows.get (uid, archiveId) with
  | some _ => s
  | none => { s with rows := s.rows.put (uid, archiveId) now }

variable (maxFavoriteArchives : ℕ)

/-- The next step of a call. An action for a call that is somewhere else does nothing. -/
def step (s : FavoriteState) : FavoriteAction → FavoriteState
  | .create uid =>
    if s.isFull maxFavoriteArchives then
      { s with tooMany := s.tooMany ++ [(uid, s.count (some uid))] }
    else { s with running := s.running ++ [.creating uid] }
  | .write i uuid =>
    match s.running[i]? with
    | some (.creating uid) =>
      { s with files := (uid, uuid) :: s.files, running := s.running.set i (.written uid uuid) }
    | _ => s
  | .insert i now =>
    match s.running[i]? with
    | some (.written uid archiveId) =>
      { s.insertRow uid archiveId now with running := s.running.eraseIdx i }
    | _ => s
  | .delete uid id =>
    if (uid, id) ∈ s.files then { s with running := s.running ++ [.deleting uid id] } else s
  | .deleteRow i =>
    match s.running[i]? with
    | some (.deleting uid id) =>
      { s with
        rows := s.rows.filter fun row _ ↦ row ≠ (uid, id)
        running := s.running.set i (.deleted uid id) }
    | _ => s
  | .removeFile i =>
    match s.running[i]? with
    | some (.deleted uid id) =>
      { s with files := s.files.filter (· ≠ (uid, id)), running := s.running.eraseIdx i }
    | _ => s
  | .fail i => { s with running := s.running.eraseIdx i }

/-- No user has more archives than allowed, and nobody was refused with fewer. -/
structure WithinLimit (s : FavoriteState) : Prop where
  count_le : ∀ uid, s.count (some uid) ≤ maxFavoriteArchives
  tooMany : ∀ e ∈ s.tooMany, maxFavoriteArchives ≤ e.2

/-- What a step has to meet: an archive is inserted for a user who has room for it, and a refusal
concerns one who has none. -/
def InsertsBelow (s : FavoriteState) : FavoriteAction → Prop
  | .create uid => asI64 maxFavoriteArchives ≤ 0 → maxFavoriteArchives ≤ s.count (some uid)
  | .insert i _ => ∀ uid archiveId, s.running[i]? = some (.written uid archiveId) →
      s.rows.get (uid, archiveId) = none → s.count (some uid) < maxFavoriteArchives
  | .write _ _ | .delete _ _ | .deleteRow _ | .removeFile _ | .fail _ => True

variable {maxFavoriteArchives} {s : FavoriteState}

/-! ### Counting -/

theorem count_none (s : FavoriteState) : s.count none = 0 :=
  congrArg List.length (List.filter_eq_nil_iff.2 fun _ _ ↦ Bool.false_ne_true)

/-- The check of `create` only looks at the limit. -/
theorem isFull_iff : s.isFull maxFavoriteArchives = true ↔ asI64 maxFavoriteArchives ≤ 0 := by
  rw [isFull, count_none, decide_eq_true_iff]
  rfl

/-- Rows that are deleted do not count. -/
theorem count_filter_le (s : FavoriteState) (keep : ℤ × String → ℤ → Bool) (uid : Option ℤ) :
    count { s with rows := s.rows.filter keep } uid ≤ s.count uid :=
  (List.filter_sublist.filter _).length_le

/-- A new row counts for its user. -/
theorem count_put {uid : ℤ} {archiveId : String} (h : s.rows.get (uid, archiveId) = none) (now : ℤ)
    (uid' : ℤ) :
    count { s with rows := s.rows.put (uid, archiveId) now } (some uid') =
      s.count (some uid') + if uid = uid' then 1 else 0 := by
  rw [count, Table.rows_put_of_get_eq_none h, List.filter_append, List.length_append]
  refine congrArg (s.count (some uid') + ·) ?_
  split
  · rename_i heq
    simp [heq]
  · rename_i hne
    simp [hne]

/-! ### Steps -/

/-- An insert keeps everyone within the limit exactly if it makes a row for a user below it, or
fails. -/
theorem WithinLimit.insertRow_iff (h : s.WithinLimit maxFavoriteArchives) (uid : ℤ)
    (archiveId : String) (now : ℤ) :
    (s.insertRow uid archiveId now).WithinLimit maxFavoriteArchives ↔
      (s.rows.get (uid, archiveId) = none → s.count (some uid) < maxFavoriteArchives) := by
  rw [insertRow]
  cases hget : s.rows.get (uid, archiveId) with
  | some createdAt => exact iff_of_true h nofun
  | none =>
    constructor
    · intro hnext _
      have hcount := hnext.count_le uid
      rwa [count_put hget, if_pos rfl] at hcount
    · refine fun hroom ↦ ⟨fun uid' ↦ ?_, h.tooMany⟩
      rw [count_put hget]
      split
      · rename_i heq
        exact heq ▸ hroom rfl
      · exact h.count_le uid'

/-- Only the rows and the refusals matter. -/
theorem WithinLimit.congr {s' : FavoriteState} (h : s.WithinLimit maxFavoriteArchives)
    (hrows : s'.rows = s.rows) (htooMany : s'.tooMany = s.tooMany) :
    s'.WithinLimit maxFavoriteArchives :=
  ⟨fun uid ↦ by rw [count, hrows]; exact h.count_le uid, htooMany ▸ h.tooMany⟩

/-- **One step.** -/
theorem WithinLimit.step_iff (h : s.WithinLimit maxFavoriteArchives) (a : FavoriteAction) :
    (s.step maxFavoriteArchives a).WithinLimit maxFavoriteArchives ↔
      s.InsertsBelow maxFavoriteArchives a := by
  cases a with
  | create uid =>
    rw [step, InsertsBelow, ← isFull_iff (s := s)]
    split
    · rename_i hfull
      constructor
      · exact fun hnext _ ↦ hnext.tooMany _ (List.mem_append_right _ (List.mem_singleton_self _))
      · refine fun hroom ↦ ⟨h.count_le, fun e he ↦ ?_⟩
        rcases List.mem_append.1 he with he | he
        · exact h.tooMany e he
        · obtain rfl := List.mem_singleton.1 he
          exact hroom hfull
    · rename_i hfull
      exact iff_of_true (h.congr rfl rfl) fun hroom ↦ absurd hroom hfull
  | insert i now =>
    rw [step, InsertsBelow]
    cases htask : s.running[i]? with
    | none => exact iff_of_true h nofun
    | some task =>
      cases task with
      | written uid archiveId =>
        have hinsert := h.insertRow_iff uid archiveId now
        constructor
        · rintro hnext uid' archiveId' heq
          obtain ⟨rfl, rfl⟩ := FavoriteTask.written.inj (Option.some.inj heq)
          exact hinsert.1 (hnext.congr rfl rfl)
        · exact fun hroom ↦ (hinsert.2 (hroom uid archiveId rfl)).congr rfl rfl
      | creating uid => exact iff_of_true h nofun
      | deleting uid id => exact iff_of_true h nofun
      | deleted uid id => exact iff_of_true h nofun
  | deleteRow i =>
    refine iff_of_true ?_ True.intro
    rw [step]
    split
    · exact ⟨fun uid ↦ Nat.le_trans (count_filter_le s _ _) (h.count_le uid), h.tooMany⟩
    · exact h
  | write i uuid =>
    refine iff_of_true ?_ True.intro
    rw [step]
    split
    · exact h.congr rfl rfl
    · exact h
  | delete uid id =>
    refine iff_of_true ?_ True.intro
    rw [step]
    split
    · exact h.congr rfl rfl
    · exact h
  | removeFile i =>
    refine iff_of_true ?_ True.intro
    rw [step]
    split
    · exact h.congr rfl rfl
    · exact h
  | fail i => exact iff_of_true (h.congr rfl rfl) True.intro

/-- **Along a run that starts within the limit, everyone stays within it and nobody is refused below
it exactly if archives are inserted for users with room only, and the limit refuses nobody who has
some.** -/
theorem withinLimit_along_iff (h : s.WithinLimit maxFavoriteArchives) (as : List FavoriteAction) :
    (∀ cs, cs <+: as → (cs.foldl (step maxFavoriteArchives) s).WithinLimit maxFavoriteArchives) ↔
      Along (total (step maxFavoriteArchives)) (InsertsBelow maxFavoriteArchives) s as :=
  forall_prefix_iff_along (I := fun _ ↦ True) (P := WithinLimit maxFavoriteArchives)
    (fun _ _ _ ↦ trivial) (fun _ a _ hs ↦ hs.step_iff a) trivial h as

/-- No archives, and nothing under way. -/
def empty : FavoriteState := ⟨Table.empty, [], [], []⟩

theorem withinLimit_empty (maxFavoriteArchives : ℕ) : empty.WithinLimit maxFavoriteArchives :=
  ⟨fun _ ↦ Nat.zero_le _, nofun⟩

/-- One archive is made after the other, under a limit of one. -/
theorem not_forall_withinLimit : ¬∀ as : List FavoriteAction,
    (as.foldl (step 1) empty).WithinLimit 1 := by
  intro h
  have hcount := (h [.create 5, .write 0 "a", .insert 0 0, .create 5, .write 0 "b",
    .insert 0 0]).count_le 5
  revert hcount
  decide +kernel

/-- The first of them is fine. -/
theorem withinLimit_first :
    ([.create 5, .write 0 "a", .insert 0 0].foldl (step 1) empty).WithinLimit 1 := by
  refine (withinLimit_along_iff (withinLimit_empty 1) _).2 ?_ _ (List.prefix_refl _)
  have hlimit : ¬asI64 1 ≤ 0 := by decide
  refine along_total_cons.2 ⟨fun hfull ↦ absurd hfull hlimit,
    along_total_cons.2 ⟨trivial, along_total_cons.2 ⟨?_, trivial⟩⟩⟩
  intro uid archiveId htask _
  cases htask
  decide

end FavoriteState

end VoceChat
