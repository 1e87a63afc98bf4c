import VoceChat.Foundations.Run
import VoceChat.Mls.Delivery

/-!
# Key packages are handed out once, in order

A key package is for one use. `consume_key_package` selects the oldest package of a device that is
not consumed, marks it and returns it, all in one transaction, against any number of others and of
devices that publish.

`PackageSystem` takes the transaction apart: after its select it may end without a write for any
reason (`abort`), and its write is committed only if the select would still give the same row.
SQLite lets it commit only if nothing at all was written in between, and every serializable
isolation asks for this much.

## The queue of a device

The rows of a device are those that were delivered, followed by those that were not (`Queued`): new
rows are added at the end, and the first of the second part goes over to the first. That is what
publishing and consuming mean, and `fifo` is read off it.
-/

namespace VoceChat

open Guards Transition

/-- What was published, or delivered. -/
structure KeyPackage where
  id : ℕ
  device : ℤ × String
  package : Machine.Bytes
  deriving DecidableEq, Repr

def KeyPackageRow.key (row : KeyPackageRow) : KeyPackage := ⟨row.id, row.device, row.package⟩

/-- A transaction of `consume_key_package` after its select. -/
structure ConsumeTx where
  device : ℤ × String
  row : KeyPackageRow
  deriving DecidableEq, Repr

/-- The tables, the transactions that are open, and what was published and delivered so far. -/
structure PackageSystem where
  db : PackageTables
  txs : List ConsumeTx
  published : List KeyPackage
  delivered : List KeyPackage

inductive PackageAction where
  | addUser (uid : ℤ)
  | putCredential (uid : ℤ) (deviceId : String) (credential : Machine.Bytes)
  | publish (uid : ℤ) (deviceId : String) (package : Machine.Bytes)
  | select (uid : ℤ) (deviceId : String)
  /-- The update and the commit of an open transaction. -/
  | commit (i now : ℕ)
  | abort (i : ℕ)

namespace PackageSystem

def start : PackageSystem := ⟨.empty [], [], [], []⟩

def commit (s : PackageSystem) (tx : ConsumeTx) (now : ℕ) : PackageSystem :=
  if s.db.nextKeyPackage tx.device = some tx.row then
    { s with db := s.db.consume now tx.row.id, delivered := s.delivered ++ [tx.row.key] }
  else s

def perform (s : PackageSystem) : PackageAction → PackageSystem
  | .addUser uid => { s with db := { s.db with users := uid :: s.db.users } }
  | .putCredential uid deviceId credential =>
    match s.db.putCredential uid deviceId credential with
    | .ok db => { s with db }
    | .error _ => s
  | .publish uid deviceId package =>
    match s.db.publishKeyPackage uid deviceId package with
    | .ok db =>
      { s with db, published := s.published ++ [⟨s.db.nextId, (uid, deviceId), package⟩] }
    | .error _ => s
  | .select uid deviceId =>
    match s.db.selectKeyPackage uid deviceId with
    | .ok row => { s with txs := s.txs ++ [⟨(uid, deviceId), row⟩] }
    | .error _ => s
  | .commit i now =>
    match s.txs[i]? with
    | some tx => { s with txs := s.txs.eraseIdx i }.commit tx now
    | none => s
  | .abort i => { s with txs := s.txs.eraseIdx i }

/-- The packages of a device, in the order in which they were published. -/
def publishedFor (s : PackageSystem) (device : ℤ × String) : List KeyPackage :=
  s.published.filter fun p ↦ p.device = device

/-- The packages of a device, in the order in which they were delivered. -/
def deliveredFrom (s : PackageSystem) (device : ℤ × String) : List KeyPackage :=
  s.delivered.filter fun p ↦ p.device = device

end PackageSystem

/-! ### The rows of a device -/

namespace PackageTables

variable {db : PackageTables} {device : ℤ × String} {row : KeyPackageRow} {now : ℕ}

def rowsOf (db : PackageTables) (device : ℤ × String) : List KeyPackageRow :=
  db.packages.filter fun row ↦ row.device = device

/-- The rows of a device are those of the packages that were delivered, and then the others. -/
def Queued (db : PackageTables) (device : ℤ × String) (delivered : List KeyPackage) : Prop :=
  ∃ done rest, db.rowsOf device = done ++ rest ∧ (∀ row ∈ done, row.consumedAt ≠ none) ∧
    (∀ row ∈ rest, row.consumedAt = none) ∧ delivered = done.map KeyPackageRow.key

/-- The oldest row that is not consumed. -/
theorem nextKeyPackage_eq (db : PackageTables) (device : ℤ × String) :
    db.nextKeyPackage device = (db.rowsOf device).find? fun row ↦ row.consumedAt.isNone := by
  rw [nextKeyPackage, rowsOf, List.find?_filter]
  refine congrArg (db.packages.find? ·) (funext fun row ↦ ?_)
  rw [Bool.decide_and, Bool.decide_eq_true, Bool.decide_eq_true]

theorem nextKeyPackage_eq_head? {done rest : List KeyPackageRow}
    (hrows : db.rowsOf device = done ++ rest) (hdone : ∀ row ∈ done, row.consumedAt ≠ none)
    (hrest : ∀ row ∈ rest, row.consumedAt = none) : db.nextKeyPackage device = rest.head? := by
  have hnone : done.find? (fun row ↦ row.consumedAt.isNone) = none := by
    refine List.find?_eq_none.2 fun row hrow ↦ ?_
    rw [Option.isNone_iff_eq_none]
    exact hdone row hrow
  rw [nextKeyPackage_eq, hrows, List.find?_append, hnone, Option.none_or]
  cases rest with
  | nil => rfl
  | cons row rest =>
    exact List.find?_cons_of_pos (Option.isNone_iff_eq_none.2 (hrest row List.mem_cons_self))

/-- A row that is marked keeps its place and what was published. -/
def marked (now id : ℕ) (row : KeyPackageRow) : KeyPackageRow :=
  if row.id = id then { row with consumedAt := some now } else row

theorem marked_of_ne {id : ℕ} (h : row.id ≠ id) : marked now id row = row := if_neg h

theorem marked_self : marked now row.id row = { row with consumedAt := some now } := if_pos rfl

@[simp] theorem marked_device (now id : ℕ) (row : KeyPackageRow) :
    (marked now id row).device = row.device := by
  rw [marked]
  split <;> rfl

@[simp] theorem marked_key (now id : ℕ) (row : KeyPackageRow) :
    (marked now id row).key = row.key := by
  rw [marked]
  split <;> rfl

theorem rowsOf_consume (db : PackageTables) (now id : ℕ) (device : ℤ × String) :
    (db.consume now id).rowsOf device = (db.rowsOf device).map (marked now id) := by
  show (db.packages.map (marked now id)).filter _ = _
  rw [List.filter_map]
  refine congrArg (fun p ↦ (db.packages.filter p).map _) (funext fun row ↦ ?_)
  rw [Function.comp_apply, marked_device]

/-- Other rows than the one with the id are not touched. -/
theorem map_marked_of_ne {id : ℕ} {rows : List KeyPackageRow} (h : ∀ row ∈ rows, row.id ≠ id) :
    rows.map (marked now id) = rows :=
  (List.map_congr_left fun row hrow ↦ marked_of_ne (h row hrow)).trans (List.map_id rows)

/-- **A new row is at the end of the queue of its device.** -/
theorem Queued.publish {delivered : List KeyPackage} (h : db.Queued device delivered)
    (hnew : row.consumedAt = none) :
    Queued { db with packages := db.packages ++ [row], nextId := db.nextId + 1 } device
      delivered := by
  obtain ⟨done, rest, hrows, hdone, hrest, hdelivered⟩ := h
  have happend :
      rowsOf { db with packages := db.packages ++ [row], nextId := db.nextId + 1 } device =
        db.rowsOf device ++ [row].filter (fun row ↦ row.device = device) := List.filter_append _ _
  refine ⟨done, rest ++ [row].filter (fun row ↦ row.device = device), ?_, hdone, ?_, hdelivered⟩
  · rw [happend, hrows, List.append_assoc]
  · intro r hr
    rcases List.mem_append.1 hr with hr | hr
    · exact hrest r hr
    · obtain rfl := List.mem_singleton.1 (List.mem_filter.1 hr).1
      exact hnew

/-- **The first row of the rest is the next to be delivered.** -/
theorem Queued.consume {delivered : List KeyPackage} (h : db.Queued device delivered)
    (hids : (db.packages.map KeyPackageRow.id).Nodup)
    (hnext : db.nextKeyPackage device = some row) :
    (db.consume now row.id).Queued device (delivered ++ [row.key]) := by
  obtain ⟨done, rest, hrows, hdone, hrest, hdelivered⟩ := h
  rw [nextKeyPackage_eq_head? hrows hdone hrest] at hnext
  obtain ⟨rest, rfl⟩ := List.head?_eq_some_iff.1 hnext
  have hnodup : ((done ++ row :: rest).map KeyPackageRow.id).Nodup := by
    rw [← hrows]
    exact hids.sublist (List.filter_sublist.map _)
  rw [List.map_append, List.map_cons] at hnodup
  have hbefore : ∀ r ∈ done, r.id ≠ row.id := fun r hr ↦
    (List.nodup_append.1 hnodup).2.2 _ (List.mem_map_of_mem hr) _ List.mem_cons_self
  have hafter : ∀ r ∈ rest, r.id ≠ row.id := fun r hr heq ↦
    (List.nodup_cons.1 (List.nodup_append.1 hnodup).2.1).1 (heq ▸ List.mem_map_of_mem hr)
  refine ⟨done ++ [{ row with consumedAt := some now }], rest, ?_, ?_, ?_, ?_⟩
  · rw [rowsOf_consume, hrows, List.map_append, List.map_cons, map_marked_of_ne hbefore,
      map_marked_of_ne hafter, marked_self, List.append_assoc]
    rfl
  · intro r hr
    rcases List.mem_append.1 hr with hr | hr
    · exact hdone r hr
    · obtain rfl := List.mem_singleton.1 hr
      exact Option.some_ne_none now
  · exact fun r hr ↦ hrest r (List.mem_cons_of_mem row hr)
  · rw [hdelivered, List.map_append]
    rfl

/-- The queues of the other devices stay as they are. -/
theorem Queued.consume_of_ne {delivered : List KeyPackage} {other : ℤ × String}
    (h : db.Queued other delivered) (hids : (db.packages.map KeyPackageRow.id).Nodup)
    (hrow : row ∈ db.packages) (hne : row.device ≠ other) :
    (db.consume now row.id).Queued other delivered := by
  have hsame : (db.consume now row.id).rowsOf other = db.rowsOf other := by
    rw [rowsOf_consume]
    refine map_marked_of_ne fun r hr heq ↦ hne ?_
    obtain ⟨hmem, hdevice⟩ := List.mem_filter.1 hr
    rw [← List.inj_on_of_nodup_map hids hmem hrow heq]
    exact of_decide_eq_true hdevice
  obtain ⟨done, rest, hrows, hrest⟩ := h
  exact ⟨done, rest, hsame.trans hrows, hrest⟩

end PackageTables

/-! ### Runs -/

namespace PackageSystem

/-- What holds in every state. -/
structure Inv (s : PackageSystem) : Prop where
  published : s.published = s.db.packages.map KeyPackageRow.key
  ids : (s.db.packages.map KeyPackageRow.id).Nodup
  fresh : ∀ row ∈ s.db.packages, row.id < s.db.nextId
  queued : ∀ device, s.db.Queued device (s.deliveredFrom device)

variable {s : PackageSystem}

theorem inv_start : start.Inv where
  published := rfl
  ids := List.nodup_nil
  fresh _ hrow := absurd hrow List.not_mem_nil
  queued _ := ⟨[], [], rfl, fun _ hrow ↦ absurd hrow List.not_mem_nil,
    fun _ hrow ↦ absurd hrow List.not_mem_nil, rfl⟩

/-- Key packages are all that counts. -/
theorem Inv.congr {s' : PackageSystem} (h : s.Inv) (hpackages : s'.db.packages = s.db.packages)
    (hnextId : s'.db.nextId = s.db.nextId) (hpublished : s'.published = s.published)
    (hdelivered : s'.delivered = s.delivered) : s'.Inv where
  published := by rw [hpublished, hpackages, h.published]
  ids := hpackages ▸ h.ids
  fresh := by
    rw [hpackages, hnextId]
    exact h.fresh
  queued device := by
    rw [PackageTables.Queued, PackageTables.rowsOf, hpackages, deliveredFrom, hdelivered]
    exact h.queued device

theorem Inv.publish (h : s.Inv) {uid : ℤ} {deviceId : String} {package : Machine.Bytes}
    {db : PackageTables} (hdb : s.db.publishKeyPackage uid deviceId package = .ok db) :
    Inv { s with
      db, published := s.published ++ [⟨s.db.nextId, (uid, deviceId), package⟩] } := by
  simp only [PackageTables.publishKeyPackage, bind_eq_ok, ensure_eq_ok, exists_unit,
    pure_eq_ok] at hdb
  obtain ⟨-, -, -, rfl⟩ := hdb
  refine ⟨?_, ?_, ?_, fun device ↦ (h.queued device).publish rfl⟩
  · show _ = (s.db.packages ++ [_]).map KeyPackageRow.key
    rw [List.map_append, ← h.published]
    rfl
  · show ((s.db.packages ++ [_]).map KeyPackageRow.id).Nodup
    rw [List.map_append]
    refine h.ids.append (List.nodup_singleton _) ?_
    intro id hid hnew
    obtain ⟨row, hrow, rfl⟩ := List.mem_map.1 hid
    exact (h.fresh row hrow).ne (List.mem_singleton.1 hnew)
  · intro row hrow
    rcases List.mem_append.1 hrow with hrow | hrow
    · exact (h.fresh row hrow).trans (Nat.lt_succ_self _)
    · obtain rfl := List.mem_singleton.1 hrow
      exact Nat.lt_succ_self _

theorem Inv.commit (h : s.Inv) (tx : ConsumeTx) (now : ℕ) : (s.commit tx now).Inv := by
  rw [PackageSystem.commit]
  split
  · rename_i hnext
    have hmem : tx.row ∈ s.db.packages := List.mem_of_find?_eq_some hnext
    have hdevice : tx.row.device = tx.device := by
      have hfound := List.find?_some hnext
      rw [Bool.and_eq_true, decide_eq_true_iff] at hfound
      exact hfound.1
    have hids : (s.db.packages.map (PackageTables.marked now tx.row.id)).map KeyPackageRow.id =
        s.db.packages.map KeyPackageRow.id := by
      rw [List.map_map]
      exact List.map_congr_left fun row _ ↦
        congrArg KeyPackage.id (PackageTables.marked_key _ _ row)
    refine ⟨?_, hids ▸ h.ids, fun row hrow ↦ ?_, fun device ↦ ?_⟩
    · show s.published = (s.db.packages.map (PackageTables.marked now tx.row.id)).map _
      rw [List.map_map, h.published]
      exact List.map_congr_left fun row _ ↦ (PackageTables.marked_key _ _ row).symm
    · obtain ⟨row, hold, rfl⟩ := List.mem_map.1 hrow
      have hid : (PackageTables.marked now tx.row.id row).id = row.id :=
        congrArg KeyPackage.id (PackageTables.marked_key _ _ row)
      show (PackageTables.marked now tx.row.id row).id < s.db.nextId
      exact hid ▸ h.fresh row hold
    · show (s.db.consume now tx.row.id).Queued device
        ((s.delivered ++ [tx.row.key]).filter fun p ↦ p.device = device)
      rw [List.filter_append]
      by_cases heq : tx.row.device = device
      · have hnew : [tx.row.key].filter (fun p ↦ p.device = device) = [tx.row.key] :=
          List.filter_cons_of_pos (decide_eq_true heq)
        rw [hnew]
        exact (h.queued device).consume h.ids (heq ▸ hdevice ▸ hnext)
      · have hnone : [tx.row.key].filter (fun p ↦ p.device = device) = [] :=
          List.filter_cons_of_neg fun hp ↦ heq (of_decide_eq_true hp)
        rw [hnone, List.append_nil]
        exact (h.queued device).consume_of_ne h.ids hmem heq
  · exact h

theorem inv_perform (h : s.Inv) (a : PackageAction) : (perform s a).Inv := by
  cases a with
  | addUser uid => exact h.congr rfl rfl rfl rfl
  | putCredential uid deviceId credential =>
    rw [perform]
    split
    · rename_i db hdb
      simp only [PackageTables.putCredential, bind_eq_ok, ensure_eq_ok, exists_unit,
        pure_eq_ok] at hdb
      obtain ⟨-, -, -, rfl⟩ := hdb
      exact h.congr rfl rfl rfl rfl
    · exact h
  | publish uid deviceId package =>
    rw [perform]
    split
    · rename_i db hdb
      exact h.publish hdb
    · exact h
  | select uid deviceId =>
    rw [perform]
    split
    · exact h.congr rfl rfl rfl rfl
    · exact h
  | commit i now =>
    rw [perform]
    split
    · rename_i tx htx
      have hclosed : Inv { s with txs := s.txs.eraseIdx i } := h.congr rfl rfl rfl rfl
      exact hclosed.commit tx now
    · exact h
  | abort i => exact h.congr rfl rfl rfl rfl

theorem inv_run (as : List PackageAction) : (as.foldl perform start).Inv :=
  foldl_induction (I := Inv) (f := perform) (fun _ a h ↦ inv_perform h a) inv_start as

/-! ### What the queues say -/

theorem Inv.publishedFor_eq (h : s.Inv) (device : ℤ × String) :
    s.publishedFor device = (s.db.rowsOf device).map KeyPackageRow.key := by
  rw [publishedFor, h.published, List.filter_map]
  rfl

theorem Inv.deliveredFrom_prefix (h : s.Inv) (device : ℤ × String) :
    s.deliveredFrom device <+: s.publishedFor device := by
  obtain ⟨done, rest, hrows, -, -, hdelivered⟩ := h.queued device
  rw [hdelivered, h.publishedFor_eq, hrows, List.map_append]
  exact List.prefix_append _ _

/-- There is a next package as long as not all are delivered. -/
theorem Inv.nextKeyPackage_eq_none (h : s.Inv) (device : ℤ × String) :
    s.db.nextKeyPackage device = none ↔ s.deliveredFrom device = s.publishedFor device := by
  obtain ⟨done, rest, hrows, hdone, hrest, hdelivered⟩ := h.queued device
  rw [PackageTables.nextKeyPackage_eq_head? hrows hdone hrest, hdelivered, h.publishedFor_eq, hrows,
    List.map_append, List.head?_eq_none_iff, List.self_eq_append_right, List.map_eq_nil_iff]

theorem Inv.ids_published (h : s.Inv) : (s.published.map KeyPackage.id).Nodup := by
  rw [h.published, List.map_map]
  exact h.ids

theorem Inv.nodup_delivered (h : s.Inv) : s.delivered.Nodup := by
  refine List.nodup_iff_count_le_one.2 fun p ↦ ?_
  have hprefix := (h.deliveredFrom_prefix p.device).sublist
  have hnodup : (s.deliveredFrom p.device).Nodup :=
    ((h.ids_published.of_map _).sublist List.filter_sublist).sublist hprefix
  rw [← List.count_filter (p := fun q ↦ q.device = p.device) (decide_eq_true rfl)]
  exact List.nodup_iff_count_le_one.1 hnodup p

theorem selectKeyPackage_eq_notFound {db : PackageTables} {uid : ℤ} {deviceId : String} :
    db.selectKeyPackage uid deviceId = .error .notFound ↔
      IsDeviceId deviceId ∧ db.nextKeyPackage (uid, deviceId) = none := by
  rw [PackageTables.selectKeyPackage]
  by_cases hid : IsDeviceId deviceId
  · rw [ensure, if_pos hid]
    cases hnext : db.nextKeyPackage (uid, deviceId) with
    | none => exact iff_of_true rfl ⟨hid, rfl⟩
    | some row => exact iff_of_false (fun h ↦ by cases h) fun h ↦ by cases h.2
  · rw [ensure, if_neg hid]
    exact iff_of_false (fun h ↦ by cases h) fun h ↦ hid h.1

/-- **Every key package is delivered at most once, in the order of publication.** In every state of
every run, what was delivered of a device is a first part of what was published for it, no published
package was delivered twice, and a package is not found exactly when all were delivered. -/
theorem fifo (as : List PackageAction) :
    ((as.foldl perform start).published.map KeyPackage.id).Nodup ∧
      (as.foldl perform start).delivered.Nodup ∧
        ∀ uid deviceId,
          (as.foldl perform start).deliveredFrom (uid, deviceId) <+:
              (as.foldl perform start).publishedFor (uid, deviceId) ∧
            ((as.foldl perform start).db.selectKeyPackage uid deviceId = .error .notFound ↔
              IsDeviceId deviceId ∧ (as.foldl perform start).deliveredFrom (uid, deviceId) =
                (as.foldl perform start).publishedFor (uid, deviceId)) := by
  have h := inv_run as
  generalize as.foldl perform start = s at h
  refine ⟨h.ids_published, h.nodup_delivered, fun uid deviceId ↦ ⟨h.deliveredFrom_prefix _, ?_⟩⟩
  rw [selectKeyPackage_eq_notFound, h.nextKeyPackage_eq_none]

end PackageSystem

end VoceChat
