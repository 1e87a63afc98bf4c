import VoceChat.Pending.System

/-!
# Rows and their messages (`e2e_pending_message`)

A row of `e2e_pending_message` is found by a message id, and ids come from a lease that sled may
lose. SQLite loses nothing. So it depends on what a crash keeps of the journal whether a row still
belongs to the message under its id: it has to keep the batches of all messages that have rows
(`KeepsRows`).

* In a run whose crashes do, every row is that of its message (`rows_describe`).
* A crash that does not leaves a row without its message. The next message that is stored under the
  id meets that row, and its marker cannot be projected (`not_rowsSound_reused`).
-/

namespace VoceChat

open Machine MsgDb

/-- The marker a row was made from. -/
def PendingRow.marker (row : PendingRow) (mid : ℤ) : PendingMessageMarker :=
  ⟨mid, row.senderUid, row.targetUid, row.createdAt⟩

namespace PendingSystem

variable {valid : ℤ → Bool} {s t : PendingSystem} {a : PendingAction}

/-- Every row is that of the message stored under its id. -/
def RowsDescribe (valid : ℤ → Bool) (s : PendingSystem) : Prop :=
  ∀ mid row, s.tables.pendings.get mid = some row → Describes valid s.db.map (row.marker mid)

/-- A crash loses no message that has a row. -/
def KeepsRows (s : PendingSystem) : PendingAction → Prop
  | .crash n => ∀ e ∈ s.tables.pendings.rows, (s.db.sled.crash n).Has (.batch e.1)
  | _ => True

instance (s : PendingSystem) : ∀ a, Decidable (KeepsRows s a)
  | .crash _ => inferInstanceAs (Decidable (∀ e ∈ s.tables.pendings.rows, _))
  | .openDb | .send .. | .applyBatch _ | .storeMerged _ | .finish _ | .close _ | .reconcile
  | .project _ | .removeMarker _ | .giveUp _ | .complete .. | .addUser _ | .deleteUser _ =>
    .isTrue trivial

/-- Rows are those of their messages, and no marker meets the row of another message. -/
structure RowsSound (valid : ℤ → Bool) (s : PendingSystem) : Prop where
  rows : ∀ mid row, s.tables.pendings.get mid = some row →
    ∃ payload, Pends s.db.map mid payload row.targetUid ∧ payload.fromUid = row.senderUid
  markers : ∀ m, HasMarker s.db.map m →
    projectPendingDmMarker valid s.tables m ≠ .error .metadataConflict
  tasks : ∀ task ∈ s.tasks, task.active = true → ∀ m ∈ task.todo,
    projectPendingDmMarker valid s.tables m ≠ .error .metadataConflict

/-! ### One step -/

/-- The rows of a message database that keeps its messages. -/
theorem RowsDescribe.mono (h : RowsDescribe valid s) (htables : t.tables = s.tables)
    (hkept : MessagesKept s.db.map t.db.map) : RowsDescribe valid t := fun mid row hget ↦
  (h mid row (htables ▸ hget)).mono hkept

theorem describes_projected {map : SledMap} {tables : PendingTables} {m : PendingMessageMarker}
    (h : ∀ mid row, tables.pendings.get mid = some row → Describes valid map (row.marker mid))
    (hm : Describes valid map m) {mid : ℤ} {row : PendingRow}
    (hget : (tables.projected m).pendings.get mid = some row) :
    Describes valid map (row.marker mid) := by
  rw [PendingTables.get_projected] at hget
  split at hget
  · rename_i heq
    subst heq
    cases hold : tables.pendings.get m.mid with
    | none =>
      rw [hold] at hget
      obtain rfl : m.row = row := Option.some_inj.1 hget
      exact hm
    | some row' =>
      rw [hold] at hget
      obtain rfl : row' = row := Option.some_inj.1 hget
      exact h _ _ hold
  · exact h _ _ hget

/-- What a row says of its message it says as long as it is there. -/
theorem get_complete {tables : PendingTables} {mid now mid' : ℤ} {row : PendingRow}
    (hget : (tables.complete mid' now).pendings.get mid = some row) :
    ∃ row', tables.pendings.get mid = some row' ∧ row.marker mid = row'.marker mid := by
  rw [PendingTables.complete, Table.get_modify] at hget
  split at hget
  · obtain ⟨row', hrow', rfl⟩ := Option.map_eq_some_iff.1 hget
    exact ⟨row', hrow', rfl⟩
  · exact ⟨row, hget, rfl⟩

theorem RowsDescribe.step (h : RowsDescribe valid s) (hinv : Inv valid s) (hok : KeepsRows s a)
    (hstep : s.step valid a = some t) : RowsDescribe valid t := by
  rcases did hstep with rfl | ⟨b, hdb, htables, -, hcrash, -, -⟩ | ⟨n, rfl, hdb, htables, -⟩ |
    ⟨seq, markers, -, -, -, rfl⟩ | ⟨k, task, m, -, htask, hactive, hm, -, rfl⟩ |
    ⟨k, task, m, -, -, -, -, -, hdb, htables, -⟩ | ⟨k, task, -, rfl⟩ | ⟨mid, now, rfl⟩ |
    ⟨uid, rfl⟩ | ⟨uid, -, rfl⟩
  · exact h
  · exact h.mono htables ((DurableDb.wrote hinv.db hdb hcrash).messagesKept hinv.db)
  · intro mid row hget
    rw [htables] at hget
    obtain ⟨payload, ⟨hmid, hmsg, henforce⟩, hrest⟩ := h mid row hget
    have hhas := hok (mid, row) (Table.get_eq_some.1 hget)
    refine ⟨payload, ⟨hmid, ?_, henforce⟩, hrest⟩
    rw [← Option.some_inj.1 hdb]
    exact (DurableDb.get_msg_crash hinv.history n hmid hmsg).2 hhas
  · exact h
  · exact fun mid row hget ↦ describes_projected h
      (hinv.todo task (List.mem_of_getElem? htask) hactive m (List.mem_of_mem_head? hm)) hget
  · exact h.mono htables
      ((DurableDb.wrote hinv.db hdb fun _ hb ↦ by cases hb).messagesKept hinv.db)
  · exact h
  · intro mid' row hget
    obtain ⟨row', hget', heq⟩ := get_complete hget
    rw [heq]
    exact h mid' row' hget'
  · exact h
  · exact fun mid row hget ↦ h mid row (Table.get_filter.1 hget).1

theorem rowsDescribe_of_run {actions : List PendingAction}
    (hok : Transition.Along (PendingSystem.step valid) KeepsRows init actions)
    (hrun : Transition.run (PendingSystem.step valid) init actions = some s) :
    Inv valid s ∧ RowsDescribe valid s :=
  Transition.run_induction_along (I := fun s ↦ Inv valid s ∧ RowsDescribe valid s)
    (fun _ _ _ h hok hstep ↦ ⟨h.1.step hstep, h.2.step h.1 hok hstep⟩)
    ⟨inv_init, fun _ _ h ↦ by cases h⟩ hok hrun

/-- Where row and marker are those of one message there is no conflict. -/
theorem RowsDescribe.not_conflict (h : RowsDescribe valid s) {m : PendingMessageMarker}
    (hm : Describes valid s.db.map m) :
    projectPendingDmMarker valid s.tables m ≠ .error .metadataConflict := by
  by_cases hproject : Projectable valid s.tables m
  · rw [projectPendingDmMarker_of_projectable hproject]
    intro hconflict
    cases hconflict
  · obtain ⟨e, he, hconflict⟩ := projectPendingDmMarker_of_not hproject
    rw [he]
    rintro heq
    obtain ⟨-, row, hrow, hdiffer⟩ := hconflict.1 (Except.error.inj heq)
    have hsame := (h m.mid row hrow).eq hm rfl
    refine hdiffer ?_
    rw [← hsame]
    exact ⟨rfl, rfl⟩

theorem RowsDescribe.sound (h : RowsDescribe valid s) (hinv : Inv valid s) :
    RowsSound valid s where
  rows mid row hget := by
    obtain ⟨payload, hpends, hsender, -⟩ := h mid row hget
    exact ⟨payload, hpends, hsender.symm⟩
  markers _ hm := h.not_conflict (hinv.markers.self.describes hm)
  tasks task htask hactive m hm := h.not_conflict (hinv.todo task htask hactive m hm)

/-! ### Every run -/

/-- **Every row is that of the message stored under its id**, and no projection finds the row of
another message, in every run whose crashes keep the messages that have rows. A crash that does not
keep them leaves a row without its message. -/
theorem rows_describe {actions : List PendingAction}
    (hrun : Transition.run (PendingSystem.step valid) init actions = some s)
    (hok : Transition.Along (PendingSystem.step valid) KeepsRows init actions) :
    RowsSound valid s ∧ ∀ n t, s.step valid (.crash n) = some t →
      (RowsSound valid t ↔ KeepsRows s (.crash n)) := by
  obtain ⟨hinv, hrows⟩ := rowsDescribe_of_run hok hrun
  refine ⟨hrows.sound hinv, fun n t hstep ↦ ⟨fun hsound e he ↦ ?_, fun hkeeps ↦ ?_⟩⟩
  · obtain ⟨mid, row⟩ := e
    have hget := Table.get_eq_some.2 he
    obtain ⟨payload, ⟨hmid, -, -⟩, -⟩ := hrows mid row hget
    rw [PendingSystem.step, Option.map_eq_some_iff] at hstep
    obtain ⟨u, hu, rfl⟩ := hstep
    obtain ⟨hdb, htables, -⟩ := onDb_eq_some.1 hu
    obtain ⟨payload', ⟨-, hmsg', -⟩, -⟩ := hsound.rows mid row (htables.symm ▸ hget)
    have hcrash : (s.db.sled.crash n).now.get (keyMsg mid) = some (.message (.chat payload')) := by
      rw [← Option.some_inj.1 hdb] at hmsg'
      exact hmsg'
    have hpayload := hinv.history.self.kept n mid _ hmid hcrash
    exact (DurableDb.get_msg_crash hinv.history n hmid hpayload).1 hcrash
  · exact (hrows.step hinv hkeeps hstep).sound (hinv.step hstep)

/-! ### An id that is used again -/

/-- The properties of a deferred message. -/
def deferredProperties : Json.Properties :=
  [("e2e_version", .number (.posInt 2)), ("protocol", .string "dr-pending"),
    ("algorithm", .string "DEFERRED+AES-GCM"), ("wire_class", .string "dr_envelope"),
    ("sender_device_id", .string "phone"), ("local_id", .string "a")]

/-- A deferred message from one user to another. -/
def deferred (fromUid toUid : Int64) : ChatMessagePayload :=
  ⟨fromUid, 0, .user toUid, .normal ⟨⟨some deferredProperties, contentType, "cipher"⟩, none⟩⟩

/-- Four users that may send. -/
def fourUsers : Context :=
  ⟨⟨[1, 2, 3, 4].map fun uid ↦ (uid, ⟨.normal, [], []⟩), [], none⟩, []⟩

/-- The users come, the first writes to the second, and the marker is projected. -/
def projectedSend : List PendingAction :=
  [.openDb, .addUser 1, .addUser 2, .addUser 3, .addUser 4,
    .send .none fourUsers (deferred 1 2) false, .applyBatch 0, .reconcile, .project 0]

/-- The crash keeps the lease and the message, but the marker was not yet removed; it is projected
again. -/
theorem rows_describe_projectedSend : ∃ s, Transition.run (PendingSystem.step fun _ ↦ true) init
    (projectedSend ++ [.crash 2, .openDb, .reconcile, .project 1]) = some s ∧
      RowsSound (fun _ ↦ true) s := by
  have hok : Transition.Along (PendingSystem.step fun _ ↦ true) KeepsRows init
      (projectedSend ++ [.crash 2, .openDb, .reconcile, .project 1]) :=
    Transition.along_of_check (by decide +kernel)
  obtain ⟨s, hs⟩ := Option.isSome_iff_exists.1 (rfl : (Transition.run
    (PendingSystem.step fun _ ↦ true) init
    (projectedSend ++ [.crash 2, .openDb, .reconcile, .project 1])).isSome = true)
  exact ⟨s, hs, (rows_describe hs hok).1⟩

/-- The crash loses the lease too: id `1` is handed out a second time, for a message between other
users. Its row is still the first one's, and its marker is not projected. -/
theorem not_rowsSound_reused : ∃ s, Transition.run (PendingSystem.step fun _ ↦ true) init
    (projectedSend ++ [.crash 0, .openDb, .send .none fourUsers (deferred 3 4) false,
      .applyBatch 0])
      = some s ∧
    s.db.map.get (keyMsg 1) = some (.message (.chat (deferred 3 4))) ∧
    s.tables.pendings.get 1 = some ⟨1, 2, none, 0⟩ ∧
    HasMarker s.db.map ⟨1, 3, 4, 0⟩ ∧
    projectPendingDmMarker (fun _ ↦ true) s.tables ⟨1, 3, 4, 0⟩ = .error .metadataConflict ∧
    ¬RowsSound (fun _ ↦ true) s := by
  have hrun : (Transition.run (PendingSystem.step fun _ ↦ true) init (projectedSend ++
      [.crash 0, .openDb, .send .none fourUsers (deferred 3 4) false, .applyBatch 0])).map
        (fun s ↦ (s.db.map.get (keyMsg 1), s.tables.pendings.get 1,
          s.db.map.get (keyPendingMessageMarker 1), s.tables.users)) =
      some (some (.message (.chat (deferred 3 4))), some ⟨1, 2, none, 0⟩,
        some (.bytes (pendingMarkerValue 3 4 0)), [4, 3, 2, 1]) := rfl
  obtain ⟨s, hs, hfacts⟩ := Option.map_eq_some_iff.1 hrun
  obtain ⟨hmsg, hfacts⟩ := Prod.ext_iff.1 hfacts
  obtain ⟨hrow, hfacts⟩ := Prod.ext_iff.1 hfacts
  obtain ⟨hmarker, -⟩ := Prod.ext_iff.1 hfacts
  have hhas : HasMarker s.db.map ⟨1, 3, 4, 0⟩ := ⟨⟨by decide, by decide, by decide⟩, hmarker⟩
  have hconflict : projectPendingDmMarker (fun _ ↦ true) s.tables ⟨1, 3, 4, 0⟩ =
      .error .metadataConflict := by
    rw [projectPendingDmMarker, PendingTables.insertPending]
    simp [show s.tables.pendings.get 1 = some ⟨1, 2, none, 0⟩ from hrow, Guards.ensure, bind,
      Except.bind]
  exact ⟨s, hs, hmsg, hrow, hhas, hconflict, fun h ↦ h.markers _ hhas hconflict⟩

end PendingSystem

end VoceChat
