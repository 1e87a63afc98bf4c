import VoceChat.Pending.Reconciled

/-!
# Markers that cannot be projected

A reconciliation stops at the first marker that it cannot project. It is run at startup, after every
deferred DM, and before the requests about pending messages, and all of these fail with it
(`createState`, `withReconciled`); so one marker that stays where it is stops them all.

`robust_iff` says exactly when this does not happen: when every marker can be projected. That is so
in every undisturbed run. But a user may be deleted while there are markers of messages to the user;
and since the target of an edit is not looked up, a marker for a user that is long gone can be
stored (`not_robust_edit`).
-/

namespace VoceChat

open Machine MsgDb

/-- `create_state`, as far as deferred messages go: open the message database and reconcile. -/
def createState (valid : ℤ → Bool) (map : SledMap) (tables : PendingTables) :
    Except PendingProjectionError (MsgDb Stored × PendingTables) :=
  match MsgDb.openDb (fun _ ↦ false) map with
  | .error e => .error (.marker e)
  | .ok msgDb =>
    match reconcilePendingDmMarkers valid msgDb tables with
    | (.error e, _, _) => .error e
    | (.ok _, msgDb, tables) => .ok (msgDb, tables)

/-- A handler that reconciles first: `get_pending` and `post_pending_envelope`, and what is left of
`send_message` when a deferred DM is stored. -/
def withReconciled {α : Type} (valid : ℤ → Bool) (msgDb : MsgDb Stored) (tables : PendingTables)
    (handler : MsgDb Stored → PendingTables → Except ApiError α) : Except ApiError α :=
  match reconcilePendingDmMarkers valid msgDb tables with
  | (.error _, _, _) => .error .internal
  | (.ok _, msgDb, tables) => handler msgDb tables

/-- A marker that cannot be projected harms nothing else. -/
structure Robust (valid : ℤ → Bool) (msgDb : MsgDb Stored) (tables : PendingTables) : Prop where
  /-- Every marker whose users there are is projected and removed. -/
  projects : ∀ m, HasMarker msgDb.db m → m.senderUid ∈ tables.users → m.targetUid ∈ tables.users →
    let after := (reconcilePendingDmMarkers valid msgDb tables).2
    PendingSystem.HasRow after.2 m.mid ∧ after.1.db.get (keyPendingMessageMarker m.mid) = none
  /-- So is every marker that can be projected, whatever the others are. -/
  others : ∀ m, HasMarker msgDb.db m → Projectable valid tables m →
    PendingSystem.HasRow (reconcilePendingDmMarkers valid msgDb tables).2.2 m.mid
  /-- The handlers do what they do. -/
  handlers : ∀ (α : Type) (handler : MsgDb Stored → PendingTables → Except ApiError α),
    let after := (reconcilePendingDmMarkers valid msgDb tables).2
    withReconciled valid msgDb tables handler = handler after.1 after.2

section Robust

variable {valid : ℤ → Bool} {msgDb : MsgDb Stored} {tables : PendingTables}
  {ms : List PendingMessageMarker}

theorem reconcilePendingDmMarkers_of_projectable (hms : msgDb.pendingMessageMarkers = .ok ms)
    (hnodup : (ms.map PendingMessageMarker.mid).Nodup)
    (h : ∀ m ∈ ms, Projectable valid tables m) :
    reconcilePendingDmMarkers valid msgDb tables =
      (.ok ms.length, msgDb.withoutMarkers ms, ms.foldl PendingTables.projected tables) := by
  rw [reconcilePendingDmMarkers, hms]
  exact reconcileMarkers_of_projectable hnodup h msgDb

/-- After the whole list is projected every marker of it has its row. -/
theorem hasRow_foldl {m : PendingMessageMarker} (hm : m ∈ ms) :
    PendingSystem.HasRow (ms.foldl PendingTables.projected tables) m.mid := by
  rw [PendingSystem.HasRow, get_foldl_projected]
  cases tables.pendings.get m.mid with
  | some row => exact ⟨row, rfl⟩
  | none =>
    obtain ⟨m', hm'⟩ := Option.isSome_iff_exists.1 (List.find?_isSome.2
      ⟨m, hm, decide_eq_true rfl⟩ : (ms.find? fun m' ↦ m'.mid = m.mid).isSome = true)
    exact ⟨m'.row, congrArg (Option.map PendingMessageMarker.row) hm'⟩

/-- A reconciliation that can read the markers. -/
theorem robust_iff_of_markers (hms : msgDb.pendingMessageMarkers = .ok ms)
    (hnodup : (ms.map PendingMessageMarker.mid).Nodup) (hmem : ∀ m, m ∈ ms ↔ HasMarker msgDb.db m) :
    Robust valid msgDb tables ↔ ∀ m ∈ ms, Projectable valid tables m := by
  constructor
  · -- If a reconciliation failed, so would a handler that does nothing.
    intro h m hm
    have hhandler := h.handlers Unit fun _ _ ↦ .ok ()
    rw [withReconciled, reconcilePendingDmMarkers, hms] at hhandler
    dsimp only at hhandler
    cases hloop : reconcileMarkers valid ms msgDb tables with
    | mk result after =>
      rw [hloop] at hhandler
      cases result with
      | error e => cases hhandler
      | ok n => exact reconcileMarkers_isOk hnodup (congrArg Prod.fst hloop) m hm
  · intro h
    have hloop := reconcilePendingDmMarkers_of_projectable hms hnodup h
    refine ⟨fun m hm _ _ ↦ ?_, fun m hm _ ↦ ?_, fun α handler ↦ ?_⟩
    · rw [hloop]
      refine ⟨hasRow_foldl ((hmem m).2 hm), ?_⟩
      rw [get_withoutMarkers, if_pos ⟨m, (hmem m).2 hm, rfl⟩]
    · rw [hloop]
      exact hasRow_foldl ((hmem m).2 hm)
    · rw [withReconciled, hloop]

end Robust

namespace PendingSystem

variable {valid : ℤ → Bool} {s : PendingSystem} {seq : Sequence}

theorem Inv.robust_iff_projectable (hinv : Inv valid s) (hseq : s.db.sequence = some seq) :
    Robust valid (s.db.msgDb seq) s.tables ↔
      ∀ m, HasMarker s.db.map m → Projectable valid s.tables m := by
  obtain ⟨ms, hms, hnodup, hmem⟩ := hinv.pendingMessageMarkers hseq
  rw [robust_iff_of_markers hms hnodup hmem]
  exact forall_congr' fun m ↦ imp_congr_left (hmem m)

/-- What a starting server finds. -/
theorem Inv.markers_of_openDb (hinv : Inv valid s) {msgDb : MsgDb Stored}
    (hopen : MsgDb.openDb (fun _ ↦ false) s.db.map = .ok msgDb) : ∃ ms,
      msgDb.pendingMessageMarkers = .ok ms ∧ (ms.map PendingMessageMarker.mid).Nodup ∧
        ∀ m, m ∈ ms ↔ HasMarker s.db.map m := by
  obtain ⟨l, hl, -, -, hmap⟩ := DurableDb.openDb_eq_ok hopen
  obtain ⟨-, -, hkeys⟩ := hinv.db.prefixes.self.keysBelow hl ⟨0, 0⟩
  have hsame := DurableDb.sameMessages_insert_lease s.db.map (beI64 (l + sequenceBandwidth))
  rw [← hmap] at hsame
  have hdescribe : MarkersDescribe valid msgDb.db :=
    markersDescribe_of_sameMarkers hinv.markers.self
      (fun mid v _ hget ↦ (hsame.msg mid).trans hget) fun mid v _ hget ↦ (hsame.marker mid) ▸ hget
  have hvalid : MsgDb.KeysValid (⟨msgDb.db, msgDb.msgSequence⟩ : MsgDb Stored) :=
    (hmap ▸ DurableDb.keysBelow_insert_lease hkeys _ _ :
      KeysBelow (⟨msgDb.db, msgDb.msgSequence⟩ : MsgDb Stored) l).keysValid
  obtain ⟨ms, hms, hnodup, hmem⟩ :=
    pendingMessageMarkers_eq_ok hvalid (hdescribe.markersFit msgDb.msgSequence)
  refine ⟨ms, hms, hnodup, fun m ↦ (hmem m).trans ?_⟩
  rw [HasMarker, HasMarker, hsame.marker]

theorem Inv.createState_iff (hinv : Inv valid s) {msgDb : MsgDb Stored}
    (hopen : MsgDb.openDb (fun _ ↦ false) s.db.map = .ok msgDb) :
    (∃ state, createState valid s.db.map s.tables = .ok state) ↔
      ∀ m, HasMarker s.db.map m → Projectable valid s.tables m := by
  obtain ⟨ms, hms, hnodup, hmem⟩ := hinv.markers_of_openDb hopen
  have hcreate : createState valid s.db.map s.tables =
      match reconcileMarkers valid ms msgDb s.tables with
      | (.error e, _, _) => .error e
      | (.ok _, msgDb, tables) => .ok (msgDb, tables) := by
    rw [createState, hopen]
    simp only [reconcilePendingDmMarkers, hms]
  constructor
  · rintro ⟨state, hstate⟩ m hm
    rw [hcreate] at hstate
    cases hloop : reconcileMarkers valid ms msgDb s.tables with
    | mk result after =>
      rw [hloop] at hstate
      cases result with
      | error e => cases hstate
      | ok n => exact reconcileMarkers_isOk hnodup (congrArg Prod.fst hloop) m ((hmem m).2 hm)
  · intro h
    rw [hcreate, reconcileMarkers_of_projectable hnodup fun m hm ↦ h m ((hmem m).1 hm)]
    exact ⟨_, rfl⟩

/-- **One marker that cannot be projected stops everything**, and nothing else does: neither the
running server nor the start of one is harmed exactly when every marker can be projected. In an
undisturbed run that is always so. -/
theorem robust_iff {actions : List PendingAction}
    (hrun : Transition.run (PendingSystem.step valid) init actions = some s) :
    (∀ seq, s.db.sequence = some seq → (Robust valid (s.db.msgDb seq) s.tables ↔
      ∀ m, HasMarker s.db.map m → Projectable valid s.tables m)) ∧
    (∀ msgDb, MsgDb.openDb (fun _ ↦ false) s.db.map = .ok msgDb →
      ((∃ state, createState valid s.db.map s.tables = .ok state) ↔
        ∀ m, HasMarker s.db.map m → Projectable valid s.tables m)) ∧
    (Transition.Along (PendingSystem.step valid) Undisturbed init actions →
      ∀ m, HasMarker s.db.map m → Projectable valid s.tables m) := by
  have hinv := inv_of_run hrun
  refine ⟨fun seq hseq ↦ hinv.robust_iff_projectable hseq,
    fun msgDb hopen ↦ hinv.createState_iff hopen, fun hok m hm ↦ ?_⟩
  exact (live_of_run hok hrun).2.projectable (hinv.markers.self.describes hm)

/-! ### An edit of a message to a user that is gone -/

/-- The edit of message `mid` to a user, as a deferred message. -/
def deferredEdit (fromUid toUid : Int64) (mid : ℤ) : ChatMessagePayload :=
  ⟨fromUid, 0, .user toUid, .reaction ⟨mid, .edit ⟨some deferredProperties, contentType, "cipher"⟩⟩⟩

/-- User `1` writes to user `3`, who is deleted; then `1` edits the message, and writes to `2`. -/
def editAfterDelete : List PendingAction :=
  [.openDb, .addUser 1, .addUser 2, .addUser 3, .send .none fourUsers (deferred 1 3) false,
    .applyBatch 0, .reconcile, .project 0, .removeMarker 0, .deleteUser 3,
    .send .none fourUsers (deferredEdit 1 3 1) false, .applyBatch 1,
    .send .none fourUsers (deferred 1 2) false, .applyBatch 2]

/-- Before anyone is deleted all markers can be projected, and the server is not harmed. -/
theorem robust_iff_before : ∃ s seq, Transition.run (PendingSystem.step fun _ ↦ true) init
      (editAfterDelete.take 6) = some s ∧ s.db.sequence = some seq ∧
    HasMarker s.db.map ⟨1, 1, 3, 0⟩ ∧ Robust (fun _ ↦ true) (s.db.msgDb seq) s.tables := by
  have hok : Transition.Along (PendingSystem.step fun _ ↦ true) Undisturbed init
      (editAfterDelete.take 6) :=
    Transition.along_of_check (by decide +kernel)
  have hrun : ((Transition.run (PendingSystem.step fun _ ↦ true) init
      (editAfterDelete.take 6)).bind fun s ↦ s.db.sequence.map fun _ ↦
        s.db.map.get (keyPendingMessageMarker 1)) =
      some (some (.bytes (pendingMarkerValue 1 3 0))) := rfl
  obtain ⟨s, hs, hseq⟩ := Option.bind_eq_some_iff.1 hrun
  obtain ⟨seq, hseq, hmarker⟩ := Option.map_eq_some_iff.1 hseq
  obtain ⟨hrunning, -, hundisturbed⟩ := robust_iff hs
  exact ⟨s, seq, hs, hseq, ⟨⟨by decide, by decide, by decide⟩, hmarker⟩,
    (hrunning seq hseq).2 (hundisturbed hok)⟩

/-- The marker of the edit cannot be projected. A reconciliation stops there: the marker of the last
message stays, its users are there, and the server does not start again. -/
theorem not_robust_edit : ∃ s seq, Transition.run (PendingSystem.step fun _ ↦ true) init
      editAfterDelete = some s ∧ s.db.sequence = some seq ∧
    HasMarker s.db.map ⟨2, 1, 3, 0⟩ ∧ HasMarker s.db.map ⟨3, 1, 2, 0⟩ ∧
    s.tables.users = [2, 1] ∧
    (reconcilePendingDmMarkers (fun _ ↦ true) (s.db.msgDb seq) s.tables).1 = .error .sqlite ∧
    createState (fun _ ↦ true) s.db.map s.tables = .error .sqlite ∧
    ¬Robust (fun _ ↦ true) (s.db.msgDb seq) s.tables := by
  have hrun : ((Transition.run (PendingSystem.step fun _ ↦ true) init editAfterDelete).bind
      fun s ↦ s.db.sequence.map fun seq ↦
        (s.db.map.get (keyPendingMessageMarker 2), s.db.map.get (keyPendingMessageMarker 3),
          s.tables.users, s.tables.pendings.rows,
          (reconcilePendingDmMarkers (fun _ ↦ true) (s.db.msgDb seq) s.tables).1,
          (createState (fun _ ↦ true) s.db.map s.tables).map fun _ ↦ ())) =
      some (some (.bytes (pendingMarkerValue 1 3 0)), some (.bytes (pendingMarkerValue 1 2 0)),
        [2, 1], [], .error .sqlite, .error .sqlite) := rfl
  obtain ⟨s, hs, hrun⟩ := Option.bind_eq_some_iff.1 hrun
  obtain ⟨seq, hseq, hfacts⟩ := Option.map_eq_some_iff.1 hrun
  obtain ⟨htwo, hfacts⟩ := Prod.ext_iff.1 hfacts
  obtain ⟨hthree, hfacts⟩ := Prod.ext_iff.1 hfacts
  obtain ⟨husers, hfacts⟩ := Prod.ext_iff.1 hfacts
  obtain ⟨hrows, hfacts⟩ := Prod.ext_iff.1 hfacts
  obtain ⟨hreconcile, hcreate⟩ := Prod.ext_iff.1 hfacts
  have hmarker : HasMarker s.db.map ⟨2, 1, 3, 0⟩ := ⟨⟨by decide, by decide, by decide⟩, htwo⟩
  refine ⟨s, seq, hs, hseq, hmarker, ⟨⟨by decide, by decide, by decide⟩, hthree⟩, husers,
    hreconcile, ?_, fun h ↦ ?_⟩
  · cases hstate : createState (fun _ ↦ true) s.db.map s.tables with
    | error e =>
      simp only [hstate, Except.map] at hcreate
      rw [Except.error.inj hcreate]
    | ok state =>
      simp only [hstate, Except.map] at hcreate
      cases hcreate
  · have hproject := ((inv_of_run hs).robust_iff_projectable hseq).1 h _ hmarker
    rw [Projectable, show s.tables.pendings.get 2 = none from ?_] at hproject
    · have habsent := hproject.2.2
      rw [show s.tables.users = [2, 1] from husers] at habsent
      exact absurd habsent (by decide)
    · rw [Table.get_eq_none]
      intro v hv
      rw [show s.tables.pendings.rows = [] from hrows] at hv
      cases hv

end PendingSystem

end VoceChat
