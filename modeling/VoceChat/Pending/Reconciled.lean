import VoceChat.Pending.Rows

/-!
# Reconciliation

A run is undisturbed when crashes lose no write and the users of deferred messages stay
(`Undisturbed`). Then every deferred message has its marker or its row at all times, and every
marker can be projected (`Live`): a batch brings the marker with the message, and a marker is
removed only after its row is there.

A reconciliation takes on what it finds. `Follows` is what remains of that while it runs: each
message it found is projected and unmarked, or its marker is still on the list. When the list is
empty all of them are done, whatever else went on meanwhile (`reconciled`).
-/

namespace VoceChat

open Machine MsgDb

/-- The users of a deferred message. -/
def pendingUsers (payload : ChatMessagePayload) : List Int64 :=
  match enforceE2eV2TargetProtocol payload with
  | .ok (some uid) => [payload.fromUid, uid]
  | _ => []

theorem mem_pendingUsers {payload : ChatMessagePayload} {target uid : Int64}
    (h : enforceE2eV2TargetProtocol payload = .ok (some target)) :
    uid ∈ pendingUsers payload ↔ uid = payload.fromUid ∨ uid = target := by
  rw [pendingUsers, h]
  simp

namespace PendingSystem

variable {valid : ℤ → Bool} {s t : PendingSystem} {a : PendingAction} {k : ℕ}

/-- Crashes lose nothing, and the users of deferred messages stay. -/
def Undisturbed (s : PendingSystem) : PendingAction → Prop
  | .crash n => s.db.sled.log.length ≤ n
  | .send _ _ payload _ => ∀ uid ∈ pendingUsers payload, uid ∈ s.tables.users
  | .deleteUser uid =>
    (∀ e ∈ s.db.map.entries, ∀ payload ∈ Stored.payload e.2, uid ∉ pendingUsers payload) ∧
      ∀ r ∈ s.db.sends, uid ∉ pendingUsers r.prepared.payload
  | _ => True

instance (s : PendingSystem) : ∀ a, Decidable (Undisturbed s a)
  | .crash n => inferInstanceAs (Decidable (s.db.sled.log.length ≤ n))
  -- The users are looked through, not all values of `Int64`.
  | .send _ _ payload _ =>
    List.decidableBAll (fun uid ↦ uid ∈ s.tables.users) (pendingUsers payload)
  | .deleteUser _ => inferInstanceAs (Decidable (_ ∧ _))
  | .openDb | .applyBatch _ | .storeMerged _ | .finish _ | .close _ | .reconcile | .project _
  | .removeMarker _ | .giveUp _ | .complete .. | .addUser _ => .isTrue trivial

/-- There is a row for the message. -/
def HasRow (tables : PendingTables) (mid : ℤ) : Prop := ∃ row, tables.pendings.get mid = some row

/-- The marker that belongs to a message. -/
def markerOf (mid : ℤ) (payload : ChatMessagePayload) (uid : Int64) : PendingMessageMarker :=
  ⟨mid, payload.fromUid, uid, payload.createdAt⟩

structure Live (valid : ℤ → Bool) (s : PendingSystem) : Prop where
  rows : RowsDescribe valid s
  tracked : ∀ mid payload uid, Pends s.db.map mid payload uid →
    HasMarker s.db.map (markerOf mid payload uid) ∨ HasRow s.tables mid
  users : ∀ mid payload target, Pends s.db.map mid payload target →
    ∀ uid ∈ pendingUsers payload, uid ∈ s.tables.users
  sends : ∀ r ∈ s.db.sends, ∀ uid ∈ pendingUsers r.prepared.payload, uid ∈ s.tables.users
  projected : ∀ task ∈ s.tasks, task.active = true → task.projected = true →
    ∀ m ∈ task.todo.head?, HasRow s.tables m.mid

theorem live_init : Live valid init where
  rows _ _ h := by cases h
  tracked _ _ _ h := by cases h.2.1
  users _ _ _ h := by cases h.2.1
  sends _ h := absurd h List.not_mem_nil
  projected _ h := absurd h List.not_mem_nil

/-! ### What becomes of a message and its marker -/

/-- A deferred message was there before the step, or it was just stored with its marker. -/
theorem pends_of_wrote {d d' : DurableDb} {b : DbAction} (h : DurableDb.Wrote d b d')
    (hinv : d.Inv) (hsends : ∀ r ∈ d.sends, r.prepared.Sent valid) {mid : ℤ}
    {payload : ChatMessagePayload} {uid : Int64} (hpends : Pends d'.map mid payload uid) :
    Pends d.map mid payload uid ∨
      HasMarker d'.map (markerOf mid payload uid) ∧ ∃ r ∈ d.sends,
      r.prepared.payload = payload := by
  obtain ⟨hmid, hmsg, henforce⟩ := hpends
  rcases h with h | ⟨w, map, h, -, hsame⟩ | ⟨mid', -, h⟩ | ⟨r, hr, hstored, h⟩
  · rw [DurableDb.map, h] at hmsg
    exact .inl ⟨hmid, hmsg, henforce⟩
  · rw [DurableDb.map, h, Journal.now_write, hsame.msg] at hmsg
    exact .inl ⟨hmid, hmsg, henforce⟩
  · rw [DurableDb.map, h, Journal.now_write, OrderedMap.get_erase, if_neg (keyMsg_ne_marker _ _)]
      at hmsg
    exact .inl ⟨hmid, hmsg, henforce⟩
  · rw [DurableDb.map, h, Journal.now_write] at hmsg
    have hid := (hinv.sends r hr).1
    by_cases hne : mid = r.id
    · subst hne
      rw [r.prepared.get_msg_batch] at hmsg
      obtain rfl := Stored.chat.inj (Blob.message.inj (Option.some_inj.1 hmsg))
      have hsent := hsends r hr
      refine .inr ⟨⟨⟨hmid, hsent.date.2⟩, ?_⟩, r, hr, rfl⟩
      have htarget := (hsent.deferred _ _).2 ⟨rfl, henforce⟩
      rw [DurableDb.map, h, Journal.now_write]
      refine (Prepared.get_marker_batch
        (hinv.fresh r hr hstored (.pendingMarker r.id) hid rfl)).trans ?_
      rw [Prepared.marker, htarget]
      rfl
    · rw [r.prepared.get_msg_batch_of_ne hid hmid hne] at hmsg
      exact .inl ⟨hmid, hmsg, henforce⟩

/-- The marker of a stored message changes only when it is removed. -/
theorem get_marker_of_wrote {d d' : DurableDb} {b : DbAction} (h : DurableDb.Wrote d b d')
    (hinv : d.Inv) (hb : ∀ mid, b = .removeMarker mid → IsMid mid) {mid : ℤ}
    {payload : ChatMessagePayload} {uid : Int64} (hpends : Pends d.map mid payload uid) :
    d'.map.get (keyPendingMessageMarker mid) = d.map.get (keyPendingMessageMarker mid) ∨
      d'.map.get (keyPendingMessageMarker mid) = none ∧ b = .removeMarker mid := by
  obtain ⟨hmid, hmsg, -⟩ := hpends
  rcases h with h | ⟨w, map, h, -, hsame⟩ | ⟨mid', rfl, h⟩ | ⟨r, hr, hstored, h⟩
  · rw [DurableDb.map, h]
    exact .inl rfl
  · rw [DurableDb.map, h, Journal.now_write, hsame.marker]
    exact .inl rfl
  · rw [DurableDb.map, h, Journal.now_write, OrderedMap.get_erase]
    split
    · rename_i heq
      obtain rfl := keyPendingMessageMarker_inj hmid (hb mid' rfl) heq
      exact .inr ⟨rfl, rfl⟩
    · exact .inl rfl
  · have hne : mid ≠ r.id := by
      rintro rfl
      rw [show d.map.get (keyMsg r.id) = none from hinv.fresh r hr hstored (.msg r.id) hmid rfl]
        at hmsg
      cases hmsg
    rw [DurableDb.map, h, Journal.now_write,
      r.prepared.get_marker_batch_of_ne (hinv.sends r hr).1 hmid hne]
    exact .inl rfl

/-! ### Rows stay -/

theorem HasRow.projected {tables : PendingTables} {mid : ℤ} (h : HasRow tables mid)
    (m : PendingMessageMarker) : HasRow (tables.projected m) mid := by
  obtain ⟨row, hrow⟩ := h
  refine ⟨row, ?_⟩
  rw [PendingTables.get_projected, hrow, Option.getD_some, ite_self]

theorem hasRow_projected (tables : PendingTables) (m : PendingMessageMarker) :
    HasRow (tables.projected m) m.mid := by
  rw [HasRow, PendingTables.get_projected, if_pos rfl]
  exact ⟨_, rfl⟩

theorem HasRow.complete {tables : PendingTables} {mid : ℤ} (h : HasRow tables mid) (mid' now : ℤ) :
    HasRow (tables.complete mid' now) mid := by
  obtain ⟨row, hrow⟩ := h
  rw [HasRow, PendingTables.complete, Table.get_modify, hrow]
  split <;> exact ⟨_, rfl⟩

/-- The row of a message stays when another user goes. -/
theorem HasRow.deleteUser {mid : ℤ} {payload : ChatMessagePayload} {target uid : Int64}
    (h : HasRow s.tables mid) (hrows : RowsDescribe valid s)
    (hpends : Pends s.db.map mid payload target) (huid : uid ∉ pendingUsers payload) :
    HasRow (s.tables.deleteUser uid) mid := by
  obtain ⟨row, hrow⟩ := h
  obtain ⟨payload', hpends', hsender, -⟩ := hrows mid row hrow
  obtain ⟨rfl, htarget⟩ := hpends.eq hpends'
  obtain rfl : target = row.targetUid := htarget
  rw [mem_pendingUsers hpends.2.2, not_or] at huid
  refine ⟨row, Table.get_filter.2 ⟨hrow, decide_eq_true ⟨?_, Ne.symm huid.2⟩⟩⟩
  exact fun heq ↦ huid.1 (heq.symm.trans hsender)

/-- The users of a stored message are not deleted. -/
theorem Undisturbed.notMem {uid : Int64} (hok : Undisturbed s (.deleteUser uid)) {mid : ℤ}
    {payload : ChatMessagePayload} {target : Int64} (hpends : Pends s.db.map mid payload target) :
    uid ∉ pendingUsers payload :=
  hok.1 (keyMsg mid, .message (.chat payload)) (OrderedMap.get_eq_some.1 hpends.2.1) payload rfl

/-! ### The invariant -/

/-- The marker a reconciliation removes is one. -/
theorem Inv.isMid_head (hinv : Inv valid s) {task : ReconcileTask} {m : PendingMessageMarker}
    (htask : s.tasks[k]? = some task) (hactive : task.active = true)
    (hm : task.todo.head? = some m) : IsMid m.mid :=
  (hinv.todo task (List.mem_of_getElem? htask) hactive m (List.mem_of_mem_head? hm)).fits.1

theorem pendingUsers_of_prepare {faults : SendFaults} {ctx : Context}
    {payload : ChatMessagePayload} {p : Prepared} (h : prepare faults ctx payload = .ok p) :
    pendingUsers p.payload = pendingUsers payload := by
  obtain ⟨huid, htarget, hcontent⟩ := prepare_payload_eq h
  rw [pendingUsers, pendingUsers, huid, enforceE2eV2TargetProtocol_congr htarget hcontent]

/-- A crash that loses nothing keeps the messages that have rows. -/
theorem Undisturbed.keepsRows (hok : Undisturbed s a) (hinv : Inv valid s)
    (hrows : RowsDescribe valid s) : KeepsRows s a := by
  cases a with
  | crash n =>
    rintro ⟨mid, row⟩ he
    obtain ⟨payload, ⟨hmid, hmsg, -⟩, -⟩ := hrows mid row (Table.get_eq_some.2 he)
    rw [Journal.crash_of_length_le hok, ← hinv.history.self.stored mid hmid]
    exact Option.isSome_iff_exists.2 ⟨_, hmsg⟩
  | _ => trivial

/-- A step of the message database that removes no marker that is still needed. -/
theorem Live.ofDb (h : Live valid s) (hinv : Inv valid s) (hrows : RowsDescribe valid t)
    {b : DbAction} (hdb : s.db.step b = some t.db) (htables : t.tables = s.tables)
    (hcrash : ∀ n, b ≠ .crash n)
    (hremove : ∀ mid, b = .removeMarker mid → IsMid mid ∧ HasRow s.tables mid)
    (hsend : ∀ p fails, b = .generate p fails → ∀ uid ∈ pendingUsers p.payload,
      uid ∈ s.tables.users)
    (hprojected : ∀ task ∈ t.tasks, task.active = true → task.projected = true →
      ∀ m ∈ task.todo.head?, HasRow s.tables m.mid) : Live valid t := by
  have hwrote := DurableDb.wrote hinv.db hdb hcrash
  have hmid : ∀ mid, b = .removeMarker mid → IsMid mid := fun mid hb ↦ (hremove mid hb).1
  refine ⟨hrows, fun mid payload uid hpends ↦ ?_, fun mid payload target hpends ↦ ?_,
    fun r hr ↦ ?_, ?_⟩
  · rw [htables]
    rcases pends_of_wrote hwrote hinv.db hinv.sends hpends with hold | ⟨hmarker, -⟩
    · rcases h.tracked mid payload uid hold with ⟨hfits, hmarker⟩ | hrow
      · rcases get_marker_of_wrote hwrote hinv.db hmid hold with hsame | ⟨-, hb⟩
        · exact .inl ⟨hfits, hsame.trans hmarker⟩
        · exact .inr (hremove mid hb).2
      · exact .inr hrow
    · exact .inl hmarker
  · rw [htables]
    rcases pends_of_wrote hwrote hinv.db hinv.sends hpends with hold | ⟨-, r, hr, rfl⟩
    · exact h.users mid payload target hold
    · exact h.sends r hr
  · rw [htables]
    rcases DurableDb.prepared_of_step hdb hr with ⟨r', hr', heq⟩ | ⟨fails, hb⟩
    · exact heq ▸ h.sends r' hr'
    · exact hsend _ _ hb
  · rw [htables]
    exact hprojected

theorem Live.step (h : Live valid s) (hinv : Inv valid s) (hok : Undisturbed s a)
    (hstep : s.step valid a = some t) : Live valid t := by
  have hrows := h.rows.step hinv (hok.keepsRows hinv h.rows) hstep
  rcases did hstep with rfl | ⟨b, hdb, htables, htasks, hcrash, hremove, hsend⟩ |
    ⟨n, rfl, hdb, htables, htasks⟩ | ⟨seq, markers, -, -, -, rfl⟩ |
    ⟨k, task, m, -, htask, hactive, hm, -, rfl⟩ |
    ⟨k, task, m, -, htask, hactive, hm, hprojected, hdb, htables, htasks⟩ |
    ⟨k, task, -, rfl⟩ | ⟨mid, now, rfl⟩ | ⟨uid, rfl⟩ | ⟨uid, rfl, rfl⟩
  · exact h
  · refine h.ofDb hinv hrows hdb htables hcrash (fun mid hb ↦ absurd hb (hremove mid))
      (fun p fails hb ↦ ?_) (htasks ▸ h.projected)
    obtain ⟨faults, ctx, payload, rfl, -, hprepare⟩ := hsend p fails hb
    rw [pendingUsers_of_prepare hprepare]
    exact hok
  · -- A crash that loses nothing leaves the records as they are.
    have hmap : t.db.map = s.db.map := by
      rw [← Option.some_inj.1 hdb]
      exact congrArg Journal.now (Journal.crash_of_length_le hok)
    refine ⟨hrows, ?_, ?_, fun r hr ↦ ?_, fun task htask hactive ↦ ?_⟩
    · rw [hmap, htables]
      exact h.tracked
    · rw [hmap, htables]
      exact h.users
    · rw [← Option.some_inj.1 hdb] at hr
      exact absurd hr List.not_mem_nil
    · rw [htasks] at htask
      obtain ⟨task', -, rfl⟩ := List.mem_map.1 htask
      cases hactive
  · refine ⟨hrows, h.tracked, h.users, h.sends, fun task htask hactive hprojected ↦ ?_⟩
    rcases List.mem_append.1 htask with htask | htask
    · exact h.projected task htask hactive hprojected
    · obtain rfl := List.mem_singleton.1 htask
      cases hprojected
  · refine ⟨hrows, fun mid payload uid hpends ↦ ?_, fun mid payload uid ↦ ?_, fun r hr ↦ ?_,
      fun task' htask' hactive' hprojected' m' hm' ↦ ?_⟩
    · exact (h.tracked mid payload uid hpends).imp_right fun hrow ↦ hrow.projected m
    · rw [PendingTables.users_projected]
      exact h.users mid payload uid
    · rw [PendingTables.users_projected]
      exact h.sends r hr
    · rcases List.mem_or_eq_of_mem_set htask' with htask' | rfl
      · exact (h.projected task' htask' hactive' hprojected' m' hm').projected m
      · obtain rfl : m = m' := Option.some_inj.1 (hm.symm.trans hm')
        exact hasRow_projected s.tables m
  · refine h.ofDb hinv hrows hdb htables (fun _ hb ↦ by cases hb) (fun mid hb ↦ ?_)
      (fun _ _ hb ↦ by cases hb) fun task' htask' hactive' hprojected' ↦ ?_
    · obtain rfl := DbAction.removeMarker.inj hb
      exact ⟨hinv.isMid_head htask hactive hm,
        h.projected task (List.mem_of_getElem? htask) hactive hprojected m hm⟩
    · rw [htasks] at htask'
      rcases List.mem_or_eq_of_mem_set htask' with htask' | rfl
      · exact h.projected task' htask' hactive' hprojected'
      · cases hprojected'
  · refine ⟨hrows, h.tracked, h.users, h.sends, fun task' htask' hactive' ↦ ?_⟩
    rcases List.mem_or_eq_of_mem_set htask' with htask' | rfl
    · exact h.projected task' htask' hactive'
    · cases hactive'
  · exact ⟨hrows, fun mid' payload uid hpends ↦ (h.tracked mid' payload uid hpends).imp_right
        fun hrow ↦ hrow.complete mid now, h.users, h.sends,
      fun task htask hactive hprojected m hm ↦
        (h.projected task htask hactive hprojected m hm).complete mid now⟩
  · exact ⟨hrows, h.tracked, fun mid payload target hpends uid' huid' ↦
      List.mem_cons_of_mem _ (h.users mid payload target hpends uid' huid'),
      fun r hr uid' huid' ↦ List.mem_cons_of_mem _ (h.sends r hr uid' huid'), h.projected⟩
  · have huser : ∀ {payload}, uid ∉ pendingUsers payload →
        (∀ uid' ∈ pendingUsers payload, uid' ∈ s.tables.users) →
        ∀ uid' ∈ pendingUsers payload, uid' ∈ (s.tables.deleteUser uid).users := by
      intro payload hnot hall uid' huid'
      refine List.mem_filter.2 ⟨hall uid' huid', decide_eq_true ?_⟩
      rintro rfl
      exact hnot huid'
    refine ⟨hrows, fun mid payload target hpends ↦ ?_, fun mid payload target hpends ↦ ?_,
      fun r hr ↦ ?_, fun task htask hactive hprojected m hm ↦ ?_⟩
    · exact (h.tracked mid payload target hpends).imp_right fun hrow ↦
        hrow.deleteUser h.rows hpends (hok.notMem hpends)
    · exact huser (hok.notMem hpends) (h.users mid payload target hpends)
    · exact huser (hok.2 r hr) (h.sends r hr)
    · obtain ⟨payload, hpends, -⟩ := hinv.todo task htask hactive m (List.mem_of_mem_head? hm)
      exact (h.projected task htask hactive hprojected m hm).deleteUser h.rows hpends
        (hok.notMem hpends)

theorem live_of_run {actions : List PendingAction}
    (hok : Transition.Along (PendingSystem.step valid) Undisturbed init actions)
    (hrun : Transition.run (PendingSystem.step valid) init actions = some s) :
    Inv valid s ∧ Live valid s :=
  Transition.run_induction_along (I := fun s ↦ Inv valid s ∧ Live valid s)
    (fun _ _ _ h hok hstep ↦ ⟨h.1.step hstep, h.2.step h.1 hok hstep⟩)
    ⟨inv_init, live_init⟩ hok hrun

/-- Every marker can be projected. -/
theorem Live.projectable (h : Live valid s) {m : PendingMessageMarker}
    (hm : Describes valid s.db.map m) : Projectable valid s.tables m := by
  refine ⟨hm.date, ?_⟩
  cases hrow : s.tables.pendings.get m.mid with
  | some row =>
    have hsame := (h.rows m.mid row hrow).eq hm rfl
    rw [← hsame]
    exact ⟨rfl, rfl⟩
  | none =>
    obtain ⟨payload, hpends, hsender, -⟩ := hm
    have husers := h.users m.mid payload m.targetUid hpends
    have hmem : ∀ uid, uid = payload.fromUid ∨ uid = m.targetUid → uid ∈ pendingUsers payload :=
      fun uid ↦ (mem_pendingUsers hpends.2.2).2
    exact ⟨husers _ (hmem _ (.inl hsender)), husers _ (hmem _ (.inr rfl))⟩

/-! ### What a reconciliation leaves behind -/

/-- The message is projected, and its marker is gone. -/
def Done (s : PendingSystem) (mid : ℤ) : Prop :=
  HasRow s.tables mid ∧ s.db.map.get (keyPendingMessageMarker mid) = none

/-- The row of a stored message stays. -/
theorem HasRow.step {mid : ℤ} (hrow : HasRow s.tables mid) (h : Live valid s)
    (hok : Undisturbed s a) (hstep : s.step valid a = some t) {payload : ChatMessagePayload}
    {uid : Int64} (hpends : Pends s.db.map mid payload uid) : HasRow t.tables mid := by
  rcases did hstep with rfl | ⟨b, -, htables, -, -, -, -⟩ | ⟨n, -, -, htables, -⟩ |
    ⟨seq, markers, -, -, -, rfl⟩ | ⟨k, task, m, -, -, -, -, -, rfl⟩ |
    ⟨k, task, m, -, -, -, -, -, -, htables, -⟩ | ⟨k, task, -, rfl⟩ | ⟨mid', now, rfl⟩ |
    ⟨uid', rfl⟩ | ⟨uid', rfl, rfl⟩
  · exact hrow
  · rw [htables]
    exact hrow
  · rw [htables]
    exact hrow
  · exact hrow
  · exact hrow.projected m
  · rw [htables]
    exact hrow
  · exact hrow
  · exact hrow.complete mid' now
  · exact hrow
  · exact hrow.deleteUser h.rows hpends (hok.notMem hpends)

/-- Every step of the server is one of the message database, or leaves it as it is. -/
theorem db_of_step (hinv : Inv valid s) (hok : Undisturbed s a) (hstep : s.step valid a = some t) :
    t.db.map = s.db.map ∨ ∃ b, DurableDb.Wrote s.db b t.db ∧
      ∀ mid, b = .removeMarker mid → IsMid mid := by
  rcases did hstep with rfl | ⟨b, hdb, -, -, hcrash, hremove, -⟩ | ⟨n, rfl, hdb, -, -⟩ |
    ⟨seq, markers, -, -, -, rfl⟩ | ⟨k, task, m, -, -, -, -, -, rfl⟩ |
    ⟨k, task, m, -, htask, hactive, hm, -, hdb, -, -⟩ | ⟨k, task, -, rfl⟩ | ⟨mid', now, rfl⟩ |
    ⟨uid', rfl⟩ | ⟨uid', rfl, rfl⟩
  · exact .inl rfl
  · exact .inr ⟨b, DurableDb.wrote hinv.db hdb hcrash, fun mid hb ↦ absurd hb (hremove mid)⟩
  · rw [← Option.some_inj.1 hdb]
    exact .inl (congrArg Journal.now (Journal.crash_of_length_le hok))
  · exact .inl rfl
  · exact .inl rfl
  · refine .inr ⟨_, DurableDb.wrote hinv.db hdb fun _ hb ↦ (by cases hb), fun mid hb ↦ ?_⟩
    obtain rfl := DbAction.removeMarker.inj hb
    exact hinv.isMid_head htask hactive hm
  · exact .inl rfl
  · exact .inl rfl
  · exact .inl rfl
  · exact .inl rfl

theorem messagesKept_of_step (hinv : Inv valid s) (hok : Undisturbed s a)
    (hstep : s.step valid a = some t) : MessagesKept s.db.map t.db.map := by
  rcases db_of_step hinv hok hstep with heq | ⟨b, hwrote, -⟩
  · exact heq ▸ .refl _
  · exact hwrote.messagesKept hinv.db

/-- What is done stays done: no marker comes back. -/
theorem Done.step {mid : ℤ} (h : Done s mid) (hlive : Live valid s) (hinv : Inv valid s)
    (hok : Undisturbed s a) (hstep : s.step valid a = some t) {payload : ChatMessagePayload}
    {uid : Int64} (hpends : Pends s.db.map mid payload uid) : Done t mid := by
  refine ⟨h.1.step hlive hok hstep hpends, ?_⟩
  rcases db_of_step hinv hok hstep with heq | ⟨b, hwrote, hb⟩
  · rw [heq]
    exact h.2
  · rcases get_marker_of_wrote hwrote hinv.db hb hpends with hsame | ⟨hnone, -⟩
    · exact hsame.trans h.2
    · exact hnone

/-- A reconciliation keeps its list, but for a marker that it has removed. -/
theorem todo_of_step (hlive : Live valid s) (hinv : Inv valid s)
    (hstep : s.step valid a = some t) {task : ReconcileTask} (htask : s.tasks[k]? = some task) :
    ∃ task', t.tasks[k]? = some task' ∧ (task'.todo = task.todo ∨
      ∃ m ∈ task.todo.head?, task'.todo = task.todo.tail ∧ Done t m.mid) := by
  have hlt : k < s.tasks.length := (List.getElem?_eq_some_iff.1 htask).1
  have hset : ∀ {l : ℕ} {old : ReconcileTask} (new : ReconcileTask), s.tasks[l]? = some old →
    new.todo = old.todo →
      ∃ task', (s.tasks.set l new)[k]? = some task' ∧ task'.todo = task.todo := by
    intro l old new hold htodo
    rw [List.getElem?_set]
    by_cases hl : l = k
    · subst hl
      rw [if_pos rfl, if_pos hlt]
      obtain rfl : old = task := Option.some_inj.1 (hold.symm.trans htask)
      exact ⟨new, rfl, htodo⟩
    · rw [if_neg hl]
      exact ⟨task, htask, rfl⟩
  rcases did hstep with rfl | ⟨b, -, -, htasks, -, -, -⟩ | ⟨n, -, -, -, htasks⟩ |
    ⟨seq, markers, -, -, -, rfl⟩ | ⟨l, task', m, -, htask', -, -, -, rfl⟩ |
    ⟨l, task', m, -, htask', hactive, hm, hprojected, hdb, htables, htasks⟩ |
    ⟨l, task', htask', rfl⟩ | ⟨mid', now, rfl⟩ | ⟨uid', rfl⟩ | ⟨uid', -, rfl⟩
  · exact ⟨task, htask, .inl rfl⟩
  · exact ⟨task, htasks ▸ htask, .inl rfl⟩
  · refine ⟨{ task with active := false }, ?_, .inl rfl⟩
    rw [htasks, List.getElem?_map, htask]
    rfl
  · exact ⟨task, (List.getElem?_append_left hlt).trans htask, .inl rfl⟩
  · obtain ⟨u, hu, htodo⟩ := hset { task' with projected := true } htask' rfl
    exact ⟨u, hu, .inl htodo⟩
  · rw [htasks]
    by_cases hl : l = k
    · subst hl
      obtain rfl : task = task' := Option.some_inj.1 (htask.symm.trans htask')
      refine ⟨_, List.getElem?_set_self hlt, .inr ⟨m, hm, rfl, ?_, ?_⟩⟩
      · rw [htables]
        exact hlive.projected task (List.mem_of_getElem? htask) hactive hprojected m hm
      · obtain ⟨seq, -, hdb⟩ := Option.bind_eq_some_iff.1 hdb
        rw [← Option.some_inj.1 hdb, DurableDb.map, Journal.now_write, OrderedMap.get_erase,
          if_pos rfl]
    · exact ⟨task, (List.getElem?_set_ne hl).trans htask, .inl rfl⟩
  · obtain ⟨u, hu, htodo⟩ := hset { task' with active := false } htask' rfl
    exact ⟨u, hu, .inl htodo⟩
  · exact ⟨task, htask, .inl rfl⟩
  · exact ⟨task, htask, .inl rfl⟩
  · exact ⟨task, htask, .inl rfl⟩

/-- The reconciliation `k` was started on the records `map`: what it found then is done, or still on
its list. -/
structure Follows (k : ℕ) (map : SledMap) (s : PendingSystem) : Prop where
  kept : MessagesKept map s.db.map
  todo : ∃ task, s.tasks[k]? = some task ∧ ∀ mid payload uid, Pends map mid payload uid →
    Done s mid ∨ ∃ m ∈ task.todo, m.mid = mid

theorem Follows.step {map : SledMap} (h : Follows k map s) (hlive : Live valid s)
    (hinv : Inv valid s) (hok : Undisturbed s a) (hstep : s.step valid a = some t) :
    Follows k map t := by
  obtain ⟨task, htask, htodo⟩ := h.todo
  obtain ⟨task', htask', hlist⟩ := todo_of_step hlive hinv hstep htask
  refine ⟨h.kept.trans (messagesKept_of_step hinv hok hstep), task', htask',
    fun mid payload uid hpends ↦ ?_⟩
  rcases htodo mid payload uid hpends with hdone | ⟨m, hm, rfl⟩
  · exact .inl (hdone.step hlive hinv hok hstep (hpends.mono h.kept))
  · rcases hlist with heq | ⟨m', hhead, htail, hdone⟩
    · exact .inr ⟨m, heq ▸ hm, rfl⟩
    · obtain ⟨rest, hrest⟩ := List.head?_eq_some_iff.1 hhead
      rw [hrest, List.tail_cons] at htail
      rw [hrest] at hm
      rcases List.mem_cons.1 hm with rfl | hm
      · exact .inl hdone
      · exact .inr ⟨m, htail ▸ hm, rfl⟩

/-- A reconciliation finds the marker of every message that is not done. -/
theorem follows_start (hlive : Live valid s) (hinv : Inv valid s)
    (hstep : s.step valid .reconcile = some t) : Follows s.tasks.length s.db.map t := by
  obtain ⟨seq, hseq, hstep⟩ := Option.bind_eq_some_iff.1 hstep
  obtain ⟨ms, hms, -, hmem⟩ := hinv.pendingMessageMarkers hseq
  rw [hms] at hstep
  obtain rfl := Option.some_inj.1 hstep
  refine ⟨.refl _, ⟨ms, false, true⟩, List.getElem?_concat_length, fun mid payload uid hpends ↦ ?_⟩
  rcases hlive.tracked mid payload uid hpends with hmarker | hrow
  · exact .inr ⟨_, (hmem _).2 hmarker, rfl⟩
  · cases hget : s.db.map.get (keyPendingMessageMarker mid) with
    | none => exact .inl ⟨hrow, hget⟩
    | some v =>
      obtain ⟨m, rfl, rfl, hdescribes⟩ := hinv.markers.self mid v hpends.1 hget
      exact .inr ⟨m, (hmem m).2 ⟨hdescribes.fits, hget⟩, rfl⟩

theorem follows_of_run {map : SledMap} {actions : List PendingAction}
    (hok : Transition.Along (PendingSystem.step valid) Undisturbed s actions)
    (hrun : Transition.run (PendingSystem.step valid) s actions = some t) (hinv : Inv valid s)
    (hlive : Live valid s) (h : Follows k map s) : Inv valid t ∧ Live valid t ∧ Follows k map t :=
  Transition.run_induction_along (I := fun s ↦ Inv valid s ∧ Live valid s ∧ Follows k map s)
    (fun _ _ _ h hok hstep ↦ ⟨h.1.step hstep, h.2.1.step h.1 hok hstep,
      h.2.2.step h.2.1 h.1 hok hstep⟩) ⟨hinv, hlive, h⟩ hok hrun

/-! ### Every undisturbed run -/

/-- The row says of the message who sent it to whom, and when. -/
def RowOf (tables : PendingTables) (mid : ℤ) (payload : ChatMessagePayload) (uid : Int64) : Prop :=
  ∃ row, tables.pendings.get mid = some row ∧ row.senderUid = payload.fromUid ∧
    row.targetUid = uid ∧ row.createdAt = payload.createdAt

/-- No deferred message is lost between the stores: it has its marker or its row, there are no other
rows, and no running reconciliation gets stuck. -/
structure Tracked (valid : ℤ → Bool) (s : PendingSystem) : Prop where
  messages : ∀ mid payload uid, Pends s.db.map mid payload uid →
    HasMarker s.db.map (markerOf mid payload uid) ∨ RowOf s.tables mid payload uid
  rows : ∀ mid row, s.tables.pendings.get mid = some row →
    ∃ payload, Pends s.db.map mid payload row.targetUid ∧ row.senderUid = payload.fromUid ∧
      row.createdAt = payload.createdAt
  projections : ∀ task ∈ s.tasks, task.active = true → ∀ m ∈ task.todo,
    ∃ tables, projectPendingDmMarker valid s.tables m = .ok tables

theorem rowOf_of_describes {tables : PendingTables} {map : SledMap} {mid : ℤ}
    {payload : ChatMessagePayload} {uid : Int64} {row : PendingRow}
    (hrow : tables.pendings.get mid = some row) (hdescribes : Describes valid map (row.marker mid))
    (hpends : Pends map mid payload uid) : RowOf tables mid payload uid := by
  obtain ⟨payload', hpends', hsender, hdate, -⟩ := hdescribes
  obtain ⟨rfl, huid⟩ := hpends.eq hpends'
  exact ⟨row, hrow, hsender, huid.symm, hdate⟩

theorem tracked_of_live (h : Live valid s) (hinv : Inv valid s) : Tracked valid s where
  messages mid payload uid hpends := by
    refine (h.tracked mid payload uid hpends).imp_right fun ⟨row, hrow⟩ ↦ ?_
    exact rowOf_of_describes hrow (h.rows mid row hrow) hpends
  rows mid row hrow := by
    obtain ⟨payload, hpends, hsender, hdate, -⟩ := h.rows mid row hrow
    exact ⟨payload, hpends, hsender, hdate⟩
  projections task htask hactive m hm :=
    ⟨_, projectPendingDmMarker_of_projectable (h.projectable (hinv.todo task htask hactive m hm))⟩

/-- A reconciliation that nothing interrupts projects and removes all markers. -/
theorem Live.reconcilePendingDmMarkers (h : Live valid s) (hinv : Inv valid s) {seq : Sequence}
    (hseq : s.db.sequence = some seq) : ∃ n msgDb tables,
      VoceChat.reconcilePendingDmMarkers valid (s.db.msgDb seq) s.tables = (.ok n, msgDb, tables) ∧
        (∀ m, ¬HasMarker msgDb.db m) ∧
        ∀ mid payload uid, Pends s.db.map mid payload uid → RowOf tables mid payload uid := by
  obtain ⟨ms, hms, hnodup, hmem⟩ := hinv.pendingMessageMarkers hseq
  have hdescribes : ∀ m ∈ ms, Describes valid s.db.map m := fun m hm ↦
    hinv.markers.self.describes ((hmem m).1 hm)
  refine ⟨ms.length, (s.db.msgDb seq).withoutMarkers ms, ms.foldl PendingTables.projected s.tables,
    ?_, fun m hm ↦ ?_, fun mid payload uid hpends ↦ ?_⟩
  · rw [VoceChat.reconcilePendingDmMarkers, hms]
    exact reconcileMarkers_of_projectable hnodup (fun m hm ↦ h.projectable (hdescribes m hm)) _
  · have hget := hm.2
    rw [get_withoutMarkers, Option.ite_none_left_eq_some] at hget
    exact hget.1 ⟨m, (hmem m).2 ⟨hm.1, hget.2⟩, rfl⟩
  · cases hrow : s.tables.pendings.get mid with
    | some row =>
      refine rowOf_of_describes ?_ (h.rows mid row hrow) hpends
      rw [get_foldl_projected, hrow]
    | none =>
      have hmarker := (h.tracked mid payload uid hpends).resolve_right fun ⟨row, hsome⟩ ↦ by
        cases hrow.symm.trans hsome
      have hlisted := (hmem _).2 hmarker
      obtain ⟨m, hfind⟩ : ∃ m, ms.find? (fun m ↦ decide (m.mid = mid)) = some m :=
        Option.isSome_iff_exists.1 (List.find?_isSome.2 ⟨_, hlisted, decide_eq_true rfl⟩)
      have hm := List.mem_of_find?_eq_some hfind
      have hmid : m.mid = mid := by simpa using List.find?_some hfind
      obtain rfl := (hdescribes m hm).eq (hdescribes _ hlisted) hmid
      refine ⟨(markerOf mid payload uid).row, ?_, rfl, rfl, rfl⟩
      rw [get_foldl_projected, hrow]
      exact congrArg (Option.map PendingMessageMarker.row) hfind

/-- **Reconciliation projects every deferred message**, whatever crashes without loss, restarts,
sends and other reconciliations there are. At all times each message has its marker or its row. A
reconciliation can always be run to its end, which leaves no marker; and one that has come to its
end, with others going on, has left a row and no marker for every message it found. -/
theorem reconciled {actions : List PendingAction}
    (hrun : Transition.run (PendingSystem.step valid) init actions = some s)
    (hok : Transition.Along (PendingSystem.step valid) Undisturbed init actions) :
    Tracked valid s ∧
    (∀ seq, s.db.sequence = some seq → ∃ n msgDb tables,
      VoceChat.reconcilePendingDmMarkers valid (s.db.msgDb seq) s.tables = (.ok n, msgDb, tables) ∧
        (∀ m, ¬HasMarker msgDb.db m) ∧
        ∀ mid payload uid, Pends s.db.map mid payload uid → RowOf tables mid payload uid) ∧
    ∀ more t u task, s.step valid .reconcile = some t →
      Transition.run (PendingSystem.step valid) t more = some u →
      Transition.Along (PendingSystem.step valid) Undisturbed t more →
      u.tasks[s.tasks.length]? = some task → task.todo = [] →
      (∀ mid payload uid, Pends s.db.map mid payload uid →
        Pends u.db.map mid payload uid ∧ RowOf u.tables mid payload uid ∧
          u.db.map.get (keyPendingMessageMarker mid) = none) ∧
      ∀ m, HasMarker u.db.map m → s.db.map.get (keyMsg m.mid) = none := by
  obtain ⟨hinv, hlive⟩ := live_of_run hok hrun
  refine ⟨tracked_of_live hlive hinv, fun seq hseq ↦ hlive.reconcilePendingDmMarkers hinv hseq,
    fun more t u task hstart hmore hokmore htask hempty ↦ ?_⟩
  obtain ⟨hinv', hlive', hfollows⟩ := follows_of_run hokmore hmore (hinv.step hstart)
    (hlive.step (a := .reconcile) hinv trivial hstart) (follows_start hlive hinv hstart)
  obtain ⟨task', htask', htodo⟩ := hfollows.todo
  obtain rfl : task = task' := Option.some_inj.1 (htask.symm.trans htask')
  have hdone : ∀ mid payload uid, Pends s.db.map mid payload uid → Done u mid := by
    intro mid payload uid hpends
    refine (htodo mid payload uid hpends).resolve_right fun ⟨m, hm, _⟩ ↦ ?_
    rw [hempty] at hm
    cases hm
  refine ⟨fun mid payload uid hpends ↦ ?_, fun m hm ↦ ?_⟩
  · obtain ⟨⟨row, hrow⟩, hnone⟩ := hdone mid payload uid hpends
    have hpends' := hpends.mono hfollows.kept
    exact ⟨hpends', rowOf_of_describes hrow (hlive'.rows mid row hrow) hpends', hnone⟩
  · rw [Option.eq_none_iff_forall_ne_some]
    intro v hget
    obtain ⟨payload, ⟨hmid, hmsg, henforce⟩, -⟩ := hinv'.markers.self.describes hm
    obtain rfl := Option.some_inj.1 ((hfollows.kept m.mid v hmid hget).symm.trans hmsg)
    cases hm.2.symm.trans (hdone m.mid payload m.targetUid ⟨hmid, hget, henforce⟩).2

/-- The server crashes after the projection, before it removes the marker; the next reconciliation
removes it. -/
theorem reconciled_crash : ∃ s t u task, Transition.run (PendingSystem.step fun _ ↦ true) init
      (projectedSend ++ [.crash 2, .openDb]) = some s ∧
    s.step (fun _ ↦ true) .reconcile = some t ∧
    Transition.run (PendingSystem.step fun _ ↦ true) t [.project 1, .removeMarker 1] = some u ∧
    u.tasks[s.tasks.length]? = some task ∧ task.todo = [] ∧
    RowOf u.tables 1 (deferred 1 2) 2 ∧
    u.db.map.get (keyPendingMessageMarker 1) = none := by
  have hok : Transition.Along (PendingSystem.step fun _ ↦ true) Undisturbed init
      (projectedSend ++ [.crash 2, .openDb]) :=
    Transition.along_of_check (by decide +kernel)
  have hrun : (Transition.run (PendingSystem.step fun _ ↦ true) init
      (projectedSend ++ [.crash 2, .openDb])).bind (fun s ↦
        (s.step (fun _ ↦ true) .reconcile).bind fun t ↦
          (Transition.run (PendingSystem.step fun _ ↦ true) t [.project 1, .removeMarker 1]).map
            fun u ↦ (u.tasks[s.tasks.length]?.map ReconcileTask.todo, s.db.map.get (keyMsg 1))) =
      some (some [], some (.message (.chat (deferred 1 2)))) := rfl
  obtain ⟨s, hs, hrun⟩ := Option.bind_eq_some_iff.1 hrun
  obtain ⟨t, ht, hrun⟩ := Option.bind_eq_some_iff.1 hrun
  obtain ⟨u, hu, hfacts⟩ := Option.map_eq_some_iff.1 hrun
  obtain ⟨htask, hmsg⟩ := Prod.ext_iff.1 hfacts
  obtain ⟨task, htask, htodo⟩ := Option.map_eq_some_iff.1 htask
  obtain ⟨hrows, -⟩ := (reconciled hs hok).2.2 [.project 1, .removeMarker 1] t u task ht hu
    ⟨trivial, fun _ _ ↦ ⟨trivial, fun _ _ ↦ trivial⟩⟩ htask htodo
  obtain ⟨-, hrow, hnone⟩ := hrows 1 (deferred 1 2) 2 ⟨by decide, hmsg, rfl⟩
  exact ⟨s, t, u, task, hs, ht, hu, htask, htodo, hrow, hnone⟩

end PendingSystem

end VoceChat
