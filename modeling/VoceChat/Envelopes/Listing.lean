import Mathlib.Data.List.Dedup
import VoceChat.Envelopes.Addressing
import VoceChat.Foundations.History
import VoceChat.Foundations.StableSort

/-!
# Messages that wait for an envelope (`get_pending` in `src/api/e2e.rs`)

`get_pending` lists the deferred messages of a sender to a user that no device can read yet, or that
some current device cannot read. What it looks at is when the message was completed; in a run that
is when it got its first envelope, so the list can be told from the envelopes alone
(`mem_getPending_iff`).

A message leaves the list when the envelopes are there, and it is back when a device publishes
another version, or another device appears. Its sender is told then: no message gets back to the list
without a signal to its sender from the request that published the version (`signalled_of_run`).
-/

namespace VoceChat

open StableSort Transition

/-- The query of `get_pending`, after the reconciliation: the messages with their `created_at`. -/
def EnvelopeTables.getPending (keys : KeyTables) (db : EnvelopeTables)
    (senderUid targetUid : Int64) : List (ℤ × ℤ) :=
  sortBy Prod.fst ((db.tables.pendings.rows.filter fun r ↦
    r.2.senderUid = senderUid ∧ r.2.targetUid = targetUid ∧
      (r.2.completedAt = none ∨ ∃ i ∈ keys.identities.rows, i.1.1 = targetUid ∧
        keys.Live i.1 i.2 ∧ db.envelopes.get ⟨r.1, i.1.1, i.1.2, i.2.keyVersion⟩ = none)).map
    fun r ↦ (r.1, r.2.createdAt))

/-! ### Current versions -/

namespace KeyTables

variable {db db' : KeyTables} {k l : DeviceKey} {version now : ℤ}

theorem liveVersion_eq_some : db.liveVersion k = some version ↔
    ∃ row, db.identities.get k = some row ∧ db.Live k row ∧ row.keyVersion = version := by
  simp only [liveVersion, Option.bind_eq_some_iff, Option.ite_none_right_eq_some, Option.some_inj]

theorem liveVersion_congr (hids : db'.identities = db.identities)
    (hdevices : db'.devices = db.devices) : db'.liveVersion k = db.liveVersion k := by
  refine Option.ext fun version ↦ ?_
  simp only [liveVersion_eq_some, Live, hids, hdevices]

/-- A device that goes takes no other with it, and is not current after. -/
theorem liveVersion_of_retire
    (h : ((db.removeDevice l).retire l now).liveVersion k = some version) :
    db.liveVersion k = some version := by
  obtain ⟨row, hrow, ⟨hlive, hdevice⟩, hversion⟩ := liveVersion_eq_some.1 h
  replace hrow : (db.identities.modify l fun row ↦
      { row with retiredAt := row.retiredAt.or (some now) }).get k = some row := hrow
  replace hdevice : k ∈ db.devices.filter (· ≠ l) := hdevice
  obtain ⟨hdevice, hne⟩ := List.mem_filter.1 hdevice
  rw [Table.get_modify, if_neg (of_decide_eq_true hne)] at hrow
  exact liveVersion_eq_some.2 ⟨row, hrow, ⟨hlive, hdevice⟩, hversion⟩

theorem liveVersion_of_login (hdb : db.DevicesExist)
    (h : (db.login l).liveVersion k = some version) : db.liveVersion k = some version := by
  obtain ⟨row, hrow, ⟨hlive, -⟩, hversion⟩ := liveVersion_eq_some.1 h
  rw [identities_login] at hrow
  exact liveVersion_eq_some.2 ⟨row, hrow, ⟨hlive, hdb k row hrow hlive⟩, hversion⟩

/-- Only the device that publishes gets another version. -/
theorem liveVersion_of_putIdentity {ver : ℤ} {token : Token} {req : PutE2eIdentityRequest}
    {published : ℤ} (hput : db.putIdentity ver token req now = .ok (published, db'))
    (h : db'.liveVersion k = some version) :
    k = (token.uid, req.deviceId) ∧ version = published ∨ db.liveVersion k = some version := by
  obtain ⟨-, -, -, -, hpublished, rfl⟩ := putIdentity_eq_ok.1 hput
  obtain ⟨row, hrow, hlive, hversion⟩ := liveVersion_eq_some.1 h
  rw [Table.get_put] at hrow
  split at hrow
  · rename_i hk
    obtain rfl := Option.some_inj.1 hrow
    exact .inl ⟨hk, hversion.symm.trans hpublished⟩
  · exact .inr (liveVersion_eq_some.2 ⟨row, hrow, hlive, hversion⟩)

end KeyTables

/-- But for `put_identity` and the transactions of bots, no step makes a version current. -/
theorem KeySystem.liveVersion_of_step {ver version : ℤ} {s t : KeySystem} {b : KeyAction}
    {k : DeviceKey} (hdb : s.db.DevicesExist) (hput : b.isPutIdentity = false)
    (hcommit : (EnvelopeAction.keys b).isCommit = false) (hstep : s.step ver b = some t)
    (h : t.db.liveVersion k = some version) : s.db.liveVersion k = some version := by
  cases b with
  | putIdentity token req now => cases hput
  | commit i generated now => cases hcommit
  | putPrekeys token req =>
    obtain rfl := Option.some_inj.1 hstep
    cases hprekeys : s.db.putPrekeys token req with
    | error e => exact (hprekeys ▸ h :)
    | ok db =>
      rw [hprekeys] at h
      obtain ⟨prekeys, rfl⟩ := KeyTables.putPrekeys_frame hprekeys
      exact h
  | getBundle uid deviceId =>
    obtain rfl := Option.some_inj.1 hstep
    cases hget : s.db.getBundle ver uid deviceId with
    | error e => exact (hget ▸ h :)
    | ok r =>
      rw [hget] at h
      obtain ⟨bundle, db⟩ := r
      obtain ⟨l, row, -, -, -, rfl⟩ := KeyTables.getBundle_eq_ok.1 hget
      obtain ⟨hids, hdevices⟩ := s.db.takePrekey_frame l
      exact (KeyTables.liveVersion_congr hids hdevices).symm.trans h
  | deleteDevice token device now =>
    obtain rfl := Option.some_inj.1 hstep
    cases hdelete : s.db.deleteDevice token device now with
    | error e => exact (hdelete ▸ h :)
    | ok db =>
      rw [hdelete] at h
      obtain ⟨-, -, rfl⟩ := KeyTables.deleteDevice_eq_ok.1 hdelete
      exact KeyTables.liveVersion_of_retire h
  | logout token now =>
    obtain rfl := Option.some_inj.1 hstep
    exact KeyTables.liveVersion_of_retire h
  | login uid device =>
    obtain rfl := Option.some_inj.1 hstep
    exact KeyTables.liveVersion_of_login hdb h
  | readInitialize botUid | readRotate botUid | readRebuild botUid confirm =>
    obtain rfl := Option.some_inj.1 hstep
    rwa [db_start] at h
  | loadMaterial i =>
    rw [step] at hstep
    split at hstep
    · split at hstep
      all_goals
        obtain rfl := Option.some_inj.1 hstep
        exact h
    · cases hstep

namespace EnvelopeSystem

variable {ver : ℤ} {valid : ℤ → Bool} {verifies : PublishedKeys → Bool} {s t : EnvelopeSystem}
  {a : EnvelopeAction} {mid version : ℤ} {senderUid targetUid : Int64} {k : DeviceKey}

/-- The device is current in this version, for which the message has no envelope. -/
def Lacks (s : EnvelopeSystem) (mid : ℤ) (k : DeviceKey) (version : ℤ) : Prop :=
  s.keys.db.liveVersion k = some version ∧ s.db.envelopes.get ⟨mid, k.1, k.2, version⟩ = none

/-- The message is in the table, with its sender and its target. -/
def HasRow (s : EnvelopeSystem) (mid : ℤ) (senderUid targetUid : Int64) : Prop :=
  ∃ row, s.db.tables.pendings.get mid = some row ∧ row.senderUid = senderUid ∧
    row.targetUid = targetUid

/-- `put_identity` publishes this version of the device, and signals it to the sender. -/
def Signals (ver : ℤ) (senderUid : Int64) (k : DeviceKey) (version : ℤ) (s : EnvelopeSystem)
    (a : EnvelopeAction) : Prop :=
  ∃ token req now bots db, a = .putIdentity token req now bots ∧
    s.keys.db.putIdentity ver token req now = .ok (version, db) ∧ k = (token.uid, req.deviceId) ∧
    senderUid ∈ s.db.waitingSenders token.uid req.deviceId version

/-! ### The list -/

theorem mem_getPending {createdAt : ℤ} :
    (mid, createdAt) ∈ s.db.getPending s.keys.db senderUid targetUid ↔
      ∃ row, s.db.tables.pendings.get mid = some row ∧ row.senderUid = senderUid ∧
        row.targetUid = targetUid ∧ row.createdAt = createdAt ∧
        (row.completedAt = none ∨ ∃ deviceId version, s.Lacks mid (targetUid, deviceId) version) := by
  have hlacks : (∃ i ∈ s.keys.db.identities.rows, i.1.1 = targetUid ∧ s.keys.db.Live i.1 i.2 ∧
      s.db.envelopes.get ⟨mid, i.1.1, i.1.2, i.2.keyVersion⟩ = none) ↔
      ∃ deviceId version, s.Lacks mid (targetUid, deviceId) version := by
    constructor
    · rintro ⟨⟨⟨uid, deviceId⟩, row⟩, hmem, rfl, hlive, hnone⟩
      exact ⟨deviceId, row.keyVersion,
        KeyTables.liveVersion_eq_some.2 ⟨row, Table.get_eq_some.2 hmem, hlive, rfl⟩, hnone⟩
    · rintro ⟨deviceId, version, hversion, hnone⟩
      obtain ⟨row, hrow, hlive, rfl⟩ := KeyTables.liveVersion_eq_some.1 hversion
      exact ⟨((targetUid, deviceId), row), Table.get_eq_some.1 hrow, rfl, hlive, hnone⟩
  rw [EnvelopeTables.getPending, mem_sortBy, List.mem_map, ← hlacks]
  constructor
  · rintro ⟨⟨mid', row⟩, hmem, heq⟩
    obtain ⟨hmem, h⟩ := List.mem_filter.1 hmem
    obtain ⟨rfl, rfl⟩ := Prod.mk.inj heq
    obtain ⟨hsender, htarget, hwaits⟩ := of_decide_eq_true h
    exact ⟨row, Table.get_eq_some.2 hmem, hsender, htarget, rfl, hwaits⟩
  · rintro ⟨row, hrow, hsender, htarget, rfl, hwaits⟩
    exact ⟨(mid, row), List.mem_filter.2 ⟨Table.get_eq_some.1 hrow,
      decide_eq_true ⟨hsender, htarget, hwaits⟩⟩, rfl⟩

/-- The messages are in the order of their ids, each once. -/
theorem sorted_getPending (s : EnvelopeSystem) (senderUid targetUid : Int64) :
    (s.db.getPending s.keys.db senderUid targetUid).Pairwise fun r r' ↦ r.1 < r'.1 := by
  rw [EnvelopeTables.getPending]
  generalize hrows : s.db.tables.pendings.rows.filter _ = rows
  have hsublist : (rows.map Prod.fst).Sublist (s.db.tables.pendings.rows.map Prod.fst) :=
    hrows ▸ List.filter_sublist.map Prod.fst
  have hnodup : ((rows.map fun r ↦ (r.1, r.2.createdAt)).map Prod.fst).Nodup := by
    rw [List.map_map]
    exact hsublist.nodup s.db.tables.pendings.nodup
  have hne := List.pairwise_map.1 (((sortBy_perm Prod.fst _).map Prod.fst).nodup_iff.2 hnodup)
  exact ((sorted_sortBy Prod.fst _).and hne).imp fun h ↦ lt_of_le_of_ne h.1 h.2

theorem mem_waitingSenders {deviceId : String} (hrow : s.HasRow mid senderUid targetUid)
    (hnone : s.db.envelopes.get ⟨mid, targetUid, deviceId, version⟩ = none) :
    senderUid ∈ s.db.waitingSenders targetUid deviceId version := by
  obtain ⟨row, hget, rfl, rfl⟩ := hrow
  exact List.mem_dedup.2 (List.mem_filterMap.2 ⟨(mid, row), Table.get_eq_some.1 hget,
    if_pos ⟨rfl, hnone⟩⟩)

/-! ### What a step does to it -/

theorem HasRow.step (h : s.HasRow mid senderUid targetUid)
    (hstep : s.step ver valid verifies a = some t) : t.HasRow mid senderUid targetUid := by
  obtain ⟨row, hget, hsender, htarget⟩ := h
  rcases did hstep with ⟨tasks, -, rfl⟩ | ⟨b, keys, bundles, woken, -, -, -, rfl⟩ |
    ⟨m, started, -, -, rfl⟩ | ⟨l, m, -, -, rfl⟩ |
    ⟨key, origin, envelope, now, tasks, -, -, -, -, rfl⟩ | ⟨i, m, -, -, -, -, rfl⟩
  · exact ⟨row, hget, hsender, htarget⟩
  · exact ⟨row, hget, hsender, htarget⟩
  · exact ⟨row, hget, hsender, htarget⟩
  · refine ⟨row, ?_, hsender, htarget⟩
    show (s.db.tables.projected m).pendings.get mid = some row
    rw [PendingTables.get_projected, hget, Option.getD_some, ite_self]
  · have hcomplete := EnvelopeTables.get_complete s.db.tables key.mid now mid
    rw [hget] at hcomplete
    by_cases hmid : mid = key.mid
    · exact ⟨_, hcomplete.trans (if_pos hmid), hsender, htarget⟩
    · exact ⟨row, hcomplete.trans (if_neg hmid), hsender, htarget⟩
  · exact ⟨row, hget, hsender, htarget⟩

/-- A version that is current after a step was so before, or its device publishes it. -/
theorem liveVersion_of_step (hinv : s.Inv) (hcommit : a.isCommit = false)
    (hstep : s.step ver valid verifies a = some t)
    (h : t.keys.db.liveVersion k = some version) :
    s.keys.db.liveVersion k = some version ∨ ∃ token req now bots db,
      a = .putIdentity token req now bots ∧
      s.keys.db.putIdentity ver token req now = .ok (version, db) ∧
      k = (token.uid, req.deviceId) := by
  rcases did hstep with ⟨tasks, -, rfl⟩ | ⟨b, keys, bundles, woken, hkeys, ha, -, rfl⟩ |
    ⟨m, started, -, -, rfl⟩ | ⟨l, m, -, -, rfl⟩ |
    ⟨key, origin, envelope, now, tasks, -, -, -, -, rfl⟩ | ⟨i, m, -, -, -, -, rfl⟩
  · exact .inl h
  · rcases ha with rfl | ⟨token, req, now, bots, rfl, rfl⟩
    · rw [EnvelopeSystem.step, Option.ite_none_left_eq_some, Bool.not_eq_true] at hstep
      exact .inl (KeySystem.liveVersion_of_step hinv.devices hstep.1 hcommit hkeys h)
    · obtain rfl := Option.some_inj.1 hkeys
      cases hput : s.keys.db.putIdentity ver token req now with
      | error e =>
        simp only [hput] at h
        exact .inl h
      | ok r =>
        obtain ⟨published, db⟩ := r
        simp only [hput] at h
        rcases KeyTables.liveVersion_of_putIdentity hput h with ⟨hk, rfl⟩ | hlive
        · exact .inr ⟨token, req, now, bots, db, rfl, hput, hk⟩
        · exact .inl hlive
  · exact .inl h
  · exact .inl h
  · exact .inl h
  · exact .inl h

/-- A device that lacks an envelope after a step lacked it before, or its sender is told. -/
theorem lacks_of_step (hinv : s.Inv) (hrow : s.HasRow mid senderUid k.1)
    (hcommit : a.isCommit = false) (hstep : s.step ver valid verifies a = some t)
    (h : t.Lacks mid k version) :
    s.Lacks mid k version ∨ Signals ver senderUid k version s a := by
  obtain ⟨hlive, hnone⟩ := h
  have hnone' : s.db.envelopes.get ⟨mid, k.1, k.2, version⟩ = none := by
    by_contra hsome
    obtain ⟨env, henv⟩ := Option.ne_none_iff_exists'.1 hsome
    rw [envelopes_kept hstep henv] at hnone
    cases hnone
  rcases liveVersion_of_step hinv hcommit hstep hlive with
    hlive | ⟨token, req, now, bots, db, rfl, hput, rfl⟩
  · exact .inl ⟨hlive, hnone'⟩
  · exact .inr ⟨token, req, now, bots, db, rfl, hput, rfl, mem_waitingSenders hrow hnone'⟩

/-! ### Runs -/

variable {users : List Int64} {earlier later : List EnvelopeAction}

theorem inv_of_append (hcommit : ∀ a ∈ earlier ++ later, a.isCommit = false)
    (hs : run (EnvelopeSystem.step ver valid verifies) (init users) earlier = some s)
    (ht : run (EnvelopeSystem.step ver valid verifies) s later = some t) : t.Inv := by
  have hrun : run (EnvelopeSystem.step ver valid verifies) (init users) (earlier ++ later) =
      some t := by
    rw [run_append, hs]
    exact ht
  exact inv_of_run (along_inOrder hcommit _) hrun

/-- **What is listed**, in every state of a run: the messages without an envelope, and those that
lack one for the current version of a device. -/
theorem mem_getPending_iff {createdAt : ℤ} (hcommit : ∀ a ∈ earlier, a.isCommit = false)
    (hs : run (EnvelopeSystem.step ver valid verifies) (init users) earlier = some s) :
    (mid, createdAt) ∈ s.db.getPending s.keys.db senderUid targetUid ↔
      ∃ row, s.db.tables.pendings.get mid = some row ∧ row.senderUid = senderUid ∧
        row.targetUid = targetUid ∧ row.createdAt = createdAt ∧
        ((∀ key env, s.db.envelopes.get key = some env → key.mid ≠ mid) ∨
          ∃ deviceId version, s.Lacks mid (targetUid, deviceId) version) := by
  have hinv : s.Inv := inv_of_run (along_inOrder hcommit _) hs
  rw [mem_getPending]
  refine exists_congr fun row ↦ and_congr_right fun hrow ↦ ?_
  have hcompleted : row.completedAt = none ↔
      ∀ key env, s.db.envelopes.get key = some env → key.mid ≠ mid := by
    rw [← Option.not_isSome_iff_eq_none, hinv.addressed.completed mid row hrow]
    push Not
    rfl
  rw [hcompleted]

theorem signalled_of_lacks (hcommit : ∀ a ∈ earlier ++ later, a.isCommit = false)
    (hs : run (EnvelopeSystem.step ver valid verifies) (init users) earlier = some s)
    (ht : run (EnvelopeSystem.step ver valid verifies) s later = some t)
    (hrow : s.HasRow mid senderUid k.1) (h : t.Lacks mid k version) :
    s.Lacks mid k version ∨
      Occurred (EnvelopeSystem.step ver valid verifies) (Signals ver senderUid k version) s
        later := by
  refine (run_induction_history (I := fun as u ↦ (∀ a ∈ as, a.isCommit = false) →
    u.HasRow mid senderUid k.1 ∧ (u.Lacks mid k version → s.Lacks mid k version ∨
      Occurred (EnvelopeSystem.step ver valid verifies) (Signals ver senderUid k version) s as))
    (fun _ ↦ ⟨hrow, .inl⟩) ?_ ht fun a ha ↦ hcommit a (List.mem_append_right _ ha)).2 h
  intro as u a v hrun ih hstep has
  have hbefore : ∀ b ∈ as, b.isCommit = false := fun b hb ↦ has b (List.mem_append_left _ hb)
  obtain ⟨hrow, ih⟩ := ih hbefore
  refine ⟨hrow.step hstep, fun hlacks ↦ ?_⟩
  have hinv : u.Inv := by
    refine inv_of_append (fun b hb ↦ ?_) hs hrun
    rcases List.mem_append.1 hb with hb | hb
    · exact hcommit b (List.mem_append_left _ hb)
    · exact hbefore b hb
  have ha : a.isCommit = false := has a (List.mem_append_right _ List.mem_cons_self)
  rcases lacks_of_step hinv hrow ha hstep hlacks with hlacks | hsignals
  · exact (ih hlacks).imp_right fun h ↦ h.concat a
  · exact .inr (occurred_concat hrun hsignals)

/-- **Nobody has to ask again.** A message of the sender that is not listed is listed later only
after a signal to him: its device has published the version for which there is no envelope. -/
theorem signalled_of_run {createdAt : ℤ} (hcommit : ∀ a ∈ earlier ++ later, a.isCommit = false)
    (hs : run (EnvelopeSystem.step ver valid verifies) (init users) earlier = some s)
    (ht : run (EnvelopeSystem.step ver valid verifies) s later = some t)
    (hrow : s.HasRow mid senderUid targetUid)
    (hbefore : ∀ c, (mid, c) ∉ s.db.getPending s.keys.db senderUid targetUid)
    (hafter : (mid, createdAt) ∈ t.db.getPending t.keys.db senderUid targetUid) :
    ∃ deviceId version, t.Lacks mid (targetUid, deviceId) version ∧
      Occurred (EnvelopeSystem.step ver valid verifies)
        (Signals ver senderUid (targetUid, deviceId) version) s later := by
  obtain ⟨row, hget, hsender, htarget⟩ := hrow
  have hearlier : ∀ a ∈ earlier, a.isCommit = false :=
    fun a ha ↦ hcommit a (List.mem_append_left _ ha)
  -- it has an envelope, so it is listed for a device that lacks one
  have henvelope : ∃ key env, s.db.envelopes.get key = some env ∧ key.mid = mid := by
    by_contra hnone
    push Not at hnone
    exact hbefore row.createdAt ((mem_getPending_iff hearlier hs).2
      ⟨row, hget, hsender, htarget, rfl, .inl hnone⟩)
  obtain ⟨key, env, henv, hmid⟩ := henvelope
  have hkept : t.db.envelopes.get key = some env :=
    run_induction (I := fun u : EnvelopeSystem ↦ u.db.envelopes.get key = some env)
      (fun _ _ _ h hstep ↦ envelopes_kept hstep h) henv ht
  obtain ⟨row', hget', -, -, -, hwaits⟩ := mem_getPending.1 hafter
  have hcompleted : row'.completedAt ≠ none := by
    have hinv : t.Inv := inv_of_append hcommit hs ht
    have hsome := (hinv.addressed.completed mid row' hget').2 ⟨key, env, hkept, hmid⟩
    exact fun h ↦ by rw [h] at hsome; cases hsome
  obtain ⟨deviceId, version, hlacks⟩ := hwaits.resolve_left hcompleted
  refine ⟨deviceId, version, hlacks, ?_⟩
  refine (signalled_of_lacks hcommit hs ht ⟨row, hget, hsender, htarget⟩ hlacks).resolve_left ?_
  exact fun h ↦ hbefore row.createdAt
    (mem_getPending.2 ⟨row, hget, hsender, htarget, rfl, .inr ⟨deviceId, version, h⟩⟩)

/-- After `latePhone`, the phone of `2` publishes another prekey. -/
def newPrekey : List EnvelopeAction :=
  [.putIdentity ⟨2, "phone", false, false⟩
    ⟨"phone", "identity", some "another", some "signature"⟩ 3 []]

/-- User `1` is told, and finds the message listed again. -/
theorem signalled_of_run_newPrekey : ∃ s t,
    run (EnvelopeSystem.step 2 (fun _ ↦ true) fun _ ↦ true) (init [1, 2]) latePhone = some s ∧
    run (EnvelopeSystem.step 2 (fun _ ↦ true) fun _ ↦ true) s newPrekey = some t ∧
    t.db.getPending t.keys.db 1 2 = [(1, 0)] ∧
    ∃ deviceId version, t.Lacks 1 (2, deviceId) version ∧
      Occurred (EnvelopeSystem.step 2 (fun _ ↦ true) fun _ ↦ true)
        (Signals 2 1 (2, deviceId) version) s newPrekey := by
  obtain ⟨s, t, hs, ht, hrow, hbefore, hafter⟩ : ∃ s t,
      run (EnvelopeSystem.step 2 (fun _ ↦ true) fun _ ↦ true) (init [1, 2]) latePhone = some s ∧
      run (EnvelopeSystem.step 2 (fun _ ↦ true) fun _ ↦ true) s newPrekey = some t ∧
      s.db.tables.pendings.get 1 = some ⟨1, 2, some 2, 0⟩ ∧
      s.db.getPending s.keys.db 1 2 = [] ∧ t.db.getPending t.keys.db 1 2 = [(1, 0)] :=
    ⟨_, _, rfl, rfl, rfl, rfl, rfl⟩
  have hlisted : (1, 0) ∈ t.db.getPending t.keys.db 1 2 := hafter ▸ List.mem_singleton_self _
  refine ⟨s, t, hs, ht, hafter, signalled_of_run (by decide) hs ht ⟨_, hrow, rfl, rfl⟩ ?_ hlisted⟩
  exact fun c h ↦ by rw [hbefore] at h; cases h

end EnvelopeSystem

end VoceChat
