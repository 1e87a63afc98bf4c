import VoceChat.Directory.System

/-!
# The version of an identity

Envelopes are addressed to a version of an identity, so a version must stand for one set of keys.
`put_identity` compares the keys and counts up in one statement. The transactions of a bot write a
version they computed from a row of another table that they read before; and rebuilding takes back
the retirement of the bot's device without a look at the table of devices.

`rises_of_run` says what is enough for versions to rise whenever keys change, and for current
identities to have a device: a bot's transaction never writes a version that the row has reached
already, and it does not rebuild without a device. `not_rises_rotations` and `not_rises_rebuild`
are two bots that do.
-/

namespace VoceChat

/-- From one row of a device to a later one: the version does not decrease, and it increases when
the keys change. -/
def IdentityRow.RaisedTo (row row' : IdentityRow) : Prop :=
  row.keyVersion ≤ row'.keyVersion ∧ (row'.keys ≠ row.keys → row.keyVersion < row'.keyVersion)

instance (row row' : IdentityRow) : Decidable (row.RaisedTo row') :=
  inferInstanceAs (Decidable (_ ∧ _))

namespace IdentityRow

variable {row row' row'' : IdentityRow}

theorem RaisedTo.refl (row : IdentityRow) : row.RaisedTo row :=
  ⟨le_refl _, fun h ↦ absurd rfl h⟩

theorem RaisedTo.trans (h : row.RaisedTo row') (h' : row'.RaisedTo row'') : row.RaisedTo row'' := by
  refine ⟨h.1.trans h'.1, fun hkeys ↦ ?_⟩
  by_cases hfirst : row'.keys = row.keys
  · exact lt_of_le_of_lt h.1 (h'.2 (hfirst.symm ▸ hkeys))
  · exact lt_of_lt_of_le (h.2 hfirst) h'.1

/-- Publishing counts the version up exactly when the keys change. -/
theorem raisedTo_publish (row : IdentityRow) (keys : PublishedKeys) (now : ℤ) :
    row.RaisedTo (publish keys now (some row)) := by
  by_cases h : row.keys = keys
  · have hpublish : publish keys now (some row) = ⟨keys, now, row.keyVersion, none⟩ := by
      rw [publish, if_neg (not_not.2 h)]
    rw [hpublish]
    exact ⟨le_refl _, fun hne ↦ absurd h.symm hne⟩
  · have hpublish : publish keys now (some row) = ⟨keys, now, row.keyVersion + 1, none⟩ := by
      rw [publish, if_pos h]
    rw [hpublish]
    exact ⟨by show row.keyVersion ≤ row.keyVersion + 1; omega,
      fun _ ↦ by show row.keyVersion < row.keyVersion + 1; omega⟩

end IdentityRow

namespace KeyTables

/-- Every identity row is raised to the row it becomes. -/
def Rises (db db' : KeyTables) : Prop :=
  ∀ k row, db.identities.get k = some row →
    ∃ row', db'.identities.get k = some row' ∧ row.RaisedTo row'

/-- Versions count from `1`. -/
def VersionsPositive (db : KeyTables) : Prop :=
  ∀ k row, db.identities.get k = some row → 1 ≤ row.keyVersion

/-- Every identity that is not retired belongs to a device. -/
def DevicesExist (db : KeyTables) : Prop :=
  ∀ k row, db.identities.get k = some row → row.retiredAt = none → k ∈ db.devices

variable {db db' db'' : KeyTables}

theorem Rises.of_eq (h : db'.identities = db.identities) : db.Rises db' :=
  fun _ row hget ↦ ⟨row, h ▸ hget, .refl row⟩

theorem Rises.trans (h : db.Rises db') (h' : db'.Rises db'') : db.Rises db'' := by
  intro k row hget
  obtain ⟨row', hget', hraised⟩ := h k row hget
  obtain ⟨row'', hget'', hraised'⟩ := h' k row' hget'
  exact ⟨row'', hget'', hraised.trans hraised'⟩

/-- One row is written, over none or over one that is raised to it. -/
theorem Rises.of_put {k : DeviceKey} {row' : IdentityRow}
    (hids : db'.identities = db.identities.put k row')
    (hraised : ∀ row ∈ db.identities.get k, row.RaisedTo row') : db.Rises db' := by
  intro l row hget
  rw [hids, Table.get_put]
  by_cases hl : l = k
  · subst hl
    exact ⟨row', if_pos rfl, hraised row hget⟩
  · exact ⟨row, by rw [if_neg hl, hget], .refl row⟩

theorem Rises.of_modify {k : DeviceKey} {f : IdentityRow → IdentityRow}
    (hids : db'.identities = db.identities.modify k f)
    (hraised : ∀ row ∈ db.identities.get k, row.RaisedTo (f row)) : db.Rises db' := by
  intro l row hget
  rw [hids, Table.get_modify, hget]
  by_cases hl : l = k
  · subst hl
    exact ⟨f row, if_pos rfl, hraised row hget⟩
  · exact ⟨row, if_neg hl, .refl row⟩

theorem DevicesExist.of_put {k : DeviceKey} {row' : IdentityRow} (h : db.DevicesExist)
    (hids : db'.identities = db.identities.put k row')
    (hdevices : ∀ l ∈ db.devices, l ∈ db'.devices) (hk : k ∈ db'.devices) : db'.DevicesExist := by
  rw [DevicesExist, hids]
  exact Table.forall_get_put (fun l row hget hlive ↦ hdevices l (h l row hget hlive)) fun _ ↦ hk

theorem DevicesExist.of_modify {k : DeviceKey} {f : IdentityRow → IdentityRow}
    (h : db.DevicesExist) (hids : db'.identities = db.identities.modify k f)
    (hdevices : db'.devices = db.devices)
    (hk : ∀ row ∈ db.identities.get k, (f row).retiredAt = none → k ∈ db.devices) :
    db'.DevicesExist := by
  rw [DevicesExist, hids, hdevices]
  exact Table.forall_get_modify h hk

/-- When a device goes, its identity is retired. -/
theorem DevicesExist.of_retire {k : DeviceKey} {now : ℤ} (h : db.DevicesExist)
    (hids : db'.identities = (db.retire k now).identities)
    (hdevices : db'.devices = (db.removeDevice k).devices) : db'.DevicesExist := by
  intro l row hget hlive
  rw [hids, retire, Table.get_modify] at hget
  by_cases hl : l = k
  · rw [if_pos hl, Option.map_eq_some_iff] at hget
    obtain ⟨row', -, rfl⟩ := hget
    cases hretired : row'.retiredAt <;> simp only [hretired] at hlive <;> cases hlive
  · rw [if_neg hl] at hget
    rw [hdevices, removeDevice]
    exact List.mem_filter.2 ⟨h l row hget hlive, decide_eq_true hl⟩

end KeyTables

/-- What a bot writes raises the row of its device: its version is not below that of the row, and
above it if the keys change. A bot that rebuilds has its device. -/
def BotTask.InOrder (db : KeyTables) (generated : GeneratedMaterial) (now : ℤ) : BotTask → Prop
  | .rotating botUid existing _ =>
    ∀ row ∈ db.identities.get (botUid, existing.deviceId),
      row.RaisedTo ⟨generated.rotated row.keys, now, existing.keyVersion + 1, row.retiredAt⟩
  | .rebuilding botUid existing =>
    ∀ row ∈ db.identities.get (botUid, existing.deviceId),
      row.RaisedTo ⟨generated.keys, now, existing.keyVersion + 1, none⟩ ∧
        (botUid, existing.deviceId) ∈ db.devices
  | .initializing _ | .done => True

instance (db : KeyTables) (generated : GeneratedMaterial) (now : ℤ) :
    ∀ task : BotTask, Decidable (task.InOrder db generated now)
  | .rotating botUid existing _ => inferInstanceAs (Decidable
    (∀ row ∈ db.identities.get (botUid, existing.deviceId), IdentityRow.RaisedTo row _))
  | .rebuilding botUid existing => inferInstanceAs (Decidable
    (∀ row ∈ db.identities.get (botUid, existing.deviceId), IdentityRow.RaisedTo row _ ∧
      (botUid, existing.deviceId) ∈ db.devices))
  | .initializing _ | .done => .isTrue trivial

namespace KeySystem

variable {ver : ℤ} {s t : KeySystem} {a : KeyAction}

/-- What a step of a bot writes is in order: the transaction of a task, if there is one. -/
def InOrder (s : KeySystem) : KeyAction → Prop
  | .commit i generated now => ∀ task ∈ s.tasks[i]?, task.InOrder s.db generated now
  | .putIdentity .. | .putPrekeys .. | .getBundle .. | .deleteDevice .. | .logout .. | .login ..
  | .readInitialize _ | .readRotate _ | .readRebuild .. | .loadMaterial _ => True

instance (s : KeySystem) : ∀ a, Decidable (s.InOrder a)
  | .commit i generated now =>
    inferInstanceAs (Decidable (∀ task ∈ s.tasks[i]?, task.InOrder s.db generated now))
  | .putIdentity .. | .putPrekeys .. | .getBundle .. | .deleteDevice .. | .logout .. | .login ..
  | .readInitialize _ | .readRotate _ | .readRebuild .. | .loadMaterial _ => .isTrue trivial

/-- The step lemma: versions rise, and devices are there. -/
theorem rises_of_step (h : s.db.DevicesExist) (hok : s.InOrder a) (hstep : s.step ver a = some t) :
    s.db.Rises t.db ∧ t.db.DevicesExist := by
  rcases did hstep with ⟨hids, hdevices⟩ | ⟨k, keys, now, hk, -, hids, hdevices⟩ |
    ⟨k, now, hids, hdevices⟩ | ⟨k, hids, hdevices⟩ | ⟨k, generated, now, hnone, hids, hdevices⟩ |
    ⟨i, botUid, existing, material, generated, now, rfl, htask, hids, hdevices⟩ |
    ⟨i, botUid, existing, generated, now, rfl, htask, hids, hdevices⟩
  · refine ⟨.of_eq hids, fun l row hget hlive ↦ ?_⟩
    rw [hids] at hget
    exact hdevices ▸ h l row hget hlive
  · refine ⟨.of_put hids fun row hrow ↦ ?_, h.of_put hids (fun l hl ↦ hdevices ▸ hl)
      (hdevices ▸ hk)⟩
    rw [Option.mem_def.1 hrow]
    exact row.raisedTo_publish keys now
  · have hmodify : t.db.identities = s.db.identities.modify k fun row ↦
        { row with retiredAt := row.retiredAt.or (some now) } := hids
    exact ⟨.of_modify hmodify fun row _ ↦ ⟨le_refl _, fun hne ↦ absurd rfl hne⟩,
      h.of_retire hids hdevices⟩
  · refine ⟨.of_eq hids, fun l row hget hlive ↦ ?_⟩
    rw [hids] at hget
    rw [hdevices]
    exact KeyTables.mem_devices_login.2 (.inr (h l row hget hlive))
  · refine ⟨.of_put hids fun row hrow ↦ ?_, h.of_put hids (fun l hl ↦ ?_) ?_⟩
    · rw [hnone] at hrow
      cases hrow
    · exact hdevices ▸ KeyTables.mem_devices_login.2 (.inr hl)
    · exact hdevices ▸ KeyTables.mem_devices_login.2 (.inl rfl)
  · have hraised := hok _ htask
    refine ⟨.of_modify hids hraised, h.of_modify hids hdevices fun row hrow hlive ↦ ?_⟩
    -- rotating leaves the retirement as it is
    exact h _ row hrow hlive
  · have hraised := hok _ htask
    exact ⟨.of_modify hids fun row hrow ↦ (hraised row hrow).1,
      h.of_modify hids hdevices fun row hrow _ ↦ (hraised row hrow).2⟩

/-- What is written over nothing has version `1`, and versions rise from there. -/
theorem versionsPositive_step (h : s.db.VersionsPositive) (hok : s.InOrder a)
    (hstep : s.step ver a = some t) : t.db.VersionsPositive := by
  rw [KeyTables.VersionsPositive]
  rcases did hstep with ⟨hids, -⟩ | ⟨k, keys, now, -, -, hids, -⟩ | ⟨k, now, hids, -⟩ |
    ⟨k, hids, -⟩ | ⟨k, generated, now, -, hids, -⟩ |
    ⟨i, botUid, existing, material, generated, now, rfl, htask, hids, -⟩ |
    ⟨i, botUid, existing, generated, now, rfl, htask, hids, -⟩
  all_goals rw [hids]
  · exact h
  · refine Table.forall_get_put h ?_
    cases hrow : s.db.identities.get k with
    | none => exact le_refl _
    | some row => exact (h k row hrow).trans (row.raisedTo_publish keys now).1
  · exact Table.forall_get_modify h fun row hrow ↦ h k row hrow
  · exact h
  · exact Table.forall_get_put h (le_refl _)
  · exact Table.forall_get_modify h fun row hrow ↦ (h _ row hrow).trans (hok _ htask row hrow).1
  · exact Table.forall_get_modify h fun row hrow ↦ (h _ row hrow).trans (hok _ htask row hrow).1.1

theorem devicesExist_init : init.db.DevicesExist := fun _ _ h ↦ by cases h

theorem devicesExist_of_run {actions : List KeyAction}
    (hok : Transition.Along (step ver) InOrder init actions)
    (hrun : Transition.run (step ver) init actions = some s) : s.db.DevicesExist :=
  Transition.run_induction_along (I := fun s : KeySystem ↦ s.db.DevicesExist)
    (fun _ _ _ h hok hstep ↦ (rises_of_step h hok hstep).2) devicesExist_init hok hrun

/-- **Versions rise.** From any state of a run to any later one, no version decreases, a version
increases whenever the keys change, and every identity that is not retired has its device. -/
theorem rises_of_run {earlier later : List KeyAction}
    (hearlier : Transition.Along (step ver) InOrder init earlier)
    (hlater : Transition.Along (step ver) InOrder s later)
    (hs : Transition.run (step ver) init earlier = some s)
    (ht : Transition.run (step ver) s later = some t) :
    s.db.Rises t.db ∧ t.db.DevicesExist := by
  refine Transition.run_induction_along
    (I := fun u : KeySystem ↦ s.db.Rises u.db ∧ u.db.DevicesExist) (fun u b v hu hok hstep ↦ ?_)
    ⟨.of_eq rfl, devicesExist_of_run hearlier hs⟩ hlater ht
  obtain ⟨hrises, hdevices⟩ := rises_of_step hu.2 hok hstep
  exact ⟨hu.1.trans hrises, hdevices⟩

/-! ### Runs of a bot -/

/-- Generated keys with this text everywhere. -/
def generatedKeys (name : String) (hname : isBlank (some name) = false) : GeneratedMaterial :=
  ⟨⟨[], [], [], []⟩, name, name, name, [], hname, hname⟩

/-- Bot `1` gets its keys, and they are rotated after that. -/
def rotation : List KeyAction :=
  [.readInitialize 1, .commit 0 (generatedKeys "first" (by decide)) 0, .readRotate 1,
    .loadMaterial 1, .commit 1 (generatedKeys "second" (by decide)) 1]

/-- The bot and its first rotation: a change of keys with a new version. -/
theorem rises_of_run_rotation : ∃ s t row row',
    Transition.run (step 2) init (rotation.take 2) = some s ∧
    Transition.run (step 2) s (rotation.drop 2) = some t ∧
    s.db.identities.get (1, "bot:1") = some row ∧ t.db.identities.get (1, "bot:1") = some row' ∧
    row'.keys ≠ row.keys ∧ row.keyVersion = 1 ∧ row'.keyVersion = 2 ∧
    s.db.Rises t.db ∧ t.db.DevicesExist := by
  have hrun : ((Transition.run (step 2) init (rotation.take 2)).bind fun s ↦
      (Transition.run (step 2) s (rotation.drop 2)).map fun t ↦
        (s.db.identities.get (1, "bot:1"), t.db.identities.get (1, "bot:1"))) =
      some (some ⟨⟨"first", some "first", some "first"⟩, 0, 1, none⟩,
        some ⟨⟨"first", some "second", some "second"⟩, 1, 2, none⟩) := rfl
  obtain ⟨s, hs, hrun⟩ := Option.bind_eq_some_iff.1 hrun
  obtain ⟨t, ht, hrows⟩ := Option.map_eq_some_iff.1 hrun
  obtain ⟨hrow, hrow'⟩ := Prod.ext_iff.1 hrows
  have hok : Transition.Along (step 2) InOrder init (rotation.take 2 ++ rotation.drop 2) :=
    Transition.along_of_check (by decide +kernel)
  obtain ⟨hearlier, hlater⟩ := Transition.along_append.1 hok
  exact ⟨s, t, _, _, hs, ht, hrow, hrow', by decide, rfl, rfl,
    rises_of_run hearlier (hlater s hs) hs ht⟩

/-- Two rotations read the row of the bot before either of them writes. -/
def twoRotations : List KeyAction :=
  [.readInitialize 1, .commit 0 (generatedKeys "first" (by decide)) 0, .readRotate 1, .readRotate 1,
    .loadMaterial 1, .loadMaterial 2, .commit 1 (generatedKeys "second" (by decide)) 1]

/-- The bot logs out before it is rebuilt. -/
def rebuiltAfterLogout : List KeyAction :=
  [.readInitialize 1, .commit 0 (generatedKeys "first" (by decide)) 0,
    .logout ⟨1, "bot:1", false, false⟩ 1, .readRebuild 1 true,
    .commit 1 (generatedKeys "second" (by decide)) 2]

/-- Both rotations write version `2`, with different keys; and after the rebuilding there is a
current identity without a device. -/
theorem not_rises_twoRotations :
    (∃ s t, Transition.run (step 2) init twoRotations = some s ∧
      s.step 2 (.commit 2 (generatedKeys "third" (by decide)) 2) = some t ∧ ¬s.db.Rises t.db) ∧
    ∃ s, Transition.run (step 2) init rebuiltAfterLogout = some s ∧ ¬s.db.DevicesExist := by
  constructor
  · have hrun : ((Transition.run (step 2) init twoRotations).bind fun s ↦
        (s.step 2 (.commit 2 (generatedKeys "third" (by decide)) 2)).map fun t ↦
          (s.db.identities.get (1, "bot:1"), t.db.identities.get (1, "bot:1"))) =
        some (some ⟨⟨"first", some "second", some "second"⟩, 1, 2, none⟩,
          some ⟨⟨"first", some "third", some "third"⟩, 2, 2, none⟩) := rfl
    obtain ⟨s, hs, hrun⟩ := Option.bind_eq_some_iff.1 hrun
    obtain ⟨t, ht, hrows⟩ := Option.map_eq_some_iff.1 hrun
    obtain ⟨hrow, hrow'⟩ := Prod.ext_iff.1 hrows
    refine ⟨s, t, hs, ht, fun hrises ↦ ?_⟩
    obtain ⟨row', hget, hraised⟩ := hrises _ _ hrow
    obtain rfl := Option.some_inj.1 (hrow'.symm.trans hget)
    exact absurd (hraised.2 (by decide)) (by decide)
  · have hrun : ((Transition.run (step 2) init rebuiltAfterLogout).map fun s ↦
        (s.db.identities.get (1, "bot:1"), s.db.devices)) =
        some (some ⟨⟨"second", some "second", some "second"⟩, 2, 2, none⟩, []) := rfl
    obtain ⟨s, hs, hfacts⟩ := Option.map_eq_some_iff.1 hrun
    obtain ⟨hrow, hdevices⟩ := Prod.ext_iff.1 hfacts
    refine ⟨s, hs, fun h ↦ ?_⟩
    have hdevice := h _ _ hrow rfl
    rw [show s.db.devices = [] from hdevices] at hdevice
    exact List.not_mem_nil hdevice

end KeySystem

end VoceChat
