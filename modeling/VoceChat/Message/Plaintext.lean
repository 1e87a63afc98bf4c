import VoceChat.Foundations.History
import VoceChat.Foundations.Table
import VoceChat.Groups.Encryption
import VoceChat.Message.Send

/-!
# Which messages pass unencrypted (`src/api/message.rs`, `src/api/e2e.rs`, `src/server.rs`)

Three settings decide whether a message has to be encrypted (`enforce_e2e_required`). The version of
the protocol is in the configuration; an administrator sets it, and every start of the server sets
it to 2, which refuses all plaintext. Below that it is up to the conversation: each of the two users
sets for both whether their direct messages are encrypted (`e2e_dm_setting`), and whoever manages a
group sets it for the group.

`plaintext_iff` says of a whole run what a message finds: plaintext passes when the version was
lowered since the server was last started, and encryption was switched off last in the conversation,
which is still there. Nothing else opens a conversation, whoever comes and goes.

Both settings are stored with foreign keys, so they go with the users. The uids and the ids of
groups are not used again.
-/

namespace VoceChat

open Guards Transition

/-- `dm_pair`. -/
def dmPair (a b : ℤ) : ℤ × ℤ := if a < b then (a, b) else (b, a)

/-- Users and groups, `e2e_dm_setting`, and the version of the protocol in the configuration. -/
structure EncryptionSystem where
  groups : Groups.State
  dmSettings : Table (ℤ × ℤ) Bool
  e2eProtocolVer : ℤ

inductive EncryptionAction where
  /-- Anything that is done with groups and users. -/
  | groups (a : Groups.Action)
  | putDmSetting (token : CurrentUser) (peerUid : ℤ) (e2eEnabled : Bool)
  | setConfig (token : CurrentUser) (e2eProtocolVer : ℤ)
  | restart

namespace EncryptionSystem

def start : EncryptionSystem := ⟨Groups.State.start, .empty, 2⟩

def hasUser (s : EncryptionSystem) (uid : ℤ) : Bool := (s.groups.users.get uid).isSome

/-- `get_dm_setting`. -/
def getDmSetting (s : EncryptionSystem) (token : CurrentUser) (peerUid : ℤ) : Bool :=
  (s.dmSettings.get (dmPair token.uid peerUid)).getD true

/-- `put_dm_setting`. Both users are foreign keys. -/
def putDmSetting (s : EncryptionSystem) (token : CurrentUser) (peerUid : ℤ) (e2eEnabled : Bool) :
    Except ApiError EncryptionSystem := do
  ensure (peerUid ≠ token.uid) (.fromStatus 400)
  ensure (s.hasUser peerUid = true) (.fromStatus 404)
  ensure (s.hasUser token.uid = true) .internal
  return { s with dmSettings := s.dmSettings.put (dmPair token.uid peerUid) e2eEnabled }

/-- `set_config` of the login, as far as the version is concerned. -/
def setConfig (s : EncryptionSystem) (token : CurrentUser) (e2eProtocolVer : ℤ) :
    Except ApiError EncryptionSystem := do
  ensure (token.isAdmin = true) (.fromStatus 403)
  return { s with e2eProtocolVer := e2eProtocolVer }

/-- The settings of users that are deleted go with them. -/
def withGroups (s : EncryptionSystem) (groups : Groups.State) : EncryptionSystem where
  groups := groups
  dmSettings := s.dmSettings.filter fun pair _ ↦
    (groups.users.get pair.1).isSome && (groups.users.get pair.2).isSome
  e2eProtocolVer := s.e2eProtocolVer

/-- A request that is refused changes nothing. -/
def perform (s : EncryptionSystem) : EncryptionAction → EncryptionSystem
  | .groups a => s.withGroups (s.groups.perform a)
  | .putDmSetting token peerUid e2eEnabled =>
    (s.putDmSetting token peerUid e2eEnabled).toOption.getD s
  | .setConfig token e2eProtocolVer => (s.setConfig token e2eProtocolVer).toOption.getD s
  | .restart => { s with groups := s.groups.reload, e2eProtocolVer := 2 }

/-! ### What a message finds -/

/-- What the steps of `send_message` read is this state. -/
structure Shows (s : EncryptionSystem) (ctx : Context) : Prop where
  e2eProtocolVer : ctx.cache.e2eProtocolVer = some s.e2eProtocolVer
  dmSettings : ∀ pair, ctx.dmSettings.lookup pair = s.dmSettings.get pair
  groups : ∀ gid : Int64, (ctx.cache.group gid).map CacheGroup.e2eEnabled =
    s.groups.cachedE2e gid.toInt

/-- An accepted request of one of the two users sets this for their messages. -/
def SetsDm (a b : ℤ) (on : Bool) (s : EncryptionSystem) (act : EncryptionAction) : Prop :=
  ∃ token peerUid, act = .putDmSetting token peerUid on ∧
    dmPair token.uid peerUid = dmPair a b ∧ (s.putDmSetting token peerUid on).toOption.isSome = true

/-- An accepted request makes the group with this setting, or gives it to it. -/
def SetsGroup (gid : ℤ) (on : Bool) (s : EncryptionSystem) (act : EncryptionAction) : Prop :=
  ∃ a, act = .groups a ∧ s.groups.SetsE2e gid on a

/-- An administrator sets a version that allows plaintext. -/
def Lowers (_ : EncryptionSystem) (act : EncryptionAction) : Prop :=
  ∃ token ver, act = .setConfig token ver ∧ token.isAdmin = true ∧ ver < 2

/-- The server is started, or an administrator sets a version that does not. -/
def Raises (_ : EncryptionSystem) (act : EncryptionAction) : Prop :=
  act = .restart ∨ ∃ token ver, act = .setConfig token ver ∧ token.isAdmin = true ∧ 2 ≤ ver

/-- The setting of the conversation is no encryption. -/
def AllowsPlaintext (s : EncryptionSystem) (fromUid : Int64) : MessageTarget → Prop
  | .user uid => s.dmSettings.get (dmPair fromUid.toInt uid.toInt) = some false
  | .group gid => s.groups.cachedE2e gid.toInt = some false

/-- The conversation is there, and the last that was set for it is no encryption. -/
def SwitchedOff (as : List EncryptionAction) (s : EncryptionSystem) (fromUid : Int64) :
    MessageTarget → Prop
  | .user uid => (s.hasUser fromUid.toInt = true ∧ s.hasUser uid.toInt = true) ∧
    Since (total perform) (SetsDm fromUid.toInt uid.toInt false)
      (SetsDm fromUid.toInt uid.toInt true) start as
  | .group gid => (s.groups.groups.get gid.toInt).isSome = true ∧
    Since (total perform) (SetsGroup gid.toInt false) (SetsGroup gid.toInt true) start as

end EncryptionSystem

/-! ### Pairs -/

theorem dmPair_comm (a b : ℤ) : dmPair a b = dmPair b a := by
  unfold dmPair
  split
  · rename_i h
    rw [if_neg h.asymm]
  · rename_i h
    rcases lt_or_eq_of_le (not_lt.1 h) with hlt | rfl
    · rw [if_pos hlt]
    · rw [if_neg h]

theorem dmPair_eq_min_max (a b : ℤ) : dmPair a b = (min a b, max a b) := by
  unfold dmPair
  split
  · rename_i h
    rw [min_eq_left h.le, max_eq_right h.le]
  · rename_i h
    rw [min_eq_right (not_lt.1 h), max_eq_left (not_lt.1 h)]

/-- The users of a pair, in any order. -/
theorem dmPair_forall {p : ℤ → Prop} (a b : ℤ) :
    p (dmPair a b).1 ∧ p (dmPair a b).2 ↔ p a ∧ p b := by
  unfold dmPair
  split
  · exact Iff.rfl
  · exact and_comm

namespace EncryptionSystem

variable {s t : EncryptionSystem} {a b : ℤ} {on on' : Bool} {act : EncryptionAction}
  {as : List EncryptionAction} {token : CurrentUser} {peerUid : ℤ}

/-! ### Steps -/

theorem putDmSetting_eq_ok_iff : s.putDmSetting token peerUid on = .ok t ↔
    peerUid ≠ token.uid ∧ s.hasUser peerUid = true ∧ s.hasUser token.uid = true ∧
      { s with dmSettings := s.dmSettings.put (dmPair token.uid peerUid) on } = t := by
  simp only [putDmSetting, bind_eq_ok, ensure_eq_ok, exists_unit, pure_eq_ok]

theorem setConfig_eq_ok_iff {ver : ℤ} : s.setConfig token ver = .ok t ↔
    token.isAdmin = true ∧ { s with e2eProtocolVer := ver } = t := by
  simp only [setConfig, bind_eq_ok, ensure_eq_ok, exists_unit, pure_eq_ok]

/-- Only users have settings, and only known ones are users. -/
structure Inv (s : EncryptionSystem) : Prop where
  groups : s.groups.E2eInv
  uids : ∀ uid, s.hasUser uid = true → uid < s.groups.nextUid
  dmSettings : ∀ pair on, s.dmSettings.get pair = some on →
    s.hasUser pair.1 = true ∧ s.hasUser pair.2 = true

theorem inv_start : start.Inv where
  groups := Groups.State.e2eInv_start
  uids _ h := by cases h
  dmSettings _ _ h := by cases h

theorem inv_perform (hs : s.Inv) (act : EncryptionAction) : (s.perform act).Inv := by
  cases act with
  | groups a =>
    have hdid := Groups.State.e2eDid_perform hs.groups a
    refine ⟨hdid.inv, fun uid huser ↦ ?_, fun pair on hget ↦ ?_⟩
    · rcases hdid.users.users uid huser with hold | hnew
      · exact (hs.uids uid hold).trans_le hdid.users.nextUid
      · exact hnew.2
    · obtain ⟨-, hkeep⟩ := Table.get_filter.1 hget
      exact Bool.and_eq_true_iff.1 hkeep
  | putDmSetting token peerUid on =>
    cases h : s.putDmSetting token peerUid on with
    | error e =>
      rw [perform, h]
      exact hs
    | ok t =>
      rw [perform, h]
      obtain ⟨-, hpeer, hself, rfl⟩ := putDmSetting_eq_ok_iff.1 h
      refine ⟨hs.groups, hs.uids, fun pair on' hget ↦ ?_⟩
      change (s.dmSettings.put _ _).get pair = _ at hget
      rw [Table.get_put] at hget
      split at hget
      · rename_i hpair
        rw [hpair]
        exact (dmPair_forall (p := fun uid ↦ s.hasUser uid = true) _ _).2 ⟨hself, hpeer⟩
      · exact hs.dmSettings pair on' hget
  | setConfig token ver =>
    cases h : s.setConfig token ver with
    | error e =>
      rw [perform, h]
      exact hs
    | ok t =>
      rw [perform, h]
      obtain ⟨-, rfl⟩ := setConfig_eq_ok_iff.1 h
      exact ⟨hs.groups, hs.uids, hs.dmSettings⟩
  | restart => exact ⟨hs.groups.reload, hs.uids, hs.dmSettings⟩

/-! ### What was set -/

theorem dmSettings_groups (a : Groups.Action) (pair : ℤ × ℤ) (on : Bool) :
    (s.perform (.groups a)).dmSettings.get pair = some on ↔
      ((s.perform (.groups a)).hasUser pair.1 = true ∧
        (s.perform (.groups a)).hasUser pair.2 = true) ∧ s.dmSettings.get pair = some on := by
  refine Table.get_filter.trans (and_comm.trans (and_congr_left fun _ ↦ ?_))
  exact Bool.and_eq_true_iff

/-- A step that sets nothing for anybody. -/
theorem not_setsDm (h : ∀ token peerUid on, act ≠ .putDmSetting token peerUid on) (a b : ℤ)
    (on : Bool) : ¬s.SetsDm a b on act := by
  rintro ⟨token, peerUid, rfl, -⟩
  exact h token peerUid on rfl

/-- What a step makes of the setting of two users. -/
theorem Inv.dmSettings_perform (hs : s.Inv) (act : EncryptionAction) (a b : ℤ) (on : Bool) :
    (s.perform act).dmSettings.get (dmPair a b) = some on ↔
      ((s.perform act).hasUser a = true ∧ (s.perform act).hasUser b = true) ∧
        (s.SetsDm a b on act ∨
          s.dmSettings.get (dmPair a b) = some on ∧ ¬s.SetsDm a b (!on) act) := by
  have hboth : ∀ t : EncryptionSystem,
      t.hasUser (dmPair a b).1 = true ∧ t.hasUser (dmPair a b).2 = true ↔
        t.hasUser a = true ∧ t.hasUser b = true :=
    fun t ↦ dmPair_forall (p := fun uid ↦ t.hasUser uid = true) a b
  have hquiet : ∀ t : EncryptionSystem, t.hasUser = s.hasUser →
      (∀ on, ¬s.SetsDm a b on act) → (s.dmSettings.get (dmPair a b) = some on ↔
        (t.hasUser a = true ∧ t.hasUser b = true) ∧ (s.SetsDm a b on act ∨
          s.dmSettings.get (dmPair a b) = some on ∧ ¬s.SetsDm a b (!on) act)) := by
    intro t husers hsets
    rw [husers, or_iff_right (hsets on), and_iff_left (hsets !on)]
    exact (and_iff_right_of_imp fun h ↦ (hboth s).1 (hs.dmSettings _ _ h)).symm
  cases act with
  | groups a' =>
    have hsets : ∀ on, ¬s.SetsDm a b on (.groups a') := not_setsDm (fun _ _ _ h ↦ by cases h) a b
    rw [dmSettings_groups, hboth, or_iff_right (hsets on), and_iff_left (hsets !on)]
  | putDmSetting token peerUid on' =>
    cases h : s.putDmSetting token peerUid on' with
    | error e =>
      rw [perform, h]
      refine hquiet s rfl ?_
      rintro on ⟨token', peerUid', hact, -, hok⟩
      obtain ⟨rfl, rfl, rfl⟩ := EncryptionAction.putDmSetting.inj hact
      rw [h] at hok
      cases hok
    | ok t =>
      rw [perform, h]
      obtain ⟨-, hpeer, hself, rfl⟩ := putDmSetting_eq_ok_iff.1 h
      have hsets : ∀ on, s.SetsDm a b on (.putDmSetting token peerUid on') ↔
          dmPair token.uid peerUid = dmPair a b ∧ on = on' := by
        intro on
        constructor
        · rintro ⟨token', peerUid', hact, hpair, -⟩
          obtain ⟨rfl, rfl, rfl⟩ := EncryptionAction.putDmSetting.inj hact
          exact ⟨hpair, rfl⟩
        · rintro ⟨hpair, rfl⟩
          exact ⟨token, peerUid, rfl, hpair, by rw [h]; rfl⟩
      show (s.dmSettings.put _ _).get _ = _ ↔ (s.hasUser a = true ∧ s.hasUser b = true) ∧ _
      rw [Table.get_put, hsets, hsets, ← hboth]
      split
      · rename_i hpair
        rw [hpair, Option.some_inj]
        have husers := (dmPair_forall (p := fun uid ↦ s.hasUser uid = true) _ _).2 ⟨hself, hpeer⟩
        cases on <;> cases on' <;> simp [husers]
      · rename_i hpair
        rw [or_iff_right fun h ↦ hpair h.1.symm, and_iff_left fun h ↦ hpair h.1.symm]
        exact (and_iff_right_of_imp (hs.dmSettings _ _)).symm
  | setConfig token ver =>
    have hsets : ∀ on, ¬s.SetsDm a b on (.setConfig token ver) :=
      not_setsDm (fun _ _ _ h ↦ by cases h) a b
    cases h : s.setConfig token ver with
    | error e =>
      rw [perform, h]
      exact hquiet s rfl hsets
    | ok t =>
      rw [perform, h]
      obtain ⟨-, rfl⟩ := setConfig_eq_ok_iff.1 h
      exact hquiet _ rfl hsets
  | restart =>
    exact hquiet _ rfl (not_setsDm (fun _ _ _ h ↦ by cases h) a b)

/-! ### Runs -/

theorem groups_putDmSetting (s : EncryptionSystem) (token : CurrentUser) (peerUid : ℤ) (on : Bool) :
    (s.perform (.putDmSetting token peerUid on)).groups = s.groups := by
  rw [perform]
  cases h : s.putDmSetting token peerUid on with
  | error e => rfl
  | ok t =>
    obtain ⟨-, -, -, rfl⟩ := putDmSetting_eq_ok_iff.1 h
    rfl

theorem e2eProtocolVer_putDmSetting (s : EncryptionSystem) (token : CurrentUser) (peerUid : ℤ)
    (on : Bool) :
    (s.perform (.putDmSetting token peerUid on)).e2eProtocolVer = s.e2eProtocolVer := by
  rw [perform]
  cases h : s.putDmSetting token peerUid on with
  | error e => rfl
  | ok t =>
    obtain ⟨-, -, -, rfl⟩ := putDmSetting_eq_ok_iff.1 h
    rfl

theorem setConfig_perform (s : EncryptionSystem) (token : CurrentUser) (ver : ℤ) :
    s.perform (.setConfig token ver) =
      if token.isAdmin = true then { s with e2eProtocolVer := ver } else s := by
  rw [perform, setConfig]
  split
  · rename_i hadmin
    rw [ensure, if_pos hadmin]
    rfl
  · rename_i hadmin
    rw [ensure, if_neg hadmin]
    rfl

theorem groups_setConfig (s : EncryptionSystem) (token : CurrentUser) (ver : ℤ) :
    (s.perform (.setConfig token ver)).groups = s.groups := by
  rw [setConfig_perform]
  split <;> rfl

theorem Inv.users_perform (hs : s.Inv) (act : EncryptionAction) :
    s.groups.OnlyNewUsers (s.perform act).groups := by
  cases act with
  | groups a => exact (Groups.State.e2eDid_perform hs.groups a).users
  | putDmSetting token peerUid on =>
    rw [groups_putDmSetting]
    exact Groups.State.SameUsers.onlyNewUsers ⟨rfl, rfl⟩
  | setConfig token ver =>
    rw [groups_setConfig]
    exact Groups.State.SameUsers.onlyNewUsers ⟨rfl, rfl⟩
  | restart => exact Groups.State.SameUsers.onlyNewUsers ⟨rfl, rfl⟩

/-- A user that was known before was there before. -/
theorem Inv.hasUser_of_known (hs : s.Inv) {act : EncryptionAction} {uid : ℤ}
    (hknown : uid < s.groups.nextUid) (h : (s.perform act).hasUser uid = true) :
    s.hasUser uid = true :=
  ((hs.users_perform act).users uid h).resolve_right fun hnew ↦ absurd hknown hnew.1.not_gt

/-- The setting of two users is the last one that either of them made. -/
theorem dmSettings_iff (hrun : run (total perform) start as = some s) (a b : ℤ) (on : Bool) :
    s.dmSettings.get (dmPair a b) = some on ↔
      (s.hasUser a = true ∧ s.hasUser b = true) ∧
        Since (total perform) (SetsDm a b on) (SetsDm a b !on) start as := by
  refine holds_iff_since Inv (fun s ↦ s.dmSettings.get (dmPair a b) = some on)
    (fun s ↦ s.hasUser a = true ∧ s.hasUser b = true)
    (fun s ↦ a < s.groups.nextUid ∧ b < s.groups.nextUid) ?_ ?_ ?_ ?_ inv_start
    (fun h ↦ by cases h) hrun
  · rintro s act _ hs ⟨⟩
    exact inv_perform hs act
  · rintro s act _ hs ⟨⟩
    exact hs.dmSettings_perform act a b on
  · rintro s act _ hs ⟨⟩ hknown
    have hle := (hs.users_perform act).nextUid
    suffices h : a < s.groups.nextUid ∧ b < s.groups.nextUid from
      ⟨h.1.trans_le hle, h.2.trans_le hle⟩
    refine hknown.elim ?_ id
    rintro ⟨token, peerUid, rfl, hpair, hok⟩
    obtain ⟨t, ht⟩ := Option.isSome_iff_exists.1 hok
    have hsent : s.putDmSetting token peerUid on = .ok t := toOption_eq_some.1 ht
    obtain ⟨-, hpeer, hself, -⟩ := putDmSetting_eq_ok_iff.1 hsent
    refine (dmPair_forall (p := (· < s.groups.nextUid)) a b).1 (hpair ▸ ?_)
    exact (dmPair_forall (p := (· < s.groups.nextUid)) _ _).2
      ⟨hs.uids _ hself, hs.uids _ hpeer⟩
  · rintro s act _ hs ⟨⟩ hknown hlive
    exact ⟨hs.hasUser_of_known hknown.1 hlive.1, hs.hasUser_of_known hknown.2 hlive.2⟩

theorem getD_true_eq_false {o : Option Bool} : o.getD true = false ↔ o = some false := by
  rcases o with _ | _ | _ <;> decide

/-- Either of two users is told what was set last by either of them. -/
theorem getDmSetting_eq_false_iff (hrun : run (total perform) start as = some s)
    (token : CurrentUser) (peerUid : ℤ) :
    s.getDmSetting token peerUid = false ↔
      (s.hasUser token.uid = true ∧ s.hasUser peerUid = true) ∧
        Since (total perform) (SetsDm token.uid peerUid false) (SetsDm token.uid peerUid true)
          start as :=
  getD_true_eq_false.trans (dmSettings_iff hrun token.uid peerUid false)

/-- A step that makes no group and changes none. -/
theorem not_setsGroup (h : ∀ a, act ≠ .groups a) (gid : ℤ) (on : Bool) :
    ¬s.SetsGroup gid on act := by
  rintro ⟨a, rfl, -⟩
  exact h a rfl

theorem setsGroup_groups {gid : ℤ} {a : Groups.Action} :
    s.SetsGroup gid on (.groups a) ↔ s.groups.SetsE2e gid on a :=
  ⟨fun ⟨_, ha, h⟩ ↦ EncryptionAction.groups.inj ha ▸ h, fun h ↦ ⟨a, rfl, h⟩⟩

/-- A step elsewhere leaves the rows of the groups. -/
theorem storedE2e_perform (h : ∀ a, act ≠ .groups a) (gid : ℤ) :
    (s.perform act).groups.storedE2e gid = s.groups.storedE2e gid := by
  cases act with
  | groups a => exact absurd rfl (h a)
  | putDmSetting token peerUid on => rw [groups_putDmSetting]
  | setConfig token ver => rw [groups_setConfig]
  | restart => rfl

theorem nextGid_perform (h : ∀ a, act ≠ .groups a) :
    (s.perform act).groups.tables.nextGid = s.groups.tables.nextGid := by
  cases act with
  | groups a => exact absurd rfl (h a)
  | putDmSetting token peerUid on => rw [groups_putDmSetting]
  | setConfig token ver => rw [groups_setConfig]
  | restart => rfl

/-- The setting of a group is the last one that was made. -/
theorem storedE2e_iff (hrun : run (total perform) start as = some s) (gid : ℤ) (on : Bool) :
    s.groups.storedE2e gid = some on ↔ (s.groups.storedE2e gid).isSome = true ∧
      Since (total perform) (SetsGroup gid on) (SetsGroup gid !on) start as := by
  refine holds_iff_since Inv (fun s ↦ s.groups.storedE2e gid = some on)
    (fun s ↦ (s.groups.storedE2e gid).isSome = true) (fun s ↦ gid < s.groups.tables.nextGid)
    ?_ ?_ ?_ ?_ inv_start (fun h ↦ by cases h) hrun
  · rintro s act _ hs ⟨⟩
    exact inv_perform hs act
  all_goals
    rintro s act _ hs ⟨⟩
    by_cases hgroups : ∃ a, act = .groups a
  · obtain ⟨a, rfl⟩ := hgroups
    rw [setsGroup_groups, setsGroup_groups]
    exact (Groups.State.e2eDid_perform hs.groups a).stored_iff
  · have hact := not_exists.1 hgroups
    rw [storedE2e_perform hact, or_iff_right (not_setsGroup hact gid on),
      and_iff_left (not_setsGroup hact gid !on)]
    exact (and_iff_right_of_imp Option.isSome_of_eq_some).symm
  · obtain ⟨a, rfl⟩ := hgroups
    have hdid := Groups.State.e2eDid_perform hs.groups a
    rw [setsGroup_groups]
    exact fun h ↦ h.elim (hdid.known gid on) fun h ↦ h.trans_le hdid.nextGid
  · have hact := not_exists.1 hgroups
    rw [or_iff_right (not_setsGroup hact gid on), nextGid_perform hact]
    exact id
  · obtain ⟨a, rfl⟩ := hgroups
    exact (Groups.State.e2eDid_perform hs.groups a).of_known hs.groups
  · rw [storedE2e_perform (not_exists.1 hgroups)]
    exact fun _ ↦ id

/-- The version is the last one that was set since the start of the server. -/
theorem e2eProtocolVer_iff (hrun : run (total perform) start as = some s) :
    s.e2eProtocolVer < 2 ↔ Since (total perform) Lowers Raises start as := by
  refine (holds_iff_since (fun _ ↦ True) (fun s ↦ s.e2eProtocolVer < 2) (fun _ ↦ True)
    (fun _ ↦ True) (fun _ _ _ _ _ ↦ trivial) ?_ (fun _ _ _ _ _ _ ↦ trivial)
    (fun _ _ _ _ _ _ _ ↦ trivial) trivial (lt_irrefl 2) hrun).trans (iff_of_eq (true_and _))
  rintro s act _ - ⟨⟩
  rw [true_and]
  by_cases hset : ∃ token ver, act = .setConfig token ver
  · obtain ⟨token, ver, rfl⟩ := hset
    have hlowers : Lowers s (.setConfig token ver) ↔ token.isAdmin = true ∧ ver < 2 :=
      ⟨fun ⟨_, _, heq, h⟩ ↦ by cases heq; exact h, fun h ↦ ⟨token, ver, rfl, h⟩⟩
    have hraises : Raises s (.setConfig token ver) ↔ token.isAdmin = true ∧ 2 ≤ ver :=
      ⟨fun h ↦ h.elim (fun heq ↦ by cases heq) fun ⟨_, _, heq, h⟩ ↦ by cases heq; exact h,
        fun h ↦ .inr ⟨token, ver, rfl, h⟩⟩
    rw [hlowers, hraises, setConfig_perform]
    split
    · rename_i hadmin
      show ver < 2 ↔ _
      simp only [hadmin, true_and]
      omega
    · rename_i hadmin
      simp only [hadmin, Bool.false_eq_true, false_and, not_false_eq_true, and_true, false_or]
  · have hlowers : ¬Lowers s act := fun ⟨token, ver, hact, _⟩ ↦ hset ⟨token, ver, hact⟩
    rw [or_iff_right hlowers]
    cases act with
    | groups a => exact (and_iff_left (by rintro (h | ⟨_, _, h, -⟩) <;> cases h)).symm
    | putDmSetting token peerUid on =>
      rw [e2eProtocolVer_putDmSetting]
      exact (and_iff_left (by rintro (h | ⟨_, _, h, -⟩) <;> cases h)).symm
    | setConfig token ver => exact absurd ⟨token, ver, rfl⟩ hset
    | restart => exact iff_of_false (lt_irrefl 2) fun h ↦ h.2 (.inl rfl)

theorem inv_of_run (hrun : run (total perform) start as = some s) : s.Inv :=
  run_induction (fun _ act _ hs hstep ↦ Option.some.inj hstep ▸ inv_perform hs act) inv_start hrun

/-! ### Messages -/

theorem switchedOff_iff (hrun : run (total perform) start as = some s) (fromUid : Int64)
    (target : MessageTarget) :
    SwitchedOff as s fromUid target ↔ s.AllowsPlaintext fromUid target := by
  cases target with
  | user uid => exact (dmSettings_iff hrun fromUid.toInt uid.toInt false).symm
  | group gid =>
    have hcached := (inv_of_run hrun).groups.cached gid.toInt
    have hstored := storedE2e_iff hrun gid.toInt false
    constructor
    · rintro ⟨hgroup, hsince⟩
      obtain ⟨group, hgroup⟩ := Option.isSome_iff_exists.1 hgroup
      have hon : s.groups.cachedE2e gid.toInt = some group.e2eEnabled := by
        rw [Groups.State.cachedE2e, hgroup]
        rfl
      have hrow := hcached _ hon
      have hoff := hstored.2 ⟨Option.isSome_of_eq_some hrow, hsince⟩
      exact hon.trans (hrow.symm.trans hoff)
    · intro hoff
      obtain ⟨group, hgroup, -⟩ := Option.map_eq_some_iff.1 hoff
      exact ⟨Option.isSome_of_eq_some hgroup, (hstored.1 (hcached _ hoff)).2⟩

/-- **Which messages pass unencrypted.** -/
theorem plaintext_iff (hrun : run (total perform) start as = some s) {ctx : Context}
    (hctx : s.Shows ctx) {faults : SendFaults} (hquery : faults.dmSetting = false)
    (payload : ChatMessagePayload) :
    enforceE2eRequired faults ctx payload = .ok () ↔
      (∃ content, payload.detail.content = some content ∧ content.contentType = contentType) ∨
        Since (total perform) Lowers Raises start as ∧
          (payload.detail.content = none ∨ SwitchedOff as s payload.fromUid payload.target) := by
  have hversion : (ctx.cache.e2eProtocolVer.map fun ver ↦ decide (2 ≤ ver)).getD true =
      decide (2 ≤ s.e2eProtocolVer) := by
    rw [hctx.e2eProtocolVer]
    rfl
  rw [← e2eProtocolVer_iff hrun, switchedOff_iff hrun, ← not_le, enforceE2eRequired, hversion]
  cases payload.detail.content with
  | none =>
    dsimp only
    by_cases hver : 2 ≤ s.e2eProtocolVer
    · rw [if_pos (decide_eq_true hver)]
      simp only [reduceCtorEq, false_and, exists_false, hver, not_true_eq_false, or_self]
    · rw [if_neg fun h ↦ hver (of_decide_eq_true h)]
      simp only [hver, not_false_eq_true, true_and, true_or, or_true]
  | some content =>
    dsimp only
    by_cases htype : content.contentType = contentType
    · rw [if_pos htype]
      exact iff_of_true rfl (.inl ⟨content, rfl, htype⟩)
    rw [if_neg htype, or_iff_right fun ⟨_, heq, h⟩ ↦ htype (Option.some.inj heq ▸ h)]
    by_cases hver : 2 ≤ s.e2eProtocolVer
    · rw [if_pos (decide_eq_true hver)]
      exact iff_of_false (fun h ↦ by cases h) fun h ↦ h.1 hver
    rw [if_neg fun h ↦ hver (of_decide_eq_true h), and_iff_right hver,
      or_iff_right fun h ↦ by cases h]
    generalize payload.target = target
    cases target with
    | user uid =>
      dsimp only
      rw [hquery, if_neg Bool.false_ne_true, ← dmPair_eq_min_max, hctx.dmSettings]
      exact ensure_eq_ok.trans getD_true_eq_false
    | group gid =>
      dsimp only
      rw [hctx.groups]
      exact ensure_eq_ok.trans getD_true_eq_false

/-! ### Two users -/

/-- Two users; the version is lowered, and the second one switches encryption off. -/
def twoUsers : List EncryptionAction :=
  [.groups (.createUser false), .groups (.createUser false), .setConfig ⟨1, "", true, false⟩ 1,
    .putDmSetting ⟨2, "", false, false⟩ 1 false]

/-- What a message of the two finds. -/
def twoUsersContext : Context := ⟨⟨[], [], some 1⟩, [((1, 2), false)]⟩

theorem plaintext_iff_twoUsers : ∃ s, run (total perform) start twoUsers = some s ∧
    s.Shows twoUsersContext ∧ enforceE2eRequired .none twoUsersContext
      ⟨1, 0, .user 2, .normal ⟨⟨none, "text/plain", "hi"⟩, none⟩⟩ = .ok () := by
  obtain ⟨s, hs, husers, hversion, hrows, hgroups⟩ : ∃ s,
      run (total perform) start twoUsers = some s ∧
        (s.hasUser 1 = true ∧ s.hasUser 2 = true) ∧ s.e2eProtocolVer = 1 ∧
          s.dmSettings.rows = [((1, 2), false)] ∧ s.groups.groups.entries = [] :=
    ⟨_, rfl, ⟨rfl, rfl⟩, rfl, rfl, rfl⟩
  have hctx : s.Shows twoUsersContext := by
    refine ⟨congrArg some hversion.symm, fun pair ↦ ?_, fun gid ↦ ?_⟩
    · rw [Table.get, hrows]
      by_cases hpair : pair = (1, 2)
      · rw [hpair]
        rfl
      · have hpair' : ¬(1, 2) = pair := fun h ↦ hpair h.symm
        simp [twoUsersContext, hpair, hpair']
    · rw [Groups.State.cachedE2e, OrderedMap.get, hgroups]
      rfl
  refine ⟨s, hs, hctx, (plaintext_iff hs hctx rfl _).2 (.inr ⟨?_, .inr ⟨husers, ?_⟩⟩)⟩
  · exact (e2eProtocolVer_iff hs).1 (hversion ▸ by decide)
  · exact ((dmSettings_iff hs 1 2 false).1 (Table.get_eq_some.2 (hrows ▸ List.mem_cons_self))).2

end EncryptionSystem

end VoceChat
