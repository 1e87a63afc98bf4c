import Mathlib.Data.Int.Notation
import Mathlib.Data.Nat.Notation
import VoceChat.Foundations.Run

/-!
# Dynamic configuration (`set_dynamic_config` in `src/state.rs`)

A configuration is a row of the table `config` and, if it is enabled, an instance in the cache. A
restart makes the instance from the row (`active`). `set_dynamic_config` writes the row and then the
cache; the cache lock is taken for the second write alone. `put_common` reads the row, merges the
fields it was sent into it, and calls `set_dynamic_config` with the result.

Two calls can therefore write the row in one order and the cache in the other, and the server goes
on with an instance that is not in the table. And of two partial updates that have read the same row
the second one writes the fields of the first back to what they were.

`settled_of_orderly` states the order in which neither happens. It is about any configuration key;
what a key has to bring is the structure `ConfigKey`, and `systemCommon` is the one key that has
partial updates. No function reads the cached instance of that key, and no restart makes one.

The row has the configuration itself here and not its JSON, which is read back as it was written.
-/

namespace VoceChat

open Transition

/-- `DynamicConfigEntry`. -/
structure DynamicConfigEntry (T : Type) where
  enabled : Bool
  config : T
  deriving DecidableEq, Repr

/-- A kind of configuration, with its partial updates and the fields that these can set. -/
structure ConfigKey where
  Config : Type
  Instance : Type
  Patch : Type
  Field : Type
  Value : Type
  /-- `create_instance`. -/
  createInstance : Config → Instance
  /-- The configuration that a partial update makes of what it has loaded. -/
  merge : Option (DynamicConfigEntry Config) → Patch → Config
  field : Field → Config → Option Value
  patchField : Field → Patch → Option Value
  /-- A field that is sent is set. -/
  field_merge_of_some : ∀ f row patch v, patchField f patch = some v →
    field f (merge row patch) = some v
  /-- A field that is not sent keeps its value. -/
  field_merge_of_none : ∀ f entry patch v, patchField f patch = none →
    field f entry.config = some v → field f (merge (some entry) patch) = some v

namespace ConfigKey

variable (K : ConfigKey)

/-- A write of the row. -/
inductive Write where
  | full (entry : DynamicConfigEntry K.Config)
  | partially (patch : K.Patch)

/-- The row and the cached instance; `merging` are the partial updates that have read the row, with
what they have read, and `writing` the calls that have written the row and not yet the cache, in
that order. `log` is history: the writes of the row. -/
structure State where
  row : Option (DynamicConfigEntry K.Config)
  cache : Option K.Instance
  merging : List (K.Patch × Option (DynamicConfigEntry K.Config))
  writing : List (DynamicConfigEntry K.Config)
  log : List K.Write

inductive Action where
  /-- The first half of `set_dynamic_config`. -/
  | set (entry : DynamicConfigEntry K.Config)
  /-- `put_common` loads the row. -/
  | load (isAdmin : Bool) (patch : K.Patch)
  /-- `put_common` writes the row. -/
  | store (i : ℕ)
  /-- The second half of `set_dynamic_config`. -/
  | cache (i : ℕ)

/-- The instance that goes with an entry. -/
def active (entry : DynamicConfigEntry K.Config) : Option K.Instance :=
  if entry.enabled then some (K.createInstance entry.config) else none

variable {K}

namespace State

def writeRow (s : K.State) (entry : DynamicConfigEntry K.Config) (w : K.Write) : K.State :=
  { s with row := some entry, writing := s.writing ++ [entry], log := s.log ++ [w] }

def step (s : K.State) : K.Action → K.State
  | .set entry => s.writeRow entry (.full entry)
  | .load isAdmin patch =>
    if isAdmin then { s with merging := s.merging ++ [(patch, s.row)] } else s
  | .store i =>
    match s.merging[i]? with
    | some (patch, row) =>
      { s with merging := s.merging.eraseIdx i }.writeRow ⟨true, K.merge row patch⟩
        (.partially patch)
    | none => s
  | .cache i =>
    match s.writing[i]? with
    | some entry => { s with cache := K.active entry, writing := s.writing.eraseIdx i }
    | none => s

/-- What a field was set to, if the last write about it is a partial update. -/
def wanted (f : K.Field) (log : List K.Write) : Option K.Value :=
  log.foldl (fun v w ↦ match w with
    | .full _ => none
    | .partially patch => (K.patchField f patch).or v) none

/-- What is wanted of a state: once all calls have written the cache, it has the instance that goes
with the row, and the row has every field as the partial updates have set it. -/
structure Right (s : K.State) : Prop where
  cached : s.log ≠ [] → s.writing = [] → ∃ entry, s.row = some entry ∧ s.cache = K.active entry
  fields : ∀ f v, wanted f s.log = some v →
    ∃ entry, s.row = some entry ∧ K.field f entry.config = some v

/-- The order of the steps: a partial update stores what it has made of the row that is there, and
the calls write the cache in the order in which they have written the row. -/
def Orderly (s : K.State) : K.Action → Prop
  | .set _ => True
  | .load _ _ => True
  | .store i => ∀ patch row, s.merging[i]? = some (patch, row) → row = s.row
  | .cache i => i = 0

/-! ### Steps -/

variable {s : K.State}

/-- The invariant: the row is that of the last write, and while nothing waits it is in the cache. -/
structure Sound (s : K.State) : Prop where
  /-- The last of the calls that have not written the cache is the one of the row. -/
  waiting : ∀ entry, s.writing.getLast? = some entry → s.row = some entry
  right : s.Right

theorem wanted_concat (f : K.Field) (log : List K.Write) (w : K.Write) :
    wanted f (log ++ [w]) = match w with
      | .full _ => none
      | .partially patch => (K.patchField f patch).or (wanted f log) := by
  rw [wanted, List.foldl_append]
  rfl

/-- A write of the row that has the fields as they were set. -/
theorem sound_writeRow {entry : DynamicConfigEntry K.Config} {w : K.Write}
    (hfields : ∀ f v, wanted f (s.log ++ [w]) = some v → K.field f entry.config = some v) :
    (s.writeRow entry w).Sound := by
  constructor
  case waiting =>
    intro entry' hlast
    rw [writeRow, List.getLast?_concat] at hlast
    exact hlast
  case right =>
    refine ⟨fun _ hnil ↦ ?_, fun f v hwanted ↦ ⟨entry, rfl, hfields f v hwanted⟩⟩
    exact absurd hnil (List.append_ne_nil_of_right_ne_nil _ (List.cons_ne_nil _ _))

/-- A partial update of the row as it is now. -/
theorem Sound.store (h : s.Sound) {patch : K.Patch} {merging : List _} :
    ({ s with merging := merging }.writeRow ⟨true, K.merge s.row patch⟩
      (.partially patch)).Sound := by
  refine sound_writeRow fun f v hwanted ↦ ?_
  rw [wanted_concat] at hwanted
  cases hsent : K.patchField f patch with
  | some w =>
    simp only [hsent, Option.some_or] at hwanted
    exact K.field_merge_of_some f s.row patch v (hsent.trans hwanted)
  | none =>
    simp only [hsent, Option.none_or] at hwanted
    obtain ⟨entry, hrow, hfield⟩ := h.right.fields f v hwanted
    rw [hrow]
    exact K.field_merge_of_none f entry patch v hsent hfield

/-- The first of the waiting calls writes the cache. -/
theorem Sound.cache (h : s.Sound) {entry : DynamicConfigEntry K.Config}
    {rest : List (DynamicConfigEntry K.Config)} (hwriting : s.writing = entry :: rest) :
    Sound { s with cache := K.active entry, writing := rest } := by
  constructor
  case waiting =>
    intro last hlast
    refine h.waiting last ?_
    rw [hwriting, List.getLast?_cons, hlast]
    rfl
  case right =>
    refine ⟨fun _ hnil ↦ ⟨entry, h.waiting entry ?_, rfl⟩, h.right.fields⟩
    rw [hwriting, show rest = [] from hnil]
    rfl

/-- **One step.** -/
theorem Sound.step (h : s.Sound) (a : K.Action) (hok : s.Orderly a) : (s.step a).Sound := by
  cases a with
  | set entry =>
    refine sound_writeRow fun f v hwanted ↦ ?_
    rw [wanted_concat] at hwanted
    cases hwanted
  | load isAdmin patch =>
    rw [State.step]
    split
    · exact ⟨h.waiting, h.right.cached, h.right.fields⟩
    · exact h
  | store i =>
    rw [State.step]
    split
    · rename_i patch row hget
      rw [hok patch row hget]
      exact h.store
    · exact h
  | cache i =>
    obtain rfl : i = 0 := hok
    rw [State.step]
    split
    · rename_i entry hget
      obtain ⟨rest, hwriting⟩ := List.head?_eq_some_iff.1 (List.head?_eq_getElem?.trans hget)
      rw [hwriting]
      exact h.cache hwriting
    · exact h

/-- The server with a row or without one, and no call under way. -/
structure Idle (s : K.State) : Prop where
  merging : s.merging = []
  writing : s.writing = []
  log : s.log = []

theorem Idle.sound (h : s.Idle) : s.Sound := by
  refine ⟨fun entry hlast ↦ ?_, fun hlog _ ↦ absurd h.log hlog, fun f v hwanted ↦ ?_⟩
  · rw [h.writing] at hlast
    cases hlast
  · rw [h.log] at hwanted
    cases hwanted

/-- **In every state of an orderly run, whatever row it starts from, the cached instance is that of
the row once all calls are done, and every field is as the partial updates have set it.** -/
theorem settled_of_orderly (h : s.Idle) {as : List K.Action}
    (hok : Along (total step) Orderly s as) :
    (as.foldl step s).Right :=
  (run_induction_along (fun _ a _ hs ha heq ↦ Option.some.inj heq ▸ hs.step a ha) h.sound hok
    (run_total _ _ _)).right

end State

end ConfigKey

/-! ### The common settings -/

structure SystemCommonConfig where
  showUserOnlineStatus : Option Bool
  webclientAutoUpdate : Option Bool
  contactVerificationEnable : Option Bool
  chatLayoutMode : Option String
  maxFileExpiryMode : Option String
  onlyAdminCanCreateGroup : Option Bool
  whoCanInviteUsers : Option Bool
  extSetting : Option String
  msgSmtpNotifyEnable : Option Bool
  msgSmtpNotifyDelaySeconds : Option ℤ
  dmEnable : Option Bool
  addFriendEnable : Option Bool
  searchUserEnable : Option Bool
  deriving DecidableEq, Repr

inductive CommonField where
  | showUserOnlineStatus
  | webclientAutoUpdate
  | contactVerificationEnable
  | chatLayoutMode
  | maxFileExpiryMode
  | onlyAdminCanCreateGroup
  | whoCanInviteUsers
  | extSetting
  | msgSmtpNotifyEnable
  | msgSmtpNotifyDelaySeconds
  | dmEnable
  | addFriendEnable
  | searchUserEnable
  deriving DecidableEq, Repr

/-- The value of a field. -/
inductive CommonValue where
  | flag (value : Bool)
  | text (value : String)
  | number (value : ℤ)
  deriving DecidableEq, Repr

namespace SystemCommonConfig

/-- `Default`: no field is set. -/
def unset : SystemCommonConfig :=
  ⟨none, none, none, none, none, none, none, none, none, none, none, none, none⟩

def filledDefaults : SystemCommonConfig where
  showUserOnlineStatus := some true
  webclientAutoUpdate := some true
  contactVerificationEnable := some false
  chatLayoutMode := some "Left"
  maxFileExpiryMode := some "Off"
  onlyAdminCanCreateGroup := some false
  whoCanInviteUsers := some true
  extSetting := none
  msgSmtpNotifyEnable := some false
  msgSmtpNotifyDelaySeconds := some 0
  dmEnable := some true
  addFriendEnable := some true
  searchUserEnable := some true

/-- Everything but `ext_setting` is filled in. -/
def withDefaults (c : SystemCommonConfig) : SystemCommonConfig :=
  let d := filledDefaults
  { showUserOnlineStatus := c.showUserOnlineStatus.or d.showUserOnlineStatus
    webclientAutoUpdate := c.webclientAutoUpdate.or d.webclientAutoUpdate
    contactVerificationEnable := c.contactVerificationEnable.or d.contactVerificationEnable
    chatLayoutMode := c.chatLayoutMode.or d.chatLayoutMode
    maxFileExpiryMode := c.maxFileExpiryMode.or d.maxFileExpiryMode
    onlyAdminCanCreateGroup := c.onlyAdminCanCreateGroup.or d.onlyAdminCanCreateGroup
    whoCanInviteUsers := c.whoCanInviteUsers.or d.whoCanInviteUsers
    extSetting := c.extSetting
    msgSmtpNotifyEnable := c.msgSmtpNotifyEnable.or d.msgSmtpNotifyEnable
    msgSmtpNotifyDelaySeconds := c.msgSmtpNotifyDelaySeconds.or d.msgSmtpNotifyDelaySeconds
    dmEnable := c.dmEnable.or d.dmEnable
    addFriendEnable := c.addFriendEnable.or d.addFriendEnable
    searchUserEnable := c.searchUserEnable.or d.searchUserEnable }

def mergePatch (c patch : SystemCommonConfig) : SystemCommonConfig where
  showUserOnlineStatus := patch.showUserOnlineStatus.or c.showUserOnlineStatus
  webclientAutoUpdate := patch.webclientAutoUpdate.or c.webclientAutoUpdate
  contactVerificationEnable := patch.contactVerificationEnable.or c.contactVerificationEnable
  chatLayoutMode := patch.chatLayoutMode.or c.chatLayoutMode
  maxFileExpiryMode := patch.maxFileExpiryMode.or c.maxFileExpiryMode
  onlyAdminCanCreateGroup := patch.onlyAdminCanCreateGroup.or c.onlyAdminCanCreateGroup
  whoCanInviteUsers := patch.whoCanInviteUsers.or c.whoCanInviteUsers
  extSetting := patch.extSetting.or c.extSetting
  msgSmtpNotifyEnable := patch.msgSmtpNotifyEnable.or c.msgSmtpNotifyEnable
  msgSmtpNotifyDelaySeconds := patch.msgSmtpNotifyDelaySeconds.or c.msgSmtpNotifyDelaySeconds
  dmEnable := patch.dmEnable.or c.dmEnable
  addFriendEnable := patch.addFriendEnable.or c.addFriendEnable
  searchUserEnable := patch.searchUserEnable.or c.searchUserEnable

def field (f : CommonField) (c : SystemCommonConfig) : Option CommonValue :=
  match f with
  | .showUserOnlineStatus => c.showUserOnlineStatus.map .flag
  | .webclientAutoUpdate => c.webclientAutoUpdate.map .flag
  | .contactVerificationEnable => c.contactVerificationEnable.map .flag
  | .chatLayoutMode => c.chatLayoutMode.map .text
  | .maxFileExpiryMode => c.maxFileExpiryMode.map .text
  | .onlyAdminCanCreateGroup => c.onlyAdminCanCreateGroup.map .flag
  | .whoCanInviteUsers => c.whoCanInviteUsers.map .flag
  | .extSetting => c.extSetting.map .text
  | .msgSmtpNotifyEnable => c.msgSmtpNotifyEnable.map .flag
  | .msgSmtpNotifyDelaySeconds => c.msgSmtpNotifyDelaySeconds.map .number
  | .dmEnable => c.dmEnable.map .flag
  | .addFriendEnable => c.addFriendEnable.map .flag
  | .searchUserEnable => c.searchUserEnable.map .flag

/-- A field after a patch: the patch's, or the one from before. -/
theorem field_mergePatch (f : CommonField) (c patch : SystemCommonConfig) :
    (c.mergePatch patch).field f = (patch.field f).or (c.field f) := by
  cases f <;> exact Option.map_or

/-- A field that is set is no default. -/
theorem field_withDefaults {f : CommonField} {c : SystemCommonConfig} {v : CommonValue}
    (h : c.field f = some v) : c.withDefaults.field f = some v := by
  cases f with
  | extSetting => exact h
  | _ => exact Option.map_or.trans (by rw [show Option.map _ _ = some v from h]; rfl)

/-- The configuration that `put_common` works on. -/
def loaded (row : Option (DynamicConfigEntry SystemCommonConfig)) : SystemCommonConfig :=
  ((row.map DynamicConfigEntry.config).getD filledDefaults).withDefaults

end SystemCommonConfig

open SystemCommonConfig

/-- The key `system-common`; its instance is the configuration. -/
def systemCommon : ConfigKey where
  Config := SystemCommonConfig
  Instance := SystemCommonConfig
  Patch := SystemCommonConfig
  Field := CommonField
  Value := CommonValue
  createInstance c := c
  merge row patch := (loaded row).mergePatch patch
  field := field
  patchField := field
  field_merge_of_some f row patch v h := by
    rw [field_mergePatch, h]
    rfl
  field_merge_of_none f entry patch v h hold := by
    rw [field_mergePatch, h, Option.none_or]
    exact field_withDefaults hold

namespace ConfigKey.State

/-- The server without a row. -/
def fresh : systemCommon.State := ⟨none, none, [], [], []⟩

/-- Two administrators switch off one thing each, at the same time. -/
theorem not_forall_config_right :
    ¬∀ as : List systemCommon.Action, (as.foldl step fresh).Right := by
  intro h
  obtain ⟨entry, hrow, hfield⟩ := (h [.load true { unset with dmEnable := some false },
    .load true { unset with addFriendEnable := some false }, .store 0, .store 0, .cache 0,
    .cache 0]).fields .dmEnable (.flag false) rfl
  obtain rfl := Option.some.inj hrow
  have hflag : some (CommonValue.flag true) = some (CommonValue.flag false) := hfield
  cases hflag

/-- They do so one after the other. -/
def oneByOne : List systemCommon.Action :=
  [.load true { unset with dmEnable := some false }, .store 0, .cache 0,
    .load true { unset with addFriendEnable := some false }, .store 0, .cache 0]

theorem right_oneByOne : (oneByOne.foldl step fresh).Right := by
  refine settled_of_orderly ⟨rfl, rfl, rfl⟩ ?_
  refine along_total_cons.2 ⟨trivial, along_total_cons.2 ⟨fun patch row hget ↦ ?_, ?_⟩⟩
  · cases hget
    rfl
  refine along_total_cons.2 ⟨rfl, along_total_cons.2 ⟨trivial, along_total_cons.2 ⟨?_, ?_⟩⟩⟩
  · intro patch row hget
    cases hget
    rfl
  · exact along_total_cons.2 ⟨rfl, trivial⟩

end ConfigKey.State

end VoceChat
