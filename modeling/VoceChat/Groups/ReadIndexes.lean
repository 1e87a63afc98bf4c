import VoceChat.Foundations.HighWater
import VoceChat.Groups.Targets

/-!
# Read indexes (`update_read_index` in `src/api/user.rs`)

A user says of other users and of groups up to which message it has read them. A request may name a
target more than once: what is not ahead of the index that is kept is passed over, the rest is
written to the table and to the cache in the order of the request, and told to the other devices of
the user in that order.

What is ahead is decided before anything is written. So an item that is behind another one of the
same request is written over it, and the index goes back. Where the items that are ahead ascend for
each target, and only then, the index is the highest that was ever submitted, in the table and in
the cache, and no device is told of a lower one than before (`readIndexes_iff`).
-/

namespace VoceChat

open Guards Transition HighWater

namespace Groups

/-- The items of a request, in the order in which they are written. -/
def TargetsRequest.items (req : TargetsRequest) : List (Target × ℤ) :=
  req.users.map (fun item ↦ (.user item.1, item.2)) ++
    req.groups.map (fun item ↦ (.group item.1, item.2))

/-- A `UserSettingsChanged` event with read indexes. -/
structure ReadIndexEvent where
  uid : ℤ
  fromDevice : String
  readIndex : TargetsRequest

namespace SettingsSystem

/-- The items that `update_read_index` goes on with: `read_index_users` and `read_index_groups`. -/
def newer (s : SettingsSystem) (uid : ℤ) (req : TargetsRequest) : TargetsRequest where
  users := req.users.filter fun item ↦ (s.cachedIndex uid (.user item.1)).all (· < item.2)
  groups := req.groups.filter fun item ↦ (s.cachedIndex uid (.group item.1)).all (· < item.2)

/-- The event of an accepted request, if there is anything to tell. -/
def readIndexEvent (s : SettingsSystem) (token : CurrentUser) (req : TargetsRequest) :
    List ReadIndexEvent :=
  let newer := s.newer token.uid req
  if newer.users = [] ∧ newer.groups = [] then [] else [⟨token.uid, token.device, newer⟩]

end SettingsSystem

/-- The settings, what was submitted by each user in accepted requests, and the events. -/
structure ReadIndexes where
  system : SettingsSystem
  submitted : ℤ → List (Target × ℤ)
  events : List ReadIndexEvent

namespace ReadIndexes

def start (now : ℤ) : ReadIndexes := ⟨.start now, fun _ ↦ [], []⟩

def perform (s : ReadIndexes) : SettingsAction → ReadIndexes
  | .updateReadIndex token req =>
    match s.system.updateReadIndex token req with
    | .ok system =>
      { system := system
        submitted := Function.update s.submitted token.uid (s.submitted token.uid ++ req.items)
        events := s.events ++ s.system.readIndexEvent token req }
    | .error _ => s
  | a => { s with system := s.system.perform a }

/-- The indexes that a device of a user is told of, by its other devices. -/
def received (s : ReadIndexes) (uid : ℤ) (device : String) : List (Target × ℤ) :=
  (s.events.filter fun event ↦ event.uid = uid ∧ event.fromDevice ≠ device).flatMap fun event ↦
    event.readIndex.items

/-- The indexes kept are the highest submitted, and no device is told of a lower one than before. -/
structure Faithful (s : ReadIndexes) : Prop where
  cached : ∀ uid target, s.system.hasUser uid = true → s.system.isTarget target = true →
    Highest (s.submitted uid) target (s.system.cachedIndex uid target)
  stored : ∀ uid target, s.system.hasUser uid = true → s.system.isTarget target = true →
    Highest (s.submitted uid) target (s.system.storedIndex uid target)
  received : ∀ uid device, Ascending (s.received uid device)

/-- What is ahead in an accepted request ascends for each target. -/
def Orderly (s : ReadIndexes) : SettingsAction → Prop
  | .updateReadIndex token req => (∃ t, s.system.updateReadIndex token req = .ok t) →
      Ascending (s.system.newer token.uid req).items
  | _ => True

end ReadIndexes

/-! ### An update of read indexes -/

namespace SettingsSystem

variable {s s' : SettingsSystem} {token : CurrentUser} {req : TargetsRequest}

theorem items_newer (uid : ℤ) (req : TargetsRequest) :
    (s.newer uid req).items = ahead (s.cachedIndex uid) req.items := by
  rw [TargetsRequest.items, TargetsRequest.items, ahead, List.filter_append, List.filter_map,
    List.filter_map]
  rfl

/-- The writes of an update. -/
def writes (items : List (Target × ℤ)) : List Write :=
  items.map fun item ↦ .readIndex item.1 (some item.2)

theorem readIndex_writes (items : List (Target × ℤ)) (st : Settings) :
    (st.writeAll (writes items)).readIndex = put st.readIndex items := by
  induction items generalizing st with
  | nil => rfl
  | cons item items ih => exact ih (st.write (.readIndex item.1 (some item.2)))

/-- What an accepted update passed and did. -/
theorem updateReadIndex_eq_ok (h : s.updateReadIndex token req = .ok s') :
    (∀ item ∈ req.items, s.isTarget item.1 = true) ∧ (s.cached token.uid).isSome = true ∧
      s' = s.write token.uid (writes (s.newer token.uid req).items) := by
  simp only [updateReadIndex, bind_eq_ok, okOr_eq_ok, ensure_eq_ok, exists_unit, pure_eq_ok] at h
  obtain ⟨husers, hgroups, st, hst, rfl⟩ := h
  refine ⟨fun item hitem ↦ ?_, hst ▸ rfl, ?_⟩
  · rcases List.mem_append.1 hitem with hmem | hmem
    · obtain ⟨i, hi, rfl⟩ := List.mem_map.1 hmem
      have hboth := List.all_eq_true.1 husers i hi
      rw [Bool.and_eq_true] at hboth
      exact hboth.2
    · obtain ⟨i, hi, rfl⟩ := List.mem_map.1 hmem
      exact List.all_eq_true.1 hgroups i hi
  · rw [writes, TargetsRequest.items, List.map_append, List.map_map, List.map_map, newer]
    simp only [cachedIndex, hst]
    rfl

theorem cachedIndex_updateReadIndex (h : s.updateReadIndex token req = .ok s') (uid : ℤ)
    (target : Target) : s'.cachedIndex uid target =
      if uid = token.uid then
        put (s.cachedIndex token.uid) (ahead (s.cachedIndex token.uid) req.items) target
      else s.cachedIndex uid target := by
  obtain ⟨-, hsome, rfl⟩ := updateReadIndex_eq_ok h
  obtain ⟨st, hst⟩ := Option.isSome_iff_exists.1 hsome
  have hcached : s.cachedIndex token.uid = st.readIndex := funext fun t ↦ by
    rw [cachedIndex, hst]
    rfl
  rw [cachedIndex_write, items_newer, hst, hcached]
  refine if_congr Iff.rfl ?_ rfl
  exact congrFun (readIndex_writes _ st) target

theorem storedIndex_updateReadIndex (h : s.updateReadIndex token req = .ok s') (uid : ℤ)
    (target : Target) : s'.storedIndex uid target =
      if uid = token.uid then
        put (s.storedIndex token.uid) (ahead (s.cachedIndex token.uid) req.items) target
      else s.storedIndex uid target := by
  obtain ⟨-, -, rfl⟩ := updateReadIndex_eq_ok h
  rw [storedIndex_write, items_newer]
  refine if_congr Iff.rfl ?_ rfl
  exact congrFun (readIndex_writes _ _) target

theorem updateReadIndex_same (h : s.updateReadIndex token req = .ok s') :
    s'.groups = s.groups := by
  obtain ⟨-, -, rfl⟩ := updateReadIndex_eq_ok h
  rfl

end SettingsSystem

namespace ReadIndexes

variable {s : ReadIndexes} {token : CurrentUser} {req : TargetsRequest}

/-- Of users and targets that are still to come there is nothing, and what was told was submitted.
-/
structure Inv (s : ReadIndexes) : Prop where
  system : s.system.Inv
  submitted : ∀ uid target, ¬(s.system.Known (.user uid) ∧ s.system.Known target) →
    ∀ mid, (target, mid) ∉ s.submitted uid
  cached : ∀ uid target, ¬(s.system.Known (.user uid) ∧ s.system.Known target) →
    s.system.cachedIndex uid target = none
  stored : ∀ uid target, ¬(s.system.Known (.user uid) ∧ s.system.Known target) →
    s.system.storedIndex uid target = none
  events : ∀ event ∈ s.events, ∀ item ∈ event.readIndex.items, item ∈ s.submitted event.uid

theorem inv_start (now : ℤ) : (start now).Inv where
  system := SettingsSystem.inv_start now
  submitted _ _ _ _ := List.not_mem_nil
  cached _ _ _ := rfl
  stored _ _ _ := rfl
  events _ hevent := absurd hevent List.not_mem_nil

theorem faithful_start (now : ℤ) : (start now).Faithful where
  cached _ target _ _ := highest_nil target
  stored _ target _ _ := highest_nil target
  received _ _ := List.Pairwise.nil

theorem received_subset (hs : s.Inv) (uid : ℤ) (device : String) :
    ∀ item ∈ s.received uid device, item ∈ s.submitted uid := by
  intro item hitem
  obtain ⟨event, hevent, hmem⟩ := List.mem_flatMap.1 hitem
  obtain ⟨hin, hcond⟩ := List.mem_filter.1 hevent
  rw [← (of_decide_eq_true hcond).1]
  exact hs.events event hin item hmem

/-! ### Requests that leave the indexes alone -/

theorem Inv.of_keeps (hs : s.Inv) {system : SettingsSystem} (hsystem : system.Inv)
    (hkeeps : s.system.Keeps system) : Inv { s with system := system } := by
  have hnot {uid : ℤ} {target : Target} (h : ¬(system.Known (.user uid) ∧ system.Known target)) :
      ¬(s.system.Known (.user uid) ∧ s.system.Known target) :=
    fun hboth ↦ h (hboth.imp (hkeeps.known _) (hkeeps.known _))
  refine ⟨hsystem, fun uid target h ↦ hs.submitted uid target (hnot h), fun uid target h ↦ ?_,
    fun uid target h ↦ ?_, hs.events⟩
  · exact (hkeeps.cached uid target).elim (·.trans (hs.cached uid target (hnot h))) (·.1)
  · exact (hkeeps.stored uid target).elim (·.trans (hs.stored uid target (hnot h))) (·.1)

theorem Faithful.of_keeps (hs : s.Inv) (h : s.Faithful) {system : SettingsSystem}
    (hkeeps : s.system.Keeps system) : Faithful { s with system := system } := by
  -- of a user or a target that is new there is nothing
  have hcases (uid : ℤ) (target : Target) (huser : system.hasUser uid = true)
      (htarget : system.isTarget target = true) :
      s.system.hasUser uid = true ∧ s.system.isTarget target = true ∨
        ¬(s.system.Known (.user uid) ∧ s.system.Known target) := by
    rcases hkeeps.target (.user uid) huser with hold | hnew
    · rcases hkeeps.target target htarget with hold' | hnew
      · exact .inl ⟨hold, hold'⟩
      · exact .inr fun hboth ↦ hnew hboth.2
    · exact .inr fun hboth ↦ hnew hboth.1
  refine ⟨fun uid target huser htarget ↦ ?_, fun uid target huser htarget ↦ ?_, h.received⟩
  · have hsame := (hkeeps.cached uid target).resolve_right fun hgone ↦ hgone.2 ⟨huser, htarget⟩
    show Highest (s.submitted uid) target (system.cachedIndex uid target)
    rw [hsame]
    rcases hcases uid target huser htarget with ⟨hold, hold'⟩ | hnew
    · exact h.cached uid target hold hold'
    · rw [hs.cached uid target hnew]
      exact hs.submitted uid target hnew
  · have hsame := (hkeeps.stored uid target).resolve_right fun hgone ↦ hgone.2 ⟨huser, htarget⟩
    show Highest (s.submitted uid) target (system.storedIndex uid target)
    rw [hsame]
    rcases hcases uid target huser htarget with ⟨hold, hold'⟩ | hnew
    · exact h.stored uid target hold hold'
    · rw [hs.stored uid target hnew]
      exact hs.submitted uid target hnew

/-! ### An update that is accepted -/

/-- After an update. -/
def update (s : ReadIndexes) (token : CurrentUser) (req : TargetsRequest)
    (system : SettingsSystem) : ReadIndexes where
  system := system
  submitted := Function.update s.submitted token.uid (s.submitted token.uid ++ req.items)
  events := s.events ++ s.system.readIndexEvent token req

theorem perform_updateReadIndex {system : SettingsSystem}
    (h : s.system.updateReadIndex token req = .ok system) :
    s.perform (.updateReadIndex token req) = s.update token req system := by
  simp only [perform, h]
  rfl

theorem submitted_update (system : SettingsSystem) (uid : ℤ) :
    (s.update token req system).submitted uid =
      if uid = token.uid then s.submitted token.uid ++ req.items else s.submitted uid :=
  Function.update_apply _ _ _ _

theorem received_update (system : SettingsSystem) (uid : ℤ) (device : String) :
    (s.update token req system).received uid device =
      s.received uid device ++ if token.uid = uid ∧ token.device ≠ device then
        (s.system.newer token.uid req).items else [] := by
  rw [received, received, update, List.filter_append, List.flatMap_append]
  refine congrArg (_ ++ ·) ?_
  rw [SettingsSystem.readIndexEvent]
  by_cases hempty : (s.system.newer token.uid req).users = [] ∧
      (s.system.newer token.uid req).groups = []
  · rw [if_pos hempty, TargetsRequest.items, hempty.1, hempty.2]
    exact (ite_self _).symm
  · rw [if_neg hempty]
    rw [List.filter_singleton]
    by_cases hto : token.uid = uid ∧ token.device ≠ device
    · rw [if_pos hto, decide_eq_true hto]
      exact List.append_nil _
    · rw [if_neg hto, decide_eq_false hto]
      rfl

theorem Inv.update (hs : s.Inv) {system : SettingsSystem}
    (h : s.system.updateReadIndex token req = .ok system) (hsystem : system.Inv) :
    (s.update token req system).Inv := by
  obtain ⟨htargets, huser, -⟩ := SettingsSystem.updateReadIndex_eq_ok h
  rw [hs.system.cached] at huser
  have hsame := SettingsSystem.updateReadIndex_same h
  have hknown (target : Target) : system.Known target ↔ s.system.Known target := by
    cases target with
    | user uid =>
      show uid < system.groups.nextUid ↔ uid < s.system.groups.nextUid
      rw [hsame]
    | group gid =>
      show gid < system.groups.tables.nextGid ↔ gid < s.system.groups.tables.nextGid
      rw [hsame]
  have hreader : s.system.isTarget (.user token.uid) = true := huser
  have htoken := SettingsSystem.isTarget_known hs.system hreader
  have hnew {uid : ℤ} {target : Target}
      (hnot : ¬(system.Known (.user uid) ∧ system.Known target)) :
      ¬(s.system.Known (.user uid) ∧ s.system.Known target) := by
    rwa [hknown, hknown] at hnot
  -- nothing of the request is for a target that is still to come
  have hother {target : Target}
    (hnot : ¬(s.system.Known (.user token.uid) ∧ s.system.Known target)) :
      ∀ item ∈ req.items, item.1 ≠ target := fun item hitem heq ↦
    hnot ⟨htoken, heq ▸ SettingsSystem.isTarget_known hs.system (htargets item hitem)⟩
  have hahead {target : Target}
    (hnot : ¬(s.system.Known (.user token.uid) ∧ s.system.Known target)) :
      ∀ item ∈ ahead (s.system.cachedIndex token.uid) req.items, item.1 ≠ target :=
    fun item hitem ↦ hother hnot item (mem_ahead.1 hitem).1
  refine ⟨hsystem, fun uid target hnot ↦ ?_, fun uid target hnot ↦ ?_, fun uid target hnot ↦ ?_,
    fun event hevent item hitem ↦ ?_⟩
  · have hold := hs.submitted uid target (hnew hnot)
    rw [submitted_update]
    split
    · rename_i huid
      subst huid
      intro mid hmem
      rcases List.mem_append.1 hmem with hmem | hmem
      · exact hold mid hmem
      · exact hother (hnew hnot) _ hmem rfl
    · exact hold
  · show system.cachedIndex uid target = none
    rw [SettingsSystem.cachedIndex_updateReadIndex h]
    split
    · rename_i huid
      subst huid
      rw [put_of_forall_ne (hahead (hnew hnot))]
      exact hs.cached _ target (hnew hnot)
    · exact hs.cached uid target (hnew hnot)
  · show system.storedIndex uid target = none
    rw [SettingsSystem.storedIndex_updateReadIndex h]
    split
    · rename_i huid
      subst huid
      rw [put_of_forall_ne (hahead (hnew hnot))]
      exact hs.stored _ target (hnew hnot)
    · exact hs.stored uid target (hnew hnot)
  · rw [submitted_update]
    rcases List.mem_append.1 hevent with hold | hnew'
    · have hin := hs.events event hold item hitem
      split
      · rename_i huid
        exact List.mem_append_left _ (huid ▸ hin)
      · exact hin
    · rw [SettingsSystem.readIndexEvent] at hnew'
      split at hnew'
      · exact absurd hnew' List.not_mem_nil
      · obtain rfl := List.mem_singleton.1 hnew'
        rw [if_pos rfl]
        rw [SettingsSystem.items_newer] at hitem
        exact List.mem_append_right _ (mem_ahead.1 hitem).1

theorem faithful_update_iff (hs : s.Inv) (hfaithful : s.Faithful) {system : SettingsSystem}
    (h : s.system.updateReadIndex token req = .ok system) :
    (s.update token req system).Faithful ↔ Ascending (s.system.newer token.uid req).items := by
  obtain ⟨htargets, huser, -⟩ := SettingsSystem.updateReadIndex_eq_ok h
  rw [hs.system.cached] at huser
  have hsame := SettingsSystem.updateReadIndex_same h
  have htarget (target : Target) : system.isTarget target = s.system.isTarget target := by
    cases target with
    | user uid => exact congrArg (fun g : State ↦ (g.users.get uid).isSome) hsame
    | group gid => exact congrArg (fun g : State ↦ (g.groups.get gid).isSome) hsame
  have hmarks : ∀ item ∈ req.items,
      Highest (s.submitted token.uid) item.1 (s.system.cachedIndex token.uid item.1) :=
    fun item hitem ↦ hfaithful.cached token.uid item.1 huser (htargets item hitem)
  rw [SettingsSystem.items_newer]
  constructor
  · intro hafter
    -- any other device is told of what is ahead
    obtain ⟨device, hne⟩ : ∃ device, token.device ≠ device := by
      by_cases hempty : token.device = ""
      · exact ⟨"web", by rw [hempty]; decide⟩
      · exact ⟨"", hempty⟩
    have hall := hafter.received token.uid device
    rw [received_update, if_pos ⟨rfl, hne⟩, SettingsSystem.items_newer] at hall
    exact (List.pairwise_append.1 hall).2.1
  · intro hascending
    refine ⟨fun uid target huid ht ↦ ?_, fun uid target huid ht ↦ ?_, fun uid device ↦ ?_⟩
    · have huid' : s.system.hasUser uid = true := (htarget (.user uid)).symm.trans huid
      have ht' := (htarget target).symm.trans ht
      show Highest _ target (system.cachedIndex uid target)
      rw [submitted_update, SettingsSystem.cachedIndex_updateReadIndex h]
      split
      · rename_i heq
        subst heq
        exact highest_put (hfaithful.cached _ target huid' ht') hascending
      · exact hfaithful.cached uid target huid' ht'
    · have huid' : s.system.hasUser uid = true := (htarget (.user uid)).symm.trans huid
      have ht' := (htarget target).symm.trans ht
      show Highest _ target (system.storedIndex uid target)
      rw [submitted_update, SettingsSystem.storedIndex_updateReadIndex h]
      split
      · rename_i heq
        subst heq
        have hcached := hfaithful.cached _ target huid' ht'
        rw [put_congr ((hfaithful.stored _ target huid' ht').unique hcached)]
        exact highest_put hcached hascending
      · exact hfaithful.stored uid target huid' ht'
    · rw [received_update]
      split
      · rename_i hto
        obtain ⟨rfl, -⟩ := hto
        rw [SettingsSystem.items_newer]
        exact (ascending_append_iff (hfaithful.received _ device) (received_subset hs _ device)
          hmarks).2 hascending
      · rw [List.append_nil]
        exact hfaithful.received uid device

/-! ### Runs -/

theorem perform_of_ne {a : SettingsAction} (h : ∀ token req, a ≠ .updateReadIndex token req) :
    s.perform a = { s with system := s.system.perform a } := by
  cases a with
  | updateReadIndex token req => exact absurd rfl (h token req)
  | _ => rfl

/-- What a step can do: an update of read indexes, or what leaves the indexes alone. -/
theorem perform_cases (hs : s.Inv) (a : SettingsAction) :
    (∃ token req system, a = .updateReadIndex token req ∧
      s.system.updateReadIndex token req = .ok system ∧ system.Inv ∧
        s.perform a = s.update token req system) ∨
      s.Orderly a ∧ ∃ system : SettingsSystem, system.Inv ∧ s.system.Keeps system ∧
        s.perform a = { s with system := system } := by
  have hkeeps : s.system.Keeps s.system :=
    .of_eq (fun _ _ ↦ rfl) (fun _ _ ↦ rfl) ⟨rfl, rfl⟩ (State.grows_refl _)
  have hinv := SettingsSystem.perform_inv hs.system a
  by_cases hupdate : ∃ token req, a = .updateReadIndex token req
  · obtain ⟨token, req, rfl⟩ := hupdate
    cases h : s.system.updateReadIndex token req with
    | error e =>
      refine .inr ⟨fun ⟨t, ht⟩ ↦ ?_, s.system, hs.system, hkeeps, ?_⟩
      · rw [h] at ht
        cases ht
      · simp only [perform, h]
    | ok system =>
      refine .inl ⟨token, req, system, rfl, h, ?_, perform_updateReadIndex h⟩
      have hperform : s.system.perform (.updateReadIndex token req) = system := by
        rw [SettingsSystem.perform, SettingsSystem.request, h]
        rfl
      rwa [hperform] at hinv
  · have hne : ∀ token req, a ≠ .updateReadIndex token req := fun token req heq ↦
      hupdate ⟨token, req, heq⟩
    refine .inr ⟨?_, s.system.perform a, hinv, ?_, perform_of_ne hne⟩
    · cases a with
      | updateReadIndex token req => exact absurd rfl (hne token req)
      | _ => trivial
    · unfold SettingsSystem.perform
      cases h : s.system.request a with
      | error e => exact hkeeps
      | ok system => exact SettingsSystem.request_keeps hs.system h hne

theorem perform_inv (hs : s.Inv) (a : SettingsAction) : (s.perform a).Inv := by
  rcases perform_cases hs a with ⟨token, req, system, -, h, hsystem, hperform⟩ |
    ⟨-, system, hsystem, hkeeps, hperform⟩
  · rw [hperform]
    exact hs.update h hsystem
  · rw [hperform]
    exact hs.of_keeps hsystem hkeeps

theorem perform_faithful_iff (hs : s.Inv) (hfaithful : s.Faithful) (a : SettingsAction) :
    (s.perform a).Faithful ↔ s.Orderly a := by
  rcases perform_cases hs a with ⟨token, req, system, rfl, h, -, hperform⟩ |
    ⟨horderly, system, -, hkeeps, hperform⟩
  · rw [hperform, faithful_update_iff hs hfaithful h]
    exact ⟨fun hascending _ ↦ hascending, fun horderly ↦ horderly ⟨system, h⟩⟩
  · rw [hperform]
    exact iff_of_true (hfaithful.of_keeps hs hkeeps) horderly

/-- **At all times the indexes are the highest submitted and no device is told of a lower one than
before**, exactly when what is ahead in each request ascends. -/
theorem readIndexes_iff (now : ℤ) (as : List SettingsAction) :
    (∀ cs, cs <+: as → (cs.foldl perform (start now)).Faithful) ↔
      Along (total perform) Orderly (start now) as :=
  forall_prefix_iff_along (I := Inv) (P := Faithful) (f := perform) (fun _ a hs ↦ perform_inv hs a)
    (fun _ a hs hfaithful ↦ perform_faithful_iff hs hfaithful a) (inv_start now)
    (faithful_start now) as

/-- The first of two users says that it has read up to 10 and up to 3, in one request. -/
theorem not_forall_faithful : ¬∀ (now : ℤ) (as : List SettingsAction),
    (as.foldl perform (start now)).Faithful := by
  intro h
  have hfaithful := h 0 [.groups (.createUser false), .groups (.createUser false),
    .updateReadIndex ⟨1, "web", true, false⟩ ⟨[(2, 10), (2, 3)], []⟩]
  have hcached := hfaithful.cached 1 (.user 2) (by decide) (by decide)
  have hthree : (List.foldl perform (start 0) [.groups (.createUser false),
      .groups (.createUser false),
      .updateReadIndex ⟨1, "web", true, false⟩ ⟨[(2, 10), (2, 3)], []⟩]).system.cachedIndex 1
        (.user 2) = some 3 := by
    decide +kernel
  rw [hthree] at hcached
  exact absurd (hcached.2 10 (by decide +kernel)) (by decide)

end ReadIndexes

end Groups

end VoceChat
