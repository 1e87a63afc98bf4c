import VoceChat.Events.Senders

/-!
# Live sessions and their senders along a run

What a user may rely on (`Registered`): a session that is the last one of its device, and neither
ended nor kicked, has its sender in the slot of the device; a user is online exactly if he has such
a session; and others are told so, or are still to be told by a clean-up.

The steps that have nothing to do with sessions keep this, and so do those that take senders and the
steps of a session's loop. The two that may not are the clean-up of a session
(`registered_cleanUp_iff`) and a request that fails (`registered_subscribe_iff`). `registered_iff`
says of a whole run that it is all right exactly if these two are all along.
-/

namespace VoceChat

open Guards Transition

namespace Streams

namespace State

/-- What a user may rely on. -/
structure Registered (s : State) : Prop where
  /-- The live sessions are the ones with a sender. -/
  sender : ∀ key i, s.slot key = some i ↔ ∃ x, Live s.sessions i x ∧ x.key = key
  online : ∀ uid, s.isOnline uid = true ↔ ∃ i x, Live s.sessions i x ∧ x.uid = uid
  /-- None of them loses it. -/
  uncut : ∀ i x, Live s.sessions i x → x.cut = false
  /-- Others know that the user is online. -/
  announced : ∀ uid user, s.users.get uid = some user → user.isGuest = false →
    s.isOnline uid = true → s.announced uid = some true
  /-- They believe it too long only as a clean-up is still to come. -/
  withdrawn : ∀ uid user, s.users.get uid = some user → user.isGuest = false →
    s.announced uid = some true → s.isOnline uid = false →
      ∃ x ∈ s.sessions, x.uid = uid ∧ x.phase ≠ .ended

/-- No request for events fails once it is registered, and no clean-up takes place while the sender
of another session is in the slot. -/
def Orderly (s : State) : Action → Prop
  | .subscribe uid device fails => (s.users.get uid).isSome = true →
      (s.devices.get (uid, device)).isSome = true → fails = false
  | .cleanUp i => ∀ x, s.sessions[i]? = some x → x.phase = .cleaningUp →
      ∀ j, s.slot x.key = some j → j = i
  | _ => True

variable {s t : State} {p : ℤ × String → Bool} {key : ℤ × String} {uid : ℤ} {i : ℕ}

/-! ### Invariants -/

/-- Devices are of users, and nothing is known of the users to come. -/
structure Inv (s : State) : Prop where
  devices : ∀ key d, s.devices.get key = some d → (s.users.get key.1).isSome = true
  users : ∀ uid user, s.users.get uid = some user → uid < s.nextUid
  announced : ∀ uid, s.nextUid ≤ uid → s.announced uid = none

theorem inv_start : start.Inv where
  devices _ _ h := by cases h
  users _ _ h := by cases h
  announced _ _ := rfl

theorem registered_start : start.Registered where
  sender _ i := by
    refine iff_of_false (fun h ↦ by cases h) ?_
    rintro ⟨x, hlive, -⟩
    exact Nat.not_lt_zero i hlive.lt
  online _ := by
    refine iff_of_false (fun h ↦ by cases h) ?_
    rintro ⟨i, x, hlive, -⟩
    exact Nat.not_lt_zero i hlive.lt
  uncut i _ hlive := absurd hlive.lt (Nat.not_lt_zero i)
  announced _ _ h := by cases h
  withdrawn _ _ h := by cases h

theorem isOnline_mono
    (h : ∀ device i, t.slot (uid, device) = some i → s.slot (uid, device) = some i)
    (hon : t.isOnline uid = true) : s.isOnline uid = true := by
  obtain ⟨device, i, hslot⟩ := isOnline_eq_true.1 hon
  exact isOnline_eq_true.2 ⟨device, i, h device i hslot⟩

theorem isOnline_of_devices (h : t.devices = s.devices) (uid : ℤ) :
    t.isOnline uid = s.isOnline uid := by
  rw [isOnline, isOnline, h]

theorem isOnline_congr (h : ∀ device, t.slot (uid, device) = s.slot (uid, device)) :
    t.isOnline uid = s.isOnline uid :=
  Bool.eq_iff_iff.2 ⟨isOnline_mono fun device _ hi ↦ h device ▸ hi,
    isOnline_mono fun device _ hi ↦ (h device).symm ▸ hi⟩

/-- Nobody is online whose account is still to be created. -/
theorem Inv.isOnline_nextUid (h : s.Inv) : s.isOnline s.nextUid = false := by
  rw [Bool.eq_false_iff]
  intro hon
  obtain ⟨device, i, hslot⟩ := isOnline_eq_true.1 hon
  obtain ⟨d, hd, -⟩ := Option.bind_eq_some_iff.1 hslot
  obtain ⟨user, huser⟩ := Option.isSome_iff_exists.1 (h.devices _ d hd)
  exact Int.lt_irrefl _ (h.users _ user huser)

/-! ### Steps without a session -/

/-- Accounts and devices come, and what is there of senders and sessions stays. -/
theorem Registered.quiet (hr : s.Registered) (h : s.Inv) (hslot : ∀ key, t.slot key = s.slot key)
    (hsessions : t.sessions = s.sessions) (hannounced : t.announced = s.announced)
    (husers : ∀ uid user, t.users.get uid = some user →
      (∃ old, s.users.get uid = some old ∧ old.isGuest = user.isGuest) ∨ uid = s.nextUid) :
    t.Registered where
  sender key i := by rw [hslot, hsessions]; exact hr.sender key i
  online uid := by rw [isOnline_congr fun _ ↦ hslot _, hsessions]; exact hr.online uid
  uncut := hsessions ▸ hr.uncut
  announced uid user huser hguest hon := by
    rw [isOnline_congr fun _ ↦ hslot _] at hon
    rw [hannounced]
    rcases husers uid user huser with ⟨old, hold, hsame⟩ | rfl
    · exact hr.announced uid old hold (hsame.trans hguest) hon
    · rw [h.isOnline_nextUid] at hon
      cases hon
  withdrawn uid user huser hguest hsaid hoff := by
    rw [isOnline_congr fun _ ↦ hslot _] at hoff
    rw [hannounced] at hsaid
    rw [hsessions]
    rcases husers uid user huser with ⟨old, hold, hsame⟩ | rfl
    · exact hr.withdrawn uid old hold (hsame.trans hguest) hsaid hoff
    · rw [h.announced _ (Int.le_refl _)] at hsaid
      cases hsaid

/-- A kick does not change how far a session is. -/
theorem exists_mem_takeSenders {reason : KickReason}
    (h : ∃ x ∈ s.sessions, x.uid = uid ∧ x.phase ≠ .ended) :
    ∃ x ∈ (s.takeSenders p reason).sessions, x.uid = uid ∧ x.phase ≠ .ended := by
  obtain ⟨x, hx, huid, hphase⟩ := h
  obtain ⟨i, hi⟩ := List.mem_iff_getElem?.1 hx
  have hget := s.getElem?_takeSenders p reason i
  rw [hi, Option.map_some] at hget
  refine ⟨_, List.mem_of_getElem? hget, ?_⟩
  split
  · exact ⟨huid, hphase⟩
  · exact ⟨huid, hphase⟩

/-- Senders are taken, and perhaps their devices removed, and users. -/
theorem Registered.taken (hr : s.Registered) {reason : KickReason}
    (hslot : ∀ key, t.slot key = if p key then none else s.slot key)
    (hsessions : t.sessions = (s.takeSenders p reason).sessions)
    (hannounced : t.announced = s.announced)
    (husers : ∀ uid user, t.users.get uid = some user →
      ∃ old, s.users.get uid = some old ∧ old.isGuest = user.isGuest) : t.Registered := by
  have htracks : Tracks t.slot t.sessions := hsessions ▸ tracks_takeSenders hr.sender p reason hslot
  have hmono : ∀ uid, t.isOnline uid = true → s.isOnline uid = true := by
    intro uid
    refine isOnline_mono fun device i hi ↦ ?_
    rw [hslot, Option.ite_none_left_eq_some] at hi
    exact hi.2
  refine ⟨htracks, online_of_tracks htracks, fun i x hlive ↦ ?_, ?_, ?_⟩
  · rw [hsessions, live_takeSenders] at hlive
    exact hr.uncut i x hlive.2
  · intro uid user huser hguest hon
    obtain ⟨old, hold, hsame⟩ := husers uid user huser
    rw [hannounced]
    exact hr.announced uid old hold (hsame.trans hguest) (hmono uid hon)
  · intro uid user huser hguest hsaid hoff
    obtain ⟨old, hold, hsame⟩ := husers uid user huser
    rw [hannounced] at hsaid
    rw [hsessions]
    refine exists_mem_takeSenders ?_
    cases hon : s.isOnline uid with
    | false => exact hr.withdrawn uid old hold (hsame.trans hguest) hsaid hon
    | true =>
      obtain ⟨i, x, hlive, huid⟩ := (hr.online uid).1 hon
      exact ⟨x, List.mem_of_getElem? hlive.opened, huid, hlive.running⟩

/-! ### Steps of a session -/

theorem mem_set_of_ne {x x' y : Session} (hx : s.sessions[i]? = some x) (hy : y ∈ s.sessions)
    (hne : y ≠ x) : y ∈ s.sessions.set i x' := by
  obtain ⟨j, hj⟩ := List.mem_iff_getElem?.1 hy
  have hij : i ≠ j := by
    rintro rfl
    exact hne (Option.some_inj.1 (hj.symm.trans hx))
  exact List.mem_of_getElem? ((List.getElem?_set_ne hij).trans hj)

/-- A session goes on; its loop may end, but not for want of a sender if it is live. -/
theorem Registered.setSession (hr : s.Registered) {x x' : Session} (hx : s.sessions[i]? = some x)
    (hkey : x'.key = x.key) (hphase : x.phase ≠ .ended) (hphase' : x'.phase ≠ .ended)
    (hkicks : x'.kicks = x.kicks) (hcut : Live s.sessions i x → x'.cut = x.cut) :
    (s.setSession i x').Registered := by
  have hended : x'.phase = .ended ↔ x.phase = .ended := iff_of_false hphase' hphase
  have htracks : Tracks (s.setSession i x').slot (s.setSession i x').sessions :=
    tracks_set hr.sender hx hkey hended hkicks
  have hself : (s.sessions.set i x')[i]? = some x' :=
    List.getElem?_set_self (List.getElem?_eq_some_iff.1 hx).1
  refine ⟨htracks, online_of_tracks htracks, fun j y hlive ↦ ?_, hr.announced, ?_⟩
  · by_cases hij : i = j
    · subst hij
      obtain rfl := Option.some_inj.1 (hself.symm.trans hlive.opened)
      have hold := (live_set_self hx hkey hended hkicks).1 hlive
      rw [hcut hold]
      exact hr.uncut i x hold
    · exact hr.uncut j y ((live_set_of_ne hx hkey hij).1 hlive)
  · intro uid user huser hguest hsaid hoff
    obtain ⟨y, hy, huid, hopen⟩ := hr.withdrawn uid user huser hguest hsaid hoff
    by_cases hyx : y = x
    · subst hyx
      exact ⟨x', List.mem_of_getElem? hself, (congrArg Prod.fst hkey).trans huid, hphase'⟩
    · exact ⟨y, mem_set_of_ne hx hy hyx, huid, hopen⟩

/-- What the clean-up does to the rest of the state. -/
theorem cleanUp_fields (s : State) (i : ℕ) (x : Session) :
    (s.cleanUp i x).users = s.users ∧ (s.cleanUp i x).nextUid = s.nextUid ∧
      (s.cleanUp i x).sessions = s.sessions.set i { x with phase := .ended } ∧
      (s.cleanUp i x).devices = s.devices.modify x.key fun d ↦ { d with sender := none } := by
  rw [cleanUp]
  cases s.users.get x.uid with
  | none => exact ⟨rfl, rfl, rfl, rfl⟩
  | some user =>
    simp only
    split
    · exact ⟨rfl, rfl, rfl, rfl⟩
    · exact ⟨rfl, rfl, rfl, rfl⟩

/-- It says that the user is not online any more, if so. -/
theorem cleanUp_announced (s : State) (i : ℕ) (x : Session) (uid : ℤ) :
    (s.cleanUp i x).announced uid =
      if uid = x.uid ∧ (s.cleanUp i x).isOnline uid = false ∧
        ∃ user, s.users.get uid = some user ∧ user.isGuest = false then some false
      else s.announced uid := by
  rw [isOnline_of_devices (s := { s with devices := s.devices.modify x.key fun d ↦
    { d with sender := none } }) (s.cleanUp_fields i x).2.2.2, cleanUp]
  cases huser : s.users.get x.uid with
  | none =>
    rw [if_neg]
    · rfl
    · rintro ⟨rfl, -, user, h, -⟩
      cases huser.symm.trans h
  | some user =>
    simp only [setSession]
    split
    · rename_i hcond
      rw [Bool.and_eq_true, Bool.not_eq_true', Bool.not_eq_true'] at hcond
      by_cases huid : uid = x.uid
      · subst huid
        rw [if_pos ⟨rfl, hcond.1, user, huser, hcond.2⟩]
        exact Function.update_self ..
      · rw [if_neg fun h ↦ huid h.1]
        exact Function.update_of_ne huid ..
    · rename_i hcond
      rw [if_neg]
      rintro ⟨rfl, hoff, _, heq, hguest⟩
      obtain rfl := Option.some_inj.1 (huser.symm.trans heq)
      exact hcond (by rw [hoff, hguest]; rfl)

theorem slot_cleanUp (s : State) (i : ℕ) (x : Session) (key : ℤ × String) :
    (s.cleanUp i x).slot key = if key = x.key then none else s.slot key := by
  rw [slot, (s.cleanUp_fields i x).2.2.2, Table.get_modify, slot]
  split
  · cases s.devices.get key <;> rfl
  · rfl

/-- **A clean-up keeps everything right** exactly if no other sender is in the slot. -/
theorem registered_cleanUp_iff (hr : s.Registered) {x : Session} (hx : s.sessions[i]? = some x) :
    (s.cleanUp i x).Registered ↔ ∀ j, s.slot x.key = some j → j = i := by
  obtain ⟨husers, -, hsessions, -⟩ := s.cleanUp_fields i x
  have hiff : Tracks (s.cleanUp i x).slot (s.cleanUp i x).sessions ↔
      ∀ j, s.slot x.key = some j → j = i := by
    rw [hsessions]
    exact tracks_cleanUp_iff hr.sender hx rfl rfl (s.slot_cleanUp i x)
  refine ⟨fun hafter ↦ hiff.1 hafter.sender, fun honly ↦ ?_⟩
  have hkey : Session.key { x with phase := .ended } = x.key := rfl
  have htracks := hiff.2 honly
  have hmono : ∀ uid, (s.cleanUp i x).isOnline uid = true → s.isOnline uid = true := by
    intro uid
    refine isOnline_mono fun device j hj ↦ ?_
    rw [slot_cleanUp, Option.ite_none_left_eq_some] at hj
    exact hj.2
  refine ⟨htracks, online_of_tracks htracks, fun j y hlive ↦ ?_, ?_, ?_⟩
  · rw [hsessions] at hlive
    by_cases hij : i = j
    · subst hij
      have hy := hlive.opened
      rw [List.getElem?_set_self (List.getElem?_eq_some_iff.1 hx).1] at hy
      obtain rfl := Option.some_inj.1 hy
      exact absurd rfl hlive.running
    · exact hr.uncut j y ((live_set_of_ne hx hkey hij).1 hlive)
  · intro uid user huser hguest hon
    rw [cleanUp_announced, if_neg fun h ↦ Bool.false_ne_true (h.2.1.symm.trans hon)]
    exact hr.announced uid user (husers ▸ huser) hguest (hmono uid hon)
  · intro uid user huser hguest hsaid hoff
    rw [husers] at huser
    have hother : uid ≠ x.uid := by
      intro heq
      rw [cleanUp_announced, if_pos ⟨heq, hoff, user, huser, hguest⟩] at hsaid
      cases hsaid
    rw [cleanUp_announced, if_neg fun h ↦ hother h.1] at hsaid
    have hsame : (s.cleanUp i x).isOnline uid = s.isOnline uid := isOnline_congr fun device ↦ by
      rw [slot_cleanUp, if_neg fun h ↦ hother (congrArg Prod.fst h)]
    obtain ⟨y, hy, huid, hopen⟩ := hr.withdrawn uid user huser hguest hsaid (hsame ▸ hoff)
    refine ⟨y, ?_, huid, hopen⟩
    rw [hsessions]
    exact mem_set_of_ne hx hy fun heq ↦ hother (heq ▸ huid.symm)

/-! ### A new session -/

section Subscribe

variable {device : String} {isGuest : Bool}

theorem length_takeSenders (s : State) (p : ℤ × String → Bool) (reason : KickReason) :
    (s.takeSenders p reason).sessions.length = s.sessions.length := List.length_mapIdx

/-- What `create_user_event_receiver` does: the session that is to come has the slot, and if the
user was not online, others are told. -/
theorem createUserEventReceiver_eq (hdevice : (s.devices.get (uid, device)).isSome = true)
    (isGuest : Bool) : ∃ t, s.createUserEventReceiver uid device isGuest = t ∧ t.users = s.users ∧
      t.nextUid = s.nextUid ∧
      t.sessions = (s.takeSenders (· = (uid, device)) .loginFromOtherDevice).sessions ∧
      (∀ key d, t.devices.get key = some d → (s.devices.get key).isSome = true) ∧
      (∀ key, t.slot key = if key = (uid, device) then some s.sessions.length else s.slot key) ∧
      t.announced = if s.isOnline uid = false ∧ isGuest = false then
        Function.update s.announced uid (some true) else s.announced := by
  have hkeys : ∀ key d, ((s.takeSenders (· = (uid, device)) .loginFromOtherDevice).devices.modify
      (uid, device) fun d ↦ { d with sender := some s.sessions.length }).get key = some d →
      (s.devices.get key).isSome = true := by
    intro key d hd
    rw [Table.get_modify, takeSenders, Table.get_update] at hd
    cases hget : s.devices.get key with
    | some d => rfl
    | none => simp [hget] at hd
  have hslot : ∀ key, (((s.takeSenders (· = (uid, device)) .loginFromOtherDevice).devices.modify
      (uid, device) fun d ↦ { d with sender := some s.sessions.length }).get key).bind
        CacheDevice.sender = if key = (uid, device) then some s.sessions.length
          else s.slot key := by
    intro key
    have htaken := s.slot_takeSenders (· = (uid, device)) .loginFromOtherDevice key
    rw [slot] at htaken
    rw [Table.get_modify]
    by_cases hkey : key = (uid, device)
    · subst hkey
      obtain ⟨d, hd⟩ := Option.isSome_iff_exists.1 hdevice
      rw [if_pos rfl, if_pos rfl, takeSenders, Table.get_update, hd]
      rfl
    · rw [if_neg hkey, if_neg hkey, htaken, if_neg (by simpa using hkey)]
  rw [createUserEventReceiver]
  have honline : State.isOnline { s.takeSenders (· = (uid, device)) .loginFromOtherDevice with
      devices := (s.takeSenders (· = (uid, device)) .loginFromOtherDevice).devices.modify
        (uid, device) fun d ↦ { d with sender := some s.sessions.length } } uid = true :=
    isOnline_eq_true.2 ⟨device, s.sessions.length, (hslot _).trans (if_pos rfl)⟩
  simp only [honline, Bool.and_true]
  by_cases hcond : s.isOnline uid = false ∧ isGuest = false
  · rw [if_pos (by rw [hcond.1, hcond.2]; rfl), if_pos hcond]
    exact ⟨_, rfl, rfl, rfl, rfl, hkeys, hslot, rfl⟩
  · rw [if_neg (by simpa using hcond), if_neg hcond]
    exact ⟨_, rfl, rfl, rfl, rfl, hkeys, hslot, rfl⟩

/-- A session of events is opened, or fails to be. -/
theorem subscribe_eq_ok {fails : Bool} : s.subscribe uid device fails = .ok t ↔
    ∃ user, s.users.get uid = some user ∧ (s.devices.get (uid, device)).isSome = true ∧
      t = { s.createUserEventReceiver uid device user.isGuest with
        sessions := (s.createUserEventReceiver uid device user.isGuest).sessions ++
          [⟨uid, device, if fails then .ended else .running, [], 0, false⟩] } := by
  simp only [subscribe, bind_eq_ok, okOr_eq_ok, ensure_eq_ok, exists_unit, pure_eq_ok]
  exact exists_congr fun user ↦ and_congr_right fun _ ↦ and_congr_right fun _ ↦ eq_comm

/-- **A new session is registered** exactly if the request for it does not fail. -/
theorem registered_subscribe_iff (hr : s.Registered) {fails : Bool}
    (hsubscribe : s.subscribe uid device fails = .ok t) : t.Registered ↔ fails = false := by
  obtain ⟨user, huser, hdevice, rfl⟩ := subscribe_eq_ok.1 hsubscribe
  obtain ⟨u, hu, husers, -, hsessions, -, hslot, hannounced⟩ :=
    createUserEventReceiver_eq hdevice user.isGuest
  rw [hu]
  have hlength : u.sessions.length = s.sessions.length := by rw [hsessions, length_takeSenders]
  constructor
  · intro hafter
    cases fails with
    | false => rfl
    | true =>
      obtain ⟨x, hlive, -⟩ := (hafter.sender (uid, device) s.sessions.length).1
        ((hslot _).trans (if_pos rfl))
      have hopened := hlive.opened
      rw [← hlength, List.getElem?_concat_length] at hopened
      obtain rfl := Option.some_inj.1 hopened
      exact absurd rfl hlive.running
  · rintro rfl
    have htaken : Tracks (fun key ↦ if key = (uid, device) then none
      else s.slot key) u.sessions := by
      rw [hsessions]
      exact tracks_takeSenders hr.sender _ _ fun key ↦ by simp
    have htracks : Tracks u.slot (u.sessions ++ [⟨uid, device, .running, [], 0, false⟩]) := by
      refine tracks_append htaken rfl rfl fun key ↦ ?_
      rw [hslot, hlength]
      by_cases hkey : key = (uid, device)
      · exact (if_pos hkey).trans (if_pos hkey).symm
      · exact ((if_neg hkey).trans (if_neg hkey).symm).trans (if_neg hkey).symm
    have hon : u.isOnline uid = true :=
      isOnline_eq_true.2 ⟨device, s.sessions.length, (hslot _).trans (if_pos rfl)⟩
    have hothers : ∀ uid', uid' ≠ uid → u.isOnline uid' = s.isOnline uid' := by
      intro uid' hne
      refine isOnline_congr fun device' ↦ (hslot _).trans (if_neg fun h ↦ ?_)
      exact hne (congrArg Prod.fst h)
    have hsaid : ∀ uid', uid' ≠ uid → u.announced uid' = s.announced uid' := by
      intro uid' hne
      rw [hannounced]
      split
      · exact Function.update_of_ne hne ..
      · rfl
    refine ⟨htracks, online_of_tracks (s := { u with sessions := _ }) htracks, ?_, ?_, ?_⟩
    · intro i x hlive
      have hi := hlive.lt
      change i < (u.sessions ++ [_]).length at hi
      rw [List.length_append, List.length_singleton] at hi
      by_cases hold : i < u.sessions.length
      · have hbefore := live_of_append hlive hold
        rw [hsessions, live_takeSenders] at hbefore
        exact hr.uncut i x hbefore.2
      · have hopened := hlive.opened
        change (u.sessions ++ [_])[i]? = some x at hopened
        rw [show i = u.sessions.length by omega, List.getElem?_concat_length] at hopened
        obtain rfl := Option.some_inj.1 hopened
        rfl
    · intro uid' user' huser' hguest hon'
      change u.users.get uid' = some user' at huser'
      show u.announced uid' = some true
      rw [husers] at huser'
      by_cases huid : uid' = uid
      · subst huid
        obtain rfl := Option.some_inj.1 (huser.symm.trans huser')
        rw [hannounced]
        cases hwas : s.isOnline uid' with
        | false =>
          rw [if_pos ⟨rfl, hguest⟩]
          exact Function.update_self ..
        | true =>
          rw [if_neg fun h ↦ Bool.false_ne_true h.1.symm]
          exact hr.announced uid' user huser hguest hwas
      · rw [hsaid uid' huid]
        exact hr.announced uid' user' huser' hguest ((hothers uid' huid).symm.trans hon')
    · intro uid' user' huser' hguest hsaid' hoff
      change u.users.get uid' = some user' at huser'
      change u.announced uid' = some true at hsaid'
      change u.isOnline uid' = false at hoff
      have huid : uid' ≠ uid := by
        rintro rfl
        exact Bool.false_ne_true (hoff.symm.trans hon)
      rw [husers] at huser'
      rw [hsaid uid' huid] at hsaid'
      have hopen : ∃ x ∈ u.sessions, x.uid = uid' ∧ x.phase ≠ .ended := by
        rw [hsessions]
        exact exists_mem_takeSenders
          (hr.withdrawn uid' user' huser' hguest hsaid' ((hothers uid' huid).symm.trans hoff))
      obtain ⟨x, hx, hrest⟩ := hopen
      exact ⟨x, List.mem_append_left _ hx, hrest⟩

end Subscribe

/-! ### Steps and runs -/

theorem stepSession_cases {s : State} {phase : Phase} {f : Session → State} :
    (∃ x, s.sessions[i]? = some x ∧ x.phase = phase ∧ s.stepSession i phase f = f x) ∨
      (∀ x, s.sessions[i]? = some x → x.phase ≠ phase) ∧ s.stepSession i phase f = s := by
  rw [stepSession]
  cases hx : s.sessions[i]? with
  | none => exact .inr ⟨(fun x h ↦ by cases h), rfl⟩
  | some x =>
    by_cases hphase : x.phase = phase
    · refine .inl ⟨x, rfl, hphase, ?_⟩
      rw [Option.filter_some, if_pos (decide_eq_true hphase)]
      rfl
    · refine .inr ⟨fun y hy ↦ Option.some_inj.1 hy ▸ hphase, ?_⟩
      rw [Option.filter_some, if_neg (by simpa using hphase)]
      rfl

theorem Inv.setSession (h : s.Inv) (i : ℕ) (x : Session) : (s.setSession i x).Inv :=
  ⟨h.devices, h.users, h.announced⟩

/-- Devices and users are among those that there were. -/
theorem Inv.fewer (h : s.Inv) (hdevices : ∀ key d, t.devices.get key = some d →
      (s.devices.get key).isSome = true ∧ (t.users.get key.1).isSome = (s.users.get key.1).isSome)
    (husers : ∀ uid user, t.users.get uid = some user → (s.users.get uid).isSome = true)
    (hnext : t.nextUid = s.nextUid)
    (hannounced : ∀ uid, t.announced uid = s.announced uid ∨ (s.users.get uid).isSome = true) :
    t.Inv := by
  refine ⟨fun key d hd ↦ ?_, fun uid user huser ↦ ?_, fun uid huid ↦ ?_⟩
  · obtain ⟨hsome, hsame⟩ := hdevices key d hd
    obtain ⟨d', hd'⟩ := Option.isSome_iff_exists.1 hsome
    rw [hsame]
    exact h.devices key d' hd'
  · obtain ⟨old, hold⟩ := Option.isSome_iff_exists.1 (husers uid user huser)
    rw [hnext]
    exact h.users uid old hold
  · rw [hnext] at huid
    rcases hannounced uid with hsame | hsome
    · rw [hsame]
      exact h.announced uid huid
    · obtain ⟨old, hold⟩ := Option.isSome_iff_exists.1 hsome
      exact absurd (h.users uid old hold) (Int.not_lt.2 huid)

/-- Senders are taken and devices removed, without a change of the users. -/
theorem Inv.removed (h : s.Inv) (p : ℤ × String → Bool) (reason : KickReason) :
    ((s.takeSenders p reason).removeDevices p).Inv := by
  refine h.fewer (fun key d hd ↦ ⟨?_, rfl⟩) (fun _ _ h ↦ Option.isSome_iff_exists.2 ⟨_, h⟩) rfl
    fun _ ↦ .inl rfl
  rw [removeDevices, Table.get_filter, takeSenders, Table.get_update] at hd
  obtain ⟨d', hd', -⟩ := Option.map_eq_some_iff.1 hd.1
  rw [hd']
  rfl

theorem slot_removed (s : State) (p : ℤ × String → Bool) (reason : KickReason) (key : ℤ × String) :
    ((s.takeSenders p reason).removeDevices p).slot key = if p key then none else s.slot key := by
  rw [slot_removeDevices, slot_takeSenders]
  split <;> rfl

theorem inv_perform (h : s.Inv) (a : Action) : (s.perform a).Inv := by
  cases a with
  | createUser isGuest =>
    refine ⟨fun key d hd ↦ ?_, fun uid user huser ↦ ?_, fun uid huid ↦ ?_⟩
    · show ((s.users.put s.nextUid ⟨isGuest, false⟩).get key.1).isSome = true
      rw [Table.get_put]
      split
      · rfl
      · exact h.devices key d hd
    · change (s.users.put s.nextUid ⟨isGuest, false⟩).get uid = some user at huser
      show uid < s.nextUid + 1
      rw [Table.get_put] at huser
      split at huser
      · omega
      · exact Int.lt_add_one_of_le (Int.le_of_lt (h.users uid user huser))
    · change s.nextUid + 1 ≤ uid at huid
      exact h.announced uid (by omega)
  | login uid device deviceToken =>
    show (s.orSelf (s.doLogin uid device deviceToken)).Inv
    cases hok : s.doLogin uid device deviceToken with
    | error e => exact h
    | ok t =>
      simp only [doLogin, bind_eq_ok, okOr_eq_ok, ensure_eq_ok, exists_unit, pure_eq_ok] at hok
      obtain ⟨user, huser, -, rfl⟩ := hok
      refine ⟨fun key d hd ↦ ?_, h.users, h.announced⟩
      change (s.devices.put (uid, device) _).get key = some d at hd
      rw [Table.get_put] at hd
      split at hd
      · rename_i hkey
        show (s.users.get key.1).isSome = true
        rw [hkey, huser]
        rfl
      · exact h.devices key d hd
  | logout uid device =>
    show (s.orSelf (s.logout uid device)).Inv
    cases hok : s.logout uid device with
    | error e => exact h
    | ok t =>
      simp only [logout, bind_eq_ok, okOr_eq_ok, pure_eq_ok] at hok
      obtain ⟨user, -, rfl⟩ := hok
      exact h.removed _ _
  | deleteDevice uid device =>
    show (s.orSelf (s.deleteDevice uid device)).Inv
    cases hok : s.deleteDevice uid device with
    | error e => exact h
    | ok t =>
      simp only [deleteDevice, bind_eq_ok, okOr_eq_ok, ensure_eq_ok, exists_unit, pure_eq_ok] at hok
      obtain ⟨user, -, -, rfl⟩ := hok
      exact h.removed _ _
  | setStatus uid frozen =>
    show (s.orSelf (s.setStatus uid frozen)).Inv
    cases hok : s.setStatus uid frozen with
    | error e => exact h
    | ok t =>
      simp only [setStatus, bind_eq_ok, okOr_eq_ok, pure_eq_ok] at hok
      obtain ⟨user, huser, rfl⟩ := hok
      have husers : ∀ u, ((s.users.put uid { user with frozen }).get u).isSome =
          (s.users.get u).isSome := by
        intro u
        rw [Table.get_put]
        split
        · rename_i hu
          rw [hu, huser]
          rfl
        · rfl
      split
      · refine h.fewer (fun key d hd ↦ ⟨?_, husers key.1⟩) (fun u v hv ↦ ?_) rfl fun _ ↦ .inl rfl
        · change ((s.devices.update _).get key) = some d at hd
          rw [Table.get_update] at hd
          obtain ⟨d', hd', -⟩ := Option.map_eq_some_iff.1 hd
          rw [hd']
          rfl
        · rw [← husers u]
          exact Option.isSome_iff_exists.2 ⟨v, hv⟩
      · refine h.fewer (fun key d hd ↦ ⟨?_, husers key.1⟩) (fun u v hv ↦ ?_) rfl fun _ ↦ .inl rfl
        · exact Option.isSome_iff_exists.2 ⟨d, hd⟩
        · rw [← husers u]
          exact Option.isSome_iff_exists.2 ⟨v, hv⟩
  | deleteUser uid =>
    refine h.fewer (fun key d hd ↦ ?_) (fun u v hv ↦ ?_) rfl fun _ ↦ .inl rfl
    · rw [perform, deleteUser, removeDevices, Table.get_filter, takeSenders, Table.get_update] at hd
      obtain ⟨hd, hkeep⟩ := hd
      obtain ⟨d', hd', -⟩ := Option.map_eq_some_iff.1 hd
      have hne : key.1 ≠ uid := by simpa using hkeep
      refine ⟨by rw [hd']; rfl, Bool.eq_iff_iff.2 ?_⟩
      show ((s.users.filter fun u _ ↦ u ≠ uid).get key.1).isSome = true ↔ _
      rw [Option.isSome_iff_exists, Option.isSome_iff_exists]
      exact exists_congr fun v ↦ by rw [Table.get_filter]; simp [hne]
    · change (s.users.filter fun u _ ↦ u ≠ uid).get u = some v at hv
      exact Option.isSome_iff_exists.2 ⟨v, (Table.get_filter.1 hv).1⟩
  | subscribe uid device fails =>
    show (s.orSelf (s.subscribe uid device fails)).Inv
    cases hok : s.subscribe uid device fails with
    | error e => exact h
    | ok t =>
      obtain ⟨user, huser, hdevice, rfl⟩ := subscribe_eq_ok.1 hok
      obtain ⟨u, hu, husers, hnext, -, hdevices, -, hannounced⟩ :=
        createUserEventReceiver_eq hdevice user.isGuest
      rw [hu]
      refine h.fewer (fun key d hd ↦ ⟨hdevices key d hd, ?_⟩) (fun v w hw ↦ ?_) hnext fun v ↦ ?_
      · show (u.users.get key.1).isSome = _
        rw [husers]
      · change u.users.get v = some w at hw
        rw [← husers, hw]
        rfl
      · show u.announced v = _ ∨ _
        by_cases hv : v = uid
        · exact .inr (by rw [hv, huser]; rfl)
        · refine .inl ?_
          rw [hannounced]
          split
          · exact Function.update_of_ne hv ..
          · rfl
  | recv i =>
    rw [perform]
    rcases stepSession_cases with ⟨x, -, -, heq⟩ | ⟨-, heq⟩
    · rw [heq]
      split
      · exact h.setSession i _
      · exact h
    · rw [heq]
      exact h
  | stop i =>
    rw [perform]
    rcases stepSession_cases with ⟨x, -, -, heq⟩ | ⟨-, heq⟩
    · rw [heq]
      exact h.setSession i _
    · rw [heq]
      exact h
  | closed i =>
    rw [perform]
    rcases stepSession_cases with ⟨x, -, -, heq⟩ | ⟨-, heq⟩
    · rw [heq]
      split
      · exact h.setSession i _
      · exact h
    · rw [heq]
      exact h
  | cleanUp i =>
    rw [perform]
    rcases stepSession_cases with ⟨x, -, -, heq⟩ | ⟨-, heq⟩
    · rw [heq]
      obtain ⟨husers, hnext, -, hdevices⟩ := s.cleanUp_fields i x
      refine h.fewer (fun key d hd ↦ ⟨?_, by rw [husers]⟩) (fun u v hv ↦ ?_) hnext fun u ↦ ?_
      · rw [hdevices, Table.get_modify] at hd
        cases hget : s.devices.get key with
        | some d => rfl
        | none => simp [hget] at hd
      · rw [← husers, hv]
        rfl
      · rw [cleanUp_announced]
        split
        · rename_i hcond
          obtain ⟨rfl, -, user, huser, -⟩ := hcond
          exact .inr (by rw [huser]; rfl)
        · exact .inl rfl
    · rw [heq]
      exact h

/-- **A step keeps everything right** exactly if it is orderly. -/
theorem registered_perform_iff (h : s.Inv) (hr : s.Registered) (a : Action) :
    (s.perform a).Registered ↔ s.Orderly a := by
  cases a with
  | createUser isGuest =>
    refine iff_of_true (hr.quiet h (fun _ ↦ rfl) rfl rfl fun uid user huser ↦ ?_) trivial
    change (s.users.put s.nextUid ⟨isGuest, false⟩).get uid = some user at huser
    rw [Table.get_put] at huser
    split at huser
    · exact .inr ‹_›
    · exact .inl ⟨user, huser, rfl⟩
  | login uid device deviceToken =>
    refine iff_of_true ?_ trivial
    show (s.orSelf (s.doLogin uid device deviceToken)).Registered
    cases hok : s.doLogin uid device deviceToken with
    | error e => exact hr
    | ok t =>
      simp only [doLogin, bind_eq_ok, okOr_eq_ok, ensure_eq_ok, exists_unit, pure_eq_ok] at hok
      obtain ⟨user, -, -, rfl⟩ := hok
      refine hr.quiet h (fun key ↦ ?_) rfl rfl fun uid user huser ↦ .inl ⟨user, huser, rfl⟩
      show ((s.devices.put (uid, device) _).get key).bind CacheDevice.sender = s.slot key
      rw [Table.get_put]
      split
      · rename_i hkey
        rw [hkey]
        rfl
      · rfl
  | logout uid device =>
    refine iff_of_true ?_ trivial
    show (s.orSelf (s.logout uid device)).Registered
    cases hok : s.logout uid device with
    | error e => exact hr
    | ok t =>
      simp only [logout, bind_eq_ok, okOr_eq_ok, pure_eq_ok] at hok
      obtain ⟨user, -, rfl⟩ := hok
      exact hr.taken (s.slot_removed _ _) rfl rfl fun _ user huser ↦ ⟨user, huser, rfl⟩
  | deleteDevice uid device =>
    refine iff_of_true ?_ trivial
    show (s.orSelf (s.deleteDevice uid device)).Registered
    cases hok : s.deleteDevice uid device with
    | error e => exact hr
    | ok t =>
      simp only [deleteDevice, bind_eq_ok, okOr_eq_ok, ensure_eq_ok, exists_unit, pure_eq_ok] at hok
      obtain ⟨user, -, -, rfl⟩ := hok
      exact hr.taken (s.slot_removed _ _) rfl rfl fun _ user huser ↦ ⟨user, huser, rfl⟩
  | setStatus uid frozen =>
    refine iff_of_true ?_ trivial
    show (s.orSelf (s.setStatus uid frozen)).Registered
    cases hok : s.setStatus uid frozen with
    | error e => exact hr
    | ok t =>
      simp only [setStatus, bind_eq_ok, okOr_eq_ok, pure_eq_ok] at hok
      obtain ⟨user, huser, rfl⟩ := hok
      have husers : ∀ u v, (s.users.put uid { user with frozen }).get u = some v →
          ∃ old, s.users.get u = some old ∧ old.isGuest = v.isGuest := by
        intro u v hv
        rw [Table.get_put] at hv
        split at hv
        · rename_i hu
          obtain rfl := Option.some_inj.1 hv
          exact ⟨user, hu ▸ huser, rfl⟩
        · exact ⟨v, hv, rfl⟩
      split
      · exact hr.taken (s.slot_takeSenders _ .frozen) rfl rfl husers
      · exact hr.quiet h (fun _ ↦ rfl) rfl rfl fun u v hv ↦ .inl (husers u v hv)
  | deleteUser uid =>
    refine iff_of_true (hr.taken (s.slot_removed _ .deleteUser) rfl rfl fun u v hv ↦ ?_) trivial
    change (s.users.filter fun u _ ↦ u ≠ uid).get u = some v at hv
    exact ⟨v, (Table.get_filter.1 hv).1, rfl⟩
  | subscribe uid device fails =>
    show (s.orSelf (s.subscribe uid device fails)).Registered ↔
      ((s.users.get uid).isSome = true → (s.devices.get (uid, device)).isSome = true →
        fails = false)
    cases hok : s.subscribe uid device fails with
    | error e =>
      refine iff_of_true hr fun huser hdevice ↦ ?_
      obtain ⟨user, huser⟩ := Option.isSome_iff_exists.1 huser
      cases hok.symm.trans (subscribe_eq_ok.2 ⟨user, huser, hdevice, rfl⟩)
    | ok t =>
      obtain ⟨user, huser, hdevice, -⟩ := subscribe_eq_ok.1 hok
      refine (registered_subscribe_iff hr hok).trans ⟨fun hfails _ _ ↦ hfails, fun horderly ↦ ?_⟩
      exact horderly (by rw [huser]; rfl) hdevice
  | recv i =>
    refine iff_of_true ?_ trivial
    rw [perform]
    rcases stepSession_cases with ⟨x, hx, hphase, heq⟩ | ⟨-, heq⟩
    · rw [heq]
      split
      · exact hr.setSession hx rfl (by rw [hphase]; simp) (by rw [hphase]; simp) rfl fun _ ↦ rfl
      · exact hr
    · rw [heq]
      exact hr
  | stop i =>
    refine iff_of_true ?_ trivial
    rw [perform]
    rcases stepSession_cases with ⟨x, hx, hphase, heq⟩ | ⟨-, heq⟩
    · rw [heq]
      exact hr.setSession hx rfl (by rw [hphase]; simp) (by simp) rfl fun _ ↦ rfl
    · rw [heq]
      exact hr
  | closed i =>
    refine iff_of_true ?_ trivial
    rw [perform]
    rcases stepSession_cases with ⟨x, hx, hphase, heq⟩ | ⟨-, heq⟩
    · rw [heq]
      split
      · rename_i hcut
        -- a live session has its sender in the slot
        refine hr.setSession hx rfl (by rw [hphase]; simp) (by simp) rfl fun hlive ↦ ?_
        exact absurd (mem_holders.2 ⟨x.key, rfl, (hr.sender _ _).2 ⟨x, hlive, rfl⟩⟩) hcut.2
      · exact hr
    · rw [heq]
      exact hr
  | cleanUp i =>
    rw [perform]
    rcases stepSession_cases with ⟨x, hx, hphase, heq⟩ | ⟨hnone, heq⟩
    · rw [heq, registered_cleanUp_iff hr hx]
      constructor
      · intro honly y hy _
        obtain rfl := Option.some_inj.1 (hx.symm.trans hy)
        exact honly
      · exact fun horderly ↦ horderly x hx hphase
    · rw [heq]
      exact iff_of_true hr fun x hx hphase ↦ absurd hphase (hnone x hx)

/-- **A live session stays registered, and a user is online exactly if he has one**, all along a
run, if and only if no request for events fails once it is registered, and no clean-up takes place
while another session has the slot of its device. -/
theorem registered_iff (as : List Action) : (∀ cs, cs <+: as → (after cs).Registered) ↔
    Along (total perform) Orderly start as :=
  forall_prefix_iff_along (I := Inv) (P := Registered) (f := perform) (fun _ a h ↦ inv_perform h a)
    (fun _ a h hr ↦ registered_perform_iff h hr a) inv_start registered_start as

/-- A device reconnects. The clean-up of the session that the new one has kicked takes the sender of
the new one. -/
theorem not_forall_registered : ¬∀ as, (after as).Registered := by
  intro h
  have hrun := h [.createUser false, .login 1 "phone" none, .subscribe 1 "phone" false,
    .subscribe 1 "phone" false, .recv 0, .closed 0, .cleanUp 0]
  have hlive : Live (after [.createUser false, .login 1 "phone" none, .subscribe 1 "phone" false,
      .subscribe 1 "phone" false, .recv 0, .closed 0, .cleanUp 0]).sessions 1
      ⟨1, "phone", .running, [], 0, false⟩ := by
    refine ⟨by decide +kernel, fun j y hj hy ↦ ?_, by decide, rfl⟩
    have hlt := (List.getElem?_eq_some_iff.1 hy).1
    have hlength : (after [.createUser false, .login 1 "phone" none, .subscribe 1 "phone" false,
      .subscribe 1 "phone" false, .recv 0, .closed 0, .cleanUp 0]).sessions.length = 2 := by
      decide +kernel
    omega
  have hslot := (hrun.sender (1, "phone") 1).2 ⟨_, hlive, rfl⟩
  revert hslot
  decide +kernel

end State

end Streams

end VoceChat
