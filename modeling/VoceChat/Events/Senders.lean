import Mathlib.Data.Int.Notation
import VoceChat.Foundations.Guards
import VoceChat.Foundations.Run
import VoceChat.Foundations.Table

/-!
# The senders of the devices (`events` and `events_loop` of `src/api/user.rs`)

A device of a user has a slot for the sending end of a channel, `sender`. A session of `events` puts
its own there and keeps the receiving end; whoever takes the sender out of the slot sends a kick
with it first. A user is online when some slot is taken.

A session ends in three ways: the kick is received, and then that there is no sender any more; its
client has gone or the broadcast channel lags; or its sender was dropped without a kick. In each
case its loop ends first, and its clean-up comes later, when it gets the lock of the cache. The
stream is open until then, as `tx_msg` is.

## What goes wrong

The clean-up empties the slot of the device, whoever is in it. So the session that a newer one has
kicked unregisters the newer one. And a request that fails after `create_user_event_receiver` leaves
a sender in the slot that nobody receives from. Here are the steps, the property that the senders
are those of the live sessions (`Tracks`), and what each change does to it.
-/

namespace VoceChat

open Guards Transition

inductive KickReason where
  | loginFromOtherDevice
  | deleteUser
  | logout
  | deleteDevice
  | frozen
  deriving DecidableEq, Repr

namespace Streams

/-- A device in the cache. Its `sender` is the number of the session with the receiving end. -/
structure CacheDevice where
  deviceToken : Option String
  sender : Option ℕ
  deriving DecidableEq, Repr

structure CacheUser where
  isGuest : Bool
  frozen : Bool
  deriving DecidableEq, Repr

/-- How far a session is. -/
inductive Phase where
  | running
  /-- The loop is over, the clean-up is not. -/
  | cleaningUp
  | ended
  deriving DecidableEq, Repr

/-- A session of `events`. It has passed on the first `told` of the kicks that were sent to it. -/
structure Session where
  uid : ℤ
  device : String
  phase : Phase
  kicks : List KickReason
  told : ℕ
  /-- The loop ended because there was no sender any more. -/
  cut : Bool
  deriving DecidableEq, Repr

/-- The device that the session is for. -/
def Session.key (x : Session) : ℤ × String := (x.uid, x.device)

/-- The users with their devices, all sessions that there were, and what the last `UserStateChanged`
of a user said. -/
structure State where
  users : Table ℤ CacheUser
  devices : Table (ℤ × String) CacheDevice
  sessions : List Session
  announced : ℤ → Option Bool
  nextUid : ℤ

inductive Error where
  | unauthorized
  | forbidden
  deriving DecidableEq, Repr

namespace State

def start : State := ⟨Table.empty, Table.empty, [], fun _ ↦ none, 1⟩

/-- The sender of a device, if there is the device. -/
def slot (s : State) (key : ℤ × String) : Option ℕ := (s.devices.get key).bind CacheDevice.sender

/-- `is_online`. -/
def isOnline (s : State) (uid : ℤ) : Bool :=
  s.devices.rows.any fun r ↦ r.1.1 = uid && r.2.sender.isSome

/-- `BroadcastEvent::UserStateChanged`. -/
def announce (s : State) (uid : ℤ) (online : Bool) : State :=
  { s with announced := Function.update s.announced uid (some online) }

/-- The sessions that have the senders of some devices. -/
def holders (s : State) (p : ℤ × String → Bool) : List ℕ :=
  s.devices.rows.filterMap fun r ↦ if p r.1 then r.2.sender else none

/-- Take the senders of some devices, and send a kick with each. -/
def takeSenders (s : State) (p : ℤ × String → Bool) (reason : KickReason) : State :=
  { s with
    devices := s.devices.update fun key device ↦
      if p key then { device with sender := none } else device
    sessions := s.sessions.mapIdx fun i x ↦
      if i ∈ s.holders p then { x with kicks := x.kicks ++ [reason] } else x }

def removeDevices (s : State) (p : ℤ × String → Bool) : State :=
  { s with devices := s.devices.filter fun key _ ↦ !p key }

def createUser (s : State) (isGuest : Bool) : State :=
  { s with users := s.users.put s.nextUid ⟨isGuest, false⟩, nextUid := s.nextUid + 1 }

/-- `do_login`. -/
def doLogin (s : State) (uid : ℤ) (device : String) (deviceToken : Option String) :
    Except Error State := do
  let user ← okOr (s.users.get uid) .unauthorized
  ensure (user.frozen = false) .forbidden
  let sender := s.slot (uid, device)
  return { s with devices := s.devices.put (uid, device) ⟨deviceToken, sender⟩ }

def logout (s : State) (uid : ℤ) (device : String) : Except Error State := do
  let _ ← okOr (s.users.get uid) .unauthorized
  return (s.takeSenders (· = (uid, device)) .logout).removeDevices (· = (uid, device))

def deleteDevice (s : State) (uid : ℤ) (device : String) : Except Error State := do
  let _ ← okOr (s.users.get uid) .unauthorized
  ensure ((s.devices.get (uid, device)).isSome = true) .unauthorized
  return (s.takeSenders (· = (uid, device)) .deleteDevice).removeDevices (· = (uid, device))

/-- An update of a user by an administrator, with a new status. -/
def setStatus (s : State) (uid : ℤ) (frozen : Bool) : Except Error State := do
  let user ← okOr (s.users.get uid) .unauthorized
  let s := { s with users := s.users.put uid { user with frozen } }
  return if frozen then s.takeSenders (fun key ↦ key.1 = uid) .frozen else s

def deleteUser (s : State) (uid : ℤ) : State :=
  ({ s with users := s.users.filter fun u _ ↦ u ≠ uid }.takeSenders (fun key ↦ key.1 = uid)
    .deleteUser).removeDevices fun key ↦ key.1 = uid

/-- `create_user_event_receiver`. The session that it is for is the next one. -/
def createUserEventReceiver (s : State) (uid : ℤ) (device : String) (isGuest : Bool) : State :=
  let taken := s.takeSenders (· = (uid, device)) .loginFromOtherDevice
  let registered := { taken with
    devices := taken.devices.modify (uid, device) fun d ↦
      { d with sender := some s.sessions.length } }
  if !s.isOnline uid && registered.isOnline uid && !isGuest then registered.announce uid true
  else registered

/-- `events`. It may fail once the sender is registered, or be given up; then there is no session.
-/
def subscribe (s : State) (uid : ℤ) (device : String) (fails : Bool) : Except Error State := do
  let user ← okOr (s.users.get uid) .unauthorized
  ensure ((s.devices.get (uid, device)).isSome = true) .forbidden
  let registered := s.createUserEventReceiver uid device user.isGuest
  return { registered with
    sessions := registered.sessions ++
      [⟨uid, device, if fails then .ended else .running, [], 0, false⟩] }

/-- Something happens in the loop of a session. -/
def setSession (s : State) (i : ℕ) (x : Session) : State :=
  { s with sessions := s.sessions.set i x }

/-- The clean-up of `events_loop`. -/
def cleanUp (s : State) (i : ℕ) (x : Session) : State :=
  let s := { s with devices := s.devices.modify x.key fun d ↦ { d with sender := none } }
  let s := match s.users.get x.uid with
    | some user => if !s.isOnline x.uid && !user.isGuest then s.announce x.uid false else s
    | none => s
  s.setSession i { x with phase := .ended }

end State

inductive Action where
  | createUser (isGuest : Bool)
  | login (uid : ℤ) (device : String) (deviceToken : Option String)
  | logout (uid : ℤ) (device : String)
  | deleteDevice (uid : ℤ) (device : String)
  | setStatus (uid : ℤ) (frozen : Bool)
  | deleteUser (uid : ℤ)
  | subscribe (uid : ℤ) (device : String) (fails : Bool)
  /-- The session passes a kick on to its client. -/
  | recv (i : ℕ)
  /-- The client has gone, or the broadcast channel lags. -/
  | stop (i : ℕ)
  /-- There is no sender any more. -/
  | closed (i : ℕ)
  | cleanUp (i : ℕ)

namespace State

/-- What is refused changes nothing. -/
def orSelf (s : State) (r : Except Error State) : State := r.toOption.getD s

/-- A step of a session in the given phase. -/
def stepSession (s : State) (i : ℕ) (phase : Phase) (f : Session → State) : State :=
  ((s.sessions[i]?.filter fun x ↦ x.phase = phase).map f).getD s

def perform (s : State) : Action → State
  | .createUser isGuest => s.createUser isGuest
  | .login uid device deviceToken => s.orSelf (s.doLogin uid device deviceToken)
  | .logout uid device => s.orSelf (s.logout uid device)
  | .deleteDevice uid device => s.orSelf (s.deleteDevice uid device)
  | .setStatus uid frozen => s.orSelf (s.setStatus uid frozen)
  | .deleteUser uid => s.deleteUser uid
  | .subscribe uid device fails => s.orSelf (s.subscribe uid device fails)
  | .recv i => s.stepSession i .running fun x ↦
      if x.told < x.kicks.length then s.setSession i { x with told := x.told + 1 } else s
  | .stop i => s.stepSession i .running fun x ↦ s.setSession i { x with phase := .cleaningUp }
  | .closed i => s.stepSession i .running fun x ↦
      if x.told = x.kicks.length ∧ i ∉ s.holders (fun _ ↦ true) then
        s.setSession i { x with phase := .cleaningUp, cut := true }
      else s
  | .cleanUp i => s.stepSession i .cleaningUp (s.cleanUp i)

def after (as : List Action) : State := as.foldl perform start

end State

/-! ### Live sessions -/

/-- The session is the last one that was opened for its device, and neither ended nor kicked. -/
structure Live (sessions : List Session) (i : ℕ) (x : Session) : Prop where
  opened : sessions[i]? = some x
  latest : ∀ j y, i < j → sessions[j]? = some y → y.key ≠ x.key
  running : x.phase ≠ .ended
  unkicked : x.kicks = []

/-! ### Live sessions under the changes of a list -/

section Live

variable {sessions sessions' : List Session} {i j : ℕ} {x x' y : Session} {key : ℤ × String}

theorem Live.lt (h : Live sessions i x) : i < sessions.length :=
  (List.getElem?_eq_some_iff.1 h.opened).1

/-- Which session is the last one of a device depends on the keys alone. -/
theorem live_congr (hkeys : ∀ j : ℕ, sessions'[j]?.map Session.key = sessions[j]?.map Session.key)
    (hx : sessions[i]? = some x) (hx' : sessions'[i]? = some x')
    (hphase : x'.phase = .ended ↔ x.phase = .ended) (hkicks : x'.kicks = [] ↔ x.kicks = []) :
    Live sessions' i x' ↔ Live sessions i x := by
  have hkey : x'.key = x.key := by
    have hi := hkeys i
    rw [hx, hx'] at hi
    exact Option.some_inj.1 hi
  have hlatest : ∀ {l l' : List Session},
    (∀ j : ℕ, l'[j]?.map Session.key = l[j]?.map Session.key) →
      (∀ (j : ℕ) y, i < j → l[j]? = some y → y.key ≠ x.key) →
      ∀ (j : ℕ) y, i < j → l'[j]? = some y → y.key ≠ x.key := by
    intro l l' hsame h j y hlt hy
    have hj := hsame j
    rw [hy, Option.map_some] at hj
    obtain ⟨z, hz, hzkey⟩ := Option.map_eq_some_iff.1 hj.symm
    exact hzkey ▸ h j z hlt hz
  constructor
  · intro h
    exact ⟨hx, hlatest (fun j ↦ (hkeys j).symm) (hkey ▸ h.latest), fun hended ↦
      h.running (hphase.2 hended), hkicks.1 h.unkicked⟩
  · intro h
    refine ⟨hx', ?_, fun hended ↦ h.running (hphase.1 hended), hkicks.2 h.unkicked⟩
    rw [hkey]
    exact hlatest hkeys h.latest

theorem map_key_set (hx : sessions[i]? = some x) (hkey : x'.key = x.key) (j : ℕ) :
    (sessions.set i x')[j]?.map Session.key = sessions[j]?.map Session.key := by
  by_cases hij : i = j
  · subst hij
    rw [List.getElem?_set_self (List.getElem?_eq_some_iff.1 hx).1, hx, Option.map_some,
      Option.map_some, hkey]
  · rw [List.getElem?_set_ne hij]

theorem live_set_self (hx : sessions[i]? = some x) (hkey : x'.key = x.key)
    (hphase : x'.phase = .ended ↔ x.phase = .ended) (hkicks : x'.kicks = x.kicks) :
    Live (sessions.set i x') i x' ↔ Live sessions i x :=
  live_congr (map_key_set hx hkey) hx
    (List.getElem?_set_self (List.getElem?_eq_some_iff.1 hx).1) hphase (by rw [hkicks])

theorem live_set_of_ne (hx : sessions[i]? = some x) (hkey : x'.key = x.key) (hij : i ≠ j) :
    Live (sessions.set i x') j y ↔ Live sessions j y := by
  constructor
  · intro h
    have hy := h.opened
    rw [List.getElem?_set_ne hij] at hy
    exact (live_congr (map_key_set hx hkey) hy h.opened Iff.rfl Iff.rfl).1 h
  · intro h
    have hy : (sessions.set i x')[j]? = some y := (List.getElem?_set_ne hij).trans h.opened
    exact (live_congr (map_key_set hx hkey) h.opened hy Iff.rfl Iff.rfl).2 h

/-- A session that is live with a new one was live before. -/
theorem live_of_append (h : Live (sessions ++ [x']) j y) (hj : j < sessions.length) :
    Live sessions j y := by
  refine ⟨?_, fun k z hlt hz ↦ ?_, h.running, h.unkicked⟩
  · exact (List.getElem?_append_left hj).symm.trans h.opened
  · refine h.latest k z hlt ?_
    rw [List.getElem?_append_left (List.getElem?_eq_some_iff.1 hz).1]
    exact hz

/-- And it stays so if the new one is for another device. -/
theorem Live.append (h : Live sessions j y) (hkey : x'.key ≠ y.key) :
    Live (sessions ++ [x']) j y := by
  refine ⟨?_, fun k z hlt hz ↦ ?_, h.running, h.unkicked⟩
  · rw [List.getElem?_append_left h.lt]
    exact h.opened
  · by_cases hk : k < sessions.length
    · rw [List.getElem?_append_left hk] at hz
      exact h.latest k z hlt hz
    · rw [List.getElem?_append_right (by omega)] at hz
      obtain rfl := List.mem_singleton.1 (List.mem_of_getElem? hz)
      exact hkey

end Live

/-- The senders are those of the live sessions. -/
def Tracks (slot : ℤ × String → Option ℕ) (sessions : List Session) : Prop :=
  ∀ key i, slot key = some i ↔ ∃ x, Live sessions i x ∧ x.key = key

namespace State

variable {s t : State} {p : ℤ × String → Bool} {key : ℤ × String} {uid : ℤ} {i : ℕ}

/-! ### Slots -/

theorem slot_eq_some :
    s.slot key = some i ↔ ∃ d, (key, d) ∈ s.devices.rows ∧ d.sender = some i := by
  rw [slot, Option.bind_eq_some_iff]
  exact exists_congr fun d ↦ and_congr_left fun _ ↦ Table.get_eq_some

theorem isOnline_eq_true : s.isOnline uid = true ↔ ∃ device i, s.slot (uid, device) = some i := by
  rw [isOnline, List.any_eq_true]
  constructor
  · rintro ⟨⟨⟨u, device⟩, d⟩, hmem, h⟩
    rw [Bool.and_eq_true, decide_eq_true_iff, Option.isSome_iff_exists] at h
    obtain ⟨hu, i, hi⟩ := h
    obtain rfl : u = uid := hu
    exact ⟨device, i, slot_eq_some.2 ⟨d, hmem, hi⟩⟩
  · rintro ⟨device, i, h⟩
    obtain ⟨d, hmem, hi⟩ := slot_eq_some.1 h
    exact ⟨_, hmem, by simp [hi]⟩

theorem mem_holders : i ∈ s.holders p ↔ ∃ key, p key = true ∧ s.slot key = some i := by
  rw [holders, List.mem_filterMap]
  constructor
  · rintro ⟨⟨key, d⟩, hmem, h⟩
    obtain ⟨hp, hi⟩ := Option.ite_none_right_eq_some.1 h
    exact ⟨key, hp, slot_eq_some.2 ⟨d, hmem, hi⟩⟩
  · rintro ⟨key, hp, h⟩
    obtain ⟨d, hmem, hi⟩ := slot_eq_some.1 h
    exact ⟨_, hmem, by rw [if_pos hp, hi]⟩

theorem slot_takeSenders (s : State) (p : ℤ × String → Bool) (reason : KickReason)
    (key : ℤ × String) :
    (s.takeSenders p reason).slot key = if p key then none else s.slot key := by
  rw [slot, takeSenders, Table.get_update, slot]
  cases s.devices.get key with
  | none => exact (ite_self none).symm
  | some d =>
    show (if p key then _ else d).sender = _
    split <;> rfl

theorem slot_removeDevices (s : State) (p : ℤ × String → Bool) (key : ℤ × String) :
    (s.removeDevices p).slot key = if p key then none else s.slot key := by
  refine Option.ext fun i ↦ ?_
  rw [slot, removeDevices, Option.bind_eq_some_iff]
  simp only [Table.get_filter]
  cases hp : p key with
  | true => simp
  | false => simp [slot, Option.bind_eq_some_iff]

/-- A user is online exactly if he has a live session, where the senders are those of these. -/
theorem online_of_tracks (h : Tracks s.slot s.sessions) (uid : ℤ) :
    s.isOnline uid = true ↔ ∃ i x, Live s.sessions i x ∧ x.uid = uid := by
  rw [isOnline_eq_true]
  constructor
  · rintro ⟨device, i, hslot⟩
    obtain ⟨x, hlive, hkey⟩ := (h _ _).1 hslot
    exact ⟨i, x, hlive, congrArg Prod.fst hkey⟩
  · rintro ⟨i, x, hlive, rfl⟩
    exact ⟨x.device, i, (h _ _).2 ⟨x, hlive, rfl⟩⟩

/-! ### What keeps the senders those of the live sessions -/

theorem getElem?_takeSenders (s : State) (p : ℤ × String → Bool) (reason : KickReason) (i : ℕ) :
    (s.takeSenders p reason).sessions[i]? = s.sessions[i]?.map fun x ↦
      if i ∈ s.holders p then { x with kicks := x.kicks ++ [reason] } else x :=
  List.getElem?_mapIdx

/-- The live sessions that are not kicked stay so. -/
theorem live_takeSenders {reason : KickReason} {x : Session} :
    Live (s.takeSenders p reason).sessions i x ↔ i ∉ s.holders p ∧ Live s.sessions i x := by
  have hkeys : ∀ j : ℕ, (s.takeSenders p reason).sessions[j]?.map Session.key =
      s.sessions[j]?.map Session.key := by
    intro j
    rw [getElem?_takeSenders, Option.map_map]
    refine congrFun (congrArg Option.map (funext fun x ↦ ?_)) _
    show Session.key (if _ then _ else _) = _
    split <;> rfl
  have hget := s.getElem?_takeSenders p reason i
  constructor
  · intro h
    rw [h.opened] at hget
    obtain ⟨y, hy, heq⟩ := Option.map_eq_some_iff.1 hget.symm
    by_cases hi : i ∈ s.holders p
    · rw [if_pos hi] at heq
      have hkicks := h.unkicked
      rw [← heq] at hkicks
      exact absurd hkicks (List.append_ne_nil_of_right_ne_nil _ (List.cons_ne_nil _ _))
    · rw [if_neg hi] at heq
      subst heq
      exact ⟨hi, (live_congr hkeys hy h.opened Iff.rfl Iff.rfl).1 h⟩
  · rintro ⟨hi, h⟩
    rw [h.opened, Option.map_some, if_neg hi] at hget
    exact (live_congr hkeys h.opened hget Iff.rfl Iff.rfl).2 h

theorem tracks_takeSenders (h : Tracks s.slot s.sessions) (p : ℤ × String → Bool)
    (reason : KickReason) {slot' : ℤ × String → Option ℕ}
    (hslot : ∀ key, slot' key = if p key then none else s.slot key) :
    Tracks slot' (s.takeSenders p reason).sessions := by
  intro key i
  simp only [live_takeSenders, hslot]
  cases hp : p key with
  | true =>
    refine iff_of_false (fun heq ↦ by cases heq) ?_
    rintro ⟨x, ⟨hi, hlive⟩, rfl⟩
    exact hi (mem_holders.2 ⟨x.key, hp, (h _ _).2 ⟨x, hlive, rfl⟩⟩)
  | false =>
    refine (h key i).trans (exists_congr fun x ↦ ?_)
    constructor
    · rintro ⟨hlive, rfl⟩
      refine ⟨⟨fun hi ↦ ?_, hlive⟩, rfl⟩
      obtain ⟨key', hp', hslot⟩ := mem_holders.1 hi
      obtain ⟨y, hy, rfl⟩ := (h _ _).1 hslot
      obtain rfl := Option.some_inj.1 (hlive.opened.symm.trans hy.opened)
      cases hp.symm.trans hp'
    · rintro ⟨⟨-, hlive⟩, hkey⟩
      exact ⟨hlive, hkey⟩

/-- A session that goes on stays what it is. -/
theorem tracks_set {slot : ℤ × String → Option ℕ} {sessions : List Session} {x x' : Session}
    (h : Tracks slot sessions) (hx : sessions[i]? = some x) (hkey : x'.key = x.key)
    (hphase : x'.phase = .ended ↔ x.phase = .ended) (hkicks : x'.kicks = x.kicks) :
    Tracks slot (sessions.set i x') := by
  intro key j
  rw [h key j]
  by_cases hij : i = j
  · subst hij
    constructor
    · rintro ⟨y, hlive, rfl⟩
      obtain rfl := Option.some_inj.1 (hx.symm.trans hlive.opened)
      exact ⟨x', (live_set_self hx hkey hphase hkicks).2 hlive, hkey⟩
    · rintro ⟨y, hlive, rfl⟩
      have hy := hlive.opened
      rw [List.getElem?_set_self (List.getElem?_eq_some_iff.1 hx).1] at hy
      obtain rfl := Option.some_inj.1 hy
      exact ⟨x, (live_set_self hx hkey hphase hkicks).1 hlive, hkey.symm⟩
  · exact exists_congr fun y ↦ and_congr_left fun _ ↦ (live_set_of_ne hx hkey hij).symm

/-- A new session, with its sender in the slot of a device without one. -/
theorem tracks_append {slot slot' : ℤ × String → Option ℕ} {sessions : List Session} {x : Session}
    (h : Tracks slot sessions) (hphase : x.phase = .running) (hkicks : x.kicks = [])
    (hslot : ∀ key, slot' key = if key = x.key then some sessions.length else slot key) :
    Tracks slot' (sessions ++ [x]) := by
  have hlast : (sessions ++ [x])[sessions.length]? = some x := List.getElem?_concat_length
  intro key i
  rw [hslot]
  by_cases hkey : key = x.key
  · subst hkey
    rw [if_pos rfl, Option.some_inj]
    constructor
    · rintro rfl
      refine ⟨x, ⟨hlast, fun j y hlt hy ↦ ?_, by rw [hphase]; simp, hkicks⟩, rfl⟩
      have hj := (List.getElem?_eq_some_iff.1 hy).1
      rw [List.length_append, List.length_singleton] at hj
      omega
    · rintro ⟨y, hlive, hsame⟩
      have hi := hlive.lt
      rw [List.length_append, List.length_singleton] at hi
      by_contra hne
      exact hlive.latest sessions.length x (by omega) hlast hsame.symm
  · rw [if_neg hkey, h key i]
    refine exists_congr fun y ↦ ?_
    constructor
    · rintro ⟨hlive, rfl⟩
      exact ⟨hlive.append (Ne.symm hkey), rfl⟩
    · rintro ⟨hlive, rfl⟩
      have hi : i < sessions.length := by
        have hi := hlive.lt
        rw [List.length_append, List.length_singleton] at hi
        by_contra hge
        obtain rfl : i = sessions.length := by omega
        obtain rfl := Option.some_inj.1 (hlast.symm.trans hlive.opened)
        exact hkey rfl
      exact ⟨live_of_append hlive hi, rfl⟩

/-- The clean-up of a session leaves the senders right exactly if there is no other one. -/
theorem tracks_cleanUp_iff {slot slot' : ℤ × String → Option ℕ} {sessions : List Session}
    {x x' : Session} (h : Tracks slot sessions) (hx : sessions[i]? = some x)
    (hkey : x'.key = x.key) (hphase : x'.phase = .ended)
    (hslot : ∀ key, slot' key = if key = x.key then none else slot key) :
    Tracks slot' (sessions.set i x') ↔ ∀ j, slot x.key = some j → j = i := by
  have hgone : ∀ y, ¬Live (sessions.set i x') i y := by
    intro y hlive
    have hy := hlive.opened
    rw [List.getElem?_set_self (List.getElem?_eq_some_iff.1 hx).1] at hy
    obtain rfl := Option.some_inj.1 hy
    exact hlive.running hphase
  constructor
  · intro hafter j hj
    by_contra hne
    obtain ⟨y, hlive, hy⟩ := (h _ _).1 hj
    have hnew := (hafter x.key j).2 ⟨y, (live_set_of_ne hx hkey (Ne.symm hne)).2 hlive, hy⟩
    rw [hslot, if_pos rfl] at hnew
    cases hnew
  · intro honly key j
    rw [hslot]
    by_cases hsame : key = x.key
    · subst hsame
      rw [if_pos rfl]
      refine iff_of_false (fun heq ↦ by cases heq) ?_
      rintro ⟨y, hlive, hy⟩
      by_cases hij : i = j
      · exact hgone y (hij ▸ hlive)
      · exact hij (honly j ((h _ _).2 ⟨y, (live_set_of_ne hx hkey hij).1 hlive, hy⟩)).symm
    · rw [if_neg hsame, h key j]
      refine exists_congr fun y ↦ ?_
      by_cases hij : i = j
      · subst hij
        refine iff_of_false ?_ fun hlive ↦ hgone y hlive.1
        rintro ⟨hlive, rfl⟩
        obtain rfl := Option.some_inj.1 (hx.symm.trans hlive.opened)
        exact hsame rfl
      · exact and_congr_left fun _ ↦ (live_set_of_ne hx hkey hij).symm

end State

end Streams

end VoceChat
