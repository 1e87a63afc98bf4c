import VoceChat.Foundations.Guards
import VoceChat.Foundations.History
import VoceChat.Foundations.Tasks
import VoceChat.Notifications.Recipients

/-!
# Push notifications (`send_notify` in `src/api/message.rs`, `crates/fcm/src/client.rs`)

Once a message is stored, a task goes through the tokens of its notification, one after the other,
and hands each to Firebase. It passes over the tokens that were refused, and it stops at the first
token that it comes to after a minute.

`FcmClient::send` needs an access token. The client keeps the last one that it was given and asks
for another when there is none or half a minute of it is left, with the lock of the token held
meanwhile. So the tasks of a client wait for each other when there is one to be asked for.

Each visit to what the tasks share is a step, and each answer from outside. What else happens to
the cache is not looked at: it may change in any way between two steps (`changeCache`). A client
that was replaced goes on for the tasks that have it. Of an error it matters whether it is an
answer with the status 400, from whomever.

`handled` and `requested` are history, no step reads them. Times are nanoseconds.
-/

namespace VoceChat

open Guards Transition

def second : ℤ := 1000000000

/-- `Token` of `client.rs`. -/
structure FcmToken where
  accessToken : String
  expiresAt : Option ℤ
  deriving DecidableEq

/-- `has_expired`. -/
def FcmToken.hasExpired (token : FcmToken) (now : ℤ) : Bool :=
  token.expiresAt.any fun expiresAt ↦ decide (expiresAt - 30 * second ≤ now)

structure FcmClient where
  token : Option FcmToken
  /-- The task that has the lock of the token. -/
  holder : Option ℕ
  deriving DecidableEq

/-- What `send_notify` makes of an error. -/
inductive FcmError where
  /-- An answer with this status. -/
  | badRequest
  | other
  deriving DecidableEq

/-- Where a task is with one of its tokens. -/
inductive TokenPhase where
  /-- It is none of those that were refused. -/
  | looked
  /-- For the lock of the client's access token. -/
  | waiting
  | refreshing
  | requesting (accessToken : String)
  /-- There was no access token to be had. -/
  | noAccess (error : FcmError)
  | answered (result : Except FcmError Unit)

inductive NotifyPhase where
  /-- The message is still to be stored. -/
  | selected
  | starting
  /-- There was no client. -/
  | silent
  | looking (client : ℕ) (rest : List String)
  | sending (client : ℕ) (token : String) (rest : List String) (phase : TokenPhase)
  | finished (left : List String)

/-- What a task did with a token. -/
inductive Handling where
  | passedOver
  | noAccess (error : FcmError)
  | answered (result : Except FcmError Unit)

structure NotifyTask where
  notification : Notification
  /-- `notify_start_time`. -/
  startedAt : ℤ
  phase : NotifyPhase
  handled : List (String × Handling)
  /-- What Firebase was sent: a device token with an access token. -/
  requested : List (String × String)

inductive NotifyAction where
  | tick (nanoseconds : ℕ)
  | changeCache (cache : NotificationCache)
  /-- `set_dynamic_config`, its write to the cache. -/
  | setFcm (enabled : Bool)
  /-- A message passes the checks of `send_message`. -/
  | select (i : ℕ) (serverId : String) (mentions : List ℤ) (payload : ChatMessagePayload)
  /-- It is not stored. -/
  | abandon (i : ℕ)
  | go (i : ℕ)
  /-- An access token with its `expires_in`, in seconds. -/
  | refreshed (i : ℕ) (result : Except FcmError (String × Option ℤ))
  | answered (i : ℕ) (result : Except FcmError Unit)
  | restart (enabled : Bool)

structure NotifySystem where
  now : ℤ
  cache : NotificationCache
  /-- All that were made since the start of the history, in this order. -/
  clients : List FcmClient
  /-- The instance in the cache. -/
  fcm : Option ℕ
  invalidDeviceTokens : List String
  tasks : ℕ → Option NotifyTask

namespace NotifySystem

def start (now : ℤ) : NotifySystem := ⟨now, ⟨.empty, .empty⟩, [], none, [], fun _ ↦ none⟩

def setTask (s : NotifySystem) (i : ℕ) (task : Option NotifyTask) : NotifySystem :=
  { s with tasks := Function.update s.tasks i task }

@[simp] theorem tasks_setTask (s : NotifySystem) (i : ℕ) (task : Option NotifyTask) :
    (s.setTask i task).tasks = Function.update s.tasks i task := rfl

def setClient (s : NotifySystem) (c : ℕ) (client : FcmClient) : NotifySystem :=
  { s with clients := s.clients.set c client }

def setFcm (s : NotifySystem) (enabled : Bool) : NotifySystem :=
  if enabled then
    { s with clients := s.clients ++ [⟨none, none⟩], fcm := some s.clients.length }
  else { s with fcm := none }

/-- What was in memory is gone. -/
def restart (s : NotifySystem) (enabled : Bool) : NotifySystem :=
  setFcm { s with
    clients := s.clients.map fun client ↦ { client with holder := none }
    invalidDeviceTokens := []
    tasks := fun _ ↦ none } enabled

/-- The lock is taken; `FcmClient::send` sends with the access token that is there, or asks for
another. -/
def lockToken (s : NotifySystem) (i : ℕ) (task : NotifyTask) (c : ℕ) (token : String)
    (rest : List String) (client : FcmClient) : NotifySystem :=
  match client.token.filter fun t ↦ !t.hasExpired s.now with
  | some t => s.setTask i (some { task with
      phase := .sending c token rest (.requesting t.accessToken)
      requested := task.requested ++ [(token, t.accessToken)] })
  | none => (s.setClient c { client with holder := some i }).setTask i
      (some { task with phase := .sending c token rest .refreshing })

/-- The end of a round of the loop of `send_notify`. -/
def record (s : NotifySystem) (i : ℕ) (task : NotifyTask) (c : ℕ) (token : String)
    (rest : List String) (error : Option FcmError) (handling : Handling) : NotifySystem :=
  { s with
    invalidDeviceTokens :=
      if error = some FcmError.badRequest then s.invalidDeviceTokens.insert token
      else s.invalidDeviceTokens }.setTask i
    (some { task with
      phase := .looking c rest
      handled := task.handled ++ [(token, handling)] })

/-- What a task goes on with by itself. -/
def advance (s : NotifySystem) (i : ℕ) (task : NotifyTask) : Option NotifySystem :=
  match task.phase with
  | .selected =>
    some (if task.notification.tokens = [] then s.setTask i none
      else s.setTask i (some { task with startedAt := s.now, phase := .starting }))
  | .starting => some (s.setTask i (some { task with
      phase := match s.fcm with
        | some c => .looking c task.notification.tokens
        | none => .silent }))
  | .looking _ [] => some (s.setTask i (some { task with phase := .finished [] }))
  | .looking c (token :: rest) =>
    some (if s.invalidDeviceTokens.contains token then s.record i task c token rest none .passedOver
      else s.setTask i (some { task with phase := .sending c token rest .looked }))
  | .sending c token rest .looked => some (s.setTask i (some { task with
      phase := if s.now - task.startedAt > 60 * second then .finished (token :: rest)
        else .sending c token rest .waiting }))
  | .sending c token rest .waiting => do
    let client ← s.clients[c]?
    if client.holder = none then some (s.lockToken i task c token rest client) else none
  | .sending c token rest (.noAccess error) =>
    some (s.record i task c token rest (some error) (.noAccess error))
  | .sending c token rest (.answered result) =>
    let error := match result with
      | .ok _ => none
      | .error error => some error
    some (s.record i task c token rest error (.answered result))
  | .sending _ _ _ .refreshing | .sending _ _ _ (.requesting _) | .silent | .finished _ => none

/-- The answer to `refresh_token`. The lock is let go of. -/
def takeToken (s : NotifySystem) (i : ℕ) (task : NotifyTask) (c : ℕ) (token : String)
    (rest : List String) (client : FcmClient) (result : Except FcmError (String × Option ℤ)) :
    NotifySystem :=
  match result with
  | .ok (accessToken, expiresIn) =>
    let expiresAt := expiresIn.map fun seconds ↦ s.now + seconds * second
    (s.setClient c ⟨some ⟨accessToken, expiresAt⟩, none⟩).setTask i
      (some { task with phase := .sending c token rest .waiting })
  | .error error => (s.setClient c { client with holder := none }).setTask i
      (some { task with phase := .sending c token rest (.noAccess error) })

def step (s : NotifySystem) : NotifyAction → Option NotifySystem
  | .tick nanoseconds => some { s with now := s.now + nanoseconds }
  | .changeCache cache => some { s with cache := cache }
  | .setFcm enabled => some (s.setFcm enabled)
  | .select i serverId mentions payload =>
    if s.tasks i = none ∧ mentions.isPerm payload.detail.mentions.dedup then
      (s.cache.notification serverId s.now mentions payload).map fun n ↦
        s.setTask i (some ⟨n, s.now, .selected, [], []⟩)
    else none
  | .abandon i => do
    let task ← s.tasks i
    match task.phase with
    | .selected => some (s.setTask i none)
    | _ => none
  | .go i => do s.advance i (← s.tasks i)
  | .refreshed i result => do
    let task ← s.tasks i
    match task.phase with
    | .sending c token rest .refreshing =>
      (s.clients[c]?).map fun client ↦ s.takeToken i task c token rest client result
    | _ => none
  | .answered i result => do
    let task ← s.tasks i
    match task.phase with
    | .sending c token rest (.requesting _) => some (s.setTask i (some { task with
        phase := .sending c token rest (.answered result) }))
    | _ => none
  | .restart enabled => some (s.restart enabled)

/-! ### What a step does -/

section

variable {s : NotifySystem} {i : ℕ} {task : NotifyTask} {c : ℕ} {token : String}
  {rest : List String}

theorem step_go (htask : s.tasks i = some task) : s.step (.go i) = s.advance i task := by
  show (s.tasks i).bind _ = _
  rw [htask, Option.bind_some]

theorem advance_looking (hphase : task.phase = .looking c (token :: rest)) :
    s.advance i task = some (if s.invalidDeviceTokens.contains token then
      s.record i task c token rest none .passedOver
      else s.setTask i (some { task with phase := .sending c token rest .looked })) := by
  rw [advance, hphase]

theorem advance_waiting (hphase : task.phase = .sending c token rest .waiting) :
    s.advance i task = s.clients[c]?.bind fun client ↦
      if client.holder = none then some (s.lockToken i task c token rest client) else none := by
  rw [advance, hphase]
  rfl

end

/-- The moves of a task that change nothing else. -/
inductive Moves (s : NotifySystem) : NotifyTask → NotifyTask → Prop
  | spawn {task : NotifyTask} (h : task.phase = .selected) :
    Moves s task { task with startedAt := s.now, phase := .starting }
  | silent {task : NotifyTask} (h : task.phase = .starting) :
    Moves s task { task with phase := .silent }
  | begins {task : NotifyTask} {c : ℕ} (h : task.phase = .starting) (hfcm : s.fcm = some c) :
    Moves s task { task with phase := .looking c task.notification.tokens }
  | ends {task : NotifyTask} {c : ℕ} (h : task.phase = .looking c []) :
    Moves s task { task with phase := .finished [] }
  | passesOver {task : NotifyTask} {c : ℕ} {token : String} {rest : List String}
    (h : task.phase = .looking c (token :: rest)) (hin : token ∈ s.invalidDeviceTokens) :
    Moves s task { task with
      phase := .looking c rest
      handled := task.handled ++ [(token, .passedOver)] }
  | looks {task : NotifyTask} {c : ℕ} {token : String} {rest : List String}
    (h : task.phase = .looking c (token :: rest)) (hin : token ∉ s.invalidDeviceTokens) :
    Moves s task { task with phase := .sending c token rest .looked }
  | stops {task : NotifyTask} {c : ℕ} {token : String} {rest : List String}
    (h : task.phase = .sending c token rest .looked)
    (hlate : s.now - task.startedAt > 60 * second) :
    Moves s task { task with phase := .finished (token :: rest) }
  | waits {task : NotifyTask} {c : ℕ} {token : String} {rest : List String}
    (h : task.phase = .sending c token rest .looked) :
    Moves s task { task with phase := .sending c token rest .waiting }
  | requests {task : NotifyTask} {c : ℕ} {token : String} {rest : List String}
    {client : FcmClient} {t : FcmToken} (h : task.phase = .sending c token rest .waiting)
    (hclient : s.clients[c]? = some client) (hfree : client.holder = none)
    (ht : client.token = some t) (hexpired : t.hasExpired s.now = false) :
    Moves s task { task with
      phase := .sending c token rest (.requesting t.accessToken)
      requested := task.requested ++ [(token, t.accessToken)] }
  | answered {task : NotifyTask} {c : ℕ} {token : String} {rest : List String}
    {accessToken : String} (h : task.phase = .sending c token rest (.requesting accessToken))
    (result : Except FcmError Unit) :
    Moves s task { task with phase := .sending c token rest (.answered result) }

/-- A round of `send_notify` that ends with its token refused, or not. -/
inductive Ends : TokenPhase → Option FcmError → Handling → Prop
  | noAccess (error : FcmError) : Ends (.noAccess error) (some error) (.noAccess error)
  | refused (error : FcmError) :
    Ends (.answered (.error error)) (some error) (.answered (.error error))
  | sent : Ends (.answered (.ok ())) none (.answered (.ok ()))

inductive Did (s : NotifySystem) : NotifyAction → NotifySystem → Prop
  | tick (nanoseconds : ℕ) : Did s (.tick nanoseconds) { s with now := s.now + nanoseconds }
  | changeCache (cache : NotificationCache) : Did s (.changeCache cache) { s with cache := cache }
  | setFcm (enabled : Bool) : Did s (.setFcm enabled) (s.setFcm enabled)
  | restart (enabled : Bool) : Did s (.restart enabled) (s.restart enabled)
  | select {i : ℕ} {serverId : String} {mentions : List ℤ} {payload : ChatMessagePayload}
    {n : Notification} (hfree : s.tasks i = none)
    (hmentions : mentions.Perm payload.detail.mentions.dedup)
    (hn : s.cache.notification serverId s.now mentions payload = some n) :
    Did s (.select i serverId mentions payload)
      (s.setTask i (some ⟨n, s.now, .selected, [], []⟩))
  | drops {i : ℕ} {task : NotifyTask} {a : NotifyAction} (ha : a = .abandon i ∨ a = .go i)
    (htask : s.tasks i = some task) (h : task.phase = .selected) : Did s a (s.setTask i none)
  | moves {i : ℕ} {task task' : NotifyTask} {a : NotifyAction}
    (ha : a = .go i ∨ ∃ result, a = .answered i result)
    (htask : s.tasks i = some task) (h : s.Moves task task') : Did s a (s.setTask i (some task'))
  | locks {i : ℕ} {task : NotifyTask} {c : ℕ} {token : String} {rest : List String}
    {client : FcmClient} (htask : s.tasks i = some task)
    (h : task.phase = .sending c token rest .waiting) (hclient : s.clients[c]? = some client)
    (hfree : client.holder = none)
    (hexpired : ∀ t, client.token = some t → t.hasExpired s.now = true) :
    Did s (.go i) ((s.setClient c { client with holder := some i }).setTask i
      (some { task with phase := .sending c token rest .refreshing }))
  | takes {i : ℕ} {task : NotifyTask} {c : ℕ} {token : String} {rest : List String}
    {client : FcmClient} (htask : s.tasks i = some task)
    (h : task.phase = .sending c token rest .refreshing) (hclient : s.clients[c]? = some client)
    (accessToken : String) (expiresIn : Option ℤ) :
    Did s (.refreshed i (.ok (accessToken, expiresIn)))
      ((s.setClient c ⟨some ⟨accessToken, expiresIn.map fun n ↦ s.now + n * second⟩,
        none⟩).setTask i (some { task with phase := .sending c token rest .waiting }))
  | fails {i : ℕ} {task : NotifyTask} {c : ℕ} {token : String} {rest : List String}
    {client : FcmClient} (htask : s.tasks i = some task)
    (h : task.phase = .sending c token rest .refreshing) (hclient : s.clients[c]? = some client)
    (error : FcmError) :
    Did s (.refreshed i (.error error)) ((s.setClient c { client with holder := none }).setTask i
      (some { task with phase := .sending c token rest (.noAccess error) }))
  | records {i : ℕ} {task : NotifyTask} {c : ℕ} {token : String} {rest : List String}
    {phase : TokenPhase} {error : Option FcmError} {handling : Handling}
    (htask : s.tasks i = some task) (h : task.phase = .sending c token rest phase)
    (hends : Ends phase error handling) :
    Did s (.go i) (s.record i task c token rest error handling)

variable {s t : NotifySystem} {a : NotifyAction}

theorem did_advance {i : ℕ} {task : NotifyTask} (htask : s.tasks i = some task)
    (h : s.advance i task = some t) : s.Did (.go i) t := by
  rw [advance] at h
  split at h
  · rename_i hphase
    obtain rfl := Option.some.inj h
    split
    · exact .drops (.inr rfl) htask hphase
    · exact .moves (.inl rfl) htask (.spawn hphase)
  · rename_i hphase
    obtain rfl := Option.some.inj h
    cases hfcm : s.fcm with
    | none => exact .moves (.inl rfl) htask (.silent hphase)
    | some c => exact .moves (.inl rfl) htask (.begins hphase hfcm)
  · rename_i hphase
    obtain rfl := Option.some.inj h
    exact .moves (.inl rfl) htask (.ends hphase)
  · rename_i hphase
    obtain rfl := Option.some.inj h
    split
    · rename_i hin
      exact .moves (.inl rfl) htask (.passesOver hphase (List.contains_iff_mem.1 hin))
    · rename_i hin
      exact .moves (.inl rfl) htask (.looks hphase fun hmem ↦ hin (List.contains_iff_mem.2 hmem))
  · rename_i hphase
    obtain rfl := Option.some.inj h
    split
    · rename_i hlate
      exact .moves (.inl rfl) htask (.stops hphase hlate)
    · exact .moves (.inl rfl) htask (.waits hphase)
  · rename_i hphase
    obtain ⟨client, hclient, h⟩ := Option.bind_eq_some_iff.1 h
    split at h
    · rename_i hfree
      obtain rfl := Option.some.inj h
      rw [lockToken]
      split
      · rename_i t ht
        obtain ⟨ht, hexpired⟩ := Option.filter_eq_some_iff.1 ht
        rw [Bool.not_eq_true'] at hexpired
        exact .moves (.inl rfl) htask (.requests hphase hclient hfree ht hexpired)
      · rename_i hnone
        refine .locks htask hphase hclient hfree fun t ht ↦ ?_
        simpa [ht] using hnone
    · cases h
  · rename_i hphase
    obtain rfl := Option.some.inj h
    exact .records htask hphase (.noAccess _)
  · rename_i result hphase
    obtain rfl := Option.some.inj h
    cases result with
    | ok _ => exact .records htask hphase .sent
    | error error => exact .records htask hphase (.refused error)
  · cases h
  · cases h
  · cases h
  · cases h

/-- **What a step does.** -/
theorem did (h : s.step a = some t) : s.Did a t := by
  cases a with
  | tick nanoseconds =>
    obtain rfl := Option.some.inj h
    exact .tick nanoseconds
  | changeCache cache =>
    obtain rfl := Option.some.inj h
    exact .changeCache cache
  | setFcm enabled =>
    obtain rfl := Option.some.inj h
    exact .setFcm enabled
  | restart enabled =>
    obtain rfl := Option.some.inj h
    exact .restart enabled
  | select i serverId mentions payload =>
    rw [step] at h
    split at h
    · rename_i hguard
      obtain ⟨n, hn, rfl⟩ := Option.map_eq_some_iff.1 h
      exact .select hguard.1 (List.isPerm_iff.1 hguard.2) hn
    · cases h
  | abandon i =>
    obtain ⟨task, htask, h⟩ := Option.bind_eq_some_iff.1 h
    split at h
    · rename_i hphase
      obtain rfl := Option.some.inj h
      exact .drops (.inl rfl) htask hphase
    · cases h
  | go i =>
    obtain ⟨task, htask, h⟩ := Option.bind_eq_some_iff.1 h
    exact did_advance htask h
  | refreshed i result =>
    obtain ⟨task, htask, h⟩ := Option.bind_eq_some_iff.1 h
    split at h
    · rename_i hphase
      obtain ⟨client, hclient, rfl⟩ := Option.map_eq_some_iff.1 h
      cases result with
      | ok result => exact .takes htask hphase hclient result.1 result.2
      | error error => exact .fails htask hphase hclient error
    · cases h
  | answered i result =>
    obtain ⟨task, htask, h⟩ := Option.bind_eq_some_iff.1 h
    split at h
    · rename_i hphase
      obtain rfl := Option.some.inj h
      exact .moves (.inr ⟨result, rfl⟩) htask (.answered hphase result)
    · cases h

end NotifySystem

end VoceChat
