import VoceChat.Foundations.LockScripts

/-!
# The locks of the requests

Three locks are shared by the requests of the server: the cache and the key configuration, which
many may read at a time, and the license, which one has at a time. What a request does with them is
given here as code with scoped guards (`Code`), where all that depends on the request, on the data
or on another service is a choice: each definition follows its function of the source guard by
guard, early returns and the scopes of the guards included.

`login` has the key configuration for all of its run and takes it and the cache within;
`checkLicense` has the license when it takes the cache, `createUser` takes the license with the
cache. Each of the two can be part of a deadlock: in the first a waiting update of the secret comes
between two reads of one request, in the second the two locks are taken in both orders. Nothing else
can: `deadlockFree_of_careful`.
-/

namespace VoceChat

namespace Locking

open FairLocks FairLocks.Code

/-- The locks: `State::cache`, `State::key_config` and `G_LICENSE`. -/
inductive ServerLock where
  | cache
  | keyConfig
  | license
  deriving DecidableEq

/-! ### What the functions do with the locks -/

def getDynamicConfigInstance : Code ServerLock := hold .cache .read skip

def magicCodeCheckCode : Code ServerLock := hold .cache .write skip

def loginMagicCodeRemove : Code ServerLock := hold .cache .write skip

/-- The license is had until the end, and the cache is read with it if the host is not the local one
and the license is good for it. -/
def checkLicense : Code ServerLock :=
  block [mayExit, hold .license .write (block [mayExit, hold .cache .read skip])]

/-- The limit of the license is read with the cache; the cache is had until the guard that is
returned is dropped. -/
def createUser : Code ServerLock :=
  block [mayExit, hold .cache .write (hold .license .write skip)]

def doLogin : Code ServerLock :=
  hold .cache .write (block [mayExit, hold .keyConfig .read skip])

/-- A name is chosen, the user is made, and an error of this ends the login. -/
def assignAndCreate : Code ServerLock :=
  block [hold .cache .write skip, call createUser, mayExit]

/-- The user of the credential is known, or is made if whoever asks may register. -/
def findOrCreate : Code ServerLock := optional (block [mayExit, assignAndCreate])

/-- The same, where a user with this email address becomes the user of the credential. -/
def findOrBind : Code ServerLock :=
  optional (block [mayExit, hold .cache .read skip, oneOf mayExit [assignAndCreate]])

/-- The arms of `login`, by the kind of the credential. -/
inductive Credential where
  | password
  | magicLink
  | googleIdToken
  | githubCode
  | openIdConnect
  | metaMask
  | thirdParty
  deriving DecidableEq

/-- How the user of a credential is found. -/
def Credential.uid : Credential → Code ServerLock
  | password => block [mayExit, hold .cache .read skip, mayExit, mayExit,
      optional (hold .cache .write skip)]
  | magicLink => block [hold .keyConfig .read skip, mayExit, magicCodeCheckCode,
      optional (block [loginMagicCodeRemove, exit]),
      oneOf skip [block [mayExit, assignAndCreate], exit]]
  | googleIdToken => block [mayExit, findOrBind]
  | githubCode => block [mayExit, findOrBind]
  | openIdConnect => block [mayExit, findOrCreate]
  | metaMask => block [mayExit, findOrCreate]
  | thirdParty => block [mayExit, hold .keyConfig .read (block [mayExit, optional assignAndCreate])]

/-- The key configuration is had from the magic token on until the end. -/
def login (credential : Credential) : Code ServerLock :=
  block [call checkLicense, mayExit, getDynamicConfigInstance,
    hold .keyConfig .read (block [mayExit, optional (block [magicCodeCheckCode, mayExit]),
      credential.uid, call doLogin])]

def enforceE2eRequired : Code ServerLock :=
  block [getDynamicConfigInstance, mayExit, optional (hold .cache .read skip)]

/-- The cache is had until the end, and the key configuration is read with it for a notification. -/
def sendMessage : Code ServerLock :=
  block [mayExit, call enforceE2eRequired, mayExit,
    hold .cache .read (block [mayExit, optional (hold .keyConfig .read skip), mayExit])]

/-- The task that `send_message` leaves behind for the notifications. -/
def sendNotify : Code ServerLock := getDynamicConfigInstance

def updateThirdPartySecret : Code ServerLock := block [mayExit, hold .keyConfig .write skip]

/-- What a task runs. -/
inductive Call where
  | login (credential : Credential)
  | doLogin
  | createUser
  | checkLicense
  | sendMessage
  | sendNotify
  | updateThirdPartySecret

def Call.code : Call → Code ServerLock
  | login credential => Locking.login credential
  | doLogin => Locking.doLogin
  | createUser => Locking.createUser
  | checkLicense => Locking.checkLicense
  | sendMessage => Locking.sendMessage
  | sendNotify => Locking.sendNotify
  | updateThirdPartySecret => Locking.updateThirdPartySecret

/-- The tasks, each with its call and the choices that are made in it, before the first step. -/
def begin (tasks : ℕ → Call × List Bool) : FairLocks.State ServerLock :=
  .start fun u ↦ (tasks u).1.code.script (tasks u).2

/-! ### The discipline of the functions -/

/-- With the key configuration to be written, nothing else is taken, and neither the cache nor the
license is taken twice; the license is a mutex. -/
def Allows (held : List (ServerLock × Mode)) (l : ServerLock) (m : Mode) : Prop :=
  (.keyConfig, .write) ∉ held ∧ (l ≠ .keyConfig → l ∉ held.map Prod.fst) ∧
    (l = .license → m = .write)

instance (held : List (ServerLock × Mode)) (l : ServerLock) (m : Mode) :
    Decidable (Allows held l m) :=
  inferInstanceAs (Decidable (_ ∧ _ ∧ _))

/-- All functions take their locks so. -/
theorem disciplined_code (call : Call) : call.code.Disciplined Allows [] := by
  cases call with
  | login credential => cases credential <;> decide
  | _ => decide

theorem follows_script (tasks : ℕ → Call × List Bool) (u : ℕ) :
    Follows Allows [] ((tasks u).1.code.script (tasks u).2) :=
  (disciplined_code (tasks u).1).follows (tasks u).2

/-! ### Which requests make a deadlock -/

/-- The next step is to write the key configuration, or to take the license while the cache is had.
-/
def Patient (ops : List (Op ServerLock)) : Prop :=
  ops.head? = some (.acquire .keyConfig .write) ∨
    ops.head? = some (.acquire .license .write) ∧ .cache ∈ owed ops

instance : DecidablePred Patient := fun _ ↦ inferInstanceAs (Decidable (_ ∨ _ ∧ _))

variable {s : FairLocks.State ServerLock} {tasks : Set ℕ}

/-- What holds at all times of a run in which those with such a step are careful. -/
def Orderly (s : FairLocks.State ServerLock) : Prop :=
  s.Sound ∧ (s.Typed Allows ∧ s.Yielding Patient) ∧ s.Blocked

/-- In a deadlock nobody waits patiently: the first of its tasks in the queue would wait for an
owner that waits, and that would give the lock back before. -/
theorem Orderly.not_patient (hs : Orderly s) (h : s.Deadlocked tasks) {l : ServerLock}
    {e : ℕ × Mode}
    (he : e ∈ (s.locks l).queue) (htask : e.1 ∈ tasks) : ¬Patient (s.rest e.1) := by
  intro hpatient
  obtain ⟨hsound, ⟨htyped, hyielding⟩, -⟩ := hs
  obtain ⟨v, -, m, k, m', howner, hwaits⟩ := h.exists_owner hsound he htask
  obtain ⟨front, back, hqueue⟩ := List.append_of_mem he
  obtain ⟨ops, hops⟩ := hsound.asked k (v, m') hwaits
  exact htyped.not_yields howner hops ((hyielding l front e back hqueue hpatient).1 _ howner)

/-- No owner of the key configuration that may write it waits. -/
theorem Orderly.reads_of_waits (hs : Orderly s) {v : ℕ} {m m' : Mode} {k : ServerLock}
    (howner : (v, m) ∈ (s.locks .keyConfig).holders) (hwaits : (v, m') ∈ (s.locks k).queue) :
    m = .read := by
  obtain ⟨hsound, ⟨htyped, -⟩, -⟩ := hs
  obtain ⟨ops, hops⟩ := hsound.asked k (v, m') hwaits
  obtain ⟨-, held, hallows, -, hwrite⟩ := htyped.of_owner (List.mem_map_of_mem howner) hops
  cases m with
  | read => rfl
  | write => exact absurd (hwrite howner) hallows.1

/-- In a deadlock nobody waits for the key configuration: the first in the queue would be a writer,
since its owner does not write. -/
theorem Orderly.not_waits_keyConfig (hs : Orderly s) (h : s.Deadlocked tasks) {e : ℕ × Mode}
    (he : e ∈ (s.locks .keyConfig).queue) (htask : e.1 ∈ tasks) : False := by
  obtain ⟨v, -, m, k, m', howner, hwaits⟩ := h.exists_owner hs.1 he htask
  have hread := hs.reads_of_waits howner hwaits
  obtain ⟨hsound, ⟨htyped, hyielding⟩, hblocked⟩ := hs
  obtain ⟨ops, hops⟩ := hsound.asked k (v, m') hwaits
  cases hqueue : (s.locks .keyConfig).queue with
  | nil =>
    rw [hqueue] at he
    exact List.not_mem_nil he
  | cons f queue =>
    have hf : f ∈ (s.locks .keyConfig).queue := hqueue ▸ List.mem_cons_self
    obtain ⟨ops', hops'⟩ := hsound.asked .keyConfig f hf
    obtain ⟨w, mode⟩ := f
    cases mode with
    | read =>
      refine hblocked .keyConfig _ queue hqueue fun g hg ↦ ?_
      obtain ⟨x, mode'⟩ := g
      cases mode' with
      | read => rfl
      | write =>
        have halone := hsound.exclusive .keyConfig x hg
        rw [halone] at howner
        cases (Prod.mk.inj (List.mem_singleton.1 howner)).2.symm.trans hread
    | write =>
      have hpatient : Patient (s.rest w) := .inl (by rw [hops']; rfl)
      exact htyped.not_yields howner hops
        ((hyielding .keyConfig [] (w, .write) queue hqueue hpatient).1 _ howner)

/-- An owner of the cache or the license waits for another lock than this. -/
theorem Orderly.ne_of_waits (hs : Orderly s) {v : ℕ} {m m' : Mode} {l k : ServerLock}
    (hl : l ≠ .keyConfig) (howner : (v, m) ∈ (s.locks l).holders)
    (hwaits : (v, m') ∈ (s.locks k).queue) : k ≠ l := by
  rintro rfl
  obtain ⟨hsound, ⟨htyped, -⟩, -⟩ := hs
  obtain ⟨ops, hops⟩ := hsound.asked k (v, m') hwaits
  obtain ⟨-, held, hallows, hmem, -⟩ := htyped.of_owner (List.mem_map_of_mem howner) hops
  exact hallows.2.1 hl hmem

/-- In a deadlock nobody waits for the cache: its owner would wait for the license. -/
theorem Orderly.not_waits_cache (hs : Orderly s) (h : s.Deadlocked tasks) {e : ℕ × Mode}
    (he : e ∈ (s.locks .cache).queue) (htask : e.1 ∈ tasks) : False := by
  obtain ⟨v, hv, m, k, m', howner, hwaits⟩ := h.exists_owner hs.1 he htask
  cases k with
  | cache => exact hs.ne_of_waits (by decide) howner hwaits rfl
  | keyConfig => exact hs.not_waits_keyConfig h hwaits hv
  | license =>
    refine hs.not_patient h hwaits hv ?_
    obtain ⟨hsound, ⟨htyped, -⟩, -⟩ := hs
    obtain ⟨ops, hops⟩ := hsound.asked .license (v, m') hwaits
    obtain ⟨howed, held, hallows, -, -⟩ := htyped.of_owner (List.mem_map_of_mem howner) hops
    obtain rfl : m' = .write := hallows.2.2 rfl
    exact .inr ⟨by rw [hops]; rfl, howed⟩

/-- A deadlock needs a careless step. -/
theorem Orderly.not_deadlocked (hs : Orderly s) : ¬s.Deadlocked tasks := by
  intro h
  obtain ⟨t, ht⟩ := h.1
  obtain ⟨-, -, -, l, front, m, back, hqueue, -⟩ := h.2 t ht
  have hwaits : (t, m) ∈ (s.locks l).queue := hqueue ▸ by simp
  cases l with
  | cache => exact hs.not_waits_cache h hwaits ht
  | keyConfig => exact hs.not_waits_keyConfig h hwaits ht
  | license =>
    obtain ⟨v, hv, m, k, m', howner, hwaits'⟩ := h.exists_owner hs.1 hwaits ht
    cases k with
    | cache => exact hs.not_waits_cache h hwaits' hv
    | keyConfig => exact hs.not_waits_keyConfig h hwaits' hv
    | license => exact hs.ne_of_waits (by decide) howner hwaits' rfl

/-- **No deadlock without a careless step**: as long as a task asks to write the key configuration,
or for the license while it has the cache, only when those who have that lock or wait for it give it
back before they take another one, no tasks ever wait for each other. -/
theorem deadlockFree_of_careful (tasks : ℕ → Call × List Bool) (schedule : List ℕ)
    (hcareful : Transition.Along (Transition.total FairLocks.State.run)
      (FairLocks.State.Careful Patient) (begin tasks) schedule) (waiting : Set ℕ) :
    ¬(schedule.foldl FairLocks.State.run (begin tasks)).Deadlocked waiting :=
  Orderly.not_deadlocked (FairLocks.State.careful_run (follows_script tasks) hcareful)

/-- A user is made while the license is checked, and the secret is changed during a login from the
local host. -/
def conflicting (u : ℕ) : Call × List Bool :=
  if u = 0 then (.createUser, []) else
  if u = 1 then (.checkLicense, []) else
  if u = 2 then (.login .metaMask, [false, true]) else (.updateThirdPartySecret, [])

theorem deadlockFree_of_careful_conflicting :
    ¬([3, 3, 0, 0, 1, 0, 2, 2, 2, 0, 1, 1, 2, 2, 2, 2, 2, 2, 2].foldl FairLocks.State.run
      (begin conflicting)).Deadlocked {u | u < 4} :=
  deadlockFree_of_careful conflicting _ (Transition.along_of_check (by decide)) _

/-- The license is checked with the cache to be read, by a user to be made with the license to be
taken; and a login reads the key configuration twice, with the new secret to be written between. -/
theorem deadlocked_conflicting :
    ([0, 1, 0, 1].foldl FairLocks.State.run (begin conflicting)).Deadlocked {u | u = 0 ∨ u = 1} ∧
      ([2, 2, 2, 2, 2, 2, 3, 2].foldl FairLocks.State.run (begin conflicting)).Deadlocked
        {u | u = 2 ∨ u = 3} := by
  refine ⟨⟨⟨0, .inl rfl⟩, ?_⟩, ⟨2, .inl rfl⟩, ?_⟩
  · rintro t (rfl | rfl)
    · exact ⟨1, .inr rfl, by decide, .license, [], .write, [], by decide, .inl (by decide)⟩
    · exact ⟨0, .inl rfl, by decide, .cache, [], .read, [], by decide, .inl (by decide)⟩
  · rintro t (rfl | rfl)
    · -- behind the writer, for what it has already
      exact ⟨3, .inr rfl, by decide, .keyConfig, [(3, .write)], .read, [], by decide,
        .inr (by decide)⟩
    · exact ⟨2, .inl rfl, by decide, .keyConfig, [], .write, [(2, .read)], by decide,
        .inl (by decide)⟩

end Locking

end VoceChat
