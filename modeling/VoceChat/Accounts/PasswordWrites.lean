import VoceChat.Accounts.PasswordLogin

/-!
# Writing passwords (`change_password`, `login`, `update` and `create_user`)

A password is written to the database first and to the cache afterwards. The administrators'
`update` and `create_user` hold the cache for writing all the while; `change_password` and the
upgrade of a legacy hash in `login` take it for their last step only. So two requests for one user
can write the database in one order and the cache in the other, and an upgrade can put back the
password that it checked before another one was set.

`consistent_iff` says which interleavings do no harm: whenever the last of the writes under way for
a user reaches the cache, the database has what it writes, and an upgrade writes a hash of the
password that is the user's.
-/

namespace VoceChat

namespace PasswordHashing

variable (ph : PasswordHashing)

/-- A password is right for what is stored. -/
def isRight (plaintext stored : String) : Bool := (ph.verifyAndUpgrade "" plaintext stored).matched

/-- What is stored accepts the password, and no other, unless it is an MD5 digest. -/
structure Accepts (password stored : String) : Prop where
  accepted : ph.isRight password stored = true
  only : ∀ other, ph.isRight other stored = true → other = password ∨
    looksLikeDoubleMd5 stored = true

variable {ph}

/-- The salt is for the hash that replaces a legacy one. -/
theorem verifyAndUpgrade_matched (salt plaintext stored : String) :
    (ph.verifyAndUpgrade salt plaintext stored).matched = ph.isRight plaintext stored := by
  rw [isRight, verifyAndUpgrade, verifyAndUpgrade]
  split
  · rfl
  · dsimp only
    generalize (if looksLikeDoubleMd5 stored then _ else _ : Bool) = legacyMatch
    cases legacyMatch <;> rfl

theorem verifyAndUpgrade_upgradedHash {salt plaintext stored hash : String}
    (h : (ph.verifyAndUpgrade salt plaintext stored).upgradedHash = some hash) :
    ph.hash salt plaintext = some hash := by
  rw [verifyAndUpgrade] at h
  split at h
  · cases h
  · dsimp only at h
    generalize (if looksLikeDoubleMd5 stored then _ else _ : Bool) = legacyMatch at h
    cases legacyMatch with
    | true => exact h
    | false => cases h

/-- A hash accepts the password it was made of. -/
theorem Lawful.accepts_iff (h : ph.Lawful) {given password stored : String}
    (hstored : ph.IsHashOf password stored) : ph.Accepts given stored ↔ given = password := by
  obtain ⟨salt, hhash⟩ := hstored
  have hright : ∀ other, ph.isRight other stored = true ↔ other = password := fun other ↦ by
    rw [isRight, h.verifyAndUpgrade_hash hhash, decide_eq_true_iff]
  constructor
  · exact fun haccepts ↦ (hright given).1 haccepts.accepted
  · rintro rfl
    exact ⟨(hright given).2 rfl, fun other hother ↦ Or.inl ((hright other).1 hother)⟩

end PasswordHashing

/-! ### The requests, step by step -/

/-- The requests that write passwords. -/
inductive PasswordOp where
  | changePassword (uid : ℤ) (oldPassword newPassword : String)
  | adminUpdate (uid : ℤ) (password : String)
  | createUser (password : Option String)
  /-- A login by a user with this id, as found by its email. -/
  | login (uid : ℤ) (password : String)
  deriving DecidableEq

namespace PasswordOp

/-- The user whose password is written; a user that is created has no id yet. -/
def uid : PasswordOp → Option ℤ
  | changePassword uid _ _ => some uid
  | adminUpdate uid _ => some uid
  | createUser _ => none
  | login uid _ => some uid

/-- The password that is written. -/
def plaintext : PasswordOp → Option String
  | changePassword _ _ newPassword => some newPassword
  | adminUpdate _ password => some password
  | createUser password => password
  | login _ password => some password

/-- The request holds the cache from its checks to its end. -/
def holdsCache : PasswordOp → Bool
  | adminUpdate .. | createUser _ => true
  | changePassword .. | login .. => false

def isLogin : PasswordOp → Bool
  | login .. => true
  | changePassword .. | adminUpdate .. | createUser _ => false

end PasswordOp

inductive PasswordTask where
  | requested (op : PasswordOp)
  /-- The checks have passed, and there is something to store. -/
  | ready (op : PasswordOp) (hash : Option String)
  /-- The database has it, the cache does not yet. -/
  | written (op : PasswordOp) (uid : ℤ) (hash : Option String)
  deriving DecidableEq

/-- The passwords in the database and in the cache. There is a `none` for a user without one. -/
structure PasswordSystem where
  db : ℤ → Option (Option String)
  cache : ℤ → Option (Option String)
  nextUid : ℤ
  /-- The request that holds the cache for writing. -/
  writer : Option ℕ
  tasks : ℕ → Option PasswordTask
  /-- The password that the last completed request has set for a user. -/
  current : ℤ → Option String

inductive PasswordStep where
  | start (i : ℕ) (op : PasswordOp)
  | check (i : ℕ) (salt : String)
  | writeDb (i : ℕ)
  | writeCache (i : ℕ)
  /-- A check fails, or the database does. -/
  | fail (i : ℕ)

/-- The users that a server starts with, and their passwords. They can have legacy hashes. -/
structure StoredPasswords (ph : PasswordHashing) where
  stored : ℤ → Option (Option String)
  given : ℤ → Option String
  nextUid : ℤ
  accepts : ∀ uid password, stored uid = some password → Option.Rel ph.Accepts (given uid) password

namespace PasswordSystem

variable (ph : PasswordHashing)

def start {ph : PasswordHashing} (users : StoredPasswords ph) : PasswordSystem where
  db := users.stored
  cache := users.stored
  nextUid := users.nextUid
  writer := none
  tasks _ := none
  current := users.given

def setTask (s : PasswordSystem) (i : ℕ) (task : Option PasswordTask) : PasswordSystem :=
  { s with tasks := Function.update s.tasks i task }

/-- The checks of a request, and what it is going to store. A login has nothing to store unless it
has checked a legacy hash. -/
def prepare (s : PasswordSystem) (salt : String) : PasswordOp → Option (Option String)
  | .changePassword uid oldPassword newPassword => do
    let stored ← (s.cache uid).join
    if (ph.verifyAndUpgrade salt oldPassword stored).matched then
      (ph.hash salt newPassword).map some
    else none
  | .adminUpdate uid password => do
    let _ ← s.cache uid
    (ph.hash salt password).map some
  | .createUser password => (Accounts.hashPassword ph salt password).toOption
  | .login uid password => do
    let stored ← (s.cache uid).join
    let outcome := ph.verifyAndUpgrade salt password stored
    if outcome.matched then outcome.upgradedHash.map some else none

/-- One step of a request. A step for which its task is not ready, or that has to wait for the
cache, does nothing. -/
def perform (s : PasswordSystem) : PasswordStep → PasswordSystem
  | .start i op =>
    match s.tasks i with
    | none => s.setTask i (some (.requested op))
    | some _ => s
  | .check i salt =>
    match s.tasks i, s.writer with
    | some (.requested op), none =>
      match s.prepare ph salt op with
      | some hash => { s.setTask i (some (.ready op hash)) with
          writer := if op.holdsCache then some i else none }
      | none => s.setTask i none
    | _, _ => s
  | .writeDb i =>
    match s.tasks i with
    | some (.ready op hash) =>
      let uid := op.uid.getD s.nextUid
      { s.setTask i (some (.written op uid hash)) with
        db := if op.uid.isNone || (s.db uid).isSome then Function.update s.db uid (some hash)
          else s.db
        nextUid := if op.uid.isNone then s.nextUid + 1 else s.nextUid }
    | _ => s
  | .writeCache i =>
    match s.tasks i with
    | some (.written op uid hash) =>
      if s.writer = none ∨ s.writer = some i then
        { s.setTask i none with
          cache := if op.uid.isNone || (s.cache uid).isSome then
            Function.update s.cache uid (some hash) else s.cache
          writer := none
          current := if op.isLogin then s.current else Function.update s.current uid op.plaintext }
      else s
    | _ => s
  | .fail i =>
    match s.tasks i with
    | some (.written ..) => s
    | _ => { s.setTask i none with writer := if s.writer = some i then none else s.writer }

/-- No write of the user's password is under way. -/
def Settled (s : PasswordSystem) (uid : ℤ) : Prop :=
  ∀ i op hash, s.tasks i ≠ some (.written op uid hash)

/-- The database and the cache have the same password for every user that no write is under way for,
so for all users when no request is in progress; and the cache accepts the password that the last
completed request has set. Logins set none, so they do not change what is accepted. -/
structure Consistent (s : PasswordSystem) : Prop where
  stored : ∀ uid, s.Settled uid → s.db uid = s.cache uid
  accepts : ∀ uid password, s.cache uid = some password →
    Option.Rel ph.Accepts (s.current uid) password

/-- The last of the writes under way for a user finds its hash in the database, and an upgrade is of
the user's password. -/
def Orderly (s : PasswordSystem) : PasswordStep → Prop
  | .writeCache i => s.writer = none ∨ s.writer = some i →
      ∀ op uid hash, s.tasks i = some (.written op uid hash) →
        ((∀ j op' hash', j ≠ i → s.tasks j ≠ some (.written op' uid hash')) →
          s.db uid = some hash) ∧
          (op.isLogin = true → s.current uid = op.plaintext)
  | _ => True

/-- What a task is going to store is a hash of the password to set, for a user that is there. -/
def TaskOk (cache : ℤ → Option (Option String)) : PasswordTask → Prop
  | .requested _ => True
  | .ready op hash => Option.Rel ph.IsHashOf op.plaintext hash ∧
      ∀ uid, op.uid = some uid → (cache uid).isSome = true
  | .written op uid hash => Option.Rel ph.IsHashOf op.plaintext hash ∧
      ∀ uid', op.uid = some uid' → uid' = uid ∧ (cache uid).isSome = true

def Inv (s : PasswordSystem) : Prop := ∀ i task, s.tasks i = some task → TaskOk ph s.cache task

variable {ph} {s t : PasswordSystem} {i : ℕ} {op : PasswordOp} {uid : ℤ} {hash : Option String}

/-! ### The invariant -/

theorem rel_of_hashPassword {salt : String} {password : Option String}
    (h : (Accounts.hashPassword ph salt password).toOption = some hash) :
    Option.Rel ph.IsHashOf password hash := by
  cases hresult : Accounts.hashPassword ph salt password with
  | error e =>
    rw [hresult] at h
    cases h
  | ok hash' =>
    rw [hresult] at h
    obtain rfl := Option.some.inj h
    exact GivenAccounts.rel_of_hashPassword hresult

theorem rel_of_map_hash {salt password : String}
    (h : (ph.hash salt password).map some = some hash) :
    Option.Rel ph.IsHashOf (some password) hash := by
  obtain ⟨stored, hstored, rfl⟩ := Option.map_eq_some_iff.1 h
  exact .some ⟨salt, hstored⟩

theorem isSome_of_join {o : Option (Option String)} {stored : String} (h : o.join = some stored) :
    o.isSome = true := by
  cases o with
  | none => cases h
  | some password => rfl

theorem taskOk_ready_of_prepare {salt : String} (h : s.prepare ph salt op = some hash) :
    TaskOk ph s.cache (.ready op hash) := by
  cases op with
  | createUser password => exact ⟨rel_of_hashPassword h, fun uid huid ↦ by cases huid⟩
  | adminUpdate uid password =>
    obtain ⟨stored, hstored, hhash⟩ := Option.bind_eq_some_iff.1 h
    refine ⟨rel_of_map_hash hhash, fun uid' huid ↦ ?_⟩
    obtain rfl := Option.some.inj huid
    rw [hstored]
    rfl
  | changePassword uid oldPassword newPassword =>
    obtain ⟨stored, hstored, hhash⟩ := Option.bind_eq_some_iff.1 h
    split at hhash
    · refine ⟨rel_of_map_hash hhash, fun uid' huid ↦ ?_⟩
      obtain rfl := Option.some.inj huid
      exact isSome_of_join hstored
    · cases hhash
  | login uid password =>
    obtain ⟨stored, hstored, hhash⟩ := Option.bind_eq_some_iff.1 h
    dsimp only at hhash
    split at hhash
    · obtain ⟨upgradedHash, hupgraded, rfl⟩ := Option.map_eq_some_iff.1 hhash
      refine ⟨.some ⟨salt, PasswordHashing.verifyAndUpgrade_upgradedHash hupgraded⟩,
        fun uid' huid ↦ ?_⟩
      obtain rfl := Option.some.inj huid
      exact isSome_of_join hstored
    · cases hhash

theorem TaskOk.mono {cache cache' : ℤ → Option (Option String)} {task : PasswordTask}
    (h : TaskOk ph cache task) (hcache : ∀ uid, (cache uid).isSome = true →
      (cache' uid).isSome = true) :
    TaskOk ph cache' task := by
  cases task with
  | requested op => trivial
  | ready op hash => exact ⟨h.1, fun uid huid ↦ hcache uid (h.2 uid huid)⟩
  | written op uid hash =>
    exact ⟨h.1, fun uid' huid ↦ ⟨(h.2 uid' huid).1, hcache uid (h.2 uid' huid).2⟩⟩

/-- A step sets one task, and takes no user out of the cache. -/
theorem Inv.step (h : s.Inv ph) {task : Option PasswordTask}
    (htask : ∀ u, task = some u → TaskOk ph s.cache u)
    (htasks : t.tasks = Function.update s.tasks i task)
    (hcache : ∀ uid, (s.cache uid).isSome = true → (t.cache uid).isSome = true) : t.Inv ph := by
  intro j u hj
  rw [htasks, Function.update_apply] at hj
  split at hj
  · exact (htask u hj).mono hcache
  · exact (h j u hj).mono hcache

theorem Inv.step_none (h : s.Inv ph) (htasks : t.tasks = Function.update s.tasks i none)
    (hcache : ∀ uid, (s.cache uid).isSome = true → (t.cache uid).isSome = true) : t.Inv ph :=
  h.step (fun u hu ↦ by cases hu) htasks hcache

/-- A user that is written to the cache is in it. -/
theorem isSome_ite_update {cache : ℤ → Option (Option String)} {c : Prop} [Decidable c] (uid' : ℤ)
    (h : (cache uid').isSome = true) :
    ((if c then Function.update cache uid (some hash) else cache) uid').isSome = true := by
  split
  · rw [Function.update_apply]
    split
    · rfl
    · exact h
  · exact h

theorem Inv.perform (h : s.Inv ph) (a : PasswordStep) : (s.perform ph a).Inv ph := by
  cases a with
  | start i op =>
    rw [PasswordSystem.perform]
    split
    · refine h.step (fun u hu ↦ ?_) rfl fun _ ↦ id
      obtain rfl := Option.some.inj hu
      trivial
    · exact h
  | check i salt =>
    rw [PasswordSystem.perform]
    split
    · split
      · rename_i hprepare
        refine h.step (fun u hu ↦ ?_) rfl fun _ ↦ id
        obtain rfl := Option.some.inj hu
        exact taskOk_ready_of_prepare hprepare
      · exact h.step_none rfl fun _ ↦ id
    · exact h
  | writeDb i =>
    rw [PasswordSystem.perform]
    split
    · rename_i op hash hi
      obtain ⟨hhash, huid⟩ := h i _ hi
      refine h.step (fun u hu ↦ ?_) rfl fun _ ↦ id
      obtain rfl := Option.some.inj hu
      refine ⟨hhash, fun uid' huid' ↦ ?_⟩
      rw [huid', Option.getD_some]
      exact ⟨rfl, huid uid' huid'⟩
    · exact h
  | writeCache i =>
    rw [PasswordSystem.perform]
    split
    · split
      · exact h.step_none rfl isSome_ite_update
      · exact h
    · exact h
  | fail i =>
    rw [PasswordSystem.perform]
    split
    · exact h
    · exact h.step_none rfl fun _ ↦ id

/-! ### Which steps do harm -/

/-- Before the last step of a request, its task changes nothing that is settled. -/
theorem settled_of_setTask (hi : ∀ op uid hash, s.tasks i ≠ some (.written op uid hash))
    {task : Option PasswordTask} (htasks : t.tasks = Function.update s.tasks i task)
    (h : t.Settled uid) : s.Settled uid := by
  intro j op hash hj
  by_cases hji : j = i
  · exact hi op uid hash (hji ▸ hj)
  · refine h j op hash ?_
    rw [htasks, Function.update_of_ne hji]
    exact hj

theorem Consistent.of_settled (h : s.Consistent ph) (hcache : t.cache = s.cache)
    (hcurrent : t.current = s.current)
    (hsettled : ∀ uid, t.Settled uid → s.Settled uid ∧ t.db uid = s.db uid) : t.Consistent ph where
  stored uid huid := by
    obtain ⟨hbefore, hdb⟩ := hsettled uid huid
    rw [hdb, hcache]
    exact h.stored uid hbefore
  accepts uid password huid := by
    rw [hcurrent]
    exact h.accepts uid password (hcache ▸ huid)

theorem Consistent.setTask (h : s.Consistent ph)
    (hi : ∀ op uid hash, s.tasks i ≠ some (.written op uid hash)) (task : Option PasswordTask)
    (writer : Option ℕ) : Consistent ph { s.setTask i task with writer := writer } :=
  h.of_settled rfl rfl fun _ huid ↦ ⟨settled_of_setTask hi rfl huid, rfl⟩

/-- A user that the database is written for is not settled. -/
theorem Consistent.writeDb (h : s.Consistent ph) (hi : s.tasks i = some (.ready op hash)) :
    (s.perform ph (.writeDb i)).Consistent ph := by
  rw [perform, hi]
  refine h.of_settled rfl rfl fun uid huid ↦ ⟨settled_of_setTask ?_ rfl huid, ?_⟩
  · intro op' uid' hash' hwritten
    rw [hi] at hwritten
    cases hwritten
  · have hne : uid ≠ op.uid.getD s.nextUid := by
      rintro rfl
      exact huid i op hash (Function.update_self ..)
    show (if _ then Function.update s.db (op.uid.getD s.nextUid) (some hash) else s.db) uid = _
    split
    · exact Function.update_of_ne hne _ _
    · rfl

/-- What a request stores accepts the password that it sets; what an upgrade stores, the user's
password if it is the one that was given. -/
theorem accepts_iff_of_written (hph : ph.Lawful) (hhash : Option.Rel ph.IsHashOf op.plaintext hash)
    (given : Option String) :
    Option.Rel ph.Accepts given hash ↔ given = op.plaintext := by
  generalize op.plaintext = plaintext at hhash ⊢
  cases hhash with
  | none =>
    cases given with
    | none => exact iff_of_true .none rfl
    | some password => exact iff_of_false (fun h ↦ by cases h) (Option.some_ne_none _)
  | some hhash =>
    cases given with
    | none => exact iff_of_false (fun h ↦ by cases h) (Option.some_ne_none _).symm
    | some password =>
      rw [Option.some_inj, ← hph.accepts_iff hhash]
      exact ⟨fun h ↦ by cases h with | some h => exact h, .some⟩

/-- A hash has reached the cache. -/
def cached (s : PasswordSystem) (i : ℕ) (op : PasswordOp) (uid : ℤ) (hash : Option String) :
    PasswordSystem :=
  { s.setTask i none with
    cache := Function.update s.cache uid (some hash)
    writer := none
    current := if op.isLogin then s.current else Function.update s.current uid op.plaintext }

/-- The user is in the cache, or is being created. -/
theorem perform_writeCache (hinv : s.Inv ph) (hi : s.tasks i = some (.written op uid hash))
    (hwriter : s.writer = none ∨ s.writer = some i) :
    s.perform ph (.writeCache i) = s.cached i op uid hash := by
  have hput : (op.uid.isNone || (s.cache uid).isSome) = true := by
    cases hop : op.uid with
    | none => rfl
    | some uid' => exact Bool.or_eq_true_iff.2 (Or.inr ((hinv i _ hi).2 uid' hop).2)
  rw [perform, hi]
  dsimp only
  rw [if_pos hwriter, if_pos hput]
  rfl

theorem settled_cached_self : (s.cached i op uid hash).Settled uid ↔
    ∀ j op' hash', j ≠ i → s.tasks j ≠ some (.written op' uid hash') := by
  refine forall_congr' fun j ↦ forall₂_congr fun op' hash' ↦ ?_
  show Function.update s.tasks i none j ≠ _ ↔ _
  rw [Function.update_apply]
  split
  · rename_i hji
    exact iff_of_true (fun h ↦ by cases h) fun hne ↦ absurd hji hne
  · rename_i hji
    exact ⟨fun h _ ↦ h, fun h ↦ h hji⟩

theorem settled_of_cached (hi : s.tasks i = some (.written op uid hash)) {uid' : ℤ}
    (hne : uid' ≠ uid)
    (h : (s.cached i op uid hash).Settled uid') : s.Settled uid' := by
  intro j op' hash' hj
  by_cases hji : j = i
  · obtain rfl := hji
    rw [hi] at hj
    cases hj
    exact hne rfl
  · refine h j op' hash' ?_
    show Function.update s.tasks i none j = _
    rw [Function.update_of_ne hji]
    exact hj

/-- The user's password after the write: the one that is set, or the one it was. -/
theorem current_cached_iff : (s.cached i op uid hash).current uid = op.plaintext ↔
    (op.isLogin = true → s.current uid = op.plaintext) := by
  show (if op.isLogin then s.current else Function.update s.current uid op.plaintext) uid = _ ↔ _
  cases op.isLogin with
  | true => exact ⟨fun h _ ↦ h, fun h ↦ h rfl⟩
  | false => exact iff_of_true (Function.update_self ..) fun h ↦ by cases h

theorem current_cached_of_ne {uid' : ℤ} (hne : uid' ≠ uid) :
    (s.cached i op uid hash).current uid' = s.current uid' := by
  show (if op.isLogin then s.current else Function.update s.current uid op.plaintext) uid' = _
  split
  · rfl
  · exact Function.update_of_ne hne _ _

theorem consistent_cached_iff (hph : ph.Lawful) (hinv : s.Inv ph) (h : s.Consistent ph)
    (hi : s.tasks i = some (.written op uid hash)) :
    (s.cached i op uid hash).Consistent ph ↔
      ((∀ j op' hash', j ≠ i → s.tasks j ≠ some (.written op' uid hash')) → s.db uid = some hash) ∧
        (op.isLogin = true → s.current uid = op.plaintext) := by
  have hcache : (s.cached i op uid hash).cache uid = some hash := Function.update_self ..
  have hself : (s.cached i op uid hash).Settled uid ↔ _ := settled_cached_self
  have hcurrent : (s.cached i op uid hash).current uid = op.plaintext ↔ _ := current_cached_iff
  rw [← hself, ← hcurrent, ← accepts_iff_of_written hph (hinv i _ hi).1]
  constructor
  · intro hafter
    exact ⟨fun hsettled ↦ (hafter.stored uid hsettled).trans hcache, hafter.accepts uid hash hcache⟩
  · rintro ⟨hdb, haccepts⟩
    constructor
    · intro uid' hsettled
      by_cases huid : uid' = uid
      · obtain rfl := huid
        exact (hdb hsettled).trans hcache.symm
      · refine (h.stored uid' (settled_of_cached hi huid hsettled)).trans ?_
        exact (Function.update_of_ne huid _ _).symm
    · intro uid' password hpassword
      by_cases huid : uid' = uid
      · obtain rfl := huid
        obtain rfl := Option.some.inj (hcache.symm.trans hpassword)
        exact haccepts
      · rw [current_cached_of_ne huid]
        refine h.accepts uid' password (Eq.trans ?_ hpassword)
        exact (Function.update_of_ne huid _ _).symm

/-- **A step keeps database and cache consistent** exactly when it is orderly. -/
theorem consistent_perform_iff (hph : ph.Lawful) (hinv : s.Inv ph) (h : s.Consistent ph)
    (a : PasswordStep) : (s.perform ph a).Consistent ph ↔ s.Orderly a := by
  cases a with
  | start i op =>
    refine iff_of_true ?_ trivial
    rw [perform]
    split
    · rename_i hi
      exact h.setTask (fun _ _ _ hwritten ↦ by rw [hi] at hwritten; cases hwritten) _ _
    · exact h
  | check i salt =>
    refine iff_of_true ?_ trivial
    rw [perform]
    split
    · rename_i hi _
      have hnot : ∀ op uid hash, s.tasks i ≠ some (.written op uid hash) := by
        intro op uid hash hwritten
        rw [hi] at hwritten
        cases hwritten
      split
      · exact h.setTask hnot _ _
      · exact h.setTask hnot none _
    · exact h
  | writeDb i =>
    refine iff_of_true ?_ trivial
    cases hi : s.tasks i with
    | none =>
      rw [perform, hi]
      exact h
    | some task =>
      cases task with
      | ready op hash => exact h.writeDb hi
      | requested op =>
        rw [perform, hi]
        exact h
      | written op uid hash =>
        rw [perform, hi]
        exact h
  | writeCache i =>
    rw [Orderly]
    by_cases hwritten : ∃ op uid hash, s.tasks i = some (.written op uid hash)
    · obtain ⟨op, uid, hash, hi⟩ := hwritten
      by_cases hwriter : s.writer = none ∨ s.writer = some i
      · rw [perform_writeCache hinv hi hwriter, consistent_cached_iff hph hinv h hi]
        refine ⟨fun horderly _ op' uid' hash' hi' ↦ ?_,
          fun horderly ↦ horderly hwriter op uid hash hi⟩
        obtain ⟨rfl, rfl, rfl⟩ := PasswordTask.written.inj (Option.some.inj (hi.symm.trans hi'))
        exact horderly
      · refine iff_of_true ?_ fun hfree ↦ absurd hfree hwriter
        rw [perform, hi]
        dsimp only
        rw [if_neg hwriter]
        exact h
    · refine iff_of_true ?_ fun _ op uid hash hi ↦ absurd ⟨op, uid, hash, hi⟩ hwritten
      rw [perform]
      split
      · rename_i op uid hash hi
        exact absurd ⟨op, uid, hash, hi⟩ hwritten
      · exact h
  | fail i =>
    refine iff_of_true ?_ trivial
    rw [perform]
    split
    · exact h
    · rename_i hi
      exact h.setTask (fun op uid hash ↦ hi op uid hash) none _

theorem inv_start (users : StoredPasswords ph) : (start users).Inv ph :=
  fun _ _ h ↦ by cases h

theorem consistent_start (users : StoredPasswords ph) : (start users).Consistent ph where
  stored _ _ := rfl
  accepts uid password h := users.accepts uid password h

/-- **The passwords in the database and in the cache**, along every interleaving, from any users on:
they agree whenever no write is under way, and the cache accepts what the last completed request has
set, exactly when every write of the cache finds the database and the user's password as it left
them. -/
theorem consistent_iff (ph : PasswordHashing) (hph : ph.Lawful) (users : StoredPasswords ph)
    (as : List PasswordStep) :
    (∀ cs, cs <+: as → (cs.foldl (perform ph) (start users)).Consistent ph) ↔
      Transition.Along (Transition.total (perform ph)) Orderly (start users) as :=
  Transition.forall_prefix_iff_along (I := Inv ph) (P := Consistent ph)
    (fun _ a hinv ↦ hinv.perform a)
    (fun _ a hinv h ↦ consistent_perform_iff hph hinv h a) (inv_start users)
    (consistent_start users) as

/-- One user, whose password is `old`. -/
def oneUser : StoredPasswords .transparent where
  stored uid := if uid = 1 then some (some "$argon2id$old") else none
  given uid := if uid = 1 then some "old" else none
  nextUid := 2
  accepts uid password h := by
    split at h
    · rename_i huid
      obtain rfl := Option.some.inj h
      rw [if_pos huid]
      exact .some ((PasswordHashing.transparent_lawful.accepts_iff ⟨"", by decide +kernel⟩).2 rfl)
    · cases h

/-- A password change by itself. -/
theorem consistent_iff_oneUser :
    (([.start 0 (.changePassword 1 "old" "new"), .check 0 "s", .writeDb 0, .writeCache 0].foldl
      (perform .transparent) (start oneUser)).Consistent .transparent) := by
  refine (consistent_iff .transparent PasswordHashing.transparent_lawful oneUser
    [.start 0 (.changePassword 1 "old" "new"), .check 0 "s", .writeDb 0, .writeCache 0]).2 ?_ _
      List.prefix_rfl
  refine Transition.along_total_cons.2 ⟨trivial, Transition.along_total_cons.2 ⟨trivial,
    Transition.along_total_cons.2 ⟨trivial, Transition.along_total_cons.2 ⟨?_, trivial⟩⟩⟩⟩
  intro _ op uid hash hi
  have htask : (([.start 0 (.changePassword 1 "old" "new"), .check 0 "s", .writeDb 0].foldl
      (perform .transparent) (start oneUser)).tasks 0) =
        some (.written (.changePassword 1 "old" "new") 1 (some "$argon2id$new")) := by
    decide +kernel
  obtain ⟨rfl, rfl, rfl⟩ := PasswordTask.written.inj (Option.some.inj (htask.symm.trans hi))
  exact ⟨fun _ ↦ by decide +kernel, fun h ↦ by cases h⟩

/-- Two password changes write the database in one order and the cache in the other. When both are
done, the cache has the first password, and the database, which a restart reads, the second. -/
theorem not_forall_consistent : ¬∀ (ph : PasswordHashing) (_ : ph.Lawful)
    (users : StoredPasswords ph) (as : List PasswordStep),
    (∀ i, (as.foldl (perform ph) (start users)).tasks i = none) → ∀ uid,
      (as.foldl (perform ph) (start users)).db uid =
        (as.foldl (perform ph) (start users)).cache uid := by
  intro h
  have hstored := h .transparent PasswordHashing.transparent_lawful oneUser
    [.start 0 (.changePassword 1 "old" "new"), .start 1 (.changePassword 1 "old" "newer"),
      .check 0 "s", .check 1 "s", .writeDb 0, .writeDb 1, .writeCache 1, .writeCache 0]
    (fun i ↦ by rcases i with _ | _ | i <;> rfl) 1
  revert hstored
  decide +kernel

end PasswordSystem

end VoceChat
