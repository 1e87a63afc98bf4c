import VoceChat.Accounts.UserLog

/-!
# Logging in with a password (`login` in `src/api/token.rs`)

`login` looks for the user whose stored email is the lower case of the one given. The paths by which
an account gets its email do not agree on what to store: the administrators' `create` and
`create_admin_user` store the lower case, while `register`, the users of the configuration file and
the administrators' `update` store the email as it was given.

The system below runs all requests on accounts and remembers what was last given for each account
(`Given`). In every state, logging in with exactly that reaches the account if and only if the email
was lowered on its way in, or is its own lower case (`login_eq_ok_iff`).

`str::to_lowercase` is a parameter, and nothing is assumed of it.
-/

namespace VoceChat

open Guards

/-! ### The requests that give an account its email and password -/

inductive WhoCanSignUp where
  | everyOne
  | invitationOnly
  deriving DecidableEq, Repr

/-- A magic token for registering, as parsed. -/
structure MagicLinkRegister where
  isConfirmed : Bool
  extraEmail : Option String
  extraPassword : Option String
  deriving DecidableEq

structure RegisterRequest where
  email : Option String
  password : Option String
  gender : ℤ
  language : String
  deriving DecidableEq

structure CreateUserRequest where
  email : String
  password : String
  name : String
  gender : ℤ
  isAdmin : Bool
  language : String
  webhookUrl : Option String
  isBot : Bool
  deriving DecidableEq

structure CreateAdminRequest where
  email : String
  name : String
  password : String
  gender : ℤ
  deriving DecidableEq

/-- A user of the configuration file. -/
structure UserConfig where
  name : String
  password : String
  email : String
  gender : ℤ
  language : String
  isAdmin : Bool
  deriving DecidableEq

structure ChangePasswordRequest where
  oldPassword : String
  newPassword : String
  deriving DecidableEq

structure LoginCredentialPassword where
  email : String
  password : String
  deriving DecidableEq

/-- The answers of `login` that are no success. -/
inductive LoginError where
  /-- The licence is not in order. -/
  | license
  | loginMethodNotSupported
  | invalidAccount
  | userDoesNotExist
  | frozen
  deriving DecidableEq, Repr

namespace RegisterRequest

variable (req : RegisterRequest) (magicToken : Option MagicLinkRegister)

/-- The email that `register` uses: that of the request, or else of the token. -/
def givenEmail : String := (req.email.or (magicToken.bind MagicLinkRegister.extraEmail)).getD ""

def givenPassword : String :=
  (req.password.or (magicToken.bind MagicLinkRegister.extraPassword)).getD ""

end RegisterRequest

namespace Accounts

variable (ph : PasswordHashing) (toLowercase : String → String)

/-- `register`. A magic token is `none` inside when it cannot be parsed; the name is the one that
`assign_username` comes up with. -/
def register (userLimit : ℕ) (now : ℤ) (salt : String) (whoCanSignUp : WhoCanSignUp) (smtpOn : Bool)
    (magicToken : Option (Option MagicLinkRegister)) (name : String) (s : Accounts)
    (req : RegisterRequest) : Except AccountError (ℤ × Accounts) := do
  ensure (whoCanSignUp = .everyOne ∨ magicToken.isSome = true) .forbidden
  ensure (magicToken ≠ some none) .magicTokenExpired
  ensure (magicToken.join.all (fun mt ↦ !smtpOn || mt.isConfirmed) = true) .forbidden
  s.createUser ph userLimit now salt
    { name := name
      createBy := .password (req.givenEmail magicToken.join) (req.givenPassword magicToken.join)
      isAdmin := false, gender := req.gender, language := some req.language }

/-- `create` of the administrators. -/
def create (userLimit : ℕ) (now : ℤ) (salt : String) (webhookOk : String → Bool) (s : Accounts)
    (token : CurrentUser) (req : CreateUserRequest) : Except AccountError (ℤ × Accounts) := do
  ensure (token.isAdmin = true) .forbidden
  ensure (req.webhookUrl.all webhookOk = true) .invalidWebhookUrl
  s.createUser ph userLimit now salt
    { name := req.name, createBy := .password (toLowercase req.email) req.password
      isAdmin := req.isAdmin, gender := req.gender, language := some req.language
      isBot := req.isBot, webhookUrl := req.webhookUrl }

/-- `create_admin_user`: the first user of a server. -/
def createAdminUser (userLimit : ℕ) (now : ℤ) (salt : String) (s : Accounts)
    (req : CreateAdminRequest) : Except AccountError (ℤ × Accounts) := do
  ensure (s.users.entries = []) .forbidden
  s.createUser ph userLimit now salt
    { name := req.name, createBy := .password (toLowercase req.email) req.password
      isAdmin := true, gender := req.gender }

/-- A user of the configuration file, created as the server starts. -/
def createConfigUser (userLimit : ℕ) (now : ℤ) (salt : String) (s : Accounts) (user : UserConfig) :
    Except AccountError (ℤ × Accounts) :=
  s.createUser ph userLimit now salt
    { name := user.name, createBy := .password user.email user.password
      isAdmin := user.isAdmin, gender := user.gender, language := some user.language }

/-- A new hash for a user, in the database and in the cache. -/
def setPassword (s : Accounts) (uid : ℤ) (hash : String) : Accounts :=
  match s.users.get uid with
  | some user => s.putUser uid { user with password := some hash }
  | none => s

/-- `change_password`. -/
def changePassword (salt newSalt : String) (s : Accounts) (token : CurrentUser)
    (req : ChangePasswordRequest) : Except AccountError Accounts := do
  ensure (token.isGuest = false) .forbidden
  let user ← okOr (s.users.get token.uid) .unauthorized
  let stored ← okOr user.password .forbidden
  ensure ((ph.verifyAndUpgrade salt req.oldPassword stored).matched = true) .forbidden
  let newPasswordHash ← okOr (ph.hash newSalt req.newPassword) .internal
  return s.setPassword token.uid newPasswordHash

/-! ### Logging in -/

/-- The first user with an email. -/
def findByEmail (s : Accounts) (email : String) : Option (ℤ × CacheUser) :=
  s.users.entries.find? fun e ↦ e.2.email = some email

/-- The user that `do_login` lets in. -/
def loginUser (s : Accounts) (uid : ℤ) : Except LoginError CacheUser := do
  let user ← okOr (s.users.get uid) .userDoesNotExist
  ensure (user.status ≠ .frozen) .frozen
  return user

/-- The user that a password is right for, with a hash to store in place of a legacy one. -/
def checkPassword (salt : String) (s : Accounts) (credential : LoginCredentialPassword) :
    Except LoginError (ℤ × Option String) := do
  let (uid, user) ← okOr (s.findByEmail (toLowercase credential.email)) .userDoesNotExist
  let stored ← okOr user.password .invalidAccount
  let outcome := ph.verifyAndUpgrade salt credential.password stored
  ensure (outcome.matched = true) .invalidAccount
  return (uid, outcome.upgradedHash)

/-- What `login` knows about the server: the licence is in order, and password login enabled. -/
structure LoginConfig where
  licensed : Bool
  password : Bool
  deriving DecidableEq

/-- `login` with a password: the user that is logged in, and the users after it. -/
def login (config : LoginConfig) (salt : String) (s : Accounts)
    (credential : LoginCredentialPassword) : Except LoginError ℤ × Accounts :=
  let checked : Except LoginError (ℤ × Option String) := do
    ensure (config.licensed = true) .license
    ensure (config.password = true) .loginMethodNotSupported
    s.checkPassword ph toLowercase salt credential
  match checked with
  | .error e => (.error e, s)
  | .ok (uid, upgradedHash) =>
    let upgraded := (upgradedHash.map (s.setPassword uid)).getD s
    ((upgraded.loginUser uid).map fun _ ↦ uid, upgraded)

end Accounts

/-! ### What was given for each account -/

/-- The email and the password that were last given for an account. -/
structure Given where
  email : Option String := none
  /-- The email was lowered before it was stored. -/
  isLowered : Bool := false
  password : Option String := none
  deriving DecidableEq

/-- The email as it is stored. -/
def Given.stored (toLowercase : String → String) (g : Given) : Option String :=
  if g.isLowered then g.email.map toLowercase else g.email

/-- After an update by an administrator. -/
def Given.updated (g : Given) (req : UpdateUserRequest) : Given where
  email := req.email.or g.email
  isLowered := g.isLowered && req.email.isNone
  password := req.password.or g.password

/-- The accounts, and what was given for them. -/
structure GivenAccounts where
  accounts : Accounts
  given : ℤ → Given

/-- The requests on accounts. The ways of creating a user that are not listed by themselves, and all
updates and deletions, are `account`. -/
inductive LoginAction where
  | register (userLimit : ℕ) (now : ℤ) (salt : String) (whoCanSignUp : WhoCanSignUp)
      (smtpOn : Bool) (magicToken : Option (Option MagicLinkRegister)) (name : String)
      (req : RegisterRequest)
  | create (userLimit : ℕ) (now : ℤ) (salt : String) (webhookOk : String → Bool)
      (token : CurrentUser) (req : CreateUserRequest)
  | createAdminUser (userLimit : ℕ) (now : ℤ) (salt : String) (req : CreateAdminRequest)
  | createConfigUser (userLimit : ℕ) (now : ℤ) (salt : String) (user : UserConfig)
  | account (a : AccountAction)
  | changePassword (salt newSalt : String) (token : CurrentUser) (req : ChangePasswordRequest)
  | login (config : Accounts.LoginConfig) (salt : String) (credential : LoginCredentialPassword)

namespace GivenAccounts

variable (ph : PasswordHashing) (toLowercase : String → String)

def start : GivenAccounts := ⟨.start, fun _ ↦ {}⟩

/-- A user is created with what was given. -/
def created (s : GivenAccounts) (g : Given) (result : Except AccountError (ℤ × Accounts)) :
    GivenAccounts :=
  match result with
  | .ok (uid, t) => ⟨t, Function.update s.given uid g⟩
  | .error _ => s

/-- What was given for a user is replaced. -/
def changed (s : GivenAccounts) (uid : ℤ) (g : Given) (result : Except AccountError Accounts) :
    GivenAccounts :=
  match result with
  | .ok t => ⟨t, Function.update s.given uid g⟩
  | .error _ => s

/-- What a request does. -/
def perform (s : GivenAccounts) : LoginAction → GivenAccounts
  | .register userLimit now salt whoCanSignUp smtpOn magicToken name req =>
    s.created
      { email := some (req.givenEmail magicToken.join)
        password := some (req.givenPassword magicToken.join) }
      (s.accounts.register ph userLimit now salt whoCanSignUp smtpOn magicToken name req)
  | .create userLimit now salt webhookOk token req =>
    s.created { email := some req.email, isLowered := true, password := some req.password }
      (s.accounts.create ph toLowercase userLimit now salt webhookOk token req)
  | .createAdminUser userLimit now salt req =>
    s.created { email := some req.email, isLowered := true, password := some req.password }
      (s.accounts.createAdminUser ph toLowercase userLimit now salt req)
  | .createConfigUser userLimit now salt user =>
    s.created { email := some user.email, password := some user.password }
      (s.accounts.createConfigUser ph userLimit now salt user)
  | .account (.createUser userLimit now salt req) =>
    s.created { email := req.createBy.getEmail, password := req.createBy.getPassword }
      (s.accounts.createUser ph userLimit now salt req)
  | .account (.adminUpdate salt webhookOk token uid req) =>
    s.changed uid ((s.given uid).updated req)
      (s.accounts.adminUpdate ph webhookOk salt token uid req)
  | .account a => { s with accounts := s.accounts.perform ph a }
  | .changePassword salt newSalt token req =>
    s.changed token.uid { s.given token.uid with password := some req.newPassword }
      (s.accounts.changePassword ph salt newSalt token req)
  | .login config salt credential =>
    { s with accounts := (s.accounts.login ph toLowercase config salt credential).2 }

/-- The accounts after some requests. -/
def after (as : List LoginAction) : GivenAccounts := as.foldl (perform ph toLowercase) start

/-! ### What the cache holds of what was given -/

/-- A user has what was given for it: the email as its path stores it, and a hash. -/
structure Holds (g : Given) (user : Accounts.CacheUser) : Prop where
  email : user.email = g.stored toLowercase
  password : Option.Rel ph.IsHashOf g.password user.password

/-- No other user has an email, in any spelling. -/
def IsOwn (s : Accounts) (uid : ℤ) (email : Option String) : Prop :=
  ∀ e ∈ email, ∀ uid' user', s.users.get uid' = some user' →
    ∀ e' ∈ user'.email, eqIgnoreAsciiCase e' e = true → uid' = uid

/-- Every user has what was given for it, and its email to itself. -/
structure Inv (s : GivenAccounts) : Prop where
  holds : ∀ uid user, s.accounts.users.get uid = some user →
    Holds ph toLowercase (s.given uid) user
  isOwn : ∀ uid user, s.accounts.users.get uid = some user → IsOwn s.accounts uid user.email

/-- A result that adds a user with what was given. -/
def Creates (s : Accounts) (g : Given) (result : Except AccountError (ℤ × Accounts)) : Prop :=
  ∀ uid t, result = .ok (uid, t) → ∃ user, Holds ph toLowercase g user ∧
    IsOwn s uid user.email ∧ t.users = s.users.insert uid user

/-- A result that gives a user what was given. -/
def Changes (s : Accounts) (uid : ℤ) (g : Given) (result : Except AccountError Accounts) : Prop :=
  ∀ t, result = .ok t → ∃ user, Holds ph toLowercase g user ∧ IsOwn s uid user.email ∧
    t.users = s.users.insert uid user

variable {ph toLowercase} {s : GivenAccounts} {t : Accounts} {uid : ℤ} {user : Accounts.CacheUser}

theorem inv_start : Inv ph toLowercase start where
  holds uid user h := by cases h
  isOwn uid user h := by cases h

/-- A user is put that has what was given for it, with an email that nobody else has. -/
theorem Inv.put (h : Inv ph toLowercase s) {g : Given} (hholds : Holds ph toLowercase g user)
    (hown : IsOwn s.accounts uid user.email) (ht : t.users = s.accounts.users.insert uid user) :
    Inv ph toLowercase ⟨t, Function.update s.given uid g⟩ where
  holds uid' user' hget := by
    change t.users.get uid' = some user' at hget
    show Holds ph toLowercase (Function.update s.given uid g uid') user'
    rw [ht, OrderedMap.get_insert] at hget
    rw [Function.update_apply]
    split at hget
    · rename_i huid
      obtain rfl := Option.some.inj hget
      rw [if_pos huid]
      exact hholds
    · rename_i huid
      rw [if_neg huid]
      exact h.holds uid' user' hget
  isOwn uid₁ user₁ hget₁ e he uid₂ user₂ hget₂ e' he' heq := by
    change t.users.get uid₁ = some user₁ at hget₁
    change t.users.get uid₂ = some user₂ at hget₂
    rw [ht, OrderedMap.get_insert] at hget₁ hget₂
    split at hget₁ <;> split at hget₂
    · rename_i h₁ h₂
      exact h₂.trans h₁.symm
    · rename_i h₁ h₂
      obtain rfl := Option.some.inj hget₁
      exact (hown e he uid₂ user₂ hget₂ e' he' heq).trans h₁.symm
    · rename_i h₁ h₂
      obtain rfl := Option.some.inj hget₂
      rw [eqIgnoreAsciiCase_comm] at heq
      exact h₂.trans (hown e' he' uid₁ user₁ hget₁ e he heq).symm
    · exact h.isOwn uid₁ user₁ hget₁ e he uid₂ user₂ hget₂ e' he' heq

/-- Every user was one before, with the same email and password. -/
def KeepsCredentials (s t : Accounts) : Prop :=
  ∀ uid user, t.users.get uid = some user →
    ∃ old, s.users.get uid = some old ∧ old.email = user.email ∧ old.password = user.password

theorem Inv.of_keepsCredentials (h : Inv ph toLowercase s)
    (hkeeps : KeepsCredentials s.accounts t) :
    Inv ph toLowercase { s with accounts := t } where
  holds uid user hget := by
    obtain ⟨old, hold, hemail, hpassword⟩ := hkeeps uid user hget
    have hholds := h.holds uid old hold
    exact ⟨hemail ▸ hholds.email, hpassword ▸ hholds.password⟩
  isOwn uid user hget e he uid' user' hget' e' he' := by
    obtain ⟨old, hold, hemail, -⟩ := hkeeps uid user hget
    obtain ⟨old', hold', hemail', -⟩ := hkeeps uid' user' hget'
    rw [← hemail] at he
    rw [← hemail'] at he'
    exact h.isOwn uid old hold e he uid' old' hold' e' he'

theorem keepsCredentials_refl (t : Accounts) : KeepsCredentials t t :=
  fun _ user hget ↦ ⟨user, hget, rfl, rfl⟩

theorem keepsCredentials_putUser {old : Accounts.CacheUser} (hold : t.users.get uid = some old)
    (hemail : old.email = user.email) (hpassword : old.password = user.password) :
    KeepsCredentials t (t.putUser uid user) := by
  intro uid' user' hget
  rw [Accounts.putUser, OrderedMap.get_insert] at hget
  split at hget
  · rename_i huid
    obtain rfl := Option.some.inj hget
    exact ⟨old, huid ▸ hold, hemail, hpassword⟩
  · exact ⟨user', hget, rfl, rfl⟩

theorem keepsCredentials_erase (t : Accounts) (uid : ℤ) :
    KeepsCredentials t { t with users := t.users.erase uid } := by
  intro uid' user' hget
  rw [OrderedMap.get_erase] at hget
  split at hget
  · cases hget
  · exact ⟨user', hget, rfl, rfl⟩

/-! ### Creating and changing users -/

theorem isOwn_of_checkEmailConflict {email : Option String}
    (h : email.all t.checkEmailConflict = true) (uid : ℤ) : IsOwn t uid email := by
  intro e he uid' user' hget e' he' heq
  rw [Option.all_eq_true] at h
  have hfree := h e he
  rw [Accounts.checkEmailConflict, Bool.not_eq_true', List.any_eq_false] at hfree
  refine absurd ?_ (hfree (uid', user') (OrderedMap.get_eq_some.1 hget))
  show (user'.email.any fun userEmail ↦ eqIgnoreAsciiCase userEmail e) = true
  rw [Option.mem_def.1 he']
  exact heq

theorem rel_of_hashPassword {salt : String} {password hash : Option String}
    (h : Accounts.hashPassword ph salt password = .ok hash) :
    Option.Rel ph.IsHashOf password hash := by
  cases password with
  | none =>
    obtain rfl := Except.ok.inj h
    exact .none
  | some plaintext =>
    rw [Accounts.hashPassword, map_eq_ok] at h
    obtain ⟨stored, hstored, rfl⟩ := h
    exact .some ⟨salt, okOr_eq_ok.1 hstored⟩

theorem Inv.created (h : Inv ph toLowercase s) {g : Given}
    {result : Except AccountError (ℤ × Accounts)}
    (hresult : Creates ph toLowercase s.accounts g result) :
    Inv ph toLowercase (s.created g result) := by
  rw [GivenAccounts.created.eq_def]
  split
  · rename_i uid t
    obtain ⟨user, hholds, hown, ht⟩ := hresult uid t rfl
    exact h.put hholds hown ht
  · exact h

theorem Inv.changed (h : Inv ph toLowercase s) {g : Given} {result : Except AccountError Accounts}
    (hresult : Changes ph toLowercase s.accounts uid g result) :
    Inv ph toLowercase (s.changed uid g result) := by
  rw [GivenAccounts.changed.eq_def]
  split
  · rename_i t
    obtain ⟨user, hholds, hown, ht⟩ := hresult t rfl
    exact h.put hholds hown ht
  · exact h

/-- `create_user` gives a user what it is asked to, when the path to it stores the email that way.
-/
theorem creates_createUser (s : Accounts) (userLimit : ℕ) (now : ℤ) (salt : String)
    {req : CreateUser} {g : Given} (hemail : g.stored toLowercase = req.createBy.getEmail)
    (hpassword : g.password = req.createBy.getPassword) :
    Creates ph toLowercase s g (s.createUser ph userLimit now salt req) := by
  intro uid t h
  obtain ⟨hash, hhash, -, -, hfree, heq⟩ := Accounts.createUser_eq_ok_iff.1 h
  obtain ⟨rfl, rfl⟩ := Prod.ext_iff.1 heq
  refine ⟨req.toUser now hash, ⟨hemail.symm, ?_⟩, isOwn_of_checkEmailConflict hfree _, ?_⟩
  · rw [hpassword]
    exact rel_of_hashPassword hhash
  · show (if req.isGuest then _ else _ : Accounts).users = _
    split <;> rfl

/-- A check before a user is created. -/
theorem Creates.ensure {s : Accounts} {g : Given} {result : Except AccountError (ℤ × Accounts)}
    (h : Creates ph toLowercase s g result) {p : Prop} [Decidable p] {e : AccountError} :
    Creates ph toLowercase s g (do Guards.ensure p e; result) := by
  intro uid t heq
  rw [bind_eq_ok] at heq
  obtain ⟨-, -, heq⟩ := heq
  exact h uid t heq

theorem changes_adminUpdate (h : Inv ph toLowercase s) (salt : String) (webhookOk : String → Bool)
    (token : CurrentUser) (uid : ℤ) (req : UpdateUserRequest) :
    Changes ph toLowercase s.accounts uid ((s.given uid).updated req)
      (s.accounts.adminUpdate ph webhookOk salt token uid req) := by
  intro t hok
  obtain ⟨-, -, hash, hhash, hfree, -, -, user, huser, rfl⟩ := Accounts.adminUpdate_eq_ok_iff.1 hok
  have hholds := h.holds uid user huser
  refine ⟨req.updated hash user, ⟨?_, ?_⟩, ?_, rfl⟩
  · show req.email.or user.email = ((s.given uid).updated req).stored toLowercase
    rw [Given.updated, Given.stored, hholds.email, Given.stored]
    cases req.email with
    | none => rw [Option.isNone_none, Bool.and_true, Option.none_or, Option.none_or]
    | some e => rw [Option.isNone_some, Bool.and_false, Option.some_or, Option.some_or]; rfl
  · show Option.Rel ph.IsHashOf (req.password.or (s.given uid).password) (hash.or user.password)
    have hrel : Option.Rel ph.IsHashOf req.password hash := rel_of_hashPassword hhash
    generalize req.password = password at hrel ⊢
    cases hrel with
    | none => exact hholds.password
    | some hrel => exact .some hrel
  · show IsOwn s.accounts uid (req.email.or user.email)
    generalize req.email = email at hfree ⊢
    cases email with
    | none => exact h.isOwn uid user huser
    | some e => exact isOwn_of_checkEmailConflict hfree uid

theorem changes_changePassword (h : Inv ph toLowercase s) (salt newSalt : String)
    (token : CurrentUser) (req : ChangePasswordRequest) :
    Changes ph toLowercase s.accounts token.uid
      { s.given token.uid with password := some req.newPassword }
      (s.accounts.changePassword ph salt newSalt token req) := by
  intro t hok
  simp only [Accounts.changePassword, ensure_eq_ok, bind_eq_ok, okOr_eq_ok, pure_eq_ok, exists_unit]
    at hok
  obtain ⟨-, user, huser, stored, -, -, hash, hhash, rfl⟩ := hok
  have hholds := h.holds token.uid user huser
  refine ⟨{ user with password := some hash }, ⟨hholds.email, .some ⟨newSalt, hhash⟩⟩,
    h.isOwn token.uid user huser, ?_⟩
  rw [Accounts.setPassword, huser]
  rfl

/-! ### Logging in changes nothing -/

/-- The stored passwords are hashes, so a password is right when it is the one given, and there is
nothing to replace. -/
theorem Holds.verifyAndUpgrade (hph : ph.Lawful) {g : Given} (h : Holds ph toLowercase g user)
    {password stored : String} (hg : g.password = some password)
    (hstored : user.password = some stored) (salt plaintext : String) :
    ph.verifyAndUpgrade salt plaintext stored = ⟨decide (plaintext = password), none⟩ := by
  have hrel := h.password
  rw [hg, hstored] at hrel
  obtain ⟨salt', hhash⟩ : ph.IsHashOf password stored := by
    cases hrel with
    | some hrel => exact hrel
  exact hph.verifyAndUpgrade_hash hhash salt plaintext

theorem Holds.password_isSome {g : Given} (h : Holds ph toLowercase g user) :
    g.password.isSome = user.password.isSome := by
  have hrel := h.password
  generalize g.password = password at hrel ⊢
  generalize user.password = stored at hrel ⊢
  cases hrel <;> rfl

/-- An email that a user has finds that user, and nobody else. -/
theorem Inv.findByEmail_eq_some (h : Inv ph toLowercase s) {email : String} :
    s.accounts.findByEmail email = some (uid, user) ↔
      s.accounts.users.get uid = some user ∧ user.email = some email := by
  rw [Accounts.findByEmail]
  constructor
  · intro hfind
    exact ⟨OrderedMap.get_eq_some.2 (List.mem_of_find?_eq_some hfind),
      by simpa using List.find?_some hfind⟩
  · rintro ⟨hget, hemail⟩
    cases hfind : s.accounts.users.entries.find? fun e ↦ decide (e.2.email = some email) with
    | none =>
      refine absurd ?_ (List.find?_eq_none.1 hfind _ (OrderedMap.get_eq_some.1 hget))
      exact decide_eq_true hemail
    | some e =>
      have hmem := List.mem_of_find?_eq_some hfind
      have hfound : e.2.email = some email := by simpa using List.find?_some hfind
      have hget' : s.accounts.users.get e.1 = some e.2 := OrderedMap.get_eq_some.2 hmem
      have huid : e.1 = uid :=
        h.isOwn uid user hget email hemail e.1 e.2 hget' email hfound (decide_eq_true rfl)
      obtain rfl := huid
      obtain rfl := Option.some.inj (hget'.symm.trans hget)
      rfl

/-- A password login is checked against what was given. -/
theorem Inv.checkPassword_eq_ok (hph : ph.Lawful) (h : Inv ph toLowercase s) {salt : String}
    {credential : LoginCredentialPassword} {upgradedHash : Option String} :
    s.accounts.checkPassword ph toLowercase salt credential = .ok (uid, upgradedHash) ↔
      (s.accounts.users.get uid).isSome = true ∧
      (s.given uid).stored toLowercase = some (toLowercase credential.email) ∧
      (s.given uid).password = some credential.password ∧ upgradedHash = none := by
  simp only [Accounts.checkPassword, ensure_eq_ok, bind_eq_ok, okOr_eq_ok, pure_eq_ok, exists_unit,
    Prod.exists, h.findByEmail_eq_some]
  constructor
  · rintro ⟨uid', user, ⟨hget, hemail⟩, stored, hstored, hmatched, heq⟩
    obtain ⟨rfl, rfl⟩ := Prod.ext_iff.1 heq
    have hholds := h.holds uid' user hget
    obtain ⟨password, hpassword⟩ : ∃ password, (s.given uid').password = some password := by
      rw [← Option.isSome_iff_exists, hholds.password_isSome, hstored]
      rfl
    rw [hholds.verifyAndUpgrade hph hpassword hstored] at hmatched ⊢
    refine ⟨by rw [hget]; rfl, hholds.email ▸ hemail, ?_, rfl⟩
    rw [hpassword, of_decide_eq_true hmatched]
  · rintro ⟨huser, hemail, hpassword, rfl⟩
    obtain ⟨user, hget⟩ := Option.isSome_iff_exists.1 huser
    have hholds := h.holds uid user hget
    obtain ⟨stored, hstored⟩ : ∃ stored, user.password = some stored := by
      rw [← Option.isSome_iff_exists, ← hholds.password_isSome, hpassword]
      rfl
    refine ⟨uid, user, ⟨hget, hholds.email.trans hemail⟩, stored, hstored, ?_⟩
    rw [hholds.verifyAndUpgrade hph hpassword hstored]
    exact ⟨decide_eq_true rfl, rfl⟩

theorem Inv.login_snd (hph : ph.Lawful) (h : Inv ph toLowercase s) (config : Accounts.LoginConfig)
    (salt : String) (credential : LoginCredentialPassword) :
    (s.accounts.login ph toLowercase config salt credential).2 = s.accounts := by
  rw [Accounts.login]
  split
  · rfl
  · rename_i uid upgradedHash hchecked
    simp only [ensure_eq_ok, bind_eq_ok, exists_unit] at hchecked
    obtain ⟨-, -, -, rfl⟩ := (h.checkPassword_eq_ok hph).1 hchecked.2.2
    rfl

/-! ### The invariant of the runs -/

theorem keepsCredentials_toOption {r : Except AccountError Accounts}
    (h : ∀ u, r = .ok u → KeepsCredentials t u) : KeepsCredentials t (r.toOption.getD t) := by
  cases r with
  | error e => exact keepsCredentials_refl t
  | ok u => exact h u rfl

theorem keepsCredentials_setAvatar {now : ℤ} {u : Accounts} (h : t.setAvatar uid now = .ok u) :
    KeepsCredentials t u := by
  obtain ⟨user, huser, rfl⟩ := Accounts.setAvatar_eq_ok_iff.1 h
  exact keepsCredentials_putUser huser rfl rfl

theorem keepsCredentials_deleteUser {u : Accounts} (h : t.deleteUser uid = .ok u) :
    KeepsCredentials t u := by
  obtain ⟨user, huser, rfl⟩ := Accounts.deleteUser_eq_ok_iff.1 h
  split <;> exact keepsCredentials_erase t uid

theorem keepsCredentials_updateUser {token : CurrentUser} {req : UpdateUserInfoRequest}
    {u : Accounts} (h : t.updateUser token req = .ok u) : KeepsCredentials t u := by
  obtain ⟨-, -, -, user, huser, rfl⟩ := Accounts.updateUser_eq_ok_iff.1 h
  split <;> exact keepsCredentials_putUser huser rfl rfl

theorem Inv.perform (hph : ph.Lawful) (h : Inv ph toLowercase s) (a : LoginAction) :
    Inv ph toLowercase (s.perform ph toLowercase a) := by
  cases a with
  | register userLimit now salt whoCanSignUp smtpOn magicToken name req =>
    exact h.created (creates_createUser _ userLimit now salt rfl rfl).ensure.ensure.ensure
  | create userLimit now salt webhookOk token req =>
    exact h.created (creates_createUser _ userLimit now salt rfl rfl).ensure.ensure
  | createAdminUser userLimit now salt req =>
    exact h.created (creates_createUser _ userLimit now salt rfl rfl).ensure
  | createConfigUser userLimit now salt user =>
    exact h.created (creates_createUser _ userLimit now salt rfl rfl)
  | changePassword salt newSalt token req =>
    exact h.changed (changes_changePassword h salt newSalt token req)
  | login config salt credential =>
    show Inv ph toLowercase { s with accounts := _ }
    rw [h.login_snd hph]
    exact h
  | account a =>
    cases a with
    | createUser userLimit now salt req =>
      exact h.created (creates_createUser _ userLimit now salt rfl rfl)
    | adminUpdate salt webhookOk token uid req =>
      exact h.changed (changes_adminUpdate h salt webhookOk token uid req)
    | updateUser token req =>
      exact h.of_keepsCredentials <| keepsCredentials_toOption fun _ ↦ keepsCredentials_updateUser
    | uploadAvatar token now =>
      refine h.of_keepsCredentials <| keepsCredentials_toOption fun u hok ↦ ?_
      simp only [Accounts.request, Accounts.uploadAvatar, ensure_eq_ok, bind_eq_ok, exists_unit]
        at hok
      exact keepsCredentials_setAvatar hok.2
    | adminUploadAvatar token uid now =>
      refine h.of_keepsCredentials <| keepsCredentials_toOption fun u hok ↦ ?_
      simp only [Accounts.request, Accounts.adminUploadAvatar, ensure_eq_ok, bind_eq_ok,
        exists_unit]
        at hok
      exact keepsCredentials_setAvatar hok.2
    | adminDelete token uid =>
      refine h.of_keepsCredentials <| keepsCredentials_toOption fun u hok ↦ ?_
      simp only [Accounts.request, Accounts.adminDelete, ensure_eq_ok, bind_eq_ok, exists_unit]
        at hok
      exact keepsCredentials_deleteUser hok.2.2
    | deleteCurrentUser token =>
      exact h.of_keepsCredentials <| keepsCredentials_toOption fun _ ↦ keepsCredentials_deleteUser

theorem inv_after (hph : ph.Lawful) (as : List LoginAction) :
    Inv ph toLowercase (after ph toLowercase as) :=
  Transition.foldl_induction (fun _ a h ↦ h.perform hph a) inv_start as

/-! ### The result -/

theorem login_fst_eq_ok (config : Accounts.LoginConfig) (salt : String)
    (credential : LoginCredentialPassword) :
    (t.login ph toLowercase config salt credential).1 = .ok uid ↔
      config.licensed = true ∧ config.password = true ∧
      ∃ upgradedHash, t.checkPassword ph toLowercase salt credential = .ok (uid, upgradedHash) ∧
        ∃ user, ((upgradedHash.map (t.setPassword uid)).getD t).loginUser uid = .ok user := by
  rw [Accounts.login]
  split
  · rename_i e hchecked
    refine iff_of_false (fun h ↦ by cases h) ?_
    rintro ⟨hlicensed, hpassword, upgradedHash, hcheck, -⟩
    rw [hcheck, hlicensed, hpassword] at hchecked
    cases hchecked
  · rename_i uid' upgradedHash hchecked
    simp only [ensure_eq_ok, bind_eq_ok, exists_unit] at hchecked
    obtain ⟨hlicensed, hpassword, hcheck⟩ := hchecked
    simp only [map_eq_ok]
    constructor
    · rintro ⟨user, hlogin, rfl⟩
      exact ⟨hlicensed, hpassword, upgradedHash, hcheck, user, hlogin⟩
    · rintro ⟨-, -, upgradedHash', hcheck', user, hlogin⟩
      obtain ⟨rfl, rfl⟩ := Prod.ext_iff.1 (Except.ok.inj (hcheck.symm.trans hcheck'))
      exact ⟨user, hlogin, rfl⟩

/-- **Logging in with what was given.** In every reachable state, the email and the password that
were last given for an account that is there and not frozen log in to this account, password login
being enabled, exactly when the licence is in order and the email was lowered on its way in, or is
its own lower case. -/
theorem login_eq_ok_iff (ph : PasswordHashing) (hph : ph.Lawful) (toLowercase : String → String)
    (as : List LoginAction) (config : Accounts.LoginConfig) (hconfig : config.password = true)
    (salt : String) (uid : ℤ) (user : Accounts.CacheUser) (credential : LoginCredentialPassword)
    (huser : (after ph toLowercase as).accounts.users.get uid = some user)
    (hactive : user.status ≠ .frozen)
    (hemail : ((after ph toLowercase as).given uid).email = some credential.email)
    (hpassword : ((after ph toLowercase as).given uid).password = some credential.password) :
    ((after ph toLowercase as).accounts.login ph toLowercase config salt credential).1 = .ok uid ↔
      config.licensed = true ∧ (((after ph toLowercase as).given uid).isLowered = true ∨
        toLowercase credential.email = credential.email) := by
  have hinv : Inv ph toLowercase (after ph toLowercase as) := inv_after hph as
  generalize after ph toLowercase as = s at *
  have hstored : (s.given uid).stored toLowercase = some (toLowercase credential.email) ↔
      (s.given uid).isLowered = true ∨ toLowercase credential.email = credential.email := by
    rw [Given.stored, hemail]
    cases (s.given uid).isLowered with
    | true => exact iff_of_true rfl (Or.inl rfl)
    | false => simp [eq_comm]
  have hlogin : s.accounts.loginUser uid = .ok user := by
    simp only [Accounts.loginUser, bind_eq_ok, okOr_eq_ok, ensure_eq_ok, exists_unit, pure_eq_ok]
    exact ⟨user, huser, hactive, rfl⟩
  rw [login_fst_eq_ok, ← hstored]
  constructor
  · rintro ⟨hlicensed, -, upgradedHash, hcheck, -⟩
    exact ⟨hlicensed, ((hinv.checkPassword_eq_ok hph).1 hcheck).2.1⟩
  · rintro ⟨hlicensed, hlower⟩
    refine ⟨hlicensed, hconfig, none, (hinv.checkPassword_eq_ok hph).2 ?_, user, hlogin⟩
    exact ⟨by rw [huser]; rfl, hlower, hpassword, rfl⟩

/-- Ascii lower case, for emails that have nothing else. -/
def asciiLowercase (email : String) : String := email.map Char.toLower

/-- An administrator creates an account, and it logs in. -/
theorem login_eq_ok_iff_created :
    let s := after .transparent asciiLowercase
      [.createAdminUser 10 100 "s" ⟨"Admin@x.org", "admin", "secret", 0⟩]
    (s.accounts.login .transparent asciiLowercase ⟨true, true⟩ "t" ⟨"Admin@x.org", "secret"⟩).1 =
      .ok 1 := by
  refine (login_eq_ok_iff .transparent PasswordHashing.transparent_lawful asciiLowercase
    [.createAdminUser 10 100 "s" ⟨"Admin@x.org", "admin", "secret", 0⟩] ⟨true, true⟩ rfl "t" 1
    { email := some "admin@x.org", name := "admin", password := some "$argon2id$secret", gender := 0
      isAdmin := true, language := defaultLangId, createBy := "password", avatarUpdatedAt := 0
      status := .normal, isGuest := false, webhookUrl := none, isBot := false }
    ⟨"Admin@x.org", "secret"⟩ ?_ ?_ ?_ ?_).2 ⟨rfl, Or.inl ?_⟩ <;> decide +kernel

/-- An account registers with an upper case letter in its email, and does not get in with it. -/
theorem not_forall_login_eq_ok : ¬∀ (ph : PasswordHashing) (_ : ph.Lawful)
    (toLowercase : String → String) (as : List LoginAction) (salt : String) (uid : ℤ)
    (credential : LoginCredentialPassword),
    (∃ user, (after ph toLowercase as).accounts.users.get uid = some user ∧
      user.status ≠ .frozen) →
    ((after ph toLowercase as).given uid).email = some credential.email →
    ((after ph toLowercase as).given uid).password = some credential.password →
    ((after ph toLowercase as).accounts.login ph toLowercase ⟨true, true⟩ salt credential).1 =
      .ok uid := by
  intro h
  have hlogin := h .transparent PasswordHashing.transparent_lawful asciiLowercase
    [.register 10 100 "s" .everyOne false none "alice" ⟨some "Alice@x.org", some "secret", 0, "en"⟩]
    "t" 1 ⟨"Alice@x.org", "secret"⟩
    ⟨{ email := some "Alice@x.org", name := "alice", password := some "$argon2id$secret"
       gender := 0, isAdmin := false, language := "en", createBy := "password", avatarUpdatedAt := 0
       status := .normal, isGuest := false, webhookUrl := none, isBot := false },
      by decide +kernel, by decide +kernel⟩ (by decide +kernel) (by decide +kernel)
  revert hlogin
  decide +kernel

end GivenAccounts

end VoceChat
