import VoceChat.Accounts.PasswordHash
import VoceChat.Foundations.Guards
import VoceChat.Foundations.OrderedMap
import VoceChat.Message.Payload

/-!
# Users (`src/create_user.rs`, `src/api/user.rs`, `src/api/admin_user.rs`, `src/state.rs`)

The users in the cache, in the order of their ids, and the table `user_log` of what was done to
them. Every request below holds the cache for writing from its first check to its end, so requests
come one after the other. One that is refused, or whose transaction fails, changes nothing: the
cache is touched after the commit only.

The tables of linked accounts, the devices and the settings of a user are left out: nothing here
reads them. A webhook is tried out by a request to it, whose outcome is an argument.
-/

namespace VoceChat

open Guards

/-- The user of a token. -/
structure CurrentUser where
  uid : ℤ
  device : String
  isAdmin : Bool
  isGuest : Bool
  deriving DecidableEq, Repr

/-- A user in the cache. -/
structure Accounts.CacheUser where
  email : Option String
  name : String
  password : Option String
  gender : ℤ
  isAdmin : Bool
  language : String
  createBy : String
  avatarUpdatedAt : ℤ
  status : UserStatus
  isGuest : Bool
  webhookUrl : Option String
  isBot : Bool
  deriving DecidableEq

inductive UpdateAction where
  | create
  | update
  | delete
  deriving DecidableEq, Repr

/-- A row of `user_log`, without its id. -/
structure UserLogEntry where
  action : UpdateAction
  uid : ℤ
  email : Option String := none
  name : Option String := none
  gender : Option ℤ := none
  language : Option String := none
  isAdmin : Option Bool := none
  isBot : Option Bool := none
  avatarUpdatedAt : Option ℤ := none
  deriving DecidableEq

/-- The users and their log. Ids count upwards and are not used again (`autoincrement`). -/
structure Accounts where
  users : OrderedMap ℤ Accounts.CacheUser
  userLog : List (ℤ × UserLogEntry)
  nextUid : ℤ
  nextLogId : ℤ

inductive AccountError where
  | badRequest
  | unauthorized
  | forbidden
  | notFound
  | nameConflict
  | emailConflict
  | invalidWebhookUrl
  | magicTokenExpired
  /-- The licence allows no more users. -/
  | usersReachedLimit
  /-- A hash could not be made. -/
  | internal
  deriving DecidableEq, Repr

/-- `str::eq_ignore_ascii_case`. -/
def eqIgnoreAsciiCase (a b : String) : Bool :=
  a.toList.map Char.toLower = b.toList.map Char.toLower

theorem eqIgnoreAsciiCase_comm (a b : String) :
    eqIgnoreAsciiCase a b = eqIgnoreAsciiCase b a :=
  decide_eq_decide.2 eq_comm

namespace Accounts

def start : Accounts := ⟨OrderedMap.empty, [], 1, 1⟩

/-- `check_name_conflict`: no user has the name. -/
def checkNameConflict (s : Accounts) (name : String) : Bool :=
  !s.users.entries.any fun e ↦ eqIgnoreAsciiCase e.2.name name

/-- `check_email_conflict`: no user has the address. -/
def checkEmailConflict (s : Accounts) (email : String) : Bool :=
  !s.users.entries.any fun e ↦ e.2.email.any fun userEmail ↦ eqIgnoreAsciiCase userEmail email

/-- `insert into user_log`. -/
def writeLog (s : Accounts) (entry : UserLogEntry) : Accounts :=
  { s with userLog := s.userLog ++ [(s.nextLogId, entry)], nextLogId := s.nextLogId + 1 }

def putUser (s : Accounts) (uid : ℤ) (user : Accounts.CacheUser) : Accounts :=
  { s with users := s.users.insert uid user }

end Accounts

/-! ### Creating a user -/

inductive CreateUserBy where
  | guest
  | password (email password : String)
  | magicLink (email : String)
  | google (email : String)
  | github (username : String)
  | openIdConnect (issuer subject : String) (email : Option String)
  | metaMask (publicAddress : String)
  | thirdParty (thirdpartyUid username : String)
  deriving DecidableEq

namespace CreateUserBy

def typeName : CreateUserBy → String
  | guest => "guest"
  | password .. => "password"
  | magicLink .. => "magiclink"
  | google .. => "google"
  | github .. => "github"
  | openIdConnect .. => "oidc"
  | metaMask .. => "metamask"
  | thirdParty .. => "thirdparty"

def getEmail : CreateUserBy → Option String
  | guest => none
  | password email _ => some email
  | magicLink email => some email
  | google email => some email
  | github username => some username
  | openIdConnect _ _ email => email
  | metaMask _ => none
  | thirdParty _ _ => none

def getPassword : CreateUserBy → Option String
  | password _ plaintext => some plaintext
  | guest | magicLink _ | google _ | github _ | openIdConnect .. | metaMask _ |
      thirdParty .. => none

end CreateUserBy

structure CreateUser where
  name : String
  gender : ℤ := 0
  isAdmin : Bool
  language : Option String := none
  /-- There is an avatar. -/
  avatar : Bool := false
  createBy : CreateUserBy
  webhookUrl : Option String := none
  isBot : Bool := false
  deriving DecidableEq

/-- `LangId::default`. -/
def defaultLangId : String := "en-US"

/-- `DateTime::zero`. -/
def dateTimeZero : ℤ := 0

namespace CreateUser

def isGuest (req : CreateUser) : Bool := req.createBy = .guest

/-- The user as the cache has it, with the hash of its password. -/
def toUser (req : CreateUser) (now : ℤ) (password : Option String) :
    Accounts.CacheUser where
  email := req.createBy.getEmail
  name := req.name
  password := password
  gender := req.gender
  isAdmin := req.isAdmin
  language := req.language.getD defaultLangId
  createBy := req.createBy.typeName
  avatarUpdatedAt := if req.avatar then now else dateTimeZero
  status := .normal
  isGuest := req.isGuest
  webhookUrl := req.webhookUrl
  isBot := req.isBot

/-- The entry of the log. -/
def toEntry (req : CreateUser) (now uid : ℤ) : UserLogEntry where
  action := .create
  uid := uid
  email := req.createBy.getEmail
  name := some req.name
  gender := some req.gender
  language := some (req.language.getD defaultLangId)
  avatarUpdatedAt := some (if req.avatar then now else dateTimeZero)
  isAdmin := some req.isAdmin
  isBot := some req.isBot

end CreateUser

namespace Accounts

/-- The hash to store for a password, if there is one. -/
def hashPassword (ph : PasswordHashing) (salt : String) :
    Option String → Except AccountError (Option String)
  | some plaintext => (okOr (ph.hash salt plaintext) .internal).map some
  | none => .ok none

/-- `create_user`. -/
def createUser (ph : PasswordHashing) (userLimit : ℕ) (now : ℤ) (salt : String) (s : Accounts)
    (req : CreateUser) : Except AccountError (ℤ × Accounts) := do
  let password ← hashPassword ph salt req.createBy.getPassword
  ensure ((s.users.entries.filter fun e ↦ !e.2.isGuest).length < userLimit) .usersReachedLimit
  ensure (s.checkNameConflict req.name = true) .nameConflict
  ensure (req.createBy.getEmail.all s.checkEmailConflict = true) .emailConflict
  let created := { s.putUser s.nextUid (req.toUser now password) with nextUid := s.nextUid + 1 }
  return (s.nextUid,
    if req.isGuest then created else created.writeLog (req.toEntry now s.nextUid))

/-! ### Updating and deleting a user -/

end Accounts

structure UpdateUserInfoRequest where
  name : Option String
  gender : Option ℤ
  language : Option String
  deriving DecidableEq

structure UpdateUserRequest where
  email : Option String
  password : Option String
  name : Option String
  gender : Option ℤ
  isAdmin : Option Bool
  language : Option String
  status : Option UserStatus
  webhookUrl : Option String
  deriving DecidableEq

def UpdateUserInfoRequest.isEmpty (req : UpdateUserInfoRequest) : Bool :=
  req.name.isNone && req.gender.isNone && req.language.isNone

def UpdateUserRequest.isEmpty (req : UpdateUserRequest) : Bool :=
  req.email.isNone && req.password.isNone && req.name.isNone && req.gender.isNone &&
    req.isAdmin.isNone && req.language.isNone && req.status.isNone && req.webhookUrl.isNone

/-- The request is one that `update_user` writes to the log. -/
def UpdateUserInfoRequest.isLogged (req : UpdateUserInfoRequest) : Bool :=
  req.name.isSome || req.gender.isSome && req.language.isSome

/-- A user after its own update. -/
def UpdateUserInfoRequest.updated (req : UpdateUserInfoRequest) (user : Accounts.CacheUser) :
    Accounts.CacheUser :=
  { user with
    name := req.name.getD user.name
    gender := req.gender.getD user.gender
    language := req.language.getD user.language }

/-- A user after an update by an administrator, with the hash of the new password. -/
def UpdateUserRequest.updated (req : UpdateUserRequest) (password : Option String)
    (user : Accounts.CacheUser) : Accounts.CacheUser :=
  { user with
    email := req.email.or user.email
    name := req.name.getD user.name
    password := password.or user.password
    gender := req.gender.getD user.gender
    language := req.language.getD user.language
    isAdmin := req.isAdmin.getD user.isAdmin
    status := req.status.getD user.status
    webhookUrl := req.webhookUrl.or user.webhookUrl }

namespace Accounts

/-- `update_user`: a user changes its own profile. -/
def updateUser (s : Accounts) (token : CurrentUser) (req : UpdateUserInfoRequest) :
    Except AccountError Accounts := do
  ensure (token.isGuest = false) .forbidden
  ensure (req.isEmpty = false) .badRequest
  ensure (req.name.all s.checkNameConflict = true) .nameConflict
  let user ← okOr (s.users.get token.uid) .unauthorized
  let updated := s.putUser token.uid (req.updated user)
  return if req.isLogged then updated.writeLog
      { action := .update, uid := token.uid, name := req.name, gender := req.gender,
        language := req.language }
    else updated

/-- `update` of the administrators. -/
def adminUpdate (ph : PasswordHashing) (webhookOk : String → Bool) (salt : String) (s : Accounts)
    (token : CurrentUser) (uid : ℤ) (req : UpdateUserRequest) : Except AccountError Accounts := do
  ensure (token.isAdmin = true) .forbidden
  ensure (req.isEmpty = false) .badRequest
  let password ← hashPassword ph salt req.password
  ensure (req.email.all s.checkEmailConflict = true) .emailConflict
  ensure (req.name.all s.checkNameConflict = true) .nameConflict
  ensure (req.webhookUrl.all webhookOk = true) .invalidWebhookUrl
  let user ← okOr (s.users.get uid) .notFound
  return (s.putUser uid (req.updated password user)).writeLog
    { action := .update, uid := uid, email := req.email, name := req.name, gender := req.gender,
      isAdmin := req.isAdmin, language := req.language }

/-- What both ways of uploading an avatar do. -/
def setAvatar (s : Accounts) (uid now : ℤ) : Except AccountError Accounts := do
  let user ← okOr (s.users.get uid) .unauthorized
  return (s.putUser uid { user with avatarUpdatedAt := now }).writeLog
    { action := .update, uid := uid, avatarUpdatedAt := some now }

/-- `upload_avatar`. -/
def uploadAvatar (s : Accounts) (token : CurrentUser) (now : ℤ) : Except AccountError Accounts := do
  ensure (token.isGuest = false) .forbidden
  s.setAvatar token.uid now

/-- `upload_avatar` of the administrators. -/
def adminUploadAvatar (s : Accounts) (token : CurrentUser) (uid now : ℤ) :
    Except AccountError Accounts := do
  ensure (token.isAdmin = true) .forbidden
  s.setAvatar uid now

/-- `delete_user`. -/
def deleteUser (s : Accounts) (uid : ℤ) : Except AccountError Accounts := do
  let user ← okOr (s.users.get uid) .notFound
  let deleted := { s with users := s.users.erase uid }
  return if user.isGuest then deleted else deleted.writeLog { action := .delete, uid := uid }

/-- `delete` of the administrators: not of themselves, and not of the founder. -/
def adminDelete (s : Accounts) (token : CurrentUser) (uid : ℤ) : Except AccountError Accounts := do
  ensure (token.isAdmin = true) .forbidden
  ensure (¬(uid = token.uid ∨ uid = 1)) .forbidden
  s.deleteUser uid

/-- `delete_current_user`. -/
def deleteCurrentUser (s : Accounts) (token : CurrentUser) : Except AccountError Accounts :=
  s.deleteUser token.uid

/-! ### What accepted requests passed and did -/

variable {ph : PasswordHashing} {s t : Accounts} {token : CurrentUser} {uid now : ℤ} {salt : String}

theorem createUser_eq_ok_iff {userLimit : ℕ} {req : CreateUser} {r : ℤ × Accounts} :
    s.createUser ph userLimit now salt req = .ok r ↔
      ∃ password, hashPassword ph salt req.createBy.getPassword = .ok password ∧
        (s.users.entries.filter fun e ↦ !e.2.isGuest).length < userLimit ∧
        s.checkNameConflict req.name = true ∧
        req.createBy.getEmail.all s.checkEmailConflict = true ∧
        let created := { s.putUser s.nextUid (req.toUser now password) with
          nextUid := s.nextUid + 1 }
        (s.nextUid, if req.isGuest then created else created.writeLog (req.toEntry now s.nextUid)) =
          r := by
  simp only [createUser, bind_eq_ok, ensure_eq_ok, exists_unit, pure_eq_ok]

theorem updateUser_eq_ok_iff {req : UpdateUserInfoRequest} : s.updateUser token req = .ok t ↔
    token.isGuest = false ∧ req.isEmpty = false ∧ req.name.all s.checkNameConflict = true ∧
      ∃ user, s.users.get token.uid = some user ∧
        (if req.isLogged then (s.putUser token.uid (req.updated user)).writeLog
            { action := .update, uid := token.uid, name := req.name, gender := req.gender,
              language := req.language }
          else s.putUser token.uid (req.updated user)) = t := by
  simp only [updateUser, bind_eq_ok, okOr_eq_ok, ensure_eq_ok, exists_unit, pure_eq_ok]

theorem adminUpdate_eq_ok_iff {webhookOk : String → Bool} {req : UpdateUserRequest} :
    s.adminUpdate ph webhookOk salt token uid req = .ok t ↔
      token.isAdmin = true ∧ req.isEmpty = false ∧
        ∃ password, hashPassword ph salt req.password = .ok password ∧
          req.email.all s.checkEmailConflict = true ∧ req.name.all s.checkNameConflict = true ∧
          req.webhookUrl.all webhookOk = true ∧
          ∃ user, s.users.get uid = some user ∧
            (s.putUser uid (req.updated password user)).writeLog
              { action := .update, uid := uid, email := req.email, name := req.name,
                gender := req.gender, isAdmin := req.isAdmin, language := req.language } = t := by
  simp only [adminUpdate, bind_eq_ok, okOr_eq_ok, ensure_eq_ok, exists_unit, pure_eq_ok]

theorem setAvatar_eq_ok_iff : s.setAvatar uid now = .ok t ↔
    ∃ user, s.users.get uid = some user ∧
      (s.putUser uid { user with avatarUpdatedAt := now }).writeLog
        { action := .update, uid := uid, avatarUpdatedAt := some now } = t := by
  simp only [setAvatar, bind_eq_ok, okOr_eq_ok, pure_eq_ok]

theorem deleteUser_eq_ok_iff : s.deleteUser uid = .ok t ↔
    ∃ user, s.users.get uid = some user ∧
      let deleted := { s with users := s.users.erase uid }
      (if user.isGuest then deleted
        else deleted.writeLog { action := .delete, uid := uid }) = t := by
  simp only [deleteUser, bind_eq_ok, okOr_eq_ok, pure_eq_ok]

theorem users_deleteUser (h : s.deleteUser uid = .ok t) : t.users = s.users.erase uid := by
  obtain ⟨user, -, rfl⟩ := deleteUser_eq_ok_iff.1 h
  split
  · rfl
  · rfl

end Accounts

end VoceChat
