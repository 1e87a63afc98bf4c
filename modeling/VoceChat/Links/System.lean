import VoceChat.Foundations.History
import VoceChat.Links.Identities

/-!
# Logging in from a third party, and binding to one (`src/api/token.rs`)

Requests run at the same time, and each goes to the database and to the cache more than once: what
it has found can have changed when it goes on. A step is one visit to either, or the answer of a
third party.

* A login looks for the user of the identity (`selected`), then for one that can have it (`found`),
  and links him (`inserted`); or else it picks a name (`nameAssigned`) and creates a user
  (`created`, which is one transaction). `do_login` then lets the user in (`entered`).
* `bind` looks whether the user has an identity of this kind already, and links him
  (`inserted`).
* A wallet proves itself by signing the nonce that was stored for its address last; a code of an
  issuer of OpenID Connect is exchanged if the `state` that comes with it is waited for. Who else
  comes is whoever Google, GitHub or the key of the other site says: that is taken from the action.

Only methods that are enabled get as far as this, and only with the licence in order; the others
are answered at once. Tokens and devices are not here: an entry records who was let in as whom. A
request that fails anywhere is dropped, whatever it answers.
-/

namespace VoceChat

open Guards Machine

/-- What an identity is wanted for. -/
inductive LinkPurpose where
  | login (canRegister : Bool)
  | bind (uid : ℤ)
  deriving DecidableEq

/-- A request on its way. -/
inductive LinkTask where
  | proving (publicAddress nonce signature : String) (purpose : LinkPurpose)
  /-- The authorization of the issuer is taken. -/
  | taken (issuer : String) (purpose : LinkPurpose)
  | exchanging (issuer : String) (purpose : LinkPurpose)
  /-- `bind` waits for Google or GitHub to say who it is. -/
  | asking (table : LinkTable) (uid : ℤ)
  | verified (profile : LinkProfile) (canRegister : Bool)
  | unlinked (profile : LinkProfile)
  | matched (identity : Identity) (uid : ℤ)
  | unmatched (profile : LinkProfile)
  | named (profile : LinkProfile) (name : String)
  | binding (identity : Identity) (uid : ℤ)
  | resolved (identity : Identity) (uid : ℤ)
  deriving DecidableEq

inductive LinkRequest where
  | loginGoogle (email : String) (name : Option String) (canRegister : Bool)
  | loginGithub (username : String) (email : Option String) (canRegister : Bool)
  | loginOpenIdConnect (oidcState : String) (canRegister : Bool)
  | loginMetaMask (publicAddress nonce signature : String) (canRegister : Bool)
  | loginThirdParty (userid username : String) (canRegister : Bool)
  | bindGoogle (token : CurrentUser)
  | bindGithub (token : CurrentUser)
  | bindOpenIdConnect (token : CurrentUser) (oidcState : String)
  | bindMetaMask (token : CurrentUser) (publicAddress nonce signature : String)

/-- What a request goes on with. -/
inductive LinkInput where
  /-- `check_metamask_public_address`. -/
  | proved
  /-- `bind` has looked for identities of the issuer. -/
  | checked
  /-- `oidc_get_id_token`. -/
  | exchanged (subject : String) (email : Option String) (emailVerified : Bool)
      (name : Option String)
  | answered (key : String)
  | selected
  | found
  | inserted
  /-- `assign_username`, with the number it ends with. -/
  | nameAssigned (draw : ℕ)
  | created (userLimit : ℕ) (now : ℤ) (salt : String) (avatar : Bool)
  | entered
  | failed

inductive LinkAction where
  | accounts (a : AccountAction)
  | metamaskNonce (publicAddress nonce : String)
  | openidAuthorize (csrfToken issuer : String)
  /-- 150 seconds after an authorization. -/
  | timeout (csrfToken : String)
  | request (i : ℕ) (req : LinkRequest)
  | run (i : ℕ) (input : LinkInput)

structure LinkSystem where
  accounts : Accounts
  links : Links
  /-- `metamask_nonce`. -/
  nonces : Table String String
  /-- The issuers of the authorizations that are waited for. -/
  pendingOidc : Table String String
  tasks : ℕ → Option LinkTask
  /-- Who was let in as which user. -/
  entries : List (Identity × ℤ)
  /-- The authorizations, and those that were taken. -/
  authorized : List (String × String)
  consumed : List (String × String)

namespace LinkPurpose

/-- The user that the identity is for. -/
def boundUid : LinkPurpose → Option ℤ
  | login _ => none
  | bind uid => some uid

def next (profile : LinkProfile) : LinkPurpose → LinkTask
  | login canRegister => .verified profile canRegister
  | bind uid => .binding profile.identity uid

end LinkPurpose

/-- `check_metamask_public_address`. The address of the key that has signed is `recover`'s. -/
def checkMetamaskPublicAddress (recover : String → Bytes → Option Bytes)
    (nonces : Table String String) (publicAddress nonce signature : String) : Bool :=
  match signature.toList with
  | '0' :: 'x' :: digits =>
    (Hex.decode digits).any fun bytes ↦
      decide (64 ≤ bytes.length ∧ nonces.get publicAddress = some nonce) &&
        (recover nonce bytes).any fun address ↦
          decide (String.ofList ('0' :: 'x' :: Hex.encode address) = publicAddress)
  | _ => false

namespace LinkSystem

variable (ph : PasswordHashing) (toLowercase : String → String)
  (recover : String → Bytes → Option Bytes)

def start : LinkSystem where
  accounts := .start
  links := .empty
  nonces := .empty
  pendingOidc := .empty
  tasks _ := none
  entries := []
  authorized := []
  consumed := []

def setTask (s : LinkSystem) (i : ℕ) (task : Option LinkTask) : LinkSystem :=
  { s with tasks := Function.update s.tasks i task }

def withAccounts (s : LinkSystem) (accounts : Accounts) : LinkSystem :=
  { s with accounts := accounts, links := s.links.withAccounts accounts }

/-- `pending_oidc.remove`, and the task that takes the authorization. -/
def takeAuthorization (s : LinkSystem) (i : ℕ) (oidcState : String) (purpose : LinkPurpose) :
    LinkSystem :=
  match s.pendingOidc.get oidcState with
  | none => s
  | some issuer =>
    { s.setTask i (some (.taken issuer purpose)) with
      pendingOidc := s.pendingOidc.filter fun csrfToken _ ↦ csrfToken ≠ oidcState
      consumed := s.consumed ++ [(oidcState, issuer)] }

/-- `bind`, once the user has no identity in the table. -/
def startBind (s : LinkSystem) (i : ℕ) (token : CurrentUser) (table : LinkTable) (task : LinkTask) :
    LinkSystem :=
  if token.isGuest = false ∧ s.links.credentials table token.uid = [] then s.setTask i (some task)
  else s

/-- The first visit of a request. -/
def receive (s : LinkSystem) (i : ℕ) : LinkRequest → LinkSystem
  | .loginGoogle email name canRegister =>
    s.setTask i (some (.verified (.google email name) canRegister))
  | .loginGithub username email canRegister =>
    s.setTask i (some (.verified (.github username email) canRegister))
  | .loginThirdParty userid username canRegister =>
    s.setTask i (some (.verified (.thirdParty userid username) canRegister))
  | .loginOpenIdConnect oidcState canRegister =>
    s.takeAuthorization i oidcState (.login canRegister)
  | .loginMetaMask publicAddress nonce signature canRegister =>
    s.setTask i (some (.proving (toLowercase publicAddress) nonce signature (.login canRegister)))
  | .bindGoogle token => s.startBind i token .googleAuth (.asking .googleAuth token.uid)
  | .bindGithub token => s.startBind i token .githubAuth (.asking .githubAuth token.uid)
  | .bindOpenIdConnect token oidcState =>
    if token.isGuest = false then s.takeAuthorization i oidcState (.bind token.uid) else s
  | .bindMetaMask token publicAddress nonce signature =>
    s.startBind i token .metamaskAuth
      (.proving (toLowercase publicAddress) nonce signature (.bind token.uid))

/-- The user is created together with his link, or not at all. -/
def createLinked (s : LinkSystem) (i : ℕ) (userLimit : ℕ) (now : ℤ) (salt : String)
    (profile : LinkProfile) (req : CreateUser) : Option LinkSystem := do
  let (uid, accounts) ← (s.accounts.createUser ph userLimit now salt req).toOption
  let links ← s.links.link accounts profile.identity uid
  return { s.setTask i (some (.resolved profile.identity uid)) with
    accounts := accounts, links := links }

/-- What a task goes on to. -/
def advance (s : LinkSystem) (i : ℕ) : LinkInput → LinkTask → Option LinkSystem
  | .proved, .proving publicAddress nonce signature purpose =>
    some (s.setTask i
      (if checkMetamaskPublicAddress recover s.nonces publicAddress nonce signature then
        some (purpose.next (.metaMask publicAddress))
      else none))
  | .checked, .taken issuer purpose =>
    some (s.setTask i
      (if issuer ∈ purpose.boundUid.elim [] s.links.issuers then none
      else some (.exchanging issuer purpose)))
  | .exchanged subject email emailVerified name, .exchanging issuer purpose =>
    some (s.setTask i (some (purpose.next
      (.openIdConnect issuer subject (if emailVerified then email else none) name))))
  | .answered key, .asking .googleAuth uid =>
    some (s.setTask i (some (.binding (.google (toLowercase key)) uid)))
  | .answered key, .asking .githubAuth uid => some (s.setTask i (some (.binding (.github key) uid)))
  | .selected, .verified profile canRegister =>
    some (s.setTask i
      (match s.links.get profile.identity with
      | some uid => some (.resolved profile.identity uid)
      | none => if profile.mayRegister canRegister then some (.unlinked profile) else none))
  | .found, .unlinked profile =>
    some (s.setTask i (some
      (match s.accounts.findProfile profile with
      | some uid => .matched profile.identity uid
      | none => .unmatched profile)))
  | .inserted, .matched identity uid =>
    some (((s.links.link s.accounts identity uid).map fun links ↦
      { s.setTask i (some (.resolved identity uid)) with links := links }).getD (s.setTask i none))
  | .inserted, .binding identity uid =>
    some (((s.links.link s.accounts identity uid).map fun links ↦
      { s.setTask i none with links := links }).getD (s.setTask i none))
  | .nameAssigned draw, .unmatched profile =>
    (s.accounts.assignUsername profile.nameAndEmail.1 profile.nameAndEmail.2 draw).map fun name ↦
      s.setTask i (some (.named profile name))
  | .created userLimit now salt avatar, .named profile name =>
    some ((s.createLinked ph i userLimit now salt profile (profile.createUser name avatar)).getD
      (s.setTask i none))
  | .entered, .resolved identity uid =>
    some (match s.accounts.loginUser uid with
      | .ok _ => { s.setTask i none with entries := s.entries ++ [(identity, uid)] }
      | .error _ => s.setTask i none)
  | .failed, _ => some (s.setTask i none)
  | _, _ => none

def step (s : LinkSystem) : LinkAction → Option LinkSystem
  | .accounts a => some (s.withAccounts (s.accounts.perform ph a))
  | .metamaskNonce publicAddress nonce =>
    some { s with nonces := s.nonces.put (toLowercase publicAddress) nonce }
  | .openidAuthorize csrfToken issuer => some { s with
      pendingOidc := s.pendingOidc.put csrfToken issuer
      authorized := s.authorized ++ [(csrfToken, issuer)] }
  | .timeout csrfToken =>
    some { s with pendingOidc := s.pendingOidc.filter fun csrfToken' _ ↦ csrfToken' ≠ csrfToken }
  | .request i req => if s.tasks i = none then some (s.receive toLowercase i req) else none
  | .run i input => (s.tasks i).bind (s.advance ph toLowercase recover i input)

end LinkSystem

end VoceChat
