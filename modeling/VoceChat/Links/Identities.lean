import VoceChat.Accounts.PasswordLogin
import VoceChat.Accounts.UserLog
import VoceChat.Foundations.Hex
import VoceChat.Foundations.IndexedTable

/-!
# Linked accounts (`src/api/token.rs`, `src/create_user.rs`, `src/state.rs`)

Somebody who comes from Google, from GitHub, from an issuer of OpenID Connect, with a wallet or from
another site is known there by an identity. The tables `google_auth`, `github_auth`,
`openid_connect`, `metamask_auth` and `third_party_users` say which user has an identity: they are
one table here, whose key says which of them a row is in. All but the last have a unique index on
`uid`, and rows go with their user (`on delete cascade`).

An identity that no user has yet is given to one: to a new user, or for Google and GitHub to the
first that has the e-mail address.
-/

namespace VoceChat

open Guards Machine

/-- A table of linked accounts. -/
inductive LinkTable where
  | googleAuth
  | githubAuth
  | openIdConnect
  | metamaskAuth
  | thirdPartyUsers
  deriving DecidableEq, Repr

/-- Somebody at a third party, as the primary key of a table has him. -/
inductive Identity where
  | google (email : String)
  | github (username : String)
  | openIdConnect (issuer subject : String)
  | metaMask (publicAddress : String)
  | thirdParty (userid : String)
  deriving DecidableEq, Repr

namespace Identity

def table : Identity → LinkTable
  | google _ => .googleAuth
  | github _ => .githubAuth
  | openIdConnect .. => .openIdConnect
  | metaMask _ => .metamaskAuth
  | thirdParty _ => .thirdPartyUsers

/-- The entry in the unique index of the table, where it has one. -/
def uidIndex (identity : Identity) (uid : ℤ) : Option (LinkTable × ℤ) :=
  if identity.table = .thirdPartyUsers then none else some (identity.table, uid)

def issuer : Identity → Option String
  | openIdConnect issuer _ => some issuer
  | google _ | github _ | metaMask _ | thirdParty _ => none

end Identity

/-- Who has which identity. -/
abbrev Links := IndexedTable Identity.uidIndex

namespace Links

/-- `insert into`, where the user has to exist. -/
def link (links : Links) (accounts : Accounts) (identity : Identity) (uid : ℤ) : Option Links :=
  if (accounts.users.get uid).isSome then links.insert identity uid else none

/-- `on delete cascade`. -/
def withAccounts (links : Links) (accounts : Accounts) : Links :=
  links.filter fun _ uid ↦ (accounts.users.get uid).isSome

/-- `get_credential_google`, `get_credential_github` and `get_credential_metamask`, and the rows of
the other tables likewise. -/
def credentials (links : Links) (table : LinkTable) (uid : ℤ) : List Identity :=
  (links.table.rows.filter fun r ↦ r.1.table = table ∧ r.2 = uid).map Prod.fst

/-- `get_credentials_openid`. -/
def issuers (links : Links) (uid : ℤ) : List String :=
  (links.credentials .openIdConnect uid).filterMap Identity.issuer

end Links

/-! ### What a third party says of somebody -/

/-- Who somebody is at a third party, and what it says of him besides. -/
inductive LinkProfile where
  | google (email : String) (name : Option String)
  | github (username : String) (email : Option String)
  | openIdConnect (issuer subject : String) (email name : Option String)
  | metaMask (publicAddress : String)
  | thirdParty (userid username : String)
  deriving DecidableEq

namespace LinkProfile

def identity : LinkProfile → Identity
  | google email _ => .google email
  | github username _ => .github username
  | openIdConnect issuer subject _ _ => .openIdConnect issuer subject
  | metaMask publicAddress => .metaMask publicAddress
  | thirdParty userid _ => .thirdParty userid

def createBy : LinkProfile → CreateUserBy
  | google email _ => .google email
  | github username _ => .github username
  | openIdConnect issuer subject email _ => .openIdConnect issuer subject email
  | metaMask publicAddress => .metaMask publicAddress
  | thirdParty userid username => .thirdParty userid username

/-- The address that a user has to have to be given the identity. GitHub need not tell any, and then
it is a user without one. -/
def wanted : LinkProfile → Option (Option String)
  | google email _ => some (some email)
  | github _ email => some email
  | openIdConnect .. | metaMask _ | thirdParty .. => none

/-- Somebody from another site is let in whoever may sign up. -/
def mayRegister : LinkProfile → Bool → Bool
  | thirdParty .., _ => true
  | google .., canRegister | github .., canRegister | openIdConnect .., canRegister |
      metaMask _, canRegister => canRegister

/-- The name and the address that a new user is named after. -/
def nameAndEmail : LinkProfile → Option String × Option String
  | google email name => (name, some email)
  | github username _ => (some username, none)
  | openIdConnect _ _ email name => (name, email)
  | metaMask _ => (none, none)
  | thirdParty _ username => (some username, none)

/-- The user to create, when the picture could be fetched or not. -/
def createUser (profile : LinkProfile) (name : String) (avatar : Bool) : CreateUser where
  name := name
  isAdmin := false
  avatar := avatar
  createBy := profile.createBy

end LinkProfile

namespace Accounts

/-- The first user with the address that a profile wants. -/
def findProfile (s : Accounts) (profile : LinkProfile) : Option ℤ :=
  profile.wanted.bind fun email ↦
    (s.users.entries.find? fun e ↦ e.2.email = email).map Prod.fst

/-- A random number below `hi` and not below `lo`, put behind a name. There is none when the name is
taken: another number is drawn. -/
def drawUsername (s : Accounts) (name : String) (lo hi draw : ℕ) : Option String :=
  if lo ≤ draw ∧ draw < hi ∧ s.checkNameConflict (name ++ toString draw) = true then
    some (name ++ toString draw)
  else none

/-- `assign_username_by_name`, which ends with the number `draw` if it needs one. -/
def assignUsernameByName (s : Accounts) (name : String) (draw : ℕ) : Option String :=
  if s.checkNameConflict name then some name else s.drawUsername name 1111 9999 draw

/-- What is before the first `@`, unless nothing is. -/
def emailName (email : String) : String :=
  let front := email.toList.takeWhile (· ≠ '@')
  if front.length < email.toList.length ∧ front ≠ [] then String.ofList front else email

/-- `assign_username`. -/
def assignUsername (s : Accounts) (name email : Option String) (draw : ℕ) : Option String :=
  match name, email with
  | some name, _ => s.assignUsernameByName name draw
  | none, some email => s.assignUsernameByName (emailName email) draw
  | none, none => s.drawUsername "User" 111111 999999 draw

variable {s : Accounts} {name : String} {draw : ℕ}

theorem checkNameConflict_of_drawUsername {base : String} {lo hi : ℕ}
    (h : s.drawUsername base lo hi draw = some name) : s.checkNameConflict name = true := by
  rw [drawUsername, Option.ite_none_right_eq_some] at h
  obtain ⟨⟨-, -, hfree⟩, hname⟩ := h
  obtain rfl := Option.some.inj hname
  exact hfree

theorem checkNameConflict_of_assignUsernameByName {base : String}
    (h : s.assignUsernameByName base draw = some name) : s.checkNameConflict name = true := by
  rw [assignUsernameByName] at h
  split at h
  · rename_i hfree
    obtain rfl := Option.some.inj h
    exact hfree
  · exact checkNameConflict_of_drawUsername h

/-- A name that is assigned is free. -/
theorem checkNameConflict_of_assignUsername {given email : Option String}
    (h : s.assignUsername given email draw = some name) : s.checkNameConflict name = true := by
  match given, email with
  | some _, _ => exact checkNameConflict_of_assignUsernameByName h
  | none, some _ => exact checkNameConflict_of_assignUsernameByName h
  | none, none => exact checkNameConflict_of_drawUsername h

theorem findProfile_eq_some {profile : LinkProfile} {uid : ℤ}
    (h : s.findProfile profile = some uid) : ∃ email user, profile.wanted = some email ∧
      s.users.get uid = some user ∧ user.email = email := by
  obtain ⟨email, hwanted, hfind⟩ := Option.bind_eq_some_iff.1 h
  obtain ⟨⟨uid', user⟩, hfound, huid⟩ := Option.map_eq_some_iff.1 hfind
  obtain rfl : uid' = uid := huid
  have hemail := List.find?_some hfound
  exact ⟨email, user, hwanted, OrderedMap.get_eq_some.2 (List.mem_of_find?_eq_some hfound),
    of_decide_eq_true hemail⟩

end Accounts

namespace Links

variable {links links' : Links} {accounts : Accounts} {identity identity' : Identity} {uid uid' : ℤ}

theorem mem_credentials {table : LinkTable} :
    identity ∈ links.credentials table uid ↔
      identity.table = table ∧ links.get identity = some uid := by
  rw [credentials, List.mem_map]
  constructor
  · rintro ⟨⟨identity', uid'⟩, hr, rfl⟩
    obtain ⟨hrow, hkeep⟩ := List.mem_filter.1 hr
    obtain ⟨htable, rfl⟩ := of_decide_eq_true hkeep
    exact ⟨htable, Table.get_eq_some.2 hrow⟩
  · rintro ⟨htable, hget⟩
    refine ⟨(identity, uid), List.mem_filter.2 ⟨Table.get_eq_some.1 hget, ?_⟩, rfl⟩
    exact decide_eq_true ⟨htable, rfl⟩

/-- **A user has one identity of each third party**, and those of other sites besides. -/
theorem eq_of_table_eq (hget : links.get identity = some uid)
    (hget' : links.get identity' = some uid)
    (htable : identity.table = identity'.table) (hthird : identity.table ≠ .thirdPartyUsers) :
    identity = identity' := by
  refine IndexedTable.eq_of_index hget hget' (i := (identity.table, uid)) (if_neg hthird) ?_
  rw [htable]
  exact if_neg (htable ▸ hthird)

theorem get_link (h : links.link accounts identity uid = some links') :
    links'.get identity' = if identity' = identity then some uid else links.get identity' := by
  rw [link, Option.ite_none_right_eq_some] at h
  exact IndexedTable.get_insert h.2 identity'

theorem get_link_self (h : links.link accounts identity uid = some links') :
    links'.get identity = some uid := by
  rw [get_link h, if_pos rfl]

theorem get_link_of_get (h : links.link accounts identity uid = some links')
    (hget : links.get identity' = some uid') : links'.get identity' = some uid' := by
  rw [link, Option.ite_none_right_eq_some] at h
  exact IndexedTable.get_insert_of_get h.2 hget

theorem user_of_link (h : links.link accounts identity uid = some links') :
    (accounts.users.get uid).isSome := by
  rw [link, Option.ite_none_right_eq_some] at h
  exact h.1

theorem get_withAccounts : (links.withAccounts accounts).get identity = some uid ↔
    links.get identity = some uid ∧ (accounts.users.get uid).isSome :=
  IndexedTable.get_filter

end Links

end VoceChat
