import VoceChat.Links.System

/-!
# Whom a login lets in

A link goes when its user is deleted, and not before: there is nothing else that takes one away, and
ids of users are not used again. So what a request has found stays right as long as the user is
there, and requests of one identity that run at the same time, the first ones included, agree.

`did` says what a step does to users, links and entries. The invariant follows from it.
-/

namespace VoceChat

open Guards Machine Transition

namespace LinkTask

/-- The identity that a request was made with. -/
def identity : LinkTask → Option Identity
  | proving .. | taken .. | exchanging .. | asking .. => none
  | verified profile _ | unlinked profile | unmatched profile | named profile _ =>
    some profile.identity
  | matched identity _ | binding identity _ | resolved identity _ => some identity

/-- Where a `bind` will link an identity, and to whom. -/
def bound : LinkTask → Option (LinkTable × ℤ)
  | proving _ _ _ purpose => purpose.boundUid.map (.metamaskAuth, ·)
  | taken _ purpose | exchanging _ purpose => purpose.boundUid.map (.openIdConnect, ·)
  | asking table uid => some (table, uid)
  | binding identity uid => some (identity.table, uid)
  | verified .. | unlinked _ | matched .. | unmatched _ | named .. | resolved .. => none

end LinkTask

/-- `bind`, with a token of the user, to an identity in the table. -/
def LinkRequest.BindsTo (table : LinkTable) (uid : ℤ) (req : LinkRequest) : Prop :=
  ∃ token : CurrentUser, token.uid = uid ∧ token.isGuest = false ∧
    (table = .googleAuth ∧ req = .bindGoogle token ∨ table = .githubAuth ∧ req = .bindGithub token ∨
      (table = .openIdConnect ∧ ∃ oidcState, req = .bindOpenIdConnect token oidcState) ∨
      table = .metamaskAuth ∧ ∃ publicAddress nonce signature,
        req = .bindMetaMask token publicAddress nonce signature)

namespace Accounts

variable {ph : PasswordHashing} {s t : Accounts} {uid : ℤ}

/-- A new user has the next id. -/
theorem users_createUser {userLimit : ℕ} {now : ℤ} {salt : String} {req : CreateUser}
    (h : s.createUser ph userLimit now salt req = .ok (uid, t)) :
    uid = s.nextUid ∧ ∃ hash, t.users = s.users.insert uid (req.toUser now hash) := by
  obtain ⟨hash, -, -, -, -, heq⟩ := createUser_eq_ok_iff.1 h
  obtain ⟨rfl, rfl⟩ := Prod.mk.inj heq
  refine ⟨rfl, hash, ?_⟩
  split <;> rfl

end Accounts

namespace LinkSystem

variable {ph : PasswordHashing} {toLowercase : String → String}
  {recover : String → Bytes → Option Bytes} {s t : LinkSystem} {a : LinkAction}

/-! ### What a step does -/

/-- Users, links and entries are as they were. -/
structure Frame (s t : LinkSystem) : Prop where
  accounts : t.accounts = s.accounts
  links : t.links = s.links
  entries : t.entries = s.entries

/-- A step in which the server learns that somebody is there with this identity. -/
inductive Proves (toLowercase : String → String) (recover : String → Bytes → Option Bytes)
    (s : LinkSystem) : LinkAction → Identity → Prop where
  | google (i : ℕ) (email : String) (name : Option String) (canRegister : Bool) :
    Proves toLowercase recover s (.request i (.loginGoogle email name canRegister)) (.google email)
  | github (i : ℕ) (username : String) (email : Option String) (canRegister : Bool) :
    Proves toLowercase recover s (.request i (.loginGithub username email canRegister))
      (.github username)
  | thirdParty (i : ℕ) (userid username : String) (canRegister : Bool) :
    Proves toLowercase recover s (.request i (.loginThirdParty userid username canRegister))
      (.thirdParty userid)
  | bindGoogle (i : ℕ) (key : String) (uid : ℤ)
      (hold : s.tasks i = some (.asking .googleAuth uid)) :
    Proves toLowercase recover s (.run i (.answered key)) (.google (toLowercase key))
  | bindGithub (i : ℕ) (key : String) (uid : ℤ)
      (hold : s.tasks i = some (.asking .githubAuth uid)) :
    Proves toLowercase recover s (.run i (.answered key)) (.github key)
  | openIdConnect (i : ℕ) (issuer subject : String) (email : Option String) (emailVerified : Bool)
      (name : Option String) (purpose : LinkPurpose)
      (hold : s.tasks i = some (.exchanging issuer purpose)) :
    Proves toLowercase recover s (.run i (.exchanged subject email emailVerified name))
      (.openIdConnect issuer subject)
  | metaMask (i : ℕ) (publicAddress nonce signature : String) (purpose : LinkPurpose)
      (hold : s.tasks i = some (.proving publicAddress nonce signature purpose))
      (hcheck : checkMetamaskPublicAddress recover s.nonces publicAddress nonce signature = true) :
    Proves toLowercase recover s (.run i .proved) (.metaMask publicAddress)

/-- Where a task without effects on users and links comes from. -/
structure Came (toLowercase : String → String) (recover : String → Bytes → Option Bytes)
    (s : LinkSystem) (a : LinkAction) (i : ℕ) (task : LinkTask) : Prop where
  proved : ∀ identity, task.identity = some identity →
    (∃ old, s.tasks i = some old ∧ old.identity = some identity) ∨
      Proves toLowercase recover s a identity
  resolved : ∀ identity uid, task = .resolved identity uid → s.links.get identity = some uid
  matched : ∀ identity uid, task = .matched identity uid → a = .run i .found ∧
    ∃ profile, s.tasks i = some (.unlinked profile) ∧ profile.identity = identity ∧
      s.accounts.findProfile profile = some uid
  bound : ∀ table uid, task.bound = some (table, uid) →
    (∃ old, s.tasks i = some old ∧ old.bound = some (table, uid)) ∨
      ∃ req : LinkRequest, a = .request i req ∧ req.BindsTo table uid

inductive Did (ph : PasswordHashing) (toLowercase : String → String)
    (recover : String → Bytes → Option Bytes) (s : LinkSystem) (a : LinkAction) :
    LinkSystem → Prop where
  | accounts (b : AccountAction) :
    Did ph toLowercase recover s a (s.withAccounts (s.accounts.perform ph b))
  | challenge {t : LinkSystem} (hframe : s.Frame t) (htasks : t.tasks = s.tasks) :
    Did ph toLowercase recover s a t
  | moved {t : LinkSystem} (i : ℕ) (task : Option LinkTask) (hframe : s.Frame t)
      (htasks : t.tasks = Function.update s.tasks i task)
      (hcame : ∀ new ∈ task, Came toLowercase recover s a i new) : Did ph toLowercase recover s a t
  | linked (i : ℕ) (identity : Identity) (uid : ℤ) (links : Links) (task : Option LinkTask)
      (hold : s.tasks i = some (.matched identity uid) ∧ task = some (.resolved identity uid) ∨
        s.tasks i = some (.binding identity uid) ∧ task = none)
      (hlink : s.links.link s.accounts identity uid = some links) :
    Did ph toLowercase recover s a { s.setTask i task with links := links }
  | created (i userLimit : ℕ) (now : ℤ) (salt : String) (avatar : Bool) (profile : LinkProfile)
      (name : String) (uid : ℤ) (accounts : Accounts) (links : Links)
      (ha : a = .run i (.created userLimit now salt avatar))
      (hold : s.tasks i = some (.named profile name))
      (hcreate : s.accounts.createUser ph userLimit now salt (profile.createUser name avatar) =
        .ok (uid, accounts))
      (hlink : s.links.link accounts profile.identity uid = some links) :
    Did ph toLowercase recover s a { s.setTask i (some (.resolved profile.identity uid)) with
      accounts := accounts, links := links }
  | entered (i : ℕ) (identity : Identity) (uid : ℤ) (user : Accounts.CacheUser)
      (hold : s.tasks i = some (.resolved identity uid))
      (hlogin : s.accounts.loginUser uid = .ok user) :
    Did ph toLowercase recover s a
      { s.setTask i none with entries := s.entries ++ [(identity, uid)] }

theorem frame_setTask (s : LinkSystem) (i : ℕ) (task : Option LinkTask) :
    s.Frame (s.setTask i task) := ⟨rfl, rfl, rfl⟩

/-- A task that has its identity, and where to bind it, from the one before it. -/
theorem came_of_kept {i : ℕ} {task old : LinkTask} (hold : s.tasks i = some old)
    (hidentity : task.identity = old.identity) (hbound : task.bound = old.bound)
    (hresolved : ∀ identity uid, task ≠ .resolved identity uid)
    (hmatched : ∀ identity uid, task ≠ .matched identity uid) :
    Came toLowercase recover s a i task where
  proved _ h := .inl ⟨old, hold, hidentity ▸ h⟩
  resolved identity uid h := absurd h (hresolved identity uid)
  matched identity uid h := absurd h (hmatched identity uid)
  bound _ _ h := .inl ⟨old, hold, hbound ▸ h⟩

/-- A task without an identity that starts. -/
theorem came_of_request {i : ℕ} {task : LinkTask} (hidentity : task.identity = none)
    (hbound : ∀ table uid, task.bound = some (table, uid) →
      ∃ req : LinkRequest, a = .request i req ∧ req.BindsTo table uid) :
    Came toLowercase recover s a i task where
  proved identity h := nomatch hidentity.symm.trans h
  resolved identity uid h := by
    subst h
    cases hidentity
  matched identity uid h := by
    subst h
    cases hidentity
  bound table uid h := .inr (hbound table uid h)

/-- A login that has its identity at once. -/
theorem came_of_verified {i : ℕ} {profile : LinkProfile} {canRegister : Bool}
    (h : Proves toLowercase recover s a profile.identity) :
    Came toLowercase recover s a i (.verified profile canRegister) :=
  ⟨fun _ hidentity ↦ .inr (Option.some.inj hidentity ▸ h), nofun, nofun, nofun⟩

/-- A task that gets its identity, in the table where it is to be bound. -/
theorem came_of_next {i : ℕ} {profile : LinkProfile} {purpose : LinkPurpose} {old : LinkTask}
    (hold : s.tasks i = some old) (h : Proves toLowercase recover s a profile.identity)
    (hbound : old.bound = purpose.boundUid.map (profile.identity.table, ·)) :
    Came toLowercase recover s a i (purpose.next profile) := by
  cases purpose with
  | login canRegister => exact came_of_verified h
  | bind uid =>
    exact ⟨fun _ hidentity ↦ .inr (Option.some.inj hidentity ▸ h), nofun, nofun,
      fun _ _ hnew ↦ .inl ⟨old, hold, hbound.trans hnew⟩⟩

theorem did_setTask {i : ℕ} {task : Option LinkTask}
    (hcame : ∀ new ∈ task, Came toLowercase recover s a i new) :
    Did ph toLowercase recover s a (s.setTask i task) :=
  .moved i task (s.frame_setTask i task) rfl hcame

theorem did_task {i : ℕ} {task : LinkTask} (hcame : Came toLowercase recover s a i task) :
    Did ph toLowercase recover s a (s.setTask i (some task)) :=
  did_setTask fun _ hnew ↦ Option.some.inj hnew ▸ hcame

theorem did_drop (i : ℕ) : Did ph toLowercase recover s a (s.setTask i none) :=
  did_setTask fun _ h ↦ nomatch h

theorem did_self : Did ph toLowercase recover s a s := .challenge ⟨rfl, rfl, rfl⟩ rfl

theorem did_takeAuthorization {i : ℕ} {oidcState : String} {purpose : LinkPurpose}
    (hbound : ∀ uid ∈ purpose.boundUid,
      ∃ req : LinkRequest, a = .request i req ∧ req.BindsTo .openIdConnect uid) :
    Did ph toLowercase recover s a (s.takeAuthorization i oidcState purpose) := by
  rw [takeAuthorization]
  split
  · exact did_self
  · rename_i issuer hpending
    refine .moved i (some (.taken issuer purpose)) ⟨rfl, rfl, rfl⟩ rfl fun new hnew ↦ ?_
    obtain rfl := Option.some.inj hnew
    refine came_of_request rfl fun table uid h ↦ ?_
    obtain ⟨uid', huid, hpair⟩ := Option.map_eq_some_iff.1 h
    obtain ⟨rfl, rfl⟩ := Prod.mk.inj hpair
    exact hbound uid' huid

theorem did_startBind {i : ℕ} {token : CurrentUser} {table : LinkTable} {task : LinkTask}
    (hidentity : task.identity = none) (hbound : task.bound = some (table, token.uid))
    (hreq : token.isGuest = false → ∃ req : LinkRequest, a = .request i req ∧
      req.BindsTo table token.uid) :
    Did ph toLowercase recover s a (s.startBind i token table task) := by
  rw [startBind]
  split
  · rename_i hfree
    refine did_task (came_of_request hidentity fun table' uid h ↦ ?_)
    obtain ⟨rfl, rfl⟩ := Prod.mk.inj (Option.some.inj (hbound.symm.trans h))
    exact hreq hfree.1
  · exact did_self

theorem did_receive {i : ℕ} {req : LinkRequest} :
    Did ph toLowercase recover s (.request i req) (s.receive toLowercase i req) := by
  cases req with
  | loginGoogle email name canRegister =>
    exact did_task (came_of_verified (.google i email name canRegister))
  | loginGithub username email canRegister =>
    exact did_task (came_of_verified (.github i username email canRegister))
  | loginThirdParty userid username canRegister =>
    exact did_task (came_of_verified (.thirdParty i userid username canRegister))
  | loginMetaMask publicAddress nonce signature canRegister =>
    exact did_task (came_of_request rfl nofun)
  | loginOpenIdConnect oidcState canRegister => exact did_takeAuthorization fun uid h ↦ nomatch h
  | bindGoogle token =>
    exact did_startBind rfl rfl fun hguest ↦ ⟨_, rfl, token, rfl, hguest, .inl ⟨rfl, rfl⟩⟩
  | bindGithub token =>
    exact did_startBind rfl rfl fun hguest ↦ ⟨_, rfl, token, rfl, hguest, .inr (.inl ⟨rfl, rfl⟩)⟩
  | bindOpenIdConnect token oidcState =>
    simp only [receive]
    split
    · rename_i hguest
      refine did_takeAuthorization fun uid h ↦ ?_
      obtain rfl := Option.some.inj h
      exact ⟨_, rfl, token, rfl, hguest, .inr (.inr (.inl ⟨rfl, _, rfl⟩))⟩
    · exact did_self
  | bindMetaMask token publicAddress nonce signature =>
    exact did_startBind rfl rfl fun hguest ↦
      ⟨_, rfl, token, rfl, hguest, .inr (.inr (.inr ⟨rfl, _, _, _, rfl⟩))⟩

theorem did_createLinked {i userLimit : ℕ} {now : ℤ} {salt : String} {avatar : Bool}
    {profile : LinkProfile} {name : String} (hold : s.tasks i = some (.named profile name)) :
    Did ph toLowercase recover s (.run i (.created userLimit now salt avatar))
      ((s.createLinked ph i userLimit now salt profile (profile.createUser name avatar)).getD
        (s.setTask i none)) := by
  cases h : s.createLinked ph i userLimit now salt profile (profile.createUser name avatar) with
  | none => exact did_drop i
  | some t =>
    rw [createLinked, Option.bind_eq_bind, Option.bind_eq_some_iff] at h
    obtain ⟨⟨uid, accounts⟩, hcreate, h⟩ := h
    obtain ⟨links, hlink, ht⟩ := Option.bind_eq_some_iff.1 h
    obtain rfl := Option.some.inj ht
    exact .created i userLimit now salt avatar profile name uid accounts links rfl hold
      (toOption_eq_some.1 hcreate) hlink

theorem did_inserted {i : ℕ} {identity : Identity} {uid : ℤ} {task : Option LinkTask}
    (hold : s.tasks i = some (.matched identity uid) ∧ task = some (.resolved identity uid) ∨
      s.tasks i = some (.binding identity uid) ∧ task = none) :
    Did ph toLowercase recover s a (((s.links.link s.accounts identity uid).map fun links ↦
      { s.setTask i task with links := links }).getD (s.setTask i none)) := by
  cases h : s.links.link s.accounts identity uid with
  | none => exact did_drop i
  | some links => exact .linked i identity uid links task hold h

theorem did_selected {i : ℕ} {profile : LinkProfile} {canRegister : Bool}
    (hold : s.tasks i = some (.verified profile canRegister)) :
    Did ph toLowercase recover s a (s.setTask i
      (match s.links.get profile.identity with
      | some uid => some (.resolved profile.identity uid)
      | none => if profile.mayRegister canRegister then some (.unlinked profile) else none)) := by
  split
  · rename_i uid hget
    refine did_task ⟨fun identity h ↦ .inl ⟨_, hold, h⟩, fun identity uid' h ↦ ?_, nofun, nofun⟩
    cases h
    exact hget
  · split
    · exact did_task (came_of_kept hold rfl rfl nofun nofun)
    · exact did_drop i

theorem did_found {i : ℕ} {profile : LinkProfile} (hold : s.tasks i = some (.unlinked profile)) :
    Did ph toLowercase recover s (.run i .found) (s.setTask i (some
      (match s.accounts.findProfile profile with
      | some uid => .matched profile.identity uid
      | none => .unmatched profile))) := by
  split
  · rename_i uid hfind
    refine did_task ⟨fun identity h ↦ .inl ⟨_, hold, h⟩, nofun, fun identity uid' h ↦ ?_, nofun⟩
    cases h
    exact ⟨rfl, profile, hold, rfl, hfind⟩
  · exact did_task (came_of_kept hold rfl rfl nofun nofun)

theorem did_advance {i : ℕ} {input : LinkInput} {task : LinkTask} (htask : s.tasks i = some task)
    (h : s.advance ph toLowercase recover i input task = some t) :
    Did ph toLowercase recover s (.run i input) t := by
  rw [advance.eq_def] at h
  split at h
  · rename_i publicAddress nonce signature purpose
    obtain rfl := Option.some.inj h
    split
    · rename_i hcheck
      exact did_task (came_of_next htask (.metaMask i _ _ _ purpose htask hcheck) rfl)
    · exact did_drop i
  · obtain rfl := Option.some.inj h
    split
    · exact did_drop i
    · exact did_task (came_of_kept htask rfl rfl nofun nofun)
  · rename_i purpose
    obtain rfl := Option.some.inj h
    exact did_task (came_of_next htask (.openIdConnect i _ _ _ _ _ purpose htask) rfl)
  · rename_i key uid
    obtain rfl := Option.some.inj h
    have hcame : Came toLowercase recover s (.run i (.answered key)) i
        ((LinkPurpose.bind uid).next (.google (toLowercase key) none)) :=
      came_of_next htask (.bindGoogle i key uid htask) rfl
    exact did_task hcame
  · rename_i key uid
    obtain rfl := Option.some.inj h
    have hcame : Came toLowercase recover s (.run i (.answered key)) i
        ((LinkPurpose.bind uid).next (.github key none)) :=
      came_of_next htask (.bindGithub i key uid htask) rfl
    exact did_task hcame
  · obtain rfl := Option.some.inj h
    exact did_selected htask
  · obtain rfl := Option.some.inj h
    exact did_found htask
  · obtain rfl := Option.some.inj h
    exact did_inserted (.inl ⟨htask, rfl⟩)
  · obtain rfl := Option.some.inj h
    exact did_inserted (.inr ⟨htask, rfl⟩)
  · obtain ⟨name, -, rfl⟩ := Option.map_eq_some_iff.1 h
    exact did_task (came_of_kept htask rfl rfl nofun nofun)
  · obtain rfl := Option.some.inj h
    exact did_createLinked htask
  · obtain rfl := Option.some.inj h
    split
    · rename_i user hlogin
      exact .entered i _ _ user htask hlogin
    · exact did_drop i
  · obtain rfl := Option.some.inj h
    exact did_drop i
  · cases h

/-- **What a step does** to users, links and entries. -/
theorem did (h : s.step ph toLowercase recover a = some t) : Did ph toLowercase recover s a t := by
  cases a with
  | accounts b =>
    obtain rfl := Option.some.inj h
    exact .accounts b
  | metamaskNonce publicAddress nonce =>
    obtain rfl := Option.some.inj h
    exact .challenge ⟨rfl, rfl, rfl⟩ rfl
  | openidAuthorize csrfToken issuer =>
    obtain rfl := Option.some.inj h
    exact .challenge ⟨rfl, rfl, rfl⟩ rfl
  | timeout csrfToken =>
    obtain rfl := Option.some.inj h
    exact .challenge ⟨rfl, rfl, rfl⟩ rfl
  | request i req =>
    rw [step, Option.ite_none_right_eq_some] at h
    obtain rfl := Option.some.inj h.2
    exact did_receive
  | run i input =>
    obtain ⟨task, htask, hadvance⟩ := Option.bind_eq_some_iff.1 h
    exact did_advance htask hadvance

/-! ### The invariant -/

/-- The user has the identity, if he is still there. -/
def Settled (s : LinkSystem) (identity : Identity) (uid : ℤ) : Prop :=
  uid < s.accounts.nextUid ∧
    ((s.accounts.users.get uid).isSome → s.links.get identity = some uid)

structure Inv (s : LinkSystem) : Prop where
  accounts : s.accounts.Inv
  users : ∀ identity uid, s.links.get identity = some uid → (s.accounts.users.get uid).isSome
  resolved : ∀ i identity uid, s.tasks i = some (.resolved identity uid) → s.Settled identity uid
  entries : ∀ e ∈ s.entries, s.Settled e.1 e.2

theorem inv_start : start.Inv where
  accounts := Accounts.inv_start
  users _ _ h := nomatch h
  resolved _ _ _ h := nomatch h
  entries _ h := nomatch h

variable {identity identity' : Identity} {uid : ℤ}

theorem Inv.settled (h : s.Inv) (hget : s.links.get identity = some uid) :
    s.Settled identity uid := by
  obtain ⟨user, huser⟩ := Option.isSome_iff_exists.1 (h.users identity uid hget)
  exact ⟨h.accounts.uids uid user huser, fun _ ↦ hget⟩

/-- The users that a request of the accounts leaves. -/
theorem wrote_perform (s : LinkSystem) (b : AccountAction) :
    Accounts.Wrote s.accounts b (s.accounts.perform ph b) := s.accounts.wrote b

theorem wrote_createUser {userLimit : ℕ} {now : ℤ} {salt : String} {req : CreateUser}
    {accounts : Accounts}
    (h : s.accounts.createUser ph userLimit now salt req = .ok (uid, accounts)) :
    Accounts.Wrote s.accounts (.createUser userLimit now salt req) accounts :=
  Accounts.wrote_of_request (map_eq_ok.2 ⟨_, h, rfl⟩)

/-- What is settled stays so. -/
theorem Settled.of_wrote (h : s.Settled identity uid) {b : AccountAction} {accounts : Accounts}
    (hw : Accounts.Wrote s.accounts b accounts) (haccounts : t.accounts = accounts)
    (hlinks : s.links.get identity = some uid → (accounts.users.get uid).isSome →
      t.links.get identity = some uid) : t.Settled identity uid := by
  obtain rfl := haccounts
  refine ⟨lt_of_lt_of_le h.1 hw.nextUid_le, fun huser ↦ ?_⟩
  exact hlinks (h.2 (hw.isSome_of_isSome h.1 huser)) huser

theorem Settled.of_frame (h : s.Settled identity uid) (hframe : s.Frame t) :
    t.Settled identity uid := by
  rw [Settled, hframe.accounts, hframe.links]
  exact h

theorem Settled.did (h : s.Settled identity uid) (hdid : Did ph toLowercase recover s a t) :
    t.Settled identity uid := by
  cases hdid with
  | accounts b =>
    exact h.of_wrote (s.wrote_perform b) rfl fun hget huser ↦
      Links.get_withAccounts.2 ⟨hget, huser⟩
  | challenge hframe htasks => exact h.of_frame hframe
  | moved i task hframe htasks hcame => exact h.of_frame hframe
  | linked i identity' uid' links task hold hlink =>
    exact ⟨h.1, fun huser ↦ Links.get_link_of_get hlink (h.2 huser)⟩
  | created i userLimit now salt avatar profile name uid' accounts links ha hold hcreate hlink =>
    exact h.of_wrote (wrote_createUser hcreate) rfl fun hget _ ↦
      Links.get_link_of_get hlink hget
  | entered i identity' uid' user hold hlogin => exact h

theorem inv_of_did (h : s.Inv) (hdid : Did ph toLowercase recover s a t) : t.Inv := by
  have hsettled : ∀ identity uid, s.Settled identity uid → t.Settled identity uid :=
    fun _ _ hs ↦ hs.did hdid
  cases hdid with
  | accounts b =>
    refine ⟨(s.wrote_perform b).inv h.accounts, fun identity uid hget ↦ ?_,
      fun i identity uid htask ↦ hsettled _ _ (h.resolved i identity uid htask),
      fun e he ↦ hsettled _ _ (h.entries e he)⟩
    exact (Links.get_withAccounts.1 hget).2
  | challenge hframe htasks =>
    obtain ⟨haccounts, hlinks, hentries⟩ := hframe
    refine ⟨haccounts ▸ h.accounts, fun identity uid hget ↦ ?_, fun i identity uid htask ↦ ?_,
      fun e he ↦ hsettled _ _ (h.entries e (hentries ▸ he))⟩
    · rw [haccounts]
      exact h.users identity uid (hlinks ▸ hget)
    · exact hsettled _ _ (h.resolved i identity uid (htasks ▸ htask))
  | moved i task hframe htasks hcame =>
    obtain ⟨haccounts, hlinks, hentries⟩ := hframe
    refine ⟨haccounts ▸ h.accounts, fun identity uid hget ↦ ?_, fun j identity uid htask ↦ ?_,
      fun e he ↦ hsettled _ _ (h.entries e (hentries ▸ he))⟩
    · rw [haccounts]
      exact h.users identity uid (hlinks ▸ hget)
    · rw [htasks, Function.update_apply] at htask
      split at htask
      · exact hsettled _ _ (h.settled ((hcame _ htask).resolved identity uid rfl))
      · exact hsettled _ _ (h.resolved j identity uid htask)
  | linked i identity' uid' links task hold hlink =>
    refine ⟨h.accounts, fun identity uid hget ↦ ?_, fun j identity uid htask ↦ ?_,
      fun e he ↦ hsettled _ _ (h.entries e he)⟩
    · rw [Links.get_link hlink] at hget
      split at hget
      · obtain rfl := Option.some.inj hget
        exact Links.user_of_link hlink
      · exact h.users identity uid hget
    · have htask : Function.update s.tasks i task j = some (.resolved identity uid) := htask
      rw [Function.update_apply] at htask
      split at htask
      · obtain ⟨-, rfl⟩ | ⟨-, rfl⟩ := hold
        · cases htask
          obtain ⟨user, huser⟩ := Option.isSome_iff_exists.1 (Links.user_of_link hlink)
          exact ⟨h.accounts.uids _ user huser, fun _ ↦ Links.get_link_self hlink⟩
        · cases htask
      · exact hsettled _ _ (h.resolved j identity uid htask)
  | created i userLimit now salt avatar profile name uid' accounts links ha hold hcreate hlink =>
    have hw := wrote_createUser hcreate
    have hinv := hw.inv h.accounts
    refine ⟨hinv, fun identity uid hget ↦ ?_, fun j identity uid htask ↦ ?_,
      fun e he ↦ hsettled _ _ (h.entries e he)⟩
    · rw [Links.get_link hlink] at hget
      split at hget
      · obtain rfl := Option.some.inj hget
        exact Links.user_of_link hlink
      · obtain ⟨-, hash, husers⟩ := Accounts.users_createUser hcreate
        show (accounts.users.get uid).isSome
        rw [husers, OrderedMap.get_insert]
        split
        · rfl
        · exact h.users identity uid hget
    · have htask : Function.update s.tasks i _ j = some (.resolved identity uid) := htask
      rw [Function.update_apply] at htask
      split at htask
      · cases htask
        obtain ⟨user, huser⟩ := Option.isSome_iff_exists.1 (Links.user_of_link hlink)
        exact ⟨hinv.uids _ user huser, fun _ ↦ Links.get_link_self hlink⟩
      · exact hsettled _ _ (h.resolved j identity uid htask)
  | entered i identity' uid' user hold hlogin =>
    refine ⟨h.accounts, h.users, fun j identity uid htask ↦ ?_, fun e he ↦ ?_⟩
    · have htask : Function.update s.tasks i none j = some (.resolved identity uid) := htask
      rw [Function.update_apply] at htask
      split at htask
      · cases htask
      · exact h.resolved j identity uid htask
    · rcases List.mem_append.1 he with he | he
      · exact h.entries e he
      · obtain rfl := List.mem_singleton.1 he
        exact h.resolved i identity' uid' hold

theorem inv_of_run {as : List LinkAction}
    (hrun : run (step ph toLowercase recover) start as = some s) : s.Inv :=
  run_induction (fun _ _ _ h hstep ↦ inv_of_did h (did hstep)) inv_start hrun

theorem settled_of_run (h : s.Settled identity uid) {as : List LinkAction}
    (hrun : run (step ph toLowercase recover) s as = some t) : t.Settled identity uid :=
  run_induction (I := fun u ↦ u.Settled identity uid) (fun _ _ _ hs hstep ↦ hs.did (did hstep)) h
    hrun

/-! ### Links and entries in any run -/

/-- **A link lasts as long as its user.** Whoever has an identity is a user; he has it in every
later state in which he is still one, and in no other; and meanwhile he has no other identity of the
same third party. -/
theorem link_lasts {as bs : List LinkAction}
    (hs : run (step ph toLowercase recover) start as = some s)
    (ht : run (step ph toLowercase recover) s bs = some t)
    (hget : s.links.get identity = some uid) :
    (s.accounts.users.get uid).isSome ∧
      ((t.accounts.users.get uid).isSome ↔ t.links.get identity = some uid) ∧
      ∀ identity', t.links.get identity' = some uid → t.links.get identity = some uid →
        identity'.table = identity.table → identity.table ≠ .thirdPartyUsers →
          identity' = identity := by
  have hinv := inv_of_run hs
  have hrun : run (step ph toLowercase recover) start (as ++ bs) = some t := by
    rw [run_append, hs]
    exact ht
  have hinv' := inv_of_run hrun
  refine ⟨hinv.users identity uid hget, ⟨?_, hinv'.users identity uid⟩, ?_⟩
  · exact (settled_of_run (hinv.settled hget) ht).2
  · intro identity' hget' hself htable hthird
    exact Links.eq_of_table_eq hget' hself htable (htable ▸ hthird)

/-- **Everybody is let in as one user.** In any run, whoever was let in as a user that is still
there has him as his user; so all logins of an identity as users that are still there were logins as
the same one, those included that ran at the same time while the identity had no user yet. -/
theorem entries_agree {as : List LinkAction}
    (hrun : run (step ph toLowercase recover) start as = some s)
    (hentry : (identity, uid) ∈ s.entries) (huser : (s.accounts.users.get uid).isSome) :
    s.links.get identity = some uid ∧ ∀ uid', (identity, uid') ∈ s.entries →
      (s.accounts.users.get uid').isSome → uid' = uid := by
  have hinv := inv_of_run hrun
  have hget : s.links.get identity = some uid := (hinv.entries _ hentry).2 huser
  refine ⟨hget, fun uid' hentry' huser' ↦ ?_⟩
  exact Option.some.inj (((hinv.entries _ hentry').2 huser').symm.trans hget)

/-- Two first logins of one identity at the same time: the one that creates the user second fails,
and logs in when it is tried again. -/
def twoFirstLogins : List LinkAction :=
  [.request 0 (.loginGithub "ann" (some "ann@x") true),
    .request 1 (.loginGithub "ann" (some "ann@x") true), .run 0 .selected, .run 1 .selected,
    .run 0 .found, .run 1 .found, .run 0 (.nameAssigned 0), .run 1 (.nameAssigned 0),
    .run 0 (.created 10 0 "" false), .run 1 (.created 10 0 "" false), .run 0 .entered,
    .request 1 (.loginGithub "ann" (some "ann@x") true), .run 1 .selected, .run 1 .entered]

theorem link_lasts_twoFirstLogins : ∃ s, run (step .transparent id fun _ _ ↦ none) start
    twoFirstLogins = some s ∧ (s.accounts.users.get 1).isSome := by
  obtain ⟨s, hs, hget⟩ : ∃ s, run (step .transparent id fun _ _ ↦ none) start twoFirstLogins =
      some s ∧ s.links.get (.github "ann") = some 1 := ⟨_, rfl, rfl⟩
  exact ⟨s, hs, (link_lasts hs (run_nil s) hget).1⟩

theorem entries_agree_twoFirstLogins : ∃ s, run (step .transparent id fun _ _ ↦ none) start
    twoFirstLogins = some s ∧ s.entries = [(.github "ann", 1), (.github "ann", 1)] ∧
      s.links.get (.github "ann") = some 1 := by
  obtain ⟨s, hs, hentries, huser⟩ : ∃ s, run (step .transparent id fun _ _ ↦ none) start
      twoFirstLogins = some s ∧ s.entries = [(.github "ann", 1), (.github "ann", 1)] ∧
        (s.accounts.users.get 1).isSome := ⟨_, rfl, rfl, rfl⟩
  have hentry : (Identity.github "ann", (1 : ℤ)) ∈ s.entries := hentries ▸ List.mem_cons_self
  exact ⟨s, hs, hentries, (entries_agree hs hentry huser).1⟩

end LinkSystem

end VoceChat
