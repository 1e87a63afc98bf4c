import VoceChat.Accounts.PasswordLogin

/-!
# Sessions (`do_login`, `renew` and `logout` in `src/api/token.rs`, `crates/token`)

A login hands out a refresh token and an access token, and stores the refresh token under the user
and the device. `renew` exchanges a refresh token for a new pair if it is the stored one. Nothing
else is looked up: neither the user nor the device. So a session ends when its row goes, and what
removes rows is `logout` and the deletion of the user. `delete_device` removes the device but not
the token, and freezing a user removes nothing; the tokens of both are renewed as before. And as
`renew` copies the user of the old token into the new one, a change of role does not reach it.

`renewals_sound_iff` says when all renewals along a run are as they should be: exactly when devices
are deleted, users frozen and roles changed while there is no token that could still be renewed.

Signed tokens stand for themselves here; a string that the server has not signed parses to nothing,
and is refused by everything. Nonces are drawn at random and do not repeat, so they are counted. The
cached devices, and the answers that depend on them, are left out.
-/

namespace VoceChat

open Guards

/-! ### Tokens -/

inductive TokenType where
  | accessToken
  | refreshToken
  deriving DecidableEq, Repr

structure TokenFields where
  data : CurrentUser
  expireAt : ℤ
  nonce : ℕ
  tokenType : TokenType
  deriving DecidableEq, Repr

/-- The expiry times of the configuration. -/
structure TokenExpiry where
  refreshTokenExpirySeconds : ℤ
  tokenExpirySeconds : ℤ
  deriving DecidableEq

/-- A refresh token and an access token. -/
structure TokenPair where
  refreshToken : TokenFields
  token : TokenFields
  deriving DecidableEq

/-- `create_token_pair`. -/
def createTokenPair (expiry : TokenExpiry) (now : ℤ) (nonce : ℕ) (data : CurrentUser) :
    TokenPair where
  refreshToken := ⟨data, now + expiry.refreshTokenExpirySeconds, nonce, .refreshToken⟩
  token := ⟨data, now + expiry.tokenExpirySeconds, nonce + 1, .accessToken⟩

/-- The accounts with the tables `refresh_token` and `device`, whose keys are a user and a device.
-/
structure Sessions where
  accounts : Accounts
  refreshToken : ℤ × String → Option TokenFields
  device : ℤ × String → Bool
  now : ℤ
  nextNonce : ℕ

inductive TokenError where
  | illegalToken
  | forbidden
  | unauthorized
  deriving DecidableEq, Repr

/-- The row that a token is stored in. -/
def CurrentUser.row (user : CurrentUser) : ℤ × String := (user.uid, user.device)

namespace Sessions

def start : Sessions := ⟨.start, fun _ ↦ none, fun _ ↦ false, 0, 0⟩

/-- A new pair of tokens, the refresh token stored in its row. -/
def issue (s : Sessions) (expiry : TokenExpiry) (data : CurrentUser) : TokenPair × Sessions :=
  let pair := createTokenPair expiry s.now s.nextNonce data
  (pair, { s with
    refreshToken := Function.update s.refreshToken data.row (some pair.refreshToken)
    nextNonce := s.nextNonce + 2 })

/-- `do_login`. -/
def doLogin (expiry : TokenExpiry) (s : Sessions) (uid : ℤ) (device : String) :
    Except LoginError (TokenPair × Sessions) := do
  let user ← s.accounts.loginUser uid
  let (pair, issued) := s.issue expiry ⟨uid, device, user.isAdmin, user.isGuest⟩
  return (pair, { issued with device := Function.update issued.device (uid, device) true })

/-- `renew`. -/
def renew (expiry : TokenExpiry) (s : Sessions) (token refreshToken : TokenFields) :
    Except TokenError (TokenPair × Sessions) := do
  ensure (token.tokenType = .accessToken) .illegalToken
  ensure (¬refreshToken.expireAt < s.now) .illegalToken
  ensure (refreshToken.tokenType = .refreshToken) .illegalToken
  ensure (token.data = refreshToken.data) .illegalToken
  let prevRefreshToken ← okOr (s.refreshToken token.data.row) .illegalToken
  ensure (prevRefreshToken = refreshToken) .illegalToken
  return s.issue expiry token.data

/-- `logout`. -/
def logout (s : Sessions) (token : CurrentUser) : Except TokenError Sessions := do
  ensure ((s.accounts.users.get token.uid).isSome = true) .illegalToken
  return { s with
    refreshToken := Function.update s.refreshToken token.row none
    device := Function.update s.device token.row false }

/-- `delete_device`. -/
def deleteDevice (s : Sessions) (token : CurrentUser) (device : String) :
    Except TokenError Sessions := do
  ensure (token.isGuest = false) .forbidden
  ensure (s.device (token.uid, device) = true) .unauthorized
  return { s with device := Function.update s.device (token.uid, device) false }

/-- Other users in the accounts: rows of users that are gone are gone too (`on delete cascade`). -/
def withAccounts (s : Sessions) (accounts : Accounts) : Sessions :=
  { s with
    accounts := accounts
    refreshToken := fun row ↦
      if (accounts.users.get row.1).isSome then s.refreshToken row else none
    device := fun row ↦ (accounts.users.get row.1).isSome && s.device row }

end Sessions

/-! ### Sessions with their past -/

/-- The sessions, the refresh tokens that were issued, and those of them that were issued before
their session was ended. -/
structure SessionHistory where
  sessions : Sessions
  issued : List TokenFields
  revoked : List TokenFields

/-- The requests. A login is one with any credential, that has led to the user. -/
inductive TokenAction where
  | tick (seconds : ℕ)
  | login (expiry : TokenExpiry) (uid : ℤ) (device : String)
  | renew (expiry : TokenExpiry) (token refreshToken : TokenFields)
  | logout (token : CurrentUser)
  | deleteDevice (token : CurrentUser) (device : String)
  | account (a : AccountAction)

namespace AccountAction

/-- The user that a request deletes. -/
def deletes : AccountAction → Option ℤ
  | .adminDelete _ uid => some uid
  | .deleteCurrentUser token => some token.uid
  | _ => none

/-- The user that a request freezes. -/
def freezes : AccountAction → Option ℤ
  | .adminUpdate _ _ _ uid req => if req.status = some .frozen then some uid else none
  | _ => none

/-- The role of a user after a request, from the one before it. -/
def isAdminAfter (uid : ℤ) (isAdmin : Bool) : AccountAction → Bool
  | .adminUpdate _ _ _ uid' req => if uid' = uid then req.isAdmin.getD isAdmin else isAdmin
  | _ => isAdmin

end AccountAction

namespace SessionHistory

variable (ph : PasswordHashing)

def start : SessionHistory := ⟨.start, [], []⟩

/-- A pair of tokens was issued, or not. -/
def recordIssued {ε : Type} (s : SessionHistory) (result : Except ε (TokenPair × Sessions)) :
    SessionHistory :=
  match result with
  | .ok (pair, t) => { s with sessions := t, issued := pair.refreshToken :: s.issued }
  | .error _ => s

/-- The sessions of a user on some devices were ended, or not. -/
def recordEnded (s : SessionHistory) (ended : ℤ × String → Bool)
    (result : Except TokenError Sessions) : SessionHistory :=
  match result with
  | .ok t => { s with
      sessions := t, revoked := s.revoked ++ s.issued.filter fun tok ↦ ended tok.data.row }
  | .error _ => s

/-- What a request does. -/
def perform (s : SessionHistory) : TokenAction → SessionHistory
  | .tick seconds => { s with sessions := { s.sessions with now := s.sessions.now + seconds } }
  | .login expiry uid device => s.recordIssued (s.sessions.doLogin expiry uid device)
  | .renew expiry token refreshToken => s.recordIssued (s.sessions.renew expiry token refreshToken)
  | .logout token => s.recordEnded (fun row ↦ row = token.row) (s.sessions.logout token)
  | .deleteDevice token device =>
    s.recordEnded (fun row ↦ row = (token.uid, device)) (s.sessions.deleteDevice token device)
  | .account a =>
    match s.sessions.accounts.request ph a with
    | .ok t =>
      s.recordEnded (fun row ↦ a.deletes = some row.1 ∨ a.freezes = some row.1)
        (.ok (s.sessions.withAccounts t))
    | .error _ => s

/-- The sessions after some requests. -/
def after (as : List TokenAction) : SessionHistory := as.foldl (perform ph) start

/-- Whatever is renewed was issued after the last end of its session, and the new access token has
the role that its user has. -/
def RenewalsSound (s : SessionHistory) : Prop :=
  ∀ expiry token refreshToken pair t, s.sessions.renew expiry token refreshToken = .ok (pair, t) →
    refreshToken ∉ s.revoked ∧
    ∃ user, s.sessions.accounts.users.get pair.token.data.uid = some user ∧
      pair.token.data.isAdmin = user.isAdmin

end SessionHistory

/-- The stored token of a row, while it can still be renewed. -/
def Sessions.renewable (s : Sessions) (row : ℤ × String) : Option TokenFields :=
  (s.refreshToken row).filter fun tok ↦ !decide (tok.expireAt < s.now)

namespace SessionHistory

/-- A device is deleted, and a user frozen or its role changed, while they have no token that can be
renewed. Everything else may happen at any time. -/
def EndsUnused (ph : PasswordHashing) (s : SessionHistory) : TokenAction → Prop
  | .deleteDevice token device =>
    token.isGuest = false → s.sessions.device (token.uid, device) = true →
      s.sessions.renewable (token.uid, device) = none
  | .account a =>
    ∀ t, s.sessions.accounts.request ph a = .ok t →
      ∀ uid user, s.sessions.accounts.users.get uid = some user →
        a.freezes = some uid ∨ a.isAdminAfter uid user.isAdmin ≠ user.isAdmin →
          ∀ device, s.sessions.renewable (uid, device) = none
  | _ => True

/-! ### What is always so -/

/-- Rows belong to users that are there, and hold refresh tokens that were issued for them. -/
structure Inv (s : SessionHistory) : Prop where
  accounts : s.sessions.accounts.Inv
  row : ∀ row tok, s.sessions.refreshToken row = some tok →
    tok.data.row = row ∧ tok.tokenType = .refreshToken ∧ tok ∈ s.issued ∧
      ∃ user, s.sessions.accounts.users.get row.1 = some user
  nonce : ∀ tok ∈ s.issued, tok.nonce < s.sessions.nextNonce
  revoked : ∀ tok ∈ s.revoked, tok ∈ s.issued

/-- What can be renewed was issued after the last end of its session, with the role of its user. -/
def Sound (s : SessionHistory) : Prop :=
  ∀ row tok, s.sessions.renewable row = some tok → tok ∉ s.revoked ∧
    ∃ user, s.sessions.accounts.users.get row.1 = some user ∧ tok.data.isAdmin = user.isAdmin

variable {ph : PasswordHashing} {s : SessionHistory} {row : ℤ × String} {tok : TokenFields}

theorem renewable_eq_some {t : Sessions} :
    t.renewable row = some tok ↔ t.refreshToken row = some tok ∧ ¬tok.expireAt < t.now := by
  rw [Sessions.renewable, Option.filter_eq_some_iff, Bool.not_eq_true', decide_eq_false_iff_not]

theorem renew_eq_ok {t : Sessions} {expiry : TokenExpiry} {token refreshToken : TokenFields}
    {result : TokenPair × Sessions} :
    t.renew expiry token refreshToken = .ok result ↔
      token.tokenType = .accessToken ∧ refreshToken.tokenType = .refreshToken ∧
      token.data = refreshToken.data ∧ t.renewable token.data.row = some refreshToken ∧
      t.issue expiry token.data = result := by
  simp only [Sessions.renew, ensure_eq_ok, bind_eq_ok, okOr_eq_ok, pure_eq_ok, exists_unit,
    renewable_eq_some]
  constructor
  · rintro ⟨htype, hexpire, hrefresh, hdata, prev, hprev, rfl, hissue⟩
    exact ⟨htype, hrefresh, hdata, ⟨hprev, hexpire⟩, hissue⟩
  · rintro ⟨htype, hrefresh, hdata, ⟨hprev, hexpire⟩, hissue⟩
    exact ⟨htype, hexpire, hrefresh, hdata, refreshToken, hprev, rfl, hissue⟩

theorem renewalsSound_iff (h : s.Inv) : s.RenewalsSound ↔ s.Sound := by
  constructor
  · intro hsound row tok hrow
    obtain ⟨rfl, htype, -⟩ := h.row row tok (renewable_eq_some.1 hrow).1
    exact hsound ⟨0, 0⟩ ⟨tok.data, 0, 0, .accessToken⟩ tok _ _
      (renew_eq_ok.2 ⟨rfl, htype, rfl, hrow, rfl⟩)
  · intro hsound expiry token refreshToken pair t hok
    obtain ⟨-, -, hdata, hrow, hissue⟩ := renew_eq_ok.1 hok
    obtain ⟨hrevoked, user, huser, hadmin⟩ := hsound _ _ hrow
    have hpair : pair.token.data = token.data := by
      obtain rfl := (Prod.ext_iff.1 hissue).1
      rfl
    rw [hpair, hdata] at *
    exact ⟨hrevoked, user, hdata ▸ huser, hadmin⟩

/-! ### Issuing tokens -/

/-- A history in which a pair of tokens was just issued for `data`. -/
def withPair (s : SessionHistory) (expiry : TokenExpiry) (data : CurrentUser)
    (device : ℤ × String → Bool) : SessionHistory :=
  { s with
    sessions := { (s.sessions.issue expiry data).2 with device := device }
    issued := (s.sessions.issue expiry data).1.refreshToken :: s.issued }

variable {expiry : TokenExpiry} {data : CurrentUser} {device : ℤ × String → Bool}

theorem Inv.withPair (h : s.Inv)
    (huser : ∃ user, s.sessions.accounts.users.get data.uid = some user) :
    (s.withPair expiry data device).Inv where
  accounts := h.accounts
  row row tok hrow := by
    change Function.update s.sessions.refreshToken data.row _ row = some tok at hrow
    rw [Function.update_apply] at hrow
    split at hrow
    · rename_i heq
      obtain rfl := Option.some.inj hrow
      obtain rfl := heq
      exact ⟨rfl, rfl, List.mem_cons_self, huser⟩
    · obtain ⟨hdata, htype, hissued, hexists⟩ := h.row row tok hrow
      exact ⟨hdata, htype, List.mem_cons_of_mem _ hissued, hexists⟩
  nonce tok htok := by
    show tok.nonce < s.sessions.nextNonce + 2
    rcases List.mem_cons.1 htok with rfl | htok
    · show s.sessions.nextNonce < s.sessions.nextNonce + 2
      omega
    · have := h.nonce tok htok
      omega
  revoked tok htok := List.mem_cons_of_mem _ (h.revoked tok htok)

theorem Sound.withPair (h : s.Inv) (hsound : s.Sound) {user : Accounts.CacheUser}
    (huser : s.sessions.accounts.users.get data.uid = some user)
    (hadmin : data.isAdmin = user.isAdmin) : (s.withPair expiry data device).Sound := by
  intro row tok hrow
  obtain ⟨hrow, hexpire⟩ := renewable_eq_some.1 hrow
  change Function.update s.sessions.refreshToken data.row _ row = some tok at hrow
  rw [Function.update_apply] at hrow
  split at hrow
  · rename_i heq
    obtain rfl := Option.some.inj hrow
    obtain rfl := heq
    -- the nonce is one that no token before has had
    refine ⟨fun hrevoked ↦ ?_, user, huser, hadmin⟩
    exact absurd (h.nonce _ (h.revoked _ hrevoked)) (lt_irrefl _)
  · exact hsound row tok (renewable_eq_some.2 ⟨hrow, hexpire⟩)

theorem doLogin_eq_ok {t : Sessions} {uid : ℤ} {name : String} {result : TokenPair × Sessions} :
    t.doLogin expiry uid name = .ok result ↔ ∃ user, t.accounts.users.get uid = some user ∧
      user.status ≠ .frozen ∧
      ((t.issue expiry ⟨uid, name, user.isAdmin, user.isGuest⟩).1,
        { (t.issue expiry ⟨uid, name, user.isAdmin, user.isGuest⟩).2 with
          device := Function.update t.device (uid, name) true }) = result := by
  simp only [Sessions.doLogin, Accounts.loginUser, bind_eq_ok, okOr_eq_ok, ensure_eq_ok,
    exists_unit, pure_eq_ok]
  constructor
  · rintro ⟨user, ⟨user', huser, hactive, rfl⟩, hresult⟩
    exact ⟨user', huser, hactive, hresult⟩
  · rintro ⟨user, huser, hactive, hresult⟩
    exact ⟨user, ⟨user, huser, hactive, rfl⟩, hresult⟩

/-- A login, or not. -/
theorem perform_login (uid : ℤ) (name : String) :
    s.perform ph (.login expiry uid name) = s ∨
      ∃ user, s.sessions.accounts.users.get uid = some user ∧
        s.perform ph (.login expiry uid name) =
        s.withPair expiry ⟨uid, name, user.isAdmin, user.isGuest⟩
          (Function.update s.sessions.device (uid, name) true) := by
  rw [perform]
  cases hlogin : s.sessions.doLogin expiry uid name with
  | error e => exact Or.inl rfl
  | ok result =>
    obtain ⟨user, huser, -, rfl⟩ := doLogin_eq_ok.1 hlogin
    exact Or.inr ⟨user, huser, rfl⟩

/-- A renewal, or not. -/
theorem perform_renew (token refreshToken : TokenFields) :
    s.perform ph (.renew expiry token refreshToken) = s ∨
      token.data = refreshToken.data ∧ s.sessions.renewable token.data.row = some refreshToken ∧
        s.perform ph (.renew expiry token refreshToken) =
          s.withPair expiry token.data s.sessions.device := by
  rw [perform]
  cases hrenew : s.sessions.renew expiry token refreshToken with
  | error e => exact Or.inl rfl
  | ok result =>
    obtain ⟨-, -, hdata, hrow, rfl⟩ := renew_eq_ok.1 hrenew
    exact Or.inr ⟨hdata, hrow, rfl⟩

/-! ### Ending sessions -/

/-- A history in which the tokens of some rows were just revoked. -/
theorem Inv.recordEnded (h : s.Inv) (ended : ℤ × String → Bool) {t : Sessions}
    (haccounts : t.accounts.Inv) (hnonce : t.nextNonce = s.sessions.nextNonce)
    (hrow : ∀ row tok, t.refreshToken row = some tok → s.sessions.refreshToken row = some tok ∧
      ∃ user, t.accounts.users.get row.1 = some user) :
    (s.recordEnded ended (.ok t)).Inv where
  accounts := haccounts
  row row tok htok := by
    obtain ⟨hold, huser⟩ := hrow row tok htok
    obtain ⟨hdata, htype, hissued, -⟩ := h.row row tok hold
    exact ⟨hdata, htype, hissued, huser⟩
  nonce tok htok := by
    show tok.nonce < t.nextNonce
    rw [hnonce]
    exact h.nonce tok htok
  revoked tok htok := by
    rcases List.mem_append.1 htok with hold | hnew
    · exact h.revoked tok hold
    · exact (List.mem_filter.1 hnew).1

/-- A stored token is revoked with its row, and not before. -/
theorem mem_recordEnded (h : s.Inv) (hsound : s.Sound) (ended : ℤ × String → Bool) (t : Sessions)
    (hrow : s.sessions.renewable row = some tok) :
    tok ∈ (s.recordEnded ended (.ok t)).revoked ↔ ended row = true := by
  obtain ⟨rfl, -, hissued, -⟩ := h.row row tok (renewable_eq_some.1 hrow).1
  show tok ∈ s.revoked ++ s.issued.filter _ ↔ _
  rw [List.mem_append, List.mem_filter]
  constructor
  · rintro (hrevoked | ⟨-, hended⟩)
    · exact absurd hrevoked (hsound _ _ hrow).1
    · exact hended
  · exact fun hended ↦ Or.inr ⟨hissued, hended⟩

/-- A logout, or not: the row goes. -/
theorem perform_logout (token : CurrentUser) :
    s.perform ph (.logout token) = s ∨
      s.perform ph (.logout token) = s.recordEnded (fun row ↦ row = token.row) (.ok
        { s.sessions with
          refreshToken := Function.update s.sessions.refreshToken token.row none
          device := Function.update s.sessions.device token.row false }) := by
  rw [perform]
  cases hlogout : s.sessions.logout token with
  | error e => exact Or.inl rfl
  | ok t =>
    simp only [Sessions.logout, ensure_eq_ok, bind_eq_ok, pure_eq_ok, exists_unit] at hlogout
    obtain ⟨-, rfl⟩ := hlogout
    exact Or.inr rfl

/-- A deletion of a device, or not: the row stays. -/
theorem perform_deleteDevice (token : CurrentUser) (name : String) :
    (¬(token.isGuest = false ∧ s.sessions.device (token.uid, name) = true) ∧
      s.perform ph (.deleteDevice token name) = s) ∨
    (token.isGuest = false ∧ s.sessions.device (token.uid, name) = true) ∧
      s.perform ph (.deleteDevice token name) =
        s.recordEnded (fun row ↦ row = (token.uid, name)) (.ok { s.sessions with
          device := Function.update s.sessions.device (token.uid, name) false }) := by
  by_cases hdelete : token.isGuest = false ∧ s.sessions.device (token.uid, name) = true
  · refine Or.inr ⟨hdelete, ?_⟩
    rw [perform, Sessions.deleteDevice, ensure, if_pos hdelete.1, ensure, if_pos hdelete.2]
    rfl
  · refine Or.inl ⟨hdelete, ?_⟩
    rw [perform]
    cases hresult : s.sessions.deleteDevice token name with
    | error e => rfl
    | ok t =>
      simp only [Sessions.deleteDevice, ensure_eq_ok, bind_eq_ok, exists_unit] at hresult
      exact absurd ⟨hresult.1, hresult.2.1⟩ hdelete

/-! ### The users and their sessions -/

/-- A user after one was put: it has the role of the one that was put, or its own. -/
theorem exists_get_insert {t : Accounts} {uid uid' : ℤ} {user new : Accounts.CacheUser} {b : Bool}
    (huser : t.users.get uid = some user) (hnew : uid' = uid → new.isAdmin = b)
    (hold : uid' ≠ uid → user.isAdmin = b) :
    ∃ user', (t.users.insert uid' new).get uid = some user' ∧ user'.isAdmin = b := by
  by_cases huid : uid' = uid
  · obtain rfl := huid
    exact ⟨new, OrderedMap.get_insert_self _ _ _, hnew rfl⟩
  · exact ⟨user, (OrderedMap.get_insert_of_ne _ _ (Ne.symm huid)).trans huser, hold huid⟩

theorem exists_get_setAvatar {t u : Accounts} {uid uid' now : ℤ} {user : Accounts.CacheUser}
    (h : t.setAvatar uid' now = .ok u) (huser : t.users.get uid = some user) :
    ∃ user', u.users.get uid = some user' ∧ user'.isAdmin = user.isAdmin := by
  obtain ⟨old, hold, rfl⟩ := Accounts.setAvatar_eq_ok_iff.1 h
  refine exists_get_insert huser (fun huid ↦ ?_) fun _ ↦ rfl
  obtain rfl := Option.some.inj (huser.symm.trans (huid ▸ hold))
  rfl

/-- A deletion of one user, seen from another one or itself. -/
theorem get_erase_cases {t : Accounts} {uid uid' : ℤ} {user : Accounts.CacheUser}
    (huser : t.users.get uid = some user) :
    (some uid' = some uid ∧ (t.users.erase uid').get uid = none) ∨
      some uid' ≠ some uid ∧ ∃ user', (t.users.erase uid').get uid = some user' ∧
        user'.isAdmin = user.isAdmin := by
  rw [OrderedMap.get_erase]
  split
  · rename_i huid
    exact Or.inl ⟨congrArg some huid.symm, rfl⟩
  · rename_i huid
    exact Or.inr ⟨fun h ↦ huid (Option.some.inj h).symm, user, huser, rfl⟩

/-- What a request does to a user: it is deleted, or has the role that the request gives it. -/
theorem get_of_request {t u : Accounts} {a : AccountAction} (h : t.request ph a = .ok u) {uid : ℤ}
    {user : Accounts.CacheUser} (hinv : t.Inv) (huser : t.users.get uid = some user) :
    (a.deletes = some uid ∧ u.users.get uid = none) ∨
      a.deletes ≠ some uid ∧ ∃ user', u.users.get uid = some user' ∧
        user'.isAdmin = a.isAdminAfter uid user.isAdmin := by
  cases a with
  | createUser userLimit now salt req =>
    refine Or.inr ⟨Option.some_ne_none uid ∘ Eq.symm, ?_⟩
    obtain ⟨_, hcreate, rfl⟩ := map_eq_ok.1 h
    obtain ⟨hash, -, -, -, -, rfl⟩ := Accounts.createUser_eq_ok_iff.1 hcreate
    have hne : t.nextUid ≠ uid := (ne_of_lt (hinv.uids uid user huser)).symm
    have hget : ∃ user', (t.users.insert t.nextUid (req.toUser now hash)).get uid = some user' ∧
        user'.isAdmin = user.isAdmin := exists_get_insert huser (fun h ↦ absurd h hne) fun _ ↦ rfl
    show ∃ user', (if req.isGuest then _ else _ : Accounts).users.get uid = _ ∧ _
    split <;> exact hget
  | updateUser token req =>
    refine Or.inr ⟨Option.some_ne_none uid ∘ Eq.symm, ?_⟩
    obtain ⟨-, -, -, old, hold, rfl⟩ := Accounts.updateUser_eq_ok_iff.1 h
    have hget : ∃ user', (t.users.insert token.uid (req.updated old)).get uid = some user' ∧
        user'.isAdmin = user.isAdmin := by
      refine exists_get_insert huser (fun huid ↦ ?_) fun _ ↦ rfl
      obtain rfl := Option.some.inj (huser.symm.trans (huid ▸ hold))
      rfl
    split <;> exact hget
  | uploadAvatar token now =>
    simp only [Accounts.request, Accounts.uploadAvatar, ensure_eq_ok, bind_eq_ok, exists_unit] at h
    exact Or.inr ⟨Option.some_ne_none uid ∘ Eq.symm, exists_get_setAvatar h.2 huser⟩
  | adminUpdate salt webhookOk token uid' req =>
    refine Or.inr ⟨Option.some_ne_none uid ∘ Eq.symm, ?_⟩
    obtain ⟨-, -, hash, -, -, -, -, old, hold, rfl⟩ := Accounts.adminUpdate_eq_ok_iff.1 h
    refine exists_get_insert huser (fun huid ↦ ?_) fun huid ↦ (if_neg huid).symm
    obtain rfl := Option.some.inj (huser.symm.trans (huid ▸ hold))
    exact (if_pos huid).symm
  | adminUploadAvatar token uid' now =>
    simp only [Accounts.request, Accounts.adminUploadAvatar, ensure_eq_ok, bind_eq_ok, exists_unit]
      at h
    exact Or.inr ⟨Option.some_ne_none uid ∘ Eq.symm, exists_get_setAvatar h.2 huser⟩
  | adminDelete token uid' =>
    simp only [Accounts.request, Accounts.adminDelete, ensure_eq_ok, bind_eq_ok, exists_unit] at h
    rw [Accounts.users_deleteUser h.2.2]
    exact get_erase_cases huser
  | deleteCurrentUser token =>
    rw [Accounts.users_deleteUser h]
    exact get_erase_cases huser

theorem withAccounts_refreshToken {t : Sessions} {u : Accounts} :
    (t.withAccounts u).refreshToken row = some tok ↔
      (∃ user, u.users.get row.1 = some user) ∧ t.refreshToken row = some tok := by
  rw [← Option.isSome_iff_exists]
  show (if (u.users.get row.1).isSome then t.refreshToken row else none) = some tok ↔ _
  split
  · rename_i huser
    exact (and_iff_right huser).symm
  · rename_i huser
    exact iff_of_false (fun h ↦ by cases h) fun h ↦ huser h.1

/-- A request that deletes a user does nothing else. -/
theorem not_changes_of_deletes {a : AccountAction} {uid : ℤ} (h : a.deletes = some uid)
    (isAdmin : Bool) : ¬(a.freezes = some uid ∨ a.isAdminAfter uid isAdmin ≠ isAdmin) := by
  cases a with
  | adminDelete token uid' => exact not_or.2 ⟨Option.some_ne_none uid ∘ Eq.symm, not_not.2 rfl⟩
  | deleteCurrentUser token => exact not_or.2 ⟨Option.some_ne_none uid ∘ Eq.symm, not_not.2 rfl⟩
  | createUser => cases h
  | updateUser => cases h
  | uploadAvatar => cases h
  | adminUpdate => cases h
  | adminUploadAvatar => cases h

/-- The sessions after a request on the accounts. -/
theorem sound_withAccounts_iff (h : s.Inv) (hsound : s.Sound) {a : AccountAction} {t : Accounts}
    (ha : s.sessions.accounts.request ph a = .ok t) :
    (s.recordEnded (fun row ↦ a.deletes = some row.1 ∨ a.freezes = some row.1)
        (.ok (s.sessions.withAccounts t))).Sound ↔
      ∀ uid user, s.sessions.accounts.users.get uid = some user →
        a.freezes = some uid ∨ a.isAdminAfter uid user.isAdmin ≠ user.isAdmin →
          ∀ device, s.sessions.renewable (uid, device) = none := by
  constructor
  · intro hafter uid user huser hchange device
    refine Option.eq_none_iff_forall_not_mem.2 fun tok hrow ↦ ?_
    obtain ⟨hdelete, -⟩ | ⟨-, user', huser', hadmin'⟩ := get_of_request ha h.accounts huser
    · exact not_changes_of_deletes hdelete _ hchange
    obtain ⟨hstored, hexpire⟩ := renewable_eq_some.1 hrow
    obtain ⟨hrevoked, user'', huser'', hadmin⟩ := hafter (uid, device) tok
      (renewable_eq_some.2 ⟨withAccounts_refreshToken.2 ⟨⟨user', huser'⟩, hstored⟩, hexpire⟩)
    obtain rfl := Option.some.inj (huser'.symm.trans huser'')
    rw [mem_recordEnded h hsound _ _ hrow, decide_eq_true_iff, not_or] at hrevoked
    obtain ⟨-, old, hold, holdAdmin⟩ := hsound _ _ hrow
    obtain rfl := Option.some.inj (huser.symm.trans hold)
    rcases hchange with hfreeze | hrole
    · exact hrevoked.2 hfreeze
    · exact hrole (hadmin'.symm.trans (hadmin.symm.trans holdAdmin))
  · intro hunused row tok hrow
    obtain ⟨hstored, hexpire⟩ := renewable_eq_some.1 hrow
    obtain ⟨⟨user', huser'⟩, hstored⟩ := withAccounts_refreshToken.1 hstored
    have hbefore : s.sessions.renewable row = some tok := renewable_eq_some.2 ⟨hstored, hexpire⟩
    obtain ⟨-, user, huser, hadmin⟩ := hsound row tok hbefore
    have hnone : ¬(a.freezes = some row.1 ∨ a.isAdminAfter row.1 user.isAdmin ≠ user.isAdmin) := by
      intro hchange
      have := hunused row.1 user huser hchange row.2
      rw [hbefore] at this
      cases this
    rw [not_or, not_not] at hnone
    obtain ⟨-, hgone⟩ | ⟨hkept, user'', huser'', hadmin'⟩ := get_of_request ha h.accounts huser
    · rw [huser'] at hgone
      cases hgone
    obtain rfl := Option.some.inj (huser'.symm.trans huser'')
    rw [mem_recordEnded h hsound _ _ hbefore, decide_eq_true_iff]
    exact ⟨not_or.2 ⟨hkept, hnone.1⟩, user', huser', hadmin.trans (hnone.2.symm.trans hadmin'.symm)⟩

/-! ### Runs -/

theorem inv_start : start.Inv where
  accounts := Accounts.inv_start
  row row tok h := by cases h
  nonce tok h := absurd h List.not_mem_nil
  revoked tok h := absurd h List.not_mem_nil

theorem sound_start : start.Sound := fun row tok h ↦ by cases h

theorem Inv.perform (h : s.Inv) (a : TokenAction) : (s.perform ph a).Inv := by
  cases a with
  | tick seconds => exact ⟨h.accounts, h.row, h.nonce, h.revoked⟩
  | login expiry uid name =>
    rcases perform_login uid name with heq | ⟨user, huser, heq⟩ <;> rw [heq]
    · exact h
    · exact h.withPair ⟨user, huser⟩
  | renew expiry token refreshToken =>
    rcases perform_renew token refreshToken with heq | ⟨hdata, hrow, heq⟩ <;> rw [heq]
    · exact h
    · obtain ⟨-, -, -, huser⟩ := h.row _ _ (renewable_eq_some.1 hrow).1
      exact h.withPair huser
  | logout token =>
    rcases perform_logout token with heq | heq <;> rw [heq]
    · exact h
    · refine h.recordEnded _ h.accounts rfl fun row tok hrow ↦ ?_
      change Function.update s.sessions.refreshToken token.row none row = some tok at hrow
      rw [Function.update_apply] at hrow
      split at hrow
      · cases hrow
      · exact ⟨hrow, (h.row row tok hrow).2.2.2⟩
  | deleteDevice token name =>
    rcases perform_deleteDevice token name with ⟨-, heq⟩ | ⟨-, heq⟩ <;> rw [heq]
    · exact h
    · exact h.recordEnded _ h.accounts rfl fun row tok hrow ↦ ⟨hrow, (h.row row tok hrow).2.2.2⟩
  | account a =>
    rw [SessionHistory.perform]
    cases ha : s.sessions.accounts.request ph a with
    | error e => exact h
    | ok t =>
      refine h.recordEnded _
        ((Accounts.wrote_of_request ha).inv h.accounts) rfl fun row tok hrow ↦ ?_
      exact (withAccounts_refreshToken.1 hrow).symm

/-- **A step out of a sound state** leads to a sound state exactly when it ends no session in use.
-/
theorem sound_perform_iff (h : s.Inv) (hsound : s.Sound) (a : TokenAction) :
    (s.perform ph a).Sound ↔ s.EndsUnused ph a := by
  cases a with
  | tick seconds =>
    refine iff_of_true (fun row tok hrow ↦ hsound row tok ?_) trivial
    obtain ⟨hstored, hexpire⟩ := renewable_eq_some.1 hrow
    change ¬tok.expireAt < s.sessions.now + seconds at hexpire
    exact renewable_eq_some.2 ⟨hstored, by omega⟩
  | login expiry uid name =>
    refine iff_of_true ?_ trivial
    rcases perform_login uid name with heq | ⟨user, huser, heq⟩ <;> rw [heq]
    · exact hsound
    · exact hsound.withPair h huser rfl
  | renew expiry token refreshToken =>
    refine iff_of_true ?_ trivial
    rcases perform_renew token refreshToken with heq | ⟨hdata, hrow, heq⟩ <;> rw [heq]
    · exact hsound
    · obtain ⟨-, user, huser, hadmin⟩ := hsound _ _ hrow
      exact hsound.withPair h huser (hdata ▸ hadmin)
  | logout token =>
    refine iff_of_true ?_ trivial
    rcases perform_logout token with heq | heq <;> rw [heq]
    · exact hsound
    · intro row tok hrow
      obtain ⟨hstored, hexpire⟩ := renewable_eq_some.1 hrow
      change Function.update s.sessions.refreshToken token.row none row = some tok at hstored
      rw [Function.update_apply] at hstored
      split at hstored
      · cases hstored
      · rename_i hne
        have hbefore : s.sessions.renewable row = some tok := renewable_eq_some.2 ⟨hstored, hexpire⟩
        rw [mem_recordEnded h hsound _ _ hbefore, decide_eq_true_iff]
        exact ⟨hne, (hsound row tok hbefore).2⟩
  | deleteDevice token name =>
    rcases perform_deleteDevice token name with ⟨hrefused, heq⟩ | ⟨hdelete, heq⟩ <;> rw [heq]
    · exact iff_of_true hsound fun hguest hdevice ↦ absurd ⟨hguest, hdevice⟩ hrefused
    · constructor
      · intro hafter _ _
        refine Option.eq_none_iff_forall_not_mem.2 fun tok hrow ↦ ?_
        refine (hafter (token.uid, name) tok hrow).1 ?_
        exact (mem_recordEnded h hsound _ _ hrow).2 (decide_eq_true rfl)
      · intro hunused row tok hrow
        refine ⟨fun hrevoked ↦ ?_, (hsound row tok hrow).2⟩
        rw [mem_recordEnded h hsound _ _ hrow, decide_eq_true_iff] at hrevoked
        obtain rfl := hrevoked
        have hbefore : s.sessions.renewable (token.uid, name) = some tok := hrow
        rw [hunused hdelete.1 hdelete.2] at hbefore
        cases hbefore
  | account a =>
    rw [SessionHistory.perform, EndsUnused]
    cases ha : s.sessions.accounts.request ph a with
    | error e => exact iff_of_true hsound fun t ht ↦ by cases ht
    | ok t =>
      exact (sound_withAccounts_iff h hsound ha).trans
        ⟨fun hunused _ _ ↦ hunused, fun hunused ↦ hunused t rfl⟩

/-- **Renewals**, along every run: no token is renewed that was issued before its session was ended,
and every new access token has the role of its user, exactly when devices are deleted, users frozen
and roles changed while there is nothing of theirs left to renew. -/
theorem renewals_sound_iff (ph : PasswordHashing) (as : List TokenAction) :
    (∀ cs, cs <+: as → (after ph cs).RenewalsSound) ↔
      Transition.Along (Transition.total (perform ph)) (EndsUnused ph) start as := by
  have hinv : ∀ cs, (after ph cs).Inv :=
    Transition.foldl_induction (fun _ a h ↦ h.perform a) inv_start
  rw [← Transition.forall_prefix_iff_along (I := Inv) (P := Sound) (fun _ a h ↦ h.perform a)
    (fun _ a h hsound ↦ sound_perform_iff h hsound a) inv_start sound_start]
  exact forall₂_congr fun cs _ ↦ renewalsSound_iff (hinv cs)

/-- A device is deleted, and its session is renewed all the same. -/
theorem not_forall_renewalsSound :
    ¬∀ (ph : PasswordHashing) (as : List TokenAction), (after ph as).RenewalsSound := by
  intro h
  have hsound := h .transparent
    [.account (.createUser 10 0 "s"
      { name := "a", isAdmin := false, createBy := .magicLink "a@x" }),
      .login ⟨3600, 60⟩ 1 "phone", .deleteDevice ⟨1, "web", false, false⟩ "phone"]
  obtain ⟨hrevoked, -⟩ := hsound ⟨3600, 60⟩ ⟨⟨1, "phone", false, false⟩, 60, 1, .accessToken⟩
    ⟨⟨1, "phone", false, false⟩, 3600, 0, .refreshToken⟩ _ _ rfl
  revert hrevoked
  decide +kernel

end SessionHistory

end VoceChat
