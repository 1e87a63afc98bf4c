import VoceChat.Accounts.Sessions

/-!
# Concurrent renewals (`renew` in `src/api/token.rs`)

`renew` looks at the stored refresh token with one statement and replaces it with another, and holds
no lock in between. Logins and logouts hold the cache for writing, so their transactions come one
after the other, but they may fall between the two statements of a renewal. The `update` does not
ask whether the row still has the token that was checked, nor whether it updated anything.

So a token can be exchanged twice, and the token that a renewal returns can be out of date at once.
`singleUse_iff` says when neither happens: at every `update` the row is there and no other renewal
of the same token has come first, and nothing writes a row late, that is, after a renewal of the row
has returned and before another request for it has started.
-/

namespace VoceChat

open Guards

/-! ### The two halves of a renewal -/

namespace Sessions

/-- `renew` up to its look at the row. -/
def selectRefreshToken (s : Sessions)
    (token refreshToken : TokenFields) : Except TokenError Unit := do
  ensure (token.tokenType = .accessToken) .illegalToken
  ensure (¬refreshToken.expireAt < s.now) .illegalToken
  ensure (refreshToken.tokenType = .refreshToken) .illegalToken
  ensure (token.data = refreshToken.data) .illegalToken
  let prevRefreshToken ← okOr (s.refreshToken token.data.row) .illegalToken
  ensure (prevRefreshToken = refreshToken) .illegalToken

/-- `renew` from there on. The `update` does nothing when the row is gone. -/
def updateRefreshToken (expiry : TokenExpiry) (s : Sessions) (data : CurrentUser) :
    TokenPair × Sessions :=
  let pair := createTokenPair expiry s.now s.nextNonce data
  (pair, { s with
    refreshToken :=
      if (s.refreshToken data.row).isSome then
        Function.update s.refreshToken data.row (some pair.refreshToken)
      else s.refreshToken
    nextNonce := s.nextNonce + 2 })

theorem selectRefreshToken_eq_ok {s : Sessions} {token refreshToken : TokenFields} :
    s.selectRefreshToken token refreshToken = .ok () ↔
      token.tokenType = .accessToken ∧ refreshToken.tokenType = .refreshToken ∧
        token.data = refreshToken.data ∧ s.renewable token.data.row = some refreshToken := by
  simp only [selectRefreshToken, ensure_eq_ok, bind_eq_ok, okOr_eq_ok, exists_unit,
    SessionHistory.renewable_eq_some]
  constructor
  · rintro ⟨htype, hexpire, hrefresh, hdata, prev, hprev, rfl⟩
    exact ⟨htype, hrefresh, hdata, hprev, hexpire⟩
  · rintro ⟨htype, hrefresh, hdata, hprev, hexpire⟩
    exact ⟨htype, hexpire, hrefresh, hdata, refreshToken, hprev, rfl⟩

/-- The two halves, with nothing in between, are `renew`. -/
theorem renew_eq_ok_iff {s : Sessions} {expiry : TokenExpiry} {token refreshToken : TokenFields}
    {result : TokenPair × Sessions} : s.renew expiry token refreshToken = .ok result ↔
      s.selectRefreshToken token refreshToken = .ok () ∧
        s.updateRefreshToken expiry token.data = result := by
  rw [SessionHistory.renew_eq_ok, selectRefreshToken_eq_ok, and_assoc, and_assoc, and_assoc]
  refine and_congr_right fun _ ↦ and_congr_right fun _ ↦ and_congr_right fun _ ↦
    and_congr_right fun hrow ↦ ?_
  rw [updateRefreshToken, (SessionHistory.renewable_eq_some.1 hrow).1]
  rfl

end Sessions

/-! ### Requests under way -/

inductive TokenRequest where
  | login (expiry : TokenExpiry) (uid : ℤ) (device : String)
  | renew (expiry : TokenExpiry) (token refreshToken : TokenFields)
  | logout (token : CurrentUser)

/-- The row that a request is about. -/
def TokenRequest.row : TokenRequest → ℤ × String
  | login _ uid device => (uid, device)
  | renew _ token _ => token.data.row
  | logout token => token.row

inductive TokenTask where
  | requested (req : TokenRequest)
  /-- A renewal that has found its token stored. It is overtaken when another renewal has exchanged
  the token since. -/
  | checked (expiry : TokenExpiry) (token refreshToken : TokenFields) (overtaken : Bool)

/-- A task after a token was exchanged. -/
def TokenTask.afterExchange (refreshToken : TokenFields) : TokenTask → TokenTask
  | requested req => requested req
  | checked expiry token refreshToken' overtaken =>
    checked expiry token refreshToken' (overtaken || refreshToken' = refreshToken)

/-- The sessions with the requests under way. -/
structure RenewalSystem where
  sessions : Sessions
  tasks : ℕ → Option TokenTask
  /-- The refresh tokens that renewals have exchanged, the latest first. -/
  exchanged : List TokenFields
  /-- The refresh tokens that renewals have returned, as long as no request for their row has
  started since. -/
  promised : List TokenFields

inductive RenewalAction where
  | tick (seconds : ℕ)
  | start (i : ℕ) (req : TokenRequest)
  | select (i : ℕ)
  | update (i : ℕ)
  /-- The transaction of a login or a logout. -/
  | commit (i : ℕ)
  | abandon (i : ℕ)

namespace RenewalSystem

def start (sessions : Sessions) : RenewalSystem := ⟨sessions, fun _ ↦ none, [], []⟩

def setTask (s : RenewalSystem) (i : ℕ) (task : Option TokenTask) : RenewalSystem :=
  { s with tasks := Function.update s.tasks i task }

/-- The second half of a renewal. -/
def exchange (s : RenewalSystem) (i : ℕ) (expiry : TokenExpiry) (token refreshToken : TokenFields) :
    RenewalSystem where
  sessions := (s.sessions.updateRefreshToken expiry token.data).2
  tasks := fun j ↦ if j = i then none else (s.tasks j).map (TokenTask.afterExchange refreshToken)
  exchanged := refreshToken :: s.exchanged
  promised := (s.sessions.updateRefreshToken expiry token.data).1.refreshToken :: s.promised

/-- The sessions after the transaction of a login or a logout, or a refusal. -/
def committed (s : Sessions) : TokenRequest → Sessions
  | .login expiry uid device =>
    ((s.doLogin expiry uid device).toOption.map Prod.snd).getD s
  | .logout token => (s.logout token).toOption.getD s
  | .renew .. => s

/-- One statement or transaction of a request. An action for which its task is not ready does
nothing. -/
def perform (s : RenewalSystem) : RenewalAction → RenewalSystem
  | .tick seconds => { s with sessions := { s.sessions with now := s.sessions.now + seconds } }
  | .start i req =>
    match s.tasks i with
    | none => { s.setTask i (some (.requested req)) with
        promised := s.promised.filter fun tok ↦ tok.data.row ≠ req.row }
    | some _ => s
  | .select i =>
    match s.tasks i with
    | some (.requested (.renew expiry token refreshToken)) =>
      match s.sessions.selectRefreshToken token refreshToken with
      | .ok () => s.setTask i (some (.checked expiry token refreshToken false))
      | .error _ => s.setTask i none
    | _ => s
  | .update i =>
    match s.tasks i with
    | some (.checked expiry token refreshToken _) => s.exchange i expiry token refreshToken
    | _ => s
  | .commit i =>
    match s.tasks i with
    | some (.requested (.renew ..)) => s
    | some (.requested req) => { s.setTask i none with sessions := committed s.sessions req }
    | _ => s
  | .abandon i => s.setTask i none

/-- No token is exchanged twice, and what a renewal has returned is what is stored. -/
structure SingleUse (s : RenewalSystem) : Prop where
  exchanged : s.exchanged.Nodup
  promised : ∀ tok ∈ s.promised, s.sessions.refreshToken tok.data.row = some tok

/-- A request for the row has started since a renewal of it last returned. -/
def Unclaimed (s : RenewalSystem) (row : ℤ × String) : Prop :=
  ∀ tok ∈ s.promised, tok.data.row ≠ row

/-- A transaction that is made writes a row that nothing is promised of. -/
def InTime (s : RenewalSystem) : TokenRequest → Prop
  | .login expiry uid device =>
    ∀ result, s.sessions.doLogin expiry uid device = .ok result → s.Unclaimed (uid, device)
  | .logout token => ∀ t, s.sessions.logout token = .ok t → s.Unclaimed token.row
  | .renew .. => True

/-- What has to be so for a statement to do no harm. -/
def Orderly (s : RenewalSystem) : RenewalAction → Prop
  | .update i => ∀ expiry token refreshToken overtaken,
      s.tasks i = some (.checked expiry token refreshToken overtaken) →
        overtaken = false ∧ (s.sessions.refreshToken token.data.row).isSome = true ∧
          s.Unclaimed token.data.row
  | .commit i => ∀ req, s.tasks i = some (.requested req) → s.InTime req
  | _ => True

/-- Tokens are stored in their own row, and are new when they are; what is exchanged is not stored
again. -/
structure Inv (s : RenewalSystem) : Prop where
  row : ∀ row tok, s.sessions.refreshToken row = some tok →
    tok.data.row = row ∧ tok.nonce < s.sessions.nextNonce ∧ tok ∉ s.exchanged
  exchanged : ∀ tok ∈ s.exchanged, tok.nonce < s.sessions.nextNonce
  promised : ∀ tok ∈ s.promised, tok.nonce < s.sessions.nextNonce
  checked : ∀ i expiry token refreshToken overtaken,
    s.tasks i = some (.checked expiry token refreshToken overtaken) →
      token.data = refreshToken.data ∧ refreshToken.nonce < s.sessions.nextNonce ∧
        (overtaken = true ↔ refreshToken ∈ s.exchanged)

variable {s : RenewalSystem} {i : ℕ} {expiry : TokenExpiry} {token refreshToken : TokenFields}
  {overtaken : Bool}

/-! ### What the statements keep -/

theorem Inv.setTask (h : s.Inv) (i : ℕ) {task : Option TokenTask}
    (htask : ∀ expiry token refreshToken overtaken,
      task = some (.checked expiry token refreshToken overtaken) →
        token.data = refreshToken.data ∧ refreshToken.nonce < s.sessions.nextNonce ∧
          (overtaken = true ↔ refreshToken ∈ s.exchanged)) : (s.setTask i task).Inv where
  row := h.row
  exchanged := h.exchanged
  promised := h.promised
  checked j expiry token refreshToken overtaken hj := by
    change Function.update s.tasks i task j = some _ at hj
    rw [Function.update_apply] at hj
    split at hj
    · exact htask expiry token refreshToken overtaken hj
    · exact h.checked j expiry token refreshToken overtaken hj

theorem Inv.setTask_none (h : s.Inv) (i : ℕ) : (s.setTask i none).Inv :=
  h.setTask i fun _ _ _ _ heq ↦ by cases heq

/-- A transaction that stores new tokens, or removes some. -/
theorem Inv.withSessions (h : s.Inv) {t : Sessions}
    (hnonce : s.sessions.nextNonce ≤ t.nextNonce)
    (hrow : ∀ row tok, t.refreshToken row = some tok → s.sessions.refreshToken row = some tok ∨
      tok.data.row = row ∧ s.sessions.nextNonce ≤ tok.nonce ∧ tok.nonce < t.nextNonce) :
    Inv { s with sessions := t } where
  row row tok htok := by
    rcases hrow row tok htok with hold | ⟨hdata, hfresh, hlt⟩
    · obtain ⟨hdata, hlt, hexchanged⟩ := h.row row tok hold
      exact ⟨hdata, lt_of_lt_of_le hlt hnonce, hexchanged⟩
    · refine ⟨hdata, hlt, fun hexchanged ↦ ?_⟩
      exact absurd (h.exchanged tok hexchanged) (not_lt.2 hfresh)
  exchanged tok htok := lt_of_lt_of_le (h.exchanged tok htok) hnonce
  promised tok htok := lt_of_lt_of_le (h.promised tok htok) hnonce
  checked i expiry token refreshToken overtaken htask := by
    obtain ⟨hdata, hlt, hovertaken⟩ := h.checked i expiry token refreshToken overtaken htask
    exact ⟨hdata, lt_of_lt_of_le hlt hnonce, hovertaken⟩

/-- What is stored after the `update` of a renewal: what was, or the new token in place of one. -/
theorem updateRefreshToken_eq_some {t : Sessions} {data : CurrentUser} {row : ℤ × String}
    {tok : TokenFields} : (t.updateRefreshToken expiry data).2.refreshToken row = some tok ↔
      row ≠ data.row ∧ t.refreshToken row = some tok ∨
      row = data.row ∧ (t.refreshToken row).isSome = true ∧
        (t.updateRefreshToken expiry data).1.refreshToken = tok := by
  show (if (t.refreshToken data.row).isSome then Function.update t.refreshToken data.row (some _)
    else t.refreshToken) row = some tok ↔ _
  by_cases hrow : row = data.row
  · obtain rfl := hrow
    cases hstored : t.refreshToken data.row with
    | none => simp [hstored]
    | some old => simp [Sessions.updateRefreshToken]
  · split
    · rw [Function.update_of_ne hrow]
      simp [hrow]
    · simp [hrow]

theorem Inv.exchange (h : s.Inv)
    (hi : s.tasks i = some (.checked expiry token refreshToken overtaken)) :
    (s.exchange i expiry token refreshToken).Inv := by
  obtain ⟨hdata, hnonce, -⟩ := h.checked i expiry token refreshToken overtaken hi
  have hnext : (s.exchange i expiry token refreshToken).sessions.nextNonce =
      s.sessions.nextNonce + 2 := rfl
  refine ⟨fun row tok htok ↦ ?_, fun tok htok ↦ ?_, fun tok htok ↦ ?_, ?_⟩
  · rw [hnext]
    rcases updateRefreshToken_eq_some.1 htok with ⟨hrow, hold⟩ | ⟨rfl, -, rfl⟩
    · obtain ⟨rfl, hlt, hexchanged⟩ := h.row row tok hold
      refine ⟨rfl, by omega, fun hmem ↦ ?_⟩
      rcases List.mem_cons.1 hmem with rfl | hmem
      · exact hrow (congrArg CurrentUser.row hdata.symm)
      · exact hexchanged hmem
    · refine ⟨rfl, Nat.lt_add_of_pos_right (by decide), fun hmem ↦ ?_⟩
      -- the new token has a nonce that none of these has
      rcases List.mem_cons.1 hmem with heq | hmem
      · rw [← heq] at hnonce
        exact absurd hnonce (lt_irrefl _)
      · exact absurd (h.exchanged _ hmem) (lt_irrefl _)
  · rw [hnext]
    rcases List.mem_cons.1 htok with rfl | htok
    · omega
    · have := h.exchanged tok htok
      omega
  · rw [hnext]
    rcases List.mem_cons.1 htok with rfl | htok
    · exact Nat.lt_add_of_pos_right (by decide)
    · have := h.promised tok htok
      omega
  · intro j expiry' token' refreshToken' overtaken' hj
    change (if j = i then none else (s.tasks j).map (TokenTask.afterExchange refreshToken)) =
      some _ at hj
    split at hj
    · cases hj
    · obtain ⟨task, htask, hafter⟩ := Option.map_eq_some_iff.1 hj
      cases task with
      | requested req => cases hafter
      | checked expiry₀ token₀ refreshToken₀ overtaken₀ =>
        obtain ⟨rfl, rfl, rfl, rfl⟩ := TokenTask.checked.inj hafter
        obtain ⟨hdata', hlt, hovertaken⟩ := h.checked j _ _ _ _ htask
        refine ⟨hdata', by rw [hnext]; omega, ?_⟩
        rw [Bool.or_eq_true, decide_eq_true_iff, hovertaken]
        exact (List.mem_cons.trans or_comm).symm

theorem Inv.committed (h : s.Inv) (req : TokenRequest) :
    Inv { s with sessions := committed s.sessions req } := by
  cases req with
  | renew expiry token refreshToken => exact h
  | login expiry uid device =>
    rw [RenewalSystem.committed]
    cases hlogin : s.sessions.doLogin expiry uid device with
    | error e => exact h
    | ok result =>
      obtain ⟨user, -, -, rfl⟩ := SessionHistory.doLogin_eq_ok.1 hlogin
      refine h.withSessions (Nat.le_add_right _ _) fun row tok htok ↦ ?_
      change Function.update s.sessions.refreshToken (uid, device) _ row = some tok at htok
      rw [Function.update_apply] at htok
      split at htok
      · rename_i hrow
        obtain rfl := Option.some.inj htok
        exact Or.inr ⟨hrow.symm, le_rfl, Nat.lt_add_of_pos_right (by decide)⟩
      · exact Or.inl htok
  | logout token =>
    rw [RenewalSystem.committed]
    cases hlogout : s.sessions.logout token with
    | error e => exact h
    | ok t =>
      simp only [Sessions.logout, ensure_eq_ok, bind_eq_ok, pure_eq_ok, exists_unit] at hlogout
      obtain ⟨-, rfl⟩ := hlogout
      refine h.withSessions le_rfl fun row tok htok ↦ Or.inl ?_
      change Function.update s.sessions.refreshToken token.row none row = some tok at htok
      rw [Function.update_apply] at htok
      split at htok
      · cases htok
      · exact htok

theorem Inv.perform (h : s.Inv) (a : RenewalAction) : (s.perform a).Inv := by
  cases a with
  | tick seconds => exact ⟨h.row, h.exchanged, h.promised, h.checked⟩
  | start i req =>
    rw [RenewalSystem.perform]
    split
    · have htask : (s.setTask i (some (.requested req))).Inv := h.setTask i fun _ _ _ _ heq ↦ by
        cases Option.some.inj heq
      exact ⟨htask.row, htask.exchanged, fun tok htok ↦ h.promised tok (List.mem_filter.1 htok).1,
        htask.checked⟩
    · exact h
  | select i =>
    rw [RenewalSystem.perform]
    split
    · rename_i expiry token refreshToken htask
      split
      · rename_i hselect
        obtain ⟨-, -, hdata, hrow⟩ := Sessions.selectRefreshToken_eq_ok.1 hselect
        obtain ⟨-, hlt, hexchanged⟩ := h.row _ _ (SessionHistory.renewable_eq_some.1 hrow).1
        refine h.setTask i fun expiry' token' refreshToken' overtaken heq ↦ ?_
        obtain ⟨-, rfl, rfl, rfl⟩ := TokenTask.checked.inj (Option.some.inj heq)
        exact ⟨hdata, hlt, iff_of_false Bool.false_ne_true hexchanged⟩
      · exact h.setTask_none i
    · exact h
  | update i =>
    rw [RenewalSystem.perform]
    split
    · rename_i hi
      exact h.exchange hi
    · exact h
  | commit i =>
    rw [RenewalSystem.perform]
    split
    · exact h
    · exact (h.setTask_none i).committed _
    · exact h
  | abandon i => exact h.setTask_none i

/-! ### Which statements do harm -/

/-- A row that is written can have been promised to nobody. -/
theorem singleUse_write_iff (hsingle : s.SingleUse) {row : ℤ × String} {stored : Option TokenFields}
    (hnew : ∀ tok ∈ s.promised, stored ≠ some tok) {t : Sessions} (tasks : ℕ → Option TokenTask)
    (ht : t.refreshToken = Function.update s.sessions.refreshToken row stored) :
    SingleUse { s with sessions := t, tasks := tasks } ↔ s.Unclaimed row := by
  constructor
  · intro hafter tok htok hrow
    have hstored : t.refreshToken tok.data.row = some tok := hafter.promised tok htok
    rw [ht, hrow, Function.update_self] at hstored
    exact hnew tok htok hstored
  · refine fun hunclaimed ↦ ⟨hsingle.exchanged, fun tok htok ↦ ?_⟩
    show t.refreshToken tok.data.row = some tok
    rw [ht, Function.update_of_ne (hunclaimed tok htok)]
    exact hsingle.promised tok htok

theorem singleUse_exchange_iff (h : s.Inv) (hsingle : s.SingleUse)
    (hi : s.tasks i = some (.checked expiry token refreshToken overtaken)) :
    (s.exchange i expiry token refreshToken).SingleUse ↔
      overtaken = false ∧ (s.sessions.refreshToken token.data.row).isSome = true ∧
        s.Unclaimed token.data.row := by
  obtain ⟨-, -, hovertaken⟩ := h.checked i expiry token refreshToken overtaken hi
  rw [← Bool.not_eq_true, hovertaken]
  constructor
  · intro hafter
    have hstored := updateRefreshToken_eq_some.1 (hafter.promised _ List.mem_cons_self)
    obtain ⟨-, hsome, -⟩ := hstored.resolve_left fun hne ↦ hne.1 rfl
    refine ⟨(List.nodup_cons.1 hafter.exchanged).1, hsome, fun tok htok hrow ↦ ?_⟩
    rcases updateRefreshToken_eq_some.1 (hafter.promised tok (List.mem_cons_of_mem _ htok)) with
      ⟨hne, -⟩ | ⟨-, -, rfl⟩
    · exact hne hrow
    · exact absurd (h.promised _ htok) (lt_irrefl _)
  · rintro ⟨hnew, hsome, hunclaimed⟩
    refine ⟨List.nodup_cons.2 ⟨hnew, hsingle.exchanged⟩, fun tok htok ↦ ?_⟩
    refine updateRefreshToken_eq_some.2 ?_
    rcases List.mem_cons.1 htok with rfl | htok
    · exact Or.inr ⟨rfl, hsome, rfl⟩
    · exact Or.inl ⟨hunclaimed tok htok, hsingle.promised tok htok⟩

theorem singleUse_commit_iff (h : s.Inv) (hsingle : s.SingleUse) (req : TokenRequest) :
    SingleUse { s.setTask i none with sessions := committed s.sessions req } ↔ s.InTime req := by
  have hunchanged : SingleUse { s.setTask i none with sessions := s.sessions } :=
    ⟨hsingle.exchanged, hsingle.promised⟩
  cases req with
  | renew expiry token refreshToken => exact iff_of_true hunchanged trivial
  | login expiry uid device =>
    rw [committed, InTime]
    cases hlogin : s.sessions.doLogin expiry uid device with
    | error e => exact iff_of_true hunchanged fun result hresult ↦ by cases hresult
    | ok result =>
      obtain ⟨user, -, -, rfl⟩ := SessionHistory.doLogin_eq_ok.1 hlogin
      refine (singleUse_write_iff hsingle (fun tok htok heq ↦ ?_) _ rfl).trans
        ⟨fun hunclaimed _ _ ↦ hunclaimed, fun hunclaimed ↦ hunclaimed _ rfl⟩
      obtain rfl := Option.some.inj heq
      exact absurd (h.promised _ htok) (lt_irrefl _)
  | logout token =>
    rw [committed, InTime]
    cases hlogout : s.sessions.logout token with
    | error e => exact iff_of_true hunchanged fun t ht ↦ by cases ht
    | ok t =>
      simp only [Sessions.logout, ensure_eq_ok, bind_eq_ok, pure_eq_ok, exists_unit] at hlogout
      obtain ⟨-, rfl⟩ := hlogout
      exact (singleUse_write_iff hsingle (fun tok htok heq ↦ by cases heq) _ rfl).trans
        ⟨fun hunclaimed _ _ ↦ hunclaimed, fun hunclaimed ↦ hunclaimed _ rfl⟩

/-- **A statement keeps what is claimed** exactly when it is orderly. -/
theorem singleUse_perform_iff (h : s.Inv) (hsingle : s.SingleUse) (a : RenewalAction) :
    (s.perform a).SingleUse ↔ s.Orderly a := by
  cases a with
  | tick seconds => exact iff_of_true ⟨hsingle.exchanged, hsingle.promised⟩ trivial
  | abandon i => exact iff_of_true ⟨hsingle.exchanged, hsingle.promised⟩ trivial
  | start i req =>
    refine iff_of_true ?_ trivial
    rw [perform]
    split
    · exact ⟨hsingle.exchanged, fun tok htok ↦ hsingle.promised tok (List.mem_filter.1 htok).1⟩
    · exact hsingle
  | select i =>
    refine iff_of_true ?_ trivial
    rw [perform]
    split
    · split <;> exact ⟨hsingle.exchanged, hsingle.promised⟩
    · exact hsingle
  | update i =>
    rw [perform, Orderly]
    split
    · rename_i expiry token refreshToken overtaken hi
      refine (singleUse_exchange_iff h hsingle hi).trans ⟨fun horderly _ _ _ _ heq ↦ ?_,
        fun horderly ↦ horderly _ _ _ _ hi⟩
      obtain ⟨-, rfl, -, rfl⟩ := TokenTask.checked.inj (Option.some.inj (hi.symm.trans heq))
      exact horderly
    · rename_i hnone
      exact iff_of_true hsingle fun _ _ _ _ heq ↦ absurd heq (hnone _ _ _ _)
  | commit i =>
    rw [perform, Orderly]
    split
    · rename_i hi
      refine iff_of_true hsingle fun req heq ↦ ?_
      obtain rfl := TokenTask.requested.inj (Option.some.inj (hi.symm.trans heq))
      trivial
    · rename_i req _ hi
      refine (singleUse_commit_iff h hsingle req).trans ⟨fun hintime req' heq ↦ ?_,
        fun hintime ↦ hintime req hi⟩
      obtain rfl := TokenTask.requested.inj (Option.some.inj (hi.symm.trans heq))
      exact hintime
    · rename_i hnone
      exact iff_of_true hsingle fun req heq ↦ absurd heq (hnone req)

/-- Nothing is under way yet. -/
theorem inv_start {s : SessionHistory} (h : s.Inv) : (start s.sessions).Inv where
  row row tok htok := by
    obtain ⟨hdata, -, hissued, -⟩ := h.row row tok htok
    exact ⟨hdata, h.nonce tok hissued, List.not_mem_nil⟩
  exchanged tok htok := absurd htok List.not_mem_nil
  promised tok htok := absurd htok List.not_mem_nil
  checked i expiry token refreshToken overtaken htask := by cases htask

/-- **Refresh tokens are used once, and what a renewal returns is current**, along every
interleaving that follows any requests, exactly when every statement is orderly. -/
theorem singleUse_iff (ph : PasswordHashing) (as : List TokenAction) (bs : List RenewalAction) :
    (∀ cs, cs <+: bs →
      (cs.foldl perform (start (SessionHistory.after ph as).sessions)).SingleUse) ↔
      Transition.Along (Transition.total perform) Orderly
        (start (SessionHistory.after ph as).sessions) bs := by
  have hinv : (SessionHistory.after ph as).Inv :=
    Transition.foldl_induction (fun _ a h ↦ h.perform a) SessionHistory.inv_start as
  exact Transition.forall_prefix_iff_along (I := Inv) (P := SingleUse) (fun _ a h ↦ h.perform a)
    (fun _ a h hsingle ↦ singleUse_perform_iff h hsingle a) (inv_start hinv)
    ⟨List.nodup_nil, fun tok htok ↦ absurd htok List.not_mem_nil⟩ bs

/-- Two renewals present the same token; both find it stored, and both exchange it. -/
theorem not_forall_singleUse : ¬∀ (ph : PasswordHashing) (as : List TokenAction)
    (bs : List RenewalAction),
    (bs.foldl perform (start (SessionHistory.after ph as).sessions)).SingleUse := by
  intro h
  have hsingle := h .transparent
    [.account (.createUser 10 0 "s"
      { name := "a", isAdmin := false, createBy := .magicLink "a@x" }),
      .login ⟨3600, 60⟩ 1 "phone"]
    [.start 0 (.renew ⟨3600, 60⟩ ⟨⟨1, "phone", false, false⟩, 60, 1, .accessToken⟩
        ⟨⟨1, "phone", false, false⟩, 3600, 0, .refreshToken⟩),
      .start 1 (.renew ⟨3600, 60⟩ ⟨⟨1, "phone", false, false⟩, 60, 1, .accessToken⟩
        ⟨⟨1, "phone", false, false⟩, 3600, 0, .refreshToken⟩),
      .select 0, .select 1, .update 0, .update 1]
  have hexchanged := hsingle.exchanged
  revert hexchanged
  decide +kernel

end RenewalSystem

end VoceChat
