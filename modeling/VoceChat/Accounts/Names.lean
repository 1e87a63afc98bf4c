import VoceChat.Accounts.UserLog
import VoceChat.Foundations.Apart

/-!
# Names and addresses (`src/state.rs`, `src/create_user.rs`, `user.rs` and `admin_user.rs`)

Two users never have the same name, nor the same email, whatever the case of their letters. This is
looked after twice. `create_user`, `update_user` and the administrators' `update` ask
`check_name_conflict` and `check_email_conflict`, which go through the cache, while they hold it for
writing; and the table `user` has a unique index for each of the two columns, which are declared
`collate nocase`.

`UserDirectory` has both, the cache and the rows. A request goes through the checks, runs its
statement against the table, and its commit may do what it should, or be rolled back. A request may
also be abandoned by its client during the commit: then the rows are written and the cache is not.
The rows are read back at a restart.

So cache and rows can differ, and neither check makes up for the other: `distinct_after` holds of
the cache because every request checks it (`apart_of_request`), and of the rows because the indexes
do (`execute_apart`). As long as no commit is abandoned, both have the same users (`rows_eq_users`).
-/

namespace VoceChat

open Guards Transition

/-! ### Two ways of comparing texts -/

/-- SQLite's `NOCASE`: up to a NUL the letters count without their case, and then the lengths. -/
def nocase (a b : String) : Bool :=
  (a.toList.flatMap String.utf8EncodeChar).length =
      (b.toList.flatMap String.utf8EncodeChar).length ∧
    (a.toList.takeWhile (· ≠ '\x00')).map Char.toLower =
      (b.toList.takeWhile (· ≠ '\x00')).map Char.toLower

theorem utf8Size_toLower (c : Char) : c.toLower.utf8Size = c.utf8Size := by
  delta Char.toLower
  split
  · -- letters have one byte
    rename_i h
    have hle := UInt32.le_iff_toNat_le.1 h.2
    have hupper : c.utf8Size = 1 := if_pos (UInt32.le_iff_toNat_le.2 (Nat.le_trans hle (by decide)))
    rw [hupper]
    refine if_pos (UInt32.le_iff_toNat_le.2 ?_)
    show (c.val + ('a'.val - 'A'.val)).toNat ≤ 127
    rw [UInt32.toNat_add]
    refine Nat.le_trans (Nat.mod_le _ _) (Nat.le_trans (Nat.add_le_add_right hle _) ?_)
    decide
  · rfl

theorem toLower_eq_nul_iff (c : Char) : c.toLower = '\x00' ↔ c = '\x00' := by
  delta Char.toLower
  split
  · rename_i h
    refine iff_of_false (fun heq ↦ ?_) (fun heq ↦ ?_)
    · have hsize := congrArg (fun d : Char ↦ d.val.toNat) heq
      have hge := UInt32.le_iff_toNat_le.1 h.1
      have hle := UInt32.le_iff_toNat_le.1 h.2
      change (c.val + ('a'.val - 'A'.val)).toNat = 0 at hsize
      rw [UInt32.toNat_add] at hsize
      change 65 ≤ c.val.toNat at hge
      change c.val.toNat ≤ 90 at hle
      change (c.val.toNat + 32) % 4294967296 = 0 at hsize
      omega
    · rw [heq] at h
      exact absurd h.1 (by decide)
  · exact Iff.rfl

/-- What the server takes for equal, the index takes for equal. -/
theorem nocase_of_eqIgnoreAsciiCase {a b : String} (h : eqIgnoreAsciiCase a b = true) :
    nocase a b = true := by
  have hsize : ∀ s : List Char, ((s.map Char.toLower).flatMap String.utf8EncodeChar).length =
      (s.flatMap String.utf8EncodeChar).length := by
    intro s
    induction s with
    | nil => rfl
    | cons c s ih =>
      rw [List.map_cons, List.flatMap_cons, List.flatMap_cons, List.length_append,
        List.length_append, ih, String.length_utf8EncodeChar, String.length_utf8EncodeChar,
        utf8Size_toLower]
  have htake : ∀ s : List Char, (s.takeWhile (· ≠ '\x00')).map Char.toLower =
      (s.map Char.toLower).takeWhile (· ≠ '\x00') := by
    intro s
    rw [List.takeWhile_map]
    congr 2
    funext c
    exact decide_eq_decide.2 (not_congr (toLower_eq_nul_iff c).symm)
  have hlower := of_decide_eq_true h
  refine decide_eq_true ⟨?_, ?_⟩
  · rw [← hsize a.toList, ← hsize b.toList, hlower]
  · rw [htake, htake, hlower]

theorem nocase_comm (a b : String) : nocase a b = nocase b a :=
  decide_eq_decide.2 (and_congr eq_comm eq_comm)

/-! ### Users that are alike -/

namespace Accounts

section Alike

variable (alike : String → String → Bool)

def CacheUser.sameName (a b : CacheUser) : Bool := alike a.name b.name

/-- `null` is not equal to anything, not even to `null`. -/
def CacheUser.sameEmail (a b : CacheUser) : Bool :=
  a.email.any fun e ↦ b.email.any fun f ↦ alike e f

variable {alike}

theorem sameName_comm (hcomm : ∀ a b, alike a b = alike b a) (a b : CacheUser) :
    a.sameName alike b = b.sameName alike a :=
  hcomm a.name b.name

theorem sameEmail_eq_true {a b : CacheUser} :
    a.sameEmail alike b = true ↔ ∃ e ∈ a.email, ∃ f ∈ b.email, alike e f = true := by
  simp only [CacheUser.sameEmail, Option.any_eq_true, Option.mem_def]

theorem sameEmail_comm (hcomm : ∀ a b, alike a b = alike b a) (a b : CacheUser) :
    a.sameEmail alike b = b.sameEmail alike a := by
  have hswap : ∀ {a b : CacheUser}, a.sameEmail alike b = true → b.sameEmail alike a = true := by
    intro a b h
    obtain ⟨e, he, f, hf, halike⟩ := sameEmail_eq_true.1 h
    exact sameEmail_eq_true.2 ⟨f, hf, e, he, (hcomm f e).trans halike⟩
  exact Bool.eq_iff_iff.2 ⟨hswap, hswap⟩

end Alike

/-- No two users have the same name or the same email, without regard to case. -/
def Distinct (users : OrderedMap ℤ CacheUser) : Prop :=
  users.Apart (CacheUser.sameName eqIgnoreAsciiCase) ∧
    users.Apart (CacheUser.sameEmail eqIgnoreAsciiCase)

variable {ph : PasswordHashing} {s t : Accounts} {uid : ℤ} {user new : CacheUser}

/-! ### The checks on the cache -/

theorem free_of_checkNameConflict (h : s.checkNameConflict new.name = true) :
    s.users.Free (CacheUser.sameName eqIgnoreAsciiCase) uid new := by
  intro l other hget _
  rw [checkNameConflict, Bool.not_eq_true', List.any_eq_false] at h
  rw [CacheUser.sameName, eqIgnoreAsciiCase_comm]
  exact Bool.eq_false_iff.2 (h (l, other) (OrderedMap.get_eq_some.1 hget))

/-- A name that is kept does not clash either. -/
theorem free_name (h : Distinct s.users) (huser : s.users.get uid = some user)
    {name : Option String}
    (hcheck : name.all s.checkNameConflict = true) (hnew : new.name = name.getD user.name) :
    s.users.Free (CacheUser.sameName eqIgnoreAsciiCase) uid new := by
  cases name with
  | none =>
    intro l other hget hne
    rw [CacheUser.sameName, hnew]
    exact h.1 uid user huser l other hget hne
  | some name => exact free_of_checkNameConflict (hnew ▸ hcheck)

theorem free_of_checkEmailConflict (h : new.email.all s.checkEmailConflict = true) :
    s.users.Free (CacheUser.sameEmail eqIgnoreAsciiCase) uid new := by
  intro l other hget _
  rw [Bool.eq_false_iff]
  intro hsame
  obtain ⟨e, he, f, hf, halike⟩ := sameEmail_eq_true.1 hsame
  have hfree := (Option.all_eq_true _ _).1 h e he
  rw [checkEmailConflict, Bool.not_eq_true', List.any_eq_false] at hfree
  refine hfree (l, other) (OrderedMap.get_eq_some.1 hget) ?_
  rw [Option.any_eq_true]
  exact ⟨f, hf, (eqIgnoreAsciiCase_comm f e).trans halike⟩

theorem free_email (h : Distinct s.users) (huser : s.users.get uid = some user)
    {email : Option String} (hcheck : email.all s.checkEmailConflict = true)
    (hnew : new.email = email.or user.email) :
    s.users.Free (CacheUser.sameEmail eqIgnoreAsciiCase) uid new := by
  cases email with
  | none =>
    intro l other hget hne
    rw [CacheUser.sameEmail, hnew]
    exact h.2 uid user huser l other hget hne
  | some email =>
    refine free_of_checkEmailConflict ?_
    rw [hnew]
    exact hcheck

theorem Distinct.put (h : Distinct s.users)
    (hname : s.users.Free (CacheUser.sameName eqIgnoreAsciiCase) uid new)
    (hemail : s.users.Free (CacheUser.sameEmail eqIgnoreAsciiCase) uid new) :
    Distinct (s.users.insert uid new) :=
  ⟨h.1.insert (sameName_comm eqIgnoreAsciiCase_comm) hname,
    h.2.insert (sameEmail_comm eqIgnoreAsciiCase_comm) hemail⟩

/-- A user that is updated: what is given passed its check, the rest is kept. -/
theorem Distinct.update (h : Distinct s.users) (huser : s.users.get uid = some user)
    {name email : Option String} (hname : name.all s.checkNameConflict = true)
    (hemail : email.all s.checkEmailConflict = true) (hnewName : new.name = name.getD user.name)
    (hnewEmail : new.email = email.or user.email) : Distinct (s.users.insert uid new) :=
  h.put (free_name h huser hname hnewName) (free_email h huser hemail hnewEmail)

theorem Distinct.setAvatar (h : Distinct s.users) {now : ℤ} (hok : s.setAvatar uid now = .ok t) :
    Distinct t.users := by
  obtain ⟨user, huser, rfl⟩ := setAvatar_eq_ok_iff.1 hok
  exact h.update huser (rfl : Option.all _ none = true) (rfl : Option.all _ none = true) rfl rfl

theorem Distinct.deleteUser (h : Distinct s.users) (hok : s.deleteUser uid = .ok t) :
    Distinct t.users := by
  rw [users_deleteUser hok]
  exact ⟨h.1.erase uid, h.2.erase uid⟩

/-- **Every request that is answered keeps the users of the cache distinct.** -/
theorem apart_of_request {a : AccountAction} (h : Distinct s.users) (hok : s.request ph a = .ok t) :
    Distinct t.users := by
  cases a with
  | createUser userLimit now salt req =>
    obtain ⟨_, hcreate, rfl⟩ := map_eq_ok.1 hok
    obtain ⟨password, -, -, hname, hemail, rfl⟩ := createUser_eq_ok_iff.1 hcreate
    have hput : Distinct (s.users.insert s.nextUid (req.toUser now password)) :=
      h.put (free_of_checkNameConflict hname) (free_of_checkEmailConflict hemail)
    split
    · exact hput
    · exact hput
  | updateUser token req =>
    obtain ⟨-, -, hname, user, huser, rfl⟩ := updateUser_eq_ok_iff.1 hok
    have hput : Distinct (s.users.insert token.uid (req.updated user)) :=
      h.update huser hname (rfl : Option.all _ none = true) rfl rfl
    split
    · exact hput
    · exact hput
  | uploadAvatar token now =>
    simp only [request, uploadAvatar, ensure_eq_ok, bind_eq_ok, exists_unit] at hok
    exact h.setAvatar hok.2
  | adminUpdate salt webhookOk token uid req =>
    obtain ⟨-, -, password, -, hemail, hname, -, user, huser, rfl⟩ := adminUpdate_eq_ok_iff.1 hok
    exact h.update huser hname hemail rfl rfl
  | adminUploadAvatar token uid now =>
    simp only [request, adminUploadAvatar, ensure_eq_ok, bind_eq_ok, exists_unit] at hok
    exact h.setAvatar hok.2
  | adminDelete token uid =>
    simp only [request, adminDelete, ensure_eq_ok, bind_eq_ok, exists_unit] at hok
    exact h.deleteUser hok.2.2
  | deleteCurrentUser token => exact h.deleteUser hok

end Accounts

/-! ### The table -/

/-- The rows of the table `user`. -/
abbrev UserRows := OrderedMap ℤ Accounts.CacheUser

/-- A statement on the table. -/
inductive UserStatement where
  | insert (uid : ℤ) (row : Accounts.CacheUser)
  | update (uid : ℤ) (set : Accounts.CacheUser → Accounts.CacheUser)
  | delete (uid : ℤ)

/-- The unique indexes `user_name` and `user_email`. -/
def UserRows.admits (rows : UserRows) (uid : ℤ) (row : Accounts.CacheUser) : Bool :=
  rows.isFree (Accounts.CacheUser.sameName nocase) uid row &&
    rows.isFree (Accounts.CacheUser.sameEmail nocase) uid row

/-- A row is only put if the indexes admit it; an update of a row that does not exist does nothing.
-/
def UserStatement.execute (rows : UserRows) : UserStatement → Option UserRows
  | insert uid row => if rows.admits uid row then some (rows.insert uid row) else none
  | update uid set =>
    match rows.get uid with
    | none => some rows
    | some row => if rows.admits uid (set row) then some (rows.insert uid (set row)) else none
  | delete uid => some (rows.erase uid)

/-- What the requests do to the table. -/
def Accounts.statement (ph : PasswordHashing) (s : Accounts) :
    AccountAction → Except AccountError UserStatement
  | .createUser _ now salt req =>
    (hashPassword ph salt req.createBy.getPassword).map fun password ↦
      .insert s.nextUid (req.toUser now password)
  | .updateUser token req => .ok (.update token.uid req.updated)
  | .adminUpdate salt _ _ uid req =>
    (hashPassword ph salt req.password).map fun password ↦ .update uid (req.updated password)
  | .uploadAvatar token now =>
    .ok (.update token.uid fun row ↦ { row with avatarUpdatedAt := now })
  | .adminUploadAvatar _ uid now =>
    .ok (.update uid fun row ↦ { row with avatarUpdatedAt := now })
  | .adminDelete _ uid => .ok (.delete uid)
  | .deleteCurrentUser token => .ok (.delete token.uid)

/-- The indexes at work. -/
def UserRows.Indexed (rows : UserRows) : Prop :=
  rows.Apart (Accounts.CacheUser.sameName nocase) ∧ rows.Apart (Accounts.CacheUser.sameEmail nocase)

theorem UserRows.Indexed.put {rows : UserRows} {uid : ℤ} {row : Accounts.CacheUser}
    (h : rows.Indexed) (hadmits : rows.admits uid row = true) :
    UserRows.Indexed (rows.insert uid row) := by
  rw [UserRows.admits, Bool.and_eq_true, OrderedMap.isFree_iff, OrderedMap.isFree_iff] at hadmits
  exact ⟨h.1.insert (Accounts.sameName_comm nocase_comm) hadmits.1,
    h.2.insert (Accounts.sameEmail_comm nocase_comm) hadmits.2⟩

/-- **No statement gets past the indexes.** -/
theorem execute_indexed {rows rows' : UserRows} {statement : UserStatement} (h : rows.Indexed)
    (hexecute : statement.execute rows = some rows') : rows'.Indexed := by
  cases statement with
  | insert uid row =>
    obtain ⟨hadmits, heq⟩ := Option.ite_none_right_eq_some.1 hexecute
    obtain rfl := Option.some.inj heq
    exact h.put hadmits
  | update uid set =>
    rw [UserStatement.execute.eq_2] at hexecute
    split at hexecute
    · obtain rfl := Option.some.inj hexecute
      exact h
    · obtain ⟨hadmits, heq⟩ := Option.ite_none_right_eq_some.1 hexecute
      obtain rfl := Option.some.inj heq
      exact h.put hadmits
  | delete uid =>
    obtain rfl := Option.some.inj hexecute
    exact ⟨h.1.erase uid, h.2.erase uid⟩

/-- Rows that the indexes admit are distinct as the server compares them. -/
theorem UserRows.Indexed.distinct {rows : UserRows} (h : rows.Indexed) :
    Accounts.Distinct rows := by
  refine ⟨h.1.mono fun a b hsame ↦ nocase_of_eqIgnoreAsciiCase hsame, h.2.mono fun a b hsame ↦ ?_⟩
  obtain ⟨e, he, f, hf, halike⟩ := Accounts.sameEmail_eq_true.1 hsame
  exact Accounts.sameEmail_eq_true.2 ⟨e, he, f, hf, nocase_of_eqIgnoreAsciiCase halike⟩

/-! ### Both together -/

/-- How the commit of a transaction ends. -/
inductive Commit where
  | completed
  | rolledBack
  /-- The client is gone: the rows are written, and the request does not go on. -/
  | abandoned
  deriving DecidableEq

/-- The cache, with the log and the counters of the tables, and the table of the users. -/
structure UserDirectory where
  cache : Accounts
  rows : UserRows

inductive UserDirectoryAction where
  | request (a : AccountAction) (commit : Commit)
  /-- `clean_guest`, of one guest that is old enough. -/
  | cleanGuest (uid : ℤ) (commit : Commit)
  | restart

namespace UserDirectory

def start : UserDirectory := ⟨.start, OrderedMap.empty⟩

/-- A request up to its commit. -/
def transaction (s : UserDirectory) (answer : Except AccountError Accounts)
    (statement : Except AccountError UserStatement) : Except AccountError UserDirectory := do
  let cache ← answer
  let statement ← statement
  let rows ← okOr (statement.execute s.rows) .internal
  return ⟨cache, rows⟩

/-- The commit, and what comes after it. -/
def settle (s : UserDirectory) (result : Except AccountError UserDirectory) :
    Commit → UserDirectory
  | .completed => result.toOption.getD s
  | .rolledBack => s
  | .abandoned =>
    (result.toOption.map fun t ↦ { t with cache := { t.cache with users := s.cache.users } }).getD s

variable (ph : PasswordHashing)

def perform (s : UserDirectory) : UserDirectoryAction → UserDirectory
  | .request a commit =>
    s.settle (s.transaction (s.cache.request ph a) (s.cache.statement ph a)) commit
  | .cleanGuest uid commit =>
    s.settle (s.transaction (s.cache.deleteUser uid) (.ok (.delete uid))) commit
  | .restart => { s with cache := { s.cache with users := s.rows } }

/-- The users after a run. -/
def after (as : List UserDirectoryAction) : UserDirectory := as.foldl (perform ph) start

/-- The users of the cache are distinct, and the indexes hold. -/
structure Inv (s : UserDirectory) : Prop where
  cache : Accounts.Distinct s.cache.users
  rows : s.rows.Indexed

variable {ph} {s t : UserDirectory} {answer : Except AccountError Accounts}
  {statement : Except AccountError UserStatement}

theorem transaction_eq_ok (h : s.transaction answer statement = .ok t) :
    answer = .ok t.cache ∧
      ∃ stmt, statement = .ok stmt ∧ stmt.execute s.rows = some t.rows := by
  simp only [transaction, bind_eq_ok, okOr_eq_ok, pure_eq_ok] at h
  obtain ⟨cache, hcache, stmt, hstmt, rows, hrows, rfl⟩ := h
  exact ⟨hcache, stmt, hstmt, hrows⟩

/-- A request whose answer keeps the cache distinct keeps the invariant, however its commit ends. -/
theorem Inv.settle (h : s.Inv) (hanswer : ∀ c, answer = .ok c → Accounts.Distinct c.users)
    (commit : Commit) : (s.settle (s.transaction answer statement) commit).Inv := by
  cases hresult : s.transaction answer statement with
  | error e => cases commit <;> exact h
  | ok t =>
    obtain ⟨hcache, stmt, -, hexecute⟩ := transaction_eq_ok hresult
    have hrows : t.rows.Indexed := execute_indexed h.rows hexecute
    cases commit with
    | completed => exact ⟨hanswer _ hcache, hrows⟩
    | rolledBack => exact h
    | abandoned => exact ⟨h.cache, hrows⟩

theorem Inv.perform (h : s.Inv) (a : UserDirectoryAction) : (s.perform ph a).Inv := by
  cases a with
  | request a commit => exact h.settle (fun c hc ↦ Accounts.apart_of_request h.cache hc) commit
  | cleanGuest uid commit => exact h.settle (fun c hc ↦ h.cache.deleteUser hc) commit
  | restart => exact ⟨h.rows.distinct, h.rows⟩

theorem inv_after (as : List UserDirectoryAction) : (after ph as).Inv :=
  foldl_induction (I := Inv) (fun _ a h ↦ h.perform a)
    ⟨⟨OrderedMap.apart_empty, OrderedMap.apart_empty⟩,
      ⟨OrderedMap.apart_empty, OrderedMap.apart_empty⟩⟩ as

/-- **Names and emails are distinct after every run**, in the cache and in the table. -/
theorem distinct_after (ph : PasswordHashing) (as : List UserDirectoryAction) :
    Accounts.Distinct (after ph as).cache.users ∧ Accounts.Distinct (after ph as).rows :=
  ⟨(inv_after as).cache, (inv_after as).rows.distinct⟩

/-! ### Cache and table -/

/-- No commit is abandoned. -/
def Attended : UserDirectoryAction → Prop
  | .request _ commit | .cleanGuest _ commit => commit ≠ .abandoned
  | .restart => True

/-- The statement does to the rows what the request does to the users. -/
theorem execute_statement {s t : Accounts} {a : AccountAction} {stmt : UserStatement}
    {rows : UserRows} (hok : s.request ph a = .ok t) (hstmt : s.statement ph a = .ok stmt)
    (hexecute : stmt.execute s.users = some rows) : rows = t.users := by
  have hput : ∀ {uid : ℤ} {set : Accounts.CacheUser → Accounts.CacheUser} {user},
      s.users.get uid = some user → (UserStatement.update uid set).execute s.users = some rows →
        rows = s.users.insert uid (set user) := by
    intro uid set user huser hexecute
    rw [UserStatement.execute.eq_2, huser] at hexecute
    exact (Option.some.inj (Option.ite_none_right_eq_some.1 hexecute).2).symm
  cases a with
  | createUser userLimit now salt req =>
    obtain ⟨_, hcreate, rfl⟩ := map_eq_ok.1 hok
    obtain ⟨password, hpassword, -, -, -, rfl⟩ := Accounts.createUser_eq_ok_iff.1 hcreate
    rw [Accounts.statement, hpassword] at hstmt
    obtain rfl := Except.ok.inj hstmt
    obtain rfl := Option.some.inj (Option.ite_none_right_eq_some.1 hexecute).2
    split
    · rfl
    · rfl
  | updateUser token req =>
    obtain ⟨-, -, -, user, huser, rfl⟩ := Accounts.updateUser_eq_ok_iff.1 hok
    obtain rfl := Except.ok.inj hstmt
    rw [hput huser hexecute]
    split
    · rfl
    · rfl
  | adminUpdate salt webhookOk token uid req =>
    obtain ⟨-, -, password, hpassword, -, -, -, user, huser, rfl⟩ :=
      Accounts.adminUpdate_eq_ok_iff.1 hok
    rw [Accounts.statement, hpassword] at hstmt
    obtain rfl := Except.ok.inj hstmt
    exact hput huser hexecute
  | uploadAvatar token now =>
    simp only [Accounts.request, Accounts.uploadAvatar, Accounts.setAvatar, ensure_eq_ok,
      bind_eq_ok, okOr_eq_ok, pure_eq_ok, exists_unit] at hok
    obtain ⟨-, user, huser, rfl⟩ := hok
    obtain rfl := Except.ok.inj hstmt
    exact hput huser hexecute
  | adminUploadAvatar token uid now =>
    simp only [Accounts.request, Accounts.adminUploadAvatar, Accounts.setAvatar, ensure_eq_ok,
      bind_eq_ok, okOr_eq_ok, pure_eq_ok, exists_unit] at hok
    obtain ⟨-, user, huser, rfl⟩ := hok
    obtain rfl := Except.ok.inj hstmt
    exact hput huser hexecute
  | adminDelete token uid =>
    simp only [Accounts.request, Accounts.adminDelete, ensure_eq_ok, bind_eq_ok, exists_unit] at hok
    obtain rfl := Except.ok.inj hstmt
    obtain rfl := Option.some.inj hexecute
    exact (Accounts.users_deleteUser hok.2.2).symm
  | deleteCurrentUser token =>
    obtain rfl := Except.ok.inj hstmt
    obtain rfl := Option.some.inj hexecute
    exact (Accounts.users_deleteUser hok).symm

theorem settle_rows_eq_users (h : s.rows = s.cache.users) {commit : Commit}
    (hattended : commit ≠ .abandoned)
    (hsame : ∀ c stmt rows, answer = .ok c → statement = .ok stmt →
      stmt.execute s.cache.users = some rows → rows = c.users) :
    (s.settle (s.transaction answer statement) commit).rows =
      (s.settle (s.transaction answer statement) commit).cache.users := by
  cases commit with
  | completed =>
    cases hresult : s.transaction answer statement with
    | error e => exact h
    | ok t =>
      obtain ⟨hcache, stmt, hstmt, hexecute⟩ := transaction_eq_ok hresult
      exact hsame t.cache stmt t.rows hcache hstmt (h ▸ hexecute)
  | rolledBack => exact h
  | abandoned => exact absurd rfl hattended

theorem perform_rows_eq_users (h : s.rows = s.cache.users) {a : UserDirectoryAction}
    (hattended : Attended a) : (s.perform ph a).rows = (s.perform ph a).cache.users := by
  cases a with
  | request a commit =>
    exact settle_rows_eq_users h hattended fun c stmt rows ↦ execute_statement
  | cleanGuest uid commit =>
    refine settle_rows_eq_users h hattended fun c stmt rows hok hstmt hexecute ↦ ?_
    obtain rfl := Except.ok.inj hstmt
    obtain rfl := Option.some.inj hexecute
    exact (Accounts.users_deleteUser hok).symm
  | restart => rfl

/-- Cache and table agree as long as no commit is abandoned. -/
theorem rows_eq_users (as : List UserDirectoryAction) (hattended : ∀ a ∈ as, Attended a) :
    (after ph as).rows = (after ph as).cache.users := by
  have hrun : ∀ {s : UserDirectory}, s.rows = s.cache.users →
      (as.foldl (perform ph) s).rows = (as.foldl (perform ph) s).cache.users := by
    induction as with
    | nil => exact id
    | cons a as ih =>
      intro s h
      exact ih (fun b hb ↦ hattended b (List.mem_cons_of_mem a hb))
        (perform_rows_eq_users h (hattended a List.mem_cons_self))
  exact hrun rfl

end UserDirectory

end VoceChat
