import VoceChat.Accounts.PasswordLogin

/-!
# The first administrator (`create_admin_user` in `src/api/admin_system.rs`)

Anyone may create an administrator as long as there is no user. The check reads the cache and lets
go of it; the password is hashed, and `create_user` takes the cache again, for writing, and does not
repeat the check. What `AdminSystem` takes apart is this: a call that found no user waits, and other
calls and registrations come in between.

So two administrators are created when two calls check before either of them creates. A call that
creates an account is right exactly when no account was created since its check
(`firstAdmin_iff_undisturbed`).
-/

namespace VoceChat

open Guards Transition

/-- The account that `create_admin_user` asks for. -/
def CreateAdminRequest.toCreateUser (toLowercase : String → String) (req : CreateAdminRequest) :
    CreateUser :=
  { name := req.name, createBy := .password (toLowercase req.email) req.password
    isAdmin := true, gender := req.gender }

namespace Accounts

/-- `create_admin_user` without anything in between. -/
theorem createAdminUser_eq (ph : PasswordHashing) (toLowercase : String → String) (userLimit : ℕ)
    (now : ℤ) (salt : String) (s : Accounts) (req : CreateAdminRequest) :
    s.createAdminUser ph toLowercase userLimit now salt req =
      (ensure (s.users.entries = []) .forbidden >>= fun _ ↦
        s.createUser ph userLimit now salt (req.toCreateUser toLowercase)) := rfl

/-- What `create_user` checks: the password can be hashed, the licence allows one more user, and
nobody has the name or the email. -/
def Accepts (ph : PasswordHashing) (userLimit : ℕ) (salt : String) (s : Accounts)
    (req : CreateUser) : Prop :=
  (∀ plaintext ∈ req.createBy.getPassword, (ph.hash salt plaintext).isSome = true) ∧
    (s.users.entries.filter fun e ↦ !e.2.isGuest).length < userLimit ∧
    s.checkNameConflict req.name = true ∧ req.createBy.getEmail.all s.checkEmailConflict = true

variable {ph : PasswordHashing} {userLimit : ℕ} {now : ℤ} {salt : String} {s t : Accounts}
  {req : CreateUser} {uid : ℤ}

theorem exists_hashPassword {password : Option String} :
    (∃ hash, hashPassword ph salt password = .ok hash) ↔
      ∀ plaintext ∈ password, (ph.hash salt plaintext).isSome = true := by
  cases password with
  | none => exact iff_of_true ⟨none, rfl⟩ fun _ h ↦ by cases h
  | some plaintext =>
    simp only [hashPassword, map_eq_ok, okOr_eq_ok]
    constructor
    · rintro ⟨_, hash, hhash, -⟩ p hp
      obtain rfl := Option.some_inj.1 hp
      rw [hhash]
      rfl
    · intro h
      obtain ⟨hash, hhash⟩ := Option.isSome_iff_exists.1 (h plaintext rfl)
      exact ⟨some hash, hash, hhash, rfl⟩

theorem exists_createUser : (∃ r, s.createUser ph userLimit now salt req = .ok r) ↔
    s.Accepts ph userLimit salt req := by
  rw [Accepts, ← exists_hashPassword]
  simp only [createUser, bind_eq_ok, ensure_eq_ok, exists_unit, pure_eq_ok]
  constructor
  · rintro ⟨_, hash, hhash, hlimit, hname, hemail, -⟩
    exact ⟨⟨hash, hhash⟩, hlimit, hname, hemail⟩
  · rintro ⟨⟨hash, hhash⟩, hlimit, hname, hemail⟩
    exact ⟨_, hash, hhash, hlimit, hname, hemail, rfl⟩

/-- A new account has the next id, and from then on there is a user. -/
theorem createUser_eq_ok (h : s.createUser ph userLimit now salt req = .ok (uid, t)) :
    uid = s.nextUid ∧ t.nextUid = s.nextUid + 1 ∧ t.users.entries ≠ [] := by
  obtain ⟨hash, -, -, -, -, heq⟩ := createUser_eq_ok_iff.1 h
  obtain ⟨rfl, ht⟩ := Prod.mk.inj heq
  have hnew : ∀ user : Accounts.CacheUser, (s.users.insert s.nextUid user).entries ≠ [] := by
    intro user hnil
    have hmem := OrderedMap.get_eq_some.1 (OrderedMap.get_insert_self s.users s.nextUid user)
    rw [hnil] at hmem
    exact List.not_mem_nil hmem
  refine ⟨rfl, ?_⟩
  split at ht
  · obtain rfl := ht
    exact ⟨rfl, hnew _⟩
  · obtain rfl := ht
    exact ⟨rfl, hnew _⟩

end Accounts

/-- A call that found no user, with the id that the next account would have had. -/
structure AdminCall where
  req : CreateAdminRequest
  nextUid : ℤ
  deriving DecidableEq

/-- An account that was created by such a call, and the users that there were. -/
structure AdminCreation where
  uid : ℤ
  users : ℕ
  deriving DecidableEq, Repr

structure AdminSystem where
  accounts : Accounts
  calls : List AdminCall
  created : List AdminCreation

inductive AdminAction where
  /-- Any request that ends in `create_user`. -/
  | register (userLimit : ℕ) (now : ℤ) (salt : String) (req : CreateUser)
  /-- `create_admin_user` up to its check. -/
  | checkEmpty (req : CreateAdminRequest)
  /-- The rest of a call. -/
  | createAdmin (i userLimit : ℕ) (now : ℤ) (salt : String)

namespace AdminSystem

variable (ph : PasswordHashing) (toLowercase : String → String)

def start : AdminSystem := ⟨.start, [], []⟩

def createAdmin (userLimit : ℕ) (now : ℤ) (salt : String) (s : AdminSystem) (call : AdminCall) :
    AdminSystem :=
  match s.accounts.createUser ph userLimit now salt (call.req.toCreateUser toLowercase) with
  | .ok (uid, accounts) =>
    { s with accounts, created := s.created ++ [⟨uid, s.accounts.users.entries.length⟩] }
  | .error _ => s

def perform (s : AdminSystem) : AdminAction → AdminSystem
  | .register userLimit now salt req =>
    match s.accounts.createUser ph userLimit now salt req with
    | .ok (_, accounts) => { s with accounts }
    | .error _ => s
  | .checkEmpty req =>
    if s.accounts.users.entries = [] then
      { s with calls := s.calls ++ [⟨req, s.accounts.nextUid⟩] }
    else s
  | .createAdmin i userLimit now salt =>
    match s.calls[i]? with
    | some call =>
      { s with calls := s.calls.eraseIdx i }.createAdmin ph toLowercase userLimit now salt call
    | none => s

/-- At most one account was created by `create_admin_user`, and when there was no user. -/
def FirstOnly (s : AdminSystem) : Prop := s.created.length ≤ 1 ∧ ∀ c ∈ s.created, c.users = 0

/-- A call that `create_user` accepts creates its account only if none was created since its check.
-/
def Undisturbed (s : AdminSystem) : AdminAction → Prop
  | .createAdmin i userLimit _ salt => ∀ call, s.calls[i]? = some call →
      s.accounts.Accepts ph userLimit salt (call.req.toCreateUser toLowercase) →
        s.accounts.nextUid = call.nextUid
  | _ => True

/-- There is no user exactly as long as no id was given, and every call has seen this. -/
structure Inv (s : AdminSystem) : Prop where
  empty : s.accounts.users.entries = [] ↔ s.accounts.nextUid = 1
  one_le : 1 ≤ s.accounts.nextUid
  calls : ∀ call ∈ s.calls, call.nextUid = 1
  created : s.created ≠ [] → s.accounts.nextUid ≠ 1

variable {ph toLowercase} {s : AdminSystem} {accounts : Accounts} {userLimit : ℕ} {now uid : ℤ}
  {salt : String}

theorem inv_start : start.Inv where
  empty := iff_of_true rfl rfl
  one_le := le_rfl
  calls _ h := absurd h List.not_mem_nil
  created h := absurd rfl h

/-- After a new account. -/
theorem Inv.created_user (h : s.Inv) {req : CreateUser} (created : List AdminCreation)
    (hcreate : s.accounts.createUser ph userLimit now salt req = .ok (uid, accounts)) :
    Inv { s with accounts, created } := by
  obtain ⟨-, hnext, hnonempty⟩ := Accounts.createUser_eq_ok hcreate
  have hone := h.one_le
  have hne : accounts.nextUid ≠ 1 := by omega
  exact ⟨iff_of_false hnonempty hne, by show 1 ≤ accounts.nextUid; omega, h.calls, fun _ ↦ hne⟩

theorem inv_perform (h : s.Inv) (a : AdminAction) : (perform ph toLowercase s a).Inv := by
  cases a with
  | register userLimit now salt req =>
    rw [perform]
    split
    · rename_i uid accounts hcreate
      exact h.created_user s.created hcreate
    · exact h
  | checkEmpty req =>
    rw [perform]
    split
    · rename_i hempty
      refine { h with calls := fun call hcall ↦ ?_ }
      rcases List.mem_append.1 hcall with hcall | hcall
      · exact h.calls call hcall
      · obtain rfl := List.mem_singleton.1 hcall
        exact h.empty.1 hempty
    · exact h
  | createAdmin i userLimit now salt =>
    rw [perform]
    split
    · rename_i call hcall
      have hrest : Inv { s with calls := s.calls.eraseIdx i } :=
        { h with calls := fun call hcall ↦ h.calls call (List.mem_of_mem_eraseIdx hcall) }
      rw [createAdmin]
      split
      · rename_i uid accounts hcreate
        exact hrest.created_user _ hcreate
      · exact hrest
    · exact h

theorem firstOnly_perform_iff (h : s.Inv) (hfirst : s.FirstOnly) (a : AdminAction) :
    (perform ph toLowercase s a).FirstOnly ↔ Undisturbed ph toLowercase s a := by
  cases a with
  | register userLimit now salt req =>
    refine iff_of_true ?_ trivial
    rw [perform]
    split
    · exact hfirst
    · exact hfirst
  | checkEmpty req =>
    refine iff_of_true ?_ trivial
    rw [perform]
    split
    · exact hfirst
    · exact hfirst
  | createAdmin i userLimit now salt =>
    rw [perform, Undisturbed]
    cases hcall : s.calls[i]? with
    | none => exact iff_of_true hfirst fun _ h ↦ by cases h
    | some call =>
      have hone : call.nextUid = 1 := h.calls call (List.mem_of_getElem? hcall)
      show (createAdmin ph toLowercase userLimit now salt
        { s with calls := s.calls.eraseIdx i } call).FirstOnly ↔ _
      rw [createAdmin]
      cases hcreate : s.accounts.createUser ph userLimit now salt
        (call.req.toCreateUser toLowercase) with
      | error e =>
        -- refused: nobody is created, and the condition asks for nothing
        refine iff_of_true hfirst fun c hc haccepts ↦ ?_
        obtain rfl := Option.some_inj.1 hc
        obtain ⟨r, hr⟩ := (Accounts.exists_createUser : _ ↔ _).2 haccepts
        rw [hcreate] at hr
        cases hr
      | ok r =>
        obtain ⟨uid, accounts⟩ := r
        have haccepts : s.accounts.Accepts ph userLimit salt (call.req.toCreateUser toLowercase) :=
          Accounts.exists_createUser.1 ⟨_, hcreate⟩
        constructor
        · rintro ⟨-, hall⟩ c hc -
          obtain rfl := Option.some_inj.1 hc
          have hzero : s.accounts.users.entries.length = 0 :=
            hall ⟨uid, _⟩ (List.mem_append_right _ (List.mem_singleton_self _))
          rw [hone, ← h.empty]
          exact List.length_eq_zero_iff.1 hzero
        · intro hundisturbed
          have hnext : s.accounts.nextUid = 1 := hone ▸ hundisturbed call rfl haccepts
          have hnone : s.created = [] := by_contra fun hne ↦ h.created hne hnext
          show (s.created ++ [_]).length ≤ 1 ∧ ∀ c ∈ s.created ++ [_], _
          rw [hnone]
          refine ⟨le_rfl, fun c hc ↦ ?_⟩
          obtain rfl := List.mem_singleton.1 hc
          exact List.length_eq_zero_iff.2 (h.empty.2 hnext)

/-- **When only the first account comes from `create_admin_user`.** In every state of a run at most
one account was created by it, and when there was no user, if and only if every call that creates an
account does so before any other was created since its check. -/
theorem firstAdmin_iff_undisturbed (ph : PasswordHashing) (toLowercase : String → String)
    (as : List AdminAction) :
    (∀ cs, cs <+: as →
      (cs.foldl (perform ph toLowercase) start).created.length ≤ 1 ∧
        ∀ c ∈ (cs.foldl (perform ph toLowercase) start).created, c.users = 0) ↔
      Along (total (perform ph toLowercase)) (Undisturbed ph toLowercase) start as :=
  forall_prefix_iff_along (I := Inv) (P := FirstOnly) (f := perform ph toLowercase)
    (fun _ a h ↦ inv_perform h a) (fun _ a h hfirst ↦ firstOnly_perform_iff h hfirst a) inv_start
    ⟨Nat.zero_le 1, fun _ h ↦ absurd h List.not_mem_nil⟩ as

/-- Two calls check, and then both create an administrator. -/
theorem not_forall_firstAdmin : ¬∀ (ph : PasswordHashing) (toLowercase : String → String)
    (as : List AdminAction), (as.foldl (perform ph toLowercase) start).created.length ≤ 1 ∧
      ∀ c ∈ (as.foldl (perform ph toLowercase) start).created, c.users = 0 := by
  intro h
  have hrun := h .transparent GivenAccounts.asciiLowercase
    [.checkEmpty ⟨"a@x.org", "a", "secret", 0⟩, .checkEmpty ⟨"b@x.org", "b", "secret", 0⟩,
      .createAdmin 0 10 100 "s", .createAdmin 0 10 100 "s"]
  revert hrun
  decide +kernel

end AdminSystem

end VoceChat
