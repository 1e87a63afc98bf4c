import VoceChat.Foundations.Tasks
import VoceChat.Links.Logins

/-!
# How a user comes to an identity

In a run, every identity of a user, and every one that a user was let in with, was proved to the
server by whoever has it (`Proves`), and there are three ways in which a user comes to it: he was
created for it, he asked for it by `bind`, or he was the first to have the e-mail address that the
third party told (`Given`). A user without an address is what is looked for when GitHub tells none.

A proof by a wallet is a signature of the nonce that the server has stored for its address last
(`nonces_eq_last`), and a proof at an issuer of OpenID Connect uses up an authorization
(`consumed_le_authorized`).
-/

namespace VoceChat

open Guards Machine Transition

namespace LinkSystem

variable {ph : PasswordHashing} {toLowercase : String → String}
  {recover : String → Bytes → Option Bytes} {s t : LinkSystem} {a : LinkAction}
  {as : List LinkAction} {identity : Identity} {uid : ℤ}

/-! ### Proofs and gifts -/

/-- A step in which it is settled that the user is to have the identity. -/
inductive Given (s : LinkSystem) : LinkAction → Identity → ℤ → Prop where
  /-- The user is created for it. -/
  | created (i userLimit : ℕ) (now : ℤ) (salt : String) (avatar : Bool) (profile : LinkProfile)
      (name : String) (hold : s.tasks i = some (.named profile name)) :
    Given s (.run i (.created userLimit now salt avatar)) profile.identity s.accounts.nextUid
  /-- The user asks for one of its kind. -/
  | bound (i : ℕ) (req : LinkRequest) (identity : Identity) (uid : ℤ)
      (hreq : req.BindsTo identity.table uid) : Given s (.request i req) identity uid
  /-- The user has the address that was told. -/
  | matched (i : ℕ) (profile : LinkProfile) (email : Option String) (uid : ℤ)
      (user : Accounts.CacheUser) (hold : s.tasks i = some (.unlinked profile))
      (hwanted : profile.wanted = some email) (huser : s.accounts.users.get uid = some user)
      (hemail : user.email = email) : Given s (.run i .found) profile.identity uid

/-- What occurred before a request came to be where it is. -/
structure TaskHistory (ph : PasswordHashing) (toLowercase : String → String)
    (recover : String → Bytes → Option Bytes) (as : List LinkAction) (task : LinkTask) : Prop where
  proved : ∀ identity, task.identity = some identity →
    Occurred (step ph toLowercase recover) (fun s a ↦ Proves toLowercase recover s a identity)
      start as
  matched : ∀ identity uid, task = .matched identity uid →
    Occurred (step ph toLowercase recover) (fun s a ↦ s.Given a identity uid) start as
  bound : ∀ identity uid, task.bound = some (identity.table, uid) →
    Occurred (step ph toLowercase recover) (fun s a ↦ s.Given a identity uid) start as

/-- What occurred before a user came to have an identity. -/
structure LinkHistory (ph : PasswordHashing) (toLowercase : String → String)
    (recover : String → Bytes → Option Bytes) (as : List LinkAction) (identity : Identity)
    (uid : ℤ) : Prop where
  proved :
    Occurred (step ph toLowercase recover) (fun s a ↦ Proves toLowercase recover s a identity)
      start as
  given : Occurred (step ph toLowercase recover) (fun s a ↦ s.Given a identity uid) start as

structure RunHistory (ph : PasswordHashing) (toLowercase : String → String)
    (recover : String → Bytes → Option Bytes) (as : List LinkAction) (s : LinkSystem) : Prop where
  tasks : ∀ i task, s.tasks i = some task → TaskHistory ph toLowercase recover as task
  links : ∀ identity uid, s.links.get identity = some uid →
    LinkHistory ph toLowercase recover as identity uid
  resolved : ∀ i identity uid, s.tasks i = some (.resolved identity uid) →
    LinkHistory ph toLowercase recover as identity uid
  entries : ∀ e ∈ s.entries, LinkHistory ph toLowercase recover as e.1 e.2

theorem TaskHistory.concat {task : LinkTask} (h : TaskHistory ph toLowercase recover as task)
    (a : LinkAction) : TaskHistory ph toLowercase recover (as ++ [a]) task :=
  ⟨fun _ hidentity ↦ (h.proved _ hidentity).concat a,
    fun _ _ htask ↦ (h.matched _ _ htask).concat a,
    fun _ _ hbound ↦ (h.bound _ _ hbound).concat a⟩

theorem LinkHistory.concat (h : LinkHistory ph toLowercase recover as identity uid)
    (a : LinkAction) : LinkHistory ph toLowercase recover (as ++ [a]) identity uid :=
  ⟨h.proved.concat a, h.given.concat a⟩

theorem runHistory_start : RunHistory ph toLowercase recover [] start where
  tasks _ _ h := nomatch h
  links _ _ h := nomatch h
  resolved _ _ _ h := nomatch h
  entries _ h := nomatch h

/-- A task that is not resolved, after the step it came from. -/
theorem TaskHistory.of_came (h : RunHistory ph toLowercase recover as s)
    (hrun : run (step ph toLowercase recover) start as = some s) {i : ℕ} {task : LinkTask}
    (hcame : Came toLowercase recover s a i task) :
    TaskHistory ph toLowercase recover (as ++ [a]) task where
  proved identity hidentity := by
    rcases hcame.proved identity hidentity with ⟨old, hold, hsame⟩ | hproves
    · exact ((h.tasks i old hold).proved identity hsame).concat a
    · exact occurred_concat hrun hproves
  matched identity uid htask := by
    obtain ⟨rfl, profile, hold, rfl, hfind⟩ := hcame.matched identity uid htask
    obtain ⟨email, user, hwanted, huser, hemail⟩ := Accounts.findProfile_eq_some hfind
    exact occurred_concat hrun (.matched i profile email uid user hold hwanted huser hemail)
  bound identity uid hbound := by
    rcases hcame.bound _ uid hbound with ⟨old, hold, hsame⟩ | ⟨req, rfl, hreq⟩
    · exact ((h.tasks i old hold).bound identity uid hsame).concat a
    · exact occurred_concat hrun (.bound i req identity uid hreq)

/-- A link that is made has the history of the task that makes it. -/
theorem RunHistory.linked (h : RunHistory ph toLowercase recover as s) {i : ℕ}
    {task : Option LinkTask}
    (hold : s.tasks i = some (.matched identity uid) ∧ task = some (.resolved identity uid) ∨
      s.tasks i = some (.binding identity uid) ∧ task = none) :
    LinkHistory ph toLowercase recover as identity uid := by
  rcases hold with ⟨hold, -⟩ | ⟨hold, -⟩
  · exact ⟨(h.tasks i _ hold).proved identity rfl, (h.tasks i _ hold).matched identity uid rfl⟩
  · exact ⟨(h.tasks i _ hold).proved identity rfl, (h.tasks i _ hold).bound identity uid rfl⟩

/-- A task whose user and identity are settled was proved. -/
theorem LinkHistory.resolved (h : LinkHistory ph toLowercase recover as identity uid) :
    TaskHistory ph toLowercase recover as (.resolved identity uid) where
  proved _ hidentity := Option.some.inj hidentity ▸ h.proved
  matched _ _ htask := nomatch htask
  bound _ _ hbound := nomatch hbound

theorem RunHistory.did (h : RunHistory ph toLowercase recover as s)
    (hrun : run (step ph toLowercase recover) start as = some s)
    (hdid : Did ph toLowercase recover s a t) :
    RunHistory ph toLowercase recover (as ++ [a]) t := by
  have htasks : ∀ i task, s.tasks i = some task →
      TaskHistory ph toLowercase recover (as ++ [a]) task :=
    fun i task htask ↦ (h.tasks i task htask).concat a
  have hlinks : ∀ identity uid, s.links.get identity = some uid →
      LinkHistory ph toLowercase recover (as ++ [a]) identity uid :=
    fun identity uid hget ↦ (h.links identity uid hget).concat a
  have hresolved : ∀ i task, s.tasks i = some task → ∀ identity uid,
      task = .resolved identity uid → LinkHistory ph toLowercase recover (as ++ [a]) identity uid :=
    fun i task htask identity uid heq ↦ (h.resolved i identity uid (heq ▸ htask)).concat a
  have hentries : ∀ e ∈ s.entries, LinkHistory ph toLowercase recover (as ++ [a]) e.1 e.2 :=
    fun e he ↦ (h.entries e he).concat a
  cases hdid with
  | accounts b =>
    exact ⟨htasks, fun identity uid hget ↦ hlinks _ _ (Links.get_withAccounts.1 hget).1,
      fun i identity uid htask ↦ hresolved i _ htask identity uid rfl, hentries⟩
  | challenge hframe htasks' =>
    rw [← htasks'] at htasks hresolved
    rw [← hframe.links] at hlinks
    rw [← hframe.entries] at hentries
    exact ⟨htasks, hlinks, fun i identity uid htask ↦ hresolved i _ htask identity uid rfl,
      hentries⟩
  | moved i task hframe htasks' hcame =>
    rw [← hframe.links] at hlinks
    rw [← hframe.entries] at hentries
    refine ⟨?_, hlinks, fun j identity uid htask ↦ ?_, hentries⟩
    · rw [htasks']
      exact Tasks.forall_update (fun new hnew ↦ .of_came h hrun (hcame new hnew)) htasks
    · rw [htasks'] at htask
      refine Tasks.forall_update (fun new hnew identity uid heq ↦ ?_) hresolved j _ htask identity
        uid rfl
      exact (h.links identity uid ((hcame new hnew).resolved identity uid heq)).concat a
  | linked i identity uid links task hold hlink =>
    have hlinked := (h.linked hold).concat a
    have hnew : ∀ new ∈ task, new = .resolved identity uid := by
      rcases hold with ⟨-, rfl⟩ | ⟨-, rfl⟩
      · exact fun new hnew ↦ (Option.some.inj hnew).symm
      · exact fun new hnew ↦ nomatch hnew
    refine ⟨Tasks.forall_update (fun new h' ↦ hnew new h' ▸ hlinked.resolved) htasks,
      fun identity' uid' hget ↦ ?_, fun j identity' uid' htask ↦ ?_, hentries⟩
    · rw [Links.get_link hlink] at hget
      split at hget
      · rename_i heq
        obtain rfl := Option.some.inj hget
        exact heq ▸ hlinked
      · exact hlinks _ _ hget
    · refine Tasks.forall_update (fun new h' identity' uid' heq ↦ ?_) hresolved j _ htask _ _ rfl
      cases (hnew new h').symm.trans heq
      exact hlinked
  | created i userLimit now salt avatar profile name uid accounts links ha hold hcreate hlink =>
    obtain ⟨rfl, -⟩ := Accounts.users_createUser hcreate
    obtain rfl := ha
    have hcreated : LinkHistory ph toLowercase recover
        (as ++ [.run i (.created userLimit now salt avatar)]) profile.identity s.accounts.nextUid :=
      ⟨(htasks i _ hold).proved _ rfl,
        occurred_concat hrun (.created i userLimit now salt avatar profile name hold)⟩
    refine ⟨Tasks.forall_update (fun new h' ↦ Option.some.inj h' ▸ hcreated.resolved) htasks,
      fun identity' uid' hget ↦ ?_, fun j identity' uid' htask ↦ ?_, hentries⟩
    · rw [Links.get_link hlink] at hget
      split at hget
      · rename_i heq
        obtain rfl := Option.some.inj hget
        exact heq ▸ hcreated
      · exact hlinks _ _ hget
    · refine Tasks.forall_update (fun new h' identity' uid' heq ↦ ?_) hresolved j _ htask _ _ rfl
      cases (Option.some.inj h').trans heq
      exact hcreated
  | entered i identity uid user hold hlogin =>
    refine ⟨Tasks.forall_update (fun _ h' ↦ nomatch h') htasks, hlinks,
      fun j identity' uid' htask ↦ ?_, fun e he ↦ ?_⟩
    · exact Tasks.forall_update (fun _ h' ↦ nomatch h') hresolved j _ htask _ _ rfl
    · rcases List.mem_append.1 he with he | he
      · exact hentries e he
      · obtain rfl := List.mem_singleton.1 he
        exact hresolved i _ hold identity uid rfl

theorem runHistory (hrun : run (step ph toLowercase recover) start as = some s) :
    RunHistory ph toLowercase recover as s :=
  run_induction_history runHistory_start
    (fun _ _ _ _ hrun h hstep ↦ h.did hrun (LinkSystem.did hstep)) hrun

/-- **Where identities come from.** In any run, whoever has an identity as a user, or was let in
with it, has proved it to the server in that run; and the user was created for it, asked for one of
its kind himself, with his token, or had the e-mail address that Google or GitHub told of it, having
none if GitHub told none. -/
theorem linkHistory_of_run (hrun : run (step ph toLowercase recover) start as = some s)
    (h : s.links.get identity = some uid ∨ (identity, uid) ∈ s.entries) :
    Occurred (step ph toLowercase recover) (fun s a ↦ Proves toLowercase recover s a identity) start
        as ∧
      Occurred (step ph toLowercase recover) (fun s a ↦ s.Given a identity uid) start as := by
  have hhistory : LinkHistory ph toLowercase recover as identity uid := by
    rcases h with h | h
    · exact (runHistory hrun).links identity uid h
    · exact (runHistory hrun).entries _ h
  exact ⟨hhistory.proved, hhistory.given⟩

theorem linkHistory_of_run_twoFirstLogins :
    Occurred (step .transparent id fun _ _ ↦ none) (fun s a ↦ s.Given a (.github "ann") 1) start
      twoFirstLogins := by
  obtain ⟨s, hs, hget⟩ : ∃ s, run (step .transparent id fun _ _ ↦ none) start twoFirstLogins =
      some s ∧ s.links.get (.github "ann") = some 1 := ⟨_, rfl, rfl⟩
  exact (linkHistory_of_run hs (.inl hget)).2

end LinkSystem

end VoceChat
