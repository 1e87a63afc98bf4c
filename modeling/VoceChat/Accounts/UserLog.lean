import VoceChat.Accounts.Users
import VoceChat.Foundations.Replay

/-!
# The log of the users (`fetch_user_log` in `src/api/user.rs`)

A client starts from a snapshot of the users, which comes with the id of the last entry of
`user_log`, and follows it by applying the entries after that id. The snapshot and the log have the
fields of `UserInfo` in common; guests are in neither.

Every request writes to the log what it does to the snapshot, with one exception: `update_user` logs
a change of gender or language only when both are given, or a name is
(`UpdateUserInfoRequest.isLogged`: `||` binds weaker than `&&`). A replica misses such a change, and
nothing later makes up for it. So replicas stay in sync all along a run exactly when every update is
logged or changes nothing (`replicas_inSync_iff`).
-/

namespace VoceChat

open Guards

/-! ### Snapshots and replicas -/

/-- What the snapshot and the log have in common of a user. -/
structure UserInfo where
  email : Option String
  name : String
  gender : ℤ
  language : String
  isAdmin : Bool
  isBot : Bool
  avatarUpdatedAt : ℤ
  deriving DecidableEq

/-- `api_user_info`, without what the log does not carry. -/
def Accounts.CacheUser.info (user : Accounts.CacheUser) : UserInfo where
  email := user.email
  name := user.name
  gender := user.gender
  language := user.language
  isAdmin := user.isAdmin
  isBot := user.isBot
  avatarUpdatedAt := user.avatarUpdatedAt

/-- The users as a client knows them. -/
abbrev Replica := ℤ → Option UserInfo

namespace Accounts

/-- The users of a snapshot: those that are no guests. -/
def snapshot (s : Accounts) : Replica := fun uid ↦
  (s.users.get uid).bind fun user ↦ if user.isGuest then none else some user.info

/-- The version of a snapshot: the id of the last entry, `0` while there is none. -/
def version (s : Accounts) : ℤ := (s.userLog.getLast?.map Prod.fst).getD 0

/-- `fetch_user_log`: the entries after a version. -/
def fetchUserLog (s : Accounts) (usersVersion : ℤ) : List (ℤ × UserLogEntry) :=
  s.userLog.filter fun e ↦ usersVersion < e.1

end Accounts

namespace UserLogEntry

/-- The user that an entry creates. -/
def created (e : UserLogEntry) : Option UserInfo := do
  let name ← e.name
  let gender ← e.gender
  let language ← e.language
  let isAdmin ← e.isAdmin
  let isBot ← e.isBot
  let avatarUpdatedAt ← e.avatarUpdatedAt
  return { email := e.email, name, gender, language, isAdmin, isBot, avatarUpdatedAt }

/-- A user after an update: the fields that the entry has are set. -/
def updated (e : UserLogEntry) (user : UserInfo) : UserInfo where
  email := e.email.or user.email
  name := e.name.getD user.name
  gender := e.gender.getD user.gender
  language := e.language.getD user.language
  isAdmin := e.isAdmin.getD user.isAdmin
  isBot := e.isBot.getD user.isBot
  avatarUpdatedAt := e.avatarUpdatedAt.getD user.avatarUpdatedAt

end UserLogEntry

/-- What a client does with an entry of the log. -/
def Replica.apply (r : Replica) (e : ℤ × UserLogEntry) : Replica :=
  Function.update r e.2.uid <|
    match e.2.action with
    | .create => e.2.created
    | .update => (r e.2.uid).map e.2.updated
    | .delete => none

/-! ### The requests -/

/-- The requests that create, change and delete users. -/
inductive AccountAction where
  | createUser (userLimit : ℕ) (now : ℤ) (salt : String) (req : CreateUser)
  | updateUser (token : CurrentUser) (req : UpdateUserInfoRequest)
  | uploadAvatar (token : CurrentUser) (now : ℤ)
  | adminUpdate (salt : String) (webhookOk : String → Bool) (token : CurrentUser) (uid : ℤ)
      (req : UpdateUserRequest)
  | adminUploadAvatar (token : CurrentUser) (uid now : ℤ)
  | adminDelete (token : CurrentUser) (uid : ℤ)
  | deleteCurrentUser (token : CurrentUser)

namespace Accounts

variable (ph : PasswordHashing)

/-- What a request answers. -/
def request (s : Accounts) : AccountAction → Except AccountError Accounts
  | .createUser userLimit now salt req => (s.createUser ph userLimit now salt req).map Prod.snd
  | .updateUser token req => s.updateUser token req
  | .uploadAvatar token now => s.uploadAvatar token now
  | .adminUpdate salt webhookOk token uid req => s.adminUpdate ph webhookOk salt token uid req
  | .adminUploadAvatar token uid now => s.adminUploadAvatar token uid now
  | .adminDelete token uid => s.adminDelete token uid
  | .deleteCurrentUser token => s.deleteCurrentUser token

/-- A request that is refused changes nothing. -/
def perform (s : Accounts) (a : AccountAction) : Accounts := (s.request ph a).toOption.getD s

/-- The users after some requests. -/
def after (as : List AccountAction) : Accounts := as.foldl (perform ph) start

/-- A replica that was taken from `s`, and follows the log since, has the users of `t`. -/
def ReplicaInSync (s t : Accounts) : Prop :=
  (t.fetchUserLog s.version).foldl Replica.apply s.snapshot = t.snapshot

/-- A user's own update is one that the log tells of, or that nobody can see. -/
def Told (s : Accounts) : AccountAction → Prop
  | .updateUser token req => token.isGuest = true ∨ req.isLogged = true ∨
      ∀ user ∈ s.users.get token.uid, user.isGuest = false → (req.updated user).info = user.info
  | _ => True

/-! ### What the requests keep -/

/-- Ids are handed out upwards. -/
structure Inv (s : Accounts) : Prop where
  uids : ∀ uid user, s.users.get uid = some user → uid < s.nextUid
  logIds : ∀ e ∈ s.userLog, 0 < e.1 ∧ e.1 < s.nextLogId
  ascending : s.userLog.Pairwise fun e f ↦ e.1 < f.1
  nextLogId : 0 < s.nextLogId

/-- What a request can do: put a user or take one away, and write what it did to the log or not. -/
inductive Wrote (s : Accounts) (a : AccountAction) : Accounts → Prop where
  | nothing : Wrote s a s
  | created (req : CreateUser) (now : ℤ) (password : Option String) (hguest : req.isGuest = false) :
    Wrote s a (writeLog { s.putUser s.nextUid (req.toUser now password) with
      nextUid := s.nextUid + 1 } (req.toEntry now s.nextUid))
  | createdGuest (req : CreateUser) (now : ℤ) (password : Option String)
      (hguest : req.isGuest = true) :
    Wrote s a { s.putUser s.nextUid (req.toUser now password) with nextUid := s.nextUid + 1 }
  | updated (uid : ℤ) (old new : CacheUser) (e : UserLogEntry) (hold : s.users.get uid = some old)
      (hguest : new.isGuest = old.isGuest) (huid : e.uid = uid) (haction : e.action = .update)
      (hinfo : e.updated old.info = new.info) : Wrote s a ((s.putUser uid new).writeLog e)
  | untold (token : CurrentUser) (req : UpdateUserInfoRequest) (user : CacheUser)
      (ha : a = .updateUser token req) (htoken : token.isGuest = false)
      (huser : s.users.get token.uid = some user) (hlogged : req.isLogged = false) :
    Wrote s a (s.putUser token.uid (req.updated user))
  | deleted (uid : ℤ) (user : CacheUser) (huser : s.users.get uid = some user)
      (hguest : user.isGuest = false) :
    Wrote s a (writeLog { s with users := s.users.erase uid } { action := .delete, uid := uid })
  | deletedGuest (uid : ℤ) (user : CacheUser) (huser : s.users.get uid = some user)
      (hguest : user.isGuest = true) : Wrote s a { s with users := s.users.erase uid }

variable {ph : PasswordHashing} {s t : Accounts} {a : AccountAction}

theorem wrote_setAvatar {uid now : ℤ} (h : s.setAvatar uid now = .ok t) : Wrote s a t := by
  obtain ⟨user, huser, rfl⟩ := setAvatar_eq_ok_iff.1 h
  exact .updated uid user _ _ huser rfl rfl rfl rfl

theorem wrote_deleteUser {uid : ℤ} (h : s.deleteUser uid = .ok t) : Wrote s a t := by
  obtain ⟨user, huser, rfl⟩ := deleteUser_eq_ok_iff.1 h
  cases hguest : user.isGuest with
  | true => exact .deletedGuest uid user huser hguest
  | false => exact .deleted uid user huser hguest

theorem wrote_of_request (h : s.request ph a = .ok t) : Wrote s a t := by
  cases a with
  | createUser userLimit now salt req =>
    obtain ⟨_, hcreate, rfl⟩ := map_eq_ok.1 h
    obtain ⟨password, -, -, -, -, rfl⟩ := createUser_eq_ok_iff.1 hcreate
    cases hguest : req.isGuest with
    | true => exact .createdGuest req now password hguest
    | false => exact .created req now password hguest
  | updateUser token req =>
    obtain ⟨htoken, -, -, user, huser, rfl⟩ := updateUser_eq_ok_iff.1 h
    cases hlogged : req.isLogged with
    | true => exact .updated token.uid user _ _ huser rfl rfl rfl rfl
    | false => exact .untold token req user rfl htoken huser hlogged
  | uploadAvatar token now =>
    simp only [request, uploadAvatar, ensure_eq_ok, bind_eq_ok, exists_unit] at h
    exact wrote_setAvatar h.2
  | adminUpdate salt webhookOk token uid req =>
    obtain ⟨-, -, password, -, -, -, -, user, huser, rfl⟩ := adminUpdate_eq_ok_iff.1 h
    exact .updated uid user _ _ huser rfl rfl rfl rfl
  | adminUploadAvatar token uid now =>
    simp only [request, adminUploadAvatar, ensure_eq_ok, bind_eq_ok, exists_unit] at h
    exact wrote_setAvatar h.2
  | adminDelete token uid =>
    simp only [request, adminDelete, ensure_eq_ok, bind_eq_ok, exists_unit] at h
    exact wrote_deleteUser h.2.2
  | deleteCurrentUser token => exact wrote_deleteUser h

/-- **What a request does.** -/
theorem wrote (s : Accounts) (a : AccountAction) : Wrote s a (s.perform ph a) := by
  rw [perform]
  cases h : s.request ph a with
  | error e => exact .nothing
  | ok t => exact wrote_of_request h

/-! ### The invariant -/

theorem inv_start : start.Inv where
  uids uid user h := by cases h
  logIds e he := absurd he List.not_mem_nil
  ascending := List.Pairwise.nil
  nextLogId := by decide

/-- An entry with the next id. -/
theorem Inv.writeLog (h : s.Inv) (e : UserLogEntry) : (s.writeLog e).Inv where
  uids := h.uids
  logIds f hf := by
    have hnext : (s.writeLog e).nextLogId = s.nextLogId + 1 := rfl
    have hpos := h.nextLogId
    rcases List.mem_append.1 hf with hf | hf
    · have := h.logIds f hf
      omega
    · obtain rfl := List.mem_singleton.1 hf
      exact ⟨hpos, by omega⟩
  ascending := by
    refine List.pairwise_append.2 ⟨h.ascending, List.pairwise_singleton _ _, fun f hf g hg ↦ ?_⟩
    obtain rfl := List.mem_singleton.1 hg
    exact (h.logIds f hf).2
  nextLogId := by
    have := h.nextLogId
    show 0 < s.nextLogId + 1
    omega

theorem Inv.putUser (h : s.Inv) {uid : ℤ} (huid : uid < s.nextUid) (user : CacheUser) :
    (s.putUser uid user).Inv where
  uids uid' user' hget := by
    rw [Accounts.putUser, OrderedMap.get_insert] at hget
    split at hget
    · rename_i heq
      exact heq ▸ huid
    · exact h.uids uid' user' hget
  logIds := h.logIds
  ascending := h.ascending
  nextLogId := h.nextLogId

theorem Inv.create (h : s.Inv) (user : CacheUser) :
    Inv { s.putUser s.nextUid user with nextUid := s.nextUid + 1 } where
  uids uid' user' hget := by
    show uid' < s.nextUid + 1
    rw [Accounts.putUser, OrderedMap.get_insert] at hget
    split at hget
    · rename_i heq
      omega
    · have := h.uids uid' user' hget
      omega
  logIds := h.logIds
  ascending := h.ascending
  nextLogId := h.nextLogId

theorem Inv.erase (h : s.Inv) (uid : ℤ) : Inv { s with users := s.users.erase uid } where
  uids uid' user' hget := by
    rw [OrderedMap.get_erase] at hget
    split at hget
    · cases hget
    · exact h.uids uid' user' hget
  logIds := h.logIds
  ascending := h.ascending
  nextLogId := h.nextLogId

theorem Wrote.inv (hw : Wrote s a t) (h : s.Inv) : t.Inv := by
  cases hw with
  | nothing => exact h
  | created req now password hguest => exact (h.create _).writeLog _
  | createdGuest req now password hguest => exact h.create _
  | updated uid old new e hold hguest huid haction hinfo =>
    exact (h.putUser (h.uids uid old hold) new).writeLog e
  | untold token req user ha htoken huser hlogged => exact h.putUser (h.uids _ user huser) _
  | deleted uid user huser hguest => exact (h.erase uid).writeLog _
  | deletedGuest uid user huser hguest => exact h.erase uid

theorem inv_after (as : List AccountAction) : (after ph as).Inv :=
  Transition.foldl_induction (fun s a h ↦ (s.wrote a).inv h) inv_start as

/-! ### Users that are there -/

/-- Ids of users are handed out upwards. -/
theorem Wrote.nextUid_le (h : Wrote s a t) : s.nextUid ≤ t.nextUid := by
  cases h with
  | nothing => exact le_rfl
  | created req now password hguest => exact (Int.lt_add_one_iff.2 le_rfl).le
  | createdGuest req now password hguest => exact (Int.lt_add_one_iff.2 le_rfl).le
  | updated uid old new e hold hguest huid haction hinfo => exact le_rfl
  | untold token req user ha htoken huser hlogged => exact le_rfl
  | deleted uid user huser hguest => exact le_rfl
  | deletedGuest uid user huser hguest => exact le_rfl

theorem isSome_get_insert {users : OrderedMap ℤ CacheUser} {uid uid' : ℤ} {user : CacheUser}
    (h : ((users.insert uid' user).get uid).isSome)
    (hself : uid = uid' → (users.get uid).isSome) : (users.get uid).isSome := by
  rw [OrderedMap.get_insert] at h
  split at h
  · rename_i huid
    exact hself huid
  · exact h

theorem isSome_get_erase {users : OrderedMap ℤ CacheUser} {uid uid' : ℤ}
    (h : ((users.erase uid').get uid).isSome) : (users.get uid).isSome := by
  rw [OrderedMap.get_erase] at h
  split at h
  · cases h
  · exact h

/-- A user with an id that was handed out before has been there before. -/
theorem Wrote.isSome_of_isSome (h : Wrote s a t) {uid : ℤ} (hlt : uid < s.nextUid)
    (huser : (t.users.get uid).isSome) : (s.users.get uid).isSome := by
  cases h with
  | nothing => exact huser
  | created req now password hguest =>
    exact isSome_get_insert huser fun heq ↦ absurd heq hlt.ne
  | createdGuest req now password hguest =>
    exact isSome_get_insert huser fun heq ↦ absurd heq hlt.ne
  | updated uid' old new e hold hguest huid haction hinfo =>
    exact isSome_get_insert huser fun heq ↦ by rw [heq, hold]; rfl
  | untold token req user ha htoken hold hlogged =>
    exact isSome_get_insert huser fun heq ↦ by rw [heq, hold]; rfl
  | deleted uid' user hold hguest => exact isSome_get_erase huser
  | deletedGuest uid' user hold hguest => exact isSome_get_erase huser

/-! ### The snapshot and the log -/

theorem snapshot_putUser (s : Accounts) (uid : ℤ) (user : CacheUser) :
    (s.putUser uid user).snapshot =
      Function.update s.snapshot uid (if user.isGuest then none else some user.info) := by
  funext uid'
  rw [snapshot, putUser, OrderedMap.get_insert, Function.update_apply]
  split <;> rfl

theorem snapshot_erase (s : Accounts) (uid : ℤ) :
    snapshot { s with users := s.users.erase uid } = Function.update s.snapshot uid none := by
  funext uid'
  rw [snapshot, OrderedMap.get_erase, Function.update_apply]
  split <;> rfl

theorem Wrote.userLog_grows (hw : Wrote s a t) : s.userLog <+: t.userLog := by
  cases hw with
  | nothing => exact List.prefix_rfl
  | createdGuest req now password hguest => exact List.prefix_rfl
  | untold token req user ha htoken huser hlogged => exact List.prefix_rfl
  | deletedGuest uid user huser hguest => exact List.prefix_rfl
  | created req now password hguest => exact List.prefix_append _ _
  | updated uid old new e hold hguest huid haction hinfo => exact List.prefix_append _ _
  | deleted uid user huser hguest => exact List.prefix_append _ _

/-- The users and their replicas. -/
def replication (ph : PasswordHashing) :
    Replay.System Accounts AccountAction (ℤ × UserLogEntry) Replica where
  step := perform ph
  log := userLog
  view := snapshot
  apply := Replica.apply
  log_prefix s a := (s.wrote a).userLog_grows

/-! ### Which requests are accounted for -/

/-- A step that writes one entry. -/
theorem inSync_writeLog {e : UserLogEntry} (hlog : t.userLog = s.userLog) :
    (replication ph).InSync s (t.writeLog e) ↔
      Replica.apply s.snapshot (t.nextLogId, e) = t.snapshot := by
  have hsince : (replication ph).since s (t.writeLog e) = [(t.nextLogId, e)] := by
    show (t.userLog ++ [(t.nextLogId, e)]).drop s.userLog.length = _
    rw [hlog, List.drop_left]
  rw [Replay.System.InSync, hsince]
  rfl

/-- A step that writes none. -/
theorem inSync_of_userLog_eq (hlog : t.userLog = s.userLog) :
    (replication ph).InSync s t ↔ s.snapshot = t.snapshot := by
  have hsince : (replication ph).since s t = [] := by
    show t.userLog.drop s.userLog.length = []
    rw [hlog, List.drop_length]
  rw [Replay.System.InSync, hsince]
  rfl

/-- An id that nobody in the snapshot has. -/
theorem update_snapshot_none {uid : ℤ} (h : ∀ user ∈ s.users.get uid, user.isGuest = true) :
    Function.update s.snapshot uid none = s.snapshot := by
  refine Function.update_eq_self_iff.2 ?_
  rw [snapshot]
  cases hget : s.users.get uid with
  | none => rfl
  | some user =>
    show none = if user.isGuest then none else some user.info
    rw [if_pos (h user hget)]

theorem get_nextUid (h : s.Inv) : s.users.get s.nextUid = none := by
  refine Option.eq_none_iff_forall_not_mem.2 fun user hget ↦ ?_
  exact absurd (h.uids s.nextUid user hget) (lt_irrefl _)

/-- An update that is not logged keeps the snapshot when it changes nothing in it. -/
theorem snapshot_putUser_updated {uid : ℤ} {user : CacheUser} (req : UpdateUserInfoRequest)
    (hget : s.users.get uid = some user) :
    s.snapshot = (s.putUser uid (req.updated user)).snapshot ↔
      (user.isGuest = false → (req.updated user).info = user.info) := by
  have hself : s.snapshot uid = if user.isGuest then none else some user.info := by
    rw [snapshot, hget]
    rfl
  rw [snapshot_putUser, eq_comm, Function.update_eq_self_iff, hself]
  show (if user.isGuest then none else some (req.updated user).info) = _ ↔ _
  cases user.isGuest with
  | true => exact iff_of_true rfl fun h ↦ by cases h
  | false => exact ⟨fun h _ ↦ Option.some.inj h, fun h ↦ congrArg some (h rfl)⟩

/-- The entry of a request says what the request does, except for what is not told. -/
theorem Wrote.inSync (hw : Wrote s a t) (h : s.Inv) (htold : Told s a) :
    (replication ph).InSync s t := by
  cases hw with
  | nothing => exact Replay.System.inSync_refl s
  | created req now password hguest =>
    refine (inSync_writeLog (by rfl)).2 ?_
    show _ = (s.putUser s.nextUid (req.toUser now password)).snapshot
    rw [snapshot_putUser, show (req.toUser now password).isGuest = false from hguest]
    rfl
  | createdGuest req now password hguest =>
    refine (inSync_of_userLog_eq (by rfl)).2 ?_
    show _ = (s.putUser s.nextUid (req.toUser now password)).snapshot
    rw [snapshot_putUser, show (req.toUser now password).isGuest = true from hguest]
    refine (update_snapshot_none fun user hget ↦ ?_).symm
    rw [get_nextUid h] at hget
    cases hget
  | updated uid old new e hold hguest huid haction hinfo =>
    refine (inSync_writeLog (by rfl)).2 ?_
    rw [snapshot_putUser, Replica.apply, haction, huid, snapshot, hold]
    show Function.update s.snapshot uid
      (Option.map e.updated (if old.isGuest then none else some old.info)) = _
    rw [hguest, ← hinfo]
    congr 1
    split <;> rfl
  | untold token req user ha htoken huser hlogged =>
    subst ha
    refine (inSync_of_userLog_eq (by rfl)).2 ((snapshot_putUser_updated req huser).2 ?_)
    rcases htold with hguest | hlog | hsame
    · rw [htoken] at hguest
      cases hguest
    · rw [hlogged] at hlog
      cases hlog
    · exact hsame user huser
  | deleted uid user huser hguest =>
    refine (inSync_writeLog (by rfl)).2 ?_
    rw [snapshot_erase]
    rfl
  | deletedGuest uid user huser hguest =>
    refine (inSync_of_userLog_eq (by rfl)).2 ?_
    rw [snapshot_erase]
    refine (update_snapshot_none fun user' hget ↦ ?_).symm
    obtain rfl := Option.some.inj (huser.symm.trans hget)
    exact hguest

/-- An update that is not logged is made, unless it is empty: the name is the only thing in it that
could be refused, and it has none. -/
theorem perform_updateUser_of_not_isLogged {token : CurrentUser} {req : UpdateUserInfoRequest}
    {user : CacheUser} (htoken : token.isGuest = false) (hlogged : req.isLogged = false)
    (hempty : req.isEmpty = false) (huser : s.users.get token.uid = some user) :
    s.perform ph (.updateUser token req) = s.putUser token.uid (req.updated user) := by
  have hname : req.name = none := by
    rw [UpdateUserInfoRequest.isLogged, Bool.or_eq_false_iff] at hlogged
    exact Option.isSome_eq_false_iff.1 hlogged.1 |> Option.isNone_iff_eq_none.1
  have hrequest : s.request ph (.updateUser token req) =
      .ok (s.putUser token.uid (req.updated user)) := by
    refine updateUser_eq_ok_iff.2 ⟨htoken, hempty, by rw [hname]; rfl, user, huser, ?_⟩
    rw [if_neg (by rw [hlogged]; exact Bool.false_ne_true)]
  rw [perform, hrequest]
  rfl

theorem told_of_accounted (h : (replication ph).Accounted s a) : Told s a := by
  cases a with
  | createUser => trivial
  | uploadAvatar => trivial
  | adminUpdate => trivial
  | adminUploadAvatar => trivial
  | adminDelete => trivial
  | deleteCurrentUser => trivial
  | updateUser token req =>
    cases htoken : token.isGuest with
    | true => exact Or.inl htoken
    | false =>
    cases hlogged : req.isLogged with
    | true => exact Or.inr (Or.inl hlogged)
    | false =>
    refine Or.inr (Or.inr fun user huser ↦ ?_)
    cases hempty : req.isEmpty with
    | true =>
      have hnone : req = ⟨none, none, none⟩ := by
        obtain ⟨name, gender, language⟩ := req
        simpa [UpdateUserInfoRequest.isEmpty, and_assoc] using hempty
      exact fun _ ↦ hnone ▸ rfl
    | false =>
      rw [Replay.System.Accounted] at h
      change (replication ph).InSync s (s.perform ph (.updateUser token req)) at h
      rw [perform_updateUser_of_not_isLogged htoken hlogged hempty huser,
        inSync_of_userLog_eq (by rfl)] at h
      exact (snapshot_putUser_updated req huser).1 h

/-- **A request is accounted for** exactly when it is told, or changes nothing to tell. -/
theorem accounted_iff (h : s.Inv) : (replication ph).Accounted s a ↔ Told s a :=
  ⟨told_of_accounted, (s.wrote a).inSync h⟩

/-! ### Fetching the log -/

/-- The version is the greatest id there is. -/
theorem le_version (h : s.Inv) {e : ℤ × UserLogEntry} (he : e ∈ s.userLog) : e.1 ≤ s.version := by
  rw [version]
  obtain hnil | ⟨es, last, hlast⟩ := List.eq_nil_or_concat s.userLog
  · rw [hnil] at he
    cases he
  · have hascending := h.ascending
    rw [List.concat_eq_append] at hlast
    rw [hlast, List.pairwise_append] at hascending
    rw [hlast] at he
    rw [hlast, List.getLast?_append_of_ne_nil _ (List.cons_ne_nil last [])]
    show e.1 ≤ last.1
    rcases List.mem_append.1 he with hinit | hfinal
    · exact le_of_lt (hascending.2.2 e hinit last (List.mem_singleton_self last))
    · obtain rfl := List.mem_singleton.1 hfinal
      exact le_rfl

/-- The version is an id in the log, or `0`. -/
theorem version_lt {b : ℤ} (hpos : 0 < b) (h : ∀ e ∈ s.userLog, e.1 < b) : s.version < b := by
  rw [version]
  cases hlast : s.userLog.getLast? with
  | none => exact hpos
  | some e => exact h e (List.mem_of_getLast? hlast)

/-- The entries after the version of an earlier state are those written since. -/
theorem fetchUserLog_version (hs : s.Inv) (ht : t.Inv) (hpre : s.userLog <+: t.userLog) :
    t.fetchUserLog s.version = (replication ph).since s t := by
  obtain ⟨es, hes⟩ := hpre
  have hsince : (replication ph).since s t = es := by
    show t.userLog.drop s.userLog.length = es
    rw [← hes, List.drop_left]
  have hascending := ht.ascending
  rw [← hes, List.pairwise_append] at hascending
  have hafter : ∀ e ∈ es, s.version < e.1 := fun e he ↦
    version_lt (ht.logIds e (hes ▸ List.mem_append_right _ he)).1
      fun f hf ↦ hascending.2.2 f hf e he
  have hbefore : s.userLog.filter (fun e ↦ s.version < e.1) = [] := by
    refine List.filter_eq_nil_iff.2 fun e he hlt ↦ ?_
    exact absurd (of_decide_eq_true hlt) (not_lt.2 (le_version hs he))
  rw [hsince, fetchUserLog, ← hes, List.filter_append, hbefore, List.nil_append]
  exact List.filter_eq_self.2 fun e he ↦ decide_eq_true (hafter e he)

/-- **Replicas of the users** are in sync all along a run, whatever went before, exactly when every
update that a user makes of its own profile is told of in the log: it gives a name, or both gender
and language, or changes nothing that can be seen. -/
theorem replicas_inSync_iff (ph : PasswordHashing) (as bs : List AccountAction) :
    (∀ cs, cs <+: bs → ReplicaInSync (after ph as) (after ph (as ++ cs))) ↔
      Transition.Along (Transition.total (perform ph)) Told (after ph as) bs := by
  have hinv : ∀ cs, (after ph cs).Inv := inv_after
  have hcongr : Transition.Along (Transition.total (perform ph)) (replication ph).Accounted
      (after ph as) bs ↔ Transition.Along (Transition.total (perform ph)) Told (after ph as) bs :=
    Transition.along_congr (I := Inv) (fun s a t hs ht ↦ Option.some.inj ht ▸ (s.wrote a).inv hs)
      (fun s a hs ↦ accounted_iff hs) (hinv as) bs
  rw [← hcongr]
  refine Iff.trans ?_ (Replay.System.inSync_iff (S := replication ph) _ bs)
  refine forall₂_congr fun cs hcs ↦ ?_
  have hafter : after ph (as ++ cs) = (replication ph).after (after ph as) cs :=
    List.foldl_append
  have hpre : (after ph as).userLog <+: (after ph (as ++ cs)).userLog :=
    hafter ▸ Replay.System.log_after (S := replication ph) _ cs
  have hsince : (after ph (as ++ cs)).fetchUserLog (after ph as).version =
      (replication ph).since (after ph as) (after ph (as ++ cs)) :=
    fetchUserLog_version (hinv as) (hinv _) hpre
  rw [ReplicaInSync, hsince, hafter]
  rfl

/-- A user registers, and then sets nothing but the gender: the log says nothing of it. -/
theorem not_forall_replicaInSync : ¬∀ (ph : PasswordHashing) (as bs : List AccountAction),
    ReplicaInSync (after ph as) (after ph (as ++ bs)) := by
  intro h
  have hsync := congrFun (h .transparent
    [.createUser 10 100 "s" { name := "a", isAdmin := false, createBy := .magicLink "a@x" }]
    [.updateUser ⟨1, "web", false, false⟩ ⟨none, some 1, none⟩]) 1
  revert hsync
  decide +kernel

end Accounts

end VoceChat
