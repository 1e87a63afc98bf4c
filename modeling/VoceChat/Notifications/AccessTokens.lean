import VoceChat.Notifications.Delivery

/-!
# The access tokens of a client (`crates/fcm/src/client.rs`)

The lock of a client is held by the task that asks for an access token, and by nobody otherwise
(`LockInv`). A task that gets it sends with the token that the client was given last, unless that is
about to expire (`requests_iff`).
-/

namespace VoceChat

open Transition

/-- The client that a task asks for an access token, with its lock. -/
def NotifyPhase.refreshing : NotifyPhase → Option ℕ
  | .sending c _ _ .refreshing => some c
  | _ => none

/-- The client of a task in the loop. -/
def NotifyPhase.client : NotifyPhase → Option ℕ
  | .looking c _ | .sending c _ _ _ => some c
  | .selected | .starting | .silent | .finished _ => none

theorem NotifyPhase.client_of_refreshing {phase : NotifyPhase} {c : ℕ}
    (h : phase.refreshing = some c) : phase.client = some c := by
  unfold NotifyPhase.refreshing at h
  split at h
  · exact h
  · cases h

namespace NotifySystem

variable {s t : NotifySystem} {a : NotifyAction} {task task' : NotifyTask} {c : ℕ}
  {token : String} {rest : List String}

/-! ### Access tokens -/

def refreshing (s : NotifySystem) (i : ℕ) : Option ℕ :=
  (s.tasks i).bind fun task ↦ task.phase.refreshing

/-- A client is given an access token. -/
def Takes (c : ℕ) (t : FcmToken) (s : NotifySystem) (a : NotifyAction) : Prop :=
  ∃ i task token rest accessToken expiresIn, a = .refreshed i (.ok (accessToken, expiresIn)) ∧
    s.tasks i = some task ∧ task.phase = .sending c token rest .refreshing ∧
    t = ⟨accessToken, expiresIn.map fun n ↦ s.now + n * second⟩

def TakesAny (c : ℕ) (s : NotifySystem) (a : NotifyAction) : Prop := ∃ t, Takes c t s a

def accessToken (s : NotifySystem) (c : ℕ) : Option FcmToken := s.clients[c]?.bind FcmClient.token

theorem accessToken_setFcm (s : NotifySystem) (enabled : Bool) (c : ℕ) :
    (s.setFcm enabled).accessToken c = s.accessToken c := by
  cases enabled with
  | false => rfl
  | true =>
    show (s.clients ++ [⟨none, none⟩])[c]?.bind FcmClient.token = _
    rw [accessToken, List.getElem?_append]
    split
    · rfl
    · rename_i hge
      -- a new client has no token, and no other client is there
      rw [List.getElem?_eq_none (Nat.le_of_not_lt hge), Option.bind_none]
      cases h : [(⟨none, none⟩ : FcmClient)][c - s.clients.length]? with
      | none => rfl
      | some client => rw [List.mem_singleton.1 (List.mem_of_getElem? h)]; rfl

theorem accessToken_restart (s : NotifySystem) (enabled : Bool) (c : ℕ) :
    (s.restart enabled).accessToken c = s.accessToken c := by
  rw [restart, accessToken_setFcm, accessToken, List.getElem?_map, Option.bind_map]
  rfl

theorem accessToken_setClient {c' : ℕ} {client : FcmClient} (hclient : s.clients[c']? = some client)
    (client' : FcmClient) (c : ℕ) : (s.setClient c' client').accessToken c =
      if c' = c then client'.token else s.accessToken c := by
  have hlt : c' < s.clients.length := (List.getElem?_eq_some_iff.1 hclient).1
  rw [accessToken, setClient, List.getElem?_set, if_pos hlt]
  split
  · rfl
  · rfl

theorem accessToken_of_did {x : FcmToken} (hdid : s.Did a t) :
    t.accessToken c = some x ↔ Takes c x s a ∨ s.accessToken c = some x ∧ ¬TakesAny c s a := by
  have hquiet (heq : t.accessToken c = s.accessToken c)
      (hother : ∀ i result, a ≠ .refreshed i (.ok result)) :
      t.accessToken c = some x ↔ Takes c x s a ∨ s.accessToken c = some x ∧ ¬TakesAny c s a := by
    have hnot (y : FcmToken) : ¬Takes c y s a := by
      rintro ⟨i, task, token, rest, accessToken, expiresIn, ha, -⟩
      exact hother i _ ha
    rw [heq, or_iff_right (hnot x), and_iff_left fun ⟨y, hy⟩ ↦ hnot y hy]
  have hsame {c' : ℕ} {client client' : FcmClient} (hclient : s.clients[c']? = some client)
      (htoken : client'.token = client.token) :
      (s.setClient c' client').accessToken c = s.accessToken c := by
    rw [accessToken_setClient hclient]
    split
    · rename_i heq
      rw [accessToken, ← heq, hclient]
      exact htoken
    · rfl
  cases hdid with
  | tick nanoseconds | changeCache cache | select hfree hmentions hn | records htask h hends =>
    exact hquiet rfl fun _ _ h ↦ by cases h
  | setFcm enabled => exact hquiet (accessToken_setFcm s enabled c) fun _ _ h ↦ by cases h
  | restart enabled => exact hquiet (accessToken_restart s enabled c) fun _ _ h ↦ by cases h
  | drops ha htask hphase =>
    refine hquiet rfl fun _ _ h ↦ ?_
    rcases ha with rfl | rfl <;> cases h
  | moves ha htask hmoves =>
    refine hquiet rfl fun _ _ h ↦ ?_
    rcases ha with rfl | ⟨result, rfl⟩ <;> cases h
  | locks htask hphase hclient hfree hexpired =>
    exact hquiet (hsame hclient rfl) fun _ _ h ↦ by cases h
  | fails htask hphase hclient error =>
    exact hquiet (hsame hclient rfl) fun _ _ h ↦ by cases h
  | @takes i task c' token rest client htask hphase hclient accessToken expiresIn =>
    -- which client is given a token, and which
    have htakes (c : ℕ) (y : FcmToken) :
        Takes c y s (.refreshed i (.ok (accessToken, expiresIn))) ↔
          c' = c ∧ ⟨accessToken, expiresIn.map fun n ↦ s.now + n * second⟩ = y := by
      constructor
      · rintro ⟨j, task', token', rest', accessToken', expiresIn', h, htask', hphase', rfl⟩
        cases h
        obtain rfl := Option.some.inj (htask.symm.trans htask')
        exact ⟨(NotifyPhase.sending.inj (hphase.symm.trans hphase')).1, rfl⟩
      · rintro ⟨rfl, rfl⟩
        exact ⟨i, task, token, rest, accessToken, expiresIn, rfl, htask, hphase, rfl⟩
    refine (Eq.congr_left (accessToken_setClient hclient _ c)).trans ?_
    simp only [TakesAny, htakes]
    split
    · rename_i heq
      rw [Option.some_inj]
      constructor
      · exact fun h ↦ .inl ⟨heq, h⟩
      · rintro (⟨-, h⟩ | ⟨-, hnot⟩)
        · exact h
        · exact absurd ⟨_, heq, rfl⟩ hnot
    · rename_i hne
      rw [or_iff_right fun h ↦ hne h.1, and_iff_left fun ⟨_, h, _⟩ ↦ hne h]

/-- The access token that a client was given last. -/
theorem accessToken_iff {now : ℤ} {as : List NotifyAction} {x : FcmToken}
    (hrun : run step (start now) as = some s) :
    s.accessToken c = some x ↔ Since step (Takes c x) (TakesAny c) (start now) as := by
  have h := holds_iff_since (P := Takes c x) (Q := TakesAny c) (fun _ ↦ True)
    (fun s : NotifySystem ↦ s.accessToken c = some x) (fun _ ↦ True) (fun _ ↦ True)
    (fun _ _ _ _ _ ↦ trivial)
    (fun s a t _ hstep ↦ (accessToken_of_did (did hstep)).trans (and_iff_right trivial).symm)
    (fun _ _ _ _ _ _ ↦ trivial) (fun _ _ _ _ _ _ _ ↦ trivial) trivial (fun h ↦ by cases h) hrun
  exact h.trans (and_iff_right trivial)

/-! ### The lock of a client -/

/-- A lock is held by the task that asks for an access token; clients that are referred to are
there. -/
structure LockInv (s : NotifySystem) : Prop where
  held : ∀ c client, s.clients[c]? = some client →
    ∀ i, client.holder = some i ↔ s.refreshing i = some c
  known : ∀ i task c, s.tasks i = some task → task.phase.client = some c → c < s.clients.length
  fcm : ∀ c, s.fcm = some c → c < s.clients.length

theorem refreshing_update {i : ℕ} {new : Option NotifyTask}
    (htasks : t.tasks = Function.update s.tasks i new) (j : ℕ) :
    t.refreshing j = if j = i then new.bind fun task ↦ task.phase.refreshing
      else s.refreshing j := by
  rw [refreshing, htasks, Function.update_apply]
  split <;> rfl

theorem Moves.not_refreshing (h : s.Moves task task') :
    task.phase.refreshing = none ∧ task'.phase.refreshing = none := by
  cases h with
  | spawn h | silent h | begins h hfcm | ends h | passesOver h hin | looks h hin | stops h hlate
  | waits h | requests h hclient hfree ht hexpired | answered h result =>
    rw [h]
    exact ⟨rfl, rfl⟩

theorem Moves.client_of_some (h : s.Moves task task') (hc : task'.phase.client = some c) :
    task.phase.client = some c ∨ s.fcm = some c := by
  cases h with
  | spawn h | silent h | ends h | stops h hlate => cases hc
  | begins h hfcm => exact .inr (hfcm.trans hc)
  | passesOver h hin | looks h hin | waits h | requests h hclient hfree ht hexpired
  | answered h result =>
    rw [h]
    exact .inl hc

/-- Tasks that have no lock change. -/
theorem LockInv.setTask {i : ℕ} {new : Option NotifyTask} (h : s.LockInv)
    (htasks : t.tasks = Function.update s.tasks i new) (hclients : t.clients = s.clients)
    (hfcm : t.fcm = s.fcm) (hold : s.refreshing i = none)
    (hnew : ∀ task ∈ new, task.phase.refreshing = none ∧
      ∀ c, task.phase.client = some c → c < s.clients.length) : t.LockInv where
  held c client hclient j := by
    rw [hclients] at hclient
    rw [h.held c client hclient, refreshing_update htasks]
    split
    · rename_i hij
      rw [hij, hold]
      cases new with
      | none => rfl
      | some task => rw [Option.bind_some, (hnew task rfl).1]
    · rfl
  known j task c htask hc := by
    rw [hclients]
    rw [htasks] at htask
    exact Tasks.forall_update (P := fun _ (task : NotifyTask) ↦
      ∀ c, task.phase.client = some c → c < s.clients.length) (fun task htask ↦ (hnew task htask).2)
      (fun j old hold c ↦ h.known j old c hold) j task htask c hc
  fcm c hc := by
    rw [hclients]
    exact h.fcm c (hfcm ▸ hc)

theorem refreshing_eq {i : ℕ} (htask : s.tasks i = some task) :
    s.refreshing i = task.phase.refreshing := by
  rw [refreshing, htask, Option.bind_some]

/-- A task takes a lock, or lets go of it. -/
theorem LockInv.setClient {i : ℕ} {client client' : FcmClient} {new : NotifyTask} (h : s.LockInv)
    (hclient : s.clients[c]? = some client) (htask : s.tasks i = some task)
    (hwas : ∀ c', task.phase.refreshing = some c' → c' = c)
    (hnow : ∀ c', new.phase.refreshing = some c' → c' = c)
    (hsame : new.phase.client = task.phase.client)
    (hholder : ∀ j, client'.holder = some j ↔
      (if j = i then new.phase.refreshing else s.refreshing j) = some c) :
    ((s.setClient c client').setTask i (some new)).LockInv where
  held c' cl hcl j := by
    have hlt : c < s.clients.length := (List.getElem?_eq_some_iff.1 hclient).1
    rw [refreshing_update (s := s) rfl, Option.bind_some]
    replace hcl : (s.clients.set c client')[c']? = some cl := hcl
    rw [List.getElem?_set, if_pos hlt] at hcl
    split at hcl
    · rename_i heq
      obtain rfl := Option.some.inj hcl
      exact heq ▸ hholder j
    · rename_i hne
      rw [h.held c' cl hcl]
      split
      · rename_i hij
        rw [hij, refreshing_eq htask]
        exact iff_of_false (fun h ↦ hne (hwas c' h).symm) fun h ↦ hne (hnow c' h).symm
      · rfl
  known j task' c' htask' hc := by
    show c' < (s.clients.set c client').length
    rw [List.length_set]
    refine Tasks.forall_update (P := fun _ (task : NotifyTask) ↦
      ∀ c, task.phase.client = some c → c < s.clients.length) (fun task' htask' c hc ↦ ?_)
      (fun j old hold c ↦ h.known j old c hold) j task' htask' c' hc
    obtain rfl := Option.some.inj htask'
    exact h.known i task c htask (hsame ▸ hc)
  fcm c' hc := by
    show c' < (s.clients.set c client').length
    rw [List.length_set]
    exact h.fcm c' hc

/-- A task lets go of the lock of its client. -/
theorem LockInv.release {i : ℕ} {client : FcmClient} {x : Option FcmToken} {phase : TokenPhase}
    (h : s.LockInv) (hclient : s.clients[c]? = some client) (htask : s.tasks i = some task)
    (hphase : task.phase = .sending c token rest .refreshing) (hne : phase ≠ .refreshing) :
    ((s.setClient c ⟨x, none⟩).setTask i
      (some { task with phase := .sending c token rest phase })).LockInv := by
  have hnone : (NotifyPhase.sending c token rest phase).refreshing = none := by
    cases phase with
    | refreshing => exact absurd rfl hne
    | looked | waiting | requesting accessToken | noAccess error | answered result => rfl
  refine h.setClient hclient htask (fun c' hc ↦ ?_) (fun c' hc ↦ ?_) ?_ fun j ↦ ?_
  · rw [hphase] at hc
    exact (Option.some.inj hc).symm
  · rw [hnone] at hc
    cases hc
  · rw [hphase]
    rfl
  · refine iff_of_false (fun h ↦ by cases h) ?_
    split
    · rw [hnone]
      exact fun h ↦ by cases h
    · rename_i hij
      -- it was this task that had the lock
      rw [← h.held c client hclient j]
      have hi : client.holder = some i := by
        rw [h.held c client hclient, refreshing_eq htask, hphase]
        rfl
      rw [hi]
      exact fun h ↦ hij (Option.some.inj h).symm

theorem LockInv.setFcm (h : s.LockInv) (enabled : Bool) : (s.setFcm enabled).LockInv := by
  cases enabled with
  | false => exact ⟨h.held, h.known, fun _ hc ↦ by cases hc⟩
  | true =>
    have hlength : (s.clients ++ [(⟨none, none⟩ : FcmClient)]).length = s.clients.length + 1 :=
      List.length_append
    refine ⟨fun c client hclient i ↦ ?_, fun i task c htask hc ↦ ?_, fun c hc ↦ ?_⟩
    · replace hclient : (s.clients ++ [⟨none, none⟩])[c]? = some client := hclient
      rw [List.getElem?_append] at hclient
      split at hclient
      · exact h.held c client hclient i
      · rename_i hge
        -- nobody knows the new client yet
        rw [List.mem_singleton.1 (List.mem_of_getElem? hclient)]
        refine iff_of_false (fun h ↦ by cases h) fun hi ↦ hge ?_
        obtain ⟨task, htask, hc⟩ := Option.bind_eq_some_iff.1 hi
        exact h.known i task c htask (NotifyPhase.client_of_refreshing hc)
    · exact ((h.known i task c htask hc).trans (Nat.lt_succ_self _)).trans_eq hlength.symm
    · obtain rfl := Option.some.inj hc
      exact (Nat.lt_succ_self _).trans_eq hlength.symm

theorem LockInv.restart (h : s.LockInv) (enabled : Bool) : (s.restart enabled).LockInv := by
  refine LockInv.setFcm ⟨fun c client hclient i ↦ ?_, fun i task c htask ↦ (by cases htask),
    fun c hc ↦ ?_⟩ enabled
  · rw [List.getElem?_map] at hclient
    obtain ⟨client, -, rfl⟩ := Option.map_eq_some_iff.1 hclient
    exact iff_of_false (fun h ↦ by cases h) fun h ↦ by cases h
  · exact (h.fcm c hc).trans_eq (List.length_map _).symm

theorem lockInv_of_did (h : s.LockInv) (hdid : s.Did a t) : t.LockInv := by
  cases hdid with
  | tick nanoseconds | changeCache cache => exact ⟨h.held, h.known, h.fcm⟩
  | setFcm enabled => exact h.setFcm enabled
  | restart enabled => exact h.restart enabled
  | @select i serverId mentions payload n hfree hmentions hn =>
    refine h.setTask rfl rfl rfl (by rw [refreshing, hfree, Option.bind_none]) fun task htask ↦ ?_
    obtain rfl := Option.some.inj htask
    exact ⟨rfl, fun c hc ↦ by cases hc⟩
  | @drops i task _ ha htask hphase =>
    refine h.setTask rfl rfl rfl ?_ fun _ h ↦ by cases h
    rw [refreshing_eq htask, hphase]
    rfl
  | @moves i task task' _ ha htask hmoves =>
    refine h.setTask rfl rfl rfl ((refreshing_eq htask).trans hmoves.not_refreshing.1) ?_
    intro new hnew
    obtain rfl := Option.some.inj hnew
    refine ⟨hmoves.not_refreshing.2, fun c hc ↦ ?_⟩
    exact (hmoves.client_of_some hc).elim (h.known i task c htask) (h.fcm c)
  | @locks i task c token rest client htask hphase hclient hfree hexpired =>
    refine h.setClient hclient htask (fun c' hc ↦ ?_) (fun c' hc ↦ (Option.some.inj hc).symm) ?_
      fun j ↦ ?_
    · rw [hphase] at hc
      cases hc
    · rw [hphase]
      rfl
    · split
      · rename_i hij
        exact iff_of_true (congrArg some hij.symm) rfl
      · rename_i hij
        rw [← h.held c client hclient j, hfree]
        exact iff_of_false (fun h ↦ hij (Option.some.inj h).symm) fun h ↦ by cases h
  | @takes i task c token rest client htask hphase hclient accessToken expiresIn =>
    exact h.release hclient htask hphase fun h ↦ by cases h
  | @fails i task c token rest client htask hphase hclient error =>
    exact h.release hclient htask hphase fun h ↦ by cases h
  | @records i task c token rest phase error handling htask hphase hends =>
    refine h.setTask rfl rfl rfl ?_ fun new hnew ↦ ?_
    · rw [refreshing_eq htask, hphase]
      cases hends <;> rfl
    · obtain rfl := Option.some.inj hnew
      exact ⟨rfl, fun c' hc ↦ h.known i task c' htask (by rw [hphase]; exact hc)⟩

/-! ### The access token that is sent -/

variable {now : ℤ} {as : List NotifyAction} {i : ℕ}

theorem lockInv_of_run (hrun : run step (start now) as = some s) : s.LockInv := by
  refine run_induction (fun _ _ _ h hstep ↦ lockInv_of_did h (did hstep)) ?_ hrun
  exact ⟨fun _ _ h ↦ (by cases h), fun _ _ _ h ↦ (by cases h), fun _ h ↦ by cases h⟩

theorem LockInv.free_iff {client : FcmClient} (h : s.LockInv)
    (hclient : s.clients[c]? = some client) :
    client.holder = none ↔ ∀ j, s.refreshing j ≠ some c := by
  rw [Option.eq_none_iff_forall_ne_some]
  exact forall_congr' fun j ↦ not_congr (h.held c client hclient j)

/-- What a task does with the lock. -/
theorem lockToken_spec (s : NotifySystem) (i : ℕ) (task : NotifyTask) (token : String)
    (rest : List String) (client : FcmClient) :
    (∀ accessToken, (s.lockToken i task c token rest client).tasks i = some { task with
        phase := .sending c token rest (.requesting accessToken)
        requested := task.requested ++ [(token, accessToken)] } ↔
      ∃ x, client.token = some x ∧ x.hasExpired s.now = false ∧ x.accessToken = accessToken) ∧
    ((s.lockToken i task c token rest client).refreshing i = some c ↔
      ∀ x, client.token = some x → x.hasExpired s.now = true) := by
  rw [lockToken]
  cases hx : client.token.filter fun t ↦ !t.hasExpired s.now with
  | some x =>
    obtain ⟨hx, hexpired⟩ := Option.filter_eq_some_iff.1 hx
    rw [Bool.not_eq_true'] at hexpired
    refine ⟨fun accessToken ↦ ?_, ?_⟩
    · rw [tasks_setTask, Function.update_self]
      constructor
      · intro h
        have hphase := congrArg NotifyTask.phase (Option.some.inj h)
        obtain ⟨-, -, -, hsame⟩ := NotifyPhase.sending.inj hphase
        exact ⟨x, hx, hexpired, TokenPhase.requesting.inj hsame⟩
      · rintro ⟨y, hy, -, rfl⟩
        obtain rfl := Option.some.inj (hx.symm.trans hy)
        rfl
    · rw [refreshing_update (tasks_setTask s i _), if_pos rfl]
      exact iff_of_false (fun h ↦ by cases h)
        fun h ↦ Bool.false_ne_true (hexpired.symm.trans (h x hx))
  | none =>
    have hexpired (x : FcmToken) (h : client.token = some x) : x.hasExpired s.now = true := by
      rw [h] at hx
      simpa using hx
    refine ⟨fun accessToken ↦ iff_of_false (fun h ↦ ?_) ?_, iff_of_true ?_ hexpired⟩
    · rw [tasks_setTask, Function.update_self] at h
      cases congrArg NotifyTask.phase (Option.some.inj h)
    · rintro ⟨x, h, hnot, -⟩
      exact Bool.false_ne_true (hnot.symm.trans (hexpired x h))
    · rw [refreshing_update (s := s) rfl, if_pos rfl]
      rfl

/-- **Which access token is sent**: the last that the client was given, if it is not expired, and
otherwise another is asked for. The task does neither as long as another task of the client asks
for one. -/
theorem requests_iff (hrun : run step (start now) as = some s) (htask : s.tasks i = some task)
    (hphase : task.phase = .sending c token rest .waiting) :
    ((∃ u, s.step (.go i) = some u) ↔ ∀ j, s.refreshing j ≠ some c) ∧
    ∀ u, s.step (.go i) = some u →
      (∀ accessToken, u.tasks i = some { task with
          phase := .sending c token rest (.requesting accessToken)
          requested := task.requested ++ [(token, accessToken)] } ↔
        ∃ x, Since step (Takes c x) (TakesAny c) (start now) as ∧ x.hasExpired s.now = false ∧
          x.accessToken = accessToken) ∧
      (u.refreshing i = some c ↔
        ∀ x, Since step (Takes c x) (TakesAny c) (start now) as → x.hasExpired s.now = true) := by
  have hinv := lockInv_of_run hrun
  have hlt : c < s.clients.length := hinv.known i task c htask (by rw [hphase]; rfl)
  have hclient : s.clients[c]? = some s.clients[c] := List.getElem?_eq_getElem hlt
  have htoken : s.accessToken c = s.clients[c].token := by
    rw [accessToken, hclient, Option.bind_some]
  simp only [← accessToken_iff hrun, htoken, step_go htask, advance_waiting hphase, hclient,
    Option.bind_some, ← hinv.free_iff hclient]
  constructor
  · constructor
    · rintro ⟨u, hu⟩
      by_contra hheld
      rw [if_neg hheld] at hu
      cases hu
    · exact fun hfree ↦ ⟨_, if_pos hfree⟩
  · intro u hu
    split at hu
    · obtain rfl := Option.some.inj hu
      exact lockToken_spec s i task token rest s.clients[c]
    · cases hu

/-- An access token for Bob's phone. -/
def tokenTaken : List NotifyAction :=
  [.changeCache onePhone, .setFcm true, .select 0 "srv" [] annToBob, .go 0, .go 0, .go 0, .go 0,
    .go 0, .refreshed 0 (.ok ("secret", some 3600))]

theorem requests_iff_tokenTaken : ∃ s u task, run step (start 0) tokenTaken = some s ∧
    s.tasks 0 = some task ∧ s.step (.go 0) = some u ∧
    ∃ x, Since step (Takes 0 x) (TakesAny 0) (start 0) tokenTaken ∧ x.hasExpired s.now = false ∧
      x.accessToken = "secret" := by
  obtain ⟨s, u, task, hrun, htask, hphase, hstep, hsent⟩ : ∃ s u task,
      run step (start 0) tokenTaken = some s ∧ s.tasks 0 = some task ∧
      task.phase = .sending 0 "tok" [] .waiting ∧ s.step (.go 0) = some u ∧
      u.tasks 0 = some { task with
        phase := .sending 0 "tok" [] (.requesting "secret")
        requested := task.requested ++ [("tok", "secret")] } :=
    ⟨_, _, _, rfl, rfl, rfl, rfl, rfl⟩
  exact ⟨s, u, task, hrun, htask, hstep,
    (((requests_iff hrun htask hphase).2 u hstep).1 "secret").1 hsent⟩

end NotifySystem

end VoceChat
