import VoceChat.Notifications.System

/-!
# What becomes of a notification

Each task goes through the tokens of its message in their order (`handled_of_run`), which are those
of the users who are notified of it (`announced_of_run`).

A token is refused when the round with it ends with the status 400, and from then on no task tries
it, until the server is started again (`looks_iff`). It need not have been Firebase that answered
so: an answer with this status to the client, when it asks for an access token, counts against the
device for whose token it asked.
-/

namespace VoceChat

open Transition

/-! ### The tokens of a task -/

/-- The tokens that a task has not done with. -/
def NotifyTask.left (task : NotifyTask) : List String :=
  match task.phase with
  | .selected | .starting | .silent => task.notification.tokens
  | .looking _ rest => rest
  | .sending _ token rest _ => token :: rest
  | .finished left => left

/-- The token that Firebase was sent last, until the answer is dealt with. -/
def NotifyTask.underway (task : NotifyTask) : List String :=
  match task.phase with
  | .sending _ token _ (.requesting _) | .sending _ token _ (.answered _) => [token]
  | _ => []

theorem NotifyTask.underway_sublist (task : NotifyTask) : task.underway.Sublist task.left := by
  unfold underway
  split
  · rename_i hphase
    rw [left, hphase]
    exact List.singleton_sublist.2 List.mem_cons_self
  · rename_i hphase
    rw [left, hphase]
    exact List.singleton_sublist.2 List.mem_cons_self
  · exact List.nil_sublist _

def Handling.isAnswered : Handling → Bool
  | .answered _ => true
  | .passedOver | .noAccess _ => false

/-- A token that is not sent anything from then on. -/
def Handling.IsRefused : Handling → Prop
  | .passedOver => True
  | .noAccess error | .answered (.error error) => error = .badRequest
  | .answered (.ok _) => False

/-- What was done with the tokens so far, in their order. -/
structure NotifyTask.Accounts (task : NotifyTask) : Prop where
  tokens : task.notification.tokens = task.handled.map Prod.fst ++ task.left
  requested : task.requested.map Prod.fst =
    (task.handled.filter fun e ↦ e.2.isAnswered).map Prod.fst ++ task.underway

namespace NotifySystem

variable {s t : NotifySystem} {a : NotifyAction} {task task' : NotifyTask} {c : ℕ}
  {token : String} {rest : List String}

/-- What holds of a task in a state. -/
structure TaskInv (s : NotifySystem) (task : NotifyTask) : Prop where
  accounts : task.Accounts
  refused : ∀ e ∈ task.handled, e.2.IsRefused → e.1 ∈ s.invalidDeviceTokens
  finished : ∀ left, task.phase = .finished left → left = [] ∨ s.now - task.startedAt > 60 * second

theorem TaskInv.mono (h : s.TaskInv task) (hnow : s.now ≤ t.now)
    (hinvalid : ∀ x ∈ s.invalidDeviceTokens, x ∈ t.invalidDeviceTokens) : t.TaskInv task where
  accounts := h.accounts
  refused e he hrefused := hinvalid _ (h.refused e he hrefused)
  finished left hleft := (h.finished left hleft).imp_right fun hlate ↦ by omega

/-- The next token is done with. -/
theorem TaskInv.handle {handling : Handling} (h : s.TaskInv task)
    (hleft : task.left = token :: rest)
    (hunderway : task.underway = if handling.isAnswered then [token] else [])
    (hinvalid : ∀ x ∈ s.invalidDeviceTokens, x ∈ t.invalidDeviceTokens)
    (hrefused : handling.IsRefused → token ∈ t.invalidDeviceTokens) :
    t.TaskInv { task with
      phase := .looking c rest
      handled := task.handled ++ [(token, handling)] } where
  accounts := by
    constructor
    · show task.notification.tokens = (task.handled ++ [(token, handling)]).map Prod.fst ++ rest
      rw [h.accounts.tokens, hleft, List.map_append, List.append_assoc]
      rfl
    · show task.requested.map Prod.fst =
        ((task.handled ++ [(token, handling)]).filter fun e ↦ e.2.isAnswered).map Prod.fst ++ []
      rw [h.accounts.requested, hunderway, List.append_nil, List.filter_append, List.map_append]
      cases hanswered : handling.isAnswered <;> simp [hanswered]
  refused e he hr := by
    rcases List.mem_append.1 he with he | he
    · exact hinvalid _ (h.refused e he hr)
    · obtain rfl := List.mem_singleton.1 he
      exact hrefused hr
  finished left hphase := NotifyPhase.noConfusion hphase

/-- A move keeps what holds of the task. -/
theorem TaskInv.moves (h : s.TaskInv task) (hmoves : s.Moves task task') : s.TaskInv task' := by
  have htokens := h.accounts.tokens
  have hrequested := h.accounts.requested
  rw [NotifyTask.left] at htokens
  rw [NotifyTask.underway] at hrequested
  cases hmoves with
  | spawn hphase | silent hphase | begins hphase hfcm | looks hphase hin | waits hphase
  | answered hphase result =>
    rw [hphase] at htokens hrequested
    exact ⟨⟨htokens, hrequested⟩, h.refused, fun left hleft ↦ NotifyPhase.noConfusion hleft⟩
  | ends hphase =>
    rw [hphase] at htokens hrequested
    refine ⟨⟨htokens, hrequested⟩, h.refused, fun left hleft ↦ .inl ?_⟩
    exact (NotifyPhase.finished.inj hleft).symm
  | stops hphase hlate =>
    rw [hphase] at htokens hrequested
    exact ⟨⟨htokens, hrequested⟩, h.refused, fun _ _ ↦ .inr hlate⟩
  | @passesOver c token rest hphase hin =>
    have hleft : task.left = token :: rest := by rw [NotifyTask.left, hphase]
    have hunderway : task.underway = [] := by rw [NotifyTask.underway, hphase]
    exact h.handle hleft hunderway (fun _ hx ↦ hx) fun _ ↦ hin
  | @requests c token rest client t hphase hclient hfree ht hexpired =>
    rw [hphase] at htokens hrequested
    refine ⟨⟨htokens, ?_⟩, h.refused, fun left hleft ↦ NotifyPhase.noConfusion hleft⟩
    rw [List.append_nil] at hrequested
    show (task.requested ++ [(token, t.accessToken)]).map Prod.fst = _ ++ [token]
    rw [List.map_append, hrequested]
    rfl

/-- A task goes on with its token. -/
theorem TaskInv.resume {phase phase' : TokenPhase} (h : s.TaskInv task)
    (hphase : task.phase = .sending c token rest phase)
    (hunderway : ({ task with phase := .sending c token rest phase' } : NotifyTask).underway =
      ({ task with phase := .sending c token rest phase } : NotifyTask).underway) :
    s.TaskInv { task with phase := .sending c token rest phase' } where
  accounts := by
    have hsame : ({ task with phase := .sending c token rest phase } : NotifyTask) = task := by
      rw [← hphase]
    constructor
    · show task.notification.tokens = _ ++ token :: rest
      rw [h.accounts.tokens, NotifyTask.left, hphase]
    · rw [hunderway, hsame]
      exact h.accounts.requested
  refused := h.refused
  finished left hleft := NotifyPhase.noConfusion hleft

theorem mem_invalid_record {i : ℕ} {error : Option FcmError} {handling : Handling} {x : String} :
    x ∈ (s.record i task c token rest error handling).invalidDeviceTokens ↔
      error = some .badRequest ∧ x = token ∨ x ∈ s.invalidDeviceTokens := by
  show x ∈ (if error = some FcmError.badRequest then s.invalidDeviceTokens.insert token
    else s.invalidDeviceTokens) ↔ _
  split
  · rename_i hbad
    rw [List.mem_insert_iff]
    exact or_congr_left (and_iff_right hbad).symm
  · rename_i hnot
    exact (or_iff_right fun h ↦ hnot h.1).symm

theorem Ends.eq_badRequest {phase : TokenPhase} {error : Option FcmError} {handling : Handling}
    (h : Ends phase error handling) (hrefused : handling.IsRefused) : error = some .badRequest := by
  cases h with
  | noAccess error => exact congrArg some hrefused
  | refused error => exact congrArg some hrefused
  | sent => exact hrefused.elim

/-- What holds of all tasks. -/
def TasksInv (s : NotifySystem) : Prop := ∀ i task, s.tasks i = some task → s.TaskInv task

theorem TasksInv.setTask {i : ℕ} {new : Option NotifyTask} (h : s.TasksInv)
    (hnow : t.now = s.now) (htasks : t.tasks = Function.update s.tasks i new)
    (hinvalid : ∀ x ∈ s.invalidDeviceTokens, x ∈ t.invalidDeviceTokens)
    (hnew : ∀ task ∈ new, t.TaskInv task) : t.TasksInv := by
  intro j task htask
  rw [htasks] at htask
  exact Tasks.forall_update (P := fun _ task ↦ t.TaskInv task) hnew
    (fun j old hold ↦ (h j old hold).mono hnow.ge hinvalid) j task htask

theorem tasksInv_of_did (h : s.TasksInv) (hdid : s.Did a t) : t.TasksInv := by
  cases hdid with
  | tick nanoseconds =>
    exact fun i task htask ↦ (h i task htask).mono
      (Int.le_add_of_nonneg_right (Int.natCast_nonneg _)) fun _ hx ↦ hx
  | changeCache cache => exact fun i task htask ↦ (h i task htask).mono le_rfl fun _ hx ↦ hx
  | setFcm enabled =>
    intro i task htask
    cases enabled with
    | true => exact (h i task htask).mono le_rfl fun _ hx ↦ hx
    | false => exact (h i task htask).mono le_rfl fun _ hx ↦ hx
  | restart enabled =>
    intro i task htask
    cases enabled with
    | true => cases htask
    | false => cases htask
  | @select i serverId mentions payload n hfree hmentions hn =>
    refine h.setTask rfl rfl (fun _ hx ↦ hx) fun task htask ↦ ?_
    obtain rfl := Option.some.inj htask
    exact ⟨⟨rfl, rfl⟩, fun e he ↦ absurd he List.not_mem_nil,
      fun left hleft ↦ NotifyPhase.noConfusion hleft⟩
  | drops ha htask hphase =>
    exact h.setTask rfl rfl (fun _ hx ↦ hx) fun task htask ↦ by cases htask
  | @moves i task task' _ ha htask hmoves =>
    refine h.setTask rfl rfl (fun _ hx ↦ hx) fun new hnew ↦ ?_
    obtain rfl := Option.some.inj hnew
    exact ((h i task htask).moves hmoves).mono le_rfl fun _ hx ↦ hx
  | @locks i task c token rest client htask hphase hclient hfree hexpired =>
    refine h.setTask rfl rfl (fun _ hx ↦ hx) fun new hnew ↦ ?_
    obtain rfl := Option.some.inj hnew
    refine TaskInv.mono ((h i task htask).resume hphase ?_) le_rfl fun _ hx ↦ hx
    rfl
  | @takes i task c token rest client htask hphase hclient accessToken expiresIn =>
    refine h.setTask rfl rfl (fun _ hx ↦ hx) fun new hnew ↦ ?_
    obtain rfl := Option.some.inj hnew
    refine TaskInv.mono ((h i task htask).resume hphase ?_) le_rfl fun _ hx ↦ hx
    rfl
  | @fails i task c token rest client htask hphase hclient error =>
    refine h.setTask rfl rfl (fun _ hx ↦ hx) fun new hnew ↦ ?_
    obtain rfl := Option.some.inj hnew
    refine TaskInv.mono ((h i task htask).resume hphase ?_) le_rfl fun _ hx ↦ hx
    rfl
  | @records i task c token rest phase error handling htask hphase hends =>
    have hinvalid : ∀ x ∈ s.invalidDeviceTokens,
        x ∈ (s.record i task c token rest error handling).invalidDeviceTokens := fun x hx ↦ by
      rw [mem_invalid_record]
      exact .inr hx
    refine h.setTask rfl rfl hinvalid fun new hnew ↦ ?_
    obtain rfl := Option.some.inj hnew
    have hleft : task.left = token :: rest := by rw [NotifyTask.left, hphase]
    refine (h i task htask).handle hleft ?_ hinvalid fun hrefused ↦ ?_
    · rw [NotifyTask.underway, hphase]
      cases hends <;> rfl
    · rw [mem_invalid_record]
      exact .inl ⟨hends.eq_badRequest hrefused, rfl⟩

/-! ### Where it comes from -/

/-- A message is sent, of which this is the notification. -/
def Selects (i : ℕ) (n : Notification) (s : NotifySystem) (a : NotifyAction) : Prop :=
  ∃ serverId mentions payload, a = .select i serverId mentions payload ∧
    mentions.Perm payload.detail.mentions.dedup ∧
    s.cache.notification serverId s.now mentions payload = some n

theorem Moves.notification_eq (h : s.Moves task task') :
    task'.notification = task.notification := by
  cases h <;> rfl

theorem selects_of_did {i : ℕ} (hdid : s.Did a t) (htask : t.tasks i = some task) :
    Selects i task.notification s a ∨
      ∃ old, s.tasks i = some old ∧ old.notification = task.notification := by
  -- the notification of the task that was put is that of the one before
  have hput {j : ℕ} {old : NotifyTask} {new : Option NotifyTask} (hold : s.tasks j = some old)
      (h : Function.update s.tasks j new i = some task)
      (hnew : ∀ task ∈ new, task.notification = old.notification) :
      ∃ old, s.tasks i = some old ∧ old.notification = task.notification := by
    rw [Function.update_apply] at h
    split at h
    · rename_i hij
      exact ⟨old, hij ▸ hold, (hnew task h).symm⟩
    · exact ⟨task, h, rfl⟩
  have hsame {old task : NotifyTask} {new : NotifyTask} (h : new.notification = old.notification)
      (htask : task ∈ some new) : task.notification = old.notification := by
    obtain rfl := Option.some.inj htask
    exact h
  cases hdid with
  | tick nanoseconds | changeCache cache => exact .inr ⟨task, htask, rfl⟩
  | setFcm enabled => cases enabled <;> exact .inr ⟨task, htask, rfl⟩
  | restart enabled => cases enabled <;> cases htask
  | @select j serverId mentions payload n hfree hmentions hn =>
    have hupdate : Function.update s.tasks j (some _) i = some task := htask
    rw [Function.update_apply] at hupdate
    split at hupdate
    · rename_i hij
      obtain rfl := Option.some.inj hupdate
      exact .inl ⟨serverId, mentions, payload, by rw [hij], hmentions, hn⟩
    · exact .inr ⟨task, hupdate, rfl⟩
  | drops ha hold hphase => exact .inr (hput hold htask fun _ h ↦ by cases h)
  | moves ha hold hmoves => exact .inr (hput hold htask fun _ ↦ hsame hmoves.notification_eq)
  | locks hold hphase hclient hfree hexpired => exact .inr (hput hold htask fun _ ↦ hsame rfl)
  | takes hold hphase hclient accessToken expiresIn =>
    exact .inr (hput hold htask fun _ ↦ hsame rfl)
  | fails hold hphase hclient error => exact .inr (hput hold htask fun _ ↦ hsame rfl)
  | records hold hphase hends => exact .inr (hput hold htask fun _ ↦ hsame rfl)

theorem selects_of_run {now : ℤ} {as : List NotifyAction} {i : ℕ}
    (hrun : run step (start now) as = some s) (htask : s.tasks i = some task) :
    Occurred step (Selects i task.notification) (start now) as := by
  refine run_induction_history (I := fun as s ↦ ∀ i task, s.tasks i = some task →
    Occurred step (Selects i task.notification) (start now) as) (fun i task h ↦ by cases h) ?_
    hrun i task htask
  intro as s a t hrun ih hstep i task htask
  rcases selects_of_did (did hstep) htask with hselects | ⟨old, hold, heq⟩
  · exact occurred_concat hrun hselects
  · exact heq ▸ (ih i old hold).concat a

/-! ### Refused tokens -/

/-- A task ends a round with a token for which it got an answer with the status 400. -/
def Refuses (token : String) (s : NotifySystem) (a : NotifyAction) : Prop :=
  ∃ i task c rest phase handling, a = .go i ∧ s.tasks i = some task ∧
    task.phase = .sending c token rest phase ∧ Ends phase (some .badRequest) handling

def Restarts (_ : NotifySystem) (a : NotifyAction) : Prop := ∃ enabled, a = .restart enabled

theorem Moves.not_ends {phase : TokenPhase} {error : Option FcmError} {handling : Handling}
    (h : s.Moves task task') (hphase : task.phase = .sending c token rest phase) :
    ¬Ends phase error handling := by
  intro hends
  cases h with
  | spawn h | silent h | begins h hfcm | ends h | passesOver h hin | looks h hin =>
    exact NotifyPhase.noConfusion (h.symm.trans hphase)
  | stops h hlate =>
    obtain ⟨-, -, -, rfl⟩ := NotifyPhase.sending.inj (h.symm.trans hphase)
    cases hends
  | waits h =>
    obtain ⟨-, -, -, rfl⟩ := NotifyPhase.sending.inj (h.symm.trans hphase)
    cases hends
  | requests h hclient hfree ht hexpired =>
    obtain ⟨-, -, -, rfl⟩ := NotifyPhase.sending.inj (h.symm.trans hphase)
    cases hends
  | answered h result =>
    obtain ⟨-, -, -, rfl⟩ := NotifyPhase.sending.inj (h.symm.trans hphase)
    cases hends

theorem Ends.error_eq {phase : TokenPhase} {error error' : Option FcmError}
    {handling handling' : Handling} (h : Ends phase error handling)
    (h' : Ends phase error' handling') : error = error' := by
  cases h <;> cases h' <;> rfl

theorem mem_invalid_of_did {x : String} (hdid : s.Did a t) :
    x ∈ t.invalidDeviceTokens ↔
      Refuses x s a ∨ x ∈ s.invalidDeviceTokens ∧ ¬Restarts s a := by
  -- the steps that are neither a restart nor the end of a round
  have hquiet (heq : t.invalidDeviceTokens = s.invalidDeviceTokens)
      (hrestart : ∀ enabled, a ≠ .restart enabled)
      (hends : ∀ i task c rest phase handling, a = .go i → s.tasks i = some task →
        task.phase = .sending c x rest phase → ¬Ends phase (some .badRequest) handling) :
      x ∈ t.invalidDeviceTokens ↔ Refuses x s a ∨ x ∈ s.invalidDeviceTokens ∧ ¬Restarts s a := by
    have hnot : ¬Refuses x s a := by
      rintro ⟨i, task, c, rest, phase, handling, ha, htask, hphase, h⟩
      exact hends i task c rest phase handling ha htask hphase h
    have hstays : ¬Restarts s a := fun ⟨enabled, h⟩ ↦ hrestart enabled h
    rw [heq, or_iff_right hnot, and_iff_left hstays]
  cases hdid with
  | tick nanoseconds | changeCache cache | select hfree hmentions hn
  | takes htask h hclient accessToken expiresIn | fails htask h hclient error =>
    exact hquiet rfl (fun _ h ↦ by cases h) fun _ _ _ _ _ _ h ↦ by cases h
  | setFcm enabled =>
    exact hquiet (by cases enabled <;> rfl) (fun _ h ↦ by cases h) fun _ _ _ _ _ _ h ↦ by cases h
  | restart enabled =>
    have hempty : (s.restart enabled).invalidDeviceTokens = [] := by cases enabled <;> rfl
    rw [hempty]
    refine iff_of_false List.not_mem_nil ?_
    rintro (⟨i, _, _, _, _, _, h, -⟩ | ⟨-, hnot⟩)
    · cases h
    · exact hnot ⟨enabled, rfl⟩
  | @drops i task _ ha htask hphase =>
    refine hquiet rfl (fun _ h ↦ ?_) fun j task' c rest phase handling h htask' hphase' ↦ ?_
    · rcases ha with rfl | rfl <;> cases h
    · rcases ha with rfl | rfl <;> cases h
      obtain rfl := Option.some.inj (htask.symm.trans htask')
      cases hphase.symm.trans hphase'
  | @moves i task task' _ ha htask hmoves =>
    refine hquiet rfl (fun _ h ↦ ?_) fun j task' c rest phase handling h htask' hphase' ↦ ?_
    · rcases ha with rfl | ⟨result, rfl⟩ <;> cases h
    · rcases ha with rfl | ⟨result, rfl⟩ <;> cases h
      obtain rfl := Option.some.inj (htask.symm.trans htask')
      exact hmoves.not_ends hphase'
  | @locks i task c token rest client htask hphase hclient hfree hexpired =>
    refine hquiet rfl (fun _ h ↦ by cases h) fun j task' c rest phase handling h htask' hphase' ↦ ?_
    cases h
    obtain rfl := Option.some.inj (htask.symm.trans htask')
    obtain ⟨-, -, -, rfl⟩ := NotifyPhase.sending.inj (hphase.symm.trans hphase')
    rintro ⟨⟩
  | @records i task c token rest phase error handling htask hphase hends =>
    have hstays : ¬Restarts s (.go i) := fun ⟨_, h⟩ ↦ by cases h
    rw [mem_invalid_record, and_iff_left hstays]
    refine or_congr_left ⟨?_, ?_⟩
    · rintro ⟨rfl, rfl⟩
      exact ⟨i, task, c, rest, phase, handling, rfl, htask, hphase, hends⟩
    · rintro ⟨j, task', c', rest', phase', handling', h, htask', hphase', hends'⟩
      cases h
      obtain rfl := Option.some.inj (htask.symm.trans htask')
      obtain ⟨-, rfl, -, rfl⟩ := NotifyPhase.sending.inj (hphase.symm.trans hphase')
      exact ⟨hends.error_eq hends', rfl⟩

/-- What was refused since the last restart. -/
theorem mem_invalid_iff {now : ℤ} {as : List NotifyAction} {x : String}
    (hrun : run step (start now) as = some s) :
    x ∈ s.invalidDeviceTokens ↔ Since step (Refuses x) Restarts (start now) as := by
  have h := holds_iff_since (P := Refuses x) (Q := Restarts) (fun _ ↦ True)
    (fun s : NotifySystem ↦ x ∈ s.invalidDeviceTokens) (fun _ ↦ True) (fun _ ↦ True)
    (fun _ _ _ _ _ ↦ trivial)
    (fun s a t _ hstep ↦ (mem_invalid_of_did (did hstep)).trans (and_iff_right trivial).symm)
    (fun _ _ _ _ _ _ ↦ trivial) (fun _ _ _ _ _ _ _ ↦ trivial) trivial List.not_mem_nil hrun
  exact h.trans (and_iff_right trivial)

/-! ### The loop -/

variable {now : ℤ} {as : List NotifyAction} {i : ℕ}

theorem tasksInv_of_run (hrun : run step (start now) as = some s) : s.TasksInv :=
  run_induction (fun _ _ _ h hstep ↦ tasksInv_of_did h (did hstep)) (fun _ _ h ↦ by cases h) hrun

/-- **Which tokens are tried**: a task that comes to a token goes on with it exactly if it was not
refused since the server was started, by whichever task. -/
theorem looks_iff (hrun : run step (start now) as = some s) (htask : s.tasks i = some task)
    (hphase : task.phase = .looking c (token :: rest)) :
    (s.step (.go i) = some (s.setTask i (some { task with phase := .sending c token rest .looked }))
      ↔ ¬Since step (Refuses token) Restarts (start now) as) ∧
    (s.step (.go i) = some (s.setTask i (some { task with
        phase := .looking c rest
        handled := task.handled ++ [(token, .passedOver)] }))
      ↔ Since step (Refuses token) Restarts (start now) as) := by
  have hne : s.setTask i (some { task with phase := .sending c token rest .looked }) ≠
      s.setTask i (some { task with
        phase := .looking c rest
        handled := task.handled ++ [(token, .passedOver)] }) := fun h ↦ by
    have hi := congrFun (congrArg tasks h) i
    rw [tasks_setTask, tasks_setTask, Function.update_self, Function.update_self] at hi
    cases congrArg NotifyTask.phase (Option.some.inj hi)
  rw [← mem_invalid_iff hrun, step_go htask, advance_looking hphase]
  by_cases hin : token ∈ s.invalidDeviceTokens
  · rw [if_pos (List.contains_iff_mem.2 hin)]
    exact ⟨iff_of_false (fun h ↦ hne (Option.some.inj h).symm) fun h ↦ h hin,
      iff_of_true rfl hin⟩
  · rw [if_neg fun h ↦ hin (List.contains_iff_mem.1 h)]
    exact ⟨iff_of_true rfl hin, iff_of_false (fun h ↦ hne (Option.some.inj h)) hin⟩

/-- Bob has a phone. -/
def onePhone : NotificationCache :=
  ⟨OrderedMap.empty.insertAll [(1, ⟨"ann", .normal, .empty, ⟨.empty, .empty⟩⟩),
    (2, ⟨"bob", .normal, OrderedMap.empty.insert "phone" (some "tok"), ⟨.empty, .empty⟩⟩)], .empty⟩

def annToBob : ChatMessagePayload := ⟨1, 0, .user 2, .normal ⟨⟨none, "text/plain", "hi"⟩, none⟩⟩

/-- The client is refused an access token with the status 400, before the phone is ever tried. -/
def refusedPhone : List NotifyAction :=
  [.changeCache onePhone, .setFcm true, .select 0 "srv" [] annToBob, .go 0, .go 0, .go 0, .go 0,
    .go 0, .refreshed 0 (.error .badRequest), .go 0, .select 1 "srv" [] annToBob, .go 1, .go 1]

/-- Another message passes the phone over. -/
theorem looks_iff_refusedPhone : ∃ s task, run step (start 0) refusedPhone = some s ∧
    s.tasks 1 = some task ∧ task.phase = .looking 0 ["tok"] ∧
    Since step (Refuses "tok") Restarts (start 0) refusedPhone := by
  obtain ⟨s, task, hrun, htask, hphase, hstep⟩ : ∃ s task,
      run step (start 0) refusedPhone = some s ∧ s.tasks 1 = some task ∧
      task.phase = .looking 0 ["tok"] ∧ s.step (.go 1) = some (s.setTask 1 (some { task with
        phase := .looking 0 []
        handled := task.handled ++ [("tok", .passedOver)] })) := ⟨_, _, rfl, rfl, rfl, rfl⟩
  exact ⟨s, task, hrun, htask, hphase, (looks_iff hrun htask hphase).2.1 hstep⟩

/-- **What becomes of the tokens**: they are gone through in their order, and Firebase is sent those
for which there was an access token, each once. What was refused is not tried again. A task that
ends has gone through all of them, unless it came to one after a minute. -/
theorem handled_of_run (hrun : run step (start now) as = some s) (htask : s.tasks i = some task) :
    task.notification.tokens = task.handled.map Prod.fst ++ task.left ∧
    task.requested.map Prod.fst =
      (task.handled.filter fun e ↦ e.2.isAnswered).map Prod.fst ++ task.underway ∧
    (∀ e ∈ task.handled, e.2.IsRefused →
      Since step (Refuses e.1) Restarts (start now) as) ∧
    ∀ left, task.phase = .finished left → left = [] ∨ s.now - task.startedAt > 60 * second := by
  obtain ⟨⟨htokens, hrequested⟩, hrefused, hfinished⟩ := tasksInv_of_run hrun i task htask
  exact ⟨htokens, hrequested, fun e he h ↦ (mem_invalid_iff hrun).1 (hrefused e he h), hfinished⟩

/-- Bob's phone is sent a message. -/
def sentToPhone : List NotifyAction :=
  [.changeCache onePhone, .setFcm true, .select 0 "srv" [] annToBob, .go 0, .go 0, .go 0, .go 0,
    .go 0, .refreshed 0 (.ok ("secret", some 3600)), .go 0, .answered 0 (.ok ()), .go 0, .go 0]

theorem handled_of_run_sentToPhone : ∃ s task, run step (start 0) sentToPhone = some s ∧
    s.tasks 0 = some task ∧ task.phase = .finished [] ∧
    task.notification.tokens = task.handled.map Prod.fst ++ task.left := by
  obtain ⟨s, task, hrun, htask, hphase⟩ : ∃ s task, run step (start 0) sentToPhone = some s ∧
      s.tasks 0 = some task ∧ task.phase = .finished [] := ⟨_, _, rfl, rfl, rfl⟩
  exact ⟨s, task, hrun, htask, hphase, (handled_of_run hrun htask).1⟩

/-- A message is sent. The tokens are those of the users who are notified of it, everyone once. -/
def Announces (i : ℕ) (tokens : List String) (s : NotifySystem) (a : NotifyAction) : Prop :=
  ∃ serverId mentions payload, ∃ uids : List ℤ, a = .select i serverId mentions payload ∧
    mentions.Perm payload.detail.mentions.dedup ∧ uids.Nodup ∧
    (∀ uid, uid ∈ uids ↔ ∃ user, s.cache.Notifies s.now mentions payload uid user) ∧
    tokens = (uids.filterMap s.cache.users.get).flatMap NotifiedUser.deviceTokens

/-- **Who is sent a notification**: what is sent goes to tokens that the devices of the users who
are notified had when the message was sent, once for each device. -/
theorem announced_of_run (hrun : run step (start now) as = some s)
    (htask : s.tasks i = some task) :
    Occurred step (Announces i task.notification.tokens) (start now) as ∧
      (task.requested.map Prod.fst).Sublist task.notification.tokens := by
  obtain ⟨htokens, hrequested, -, -⟩ := handled_of_run hrun htask
  refine ⟨(selects_of_run hrun htask).mono ?_, ?_⟩
  · rintro r a ⟨serverId, mentions, payload, ha, hmentions, hn⟩
    obtain ⟨uids, hnodup, huids, heq⟩ := NotificationCache.tokens_eq hn
    exact ⟨serverId, mentions, payload, uids, ha, hmentions, hnodup, huids, heq⟩
  · rw [htokens, hrequested]
    exact (List.filter_sublist.map _).append task.underway_sublist

theorem announced_of_run_sentToPhone : ∃ s task, run step (start 0) sentToPhone = some s ∧
    s.tasks 0 = some task ∧ task.requested = [("tok", "secret")] ∧
    Occurred step (Announces 0 task.notification.tokens) (start 0) sentToPhone := by
  obtain ⟨s, task, hrun, htask, hsent⟩ : ∃ s task, run step (start 0) sentToPhone = some s ∧
      s.tasks 0 = some task ∧ task.requested = [("tok", "secret")] := ⟨_, _, rfl, rfl, rfl⟩
  exact ⟨s, task, hrun, htask, hsent, (announced_of_run hrun htask).1⟩

end NotifySystem

end VoceChat
