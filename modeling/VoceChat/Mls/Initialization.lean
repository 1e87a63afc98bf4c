import VoceChat.Foundations.Run
import VoceChat.Mls.Delivery

/-!
# Who initializes the MLS group of a route

A device that wants to create the MLS group of a route claims it (`claim_initialization`) and has a
lease of 30 seconds. When it is done it marks the route (`mark_initialized`), even if its lease is
over, as long as nobody else has claimed.

`RouteSystem` runs any number of calls against each other: a call is authorized first and writes
later, at the time that it is then. Groups change in any way in between (`changeGroups`); the route
of a group that is deleted is deleted with it.

## What the row remembers

The row of a route is what its answers so far leave behind (`RouteRow.Remembers`): as long as it is
not initialized, the initializer is the device of the last claim that was granted, and the lease is
what that claim was given. The three parts of `initialization` are read off it.
-/

namespace VoceChat

open Guards Transition

inductive InitializationResult where
  | claimed (status : ℕ)
  | marked
  deriving DecidableEq, Repr

/-- A call that was answered without an error: when, and to which device. -/
structure InitializationAnswer where
  time : ℕ
  route : String
  device : ℤ × String
  result : InitializationResult
  deriving DecidableEq, Repr

/-- The device now owns the lease. -/
def InitializationAnswer.Granted (a : InitializationAnswer) : Prop := a.result = .claimed 1

instance (a : InitializationAnswer) : Decidable a.Granted := inferInstanceAs (Decidable (_ = _))

/-- A call that is authorized. -/
structure InitializationCall where
  isClaim : Bool
  device : ℤ × String
  route : String
  deriving DecidableEq, Repr

structure RouteSystem where
  db : RouteTables
  now : ℕ
  calls : List InitializationCall
  answers : List InitializationAnswer

inductive RouteAction where
  | tick (seconds : ℕ)
  /-- Whatever requests do to groups and their members. -/
  | changeGroups (groups : Groups.Tables)
  | routeForGroup (uid gid : ℤ) (fresh : String)
  /-- `claim_initialization` and `mark_initialized` up to `authorize_route`. -/
  | claimInitialization (token : CurrentUser) (route deviceId : String)
  | markInitialized (token : CurrentUser) (route deviceId : String)
  | write (i : ℕ)

namespace RouteSystem

def start (groups : Groups.Tables) : RouteSystem := ⟨⟨groups, Table.empty⟩, 0, [], []⟩

/-- The checks of a call, of the API and of the function. -/
def authorize (s : RouteSystem) (token : CurrentUser) (route deviceId : String) :
    Except DeliveryError Unit := do
  requireAuthenticatedDevice token deviceId
  ensure (IsRoute route) .badRequest
  ensure (IsDeviceId deviceId) .badRequest
  s.db.authorizeRoute token.uid route

def call (s : RouteSystem) (isClaim : Bool) (token : CurrentUser) (route deviceId : String) :
    RouteSystem :=
  match s.authorize token route deviceId with
  | .ok () => { s with calls := s.calls ++ [⟨isClaim, (token.uid, deviceId), route⟩] }
  | .error _ => s

/-- `on delete cascade`. -/
def changeGroups (s : RouteSystem) (groups : Groups.Tables) : RouteSystem :=
  { s with db := ⟨groups, s.db.routes.filter fun _ row ↦ (groups.group row.gid).isSome⟩ }

def answer (s : RouteSystem) (c : InitializationCall) (result : InitializationResult)
    (db : RouteTables) : RouteSystem :=
  { s with db, answers := s.answers ++ [⟨s.now, c.route, c.device, result⟩] }

/-- The transaction of a call. -/
def writeCall (s : RouteSystem) (c : InitializationCall) : RouteSystem :=
  if c.isClaim then
    match s.db.claim c.device c.route s.now with
    | .ok (status, db) => s.answer c (.claimed status) db
    | .error _ => s
  else
    match s.db.mark c.device c.route with
    | .ok db => s.answer c .marked db
    | .error _ => s

def perform (s : RouteSystem) : RouteAction → RouteSystem
  | .tick seconds => { s with now := s.now + seconds }
  | .changeGroups groups => s.changeGroups groups
  | .routeForGroup uid gid fresh =>
    match s.db.routeForGroup uid gid fresh with
    | .ok (_, db) => { s with db }
    | .error _ => s
  | .claimInitialization token route deviceId => s.call true token route deviceId
  | .markInitialized token route deviceId => s.call false token route deviceId
  | .write i =>
    match s.calls[i]? with
    | some c => { s with calls := s.calls.eraseIdx i }.writeCall c
    | none => s

/-- The route is not deleted, which it is with its group only. -/
def KeepsRoute (route : String) (s : RouteSystem) : RouteAction → Prop
  | .changeGroups groups => ∀ row ∈ s.db.routes.get route, (groups.group row.gid).isSome = true
  | _ => True

instance (route : String) (s : RouteSystem) : ∀ a, Decidable (KeepsRoute route s a)
  | .changeGroups groups =>
    inferInstanceAs (Decidable (∀ row ∈ s.db.routes.get route,
      (groups.group row.gid).isSome = true))
  | .tick _ | .routeForGroup .. | .claimInitialization .. | .markInitialized .. | .write _ =>
    .isTrue trivial

/-- The answers about a route, in their order. -/
def answersOf (s : RouteSystem) (route : String) : List InitializationAnswer :=
  s.answers.filter fun a ↦ a.route = route

end RouteSystem

/-! ### What the answers say -/

/-- The last claim that was granted. -/
def lastGrant (answers : List InitializationAnswer) : Option InitializationAnswer :=
  (answers.filter fun a ↦ a.Granted).getLast?

/-- The device was granted a claim, 30 seconds ago at most. -/
def HoldsLease (answers : List InitializationAnswer) (device : ℤ × String) (now : ℕ) : Prop :=
  ∃ a ∈ answers, a.Granted ∧ a.device = device ∧ a.time ≤ now ∧ now ≤ a.time + 30

variable {answers : List InitializationAnswer} {a g : InitializationAnswer} {row : RouteRow}
  {device : ℤ × String} {now : ℕ}

theorem lastGrant_concat_of_granted (h : a.Granted) : lastGrant (answers ++ [a]) = some a := by
  have hsingle : [a].filter (fun a ↦ a.Granted) = [a] := List.filter_cons_of_pos (decide_eq_true h)
  rw [lastGrant, List.filter_append, hsingle, List.getLast?_concat]

theorem lastGrant_concat_of_not_granted (h : ¬a.Granted) :
    lastGrant (answers ++ [a]) = lastGrant answers := by
  have hsingle : [a].filter (fun a ↦ a.Granted) = [] :=
    List.filter_cons_of_neg (by rwa [decide_eq_true_iff])
  rw [lastGrant, List.filter_append, hsingle, List.append_nil, lastGrant]

/-- A claim that was granted is the last one, or is related to it as to every later answer. -/
theorem rel_lastGrant {R : InitializationAnswer → InitializationAnswer → Prop}
    (hR : answers.Pairwise R) (ha : a ∈ answers) (hgranted : a.Granted) :
    ∃ g, lastGrant answers = some g ∧ g.Granted ∧ (a = g ∨ R a g) := by
  have hmem : a ∈ answers.filter fun a ↦ a.Granted :=
    List.mem_filter.2 ⟨ha, decide_eq_true hgranted⟩
  have hfilter : (answers.filter fun a ↦ a.Granted).Pairwise R := hR.filter _
  have hall : ∀ b ∈ answers.filter fun a ↦ a.Granted, b.Granted :=
    fun b hb ↦ of_decide_eq_true (List.mem_filter.1 hb).2
  rw [lastGrant]
  rcases List.eq_nil_or_concat (answers.filter fun a ↦ a.Granted) with hnil | ⟨init, g, heq⟩
  · rw [hnil] at hmem
    exact absurd hmem List.not_mem_nil
  · rw [List.concat_eq_append] at heq
    rw [heq] at hmem hfilter hall ⊢
    refine ⟨g, List.getLast?_concat, hall g List.mem_concat_self, ?_⟩
    rcases List.mem_append.1 hmem with hinit | hlast
    · exact .inr ((List.pairwise_append.1 hfilter).2.2 a hinit g (List.mem_singleton_self g))
    · exact .inl (List.mem_singleton.1 hlast)

theorem forall_mem_concat {p : InitializationAnswer → Prop} (h : ∀ b ∈ answers, p b) (ha : p a) :
    ∀ b ∈ answers ++ [a], p b := by
  intro b hb
  rcases List.mem_append.1 hb with hb | hb
  · exact h b hb
  · exact List.mem_singleton.1 hb ▸ ha

/-- The answers before the mark, the mark and those after it. -/
def MarkedOnce (answers : List InitializationAnswer) : Prop :=
  ∃ before m after, answers = before ++ m :: after ∧ m.result = .marked ∧
    (∀ a ∈ before, a.result ≠ .marked) ∧
      (lastGrant before).map InitializationAnswer.device = some m.device ∧
        ∀ a ∈ after, a.result = .claimed 2

/-- The row of a route is what the answers so far leave behind. -/
structure RouteRow.Remembers (row : RouteRow) (answers : List InitializationAnswer) (now : ℕ) :
    Prop where
  past : ∀ a ∈ answers, a.time ≤ now
  sorted : answers.Pairwise fun a b ↦ a.time ≤ b.time
  leases : answers.Pairwise fun a b ↦ a.Granted → b.Granted → a.device ≠ b.device →
    a.time + 30 < b.time
  unmarked : row.initialized = false → ∀ a ∈ answers, a.result ≠ .marked
  initializer : row.initialized = false →
    row.initializer = (lastGrant answers).map InitializationAnswer.device
  lease : row.initialized = false →
    row.initializerLease = (lastGrant answers).map fun a ↦ a.time + 30
  marked : row.initialized = true → MarkedOnce answers

namespace RouteRow.Remembers

theorem new (gid : ℤ) (now : ℕ) : (RouteRow.new gid).Remembers [] now where
  past a ha := absurd ha List.not_mem_nil
  sorted := List.Pairwise.nil
  leases := List.Pairwise.nil
  unmarked _ a ha := absurd ha List.not_mem_nil
  initializer _ := rfl
  lease _ := rfl
  marked h := by cases h

theorem tick (h : row.Remembers answers now) (seconds : ℕ) :
    row.Remembers answers (now + seconds) :=
  { h with past := fun a ha ↦ (h.past a ha).trans (Nat.le_add_right _ _) }

/-- A claim is granted to another device only when the lease of every earlier claim is over. -/
theorem expired (h : row.Remembers answers now) (hmay : row.MayClaim device now) :
    ∀ a ∈ answers, a.Granted → a.device ≠ device → a.time + 30 < now := by
  intro a ha hgranted hne
  obtain ⟨hfalse, hcase⟩ := hmay
  obtain ⟨g, hlast, hg, hrel⟩ :=
    rel_lastGrant (List.pairwise_and_iff.2 ⟨h.sorted, h.leases⟩) ha hgranted
  have hinitializer : row.initializer = some g.device := by rw [h.initializer hfalse, hlast]; rfl
  have hlease : row.initializerLease = some (g.time + 30) := by rw [h.lease hfalse, hlast]; rfl
  have hmem : g ∈ answers := List.mem_of_mem_filter (List.mem_of_getLast? hlast)
  rcases hcase with hnone | ⟨lease, hsome, hlt⟩ | hself
  · rw [hinitializer] at hnone
    cases hnone
  · obtain rfl : g.time + 30 = lease := Option.some_inj.1 (hlease.symm.trans hsome)
    have htime : a.time ≤ g.time := by
      rcases hrel with rfl | hrel
      · exact le_rfl
      · exact hrel.1
    omega
  · -- the same device again: whoever else had a lease had it before the last claim
    obtain rfl : g.device = device := Option.some_inj.1 (hinitializer.symm.trans hself)
    rcases hrel with rfl | hrel
    · exact absurd rfl hne
    · have hbefore := hrel.2 hgranted hg hne
      have hpast := h.past g hmem
      omega

/-- One more answer, at the present time. -/
theorem leases_concat (h : row.Remembers answers now) (htime : a.time = now)
    (hnew : a.Granted → ∀ b ∈ answers, b.Granted → b.device ≠ a.device → b.time + 30 < now) :
    (answers ++ [a]).Pairwise fun a b ↦ a.Granted → b.Granted → a.device ≠ b.device →
      a.time + 30 < b.time := by
  refine List.pairwise_append.2 ⟨h.leases, List.pairwise_singleton _ _, fun b hb c hc ↦ ?_⟩
  obtain rfl := List.mem_singleton.1 hc
  intro hgb hgc hne
  rw [htime]
  exact hnew hgc b hb hgb hne

theorem sorted_concat (h : row.Remembers answers now) (htime : a.time = now) :
    (answers ++ [a]).Pairwise fun a b ↦ a.time ≤ b.time := by
  refine List.pairwise_append.2 ⟨h.sorted, List.pairwise_singleton _ _, fun b hb c hc ↦ ?_⟩
  obtain rfl := List.mem_singleton.1 hc
  rw [htime]
  exact h.past b hb

/-- **A claim.** -/
theorem claim (h : row.Remembers answers now) (route : String) (device : ℤ × String) :
    (row.claim device now).Remembers
      (answers ++ [⟨now, route, device, .claimed ((row.claim device now).status device)⟩]) now := by
  by_cases hmay : row.MayClaim device now
  · -- granted: the new initializer is the device, until 30 seconds from now
    have hrow : row.claim device now =
        { row with initializer := some device, initializerLease := some (now + 30) } := if_pos hmay
    have hstatus : (row.claim device now).status device = 1 := by
      rw [hrow, RouteRow.status, if_neg (by rw [hmay.1]; decide), if_pos rfl]
    rw [hstatus, hrow]
    have hgranted : InitializationAnswer.Granted ⟨now, route, device, .claimed 1⟩ := rfl
    refine ⟨forall_mem_concat h.past le_rfl, h.sorted_concat rfl,
      h.leases_concat rfl fun _ ↦ h.expired hmay, ?_, ?_, ?_, ?_⟩
    · exact fun hfalse ↦ forall_mem_concat (h.unmarked hfalse) fun heq ↦ by cases heq
    · exact fun _ ↦ by rw [lastGrant_concat_of_granted hgranted]; rfl
    · exact fun _ ↦ by rw [lastGrant_concat_of_granted hgranted]; rfl
    · exact fun htrue ↦ by rw [hmay.1] at htrue; cases htrue
  · have hrow : row.claim device now = row := if_neg hmay
    rw [hrow]
    have hdenied : row.status device ≠ 1 := by
      intro hone
      rw [RouteRow.status] at hone
      split at hone
      · cases hone
      · rename_i hinit
        split at hone
        · rename_i hself
          exact hmay ⟨by rwa [Bool.not_eq_true] at hinit, .inr (.inr hself)⟩
        · cases hone
    have hgranted : ¬InitializationAnswer.Granted ⟨now, route, device,
      .claimed (row.status device)⟩ :=
      fun hg ↦ hdenied (InitializationResult.claimed.inj hg)
    refine ⟨forall_mem_concat h.past le_rfl, h.sorted_concat rfl,
      h.leases_concat rfl fun hg ↦ absurd hg hgranted, ?_, ?_, ?_, ?_⟩
    · exact fun hfalse ↦ forall_mem_concat (h.unmarked hfalse) fun heq ↦ by cases heq
    · exact fun hfalse ↦ by rw [lastGrant_concat_of_not_granted hgranted, h.initializer hfalse]
    · exact fun hfalse ↦ by rw [lastGrant_concat_of_not_granted hgranted, h.lease hfalse]
    · intro htrue
      obtain ⟨before, m, after, rfl, hm, hbefore, hlast, hafter⟩ := h.marked htrue
      refine ⟨before, m, after ++ [⟨now, route, device, .claimed (row.status device)⟩], ?_, hm,
        hbefore, hlast, forall_mem_concat hafter ?_⟩
      · rw [List.append_assoc, List.cons_append]
      · show InitializationResult.claimed (row.status device) = .claimed 2
        rw [RouteRow.status, if_pos htrue]

/-- **A mark**: of the device whose claim was the last to be granted. -/
theorem mark (h : row.Remembers answers now) (route : String) (hmay : row.MayMark device) :
    row.mark.Remembers (answers ++ [⟨now, route, device, .marked⟩]) now := by
  obtain ⟨hself, hfalse⟩ := hmay
  refine ⟨forall_mem_concat h.past le_rfl, h.sorted_concat rfl,
    h.leases_concat rfl (fun hg ↦ by cases hg), (fun hf ↦ by cases hf), (fun hf ↦ by cases hf),
    (fun hf ↦ by cases hf), fun _ ↦ ?_⟩
  refine ⟨answers, _, [], rfl, rfl, h.unmarked hfalse, ?_, fun a ha ↦ absurd ha List.not_mem_nil⟩
  rw [← h.initializer hfalse, hself]

end RouteRow.Remembers

/-- At no time do two devices hold a lease. -/
theorem HoldsLease.eq {device' : ℤ × String} (hleases : answers.Pairwise fun a b ↦
      a.Granted → b.Granted → a.device ≠ b.device → a.time + 30 < b.time)
    (h : HoldsLease answers device now) (h' : HoldsLease answers device' now) :
    device = device' := by
  obtain ⟨a, ha, hga, rfl, hfrom, huntil⟩ := h
  obtain ⟨b, hb, hgb, rfl, hfrom', huntil'⟩ := h'
  by_contra hne
  have hsymm : answers.Pairwise fun a b ↦ a.Granted → b.Granted → a.device ≠ b.device →
      a.time + 30 < b.time ∨ b.time + 30 < a.time :=
    hleases.imp fun hab hga hgb hne ↦ .inl (hab hga hgb hne)
  have hapart := List.Pairwise.forall_of_forall_of_flip (fun a _ _ _ hne ↦ absurd rfl hne) hsymm
    (hsymm.imp fun hab hgb hga hne ↦ (hab hga hgb hne.symm).symm) ha hb hga hgb hne
  omega

/-! ### Runs -/

namespace RouteSystem

variable {s : RouteSystem} {route : String}

/-- What is known of a route that there is, and that nothing was answered about one that there is
not. -/
def Remembers (s : RouteSystem) (route : String) : Prop :=
  (∀ row, s.db.routes.get route = some row → row.Remembers (s.answersOf route) s.now) ∧
    (s.db.routes.get route = none → s.answersOf route = [])

theorem Remembers.congr {s' : RouteSystem} (h : s.Remembers route)
    (hget : s'.db.routes.get route = s.db.routes.get route) (hanswers : s'.answers = s.answers)
    (hnow : s'.now = s.now) : s'.Remembers route := by
  have hof : s'.answersOf route = s.answersOf route := by rw [answersOf, answersOf, hanswers]
  rw [Remembers, hget, hof, hnow]
  exact h

theorem answersOf_answer_self (s : RouteSystem) (c : InitializationCall)
    (result : InitializationResult) (db : RouteTables) : (s.answer c result db).answersOf c.route =
      s.answersOf c.route ++ [⟨s.now, c.route, c.device, result⟩] := by
  rw [answersOf, answer, List.filter_append]
  exact congrArg _ (List.filter_cons_of_pos (decide_eq_true rfl))

theorem answersOf_answer_of_ne (s : RouteSystem) (c : InitializationCall)
    (result : InitializationResult) (db : RouteTables) (h : c.route ≠ route) :
    (s.answer c result db).answersOf route = s.answersOf route := by
  rw [answersOf, answer, List.filter_append]
  refine (congrArg _ (List.filter_cons_of_neg ?_)).trans (List.append_nil _)
  rwa [decide_eq_true_iff]

theorem remembers_call (h : s.Remembers route) (isClaim : Bool) (token : CurrentUser)
    (route' deviceId : String) : (s.call isClaim token route' deviceId).Remembers route := by
  rw [call]
  split
  · exact h
  · exact h

theorem remembers_changeGroups (h : s.Remembers route) {groups : Groups.Tables}
    (hkeeps : KeepsRoute route s (.changeGroups groups)) :
    (s.changeGroups groups).Remembers route := by
  refine h.congr (Option.ext fun row ↦ ?_) rfl rfl
  show (s.db.routes.filter _).get route = some row ↔ _
  rw [Table.get_filter]
  exact ⟨fun hrow ↦ hrow.1, fun hrow ↦ ⟨hrow, hkeeps row hrow⟩⟩

theorem remembers_routeForGroup (h : s.Remembers route) {uid gid : ℤ} {fresh token : String}
    {db : RouteTables} (hdb : s.db.routeForGroup uid gid fresh = .ok (token, db)) :
    Remembers { s with db } route := by
  simp only [RouteTables.routeForGroup, bind_eq_ok, ensure_eq_ok, exists_unit] at hdb
  obtain ⟨-, hdb⟩ := hdb
  split at hdb
  · rw [pure_eq_ok, Prod.mk.injEq] at hdb
    obtain ⟨-, rfl⟩ := hdb
    exact h
  · simp only [bind_eq_ok, ensure_eq_ok, exists_unit, pure_eq_ok, Prod.mk.injEq] at hdb
    obtain ⟨hnone, -, rfl⟩ := hdb
    show (∀ row, (s.db.routes.put fresh (.new gid)).get route = some row → _) ∧ (_ → _)
    by_cases heq : route = fresh
    · obtain rfl := heq
      have hanswers : s.answersOf route = [] := h.2 hnone
      refine ⟨fun row hrow ↦ ?_, fun _ ↦ hanswers⟩
      rw [Table.get_put_self, Option.some_inj] at hrow
      show row.Remembers (s.answersOf route) s.now
      rw [← hrow, hanswers]
      exact .new gid s.now
    · have hget := Table.get_put_of_ne s.db.routes (.new gid) heq
      rw [hget]
      exact h

/-- A call that writes the row of its route and is answered. -/
theorem remembers_answer (h : s.Remembers route) {c : InitializationCall}
    {result : InitializationResult} {db : RouteTables} {row : RouteRow}
    (hself : db.routes.get c.route = some row)
    (helse : ∀ r, r ≠ c.route → db.routes.get r = s.db.routes.get r)
    (hrow : c.route = route →
      row.Remembers (s.answersOf c.route ++ [⟨s.now, c.route, c.device, result⟩]) s.now) :
    (s.answer c result db).Remembers route := by
  by_cases heq : c.route = route
  · obtain rfl := heq
    rw [Remembers, answersOf_answer_self]
    show (∀ r, db.routes.get c.route = some r → r.Remembers _ s.now) ∧
      (db.routes.get c.route = none → _)
    rw [hself]
    exact ⟨fun r hr ↦ Option.some_inj.1 hr ▸ hrow rfl, fun hnone ↦ by cases hnone⟩
  · rw [Remembers, answersOf_answer_of_ne _ _ _ _ heq]
    show (∀ r, db.routes.get route = some r → _) ∧ (db.routes.get route = none → _)
    rw [helse route (Ne.symm heq)]
    exact h

theorem remembers_writeCall (h : s.Remembers route) (c : InitializationCall) :
    (s.writeCall c).Remembers route := by
  rw [writeCall]
  split
  · split
    · rename_i status db hdb
      simp only [RouteTables.claim, bind_eq_ok, okOr_eq_ok, pure_eq_ok, Prod.mk.injEq] at hdb
      obtain ⟨row', hrow', rfl, rfl⟩ := hdb
      refine remembers_answer h hrow' (fun r hr ↦ ?_) fun heq ↦ ?_
      · show (s.db.routes.modify _ _).get r = _
        rw [Table.get_modify, if_neg hr]
      · rw [Table.get_modify, if_pos rfl, Option.map_eq_some_iff] at hrow'
        obtain ⟨row, hrow, rfl⟩ := hrow'
        obtain rfl := heq
        exact (h.1 row hrow).claim c.route c.device
    · exact h
  · split
    · rename_i db hdb
      simp only [RouteTables.mark, bind_eq_ok, okOr_eq_ok, ensure_eq_ok, exists_unit, pure_eq_ok]
        at hdb
      obtain ⟨row, hrow, hmay, rfl⟩ := hdb
      refine remembers_answer h (Table.get_put_self _ _ _)
        (fun r hr ↦ Table.get_put_of_ne _ _ hr) fun heq ↦ ?_
      obtain rfl := heq
      exact (h.1 row hrow).mark c.route hmay
    · exact h

theorem remembers_perform (h : s.Remembers route) {a : RouteAction}
    (hkeeps : KeepsRoute route s a) :
    (perform s a).Remembers route := by
  cases a with
  | tick seconds => exact ⟨fun row hrow ↦ (h.1 row hrow).tick seconds, h.2⟩
  | changeGroups groups => exact remembers_changeGroups h hkeeps
  | routeForGroup uid gid fresh =>
    rw [perform]
    split
    · rename_i token db hdb
      exact remembers_routeForGroup h hdb
    · exact h
  | claimInitialization token route' deviceId => exact remembers_call h true token route' deviceId
  | markInitialized token route' deviceId => exact remembers_call h false token route' deviceId
  | write i =>
    rw [perform]
    split
    · rename_i c hc
      exact remembers_writeCall (s := { s with calls := s.calls.eraseIdx i }) h c
    · exact h

theorem remembers_run {groups : Groups.Tables} {as : List RouteAction}
    (hkeeps : Along (total perform) (KeepsRoute route) (start groups) as) :
    (as.foldl perform (start groups)).Remembers route := by
  refine run_induction_along (I := fun s ↦ s.Remembers route) (fun s a t h hok hstep ↦ ?_)
    ⟨(fun row hrow ↦ by cases hrow), fun _ ↦ rfl⟩ hkeeps (run_total perform _ as)
  exact Option.some_inj.1 hstep ▸ remembers_perform h hok

/-- What was answered about a route that is known. -/
theorem Remembers.leases (h : s.Remembers route) : (s.answersOf route).Pairwise fun a b ↦
    a.Granted → b.Granted → a.device ≠ b.device → a.time + 30 < b.time := by
  cases hrow : s.db.routes.get route with
  | none => exact h.2 hrow ▸ List.Pairwise.nil
  | some row => exact (h.1 row hrow).leases

theorem Remembers.exists_initialized (h : s.Remembers route) {m : InitializationAnswer}
    (hm : m ∈ s.answersOf route) (hmarked : m.result = .marked) :
    ∃ row, s.db.routes.get route = some row ∧ row.initialized = true := by
  cases hrow : s.db.routes.get route with
  | none =>
    rw [h.2 hrow] at hm
    exact absurd hm List.not_mem_nil
  | some row =>
    refine ⟨row, rfl, ?_⟩
    by_contra hfalse
    exact (h.1 row hrow).unmarked (by rwa [Bool.not_eq_true] at hfalse) m hm hmarked

theorem claim_of_initialized {row : RouteRow} (hrow : s.db.routes.get route = some row)
    (htrue : row.initialized = true) (device : ℤ × String) (now : ℕ) :
    ∃ db, s.db.claim device route now = .ok (2, db) := by
  have hclaim : row.claim device now = row := if_neg fun hmay ↦ by
    rw [hmay.1] at htrue
    cases htrue
  have hstatus : row.status device = 2 := if_pos htrue
  simp only [RouteTables.claim, bind_eq_ok, okOr_eq_ok, pure_eq_ok, Prod.mk.injEq]
  exact ⟨_, row, by rw [Table.get_modify, if_pos rfl, hrow, Option.map_some, hclaim], hstatus, rfl⟩

/-- **One device initializes a route that is not deleted.** Whatever is called, by whomever and
whenever:

* at most one call marks the route, and it is of the device whose claim was the last to be granted;
  every claim answered after it says that the route is initialized, and so does any further one;
* no two devices hold a lease at the same time. -/
theorem initialization (groups : Groups.Tables) (as : List RouteAction) (route : String)
    (hkeeps : Along (total perform) (KeepsRoute route) (start groups) as) :
    (∀ m ∈ (as.foldl perform (start groups)).answersOf route, m.result = .marked →
      MarkedOnce ((as.foldl perform (start groups)).answersOf route) ∧
        ∀ device now, ∃ db, (as.foldl perform (start groups)).db.claim device route now =
          .ok (2, db)) ∧
      ∀ device device' now,
        HoldsLease ((as.foldl perform (start groups)).answersOf route) device now →
        HoldsLease ((as.foldl perform (start groups)).answersOf route) device' now →
          device = device' := by
  have h := remembers_run hkeeps
  refine ⟨fun m hm hmarked ↦ ?_, fun device device' now hd hd' ↦ HoldsLease.eq h.leases hd hd'⟩
  obtain ⟨row, hrow, htrue⟩ := h.exists_initialized hm hmarked
  exact ⟨(h.1 row hrow).marked htrue, claim_of_initialized hrow htrue⟩

/-- A public group, and nothing else. -/
def onePublicGroup : Groups.Tables :=
  ⟨fun gid ↦ if gid = 1 then some ⟨"all", "", none, true, 0, false⟩ else none, fun _ ↦ ∅, [], 2⟩

/-- Two users of a public group: the second claims when the lease of the first is over, and marks;
the first is too late. -/
def takeOver (route : String) : List RouteAction :=
  [.routeForGroup 1 1 route, .claimInitialization ⟨1, "web:1", false, false⟩ route "web:1",
    .write 0, .tick 31, .claimInitialization ⟨2, "phone", false, false⟩ route "phone", .write 0,
    .markInitialized ⟨1, "web:1", false, false⟩ route "web:1", .write 0,
    .markInitialized ⟨2, "phone", false, false⟩ route "phone", .write 0,
    .claimInitialization ⟨1, "web:1", false, false⟩ route "web:1", .write 0]

theorem initialization_takeOver :
    ∃ s, (takeOver "0123456789abcdef0123456789abcdef").foldl perform (start onePublicGroup) = s ∧
      MarkedOnce (s.answersOf "0123456789abcdef0123456789abcdef") ∧
        ∀ device device' now,
        HoldsLease (s.answersOf "0123456789abcdef0123456789abcdef") device now →
          HoldsLease (s.answersOf "0123456789abcdef0123456789abcdef") device' now →
            device = device' := by
  have h := initialization onePublicGroup (takeOver "0123456789abcdef0123456789abcdef")
    "0123456789abcdef0123456789abcdef" (along_of_check (by decide +kernel))
  exact ⟨_, rfl, (h.1 ⟨31, "0123456789abcdef0123456789abcdef", (2, "phone"), .marked⟩
    (by decide +kernel) rfl).1, h.2⟩

end RouteSystem

end VoceChat
