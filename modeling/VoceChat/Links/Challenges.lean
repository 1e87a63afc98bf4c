import Mathlib.Data.Finset.Card
import VoceChat.Links.Origins

/-!
# Nonces and authorizations

What a wallet has to sign is the nonce that was issued for its address last. It is not used up: the
same signature is a proof until there is another nonce (`proved_iff`).

What comes back from an issuer of OpenID Connect is good once: the `state` that comes with it has to
be waited for, and is not waited for after it was taken (`authorized_of_link`).
-/

namespace VoceChat

open Guards Machine Transition

/-- The address whose key has signed the nonce. -/
def SignedBy (recover : String → Bytes → Option Bytes) (publicAddress nonce signature : String) :
    Prop :=
  ∃ digits bytes address, signature.toList = '0' :: 'x' :: digits ∧
    Hex.decode digits = some bytes ∧ 64 ≤ bytes.length ∧ recover nonce bytes = some address ∧
    String.ofList ('0' :: 'x' :: Hex.encode address) = publicAddress

theorem checkMetamaskPublicAddress_eq_true {recover : String → Bytes → Option Bytes}
    {nonces : Table String String} {publicAddress nonce signature : String} :
    checkMetamaskPublicAddress recover nonces publicAddress nonce signature = true ↔
      nonces.get publicAddress = some nonce ∧ SignedBy recover publicAddress nonce signature := by
  rw [checkMetamaskPublicAddress, SignedBy]
  split
  · rename_i digits hsignature
    simp only [Option.any_eq_true, Bool.and_eq_true, decide_eq_true_iff]
    constructor
    · rintro ⟨bytes, hdecode, ⟨hlength, hget⟩, address, hrecover, haddress⟩
      exact ⟨hget, digits, bytes, address, hsignature, hdecode, hlength, hrecover, haddress⟩
    · rintro ⟨hget, digits', bytes, address, hsignature', hdecode, hlength, hrecover, haddress⟩
      cases hsignature.symm.trans hsignature'
      exact ⟨bytes, hdecode, ⟨hlength, hget⟩, address, hrecover, haddress⟩
  · rename_i hnot
    refine iff_of_false Bool.false_ne_true ?_
    rintro ⟨-, digits, bytes, address, hsignature, -⟩
    exact hnot digits hsignature

/-- The issuer that a request deals with. -/
def LinkTask.issuer : LinkTask → Option String
  | taken issuer _ | exchanging issuer _ => some issuer
  | proving .. | asking .. | verified .. | unlinked _ | matched .. | unmatched _ | named .. |
      binding .. | resolved .. => none

namespace LinkSystem

variable {ph : PasswordHashing} {toLowercase : String → String}
  {recover : String → Bytes → Option Bytes} {s t : LinkSystem} {a : LinkAction}
  {as : List LinkAction} {identity : Identity} {uid : ℤ}

/-! ### What a step does to them -/

/-- Authorizations are as they were. -/
structure Unasked (s t : LinkSystem) : Prop where
  pendingOidc : t.pendingOidc = s.pendingOidc
  authorized : t.authorized = s.authorized
  consumed : t.consumed = s.consumed

/-- Nonces and authorizations are as they were. -/
structure Unchallenged (s t : LinkSystem) : Prop extends Unasked s t where
  nonces : t.nonces = s.nonces


theorem unchallenged_getD {i : ℕ} {o : Option LinkSystem} (h : ∀ t ∈ o, s.Unchallenged t) :
    s.Unchallenged (o.getD (s.setTask i none)) := by
  cases o with
  | none => exact ⟨⟨rfl, rfl, rfl⟩, rfl⟩
  | some t => exact h t rfl

theorem unchallenged_inserted {i : ℕ} {task : Option LinkTask} :
    s.Unchallenged (((s.links.link s.accounts identity uid).map fun links ↦
      { s.setTask i task with links := links }).getD (s.setTask i none)) := by
  refine unchallenged_getD fun t ht ↦ ?_
  obtain ⟨links, -, rfl⟩ := Option.map_eq_some_iff.1 ht
  exact ⟨⟨rfl, rfl, rfl⟩, rfl⟩

theorem unchallenged_advance {i : ℕ} {input : LinkInput} {task : LinkTask}
    (h : s.advance ph toLowercase recover i input task = some t) : s.Unchallenged t := by
  have hset : ∀ task, s.Unchallenged (s.setTask i task) := fun _ ↦ ⟨⟨rfl, rfl, rfl⟩, rfl⟩
  rw [advance.eq_def] at h
  split at h
  all_goals first
    | exact Option.some.inj h ▸ hset _
    | exact Option.some.inj h ▸ unchallenged_inserted
    | skip
  · obtain ⟨name, -, rfl⟩ := Option.map_eq_some_iff.1 h
    exact hset _
  · rw [← Option.some.inj h]
    refine unchallenged_getD fun t ht ↦ ?_
    rw [createLinked, Option.bind_eq_bind, Option.mem_def, Option.bind_eq_some_iff] at ht
    obtain ⟨⟨uid, accounts⟩, -, ht⟩ := ht
    obtain ⟨links, -, ht⟩ := Option.bind_eq_some_iff.1 ht
    obtain rfl := Option.some.inj ht
    exact ⟨⟨rfl, rfl, rfl⟩, rfl⟩
  · rw [← Option.some.inj h]
    split
    · exact ⟨⟨rfl, rfl, rfl⟩, rfl⟩
    · exact hset _
  · cases h

/-- A task deals with an issuer since it was there before. -/
def IssuersFrom (s t : LinkSystem) : Prop :=
  ∀ j issuer, (∃ task, t.tasks j = some task ∧ task.issuer = some issuer) →
    ∃ old, s.tasks j = some old ∧ old.issuer = some issuer

theorem issuersFrom_update {i : ℕ} {task : Option LinkTask}
    (htasks : t.tasks = Function.update s.tasks i task)
    (htask : ∀ new ∈ task, ∀ issuer, new.issuer = some issuer →
      ∃ old, s.tasks i = some old ∧ old.issuer = some issuer) : s.IssuersFrom t := by
  rintro j issuer ⟨new, hnew, hissuer⟩
  rw [htasks] at hnew
  exact Tasks.forall_update (P := fun j new ↦ new.issuer = some issuer →
      ∃ old, s.tasks j = some old ∧ old.issuer = some issuer)
    (fun new hnew ↦ htask new hnew issuer) (fun _ old hold h ↦ ⟨old, hold, h⟩) j new hnew hissuer

theorem issuersFrom_drop {i : ℕ} (htasks : t.tasks = Function.update s.tasks i none) :
    s.IssuersFrom t := issuersFrom_update htasks fun _ h ↦ nomatch h

/-- A task that deals with no issuer. -/
theorem issuersFrom_of_none {i : ℕ} {task : LinkTask} (h : task.issuer = none)
    (htasks : t.tasks = Function.update s.tasks i (some task)) : s.IssuersFrom t := by
  refine issuersFrom_update htasks fun new hnew issuer hissuer ↦ ?_
  obtain rfl := Option.some.inj hnew
  cases h.symm.trans hissuer

theorem issuer_next (profile : LinkProfile) (purpose : LinkPurpose) :
    (purpose.next profile).issuer = none := by cases purpose <;> rfl

/-- The answer of an issuer. -/
def isExchanged : LinkAction → Bool
  | .run _ (.exchanged ..) => true
  | _ => false

/-- What a step does to authorizations, and to the requests that deal with issuers. -/
inductive Asked (s : LinkSystem) (a : LinkAction) (t : LinkSystem) : Prop where
  | authorized (csrfToken issuer : String) (ha : isExchanged a = false) (htasks : t.tasks = s.tasks)
      (hpending : t.pendingOidc = s.pendingOidc.put csrfToken issuer)
      (hauthorized : t.authorized = s.authorized ++ [(csrfToken, issuer)])
      (hconsumed : t.consumed = s.consumed)
  | forgotten (keep : String → String → Bool) (ha : isExchanged a = false)
      (htasks : t.tasks = s.tasks) (hpending : t.pendingOidc = s.pendingOidc.filter keep)
      (hauthorized : t.authorized = s.authorized) (hconsumed : t.consumed = s.consumed)
  | taken (i : ℕ) (csrfToken issuer : String) (purpose : LinkPurpose) (ha : isExchanged a = false)
      (hget : s.pendingOidc.get csrfToken = some issuer)
      (htasks : t.tasks = Function.update s.tasks i (some (.taken issuer purpose)))
      (hpending : t.pendingOidc = s.pendingOidc.filter fun csrfToken' _ ↦ csrfToken' ≠ csrfToken)
      (hauthorized : t.authorized = s.authorized)
      (hconsumed : t.consumed = s.consumed ++ [(csrfToken, issuer)])
  | exchanged (i : ℕ) (issuer : String) (purpose : LinkPurpose) (task : LinkTask)
      (hold : s.tasks i = some (.exchanging issuer purpose)) (hsame : s.Unasked t)
      (htasks : t.tasks = Function.update s.tasks i (some task)) (htask : task.issuer = none)
  | other (ha : isExchanged a = false) (hsame : s.Unasked t) (hissuers : s.IssuersFrom t)

theorem asked_plain {i : ℕ} {task : LinkTask} (h : task.issuer = none)
    (ha : isExchanged a = false) : Asked s a (s.setTask i (some task)) :=
  .other ha ⟨rfl, rfl, rfl⟩ (issuersFrom_of_none h rfl)

theorem asked_self (ha : isExchanged a = false) : Asked s a s :=
  .other ha ⟨rfl, rfl, rfl⟩ fun _ _ h ↦ h

theorem asked_takeAuthorization {i : ℕ} {oidcState : String} {purpose : LinkPurpose}
    (ha : isExchanged a = false) : Asked s a (s.takeAuthorization i oidcState purpose) := by
  rw [takeAuthorization]
  split
  · exact asked_self ha
  · rename_i issuer hget
    exact .taken i oidcState issuer purpose ha hget rfl rfl rfl rfl

theorem asked_startBind {i : ℕ} {token : CurrentUser} {table : LinkTable} {task : LinkTask}
    (h : task.issuer = none) (ha : isExchanged a = false) :
    Asked s a (s.startBind i token table task) := by
  rw [startBind]
  split
  · exact asked_plain h ha
  · exact asked_self ha

theorem asked_receive {i : ℕ} {req : LinkRequest} :
    Asked s (.request i req) (s.receive toLowercase i req) := by
  cases req with
  | loginGoogle email name canRegister => exact asked_plain rfl rfl
  | loginGithub username email canRegister => exact asked_plain rfl rfl
  | loginThirdParty userid username canRegister => exact asked_plain rfl rfl
  | loginMetaMask publicAddress nonce signature canRegister => exact asked_plain rfl rfl
  | loginOpenIdConnect oidcState canRegister => exact asked_takeAuthorization rfl
  | bindGoogle token => exact asked_startBind rfl rfl
  | bindGithub token => exact asked_startBind rfl rfl
  | bindOpenIdConnect token oidcState =>
    rw [receive]
    split
    · exact asked_takeAuthorization rfl
    · exact asked_self rfl
  | bindMetaMask token publicAddress nonce signature => exact asked_startBind rfl rfl

/-- The task of a step that does not deal with issuers goes on to one that does not either, or is
dropped. -/
theorem asked_advance {i : ℕ} {input : LinkInput} {task : LinkTask} (htask : s.tasks i = some task)
    (h : s.advance ph toLowercase recover i input task = some t) : Asked s (.run i input) t := by
  have hsame := (unchallenged_advance h).toUnasked
  rw [advance.eq_def] at h
  split at h
  · obtain rfl := Option.some.inj h
    refine .other rfl hsame ?_
    split
    · exact issuersFrom_of_none (issuer_next _ _) rfl
    · exact issuersFrom_drop rfl
  · obtain rfl := Option.some.inj h
    refine .other rfl hsame ?_
    split
    · exact issuersFrom_drop rfl
    · exact issuersFrom_update rfl fun new hnew issuer hissuer ↦
        ⟨_, htask, (congrArg LinkTask.issuer (Option.some.inj hnew)).trans hissuer⟩
  · obtain rfl := Option.some.inj h
    exact .exchanged i _ _ _ htask hsame rfl (issuer_next _ _)
  · obtain rfl := Option.some.inj h
    exact asked_plain rfl rfl
  · obtain rfl := Option.some.inj h
    exact asked_plain rfl rfl
  · obtain rfl := Option.some.inj h
    refine .other rfl hsame ?_
    split
    · exact issuersFrom_of_none rfl rfl
    · split
      · exact issuersFrom_of_none rfl rfl
      · exact issuersFrom_drop rfl
  · obtain rfl := Option.some.inj h
    refine .other rfl hsame ?_
    split
    · exact issuersFrom_of_none rfl rfl
    · exact issuersFrom_of_none rfl rfl
  · rename_i identity uid
    obtain rfl := Option.some.inj h
    refine .other rfl hsame ?_
    cases s.links.link s.accounts identity uid with
    | none => exact issuersFrom_drop rfl
    | some links => exact issuersFrom_of_none rfl rfl
  · rename_i identity uid
    obtain rfl := Option.some.inj h
    refine .other rfl hsame ?_
    cases s.links.link s.accounts identity uid with
    | none => exact issuersFrom_drop rfl
    | some links => exact issuersFrom_drop rfl
  · obtain ⟨name, -, rfl⟩ := Option.map_eq_some_iff.1 h
    exact asked_plain rfl rfl
  · rename_i userLimit now salt avatar profile name
    obtain rfl := Option.some.inj h
    refine .other rfl hsame ?_
    cases hcreated : s.createLinked ph i userLimit now salt profile
      (profile.createUser name avatar) with
    | none => exact issuersFrom_drop rfl
    | some t =>
      rw [createLinked, Option.bind_eq_bind, Option.bind_eq_some_iff] at hcreated
      obtain ⟨⟨uid, accounts⟩, -, hcreated⟩ := hcreated
      obtain ⟨links, -, ht⟩ := Option.bind_eq_some_iff.1 hcreated
      obtain rfl := Option.some.inj ht
      exact issuersFrom_of_none rfl rfl
  · obtain rfl := Option.some.inj h
    refine .other rfl hsame ?_
    split
    · exact issuersFrom_drop rfl
    · exact issuersFrom_drop rfl
  · obtain rfl := Option.some.inj h
    exact .other rfl hsame (issuersFrom_drop rfl)
  · cases h

theorem asked (h : s.step ph toLowercase recover a = some t) : Asked s a t := by
  cases a with
  | accounts b =>
    obtain rfl := Option.some.inj h
    exact .other rfl ⟨rfl, rfl, rfl⟩ fun _ _ h ↦ h
  | metamaskNonce publicAddress nonce =>
    obtain rfl := Option.some.inj h
    exact .other rfl ⟨rfl, rfl, rfl⟩ fun _ _ h ↦ h
  | openidAuthorize csrfToken issuer =>
    obtain rfl := Option.some.inj h
    exact .authorized csrfToken issuer rfl rfl rfl rfl rfl
  | timeout csrfToken =>
    obtain rfl := Option.some.inj h
    exact .forgotten (fun csrfToken' _ ↦ csrfToken' ≠ csrfToken) rfl rfl rfl rfl rfl
  | request i req =>
    rw [step, Option.ite_none_right_eq_some] at h
    obtain rfl := Option.some.inj h.2
    exact asked_receive
  | run i input =>
    obtain ⟨task, htask, hadvance⟩ := Option.bind_eq_some_iff.1 h
    exact asked_advance htask hadvance

/-! ### Authorizations -/

/-- Authorizations and their use, after the actions `as`. -/
structure AuthorizationInv (as : List LinkAction) (s : LinkSystem) : Prop where
  /-- What is waited for was authorized once more than it was taken. -/
  pending : ∀ e : String × String, s.consumed.count e +
    (if s.pendingOidc.get e.1 = some e.2 then 1 else 0) ≤ s.authorized.count e
  issuers : ∀ i issuer, (∃ task, s.tasks i = some task ∧ task.issuer = some issuer) →
    issuer ∈ s.consumed.map Prod.snd
  /-- Every request that deals with an issuer has taken an authorization, and so has every one that
  has its answer. -/
  exchanges : ∃ dealing : Finset ℕ,
    (∀ i issuer, (∃ task, s.tasks i = some task ∧ task.issuer = some issuer) → i ∈ dealing) ∧
      as.countP isExchanged + dealing.card ≤ s.consumed.length

theorem authorizationInv_start : AuthorizationInv [] start where
  pending _ := le_rfl
  issuers _ _ h := nomatch h
  exchanges := ⟨∅, fun _ _ h ↦ (nomatch h), le_rfl⟩

theorem countP_concat_of_false (ha : isExchanged a = false) :
    (as ++ [a]).countP isExchanged = as.countP isExchanged := by
  rw [List.countP_append, List.countP_singleton, ha]
  rfl

theorem count_concat_pair (l : List (String × String)) (x y : String × String) :
    (l ++ [x]).count y = l.count y + if x = y then 1 else 0 := by
  rw [List.count_append, List.count_singleton]
  simp only [beq_iff_eq]

theorem AuthorizationInv.asked (h : AuthorizationInv as s) (hasked : Asked s a t) :
    AuthorizationInv (as ++ [a]) t := by
  obtain ⟨hpending, hissuers, dealing, hdealing, hexchanges⟩ := h
  cases hasked with
  | authorized csrfToken issuer ha htasks hp hauthorized hconsumed =>
    refine ⟨fun e ↦ ?_, ?_, dealing, ?_, ?_⟩
    · have := hpending e
      rw [hp, hauthorized, hconsumed, count_concat_pair, Table.get_put]
      obtain ⟨csrfToken', issuer'⟩ := e
      by_cases heq : csrfToken' = csrfToken
      · subst heq
        rw [if_pos rfl]
        simp only [Option.some.injEq, Prod.mk.injEq, true_and]
        exact Nat.add_le_add_right (Nat.le_of_add_right_le this) _
      · rw [if_neg heq]
        exact this.trans (Nat.le_add_right _ _)
    · rw [htasks, hconsumed]
      exact hissuers
    · rw [htasks]
      exact hdealing
    · rw [countP_concat_of_false ha, hconsumed]
      exact hexchanges
  | forgotten keep ha htasks hp hauthorized hconsumed =>
    refine ⟨fun e ↦ ?_, ?_, dealing, ?_, ?_⟩
    · refine le_trans ?_ (hauthorized ▸ hpending e)
      rw [hconsumed, hp]
      refine Nat.add_le_add_left ?_ _
      split
      · rename_i hget
        rw [if_pos (Table.get_filter.1 hget).1]
      · exact Nat.zero_le _
    · rw [htasks, hconsumed]
      exact hissuers
    · rw [htasks]
      exact hdealing
    · rw [countP_concat_of_false ha, hconsumed]
      exact hexchanges
  | taken i csrfToken issuer purpose ha hget htasks hp hauthorized hconsumed =>
    refine ⟨fun e ↦ ?_, fun j issuer' hj ↦ ?_, insert i dealing, fun j issuer' hj ↦ ?_, ?_⟩
    · refine le_trans ?_ (hauthorized ▸ hpending e)
      obtain ⟨csrfToken', issuer'⟩ := e
      rw [hconsumed, hp, count_concat_pair, Nat.add_assoc]
      refine Nat.add_le_add_left ?_ _
      by_cases heq : csrfToken' = csrfToken
      · subst heq
        have hgone : ¬(s.pendingOidc.filter fun csrfToken _ ↦ csrfToken ≠ csrfToken').get
            csrfToken' = some issuer' := by
          intro hfilter
          have hne := (Table.get_filter.1 hfilter).2
          exact absurd rfl (of_decide_eq_true hne)
        rw [if_neg hgone, hget]
        simp only [Prod.mk.injEq, true_and, Option.some.injEq, Nat.add_zero, le_refl]
      · rw [if_neg fun hpair ↦ heq (Prod.mk.inj hpair).1.symm, Nat.zero_add]
        split
        · rename_i hfilter
          rw [if_pos (Table.get_filter.1 hfilter).1]
        · exact Nat.zero_le _
    · rw [hconsumed, List.map_append]
      by_cases hi : j = i
      · obtain ⟨task, htask, hissuer⟩ := hj
        rw [htasks, hi, Function.update_self] at htask
        obtain rfl := Option.some.inj htask
        obtain rfl := Option.some.inj hissuer
        exact List.mem_append_right _ List.mem_cons_self
      · rw [htasks, Function.update_of_ne hi] at hj
        exact List.mem_append_left _ (hissuers j issuer' hj)
    · by_cases hi : j = i
      · exact hi ▸ Finset.mem_insert_self j dealing
      · rw [htasks, Function.update_of_ne hi] at hj
        exact Finset.mem_insert_of_mem (hdealing j issuer' hj)
    · have hcard := Finset.card_insert_le i dealing
      rw [countP_concat_of_false ha, hconsumed, List.length_append, List.length_singleton]
      omega
  | exchanged i issuer purpose task hold hsame htasks htask =>
    have hother : ∀ j issuer', (∃ new, t.tasks j = some new ∧ new.issuer = some issuer') → j ≠ i ∧
        ∃ old, s.tasks j = some old ∧ old.issuer = some issuer' := by
      rintro j issuer' ⟨new, hnew, hissuer⟩
      rw [htasks, Function.update_apply] at hnew
      split at hnew
      · obtain rfl := Option.some.inj hnew
        cases htask.symm.trans hissuer
      · rename_i hne
        exact ⟨hne, new, hnew, hissuer⟩
    refine ⟨?_, fun j issuer' hj ↦ ?_, dealing.erase i, fun j issuer' hj ↦ ?_, ?_⟩
    · rw [hsame.pendingOidc, hsame.authorized, hsame.consumed]
      exact hpending
    · rw [hsame.consumed]
      exact hissuers j issuer' (hother j issuer' hj).2
    · obtain ⟨hne, hold'⟩ := hother j issuer' hj
      exact Finset.mem_erase_of_ne_of_mem hne (hdealing j issuer' hold')
    · -- the request that has its answer deals with the issuer no longer
      have hmem : i ∈ dealing := hdealing i issuer ⟨_, hold, rfl⟩
      have hcard := Finset.card_erase_add_one hmem
      have hlast : [a].countP isExchanged ≤ 1 := List.countP_le_length
      rw [List.countP_append, hsame.consumed]
      omega
  | other ha hsame hfrom =>
    refine ⟨?_, fun j issuer hj ↦ ?_, dealing, fun j issuer hj ↦ ?_, ?_⟩
    · rw [hsame.pendingOidc, hsame.authorized, hsame.consumed]
      exact hpending
    · rw [hsame.consumed]
      exact hissuers j issuer (hfrom j issuer hj)
    · exact hdealing j issuer (hfrom j issuer hj)
    · rw [countP_concat_of_false ha, hsame.consumed]
      exact hexchanges

theorem authorizationInv (hrun : run (step ph toLowercase recover) start as = some s) :
    AuthorizationInv as s :=
  run_induction_history authorizationInv_start
    (fun _ _ _ _ _ h hstep ↦ h.asked (LinkSystem.asked hstep)) hrun

theorem consumed_grows (h : Asked s a t) : s.consumed <+: t.consumed := by
  cases h with
  | authorized csrfToken issuer ha htasks hpending hauthorized hconsumed =>
    exact hconsumed ▸ List.prefix_rfl
  | forgotten keep ha htasks hpending hauthorized hconsumed => exact hconsumed ▸ List.prefix_rfl
  | taken i csrfToken issuer purpose ha hget htasks hpending hauthorized hconsumed =>
    exact hconsumed ▸ List.prefix_append _ _
  | exchanged i issuer purpose task hold hsame htasks htask =>
    exact hsame.consumed ▸ List.prefix_rfl
  | other ha hsame hissuers => exact hsame.consumed ▸ List.prefix_rfl

theorem consumed_isPrefix {u : LinkSystem} {bs : List LinkAction}
    (hrun : run (step ph toLowercase recover) u bs = some s) : u.consumed <+: s.consumed :=
  run_induction (I := fun v ↦ u.consumed <+: v.consumed)
    (fun _ _ _ h hstep ↦ h.trans (consumed_grows (LinkSystem.asked hstep))) List.prefix_rfl hrun

/-- **An authorization is good once.** In any run, what came back with a `state` was taken at most
as often as it was authorized with that `state` at that issuer, and an issuer was asked for the
identity at most once for each. Whoever has an identity at an issuer, or was let in with it, came
back from an authorization at this issuer. -/
theorem authorized_of_link (hrun : run (step ph toLowercase recover) start as = some s) :
    (∀ e, s.consumed.count e ≤ s.authorized.count e) ∧
      as.countP isExchanged ≤ s.consumed.length ∧
      ∀ issuer subject uid, s.links.get (.openIdConnect issuer subject) = some uid ∨
          (.openIdConnect issuer subject, uid) ∈ s.entries →
        ∃ oidcState, (oidcState, issuer) ∈ s.consumed := by
  obtain ⟨hpending, -, dealing, -, hexchanges⟩ := authorizationInv hrun
  refine ⟨fun e ↦ Nat.le_of_add_right_le (hpending e), Nat.le_of_add_right_le hexchanges,
    fun issuer subject uid h ↦ ?_⟩
  obtain ⟨⟨bs, a, cs, u, rfl, hbs, hproves⟩, -⟩ := linkHistory_of_run hrun h
  rw [run_append, hbs] at hrun
  cases hproves with
  | openIdConnect i issuer subject email emailVerified name purpose hold =>
    obtain ⟨⟨oidcState, _⟩, hmem, rfl⟩ :=
      List.mem_map.1 ((authorizationInv hbs).issuers i issuer ⟨_, hold, rfl⟩)
    exact ⟨oidcState, (consumed_isPrefix hrun).subset hmem⟩

/-- Somebody comes back from an issuer twice with one `state`. -/
def cameBackTwice : List LinkAction :=
  [.openidAuthorize "c" "idp", .request 0 (.loginOpenIdConnect "c" true),
    .request 1 (.loginOpenIdConnect "c" true), .run 0 .checked,
    .run 0 (.exchanged "ann" none false none)]

theorem authorized_of_link_cameBackTwice : ∃ s, run (step .transparent id fun _ _ ↦ none) start
    cameBackTwice = some s ∧ s.consumed = [("c", "idp")] ∧
      s.consumed.count ("c", "idp") ≤ s.authorized.count ("c", "idp") := by
  obtain ⟨s, hs, hconsumed⟩ : ∃ s, run (step .transparent id fun _ _ ↦ none) start cameBackTwice =
      some s ∧ s.consumed = [("c", "idp")] := ⟨_, rfl, rfl⟩
  exact ⟨s, hs, hconsumed, (authorized_of_link hs).1 _⟩

/-! ### Nonces -/

/-- The nonces that were issued for an address. -/
def issued (toLowercase : String → String) (as : List LinkAction) (publicAddress : String) :
    List String :=
  as.filterMap fun
    | .metamaskNonce publicAddress' nonce =>
      if toLowercase publicAddress' = publicAddress then some nonce else none
    | _ => none

theorem nonces_takeAuthorization (s : LinkSystem) (i : ℕ) (oidcState : String)
    (purpose : LinkPurpose) : (s.takeAuthorization i oidcState purpose).nonces = s.nonces := by
  rw [takeAuthorization]
  split <;> rfl

theorem nonces_startBind (s : LinkSystem) (i : ℕ) (token : CurrentUser) (table : LinkTable)
    (task : LinkTask) : (s.startBind i token table task).nonces = s.nonces := by
  rw [startBind]
  split <;> rfl

theorem nonces_receive (s : LinkSystem) (i : ℕ) (req : LinkRequest) :
    (s.receive toLowercase i req).nonces = s.nonces := by
  cases req with
  | loginGoogle email name canRegister => rfl
  | loginGithub username email canRegister => rfl
  | loginThirdParty userid username canRegister => rfl
  | loginMetaMask publicAddress nonce signature canRegister => rfl
  | loginOpenIdConnect oidcState canRegister => exact nonces_takeAuthorization s i oidcState _
  | bindGoogle token => exact nonces_startBind s i token _ _
  | bindGithub token => exact nonces_startBind s i token _ _
  | bindOpenIdConnect token oidcState =>
    rw [receive]
    split
    · exact nonces_takeAuthorization s i oidcState _
    · rfl
  | bindMetaMask token publicAddress nonce signature => exact nonces_startBind s i token _ _

/-- Only a new nonce changes them. -/
theorem nonces_step (h : s.step ph toLowercase recover a = some t) :
    t.nonces = s.nonces ∧ (∀ publicAddress, issued toLowercase [a] publicAddress = []) ∨
      ∃ publicAddress nonce, a = .metamaskNonce publicAddress nonce ∧
        t.nonces = s.nonces.put (toLowercase publicAddress) nonce := by
  cases a with
  | accounts b => exact .inl ⟨Option.some.inj h ▸ rfl, fun _ ↦ rfl⟩
  | metamaskNonce publicAddress nonce =>
    exact .inr ⟨publicAddress, nonce, rfl, Option.some.inj h ▸ rfl⟩
  | openidAuthorize csrfToken issuer => exact .inl ⟨Option.some.inj h ▸ rfl, fun _ ↦ rfl⟩
  | timeout csrfToken => exact .inl ⟨Option.some.inj h ▸ rfl, fun _ ↦ rfl⟩
  | request i req =>
    rw [step, Option.ite_none_right_eq_some] at h
    obtain rfl := Option.some.inj h.2
    exact .inl ⟨nonces_receive s i req, fun _ ↦ rfl⟩
  | run i input =>
    obtain ⟨task, -, hadvance⟩ := Option.bind_eq_some_iff.1 h
    exact .inl ⟨(unchallenged_advance hadvance).nonces, fun _ ↦ rfl⟩

theorem issued_metamaskNonce (publicAddress address nonce : String) :
    issued toLowercase [.metamaskNonce address nonce] publicAddress =
      if toLowercase address = publicAddress then [nonce] else [] := by
  rw [issued, List.filterMap_cons]
  split <;> split <;> simp_all

/-- The nonce that is stored for an address is the last that was issued for it. -/
theorem nonces_eq_last (hrun : run (step ph toLowercase recover) start as = some s)
    (publicAddress : String) :
    s.nonces.get publicAddress = (issued toLowercase as publicAddress).getLast? := by
  refine run_induction_history (I := fun as s ↦
    s.nonces.get publicAddress = (issued toLowercase as publicAddress).getLast?) rfl
    (fun as s a t _ h hstep ↦ ?_) hrun
  have happend : issued toLowercase (as ++ [a]) publicAddress =
      issued toLowercase as publicAddress ++ issued toLowercase [a] publicAddress :=
    List.filterMap_append
  rw [happend]
  rcases nonces_step hstep with ⟨hsame, hnone⟩ | ⟨address, nonce, rfl, hput⟩
  · rw [hsame, hnone, List.append_nil]
    exact h
  · rw [hput, Table.get_put, issued_metamaskNonce]
    by_cases heq : publicAddress = toLowercase address
    · rw [if_pos heq, if_pos heq.symm, List.getLast?_append]
      rfl
    · rw [if_neg heq, if_neg fun h ↦ heq h.symm, List.append_nil]
      exact h

/-- **What a wallet has to sign.** In any run, a request that is to prove an address goes on as
proved exactly if the nonce in it is the last that was issued for the address, and the address has
signed it; whether that proof was used before makes no difference. Otherwise it is dropped. -/
theorem proved_iff (hrun : run (step ph toLowercase recover) start as = some s) {i : ℕ}
    {publicAddress nonce signature : String} {purpose : LinkPurpose}
    (htask : s.tasks i = some (.proving publicAddress nonce signature purpose)) :
    ∃ t, s.step ph toLowercase recover (.run i .proved) = some t ∧
      (t = s.setTask i (some (purpose.next (.metaMask publicAddress))) ∧
          (issued toLowercase as publicAddress).getLast? = some nonce ∧
          SignedBy recover publicAddress nonce signature ∨
        t = s.setTask i none ∧
          ¬((issued toLowercase as publicAddress).getLast? = some nonce ∧
            SignedBy recover publicAddress nonce signature)) := by
  have hcheck : checkMetamaskPublicAddress recover s.nonces publicAddress nonce signature = true ↔
      (issued toLowercase as publicAddress).getLast? = some nonce ∧
        SignedBy recover publicAddress nonce signature := by
    rw [checkMetamaskPublicAddress_eq_true, nonces_eq_last hrun]
  have hstep : s.step ph toLowercase recover (.run i .proved) = some (s.setTask i
      (if checkMetamaskPublicAddress recover s.nonces publicAddress nonce signature then
        some (purpose.next (.metaMask publicAddress)) else none)) := by
    rw [step, htask]
    rfl
  refine ⟨_, hstep, ?_⟩
  by_cases h : checkMetamaskPublicAddress recover s.nonces publicAddress nonce signature = true
  · rw [if_pos h]
    exact .inl ⟨rfl, hcheck.1 h⟩
  · rw [if_neg h]
    exact .inr ⟨rfl, fun h' ↦ h (hcheck.2 h')⟩

/-- A signature that is taken for one by the address `0x00`. -/
def zeroSignature : String := String.ofList ('0' :: 'x' :: Hex.encode (List.replicate 64 0))

theorem proved_iff_zeroSignature : ∃ s t, run (step .transparent id fun _ _ ↦ some [0]) start
    [.metamaskNonce "0x00" "n", .request 0 (.loginMetaMask "0x00" "n" zeroSignature true)] =
      some s ∧
      s.step .transparent id (fun _ _ ↦ some [0]) (.run 0 .proved) = some t ∧
      t.tasks 0 = some (.verified (.metaMask "0x00") true) := by
  obtain ⟨s, hs, htask⟩ : ∃ s, run (step .transparent id fun _ _ ↦ some [0]) start
      [.metamaskNonce "0x00" "n", .request 0 (.loginMetaMask "0x00" "n" zeroSignature true)] =
        some s ∧ s.tasks 0 = some (.proving "0x00" "n" zeroSignature (.login true)) :=
    ⟨_, rfl, rfl⟩
  have hsigned : SignedBy (fun _ _ ↦ some [0]) "0x00" "n" zeroSignature :=
    ⟨_, List.replicate 64 0, [0], String.toList_ofList, Hex.decode_encode _, by decide, rfl, rfl⟩
  obtain ⟨t, ht, ⟨rfl, -⟩ | ⟨-, hnot⟩⟩ := proved_iff hs htask
  · exact ⟨s, _, hs, ht, rfl⟩
  · exact absurd ⟨rfl, hsigned⟩ hnot

end LinkSystem

end VoceChat
