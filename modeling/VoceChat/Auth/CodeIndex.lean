import VoceChat.Auth.MagicCodes

/-!
# The index of magic codes by e-mail (`src/state.rs`)

Besides the codes there is an index of the last code that was sent to each e-mail. They are kept
together by the functions that add, remove and clean codes, but not always: a check drops a code
that has expired from the codes only; codes of six digits can come up again, and the one that is
added takes the place of the one before, whoever that was for; and a clean-up reads the clock again
for each of its two passes.

A step is careful if none of that happens at it (`CodeSystem.Careful`). From a consistent state that
is exactly when the step keeps the index consistent and leaves the codes of other e-mails alone
(`keeps_iff`), so a run does throughout exactly when all its steps are careful (`along_keeps_iff`).
-/

namespace VoceChat

open Transition

/-- The code has expired or is used up. -/
def CodeValue.Unusable (v : CodeValue) (now : ℤ) : Prop := v.expiredAt < now ∨ v.remainTimes ≤ 0

/-- The code after it was accepted. -/
def CodeValue.used (v : CodeValue) : CodeValue := { v with remainTimes := v.remainTimes - (-1) }

namespace CodeCache

/-- Each e-mail's code in the index is a code for this e-mail. -/
def Consistent (cache : CodeCache) : Prop :=
  ∀ email code, cache.emailCode.get email = some code →
    ∃ v, cache.codes.get code = some v ∧ v.email = email

/-- The codes of all e-mails but this are the same, and so is the index. -/
structure SparesOthers (email : String) (cache cache' : CodeCache) : Prop where
  codes : ∀ code v, cache.codes.get code = some v → v.email ≠ email →
    cache'.codes.get code = some v
  emailCode : ∀ email', email' ≠ email → cache'.emailCode.get email' = cache.emailCode.get email'

/-- A check of the code leaves it, or drops a code that the index does not have. -/
def CheckKeeps (now : ℤ) (code : String) (cache : CodeCache) : Prop :=
  ∀ v, cache.codes.get code = some v → v.Unusable now → cache.emailCode.get v.email ≠ some code

end CodeCache

namespace CodeSystem

/-- An operation for an e-mail, which registration codes have empty, spares the codes of the others.
A clean-up is for none, and keeps the codes that are still good when it gets to them. -/
def Spares (s : CodeSystem) : CodeAction → CodeSystem → Prop
  | .regMagicCodeAdd _ _ _, t => s.cache.SparesOthers "" t.cache
  | .loginMagicCodeAdd _ email _ _, t => s.cache.SparesOthers email t.cache
  | .check _ code, t | .login _ _ code, t | .loginMagicCodeRemove code, t =>
    ∀ email, (∀ v, s.cache.codes.get code = some v → v.email = email) →
      s.cache.SparesOthers email t.cache
  | .magicCodeClean _ now', t => ∀ code v, s.cache.codes.get code = some v →
      now' code ≤ v.expiredAt → 0 < v.remainTimes → t.cache.codes.get code = some v

/-- What is expected of a step. -/
def Keeps (s : CodeSystem) (a : CodeAction) : Prop :=
  (s.perform a).cache.Consistent ∧ s.Spares a (s.perform a)

/-- A code that is added is not that of another e-mail; a check does not drop a code that the index
has, nor does the second check of a login; and the e-mail of a code of the index that expires in a
clean-up is among those that the first pass finds. -/
def Careful (s : CodeSystem) : CodeAction → Prop
  | .regMagicCodeAdd code _ _ => ∀ v, s.cache.codes.get code = some v → v.email = ""
  | .loginMagicCodeAdd code email _ _ => ∀ v, s.cache.codes.get code = some v → v.email = email
  | .check now code => s.cache.CheckKeeps now code
  | .login now now' code => s.cache.CheckKeeps now code ∧
      ∀ v, s.cache.codes.get code = some v → v.used.Unusable now' →
        s.cache.emailCode.get v.email ≠ some code
  | .loginMagicCodeRemove _ => True
  | .magicCodeClean now now' => ∀ code v, s.cache.codes.get code = some v →
      s.cache.emailCode.get v.email = some code → v.expiredAt < now' code →
        ∃ code' w, s.cache.codes.get code' = some w ∧ w.Unusable (now code') ∧ w.email = v.email

/-! ### The index -/

variable {s : CodeSystem} {cache : CodeCache} {now now' : ℤ} {code email : String}

/-- Dropping a code is seen in the index if it was there. -/
theorem consistent_eraseCode_iff (h : cache.Consistent) {v : CodeValue}
    (hget : cache.codes.get code = some v) :
    (cache.eraseCode code).Consistent ↔ cache.emailCode.get v.email ≠ some code := by
  constructor
  · intro herased hindex
    obtain ⟨w, hw, -⟩ := herased v.email code hindex
    exact ((get_eraseCode cache).1 hw).2 rfl
  · intro hindex email' code' hcode'
    obtain ⟨w, hw, hemail⟩ := h email' code' hcode'
    refine ⟨w, (get_eraseCode cache).2 ⟨hw, fun heq ↦ hindex ?_⟩, hemail⟩
    obtain rfl : w = v := Option.some_inj.1 (hw.symm.trans (heq ▸ hget))
    rw [hemail, ← heq]
    exact hcode'

/-- What a check does: a code that is not accepted is not stored after it, and may have been
dropped; the other is used. -/
theorem check_outcome (s : CodeSystem) (now : ℤ) (code : String) :
    ((s.check now code).1 = false ∧ ((s.check now code).2.cache.codes.get code = none) ∧
      (s.cache.codes.get code = none ∧ (s.check now code).2.cache = s.cache ∨
      ∃ v, s.cache.codes.get code = some v ∧ v.Unusable now ∧
        (s.check now code).2.cache = s.cache.eraseCode code)) ∨
    ((s.check now code).1 = true ∧ ∃ v, s.cache.codes.get code = some v ∧ ¬v.Unusable now ∧
      (s.check now code).2.cache = ⟨s.cache.codes.put code v.used, s.cache.emailCode⟩) := by
  have hnone : (s.cache.eraseCode code).codes.get code = none :=
    Option.eq_none_iff_forall_ne_some.2 fun v hv ↦ ((get_eraseCode s.cache).1 hv).2 rfl
  have hzero : ∀ v : CodeValue, v.remainTimes ≤ 0 ↔ v.remainTimes.toInt ≤ 0 := fun _ ↦
    Int32.le_iff_toInt_le
  obtain ⟨hget, hs⟩ | ⟨v, hget, ⟨hexpired, hs⟩ | ⟨-, hremain, hs⟩ | ⟨hlive, hremain, hs⟩⟩ :=
    s.check_cases now code
  · rw [hs]
    exact .inl ⟨rfl, hget, .inl ⟨hget, rfl⟩⟩
  · rw [hs]
    exact .inl ⟨rfl, hnone, .inr ⟨v, hget, .inl hexpired, rfl⟩⟩
  · rw [hs]
    exact .inl ⟨rfl, hnone, .inr ⟨v, hget, .inr ((hzero v).2 hremain), rfl⟩⟩
  · rw [hs]
    refine .inr ⟨rfl, v, hget, ?_, rfl⟩
    rw [CodeValue.Unusable, hzero]
    omega

theorem consistent_put_used (h : cache.Consistent) {v : CodeValue}
    (hget : cache.codes.get code = some v) :
    CodeCache.Consistent ⟨cache.codes.put code v.used, cache.emailCode⟩ := by
  intro email' code' hcode'
  obtain ⟨w, hw, hemail⟩ := h email' code' hcode'
  by_cases heq : code' = code
  · subst heq
    obtain rfl := Option.some_inj.1 (hget.symm.trans hw)
    exact ⟨_, Table.get_put_self _ _ _, hemail⟩
  · exact ⟨w, (Table.get_put_of_ne _ _ heq).trans hw, hemail⟩

theorem checkKeeps_iff {v : CodeValue} (hget : cache.codes.get code = some v) :
    cache.CheckKeeps now code ↔ (v.Unusable now → cache.emailCode.get v.email ≠ some code) := by
  refine ⟨fun hcheck ↦ hcheck v hget, fun hv w hw ↦ ?_⟩
  obtain rfl := Option.some_inj.1 (hget.symm.trans hw)
  exact hv

/-- **A check** keeps the index consistent exactly when it does not drop one of its codes. -/
theorem consistent_check_iff (h : s.cache.Consistent) (now : ℤ) (code : String) :
    (s.check now code).2.cache.Consistent ↔ s.cache.CheckKeeps now code := by
  obtain ⟨-, -, ⟨hget, hcache⟩ | ⟨v, hget, hunusable, hcache⟩⟩ | ⟨-, v, hget, husable, hcache⟩ :=
    s.check_outcome now code
  · rw [hcache]
    refine iff_of_true h fun v hv ↦ ?_
    rw [hget] at hv
    cases hv
  · rw [hcache, consistent_eraseCode_iff h hget, checkKeeps_iff hget]
    exact ⟨fun hne _ ↦ hne, fun hv ↦ hv hunusable⟩
  · rw [hcache, checkKeeps_iff hget]
    exact iff_of_true (consistent_put_used h hget) fun hunusable ↦ absurd hunusable husable

/-- A code that is removed is removed from the index too. -/
theorem consistent_remove (h : s.cache.Consistent) (code : String) :
    (s.remove code).cache.Consistent := by
  rw [remove, CodeCache.loginMagicCodeRemove]
  split
  · rename_i v hget
    intro email' code' hcode'
    obtain ⟨hindex, hne⟩ := Table.get_filter.1 hcode'
    obtain ⟨w, hw, hemail⟩ := h email' code' hindex
    refine ⟨w, (get_eraseCode s.cache).2 ⟨hw, ?_⟩, hemail⟩
    rintro rfl
    obtain rfl := Option.some_inj.1 (hget.symm.trans hw)
    exact of_decide_eq_true hne hemail.symm
  · exact h

/-- **A clean-up** keeps the index consistent exactly when it finds the e-mails of all codes of the
index that it drops. -/
theorem consistent_magicCodeClean_iff (h : cache.Consistent) (now now' : String → ℤ) :
    (cache.magicCodeClean now now').Consistent ↔
      ∀ code v, cache.codes.get code = some v → cache.emailCode.get v.email = some code →
        v.expiredAt < now' code →
          ∃ code' w, cache.codes.get code' = some w ∧ w.Unusable (now code') ∧
          w.email = v.email := by
  have hcodes : ∀ code v, (cache.magicCodeClean now now').codes.get code = some v ↔
      cache.codes.get code = some v ∧ now' code ≤ v.expiredAt ∧ 0 < v.remainTimes := by
    intro code v
    rw [CodeCache.magicCodeClean, Table.get_filter, Bool.and_eq_true, decide_eq_true_iff,
      decide_eq_true_iff]
  have hindex : ∀ email code, (cache.magicCodeClean now now').emailCode.get email = some code ↔
      cache.emailCode.get email = some code ∧
        ¬∃ code' w, cache.codes.get code' = some w ∧ w.Unusable (now code') ∧ w.email = email := by
    intro email code
    rw [CodeCache.magicCodeClean, Table.get_filter, decide_eq_true_iff, List.mem_map]
    refine and_congr_right fun _ ↦ not_congr ⟨?_, ?_⟩
    · rintro ⟨⟨code', w⟩, hmem, rfl⟩
      obtain ⟨hrow, hunusable⟩ := List.mem_filter.1 hmem
      exact ⟨code', w, Table.get_eq_some.2 hrow, by simpa [CodeValue.Unusable] using hunusable, rfl⟩
    · rintro ⟨code', w, hget, hunusable, rfl⟩
      refine ⟨(code', w), List.mem_filter.2 ⟨Table.get_eq_some.1 hget, ?_⟩, rfl⟩
      simpa [CodeValue.Unusable] using hunusable
  constructor
  · intro hclean code v hget hcode hexpired
    by_contra hmem
    obtain ⟨w, hw, -⟩ := hclean v.email code ((hindex _ _).2 ⟨hcode, hmem⟩)
    obtain ⟨hw, hlive, -⟩ := (hcodes _ _).1 hw
    obtain rfl := Option.some_inj.1 (hget.symm.trans hw)
    exact absurd hexpired (not_lt.2 hlive)
  · intro hfound email code hcode
    obtain ⟨hcode, hmem⟩ := (hindex _ _).1 hcode
    obtain ⟨v, hget, rfl⟩ := h email code hcode
    refine ⟨v, (hcodes _ _).2 ⟨hget, ?_, ?_⟩, rfl⟩
    · exact not_lt.1 fun hexpired ↦ hmem (hfound code v hget hcode hexpired)
    · exact Int32.not_le.1 fun hremain ↦ hmem ⟨code, v, hget, .inr hremain, rfl⟩

/-! ### The codes of others -/

/-- What leaves everything but one code as it was spares the codes of all but its e-mail. -/
theorem Unaffected.spares {t : CodeSystem} (h : Unaffected code s t)
    (hemail : ∀ v, s.cache.codes.get code = some v → v.email = email) :
    s.cache.SparesOthers email t.cache where
  codes code' v hget hne := by
    refine (h.codes code' fun heq ↦ hne ?_).trans hget
    exact hemail v (heq ▸ hget)
  emailCode email' hne := h.emailCode email' fun v hv heq ↦ hne (heq.symm.trans (hemail v hv))

/-- A code of another e-mail is lost when one of the same digits is added. -/
theorem email_eq_of_sparesOthers {codes : Table String CodeValue} {emailCode : Table String String}
    {w : CodeValue} (h : cache.SparesOthers email ⟨codes.put code w, emailCode⟩)
    (hw : w.email = email) : ∀ v, cache.codes.get code = some v → v.email = email := by
  intro v hget
  by_contra hne
  have hspared := h.codes code v hget hne
  obtain rfl : w = v := Option.some_inj.1 ((Table.get_put_self _ _ _).symm.trans hspared)
  exact hne hw

theorem regMagicCodeAdd_keeps_iff (h : cache.Consistent) (code : String) (expiredAt : ℤ)
    (maxTimes : Int32) :
    (cache.regMagicCodeAdd code expiredAt maxTimes).Consistent ∧
        cache.SparesOthers "" (cache.regMagicCodeAdd code expiredAt maxTimes) ↔
      ∀ v, cache.codes.get code = some v → v.email = "" := by
  refine ⟨fun hkeeps ↦ email_eq_of_sparesOthers hkeeps.2 rfl, fun hown ↦ ⟨?_, ?_, fun _ _ ↦ rfl⟩⟩
  · intro email' code' hcode'
    obtain ⟨v, hget, hemail⟩ := h email' code' hcode'
    by_cases heq : code' = code
    · subst heq
      exact ⟨_, Table.get_put_self _ _ _, (hown v hget).symm.trans hemail⟩
    · exact ⟨v, (Table.get_put_of_ne _ _ heq).trans hget, hemail⟩
  · intro code' v hget hne
    refine (Table.get_put_of_ne _ _ ?_).trans hget
    rintro rfl
    exact hne (hown v hget)

/-- Only the last code of the e-mail is removed before the new one is added. -/
theorem get_loginMagicCodeAdd (h : cache.Consistent) {code' : String} {v : CodeValue}
    (hget : cache.codes.get code' = some v) (hemail : v.email ≠ email) (hcode : code' ≠ code)
    (expiredAt : ℤ) (maxTimes : Int32) :
    (cache.loginMagicCodeAdd code email expiredAt maxTimes).codes.get code' = some v := by
  refine (Table.get_put_of_ne _ _ hcode).trans ?_
  cases hlast : cache.emailCode.get email with
  | none => exact hget
  | some lastCode =>
    refine (get_eraseCode cache).2 ⟨hget, fun heq ↦ hemail ?_⟩
    obtain ⟨w, hw, hindex⟩ := h email lastCode hlast
    obtain rfl : w = v := Option.some_inj.1 (hw.symm.trans (heq ▸ hget))
    exact hindex

theorem loginMagicCodeAdd_keeps_iff (h : cache.Consistent) (code email : String) (expiredAt : ℤ)
    (maxTimes : Int32) :
    (cache.loginMagicCodeAdd code email expiredAt maxTimes).Consistent ∧
        cache.SparesOthers email (cache.loginMagicCodeAdd code email expiredAt maxTimes) ↔
      ∀ v, cache.codes.get code = some v → v.email = email := by
  refine ⟨fun hkeeps ↦ email_eq_of_sparesOthers hkeeps.2 rfl, fun hown ↦ ?_⟩
  have hcodes : ∀ code' v, cache.codes.get code' = some v → v.email ≠ email →
      (cache.loginMagicCodeAdd code email expiredAt maxTimes).codes.get code' = some v := by
    intro code' v hget hne
    refine get_loginMagicCodeAdd h hget hne ?_ expiredAt maxTimes
    rintro rfl
    exact hne (hown v hget)
  refine ⟨fun email' code' hcode' ↦ ?_, hcodes, fun email' hne ↦ Table.get_put_of_ne _ _ hne⟩
  by_cases heq : email' = email
  · subst heq
    obtain rfl := Option.some_inj.1 ((Table.get_put_self _ _ _).symm.trans hcode')
    exact ⟨_, Table.get_put_self _ _ _, rfl⟩
  · obtain ⟨v, hget, rfl⟩ := h email' code' ((Table.get_put_of_ne _ _ heq).symm.trans hcode')
    exact ⟨v, hcodes code' v hget heq, rfl⟩

/-! ### All steps -/

theorem login_of_rejected (h : (s.check now code).1 = false) :
    (s.login now now' code).2 = (s.check now code).2 := by
  rw [login]
  rcases hfirst : s.check now code with ⟨accepted, t⟩
  rw [hfirst] at h
  obtain rfl : accepted = false := h
  rfl

/-- A removal after a check that fails finds nothing to remove. -/
theorem login_of_accepted (h : (s.check now code).1 = true) :
    (s.login now now' code).2 = ((s.check now code).2.check now' code).2 := by
  rw [login]
  rcases hfirst : s.check now code with ⟨accepted, t⟩
  rw [hfirst] at h
  obtain rfl : accepted = true := h
  have houtcome := t.check_outcome now' code
  rcases hsecond : t.check now' code with ⟨accepted, u⟩
  rw [hsecond] at houtcome
  cases accepted with
  | true => simp only [hsecond]
  | false =>
    obtain ⟨-, hget, -⟩ | ⟨haccepted, -⟩ := houtcome
    · have hget : u.cache.codes.get code = none := hget
      simp only [hsecond, remove, CodeCache.loginMagicCodeRemove, hget]
    · cases haccepted

theorem consistent_login_iff (h : s.cache.Consistent) (now now' : ℤ) (code : String) :
    (s.login now now' code).2.cache.Consistent ↔ s.cache.CheckKeeps now code ∧
      ∀ v, s.cache.codes.get code = some v → v.used.Unusable now' →
        s.cache.emailCode.get v.email ≠ some code := by
  have hfirst := consistent_check_iff h now code
  obtain ⟨hrejected, -, hdropped⟩ | ⟨haccepted, v, hget, husable, hcache⟩ :=
    s.check_outcome now code
  · rw [login_of_rejected hrejected, hfirst]
    refine (and_iff_left_of_imp fun hkeeps w hw _ ↦ ?_).symm
    obtain ⟨hget, -⟩ | ⟨v, hget, hunusable, -⟩ := hdropped
    · rw [hget] at hw
      cases hw
    · obtain rfl := Option.some_inj.1 (hget.symm.trans hw)
      exact hkeeps v hget hunusable
  · have hkeeps : s.cache.CheckKeeps now code :=
      (checkKeeps_iff hget).2 fun hunusable ↦ absurd hunusable husable
    have hput : (s.check now code).2.cache.codes.get code = some v.used := by
      rw [hcache]
      exact Table.get_put_self _ _ _
    rw [login_of_accepted haccepted, consistent_check_iff (hfirst.2 hkeeps), checkKeeps_iff hput,
      and_iff_right hkeeps, hcache]
    refine ⟨fun hv w hw ↦ ?_, fun hall ↦ hall v hget⟩
    obtain rfl := Option.some_inj.1 (hget.symm.trans hw)
    exact hv

/-- **What a step keeps**: exactly the careful steps keep the index consistent and spare the codes
of other e-mails. -/
theorem keeps_iff (h : s.cache.Consistent) (a : CodeAction) : s.Keeps a ↔ s.Careful a := by
  cases a with
  | regMagicCodeAdd code expiredAt maxTimes =>
    exact regMagicCodeAdd_keeps_iff h code expiredAt maxTimes
  | loginMagicCodeAdd code email expiredAt maxTimes =>
    exact loginMagicCodeAdd_keeps_iff h code email expiredAt maxTimes
  | check now code =>
    refine (and_iff_left fun email hemail ↦ ?_).trans (consistent_check_iff h now code)
    exact (s.unaffected_check now code).spares hemail
  | login now now' code =>
    refine (and_iff_left fun email hemail ↦ ?_).trans (consistent_login_iff h now now' code)
    exact (s.unaffected_login now now' code).spares hemail
  | loginMagicCodeRemove code =>
    refine iff_of_true ⟨consistent_remove h code, fun email hemail ↦ ?_⟩ trivial
    exact (s.unaffected_remove code).spares hemail
  | magicCodeClean now now' =>
    refine (and_iff_left fun code v hget hlive hremain ↦ ?_).trans
      (consistent_magicCodeClean_iff h now now')
    exact Table.get_filter.2 ⟨hget, by simp [hlive, hremain]⟩

/-- **The index of codes**: in every run, all steps keep the index consistent and spare the codes of
other e-mails exactly when all steps are careful. -/
theorem along_keeps_iff (as : List CodeAction) :
    Along (total perform) Keeps start as ↔ Along (total perform) Careful start as := by
  refine along_congr_of_keeps (I := fun s : CodeSystem ↦ s.cache.Consistent)
    (fun s a t _ hkeeps ht ↦ Option.some_inj.1 ht ▸ hkeeps.1) (fun s a h ↦ keeps_iff h a) ?_ as
  intro email code hcode
  cases hcode

/-- Two people get the same digits: the first one's code is gone, and in the index the first one has
the code of the second. -/
theorem not_keeps_sameDigits :
    (¬∀ as, (after as).cache.Consistent) ∧ ¬∀ as a, (after as).Spares a ((after as).perform a) := by
  have hfirst : (after [.loginMagicCodeAdd "123456" "a@b.c" 100 1]).cache.codes.get "123456" =
      some ⟨1, 100, "a@b.c"⟩ := by decide +kernel
  have hsecond : (after [.loginMagicCodeAdd "123456" "a@b.c" 100 1,
      .loginMagicCodeAdd "123456" "d@e.f" 100 1]).cache.codes.get "123456" =
        some ⟨1, 100, "d@e.f"⟩ := by decide +kernel
  refine ⟨fun h ↦ ?_, fun h ↦ ?_⟩
  · obtain ⟨v, hget, hemail⟩ := h [.loginMagicCodeAdd "123456" "a@b.c" 100 1,
      .loginMagicCodeAdd "123456" "d@e.f" 100 1] "a@b.c" "123456" (by decide +kernel)
    obtain rfl := Option.some_inj.1 (hsecond.symm.trans hget)
    exact absurd hemail (by decide)
  · have hspared := (h [.loginMagicCodeAdd "123456" "a@b.c" 100 1]
      (.loginMagicCodeAdd "123456" "d@e.f" 100 1)).codes "123456" _ hfirst (by decide)
    exact absurd (hsecond.symm.trans hspared) (by decide)

end CodeSystem

end VoceChat
