import VoceChat.Accounts.PasswordHash

/-!
# Upgrades of stored passwords (`verify_and_upgrade` in `src/password_hash.rs`)

A stored value does not say by which scheme it was made; its shape does (`schemeOf`). So a legacy
password that has the shape of a hash is taken for one, and is not accepted itself.

The hash functions have no collisions and no fixed points among the strings that are submitted as
passwords (`Ideal`); of all strings that cannot hold. Then an upgraded value is accepted for the
same passwords as the value before it and is not upgraded again, only the password that the scheme
of the shape makes a value from is accepted, and no hash is accepted as the password of itself
(`compatible`).
-/

namespace VoceChat

/-- How a password is stored. -/
inductive PasswordScheme where
  | plaintext
  | doubleMd5
  | argon2id
  deriving DecidableEq, Repr

/-- The scheme that a stored value is taken to be of. -/
def schemeOf (stored : String) : PasswordScheme :=
  if looksLikeArgon2id stored then .argon2id
  else if looksLikeDoubleMd5 stored then .doubleMd5
  else .plaintext

namespace PasswordHashing

variable (ph : PasswordHashing)

/-- The value is made from the password. -/
def StoredAs (password stored : String) : PasswordScheme → Prop
  | .plaintext => stored = password
  | .doubleMd5 => stored = ph.doubleMd5Hex password
  | .argon2id => ph.IsHashOf password stored

/-- No collisions and no fixed points among the strings that are submitted. -/
structure Ideal (Submitted : String → Prop) : Prop where
  lawful : ph.Lawful
  looksLike_doubleMd5Hex : ∀ password, looksLikeDoubleMd5 (ph.doubleMd5Hex password) = true
  injective : ∀ {p q : String}, Submitted p → Submitted q → ph.doubleMd5Hex p = ph.doubleMd5Hex q →
    p = q
  doubleMd5Hex_ne : ∀ p, Submitted p → ph.doubleMd5Hex p ≠ p
  not_verify_self : ∀ p, Submitted p → ph.verify p p = false

/-- What is expected of the checks of passwords against a stored value. -/
structure Compatible (Submitted : String → Prop) (stored : String) : Prop where
  same_accepted : ∀ salt plaintext upgraded, Submitted plaintext →
    (ph.verifyAndUpgrade salt plaintext stored).upgradedHash = some upgraded →
      ∀ salt' candidate, Submitted candidate →
        (ph.verifyAndUpgrade salt' candidate upgraded).matched =
          (ph.verifyAndUpgrade salt' candidate stored).matched
  upgraded_once : ∀ salt plaintext upgraded,
    (ph.verifyAndUpgrade salt plaintext stored).upgradedHash = some upgraded →
      ∀ salt' candidate, (ph.verifyAndUpgrade salt' candidate upgraded).upgradedHash = none
  only_password : ∀ password, Submitted password → ph.StoredAs password stored (schemeOf stored) →
    ∀ salt candidate, Submitted candidate →
      (ph.verifyAndUpgrade salt candidate stored).matched = true → candidate = password
  not_itself : schemeOf stored ≠ .plaintext → Submitted stored →
    ∀ salt, (ph.verifyAndUpgrade salt stored stored).matched = false

variable {ph} {Submitted : String → Prop} {salt plaintext stored upgraded password : String}

/-! ### Checking by the shape -/

/-- What is compared, for a value of each scheme. -/
def AcceptsAs (ph : PasswordHashing) (plaintext stored : String) : PasswordScheme → Prop
  | .plaintext => stored = plaintext
  | .doubleMd5 => ph.doubleMd5Hex plaintext = stored
  | .argon2id => ph.verify plaintext stored = true

theorem matched_iff : (ph.verifyAndUpgrade salt plaintext stored).matched = true ↔
    ph.AcceptsAs plaintext stored (schemeOf stored) := by
  unfold verifyAndUpgrade schemeOf
  by_cases hargon : looksLikeArgon2id stored = true
  · rw [if_pos hargon, if_pos hargon]
    exact Iff.rfl
  · rw [if_neg hargon, if_neg hargon]
    by_cases hmd5 : looksLikeDoubleMd5 stored = true
    · rw [if_pos hmd5, if_pos hmd5]
      by_cases heq : ph.doubleMd5Hex plaintext = stored
      · rw [decide_eq_true heq]
        exact iff_of_true rfl heq
      · rw [decide_eq_false heq]
        exact iff_of_false Bool.false_ne_true heq
    · rw [if_neg hmd5, if_neg hmd5]
      by_cases heq : stored = plaintext
      · rw [decide_eq_true heq]
        exact iff_of_true rfl heq
      · rw [decide_eq_false heq]
        exact iff_of_false Bool.false_ne_true heq

theorem upgradedHash_of_legacy (h : ¬looksLikeArgon2id stored = true) :
    (ph.verifyAndUpgrade salt plaintext stored).upgradedHash =
      if (ph.verifyAndUpgrade salt plaintext stored).matched = true then ph.hash salt plaintext
      else none := by
  rw [verifyAndUpgrade, if_neg h]
  dsimp only
  generalize (if looksLikeDoubleMd5 stored = true then decide (ph.doubleMd5Hex plaintext = stored)
    else decide (stored = plaintext)) = legacyMatch
  cases legacyMatch with
  | true => rfl
  | false => rfl

/-- Only a legacy value is replaced, and by a hash of the password that it has accepted. -/
theorem of_upgradedHash
    (h : (ph.verifyAndUpgrade salt plaintext stored).upgradedHash = some upgraded) :
    schemeOf stored ≠ .argon2id ∧ ph.AcceptsAs plaintext stored (schemeOf stored) ∧
      ph.hash salt plaintext = some upgraded := by
  by_cases hargon : looksLikeArgon2id stored = true
  · rw [verifyAndUpgrade, if_pos hargon] at h
    cases h
  · rw [upgradedHash_of_legacy hargon] at h
    split at h
    · rename_i hmatched
      refine ⟨?_, matched_iff.1 hmatched, h⟩
      rw [schemeOf, if_neg hargon]
      split
      · intro heq
        cases heq
      · intro heq
        cases heq
    · cases h

/-- Legacy values accept one password. -/
theorem Ideal.eq_of_accepts (h : ph.Ideal Submitted) {p q : String} (hp : Submitted p)
    (hq : Submitted q) (hlegacy : schemeOf stored ≠ .argon2id)
    (haccepts : ph.AcceptsAs p stored (schemeOf stored))
    (haccepts' : ph.AcceptsAs q stored (schemeOf stored)) : p = q := by
  cases hscheme : schemeOf stored with
  | plaintext =>
    rw [hscheme] at haccepts haccepts'
    exact haccepts.symm.trans haccepts'
  | doubleMd5 =>
    rw [hscheme] at haccepts haccepts'
    exact h.injective hp hq (haccepts.trans haccepts'.symm)
  | argon2id => exact absurd hscheme hlegacy

/-- A value of a scheme accepts the password that the scheme makes it from, and no other. -/
theorem Ideal.accepts_iff (h : ph.Ideal Submitted) {candidate : String}
    (hpassword : Submitted password) (hcandidate : Submitted candidate) {scheme : PasswordScheme}
    (hstored : ph.StoredAs password stored scheme) :
    ph.AcceptsAs candidate stored scheme ↔ candidate = password := by
  cases scheme with
  | plaintext =>
    refine ⟨fun haccepts ↦ haccepts.symm.trans hstored, ?_⟩
    rintro rfl
    exact hstored
  | doubleMd5 =>
    refine ⟨fun haccepts ↦ h.injective hcandidate hpassword (haccepts.trans hstored), ?_⟩
    rintro rfl
    exact hstored.symm
  | argon2id =>
    obtain ⟨salt, hhash⟩ := hstored
    exact h.lawful.verify_hash hhash candidate

/-! ### What the upgrade changes -/

/-- **Upgrades do not change which passwords are accepted.** -/
theorem compatible (h : ph.Ideal Submitted) (stored : String) : ph.Compatible Submitted stored where
  same_accepted salt plaintext upgraded hplaintext hupgraded salt' candidate hcandidate := by
    obtain ⟨hlegacy, haccepts, hhash⟩ := of_upgradedHash hupgraded
    rw [h.lawful.verifyAndUpgrade_hash hhash, Bool.eq_iff_iff, decide_eq_true_iff, matched_iff]
    constructor
    · rintro rfl
      exact haccepts
    · intro haccepts'
      exact h.eq_of_accepts hcandidate hplaintext hlegacy haccepts' haccepts
  upgraded_once salt plaintext upgraded hupgraded salt' candidate := by
    obtain ⟨-, -, hhash⟩ := of_upgradedHash hupgraded
    rw [h.lawful.verifyAndUpgrade_hash hhash]
  only_password password hpassword hstored salt candidate hcandidate hmatched :=
    (h.accepts_iff hpassword hcandidate hstored).1 (matched_iff.1 hmatched)
  not_itself hscheme hsubmitted salt := by
    rw [Bool.eq_false_iff, ne_eq, matched_iff]
    cases hof : schemeOf stored with
    | plaintext => exact absurd hof hscheme
    | doubleMd5 => exact h.doubleMd5Hex_ne stored hsubmitted
    | argon2id => exact Bool.eq_false_iff.1 (h.not_verify_self stored hsubmitted)

/-- With the double MD5 of the strings below, as it is. -/
def sampleHashing : PasswordHashing where
  hash := transparent.hash
  verify := transparent.verify
  doubleMd5Hex password :=
    if password = "dc950713" then "a75fc917c14138b831247f93fc38bb0b"
    else if password = "wrong-password" then "4d1c8708f213741d64384bcd4be5fec4"
    else "56881287762f2ddcd2532be772e889de"

/-- A password, another, and the double MD5 of the first. -/
def IsSample (password : String) : Prop :=
  password = "dc950713" ∨ password = "wrong-password" ∨
    password = "a75fc917c14138b831247f93fc38bb0b"

theorem ideal_sampleHashing : sampleHashing.Ideal IsSample where
  lawful := ⟨@transparent_lawful.verify_hash, @transparent_lawful.looksLike⟩
  looksLike_doubleMd5Hex password := by
    show looksLikeDoubleMd5 (if _ then _ else if _ then _ else _) = true
    split
    · decide
    · split
      · decide
      · decide
  injective := by
    rintro p q (rfl | rfl | rfl) (rfl | rfl | rfl) heq
    all_goals first | rfl | exact absurd heq (by decide)
  doubleMd5Hex_ne := by
    rintro p (rfl | rfl | rfl)
    all_goals decide
  not_verify_self := by
    rintro p (rfl | rfl | rfl)
    all_goals decide

theorem compatible_sample :
    sampleHashing.Compatible IsSample "a75fc917c14138b831247f93fc38bb0b" :=
  compatible ideal_sampleHashing "a75fc917c14138b831247f93fc38bb0b"

/-- A legacy password that is the double MD5 of another is not accepted, and the other is. -/
theorem not_only_plaintext :
    sampleHashing.StoredAs "a75fc917c14138b831247f93fc38bb0b" "a75fc917c14138b831247f93fc38bb0b"
        .plaintext ∧
      (sampleHashing.verifyAndUpgrade "salt" "dc950713"
        "a75fc917c14138b831247f93fc38bb0b").matched = true ∧
      "dc950713" ≠ "a75fc917c14138b831247f93fc38bb0b" :=
  ⟨rfl, by decide, by decide⟩

end PasswordHashing

end VoceChat
