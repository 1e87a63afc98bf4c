import Mathlib.Data.List.Lex
import VoceChat.Foundations.Decimal
import VoceChat.Foundations.PaddedBase64
import VoceChat.Foundations.Utf8
import VoceChat.Ratchet.X3dh

/-!
# Safety numbers (`voce-e2ee-core/src/identity.rs`)

Two users compare a number to find out whether each has the identity of the other. It is made of the
first 24 bytes of a digest of both identities, two bytes to a group of five digits. No group is ever
as large as the 100000 it is reduced by, so the number tells all of these bytes
(`safetyNumber_eq_iff`).

The identities are put in order before they are hashed, so that both users get the same number. The
order only looks at the keys of the agreement: where these are the same, it is the order of the
arguments.
-/

namespace VoceChat

open Machine Utf8

/-- The two identities in the order in which they are hashed. -/
def sortIdentities (a b : IdentityPublic) : IdentityPublic × IdentityPublic :=
  if toUtf8 a.identityDhPubB64 ≤ toUtf8 b.identityDhPubB64 then (a, b) else (b, a)

/-- What is hashed. -/
def safetyMaterial (a b : IdentityPublic) : Bytes :=
  let (lo, hi) := sortIdentities a b
  toUtf8 "VoceChat_Safety_v2" ++ toUtf8 lo.identityDhPubB64 ++ toUtf8 hi.identityDhPubB64 ++
    toUtf8 lo.identitySigPubB64 ++ toUtf8 hi.identitySigPubB64

/-- The numbers of `digest.chunks(2)`. -/
def chunkNumbers : Bytes → List ℕ
  | [] => []
  | [a] => [256 * a.val % 100000]
  | a :: b :: rest => (256 * a.val + b.val) % 100000 :: chunkNumbers rest

/-- A round of the loop over the groups: a space between them, and `{n:05}`. -/
def pushGroup (out : List Char) (n : ℕ) : List Char :=
  (if out = [] then out else out ++ [' ']) ++ Decimal.padded 5 n

/-- `safety_number`. -/
def safetyNumber (sha256 : Bytes → Bytes) (a b : IdentityPublic) : String :=
  String.ofList (((chunkNumbers (sha256 (safetyMaterial a b))).take 12).foldl pushGroup [])

/-- Its texts are as long as those of keys of 32 bytes. -/
structure IdentityPublic.Sized (identity : IdentityPublic) : Prop where
  dh : (toUtf8 identity.identityDhPubB64).length = 44
  sig : (toUtf8 identity.identitySigPubB64).length = 44

/-! ### Groups of digits -/

theorem pushGroup_ne_nil (out : List Char) {n : ℕ} (hn : n < 100000) : pushGroup out n ≠ [] := by
  intro h
  have hlength := congrArg List.length (List.append_eq_nil_iff.1 h).2
  rw [Decimal.length_padded (by decide) hn] at hlength
  cases hlength

theorem pushGroup_inj {out out' : List Char} {n n' : ℕ} (hn : n < 100000) (hn' : n' < 100000)
    (hnil : out = [] ↔ out' = []) (h : pushGroup out n = pushGroup out' n') :
    out = out' ∧ n = n' := by
  have hlength : (Decimal.padded 5 n).length = (Decimal.padded 5 n').length := by
    rw [Decimal.length_padded (by decide) hn, Decimal.length_padded (by decide) hn']
  obtain ⟨hout, hdigits⟩ := List.append_inj' h hlength
  refine ⟨?_, Decimal.padded_inj hdigits⟩
  by_cases hempty : out = []
  · rw [hempty, hnil.1 hempty]
  · rw [if_neg hempty, if_neg fun h ↦ hempty (hnil.2 h)] at hout
    exact List.append_cancel_right hout

theorem foldl_pushGroup_eq_nil {ns : List ℕ} (hns : ∀ n ∈ ns, n < 100000) :
    ns.foldl pushGroup [] = [] ↔ ns = [] := by
  obtain rfl | ⟨ns, n, rfl⟩ := ns.eq_nil_or_concat
  · exact iff_of_true rfl rfl
  · rw [List.concat_eq_append] at hns ⊢
    rw [List.foldl_concat]
    have hn := hns n List.mem_concat_self
    exact iff_of_false (pushGroup_ne_nil _ hn) fun h ↦ by cases (List.append_eq_nil_iff.1 h).2

/-- The groups can be told from the text. -/
theorem foldl_pushGroup_inj {ns ms : List ℕ} (hns : ∀ n ∈ ns, n < 100000)
    (hms : ∀ m ∈ ms, m < 100000) (hlength : ns.length = ms.length)
    (h : ns.foldl pushGroup [] = ms.foldl pushGroup []) : ns = ms := by
  induction ns using List.reverseRecOn generalizing ms with
  | nil => exact (List.length_eq_zero_iff.1 hlength.symm).symm
  | append_singleton ns n ih =>
    obtain rfl | ⟨ms, m, rfl⟩ := ms.eq_nil_or_concat
    · rw [List.length_append] at hlength
      exact absurd hlength (Nat.succ_ne_zero _)
    · rw [List.concat_eq_append] at hms hlength h ⊢
      rw [List.foldl_concat, List.foldl_concat] at h
      rw [List.length_append, List.length_append] at hlength
      have hn := hns n List.mem_concat_self
      have hm := hms m List.mem_concat_self
      have hns' : ∀ n ∈ ns, n < 100000 := fun k hk ↦ hns k (List.mem_append_left _ hk)
      have hms' : ∀ m ∈ ms, m < 100000 := fun k hk ↦ hms k (List.mem_append_left _ hk)
      have hlength' : ns.length = ms.length := Nat.add_right_cancel hlength
      have hnil : ns.foldl pushGroup [] = [] ↔ ms.foldl pushGroup [] = [] := by
        rw [foldl_pushGroup_eq_nil hns', foldl_pushGroup_eq_nil hms', ← List.length_eq_zero_iff,
          ← List.length_eq_zero_iff, hlength']
      obtain ⟨hout, rfl⟩ := pushGroup_inj hn hm hnil h
      rw [ih hns' hms' hlength' hout]

/-! ### Groups of bytes -/

theorem chunkNumbers_lt (bytes : Bytes) : ∀ n ∈ chunkNumbers bytes, n < 100000 := by
  induction bytes using chunkNumbers.induct with
  | case1 =>
    intro n hn
    cases hn
  | case2 a =>
    intro n hn
    obtain rfl := List.mem_singleton.1 hn
    exact Nat.mod_lt _ (by decide)
  | case3 a b rest ih =>
    intro n hn
    rcases List.mem_cons.1 hn with rfl | hn
    · exact Nat.mod_lt _ (by decide)
    · exact ih n hn

theorem length_chunkNumbers (bytes : Bytes) :
    (chunkNumbers bytes).length = (bytes.length + 1) / 2 := by
  induction bytes using chunkNumbers.induct with
  | case1 => rfl
  | case2 a => simp [chunkNumbers]
  | case3 a b rest ih =>
    rw [chunkNumbers, List.length_cons, ih, List.length_cons, List.length_cons]
    omega

theorem exists_cons_cons {bytes : Bytes} (h : 2 ≤ bytes.length) :
    ∃ a b rest, bytes = a :: b :: rest := by
  obtain _ | ⟨a, _ | ⟨b, rest⟩⟩ := bytes
  · cases h
  · exact absurd h (lt_irrefl 1)
  · exact ⟨a, b, rest, rfl⟩

/-- Two bytes are less than 100000, so the group tells them. -/
theorem chunkNumber_inj {a b a' b' : Byte} :
    (256 * a.val + b.val) % 100000 = (256 * a'.val + b'.val) % 100000 ↔ a = a' ∧ b = b' := by
  have hlt : 256 * a.val + b.val < 100000 := by omega
  have hlt' : 256 * a'.val + b'.val < 100000 := by omega
  rw [Nat.mod_eq_of_lt hlt, Nat.mod_eq_of_lt hlt', Fin.ext_iff, Fin.ext_iff]
  omega

/-- The first groups tell the first bytes. -/
theorem take_chunkNumbers_iff (k : ℕ) {bytes bytes' : Bytes} (h : 2 * k ≤ bytes.length)
    (h' : 2 * k ≤ bytes'.length) :
    (chunkNumbers bytes).take k = (chunkNumbers bytes').take k ↔
      bytes.take (2 * k) = bytes'.take (2 * k) := by
  induction k generalizing bytes bytes' with
  | zero => exact iff_of_true rfl rfl
  | succ k ih =>
    obtain ⟨a, b, rest, rfl⟩ := exists_cons_cons (show 2 ≤ bytes.length by omega)
    obtain ⟨a', b', rest', rfl⟩ := exists_cons_cons (show 2 ≤ bytes'.length by omega)
    rw [List.length_cons, List.length_cons] at h h'
    rw [chunkNumbers, chunkNumbers, List.take_succ_cons, List.take_succ_cons, List.cons.injEq,
      chunkNumber_inj, ih (by omega) (by omega), show 2 * (k + 1) = 2 * k + 1 + 1 by omega,
      List.take_succ_cons, List.take_succ_cons, List.take_succ_cons, List.take_succ_cons,
      List.cons.injEq, List.cons.injEq, and_assoc]

/-! ### The order of the identities -/

variable {a b c d : IdentityPublic}

theorem sortIdentities_comm (h : a.identityDhPubB64 ≠ b.identityDhPubB64) :
    sortIdentities a b = sortIdentities b a := by
  have hne : toUtf8 a.identityDhPubB64 ≠ toUtf8 b.identityDhPubB64 := fun heq ↦ h (toUtf8_inj heq)
  unfold sortIdentities
  rcases lt_or_gt_of_ne hne with hlt | hgt
  · rw [if_pos hlt.le, if_neg hlt.not_ge]
  · rw [if_neg hgt.not_ge, if_pos hgt.le]

theorem sortIdentities_of_same (h : a.identityDhPubB64 = b.identityDhPubB64) :
    sortIdentities a b = (a, b) :=
  if_pos (h ▸ le_rfl)

/-- Two pairs are put in the same order when they are the same, or the same the other way round. -/
theorem sortIdentities_eq_iff : sortIdentities a b = sortIdentities c d ↔
    a = c ∧ b = d ∨ (a = d ∧ b = c) ∧ a.identityDhPubB64 ≠ b.identityDhPubB64 := by
  constructor
  · intro h
    have hcases : ∀ a b : IdentityPublic,
        sortIdentities a b = (a, b) ∨ sortIdentities a b = (b, a) := fun a b ↦ ite_eq_or_eq _ _ _
    by_cases hsame : a.identityDhPubB64 = b.identityDhPubB64
    · have hab := sortIdentities_of_same hsame
      rw [hab] at h
      rcases hcases c d with hcd | hcd
      · exact .inl (Prod.mk.inj (h.trans hcd))
      · obtain ⟨rfl, rfl⟩ := Prod.mk.inj (h.trans hcd)
        have hdc := sortIdentities_of_same hsame.symm
        obtain ⟨rfl, -⟩ := Prod.mk.inj (hdc.symm.trans hcd)
        exact .inl ⟨rfl, rfl⟩
    · rcases hcases a b with hab | hab
      all_goals
        rcases hcases c d with hcd | hcd
        all_goals obtain ⟨rfl, rfl⟩ := Prod.mk.inj (hab.symm.trans (h.trans hcd))
      · exact .inl ⟨rfl, rfl⟩
      · exact .inr ⟨⟨rfl, rfl⟩, hsame⟩
      · exact .inr ⟨⟨rfl, rfl⟩, hsame⟩
      · exact .inl ⟨rfl, rfl⟩
  · rintro (⟨rfl, rfl⟩ | ⟨⟨rfl, rfl⟩, hne⟩)
    · rfl
    · exact sortIdentities_comm hne

theorem IdentityPublic.ext_texts (hdh : a.identityDhPubB64 = b.identityDhPubB64)
    (hsig : a.identitySigPubB64 = b.identitySigPubB64) : a = b := by
  cases a
  cases b
  exact congrArg₂ IdentityPublic.mk hdh hsig

/-- What is hashed tells the pair as it is sorted. -/
theorem safetyMaterial_inj (ha : a.Sized) (hb : b.Sized) (hc : c.Sized) (hd : d.Sized) :
    safetyMaterial a b = safetyMaterial c d ↔ sortIdentities a b = sortIdentities c d := by
  have hsized : ∀ {a b}, a.Sized → b.Sized →
      (sortIdentities a b).1.Sized ∧ (sortIdentities a b).2.Sized := by
    intro a b ha hb
    unfold sortIdentities
    split
    · exact ⟨ha, hb⟩
    · exact ⟨hb, ha⟩
  obtain ⟨hlo, hhi⟩ := hsized ha hb
  obtain ⟨hlo', hhi'⟩ := hsized hc hd
  constructor
  · intro h
    unfold safetyMaterial at h
    dsimp only at h
    obtain ⟨h, hhisig⟩ := List.append_inj' h (hhi.sig.trans hhi'.sig.symm)
    obtain ⟨h, hlosig⟩ := List.append_inj' h (hlo.sig.trans hlo'.sig.symm)
    obtain ⟨h, hhidh⟩ := List.append_inj' h (hhi.dh.trans hhi'.dh.symm)
    obtain ⟨-, hlodh⟩ := List.append_inj' h (hlo.dh.trans hlo'.dh.symm)
    exact Prod.ext (IdentityPublic.ext_texts (toUtf8_inj hlodh) (toUtf8_inj hlosig))
      (IdentityPublic.ext_texts (toUtf8_inj hhidh) (toUtf8_inj hhisig))
  · intro h
    rw [safetyMaterial, h]
    rfl

/-- The number tells the first 24 bytes of the digest. -/
theorem safetyNumber_eq_iff_take {sha256 : Bytes → Bytes}
    (h : ∀ bytes, (sha256 bytes).length = 32) :
    safetyNumber sha256 a b = safetyNumber sha256 c d ↔
      (sha256 (safetyMaterial a b)).take 24 = (sha256 (safetyMaterial c d)).take 24 := by
  have hlength : ∀ bytes, ((chunkNumbers (sha256 bytes)).take 12).length = 12 := by
    intro bytes
    rw [List.length_take, length_chunkNumbers, h]
    rfl
  have hlt : ∀ bytes, ∀ n ∈ (chunkNumbers (sha256 bytes)).take 12, n < 100000 := fun bytes n hn ↦
    chunkNumbers_lt _ n (List.mem_of_mem_take hn)
  have hle : ∀ bytes, 2 * 12 ≤ (sha256 bytes).length := fun bytes ↦ (h bytes).symm ▸ by decide
  rw [← take_chunkNumbers_iff 12 (hle _) (hle _), safetyNumber, safetyNumber]
  constructor
  · intro heq
    refine foldl_pushGroup_inj (hlt _) (hlt _) ((hlength _).trans (hlength _).symm) ?_
    exact String.ofList_injective heq
  · intro heq
    rw [heq]

/-- **When two pairs have the same number**: when the digests begin with the same 24 bytes. The same
is hashed for the same two identities only. It is hashed for them in either order, unless they share
the key of the agreement and not that of the signatures. -/
theorem safetyNumber_eq_iff {sha256 : Bytes → Bytes} (h : ∀ bytes, (sha256 bytes).length = 32)
    (ha : a.Sized) (hb : b.Sized) (hc : c.Sized) (hd : d.Sized) :
    (safetyNumber sha256 a b = safetyNumber sha256 c d ↔
      (sha256 (safetyMaterial a b)).take 24 = (sha256 (safetyMaterial c d)).take 24) ∧
    (safetyMaterial a b = safetyMaterial c d ↔
      a = c ∧ b = d ∨ (a = d ∧ b = c) ∧ a.identityDhPubB64 ≠ b.identityDhPubB64) :=
  ⟨safetyNumber_eq_iff_take h, (safetyMaterial_inj ha hb hc hd).trans sortIdentities_eq_iff⟩

/-- The text of some key, and of another one. -/
def someKey : String := "AAAAAAAAAAAAAAAAAAAAAAAAAAAAAAAAAAAAAAAAAAA="

def otherKey : String := "BBBBBBBBBBBBBBBBBBBBBBBBBBBBBBBBBBBBBBBBBBA="

/-- Two identities with one key for the agreement are hashed in the order of the arguments. -/
theorem safetyNumber_eq_iff_someKey :
    safetyMaterial ⟨someKey, someKey⟩ ⟨someKey, otherKey⟩ ≠
      safetyMaterial ⟨someKey, otherKey⟩ ⟨someKey, someKey⟩ := by
  have ha : (⟨someKey, someKey⟩ : IdentityPublic).Sized := ⟨rfl, rfl⟩
  have hb : (⟨someKey, otherKey⟩ : IdentityPublic).Sized := ⟨rfl, rfl⟩
  have hlength : ∀ bytes : Bytes, (List.replicate 32 (0 : Byte)).length = 32 := fun _ ↦ rfl
  intro h
  rcases (safetyNumber_eq_iff hlength ha hb hb ha).2.1 h with ⟨heq, -⟩ | ⟨-, hne⟩
  · exact absurd heq (by decide)
  · exact hne rfl

end VoceChat
