import VoceChat.Foundations.Guards
import VoceChat.Foundations.Hex

/-!
# Signed licenses (`vc-license/src/lib.rs`)

A license names the domains a server may be reached under, a creation and an expiry date and a limit
for the number of users. `gen` signs the text that `encode` makes of it, `to_string` writes it out,
`from_string` reads it, and `rsa_check_license` checks the signature of the license that was read.

The signed text has the domains and the two dates, with separators that none of its parts contains
(`encode_inj`): a checked license has these from a generated one. It does **not** have the limit,
which `from_string` takes from a field of its own. Whoever has a license can write any limit into
it. `sameTerms_iff` says that this is the only difference.

`LicenseFormats` collects what lies outside the repository: base58, the two ways of writing a date,
and RSA. Texts are lists of characters.
-/

namespace VoceChat

open Guards Machine

abbrev Text := List Char

structure License (Time : Type) where
  domains : List Text
  userLimit : ℕ
  createdAt : Time
  expiredAt : Time
  sign : Bytes
  deriving DecidableEq, Repr

/-- What can be wrong with a license text. -/
inductive LicenseError where
  | base58 (msg : String)
  | utf8
  | badData (s : Text)
  | date (msg : String)
  | hex
  deriving DecidableEq, Repr

structure LicenseFormats (Time : Type) where
  /-- `bs58::encode(..).into_string()`. -/
  encodeBs58 : Text → Text
  /-- `bs58::decode(..).into_vec()`. -/
  decodeBs58 : Text → Except String Bytes
  /-- `DateTime<Utc>` by `Display`. -/
  display : Time → Text
  /-- `to_rfc3339`. -/
  toRfc3339 : Time → Text
  /-- `DateTime::parse_from_rfc3339`, as a time in UTC. -/
  parseFromRfc3339 : Text → Except String Time
  /-- `rsa_sign` of the UTF-8 of a text; it panics on a text that is too long for the key. -/
  rsaSign : Text → Option Bytes
  /-- `rsa_check_sign`, with the public key of the generator. -/
  rsaCheckSign : Text → Bytes → Bool

/-- `parse::<u32>`: digits, after an optional `+`. -/
def parseU32 (t : Text) : Option ℕ :=
  let digits := match t with
    | '+' :: rest => rest
    | _ => t
  if digits ≠ [] ∧ digits.all Char.isDigit = true then
    let n := digits.foldl (fun n c ↦ 10 * n + (c.toNat - 48)) 0
    if n < u32Size then some n else none
  else none

namespace LicenseFormats

variable {Time : Type} (F : LicenseFormats Time)

/-- `License::encode`. -/
def encode (license : License Time) : Text :=
  ['|'].intercalate license.domains ++ ',' :: (F.display license.createdAt ++
    ',' :: F.display license.expiredAt)

/-- `License::to_string`. -/
def toText (license : License Time) : Text :=
  F.encodeBs58 (['|'].intercalate license.domains ++ ',' :: ((toString license.userLimit).toList ++
    ',' :: (F.toRfc3339 license.createdAt ++ ',' :: (F.toRfc3339 license.expiredAt ++
      ',' :: Hex.encode license.sign))))

/-- The parts between the commas, of a text in base58. -/
def fields (s : Text) : Except LicenseError (List Text) := do
  let bytes ← (F.decodeBs58 s).mapError .base58
  let text ← okOr (fromUtf8 bytes) .utf8
  pure (text.toList.splitOn ',')

/-- `arr[1].parse::<u32>().unwrap_or_default()`. -/
def parseLimit (field : Text) : ℕ := (parseU32 field).getD 0

/-- `License::from_string`. -/
def fromString (s : Text) : Except LicenseError (License Time) := do
  match ← F.fields s with
  | domains :: userLimit :: createdAt :: expiredAt :: sign :: _ =>
    let createdAt ← (F.parseFromRfc3339 createdAt).mapError .date
    let expiredAt ← (F.parseFromRfc3339 expiredAt).mapError .date
    let sign ← okOr (Hex.decode sign) .hex
    pure { domains := domains.splitOn '|', userLimit := parseLimit userLimit,
           createdAt, expiredAt, sign }
  | _ => .error (.badData s)

/-- `LicenseGenerator::gen`, at the time `createdAt`. -/
def gen (domains : Text) (expiredAt : Time) (userLimit : ℕ) (createdAt : Time) :
    Option (License Time) :=
  let license : License Time :=
    { domains := domains.splitOn '|', userLimit, createdAt, expiredAt, sign := [] }
  (F.rsaSign (F.encode license)).map fun sign ↦ { license with sign }

/-- `rsa_check_license`. -/
def rsaCheckLicense (license : License Time) : Bool :=
  F.rsaCheckSign (F.encode license) license.sign

/-- The licenses that were generated, and what is relied on: dates are written without commas and
can be told apart, and a signature is good for a text only if a generated license has that text. -/
structure Ideal (generated : License Time → Prop) : Prop where
  comma_notMem_display : ∀ t, ',' ∉ F.display t
  display_inj : ∀ t t', F.display t = F.display t' → t = t'
  unforgeable : ∀ text sign, F.rsaCheckSign text sign = true → ∃ g, generated g ∧ F.encode g = text
  generated_gen : ∀ g, generated g → ∃ domains expiredAt userLimit createdAt,
    F.gen domains expiredAt userLimit createdAt = some g

variable {F} {license g : License Time} {generated : License Time → Prop} {s : Text}

/-! ### The signed text -/

/-- Text with a last separator comes apart in one way. -/
theorem append_cons_inj {c : Char} {a b a' b' : Text} (hb : c ∉ b) (hb' : c ∉ b')
    (h : a ++ c :: b = a' ++ c :: b') : a = a' ∧ b = b' := by
  have hsplit := congrArg (List.splitOn c) h
  rw [List.splitOn_append_cons_self, List.splitOn_append_cons_self,
    List.splitOn_eq_singleton hb, List.splitOn_eq_singleton hb'] at hsplit
  obtain ⟨hfront, hlast⟩ := List.append_inj' hsplit rfl
  refine ⟨?_, List.singleton_inj.1 hlast⟩
  rw [← @List.intercalate_splitOn _ a _ _ c, hfront, List.intercalate_splitOn]

/-- **The signed text determines the domains and the dates.** -/
theorem encode_inj (h : F.Ideal generated) {domains domains' : Text}
    (hdomains : license.domains = domains.splitOn '|')
    (hdomains' : g.domains = domains'.splitOn '|')
    (heq : F.encode license = F.encode g) :
    license.domains = g.domains ∧ license.createdAt = g.createdAt ∧
      license.expiredAt = g.expiredAt := by
  rw [encode, encode, hdomains, hdomains', List.intercalate_splitOn, List.intercalate_splitOn,
    ← List.cons_append, ← List.cons_append, ← List.append_assoc, ← List.append_assoc] at heq
  obtain ⟨hfront, hexpired⟩ := append_cons_inj (h.comma_notMem_display _)
    (h.comma_notMem_display _) heq
  obtain ⟨hfront, hcreated⟩ := append_cons_inj (h.comma_notMem_display _)
    (h.comma_notMem_display _) hfront
  exact ⟨by rw [hdomains, hdomains', hfront], h.display_inj _ _ hcreated,
    h.display_inj _ _ hexpired⟩

/-! ### Licenses that pass the check -/

/-- What the server relies on is the same. -/
structure SameTerms (license g : License Time) : Prop where
  domains : license.domains = g.domains
  userLimit : license.userLimit = g.userLimit
  createdAt : license.createdAt = g.createdAt
  expiredAt : license.expiredAt = g.expiredAt

/-- The limit as it stands in a text: its second field, zero if that is no number. -/
def limitField (F : LicenseFormats Time) (s : Text) : Option ℕ :=
  match F.fields s with
  | .ok (_ :: userLimit :: _) => some (parseLimit userLimit)
  | _ => none

/-- What `from_string` makes of the first two fields. -/
theorem fromString_eq_ok (h : F.fromString s = .ok license) :
    (∃ domains : Text, license.domains = domains.splitOn '|') ∧
      F.limitField s = some license.userLimit := by
  rw [fromString, bind_eq_ok] at h
  obtain ⟨parts, hparts, h⟩ := h
  rw [limitField, hparts]
  match parts with
  | domains :: userLimit :: createdAt :: expiredAt :: sign :: _ =>
    simp only [bind_eq_ok, pure_eq_ok] at h
    obtain ⟨createdAt', -, expiredAt', -, sign', -, rfl⟩ := h
    exact ⟨⟨domains, rfl⟩, rfl⟩
  | [] | [_] | [_, _] | [_, _, _] | [_, _, _, _] => cases h

theorem domains_of_gen {domains : Text} {expiredAt createdAt : Time} {userLimit : ℕ}
    (h : F.gen domains expiredAt userLimit createdAt = some g) :
    g.domains = domains.splitOn '|' := by
  obtain ⟨sign, -, rfl⟩ := Option.map_eq_some_iff.1 h
  rfl

/-- A checked license has domains and dates of every generated license whose text was signed. -/
theorem terms_of_encode (h : F.Ideal generated) (hs : F.fromString s = .ok license)
    (hg : generated g) (heq : F.encode g = F.encode license) :
    license.domains = g.domains ∧ license.createdAt = g.createdAt ∧
      license.expiredAt = g.expiredAt := by
  obtain ⟨⟨domains, hdomains⟩, -⟩ := fromString_eq_ok hs
  obtain ⟨domains', expiredAt, userLimit, createdAt, hgen⟩ := h.generated_gen g hg
  exact encode_inj h hdomains (domains_of_gen hgen) heq.symm

/-- The domains and dates of a checked license are always genuine. -/
theorem exists_generated (h : F.Ideal generated) (hs : F.fromString s = .ok license)
    (hcheck : F.rsaCheckLicense license = true) :
    ∃ g, generated g ∧ F.encode g = F.encode license ∧ license.domains = g.domains ∧
      license.createdAt = g.createdAt ∧ license.expiredAt = g.expiredAt := by
  obtain ⟨g, hg, heq⟩ := h.unforgeable _ _ hcheck
  exact ⟨g, hg, heq, terms_of_encode h hs hg heq⟩

/-- **A text that is read and passes the check has domains and dates of a generated license; it has
all terms of one exactly if its second field is the limit of one that was signed with this text.**
-/
theorem sameTerms_iff (h : F.Ideal generated) (hs : F.fromString s = .ok license)
    (hcheck : F.rsaCheckLicense license = true) :
    (∃ g, generated g ∧ license.domains = g.domains ∧ license.createdAt = g.createdAt ∧
        license.expiredAt = g.expiredAt) ∧
      ((∃ g, generated g ∧ SameTerms license g) ↔
        ∃ g, generated g ∧ F.encode g = F.encode license ∧ F.limitField s = some g.userLimit) := by
  have hlimit := (fromString_eq_ok hs).2
  refine ⟨?_, fun ⟨g, hg, hsame⟩ ↦ ⟨g, hg, ?_, ?_⟩, fun ⟨g, hg, heq, hfield⟩ ↦ ⟨g, hg, ?_⟩⟩
  · obtain ⟨g, hg, -, hterms⟩ := exists_generated h hs hcheck
    exact ⟨g, hg, hterms⟩
  · rw [encode, encode, hsame.domains, hsame.createdAt, hsame.expiredAt]
  · rw [hlimit, hsame.userLimit]
  · obtain ⟨hdomains, hcreated, hexpired⟩ := terms_of_encode h hs hg heq
    exact ⟨hdomains, Option.some.inj (hlimit.symm.trans hfield), hcreated, hexpired⟩

/-! ### A raised limit -/

/-- The first day of 2024 (`false`) or of 2025. -/
abbrev NewYear := Bool

/-- A license for nine users, under any domain. -/
def genuine : License NewYear := ⟨["*".toList], 9, false, true, [171]⟩

def genuineText : Text :=
  "2Yj7XBTjxHohWkzc8GmETirt5ytH9jQf6wTn4jAgSNpbfXNyTHPAMwuyFnuTJmR18m".toList

/-- The same with `9999` for `9`, and the old signature. -/
def raisedText : Text :=
  "3J2LEg2diy8UwQ5zAV1UigTtWgjsWmycNJBdGZzhKR3fiYKxJTPkKQZibfscf2g46PuTpu".toList

/-- The ASCII codes of a text. -/
def asciiBytes (t : Text) : Bytes := t.map fun c ↦ Fin.ofNat 256 c.toNat

def yearText (t : NewYear) : Text := if t then "2025".toList else "2024".toList

/-- The formats on the texts of this section, with a signature that was given for one license. -/
def newYears : LicenseFormats NewYear where
  encodeBs58 text := text
  decodeBs58 s :=
    if s = genuineText then
      .ok (asciiBytes "*,9,2024-01-01T00:00:00Z,2025-01-01T00:00:00Z,ab".toList)
    else if s = raisedText then
      .ok (asciiBytes "*,9999,2024-01-01T00:00:00Z,2025-01-01T00:00:00Z,ab".toList)
    else .error "provided string contained invalid character"
  display t := yearText t ++ "-01-01 00:00:00 UTC".toList
  toRfc3339 t := yearText t ++ "-01-01T00:00:00+00:00".toList
  parseFromRfc3339 text :=
    if text = "2024-01-01T00:00:00Z".toList then .ok false
    else if text = "2025-01-01T00:00:00Z".toList then .ok true
    else .error "input contains invalid characters"
  rsaSign _ := some [171]
  rsaCheckSign text sign :=
    text = "*,2024-01-01 00:00:00 UTC,2025-01-01 00:00:00 UTC".toList ∧ sign = [171]

theorem newYears_ideal : newYears.Ideal fun g ↦ g = genuine where
  comma_notMem_display := by decide +kernel
  display_inj := by decide +kernel
  unforgeable text sign hcheck := by
    obtain ⟨rfl, -⟩ : text = "*,2024-01-01 00:00:00 UTC,2025-01-01 00:00:00 UTC".toList ∧
      sign = [171] := of_decide_eq_true hcheck
    exact ⟨genuine, rfl, by decide +kernel⟩
  generated_gen g hg := by
    subst hg
    exact ⟨"*".toList, true, 9, false, by decide +kernel⟩

theorem fromString_genuineText : newYears.fromString genuineText = .ok genuine :=
  toOption_eq_some.1 (by decide +kernel)

theorem fromString_raisedText :
    newYears.fromString raisedText = .ok { genuine with userLimit := 9999 } :=
  toOption_eq_some.1 (by decide +kernel)

theorem rsaCheckLicense_genuine : newYears.rsaCheckLicense genuine = true := by decide +kernel

/-- A license for ten thousand users passes the check, and none was ever generated. -/
theorem not_sameTerms_raised : newYears.Ideal (fun g ↦ g = genuine) ∧ ∃ license,
    newYears.fromString raisedText = .ok license ∧ newYears.rsaCheckLicense license = true ∧
      ¬∃ g, g = genuine ∧ SameTerms license g := by
  refine ⟨newYears_ideal, _, fromString_raisedText, rsaCheckLicense_genuine, ?_⟩
  rintro ⟨g, rfl, hsame⟩
  exact absurd hsame.userLimit (by decide)

/-- The license as it was given out. -/
theorem sameTerms_genuine : ∃ license, newYears.fromString genuineText = .ok license ∧
    ∃ g, g = genuine ∧ SameTerms license g := by
  refine ⟨genuine, fromString_genuineText,
    (sameTerms_iff newYears_ideal fromString_genuineText rsaCheckLicense_genuine).2.2 ?_⟩
  exact ⟨genuine, rfl, rfl, (fromString_eq_ok fromString_genuineText).2⟩

end LicenseFormats

end VoceChat
