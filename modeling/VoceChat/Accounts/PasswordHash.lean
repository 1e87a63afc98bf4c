/-!
# Password hashes (`src/password_hash.rs`)

Passwords are stored as Argon2id hashes. Older databases hold double MD5 digests, or plain text;
`verifyAndUpgrade` accepts those too, and hands back an Argon2id hash to store in their place.

The hash functions come from crates and are parameters; `Lawful` is what is relied on of them.
-/

namespace VoceChat

/-- The functions of the crates `argon2` and `md5`. -/
structure PasswordHashing where
  /-- `hash`, with the salt it draws. -/
  hash : String → String → Option String
  verify : String → String → Bool
  doubleMd5Hex : String → String

def argon2idPrefix : String := "$argon2id$"

/-- `looks_like_argon2id`. -/
def looksLikeArgon2id (stored : String) : Bool :=
  argon2idPrefix.toList.isPrefixOf stored.toList

/-- `looks_like_double_md5`: 32 lower case hexadecimal digits. -/
def looksLikeDoubleMd5 (stored : String) : Bool :=
  stored.toList.length = 32 &&
    stored.toList.all fun c ↦ ('0' ≤ c && c ≤ '9') || ('a' ≤ c && c ≤ 'f')

structure VerifyAndUpgrade where
  matched : Bool
  upgradedHash : Option String
  deriving DecidableEq

namespace PasswordHashing

/-- A stored string is a hash of a password. -/
def IsHashOf (ph : PasswordHashing) (password stored : String) : Prop :=
  ∃ salt, ph.hash salt password = some stored

/-- A hash verifies the password it was made of and no other, and looks like one. -/
structure Lawful (ph : PasswordHashing) : Prop where
  verify_hash : ∀ {salt password stored : String}, ph.hash salt password = some stored →
    ∀ other, ph.verify other stored = true ↔ other = password
  looksLike : ∀ {salt password stored : String}, ph.hash salt password = some stored →
    looksLikeArgon2id stored = true

/-- `verify_and_upgrade`. -/
def verifyAndUpgrade (ph : PasswordHashing) (salt plaintext stored : String) : VerifyAndUpgrade :=
  if looksLikeArgon2id stored then ⟨ph.verify plaintext stored, none⟩
  else
    let legacyMatch :=
      if looksLikeDoubleMd5 stored then decide (ph.doubleMd5Hex plaintext = stored)
      else decide (stored = plaintext)
    if legacyMatch then ⟨true, ph.hash salt plaintext⟩ else ⟨false, none⟩

variable {ph : PasswordHashing} {salt password stored : String}

/-- A stored hash is verified as such, and not replaced. -/
theorem Lawful.verifyAndUpgrade_hash (h : ph.Lawful) (hstored : ph.hash salt password = some stored)
    (salt' plaintext : String) : ph.verifyAndUpgrade salt' plaintext stored =
      ⟨decide (plaintext = password), none⟩ := by
  rw [verifyAndUpgrade, if_pos (h.looksLike hstored)]
  congr 1
  rw [Bool.eq_iff_iff, h.verify_hash hstored, decide_eq_true_iff]

/-- Hashes that show the password. They protect nothing, but they can be computed and are lawful. -/
def transparent : PasswordHashing where
  hash _ password := some (argon2idPrefix ++ password)
  verify plaintext stored := argon2idPrefix ++ plaintext = stored
  doubleMd5Hex plaintext := plaintext

theorem transparent_lawful : transparent.Lawful where
  verify_hash := by
    intro salt password stored h other
    obtain rfl := Option.some.inj h
    show decide (argon2idPrefix ++ other = argon2idPrefix ++ password) = true ↔ _
    rw [decide_eq_true_iff, String.append_right_inj]
  looksLike := by
    intro salt password stored h
    obtain rfl := Option.some.inj h
    show argon2idPrefix.toList.isPrefixOf (argon2idPrefix ++ password).toList = true
    rw [String.toList_append, List.isPrefixOf_iff_prefix]
    exact List.prefix_append _ _

end PasswordHashing

end VoceChat
