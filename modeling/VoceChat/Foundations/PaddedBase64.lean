import VoceChat.Foundations.Base64
import VoceChat.Foundations.Guards

/-!
# Base64 in texts

An engine turns bytes into text and back. It is canonical when what was written is read back, and
nothing else is read. The usual engine is: it has `+` and `/` where the one for URLs has `-` and
`_`, and fills the last group up with `=` (`standard_canonical`).
-/

namespace Base64

open Guards Machine

/-- A way to write bytes as text, with the text of its errors. -/
structure Engine where
  encode : Bytes → String
  decode : String → Except String Bytes

/-- Bytes have one text, and it is read as the bytes. -/
structure Engine.Canonical (B : Engine) : Prop where
  decode_encode : ∀ bytes, B.decode (B.encode bytes) = .ok bytes
  encode_decode : ∀ text bytes, B.decode text = .ok bytes → B.encode bytes = text

theorem Engine.Canonical.decode_eq_ok {B : Engine} (h : B.Canonical) {text : String}
    {bytes : Bytes} : B.decode text = .ok bytes ↔ text = B.encode bytes :=
  ⟨fun hok ↦ (h.encode_decode _ _ hok).symm, fun heq ↦ heq ▸ h.decode_encode bytes⟩

/-! ### The usual alphabet -/

def toStandard (c : Char) : Char := if c = '-' then '+' else if c = '_' then '/' else c

/-- What is not in the usual alphabet becomes something that cannot be read. -/
def ofStandard (c : Char) : Char :=
  if c = '+' then '-' else if c = '/' then '_' else if c = '-' ∨ c = '_' then '=' else c

/-- What the last group of so many characters is filled up with. -/
def padding (n : ℕ) : List Char := List.replicate ((4 - n % 4) % 4) '='

def encodeStandard (bs : Bytes) : List Char :=
  (encode bs).map toStandard ++ padding (encode bs).length

def decodeStandard (cs : List Char) : Option Bytes :=
  let body := cs.takeWhile (· ≠ '=')
  if cs.drop body.length = padding body.length then decode (body.map ofStandard) else none

def standard : Engine where
  encode bs := String.ofList (encodeStandard bs)
  decode text := okOr (decodeStandard text.toList) "Invalid base64"

theorem ofStandard_toStandard {c : Char} (h : (value c).isSome = true) :
    ofStandard (toStandard c) = c ∧ toStandard c ≠ '=' := by
  have hplus : c ≠ '+' := by
    rintro rfl
    exact absurd h (by decide)
  have hslash : c ≠ '/' := by
    rintro rfl
    exact absurd h (by decide)
  have hequals : c ≠ '=' := by
    rintro rfl
    exact absurd h (by decide)
  by_cases hdash : c = '-'
  · subst hdash
    decide
  · by_cases hunderscore : c = '_'
    · subst hunderscore
      decide
    · have hkept : toStandard c = c := by rw [toStandard, if_neg hdash, if_neg hunderscore]
      rw [hkept, ofStandard, if_neg hplus, if_neg hslash,
        if_neg (by rintro (h | h) <;> contradiction)]
      exact ⟨rfl, hequals⟩

theorem toStandard_ofStandard {c : Char} (h : (value (ofStandard c)).isSome = true) :
    toStandard (ofStandard c) = c := by
  by_cases hplus : c = '+'
  · subst hplus
    decide
  · by_cases hslash : c = '/'
    · subst hslash
      decide
    · by_cases hother : c = '-' ∨ c = '_'
      · rw [ofStandard, if_neg hplus, if_neg hslash, if_pos hother] at h
        exact absurd h (by decide)
      · obtain ⟨hdash, hunderscore⟩ := not_or.1 hother
        rw [ofStandard, if_neg hplus, if_neg hslash, if_neg hother, toStandard, if_neg hdash,
          if_neg hunderscore]

theorem decodeStandard_encodeStandard (bs : Bytes) :
    decodeStandard (encodeStandard bs) = some bs := by
  have hdigits : ∀ c ∈ encode bs, (value c).isSome = true :=
    value_isSome_of_decode (decode_encode bs)
  have hbody : (encodeStandard bs).takeWhile (· ≠ '=') = (encode bs).map toStandard := by
    have hall : ∀ c ∈ (encode bs).map toStandard, decide (c ≠ '=') = true := by
      intro c hc
      obtain ⟨d, hd, rfl⟩ := List.mem_map.1 hc
      exact decide_eq_true (ofStandard_toStandard (hdigits d hd)).2
    rw [encodeStandard, List.takeWhile_append_of_pos hall]
    have hnil : (padding (encode bs).length).takeWhile (· ≠ '=') = [] := by
      rw [padding]
      cases (4 - (encode bs).length % 4) % 4 with
      | zero => rfl
      | succ n => rfl
    rw [hnil, List.append_nil]
  have hback : ((encode bs).map toStandard).map ofStandard = encode bs := by
    rw [List.map_map]
    exact (List.map_congr_left fun c hc ↦ (ofStandard_toStandard (hdigits c hc)).1).trans
      (List.map_id _)
  have hrest : (encodeStandard bs).drop ((encode bs).map toStandard).length =
      padding ((encode bs).map toStandard).length := by
    rw [encodeStandard, List.drop_left, List.length_map]
  rw [decodeStandard, hbody]
  refine (if_pos hrest).trans ?_
  rw [hback, decode_encode]

theorem encodeStandard_decodeStandard {cs : List Char} {bs : Bytes}
    (h : decodeStandard cs = some bs) : encodeStandard bs = cs := by
  rw [decodeStandard] at h
  split at h
  · rename_i hrest
    have hdigits := value_isSome_of_decode h
    have hback : ((cs.takeWhile (· ≠ '=')).map ofStandard).map toStandard =
        cs.takeWhile (· ≠ '=') := by
      rw [List.map_map]
      refine (List.map_congr_left fun c hc ↦ ?_).trans (List.map_id _)
      exact toStandard_ofStandard (hdigits _ (List.mem_map_of_mem hc))
    rw [encodeStandard, encode_decode h, hback, List.length_map, ← hrest]
    exact List.prefix_iff_eq_append.1 (List.takeWhile_prefix _)
  · cases h

theorem standard_canonical : standard.Canonical where
  decode_encode bytes := by
    show okOr (decodeStandard (String.ofList (encodeStandard bytes)).toList) _ = _
    rw [String.toList_ofList, decodeStandard_encodeStandard]
    rfl
  encode_decode text bytes h := by
    rw [standard, okOr_eq_ok] at h
    show String.ofList (encodeStandard bytes) = text
    rw [encodeStandard_decodeStandard h, String.ofList_toList]

end Base64
