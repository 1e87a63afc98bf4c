import VoceChat.Foundations.BigEndian
import VoceChat.Foundations.Json
import VoceChat.Foundations.Utf8

/-!
# A code for JSON values

Byte strings for JSON values of which none begins another (`code_inj`): a byte that says what
follows, and bytes that say how far they go. It stands in for a printer where all that is asked of
it is that different values are printed differently.
-/

namespace Json

open BigEndian Machine Utf8

/-- Bytes with a mark in front of each, and another at the end. -/
def delimited : Bytes → Bytes
  | [] => [0]
  | b :: bs => 1 :: b :: delimited bs

theorem delimited_inj {bs bs' rest rest' : Bytes}
    (h : delimited bs ++ rest = delimited bs' ++ rest') : bs = bs' ∧ rest = rest' := by
  induction bs generalizing bs' with
  | nil =>
    cases bs' with
    | nil => exact ⟨rfl, (List.cons.inj h).2⟩
    | cons b' bs' => exact absurd (List.cons.inj h).1 (by decide)
  | cons b bs ih =>
    cases bs' with
    | nil => exact absurd (List.cons.inj h).1 (by decide)
    | cons b' bs' =>
      obtain ⟨hhead, htail⟩ := List.cons.inj (List.cons.inj h).2
      obtain ⟨rfl, hrest⟩ := ih htail
      exact ⟨by rw [hhead], hrest⟩

/-- The 64 bits of a number. -/
def Number.bits : Number → UInt64
  | .posInt n => n
  | .negInt n => n.toUInt64
  | .float bits => bits

def Number.mark : Number → Byte
  | .posInt _ => 0
  | .negInt _ => 1
  | .float _ => 2

def Number.code (n : Number) : Bytes := n.mark :: beBytes 8 n.bits.toNat

theorem Number.code_inj {n n' : Number} {rest rest' : Bytes}
    (h : n.code ++ rest = n'.code ++ rest') :
    n = n' ∧ rest = rest' := by
  obtain ⟨hmark, htail⟩ := List.cons.inj h
  obtain ⟨hbits, hrest⟩ := List.append_inj htail (by rw [length_beBytes, length_beBytes])
  have hfits : ∀ m : UInt64, Fits 8 m.toNat := by
    intro m
    have hlt := m.toNat_lt
    simp only [Fits]
    omega
  have heq : n.bits = n'.bits := UInt64.toNat_inj.1 (beBytes_inj (hfits _) (hfits _) hbits)
  refine ⟨?_, hrest⟩
  cases n <;> cases n' <;> simp [Number.mark] at hmark
  · exact congrArg _ heq
  · exact congrArg _ (Int64.toBitVec_inj.1 (congrArg UInt64.toBitVec heq))
  · exact congrArg _ heq

namespace Value

def mark : Value → Byte
  | null => 0
  | bool _ => 1
  | number _ => 2
  | string _ => 3
  | array _ => 4
  | object _ => 5

mutual

/-- What follows the mark of a value. -/
def payload : Value → Bytes
  | null => []
  | bool b => [if b then 1 else 0]
  | number n => n.code
  | string s => delimited (toUtf8 s)
  | array elems => codeElems elems
  | object fields => codeFields fields

def codeElems : List Value → Bytes
  | [] => [0]
  | v :: vs => 1 :: v.mark :: (v.payload ++ codeElems vs)

def codeFields : List (String × Value) → Bytes
  | [] => [0]
  | (key, v) :: fields => 1 ::
      (delimited (toUtf8 key) ++ v.mark :: (v.payload ++ codeFields fields))

end

def code (v : Value) : Bytes := v.mark :: v.payload

mutual

-- The marks are equal, so both values are of one kind; what follows is peeled off part by part.
theorem payload_inj : (v w : Value) → (rest rest' : Bytes) → v.mark = w.mark →
    v.payload ++ rest = w.payload ++ rest' → v = w ∧ rest = rest'
  | null, w, rest, rest', hmark, h => by
    cases w <;> simp [mark] at hmark
    exact ⟨rfl, h⟩
  | bool b, w, rest, rest', hmark, h => by
    cases w <;> simp [mark] at hmark
    obtain ⟨hb, hrest⟩ := List.cons.inj h
    refine ⟨congrArg _ ?_, hrest⟩
    cases b <;> rename_i b' <;> cases b' <;> first | rfl | exact absurd hb (by decide)
  | number n, w, rest, rest', hmark, h => by
    cases w <;> simp [mark] at hmark
    obtain ⟨rfl, hrest⟩ := Number.code_inj h
    exact ⟨rfl, hrest⟩
  | string s, w, rest, rest', hmark, h => by
    cases w <;> simp [mark] at hmark
    obtain ⟨hs, hrest⟩ := delimited_inj h
    exact ⟨congrArg _ (toUtf8_inj hs), hrest⟩
  | array elems, w, rest, rest', hmark, h => by
    cases w <;> simp [mark] at hmark
    obtain ⟨helems, hrest⟩ := codeElems_inj elems _ rest rest' h
    exact ⟨congrArg _ helems, hrest⟩
  | object fields, w, rest, rest', hmark, h => by
    cases w <;> simp [mark] at hmark
    obtain ⟨hfields, hrest⟩ := codeFields_inj fields _ rest rest' h
    exact ⟨congrArg _ hfields, hrest⟩

theorem codeElems_inj : (vs ws : List Value) → (rest rest' : Bytes) →
    codeElems vs ++ rest = codeElems ws ++ rest' → vs = ws ∧ rest = rest'
  | [], ws, rest, rest', h => by
    cases ws with
    | nil => exact ⟨rfl, (List.cons.inj h).2⟩
    | cons w ws => exact absurd (List.cons.inj h).1 (by decide)
  | v :: vs, ws, rest, rest', h => by
    cases ws with
    | nil => exact absurd (List.cons.inj h).1 (by decide)
    | cons w ws =>
      simp only [codeElems, List.cons_append, List.append_assoc] at h
      obtain ⟨hmark, htail⟩ := List.cons.inj (List.cons.inj h).2
      obtain ⟨rfl, hmore⟩ := payload_inj v w _ _ hmark htail
      obtain ⟨rfl, hrest⟩ := codeElems_inj vs ws rest rest' hmore
      exact ⟨rfl, hrest⟩

theorem codeFields_inj : (fs gs : List (String × Value)) → (rest rest' : Bytes) →
    codeFields fs ++ rest = codeFields gs ++ rest' → fs = gs ∧ rest = rest'
  | [], gs, rest, rest', h => by
    cases gs with
    | nil => exact ⟨rfl, (List.cons.inj h).2⟩
    | cons g gs => exact absurd (List.cons.inj h).1 (by decide)
  | (key, v) :: fs, gs, rest, rest', h => by
    cases gs with
    | nil => exact absurd (List.cons.inj h).1 (by decide)
    | cons g gs =>
      obtain ⟨key', w⟩ := g
      simp only [codeFields, List.cons_append, List.append_assoc] at h
      obtain ⟨hkey, htail⟩ := delimited_inj (List.cons.inj h).2
      obtain ⟨hmark, htail⟩ := List.cons.inj htail
      obtain ⟨rfl, hmore⟩ := payload_inj v w _ _ hmark htail
      obtain ⟨rfl, hrest⟩ := codeFields_inj fs gs rest rest' hmore
      exact ⟨by rw [toUtf8_inj hkey], hrest⟩

end

/-- **Different values have different codes.** -/
theorem code_inj {v w : Value} (h : v.code = w.code) : v = w := by
  obtain ⟨hmark, hpayload⟩ := List.cons.inj h
  exact (payload_inj v w [] [] hmark (by rw [hpayload])).1

end Value

end Json
