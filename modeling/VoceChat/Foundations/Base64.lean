import VoceChat.Foundations.Machine

/-!
# Base64 for URLs

Six bits a character, with `-` and `_` for the last two, and without padding. Bits that are left
over have to be zero. What was written is read back (`decode_encode`); what can be read consists of
digits (`value_isSome_of_decode`).
-/

namespace Base64

open Machine

/-- The character of a number below 64. -/
def digit (n : ℕ) : Char :=
  if n < 26 then Char.ofNat (65 + n)
  else if n < 52 then Char.ofNat (71 + n)
  else if n < 62 then Char.ofNat (n - 4)
  else if n = 62 then '-'
  else '_'

/-- The number of a character. -/
def value (c : Char) : Option ℕ :=
  if 65 ≤ c.toNat ∧ c.toNat ≤ 90 then some (c.toNat - 65)
  else if 97 ≤ c.toNat ∧ c.toNat ≤ 122 then some (c.toNat - 71)
  else if 48 ≤ c.toNat ∧ c.toNat ≤ 57 then some (c.toNat + 4)
  else if c = '-' then some 62
  else if c = '_' then some 63
  else none

def encode : Bytes → List Char
  | [] => []
  | [a] => [digit (a.val / 4), digit (a.val % 4 * 16)]
  | [a, b] => [digit (a.val / 4), digit (a.val % 4 * 16 + b.val / 16), digit (b.val % 16 * 4)]
  | a :: b :: c :: bs =>
    digit (a.val / 4) :: digit (a.val % 4 * 16 + b.val / 16) ::
      digit (b.val % 16 * 4 + c.val / 64) :: digit (c.val % 64) :: encode bs

def decode : List Char → Option Bytes
  | [] => some []
  | [_] => none
  | [c, d] => do
    let x ← value c
    let y ← value d
    if y % 16 = 0 then some [Fin.ofNat 256 (x * 4 + y / 16)] else none
  | [c, d, e] => do
    let x ← value c
    let y ← value d
    let z ← value e
    if z % 4 = 0 then
      some [Fin.ofNat 256 (x * 4 + y / 16), Fin.ofNat 256 (y % 16 * 16 + z / 4)]
    else none
  | c :: d :: e :: f :: cs => do
    let x ← value c
    let y ← value d
    let z ← value e
    let w ← value f
    let bs ← decode cs
    return Fin.ofNat 256 (x * 4 + y / 16) :: Fin.ofNat 256 (y % 16 * 16 + z / 4) ::
      Fin.ofNat 256 (z % 4 * 64 + w) :: bs

/-- Nothing but digits can be read. -/
theorem value_isSome_of_decode {cs : List Char} {bs : Bytes} (h : decode cs = some bs) :
    ∀ c ∈ cs, (value c).isSome = true := by
  have hsome : ∀ {c x}, value c = some x → (value c).isSome = true := fun hc ↦ hc ▸ rfl
  induction cs using decode.induct generalizing bs with
  | case1 => exact fun c hc ↦ absurd hc List.not_mem_nil
  | case2 c => cases h
  | case3 c d =>
    obtain ⟨x, hc, h⟩ := Option.bind_eq_some_iff.1 h
    obtain ⟨y, hd, h⟩ := Option.bind_eq_some_iff.1 h
    rw [List.forall_mem_cons, List.forall_mem_singleton]
    exact ⟨hsome hc, hsome hd⟩
  | case4 c d e =>
    obtain ⟨x, hc, h⟩ := Option.bind_eq_some_iff.1 h
    obtain ⟨y, hd, h⟩ := Option.bind_eq_some_iff.1 h
    obtain ⟨z, he, h⟩ := Option.bind_eq_some_iff.1 h
    rw [List.forall_mem_cons, List.forall_mem_cons, List.forall_mem_singleton]
    exact ⟨hsome hc, hsome hd, hsome he⟩
  | case5 c d e f cs ih =>
    obtain ⟨x, hc, h⟩ := Option.bind_eq_some_iff.1 h
    obtain ⟨y, hd, h⟩ := Option.bind_eq_some_iff.1 h
    obtain ⟨z, he, h⟩ := Option.bind_eq_some_iff.1 h
    obtain ⟨w, hf, h⟩ := Option.bind_eq_some_iff.1 h
    obtain ⟨bs, hcs, h⟩ := Option.bind_eq_some_iff.1 h
    rw [List.forall_mem_cons, List.forall_mem_cons, List.forall_mem_cons, List.forall_mem_cons]
    exact ⟨hsome hc, hsome hd, hsome he, hsome hf, ih hcs⟩

theorem toNat_of_value_isSome {c : Char} (h : (value c).isSome = true) :
    45 ≤ c.toNat ∧ c.toNat ≤ 122 := by
  rw [value] at h
  split at h
  · omega
  · split at h
    · omega
    · split at h
      · omega
      · split at h
        · rename_i hdash
          rw [hdash]
          decide
        · split at h
          · rename_i hunderscore
            rw [hunderscore]
            decide
          · cases h

theorem value_digit : ∀ n < 64, value (digit n) = some n := by decide

theorem first_byte (a : Byte) {k : ℕ} (hk : k < 16) :
    Fin.ofNat 256 (a.val / 4 * 4 + (a.val % 4 * 16 + k) / 16) = a := by
  refine Fin.ext ?_
  rw [Fin.val_ofNat]
  omega

theorem second_byte (x : ℕ) (b : Byte) {k : ℕ} (hk : k < 4) :
    Fin.ofNat 256 ((x * 16 + b.val / 16) % 16 * 16 + (b.val % 16 * 4 + k) / 4) = b := by
  refine Fin.ext ?_
  rw [Fin.val_ofNat]
  omega

theorem third_byte (x : ℕ) (c : Byte) :
    Fin.ofNat 256 ((x * 4 + c.val / 64) % 4 * 64 + c.val % 64) = c := by
  refine Fin.ext ?_
  rw [Fin.val_ofNat]
  omega

/-- What was written is read back. -/
theorem decode_encode (bs : Bytes) : decode (encode bs) = some bs := by
  induction bs using encode.induct with
  | case1 => rfl
  | case2 a =>
    rw [encode, decode, value_digit _ (by omega), value_digit _ (by omega)]
    refine (if_pos (by omega)).trans ?_
    rw [← Nat.add_zero (a.val % 4 * 16), first_byte a (by decide)]
  | case3 a b =>
    rw [encode, decode, value_digit _ (by omega), value_digit _ (by omega),
      value_digit _ (by omega)]
    refine (if_pos (by omega)).trans ?_
    rw [first_byte a (by omega), ← Nat.add_zero (b.val % 16 * 4),
      second_byte (a.val % 4) b (by decide)]
  | case4 a b c bs ih =>
    rw [encode, decode, value_digit _ (by omega), value_digit _ (by omega),
      value_digit _ (by omega), value_digit _ (by omega), ih]
    show some (_ :: _ :: _ :: bs) = _
    rw [first_byte a (by omega), second_byte (a.val % 4) b (by omega), third_byte (b.val % 16) c]

/-- A digit is determined by its number. -/
theorem digit_value {c : Char} {x : ℕ} (h : value c = some x) : x < 64 ∧ digit x = c := by
  have hchar : ∀ {k : ℕ}, k = c.toNat → Char.ofNat k = c := by
    rintro k rfl
    exact Char.ofNat_toNat c
  unfold value at h
  split at h
  · rename_i hupper
    obtain rfl := Option.some.inj h
    rw [digit, if_pos (by omega)]
    exact ⟨by omega, hchar (by omega)⟩
  · split at h
    · rename_i hlower
      obtain rfl := Option.some.inj h
      rw [digit, if_neg (by omega), if_pos (by omega)]
      exact ⟨by omega, hchar (by omega)⟩
    · split at h
      · rename_i hnumber
        obtain rfl := Option.some.inj h
        rw [digit, if_neg (by omega), if_neg (by omega), if_pos (by omega)]
        exact ⟨by omega, hchar (by omega)⟩
      · split at h
        · rename_i hdash
          obtain rfl := Option.some.inj h
          exact ⟨by decide, hdash.symm⟩
        · split at h
          · rename_i hunderscore
            obtain rfl := Option.some.inj h
            exact ⟨by decide, hunderscore.symm⟩
          · cases h

/-- What can be read is what is written for the bytes read: left over bits are zero. -/
theorem encode_decode {cs : List Char} {bs : Bytes} (h : decode cs = some bs) : encode bs = cs := by
  induction cs using decode.induct generalizing bs with
  | case1 =>
    obtain rfl := Option.some.inj h
    rfl
  | case2 c => cases h
  | case3 c d =>
    obtain ⟨x, hc, hx⟩ := Option.bind_eq_some_iff.1 h
    obtain ⟨y, hd, hbits⟩ := Option.bind_eq_some_iff.1 hx
    obtain ⟨hx, rfl⟩ := digit_value hc
    obtain ⟨hy, rfl⟩ := digit_value hd
    split at hbits
    · obtain rfl := Option.some.inj hbits
      have hfirst : (x * 4 + y / 16) % 256 / 4 = x := by omega
      have hsecond : (x * 4 + y / 16) % 256 % 4 * 16 = y := by omega
      rw [encode, Fin.val_ofNat, hfirst, hsecond]
    · cases hbits
  | case4 c d e =>
    obtain ⟨x, hc, hx⟩ := Option.bind_eq_some_iff.1 h
    obtain ⟨y, hd, hy⟩ := Option.bind_eq_some_iff.1 hx
    obtain ⟨z, he, hbits⟩ := Option.bind_eq_some_iff.1 hy
    obtain ⟨hx, rfl⟩ := digit_value hc
    obtain ⟨hy, rfl⟩ := digit_value hd
    obtain ⟨hz, rfl⟩ := digit_value he
    split at hbits
    · obtain rfl := Option.some.inj hbits
      have hfirst : (x * 4 + y / 16) % 256 / 4 = x := by omega
      have hsecond : (x * 4 + y / 16) % 256 % 4 * 16 + (y % 16 * 16 + z / 4) % 256 / 16 = y := by
        omega
      have hthird : (y % 16 * 16 + z / 4) % 256 % 16 * 4 = z := by omega
      rw [encode, Fin.val_ofNat, Fin.val_ofNat, hfirst, hsecond, hthird]
    · cases hbits
  | case5 c d e f cs ih =>
    obtain ⟨x, hc, hx⟩ := Option.bind_eq_some_iff.1 h
    obtain ⟨y, hd, hy⟩ := Option.bind_eq_some_iff.1 hx
    obtain ⟨z, he, hz⟩ := Option.bind_eq_some_iff.1 hy
    obtain ⟨w, hf, hw⟩ := Option.bind_eq_some_iff.1 hz
    obtain ⟨bs', hcs, hbits⟩ := Option.bind_eq_some_iff.1 hw
    obtain ⟨hx, rfl⟩ := digit_value hc
    obtain ⟨hy, rfl⟩ := digit_value hd
    obtain ⟨hz, rfl⟩ := digit_value he
    obtain ⟨hw, rfl⟩ := digit_value hf
    obtain rfl := Option.some.inj hbits
    have hfirst : (x * 4 + y / 16) % 256 / 4 = x := by omega
    have hsecond : (x * 4 + y / 16) % 256 % 4 * 16 + (y % 16 * 16 + z / 4) % 256 / 16 =
      y := by omega
    have hthird : (y % 16 * 16 + z / 4) % 256 % 16 * 4 + (z % 4 * 64 + w) % 256 / 64 = z := by omega
    have hfourth : (z % 4 * 64 + w) % 256 % 64 = w := by omega
    rw [encode, Fin.val_ofNat, Fin.val_ofNat, Fin.val_ofNat, hfirst, hsecond, hthird,
      hfourth, ih hcs]

end Base64
