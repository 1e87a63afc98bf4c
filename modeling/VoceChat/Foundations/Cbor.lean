import Mathlib.Data.Nat.Notation
import VoceChat.Foundations.BigEndian
import VoceChat.Foundations.Guards
import VoceChat.Foundations.Utf8

/-!
# CBOR

A CBOR text is a row of tokens. The head of a token has a major type and a number, which can be
written with the head itself or in one, two, four or eight bytes behind it: the same tokens have
many spellings (`Spells`), of which `write` is the shortest. Different tokens have no spelling in
common (`Spells.inj`).

A reader takes tokens off the front of its input. `Accepts` says which ones, in any spelling and
whatever follows, and that it takes nothing else; readers in a row accept tokens in a row
(`Accepts.bind`). What the operations of a CBOR library accept and write is documented by
`Decoder.Conforms` and `Encoder.Conforms`.
-/

namespace Cbor

open BigEndian Guards Machine Utf8

/-! ### Heads -/

/-- Where the number of a head is. -/
inductive Width where
  | inline
  | one
  | two
  | four
  | eight
  deriving DecidableEq, Repr

namespace Width

def bytes : Width → ℕ
  | inline => 0
  | one => 1
  | two => 2
  | four => 4
  | eight => 8

def bound : Width → ℕ
  | inline => 24
  | one => 256
  | two => 65536
  | four => 4294967296
  | eight => 18446744073709551616

/-- The low bits of the first byte. -/
def info : Width → ℕ → ℕ
  | inline, n => n
  | one, _ => 24
  | two, _ => 25
  | four, _ => 26
  | eight, _ => 27

/-- The first width with room for the number. -/
def shortest (n : ℕ) : Width :=
  if n < 24 then inline
  else if n < 256 then one
  else if n < 65536 then two
  else if n < 4294967296 then four
  else eight

theorem info_lt {w : Width} {n : ℕ} (h : n < w.bound) : w.info n < 32 := by
  cases w <;> simp only [info, bound] at h ⊢ <;> omega

theorem lt_bound_shortest {n : ℕ} (h : n < 18446744073709551616) : n < (shortest n).bound := by
  unfold shortest
  repeat' split
  all_goals simp only [bound]; omega

theorem lt_of_fits {w : Width} {n : ℕ} (h : Fits w.bytes n) (hw : w ≠ inline) : n < w.bound := by
  cases w <;> simp only [bytes, bound, Fits] at h ⊢
  · exact absurd rfl hw
  all_goals omega

theorem fits_of_lt {w : Width} {n : ℕ} (h : n < w.bound) (hw : w ≠ inline) : Fits w.bytes n := by
  cases w <;> simp only [bytes, bound, Fits] at h ⊢
  · exact absurd rfl hw
  all_goals omega

/-- The low bits say where the number is. -/
theorem eq_of_info_eq {w w' : Width} {n n' : ℕ} (h : n < w.bound) (h' : n' < w'.bound)
    (heq : w.info n = w'.info n') : w = w' ∧ (w = inline → n = n') := by
  have hinline : ∀ {n : ℕ} {w : Width} {m : ℕ}, n < 24 → w ≠ inline → n ≠ w.info m := by
    intro n w m hn hw
    cases w <;> simp only [info] <;> first | exact absurd rfl hw | omega
  by_cases hw : w = inline
  · subst hw
    by_cases hw' : w' = inline
    · subst hw'
      exact ⟨rfl, fun _ ↦ heq⟩
    · exact absurd heq (hinline h hw')
  · by_cases hw' : w' = inline
    · subst hw'
      exact absurd heq.symm (hinline h' hw)
    · refine ⟨?_, fun hinl ↦ absurd hinl hw⟩
      cases w <;> cases w' <;> first | rfl | exact absurd rfl hw | exact absurd rfl hw' | cases heq

end Width

/-- The head of a token. -/
def head (major : ℕ) (w : Width) (n : ℕ) : Bytes :=
  Fin.ofNat 256 (32 * major + w.info n) :: beBytes w.bytes n

/-- A head is determined by the bytes that begin with it. -/
theorem head_inj {major major' : ℕ} {w w' : Width} {n n' : ℕ} {bs bs' : Bytes} (hmajor : major < 8)
    (hmajor' : major' < 8) (hn : n < w.bound) (hn' : n' < w'.bound)
    (heq : head major w n ++ bs = head major' w' n' ++ bs') :
    major = major' ∧ w = w' ∧ n = n' ∧ bs = bs' := by
  obtain ⟨hfirst, hrest⟩ := List.cons.inj heq
  have hinfo := Width.info_lt hn
  have hinfo' := Width.info_lt hn'
  have hval := congrArg Fin.val hfirst
  rw [Fin.val_ofNat, Fin.val_ofNat] at hval
  obtain ⟨rfl, hinline⟩ := Width.eq_of_info_eq hn hn' (by omega : w.info n = w'.info n')
  obtain ⟨hbytes, htail⟩ := List.append_inj hrest (by rw [length_beBytes, length_beBytes])
  refine ⟨by omega, rfl, ?_, htail⟩
  by_cases hw : w = .inline
  · exact hinline hw
  · exact beBytes_inj (Width.fits_of_lt hn hw) (Width.fits_of_lt hn' hw) hbytes

/-! ### Tokens -/

/-- The major types of tokens that are heads only. -/
inductive Plain where
  | unsigned
  | negative
  | array
  | map
  | tag
  | simple
  deriving DecidableEq, Repr

def Plain.major : Plain → ℕ
  | unsigned => 0
  | negative => 1
  | array => 4
  | map => 5
  | tag => 6
  | simple => 7

theorem Plain.major_lt (kind : Plain) : kind.major < 8 := by
  cases kind <;> decide

theorem Plain.major_inj {kind kind' : Plain} (h : kind.major = kind'.major) : kind = kind' := by
  cases kind <;> cases kind' <;> first | rfl | cases h

/-- A string of bytes or of text. -/
inductive Stringlike where
  | bytes
  | text
  deriving DecidableEq, Repr

def Stringlike.major : Stringlike → ℕ
  | bytes => 2
  | text => 3

theorem Stringlike.major_lt (kind : Stringlike) : kind.major < 8 := by
  cases kind <;> decide

theorem Stringlike.major_inj {kind kind' : Stringlike} (h : kind.major = kind'.major) :
    kind = kind' := by
  cases kind <;> cases kind' <;> first | rfl | cases h

theorem Plain.major_ne (kind : Plain) (kind' : Stringlike) : kind.major ≠ kind'.major := by
  cases kind <;> cases kind' <;> decide

inductive Token where
  | plain (kind : Plain) (n : ℕ)
  | string (kind : Stringlike) (content : Bytes)
  deriving DecidableEq, Repr

namespace Token

/-- One spelling of a token. -/
def spell (w : Width) : Token → Bytes
  | plain kind n => head kind.major w n
  | string kind content => head kind.major w content.length ++ content

/-- The number of the head. -/
def number : Token → ℕ
  | plain _ n => n
  | string _ content => content.length

/-- The shortest spelling. -/
def write (t : Token) : Bytes := t.spell (Width.shortest t.number)

/-- The token is spelled with a head that has room for its number. -/
def Spelled (t : Token) (bs : Bytes) : Prop := ∃ w : Width, t.number < w.bound ∧ bs = t.spell w

theorem spelled_write {t : Token} (h : t.number < 18446744073709551616) : t.Spelled t.write :=
  ⟨_, Width.lt_bound_shortest h, rfl⟩

/-- A token is determined by the bytes that begin with it. -/
theorem Spelled.inj {t t' : Token} {bs bs' rest rest' : Bytes} (h : t.Spelled bs)
    (h' : t'.Spelled bs') (heq : bs ++ rest = bs' ++ rest') : t = t' ∧ bs = bs' ∧ rest = rest' := by
  obtain ⟨w, hw, rfl⟩ := h
  obtain ⟨w', hw', rfl⟩ := h'
  cases t with
  | plain kind n =>
    cases t' with
    | plain kind' n' =>
      obtain ⟨hmajor, rfl, hn, rfl⟩ := head_inj kind.major_lt kind'.major_lt hw hw' heq
      obtain rfl := Plain.major_inj hmajor
      obtain rfl : n = n' := hn
      exact ⟨rfl, rfl, rfl⟩
    | string kind' content =>
      rw [spell, spell, List.append_assoc] at heq
      have hmajor := (head_inj kind.major_lt kind'.major_lt hw hw' heq).1
      exact absurd hmajor (kind.major_ne kind')
  | string kind content =>
    cases t' with
    | plain kind' n' =>
      rw [spell, spell, List.append_assoc] at heq
      have hmajor := (head_inj kind.major_lt kind'.major_lt hw hw' heq).1
      exact absurd hmajor.symm (kind'.major_ne kind)
    | string kind' content' =>
      rw [spell, spell, List.append_assoc, List.append_assoc] at heq
      obtain ⟨hmajor, rfl, hlength, hrest⟩ := head_inj kind.major_lt kind'.major_lt hw hw' heq
      obtain ⟨rfl, rfl⟩ := List.append_inj hrest hlength
      obtain rfl := Stringlike.major_inj hmajor
      exact ⟨rfl, rfl, rfl⟩

end Token

/-- Tokens in a row, each in some spelling. -/
def Spells : List Token → Bytes → Prop
  | [], bs => bs = []
  | t :: ts, bs => ∃ b bs', t.Spelled b ∧ Spells ts bs' ∧ bs = b ++ bs'

/-- Tokens in a row, each in its shortest spelling. -/
def write (ts : List Token) : Bytes := ts.flatMap Token.write

/-- Every head is as short as it can be. -/
def ShortHeads (bs : Bytes) : Prop :=
  ∃ ts : List Token, (∀ t ∈ ts, t.number < 18446744073709551616) ∧ bs = write ts

theorem spells_singleton {t : Token} {bs : Bytes} : Spells [t] bs ↔ t.Spelled bs := by
  constructor
  · rintro ⟨b, bs', hb, rfl, rfl⟩
    rwa [List.append_nil]
  · exact fun h ↦ ⟨bs, [], h, rfl, (List.append_nil bs).symm⟩

theorem spells_append {ts ts' : List Token} {bs : Bytes} : Spells (ts ++ ts') bs ↔
    ∃ b b', Spells ts b ∧ Spells ts' b' ∧ bs = b ++ b' := by
  induction ts generalizing bs with
  | nil =>
    constructor
    · exact fun h ↦ ⟨[], bs, rfl, h, rfl⟩
    · rintro ⟨b, b', rfl, h, rfl⟩
      exact h
  | cons t ts ih =>
    constructor
    · rintro ⟨b, bs', hb, hbs', rfl⟩
      obtain ⟨c, c', hc, hc', rfl⟩ := ih.1 hbs'
      exact ⟨b ++ c, c', ⟨b, c, hb, hc, rfl⟩, hc', (List.append_assoc _ _ _).symm⟩
    · rintro ⟨_, b', ⟨b, c, hb, hc, rfl⟩, hb', rfl⟩
      exact ⟨b, c ++ b', hb, ih.2 ⟨c, b', hc, hb', rfl⟩, List.append_assoc _ _ _⟩

theorem spells_write {ts : List Token} (h : ∀ t ∈ ts, t.number < 18446744073709551616) :
    Spells ts (write ts) := by
  induction ts with
  | nil => rfl
  | cons t ts ih =>
    obtain ⟨ht, hts⟩ := List.forall_mem_cons.1 h
    exact ⟨t.write, write ts, Token.spelled_write ht, ih hts, rfl⟩

/-- A token takes one byte at least. -/
theorem length_le_write (ts : List Token) : ts.length ≤ (write ts).length := by
  induction ts with
  | nil => exact Nat.le_refl _
  | cons t ts ih =>
    have ht : 1 ≤ t.write.length := by
      cases t with
      | plain kind n => exact Nat.succ_le_succ (Nat.zero_le _)
      | string kind content =>
        rw [Token.write, Token.spell, List.length_append]
        exact Nat.le_trans (Nat.succ_le_succ (Nat.zero_le _)) (Nat.le_add_right _ _)
    rw [write, List.flatMap_cons, List.length_append, List.length_cons]
    exact (Nat.add_comm _ _).le.trans (Nat.add_le_add ht ih)

/-- A string takes its own length at least. -/
theorem content_le_write {ts : List Token} {kind : Stringlike} {content : Bytes}
    (h : .string kind content ∈ ts) : content.length ≤ (write ts).length := by
  induction ts with
  | nil => cases h
  | cons t ts ih =>
    rw [write, List.flatMap_cons, List.length_append]
    rcases List.mem_cons.1 h with rfl | h
    · rw [Token.write, Token.spell, List.length_append]
      omega
    · exact (ih h).trans (Nat.le_add_left _ _)

/-- A spelling is not empty. -/
theorem length_head_le (major : ℕ) (w : Width) (n : ℕ) : (head major w n).length ≤ 9 := by
  rw [head, List.length_cons, length_beBytes]
  cases w <;> decide

/-- Tokens are not longer than their heads and contents can be. -/
theorem length_write_le (ts : List Token) {m : ℕ}
    (h : ∀ kind content, .string kind content ∈ ts → content.length ≤ m) :
    (write ts).length ≤ ts.length * (9 + m) := by
  induction ts with
  | nil => exact Nat.zero_le _
  | cons t ts ih =>
    have hrest := ih fun kind content hmem ↦ h kind content (List.mem_cons_of_mem t hmem)
    have hfirst : t.write.length ≤ 9 + m := by
      cases t with
      | plain kind n => exact Nat.le_trans (length_head_le _ _ _) (Nat.le_add_right 9 m)
      | string kind content =>
        rw [Token.write, Token.spell, List.length_append]
        exact Nat.add_le_add (length_head_le _ _ _) (h kind content List.mem_cons_self)
    rw [write, List.flatMap_cons, List.length_append, List.length_cons, Nat.succ_mul, Nat.add_comm]
    exact Nat.add_le_add hrest hfirst

theorem Token.Spelled.ne_nil {t : Token} {bs : Bytes} (h : t.Spelled bs) : bs ≠ [] := by
  obtain ⟨w, -, rfl⟩ := h
  cases t <;> exact List.cons_ne_nil _ _

/-- A spelling does not go on as one of as many tokens. -/
theorem Spells.eq_nil_of_append {ts ts' : List Token} {bs rest : Bytes}
    (hlen : ts.length = ts'.length) (h : Spells ts bs) (h' : Spells ts' (bs ++ rest)) :
    rest = [] := by
  induction ts generalizing ts' bs with
  | nil =>
    obtain rfl := List.length_eq_zero_iff.1 hlen.symm
    exact (List.append_eq_nil_iff.1 h').2
  | cons t ts ih =>
    cases ts' with
    | nil => cases hlen
    | cons t' ts' =>
      obtain ⟨b, c, hb, hc, rfl⟩ := h
      obtain ⟨b', c', hb', hc', heq⟩ := h'
      rw [List.append_assoc] at heq
      obtain ⟨-, rfl, rfl⟩ := hb.inj hb' heq
      exact ih (Nat.succ.inj hlen) hc hc'

/-- **Different tokens** have no spelling in common. -/
theorem Spells.inj {ts ts' : List Token} {bs : Bytes} (h : Spells ts bs) (h' : Spells ts' bs) :
    ts = ts' := by
  induction ts generalizing ts' bs with
  | nil =>
    obtain rfl : bs = [] := h
    cases ts' with
    | nil => rfl
    | cons t' ts' =>
      obtain ⟨b', c', hb', -, heq⟩ := h'
      exact absurd (List.append_eq_nil_iff.1 heq.symm).1 hb'.ne_nil
  | cons t ts ih =>
    obtain ⟨b, c, hb, hc, rfl⟩ := h
    cases ts' with
    | nil => exact absurd (List.append_eq_nil_iff.1 h').1 hb.ne_nil
    | cons t' ts' =>
      obtain ⟨b', c', hb', hc', heq⟩ := h'
      obtain ⟨rfl, -, rfl⟩ := hb.inj hb' heq
      rw [ih hc hc']

/-- A spelling with shortest heads is the one that is written. -/
theorem Spells.eq_write {ts : List Token} {bs : Bytes} (h : Spells ts bs) (hshort : ShortHeads bs) :
    bs = write ts := by
  obtain ⟨ts', hts', rfl⟩ := hshort
  rw [h.inj (spells_write hts')]

/-! ### Readers -/

section

variable {ε α β : Type}

/-- A reader takes what it needs off the front of its input. -/
abbrev Reader (ε α : Type) := StateT Bytes (Except ε) α

/-- The reader returns `a` for the tokens `ts` with `R a ts`, in any spelling and whatever follows,
and returns nothing else. -/
def Accepts (read : Reader ε α) (R : α → List Token → Prop) : Prop :=
  ∀ input a rest, read input = .ok (a, rest) ↔
    ∃ ts bs, R a ts ∧ Spells ts bs ∧ input = bs ++ rest

variable {read : Reader ε α} {f : α → Reader ε β} {R : α → List Token → Prop}

theorem Accepts.congr {R' : α → List Token → Prop} (h : Accepts read R)
    (hR : ∀ a ts, R a ts ↔ R' a ts) : Accepts read R' := by
  intro input a rest
  rw [h input a rest]
  simp only [hR]

theorem Accepts.bind {S : α → β → List Token → Prop} (h : Accepts read R)
    (h' : ∀ a, Accepts (f a) (S a)) :
    Accepts (read >>= f) fun b ts ↦ ∃ a ts₁ ts₂, R a ts₁ ∧ S a b ts₂ ∧ ts = ts₁ ++ ts₂ := by
  intro input b rest
  show (read input >>= fun p ↦ f p.1 p.2) = .ok (b, rest) ↔ _
  rw [bind_eq_ok]
  constructor
  · rintro ⟨⟨a, behind⟩, hread, hf⟩
    obtain ⟨ts₁, bs₁, hR, hbs₁, rfl⟩ := (h _ _ _).1 hread
    obtain ⟨ts₂, bs₂, hS, hbs₂, rfl⟩ := (h' a _ _ _).1 hf
    exact ⟨ts₁ ++ ts₂, bs₁ ++ bs₂, ⟨a, ts₁, ts₂, hR, hS, rfl⟩,
      spells_append.2 ⟨bs₁, bs₂, hbs₁, hbs₂, rfl⟩, (List.append_assoc _ _ _).symm⟩
  · rintro ⟨_, bs, ⟨a, ts₁, ts₂, hR, hS, rfl⟩, hbs, rfl⟩
    obtain ⟨bs₁, bs₂, hbs₁, hbs₂, rfl⟩ := spells_append.1 hbs
    refine ⟨(a, bs₂ ++ rest), (h _ _ _).2 ⟨ts₁, bs₁, hR, hbs₁, List.append_assoc _ _ _⟩, ?_⟩
    exact (h' a _ _ _).2 ⟨ts₂, bs₂, hS, hbs₂, rfl⟩

/-- One token is read, and then the others. -/
theorem Accepts.bind_token {t : α → Token} {S : α → β → List Token → Prop}
    (h : Accepts read fun a ts ↦ ts = [t a]) (h' : ∀ a, Accepts (f a) (S a)) :
    Accepts (read >>= f) fun b ts ↦ ∃ a ts', S a b ts' ∧ ts = t a :: ts' := by
  refine (h.bind h').congr fun b ts ↦ ?_
  constructor
  · rintro ⟨a, _, ts', rfl, hS, rfl⟩
    exact ⟨a, ts', hS, rfl⟩
  · rintro ⟨a, ts', hS, rfl⟩
    exact ⟨a, _, ts', rfl, hS, rfl⟩

theorem accepts_pure (a : α) : Accepts (pure a : Reader ε α) fun a' ts ↦ a' = a ∧ ts = [] := by
  intro input a' rest
  show Except.ok (a, input) = _ ↔ _
  constructor
  · intro h
    obtain ⟨rfl, rfl⟩ := Prod.mk.inj (Except.ok.inj h)
    exact ⟨[], [], ⟨rfl, rfl⟩, rfl, rfl⟩
  · rintro ⟨_, bs, ⟨rfl, rfl⟩, hbs, rfl⟩
    obtain rfl : bs = [] := hbs
    rfl

/-- A result of another type, or an error. -/
theorem accepts_lift (x : Except ε α) :
    Accepts (StateT.lift x : Reader ε α) fun a ts ↦ x = .ok a ∧ ts = [] := by
  intro input a rest
  show (x >>= fun a ↦ pure (a, input)) = _ ↔ _
  rw [bind_eq_ok]
  constructor
  · rintro ⟨a', hx, h⟩
    obtain ⟨rfl, rfl⟩ := Prod.mk.inj (Except.ok.inj h)
    exact ⟨[], [], ⟨hx, rfl⟩, rfl, rfl⟩
  · rintro ⟨_, bs, ⟨hx, rfl⟩, hbs, rfl⟩
    obtain rfl : bs = [] := hbs
    exact ⟨a, hx, rfl⟩

theorem accepts_ensure (p : Prop) [Decidable p] (e : ε) :
    Accepts (StateT.lift (ensure p e)) fun _ ts ↦ p ∧ ts = [] :=
  (accepts_lift _).congr fun _ _ ↦ and_congr_left fun _ ↦ ensure_eq_ok

/-- What comes after a check can rely on it. -/
theorem accepts_ensure_bind {p : Prop} [Decidable p] (e : ε) (h : p → Accepts read R) :
    Accepts (StateT.lift (ensure p e) >>= fun _ ↦ read) fun a ts ↦ p ∧ R a ts := by
  by_cases hp : p
  · rw [ensure, if_pos hp]
    exact (h hp).congr fun a ts ↦ (and_iff_right hp).symm
  · rw [ensure, if_neg hp]
    intro input a rest
    refine iff_of_false nofun ?_
    rintro ⟨ts, bs, ⟨hp', -⟩, -⟩
    exact hp hp'

/-- Errors can be replaced by others. -/
theorem Accepts.mapError {ε' : Type} (h : Accepts read R) (g : ε → ε') :
    Accepts (fun input ↦ (read input).mapError g : Reader ε' α) R := by
  intro input a rest
  rw [mapError_eq_ok]
  exact h input a rest

end

/-! ### What a library does -/

/-- The operations of a decoder. -/
structure Decoder (ε : Type) where
  u8 : Reader ε Byte
  u16 : Reader ε (Fin 65536)
  u64 : Reader ε (Fin 18446744073709551616)
  bytes : Reader ε Bytes
  str : Reader ε String
  /-- How many entries a map has, or none if its end is marked instead. -/
  map : Reader ε (Option ℕ)

/-- Each operation takes one token of its kind, in any spelling. -/
structure Decoder.Conforms {ε : Type} (D : Decoder ε) : Prop where
  u8 : Accepts D.u8 fun n ts ↦ ts = [.plain .unsigned n.val]
  u16 : Accepts D.u16 fun n ts ↦ ts = [.plain .unsigned n.val]
  u64 : Accepts D.u64 fun n ts ↦ ts = [.plain .unsigned n.val]
  bytes : Accepts D.bytes fun content ts ↦ ts = [.string .bytes content]
  str : Accepts D.str fun s ts ↦ ts = [.string .text (toUtf8 s)]
  map : ∀ input n rest, D.map input = .ok (some n, rest) ↔
    ∃ bs, (Token.plain .map n).Spelled bs ∧ input = bs ++ rest
  map_marked : ∀ input rest, D.map input = .ok (none, rest) ↔ input = 191 :: rest

/-- A map whose size decides what happens next, where a marked end is an error. -/
theorem Decoder.Conforms.accepts_map {ε ε' α : Type} {D : Decoder ε} (h : D.Conforms) (g : ε → ε')
    {x : Option ℕ → Except ε' α} (hx : ∀ a, x none ≠ .ok a) :
    Accepts ((fun input ↦ (D.map input).mapError g : Reader ε' (Option ℕ)) >>=
      fun n ↦ StateT.lift (x n)) fun a ts ↦ ∃ n, x (some n) = .ok a ∧ ts = [.plain .map n] := by
  intro input a rest
  show ((D.map input).mapError g >>= fun p ↦ x p.1 >>= fun a ↦ pure (a, p.2)) = _ ↔ _
  simp only [bind_eq_ok, mapError_eq_ok, Prod.exists, pure_eq_ok, Prod.mk.injEq]
  constructor
  · rintro ⟨o, behind, hmap, a', hok, rfl, rfl⟩
    cases o with
    | none => exact absurd hok (hx a')
    | some n =>
      obtain ⟨bs, hbs, rfl⟩ := (h.map _ _ _).1 hmap
      exact ⟨_, bs, ⟨n, hok, rfl⟩, spells_singleton.2 hbs, rfl⟩
  · rintro ⟨_, bs, ⟨n, hok, rfl⟩, hbs, rfl⟩
    exact ⟨some n, rest, (h.map _ _ _).2 ⟨bs, spells_singleton.1 hbs, rfl⟩, a, hok, rfl, rfl⟩

/-- The operations of an encoder. -/
structure Encoder where
  u8 : Byte → Bytes
  u16 : Fin 65536 → Bytes
  u64 : Fin 18446744073709551616 → Bytes
  bytes : Bytes → Bytes
  str : String → Bytes
  map : ℕ → Bytes

/-- Each operation writes one token, in its shortest spelling. -/
structure Encoder.Conforms (E : Encoder) : Prop where
  u8 : ∀ n, E.u8 n = (Token.plain .unsigned n.val).write
  u16 : ∀ n, E.u16 n = (Token.plain .unsigned n.val).write
  u64 : ∀ n, E.u64 n = (Token.plain .unsigned n.val).write
  bytes : ∀ content, E.bytes content = (Token.string .bytes content).write
  str : ∀ s, E.str s = (Token.string .text (toUtf8 s)).write
  map : ∀ n, E.map n = (Token.plain .map n).write

/-- An encoder that conforms. -/
def plainEncoder : Encoder where
  u8 n := (Token.plain .unsigned n.val).write
  u16 n := (Token.plain .unsigned n.val).write
  u64 n := (Token.plain .unsigned n.val).write
  bytes content := (Token.string .bytes content).write
  str s := (Token.string .text (toUtf8 s)).write
  map n := (Token.plain .map n).write

theorem plainEncoder_conforms : plainEncoder.Conforms :=
  ⟨fun _ ↦ rfl, fun _ ↦ rfl, fun _ ↦ rfl, fun _ ↦ rfl, fun _ ↦ rfl, fun _ ↦ rfl⟩

/-! ### A decoder that conforms -/

/-- Where the low bits of a first byte say that the number is. -/
def widthOf (info : ℕ) : Option Width :=
  if info < 24 then some .inline
  else if info = 24 then some .one
  else if info = 25 then some .two
  else if info = 26 then some .four
  else if info = 27 then some .eight
  else none

/-- The major type and the number of a head. -/
def readHead : Reader String (ℕ × ℕ)
  | [] => .error "end of input bytes"
  | b :: bs =>
    match widthOf (b.val % 32) with
    | none => .error "unexpected type"
    | some .inline => .ok ((b.val / 32, b.val % 32), bs)
    | some w =>
      if w.bytes ≤ bs.length then .ok ((b.val / 32, ofBe (bs.take w.bytes)), bs.drop w.bytes)
      else .error "end of input bytes"

def readPlain (kind : Plain) : Reader String ℕ := do
  let (major, n) ← readHead
  if major = kind.major then return n else throw "unexpected type"

def readString (kind : Stringlike) : Reader String Bytes := do
  let (major, n) ← readHead
  if major = kind.major then
    fun bs ↦ if n ≤ bs.length then .ok (bs.take n, bs.drop n) else .error "end of input bytes"
  else throw "unexpected type"

/-- A number that is too large for its type is an error. -/
def readBounded (m : ℕ) : Reader String (Fin m) := do
  let n ← readPlain .unsigned
  if h : n < m then return ⟨n, h⟩ else throw "overflow"

def readText : Reader String String := do
  let content ← readString .text
  StateT.lift (okOr (fromUtf8 content) "invalid utf-8")

def plainDecoder : Decoder String where
  u8 := readBounded 256
  u16 := readBounded 65536
  u64 := readBounded 18446744073709551616
  bytes := readString .bytes
  str := readText
  map input := if input.head? = some 191 then .ok (none, input.tail)
    else (readPlain .map input).map fun p ↦ (some p.1, p.2)

theorem widthOf_info {w : Width} {n : ℕ} (h : n < w.bound) : widthOf (w.info n) = some w := by
  cases w
  · exact if_pos h
  all_goals rfl

theorem head_eq {major : ℕ} {w : Width} {n : ℕ} (hmajor : major < 8) (h : n < w.bound) :
    (Fin.ofNat 256 (32 * major + w.info n) : Byte).val = 32 * major + w.info n := by
  have hinfo := Width.info_lt h
  rw [Fin.val_ofNat, Nat.mod_eq_of_lt (by omega)]

theorem readHead_head {major : ℕ} {w : Width} {n : ℕ} (hmajor : major < 8) (h : n < w.bound)
    (rest : Bytes) : readHead (head major w n ++ rest) = .ok ((major, n), rest) := by
  have hinfo := Width.info_lt h
  have hmod : (32 * major + w.info n) % 32 = w.info n := by omega
  have hdiv : (32 * major + w.info n) / 32 = major := by omega
  have hbytes : w ≠ .inline → ofBe (beBytes w.bytes n) = n :=
    fun hw ↦ ofBe_beBytes (Width.fits_of_lt h hw)
  rw [head, List.cons_append, readHead, head_eq hmajor h, hmod, widthOf_info h]
  cases w with
  | inline =>
    simp only
    rw [hdiv]
    rfl
  | _ =>
    simp only
    rw [if_pos (by rw [List.length_append, length_beBytes]; exact Nat.le_add_right _ _),
      List.take_left' (length_beBytes _ _), List.drop_left' (length_beBytes _ _), hdiv,
      hbytes (by decide)]

theorem widthOf_eq_some {info : ℕ} {w : Width} (h : widthOf info = some w) :
    w = .inline ∧ info < 24 ∨ w ≠ .inline ∧ ∀ n, w.info n = info := by
  unfold widthOf at h
  split at h
  · rename_i hlt
    exact .inl ⟨(Option.some.inj h).symm, hlt⟩
  all_goals
    right
    repeat' split at h
    all_goals
      first
      | cases h
        rename_i hinfo
        exact ⟨nofun, fun _ ↦ hinfo.symm⟩
      | cases h

/-- **A head is read** in any of its spellings, and nothing else is. -/
theorem readHead_eq_ok {input rest : Bytes} {major n : ℕ} :
    readHead input = .ok ((major, n), rest) ↔
      major < 8 ∧ ∃ w : Width, n < w.bound ∧ input = head major w n ++ rest := by
  constructor
  · intro h
    cases input with
    | nil => cases h
    | cons b bs =>
      have hb := b.isLt
      rw [readHead] at h
      split at h
      · cases h
      · rename_i hwidth
        obtain ⟨hpair, rfl⟩ := Prod.mk.inj (Except.ok.inj h)
        obtain ⟨rfl, rfl⟩ := Prod.mk.inj hpair
        rcases widthOf_eq_some hwidth with ⟨-, hlt⟩ | ⟨hne, -⟩
        · refine ⟨by omega, .inline, hlt, ?_⟩
          have hfirst : (Fin.ofNat 256 (32 * (b.val / 32) + b.val % 32) : Byte) = b :=
            Fin.ext (by rw [Fin.val_ofNat]; omega)
          rw [head, Width.info, hfirst]
          rfl
        · exact absurd rfl hne
      · rename_i w hinline hwidth
        split at h
        · rename_i hlen
          obtain ⟨hpair, rfl⟩ := Prod.mk.inj (Except.ok.inj h)
          obtain ⟨rfl, rfl⟩ := Prod.mk.inj hpair
          rcases widthOf_eq_some hwidth with ⟨rfl, -⟩ | ⟨hne, hinfo⟩
          · exact absurd rfl hinline
          · have hlength : (bs.take w.bytes).length = w.bytes := List.length_take_of_le hlen
            have hfits := fits_ofBe (bs.take w.bytes)
            have hbytes := beBytes_ofBe (bs.take w.bytes)
            rw [hlength] at hfits hbytes
            refine ⟨by omega, w, Width.lt_of_fits hfits hne, ?_⟩
            have hfirst : (Fin.ofNat 256 (32 * (b.val / 32) + b.val % 32) : Byte) = b :=
              Fin.ext (by rw [Fin.val_ofNat]; omega)
            rw [head, hinfo, hfirst, hbytes, List.cons_append, List.take_append_drop]
        · cases h
  · rintro ⟨hmajor, w, hn, rfl⟩
    exact readHead_head hmajor hn rest

theorem accepts_readPlain (kind : Plain) :
    Accepts (readPlain kind) fun n ts ↦ ts = [.plain kind n] := by
  intro input n rest
  show (readHead input >>= fun p ↦
    (if p.1.1 = kind.major then pure p.1.2
      else throw "unexpected type" : Reader String ℕ) p.2) = _ ↔ _
  rw [bind_eq_ok]
  constructor
  · rintro ⟨⟨⟨major, n'⟩, rest'⟩, hread, h⟩
    simp only at h
    split at h
    · rename_i hmajor
      obtain ⟨rfl, rfl⟩ := Prod.mk.inj (Except.ok.inj h)
      obtain ⟨-, w, hn, rfl⟩ := readHead_eq_ok.1 hread
      exact ⟨_, _, rfl, spells_singleton.2 ⟨w, hn, rfl⟩, by rw [hmajor]; rfl⟩
    · cases h
  · rintro ⟨_, bs, rfl, hbs, rfl⟩
    obtain ⟨w, hn, rfl⟩ := spells_singleton.1 hbs
    exact ⟨((kind.major, n), rest), readHead_head kind.major_lt hn rest, congrFun (if_pos rfl) rest⟩

theorem accepts_readString (kind : Stringlike) :
    Accepts (readString kind) fun content ts ↦ ts = [.string kind content] := by
  intro input content rest
  show (readHead input >>= fun p ↦ (if p.1.1 = kind.major then
    fun bs ↦ if p.1.2 ≤ bs.length then .ok (bs.take p.1.2, bs.drop p.1.2)
      else .error "end of input bytes"
    else throw "unexpected type" : Reader String Bytes) p.2) = _ ↔ _
  rw [bind_eq_ok]
  constructor
  · rintro ⟨⟨⟨major, n⟩, behind⟩, hread, h⟩
    simp only at h
    split at h
    · rename_i hmajor
      change (if n ≤ behind.length then Except.ok (behind.take n, behind.drop n) else _) = _ at h
      split at h
      · rename_i hlen
        obtain ⟨rfl, rfl⟩ := Prod.mk.inj (Except.ok.inj h)
        obtain ⟨-, w, hn, rfl⟩ := readHead_eq_ok.1 hread
        have hlength : (behind.take n).length = n := List.length_take_of_le hlen
        refine ⟨_, _, rfl, spells_singleton.2 ⟨w, ?_, rfl⟩, ?_⟩
        · rw [Token.number, hlength]
          exact hn
        · rw [Token.spell, hlength, hmajor, List.append_assoc, List.take_append_drop]
      · cases h
    · cases h
  · rintro ⟨_, bs, rfl, hbs, rfl⟩
    obtain ⟨w, hn, rfl⟩ := spells_singleton.1 hbs
    refine ⟨((kind.major, content.length), content ++ rest), ?_, ?_⟩
    · rw [Token.spell, List.append_assoc]
      exact readHead_head kind.major_lt hn _
    · refine (congrFun (if_pos rfl) (content ++ rest)).trans ?_
      have hlen : content.length ≤ (content ++ rest).length := by
        rw [List.length_append]
        exact Nat.le_add_right _ _
      refine (if_pos hlen).trans ?_
      rw [List.take_left, List.drop_left]

theorem accepts_readBounded (m : ℕ) :
    Accepts (readBounded m) fun n ts ↦ ts = [.plain .unsigned n.val] := by
  have hcheck : ∀ n : ℕ, Accepts
      (if h : n < m then return ⟨n, h⟩ else throw "overflow" : Reader String (Fin m))
      fun k ts ↦ k.val = n ∧ ts = [] := by
    intro n
    by_cases h : n < m
    · rw [dif_pos h]
      refine (accepts_pure _).congr fun k ts ↦ and_congr_left fun _ ↦ ?_
      exact ⟨fun hk ↦ congrArg Fin.val hk, fun hk ↦ Fin.ext hk⟩
    · rw [dif_neg h]
      intro input k rest
      refine iff_of_false nofun ?_
      rintro ⟨ts, bs, ⟨hk, -⟩, -⟩
      exact h (hk ▸ k.isLt)
  refine ((accepts_readPlain .unsigned).bind hcheck).congr fun k ts ↦ ?_
  constructor
  · rintro ⟨n, _, _, rfl, ⟨rfl, rfl⟩, rfl⟩
    rfl
  · rintro rfl
    exact ⟨k.val, _, [], rfl, ⟨rfl, rfl⟩, rfl⟩

theorem accepts_readText : Accepts readText fun s ts ↦ ts = [.string .text (toUtf8 s)] := by
  refine ((accepts_readString .text).bind fun content ↦ accepts_lift _).congr fun s ts ↦ ?_
  constructor
  · rintro ⟨content, _, _, rfl, ⟨htext, rfl⟩, rfl⟩
    obtain rfl := fromUtf8_eq_some.1 (okOr_eq_ok.1 htext)
    rfl
  · rintro rfl
    exact ⟨toUtf8 s, _, [], rfl, ⟨okOr_eq_ok.2 (fromUtf8_toUtf8 s), rfl⟩, rfl⟩

theorem plainDecoder_conforms : plainDecoder.Conforms where
  u8 := accepts_readBounded 256
  u16 := accepts_readBounded 65536
  u64 := accepts_readBounded 18446744073709551616
  bytes := accepts_readString .bytes
  str := accepts_readText
  map input n rest := by
    have hread := accepts_readPlain .map input n rest
    simp only [exists_and_left, exists_eq_left, spells_singleton] at hread
    rw [← hread]
    show (if input.head? = some 191 then .ok (none, input.tail)
      else (readPlain .map input).map fun p ↦ (some p.1, p.2)) = _ ↔ _
    split
    · rename_i hmarked
      refine iff_of_false nofun fun h ↦ ?_
      obtain ⟨bs, ⟨w, hn, rfl⟩, rfl⟩ := hread.1 h
      have hn : n < w.bound := hn
      have hfirst := congrArg Fin.val (Option.some.inj hmarked)
      rw [head_eq (Plain.major_lt .map) hn] at hfirst
      have hinfo : w.info n < 28 := by
        cases w <;> simp only [Width.info, Width.bound] at hn ⊢ <;> omega
      have hval : 32 * 5 + w.info n = 191 := hfirst
      omega
    · rw [map_eq_ok]
      constructor
      · rintro ⟨⟨n', rest'⟩, h, heq⟩
        obtain ⟨hn, rfl⟩ := Prod.mk.inj heq
        obtain rfl := Option.some.inj hn
        exact h
      · exact fun h ↦ ⟨(n, rest), h, rfl⟩
  map_marked input rest := by
    show (if input.head? = some 191 then .ok (none, input.tail)
      else (readPlain .map input).map fun p ↦ (some p.1, p.2)) = _ ↔ _
    split
    · rename_i hmarked
      obtain ⟨bs, rfl⟩ := List.head?_eq_some_iff.1 hmarked
      constructor
      · intro h
        rw [← (Prod.mk.inj (Except.ok.inj h)).2]
        rfl
      · intro h
        rw [(List.cons.inj h).2]
        rfl
    · rename_i hnot
      refine iff_of_false (fun h ↦ ?_) fun h ↦ hnot (by rw [h]; rfl)
      obtain ⟨p, -, hp⟩ := map_eq_ok.1 h
      cases (Prod.mk.inj hp).1

end Cbor
