import Mathlib.Data.Nat.Notation
import Mathlib.Data.Int.Notation
import VoceChat.Foundations.Machine

/-!
# JSON texts

Bytes are read into a tree that keeps numbers and strings as they are written: what a number or an
escape means is up to the one who asks for it (`Node.text`). Texts are made of printed
strings, numbers and objects.

`Prints` says that a text is read as a tree whatever follows it. It holds of printed strings,
whatever is in them (`prints_string`), of integers (`prints_int`), and of objects of printed values
(`prints_object`), so that a printed text is read as what it was printed from (`parse_of_prints`).
-/

namespace JsonText

open Machine

/-- The byte of an ASCII character. -/
def code (c : Char) : Byte := Fin.ofNat 256 c.toNat

/-- An ASCII text. -/
def ascii (cs : List Char) : Bytes := cs.map code

inductive Node where
  | null
  | bool (b : Bool)
  | number (literal : Bytes)
  | string (raw : Bytes)
  | array (elems : List Node)
  | object (members : List (Bytes × Node))

/-! ### Reading -/

def isSpace (b : Byte) : Bool :=
  b = code ' ' || b = code '\t' || b = code '\n' || b = code '\r'

def skipSpace (bytes : Bytes) : Bytes := bytes.dropWhile isSpace

def isDigit (b : Byte) : Bool := code '0' ≤ b && b ≤ code '9'

/-- The value of a hexadecimal digit, in either case. -/
def hexValue (b : Byte) : Option ℕ :=
  if isDigit b then some (b.val - 48)
  else if code 'a' ≤ b ∧ b ≤ code 'f' then some (b.val - 87)
  else if code 'A' ≤ b ∧ b ≤ code 'F' then some (b.val - 55)
  else none

/-- What a letter after a backslash stands for, apart from `u`. -/
def simpleEscape (e : Byte) : Option Byte :=
  if e = code '"' ∨ e = code '\\' ∨ e = code '/' then some e
  else if e = code 'b' then some 8
  else if e = code 'f' then some 12
  else if e = code 'n' then some (code '\n')
  else if e = code 'r' then some (code '\r')
  else if e = code 't' then some (code '\t')
  else none

/-- Up to the closing quote: the characters as they are written, and what follows. -/
def scanString : Bytes → Option (Bytes × Bytes)
  | [] => none
  | b :: bs =>
    if b = code '"' then some ([], bs)
    else if b = code '\\' then
      match bs with
      | [] => none
      | e :: bs =>
        if e = code 'u' then
          match bs with
          | h₁ :: h₂ :: h₃ :: h₄ :: rest =>
            if [h₁, h₂, h₃, h₄].all fun h ↦ (hexValue h).isSome then
              (scanString rest).map (Prod.map (b :: e :: h₁ :: h₂ :: h₃ :: h₄ :: ·) id)
            else none
          | _ => none
        else if (simpleEscape e).isSome then (scanString bs).map (Prod.map (b :: e :: ·) id)
        else none
    else if b.val < 32 then none
    else (scanString bs).map (Prod.map (b :: ·) id)

/-- One digit at least. -/
def scanDigits (bytes : Bytes) : Option (Bytes × Bytes) :=
  if bytes.takeWhile isDigit = [] then none
  else some (bytes.takeWhile isDigit, bytes.dropWhile isDigit)

/-- A zero, or digits that do not begin with one. -/
def scanInteger : Bytes → Option (Bytes × Bytes)
  | [] => none
  | b :: bs => if b = code '0' then some ([b], bs) else scanDigits (b :: bs)

/-- A sign before something that is scanned. -/
def scanSigned (signs : Bytes) (scan : Bytes → Option (Bytes × Bytes)) :
    Bytes → Option (Bytes × Bytes)
  | [] => scan []
  | b :: bs => if b ∈ signs then (scan bs).map (Prod.map (b :: ·) id) else scan (b :: bs)

/-- A part that is there if it is announced. -/
def scanPart (marks : Bytes) (scan : Bytes → Option (Bytes × Bytes)) :
    Bytes → Option (Bytes × Bytes)
  | [] => some ([], [])
  | b :: bs => if b ∈ marks then (scan bs).map (Prod.map (b :: ·) id) else some ([], b :: bs)

def scanNumber (bytes : Bytes) : Option (Bytes × Bytes) := do
  let (int, bs) ← scanSigned [code '-'] scanInteger bytes
  let (frac, bs) ← scanPart [code '.'] scanDigits bs
  let (exp, bs) ← scanPart [code 'e', code 'E'] (scanSigned [code '+', code '-'] scanDigits) bs
  return (int ++ frac ++ exp, bs)

/-- The next byte, which has to be this one. -/
def expect (b : Byte) : Bytes → Option Bytes
  | [] => none
  | c :: bs => if c = b then some bs else none

/-- The rest of a word. -/
def scanWord (word : List Char) (node : Node) (bytes : Bytes) : Option (Node × Bytes) :=
  if ascii word <+: bytes then some (node, bytes.drop word.length) else none

mutual

/-- A value, after white space, and what follows it. -/
def value : ℕ → Bytes → Option (Node × Bytes)
  | 0, _ => none
  | fuel + 1, bytes =>
    match skipSpace bytes with
    | [] => none
    | b :: bs =>
      if b = code '"' then (scanString bs).map (Prod.map .string id)
      -- `members` and `elements` expect one at least, so that no comma stands before the end
      else if b = code '{' then
        if (skipSpace bs).head? = some (code '}') then some (.object [], (skipSpace bs).tail)
        else (members fuel bs).map (Prod.map .object id)
      else if b = code '[' then
        if (skipSpace bs).head? = some (code ']') then some (.array [], (skipSpace bs).tail)
        else (elements fuel bs).map (Prod.map .array id)
      else if b = code 't' then scanWord ['r', 'u', 'e'] (.bool true) bs
      else if b = code 'f' then scanWord ['a', 'l', 's', 'e'] (.bool false) bs
      else if b = code 'n' then scanWord ['u', 'l', 'l'] .null bs
      else (scanNumber (b :: bs)).map (Prod.map .number id)

/-- Members up to the closing brace, one at least. -/
def members : ℕ → Bytes → Option (List (Bytes × Node) × Bytes)
  | 0, _ => none
  | fuel + 1, bytes => do
    let (key, bs) ← (expect (code '"') (skipSpace bytes)).bind scanString
    let (node, bs) ← (expect (code ':') (skipSpace bs)).bind (value fuel)
    match skipSpace bs with
    | [] => none
    | b :: bs =>
      if b = code ',' then (members fuel bs).map (Prod.map ((key, node) :: ·) id)
      else if b = code '}' then some ([(key, node)], bs)
      else none

/-- Elements up to the closing bracket, one at least. -/
def elements : ℕ → Bytes → Option (List Node × Bytes)
  | 0, _ => none
  | fuel + 1, bytes => do
    let (node, bs) ← value fuel bytes
    match skipSpace bs with
    | [] => none
    | b :: bs =>
      if b = code ',' then (elements fuel bs).map (Prod.map (node :: ·) id)
      else if b = code ']' then some ([node], bs)
      else none

end

/-- The one value of a text, with nothing but white space after it. -/
def parse (bytes : Bytes) : Option Node := do
  let (node, rest) ← value (bytes.length + 1) bytes
  if skipSpace rest = [] then some node else none

/-! ### Looking into a tree -/

/-- `char::encode_utf8`, of all characters. -/
def utf8 (cs : List Char) : Bytes :=
  cs.flatMap fun c ↦ (String.utf8EncodeChar c).map fun b ↦ Fin.ofNat 256 b.toNat

/-- Four hexadecimal digits. -/
def hexNumber (h₁ h₂ h₃ h₄ : Byte) : Option ℕ := do
  let a ← hexValue h₁
  let b ← hexValue h₂
  let c ← hexValue h₃
  let d ← hexValue h₄
  return 4096 * a + 256 * b + 16 * c + d

/-- The bytes that a string stands for. Surrogates come in pairs. -/
def unescape : Bytes → Option Bytes
  | [] => some []
  | b :: bs =>
    if b = code '\\' then
      match bs with
      | [] => none
      | e :: bs =>
        if e = code 'u' then
          match bs with
          | h₁ :: h₂ :: h₃ :: h₄ :: rest => do
            let n ← hexNumber h₁ h₂ h₃ h₄
            -- a leading surrogate needs a trailing one
            if 0xD800 ≤ n ∧ n < 0xDC00 then
              match rest with
              | b' :: e' :: g₁ :: g₂ :: g₃ :: g₄ :: rest => do
                let m ← hexNumber g₁ g₂ g₃ g₄
                if b' = code '\\' ∧ e' = code 'u' ∧ 0xDC00 ≤ m ∧ m < 0xE000 then
                  (unescape rest).map
                    (utf8 [Char.ofNat (0x10000 + 1024 * (n - 0xD800) + (m - 0xDC00))] ++ ·)
                else none
              | _ => none
            -- a trailing one alone stands for nothing
            else if 0xDC00 ≤ n ∧ n < 0xE000 then none
            else (unescape rest).map (utf8 [Char.ofNat n] ++ ·)
          | _ => none
        else (simpleEscape e).bind fun c ↦ (unescape bs).map (c :: ·)
    else (unescape bs).map (b :: ·)

/-- The text of a string. -/
def textOf (raw : Bytes) : Option Bytes := (unescape raw).filter fun bs ↦ (fromUtf8 bs).isSome

def Node.text : Node → Option Bytes
  | string raw => textOf raw
  | _ => none

/-- The number of decimal digits. -/
def natOf (digits : Bytes) : ℕ := digits.foldl (fun n d ↦ 10 * n + (d.val - 48)) 0

/-- An `i64`. What has a fraction or an exponent is a float, and so is `-0`. -/
def Node.i64 : Node → Option ℤ
  | number (b :: bs) =>
    if b = code '-' then
      if bs.all isDigit ∧ 0 < natOf bs ∧ natOf bs ≤ i64Size then some (-(natOf bs : ℤ)) else none
    else if (b :: bs).all isDigit ∧ natOf (b :: bs) < i64Size then some (natOf (b :: bs) : ℤ)
    else none
  | _ => none

/-- The member with a name. More than one is an error. -/
def lookup (members : List (Bytes × Node)) (name : Bytes) : Option (Option Node) :=
  match members.filter fun m ↦ textOf m.1 = some name with
  | [] => some none
  | [m] => some (some m.2)
  | _ => none

/-- The fields of a structure. Other members are ignored, and an array has the fields in order. -/
def Node.fields (names : List Bytes) : Node → Option (List (Option Node))
  | object members =>
    if members.all fun m ↦ (textOf m.1).isSome then names.mapM (lookup members) else none
  | array elems => if elems.length = names.length then some (elems.map some) else none
  | _ => none

/-! ### Printing -/

/-- The letter that escapes a byte. -/
def shortEscape (b : Byte) : Option Byte :=
  if b = code '"' ∨ b = code '\\' then some b
  else if b.val = 8 then some (code 'b')
  else if b.val = 12 then some (code 'f')
  else if b = code '\n' then some (code 'n')
  else if b = code '\r' then some (code 'r')
  else if b = code '\t' then some (code 't')
  else none

def hexDigit (n : ℕ) : Byte := if n < 10 then Fin.ofNat 256 (48 + n) else Fin.ofNat 256 (87 + n)

def escapeByte (b : Byte) : Bytes :=
  match shortEscape b with
  | some e => [code '\\', e]
  | none =>
    if b.val < 32 then
      [code '\\', code 'u', code '0', code '0', hexDigit (b.val / 16), hexDigit (b.val % 16)]
    else [b]

def escape (bs : Bytes) : Bytes := bs.flatMap escapeByte

def printString (bs : Bytes) : Bytes := code '"' :: (escape bs ++ [code '"'])

def decimal (n : ℕ) : Bytes := ascii (Nat.toDigits 10 n)

def printInt (n : ℤ) : Bytes :=
  if n < 0 then code '-' :: decimal n.natAbs else decimal n.natAbs

def printBool (b : Bool) : Bytes :=
  ascii (if b then ['t', 'r', 'u', 'e'] else ['f', 'a', 'l', 's', 'e'])

/-- The members, with their values printed, and the closing brace. -/
def printMembers : List (Bytes × Bytes) → Bytes
  | [] => [code '}']
  | [(name, text)] => printString name ++ code ':' :: (text ++ [code '}'])
  | (name, text) :: ms => printString name ++ code ':' :: (text ++ code ',' :: printMembers ms)

def printObject (ms : List (Bytes × Bytes)) : Bytes := code '{' :: printMembers ms

/-! ### What is printed is read -/

variable {b e : Byte} {bs rest : Bytes}

theorem shortEscape_all :
    ∀ b : Byte, ((shortEscape b).all fun e ↦ e ≠ code 'u' ∧ simpleEscape e = some b) = true := by
  decide +kernel

theorem simpleEscape_of_shortEscape (h : shortEscape b = some e) :
    e ≠ code 'u' ∧ simpleEscape e = some b := by
  have hall := shortEscape_all b
  rw [h] at hall
  exact of_decide_eq_true hall

theorem ne_of_shortEscape_none :
    ∀ b : Byte, shortEscape b = none → b ≠ code '"' ∧ b ≠ code '\\' := by
  decide +kernel

theorem hexValue_hexDigit : ∀ n < 16, hexValue (hexDigit n) = some n := by decide

theorem scanString_quote (bs : Bytes) : scanString (code '"' :: bs) = some ([], bs) := by
  rw [scanString.eq_def]
  exact if_pos rfl

theorem scanString_plain (hquote : b ≠ code '"') (hbackslash : b ≠ code '\\') (hb : ¬b.val < 32)
    (bs : Bytes) : scanString (b :: bs) = (scanString bs).map (Prod.map (b :: ·) id) := by
  rw [scanString.eq_def]
  simp only [if_neg hquote, if_neg hbackslash, if_neg hb]

theorem scanString_simple (hu : e ≠ code 'u') (he : (simpleEscape e).isSome = true) (bs : Bytes) :
    scanString (code '\\' :: e :: bs) =
      (scanString bs).map (Prod.map (code '\\' :: e :: ·) id) := by
  have hne : code '\\' ≠ code '"' := by decide
  rw [scanString.eq_def]
  simp only [if_neg hne, if_pos, if_neg hu, if_pos he]

theorem scanString_hex {h₁ h₂ h₃ h₄ : Byte}
    (hall : [h₁, h₂, h₃, h₄].all (fun h ↦ (hexValue h).isSome) = true) (bs : Bytes) :
    scanString (code '\\' :: code 'u' :: h₁ :: h₂ :: h₃ :: h₄ :: bs) =
      (scanString bs).map (Prod.map (code '\\' :: code 'u' :: h₁ :: h₂ :: h₃ :: h₄ :: ·) id) := by
  have hne : code '\\' ≠ code '"' := by decide
  rw [scanString.eq_def]
  simp only [if_neg hne, if_pos, if_pos hall]

theorem scanString_escapeByte (b : Byte) (bs : Bytes) :
    scanString (escapeByte b ++ bs) = (scanString bs).map (Prod.map (escapeByte b ++ ·) id) := by
  -- a letter of its own, a number, or the byte itself
  cases hshort : shortEscape b with
  | some e =>
    obtain ⟨hu, hsimple⟩ := simpleEscape_of_shortEscape hshort
    rw [escapeByte, hshort]
    exact scanString_simple hu (hsimple ▸ rfl) bs
  | none =>
    obtain ⟨hquote, hbackslash⟩ := ne_of_shortEscape_none b hshort
    rw [escapeByte, hshort]
    by_cases hcontrol : b.val < 32
    · have hall : [code '0', code '0', hexDigit (b.val / 16), hexDigit (b.val % 16)].all
          (fun h ↦ (hexValue h).isSome) = true := by
        have h₀ : hexValue (code '0') = some 0 := by decide
        simp only [List.all_cons, List.all_nil, h₀, hexValue_hexDigit (b.val / 16) (by omega),
          hexValue_hexDigit (b.val % 16) (by omega)]
        rfl
      simp only [if_pos hcontrol]
      exact scanString_hex hall bs
    · simp only [if_neg hcontrol]
      exact scanString_plain hquote hbackslash hcontrol bs

theorem scanString_escape (bs rest : Bytes) :
    scanString (escape bs ++ code '"' :: rest) = some (escape bs, rest) := by
  induction bs with
  | nil => exact scanString_quote rest
  | cons b bs ih =>
    rw [escape, List.flatMap_cons, List.append_assoc, scanString_escapeByte]
    rw [escape] at ih
    rw [ih]
    rfl

/-- A number does not go on. -/
def Stops (rest : Bytes) : Prop :=
  ∀ b, rest.head? = some b → isDigit b = false ∧ b ∉ [code '.', code 'e', code 'E']

/-- A text is read as a tree, whatever follows. The length of the text is fuel enough. -/
def Prints (text : Bytes) (node : Node) : Prop :=
  ∀ fuel rest, text.length < fuel → Stops rest → value fuel (text ++ rest) = some (node, rest)

theorem prints_string (bs : Bytes) : Prints (printString bs) (.string (escape bs)) := by
  intro fuel rest hfuel _
  obtain ⟨fuel, rfl⟩ : ∃ m, fuel = m + 1 := Nat.exists_eq_add_one.2 (by omega)
  rw [printString, List.cons_append, List.append_assoc, value]
  show (scanString (escape bs ++ code '"' :: rest)).map _ = _
  rw [scanString_escape]
  rfl

theorem prints_bool (b : Bool) : Prints (printBool b) (.bool b) := by
  intro fuel rest hfuel _
  obtain ⟨fuel, rfl⟩ : ∃ m, fuel = m + 1 := Nat.exists_eq_add_one.2 (by omega)
  cases b with
  | false => rfl
  | true => rfl

/-! Integers -/

theorem isDigit_code_digitChar : ∀ n < 10, isDigit (code n.digitChar) = true := by decide

theorem code_digitChar_eq_zero : ∀ n < 10, code n.digitChar = code '0' → n = 0 := by decide

theorem digitChar_val : ∀ n < 10, (code n.digitChar).val - 48 = n := by decide

theorem decimal_of_lt {n : ℕ} (h : n < 10) : decimal n = [code n.digitChar] := by
  rw [decimal, Nat.toDigits_of_lt_base h]
  rfl

theorem decimal_of_le {n : ℕ} (h : 10 ≤ n) :
    decimal n = decimal (n / 10) ++ [code (n % 10).digitChar] := by
  rw [decimal, Nat.toDigits_of_base_le (by decide) h, ascii, List.map_append]
  rfl

theorem isDigit_of_mem_decimal {n : ℕ} (h : b ∈ decimal n) : isDigit b = true := by
  induction n using Nat.strongRecOn with
  | ind n ih =>
    rcases Nat.lt_or_ge n 10 with hlt | hge
    · rw [decimal_of_lt hlt] at h
      rw [List.mem_singleton.1 h]
      exact isDigit_code_digitChar n hlt
    · rw [decimal_of_le hge] at h
      rcases List.mem_append.1 h with h | h
      · exact ih (n / 10) (by omega) h
      · rw [List.mem_singleton.1 h]
        exact isDigit_code_digitChar _ (by omega)

/-- Only zero begins with a zero. -/
theorem decimal_cons (n : ℕ) : decimal n = [code '0'] ∨
    ∃ b bs, decimal n = b :: bs ∧ b ≠ code '0' := by
  induction n using Nat.strongRecOn with
  | ind n ih =>
    rcases Nat.lt_or_ge n 10 with hlt | hge
    · rw [decimal_of_lt hlt]
      by_cases hzero : code n.digitChar = code '0'
      · exact .inl (by rw [hzero])
      · exact .inr ⟨_, _, rfl, hzero⟩
    · rw [decimal_of_le hge]
      rcases ih (n / 10) (by omega) with hzero | ⟨b, bs, hcons, hb⟩
      · rcases Nat.lt_or_ge (n / 10) 10 with hlt | hge'
        · rw [decimal_of_lt hlt] at hzero
          have := code_digitChar_eq_zero (n / 10) hlt (List.singleton_inj.1 hzero)
          omega
        · have hlen := congrArg List.length hzero
          rw [decimal_of_le hge', List.length_append] at hlen
          have hne : decimal (n / 10 / 10) ≠ [] := by
            rw [decimal, ascii]
            exact fun hnil ↦ Nat.toDigits_ne_nil (List.map_eq_nil_iff.1 hnil)
          have := List.length_pos_iff.2 hne
          simp only [List.length_singleton] at hlen
          omega
      · exact .inr ⟨b, bs ++ [_], by rw [hcons]; rfl, hb⟩

theorem natOf_decimal (n : ℕ) : natOf (decimal n) = n := by
  induction n using Nat.strongRecOn with
  | ind n ih =>
    rcases Nat.lt_or_ge n 10 with hlt | hge
    · rw [decimal_of_lt hlt]
      show 10 * 0 + _ = n
      rw [digitChar_val n hlt]
      omega
    · have hfront := ih (n / 10) (by omega)
      rw [natOf] at hfront ⊢
      rw [decimal_of_le hge, List.foldl_append, hfront]
      show 10 * (n / 10) + _ = n
      rw [digitChar_val _ (by omega)]
      omega

/-- A list of digits before something else. -/
theorem span_digits {ds : Bytes} (hds : ∀ d ∈ ds, isDigit d = true) (hrest : Stops rest) :
    (ds ++ rest).takeWhile isDigit = ds ∧ (ds ++ rest).dropWhile isDigit = rest := by
  have hhead : rest.takeWhile isDigit = [] ∧ rest.dropWhile isDigit = rest := by
    cases rest with
    | nil => exact ⟨rfl, rfl⟩
    | cons b rest =>
      have hb : ¬isDigit b = true := by
        rw [(hrest b rfl).1]
        exact Bool.false_ne_true
      exact ⟨List.takeWhile_cons_of_neg hb, List.dropWhile_cons_of_neg hb⟩
  rw [List.takeWhile_append_of_pos hds, List.dropWhile_append_of_pos hds, hhead.1, hhead.2]
  exact ⟨List.append_nil ds, rfl⟩

theorem scanInteger_decimal (n : ℕ) (hrest : Stops rest) :
    scanInteger (decimal n ++ rest) = some (decimal n, rest) := by
  rcases decimal_cons n with hzero | ⟨b, bs, hcons, hb⟩
  · rw [hzero]
    rfl
  · have hspan := span_digits (fun d hd ↦ isDigit_of_mem_decimal (n := n) hd) hrest
    rw [hcons] at hspan ⊢
    rw [List.cons_append, scanInteger, if_neg hb, scanDigits, ← List.cons_append, hspan.1, hspan.2,
      if_neg (List.cons_ne_nil b bs)]

theorem scanNumber_printInt (n : ℤ) (hrest : Stops rest) :
    scanNumber (printInt n ++ rest) = some (printInt n, rest) := by
  have hint : scanSigned [code '-'] scanInteger (printInt n ++ rest) = some (printInt n, rest) := by
    rw [printInt]
    split
    · rw [List.cons_append, scanSigned, if_pos List.mem_cons_self, scanInteger_decimal _ hrest]
      rfl
    · have hscan := scanInteger_decimal n.natAbs hrest
      obtain ⟨b, bs, hcons⟩ : ∃ b bs, decimal n.natAbs = b :: bs := by
        rcases decimal_cons n.natAbs with hzero | ⟨b, bs, hcons, -⟩
        · exact ⟨_, _, hzero⟩
        · exact ⟨b, bs, hcons⟩
      have hdigit : isDigit b = true :=
        isDigit_of_mem_decimal (n := n.natAbs) (by rw [hcons]; exact List.mem_cons_self)
      have hminus : b ∉ [code '-'] := by
        rw [List.mem_singleton]
        rintro rfl
        exact absurd hdigit (by decide)
      rw [hcons] at hscan ⊢
      rw [List.cons_append, scanSigned, if_neg hminus, ← List.cons_append, hscan]
  have hpart : ∀ marks scan, (∀ b ∈ marks, b ∈ [code '.', code 'e', code 'E']) →
      scanPart marks scan rest = some ([], rest) := by
    intro marks scan hmarks
    cases rest with
    | nil => rfl
    | cons b rest => exact if_neg fun hmem ↦ (hrest b rfl).2 (hmarks b hmem)
  have hfrac : scanPart [code '.'] scanDigits rest = some ([], rest) := by
    refine hpart _ _ fun b hb ↦ ?_
    rw [List.mem_singleton.1 hb]
    exact List.mem_cons_self
  have hexp : scanPart [code 'e', code 'E'] (scanSigned [code '+', code '-'] scanDigits) rest =
      some ([], rest) := hpart _ _ fun b hb ↦ List.mem_cons_of_mem _ hb
  rw [scanNumber, hint]
  simp only [Option.bind_eq_bind, Option.bind_some, hfrac, hexp, List.append_nil]
  rfl

theorem skipSpace_cons (hb : isSpace b = false) (bs : Bytes) : skipSpace (b :: bs) = b :: bs :=
  List.dropWhile_cons_of_neg (by rw [hb]; exact Bool.false_ne_true)

/-- What begins like a number is no other value. -/
theorem ne_of_begins_number : ∀ b : Byte, isDigit b = true ∨ b = code '-' →
    isSpace b = false ∧ b ∉ [code '"', code '{', code '[', code 't', code 'f', code 'n'] := by
  decide +kernel

theorem value_of_begins_number {fuel : ℕ} (hb : isDigit b = true ∨ b = code '-') :
    value (fuel + 1) (b :: bs) = (scanNumber (b :: bs)).map (Prod.map .number id) := by
  obtain ⟨hspace, hother⟩ := ne_of_begins_number b hb
  simp only [List.mem_cons, List.not_mem_nil, or_false, not_or] at hother
  obtain ⟨h₁, h₂, h₃, h₄, h₅, h₆⟩ := hother
  rw [value, skipSpace_cons hspace]
  simp only [if_neg h₁, if_neg h₂, if_neg h₃, if_neg h₄, if_neg h₅, if_neg h₆]

theorem printInt_cons (n : ℤ) :
    ∃ b bs, printInt n = b :: bs ∧ (isDigit b = true ∨ b = code '-') := by
  rw [printInt]
  split
  · exact ⟨_, _, rfl, .inr rfl⟩
  · obtain ⟨b, bs, hcons⟩ : ∃ b bs, decimal n.natAbs = b :: bs := by
      rcases decimal_cons n.natAbs with hzero | ⟨b, bs, hcons, -⟩
      · exact ⟨_, _, hzero⟩
      · exact ⟨b, bs, hcons⟩
    refine ⟨b, bs, hcons, .inl (isDigit_of_mem_decimal (n := n.natAbs) ?_)⟩
    rw [hcons]
    exact List.mem_cons_self

theorem prints_int (n : ℤ) : Prints (printInt n) (.number (printInt n)) := by
  intro fuel rest hfuel hrest
  obtain ⟨fuel, rfl⟩ : ∃ m, fuel = m + 1 := Nat.exists_eq_add_one.2 (by omega)
  have hscan := scanNumber_printInt n hrest
  obtain ⟨b, bs, hcons, hb⟩ := printInt_cons n
  rw [hcons] at hscan ⊢
  rw [List.cons_append] at hscan ⊢
  rw [value_of_begins_number hb, hscan]
  rfl

/-! Objects: of each member a name, the printed value, and the tree that it is read as -/

/-- The members of a printed object, as they are read. -/
def printedMembers (fields : List (Bytes × Bytes × Node)) : List (Bytes × Node) :=
  fields.map fun f ↦ (escape f.1, f.2.2)

def stringMember (name bs : Bytes) : Bytes × Bytes × Node :=
  (name, printString bs, .string (escape bs))

def intMember (name : Bytes) (n : ℤ) : Bytes × Bytes × Node :=
  (name, printInt n, .number (printInt n))

theorem stops_cons (hb : b = code ',' ∨ b = code '}') (rest : Bytes) : Stops (b :: rest) := by
  intro c hc
  obtain rfl := Option.some.inj hc
  rcases hb with rfl | rfl
  · decide
  · decide

/-- One member, and the byte after it. -/
theorem members_printString {fuel : ℕ} {text : Bytes} {node : Node} (h : Prints text node)
    (hfuel : text.length < fuel) (name : Bytes) (hb : b = code ',' ∨ b = code '}') :
    members (fuel + 1) (printString name ++ code ':' :: (text ++ b :: bs)) =
      if b = code ',' then (members fuel bs).map (Prod.map ((escape name, node) :: ·) id)
      else some ([(escape name, node)], bs) := by
  have hname : (expect
    (code '"') (skipSpace (printString name ++ code ':' :: (text ++ b :: bs)))).bind
      scanString = some (escape name, code ':' :: (text ++ b :: bs)) := by
    rw [printString, List.cons_append, skipSpace_cons (by decide), expect, if_pos rfl,
      List.append_assoc]
    exact scanString_escape name _
  have hvalue : (expect (code ':') (skipSpace (code ':' :: (text ++ b :: bs)))).bind (value fuel) =
      some (node, b :: bs) := by
    rw [skipSpace_cons (by decide), expect, if_pos rfl]
    exact h fuel _ hfuel (stops_cons hb bs)
  have hspace : isSpace b = false := by
    rcases hb with rfl | rfl
    · decide
    · decide
  rw [members]
  simp only [Option.bind_eq_bind, hname, hvalue, Option.bind_some, skipSpace_cons hspace]
  rcases hb with rfl | rfl
  · rfl
  · rfl

/-- By induction on the members; the tail is read with one less of fuel. -/
theorem members_printMembers {fields : List (Bytes × Bytes × Node)} (hne : fields ≠ [])
    (h : ∀ f ∈ fields, Prints f.2.1 f.2.2) {fuel : ℕ}
    (hfuel : (printMembers (fields.map fun f ↦ (f.1, f.2.1))).length ≤ fuel) (rest : Bytes) :
    members fuel (printMembers (fields.map fun f ↦ (f.1, f.2.1)) ++ rest) =
      some (printedMembers fields, rest) := by
  induction fields generalizing fuel with
  | nil => exact absurd rfl hne
  | cons f fields ih =>
    obtain ⟨name, text, node⟩ := f
    have hprints : Prints text node := h (name, text, node) List.mem_cons_self
    cases fields with
    | nil =>
      have hlen : (printString name ++ code ':' :: (text ++ [code '}'])).length ≤ fuel := hfuel
      simp only [List.length_append, List.length_cons, List.length_nil] at hlen
      obtain ⟨fuel, rfl⟩ : ∃ m, fuel = m + 1 := Nat.exists_eq_add_one.2 (by omega)
      show members (fuel + 1)
        ((printString name ++ code ':' :: (text ++ [code '}'])) ++ rest) = _
      rw [List.append_assoc, List.cons_append, List.append_assoc, List.singleton_append,
        members_printString hprints (by omega) name (.inr rfl)]
      rfl
    | cons g fields =>
      have hlen : (printString name ++ code ':' :: (text ++ code ',' ::
        printMembers ((g :: fields).map fun f ↦ (f.1, f.2.1)))).length ≤ fuel := hfuel
      simp only [List.length_append, List.length_cons] at hlen
      obtain ⟨fuel, rfl⟩ : ∃ m, fuel = m + 1 := Nat.exists_eq_add_one.2 (by omega)
      have htail := @ih (List.cons_ne_nil g fields)
        (fun f hf ↦ h f (List.mem_cons_of_mem _ hf)) fuel (by omega)
      show members (fuel + 1) ((printString name ++ code ':' :: (text ++ code ',' ::
        printMembers ((g :: fields).map fun f ↦ (f.1, f.2.1)))) ++ rest) = _
      rw [List.append_assoc, List.cons_append, List.append_assoc, List.cons_append,
        members_printString hprints (by omega) name (.inl rfl), if_pos rfl, htail]
      rfl

theorem prints_object {fields : List (Bytes × Bytes × Node)} (hne : fields ≠ [])
    (h : ∀ f ∈ fields, Prints f.2.1 f.2.2) :
    Prints (printObject (fields.map fun f ↦ (f.1, f.2.1)))
      (.object (printedMembers fields)) := by
  intro fuel rest hfuel _
  rw [printObject, List.length_cons] at hfuel
  obtain ⟨fuel, rfl⟩ : ∃ m, fuel = m + 1 := Nat.exists_eq_add_one.2 (by omega)
  have hmembers := @members_printMembers fields hne h fuel (by omega) rest
  have hhead : ∃ bs, printMembers (fields.map fun f ↦ (f.1, f.2.1)) = code '"' :: bs := by
    cases fields with
    | nil => exact absurd rfl hne
    | cons f fields =>
      cases fields with
      | nil => exact ⟨_, rfl⟩
      | cons g fields => exact ⟨_, rfl⟩
  obtain ⟨bs, hbs⟩ := hhead
  have hspace : skipSpace (printMembers (fields.map fun f ↦ (f.1, f.2.1)) ++ rest) =
      code '"' :: (bs ++ rest) := by
    rw [hbs, List.cons_append]
    exact skipSpace_cons (by decide) _
  have hquote : code '{' ≠ code '"' := by decide
  have hbrace : ¬(code '"' :: (bs ++ rest)).head? = some (code '}') := by
    rw [List.head?_cons]
    exact fun heq ↦ absurd (Option.some.inj heq) (by decide)
  rw [printObject, List.cons_append, value, skipSpace_cons (by decide)]
  simp only [if_neg hquote, if_pos, hspace, if_neg hbrace, hmembers]
  rfl

theorem parse_of_prints {text : Bytes} {node : Node} (h : Prints text node) :
    parse text = some node := by
  have hvalue := h (text.length + 1) [] (Nat.lt_succ_self _) (fun b hb ↦ by cases hb)
  rw [List.append_nil] at hvalue
  rw [parse, hvalue]
  rfl

theorem parse_printObject {fields : List (Bytes × Bytes × Node)} (hne : fields ≠ [])
    (h : ∀ f ∈ fields, Prints f.2.1 f.2.2) :
    parse (printObject (fields.map fun f ↦ (f.1, f.2.1))) =
      some (.object (printedMembers fields)) :=
  parse_of_prints (prints_object hne h)

/-- Most bytes begin no value. -/
theorem parse_of_begins_nothing (hspace : isSpace b = false) (hdigit : isDigit b = false)
    (hother : b ∉ [code '"', code '{', code '[', code 't', code 'f', code 'n', code '-']) :
    parse (b :: bs) = none := by
  simp only [List.mem_cons, List.not_mem_nil, or_false, not_or] at hother
  obtain ⟨h₁, h₂, h₃, h₄, h₅, h₆, h₇⟩ := hother
  have hminus : b ∉ [code '-'] := fun hmem ↦ h₇ (List.mem_singleton.1 hmem)
  have hzero : b ≠ code '0' := by
    rintro rfl
    exact absurd hdigit (by decide)
  have hscan : scanNumber (b :: bs) = none := by
    rw [scanNumber, scanSigned, if_neg hminus, scanInteger, if_neg hzero, scanDigits,
      if_pos (List.takeWhile_cons_of_neg (by rw [hdigit]; exact Bool.false_ne_true))]
    rfl
  have hvalue : value ((b :: bs).length + 1) (b :: bs) = none := by
    rw [value, skipSpace_cons hspace]
    simp only [if_neg h₁, if_neg h₂, if_neg h₃, if_neg h₄, if_neg h₅, if_neg h₆, hscan]
    rfl
  rw [parse, hvalue]
  rfl

/-! ### What is read means what was printed -/

theorem unescape_plain (hbackslash : b ≠ code '\\') (bs : Bytes) :
    unescape (b :: bs) = (unescape bs).map (b :: ·) := by
  rw [unescape.eq_def]
  exact if_neg hbackslash

theorem unescape_simple {c : Byte} (hu : e ≠ code 'u') (he : simpleEscape e = some c) (bs : Bytes) :
    unescape (code '\\' :: e :: bs) = (unescape bs).map (c :: ·) := by
  rw [unescape.eq_def]
  simp only [if_pos, if_neg hu, he]
  rfl

theorem unescape_hex {h₁ h₂ h₃ h₄ : Byte} {n : ℕ} (hn : hexNumber h₁ h₂ h₃ h₄ = some n)
    (hlt : n < 0xD800) (bs : Bytes) :
    unescape (code '\\' :: code 'u' :: h₁ :: h₂ :: h₃ :: h₄ :: bs) =
      (unescape bs).map (utf8 [Char.ofNat n] ++ ·) := by
  have hhigh : ¬(0xD800 ≤ n ∧ n < 0xDC00) := by omega
  have hlow : ¬(0xDC00 ≤ n ∧ n < 0xE000) := by omega
  rw [unescape.eq_def]
  simp only [if_pos, hn, Option.bind_eq_bind, Option.bind_some, if_neg hhigh, if_neg hlow]

theorem utf8_control : ∀ n < 32, utf8 [Char.ofNat n] = [Fin.ofNat 256 n] := by decide +kernel

theorem unescape_escapeByte (b : Byte) (bs : Bytes) :
    unescape (escapeByte b ++ bs) = (unescape bs).map (b :: ·) := by
  cases hshort : shortEscape b with
  | some e =>
    obtain ⟨hu, hsimple⟩ := simpleEscape_of_shortEscape hshort
    rw [escapeByte, hshort]
    exact unescape_simple hu hsimple bs
  | none =>
    obtain ⟨-, hbackslash⟩ := ne_of_shortEscape_none b hshort
    rw [escapeByte, hshort]
    by_cases hcontrol : b.val < 32
    · have hnumber : hexNumber (code '0') (code '0') (hexDigit (b.val / 16))
          (hexDigit (b.val % 16)) = some b.val := by
        have h₀ : hexValue (code '0') = some 0 := by decide
        have hsum : 4096 * 0 + 256 * 0 + 16 * (b.val / 16) + b.val % 16 = b.val := by omega
        simp only [hexNumber, h₀, hexValue_hexDigit (b.val / 16) (by omega),
          hexValue_hexDigit (b.val % 16) (by omega), Option.bind_eq_bind, Option.bind_some, hsum]
        rfl
      have hbyte : utf8 [Char.ofNat b.val] = [b] := by
        rw [utf8_control b.val hcontrol]
        exact congrArg (fun c ↦ [c]) (Fin.ofNat_val_eq_self b)
      simp only [if_pos hcontrol]
      refine (unescape_hex hnumber (by omega) bs).trans ?_
      rw [hbyte]
      rfl
    · simp only [if_neg hcontrol]
      exact unescape_plain hbackslash bs

theorem unescape_escape (bs : Bytes) : unescape (escape bs) = some bs := by
  induction bs with
  | nil => rfl
  | cons b bs ih =>
    rw [escape, List.flatMap_cons, unescape_escapeByte]
    rw [escape] at ih
    rw [ih]
    rfl

/-- The text of a printed string is the string, if it is one. -/
theorem textOf_escape (h : (fromUtf8 bs).isSome = true) : textOf (escape bs) = some bs := by
  rw [textOf, unescape_escape]
  exact Option.filter_some_pos h

/-- A name is never read as another one. -/
theorem textOf_escape_ne {name : Bytes} (h : bs ≠ name) : textOf (escape bs) ≠ some name := by
  rw [textOf, unescape_escape]
  intro heq
  exact h (Option.some.inj (Option.eq_some_of_filter_eq_some heq))

theorem i64_printInt {n : ℤ} (hlow : -(i64Size : ℤ) ≤ n) (hhigh : n < i64Size) :
    (Node.number (printInt n)).i64 = some n := by
  have hdigits : (decimal n.natAbs).all isDigit = true :=
    List.all_eq_true.2 fun b hb ↦ isDigit_of_mem_decimal (n := n.natAbs) hb
  rw [printInt]
  split
  · rw [Node.i64, if_pos rfl, natOf_decimal, if_pos ⟨hdigits, by omega, by omega⟩]
    congr 1
    omega
  · obtain ⟨b, bs, hcons⟩ : ∃ b bs, decimal n.natAbs = b :: bs := by
      rcases decimal_cons n.natAbs with hzero | ⟨b, bs, hcons, -⟩
      · exact ⟨_, _, hzero⟩
      · exact ⟨b, bs, hcons⟩
    have hnat := natOf_decimal n.natAbs
    rw [hcons] at hdigits hnat ⊢
    have hdigit : isDigit b = true := List.all_eq_true.1 hdigits b List.mem_cons_self
    have hminus : b ≠ code '-' := by
      rintro rfl
      exact absurd hdigit (by decide)
    rw [Node.i64, if_neg hminus, hnat, if_pos ⟨hdigits, by omega⟩]
    congr 1
    omega

/-! Fields -/

theorem filter_printedMembers_eq_nil {fields : List (Bytes × Bytes × Node)} {name : Bytes}
    (hmissing : name ∉ fields.map (·.1)) :
    (printedMembers fields).filter (fun m ↦ textOf m.1 = some name) = [] := by
  refine List.filter_eq_nil_iff.2 fun m hm ↦ ?_
  obtain ⟨f, hf, rfl⟩ := List.mem_map.1 hm
  rw [decide_eq_true_iff]
  exact textOf_escape_ne fun heq ↦ hmissing (heq ▸ List.mem_map_of_mem hf)

theorem filter_printedMembers {fields : List (Bytes × Bytes × Node)}
    (hvalid : ∀ f ∈ fields, (fromUtf8 f.1).isSome = true)
    (hnodup : (fields.map (·.1)).Nodup) {f : Bytes × Bytes × Node} (hf : f ∈ fields) :
    (printedMembers fields).filter (fun m ↦ textOf m.1 = some f.1) = [(escape f.1, f.2.2)] := by
  induction fields with
  | nil => exact absurd hf List.not_mem_nil
  | cons g fields ih =>
    rw [List.map_cons, List.nodup_cons] at hnodup
    rw [printedMembers, List.map_cons]
    rcases List.mem_cons.1 hf with rfl | hf'
    · -- The name does not come again.
      have hrest := filter_printedMembers_eq_nil hnodup.1
      rw [printedMembers] at hrest
      rw [List.filter_cons, if_pos (decide_eq_true (textOf_escape (hvalid f List.mem_cons_self))),
        hrest]
    · have hne : g.1 ≠ f.1 := fun heq ↦ hnodup.1 (heq ▸ List.mem_map_of_mem hf')
      have hhead : ¬decide (textOf (escape g.1) = some f.1) = true := by
        rw [decide_eq_true_iff]
        exact textOf_escape_ne hne
      rw [List.filter_cons, if_neg hhead]
      exact ih (fun f hf ↦ hvalid f (List.mem_cons_of_mem g hf)) hnodup.2 hf'

/-- A printed object has the fields it was printed from. -/
theorem fields_printedMembers {fields : List (Bytes × Bytes × Node)}
    (hvalid : ∀ f ∈ fields, (fromUtf8 f.1).isSome = true) (hnodup : (fields.map (·.1)).Nodup) :
    (Node.object (printedMembers fields)).fields (fields.map (·.1)) =
      some (fields.map fun f ↦ some f.2.2) := by
  have hall : (printedMembers fields).all (fun m ↦ (textOf m.1).isSome) = true := by
    refine List.all_eq_true.2 fun m hm ↦ ?_
    obtain ⟨f, hf, rfl⟩ := List.mem_map.1 hm
    rw [textOf_escape (hvalid f hf)]
    rfl
  have hlookup : ∀ f ∈ fields, lookup (printedMembers fields) f.1 = some (some f.2.2) := by
    intro f hf
    rw [lookup, filter_printedMembers hvalid hnodup hf]
  have hmapM : ∀ fs : List (Bytes × Bytes × Node), (∀ f ∈ fs, f ∈ fields) →
      (fs.map (·.1)).mapM (lookup (printedMembers fields)) = some (fs.map fun f ↦ some f.2.2) := by
    intro fs hfs
    induction fs with
    | nil => rfl
    | cons f fs ih =>
      rw [List.map_cons, List.mapM_cons, hlookup f (hfs f List.mem_cons_self),
        ih fun f hf ↦ hfs f (List.mem_cons_of_mem _ hf)]
      rfl
  rw [Node.fields, if_pos hall]
  exact hmapM fields fun f hf ↦ hf

theorem mem_of_mapM {α β : Type} {g : α → Option β} {as : List α} {bs : List β}
    (h : as.mapM g = some bs) {a : α} (ha : a ∈ as) {b : β} (hb : g a = some b) : b ∈ bs := by
  induction as generalizing bs with
  | nil => exact absurd ha List.not_mem_nil
  | cons a' as ih =>
    rw [List.mapM_cons] at h
    obtain ⟨b', hb', h⟩ := Option.bind_eq_some_iff.1 h
    obtain ⟨bs', hbs', h⟩ := Option.bind_eq_some_iff.1 h
    obtain rfl := Option.some.inj h
    rcases List.mem_cons.1 ha with rfl | ha
    · rw [hb] at hb'
      exact Option.some.inj hb' ▸ List.mem_cons_self
    · exact List.mem_cons_of_mem b' (ih hbs' ha)

/-- A field that was not printed is missing. -/
theorem none_mem_fields {fields : List (Bytes × Bytes × Node)} {names : List Bytes}
    {found : List (Option Node)}
    (h : (Node.object (printedMembers fields)).fields names = some found) {name : Bytes}
    (hname : name ∈ names) (hmissing : name ∉ fields.map (·.1)) : none ∈ found := by
  have hlookup : lookup (printedMembers fields) name = some none := by
    rw [lookup, filter_printedMembers_eq_nil hmissing]
  rw [Node.fields] at h
  split at h
  · exact mem_of_mapM h hname hlookup
  · cases h

/-- ASCII characters stand for themselves. -/
theorem utf8_cons {c : Char} (h : c.toNat < 128) (cs : List Char) :
    utf8 (c :: cs) = code c :: utf8 cs := by
  have hsize : c.utf8Size = 1 := Char.utf8Size_eq_one_iff.2 (Nat.le_of_lt_succ h)
  have hbyte : Fin.ofNat 256 c.val.toUInt8.toNat = code c := by
    rw [UInt32.toNat_toUInt8]
    exact Fin.ext (Nat.mod_mod c.toNat 256)
  rw [utf8, List.flatMap_cons, String.utf8EncodeChar_eq_singleton hsize, List.map_singleton, hbyte]
  rfl

theorem utf8_of_ascii {cs : List Char} (h : ∀ c ∈ cs, c.toNat < 128) : utf8 cs = ascii cs := by
  induction cs with
  | nil => rfl
  | cons c cs ih =>
    rw [utf8_cons (h c List.mem_cons_self), ih fun c hc ↦ h c (List.mem_cons_of_mem _ hc)]
    rfl

theorem fromUtf8_utf8 (cs : List Char) : fromUtf8 (utf8 cs) = some (String.ofList cs) := by
  have hbytes : (utf8 cs).map (fun b ↦ UInt8.ofNat b.val) = cs.flatMap String.utf8EncodeChar := by
    rw [utf8, List.map_flatMap]
    congr 1
    funext c
    rw [List.map_map]
    refine (List.map_congr_left fun b _ ↦ ?_).trans (List.map_id _)
    refine UInt8.toNat_inj.1 ?_
    have hb := b.toNat_lt
    show (UInt8.ofNat (b.toNat % 256)).toNat = b.toNat
    rw [Nat.mod_eq_of_lt hb, UInt8.ofNat_toNat]
  have harray : (⟨((utf8 cs).map fun b ↦ UInt8.ofNat b.val).toArray⟩ : ByteArray) =
      cs.utf8Encode := by
    rw [hbytes]
    refine ByteArray.ext ?_
    simp [List.utf8Encode]
  rw [fromUtf8, harray, String.fromUTF8?, dif_pos ByteArray.isValidUTF8_utf8Encode]
  rfl

end JsonText
