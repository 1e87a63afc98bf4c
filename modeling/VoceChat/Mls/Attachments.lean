import VoceChat.Mls.Application

/-!
# Attachment descriptors (`voce-e2ee-core/src/mls/application.rs`)

Where an encrypted attachment is and how it is opened: a CBOR map of seven fields with the keys 0 to
6. Texts are checked when a descriptor is encoded (`encode`) and again after it was decoded
(`decode`); key, nonce and hash are byte strings of one length.

`decode_eq_ok` says which inputs are decoded to a descriptor: the spellings of its seven fields, in
this order and nothing behind them, where the texts are within their limits.
-/

namespace VoceChat

open Cbor Guards Machine Utf8

structure AttachmentDescriptor where
  path : String
  key : FixedBytes 32
  nonce : FixedBytes 12
  sha256 : FixedBytes 32
  mime : String
  name : String
  size : Fin 18446744073709551616

/-- `validate_attachment_text`. -/
def validateAttachmentText (value : String) (maximum : ℕ) (field : String) :
    Except MlsError Unit :=
  ensure (¬(value.utf8ByteSize = 0 ∨ maximum < value.utf8ByteSize))
    ⟨"invalid attachment " ++ field⟩

/-- `fixed_bytes`. -/
def fixedBytes (D : Decoder String) (n : ℕ) (field : String) : Reader MlsError (FixedBytes n) := do
  let bytes ← decodeWith D.bytes
  StateT.lift (if h : bytes.length = n then .ok ⟨bytes, h⟩
    else .error ⟨"invalid attachment " ++ field ++ " length"⟩)

namespace AttachmentDescriptor

/-- The checks of the texts, made before encoding and after decoding. -/
def validate (path mime name : String) : Except MlsError Unit := do
  validateAttachmentText path 1024 "path"
  validateAttachmentText mime 255 "mime"
  validateAttachmentText name 1024 "name"

def encode (E : Encoder) (d : AttachmentDescriptor) : Except MlsError Bytes := do
  validate d.path d.mime d.name
  return E.map 7 ++ E.u8 0 ++ E.str d.path ++ E.u8 1 ++ E.bytes d.key ++ E.u8 2 ++
    E.bytes d.nonce ++ E.u8 3 ++ E.bytes d.sha256 ++ E.u8 4 ++ E.str d.mime ++ E.u8 5 ++
    E.str d.name ++ E.u8 6 ++ E.u64 d.size

/-- The reads of `decode`. -/
def readDescriptor (D : Decoder String) : Reader MlsError AttachmentDescriptor := do
  decodeWith D.map >>= fun n ↦
    StateT.lift (ensure (n = some 7) ⟨"attachment descriptor must be a fixed map"⟩)
  expectKey D 0
  let path ← decodeWith D.str
  expectKey D 1
  let key ← fixedBytes D 32 "key"
  expectKey D 2
  let nonce ← fixedBytes D 12 "nonce"
  expectKey D 3
  let sha256 ← fixedBytes D 32 "sha256"
  expectKey D 4
  let mime ← decodeWith D.str
  expectKey D 5
  let name ← decodeWith D.str
  expectKey D 6
  let size ← decodeWith D.u64
  return { path, key, nonce, sha256, mime, name, size }

def decode (D : Decoder String) (input : Bytes) : Except MlsError AttachmentDescriptor := do
  let (d, rest) ← readDescriptor D input
  ensure (rest = []) ⟨"trailing attachment descriptor data"⟩
  validate d.path d.mime d.name
  return d

/-! ### The tokens of a descriptor -/

/-- A map with these keys and values. -/
def mapTokens (fields : List (Token × Token)) : List Token :=
  .plain .map fields.length :: fields.flatMap fun f ↦ [f.1, f.2]

def fields (d : AttachmentDescriptor) : List (Token × Token) :=
  [(.plain .unsigned 0, .string .text (toUtf8 d.path)),
    (.plain .unsigned 1, .string .bytes d.key),
    (.plain .unsigned 2, .string .bytes d.nonce),
    (.plain .unsigned 3, .string .bytes d.sha256),
    (.plain .unsigned 4, .string .text (toUtf8 d.mime)),
    (.plain .unsigned 5, .string .text (toUtf8 d.name)),
    (.plain .unsigned 6, .plain .unsigned d.size.val)]

def tokens (d : AttachmentDescriptor) : List Token := mapTokens d.fields

/-- The limits of the texts. -/
structure Limits (d : AttachmentDescriptor) : Prop where
  path : 0 < d.path.utf8ByteSize ∧ d.path.utf8ByteSize ≤ 1024
  mime : 0 < d.mime.utf8ByteSize ∧ d.mime.utf8ByteSize ≤ 255
  name : 0 < d.name.utf8ByteSize ∧ d.name.utf8ByteSize ≤ 1024

theorem validateAttachmentText_eq_ok {value : String} {maximum : ℕ} {field : String} {u : Unit} :
    validateAttachmentText value maximum field = .ok u ↔
      0 < value.utf8ByteSize ∧ value.utf8ByteSize ≤ maximum := by
  rw [validateAttachmentText, ensure_eq_ok]
  omega

theorem validate_eq_ok {d : AttachmentDescriptor} {u : Unit} :
    validate d.path d.mime d.name = .ok u ↔ d.Limits := by
  simp only [validate, bind_eq_ok, exists_unit, validateAttachmentText_eq_ok]
  constructor
  · rintro ⟨hpath, hmime, hname⟩
    exact ⟨hpath, hmime, hname⟩
  · exact fun h ↦ ⟨h.path, h.mime, h.name⟩

variable {E : Encoder} {D : Decoder String} {d : AttachmentDescriptor} {input output : Bytes}

theorem encode_eq_ok (hE : E.Conforms) :
    encode E d = .ok output ↔ d.Limits ∧ output = write d.tokens := by
  have hwrite : E.map 7 ++ E.u8 0 ++ E.str d.path ++ E.u8 1 ++ E.bytes d.key ++ E.u8 2 ++
      E.bytes d.nonce ++ E.u8 3 ++ E.bytes d.sha256 ++ E.u8 4 ++ E.str d.mime ++ E.u8 5 ++
      E.str d.name ++ E.u8 6 ++ E.u64 d.size = write d.tokens := by
    rw [hE.map, hE.u8, hE.u8, hE.u8, hE.u8, hE.u8, hE.u8, hE.u8, hE.bytes, hE.bytes, hE.bytes,
      hE.str, hE.str, hE.str, hE.u64]
    simp only [write, tokens, mapTokens, fields, List.flatMap_cons, List.flatMap_nil,
      List.append_nil, List.append_assoc, List.cons_append, List.nil_append]
    rfl
  simp only [encode, bind_eq_ok, exists_unit, validate_eq_ok, pure_eq_ok, hwrite]
  exact and_congr_right fun _ ↦ eq_comm

theorem accepts_fixedBytes (hD : D.Conforms) (n : ℕ) (field : String) :
    Accepts (fixedBytes D n field) fun bytes ts ↦ ts = [.string .bytes bytes.val] := by
  refine ((hD.bytes.mapError cborError).bind fun bytes ↦ accepts_lift _).congr fun fixed ts ↦ ?_
  constructor
  · rintro ⟨bytes, _, _, rfl, ⟨hok, rfl⟩, rfl⟩
    split at hok
    · obtain rfl := Except.ok.inj hok
      rfl
    · cases hok
  · rintro rfl
    exact ⟨fixed.val, _, [], rfl, ⟨dif_pos fixed.property, rfl⟩, rfl⟩

/-- **A descriptor is read** from its seven fields, in any spelling, and from no others. -/
theorem accepts_readDescriptor (hD : D.Conforms) :
    Accepts (readDescriptor D) fun d ts ↦ ts = d.tokens := by
  have hmap : Accepts (decodeWith D.map >>= fun n ↦ StateT.lift
      (ensure (n = some 7) (⟨"attachment descriptor must be a fixed map"⟩ : MlsError)))
      fun _ ts ↦ ts = [.plain .map 7] := by
    refine (hD.accepts_map cborError (x := fun n ↦ ensure (n = some 7) _) nofun).congr fun _ ts ↦ ?_
    simp only [ensure_eq_ok, Option.some.injEq, exists_eq_left]
  have hstr := hD.str.mapError cborError
  refine (hmap.bind_token fun _ ↦ (accepts_expectKey hD 0).bind_token fun _ ↦
    hstr.bind_token fun path ↦ (accepts_expectKey hD 1).bind_token fun _ ↦
    (accepts_fixedBytes hD 32 "key").bind_token fun key ↦
    (accepts_expectKey hD 2).bind_token fun _ ↦
    (accepts_fixedBytes hD 12 "nonce").bind_token fun nonce ↦
    (accepts_expectKey hD 3).bind_token fun _ ↦
    (accepts_fixedBytes hD 32 "sha256").bind_token fun sha256 ↦
    (accepts_expectKey hD 4).bind_token fun _ ↦ hstr.bind_token fun mime ↦
    (accepts_expectKey hD 5).bind_token fun _ ↦ hstr.bind_token fun name ↦
    (accepts_expectKey hD 6).bind_token fun _ ↦ (hD.u64.mapError cborError).bind_token fun size ↦
    accepts_pure _).congr fun d ts ↦ ?_
  constructor
  · rintro ⟨_, _, ⟨_, _,
      ⟨path, _, ⟨_, _, ⟨key, _, ⟨_, _, ⟨nonce, _, ⟨_, _, ⟨sha256, _, ⟨_, _, ⟨mime,
      _, ⟨_, _, ⟨name, _, ⟨_, _, ⟨size, _, ⟨rfl, rfl⟩, rfl⟩, rfl⟩, rfl⟩, rfl⟩, rfl⟩, rfl⟩,
      rfl⟩, rfl⟩, rfl⟩, rfl⟩, rfl⟩, rfl⟩, rfl⟩, rfl⟩, rfl⟩
    rfl
  · rintro rfl
    exact ⟨(), _, ⟨(), _, ⟨d.path, _, ⟨(), _, ⟨d.key, _, ⟨(), _, ⟨d.nonce, _, ⟨(), _, ⟨d.sha256, _,
      ⟨(), _, ⟨d.mime, _, ⟨(), _,
        ⟨d.name, _, ⟨(), _, ⟨d.size, _, ⟨rfl, rfl⟩, rfl⟩, rfl⟩, rfl⟩, rfl⟩,
      rfl⟩, rfl⟩, rfl⟩, rfl⟩, rfl⟩, rfl⟩, rfl⟩, rfl⟩, rfl⟩, rfl⟩, rfl⟩

/-- **What is decoded** to a descriptor: the spellings of its fields, within their limits. -/
theorem decode_eq_ok (hD : D.Conforms) :
    decode D input = .ok d ↔ d.Limits ∧ Spells d.tokens input := by
  simp only [decode, bind_eq_ok, Prod.exists, ensure_eq_ok, exists_unit, validate_eq_ok,
    pure_eq_ok]
  constructor
  · rintro ⟨d', rest, hread, rfl, hlimits, rfl⟩
    obtain ⟨_, bs, rfl, hbs, rfl⟩ := (accepts_readDescriptor hD _ _ _).1 hread
    exact ⟨hlimits, by rwa [List.append_nil]⟩
  · rintro ⟨hlimits, hspells⟩
    refine ⟨d, [], (accepts_readDescriptor hD _ _ _).2 ⟨_, _, rfl, hspells, ?_⟩, rfl, hlimits, rfl⟩
    rw [List.append_nil]

/-- All numbers of a descriptor have room in a head. -/
theorem number_lt_of_mem_tokens (h : d.Limits) {t : Token} (ht : t ∈ d.tokens) :
    t.number < 18446744073709551616 := by
  have hpath := h.path.2
  have hmime := h.mime.2
  have hname := h.name.2
  have hsize := d.size.isLt
  have hkey := d.key.property
  have hnonce := d.nonce.property
  have hsha256 := d.sha256.property
  simp only [tokens, mapTokens, fields, List.flatMap_cons, List.flatMap_nil, List.append_nil,
    List.cons_append, List.nil_append, List.mem_cons, List.not_mem_nil, or_false] at ht
  rcases ht with rfl | rfl | rfl | rfl | rfl | rfl | rfl | rfl | rfl | rfl | rfl | rfl | rfl | rfl |
    rfl
  all_goals
    simp only [Token.number, length_toUtf8, List.length_cons, List.length_nil]
    omega

/-- An encoding is not long. -/
theorem length_encode_le (hE : E.Conforms) (h : encode E d = .ok output) :
    output.length ≤ 15 * (9 + 1024) := by
  obtain ⟨hlimits, rfl⟩ := (encode_eq_ok hE).1 h
  refine length_write_le d.tokens fun kind content hmem ↦ ?_
  have hpath := le_of_eq_of_le (length_toUtf8 d.path) hlimits.path.2
  have hmime := le_of_eq_of_le (length_toUtf8 d.mime) hlimits.mime.2
  have hname := le_of_eq_of_le (length_toUtf8 d.name) hlimits.name.2
  have hkey := d.key.property
  have hnonce := d.nonce.property
  have hsha256 := d.sha256.property
  simp only [tokens, mapTokens, fields, List.flatMap_cons, List.flatMap_nil, List.append_nil,
    List.cons_append, List.nil_append, List.mem_cons, List.not_mem_nil, or_false, reduceCtorEq,
    false_or, Token.string.injEq] at hmem
  rcases hmem with ⟨-, rfl⟩ | ⟨-, rfl⟩ | ⟨-, rfl⟩ | ⟨-, rfl⟩ | ⟨-, rfl⟩ | ⟨-, rfl⟩
  all_goals omega

/-- Maps with the same tokens have the same fields. -/
theorem mapTokens_inj {fs fs' : List (Token × Token)} (h : mapTokens fs = mapTokens fs') :
    fs = fs' := by
  have hpairs := (List.cons.inj h).2
  clear h
  induction fs generalizing fs' with
  | nil =>
    cases fs' with
    | nil => rfl
    | cons f' fs' => cases hpairs
  | cons f fs ih =>
    cases fs' with
    | nil => cases hpairs
    | cons f' fs' =>
      obtain ⟨hkey, hrest⟩ := List.cons.inj hpairs
      obtain ⟨hvalue, hrest⟩ := List.cons.inj hrest
      rw [ih hrest, Prod.ext hkey hvalue]

/-- What is encoded is decoded again. -/
theorem decode_of_encode (hE : E.Conforms) (hD : D.Conforms) (h : encode E d = .ok output) :
    decode D output = .ok d := by
  obtain ⟨hlimits, rfl⟩ := (encode_eq_ok hE).1 h
  exact (decode_eq_ok hD).2 ⟨hlimits, spells_write fun t ht ↦ number_lt_of_mem_tokens hlimits ht⟩

/-- Of all spellings of tokens, those of a descriptor within its limits are decoded. -/
theorem decodes_iff (hD : D.Conforms) {ts : List Token} (h : Spells ts input) :
    (∃ d, decode D input = .ok d) ↔ ∃ d : AttachmentDescriptor, d.Limits ∧ ts = d.tokens := by
  simp only [decode_eq_ok hD]
  constructor
  · rintro ⟨d, hlimits, hspells⟩
    exact ⟨d, hlimits, h.inj hspells⟩
  · rintro ⟨d, hlimits, rfl⟩
    exact ⟨d, hlimits, h⟩

/-- An input that spells the fields of no descriptor within its limits is rejected. -/
theorem decode_rejects (hD : D.Conforms)
    (h : ∀ d : AttachmentDescriptor, d.Limits → ¬Spells d.tokens input) :
    ∃ e, decode D input = .error e := by
  cases hdecode : decode D input with
  | error e => exact ⟨e, rfl⟩
  | ok d =>
    obtain ⟨hlimits, hspells⟩ := (decode_eq_ok hD).1 hdecode
    exact absurd hspells (h d hlimits)

end AttachmentDescriptor

end VoceChat
