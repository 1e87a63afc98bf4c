import VoceChat.Foundations.Decimal
import VoceChat.Foundations.Json
import VoceChat.Foundations.PaddedBase64
import VoceChat.Mls.Attachments

/-!
# The commands for payloads and descriptors (`voce-e2ee-core/src/mls/commands.rs`)

Clients call the core with JSON. Two commands write an attachment descriptor and read it back, two
others do so with an application payload; bytes are in base64.

A descriptor comes back as it was given, and what is decoded to one is within the limits
(`attachmentLaws`). A payload does so exactly if the keys of its metadata are plain numbers: `+5`
and `05` are taken for 5 as well (`returnsMessage_iff`).
-/

namespace VoceChat

open Base64 Cbor Decimal Guards Json Machine Slices

def maxApplication : ℕ := 1024 * 1024

variable (B : Engine) (E : Encoder) (D : Decoder String)

/-- `decode`. -/
def decodeArg (args : Value) (key : String) (maximum : ℕ) : Except MlsError Bytes := do
  let value ← okOr ((args.get key).bind Value.asStr) ⟨"missing " ++ key⟩
  let decoded ← (B.decode value).mapError fun _ ↦ ⟨"invalid base64 in " ++ key⟩
  ensure (decoded.length ≤ maximum) ⟨key ++ " exceeds maximum length"⟩
  return decoded

/-- `required_string`. -/
def Commands.requiredString (args : Value) (key : String) : Except MlsError String :=
  okOr (((args.get key).bind Value.asStr).filter fun value ↦ value ≠ "") ⟨"missing " ++ key⟩

/-- `fixed`, a local function of `attachment_encode`. -/
def fixedArg (args : Value) (key : String) (length : ℕ) : Except MlsError (FixedBytes length) := do
  let value ← decodeArg B args key length
  if h : value.length = length then return ⟨value, h⟩ else throw ⟨"invalid " ++ key ++ " length"⟩

def attachmentEncode (args : Value) : Except MlsError Value := do
  let path ← Commands.requiredString args "path"
  let key ← fixedArg B args "key_b64" 32
  let nonce ← fixedArg B args "nonce_b64" 12
  let sha256 ← fixedArg B args "sha256_b64" 32
  let mime ← Commands.requiredString args "mime"
  let name ← Commands.requiredString args "name"
  let size ← okOr ((args.get "size").bind Value.asU64) ⟨"invalid attachment size"⟩
  let encoded ← AttachmentDescriptor.encode E
    { path, key, nonce, sha256, mime, name, size := Fin.ofNat 18446744073709551616 size }
  return .object [("descriptor_b64", .string (B.encode encoded))]

/-- The object that `attachment_decode` returns. -/
def AttachmentDescriptor.toJson (d : AttachmentDescriptor) : Value :=
  .object [("path", .string d.path), ("key_b64", .string (B.encode d.key)),
    ("nonce_b64", .string (B.encode d.nonce)), ("sha256_b64", .string (B.encode d.sha256)),
    ("mime", .string d.mime), ("name", .string d.name),
    ("size", .number (.posInt (UInt64.ofNat d.size)))]

def attachmentDecode (args : Value) : Except MlsError Value := do
  let input ← decodeArg B args "descriptor_b64" maxApplication
  let descriptor ← AttachmentDescriptor.decode D input
  return descriptor.toJson B

/-! ### Reading arguments -/

section

variable {B E D} {args : Value} {key : String}

/-- An argument is decoded from the one text of its bytes. -/
theorem decodeArg_eq_ok (hB : B.Canonical) {maximum : ℕ} {bytes : Bytes} :
    decodeArg B args key maximum = .ok bytes ↔
      args.get key = some (.string (B.encode bytes)) ∧ bytes.length ≤ maximum := by
  simp only [decodeArg, bind_eq_ok, okOr_eq_ok, asStr_eq_some, mapError_eq_ok, ensure_eq_ok,
    exists_unit, pure_eq_ok, hB.decode_eq_ok]
  constructor
  · rintro ⟨_, hget, _, rfl, hlength, rfl⟩
    exact ⟨hget, hlength⟩
  · rintro ⟨hget, hlength⟩
    exact ⟨_, hget, _, rfl, hlength, rfl⟩

theorem Commands.requiredString_eq_ok {text : String} :
    requiredString args key = .ok text ↔ args.get key = some (.string text) ∧ text ≠ "" := by
  rw [requiredString, okOr_eq_ok, Option.filter_eq_some_iff, asStr_eq_some, decide_eq_true_iff]

theorem fixedArg_eq_ok (hB : B.Canonical) {n : ℕ} {bytes : FixedBytes n} :
    fixedArg B args key n = .ok bytes ↔ args.get key = some (.string (B.encode bytes)) := by
  simp only [fixedArg, bind_eq_ok, decodeArg_eq_ok hB]
  constructor
  · rintro ⟨value, ⟨hget, -⟩, hvalue⟩
    split at hvalue
    · obtain rfl := Except.ok.inj hvalue
      exact hget
    · cases hvalue
  · intro hget
    exact ⟨bytes, ⟨hget, le_of_eq bytes.property⟩, dif_pos bytes.property⟩

end

/-! ### Descriptors -/

/-- The keys of a descriptor's object. -/
def attachmentKeys : List String :=
  ["path", "key_b64", "nonce_b64", "sha256_b64", "mime", "name", "size"]

/-- What is promised of descriptors. -/
structure AttachmentLaws : Prop where
  /-- What is encoded is decoded again. -/
  decodes : ∀ (d : AttachmentDescriptor) output, d.encode E = .ok output →
    AttachmentDescriptor.decode D output = .ok d
  /-- What is decoded is within the limits, and can be encoded and decoded again. -/
  limits : ∀ input (d : AttachmentDescriptor), AttachmentDescriptor.decode D input = .ok d →
    d.Limits ∧ ∃ output, d.encode E = .ok output ∧ AttachmentDescriptor.decode D output = .ok d
  /-- Only the tokens of a descriptor are decoded. -/
  items : ∀ (ts : List Token) input, Spells ts input →
    ((∃ d, AttachmentDescriptor.decode D input = .ok d) ↔
      ∃ d : AttachmentDescriptor, d.Limits ∧ ts = d.tokens)
  /-- Of all maps only those with the seven fields of a descriptor are decoded, in their order, none
  missing, twice or of another type or length. -/
  fields : ∀ (fs : List (Token × Token)) input, Spells (AttachmentDescriptor.mapTokens fs) input →
    ((∃ d, AttachmentDescriptor.decode D input = .ok d) ↔
      ∃ d : AttachmentDescriptor, d.Limits ∧ fs = d.fields)
  /-- What spells no descriptor is rejected. -/
  spelled : ∀ input, (∀ d : AttachmentDescriptor, d.Limits → ¬Spells d.tokens input) →
    ∃ e, AttachmentDescriptor.decode D input = .error e
  /-- Nothing may follow a descriptor. -/
  trailing : ∀ (d : AttachmentDescriptor) input rest, Spells d.tokens input → rest ≠ [] →
    ∃ e, AttachmentDescriptor.decode D (input ++ rest) = .error e
  /-- The commands return every descriptor that is encoded. -/
  returns : ∀ (d : AttachmentDescriptor) output, d.encode E = .ok output →
    ∃ result, attachmentEncode B E (d.toJson B) = .ok result ∧
      attachmentDecode B D result = .ok (d.toJson B)
  /-- They return the arguments they take. -/
  arguments : ∀ args result, attachmentEncode B E args = .ok result →
    ∃ returned, attachmentDecode B D result = .ok returned ∧
      ∀ key ∈ attachmentKeys, returned.get key = args.get key

section

variable {B E D} {args : Value}

theorem forall_mem_attachmentKeys {p : String → Prop} : (∀ key ∈ attachmentKeys, p key) ↔
    p "path" ∧ p "key_b64" ∧ p "nonce_b64" ∧ p "sha256_b64" ∧ p "mime" ∧ p "name" ∧ p "size" := by
  simp only [attachmentKeys, List.forall_mem_cons, List.not_mem_nil, false_imp_iff, implies_true,
    and_true]

/-- A `u64` in JSON is the number itself. -/
theorem ofNat_val_ofNat (n : UInt64) :
    UInt64.ofNat (Fin.ofNat 18446744073709551616 n.toNat).val = n := by
  rw [Fin.val_ofNat, Nat.mod_eq_of_lt n.toNat_lt, UInt64.ofNat_toNat]

theorem ofNat_toNat_ofNat (n : Fin 18446744073709551616) :
    Fin.ofNat 18446744073709551616 (UInt64.ofNat n.val).toNat = n := by
  refine Fin.ext ?_
  rw [UInt64.toNat_ofNat_of_lt' n.isLt, Fin.val_ofNat, Nat.mod_eq_of_lt n.isLt]

/-- **What is taken** as a descriptor: an object with its values, where it can be encoded. -/
theorem attachmentEncode_eq_ok (hB : B.Canonical) (hE : E.Conforms) {result : Value} :
    attachmentEncode B E args = .ok result ↔ ∃ (d : AttachmentDescriptor) (output : Bytes),
      (∀ key ∈ attachmentKeys, (d.toJson B).get key = args.get key) ∧ d.encode E = .ok output ∧
        .object [("descriptor_b64", .string (B.encode output))] = result := by
  simp only [attachmentEncode, bind_eq_ok, Commands.requiredString_eq_ok, fixedArg_eq_ok hB,
    okOr_eq_ok, asU64_eq_some, pure_eq_ok, forall_mem_attachmentKeys]
  constructor
  · rintro ⟨path, ⟨hpath, -⟩, key, hkey, nonce, hnonce, sha256, hsha256, mime, ⟨hmime, -⟩, name,
      ⟨hname, -⟩, _, ⟨size, hsize, rfl⟩, output, hencode, hresult⟩
    refine ⟨{ path, key, nonce, sha256, mime, name
              size := Fin.ofNat 18446744073709551616 size.toNat },
      output, ⟨hpath.symm, hkey.symm, hnonce.symm, hsha256.symm, hmime.symm, hname.symm, ?_⟩,
      hencode, hresult⟩
    rw [hsize]
    exact congrArg (fun n ↦ some (Value.number (.posInt n))) (ofNat_val_ofNat size)
  · rintro ⟨d, output, ⟨hpath, hkey, hnonce, hsha256, hmime, hname, hsize⟩, hencode, hresult⟩
    obtain ⟨hlimits, -⟩ := (AttachmentDescriptor.encode_eq_ok hE).1 hencode
    have hne : ∀ text : String, 0 < text.utf8ByteSize → text ≠ "" := by
      rintro text hpos rfl
      exact absurd hpos (by decide)
    refine ⟨d.path, ⟨hpath.symm, hne _ hlimits.path.1⟩, d.key, hkey.symm, d.nonce, hnonce.symm,
      d.sha256, hsha256.symm, d.mime, ⟨hmime.symm, hne _ hlimits.mime.1⟩, d.name,
      ⟨hname.symm, hne _ hlimits.name.1⟩, _, ⟨UInt64.ofNat d.size, hsize.symm, rfl⟩, output, ?_,
      hresult⟩
    rw [ofNat_toNat_ofNat]
    exact hencode

theorem attachmentDecode_eq_ok (hB : B.Canonical) {returned : Value} :
    attachmentDecode B D args = .ok returned ↔ ∃ (input : Bytes) (d : AttachmentDescriptor),
      args.get "descriptor_b64" = some (.string (B.encode input)) ∧
        input.length ≤ maxApplication ∧ AttachmentDescriptor.decode D input = .ok d ∧
        d.toJson B = returned := by
  simp only [attachmentDecode, bind_eq_ok, decodeArg_eq_ok hB, pure_eq_ok, and_assoc,
    exists_and_left]

/-- What one command wrote, the other reads. -/
theorem attachmentDecode_of_encode (hB : B.Canonical) (hE : E.Conforms) (hD : D.Conforms)
    {d : AttachmentDescriptor} {output : Bytes} (h : d.encode E = .ok output) :
    attachmentDecode B D (.object [("descriptor_b64", .string (B.encode output))]) =
      .ok (d.toJson B) :=
  (attachmentDecode_eq_ok hB).2 ⟨output, d, rfl,
    le_trans (AttachmentDescriptor.length_encode_le hE h) (by decide),
    AttachmentDescriptor.decode_of_encode hE hD h, rfl⟩

end

/-- **Attachment descriptors** come back as they were given, and nothing else is decoded to one. -/
theorem attachmentLaws {B : Engine} {E : Encoder} {D : Decoder String} (hB : B.Canonical)
    (hE : E.Conforms) (hD : D.Conforms) : AttachmentLaws B E D where
  decodes d output h := d.decode_of_encode hE hD h
  limits input d h := by
    have hlimits := ((AttachmentDescriptor.decode_eq_ok hD).1 h).1
    have hencode := (AttachmentDescriptor.encode_eq_ok hE).2 ⟨hlimits, rfl⟩
    exact ⟨hlimits, _, hencode, d.decode_of_encode hE hD hencode⟩
  items ts input hspells := AttachmentDescriptor.decodes_iff hD hspells
  fields fs input hspells := by
    rw [AttachmentDescriptor.decodes_iff hD hspells]
    exact exists_congr fun d ↦ and_congr_right fun _ ↦
      ⟨AttachmentDescriptor.mapTokens_inj, fun heq ↦ congrArg _ heq⟩
  spelled input h := AttachmentDescriptor.decode_rejects hD h
  trailing d input rest hspells hrest := by
    refine AttachmentDescriptor.decode_rejects hD fun d' _ hspells' ↦ hrest ?_
    exact hspells.eq_nil_of_append (show d.tokens.length = d'.tokens.length from rfl) hspells'
  returns d output h := by
    refine ⟨_, (attachmentEncode_eq_ok hB hE).2 ⟨d, output, fun _ _ ↦ rfl, h, rfl⟩, ?_⟩
    exact attachmentDecode_of_encode hB hE hD h
  arguments args result h := by
    obtain ⟨d, output, hargs, hencode, rfl⟩ := (attachmentEncode_eq_ok hB hE).1 h
    exact ⟨d.toJson B, attachmentDecode_of_encode hB hE hD hencode, hargs⟩

/-- They hold with the usual alphabet of base64, and a decoder that takes every spelling. -/
theorem attachmentLaws_plain : AttachmentLaws standard plainEncoder plainDecoder :=
  attachmentLaws standard_canonical plainEncoder_conforms plainDecoder_conforms

/-! ### Payloads -/

section

variable (B : Engine) (E : Encoder) (D : Decoder String)

/-- `u8::try_from(value).ok()`. -/
def toU8 (value : ℕ) : Option Byte := if h : value < 256 then some ⟨value, h⟩ else none

/-- An entry of the metadata. -/
def metadataEntry (key : String) (value : Value) : Except MlsError (Fin 65536 × Bytes) := do
  let key ← okOr (parseUnsigned 65536 key) ⟨"metadata keys must be u16 integers"⟩
  let value ← okOr value.asStr ⟨"metadata values must be base64 strings"⟩
  let value ← (B.decode value).mapError fun _ ↦ ⟨"invalid metadata base64"⟩
  ensure (value.length ≤ 64 * 1024) ⟨"metadata value is too large"⟩
  return (Fin.ofNat 65536 key, value)

/-- The loop over the metadata. -/
def readEntries : Properties → OrderedMap (Fin 65536) Bytes →
    Except MlsError (OrderedMap (Fin 65536) Bytes)
  | [], metadata => .ok metadata
  | (key, value) :: values, metadata => do
    let (key, value) ← metadataEntry B key value
    readEntries values (metadata.insert key value)

/-- The metadata of the arguments, of which there need not be any. -/
def metadataArg (args : Value) : Except MlsError (OrderedMap (Fin 65536) Bytes) :=
  match args.get "metadata" with
  | none => .ok OrderedMap.empty
  | some values => do
    let values ← okOr values.asObject ⟨"metadata must be an object"⟩
    ensure (values.length ≤ 32) ⟨"too many metadata entries"⟩
    readEntries B values OrderedMap.empty

def applicationEncode (random : ℕ → Byte) (args : Value) : Except MlsError Value := do
  let kindValue ← okOr (((args.get "kind").bind Value.asU64).bind toU8)
    ⟨"invalid application kind"⟩
  let body ← decodeArg B args "body_b64" maxApplication
  let metadata ← metadataArg B args
  let kind ← PayloadKind.tryFrom kindValue
  let padded ← ApplicationPayload.encodePadded E random { kind, body, metadata }
  return .object [("plaintext_b64", .string (B.encode padded))]

/-- The metadata that `application_decode` returns: no two keys have the same text. -/
def metadataJson (metadata : OrderedMap (Fin 65536) Bytes) : Properties :=
  metadata.entries.map fun e ↦ (decimal e.1, .string (B.encode e.2))

/-- The object that `application_decode` returns. -/
def ApplicationPayload.toJson (payload : ApplicationPayload) : Value :=
  .object [("kind", .number (.posInt (UInt64.ofNat payload.kind.toU8))),
    ("body_b64", .string (B.encode payload.body)),
    ("metadata", .object (metadataJson B payload.metadata))]

def applicationDecode (args : Value) : Except (Fault MlsError) Value := do
  let plaintext ← (decodeArg B args "plaintext_b64" maxApplication).mapError .rejected
  let payload ← ApplicationPayload.decodePadded D plaintext
  return payload.toJson B

end

/-- The fields of the metadata in an object: none when it has none. -/
def metadataOf (args : Value) : Properties := ((args.get "metadata").bind Value.asObject).getD []

/-- Both objects have the same kind, body and metadata. -/
structure SameMessage (args returned : Value) : Prop where
  kind : returned.get "kind" = args.get "kind"
  body : returned.get "body_b64" = args.get "body_b64"
  metadata : ∀ key, (metadataOf returned).get key = (metadataOf args).get key

/-- One command returns what the other was given. -/
def ReturnsMessage (B : Engine) (D : Decoder String) (args result : Value) : Prop :=
  ∃ returned, applicationDecode B D result = .ok returned ∧ SameMessage args returned

section

variable {B : Engine} {E : Encoder} {D : Decoder String} {args : Value}

theorem metadataEntry_eq_ok (hB : B.Canonical) {key : String} {value : Value}
    {e : Fin 65536 × Bytes} : metadataEntry B key value = .ok e ↔
      parseUnsigned 65536 key = some e.1.val ∧ value = .string (B.encode e.2) ∧
        e.2.length ≤ 64 * 1024 := by
  have hstr : ∀ text, value.asStr = some text ↔ value = .string text := by
    intro text
    have h : (some value).bind Value.asStr = some text ↔ some value = some (.string text) :=
      asStr_eq_some
    rwa [Option.bind_some, Option.some.injEq] at h
  simp only [metadataEntry, bind_eq_ok, okOr_eq_ok, mapError_eq_ok, ensure_eq_ok, exists_unit,
    pure_eq_ok, hstr, hB.decode_eq_ok]
  constructor
  · rintro ⟨n, hkey, _, rfl, bytes, rfl, hlength, rfl⟩
    refine ⟨?_, rfl, hlength⟩
    rw [hkey, Fin.val_ofNat, Nat.mod_eq_of_lt (lt_of_parseUnsigned (by decide) hkey)]
  · rintro ⟨hkey, rfl, hlength⟩
    refine ⟨_, hkey, _, rfl, _, rfl, hlength, Prod.ext (Fin.ext ?_) rfl⟩
    rw [Fin.val_ofNat, Nat.mod_eq_of_lt e.1.isLt]

/-- The loop takes every field for an entry, and inserts them in their order. -/
theorem readEntries_eq_ok {values : Properties}
    {metadata metadata' : OrderedMap (Fin 65536) Bytes} :
    readEntries B values metadata = .ok metadata' ↔ ∃ es,
      List.Forall₂ (fun f e ↦ metadataEntry B f.1 f.2 = .ok e) values es ∧
        metadata.insertAll es = metadata' := by
  induction values generalizing metadata with
  | nil =>
    simp only [List.forall₂_nil_left_iff, exists_eq_left]
    exact ⟨fun h ↦ Except.ok.inj h, fun h ↦ congrArg _ h⟩
  | cons f values ih =>
    simp only [readEntries, bind_eq_ok, ih, List.forall₂_cons_left_iff]
    constructor
    · rintro ⟨e, he, es, hes, hinsert⟩
      exact ⟨e :: es, ⟨e, es, he, hes, rfl⟩, hinsert⟩
    · rintro ⟨_, ⟨e, es, he, hes, rfl⟩, hinsert⟩
      exact ⟨e, he, es, hes, hinsert⟩

theorem metadataArg_eq_ok {metadata : OrderedMap (Fin 65536) Bytes}
    (h : metadataArg B args = .ok metadata) : ∃ es,
      List.Forall₂ (fun f e ↦ metadataEntry B f.1 f.2 = .ok e) (metadataOf args) es ∧
        OrderedMap.empty.insertAll es = metadata := by
  unfold metadataArg at h
  rw [metadataOf]
  split at h
  · rename_i hnone
    rw [hnone]
    exact ⟨[], .nil, Except.ok.inj h⟩
  · rename_i v hsome
    simp only [bind_eq_ok, okOr_eq_ok, ensure_eq_ok, exists_unit] at h
    obtain ⟨values, hobject, -, hread⟩ := h
    rw [hsome, Option.bind_some, hobject]
    exact readEntries_eq_ok.1 hread

/-- A field of the metadata that is returned. -/
def metadataField (B : Engine) (e : Fin 65536 × Bytes) : String × Value :=
  (decimal e.1, .string (B.encode e.2))

theorem metadataField_inj (hB : B.Canonical) {e e' : Fin 65536 × Bytes}
    (h : metadataField B e = metadataField B e') : e = e' := by
  obtain ⟨hkey, hvalue⟩ := Prod.mk.inj h
  have hback := hB.decode_encode e.2
  rw [Value.string.inj hvalue, hB.decode_encode] at hback
  exact Prod.ext (Fin.ext (decimal_inj hkey)) (Except.ok.inj hback).symm

/-- The fields that are returned have different keys. -/
theorem distinct_metadataJson (metadata : OrderedMap (Fin 65536) Bytes) :
    (metadataJson B metadata).Distinct := by
  rw [Properties.Distinct, metadataJson, List.map_map, List.Nodup, List.pairwise_map]
  exact metadata.sorted.imp fun hlt heq ↦ ne_of_lt hlt (Fin.ext (decimal_inj heq))

/-- **What comes back** of the metadata is what was given if its keys are plain numbers. -/
theorem metadataJson_get_iff (hB : B.Canonical) {fields : Properties} (hdistinct : fields.Distinct)
    {es : List (Fin 65536 × Bytes)}
    (h : List.Forall₂ (fun f e ↦ metadataEntry B f.1 f.2 = .ok e) fields es) :
    (∀ key, (metadataJson B (OrderedMap.empty.insertAll es)).get key = fields.get key) ↔
      ∀ f ∈ fields, ∃ n : Fin 65536, f.1 = decimal n := by
  have hget : ∀ {key value}, fields.get key = some value ↔ (key, value) ∈ fields :=
    hdistinct.lookup_eq_some
  have hget' : ∀ {metadata key value}, (metadataJson B metadata).get key = some value ↔
      (key, value) ∈ metadataJson B metadata := (distinct_metadataJson _).lookup_eq_some
  constructor
  · intro hsame f hf
    have hf' := hget'.1 ((hsame f.1).trans (hget.2 hf))
    obtain ⟨e, -, heq⟩ := List.mem_map.1 hf'
    exact ⟨e.1, (congrArg Prod.fst heq).symm⟩
  · intro hplain key
    have hfields : fields = es.map (metadataField B) := by
      clear hget hget' hdistinct
      induction h with
      | nil => rfl
      | cons hentry _ ih =>
        obtain ⟨hfirst, hrest⟩ := List.forall_mem_cons.1 hplain
        obtain ⟨n, hn⟩ := hfirst
        obtain ⟨hkey, hvalue, -⟩ := (metadataEntry_eq_ok hB).1 hentry
        rw [hn, parseUnsigned_decimal n.isLt] at hkey
        rw [List.map_cons, ← ih hrest]
        refine congrArg (· :: _) (Prod.ext ?_ hvalue)
        rw [hn, metadataField, Option.some.inj hkey]
    have hone : ∀ {k v w}, (k, v) ∈ es → (k, w) ∈ es → v = w := by
      intro k v w hv hw
      have hv' : metadataField B (k, v) ∈ fields := hfields ▸ List.mem_map_of_mem hv
      have hw' : metadataField B (k, w) ∈ fields := hfields ▸ List.mem_map_of_mem hw
      have heq := Option.some.inj ((hget.2 hv').symm.trans (hget.2 hw'))
      have hfield : metadataField B (k, v) = metadataField B (k, w) := Prod.ext rfl heq
      exact congrArg Prod.snd (metadataField_inj hB hfield)
    refine Option.ext fun value ↦ ?_
    rw [hget, hget', hfields]
    constructor
    · intro hmem
      obtain ⟨e, he, heq⟩ := List.mem_map.1 hmem
      have hes := (OrderedMap.get_insertAll_eq_some fun _ _ ↦ hone).1 (OrderedMap.get_eq_some.2 he)
      have hmem := hes.resolve_right fun hnone ↦ nomatch hnone.2
      exact List.mem_map.2 ⟨e, hmem, heq⟩
    · intro hmem
      obtain ⟨e, he, heq⟩ := List.mem_map.1 hmem
      have hes := (OrderedMap.get_insertAll_eq_some (m := OrderedMap.empty) fun _ _ ↦ hone).2
        (.inl he)
      exact List.mem_map.2 ⟨e, OrderedMap.get_eq_some.1 hes, heq⟩

theorem applicationEncode_eq_ok (hB : B.Canonical) {random : ℕ → Byte} {result : Value}
    (h : applicationEncode B E random args = .ok result) :
    ∃ (payload : ApplicationPayload) (n : UInt64) (output : Bytes),
      args.get "kind" = some (.number (.posInt n)) ∧ n.toNat = payload.kind.toU8.val ∧
        args.get "body_b64" = some (.string (B.encode payload.body)) ∧
        metadataArg B args = .ok payload.metadata ∧
        ApplicationPayload.encodePadded E random payload = .ok output ∧
        .object [("plaintext_b64", .string (B.encode output))] = result := by
  simp only [applicationEncode, bind_eq_ok, okOr_eq_ok, decodeArg_eq_ok hB,
    PayloadKind.tryFrom_eq_ok, pure_eq_ok] at h
  obtain ⟨value, hkind, body, ⟨hbody, -⟩, metadata, hmetadata, kind, rfl, output, hencode,
    hresult⟩ := h
  obtain ⟨n, hn, hvalue⟩ := Option.bind_eq_some_iff.1 hkind
  obtain ⟨m, hm, rfl⟩ := asU64_eq_some.1 hn
  refine ⟨⟨kind, body, metadata⟩, m, output, hm, ?_, hbody, hmetadata, hencode, hresult⟩
  unfold toU8 at hvalue
  split at hvalue
  · exact congrArg Fin.val (Option.some.inj hvalue)
  · cases hvalue

/-- What one command wrote, the other reads. -/
theorem applicationDecode_of_encodePadded (hB : B.Canonical) (hE : E.Conforms) (hD : D.Conforms)
    {random : ℕ → Byte} {payload : ApplicationPayload} {output : Bytes}
    (h : ApplicationPayload.encodePadded E random payload = .ok output) :
    applicationDecode B D (.object [("plaintext_b64", .string (B.encode output))]) =
      .ok (payload.toJson B) := by
  obtain ⟨hle, rfl⟩ := ApplicationPayload.encodePadded_eq_ok.1 h
  have hlength := (ApplicationPayload.bucketOf_le_iff _).2 hle
  have hdecode := ApplicationPayload.decodePadded_padded hE hD random hle
  rw [← ApplicationPayload.length_padded random] at hlength
  simp only [applicationDecode, bind_eq_ok, mapError_eq_ok, decodeArg_eq_ok hB, pure_eq_ok]
  exact ⟨_, ⟨rfl, hlength⟩, payload, hdecode, rfl⟩

/-- A message comes back if its object is that of the payload. -/
theorem returnsMessage_of_encodePadded (hB : B.Canonical) (hE : E.Conforms) (hD : D.Conforms)
    {random : ℕ → Byte} {payload : ApplicationPayload} {output : Bytes}
    (h : ApplicationPayload.encodePadded E random payload = .ok output) :
    ReturnsMessage B D args (.object [("plaintext_b64", .string (B.encode output))]) ↔
      SameMessage args (payload.toJson B) := by
  rw [ReturnsMessage, applicationDecode_of_encodePadded hB hE hD h]
  constructor
  · rintro ⟨returned, hok, hsame⟩
    obtain rfl := Except.ok.inj hok
    exact hsame
  · exact fun hsame ↦ ⟨_, rfl, hsame⟩

end

/-- **What comes back** is the message that was given, if and only if the keys of its metadata are
plain numbers: those with a plus sign or leading zeros are renamed, or merged with others. -/
theorem returnsMessage_iff {B : Engine} {E : Encoder} {D : Decoder String} (hB : B.Canonical)
    (hE : E.Conforms) (hD : D.Conforms) (random : ℕ → Byte) (args result : Value)
    (hdistinct : (metadataOf args).Distinct)
    (h : applicationEncode B E random args = .ok result) :
    ReturnsMessage B D args result ↔ ∀ f ∈ metadataOf args, ∃ n : Fin 65536, f.1 = decimal n := by
  obtain ⟨payload, n, output, hkind, hn, hbody, hmetadata, hencode, rfl⟩ :=
    applicationEncode_eq_ok hB h
  obtain ⟨es, hes, hinsert⟩ := metadataArg_eq_ok hmetadata
  rw [returnsMessage_of_encodePadded hB hE hD hencode, ← metadataJson_get_iff hB hdistinct hes,
    hinsert]
  refine ⟨fun hsame ↦ hsame.metadata, fun hsame ↦ ⟨?_, hbody.symm, hsame⟩⟩
  rw [hkind, ← UInt64.ofNat_toNat (x := n), hn]
  rfl

/-- A message with one entry of metadata, which is empty. -/
def labelled (key : String) : Value :=
  .object [("kind", .number (.posInt 1)), ("body_b64", .string ""),
    ("metadata", .object [(key, .string "")])]

/-- Its payload, when the label is for a number. -/
def labelledPayload (n : Fin 65536) : ApplicationPayload :=
  ⟨.text, [], OrderedMap.empty.insert n []⟩

theorem encodePadded_labelled {n : Fin 65536} (random : ℕ → Byte) :
    ApplicationPayload.encodePadded plainEncoder random (labelledPayload n) =
      .ok (ApplicationPayload.padded random ((labelledPayload n).cbor plainEncoder)) := by
  refine ApplicationPayload.encodePadded_eq_ok.2 ⟨?_, rfl⟩
  have hshort : (write (labelledPayload n).tokens).length ≤ 9 * (9 + 0) := by
    refine length_write_le (labelledPayload n).tokens fun kind content hmem ↦ ?_
    have hcontent : content = [] := by
      simp only [ApplicationPayload.tokens, ApplicationPayload.metadataTokens, labelledPayload,
        OrderedMap.insert, OrderedMap.insertEntry, OrderedMap.empty, List.flatMap_cons,
        List.flatMap_nil, List.append_nil, List.cons_append, List.nil_append, List.mem_cons,
        List.not_mem_nil, reduceCtorEq, Token.string.injEq, false_or, or_false] at hmem
      exact hmem.elim And.right And.right
    rw [hcontent]
    exact Nat.le_refl 0
  rw [ApplicationPayload.cbor_eq plainEncoder_conforms]
  exact le_trans (Nat.add_le_add_right hshort 4) (by decide)

theorem applicationEncode_labelled {key : String} {n : Fin 65536} (random : ℕ → Byte)
    (h : parseUnsigned 65536 key = some n.val) :
    applicationEncode standard plainEncoder random (labelled key) =
      .ok (.object [("plaintext_b64", .string (standard.encode
        (ApplicationPayload.padded random ((labelledPayload n).cbor plainEncoder))))]) := by
  have hempty : standard.encode [] = "" := rfl
  have hentry : metadataEntry standard key (.string "") = .ok (n, []) :=
    (metadataEntry_eq_ok standard_canonical).2
      ⟨h, congrArg Value.string hempty.symm, Nat.zero_le _⟩
  have hmetadata : metadataArg standard (labelled key) = .ok (labelledPayload n).metadata := by
    show readEntries standard [(key, .string "")] OrderedMap.empty = _
    exact readEntries_eq_ok.2 ⟨[(n, [])], .cons hentry .nil, rfl⟩
  simp only [applicationEncode, bind_eq_ok, okOr_eq_ok, pure_eq_ok]
  exact ⟨1, rfl, [], rfl, _, hmetadata, .text, rfl, _, encodePadded_labelled random, rfl⟩

/-- The label `5` comes back. -/
theorem returnsMessage_iff_five : ∃ result,
    applicationEncode standard plainEncoder (fun _ ↦ 0) (labelled "5") = .ok result ∧
      ReturnsMessage standard plainDecoder (labelled "5") result := by
  have hencode := applicationEncode_labelled (n := 5) (fun _ ↦ 0)
    (show parseUnsigned _ "5" = _ from rfl)
  refine ⟨_, hencode, (returnsMessage_iff standard_canonical plainEncoder_conforms
    plainDecoder_conforms _ (labelled "5") _ (List.nodup_singleton "5") hencode).2 ?_⟩
  rintro f hf
  exact ⟨5, congrArg Prod.fst (List.mem_singleton.1 hf)⟩

/-- The label `05` comes back as `5`. -/
theorem not_returnsMessage_zeroFive : ∃ result,
    applicationEncode standard plainEncoder (fun _ ↦ 0) (labelled "05") = .ok result ∧
      ¬ReturnsMessage standard plainDecoder (labelled "05") result := by
  refine ⟨_, applicationEncode_labelled (n := 5) (fun _ ↦ 0) rfl, ?_⟩
  rw [returnsMessage_of_encodePadded standard_canonical plainEncoder_conforms plainDecoder_conforms
    (encodePadded_labelled _)]
  intro hsame
  have hnone : none = some (Value.string "") := hsame.metadata "05"
  cases hnone

end VoceChat
