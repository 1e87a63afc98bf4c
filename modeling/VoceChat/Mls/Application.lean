import Mathlib.Algebra.Group.Nat.Defs
import Mathlib.Data.Nat.Log
import Mathlib.Order.Bounds.Defs
import Mathlib.Order.Fin.Basic
import VoceChat.Foundations.Cbor
import VoceChat.Foundations.OrderedMap
import VoceChat.Foundations.Slices
import VoceChat.Mls.Welcome

/-!
# Application payloads (`voce-e2ee-core/src/mls/application.rs`)

What MLS encrypts is a CBOR map of a kind, a body and metadata, behind its length in four bytes, and
filled up with random bytes to a power of two (`encodePadded`). `decodePadded` reads it back.

The CBOR library is a parameter: `Encoder.Conforms` and `Decoder.Conforms` say what its operations
write and accept. `accepts_readPayload` then says which tokens a payload is read from, from which
follow

* the round trip, with the length of what is sent (`encodePadded_decodePadded`), and
* that the segment of an accepted input is what `encodePadded` writes exactly if all of its heads
  are as short as they can be: the decoder takes the longer ones as well (`reencodes_iff`).
-/

namespace VoceChat

open BigEndian Cbor Guards Machine Slices

def minBucket : ℕ := 256

def maxBucket : ℕ := 1024 * 1024

/-- One more than `usize::MAX`. -/
def usizeSize : ℕ := 18446744073709551616

inductive PayloadKind where
  | text
  | reply
  | edit
  | reaction
  | file
  | image
  | voice
  | markdown
  | delete
  | revoke
  | membershipNotice
  deriving DecidableEq, Repr

namespace PayloadKind

/-- `self.kind as u8`. -/
def toU8 : PayloadKind → Byte
  | text => 1
  | reply => 2
  | edit => 3
  | reaction => 4
  | file => 5
  | image => 6
  | voice => 7
  | markdown => 8
  | delete => 9
  | revoke => 10
  | membershipNotice => 11

/-- `PayloadKind::try_from`. -/
def tryFrom (value : Byte) : Except MlsError PayloadKind :=
  match value.val with
  | 1 => .ok text
  | 2 => .ok reply
  | 3 => .ok edit
  | 4 => .ok reaction
  | 5 => .ok file
  | 6 => .ok image
  | 7 => .ok voice
  | 8 => .ok markdown
  | 9 => .ok delete
  | 10 => .ok revoke
  | 11 => .ok membershipNotice
  | _ => .error ⟨"unknown application payload kind"⟩

end PayloadKind

/-- The metadata is a `BTreeMap<u16, Vec<u8>>`. -/
structure ApplicationPayload where
  kind : PayloadKind
  body : Bytes
  metadata : OrderedMap (Fin 65536) Bytes

/-- `usize::checked_add`. -/
def checkedAdd (a b : ℕ) : Option ℕ := if a + b < usizeSize then some (a + b) else none

/-- `usize::checked_next_power_of_two`. -/
def checkedNextPowerOfTwo (n : ℕ) : Option ℕ :=
  if 2 ^ Nat.clog 2 n < usizeSize then some (2 ^ Nat.clog 2 n) else none

/-- `usize::is_power_of_two`. -/
def IsPowerOfTwo (n : ℕ) : Prop := n = 2 ^ Nat.clog 2 n

instance : DecidablePred IsPowerOfTwo := fun n ↦ inferInstanceAs (Decidable (n = 2 ^ Nat.clog 2 n))

/-- `cbor_error`. -/
def cborError (error : String) : MlsError := ⟨"invalid application CBOR: " ++ error⟩

/-- An operation of the decoder, with its error as one of the application's. -/
def decodeWith {α : Type} (read : Reader String α) : Reader MlsError α :=
  fun input ↦ (read input).mapError cborError

variable (E : Encoder) (D : Decoder String)

/-- `expect_key`. -/
def expectKey (expected : Byte) : Reader MlsError Unit := do
  let actual ← decodeWith D.u8
  StateT.lift (ensure (actual = expected) ⟨"application keys are not canonical"⟩)

namespace ApplicationPayload

/-- The CBOR that `encode_padded` writes. -/
def cbor (payload : ApplicationPayload) : Bytes :=
  E.map 3 ++ E.u8 0 ++ E.u8 payload.kind.toU8 ++ E.u8 1 ++ E.bytes payload.body ++ E.u8 2 ++
    E.map payload.metadata.entries.length ++
    payload.metadata.entries.flatMap fun e ↦ E.u16 e.1 ++ E.bytes e.2

/-- `OsRng.fill_bytes`, on so many bytes of what is drawn. -/
def fillBytes (random : ℕ → Byte) (n : ℕ) : Bytes := (List.range n).map random

def encodePadded (random : ℕ → Byte) (payload : ApplicationPayload) : Except MlsError Bytes := do
  let encoded := payload.cbor E
  let required ← okOr (checkedAdd encoded.length 4) ⟨"application payload length overflow"⟩
  let bucket ← okOr (checkedNextPowerOfTwo (max required minBucket))
    ⟨"application payload length overflow"⟩
  ensure (bucket ≤ maxBucket) ⟨"application payload exceeds maximum length"⟩
  let output := beBytes 4 (encoded.length % u32Size) ++ encoded
  return output ++ fillBytes random (bucket - output.length)

/-- The loop over the entries of the metadata. -/
def readMetadata : ℕ → Option (Fin 65536) → OrderedMap (Fin 65536) Bytes →
    Reader MlsError (OrderedMap (Fin 65536) Bytes)
  | 0, _, metadata => pure metadata
  | n + 1, previous, metadata => do
    let key ← decodeWith D.u16
    StateT.lift (ensure (∀ value ∈ previous, ¬key ≤ value) ⟨"metadata keys are not canonical"⟩)
    let value ← decodeWith D.bytes
    readMetadata n (some key) (metadata.insert key value)

/-- The reads of `decode_padded`. -/
def readPayload : Reader MlsError ApplicationPayload := do
  decodeWith D.map >>= fun n ↦
    StateT.lift (ensure (n = some 3) ⟨"application payload must be a fixed map"⟩)
  expectKey D 0
  let value ← decodeWith D.u8
  let kind ← StateT.lift (PayloadKind.tryFrom value)
  expectKey D 1
  let body ← decodeWith D.bytes
  expectKey D 2
  let metadataLen ← decodeWith D.map >>= fun n ↦
    StateT.lift (okOr n ⟨"indefinite metadata map is not canonical"⟩)
  let metadata ← readMetadata D metadataLen none OrderedMap.empty
  return { kind, body, metadata }

def decodePadded (input : Bytes) : Except (Fault MlsError) ApplicationPayload := do
  accept (minBucket ≤ input.length ∧ input.length ≤ maxBucket ∧ IsPowerOfTwo input.length)
    ⟨"invalid application payload bucket"⟩
  let encodedLen := ofBe (← slice input 0 4)
  let room ← minus input.length 4
  accept (encodedLen ≠ 0 ∧ encodedLen ≤ room) ⟨"invalid application payload length"⟩
  let encoded ← slice input 4 (4 + encodedLen)
  let (payload, rest) ← (readPayload D encoded).mapError .rejected
  -- the decoder's position is the end of its input when nothing is left of it
  accept (rest = []) ⟨"trailing canonical CBOR data"⟩
  return payload

/-! ### The tokens of a payload -/

def metadataTokens (entries : List (Fin 65536 × Bytes)) : List Token :=
  entries.flatMap fun e ↦ [.plain .unsigned e.1.val, .string .bytes e.2]

def tokens (payload : ApplicationPayload) : List Token :=
  [.plain .map 3, .plain .unsigned 0, .plain .unsigned payload.kind.toU8.val, .plain .unsigned 1,
    .string .bytes payload.body, .plain .unsigned 2,
    .plain .map payload.metadata.entries.length] ++ metadataTokens payload.metadata.entries

end ApplicationPayload

theorem PayloadKind.tryFrom_eq_ok {value : Byte} {kind : PayloadKind} :
    tryFrom value = .ok kind ↔ value = kind.toU8 := by
  constructor
  · intro h
    unfold tryFrom at h
    split at h
    all_goals
      first
      | cases h
        exact Fin.ext (by assumption)
      | cases h
  · rintro rfl
    cases kind <;> rfl

section

variable {E D} (hE : E.Conforms) (hD : D.Conforms)

include hD in
theorem accepts_expectKey (expected : Byte) :
    Accepts (expectKey D expected) fun _ ts ↦ ts = [.plain .unsigned expected.val] := by
  refine ((hD.u8.mapError cborError).bind fun actual ↦ accepts_ensure _ _).congr fun _ ts ↦ ?_
  constructor
  · rintro ⟨actual, _, _, rfl, ⟨rfl, rfl⟩, rfl⟩
    rfl
  · rintro rfl
    exact ⟨expected, _, [], rfl, ⟨rfl, rfl⟩, rfl⟩

end

namespace ApplicationPayload

variable {E D} (hE : E.Conforms) (hD : D.Conforms)

include hE in
/-- The encoder writes the tokens in their shortest spelling. -/
theorem cbor_eq (payload : ApplicationPayload) : payload.cbor E = write payload.tokens := by
  have hentries : ∀ es : List (Fin 65536 × Bytes),
      es.flatMap (fun e ↦ E.u16 e.1 ++ E.bytes e.2) = write (metadataTokens es) := by
    intro es
    induction es with
    | nil => rfl
    | cons e es ih =>
      rw [List.flatMap_cons, ih, hE.u16, hE.bytes]
      simp only [metadataTokens, write, List.flatMap_append, List.flatMap_cons, List.flatMap_nil,
        List.append_nil]
  rw [cbor, hentries, hE.map, hE.map, hE.u8, hE.u8, hE.u8, hE.u8, hE.bytes, tokens]
  simp only [write, List.flatMap_append, List.flatMap_cons, List.flatMap_nil, List.append_nil,
    List.append_assoc]
  rfl

include hD in
/-- The loop reads entries with ascending keys, and puts them behind those it has. -/
theorem accepts_readMetadata (n : ℕ) (previous : Option (Fin 65536))
    (metadata : OrderedMap (Fin 65536) Bytes)
    (hbelow : ∀ e ∈ metadata.entries, ∃ p ∈ previous, e.1 ≤ p) :
    Accepts (readMetadata D n previous metadata) fun result ts ↦
      ∃ es : List (Fin 65536 × Bytes), es.length = n ∧ (∀ e ∈ es, ∀ p ∈ previous, p < e.1) ∧
        es.Pairwise (fun a b ↦ a.1 < b.1) ∧ result.entries = metadata.entries ++ es ∧
        ts = metadataTokens es := by
  induction n generalizing previous metadata with
  | zero =>
    refine (accepts_pure metadata).congr fun result ts ↦ ?_
    constructor
    · rintro ⟨rfl, rfl⟩
      exact ⟨[], rfl, nofun, List.Pairwise.nil, (List.append_nil _).symm, rfl⟩
    · rintro ⟨es, hlen, -, -, hentries, rfl⟩
      obtain rfl := List.length_eq_zero_iff.1 hlen
      rw [List.append_nil] at hentries
      exact ⟨OrderedMap.ext_entries hentries, rfl⟩
  | succ n ih =>
    have hrest : ∀ (key : Fin 65536) (value : Bytes), (∀ p ∈ previous, ¬key ≤ p) →
        Accepts (readMetadata D n (some key) (metadata.insert key value)) fun result ts ↦
          ∃ es : List (Fin 65536 × Bytes), es.length = n ∧ (∀ e ∈ es, key < e.1) ∧
            es.Pairwise (fun a b ↦ a.1 < b.1) ∧
            result.entries = metadata.entries ++ (key, value) :: es ∧ ts = metadataTokens es := by
      intro key value hkey
      have habove : ∀ e ∈ metadata.entries, e.1 < key := by
        intro e he
        obtain ⟨p, hp, hle⟩ := hbelow e he
        exact lt_of_le_of_lt hle (not_le.1 (hkey p hp))
      have hentries := OrderedMap.entries_insert_of_lt (v := value) habove
      refine (ih (some key) (metadata.insert key value) ?_).congr fun result ts ↦ ?_
      · rw [hentries]
        intro e he
        rcases List.mem_append.1 he with he | he
        · exact ⟨key, rfl, le_of_lt (habove e he)⟩
        · rw [List.mem_singleton.1 he]
          exact ⟨key, rfl, le_refl key⟩
      · simp only [hentries, Option.mem_def, Option.some.injEq, forall_eq', List.append_assoc,
          List.singleton_append]
    refine ((hD.u16.mapError cborError).bind fun key ↦ accepts_ensure_bind _ fun hkey ↦
      (hD.bytes.mapError cborError).bind fun value ↦ hrest key value hkey).congr fun result ts ↦ ?_
    constructor
    · rintro ⟨key, _, _, rfl,
        ⟨hkey, value, _, _, rfl, ⟨es, hlen, habove, hsorted, hes, rfl⟩, rfl⟩, rfl⟩
      refine ⟨(key, value) :: es, congrArg (· + 1) hlen, ?_, List.pairwise_cons.2 ⟨habove, hsorted⟩,
        hes, rfl⟩
      intro e he p hp
      have hp' := not_le.1 (hkey p hp)
      rcases List.mem_cons.1 he with rfl | he
      · exact hp'
      · exact lt_trans hp' (habove e he)
    · rintro ⟨es, hlen, habove, hsorted, hes, rfl⟩
      cases es with
      | nil => cases hlen
      | cons e es =>
        obtain ⟨hfirst, hsorted⟩ := List.pairwise_cons.1 hsorted
        exact ⟨e.1, _, _, rfl,
          ⟨fun p hp ↦ not_le.2 (habove e List.mem_cons_self p hp), e.2, _, _, rfl,
          ⟨es, Nat.succ.inj hlen, hfirst, hsorted, hes, rfl⟩, rfl⟩, rfl⟩

include hD in
/-- **A payload is read** from its tokens, in any spelling, and from no others. -/
theorem accepts_readPayload :
    Accepts (readPayload D) fun payload ts ↦ ts = payload.tokens := by
  have hmap : Accepts (decodeWith D.map >>= fun n ↦ StateT.lift
      (ensure (n = some 3) (⟨"application payload must be a fixed map"⟩ : MlsError)))
      fun _ ts ↦ ts = [.plain .map 3] := by
    refine (hD.accepts_map cborError (x := fun n ↦ ensure (n = some 3) _)
      fun _ h ↦ by cases h).congr fun _ ts ↦ ?_
    simp only [ensure_eq_ok, Option.some.injEq, exists_eq_left]
  have hsize : Accepts (decodeWith D.map >>= fun n ↦ StateT.lift
      (okOr n (⟨"indefinite metadata map is not canonical"⟩ : MlsError)))
      fun n ts ↦ ts = [.plain .map n] := by
    refine (hD.accepts_map cborError (x := fun n ↦ okOr n _)
      fun _ h ↦ by cases h).congr fun n ts ↦ ?_
    simp only [okOr_eq_ok, Option.some.injEq, exists_eq_left]
  refine (hmap.bind_token fun _ ↦ (accepts_expectKey hD 0).bind_token fun _ ↦
    (hD.u8.mapError cborError).bind_token fun value ↦
    (accepts_lift (PayloadKind.tryFrom value)).bind fun kind ↦
    (accepts_expectKey hD 1).bind_token fun _ ↦ (hD.bytes.mapError cborError).bind_token fun body ↦
    (accepts_expectKey hD 2).bind_token fun _ ↦ hsize.bind_token fun n ↦
    (accepts_readMetadata hD n none OrderedMap.empty fun _ he ↦ absurd he List.not_mem_nil).bind
    fun metadata ↦ accepts_pure _).congr fun payload ts ↦ ?_
  constructor
  · rintro ⟨_, _, ⟨_, _, ⟨value, _, ⟨kind, _, _, ⟨hkind, rfl⟩, ⟨_, _, ⟨body, _, ⟨_, _, ⟨n, _,
      ⟨metadata, _, _, ⟨es, hlen, -, -, hes, rfl⟩, ⟨rfl, rfl⟩, rfl⟩, rfl⟩, rfl⟩, rfl⟩, rfl⟩, rfl⟩,
      rfl⟩, rfl⟩, rfl⟩
    obtain rfl := PayloadKind.tryFrom_eq_ok.1 hkind
    obtain rfl : metadata.entries = es := hes
    rw [← hlen, List.append_nil]
    rfl
  · rintro rfl
    have hnone : ∀ e ∈ payload.metadata.entries, ∀ p ∈ (none : Option (Fin 65536)), p < e.1 :=
      fun _ _ p hp ↦ absurd hp (Option.not_mem_none p)
    refine ⟨(), _, ⟨(), _, ⟨payload.kind.toU8, _, ⟨payload.kind, _, _,
      ⟨PayloadKind.tryFrom_eq_ok.2 rfl, rfl⟩, ⟨(), _, ⟨payload.body, _, ⟨(), _,
      ⟨payload.metadata.entries.length, _, ⟨payload.metadata, _, _,
      ⟨payload.metadata.entries, rfl, hnone, payload.metadata.sorted, rfl, rfl⟩, ⟨rfl, rfl⟩, rfl⟩,
      rfl⟩, rfl⟩, rfl⟩, rfl⟩, rfl⟩, rfl⟩, rfl⟩, ?_⟩
    rw [List.append_nil]
    rfl

/-! ### Lengths -/

/-- The power of two that an encoding with its length is filled up to. -/
def bucketOf (required : ℕ) : ℕ := 2 ^ Nat.clog 2 (max required minBucket)

/-- The bucket is the smallest one with room for what is required. -/
theorem isLeast_bucketOf (required : ℕ) :
    IsLeast {n | (∃ k, n = 2 ^ k) ∧ minBucket ≤ n ∧ required ≤ n} (bucketOf required) := by
  have hle : max required minBucket ≤ bucketOf required := Nat.le_pow_clog Nat.one_lt_two _
  refine ⟨⟨⟨_, rfl⟩, le_trans (le_max_right _ _) hle, le_trans (le_max_left _ _) hle⟩, ?_⟩
  rintro n ⟨⟨k, rfl⟩, hmin, hrequired⟩
  exact Nat.pow_le_pow_right Nat.two_pos (Nat.clog_le_of_le_pow (max_le hrequired hmin))

theorem maxBucket_eq : maxBucket = 2 ^ 20 := rfl

theorem bucketOf_le_iff (required : ℕ) : bucketOf required ≤ maxBucket ↔ required ≤ maxBucket := by
  constructor
  · exact fun h ↦ le_trans (isLeast_bucketOf required).1.2.2 h
  · exact fun h ↦ (isLeast_bucketOf required).2 ⟨⟨20, maxBucket_eq⟩, by decide, h⟩

theorem isPowerOfTwo_bucketOf (required : ℕ) : IsPowerOfTwo (bucketOf required) := by
  rw [IsPowerOfTwo, bucketOf, Nat.clog_pow _ _ Nat.one_lt_two]

theorem length_fillBytes (random : ℕ → Byte) (n : ℕ) : (fillBytes random n).length = n := by
  rw [fillBytes, List.length_map, List.length_range]

/-- What is sent for an encoding. -/
def padded (random : ℕ → Byte) (encoded : Bytes) : Bytes :=
  beBytes 4 encoded.length ++ encoded ++
    fillBytes random (bucketOf (encoded.length + 4) - (encoded.length + 4))

theorem length_padded (random : ℕ → Byte) (encoded : Bytes) :
    (padded random encoded).length = bucketOf (encoded.length + 4) := by
  have hle := (isLeast_bucketOf (encoded.length + 4)).1.2.2
  rw [padded, List.length_append, List.length_append, length_beBytes, length_fillBytes]
  omega

/-- An encoding that is not too long is sent. -/
theorem encodePadded_of_le (random : ℕ → Byte) {payload : ApplicationPayload}
    (h : (payload.cbor E).length + 4 ≤ maxBucket) :
    encodePadded E random payload = .ok (padded random (payload.cbor E)) := by
  have hmax : maxBucket < usizeSize := by decide
  have hbucket := (bucketOf_le_iff _).2 h
  have hadd : checkedAdd (payload.cbor E).length 4 = some ((payload.cbor E).length + 4) :=
    if_pos (lt_of_le_of_lt h hmax)
  have hpower : checkedNextPowerOfTwo (max ((payload.cbor E).length + 4) minBucket) =
      some (bucketOf ((payload.cbor E).length + 4)) :=
    if_pos (lt_of_le_of_lt hbucket hmax)
  have hlength : (payload.cbor E).length % u32Size = (payload.cbor E).length :=
    Nat.mod_eq_of_lt (lt_of_lt_of_le (Nat.lt_add_of_pos_right (by decide)) (le_trans h (by decide)))
  have houtput : (beBytes 4 (payload.cbor E).length ++ payload.cbor E).length =
      (payload.cbor E).length + 4 := by
    rw [List.length_append, length_beBytes, Nat.add_comm]
  simp only [encodePadded, bind_eq_ok, okOr_eq_ok, ensure_eq_ok, exists_unit, pure_eq_ok]
  exact ⟨_, hadd, _, hpower, hbucket, by rw [hlength, houtput]; rfl⟩

/-- One that is too long is not. -/
theorem encodePadded_of_lt (random : ℕ → Byte) {payload : ApplicationPayload}
    (h : maxBucket < (payload.cbor E).length + 4) :
    ∃ e, encodePadded E random payload = .error e := by
  cases hencode : encodePadded E random payload with
  | error e => exact ⟨e, rfl⟩
  | ok output =>
    simp only [encodePadded, bind_eq_ok, okOr_eq_ok, ensure_eq_ok, exists_unit] at hencode
    obtain ⟨required, hadd, bucket, hpower, hbucket, -⟩ := hencode
    unfold checkedAdd at hadd
    split at hadd
    · obtain rfl := Option.some.inj hadd
      unfold checkedNextPowerOfTwo at hpower
      split at hpower
      · obtain rfl := Option.some.inj hpower
        exact absurd ((bucketOf_le_iff _).1 hbucket) (Nat.not_le.2 h)
      · cases hpower
    · cases hadd

/-- What is sent, and when. -/
theorem encodePadded_eq_ok {random : ℕ → Byte} {payload : ApplicationPayload} {output : Bytes} :
    encodePadded E random payload = .ok output ↔
      (payload.cbor E).length + 4 ≤ maxBucket ∧ padded random (payload.cbor E) = output := by
  constructor
  · intro hok
    have hle : (payload.cbor E).length + 4 ≤ maxBucket := by
      refine Nat.not_lt.1 fun hlt ↦ ?_
      obtain ⟨e, he⟩ := encodePadded_of_lt random hlt
      cases he.symm.trans hok
    exact ⟨hle, Except.ok.inj ((encodePadded_of_le random hle).symm.trans hok)⟩
  · rintro ⟨hle, rfl⟩
    exact encodePadded_of_le random hle

/-! ### What is decoded -/

/-- The part of an input that its length announces. -/
def segment (input : Bytes) : Bytes := (input.drop 4).take (ofBe (input.take 4))

/-- The input is a bucket, and announces a segment in it. -/
def Framed (input : Bytes) : Prop :=
  (minBucket ≤ input.length ∧ input.length ≤ maxBucket ∧ IsPowerOfTwo input.length) ∧
    ofBe (input.take 4) ≠ 0 ∧ ofBe (input.take 4) ≤ input.length - 4

/-- Nothing is read but the segment, and only of a framed input. -/
theorem decodePadded_cases (input : Bytes) :
    (¬Framed input ∧ ∃ e, decodePadded D input = .error (.rejected e)) ∨
      Framed input ∧ decodePadded D input =
        ((readPayload D (segment input)).mapError .rejected >>= fun p ↦
          accept (p.2 = []) ⟨"trailing canonical CBOR data"⟩ >>= fun _ ↦ pure p.1) := by
  by_cases hbucket : minBucket ≤ input.length ∧ input.length ≤ maxBucket ∧
      IsPowerOfTwo input.length
  · have hfour : 4 ≤ input.length := le_trans (by decide) hbucket.1
    have hunfold : decodePadded D input = (accept (ofBe (input.take 4) ≠ 0 ∧
        ofBe (input.take 4) ≤ input.length - 4) ⟨"invalid application payload length"⟩ >>= fun _ ↦
          slice input 4 (4 + ofBe (input.take 4)) >>= fun encoded ↦
          (readPayload D encoded).mapError .rejected >>= fun p ↦
          accept (p.2 = []) ⟨"trailing canonical CBOR data"⟩ >>= fun _ ↦ pure p.1) := by
      rw [decodePadded, accept, ensure, if_pos hbucket, slice_of_le (Nat.zero_le 4) hfour,
        minus_of_le hfour, List.drop_zero]
      rfl
    by_cases hlength : ofBe (input.take 4) ≠ 0 ∧ ofBe (input.take 4) ≤ input.length - 4
    · refine .inr ⟨⟨hbucket, hlength⟩, ?_⟩
      have hend : 4 + ofBe (input.take 4) ≤ input.length := by omega
      have hsegment : (input.take (4 + ofBe (input.take 4))).drop 4 = segment input := by
        rw [List.drop_take, Nat.add_sub_cancel_left, segment]
      rw [hunfold, accept, ensure, if_pos hlength, slice_of_le (Nat.le_add_right 4 _) hend,
        hsegment]
      rfl
    · refine .inl ⟨fun h ↦ hlength h.2, ⟨"invalid application payload length"⟩, ?_⟩
      rw [hunfold, accept, ensure, if_neg hlength]
      rfl
  · refine .inl ⟨fun h ↦ hbucket h.1, ⟨"invalid application payload bucket"⟩, ?_⟩
    rw [decodePadded, accept, ensure, if_neg hbucket]
    rfl

/-- **What is decoded** from an input: the payload whose tokens its segment spells. -/
theorem decodePadded_eq_ok (hD : D.Conforms) {input : Bytes} {payload : ApplicationPayload} :
    decodePadded D input = .ok payload ↔ Framed input ∧ Spells payload.tokens (segment input) := by
  rcases decodePadded_cases (D := D) input with ⟨hnot, e, he⟩ | ⟨hframed, hdecode⟩
  · rw [he]
    exact iff_of_false nofun fun h ↦ hnot h.1
  · simp only [hdecode, and_iff_right hframed, accept, bind_eq_ok, mapError_eq_ok, ensure_eq_ok,
      exists_unit, pure_eq_ok, Prod.exists]
    constructor
    · rintro ⟨payload', rest, hread, rfl, rfl⟩
      obtain ⟨_, bs, rfl, hbs, hsegment⟩ := (accepts_readPayload hD _ _ _).1 hread
      rwa [hsegment, List.append_nil]
    · intro h
      refine ⟨payload, [], (accepts_readPayload hD _ _ _).2 ⟨_, _, rfl, h, ?_⟩, rfl, rfl⟩
      rw [List.append_nil]

theorem decodePadded_ne_outOfRange (input : Bytes) : decodePadded D input ≠ .error .outOfRange := by
  rcases decodePadded_cases (D := D) input with ⟨-, e, he⟩ | ⟨-, hdecode⟩
  · rw [he]
    intro h
    cases h
  · rw [hdecode]
    cases readPayload D (segment input) with
    | error e =>
      intro h
      cases h
    | ok p =>
      by_cases hrest : p.2 = []
      · show (ensure _ _ >>= _) ≠ _
        rw [ensure, if_pos hrest]
        intro h
        cases h
      · show (ensure _ _ >>= _) ≠ _
        rw [ensure, if_neg hrest]
        intro h
        cases h

/-! ### The round trip -/

theorem length_le_metadataTokens (es : List (Fin 65536 × Bytes)) :
    es.length ≤ (metadataTokens es).length := by
  induction es with
  | nil => exact Nat.le_refl _
  | cons e es ih =>
    rw [metadataTokens, List.flatMap_cons, List.length_append, List.length_cons, List.length_cons]
    exact Nat.le_trans (Nat.succ_le_succ ih) (by rw [metadataTokens]; omega)

/-- All numbers of an encoding have room in a head. -/
theorem number_lt_of_mem_tokens {payload : ApplicationPayload} {m : ℕ}
    (h : (write payload.tokens).length < m) (hm : 65536 ≤ m) {t : Token} (ht : t ∈ payload.tokens) :
    t.number < m := by
  have hcount : payload.metadata.entries.length ≤ (write payload.tokens).length := by
    refine le_trans (length_le_metadataTokens _) (le_trans ?_ (length_le_write payload.tokens))
    rw [tokens, List.length_append]
    exact Nat.le_add_left _ _
  have hkind := payload.kind.toU8.isLt
  have hmem := ht
  rw [tokens, List.mem_append] at hmem
  rcases hmem with hmem | hmem
  · simp only [List.mem_cons, List.not_mem_nil, or_false] at hmem
    rcases hmem with rfl | rfl | rfl | rfl | rfl | rfl | rfl
    · exact lt_of_lt_of_le (by decide) hm
    · exact lt_of_lt_of_le (by decide) hm
    · exact lt_of_lt_of_le (lt_trans hkind (by decide)) hm
    · exact lt_of_lt_of_le (by decide) hm
    · exact lt_of_le_of_lt (content_le_write ht) h
    · exact lt_of_lt_of_le (by decide) hm
    · exact lt_of_le_of_lt hcount h
  · obtain ⟨e, -, he⟩ := List.mem_flatMap.1 hmem
    simp only [List.mem_cons, List.not_mem_nil, or_false] at he
    rcases he with rfl | rfl
    · exact lt_of_lt_of_le e.1.isLt hm
    · exact lt_of_le_of_lt (content_le_write ht) h

theorem segment_padded (random : ℕ → Byte) {encoded : Bytes} (h : encoded.length < u32Size) :
    segment (padded random encoded) = encoded := by
  have hfront : (beBytes 4 encoded.length).length = 4 := length_beBytes 4 _
  rw [segment, padded, List.append_assoc, List.drop_left' hfront, List.take_left' hfront,
    ofBe_beBytes (fits_four.2 h), List.take_left]

/-- What is sent is decoded to the payload that was sent. -/
theorem decodePadded_padded (hE : E.Conforms) (hD : D.Conforms) (random : ℕ → Byte)
    {payload : ApplicationPayload} (h : (payload.cbor E).length + 4 ≤ maxBucket) :
    decodePadded D (padded random (payload.cbor E)) = .ok payload := by
  have hmax : maxBucket < u32Size := by decide
  have hlt : (payload.cbor E).length < u32Size := by omega
  have hroom := (isLeast_bucketOf ((payload.cbor E).length + 4)).1.2
  have hprefix : (padded random (payload.cbor E)).take 4 = beBytes 4 (payload.cbor E).length := by
    rw [padded, List.append_assoc, List.take_left' (length_beBytes 4 _)]
  have hspells : Spells payload.tokens (payload.cbor E) := by
    rw [cbor_eq hE] at hlt ⊢
    refine spells_write fun t ht ↦ ?_
    exact lt_trans (number_lt_of_mem_tokens hlt (by decide) ht) (by decide)
  have hpos : (payload.cbor E).length ≠ 0 := by
    rw [cbor_eq hE]
    exact Nat.ne_of_gt (lt_of_lt_of_le (Nat.succ_pos _) (length_le_write payload.tokens))
  rw [decodePadded_eq_ok hD, segment_padded random hlt, Framed, length_padded, hprefix,
    ofBe_beBytes (fits_four.2 hlt)]
  exact ⟨⟨⟨hroom.1, (bucketOf_le_iff _).2 h, isPowerOfTwo_bucketOf _⟩, hpos, by omega⟩, hspells⟩

end ApplicationPayload

open ApplicationPayload in
/-- **The round trip.** What is sent has the smallest length that hides the encoding, and is decoded
to the payload; only what is longer than a MiB is not sent; and nothing is read out of range. -/
theorem encodePadded_decodePadded {E : Encoder} {D : Decoder String} (hE : E.Conforms)
    (hD : D.Conforms) :
    (∀ (random : ℕ → Byte) (payload : ApplicationPayload) (output : Bytes),
      encodePadded E random payload = .ok output →
        IsLeast {n | (∃ k, n = 2 ^ k) ∧ minBucket ≤ n ∧ (payload.cbor E).length + 4 ≤ n}
          output.length ∧
        output.length ≤ maxBucket ∧ decodePadded D output = .ok payload) ∧
    (∀ (random : ℕ → Byte) (payload : ApplicationPayload),
      (∃ e, encodePadded E random payload = .error e) ↔
        maxBucket < (payload.cbor E).length + 4) ∧
    ∀ input, decodePadded D input ≠ .error .outOfRange := by
  refine ⟨fun random payload output hok ↦ ?_, fun random payload ↦ ⟨?_, encodePadded_of_lt random⟩,
    decodePadded_ne_outOfRange⟩
  · obtain ⟨hle, rfl⟩ := encodePadded_eq_ok.1 hok
    rw [length_padded]
    exact ⟨isLeast_bucketOf _, (bucketOf_le_iff _).2 hle, decodePadded_padded hE hD random hle⟩
  · rintro ⟨e, he⟩
    refine Nat.not_le.1 fun hle ↦ ?_
    cases he.symm.trans (encodePadded_of_le random hle)

namespace ApplicationPayload

/-- A short text without metadata. -/
def greeting : ApplicationPayload := ⟨.text, [104, 105], OrderedMap.empty⟩

theorem length_cbor_greeting : (greeting.cbor plainEncoder).length + 4 ≤ maxBucket := by decide

end ApplicationPayload

open ApplicationPayload in
/-- A short text goes through. -/
theorem encodePadded_decodePadded_greeting :
    ∃ output, encodePadded plainEncoder (fun _ ↦ 0) greeting = .ok output ∧
      output.length ≤ maxBucket ∧ decodePadded plainDecoder output = .ok greeting := by
  have hok := encodePadded_of_le (fun _ ↦ 0) length_cbor_greeting
  have hlaws := encodePadded_decodePadded plainEncoder_conforms plainDecoder_conforms
  exact ⟨_, hok, (hlaws.1 _ _ _ hok).2⟩

/-! ### Which spellings are accepted -/

namespace ApplicationPayload

/-- What is sent for the payload, whatever it is filled up with, has the segment of the input. -/
def Reencodes (E : Encoder) (payload : ApplicationPayload) (input : Bytes) : Prop :=
  ∀ random, ∃ output, encodePadded E random payload = .ok output ∧ segment output = segment input

theorem length_segment_le {input : Bytes} (h : Framed input) :
    (segment input).length + 4 ≤ maxBucket := by
  have hmin : 4 ≤ minBucket := by decide
  have hlength := List.length_take_le (ofBe (input.take 4)) (input.drop 4)
  have hroom := h.2.2
  have hbucket := h.1
  rw [segment]
  omega

/-- The segment of what is sent is the encoding. -/
theorem segment_of_encodePadded {E : Encoder} {payload : ApplicationPayload} {random : ℕ → Byte}
    {output : Bytes} (h : encodePadded E random payload = .ok output) :
    segment output = payload.cbor E := by
  have hmax : maxBucket < u32Size := by decide
  have hle : (payload.cbor E).length + 4 ≤ maxBucket := by
    refine Nat.not_lt.1 fun hlt ↦ ?_
    obtain ⟨e, he⟩ := encodePadded_of_lt random hlt
    cases he.symm.trans h
  obtain rfl := Except.ok.inj ((encodePadded_of_le random hle).symm.trans h)
  exact segment_padded random (by omega)

end ApplicationPayload

open ApplicationPayload in
/-- **An accepted input is canonical** exactly if its heads are as short as they can be. -/
theorem reencodes_iff {E : Encoder} {D : Decoder String} (hE : E.Conforms) (hD : D.Conforms)
    {input : Bytes} {payload : ApplicationPayload} (h : decodePadded D input = .ok payload) :
    payload.Reencodes E input ↔ ShortHeads (segment input) := by
  obtain ⟨hframed, hspells⟩ := (decodePadded_eq_ok hD).1 h
  have hlength := length_segment_le hframed
  constructor
  · intro hcanonical
    obtain ⟨output, hencode, hsegment⟩ := hcanonical fun _ ↦ 0
    rw [segment_of_encodePadded hencode, cbor_eq hE] at hsegment
    refine ⟨payload.tokens, fun t ht ↦ ?_, hsegment.symm⟩
    have hlt : (write payload.tokens).length < maxBucket := by
      rw [hsegment]
      omega
    exact lt_trans (number_lt_of_mem_tokens hlt (by decide) ht) (by decide)
  · intro hshort random
    have hcbor : payload.cbor E = segment input := by
      rw [cbor_eq hE, ← hspells.eq_write hshort]
    have hencode := encodePadded_of_le (E := E) random (hcbor ▸ hlength)
    exact ⟨_, hencode, (segment_of_encodePadded hencode).trans hcbor⟩

namespace ApplicationPayload

/-- An empty text. -/
def blank : ApplicationPayload := ⟨.text, [], OrderedMap.empty⟩

/-- Its encoding, with the first key in a head of the given width. -/
def blankEncoded (w : Width) : Bytes :=
  head 5 .inline 3 ++ (head 0 w 0 ++ (head 0 .inline 1 ++ (head 0 .inline 1 ++
    (head 2 .inline 0 ++ (head 0 .inline 2 ++ head 5 .inline 0)))))

def blankInput (w : Width) : Bytes :=
  beBytes 4 (blankEncoded w).length ++ blankEncoded w ++
    List.replicate (252 - (blankEncoded w).length) 0

theorem segment_blankInput (w : Width) : segment (blankInput w) = blankEncoded w := by
  cases w <;> rfl

theorem length_blankInput (w : Width) : (blankInput w).length = 256 := by
  have hle : (blankEncoded w).length ≤ 252 := by cases w <;> decide
  rw [blankInput, List.length_append, List.length_append, length_beBytes, List.length_replicate]
  omega

theorem framed_blankInput (w : Width) : Framed (blankInput w) := by
  rw [Framed, length_blankInput]
  refine ⟨⟨by decide, by decide, by decide⟩, ?_⟩
  cases w <;> exact ⟨by decide, by decide⟩

theorem spells_blankEncoded (w : Width) : Spells blank.tokens (blankEncoded w) := by
  have hbound : 0 < w.bound := by cases w <;> decide
  exact ⟨_, _, ⟨.inline, by decide, rfl⟩, ⟨_, _, ⟨w, hbound, rfl⟩, ⟨_, _, ⟨.inline, by decide, rfl⟩,
    ⟨_, _, ⟨.inline, by decide, rfl⟩, ⟨_, _, ⟨.inline, by decide, rfl⟩, ⟨_, _,
    ⟨.inline, by decide, rfl⟩, ⟨_, _, ⟨.inline, by decide, rfl⟩, rfl, rfl⟩, rfl⟩, rfl⟩, rfl⟩, rfl⟩,
    rfl⟩, rfl⟩

theorem decodePadded_blankInput (w : Width) :
    decodePadded plainDecoder (blankInput w) = .ok blank := by
  rw [decodePadded_eq_ok plainDecoder_conforms, segment_blankInput]
  exact ⟨framed_blankInput w, spells_blankEncoded w⟩

end ApplicationPayload

open ApplicationPayload in
/-- With its first key in one byte an empty text is sent again as it was. -/
theorem reencodes_iff_blank : blank.Reencodes plainEncoder (blankInput .inline) := by
  refine (reencodes_iff plainEncoder_conforms plainDecoder_conforms
    (decodePadded_blankInput .inline)).2 ?_
  rw [segment_blankInput]
  exact ⟨blank.tokens, by decide, by decide⟩

open ApplicationPayload in
/-- With its first key in two bytes it is accepted too, and is sent in another spelling. -/
theorem not_reencodes_blank :
    plainEncoder.Conforms ∧ plainDecoder.Conforms ∧
      decodePadded plainDecoder (blankInput .one) = .ok blank ∧
      ¬blank.Reencodes plainEncoder (blankInput .one) := by
  refine ⟨plainEncoder_conforms, plainDecoder_conforms, decodePadded_blankInput .one, fun h ↦ ?_⟩
  obtain ⟨output, hencode, hsegment⟩ := h fun _ ↦ 0
  rw [segment_of_encodePadded hencode, segment_blankInput] at hsegment
  revert hsegment
  decide

end VoceChat
