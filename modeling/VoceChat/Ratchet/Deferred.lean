import VoceChat.Foundations.JsonCode
import VoceChat.Foundations.JsonOrder
import VoceChat.Foundations.PaddedBase64
import VoceChat.Foundations.Utf8
import VoceChat.Ratchet.X3dh

/-!
# Deferred envelopes (`voce-e2ee-core/src/deferred.rs`)

A message for devices that are not known yet is encrypted once, with a key of its own
(`deferredEncrypt`), and bound to its metadata: the hash of their JSON is the associated data. The
key is wrapped for each device as it appears (`deferredWrapKey`), under a key that X3DH agrees on
with the bundle of the device and a throwaway identity.

The cryptography is ideal here (`DeferredPrimitives.Ideal`): the AEAD opens what was sealed with a
key, nonce and associated data, and nothing else. What was sealed is the log of a history of the two
operations in which no key is drawn twice (`Made`). In every history, what was encrypted and wrapped
opens for those that it is for, and for nobody else or after any change (`deferredLaws`).
-/

namespace VoceChat

open Guards Json Json.Value Machine

def deferredAlg : String := "DEFERRED+AES-GCM"

def wrapKdfInfo : String := "VoceChat_Deferred_WrapKey_v2"

def wrapAad : Bytes := Utf8.toUtf8 "VoceChat_Deferred_WrapAad_v2"

/-- The functions that deferred envelopes call, beside those of X3DH. A digest is bytes of any
length here, so that a hash without collisions exists. -/
structure DeferredPrimitives (Secret Pub Key VerifyingKey Signature : Type) extends
    X3dhPrimitives Secret Pub Key VerifyingKey Signature where
  /-- The 32 bytes of a key. -/
  bytesOfKey : Key → Bytes
  /-- `Aes256Gcm::new_from_slice`, of 32 bytes. -/
  keyOfBytes : Bytes → Key
  /-- `serde_json::to_vec`, of a value with its objects in ordered maps. -/
  toVec : Value → Bytes
  /-- `Sha256::digest`. -/
  sha256 : Bytes → Bytes
  /-- `Aes256Gcm::encrypt`: key, nonce, message, associated data. -/
  aesEncrypt : Key → Bytes → Bytes → Bytes → Option Bytes
  /-- `Aes256Gcm::decrypt`: key, nonce, ciphertext, associated data. -/
  aesDecrypt : Key → Bytes → Bytes → Bytes → Option Bytes

namespace DeferredPrimitives

structure DeferredEncrypted where
  contentKey : FixedBytes 32
  nonce : FixedBytes 12
  ciphertext : Bytes
  sha256 : Bytes

structure DeferredEnvelope where
  alg : String
  x3dhInitial : X3dhInitialMessage
  nonceB64 : String
  wrappedKeyB64 : String

structure DeferredLocalIdentity (Secret : Type) where
  ikSecret : Secret
  spkSecret : Secret
  otkSecret : Option Secret

variable {Secret Pub Key VerifyingKey Signature : Type}

section

variable (C : DeferredPrimitives Secret Pub Key VerifyingKey Signature)

def canonicalMetadataBytes (metadata : Value) : Bytes := C.toVec metadata.sorted

def deferredMetadataCommitment (metadata : Value) : Bytes :=
  C.sha256 (C.canonicalMetadataBytes metadata)

/-- `decode_fixed`. -/
def decodeFixed (b64 : String) (len : ℕ) (what : String) : Except E2eError Bytes := do
  let bytes ← (C.decodeB64 b64).mapError fun e ↦ .invalidEnvelope (what ++ ": " ++ e)
  ensure (bytes.length = len) (.invalidEnvelope
    (what ++ " must be " ++ toString len ++ " bytes, got " ++ toString bytes.length))
  return bytes

/-- `deferred_encrypt`, with the key and the nonce that are drawn. -/
def deferredEncrypt (contentKey : FixedBytes 32) (nonce : FixedBytes 12) (body : Bytes)
    (metadata : Value) : Except E2eError DeferredEncrypted := do
  let sha256 := C.deferredMetadataCommitment metadata
  let ciphertext ← okOr (C.aesEncrypt (C.keyOfBytes contentKey) nonce body sha256) .encryptFailed
  return { contentKey, nonce, ciphertext, sha256 }

def deferredDecrypt (ciphertext : Bytes) (key : FixedBytes 32) (nonce : FixedBytes 12)
    (sha256 : Bytes) : Except E2eError Bytes :=
  okOr (C.aesDecrypt (C.keyOfBytes key) nonce ciphertext sha256) .decryptFailed

/-- The public half of `IdentitySecret::generate`, for the secret and the signature key drawn. -/
def generatePublic (x25519 : Secret) (identitySigPubB64 : String) : IdentityPublic :=
  ⟨C.encodeB64 (C.asBytes (C.publicKey x25519)), identitySigPubB64⟩

/-- The key that wraps, of a shared secret. -/
def wrapKey (sharedSecret : Key) : Except E2eError Key :=
  C.hkdfSha256 (C.bytesOfKey sharedSecret) [] wrapKdfInfo 32

/-- `deferred_wrap_key`, with the throwaway identity, the ephemeral secret and the nonce drawn. -/
def deferredWrapKey (throwaway : Secret) (identitySigPubB64 : String) (eka : Secret)
    (nonce : FixedBytes 12) (contentKey : FixedBytes 32) (recipientBundle : PreKeyBundle) :
    Except E2eError DeferredEnvelope := do
  let (sharedSecret, x3dhInitial, _) ← C.x3dhInitiator throwaway
    (C.generatePublic throwaway identitySigPubB64) recipientBundle eka
  let wrapKey ← C.wrapKey sharedSecret
  let wrapped ← okOr (C.aesEncrypt wrapKey nonce contentKey wrapAad) .encryptFailed
  return { alg := deferredAlg, x3dhInitial, nonceB64 := C.encodeB64 nonce,
           wrappedKeyB64 := C.encodeB64 wrapped }

def deferredUnwrapKey (envelope : DeferredEnvelope)
    (localIdentity : DeferredLocalIdentity Secret) : Except E2eError (FixedBytes 32) := do
  ensure (envelope.alg = deferredAlg) (.invalidEnvelope ("unexpected alg: " ++ envelope.alg))
  let sharedSecret ← C.x3dhResponder localIdentity.ikSecret localIdentity.spkSecret
    localIdentity.otkSecret envelope.x3dhInitial
  let wrapKey ← C.wrapKey sharedSecret
  let nonce ← C.decodeFixed envelope.nonceB64 12 "nonce_b64"
  let wrapped ← (C.decodeB64 envelope.wrappedKeyB64).mapError fun e ↦
    .invalidEnvelope ("wrapped_key_b64: " ++ e)
  let opened ← okOr (C.aesDecrypt wrapKey nonce wrapped wrapAad) .decryptFailed
  if h : opened.length = 32 then return ⟨opened, h⟩
  else throw (.invalidKey "unwrapped content key length")

end

/-! ### Histories -/

/-- What the AEAD was asked to seal. -/
structure Sealing (Key : Type) where
  key : Key
  nonce : Bytes
  message : Bytes
  aad : Bytes
  deriving DecidableEq

/-- A call of `deferred_encrypt`. -/
structure Encryption where
  body : Bytes
  metadata : Value
  result : DeferredEncrypted

/-- A call of `deferred_wrap_key`. -/
structure Wrapping where
  contentKey : FixedBytes 32
  recipientBundle : PreKeyBundle
  result : DeferredEnvelope

/-- The histories of the two operations, with all that they sealed. Metadata have no key twice, as
their library promises, and no key of the AEAD comes up twice. -/
inductive Made (C : DeferredPrimitives Secret Pub Key VerifyingKey Signature) :
    List (Sealing Key) → List Encryption → List Wrapping → Prop
  | start : Made C [] [] []
  | encrypt {log es ws contentKey nonce body metadata result} (h : Made C log es ws)
      (hmetadata : metadata.WellFormed)
      (hok : C.deferredEncrypt contentKey nonce body metadata = .ok result)
      (hfresh : C.keyOfBytes contentKey ∉ log.map Sealing.key) :
      Made C (⟨C.keyOfBytes contentKey, nonce, body, result.sha256⟩ :: log)
        (⟨body, metadata, result⟩ :: es) ws
  | wrap {log es ws throwaway identitySigPubB64 eka nonce contentKey recipientBundle result
      sharedSecret initial key} (h : Made C log es ws)
      (hshared : C.x3dhInitiator throwaway (C.generatePublic throwaway identitySigPubB64)
        recipientBundle eka = .ok (sharedSecret, initial, eka))
      (hkey : C.wrapKey sharedSecret = .ok key)
      (hok : C.deferredWrapKey throwaway identitySigPubB64 eka nonce contentKey recipientBundle =
        .ok result)
      (hfresh : key ∉ log.map Sealing.key) :
      Made C (⟨key, nonce, contentKey, wrapAad⟩ :: log) es
        (⟨contentKey, recipientBundle, result⟩ :: ws)

/-- What is relied on, where `log` was sealed: base64 has one text for bytes, a public key is its
bytes, printing, hashing and deriving keys have no collisions, a ciphertext tells what was sealed in
it, and what is opened was sealed. -/
structure Ideal (C : DeferredPrimitives Secret Pub Key VerifyingKey Signature)
    (log : List (Sealing Key)) : Prop where
  x3dh : C.toX3dhPrimitives.Ideal
  encode_decode : ∀ text bytes, C.decodeB64 text = .ok bytes → C.encodeB64 bytes = text
  asBytes_pubOfBytes : ∀ bytes, bytes.length = 32 → C.asBytes (C.pubOfBytes bytes) = bytes
  toVec_inj : ∀ v w, C.toVec v = C.toVec w → v = w
  sha256_inj : ∀ bytes bytes', C.sha256 bytes = C.sha256 bytes' → bytes = bytes'
  wrapKey_inj : ∀ secret secret', C.wrapKey secret = C.wrapKey secret' → secret = secret'
  encrypt_inj : ∀ s s' : Sealing Key, ∀ ciphertext,
    C.aesEncrypt s.key s.nonce s.message s.aad = some ciphertext →
      C.aesEncrypt s'.key s'.nonce s'.message s'.aad = some ciphertext → s = s'
  decrypt : ∀ key nonce ciphertext aad message,
    C.aesDecrypt key nonce ciphertext aad = some message ↔
      ⟨key, nonce, message, aad⟩ ∈ log ∧ C.aesEncrypt key nonce message aad = some ciphertext

/-! ### What opens -/

/-- What `deferred_decrypt` does to what was encrypted. -/
structure Decrypts (C : DeferredPrimitives Secret Pub Key VerifyingKey Signature)
    (e : Encryption) : Prop where
  /-- The body is returned, with the commitment to equal metadata. -/
  same : ∀ metadata, Reordered e.metadata metadata →
    C.deferredDecrypt e.result.ciphertext e.result.contentKey e.result.nonce
      (C.deferredMetadataCommitment metadata) = .ok e.body
  /-- It is not, once the ciphertext, the nonce or the metadata are changed. -/
  changed : ∀ ciphertext nonce metadata, metadata.WellFormed →
    ciphertext ≠ e.result.ciphertext ∨ nonce ≠ e.result.nonce ∨ ¬Reordered e.metadata metadata →
      ∃ error, C.deferredDecrypt ciphertext e.result.contentKey nonce
        (C.deferredMetadataCommitment metadata) = .error error

/-- The secrets of the identity belong to the bundle. -/
def Matches (C : DeferredPrimitives Secret Pub Key VerifyingKey Signature) (bundle : PreKeyBundle)
    (localIdentity : DeferredLocalIdentity Secret) : Prop :=
  C.MatchedBy bundle localIdentity.ikSecret localIdentity.spkSecret localIdentity.otkSecret

/-- The envelope was changed: in its nonce or a public key, or in its nonce or the wrapped key. -/
def Tampered (envelope changed : DeferredEnvelope) : Prop :=
  changed.wrappedKeyB64 = envelope.wrappedKeyB64 ∧
      (changed.nonceB64 ≠ envelope.nonceB64 ∨
        changed.x3dhInitial.ephemeralPubB64 ≠ envelope.x3dhInitial.ephemeralPubB64 ∨
        changed.x3dhInitial.identityDhPubB64 ≠ envelope.x3dhInitial.identityDhPubB64) ∨
    changed.x3dhInitial = envelope.x3dhInitial ∧
      (changed.nonceB64 ≠ envelope.nonceB64 ∨ changed.wrappedKeyB64 ≠ envelope.wrappedKeyB64)

/-- What `deferred_unwrap_key` does to what was wrapped. -/
structure Unwraps (C : DeferredPrimitives Secret Pub Key VerifyingKey Signature)
    (w : Wrapping) : Prop where
  /-- The identities that the bundle is of get the key. -/
  matched : ∀ localIdentity, C.Matches w.recipientBundle localIdentity →
    C.deferredUnwrapKey w.result localIdentity = .ok w.contentKey
  /-- All others get none. -/
  unmatched : ∀ localIdentity, ¬C.Matches w.recipientBundle localIdentity →
    ∃ error, C.deferredUnwrapKey w.result localIdentity = .error error
  /-- Nor do those that it is for, once it is changed. -/
  changed : ∀ envelope localIdentity, C.Matches w.recipientBundle localIdentity →
    Tampered w.result envelope → ∃ error, C.deferredUnwrapKey envelope localIdentity = .error error

section

variable {C : DeferredPrimitives Secret Pub Key VerifyingKey Signature} {log : List (Sealing Key)}
  {es : List Encryption} {ws : List Wrapping}

/-! ### What a history keeps -/

theorem Made.nodup (h : Made C log es ws) : (log.map Sealing.key).Nodup := by
  induction h with
  | start => exact List.nodup_nil
  | encrypt _ _ _ hfresh ih => exact List.nodup_cons.2 ⟨hfresh, ih⟩
  | wrap _ _ _ _ hfresh ih => exact List.nodup_cons.2 ⟨hfresh, ih⟩

/-- With one key one thing was sealed. -/
theorem Made.eq_of_key_eq (h : Made C log es ws) {s s' : Sealing Key} (hs : s ∈ log)
    (hs' : s' ∈ log)
    (hkey : s.key = s'.key) : s = s' :=
  List.inj_on_of_nodup_map h.nodup hs hs' hkey

theorem deferredEncrypt_eq_ok {contentKey : FixedBytes 32} {nonce : FixedBytes 12} {body : Bytes}
    {metadata : Value} {result : DeferredEncrypted} :
    C.deferredEncrypt contentKey nonce body metadata = .ok result ↔
      C.aesEncrypt (C.keyOfBytes contentKey) nonce body (C.deferredMetadataCommitment metadata) =
          some result.ciphertext ∧
        result = ⟨contentKey, nonce, result.ciphertext, C.deferredMetadataCommitment metadata⟩ := by
  simp only [deferredEncrypt, bind_eq_ok, okOr_eq_ok, pure_eq_ok]
  constructor
  · rintro ⟨ciphertext, hseal, rfl⟩
    exact ⟨hseal, rfl⟩
  · rintro ⟨hseal, heq⟩
    exact ⟨_, hseal, heq.symm⟩

/-- What was encrypted was sealed with its key, bound to its metadata. -/
theorem Made.encryption (h : Made C log es ws) {e : Encryption} (he : e ∈ es) :
    ⟨C.keyOfBytes e.result.contentKey, e.result.nonce, e.body, e.result.sha256⟩ ∈ log ∧
      C.aesEncrypt (C.keyOfBytes e.result.contentKey) e.result.nonce e.body e.result.sha256 =
        some e.result.ciphertext ∧
      e.result.sha256 = C.deferredMetadataCommitment e.metadata ∧ e.metadata.WellFormed := by
  induction h with
  | start => cases he
  | encrypt _ hmetadata hok _ ih =>
    rcases List.mem_cons.1 he with rfl | he
    · obtain ⟨hseal, heq⟩ := deferredEncrypt_eq_ok.1 hok
      generalize hciphertext : DeferredEncrypted.ciphertext _ = ciphertext at hseal heq
      subst heq
      exact ⟨List.mem_cons_self, hseal, rfl, hmetadata⟩
    · obtain ⟨hmem, hrest⟩ := ih he
      exact ⟨List.mem_cons_of_mem _ hmem, hrest⟩
  | wrap _ _ _ _ _ ih =>
    obtain ⟨hmem, hrest⟩ := ih he
    exact ⟨List.mem_cons_of_mem _ hmem, hrest⟩

/-- How a key was wrapped: with a key that X3DH agreed on, which nothing else was sealed with. -/
theorem Made.wrapping (h : Made C log es ws) {w : Wrapping} (hw : w ∈ ws) :
    ∃ throwaway identitySigPubB64 eka sharedSecret initial key,
    ∃ (nonce : FixedBytes 12) (wrapped : Bytes),
      C.x3dhInitiator throwaway
      (C.generatePublic throwaway identitySigPubB64) w.recipientBundle eka =
          .ok (sharedSecret, initial, eka) ∧
        C.wrapKey sharedSecret = .ok key ∧
        (⟨key, nonce, w.contentKey, wrapAad⟩ : Sealing Key) ∈ log ∧
        C.aesEncrypt key nonce w.contentKey wrapAad = some wrapped ∧
        w.result = ⟨deferredAlg, initial, C.encodeB64 nonce, C.encodeB64 wrapped⟩ := by
  induction h with
  | start => cases hw
  | encrypt _ _ _ _ ih =>
    obtain ⟨throwaway, sig, eka, secret, initial, key, nonce, wrapped, hshared, hkey, hmem,
      hrest⟩ :=
      ih hw
    exact ⟨throwaway, sig, eka, secret, initial, key, nonce, wrapped, hshared, hkey,
      List.mem_cons_of_mem _ hmem, hrest⟩
  | @wrap _ _ _ throwaway sig eka nonce contentKey bundle result secret initial key _ hshared
      hkey hok _
      ih =>
    rcases List.mem_cons.1 hw with rfl | hw
    · simp only [deferredWrapKey, hshared, bind_eq_ok, okOr_eq_ok, pure_eq_ok, Except.ok.injEq,
        exists_eq_left', hkey] at hok
      obtain ⟨wrapped, hseal, rfl⟩ := hok
      exact ⟨throwaway, sig, eka, secret, initial, key, nonce, wrapped, hshared, hkey,
        List.mem_cons_self, hseal, rfl⟩
    · obtain ⟨throwaway, sig, eka, secret, initial, key, nonce, wrapped, hshared, hkey, hmem,
        hrest⟩ :=
        ih hw
      exact ⟨throwaway, sig, eka, secret, initial, key, nonce, wrapped, hshared, hkey,
        List.mem_cons_of_mem _ hmem, hrest⟩

/-! ### The content -/

/-- **Metadata are committed to** up to the order of fields. -/
theorem Ideal.commitment_eq_iff (hC : C.Ideal log) {v w : Value} (hv : v.WellFormed)
    (hw : w.WellFormed) :
    C.deferredMetadataCommitment v = C.deferredMetadataCommitment w ↔ Reordered v w := by
  rw [← sorted_eq_iff hv hw]
  constructor
  · exact fun heq ↦ hC.toVec_inj _ _ (hC.sha256_inj _ _ heq)
  · exact fun heq ↦ congrArg (fun v ↦ C.sha256 (C.toVec v)) heq

theorem Made.decrypts (h : Made C log es ws) (hC : C.Ideal log) {e : Encryption} (he : e ∈ es) :
    C.Decrypts e := by
  obtain ⟨hmem, hseal, hsha, hmetadata⟩ := h.encryption he
  constructor
  case same =>
    intro metadata hsame
    have heq : C.deferredMetadataCommitment metadata = e.result.sha256 := by
      rw [hsha]
      exact ((hC.commitment_eq_iff hmetadata (hsame.sorted_eq hmetadata).1).2 hsame).symm
    rw [deferredDecrypt, okOr_eq_ok, heq, hC.decrypt]
    exact ⟨hmem, hseal⟩
  case changed =>
    intro ciphertext nonce metadata hwf hchanged
    refine exists_error fun body hok ↦ ?_
    rw [deferredDecrypt, okOr_eq_ok, hC.decrypt] at hok
    obtain ⟨hmem', hseal'⟩ := hok
    -- the key sealed one thing only, so that all of it must be the same
    have hsame := h.eq_of_key_eq hmem hmem' rfl
    obtain ⟨-, hnonce, hbody, haad⟩ := Sealing.mk.inj hsame
    rw [← hnonce, ← hbody, ← haad, hseal] at hseal'
    rcases hchanged with hne | hne | hne
    · exact hne (Option.some.inj hseal').symm
    · exact hne (Subtype.ext hnonce).symm
    · exact hne ((hC.commitment_eq_iff hmetadata hwf).1 (hsha.symm.trans haad))

/-! ### The key -/

/-- What a successful `deferred_unwrap_key` has read and opened. -/
theorem deferredUnwrapKey_eq_ok {envelope : DeferredEnvelope}
    {localIdentity : DeferredLocalIdentity Secret} {contentKey : FixedBytes 32} :
    C.deferredUnwrapKey envelope localIdentity = .ok contentKey ↔ envelope.alg = deferredAlg ∧
      ∃ secret key nonce wrapped, C.x3dhResponder localIdentity.ikSecret localIdentity.spkSecret
          localIdentity.otkSecret envelope.x3dhInitial = .ok secret ∧
        C.wrapKey secret = .ok key ∧
        (C.decodeB64 envelope.nonceB64 = .ok nonce ∧ nonce.length = 12) ∧
        C.decodeB64 envelope.wrappedKeyB64 = .ok wrapped ∧
        C.aesDecrypt key nonce wrapped wrapAad = some contentKey.val := by
  simp only [deferredUnwrapKey, decodeFixed, bind_eq_ok, ensure_eq_ok, exists_unit, mapError_eq_ok,
    okOr_eq_ok, pure_eq_ok]
  refine and_congr_right fun _ ↦ ?_
  constructor
  · rintro ⟨secret, hsecret, key, hkey, _, ⟨nonce, hnonce, hlength, rfl⟩, wrapped, hwrapped, opened,
      hopened, hcontent⟩
    split at hcontent
    · obtain rfl := Except.ok.inj hcontent
      exact ⟨secret, key, nonce, wrapped, hsecret, hkey, ⟨hnonce, hlength⟩, hwrapped, hopened⟩
    · cases hcontent
  · rintro ⟨secret, key, nonce, wrapped, hsecret, hkey, ⟨hnonce, hlength⟩, hwrapped, hopened⟩
    exact ⟨secret, hsecret, key, hkey, nonce, ⟨nonce, hnonce, hlength, rfl⟩, wrapped, hwrapped, _,
      hopened, dif_pos contentKey.property⟩

/-- A public key has one text. -/
theorem Ideal.eq_of_decodeX25519Pub (hC : C.Ideal log) {text : String} {p : Pub}
    (h : C.decodeX25519Pub text = .ok p) : text = C.encodeB64 (C.asBytes p) := by
  simp only [X3dhPrimitives.decodeX25519Pub, bind_eq_ok, mapError_eq_ok, ensure_eq_ok, exists_unit,
    pure_eq_ok] at h
  obtain ⟨bytes, hbytes, hlength, rfl⟩ := h
  rw [hC.asBytes_pubOfBytes bytes hlength, hC.encode_decode _ _ hbytes]

/-- A responder agrees on a secret with one pair of public keys only. -/
theorem Ideal.x3dhResponder_inj (hC : C.Ideal log) {ik spk : Secret} {otk : Option Secret}
    {msg msg' : X3dhInitialMessage} {secret : Key} (h : C.x3dhResponder ik spk otk msg = .ok secret)
    (h' : C.x3dhResponder ik spk otk msg' = .ok secret) :
    msg.identityDhPubB64 = msg'.identityDhPubB64 ∧ msg.ephemeralPubB64 = msg'.ephemeralPubB64 := by
  simp only [X3dhPrimitives.x3dhResponder, bind_eq_ok] at h h'
  obtain ⟨ika, hika, eka, heka, oneTime, -, hkdf⟩ := h
  obtain ⟨ika', hika', eka', heka', oneTime', -, hkdf'⟩ := h'
  have hconcat := hC.x3dh.kdf_inj _ _ (hkdf.trans hkdf'.symm)
  simp only [List.append_assoc] at hconcat
  have hlength : ∀ s p q, (C.diffieHellman s p).length = (C.diffieHellman s q).length :=
    fun s p q ↦ (hC.x3dh.length_diffieHellman s p).trans (hC.x3dh.length_diffieHellman s q).symm
  obtain ⟨hfirst, hrest⟩ := List.append_inj hconcat (hlength spk ika ika')
  obtain ⟨hsecond, -⟩ := List.append_inj hrest (hlength ik eka eka')
  rw [hC.eq_of_decodeX25519Pub hika, hC.eq_of_decodeX25519Pub hika',
    hC.eq_of_decodeX25519Pub heka, hC.eq_of_decodeX25519Pub heka',
    hC.x3dh.diffieHellman_inj _ _ _ hfirst, hC.x3dh.diffieHellman_inj _ _ _ hsecond]
  exact ⟨rfl, rfl⟩

/-- A wrapped key is opened with the secret and the nonce that it was sealed with. -/
theorem Ideal.secret_of_unwrap (hC : C.Ideal log) {envelope : DeferredEnvelope}
    {localIdentity : DeferredLocalIdentity Secret} {contentKey opened : FixedBytes 32}
    {secret key : Key}
    {nonce wrapped : Bytes} (hkey : C.wrapKey secret = .ok key)
    (hseal : C.aesEncrypt key nonce contentKey wrapAad = some wrapped)
    (hwrapped : envelope.wrappedKeyB64 = C.encodeB64 wrapped)
    (hok : C.deferredUnwrapKey envelope localIdentity = .ok opened) :
    C.x3dhResponder localIdentity.ikSecret localIdentity.spkSecret localIdentity.otkSecret
        envelope.x3dhInitial = .ok secret ∧
      envelope.nonceB64 = C.encodeB64 nonce := by
  obtain ⟨-, secret', key', nonce', wrapped', hsecret', hkey', ⟨hnonce', -⟩, hwrapped', hopened⟩ :=
    deferredUnwrapKey_eq_ok.1 hok
  obtain ⟨-, hseal'⟩ := (hC.decrypt _ _ _ _ _).1 hopened
  rw [hwrapped, hC.x3dh.decode_encode] at hwrapped'
  obtain rfl := Except.ok.inj hwrapped'
  have hsame := hC.encrypt_inj ⟨key, nonce, contentKey, wrapAad⟩ ⟨key', nonce', opened, wrapAad⟩ _
    hseal hseal'
  obtain ⟨rfl, rfl, -, -⟩ := Sealing.mk.inj hsame
  rw [hC.wrapKey_inj _ _ (hkey.trans hkey'.symm), hC.encode_decode _ _ hnonce']
  exact ⟨hsecret', rfl⟩

theorem Made.unwraps (h : Made C log es ws) (hC : C.Ideal log) {w : Wrapping} (hw : w ∈ ws)
    (hnamed : w.recipientBundle.oneTimePrekeyB64.isSome →
      w.recipientBundle.oneTimePrekeyId.isSome) :
    C.Unwraps w := by
  obtain ⟨throwaway, sig, eka, secret, initial, key, nonce, wrapped, hshared, hkey, hmem, hseal,
    hresult⟩ := h.wrapping hw
  have hagrees : C.Agrees w.recipientBundle secret initial := by
    obtain ⟨ikb, spkb, oneTime, hikb, hspkb, hone, hsecret, hik, hek, hused⟩ :=
      X3dhPrimitives.x3dhInitiator_eq_ok hshared
    have hika : C.decodeX25519Pub initial.identityDhPubB64 = .ok (C.publicKey throwaway) :=
      hik ▸ hC.x3dh.decodeX25519Pub_encode (C.publicKey throwaway)
    have heka : C.decodeX25519Pub initial.ephemeralPubB64 = .ok (C.publicKey eka) :=
      hek ▸ hC.x3dh.decodeX25519Pub_encode (C.publicKey eka)
    exact X3dhPrimitives.agrees_of_named hC.x3dh hikb hspkb hone hsecret hika heka hused hnamed
  constructor
  case matched =>
    intro localIdentity hmatches
    rw [deferredUnwrapKey_eq_ok, hresult]
    exact ⟨rfl, secret, key, nonce, wrapped, hagrees.same _ _ _ hmatches, hkey,
      ⟨hC.x3dh.decode_encode _, nonce.property⟩, hC.x3dh.decode_encode _,
      (hC.decrypt _ _ _ _ _).2 ⟨hmem, hseal⟩⟩
  case unmatched =>
    intro localIdentity hnot
    refine exists_error fun opened hok ↦ ?_
    have hsecret := (hC.secret_of_unwrap hkey hseal (congrArg _ hresult) hok).1
    rw [hresult] at hsecret
    -- who lacks the one-time secret is refused, and others agree on another secret
    by_cases hotk : w.recipientBundle.oneTimePrekeyB64.isSome → localIdentity.otkSecret.isSome
    · obtain ⟨secret', hsecret', hne⟩ := hagrees.different _ _ _ hnot hotk
      exact hne (Except.ok.inj (hsecret'.symm.trans hsecret))
    · obtain ⟨hkey, hotk⟩ := Classical.not_imp.1 hotk
      rw [Option.not_isSome_iff_eq_none] at hotk
      obtain ⟨e, he⟩ := hagrees.missing localIdentity.ikSecret localIdentity.spkSecret hkey
      rw [hotk, he] at hsecret
      cases hsecret
  case changed =>
    intro envelope localIdentity hmatches htampered
    refine exists_error fun opened hok ↦ ?_
    have hsame := hagrees.same _ _ _ hmatches
    rcases htampered with ⟨hwrapped, hchanged⟩ | ⟨hinitial, hchanged⟩
    · -- the same ciphertext is opened with the key it was sealed with, so nothing that makes the
      -- key changed
      rw [hresult] at hwrapped hchanged
      obtain ⟨hsecret, hnonce⟩ := hC.secret_of_unwrap hkey hseal hwrapped hok
      obtain ⟨hidentity, hephemeral⟩ := hC.x3dhResponder_inj hsecret hsame
      rcases hchanged with hne | hne | hne
      · exact hne hnonce
      · exact hne hephemeral
      · exact hne hidentity
    · rw [hresult] at hinitial hchanged
      obtain ⟨-, secret', key', nonce', wrapped', hsecret', hkey', ⟨hnonce', -⟩, hwrapped',
        hopened⟩ :=
        deferredUnwrapKey_eq_ok.1 hok
      rw [hinitial, hsame] at hsecret'
      obtain rfl := Except.ok.inj hsecret'
      obtain rfl := Except.ok.inj (hkey.symm.trans hkey')
      obtain ⟨hmem', hseal'⟩ := (hC.decrypt _ _ _ _ _).1 hopened
      -- the key sealed one thing only
      obtain ⟨-, hnonce, hmessage, -⟩ := Sealing.mk.inj (h.eq_of_key_eq hmem hmem' rfl)
      rw [← hnonce, ← hmessage, hseal] at hseal'
      rcases hchanged with hne | hne
      · exact hne (by rw [hnonce, hC.encode_decode _ _ hnonce'])
      · exact hne (by rw [Option.some.inj hseal', hC.encode_decode _ _ hwrapped'])

end

end DeferredPrimitives

open DeferredPrimitives in
/-- **Deferred envelopes** give the key to those that they are for and to nobody else, the key gives
the body with the metadata it is bound to, and nothing opens once it was changed. -/
theorem deferredLaws {Secret Pub Key VerifyingKey Signature : Type}
    {C : DeferredPrimitives Secret Pub Key VerifyingKey Signature} {log : List (Sealing Key)}
    {es : List Encryption} {ws : List Wrapping} (h : Made C log es ws) (hC : C.Ideal log) :
    (∀ v w : Value, v.WellFormed → w.WellFormed →
      (C.deferredMetadataCommitment v = C.deferredMetadataCommitment w ↔ Reordered v w)) ∧
    (∀ e ∈ es, C.Decrypts e) ∧
    ∀ w ∈ ws, w.recipientBundle.oneTimePrekeyB64.isSome = w.recipientBundle.oneTimePrekeyId.isSome →
      C.Unwraps w :=
  ⟨fun _ _ hv hw ↦ hC.commitment_eq_iff hv hw, fun _ he ↦ h.decrypts hC he,
    fun _ hw hpaired ↦ h.unwraps hC hw fun hkey ↦ hpaired ▸ hkey⟩

/-! ### A history with one message and one recipient -/

namespace DeferredPrimitives

/-- A ciphertext that tells what was sealed. -/
def box (s : Sealing Bytes) : Bytes :=
  delimited s.key ++ (delimited s.nonce ++ (delimited s.aad ++ s.message))

theorem box_inj {s s' : Sealing Bytes} (h : box s = box s') : s = s' := by
  obtain ⟨hkey, hrest⟩ := delimited_inj h
  obtain ⟨hnonce, hrest⟩ := delimited_inj hrest
  obtain ⟨haad, hmessage⟩ := delimited_inj hrest
  cases s
  cases s'
  simp only at hkey hnonce haad hmessage
  rw [hkey, hnonce, haad, hmessage]

/-- Primitives that can be computed with: the exchange adds byte for byte, nothing is hashed,
derived or hidden, and what opens is looked up among what was sealed. -/
def boxed (log : List (Sealing Bytes)) :
    DeferredPrimitives (FixedBytes 32) (FixedBytes 32) Bytes Unit Bytes where
  encodeB64 := Base64.standard.encode
  decodeB64 := Base64.standard.decode
  pubOfBytes bytes :=
    if h : bytes.length = 32 then ⟨bytes, h⟩ else ⟨List.replicate 32 0, List.length_replicate⟩
  asBytes p := p
  publicKey s := s
  diffieHellman s p := List.zipWith (fun a b : Byte ↦ a + b) s.val p.val
  verifyingKeyFromBytes _ := .ok ()
  signatureFromSlice bytes := .ok bytes
  verify _ message signature := decide (message = signature)
  hkdfSha256 material _ _ _ := .ok material
  bytesOfKey key := key
  keyOfBytes bytes := bytes
  toVec := Value.code
  sha256 bytes := bytes
  aesEncrypt key nonce message aad := some (box ⟨key, nonce, message, aad⟩)
  aesDecrypt key nonce ciphertext aad :=
    (log.find? fun s ↦ decide (s = ⟨key, nonce, s.message, aad⟩ ∧ box s = ciphertext)).map
      Sealing.message

variable (log : List (Sealing Bytes))

theorem zipWith_add_inj {bs cs cs' : Bytes} (hlength : cs.length = bs.length)
    (hlength' : cs'.length = bs.length)
    (h : List.zipWith (fun a b : Byte ↦ a + b) bs cs =
      List.zipWith (fun a b : Byte ↦ a + b) bs cs') :
    cs = cs' := by
  induction bs generalizing cs cs' with
  | nil => rw [List.length_eq_zero_iff.1 hlength, List.length_eq_zero_iff.1 hlength']
  | cons b bs ih =>
    obtain ⟨c, cs, rfl⟩ := List.exists_cons_of_length_eq_add_one hlength
    obtain ⟨c', cs', rfl⟩ := List.exists_cons_of_length_eq_add_one hlength'
    obtain ⟨hhead, htail⟩ := List.cons.inj h
    rw [ih (Nat.succ.inj hlength) (Nat.succ.inj hlength') htail]
    have hsum := congrArg Fin.val hhead
    rw [Fin.val_add, Fin.val_add] at hsum
    exact congrArg (· :: cs') (Fin.ext (by omega))

theorem boxed_x3dh_ideal : (boxed log).toX3dhPrimitives.Ideal where
  decode_encode := Base64.standard_canonical.decode_encode
  length_asBytes p := p.property
  pubOfBytes_asBytes p := dif_pos p.property
  length_diffieHellman s p := by
    show (List.zipWith _ s.val p.val).length = 32
    rw [List.length_zipWith, s.property, p.property, Nat.min_self]
  diffieHellman_comm s t := by
    refine List.zipWith_comm_of_comm fun a b ↦ Fin.ext ?_
    rw [Fin.val_add, Fin.val_add, Nat.add_comm]
  diffieHellman_inj s p q h := Subtype.ext
    (zipWith_add_inj (p.property.trans s.property.symm) (q.property.trans s.property.symm) h)
  kdf_ok _ := ⟨_, rfl⟩
  kdf_inj c c' h := List.append_cancel_left (Except.ok.inj h)

theorem boxed_ideal : (boxed log).Ideal log where
  x3dh := boxed_x3dh_ideal log
  encode_decode := Base64.standard_canonical.encode_decode
  asBytes_pubOfBytes bytes hlength := congrArg Subtype.val (dif_pos hlength)
  toVec_inj v w h := Value.code_inj h
  sha256_inj bytes bytes' h := h
  wrapKey_inj secret secret' h := Except.ok.inj h
  encrypt_inj s s' ciphertext h h' := box_inj (Option.some.inj (h.trans h'.symm))
  decrypt key nonce ciphertext aad message := by
    show (log.find? _).map Sealing.message = some message ↔ _ ∧ some (box _) = some ciphertext
    rw [Option.map_eq_some_iff, Option.some.injEq]
    constructor
    · rintro ⟨s, hfind, rfl⟩
      have hfound := List.find?_some hfind
      rw [decide_eq_true_eq] at hfound
      obtain ⟨hs, hbox⟩ := hfound
      rw [← hs]
      exact ⟨List.mem_of_find?_eq_some hfind, hbox⟩
    · rintro ⟨hmem, hbox⟩
      have hsome : (log.find? fun s ↦
          decide (s = ⟨key, nonce, s.message, aad⟩ ∧ box s = ciphertext)).isSome :=
        List.find?_isSome.2 ⟨_, hmem, by rw [decide_eq_true_eq]; exact ⟨rfl, hbox⟩⟩
      obtain ⟨s, hfind⟩ := Option.isSome_iff_exists.1 hsome
      have hfound := List.find?_some hfind
      rw [decide_eq_true_eq] at hfound
      exact ⟨s, hfind, congrArg Sealing.message (box_inj (hfound.2.trans hbox.symm))⟩

/-- The key of 32 equal bytes. -/
def plainKey (b : Byte) : FixedBytes 32 := ⟨List.replicate 32 b, List.length_replicate⟩

def plainNonce : FixedBytes 12 := ⟨List.replicate 12 0, List.length_replicate⟩

def plainText (b : Byte) : String := Base64.standard.encode (plainKey b)

/-- The public keys of the secrets `1`, `2` and `3`. -/
def plainBundle : PreKeyBundle where
  identity := ⟨plainText 1, plainText 1⟩
  signedPrekey := ⟨1, plainText 2, plainText 2⟩
  oneTimePrekeyB64 := some (plainText 3)
  oneTimePrekeyId := some 7

def plainMetadata : Value := .object [("to", .string "bob"), ("from", .string "alice")]

/-- What the throwaway identity `4` and the ephemeral secret `5` agree on with the bundle. -/
def plainShared : Bytes :=
  List.replicate 32 255 ++ (List.replicate 32 6 ++ List.replicate 32 6 ++ List.replicate 32 7 ++
    List.replicate 32 8)

def plainInitial : X3dhInitialMessage := ⟨plainText 4, plainText 5, 1, some 7⟩

theorem boxed_decodeX25519Pub (b : Byte) :
    (boxed log).decodeX25519Pub (plainText b) = .ok (plainKey b) :=
  (boxed_x3dh_ideal log).decodeX25519Pub_encode (plainKey b)

theorem boxed_decodeB64 : (boxed log).decodeB64 = Base64.standard.decode := rfl

theorem boxed_x3dhInitiator :
    (boxed log).x3dhInitiator (plainKey 4) ((boxed log).generatePublic (plainKey 4) "") plainBundle
      (plainKey 5) = .ok (plainShared, plainInitial, plainKey 5) := by
  have hdecode : ∀ b : Byte, (boxed log).decodeB64 (plainText b) = .ok (plainKey b).val := by
    intro b
    rw [boxed_decodeB64, plainText, Base64.standard_canonical.decode_encode]
  have hverify : (boxed log).verifySignedPrekey plainBundle.identity plainBundle.signedPrekey =
      .ok () := by
    rw [X3dhPrimitives.verifySignedPrekey]
    simp only [plainBundle, hdecode]
    rfl
  rw [X3dhPrimitives.x3dhInitiator, hverify]
  simp only [plainBundle, X3dhPrimitives.initiatorOneTime, boxed_decodeX25519Pub]
  have hkdf : (boxed log).kdfX3dh
      ((boxed log).diffieHellman (plainKey 4) (plainKey 2) ++
        (boxed log).diffieHellman (plainKey 5) (plainKey 1) ++
        (boxed log).diffieHellman (plainKey 5) (plainKey 2) ++
        (boxed log).diffieHellman (plainKey 5) (plainKey 3)) = .ok plainShared := rfl
  simp only [bind, Except.bind, pure, Except.pure, hkdf]
  rfl

/-- What was sealed: the body under the content key, and that key under the one agreed on. -/
def plainLog : List (Sealing Bytes) :=
  [⟨plainShared, plainNonce, plainKey 9, wrapAad⟩,
    ⟨plainKey 9, plainNonce, Utf8.toUtf8 "hi", plainMetadata.sorted.code⟩]

/-- What `deferred_encrypt` and `deferred_wrap_key` returned. -/
def plainEncrypted : DeferredEncrypted :=
  ⟨plainKey 9, plainNonce,
    box ⟨plainKey 9, plainNonce, Utf8.toUtf8 "hi", plainMetadata.sorted.code⟩,
    plainMetadata.sorted.code⟩

def plainEnvelope : DeferredEnvelope :=
  ⟨deferredAlg, plainInitial, Base64.standard.encode plainNonce,
    Base64.standard.encode (box ⟨plainShared, plainNonce, plainKey 9, wrapAad⟩)⟩

theorem plain_made :
    Made (boxed plainLog) plainLog [⟨Utf8.toUtf8 "hi", plainMetadata, plainEncrypted⟩]
    [⟨plainKey 9, plainBundle, plainEnvelope⟩] := by
  have hencrypt : (boxed plainLog).deferredEncrypt (plainKey 9) plainNonce (Utf8.toUtf8 "hi")
      plainMetadata = .ok plainEncrypted := rfl
  have hwrap : (boxed plainLog).deferredWrapKey (plainKey 4) "" (plainKey 5) plainNonce (plainKey 9)
      plainBundle = .ok plainEnvelope := by
    rw [deferredWrapKey, boxed_x3dhInitiator]
    rfl
  have hmetadata : plainMetadata.WellFormed := by
    refine ⟨?_, trivial, trivial, trivial⟩
    show (["to", "from"] : List String).Nodup
    decide
  refine .wrap (.encrypt .start hmetadata hencrypt List.not_mem_nil)
    (boxed_x3dhInitiator plainLog) rfl hwrap ?_
  decide +kernel

end DeferredPrimitives

open DeferredPrimitives in
/-- The one that the key was wrapped for reads the message. -/
theorem deferredLaws_plain :
    (boxed plainLog).deferredUnwrapKey plainEnvelope ⟨plainKey 1, plainKey 2, some (plainKey 3)⟩ =
        .ok (plainKey 9) ∧
      (boxed plainLog).deferredDecrypt plainEncrypted.ciphertext (plainKey 9) plainNonce
        ((boxed plainLog).deferredMetadataCommitment
          (.object [("from", .string "alice"), ("to", .string "bob")])) =
          .ok (Utf8.toUtf8 "hi") := by
  obtain ⟨-, hdecrypts, hunwraps⟩ := deferredLaws plain_made (boxed_ideal plainLog)
  constructor
  · refine (hunwraps _ List.mem_cons_self rfl).matched _ ⟨?_, ?_, ?_⟩
    · exact boxed_decodeX25519Pub plainLog 1
    · exact boxed_decodeX25519Pub plainLog 2
    · intro otkB64 hotk
      obtain rfl := Option.some.inj hotk
      exact ⟨plainKey 3, rfl, boxed_decodeX25519Pub plainLog 3⟩
  · exact (hdecrypts _ List.mem_cons_self).same _ (.fields (List.Perm.swap _ _ _))

end VoceChat
