import VoceChat.Foundations.Guards
import VoceChat.Ratchet.State

/-!
# Session agreement (`voce-e2ee-core/src/x3dh.rs`)

`x3dhInitiator` agrees on a secret with a published bundle, `x3dhResponder` answers the initial
message with the secrets behind that bundle. Both concatenate Diffie–Hellman values of 32 bytes and
pass them to the same key derivation: three, and a fourth when a one-time prekey takes part.

The two sides decide on the fourth value from **different** fields. The initiator looks at
`one_time_prekey_b64`; the message, and with it the responder, only has `one_time_prekey_id`. A
bundle may have the one without the other:

* an id without a key is harmless, the message then says nothing of it;
* a key without an id makes the initiator mix in a value that the responder never learns of.

`responder_agrees_iff` says that this is all that can go wrong. `X3dhPrimitives` collects what lies
outside the repository (base64, X25519, Ed25519, HKDF), `X3dhPrimitives.Ideal` what is relied on.
-/

namespace VoceChat

open Guards Machine

structure IdentityPublic where
  /-- X25519 public, base64. -/
  identityDhPubB64 : String
  /-- Ed25519 verifying key, base64. -/
  identitySigPubB64 : String
  deriving DecidableEq, Repr

structure SignedPreKeyPublic where
  keyId : ℕ
  dhPubB64 : String
  signatureB64 : String
  deriving DecidableEq, Repr

structure PreKeyBundle where
  identity : IdentityPublic
  signedPrekey : SignedPreKeyPublic
  oneTimePrekeyB64 : Option String
  oneTimePrekeyId : Option ℕ
  deriving DecidableEq, Repr

structure X3dhInitialMessage where
  identityDhPubB64 : String
  ephemeralPubB64 : String
  usedSignedPrekeyId : ℕ
  usedOneTimePrekeyId : Option ℕ
  deriving DecidableEq, Repr

/-- The functions the agreement calls. Secrets and derived keys are `[u8; 32]` in the source; they
are types of their own here, so that an injective key derivation exists. -/
structure X3dhPrimitives (Secret Pub Key VerifyingKey Signature : Type) where
  /-- `B64.encode`. -/
  encodeB64 : Bytes → String
  /-- `B64.decode`, with the text of its error. -/
  decodeB64 : String → Except String Bytes
  /-- `XPublic::from`, of 32 bytes. -/
  pubOfBytes : Bytes → Pub
  /-- `XPublic::as_bytes`. -/
  asBytes : Pub → Bytes
  /-- `XPublic::from`, of a secret. -/
  publicKey : Secret → Pub
  /-- `StaticSecret::diffie_hellman`, as bytes. -/
  diffieHellman : Secret → Pub → Bytes
  /-- `VerifyingKey::from_bytes`. -/
  verifyingKeyFromBytes : Bytes → Except String VerifyingKey
  /-- `Signature::from_slice`. -/
  signatureFromSlice : Bytes → Except String Signature
  /-- `VerifyingKey::verify`. -/
  verify : VerifyingKey → Bytes → Signature → Bool
  /-- `hkdf_sha256`: key material, salt, label, length of the output. -/
  hkdfSha256 : Bytes → Bytes → String → ℕ → Except E2eError Key

namespace X3dhPrimitives

variable {Secret Pub Key VerifyingKey Signature : Type}
variable (C : X3dhPrimitives Secret Pub Key VerifyingKey Signature)

/-- `decode_x25519_pub`. -/
def decodeX25519Pub (b64 : String) : Except E2eError Pub := do
  let bytes ← (C.decodeB64 b64).mapError .invalidKey
  ensure (bytes.length = 32) (.invalidKey "x25519 pub len")
  pure (C.pubOfBytes bytes)

/-- `verify_signed_prekey`. -/
def verifySignedPrekey (identity : IdentityPublic) (spk : SignedPreKeyPublic) :
    Except E2eError Unit := do
  let vkBytes ← (C.decodeB64 identity.identitySigPubB64).mapError .invalidKey
  ensure (vkBytes.length = 32) (.invalidKey "sig pub len")
  let vk ← (C.verifyingKeyFromBytes vkBytes).mapError .invalidKey
  let dh ← (C.decodeB64 spk.dhPubB64).mapError .invalidKey
  let sigBytes ← (C.decodeB64 spk.signatureB64).mapError .invalidKey
  let sig ← (C.signatureFromSlice sigBytes).mapError .invalidKey
  ensure (C.verify vk dh sig) (.invalidKey "signed prekey signature")

/-- `kdf_x3dh`. -/
def kdfX3dh (dhConcat : Bytes) : Except E2eError Key :=
  C.hkdfSha256 (List.replicate 32 255 ++ dhConcat) [] "VoceChat_X3DH_v2" 32

/-- The one-time part of `x3dh_initiator`: the bytes to append, and the id for the message. -/
def initiatorOneTime (eka : Secret) (bob : PreKeyBundle) :
    Except E2eError (Bytes × Option ℕ) :=
  match bob.oneTimePrekeyB64 with
  | some otkB64 => do
    let otkb ← C.decodeX25519Pub otkB64
    pure (C.diffieHellman eka otkb, bob.oneTimePrekeyId)
  | none => pure ([], none)

/-- `x3dh_initiator`; `eka` is what the random generator returns. -/
def x3dhInitiator (aliceIkSecret : Secret) (aliceIkPublic : IdentityPublic) (bob : PreKeyBundle)
    (eka : Secret) : Except E2eError (Key × X3dhInitialMessage × Secret) := do
  C.verifySignedPrekey bob.identity bob.signedPrekey
  let ikb ← C.decodeX25519Pub bob.identity.identityDhPubB64
  let spkb ← C.decodeX25519Pub bob.signedPrekey.dhPubB64
  let oneTime ← C.initiatorOneTime eka bob
  let sk ← C.kdfX3dh (C.diffieHellman aliceIkSecret spkb ++ C.diffieHellman eka ikb ++
    C.diffieHellman eka spkb ++ oneTime.1)
  pure (sk,
    { identityDhPubB64 := aliceIkPublic.identityDhPubB64
      ephemeralPubB64 := C.encodeB64 (C.asBytes (C.publicKey eka))
      usedSignedPrekeyId := bob.signedPrekey.keyId
      usedOneTimePrekeyId := oneTime.2 }, eka)

/-- The one-time part of `x3dh_responder`. -/
def responderOneTime (bobOtkSecret : Option Secret) (eka : Pub) (aliceMsg : X3dhInitialMessage) :
    Except E2eError Bytes :=
  match aliceMsg.usedOneTimePrekeyId with
  | some _ => do
    let otkb ← okOr bobOtkSecret (.x3dh "missing OTK secret")
    pure (C.diffieHellman otkb eka)
  | none => pure []

/-- `x3dh_responder`. -/
def x3dhResponder (bobIkSecret bobSpkSecret : Secret) (bobOtkSecret : Option Secret)
    (aliceMsg : X3dhInitialMessage) : Except E2eError Key := do
  let ika ← C.decodeX25519Pub aliceMsg.identityDhPubB64
  let eka ← C.decodeX25519Pub aliceMsg.ephemeralPubB64
  let oneTime ← C.responderOneTime bobOtkSecret eka aliceMsg
  C.kdfX3dh (C.diffieHellman bobSpkSecret ika ++ C.diffieHellman bobIkSecret eka ++
    C.diffieHellman bobSpkSecret eka ++ oneTime)

/-- What is relied on: base64 and the byte form of a public key can be read back, both sides of an
exchange get one value of 32 bytes, and neither the exchange nor the key derivation has collisions.
-/
structure Ideal : Prop where
  decode_encode : ∀ bytes, C.decodeB64 (C.encodeB64 bytes) = .ok bytes
  length_asBytes : ∀ p, (C.asBytes p).length = 32
  pubOfBytes_asBytes : ∀ p, C.pubOfBytes (C.asBytes p) = p
  length_diffieHellman : ∀ s p, (C.diffieHellman s p).length = 32
  diffieHellman_comm : ∀ s t, C.diffieHellman s (C.publicKey t) = C.diffieHellman t (C.publicKey s)
  diffieHellman_inj : ∀ s p q, C.diffieHellman s p = C.diffieHellman s q → p = q
  kdf_ok : ∀ dhConcat, ∃ sk, C.kdfX3dh dhConcat = .ok sk
  kdf_inj : ∀ c c', C.kdfX3dh c = C.kdfX3dh c' → c = c'

/-- The secrets belong to the keys of the bundle. A one-time secret is asked for where the bundle
has a one-time prekey. -/
def MatchedBy (bob : PreKeyBundle) (ik spk : Secret) (otk : Option Secret) : Prop :=
  C.decodeX25519Pub bob.identity.identityDhPubB64 = .ok (C.publicKey ik) ∧
    C.decodeX25519Pub bob.signedPrekey.dhPubB64 = .ok (C.publicKey spk) ∧
    ∀ otkB64, bob.oneTimePrekeyB64 = some otkB64 →
      ∃ s, otk = some s ∧ C.decodeX25519Pub otkB64 = .ok (C.publicKey s)

/-- What the initial message of a bundle has to do, for every choice of responder secrets. -/
structure Agrees (bob : PreKeyBundle) (sk : Key) (msg : X3dhInitialMessage) : Prop where
  same : ∀ ik spk otk, C.MatchedBy bob ik spk otk → C.x3dhResponder ik spk otk msg = .ok sk
  different : ∀ ik spk otk, ¬C.MatchedBy bob ik spk otk →
    (bob.oneTimePrekeyB64.isSome → otk.isSome) →
    ∃ sk', C.x3dhResponder ik spk otk msg = .ok sk' ∧ sk' ≠ sk
  missing : ∀ ik spk, bob.oneTimePrekeyB64.isSome →
    ∃ e, C.x3dhResponder ik spk none msg = .error e

/-! ### Both sides as one function of the public keys -/

/-- The secret of initiator secrets `ika` and `eka` and of a peer's public keys, with the bytes of
the one-time part. -/
def sharedSecret (ika eka : Secret) (ikb spkb : Pub) (oneTime : Bytes) : Except E2eError Key :=
  C.kdfX3dh (C.diffieHellman ika spkb ++ C.diffieHellman eka ikb ++ C.diffieHellman eka spkb ++
    oneTime)

variable {C} {bob : PreKeyBundle} {msg : X3dhInitialMessage} {ika eka eka' : Secret} {sk : Key}
  {alice : IdentityPublic}

/-- The blocks in front have 32 bytes each, so the concatenation can be taken apart again. -/
theorem Ideal.sharedSecret_inj (h : C.Ideal) {ikb spkb ikb' spkb' : Pub} {oneTime oneTime' : Bytes}
    (heq : C.sharedSecret ika eka ikb spkb oneTime = C.sharedSecret ika eka ikb' spkb' oneTime') :
    ikb = ikb' ∧ spkb = spkb' ∧ oneTime = oneTime' := by
  have hconcat := h.kdf_inj _ _ heq
  simp only [List.append_assoc] at hconcat
  have hlength : ∀ s p q, (C.diffieHellman s p).length = (C.diffieHellman s q).length :=
    fun s p q ↦ (h.length_diffieHellman s p).trans (h.length_diffieHellman s q).symm
  obtain ⟨hspkb, hrest⟩ := List.append_inj hconcat (hlength ika spkb spkb')
  obtain ⟨hikb, hrest⟩ := List.append_inj hrest (hlength eka ikb ikb')
  exact ⟨h.diffieHellman_inj _ _ _ hikb, h.diffieHellman_inj _ _ _ hspkb,
    (List.append_inj hrest (hlength eka spkb spkb')).2⟩

/-- A public key survives the wire. -/
theorem Ideal.decodeX25519Pub_encode (h : C.Ideal) (p : Pub) :
    C.decodeX25519Pub (C.encodeB64 (C.asBytes p)) = .ok p := by
  rw [decodeX25519Pub, bind_eq_ok]
  refine ⟨C.asBytes p, mapError_eq_ok.2 (h.decode_encode _), ?_⟩
  rw [bind_eq_ok]
  exact ⟨(), ensure_eq_ok.2 (h.length_asBytes p), congrArg Except.ok (h.pubOfBytes_asBytes p)⟩

/-- What a successful `x3dh_initiator` has read and returned. -/
theorem x3dhInitiator_eq_ok (hok : C.x3dhInitiator ika alice bob eka = .ok (sk, msg, eka')) :
    ∃ ikb spkb oneTime, C.decodeX25519Pub bob.identity.identityDhPubB64 = .ok ikb ∧
      C.decodeX25519Pub bob.signedPrekey.dhPubB64 = .ok spkb ∧
      C.initiatorOneTime eka bob = .ok oneTime ∧
      C.sharedSecret ika eka ikb spkb oneTime.1 = .ok sk ∧
      msg.identityDhPubB64 = alice.identityDhPubB64 ∧
      msg.ephemeralPubB64 = C.encodeB64 (C.asBytes (C.publicKey eka)) ∧
      msg.usedOneTimePrekeyId = oneTime.2 := by
  simp only [x3dhInitiator, bind_eq_ok, exists_unit, pure_eq_ok, Prod.mk.injEq] at hok
  obtain ⟨-, ikb, hikb, spkb, hspkb, oneTime, hone, _, hsk, rfl, rfl, -⟩ := hok
  exact ⟨ikb, spkb, oneTime, hikb, hspkb, hone, hsk, rfl, rfl, rfl⟩

/-- The one-time part of the initiator, by the two fields of the bundle. -/
theorem initiatorOneTime_eq_ok {oneTime : Bytes × Option ℕ}
    (hok : C.initiatorOneTime eka bob = .ok oneTime) :
    bob.oneTimePrekeyB64 = none ∧ oneTime = ([], none) ∨
      ∃ otkB64 otkb, bob.oneTimePrekeyB64 = some otkB64 ∧ C.decodeX25519Pub otkB64 = .ok otkb ∧
        oneTime = (C.diffieHellman eka otkb, bob.oneTimePrekeyId) := by
  cases hkey : bob.oneTimePrekeyB64 with
  | none =>
    rw [initiatorOneTime, hkey] at hok
    exact .inl ⟨rfl, (Except.ok.inj hok).symm⟩
  | some otkB64 =>
    simp only [initiatorOneTime, hkey, bind_eq_ok, pure_eq_ok] at hok
    obtain ⟨otkb, hotkb, rfl⟩ := hok
    exact .inr ⟨otkB64, otkb, rfl, hotkb, rfl⟩

/-- The responder computes the initiator's function of the public keys of its own secrets. -/
theorem Ideal.x3dhResponder_eq (h : C.Ideal)
    (hika : C.decodeX25519Pub msg.identityDhPubB64 = .ok (C.publicKey ika))
    (heka : C.decodeX25519Pub msg.ephemeralPubB64 = .ok (C.publicKey eka)) (ik spk : Secret)
    (otk : Option Secret) :
    C.x3dhResponder ik spk otk msg = (C.responderOneTime otk (C.publicKey eka) msg).bind
      (C.sharedSecret ika eka (C.publicKey ik) (C.publicKey spk)) := by
  rw [x3dhResponder, hika, heka]
  show Except.bind _ (fun oneTime ↦ C.kdfX3dh (C.diffieHellman spk (C.publicKey ika) ++
    C.diffieHellman ik (C.publicKey eka) ++ C.diffieHellman spk (C.publicKey eka) ++ oneTime)) = _
  rw [h.diffieHellman_comm spk ika, h.diffieHellman_comm ik eka, h.diffieHellman_comm spk eka]
  rfl

/-! ### Where the two sides agree -/

/-- The responder's one-time part against the initiator's, once the message names the one-time
prekey of the bundle if there is one: they are equal exactly for a matching secret. -/
theorem Ideal.exists_responderOneTime (h : C.Ideal) {ikb spkb : Pub} {oneTime : Bytes × Option ℕ}
    (hikb : C.decodeX25519Pub bob.identity.identityDhPubB64 = .ok ikb)
    (hspkb : C.decodeX25519Pub bob.signedPrekey.dhPubB64 = .ok spkb)
    (hone : C.initiatorOneTime eka bob = .ok oneTime)
    (hnamed : bob.oneTimePrekeyB64.isSome → bob.oneTimePrekeyId.isSome)
    (hused : msg.usedOneTimePrekeyId = oneTime.2) {otk : Option Secret}
    (hotk : bob.oneTimePrekeyB64.isSome → otk.isSome) (ik spk : Secret) :
    ∃ rest, C.responderOneTime otk (C.publicKey eka) msg = .ok rest ∧
      (C.MatchedBy bob ik spk otk ↔
        ikb = C.publicKey ik ∧ spkb = C.publicKey spk ∧ oneTime.1 = rest) := by
  have hmatched : C.MatchedBy bob ik spk otk ↔ ikb = C.publicKey ik ∧ spkb = C.publicKey spk ∧
      ∀ otkB64, bob.oneTimePrekeyB64 = some otkB64 →
        ∃ s, otk = some s ∧ C.decodeX25519Pub otkB64 = .ok (C.publicKey s) := by
    rw [MatchedBy, hikb, hspkb, Except.ok.injEq, Except.ok.injEq]
  rw [hmatched, responderOneTime, hused]
  rcases initiatorOneTime_eq_ok hone with ⟨hkey, rfl⟩ | ⟨otkB64, otkb, hkey, hotkb, rfl⟩
  · refine ⟨[], rfl, and_congr_right fun _ ↦ and_congr_right fun _ ↦ iff_of_true ?_ rfl⟩
    intro otkB64 hsome
    rw [hkey] at hsome
    cases hsome
  · rw [hkey] at hnamed hotk
    obtain ⟨id, hid⟩ := Option.isSome_iff_exists.1 (hnamed rfl)
    obtain ⟨s, rfl⟩ := Option.isSome_iff_exists.1 (hotk rfl)
    simp only [hid]
    refine ⟨C.diffieHellman s (C.publicKey eka), rfl,
      and_congr_right fun _ ↦ and_congr_right fun _ ↦ ?_⟩
    rw [h.diffieHellman_comm s eka]
    constructor
    · intro hall
      obtain ⟨s', hs', hdec⟩ := hall otkB64 hkey
      obtain rfl := Option.some.inj hs'
      exact congrArg _ (Except.ok.inj (hotkb.symm.trans hdec))
    · intro heq otkB64' hkey'
      obtain rfl := Option.some.inj (hkey.symm.trans hkey')
      exact ⟨s, rfl, hotkb.trans (congrArg _ (h.diffieHellman_inj _ _ _ heq))⟩

/-- A message that names a one-time prekey needs the secret. -/
theorem x3dhResponder_missing (h : C.Ideal)
    (hika : C.decodeX25519Pub msg.identityDhPubB64 = .ok (C.publicKey ika))
    (heka : C.decodeX25519Pub msg.ephemeralPubB64 = .ok (C.publicKey eka))
    {id : ℕ} (hused : msg.usedOneTimePrekeyId = some id) (ik spk : Secret) :
    C.x3dhResponder ik spk none msg = .error (.x3dh "missing OTK secret") := by
  rw [h.x3dhResponder_eq hika heka, responderOneTime, hused]
  rfl

/-- Where the message names every one-time prekey it used, the two sides agree. -/
theorem agrees_of_named (h : C.Ideal) {ikb spkb : Pub} {oneTime : Bytes × Option ℕ}
    (hikb : C.decodeX25519Pub bob.identity.identityDhPubB64 = .ok ikb)
    (hspkb : C.decodeX25519Pub bob.signedPrekey.dhPubB64 = .ok spkb)
    (hone : C.initiatorOneTime eka bob = .ok oneTime)
    (hsk : C.sharedSecret ika eka ikb spkb oneTime.1 = .ok sk)
    (hika : C.decodeX25519Pub msg.identityDhPubB64 = .ok (C.publicKey ika))
    (heka : C.decodeX25519Pub msg.ephemeralPubB64 = .ok (C.publicKey eka))
    (hused : msg.usedOneTimePrekeyId = oneTime.2)
    (hnamed : bob.oneTimePrekeyB64.isSome → bob.oneTimePrekeyId.isSome) : C.Agrees bob sk msg := by
  have hresponder : ∀ ik spk otk, (bob.oneTimePrekeyB64.isSome → otk.isSome) →
      ∃ rest, C.x3dhResponder ik spk otk msg =
          C.sharedSecret ika eka (C.publicKey ik) (C.publicKey spk) rest ∧
        (C.MatchedBy bob ik spk otk ↔
          ikb = C.publicKey ik ∧ spkb = C.publicKey spk ∧ oneTime.1 = rest) := by
    intro ik spk otk hotk
    obtain ⟨rest, hrest, hmatched⟩ :=
      h.exists_responderOneTime hikb hspkb hone hnamed hused hotk ik spk
    refine ⟨rest, ?_, hmatched⟩
    rw [h.x3dhResponder_eq hika heka, hrest]
    rfl
  constructor
  case same =>
    intro ik spk otk hm
    obtain ⟨rest, heq, hiff⟩ := hresponder ik spk otk fun hkey ↦ by
      obtain ⟨otkB64, hsome⟩ := Option.isSome_iff_exists.1 hkey
      obtain ⟨s, rfl, -⟩ := hm.2.2 otkB64 hsome
      rfl
    obtain ⟨rfl, rfl, rfl⟩ := hiff.1 hm
    exact heq.trans hsk
  case different =>
    intro ik spk otk hm hotk
    obtain ⟨rest, heq, hiff⟩ := hresponder ik spk otk hotk
    obtain ⟨sk', hsk'⟩ : ∃ sk', C.sharedSecret ika eka (C.publicKey ik) (C.publicKey spk) rest =
      .ok sk' := h.kdf_ok _
    refine ⟨sk', heq.trans hsk', fun hsame ↦ hm (hiff.2 ?_)⟩
    exact h.sharedSecret_inj (hsk.trans (hsame ▸ hsk'.symm))
  case missing =>
    intro ik spk hkey
    obtain ⟨id, hid⟩ := Option.isSome_iff_exists.1 (hnamed hkey)
    rcases initiatorOneTime_eq_ok hone with ⟨hnone, -⟩ | ⟨otkB64, otkb, -, -, rfl⟩
    · rw [hnone] at hkey
      cases hkey
    · exact ⟨_, x3dhResponder_missing h hika heka (hused.trans hid) ik spk⟩

/-- **Initiator and responder agree, whatever secrets the responder uses, exactly when a one-time
prekey of the bundle comes with an id.** -/
theorem responder_agrees_iff (h : C.Ideal)
    (halice : alice.identityDhPubB64 = C.encodeB64 (C.asBytes (C.publicKey ika)))
    (hok : C.x3dhInitiator ika alice bob eka = .ok (sk, msg, eka')) :
    C.Agrees bob sk msg ↔ (bob.oneTimePrekeyB64.isSome → bob.oneTimePrekeyId.isSome) := by
  obtain ⟨ikb, spkb, oneTime, hikb, hspkb, hone, hsk, hmsgIk, hmsgEk, hused⟩ :=
    x3dhInitiator_eq_ok hok
  have heka : C.decodeX25519Pub msg.ephemeralPubB64 = .ok (C.publicKey eka) :=
    hmsgEk ▸ h.decodeX25519Pub_encode (C.publicKey eka)
  have hika : C.decodeX25519Pub msg.identityDhPubB64 = .ok (C.publicKey ika) :=
    (hmsgIk.trans halice) ▸ h.decodeX25519Pub_encode (C.publicKey ika)
  refine ⟨fun hagrees hkey ↦ ?_, agrees_of_named h hikb hspkb hone hsk hika heka hused⟩
  cases hid : bob.oneTimePrekeyId with
  | some id => rfl
  | none =>
    -- without an id the responder does not know that a secret is missing
    have hnone : msg.usedOneTimePrekeyId = none := by
      rcases initiatorOneTime_eq_ok hone with ⟨-, rfl⟩ | ⟨_, _, -, -, rfl⟩
      · exact hused
      · exact hused.trans hid
    obtain ⟨e, he⟩ := hagrees.missing ika ika hkey
    rw [h.x3dhResponder_eq hika heka, responderOneTime, hnone] at he
    obtain ⟨sk', hsk'⟩ : ∃ sk', C.sharedSecret ika eka (C.publicKey ika) (C.publicKey ika) [] =
      .ok sk' := h.kdf_ok _
    exact absurd (hsk'.symm.trans he) nofun

/-! ### A bundle whose one-time prekey has no id -/

/-- Primitives that can be computed with: the exchange adds the two numbers, a text has a character
for each byte, and the derived key is the material itself. -/
def additive : X3dhPrimitives Byte Byte Bytes Unit Bytes where
  encodeB64 bytes := String.ofList (bytes.map fun b : Byte ↦ Char.ofNat b.val)
  decodeB64 text := .ok (text.toList.map fun c ↦ Fin.ofNat 256 c.toNat)
  pubOfBytes bytes := bytes.headD 0
  asBytes p := p :: List.replicate 31 0
  publicKey s := s
  diffieHellman s p := (s + p) :: List.replicate 31 0
  verifyingKeyFromBytes _ := .ok ()
  signatureFromSlice bytes := .ok bytes
  verify _ message signature := decide (message = signature)
  hkdfSha256 material _ _ _ := .ok material

theorem additive_ideal : additive.Ideal where
  decode_encode bytes := by
    have hbyte : ∀ b : Byte, Fin.ofNat 256 (Char.ofNat b.val).toNat = b := by decide +kernel
    show Except.ok ((String.ofList (bytes.map fun b : Byte ↦ Char.ofNat b.val)).toList.map
      fun c ↦ Fin.ofNat 256 c.toNat) = _
    rw [String.toList_ofList, List.map_map]
    exact congrArg Except.ok (List.map_id'' hbyte bytes)
  length_asBytes _ := rfl
  pubOfBytes_asBytes _ := rfl
  length_diffieHellman _ _ := rfl
  diffieHellman_comm s t := by
    have hsum : s + t = t + s := Fin.ext (by rw [Fin.val_add, Fin.val_add, Nat.add_comm])
    exact congrArg (· :: List.replicate 31 0) hsum
  diffieHellman_inj s p q h := by
    have hsum := congrArg Fin.val (List.head_eq_of_cons_eq h)
    rw [Fin.val_add, Fin.val_add] at hsum
    exact Fin.ext (by omega)
  kdf_ok dhConcat := ⟨_, rfl⟩
  kdf_inj c c' h := List.append_cancel_left (Except.ok.inj h)

/-- The public keys of the secrets `1`, `2` and `3` as a bundle, with the given id for the one-time
prekey. -/
def additiveBundle (id : Option ℕ) : PreKeyBundle :=
  let key (p : Byte) := additive.encodeB64 (additive.asBytes p)
  { identity := ⟨key 1, key 1⟩
    signedPrekey := ⟨1, key 2, key 2⟩
    oneTimePrekeyB64 := some (key 3)
    oneTimePrekeyId := id }

/-- What the owner of the secret `4` gets from `x3dh_initiator` with the ephemeral secret `5`. -/
def additiveRun (id : Option ℕ) : Except E2eError (Bytes × X3dhInitialMessage × Byte) :=
  additive.x3dhInitiator 4 ⟨additive.encodeB64 (additive.asBytes 4), ""⟩ (additiveBundle id) 5

/-- The claim fails for a one-time prekey without an id: the secrets behind the bundle do not give
the initiator's secret. -/
theorem not_agrees_unnamed : additive.Ideal ∧ ∃ sk msg eka,
    additiveRun none = .ok (sk, msg, eka) ∧ ¬additive.Agrees (additiveBundle none) sk msg := by
  refine ⟨additive_ideal, _, _, _, rfl, fun hagrees ↦ ?_⟩
  have hmatched : additive.MatchedBy (additiveBundle none) 1 2 (some 3) :=
    ⟨rfl, rfl, fun _ hkey ↦ ⟨3, rfl, Option.some.inj hkey ▸ rfl⟩⟩
  have hsame := Except.ok.inj (hagrees.same 1 2 (some 3) hmatched)
  revert hsame
  decide +kernel

/-- With an id for its one-time prekey the same bundle is one that is agreed on. -/
theorem agrees_iff_named : ∃ sk msg eka, additiveRun (some 7) = .ok (sk, msg, eka) ∧
    additive.Agrees (additiveBundle (some 7)) sk msg :=
  ⟨_, _, _, rfl, (responder_agrees_iff additive_ideal rfl rfl).2 fun _ ↦ rfl⟩

end X3dhPrimitives

end VoceChat
