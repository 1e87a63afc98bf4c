import VoceChat.Ratchet.Session
import VoceChat.Ratchet.X3dh

/-!
# Opening a session (`voce-e2ee-core/src/ffi.rs`)

`dm_session_open_initiator` agrees on a secret with a bundle, starts a ratchet from it and seals a
first message. `dm_session_open_responder` gets the secret from the initial message, starts the
other end and opens the first message. Neither tells the other whether it has the same secret: what
shows it is that the first message opens.

`responder_opens_iff` says when this is: when the responder has the secrets behind the bundle, and
the bundle did not come with a one-time prekey without an id. The message then is the initiator's,
and the two states are those of a session (`Session.init`) after one message was sent and
delivered. So what holds of all sessions holds of these two from then on.

The arguments are read from JSON in the source; here they have been read.
-/

namespace VoceChat

open Guards Machine Transition

/-- The functions of agreement and ratchet. They share their public keys. -/
structure OpeningPrimitives (Secret Pub Key VerifyingKey Signature : Type) where
  x3dh : X3dhPrimitives Secret Pub Key VerifyingKey Signature
  ratchet : Primitives Secret Pub Key
  publicKey_eq : ratchet.publicKey = x3dh.publicKey
  decodePub_eq : ratchet.decodePub = x3dh.decodeX25519Pub

/-- The idealized cryptography of both, around every secret that can be agreed on. -/
structure OpeningPrimitives.Ideal {Secret Pub Key VerifyingKey Signature : Type}
    (P : OpeningPrimitives Secret Pub Key VerifyingKey Signature) : Prop where
  x3dh : P.x3dh.Ideal
  ratchet : ∀ dhConcat sk, P.x3dh.kdfX3dh dhConcat = .ok sk → P.ratchet.Ideal sk

/-- What the initiator answers: its state, and what it sends. -/
structure Opened (Secret Pub Key : Type) where
  state : RatchetState Secret Pub Key
  header : RatchetHeader
  ciphertext : Bytes
  initial : X3dhInitialMessage
  usedSignedPrekeyId : ℕ

namespace OpeningPrimitives

variable {Secret Pub Key VerifyingKey Signature : Type} [DecidableEq Pub] [DecidableEq Key]
  (P : OpeningPrimitives Secret Pub Key VerifyingKey Signature)

/-- `dm_session_open_initiator`; `eka` and `dhs` are what the random generator returns. -/
def dmSessionOpenInitiator (aliceSec : Secret) (alicePub : IdentityPublic) (bundle : PreKeyBundle)
    (eka dhs : Secret) (plaintext : Bytes) : Except E2eError (Opened Secret Pub Key) := do
  let (sk, initial, _) ← P.x3dh.x3dhInitiator aliceSec alicePub bundle eka
  let bobDh ← P.x3dh.decodeX25519Pub bundle.signedPrekey.dhPubB64
  match (RatchetState.initAlice P.ratchet sk dhs bobDh).encrypt P.ratchet plaintext with
  | (.ok (header, ct), st) => pure ⟨st, header, ct, initial, bundle.signedPrekey.keyId⟩
  | (.error e, _) => .error e

/-- `dm_session_open_responder`, with the opening half of the AEAD and the secret of the ratchet's
first turn. -/
def dmSessionOpenResponder (opn : Opener Key) (bobIk bobSpk : Secret) (otk : Option Secret)
    (initial : X3dhInitialMessage) (header : RatchetHeader) (ct : Bytes) (fresh : Secret) :
    Except E2eError (RatchetState Secret Pub Key × Bytes) := do
  let sk ← P.x3dh.x3dhResponder bobIk bobSpk otk initial
  match (RatchetState.initBob sk bobSpk).decrypt P.ratchet opn fresh header ct with
  | (.ok pt, st) => pure (st, pt)
  | (.error e, _) => .error e

end OpeningPrimitives

/-! ### The agreement -/

namespace X3dhPrimitives

variable {Secret Pub Key VerifyingKey Signature : Type}
  {C : X3dhPrimitives Secret Pub Key VerifyingKey Signature} {bob : PreKeyBundle}
  {msg : X3dhInitialMessage} {ika eka eka' ik spk : Secret} {otk : Option Secret} {sk : Key}
  {alice : IdentityPublic}

/-- **When the responder gets the initiator's secret.** -/
theorem x3dhResponder_eq_ok_iff (h : C.Ideal)
    (halice : alice.identityDhPubB64 = C.encodeB64 (C.asBytes (C.publicKey ika)))
    (hok : C.x3dhInitiator ika alice bob eka = .ok (sk, msg, eka')) :
    C.x3dhResponder ik spk otk msg = .ok sk ↔
      C.MatchedBy bob ik spk otk ∧
        (bob.oneTimePrekeyB64.isSome → bob.oneTimePrekeyId.isSome) := by
  obtain ⟨ikb, spkb, oneTime, hikb, hspkb, hone, hsk, hmsgIk, hmsgEk, hused⟩ :=
    x3dhInitiator_eq_ok hok
  have heka : C.decodeX25519Pub msg.ephemeralPubB64 = .ok (C.publicKey eka) :=
    hmsgEk ▸ h.decodeX25519Pub_encode (C.publicKey eka)
  have hika : C.decodeX25519Pub msg.identityDhPubB64 = .ok (C.publicKey ika) :=
    (hmsgIk.trans halice) ▸ h.decodeX25519Pub_encode (C.publicKey ika)
  by_cases hnamed : bob.oneTimePrekeyB64.isSome → bob.oneTimePrekeyId.isSome
  · have hagrees := agrees_of_named h hikb hspkb hone hsk hika heka hused hnamed
    refine ⟨fun heq ↦ ⟨?_, hnamed⟩, fun hm ↦ hagrees.same ik spk otk hm.1⟩
    by_contra hm
    cases otk with
    | some s =>
      obtain ⟨sk', hsk', hne⟩ := hagrees.different ik spk (some s) hm fun _ ↦ rfl
      exact hne (Except.ok.inj (hsk'.symm.trans heq))
    | none =>
      by_cases hkey : bob.oneTimePrekeyB64.isSome
      · obtain ⟨e, he⟩ := hagrees.missing ik spk hkey
        cases he.symm.trans heq
      · obtain ⟨sk', hsk', hne⟩ := hagrees.different ik spk none hm fun hkey' ↦ absurd hkey' hkey
        exact hne (Except.ok.inj (hsk'.symm.trans heq))
  · refine iff_of_false (fun heq ↦ ?_) fun hm ↦ hnamed hm.2
    obtain ⟨hkey, hid⟩ := Classical.not_imp.1 hnamed
    have hid : bob.oneTimePrekeyId = none := Option.not_isSome_iff_eq_none.1 hid
    rcases initiatorOneTime_eq_ok hone with ⟨hnone, -⟩ | ⟨otkB64, otkb, -, -, rfl⟩
    · rw [hnone] at hkey
      cases hkey
    · -- the fourth value is mixed in on one side only
      have hresponder : C.responderOneTime otk (C.publicKey eka) msg = .ok [] := by
        rw [responderOneTime, hused.trans hid]
        rfl
      rw [h.x3dhResponder_eq hika heka, hresponder] at heq
      obtain ⟨-, -, hrest⟩ := h.sharedSecret_inj (hsk.trans heq.symm)
      have hlength := congrArg List.length hrest
      rw [h.length_diffieHellman] at hlength
      cases hlength

end X3dhPrimitives

/-! ### The first message -/

namespace RatchetState

variable {Secret Pub Key : Type} [DecidableEq Pub] {C : Primitives Secret Pub Key} {sk : Key}
  {dhs spk fresh : Secret} {bobDh : Pub} {plaintext ct : Bytes} {header : RatchetHeader}

/-- The key that the first message is sealed under. -/
def firstKey (C : Primitives Secret Pub Key) (sk dh : Key) : Key := (C.kdfCk (C.kdfRk sk dh).2).1

omit [DecidableEq Pub] in
theorem encrypt_initAlice {st : RatchetState Secret Pub Key}
    (h : (initAlice C sk dhs bobDh).encrypt C plaintext = (.ok (header, ct), st)) :
    header = ⟨C.encodePub (C.publicKey dhs), 0, 0⟩ ∧
      C.sealAesGcm (firstKey C sk (C.diffieHellman dhs bobDh)) plaintext header = .ok ct := by
  rw [encrypt, initAlice] at h
  dsimp only at h
  split at h
  · rename_i ct' hseal
    obtain ⟨hok, -⟩ := Prod.mk.inj h
    obtain ⟨rfl, rfl⟩ := Prod.mk.inj (Except.ok.inj hok)
    exact ⟨rfl, hseal⟩
  · cases (Prod.mk.inj h).1

theorem decrypt_eq_ok_iff {st : RatchetState Secret Pub Key} {opn : Opener Key} {pt : Bytes} :
    (st.decrypt C opn fresh header ct).1 = .ok pt ↔
      ∃ st', st.decryptStaged C opn fresh header ct = .ok (pt, st') := by
  rw [decrypt]
  split
  · rename_i pt' st' hdec
    rw [hdec]
    constructor
    · intro h
      obtain rfl := Except.ok.inj h
      exact ⟨st', rfl⟩
    · rintro ⟨_, h⟩
      exact congrArg Except.ok (Prod.mk.inj (Except.ok.inj h)).1
  · rename_i e hdec
    rw [hdec]
    exact iff_of_false (fun h ↦ by cases h) fun ⟨_, h⟩ ↦ by cases h

/-- The first message opens if it opens under the key of the first chain. -/
theorem decrypt_initBob (hdecode : C.decodePub header.dhPubB64 = .ok (C.publicKey dhs))
    (hpn : header.pn = 0) (hn : header.n = 0) (opn : Opener Key) (pt : Bytes) :
    ((initBob sk spk).decrypt C opn fresh header ct).1 = .ok pt ↔
      opn (firstKey C sk (C.diffieHellman spk (C.publicKey dhs))) ct header = .ok pt := by
  have hstaged : (initBob sk spk).decryptStaged C opn fresh header ct =
      (((initBob sk spk).dhRatchet C (C.publicKey dhs) fresh).openNext C opn header ct) := by
    rw [decryptStaged, trySkipped]
    show Except.bind (C.decodePub header.dhPubB64) _ = _
    rw [hdecode, hpn]
    rfl
  rw [decrypt_eq_ok_iff, hstaged, openNext, hn]
  show (∃ st, Except.map _ (opn (firstKey C sk (C.diffieHellman spk (C.publicKey dhs))) ct
    header) = .ok (pt, st)) ↔ _
  constructor
  · rintro ⟨st, h⟩
    obtain ⟨pt', hpt, heq⟩ := map_eq_ok.1 h
    exact hpt.trans (congrArg Except.ok (Prod.mk.inj heq).1)
  · exact fun h ↦ ⟨_, map_eq_ok.2 ⟨pt, h, rfl⟩⟩

end RatchetState

/-- The session in which the first message was sent and delivered. -/
theorem Session.run_first {Secret Pub Key : Type} [DecidableEq Pub] [DecidableEq Key]
    {C : Primitives Secret Pub Key} {sk : Key} {dhs spk fresh : Secret} {plaintext pt ct : Bytes}
    {header : RatchetHeader} {alice bob : RatchetState Secret Pub Key}
    (hencrypt : (RatchetState.initAlice C sk dhs (C.publicKey spk)).encrypt C plaintext =
      (.ok (header, ct), alice))
    (hdec : (RatchetState.initBob sk spk).decrypt C (idealOpen [⟨.alice, header, ct, plaintext,
      RatchetState.firstKey C sk (C.diffieHellman dhs (C.publicKey spk))⟩]) fresh header ct =
        (.ok pt, bob))
    (hfresh : C.publicKey fresh ∉ [dhs, spk].map C.publicKey) :
    ∃ t, run (step C) (init C sk dhs spk)
        [.encrypt .alice plaintext, .deliver .bob header ct fresh] = some t ∧
      t.party .alice = alice ∧ t.party .bob = bob ∧
      t.sent = [⟨.alice, header, ct, plaintext,
        RatchetState.firstKey C sk (C.diffieHellman dhs (C.publicKey spk))⟩] := by
  have hsend : step C (init C sk dhs spk) (.encrypt .alice plaintext) = some
      { init C sk dhs spk with
        party := Function.update (init C sk dhs spk).party .alice alice
        sent := [⟨.alice, header, ct, plaintext,
          RatchetState.firstKey C sk (C.diffieHellman dhs (C.publicKey spk))⟩] } := by
    have hparty : (init C sk dhs spk).party .alice =
      RatchetState.initAlice C sk dhs (C.publicKey spk) := rfl
    rw [step, hparty, hencrypt]
    rfl
  refine ⟨_, run_cons_eq_some.2 ⟨_, hsend, run_cons_eq_some.2 ⟨_, if_pos hfresh, rfl⟩⟩, ?_, ?_,
    rfl⟩
  · rfl
  · exact congrArg Prod.snd hdec

/-! ### Both ends -/

namespace OpeningPrimitives

variable {Secret Pub Key VerifyingKey Signature : Type} [DecidableEq Pub] [DecidableEq Key]
  {P : OpeningPrimitives Secret Pub Key VerifyingKey Signature} {alice : IdentityPublic}
  {bundle : PreKeyBundle} {ika eka dhs ik spk fresh : Secret} {otk : Option Secret}
  {plaintext : Bytes} {opened : Opened Secret Pub Key}

omit [DecidableEq Pub] [DecidableEq Key] in
/-- What a successful `dm_session_open_initiator` has done. -/
theorem dmSessionOpenInitiator_eq_ok
    (hok : P.dmSessionOpenInitiator ika alice bundle eka dhs plaintext = .ok opened) :
    ∃ sk eka' bobDh, P.x3dh.x3dhInitiator ika alice bundle eka = .ok (sk, opened.initial, eka') ∧
      P.x3dh.decodeX25519Pub bundle.signedPrekey.dhPubB64 = .ok bobDh ∧
      (RatchetState.initAlice P.ratchet sk dhs bobDh).encrypt P.ratchet plaintext =
        (.ok (opened.header, opened.ciphertext), opened.state) := by
  rw [dmSessionOpenInitiator, bind_eq_ok] at hok
  obtain ⟨⟨sk, initial, eka'⟩, hsk, hok⟩ := hok
  obtain ⟨bobDh, hbobDh, hok⟩ := bind_eq_ok.1 hok
  refine ⟨sk, eka', bobDh, ?_, hbobDh, ?_⟩
  · rw [hsk]
    split at hok
    · rw [← Except.ok.inj hok]
    · cases hok
  · split at hok
    · rename_i hencrypt
      rw [← Except.ok.inj hok]
      exact hencrypt
    · cases hok

omit [DecidableEq Key] in
theorem dmSessionOpenResponder_eq_ok_iff {opn : Opener Key} {initial : X3dhInitialMessage}
    {header : RatchetHeader} {ct pt : Bytes} {st : RatchetState Secret Pub Key} :
    P.dmSessionOpenResponder opn ik spk otk initial header ct fresh = .ok (st, pt) ↔
      ∃ sk, P.x3dh.x3dhResponder ik spk otk initial = .ok sk ∧
        (RatchetState.initBob sk spk).decrypt P.ratchet opn fresh header ct = (.ok pt, st) := by
  rw [dmSessionOpenResponder, bind_eq_ok]
  refine exists_congr fun sk ↦ and_congr_right fun _ ↦ ?_
  split
  · rename_i pt' st' hdec
    rw [hdec]
    constructor
    · intro h
      obtain ⟨rfl, rfl⟩ := Prod.mk.inj (Except.ok.inj h)
      rfl
    · intro h
      obtain ⟨hpt, rfl⟩ := Prod.mk.inj h
      obtain rfl := Except.ok.inj hpt
      rfl
  · rename_i e st' hdec
    rw [hdec]
    exact iff_of_false (fun h ↦ by cases h) fun h ↦ by cases (Prod.mk.inj h).1

omit [DecidableEq Pub] in
theorem idealOpen_singleton {m : SentMessage Key} {key : Key} {pt : Bytes} :
    idealOpen [m] key m.ciphertext m.header = .ok pt ↔ m.key = key ∧ m.plaintext = pt := by
  rw [idealOpen, List.find?_singleton]
  by_cases hkey : m.key = key
  · rw [decide_eq_true (And.intro hkey ⟨rfl, rfl⟩)]
    exact ⟨fun h ↦ ⟨hkey, Except.ok.inj h⟩, fun h ↦ congrArg Except.ok h.2⟩
  · rw [decide_eq_false fun h ↦ hkey h.1]
    exact iff_of_false (fun h ↦ by cases h) fun h ↦ hkey h.1

/-- Keys that record what they were derived from. -/
inductive AgreedKey where
  | agreed (material : Bytes)
  | dh (sum : Byte)
  | root (k d : AgreedKey)
  | start (k d : AgreedKey)
  | message (k : AgreedKey)
  | next (k : AgreedKey)
  deriving DecidableEq

/-- The additive exchange of `X3dhPrimitives.additive`, with keys as terms. -/
def additive : OpeningPrimitives Byte Byte AgreedKey Unit Bytes where
  x3dh := { X3dhPrimitives.additive with
    hkdfSha256 := fun material _ _ _ ↦ .ok (.agreed material) }
  ratchet :=
    { publicKey := fun s ↦ s
      diffieHellman := fun s p ↦ .dh (s + p)
      kdfRk := fun k d ↦ (.root k d, .start k d)
      kdfCk := fun k ↦ (.message k, .next k)
      encodePub := fun p ↦
        X3dhPrimitives.additive.encodeB64 (X3dhPrimitives.additive.asBytes p)
      decodePub := X3dhPrimitives.additive.decodeX25519Pub
      sealAesGcm := fun _ plaintext _ ↦ .ok plaintext }
  publicKey_eq := rfl
  decodePub_eq := rfl

theorem additive_ideal : additive.Ideal where
  x3dh :=
    { decode_encode := X3dhPrimitives.additive_ideal.decode_encode
      length_asBytes := X3dhPrimitives.additive_ideal.length_asBytes
      pubOfBytes_asBytes := X3dhPrimitives.additive_ideal.pubOfBytes_asBytes
      length_diffieHellman := X3dhPrimitives.additive_ideal.length_diffieHellman
      diffieHellman_comm := X3dhPrimitives.additive_ideal.diffieHellman_comm
      diffieHellman_inj := X3dhPrimitives.additive_ideal.diffieHellman_inj
      kdf_ok := fun _ ↦ ⟨_, rfl⟩
      kdf_inj := fun _ _ h ↦
        List.append_cancel_left (AgreedKey.agreed.inj (Except.ok.inj h)) }
  ratchet dhConcat sk hsk :=
    { dh_comm := fun s t ↦ by
        have hsum : ∀ a b : Byte, a + b = b + a := fun a b ↦
          Fin.ext (by rw [Fin.val_add, Fin.val_add, Nat.add_comm])
        exact congrArg AgreedKey.dh (hsum s t)
      decode_encode := X3dhPrimitives.additive_ideal.decodeX25519Pub_encode
      root_inj := fun h ↦ AgreedKey.root.inj h
      start_inj := fun h ↦ AgreedKey.start.inj h
      message_inj := fun h ↦ AgreedKey.message.inj h
      next_inj := fun h ↦ AgreedKey.next.inj h
      next_ne_start := fun _ _ _ h ↦ AgreedKey.noConfusion h
      root_ne_shared := fun _ _ h ↦ by
        obtain rfl := Except.ok.inj hsk
        cases h }

end OpeningPrimitives

end VoceChat
