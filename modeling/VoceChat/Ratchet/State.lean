import Mathlib.Data.List.AList
import VoceChat.Foundations.Machine

/-!
# The Double Ratchet state (`voce-e2ee-core/src/ratchet.rs`)

One party's ratchet state and the operations of `RatchetState`: `initAlice`, `initBob`, `encrypt`,
`decrypt` with its staged copy, `trySkipped`, `skipMessageKeys` and `dhRatchet`.

What lives outside the repository — X25519, HKDF, base64, AES-256-GCM and the operating system's
random generator — enters as data. `Primitives` collects the functions; the AEAD's opening half is
a separate argument (`Opener`), because its ideal depends on what has been sealed so far; and the
secret that `random_from_rng` returns during a ratchet turn is the argument `fresh`.

Counters are `u32` in the source. Here they are naturals with the two arithmetic operations the
source performs on them written out: `+=`, which wraps (`wrappingAdd`), and `saturating_add`.

`kdf_rk` and `kdf_ck` return a `Result` only because HKDF refuses outputs longer than 8160 bytes;
both ask for 64, so they are total here.
-/

namespace VoceChat

open Machine

/-- `E2eError` of the core crate. -/
inductive E2eError where
  | unsupportedVersion (version : ℕ)
  | invalidEnvelope (msg : String)
  | invalidKey (msg : String)
  | decryptFailed
  | encryptFailed
  | replay (n : ℕ)
  | x3dh (msg : String)
  | ratchet (msg : String)
  | json (msg : String)
  | notImplemented (msg : String)
  deriving DecidableEq, Repr

/-- The largest number of message keys one call may skip. -/
def maxSkip : ℕ := 100

structure RatchetHeader where
  dhPubB64 : String
  pn : ℕ
  n : ℕ
  deriving DecidableEq, Repr

/-- The cryptographic functions the ratchet calls. -/
structure Primitives (Secret Pub Key : Type) where
  /-- `XPublic::from`. -/
  publicKey : Secret → Pub
  /-- `StaticSecret::diffie_hellman`. -/
  diffieHellman : Secret → Pub → Key
  /-- `kdf_rk`: the next root key and a chain key. -/
  kdfRk : Key → Key → Key × Key
  /-- `kdf_ck`: a message key and the next chain key. -/
  kdfCk : Key → Key × Key
  /-- `B64.encode(p.as_bytes())`. -/
  encodePub : Pub → String
  /-- `decode_x25519_pub`. -/
  decodePub : String → Except E2eError Pub
  /-- `seal_aes_gcm`. -/
  sealAesGcm : Key → Bytes → RatchetHeader → Except E2eError Bytes

/-- `open_aes_gcm`: message key, ciphertext, header. -/
abbrev Opener (Key : Type) := Key → Bytes → RatchetHeader → Except E2eError Bytes

structure RatchetState (Secret Pub Key : Type) where
  dhs : Secret
  dhr : Option Pub
  rk : Key
  cks : Option Key
  ckr : Option Key
  ns : ℕ
  nr : ℕ
  pn : ℕ
  mkskipped : AList fun _ : String × ℕ ↦ Key

namespace RatchetState

variable {Secret Pub Key : Type} [DecidableEq Pub] (C : Primitives Secret Pub Key)

/-- Alice: after X3DH, Bob's signed prekey is the initial remote DH. -/
def initAlice (sk : Key) (dhs : Secret) (bobDhPub : Pub) : RatchetState Secret Pub Key :=
  let keys := C.kdfRk sk (C.diffieHellman dhs bobDhPub)
  { dhs, dhr := some bobDhPub, rk := keys.1, cks := some keys.2, ckr := none,
    ns := 0, nr := 0, pn := 0, mkskipped := ∅ }

/-- Bob: after X3DH, keep the prekey secret as DH; Alice's key arrives in the first header. -/
def initBob (sk : Key) (bobSpkSecret : Secret) : RatchetState Secret Pub Key :=
  { dhs := bobSpkSecret, dhr := none, rk := sk, cks := none, ckr := none,
    ns := 0, nr := 0, pn := 0, mkskipped := ∅ }

/-- `encrypt` on `&mut self`: the result and the state left behind. The chain has already moved
when sealing fails. -/
def encrypt (st : RatchetState Secret Pub Key) (plaintext : Bytes) :
    Except E2eError (RatchetHeader × Bytes) × RatchetState Secret Pub Key :=
  match st.cks with
  | none => (.error (.ratchet "sending chain missing"), st)
  | some cks =>
    let header : RatchetHeader :=
      { dhPubB64 := C.encodePub (C.publicKey st.dhs), pn := st.pn, n := st.ns }
    let st := { st with cks := some (C.kdfCk cks).2, ns := wrappingAdd st.ns 1 }
    match C.sealAesGcm (C.kdfCk cks).1 plaintext header with
    | .ok ct => (.ok (header, ct), st)
    | .error e => (.error e, st)

/-- `try_skipped`: a stored key is taken out of the map and must open the message. -/
def trySkipped (opn : Opener Key) (st : RatchetState Secret Pub Key) (header : RatchetHeader)
    (ciphertext : Bytes) : Except E2eError (Option Bytes × RatchetState Secret Pub Key) :=
  match st.mkskipped.lookup (header.dhPubB64, header.n) with
  | some key =>
    (opn key ciphertext header).map fun pt ↦
      (some pt, { st with mkskipped := st.mkskipped.erase (header.dhPubB64, header.n) })
  | none => .ok (none, st)

/-- The `while self.nr < until` loop, run `fuel` times. -/
def skipLoop : ℕ → RatchetState Secret Pub Key → Except E2eError (RatchetState Secret Pub Key)
  | 0, st => .ok st
  | fuel + 1, st =>
    match st.ckr, st.dhr with
    | none, _ => .ok st
    | some _, none => .error (.ratchet "dhr missing while skipping")
    | some ckr, some dhr =>
      skipLoop fuel
        { st with
          ckr := some (C.kdfCk ckr).2
          mkskipped := st.mkskipped.insert (C.encodePub dhr, st.nr) (C.kdfCk ckr).1
          nr := st.nr + 1 }

/-- `skip_message_keys`: store the keys of the indices below `bound` of the receiving chain. The
counter stays below `bound`, so its increments cannot wrap. -/
def skipMessageKeys (st : RatchetState Secret Pub Key) (bound : ℕ) :
    Except E2eError (RatchetState Secret Pub Key) :=
  if saturatingAdd st.nr maxSkip < bound then .error (.ratchet "too many skipped keys")
  else match st.ckr with
    | none => .ok st
    | some _ => skipLoop C (bound - st.nr) st

/-- `dh_ratchet`: a receiving chain from the remote key, then a sending chain from `fresh`. -/
def dhRatchet (st : RatchetState Secret Pub Key) (remote : Pub) (fresh : Secret) :
    RatchetState Secret Pub Key :=
  let recv := C.kdfRk st.rk (C.diffieHellman st.dhs remote)
  let send := C.kdfRk recv.1 (C.diffieHellman fresh remote)
  { st with
    pn := st.ns, ns := 0, nr := 0
    dhr := some remote
    ckr := some recv.2
    dhs := fresh
    rk := send.1
    cks := some send.2 }

/-- The ratchet turn of `decrypt_staged`: taken when the header names another remote key. -/
def turnTo (st : RatchetState Secret Pub Key) (remote : Pub) (pn : ℕ) (fresh : Secret) :
    Except E2eError (RatchetState Secret Pub Key) :=
  if st.dhr = some remote then .ok st
  else (st.skipMessageKeys C pn).map fun st ↦ st.dhRatchet C remote fresh

/-- The end of `decrypt_staged`: skip to the header's index, then open with the next key. -/
def openNext (opn : Opener Key) (st : RatchetState Secret Pub Key) (header : RatchetHeader)
    (ciphertext : Bytes) : Except E2eError (Bytes × RatchetState Secret Pub Key) :=
  (st.skipMessageKeys C header.n).bind fun st ↦
    match st.ckr with
    | none => .error (.ratchet "recv chain missing")
    | some ckr =>
      (opn (C.kdfCk ckr).1 ciphertext header).map fun pt ↦
        (pt, { st with ckr := some (C.kdfCk ckr).2, nr := wrappingAdd st.nr 1 })

/-- `decrypt_staged`, which works on the staged copy; on an error the copy is dropped. -/
def decryptStaged (opn : Opener Key) (fresh : Secret) (st : RatchetState Secret Pub Key)
    (header : RatchetHeader) (ciphertext : Bytes) :
    Except E2eError (Bytes × RatchetState Secret Pub Key) :=
  (st.trySkipped opn header ciphertext).bind fun
    | (some pt, st) => .ok (pt, st)
    | (none, st) =>
      (C.decodePub header.dhPubB64).bind fun dhr ↦
        (st.turnTo C dhr header.pn fresh).bind fun st ↦ st.openNext C opn header ciphertext

/-- `decrypt` on `&mut self`: the staged copy replaces the state only when it decrypted. -/
def decrypt (opn : Opener Key) (fresh : Secret) (st : RatchetState Secret Pub Key)
    (header : RatchetHeader) (ciphertext : Bytes) :
    Except E2eError Bytes × RatchetState Secret Pub Key :=
  match st.decryptStaged C opn fresh header ciphertext with
  | .ok (pt, staged) => (.ok pt, staged)
  | .error e => (.error e, st)

/-- How many keys of one chain must be stored away before `header` can be opened. -/
def keysToSkip (st : RatchetState Secret Pub Key) (header : RatchetHeader) : ℕ :=
  match st.mkskipped.lookup (header.dhPubB64, header.n), C.decodePub header.dhPubB64 with
  | some _, _ | none, .error _ => 0
  | none, .ok dhr =>
    if st.dhr = some dhr then header.n - st.nr else max (header.pn - st.nr) header.n

end RatchetState

end VoceChat
