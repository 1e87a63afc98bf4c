import VoceChat.Foundations.KeyChain
import VoceChat.Foundations.Run
import VoceChat.Ratchet.State

/-!
# Two ratchet parties and a hostile network

Alice and Bob each hold a `RatchetState`. The network is the adversary: `deliver` hands **any**
header and ciphertext to either party — a genuine message in or out of order, late, twice, to its
own sender, or something nobody ever sent. What a party did not receive was lost.

The AEAD is ideal in the sense that only the genuine triple opens: `idealOpen` answers from the
record of what was sealed, and a key, ciphertext and header that were not sealed together open
nothing. The random generator is ideal in the sense that it never returns a secret again: a
delivery whose `fresh` was drawn before is not a step.

## What the session remembers

`sent`, `accepted` and `drawn` are history: no party reads them. `sent` records each sealed
message with the key it was sealed under, `accepted` each delivery that decrypted.
-/

namespace VoceChat

open Machine

inductive Role where
  | alice
  | bob
  deriving DecidableEq, Repr

namespace Role

def peer : Role → Role
  | alice => bob
  | bob => alice

@[simp] theorem peer_peer (r : Role) : r.peer.peer = r := by cases r <;> rfl

@[simp] theorem peer_ne (r : Role) : r.peer ≠ r := by cases r <;> simp [peer]

@[simp] theorem ne_peer (r : Role) : r ≠ r.peer := r.peer_ne.symm

theorem eq_or_eq_peer (r q : Role) : q = r ∨ q = r.peer := by cases r <;> cases q <;> simp [peer]

end Role

/-- A message as it left its sender, with the key it was sealed under. -/
structure SentMessage (Key : Type) where
  sender : Role
  header : RatchetHeader
  ciphertext : Bytes
  plaintext : Bytes
  key : Key
  deriving DecidableEq

/-- The ideal AEAD: opens exactly the triples that were sealed. -/
def idealOpen {Key : Type} [DecidableEq Key] (log : List (SentMessage Key)) : Opener Key :=
  fun key ciphertext header ↦
    match log.find? fun m ↦ m.key = key ∧ m.ciphertext = ciphertext ∧ m.header = header with
    | some m => .ok m.plaintext
    | none => .error .decryptFailed

structure Session (Secret Pub Key : Type) where
  party : Role → RatchetState Secret Pub Key
  sent : List (SentMessage Key)
  accepted : List (Role × RatchetHeader × Bytes)
  drawn : List Secret

inductive SessionAction (Secret : Type) where
  | encrypt (r : Role) (plaintext : Bytes)
  | deliver (r : Role) (header : RatchetHeader) (ciphertext : Bytes) (fresh : Secret)

namespace Session

variable {Secret Pub Key : Type} [DecidableEq Pub] [DecidableEq Key]
variable (C : Primitives Secret Pub Key)

/-- The pair created by `init_alice` and `init_bob` from one shared secret and one prekey. -/
def init (sk : Key) (aliceSecret bobSpkSecret : Secret) : Session Secret Pub Key where
  party
    | .alice => RatchetState.initAlice C sk aliceSecret (C.publicKey bobSpkSecret)
    | .bob => RatchetState.initBob sk bobSpkSecret
  sent := []
  accepted := []
  drawn := [aliceSecret, bobSpkSecret]

/-- The secret was never drawn, as far as its public key tells. -/
def Unseen (s : Session Secret Pub Key) (fresh : Secret) : Prop :=
  C.publicKey fresh ∉ s.drawn.map C.publicKey

instance (s : Session Secret Pub Key) (fresh : Secret) : Decidable (s.Unseen C fresh) :=
  inferInstanceAs (Decidable (_ ∉ _))

/-- What `r` would answer to a delivery, and the state it would be left in. -/
def receive (s : Session Secret Pub Key) (r : Role) (fresh : Secret) (header : RatchetHeader)
    (ciphertext : Bytes) : Except E2eError Bytes × RatchetState Secret Pub Key :=
  (s.party r).decrypt C (idealOpen s.sent) fresh header ciphertext

def step (s : Session Secret Pub Key) :
    SessionAction Secret → Option (Session Secret Pub Key)
  | .encrypt r plaintext =>
    let next := { s with
      party := Function.update s.party r ((s.party r).encrypt C plaintext).2 }
    match (s.party r).cks, ((s.party r).encrypt C plaintext).1 with
    | some cks, .ok (header, ciphertext) =>
      some { next with
        sent := s.sent ++ [⟨r, header, ciphertext, plaintext, (C.kdfCk cks).1⟩] }
    | _, _ => some next
  | .deliver r header ciphertext fresh =>
    if s.Unseen C fresh then
      some { s with
        party := Function.update s.party r (s.receive C r fresh header ciphertext).2
        accepted := match (s.receive C r fresh header ciphertext).1 with
          | .ok _ => s.accepted ++ [(r, header, ciphertext)]
          | .error _ => s.accepted
        drawn := fresh :: s.drawn }
    else none

/-- Fewer than `2 ^ 32 - 101` messages per chain: the one bound a sender has to keep. -/
def ChainRoom (s : Session Secret Pub Key) : SessionAction Secret → Prop
  | .encrypt r _ => (s.party r).ns + 1 < u32Size - 101
  | .deliver .. => True

instance (s : Session Secret Pub Key) (a : SessionAction Secret) : Decidable (s.ChainRoom a) := by
  cases a <;> unfold ChainRoom <;> infer_instance

end Session

namespace Primitives

variable {Secret Pub Key : Type} (C : Primitives Secret Pub Key)

/-- The chain key at position `n` of the chain that starts at `start`. -/
def chainKey (start : Key) (n : ℕ) : Key := (fun k ↦ (C.kdfCk k).2)^[n] start

/-- The message key at position `n` of the chain that starts at `start`. -/
def messageKey (start : Key) (n : ℕ) : Key := (C.kdfCk (C.chainKey start n)).1

@[simp] theorem chainKey_zero (start : Key) : C.chainKey start 0 = start := rfl

theorem chainKey_succ (start : Key) (n : ℕ) :
    C.chainKey start (n + 1) = (C.kdfCk (C.chainKey start n)).2 :=
  Function.iterate_succ_apply' _ _ _

/-- Idealized cryptography around a shared secret `sk`: Diffie–Hellman commutes, public keys
survive their encoding, and no two key derivations collide — in particular no derived root key is
the shared secret again and no chain key is the start of another chain. -/
structure Ideal (sk : Key) : Prop where
  dh_comm : ∀ s t, C.diffieHellman s (C.publicKey t) = C.diffieHellman t (C.publicKey s)
  decode_encode : ∀ p, C.decodePub (C.encodePub p) = .ok p
  root_inj : ∀ {a b c d}, (C.kdfRk a b).1 = (C.kdfRk c d).1 → a = c ∧ b = d
  start_inj : ∀ {a b c d}, (C.kdfRk a b).2 = (C.kdfRk c d).2 → a = c ∧ b = d
  message_inj : ∀ {a b}, (C.kdfCk a).1 = (C.kdfCk b).1 → a = b
  next_inj : ∀ {a b}, (C.kdfCk a).2 = (C.kdfCk b).2 → a = b
  next_ne_start : ∀ a b c, (C.kdfCk a).2 ≠ (C.kdfRk b c).2
  root_ne_shared : ∀ a b, (C.kdfRk a b).1 ≠ sk

namespace Ideal

variable {C} {sk : Key} (hC : C.Ideal sk)
include hC

theorem encodePub_inj {p q : Pub} (h : C.encodePub p = C.encodePub q) : p = q := by
  have hp := hC.decode_encode p
  rw [h, hC.decode_encode q] at hp
  exact (Except.ok.inj hp).symm

/-- A message key tells the root key its chain was derived from, and its position. -/
theorem messageKey_inj {a b c d : Key} {m n : ℕ}
    (h : C.messageKey (C.kdfRk a b).2 m = C.messageKey (C.kdfRk c d).2 n) : a = c ∧ m = n := by
  have hchain := hC.message_inj h
  obtain ⟨hstart, hpos⟩ := (KeyChain.iterate_eq_iterate_iff (fun k ↦ (C.kdfCk k).2)
    (fun _ _ ↦ hC.next_inj) (fun k ↦ hC.next_ne_start k a b)
    (fun k ↦ hC.next_ne_start k c d)).1 hchain
  exact ⟨(hC.start_inj hstart).1, hpos⟩

end Ideal

/-- Keys as terms: what a derivation returns records what it was derived from. -/
inductive SymbolicKey where
  | shared
  | dh (s t : ℕ)
  | root (k d : SymbolicKey)
  | start (k d : SymbolicKey)
  | message (k : SymbolicKey)
  | next (k : SymbolicKey)
  deriving DecidableEq, Repr

/-- Symbolic cryptography: a secret is its own public key, written in unary on the wire. -/
def symbolic : Primitives ℕ ℕ SymbolicKey where
  publicKey s := s
  diffieHellman s t := .dh (min s t) (max s t)
  kdfRk k d := (.root k d, .start k d)
  kdfCk k := (.message k, .next k)
  encodePub p := String.ofList (List.replicate p 'a')
  decodePub d := .ok d.length
  sealAesGcm _ plaintext _ := .ok plaintext

/-- The idealization is consistent: symbolic cryptography has all of it. -/
theorem symbolic_ideal : symbolic.Ideal .shared where
  dh_comm s t := by simp only [symbolic, Nat.min_comm, Nat.max_comm]
  decode_encode p := by simp [symbolic]
  root_inj h := by simpa [symbolic] using h
  start_inj h := by simpa [symbolic] using h
  message_inj h := by simpa [symbolic] using h
  next_inj h := by simpa [symbolic] using h
  next_ne_start a b c := by simp [symbolic]
  root_ne_shared a b := by simp [symbolic]

end Primitives

end VoceChat
