import Mathlib.Order.Basic
import VoceChat.Ratchet.Session

/-!
# The history of a ratchet session

What relates the two parties is a history neither of them holds: the turns taken so far. Turn `i`
is taken with `secret i` — turn `0` is Bob's prekey, turn `1` Alice's first secret, and from there
on the parties alternate — and opens the sending chain `i`. The root keys form one linear chain
through all turns (`rootKey`), and each party sits at one of the last two turns.

`PartyAt` reads a party's whole state off the history: its root key, the position of both of its
chains, and, entry by entry, the skipped keys it still holds. The receiving side is described by
how far each incoming chain was `received` and by which of its keys were `used`.

## Why collisions are excluded where they are

Root keys of different turns differ (`rootKey_injective`), so a message key determines its turn
and its position (`key_inj`). Nothing is asked of the Diffie–Hellman outputs beyond commutativity:
an adversary may name any public key it likes, and the root key alone keeps the chains apart.
-/

namespace VoceChat

structure History (Secret : Type) where
  /-- The secret turn `i` was taken with. -/
  secret : ℕ → Secret
  /-- How many message keys the sender of chain `i` has used. -/
  count : ℕ → ℕ
  /-- The turn each party has reached. -/
  turn : Role → ℕ
  /-- The incoming messages that were accepted, by chain and position. -/
  used : ℕ → ℕ → Prop

/-- The map holds exactly the keys of a set of messages, under the names of their chains. -/
def Stores {Key : Type} (map : AList fun _ : String × ℕ ↦ Key) (held : ℕ → ℕ → Prop)
    (name : ℕ → String) (key : ℕ → ℕ → Key) : Prop :=
  ∀ d n k, map.lookup (d, n) = some k ↔ ∃ i, held i n ∧ d = name i ∧ k = key i n

namespace Stores

variable {Key : Type} {map : AList fun _ : String × ℕ ↦ Key} {held : ℕ → ℕ → Prop}
variable {name : ℕ → String} {key : ℕ → ℕ → Key}

theorem congr (h : Stores map held name key) {held' : ℕ → ℕ → Prop} {name' : ℕ → String}
    {key' : ℕ → ℕ → Key} (hheld : ∀ i n, held' i n ↔ held i n)
    (hname : ∀ i n, held i n → name' i = name i)
    (hkey : ∀ i n, held i n → key' i n = key i n) : Stores map held' name' key' := by
  intro d n k
  rw [h d n k]
  refine exists_congr fun i ↦ ?_
  rw [hheld]
  refine and_congr_right fun hi ↦ ?_
  rw [hname i n hi, hkey i n hi]

theorem lookup_eq_some (h : Stores map held name key) {i n : ℕ} (hi : held i n) :
    map.lookup (name i, n) = some (key i n) :=
  (h _ _ _).2 ⟨i, hi, rfl, rfl⟩

/-- Taking one message out. -/
theorem erase (h : Stores map held name key) {j m : ℕ}
    (hinj : ∀ i n, held i n → name i = name j → i = j) :
    Stores (map.erase (name j, m)) (fun i n ↦ held i n ∧ ¬(i = j ∧ n = m)) name key := by
  intro d n k
  by_cases hd : (d, n) = (name j, m)
  · rw [hd, AList.lookup_erase]
    refine ⟨nofun, ?_⟩
    rintro ⟨i, ⟨hi, hne⟩, hdi, -⟩
    have hij : i = j := hinj i n hi (hdi.symm.trans (Prod.ext_iff.1 hd).1)
    exact absurd ⟨hij, (Prod.ext_iff.1 hd).2⟩ hne
  · rw [AList.lookup_erase_ne hd, h d n k]
    refine exists_congr fun i ↦ ⟨?_, fun ⟨hi, hrest⟩ ↦ ⟨hi.1, hrest⟩⟩
    rintro ⟨hi, hdi, hk⟩
    refine ⟨⟨hi, ?_⟩, hdi, hk⟩
    rintro ⟨rfl, rfl⟩
    exact hd (Prod.ext hdi rfl)

end Stores

namespace History

/-- The party that takes turn `i`. -/
def sender (i : ℕ) : Role := if i % 2 = 1 then .alice else .bob

theorem sender_succ (i : ℕ) : sender (i + 1) = (sender i).peer := by
  rcases Nat.mod_two_eq_zero_or_one i with h | h <;>
    simp [sender, Nat.add_mod, h, Role.peer]

theorem sender_add_two (i : ℕ) : sender (i + 2) = sender i := by
  rw [sender_succ, sender_succ, Role.peer_peer]

theorem sender_eq_peer {i : ℕ} {r : Role} (h : sender (i + 1) = r) : sender i = r.peer := by
  rw [← h, sender_succ, Role.peer_peer]

variable {Secret Pub Key : Type} (C : Primitives Secret Pub Key) (sk : Key)
variable (H : History Secret)

/-- The Diffie–Hellman output that turn `i + 1` mixes in. -/
def input (i : ℕ) : Key := C.diffieHellman (H.secret (i + 1)) (C.publicKey (H.secret i))

/-- The root key after turn `i`. -/
def rootKey : ℕ → Key
  | 0 => sk
  | i + 1 => (C.kdfRk (rootKey i) (H.input C i)).1

/-- The first key of chain `i`. No message is ever sent in chain `0`. -/
def startKey : ℕ → Key
  | 0 => sk
  | i + 1 => (C.kdfRk (H.rootKey C sk i) (H.input C i)).2

def key (i n : ℕ) : Key := C.messageKey (H.startKey C sk i) n

/-- The encoded public key that names chain `i` on the wire. -/
def name (i : ℕ) : String := C.encodePub (C.publicKey (H.secret i))

def header (i n : ℕ) : RatchetHeader := ⟨H.name C i, H.count (i - 2), n⟩

/-- How far the party has followed the incoming chain `i`: the newest one up to its own counter,
an older one to its end. -/
def received (r : Role) (nr i : ℕ) : ℕ := if i + 1 = H.turn r then nr else H.count i

/-- Message `n` of the incoming chain `i` was passed over by `r` and not read since. -/
structure Awaited (r : Role) (nr i n : ℕ) : Prop where
  pos : 0 < i
  lt_turn : i < H.turn r
  sender_eq : sender i = r.peer
  lt_received : n < H.received r nr i
  unused : ¬H.used i n

/-- The message is the `n`-th one of chain `i`. -/
structure At (m : SentMessage Key) (i n : ℕ) : Prop where
  pos : 0 < i
  le_turn : i ≤ H.turn m.sender
  sender_eq : sender i = m.sender
  lt_count : n < H.count i
  header_eq : m.header = H.header C i n
  key_eq : m.key = H.key C sk i n

/-- The party's state, read off the history. -/
structure PartyAt (r : Role) (st : RatchetState Secret Pub Key) : Prop where
  dhs : st.dhs = H.secret (H.turn r)
  rk : st.rk = H.rootKey C sk (H.turn r)
  ns : st.ns = H.count (H.turn r)
  pn : st.pn = H.count (H.turn r - 2)
  send_none : H.turn r = 0 → st.dhr = none ∧ st.cks = none
  dhr : ∀ k, H.turn r = k + 1 → st.dhr = some (C.publicKey (H.secret k))
  cks : ∀ k, H.turn r = k + 1 →
    st.cks = some (C.chainKey (H.startKey C sk (k + 1)) (H.count (k + 1)))
  recv_none : H.turn r ≤ 1 → st.ckr = none ∧ st.nr = 0
  ckr : ∀ k, H.turn r = k + 2 →
    st.ckr = some (C.chainKey (H.startKey C sk (k + 1)) st.nr)
  nr_le : ∀ k, H.turn r = k + 1 → st.nr ≤ H.count k
  skipped : Stores st.mkskipped (H.Awaited r st.nr) (H.name C) (H.key C sk)
  used_lt : ∀ i n, sender i = r.peer → H.used i n →
    0 < i ∧ i < H.turn r ∧ n < H.received r st.nr i

section Received

variable {H}

theorem received_newest {r : Role} {nr i : ℕ} (h : i + 1 = H.turn r) : H.received r nr i = nr :=
  if_pos h

theorem received_old {r : Role} {nr i : ℕ} (h : i + 1 ≠ H.turn r) :
    H.received r nr i = H.count i :=
  if_neg h

/-- A party that has followed its newest incoming chain to the end has followed them all. -/
theorem received_ended (r : Role) (i : ℕ) :
    H.received r (H.count (H.turn r - 1)) i = H.count i := by
  unfold received
  split
  · rw [show H.turn r - 1 = i by omega]
  · rfl

theorem awaited_iff {r : Role} {nr i n : ℕ} : H.Awaited r nr i n ↔ 0 < i ∧ i < H.turn r ∧
    sender i = r.peer ∧ n < H.received r nr i ∧ ¬H.used i n :=
  ⟨fun ⟨hpos, hlt, hs, hn, hu⟩ ↦ ⟨hpos, hlt, hs, hn, hu⟩,
    fun ⟨hpos, hlt, hs, hn, hu⟩ ↦ ⟨hpos, hlt, hs, hn, hu⟩⟩

end Received

/-! ### Keys determine turns -/

section Keys

variable {C sk H} (hC : C.Ideal sk)
include hC

theorem rootKey_injective : Function.Injective (H.rootKey C sk) :=
  KeyChain.root_injective (fun a d ↦ (C.kdfRk a d).1) (H.input C)
    (fun h ↦ (hC.root_inj h).1) (fun a d ↦ hC.root_ne_shared a d) (fun _ ↦ rfl)

/-- A key derived from the root key of turn `L` belongs to chain `L + 1`. -/
theorem key_eq_iff_turn {L i m n : ℕ} {d : Key} (hi : 0 < i)
    (h : C.messageKey (C.kdfRk (H.rootKey C sk L) d).2 m = H.key C sk i n) :
    i = L + 1 ∧ m = n := by
  obtain ⟨j, rfl⟩ := Nat.exists_eq_succ_of_ne_zero hi.ne'
  obtain ⟨hroot, hpos⟩ := hC.messageKey_inj h
  exact ⟨by rw [rootKey_injective hC hroot], hpos⟩

theorem key_inj {i j m n : ℕ} (hi : 0 < i) (hj : 0 < j)
    (h : H.key C sk i m = H.key C sk j n) : i = j ∧ m = n := by
  obtain ⟨k, rfl⟩ := Nat.exists_eq_succ_of_ne_zero hi.ne'
  obtain ⟨hik, hmn⟩ := key_eq_iff_turn hC hj h
  exact ⟨hik.symm, hmn⟩

end Keys

/-- The counters stay inside the chain: a party has received at most what was sent. -/
theorem PartyAt.received_le {C sk H} {r : Role} {st : RatchetState Secret Pub Key}
    (hp : PartyAt C sk H r st) (i : ℕ) : H.received r st.nr i ≤ H.count i := by
  by_cases h : i + 1 = H.turn r
  · rw [received_newest h]
    exact hp.nr_le i h.symm
  · rw [received_old h]

/-- The party's position is within the chain its next ratchet turn closes. -/
theorem PartyAt.nr_le_ended {C sk H} {r : Role} {st : RatchetState Secret Pub Key}
    (hp : PartyAt C sk H r st) : st.nr ≤ H.count (H.turn r - 1) := by
  cases hturn : H.turn r with
  | zero => rw [(hp.recv_none (by omega)).2]; exact Nat.zero_le _
  | succ k => exact hp.nr_le k hturn

/-! ### What the keys and a party's state depend on -/

section Congr

variable {C sk H} {H' : History Secret}

theorem rootKey_congr {j : ℕ} (h : ∀ i ≤ j, H'.secret i = H.secret i) :
    H'.rootKey C sk j = H.rootKey C sk j := by
  induction j with
  | zero => rfl
  | succ j ih =>
    rw [rootKey, rootKey, ih fun i hi ↦ h i (by omega), input, input, h j (by omega),
      h (j + 1) le_rfl]

theorem startKey_congr {j : ℕ} (h : ∀ i ≤ j, H'.secret i = H.secret i) :
    H'.startKey C sk j = H.startKey C sk j := by
  cases j with
  | zero => rfl
  | succ j =>
    rw [startKey, startKey, rootKey_congr fun i hi ↦ h i (by omega), input, input,
      h j (by omega), h (j + 1) le_rfl]

theorem key_congr {j n : ℕ} (h : ∀ i ≤ j, H'.secret i = H.secret i) :
    H'.key C sk j n = H.key C sk j n := by
  rw [key, key, startKey_congr h]

theorem name_congr {i : ℕ} (h : H'.secret i = H.secret i) : H'.name C i = H.name C i := by
  rw [name, name, h]

/-- A party sees the turns up to its own, the finished incoming chains and what it used itself;
the newest incoming chain may grow behind its back. -/
theorem PartyAt.congr {r : Role} {st : RatchetState Secret Pub Key} (hp : H.PartyAt C sk r st)
    (hturn : H'.turn r = H.turn r) (hsecret : ∀ i ≤ H.turn r, H'.secret i = H.secret i)
    (hcount : ∀ i ≤ H.turn r, i + 1 ≠ H.turn r → H'.count i = H.count i)
    (hzero : H'.count 0 = H.count 0)
    (hgrow : ∀ i, i + 1 = H.turn r → H.count i ≤ H'.count i)
    (hused : ∀ i n, sender i = r.peer → (H'.used i n ↔ H.used i n)) :
    H'.PartyAt C sk r st := by
  have hrecv : ∀ i ≤ H.turn r, H'.received r st.nr i = H.received r st.nr i := by
    intro i hi
    unfold received
    rw [hturn]
    split
    · rfl
    · exact hcount i hi (by assumption)
  constructor
  · rw [hturn, hsecret _ le_rfl, hp.dhs]
  · rw [hturn, rootKey_congr hsecret, hp.rk]
  · rw [hturn, hcount _ le_rfl (by omega), hp.ns]
  · rw [hturn, hp.pn]
    rcases Nat.lt_or_ge (H.turn r) 2 with hlt | hge
    · rw [show H.turn r - 2 = 0 by omega, hzero]
    · rw [hcount _ (by omega) (by omega)]
  · rw [hturn]
    exact hp.send_none
  · intro k hk
    rw [hturn] at hk
    rw [hp.dhr k hk, hsecret k (by omega)]
  · intro k hk
    rw [hturn] at hk
    rw [hp.cks k hk, startKey_congr fun i hi ↦ hsecret i (by omega),
      hcount (k + 1) (by omega) (by omega)]
  · rw [hturn]
    exact hp.recv_none
  · intro k hk
    rw [hturn] at hk
    rw [hp.ckr k hk, startKey_congr fun i hi ↦ hsecret i (by omega)]
  · intro k hk
    rw [hturn] at hk
    exact (hp.nr_le k hk).trans (hgrow k hk.symm)
  · refine hp.skipped.congr (fun i n ↦ ?_) (fun i n hi ↦ ?_) fun i n hi ↦ ?_
    · constructor
      · rintro ⟨hpos, hlt, hs, hn, hu⟩
        rw [hturn] at hlt
        exact ⟨hpos, hlt, hs, hrecv i hlt.le ▸ hn, fun h ↦ hu ((hused i n hs).2 h)⟩
      · rintro ⟨hpos, hlt, hs, hn, hu⟩
        exact ⟨hpos, hturn ▸ hlt, hs, (hrecv i hlt.le).symm ▸ hn,
          fun h ↦ hu ((hused i n hs).1 h)⟩
    · exact name_congr (hsecret i hi.lt_turn.le)
    · exact key_congr fun j hj ↦ hsecret j (hj.trans hi.lt_turn.le)
  · intro i n hs hu
    obtain ⟨hpos, hlt, hn⟩ := hp.used_lt i n hs ((hused i n hs).1 hu)
    rw [hturn, hrecv i hlt.le]
    exact ⟨hpos, hlt, hn⟩

end Congr

end History

end VoceChat
