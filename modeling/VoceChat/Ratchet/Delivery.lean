import VoceChat.Ratchet.Receive

/-!
# Deliveries against an ideal AEAD

The invariant `Agreed` says that both parties of a session sit in one history and that the record
of sealed and accepted messages is that of the same history. From it:

* `Agreed.of_ok` — whatever decrypts is a message the peer sealed, delivered for the first time;
* `Agreed.decryptStaged_ok` — a sealed message that was not accepted yet decrypts, provided no
  chain has to skip more than `maxSkip` keys for it.

Both walk through the three places a delivery can end up in: a stored key, the newest incoming
chain, a ratchet turn.
-/

namespace VoceChat

open Machine

variable {Secret Pub Key : Type} {C : Primitives Secret Pub Key} {sk : Key}

/-! ### The ideal AEAD -/

section Ideal

variable [DecidableEq Key] {log : List (SentMessage Key)} {key : Key} {ciphertext pt : Bytes}
variable {header : RatchetHeader}

theorem mem_of_idealOpen (h : idealOpen log key ciphertext header = .ok pt) :
    ∃ m ∈ log, m.key = key ∧ m.ciphertext = ciphertext ∧ m.header = header ∧ m.plaintext = pt := by
  unfold idealOpen at h
  split at h
  · rename_i m hm
    have hmem := List.mem_of_find?_eq_some hm
    have hprop := List.find?_some hm
    rw [decide_eq_true_iff] at hprop
    exact ⟨m, hmem, hprop.1, hprop.2.1, hprop.2.2, Except.ok.inj h⟩
  · cases h

theorem idealOpen_of_mem {m : SentMessage Key} (hm : m ∈ log) :
    ∃ pt, idealOpen log m.key m.ciphertext m.header = .ok pt := by
  unfold idealOpen
  split
  · exact ⟨_, rfl⟩
  · rename_i hnone
    exact absurd (List.find?_eq_none.1 hnone m hm) (by simp)

/-- Opening and then passing the plaintext on. -/
theorem mem_of_idealOpen_map {α : Type} {f : Bytes → α} {a : α}
    (h : (idealOpen log key ciphertext header).map f = .ok a) :
    ∃ m ∈ log, m.key = key ∧ m.ciphertext = ciphertext ∧ m.header = header ∧ f m.plaintext = a := by
  cases hopen : idealOpen log key ciphertext header with
  | error e =>
    rw [hopen] at h
    cases h
  | ok pt =>
    rw [hopen] at h
    obtain ⟨m, hm, hkey, hct, hheader, rfl⟩ := mem_of_idealOpen hopen
    exact ⟨m, hm, hkey, hct, hheader, Except.ok.inj h⟩

end Ideal

/-! ### Where a delivery ends up -/

namespace RatchetState

variable [DecidableEq Pub] {st : RatchetState Secret Pub Key} {opn : Opener Key} {fresh : Secret}
variable {header : RatchetHeader} {ciphertext : Bytes}

theorem decryptStaged_of_some {key : Key}
    (h : st.mkskipped.lookup (header.dhPubB64, header.n) = some key) :
    st.decryptStaged C opn fresh header ciphertext = (opn key ciphertext header).map fun pt ↦
      (pt, { st with mkskipped := st.mkskipped.erase (header.dhPubB64, header.n) }) := by
  rw [decryptStaged, trySkipped, h]
  simp only
  cases opn key ciphertext header <;> rfl

theorem decryptStaged_of_none (h : st.mkskipped.lookup (header.dhPubB64, header.n) = none) :
    st.decryptStaged C opn fresh header ciphertext =
      (C.decodePub header.dhPubB64).bind fun dhr ↦
        (st.turnTo C dhr header.pn fresh).bind fun st ↦ st.openNext C opn header ciphertext := by
  rw [decryptStaged, trySkipped, h]
  rfl

end RatchetState

namespace History.PartyAt

variable {H : History Secret} [DecidableEq Pub] {r : Role} {st : RatchetState Secret Pub Key}
variable (opn : Opener Key) (fresh : Secret) {header : RatchetHeader} (ciphertext : Bytes)

/-- A header that names the newest incoming chain. -/
theorem decryptStaged_current (hp : H.PartyAt C sk r st) {k : ℕ} (hturn : H.turn r = k + 2)
    (hnone : st.mkskipped.lookup (header.dhPubB64, header.n) = none)
    (hpub : C.decodePub header.dhPubB64 = .ok (C.publicKey (H.secret (k + 1)))) :
    ∃ m, RatchetState.SkipsTo C st.mkskipped m (C.publicKey (H.secret (k + 1)))
        (H.startKey C sk (k + 1)) st.nr header.n ∧
      st.decryptStaged C opn fresh header ciphertext =
        if saturatingAdd st.nr maxSkip < header.n then .error (.ratchet "too many skipped keys")
        else (opn (H.key C sk (k + 1) (max st.nr header.n)) ciphertext header).map fun pt ↦
          (pt, { st with
            ckr := some (C.chainKey (H.startKey C sk (k + 1)) (max st.nr header.n + 1))
            nr := wrappingAdd (max st.nr header.n) 1
            mkskipped := m }) := by
  obtain ⟨m, hm, hopen⟩ := RatchetState.openNext_of_chain (hp.dhr (k + 1) hturn) (hp.ckr k hturn)
    opn header ciphertext
  refine ⟨m, hm, ?_⟩
  rw [RatchetState.decryptStaged_of_none hnone, hpub, Except.bind,
    RatchetState.turnTo, if_pos (hp.dhr (k + 1) hturn), Except.bind]
  exact hopen

/-- A header that names any other remote key. -/
theorem decryptStaged_turn (hp : H.PartyAt C sk r st) (hparity : sender (H.turn r) = r)
    (hname : H.Named C (H.turn r)) {p : Pub}
    (hnone : st.mkskipped.lookup (header.dhPubB64, header.n) = none)
    (hpub : C.decodePub header.dhPubB64 = .ok p) (hne : st.dhr ≠ some p) :
    ∃ m m', (st.nr ≤ header.pn → Stores m (H.Awaited r header.pn) (H.name C) (H.key C sk)) ∧
      RatchetState.SkipsTo C m m' p (C.kdfRk st.rk (C.diffieHellman st.dhs p)).2 0 header.n ∧
      st.decryptStaged C opn fresh header ciphertext =
        if saturatingAdd st.nr maxSkip < header.pn then
          .error (.ratchet "too many skipped keys")
        else if saturatingAdd 0 maxSkip < header.n then
          .error (.ratchet "too many skipped keys")
        else (opn (C.messageKey (C.kdfRk st.rk (C.diffieHellman st.dhs p)).2 header.n) ciphertext
            header).map fun pt ↦
          (pt, { { st with mkskipped := m }.dhRatchet C p fresh with
            ckr := some (C.chainKey (C.kdfRk st.rk (C.diffieHellman st.dhs p)).2 (header.n + 1))
            nr := wrappingAdd header.n 1
            mkskipped := m' }) := by
  obtain ⟨m, hm, hturn⟩ := hp.turnTo_of_ne hparity hname hne header.pn fresh
  let turned := { st with mkskipped := m }.dhRatchet C p fresh
  obtain ⟨m', hm', hopen⟩ := RatchetState.openNext_of_chain (show turned.dhr = some p from rfl)
    (show turned.ckr = some (C.chainKey _ turned.nr) from rfl) opn header ciphertext
  refine ⟨m, m', hm, hm', ?_⟩
  rw [RatchetState.decryptStaged_of_none hnone, hpub, Except.bind]
  simp only
  rw [hturn]
  split
  · rfl
  · rw [Except.bind, hopen]
    simp only [turned, RatchetState.dhRatchet, Nat.zero_max]

end History.PartyAt

/-! ### Two parties in one history -/

/-- `H` is the history of the recorded messages. -/
structure Recorded (C : Primitives Secret Pub Key) (sk : Key) (H : History Secret)
    (s : Session Secret Pub Key) : Prop where
  parity : ∀ r, History.sender (H.turn r) = r
  near : ∀ r, H.turn r ≤ H.turn r.peer + 1
  named : ∀ r, H.Named C (H.turn r + 1)
  drawn : ∀ r, ∀ i ≤ H.turn r, H.secret i ∈ s.drawn
  count_zero : H.count 0 = 0
  count_new : ∀ i, (∀ r, H.turn r < i) → H.count i = 0
  count_lt : ∀ i, H.count i + 101 < u32Size
  sent : ∀ m ∈ s.sent, ∃ i n, H.At C sk m i n ∧
    ((m.sender.peer, m.header, m.ciphertext) ∈ s.accepted ↔ H.used i n)
  unique : ∀ m ∈ s.sent, ∀ m' ∈ s.sent, m.header = m'.header → m = m'
  accepted : ∀ a ∈ s.accepted, ∃ m ∈ s.sent, a = (m.sender.peer, m.header, m.ciphertext)

/-- Both parties sit in the history of the recorded messages. -/
structure Agreed (C : Primitives Secret Pub Key) (sk : Key) (H : History Secret)
    (s : Session Secret Pub Key) : Prop extends Recorded C sk H s where
  party : ∀ r, H.PartyAt C sk r (s.party r)

namespace Recorded

variable {H : History Secret} {s : Session Secret Pub Key}

/-- The two parties are never at the same turn, nor two turns apart. -/
theorem turn_peer (hI : Recorded C sk H s) (r : Role) :
    H.turn r.peer = H.turn r + 1 ∨ H.turn r = H.turn r.peer + 1 := by
  have hle := hI.near r
  have hge := hI.near r.peer
  rw [Role.peer_peer] at hge
  have hne : H.turn r.peer ≠ H.turn r := by
    intro h
    have hpar := hI.parity r.peer
    rw [h, hI.parity r] at hpar
    exact r.ne_peer hpar
  omega

/-- The chains of both parties carry different names. -/
theorem name_inj (hI : Recorded C sk H s) {q q' : Role} {i j : ℕ} (hi : i ≤ H.turn q)
    (hj : j ≤ H.turn q') (h : H.name C i = H.name C j) : i = j := by
  rcases Nat.le_total (H.turn q) (H.turn q') with hle | hle
  · exact hI.named q' i j (by omega) (by omega) h
  · exact hI.named q i j (by omega) (by omega) h

end Recorded

namespace Agreed

variable {H : History Secret} {s : Session Secret Pub Key}

/-- A chain of the peer is one this party has left behind, its newest one, or the next. -/
theorem incoming_cases (hI : Agreed C sk H s) {r : Role} {i : ℕ} (hs : History.sender i = r.peer)
    (hi : i ≤ H.turn r.peer) : i < H.turn r ∨ i = H.turn r + 1 := by
  have hne : i ≠ H.turn r := by
    rintro rfl
    exact r.ne_peer ((hI.parity r).symm.trans hs)
  rcases hI.turn_peer r with h | h <;> omega

variable [DecidableEq Pub] [DecidableEq Key]

/-- The delivery read message `n` of chain `i`: one the peer sealed and that was not accepted
before. The party follows, with a turn of its own if the message announced a new chain. -/
def Reads (C : Primitives Secret Pub Key) (sk : Key) (H : History Secret)
    (r : Role) (fresh : Secret) (m : SentMessage Key)
    (st : RatchetState Secret Pub Key) : Prop :=
  ∃ i n, H.At C sk m i n ∧ m.sender = r.peer ∧ ¬H.used i n ∧
    ∃ H', (H' = H ∨ i = H.turn r + 1 ∧ H' = H.advance r fresh) ∧ (H'.accept i n).PartyAt C sk r st

variable {r : Role} {fresh : Secret} {header : RatchetHeader} {ciphertext pt : Bytes}
variable {st' : RatchetState Secret Pub Key}

theorem of_ok_skipped (hC : C.Ideal sk) (hI : Agreed C sk H s) {key : Key}
    (hkey : (s.party r).mkskipped.lookup (header.dhPubB64, header.n) = some key)
    (h : (s.party r).decryptStaged C (idealOpen s.sent) fresh header ciphertext = .ok (pt, st')) :
    ∃ m ∈ s.sent, m.header = header ∧ m.ciphertext = ciphertext ∧ m.plaintext = pt ∧
      Reads C sk H r fresh m st' := by
  obtain ⟨i, hi, hd, rfl⟩ := ((hI.party r).skipped _ _ _).1 hkey
  rw [RatchetState.decryptStaged_of_some hkey] at h
  obtain ⟨m, hm, hmkey, hct, hheader, hres⟩ := mem_of_idealOpen_map h
  obtain ⟨rfl, rfl⟩ := Prod.ext_iff.1 hres
  obtain ⟨j, n, hat, -⟩ := hI.sent m hm
  obtain ⟨rfl, rfl⟩ := History.key_inj hC hat.pos hi.pos (hat.key_eq.symm.trans hmkey)
  refine ⟨m, hm, hheader, hct, rfl, j, header.n, hat, hat.sender_eq.symm.trans hi.sender_eq,
    hi.unused, H, .inl rfl, ?_⟩
  rw [hd]
  exact (hI.party r).take_skipped (fun a b ha hb ↦ hI.named r a b (by omega) (by omega)) hi

omit [DecidableEq Pub] [DecidableEq Key] in
/-- The key at the party's own position or later in its newest chain has not been used. -/
theorem not_used_of_le (hI : Agreed C sk H s) {i n : ℕ} (hturn : i + 1 = H.turn r)
    (hn : (s.party r).nr ≤ n) : ¬H.used i n := by
  intro hu
  have hs : History.sender i = r.peer := History.sender_eq_peer (hturn ▸ hI.parity r)
  have hlt := ((hI.party r).used_lt i n hs hu).2.2
  rw [History.received_newest hturn] at hlt
  omega

theorem of_ok_current (hC : C.Ideal sk) (hI : Agreed C sk H s)
    (hnone : (s.party r).mkskipped.lookup (header.dhPubB64, header.n) = none) {p : Pub}
    (hpub : C.decodePub header.dhPubB64 = .ok p) (hdhr : (s.party r).dhr = some p)
    (h : (s.party r).decryptStaged C (idealOpen s.sent) fresh header ciphertext = .ok (pt, st')) :
    ∃ m ∈ s.sent, m.header = header ∧ m.ciphertext = ciphertext ∧ m.plaintext = pt ∧
      Reads C sk H r fresh m st' := by
  have hp := hI.party r
  rcases Nat.lt_or_ge (H.turn r) 2 with hlt | hge
  · -- a party that has not received a turn yet has no chain to read from
    rw [RatchetState.decryptStaged_of_none hnone, hpub, Except.bind, RatchetState.turnTo,
      if_pos hdhr, Except.bind] at h
    obtain ⟨e, he⟩ := RatchetState.openNext_of_none (C := C) (hp.recv_none (by omega)).1
      (idealOpen s.sent) header ciphertext
    rw [he] at h
    cases h
  · obtain ⟨k, hk⟩ := Nat.exists_eq_add_of_le' hge
    obtain rfl := Option.some_inj.1 (hdhr.symm.trans (hp.dhr (k + 1) hk))
    obtain ⟨skipped, hskip, hres⟩ := hp.decryptStaged_current (idealOpen s.sent) fresh
      ciphertext hk hnone hpub
    rw [hres] at h
    split at h
    · cases h
    · obtain ⟨m, hm, hmkey, hct, hheader, hpair⟩ := mem_of_idealOpen_map h
      obtain ⟨rfl, rfl⟩ := Prod.ext_iff.1 hpair
      obtain ⟨j, n, hat, -⟩ := hI.sent m hm
      obtain ⟨rfl, hn⟩ := History.key_inj hC hat.pos k.succ_pos (hat.key_eq.symm.trans hmkey)
      -- the genuine header has the very index the key was taken at
      have hidx : header.n = n := by rw [← hheader, hat.header_eq]; rfl
      obtain rfl : header.n = n := hidx
      have hle : (s.party r).nr ≤ header.n := by omega
      have hroom := hI.count_lt (k + 1)
      have hlt : header.n < H.count (k + 1) := hat.lt_count
      have hs : History.sender (k + 1) = r.peer := History.sender_eq_peer (hk ▸ hI.parity r)
      refine ⟨m, hm, hheader, hct, rfl, k + 1, header.n, hat, hat.sender_eq.symm.trans hs,
        hI.not_used_of_le hk.symm hle, H, .inl rfl, ?_⟩
      rw [max_eq_right hle, wrappingAdd_of_lt (by omega)]
      exact hp.take_current (fun a b ha hb ↦ hI.named r a b (by omega) (by omega)) hk hs hle hlt
        hskip

theorem of_ok_turn (hC : C.Ideal sk) (hI : Agreed C sk H s)
    (hnone : (s.party r).mkskipped.lookup (header.dhPubB64, header.n) = none) {p : Pub}
    (hpub : C.decodePub header.dhPubB64 = .ok p) (hdhr : (s.party r).dhr ≠ some p)
    (h : (s.party r).decryptStaged C (idealOpen s.sent) fresh header ciphertext = .ok (pt, st')) :
    ∃ m ∈ s.sent, m.header = header ∧ m.ciphertext = ciphertext ∧ m.plaintext = pt ∧
      Reads C sk H r fresh m st' := by
  have hp := hI.party r
  obtain ⟨stored, skipped, hstored, hskip, hres⟩ := hp.decryptStaged_turn (idealOpen s.sent) fresh
    ciphertext (hI.parity r) (fun a b ha hb ↦ hI.named r a b (by omega) (by omega)) hnone hpub hdhr
  rw [hres] at h
  split at h
  · cases h
  split at h
  · cases h
  obtain ⟨m, hm, hmkey, hct, hheader, hpair⟩ := mem_of_idealOpen_map h
  obtain ⟨rfl, rfl⟩ := Prod.ext_iff.1 hpair
  obtain ⟨j, n, hat, -⟩ := hI.sent m hm
  -- whatever remote key was named, a sealed message can only open under the next genuine chain
  rw [hp.rk, hat.key_eq] at hmkey
  obtain ⟨rfl, rfl⟩ := History.key_eq_iff_turn hC hat.pos hmkey.symm
  have hdecode : C.decodePub header.dhPubB64 = .ok (C.publicKey (H.secret (H.turn r + 1))) := by
    rw [← hheader, hat.header_eq]
    exact hC.decode_encode _
  obtain rfl := Except.ok.inj (hpub.symm.trans hdecode)
  have hpn : header.pn = H.count (H.turn r - 1) := by
    rw [← hheader, hat.header_eq]
    rfl
  have hs : m.sender = r.peer := by
    rw [← hat.sender_eq, History.sender_succ, hI.parity]
  have hpeer : H.turn r.peer = H.turn r + 1 := by
    have := hs ▸ hat.le_turn
    have := hI.near r.peer
    rw [Role.peer_peer] at this
    omega
  have hnew : H.count (H.turn r + 2) = 0 := hI.count_new _ fun q ↦ by
    rcases Role.eq_or_eq_peer r q with rfl | rfl <;> omega
  have hroom := hI.count_lt (H.turn r + 1)
  have hlt := hat.lt_count
  rw [hpn] at hstored
  have hturned := hp.take_turn hC (hI.parity r) fresh hnew (hstored hp.nr_le_ended)
  have hskip' : RatchetState.SkipsTo C stored skipped
      (C.publicKey ((H.advance r fresh).secret (H.turn r + 1)))
      ((H.advance r fresh).startKey C sk (H.turn r + 1)) 0 header.n := by
    rw [hp.kdfRk_next hC] at hskip
    rw [History.advance_secret_of_lt (by omega),
      History.startKey_congr fun i hi ↦ History.advance_secret_of_lt (by omega)]
    exact hskip
  refine ⟨m, hm, hheader, hct, rfl, H.turn r + 1, header.n, hat, hs, ?_, H.advance r fresh,
    .inr ⟨rfl, rfl⟩, ?_⟩
  · intro hu
    have := (hp.used_lt _ _ (hat.sender_eq.trans hs) hu).2.1
    omega
  · have hname : (H.advance r fresh).Named C ((H.advance r fresh).turn r) := by
      have hnamed := hI.named r.peer
      rw [hpeer] at hnamed
      rw [History.advance_turn_self]
      exact hnamed.advance fresh
    rw [wrappingAdd_of_lt (by omega), hp.kdfRk_next hC]
    have hread := hturned.take_current hname (History.advance_turn_self ..)
      (hat.sender_eq.trans hs) (Nat.zero_le _) hlt hskip'
    rw [History.startKey_congr fun i hi ↦ History.advance_secret_of_lt (by omega)] at hread
    exact hread

/-- **Soundness.** Whatever decrypts was sealed by the peer and is read for the first time. -/
theorem of_ok (hC : C.Ideal sk) (hI : Agreed C sk H s)
    (h : (s.party r).decryptStaged C (idealOpen s.sent) fresh header ciphertext = .ok (pt, st')) :
    ∃ m ∈ s.sent, m.header = header ∧ m.ciphertext = ciphertext ∧ m.plaintext = pt ∧
      Reads C sk H r fresh m st' := by
  cases hkey : (s.party r).mkskipped.lookup (header.dhPubB64, header.n) with
  | some key => exact hI.of_ok_skipped hC hkey h
  | none =>
    cases hpub : C.decodePub header.dhPubB64 with
    | error e =>
      rw [RatchetState.decryptStaged_of_none hkey, hpub] at h
      cases h
    | ok p =>
      by_cases hdhr : (s.party r).dhr = some p
      · exact hI.of_ok_current hC hkey hpub hdhr h
      · exact hI.of_ok_turn hC hkey hpub hdhr h

omit [DecidableEq Pub] in
/-- Messages of a session are told apart by their headers, so the ideal AEAD returns their own
plaintexts. -/
theorem idealOpen_sent (hI : Agreed C sk H s) {m : SentMessage Key} (hm : m ∈ s.sent) :
    idealOpen s.sent m.key m.ciphertext m.header = .ok m.plaintext := by
  obtain ⟨pt, hpt⟩ := idealOpen_of_mem hm
  obtain ⟨m', hm', -, -, hheader, rfl⟩ := mem_of_idealOpen hpt
  rw [hpt, hI.unique m' hm' m hm hheader]

omit [DecidableEq Pub] [DecidableEq Key] in
/-- A message no key is stored for: its chain has not been followed that far. -/
theorem lookup_eq_none (hI : Agreed C sk H s) {i n L : ℕ} (hL : H.Named C L) (hi : i < L)
    (hturn : H.turn r ≤ L) (hn : ¬H.Awaited r (s.party r).nr i n) :
    (s.party r).mkskipped.lookup (H.name C i, n) = none := by
  rw [Option.eq_none_iff_forall_ne_some]
  intro key hkey
  obtain ⟨j, hj, hd, -⟩ := ((hI.party r).skipped _ _ _).1 hkey
  exact hn (hL i j hi (hj.lt_turn.trans_le hturn) hd ▸ hj)

/-- **Completeness.** A message of the peer that was not read yet decrypts to its plaintext, as
long as no chain has to skip more than `maxSkip` keys. -/
theorem decryptStaged_ok (hC : C.Ideal sk) (hI : Agreed C sk H s) {m : SentMessage Key}
    (hm : m ∈ s.sent) (hs : m.sender = r.peer)
    (hunread : (r, m.header, m.ciphertext) ∉ s.accepted)
    (hskip : (s.party r).keysToSkip C m.header ≤ maxSkip) :
    ∃ st', (s.party r).decryptStaged C (idealOpen s.sent) fresh m.header m.ciphertext =
      .ok (m.plaintext, st') := by
  have hp := hI.party r
  obtain ⟨i, n, hat, hacc⟩ := hI.sent m hm
  have hunused : ¬H.used i n := fun hu ↦ hunread (by
    have := hacc.2 hu
    rwa [hs, Role.peer_peer] at this)
  have hopen := hI.idealOpen_sent hm
  have hsender : History.sender i = r.peer := hat.sender_eq.trans hs
  have hpub : C.decodePub m.header.dhPubB64 = .ok (C.publicKey (H.secret i)) := by
    rw [hat.header_eq]
    exact hC.decode_encode _
  have hd : m.header.dhPubB64 = H.name C i := by rw [hat.header_eq]; rfl
  have hidx : m.header.n = n := by rw [hat.header_eq]; rfl
  have hroom := hI.count_lt (H.turn r - 1)
  have hnr := hp.nr_le_ended
  rcases hI.incoming_cases hsender (hs ▸ hat.le_turn) with hlt | rfl
  · by_cases hn : n < H.received r (s.party r).nr i
    · -- passed over earlier: its key is stored
      have hlook := hp.skipped.lookup_eq_some ⟨hat.pos, hlt, hsender, hn, hunused⟩
      rw [← hd, ← hidx] at hlook
      rw [RatchetState.decryptStaged_of_some hlook, hidx, ← hat.key_eq, hopen]
      exact ⟨_, rfl⟩
    · -- not reached yet: its chain is the newest one
      have hnew : i + 1 = H.turn r := by
        by_contra hold
        rw [History.received_old hold] at hn
        exact hn hat.lt_count
      rw [History.received_newest hnew] at hn
      obtain ⟨k, rfl⟩ := Nat.exists_eq_succ_of_ne_zero hat.pos.ne'
      have hnone : (s.party r).mkskipped.lookup (m.header.dhPubB64, m.header.n) = none := by
        rw [hd, hidx]
        refine hI.lookup_eq_none (hI.named r) (by omega) (Nat.le_succ _) fun h ↦ hn ?_
        have hreceived := h.lt_received
        rwa [History.received_newest hnew] at hreceived
      obtain ⟨skipped, -, hres⟩ := hp.decryptStaged_current (idealOpen s.sent) fresh m.ciphertext
        hnew.symm hnone hpub
      rw [RatchetState.keysToSkip, hnone, hpub] at hskip
      simp only [hp.dhr (k + 1) hnew.symm, if_true] at hskip
      rw [hres, saturatingAdd_of_lt (by unfold maxSkip; omega), if_neg (by omega), hidx,
        max_eq_right (by omega), ← hat.key_eq, hopen]
      exact ⟨_, rfl⟩
  · -- the peer's next chain: a ratchet turn
    have hpeer : H.turn r.peer = H.turn r + 1 := by
      have := hs ▸ hat.le_turn
      have := hI.near r.peer
      rw [Role.peer_peer] at this
      omega
    have hnamed := hI.named r.peer
    rw [hpeer] at hnamed
    have hnone : (s.party r).mkskipped.lookup (m.header.dhPubB64, m.header.n) = none := by
      rw [hd, hidx]
      exact hI.lookup_eq_none hnamed (by omega) (by omega) fun h ↦
        absurd h.lt_turn (by omega)
    have hne : (s.party r).dhr ≠ some (C.publicKey (H.secret (H.turn r + 1))) := by
      intro heq
      cases hturn : H.turn r with
      | zero =>
        rw [(hp.send_none hturn).1] at heq
        cases heq
      | succ k =>
        rw [hp.dhr k hturn, Option.some_inj] at heq
        have := hnamed k (H.turn r + 1) (by omega) (by omega) (congrArg C.encodePub heq)
        omega
    obtain ⟨stored, skipped, -, -, hres⟩ := hp.decryptStaged_turn (idealOpen s.sent) fresh
      m.ciphertext (hI.parity r) (fun a b ha hb ↦ hI.named r a b (by omega) (by omega)) hnone
      hpub hne
    have hpn : m.header.pn = H.count (H.turn r - 1) := by
      rw [hat.header_eq]
      rfl
    rw [RatchetState.keysToSkip, hnone, hpub] at hskip
    simp only [if_neg hne, Nat.max_le] at hskip
    have hkey : m.key = C.messageKey
        (C.kdfRk (s.party r).rk (C.diffieHellman (s.party r).dhs
          (C.publicKey (H.secret (H.turn r + 1))))).2 m.header.n := by
      rw [hat.key_eq, hp.kdfRk_next hC, hidx]
      rfl
    rw [hres, saturatingAdd_of_lt (by unfold maxSkip; omega), if_neg (by omega),
      saturatingAdd_of_lt (by decide), if_neg (by omega), ← hkey, hopen]
    exact ⟨_, rfl⟩

end Agreed

end VoceChat
