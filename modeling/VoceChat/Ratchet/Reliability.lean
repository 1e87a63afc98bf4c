import VoceChat.Ratchet.Delivery

/-!
# Reliability of the Double Ratchet

`Agreed` holds in every state a session can reach: it holds for the two initial states, sealing a
message keeps it (`Agreed.encrypt`) and so does every delivery, genuine or not
(`Agreed.deliver`). The guarantee of `decrypt` then follows in every reachable state.
-/

namespace VoceChat

open Machine

variable {Secret Pub Key : Type} {C : Primitives Secret Pub Key} {sk : Key}

/-! ### The initial pair -/

namespace History

/-- Bob's prekey is turn `0`, Alice's first secret turn `1`; nothing was sent. -/
def start (aliceSecret bobSpkSecret : Secret) : History Secret where
  secret i := if i = 0 then bobSpkSecret else aliceSecret
  count _ := 0
  turn
    | .alice => 1
    | .bob => 0
  used _ _ := False

variable {a b : Secret}

theorem partyAt_initAlice :
    (start a b).PartyAt C sk .alice (RatchetState.initAlice C sk a (C.publicKey b)) where
  dhs := rfl
  rk := rfl
  ns := rfl
  pn := rfl
  send_none := fun h ↦ absurd h Nat.one_ne_zero
  dhr := fun k hk ↦ by
    obtain rfl : k = 0 := by simpa [start] using hk.symm
    rfl
  cks := fun k hk ↦ by
    obtain rfl : k = 0 := by simpa [start] using hk.symm
    rfl
  recv_none := fun _ ↦ ⟨rfl, rfl⟩
  ckr := fun k hk ↦ absurd hk (by simp [start])
  nr_le := fun _ _ ↦ le_rfl
  skipped := fun d n k ↦ iff_of_false nofun fun ⟨i, hi, _⟩ ↦ by
    have hpos := hi.pos
    have hlt : i < 1 := hi.lt_turn
    omega
  used_lt := fun _ _ _ h ↦ h.elim

theorem partyAt_initBob :
    (start a b).PartyAt C sk .bob (RatchetState.initBob sk b : RatchetState Secret Pub Key) where
  dhs := rfl
  rk := rfl
  ns := rfl
  pn := rfl
  send_none := fun _ ↦ ⟨rfl, rfl⟩
  dhr := fun k hk ↦ absurd hk (by simp [start])
  cks := fun k hk ↦ absurd hk (by simp [start])
  recv_none := fun _ ↦ ⟨rfl, rfl⟩
  ckr := fun k hk ↦ absurd hk (by simp [start])
  nr_le := fun _ _ ↦ le_rfl
  skipped := fun d n k ↦ iff_of_false nofun fun ⟨i, hi, _⟩ ↦ by
    have hlt : i < 0 := hi.lt_turn
    omega
  used_lt := fun _ _ _ h ↦ h.elim

/-! ### Sealing a message -/

/-- The history in which one more message key of chain `i` was used. -/
def bump (H : History Secret) (i : ℕ) : History Secret :=
  { H with count := Function.update H.count i (H.count i + 1) }

variable {H : History Secret}

@[simp] theorem bump_count_self (i : ℕ) : (H.bump i).count i = H.count i + 1 :=
  Function.update_self ..

theorem bump_count_of_ne {i j : ℕ} (h : j ≠ i) : (H.bump i).count j = H.count j :=
  Function.update_of_ne h _ _

theorem bump_key (i j n : ℕ) : (H.bump i).key C sk j n = H.key C sk j n :=
  key_congr fun _ _ ↦ rfl

theorem bump_rootKey (i j : ℕ) : (H.bump i).rootKey C sk j = H.rootKey C sk j :=
  rootKey_congr fun _ _ ↦ rfl

theorem bump_startKey (i j : ℕ) : (H.bump i).startKey C sk j = H.startKey C sk j :=
  startKey_congr fun _ _ ↦ rfl

/-- The sender's own state after one step of its sending chain. -/
theorem PartyAt.step_chain {r : Role} {st : RatchetState Secret Pub Key} {k : ℕ}
    (hp : H.PartyAt C sk r st) (hturn : H.turn r = k + 1)
    (hroom : H.count (k + 1) + 1 < u32Size) :
    (H.bump (k + 1)).PartyAt C sk r { st with
      cks := some (C.kdfCk (C.chainKey (H.startKey C sk (k + 1)) (H.count (k + 1)))).2
      ns := wrappingAdd st.ns 1 } := by
  have hsame : ∀ i, i ≤ k → (H.bump (k + 1)).count i = H.count i := fun i hi ↦
    bump_count_of_ne (by omega)
  have hrecv : ∀ i < H.turn r, (H.bump (k + 1)).received r st.nr i = H.received r st.nr i := by
    intro i hi
    unfold received
    rw [hsame i (by omega)]
    rfl
  constructor
  · exact hp.dhs
  · rw [bump_rootKey]
    exact hp.rk
  · change wrappingAdd st.ns 1 = (H.bump (k + 1)).count (H.turn r)
    rw [hp.ns, hturn, wrappingAdd_of_lt hroom, bump_count_self]
  · exact hp.pn.trans (hsame (H.turn r - 2) (by omega)).symm
  · exact fun h ↦ absurd (hturn.symm.trans h) (Nat.succ_ne_zero k)
  · exact hp.dhr
  · intro j hj
    obtain rfl : j = k := Nat.succ_injective (hj.symm.trans hturn)
    rw [bump_count_self, C.chainKey_succ, bump_startKey]
  · exact hp.recv_none
  · intro j hj
    rw [bump_startKey]
    exact hp.ckr j hj
  · intro j hj
    obtain rfl : j = k := Nat.succ_injective (hj.symm.trans hturn)
    exact (hp.nr_le j hturn).trans_eq (hsame j le_rfl).symm
  · refine hp.skipped.congr (fun i n ↦ ?_) (fun _ _ _ ↦ rfl) fun _ _ _ ↦ bump_key ..
    rw [awaited_iff, awaited_iff]
    refine and_congr_right fun _ ↦ and_congr_right fun hi ↦ ?_
    rw [hrecv i hi]
    rfl
  · intro i n hs hu
    obtain ⟨hpos, hlt, hn⟩ := hp.used_lt i n hs hu
    exact ⟨hpos, hlt, (hrecv i hlt).symm ▸ hn⟩

end History

namespace Agreed

variable {H : History Secret} {s : Session Secret Pub Key} {r : Role}

/-- `Agreed` for the initial pair. Alice's secret is fresh: it is not Bob's prekey. -/
theorem init (hC : C.Ideal sk) {a b : Secret} (hne : C.publicKey a ≠ C.publicKey b) :
    Agreed C sk (History.start a b) (Session.init C sk a b) where
  party
    | .alice => History.partyAt_initAlice
    | .bob => History.partyAt_initBob
  parity
    | .alice => rfl
    | .bob => rfl
  near
    | .alice => le_rfl
    | .bob => Nat.zero_le _
  named := fun r i j hi hj h ↦ by
    have hle : (History.start a b).turn r ≤ 1 := by
      cases r
      · exact le_rfl
      · exact Nat.zero_le _
    have hpub := hC.encodePub_inj h
    obtain rfl | rfl : i = 0 ∨ i = 1 := by omega
    all_goals obtain rfl | rfl : j = 0 ∨ j = 1 := by omega
    · rfl
    · exact absurd hpub.symm hne
    · exact absurd hpub hne
    · rfl
  drawn := fun r i _ ↦ by
    change (if i = 0 then b else a) ∈ [a, b]
    split <;> simp
  count_zero := rfl
  count_new := fun _ _ ↦ rfl
  count_lt := fun _ ↦ by
    change 0 + 101 < u32Size
    decide
  sent := by simp [Session.init]
  unique := by simp [Session.init]
  accepted := by simp [Session.init]

/-! ### Sealing -/

/-- Only the sending chain moves. -/
theorem party_bump (hI : Agreed C sk H s) {k : ℕ} (hturn : H.turn r = k + 1)
    (hroom : H.count (k + 1) + 1 < u32Size) (q : Role) :
    (H.bump (k + 1)).PartyAt C sk q (Function.update s.party r { s.party r with
      cks := some (C.kdfCk (C.chainKey (H.startKey C sk (k + 1)) (H.count (k + 1)))).2
      ns := wrappingAdd (s.party r).ns 1 } q) := by
  rcases Role.eq_or_eq_peer r q with rfl | rfl
  · rw [Function.update_self]
    exact (hI.party q).step_chain hturn hroom
  · rw [Function.update_of_ne r.peer_ne]
    have hturns := hI.turn_peer r
    refine (hI.party r.peer).congr rfl (fun _ _ ↦ rfl) (fun i hi hne ↦ ?_) ?_ (fun i _ ↦ ?_)
      fun _ _ _ ↦ Iff.rfl
    · exact History.bump_count_of_ne (by omega)
    · exact History.bump_count_of_ne (by omega)
    · by_cases h : i = k + 1
      · rw [h, History.bump_count_self]
        exact Nat.le_succ _
      · rw [History.bump_count_of_ne h]

theorem at_bump (hI : Agreed C sk H s) {k : ℕ} (hturn : H.turn r = k + 1)
    {m : SentMessage Key} {i n : ℕ} (hat : H.At C sk m i n) :
    (H.bump (k + 1)).At C sk m i n where
  pos := hat.pos
  le_turn := hat.le_turn
  sender_eq := hat.sender_eq
  lt_count := by
    by_cases h : i = k + 1
    · rw [h, History.bump_count_self]
      exact Nat.lt_succ_of_lt (h ▸ hat.lt_count)
    · rw [History.bump_count_of_ne h]
      exact hat.lt_count
  header_eq := by
    have hne : i - 2 ≠ k + 1 := by
      have hle := hat.le_turn
      rcases Role.eq_or_eq_peer r m.sender with h | h
      · rw [h] at hle
        omega
      · rw [h] at hle
        have := hI.near r.peer
        rw [Role.peer_peer] at this
        omega
    rw [hat.header_eq, History.header, History.header, History.bump_count_of_ne hne]
    rfl
  key_eq := hat.key_eq.trans (History.bump_key ..).symm

/-- The sending chain moves on, whatever becomes of the message. -/
theorem move_chain (hI : Agreed C sk H s) {k : ℕ} (hturn : H.turn r = k + 1)
    (hroom : H.count (k + 1) + 1 + 101 < u32Size) :
    Agreed C sk (H.bump (k + 1)) { s with party := Function.update s.party r { s.party r with
      cks := some (C.kdfCk (C.chainKey (H.startKey C sk (k + 1)) (H.count (k + 1)))).2
      ns := wrappingAdd (s.party r).ns 1 } } where
  party := hI.party_bump hturn (by omega)
  parity := hI.parity
  near := hI.near
  named := hI.named
  drawn := hI.drawn
  count_zero := (History.bump_count_of_ne (Nat.succ_ne_zero k).symm).trans hI.count_zero
  count_new := fun i hi ↦ by
    have := hi r
    change H.turn r < i at this
    rw [History.bump_count_of_ne (by omega)]
    exact hI.count_new i hi
  count_lt := fun i ↦ by
    by_cases h : i = k + 1
    · rw [h, History.bump_count_self]
      exact hroom
    · rw [History.bump_count_of_ne h]
      exact hI.count_lt i
  sent := fun m hm ↦ by
    obtain ⟨i, n, hat, hacc⟩ := hI.sent m hm
    exact ⟨i, n, hI.at_bump hturn hat, hacc⟩
  unique := hI.unique
  accepted := hI.accepted

/-- A sealed message joins the record. -/
theorem record (hI : Agreed C sk H s) {m : SentMessage Key} {i n : ℕ} (hat : H.At C sk m i n)
    (hunused : ¬H.used i n) (hnew : ∀ m' ∈ s.sent, m'.header ≠ m.header) :
    Agreed C sk H { s with sent := s.sent ++ [m] } where
  party := hI.party
  parity := hI.parity
  near := hI.near
  named := hI.named
  drawn := hI.drawn
  count_zero := hI.count_zero
  count_new := hI.count_new
  count_lt := hI.count_lt
  sent := by
    simp only [List.mem_append, List.mem_singleton]
    rintro m' (hm' | rfl)
    · exact hI.sent m' hm'
    · refine ⟨i, n, hat, iff_of_false (fun hacc ↦ ?_) hunused⟩
      obtain ⟨m, hm, heq⟩ := hI.accepted _ hacc
      exact hnew m hm (congrArg (·.2.1) heq).symm
  unique := by
    simp only [List.mem_append, List.mem_singleton]
    rintro m₁ (h₁ | rfl) m₂ (h₂ | rfl) heq
    · exact hI.unique m₁ h₁ m₂ h₂ heq
    · exact absurd heq (hnew m₁ h₁)
    · exact absurd heq.symm (hnew m₂ h₂)
    · rfl
  accepted := fun a ha ↦ by
    obtain ⟨m', hm', heq⟩ := hI.accepted a ha
    exact ⟨m', List.mem_append_left _ hm', heq⟩

variable [DecidableEq Pub] [DecidableEq Key]

/-- `encrypt` keeps the agreement; at most the sender's newest chain moves. -/
theorem encrypt (hI : Agreed C sk H s) {plaintext : Bytes} {t : Session Secret Pub Key}
    (hroom : s.ChainRoom (.encrypt r plaintext))
    (h : s.step C (.encrypt r plaintext) = some t) :
    ∃ H', Agreed C sk H' t ∧ (H' = H ∨ H' = H.bump (H.turn r)) := by
  have hp := hI.party r
  cases hturn : H.turn r with
  | zero =>
    have hcks := (hp.send_none hturn).2
    simp only [Session.step, RatchetState.encrypt, hcks, Function.update_eq_self] at h
    exact ⟨H, Option.some_inj.1 h ▸ hI, .inl rfl⟩
  | succ k =>
    have hcks := hp.cks k hturn
    have hns : (s.party r).ns = H.count (k + 1) := hturn ▸ hp.ns
    have hroom' : H.count (k + 1) + 1 + 101 < u32Size := by
      have : (s.party r).ns + 1 < u32Size - 101 := hroom
      omega
    have hmove := hI.move_chain hturn hroom'
    have hheader : (⟨C.encodePub (C.publicKey (s.party r).dhs), (s.party r).pn, (s.party r).ns⟩ :
        RatchetHeader) = (H.bump (k + 1)).header C (k + 1) (H.count (k + 1)) := by
      rw [hp.dhs, hp.pn, hns, hturn, History.header, History.bump_count_of_ne (by omega)]
      rfl
    rw [Session.step, RatchetState.encrypt, hcks] at h
    simp only [hheader] at h
    cases hseal : C.sealAesGcm
        (C.kdfCk (C.chainKey (H.startKey C sk (k + 1)) (H.count (k + 1)))).1 plaintext
        ((H.bump (k + 1)).header C (k + 1) (H.count (k + 1))) with
    | error e =>
      simp only [hseal] at h
      exact ⟨_, Option.some_inj.1 h ▸ hmove, .inr rfl⟩
    | ok ciphertext =>
      simp only [hseal] at h
      obtain rfl := Option.some_inj.1 h
      refine ⟨_, hmove.record (i := k + 1) (n := H.count (k + 1)) ?_ (fun hu ↦ ?_) ?_, .inr rfl⟩
      · refine ⟨k.succ_pos, hturn.ge, hturn ▸ hI.parity r, ?_, rfl, (History.bump_key ..).symm⟩
        rw [History.bump_count_self]
        exact Nat.lt_succ_self _
      · have hs : History.sender (k + 1) = r.peer.peer := by
          rw [Role.peer_peer, ← hturn, hI.parity]
        have hlt := ((hI.party r.peer).used_lt (k + 1) _ hs hu).2.2
        exact absurd (hlt.trans_le ((hI.party r.peer).received_le _)) (lt_irrefl _)
      · -- an earlier message of the same chain has a smaller index
        intro m hm heq
        obtain ⟨i, n, hat, -⟩ := hI.sent m hm
        have heq' := hat.header_eq.symm.trans heq
        obtain rfl : i = k + 1 :=
          hI.name_inj hat.le_turn hturn.ge (congrArg RatchetHeader.dhPubB64 heq')
        have hn : n = H.count (k + 1) := congrArg RatchetHeader.n heq'
        exact absurd (hn ▸ hat.lt_count) (lt_irrefl _)

end Agreed

/-! ### Delivering -/

theorem History.turn_le_advance {H : History Secret} (r : Role) (fresh : Secret) (q : Role) :
    H.turn q ≤ (H.advance r fresh).turn q := by
  rcases Role.eq_or_eq_peer r q with rfl | rfl
  · rw [advance_turn_self]
    omega
  · exact (Function.update_of_ne r.peer_ne _ _).ge

theorem History.At.advance {H : History Secret} {r : Role} {m : SentMessage Key} {i n : ℕ}
    (hat : H.At C sk m i n) (hi : i < H.turn r + 2) (fresh : Secret) :
    (H.advance r fresh).At C sk m i n where
  pos := hat.pos
  le_turn := hat.le_turn.trans (turn_le_advance r fresh _)
  sender_eq := hat.sender_eq
  lt_count := hat.lt_count
  header_eq := by
    rw [hat.header_eq, header, header, name_congr (advance_secret_of_lt hi)]
    rfl
  key_eq := by
    rw [hat.key_eq, key_congr fun j hj ↦ advance_secret_of_lt (hj.trans_lt hi)]

namespace Recorded

variable {H : History Secret} {s : Session Secret Pub Key} {r : Role} {m : SentMessage Key}
variable {i n : ℕ} {fresh : Secret}

theorem draw (hI : Recorded C sk H s) (fresh : Secret) :
    Recorded C sk H { s with drawn := fresh :: s.drawn } :=
  { hI with drawn := fun r i hi ↦ List.mem_cons_of_mem _ (hI.drawn r i hi) }

/-- A recorded message is accepted. -/
theorem accept (hC : C.Ideal sk) (hI : Recorded C sk H s) (hm : m ∈ s.sent)
    (hat : H.At C sk m i n) (hs : m.sender = r.peer) :
    Recorded C sk (H.accept i n)
      { s with accepted := s.accepted ++ [(r, m.header, m.ciphertext)] } where
  parity := hI.parity
  near := hI.near
  named := hI.named
  drawn := hI.drawn
  count_zero := hI.count_zero
  count_new := hI.count_new
  count_lt := hI.count_lt
  sent := by
    intro m' hm'
    obtain ⟨j, a, hat', hacc⟩ := hI.sent m' hm'
    refine ⟨j, a, ⟨hat'.pos, hat'.le_turn, hat'.sender_eq, hat'.lt_count, hat'.header_eq, ?_⟩, ?_⟩
    · exact hat'.key_eq.trans (History.accept_key ..).symm
    · rw [List.mem_append, List.mem_singleton]
      refine or_congr hacc ⟨fun heq ↦ ?_, ?_⟩
      · obtain rfl := hI.unique m' hm' m hm (congrArg (·.2.1) heq)
        exact History.key_inj hC hat'.pos hat.pos (hat'.key_eq.symm.trans hat.key_eq)
      · rintro ⟨rfl, rfl⟩
        obtain rfl := hI.unique m' hm' m hm (hat'.header_eq.trans hat.header_eq.symm)
        rw [hs, Role.peer_peer]
  unique := hI.unique
  accepted := by
    simp only [List.mem_append, List.mem_singleton]
    rintro a (ha | rfl)
    · exact hI.accepted a ha
    · exact ⟨m, hm, by rw [hs, Role.peer_peer]⟩

/-- The party follows its peer and takes the next turn with a secret nobody has seen. -/
theorem advance (hC : C.Ideal sk) (hI : Recorded C sk H s) (hpeer : H.turn r.peer = H.turn r + 1)
    (hfresh : s.Unseen C fresh) :
    Recorded C sk (H.advance r fresh) { s with drawn := fresh :: s.drawn } := by
  have hself : (H.advance r fresh).turn r = H.turn r + 2 := History.advance_turn_self ..
  have hother : (H.advance r fresh).turn r.peer = H.turn r + 1 :=
    (Function.update_of_ne r.peer_ne _ _).trans hpeer
  have hsecret : ∀ i ≤ H.turn r + 1, (H.advance r fresh).secret i = H.secret i := fun i hi ↦
    History.advance_secret_of_lt (by omega)
  have hdrawn : ∀ i ≤ H.turn r + 1, H.secret i ∈ s.drawn := fun i hi ↦
    hI.drawn r.peer i (by omega)
  have hle : ∀ q, H.turn q ≤ H.turn r + 1 := fun q ↦ by
    rcases Role.eq_or_eq_peer r q with rfl | rfl <;> omega
  have hmax : ∀ q, (H.advance r fresh).turn q ≤ H.turn r + 2 := fun q ↦ by
    rcases Role.eq_or_eq_peer r q with rfl | rfl <;> omega
  have hnamed := hI.named r.peer
  rw [hpeer] at hnamed
  -- the new chain's name is nobody else's
  have hnew : ∀ j ≤ H.turn r + 1,
      (H.advance r fresh).name C (H.turn r + 2) ≠ (H.advance r fresh).name C j := by
    intro j hj heq
    have hpub := hC.encodePub_inj heq
    rw [History.advance_secret_self, hsecret j hj] at hpub
    exact hfresh (List.mem_map.2 ⟨_, hdrawn j hj, hpub.symm⟩)
  constructor
  · intro q
    rcases Role.eq_or_eq_peer r q with rfl | rfl
    · rw [hself, History.sender_add_two, hI.parity]
    · rw [hother, ← hpeer, hI.parity]
  · intro q
    rcases Role.eq_or_eq_peer r q with rfl | rfl
    · omega
    · rw [Role.peer_peer]
      omega
  · intro q i j hi hj heq
    have := hmax q
    rcases Nat.lt_or_ge i (H.turn r + 2) with hi' | hi' <;>
      rcases Nat.lt_or_ge j (H.turn r + 2) with hj' | hj'
    · exact hnamed.advance fresh i j hi' hj' heq
    · obtain rfl : j = H.turn r + 2 := by omega
      exact absurd heq.symm (hnew i (by omega))
    · obtain rfl : i = H.turn r + 2 := by omega
      exact absurd heq (hnew j (by omega))
    · omega
  · intro q i hi
    rcases Nat.lt_or_ge i (H.turn r + 2) with hi' | hi'
    · rw [hsecret i (by omega)]
      exact List.mem_cons_of_mem _ (hdrawn i (by omega))
    · obtain rfl : i = H.turn r + 2 := by have := hmax q; omega
      rw [History.advance_secret_self]
      exact List.mem_cons_self
  · exact hI.count_zero
  · exact fun i hi ↦ hI.count_new i fun q ↦
      (History.turn_le_advance r fresh q).trans_lt (hi q)
  · exact hI.count_lt
  · intro m hm
    obtain ⟨i, n, hat, hacc⟩ := hI.sent m hm
    have hi := hat.le_turn.trans (hle m.sender)
    exact ⟨i, n, hat.advance (Nat.lt_succ_of_le hi) fresh, hacc⟩
  · exact hI.unique
  · exact hI.accepted

end Recorded

namespace Agreed

variable {H : History Secret} {s t : Session Secret Pub Key} {r : Role} {fresh : Secret}

/-- Reading a message of the peer keeps the agreement, in the history the reading leads to. -/
theorem read (hC : C.Ideal sk) (hI : Agreed C sk H s) {m : SentMessage Key} (hm : m ∈ s.sent)
    {st : RatchetState Secret Pub Key} (hfresh : s.Unseen C fresh) {i n : ℕ}
    (hat : H.At C sk m i n) (hs : m.sender = r.peer) {H' : History Secret}
    (hH' : H' = H ∨ i = H.turn r + 1 ∧ H' = H.advance r fresh)
    (hst : (H'.accept i n).PartyAt C sk r st) :
    Agreed C sk (H'.accept i n) { s with
      party := Function.update s.party r st
      accepted := s.accepted ++ [(r, m.header, m.ciphertext)]
      drawn := fresh :: s.drawn } := by
  have hparty : H'.turn r.peer = H.turn r.peer →
      (∀ j ≤ H.turn r.peer, H'.secret j = H.secret j) → H'.count = H.count → H'.used = H.used →
      ∀ q, (H'.accept i n).PartyAt C sk q (Function.update s.party r st q) := by
    intro hturn hsecret hcount hused q
    rcases Role.eq_or_eq_peer r q with rfl | rfl
    · rw [Function.update_self]
      exact hst
    · rw [Function.update_of_ne r.peer_ne]
      refine (hI.party r.peer).congr hturn hsecret (fun j _ _ ↦ congrFun hcount j)
        (congrFun hcount 0) (fun j _ ↦ (congrFun hcount j).ge) fun j a hj ↦ ?_
      change H'.used j a ∨ _ ↔ _
      rw [hused]
      refine or_iff_left ?_
      rintro ⟨rfl, -⟩
      rw [hat.sender_eq, hs] at hj
      exact r.peer.ne_peer hj
  rcases hH' with rfl | ⟨rfl, rfl⟩
  · exact { (hI.draw fresh).accept hC hm hat hs with
      party := hparty rfl (fun _ _ ↦ rfl) rfl rfl }
  · have hpeer : H.turn r.peer = H.turn r + 1 := by
      have := hs ▸ hat.le_turn
      rcases hI.turn_peer r with h | h <;> omega
    exact { (hI.advance hC hpeer hfresh).accept hC hm (hat.advance (by omega) fresh) hs with
      party := hparty (Function.update_of_ne r.peer_ne _ _)
        (fun j hj ↦ History.advance_secret_of_lt (by omega)) rfl rfl }

variable [DecidableEq Pub] [DecidableEq Key]

/-- A delivery is refused and changes nothing, or it reads a message of the peer. -/
theorem deliver_cases (hC : C.Ideal sk) (hI : Agreed C sk H s) {header : RatchetHeader}
    {ciphertext : Bytes} (h : s.step C (.deliver r header ciphertext fresh) = some t) :
    (t = { s with drawn := fresh :: s.drawn } ∧ Agreed C sk H t) ∨
    ∃ m ∈ s.sent, ∃ pt st i n H', m.header = header ∧
      (s.party r).decryptStaged C (idealOpen s.sent) fresh header ciphertext = .ok (pt, st) ∧
      H.At C sk m i n ∧ m.sender = r.peer ∧ ¬H.used i n ∧
      (H' = H ∨ i = H.turn r + 1 ∧ H' = H.advance r fresh) ∧
      t = { s with
        party := Function.update s.party r st
        accepted := s.accepted ++ [(r, m.header, m.ciphertext)]
        drawn := fresh :: s.drawn } ∧
      Agreed C sk (H'.accept i n) t := by
  simp only [Session.step] at h
  split at h
  · rename_i hfresh
    obtain rfl := Option.some_inj.1 h
    cases hdec : (s.party r).decryptStaged C (idealOpen s.sent) fresh header ciphertext with
    | error e =>
      simp only [Session.receive, RatchetState.decrypt, hdec, Function.update_eq_self]
      exact .inl ⟨trivial, { hI.draw fresh with party := hI.party }⟩
    | ok res =>
      obtain ⟨pt, st⟩ := res
      obtain ⟨m, hm, rfl, rfl, -, i, n, hat, hs, hunused, H', hH', hst⟩ := hI.of_ok hC hdec
      refine .inr ⟨m, hm, pt, st, i, n, H', rfl, rfl, hat, hs, hunused, hH', ?_⟩
      simp only [Session.receive, RatchetState.decrypt, hdec]
      exact ⟨trivial, hI.read hC hm hfresh hat hs hH' hst⟩
  · cases h

/-- `decrypt` keeps the agreement, whatever it was given. -/
theorem deliver (hC : C.Ideal sk) (hI : Agreed C sk H s) {header : RatchetHeader}
    {ciphertext : Bytes} (h : s.step C (.deliver r header ciphertext fresh) = some t) :
    ∃ H', Agreed C sk H' t := by
  obtain ⟨-, hkept⟩ | ⟨m, -, pt, st, i, n, H', -, -, -, -, -, -, -, hread⟩ := hI.deliver_cases hC h
  · exact ⟨H, hkept⟩
  · exact ⟨H'.accept i n, hread⟩

/-- Every reachable session is agreed. -/
theorem of_run (hC : C.Ideal sk) {a b : Secret} (hne : C.publicKey a ≠ C.publicKey b)
    {as : List (SessionAction Secret)}
    (hroom : Transition.Along (Session.step C) Session.ChainRoom (Session.init C sk a b) as)
    (hrun : Transition.run (Session.step C) (Session.init C sk a b) as = some t) :
    ∃ H, Agreed C sk H t := by
  refine Transition.run_induction_along (I := fun s ↦ ∃ H, Agreed C sk H s) ?_ ⟨_, init hC hne⟩
    hroom hrun
  rintro s (⟨r, plaintext⟩ | ⟨r, header, ciphertext, fresh⟩) t ⟨H, hI⟩ hok hstep
  · obtain ⟨H', hI', -⟩ := hI.encrypt hok hstep
    exact ⟨H', hI'⟩
  · exact hI.deliver hC hstep

end Agreed

namespace Session

variable [DecidableEq Pub] [DecidableEq Key] {t : Session Secret Pub Key}

/-- `decrypt` on `&mut self`: an error leaves the state as it was. -/
theorem receive_of_error {r : Role} {fresh : Secret} {header : RatchetHeader} {ciphertext : Bytes}
    {e : E2eError} (h : (t.receive C r fresh header ciphertext).1 = .error e) :
    (t.receive C r fresh header ciphertext).2 = t.party r := by
  unfold receive RatchetState.decrypt at h ⊢
  split at h
  · cases h
  · rfl

theorem receive_eq_ok {r : Role} {fresh : Secret} {header : RatchetHeader} {ciphertext : Bytes}
    {pt : Bytes} : (t.receive C r fresh header ciphertext).1 = .ok pt ↔ ∃ st,
      (t.party r).decryptStaged C (idealOpen t.sent) fresh header ciphertext = .ok (pt, st) := by
  unfold receive RatchetState.decrypt
  split
  · rename_i pt' st hdec
    simp [hdec]
  · rename_i hdec
    simp [hdec]

/-- **The Double Ratchet is reliable against a hostile network.** In every session that starts
from `init_alice` and `init_bob` and in which senders keep to the bound on their chains:

* a message of the peer that was not accepted yet decrypts to its plaintext, if no chain has to
  skip more than `maxSkip` keys for it;
* whatever decrypts is a message of the peer, under its own plaintext, and was not accepted before;
* a failed delivery leaves the party's state unchanged, and with it all that can be decrypted. -/
theorem receive_reliable (hC : C.Ideal sk) {aliceSecret bobSpkSecret : Secret}
    (hne : C.publicKey aliceSecret ≠ C.publicKey bobSpkSecret) {as : List (SessionAction Secret)}
    (hroom : Transition.Along (step C) ChainRoom (init C sk aliceSecret bobSpkSecret) as)
    (hrun : Transition.run (step C) (init C sk aliceSecret bobSpkSecret) as = some t) :
    (∀ r fresh, ∀ m ∈ t.sent, m.sender = r.peer → (r, m.header, m.ciphertext) ∉ t.accepted →
      (t.party r).keysToSkip C m.header ≤ maxSkip →
      (t.receive C r fresh m.header m.ciphertext).1 = .ok m.plaintext) ∧
    (∀ r fresh header ciphertext pt, (t.receive C r fresh header ciphertext).1 = .ok pt →
      (∃ m ∈ t.sent, m.sender = r.peer ∧ m.header = header ∧ m.ciphertext = ciphertext ∧
        m.plaintext = pt) ∧ (r, header, ciphertext) ∉ t.accepted) ∧
    (∀ r fresh header ciphertext e, (t.receive C r fresh header ciphertext).1 = .error e →
      (t.receive C r fresh header ciphertext).2 = t.party r ∧
      ∀ u, t.step C (.deliver r header ciphertext fresh) = some u →
        ∀ q later, ∀ m ∈ t.sent, ∀ pt, (t.receive C q later m.header m.ciphertext).1 = .ok pt →
          (u.receive C q later m.header m.ciphertext).1 = .ok pt) := by
  obtain ⟨H, hI⟩ := Agreed.of_run hC hne hroom hrun
  refine ⟨fun r fresh m hm hs hunread hskip ↦ ?_, fun r fresh header ciphertext pt h ↦ ?_,
    fun r fresh header ciphertext e h ↦ ⟨receive_of_error h, fun u hu q later m hm pt hpt ↦ ?_⟩⟩
  · exact receive_eq_ok.2 (hI.decryptStaged_ok hC hm hs hunread hskip)
  · obtain ⟨st, hst⟩ := receive_eq_ok.1 h
    obtain ⟨m, hm, rfl, rfl, rfl, i, n, hat, hs, hunused, -⟩ := hI.of_ok hC hst
    refine ⟨⟨m, hm, hs, rfl, rfl, rfl⟩, fun hacc ↦ hunused ?_⟩
    obtain ⟨j, a, hat', hacc'⟩ := hI.sent m hm
    obtain ⟨rfl, rfl⟩ := History.key_inj hC hat.pos hat'.pos (hat.key_eq.symm.trans hat'.key_eq)
    rw [hs, Role.peer_peer] at hacc'
    exact hacc'.1 hacc
  · simp only [step] at hu
    split at hu
    · obtain rfl := Option.some_inj.1 hu
      simp only [receive_of_error h, Function.update_eq_self]
      exact hpt
    · cases hu

/-- Alice sends two messages, Bob reads the second and answers, Alice reads the answer. -/
def firstMessageLate : List (SessionAction ℕ) :=
  [.encrypt .alice [1], .encrypt .alice [2], .deliver .bob ⟨"a", 0, 1⟩ [2] 2, .encrypt .bob [3],
    .deliver .alice ⟨"aa", 0, 0⟩ [3] 3]

/-- The first message, delivered last, still decrypts. -/
theorem receive_reliable_firstMessageLate : ∃ t, Transition.run (step Primitives.symbolic)
      (init Primitives.symbolic .shared 1 0) firstMessageLate = some t ∧
    (t.receive Primitives.symbolic .bob 4 ⟨"a", 0, 0⟩ [1]).1 = .ok [1] := by
  refine ⟨_, rfl, ?_⟩
  exact (receive_reliable Primitives.symbolic_ideal
    (by decide : Primitives.symbolic.publicKey 1 ≠ Primitives.symbolic.publicKey 0)
    (by decide : Transition.Along (step Primitives.symbolic) ChainRoom
      (init Primitives.symbolic .shared 1 0) firstMessageLate) rfl).1 .bob 4
    ⟨.alice, ⟨"a", 0, 0⟩, [1], [1], _⟩ (List.mem_cons_self) rfl (by decide) (by decide)

end Session

end VoceChat
