import VoceChat.Ratchet.History

/-!
# One delivery, read off the history

What `skipMessageKeys`, the ratchet turn and the final opening do to a party that sits in a
history (`History.PartyAt`). Three receiving moves cover every delivery that can succeed:

* `PartyAt.take_skipped` — a stored key is consumed;
* `PartyAt.take_current` — the newest incoming chain is followed to the message;
* `PartyAt.take_turn` — the peer has taken the next turn; this party follows it and takes its own.

Each says in which history the resulting state sits.
-/

namespace VoceChat

open Machine

namespace RatchetState

variable {Secret Pub Key : Type} {C : Primitives Secret Pub Key}

/-- What skipping adds to the map: the keys of the positions from `lo` to below `hi`. -/
def SkipsTo (C : Primitives Secret Pub Key) (old new : AList fun _ : String × ℕ ↦ Key)
    (dhr : Pub) (start : Key) (lo hi : ℕ) : Prop :=
  ∀ d n, new.lookup (d, n) =
    if d = C.encodePub dhr ∧ lo ≤ n ∧ n < hi then some (C.messageKey start n)
    else old.lookup (d, n)

theorem skipLoop_spec {start : Key} {p : Pub} (fuel : ℕ) {st : RatchetState Secret Pub Key}
    (hdhr : st.dhr = some p) (hckr : st.ckr = some (C.chainKey start st.nr)) :
    ∃ m, SkipsTo C st.mkskipped m p start st.nr (st.nr + fuel) ∧
      skipLoop C fuel st = .ok { st with
        ckr := some (C.chainKey start (st.nr + fuel)), nr := st.nr + fuel, mkskipped := m } := by
  induction fuel generalizing st with
  | zero =>
    refine ⟨st.mkskipped, fun d n ↦ ?_, ?_⟩
    · rw [if_neg fun h ↦ absurd h.2 (by omega)]
    · rw [skipLoop, Nat.add_zero, ← hckr]
  | succ fuel ih =>
    obtain ⟨m, hm, hrun⟩ := @ih { st with
      ckr := some (C.kdfCk (C.chainKey start st.nr)).2
      mkskipped := st.mkskipped.insert (C.encodePub p, st.nr)
        (C.kdfCk (C.chainKey start st.nr)).1
      nr := st.nr + 1 } hdhr (by rw [C.chainKey_succ])
    refine ⟨m, fun d n ↦ ?_, ?_⟩
    · rw [hm d n]
      by_cases hd : d = C.encodePub p
      · subst hd
        simp only [true_and]
        rcases Nat.lt_trichotomy n st.nr with hlt | rfl | hgt
        · rw [if_neg (by omega), if_neg (by omega),
            AList.lookup_insert_ne fun h ↦ hlt.ne (Prod.ext_iff.1 h).2]
        · rw [if_neg (by omega), if_pos (by omega), AList.lookup_insert]
          rfl
        · rw [AList.lookup_insert_ne fun h ↦ hgt.ne' (Prod.ext_iff.1 h).2]
          exact if_congr (by omega) rfl rfl
      · rw [if_neg fun h ↦ hd h.1, if_neg fun h ↦ hd h.1,
          AList.lookup_insert_ne fun h ↦ hd (Prod.ext_iff.1 h).1]
    · simp only [hdhr] at hrun
      simp only [skipLoop, hckr, hdhr, hrun, Except.ok.injEq]
      rw [show st.nr + 1 + fuel = st.nr + (fuel + 1) by omega]

/-- Skipping in a party without a receiving chain only checks the bound. -/
theorem skipMessageKeys_of_none {st : RatchetState Secret Pub Key} (hckr : st.ckr = none)
    (bound : ℕ) : st.skipMessageKeys C bound =
      if saturatingAdd st.nr maxSkip < bound then .error (.ratchet "too many skipped keys")
      else .ok st := by
  rw [skipMessageKeys, hckr]

/-- Skipping in a receiving chain moves to the later of its position and `bound`. -/
theorem skipMessageKeys_of_chain {start : Key} {p : Pub} {st : RatchetState Secret Pub Key}
    (hdhr : st.dhr = some p) (hckr : st.ckr = some (C.chainKey start st.nr)) (bound : ℕ) :
    ∃ m, SkipsTo C st.mkskipped m p start st.nr bound ∧ st.skipMessageKeys C bound =
      if saturatingAdd st.nr maxSkip < bound then .error (.ratchet "too many skipped keys")
      else .ok { st with
        ckr := some (C.chainKey start (max st.nr bound)), nr := max st.nr bound
        mkskipped := m } := by
  obtain ⟨m, hm, hrun⟩ := skipLoop_spec (bound - st.nr) hdhr hckr
  rcases Nat.le_total st.nr bound with hle | hle
  · have hsum : st.nr + (bound - st.nr) = bound := by omega
    rw [hsum] at hm hrun
    refine ⟨m, hm, ?_⟩
    rw [skipMessageKeys, hckr, Nat.max_eq_right hle]
    simp only
    rw [hrun]
  · refine ⟨st.mkskipped, fun d n ↦ by rw [if_neg fun h ↦ absurd h.2 (by omega)], ?_⟩
    rw [skipMessageKeys, hckr, Nat.max_eq_left hle, Nat.sub_eq_zero_of_le hle]
    simp only [skipLoop]
    rw [← hckr]

/-- The last stretch of a delivery in a receiving chain: the key used is the one at the later of
the chain's position and the header's index. -/
theorem openNext_of_chain {start : Key} {p : Pub} {st : RatchetState Secret Pub Key}
    (hdhr : st.dhr = some p) (hckr : st.ckr = some (C.chainKey start st.nr)) (opn : Opener Key)
    (header : RatchetHeader) (ciphertext : Bytes) :
    ∃ m, SkipsTo C st.mkskipped m p start st.nr header.n ∧
      st.openNext C opn header ciphertext =
        if saturatingAdd st.nr maxSkip < header.n then .error (.ratchet "too many skipped keys")
        else (opn (C.messageKey start (max st.nr header.n)) ciphertext header).map fun pt ↦
          (pt, { st with
            ckr := some (C.chainKey start (max st.nr header.n + 1))
            nr := wrappingAdd (max st.nr header.n) 1
            mkskipped := m }) := by
  obtain ⟨m, hm, hskip⟩ := skipMessageKeys_of_chain hdhr hckr header.n
  refine ⟨m, hm, ?_⟩
  rw [openNext, hskip]
  split
  · rfl
  · rw [Except.bind]
    simp only
    rw [C.chainKey_succ]
    rfl

/-- Without a receiving chain nothing is opened. -/
theorem openNext_of_none {st : RatchetState Secret Pub Key} (hckr : st.ckr = none)
    (opn : Opener Key) (header : RatchetHeader) (ciphertext : Bytes) :
    ∃ e, st.openNext C opn header ciphertext = .error e := by
  rw [openNext, skipMessageKeys_of_none hckr]
  split
  · exact ⟨_, rfl⟩
  · rw [Except.bind]
    simp only [hckr]
    exact ⟨_, rfl⟩

/-- Skipping adds a stretch of one chain to what the map stores. -/
theorem SkipsTo.stores {old new : AList fun _ : String × ℕ ↦ Key} {p : Pub} {start : Key}
    {lo hi : ℕ} (hskip : SkipsTo C old new p start lo hi) {held : ℕ → ℕ → Prop}
    {name : ℕ → String} {key : ℕ → ℕ → Key} (hold : Stores old held name key) {j : ℕ}
    (hj : C.encodePub p = name j) (hkey : ∀ n, C.messageKey start n = key j n)
    (hinj : ∀ i n, held i n → name i = name j → i = j) :
    Stores new (fun i n ↦ held i n ∨ i = j ∧ lo ≤ n ∧ n < hi) name key := by
  intro d n k
  rw [hskip d n]
  by_cases hd : d = C.encodePub p ∧ lo ≤ n ∧ n < hi
  · obtain ⟨rfl, hn⟩ := hd
    rw [if_pos ⟨rfl, hn⟩, Option.some_inj, hkey]
    constructor
    · rintro rfl
      exact ⟨j, .inr ⟨rfl, hn⟩, hj, rfl⟩
    · rintro ⟨i, hi | ⟨rfl, -⟩, hd, rfl⟩
      · rw [hinj i n hi (hd.symm.trans hj)]
      · rfl
  · rw [if_neg hd, hold d n k]
    refine exists_congr fun i ↦ ⟨fun ⟨hi, hrest⟩ ↦ ⟨.inl hi, hrest⟩, ?_⟩
    rintro ⟨hi | ⟨rfl, hn⟩, hdi, hk⟩
    · exact ⟨hi, hdi, hk⟩
    · exact absurd ⟨hdi.trans hj.symm, hn⟩ hd

end RatchetState

namespace History

variable {Secret Pub Key : Type} {C : Primitives Secret Pub Key} {sk : Key} {H : History Secret}

/-- The history in which message `n` of chain `i` was accepted. -/
def accept (H : History Secret) (i n : ℕ) : History Secret :=
  { H with used := fun j m ↦ H.used j m ∨ (j = i ∧ m = n) }

/-- The history in which `r` followed its peer's turn and took the next one with `fresh`. -/
def advance (H : History Secret) (r : Role) (fresh : Secret) : History Secret :=
  { H with
    secret := Function.update H.secret (H.turn r + 2) fresh
    turn := Function.update H.turn r (H.turn r + 2) }

/-- The chains below `L` carry different names. -/
def Named (C : Primitives Secret Pub Key) (H : History Secret) (L : ℕ) : Prop :=
  ∀ i j, i < L → j < L → H.name C i = H.name C j → i = j

theorem accept_key (i n j m : ℕ) : (H.accept i n).key C sk j m = H.key C sk j m :=
  key_congr fun _ _ ↦ rfl

theorem accept_rootKey (i n j : ℕ) : (H.accept i n).rootKey C sk j = H.rootKey C sk j :=
  rootKey_congr fun _ _ ↦ rfl

theorem accept_startKey (i n j : ℕ) : (H.accept i n).startKey C sk j = H.startKey C sk j :=
  startKey_congr fun _ _ ↦ rfl

/-- Accepting a message only takes it off the awaited ones. -/
theorem accept_awaited {r : Role} {nr i n j m : ℕ} :
    (H.accept i n).Awaited r nr j m ↔ H.Awaited r nr j m ∧ ¬(j = i ∧ m = n) := by
  constructor
  · rintro ⟨hpos, hlt, hs, hm, hu⟩
    exact ⟨⟨hpos, hlt, hs, hm, fun h ↦ hu (.inl h)⟩, fun h ↦ hu (.inr h)⟩
  · rintro ⟨⟨hpos, hlt, hs, hm, hu⟩, hne⟩
    exact ⟨hpos, hlt, hs, hm, not_or.2 ⟨hu, hne⟩⟩

/-- Moving along the newest chain puts a stretch of it among the awaited messages. -/
theorem PartyAt.awaited_follow {r : Role} {st : RatchetState Secret Pub Key}
    (hp : H.PartyAt C sk r st) {i n : ℕ} (hpos : 0 < i) (hturn : i + 1 = H.turn r)
    (hpeer : sender i = r.peer) (hn : st.nr ≤ n) {j a : ℕ} :
    H.Awaited r n j a ↔ H.Awaited r st.nr j a ∨ j = i ∧ st.nr ≤ a ∧ a < n := by
  rw [awaited_iff, awaited_iff]
  by_cases hj : j = i
  · subst hj
    have hused := hp.used_lt j a hpeer
    rw [received_newest hturn] at hused
    rw [received_newest hturn, received_newest hturn]
    constructor
    · rintro ⟨-, hlt, -, ha, hu⟩
      rcases Nat.lt_or_ge a st.nr with hold | hnew
      · exact .inl ⟨hpos, hlt, hpeer, hold, hu⟩
      · exact .inr ⟨rfl, hnew, ha⟩
    · rintro (⟨-, hlt, -, ha, hu⟩ | ⟨-, hlo, hhi⟩)
      · exact ⟨hpos, hlt, hpeer, ha.trans_le hn, hu⟩
      · exact ⟨hpos, hturn ▸ Nat.lt_succ_self j, hpeer, hhi,
          fun hu ↦ absurd (hused hu).2.2 (by omega)⟩
  · rw [received_old (by omega), received_old (by omega)]
    simp only [hj, false_and, or_false]

/-- A stored key is consumed. -/
theorem PartyAt.take_skipped {r : Role} {st : RatchetState Secret Pub Key}
    (hp : H.PartyAt C sk r st) (hname : H.Named C (H.turn r)) {i n : ℕ}
    (hi : H.Awaited r st.nr i n) :
    (H.accept i n).PartyAt C sk r
      { st with mkskipped := st.mkskipped.erase (H.name C i, n) } where
  dhs := hp.dhs
  rk := by rw [accept_rootKey]; exact hp.rk
  ns := hp.ns
  pn := hp.pn
  send_none := hp.send_none
  dhr := hp.dhr
  cks := by simp only [accept_startKey]; exact hp.cks
  recv_none := hp.recv_none
  ckr := by simp only [accept_startKey]; exact hp.ckr
  nr_le := hp.nr_le
  skipped := (hp.skipped.erase fun j m hj ↦ hname j i hj.lt_turn hi.lt_turn).congr
    (fun _ _ ↦ accept_awaited) (fun _ _ _ ↦ rfl) fun _ _ _ ↦ accept_key ..
  used_lt := by
    rintro j m hs (hu | ⟨rfl, rfl⟩)
    · exact hp.used_lt j m hs hu
    · exact ⟨hi.pos, hi.lt_turn, hi.lt_received⟩

/-- The newest incoming chain is followed to its message `n`. -/
theorem PartyAt.take_current {r : Role} {st : RatchetState Secret Pub Key}
    (hp : H.PartyAt C sk r st) (hname : H.Named C (H.turn r)) {k n : ℕ}
    (hturn : H.turn r = k + 2) (hpeer : sender (k + 1) = r.peer) (hn : st.nr ≤ n)
    (hcount : n < H.count (k + 1)) {m : AList fun _ : String × ℕ ↦ Key}
    (hm : RatchetState.SkipsTo C st.mkskipped m (C.publicKey (H.secret (k + 1)))
      (H.startKey C sk (k + 1)) st.nr n) :
    (H.accept (k + 1) n).PartyAt C sk r
      { st with
        ckr := some (C.chainKey (H.startKey C sk (k + 1)) (n + 1)), nr := n + 1
        mkskipped := m } where
  dhs := hp.dhs
  rk := by rw [accept_rootKey]; exact hp.rk
  ns := hp.ns
  pn := hp.pn
  send_none := hp.send_none
  dhr := hp.dhr
  cks := by simp only [accept_startKey]; exact hp.cks
  recv_none := fun h ↦ absurd (hturn.symm.trans_le h) (by omega)
  ckr := by
    intro j hj
    obtain rfl : j = k := by have := hturn.symm.trans hj; omega
    rw [accept_startKey]
  nr_le := by
    intro j hj
    obtain rfl : j = k + 1 := by have := hturn.symm.trans hj; omega
    exact hcount
  skipped := by
    refine (hm.stores hp.skipped (j := k + 1) rfl (fun _ ↦ rfl)
      fun j a hj ↦ hname j (k + 1) hj.lt_turn (by omega)).congr
      (fun j a ↦ ?_) (fun _ _ _ ↦ rfl) fun _ _ _ ↦ accept_key ..
    rw [accept_awaited, hp.awaited_follow k.succ_pos hturn.symm hpeer (by omega : st.nr ≤ n + 1)]
    constructor
    · rintro ⟨ha | ⟨rfl, hlo, hhi⟩, hne⟩
      · exact .inl ha
      · exact .inr ⟨rfl, hlo, by omega⟩
    · rintro (ha | ⟨rfl, hlo, hhi⟩)
      · refine ⟨.inl ha, ?_⟩
        rintro ⟨rfl, rfl⟩
        have := received_newest hturn.symm ▸ ha.lt_received
        omega
      · exact ⟨.inr ⟨rfl, hlo, by omega⟩, by omega⟩
  used_lt := by
    rintro j a hs (hu | ⟨rfl, rfl⟩)
    · obtain ⟨hpos, hlt, ha⟩ := hp.used_lt j a hs hu
      refine ⟨hpos, hlt, ?_⟩
      change a < H.received r (n + 1) j
      by_cases hj : j + 1 = H.turn r
      · rw [received_newest hj] at ha ⊢
        omega
      · rw [received_old hj] at ha ⊢
        exact ha
    · refine ⟨k.succ_pos, hturn ▸ Nat.lt_succ_self (k + 1), ?_⟩
      change a < H.received r (a + 1) (k + 1)
      rw [received_newest hturn.symm]
      exact Nat.lt_succ_self a

/-! ### The ratchet turn -/

theorem advance_secret_of_lt {r : Role} {fresh : Secret} {i : ℕ} (h : i < H.turn r + 2) :
    (H.advance r fresh).secret i = H.secret i :=
  Function.update_of_ne h.ne _ _

@[simp] theorem advance_secret_self (r : Role) (fresh : Secret) :
    (H.advance r fresh).secret (H.turn r + 2) = fresh :=
  Function.update_self ..

@[simp] theorem advance_turn_self (r : Role) (fresh : Secret) :
    (H.advance r fresh).turn r = H.turn r + 2 :=
  Function.update_self ..

theorem Named.advance {r : Role} (h : H.Named C (H.turn r + 2)) (fresh : Secret) :
    (H.advance r fresh).Named C (H.turn r + 2) := by
  intro i j hi hj hij
  rw [name_congr (advance_secret_of_lt hi), name_congr (advance_secret_of_lt hj)] at hij
  exact h i j hi hj hij

/-- Both ends of the next turn derive the same keys. -/
theorem PartyAt.kdfRk_next (hC : C.Ideal sk) {r : Role} {st : RatchetState Secret Pub Key}
    (hp : H.PartyAt C sk r st) :
    C.kdfRk st.rk (C.diffieHellman st.dhs (C.publicKey (H.secret (H.turn r + 1)))) =
      (H.rootKey C sk (H.turn r + 1), H.startKey C sk (H.turn r + 1)) := by
  rw [hp.rk, hp.dhs, hC.dh_comm]
  rfl

/-- The peer has taken the next turn: this party follows it, with the rest of the old incoming
chain stored away, and takes a turn of its own. -/
theorem PartyAt.take_turn (hC : C.Ideal sk) {r : Role} {st : RatchetState Secret Pub Key}
    (hp : H.PartyAt C sk r st) (hparity : sender (H.turn r) = r) (fresh : Secret)
    (hnew : H.count (H.turn r + 2) = 0)
    {m : AList fun _ : String × ℕ ↦ Key}
    (hm : Stores m (H.Awaited r (H.count (H.turn r - 1))) (H.name C) (H.key C sk)) :
    (H.advance r fresh).PartyAt C sk r
      ({ st with mkskipped := m }.dhRatchet C (C.publicKey (H.secret (H.turn r + 1))) fresh) := by
  have hroot : (H.advance r fresh).rootKey C sk (H.turn r + 1) = H.rootKey C sk (H.turn r + 1) :=
    rootKey_congr fun i hi ↦ advance_secret_of_lt (by omega)
  have hrecv := hp.kdfRk_next hC
  have hsend : C.diffieHellman fresh (C.publicKey (H.secret (H.turn r + 1))) =
      (H.advance r fresh).input C (H.turn r + 1) := by
    rw [input, advance_secret_self, advance_secret_of_lt (by omega)]
  have hcount : ∀ i, i ≤ H.turn r → ∀ nr, (H.advance r fresh).received r nr i = H.count i :=
    fun i hi nr ↦ received_old (by rw [advance_turn_self]; omega)
  constructor
  · simp only [RatchetState.dhRatchet, advance_turn_self, advance_secret_self]
  · simp only [RatchetState.dhRatchet, advance_turn_self, hrecv, hsend, ← hroot]
    rfl
  · simp only [RatchetState.dhRatchet, advance_turn_self]
    exact hnew.symm
  · simp only [RatchetState.dhRatchet, advance_turn_self]
    exact hp.ns
  · simp only [advance_turn_self]
    omega
  · intro k hk
    obtain rfl : k = H.turn r + 1 := by rw [advance_turn_self] at hk; omega
    rw [advance_secret_of_lt (by omega)]
    rfl
  · intro k hk
    obtain rfl : k = H.turn r + 1 := by rw [advance_turn_self] at hk; omega
    simp only [RatchetState.dhRatchet, hrecv, hsend, ← hroot]
    change _ = some (C.chainKey _ (H.count (H.turn r + 2)))
    rw [hnew]
    rfl
  · simp only [advance_turn_self]
    omega
  · intro k hk
    obtain rfl : k = H.turn r := by rw [advance_turn_self] at hk; omega
    simp only [RatchetState.dhRatchet, hrecv]
    rw [startKey_congr fun i hi ↦ advance_secret_of_lt (by omega)]
    rfl
  · exact fun _ _ ↦ Nat.zero_le _
  · refine hm.congr (fun i a ↦ ?_) (fun i a hi ↦ ?_) fun i a hi ↦ ?_
    · rw [awaited_iff, awaited_iff, received_ended]
      change _ ∧ _ ∧ _ ∧ _ ∧ ¬H.used i a ↔ _
      rw [advance_turn_self]
      constructor
      · rintro ⟨hpos, hlt, hs, ha, hu⟩
        -- chain `turn + 1` has not been read from, and chain `turn` is this party's own
        have hne : i ≠ H.turn r + 1 := by
          rintro rfl
          rw [received_newest (advance_turn_self ..).symm] at ha
          exact absurd ha (Nat.not_lt_zero a)
        have hown : i ≠ H.turn r := by
          rintro rfl
          exact r.ne_peer (hparity.symm.trans hs)
        rw [hcount i (by omega)] at ha
        exact ⟨hpos, by omega, hs, ha, hu⟩
      · rintro ⟨hpos, hlt, hs, ha, hu⟩
        exact ⟨hpos, by omega, hs, (hcount i hlt.le _).symm ▸ ha, hu⟩
    · exact name_congr (advance_secret_of_lt (by have := hi.lt_turn; omega))
    · exact key_congr fun j hj ↦ advance_secret_of_lt (by have := hi.lt_turn; omega)
  · intro i a hs hu
    obtain ⟨hpos, hlt, ha⟩ := hp.used_lt i a hs hu
    rw [advance_turn_self, hcount i hlt.le]
    exact ⟨hpos, by omega, ha.trans_le (hp.received_le i)⟩

/-- Turning to another remote key, whatever key that is: the party stores the rest of its newest
incoming chain, if there is one, and ratchets. -/
theorem PartyAt.turnTo_of_ne [DecidableEq Pub] {r : Role} {st : RatchetState Secret Pub Key}
    (hp : H.PartyAt C sk r st) (hparity : sender (H.turn r) = r) (hname : H.Named C (H.turn r))
    {p : Pub} (hne : st.dhr ≠ some p) (pn : ℕ) (fresh : Secret) :
    ∃ m, (st.nr ≤ pn → Stores m (H.Awaited r pn) (H.name C) (H.key C sk)) ∧
      st.turnTo C p pn fresh =
        if saturatingAdd st.nr maxSkip < pn then .error (.ratchet "too many skipped keys")
        else .ok ({ st with mkskipped := m }.dhRatchet C p fresh) := by
  rw [RatchetState.turnTo, if_neg hne]
  rcases Nat.lt_or_ge (H.turn r) 2 with hlt | hge
  · refine ⟨st.mkskipped, fun _ ↦ ?_, ?_⟩
    · refine hp.skipped.congr (fun i n ↦ ?_) (fun _ _ _ ↦ rfl) fun _ _ _ ↦ rfl
      have hempty : ∀ nr, ¬H.Awaited r nr i n := fun nr h ↦ absurd h.pos (by
        have := h.lt_turn
        omega)
      exact iff_of_false (hempty pn) (hempty st.nr)
    · rw [RatchetState.skipMessageKeys_of_none (hp.recv_none (by omega)).1]
      split <;> rfl
  · obtain ⟨k, hk⟩ := Nat.exists_eq_add_of_le' hge
    obtain ⟨m, hm, hskip⟩ := RatchetState.skipMessageKeys_of_chain
      (hp.dhr (k + 1) hk) (hp.ckr k hk) pn
    refine ⟨m, fun hle ↦ ?_, ?_⟩
    · refine (hm.stores hp.skipped (j := k + 1) rfl (fun _ ↦ rfl)
        fun j a hj ↦ hname j (k + 1) hj.lt_turn (by omega)).congr
        (fun j a ↦ ?_) (fun _ _ _ ↦ rfl) fun _ _ _ ↦ rfl
      exact hp.awaited_follow k.succ_pos hk.symm (sender_eq_peer (hk ▸ hparity)) hle
    · rw [hskip]
      split <;> rfl

end History

end VoceChat
