import VoceChat.Ratchet.Reliability

/-!
# The store of skipped keys (`voce-e2ee-core/src/ratchet.rs`)

What a party should have in its store follows from the headers it has accepted, one after the other
(`ReceivedChains`): the chains it has received from, how far each was followed and which indices
were used. A header of a chain that was not seen before tells how long the one before it is.

In every state of a session the store has exactly the keys of the indices that were passed over in
each of these chains and not used since, and each is the key that its chain has at this index
(`Session.StoreExact`). No key in the store is ever replaced by another, no call of
`skip_message_keys` adds more than `maxSkip`, and no counter wraps (`skipped_keys_exact`).
-/

namespace VoceChat

open Machine

/-- What the headers that a party accepted tell of the chains it receives from. -/
structure ReceivedChains where
  /-- The newest of the chains, by the public key that names it. -/
  current : Option String
  /-- The index reached in each. -/
  reached : String → ℕ
  used : String → List ℕ

namespace ReceivedChains

def start : ReceivedChains := ⟨none, fun _ ↦ 0, fun _ ↦ []⟩

/-- A new chain; the one before it has `pn` messages. -/
def turn (l : ReceivedChains) (name : String) (pn : ℕ) : ReceivedChains :=
  { l with
    current := some name
    reached := match l.current with
      | some old => Function.update l.reached old (max (l.reached old) pn)
      | none => l.reached }

/-- A message of a chain. -/
def use (l : ReceivedChains) (name : String) (n : ℕ) : ReceivedChains :=
  { l with
    reached := Function.update l.reached name (max (l.reached name) (n + 1))
    used := Function.update l.used name (n :: l.used name) }

/-- The chain was received from. -/
def Seen (l : ReceivedChains) (name : String) : Prop := l.used name ≠ []

instance (l : ReceivedChains) (name : String) : Decidable (l.Seen name) :=
  inferInstanceAs (Decidable (_ ≠ _))

def accept (l : ReceivedChains) (header : RatchetHeader) : ReceivedChains :=
  let turned := if l.Seen header.dhPubB64 then l else l.turn header.dhPubB64 header.pn
  turned.use header.dhPubB64 header.n

end ReceivedChains

namespace Session

variable {Secret Pub Key : Type} [DecidableEq Pub] [DecidableEq Key]

/-- The chains that a party has received from. -/
def received (s : Session Secret Pub Key) (r : Role) : ReceivedChains :=
  (s.accepted.filter fun a ↦ a.1 = r).foldl (fun l a ↦ l.accept a.2.1) .start

/-- The chain with this name starts at this key: its messages were sealed with the keys from there
on. -/
def StartsAt (C : Primitives Secret Pub Key) (s : Session Secret Pub Key) (r : Role)
    (name : String) (key : Key) : Prop :=
  ∀ m ∈ s.sent, m.sender = r.peer → m.header.dhPubB64 = name →
    m.key = C.messageKey key m.header.n

/-- The store has the keys of the chains seen, at the indices that were passed over and not used,
and no others. -/
structure StoreExact (C : Primitives Secret Pub Key) (s : Session Secret Pub Key) (r : Role) :
    Prop where
  keys : ∀ name, (s.received r).Seen name → ∃ start, s.StartsAt C r name start ∧
    ∀ n key, (s.party r).mkskipped.lookup (name, n) = some key ↔
      n < (s.received r).reached name ∧ n ∉ (s.received r).used name ∧ key = C.messageKey start n
  seen : ∀ name n key, (s.party r).mkskipped.lookup (name, n) = some key →
    (s.received r).Seen name

end Session

/-! ### The chains in the history -/

namespace History

variable {Secret Pub Key : Type} (C : Primitives Secret Pub Key) (H : History Secret)

/-- The party receives from chain `i`, or did. -/
structure Incoming (r : Role) (i : ℕ) : Prop where
  pos : 0 < i
  lt_turn : i < H.turn r
  sender_eq : sender i = r.peer

/-- The chains received from are those of the history. -/
structure Tells (r : Role) (nr : ℕ) (l : ReceivedChains) : Prop where
  current_none : H.turn r ≤ 1 → l.current = none
  current : ∀ k, H.turn r = k + 2 → l.current = some (H.name C (k + 1))
  reached : ∀ i, H.Incoming r i → l.reached (H.name C i) = H.received r nr i
  used : ∀ i, H.Incoming r i → ∀ n, n ∈ l.used (H.name C i) ↔ H.used i n
  unseen : ∀ name, (∀ i, H.Incoming r i → name ≠ H.name C i) →
    l.reached name = 0 ∧ l.used name = []

variable {C H} {H' : History Secret} {r : Role} {nr : ℕ} {l : ReceivedChains}

theorem awaited_iff_incoming {i n : ℕ} :
    H.Awaited r nr i n ↔ H.Incoming r i ∧ n < H.received r nr i ∧ ¬H.used i n :=
  ⟨fun ⟨hpos, hlt, hs, hn, hu⟩ ↦ ⟨⟨hpos, hlt, hs⟩, hn, hu⟩,
    fun ⟨⟨hpos, hlt, hs⟩, hn, hu⟩ ↦ ⟨hpos, hlt, hs, hn, hu⟩⟩

/-- They depend on the chains of the peer only, and not on the length of the newest. -/
theorem Tells.congr (h : H.Tells C r nr l) (hturn : H'.turn r = H.turn r)
    (hsecret : ∀ i < H.turn r, H'.secret i = H.secret i)
    (hcount : ∀ i, H.Incoming r i → i + 1 ≠ H.turn r → H'.count i = H.count i)
    (hused : ∀ i, H.Incoming r i → ∀ n, H'.used i n ↔ H.used i n) : H'.Tells C r nr l := by
  have hincoming : ∀ i, H'.Incoming r i ↔ H.Incoming r i := fun i ↦
    ⟨fun ⟨hpos, hlt, hs⟩ ↦ ⟨hpos, hturn ▸ hlt, hs⟩, fun ⟨hpos, hlt, hs⟩ ↦ ⟨hpos, hturn ▸ hlt, hs⟩⟩
  have hname : ∀ i < H.turn r, H'.name C i = H.name C i := fun i hi ↦ name_congr (hsecret i hi)
  constructor
  · rw [hturn]
    exact h.current_none
  · intro k hk
    rw [hturn] at hk
    rw [h.current k hk, hname (k + 1) (by omega)]
  · intro i hi
    rw [hincoming] at hi
    rw [hname i hi.lt_turn, h.reached i hi]
    unfold received
    rw [hturn]
    split
    · rfl
    · exact (hcount i hi (by assumption)).symm
  · intro i hi n
    rw [hincoming] at hi
    rw [hname i hi.lt_turn, h.used i hi, hused i hi]
  · intro name hne
    refine h.unseen name fun i hi ↦ ?_
    rw [← hname i hi.lt_turn]
    exact hne i ((hincoming i).2 hi)

/-- A message of a chain that is received from already. -/
theorem Tells.use (h : H.Tells C r nr l) (hname : H.Named C (H.turn r)) {i n nr' : ℕ}
    (hi : H.Incoming r i) (hnew : i + 1 = H.turn r → nr' = max nr (n + 1))
    (hold : i + 1 ≠ H.turn r → nr' = nr ∧ n < H.count i) :
    (H.accept i n).Tells C r nr' (l.use (H.name C i) n) := by
  have hother : ∀ j, H.Incoming r j → j ≠ i → H.name C j ≠ H.name C i := fun j hj hne heq ↦
    hne (hname j i hj.lt_turn hi.lt_turn heq)
  refine ⟨h.current_none, h.current, fun j hj ↦ ?_, fun j hj a ↦ ?_, fun name hne ↦ ?_⟩
  · replace hj : H.Incoming r j := ⟨hj.pos, hj.lt_turn, hj.sender_eq⟩
    show (l.use (H.name C i) n).reached (H.name C j) = H.received r nr' j
    by_cases hij : j = i
    · subst hij
      refine (Function.update_self ..).trans ?_
      rw [h.reached j hj]
      by_cases hlast : j + 1 = H.turn r
      · rw [received_newest hlast, received_newest hlast, hnew hlast]
      · rw [received_old hlast, received_old hlast]
        have hlt := (hold hlast).2
        omega
    · refine (Function.update_of_ne (hother j hj hij) _ _).trans ?_
      rw [h.reached j hj]
      by_cases hlast : j + 1 = H.turn r
      · rw [received_newest hlast, received_newest hlast]
        exact (hold (by omega)).1.symm
      · rw [received_old hlast, received_old hlast]
  · replace hj : H.Incoming r j := ⟨hj.pos, hj.lt_turn, hj.sender_eq⟩
    show a ∈ (l.use (H.name C i) n).used (H.name C j) ↔ H.used j a ∨ j = i ∧ a = n
    by_cases hij : j = i
    · subst hij
      have hused : (l.use (H.name C j) n).used (H.name C j) = n :: l.used (H.name C j) :=
        Function.update_self ..
      rw [hused, List.mem_cons, h.used j hj, or_comm, and_iff_right rfl]
    · have hused : (l.use (H.name C i) n).used (H.name C j) = l.used (H.name C j) :=
        Function.update_of_ne (hother j hj hij) _ _
      rw [hused, h.used j hj]
      exact (or_iff_left fun heq ↦ hij heq.1).symm
  · have hne' : ∀ j, H.Incoming r j → name ≠ H.name C j := fun j hj ↦
      hne j ⟨hj.pos, hj.lt_turn, hj.sender_eq⟩
    obtain ⟨hreached, hused⟩ := h.unseen name hne'
    exact ⟨(Function.update_of_ne (hne' i hi) _ _).trans hreached,
      (Function.update_of_ne (hne' i hi) _ _).trans hused⟩

/-- A new chain: the one before it is received to its end. -/
theorem Tells.turn (h : H.Tells C r nr l) (hparity : sender (H.turn r) = r)
    (hname : H.Named C (H.turn r + 2)) (hle : nr ≤ H.count (H.turn r - 1))
    (hunused : ∀ n, ¬H.used (H.turn r + 1) n) (fresh : Secret) :
    (H.advance r fresh).Tells C r 0
      (l.turn (H.name C (H.turn r + 1)) (H.count (H.turn r - 1))) := by
  have hincoming : ∀ i, (H.advance r fresh).Incoming r i → H.Incoming r i ∨ i = H.turn r + 1 := by
    rintro i ⟨hpos, hlt, hs⟩
    rw [advance_turn_self] at hlt
    by_cases hi : i = H.turn r + 1
    · exact .inr hi
    · have hne : i ≠ H.turn r := by
        rintro rfl
        exact r.ne_peer (hparity.symm.trans hs)
      exact .inl ⟨hpos, by omega, hs⟩
  have hold : ∀ i, H.Incoming r i → (H.advance r fresh).Incoming r i := fun i hi ↦
    ⟨hi.pos, by rw [advance_turn_self]; have := hi.lt_turn; omega, hi.sender_eq⟩
  have hnames : ∀ i < H.turn r + 2, (H.advance r fresh).name C i = H.name C i := fun i hi ↦
    name_congr (advance_secret_of_lt hi)
  have hfirst := h.unseen (H.name C (H.turn r + 1)) fun i hi heq ↦ by
    have hlt := hi.lt_turn
    have := hname _ _ (by omega) (by omega) heq
    omega
  have hreached : ∀ name, (∀ k, H.turn r = k + 2 → name ≠ H.name C (k + 1)) →
      (l.turn (H.name C (H.turn r + 1)) (H.count (H.turn r - 1))).reached name =
        l.reached name := by
    intro name hne
    rcases Nat.lt_or_ge (H.turn r) 2 with hlt | hge
    · rw [ReceivedChains.turn, h.current_none (by omega)]
    · obtain ⟨k, hk⟩ := Nat.exists_eq_add_of_le' hge
      rw [ReceivedChains.turn, h.current k hk]
      exact Function.update_of_ne (hne k hk) _ _
  constructor
  · rw [advance_turn_self]
    omega
  · intro k hk
    rw [advance_turn_self] at hk
    obtain rfl : k = H.turn r := by omega
    rw [hnames _ (by omega)]
    rfl
  · intro i hi
    rcases hincoming i hi with hi | rfl
    · have hlt := hi.lt_turn
      rw [hnames i (by omega), received_old (by rw [advance_turn_self]; omega)]
      show _ = H.count i
      by_cases hlast : i + 1 = H.turn r
      · obtain ⟨k, rfl⟩ := Nat.exists_eq_succ_of_ne_zero hi.pos.ne'
        have hcurrent := h.current k hlast.symm
        have hmax : (l.turn (H.name C (H.turn r + 1)) (H.count (H.turn r - 1))).reached
            (H.name C (k + 1)) = max (l.reached (H.name C (k + 1))) (H.count (H.turn r - 1)) := by
          rw [ReceivedChains.turn, hcurrent]
          exact Function.update_self ..
        rw [hmax, h.reached _ hi, received_newest hlast, max_eq_right hle,
          show H.turn r - 1 = k + 1 by omega]
      · rw [hreached _ fun k hk heq ↦ ?_, h.reached i hi, received_old hlast]
        have := hname _ _ (by omega) (by omega) heq
        omega
    · rw [hnames _ (by omega), received_newest (advance_turn_self ..).symm,
        hreached _ fun k hk heq ↦ ?_, hfirst.1]
      have := hname _ _ (by omega) (by omega) heq
      omega
  · intro i hi n
    rcases hincoming i hi with hi | rfl
    · rw [hnames i (by have := hi.lt_turn; omega)]
      exact h.used i hi n
    · rw [hnames _ (by omega)]
      show n ∈ l.used _ ↔ H.used _ n
      rw [hfirst.2]
      exact iff_of_false List.not_mem_nil (hunused n)
  · intro name hne
    have hne' : ∀ i, H.Incoming r i → name ≠ H.name C i := fun i hi ↦ by
      rw [← hnames i (by have := hi.lt_turn; omega)]
      exact hne i (hold i hi)
    obtain ⟨hzero, hnil⟩ := h.unseen name hne'
    refine ⟨(hreached name fun k hk ↦ hne' (k + 1) ⟨k.succ_pos, by omega, ?_⟩).trans hzero, hnil⟩
    exact sender_eq_peer (hk ▸ hparity)

end History

/-! ### The counter after a delivery -/

namespace Agreed

variable {Secret Pub Key : Type} {C : Primitives Secret Pub Key} {sk : Key}
variable {H : History Secret} {s t : Session Secret Pub Key} {r : Role} {fresh : Secret}
variable [DecidableEq Pub] [DecidableEq Key]

omit [DecidableEq Key] in
/-- A message of a chain that is received from moves the counter past it if the chain is the newest.
A message of the next chain starts the counter again. -/
theorem nr_of_ok (hC : C.Ideal sk) (hI : Agreed C sk H s) {m : SentMessage Key} {i n : ℕ}
    (hat : H.At C sk m i n) (hs : m.sender = r.peer) (hunused : ¬H.used i n) {opn : Opener Key}
    {ciphertext pt : Bytes} {st : RatchetState Secret Pub Key}
    (h : (s.party r).decryptStaged C opn fresh m.header ciphertext = .ok (pt, st)) :
    (H.Incoming r i ∧ (i + 1 = H.turn r → st.nr = max (s.party r).nr (n + 1)) ∧
      (i + 1 ≠ H.turn r → st.nr = (s.party r).nr)) ∨
    (i = H.turn r + 1 ∧ st.nr = n + 1) := by
  have hp := hI.party r
  have hsender : History.sender i = r.peer := hat.sender_eq.trans hs
  have hd : m.header.dhPubB64 = H.name C i := by rw [hat.header_eq]; rfl
  have hidx : m.header.n = n := by rw [hat.header_eq]; rfl
  have hpub : C.decodePub m.header.dhPubB64 = .ok (C.publicKey (H.secret i)) := by
    rw [hd]
    exact hC.decode_encode _
  have hroom := hI.count_lt i
  have hlt := hat.lt_count
  have hopened : ∀ {key : Key} {f : Bytes → Bytes × RatchetState Secret Pub Key},
      (opn key ciphertext m.header).map f = .ok (pt, st) → ∃ pt', f pt' = (pt, st) := by
    intro key f hmap
    cases hopen : opn key ciphertext m.header with
    | error e =>
      rw [hopen] at hmap
      cases hmap
    | ok pt' =>
      rw [hopen] at hmap
      exact ⟨pt', Except.ok.inj hmap⟩
  cases hlook : (s.party r).mkskipped.lookup (m.header.dhPubB64, m.header.n) with
  | some key =>
    obtain ⟨j, hj, hname, -⟩ := (hp.skipped _ _ _).1 hlook
    obtain rfl : i = j := hI.name_inj hat.le_turn hj.lt_turn.le (hd.symm.trans hname)
    rw [RatchetState.decryptStaged_of_some hlook] at h
    obtain ⟨pt', heq⟩ := hopened h
    obtain rfl := (Prod.ext_iff.1 heq).2
    refine .inl ⟨⟨hj.pos, hj.lt_turn, hsender⟩, fun hlast ↦ ?_, fun _ ↦ rfl⟩
    have hreceived := hj.lt_received
    rw [History.received_newest hlast, hidx] at hreceived
    exact (max_eq_left hreceived).symm
  | none =>
    have hunreached : H.Incoming r i → ¬n < H.received r (s.party r).nr i := by
      intro hi hn
      have hsome := hp.skipped.lookup_eq_some ⟨hi.pos, hi.lt_turn, hsender, hn, hunused⟩
      rw [← hd, ← hidx, hlook] at hsome
      cases hsome
    by_cases hdhr : (s.party r).dhr = some (C.publicKey (H.secret i))
    · -- the chain is the one that the party's remote key names
      obtain ⟨k, hk⟩ : ∃ k, H.turn r = k + 1 := by
        refine Nat.exists_eq_succ_of_ne_zero fun hzero ↦ ?_
        rw [(hp.send_none hzero).1] at hdhr
        cases hdhr
      have hpublic := Option.some_inj.1 ((hp.dhr k hk).symm.trans hdhr)
      obtain rfl : k = i :=
        hI.name_inj (q := r) (by omega) hat.le_turn (congrArg C.encodePub hpublic)
      have hi : H.Incoming r k := ⟨hat.pos, by omega, hsender⟩
      have hreached := hunreached hi
      rw [History.received_newest hk.symm] at hreached
      obtain ⟨j, rfl⟩ := Nat.exists_eq_succ_of_ne_zero hat.pos.ne'
      obtain ⟨skipped, -, hres⟩ := hp.decryptStaged_current opn fresh ciphertext hk hlook hpub
      rw [hres] at h
      split at h
      · cases h
      obtain ⟨pt', heq⟩ := hopened h
      obtain rfl := (Prod.ext_iff.1 heq).2
      refine .inl ⟨hi, fun _ ↦ ?_, fun hne ↦ absurd hk.symm hne⟩
      show wrappingAdd (max (s.party r).nr m.header.n) 1 = _
      rw [hidx, max_eq_right (by omega), wrappingAdd_of_lt (by omega), max_eq_right (by omega)]
    · obtain ⟨stored, skipped, -, -, hres⟩ := hp.decryptStaged_turn opn fresh ciphertext
        (hI.parity r) (fun a b ha hb ↦ hI.named r a b (by omega) (by omega)) hlook hpub hdhr
      rw [hres] at h
      split at h
      · cases h
      split at h
      · cases h
      obtain ⟨pt', heq⟩ := hopened h
      obtain rfl := (Prod.ext_iff.1 heq).2
      refine .inr ⟨?_, ?_⟩
      · refine (hI.incoming_cases hsender (hs ▸ hat.le_turn)).resolve_left fun hold ↦ ?_
        refine hunreached ⟨hat.pos, hold, hsender⟩ ?_
        rw [History.received_old fun hlast ↦ hdhr (hp.dhr i hlast.symm)]
        exact hlt
      · show wrappingAdd m.header.n 1 = n + 1
        rw [hidx, wrappingAdd_of_lt (by omega)]

/-! ### Runs -/

/-- The session sits in a history, whose chains the accepted headers tell of, and every chain that
was received from has a message that was used. -/
structure Told (C : Primitives Secret Pub Key) (sk : Key) (H : History Secret)
    (s : Session Secret Pub Key) : Prop where
  agreed : Agreed C sk H s
  tells : ∀ r, H.Tells C r (s.party r).nr (s.received r)
  begun : ∀ r i, H.Incoming r i → ∃ n, H.used i n

end Agreed

namespace RatchetState

variable {Secret Pub Key : Type} {C : Primitives Secret Pub Key}

theorem encrypt_nr (st : RatchetState Secret Pub Key) (plaintext : Bytes) :
    (st.encrypt C plaintext).2.nr = st.nr := by
  unfold encrypt
  split
  · rfl
  · dsimp only
    split <;> rfl

end RatchetState

namespace Session

variable {Secret Pub Key : Type} {C : Primitives Secret Pub Key}
variable [DecidableEq Pub] [DecidableEq Key] {s t : Session Secret Pub Key}

/-- Sealing a message is nothing to the receiving chains. -/
theorem step_encrypt {r : Role} {plaintext : Bytes}
    (h : s.step C (.encrypt r plaintext) = some t) :
    t.accepted = s.accepted ∧ ∀ q, (t.party q).nr = (s.party q).nr := by
  have hnr : ∀ q, (Function.update s.party r ((s.party r).encrypt C plaintext).2 q).nr =
      (s.party q).nr := by
    intro q
    by_cases hq : q = r
    · subst hq
      rw [Function.update_self, RatchetState.encrypt_nr]
    · rw [Function.update_of_ne hq]
  simp only [step] at h
  split at h
  · obtain rfl := Option.some_inj.1 h
    exact ⟨rfl, hnr⟩
  · obtain rfl := Option.some_inj.1 h
    exact ⟨rfl, hnr⟩

omit [DecidableEq Pub] [DecidableEq Key] in
theorem received_append (s : Session Secret Pub Key) (r q : Role) (header : RatchetHeader)
    (ciphertext : Bytes) (party : Role → RatchetState Secret Pub Key) (drawn : List Secret) :
    (⟨party, s.sent, s.accepted ++ [(r, header, ciphertext)], drawn⟩ :
        Session Secret Pub Key).received q =
      if r = q then (s.received q).accept header else s.received q := by
  unfold received
  rw [List.filter_append, List.foldl_append]
  split
  · rename_i hq
    rw [List.filter_cons_of_pos (by simpa using hq)]
    rfl
  · rename_i hq
    rw [List.filter_cons_of_neg (by simpa using hq)]
    rfl

end Session

namespace Agreed.Told

variable {Secret Pub Key : Type} {C : Primitives Secret Pub Key} {sk : Key}
variable {H : History Secret} {s t : Session Secret Pub Key} {r : Role} {fresh : Secret}
variable [DecidableEq Pub] [DecidableEq Key]

omit [DecidableEq Pub] [DecidableEq Key] in
theorem init (hC : C.Ideal sk) {a b : Secret} (hne : C.publicKey a ≠ C.publicKey b) :
    Told C sk (History.start a b) (Session.init C sk a b) := by
  have hnone : ∀ r i, ¬(History.start a b).Incoming r i := by
    rintro r i ⟨hpos, hlt, -⟩
    have hle : (History.start a b).turn r ≤ 1 := by
      cases r
      · exact le_rfl
      · exact Nat.zero_le _
    omega
  refine ⟨.init hC hne, fun r ↦ ⟨fun _ ↦ rfl, fun k hk ↦ ?_, fun i hi ↦ absurd hi (hnone r i),
    fun i hi ↦ absurd hi (hnone r i), fun _ _ ↦ ⟨rfl, rfl⟩⟩, fun r i hi ↦ absurd hi (hnone r i)⟩
  cases r
  · exact absurd hk (by simp [History.start])
  · exact absurd hk (by simp [History.start])

theorem encrypt (h : Told C sk H s) {plaintext : Bytes}
    (hroom : s.ChainRoom (.encrypt r plaintext))
    (hstep : s.step C (.encrypt r plaintext) = some t) : ∃ H', Told C sk H' t := by
  obtain ⟨haccepted, hnr⟩ := Session.step_encrypt hstep
  have hreceived : ∀ q, t.received q = s.received q := fun q ↦ by
    unfold Session.received
    rw [haccepted]
  obtain ⟨H', hagreed, rfl | rfl⟩ := h.agreed.encrypt hroom hstep
  · exact ⟨H', hagreed, fun q ↦ hreceived q ▸ (hnr q).symm ▸ h.tells q, h.begun⟩
  · refine ⟨_, hagreed, fun q ↦ ?_, fun q i hi ↦ h.begun q i ⟨hi.pos, hi.lt_turn, hi.sender_eq⟩⟩
    rw [hreceived q, hnr q]
    refine (h.tells q).congr rfl (fun _ _ ↦ rfl) (fun i hi hlast ↦ ?_) fun _ _ _ ↦ .rfl
    have hlt := hi.lt_turn
    -- the sender's chain is the newest of its peer's or not received from yet
    refine History.bump_count_of_ne fun heq ↦ ?_
    rcases Role.eq_or_eq_peer r q with rfl | rfl
    · omega
    · have hturns := h.agreed.turn_peer r
      omega

omit [DecidableEq Pub] [DecidableEq Key] in
/-- The reader of a message has a chain more, or the same ones with one more message used. -/
theorem tells_reader (h : Told C sk H s) {i n : ℕ} {m : SentMessage Key} (hat : H.At C sk m i n)
    (hs : m.sender = r.peer) {nr : ℕ}
    (hnr : (H.Incoming r i ∧ (i + 1 = H.turn r → nr = max (s.party r).nr (n + 1)) ∧
      (i + 1 ≠ H.turn r → nr = (s.party r).nr)) ∨ (i = H.turn r + 1 ∧ nr = n + 1))
    {H' : History Secret} (hold : H.Incoming r i → H' = H)
    (hnew : i = H.turn r + 1 → H' = H.advance r fresh) :
    (H'.accept i n).Tells C r nr ((s.received r).accept m.header) ∧
      ∀ j, H'.Incoming r j → j = i ∨ ∃ a, H'.used j a := by
  have hd : m.header.dhPubB64 = H.name C i := by rw [hat.header_eq]; rfl
  have hidx : m.header.n = n := by rw [hat.header_eq]; rfl
  have hpn : m.header.pn = H.count (i - 2) := by rw [hat.header_eq]; rfl
  have hp := h.agreed.party r
  obtain ⟨hi, hlast, hearlier⟩ | ⟨rfl, rfl⟩ := hnr
  · obtain rfl := hold hi
    obtain ⟨a, ha⟩ := h.begun r i hi
    have hseen : (s.received r).Seen m.header.dhPubB64 := by
      rw [hd]
      exact List.ne_nil_of_mem (((h.tells r).used i hi a).2 ha)
    refine ⟨?_, fun j hj ↦ .inr (h.begun r j hj)⟩
    rw [ReceivedChains.accept, if_pos hseen, hd, hidx]
    exact (h.tells r).use (fun a b ha hb ↦ h.agreed.named r a b (by omega) (by omega)) hi hlast
      fun hne ↦ ⟨hearlier hne, hat.lt_count⟩
  · obtain rfl := hnew rfl
    have hpeer : H.turn r.peer = H.turn r + 1 := by
      have hle := hs ▸ hat.le_turn
      rcases h.agreed.turn_peer r with hturn | hturn <;> omega
    have hnamed : H.Named C (H.turn r + 2) := by
      have hnamed := h.agreed.named r.peer
      rwa [hpeer] at hnamed
    have hsender : History.sender (H.turn r + 1) = r.peer := hat.sender_eq.trans hs
    have hunseen : ¬(s.received r).Seen m.header.dhPubB64 := by
      rw [hd, ReceivedChains.Seen, not_not]
      refine ((h.tells r).unseen _ fun j hj heq ↦ ?_).2
      have hlt := hj.lt_turn
      have := hnamed _ _ (by omega) (by omega) heq
      omega
    have hturned := (h.tells r).turn (h.agreed.parity r) hnamed hp.nr_le_ended
      (fun a ha ↦ by have := (hp.used_lt _ a hsender ha).2.1; omega) fresh
    have hname : (H.advance r fresh).name C (H.turn r + 1) = H.name C (H.turn r + 1) :=
      History.name_congr (History.advance_secret_of_lt (by omega))
    have hi : (H.advance r fresh).Incoming r (H.turn r + 1) :=
      ⟨Nat.succ_pos _, by rw [History.advance_turn_self]; omega, hsender⟩
    constructor
    · rw [ReceivedChains.accept, if_neg hunseen, hd, hidx, hpn]
      have hused : ((H.advance r fresh).accept (H.turn r + 1) n).Tells C r (n + 1) _ := hturned.use
        (by rw [History.advance_turn_self]; exact hnamed.advance fresh) hi
        (fun _ ↦ (Nat.zero_max _).symm)
        fun hne ↦ absurd (History.advance_turn_self r fresh).symm hne
      rw [hname] at hused
      exact hused
    · rintro j ⟨hpos, hlt, hj⟩
      rw [History.advance_turn_self] at hlt
      by_cases hji : j = H.turn r + 1
      · exact .inl hji
      · refine .inr (h.begun r j ⟨hpos, ?_, hj⟩)
        have hne : j ≠ H.turn r := by
          rintro rfl
          exact r.ne_peer ((h.agreed.parity r).symm.trans hj)
        omega

theorem deliver (hC : C.Ideal sk) (h : Told C sk H s) {header : RatchetHeader}
    {ciphertext : Bytes} (hstep : s.step C (.deliver r header ciphertext fresh) = some t) :
    ∃ H', Told C sk H' t := by
  obtain ⟨rfl, hagreed⟩ |
    ⟨m, hm, pt, st, i, n, H', rfl, hdec, hat, hs, hunused, hH', rfl, hagreed⟩ :=
    h.agreed.deliver_cases hC hstep
  · exact ⟨H, hagreed, h.tells, h.begun⟩
  have hold : H.Incoming r i → H' = H := fun hi ↦ hH'.resolve_right fun hnew ↦ by
    have hlt := hi.lt_turn
    omega
  have hnew : i = H.turn r + 1 → H' = H.advance r fresh := fun hi ↦ by
    obtain rfl | ⟨-, rfl⟩ := hH'
    · have hlt := ((hagreed.party r).used_lt i n (hat.sender_eq.trans hs) (.inr ⟨rfl, rfl⟩)).2.1
      change i < H'.turn r at hlt
      omega
    · rfl
  obtain ⟨htells, hbegun⟩ :=
    h.tells_reader hat hs (h.agreed.nr_of_ok hC hat hs hunused hdec) hold hnew
  -- the sender of the message receives from its own chains no more than before
  have hturn : H'.turn r.peer = H.turn r.peer := by
    obtain rfl | ⟨-, rfl⟩ := hH'
    · rfl
    · exact Function.update_of_ne r.peer_ne _ _
  have hsecret : ∀ j < H.turn r.peer, H'.secret j = H.secret j := by
    obtain rfl | ⟨-, rfl⟩ := hH'
    · exact fun _ _ ↦ rfl
    · intro j hj
      have hle := h.agreed.near r.peer
      rw [Role.peer_peer] at hle
      exact History.advance_secret_of_lt (by omega)
  have hsame : H'.count = H.count ∧ H'.used = H.used := by
    obtain rfl | ⟨-, rfl⟩ := hH'
    · exact ⟨rfl, rfl⟩
    · exact ⟨rfl, rfl⟩
  refine ⟨_, hagreed, fun q ↦ ?_, fun q j hj ↦ ?_⟩
  · rw [Session.received_append]
    rcases Role.eq_or_eq_peer r q with rfl | rfl
    · rw [if_pos rfl]
      show (H'.accept i n).Tells C q (Function.update s.party q st q).nr _
      rw [Function.update_self]
      exact htells
    · rw [if_neg r.ne_peer]
      show (H'.accept i n).Tells C r.peer (Function.update s.party r st r.peer).nr _
      rw [Function.update_of_ne r.peer_ne]
      refine (h.tells r.peer).congr hturn hsecret (fun j _ _ ↦ congrFun hsame.1 j) fun j hj a ↦ ?_
      show H'.used j a ∨ _ ↔ _
      rw [hsame.2]
      refine or_iff_left ?_
      rintro ⟨rfl, -⟩
      exact r.peer.ne_peer (hs.symm.trans (hat.sender_eq.symm.trans hj.sender_eq))
  · obtain ⟨hpos, hlt, hsender⟩ := hj
    change j < H'.turn q at hlt
    rcases Role.eq_or_eq_peer r q with rfl | rfl
    · rcases hbegun j ⟨hpos, hlt, hsender⟩ with rfl | ⟨a, ha⟩
      · exact ⟨n, .inr ⟨rfl, rfl⟩⟩
      · exact ⟨a, .inl ha⟩
    · obtain ⟨a, ha⟩ := h.begun r.peer j ⟨hpos, hturn ▸ hlt, hsender⟩
      exact ⟨a, .inl (hsame.2 ▸ ha)⟩

/-- Every reachable session is told of by its accepted headers. -/
theorem of_run (hC : C.Ideal sk) {a b : Secret} (hne : C.publicKey a ≠ C.publicKey b)
    {as : List (SessionAction Secret)}
    (hroom : Transition.Along (Session.step C) Session.ChainRoom (Session.init C sk a b) as)
    (hrun : Transition.run (Session.step C) (Session.init C sk a b) as = some t) :
    ∃ H, Told C sk H t := by
  refine Transition.run_induction_along (I := fun s ↦ ∃ H, Told C sk H s) ?_ ⟨_, init hC hne⟩
    hroom hrun
  rintro s (⟨r, plaintext⟩ | ⟨r, header, ciphertext, fresh⟩) t ⟨H, h⟩ hok hstep
  · exact h.encrypt hok hstep
  · exact h.deliver hC hstep

omit [DecidableEq Pub] [DecidableEq Key] in
/-- The store has exactly the keys that it should. -/
theorem storeExact (h : Told C sk H s) (r : Role) : s.StoreExact C r := by
  have hp := h.agreed.party r
  have hseen : ∀ i, H.Incoming r i → (s.received r).Seen (H.name C i) := fun i hi ↦ by
    obtain ⟨a, ha⟩ := h.begun r i hi
    exact List.ne_nil_of_mem (((h.tells r).used i hi a).2 ha)
  constructor
  · intro name hname
    obtain ⟨i, hi, rfl⟩ : ∃ i, H.Incoming r i ∧ name = H.name C i := by
      by_contra hnone
      exact hname ((h.tells r).unseen name fun i hi heq ↦ hnone ⟨i, hi, heq⟩).2
    refine ⟨H.startKey C sk i, fun m hm hs hd ↦ ?_, fun n key ↦ ?_⟩
    · obtain ⟨j, n, hat, -⟩ := h.agreed.sent m hm
      have hj : m.header.dhPubB64 = H.name C j := by rw [hat.header_eq]; rfl
      have hidx : m.header.n = n := by rw [hat.header_eq]; rfl
      obtain rfl := h.agreed.name_inj hat.le_turn hi.lt_turn.le (hj.symm.trans hd)
      rw [hidx]
      exact hat.key_eq
    · rw [hp.skipped, (h.tells r).reached i hi, (h.tells r).used i hi]
      constructor
      · rintro ⟨j, hj, heq, rfl⟩
        obtain rfl := h.agreed.named r i j (by have := hi.lt_turn; omega)
          (by have := hj.lt_turn; omega) heq
        exact ⟨hj.lt_received, hj.unused, rfl⟩
      · rintro ⟨hlt, hunused, rfl⟩
        exact ⟨i, ⟨hi.pos, hi.lt_turn, hi.sender_eq, hlt, hunused⟩, rfl, rfl⟩
  · intro name n key hlook
    obtain ⟨i, hi, rfl, -⟩ := (hp.skipped _ _ _).1 hlook
    exact hseen i ⟨hi.pos, hi.lt_turn, hi.sender_eq⟩

end Agreed.Told

/-! ### Skipping -/

namespace RatchetState

variable {Secret Pub Key : Type} {C : Primitives Secret Pub Key}
variable {st t : RatchetState Secret Pub Key}

theorem skipLoop_le (fuel : ℕ) (h : skipLoop C fuel st = .ok t) : t.nr ≤ st.nr + fuel ∧
    t.mkskipped.entries.length ≤ st.mkskipped.entries.length + fuel := by
  induction fuel generalizing st with
  | zero =>
    obtain rfl := Except.ok.inj h
    exact ⟨le_rfl, le_rfl⟩
  | succ fuel ih =>
    rw [skipLoop] at h
    split at h
    · obtain rfl := Except.ok.inj h
      exact ⟨Nat.le_add_right _ _, Nat.le_add_right _ _⟩
    · cases h
    · rename_i ckr dhr _ _
      obtain ⟨hnr, hlength⟩ := ih h
      have hinsert : (st.mkskipped.insert (C.encodePub dhr, st.nr) (C.kdfCk ckr).1).entries.length ≤
          st.mkskipped.entries.length + 1 := by
        rw [AList.entries_insert, List.length_cons]
        exact Nat.succ_le_succ (List.kerase_sublist _ _).length_le
      exact ⟨by simp only at hnr; omega, by simp only at hlength; omega⟩

/-- One call adds at most `maxSkip` keys, and the counter moves by as much. -/
theorem skipMessageKeys_le {bound : ℕ} (h : st.skipMessageKeys C bound = .ok t) :
    t.nr ≤ st.nr + maxSkip ∧
      t.mkskipped.entries.length ≤ st.mkskipped.entries.length + maxSkip := by
  rw [skipMessageKeys] at h
  split at h
  · cases h
  rename_i hbound
  have hle : saturatingAdd st.nr maxSkip ≤ st.nr + maxSkip := Nat.min_le_left _ _
  split at h
  · obtain rfl := Except.ok.inj h
    exact ⟨Nat.le_add_right _ _, Nat.le_add_right _ _⟩
  · obtain ⟨hnr, hlength⟩ := skipLoop_le _ h
    exact ⟨by omega, by omega⟩

/-- After a turn the counter starts again. -/
theorem nr_of_turnTo [DecidableEq Pub] {p : Pub} {pn : ℕ} {fresh : Secret}
    (h : st.turnTo C p pn fresh = .ok t) : t.nr = st.nr ∨ t.nr = 0 := by
  rw [turnTo] at h
  split at h
  · obtain rfl := Except.ok.inj h
    exact .inl rfl
  · cases hskip : st.skipMessageKeys C pn with
    | error e =>
      rw [hskip] at h
      cases h
    | ok u =>
      rw [hskip] at h
      obtain rfl := Except.ok.inj h
      exact .inr rfl

/-- No counter wraps: neither when a message is sent, nor when keys of the chain, or of the next
one, are skipped and one more is used. -/
structure CountersFit [DecidableEq Pub] (C : Primitives Secret Pub Key)
    (st : RatchetState Secret Pub Key) : Prop where
  ns : st.ns + 1 < u32Size
  skip : ∀ bound t, st.skipMessageKeys C bound = .ok t → t.nr + 1 < u32Size
  turn : ∀ p pn fresh t bound u, st.turnTo C p pn fresh = .ok t →
    t.skipMessageKeys C bound = .ok u → u.nr + 1 < u32Size

theorem countersFit [DecidableEq Pub] (hns : st.ns + 101 < u32Size) (hnr : st.nr + 101 < u32Size) :
    st.CountersFit C where
  ns := by omega
  skip bound t h := by
    have hle := (skipMessageKeys_le h).1
    rw [maxSkip] at hle
    omega
  turn p pn fresh t bound u hturn h := by
    have hle := (skipMessageKeys_le h).1
    rw [maxSkip] at hle
    have hzero : 101 < u32Size := by decide
    rcases nr_of_turnTo hturn with hsame | hstart <;> omega

end RatchetState

/-! ### The store in every state -/

namespace Session

variable {Secret Pub Key : Type} {C : Primitives Secret Pub Key} {sk : Key}
variable [DecidableEq Pub] [DecidableEq Key] {s t : Session Secret Pub Key}

theorem sent_subset_of_step {a : SessionAction Secret} (h : s.step C a = some t) :
    s.sent ⊆ t.sent := by
  cases a with
  | encrypt r plaintext =>
    simp only [step] at h
    split at h
    · obtain rfl := Option.some_inj.1 h
      exact List.subset_append_left _ _
    · obtain rfl := Option.some_inj.1 h
      exact List.Subset.refl _
  | deliver r header ciphertext fresh =>
    simp only [step] at h
    split at h
    · obtain rfl := Option.some_inj.1 h
      exact List.Subset.refl _
    · cases h

theorem sent_subset_of_run {as : List (SessionAction Secret)}
    (h : Transition.run (step C) s as = some t) : s.sent ⊆ t.sent :=
  Transition.run_induction (I := fun u : Session Secret Pub Key ↦ s.sent ⊆ u.sent)
    (fun _ _ _ hI hstep ↦ List.Subset.trans hI (sent_subset_of_step hstep)) (List.Subset.refl _) h

omit [DecidableEq Pub] [DecidableEq Key] in
/-- A chain that was received from has a message that was sent. -/
theorem exists_sent_of_seen {H : History Secret} (hI : Recorded C sk H s) {r : Role} {name : String}
    (h : (s.received r).Seen name) :
    ∃ m ∈ s.sent, m.sender = r.peer ∧ m.header.dhPubB64 = name := by
  have hseen : ∀ (accepted : List (Role × RatchetHeader × Bytes)) (l : ReceivedChains),
      (accepted.foldl (fun l a ↦ l.accept a.2.1) l).Seen name →
        l.Seen name ∨ ∃ a ∈ accepted, a.2.1.dhPubB64 = name := by
    intro accepted
    induction accepted with
    | nil => exact fun _ h ↦ .inl h
    | cons a accepted ih =>
      intro l h
      obtain h | ⟨b, hb, heq⟩ := ih _ h
      · by_cases hname : a.2.1.dhPubB64 = name
        · exact .inr ⟨a, List.mem_cons_self, hname⟩
        · refine .inl fun hnil ↦ h ?_
          refine (Function.update_of_ne (Ne.symm hname) _ _).trans ?_
          split
          · exact hnil
          · exact hnil
      · exact .inr ⟨b, List.mem_cons_of_mem _ hb, heq⟩
  obtain h | ⟨a, ha, hname⟩ := hseen _ _ h
  · exact absurd rfl h
  · obtain ⟨hmem, hrole⟩ := List.mem_filter.1 ha
    obtain ⟨m, hm, rfl⟩ := hI.accepted a hmem
    have hpeer : m.sender.peer = r := of_decide_eq_true hrole
    exact ⟨m, hm, by rw [← hpeer, Role.peer_peer], hname⟩

omit [DecidableEq Pub] [DecidableEq Key] in
/-- A message tells where its chain starts. -/
theorem start_unique (hC : C.Ideal sk) {start start' : Key} {n : ℕ}
    (h : C.messageKey start n = C.messageKey start' n) : start = start' :=
  Function.Injective.iterate (f := fun k ↦ (C.kdfCk k).2) (fun _ _ ↦ hC.next_inj) n
    (hC.message_inj h)

/-- **The store of skipped keys** in every state of a session: it has exactly the keys of the
indices that were passed over and not used; a key in it is never replaced by another; a call of
`skip_message_keys` adds no more than `maxSkip`; and no counter wraps. -/
theorem skipped_keys_exact (hC : C.Ideal sk) {aliceSecret bobSpkSecret : Secret}
    (hne : C.publicKey aliceSecret ≠ C.publicKey bobSpkSecret) {as : List (SessionAction Secret)}
    (hroom : Transition.Along (step C) ChainRoom (init C sk aliceSecret bobSpkSecret) as)
    (hrun : Transition.run (step C) (init C sk aliceSecret bobSpkSecret) as = some s) :
    (∀ r, s.StoreExact C r) ∧
    (∀ bs, Transition.Along (step C) ChainRoom s bs → ∀ t, Transition.run (step C) s bs = some t →
      ∀ r name n key key', (s.party r).mkskipped.lookup (name, n) = some key →
        (t.party r).mkskipped.lookup (name, n) = some key' → key' = key) ∧
    (∀ (st st' : RatchetState Secret Pub Key) bound, st.skipMessageKeys C bound = .ok st' →
      st'.mkskipped.entries.length ≤ st.mkskipped.entries.length + maxSkip) ∧
    ∀ r, (s.party r).CountersFit C := by
  obtain ⟨H, h⟩ := Agreed.Told.of_run hC hne hroom hrun
  refine ⟨h.storeExact, fun bs hroom' t hrun' r name n key key' hkey hkey' ↦ ?_,
    fun _ _ _ hskip ↦ (RatchetState.skipMessageKeys_le hskip).2, fun r ↦ ?_⟩
  · have hall : Transition.run (step C) (init C sk aliceSecret bobSpkSecret) (as ++ bs) =
      some t := by
      rw [Transition.run_append, hrun]
      exact hrun'
    obtain ⟨H', h'⟩ := Agreed.Told.of_run hC hne (Transition.along_append.2 ⟨hroom, fun u hu ↦ by
      rwa [← Option.some_inj.1 (hrun.symm.trans hu)]⟩) hall
    have hstore := h.storeExact r
    have hstore' := h'.storeExact r
    have hseen := hstore.seen name n key hkey
    obtain ⟨start, hstart, hkeys⟩ := hstore.keys name hseen
    obtain ⟨start', hstart', hkeys'⟩ := hstore'.keys name (hstore'.seen name n key' hkey')
    -- both stores have keys of the chain that one message was sent in
    obtain ⟨m, hm, hs, hname⟩ := exists_sent_of_seen h.agreed.toRecorded hseen
    have hsame : start = start' := start_unique hC
      ((hstart m hm hs hname).symm.trans (hstart' m (sent_subset_of_run hrun' hm) hs hname))
    rw [((hkeys' n key').1 hkey').2.2, ((hkeys n key).1 hkey).2.2, hsame]
  · have hns := (h.agreed.party r).ns
    have hle := (h.agreed.party r).nr_le_ended
    have hsent := h.agreed.count_lt (H.turn r)
    have hended := h.agreed.count_lt (H.turn r - 1)
    exact RatchetState.countersFit (by omega) (by omega)

/-- Bob, who has read the second message only, has the key of the first and no other. -/
theorem skipped_keys_exact_firstMessageLate : ∃ t, Transition.run (step Primitives.symbolic)
      (init Primitives.symbolic .shared 1 0) firstMessageLate = some t ∧
    ∀ n key, (t.party .bob).mkskipped.lookup ("a", n) = some key → n = 0 := by
  refine ⟨_, rfl, fun n key hkey ↦ ?_⟩
  have hstore := (skipped_keys_exact Primitives.symbolic_ideal
    (by decide : Primitives.symbolic.publicKey 1 ≠ Primitives.symbolic.publicKey 0)
    (by decide : Transition.Along (step Primitives.symbolic) ChainRoom
      (init Primitives.symbolic .shared 1 0) firstMessageLate) rfl).1 .bob
  obtain ⟨start, -, hkeys⟩ := hstore.keys "a" (by decide)
  obtain ⟨hlt, hunused, -⟩ := (hkeys n key).1 hkey
  have hreached : n < 2 := hlt
  have hone : n ≠ 1 := by
    rintro rfl
    exact hunused (by decide)
  omega

end Session

end VoceChat
