import VoceChat.Foundations.Guards
import VoceChat.Foundations.PaddedBase64
import VoceChat.Ratchet.State

/-!
# Saved ratchet states (`RatchetState::to_dto`, `RatchetState::from_dto`)

Between two calls a client keeps the state of its ratchet as data: keys in base64, and the map of
skipped keys as the list of its entries, in whatever order the map is iterated.

A state that was saved is restored (`fromDto_toDto`), up to the order of the map, which no operation
sees: `perform_same` is the step, `SavedRun.same` the run with saves anywhere in it. What has a key
in it that is not 32 bytes in base64 is not restored (`fromDto_isOk_iff`).
-/

namespace VoceChat

open Base64 Guards Machine

structure SkippedMk where
  dhPubB64 : String
  n : ℕ
  mkB64 : String

structure RatchetStateDto where
  dhsB64 : String
  dhrB64 : Option String
  rkB64 : String
  cksB64 : Option String
  ckrB64 : Option String
  ns : ℕ
  nr : ℕ
  pn : ℕ
  mkskipped : List SkippedMk

/-- The bytes of X25519 keys. -/
structure KeyBytes (Secret Pub : Type) where
  /-- `StaticSecret::to_bytes`. -/
  secretToBytes : Secret → FixedBytes 32
  /-- `StaticSecret::from`. -/
  secretFrom : FixedBytes 32 → Secret
  /-- `XPublic::as_bytes`. -/
  pubAsBytes : Pub → FixedBytes 32
  /-- `XPublic::from`. -/
  pubFrom : FixedBytes 32 → Pub

/-- A key is what its bytes are. -/
structure KeyBytes.Restores {Secret Pub : Type} (K : KeyBytes Secret Pub) : Prop where
  secret : ∀ s, K.secretFrom (K.secretToBytes s) = s
  pub : ∀ p, K.pubFrom (K.pubAsBytes p) = p

/-- The map of skipped keys. -/
abbrev SkippedKeys := AList fun _ : String × ℕ ↦ FixedBytes 32

/-- An entry of the map of skipped keys. -/
abbrev SkippedEntry := Sigma fun _ : String × ℕ ↦ FixedBytes 32

section

variable {Secret Pub : Type} (B : Engine) (K : KeyBytes Secret Pub)

namespace RatchetState

def skippedMk (e : SkippedEntry) : SkippedMk := ⟨e.1.1, e.1.2, B.encode e.2⟩

/-- `to_dto`, where `entries` is the order in which the map is iterated. -/
def toDto (st : RatchetState Secret Pub (FixedBytes 32)) (entries : List SkippedEntry) :
    RatchetStateDto where
  dhsB64 := B.encode (K.secretToBytes st.dhs)
  dhrB64 := st.dhr.map fun p ↦ B.encode (K.pubAsBytes p)
  rkB64 := B.encode st.rk
  cksB64 := st.cks.map fun c : FixedBytes 32 ↦ B.encode c
  ckrB64 := st.ckr.map fun c : FixedBytes 32 ↦ B.encode c
  ns := st.ns
  nr := st.nr
  pn := st.pn
  mkskipped := entries.map (skippedMk B)

/-- 32 bytes in base64, with the message for another length. -/
def decode32 (text message : String) : Except E2eError (FixedBytes 32) := do
  let bytes ← (B.decode text).mapError .invalidKey
  if h : bytes.length = 32 then return ⟨bytes, h⟩ else throw (.invalidKey message)

/-- `decode_x25519_pub`. -/
def decodeX25519Pub (text : String) : Except E2eError Pub :=
  (decode32 B text "x25519 pub len").map K.pubFrom

/-- A field that may be missing. -/
def decodeOption {α : Type} (decode : String → Except E2eError α) :
    Option String → Except E2eError (Option α)
  | some text => (decode text).map some
  | none => .ok none

/-- The loop over the skipped keys. -/
def readSkipped : List SkippedMk → SkippedKeys → Except E2eError SkippedKeys
  | [], keys => .ok keys
  | s :: ss, keys => do
    let mk ← decode32 B s.mkB64 "32-byte field"
    readSkipped ss (keys.insert (s.dhPubB64, s.n) mk)

def fromDto (dto : RatchetStateDto) :
    Except E2eError (RatchetState Secret Pub (FixedBytes 32)) := do
  let dhsBytes ← decode32 B dto.dhsB64 "dhs len"
  let rk ← decode32 B dto.rkB64 "rk len"
  let mkskipped ← readSkipped B dto.mkskipped ∅
  let dhr ← decodeOption (decodeX25519Pub B K) dto.dhrB64
  let cks ← decodeOption (fun text ↦ decode32 B text "32-byte field") dto.cksB64
  let ckr ← decodeOption (fun text ↦ decode32 B text "32-byte field") dto.ckrB64
  return { dhs := K.secretFrom dhsBytes, dhr, rk, cks, ckr, ns := dto.ns, nr := dto.nr
           pn := dto.pn, mkskipped }

/-! ### The order of the skipped keys -/

/-- The states are equal, the maps of skipped keys as maps. -/
structure Same {Key : Type} (st st' : RatchetState Secret Pub Key) : Prop where
  dhs : st.dhs = st'.dhs
  dhr : st.dhr = st'.dhr
  rk : st.rk = st'.rk
  cks : st.cks = st'.cks
  ckr : st.ckr = st'.ckr
  ns : st.ns = st'.ns
  nr : st.nr = st'.nr
  pn : st.pn = st'.pn
  mkskipped : st'.mkskipped.entries.Perm st.mkskipped.entries

section

variable {Key : Type} {C : Primitives Secret Pub Key} {st st' : RatchetState Secret Pub Key}

theorem same_self (st : RatchetState Secret Pub Key) : Same st st :=
  ⟨rfl, rfl, rfl, rfl, rfl, rfl, rfl, rfl, .refl _⟩

theorem Same.trans {st'' : RatchetState Secret Pub Key} (h : Same st st') (h' : Same st' st'') :
    Same st st'' :=
  ⟨h.dhs.trans h'.dhs, h.dhr.trans h'.dhr, h.rk.trans h'.rk, h.cks.trans h'.cks, h.ckr.trans h'.ckr,
    h.ns.trans h'.ns, h.nr.trans h'.nr, h.pn.trans h'.pn, h'.mkskipped.trans h.mkskipped⟩

theorem Same.encrypt (h : Same st st') (plaintext : Bytes) :
    (st.encrypt C plaintext).1 = (st'.encrypt C plaintext).1 ∧
      Same (st.encrypt C plaintext).2 (st'.encrypt C plaintext).2 := by
  obtain ⟨dhs, dhr, rk, cks, ckr, ns, nr, pn, keys⟩ := st
  obtain ⟨_, _, _, _, _, _, _, _, keys'⟩ := st'
  obtain ⟨rfl, rfl, rfl, rfl, rfl, rfl, rfl, rfl, hkeys⟩ := h
  cases cks with
  | none => exact ⟨rfl, rfl, rfl, rfl, rfl, rfl, rfl, rfl, rfl, hkeys⟩
  | some cks =>
    unfold RatchetState.encrypt
    dsimp only
    split
    · exact ⟨rfl, rfl, rfl, rfl, rfl, rfl, rfl, rfl, rfl, hkeys⟩
    · exact ⟨rfl, rfl, rfl, rfl, rfl, rfl, rfl, rfl, rfl, hkeys⟩

theorem Same.trySkipped (h : Same st st') (opn : Opener Key) (header : RatchetHeader)
    (ciphertext : Bytes) :
    Alike (fun a b : Option Bytes × RatchetState Secret Pub Key ↦ a.1 = b.1 ∧ Same a.2 b.2)
      (st.trySkipped opn header ciphertext) (st'.trySkipped opn header ciphertext) := by
  obtain ⟨dhs, dhr, rk, cks, ckr, ns, nr, pn, keys⟩ := st
  obtain ⟨_, _, _, _, _, _, _, _, keys'⟩ := st'
  obtain ⟨rfl, rfl, rfl, rfl, rfl, rfl, rfl, rfl, hkeys⟩ := h
  have hlookup := AList.perm_lookup (a := (header.dhPubB64, header.n)) hkeys
  unfold RatchetState.trySkipped
  dsimp only
  rw [hlookup]
  cases keys.lookup (header.dhPubB64, header.n) with
  | none => exact .ok ⟨rfl, rfl, rfl, rfl, rfl, rfl, rfl, rfl, rfl, hkeys⟩
  | some key =>
    refine (alike_self (T := Eq) (fun _ ↦ rfl) (opn key ciphertext header)).map ?_
    rintro plaintext _ rfl
    exact ⟨rfl, rfl, rfl, rfl, rfl, rfl, rfl, rfl, rfl, AList.perm_erase hkeys⟩

theorem Same.skipLoop (h : Same st st') (fuel : ℕ) :
    Alike Same (skipLoop C fuel st) (skipLoop C fuel st') := by
  induction fuel generalizing st st' with
  | zero => exact .ok h
  | succ fuel ih =>
    obtain ⟨dhs, dhr, rk, cks, ckr, ns, nr, pn, keys⟩ := st
    obtain ⟨_, _, _, _, _, _, _, _, keys'⟩ := st'
    obtain ⟨rfl, rfl, rfl, rfl, rfl, rfl, rfl, rfl, hkeys⟩ := h
    cases ckr with
    | none => exact .ok ⟨rfl, rfl, rfl, rfl, rfl, rfl, rfl, rfl, hkeys⟩
    | some ckr =>
      cases dhr with
      | none => exact .error _
      | some dhr =>
        exact ih ⟨rfl, rfl, rfl, rfl, rfl, rfl, rfl, rfl, AList.perm_insert hkeys⟩

theorem Same.skipMessageKeys (h : Same st st') (bound : ℕ) :
    Alike Same (st.skipMessageKeys C bound) (st'.skipMessageKeys C bound) := by
  unfold RatchetState.skipMessageKeys
  rw [← h.nr, ← h.ckr]
  split
  · exact .error _
  · cases st.ckr with
    | none => exact .ok h
    | some ckr => exact h.skipLoop _

theorem Same.dhRatchet (h : Same st st') (remote : Pub) (fresh : Secret) :
    Same (st.dhRatchet C remote fresh) (st'.dhRatchet C remote fresh) := by
  obtain ⟨dhs, dhr, rk, cks, ckr, ns, nr, pn, keys⟩ := st
  obtain ⟨_, _, _, _, _, _, _, _, keys'⟩ := st'
  obtain ⟨rfl, rfl, rfl, rfl, rfl, rfl, rfl, rfl, hkeys⟩ := h
  exact ⟨rfl, rfl, rfl, rfl, rfl, rfl, rfl, rfl, hkeys⟩

theorem Same.openNext (h : Same st st') (opn : Opener Key) (header : RatchetHeader)
    (ciphertext : Bytes) :
    Alike (fun a b : Bytes × RatchetState Secret Pub Key ↦ a.1 = b.1 ∧ Same a.2 b.2)
      (st.openNext C opn header ciphertext) (st'.openNext C opn header ciphertext) := by
  refine (h.skipMessageKeys header.n).bind fun st st' h ↦ ?_
  obtain ⟨dhs, dhr, rk, cks, ckr, ns, nr, pn, keys⟩ := st
  obtain ⟨_, _, _, _, _, _, _, _, keys'⟩ := st'
  obtain ⟨rfl, rfl, rfl, rfl, rfl, rfl, rfl, rfl, hkeys⟩ := h
  cases ckr with
  | none => exact .error _
  | some ckr =>
    refine (alike_self (T := Eq) (fun _ ↦ rfl) (opn (C.kdfCk ckr).1 ciphertext header)).map ?_
    rintro plaintext _ rfl
    exact ⟨rfl, rfl, rfl, rfl, rfl, rfl, rfl, rfl, rfl, hkeys⟩

variable [DecidableEq Pub]

theorem Same.turnTo (h : Same st st') (remote : Pub) (pn : ℕ) (fresh : Secret) :
    Alike Same (st.turnTo C remote pn fresh) (st'.turnTo C remote pn fresh) := by
  unfold RatchetState.turnTo
  rw [← h.dhr]
  split
  · exact .ok h
  · exact (h.skipMessageKeys pn).map fun _ _ hskipped ↦ hskipped.dhRatchet remote fresh

theorem Same.decryptStaged (h : Same st st') (opn : Opener Key) (fresh : Secret)
    (header : RatchetHeader) (ciphertext : Bytes) :
    Alike (fun a b : Bytes × RatchetState Secret Pub Key ↦ a.1 = b.1 ∧ Same a.2 b.2)
      (st.decryptStaged C opn fresh header ciphertext)
      (st'.decryptStaged C opn fresh header ciphertext) := by
  refine (h.trySkipped opn header ciphertext).bind ?_
  rintro ⟨found, st⟩ ⟨_, st'⟩ ⟨rfl, h⟩
  cases found with
  | some plaintext => exact .ok ⟨rfl, h⟩
  | none =>
    refine (alike_self (T := Eq) (fun _ ↦ rfl) (C.decodePub header.dhPubB64)).bind ?_
    rintro remote _ rfl
    exact (h.turnTo remote header.pn fresh).bind fun _ _ h ↦ h.openNext opn header ciphertext

/-- The order of the map makes no difference when a message is decrypted. -/
theorem Same.decrypt (h : Same st st') (opn : Opener Key) (fresh : Secret)
    (header : RatchetHeader) (ciphertext : Bytes) :
    (st.decrypt C opn fresh header ciphertext).1 = (st'.decrypt C opn fresh header ciphertext).1 ∧
      Same (st.decrypt C opn fresh header ciphertext).2
        (st'.decrypt C opn fresh header ciphertext).2 := by
  unfold RatchetState.decrypt
  have hstaged := h.decryptStaged (C := C) opn fresh header ciphertext
  generalize st.decryptStaged C opn fresh header ciphertext = x at hstaged
  generalize st'.decryptStaged C opn fresh header ciphertext = y at hstaged
  cases hstaged with
  | error e => exact ⟨rfl, h⟩
  | ok h => exact ⟨congrArg Except.ok h.1, h.2⟩

end

/-! ### What is restored -/

section

variable {B K} {st : RatchetState Secret Pub (FixedBytes 32)}

theorem decode32_encode (hB : B.Canonical) (bytes : FixedBytes 32) (message : String) :
    decode32 B (B.encode bytes) message = .ok bytes := by
  rw [decode32, hB.decode_encode]
  exact dif_pos bytes.property

/-- The entries are put into the map again. -/
theorem readSkipped_map (hB : B.Canonical) {entries : List SkippedEntry} {keys : SkippedKeys}
    (hnodup : entries.NodupKeys) (hnew : ∀ e ∈ entries, e.1 ∉ keys) :
    ∃ keys', readSkipped B (entries.map (skippedMk B)) keys = .ok keys' ∧
      keys'.entries.Perm (entries ++ keys.entries) := by
  induction entries generalizing keys with
  | nil => exact ⟨keys, rfl, .refl _⟩
  | cons e entries ih =>
    obtain ⟨hnotMem, hrest⟩ := List.nodupKeys_cons.1 hnodup
    have hinsert : (keys.insert e.1 e.2).entries = e :: keys.entries :=
      AList.entries_insert_of_notMem (hnew e List.mem_cons_self)
    have hnew' : ∀ d ∈ entries, d.1 ∉ keys.insert e.1 e.2 := by
      intro d hd hmem
      rcases (AList.mem_insert keys).1 hmem with heq | hmem
      · exact hnotMem (heq ▸ List.mem_keys_of_mem hd)
      · exact hnew d (List.mem_cons_of_mem e hd) hmem
    obtain ⟨keys', hread, hperm⟩ := ih hrest hnew'
    rw [hinsert] at hperm
    refine ⟨keys', ?_, hperm.trans List.perm_middle⟩
    simp only [List.map_cons, readSkipped, bind_eq_ok]
    exact ⟨e.2, decode32_encode hB e.2 _, hread⟩

theorem decodeOption_map {α : Type} {decode : String → Except E2eError α} {encode : α → String}
    (h : ∀ a, decode (encode a) = .ok a) (o : Option α) :
    decodeOption decode (o.map encode) = .ok o := by
  cases o with
  | none => rfl
  | some a =>
    rw [Option.map_some, decodeOption, h]
    rfl

/-- **A state is restored** from what was saved of it, in whatever order its keys were written. -/
theorem fromDto_toDto (hB : B.Canonical) (hK : K.Restores) {entries : List SkippedEntry}
    (hentries : entries.Perm st.mkskipped.entries) :
    ∃ st', fromDto B K (toDto B K st entries) = .ok st' ∧ Same st st' := by
  have hnodup : entries.NodupKeys := (List.perm_nodupKeys hentries).2 st.mkskipped.nodupKeys
  have hempty : ∀ e ∈ entries, e.1 ∉ (∅ : SkippedKeys) := fun _ _ ↦ AList.notMem_empty _
  obtain ⟨keys', hread, hperm⟩ := readSkipped_map hB hnodup hempty
  rw [AList.empty_entries, List.append_nil] at hperm
  have hpub : ∀ p, decodeX25519Pub B K (B.encode (K.pubAsBytes p)) = .ok p := by
    intro p
    rw [decodeX25519Pub, decode32_encode hB]
    exact congrArg Except.ok (hK.pub p)
  have hchain : ∀ o : Option (FixedBytes 32), decodeOption
      (fun text ↦ decode32 B text "32-byte field") (o.map fun c : FixedBytes 32 ↦ B.encode c) =
      .ok o :=
    decodeOption_map fun c ↦ decode32_encode hB c _
  refine ⟨{ st with mkskipped := keys' }, ?_,
    ⟨rfl, rfl, rfl, rfl, rfl, rfl, rfl, rfl, hperm.trans hentries⟩⟩
  simp only [fromDto, bind_eq_ok, pure_eq_ok]
  refine ⟨_, decode32_encode hB (K.secretToBytes st.dhs) _, _, decode32_encode hB st.rk _, _, hread,
    st.dhr, decodeOption_map hpub st.dhr, st.cks, hchain st.cks, st.ckr, hchain st.ckr, ?_⟩
  rw [hK.secret]
  rfl

/-- The text is 32 bytes in base64. -/
def IsKey (B : Engine) (text : String) : Prop := ∃ bytes : FixedBytes 32, B.decode text = .ok bytes

/-- Every key of the data is 32 bytes in base64. -/
structure Readable (B : Engine) (dto : RatchetStateDto) : Prop where
  dhs : IsKey B dto.dhsB64
  dhr : ∀ text ∈ dto.dhrB64, IsKey B text
  rk : IsKey B dto.rkB64
  cks : ∀ text ∈ dto.cksB64, IsKey B text
  ckr : ∀ text ∈ dto.ckrB64, IsKey B text
  mkskipped : ∀ s ∈ dto.mkskipped, IsKey B s.mkB64

theorem decode32_isOk_iff {text message : String} :
    (∃ bytes, decode32 B text message = .ok bytes) ↔ IsKey B text := by
  simp only [decode32, bind_eq_ok, mapError_eq_ok]
  constructor
  · rintro ⟨_, bytes, hdecode, hlength⟩
    split at hlength
    · rename_i h
      exact ⟨⟨bytes, h⟩, hdecode⟩
    · cases hlength
  · rintro ⟨bytes, hdecode⟩
    exact ⟨bytes, bytes, hdecode, dif_pos bytes.property⟩

theorem decodeOption_isOk_iff {α : Type} {decode : String → Except E2eError α} {o : Option String} :
    (∃ a, decodeOption decode o = .ok a) ↔ ∀ text ∈ o, ∃ a, decode text = .ok a := by
  cases o with
  | none => exact ⟨fun _ ↦ nofun, fun _ ↦ ⟨none, rfl⟩⟩
  | some text =>
    simp only [decodeOption, map_eq_ok, Option.mem_def, Option.some.injEq, forall_eq']
    constructor
    · rintro ⟨_, a, ha, -⟩
      exact ⟨a, ha⟩
    · rintro ⟨a, ha⟩
      exact ⟨some a, a, ha, rfl⟩

theorem readSkipped_isOk_iff {ss : List SkippedMk} {keys : SkippedKeys} :
    (∃ keys', readSkipped B ss keys = .ok keys') ↔ ∀ s ∈ ss, IsKey B s.mkB64 := by
  induction ss generalizing keys with
  | nil => exact ⟨fun _ ↦ nofun, fun _ ↦ ⟨keys, rfl⟩⟩
  | cons s ss ih =>
    rw [List.forall_mem_cons, ← decode32_isOk_iff]
    simp only [readSkipped, bind_eq_ok]
    constructor
    · rintro ⟨keys', mk, hmk, hread⟩
      exact ⟨⟨mk, hmk⟩, ih.1 ⟨keys', hread⟩⟩
    · rintro ⟨⟨mk, hmk⟩, hrest⟩
      obtain ⟨keys', hread⟩ := ih.2 hrest
      exact ⟨keys', mk, hmk, hread⟩

/-- **Nothing else is restored**: every key must be 32 bytes in base64. -/
theorem fromDto_isOk_iff {dto : RatchetStateDto} :
    (∃ st, fromDto B K dto = .ok st) ↔ Readable B dto := by
  have hpub : ∀ text, (∃ p, decodeX25519Pub B K text = .ok p) ↔ IsKey B text := by
    intro text
    have hkey : (∃ bytes, decode32 B text "x25519 pub len" = .ok bytes) ↔ IsKey B text :=
      decode32_isOk_iff
    rw [← hkey]
    simp only [decodeX25519Pub, map_eq_ok]
    constructor
    · rintro ⟨_, bytes, hbytes, -⟩
      exact ⟨bytes, hbytes⟩
    · rintro ⟨bytes, hbytes⟩
      exact ⟨_, bytes, hbytes, rfl⟩
  constructor
  · rintro ⟨st, h⟩
    simp only [fromDto, bind_eq_ok] at h
    obtain ⟨dhs, hdhs, rk, hrk, keys, hkeys, dhr, hdhr, cks, hcks, ckr, hckr, -⟩ := h
    exact ⟨decode32_isOk_iff.1 ⟨dhs, hdhs⟩,
      fun text ht ↦ (hpub text).1 (decodeOption_isOk_iff.1 ⟨dhr, hdhr⟩ text ht),
      decode32_isOk_iff.1 ⟨rk, hrk⟩,
      fun text ht ↦ decode32_isOk_iff.1 (decodeOption_isOk_iff.1 ⟨cks, hcks⟩ text ht),
      fun text ht ↦ decode32_isOk_iff.1 (decodeOption_isOk_iff.1 ⟨ckr, hckr⟩ text ht),
      readSkipped_isOk_iff.1 ⟨keys, hkeys⟩⟩
  · intro h
    obtain ⟨dhs, hdhs⟩ := decode32_isOk_iff.2 h.dhs
    obtain ⟨rk, hrk⟩ := decode32_isOk_iff.2 h.rk
    obtain ⟨keys, hkeys⟩ := readSkipped_isOk_iff.2 h.mkskipped
    obtain ⟨dhr, hdhr⟩ := decodeOption_isOk_iff.2 fun text ht ↦ (hpub text).2 (h.dhr text ht)
    obtain ⟨cks, hcks⟩ := decodeOption_isOk_iff.2 fun text ht ↦ decode32_isOk_iff.2 (h.cks text ht)
    obtain ⟨ckr, hckr⟩ := decodeOption_isOk_iff.2 fun text ht ↦ decode32_isOk_iff.2 (h.ckr text ht)
    simp only [fromDto, bind_eq_ok]
    exact ⟨_, dhs, hdhs, rk, hrk, keys, hkeys, dhr, hdhr, cks, hcks, ckr, hckr, rfl⟩

end

/-! ### Runs with saves -/

/-- A call of `encrypt`, or of `decrypt` with the AEAD as it is then and the secret that is drawn.
-/
inductive Call (Secret Key : Type) where
  | encrypt (plaintext : Bytes)
  | decrypt (opn : Opener Key) (fresh : Secret) (header : RatchetHeader) (ciphertext : Bytes)

inductive Answer where
  | encrypted (result : Except E2eError (RatchetHeader × Bytes))
  | decrypted (result : Except E2eError Bytes)

section

variable {Key : Type} [DecidableEq Pub] (C : Primitives Secret Pub Key)

def perform (st : RatchetState Secret Pub Key) :
    Call Secret Key → Answer × RatchetState Secret Pub Key
  | .encrypt plaintext =>
    (.encrypted (st.encrypt C plaintext).1, (st.encrypt C plaintext).2)
  | .decrypt opn fresh header ciphertext =>
    (.decrypted (st.decrypt C opn fresh header ciphertext).1,
      (st.decrypt C opn fresh header ciphertext).2)

/-- The answers of a run of calls, and the state after it. -/
def answers : RatchetState Secret Pub Key → List (Call Secret Key) →
    List Answer × RatchetState Secret Pub Key
  | st, [] => ([], st)
  | st, call :: calls =>
    ((perform C st call).1 :: (answers (perform C st call).2 calls).1,
      (answers (perform C st call).2 calls).2)

end

/-- A run of calls, between which the state is saved and restored at any points. -/
inductive SavedRun [DecidableEq Pub] (C : Primitives Secret Pub (FixedBytes 32)) :
    RatchetState Secret Pub (FixedBytes 32) → List (Call Secret (FixedBytes 32)) → List Answer →
      RatchetState Secret Pub (FixedBytes 32) → Prop
  | nil (st) : SavedRun C st [] [] st
  | call {st call calls given last} (h : SavedRun C (perform C st call).2 calls given last) :
      SavedRun C st (call :: calls) ((perform C st call).1 :: given) last
  | save {st restored calls given last entries} (hentries : entries.Perm st.mkskipped.entries)
      (hrestored : fromDto B K (toDto B K st entries) = .ok restored)
      (h : SavedRun C restored calls given last) : SavedRun C st calls given last

section

variable {B K} [DecidableEq Pub]

/-- One call has the same answer from equal states, and leaves equal states behind. -/
theorem Same.perform {Key : Type} {C : Primitives Secret Pub Key}
    {st st' : RatchetState Secret Pub Key} (h : Same st st') (call : Call Secret Key) :
    (perform C st call).1 = (perform C st' call).1 ∧
      Same (RatchetState.perform C st call).2 (RatchetState.perform C st' call).2 := by
  cases call with
  | encrypt plaintext =>
    obtain ⟨hresult, hsame⟩ := h.encrypt (C := C) plaintext
    exact ⟨congrArg Answer.encrypted hresult, hsame⟩
  | decrypt opn fresh header ciphertext =>
    obtain ⟨hresult, hsame⟩ := h.decrypt (C := C) opn fresh header ciphertext
    exact ⟨congrArg Answer.decrypted hresult, hsame⟩

theorem Same.answers {Key : Type} {C : Primitives Secret Pub Key}
    {st st' : RatchetState Secret Pub Key} (h : Same st st') (calls : List (Call Secret Key)) :
    (answers C st calls).1 = (answers C st' calls).1 ∧
      Same (RatchetState.answers C st calls).2 (RatchetState.answers C st' calls).2 := by
  induction calls generalizing st st' with
  | nil => exact ⟨rfl, h⟩
  | cons call calls ih =>
    obtain ⟨hanswer, hsame⟩ := h.perform (C := C) call
    obtain ⟨hrest, hlast⟩ := ih hsame
    exact ⟨congrArg₂ List.cons hanswer hrest, hlast⟩

/-- **Saving makes no difference** to the answers of a run. -/
theorem SavedRun.same {C : Primitives Secret Pub (FixedBytes 32)} (hB : B.Canonical)
    (hK : K.Restores) {st last : RatchetState Secret Pub (FixedBytes 32)}
    {calls : List (Call Secret (FixedBytes 32))} {given : List Answer}
    (h : SavedRun B K C st calls given last) :
    (answers C st calls).1 = given ∧ Same (answers C st calls).2 last := by
  induction h with
  | nil st => exact ⟨rfl, same_self st⟩
  | call _ ih => exact ⟨congrArg _ ih.1, ih.2⟩
  | @save st restored calls given last entries hentries hrestored h ih =>
    obtain ⟨st', hst', hsame⟩ := fromDto_toDto hB hK hentries
    obtain rfl := Except.ok.inj (hst'.symm.trans hrestored)
    obtain ⟨hanswers, hlast⟩ := hsame.answers (C := C) calls
    exact ⟨hanswers.trans ih.1, hlast.trans ih.2⟩

end

/-- What is promised of saved states. -/
structure SavedLaws [DecidableEq Pub] : Prop where
  /-- Every state is restored from what was saved of it. -/
  restores : ∀ (st : RatchetState Secret Pub (FixedBytes 32)) entries,
    entries.Perm st.mkskipped.entries →
      ∃ st', fromDto B K (toDto B K st entries) = .ok st' ∧ Same st st'
  /-- The answers of a run are the same with and without saves. -/
  runs : ∀ (C : Primitives Secret Pub (FixedBytes 32)) st calls given last,
    SavedRun B K C st calls given last →
      (answers C st calls).1 = given ∧ Same (answers C st calls).2 last
  /-- What has a key in it that is not 32 bytes in base64 is refused, and nothing else. -/
  refuses : ∀ dto, (∃ e, fromDto B K dto = .error e) ↔ ¬Readable B dto

end RatchetState

end

open RatchetState in
/-- **Saved states** are restored as they were, and nothing is restored that has no keys. -/
theorem savedLaws {Secret Pub : Type} [DecidableEq Pub] {B : Engine} {K : KeyBytes Secret Pub}
    (hB : B.Canonical) (hK : K.Restores) : SavedLaws B K where
  restores st entries hentries := fromDto_toDto hB hK hentries
  runs C st calls given last h := h.same hB hK
  refuses dto := by
    rw [← fromDto_isOk_iff (K := K)]
    cases fromDto B K dto with
    | error e => exact ⟨fun _ ↦ nofun, fun _ ↦ ⟨e, rfl⟩⟩
    | ok st => exact ⟨nofun, fun h ↦ absurd ⟨st, rfl⟩ h⟩

/-- Keys that are their bytes. -/
def plainKeys : KeyBytes (FixedBytes 32) (FixedBytes 32) := ⟨id, id, id, id⟩

theorem savedLaws_plainKeys : RatchetState.SavedLaws standard plainKeys :=
  savedLaws standard_canonical ⟨fun _ ↦ rfl, fun _ ↦ rfl⟩

end VoceChat
