import VoceChat.Foundations.BigEndian
import VoceChat.Foundations.Slices

/-!
# The Welcome bundle (`voce-e2ee-core/src/mls/mod.rs`)

A Welcome travels with the ratchet tree, each behind its length in four bytes. `appendLenPrefixed`
and `takeLenPrefixed` write and read one part; `MlsWelcome.toBytes` and `MlsWelcome.fromBytes` do so
twice, and leave the parts to the TLS encoding of the MLS library.

`takeLenPrefixed_eq_ok` says which inputs a part is taken off, `takeLenPrefixed_cases` that all
others are rejected. Since the length is written in one way only, a bundle is split into what it was
framed from, and nothing else is split at all (`splitsExactly`).
-/

namespace VoceChat

open BigEndian Guards Machine Slices

structure MlsError where
  message : String
  deriving DecidableEq, Repr

/-- `append_len_prefixed`, with the output that it appends to. -/
def appendLenPrefixed (output bytes : Bytes) : Except MlsError Bytes := do
  ensure (bytes.length < u32Size) ⟨"MLS artifact exceeds maximum wire length"⟩
  return output ++ beBytes 4 bytes.length ++ bytes

/-- `take_len_prefixed`. -/
def takeLenPrefixed (input : Bytes) : Except (Fault MlsError) (Bytes × Bytes) := do
  accept (4 ≤ input.length) ⟨"truncated MLS artifact length"⟩
  let length := ofBe (← slice input 0 4)
  let available ← minus input.length 4
  accept (length ≤ available) ⟨"truncated MLS artifact"⟩
  return (← slice input 4 (4 + length), ← sliceFrom input (4 + length))

/-- The two parts of a bundle, as `MlsWelcome::to_bytes` writes them. -/
def frameBundle (welcome tree : Bytes) : Except MlsError Bytes := do
  let output ← appendLenPrefixed [] welcome
  appendLenPrefixed output tree

/-- The two parts of a bundle, as `MlsWelcome::from_bytes` takes them off. -/
def splitBundle (bytes : Bytes) : Except (Fault MlsError) (Bytes × Bytes) := do
  let (welcome, remaining) ← takeLenPrefixed bytes
  let (tree, remaining) ← takeLenPrefixed remaining
  accept (remaining = []) ⟨"trailing Welcome bundle bytes"⟩
  return (welcome, tree)

/-- The TLS encoding of the two parts. -/
structure WelcomeTls (Welcome RatchetTree : Type) where
  serializeWelcome : Welcome → Except MlsError Bytes
  serializeTree : RatchetTree → Except MlsError Bytes
  deserializeWelcome : Bytes → Except MlsError Welcome
  deserializeTree : Bytes → Except MlsError RatchetTree

namespace MlsWelcome

variable {Welcome RatchetTree : Type} (tls : WelcomeTls Welcome RatchetTree)

def toBytes (bundle : Welcome × RatchetTree) : Except MlsError Bytes := do
  let welcome ← tls.serializeWelcome bundle.1
  let tree ← tls.serializeTree bundle.2
  frameBundle welcome tree

def fromBytes (bytes : Bytes) : Except (Fault MlsError) (Welcome × RatchetTree) := do
  let (welcome, tree) ← splitBundle bytes
  return (← (tls.deserializeWelcome welcome).mapError .rejected,
    ← (tls.deserializeTree tree).mapError .rejected)

end MlsWelcome

/-! ### One part -/

variable {input output bytes rest welcome tree : Bytes}

theorem appendLenPrefixed_eq_ok : appendLenPrefixed output bytes = .ok rest ↔
    bytes.length < u32Size ∧ output ++ beBytes 4 bytes.length ++ bytes = rest := by
  simp only [appendLenPrefixed, bind_eq_ok, ensure_eq_ok, exists_unit, pure_eq_ok]

/-- What `take_len_prefixed` computes from a length and the bytes behind it. -/
theorem takeLenPrefixed_frame {n : ℕ} (hn : n < u32Size) (behind : Bytes) :
    takeLenPrefixed (beBytes 4 n ++ behind) =
      if n ≤ behind.length then .ok (behind.take n, behind.drop n)
      else .error (.rejected ⟨"truncated MLS artifact"⟩) := by
  have hlength : (beBytes 4 n ++ behind).length = 4 + behind.length := by
    rw [List.length_append, length_beBytes]
  have hfour : 4 ≤ (beBytes 4 n ++ behind).length := by omega
  have hprefix : (beBytes 4 n ++ behind).take 4 = beBytes 4 n :=
    List.take_left' (length_beBytes 4 n)
  rw [takeLenPrefixed, slice_of_le (Nat.zero_le 4) hfour, List.drop_zero, hprefix,
    minus_of_le hfour]
  show (ensure _ _ >>= fun _ ↦ ensure (ofBe (beBytes 4 n) ≤ _) _ >>= fun _ ↦ _) = _
  rw [ensure, if_pos hfour, ofBe_beBytes (fits_four.2 hn)]
  show (ensure _ _ >>= fun _ ↦ _) = _
  have havailable : (beBytes 4 n ++ behind).length - 4 = behind.length := by omega
  rw [havailable, ensure]
  split
  · rename_i hle
    have hdrop : ∀ k, (beBytes 4 n ++ behind).drop (4 + k) = behind.drop k := fun k ↦ by
      rw [← List.drop_drop, List.drop_left' (length_beBytes 4 n)]
    have htake : ((beBytes 4 n ++ behind).take (4 + n)).drop 4 = behind.take n := by
      rw [List.drop_take, List.drop_left' (length_beBytes 4 n), Nat.add_sub_cancel_left]
    rw [slice_of_le (Nat.le_add_right 4 n) (by omega), sliceFrom_of_le (by omega), htake, hdrop]
    rfl
  · rfl

/-- Four bytes at least are a length and what is behind it. -/
theorem exists_frame (h : 4 ≤ input.length) :
    ∃ n behind, n < u32Size ∧ input = beBytes 4 n ++ behind := by
  have hfront : ∀ front : Bytes, front.length = 4 →
      ofBe front < u32Size ∧ beBytes 4 (ofBe front) = front := by
    intro front hlength
    have hfits := fits_ofBe front
    have hbytes := beBytes_ofBe front
    rw [hlength] at hfits hbytes
    exact ⟨fits_four.1 hfits, hbytes⟩
  obtain ⟨hlt, hbytes⟩ := hfront (input.take 4) (List.length_take_of_le h)
  refine ⟨ofBe (input.take 4), input.drop 4, hlt, ?_⟩
  rw [hbytes, List.take_append_drop]

/-- **Every input** has a part in front, or is rejected. -/
theorem takeLenPrefixed_cases (input : Bytes) :
    (∃ bytes rest, takeLenPrefixed input = .ok (bytes, rest)) ∨
      ∃ e, takeLenPrefixed input = .error (.rejected e) := by
  rcases Nat.lt_or_ge input.length 4 with hshort | hlong
  · refine .inr ⟨⟨"truncated MLS artifact length"⟩, ?_⟩
    rw [takeLenPrefixed, accept, ensure, if_neg (Nat.not_le.2 hshort)]
    rfl
  · obtain ⟨n, behind, hn, rfl⟩ := exists_frame hlong
    rw [takeLenPrefixed_frame hn]
    split
    · exact .inl ⟨_, _, rfl⟩
    · exact .inr ⟨_, rfl⟩

/-- A part is taken off what it was framed from, and off nothing else. -/
theorem takeLenPrefixed_eq_ok : takeLenPrefixed input = .ok (bytes, rest) ↔
    bytes.length < u32Size ∧ input = beBytes 4 bytes.length ++ bytes ++ rest := by
  constructor
  · intro h
    have hlong : 4 ≤ input.length := by
      refine Nat.not_lt.1 fun hshort ↦ ?_
      rw [takeLenPrefixed, accept, ensure, if_neg (Nat.not_le.2 hshort)] at h
      cases h
    obtain ⟨n, behind, hn, rfl⟩ := exists_frame hlong
    rw [takeLenPrefixed_frame hn] at h
    split at h
    · rename_i hle
      obtain ⟨rfl, rfl⟩ := Prod.mk.inj (Except.ok.inj h)
      rw [List.length_take_of_le hle, List.append_assoc, List.take_append_drop]
      exact ⟨hn, rfl⟩
    · cases h
  · rintro ⟨hbytes, rfl⟩
    rw [List.append_assoc, takeLenPrefixed_frame hbytes,
      if_pos (by rw [List.length_append]; exact Nat.le_add_right _ _), List.take_left,
      List.drop_left]

/-- The part in front is determined, and so is what follows it. -/
theorem part_inj {bytes' rest' : Bytes} (h : bytes.length < u32Size) (h' : bytes'.length < u32Size)
    (heq : beBytes 4 bytes.length ++ bytes ++ rest = beBytes 4 bytes'.length ++ bytes' ++ rest') :
    bytes = bytes' ∧ rest = rest' := by
  have htake := takeLenPrefixed_eq_ok.2 ⟨h, heq.symm⟩
  exact Prod.mk.inj (Except.ok.inj (htake.symm.trans (takeLenPrefixed_eq_ok.2 ⟨h', rfl⟩)))

/-! ### The bundle -/

theorem frameBundle_eq_ok : frameBundle welcome tree = .ok output ↔
    welcome.length < u32Size ∧ tree.length < u32Size ∧
      output = beBytes 4 welcome.length ++ welcome ++ (beBytes 4 tree.length ++ tree) := by
  simp only [frameBundle, bind_eq_ok, appendLenPrefixed_eq_ok, List.nil_append, List.append_assoc]
  constructor
  · rintro ⟨_, ⟨hwelcome, rfl⟩, htree, rfl⟩
    exact ⟨hwelcome, htree, rfl⟩
  · rintro ⟨hwelcome, htree, rfl⟩
    exact ⟨_, ⟨hwelcome, rfl⟩, htree, rfl⟩

/-- A bundle is split into what it was framed from, and nothing else is split. -/
theorem splitBundle_eq_ok :
    splitBundle input = .ok (welcome, tree) ↔ frameBundle welcome tree = .ok input := by
  simp only [splitBundle, bind_eq_ok, accept, ensure_eq_ok, exists_unit, pure_eq_ok, Prod.exists,
    takeLenPrefixed_eq_ok, frameBundle_eq_ok, Prod.mk.injEq]
  constructor
  · rintro ⟨w, remaining, ⟨hw, rfl⟩, t, last, ⟨ht, rfl⟩, rfl, rfl, rfl⟩
    exact ⟨hw, ht, by rw [List.append_nil]⟩
  · rintro ⟨hwelcome, htree, rfl⟩
    exact ⟨welcome, _, ⟨hwelcome, rfl⟩, tree, [], ⟨htree, by rw [List.append_nil]⟩, rfl, rfl, rfl⟩

theorem splitBundle_cases (input : Bytes) :
    (∃ parts, splitBundle input = .ok parts) ∨ ∃ e, splitBundle input = .error (.rejected e) := by
  rw [splitBundle]
  rcases takeLenPrefixed_cases input with ⟨welcome, remaining, hw⟩ | ⟨e, hw⟩
  · rw [hw]
    rcases takeLenPrefixed_cases remaining with ⟨tree, last, ht⟩ | ⟨e, ht⟩
    · by_cases hlast : last = []
      · refine .inl ⟨(welcome, tree), ?_⟩
        show (takeLenPrefixed remaining >>= fun _ ↦ _) = _
        rw [ht, hlast]
        rfl
      · refine .inr ⟨⟨"trailing Welcome bundle bytes"⟩, ?_⟩
        show (takeLenPrefixed remaining >>= fun _ ↦ _) = _
        rw [ht]
        show (ensure (last = []) _ >>= fun _ ↦ _) = _
        rw [ensure, if_neg hlast]
        rfl
    · refine .inr ⟨e, ?_⟩
      show (takeLenPrefixed remaining >>= fun _ ↦ _) = _
      rw [ht]
      rfl
  · exact .inr ⟨e, by rw [hw]; rfl⟩

/-- What is not framed from two parts is rejected. -/
theorem splitBundle_rejected (h : ∀ welcome tree, frameBundle welcome tree ≠ .ok input) :
    ∃ e, splitBundle input = .error (.rejected e) := by
  refine (splitBundle_cases input).resolve_left ?_
  rintro ⟨⟨welcome, tree⟩, hsplit⟩
  exact h welcome tree (splitBundle_eq_ok.1 hsplit)

/-- No bundle goes on where another one ends. -/
theorem frameBundle_prefix_free {welcome' tree' extra : Bytes}
    (h : frameBundle welcome tree = .ok input)
    (h' : frameBundle welcome' tree' = .ok (input ++ extra)) : extra = [] := by
  obtain ⟨hwelcome, htree, rfl⟩ := frameBundle_eq_ok.1 h
  obtain ⟨hwelcome', htree', heq⟩ := frameBundle_eq_ok.1 h'
  rw [List.append_assoc] at heq
  obtain ⟨-, hrest⟩ := part_inj hwelcome hwelcome' heq
  rw [← List.append_nil (beBytes 4 tree'.length ++ tree')] at hrest
  exact (part_inj htree htree' hrest).2

/-- A length that is longer than what is behind it is that of no bundle. -/
theorem frameBundle_ne_of_overlong {n : ℕ} {behind : Bytes} (hn : n < u32Size)
    (hbehind : behind.length < n) : frameBundle welcome tree ≠ .ok (beBytes 4 n ++ behind) := by
  intro h
  obtain ⟨hwelcome, -, heq⟩ := frameBundle_eq_ok.1 h
  have htake := takeLenPrefixed_eq_ok.2 ⟨hwelcome, heq⟩
  rw [takeLenPrefixed_frame hn, if_neg (Nat.not_le.2 hbehind)] at htake
  cases htake

/-- The same of the second length. -/
theorem frameBundle_ne_of_overlong_tree {welcome' : Bytes} {n : ℕ} {behind : Bytes}
    (hwelcome : welcome.length < u32Size) (hn : n < u32Size) (hbehind : behind.length < n) :
    frameBundle welcome' tree ≠
      .ok (beBytes 4 welcome.length ++ welcome ++ (beBytes 4 n ++ behind)) := by
  intro h
  obtain ⟨hwelcome', htree, heq⟩ := frameBundle_eq_ok.1 h
  obtain ⟨-, hrest⟩ := part_inj hwelcome hwelcome' heq
  have htake := takeLenPrefixed_eq_ok.2 ⟨htree, hrest.trans (List.append_nil _).symm⟩
  rw [takeLenPrefixed_frame hn, if_neg (Nat.not_le.2 hbehind)] at htake
  cases htake

/-- What splitting a bundle promises. -/
structure SplitsExactly : Prop where
  /-- Both parts come back as they were, and nothing is left over. -/
  split_frame : ∀ welcome tree : Bytes, welcome.length < u32Size → tree.length < u32Size →
    ∃ input, frameBundle welcome tree = .ok input ∧ splitBundle input = .ok (welcome, tree)
  /-- Only what is framed from its parts is split into them. -/
  frame_split : ∀ input welcome tree, splitBundle input = .ok (welcome, tree) →
    frameBundle welcome tree = .ok input
  truncated : ∀ input welcome tree, frameBundle welcome tree = .ok input →
    ∀ n < input.length, ∃ e, splitBundle (input.take n) = .error (.rejected e)
  trailing : ∀ input welcome tree, frameBundle welcome tree = .ok input →
    ∀ extra ≠ [], ∃ e, splitBundle (input ++ extra) = .error (.rejected e)
  overlong : ∀ n < u32Size, ∀ behind : Bytes, behind.length < n →
    ∃ e, splitBundle (beBytes 4 n ++ behind) = .error (.rejected e)
  overlong_tree : ∀ welcome : Bytes, welcome.length < u32Size → ∀ n < u32Size,
    ∀ behind : Bytes, behind.length < n →
      ∃ e, splitBundle (beBytes 4 welcome.length ++ welcome ++ (beBytes 4 n ++ behind)) =
        .error (.rejected e)
  in_range : ∀ input, splitBundle input ≠ .error .outOfRange

/-- **Splitting is the inverse of framing**, on its image and nowhere else, without an access out of
range. -/
theorem splitsExactly : SplitsExactly where
  split_frame welcome tree hwelcome htree := by
    have hframe := frameBundle_eq_ok.2 ⟨hwelcome, htree, rfl⟩
    exact ⟨_, hframe, splitBundle_eq_ok.2 hframe⟩
  frame_split input welcome tree h := splitBundle_eq_ok.1 h
  truncated input welcome tree h n hn := by
    refine splitBundle_rejected fun welcome' tree' h' ↦ ?_
    have hwhole : frameBundle welcome tree = .ok (input.take n ++ input.drop n) := by
      rw [List.take_append_drop, h]
    have hnil := frameBundle_prefix_free h' hwhole
    exact absurd (List.drop_eq_nil_iff.1 hnil) (Nat.not_le.2 hn)
  trailing input welcome tree h extra hextra :=
    splitBundle_rejected fun _ _ h' ↦ hextra (frameBundle_prefix_free h h')
  overlong n hn behind hbehind :=
    splitBundle_rejected fun _ _ ↦ frameBundle_ne_of_overlong hn hbehind
  overlong_tree welcome hwelcome n hn behind hbehind :=
    splitBundle_rejected fun _ _ ↦ frameBundle_ne_of_overlong_tree hwelcome hn hbehind
  in_range input h := by
    rcases splitBundle_cases input with ⟨parts, hsplit⟩ | ⟨e, hsplit⟩
    · cases h.symm.trans hsplit
    · cases h.symm.trans hsplit

end VoceChat
