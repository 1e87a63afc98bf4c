import Mathlib.Data.Int.Notation
import VoceChat.Foundations.BigEndian

/-!
# Keys of the message database (`crates/msgdb/src/messages.rs`)

Every record lives in one ordered byte-string map, under a key that starts with the name of its
table and continues with big-endian `i64`s. No two tables share a first byte, and the ids of one
user's index sort by message id: a scan from one message id of a user to another visits exactly
that user's entries in between (`keyUserMsg_of_between`).

User and group ids are names and stay `Int64`. Message ids are counted and compared, so they are
integers, within the range of `i64` wherever it matters.
-/

namespace VoceChat

open BigEndian Machine

/-- A byte string literal. -/
def ascii (s : String) : Bytes := s.toList.map fun c ↦ Fin.ofNat 256 c.toNat

/-- `i64::to_be_bytes`. -/
def beI64 (n : ℤ) : Bytes := beBytes 8 (n % 18446744073709551616).toNat

/-- The number with these digits, most significant first. -/
def ofDigits (data : Bytes) : ℕ := data.foldl (fun n b ↦ 256 * n + b.val) 0

/-- `i64::from_be_bytes`. -/
def fromBeI64 (data : Bytes) : ℤ :=
  if ofDigits data < i64Size then ofDigits data else (ofDigits data : ℤ) - 18446744073709551616

/-- The number is an `i64` that is not negative. -/
def IsMid (mid : ℤ) : Prop := 0 ≤ mid ∧ mid < i64Size

instance (mid : ℤ) : Decidable (IsMid mid) := inferInstanceAs (Decidable (_ ∧ _))

def keyMsg (mid : ℤ) : Bytes := ascii "MSG/" ++ beI64 mid

def keyMergedMsg (mid : ℤ) : Bytes := ascii "FMSG/" ++ beI64 mid

def keyPendingMessageMarker (mid : ℤ) : Bytes := ascii "PEND/" ++ beI64 mid

def keyUserMsg (uid : Int64) (mid : ℤ) : Bytes := ascii "UMSG/" ++ beI64 uid.toInt ++ beI64 mid

def keyGroupMsg (gid : Int64) (mid : ℤ) : Bytes := ascii "GMSG/" ++ beI64 gid.toInt ++ beI64 mid

def keyDmMsg (fromUid toUid : Int64) (mid : ℤ) : Bytes :=
  ascii "DM/" ++ beI64 (min fromUid.toInt toUid.toInt) ++ beI64 (max fromUid.toInt toUid.toInt) ++
    beI64 mid

def keySequence (ty : Byte) : Bytes := ascii "SEQUENCE/" ++ [ty]

/-- `pending_marker_value`. -/
def pendingMarkerValue (senderUid targetUid : Int64) (createdAtMillis : ℤ) : Bytes :=
  beI64 senderUid.toInt ++ beI64 targetUid.toInt ++ beI64 createdAtMillis

/-- `decode_key_user_msg`. -/
def decodeKeyUserMsg (data : Bytes) : Option (ℤ × ℤ) :=
  if data.take 5 = ascii "UMSG/" ∧ (data.drop 5).length = 16 then
    some (fromBeI64 ((data.drop 5).take 8), fromBeI64 ((data.drop 5).drop 8))
  else none

/-! ### Eight bytes a number -/

theorem fits_eight {n : ℕ} (h : n < 18446744073709551616) : Fits 8 n := by
  simp only [Fits]
  omega

theorem length_beI64 (n : ℤ) : (beI64 n).length = 8 := length_beBytes 8 _

theorem beI64_inj {m n : ℤ} (hm : -i64Size ≤ m ∧ m < i64Size) (hn : -i64Size ≤ n ∧ n < i64Size)
    (h : beI64 m = beI64 n) : m = n := by
  have heq := beBytes_inj (fits_eight (by omega)) (fits_eight (by omega)) h
  simp only [i64Size] at hm hn
  omega

theorem beI64_lt {m n : ℤ} (hm : IsMid m) (hn : IsMid n) : beI64 m < beI64 n ↔ m < n := by
  simp only [IsMid, i64Size] at hm hn
  rw [beI64, beI64, beBytes_lt (fits_eight (by omega)) (fits_eight (by omega))]
  omega

theorem toInt_range (x : Int64) : -i64Size ≤ x.toInt ∧ x.toInt < i64Size :=
  ⟨Int64.le_toInt x, Int64.toInt_lt x⟩

theorem beI64_toInt_inj {x y : Int64} (h : beI64 x.toInt = beI64 y.toInt) : x = y :=
  Int64.toInt_inj.1 (beI64_inj (toInt_range x) (toInt_range y) h)

theorem ofDigits_concat (data : Bytes) (b : Byte) :
    ofDigits (data ++ [b]) = 256 * ofDigits data + b := by
  rw [ofDigits, List.foldl_append]
  rfl

theorem ofDigits_beBytes {w n : ℕ} (h : Fits w n) : ofDigits (beBytes w n) = n := by
  induction w generalizing n with
  | zero => exact h.symm
  | succ w ih =>
    rw [beBytes, ofDigits_concat, ih h]
    exact Nat.div_add_mod n 256

/-- Decoding inverts encoding. -/
theorem fromBeI64_beI64 {n : ℤ} (h : -i64Size ≤ n ∧ n < i64Size) : fromBeI64 (beI64 n) = n := by
  rw [fromBeI64, beI64, ofDigits_beBytes (fits_eight (by omega))]
  simp only [i64Size] at h ⊢
  omega

/-- A message id as an `i64`. -/
theorem IsMid.range {mid : ℤ} (h : IsMid mid) : -i64Size ≤ mid ∧ mid < i64Size := by
  simp only [IsMid, i64Size] at h ⊢
  omega

/-! ### The tables -/

/-- The keys the crate writes. -/
inductive RecordKey where
  | msg (mid : ℤ)
  | merged (mid : ℤ)
  | pendingMarker (mid : ℤ)
  | user (uid : Int64) (mid : ℤ)
  | group (gid : Int64) (mid : ℤ)
  | dm (fromUid toUid : Int64) (mid : ℤ)
  | sequence (ty : Byte)

namespace RecordKey

def bytes : RecordKey → Bytes
  | msg mid => keyMsg mid
  | merged mid => keyMergedMsg mid
  | pendingMarker mid => keyPendingMessageMarker mid
  | user uid mid => keyUserMsg uid mid
  | group gid mid => keyGroupMsg gid mid
  | dm fromUid toUid mid => keyDmMsg fromUid toUid mid
  | sequence ty => keySequence ty

/-- The message id of the key is one. -/
def Valid : RecordKey → Prop
  | msg mid | merged mid | pendingMarker mid | user _ mid | group _ mid | dm _ _ mid => IsMid mid
  | sequence _ => True

end RecordKey

theorem keyUserMsg_inj {uid uid' : Int64} {mid mid' : ℤ} (hmid : IsMid mid) (hmid' : IsMid mid')
    (h : keyUserMsg uid mid = keyUserMsg uid' mid') : uid = uid' ∧ mid = mid' := by
  obtain ⟨hfront, hback⟩ := List.append_inj' h (by rw [length_beI64, length_beI64])
  have huid := List.append_cancel_left hfront
  exact ⟨beI64_toInt_inj huid, beI64_inj hmid.range hmid'.range hback⟩

/-- The first byte tells the tables apart. -/
theorem bytes_ne_of_head {x y : Byte} {k l : Bytes} (hne : x ≠ y) : x :: k ≠ y :: l := fun h ↦
  hne (List.cons.inj h).1

/-- Between two keys of one user's index there are only keys of that index. -/
theorem keyUserMsg_of_between {k : RecordKey} (hk : k.Valid) {uid : Int64} {a b : ℤ}
    (ha : IsMid a) (hb : IsMid b) (hlo : keyUserMsg uid a ≤ k.bytes)
    (hhi : k.bytes < keyUserMsg uid b) : ∃ mid, k = .user uid mid ∧ a ≤ mid ∧ mid < b := by
  obtain ⟨c, hc⟩ := prefix_of_between hlo hhi
  cases k with
  | user uid' mid =>
    have hmid : IsMid mid := hk
    have hlen : (beI64 mid).length = c.length := by
      have := congrArg List.length hc
      simp only [RecordKey.bytes, keyUserMsg, List.length_append, length_beI64] at this
      rw [length_beI64]
      omega
    obtain ⟨hfront, rfl⟩ := List.append_inj' hc hlen
    obtain rfl := beI64_toInt_inj (List.append_cancel_left hfront)
    refine ⟨mid, rfl, ?_, ?_⟩
    · by_contra hlt
      refine absurd hlo (not_le.2 ?_)
      rw [RecordKey.bytes, keyUserMsg, keyUserMsg, append_lt_append_iff, beI64_lt hmid ha]
      omega
    · rwa [RecordKey.bytes, keyUserMsg, keyUserMsg, append_lt_append_iff, beI64_lt hmid hb] at hhi
  | msg mid => exact absurd hc (bytes_ne_of_head (by decide))
  | merged mid => exact absurd hc (bytes_ne_of_head (by decide))
  | pendingMarker mid => exact absurd hc (bytes_ne_of_head (by decide))
  | group gid mid => exact absurd hc (bytes_ne_of_head (by decide))
  | dm fromUid toUid mid => exact absurd hc (bytes_ne_of_head (by decide))
  | sequence ty => exact absurd hc (bytes_ne_of_head (by decide))

/-- A key of a user's index decodes to the user and the message id. -/
theorem decodeKeyUserMsg_keyUserMsg {uid : Int64} {mid : ℤ} (hmid : IsMid mid) :
    decodeKeyUserMsg (keyUserMsg uid mid) = some (uid.toInt, mid) := by
  have hprefix : (ascii "UMSG/").length = 5 := by decide
  have hdrop : (keyUserMsg uid mid).drop 5 = beI64 uid.toInt ++ beI64 mid := by
    rw [keyUserMsg, List.append_assoc, ← hprefix, List.drop_left]
  have htake : (keyUserMsg uid mid).take 5 = ascii "UMSG/" := by
    rw [keyUserMsg, List.append_assoc, ← hprefix, List.take_left]
  rw [decodeKeyUserMsg, hdrop, htake, if_pos ⟨rfl, by simp [length_beI64]⟩,
    List.take_left' (length_beI64 _), List.drop_left' (length_beI64 _),
    fromBeI64_beI64 (toInt_range uid), fromBeI64_beI64 hmid.range]

end VoceChat
