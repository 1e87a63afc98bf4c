import VoceChat.Msgdb.Allocation

/-!
# One ordered space of keys (`crates/msgdb/src/messages.rs`)

All tables of the message database share one ordered map. Three facts let each of them be read on
its own, for all `i64` arguments:

* equal bytes are the bytes of one entry (`RecordKey.same_of_bytes`); only the two users of a
  conversation may come in either order, since `key_dm_msg` sorts them;
* what lies between two keys of an index is a key of that index (`MsgIndex.same_of_between`);
* what starts with the prefix of an index is a key of that index (`MsgIndex.same_of_front`).

The ids of an index are compared as unsigned numbers. A negative number is therefore above every
message id, not below (`beI64_lt_of_neg`).
-/

namespace VoceChat

open BigEndian Machine

/-- The number is an `i64`. -/
def IsI64 (n : ℤ) : Prop := -i64Size ≤ n ∧ n < i64Size

instance (n : ℤ) : Decidable (IsI64 n) := inferInstanceAs (Decidable (_ ∧ _))

/-- The sign bit comes first. -/
theorem beI64_lt_of_neg {m n : ℤ} (hm : IsMid m) (hn : IsI64 n) (hneg : n < 0) :
    beI64 m < beI64 n := by
  simp only [IsMid, IsI64, i64Size] at hm hn
  rw [beI64, beI64, beBytes_lt (fits_eight (by omega)) (fits_eight (by omega))]
  omega

namespace RecordKey

/-- The message id of the key is an `i64`. -/
def IsI64 : RecordKey → Prop
  | msg mid | merged mid | pendingMarker mid | user _ mid | group _ mid | dm _ _ mid =>
    VoceChat.IsI64 mid
  | sequence _ => True

/-- Keys of one entry: a pair of users has no order. -/
inductive Same : RecordKey → RecordKey → Prop where
  | refl (k : RecordKey) : Same k k
  | swap (fromUid toUid : Int64) (mid : ℤ) : Same (dm fromUid toUid mid) (dm toUid fromUid mid)

theorem Valid.isI64 {k : RecordKey} (hk : k.Valid) : k.IsI64 := by
  cases k with
  | sequence ty => trivial
  | _ =>
    have hmid : IsMid _ := hk
    exact hmid.range

end RecordKey

theorem keyDmMsg_comm (fromUid toUid : Int64) (mid : ℤ) :
    keyDmMsg fromUid toUid mid = keyDmMsg toUid fromUid mid := by
  rw [keyDmMsg, keyDmMsg, min_comm, max_comm]

theorem RecordKey.Same.bytes_eq {k l : RecordKey} (h : k.Same l) : k.bytes = l.bytes := by
  cases h with
  | refl => rfl
  | swap fromUid toUid mid => exact keyDmMsg_comm fromUid toUid mid

/-- Two numbers in order are those of a pair of users in one of its orders. -/
theorem eq_or_eq_swap_of_beI64 {a b c d : Int64}
    (hmin : beI64 (min a.toInt b.toInt) = beI64 (min c.toInt d.toInt))
    (hmax : beI64 (max a.toInt b.toInt) = beI64 (max c.toInt d.toInt)) :
    a = c ∧ b = d ∨ a = d ∧ b = c := by
  have ha := toInt_range a
  have hb := toInt_range b
  have hc := toInt_range c
  have hd := toInt_range d
  have hlow := beI64_inj (by omega) (by omega) hmin
  have hhigh := beI64_inj (by omega) (by omega) hmax
  have hcases : a.toInt = c.toInt ∧ b.toInt = d.toInt ∨ a.toInt = d.toInt ∧ b.toInt = c.toInt := by
    omega
  exact hcases.imp (.imp Int64.toInt_inj.1 Int64.toInt_inj.1)
    (.imp Int64.toInt_inj.1 Int64.toInt_inj.1)

/-! ### The indexes of the messages -/

/-- What messages are listed under: a user, a group, or a pair of users. -/
inductive MsgIndex where
  | user (uid : Int64)
  | group (gid : Int64)
  | dm (fromUid toUid : Int64)
  deriving DecidableEq

namespace MsgIndex

/-- The entry of a message. -/
def key : MsgIndex → ℤ → RecordKey
  | user uid, mid => .user uid mid
  | group gid, mid => .group gid mid
  | dm fromUid toUid, mid => .dm fromUid toUid mid

/-- What the keys of an index have in common. -/
def front : MsgIndex → Bytes
  | user uid => ascii "UMSG/" ++ beI64 uid.toInt
  | group gid => ascii "GMSG/" ++ beI64 gid.toInt
  | dm fromUid toUid =>
    ascii "DM/" ++ beI64 (min fromUid.toInt toUid.toInt) ++ beI64 (max fromUid.toInt toUid.toInt)

theorem bytes_key (i : MsgIndex) (mid : ℤ) : (i.key mid).bytes = i.front ++ beI64 mid := by
  cases i <;> rfl

theorem mid_key (i : MsgIndex) (mid : ℤ) : (i.key mid).mid = some mid := by
  cases i <;> rfl

theorem isI64_key (i : MsgIndex) {mid : ℤ} (h : IsI64 mid) : (i.key mid).IsI64 := by
  cases i <;> exact h

theorem valid_key (i : MsgIndex) {mid : ℤ} (h : IsMid mid) : (i.key mid).Valid := by
  cases i <;> exact h

theorem mid_lt_iff (i : MsgIndex) {m n : ℤ} (hm : IsMid m) (hn : IsMid n) :
    (i.key m).bytes < (i.key n).bytes ↔ m < n := by
  rw [bytes_key, bytes_key, append_lt_append_iff, beI64_lt hm hn]

/-- Two fronts of one table that are followed by eight bytes each are equal. -/
theorem front_eq_of_append {p q : Bytes} (hlen : p.length = q.length) {mid : ℤ} {c : Bytes}
    (h : p ++ beI64 mid = q ++ c) : p = q :=
  (List.append_inj h hlen).1

end MsgIndex

theorem length_front_user (uid : Int64) : (MsgIndex.user uid).front.length = 13 := by
  rw [MsgIndex.front, List.length_append, length_beI64]
  rfl

theorem length_front_group (gid : Int64) : (MsgIndex.group gid).front.length = 13 := by
  rw [MsgIndex.front, List.length_append, length_beI64]
  rfl

theorem length_front_dm (fromUid toUid : Int64) :
    (MsgIndex.dm fromUid toUid).front.length = 19 := by
  rw [MsgIndex.front, List.length_append, List.length_append, length_beI64, length_beI64]
  rfl

theorem front_dm_eq {a b c d : Int64} (h : (MsgIndex.dm a b).front = (MsgIndex.dm c d).front) :
    a = c ∧ b = d ∨ a = d ∧ b = c := by
  obtain ⟨hfront, hmax⟩ := List.append_inj' h (by rw [length_beI64, length_beI64])
  exact eq_or_eq_swap_of_beI64 (List.append_cancel_left hfront) hmax

/-- **A key with the front of an index** is an entry of that index. -/
theorem MsgIndex.same_of_front (i : MsgIndex) {k : RecordKey} {c : Bytes}
    (h : k.bytes = i.front ++ c) : ∃ mid, k.mid = some mid ∧ k.Same (i.key mid) := by
  cases i with
  | user uid =>
    cases k with
    | user uid' mid =>
      have hfront : (user uid').front = (user uid).front :=
        front_eq_of_append (by rw [length_front_user, length_front_user]) h
      obtain rfl := beI64_toInt_inj (List.append_cancel_left hfront)
      exact ⟨mid, rfl, .refl _⟩
    | _ => exact absurd h (bytes_ne_of_head (by decide))
  | group gid =>
    cases k with
    | group gid' mid =>
      have hfront : (group gid').front = (group gid).front :=
        front_eq_of_append (by rw [length_front_group, length_front_group]) h
      obtain rfl := beI64_toInt_inj (List.append_cancel_left hfront)
      exact ⟨mid, rfl, .refl _⟩
    | _ => exact absurd h (bytes_ne_of_head (by decide))
  | dm fromUid toUid =>
    cases k with
    | dm a b mid =>
      have hfront : (dm a b).front = (dm fromUid toUid).front :=
        front_eq_of_append (by rw [length_front_dm, length_front_dm]) h
      obtain ⟨rfl, rfl⟩ | ⟨rfl, rfl⟩ := front_dm_eq hfront
      · exact ⟨mid, rfl, .refl _⟩
      · exact ⟨mid, rfl, .swap a b mid⟩
    | _ => exact absurd h (bytes_ne_of_head (by decide))

/-- Between two keys of an index there are only keys of that index. -/
theorem MsgIndex.same_of_between (i : MsgIndex) {k : RecordKey} {a b : ℤ}
    (hlo : (i.key a).bytes ≤ k.bytes) (hhi : k.bytes < (i.key b).bytes) :
    ∃ mid, k.mid = some mid ∧ k.Same (i.key mid) := by
  rw [bytes_key] at hlo hhi
  obtain ⟨c, hc⟩ := prefix_of_between hlo hhi
  exact i.same_of_front hc

namespace RecordKey

theorem IsI64.mid {k : RecordKey} (hk : k.IsI64) {m : ℤ} (hm : k.mid = some m) :
    VoceChat.IsI64 m := by
  cases k with
  | sequence ty => cases hm
  | _ => exact Option.some_inj.1 hm ▸ hk

/-- Two keys of one entry have one message id. -/
theorem Same.mid_eq {k l : RecordKey} (h : k.Same l) : k.mid = l.mid := by
  cases h <;> rfl

theorem same_of_index {k : RecordKey} (hk : k.IsI64) (i : MsgIndex) {mid : ℤ}
    (hmid : VoceChat.IsI64 mid) (h : k.bytes = (i.key mid).bytes) : k.Same (i.key mid) := by
  have hfront := h.trans (i.bytes_key mid)
  obtain ⟨m, hm, hsame⟩ := i.same_of_front hfront
  have hbytes : i.front ++ beI64 m = i.front ++ beI64 mid := by
    rw [← i.bytes_key, ← hsame.bytes_eq, hfront]
  obtain rfl := beI64_inj (hk.mid hm) hmid (List.append_cancel_left hbytes)
  exact hsame

/-- **Equal bytes are the bytes of one entry.** -/
theorem same_of_bytes {k l : RecordKey} (hk : k.IsI64) (hl : l.IsI64) (h : k.bytes = l.bytes) :
    k.Same l := by
  cases l with
  | user uid mid => exact same_of_index hk (.user uid) hl h
  | group gid mid => exact same_of_index hk (.group gid) hl h
  | dm fromUid toUid mid => exact same_of_index hk (.dm fromUid toUid) hl h
  | msg mid =>
    cases k with
    | msg mid' => exact beI64_inj hk hl (List.append_cancel_left h) ▸ .refl _
    | _ => exact absurd h (bytes_ne_of_head (by decide))
  | merged mid =>
    cases k with
    | merged mid' => exact beI64_inj hk hl (List.append_cancel_left h) ▸ .refl _
    | _ => exact absurd h (bytes_ne_of_head (by decide))
  | pendingMarker mid =>
    cases k with
    | pendingMarker mid' => exact beI64_inj hk hl (List.append_cancel_left h) ▸ .refl _
    | _ => exact absurd h (bytes_ne_of_head (by decide))
  | sequence ty =>
    cases k with
    | sequence ty' =>
      obtain rfl := List.singleton_inj.1 (List.append_cancel_left h)
      exact .refl _
    | _ => exact absurd h (bytes_ne_of_head (by decide))

end RecordKey

end VoceChat
