import VoceChat.Msgdb.KeySpace
import VoceChat.Pending.Markers

/-!
# What a message is stored as (`crates/msgdb/src/messages.rs`)

A message is stored under its id, in the index of every target, in the index of its conversation,
and under its marker while that is not removed (`StoredMessage.Stores`). The batch of a send writes
these records and no others (`StoredMessage.mem_batch`).

An index is a user's, a group's or a pair of users' (`MsgIndex`); a pair has no order, and `swap`
turns it round.
-/

namespace VoceChat

open BigEndian Machine

/-- Whom a message is sent to: the arguments of `send_to_group`, or those of `send_to_dm_inner`. -/
inductive Recipients where
  | group (gid : Int64) (targets : List Int64)
  | dm (fromUid toUid : Int64) (pendingCreatedAtMillis : Option Int64)
  deriving DecidableEq

namespace MsgIndex

/-- The same index, with a pair of users the other way round. -/
def swap : MsgIndex → MsgIndex
  | dm fromUid toUid => dm toUid fromUid
  | user uid => user uid
  | group gid => group gid

theorem swap_swap (i : MsgIndex) : i.swap.swap = i := by
  cases i <;> rfl

theorem same_key_swap (i : MsgIndex) (mid : ℤ) : (i.swap.key mid).Same (i.key mid) := by
  cases i with
  | dm fromUid toUid => exact .swap toUid fromUid mid
  | user uid => exact .refl _
  | group gid => exact .refl _

end MsgIndex

namespace Recipients

/-- The users whose indexes list the message. -/
def targets : Recipients → List Int64
  | group _ targets => targets
  | dm fromUid toUid _ => [fromUid, toUid]

/-- The index of the conversation. -/
def conversation : Recipients → MsgIndex
  | group gid _ => .group gid
  | dm fromUid toUid _ => .dm fromUid toUid

def indexes (rs : Recipients) : List MsgIndex := rs.targets.map .user ++ [rs.conversation]

/-- The message is listed in this index. -/
def Listed (rs : Recipients) (i : MsgIndex) : Prop := i ∈ rs.indexes ∨ i.swap ∈ rs.indexes

instance (rs : Recipients) (i : MsgIndex) : Decidable (rs.Listed i) :=
  inferInstanceAs (Decidable (_ ∨ _))

/-- The marker that the message is sent with. -/
def marker (mid : ℤ) : Recipients → Option PendingMessageMarker
  | dm fromUid toUid (some createdAtMillis) => some ⟨mid, fromUid, toUid, createdAtMillis.toInt⟩
  | dm _ _ none => none
  | group _ _ => none

theorem marker_mid {rs : Recipients} {mid : ℤ} {p : PendingMessageMarker}
    (h : rs.marker mid = some p) : p.mid = mid := by
  cases rs with
  | group gid targets => cases h
  | dm fromUid toUid createdAtMillis =>
    cases createdAtMillis with
    | none => cases h
    | some t => exact congrArg PendingMessageMarker.mid (Option.some_inj.1 h).symm

variable {μ : Type}

/-- What is written for a message. -/
def batch (rs : Recipients) (msg : μ) (id : ℤ) : List (Bytes × Blob μ) :=
  (keyMsg id, .message msg) :: rs.indexes.map (fun i ↦ ((i.key id).bytes, .message msg)) ++
    ((rs.marker id).map fun p ↦ (keyPendingMessageMarker p.mid, Blob.bytes p.value)).toList

theorem groupBatch_eq (gid : Int64) (targets : List Int64) (id : ℤ) (msg : μ) :
    MsgDb.groupBatch gid targets id msg = (group gid targets).batch msg id := by
  simp [MsgDb.groupBatch, batch, indexes, marker, conversation, Recipients.targets, MsgIndex.key,
    RecordKey.bytes, Function.comp_def]

theorem dmBatch_eq (fromUid toUid : Int64) (createdAtMillis : Option Int64) (id : ℤ) (msg : μ) :
    MsgDb.dmBatch fromUid toUid (createdAtMillis.map Int64.toInt) id msg =
      (dm fromUid toUid createdAtMillis).batch msg id := by
  cases createdAtMillis <;> rfl

theorem listed_swap {rs : Recipients} {i : MsgIndex} : rs.Listed i.swap ↔ rs.Listed i := by
  rw [Listed, Listed, MsgIndex.swap_swap]
  exact Or.comm

theorem listed_user {rs : Recipients} {uid : Int64} : rs.Listed (.user uid) ↔ uid ∈ rs.targets := by
  have hmem : MsgIndex.user uid ∈ rs.indexes ↔ uid ∈ rs.targets := by
    cases rs <;> simp [indexes, conversation]
  exact (or_self_iff.trans hmem : rs.Listed (.user uid) ↔ uid ∈ rs.targets)

theorem listed_conversation {rs : Recipients} {i : MsgIndex} (hi : ∀ uid, i ≠ .user uid) :
    rs.Listed i ↔ i = rs.conversation ∨ i = rs.conversation.swap := by
  have hmem : ∀ j : MsgIndex, (∀ uid, j ≠ .user uid) → (j ∈ rs.indexes ↔ j = rs.conversation) := by
    intro j hj
    have hnot : j ∉ rs.targets.map MsgIndex.user := fun h ↦ by
      obtain ⟨uid, -, rfl⟩ := List.mem_map.1 h
      exact hj uid rfl
    rw [indexes, List.mem_append, List.mem_singleton]
    exact or_iff_right hnot
  have hswap : ∀ uid, i.swap ≠ .user uid := by
    intro uid h
    refine hi uid ?_
    rw [← i.swap_swap, h]
    rfl
  rw [Listed, hmem i hi, hmem i.swap hswap]
  refine or_congr_right ⟨fun h ↦ ?_, fun h ↦ ?_⟩
  · rw [← h, i.swap_swap]
  · rw [h, MsgIndex.swap_swap]

end Recipients

/-- A message that was sent, with the id that was returned for it. -/
structure StoredMessage (μ : Type) where
  mid : ℤ
  recipients : Recipients
  msg : μ
  markerRemoved : Bool

namespace StoredMessage

variable {μ : Type} {m : StoredMessage μ} {k l : RecordKey} {v w : Blob μ}

/-- The marker that the message has. -/
def marker (m : StoredMessage μ) : Option PendingMessageMarker :=
  if m.markerRemoved then none else m.recipients.marker m.mid

/-- The marker of this id is removed. -/
def removeMarker (mid : ℤ) (m : StoredMessage μ) : StoredMessage μ :=
  if m.mid = mid then { m with markerRemoved := true } else m

/-- The message is stored under this key, with this value. -/
def Stores (m : StoredMessage μ) : RecordKey → Blob μ → Prop
  | .msg mid, v => mid = m.mid ∧ v = .message m.msg
  | .user uid mid, v => mid = m.mid ∧ m.recipients.Listed (.user uid) ∧ v = .message m.msg
  | .group gid mid, v => mid = m.mid ∧ m.recipients.Listed (.group gid) ∧ v = .message m.msg
  | .dm fromUid toUid mid, v =>
    mid = m.mid ∧ m.recipients.Listed (.dm fromUid toUid) ∧ v = .message m.msg
  | .pendingMarker mid, v => mid = m.mid ∧ ∃ p ∈ m.marker, v = .bytes p.value
  | .merged _, _ => False
  | .sequence _, _ => False

theorem stores_key {i : MsgIndex} {mid : ℤ} :
    m.Stores (i.key mid) v ↔ mid = m.mid ∧ m.recipients.Listed i ∧ v = .message m.msg := by
  cases i <;> rfl

theorem Stores.mid_eq (h : m.Stores k v) : k.mid = some m.mid := by
  cases k with
  | merged mid => exact h.elim
  | sequence ty => exact h.elim
  | _ => exact congrArg some h.1

theorem Stores.valid (h : m.Stores k v) (hmid : IsMid m.mid) : k.Valid := by
  have hk := h.mid_eq
  cases k with
  | sequence ty => trivial
  | _ => exact Option.some_inj.1 hk ▸ hmid

theorem Stores.unique (h : m.Stores k v) (h' : m.Stores k w) : v = w := by
  cases k with
  | merged mid => exact h.elim
  | sequence ty => exact h.elim
  | msg mid => exact h.2.trans h'.2.symm
  | pendingMarker mid =>
    obtain ⟨-, p, hp, rfl⟩ := h
    obtain ⟨-, p', hp', rfl⟩ := h'
    rw [Option.some_inj.1 (hp.symm.trans hp')]
  | _ => exact h.2.2.trans h'.2.2.symm

theorem stores_of_same (h : k.Same l) : m.Stores k v ↔ m.Stores l v := by
  cases h with
  | refl => rfl
  | swap a b mid =>
    show m.Stores ((MsgIndex.dm a b).key mid) v ↔ m.Stores ((MsgIndex.dm a b).swap.key mid) v
    rw [stores_key, stores_key, Recipients.listed_swap]

/-- The batch of a message writes what the message is stored as. -/
theorem mem_batch {key : Bytes} (hm : m.markerRemoved = false) :
    (key, v) ∈ m.recipients.batch m.msg m.mid ↔ ∃ k, m.Stores k v ∧ key = k.bytes := by
  have hmarker : m.marker = m.recipients.marker m.mid := by
    rw [marker, hm]
    rfl
  simp only [Recipients.batch, List.mem_append, List.mem_cons, List.mem_map, Option.mem_toList,
    Option.map_eq_some_iff, Prod.mk.injEq]
  constructor
  · rintro ((⟨rfl, rfl⟩ | ⟨i, hi, rfl, rfl⟩) | ⟨p, hp, rfl, rfl⟩)
    · exact ⟨.msg m.mid, ⟨rfl, rfl⟩, rfl⟩
    · exact ⟨i.key m.mid, stores_key.2 ⟨rfl, .inl hi, rfl⟩, rfl⟩
    · exact ⟨.pendingMarker p.mid, ⟨Recipients.marker_mid hp, p, hmarker ▸ hp, rfl⟩, rfl⟩
  · rintro ⟨k, hk, rfl⟩
    have hindex : ∀ i : MsgIndex, m.Stores (i.key m.mid) v →
        ∃ j ∈ m.recipients.indexes, (j.key m.mid).bytes = (i.key m.mid).bytes ∧
          Blob.message m.msg = v := by
      intro i hi
      obtain ⟨-, hlisted, rfl⟩ := stores_key.1 hi
      rcases hlisted with hmem | hmem
      · exact ⟨i, hmem, rfl, rfl⟩
      · exact ⟨i.swap, hmem, (i.same_key_swap m.mid).bytes_eq, rfl⟩
    cases k with
    | merged mid => exact hk.elim
    | sequence ty => exact hk.elim
    | msg mid =>
      obtain ⟨rfl, rfl⟩ := hk
      exact .inl (.inl ⟨rfl, rfl⟩)
    | pendingMarker mid =>
      obtain ⟨rfl, p, hp, rfl⟩ := hk
      rw [hmarker] at hp
      exact .inr ⟨p, hp, congrArg keyPendingMessageMarker (Recipients.marker_mid hp), rfl⟩
    | user uid mid =>
      obtain rfl := hk.1
      exact .inl (.inr (hindex (.user uid) hk))
    | group gid mid =>
      obtain rfl := hk.1
      exact .inl (.inr (hindex (.group gid) hk))
    | dm fromUid toUid mid =>
      obtain rfl := hk.1
      exact .inl (.inr (hindex (.dm fromUid toUid) hk))

/-- The same, for a key of this or of another message. -/
theorem mem_batch_bytes (hm : m.markerRemoved = false) (hmid : IsMid m.mid) (hk : k.IsI64) :
    (k.bytes, v) ∈ m.recipients.batch m.msg m.mid ↔ m.Stores k v := by
  rw [mem_batch hm]
  constructor
  · rintro ⟨l, hl, hbytes⟩
    exact (stores_of_same (RecordKey.same_of_bytes hk (hl.valid hmid).isI64 hbytes)).2 hl
  · exact fun h ↦ ⟨k, h, rfl⟩

theorem mid_removeMarker (mid : ℤ) (m : StoredMessage μ) : (m.removeMarker mid).mid = m.mid := by
  rw [removeMarker]
  split <;> rfl

theorem stores_removeMarker {mid : ℤ} :
    (m.removeMarker mid).Stores k v ↔ m.Stores k v ∧ k ≠ .pendingMarker mid := by
  rw [removeMarker]
  split
  · rename_i hmid
    cases k with
    | pendingMarker mid' =>
      refine iff_of_false ?_ ?_
      · rintro ⟨-, p, hp, -⟩
        cases hp
      · rintro ⟨⟨heq, -⟩, hne⟩
        exact hne (by rw [heq, hmid])
    | _ => exact (and_iff_left (by rintro ⟨⟩)).symm
  · rename_i hmid
    refine (and_iff_left_of_imp ?_).symm
    rintro hst rfl
    exact hmid (Option.some_inj.1 hst.mid_eq).symm

end StoredMessage

/-! ### The marker of a message -/

namespace StoredMessage

variable {μ : Type} {m : StoredMessage μ} {p : PendingMessageMarker}

theorem marker_mid (h : m.marker = some p) : p.mid = m.mid := by
  rw [marker] at h
  split at h
  · cases h
  · exact Recipients.marker_mid h

theorem marker_fits (hmid : IsMid m.mid) (h : m.marker = some p) : p.Fits := by
  refine ⟨marker_mid h ▸ hmid, ?_⟩
  rw [marker] at h
  split at h
  · cases h
  · generalize m.recipients = rs at h
    cases rs with
    | group gid targets => cases h
    | dm fromUid toUid createdAtMillis =>
      cases createdAtMillis with
      | none => cases h
      | some t =>
        obtain rfl := Option.some_inj.1 h
        exact toInt_range t

theorem isSome_marker : m.marker.isSome ↔ m.markerRemoved = false ∧
    ∃ fromUid toUid createdAtMillis,
      m.recipients = .dm fromUid toUid (some createdAtMillis) := by
  rw [marker]
  cases m.markerRemoved with
  | true => simp
  | false =>
    generalize m.recipients = rs
    cases rs with
    | group gid targets => simp [Recipients.marker]
    | dm fromUid toUid createdAtMillis => cases createdAtMillis <;> simp [Recipients.marker]

end StoredMessage

end VoceChat
