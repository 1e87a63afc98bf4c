import VoceChat.Events.System

/-!
# The backlog of a session (`fetch_newest_messages`)

The backlog is taken from the newest end of the user's index: of the messages above `after_mid` it
has the newest `MAX_NEWEST_MESSAGES`, oldest first (`fetchNewestMessages_mids`).
-/

namespace VoceChat

open MsgDb

/-- The first id that is wanted. -/
def firstMid (afterMid : Option ℤ) : ℤ := (afterMid.map (· + 1)).getD 0

/-- The messages of the user above `after_mid`, oldest first. -/
def wanted (db : MsgDb Stored) (uid : Int64) (afterMid : Option ℤ) : List (ℤ × Blob Stored) :=
  db.userEntries uid (firstMid afterMid)

/-- The groups of the wanted messages still exist. -/
def GroupsExist (cache : Cache) (db : MsgDb Stored) (uid : Int64) (afterMid : Option ℤ) : Prop :=
  ∀ e ∈ wanted db uid afterMid, ∀ payload gid, e.2 = .message (.chat payload) →
    payload.target = .group gid → (cache.group gid).isSome

/-- The newest `n` elements of an ascending list. -/
def newest {α : Type} (n : ℕ) (l : List α) : List α := l.drop (l.length - n)

theorem newest_eq {α : Type} (n : ℕ) (l : List α) : (l.reverse.take n).reverse = newest n l := by
  rw [List.take_reverse, List.reverse_reverse, newest]

theorem newest_of_length_le {α : Type} {n : ℕ} {l : List α} (h : l.length ≤ n) :
    newest n l = l := by
  rw [newest, Nat.sub_eq_zero_of_le h, List.drop_zero]

section Backlog

variable {cache : Cache} {db : MsgDb Stored} {uid : Int64} {afterMid : Option ℤ}

theorem isMid_firstMid (h : ∀ a ∈ afterMid, 0 ≤ a ∧ a < maxMid) : IsMid (firstMid afterMid) := by
  cases afterMid with
  | none => exact (by decide : IsMid 0)
  | some a =>
    obtain ⟨hle, hlt⟩ := h a rfl
    exact ⟨show 0 ≤ a + 1 by omega, show a + 1 < _ by rw [maxMid] at hlt; omega⟩

theorem firstMid_le {mid : ℤ} (hmid : 0 ≤ mid) :
    firstMid afterMid ≤ mid ↔ ∀ a ∈ afterMid, a < mid := by
  cases afterMid with
  | none => simpa [firstMid] using hmid
  | some a => exact Int.add_one_le_iff.trans (by simp)

theorem mem_wanted (hkeys : db.KeysValid) (hafter : ∀ a ∈ afterMid, 0 ≤ a ∧ a < maxMid) {mid : ℤ}
    {v : Blob Stored} : (mid, v) ∈ wanted db uid afterMid ↔
      db.db.get (keyUserMsg uid mid) = some v ∧ IsMid mid ∧ (∀ a ∈ afterMid, a < mid) ∧
        mid < maxMid := by
  rw [wanted, mem_userEntries hkeys (isMid_firstMid hafter)]
  constructor
  · exact fun ⟨hget, hmid, hle, hlt⟩ ↦ ⟨hget, hmid, (firstMid_le hmid.1).1 hle, hlt⟩
  · exact fun ⟨hget, hmid, hle, hlt⟩ ↦ ⟨hget, hmid, (firstMid_le hmid.1).2 hle, hlt⟩

theorem wanted_nodup (hkeys : db.KeysValid) (hafter : ∀ a ∈ afterMid, 0 ≤ a ∧ a < maxMid) :
    ((wanted db uid afterMid).map Prod.fst).Nodup := by
  have hsorted : (wanted db uid afterMid).Pairwise fun x y ↦ x.1 < y.1 :=
    userEntries_sorted hkeys (isMid_firstMid hafter)
  exact List.pairwise_map.2 (hsorted.imp fun hlt heq ↦ absurd heq (ne_of_lt hlt))

/-- The messages of the backlog, before the filters. -/
theorem fetchNewestMessages_eq (hkeys : db.KeysValid)
    (hafter : ∀ a ∈ afterMid, 0 ≤ a ∧ a < maxMid) :
    fetchNewestMessages cache db uid afterMid =
      ((newest maxNewestMessages (wanted db uid afterMid)).filterMap ChatMessage.decode).filter
        (ChatMessage.shown cache) := by
  rw [fetchNewestMessages, fetchUserMessagesAfter_eq hkeys (isMid_firstMid hafter), newest_eq]
  rfl

theorem decode_eq_some {e : ℤ × Blob Stored} {msg : ChatMessage} :
    ChatMessage.decode e = some msg ↔ e = (msg.mid, .message (.chat msg.payload)) := by
  obtain ⟨id, data⟩ := e
  constructor
  · intro h
    obtain ⟨payload, hpayload, rfl⟩ := Option.map_eq_some_iff.1 h
    refine Prod.ext rfl ?_
    show data = _
    match data, hpayload with
    | .message (.chat _), heq => rw [Option.some_inj.1 heq]
  · intro h
    obtain ⟨rfl, rfl⟩ := Prod.ext_iff.1 h
    rfl

/-- The messages of the backlog are wanted ones. -/
theorem mem_wanted_of_mem_fetch (hkeys : db.KeysValid)
    (hafter : ∀ a ∈ afterMid, 0 ≤ a ∧ a < maxMid) {msg : ChatMessage}
    (h : msg ∈ fetchNewestMessages cache db uid afterMid) :
    (msg.mid, Blob.message (.chat msg.payload)) ∈ wanted db uid afterMid := by
  rw [fetchNewestMessages_eq hkeys hafter] at h
  obtain ⟨e, he, hdecode⟩ := List.mem_filterMap.1 (List.mem_of_mem_filter h)
  exact decode_eq_some.1 hdecode ▸ List.mem_of_mem_drop he

theorem decode_mids_sublist (l : List (ℤ × Blob Stored)) :
    ((l.filterMap ChatMessage.decode).map ChatMessage.mid).Sublist (l.map Prod.fst) := by
  induction l with
  | nil => exact List.Sublist.slnil
  | cons e l ih =>
    cases hdata : Stored.payload e.2 with
    | none => simpa [ChatMessage.decode, hdata] using ih.cons e.1
    | some payload => simpa [ChatMessage.decode, hdata] using ih.cons_cons e.1

/-- The backlog has some of the wanted messages, in their order. -/
theorem fetchNewestMessages_sublist (hkeys : db.KeysValid)
    (hafter : ∀ a ∈ afterMid, 0 ≤ a ∧ a < maxMid) :
    ((fetchNewestMessages cache db uid afterMid).map ChatMessage.mid).Sublist
      ((wanted db uid afterMid).map Prod.fst) := by
  rw [fetchNewestMessages_eq hkeys hafter]
  exact ((List.filter_sublist.map _).trans (decode_mids_sublist _)).trans
    ((List.drop_sublist _ _).map _)

/-- Where every blob is a message and every group exists, the filters let everything pass. -/
theorem shown_mids {l : List (ℤ × Blob Stored)}
    (h : ∀ e ∈ l, ∃ payload, e.2 = .message (.chat payload) ∧
      ∀ gid, payload.target = .group gid → (cache.group gid).isSome) :
    ((l.filterMap ChatMessage.decode).filter (ChatMessage.shown cache)).map ChatMessage.mid =
      l.map Prod.fst := by
  induction l with
  | nil => rfl
  | cons e l ih =>
    obtain ⟨payload, hpayload, hgroup⟩ := h _ List.mem_cons_self
    have hdecode : ChatMessage.decode e = some ⟨e.1, payload⟩ := by
      rw [ChatMessage.decode, hpayload]
      rfl
    have hshown : ChatMessage.shown cache ⟨e.1, payload⟩ = true := by
      rw [ChatMessage.shown]
      split
      · rfl
      · rename_i gid htarget
        exact hgroup gid htarget
    rw [List.filterMap_cons_some hdecode, List.filter_cons_of_pos hshown, List.map_cons,
      List.map_cons, ih fun e he ↦ h e (List.mem_cons_of_mem _ he)]

/-- **The backlog is the newest of the wanted messages**, oldest first. -/
theorem fetchNewestMessages_mids (hkeys : db.KeysValid)
    (hafter : ∀ a ∈ afterMid, 0 ≤ a ∧ a < maxMid)
    (hchat : ∀ uid mid v, IsMid mid → db.db.get (keyUserMsg uid mid) = some v →
      ∃ payload, v = .message (.chat payload))
    (hgroups : GroupsExist cache db uid afterMid) :
    (fetchNewestMessages cache db uid afterMid).map ChatMessage.mid =
      (newest maxNewestMessages (wanted db uid afterMid)).map Prod.fst := by
  rw [fetchNewestMessages_eq hkeys hafter, shown_mids]
  intro e he
  have hmem : e ∈ wanted db uid afterMid := List.mem_of_mem_drop he
  obtain ⟨hget, hmid, -⟩ := (mem_wanted hkeys hafter).1 hmem
  obtain ⟨payload, hpayload⟩ := hchat uid e.1 e.2 hmid hget
  exact ⟨payload, hpayload, fun gid ↦ hgroups e hmem payload gid hpayload⟩

end Backlog

end VoceChat
