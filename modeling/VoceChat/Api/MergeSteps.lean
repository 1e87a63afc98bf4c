import VoceChat.Api.MergeSystem
import VoceChat.Foundations.Holders
import VoceChat.Msgdb.Writes

/-!
# What the steps do to messages and merged messages

Only four things matter about a state: which messages there are, which of them are pending, what
their merged messages are, and that the invariant holds. A step changes none of the first three
(`SameView`), stores a message (`Arrives`), or ends a call (`Ends`), with or without the merged
message written.

The invariant is about the calls under way. Before its batch is written, an id has no records; after
that it has a message, and no merged message yet. Since a merged message is only ever started under
the id of its own original, every merged message there is has the sender, the target and the time of
its original.
-/

namespace VoceChat

open Guards Machine MsgDb
open scoped List

/-! ### The records of merged messages -/

/-- `merged_id`: the message whose merged message is written. -/
def MessageDetail.mergedId (id : ℤ) : MessageDetail → Option ℤ
  | .normal _ | .reply _ => some id
  | .reaction ⟨mid, .edit _⟩ => some mid
  | .reaction ⟨_, .like _⟩ | .reaction ⟨_, .delete⟩ => none

theorem MessageDetail.mergedId_eq_some {detail : MessageDetail} {id mid : ℤ} :
    detail.mergedId id = some mid ↔ (∃ content, detail.original = some content) ∧ mid = id ∨
      ∃ content, detail = .reaction ⟨mid, .edit content⟩ := by
  match detail with
  | .normal _ | .reply _ => simp [mergedId, original, eq_comm]
  | .reaction ⟨_, .edit _⟩ | .reaction ⟨_, .like _⟩ | .reaction ⟨_, .delete⟩ =>
    simp [mergedId, original]

/-- The message that a reaction refers to is named by an `i64`. -/
def MessageDetail.RefersToI64 (detail : MessageDetail) : Prop :=
  ∀ reaction, detail = .reaction reaction → IsI64 reaction.mid

theorem isI64_toInt (mid : Int64) : IsI64 mid.toInt := toInt_range mid

theorem RecordKey.bytes_ne_merged {k : RecordKey} (hk : k.IsI64) {mid : ℤ}
    (hmid : VoceChat.IsI64 mid) (hne : k ≠ .merged mid) : k.bytes ≠ keyMergedMsg mid := by
  intro heq
  have hsame : k.Same (.merged mid) := RecordKey.same_of_bytes hk hmid heq
  cases hsame
  exact hne rfl

section Records

variable {db : MsgDb Stored} {payload : ChatMessagePayload} {id mid : ℤ}

theorem getMergedMessage_congr {db' : MsgDb Stored}
    (h : db'.getMergedMsg mid = db.getMergedMsg mid) :
    getMergedMessage db' mid = getMergedMessage db mid := by
  rw [getMergedMessage, getMergedMessage, h]

/-- Writing a merged message changes its own record at most. -/
theorem get_storeMerged_of_ne (hid : IsI64 id) (href : payload.detail.RefersToI64) {k : RecordKey}
    (hk : k.IsI64) (hne : ∀ m, payload.detail.mergedId id = some m → k ≠ .merged m) :
    (storeMerged (fun _ ↦ false) db payload id).2.db.get k.bytes = db.db.get k.bytes := by
  obtain ⟨fromUid, createdAt, target, detail⟩ := payload
  match detail with
  | .normal _ | .reply _ =>
    exact OrderedMap.get_insert_of_ne _ _ (k.bytes_ne_merged hk hid (hne id rfl))
  | .reaction ⟨_, .like _⟩ | .reaction ⟨_, .delete⟩ => rfl
  | .reaction ⟨origin, .edit content⟩ =>
    show (db.updateMergedMsg origin (mergeEdit content)).db.get k.bytes = _
    rw [MsgDb.updateMergedMsg]
    split
    · exact OrderedMap.get_insert_of_ne _ _
        (k.bytes_ne_merged hk (href _ rfl) (hne origin rfl))
    · rfl

/-- A normal message or a reply starts a merged message. -/
theorem getMergedMsg_storeMerged_self (db : MsgDb Stored) (id : ℤ) {content : ChatMessageContent}
    (h : payload.detail.original = some content) :
    (storeMerged (fun _ ↦ false) db payload id).2.getMergedMsg id =
      some (.message (.merged ⟨payload.fromUid, payload.target, content, payload.createdAt⟩)) := by
  obtain ⟨fromUid, createdAt, target, detail⟩ := payload
  cases detail with
  | normal normal | reply reply =>
    obtain rfl := Option.some_inj.1 h
    exact OrderedMap.get_insert_self _ _ _
  | reaction reaction => cases h

/-- An edit overwrites the content of the merged message, if there is one. -/
theorem getMergedMsg_storeMerged_edit (db : MsgDb Stored) (id : ℤ) {content : ChatMessageContent}
    (h : payload.detail = .reaction ⟨mid, .edit content⟩) :
    (storeMerged (fun _ ↦ false) db payload id).2.getMergedMsg mid =
      (db.getMergedMsg mid).map (mergeEdit content) := by
  rw [storeMerged, h]
  show (db.updateMergedMsg mid (mergeEdit content)).db.get (keyMergedMsg mid) = _
  rw [MsgDb.updateMergedMsg, MsgDb.getMergedMsg]
  cases hget : db.db.get (keyMergedMsg mid) with
  | none => exact hget
  | some data => exact OrderedMap.get_insert_self _ _ _

theorem mergedPayload_mergeEdit (content : ChatMessageContent) (data : Blob Stored) :
    Stored.mergedPayload (mergeEdit content data) =
      (Stored.mergedPayload data).map fun payload ↦ { payload with content } := by
  match data with
  | .message (.merged payload) | .message (.chat payload) | .bytes b => rfl

theorem getMergedMessage_storeMerged_edit (db : MsgDb Stored) (id : ℤ)
    {content : ChatMessageContent} (h : payload.detail = .reaction ⟨mid, .edit content⟩) :
    getMergedMessage (storeMerged (fun _ ↦ false) db payload id).2 mid =
      (getMergedMessage db mid).map fun payload ↦ { payload with content } := by
  rw [getMergedMessage, getMergedMessage, getMergedMsg_storeMerged_edit db id h]
  cases db.getMergedMsg mid with
  | none => rfl
  | some data => exact mergedPayload_mergeEdit content data

/-- The batch of a message has no merged message. -/
theorem Prepared.ne_merged_of_mem_batch {p : Prepared} {e : Bytes × Blob Stored}
    (he : e ∈ p.batch id) (m : ℤ) : e.1 ≠ keyMergedMsg m := by
  obtain ⟨target, payload⟩ := p
  match target with
  | .group gid targets =>
    simp only [batch, groupBatch, List.mem_append, List.mem_cons, List.mem_map, List.not_mem_nil,
      or_false] at he
    rcases he with (rfl | ⟨uid, -, rfl⟩) | rfl <;> exact bytes_ne_of_head (by decide)
  | .dm fromUid toUid false | .dm fromUid toUid true =>
    simp only [batch, dmBatch, List.mem_append, List.mem_cons, List.mem_map, List.not_mem_nil,
      or_false, Option.mem_toList, Option.map_eq_some_iff] at he
    rcases he with ((rfl | ⟨uid, -, rfl⟩) | rfl) | ⟨createdAt, -, rfl⟩ <;>
      exact bytes_ne_of_head (by decide)

theorem getMergedMsg_applyBatch (p : Prepared) (id m : ℤ) :
    (db.applyBatch (p.batch id)).getMergedMsg m = db.getMergedMsg m :=
  OrderedMap.get_insertAll_of_notMem fun _ he ↦ Prepared.ne_merged_of_mem_batch he m

end Records

/-! ### The invariant -/

/-- An id that was taken has no records; once its message is stored it has this message, and no
merged message. -/
def Merging.Inv (db : MsgDb Stored) (x : Merging) : Prop :=
  x.prepared.payload.detail.RefersToI64 ∧
  match x.phase with
  | .prepared => True
  | .numbered id => IsMid id ∧ id < db.nextId ∧
      ∀ k : RecordKey, k.Valid → k.mid = some id → db.db.get k.bytes = none
  | .stored id => IsMid id ∧ id < db.nextId ∧
      db.getMsg id = some (.message (.chat x.prepared.payload)) ∧ db.getMergedMsg id = none

/-- Nothing changes for a call if the records of its id stay. -/
theorem Merging.Inv.frame {db db' : MsgDb Stored} {x : Merging} (h : x.Inv db)
    (hnext : db.nextId ≤ db'.nextId) (hkeep : ∀ id, IsMid id → x.mid = some id → ∀ k : RecordKey,
      k.Valid → k.mid = some id → db'.db.get k.bytes = db.db.get k.bytes) : x.Inv db' := by
  obtain ⟨prepared, phase⟩ := x
  obtain ⟨href, hphase⟩ := h
  refine ⟨href, ?_⟩
  cases phase with
  | prepared => trivial
  | numbered id =>
    obtain ⟨hid, hlt, hnone⟩ := hphase
    exact ⟨hid, lt_of_lt_of_le hlt hnext, fun k hk hm ↦ (hkeep id hid rfl k hk hm).trans
      (hnone k hk hm)⟩
  | stored id =>
    obtain ⟨hid, hlt, hmsg, hmerged⟩ := hphase
    exact ⟨hid, lt_of_lt_of_le hlt hnext, (hkeep id hid rfl (.msg id) hid rfl).trans hmsg,
      (hkeep id hid rfl (.merged id) hid rfl).trans hmerged⟩

namespace MergeSystem

structure Inv (s : MergeSystem) : Prop where
  wellFormed : s.messages.WellFormed
  ids : (s.sends.filterMap Merging.mid).Nodup
  sends : ∀ x ∈ s.sends, x.Inv s.messages
  merged : ∀ mid v, IsI64 mid → s.messages.getMergedMsg mid = some v → ∃ payload original content,
    s.Original mid payload original ∧
      v = .message (.merged ⟨payload.fromUid, payload.target, content, payload.createdAt⟩)

theorem inv_init : init.Inv where
  wellFormed := wellFormed_created
  ids := List.nodup_nil
  sends _ h := nomatch h
  merged mid v _ hget := by
    have hnone : (created : MsgDb Stored).db.get (keyMergedMsg mid) = none :=
      OrderedMap.get_insert_of_ne _ _ (bytes_ne_of_head (by decide))
    rw [show init.messages.getMergedMsg mid = none from hnone] at hget
    cases hget

variable {s t : MergeSystem} {i : ℕ} {x : Merging} {p : Prepared} {id : ℤ}

/-- A message is stored under its id once. -/
theorem Has.unique {mid : ℤ} {payload payload' : ChatMessagePayload} (h : s.Has mid payload)
    (h' : s.Has mid payload') : payload = payload' := by
  have heq := h.2.symm.trans h'.2
  simpa using heq

theorem Inv.of_mid (h : s.Inv) (hx : x ∈ s.sends) (hid : x.mid = some id) :
    IsMid id ∧ id < s.messages.nextId ∧ s.messages.getMergedMsg id = none := by
  obtain ⟨prepared, phase⟩ := x
  have hinv := (h.sends _ hx).2
  cases phase with
  | prepared => cases hid
  | numbered id' =>
    obtain rfl := Option.some_inj.1 hid
    exact ⟨hinv.1, hinv.2.1, hinv.2.2 (.merged id') hinv.1 rfl⟩
  | stored id' =>
    obtain rfl := Option.some_inj.1 hid
    exact ⟨hinv.1, hinv.2.1, hinv.2.2.2⟩

/-- No other call has the id. -/
theorem Inv.ne_of_mem_eraseIdx (h : s.Inv) (hx : s.sends[i]? = some x) {y : Merging}
    (hy : y ∈ s.sends.eraseIdx i) (hid : y.mid = some id) : x.mid ≠ some id := by
  intro heq
  have hperm := Holders.filterMap_eraseIdx Merging.mid hx
  rw [heq] at hperm
  have hnodup : (id :: (s.sends.eraseIdx i).filterMap Merging.mid).Nodup :=
    hperm.nodup_iff.2 h.ids
  exact (List.nodup_cons.1 hnodup).1 (List.mem_filterMap.2 ⟨y, hy, hid⟩)

/-- One call goes on with its id or with the next one. -/
theorem Inv.set (h : s.Inv) (hx : s.sends[i]? = some x) {x' : Merging} {db : MsgDb Stored}
    (hwf : db.WellFormed) (hnext : s.messages.nextId ≤ db.nextId)
    (hid : x'.mid = x.mid ∨ x.mid = none ∧ x'.mid = some s.messages.nextId) (hx' : x'.Inv db)
    (hkeep : ∀ y ∈ s.sends.eraseIdx i, ∀ id, IsMid id → y.mid = some id → ∀ k : RecordKey,
      k.Valid → k.mid = some id → db.db.get k.bytes = s.messages.db.get k.bytes)
    (hmerged : ∀ mid v, IsI64 mid → db.getMergedMsg mid = some v → ∃ payload original content,
      (⟨db, s.sends.set i x'⟩ : MergeSystem).Original mid payload original ∧
        v = .message (.merged ⟨payload.fromUid, payload.target, content, payload.createdAt⟩)) :
    (⟨db, s.sends.set i x'⟩ : MergeSystem).Inv := by
  have hperm := Holders.filterMap_set Merging.mid hx x'
  refine ⟨hwf, ?_, fun y hy ↦ ?_, hmerged⟩
  · rcases hid with hsame | ⟨hnone, hnew⟩
    · rw [hsame, List.perm_append_left_iff] at hperm
      exact hperm.nodup_iff.2 h.ids
    · rw [hnone, hnew] at hperm
      refine hperm.nodup_iff.2 (List.nodup_cons.2 ⟨fun hin ↦ ?_, h.ids⟩)
      obtain ⟨y, hy, hymid⟩ := List.mem_filterMap.1 hin
      exact lt_irrefl _ (h.of_mid hy hymid).2.1
  · have hlt : i < s.sends.length := (List.getElem?_eq_some_iff.1 hx).1
    rcases List.mem_cons.1 ((List.set_perm_cons_eraseIdx hlt x').mem_iff.1 hy) with rfl | hrest
    · exact hx'
    · exact (h.sends y ((List.eraseIdx_sublist _ _).mem hrest)).frame hnext (hkeep y hrest)

/-- One call ends. -/
theorem Inv.erase (h : s.Inv) {db : MsgDb Stored} (hwf : db.WellFormed)
    (hnext : s.messages.nextId ≤ db.nextId)
    (hkeep : ∀ y ∈ s.sends.eraseIdx i, ∀ id, IsMid id → y.mid = some id → ∀ k : RecordKey,
      k.Valid → k.mid = some id → db.db.get k.bytes = s.messages.db.get k.bytes)
    (hmerged : ∀ mid v, IsI64 mid → db.getMergedMsg mid = some v → ∃ payload original content,
      (⟨db, s.sends.eraseIdx i⟩ : MergeSystem).Original mid payload original ∧
        v = .message (.merged ⟨payload.fromUid, payload.target, content, payload.createdAt⟩)) :
    (⟨db, s.sends.eraseIdx i⟩ : MergeSystem).Inv := by
  have hsub := List.eraseIdx_sublist s.sends i
  exact ⟨hwf, h.ids.sublist (hsub.filterMap _),
    fun y hy ↦ (h.sends y (hsub.mem hy)).frame hnext (hkeep y hy), hmerged⟩

/-! ### What a step does -/

/-- Nothing changes that can be seen. -/
structure SameView (s t : MergeSystem) : Prop where
  has : ∀ mid payload, t.Has mid payload ↔ s.Has mid payload
  pending : ∀ mid, t.Pending mid ↔ s.Pending mid
  merged : ∀ mid, IsMid mid → getMergedMessage t.messages mid = getMergedMessage s.messages mid

/-- The message is stored under an id that was unused. -/
structure Arrives (s t : MergeSystem) (id : ℤ) (payload : ChatMessagePayload) : Prop where
  unused : ∀ payload, ¬s.Has id payload
  unmerged : getMergedMessage s.messages id = none
  has : ∀ mid payload', t.Has mid payload' ↔ s.Has mid payload' ∨ mid = id ∧ payload' = payload
  pending : ∀ mid, t.Pending mid ↔ s.Pending mid ∨ mid = id
  merged : ∀ mid, IsMid mid → getMergedMessage t.messages mid = getMergedMessage s.messages mid

/-- The call that stored the message is over. -/
structure Ends (s t : MergeSystem) (id : ℤ) (payload : ChatMessagePayload) : Prop where
  self : s.Has id payload
  pending_self : s.Pending id
  has : ∀ mid payload', t.Has mid payload' ↔ s.Has mid payload'
  pending : ∀ mid, t.Pending mid ↔ s.Pending mid ∧ mid ≠ id

theorem SameView.refl (s : MergeSystem) : s.SameView s :=
  ⟨fun _ _ ↦ Iff.rfl, fun _ ↦ Iff.rfl, fun _ _ ↦ rfl⟩

/-- A call whose message is not stored yet is not pending. -/
theorem pending_set (hx : s.sends[i]? = some x) (hphase : ∀ id, x.phase ≠ .stored id) (x' : Merging)
    (db : MsgDb Stored) (mid : ℤ) : (⟨db, s.sends.set i x'⟩ : MergeSystem).Pending mid ↔
      s.Pending mid ∨ x'.phase = .stored mid := by
  have hlt : i < s.sends.length := (List.getElem?_eq_some_iff.1 hx).1
  constructor
  · rintro ⟨y, hy, hstored⟩
    rcases List.mem_or_eq_of_mem_set hy with hold | rfl
    · exact .inl ⟨y, hold, hstored⟩
    · exact .inr hstored
  · rintro (⟨y, hy, hstored⟩ | hstored)
    · rcases Holders.mem_set_of_mem hx x' hy with rfl | hin
      · exact absurd hstored (hphase mid)
      · exact ⟨y, hin, hstored⟩
    · exact ⟨x', List.mem_set hlt x', hstored⟩

theorem pending_eraseIdx (hx : s.sends[i]? = some x) (hphase : ∀ id, x.phase ≠ .stored id)
    (db : MsgDb Stored) (mid : ℤ) :
    (⟨db, s.sends.eraseIdx i⟩ : MergeSystem).Pending mid ↔ s.Pending mid := by
  constructor
  · rintro ⟨y, hy, hstored⟩
    exact ⟨y, (List.eraseIdx_sublist _ _).mem hy, hstored⟩
  · rintro ⟨y, hy, hstored⟩
    rcases Holders.mem_eraseIdx_of_mem hx hy with rfl | hin
    · exact absurd hstored (hphase mid)
    · exact ⟨y, hin, hstored⟩

/-- A call that has stored its message is the only one that does so for the id. -/
theorem Inv.pending_eraseIdx (h : s.Inv) (hx : s.sends[i]? = some ⟨p, .stored id⟩)
    (db : MsgDb Stored) (mid : ℤ) :
    (⟨db, s.sends.eraseIdx i⟩ : MergeSystem).Pending mid ↔ s.Pending mid ∧ mid ≠ id := by
  constructor
  · rintro ⟨y, hy, hstored⟩
    refine ⟨⟨y, (List.eraseIdx_sublist _ _).mem hy, hstored⟩, ?_⟩
    rintro rfl
    exact h.ne_of_mem_eraseIdx hx hy (by rw [Merging.mid, hstored]) rfl
  · rintro ⟨⟨y, hy, hstored⟩, hne⟩
    rcases Holders.mem_eraseIdx_of_mem hx hy with rfl | hin
    · exact absurd (MergePhase.stored.inj hstored).symm hne
    · exact ⟨y, hin, hstored⟩

/-- The checks hand a reaction on as it is. -/
theorem refersToI64_of_prepare {faults : SendFaults} {ctx : Context} {payload : ChatMessagePayload}
    (href : payload.detail.RefersToI64) (hp : VoceChat.prepare faults ctx payload = .ok p) :
    p.payload.detail.RefersToI64 := by
  simp only [VoceChat.prepare, resolve, bind_eq_ok, pure_eq_ok] at hp
  obtain ⟨_, -, _, -, payload', hexpires, target, -, rfl⟩ := hp
  intro reaction hreaction
  cases hdetail : payload.detail with
  | normal normal =>
    obtain ⟨user, -, rfl⟩ := (setExpiresIn_normal_eq_ok hdetail).1 hexpires
    cases hreaction
  | reaction reaction' | reply reply =>
    rw [setExpiresIn, hdetail] at hexpires
    obtain rfl := Except.ok.inj hexpires
    exact href reaction hreaction

theorem Inv.prepare (h : s.Inv) (faults : SendFaults) (ctx : Context)
    {payload : ChatMessagePayload} (href : payload.detail.RefersToI64) :
    (s.prepare faults ctx payload).Inv ∧ s.SameView (s.prepare faults ctx payload) := by
  rw [MergeSystem.prepare]
  cases hp : VoceChat.prepare faults ctx payload with
  | error e => exact ⟨h, .refl s⟩
  | ok p =>
    have hperm := Holders.filterMap_concat Merging.mid s.sends ⟨p, .prepared⟩
    refine ⟨⟨h.wellFormed, hperm.nodup_iff.2 h.ids, fun y hy ↦ ?_, h.merged⟩,
      fun _ _ ↦ Iff.rfl, fun mid ↦ ?_, fun _ _ ↦ rfl⟩
    · rcases List.mem_append.1 hy with hy | hy
      · exact h.sends y hy
      · obtain rfl := List.mem_singleton.1 hy
        exact ⟨refersToI64_of_prepare href hp, trivial⟩
    · constructor
      · rintro ⟨y, hy, hstored⟩
        rcases List.mem_append.1 hy with hy | hy
        · exact ⟨y, hy, hstored⟩
        · obtain rfl := List.mem_singleton.1 hy
          cases hstored
      · rintro ⟨y, hy, hstored⟩
        exact ⟨y, List.mem_append_left _ hy, hstored⟩

/-- Taking an id changes no record of a message. -/
theorem Inv.takeId (h : s.Inv) (i : ℕ) (fails : Bool) :
    (s.perform (.takeId i fails)).Inv ∧ s.SameView (s.perform (.takeId i fails)) := by
  rw [perform]
  cases hx : s.sends[i]? with
  | none => exact ⟨h, .refl s⟩
  | some x =>
    obtain ⟨p, phase⟩ := x
    cases phase with
    | numbered id | stored id => exact ⟨h, .refl s⟩
    | prepared =>
      rcases h.wellFormed.generateMsgId_cases fun _ ↦ fails with
        ⟨-, db, hid, hwf, hlt, hsame⟩ | ⟨-, e, he⟩
      · simp only [hid]
        have hget : ∀ k : RecordKey, ∀ m, k.mid = some m →
            db.db.get k.bytes = s.messages.db.get k.bytes :=
          fun k m hm ↦ hsame _ (k.bytes_ne_sequence hm _)
        have hmsg : ∀ mid, db.getMsg mid = s.messages.getMsg mid :=
          fun mid ↦ hget (.msg mid) mid rfl
        have hmerged : ∀ mid, db.getMergedMsg mid = s.messages.getMergedMsg mid :=
          fun mid ↦ hget (.merged mid) mid rfl
        have hhas : ∀ sends mid payload, (⟨db, sends⟩ : MergeSystem).Has mid payload ↔
            s.Has mid payload := fun sends mid payload ↦ by rw [Has, Has, hmsg]
        refine ⟨h.set hx hwf hlt.le (.inr ⟨rfl, rfl⟩) ?_ ?_ ?_, hhas _, fun mid ↦ ?_,
          fun mid _ ↦ ?_⟩
        · refine ⟨(h.sends _ (List.mem_of_getElem? hx)).1, h.wellFormed.nextId_pos, hlt, ?_⟩
          intro k hk hm
          exact (hget k _ hm).trans (h.wellFormed.keys.get_eq_none hk hm le_rfl)
        · exact fun _ _ _ _ _ k _ hm ↦ hget k _ hm
        · intro mid v hmid hv
          obtain ⟨payload, original, content, ⟨hold, hdetail⟩, rfl⟩ :=
            h.merged mid v hmid ((hmerged mid).symm.trans hv)
          exact ⟨payload, original, content, ⟨(hhas _ _ _).2 hold, hdetail⟩, rfl⟩
        · refine (pending_set hx (fun _ h ↦ by cases h) _ db mid).trans ?_
          exact or_iff_left fun h ↦ by cases h
        · exact getMergedMessage_congr (hmerged mid)
      · simp only [he]
        exact ⟨h.erase h.wellFormed le_rfl (fun _ _ _ _ _ _ _ _ ↦ rfl) h.merged,
          fun _ _ ↦ Iff.rfl, MergeSystem.pending_eraseIdx hx (fun _ h ↦ by cases h) _,
          fun _ _ ↦ rfl⟩

theorem Inv.applyBatch (h : s.Inv) (hx : s.sends[i]? = some ⟨p, .numbered id⟩) :
    (s.perform (.applyBatch i)).Inv ∧ s.Arrives (s.perform (.applyBatch i)) id p.payload := by
  obtain ⟨href, hid, hlt, hfresh⟩ := h.sends _ (List.mem_of_getElem? hx)
  have hbatch := p.batches_batch id hid
  have hnext : (s.messages.applyBatch (p.batch id)).nextId = s.messages.nextId :=
    nextId_of_get_sequence (get_insertAll_sequence hbatch)
  have hnone : ∀ payload, ¬s.Has id payload := by
    rintro payload ⟨-, hget⟩
    cases (hfresh (.msg id) hid rfl).symm.trans hget
  have hself : (s.messages.applyBatch (p.batch id)).getMsg id = some (.message (.chat p.payload)) :=
    p.get_msg_batch id _
  have hhas : ∀ sends mid payload,
      (⟨s.messages.applyBatch (p.batch id), sends⟩ : MergeSystem).Has mid payload ↔
        s.Has mid payload ∨ mid = id ∧ payload = p.payload := by
    intro sends mid payload
    by_cases heq : mid = id
    · subst heq
      rw [or_iff_right (hnone payload), Has, hself]
      simp [hid, eq_comm]
    · rw [or_iff_left fun hboth ↦ heq hboth.1, Has, Has]
      refine and_congr_right fun hmid ↦ ?_
      rw [MsgDb.getMsg, MsgDb.getMsg, MsgDb.applyBatch, p.get_msg_batch_of_ne hid hmid heq]
  simp only [perform, hx]
  refine ⟨h.set hx (h.wellFormed.insertAll hlt hbatch) hnext.ge (.inl rfl) ?_ ?_ ?_, hnone, ?_,
    hhas _, fun mid ↦ ?_, fun mid _ ↦ ?_⟩
  · exact ⟨href, hid, hnext ▸ hlt, hself,
      (getMergedMsg_applyBatch p id id).trans (hfresh (.merged id) hid rfl)⟩
  · intro y hy id' hid' hymid k hk hm
    refine get_insertAll_of_batchOf hbatch hk fun heq ↦ ?_
    obtain rfl := Option.some_inj.1 (hm.symm.trans heq)
    exact h.ne_of_mem_eraseIdx hx hy hymid rfl
  · intro mid v hmid hv
    obtain ⟨payload, original, content, ⟨hold, hdetail⟩, rfl⟩ :=
      h.merged mid v hmid ((getMergedMsg_applyBatch p id mid).symm.trans hv)
    exact ⟨payload, original, content, ⟨(hhas _ _ _).2 (.inl hold), hdetail⟩, rfl⟩
  · have hunmerged : s.messages.getMergedMsg id = none := hfresh (.merged id) hid rfl
    rw [getMergedMessage, hunmerged, Option.bind_none]
  · refine (pending_set hx (fun _ h ↦ by cases h) _ _ mid).trans (or_congr_right ?_)
    exact ⟨fun h ↦ (MergePhase.stored.inj h).symm, fun h ↦ congrArg _ h.symm⟩
  · exact getMergedMessage_congr (getMergedMsg_applyBatch p id mid)

/-- The merged message is written, and the call is over. -/
theorem Inv.storeMerged (h : s.Inv) (hx : s.sends[i]? = some ⟨p, .stored id⟩) :
    (s.perform (.storeMerged i)).Inv ∧ s.Ends (s.perform (.storeMerged i)) id p.payload := by
  obtain ⟨href, hid, hlt, hself, hunmerged⟩ := h.sends _ (List.mem_of_getElem? hx)
  obtain ⟨r, db, hdb, hsame, -⟩ :=
    storeMerged_cases h.wellFormed hid hlt (fun _ ↦ false) p.payload
  have hdb' : (VoceChat.storeMerged (fun _ ↦ false) s.messages p.payload id).2 = db := by rw [hdb]
  have hkeep : ∀ k : RecordKey, k.IsI64 →
      (∀ m, p.payload.detail.mergedId id = some m → k ≠ .merged m) →
        db.db.get k.bytes = s.messages.db.get k.bytes :=
    fun k hk hne ↦ hdb' ▸ get_storeMerged_of_ne hid.range href hk hne
  have hmsg : ∀ mid, db.getMsg mid = s.messages.getMsg mid := fun mid ↦
    hsame.get (.msg mid) fun _ h ↦ by cases h
  have hhas : ∀ sends mid payload, (⟨db, sends⟩ : MergeSystem).Has mid payload ↔
      s.Has mid payload := fun sends mid payload ↦ by rw [Has, Has, hmsg]
  simp only [perform, hx, hdb']
  refine ⟨h.erase hsame.wellFormed hsame.nextId.ge ?_ ?_, ⟨hid, hself⟩,
    ⟨_, List.mem_of_getElem? hx, rfl⟩, hhas _, h.pending_eraseIdx hx db⟩
  · intro y hy id' hid' hymid k hk hm
    by_cases hk' : k = .merged id'
    · -- The other message has no merged message, and gets none from this one.
      subst hk'
      have hnone := (h.of_mid ((List.eraseIdx_sublist _ _).mem hy) hymid).2.2
      have hne : id' ≠ id := by
        rintro rfl
        exact h.ne_of_mem_eraseIdx hx hy hymid rfl
      have hkept : (VoceChat.storeMerged (fun _ ↦ false) s.messages p.payload id).2.getMergedMsg
          id' = none := DurableDb.get_merged_storeMerged hid' hid hne hnone
      rw [hdb'] at hkept
      exact hkept.trans hnone.symm
    · refine hkeep k hk.isI64 fun m _ heq ↦ hk' ?_
      rw [heq] at hm ⊢
      exact congrArg _ (Option.some_inj.1 hm)
  · intro mid v hmid hv
    by_cases hwritten : p.payload.detail.mergedId id = some mid
    · rcases MessageDetail.mergedId_eq_some.1 hwritten with
        ⟨⟨content, horiginal⟩, rfl⟩ | ⟨content, hedit⟩
      · have hget := getMergedMsg_storeMerged_self s.messages mid horiginal
        rw [hdb', hv] at hget
        exact ⟨p.payload, content, content, ⟨(hhas _ _ _).2 ⟨hid, hself⟩, horiginal⟩,
          Option.some_inj.1 hget⟩
      · have hget := getMergedMsg_storeMerged_edit s.messages id hedit
        rw [hdb', hv] at hget
        obtain ⟨v₀, hv₀, rfl⟩ := Option.map_eq_some_iff.1 hget.symm
        obtain ⟨payload, original, _, ⟨hold, hdetail⟩, rfl⟩ := h.merged mid v₀ hmid hv₀
        exact ⟨payload, original, content, ⟨(hhas _ _ _).2 hold, hdetail⟩, rfl⟩
    · have hget : db.getMergedMsg mid = s.messages.getMergedMsg mid :=
        hkeep (.merged mid) hmid fun m hm heq ↦ hwritten (RecordKey.merged.inj heq ▸ hm)
      obtain ⟨payload, original, content, ⟨hold, hdetail⟩, rfl⟩ :=
        h.merged mid v hmid (hget.symm.trans hv)
      exact ⟨payload, original, content, ⟨(hhas _ _ _).2 hold, hdetail⟩, rfl⟩

theorem messages_storeMerged (hx : s.sends[i]? = some ⟨p, .stored id⟩) :
    (s.perform (.storeMerged i)).messages =
      (VoceChat.storeMerged (fun _ ↦ false) s.messages p.payload id).2 := by
  simp only [perform, hx]
  rfl

/-- A call that is given up after its message is stored. -/
theorem Inv.abandon (h : s.Inv) (hx : s.sends[i]? = some ⟨p, .stored id⟩) :
    (s.perform (.abandon i)).Inv ∧ s.Ends (s.perform (.abandon i)) id p.payload := by
  obtain ⟨-, hid, -, hself, -⟩ := h.sends _ (List.mem_of_getElem? hx)
  exact ⟨h.erase h.wellFormed le_rfl (fun _ _ _ _ _ _ _ _ ↦ rfl) h.merged, ⟨hid, hself⟩,
    ⟨_, List.mem_of_getElem? hx, rfl⟩, fun _ _ ↦ Iff.rfl, h.pending_eraseIdx hx _⟩

/-- A call that is given up before. -/
theorem Inv.abandon_unstored (h : s.Inv) (hphase : ∀ x id, s.sends[i]? = some x →
    x.phase ≠ .stored id) : (s.perform (.abandon i)).Inv ∧ s.SameView (s.perform (.abandon i)) := by
  refine ⟨h.erase h.wellFormed le_rfl (fun _ _ _ _ _ _ _ _ ↦ rfl) h.merged, fun _ _ ↦ Iff.rfl,
    fun mid ↦ ?_, fun _ _ ↦ rfl⟩
  cases hx : s.sends[i]? with
  | none =>
    have hlen : s.sends.length ≤ i := List.getElem?_eq_none_iff.1 hx
    rw [perform, removeSend, List.eraseIdx_of_length_le hlen]
  | some x => exact MergeSystem.pending_eraseIdx hx (fun id ↦ hphase x id hx) _ mid

/-- **A call that nothing interrupts** leaves the database that `send_message` leaves. -/
theorem messages_uninterrupted {faults : SendFaults} (hstore : faults.store = fun _ ↦ false)
    (ctx : Context) (db : MsgDb Stored) (payload : ChatMessagePayload) :
    ([.takeId 0 false, .applyBatch 0, .storeMerged 0].foldl perform
      (MergeSystem.prepare ⟨db, []⟩ faults ctx payload)).messages =
        (sendMessage faults ctx db payload).2 := by
  rw [MergeSystem.prepare]
  cases hp : VoceChat.prepare faults ctx payload with
  | error e =>
    rw [sendMessage, hp]
    rfl
  | ok p =>
    rw [sendMessage_snd hp, internalSendMessage, p.storeMessage_eq_send, hstore, MsgDb.send]
    simp only [List.foldl_cons, List.foldl_nil, List.nil_append]
    cases hid : db.generateMsgId fun _ ↦ false with
    | mk r t =>
      cases r with
      | error e =>
        simp only [perform, hid, List.getElem?_cons_zero]
        rfl
      | ok id =>
        simp only [perform, hid, List.getElem?_cons_zero, Bool.false_eq_true, if_false]
        show (VoceChat.storeMerged (fun _ ↦ false) (t.applyBatch (p.batch id)) p.payload id).2 = _
        cases VoceChat.storeMerged (fun _ ↦ false) (t.applyBatch (p.batch id)) p.payload id with
        | mk r u =>
          cases r with
          | error e => rfl
          | ok m => rfl

end MergeSystem

end VoceChat
