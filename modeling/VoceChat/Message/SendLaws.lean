import VoceChat.Message.Send
import VoceChat.Msgdb.Allocation

/-!
# What `send_message` does to the store

`sendMessage_cases` is the one statement about a call that its callers need: either the message is
stored under the next id, where nothing was before, or no message changes. Only the merged copy of
an edited message is ever written again.
-/

namespace VoceChat

open Guards Machine MsgDb

/-! ### MLS messages -/

/-- The payload carries a v2 message for the group, with valid routing properties for MLS. -/
structure ChatMessagePayload.MlsIn (payload : ChatMessagePayload) (gid : Int64)
    (route : RoutingProperties) : Prop where
  target : payload.target = .group gid
  valid : ∃ content properties, payload.detail.content = some content ∧
    content.contentType = contentType ∧ content.properties = some properties ∧
    validateProperties properties = .ok route
  mls : route.protocol = .mls

theorem enforceE2eV2TargetProtocol_of_v2 {payload : ChatMessagePayload}
    {content : ChatMessageContent} (h : payload.detail.content = some content)
    (htype : content.contentType = contentType) {target : Option Int64} :
    enforceE2eV2TargetProtocol payload = .ok target ↔ ∃ properties route,
      content.properties = some properties ∧ validateProperties properties = .ok route ∧
        checkTargetProtocol payload.target route.protocol = .ok target := by
  rw [enforceE2eV2TargetProtocol, h]
  simp only [ne_eq, htype, not_true_eq_false, if_false]
  cases content.properties with
  | none =>
    refine iff_of_false (fun h ↦ by cases h) ?_
    rintro ⟨_, _, h, _⟩
    cases h
  | some properties =>
    simp only [bind_eq_ok, mapError_eq_ok, Option.some_inj]
    constructor
    · rintro ⟨route, hvalid, hcheck⟩
      exact ⟨properties, route, rfl, hvalid, hcheck⟩
    · rintro ⟨_, route, rfl, hvalid, hcheck⟩
      exact ⟨route, hvalid, hcheck⟩

theorem checkTargetProtocol_group {gid : Int64} {protocol : Protocol} {target : Option Int64} :
    checkTargetProtocol (.group gid) protocol = .ok target ↔ protocol = .mls ∧ target = none := by
  cases protocol with
  | mls => exact ⟨fun h ↦ ⟨rfl, (Except.ok.inj h).symm⟩, fun h ↦ congrArg _ h.2.symm⟩
  | dr | drPending => exact iff_of_false (fun h ↦ by cases h) (fun h ↦ by cases h.1)

/-- An MLS message passes both protocol checks, whatever the settings are. -/
theorem ChatMessagePayload.MlsIn.enforce {payload : ChatMessagePayload} {gid : Int64}
    {route : RoutingProperties} (h : payload.MlsIn gid route) (faults : SendFaults)
    (ctx : Context) : enforceE2eV2TargetProtocol payload = .ok none ∧
      enforceE2eRequired faults ctx payload = .ok () := by
  obtain ⟨content, properties, hcontent, htype, hproperties, hvalid⟩ := h.valid
  constructor
  · rw [enforceE2eV2TargetProtocol_of_v2 hcontent htype]
    refine ⟨properties, route, hproperties, hvalid, ?_⟩
    rw [h.target]
    exact checkTargetProtocol_group.2 ⟨h.mls, rfl⟩
  · rw [enforceE2eRequired, hcontent]
    exact if_pos htype

/-! ### What passes the checks -/

/-- The group that a message is resolved to is its own, and its sender may send to it. -/
theorem resolveTarget_group_eq_ok {cache : Cache} {payload : ChatMessagePayload} {gid : Int64}
    {pendingDmTarget : Option Int64} {target : InternalSendMessageTarget}
    (h : payload.target = .group gid) :
    resolveTarget cache payload pendingDmTarget = .ok target ↔ ∃ group,
      cache.group gid = some group ∧ group.containsUser payload.fromUid ∧ target = .group gid
        (if group.ty = .isPublic then cache.users.map Prod.fst else group.members) := by
  rw [resolveTarget, h]
  cases hgroup : cache.group gid with
  | none =>
    simp only [hgroup]
    refine iff_of_false (fun h ↦ by cases h) ?_
    rintro ⟨_, h, _⟩
    cases h
  | some group =>
    simp only [hgroup, bind_eq_ok, ensure_eq_ok, exists_unit, pure_eq_ok, Option.some_inj]
    constructor
    · rintro ⟨hmember, htarget⟩
      exact ⟨group, rfl, hmember, htarget.symm⟩
    · rintro ⟨_, rfl, hmember, rfl⟩
      exact ⟨hmember, rfl⟩

theorem setExpiresIn_normal_eq_ok {cache : Cache} {payload result : ChatMessagePayload}
    {normal : MessageNormal} (h : payload.detail = .normal normal) :
    setExpiresIn cache payload = .ok result ↔ ∃ user, cache.user payload.fromUid = some user ∧
      result = { payload with detail := .normal { normal with expiresIn :=
        match payload.target with
        | .user uid => user.burnAfterReadingUser.lookup uid
        | .group gid => user.burnAfterReadingGroup.lookup gid } } := by
  rw [setExpiresIn, h]
  cases huser : cache.user payload.fromUid with
  | none =>
    exact iff_of_false (fun h ↦ by cases h) (fun ⟨_, h, _⟩ ↦ by cases h)
  | some user =>
    simp only [Except.ok.injEq, Option.some_inj, exists_eq_left']
    exact eq_comm

theorem setExpiresIn_payload_eq {cache : Cache} {payload result : ChatMessagePayload}
    (h : setExpiresIn cache payload = .ok result) :
    result.fromUid = payload.fromUid ∧ result.target = payload.target ∧
      result.detail.content = payload.detail.content := by
  cases hdetail : payload.detail with
  | normal normal =>
    obtain ⟨user, -, rfl⟩ := (setExpiresIn_normal_eq_ok hdetail).1 h
    exact ⟨rfl, rfl, rfl⟩
  | reaction reaction | reply reply =>
    rw [setExpiresIn, hdetail] at h
    obtain rfl := Except.ok.inj h
    exact ⟨rfl, rfl, congrArg _ hdetail⟩

section Prepare

variable {faults : SendFaults} {ctx : Context} {payload : ChatMessagePayload} {p : Prepared}

/-- The checks may set the `expires_in` of a message; the rest they hand on as it is. -/
theorem prepare_payload_eq (h : prepare faults ctx payload = .ok p) :
    p.payload.fromUid = payload.fromUid ∧ p.payload.target = payload.target ∧
      p.payload.detail.content = payload.detail.content := by
  simp only [prepare, resolve, bind_eq_ok, pure_eq_ok] at h
  obtain ⟨_, -, _, -, payload', hexpires, target, -, rfl⟩ := h
  exact setExpiresIn_payload_eq hexpires

/-- Only users of a group send to it. -/
theorem containsUser_of_prepare {gid : Int64} (h : prepare faults ctx payload = .ok p)
    (htarget : payload.target = .group gid) :
    ∃ group, ctx.cache.group gid = some group ∧ group.containsUser payload.fromUid := by
  simp only [prepare, resolve, bind_eq_ok, pure_eq_ok] at h
  obtain ⟨_, -, _, -, payload', hexpires, target, hresolve, -⟩ := h
  obtain ⟨huid, htarget', -⟩ := setExpiresIn_payload_eq hexpires
  obtain ⟨group, hgroup, hmember, -⟩ := (resolveTarget_group_eq_ok (htarget' ▸ htarget)).1 hresolve
  exact ⟨group, hgroup, huid ▸ hmember⟩

/-- Where the checks fail nothing is written. -/
theorem sendMessage_of_prepare_ne {db : MsgDb Stored}
    (h : ∀ p, prepare faults ctx payload ≠ .ok p) : (sendMessage faults ctx db payload).2 = db := by
  rw [sendMessage]
  cases hp : prepare faults ctx payload with
  | error e => rfl
  | ok p => exact absurd hp (h p)

/-- Whatever the call answers, the database is the one that `internal_send_message` leaves. -/
theorem sendMessage_snd (h : prepare faults ctx payload = .ok p) (db : MsgDb Stored) :
    (sendMessage faults ctx db payload).2 = (internalSendMessage faults.store db p).2 := by
  rw [sendMessage, h]
  cases hsend : internalSendMessage faults.store db p with
  | mk r t =>
    cases r with
    | error e => simp only [hsend]
    | ok result =>
      simp only [hsend]
      split <;> rfl

end Prepare

namespace Prepared

/-- The records of a message, by its id. -/
def batch (p : Prepared) (id : ℤ) : List (Bytes × Blob Stored) :=
  match p.target with
  | .group gid targets => groupBatch gid targets id (.chat p.payload)
  | .dm fromUid toUid false => dmBatch fromUid toUid none id (.chat p.payload)
  | .dm fromUid toUid true => dmBatch fromUid toUid (some p.payload.createdAt) id (.chat p.payload)

theorem storeMessage_eq_send (fails : StoreStep → Bool) (db : MsgDb Stored) (p : Prepared) :
    storeMessage fails db p = db.send fails p.batch := by
  obtain ⟨target, payload⟩ := p
  match target with
  | .group gid targets => rfl
  | .dm fromUid toUid false => rfl
  | .dm fromUid toUid true => rfl

theorem batches_batch (p : Prepared) : Batches p.batch := by
  intro id hid
  obtain ⟨target, payload⟩ := p
  match target with
  | .group gid targets => exact groupBatch_batchOf gid targets hid _
  | .dm fromUid toUid false => exact dmBatch_batchOf fromUid toUid none hid _
  | .dm fromUid toUid true => exact dmBatch_batchOf fromUid toUid _ hid _

/-- The batch has the message under its own key, under those of its targets, and under its group. -/
theorem mem_batch (p : Prepared) (id : ℤ) :
    (keyMsg id, Blob.message (.chat p.payload)) ∈ p.batch id ∧
    (∀ uid ∈ p.target.targets, (keyUserMsg uid id, .message (.chat p.payload)) ∈ p.batch id) ∧
    ∀ gid targets, p.target = .group gid targets →
      (keyGroupMsg gid id, .message (.chat p.payload)) ∈ p.batch id := by
  obtain ⟨target, payload⟩ := p
  match target with
  | .group gid targets =>
    refine ⟨List.mem_append_left _ List.mem_cons_self, fun uid huid ↦ ?_, fun _ _ h ↦ ?_⟩
    · exact List.mem_append_left _ (List.mem_cons_of_mem _ (List.mem_map.2 ⟨uid, huid, rfl⟩))
    · obtain ⟨rfl, rfl⟩ := InternalSendMessageTarget.group.inj h
      exact List.mem_append_right _ (List.mem_singleton_self _)
  | .dm fromUid toUid pending =>
    have hleft : ∀ {e}, e ∈ dmBatch fromUid toUid none id (Stored.chat payload) →
        e ∈ batch ⟨.dm fromUid toUid pending, payload⟩ id := by
      intro e he
      cases pending with
      | false => exact he
      | true =>
        rcases List.mem_append.1 he with he | he
        · exact List.mem_append_left _ he
        · cases he
    refine ⟨hleft ?_, fun uid huid ↦ hleft ?_, fun _ _ h ↦ by cases h⟩
    · simp [dmBatch]
    · have : uid = fromUid ∨ uid = toUid := by simpa [InternalSendMessageTarget.targets] using huid
      rcases this with rfl | rfl <;> simp [dmBatch]

/-- All records but the pending marker hold the message. -/
theorem batch_value {p : Prepared} {id : ℤ} {e : Bytes × Blob Stored} (he : e ∈ p.batch id) :
    e.2 = .message (.chat p.payload) ∨
      e.1 = keyPendingMessageMarker id ∧ ∃ value, e.2 = .bytes value := by
  obtain ⟨target, payload⟩ := p
  match target with
  | .group gid targets =>
    simp only [batch, groupBatch, List.mem_append, List.mem_cons, List.mem_map, List.not_mem_nil,
      or_false] at he
    rcases he with (rfl | ⟨uid, -, rfl⟩) | rfl <;> exact .inl rfl
  | .dm fromUid toUid false | .dm fromUid toUid true =>
    simp only [batch, dmBatch, List.mem_append, List.mem_cons, List.mem_map, List.not_mem_nil,
      or_false, Option.mem_toList, Option.map_eq_some_iff] at he
    rcases he with ((rfl | ⟨uid, -, rfl⟩) | rfl) | ⟨createdAt, -, rfl⟩
    · exact .inl rfl
    · exact .inl rfl
    · exact .inl rfl
    · exact .inr ⟨rfl, _, rfl⟩

/-- The batch puts the message into the index of its targets only. -/
theorem user_of_mem_batch {p : Prepared} {id : ℤ} (hid : IsMid id) {uid : Int64} {v : Blob Stored}
    (h : (keyUserMsg uid id, v) ∈ p.batch id) :
    uid ∈ p.target.targets ∧ v = .message (.chat p.payload) := by
  have hvalue : v = .message (.chat p.payload) :=
    (batch_value h).resolve_right fun hmarker ↦ bytes_ne_of_head (by decide) hmarker.1
  refine ⟨?_, hvalue⟩
  obtain ⟨target, payload⟩ := p
  match target with
  | .group gid targets =>
    simp only [batch, groupBatch, List.mem_append, List.mem_cons, List.mem_map, List.not_mem_nil,
      or_false, Prod.mk.injEq] at h
    rcases h with (⟨hkey, -⟩ | ⟨uid', huid, hkey, -⟩) | ⟨hkey, -⟩
    · exact absurd hkey (bytes_ne_of_head (by decide))
    · obtain ⟨rfl, -⟩ := keyUserMsg_inj hid hid hkey
      exact huid
    · exact absurd hkey (bytes_ne_of_head (by decide))
  | .dm fromUid toUid false | .dm fromUid toUid true =>
    simp only [batch, dmBatch, List.mem_append, List.mem_cons, List.mem_map, List.not_mem_nil,
      or_false, Option.mem_toList, Option.map_eq_some_iff, Prod.mk.injEq] at h
    rcases h with ((⟨hkey, -⟩ | ⟨uid', huid, hkey, -⟩) | ⟨hkey, -⟩) | ⟨createdAt, -, hkey, -⟩
    · exact absurd hkey (bytes_ne_of_head (by decide))
    · obtain ⟨rfl, -⟩ := keyUserMsg_inj hid hid hkey
      simpa [InternalSendMessageTarget.targets] using huid
    · exact absurd hkey (bytes_ne_of_head (by decide))
    · exact absurd hkey (bytes_ne_of_head (by decide))

theorem get_batch_of_mem {p : Prepared} {id : ℤ} {key : Bytes} (db : OrderedMap Bytes (Blob Stored))
    (hmem : (key, Blob.message (.chat p.payload)) ∈ p.batch id)
    (hkey : key ≠ keyPendingMessageMarker id) :
    (db.insertAll (p.batch id)).get key = some (.message (.chat p.payload)) :=
  OrderedMap.get_insertAll_of_mem ⟨_, hmem, rfl⟩ fun _ he heq ↦
    (batch_value he).resolve_right fun hmarker ↦ hkey (heq ▸ hmarker.1)

end Prepared

/-- The message `p` is stored under `id`, which was unused, and no other record changed but the
merged copies. -/
structure StoredAs (s t : MsgDb Stored) (id : ℤ) (p : Prepared) : Prop where
  isMid : IsMid id
  unused : ∀ k : RecordKey, k.Valid → k.mid = some id → s.db.get k.bytes = none
  msg : t.db.get (keyMsg id) = some (.message (.chat p.payload))
  user : ∀ uid ∈ p.target.targets, t.db.get (keyUserMsg uid id) = some (.message (.chat p.payload))
  group : ∀ gid targets, p.target = .group gid targets →
    t.db.get (keyGroupMsg gid id) = some (.message (.chat p.payload))
  only : ∀ k : RecordKey, k.Valid → k.mid = some id → (∀ m, k ≠ .merged m) → ∀ payload,
    t.db.get k.bytes = some (.message (.chat payload)) → payload = p.payload
  others : ∀ k : RecordKey, k.Valid → k.mid ≠ none → k.mid ≠ some id → (∀ m, k ≠ .merged m) →
    t.db.get k.bytes = s.db.get k.bytes

/-- No message changed, merged copies apart. -/
def Unchanged (s t : MsgDb Stored) : Prop :=
  ∀ k : RecordKey, k.Valid → k.mid ≠ none → (∀ m, k ≠ .merged m) →
    t.db.get k.bytes = s.db.get k.bytes

/-! ### New messages -/

/-- A message that is there after a send, and was not before, is the one that was sent. -/
theorem StoredAs.eq_of_new {s t : MsgDb Stored} {id : ℤ} {p : Prepared} (h : StoredAs s t id p)
    (ht : t.WellFormed) {key : Bytes} {payload : ChatMessagePayload}
    (hnew : s.db.get key = none) (hget : t.db.get key = some (.message (.chat payload)))
    (hmerged : ∀ m, key ≠ keyMergedMsg m) (hseq : ∀ ty, key ≠ keySequence ty) :
    payload = p.payload := by
  obtain ⟨k, hk, rfl, -⟩ := ht.keys _ _ hget
  have hkey : ∀ m, k ≠ .merged m := fun m hm ↦ hmerged m (hm ▸ rfl)
  cases hmid : k.mid with
  | none =>
    cases k with
    | sequence ty => exact absurd rfl (hseq ty)
    | _ => cases hmid
  | some m =>
    by_cases hm : m = id
    · exact h.only k hk (hm ▸ hmid) hkey payload hget
    · rw [h.others k hk (by rw [hmid]; simp) (by rw [hmid]; simpa using hm) hkey, hnew] at hget
      cases hget

/-- Where nothing changed there is no new message. -/
theorem Unchanged.get_eq_none {s t : MsgDb Stored} (h : Unchanged s t) (ht : t.WellFormed)
    {key : Bytes} (hnew : s.db.get key = none) (hmerged : ∀ m, key ≠ keyMergedMsg m)
    (hseq : ∀ ty, key ≠ keySequence ty) : t.db.get key = none := by
  rw [Option.eq_none_iff_forall_ne_some]
  intro v hget
  obtain ⟨k, hk, rfl, -⟩ := ht.keys _ _ hget
  have hkey : ∀ m, k ≠ .merged m := fun m hm ↦ hmerged m (hm ▸ rfl)
  have hmid : k.mid ≠ none := by
    cases k with
    | sequence ty => exact absurd rfl (hseq ty)
    | _ => exact Option.some_ne_none _
  rw [h k hk hmid hkey, hnew] at hget
  cases hget

section Store

variable {db s t : MsgDb Stored} {p : Prepared} {id : ℤ}

theorem unchanged_of_sameRecords (h : s.SameRecords t) : Unchanged s t := by
  intro k hk hmid _
  obtain ⟨m, hm⟩ := Option.ne_none_iff_exists'.1 hmid
  exact h _ (k.bytes_ne_sequence hm _)

/-- A merged copy is not one of the other records. -/
theorem merged_bytes_ne {k : RecordKey} (hne : ∀ m, k ≠ .merged m) (m : ℤ) :
    k.bytes ≠ keyMergedMsg m := by
  cases k with
  | merged m => exact absurd rfl (hne m)
  | _ => exact bytes_ne_of_head (by decide)

/-- Writing the batch of a new id stores the message under it. -/
theorem storedAs_applyBatch (hw : s.WellFormed) (hsame : s.SameRecords t) :
    StoredAs s (t.applyBatch (p.batch s.nextId)) s.nextId p := by
  have hid : IsMid s.nextId := hw.nextId_pos
  obtain ⟨hmsg, huser, hgroup⟩ := p.mem_batch s.nextId
  have hunused : ∀ k : RecordKey, k.Valid → k.mid = some s.nextId → s.db.get k.bytes = none :=
    fun k hk hmid ↦ hw.keys.get_eq_none hk hmid le_rfl
  refine ⟨hid, hunused, ?_, ?_, ?_, ?_, ?_⟩
  · exact Prepared.get_batch_of_mem _ hmsg (bytes_ne_of_head (by decide))
  · exact fun uid h ↦ Prepared.get_batch_of_mem _ (huser uid h) (bytes_ne_of_head (by decide))
  · exact fun gid targets h ↦
      Prepared.get_batch_of_mem _ (hgroup gid targets h) (bytes_ne_of_head (by decide))
  · intro k hk hmid hmerged payload hget
    rcases OrderedMap.mem_or_get_of_get_insertAll hget with hmem | hget
    · rcases Prepared.batch_value hmem with hvalue | ⟨-, value, hvalue⟩
      · cases hvalue
        rfl
      · cases hvalue
    · rw [unchanged_of_sameRecords hsame k hk (by rw [hmid]; simp) hmerged,
        hunused k hk hmid] at hget
      cases hget
  · intro k hk hsome hne hmerged
    rw [applyBatch, get_insertAll_of_batchOf (p.batches_batch _ hid) hk hne]
    exact unchanged_of_sameRecords hsame k hk hsome hmerged

/-! ### The merged copy -/

/-- Writing the merged copy fails. -/
def mergedFails (fails : StoreStep → Bool) : MessageDetail → Bool
  | .normal _ | .reply _ => fails .insertMerged
  | .reaction ⟨_, .edit _⟩ => fails .updateMerged
  | .reaction ⟨_, .like _⟩ | .reaction ⟨_, .delete⟩ => false

/-- Writing a merged copy touches nothing else. -/
structure SameButMerged (s t : MsgDb Stored) : Prop where
  wellFormed : t.WellFormed
  nextId : t.nextId = s.nextId
  get : ∀ k : RecordKey, (∀ m, k ≠ .merged m) → t.db.get k.bytes = s.db.get k.bytes

theorem SameButMerged.insertMergedMsg (hw : s.WellFormed) (hid : IsMid id) (hlt : id < s.nextId)
    (msg : Stored) : SameButMerged s (s.insertMergedMsg id msg) := by
  obtain ⟨hwf, hnext⟩ := hw.insert (k := .merged id) hid rfl hlt (.message msg)
  exact ⟨hwf, hnext, fun k hk ↦ OrderedMap.get_insert_of_ne _ _ (merged_bytes_ne hk id)⟩

/-- A merged copy is updated only where there is one, so its id is known to be in use. -/
theorem SameButMerged.updateMergedMsg (hw : s.WellFormed) (origin : ℤ)
    (f : Blob Stored → Blob Stored) : SameButMerged s (s.updateMergedMsg origin f) := by
  rw [MsgDb.updateMergedMsg]
  cases hget : s.db.get (keyMergedMsg origin) with
  | none => exact ⟨hw, rfl, fun _ _ ↦ rfl⟩
  | some data =>
    obtain ⟨k, hk, hkey, hlt⟩ := hw.keys _ _ hget
    obtain ⟨m, hm⟩ : ∃ m, k.mid = some m := by
      cases k with
      | sequence ty => exact absurd hkey (bytes_ne_of_head (by decide))
      | _ => exact ⟨_, rfl⟩
    obtain ⟨hwf, hnext⟩ := hw.insert hk hm (hlt m hm) (f data)
    rw [← hkey] at hwf hnext
    exact ⟨hwf, hnext, fun l hl ↦ OrderedMap.get_insert_of_ne _ _ (merged_bytes_ne hl origin)⟩

theorem storeMerged_cases (hw : s.WellFormed) (hid : IsMid id) (hlt : id < s.nextId)
    (fails : StoreStep → Bool) (payload : ChatMessagePayload) :
    ∃ r t, storeMerged fails s payload id = (r, t) ∧ SameButMerged s t ∧
      if mergedFails fails payload.detail then r = .error .internal else ∃ m, r = .ok m := by
  have hsame : SameButMerged s s := ⟨hw, rfl, fun _ _ ↦ rfl⟩
  obtain ⟨fromUid, createdAt, target, detail⟩ := payload
  match detail with
  | .normal ⟨content, expiresIn⟩ | .reply ⟨origin, content⟩ =>
    cases hfails : fails .insertMerged with
    | true =>
      refine ⟨.error .internal, s, ?_, hsame, ?_⟩
      · rw [storeMerged, hfails]; rfl
      · rw [mergedFails, hfails, if_pos rfl]
    | false =>
      refine ⟨.ok (some id), _, ?_,
        .insertMergedMsg hw hid hlt (.merged ⟨fromUid, target, content, createdAt⟩), ?_⟩
      · rw [storeMerged, hfails]; rfl
      · rw [mergedFails, hfails, if_neg Bool.false_ne_true]; exact ⟨_, rfl⟩
  | .reaction ⟨origin, .edit content⟩ =>
    cases hfails : fails .updateMerged with
    | true =>
      refine ⟨.error .internal, s, ?_, hsame, ?_⟩
      · rw [storeMerged, hfails]; rfl
      · rw [mergedFails, hfails, if_pos rfl]
    | false =>
      refine ⟨.ok (some origin), _, ?_, .updateMergedMsg hw origin (mergeEdit content), ?_⟩
      · rw [storeMerged, hfails]; rfl
      · rw [mergedFails, hfails, if_neg Bool.false_ne_true]; exact ⟨_, rfl⟩
  | .reaction ⟨origin, .like action⟩ | .reaction ⟨origin, .delete⟩ =>
    exact ⟨.ok none, s, rfl, hsame, none, rfl⟩

/-! ### A whole call -/

theorem StoredAs.of_sameButMerged {u : MsgDb Stored} (h : StoredAs s t id p)
    (hsame : SameButMerged t u) : StoredAs s u id p where
  isMid := h.isMid
  unused := h.unused
  msg := (hsame.get (.msg id) fun _ h ↦ by cases h).trans h.msg
  user uid huid := (hsame.get (.user uid id) fun _ h ↦ by cases h).trans (h.user uid huid)
  group gid targets ht :=
    (hsame.get (.group gid id) fun _ h ↦ by cases h).trans (h.group gid targets ht)
  only k hk hmid hmerged payload hget :=
    h.only k hk hmid hmerged payload (hsame.get k hmerged ▸ hget)
  others k hk hsome hne hmerged := (hsame.get k hmerged).trans (h.others k hk hsome hne hmerged)

/-- The projection of the pending marker fails. -/
def reconcileFails (faults : SendFaults) : InternalSendMessageTarget → Bool
  | .dm _ _ true => faults.reconcile
  | .dm _ _ false | .group _ _ => false

/-- **What `send_message` does**: the message is stored under the next id, even if the call then
fails on its way to an answer; or nothing is stored and the call fails. -/
theorem sendMessage_cases (hw : db.WellFormed) (faults : SendFaults) (ctx : Context)
    (payload : ChatMessagePayload) :
    (∃ p t, prepare faults ctx payload = .ok p ∧
      (db.CanAllocate faults.store ∧ faults.store .applyBatch = false) ∧
      sendMessage faults ctx db payload =
        (if mergedFails faults.store p.payload.detail || reconcileFails faults p.target then
          .error .internal else .ok db.nextId, t) ∧
      StoredAs db t db.nextId p ∧ t.WellFormed ∧ db.nextId < t.nextId) ∨
    ((∀ p, prepare faults ctx payload = .ok p →
        ¬(db.CanAllocate faults.store ∧ faults.store .applyBatch = false)) ∧
      ∃ e t, sendMessage faults ctx db payload = (.error e, t) ∧ t.WellFormed ∧
        Unchanged db t) := by
  cases hp : prepare faults ctx payload with
  | error e =>
    refine .inr ⟨fun p h ↦ ?_, e, db, ?_, hw, unchanged_of_sameRecords (.refl db)⟩
    · cases h
    · rw [sendMessage, hp]
  | ok p =>
    rcases hw.send_cases p.batches_batch faults.store with
      ⟨hcan, hbatch, t, u, hsend, rfl, hwu, hlt, hsame⟩ | ⟨hnot, e, t, hsend, hwt, hsame⟩
    · have hstored : StoredAs db (t.applyBatch (p.batch db.nextId)) db.nextId p :=
        storedAs_applyBatch hw hsame
      obtain ⟨r, v, hmerged, hv, hr⟩ :=
        storeMerged_cases hwu hstored.isMid hlt faults.store p.payload
      refine .inl ⟨p, v, rfl, ⟨hcan, hbatch⟩, ?_, hstored.of_sameButMerged hv, hv.wellFormed,
        hv.nextId ▸ hlt⟩
      rw [sendMessage, hp]
      simp only [internalSendMessage, p.storeMessage_eq_send, hsend, hmerged]
      cases hfails : mergedFails faults.store p.payload.detail with
      | true =>
        rw [hfails, if_pos rfl] at hr
        subst hr
        rfl
      | false =>
        rw [hfails, if_neg Bool.false_ne_true] at hr
        obtain ⟨m, rfl⟩ := hr
        obtain ⟨target, payload⟩ := p
        match target, hrec : faults.reconcile with
        | .group _ _, _ | .dm _ _ false, _ => simp [reconcileFails]
        | .dm _ _ true, true | .dm _ _ true, false => simp [reconcileFails, hrec]
    · refine .inr ⟨fun p' h ↦ ?_, .internal, t, ?_, hwt, unchanged_of_sameRecords hsame⟩
      · exact hnot
      · rw [sendMessage, hp]
        simp only [internalSendMessage, p.storeMessage_eq_send, hsend]

end Store

end VoceChat
