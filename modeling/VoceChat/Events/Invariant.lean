import VoceChat.Events.System
import VoceChat.Foundations.Holders

/-!
# What holds of senders and sessions at any time

The invariant `EventSystem.Inv` has a part for the store and the ids under way, a part for the
locks, and a part for each live session (`Settled`): its ids are all different, they are ids of
messages whose broadcast is over, and the start-id filter of the session is below everything that
is still to come — so it never drops a message.

That a live session has *all* messages above its `after_mid` (`Complete`) needs a backlog within the
limit, and is proved where it is used.
-/

namespace VoceChat

open MsgDb
open scoped List

/-- The ids that were taken and not broadcast. -/
def underway (senders : List Sending) : List ℤ := senders.filterMap Sending.mid

/-- The message is in the database and its sender has yet to broadcast it to the user. -/
def Sending.Awaits (x : Sending) (uid : Int64) (mid : ℤ) : Prop :=
  (x.phase = .stored mid ∨ x.phase = .merged mid) ∧ uid ∈ x.prepared.target.targets

/-- The database has the message in the user's index. -/
def HasMessage (db : MsgDb Stored) (uid : Int64) (mid : ℤ) : Prop :=
  (db.db.get (keyUserMsg uid mid)).isSome

/-- This message is in the user's index. -/
def HasPayload (db : MsgDb Stored) (uid : Int64) (msg : ChatMessage) : Prop :=
  db.db.get (keyUserMsg uid msg.mid) = some (.message (.chat msg.payload))

/-- One message is stored under an id. -/
theorem HasPayload.eq_of_mid {db : MsgDb Stored} {uid : Int64} {msg msg' : ChatMessage}
    (h : HasPayload db uid msg) (h' : HasPayload db uid msg') (heq : msg.mid = msg'.mid) :
    msg = msg' := by
  obtain ⟨mid, payload⟩ := msg
  obtain rfl : mid = msg'.mid := heq
  rw [HasPayload, h'] at h
  obtain rfl : msg'.payload = payload := by simpa using h
  rfl

/-- An id that was taken is below the next one. Before its batch is written no user has a message of
that id; afterwards its targets have this one. -/
def Sending.Inv (db : MsgDb Stored) (x : Sending) : Prop :=
  match x.phase with
  | .locked | .broadcast => True
  | .numbered mid => IsMid mid ∧ mid < db.nextId ∧ ∀ uid, ¬HasMessage db uid mid
  | .stored mid | .merged mid => IsMid mid ∧ mid < db.nextId ∧
      ∀ uid ∈ x.prepared.target.targets, HasPayload db uid ⟨mid, x.prepared.payload⟩

namespace EventSession

def ValidAfter (x : EventSession) : Prop := ∀ a ∈ x.afterMid, 0 ≤ a ∧ a < maxMid

/-- The messages in the queue that are for the session's user. -/
def pending (x : EventSession) : List ChatMessage :=
  (x.queue.filter fun event ↦ event.targets.contains x.uid).map ChatEvent.message

/-- What the session has been sent, or will be. -/
def inbox (x : EventSession) : List ChatMessage := x.tx ++ x.pending

def mids (x : EventSession) : List ℤ := x.inbox.map ChatMessage.mid

/-- What is true of a live session. -/
structure Settled (db : MsgDb Stored) (senders : List Sending) (x : EventSession) : Prop where
  nodup : x.mids.Nodup
  content : ∀ msg ∈ x.inbox, IsMid msg.mid ∧ HasPayload db x.uid msg
  known : ∀ mid ∈ x.mids, mid < db.nextId ∧ mid ∉ underway senders
  start : ∀ id ∈ x.pushStartId, id < db.nextId ∧ (∀ mid ∈ underway senders, id < mid) ∧
    ∀ event ∈ x.queue, id < event.message.mid

/-- Every message of the user above `after_mid` is with the session, or its broadcast is to come. -/
def Complete (db : MsgDb Stored) (senders : List Sending) (x : EventSession) : Prop :=
  ∀ mid, IsMid mid → (∀ a ∈ x.afterMid, a < mid) → HasMessage db x.uid mid →
    mid ∈ x.mids ∨ ∃ y ∈ senders, y.Awaits x.uid mid

end EventSession

namespace EventSystem

structure Inv (s : EventSystem) : Prop where
  wellFormed : s.messages.WellFormed
  chat : ∀ uid mid v, IsMid mid → s.messages.db.get (keyUserMsg uid mid) = some v →
    ∃ payload, v = .message (.chat payload)
  ids : (underway s.senders).Nodup
  senders : ∀ x ∈ s.senders, x.Inv s.messages
  writing : ∀ x ∈ s.sessions, x.writes → s.senders = [] ∧ x.queue = [] ∧ x.tx = []
  live : ∀ x ∈ s.sessions, x.phase = .live → x.ValidAfter → x.Settled s.messages s.senders

theorem inv_init (cache : Cache) : (init cache).Inv where
  wellFormed := wellFormed_created
  chat uid mid v hmid hget := by
    have hnone : (created : MsgDb Stored).db.get (keyUserMsg uid mid) = none :=
      OrderedMap.get_insert_of_ne _ _ (bytes_ne_of_head (by decide))
    rw [show (init cache).messages.db.get (keyUserMsg uid mid) = none from hnone] at hget
    cases hget
  ids := List.nodup_nil
  senders _ h := nomatch h
  writing _ h := nomatch h
  live _ h := nomatch h

end EventSystem

/-! ### The steps of a sender, seen from a session -/

/-- Messages stay in the index. -/
def Keeps (db db' : MsgDb Stored) : Prop :=
  ∀ uid mid v, IsMid mid → db.db.get (keyUserMsg uid mid) = some v →
    db'.db.get (keyUserMsg uid mid) = some v

section Frame

variable {db db' : MsgDb Stored} {senders senders' : List Sending} {x : EventSession}

/-- A session does not mind ids that are new. -/
theorem EventSession.Settled.frame (h : x.Settled db senders) (hnext : db.nextId ≤ db'.nextId)
    (hkeeps : Keeps db db')
    (hunderway : ∀ mid ∈ underway senders', mid ∈ underway senders ∨ db.nextId ≤ mid) :
    x.Settled db' senders' where
  nodup := h.nodup
  content msg hmsg := by
    obtain ⟨hmid, hget⟩ := h.content msg hmsg
    exact ⟨hmid, hkeeps _ _ _ hmid hget⟩
  known mid hmid := by
    obtain ⟨hlt, hnot⟩ := h.known mid hmid
    refine ⟨lt_of_lt_of_le hlt hnext, fun hmem ↦ ?_⟩
    rcases hunderway mid hmem with hmem | hle
    · exact hnot hmem
    · omega
  start id hid := by
    obtain ⟨hlt, hbelow, hqueue⟩ := h.start id hid
    refine ⟨lt_of_lt_of_le hlt hnext, fun mid hmem ↦ ?_, hqueue⟩
    rcases hunderway mid hmem with hmem | hle
    · exact hbelow mid hmem
    · omega

/-- A message that becomes visible is one whose broadcast is to come. -/
theorem EventSession.Complete.frame (h : x.Complete db senders)
    (hhas : ∀ mid, IsMid mid → HasMessage db' x.uid mid →
      HasMessage db x.uid mid ∨ ∃ y ∈ senders', y.Awaits x.uid mid)
    (hawaits : ∀ mid y, y ∈ senders → y.Awaits x.uid mid → ∃ y ∈ senders', y.Awaits x.uid mid) :
    x.Complete db' senders' := by
  intro mid hmid hafter hget
  rcases hhas mid hmid hget with hold | hawait
  · rcases h mid hmid hafter hold with hmem | ⟨y, hy, hawait⟩
    · exact .inl hmem
    · exact .inr (hawaits mid y hy hawait)
  · exact .inr hawait

end Frame

/-! ### The steps of a sender -/

theorem Sending.Inv.frame {db db' : MsgDb Stored} {x : Sending} (h : x.Inv db)
    (hnext : db.nextId ≤ db'.nextId) (hkeeps : Keeps db db') (hhas : ∀ mid, x.mid = some mid →
      ∀ uid, HasMessage db' uid mid → HasMessage db uid mid) : x.Inv db' := by
  obtain ⟨prepared, phase⟩ := x
  cases phase with
  | locked | broadcast => trivial
  | numbered mid =>
    obtain ⟨hmid, hlt, hnone⟩ := h
    exact ⟨hmid, lt_of_lt_of_le hlt hnext, fun uid hget ↦ hnone uid (hhas mid rfl uid hget)⟩
  | stored mid | merged mid =>
    obtain ⟨hmid, hlt, hpayload⟩ := h
    exact ⟨hmid, lt_of_lt_of_le hlt hnext, fun uid huid ↦ hkeeps _ _ _ hmid (hpayload uid huid)⟩

namespace EventSystem

variable {s t : EventSystem} {i : ℕ} {x : Sending}

/-- What a step of a sender does, broadcasts apart: new ids are above all that were taken, and a
message that becomes visible waits for its broadcast. -/
structure Advances (s t : EventSystem) : Prop where
  sessions : t.sessions = s.sessions
  unwritten : ∀ y ∈ s.sessions, y.writes = false
  wellFormed : t.messages.WellFormed
  chat : ∀ uid mid v, IsMid mid → t.messages.db.get (keyUserMsg uid mid) = some v →
    ∃ payload, v = .message (.chat payload)
  ids : (underway t.senders).Nodup
  senders : ∀ y ∈ t.senders, y.Inv t.messages
  nextId : s.messages.nextId ≤ t.messages.nextId
  keeps : Keeps s.messages t.messages
  underway : ∀ mid ∈ underway t.senders, mid ∈ underway s.senders ∨ s.messages.nextId ≤ mid
  has : ∀ uid mid, IsMid mid → HasMessage t.messages uid mid →
    HasMessage s.messages uid mid ∨ ∃ y ∈ t.senders, y.Awaits uid mid
  awaits : ∀ uid mid y, y ∈ s.senders → y.Awaits uid mid → ∃ y ∈ t.senders, y.Awaits uid mid

theorem Advances.inv (h : s.Inv) (hstep : s.Advances t) : t.Inv where
  wellFormed := hstep.wellFormed
  chat := hstep.chat
  ids := hstep.ids
  senders := hstep.senders
  writing y hy hwrites := by
    rw [hstep.sessions] at hy
    rw [hstep.unwritten y hy] at hwrites
    cases hwrites
  live y hy hlive hafter := by
    rw [hstep.sessions] at hy
    exact (h.live y hy hlive hafter).frame hstep.nextId hstep.keeps hstep.underway

/-- While a send is going on, nobody holds the write lock. -/
theorem Inv.not_writes (h : s.Inv) (hx : s.senders[i]? = some x) :
    ∀ y ∈ s.sessions, y.writes = false := by
  intro y hy
  by_contra hwrites
  have hnil := (h.writing y hy (by simpa using hwrites)).1
  rw [hnil] at hx
  cases hx

theorem unwritten_iff : s.unwritten = true ↔ ∀ y ∈ s.sessions, y.writes = false := by
  rw [unwritten, List.all_eq_true]
  exact forall₂_congr fun y _ ↦ by rw [Bool.not_eq_true']

theorem Inv.lockRead {payload : ChatMessagePayload} {pendingDmTarget : Option Int64} (h : s.Inv)
    (hstep : s.step (.lockRead payload pendingDmTarget) = some t) : s.Advances t := by
  rw [step] at hstep
  split at hstep
  · rename_i hunwritten
    have hself : s.Advances s := ⟨rfl, unwritten_iff.1 hunwritten, h.wellFormed, h.chat, h.ids,
      h.senders, le_rfl, fun _ _ _ _ hget ↦ hget, fun mid hmid ↦ .inl hmid,
      fun uid mid _ hget ↦ .inl hget, fun uid mid y hy hawait ↦ ⟨y, hy, hawait⟩⟩
    split at hstep
    · obtain rfl := Option.some_inj.1 hstep
      exact hself
    · rename_i prepared hresolve
      obtain rfl := Option.some_inj.1 hstep
      have hperm := Holders.filterMap_concat Sending.mid s.senders ⟨prepared, .locked⟩
      refine { hself with
        ids := hperm.nodup_iff.2 h.ids
        senders := fun y hy ↦ ?_
        underway := fun mid hmid ↦ .inl (hperm.mem_iff.1 hmid)
        has := fun uid mid _ hget ↦ .inl hget
        awaits := fun uid mid y hy hawait ↦ ⟨y, List.mem_append_left _ hy, hawait⟩ }
      rcases List.mem_append.1 hy with hy | hy
      · exact h.senders y hy
      · obtain rfl := List.mem_singleton.1 hy
        trivial
  · cases hstep

/-- An id that was taken is one below the next. -/
theorem Inv.of_mid (h : s.Inv) (hx : x ∈ s.senders) {mid : ℤ} (hmid : x.mid = some mid) :
    IsMid mid ∧ mid < s.messages.nextId := by
  have hinv := h.senders x hx
  obtain ⟨prepared, phase⟩ := x
  cases phase with
  | locked | broadcast => cases hmid
  | numbered mid' =>
    obtain rfl := Option.some_inj.1 hmid
    exact ⟨hinv.1, hinv.2.1⟩
  | stored mid' | merged mid' =>
    obtain rfl := Option.some_inj.1 hmid
    exact ⟨hinv.1, hinv.2.1⟩

theorem Inv.lt_of_mem_underway (h : s.Inv) {mid : ℤ} (hmid : mid ∈ VoceChat.underway s.senders) :
    mid < s.messages.nextId := by
  obtain ⟨y, hy, hmid⟩ := List.mem_filterMap.1 hmid
  exact (h.of_mid hy hmid).2

/-- One sender goes on. Its id stays, or is the next one; only messages of its own id may become
visible, to those it will broadcast to. -/
theorem Inv.advances_set (h : s.Inv) (hx : s.senders[i]? = some x) {x' : Sending}
    {db : MsgDb Stored} (hwf : db.WellFormed)
    (hchat : ∀ uid mid v, IsMid mid → db.db.get (keyUserMsg uid mid) = some v →
      ∃ payload, v = .message (.chat payload))
    (hnext : s.messages.nextId ≤ db.nextId) (hkeeps : Keeps s.messages db)
    (hmid : x'.mid = x.mid ∨ x.mid = none ∧ x'.mid = some s.messages.nextId) (hx' : x'.Inv db)
    (hhas : ∀ uid mid, IsMid mid → HasMessage db uid mid →
      HasMessage s.messages uid mid ∨ x'.mid = some mid ∧ x'.Awaits uid mid)
    (hawaits : ∀ uid mid, x.Awaits uid mid → x'.Awaits uid mid) :
    s.Advances { s with messages := db, senders := s.senders.set i x' } := by
  have hperm := Holders.filterMap_set Sending.mid hx x'
  have hmem : x' ∈ s.senders.set i x' :=
    List.mem_set (List.getElem?_eq_some_iff.1 hx).1 x'
  have hunderway : ∀ mid ∈ underway (s.senders.set i x'),
      mid ∈ underway s.senders ∨ s.messages.nextId ≤ mid := by
    intro mid hin
    obtain ⟨y, hy, hymid⟩ := List.mem_filterMap.1 hin
    rcases List.mem_or_eq_of_mem_set hy with hold | rfl
    · exact .inl (List.mem_filterMap.2 ⟨y, hold, hymid⟩)
    · rcases hmid with hsame | ⟨-, hnew⟩
      · exact .inl (List.mem_filterMap.2 ⟨x, List.mem_of_getElem? hx, hsame ▸ hymid⟩)
      · exact .inr (Option.some_inj.1 (hnew.symm.trans hymid)).le
  have hids : (underway (s.senders.set i x')).Nodup := by
    rcases hmid with hsame | ⟨hnone, hnew⟩
    · rw [hsame, List.perm_append_left_iff] at hperm
      exact hperm.nodup_iff.2 h.ids
    · rw [hnone, hnew] at hperm
      refine hperm.nodup_iff.2 (List.nodup_cons.2 ⟨fun hin ↦ ?_, h.ids⟩)
      exact lt_irrefl _ (h.lt_of_mem_underway hin)
  refine ⟨rfl, h.not_writes hx, hwf, hchat, hids, fun y hy ↦ ?_, hnext, hkeeps, hunderway,
    fun uid mid hid hget ↦ ?_, fun uid mid y hy hawait ↦ ?_⟩
  · by_cases heq : y = x'
    · exact heq ▸ hx'
    · have hold : y ∈ s.senders := (List.mem_or_eq_of_mem_set hy).resolve_right heq
      refine (h.senders y hold).frame hnext hkeeps fun mid hymid uid hget ↦ ?_
      -- The id is its own, so it is not the one that became visible.
      refine (hhas uid mid (h.of_mid hold hymid).1 hget).resolve_right fun hnew ↦ heq ?_
      exact Holders.eq_of_nodup hids hy hmem hymid hnew.1
  · exact (hhas uid mid hid hget).imp_right fun hnew ↦ ⟨x', hmem, hnew.2⟩
  · rcases Holders.mem_set_of_mem hx x' hy with rfl | hin
    · exact ⟨x', hmem, hawaits uid mid hawait⟩
    · exact ⟨y, hin, hawait⟩

theorem Inv.takeId (h : s.Inv) (hstep : s.step (.takeId i) = some t) : s.Advances t := by
  obtain ⟨x, hx, hstep⟩ := Option.bind_eq_some_iff.1 hstep
  rcases h.wellFormed.generateMsgId_cases fun _ ↦ false with
    ⟨-, db, hid, hwf, hlt, hsame⟩ | ⟨-, e, he⟩
  · rw [hid] at hstep
    split at hstep
    · rename_i mid messages hphase heq
      obtain ⟨hmid, rfl⟩ : s.messages.nextId = mid ∧ db = messages := by simpa using heq
      subst hmid
      obtain rfl := Option.some_inj.1 hstep
      have hget : ∀ uid mid, db.db.get (keyUserMsg uid mid) =
          s.messages.db.get (keyUserMsg uid mid) := fun uid mid ↦
        hsame _ (bytes_ne_of_head (by decide))
      have hsome : ∀ uid mid, HasMessage db uid mid ↔ HasMessage s.messages uid mid :=
        fun uid mid ↦ by rw [HasMessage, HasMessage, hget]
      refine h.advances_set hx hwf (fun uid mid v hm hv ↦ h.chat uid mid v hm (hget uid mid ▸ hv))
        hlt.le (fun uid mid v _ hv ↦ (hget uid mid).trans hv) (.inr ⟨?_, rfl⟩)
          ⟨h.wellFormed.nextId_pos, hlt, fun uid hhas ↦ ?_⟩
        (fun uid mid _ hhas ↦ .inl ((hsome uid mid).1 hhas)) fun uid mid hawait ↦ ?_
      · rw [Sending.mid, hphase]
      · have hnone := h.wellFormed.keys.get_eq_none (k := .user uid s.messages.nextId)
          h.wellFormed.nextId_pos rfl le_rfl
        rw [hsome, HasMessage, show s.messages.db.get (keyUserMsg uid s.messages.nextId) = none from
          hnone] at hhas
        cases hhas
      · rcases hawait.1 with hother | hother <;> rw [hphase] at hother <;> cases hother
    · cases hstep
  · rw [he] at hstep
    split at hstep
    · rename_i heq
      cases heq
    · cases hstep

theorem Inv.applyBatch (h : s.Inv) (hstep : s.step (.applyBatch i) = some t) : s.Advances t := by
  obtain ⟨x, hx, hstep⟩ := Option.bind_eq_some_iff.1 hstep
  split at hstep
  · rename_i mid hphase
    obtain rfl := Option.some_inj.1 hstep
    have hmem := List.mem_of_getElem? hx
    have hxmid : x.mid = some mid := by rw [Sending.mid, hphase]
    have hinv := h.senders x hmem
    rw [Sending.Inv, hphase] at hinv
    obtain ⟨hmid, hlt, hnone⟩ := hinv
    have hbatch := x.prepared.batches_batch mid hmid
    have hnext : (s.messages.applyBatch (x.prepared.batch mid)).nextId = s.messages.nextId :=
      nextId_of_get_sequence (get_insertAll_sequence hbatch)
    have hother : ∀ uid m, IsMid m → m ≠ mid →
        (s.messages.applyBatch (x.prepared.batch mid)).db.get (keyUserMsg uid m) =
          s.messages.db.get (keyUserMsg uid m) := fun uid m hm heq ↦
      get_insertAll_of_batchOf (k := .user uid m) hbatch hm fun hsome ↦
        heq (Option.some_inj.1 hsome)
    -- A record of the index is new only if it is in the batch.
    have hcases : ∀ uid m v, IsMid m →
        (s.messages.applyBatch (x.prepared.batch mid)).db.get (keyUserMsg uid m) = some v →
        s.messages.db.get (keyUserMsg uid m) = some v ∨
          m = mid ∧ uid ∈ x.prepared.target.targets ∧ v = .message (.chat x.prepared.payload) := by
      intro uid m v hm hget
      by_cases heq : m = mid
      · subst heq
        rcases OrderedMap.mem_or_get_of_get_insertAll hget with hin | hold
        · exact .inr ⟨rfl, Prepared.user_of_mem_batch hm hin⟩
        · exact .inl hold
      · exact .inl ((hother uid m hm heq).symm.trans hget)
    have hkeeps : Keeps s.messages (s.messages.applyBatch (x.prepared.batch mid)) := by
      intro uid m v hm hget
      by_cases heq : m = mid
      · exact absurd (heq ▸ Option.isSome_iff_exists.2 ⟨v, hget⟩) (hnone uid)
      · exact (hother uid m hm heq).trans hget
    have hpayload : ∀ uid ∈ x.prepared.target.targets,
        HasPayload (s.messages.applyBatch (x.prepared.batch mid)) uid ⟨mid, x.prepared.payload⟩ :=
      fun uid huid ↦ Prepared.get_batch_of_mem _ ((x.prepared.mem_batch mid).2.1 uid huid)
        (bytes_ne_of_head (by decide))
    refine h.advances_set hx (h.wellFormed.insertAll hlt hbatch) (fun uid m v hm hget ↦ ?_) hnext.ge
      hkeeps (.inl hxmid.symm) ⟨hmid, hnext ▸ hlt, hpayload⟩ (fun uid m hm hhas ↦ ?_)
      fun uid m hawait ↦ ?_
    · rcases hcases uid m v hm hget with hold | ⟨-, -, rfl⟩
      · exact h.chat uid m v hm hold
      · exact ⟨_, rfl⟩
    · obtain ⟨v, hget⟩ := Option.isSome_iff_exists.1 hhas
      rcases hcases uid m v hm hget with hold | ⟨rfl, huid, -⟩
      · exact .inl (Option.isSome_iff_exists.2 ⟨v, hold⟩)
      · exact .inr ⟨rfl, .inl rfl, huid⟩
    · rcases hawait.1 with hother | hother <;> rw [hphase] at hother <;> cases hother
  · cases hstep

theorem Inv.storeMerged (h : s.Inv) (hstep : s.step (.storeMerged i) = some t) :
    s.Advances t := by
  obtain ⟨x, hx, hstep⟩ := Option.bind_eq_some_iff.1 hstep
  split at hstep
  · rename_i mid hphase
    obtain rfl := Option.some_inj.1 hstep
    have hmem := List.mem_of_getElem? hx
    have hxmid : x.mid = some mid := by rw [Sending.mid, hphase]
    obtain ⟨hmid, hlt⟩ := h.of_mid hmem hxmid
    have hinv := h.senders x hmem
    rw [Sending.Inv, hphase] at hinv
    obtain ⟨r, db, hdb, hsame, -⟩ :=
      storeMerged_cases h.wellFormed hmid hlt (fun _ ↦ false) x.prepared.payload
    rw [hdb]
    have hget : ∀ uid m, db.db.get (keyUserMsg uid m) = s.messages.db.get (keyUserMsg uid m) :=
      fun uid m ↦ hsame.get (.user uid m) fun _ heq ↦ by cases heq
    refine h.advances_set hx hsame.wellFormed
      (fun uid m v hm hv ↦ h.chat uid m v hm (hget uid m ▸ hv))
      hsame.nextId.ge (fun uid m v _ hv ↦ (hget uid m).trans hv) (.inl hxmid.symm)
      ⟨hmid, hsame.nextId ▸ hlt, fun uid huid ↦ (hget uid mid).trans (hinv.2.2 uid huid)⟩
      (fun uid m hm hhas ↦ .inl ?_) fun uid m hawait ↦ ?_
    · rwa [HasMessage, hget] at hhas
    · refine ⟨.inr ?_, hawait.2⟩
      rcases hawait.1 with heq | heq <;> rw [hphase] at heq <;> cases heq
      rfl
  · cases hstep

theorem Inv.unlockRead (h : s.Inv) (hstep : s.step (.unlockRead i) = some t) : s.Advances t := by
  obtain ⟨x, hx, hstep⟩ := Option.bind_eq_some_iff.1 hstep
  split at hstep
  · rename_i hphase
    obtain rfl := Option.some_inj.1 hstep
    have hnone : x.mid = none := by rw [Sending.mid, hphase]
    have hperm := Holders.filterMap_eraseIdx Sending.mid hx
    rw [hnone] at hperm
    refine ⟨rfl, h.not_writes hx, h.wellFormed, h.chat, hperm.nodup_iff.2 h.ids, fun y hy ↦ ?_,
      le_rfl, fun _ _ _ _ hget ↦ hget, fun mid hmid ↦ .inl (hperm.mem_iff.1 hmid),
      fun uid mid _ hget ↦ .inl hget, fun uid mid y hy hawait ↦ ?_⟩
    · exact h.senders y ((List.eraseIdx_sublist _ _).mem hy)
    · refine ⟨y, (Holders.mem_eraseIdx_of_mem hx hy).resolve_left fun heq ↦ ?_, hawait⟩
      rcases hawait.1 with hother | hother <;> rw [heq, hphase] at hother <;> cases hother
  · cases hstep

/-! ### A broadcast -/

/-- The message leaves its sender, whose id is free from then on. -/
theorem broadcast_cases (hstep : s.step (.broadcast i) = some t) :
    ∃ x mid, s.senders[i]? = some x ∧ x.phase = .merged mid ∧
      t = { s with
        senders := s.senders.set i { x with phase := .broadcast }
        sessions := s.sessions.map
          (EventSession.push ⟨x.prepared.target.targets, ⟨mid, x.prepared.payload⟩⟩) } ∧
      underway s.senders ~ mid :: underway t.senders := by
  obtain ⟨x, hx, hstep⟩ := Option.bind_eq_some_iff.1 hstep
  split at hstep
  · rename_i mid hphase
    obtain rfl := Option.some_inj.1 hstep
    refine ⟨x, mid, hx, hphase, rfl, ?_⟩
    have hperm := Holders.filterMap_set Sending.mid hx ⟨x.prepared, .broadcast⟩
    rw [show x.mid = some mid by rw [Sending.mid, hphase]] at hperm
    exact hperm.symm
  · cases hstep

end EventSystem

namespace EventSession

variable {x : EventSession} {event : ChatEvent}

theorem push_of_live (h : x.phase = .live) :
    x.push event = { x with queue := x.queue ++ [event] } := by
  rw [push, h]

@[simp] theorem phase_push (event : ChatEvent) (x : EventSession) :
    (x.push event).phase = x.phase := by
  rw [push]
  split <;> rfl

@[simp] theorem uid_push (event : ChatEvent) (x : EventSession) : (x.push event).uid = x.uid := by
  rw [push]
  split <;> rfl

@[simp] theorem afterMid_push (event : ChatEvent) (x : EventSession) :
    (x.push event).afterMid = x.afterMid := by
  rw [push]
  split <;> rfl

theorem not_writes_of_live (h : x.phase = .live) : x.writes = false := by
  rw [writes, h]
  rfl

/-- Receiving changes the stream and the start id only. -/
theorem recv_fields (x : EventSession) (event : ChatEvent) : (x.recv event).uid = x.uid ∧
    (x.recv event).afterMid = x.afterMid ∧ (x.recv event).phase = x.phase := by
  rw [recv]
  split
  · exact ⟨rfl, rfl, rfl⟩
  · split
    · split <;> exact ⟨rfl, rfl, rfl⟩
    · exact ⟨rfl, rfl, rfl⟩

theorem inbox_push (h : x.phase = .live) : (x.push event).inbox =
    x.inbox ++ if event.targets.contains x.uid then [event.message] else [] := by
  rw [push_of_live h, inbox, inbox, pending, pending]
  simp only [List.filter_append, List.map_append, List.append_assoc, List.append_cancel_left_eq]
  split
  · rename_i hmem
    rw [List.filter_singleton, hmem]
    rfl
  · rename_i hmem
    rw [List.filter_singleton, Bool.eq_false_of_not_eq_true hmem]
    rfl

/-- A message that was under way joins the session's queue. -/
theorem Settled.push {db : MsgDb Stored} {senders senders' : List Sending}
    (h : x.Settled db senders) (hlive : x.phase = .live) (hids : (underway senders).Nodup)
    (hlt : event.message.mid < db.nextId)
    (hcontent : x.uid ∈ event.targets → IsMid event.message.mid ∧ HasPayload db x.uid event.message)
    (hperm : underway senders ~ event.message.mid :: underway senders') :
    (x.push event).Settled db senders' := by
  have hold : ∀ {m}, m ∈ underway senders' → m ∈ underway senders := fun hm ↦
    hperm.mem_iff.2 (List.mem_cons_of_mem _ hm)
  have hmem : event.message.mid ∈ underway senders := hperm.mem_iff.2 List.mem_cons_self
  have hfree : event.message.mid ∉ underway senders' :=
    (List.nodup_cons.1 (hperm.nodup_iff.1 hids)).1
  have hcases : ∀ msg ∈ (x.push event).inbox, msg ∈ x.inbox ∨
      x.uid ∈ event.targets ∧ msg = event.message := by
    intro msg hmsg
    rw [inbox_push hlive] at hmsg
    refine (List.mem_append.1 hmsg).imp_right fun hmsg ↦ ?_
    split at hmsg
    · rename_i htarget
      exact ⟨List.contains_iff_mem.1 htarget, List.mem_singleton.1 hmsg⟩
    · cases hmsg
  refine ⟨?_, fun msg hmsg ↦ ?_, fun m hm ↦ ?_, fun id hid ↦ ?_⟩
  · rw [mids, inbox_push hlive, List.map_append, List.nodup_append]
    refine ⟨h.nodup, ?_, fun m hm m' hm' heq ↦ ?_⟩
    · split
      · exact List.pairwise_singleton _ _
      · exact List.nodup_nil
    · have hnew : m' = event.message.mid := by
        split at hm'
        · exact List.mem_singleton.1 hm'
        · cases hm'
      exact (h.known m hm).2 (heq ▸ hnew ▸ hmem)
  · rw [uid_push]
    rcases hcases msg hmsg with hmsg | ⟨htarget, rfl⟩
    · exact h.content msg hmsg
    · exact hcontent htarget
  · obtain ⟨msg, hmsg, rfl⟩ := List.mem_map.1 hm
    rcases hcases msg hmsg with hmsg | ⟨-, rfl⟩
    · obtain ⟨hlt', hnot⟩ := h.known msg.mid (List.mem_map_of_mem hmsg)
      exact ⟨hlt', fun hin ↦ hnot (hold hin)⟩
    · exact ⟨hlt, hfree⟩
  · rw [push_of_live hlive] at hid ⊢
    obtain ⟨hlt', hbelow, hqueue⟩ := h.start id hid
    refine ⟨hlt', fun m hm ↦ hbelow m (hold hm), fun e he ↦ ?_⟩
    rcases List.mem_append.1 he with he | he
    · exact hqueue e he
    · obtain rfl := List.mem_singleton.1 he
      exact hbelow _ hmem

/-- The filter of the loop lets everything pass: what is received moves from the queue to the
stream. -/
theorem Settled.recv {db : MsgDb Stored} {senders : List Sending} {queue : List ChatEvent}
    (h : x.Settled db senders) (hqueue : x.queue = event :: queue) :
    (EventSession.recv { x with queue } event).inbox = x.inbox ∧
      (EventSession.recv { x with queue } event).Settled db senders := by
  have hpending : x.pending = if event.targets.contains x.uid then
      event.message :: pending { x with queue } else pending { x with queue } := by
    rw [pending, pending, hqueue, List.filter_cons]
    split <;> rfl
  have hrest : ∀ e ∈ queue, e ∈ x.queue := fun e he ↦ hqueue ▸ List.mem_cons_of_mem event he
  -- Whatever happens to the start id, the messages stay the same.
  have hsettled : ∀ y : EventSession, y.inbox = x.inbox → y.uid = x.uid → y.queue = queue →
      (y.pushStartId = x.pushStartId ∨ y.pushStartId = none) → y.Settled db senders := by
    intro y hinbox huid hqueue' hstart
    have hmids : y.mids = x.mids := congrArg (List.map ChatMessage.mid) hinbox
    refine ⟨hmids ▸ h.nodup, fun msg hmsg ↦ huid ▸ h.content msg (hinbox ▸ hmsg),
      hmids ▸ h.known, fun id hid ↦ ?_⟩
    rcases hstart with hstart | hstart
    · obtain ⟨hlt, hbelow, habove⟩ := h.start id (hstart ▸ hid)
      exact ⟨hlt, hbelow, fun e he ↦ habove e (hrest e (hqueue' ▸ he))⟩
    · rw [hstart] at hid
      cases hid
  by_cases htarget : event.targets.contains x.uid = true
  · rw [if_pos htarget] at hpending
    have hinbox : inbox { x with
        queue, pushStartId := none, tx := x.tx ++ [event.message] } = x.inbox := by
      rw [inbox, inbox, hpending]
      simp only [List.append_assoc]
      rfl
    have hrecv : EventSession.recv { x with queue } event =
        { x with queue, pushStartId := none, tx := x.tx ++ [event.message] } := by
      rw [EventSession.recv]
      simp only [htarget, Bool.not_true, Bool.false_eq_true, if_false]
      cases hstart : x.pushStartId with
      | none => rfl
      | some id =>
        have habove := (h.start id hstart).2.2 event (hqueue ▸ List.mem_cons_self)
        exact if_neg (not_le.2 habove)
    rw [hrecv]
    exact ⟨hinbox, hsettled _ hinbox rfl rfl (.inr rfl)⟩
  · have hfalse := Bool.eq_false_of_not_eq_true htarget
    rw [if_neg htarget] at hpending
    have hinbox : inbox { x with queue } = x.inbox := by rw [inbox, inbox, hpending]
    have hrecv : EventSession.recv { x with queue } event = { x with queue } := by
      rw [EventSession.recv]
      simp only [hfalse, Bool.not_false, if_true]
    rw [hrecv]
    exact ⟨hinbox, hsettled _ hinbox rfl rfl (.inl rfl)⟩

end EventSession

end VoceChat
