import Mathlib.Data.List.Nodup
import Mathlib.Data.List.Range
import VoceChat.Foundations.Run
import VoceChat.Mls.Sequence

/-!
# The laws of MLS sequencing

What `reserve_mls_sequence` maintains over every history of competing senders: a group's commits
number its epochs `1, 2, …, n`, a commit has at most one welcome, a device's generations within an
epoch are `0, 1, …, k`, and an application row is only added at the group's newest epoch.

Each law is about the rows of one key — a group, or a device within an epoch. A new row extends the
list of its own key and leaves the others as they are, so the step lemma has one case per table.
-/

namespace VoceChat

namespace SequenceTables

structure WellFormed (db : SequenceTables) : Prop where
  epochs : ∀ gid, ∃ n, db.epochs gid = List.range' 1 n
  commitIds : ∀ gid, ((db.commits.filter fun row ↦ row.gid = gid).map CommitRow.commitId).Nodup
  welcomes : ∀ w ∈ db.welcomes,
    ∃ c ∈ db.commits, c.gid = w.gid ∧ c.epoch = w.epoch ∧ c.commitId = w.commitId
  oneWelcome : (db.welcomes.map fun w ↦ (w.gid, w.epoch, w.commitId)).Nodup
  generations : ∀ gid epoch uid device, ∃ k, db.generations gid epoch uid device = List.range k

/-! ### The highest of a range -/

theorem max?_range' (s n : ℕ) : (List.range' s (n + 1)).max? = some (s + n) := by
  rw [List.max?_eq_some_iff]
  refine ⟨List.mem_range'_1.2 (by omega), fun b hb ↦ ?_⟩
  have := List.mem_range'_1.1 hb
  omega

theorem currentEpoch_of_epochs {db : SequenceTables} {gid : Int64} {n : ℕ}
    (h : db.epochs gid = List.range' 1 n) : db.currentEpoch gid = n := by
  rw [currentEpoch, h]
  cases n with
  | zero => rfl
  | succ n => rw [max?_range', Option.getD_some, Nat.add_comm]

theorem expectedGeneration_of_generations {db : SequenceTables} {gid : Int64} {epoch : ℕ}
    {uid : Int64}
    {device : String} {k : ℕ} (h : db.generations gid epoch uid device = List.range k) :
    db.expectedGeneration gid epoch uid device = k := by
  rw [expectedGeneration, h, List.range_eq_range']
  cases k with
  | zero => rfl
  | succ k => rw [max?_range', Option.map_some, Option.getD_some, Nat.zero_add]

/-! ### One more row -/

theorem filter_concat_map {α β : Type} (p : α → Prop) [DecidablePred p] (f : α → β) (l : List α)
    (a : α) : ((l ++ [a]).filter p).map f =
      if p a then (l.filter p).map f ++ [f a] else (l.filter p).map f := by
  rw [List.filter_append, List.map_append]
  by_cases h : p a <;> simp [h]

theorem epochs_add_commit (db : SequenceTables) (row : CommitRow) (gid : Int64) :
    (db.add (.commit row)).epochs gid =
      if row.gid = gid then db.epochs gid ++ [row.epoch] else db.epochs gid :=
  filter_concat_map (fun r : CommitRow ↦ r.gid = gid) CommitRow.epoch db.commits row

theorem generations_add_application (db : SequenceTables) (row : ApplicationRow) (gid : Int64)
    (epoch : ℕ) (uid : Int64) (device : String) :
    (db.add (.application row)).generations gid epoch uid device =
      if row.gid = gid ∧ row.epoch = epoch ∧ row.senderUid = uid ∧ row.senderDeviceId = device then
        db.generations gid epoch uid device ++ [row.generation]
      else db.generations gid epoch uid device :=
  filter_concat_map (fun r : ApplicationRow ↦ r.gid = gid ∧ r.epoch = epoch ∧ r.senderUid = uid ∧
    r.senderDeviceId = device) ApplicationRow.generation db.applications row

theorem wellFormed_empty : WellFormed empty where
  epochs _ := ⟨0, rfl⟩
  commitIds _ := List.nodup_nil
  welcomes _ h := nomatch h
  oneWelcome := List.nodup_nil
  generations _ _ _ _ := ⟨0, rfl⟩

/-- A commit of the next epoch, with an id the group has not seen. -/
theorem WellFormed.add_commit {db : SequenceTables} (hw : db.WellFormed) {row : CommitRow}
    (hrow : db.IsNext (.commit row)) : (db.add (.commit row)).WellFormed where
  epochs gid := by
    obtain ⟨n, hn⟩ := hw.epochs gid
    rw [epochs_add_commit]
    split
    · rename_i hgid
      subst hgid
      refine ⟨n + 1, ?_⟩
      rw [hn, hrow.1, currentEpoch_of_epochs hn, List.range'_1_concat, Nat.add_comm 1 n]
    · exact ⟨n, hn⟩
  commitIds gid := by
    change (((db.commits ++ [row]).filter fun r ↦ r.gid = gid).map CommitRow.commitId).Nodup
    rw [filter_concat_map]
    split
    · rename_i hgid
      rw [← List.concat_eq_append, List.nodup_concat]
      refine ⟨fun h ↦ ?_, hw.commitIds gid⟩
      obtain ⟨r, hr, hid⟩ := List.mem_map.1 h
      obtain ⟨hmem, hr⟩ := List.mem_filter.1 hr
      exact hrow.2 r hmem ((decide_eq_true_iff.1 hr).trans hgid.symm) hid
    · exact hw.commitIds gid
  welcomes w h := by
    obtain ⟨c, hc, hrest⟩ := hw.welcomes w h
    exact ⟨c, List.mem_append_left _ hc, hrest⟩
  oneWelcome := hw.oneWelcome
  generations := hw.generations

/-- A welcome to an existing commit that has none yet. -/
theorem WellFormed.add_welcome {db : SequenceTables} (hw : db.WellFormed) {row : WelcomeRow}
    (hrow : db.IsNext (.welcome row)) : (db.add (.welcome row)).WellFormed where
  epochs := hw.epochs
  commitIds := hw.commitIds
  welcomes := by
    change ∀ w ∈ db.welcomes ++ [row], _
    simp only [List.mem_append, List.mem_singleton]
    rintro w (hmem | rfl)
    · exact hw.welcomes w hmem
    · obtain ⟨c, hc, hmatch⟩ := List.countP_pos_iff.1 (hrow.1.symm ▸ Nat.one_pos)
      exact ⟨c, hc, decide_eq_true_iff.1 hmatch⟩
  oneWelcome := by
    change ((db.welcomes ++ [row]).map fun w ↦ (w.gid, w.epoch, w.commitId)).Nodup
    rw [List.map_append, List.map_singleton, ← List.concat_eq_append, List.nodup_concat]
    refine ⟨fun h ↦ ?_, hw.oneWelcome⟩
    obtain ⟨w, hmem, heq⟩ := List.mem_map.1 h
    simp only [Prod.mk.injEq] at heq
    exact hrow.2 w hmem heq.1 heq.2.1 heq.2.2
  generations := hw.generations

/-- An application message of the next generation. -/
theorem WellFormed.add_application {db : SequenceTables} (hw : db.WellFormed)
    {row : ApplicationRow} (hrow : db.IsNext (.application row)) :
    (db.add (.application row)).WellFormed where
  epochs := hw.epochs
  commitIds := hw.commitIds
  welcomes := hw.welcomes
  oneWelcome := hw.oneWelcome
  generations gid epoch uid device := by
    obtain ⟨k, hk⟩ := hw.generations gid epoch uid device
    rw [generations_add_application]
    split
    · rename_i hrow'
      obtain ⟨rfl, rfl, rfl, rfl⟩ := hrow'
      refine ⟨k + 1, ?_⟩
      rw [hk, hrow.2, expectedGeneration_of_generations hk, List.range_succ]
    · exact ⟨k, hk⟩

theorem WellFormed.add {db : SequenceTables} (hw : db.WellFormed) {r : Reservation}
    (hr : db.IsNext r) : (db.add r).WellFormed := by
  cases r with
  | commit row => exact hw.add_commit hr
  | welcome row => exact hw.add_welcome hr
  | application row => exact hw.add_application hr

end SequenceTables

/-! ### Histories of calls -/

/-- One call of `reserve_mls_sequence`, with the statements that happen to fail in it. -/
structure SequenceCall where
  gid : Int64
  senderUid : Int64
  route : RoutingProperties
  faults : Faults

namespace SequenceTables

def call (db : SequenceTables) (c : SequenceCall) : Except MlsSequenceError Unit × SequenceTables :=
  reserveMlsSequence c.faults db c.gid c.senderUid c.route

def step (db : SequenceTables) (c : SequenceCall) : Option SequenceTables := some (db.call c).2

/-- The step lemma: a call keeps the laws. -/
theorem WellFormed.call {db : SequenceTables} (hw : db.WellFormed) (c : SequenceCall) :
    (db.call c).2.WellFormed := by
  rcases reserveMlsSequence_cases c.faults db c.gid c.senderUid c.route with
    ⟨r, -, hnext, -, h⟩ | ⟨e, h⟩
  · rw [SequenceTables.call, h]
    exact hw.add hnext
  · rw [SequenceTables.call, h]
    exact hw

/-- A call adds an application row at the newest epoch of its group, or none. -/
theorem call_applications (db : SequenceTables) (c : SequenceCall) :
    (db.call c).2.applications = db.applications ∨
      ∃ row, row.epoch = db.currentEpoch row.gid ∧
        (db.call c).2.applications = db.applications ++ [row] := by
  rcases reserveMlsSequence_cases c.faults db c.gid c.senderUid c.route with
    ⟨r, -, hnext, -, h⟩ | ⟨e, h⟩
  · rw [call, h]
    cases r with
    | commit row => exact .inl rfl
    | welcome row => exact .inl rfl
    | application row => exact .inr ⟨row, hnext.1, rfl⟩
  · rw [call, h]
    exact .inl rfl

/-- A conflict or an error leaves all three tables exactly as they were. -/
theorem call_of_error {db : SequenceTables} {c : SequenceCall} {e : MlsSequenceError}
    (he : (db.call c).1 = .error e) : (db.call c).2 = db := by
  rcases reserveMlsSequence_cases c.faults db c.gid c.senderUid c.route with
    ⟨r, -, -, -, h⟩ | ⟨e, h⟩
  · rw [call, h] at he
    cases he
  · rw [call, h]

/-- **The laws of MLS sequencing** hold after every history of calls, and every further call keeps
them: it adds application rows at the newest epoch only and changes nothing when it fails. -/
theorem sequencing {db : SequenceTables} {calls : List SequenceCall}
    (hrun : Transition.run step empty calls = some db) :
    db.WellFormed ∧ ∀ c : SequenceCall,
      ((db.call c).2.applications = db.applications ∨
        ∃ row, row.epoch = db.currentEpoch row.gid ∧
          (db.call c).2.applications = db.applications ++ [row]) ∧
      ∀ e, (db.call c).1 = .error e → (db.call c).2 = db := by
  refine ⟨?_, fun c ↦ ⟨db.call_applications c, fun e ↦ call_of_error⟩⟩
  refine Transition.run_induction (fun s c t hs hstep ↦ ?_) wellFormed_empty hrun
  obtain rfl : (s.call c).2 = t := Option.some_inj.1 hstep
  exact hs.call c

/-- The first commit of group `7`. -/
def firstCommit : SequenceCall where
  gid := 7
  senderUid := 3
  route :=
    { protocol := .mls, wireClass := .mlsHandshake, senderDeviceId := "phone",
      recipientDeviceId := none, localId := "a", mlsEpoch := some 1, mlsGeneration := some 0,
      mlsHandshakeKind := some .commit, mlsCommitId := some "c" }
  faults := fun _ ↦ none

/-- The first message after it. -/
def firstApplication : SequenceCall where
  gid := 7
  senderUid := 3
  route :=
    { protocol := .mls, wireClass := .mlsApplication, senderDeviceId := "phone",
      recipientDeviceId := none, localId := "b", mlsEpoch := some 1, mlsGeneration := some 0,
      mlsHandshakeKind := none, mlsCommitId := none }
  faults := fun _ ↦ none

theorem sequencing_firstCommit :
    WellFormed ⟨[⟨7, 1, "c", 3, "phone"⟩], [], [⟨7, 1, 3, "phone", 0⟩]⟩ :=
  (sequencing (by decide : Transition.run step empty [firstCommit, firstApplication] = some _)).1

end SequenceTables

end VoceChat
