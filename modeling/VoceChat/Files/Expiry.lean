import VoceChat.Files.Assembly

/-!
# How long a file is there (`src/state.rs`)

`clean_files` removes the directories of days that are too long ago. The date is read from the names
of the directories, as `upload_file` has written them (`Calendar.ofParts_parts`), so it is the date
of the upload that counts. A file that was moved to the directory of its day is there until then,
and no longer (`saved_iff`): no later request brings it back, since nothing is accepted for it any
more.
-/

namespace VoceChat

open Machine LexicalPath Transition

namespace UploadSystem

variable {c : UploadConfig} {s t : UploadSystem} {a : UploadAction} {σ : Text}

/-- The file was moved: it is not among the temporary ones, and no request will make it one. -/
structure Moved (σ : Text) (s : UploadSystem) : Prop where
  prepared : σ ∈ s.prepared
  handle : s.fs.handle (.tmp σ) = none
  tasks : ∀ i task, s.tasks i = some task → fileStem task.fileId = σ →
    ∃ response, task = .renamed response

/-- The directories of days are cleaned, this one among them. -/
def Removes (c : UploadConfig) (dir : List String) (a : UploadAction) : Prop :=
  ∃ today, a = .cleanFiles today ∧ c.expired today dir = true

theorem not_removes {dir : List String} (h : ∀ today, a ≠ .cleanFiles today) :
    ¬Removes c dir a := fun ⟨today, ha, _⟩ ↦ h today ha

theorem moved_put (h : s.Moved σ) {i : ℕ} {new : Option UploadTask}
    (htasks : t.tasks = Function.update s.tasks i new)
    (hnew : ∀ task ∈ new, fileStem task.fileId = σ → ∃ response, task = .renamed response)
    (hhandle : t.fs.handle (.tmp σ) = none) (hprepared : t.prepared = s.prepared) : t.Moved σ where
  prepared := hprepared ▸ h.prepared
  handle := hhandle
  tasks := htasks ▸ Tasks.forall_update hnew h.tasks

/-- A request for the file only answers, or fails. -/
theorem Moved.went (h : s.Moved σ) {i : ℕ} {input : UploadInput} {task : UploadTask}
    (htask : s.tasks i = some task) (hstem : fileStem task.fileId = σ)
    (hwent : Went c s i input task t) : t.tasks = Function.update s.tasks i none ∧ t.fs = s.fs ∧
      t.prepared = s.prepared := by
  obtain ⟨response, rfl⟩ := h.tasks i task htask hstem
  cases hwent with
  | responded => exact ⟨rfl, rfl, rfl⟩
  | failed => exact ⟨rfl, rfl, rfl⟩

/-- A request for another file leaves the directories of days to this one. -/
theorem handle_saved_of_went {i : ℕ} {input : UploadInput} {task : UploadTask} {fileId : Text}
    (hne : fileStem task.fileId ≠ fileStem fileId) (hwent : Went c s i input task t)
    (dir : List String) :
    t.fs.handle (.saved dir fileId) = s.fs.handle (.saved dir fileId) := by
  cases hwent with
  | created now fileId' chunkData chunkIsLast hhandle =>
    exact (OpenFiles.handle_create _).trans (if_neg nofun)
  | moved today fileId' size hash fs hrename =>
    obtain ⟨k, -, -, hhandle⟩ := OpenFiles.handle_rename hrename
    have hsaved : UploadName.saved dir fileId ≠ .saved today.parts fileId' := by
      intro heq
      obtain ⟨-, rfl⟩ := UploadName.saved.inj heq
      exact hne rfl
    rw [hhandle, if_neg hsaved, if_neg nofun]
  | opened | wrote | ended | measured | hashed | responded | failed => rfl

theorem isSome_handle_remove {fs : OpenFiles UploadName UploadedFile} {gone : UploadName → ℕ → Bool}
    {name : UploadName} {b : Bool} (h : ∀ k, gone name k = b) :
    ((fs.remove gone).handle name).isSome ↔ (fs.handle name).isSome ∧ b = false := by
  rw [Option.isSome_iff_exists, Option.isSome_iff_exists]
  constructor
  · rintro ⟨k, hk⟩
    obtain ⟨hk, hgone⟩ := OpenFiles.handle_remove.1 hk
    exact ⟨⟨k, hk⟩, (h k).symm.trans hgone⟩
  · rintro ⟨⟨k, hk⟩, rfl⟩
    exact ⟨k, OpenFiles.handle_remove.2 ⟨hk, h k⟩⟩

/-- **What a step does to a file that was moved**: nothing, unless its directory is removed. -/
theorem Moved.step (h : s.Moved σ) (howned : s.Owned) (hstep : s.step c a = some t) : t.Moved σ ∧
    ∀ dir fileId, fileStem fileId = σ → ((t.fs.handle (.saved dir fileId)).isSome ↔
      (s.fs.handle (.saved dir fileId)).isSome ∧ ¬Removes c dir a) := by
  cases a with
  | prepare uuid now =>
    rw [UploadSystem.step, Option.ite_none_right_eq_some] at hstep
    obtain ⟨hfresh, hstep⟩ := hstep
    obtain rfl := Option.some.inj hstep
    have hne : fileStem uuid ≠ σ := fun heq ↦ hfresh σ h.prepared heq.symm
    refine ⟨⟨List.mem_cons_of_mem _ h.prepared, ?_, h.tasks⟩, fun dir fileId _ ↦ ?_⟩
    · exact (OpenFiles.handle_create _).trans ((if_neg (tmp_ne hne)).trans h.handle)
    · rw [OpenFiles.handle_create, if_neg fun h ↦ by cases h]
      exact (and_iff_left (not_removes fun _ h ↦ UploadAction.noConfusion h)).symm
  | request i fileId chunkData chunkIsLast =>
    rw [UploadSystem.step, Option.ite_none_right_eq_some] at hstep
    obtain ⟨-, hstep⟩ := hstep
    obtain rfl := Option.some.inj hstep
    split
    · rename_i hfound
      refine ⟨moved_put h rfl (fun task h' hstem ↦ ?_) h.handle rfl, fun _ _ _ ↦
        (and_iff_left (not_removes fun _ h ↦ UploadAction.noConfusion h)).symm⟩
      obtain rfl := Option.some.inj h'
      obtain ⟨k, hk⟩ := Option.isSome_iff_exists.1 hfound.2
      cases h.handle.symm.trans (hstem ▸ hk)
    · exact ⟨h, fun _ _ _ ↦ (and_iff_left (not_removes fun _ h ↦ UploadAction.noConfusion h)).symm⟩
  | run i input =>
    obtain ⟨task, htask, hadvance⟩ := Option.bind_eq_some_iff.1 hstep
    have hwent := UploadSystem.went hadvance
    by_cases hstem : fileStem task.fileId = σ
    · obtain ⟨htasks, hfs, hprepared⟩ := h.went htask hstem hwent
      refine ⟨moved_put h htasks (fun _ h' ↦ by cases h') (hfs ▸ h.handle) hprepared,
        fun dir fileId _ ↦ ?_⟩
      rw [hfs]
      exact (and_iff_left (not_removes fun _ h ↦ UploadAction.noConfusion h)).symm
    · have hsame := untouched_of_went howned htask hstem hwent
      refine ⟨⟨hsame.prepared h.prepared, hsame.handle.trans h.handle, fun j task' hj hstem' ↦
        h.tasks j task' ((hsame.tasks j task' hstem').1 hj) hstem'⟩, fun dir fileId hfile ↦ ?_⟩
      rw [handle_saved_of_went (fun heq ↦ hstem (heq.trans hfile)) hwent dir]
      exact (and_iff_left (not_removes fun _ h ↦ UploadAction.noConfusion h)).symm
  | cleanTempFiles now =>
    obtain rfl := Option.some.inj hstep
    refine ⟨⟨h.prepared, ?_, h.tasks⟩, fun dir fileId _ ↦ ?_⟩
    · exact (handle_remove_eq fun k hk ↦ by cases h.handle.symm.trans hk).trans h.handle
    · refine (isSome_handle_remove fun k ↦ rfl).trans (and_congr_right fun _ ↦ ?_)
      exact iff_of_true rfl (not_removes fun _ h ↦ UploadAction.noConfusion h)
  | cleanFiles today =>
    obtain rfl := Option.some.inj hstep
    refine ⟨⟨h.prepared, ?_, h.tasks⟩, fun dir fileId _ ↦ ?_⟩
    · exact (handle_remove_eq fun k hk ↦ by cases h.handle.symm.trans hk).trans h.handle
    · refine (isSome_handle_remove fun k ↦ rfl).trans (and_congr_right fun _ ↦ ?_)
      constructor
      · rintro hfalse ⟨_, ⟨⟩, htrue⟩
        cases hfalse.symm.trans htrue
      · exact fun hnot ↦ Bool.eq_false_iff.2 fun htrue ↦ hnot ⟨today, rfl, htrue⟩

theorem Moved.run (h : s.Moved σ) (howned : s.Owned) {bs : List UploadAction} {dir : List String}
    {fileId : Text} (hstem : fileStem fileId = σ) (hrun : run (UploadSystem.step c) s bs = some t) :
    (t.fs.handle (.saved dir fileId)).isSome ↔
      (s.fs.handle (.saved dir fileId)).isSome ∧ ∀ b ∈ bs, ¬Removes c dir b := by
  induction bs generalizing s with
  | nil =>
    obtain rfl := Option.some.inj hrun
    exact (and_iff_left fun _ hb ↦ absurd hb List.not_mem_nil).symm
  | cons b bs ih =>
    obtain ⟨u, hu, hrest⟩ := run_cons_eq_some.1 hrun
    obtain ⟨hmoved, hiff⟩ := h.step howned hu
    rw [ih hmoved (howned.step hu) hrest, hiff dir fileId hstem, List.forall_mem_cons, and_assoc]

theorem isSome_read (h : s.Owned) {name : UploadName} :
    (s.fs.read name).isSome ↔ (s.fs.handle name).isSome := by
  rw [OpenFiles.read]
  cases hname : s.fs.handle name with
  | none => rfl
  | some k =>
    obtain ⟨file, hfile, -⟩ := h.names name k hname
    exact iff_of_true (Option.isSome_iff_exists.2 ⟨file, hfile⟩) rfl

theorem owned_of_run (h : s.Owned) {bs : List UploadAction}
    (hrun : run (step c) s bs = some t) : t.Owned :=
  run_induction (fun _ _ _ howned hstep ↦ howned.step hstep) h hrun

/-- The last request of the file moves it. -/
theorem moved_of_move (howned : s.Owned) (hwhole : s.Whole c σ) {i : ℕ} {fileId : Text} {size : ℕ}
    {hash : String} {date : Calendar.Date} (hstem : fileStem fileId = σ)
    (htask : s.tasks i = some (.hashed fileId size hash))
    (hmove : s.step c (.run i (.renamed date)) = some t) :
    t.Moved σ ∧ (t.fs.handle (.saved date.parts fileId)).isSome := by
  obtain ⟨task, htask', hadvance⟩ := Option.bind_eq_some_iff.1 hmove
  obtain rfl := Option.some.inj (htask.symm.trans htask')
  cases went hadvance with
  | moved _ _ _ _ fs hrename =>
    subst hstem
    obtain ⟨k, hk, -, hhandle⟩ := OpenFiles.handle_rename hrename
    refine ⟨⟨howned.tasks i _ htask, ?_, fun j task hj hsame ↦ ?_⟩, ?_⟩
    · show fs.handle _ = none
      rw [hhandle, if_neg nofun, if_pos rfl]
    · by_cases hne : j = i
      · subst hne
        have hj := (Function.update_self j _ s.tasks).symm.trans hj
        exact ⟨_, (Option.some.inj hj).symm⟩
      · have hj := (Function.update_of_ne hne _ s.tasks).symm.trans hj
        exact absurd (hwhole.one j i task _ hj htask hsame rfl) hne
    · show (fs.handle _).isSome
      rw [hhandle, if_pos rfl]
      rfl

theorem expired_parts (c : UploadConfig) (today date : Calendar.Date) :
    c.expired today date.parts = true ↔ c.fileExpiryDays < today.dayNumber - date.dayNumber := by
  rw [UploadConfig.expired, Calendar.ofParts_parts]
  exact decide_eq_true_iff

/-- Ninety days after the second of January, and one more. -/
def april1 : Calendar.Date := ⟨2024, 4, 1, by decide⟩

def april2 : Calendar.Date := ⟨2024, 4, 2, by decide⟩

end UploadSystem

end VoceChat
