import VoceChat.Files.Uploads
import VoceChat.Foundations.History
import VoceChat.Foundations.Tasks

/-!
# What a file is put together from

A file whose requests come one after the other, each to its end, is what was sent: when the last
chunk is answered, the size and the hash in the answer are those of all the chunks, one after the
other, and the file in the directory of the day consists of them for as long as it is there.
Whatever happens meanwhile to other files makes no difference (`untouched_of_step`).

That the requests come one after the other is for the client to see to (`Serial`). Requests at the
same time may write in any order, and one that has the file open still writes to it when it has its
hash and its place already.
-/

namespace VoceChat

open Machine LexicalPath Transition

namespace UploadSystem

variable {c : UploadConfig} {s t : UploadSystem} {a : UploadAction} {σ : Text}

/-- No request for the file is on its way. -/
def Idle (s : UploadSystem) (σ : Text) : Prop :=
  ∀ i task, s.tasks i = some task → fileStem task.fileId ≠ σ

/-- The requests for the file come one after the other, and each to its end; and it is not cleaned
up while one is on its way. -/
def Serial (c : UploadConfig) (σ : Text) (s : UploadSystem) : UploadAction → Prop
  | .request _ fileId _ _ => fileStem fileId = σ → s.Idle σ
  | .run i .failed => ∀ task, s.tasks i = some task → fileStem task.fileId ≠ σ
  | .cleanTempFiles now =>
    ∀ file, s.fs.read (.tmp σ) = some file → c.timedOut now file = true → s.Idle σ
  | _ => True

/-! ### The step of a request -/

inductive Went (c : UploadConfig) (s : UploadSystem) (i : ℕ) :
    UploadInput → UploadTask → UploadSystem → Prop where
  | opened (now : ℤ) (fileId : Text) (chunkData : Bytes) (chunkIsLast : Bool) (handle : ℕ)
      (hhandle : s.fs.handle (.tmp (fileStem fileId)) = some handle) :
    Went c s i (.opened now) (.found fileId chunkData chunkIsLast)
      (s.setTask i (some (.writing fileId handle chunkData chunkIsLast)))
  | created (now : ℤ) (fileId : Text) (chunkData : Bytes) (chunkIsLast : Bool)
      (hhandle : s.fs.handle (.tmp (fileStem fileId)) = none) :
    Went c s i (.opened now) (.found fileId chunkData chunkIsLast)
      { s.setTask i (some (.writing fileId s.fs.files.length chunkData chunkIsLast)) with
        fs := s.fs.create (.tmp (fileStem fileId)) ⟨[], now, fileStem fileId⟩ }
  | wrote (n : ℕ) (now : ℤ) (fileId : Text) (handle : ℕ) (rest : Bytes) (chunkIsLast : Bool) :
    Went c s i (.wrote n now) (.writing fileId handle rest chunkIsLast)
      { s.setTask i (some (.writing fileId handle (rest.drop n) chunkIsLast)) with
        fs := s.fs.write handle fun file ↦
          { file with bytes := file.bytes ++ rest.take n, modified := now } }
  | ended (fileId : Text) (handle : ℕ) :
    Went c s i .ended (.writing fileId handle [] false) (s.setTask i none)
  | measured (fileId : Text) (handle : ℕ) (file : UploadedFile)
      (hread : s.fs.read (.tmp (fileStem fileId)) = some file) :
    Went c s i .metadata (.writing fileId handle [] true)
      (s.setTask i (some (.sized fileId file.bytes.length)))
  | hashed (fileId : Text) (size : ℕ) (file : UploadedFile)
      (hread : s.fs.read (.tmp (fileStem fileId)) = some file) :
    Went c s i .sha256File (.sized fileId size)
      (s.setTask i (some (.hashed fileId size (c.sha256 file.bytes))))
  | moved (today : Calendar.Date) (fileId : Text) (size : ℕ) (hash : String)
      (fs : OpenFiles UploadName UploadedFile)
      (hrename : s.fs.rename (.tmp (fileStem fileId)) (.saved today.parts fileId) = some fs) :
    Went c s i (.renamed today) (.hashed fileId size hash)
      { s.setTask i (some (.renamed ⟨today, fileId, size, hash⟩)) with fs := fs }
  | responded (response : UploadFileResponse) :
    Went c s i .responded (.renamed response)
      { s.setTask i none with responses := s.responses ++ [response] }
  | failed (task : UploadTask) : Went c s i .failed task (s.setTask i none)

theorem went {i : ℕ} {input : UploadInput} {task : UploadTask}
    (h : s.advance c i input task = some t) : Went c s i input task t := by
  rw [advance.eq_def] at h
  split at h
  · split at h
    · rename_i handle hhandle
      exact Option.some.inj h ▸ .opened _ _ _ _ handle hhandle
    · rename_i hhandle
      exact Option.some.inj h ▸ .created _ _ _ _ hhandle
  · exact Option.some.inj h ▸ .wrote _ _ _ _ _ _
  · exact Option.some.inj h ▸ .ended _ _
  · obtain ⟨file, hread, rfl⟩ := Option.map_eq_some_iff.1 h
    exact .measured _ _ file hread
  · obtain ⟨file, hread, rfl⟩ := Option.map_eq_some_iff.1 h
    exact .hashed _ _ file hread
  · obtain ⟨fs, hrename, rfl⟩ := Option.map_eq_some_iff.1 h
    exact .moved _ _ _ _ fs hrename
  · exact Option.some.inj h ▸ .responded _
  · exact Option.some.inj h ▸ .failed _
  · cases h

/-! ### Whose files are whose -/

/-- A file that is open, or has a name, was uploaded as `stem`. -/
def HasStem (fs : OpenFiles UploadName UploadedFile) (handle : ℕ) (stem : Text) : Prop :=
  ∃ file, fs.files[handle]? = some file ∧ file.stem = stem

/-- Names and requests lead to files of their own. -/
structure Owned (s : UploadSystem) : Prop where
  names : ∀ name handle, s.fs.handle name = some handle → HasStem s.fs handle name.stem
  prepared : ∀ name handle, s.fs.handle name = some handle → name.stem ∈ s.prepared
  handles : ∀ i task, s.tasks i = some task → ∀ fileId handle rest chunkIsLast,
    task = .writing fileId handle rest chunkIsLast → HasStem s.fs handle (fileStem fileId)
  tasks : ∀ i task, s.tasks i = some task → fileStem task.fileId ∈ s.prepared

theorem owned_start : start.Owned where
  names _ _ h := nomatch h
  prepared _ _ h := nomatch h
  handles _ _ h := nomatch h
  tasks _ _ h := nomatch h

variable {fs fs' : OpenFiles UploadName UploadedFile} {handle : ℕ} {stem : Text}

theorem HasStem.create (h : HasStem fs handle stem) (name : UploadName) (file : UploadedFile) :
    HasStem (fs.create name file) handle stem := by
  obtain ⟨old, hold, hstem⟩ := h
  exact ⟨old, List.getElem?_append_left (List.getElem?_eq_some_iff.1 hold).1 ▸ hold, hstem⟩

theorem hasStem_create (name : UploadName) (file : UploadedFile) :
    HasStem (fs.create name file) fs.files.length file.stem :=
  ⟨file, List.getElem?_concat_length, rfl⟩

theorem HasStem.write (h : HasStem fs handle stem) (handle' : ℕ) {f : UploadedFile → UploadedFile}
    (hf : ∀ file, (f file).stem = file.stem) : HasStem (fs.write handle' f) handle stem := by
  obtain ⟨old, hold, hstem⟩ := h
  rw [HasStem, OpenFiles.getElem?_write, hold]
  split
  · exact ⟨f old, rfl, (hf old).trans hstem⟩
  · exact ⟨old, rfl, hstem⟩

theorem HasStem.of_files_eq (h : HasStem fs handle stem) (hfiles : fs'.files = fs.files) :
    HasStem fs' handle stem := by
  rw [HasStem, hfiles]
  exact h

/-- A task of the same file that does not write. -/
theorem Owned.setTask (h : s.Owned) {i : ℕ} {task : UploadTask} (htask : s.tasks i = some task)
    {new : Option UploadTask} (hnew : ∀ task' ∈ new, task'.fileId = task.fileId ∧
      ∀ fileId handle rest chunkIsLast, task' ≠ .writing fileId handle rest chunkIsLast) :
    (s.setTask i new).Owned where
  names := h.names
  prepared := h.prepared
  handles := Tasks.forall_update (fun task' h' _ _ _ _ heq ↦ absurd heq ((hnew task' h').2 _ _ _ _))
    h.handles
  tasks := Tasks.forall_update (fun task' h' ↦ (hnew task' h').1 ▸ h.tasks i task htask) h.tasks

theorem Owned.went (h : s.Owned) {i : ℕ} {input : UploadInput} {task : UploadTask}
    (htask : s.tasks i = some task) (hwent : Went c s i input task t) : t.Owned := by
  have hmem := h.tasks i task htask
  cases hwent with
  | opened now fileId chunkData chunkIsLast handle hhandle =>
    refine ⟨h.names, h.prepared, Tasks.forall_update (fun new hnew ↦ ?_) h.handles,
      Tasks.forall_update (fun new hnew ↦ ?_) h.tasks⟩
    · obtain rfl := Option.some.inj hnew
      rintro _ _ _ _ ⟨⟩
      exact h.names _ handle hhandle
    · obtain rfl := Option.some.inj hnew
      exact hmem
  | created now fileId chunkData chunkIsLast hhandle =>
    refine ⟨fun name handle hname ↦ ?_, fun name handle hname ↦ ?_,
      Tasks.forall_update (fun new hnew ↦ ?_) fun j old hold ↦ ?_,
      Tasks.forall_update (fun new hnew ↦ ?_) h.tasks⟩
    · rw [OpenFiles.handle_create] at hname
      split at hname
      · rename_i heq
        obtain rfl := Option.some.inj hname
        subst heq
        exact hasStem_create _ _
      · exact (h.names name handle hname).create _ _
    · rw [OpenFiles.handle_create] at hname
      split at hname
      · rename_i heq
        subst heq
        exact hmem
      · exact h.prepared name handle hname
    · obtain rfl := Option.some.inj hnew
      rintro _ _ _ _ ⟨⟩
      exact hasStem_create _ _
    · intro _ _ _ _ heq
      exact (h.handles j old hold _ _ _ _ heq).create _ _
    · obtain rfl := Option.some.inj hnew
      exact hmem
  | wrote n now fileId handle rest chunkIsLast =>
    refine ⟨fun name handle' hname ↦ (h.names name handle' hname).write _ fun _ ↦ rfl, h.prepared,
      Tasks.forall_update (fun new hnew ↦ ?_) fun j old hold ↦ ?_,
      Tasks.forall_update (fun new hnew ↦ ?_) h.tasks⟩
    · obtain rfl := Option.some.inj hnew
      rintro _ _ _ _ ⟨⟩
      exact (h.handles i _ htask _ _ _ _ rfl).write _ fun _ ↦ rfl
    · intro _ _ _ _ heq
      exact (h.handles j old hold _ _ _ _ heq).write _ fun _ ↦ rfl
    · obtain rfl := Option.some.inj hnew
      exact hmem
  | ended fileId handle => exact h.setTask htask fun _ h' ↦ by cases h'
  | measured fileId handle file hread =>
    exact h.setTask htask fun _ h' ↦ Option.some.inj h' ▸ ⟨rfl, fun _ _ _ _ h ↦ by cases h⟩
  | hashed fileId size file hread =>
    exact h.setTask htask fun _ h' ↦ Option.some.inj h' ▸ ⟨rfl, fun _ _ _ _ h ↦ by cases h⟩
  | moved today fileId size hash fs hrename =>
    obtain ⟨k, hk, hfiles, hhandle⟩ := OpenFiles.handle_rename hrename
    have hset : (s.setTask i (some (.renamed ⟨today, fileId, size, hash⟩))).Owned :=
      h.setTask htask fun _ h' ↦ Option.some.inj h' ▸ ⟨rfl, fun _ _ _ _ h ↦ by cases h⟩
    obtain ⟨-, -, hhandles, htasks⟩ := hset
    refine ⟨fun name handle hname ↦ ?_, fun name handle hname ↦ ?_, fun j old hold _ _ _ _ heq ↦
      (hhandles j old hold _ _ _ _ heq).of_files_eq hfiles, htasks⟩
    · rw [hhandle] at hname
      refine HasStem.of_files_eq ?_ hfiles
      split at hname
      · rename_i heq
        obtain rfl := Option.some.inj hname
        subst heq
        have howned := h.names _ k hk
        exact howned
      · split at hname
        · cases hname
        · exact h.names name handle hname
    · rw [hhandle] at hname
      split at hname
      · rename_i heq
        subst heq
        exact hmem
      · split at hname
        · cases hname
        · exact h.prepared name handle hname
  | responded response =>
    have hset : (s.setTask i none).Owned := h.setTask htask fun _ h' ↦ by cases h'
    obtain ⟨-, -, hhandles, htasks⟩ := hset
    exact ⟨h.names, h.prepared, hhandles, htasks⟩
  | failed task => exact h.setTask htask fun _ h' ↦ by cases h'

theorem Owned.step (h : s.Owned) (hstep : s.step c a = some t) : t.Owned := by
  obtain ⟨hnames, hprepared, hhandles, htasks⟩ := h
  cases a with
  | prepare uuid now =>
    rw [UploadSystem.step, Option.ite_none_right_eq_some] at hstep
    obtain ⟨hfresh, hstep⟩ := hstep
    obtain rfl := Option.some.inj hstep
    refine ⟨fun name handle hname ↦ ?_, fun name handle hname ↦ ?_,
      fun i task htask fileId handle rest chunkIsLast heq ↦ ?_, fun i task htask ↦ ?_⟩
    · rw [OpenFiles.handle_create] at hname
      split at hname
      · rename_i heq
        obtain rfl := Option.some.inj hname
        subst heq
        exact hasStem_create _ _
      · exact (hnames name handle hname).create _ _
    · rw [OpenFiles.handle_create] at hname
      split at hname
      · rename_i heq
        subst heq
        exact List.mem_cons_self
      · exact List.mem_cons_of_mem _ (hprepared name handle hname)
    · exact (hhandles i task htask fileId handle rest chunkIsLast heq).create _ _
    · exact List.mem_cons_of_mem _ (htasks i task htask)
  | request i fileId chunkData chunkIsLast =>
    rw [UploadSystem.step, Option.ite_none_right_eq_some] at hstep
    obtain ⟨-, hstep⟩ := hstep
    obtain rfl := Option.some.inj hstep
    split
    · rename_i hfound
      obtain ⟨handle, hhandle⟩ := Option.isSome_iff_exists.1 hfound.2
      refine ⟨hnames, hprepared, Tasks.forall_update (fun new hnew ↦ ?_) hhandles,
        Tasks.forall_update (fun new hnew ↦ ?_) htasks⟩
      · obtain rfl := Option.some.inj hnew
        exact fun _ _ _ _ h ↦ by cases h
      · obtain rfl := Option.some.inj hnew
        exact hprepared _ handle hhandle
    · exact ⟨hnames, hprepared, hhandles, htasks⟩
  | run i input =>
    obtain ⟨task, htask, hadvance⟩ := Option.bind_eq_some_iff.1 hstep
    exact Owned.went ⟨hnames, hprepared, hhandles, htasks⟩ htask (UploadSystem.went hadvance)
  | cleanTempFiles now =>
    obtain rfl := Option.some.inj hstep
    exact ⟨fun name handle hname ↦ hnames name handle (OpenFiles.handle_remove.1 hname).1,
      fun name handle hname ↦ hprepared name handle (OpenFiles.handle_remove.1 hname).1, hhandles,
      htasks⟩
  | cleanFiles today =>
    obtain rfl := Option.some.inj hstep
    exact ⟨fun name handle hname ↦ hnames name handle (OpenFiles.handle_remove.1 hname).1,
      fun name handle hname ↦ hprepared name handle (OpenFiles.handle_remove.1 hname).1, hhandles,
      htasks⟩

/-! ### Steps for other files -/

/-- Nothing has happened to the file, but that it may have gone from the directory of a day. -/
structure Untouched (σ : Text) (s t : UploadSystem) : Prop where
  handle : t.fs.handle (.tmp σ) = s.fs.handle (.tmp σ)
  read : t.fs.read (.tmp σ) = s.fs.read (.tmp σ)
  saved : ∀ dir fileId file, fileStem fileId = σ → t.fs.read (.saved dir fileId) = some file →
    s.fs.read (.saved dir fileId) = some file
  sent : t.sent σ = s.sent σ
  responses : ∀ r ∈ t.responses, fileStem r.fileId = σ → r ∈ s.responses
  tasks : ∀ i task, fileStem task.fileId = σ → (t.tasks i = some task ↔ s.tasks i = some task)
  prepared : σ ∈ s.prepared → σ ∈ t.prepared

theorem read_eq_of_handle_eq {name : UploadName} (hhandle : fs'.handle name = fs.handle name)
    (hfiles : ∀ k, fs.handle name = some k → fs'.files[k]? = fs.files[k]?) :
    fs'.read name = fs.read name := by
  rw [OpenFiles.read, OpenFiles.read, hhandle]
  cases h : fs.handle name with
  | none => rfl
  | some k => exact hfiles k h

/-- A new file has a new number. -/
theorem getElem?_create (h : HasStem fs handle stem) (name : UploadName) (file : UploadedFile) :
    (fs.create name file).files[handle]? = fs.files[handle]? := by
  obtain ⟨old, hold, -⟩ := h
  exact List.getElem?_append_left (List.getElem?_eq_some_iff.1 hold).1

theorem Owned.read_create (h : s.Owned) {name name' : UploadName} {file : UploadedFile}
    (hne : name ≠ name') : (s.fs.create name' file).read name = s.fs.read name := by
  refine read_eq_of_handle_eq ?_ fun k hk ↦ getElem?_create (h.names name k hk) _ _
  rw [OpenFiles.handle_create, if_neg hne]

/-- What is written to a file does not reach one that was uploaded as another. -/
theorem Owned.read_write (h : s.Owned) {name : UploadName} {f : UploadedFile → UploadedFile}
    (hhandle : HasStem s.fs handle stem) (hne : name.stem ≠ stem) :
    (s.fs.write handle f).read name = s.fs.read name := by
  refine read_eq_of_handle_eq rfl fun k hk ↦ ?_
  obtain ⟨file, hfile, hstem⟩ := h.names name k hk
  obtain ⟨file', hfile', hstem'⟩ := hhandle
  rw [OpenFiles.getElem?_write, if_neg]
  rintro rfl
  obtain rfl := Option.some.inj (hfile.symm.trans hfile')
  exact hne (hstem.symm.trans hstem')

theorem read_rename {old new name : UploadName} (h : fs.rename old new = some fs')
    (hold : name ≠ old) (hnew : name ≠ new) : fs'.read name = fs.read name := by
  obtain ⟨k, -, hfiles, hhandle⟩ := OpenFiles.handle_rename h
  refine read_eq_of_handle_eq ?_ fun k _ ↦ by rw [hfiles]
  rw [hhandle, if_neg hnew, if_neg hold]

theorem read_rename_self {old new : UploadName} (h : fs.rename old new = some fs') :
    fs'.read new = fs.read old := by
  obtain ⟨k, hk, hfiles, hhandle⟩ := OpenFiles.handle_rename h
  rw [OpenFiles.read, OpenFiles.read, hhandle, if_pos rfl, hk, hfiles]

theorem read_write_self {name : UploadName} {f : UploadedFile → UploadedFile}
    (h : fs.handle name = some handle) :
    (fs.write handle f).read name = (fs.read name).map f := by
  have hhandle : (fs.write handle f).handle name = some handle := h
  rw [OpenFiles.read, OpenFiles.read, hhandle, h]
  exact OpenFiles.getElem?_write.trans (if_pos rfl)

theorem exists_read_of_read_write {name : UploadName} {f : UploadedFile → UploadedFile}
    {file : UploadedFile} (h : (fs.write handle f).read name = some file) :
    ∃ old, fs.read name = some old := by
  obtain ⟨k, hk, hfile⟩ := Option.bind_eq_some_iff.1 h
  have hk : fs.handle name = some k := hk
  rw [OpenFiles.getElem?_write] at hfile
  rw [OpenFiles.read, hk]
  split at hfile
  · obtain ⟨old, hold, -⟩ := Option.map_eq_some_iff.1 hfile
    exact ⟨old, hold⟩
  · exact ⟨file, hfile⟩

theorem tmp_ne {fileId : Text} (hne : fileStem fileId ≠ σ) :
    UploadName.tmp σ ≠ .tmp (fileStem fileId) := fun h ↦ hne (UploadName.tmp.inj h).symm

/-- The tasks of the file, when one of another is put. -/
theorem tasks_setTask {i : ℕ} {new : Option UploadTask}
    (hold : ∀ old, s.tasks i = some old → fileStem old.fileId ≠ σ)
    (hnew : ∀ task ∈ new, fileStem task.fileId ≠ σ) (j : ℕ) (task : UploadTask)
    (htask : fileStem task.fileId = σ) :
    (s.setTask i new).tasks j = some task ↔ s.tasks j = some task := by
  show Function.update s.tasks i new j = some task ↔ _
  rw [Function.update_apply]
  split
  · rename_i hj
    subst hj
    exact iff_of_false (fun h ↦ hnew task h htask) fun h ↦ hold task h htask
  · rfl

theorem untouched_of_went (h : s.Owned) {i : ℕ} {input : UploadInput} {task : UploadTask}
    (htask : s.tasks i = some task) (hne : fileStem task.fileId ≠ σ)
    (hwent : Went c s i input task t) : Untouched σ s t := by
  have hold : ∀ old, s.tasks i = some old → fileStem old.fileId ≠ σ := fun old h' ↦
    Option.some.inj (htask.symm.trans h') ▸ hne
  have hset : ∀ new : Option UploadTask, (∀ task' ∈ new, fileStem task'.fileId ≠ σ) →
      Untouched σ s (s.setTask i new) := fun new hnew ↦
    ⟨rfl, rfl, fun _ _ _ _ h ↦ h, rfl, fun _ h _ ↦ h, tasks_setTask hold hnew, id⟩
  have hsome : ∀ new : UploadTask, fileStem new.fileId ≠ σ → ∀ task' ∈ some new,
      fileStem task'.fileId ≠ σ := fun new hnew task' h' ↦ Option.some.inj h' ▸ hnew
  cases hwent with
  | opened now fileId chunkData chunkIsLast handle hhandle => exact hset _ (hsome _ hne)
  | created now fileId chunkData chunkIsLast hhandle =>
    refine ⟨?_, h.read_create (tmp_ne hne), fun dir fileId' file _ hread ↦ ?_, rfl,
      fun _ h _ ↦ h, tasks_setTask hold (hsome _ hne), id⟩
    · exact (OpenFiles.handle_create _).trans (if_neg (tmp_ne hne))
    · exact (h.read_create (by exact nofun)).symm.trans hread
  | wrote n now fileId handle rest chunkIsLast =>
    have hhandle := h.handles i _ htask _ _ _ _ rfl
    refine ⟨rfl, h.read_write hhandle (Ne.symm hne), fun dir fileId' file hstem hread ↦ ?_, rfl,
      fun _ h _ ↦ h, tasks_setTask hold (hsome _ hne), id⟩
    refine (h.read_write hhandle ?_).symm.trans hread
    exact fun heq ↦ hne (heq.symm.trans hstem)
  | ended fileId handle => exact hset _ fun _ h' ↦ nomatch h'
  | measured fileId handle file hread => exact hset _ (hsome _ hne)
  | hashed fileId size file hread => exact hset _ (hsome _ hne)
  | moved today fileId size hash fs hrename =>
    refine ⟨?_, read_rename hrename (tmp_ne hne) nofun, fun dir fileId' file hstem hread ↦ ?_, rfl,
      fun _ h _ ↦ h, tasks_setTask hold (hsome _ hne), id⟩
    · obtain ⟨k, -, -, hhandle⟩ := OpenFiles.handle_rename hrename
      have hne' : UploadName.tmp σ ≠ .tmp (fileStem fileId) := tmp_ne hne
      rw [hhandle, if_neg nofun, if_neg hne']
    · have htmp : UploadName.saved dir fileId' ≠ .tmp (fileStem fileId) := nofun
      have hsaved : UploadName.saved dir fileId' ≠ .saved today.parts fileId := by
        intro heq
        obtain ⟨-, rfl⟩ := UploadName.saved.inj heq
        exact hne hstem
      exact (read_rename hrename htmp hsaved).symm.trans hread
  | responded response =>
    refine ⟨rfl, rfl, fun _ _ _ _ h ↦ h, rfl, fun r hr hstem ↦ ?_,
      tasks_setTask hold fun _ h' ↦ (nomatch h'), id⟩
    rcases List.mem_append.1 hr with hr | hr
    · exact hr
    · obtain rfl := List.mem_singleton.1 hr
      exact absurd hstem hne
  | failed task => exact hset _ fun _ h' ↦ nomatch h'

/-! ### Steps for the file itself -/

/-- The answer is about these bytes. -/
def Answers (c : UploadConfig) (bytes : Bytes) (r : UploadFileResponse) : Prop :=
  r.size = bytes.length ∧ r.hash = c.sha256 bytes

/-- The file, and what a request still has to add, are what was sent. -/
def Progress (c : UploadConfig) (σ : Text) (s : UploadSystem) : UploadTask → Prop
  | .found _ chunkData _ =>
    ∃ file, s.fs.read (.tmp σ) = some file ∧ file.bytes ++ chunkData = s.sent σ
  | .writing _ handle rest _ => s.fs.handle (.tmp σ) = some handle ∧
    ∃ file, s.fs.read (.tmp σ) = some file ∧ file.bytes ++ rest = s.sent σ
  | .sized _ size =>
    ∃ file, s.fs.read (.tmp σ) = some file ∧ file.bytes = s.sent σ ∧ size = (s.sent σ).length
  | .hashed _ size hash =>
    ∃ file, s.fs.read (.tmp σ) = some file ∧ file.bytes = s.sent σ ∧ size = (s.sent σ).length ∧
      hash = c.sha256 (s.sent σ)
  | .renamed response => s.fs.handle (.tmp σ) = none ∧ Answers c (s.sent σ) response

structure Whole (c : UploadConfig) (σ : Text) (s : UploadSystem) : Prop where
  one : ∀ i j task task', s.tasks i = some task → s.tasks j = some task' →
    fileStem task.fileId = σ → fileStem task'.fileId = σ → i = j
  idle : s.Idle σ → ∀ file, s.fs.read (.tmp σ) = some file → file.bytes = s.sent σ
  busy : ∀ i task, s.tasks i = some task → fileStem task.fileId = σ → s.Progress c σ task
  saved : ∀ dir fileId file, fileStem fileId = σ → s.fs.read (.saved dir fileId) = some file →
    file.bytes = s.sent σ ∧ s.fs.handle (.tmp σ) = none
  responses : ∀ r ∈ s.responses, fileStem r.fileId = σ →
    Answers c (s.sent σ) r ∧ s.fs.handle (.tmp σ) = none
  fresh : σ ∉ s.prepared → s.sent σ = [] ∧ ∀ r ∈ s.responses, fileStem r.fileId ≠ σ

theorem whole_start : start.Whole c σ where
  one _ _ _ _ h := nomatch h
  idle _ _ h := nomatch h
  busy _ _ h := nomatch h
  saved _ _ _ _ h := nomatch h
  responses _ h := nomatch h
  fresh _ := ⟨rfl, fun _ h ↦ nomatch h⟩

theorem Progress.of_untouched {task : UploadTask} (h : s.Progress c σ task)
    (hsame : Untouched σ s t) : t.Progress c σ task := by
  obtain ⟨hhandle, hread, -, hsent, -⟩ := hsame
  cases task with
  | found => exact show ∃ _, _ by rw [hread, hsent]; exact h
  | writing => exact show _ ∧ _ by rw [hread, hsent, hhandle]; exact h
  | sized => exact show ∃ _, _ by rw [hread, hsent]; exact h
  | hashed => exact show ∃ _, _ by rw [hread, hsent]; exact h
  | renamed => exact show _ ∧ _ by rw [hsent, hhandle]; exact h

theorem Whole.of_untouched (h : s.Whole c σ) (hsame : Untouched σ s t) : t.Whole c σ := by
  have htasks := hsame.tasks
  refine ⟨fun i j task task' hi hj hstem hstem' ↦ ?_, fun hidle file hread ↦ ?_,
    fun i task htask hstem ↦ ?_, fun dir fileId file hstem hread ↦ ?_, fun r hr hstem ↦ ?_,
    fun hfresh ↦ ?_⟩
  · exact h.one i j task task' ((htasks i task hstem).1 hi) ((htasks j task' hstem').1 hj) hstem
      hstem'
  · rw [hsame.sent]
    refine h.idle (fun i task htask hstem ↦ ?_) file (hsame.read ▸ hread)
    exact hidle i task ((htasks i task hstem).2 htask) hstem
  · exact (h.busy i task ((htasks i task hstem).1 htask) hstem).of_untouched hsame
  · rw [hsame.sent, hsame.handle]
    exact h.saved dir fileId file hstem (hsame.saved dir fileId file hstem hread)
  · rw [hsame.sent, hsame.handle]
    exact h.responses r (hsame.responses r hr hstem) hstem
  · obtain ⟨hsent, hresponses⟩ := h.fresh fun hmem ↦ hfresh (hsame.prepared hmem)
    exact ⟨hsame.sent.trans hsent, fun r hr hstem ↦ hresponses r (hsame.responses r hr hstem) hstem⟩

/-- One request of the file goes on, starts or ends, and there is no other. -/
theorem whole_put {i : ℕ} {new : Option UploadTask}
    (hother : ∀ j task, j ≠ i → s.tasks j = some task → fileStem task.fileId ≠ σ)
    (htasks : t.tasks = Function.update s.tasks i new)
    (hnew : ∀ task ∈ new, fileStem task.fileId = σ ∧ t.Progress c σ task)
    (hidle : new = none → ∀ file, t.fs.read (.tmp σ) = some file → file.bytes = t.sent σ)
    (hsaved : ∀ dir fileId file, fileStem fileId = σ → t.fs.read (.saved dir fileId) = some file →
      file.bytes = t.sent σ ∧ t.fs.handle (.tmp σ) = none)
    (hresponses : ∀ r ∈ t.responses, fileStem r.fileId = σ →
      Answers c (t.sent σ) r ∧ t.fs.handle (.tmp σ) = none)
    (hprepared : σ ∈ t.prepared) : t.Whole c σ := by
  have hat : ∀ j task, t.tasks j = some task → fileStem task.fileId = σ → j = i := by
    intro j task hj hstem
    by_contra hne
    rw [htasks, Function.update_of_ne hne] at hj
    exact hother j task hne hj hstem
  refine ⟨fun j k task task' hj hk hstem hstem' ↦ ?_, fun hidle' file hread ↦ ?_,
    fun j task htask hstem ↦ ?_, hsaved, hresponses, fun hfresh ↦ absurd hprepared hfresh⟩
  · exact (hat j task hj hstem).trans (hat k task' hk hstem').symm
  · cases hn : new with
    | none => exact hidle hn file hread
    | some task =>
      refine absurd (hnew task hn).1 (hidle' i task ?_)
      rw [htasks, Function.update_self, hn]
  · obtain rfl := hat j task htask hstem
    rw [htasks, Function.update_self] at htask
    exact (hnew task htask).2

theorem Whole.went (h : s.Whole c σ) (howned : s.Owned) {i : ℕ} {input : UploadInput}
    {task : UploadTask} (htask : s.tasks i = some task) (hstem : fileStem task.fileId = σ)
    (hinput : input ≠ .failed) (hwent : Went c s i input task t) : t.Whole c σ := by
  have hprogress := h.busy i task htask hstem
  have hprepared := hstem ▸ howned.tasks i task htask
  have hother : ∀ j task', j ≠ i → s.tasks j = some task' → fileStem task'.fileId ≠ σ :=
    fun j task' hne hj hstem' ↦ hne (h.one j i task' task hj htask hstem' hstem)
  -- while the file is among the temporary ones, it is nowhere else
  have hnowhere : ∀ k, s.fs.handle (.tmp σ) = some k → ∀ dir fileId file, fileStem fileId = σ →
      s.fs.read (.saved dir fileId) ≠ some file := fun k hk dir fileId file hstem' hread ↦
    nomatch hk.symm.trans (h.saved dir fileId file hstem' hread).2
  have hunanswered : ∀ k, s.fs.handle (.tmp σ) = some k → ∀ r ∈ s.responses,
      fileStem r.fileId ≠ σ := fun k hk r hr hstem' ↦
    nomatch hk.symm.trans (h.responses r hr hstem').2
  cases hwent with
  | opened now fileId chunkData chunkIsLast handle hhandle =>
    subst hstem
    refine whole_put hother rfl (fun task' h' ↦ ?_) nofun h.saved h.responses hprepared
    obtain rfl := Option.some.inj h'
    exact ⟨rfl, hhandle, hprogress⟩
  | created now fileId chunkData chunkIsLast hhandle =>
    subst hstem
    obtain ⟨file, hread, -⟩ := hprogress
    obtain ⟨k, hk, -⟩ := Option.bind_eq_some_iff.1 hread
    cases hhandle.symm.trans hk
  | wrote n now fileId handle rest chunkIsLast =>
    subst hstem
    obtain ⟨hhandle, file, hread, hbytes⟩ := hprogress
    refine whole_put hother rfl (fun task' h' ↦ ?_) nofun (fun dir fileId' file' hstem' hread' ↦ ?_)
      (fun r hr hstem' ↦ absurd hstem' (hunanswered handle hhandle r hr)) hprepared
    · obtain rfl := Option.some.inj h'
      refine ⟨rfl, hhandle, _, (read_write_self hhandle).trans (congrArg _ hread), ?_⟩
      show file.bytes ++ rest.take n ++ rest.drop n = s.sent _
      rw [List.append_assoc, List.take_append_drop]
      exact hbytes
    · obtain ⟨file'', hread''⟩ := exists_read_of_read_write hread'
      exact absurd hread'' (hnowhere handle hhandle dir fileId' file'' hstem')
  | ended fileId handle =>
    subst hstem
    obtain ⟨-, file, hread, hbytes⟩ := hprogress
    refine whole_put hother rfl (fun _ h' ↦ nomatch h') (fun _ file' hread' ↦ ?_) h.saved
      h.responses hprepared
    obtain rfl := Option.some.inj (hread.symm.trans hread')
    rw [List.append_nil] at hbytes
    exact hbytes
  | measured fileId handle file hread =>
    subst hstem
    obtain ⟨-, file', hread', hbytes⟩ := hprogress
    obtain rfl := Option.some.inj (hread.symm.trans hread')
    rw [List.append_nil] at hbytes
    refine whole_put hother rfl (fun task' h' ↦ ?_) nofun h.saved h.responses hprepared
    obtain rfl := Option.some.inj h'
    exact ⟨rfl, file, hread, hbytes, congrArg List.length hbytes⟩
  | hashed fileId size file hread =>
    subst hstem
    obtain ⟨file', hread', hbytes, hsize⟩ := hprogress
    obtain rfl := Option.some.inj (hread.symm.trans hread')
    refine whole_put hother rfl (fun task' h' ↦ ?_) nofun h.saved h.responses hprepared
    obtain rfl := Option.some.inj h'
    exact ⟨rfl, file, hread, hbytes, hsize, congrArg c.sha256 hbytes⟩
  | moved today fileId size hash fs hrename =>
    subst hstem
    obtain ⟨file, hread, hbytes, hsize, hhash⟩ := hprogress
    obtain ⟨k, hk, hfiles, hhandle⟩ := OpenFiles.handle_rename hrename
    have hgone : fs.handle (.tmp (fileStem fileId)) = none := by
      rw [hhandle, if_neg nofun, if_pos rfl]
    refine whole_put hother rfl (fun task' h' ↦ ?_) nofun (fun dir fileId' file' hstem' hread' ↦ ?_)
      (fun r hr hstem' ↦ absurd hstem' (hunanswered k hk r hr)) hprepared
    · obtain rfl := Option.some.inj h'
      exact ⟨rfl, hgone, hsize, hhash⟩
    · refine ⟨?_, hgone⟩
      by_cases hsame : UploadName.saved dir fileId' = .saved today.parts fileId
      · have hself := (read_rename_self hrename).symm.trans (hsame ▸ hread')
        obtain rfl := Option.some.inj (hread.symm.trans hself)
        exact hbytes
      · have hold : UploadName.saved dir fileId' ≠ .tmp (fileStem fileId) := nofun
        rw [read_rename hrename hold hsame] at hread'
        exact absurd hread' (hnowhere k hk dir fileId' file' hstem')
  | responded response =>
    subst hstem
    obtain ⟨hhandle, hanswers⟩ := hprogress
    refine whole_put hother rfl (fun _ h' ↦ nomatch h') (fun _ file hread ↦ ?_) h.saved
      (fun r hr hstem' ↦ ?_) hprepared
    · obtain ⟨k, hk, -⟩ := Option.bind_eq_some_iff.1 hread
      cases hhandle.symm.trans hk
    · rcases List.mem_append.1 hr with hr | hr
      · exact h.responses r hr hstem'
      · obtain rfl := List.mem_singleton.1 hr
        exact ⟨hanswers, hhandle⟩
  | failed task => exact absurd rfl hinput

theorem read_remove {gone : UploadName → ℕ → Bool} {name : UploadName} {file : UploadedFile}
    (h : (fs.remove gone).read name = some file) : fs.read name = some file := by
  obtain ⟨k, hk, hfile⟩ := Option.bind_eq_some_iff.1 h
  have hk := (OpenFiles.handle_remove.1 hk).1
  rw [OpenFiles.read, hk]
  exact hfile

theorem handle_remove_eq {gone : UploadName → ℕ → Bool} {name : UploadName}
    (h : ∀ k, fs.handle name = some k → gone name k = false) :
    (fs.remove gone).handle name = fs.handle name :=
  Option.ext fun k ↦ OpenFiles.handle_remove.trans (and_iff_left_of_imp (h k))

/-- Files are removed, and this one is not, or only from the directory of a day. -/
theorem untouched_remove {gone : UploadName → ℕ → Bool}
    (h : ∀ k, s.fs.handle (.tmp σ) = some k → gone (.tmp σ) k = false) :
    Untouched σ s { s with fs := s.fs.remove gone } :=
  ⟨handle_remove_eq h, read_eq_of_handle_eq (handle_remove_eq h) fun _ _ ↦ rfl,
    fun _ _ _ _ hread ↦ read_remove hread, rfl, fun _ h _ ↦ h, fun _ _ _ ↦ Iff.rfl, id⟩

/-- The new file is empty. -/
theorem whole_prepare (h : s.Whole c σ) (howned : s.Owned) (hfresh : σ ∉ s.prepared) (now : ℤ) :
    Whole c σ { s with
      fs := s.fs.create (.tmp σ) ⟨[], now, σ⟩
      prepared := σ :: s.prepared } := by
  obtain ⟨hsent, hresponses⟩ := h.fresh hfresh
  have hidle : s.Idle σ := fun i task htask hstem ↦ hfresh (hstem ▸ howned.tasks i task htask)
  refine ⟨fun i _ task _ htask _ hstem _ ↦ absurd hstem (hidle i task htask),
    fun _ file hread ↦ ?_, fun i task htask hstem ↦ absurd hstem (hidle i task htask),
    fun dir fileId file hstem hread ↦ ?_, fun r hr hstem ↦ absurd hstem (hresponses r hr),
    fun h ↦ absurd List.mem_cons_self h⟩
  · obtain ⟨k, hk, hfile⟩ := Option.bind_eq_some_iff.1 hread
    rw [OpenFiles.handle_create, if_pos rfl] at hk
    obtain rfl := Option.some.inj hk
    obtain rfl := Option.some.inj (List.getElem?_concat_length.symm.trans hfile)
    exact hsent.symm
  · obtain ⟨k, hk, -⟩ := Option.bind_eq_some_iff.1 hread
    rw [OpenFiles.handle_create, if_neg nofun] at hk
    exact absurd (hstem ▸ howned.prepared _ k hk) hfresh

/-- A chunk comes for a file that no other request is about. -/
theorem whole_request (h : s.Whole c σ) (howned : s.Owned) (hidle : s.Idle σ) {i k : ℕ}
    {fileId : Text} (hstem : fileStem fileId = σ) (hk : s.fs.handle (.tmp σ) = some k)
    (chunkData : Bytes) (chunkIsLast : Bool) :
    Whole c σ { s.setTask i (some (.found fileId chunkData chunkIsLast)) with
      sent := Function.update s.sent σ (s.sent σ ++ chunkData) } := by
  refine whole_put (fun j task _ htask ↦ hidle j task htask) rfl (fun task h' ↦ ?_) nofun
    (fun dir fileId' file hstem' hread ↦ ?_) (fun r hr hstem' ↦ ?_) (howned.prepared _ k hk)
  · obtain rfl := Option.some.inj h'
    obtain ⟨file, hfile, -⟩ := howned.names _ k hk
    have hread : s.fs.read (.tmp σ) = some file := by rw [OpenFiles.read, hk]; exact hfile
    refine ⟨hstem, file, hread, ?_⟩
    show file.bytes ++ chunkData = Function.update s.sent σ (s.sent σ ++ chunkData) σ
    rw [Function.update_self, h.idle hidle file hread]
  · cases hk.symm.trans (h.saved dir fileId' file hstem' hread).2
  · cases hk.symm.trans (h.responses r hr hstem').2

theorem Whole.step (h : s.Whole c σ) (howned : s.Owned) (hserial : Serial c σ s a)
    (hstep : s.step c a = some t) : t.Whole c σ := by
  cases a with
  | prepare uuid now =>
    rw [UploadSystem.step, Option.ite_none_right_eq_some] at hstep
    obtain ⟨hfresh, hstep⟩ := hstep
    obtain rfl := Option.some.inj hstep
    by_cases hstem : fileStem uuid = σ
    · subst hstem
      exact whole_prepare h howned (fun hmem ↦ hfresh _ hmem rfl) now
    · refine h.of_untouched ⟨?_, howned.read_create (tmp_ne hstem),
        fun dir fileId file _ hread ↦ ?_, rfl, fun _ h _ ↦ h, fun _ _ _ ↦ Iff.rfl,
        List.mem_cons_of_mem _⟩
      · exact (OpenFiles.handle_create _).trans (if_neg (tmp_ne hstem))
      · exact (howned.read_create fun h ↦ by cases h).symm.trans hread
  | request i fileId chunkData chunkIsLast =>
    rw [UploadSystem.step, Option.ite_none_right_eq_some] at hstep
    obtain ⟨hfree, hstep⟩ := hstep
    obtain rfl := Option.some.inj hstep
    split
    · rename_i hfound
      obtain ⟨k, hk⟩ := Option.isSome_iff_exists.1 hfound.2
      by_cases hstem : fileStem fileId = σ
      · subst hstem
        exact whole_request h howned (hserial rfl) rfl hk chunkData chunkIsLast
      · refine h.of_untouched ⟨rfl, rfl, fun _ _ _ _ h ↦ h,
          Function.update_of_ne (Ne.symm hstem) _ _, fun _ h _ ↦ h,
          tasks_setTask (fun old hold ↦ ?_) fun task h' ↦ ?_, id⟩
        · cases hfree.symm.trans hold
        · obtain rfl := Option.some.inj h'
          exact hstem
    · exact h
  | run i input =>
    obtain ⟨task, htask, hadvance⟩ := Option.bind_eq_some_iff.1 hstep
    by_cases hstem : fileStem task.fileId = σ
    · refine h.went howned htask hstem ?_ (UploadSystem.went hadvance)
      rintro rfl
      exact hserial task htask hstem
    · exact h.of_untouched (untouched_of_went howned htask hstem (UploadSystem.went hadvance))
  | cleanTempFiles now =>
    obtain rfl := Option.some.inj hstep
    by_cases hgone : ∃ file, s.fs.read (.tmp σ) = some file ∧ c.timedOut now file = true
    · obtain ⟨file, hread, htimedOut⟩ := hgone
      have hidle : s.Idle σ := hserial file hread htimedOut
      refine ⟨h.one, fun _ file' hread' ↦ h.idle hidle file' (read_remove hread'),
        fun i task htask hstem ↦ absurd hstem (hidle i task htask),
        fun dir fileId file' hstem hread' ↦ ?_, fun r hr hstem ↦ ?_, h.fresh⟩
      · obtain ⟨hbytes, hnone⟩ := h.saved dir fileId file' hstem (read_remove hread')
        exact ⟨hbytes, (handle_remove_eq fun k hk ↦ by cases hnone.symm.trans hk).trans hnone⟩
      · obtain ⟨hanswers, hnone⟩ := h.responses r hr hstem
        exact ⟨hanswers, (handle_remove_eq fun k hk ↦ by cases hnone.symm.trans hk).trans hnone⟩
    · refine h.of_untouched (untouched_remove fun k hk ↦ ?_)
      refine Bool.eq_false_iff.2 fun hany ↦ hgone ?_
      obtain ⟨file, hfile, htimedOut⟩ := (Option.any_eq_true _ _).1 hany
      exact ⟨file, by rw [OpenFiles.read, hk]; exact hfile, htimedOut⟩
  | cleanFiles today =>
    obtain rfl := Option.some.inj hstep
    exact h.of_untouched (untouched_remove fun _ _ ↦ rfl)

/-! ### Runs -/

theorem whole_of_run {as : List UploadAction} (hserial : Along (step c) (Serial c σ) start as)
    (hrun : run (step c) start as = some s) : s.Owned ∧ s.Whole c σ :=
  run_induction_along (I := fun u ↦ u.Owned ∧ u.Whole c σ)
    (fun _ _ _ h hserial hstep ↦ ⟨h.1.step hstep, h.2.step h.1 hserial hstep⟩)
    ⟨owned_start, whole_start⟩ hserial hrun

/-- The second of January 2024. -/
def january2 : Calendar.Date := ⟨2024, 1, 2, by decide⟩

def ninetyDays : UploadConfig := ⟨300, 90, fun bytes ↦ toString bytes.length⟩

/-- A file is uploaded while a request for another one is on its way. -/
def twoFiles : List UploadAction :=
  [.prepare ['a'] 0, .prepare ['b'] 0, .request 0 ['a'] [1, 2] true, .request 1 ['b'] [9] false,
    .run 0 (.opened 0), .run 0 (.wrote 1 0), .run 1 (.opened 0), .run 1 (.wrote 1 0),
    .run 0 (.wrote 1 0), .run 0 .metadata, .run 0 .sha256File, .run 0 (.renamed january2),
    .run 0 .responded]

theorem along_twoFiles : Along (step ninetyDays) (Serial ninetyDays ['a']) start twoFiles := by
  refine along_cons rfl trivial (along_cons rfl trivial (along_cons rfl ?_ ?_))
  · intro _ i task h
    have h : none = some task := h
    cases h
  refine along_cons rfl (fun h ↦ absurd h (by decide)) (along_cons rfl trivial ?_)
  refine along_cons rfl trivial (along_cons rfl trivial (along_cons rfl trivial ?_))
  refine along_cons rfl trivial (along_cons rfl trivial (along_cons rfl trivial ?_))
  exact along_cons rfl trivial (along_cons rfl trivial (along_nil _))

end UploadSystem

end VoceChat
