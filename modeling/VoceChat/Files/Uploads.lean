import VoceChat.Foundations.Calendar
import VoceChat.Foundations.LexicalPath
import VoceChat.Foundations.Machine
import VoceChat.Foundations.OpenFiles
import VoceChat.Foundations.Run

/-!
# Uploads (`src/api/resource.rs`, `src/api/bot.rs`, `src/state.rs`)

A file is uploaded in chunks: `upload_file_prepare` makes an empty file under a new id, every chunk
is appended to it, and with the last one its size and its hash are taken and it is moved to the
directory of the day. Requests run at the same time, and so does the cleaning up; each goes to the
file system several times, and has the file open while it writes.

A name in the directory for temporary files is the id with its extension replaced, so what is before
the last dot counts (`fileStem`). Texts with a slash lead to other directories; they are the subject
of `FileEndpoint`. The metadata next to a file, and the thumbnail of an image, are left out: a
request that fails for them is one that fails.
-/

namespace VoceChat

open Machine LexicalPath

/-- A file in the directory for temporary files, or in one below the directory for files. -/
inductive UploadName where
  | tmp (stem : Text)
  | saved (dir : List String) (fileId : Text)
  deriving DecidableEq

/-- What is before the last dot of the id. -/
def UploadName.stem : UploadName → Text
  | tmp stem => stem
  | saved _ fileId => fileStem fileId

structure UploadedFile where
  bytes : Bytes
  modified : ℤ
  /-- What it was uploaded as. -/
  stem : Text
  deriving DecidableEq

/-- `UploadFileResponse`, with the date that its path begins with. -/
structure UploadFileResponse where
  date : Calendar.Date
  fileId : Text
  size : ℕ
  hash : String
  deriving DecidableEq

/-- A request on its way. -/
inductive UploadTask where
  /-- The file is there. -/
  | found (fileId : Text) (chunkData : Bytes) (chunkIsLast : Bool)
  /-- The file is open, and this is still to be written. -/
  | writing (fileId : Text) (handle : ℕ) (rest : Bytes) (chunkIsLast : Bool)
  | sized (fileId : Text) (size : ℕ)
  | hashed (fileId : Text) (size : ℕ) (hash : String)
  | renamed (response : UploadFileResponse)
  deriving DecidableEq

def UploadTask.fileId : UploadTask → Text
  | found fileId _ _ | writing fileId _ _ _ | sized fileId _ | hashed fileId _ _ => fileId
  | renamed response => response.fileId

/-- What a request goes on with. -/
inductive UploadInput where
  | opened (now : ℤ)
  /-- So many bytes are written. -/
  | wrote (n : ℕ) (now : ℤ)
  /-- The chunk is not the last. -/
  | ended
  | metadata
  | sha256File
  | renamed (today : Calendar.Date)
  | responded
  | failed

inductive UploadAction where
  | prepare (uuid : Text) (now : ℤ)
  | request (i : ℕ) (fileId : Text) (chunkData : Bytes) (chunkIsLast : Bool)
  | run (i : ℕ) (input : UploadInput)
  | cleanTempFiles (now : ℤ)
  | cleanFiles (today : Calendar.Date)

structure UploadConfig where
  uploadTimeoutSeconds : ℤ
  fileExpiryDays : ℤ
  /-- The hash of a file, in hexadecimal. -/
  sha256 : Bytes → String

structure UploadSystem where
  fs : OpenFiles UploadName UploadedFile
  tasks : ℕ → Option UploadTask
  /-- Ids are not given twice. -/
  prepared : List Text
  /-- The chunks that were accepted, one after the other. -/
  sent : Text → Bytes
  responses : List UploadFileResponse

namespace UploadConfig

variable (c : UploadConfig)

/-- `clean_temp_files` removes the file. -/
def timedOut (now : ℤ) (file : UploadedFile) : Bool :=
  now > file.modified + c.uploadTimeoutSeconds

/-- `clean_file_dir` removes the directory. -/
def expired (today : Calendar.Date) (dir : List String) : Bool :=
  (Calendar.ofParts dir).any fun date ↦ today.dayNumber - date.dayNumber > c.fileExpiryDays

end UploadConfig

namespace UploadSystem

variable (c : UploadConfig)

def start : UploadSystem := ⟨.empty, fun _ ↦ none, [], fun _ ↦ [], []⟩

def setTask (s : UploadSystem) (i : ℕ) (task : Option UploadTask) : UploadSystem :=
  { s with tasks := Function.update s.tasks i task }

/-- The step of a request. -/
def advance (s : UploadSystem) (i : ℕ) : UploadInput → UploadTask → Option UploadSystem
  -- the file is made again if it is gone meanwhile
  | .opened now, .found fileId chunkData chunkIsLast =>
    match s.fs.handle (.tmp (fileStem fileId)) with
    | some handle => some (s.setTask i (some (.writing fileId handle chunkData chunkIsLast)))
    | none => some
      { s.setTask i (some (.writing fileId s.fs.files.length chunkData chunkIsLast)) with
        fs := s.fs.create (.tmp (fileStem fileId)) ⟨[], now, fileStem fileId⟩ }
  | .wrote n now, .writing fileId handle rest chunkIsLast => some
    { s.setTask i (some (.writing fileId handle (rest.drop n) chunkIsLast)) with
      fs := s.fs.write handle fun file ↦
        { file with bytes := file.bytes ++ rest.take n, modified := now } }
  | .ended, .writing _ _ [] false => some (s.setTask i none)
  | .metadata, .writing fileId _ [] true =>
    (s.fs.read (.tmp (fileStem fileId))).map fun file ↦
      s.setTask i (some (.sized fileId file.bytes.length))
  | .sha256File, .sized fileId size =>
    (s.fs.read (.tmp (fileStem fileId))).map fun file ↦
      s.setTask i (some (.hashed fileId size (c.sha256 file.bytes)))
  | .renamed today, .hashed fileId size hash =>
    (s.fs.rename (.tmp (fileStem fileId)) (.saved today.parts fileId)).map fun fs ↦
      { s.setTask i (some (.renamed ⟨today, fileId, size, hash⟩)) with fs := fs }
  | .responded, .renamed response =>
    some { s.setTask i none with responses := s.responses ++ [response] }
  | .failed, _ => some (s.setTask i none)
  | _, _ => none

def step (s : UploadSystem) : UploadAction → Option UploadSystem
  | .prepare uuid now =>
    if ∀ prepared ∈ s.prepared, prepared ≠ fileStem uuid then
      some { s with
        fs := s.fs.create (.tmp (fileStem uuid)) ⟨[], now, fileStem uuid⟩
        prepared := fileStem uuid :: s.prepared }
    else none
  | .request i fileId chunkData chunkIsLast =>
    if s.tasks i = none then
      some (if fileId ≠ [] ∧ (s.fs.handle (.tmp (fileStem fileId))).isSome then
        { s.setTask i (some (.found fileId chunkData chunkIsLast)) with
          sent := Function.update s.sent (fileStem fileId) (s.sent (fileStem fileId) ++ chunkData) }
      else s)
    else none
  | .run i input => (s.tasks i).bind (s.advance c i input)
  | .cleanTempFiles now => some { s with
      fs := s.fs.remove fun name handle ↦
        match name with
        | .tmp _ => (s.fs.files[handle]?).any (c.timedOut now)
        | .saved .. => false }
  | .cleanFiles today => some { s with
      fs := s.fs.remove fun name _ ↦
        match name with
        | .tmp _ => false
        | .saved dir _ => c.expired today dir }

end UploadSystem

end VoceChat
