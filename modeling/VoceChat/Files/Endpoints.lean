import Mathlib.Data.Int.Notation
import VoceChat.Foundations.LexicalPath

/-!
# Files named by clients (`src/api/resource.rs`, `message.rs` and `favorite.rs`)

The endpoints take a path or an id from the client and join it to one of the server's directories.
The downloads and the archives refuse what is empty or has a `.`, the favorites what has a `.`; an
upload only refuses what is empty, and a file message and the deletion of a favorite refuse nothing.

Without a dot nothing leads upwards, but an absolute path needs none: `Path::join` puts it in place
of the directory. `contained_iff` says which texts are harmless: the relative ones that stay below
where they start. `harmless_iff_of_noDots` is the check that is missing behind the one for dots.

The directories are arbitrary, and so is what exists; a path is here what is given to the file
system, which may refuse it.
-/

namespace VoceChat

open LexicalPath

/-- The directories that texts of clients are joined to. `saved` and `savedThumbnail` are those of
the day, below `file` and `thumbnail`. -/
inductive Directory where
  | tmp
  | file
  | thumbnail
  | archiveMsg
  | favorite (uid : ℤ)
  | saved
  | savedThumbnail
  deriving DecidableEq

/-- The endpoints, with what else decides about the files. -/
inductive FileEndpoint where
  | uploadFile (chunkIsLast isImage : Bool)
  | downloadFile (thumbnail : Bool)
  | getArchiveIndex
  | getArchiveAttachment
  | fileMessage
  | favoriteDelete (uid : ℤ)
  | favoriteGetIndex (uid : ℤ)
  | favoriteGetArchiveAttachment (uid : ℤ)
  deriving DecidableEq

namespace FileEndpoint

/-- The handlers' checks of the text. -/
def accepts : FileEndpoint → Text → Bool
  | uploadFile _ _, text => !text.isEmpty
  | downloadFile _, text | getArchiveIndex, text | getArchiveAttachment, text =>
    !(text.isEmpty || text.contains '.')
  | favoriteGetIndex _, text | favoriteGetArchiveAttachment _, text => !text.contains '.'
  | fileMessage, _ | favoriteDelete _, _ => true

/-- A path that is opened, created or removed, and the directory it is meant to be in. -/
structure Touch where
  base : Path
  path : Path
  deriving DecidableEq

/-- The file of a text and the file with its metadata. -/
def withMeta (base : Path) (text : Text) : List Touch :=
  [⟨base, base.join text⟩, ⟨base, (base.join text).withExtension "meta".toList⟩]

/-- `upload_file` renames the last chunk's file to the day's directory and reads images there. -/
def uploadTouches (dir : Directory → Path) (present : Path → Bool) (text : Text)
    (chunkIsLast isImage : Bool) : List Touch :=
  let tmpFilePath := ((dir .tmp).join text).withExtension "data".toList
  if present tmpFilePath then
    ⟨dir .tmp, tmpFilePath⟩ ::
      if chunkIsLast then
        ⟨dir .tmp, tmpFilePath.withExtension "meta".toList⟩ ::
          (withMeta (dir .saved) text ++ if isImage then withMeta (dir .savedThumbnail) text
            else [])
      else []
  else []

/-- What an accepted text makes a handler open, create or remove. -/
def touches (dir : Directory → Path) (present : Path → Bool) (text : Text) :
    FileEndpoint → List Touch
  | uploadFile chunkIsLast isImage => uploadTouches dir present text chunkIsLast isImage
  | downloadFile thumbnail => withMeta (dir (if thumbnail then .thumbnail else .file)) text
  | getArchiveIndex => [⟨dir .archiveMsg, (dir .archiveMsg).join text⟩]
  | getArchiveAttachment =>
    let path := (dir .archiveMsg).join text
    if present path then [⟨dir .archiveMsg, path⟩] else []
  | fileMessage => withMeta (dir .file) text
  | favoriteDelete uid | favoriteGetArchiveAttachment uid =>
    let path := (dir (.favorite uid)).join text
    if present path then [⟨dir (.favorite uid), path⟩] else []
  | favoriteGetIndex uid => [⟨dir (.favorite uid), (dir (.favorite uid)).join text⟩]

/-- A text that the endpoint accepts only leads below the directories it is meant for. -/
def Contained (e : FileEndpoint) (text : Text) : Prop :=
  e.accepts text → ∀ dir present, ∀ touch ∈ e.touches dir present text,
    StrictlyInside touch.base touch.path

variable {e : FileEndpoint} {text : Text} {dir : Directory → Path} {present : Path → Bool}

/-! ### Harmless texts -/

theorem under_of_mem_withMeta {base : Path} {touch : Touch} (htext : Harmless text)
    (hmem : touch ∈ withMeta base text) : Under touch.base touch.path := by
  rcases List.mem_cons.1 hmem with rfl | hmem
  · exact htext.under base
  · obtain rfl := List.mem_singleton.1 hmem
    exact (htext.under base).withExtension _

theorem under_of_mem_uploadTouches {chunkIsLast isImage : Bool} {touch : Touch}
    (htext : Harmless text)
    (hmem : touch ∈ uploadTouches dir present text chunkIsLast isImage) :
    Under touch.base touch.path := by
  have htmp : Under (dir .tmp) (((dir .tmp).join text).withExtension "data".toList) :=
    (htext.under _).withExtension _
  rw [uploadTouches] at hmem
  split at hmem
  · rcases List.mem_cons.1 hmem with rfl | hmem
    · exact htmp
    · split at hmem
      · rcases List.mem_cons.1 hmem with rfl | hmem
        · exact htmp.withExtension _
        · rcases List.mem_append.1 hmem with hmem | hmem
          · exact under_of_mem_withMeta htext hmem
          · split at hmem
            · exact under_of_mem_withMeta htext hmem
            · cases hmem
      · cases hmem
  · cases hmem

theorem under_of_mem_present {base : Path} {touch : Touch} (htext : Harmless text)
    (hmem : touch ∈ if present (base.join text) then [Touch.mk base (base.join text)] else []) :
    Under touch.base touch.path := by
  split at hmem
  · obtain rfl := List.mem_singleton.1 hmem
    exact htext.under base
  · cases hmem

/-- A harmless text leads below the directory whatever the endpoint. -/
theorem under_of_mem_touches {touch : Touch} (htext : Harmless text)
    (hmem : touch ∈ e.touches dir present text) : Under touch.base touch.path := by
  cases e with
  | uploadFile chunkIsLast isImage => exact under_of_mem_uploadTouches htext hmem
  | downloadFile thumbnail => exact under_of_mem_withMeta htext hmem
  | fileMessage => exact under_of_mem_withMeta htext hmem
  | getArchiveIndex | favoriteGetIndex uid =>
    obtain rfl := List.mem_singleton.1 hmem
    exact htext.under _
  | getArchiveAttachment | favoriteDelete uid | favoriteGetArchiveAttachment uid =>
    exact under_of_mem_present htext hmem

/-! ### What every endpoint touches -/

/-- Where everything exists, every endpoint touches the text joined to one of its directories, as it
is or with the extension of an upload. -/
theorem exists_touch (e : FileEndpoint) (text : Text) :
    ∃ directory, ∃ rename : Path → Path, (rename = id ∨ rename = (·.withExtension "data".toList)) ∧
      ∀ dir, ⟨dir directory, rename ((dir directory).join text)⟩ ∈
        e.touches dir (fun _ ↦ true) text := by
  cases e with
  | uploadFile chunkIsLast isImage =>
    exact ⟨.tmp, (·.withExtension "data".toList), Or.inr rfl, fun dir ↦ List.mem_cons_self⟩
  | downloadFile thumbnail =>
    exact ⟨if thumbnail then .thumbnail else .file, id, Or.inl rfl, fun dir ↦ List.mem_cons_self⟩
  | fileMessage => exact ⟨.file, id, Or.inl rfl, fun dir ↦ List.mem_cons_self⟩
  | getArchiveIndex | getArchiveAttachment =>
    exact ⟨.archiveMsg, id, Or.inl rfl, fun dir ↦ List.mem_cons_self⟩
  | favoriteDelete uid | favoriteGetIndex uid | favoriteGetArchiveAttachment uid =>
    exact ⟨.favorite uid, id, Or.inl rfl, fun dir ↦ List.mem_cons_self⟩

theorem contained_of_harmless (h : e.accepts text → Harmless text) : e.Contained text :=
  fun haccepts _ _ _ hmem ↦ (under_of_mem_touches (h haccepts) hmem).strictlyInside

/-- With one base for all directories, and everything there. -/
theorem harmless_of_contained (h : e.Contained text) (haccepts : e.accepts text) :
    Harmless text := by
  obtain ⟨directory, rename, hrename, hmem⟩ := exists_touch e text
  have hinside : ∀ base : Path, StrictlyInside base (rename (base.join text)) :=
    fun base ↦ h haccepts (fun _ ↦ base) (fun _ ↦ true) _ (hmem fun _ ↦ base)
  rcases hrename with rfl | rfl
  · exact inside_join_iff.1 hinside
  · exact (inside_withExtension_iff _).1 hinside

/-- What an endpoint accepts is contained exactly if it is harmless. -/
theorem contained_iff (e : FileEndpoint) (text : Text) :
    e.Contained text ↔ (e.accepts text → Harmless text) :=
  ⟨harmless_of_contained, contained_of_harmless⟩

/-- For the endpoints that refuse dots and the empty text one check is missing. -/
theorem contained_downloadFile_iff (thumbnail : Bool) (text : Text) :
    (downloadFile thumbnail).Contained text ↔
      ((downloadFile thumbnail).accepts text → text.head? ≠ some '/') := by
  have hcontained : (downloadFile thumbnail).Contained text ↔
      ((downloadFile thumbnail).accepts text → Harmless text) :=
    ⟨harmless_of_contained, contained_of_harmless⟩
  rw [hcontained]
  refine forall_congr' fun haccepts ↦ ?_
  rw [accepts, Bool.not_eq_true', Bool.or_eq_false_iff] at haccepts
  refine harmless_iff_of_noDots (fun hnil ↦ ?_) (fun hdot ↦ ?_)
  · rw [hnil] at haccepts
    exact absurd haccepts.1 (by decide)
  · exact Bool.false_ne_true (haccepts.2.symm.trans (List.contains_iff_mem.2 hdot))

/-- An absolute path has no dot and is accepted by a download. -/
theorem not_forall_contained : ¬∀ (e : FileEndpoint) (text : Text), e.Contained text := by
  intro h
  have hharmless := (@inside_join_iff "/etc/passwd".toList).1 fun base ↦
    h (.downloadFile false) "/etc/passwd".toList (by decide) (fun _ ↦ base) (fun _ ↦ true) _
      List.mem_cons_self
  exact absurd hharmless (by decide)

end FileEndpoint

end VoceChat
