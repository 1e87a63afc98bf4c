import Mathlib.Data.List.Forall2
import VoceChat.Foundations.Decimal
import VoceChat.Foundations.LexicalPath
import VoceChat.Foundations.StableSort
import VoceChat.Message.Payload

/-!
# Archives of messages (`src/api/archive.rs`)

An archive has the messages of some ids, the users that they are from, and the files of both: the
avatars of the users, and the files and thumbnails of the messages. Users and files are referred to
by their position, which they are given while the messages are gone through one after the other.

What the loop has collected describes the messages gone through so far (`Collected.Describes`), and
goes on to do so when more is collected, since lists only grow at their ends. So in the archive each
position is the one of the right user or file.

The archive is written to a zip file, and read from it by two other functions. The JSON library and
the zip library are given by what they are relied on for: that data reads as what was written
(`Codec`), and a file by its name is the one of this name (`ZipLibrary`).
-/

namespace VoceChat

open Decimal Guards LexicalPath StableSort

namespace Archives

/-! ### The archive -/

structure ArchiveUser where
  name : String
  avatar : Option ℕ
  deriving DecidableEq

structure ArchiveMessageContent where
  properties : Option Json.Properties
  contentType : String
  content : Option String
  fileId : Option ℕ
  thumbnailId : Option ℕ

structure ArchiveMessage where
  fromUser : ℕ
  createdAt : ℤ
  mid : Int64
  source : MessageTarget
  content : ArchiveMessageContent

structure Archive where
  users : List ArchiveUser
  messages : List ArchiveMessage
  numAttachments : ℕ

/-- `ArchiveFile`, without its content: what is written as JSON, like a `FileMeta`. -/
structure FileMeta where
  contentType : String
  filename : Option String
  deriving DecidableEq

structure ArchiveFile (Data : Type) where
  info : FileMeta
  content : Data
  deriving DecidableEq

/-! ### What it is made from -/

structure CachedUser where
  name : String
  isAdmin : Bool
  deriving DecidableEq

/-- The cache, the message database, and the files. -/
structure Sources (Data : Type) where
  users : Int64 → Option CachedUser
  groups : Int64 → Option CacheGroup
  /-- `get_merged_message`. -/
  mergedMessage : Int64 → Except ApiError (Option MergedMessagePayload)
  avatarDir : Path
  fileDir : Path
  thumbnailDir : Path
  /-- `tokio::fs::read`. -/
  read : Path → Option Data
  /-- `from_slice::<FileMeta>`. -/
  parseMeta : Data → Option FileMeta
  /-- `Vec::default`. -/
  noData : Data

namespace Sources

variable {Data : Type} (src : Sources Data)

/-- The avatar of a user, if there is one. -/
def avatar (uid : Int64) : Option (ArchiveFile Data) :=
  (src.read (src.avatarDir.join (toString uid.toInt ++ ".png").toList)).map
    (ArchiveFile.mk ⟨"image/png", none⟩)

/-- What is known about the file of a message. -/
def fileMeta (content : String) : FileMeta :=
  ((src.read ((src.fileDir.join content.toList).withExtension "meta".toList)).bind
    src.parseMeta).getD ⟨"application/octet-stream", none⟩

/-- The file of a message. -/
def file (content : String) : ArchiveFile Data :=
  ⟨src.fileMeta content, (src.read (src.fileDir.join content.toList)).getD src.noData⟩

/-- The thumbnail, if there is one, under the type and name of the file. -/
def thumbnail (content : String) : Option (ArchiveFile Data) :=
  (src.read (src.thumbnailDir.join content.toList)).map (ArchiveFile.mk (src.fileMeta content))

/-- `allow`: a direct message from or to the user, or a message of a group that the user can see. -/
def allows (createByUid : Int64) (payload : MergedMessagePayload) : Bool :=
  match payload.target with
  | .user uid => uid == createByUid || payload.fromUid == createByUid
  | .group gid => ((src.groups gid).map fun group ↦ group.containsUser createByUid).getD false

end Sources

/-- `get_source`: of a direct message to the user, the user that it is from. -/
def getSource (createByUid : Int64) (payload : MergedMessagePayload) : MessageTarget :=
  match payload.target with
  | .user uid => if uid = createByUid then .user payload.fromUid else .user uid
  | .group gid => .group gid

/-! ### Going through the messages -/

/-- What the loop has collected. -/
structure Collected (Data : Type) where
  users : List ArchiveUser
  messages : List ArchiveMessage
  files : List (ArchiveFile Data)
  usersMap : Int64 → Option ℕ

namespace Collected

variable {Data : Type} (src : Sources Data)

def empty : Collected Data := ⟨[], [], [], fun _ ↦ none⟩

/-- A file is pushed, if there is one, and has the last position then. -/
def push (acc : Collected Data) : Option (ArchiveFile Data) → Collected Data × Option ℕ
  | some file =>
    let files := acc.files ++ [file]
    ({ acc with files := files }, some (files.length - 1))
  | none => (acc, none)

/-- `user_idx`. A user that is new is pushed, with the avatar. -/
def userIdx (acc : Collected Data) (uid : Int64) (user : CachedUser) : Collected Data × ℕ :=
  match acc.usersMap uid with
  | some idx => (acc, idx)
  | none =>
    let (acc, avatar) := acc.push (src.avatar uid)
    let users := acc.users ++ [⟨user.name, avatar⟩]
    ({ acc with
        users := users
        usersMap := Function.update acc.usersMap uid (some (users.length - 1)) }, users.length - 1)

/-- The content of a text, an envelope, or a file with its files pushed. -/
def content (acc : Collected Data) (content : ChatMessageContent) :
    Except ApiError (Collected Data × ArchiveMessageContent) :=
  if content.contentType = "text/plain" ∨ content.contentType = "text/markdown" ∨
      content.contentType = VoceChat.contentType then
    .ok (acc, ⟨content.properties, content.contentType, some content.content, none, none⟩)
  else if content.contentType = "vocechat/file" then
    let (acc, fileIdx) := acc.push (some (src.file content.content))
    let (acc, thumbnailId) := acc.push (src.thumbnail content.content)
    .ok (acc, ⟨content.properties, content.contentType, none, fileIdx, thumbnailId⟩)
  else .error (.fromStatus 400)

/-- One round of the loop. -/
def round (createByUid : Int64) (isAdmin : Bool) (acc : Collected Data) (mid : Int64) :
    Except ApiError (Collected Data) := do
  let payload ← okOr (← src.mergedMessage mid) (.fromStatus 404)
  ensure (isAdmin = true ∨ src.allows createByUid payload = true) (.fromStatus 403)
  let fromUser ← okOr (src.users payload.fromUid) (.fromStatus 400)
  let (acc, userIdx) := acc.userIdx src payload.fromUid fromUser
  let (acc, content) ← acc.content src payload.content
  let message : ArchiveMessage :=
    { fromUser := userIdx
      createdAt := payload.createdAt
      mid := mid
      source := getSource createByUid payload
      content := content }
  return { acc with messages := acc.messages ++ [message] }

end Collected

variable {Data File : Type}

/-- `internal_create_message_archive`. -/
def internalCreateMessageArchive (src : Sources Data) (midList : List Int64) (createByUid : Int64) :
    Except ApiError (Archive × List (ArchiveFile Data)) := do
  let user ← okOr (src.users createByUid) (.fromStatus 400)
  let acc ← (sortBy Int64.toInt midList).foldlM
    (Collected.round src createByUid user.isAdmin) Collected.empty
  return (⟨acc.users, acc.messages, acc.files.length⟩, acc.files)

/-! ### The zip file -/

/-- JSON of some type: what is written reads as what it was written from. -/
structure Codec (α Data : Type) where
  write : α → Data
  read : Data → Option α
  read_write : ∀ a, read (write a) = some a

/-- Zip files with entries by their names. -/
structure ZipLibrary (Data File : Type) where
  finish : List (String × Data) → Option File
  byName : File → String → Option Data
  byName_finish : ∀ {entries file}, (entries.map Prod.fst).Nodup → finish entries = some file →
    ∀ e ∈ entries, byName file e.1 = some e.2

/-- The libraries that archives are written and read with. -/
structure Libraries (Data File : Type) where
  index : Codec Archive Data
  info : Codec FileMeta Data
  zip : ZipLibrary Data File

def attachmentName (idx : ℕ) (extension : String) : String :=
  "attachment/" ++ decimal idx ++ extension

namespace Libraries

variable (lib : Libraries Data File)

/-- The entries of a file, with its position. -/
def fileEntries (file : ArchiveFile Data) (idx : ℕ) : List (String × Data) :=
  [(attachmentName idx ".data", file.content),
    (attachmentName idx ".meta", lib.info.write file.info)]

def entries (archive : Archive) (files : List (ArchiveFile Data)) : List (String × Data) :=
  ("index.json", lib.index.write archive) ::
    files.zipIdx.flatMap fun e ↦ lib.fileEntries e.1 e.2

def createMessageArchive (src : Sources Data) (midList : List Int64) (createByUid : Int64) :
    Except ApiError File := do
  let (archive, files) ← internalCreateMessageArchive src midList createByUid
  okOr (lib.zip.finish (lib.entries archive files)) .internal

/-- `extract_archive`, of the file at the path. -/
def extractArchive (file : Option File) : Except ApiError Archive := do
  let file ← okOr file (.fromStatus 404)
  let data ← okOr (lib.zip.byName file "index.json") .internal
  okOr (lib.index.read data) .internal

/-- `extract_archive_attachment`, of the file at the path. -/
def extractArchiveAttachment (file : Option File) (fileIdx : ℕ) :
    Except ApiError (ArchiveFile Data) := do
  let file ← okOr file (.fromStatus 404)
  let data ← okOr (lib.zip.byName file (attachmentName fileIdx ".meta")) .internal
  let info ← okOr (lib.info.read data) .internal
  let content ← okOr (lib.zip.byName file (attachmentName fileIdx ".data")) .internal
  return ⟨info, content⟩

end Libraries

/-! ### What positions refer to -/

/-- The position is that of the file, if there is one. -/
def RefersTo (files : List (ArchiveFile Data)) :
    Option ℕ → Option (ArchiveFile Data) → Prop :=
  Option.Rel fun idx file ↦ files[idx]? = some file

variable {src : Sources Data} {files files' : List (ArchiveFile Data)} {acc : Collected Data}
  {authors : List Int64} {createByUid : Int64}

theorem RefersTo.mono {idx : Option ℕ} {file : Option (ArchiveFile Data)}
    (h : RefersTo files idx file) (hfiles : files <+: files') : RefersTo files' idx file := by
  obtain ⟨rest, rfl⟩ := hfiles
  cases h with
  | none => exact .none
  | some h =>
    refine .some ?_
    rw [List.getElem?_append_left (List.getElem?_eq_some_iff.1 h).1]
    exact h

theorem RefersTo.lt {idx : ℕ} {file : Option (ArchiveFile Data)}
    (h : RefersTo files (some idx) file) : idx < files.length := by
  cases h with
  | some h => exact (List.getElem?_eq_some_iff.1 h).1

/-- The entry of a user. -/
def DescribesUser (src : Sources Data) (files : List (ArchiveFile Data)) (uid : Int64)
    (entry : ArchiveUser) : Prop :=
  ∃ user, src.users uid = some user ∧ entry.name = user.name ∧
    RefersTo files entry.avatar (src.avatar uid)

/-- The content of an entry: a file, by its position, or a text. -/
structure DescribesContent (src : Sources Data) (files : List (ArchiveFile Data))
    (body : ChatMessageContent) (entry : ArchiveMessageContent) : Prop where
  properties : entry.properties = body.properties
  contentType : entry.contentType = body.contentType
  content : entry.content = if body.contentType = "vocechat/file" then none else some body.content
  file : RefersTo files entry.fileId
    (if body.contentType = "vocechat/file" then some (src.file body.content) else none)
  thumbnail : RefersTo files entry.thumbnailId
    (if body.contentType = "vocechat/file" then src.thumbnail body.content else none)

/-- The entry of a message. -/
structure DescribesMessage (src : Sources Data) (createByUid : Int64) (authors : List Int64)
    (files : List (ArchiveFile Data)) (mid : Int64) (entry : ArchiveMessage)
    (payload : MergedMessagePayload) : Prop where
  merged : src.mergedMessage mid = .ok (some payload)
  mid : entry.mid = mid
  createdAt : entry.createdAt = payload.createdAt
  source : entry.source = getSource createByUid payload
  author : authors[entry.fromUser]? = some payload.fromUid
  content : DescribesContent src files payload.content entry.content

theorem DescribesUser.mono {uid : Int64} {entry : ArchiveUser}
    (h : DescribesUser src files uid entry) (hfiles : files <+: files') :
    DescribesUser src files' uid entry := by
  obtain ⟨user, huser, hname, havatar⟩ := h
  exact ⟨user, huser, hname, havatar.mono hfiles⟩

theorem DescribesContent.mono {body : ChatMessageContent} {entry : ArchiveMessageContent}
    (h : DescribesContent src files body entry) (hfiles : files <+: files') :
    DescribesContent src files' body entry :=
  { h with file := h.file.mono hfiles, thumbnail := h.thumbnail.mono hfiles }

theorem DescribesMessage.mono {mid : Int64} {entry : ArchiveMessage}
    {payload : MergedMessagePayload} {authors' : List Int64}
    (h : DescribesMessage src createByUid authors files mid entry payload)
    (hauthors : authors <+: authors') (hfiles : files <+: files') :
    DescribesMessage src createByUid authors' files' mid entry payload := by
  refine { h with author := ?_, content := h.content.mono hfiles }
  obtain ⟨rest, rfl⟩ := hauthors
  rw [List.getElem?_append_left (List.getElem?_eq_some_iff.1 h.author).1]
  exact h.author

/-! ### What has been collected -/

namespace Collected

/-- The users so far are these. -/
structure Lists (src : Sources Data) (acc : Collected Data) (authors : List Int64) : Prop where
  nodup : authors.Nodup
  usersMap : ∀ uid idx, acc.usersMap uid = some idx ↔ authors[idx]? = some uid
  users : List.Forall₂ (DescribesUser src acc.files) authors acc.users

theorem files_push (acc : Collected Data) (file : Option (ArchiveFile Data)) :
    acc.files <+: (acc.push file).1.files ∧
    RefersTo (acc.push file).1.files (acc.push file).2 file := by
  cases file with
  | none => exact ⟨List.prefix_refl _, .none⟩
  | some file =>
    refine ⟨List.prefix_append _ _, .some ?_⟩
    rw [List.length_append, List.length_singleton, Nat.add_sub_cancel]
    exact List.getElem?_concat_length

@[simp] theorem users_push (file : Option (ArchiveFile Data)) :
    (acc.push file).1.users = acc.users := by
  cases file <;> rfl

@[simp] theorem messages_push (file : Option (ArchiveFile Data)) :
    (acc.push file).1.messages = acc.messages := by
  cases file <;> rfl

@[simp] theorem usersMap_push (file : Option (ArchiveFile Data)) :
    (acc.push file).1.usersMap = acc.usersMap := by
  cases file <;> rfl

theorem Lists.mono (h : acc.Lists src authors) {acc' : Collected Data}
    (husers : acc'.users = acc.users) (hmap : acc'.usersMap = acc.usersMap)
    (hfiles : acc.files <+: acc'.files) : acc'.Lists src authors := by
  refine ⟨h.nodup, fun uid idx ↦ ?_, ?_⟩
  · rw [hmap]
    exact h.usersMap uid idx
  · rw [husers]
    exact h.users.imp fun uid entry hentry ↦ hentry.mono hfiles

theorem getElem?_concat_eq_some {α : Type} {l : List α} {x a : α} {i : ℕ} :
    (l ++ [x])[i]? = some a ↔ l[i]? = some a ∨ i = l.length ∧ a = x := by
  rcases lt_trichotomy i l.length with hlt | rfl | hgt
  · rw [List.getElem?_append_left hlt]
    exact ⟨.inl, fun h ↦ h.resolve_right fun hlast ↦ hlt.ne hlast.1⟩
  · rw [List.getElem?_concat_length, List.getElem?_eq_none le_rfl, Option.some_inj]
    exact ⟨fun h ↦ .inr ⟨rfl, h.symm⟩, fun h ↦ (h.resolve_left fun hnone ↦ by cases hnone).2.symm⟩
  · have hlong : (l ++ [x]).length ≤ i := by
      rw [List.length_append, List.length_singleton]
      exact hgt
    rw [List.getElem?_eq_none hlong, List.getElem?_eq_none hgt.le]
    exact iff_of_false (fun h ↦ by cases h) fun h ↦ h.elim (fun h ↦ by cases h) fun h ↦ hgt.ne' h.1

/-- A user has a position then, and the other positions are what they were. -/
theorem Lists.userIdx (h : acc.Lists src authors) {uid : Int64} {user : CachedUser}
    (huser : src.users uid = some user) : ∃ authors', authors <+: authors' ∧
      (∀ a, a ∈ authors' ↔ a ∈ authors ∨ a = uid) ∧
      authors'[(acc.userIdx src uid user).2]? = some uid ∧
      (acc.userIdx src uid user).1.Lists src authors' ∧
      acc.files <+: (acc.userIdx src uid user).1.files ∧
      (acc.userIdx src uid user).1.messages = acc.messages := by
  unfold Collected.userIdx
  cases hidx : acc.usersMap uid with
  | some idx =>
    have hat := (h.usersMap uid idx).1 hidx
    refine ⟨authors, List.prefix_refl _, fun a ↦ ⟨.inl, ?_⟩, hat, h, List.prefix_refl _, rfl⟩
    rintro (ha | rfl)
    · exact ha
    · exact List.mem_of_getElem? hat
  | none =>
    obtain ⟨hfiles, havatar⟩ := acc.files_push (src.avatar uid)
    have hnew : uid ∉ authors := fun hmem ↦ by
      obtain ⟨idx, hat⟩ := List.getElem?_of_mem hmem
      rw [(h.usersMap uid idx).2 hat] at hidx
      cases hidx
    have hlast : ((acc.push (src.avatar uid)).1.users ++
        [(⟨user.name, (acc.push (src.avatar uid)).2⟩ : ArchiveUser)]).length - 1 =
        authors.length := by
      rw [users_push, List.length_append, List.length_singleton, Nat.add_sub_cancel,
        h.users.length_eq]
    refine ⟨authors ++ [uid], List.prefix_append _ _, fun a ↦ ?_, ?_, ⟨?_, fun a idx ↦ ?_, ?_⟩,
      hfiles, messages_push _⟩
    · rw [List.mem_append, List.mem_singleton]
    · show (authors ++ [uid])[_ - 1]? = some uid
      rw [hlast]
      exact List.getElem?_concat_length
    · exact List.nodup_append.2 ⟨h.nodup, List.nodup_singleton _, fun a ha b hb heq ↦
        hnew (List.mem_singleton.1 hb ▸ heq ▸ ha)⟩
    · show Function.update (acc.push (src.avatar uid)).1.usersMap uid (some (_ - 1)) a =
        some idx ↔ _
      rw [hlast, usersMap_push, Function.update_apply, getElem?_concat_eq_some]
      split
      · rename_i ha
        subst ha
        rw [Option.some_inj]
        refine ⟨fun heq ↦ .inr ⟨heq.symm, rfl⟩, fun hor ↦ ?_⟩
        exact (hor.resolve_left fun hat ↦ hnew (List.mem_of_getElem? hat)).1.symm
      · rename_i ha
        rw [h.usersMap a idx, or_iff_left fun hboth ↦ ha hboth.2]
    · show List.Forall₂ _ _ ((acc.push (src.avatar uid)).1.users ++ _)
      rw [users_push]
      refine List.rel_append (h.users.imp fun a entry hentry ↦ hentry.mono hfiles) ?_
      exact .cons ⟨user, huser, rfl, havatar⟩ .nil

theorem content_eq_ok {body : ChatMessageContent} {acc' : Collected Data}
    {entry : ArchiveMessageContent} (h : acc.content src body = .ok (acc', entry)) :
    acc'.users = acc.users ∧ acc'.messages = acc.messages ∧ acc'.usersMap = acc.usersMap ∧
      acc.files <+: acc'.files ∧ DescribesContent src acc'.files body entry := by
  unfold Collected.content at h
  split at h
  · rename_i htext
    obtain ⟨rfl, rfl⟩ := Prod.mk.inj (Except.ok.inj h)
    have hfile : body.contentType ≠ "vocechat/file" := by
      rintro heq
      rw [heq] at htext
      revert htext
      decide
    refine ⟨rfl, rfl, rfl, List.prefix_refl _, rfl, rfl, ?_, ?_, ?_⟩
    · rw [if_neg hfile]
    · rw [if_neg hfile]
      exact .none
    · rw [if_neg hfile]
      exact .none
  · split at h
    · rename_i hfile
      obtain ⟨rfl, rfl⟩ := Prod.mk.inj (Except.ok.inj h)
      obtain ⟨hfiles, hidx⟩ := acc.files_push (some (src.file body.content))
      let next := (acc.push (some (src.file body.content))).1
      obtain ⟨hfiles', hidx'⟩ := next.files_push (src.thumbnail body.content)
      have husers : (next.push (src.thumbnail body.content)).1.users = next.users := users_push _
      have hmessages : (next.push (src.thumbnail body.content)).1.messages = next.messages :=
        messages_push _
      have hmap : (next.push (src.thumbnail body.content)).1.usersMap = next.usersMap :=
        usersMap_push _
      refine ⟨husers, hmessages, hmap, hfiles.trans hfiles', rfl, rfl, ?_, ?_, ?_⟩
      · rw [if_pos hfile]
      · rw [if_pos hfile]
        exact hidx.mono hfiles'
      · rw [if_pos hfile]
        exact hidx'
    · cases h

/-- What is collected describes these messages and their authors. -/
structure Describes (src : Sources Data) (createByUid : Int64) (isAdmin : Bool)
    (acc : Collected Data) (mids authors : List Int64) : Prop where
  lists : acc.Lists src authors
  mem_authors : ∀ uid, uid ∈ authors ↔
    ∃ mid ∈ mids, ∃ payload, src.mergedMessage mid = .ok (some payload) ∧ payload.fromUid = uid
  messages : List.Forall₂
    (fun mid entry ↦ ∃ payload,
      DescribesMessage src createByUid authors acc.files mid entry payload)
    mids acc.messages
  allowed : ∀ mid ∈ mids, ∃ payload, src.mergedMessage mid = .ok (some payload) ∧
    (isAdmin = true ∨ src.allows createByUid payload = true)

theorem describes_empty (src : Sources Data) (createByUid : Int64) (isAdmin : Bool) :
    Describes src createByUid isAdmin empty [] [] where
  lists := ⟨List.nodup_nil, fun _ _ ↦ iff_of_false (fun h ↦ by cases h) (fun h ↦ by cases h), .nil⟩
  mem_authors _ := iff_of_false List.not_mem_nil fun ⟨_, h, _⟩ ↦ List.not_mem_nil h
  messages := .nil
  allowed _ h := absurd h List.not_mem_nil

/-- One round describes one message more. -/
theorem Describes.round {isAdmin : Bool} {mids : List Int64}
    (h : acc.Describes src createByUid isAdmin mids authors) {mid : Int64} {acc' : Collected Data}
    (hround : acc.round src createByUid isAdmin mid = .ok acc') :
    ∃ authors', acc'.Describes src createByUid isAdmin (mids ++ [mid]) authors' := by
  simp only [Collected.round, bind_eq_ok, okOr_eq_ok, ensure_eq_ok, exists_unit,
    pure_eq_ok] at hround
  obtain ⟨found, hfound, payload, rfl, hallow, user, huser, ⟨last, entry⟩, hcontent, rfl⟩ := hround
  obtain ⟨authors', hauthors, hmem, hat, hlists, hfiles, hmessages⟩ := h.lists.userIdx huser
  obtain ⟨husers, hmessages', hmap, hfiles', hdescribes⟩ := content_eq_ok hcontent
  refine ⟨authors', hlists.mono husers hmap hfiles', fun uid ↦ ?_, ?_, fun m hm ↦ ?_⟩
  · rw [hmem, h.mem_authors]
    constructor
    · rintro (⟨m, hm, hfrom⟩ | rfl)
      · exact ⟨m, List.mem_append_left _ hm, hfrom⟩
      · exact ⟨mid, List.mem_append_right _ (List.mem_singleton_self _), payload, hfound, rfl⟩
    · rintro ⟨m, hm, other, hother, rfl⟩
      rcases List.mem_append.1 hm with hm | hm
      · exact .inl ⟨m, hm, other, hother, rfl⟩
      · rw [List.mem_singleton.1 hm, hfound] at hother
        obtain rfl := Option.some_inj.1 (Except.ok.inj hother)
        exact .inr rfl
  · show List.Forall₂ _ _ (last.messages ++ [_])
    rw [hmessages', hmessages]
    refine List.rel_append (h.messages.imp fun m e hentry ↦ ?_) ?_
    · obtain ⟨p, hp⟩ := hentry
      exact ⟨p, hp.mono hauthors (hfiles.trans hfiles')⟩
    · exact .cons ⟨payload, hfound, rfl, rfl, rfl, hat, hdescribes⟩ .nil
  · rcases List.mem_append.1 hm with hm | hm
    · exact h.allowed m hm
    · rw [List.mem_singleton.1 hm]
      exact ⟨payload, hfound, hallow⟩

/-- The loop describes all the messages it goes through. -/
theorem Describes.loop {isAdmin : Bool} {mids rest : List Int64}
    (h : acc.Describes src createByUid isAdmin mids authors) {acc' : Collected Data}
    (hloop : rest.foldlM (Collected.round src createByUid isAdmin) acc = .ok acc') :
    ∃ authors', acc'.Describes src createByUid isAdmin (mids ++ rest) authors' := by
  induction rest generalizing acc mids authors with
  | nil =>
    obtain rfl := pure_eq_ok.1 hloop
    rw [List.append_nil]
    exact ⟨authors, h⟩
  | cons mid rest ih =>
    rw [List.foldlM_cons, bind_eq_ok] at hloop
    obtain ⟨next, hnext, hrest⟩ := hloop
    obtain ⟨authors', hdescribes⟩ := h.round hnext
    have hall := ih hdescribes hrest
    rwa [List.append_assoc, List.singleton_append] at hall

end Collected

/-! ### The entries of the zip file -/

theorem toList_attachmentName (idx : ℕ) (extension : String) :
    (attachmentName idx extension).toList =
      "attachment/".toList ++ ((decimal idx).toList ++ extension.toList) := by
  rw [attachmentName, String.toList_append, String.toList_append, List.append_assoc]

theorem attachmentName_inj {i j : ℕ} {e e' : String} (hlength : e.toList.length = e'.toList.length)
    (h : attachmentName i e = attachmentName j e') : i = j ∧ e = e' := by
  have hlist := congrArg String.toList h
  rw [toList_attachmentName, toList_attachmentName, List.append_cancel_left_eq] at hlist
  obtain ⟨hidx, hextension⟩ := List.append_inj' hlist hlength
  exact ⟨decimal_inj (String.toList_inj.1 hidx), String.toList_inj.1 hextension⟩

theorem attachmentName_ne_index (idx : ℕ) (extension : String) :
    attachmentName idx extension ≠ "index.json" := by
  intro h
  have hhead := congrArg (fun name ↦ name.toList.head?) h
  simp only [toList_attachmentName, List.head?_append] at hhead
  have hfirst : "attachment/".toList.head? = some 'a' := by decide
  rw [hfirst] at hhead
  have hindex : some 'a' = "index.json".toList.head? := hhead
  revert hindex
  decide

namespace Libraries

variable (lib : Libraries Data File)

/-- The entries of these files, from a position on. -/
def attachments (files : List (ArchiveFile Data)) (start : ℕ) : List (String × Data) :=
  (files.zipIdx start).flatMap fun e ↦ lib.fileEntries e.1 e.2

theorem mem_names {start : ℕ} {name : String}
    (h : name ∈ (lib.attachments files start).map Prod.fst) :
    ∃ idx, start ≤ idx ∧
      (name = attachmentName idx ".data" ∨ name = attachmentName idx ".meta") := by
  obtain ⟨entry, hentry, rfl⟩ := List.mem_map.1 h
  obtain ⟨e, he, hmem⟩ := List.mem_flatMap.1 hentry
  refine ⟨e.2, List.le_snd_of_mem_zipIdx he, ?_⟩
  rcases List.mem_cons.1 hmem with rfl | hmem
  · exact .inl rfl
  · rw [List.mem_singleton.1 hmem]
    exact .inr rfl

theorem nodup_names (files : List (ArchiveFile Data)) (start : ℕ) :
    ((lib.attachments files start).map Prod.fst).Nodup := by
  induction files generalizing start with
  | nil => exact List.nodup_nil
  | cons file files ih =>
    have hlater {extension : String} (hlength : extension.toList.length = 5) :
        attachmentName start extension ∉ (lib.attachments files (start + 1)).map Prod.fst := by
      intro hmem
      obtain ⟨idx, hle, hname | hname⟩ := lib.mem_names hmem
      · exact absurd (attachmentName_inj (hlength.trans (by decide)) hname).1 (by omega)
      · exact absurd (attachmentName_inj (hlength.trans (by decide)) hname).1 (by omega)
    show (attachmentName start ".data" :: attachmentName start ".meta" ::
      (lib.attachments files (start + 1)).map Prod.fst).Nodup
    rw [List.nodup_cons, List.nodup_cons, List.mem_cons, not_or]
    refine ⟨⟨fun heq ↦ ?_, hlater (by decide)⟩, hlater (by decide), ih (start + 1)⟩
    exact absurd (attachmentName_inj (by decide) heq).2 (by decide)

theorem entries_eq (archive : Archive) (files : List (ArchiveFile Data)) :
    lib.entries archive files =
      ("index.json", lib.index.write archive) :: lib.attachments files 0 := rfl

theorem nodup_entries (archive : Archive) (files : List (ArchiveFile Data)) :
    ((lib.entries archive files).map Prod.fst).Nodup := by
  rw [entries_eq, List.map_cons, List.nodup_cons]
  refine ⟨fun hmem ↦ ?_, lib.nodup_names files 0⟩
  obtain ⟨idx, -, hname | hname⟩ := lib.mem_names hmem
  · exact attachmentName_ne_index idx _ hname.symm
  · exact attachmentName_ne_index idx _ hname.symm

theorem mem_entries {archive : Archive} {idx : ℕ} {file : ArchiveFile Data}
    (h : files[idx]? = some file) {entry : String × Data}
    (hentry : entry ∈ lib.fileEntries file idx) :
    entry ∈ lib.entries archive files := by
  rw [entries_eq]
  refine List.mem_cons_of_mem _ (List.mem_flatMap.2 ⟨(file, idx), ?_, hentry⟩)
  exact List.mem_zipIdx_iff_getElem?.2 h

variable {lib} {archive : Archive} {file : File}

theorem extractArchive_eq (h : lib.zip.finish (lib.entries archive files) = some file) :
    lib.extractArchive (some file) = .ok archive := by
  have hindex := lib.zip.byName_finish (lib.nodup_entries archive files) h _ List.mem_cons_self
  simp only [extractArchive, bind_eq_ok, okOr_eq_ok]
  exact ⟨file, rfl, _, hindex, lib.index.read_write archive⟩

theorem extractArchiveAttachment_eq (h : lib.zip.finish (lib.entries archive files) = some file)
    {idx : ℕ} {attachment : ArchiveFile Data} (hidx : files[idx]? = some attachment) :
    lib.extractArchiveAttachment (some file) idx = .ok attachment := by
  have hentry {entry : String × Data} (hmem : entry ∈ lib.fileEntries attachment idx) :
      lib.zip.byName file entry.1 = some entry.2 :=
    lib.zip.byName_finish (lib.nodup_entries archive files) h _ (lib.mem_entries hidx hmem)
  have hdata := hentry List.mem_cons_self
  have hmeta := hentry (List.mem_cons_of_mem _ (List.mem_singleton_self _))
  simp only [extractArchiveAttachment, bind_eq_ok, okOr_eq_ok, pure_eq_ok]
  exact ⟨file, rfl, _, hmeta, _, lib.info.read_write attachment.info, _, hdata, rfl⟩

end Libraries

/-! ### What is in an archive -/

/-- The user took part in the direct message, or can see the group. -/
def Sources.Sees (src : Sources Data) (uid : Int64) (payload : MergedMessagePayload) : Prop :=
  (∃ toUid, payload.target = .user toUid ∧ (toUid = uid ∨ payload.fromUid = uid)) ∨
    ∃ gid group, payload.target = .group gid ∧ src.groups gid = some group ∧
      group.containsUser uid = true

theorem allows_iff {payload : MergedMessagePayload} :
    src.allows createByUid payload = true ↔ src.Sees createByUid payload := by
  unfold Sources.allows Sources.Sees
  cases payload.target with
  | user uid => simp
  | group gid => cases hgroup : src.groups gid <;> simp [hgroup]

/-- An archive that has been written to a file, with the files and the users that it refers to. -/
structure Archived (lib : Libraries Data File) (src : Sources Data) (midList : List Int64)
    (createByUid : Int64) (file : File) (archive : Archive) (files : List (ArchiveFile Data))
    (authors : List Int64) : Prop where
  mids : archive.messages.map ArchiveMessage.mid = sortBy Int64.toInt midList
  nodup_authors : authors.Nodup
  mem_authors : ∀ uid, uid ∈ authors ↔ ∃ mid ∈ midList, ∃ payload,
    src.mergedMessage mid = .ok (some payload) ∧ payload.fromUid = uid
  users : List.Forall₂ (DescribesUser src files) authors archive.users
  messages : List.Forall₂
    (fun mid entry ↦ ∃ payload, DescribesMessage src createByUid authors files mid entry payload)
    (sortBy Int64.toInt midList) archive.messages
  user_lt : ∀ entry ∈ archive.messages, entry.fromUser < archive.users.length
  file_lt : ∀ entry ∈ archive.messages,
    ∀ idx, entry.content.fileId = some idx ∨ entry.content.thumbnailId = some idx →
    idx < files.length
  avatar_lt : ∀ entry ∈ archive.users, ∀ idx, entry.avatar = some idx → idx < files.length
  numAttachments : archive.numAttachments = files.length
  index : lib.extractArchive (some file) = .ok archive
  attachment : ∀ idx attachment, files[idx]? = some attachment →
    lib.extractArchiveAttachment (some file) idx = .ok attachment
  visible : ∃ user, src.users createByUid = some user ∧ (user.isAdmin = false → ∀ mid ∈ midList,
    ∃ payload, src.mergedMessage mid = .ok (some payload) ∧ src.Sees createByUid payload)

theorem exists_of_mem_right {α β : Type} {R : α → β → Prop} {l : List α} {l' : List β}
    (h : List.Forall₂ R l l') {b : β} (hb : b ∈ l') : ∃ a, R a b := by
  induction h with
  | nil => exact absurd hb List.not_mem_nil
  | cons hab _ ih =>
    rcases List.mem_cons.1 hb with rfl | hb
    · exact ⟨_, hab⟩
    · exact ih hb

variable {lib : Libraries Data File} {midList : List Int64} {file : File}

/-- The archive that the loop ends with, written to a file. -/
theorem Collected.Describes.archived {isAdmin : Bool} {user : CachedUser}
    (h : acc.Describes src createByUid isAdmin (sortBy Int64.toInt midList) authors)
    (huser : src.users createByUid = some user) (hadmin : user.isAdmin = isAdmin)
    (hfile : lib.zip.finish
      (lib.entries ⟨acc.users, acc.messages, acc.files.length⟩ acc.files) = some file) :
    Archived lib src midList createByUid file ⟨acc.users, acc.messages, acc.files.length⟩
      acc.files authors where
  mids := by
    refine (List.forall₂_eq_eq_eq ▸ List.forall₂_map_right_iff.2 ?_ :
      sortBy Int64.toInt midList = acc.messages.map ArchiveMessage.mid).symm
    exact h.messages.imp fun mid entry ⟨_, hentry⟩ ↦ hentry.mid.symm
  nodup_authors := h.lists.nodup
  mem_authors uid := by
    rw [h.mem_authors]
    simp only [mem_sortBy]
  users := h.lists.users
  messages := h.messages
  user_lt entry hentry := by
    obtain ⟨mid, payload, hdescribes⟩ := exists_of_mem_right h.messages hentry
    rw [← h.lists.users.length_eq]
    exact (List.getElem?_eq_some_iff.1 hdescribes.author).1
  file_lt entry hentry idx hidx := by
    obtain ⟨mid, payload, hdescribes⟩ := exists_of_mem_right h.messages hentry
    rcases hidx with hidx | hidx
    · exact (hidx ▸ hdescribes.content.file : RefersTo _ (some idx) _).lt
    · exact (hidx ▸ hdescribes.content.thumbnail : RefersTo _ (some idx) _).lt
  avatar_lt entry hentry idx hidx := by
    obtain ⟨uid, user, -, -, havatar⟩ := exists_of_mem_right h.lists.users hentry
    exact (hidx ▸ havatar : RefersTo _ (some idx) _).lt
  numAttachments := rfl
  index := Libraries.extractArchive_eq hfile
  attachment idx attachment := Libraries.extractArchiveAttachment_eq hfile
  visible := by
    refine ⟨user, huser, fun hnot mid hmid ↦ ?_⟩
    obtain ⟨payload, hpayload, hallow⟩ := h.allowed mid (mem_sortBy.2 hmid)
    rw [← hadmin, hnot] at hallow
    exact ⟨payload, hpayload, allows_iff.1 (hallow.resolve_left Bool.false_ne_true)⟩

/-- Archives are of the messages asked for, refer to what they have collected, and are extracted as
they were created. -/
theorem archiveLaws (lib : Libraries Data File) (src : Sources Data) (midList : List Int64)
    (createByUid : Int64) {file : File}
    (h : lib.createMessageArchive src midList createByUid = .ok file) :
    ∃ archive files authors,
      internalCreateMessageArchive src midList createByUid = .ok (archive, files) ∧
        Archived lib src midList createByUid file archive files authors := by
  simp only [Libraries.createMessageArchive, bind_eq_ok, okOr_eq_ok] at h
  obtain ⟨⟨archive, files⟩, hcreate, hfile⟩ := h
  refine ⟨archive, files, ?_⟩
  have hfound := hcreate
  simp only [internalCreateMessageArchive, bind_eq_ok, okOr_eq_ok, pure_eq_ok] at hfound
  obtain ⟨user, huser, acc, hloop, hpair⟩ := hfound
  obtain ⟨rfl, rfl⟩ := Prod.mk.inj hpair
  obtain ⟨authors, hdescribes⟩ :=
    (Collected.describes_empty src createByUid user.isAdmin).loop hloop
  exact ⟨authors, hcreate, hdescribes.archived huser rfl hfile⟩

/-- What files have in the example below. -/
inductive SampleData where
  | bytes (bytes : List UInt8)
  | index (archive : Archive)
  | info (info : FileMeta)

namespace SampleData

def index? : SampleData → Option Archive
  | index archive => some archive
  | bytes _ | info _ => none

def info? : SampleData → Option FileMeta
  | info data => some data
  | bytes _ | index _ => none

theorem find?_of_nodup {entries : List (String × SampleData)}
    (hnodup : (entries.map Prod.fst).Nodup) {e : String × SampleData} (he : e ∈ entries) :
    (entries.find? fun entry ↦ entry.1 == e.1).map Prod.snd = some e.2 := by
  induction entries with
  | nil => exact absurd he List.not_mem_nil
  | cons first rest ih =>
    rw [List.map_cons, List.nodup_cons] at hnodup
    rcases List.mem_cons.1 he with rfl | he
    · rw [List.find?_cons, beq_self_eq_true]
      rfl
    · have hne : first.1 ≠ e.1 := fun heq ↦ hnodup.1 (heq ▸ List.mem_map_of_mem he)
      rw [List.find?_cons, beq_eq_false_iff_ne.2 hne]
      exact ih hnodup.2 he

/-- Zip files that are lists of entries. -/
def libraries : Libraries SampleData (List (String × SampleData)) where
  index := ⟨index, index?, fun _ ↦ rfl⟩
  info := ⟨info, info?, fun _ ↦ rfl⟩
  zip :=
    { finish := some
      byName := fun file name ↦ (file.find? fun entry ↦ entry.1 == name).map Prod.snd
      byName_finish := fun hnodup hfile e he ↦ by
        obtain rfl := Option.some_inj.1 hfile
        exact find?_of_nodup hnodup he }

/-- User 7 has sent a file to user 8, who has answered with a text. -/
def sources : Sources SampleData where
  users uid := if uid = 7 then some ⟨"ann", false⟩ else if uid = 8 then some ⟨"bob", false⟩
    else none
  groups _ := none
  mergedMessage mid :=
    if mid = 11 then .ok (some ⟨7, .user 8, ⟨none, "vocechat/file", "photo"⟩, 1000⟩)
    else if mid = 12 then .ok (some ⟨8, .user 7, ⟨none, "text/plain", "thanks"⟩, 2000⟩)
    else .ok none
  avatarDir := ofText "/avatar".toList
  fileDir := ofText "/file".toList
  thumbnailDir := ofText "/thumbnail".toList
  read path := if path = (ofText "/file".toList).join "photo".toList then some (bytes [1, 2])
    else none
  parseMeta := info?
  noData := bytes []

end SampleData

theorem archiveLaws_sample :
    ∃ file, SampleData.libraries.createMessageArchive SampleData.sources [12, 11] 7 = .ok file ∧
      ∃ archive files authors,
        internalCreateMessageArchive SampleData.sources [12, 11] 7 = .ok (archive, files) ∧
          Archived SampleData.libraries SampleData.sources [12, 11] 7 file archive files authors :=
  ⟨_, rfl, archiveLaws SampleData.libraries SampleData.sources [12, 11] 7 rfl⟩

end Archives

end VoceChat
