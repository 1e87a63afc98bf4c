import VoceChat.Foundations.Table

/-!
# Files, their names, and those who have them open

A file has a number, and a name says the number of the file that it leads to. Whoever has opened a
file goes on with its number, whatever becomes of the name: what is written then is written to the
file under its new name, or to one that has none any more.
-/

structure OpenFiles (ν α : Type) where
  files : List α
  names : Table ν ℕ

namespace OpenFiles

variable {ν α : Type} [DecidableEq ν]

def empty : OpenFiles ν α := ⟨[], .empty⟩

/-- Open a file that is there. -/
def handle (fs : OpenFiles ν α) (name : ν) : Option ℕ := fs.names.get name

def read (fs : OpenFiles ν α) (name : ν) : Option α :=
  (fs.handle name).bind fun h ↦ fs.files[h]?

/-- A new file, and the name leads to it. -/
def create (fs : OpenFiles ν α) (name : ν) (a : α) : OpenFiles ν α where
  files := fs.files ++ [a]
  names := fs.names.put name fs.files.length

/-- Write to a file that is open. -/
def write (fs : OpenFiles ν α) (h : ℕ) (f : α → α) : OpenFiles ν α :=
  { fs with files := fs.files.modify h f }

/-- The new name leads to the file of the old one, in place of any other. -/
def rename (fs : OpenFiles ν α) (old new : ν) : Option (OpenFiles ν α) :=
  (fs.handle old).map fun h ↦
    { fs with names := (fs.names.filter fun name _ ↦ name ≠ old).put new h }

def remove (fs : OpenFiles ν α) (gone : ν → ℕ → Bool) : OpenFiles ν α :=
  { fs with names := fs.names.filter fun name h ↦ !gone name h }

variable {fs fs' : OpenFiles ν α} {name old new : ν} {a : α} {h k : ℕ}

theorem handle_create (name' : ν) : (fs.create name a).handle name' =
    if name' = name then some fs.files.length else fs.handle name' :=
  Table.get_put _ _ _ _

theorem handle_rename (h : fs.rename old new = some fs') : ∃ k, fs.handle old = some k ∧
    fs'.files = fs.files ∧ ∀ name, fs'.handle name =
      if name = new then some k else if name = old then none else fs.handle name := by
  obtain ⟨k, hk, rfl⟩ := Option.map_eq_some_iff.1 h
  refine ⟨k, hk, rfl, fun name ↦ ?_⟩
  refine (Table.get_put _ _ _ _).trans ?_
  split
  · rfl
  · refine Option.ext fun k' ↦ Table.get_filter.trans ?_
    rw [decide_eq_true_iff]
    split
    · rename_i heq
      exact iff_of_false (fun h ↦ h.2 heq) fun h ↦ by cases h
    · rename_i hne
      exact and_iff_left hne

theorem handle_remove {gone : ν → ℕ → Bool} : (fs.remove gone).handle name = some h ↔
    fs.handle name = some h ∧ gone name h = false := by
  refine Table.get_filter.trans (and_congr_right fun _ ↦ ?_)
  rw [Bool.not_eq_true']

omit [DecidableEq ν] in
theorem getElem?_write {f : α → α} :
    (fs.write h f).files[k]? = if h = k then fs.files[k]?.map f else fs.files[k]? := by
  rw [write, List.getElem?_modify]
  split <;> simp

end OpenFiles
