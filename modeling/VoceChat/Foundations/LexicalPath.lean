import Mathlib.Data.List.Induction

/-!
# Paths by their components

A path is a list of components, absolute or relative; separators in a row and `.` have no component.
`join` appends a path to a base, and an absolute one **replaces** the base. `resolve` gives every
`..` the component before it, which may be one of the base.

`inside_join_iff` is the question whether a text is harmless under any base: exactly if it is
relative, never goes above where it starts, and ends below it (`Descends`). Replacing the extension
does not change that (`inside_withExtension_iff`). Of a text without dots only the first character
matters (`harmless_iff_of_noDots`).
-/

namespace LexicalPath

abbrev Text := List Char

inductive Component where
  | parentDir
  | normal (name : Text)
  deriving DecidableEq, Repr

@[ext] structure Path where
  absolute : Bool
  components : List Component
  deriving DecidableEq, Repr

/-- The component of the text between two separators. -/
def component (part : Text) : Option Component :=
  if part = [] ∨ part = ['.'] then none
  else if part = ['.', '.'] then some .parentDir
  else some (.normal part)

/-- `Path::new(..).components()`. -/
def ofText (text : Text) : Path where
  absolute := text.head? = some '/'
  components := (text.splitOn '/').filterMap component

/-- `Path::join`. -/
def Path.join (base : Path) (text : Text) : Path :=
  if (ofText text).absolute then ofText text
  else { base with components := base.components ++ (ofText text).components }

/-- The part of a file name before its last dot, unless that is empty. -/
def fileStem (name : Text) : Text :=
  let front := (name.reverse.dropWhile (· ≠ '.')).drop 1
  if front = [] then name else front.reverse

/-- `Path::with_extension`, for an extension that is not empty: the last component gets it if it is
a name, and nothing happens otherwise. -/
def Path.withExtension (p : Path) (extension : Text) : Path :=
  match p.components.getLast? with
  | some (.normal name) =>
    { p with
      components := p.components.dropLast ++ [.normal (fileStem name ++ '.' :: extension)] }
  | _ => p

/-- Where a path leads: `up` is how far above the working directory a relative one starts. -/
structure Location where
  absolute : Bool
  up : ℕ
  names : List Text
  deriving DecidableEq, Repr

/-- The root is its own parent. -/
def Location.enter (l : Location) : Component → Location
  | .normal name => { l with names := l.names ++ [name] }
  | .parentDir =>
    if l.names = [] then
      if l.absolute then l else { l with up := l.up + 1 }
    else { l with names := l.names.dropLast }

def Location.follow (l : Location) (cs : List Component) : Location := cs.foldl enter l

def Path.resolve (p : Path) : Location := Location.follow ⟨p.absolute, 0, []⟩ p.components

/-- The path leads to something below the base. -/
def StrictlyInside (base p : Path) : Prop :=
  ∃ rest ≠ [], p.resolve = { base.resolve with names := base.resolve.names ++ rest }

/-! ### Going down -/

/-- How deep components lead from a given depth, unless they go above the start. -/
def descend : ℕ → List Component → Option ℕ
  | depth, [] => some depth
  | depth, .normal _ :: cs => descend (depth + 1) cs
  | 0, .parentDir :: _ => none
  | depth + 1, .parentDir :: cs => descend depth cs

/-- The components never lead above where they start, and end below it. -/
def Descends (cs : List Component) : Prop := ∃ depth, descend 0 cs = some (depth + 1)

instance decidableDescends (cs : List Component) : Decidable (Descends cs) :=
  match h : descend 0 cs with
  | some (depth + 1) => .isTrue ⟨depth, h⟩
  | some 0 => .isFalse fun hd ↦ Exists.elim hd fun _ hdepth ↦ by cases h.symm.trans hdepth
  | none => .isFalse fun hd ↦ Exists.elim hd fun _ hdepth ↦ by cases h.symm.trans hdepth

variable {cs : List Component} {base p : Path} {l : Location}

theorem follow_append (l : Location) (cs ds : List Component) :
    l.follow (cs ++ ds) = (l.follow cs).follow ds :=
  List.foldl_append

/-- Names do not matter for the depth. -/
theorem descend_concat_normal (depth : ℕ) (cs : List Component) (name name' : Text) :
    descend depth (cs ++ [.normal name]) = descend depth (cs ++ [.normal name']) := by
  induction cs generalizing depth with
  | nil => rfl
  | cons c cs ih =>
    cases c with
    | normal n => exact ih (depth + 1)
    | parentDir =>
      cases depth with
      | zero => rfl
      | succ depth => exact ih depth

/-- Components that stay below their start leave what is above it. -/
theorem follow_of_descend {l : Location} {rest : List Text} {depth : ℕ}
    (h : descend rest.length cs = some depth) :
    ∃ rest' : List Text, rest'.length = depth ∧
      Location.follow { l with names := l.names ++ rest } cs =
      { l with names := l.names ++ rest' } := by
  induction cs generalizing rest with
  | nil => exact ⟨rest, Option.some.inj h, rfl⟩
  | cons c cs ih =>
    cases c with
    | normal name =>
      obtain ⟨rest', hlen, hfollow⟩ := @ih (rest ++ [name]) (by
        rw [List.length_append]
        exact h)
      refine ⟨rest', hlen, ?_⟩
      rw [← hfollow, ← List.append_assoc]
      rfl
    | parentDir =>
      cases rest using List.reverseRecOn with
      | nil => cases h
      | append_singleton rest name =>
        rw [List.length_append] at h
        obtain ⟨rest', hlen, hfollow⟩ := @ih rest h
        refine ⟨rest', hlen, ?_⟩
        rw [← hfollow, Location.follow, List.foldl_cons, Location.enter, if_neg (by simp)]
        simp only [← List.append_assoc, List.dropLast_concat]
        rfl

/-! ### Below any base -/

/-- The path goes on from the base without leaving it. -/
def Under (base p : Path) : Prop :=
  ∃ cs, Descends cs ∧ p = { base with components := base.components ++ cs }

theorem Under.strictlyInside (h : Under base p) : StrictlyInside base p := by
  obtain ⟨cs, ⟨depth, hdepth⟩, rfl⟩ := h
  obtain ⟨rest, hlen, hfollow⟩ := @follow_of_descend _ base.resolve [] _ hdepth
  refine ⟨rest, List.ne_nil_of_length_pos (by omega), ?_⟩
  rw [Path.resolve, follow_append, ← hfollow, List.append_nil]
  rfl

theorem Descends.exists_concat (h : Descends cs) : ∃ front c, cs = front ++ [c] := by
  rcases List.eq_nil_or_concat cs with rfl | ⟨front, c, rfl⟩
  · obtain ⟨depth, hdepth⟩ := h
    cases hdepth
  · exact ⟨front, c, List.concat_eq_append⟩

theorem withExtension_normal {front : List Component} {name : Text} (absolute : Bool)
    (extension : Text) : Path.withExtension ⟨absolute, front ++ [.normal name]⟩ extension =
      ⟨absolute, front ++ [.normal (fileStem name ++ '.' :: extension)]⟩ := by
  rw [Path.withExtension, List.getLast?_concat, List.dropLast_concat]

theorem withExtension_parentDir {front : List Component} (absolute : Bool) (extension : Text) :
    Path.withExtension ⟨absolute, front ++ [.parentDir]⟩ extension =
      ⟨absolute, front ++ [.parentDir]⟩ := by
  rw [Path.withExtension, List.getLast?_concat]

/-- Another extension leaves a path where it is. -/
theorem Under.withExtension (h : Under base p) (extension : Text) :
    Under base (p.withExtension extension) := by
  obtain ⟨cs, hcs, rfl⟩ := h
  obtain ⟨front, c, rfl⟩ := hcs.exists_concat
  rw [← List.append_assoc]
  cases c with
  | normal name =>
    refine ⟨front ++ [.normal (fileStem name ++ '.' :: extension)], ?_, ?_⟩
    · rwa [Descends, ← descend_concat_normal 0 front name]
    · rw [← List.append_assoc]
      exact withExtension_normal base.absolute extension
  | parentDir =>
    refine ⟨front ++ [.parentDir], hcs, ?_⟩
    rw [← List.append_assoc]
    exact withExtension_parentDir base.absolute extension

/-- A text that leads below any base it is joined to. -/
def Harmless (text : Text) : Prop :=
  (ofText text).absolute = false ∧ Descends (ofText text).components

instance decidableHarmless (text : Text) : Decidable (Harmless text) :=
  inferInstanceAs (Decidable (_ ∧ _))

theorem Harmless.under {text : Text} (h : Harmless text) (base : Path) :
    Under base (base.join text) := by
  refine ⟨(ofText text).components, h.2, ?_⟩
  rw [Path.join, h.1]
  rfl

/-! ### A base that nothing comes back to -/

/-- There is always a name that does not occur. -/
theorem exists_fresh (cs : List Component) : ∃ fresh : Text, '.' ∉ fresh ∧ .normal fresh ∉ cs := by
  have hbound : ∃ n, ∀ name, .normal name ∈ cs → name.length < n := by
    induction cs with
    | nil => exact ⟨0, fun _ hmem ↦ absurd hmem List.not_mem_nil⟩
    | cons c cs ih =>
      obtain ⟨n, hn⟩ := ih
      cases c with
      | parentDir => exact ⟨n, fun name hmem ↦ hn name (by simpa using hmem)⟩
      | normal first =>
        refine ⟨n + first.length + 1, fun name hmem ↦ ?_⟩
        rcases List.mem_cons.1 hmem with heq | hmem
        · obtain rfl := Component.normal.inj heq
          omega
        · exact Nat.lt_of_lt_of_le (hn name hmem) (by omega)
  obtain ⟨n, hn⟩ := hbound
  refine ⟨List.replicate n 'a', fun hdot ↦ ?_, fun hmem ↦ ?_⟩
  · exact absurd (List.eq_of_mem_replicate hdot) (by decide)
  · have hlt := hn _ hmem
    rw [List.length_replicate] at hlt
    exact Nat.lt_irrefl n hlt

/-- Names come from the components. -/
theorem notMem_follow {fresh : Text} (hl : fresh ∉ l.names) (hcs : .normal fresh ∉ cs) :
    fresh ∉ (l.follow cs).names := by
  induction cs generalizing l with
  | nil => exact hl
  | cons c cs ih =>
    refine ih ?_ fun hmem ↦ hcs (List.mem_cons_of_mem c hmem)
    cases c with
    | normal name =>
      intro hmem
      rcases List.mem_append.1 hmem with hmem | hmem
      · exact hl hmem
      · obtain rfl := List.mem_singleton.1 hmem
        exact hcs List.mem_cons_self
    | parentDir =>
      rw [Location.enter]
      split
      · split
        · exact hl
        · exact hl
      · exact fun hmem ↦ hl ((List.dropLast_sublist _).mem hmem)

/-- Once components have led above their start, the name there is gone. -/
theorem notMem_follow_of_descend {fresh : Text} {rest : List Text} (hl : l.names = fresh :: rest)
    (hrest : fresh ∉ rest) (hcs : .normal fresh ∉ cs) (h : descend rest.length cs = none) :
    fresh ∉ (l.follow cs).names := by
  induction cs generalizing l rest with
  | nil => cases h
  | cons c cs ih =>
    have hcs' : Component.normal fresh ∉ cs := fun hmem ↦ hcs (List.mem_cons_of_mem c hmem)
    cases c with
    | normal name =>
      refine @ih _ (rest ++ [name]) ?_ ?_ hcs' ?_
      · rw [Location.enter, hl, List.cons_append]
      · intro hmem
        rcases List.mem_append.1 hmem with hmem | hmem
        · exact hrest hmem
        · obtain rfl := List.mem_singleton.1 hmem
          exact hcs List.mem_cons_self
      · rw [List.length_append]
        exact h
    | parentDir =>
      have hne : l.names ≠ [] := by
        rw [hl]
        exact List.cons_ne_nil _ _
      rcases List.eq_nil_or_concat rest with rfl | ⟨rest, name, rfl⟩
      · -- this is where the name is taken away
        have hgone : (l.enter .parentDir).names = [] := by
          rw [Location.enter.eq_2, if_neg hne, hl]
          rfl
        exact notMem_follow (l := l.enter .parentDir) (by simp [hgone]) hcs'
      · rw [List.concat_eq_append] at hl hrest h
        rw [List.length_append] at h
        refine @ih _ rest ?_ (fun hmem ↦ hrest (List.mem_append_left _ hmem)) hcs' h
        rw [Location.enter.eq_2, if_neg hne, hl]
        rw [← List.cons_append, List.dropLast_concat]

/-- The base with one name. -/
def single (fresh : Text) : Path := ⟨true, [.normal fresh]⟩

theorem StrictlyInside.mem_names {fresh : Text} (h : StrictlyInside (single fresh) p) :
    fresh ∈ p.resolve.names := by
  obtain ⟨rest, -, hresolve⟩ := h
  rw [hresolve]
  exact List.mem_append_left _ (List.mem_singleton_self fresh)

theorem not_strictlyInside_of_notMem {fresh : Text} (hp : .normal fresh ∉ p.components) :
    ¬StrictlyInside (single fresh) p :=
  fun h ↦ notMem_follow List.not_mem_nil hp h.mem_names

theorem descends_of_strictlyInside {fresh : Text} (hcs : .normal fresh ∉ cs)
    (h : StrictlyInside (single fresh) ⟨true, .normal fresh :: cs⟩) : Descends cs := by
  have hmem : fresh ∈ ((single fresh).resolve.follow cs).names := h.mem_names
  cases hdepth : descend 0 cs with
  | none =>
    exact absurd hmem (notMem_follow_of_descend rfl List.not_mem_nil hcs hdepth)
  | some depth =>
    obtain ⟨names, hlen, hfollow⟩ :=
      @follow_of_descend _ (single fresh).resolve [] _ hdepth
    obtain ⟨rest, hrest, hresolve⟩ := h
    have hnames : rest = names := by
      have heq := congrArg Location.names (hresolve.symm.trans hfollow)
      exact List.append_cancel_left heq
    subst hnames
    cases depth with
    | zero => exact absurd (List.length_eq_zero_iff.1 hlen) hrest
    | succ depth => exact ⟨depth, hdepth⟩

/-- The new name has a dot. -/
theorem notMem_withExtension {fresh : Text} (extension : Text) (hdot : '.' ∉ fresh)
    (hp : .normal fresh ∉ p.components) :
    .normal fresh ∉ (p.withExtension extension).components := by
  rw [Path.withExtension]
  split
  · intro hmem
    rcases List.mem_append.1 hmem with hmem | hmem
    · exact hp ((List.dropLast_sublist _).mem hmem)
    · obtain rfl := Component.normal.inj (List.mem_singleton.1 hmem)
      exact hdot (List.mem_append_right _ List.mem_cons_self)
  · exact hp

/-! ### The two questions -/

theorem join_single {fresh text : Text} (hrelative : (ofText text).absolute = false) :
    (single fresh).join text = ⟨true, .normal fresh :: (ofText text).components⟩ := by
  rw [Path.join, hrelative]
  rfl

/-- A text leads below every base it is joined to exactly if it is harmless. -/
theorem inside_join_iff {text : Text} :
    (∀ base : Path, StrictlyInside base (base.join text)) ↔ Harmless text := by
  refine ⟨fun h ↦ ?_, fun h base ↦ (h.under base).strictlyInside⟩
  obtain ⟨fresh, -, hfresh⟩ := exists_fresh (ofText text).components
  have hinside := h (single fresh)
  cases habsolute : (ofText text).absolute with
  | true =>
    rw [Path.join, if_pos habsolute] at hinside
    exact absurd hinside (not_strictlyInside_of_notMem hfresh)
  | false =>
    rw [join_single habsolute] at hinside
    exact ⟨habsolute, descends_of_strictlyInside hfresh hinside⟩

/-- The same with another extension. -/
theorem inside_withExtension_iff {text : Text} (extension : Text) :
    (∀ base : Path, StrictlyInside base ((base.join text).withExtension extension)) ↔
      Harmless text := by
  refine ⟨fun h ↦ ?_, fun h base ↦ ((h.under base).withExtension extension).strictlyInside⟩
  obtain ⟨fresh, hdot, hfresh⟩ := exists_fresh (ofText text).components
  have hinside := h (single fresh)
  cases habsolute : (ofText text).absolute with
  | true =>
    rw [Path.join, if_pos habsolute] at hinside
    exact absurd hinside
      (not_strictlyInside_of_notMem (notMem_withExtension extension hdot hfresh))
  | false =>
    rw [join_single habsolute] at hinside
    refine ⟨habsolute, ?_⟩
    rcases List.eq_nil_or_concat (ofText text).components with hnil | ⟨front, c, hconcat⟩
    · -- the extension would go to the base itself
      rw [hnil] at hinside
      refine absurd hinside (not_strictlyInside_of_notMem ?_)
      rw [show Path.withExtension ⟨true, [.normal fresh]⟩ extension = _ from
        @withExtension_normal [] _ true extension]
      intro hmem
      refine hdot ?_
      rw [Component.normal.inj (List.mem_singleton.1 hmem)]
      exact List.mem_append_right _ List.mem_cons_self
    · rw [List.concat_eq_append] at hconcat
      rw [hconcat] at hinside hfresh ⊢
      rw [← List.cons_append] at hinside
      cases c with
      | parentDir =>
        rw [withExtension_parentDir true extension] at hinside
        exact descends_of_strictlyInside hfresh hinside
      | normal name =>
        rw [withExtension_normal true extension, List.cons_append] at hinside
        rw [Descends, descend_concat_normal 0 front name]
        refine descends_of_strictlyInside ?_ hinside
        intro hmem
        rcases List.mem_append.1 hmem with hmem | hmem
        · exact hfresh (List.mem_append_left _ hmem)
        · refine hdot ?_
          rw [Component.normal.inj (List.mem_singleton.1 hmem)]
          exact List.mem_append_right _ List.mem_cons_self

/-! ### Texts without dots -/

theorem subset_of_mem_splitOn {text part : Text} (h : part ∈ text.splitOn '/') : part ⊆ text := by
  induction text generalizing part with
  | nil =>
    obtain rfl := List.mem_singleton.1 h
    exact List.Subset.refl []
  | cons c text ih =>
    rw [List.splitOn_cons_eq_if_modifyHead] at h
    split at h
    · rcases List.mem_cons.1 h with rfl | h
      · exact List.nil_subset _
      · exact List.subset_cons_of_subset c (ih h)
    · obtain ⟨first, rest, hsplit⟩ := List.exists_cons_of_ne_nil (List.splitOn_ne_nil '/' text)
      rw [hsplit] at h ih
      rcases List.mem_cons.1 h with rfl | h
      · exact List.cons_subset_cons c (ih List.mem_cons_self)
      · exact List.subset_cons_of_subset c (ih (List.mem_cons_of_mem first h))

theorem component_of_noDots {part : Text} (hne : part ≠ []) (hdot : '.' ∉ part) :
    component part = some (.normal part) := by
  rw [component, if_neg, if_neg]
  · rintro rfl
    exact hdot List.mem_cons_self
  · rintro (rfl | rfl)
    · exact hne rfl
    · exact hdot List.mem_cons_self

/-- Without dots nothing leads upwards. -/
theorem notMem_components_of_noDots {text : Text} (hdot : '.' ∉ text) :
    .parentDir ∉ (ofText text).components := by
  intro hmem
  obtain ⟨part, hpart, hcomponent⟩ := List.mem_filterMap.1 hmem
  by_cases hne : part = []
  · rw [hne] at hcomponent
    cases hcomponent
  · rw [component_of_noDots hne fun hd ↦ hdot (subset_of_mem_splitOn hpart hd)] at hcomponent
    cases hcomponent

theorem descend_of_notMem {depth : ℕ} (h : .parentDir ∉ cs) :
    descend depth cs = some (depth + cs.length) := by
  induction cs generalizing depth with
  | nil => rfl
  | cons c cs ih =>
    cases c with
    | parentDir => exact absurd List.mem_cons_self h
    | normal name =>
      rw [descend, ih fun hmem ↦ h (List.mem_cons_of_mem _ hmem), List.length_cons]
      congr 1
      omega

/-- What a check for dots leaves to be checked. -/
theorem harmless_iff_of_noDots {text : Text} (hne : text ≠ []) (hdot : '.' ∉ text) :
    Harmless text ↔ text.head? ≠ some '/' := by
  have habsolute : (ofText text).absolute = false ↔ text.head? ≠ some '/' := by
    rw [ofText, decide_eq_false_iff_not]
  refine ⟨fun h ↦ habsolute.1 h.1, fun h ↦ ⟨habsolute.2 h, ?_⟩⟩
  rw [Descends, descend_of_notMem (notMem_components_of_noDots hdot)]
  obtain ⟨c, rest, rfl⟩ := List.exists_cons_of_ne_nil hne
  have hslash : ¬(c == '/') = true := fun heq ↦ h (congrArg some (eq_of_beq heq))
  -- the part before the first separator is a name
  obtain ⟨first, parts, hsplit⟩ := List.exists_cons_of_ne_nil (List.splitOn_ne_nil '/' rest)
  have hparts : (c :: rest).splitOn '/' = (c :: first) :: parts := by
    rw [List.splitOn_cons_eq_if_modifyHead, if_neg hslash, hsplit]
    rfl
  have hname : component (c :: first) = some (.normal (c :: first)) := by
    refine component_of_noDots (List.cons_ne_nil c first) fun hd ↦ hdot ?_
    exact subset_of_mem_splitOn (hparts ▸ List.mem_cons_self) hd
  refine ⟨(parts.filterMap component).length, ?_⟩
  rw [ofText, hparts, List.filterMap_cons_some hname, List.length_cons]
  congr 1
  omega

end LexicalPath
