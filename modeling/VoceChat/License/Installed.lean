import VoceChat.Foundations.Run
import VoceChat.License.Signed

/-!
# The installed license (`src/license.rs`)

The license of a server stands in a file and in memory, behind a mutex. `update_license` writes the
file and then assigns the five fields of the license in memory, **each under a lock of its own**.
`check_license` holds the lock while it looks at all fields; `create_user` takes it for the limit.

Between the five locks of an update everything else may happen: a check reads some fields of the new
license and some of the old one, and two updates leave a mixture of both, or one license in memory
and the other in the file. The code does nothing against that.

`right_of_orderly` gives the order that it relies on: no update assigns a field before an update
that wrote the file earlier, and no check comes between the first and the last field of an update.
User creations may come at any time, they look at one field.
-/

namespace VoceChat

open Guards Machine Transition

/-- The fields, each of which has a lock acquisition of its own. -/
inductive LicenseField where
  | createdAt
  | expiredAt
  | userLimit
  | domains
  | sign
  deriving DecidableEq, Repr

namespace LicenseField

/-- The order in which `update_license` assigns them. -/
def order : List LicenseField := [.createdAt, .expiredAt, .userLimit, .domains, .sign]

theorem mem_order (f : LicenseField) : f ∈ order := by cases f <;> decide

end LicenseField

namespace License

variable {Time : Type}

/-- One assignment of `update_license`. -/
def assign (memory : License Time) (f : LicenseField) (license : License Time) : License Time :=
  match f with
  | .createdAt => { memory with createdAt := license.createdAt }
  | .expiredAt => { memory with expiredAt := license.expiredAt }
  | .userLimit => { memory with userLimit := license.userLimit }
  | .domains => { memory with domains := license.domains }
  | .sign => { memory with sign := license.sign }

/-- The two have the same in a field. -/
def SameAt (f : LicenseField) (memory license : License Time) : Prop :=
  match f with
  | .createdAt => memory.createdAt = license.createdAt
  | .expiredAt => memory.expiredAt = license.expiredAt
  | .userLimit => memory.userLimit = license.userLimit
  | .domains => memory.domains = license.domains
  | .sign => memory.sign = license.sign

variable {memory license l : License Time} {f f' : LicenseField}

theorem sameAt_refl (f : LicenseField) (license : License Time) : SameAt f license license := by
  cases f <;> rfl

theorem sameAt_assign_self (memory : License Time) (f : LicenseField) (license : License Time) :
    SameAt f (memory.assign f license) license := by
  cases f <;> rfl

theorem sameAt_assign_of_ne (h : f' ≠ f) : SameAt f' (memory.assign f license) l ↔
    SameAt f' memory l := by
  cases f <;> cases f' <;> first | rfl | exact absurd rfl h

theorem eq_of_sameAt (h : ∀ f, SameAt f memory license) : memory = license := by
  obtain ⟨_, _, _, _, _⟩ := memory
  obtain rfl := h .domains
  obtain rfl := h .userLimit
  obtain rfl := h .createdAt
  obtain rfl := h .expiredAt
  obtain rfl := h .sign
  rfl

end License

/-- An update that has written the file, with the fields it has still to assign. -/
structure LicenseUpdate (Time : Type) where
  license : License Time
  todo : List LicenseField

/-- What was decided by the license in memory, with all that went into it. -/
inductive LicenseDecision (Time : Type) where
  | check (domain : Option Text) (now : Time) (nonGuests : ℕ) (verdict : Except String Unit)
  | createUser (nonGuests : ℕ) (verdict : Except String Unit)

/-- The file and the memory, and the updates under way, by the order of their file writes.
`installed` and `decisions` are history. -/
structure LicenseState (Time : Type) where
  file : Option Text
  memory : License Time
  running : List (LicenseUpdate Time)
  installed : List (License Time)
  decisions : List (LicenseDecision Time)

inductive LicenseAction (Time : Type) where
  | put (isAdmin : Bool) (text : Text)
  | assign (i : ℕ)
  | check (domain : Option Text) (now : Time) (nonGuests : ℕ)
  | createUser (nonGuests : ℕ)

section Decisions

variable {Time : Type} [LT Time] [DecidableLT Time] (F : LicenseFormats Time)

/-- `check_license`, for the domain of the `Referer`. -/
def LicenseFormats.checkLicense (license : License Time) (domain : Option Text) (now : Time)
    (nonGuests : ℕ) : Except String Unit := do
  let domain ← okOr domain "License error: Referer is empty."
  if domain = "localhost".toList then
    pure ()
  else
    ensure (domain ∈ license.domains ∨ "*".toList ∈ license.domains)
      "License error: Domain incorrect."
    ensure (¬license.expiredAt < now) "License error: Expired."
    ensure (F.rsaCheckLicense license = true) "License error: Sign invalid."
    ensure (¬nonGuests > license.userLimit) "License error: Users reached limit."

/-- The license part of `create_user`. -/
def License.checkLimit (license : License Time) (nonGuests : ℕ) : Except String Unit :=
  ensure (¬nonGuests ≥ license.userLimit) "License error: Users reached limit."

/-- The license alone explains what was decided. -/
def LicenseDecision.DecidedBy (license : License Time) : LicenseDecision Time → Prop
  | .check domain now nonGuests verdict => verdict = F.checkLicense license domain now nonGuests
  | .createUser nonGuests verdict => verdict = license.checkLimit nonGuests

end Decisions

namespace LicenseState

variable {Time : Type} (F : LicenseFormats Time)

/-- `put` up to the first lock: a license that can be read goes to the file. -/
def put (s : LicenseState Time) (isAdmin : Bool) (text : Text) : LicenseState Time :=
  if s.file.isNone = true ∨ isAdmin = true then
    match F.fromString text with
    | .ok license =>
      { s with
        file := some text
        running := s.running ++ [⟨license, LicenseField.order⟩]
        installed := s.installed ++ [license] }
    | .error _ => s
  else s

/-- The next lock of an update. -/
def assign (s : LicenseState Time) (i : ℕ) : LicenseState Time :=
  match s.running[i]? with
  | some ⟨license, f :: todo⟩ =>
    { s with
      memory := s.memory.assign f license
      running := if todo = [] then s.running.eraseIdx i else s.running.set i ⟨license, todo⟩ }
  | _ => s

/-- The order that the updates and the checks have to keep. -/
def Orderly (s : LicenseState Time) : LicenseAction Time → Prop
  | .put _ _ => True
  | .assign i => ∀ update ∈ s.running[i]?, ∀ f ∈ update.todo.head?,
      ∀ earlier ∈ s.running.take i, f ∉ earlier.todo
  | .check _ _ _ => ∀ update ∈ s.running, update.todo = LicenseField.order
  | .createUser _ => True

/-! ### What the memory shows -/

/-- The license whose field stands in memory if the updates assign it in their order: the last one
that has assigned it already, or the one from before. -/
def shown (f : LicenseField) (base : License Time) (running : List (LicenseUpdate Time)) :
    License Time :=
  running.foldl (fun license update ↦ if f ∈ update.todo then license else update.license) base

/-- The license that was written to the file last. -/
def newest (base : License Time) (running : List (LicenseUpdate Time)) : License Time :=
  running.foldl (fun _ update ↦ update.license) base

theorem shown_append (f : LicenseField) (base : License Time)
    (front back : List (LicenseUpdate Time)) :
    shown f base (front ++ back) = shown f (shown f base front) back := by
  rw [shown, List.foldl_append]
  rfl

theorem shown_cons (f : LicenseField) (base : License Time) (update : LicenseUpdate Time)
    (running : List (LicenseUpdate Time)) : shown f base (update :: running) =
      shown f (if f ∈ update.todo then base else update.license) running := rfl

/-- A field that nobody has assigned yet is the old one. -/
theorem shown_of_forall_mem {f : LicenseField} (base : License Time)
    {running : List (LicenseUpdate Time)} (h : ∀ update ∈ running, f ∈ update.todo) :
    shown f base running = base := by
  induction running with
  | nil => rfl
  | cons update running ih =>
    rw [shown_cons, if_pos (h update List.mem_cons_self)]
    exact ih fun u hu ↦ h u (List.mem_cons_of_mem update hu)

theorem shown_mem {f : LicenseField} {installed : List (License Time)} {base : License Time}
    {running : List (LicenseUpdate Time)} (hbase : base ∈ installed)
    (h : ∀ update ∈ running, update.license ∈ installed) : shown f base running ∈ installed := by
  induction running generalizing base with
  | nil => exact hbase
  | cons update running ih =>
    rw [shown_cons]
    refine ih ?_ fun u hu ↦ h u (List.mem_cons_of_mem update hu)
    split
    · exact hbase
    · exact h update List.mem_cons_self

/-- The invariant: `base` is the last license that was installed completely, every field in memory
is from the last update that has assigned it, and earlier updates are further than later ones. -/
structure Tracks (s : LicenseState Time) (base : License Time) : Prop where
  base_mem : base ∈ s.installed
  running_mem : ∀ update ∈ s.running, update.license ∈ s.installed
  memory : ∀ f, s.memory.SameAt f (shown f base s.running)
  file : ∃ text, s.file = some text ∧ F.fromString text = .ok (newest base s.running)
  todo_ne_nil : ∀ update ∈ s.running, update.todo ≠ []
  todo_nodup : ∀ update ∈ s.running, update.todo.Nodup
  nested : s.running.Pairwise fun earlier later ↦ ∀ f ∈ earlier.todo, f ∈ later.todo

variable {F} {s : LicenseState Time} {base : License Time}

theorem Tracks.put (h : s.Tracks F base) (isAdmin : Bool) (text : Text) :
    (s.put F isAdmin text).Tracks F base := by
  rw [LicenseState.put]
  split
  · split
    · rename_i license hlicense
      constructor
      case base_mem => exact List.mem_append_left _ h.base_mem
      case running_mem =>
        intro update hupdate
        rcases List.mem_append.1 hupdate with hold | hnew
        · exact List.mem_append_left _ (h.running_mem update hold)
        · obtain rfl := List.mem_singleton.1 hnew
          exact List.mem_append_right _ (List.mem_singleton_self _)
      case memory =>
        intro f
        rw [shown_append, shown_cons, if_pos (LicenseField.mem_order f)]
        exact h.memory f
      case file =>
        refine ⟨text, rfl, ?_⟩
        rw [newest, List.foldl_append]
        exact hlicense
      case todo_ne_nil =>
        intro update hupdate
        rcases List.mem_append.1 hupdate with hold | hnew
        · exact h.todo_ne_nil update hold
        · obtain rfl := List.mem_singleton.1 hnew
          exact List.cons_ne_nil _ _
      case todo_nodup =>
        intro update hupdate
        rcases List.mem_append.1 hupdate with hold | hnew
        · exact h.todo_nodup update hold
        · obtain rfl := List.mem_singleton.1 hnew
          exact (by decide : LicenseField.order.Nodup)
      case nested =>
        refine List.pairwise_append.2 ⟨h.nested, List.pairwise_singleton _ _, ?_⟩
        intro earlier _ later hlater f _
        obtain rfl := List.mem_singleton.1 hlater
        exact LicenseField.mem_order f
    · exact h
  · exact h

/-- An update among the others, with what the list becomes when it goes on or is done. -/
theorem exists_split {α : Type} {l : List α} {i : ℕ} {a : α} (h : l[i]? = some a) :
    ∃ front back, l = front ++ a :: back ∧ l.take i = front ∧
      (∀ b, l.set i b = front ++ b :: back) ∧ l.eraseIdx i = front ++ back := by
  induction i generalizing l with
  | zero =>
    cases l with
    | nil => cases h
    | cons c l =>
      obtain rfl := Option.some.inj h
      exact ⟨[], l, rfl, rfl, fun _ ↦ rfl, rfl⟩
  | succ i ih =>
    cases l with
    | nil => cases h
    | cons c l =>
      obtain ⟨front, back, hl, htake, hset, herase⟩ := ih (l := l) h
      refine ⟨c :: front, back, congrArg (c :: ·) hl, congrArg (c :: ·) htake, fun b ↦ ?_,
        congrArg (c :: ·) herase⟩
      exact congrArg (c :: ·) (hset b)

/-- The memory after a field was assigned, if none of the later updates has assigned it yet. -/
theorem Tracks.memory_assign {front back : List (LicenseUpdate Time)} {license : License Time}
    {f : LicenseField} {todo : List LicenseField}
    (h : s.Tracks F base) (hrunning : s.running = front ++ ⟨license, f :: todo⟩ :: back)
    (g : LicenseField) :
    (s.memory.assign f license).SameAt g
      (shown g (if g ∈ todo then shown g base front else license) back) := by
  have hmemory := h.memory g
  have hnested := hrunning ▸ h.nested
  have hnodup := h.todo_nodup ⟨license, f :: todo⟩ (by rw [hrunning]; simp)
  rw [hrunning, shown_append, shown_cons] at hmemory
  by_cases hg : g = f
  · subst hg
    rw [if_neg (List.nodup_cons.1 hnodup).1, shown_of_forall_mem]
    · exact License.sameAt_assign_self _ _ _
    · intro later hlater
      exact (List.pairwise_cons.1 (List.pairwise_append.1 hnested).2.1).1 later hlater g
        List.mem_cons_self
  · rw [License.sameAt_assign_of_ne hg]
    have hiff : g ∈ f :: todo ↔ g ∈ todo := by
      rw [List.mem_cons, or_iff_right hg]
    simpa only [hiff] using hmemory

/-- An earlier update is not behind: it has assigned what this one assigns next. -/
theorem Tracks.todo_subset {front back : List (LicenseUpdate Time)} {license : License Time}
    {f : LicenseField} {todo : List LicenseField} (h : s.Tracks F base)
    (hrunning : s.running = front ++ ⟨license, f :: todo⟩ :: back)
    (hfront : ∀ earlier ∈ front, f ∉ earlier.todo) :
    ∀ earlier ∈ front, ∀ g ∈ earlier.todo, g ∈ todo := by
  intro earlier hearlier g hg
  have hnested := hrunning ▸ h.nested
  have hmem := (List.pairwise_append.1 hnested).2.2 earlier hearlier _ List.mem_cons_self g hg
  exact (List.mem_cons.1 hmem).resolve_left fun heq ↦ hfront earlier hearlier (heq ▸ hg)

/-- An update goes on. -/
theorem Tracks.assign_more {front back : List (LicenseUpdate Time)} {license : License Time}
    {f : LicenseField} {todo : List LicenseField} (h : s.Tracks F base)
    (hrunning : s.running = front ++ ⟨license, f :: todo⟩ :: back)
    (hfront : ∀ earlier ∈ front, f ∉ earlier.todo) (hmore : todo ≠ []) :
    Tracks F { s with
      memory := s.memory.assign f license
      running := front ++ ⟨license, todo⟩ :: back } base := by
  have hsubset := h.todo_subset hrunning hfront
  have hall : ∀ {P : LicenseUpdate Time → Prop}, (∀ u ∈ s.running, P u) → P ⟨license, todo⟩ →
      ∀ u ∈ front ++ ⟨license, todo⟩ :: back, P u := by
    intro P hold hnew u hu
    rw [hrunning] at hold
    rcases List.mem_append.1 hu with hu | hu
    · exact hold u (List.mem_append_left _ hu)
    · rcases List.mem_cons.1 hu with rfl | hu
      · exact hnew
      · exact hold u (List.mem_append_right _ (List.mem_cons_of_mem _ hu))
  have hmem : (⟨license, f :: todo⟩ : LicenseUpdate Time) ∈ s.running := by
    rw [hrunning]
    exact List.mem_append_right _ List.mem_cons_self
  constructor
  case base_mem => exact h.base_mem
  case running_mem => exact hall h.running_mem (h.running_mem ⟨license, f :: todo⟩ hmem)
  case memory =>
    intro g
    rw [shown_append, shown_cons]
    exact h.memory_assign hrunning g
  case file =>
    have hfile := h.file
    rw [hrunning, newest, List.foldl_append] at hfile
    rw [newest, List.foldl_append]
    exact hfile
  case todo_ne_nil => exact hall h.todo_ne_nil hmore
  case todo_nodup => exact hall h.todo_nodup (List.nodup_cons.1 (h.todo_nodup _ hmem)).2
  case nested =>
    have hnested := hrunning ▸ h.nested
    obtain ⟨hpre, hpost, hacross⟩ := List.pairwise_append.1 hnested
    obtain ⟨hhead, hback⟩ := List.pairwise_cons.1 hpost
    refine List.pairwise_append.2 ⟨hpre, List.pairwise_cons.2 ⟨?_, hback⟩, ?_⟩
    · exact fun later hlater g hg ↦ hhead later hlater g (List.mem_cons_of_mem f hg)
    · intro earlier hearlier later hlater
      rcases List.mem_cons.1 hlater with rfl | hlater
      · exact hsubset earlier hearlier
      · exact hacross earlier hearlier later (List.mem_cons_of_mem _ hlater)

/-- An update is done: it was the first, and its license is the one to build on. -/
theorem Tracks.assign_last {front back : List (LicenseUpdate Time)} {license : License Time}
    {f : LicenseField} (h : s.Tracks F base)
    (hrunning : s.running = front ++ ⟨license, [f]⟩ :: back)
    (hfront : ∀ earlier ∈ front, f ∉ earlier.todo) :
    Tracks F { s with
      memory := s.memory.assign f license
      running := front ++ back } license := by
  have hsubset := h.todo_subset hrunning hfront
  -- whatever stood before it in the list would have had nothing left to do
  obtain rfl : front = [] := by
    cases front with
    | nil => rfl
    | cons earlier front =>
      have hmem : earlier ∈ s.running := hrunning ▸ List.mem_cons_self
      have hnil : earlier.todo = [] :=
        List.eq_nil_iff_forall_not_mem.2 fun g hg ↦
          List.not_mem_nil (hsubset earlier List.mem_cons_self g hg)
      exact absurd hnil (h.todo_ne_nil earlier hmem)
  have hback : ∀ u ∈ back, u ∈ s.running := fun u hu ↦ hrunning ▸ List.mem_cons_of_mem _ hu
  constructor
  case base_mem => exact h.running_mem ⟨license, [f]⟩ (hrunning ▸ List.mem_cons_self)
  case running_mem => exact fun u hu ↦ h.running_mem u (hback u hu)
  case memory =>
    intro g
    have hmemory := h.memory_assign hrunning g
    rwa [if_neg List.not_mem_nil] at hmemory
  case file =>
    have hfile := h.file
    rw [hrunning] at hfile
    exact hfile
  case todo_ne_nil => exact fun u hu ↦ h.todo_ne_nil u (hback u hu)
  case todo_nodup => exact fun u hu ↦ h.todo_nodup u (hback u hu)
  case nested => exact (List.pairwise_cons.1 (hrunning ▸ h.nested)).2

/-- A lock that comes after those of all earlier updates keeps the invariant. -/
theorem Tracks.assign (h : s.Tracks F base) {i : ℕ} (hok : s.Orderly (.assign i)) :
    ∃ base', (s.assign i).Tracks F base' := by
  rw [LicenseState.assign]
  split
  · rename_i license f todo hget
    obtain ⟨front, back, hrunning, htake, hset, herase⟩ := exists_split hget
    have hfront : ∀ earlier ∈ front, f ∉ earlier.todo := htake ▸ hok _ hget f rfl
    split
    · rename_i hdone
      subst hdone
      exact ⟨license, herase ▸ h.assign_last hrunning hfront⟩
    · rename_i hmore
      exact ⟨base, hset ⟨license, todo⟩ ▸ h.assign_more hrunning hfront hmore⟩
  · exact ⟨base, h⟩

/-! ### Runs -/

section Runs

variable [LT Time] [DecidableLT Time]
variable (F)

def step (s : LicenseState Time) : LicenseAction Time → LicenseState Time
  | .put isAdmin text => s.put F isAdmin text
  | .assign i => s.assign i
  | .check domain now nonGuests =>
    { s with decisions := s.decisions ++
        [.check domain now nonGuests (F.checkLicense s.memory domain now nonGuests)] }
  | .createUser nonGuests =>
    { s with decisions := s.decisions ++ [.createUser nonGuests (s.memory.checkLimit nonGuests)] }

/-- What is wanted of a state: every decision was that of one installed license, and when no update
is under way, the license in memory is an installed one and the one in the file. -/
structure Right (s : LicenseState Time) : Prop where
  decisions : ∀ d ∈ s.decisions, ∃ license ∈ s.installed, d.DecidedBy F license
  settled : s.running = [] → s.memory ∈ s.installed ∧
    ∃ text, s.file = some text ∧ F.fromString text = .ok s.memory

/-- The invariant of a run: what the memory shows, and what was decided so far. -/
structure Sound (s : LicenseState Time) : Prop where
  tracks : ∃ base, s.Tracks F base
  decisions : ∀ d ∈ s.decisions, ∃ license ∈ s.installed, d.DecidedBy F license

variable {F}

/-- A decision by an installed license joins the others. -/
theorem Sound.decide (h : s.Sound F) {d : LicenseDecision Time} {license : License Time}
    (hlicense : license ∈ s.installed) (hd : d.DecidedBy F license) :
    Sound F { s with decisions := s.decisions ++ [d] } := by
  obtain ⟨base, hbase⟩ := h.tracks
  refine ⟨⟨base, hbase.1, hbase.2, hbase.3, hbase.4, hbase.5, hbase.6, hbase.7⟩, fun e he ↦ ?_⟩
  rcases List.mem_append.1 he with he | he
  · exact h.decisions e he
  · exact ⟨license, hlicense, List.mem_singleton.1 he ▸ hd⟩

/-- **One step.** -/
theorem Sound.step (h : s.Sound F) (a : LicenseAction Time) (hok : s.Orderly a) :
    (s.step F a).Sound F := by
  obtain ⟨base, hbase⟩ := h.tracks
  cases a with
  | put isAdmin text =>
    refine ⟨⟨base, hbase.put isAdmin text⟩, ?_⟩
    rw [LicenseState.step, LicenseState.put]
    split
    · split
      · intro d hd
        obtain ⟨license, hlicense, hdecided⟩ := h.decisions d hd
        exact ⟨license, List.mem_append_left _ hlicense, hdecided⟩
      · exact h.decisions
    · exact h.decisions
  | assign i =>
    refine ⟨hbase.assign hok, ?_⟩
    rw [LicenseState.step, LicenseState.assign]
    split
    · exact h.decisions
    · exact h.decisions
  | check domain now nonGuests =>
    -- no field of an update stands in memory, so all of them are of the last complete one
    have hmemory : s.memory = base := by
      refine License.eq_of_sameAt fun f ↦ ?_
      have hf := hbase.memory f
      rwa [shown_of_forall_mem base fun update hupdate ↦
        hok update hupdate ▸ LicenseField.mem_order f] at hf
    exact h.decide hbase.base_mem (congrArg (F.checkLicense · domain now nonGuests) hmemory)
  | createUser nonGuests =>
    -- the limit is of some installed license, whichever assigned it
    have hlimit := hbase.memory .userLimit
    refine h.decide (shown_mem (f := .userLimit) hbase.base_mem hbase.running_mem) ?_
    show s.memory.checkLimit nonGuests = License.checkLimit _ nonGuests
    rw [License.checkLimit, License.checkLimit]
    exact congrArg (fun limit ↦ ensure (¬nonGuests ≥ limit) _) hlimit

theorem Sound.right (h : s.Sound F) : s.Right F := by
  obtain ⟨base, hbase⟩ := h.tracks
  refine ⟨h.decisions, fun hidle ↦ ?_⟩
  have hmemory : s.memory = base := by
    refine License.eq_of_sameAt fun f ↦ ?_
    have hf := hbase.memory f
    rwa [hidle] at hf
  obtain ⟨text, hfile, htext⟩ := hbase.file
  rw [hidle] at htext
  exact ⟨hmemory ▸ hbase.base_mem, text, hfile, hmemory ▸ htext⟩

variable (F)

/-- After `load_license`: the license of the file is in memory. -/
structure Loaded (s : LicenseState Time) : Prop where
  file : ∃ text, s.file = some text ∧ F.fromString text = .ok s.memory
  running : s.running = []
  installed : s.installed = [s.memory]
  decisions : s.decisions = []

variable {F}

theorem Loaded.sound (h : s.Loaded F) : s.Sound F := by
  refine ⟨⟨s.memory, ?_⟩, by rw [h.decisions]; exact fun d hd ↦ absurd hd List.not_mem_nil⟩
  have hrunning := h.running
  constructor
  case base_mem => exact h.installed ▸ List.mem_singleton_self _
  case memory =>
    intro f
    rw [hrunning]
    exact License.sameAt_refl f _
  case file =>
    rw [hrunning]
    exact h.file
  case nested =>
    rw [hrunning]
    exact List.Pairwise.nil
  all_goals
    rw [hrunning]
    exact fun u hu ↦ absurd hu List.not_mem_nil

/-- A request without permission, or with a text that is no license, changes nothing. -/
theorem step_put_refused (s : LicenseState Time) {isAdmin : Bool} {text : Text}
    (h : ¬(s.file.isNone = true ∨ isAdmin = true) ∨ ∃ e, F.fromString text = .error e) :
    s.step F (.put isAdmin text) = s := by
  rw [LicenseState.step, LicenseState.put]
  rcases h with hforbidden | ⟨e, he⟩
  · rw [if_neg hforbidden]
  · rw [he]
    exact ite_self s

/-- **In every state of an orderly run all decisions were those of one installed license, the
license in memory is the one in the file once no update is under way, and a refused update changes
nothing.** -/
theorem right_of_orderly (h : s.Loaded F) {as : List (LicenseAction Time)}
    (hok : Along (total (step F)) Orderly s as) :
    (as.foldl (step F) s).Right F ∧ ∀ isAdmin text,
      (¬((as.foldl (step F) s).file.isNone = true ∨ isAdmin = true) ∨
        ∃ e, F.fromString text = .error e) →
      (as.foldl (step F) s).step F (.put isAdmin text) = as.foldl (step F) s :=
  ⟨(run_induction_along (fun _ a _ hs ha heq ↦ Option.some.inj heq ▸ hs.step a ha) h.sound hok
    (run_total _ _ _)).right, fun _ _ ↦ step_put_refused _⟩

/-! ### Two updates at once -/

open LicenseFormats

theorem step_put_ok (s : LicenseState Time) {text : Text} {license : License Time}
    (h : F.fromString text = .ok license) : s.step F (.put true text) =
      { s with
        file := some text
        running := s.running ++ [⟨license, LicenseField.order⟩]
        installed := s.installed ++ [license] } := by
  rw [LicenseState.step, LicenseState.put, if_pos (.inr rfl), h]

/-- The server after its start, with the license for nine users. -/
def loadedGenuine : LicenseState NewYear := ⟨some genuineText, genuine, [], [genuine], []⟩

theorem loaded_loadedGenuine : loadedGenuine.Loaded newYears :=
  ⟨⟨genuineText, rfl, fromString_genuineText⟩, rfl, rfl, rfl⟩

/-- The first update has written the file and waits, the second one goes through, and then the first
one assigns its fields. -/
def crossedRun : List (LicenseAction NewYear) :=
  .put true raisedText :: .put true genuineText ::
    (List.replicate 5 (.assign 1) ++ List.replicate 5 (.assign 0))

/-- The file has one license, the memory the other. -/
theorem not_forall_runs_right : ¬∀ as : List (LicenseAction NewYear),
    (as.foldl (step newYears) loadedGenuine).Right newYears := by
  intro h
  have hright := h crossedRun
  have hrun : crossedRun.foldl (step newYears) loadedGenuine =
      ⟨some genuineText, { genuine with userLimit := 9999 }, [],
        [genuine, { genuine with userLimit := 9999 }, genuine], []⟩ := by
    rw [crossedRun, List.foldl_cons, step_put_ok _ fromString_raisedText, List.foldl_cons,
      step_put_ok _ fromString_genuineText]
    rfl
  rw [hrun] at hright
  obtain ⟨-, text, hfile, htext⟩ := hright.settled rfl
  obtain rfl := Option.some.inj hfile
  have hsame := congrArg License.userLimit (Except.ok.inj (fromString_genuineText.symm.trans htext))
  revert hsame
  decide

omit [LT Time] [DecidableLT Time] in
theorem orderly_assign_zero (s : LicenseState Time) : s.Orderly (.assign 0) :=
  fun _ _ _ _ _ hearlier ↦ absurd hearlier List.not_mem_nil

/-- A check, and then an update that is left alone. -/
def aloneRun : List (LicenseAction NewYear) :=
  [.check (some "chat.example".toList) false 3, .put true raisedText, .assign 0, .assign 0,
    .assign 0, .assign 0, .assign 0]

theorem right_aloneRun : (aloneRun.foldl (step newYears) loadedGenuine).Right newYears := by
  refine (right_of_orderly loaded_loadedGenuine ?_).1
  refine along_total_cons.2 ⟨fun _ hupdate ↦ absurd hupdate List.not_mem_nil,
    along_total_cons.2 ⟨trivial, ?_⟩⟩
  generalize LicenseState.step newYears _ _ = s
  refine along_total_cons.2 ⟨orderly_assign_zero _, along_total_cons.2 ⟨orderly_assign_zero _, ?_⟩⟩
  refine along_total_cons.2 ⟨orderly_assign_zero _, along_total_cons.2 ⟨orderly_assign_zero _, ?_⟩⟩
  exact along_total_cons.2 ⟨orderly_assign_zero _, trivial⟩

end Runs

end LicenseState

end VoceChat
