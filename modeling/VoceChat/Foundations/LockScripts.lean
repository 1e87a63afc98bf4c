import VoceChat.Foundations.FairLocks
import VoceChat.Foundations.Run

/-!
# Scripts of locks

A script that gives back what it takes, the last lock taken first, takes its locks from the locks it
has: a discipline says which one it may take with which ones (`Follows`). Code whose guards are
scoped is such a script however its choices are made, as soon as all its guards are taken where the
discipline allows it (`Disciplined.follows`), which can be read off the code.

Of scripts that follow a discipline, two things are kept by a run. What is held of a lock is what
the script has still to give back of it (`Typed`). And where those that ask for a lock with certain
scripts find only tasks that give the lock back before they ask for another one, those that wait
with such scripts wait for no others later (`Yielding`).
-/

namespace FairLocks

/-! ### What the scripts and the locks make certain together -/

/-- The locks that a script gives back without having taken them, the last one taken first. -/
def owed {ℓ : Type} : List (Op ℓ) → List ℓ
  | [] => []
  | .acquire _ _ :: ops => (owed ops).tail
  | .release l :: ops => l :: owed ops

/-- A script goes on from these locks, gives all back, the last one taken first, and takes each only
where a discipline allows it. -/
def Follows {ℓ : Type} (Allows : List (ℓ × Mode) → ℓ → Mode → Prop) :
    List (ℓ × Mode) → List (Op ℓ) → Prop
  | held, [] => held = []
  | held, .acquire l m :: ops => Allows held l m ∧ Follows Allows ((l, m) :: held) ops
  | held, .release l :: ops => ∃ m rest, held = (l, m) :: rest ∧ Follows Allows rest ops

theorem Follows.owed_eq {ℓ : Type} {Allows : List (ℓ × Mode) → ℓ → Mode → Prop}
    {held : List (ℓ × Mode)} {ops : List (Op ℓ)} (h : Follows Allows held ops) :
    owed ops = held.map Prod.fst := by
  induction ops generalizing held with
  | nil =>
    have hnil : held = [] := h
    rw [hnil]
    rfl
  | cons op ops ih =>
    cases op with
    | acquire l m => rw [owed, ih h.2, List.map_cons, List.tail_cons]
    | release l =>
      obtain ⟨m, rest, rfl, hrest⟩ := h
      rw [owed, ih hrest, List.map_cons]

namespace State

variable {ℓ : Type} [DecidableEq ℓ] {s : State ℓ} {l k : ℓ} {e : ℕ × Mode} {queue : List (ℕ × Mode)}
  {u v : ℕ} {m : Mode} {ops : List (Op ℓ)} {Allows : List (ℓ × Mode) → ℓ → Mode → Prop}

/-- The scripts follow the discipline, from the locks that are held. -/
def Typed (Allows : List (ℓ × Mode) → ℓ → Mode → Prop) (s : State ℓ) : Prop :=
  ∃ held : ℕ → List (ℓ × Mode), (∀ u, Follows Allows (held u) (s.rest u)) ∧
    (∀ l u, (s.locks l).owners.count u ≤ ((held u).map Prod.fst).count l) ∧
    ∀ l u, (u, .write) ∈ (s.locks l).holders → (l, .write) ∈ held u

theorem typed_start {scripts : ℕ → List (Op ℓ)} (h : ∀ u, Follows Allows [] (scripts u)) :
    (start scripts).Typed Allows :=
  ⟨fun _ ↦ [], h, fun _ _ ↦ Nat.le_refl 0, fun _ _ hmem ↦ absurd hmem List.not_mem_nil⟩

/-- What an owner may do next. -/
theorem Typed.of_owner (h : s.Typed Allows) (hu : u ∈ (s.locks l).owners)
    (hrest : s.rest u = .acquire k m :: ops) :
    l ∈ owed (s.rest u) ∧ ∃ held, Allows held k m ∧ l ∈ held.map Prod.fst ∧
      ((u, .write) ∈ (s.locks l).holders → (l, .write) ∈ held) := by
  obtain ⟨held, hfollows, hcount, hwrite⟩ := h
  have hmem : l ∈ (held u).map Prod.fst :=
    List.count_pos_iff.1 (Nat.lt_of_lt_of_le (List.count_pos_iff.2 hu) (hcount l u))
  refine ⟨(hfollows u).owed_eq ▸ hmem, held u, ?_, hmem, hwrite l u⟩
  have hnext := hfollows u
  rw [hrest] at hnext
  exact hnext.1

theorem Typed.grant (h : s.Typed Allows) (hrest : s.rest e.1 = .acquire l e.2 :: ops) :
    (s.grant l e queue).Typed Allows := by
  obtain ⟨held, hfollows, hcount, hwrite⟩ := h
  refine ⟨Function.update held e.1 ((l, e.2) :: held e.1), fun u ↦ ?_, fun k u ↦ ?_,
    fun k u hu ↦ ?_⟩
  · by_cases hu : u = e.1
    · have hnext := hfollows e.1
      rw [hrest] at hnext
      rw [hu, Function.update_self, rest_grant_self, hrest]
      exact hnext.2
    · rw [Function.update_of_ne hu, rest_grant_of_ne hu]
      exact hfollows u
  · have hold := hcount k u
    by_cases hk : k = l
    · rw [hk] at hold ⊢
      rw [owners_grant_self, List.count_append]
      by_cases hu : u = e.1
      · rw [hu] at hold ⊢
        rw [Function.update_self, List.count_singleton_self, List.map_cons, List.count_cons_self]
        exact Nat.succ_le_succ hold
      · rw [Function.update_of_ne hu,
          List.count_eq_zero_of_not_mem fun hmem ↦ hu (List.mem_singleton.1 hmem)]
        exact hold
    · rw [locks_grant_of_ne hk]
      by_cases hu : u = e.1
      · rw [hu] at hold ⊢
        rw [Function.update_self, List.map_cons, List.count_cons_of_ne (Ne.symm hk)]
        exact hold
      · rw [Function.update_of_ne hu]
        exact hold
  · by_cases hk : k = l
    · rw [hk] at hu ⊢
      rw [locks_grant_self] at hu
      rcases List.mem_append.1 hu with hold | hnew
      · by_cases hue : u = e.1
        · rw [hue, Function.update_self]
          exact List.mem_cons_of_mem _ (hwrite l e.1 (hue ▸ hold))
        · rw [Function.update_of_ne hue]
          exact hwrite l u hold
      · obtain rfl := List.mem_singleton.1 hnew
        rw [Function.update_self]
        exact List.mem_cons_self
    · rw [locks_grant_of_ne hk] at hu
      by_cases hue : u = e.1
      · rw [hue, Function.update_self]
        exact List.mem_cons_of_mem _ (hwrite k e.1 (hue ▸ hu))
      · rw [Function.update_of_ne hue]
        exact hwrite k u hu

theorem Typed.giveBack (hs : s.Sound) (h : s.Typed Allows) (hrest : s.rest u = .release l :: ops) :
    (s.giveBack l u).Typed Allows := by
  obtain ⟨held, hfollows, hcount, hwrite⟩ := h
  have hnext := hfollows u
  rw [hrest] at hnext
  obtain ⟨m, below, hheld, hbelow⟩ := hnext
  refine ⟨Function.update held u below, fun v ↦ ?_, fun k v ↦ ?_, fun k v hv ↦ ?_⟩
  · by_cases hv : v = u
    · rw [hv, Function.update_self, rest_giveBack_self, hrest]
      exact hbelow
    · rw [Function.update_of_ne hv, rest_giveBack_of_ne hv]
      exact hfollows v
  · have hold := hcount k v
    by_cases hv : v = u
    · rw [hv, hheld, List.map_cons] at hold
      rw [hv, Function.update_self]
      by_cases hk : k = l
      · rw [hk, List.count_cons_self] at hold
        rw [hk, owners_giveBack_self, List.count_erase_self]
        exact Nat.sub_le_of_le_add hold
      · rw [List.count_cons_of_ne (Ne.symm hk)] at hold
        rw [locks_giveBack_of_ne hk]
        exact hold
    · rw [Function.update_of_ne hv]
      by_cases hk : k = l
      · rw [hk] at hold ⊢
        rw [owners_giveBack_self, List.count_erase_of_ne hv]
        exact hold
      · rw [locks_giveBack_of_ne hk]
        exact hold
  · by_cases hk : k = l
    · rw [hk, locks_giveBack_self] at hv
      have hmem := List.mem_of_mem_eraseP hv
      have hne : v ≠ u := by
        rintro rfl
        -- a writer is alone, and gives back what it has
        have hnil : ([(v, Mode.write)].eraseP fun e ↦ e.1 = v) = [] :=
          List.eraseP_cons_of_pos (decide_eq_true rfl)
        rw [hs.exclusive l v hmem, hnil] at hv
        exact List.not_mem_nil hv
      rw [Function.update_of_ne hne, hk]
      exact hwrite l v hmem
    · rw [locks_giveBack_of_ne hk] at hv
      have hmem := hwrite k v hv
      by_cases hne : v = u
      · rw [hne, hheld] at hmem
        rw [hne, Function.update_self]
        exact (List.mem_cons.1 hmem).resolve_left fun heq ↦ hk (Prod.mk.inj heq).1
      · rw [Function.update_of_ne hne]
        exact hmem

theorem Typed.enqueue (h : s.Typed Allows) : (s.enqueue l e).Typed Allows := by
  obtain ⟨held, hfollows, hcount, hwrite⟩ := h
  refine ⟨held, hfollows, fun k u ↦ ?_, fun k u hu ↦ ?_⟩
  · rw [Lock.owners, holders_enqueue]
    exact hcount k u
  · rw [holders_enqueue] at hu
    exact hwrite k u hu

end State

/-! ### Who gives a lock back before asking for another one -/

/-- A script gives the lock back before it takes any other. -/
def Yields {ℓ : Type} (l : ℓ) : List (Op ℓ) → Prop
  | [] => True
  | .acquire _ _ :: ops => l ∉ (owed ops).tail
  | .release _ :: ops => Yields l ops

instance decidableYields {ℓ : Type} [DecidableEq ℓ] (l : ℓ) :
    ∀ ops : List (Op ℓ), Decidable (Yields l ops)
  | [] => .isTrue trivial
  | .acquire _ _ :: ops => inferInstanceAs (Decidable (l ∉ (owed ops).tail))
  | .release _ :: ops => decidableYields l ops

namespace State

variable {ℓ : Type} [DecidableEq ℓ] {s : State ℓ} {l k : ℓ} {e : ℕ × Mode} {queue : List (ℕ × Mode)}
  {u v : ℕ} {m : Mode} {ops : List (Op ℓ)} {Allows : List (ℓ × Mode) → ℓ → Mode → Prop}
  {Patient : List (Op ℓ) → Prop}

/-- Those who have the lock, and those of a queue once they have it, give it back before they ask
for another one. -/
def ClearOf (s : State ℓ) (l : ℓ) (front : List (ℕ × Mode)) : Prop :=
  (∀ e ∈ (s.locks l).holders, Yields l (s.rest e.1)) ∧ ∀ e ∈ front, Yields l (s.rest e.1).tail

/-- Everyone who waits with such a script waits for tasks that give the lock back before they ask
for another one. -/
def Yielding (Patient : List (Op ℓ) → Prop) (s : State ℓ) : Prop :=
  ∀ l front e back, (s.locks l).queue = front ++ e :: back → Patient (s.rest e.1) →
    s.ClearOf l front

/-- A task that has such a script asks only for what its owners, and those who wait already, give
back before they ask for another one. -/
def Careful (Patient : List (Op ℓ) → Prop) (s : State ℓ) (u : ℕ) : Prop :=
  Patient (s.rest u) → ∀ op ∈ (s.rest u).head?, u ∉ (s.locks op.lock).waiting →
    s.ClearOf op.lock (s.locks op.lock).queue

instance (l : ℓ) (front : List (ℕ × Mode)) : Decidable (s.ClearOf l front) :=
  inferInstanceAs (Decidable ((∀ e ∈ (s.locks l).holders, Yields l (s.rest e.1)) ∧
    ∀ e ∈ front, Yields l (s.rest e.1).tail))

instance [DecidablePred Patient] (u : ℕ) : Decidable (s.Careful Patient u) :=
  inferInstanceAs (Decidable (Patient (s.rest u) → ∀ op ∈ (s.rest u).head?,
    u ∉ (s.locks op.lock).waiting → s.ClearOf op.lock (s.locks op.lock).queue))

/-- Who has a lock and takes another one does not give it back before. -/
theorem Typed.not_yields (h : s.Typed Allows) (he : e ∈ (s.locks l).holders)
    (hrest : s.rest e.1 = .acquire k m :: ops) : ¬Yields l (s.rest e.1) := by
  have howed := (h.of_owner (List.mem_map_of_mem he) hrest).1
  rw [hrest] at howed ⊢
  exact not_not_intro howed

theorem Yielding.grant (hs : s.Sound) (htyped : s.Typed Allows) (h : s.Yielding Patient)
    (hnext : s.Next l e queue) (hrest : s.rest e.1 = .acquire l e.2 :: ops) :
    (s.grant l e queue).Yielding Patient := by
  intro k front e' back hqueue hpatient
  have hsame : ∀ f ∈ front ++ e' :: back, (s.grant l e queue).rest f.1 = s.rest f.1 := fun f hf ↦
    rest_grant_of_ne (hs.mem_queue_grant hnext hrest (hqueue ▸ hf)).2
  rw [hsame e' (by simp)] at hpatient
  -- an owner that is not the one that gets the lock has not moved
  have howner : ∀ f ∈ (s.locks k).holders, Yields k (s.rest f.1) →
      Yields k ((s.grant l e queue).rest f.1) := by
    intro f hf hyields
    have hne : f.1 ≠ e.1 := fun heq ↦ htyped.not_yields hf (heq ▸ hrest) hyields
    rwa [rest_grant_of_ne hne]
  by_cases hk : k = l
  · obtain rfl := hk
    rw [locks_grant_self] at hqueue
    have hsplit : queue = front ++ e' :: back := hqueue
    rcases hnext with hold | ⟨-, hnil⟩
    · rw [hsplit] at hold
      obtain ⟨hholders, hfront⟩ := h k (e :: front) e' back hold hpatient
      refine ⟨fun f hf ↦ ?_, fun f hf ↦ ?_⟩
      · rw [locks_grant_self] at hf
        rcases List.mem_append.1 hf with hf | hf
        · exact howner f hf (hholders f hf)
        · rw [List.mem_singleton.1 hf, rest_grant_self]
          exact hfront e List.mem_cons_self
      · rw [hsame f (List.mem_append_left _ hf)]
        exact hfront f (List.mem_cons_of_mem e hf)
    · rw [hnil] at hsplit
      exact absurd hsplit.symm (List.append_ne_nil_of_right_ne_nil _ (List.cons_ne_nil _ _))
  · rw [locks_grant_of_ne hk] at hqueue
    obtain ⟨hholders, hfront⟩ := h k front e' back hqueue hpatient
    refine ⟨fun f hf ↦ ?_, fun f hf ↦ ?_⟩
    · rw [locks_grant_of_ne hk] at hf
      exact howner f hf (hholders f hf)
    · rw [hsame f (List.mem_append_left _ hf)]
      exact hfront f hf

theorem holders_giveBack_sublist :
    ((s.giveBack l u).locks k).holders.Sublist (s.locks k).holders := by
  by_cases hk : k = l
  · rw [hk, locks_giveBack_self]
    exact List.eraseP_sublist
  · rw [locks_giveBack_of_ne hk]

theorem Yielding.giveBack (hs : s.Sound) (h : s.Yielding Patient)
    (hrest : s.rest u = .release l :: ops) : (s.giveBack l u).Yielding Patient := by
  intro k front e back hqueue hpatient
  have hsame : ∀ f ∈ front ++ e :: back, (s.giveBack l u).rest f.1 = s.rest f.1 := fun f hf ↦
    rest_giveBack_of_ne (hs.mem_queue_giveBack hrest (hqueue ▸ hf)).2
  rw [hsame e (by simp)] at hpatient
  rw [queue_giveBack] at hqueue
  obtain ⟨hholders, hfront⟩ := h k front e back hqueue hpatient
  refine ⟨fun f hf ↦ ?_, fun f hf ↦ ?_⟩
  · have hyields := hholders f (holders_giveBack_sublist.subset hf)
    by_cases hu : f.1 = u
    · rw [hu, hrest] at hyields
      rw [hu, rest_giveBack_self, hrest]
      exact hyields
    · rwa [rest_giveBack_of_ne hu]
  · rw [hsame f (List.mem_append_left _ hf)]
    exact hfront f hf

theorem Yielding.enqueue (h : s.Yielding Patient) (hcareful : s.Careful Patient u)
    (hrest : s.rest u = .acquire l m :: ops) (hnew : u ∉ (s.locks l).waiting) :
    (s.enqueue l (u, m)).Yielding Patient := by
  intro k front e back hqueue hpatient
  suffices s.ClearOf k front by
    refine ⟨fun f hf ↦ this.1 f ?_, this.2⟩
    rwa [holders_enqueue] at hf
  by_cases hk : k = l
  · obtain rfl := hk
    rw [locks_enqueue_self] at hqueue
    rcases List.eq_nil_or_concat back with rfl | ⟨back, f, rfl⟩
    · -- the new one, behind all the others
      obtain ⟨rfl, heq⟩ := List.append_inj' hqueue rfl
      obtain rfl := List.singleton_inj.1 heq
      rw [rest_enqueue] at hpatient
      exact hcareful hpatient (.acquire k m) (by rw [hrest]; rfl) hnew
    · rw [List.concat_eq_append, ← List.cons_append, ← List.append_assoc] at hqueue
      exact h k front e back (List.append_inj' hqueue rfl).1 hpatient
  · rw [locks_enqueue_of_ne hk] at hqueue
    exact h k front e back hqueue hpatient

/-- What makes a step careful keeps those waits harmless. -/
theorem Careful.run (hs : s.Sound) (h : s.Typed Allows ∧ s.Yielding Patient)
    (hcareful : s.Careful Patient u) :
    (s.run u).Sound ∧ (s.run u).Typed Allows ∧ (s.run u).Yielding Patient := by
  refine run_rule (P := fun s ↦ s.Typed Allows ∧ s.Yielding Patient) ⟨?_, ?_⟩ hs h ?_
  · intro s l e queue ops hs h hnext _ hrest
    exact ⟨h.1.grant hrest, h.2.grant hs h.1 hnext hrest⟩
  · intro s l u ops hs h hrest
    exact ⟨h.1.giveBack hs hrest, h.2.giveBack hs hrest⟩
  · intro l m ops hrest hnew _
    exact ⟨h.1.enqueue, h.2.enqueue hcareful hrest hnew⟩

omit [DecidableEq ℓ] in
theorem yielding_start (scripts : ℕ → List (Op ℓ)) : (start scripts).Yielding Patient :=
  fun _ _ _ _ hqueue _ ↦
    absurd hqueue.symm (List.append_ne_nil_of_right_ne_nil _ (List.cons_ne_nil _ _))

/-- **All runs of careful steps.** -/
theorem careful_run {scripts : ℕ → List (Op ℓ)} (hscripts : ∀ u, Follows Allows [] (scripts u))
    {as : List ℕ}
    (hok : Transition.Along (Transition.total State.run) (Careful Patient) (start scripts) as) :
    (as.foldl State.run (start scripts)).Sound ∧
      ((as.foldl State.run (start scripts)).Typed Allows ∧
        (as.foldl State.run (start scripts)).Yielding Patient) ∧
      (as.foldl State.run (start scripts)).Blocked := by
  refine Transition.run_induction_along
    (I := fun s : State ℓ ↦ s.Sound ∧ (s.Typed Allows ∧ s.Yielding Patient) ∧ s.Blocked)
    (fun s u t hs hcareful hrun ↦ ?_)
    ⟨sound_start scripts, ⟨typed_start hscripts, yielding_start scripts⟩, blocked_start scripts⟩
    hok (Transition.run_total _ _ _)
  obtain rfl := Option.some.inj hrun
  obtain ⟨hsound, hkept, hblocked⟩ := hs
  obtain ⟨hsound', hkept'⟩ := Careful.run hsound hkept hcareful
  exact ⟨hsound', hkept', hblocked.run u⟩

end State

/-! ### Code with guards -/

/-- What code does with the locks. A guard is given back at the end of its scope, also when the code
returns from within. -/
inductive Code (ℓ : Type) where
  | skip
  | exit
  | hold (lock : ℓ) (mode : Mode) (scope : Code ℓ)
  | seq (first second : Code ℓ)
  | either (left right : Code ℓ)
  /-- A call: the code returns to here. -/
  | call (body : Code ℓ)

namespace Code

variable {ℓ : Type}

/-- The code may return. -/
def mayExit : Code ℓ := either skip exit

/-- The code may be left out. -/
def optional (c : Code ℓ) : Code ℓ := either skip c

/-- One of these. -/
def oneOf (c : Code ℓ) (others : List (Code ℓ)) : Code ℓ := others.foldr either c

/-- One after the other. -/
def block (body : List (Code ℓ)) : Code ℓ := body.foldr seq skip

/-- The code that is run when the choices are these: its steps, whether it returns, and the choices
that are left. -/
def follow : Code ℓ → List Bool → List (Op ℓ) × Bool × List Bool
  | skip, choices => ([], false, choices)
  | exit, choices => ([], true, choices)
  | hold l m scope, choices =>
    let r := follow scope choices
    (.acquire l m :: r.1 ++ [.release l], r.2)
  | seq first second, choices =>
    let r := follow first choices
    if r.2.1 then r else
      let r' := follow second r.2.2
      (r.1 ++ r'.1, r'.2)
  | either left right, choices =>
    if choices.headD false then follow right choices.tail else follow left choices.tail
  | call body, choices =>
    let r := follow body choices
    (r.1, false, r.2.2)

/-- The script of the code when the choices are these. -/
def script (c : Code ℓ) (choices : List Bool) : List (Op ℓ) := (c.follow choices).1

/-- All guards are taken where a discipline allows it. -/
def Disciplined (Allows : List (ℓ × Mode) → ℓ → Mode → Prop) : List (ℓ × Mode) → Code ℓ → Prop
  | _, skip => True
  | _, exit => True
  | held, hold l m scope => Allows held l m ∧ Disciplined Allows ((l, m) :: held) scope
  | held, seq first second => Disciplined Allows held first ∧ Disciplined Allows held second
  | held, either left right => Disciplined Allows held left ∧ Disciplined Allows held right
  | held, call body => Disciplined Allows held body

variable {Allows : List (ℓ × Mode) → ℓ → Mode → Prop}

instance decidableDisciplined [∀ held l m, Decidable (Allows held l m)] :
    ∀ (held : List (ℓ × Mode)) (c : Code ℓ), Decidable (c.Disciplined Allows held)
  | _, skip => .isTrue trivial
  | _, exit => .isTrue trivial
  | held, hold l m scope =>
    have := decidableDisciplined ((l, m) :: held) scope
    inferInstanceAs (Decidable (Allows held l m ∧ scope.Disciplined Allows ((l, m) :: held)))
  | held, seq first second =>
    have := decidableDisciplined held first
    have := decidableDisciplined held second
    inferInstanceAs (Decidable (first.Disciplined Allows held ∧ second.Disciplined Allows held))
  | held, either left right =>
    have := decidableDisciplined held left
    have := decidableDisciplined held right
    inferInstanceAs (Decidable (left.Disciplined Allows held ∧ right.Disciplined Allows held))
  | held, call body => decidableDisciplined held body

theorem Disciplined.follows_append {held : List (ℓ × Mode)} {c : Code ℓ}
    (h : c.Disciplined Allows held) (choices : List Bool) {ops : List (Op ℓ)}
    (hops : Follows Allows held ops) : Follows Allows held (c.script choices ++ ops) := by
  induction c generalizing held choices ops with
  | skip => exact hops
  | exit => exact hops
  | hold l m scope ih =>
    have hrest : Follows Allows ((l, m) :: held) (.release l :: ops) := ⟨m, held, rfl, hops⟩
    rw [script, follow, List.append_assoc]
    exact ⟨h.1, ih h.2 choices hrest⟩
  | seq first second ihFirst ihSecond =>
    rw [script, follow]
    split
    · exact ihFirst h.1 choices hops
    · rw [List.append_assoc]
      exact ihFirst h.1 choices (ihSecond h.2 _ hops)
  | either left right ihLeft ihRight =>
    rw [script, follow]
    split
    · exact ihRight h.2 choices.tail hops
    · exact ihLeft h.1 choices.tail hops
  | call body ih => exact ih h choices hops

/-- **However its choices are made, code with scoped guards follows its discipline.** -/
theorem Disciplined.follows {c : Code ℓ} (h : c.Disciplined Allows []) (choices : List Bool) :
    Follows Allows [] (c.script choices) := by
  have hall : Follows Allows [] (c.script choices ++ []) := h.follows_append choices rfl
  rwa [List.append_nil] at hall

end Code

end FairLocks
