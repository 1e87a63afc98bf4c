/-!
# What a successful `Except` computation passed

A check that stops a computation is `ensure`; the lemmas invert computations written in `do`
notation with it: they succeed exactly when every step does. They take a result `… = .ok b` apart
from the front, one step at a time.
-/

namespace Guards

variable {ε ε' α β : Type}

/-- Go on if `p` holds, stop with `e` otherwise. -/
def ensure (p : Prop) [Decidable p] (e : ε) : Except ε Unit := if p then .ok () else .error e

@[simp] theorem ensure_eq_ok {p : Prop} [Decidable p] {e : ε} {u : Unit} :
    ensure p e = .ok u ↔ p := by
  unfold ensure
  by_cases hp : p
  · rw [if_pos hp]
    exact ⟨fun _ ↦ hp, fun _ ↦ rfl⟩
  · rw [if_neg hp]
    exact ⟨nofun, fun h ↦ absurd h hp⟩

/-- `Option::ok_or`. -/
def okOr (o : Option α) (e : ε) : Except ε α :=
  match o with
  | some a => .ok a
  | none => .error e

@[simp] theorem okOr_eq_ok {o : Option α} {e : ε} {a : α} : okOr o e = .ok a ↔ o = some a := by
  cases o with
  | none => exact ⟨nofun, nofun⟩
  | some b => exact ⟨fun h ↦ congrArg some (Except.ok.inj h),
      fun h ↦ congrArg _ (Option.some.inj h)⟩

@[simp] theorem bind_eq_ok {x : Except ε α} {f : α → Except ε β} {b : β} :
    (x >>= f) = .ok b ↔ ∃ a, x = .ok a ∧ f a = .ok b := by
  cases x with
  | error e => exact ⟨nofun, fun ⟨_, h, _⟩ ↦ nomatch h⟩
  | ok a => exact ⟨fun h ↦ ⟨a, rfl, h⟩, fun ⟨_, h, hf⟩ ↦ Except.ok.inj h ▸ hf⟩

/-- The result of a step that returns nothing. -/
@[simp] theorem exists_unit {p : Unit → Prop} : (∃ u, p u) ↔ p () :=
  ⟨fun ⟨_, h⟩ ↦ h, fun h ↦ ⟨(), h⟩⟩

@[simp] theorem pure_eq_ok {a b : α} : (pure a : Except ε α) = .ok b ↔ a = b :=
  ⟨Except.ok.inj, congrArg _⟩

@[simp] theorem map_eq_ok {x : Except ε α} {f : α → β} {b : β} :
    x.map f = .ok b ↔ ∃ a, x = .ok a ∧ f a = b := by
  cases x with
  | error e => exact ⟨nofun, fun ⟨_, h, _⟩ ↦ nomatch h⟩
  | ok a =>
    exact ⟨fun h ↦ ⟨a, rfl, Except.ok.inj h⟩, fun ⟨_, h, hf⟩ ↦ hf ▸ Except.ok.inj h ▸ rfl⟩

@[simp] theorem mapError_eq_ok {x : Except ε α} {f : ε → ε'} {a : α} :
    x.mapError f = .ok a ↔ x = .ok a := by
  cases x with
  | error e => exact ⟨nofun, nofun⟩
  | ok b => exact ⟨fun h ↦ congrArg _ (Except.ok.inj h), fun h ↦ congrArg _ (Except.ok.inj h)⟩

theorem toOption_eq_some {x : Except ε α} {a : α} : x.toOption = some a ↔ x = .ok a := by
  cases x with
  | error e => exact ⟨nofun, nofun⟩
  | ok b => exact ⟨fun h ↦ congrArg _ (Option.some.inj h), fun h ↦ congrArg some (Except.ok.inj h)⟩

/-! ### What stopped it -/

theorem ensure_eq_error {p : Prop} [Decidable p] {e e' : ε} :
    ensure p e = .error e' ↔ ¬p ∧ e = e' := by
  unfold ensure
  by_cases hp : p
  · rw [if_pos hp]
    exact ⟨nofun, fun h ↦ absurd hp h.1⟩
  · rw [if_neg hp]
    exact ⟨fun h ↦ ⟨hp, Except.error.inj h⟩, fun h ↦ congrArg _ h.2⟩

theorem okOr_eq_error {o : Option α} {e e' : ε} : okOr o e = .error e' ↔ o = none ∧ e = e' := by
  cases o with
  | none => exact ⟨fun h ↦ ⟨rfl, Except.error.inj h⟩, fun h ↦ congrArg _ h.2⟩
  | some a => exact ⟨nofun, nofun⟩

theorem bind_eq_error {x : Except ε α} {f : α → Except ε β} {e : ε} :
    (x >>= f) = .error e ↔ x = .error e ∨ ∃ a, x = .ok a ∧ f a = .error e := by
  cases x with
  | error e' =>
    exact ⟨fun h ↦ .inl (congrArg _ (Except.error.inj h)), fun h ↦
      h.elim (fun h ↦ congrArg _ (Except.error.inj h)) fun ⟨_, h, _⟩ ↦ nomatch h⟩
  | ok a =>
    exact ⟨fun h ↦ .inr ⟨a, rfl, h⟩, fun h ↦
      h.elim (fun h ↦ nomatch h) fun ⟨_, h, hf⟩ ↦ Except.ok.inj h ▸ hf⟩

/-- What returns nothing stops. -/
theorem exists_error {x : Except ε α} (h : ∀ a, x ≠ .ok a) : ∃ e, x = .error e := by
  cases x with
  | error e => exact ⟨e, rfl⟩
  | ok a => exact absurd rfl (h a)

/-- A loop of checks goes through when every round does. -/
theorem of_forIn_eq_ok {xs : List α} {f : α → PUnit → Except ε (ForInStep PUnit)}
    (h : forIn xs PUnit.unit f = .ok ()) (hyield : ∀ x step, f x () = .ok step → step = .yield ()) :
    ∀ x ∈ xs, f x () = .ok (.yield ()) := by
  induction xs with
  | nil => exact fun x hx ↦ absurd hx List.not_mem_nil
  | cons y xs ih =>
    rw [List.forIn_cons, bind_eq_ok] at h
    obtain ⟨step, hstep, hrest⟩ := h
    obtain rfl := hyield y step hstep
    intro x hx
    rcases List.mem_cons.1 hx with rfl | hx
    · exact hstep
    · exact ih hrest x hx

/-! ### Computations side by side -/

/-- Both stop with the same error, or both return, what they return being related. -/
inductive Alike (R : α → β → Prop) : Except ε α → Except ε β → Prop
  | error (e : ε) : Alike R (.error e) (.error e)
  | ok {a : α} {b : β} (h : R a b) : Alike R (.ok a) (.ok b)

section

variable {α' β' : Type} {R : α → β → Prop} {S : α' → β' → Prop} {x : Except ε α} {y : Except ε β}

theorem Alike.bind {f : α → Except ε α'} {g : β → Except ε β'} (h : Alike R x y)
    (hfg : ∀ a b, R a b → Alike S (f a) (g b)) : Alike S (x.bind f) (y.bind g) := by
  cases h with
  | error e => exact .error e
  | ok h => exact hfg _ _ h

theorem Alike.map {f : α → α'} {g : β → β'} (h : Alike R x y) (hfg : ∀ a b, R a b → S (f a) (g b)) :
    Alike S (x.map f) (y.map g) := by
  cases h with
  | error e => exact .error e
  | ok h => exact .ok (hfg _ _ h)

/-- A computation beside itself. -/
theorem alike_self {T : α → α → Prop} (hT : ∀ a, T a a) (z : Except ε α) : Alike T z z := by
  cases z with
  | error e => exact .error e
  | ok a => exact .ok (hT a)

end

end Guards
