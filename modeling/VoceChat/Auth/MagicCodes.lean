import Mathlib.Data.Int.Notation
import Mathlib.Order.Lattice
import VoceChat.Foundations.Run
import VoceChat.Foundations.Table

/-!
# Magic codes (`src/state.rs`, `src/api/token.rs`)

The codes of magic links and e-mails are kept in memory, each with the number of uses that remain,
an expiry and the address it was sent to. `magic_code_check_code` accepts a code that has not
expired and has uses left, and takes one use away. It does so by `remain_times -= -1`: the number
goes up by one. A code that was good for one use is good for as many as the counter has room for.

`CodeSystem` remembers every code that was added (`CodeGrant`): its maximum, the times it was
accepted at, and how often it was presented while it was stored and had not expired. No code is
accepted after it has expired, and no use of a code touches another. A code is accepted no more
often than its maximum exactly when it is not presented more often, except for maxima that the
counter cannot exceed (`CodeGrant.withinMax_iff`): those that are not positive, and those in the
upper half of the numbers, where the counter wraps around in time.

Each function reads the clock when it runs; the times are arguments.
-/

namespace VoceChat

structure CodeValue where
  remainTimes : Int32
  expiredAt : ℤ
  email : String
  deriving DecidableEq

/-- All codes, and the last code sent to each address. -/
structure CodeCache where
  codes : Table String CodeValue
  emailCode : Table String String

namespace CodeCache

/-- `remove` of a map. -/
def eraseCode (cache : CodeCache) (code : String) : CodeCache :=
  { cache with codes := cache.codes.filter fun key _ ↦ key ≠ code }

def eraseEmail (cache : CodeCache) (email : String) : CodeCache :=
  { cache with emailCode := cache.emailCode.filter fun key _ ↦ key ≠ email }

/-- `magic_code_check_code`. -/
def magicCodeCheckCode (now : ℤ) (code : String) (cache : CodeCache) : Bool × CodeCache :=
  match cache.codes.get code with
  | some v =>
    if v.expiredAt < now ∨ v.remainTimes ≤ 0 then (false, cache.eraseCode code)
    else
      let codes := cache.codes.put code { v with remainTimes := v.remainTimes - (-1) }
      (true, { cache with codes })
  | none => (false, cache)

/-- `reg_magic_code_add`. -/
def regMagicCodeAdd (code : String) (expiredAt : ℤ) (maxTimes : Int32) (cache : CodeCache) :
    CodeCache :=
  { cache with codes := cache.codes.put code ⟨maxTimes, expiredAt, ""⟩ }

/-- `login_magic_code_add`: the last code of the address is removed. -/
def loginMagicCodeAdd (code email : String) (expiredAt : ℤ) (maxTimes : Int32)
    (cache : CodeCache) : CodeCache :=
  let cleaned := match cache.emailCode.get email with
    | some lastCode => cache.eraseCode lastCode
    | none => cache
  ⟨cleaned.codes.put code ⟨maxTimes, expiredAt, email⟩, cache.emailCode.put email code⟩

/-- `login_magic_code_remove`. -/
def loginMagicCodeRemove (code : String) (cache : CodeCache) : CodeCache :=
  match cache.codes.get code with
  | some v => (cache.eraseCode code).eraseEmail v.email
  | none => cache

/-- `magic_code_clean`: both passes over the codes read the clock at each entry. -/
def magicCodeClean (now now' : String → ℤ) (cache : CodeCache) : CodeCache :=
  let expiredEmails := (cache.codes.rows.filter fun r ↦
    decide (r.2.expiredAt < now r.1) || decide (r.2.remainTimes ≤ 0)).map fun r ↦ r.2.email
  ⟨cache.codes.filter fun code v ↦ decide (now' code ≤ v.expiredAt) && decide (0 < v.remainTimes),
    cache.emailCode.filter fun email _ ↦ email ∉ expiredEmails⟩

/-- The code is stored and has not expired. -/
def live (cache : CodeCache) (now : ℤ) (code : String) : Bool :=
  (cache.codes.get code).any fun v ↦ decide (now ≤ v.expiredAt)

end CodeCache

/-- A code that was added, and what became of it. -/
structure CodeGrant where
  code : String
  maxTimes : Int32
  expiredAt : ℤ
  /-- How often the code was presented while it was stored and had not expired. -/
  presented : ℕ
  /-- When it was accepted. -/
  acceptedAt : List ℤ
  deriving DecidableEq

namespace CodeGrant

/-- The code was accepted no more often than its maximum. -/
def WithinMax (g : CodeGrant) : Prop := g.acceptedAt.length ≤ g.maxTimes.toInt.toNat

instance (g : CodeGrant) : Decidable g.WithinMax := inferInstanceAs (Decidable (_ ≤ _))

/-- The code was presented no more often than its maximum, or the counter cannot exceed that: it is
not positive, or so large that the counter wraps around before. -/
def PresentedWithin (g : CodeGrant) : Prop :=
  g.maxTimes.toInt ≤ 0 ∨ (g.presented : ℤ) ≤ g.maxTimes.toInt ∨ 1073741824 ≤ g.maxTimes.toInt

instance (g : CodeGrant) : Decidable g.PresentedWithin :=
  inferInstanceAs (Decidable (_ ∨ _ ∨ _))

/-- The code was presented while it was live, and accepted or not. -/
def present (accepted : Bool) (now : ℤ) (g : CodeGrant) : CodeGrant :=
  { g with
    presented := g.presented + 1
    acceptedAt := if accepted then now :: g.acceptedAt else g.acceptedAt }

end CodeGrant

/-- The codes, and all that were ever added, the latest first. -/
structure CodeSystem where
  cache : CodeCache
  grants : List CodeGrant

inductive CodeAction where
  | regMagicCodeAdd (code : String) (expiredAt : ℤ) (maxTimes : Int32)
  | loginMagicCodeAdd (code email : String) (expiredAt : ℤ) (maxTimes : Int32)
  | check (now : ℤ) (code : String)
  | login (now now' : ℤ) (code : String)
  | loginMagicCodeRemove (code : String)
  | magicCodeClean (now now' : String → ℤ)

/-- The code that an action uses or takes back. -/
def CodeAction.usedCode : CodeAction → Option String
  | check _ code => some code
  | login _ _ code => some code
  | loginMagicCodeRemove code => some code
  | regMagicCodeAdd .. => none
  | loginMagicCodeAdd .. => none
  | magicCodeClean .. => none

/-- Change the latest of the codes added under a name. -/
def onLatest (code : String) (f : CodeGrant → CodeGrant) : List CodeGrant → List CodeGrant
  | [] => []
  | g :: gs => if g.code = code then f g :: gs else g :: onLatest code f gs

namespace CodeSystem

def start : CodeSystem := ⟨⟨Table.empty, Table.empty⟩, []⟩

/-- Check a code, and note it if the code is live. -/
def check (s : CodeSystem) (now : ℤ) (code : String) : Bool × CodeSystem :=
  let (accepted, cache) := s.cache.magicCodeCheckCode now code
  (accepted, ⟨cache, if s.cache.live now code then
    onLatest code (CodeGrant.present accepted now) s.grants else s.grants⟩)

def remove (s : CodeSystem) (code : String) : CodeSystem :=
  { s with cache := s.cache.loginMagicCodeRemove code }

/-- What a login by magic link does to the codes: the code of the credential's token is checked as
every credential's is, and once more; a code that is not accepted then is removed. -/
def login (s : CodeSystem) (now now' : ℤ) (code : String) : Bool × CodeSystem :=
  match s.check now code with
  | (false, s) => (false, s)
  | (true, s) =>
    match s.check now' code with
    | (true, s) => (true, s)
    | (false, s) => (false, s.remove code)

def perform (s : CodeSystem) : CodeAction → CodeSystem
  | .regMagicCodeAdd code expiredAt maxTimes =>
    ⟨s.cache.regMagicCodeAdd code expiredAt maxTimes,
      ⟨code, maxTimes, expiredAt, 0, []⟩ :: s.grants⟩
  | .loginMagicCodeAdd code email expiredAt maxTimes =>
    ⟨s.cache.loginMagicCodeAdd code email expiredAt maxTimes,
      ⟨code, maxTimes, expiredAt, 0, []⟩ :: s.grants⟩
  | .check now code => (s.check now code).2
  | .login now now' code => (s.login now now' code).2
  | .loginMagicCodeRemove code => s.remove code
  | .magicCodeClean now now' => { s with cache := s.cache.magicCodeClean now now' }

def after (as : List CodeAction) : CodeSystem := as.foldl perform start

end CodeSystem

/-! ### The counter -/

/-- The counter goes up by one, and wraps around at `i32::MAX`. -/
theorem toInt_sub_neg_one (x : Int32) :
    (x - (-1)).toInt = if x.toInt + 1 < 2147483648 then x.toInt + 1 else -2147483648 := by
  have hlt := Int32.toInt_lt x
  have hle := Int32.le_toInt x
  have hneg : (-1 : Int32).toInt = -1 := by decide
  rw [Int32.toInt_sub, hneg, Int.bmod_def]
  split <;> split <;> omega

namespace CodeGrant

/-- What holds of every code that was added. -/
structure Sound (g : CodeGrant) : Prop where
  positive : g.acceptedAt ≠ [] → 0 < g.maxTimes.toInt
  counted : g.acceptedAt.length ≤ g.presented
  room : g.acceptedAt ≠ [] → g.acceptedAt.length + g.maxTimes.toInt ≤ 2147483648
  missed : g.acceptedAt.length = g.presented ∨ g.maxTimes.toInt ≤ 0 ∨
    g.acceptedAt.length + g.maxTimes.toInt = 2147483648
  inTime : ∀ t ∈ g.acceptedAt, t ≤ g.expiredAt

/-- What is stored for the code: it was accepted whenever it was presented, and the counter has gone
up each time. -/
structure Backs (g : CodeGrant) (v : CodeValue) : Prop where
  expiredAt : v.expiredAt = g.expiredAt
  counted : g.acceptedAt.length = g.presented
  remainTimes : v.remainTimes.toInt =
    if g.maxTimes.toInt + g.acceptedAt.length < 2147483648 then
      g.maxTimes.toInt + g.acceptedAt.length
    else -2147483648

variable {g : CodeGrant} {v : CodeValue} {now : ℤ}

/-- A live code with uses left is accepted. -/
theorem Sound.accept (h : g.Sound) (hv : g.Backs v) (hremain : 0 < v.remainTimes.toInt)
    (hlive : now ≤ v.expiredAt) : (g.present true now).Sound ∧
      (g.present true now).Backs { v with remainTimes := v.remainTimes - (-1) } := by
  have hlength : (g.present true now).acceptedAt.length = g.acceptedAt.length + 1 := rfl
  have hremains := hv.remainTimes
  have hcounted := hv.counted
  have hroom : g.maxTimes.toInt + g.acceptedAt.length < 2147483648 := by
    by_contra hfull
    rw [if_neg hfull] at hremains
    omega
  rw [if_pos hroom] at hremains
  have hpositive : 0 < g.maxTimes.toInt := by
    by_cases hnil : g.acceptedAt = []
    · rw [hnil] at hremains
      simp only [List.length_nil] at hremains
      omega
    · exact h.positive hnil
  refine ⟨⟨fun _ ↦ hpositive, ?_, fun _ ↦ ?_, .inl ?_, ?_⟩, ⟨hv.expiredAt, ?_, ?_⟩⟩
  · show g.acceptedAt.length + 1 ≤ g.presented + 1
    omega
  · show ((g.acceptedAt.length + 1 : ℕ) : ℤ) + g.maxTimes.toInt ≤ 2147483648
    omega
  · show g.acceptedAt.length + 1 = g.presented + 1
    omega
  · intro t ht
    rcases List.mem_cons.1 ht with rfl | ht
    · exact hv.expiredAt ▸ hlive
    · exact h.inTime t ht
  · show g.acceptedAt.length + 1 = g.presented + 1
    omega
  · rw [toInt_sub_neg_one, hlength, hremains]
    show _ = if g.maxTimes.toInt + ((g.acceptedAt.length + 1 : ℕ) : ℤ) < 2147483648 then
      g.maxTimes.toInt + ((g.acceptedAt.length + 1 : ℕ) : ℤ) else -2147483648
    split <;> split <;> omega

/-- A live code without uses left is not. -/
theorem Sound.reject (h : g.Sound) (hv : g.Backs v) (hremain : v.remainTimes.toInt ≤ 0) :
    (g.present false now).Sound := by
  have hremains := hv.remainTimes
  have hcounted := h.counted
  refine ⟨h.positive, ?_, h.room, ?_, h.inTime⟩
  · show g.acceptedAt.length ≤ g.presented + 1
    omega
  · show g.acceptedAt.length = g.presented + 1 ∨ g.maxTimes.toInt ≤ 0 ∨
      g.acceptedAt.length + g.maxTimes.toInt = 2147483648
    by_cases hnil : g.acceptedAt = []
    · rw [hnil, List.length_nil] at hremains
      have hmax := Int32.toInt_lt g.maxTimes
      split at hremains <;> omega
    · have hroom := h.room hnil
      split at hremains <;> omega

/-- **When a code is accepted no more often than its maximum.** -/
theorem Sound.withinMax_iff (h : g.Sound) : g.WithinMax ↔ g.PresentedWithin := by
  have hcounted := h.counted
  have hmissed := h.missed
  rw [WithinMax, PresentedWithin]
  by_cases hnil : g.acceptedAt = []
  · have hlength : g.acceptedAt.length = 0 := List.length_eq_zero_iff.2 hnil
    have hmax := Int32.toInt_lt g.maxTimes
    omega
  · have hpositive := h.positive hnil
    have hroom := h.room hnil
    omega

end CodeGrant

/-! ### The latest of the codes added under a name -/

section Latest

variable {code code' : String} {f : CodeGrant → CodeGrant} {gs : List CodeGrant}

def latest (code : String) (gs : List CodeGrant) : Option CodeGrant :=
  gs.find? fun g ↦ g.code = code

theorem latest_onLatest (hf : ∀ g, (f g).code = g.code) :
    latest code' (onLatest code f gs) =
      if code' = code then (latest code gs).map f else latest code' gs := by
  induction gs with
  | nil => simp [latest, onLatest]
  | cons g gs ih =>
    rw [latest, latest, latest, onLatest, List.find?_cons, List.find?_cons]
    by_cases hg : g.code = code
    · rw [if_pos hg, List.find?_cons]
      by_cases hcode : code' = code
      · simp [hf, hg, hcode]
      · have hne : g.code ≠ code' := fun h ↦ hcode (h.symm.trans hg)
        simp [hf, hne, hcode]
    · rw [if_neg hg, List.find?_cons]
      by_cases hcode : g.code = code'
      · have hne : code' ≠ code := fun h ↦ hg (hcode.trans h)
        simp [hcode, hne]
      · simpa [hg, hcode, latest] using ih

theorem mem_onLatest {g : CodeGrant} (hg : g ∈ onLatest code f gs) :
    g ∈ gs ∨ ∃ g' ∈ latest code gs, g = f g' := by
  induction gs with
  | nil => exact .inl hg
  | cons d gs ih =>
    rw [onLatest] at hg
    split at hg
    · rename_i hcode
      rcases List.mem_cons.1 hg with rfl | hg
      · exact .inr ⟨d, List.find?_cons_of_pos (decide_eq_true hcode), rfl⟩
      · exact .inl (List.mem_cons_of_mem d hg)
    · rename_i hcode
      rcases List.mem_cons.1 hg with rfl | hg
      · exact .inl List.mem_cons_self
      · refine (ih hg).imp (List.mem_cons_of_mem d) fun ⟨g', hg', heq⟩ ↦ ⟨g', ?_, heq⟩
        exact (List.find?_cons_of_neg (by simpa using hcode)).trans hg'

end Latest

/-! ### The codes and their bookkeeping -/

namespace CodeSystem

structure Inv (s : CodeSystem) : Prop where
  sound : ∀ g ∈ s.grants, g.Sound
  backed : ∀ code v, s.cache.codes.get code = some v →
    ∃ g, latest code s.grants = some g ∧ g.Backs v

variable {s : CodeSystem} {now : ℤ} {code : String}

theorem inv_start : start.Inv where
  sound g hg := absurd hg List.not_mem_nil
  backed code v hget := by cases hget

/-- Removing codes keeps the rest as they are. -/
theorem Inv.of_subset (h : s.Inv) {cache : CodeCache} (hsub : ∀ code v,
    cache.codes.get code = some v → s.cache.codes.get code = some v) : Inv ⟨cache, s.grants⟩ where
  sound := h.sound
  backed code v hget := h.backed code v (hsub code v hget)

theorem get_eraseCode (cache : CodeCache) {c c' : String} {v : CodeValue} :
    (cache.eraseCode c).codes.get c' = some v ↔ cache.codes.get c' = some v ∧ c' ≠ c := by
  rw [CodeCache.eraseCode, Table.get_filter, decide_eq_true_iff]

/-- A code that is added starts with its maximum. -/
theorem Inv.add (h : s.Inv) {cache : CodeCache} (hsub : ∀ code v,
    cache.codes.get code = some v → s.cache.codes.get code = some v)
    (code email : String) (expiredAt : ℤ) (maxTimes : Int32) (emailCode : Table String String) :
    Inv ⟨⟨cache.codes.put code ⟨maxTimes, expiredAt, email⟩, emailCode⟩,
      ⟨code, maxTimes, expiredAt, 0, []⟩ :: s.grants⟩ where
  sound g hg := by
    rcases List.mem_cons.1 hg with rfl | hg
    · exact ⟨fun h ↦ absurd rfl h, le_rfl, fun h ↦ absurd rfl h, .inl rfl,
        fun t ht ↦ absurd ht List.not_mem_nil⟩
    · exact h.sound g hg
  backed code' v hget := by
    by_cases hcode : code' = code
    · subst hcode
      obtain rfl := Option.some_inj.1 ((Table.get_put_self _ _ _).symm.trans hget)
      refine ⟨_, List.find?_cons_of_pos (decide_eq_true rfl), rfl, rfl, ?_⟩
      have hmax := Int32.toInt_lt maxTimes
      show maxTimes.toInt = if maxTimes.toInt + ((0 : ℕ) : ℤ) < 2147483648 then
        maxTimes.toInt + ((0 : ℕ) : ℤ) else -2147483648
      rw [if_pos (by omega)]
      omega
    · obtain ⟨g, hg, hv⟩ := h.backed code' v (hsub code' v
        ((Table.get_put_of_ne _ _ hcode).symm.trans hget))
      exact ⟨g, (List.find?_cons_of_neg (by simpa using Ne.symm hcode)).trans hg, hv⟩

/-- **What a check does.** -/
theorem check_cases (s : CodeSystem) (now : ℤ) (code : String) :
    (s.cache.codes.get code = none ∧ s.check now code = (false, s)) ∨
    ∃ v, s.cache.codes.get code = some v ∧
      ((v.expiredAt < now ∧ s.check now code = (false, ⟨s.cache.eraseCode code, s.grants⟩)) ∨
      (now ≤ v.expiredAt ∧ v.remainTimes.toInt ≤ 0 ∧ s.check now code =
        (false, ⟨s.cache.eraseCode code, onLatest code (CodeGrant.present false now) s.grants⟩)) ∨
      (now ≤ v.expiredAt ∧ 0 < v.remainTimes.toInt ∧ s.check now code =
        (true, ⟨⟨s.cache.codes.put code { v with remainTimes := v.remainTimes - (-1) },
          s.cache.emailCode⟩, onLatest code (CodeGrant.present true now) s.grants⟩))) := by
  cases hget : s.cache.codes.get code with
  | none =>
    refine .inl ⟨rfl, ?_⟩
    simp [check, CodeCache.magicCodeCheckCode, CodeCache.live, hget]
  | some v =>
    refine .inr ⟨v, rfl, ?_⟩
    have hzero : v.remainTimes ≤ 0 ↔ v.remainTimes.toInt ≤ 0 := Int32.le_iff_toInt_le
    by_cases hexpired : v.expiredAt < now
    · refine .inl ⟨hexpired, ?_⟩
      simp [check, CodeCache.magicCodeCheckCode, CodeCache.live, hget, hexpired]
    · have hlive := not_lt.1 hexpired
      by_cases hremain : v.remainTimes.toInt ≤ 0
      · refine .inr (.inl ⟨hlive, hremain, ?_⟩)
        simp [check, CodeCache.magicCodeCheckCode, CodeCache.live, hget, hzero.2 hremain, hlive]
      · refine .inr (.inr ⟨hlive, not_le.1 hremain, ?_⟩)
        simp [check, CodeCache.magicCodeCheckCode, CodeCache.live, hget, mt hzero.1 hremain, hlive,
          hexpired]

theorem Inv.onLatest (h : s.Inv) {cache : CodeCache} {f : CodeGrant → CodeGrant}
    (hf : ∀ g, (f g).code = g.code) (hsound : ∀ g ∈ latest code s.grants, (f g).Sound)
    (hother : ∀ code' v, code' ≠ code → cache.codes.get code' = some v →
      s.cache.codes.get code' = some v)
    (hown : ∀ v, cache.codes.get code = some v → ∃ g ∈ latest code s.grants, (f g).Backs v) :
    Inv ⟨cache, VoceChat.onLatest code f s.grants⟩ where
  sound g hg := by
    rcases mem_onLatest hg with hg | ⟨g', hg', rfl⟩
    · exact h.sound g hg
    · exact hsound g' hg'
  backed code' v hget := by
    rw [latest_onLatest hf]
    by_cases hcode : code' = code
    · subst hcode
      obtain ⟨g, hg, hv⟩ := hown v hget
      exact ⟨f g, by rw [if_pos rfl, Option.mem_def.1 hg, Option.map_some], hv⟩
    · rw [if_neg hcode]
      exact h.backed code' v (hother code' v hcode hget)

theorem Inv.check (h : s.Inv) (now : ℤ) (code : String) : (s.check now code).2.Inv := by
  obtain ⟨-, hs⟩ | ⟨v, hget, ⟨-, hs⟩ | ⟨-, hremain, hs⟩ | ⟨hlive, hremain, hs⟩⟩ :=
    s.check_cases now code
  · rw [hs]
    exact h
  · rw [hs]
    exact h.of_subset fun c w hw ↦ ((get_eraseCode s.cache).1 hw).1
  · rw [hs]
    obtain ⟨g, hg, hv⟩ := h.backed code v hget
    have hmem := List.mem_of_find?_eq_some hg
    refine h.onLatest (fun _ ↦ rfl) (fun g' hg' ↦ ?_)
      (fun c w _ hw ↦ ((get_eraseCode s.cache).1 hw).1)
      fun w hw ↦ absurd rfl ((get_eraseCode s.cache).1 hw).2
    obtain rfl := Option.some_inj.1 (hg.symm.trans hg')
    exact (h.sound g hmem).reject hv hremain
  · rw [hs]
    obtain ⟨g, hg, hv⟩ := h.backed code v hget
    obtain ⟨hsound, hbacks⟩ := (h.sound g (List.mem_of_find?_eq_some hg)).accept hv hremain hlive
    refine h.onLatest (fun _ ↦ rfl) (fun g' hg' ↦ ?_) (fun c w hc hw ↦ ?_) fun w hw ↦ ⟨g, hg, ?_⟩
    · obtain rfl := Option.some_inj.1 (hg.symm.trans hg')
      exact hsound
    · exact (Table.get_put_of_ne _ _ hc).symm.trans hw
    · obtain rfl := Option.some_inj.1 ((Table.get_put_self _ _ _).symm.trans hw)
      exact hbacks

theorem get_loginMagicCodeRemove {cache : CodeCache} {c c' : String} {v : CodeValue}
    (hget : (cache.loginMagicCodeRemove c).codes.get c' = some v) :
    cache.codes.get c' = some v := by
  rw [CodeCache.loginMagicCodeRemove] at hget
  split at hget
  · exact ((get_eraseCode cache).1 hget).1
  · exact hget

theorem Inv.remove (h : s.Inv) (code : String) : (s.remove code).Inv :=
  h.of_subset fun _ _ ↦ get_loginMagicCodeRemove

/-- A login is one check, two checks, or two checks and a removal. -/
theorem login_cases (s : CodeSystem) (now now' : ℤ) (code : String) :
    (s.login now now' code).2 = (s.check now code).2 ∨
    (s.login now now' code).2 = ((s.check now code).2.check now' code).2 ∨
    (s.login now now' code).2 = ((s.check now code).2.check now' code).2.remove code := by
  rw [login]
  rcases hfirst : s.check now code with ⟨accepted, t⟩
  cases accepted with
  | false => exact .inl rfl
  | true =>
    rcases hsecond : t.check now' code with ⟨accepted, u⟩
    cases accepted with
    | false => exact .inr (.inr (by simp [hsecond]))
    | true => exact .inr (.inl (by simp [hsecond]))

theorem Inv.login (h : s.Inv) (now now' : ℤ) (code : String) : (s.login now now' code).2.Inv := by
  obtain hs | hs | hs := s.login_cases now now' code
  · exact hs ▸ h.check now code
  · exact hs ▸ (h.check now code).check now' code
  · exact hs ▸ ((h.check now code).check now' code).remove code

theorem Inv.perform (h : s.Inv) (a : CodeAction) : (s.perform a).Inv := by
  cases a with
  | regMagicCodeAdd code expiredAt maxTimes =>
    exact h.add (fun _ _ hget ↦ hget) code "" expiredAt maxTimes _
  | loginMagicCodeAdd code email expiredAt maxTimes =>
    refine h.add (fun c v hget ↦ ?_) code email expiredAt maxTimes _
    split at hget
    · exact ((get_eraseCode s.cache).1 hget).1
    · exact hget
  | check now code => exact h.check now code
  | login now now' code => exact h.login now now' code
  | loginMagicCodeRemove code => exact h.remove code
  | magicCodeClean now now' =>
    exact h.of_subset fun c v hget ↦ (Table.get_filter.1 hget).1

theorem inv_after (as : List CodeAction) : (after as).Inv :=
  Transition.foldl_induction (fun _ a h ↦ h.perform a) inv_start as

/-! ### Other codes -/

/-- From one state to the next, nothing changes but what has to do with this code. -/
structure Unaffected (code : String) (s t : CodeSystem) : Prop where
  codes : ∀ code', code' ≠ code → t.cache.codes.get code' = s.cache.codes.get code'
  emailCode : ∀ email, (∀ v ∈ s.cache.codes.get code, v.email ≠ email) →
    t.cache.emailCode.get email = s.cache.emailCode.get email
  /-- The code is stored for the address it was stored for. -/
  email : ∀ w ∈ t.cache.codes.get code, ∃ v ∈ s.cache.codes.get code, w.email = v.email

theorem Unaffected.trans {s t u : CodeSystem} (h : Unaffected code s t) (h' : Unaffected code t u) :
    Unaffected code s u where
  codes code' hne := (h'.codes code' hne).trans (h.codes code' hne)
  emailCode email hne := by
    refine (h'.emailCode email fun w hw heq ↦ ?_).trans (h.emailCode email hne)
    obtain ⟨v, hv, hemail⟩ := h.email w hw
    exact hne v hv (hemail.symm.trans heq)
  email w hw := by
    obtain ⟨v, hv, hemail⟩ := h'.email w hw
    obtain ⟨v', hv', hemail'⟩ := h.email v hv
    exact ⟨v', hv', hemail.trans hemail'⟩

theorem get_eraseCode_of_ne (cache : CodeCache) {c c' : String} (hne : c' ≠ c) :
    (cache.eraseCode c).codes.get c' = cache.codes.get c' := by
  refine Option.ext fun v ↦ ?_
  rw [get_eraseCode]
  exact and_iff_left hne

theorem unaffected_erase (s : CodeSystem) (code : String) (grants : List CodeGrant) :
    Unaffected code s ⟨s.cache.eraseCode code, grants⟩ where
  codes _ hne := get_eraseCode_of_ne s.cache hne
  emailCode _ _ := rfl
  email _ hw := absurd rfl ((get_eraseCode s.cache).1 hw).2

theorem unaffected_check (s : CodeSystem) (now : ℤ) (code : String) :
    Unaffected code s (s.check now code).2 := by
  obtain ⟨-, hs⟩ | ⟨v, hget, ⟨-, hs⟩ | ⟨-, -, hs⟩ | ⟨-, -, hs⟩⟩ := s.check_cases now code
  · rw [hs]
    exact ⟨fun _ _ ↦ rfl, fun _ _ ↦ rfl, fun w hw ↦ ⟨w, hw, rfl⟩⟩
  · rw [hs]
    exact s.unaffected_erase code _
  · rw [hs]
    exact s.unaffected_erase code _
  · rw [hs]
    refine ⟨fun _ hne ↦ Table.get_put_of_ne _ _ hne, fun _ _ ↦ rfl, fun w hw ↦ ⟨v, hget, ?_⟩⟩
    obtain rfl := Option.some_inj.1 ((Table.get_put_self _ _ _).symm.trans hw)
    rfl

theorem unaffected_remove (s : CodeSystem) (code : String) :
    Unaffected code s (s.remove code) := by
  rw [remove, CodeCache.loginMagicCodeRemove]
  split
  · rename_i v hget
    refine ⟨fun _ hne ↦ get_eraseCode_of_ne s.cache hne, fun email hne ↦ ?_, fun w hw ↦ ?_⟩
    · refine Option.ext fun c ↦ ?_
      rw [CodeCache.eraseEmail, Table.get_filter, decide_eq_true_iff]
      exact and_iff_left (hne v hget).symm
    · exact absurd rfl ((get_eraseCode s.cache).1 hw).2
  · exact ⟨fun _ _ ↦ rfl, fun _ _ ↦ rfl, fun w hw ↦ ⟨w, hw, rfl⟩⟩

theorem unaffected_login (s : CodeSystem) (now now' : ℤ) (code : String) :
    Unaffected code s (s.login now now' code).2 := by
  have hfirst := s.unaffected_check now code
  have hsecond := (s.check now code).2.unaffected_check now' code
  obtain hs | hs | hs := s.login_cases now now' code
  · exact hs ▸ hfirst
  · exact hs ▸ hfirst.trans hsecond
  · exact hs ▸ (hfirst.trans hsecond).trans (unaffected_remove _ code)

/-- **Magic codes**, after every sequence of actions: a code was accepted no more often than its
maximum exactly when it was not presented more often, small and very large maxima apart; it was
never accepted after it had expired; and its use affects no other code. -/
theorem uses_after (as : List CodeAction) :
    (∀ g ∈ (after as).grants, (g.WithinMax ↔ g.PresentedWithin) ∧
      ∀ t ∈ g.acceptedAt, t ≤ g.expiredAt) ∧
    ∀ a code, a.usedCode = some code → Unaffected code (after as) ((after as).perform a) := by
  refine ⟨fun g hg ↦ ?_, fun a code ha ↦ ?_⟩
  · have hsound := (inv_after as).sound g hg
    exact ⟨hsound.withinMax_iff, hsound.inTime⟩
  · cases a with
    | check now code' =>
      obtain rfl := Option.some_inj.1 ha
      exact unaffected_check _ now code'
    | login now now' code' =>
      obtain rfl := Option.some_inj.1 ha
      exact unaffected_login _ now now' code'
    | loginMagicCodeRemove code' =>
      obtain rfl := Option.some_inj.1 ha
      exact unaffected_remove _ code'
    | _ => cases ha

/-- A link that is good for one login is good for two. -/
theorem not_withinMax_twoLogins :
    ¬∀ (as : List CodeAction), ∀ g ∈ (after as).grants, g.WithinMax := by
  intro h
  have hg := h [.loginMagicCodeAdd "123456" "a@b.c" 100 1, .login 10 10 "123456",
    .login 20 20 "123456"] ⟨"123456", 1, 100, 4, [20, 20, 10, 10]⟩
  revert hg
  decide +kernel

end CodeSystem

end VoceChat
