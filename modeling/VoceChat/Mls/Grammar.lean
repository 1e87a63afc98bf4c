import VoceChat.Mls.Routing

/-!
# The grammar of routing properties

What the properties of a v2 message may be, as a judgement of its own (`Grammar`): which fields a
message of each kind carries, with which values, and what routing they say. A field that is not
there is absent with whatever value: `null` and numbers of the wrong kind are not absent.

`validateProperties` reads the two numbers of MLS through conversions that take a value of the wrong
kind for none at all. A message of the ratchet with such a value is accepted, as if the fields were
not there (`validateProperties_eq_ok`); in all other messages the grammar is what is accepted
(`followsGrammar_iff`).
-/

namespace VoceChat

open Guards Json Machine

section

variable (p : Properties) (key : String)

/-- The field is a text that is not empty. -/
def HasText (text : String) : Prop := p.get key = some (.string text) ∧ text ≠ ""

/-- The field is an unsigned integer below `bound`. -/
def HasNumber (bound n : ℕ) : Prop :=
  ∃ m : UInt64, p.get key = some (.number (.posInt m)) ∧ m.toNat = n ∧ n < bound

end

/-- The numbers of a `u64` and of a `u32`. -/
def u64Size : ℕ := 18446744073709551616

/-- What all messages carry. -/
structure Common (p : Properties) (protocol wireClass sender localId : String) : Prop where
  version : HasNumber p "e2e_version" u64Size 2
  protocol : p.get "protocol" = some (.string protocol)
  wireClass : p.get "wire_class" = some (.string wireClass)
  sender : HasText p "sender_device_id" sender
  localId : HasText p "local_id" localId

def MlsHandshakeKind.name : MlsHandshakeKind → String
  | commit => "commit"
  | welcome => "welcome"

/-- The fields of MLS. -/
def mlsFields : List String :=
  ["mls_epoch", "mls_generation", "mls_handshake_kind", "mls_commit_id"]

/-- The messages of each kind, with the routing that their properties say. -/
inductive Grammar (p : Properties) : RoutingProperties → Prop
  | dr {sender recipient localId : String} (common : Common p "dr" "dr_envelope" sender localId)
      (recipientDevice : HasText p "recipient_device_id" recipient)
      (noMls : ∀ key ∈ mlsFields, p.get key = none) :
      Grammar p ⟨.dr, .drEnvelope, sender, some recipient, localId, none, none, none, none⟩
  | drPending {sender localId : String}
      (common : Common p "dr-pending" "dr_envelope" sender localId)
      (algorithm : p.get "algorithm" = some (.string "DEFERRED+AES-GCM"))
      (noRecipient : p.get "recipient_device_id" = none)
      (noMls : ∀ key ∈ mlsFields, p.get key = none) :
      Grammar p ⟨.drPending, .drEnvelope, sender, none, localId, none, none, none, none⟩
  | handshake {sender localId commitId : String} {epoch : ℕ} {kind : MlsHandshakeKind}
      (common : Common p "mls" "mls_handshake" sender localId)
      (noRecipient : p.get "recipient_device_id" = none)
      (mlsEpoch : HasNumber p "mls_epoch" u64Size epoch)
      (mlsGeneration : HasNumber p "mls_generation" u32Size 0)
      (handshakeKind : p.get "mls_handshake_kind" = some (.string kind.name))
      (mlsCommitId : HasText p "mls_commit_id" commitId) :
      Grammar p
        ⟨.mls, .mlsHandshake, sender, none, localId, some epoch, some 0, some kind, some commitId⟩
  | application {sender localId : String} {epoch generation : ℕ}
      (common : Common p "mls" "mls_application" sender localId)
      (noRecipient : p.get "recipient_device_id" = none)
      (mlsEpoch : HasNumber p "mls_epoch" u64Size epoch)
      (mlsGeneration : HasNumber p "mls_generation" u32Size generation)
      (noKind : p.get "mls_handshake_kind" = none) (noCommit : p.get "mls_commit_id" = none) :
      Grammar p
        ⟨.mls, .mlsApplication, sender, none, localId, some epoch, some generation, none, none⟩

/-- The code accepts what the grammar does, and returns the routing that the properties say. -/
def FollowsGrammar (p : Properties) : Prop :=
  ∀ route, validateProperties p = .ok route ↔ Grammar p route

/-! ### What is read -/

section

variable {p : Properties} {key : String}

theorem nonEmptyStr_eq_some {o : Option Value} {text : String} :
    o.bind nonEmptyStr = some text ↔ o = some (.string text) ∧ text ≠ "" := by
  rw [← asStr_eq_some]
  cases o with
  | none => exact ⟨nofun, nofun⟩
  | some v =>
    rw [Option.bind_some, Option.bind_some, nonEmptyStr, Option.filter_eq_some_iff]
    refine and_congr_right fun _ ↦ ?_
    rw [Bool.not_eq_true', ← Bool.not_eq_true, String.isEmpty_iff]

theorem requiredString_eq_ok {text : String} :
    requiredString p key = .ok text ↔ HasText p key text := by
  rw [HasText, ← nonEmptyStr_eq_some, requiredString]
  cases (p.get key).bind nonEmptyStr with
  | none => exact ⟨nofun, nofun⟩
  | some s => exact ⟨fun h ↦ congrArg some (Except.ok.inj h),
      fun h ↦ congrArg _ (Option.some.inj h)⟩

theorem optionalString_eq_none : optionalString p key = .ok none ↔ p.get key = none := by
  unfold optionalString
  split
  · rename_i v hget
    rw [hget]
    split
    · exact ⟨nofun, nofun⟩
    · exact ⟨nofun, nofun⟩
  · rename_i hget
    rw [hget]
    exact ⟨fun _ ↦ rfl, fun _ ↦ rfl⟩

theorem optionalString_eq_some {text : String} :
    optionalString p key = .ok (some text) ↔ HasText p key text := by
  rw [HasText, ← nonEmptyStr_eq_some]
  unfold optionalString
  split
  · rename_i v hget
    rw [hget, Option.bind_some]
    split
    · rename_i s hs
      rw [hs, Except.ok.injEq]
    · rename_i hs
      rw [hs]
      exact ⟨nofun, nofun⟩
  · rename_i hget
    rw [hget]
    exact ⟨nofun, nofun⟩

/-- The names of the protocols. -/
def Protocol.name : Protocol → String
  | dr => "dr"
  | drPending => "dr-pending"
  | mls => "mls"

/-- The names of the wire classes. -/
def WireClass.name : WireClass → String
  | drEnvelope => "dr_envelope"
  | mlsHandshake => "mls_handshake"
  | mlsApplication => "mls_application"

theorem parseProtocol_eq_ok {protocol : Protocol} :
    parseProtocol p = .ok protocol ↔ p.get "protocol" = some (.string protocol.name) := by
  rw [← asStr_eq_some]
  constructor
  · intro h
    unfold parseProtocol at h
    split at h
    all_goals
      cases h
      try assumption
  · intro h
    unfold parseProtocol
    rw [h]
    cases protocol <;> rfl

theorem parseWireClass_eq_ok {wireClass : WireClass} :
    parseWireClass p = .ok wireClass ↔ p.get "wire_class" = some (.string wireClass.name) := by
  rw [← asStr_eq_some]
  constructor
  · intro h
    unfold parseWireClass at h
    split at h
    all_goals
      cases h
      try assumption
  · intro h
    unfold parseWireClass
    rw [h]
    cases wireClass <;> rfl

theorem parseHandshakeKind_eq_ok {o : Option MlsHandshakeKind} :
    parseHandshakeKind p = .ok o ↔
      p.get "mls_handshake_kind" = o.map fun kind ↦ .string kind.name := by
  constructor
  · intro h
    unfold parseHandshakeKind at h
    split at h
    all_goals
      cases h
      try assumption
  · intro h
    unfold parseHandshakeKind
    rw [h]
    cases o with
    | none => rfl
    | some kind => cases kind <;> rfl

/-- A number is read from a field of the right kind. -/
theorem filter_asU64_eq_some {bound n : ℕ} :
    ((p.get key).bind Value.asU64).filter (· < bound) = some n ↔ HasNumber p key bound n := by
  rw [Option.filter_eq_some_iff, asU64_eq_some, decide_eq_true_iff, HasNumber]
  constructor
  · rintro ⟨⟨m, hget, hm⟩, hlt⟩
    exact ⟨m, hget, hm, hlt⟩
  · rintro ⟨m, hget, hm, hlt⟩
    exact ⟨⟨m, hget, hm⟩, hlt⟩

theorem bind_asU64_eq_some {n : ℕ} :
    (p.get key).bind Value.asU64 = some n ↔ HasNumber p key u64Size n := by
  rw [asU64_eq_some, HasNumber]
  constructor
  · rintro ⟨m, hget, rfl⟩
    exact ⟨m, hget, rfl, m.toNat_lt⟩
  · rintro ⟨m, hget, hm, -⟩
    exact ⟨m, hget, hm⟩

end

/-! ### What is accepted -/

/-- The fields without the two numbers of MLS. -/
def withoutNumbers (p : Properties) : Properties :=
  p.filter fun f ↦ f.1 ≠ "mls_epoch" ∧ f.1 ≠ "mls_generation"

/-- Neither of the two numbers of MLS can be read. -/
def NumbersUnread (p : Properties) : Prop :=
  (∀ n, ¬HasNumber p "mls_epoch" u64Size n) ∧ ∀ n, ¬HasNumber p "mls_generation" u32Size n

/-- A message of the ratchet with a number of MLS that cannot be read. -/
def HidesNumbers (p : Properties) : Prop :=
  (∃ route, Grammar (withoutNumbers p) route) ∧ NumbersUnread p ∧
    ¬(p.get "mls_epoch" = none ∧ p.get "mls_generation" = none)

section

variable {p : Properties} {route : RoutingProperties}

theorem withoutNumbers_get (p : Properties) (key : String) : (withoutNumbers p).get key =
    if key = "mls_epoch" ∨ key = "mls_generation" then none else p.get key := by
  have hget := p.get_filter (fun key ↦ key ≠ "mls_epoch" ∧ key ≠ "mls_generation") key
  have hkeep : (decide (key ≠ "mls_epoch" ∧ key ≠ "mls_generation") = true) ↔
      ¬(key = "mls_epoch" ∨ key = "mls_generation") := by rw [decide_eq_true_iff, not_or]
  by_cases hkey : key = "mls_epoch" ∨ key = "mls_generation"
  · rw [if_pos hkey]
    exact hget.trans (if_neg fun h ↦ hkeep.1 h hkey)
  · rw [if_neg hkey]
    exact hget.trans (if_pos (hkeep.2 hkey))

theorem withoutNumbers_get_of_ne {key : String}
    (h : ¬(key = "mls_epoch" ∨ key = "mls_generation")) :
    (withoutNumbers p).get key = p.get key := by
  rw [withoutNumbers_get, if_neg h]

/-- Nothing else is taken out. -/
theorem common_withoutNumbers {protocol wireClass sender localId : String} :
    Common (withoutNumbers p) protocol wireClass sender localId ↔
      Common p protocol wireClass sender localId := by
  have hget : ∀ key ∈ ["e2e_version", "protocol", "wire_class", "sender_device_id", "local_id"],
      (withoutNumbers p).get key = p.get key := by
    intro key hkey
    refine withoutNumbers_get_of_ne ?_
    rintro (rfl | rfl)
    · exact absurd hkey (by decide)
    · exact absurd hkey (by decide)
  simp only [List.forall_mem_cons] at hget
  obtain ⟨hversion, hprotocol, hwire, hsender, hlocal, -⟩ := hget
  constructor
  · rintro ⟨h1, h2, h3, h4, h5⟩
    rw [HasNumber, hversion] at h1
    rw [HasText, hsender] at h4
    rw [HasText, hlocal] at h5
    exact ⟨h1, hprotocol ▸ h2, hwire ▸ h3, h4, h5⟩
  · rintro ⟨h1, h2, h3, h4, h5⟩
    rw [HasNumber, ← hversion] at h1
    rw [HasText, ← hsender] at h4
    rw [HasText, ← hlocal] at h5
    exact ⟨h1, hprotocol.trans h2, hwire.trans h3, h4, h5⟩

/-- A message of the ratchet, whatever the numbers of MLS are. -/
inductive RatchetShape (p : Properties) : RoutingProperties → Prop
  | dr {sender recipient localId : String} (common : Common p "dr" "dr_envelope" sender localId)
      (recipientDevice : HasText p "recipient_device_id" recipient)
      (noKind : p.get "mls_handshake_kind" = none) (noCommit : p.get "mls_commit_id" = none) :
      RatchetShape p ⟨.dr, .drEnvelope, sender, some recipient, localId, none, none, none, none⟩
  | drPending {sender localId : String}
      (common : Common p "dr-pending" "dr_envelope" sender localId)
      (algorithm : p.get "algorithm" = some (.string "DEFERRED+AES-GCM"))
      (noRecipient : p.get "recipient_device_id" = none)
      (noKind : p.get "mls_handshake_kind" = none) (noCommit : p.get "mls_commit_id" = none) :
      RatchetShape p ⟨.drPending, .drEnvelope, sender, none, localId, none, none, none, none⟩

theorem grammar_withoutNumbers_iff : Grammar (withoutNumbers p) route ↔ RatchetShape p route := by
  have hepoch : (withoutNumbers p).get "mls_epoch" = none := by rw [withoutNumbers_get]; rfl
  have hgeneration : (withoutNumbers p).get "mls_generation" = none := by
    rw [withoutNumbers_get]
    rfl
  have hkind : (withoutNumbers p).get "mls_handshake_kind" = p.get "mls_handshake_kind" :=
    withoutNumbers_get_of_ne (by decide)
  have hcommit : (withoutNumbers p).get "mls_commit_id" = p.get "mls_commit_id" :=
    withoutNumbers_get_of_ne (by decide)
  have halgorithm : (withoutNumbers p).get "algorithm" = p.get "algorithm" :=
    withoutNumbers_get_of_ne (by decide)
  have hrecipient : (withoutNumbers p).get "recipient_device_id" = p.get "recipient_device_id" :=
    withoutNumbers_get_of_ne (by decide)
  have hno : (∀ key ∈ mlsFields, (withoutNumbers p).get key = none) ↔
      p.get "mls_handshake_kind" = none ∧ p.get "mls_commit_id" = none := by
    simp only [mlsFields, List.forall_mem_cons, List.not_mem_nil, false_imp_iff, implies_true,
      and_true, hepoch, hgeneration, hkind, hcommit, true_and]
  constructor
  · intro h
    cases h with
    | dr common recipientDevice noMls =>
      rw [HasText, hrecipient] at recipientDevice
      obtain ⟨noKind, noCommit⟩ := hno.1 noMls
      exact .dr (common_withoutNumbers.1 common) recipientDevice noKind noCommit
    | drPending common algorithm noRecipient noMls =>
      obtain ⟨noKind, noCommit⟩ := hno.1 noMls
      exact .drPending (common_withoutNumbers.1 common) (halgorithm ▸ algorithm)
        (hrecipient ▸ noRecipient) noKind noCommit
    | handshake common noRecipient mlsEpoch =>
      obtain ⟨m, hget, -⟩ := mlsEpoch
      cases hepoch.symm.trans hget
    | application common noRecipient mlsEpoch =>
      obtain ⟨m, hget, -⟩ := mlsEpoch
      cases hepoch.symm.trans hget
  · intro h
    cases h with
    | dr common recipientDevice noKind noCommit =>
      rw [HasText, ← hrecipient] at recipientDevice
      exact .dr (common_withoutNumbers.2 common) recipientDevice (hno.2 ⟨noKind, noCommit⟩)
    | drPending common algorithm noRecipient noKind noCommit =>
      exact .drPending (common_withoutNumbers.2 common) (halgorithm.trans algorithm)
        (hrecipient.trans noRecipient) (hno.2 ⟨noKind, noCommit⟩)

/-- A message of the ratchet is in the grammar if the numbers of MLS are not there. -/
theorem RatchetShape.grammar_iff (h : RatchetShape p route) :
    Grammar p route ↔ p.get "mls_epoch" = none ∧ p.get "mls_generation" = none := by
  have hno : p.get "mls_handshake_kind" = none → p.get "mls_commit_id" = none →
      ((∀ key ∈ mlsFields, p.get key = none) ↔
        p.get "mls_epoch" = none ∧ p.get "mls_generation" = none) := by
    intro hkind hcommit
    simp only [mlsFields, List.forall_mem_cons, List.not_mem_nil, false_imp_iff, implies_true,
      and_true, hkind, hcommit]
  cases h with
  | dr common recipientDevice noKind noCommit =>
    rw [← hno noKind noCommit]
    constructor
    · intro hgrammar
      cases hgrammar with
      | dr _ _ noMls => exact noMls
    · exact fun noMls ↦ .dr common recipientDevice noMls
  | drPending common algorithm noRecipient noKind noCommit =>
    rw [← hno noKind noCommit]
    constructor
    · intro hgrammar
      cases hgrammar with
      | drPending _ _ _ noMls => exact noMls
    · exact fun noMls ↦ .drPending common algorithm noRecipient noMls

theorem numbersUnread_iff : NumbersUnread p ↔ (p.get "mls_epoch").bind Value.asU64 = none ∧
    ((p.get "mls_generation").bind Value.asU64).filter (· < u32Size) = none := by
  simp only [NumbersUnread, Option.eq_none_iff_forall_ne_some, ne_eq, bind_asU64_eq_some,
    filter_asU64_eq_some]

section

variable {sender localId : String} {recipient : Option String} {epoch generation : Option ℕ}
  {kind : Option MlsHandshakeKind} {commit : Option String}

theorem checkFields_dr :
    checkFields ⟨.dr, .drEnvelope, sender, recipient, localId, epoch, generation, kind, commit⟩ =
      .ok () ↔
    recipient ≠ none ∧ epoch = none ∧ generation = none ∧ kind = none ∧ commit = none := by
  cases recipient <;> cases epoch <;> cases generation <;> cases kind <;> cases commit <;>
    simp [checkFields]

theorem checkFields_drPending :
    checkFields
        ⟨.drPending, .drEnvelope, sender, recipient, localId, epoch, generation, kind, commit⟩ =
      .ok () ↔
    recipient = none ∧ epoch = none ∧ generation = none ∧ kind = none ∧ commit = none := by
  cases recipient <;> cases epoch <;> cases generation <;> cases kind <;> cases commit <;>
    simp [checkFields]

theorem checkFields_handshake :
    checkFields ⟨.mls, .mlsHandshake, sender, recipient, localId, epoch, generation, kind, commit⟩ =
      .ok () ↔
    recipient = none ∧ epoch ≠ none ∧ generation = some 0 ∧ kind ≠ none ∧ commit ≠ none := by
  cases recipient <;> cases epoch <;> cases generation <;> cases kind <;> cases commit <;>
    simp [checkFields]

theorem checkFields_application :
    checkFields ⟨.mls, .mlsApplication, sender, recipient, localId, epoch, generation, kind,
      commit⟩ =
      .ok () ↔
    recipient = none ∧ epoch ≠ none ∧ generation ≠ none ∧ kind = none ∧ commit = none := by
  cases recipient <;> cases epoch <;> cases generation <;> cases kind <;> cases commit <;>
    simp [checkFields]

end

/-- What is read of the properties, and the checks that it passes. -/
structure Reads (p : Properties) (route : RoutingProperties) : Prop where
  common : Common p route.protocol.name route.wireClass.name route.senderDeviceId route.localId
  algorithm : route.protocol = .drPending → p.get "algorithm" = some (.string "DEFERRED+AES-GCM")
  fits : protocolMatches route.protocol route.wireClass = true
  recipient : optionalString p "recipient_device_id" = .ok route.recipientDeviceId
  epoch : (p.get "mls_epoch").bind Value.asU64 = route.mlsEpoch
  generation : ((p.get "mls_generation").bind Value.asU64).filter (· < u32Size) =
    route.mlsGeneration
  kind : p.get "mls_handshake_kind" = route.mlsHandshakeKind.map fun kind ↦ .string kind.name
  commit : optionalString p "mls_commit_id" = .ok route.mlsCommitId
  check : checkFields route = .ok ()

theorem validateProperties_iff_reads : validateProperties p = .ok route ↔ Reads p route := by
  simp only [validateProperties, bind_eq_ok, ensure_eq_ok, exists_unit, pure_eq_ok,
    bind_asU64_eq_some, parseProtocol_eq_ok, parseWireClass_eq_ok, requiredString_eq_ok,
    parseHandshakeKind_eq_ok, asStr_eq_some]
  constructor
  · rintro ⟨version, protocol, hprotocol, halgorithm, wireClass, hwire, hfits, sender, hsender,
      localId, hlocal, recipient, hrecipient, kind, hkind, commit, hcommit, hcheck, rfl⟩
    exact ⟨⟨version, hprotocol, hwire, hsender, hlocal⟩, halgorithm, hfits, hrecipient, rfl,
      rfl, hkind, hcommit, hcheck⟩
  · intro h
    obtain ⟨protocol, wireClass, sender, recipient, localId, epoch, generation, kind,
      commit⟩ := route
    obtain ⟨⟨version, hprotocol, hwire, hsender, hlocal⟩, halgorithm, hfits, hrecipient, rfl,
      rfl, hkind, hcommit, hcheck⟩ := h
    exact ⟨version, protocol, hprotocol, halgorithm, wireClass, hwire, hfits, sender, hsender,
      localId, hlocal, recipient, hrecipient, kind, hkind, commit, hcommit, hcheck, rfl⟩

/-- What is read is in the grammar, or would be without numbers that cannot be read. -/
theorem Reads.grammar (h : Reads p route) :
    Grammar p route ∨ NumbersUnread p ∧ RatchetShape p route := by
  obtain ⟨protocol, wireClass, sender, recipient, localId, epoch, generation, kind, commit⟩ := route
  obtain ⟨common, halgorithm, hfits, hrecipient, hepoch, hgeneration, hkind, hcommit, hcheck⟩ := h
  cases protocol with
  | dr =>
    cases wireClass with
    | drEnvelope =>
      obtain ⟨hne, rfl, rfl, rfl, rfl⟩ := checkFields_dr.1 hcheck
      obtain ⟨recipient, rfl⟩ := Option.ne_none_iff_exists'.1 hne
      exact .inr ⟨numbersUnread_iff.2 ⟨hepoch, hgeneration⟩, .dr common
        (optionalString_eq_some.1 hrecipient) hkind (optionalString_eq_none.1 hcommit)⟩
    | mlsHandshake => cases hfits
    | mlsApplication => cases hfits
  | drPending =>
    cases wireClass with
    | drEnvelope =>
      obtain ⟨rfl, rfl, rfl, rfl, rfl⟩ := checkFields_drPending.1 hcheck
      exact .inr ⟨numbersUnread_iff.2 ⟨hepoch, hgeneration⟩, .drPending common (halgorithm rfl)
        (optionalString_eq_none.1 hrecipient) hkind (optionalString_eq_none.1 hcommit)⟩
    | mlsHandshake => cases hfits
    | mlsApplication => cases hfits
  | mls =>
    cases wireClass with
    | drEnvelope => cases hfits
    | mlsHandshake =>
      obtain ⟨rfl, hepoch', rfl, hkind', hcommit'⟩ := checkFields_handshake.1 hcheck
      obtain ⟨epoch, rfl⟩ := Option.ne_none_iff_exists'.1 hepoch'
      obtain ⟨kind, rfl⟩ := Option.ne_none_iff_exists'.1 hkind'
      obtain ⟨commit, rfl⟩ := Option.ne_none_iff_exists'.1 hcommit'
      exact .inl (.handshake common (optionalString_eq_none.1 hrecipient)
        (bind_asU64_eq_some.1 hepoch) (filter_asU64_eq_some.1 hgeneration) hkind
        (optionalString_eq_some.1 hcommit))
    | mlsApplication =>
      obtain ⟨rfl, hepoch', hgeneration', rfl, rfl⟩ := checkFields_application.1 hcheck
      obtain ⟨epoch, rfl⟩ := Option.ne_none_iff_exists'.1 hepoch'
      obtain ⟨generation, rfl⟩ := Option.ne_none_iff_exists'.1 hgeneration'
      exact .inl (.application common (optionalString_eq_none.1 hrecipient)
        (bind_asU64_eq_some.1 hepoch) (filter_asU64_eq_some.1 hgeneration) hkind
        (optionalString_eq_none.1 hcommit))

theorem RatchetShape.reads (h : RatchetShape p route) (hunread : NumbersUnread p) :
    Reads p route := by
  obtain ⟨hepoch, hgeneration⟩ := numbersUnread_iff.1 hunread
  cases h with
  | dr common recipientDevice noKind noCommit =>
    exact ⟨common, nofun, rfl, optionalString_eq_some.2 recipientDevice, hepoch,
      hgeneration, noKind,
      optionalString_eq_none.2 noCommit, checkFields_dr.2 ⟨nofun, rfl, rfl, rfl, rfl⟩⟩
  | drPending common algorithm noRecipient noKind noCommit =>
    exact ⟨common, fun _ ↦ algorithm, rfl, optionalString_eq_none.2 noRecipient, hepoch,
      hgeneration,
      noKind, optionalString_eq_none.2 noCommit, checkFields_drPending.2 ⟨rfl, rfl, rfl, rfl, rfl⟩⟩

/-- Without the numbers of MLS there are none to be read. -/
theorem numbersUnread_of_absent (h : ∀ key ∈ mlsFields, p.get key = none) : NumbersUnread p := by
  refine numbersUnread_iff.2 ⟨?_, ?_⟩
  · rw [h "mls_epoch" (by decide)]
    rfl
  · rw [h "mls_generation" (by decide)]
    rfl

theorem Grammar.reads (h : Grammar p route) : Reads p route := by
  cases h with
  | dr common recipientDevice noMls =>
    exact RatchetShape.reads
      (.dr common recipientDevice (noMls _ (by decide)) (noMls _ (by decide)))
      (numbersUnread_of_absent noMls)
  | drPending common algorithm noRecipient noMls =>
    exact RatchetShape.reads (.drPending common algorithm noRecipient (noMls _ (by decide))
      (noMls _ (by decide))) (numbersUnread_of_absent noMls)
  | handshake common noRecipient mlsEpoch mlsGeneration handshakeKind mlsCommitId =>
    exact ⟨common, nofun, rfl, optionalString_eq_none.2 noRecipient, bind_asU64_eq_some.2 mlsEpoch,
      filter_asU64_eq_some.2 mlsGeneration, handshakeKind, optionalString_eq_some.2 mlsCommitId,
      checkFields_handshake.2 ⟨rfl, nofun, rfl, nofun, nofun⟩⟩
  | application common noRecipient mlsEpoch mlsGeneration noKind noCommit =>
    exact ⟨common, nofun, rfl, optionalString_eq_none.2 noRecipient, bind_asU64_eq_some.2 mlsEpoch,
      filter_asU64_eq_some.2 mlsGeneration, noKind, optionalString_eq_none.2 noCommit,
      checkFields_application.2 ⟨rfl, nofun, nofun, rfl, rfl⟩⟩

/-- **What is accepted**: what is in the grammar, or would be without numbers that cannot be read.
-/
theorem validateProperties_eq_ok : validateProperties p = .ok route ↔
    Grammar p route ∨ NumbersUnread p ∧ RatchetShape p route := by
  rw [validateProperties_iff_reads]
  exact ⟨Reads.grammar, fun h ↦ h.elim Grammar.reads fun h ↦ h.2.reads h.1⟩

end

/-- **The grammar is what is accepted**, with the routing that is said, unless a message of the
ratchet has a number of MLS of the wrong kind. -/
theorem followsGrammar_iff (p : Properties) : FollowsGrammar p ↔ ¬HidesNumbers p := by
  simp only [FollowsGrammar, HidesNumbers, validateProperties_eq_ok, grammar_withoutNumbers_iff]
  constructor
  · rintro hfollows ⟨⟨route, hshape⟩, hunread, hpresent⟩
    exact hpresent (hshape.grammar_iff.1 ((hfollows route).1 (.inr ⟨hunread, hshape⟩)))
  · intro hnot route
    refine or_iff_left_of_imp fun ⟨hunread, hshape⟩ ↦ hshape.grammar_iff.2 ?_
    exact Classical.byContradiction fun hpresent ↦ hnot ⟨⟨route, hshape⟩, hunread, hpresent⟩

/-- A message of the ratchet that says `null` for its epoch. -/
def nullEpoch : Properties :=
  [("e2e_version", .number (.posInt 2)), ("protocol", .string "dr"),
    ("wire_class", .string "dr_envelope"), ("sender_device_id", .string "a"),
    ("recipient_device_id", .string "b"), ("local_id", .string "c"), ("mls_epoch", .null)]

/-- It is accepted, but not in the grammar. -/
theorem not_followsGrammar_nullEpoch : ¬FollowsGrammar nullEpoch := by
  intro hfollows
  have hok : validateProperties nullEpoch =
    .ok ⟨.dr, .drEnvelope, "a", some "b", "c", none, none, none, none⟩ := rfl
  have hgrammar := (hfollows _).1 hok
  cases hgrammar with
  | dr _ _ noMls => cases noMls "mls_epoch" (by decide)

end VoceChat
