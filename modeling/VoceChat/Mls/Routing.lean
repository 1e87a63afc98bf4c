import VoceChat.Foundations.Guards
import VoceChat.Foundations.Json

/-!
# Routing properties of an E2EE v2 message (`src/e2ee_v2.rs`)

A v2 message is opaque to the server except for its `X-Properties`. `validateProperties` reads the
routing part out of them: which protocol and wire class the message has, which device sent it and,
for MLS, its epoch, generation, handshake kind and commit id.
-/

namespace VoceChat

open Guards Json Machine

/-- The content type of a v2 message. -/
def contentType : String := "application/vnd.vocechat.e2ee.v2"

inductive Protocol where
  | dr
  /-- Deferred DM: no recipient device existed at send time. -/
  | drPending
  | mls
  deriving DecidableEq, Repr

inductive WireClass where
  | drEnvelope
  | mlsHandshake
  | mlsApplication
  deriving DecidableEq, Repr

inductive MlsHandshakeKind where
  | commit
  | welcome
  deriving DecidableEq, Repr

structure RoutingProperties where
  protocol : Protocol
  wireClass : WireClass
  senderDeviceId : String
  recipientDeviceId : Option String
  localId : String
  mlsEpoch : Option ℕ
  mlsGeneration : Option ℕ
  mlsHandshakeKind : Option MlsHandshakeKind
  mlsCommitId : Option String
  deriving DecidableEq, Repr

inductive E2eV2Error where
  | invalidProperty (property : String)
  | protocolMismatch
  | deviceMismatch
  deriving DecidableEq, Repr

/-- `Display` of the error, which is the body of the response. -/
def E2eV2Error.message : E2eV2Error → String
  | invalidProperty property => "missing or invalid E2EE v2 property: " ++ property
  | protocolMismatch => "wire_class does not match protocol"
  | deviceMismatch => "E2E_DEVICE_MISMATCH"

/-- A string that is not empty. -/
def nonEmptyStr (value : Value) : Option String := value.asStr.filter fun s ↦ !s.isEmpty

/-- `required_string`. -/
def requiredString (properties : Properties) (key : String) : Except E2eV2Error String :=
  match (properties.get key).bind nonEmptyStr with
  | some value => .ok value
  | none => .error (.invalidProperty key)

/-- A string that may be absent, but not present and empty or of another type. -/
def optionalString (properties : Properties) (key : String) :
    Except E2eV2Error (Option String) :=
  match properties.get key with
  | some value =>
    match nonEmptyStr value with
    | some value => .ok (some value)
    | none => .error (.invalidProperty key)
  | none => .ok none

def parseProtocol (properties : Properties) : Except E2eV2Error Protocol :=
  match (properties.get "protocol").bind Value.asStr with
  | some "dr" => .ok .dr
  | some "dr-pending" => .ok .drPending
  | some "mls" => .ok .mls
  | _ => .error (.invalidProperty "protocol")

def parseWireClass (properties : Properties) : Except E2eV2Error WireClass :=
  match (properties.get "wire_class").bind Value.asStr with
  | some "dr_envelope" => .ok .drEnvelope
  | some "mls_handshake" => .ok .mlsHandshake
  | some "mls_application" => .ok .mlsApplication
  | _ => .error (.invalidProperty "wire_class")

def parseHandshakeKind (properties : Properties) :
    Except E2eV2Error (Option MlsHandshakeKind) :=
  match properties.get "mls_handshake_kind" with
  | some (.string "commit") => .ok (some .commit)
  | some (.string "welcome") => .ok (some .welcome)
  | some _ => .error (.invalidProperty "mls_handshake_kind")
  | none => .ok none

/-- The wire classes a protocol may use. -/
def protocolMatches : Protocol → WireClass → Bool
  | .dr, .drEnvelope | .drPending, .drEnvelope => true
  | .mls, .mlsHandshake | .mls, .mlsApplication => true
  | _, _ => false

/-- The last `match` of `validate_properties`: which of the optional fields a message of this
protocol and wire class must or must not carry. -/
def checkFields (route : RoutingProperties) : Except E2eV2Error Unit :=
  match route.protocol, route.wireClass with
  | .dr, .drEnvelope =>
    if route.recipientDeviceId.isNone then .error (.invalidProperty "recipient_device_id")
    else if route.mlsEpoch.isSome || route.mlsGeneration.isSome || route.mlsHandshakeKind.isSome ||
        route.mlsCommitId.isSome then .error .protocolMismatch
    else .ok ()
  | .drPending, .drEnvelope =>
    if route.recipientDeviceId.isSome || route.mlsEpoch.isSome || route.mlsGeneration.isSome ||
        route.mlsHandshakeKind.isSome || route.mlsCommitId.isSome then .error .protocolMismatch
    else .ok ()
  | .mls, wireClass =>
    if route.recipientDeviceId.isSome then .error .protocolMismatch
    else if route.mlsEpoch.isNone then .error (.invalidProperty "mls_epoch")
    else if route.mlsGeneration.isNone then .error (.invalidProperty "mls_generation")
    else match wireClass with
      | .mlsHandshake =>
        if route.mlsHandshakeKind.isNone || route.mlsCommitId.isNone then
          .error (.invalidProperty "mls_handshake_kind")
        else if route.mlsGeneration ≠ some 0 then .error (.invalidProperty "mls_generation")
        else .ok ()
      | .mlsApplication =>
        if route.mlsHandshakeKind.isSome || route.mlsCommitId.isSome then .error .protocolMismatch
        else .ok ()
      | .drEnvelope => .ok ()
  | _, _ => .ok ()

def validateProperties (properties : Properties) : Except E2eV2Error RoutingProperties := do
  ensure ((properties.get "e2e_version").bind Value.asU64 = some 2)
    (.invalidProperty "e2e_version")
  let protocol ← parseProtocol properties
  ensure (protocol = .drPending →
    (properties.get "algorithm").bind Value.asStr = some "DEFERRED+AES-GCM")
    (.invalidProperty "algorithm")
  let wireClass ← parseWireClass properties
  ensure (protocolMatches protocol wireClass) .protocolMismatch
  let senderDeviceId ← requiredString properties "sender_device_id"
  let localId ← requiredString properties "local_id"
  let recipientDeviceId ← optionalString properties "recipient_device_id"
  let mlsEpoch := (properties.get "mls_epoch").bind Value.asU64
  let mlsGeneration := ((properties.get "mls_generation").bind Value.asU64).filter (· < u32Size)
  let mlsHandshakeKind ← parseHandshakeKind properties
  let mlsCommitId ← optionalString properties "mls_commit_id"
  let route : RoutingProperties :=
    { protocol, wireClass, senderDeviceId, recipientDeviceId, localId, mlsEpoch, mlsGeneration,
      mlsHandshakeKind, mlsCommitId }
  checkFields route
  return route

/-- `validate_authenticated_sender`: the properties name the device that sent the request. -/
def validateAuthenticatedSender (properties : Properties) (authenticatedDevice : String) :
    Except E2eV2Error RoutingProperties := do
  let route ← validateProperties properties
  ensure (route.senderDeviceId = authenticatedDevice) .deviceMismatch
  return route

/-- A sender that passes is valid, and names its own device. -/
theorem validateAuthenticatedSender_eq_ok {properties : Properties} {device : String}
    {route : RoutingProperties} : validateAuthenticatedSender properties device = .ok route ↔
      validateProperties properties = .ok route ∧ route.senderDeviceId = device := by
  simp only [validateAuthenticatedSender, bind_eq_ok, ensure_eq_ok, exists_unit, pure_eq_ok]
  constructor
  · rintro ⟨r, hr, hdevice, rfl⟩
    exact ⟨hr, hdevice⟩
  · rintro ⟨hr, hdevice⟩
    exact ⟨route, hr, hdevice, rfl⟩

end VoceChat
