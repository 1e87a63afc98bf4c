import VoceChat.Foundations.Table
import VoceChat.Groups.State

/-!
# Delivery of MLS artifacts (`src/mls_delivery.rs`)

The server stores what devices need to find each other's MLS groups and does not look inside: the
credential of a device (`mls_device`), its key packages (`mls_key_package`), of which everyone who
asks is given one, and the route of a group (`mls_route`), with the device that initializes it.

Each statement, or transaction, is a function on the tables it uses; `PackageTables` has those of
credentials and key packages, `RouteTables` those of routes, with the tables of groups that
`authorize_group` reads. A call whose statements are not one transaction is taken apart where it is
run (`RouteSystem`, `PackageSystem`); only `route_for_group` is one function, for its insert does
nothing when the group has a route by then, and the token that is there is read again.

## Main definitions

* `PackageTables.putCredential`, `PackageTables.publishKeyPackage`,
  `PackageTables.selectKeyPackage`, `PackageTables.consume`;
* `RouteTables.routeForGroup`, `RouteTables.authorizeRoute`, `RouteTables.claim`,
  `RouteTables.mark`.

Rows are kept in the order of their ids, which are not used again (`autoincrement`). Times are in
seconds, as `current_timestamp` is.
-/

namespace VoceChat

open Guards Machine

/-- The status of a response, and a constraint of the database. -/
inductive DeliveryError where
  | badRequest
  | forbidden
  | notFound
  | conflict
  | payloadTooLarge
  | internal
  deriving DecidableEq, Repr

/-- What `validate_device_id` accepts. -/
def IsDeviceId (deviceId : String) : Prop :=
  deviceId.isEmpty = false ∧ deviceId.utf8ByteSize ≤ 128 ∧
    deviceId.toList.all (fun c ↦ c.isAlphanum || c = '-' || c = '_' || c = ':') = true

instance (deviceId : String) : Decidable (IsDeviceId deviceId) :=
  inferInstanceAs (Decidable (_ ∧ _))

/-- What `validate_blob` accepts. -/
def IsBlob (blob : Bytes) (maximum : ℕ) : Prop := blob.isEmpty = false ∧ blob.length ≤ maximum

instance (blob : Bytes) (maximum : ℕ) : Decidable (IsBlob blob maximum) :=
  inferInstanceAs (Decidable (_ ∧ _))

/-- What `validate_route` accepts: 32 hexadecimal digits. -/
def IsRoute (route : String) : Prop :=
  route.utf8ByteSize = 32 ∧ route.toList.all (fun c ↦ c.isDigit ||
    ('a' ≤ c && c ≤ 'f') || ('A' ≤ c && c ≤ 'F')) = true

instance (route : String) : Decidable (IsRoute route) := inferInstanceAs (Decidable (_ ∧ _))

def maxCredential : ℕ := 64 * 1024

def maxKeyPackage : ℕ := 64 * 1024

/-- `require_authenticated_device`: a device speaks for itself only. -/
def requireAuthenticatedDevice (token : CurrentUser) (deviceId : String) :
    Except DeliveryError Unit :=
  ensure (deviceId = token.device) .badRequest

/-! ### Credentials and key packages -/

/-- A row of `mls_key_package`. -/
structure KeyPackageRow where
  id : ℕ
  device : ℤ × String
  package : Bytes
  consumedAt : Option ℕ
  deriving DecidableEq, Repr

structure PackageTables where
  /-- The users that there are, to which the rows of `mls_device` refer. -/
  users : List ℤ
  /-- `mls_device`, with the credential -/
  devices : Table (ℤ × String) Bytes
  /-- `mls_key_package` -/
  packages : List KeyPackageRow
  nextId : ℕ

namespace PackageTables

def empty (users : List ℤ) : PackageTables := ⟨users, Table.empty, [], 1⟩

def putCredential (db : PackageTables) (uid : ℤ) (deviceId : String) (credential : Bytes) :
    Except DeliveryError PackageTables := do
  ensure (IsDeviceId deviceId) .badRequest
  ensure (IsBlob credential maxCredential) .payloadTooLarge
  ensure (uid ∈ db.users) .internal
  return { db with devices := db.devices.put (uid, deviceId) credential }

/-- `get_credential` of the API. -/
def getCredential (db : PackageTables) (uid : ℤ) (deviceId : String) :
    Except DeliveryError Bytes := do
  ensure (IsDeviceId deviceId) .badRequest
  okOr (db.devices.get (uid, deviceId)) .notFound

/-- The foreign key of a key package is its device, which has a credential. -/
def publishKeyPackage (db : PackageTables) (uid : ℤ) (deviceId : String) (package : Bytes) :
    Except DeliveryError PackageTables := do
  ensure (IsDeviceId deviceId) .badRequest
  ensure (IsBlob package maxKeyPackage) .payloadTooLarge
  ensure ((db.devices.get (uid, deviceId)).isSome = true) .conflict
  return { db with
    packages := db.packages ++ [⟨db.nextId, (uid, deviceId), package, none⟩]
    nextId := db.nextId + 1 }

/-- `select id, package … and consumed_at is null order by id limit 1` -/
def nextKeyPackage (db : PackageTables) (device : ℤ × String) : Option KeyPackageRow :=
  db.packages.find? fun row ↦ row.device = device && row.consumedAt.isNone

/-- `consume_key_package` up to the select. -/
def selectKeyPackage (db : PackageTables) (uid : ℤ) (deviceId : String) :
    Except DeliveryError KeyPackageRow := do
  ensure (IsDeviceId deviceId) .badRequest
  okOr (db.nextKeyPackage (uid, deviceId)) .notFound

/-- `update mls_key_package set consumed_at = current_timestamp where id = ?` -/
def consume (db : PackageTables) (now id : ℕ) : PackageTables :=
  { db with packages := db.packages.map fun row ↦
      if row.id = id then { row with consumedAt := some now } else row }

end PackageTables

/-! ### Routes -/

/-- A row of `mls_route`, without its key. The two columns of the initializer are written together.
-/
structure RouteRow where
  gid : ℤ
  initializer : Option (ℤ × String)
  initializerLease : Option ℕ
  initialized : Bool
  deriving DecidableEq, Repr

namespace RouteRow

/-- A new route. -/
def new (gid : ℤ) : RouteRow := ⟨gid, none, none, false⟩

/-- The `where` of the update that claims: nobody has claimed, or the lease is over, or it is the
same device. A lease that is null is not over. -/
def MayClaim (row : RouteRow) (device : ℤ × String) (now : ℕ) : Prop :=
  row.initialized = false ∧
  (row.initializer = none ∨ (∃ lease ∈ row.initializerLease, lease < now) ∨
    row.initializer = some device)

instance (row : RouteRow) (device : ℤ × String) (now : ℕ) : Decidable (row.MayClaim device now) :=
  inferInstanceAs (Decidable (_ ∧ _))

def claim (row : RouteRow) (device : ℤ × String) (now : ℕ) : RouteRow :=
  if row.MayClaim device now then
    { row with initializer := some device, initializerLease := some (now + 30) }
  else row

/-- The answer to a claim: 1 when this device owns the initialization lease, 2 when the route
already has an MLS group, and 0 while another device owns the lease. -/
def status (row : RouteRow) (device : ℤ × String) : ℕ :=
  if row.initialized then 2 else if row.initializer = some device then 1 else 0

/-- The `where` of the update that marks. -/
def MayMark (row : RouteRow) (device : ℤ × String) : Prop :=
  row.initializer = some device ∧ row.initialized = false

instance (row : RouteRow) (device : ℤ × String) : Decidable (row.MayMark device) :=
  inferInstanceAs (Decidable (_ ∧ _))

def mark (row : RouteRow) : RouteRow := { row with initialized := true, initializerLease := none }

end RouteRow

structure RouteTables where
  groups : Groups.Tables
  /-- `mls_route`, by token -/
  routes : Table String RouteRow

namespace RouteTables

/-- `authorize_group`: the group is public, or the user owns it or is a member. -/
def AuthorizesGroup (db : RouteTables) (uid gid : ℤ) : Prop :=
  ∃ row ∈ db.groups.group gid,
    row.isPublic = true ∨ row.owner = some uid ∨ uid ∈ db.groups.groupUser gid

instance (db : RouteTables) (uid gid : ℤ) : Decidable (db.AuthorizesGroup uid gid) :=
  inferInstanceAs (Decidable (∃ row ∈ db.groups.group gid, _))

/-- The token of the route of a group. -/
def routeOf (db : RouteTables) (gid : ℤ) : Option String :=
  (db.routes.rows.find? fun r ↦ r.2.gid = gid).map Prod.fst

/-- `route_for_group`, with the token that is generated for a new route. -/
def routeForGroup (db : RouteTables) (uid gid : ℤ) (token : String) :
    Except DeliveryError (String × RouteTables) := do
  ensure (db.AuthorizesGroup uid gid) .forbidden
  match db.routeOf gid with
  | some token => return (token, db)
  | none =>
    ensure (db.routes.get token = none) .internal
    return (token, { db with routes := db.routes.put token (.new gid) })

def authorizeRoute (db : RouteTables) (uid : ℤ) (token : String) : Except DeliveryError Unit := do
  let row ← okOr (db.routes.get token) .notFound
  ensure (db.AuthorizesGroup uid row.gid) .forbidden

/-- The transaction of `claim_initialization`. -/
def claim (db : RouteTables) (device : ℤ × String) (token : String) (now : ℕ) :
    Except DeliveryError (ℕ × RouteTables) := do
  let db := { db with routes := db.routes.modify token fun row ↦ row.claim device now }
  let row ← okOr (db.routes.get token) .internal
  return (row.status device, db)

/-- The update of `mark_initialized`. -/
def mark (db : RouteTables) (device : ℤ × String) (token : String) :
    Except DeliveryError RouteTables := do
  let row ← okOr (db.routes.get token) .conflict
  ensure (row.MayMark device) .conflict
  return { db with routes := db.routes.put token row.mark }

end RouteTables

end VoceChat
