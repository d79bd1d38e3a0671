import Satoidc.Models
import Satoidc.Foundation.Text
import Satoidc.Foundation.Interleaving

/-! Permission requests and their decisions. A decision first reads the request
(and, to approve it, the requester's permission row), then writes; the two parts
are separate definitions so that decisions can be taken at once or interleaved. -/

namespace Satoidc
open Foundation

inductive PermissionsEnum where
  | root | admin | developer | support
  deriving DecidableEq, Repr

inductive PermissionRequestStatusEnum where
  | pending | approved | denied | cancelled | superseded
  deriving DecidableEq, Repr

structure Permission where
  userId : UserId
  grantedBy : Option UserId
  id : Nat
  permissionType : PermissionsEnum
  expirationDate : Option Instant
  reason : Option String
  disabled : Bool := false
  deriving DecidableEq, Repr

def Permission.active (permission : Permission) (now : Instant) : Bool :=
  !permission.disabled && permission.expirationDate.all (now < ·)

/-- The user and type of a permission, of which a table holds one row at most. -/
def Permission.pair (permission : Permission) : UserId × PermissionsEnum :=
  (permission.userId, permission.permissionType)

structure PermissionConstraints (rows : List Permission) : Prop where
  id : Keyed Permission.id rows
  userType : Keyed Permission.pair rows

instance : DecidablePred PermissionConstraints := fun rows =>
  decidable_of_iff (Keyed Permission.id rows ∧ Keyed Permission.pair rows)
    ⟨fun ⟨id, userType⟩ => ⟨id, userType⟩, fun ⟨id, userType⟩ => ⟨id, userType⟩⟩

theorem PermissionConstraints.nil : PermissionConstraints [] := by decide

structure PermissionRequest where
  requesterId : UserId
  permissionType : PermissionsEnum
  reason : Option String
  id : Nat
  status : PermissionRequestStatusEnum := .pending
  decisionReason : Option String := none
  decidedBy : Option UserId := none
  decidedAt : Option Instant := none
  deriving DecidableEq, Repr

def PermissionRequest.pair (request : PermissionRequest) : UserId × PermissionsEnum :=
  (request.requesterId, request.permissionType)

/-- What the partial index `ix_permission_requests_one_pending_per_user_type` covers. -/
def PermissionRequest.pendingPair (request : PermissionRequest) : Option (UserId × PermissionsEnum) :=
  if request.status = .pending then some request.pair else none

structure RequestConstraints (rows : List PermissionRequest) : Prop where
  id : Keyed PermissionRequest.id rows
  onePending : UniqueColumn PermissionRequest.pendingPair rows

instance : DecidablePred RequestConstraints := fun rows =>
  decidable_of_iff (Keyed PermissionRequest.id rows ∧ UniqueColumn PermissionRequest.pendingPair rows)
    ⟨fun ⟨id, onePending⟩ => ⟨id, onePending⟩, fun ⟨id, onePending⟩ => ⟨id, onePending⟩⟩

theorem RequestConstraints.nil : RequestConstraints [] := by decide

@[ext] structure PermissionStore where
  permissions : Table Permission PermissionConstraints
  requests : Table PermissionRequest RequestConstraints

namespace PermissionStore

def requestById (store : PermissionStore) (id : Nat) : Option PermissionRequest :=
  lookup PermissionRequest.id store.requests.rows id

/-- The one row that `uq_permissions_user_type` allows for a user and a type. -/
def permissionOf (store : PermissionStore) (pair : UserId × PermissionsEnum) : Option Permission :=
  lookup Permission.pair store.permissions.rows pair

end PermissionStore

def getActivePermissionsForUser (now : Instant) (userId : UserId) (permissions : List Permission) : List PermissionsEnum :=
  (permissions.filter fun permission => permission.userId = userId && permission.active now).map Permission.permissionType

def hasDeveloperAccess (permissions : List PermissionsEnum) : Bool :=
  permissions.any (· ∈ [.developer, .admin, .root])

/-- `(text or "").strip() or None`. -/
def note (text : Option String) : Option String :=
  let stripped := String.ofList (strip (orElse text "").toList)
  if stripped = "" then none else some stripped

def createPermissionRequest (now : Instant) (store : PermissionStore) (requesterId : UserId)
    (permissionType : PermissionsEnum) (reason : Option String) : Except PyError (PermissionRequest × PermissionStore) :=
  if permissionType = .developer && hasDeveloperAccess (getActivePermissionsForUser now requesterId store.permissions.rows) then
    .error (.permissionRequestNotAllowed "Requester already has developer access.")
  else
    match store.requests.rows.find? fun request =>
      request.requesterId = requesterId ∧ request.permissionType = permissionType ∧ request.status = .pending with
    | some pending => .ok (pending, store)
    | none =>
      let request : PermissionRequest :=
        { requesterId, permissionType, reason := note reason, id := nextId PermissionRequest.id store.requests.rows }
      match Table.store (store.requests.rows ++ [request]) with
      | none => .error .integrityError
      | some requests => .ok (request, { store with requests })

/-- The columns an ORM flush writes to a stored row: those whose value differs
from the one that was loaded. -/
def PermissionRequest.flush (loaded updated stored : PermissionRequest) : PermissionRequest :=
  { stored with
    status := writeColumn loaded.status updated.status stored.status
    decisionReason := writeColumn loaded.decisionReason updated.decisionReason stored.decisionReason
    decidedBy := writeColumn loaded.decidedBy updated.decidedBy stored.decidedBy
    decidedAt := writeColumn loaded.decidedAt updated.decidedAt stored.decidedAt }

@[simp] theorem PermissionRequest.flush_id (loaded updated stored : PermissionRequest) :
    (loaded.flush updated stored).id = stored.id := rfl

def Permission.flush (loaded updated stored : Permission) : Permission :=
  { stored with
    grantedBy := writeColumn loaded.grantedBy updated.grantedBy stored.grantedBy
    expirationDate := writeColumn loaded.expirationDate updated.expirationDate stored.expirationDate
    reason := writeColumn loaded.reason updated.reason stored.reason
    disabled := writeColumn loaded.disabled updated.disabled stored.disabled }

@[simp] theorem Permission.flush_id (loaded updated stored : Permission) :
    (loaded.flush updated stored).id = stored.id := rfl

@[simp] theorem Permission.flush_pair (loaded updated stored : Permission) :
    (loaded.flush updated stored).pair = stored.pair := rfl

/-- A call of one of the three functions that decide a request. -/
inductive Decision where
  | approve (requestId : Nat) (actorId : UserId) (decisionReason : Option String)
  | deny (requestId : Nat) (actorId : UserId) (decisionReason : Option String)
  | cancel (requestId : Nat) (requesterId : UserId)
  deriving DecidableEq, Repr

/-- What the read statements of a decision found: no such request, a request to
be returned as it is, or one to be decided, with the permission row to grant. -/
inductive Loaded where
  | unknown
  | returned (request : PermissionRequest)
  | deciding (request : PermissionRequest) (permission : Option Permission)
  deriving DecidableEq

namespace Decision

def requestId : Decision → Nat
  | approve requestId _ _ | deny requestId _ _ | cancel requestId _ => requestId

def grantReason (decisionReason : Option String) : String :=
  String.ofList (strip (orElse decisionReason "Approved permission request").toList)

def notFound (decision : Decision) : PyError :=
  .permissionRequestNotFound ("Permission request " ++ toString decision.requestId ++ " was not found.")

/-- `_get_permission_request` and the checks on the row it returned. -/
def load (store : PermissionStore) (decision : Decision) : Loaded :=
  match store.requestById decision.requestId with
  | none => .unknown
  | some request =>
    match decision with
    | approve _ _ _ =>
      if request.status ≠ .pending then .returned request
      else .deciding request (store.permissionOf request.pair)
    | deny _ _ _ => if request.status ≠ .pending then .returned request else .deciding request none
    | cancel _ requesterId =>
      if request.requesterId ≠ requesterId ∨ request.status ≠ .pending then .returned request
      else .deciding request none

/-- The request after the assignments of the decision. -/
def decided (now : Instant) (request : PermissionRequest) : Decision → PermissionRequest
  | approve _ actorId decisionReason =>
    { request with status := .approved, decisionReason := note decisionReason, decidedBy := some actorId, decidedAt := some now }
  | deny _ actorId decisionReason =>
    { request with status := .denied, decisionReason := note decisionReason, decidedBy := some actorId, decidedAt := some now }
  | cancel _ _ => { request with status := .cancelled }

/-- The permission rows once an approval has updated or inserted its row. -/
def grant (rows : List Permission) (request : PermissionRequest) (actorId : UserId) (decisionReason : Option String) :
    Option Permission → List Permission
  | some permission =>
    let updated := { permission with
      disabled := false, expirationDate := none, grantedBy := some actorId, reason := some (grantReason decisionReason) }
    update (fun stored => stored.id = permission.id) (permission.flush updated) rows
  | none => rows ++
    [{ userId := request.requesterId, grantedBy := some actorId, id := nextId Permission.id rows
       permissionType := request.permissionType, expirationDate := none, reason := some (grantReason decisionReason) }]

def granted (rows : List Permission) (request : PermissionRequest) (permission : Option Permission) :
    Decision → List Permission
  | approve _ actorId decisionReason => grant rows request actorId decisionReason permission
  | deny _ _ _ | cancel _ _ => rows

/-- The flush and commit of a decision: one transaction over both tables. -/
def write (now : Instant) (store : PermissionStore) (request : PermissionRequest) (permission : Option Permission)
    (decision : Decision) : Option PermissionStore := do
  let permissions ← Table.store (decision.granted store.permissions.rows request permission)
  let requests ← Table.store
    (update (fun stored => stored.id = request.id) (request.flush (decision.decided now request)) store.requests.rows)
  some { permissions, requests }

/-- A whole decision, its session committed before any other reads. -/
def run (now : Instant) (store : PermissionStore) (decision : Decision) :
    Except PyError (PermissionRequest × PermissionStore) :=
  match decision.load store with
  | .unknown => .error decision.notFound
  | .returned request => .ok (request, store)
  | .deciding request permission =>
    match decision.write now store request permission with
    | none => .error .integrityError
    | some after => .ok (decision.decided now request, after)

end Decision

def approvePermissionRequest (now : Instant) (store : PermissionStore) (requestId : Nat) (actorId : UserId)
    (decisionReason : Option String) : Except PyError (PermissionRequest × PermissionStore) :=
  (Decision.approve requestId actorId decisionReason).run now store

def denyPermissionRequest (now : Instant) (store : PermissionStore) (requestId : Nat) (actorId : UserId)
    (decisionReason : Option String) : Except PyError (PermissionRequest × PermissionStore) :=
  (Decision.deny requestId actorId decisionReason).run now store

def cancelPermissionRequest (now : Instant) (store : PermissionStore) (requestId : Nat) (requesterId : UserId) :
    Except PyError (PermissionRequest × PermissionStore) :=
  (Decision.cancel requestId requesterId).run now store

namespace DecisionRace

inductive Phase where
  | start
  | loaded (decision : Decision) (request : PermissionRequest) (permission : Option Permission)
  | finished (decision : Decision) (wrote : Bool) (result : Except PyError PermissionRequest)

inductive Input where
  | read (decision : Decision)
  | write (now : Instant)

def advance (_ : Nat) : Input → PermissionStore → Phase → Option (PermissionStore × Phase)
  | .read decision, store, .start =>
    match decision.load store with
    | .unknown => some (store, .finished decision false (.error decision.notFound))
    | .returned request => some (store, .finished decision false (.ok request))
    | .deciding request permission => some (store, .loaded decision request permission)
  | .write now, store, .loaded decision request permission =>
    match decision.write now store request permission with
    | none => some (store, .finished decision false (.error .integrityError))
    | some after => some (after, .finished decision true (.ok (decision.decided now request)))
  | _, _, _ => none

def initial (store : PermissionStore) : World PermissionStore Phase := ⟨store, fun _ => .start⟩

end DecisionRace

namespace PermissionRequests

inductive Operation where
  | create (now : Instant) (requesterId : UserId) (permissionType : PermissionsEnum) (reason : Option String)
  | decide (now : Instant) (decision : Decision)

def Operation.call (store : PermissionStore) : Operation → Except PyError (PermissionRequest × PermissionStore)
  | create now requesterId permissionType reason => createPermissionRequest now store requesterId permissionType reason
  | decide now decision => decision.run now store

/-- A session of its own: committed if the call returns, rolled back if it raises. -/
def step (store : PermissionStore) (operation : Operation) : Option PermissionStore :=
  match operation.call store with
  | .error _ => some store
  | .ok (_, after) => some after

def initial (permissions : Table Permission PermissionConstraints) : PermissionStore := ⟨permissions, ⟨[], .nil⟩⟩

end PermissionRequests

end Satoidc
