import Satoidc.Foundation.Sql
import Satoidc.Pages

/-! The queries over permission rows, each with its own conditions, and the access
rules that work on the values of the permissions. -/

namespace Satoidc
open Foundation Foundation.Sql

/-- `str(permission)`. -/
def PermissionsEnum.value : PermissionsEnum → String
  | .root => "root"
  | .admin => "admin"
  | .developer => "developer"
  | .support => "support"

namespace PermissionQueries

def developerAccessPermissions : List PermissionsEnum := [.developer, .admin, .root]

def hasDeveloperAccess (permissions : List PermissionsEnum) : Bool :=
  (developerAccessPermissions.map PermissionsEnum.value).any (· ∈ permissions.map PermissionsEnum.value)

/-- The columns of a permission that the conditions read, its type apart. -/
structure Columns where
  userId : UserId
  expirationDate : Option Instant
  disabled : Bool
  deriving DecidableEq, Repr

def columns (permission : Permission) : Columns := ⟨permission.userId, permission.expirationDate, permission.disabled⟩

/-- The conditions of `get_active_permissions_for_user`. -/
def activeForUser (now : Instant) (userId : UserId) (row : Columns) : Truth :=
  .all [compare (· == ·) (some row.userId) (some userId), Truth.is (some row.disabled) false,
    (compare (fun date now => now < date) row.expirationDate (some now)).or (isNull row.expirationDate)]

def getActivePermissionsForUser (now : Instant) (userId : UserId) (permissions : List Permission) : List PermissionsEnum :=
  (select (fun permission => activeForUser now userId (columns permission)) permissions).map Permission.permissionType

/-- The conditions of `get_active_user_permissions`. -/
def activeOfUser (now : Instant) (userId : UserId) (row : Columns) : Truth :=
  .all [compare (· == ·) (some row.userId) (some userId), Truth.is (some row.disabled) false,
    (compare (fun date now => now < date) row.expirationDate (some now)).or (isNull row.expirationDate)]

def getActiveUserPermissions (now : Instant) (userId : UserId) (permissions : List Permission) : List String :=
  ((select (fun permission => activeOfUser now userId (columns permission)) permissions).map
    Permission.permissionType).map PermissionsEnum.value

def isAuthorized (userPermissions requiredPermissions : List String) : PermissionMode → Bool
  | .all => PermissionsEnum.root.value ∈ userPermissions || requiredPermissions.all (· ∈ userPermissions)
  | .any => PermissionsEnum.root.value ∈ userPermissions || requiredPermissions.any (· ∈ userPermissions)

def authorizePageRequest (now : Instant) (permissions : List Permission) (userId : Option UserId)
    (requiredPermissions : List PermissionsEnum) (mode : PermissionMode) : Option String :=
  match userId with
  | none => some "/login"
  | some userId =>
    if !isAuthorized (getActiveUserPermissions now userId permissions) (requiredPermissions.map PermissionsEnum.value) mode then
      some "/forbidden"
    else none

/-- `page_security` for a session of `userId`: the redirect in place of the page. -/
def pageSecurity (now : Instant) (stored : List Permission) (userId : Option UserId)
    (permissions : List PermissionsEnum := []) (mode : PermissionMode := .any) : Option String :=
  authorizePageRequest now stored userId (if permissions = [] then [.root] else permissions) mode

structure AdminDashboardMetrics where
  pendingRequests : Nat
  totalUsers : Nat
  developerAccessUsers : Nat
  registeredClients : Nat
  recentlyCreatedClients : Nat
  inactivePermissions : Nat
  deriving DecidableEq, Repr

/-- The conditions on the rows whose users have developer access. -/
def grantsDeveloperAccess (now : Instant) (permission : Permission) : Truth :=
  .all [isIn (some permission.permissionType) developerAccessPermissions, Truth.is (some permission.disabled) false,
    (compare (fun date now => now < date) permission.expirationDate (some now)).or (isNull permission.expirationDate)]

/-- The condition on inactive rows. -/
def inactive (now : Instant) (permission : Permission) : Truth :=
  (Truth.is (some permission.disabled) true).or (compare (fun date now => date ≤ now) permission.expirationDate (some now))

/-- `get_admin_dashboard_metrics`; `now` is the database's time, `utcNow` the process's. -/
def getAdminDashboardMetrics (now utcNow : Instant) (users : List User) (clients : List OAuth2Client) (store : PermissionStore) :
    AdminDashboardMetrics where
  pendingRequests := (select (fun request => compare (· == ·) (some request.status) (some .pending)) store.requests.rows).length
  totalUsers := users.length
  developerAccessUsers := countDistinct Permission.userId (grantsDeveloperAccess now) store.permissions.rows
  registeredClients := clients.length
  recentlyCreatedClients :=
    let recentCutoff := unixSeconds (utcNow - seconds (7 * 24 * 3600))
    (select (fun client => compare (fun issued cutoff => cutoff ≤ issued) (some client.clientIdIssuedAt)
      (some recentCutoff)) clients).length
  inactivePermissions := (select (inactive now) store.permissions.rows).length

end PermissionQueries

end Satoidc
