import Satoidc.PermissionQueries

/-! The upgrade chain of the database and what it makes of the permission rows that
were stored before it. A permission's type is stored as the name of an enum member;
loading a name that the enum of the code does not have raises `LookupError`. -/

namespace Satoidc.Migrations
open Foundation Foundation.Sql PermissionQueries

inductive Dialect where
  | postgresql | sqlite
  deriving DecidableEq, Repr

/-- A row of `permissions` as the database holds it. -/
structure StoredPermission where
  userId : UserId
  grantedBy : Option UserId
  id : Nat
  permissionType : String
  expirationDate : Option Instant
  reason : Option String
  disabled : Bool
  deriving DecidableEq, Repr

def StoredPermission.columns (row : StoredPermission) : Columns := ⟨row.userId, row.expirationDate, row.disabled⟩

/-- The type `permissionsenum` of the initial migration. -/
def initialPermissionsEnum : List String := ["ROOT", "ADMIN", "DRAW_OPERATOR", "SUPPORT"]

/-- `PERMISSIONS_ENUM` of the last migration. -/
def permissionsEnum : List String := ["ROOT", "ADMIN", "DRAW_OPERATOR", "DEVELOPER", "SUPPORT"]

/-- The schema, as far as the upgrades change it, and the permission rows. -/
structure Database where
  dialect : Dialect
  revision : String
  tables : List String
  permissionsEnum : List String
  challengeFlag : String
  permissions : List StoredPermission
  deriving DecidableEq, Repr

structure Migration where
  revision : String
  downRevision : String
  upgrade : Database → Database

def renameLnurlChallengeConsumedFlag : Migration where
  revision := "dad11091fd15"
  downRevision := "32a836ab058b"
  upgrade database := { database with challengeFlag := "consumed" }

def addOidcSigningKeys : Migration where
  revision := "6c2f4c9d1a7e"
  downRevision := "dad11091fd15"
  upgrade database := { database with tables := database.tables ++ ["oidc_signing_key_audit_events", "oidc_signing_keys"] }

/-- `ADD VALUE IF NOT EXISTS` is for PostgreSQL alone; elsewhere the column is text. -/
def addPermissionRequests : Migration where
  revision := "7f362123846e"
  downRevision := "6c2f4c9d1a7e"
  upgrade database :=
    { database with
      tables := database.tables ++ ["permission_requests"]
      permissionsEnum :=
        if database.dialect = .postgresql && "DEVELOPER" ∉ database.permissionsEnum then
          database.permissionsEnum ++ ["DEVELOPER"]
        else database.permissionsEnum }

/-- The files of `migrations/versions` after the initial one, in no particular order. -/
def versions : List Migration := [addOidcSigningKeys, addPermissionRequests, renameLnurlChallengeConsumedFlag]

/-- One upgrade: the migration that comes down to the database's revision. -/
def upgradeOnce (database : Database) : Option Database :=
  (versions.find? fun migration => migration.downRevision = database.revision).map fun migration =>
    { migration.upgrade database with revision := migration.revision }

/-- `alembic upgrade head`; there are no more upgrades than versions. -/
def upgradeToHead (database : Database) : Database :=
  versions.foldl (fun database _ => (upgradeOnce database).getD database) database

/-- Permission rows that the initial migration's column takes. -/
structure InitialPermissions where
  rows : List StoredPermission
  valid : ∀ row ∈ rows, row.permissionType ∈ initialPermissionsEnum

/-- A database at the initial migration. -/
def initialDatabase (dialect : Dialect) (permissions : InitialPermissions) : Database where
  dialect
  revision := "32a836ab058b"
  tables := ["lnurl_auth_challenges", "users", "oauth2_client", "oauth2_code", "oauth2_token", "permissions"]
  permissionsEnum := initialPermissionsEnum
  challengeFlag := "verified"
  permissions := permissions.rows

/-- The name of a member, which is what an `Enum` column stores. -/
def name : PermissionsEnum → String
  | .root => "ROOT"
  | .admin => "ADMIN"
  | .developer => "DEVELOPER"
  | .support => "SUPPORT"

structure LookupError where
  stored : String
  deriving DecidableEq, Repr

def load (stored : String) : Except LookupError PermissionsEnum :=
  match [PermissionsEnum.root, .admin, .developer, .support].find? fun permission => name permission = stored with
  | some permission => .ok permission
  | none => .error ⟨stored⟩

/-- `get_active_permissions_for_user`. Every selected row is loaded. -/
def getActivePermissionsForUser (now : Instant) (userId : UserId) (permissions : List StoredPermission) :
    Except LookupError (List PermissionsEnum) :=
  (select (fun row => activeForUser now userId row.columns) permissions).mapM fun row => load row.permissionType

/-- `get_active_user_permissions`. -/
def getActiveUserPermissions (now : Instant) (userId : UserId) (permissions : List StoredPermission) :
    Except LookupError (List String) := do
  let loaded ← (select (fun row => activeOfUser now userId row.columns) permissions).mapM fun row => load row.permissionType
  .ok (loaded.map PermissionsEnum.value)

end Satoidc.Migrations
