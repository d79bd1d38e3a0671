import Satoidc.IdTokens
import Satoidc.PermissionQueries

/-! The endpoints over the signing keys. An administrator's request is admitted once,
with the permissions of that moment, and then makes its calls in steps that run among
those of all other requests. Anyone's request can find the keys without an active one. -/

namespace Satoidc.KeyAdmin
open Foundation

/-- An `HTTPException`. -/
structure HttpException where
  statusCode : Nat
  detail : String
  deriving DecidableEq, Repr

/-- `_require_key_admin`; `userId` is the UUID in the session. -/
def requireKeyAdmin (now : Instant) (permissions : List Permission) : Option UserId → Except HttpException UserId
  | none => .error ⟨401, "login_required"⟩
  | some uid =>
    if PermissionQueries.isAuthorized (PermissionQueries.getActiveUserPermissions now uid permissions)
        [PermissionsEnum.admin.value, PermissionsEnum.root.value] .any then .ok uid
    else .error ⟨403, "forbidden"⟩

/-- The endpoints behind `_require_key_admin`. -/
inductive Task where
  | list | create | rotate | retireExpired
  | activate (kid : String)
  deriving DecidableEq, Repr

/-- The parts of `ensure_active_signing_key`. -/
def ensures : KeyRace.Phase → KeyRace.Input → Bool
  | .start, .ensure | .bootstrapping, .bootstrap _ _ => true
  | _, _ => false

/-- The parts of the calls that an endpoint makes for an actor, in their order. -/
def Task.makes (actor : String) : Task → KeyRace.Phase → KeyRace.Input → Bool
  | .list, call, input => ensures call input
  | .create, .start, .create _ _ caller | .rotate, .start, .rotate _ _ caller => caller = actor
  | .rotate, .inserted _, .refresh | .rotate, .rotated _, .readKey _ _ => true
  | .activate kid, .start, .readKey asked _ => asked = kid
  | .rotate, .found _ _, .readActives | .activate _, .found _ _, .readActives => true
  | .rotate, .activating _ _ _, .activate caller | .activate _, .activating _ _ _, .activate caller => caller = actor
  | .retireExpired, .start, .readExpired _ => true
  | .retireExpired, .retiring _ _, .retire caller => caller = actor
  | _, _, _ => false

structure Service where
  permissions : List Permission
  keys : KeyStore

inductive Phase where
  | start
  | admitted (uid : UserId) (task : Task) (call : KeyRace.Phase)
  | ensuring (call : KeyRace.Phase)
  | finished

/-- `ensure` begins a request for the key set or one that signs an ID token, and
`permissions` is a change of the permissions by other requests. -/
inductive Input where
  | admin (userId : Option UserId) (now : Instant) (task : Task)
  | ensure
  | call (input : KeyRace.Input)
  | tokenSigned (kid : String)
  | permissions (rows : List Permission)

/-- `str` writes a UUID as the actor of a call. -/
def advance (env : Settings) (fernet : Fernet) (str : UserId → String) (mover : Nat) :
    Input → Service → Phase → Option (Service × Phase)
  | .admin userId now task, service, .start =>
    match requireKeyAdmin now service.permissions userId with
    | .ok uid => some (service, .admitted uid task .start)
    | .error _ => some (service, .finished)
  | .ensure, service, .start => some (service, .ensuring .start)
  | .call input, service, .admitted uid task call =>
    if task.makes (str uid) call input then
      (KeyRace.advance env fernet mover input service.keys call).map fun moved =>
        ({ service with keys := moved.1 }, .admitted uid task moved.2)
    else none
  | .call input, service, .ensuring call =>
    if ensures call input then
      (KeyRace.advance env fernet mover input service.keys call).map fun moved =>
        ({ service with keys := moved.1 }, .ensuring moved.2)
    else none
  | .tokenSigned kid, service, .ensuring .finished =>
    -- the key of a token was read from the table, which never loses one
    if (service.keys.keyByKid kid).isSome then
      some ({ service with keys := OpenIDCode.auditTokenSigned kid service.keys }, .finished)
    else none
  | .permissions rows, service, phase => some ({ service with permissions := rows }, phase)
  | _, _, _ => none

def step (env : Settings) (fernet : Fernet) (str : UserId → String) :
    World Service Phase → Nat × Input → Option (World Service Phase) :=
  World.step (advance env fernet str)

def initial (service : Service) : World Service Phase := ⟨service, fun _ => .start⟩

end Satoidc.KeyAdmin
