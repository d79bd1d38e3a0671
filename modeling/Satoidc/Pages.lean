import Satoidc.Permissions

/-! Protected pages. `page_security` checks the actor's permissions once, when the
page is rendered; the page then stays open in a tab, and its actions arrive over
the live connection with the actor it was rendered for. -/

namespace Satoidc
open Foundation

inductive PermissionMode where
  | all | any
  deriving DecidableEq, Repr

def isAuthorized (userPermissions requiredPermissions : List PermissionsEnum) : PermissionMode → Bool
  | .all => .root ∈ userPermissions || requiredPermissions.all (· ∈ userPermissions)
  | .any => .root ∈ userPermissions || requiredPermissions.any (· ∈ userPermissions)

/-- Where the request is redirected to, if it is. `userId` is the UUID in the
session; without one, or with a malformed one, there is none. -/
def authorizePageRequest (now : Instant) (permissions : List Permission) (userId : Option UserId)
    (requiredPermissions : List PermissionsEnum) (mode : PermissionMode) : Option String :=
  match userId with
  | none => some "/login"
  | some userId =>
    if !isAuthorized (getActivePermissionsForUser now userId permissions) requiredPermissions mode then some "/forbidden"
    else none

/-- What `build_client_metadata` returns. -/
structure ClientMetadata where
  clientName : String
  clientUri : String
  grantTypes : List String
  redirectUris : List String
  responseTypes : List String
  scope : String
  tokenEndpointAuthMethod : String
  deriving DecidableEq, Repr

structure OAuth2Client where
  id : Nat
  userId : UserId
  clientId : String
  clientIdIssuedAt : Int
  clientSecret : String
  clientMetadata : ClientMetadata
  deriving DecidableEq, Repr

namespace Pages

inductive Page where
  | dashboardAdmin | createClient
  deriving DecidableEq, Repr

/-- The `permissions` of the page's `page_security`, in mode `any`. -/
def Page.permissions : Page → List PermissionsEnum
  | .dashboardAdmin => [.admin]
  | .createClient => [.developer, .admin]

inductive Verdict where
  | approve
  | deny (reason : String)
  deriving DecidableEq, Repr

/-- The call that `approve_request` or `deny_request` makes. -/
def Verdict.decision (requestId : Nat) (actorId : UserId) : Verdict → Decision
  | .approve => .approve requestId actorId (some "Approved in admin dashboard")
  | .deny reason => .deny requestId actorId (some reason)

/-- A decision whose rows have been read and that is yet to be committed. -/
structure Deciding where
  verdict : Verdict
  request : PermissionRequest
  permission : Option Permission
  deriving DecidableEq, Repr

inductive Tab where
  | closed
  | dashboardAdmin (actorId : UserId) (deciding : Option Deciding)
  | createClient (userId : UserId)
  deriving DecidableEq, Repr

/-- The page that the tab shows and the actor it was rendered for. -/
def Tab.shows : Tab → Option (Page × UserId)
  | .closed => none
  | .dashboardAdmin actorId _ => some (.dashboardAdmin, actorId)
  | .createClient userId => some (.createClient, userId)

structure State where
  now : Instant
  store : PermissionStore
  clients : Table OAuth2Client (Keyed OAuth2Client.id)
  tabs : Nat → Tab

/-- Time passing and changes of the permission table made elsewhere, requests and
their cancellation by the requester, and what happens in the tabs. -/
inductive Event where
  | tick (now : Instant)
  | setPermissions (permissions : Table Permission PermissionConstraints)
  | request (requesterId : UserId) (permissionType : PermissionsEnum) (reason : Option String)
  | cancel (requestId : Nat) (requesterId : UserId)
  | render (tab : Nat) (page : Page) (userId : Option UserId)
  | close (tab : Nat)
  | decide (tab : Nat) (requestId : Nat) (verdict : Verdict)
  | commit (tab : Nat)
  | submit (tab : Nat) (clientMetadata : ClientMetadata) (clientId clientSecret : String)

def State.setTab (state : State) (tab : Nat) (shown : Tab) : State :=
  { state with tabs := Function.update state.tabs tab shown }

/-- An operation of the service on the requests, committed at once. -/
def State.perform (state : State) (result : Except PyError (PermissionRequest × PermissionStore)) : State :=
  match result with
  | .error _ => state
  | .ok (_, store) => { state with store }

def opened (userId : UserId) : Page → Tab
  | .dashboardAdmin => .dashboardAdmin userId none
  | .createClient => .createClient userId

/-- The page function runs only if `page_security` lets the request through. -/
def render (state : State) (tab : Nat) (page : Page) (userId : Option UserId) : State :=
  match userId, authorizePageRequest state.now state.store.permissions.rows userId page.permissions .any with
  | some userId, none => state.setTab tab (opened userId page)
  | _, _ => state

/-- The reading half of `approve_request` and `deny_request`. -/
def readDecision (state : State) (tab requestId : Nat) (verdict : Verdict) (actorId : UserId) : State :=
  match (verdict.decision requestId actorId).load state.store with
  | .deciding request permission => state.setTab tab (.dashboardAdmin actorId (some ⟨verdict, request, permission⟩))
  | .unknown | .returned _ => state

def Deciding.write (deciding : Deciding) (state : State) (actorId : UserId) : Option PermissionStore :=
  (deciding.verdict.decision deciding.request.id actorId).write state.now state.store deciding.request deciding.permission

/-- The `session.commit()` of `approve_request` and `deny_request`. A failed flush
leaves the session of the page unusable. -/
def commitDecision (state : State) (tab : Nat) (deciding : Deciding) (actorId : UserId) : State :=
  match deciding.write state actorId with
  | none => state.setTab tab .closed
  | some store => { state with store }.setTab tab (.dashboardAdmin actorId none)

/-- `create_client_page.submit` for a form that passed `build_client_metadata`. -/
def submit (state : State) (userId : UserId) (clientMetadata : ClientMetadata) (clientId secret : String) : Option State :=
  let client : OAuth2Client :=
    { id := nextId OAuth2Client.id state.clients.rows
      userId
      clientId
      clientIdIssuedAt := unixSeconds state.now
      clientSecret := if clientMetadata.tokenEndpointAuthMethod ≠ "none" then secret else ""
      clientMetadata }
  (Table.store (state.clients.rows ++ [client])).map fun clients => { state with clients }

def step (state : State) : Event → Option State
  | .tick now => if state.now ≤ now then some { state with now } else none
  | .setPermissions permissions => some { state with store := { state.store with permissions } }
  | .request requesterId permissionType reason =>
    some (state.perform (createPermissionRequest state.now state.store requesterId permissionType reason))
  | .cancel requestId requesterId =>
    some (state.perform (cancelPermissionRequest state.now state.store requestId requesterId))
  | .render tab page userId => if state.tabs tab = .closed then some (render state tab page userId) else none
  | .close tab => some (state.setTab tab .closed)
  | .decide tab requestId verdict =>
    match state.tabs tab with
    | .dashboardAdmin actorId none => some (readDecision state tab requestId verdict actorId)
    | _ => none
  | .commit tab =>
    match state.tabs tab with
    | .dashboardAdmin actorId (some deciding) => some (commitDecision state tab deciding actorId)
    | _ => none
  | .submit tab clientMetadata clientId secret =>
    match state.tabs tab with
    | .createClient userId => submit state userId clientMetadata clientId secret
    | _ => none

def initial (now : Instant) (permissions : Table Permission PermissionConstraints) : State where
  now
  store := ⟨permissions, ⟨[], by decide⟩⟩
  clients := ⟨[], List.nodup_nil⟩
  tabs _ := .closed

end Pages

end Satoidc
