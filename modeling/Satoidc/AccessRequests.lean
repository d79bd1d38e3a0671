import Satoidc.Pages

/-! Developer access as it is asked for and decided. Profile pages submit requests and
admin dashboards decide them. A handler first makes its checks and later flushes and
commits, so handlers of other pages run in between. -/

namespace Satoidc
open Foundation

/-- The checks: an exception, the pending request to return, or neither. -/
def checkPermissionRequest (now : Instant) (store : PermissionStore) (requesterId : UserId) (permissionType : PermissionsEnum) :
    Except PyError (Option PermissionRequest) :=
  if permissionType = .developer && hasDeveloperAccess (getActivePermissionsForUser now requesterId store.permissions.rows) then
    .error (.permissionRequestNotAllowed "Requester already has developer access.")
  else
    .ok (store.requests.rows.find? fun request =>
      request.requesterId = requesterId ∧ request.permissionType = permissionType ∧ request.status = .pending)

/-- `session.add` and `session.flush`. -/
def addPermissionRequest (store : PermissionStore) (requesterId : UserId) (permissionType : PermissionsEnum)
    (reason : Option String) : Except PyError (PermissionRequest × PermissionStore) :=
  let request : PermissionRequest :=
    { requesterId, permissionType, reason := note reason, id := nextId PermissionRequest.id store.requests.rows }
  match Table.store (store.requests.rows ++ [request]) with
  | none => .error .integrityError
  | some requests => .ok (request, { store with requests })

theorem createPermissionRequest_halves (now : Instant) (store : PermissionStore) (requesterId : UserId)
    (permissionType : PermissionsEnum) (reason : Option String) :
    createPermissionRequest now store requesterId permissionType reason =
      match checkPermissionRequest now store requesterId permissionType with
      | .error raised => .error raised
      | .ok (some pending) => .ok (pending, store)
      | .ok none => addPermissionRequest store requesterId permissionType reason := by
  unfold createPermissionRequest checkPermissionRequest
  split
  · rfl
  · dsimp only
    split
    next found => rw [found]
    next missing => rw [missing]; rfl

namespace AccessRequests
open Pages (Deciding Verdict)

/-- A decision between its statements: an approval that has read its request, or a
decision with all that it reads. -/
inductive Handling where
  | approving (request : PermissionRequest)
  | deciding (deciding : Deciding)

/-- A page and the handler that it is running, if any: the reason of a request that is
yet to be added, or a decision that is yet to be written. -/
inductive Tab where
  | closed
  | profile (userId : UserId) (adding : Option (Option String))
  | dashboardAdmin (actorId : UserId) (handling : Option Handling)

inductive Input where
  | profile (userId : UserId)
  | dashboardAdmin (userId : Option UserId) (now : Instant)
  | submit (reason : Option String) (now : Instant)
  | decide (requestId : Nat) (verdict : Verdict)
  | selectPermission
  | commit (now : Instant)
  | close

def dashboardAdmin (now : Instant) (store : PermissionStore) (userId : Option UserId) : Tab :=
  match userId, authorizePageRequest now store.permissions.rows userId Pages.Page.dashboardAdmin.permissions .any with
  | some actorId, none => .dashboardAdmin actorId none
  | _, _ => .closed

/-- The first half of `submit`. A request that is pending already is reported as
submitted, and nothing is left to write. -/
def submit (now : Instant) (store : PermissionStore) (userId : UserId) (reason : Option String) : Tab :=
  match checkPermissionRequest now store userId .developer with
  | .error _ | .ok (some _) => .profile userId none
  | .ok none => .profile userId (some reason)

/-- The first statements of `approve_request` and `deny_request`: a request that is
still pending is decided, and an approval has the permission to look for. -/
def decide (store : PermissionStore) (requestId : Nat) (verdict : Verdict) : Option Handling :=
  match store.requestById requestId with
  | none => none
  | some request =>
    if request.status ≠ .pending then none
    else
      match verdict with
      | .approve => some (.approving request)
      | .deny reason => some (.deciding ⟨.deny reason, request, none⟩)

/-- The permission that an approval is to change, if there is one. -/
def selectPermission (store : PermissionStore) (request : PermissionRequest) : Handling :=
  .deciding ⟨.approve, request, store.permissionOf request.pair⟩

/-- The two reads together are those of the whole decision. -/
theorem decide_selectPermission (store : PermissionStore) (requestId : Nat) (verdict : Verdict) (actorId : UserId) :
    (decide store requestId verdict).map (fun
      | .approving request => selectPermission store request
      | .deciding deciding => .deciding deciding) =
      match (verdict.decision requestId actorId).load store with
      | .deciding request permission => some (.deciding ⟨verdict, request, permission⟩)
      | .unknown | .returned _ => none := by
  have known : (verdict.decision requestId actorId).requestId = requestId := by cases verdict <;> rfl
  cases found : store.requestById requestId with
  | none => simp [decide, Decision.load, known, found]
  | some request =>
    by_cases pending : request.status = .pending
    · cases verdict <;> simp [decide, selectPermission, Verdict.decision, Decision.load, Decision.requestId, found, pending]
    · cases verdict <;> simp [decide, Verdict.decision, Decision.load, Decision.requestId, found, pending]

def write (now : Instant) (store : PermissionStore) (actorId : UserId) (deciding : Deciding) : Option PermissionStore :=
  (deciding.verdict.decision deciding.request.id actorId).write now store deciding.request deciding.permission

/-- A failed flush leaves the session of the page unusable. -/
def advance (_ : Nat) : Input → PermissionStore → Tab → Option (PermissionStore × Tab)
  | .profile userId, store, .closed => some (store, .profile userId none)
  | .dashboardAdmin userId now, store, .closed => some (store, dashboardAdmin now store userId)
  | .submit reason now, store, .profile userId none => some (store, submit now store userId reason)
  | .decide requestId verdict, store, .dashboardAdmin actorId none =>
    some (store, .dashboardAdmin actorId (decide store requestId verdict))
  | .selectPermission, store, .dashboardAdmin actorId (some (.approving request)) =>
    some (store, .dashboardAdmin actorId (some (selectPermission store request)))
  | .commit _, store, .profile userId (some reason) =>
    match addPermissionRequest store userId .developer reason with
    | .error _ => some (store, .closed)
    | .ok (_, after) => some (after, .profile userId none)
  | .commit now, store, .dashboardAdmin actorId (some (.deciding deciding)) =>
    match write now store actorId deciding with
    | none => some (store, .closed)
    | some after => some (after, .dashboardAdmin actorId none)
  | .close, store, _ => some (store, .closed)
  | _, _, _ => none

def step : World PermissionStore Tab → Nat × Input → Option (World PermissionStore Tab) := World.step advance

def initial (store : PermissionStore) : World PermissionStore Tab := ⟨store, fun _ => .closed⟩

end AccessRequests

end Satoidc
