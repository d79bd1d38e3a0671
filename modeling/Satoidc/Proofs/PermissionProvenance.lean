import Satoidc.Foundation.History
import Satoidc.Proofs.DecisionRaces

/-! Where permissions come from, when each operation commits before the next one
starts: what an approval wrote last is what a pair of user and type has. -/

namespace Satoidc.Proofs.PermissionProvenance
open Foundation PermissionRequests DecisionRaces

/-- The ways an operation ends. -/
inductive Outcome (store : PermissionStore) : Operation → PermissionStore → Prop where
  | keeps {operation} : Outcome store operation store
  | creates {now requesterId permissionType reason after} {request : PermissionRequest} (pending : request.status = .pending)
      (unused : ∀ other ∈ store.requests.rows, other.id ≠ request.id)
      (requests : after.requests.rows = store.requests.rows ++ [request]) (permissions : after.permissions = store.permissions) :
      Outcome store (.create now requesterId permissionType reason) after
  | decides {now decision request permission after} (loaded : decision.load store = .deciding request permission)
      (written : decision.write now store request permission = some after) :
      Outcome store (.decide now decision) after

section outcome
variable {store after : PermissionStore} {operation : Operation}

theorem step_outcome (taken : step store operation = some after) : Outcome store operation after := by
  unfold step at taken
  cases operation with
  | create now requesterId permissionType reason =>
    simp only [Operation.call, createPermissionRequest] at taken
    split at taken
    next => cases taken; exact .keeps
    next request written called =>
      cases taken
      split at called
      next => cases called
      next =>
        split at called
        next => cases called; exact .keeps
        next =>
          split at called
          next => cases called
          next requests stored =>
            cases called
            refine .creates rfl ?_ (Table.store_some.mp stored) rfl
            exact fun other member => (lt_nextId member).ne
  | decide now decision =>
    simp only [Operation.call, Decision.run] at taken
    cases loaded : decision.load store with
    | unknown => simp only [loaded] at taken; cases taken; exact .keeps
    | returned request => simp only [loaded] at taken; cases taken; exact .keeps
    | deciding request permission =>
      simp only [loaded] at taken
      cases written : decision.write now store request permission with
      | none => simp only [written] at taken; cases taken; exact .keeps
      | some result => simp only [written] at taken; cases taken; exact .decides loaded written

/-- The request after a decision, which has left `pending` for good. -/
structure Decided (before after : PermissionRequest) : Prop where
  pending : before.status = .pending
  status : after.status = .approved ∨ after.status = .denied ∨ after.status = .cancelled
  identity : after.id = before.id ∧ after.pair = before.pair ∧ after.reason = before.reason

theorem decided_decided {request : PermissionRequest} (pending : request.status = .pending) (decision : Decision)
    (now : Instant) :
    Decided request (decision.decided now request) := by
  cases decision with
  | approve _ _ _ => exact ⟨pending, .inl rfl, rfl, rfl, rfl⟩
  | deny _ _ _ => exact ⟨pending, .inr (.inl rfl), rfl, rfl, rfl⟩
  | cancel _ _ => exact ⟨pending, .inr (.inr rfl), rfl, rfl, rfl⟩

theorem created_request {request : PermissionRequest} (unused : ∀ other ∈ store.requests.rows, other.id ≠ request.id)
    (requests : after.requests.rows = store.requests.rows ++ [request]) (id : Nat) :
    after.requestById id = if id = request.id then some request else store.requestById id := by
  rw [PermissionStore.requestById, requests, lookup_append_singleton]
  change (store.requestById id).or _ = _
  split
  next same =>
    subst same
    rw [if_pos rfl, PermissionStore.requestById, lookup_none.mpr unused, Option.none_or]
  next different => rw [if_neg (Ne.symm different), Option.or_none]

theorem decides_request {decision : Decision} {request : PermissionRequest} {permission : Option Permission} {now : Instant}
    (loaded : decision.load store = .deciding request permission)
    (written : decision.write now store request permission = some after) (id : Nat) :
    after.requestById id = if id = request.id then some (decision.decided now request) else store.requestById id := by
  have found := (load_deciding loaded).1
  exact write_request (by rw [(mem_of_lookup found).2]; exact found) written id

/-- A stored request stays as it is or is decided. -/
theorem Outcome.request (outcome : Outcome store operation after) {id : Nat} {request : PermissionRequest}
    (found : store.requestById id = some request) :
    ∃ later, after.requestById id = some later ∧ (later = request ∨ Decided request later) := by
  cases outcome with
  | keeps => exact ⟨request, found, .inl rfl⟩
  | @creates _ _ _ _ _ target pending unused requests permissions =>
    have different : id ≠ target.id := by
      rintro rfl
      cases (lookup_none.mpr unused).symm.trans found
    exact ⟨request, by rw [created_request unused requests, if_neg different, found], .inl rfl⟩
  | @decides now decision target permission _ loaded written =>
    rw [decides_request loaded written]
    split
    next same =>
      obtain ⟨stored, pending, -⟩ := load_deciding loaded
      rw [same, (mem_of_lookup stored).2] at found
      cases stored.symm.trans found
      exact ⟨_, rfl, .inr (decided_decided pending decision now)⟩
    next => exact ⟨request, found, .inl rfl⟩

/-- A request that appears is pending. -/
theorem Outcome.created (outcome : Outcome store operation after) {id : Nat} {request : PermissionRequest}
    (missing : store.requestById id = none) (found : after.requestById id = some request) : request.status = .pending := by
  cases outcome with
  | keeps => cases missing.symm.trans found
  | @creates _ _ _ _ _ target pending unused requests permissions =>
    rw [created_request unused requests] at found
    split at found
    next => cases found; exact pending
    next => cases missing.symm.trans found
  | @decides now decision target permission _ loaded written =>
    rw [decides_request loaded written] at found
    split at found
    next same =>
      obtain ⟨stored, -, -⟩ := load_deciding loaded
      rw [same, (mem_of_lookup stored).2] at missing
      cases missing.symm.trans stored
    next => cases missing.symm.trans found

def Approved (store : PermissionStore) (pair : UserId × PermissionsEnum) (request : PermissionRequest) : Prop :=
  store.requestById request.id = some request ∧ request.pair = pair ∧ request.status = .approved

/-- The row is the one that the approval of the request wrote. -/
structure GrantedBy (request : PermissionRequest) (row : Permission) : Prop where
  enabled : row.disabled = false
  unlimited : row.expirationDate = none
  grantedBy : row.grantedBy = request.decidedBy

/-- What an operation does to the permission of a pair: nothing, while no request for
the pair becomes approved; or it approves one and the row is what that wrote. -/
theorem Outcome.permission (outcome : Outcome store operation after) (pair : UserId × PermissionsEnum) :
    (after.permissionOf pair = store.permissionOf pair ∧ ∀ request, Approved after pair request → Approved store pair request) ∨
      ∃ request row, Approved after pair request ∧ ¬ Approved store pair request ∧ after.permissionOf pair = some row ∧
        GrantedBy request row := by
  cases outcome with
  | keeps => exact .inl ⟨rfl, fun _ approved => approved⟩
  | @creates _ _ _ _ _ target pending unused requests permissions =>
    refine .inl ⟨by rw [PermissionStore.permissionOf, permissions]; rfl, ?_⟩
    rintro request ⟨found, same, status⟩
    rw [created_request unused requests] at found
    split at found
    next =>
      cases found
      cases pending.symm.trans status
    next => exact ⟨found, same, status⟩
  | @decides now decision target permission _ loaded written =>
    obtain ⟨stored, pending, row⟩ := load_deciding loaded
    have current : store.requestById target.id = some target := by rw [(mem_of_lookup stored).2]; exact stored
    have others : ∀ request, Approved after pair request →
        request = decision.decided now target ∨ Approved store pair request := by
      rintro request ⟨found, same, status⟩
      rw [write_request current written] at found
      split at found
      next => exact .inl (Option.some.inj found).symm
      next => exact .inr ⟨found, same, status⟩
    by_cases approves : grants decision ∧ pair = target.pair
    · obtain ⟨granting, rfl⟩ := approves
      cases decision with
      | deny _ _ _ | cancel _ _ => exact granting.elim
      | approve requestId actorId reason =>
        obtain ⟨row, shown, -, enabled, unlimited, granter⟩ := write_permission_approved (row trivial) written
        refine .inr ⟨(Decision.approve requestId actorId reason).decided now target, row, ?_, ?_, shown,
          enabled, unlimited, granter⟩
        · exact ⟨(write_request current written target.id).trans (if_pos rfl), rfl, rfl⟩
        · rintro ⟨before, -, -⟩
          cases Option.some.inj (current.symm.trans before) ▸ pending
    · refine .inl ⟨?_, ?_⟩
      · by_cases granting : grants decision
        · exact write_permission_other (fun same => approves ⟨granting, same⟩) row written
        · exact write_permission_kept granting written pair
      · intro request approved
        rcases others request approved with rfl | before
        · obtain ⟨-, same, status⟩ := approved
          refine absurd ⟨?_, ?_⟩ approves
          · cases decision with
            | approve _ _ _ => trivial
            | deny _ _ _ | cancel _ _ => cases status
          · cases decision <;> exact same.symm
        · exact before

end outcome

/-- An operation moves requests only from pending to decided, leaves the permissions
alone unless it approves, and everything where it has nothing to do. -/
structure StepLaw (before : PermissionStore) (operation : Operation) (after : PermissionStore) : Prop where
  request : ∀ id request, before.requestById id = some request →
    ∃ later, after.requestById id = some later ∧ (later = request ∨ Decided request later)
  created : ∀ id request, before.requestById id = none → after.requestById id = some request → request.status = .pending
  permissions : (∀ now requestId actorId reason, operation ≠ .decide now (.approve requestId actorId reason)) →
    after.permissions = before.permissions
  raises : ∀ raised, operation.call before = .error raised → after = before
  existing : ∀ now requesterId permissionType reason, operation = .create now requesterId permissionType reason →
    (∃ request ∈ before.requests.rows, request.pair = (requesterId, permissionType) ∧ request.status = .pending) → after = before
  unknown : ∀ now decision, operation = .decide now decision → before.requestById decision.requestId = none → after = before
  decided : ∀ now decision request, operation = .decide now decision →
    before.requestById decision.requestId = some request → request.status ≠ .pending → after = before
  foreign : ∀ now requestId requesterId request, operation = .decide now (.cancel requestId requesterId) →
    before.requestById requestId = some request → request.requesterId ≠ requesterId → after = before

section law
variable {store after : PermissionStore} {operation : Operation}

theorem step_error {raised : PyError} (refused : operation.call store = .error raised)
    (taken : step store operation = some after) : after = store := by
  rw [step, refused] at taken
  exact (Option.some.inj taken).symm

theorem step_returned {request : PermissionRequest} (returned : operation.call store = .ok (request, store))
    (taken : step store operation = some after) : after = store := by
  rw [step, returned] at taken
  exact (Option.some.inj taken).symm

theorem create_existing {now : Instant} {requesterId : UserId} {permissionType : PermissionsEnum} {reason : Option String}
    (existing : ∃ request ∈ store.requests.rows, request.pair = (requesterId, permissionType) ∧ request.status = .pending) :
    (∃ raised, createPermissionRequest now store requesterId permissionType reason = .error raised) ∨
      ∃ request, createPermissionRequest now store requesterId permissionType reason = .ok (request, store) := by
  unfold createPermissionRequest
  split
  · exact .inl ⟨_, rfl⟩
  · split
    next request _ => exact .inr ⟨request, rfl⟩
    next missing =>
      obtain ⟨request, member, pair, pending⟩ := existing
      have here := List.find?_eq_none.mp missing request member
      simp only [PermissionRequest.pair, Prod.mk.injEq] at pair
      simp [pair.1, pair.2, pending] at here

theorem run_idle {now : Instant} {decision : Decision}
    (idle : ∀ request permission, decision.load store ≠ .deciding request permission) :
    (∃ raised, decision.run now store = .error raised) ∨ ∃ request, decision.run now store = .ok (request, store) := by
  unfold Decision.run
  cases loaded : decision.load store with
  | unknown => exact .inl ⟨_, rfl⟩
  | returned request => exact .inr ⟨request, rfl⟩
  | deciding request permission => exact absurd loaded (idle request permission)

theorem step_idle (taken : step store operation = some after)
    (idle : (∃ raised, operation.call store = .error raised) ∨ ∃ request, operation.call store = .ok (request, store)) :
    after = store := by
  rcases idle with ⟨raised, refused⟩ | ⟨request, returned⟩
  · exact step_error refused taken
  · exact step_returned returned taken

theorem step_law (taken : step store operation = some after) : StepLaw store operation after := by
  have outcome := step_outcome taken
  refine ⟨fun id request found => outcome.request found, fun id request missing found => outcome.created missing found,
    ?_, fun raised refused => step_error refused taken, ?_, ?_, ?_, ?_⟩
  · intro other
    cases outcome with
    | keeps => rfl
    | creates _ _ _ permissions => exact permissions
    | @decides now decision request permission _ loaded written =>
      cases decision with
      | approve requestId actorId reason => exact absurd rfl (other now requestId actorId reason)
      | deny _ _ _ | cancel _ _ => exact Table.ext (write_some written).1
  · rintro now requesterId permissionType reason rfl existing
    exact step_idle taken (create_existing existing)
  · rintro now decision rfl missing
    refine step_idle taken (run_idle ?_)
    intro request permission loaded
    cases (load_deciding loaded).1.symm.trans missing
  · rintro now decision request rfl found closed
    refine step_idle taken (run_idle ?_)
    intro target permission loaded
    obtain ⟨stored, pending, -⟩ := load_deciding loaded
    cases stored.symm.trans found
    exact closed pending
  · rintro now requestId requesterId request rfl found different
    refine step_idle taken (run_idle ?_)
    intro target permission loaded
    have shown : store.requestById (Decision.cancel requestId requesterId).requestId = some request := found
    simp [Decision.load, shown, different] at loaded

end law

/-- The request is the one of its pair that was approved last. -/
def LatestApproval (start : PermissionStore) (operations : List Operation) (final : PermissionStore)
    (request : PermissionRequest) : Prop :=
  ∃ first operation second before after, operations = first ++ operation :: second ∧ run step start first = some before ∧
    step before operation = some after ∧ ¬ Approved before request.pair request ∧ Approved after request.pair request ∧
    ∀ other, Approved final request.pair other → Approved after request.pair other

/-- The permission of a pair is as it was at the start if none of its requests is
approved, and else what the latest approval wrote. -/
structure Provenance (start : PermissionStore) (operations : List Operation) (final : PermissionStore)
    (pair : UserId × PermissionsEnum) : Prop where
  kept : (∀ request, ¬ Approved final pair request) → final.permissionOf pair = start.permissionOf pair
  granted : (∃ request, Approved final pair request) →
    ∃ request row, Approved final pair request ∧ LatestApproval start operations final request ∧
      final.permissionOf pair = some row ∧ GrantedBy request row

section runs
variable {start store after : PermissionStore} {operations : List Operation} {operation : Operation}

theorem Outcome.approved (outcome : Outcome store operation after) {pair : UserId × PermissionsEnum}
    {request : PermissionRequest} (approved : Approved store pair request) : Approved after pair request := by
  obtain ⟨found, same, status⟩ := approved
  obtain ⟨later, shown, rfl | decided⟩ := outcome.request found
  · exact ⟨shown, same, status⟩
  · cases decided.pending.symm.trans status

theorem LatestApproval.extend {request : PermissionRequest} (latest : LatestApproval start operations store request)
    (silent : ∀ other, Approved after request.pair other → Approved store request.pair other) :
    LatestApproval start (operations ++ [operation]) after request := by
  obtain ⟨first, approval, second, before, reached, rfl, executed, taken, fresh, approved, last⟩ := latest
  refine ⟨first, approval, second ++ [operation], before, reached, by simp, executed, taken, fresh, approved, ?_⟩
  intro other later
  exact last other (silent other later)

theorem provenance_step {pair : UserId × PermissionsEnum} (executed : run step start operations = some store)
    (taken : step store operation = some after) (provenance : Provenance start operations store pair) :
    Provenance start (operations ++ [operation]) after pair := by
  have outcome := step_outcome taken
  rcases outcome.permission pair with ⟨same, silent⟩ | ⟨request, row, approved, fresh, shown, granted⟩
  · refine ⟨?_, ?_⟩
    · intro none'
      rw [same]
      exact provenance.kept fun request approved => none' request (outcome.approved approved)
    · rintro ⟨request, approved⟩
      obtain ⟨last, row, lastApproved, latest, shown, granted⟩ := provenance.granted ⟨request, silent request approved⟩
      obtain rfl : last.pair = pair := lastApproved.2.1
      exact ⟨last, row, outcome.approved lastApproved, latest.extend silent, same.trans shown, granted⟩
  · refine ⟨fun none' => absurd approved (none' request), ?_⟩
    intro _
    obtain rfl : request.pair = pair := approved.2.1
    refine ⟨request, row, approved, ?_, shown, granted⟩
    exact ⟨operations, operation, [], store, after, rfl, executed, taken, fresh, approved, fun _ later => later⟩

theorem decided_run {final : PermissionStore} {request : PermissionRequest}
    (found : start.requestById request.id = some request) (closed : request.status ≠ .pending)
    (executed : run step start operations = some final) : final.requestById request.id = some request := by
  refine run_invariant (fun store => store.requestById request.id = some request) ?_ found executed
  intro store operation after found taken
  obtain ⟨later, shown, rfl | decided⟩ := (step_outcome taken).request found
  · exact shown
  · exact absurd decided.pending closed

end runs

/-- From any permissions and no requests: what each operation may do, decided requests
for good, where every permission comes from, and one pending request and one
permission at most for a pair. -/
theorem permissions_provenance (permissions : Table Permission PermissionConstraints) (operations : List Operation)
    (final : PermissionStore) (executed : run step (initial permissions) operations = some final) :
    (∀ first operation second before after, operations = first ++ operation :: second →
        run step (initial permissions) first = some before → step before operation = some after →
        StepLaw before operation after) ∧
      (∀ first second middle request, operations = first ++ second → run step (initial permissions) first = some middle →
        middle.requestById request.id = some request → request.status ≠ .pending →
        final.requestById request.id = some request) ∧
      (∀ pair, Provenance (initial permissions) operations final pair) ∧
      (∀ first ∈ final.requests.rows, ∀ second ∈ final.requests.rows, first.pair = second.pair →
        first.status = .pending → second.status = .pending → first = second) ∧
      ∀ first ∈ final.permissions.rows, ∀ second ∈ final.permissions.rows, first.pair = second.pair → first = second := by
  refine ⟨fun first operation second before after _ _ taken => step_law taken, ?_, ?_, ?_, ?_⟩
  · rintro first second middle request rfl partway found closed
    obtain ⟨_, same, rest⟩ := run_append_some.mp executed
    cases partway.symm.trans same
    exact decided_run found closed rest
  · refine run_history (fun past store => ∀ pair, Provenance (initial permissions) past store pair) ?_ ?_
      (along_true _ _) executed
    · intro pair
      refine ⟨fun _ => rfl, ?_⟩
      rintro ⟨request, found, -⟩
      cases found
    · intro past store operation after partway provenance _ taken pair
      exact provenance_step partway taken (provenance pair)
  · intro first left second right same firstPending secondPending
    have shown : first.pendingPair = some second.pair := by rw [PermissionRequest.pendingPair, if_pos firstPending, same]
    have other : second.pendingPair = some second.pair := by rw [PermissionRequest.pendingPair, if_pos secondPending]
    exact final.requests.valid.onePending.unique left right shown other
  · intro first left second right same
    exact final.permissions.valid.userType.unique left right same

/-- User 7 asks for support access, which admin 1 approves. -/
def asksForSupport : List Operation :=
  [.create 0 7 .support none, .decide 5 (.approve 1 1 none)]

def noPermissions : Table Permission PermissionConstraints := ⟨[], .nil⟩

/-- User 7 has had support access from admin 1 all along. -/
def supportAlready : Table Permission PermissionConstraints :=
  ⟨[{ userId := 7, grantedBy := some 1, id := 1, permissionType := .support, expirationDate := none
      reason := some "Approved permission request" }], by decide⟩

/-- User 7 is refused at first and then withdraws a request, and user 8 is refused. -/
def asksAgain : List Operation :=
  [.create 0 7 .support none, .decide 1 (.deny 1 1 (some "Not yet")), .create 2 7 .support none, .decide 3 (.cancel 2 7)] ++
    [.create 4 7 .support none, .create 4 8 .developer none, .decide 5 (.approve 3 1 none), .decide 6 (.deny 4 1 none)]

theorem support_granted : ∃ final, run step (initial noPermissions) asksAgain = some final ∧
    final.requests.rows.map PermissionRequest.status = [.denied, .cancelled, .approved, .denied] ∧
    Provenance (initial noPermissions) asksAgain final (7, .support) ∧
    Provenance (initial noPermissions) asksAgain final (8, .developer) := by
  have provenance := fun pair => (permissions_provenance noPermissions asksAgain _ rfl).2.2.1 pair
  exact ⟨_, rfl, rfl, provenance (7, .support), provenance (8, .developer)⟩

def supportRequest : PermissionRequest where
  requesterId := 7
  permissionType := .support
  reason := none
  id := 1
  status := .approved
  decidedBy := some 1
  decidedAt := some 5

theorem approved_without_difference : ∃ final request, run step (initial supportAlready) asksForSupport = some final ∧
    Approved final (7, .support) request ∧ final.permissions = supportAlready :=
  ⟨_, supportRequest, rfl, ⟨rfl, rfl, rfl⟩, Table.ext (by decide)⟩

end Satoidc.Proofs.PermissionProvenance
