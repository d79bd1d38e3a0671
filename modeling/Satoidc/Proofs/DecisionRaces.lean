import Satoidc.Permissions

/-! Decisions of permission requests in separate sessions. Checking that a request
is pending and writing the decision are two steps, so a decision may write over
one that committed in between. In runs without such a write the first commit is
the last, and the permission follows the request. -/

namespace Satoidc.Proofs.DecisionRaces
open Foundation DecisionRace

def grants : Decision → Prop
  | .approve _ _ _ => True
  | .deny _ _ _ | .cancel _ _ => False

section write
variable {store after : PermissionStore} {request : PermissionRequest} {permission : Option Permission}
  {decision : Decision} {now : Instant}

theorem decided_not_pending (decision : Decision) (now : Instant) (request : PermissionRequest) :
    (decision.decided now request).status ≠ .pending := by
  cases decision <;> simp [Decision.decided]

@[simp] theorem decided_id (decision : Decision) (now : Instant) (request : PermissionRequest) :
    (decision.decided now request).id = request.id := by
  cases decision <;> rfl

theorem flush_decided (decision : Decision) (now : Instant) (request : PermissionRequest) :
    request.flush (decision.decided now request) request = decision.decided now request := by
  cases decision <;> simp [PermissionRequest.flush, Decision.decided]

theorem write_some (written : decision.write now store request permission = some after) :
    after.permissions.rows = decision.granted store.permissions.rows request permission ∧
    after.requests.rows =
      update (fun stored => stored.id = request.id) (request.flush (decision.decided now request)) store.requests.rows := by
  simp only [Decision.write, Option.bind_eq_bind, Option.bind_eq_some_iff, Option.some.injEq] at written
  obtain ⟨permissions, granted, requests, stored, rfl⟩ := written
  exact ⟨Table.store_some.mp granted, Table.store_some.mp stored⟩

/-- A decision of a request that is still as it was read stores its own verdict
and touches no other request. -/
theorem write_request (current : store.requestById request.id = some request)
    (written : decision.write now store request permission = some after) (id : Nat) :
    after.requestById id = if id = request.id then some (decision.decided now request) else store.requestById id := by
  rw [PermissionStore.requestById, (write_some written).2, lookup_update (PermissionRequest.flush_id _ _)]
  change (store.requestById id).map _ = _
  split
  next same =>
    subst same
    rw [current, Option.map_some, if_pos rfl, flush_decided]
  next different =>
    cases found : store.requestById id with
    | none => rfl
    | some stored =>
      have same := (mem_of_lookup found).2
      rw [Option.map_some, if_neg (by rw [same]; exact different)]

/-- A permission row that an approval of `request` by `actor` has written. -/
def Granted (request : PermissionRequest) (actor : UserId) (permission : Permission) : Prop :=
  permission.pair = request.pair ∧ permission.disabled = false ∧ permission.expirationDate = none ∧
    permission.grantedBy = some actor

theorem write_permission_other {pair : UserId × PermissionsEnum} (different : pair ≠ request.pair)
    (loaded : grants decision → store.permissionOf request.pair = permission)
    (written : decision.write now store request permission = some after) :
    after.permissionOf pair = store.permissionOf pair := by
  rw [PermissionStore.permissionOf, (write_some written).1]
  cases decision with
  | deny _ _ _ | cancel _ _ => rfl
  | approve requestId actor reason =>
    cases permission with
    | none =>
      simp only [Decision.granted, Decision.grant, lookup_append_singleton]
      rw [if_neg (fun same => different same.symm), Option.or_none]
      rfl
    | some row =>
      simp only [Decision.granted, Decision.grant]
      rw [lookup_update (Permission.flush_pair _ _)]
      obtain ⟨member, rowPair⟩ := mem_of_lookup (loaded trivial)
      change (store.permissionOf pair).map _ = _
      cases found : store.permissionOf pair with
      | none => rfl
      | some stored =>
        obtain ⟨inside, storedPair⟩ := mem_of_lookup found
        have apart : stored.id ≠ row.id := by
          intro same
          have equal := store.permissions.valid.id.unique inside member same
          exact different (storedPair.symm.trans ((congrArg Permission.pair equal).trans rowPair))
        rw [Option.map_some, if_neg apart]

theorem write_permission_approved {requestId : Nat} {actor : UserId} {reason : Option String}
    (loaded : store.permissionOf request.pair = permission)
    (written : (Decision.approve requestId actor reason).write now store request permission = some after) :
    ∃ row, after.permissionOf request.pair = some row ∧ Granted request actor row := by
  simp only [PermissionStore.permissionOf, (write_some written).1, Decision.granted]
  cases permission with
  | none =>
    simp only [Decision.grant, lookup_append_singleton]
    change ∃ row, (store.permissionOf request.pair).or _ = some row ∧ _
    rw [loaded, Option.none_or, if_pos (by rfl)]
    exact ⟨_, rfl, rfl, rfl, rfl, rfl⟩
  | some row =>
    simp only [Decision.grant]
    rw [lookup_update (Permission.flush_pair _ _)]
    change ∃ other, (store.permissionOf request.pair).map _ = some other ∧ _
    rw [loaded, Option.map_some, if_pos rfl]
    refine ⟨_, rfl, (mem_of_lookup loaded).2, ?_⟩
    simp [Permission.flush]

theorem write_permission_kept (kept : ¬ grants decision)
    (written : decision.write now store request permission = some after) (pair : UserId × PermissionsEnum) :
    after.permissionOf pair = store.permissionOf pair := by
  rw [PermissionStore.permissionOf, (write_some written).1]
  cases decision with
  | approve requestId actor reason => exact absurd trivial kept
  | deny _ _ _ | cancel _ _ => rfl

theorem write_succeeds (current : store.requestById request.id = some request)
    (loaded : grants decision → store.permissionOf request.pair = permission) :
    ∃ after, decision.write now store request permission = some after := by
  have requests : RequestConstraints
      (update (fun stored => stored.id = request.id) (request.flush (decision.decided now request)) store.requests.rows) := by
    refine ⟨store.requests.valid.id.update (PermissionRequest.flush_id _ _), store.requests.valid.onePending.update ?_⟩
    intro row member same
    right
    rw [store.requests.valid.id.unique member (mem_of_lookup current).1 same, flush_decided,
      PermissionRequest.pendingPair, if_neg (decided_not_pending decision now request)]
  have permissions : PermissionConstraints (decision.granted store.permissions.rows request permission) := by
    cases decision with
    | deny _ _ _ | cancel _ _ => exact store.permissions.valid
    | approve requestId actor reason =>
      have found := loaded trivial
      cases permission with
      | some row =>
        exact ⟨store.permissions.valid.id.update (Permission.flush_id _ _),
          store.permissions.valid.userType.update (Permission.flush_pair _ _)⟩
      | none =>
        refine ⟨Keyed.append_singleton.mpr ⟨store.permissions.valid.id, ?_⟩,
          Keyed.append_singleton.mpr ⟨store.permissions.valid.userType, lookup_none.mp found⟩⟩
        exact fun other member => (lt_nextId member).ne
  refine ⟨⟨⟨_, permissions⟩, ⟨_, requests⟩⟩, ?_⟩
  simp only [Decision.write, Option.bind_eq_bind, Option.bind_eq_some_iff]
  exact ⟨⟨_, permissions⟩, Table.store_some.mpr rfl, ⟨_, requests⟩, Table.store_some.mpr rfl, rfl⟩

end write

section load
variable {store : PermissionStore} {decision : Decision} {request : PermissionRequest} {permission : Option Permission}

theorem load_unknown (loaded : decision.load store = .unknown) : store.requestById decision.requestId = none := by
  unfold Decision.load at loaded
  split at loaded
  next missing => exact missing
  next =>
    split at loaded
    all_goals split at loaded <;> cases loaded

theorem load_returned (loaded : decision.load store = .returned request) :
    store.requestById decision.requestId = some request := by
  unfold Decision.load at loaded
  split at loaded
  next => cases loaded
  next found =>
    rw [found]
    split at loaded
    all_goals split at loaded <;> cases loaded
    all_goals rfl

theorem load_deciding (loaded : decision.load store = .deciding request permission) :
    store.requestById decision.requestId = some request ∧ request.status = .pending ∧
      (grants decision → store.permissionOf request.pair = permission) := by
  unfold Decision.load at loaded
  split at loaded
  next => cases loaded
  next found =>
    rw [found]
    cases decision with
    | approve _ _ _ =>
      simp only at loaded
      split at loaded
      next => cases loaded
      next pending => cases loaded; exact ⟨rfl, not_not.mp pending, fun _ => rfl⟩
    | deny _ _ _ =>
      simp only at loaded
      split at loaded
      next => cases loaded
      next pending => cases loaded; exact ⟨rfl, not_not.mp pending, False.elim⟩
    | cancel _ _ =>
      simp only at loaded
      split at loaded
      next => cases loaded
      next pending => cases loaded; exact ⟨rfl, not_not.mp (not_or.mp pending).2, False.elim⟩

end load

inductive Moved (store : PermissionStore) : Phase → Input → PermissionStore → Phase → Prop where
  | unknown {decision} (missing : store.requestById decision.requestId = none) :
      Moved store .start (.read decision) store (.finished decision false (.error decision.notFound))
  | returns {decision request} (found : store.requestById decision.requestId = some request) :
      Moved store .start (.read decision) store (.finished decision false (.ok request))
  | loads {decision request permission} (loaded : decision.load store = .deciding request permission) :
      Moved store .start (.read decision) store (.loaded decision request permission)
  | fails {now decision request permission} (refused : decision.write now store request permission = none) :
      Moved store (.loaded decision request permission) (.write now) store
        (.finished decision false (.error .integrityError))
  | writes {now decision request permission after}
      (written : decision.write now store request permission = some after) :
      Moved store (.loaded decision request permission) (.write now) after
        (.finished decision true (.ok (decision.decided now request)))

theorem advance_moved {index : Nat} {input : Input} {store after : PermissionStore} {phase later : Phase}
    (taken : advance index input store phase = some (after, later)) : Moved store phase input after later := by
  cases input with
  | read decision =>
    cases phase with
    | loaded _ _ _ | finished _ _ _ => cases taken
    | start =>
      simp only [advance] at taken
      cases loaded : decision.load store with
      | unknown => simp only [loaded] at taken; cases taken; exact .unknown (load_unknown loaded)
      | returned request => simp only [loaded] at taken; cases taken; exact .returns (load_returned loaded)
      | deciding request permission => simp only [loaded] at taken; cases taken; exact .loads loaded
  | write now =>
    cases phase with
    | start | finished _ _ _ => cases taken
    | loaded decision request permission =>
      simp only [advance] at taken
      cases written : decision.write now store request permission with
      | none => simp only [written] at taken; cases taken; exact .fails written
      | some result => simp only [written] at taken; cases taken; exact .writes written

/-- The next step of a session does not overwrite another decision: the request
it is about to decide is still pending, or both cancel it. -/
def Current (store : PermissionStore) : Phase → Prop
  | .loaded decision request _ =>
    ∃ stored, store.requestById request.id = some stored ∧
      (stored.status = .pending ∨ stored.status = .cancelled ∧ ∃ id requester, decision = .cancel id requester)
  | .start | .finished _ _ _ => True

def Fresh (world : World PermissionStore Phase) (event : Nat × Input) : Prop :=
  Current world.shared (world.sessions event.1)

/-- What a session knows of the tables. Before its write: that the request it has
read is stored as it was read, or decided by now. After it: that the request it
returned is stored. -/
def Own (store : PermissionStore) : Phase → Prop
  | .start => True
  | .loaded decision request permission =>
    request.id = decision.requestId ∧ request.status = .pending ∧
      ∃ stored, store.requestById request.id = some stored ∧
        (stored.status = .pending → stored = request ∧ (grants decision → store.permissionOf request.pair = permission)) ∧
        (stored.status = .cancelled → stored = { request with status := .cancelled })
  | .finished decision true result =>
    ∃ now request, result = .ok (decision.decided now request) ∧
      store.requestById decision.requestId = some (decision.decided now request)
  | .finished decision false (.ok request) =>
    request.status ≠ .pending → store.requestById decision.requestId = some request
  | .finished decision false (.error _) => store.requestById decision.requestId = none

/-- A write to the tables: a decision of a request that is still pending. -/
structure Decides (session : Phase) (before after : PermissionStore) (decision : Decision)
    (request : PermissionRequest) (permission : Option Permission) (now : Instant) : Prop where
  session : session = .loaded decision request permission
  target : request.id = decision.requestId
  current : before.requestById request.id = some request
  pending : request.status = .pending
  loaded : grants decision → before.permissionOf request.pair = permission
  written : decision.write now before request permission = some after

def Writes (session : Phase) (before after : PermissionStore) : Prop :=
  after = before ∨ ∃ decision request permission now, Decides session before after decision request permission now

theorem other_pair {store : PermissionStore} {first second : PermissionRequest}
    (left : store.requestById first.id = some first) (right : store.requestById second.id = some second)
    (leftPending : first.status = .pending) (rightPending : second.status = .pending)
    (different : first.id ≠ second.id) : first.pair ≠ second.pair := by
  intro same
  refine different (congrArg PermissionRequest.id ?_)
  have shown : first.pendingPair = some second.pair := by rw [PermissionRequest.pendingPair, if_pos leftPending, same]
  have other : second.pendingPair = some second.pair := by rw [PermissionRequest.pendingPair, if_pos rightPending]
  exact store.requests.valid.onePending.unique (mem_of_lookup left).1 (mem_of_lookup right).1 shown other

section decides
variable {session : Phase} {before after : PermissionStore} {decision : Decision} {request : PermissionRequest}
  {permission : Option Permission} {now : Instant}

theorem Decides.request_other (decides : Decides session before after decision request permission now) {id : Nat}
    (different : id ≠ request.id) : after.requestById id = before.requestById id := by
  rw [write_request decides.current decides.written, if_neg different]

theorem Decides.request_self (decides : Decides session before after decision request permission now) :
    after.requestById request.id = some (decision.decided now request) := by
  rw [write_request decides.current decides.written, if_pos rfl]

theorem Decides.permission_other (decides : Decides session before after decision request permission now)
    {other : PermissionRequest} (stored : before.requestById other.id = some other) (pending : other.status = .pending)
    (different : other.id ≠ request.id) : after.permissionOf other.pair = before.permissionOf other.pair :=
  write_permission_other (other_pair stored decides.current pending decides.pending different)
    decides.loaded decides.written

theorem Decides.keeps (decides : Decides session before after decision request permission now)
    {id : Nat} {stored : PermissionRequest} (found : before.requestById id = some stored)
    (decided : stored.status ≠ .pending) : after.requestById id = some stored := by
  have different : id ≠ request.id := by
    rintro rfl
    cases decides.current.symm.trans found
    exact decided decides.pending
  rw [decides.request_other different, found]

end decides

theorem own_stable {before after : PermissionStore} {session idle : Phase}
    (writes : Writes session before after) (own : Own before idle) : Own after idle := by
  obtain rfl | ⟨decision, request, permission, now, decides⟩ := writes
  · exact own
  cases idle with
  | start => trivial
  | loaded theirs held row =>
    obtain ⟨target, heldPending, stored, found, current, cancelled⟩ := own
    refine ⟨target, heldPending, ?_⟩
    by_cases same : held.id = request.id
    · rw [same] at found
      cases decides.current.symm.trans found
      obtain ⟨rfl, -⟩ := current decides.pending
      refine ⟨_, decides.request_self, fun pending => absurd pending (decided_not_pending _ _ _), ?_⟩
      cases decision <;> simp [Decision.decided]
    · refine ⟨stored, by rw [decides.request_other same, found], ?_, cancelled⟩
      intro pending
      obtain ⟨rfl, row'⟩ := current pending
      exact ⟨rfl, fun granting => by rw [decides.permission_other found pending same, row' granting]⟩
  | finished theirs wrote result =>
    cases wrote with
    | true =>
      obtain ⟨at', held, same, found⟩ := own
      exact ⟨at', held, same, decides.keeps found (decided_not_pending _ _ _)⟩
    | false =>
      cases result with
      | ok stored => exact fun decided => decides.keeps (own decided) decided
      | error raised =>
        have different : theirs.requestId ≠ request.id := by
          intro same
          simp only [Own, same, decides.current] at own
          cases own
        exact (decides.request_other different).trans own

theorem write_again {store : PermissionStore} {id : Nat} {requester : UserId} {request : PermissionRequest}
    {permission : Option Permission} {now : Instant}
    (stored : store.requestById request.id = some { request with status := .cancelled }) :
    (Decision.cancel id requester).write now store request permission = some store := by
  have same : update (fun row => row.id = request.id)
      (request.flush ((Decision.cancel id requester).decided now request)) store.requests.rows = store.requests.rows := by
    apply update_same
    intro row member hit
    rw [store.requests.valid.id.unique member (mem_of_lookup stored).1 hit]
    simp [PermissionRequest.flush, Decision.decided]
  simp only [Decision.write, Decision.granted, same, Option.bind_eq_bind, Option.bind_eq_some_iff]
  exact ⟨store.permissions, Table.store_some.mpr rfl, store.requests, Table.store_some.mpr rfl, rfl⟩

theorem moved_own {store after : PermissionStore} {phase later : Phase} {input : Input}
    (moved : Moved store phase input after later) (own : Own store phase) (fresh : Current store phase) :
    Own after later ∧ (after = store ∨ ∃ decision request permission now,
      Decides phase store after decision request permission now ∧
        later = .finished decision true (.ok (decision.decided now request))) := by
  cases moved with
  | unknown missing => exact ⟨missing, .inl rfl⟩
  | returns found => exact ⟨fun _ => found, .inl rfl⟩
  | @loads decision request permission loaded =>
    obtain ⟨found, pending, row⟩ := load_deciding loaded
    have same := (mem_of_lookup found).2
    refine ⟨⟨same, pending, request, by rw [same]; exact found, fun _ => ⟨rfl, row⟩, ?_⟩, .inl rfl⟩
    intro cancelled
    cases pending.symm.trans cancelled
  | @fails now decision request permission refused =>
    obtain ⟨target, pending, stored, found, current, cancelled⟩ := own
    obtain ⟨same, found', status⟩ := fresh
    cases found.symm.trans found'
    rcases status with open' | ⟨twice, id, requester, rfl⟩
    · obtain ⟨rfl, row⟩ := current open'
      obtain ⟨after, written⟩ : ∃ after, decision.write now store stored permission = some after := write_succeeds found row
      cases refused.symm.trans written
    · rw [cancelled twice] at found
      cases refused.symm.trans (write_again found)
  | @writes now decision request permission after written =>
    obtain ⟨target, pending, stored, found, current, cancelled⟩ := own
    obtain ⟨same, found', status⟩ := fresh
    cases found.symm.trans found'
    rcases status with open' | ⟨twice, id, requester, rfl⟩
    · obtain ⟨rfl, row⟩ := current open'
      have decides : Decides _ store after decision stored permission now := ⟨rfl, target, found, pending, row, written⟩
      exact ⟨⟨now, stored, rfl, target ▸ decides.request_self⟩, .inr ⟨_, _, _, _, decides, rfl⟩⟩
    · rw [cancelled twice] at found
      cases written.symm.trans (write_again found)
      exact ⟨⟨now, request, rfl, target ▸ found⟩, .inl rfl⟩

def fresh : Discipline advance Fresh where
  store _ := True
  own _ := Own
  apart _ _ := True
  guarantee _ := Writes
  symmetric _ _ := id
  moves _ _ _ _ _ _ own allowed taken := by
    obtain ⟨later, same | ⟨decision, request, permission, now, decides, -⟩⟩ := moved_own (advance_moved taken) own allowed
    · exact ⟨trivial, later, .inl same⟩
    · exact ⟨trivial, later, .inr ⟨decision, request, permission, now, decides⟩⟩
  stable _ _ _ _ _ _ _ _ _ _ writes own := own_stable writes own
  separates _ _ _ _ _ _ _ _ _ _ _ _ _ := trivial

theorem initial_fresh (store : PermissionStore) : fresh.Holds (initial store) :=
  ⟨trivial, fun _ => trivial, fun _ _ _ => trivial⟩

/-- Where a request of the store the run started from stands: stored as it was,
or decided by the session whose decision is stored, in both tables. -/
inductive Verdict (start : PermissionStore) (world : World PermissionStore Phase) (request : PermissionRequest) : Prop
  | untouched (stored : world.shared.requestById request.id = some request)
      (kept : request.status = .pending → world.shared.permissionOf request.pair = start.permissionOf request.pair)
  | decided (index : Nat) {decision : Decision} {now : Instant} (pending : request.status = .pending)
      (session : world.sessions index = .finished decision true (.ok (decision.decided now request)))
      (target : decision.requestId = request.id)
      (stored : world.shared.requestById request.id = some (decision.decided now request))
      (granted : ∀ id actor reason, decision = .approve id actor reason →
        ∃ row, world.shared.permissionOf request.pair = some row ∧ Granted request actor row)
      (kept : ¬ grants decision → world.shared.permissionOf request.pair = start.permissionOf request.pair)

/-- Every stored request is one of the store the run started from. -/
def Traced (start : PermissionStore) (world : World PermissionStore Phase) : Prop :=
  (∀ id, start.requestById id = none → world.shared.requestById id = none) ∧
    ∀ request, start.requestById request.id = some request → Verdict start world request

theorem Verdict.stored_pending {start : PermissionStore} {world : World PermissionStore Phase}
    {request stored : PermissionRequest} (verdict : Verdict start world request)
    (found : world.shared.requestById request.id = some stored) (pending : stored.status = .pending) :
    stored = request := by
  cases verdict with
  | untouched same _ => exact Option.some.inj (found.symm.trans same)
  | decided _ _ _ _ same _ _ =>
    cases found.symm.trans same
    exact absurd pending (decided_not_pending _ _ _)

/-- A step moves a session that has not finished, so it leaves every verdict of
a request that it does not decide. -/
theorem Verdict.other {start after : PermissionStore} {world : World PermissionStore Phase} {request : PermissionRequest}
    {mover : Nat} {later : Phase} (verdict : Verdict start world request)
    (unfinished : ∀ decision wrote result, world.sessions mover ≠ .finished decision wrote result)
    (same : after.requestById request.id = world.shared.requestById request.id)
    (row : request.status = .pending → after.permissionOf request.pair = world.shared.permissionOf request.pair) :
    Verdict start (world.moved mover after later) request := by
  cases verdict with
  | untouched stored kept => exact .untouched (same.trans stored) fun pending => (row pending).trans (kept pending)
  | @decided index decision now pending session target stored granted kept =>
    refine .decided index pending ?_ target (same.trans stored) ?_ fun denies => (row pending).trans (kept denies)
    · rw [World.moved_other _ _ _ fun moved => unfinished _ _ _ (moved ▸ session), session]
    · intro id actor reason approves
      rw [World.moved_shared, row pending]
      exact granted id actor reason approves

theorem Moved.unfinished {store after : PermissionStore} {phase later : Phase} {input : Input}
    (moved : Moved store phase input after later) (decision : Decision) (wrote : Bool)
    (result : Except PyError PermissionRequest) : phase ≠ .finished decision wrote result := by
  cases moved <;> simp

theorem Traced.stored_pending {start : PermissionStore} {world : World PermissionStore Phase} {request : PermissionRequest}
    (traced : Traced start world) (stored : world.shared.requestById request.id = some request)
    (pending : request.status = .pending) : start.requestById request.id = some request := by
  cases known : start.requestById request.id with
  | none => cases (traced.1 _ known).symm.trans stored
  | some first =>
    have same := (mem_of_lookup known).2
    rw [(traced.2 first (same ▸ known)).stored_pending (same ▸ stored) pending]

theorem traced_step {start : PermissionStore} {world next : World PermissionStore Phase} {event : Nat × Input}
    (held : fresh.Holds world) (traced : Traced start world) (allowed : Fresh world event)
    (taken : world.step advance event = some next) : Traced start next := by
  obtain ⟨mover, input⟩ := event
  obtain ⟨shared, later, stepped, rfl⟩ := World.step_some.mp taken
  have moved := advance_moved stepped
  obtain ⟨-, rfl | ⟨decision, decided, permission, now, decides, finishes⟩⟩ := moved_own moved (held.own mover) allowed
  · exact ⟨traced.1, fun request known => (traced.2 request known).other moved.unfinished rfl fun _ => rfl⟩
  have first := traced.stored_pending decides.current decides.pending
  constructor
  · intro id missing
    have different : id ≠ decided.id := by
      rintro rfl
      cases first.symm.trans missing
    exact (decides.request_other different).trans (traced.1 id missing)
  intro request known
  have verdict := traced.2 request known
  by_cases same : request.id = decided.id
  · cases first.symm.trans (same ▸ known)
    have untouched : world.shared.permissionOf decided.pair = start.permissionOf decided.pair := by
      cases verdict with
      | untouched _ kept => exact kept decides.pending
      | decided _ _ _ _ stored _ _ =>
        have status := congrArg PermissionRequest.status (Option.some.inj (decides.current.symm.trans stored))
        exact absurd (status.symm.trans decides.pending) (decided_not_pending _ _ _)
    refine .decided mover decides.pending ?_ decides.target.symm decides.request_self ?_ ?_
    · rw [World.moved_self, finishes]
    · rintro id actor reason rfl
      exact write_permission_approved (decides.loaded trivial) decides.written
    · exact fun denies => (write_permission_kept denies decides.written _).trans untouched
  · apply verdict.other moved.unfinished (decides.request_other same)
    intro pending
    exact write_permission_other (other_pair known first pending decides.pending same) decides.loaded decides.written

theorem initial_traced (store : PermissionStore) : Traced store (initial store) :=
  ⟨fun _ missing => missing, fun _ known => .untouched known fun _ => rfl⟩

/-- The permission of the requested type was granted or re-enabled by an approval
of this request. -/
def GrantedThrough (world : World PermissionStore Phase) (request : PermissionRequest) : Prop :=
  ∃ index requestId actor reason result row,
    world.sessions index = .finished (.approve requestId actor reason) true result ∧ requestId = request.id ∧
      world.shared.permissionOf request.pair = some row ∧ Granted request actor row

/-- Every decision that has finished answers with the request as it is stored, or
with an error if there is none, and permissions agree with the stored status. -/
structure FirstDecisionWins (start : PermissionStore) (world : World PermissionStore Phase) : Prop where
  answered : ∀ index decision wrote request, world.sessions index = .finished decision wrote (.ok request) →
    request.status ≠ .pending → world.shared.requestById decision.requestId = some request
  failed : ∀ index decision wrote raised, world.sessions index = .finished decision wrote (.error raised) →
    start.requestById decision.requestId = none
  granted : ∀ request, start.requestById request.id = some request → request.status = .pending →
    ∃ stored, world.shared.requestById request.id = some stored ∧
      (stored.status = .approved ↔ GrantedThrough world request) ∧
      (stored.status ≠ .approved → world.shared.permissionOf request.pair = start.permissionOf request.pair)

/-- A step changes the database only by deciding a request that is pending in it. -/
def OnlyFirstChanges (before after : World PermissionStore Phase) (index : Nat) : Prop :=
  after.shared = before.shared ∨ ∃ decision request permission,
    before.sessions index = .loaded decision request permission ∧ request.id = decision.requestId ∧
      before.shared.requestById request.id = some request ∧ request.status = .pending

theorem first_wins {start : PermissionStore} {world : World PermissionStore Phase} (held : fresh.Holds world)
    (traced : Traced start world) : FirstDecisionWins start world where
  answered index decision wrote request ended decided := by
    have own := held.own index
    simp only [fresh, ended] at own
    cases wrote with
    | false => exact own decided
    | true =>
      obtain ⟨now, before, same, stored⟩ := own
      cases same
      exact stored
  failed index decision wrote raised ended := by
    have own := held.own index
    simp only [fresh, ended] at own
    cases wrote with
    | true => obtain ⟨now, before, same, -⟩ := own; cases same
    | false =>
      cases known : start.requestById decision.requestId with
      | none => rfl
      | some request =>
        have same := (mem_of_lookup known).2
        simp only [Own, ← same] at own
        cases traced.2 request (same ▸ known) with
        | untouched stored _ | decided _ _ _ _ stored _ _ => cases own.symm.trans stored
  granted request known pending := by
    have through : ∀ stored, world.shared.requestById request.id = some stored →
        GrantedThrough world request → stored.status = .approved := by
      rintro stored found ⟨index, _, actor, reason, result, row, ended, rfl, -⟩
      have own := held.own index
      simp only [fresh, ended] at own
      obtain ⟨now, before, -, decided⟩ := own
      cases found.symm.trans decided
      rfl
    cases traced.2 request known with
    | untouched stored kept =>
      refine ⟨request, stored, ⟨?_, through request stored⟩, fun _ => kept pending⟩
      intro approved
      cases pending.symm.trans approved
    | @decided index decision now _ session target stored granted kept =>
      refine ⟨_, stored, ⟨?_, through _ stored⟩, ?_⟩
      · intro approved
        cases decision with
        | approve id actor reason =>
          obtain ⟨row, found, grantedRow⟩ := granted id actor reason rfl
          exact ⟨index, id, actor, reason, _, row, session, target, found, grantedRow⟩
        | deny _ _ _ | cancel _ _ => cases approved
      · intro other
        cases decision with
        | approve _ _ _ => exact absurd rfl other
        | deny _ _ _ | cancel _ _ => exact kept fun granting => granting

/-- In a run without overwriting decisions the first commit of a request's
decision is the only change, every decision returns what is stored, and the
permission is the request's if and only if it is approved. -/
theorem first_decision_wins (start : PermissionStore) (events : List (Nat × Input)) (world : World PermissionStore Phase)
    (executed : run (World.step advance) (initial start) events = some world)
    (along : Along (World.step advance) Fresh (initial start) events) :
    FirstDecisionWins start world ∧
      ∀ first event second before after, events = first ++ event :: second →
        run (World.step advance) (initial start) first = some before →
        World.step advance before event = some after → OnlyFirstChanges before after event.1 := by
  constructor
  · have both := run_invariant_along (fun world => fresh.Holds world ∧ Traced start world)
      (fun _ _ _ kept allowed taken => ⟨kept.1.step allowed taken, traced_step kept.1 kept.2 allowed taken⟩)
      along ⟨initial_fresh start, initial_traced start⟩ executed
    exact first_wins both.1 both.2
  · rintro first ⟨mover, input⟩ second before after rfl partway taken
    obtain ⟨early, late⟩ := along.append partway
    have held := (initial_fresh start).run fresh early partway
    obtain ⟨shared, session, stepped, rfl⟩ := World.step_some.mp taken
    obtain ⟨-, same | ⟨decision, request, permission, now, decides, -⟩⟩ :=
      moved_own (advance_moved stepped) (held.own mover) late.1
    · exact .inl same
    · exact .inr ⟨decision, request, permission, decides.session, decides.target, decides.current, decides.pending⟩

/-- User 7 asks for developer access. -/
def asked : PermissionRequest :=
  { requesterId := 7, permissionType := .developer, reason := none, id := 1 }

def oneRequest : PermissionStore where
  permissions := ⟨[], by decide⟩
  requests := ⟨[asked], by decide⟩

theorem decided_in_turn :
    ∃ world, run (World.step advance) (initial oneRequest)
        [(0, .read (.approve 1 1 none)), (0, .write 10), (1, .read (.deny 1 2 none))] = some world ∧
      FirstDecisionWins oneRequest world := by
  refine ⟨_, rfl, (first_decision_wins oneRequest
    [(0, .read (.approve 1 1 none)), (0, .write 10), (1, .read (.deny 1 2 none))] _ rfl ?_).1⟩
  exact .cons rfl trivial (.cons rfl ⟨asked, rfl, .inl rfl⟩ (.cons rfl trivial trivial))

/-- The admins 1 and 2 decide at once. -/
theorem denied_with_permission :
    ∃ world, run (World.step advance) (initial oneRequest)
        [(0, .read (.approve 1 1 none)), (1, .read (.deny 1 2 none)), (0, .write 10), (1, .write 11)] = some world ∧
      (world.shared.requestById 1).map PermissionRequest.status = some .denied ∧
      GrantedThrough world asked ∧ ¬ FirstDecisionWins oneRequest world := by
  refine ⟨_, rfl, rfl, ?_, ?_⟩
  · exact ⟨0, 1, 1, none, _, _, rfl, rfl, rfl, rfl, rfl, rfl, rfl⟩
  · intro wins
    obtain ⟨stored, found, status, -⟩ := wins.granted asked rfl rfl
    cases found
    have approved := status.mpr ⟨0, 1, 1, none, _, _, rfl, rfl, rfl, rfl, rfl, rfl, rfl⟩
    cases approved

end Satoidc.Proofs.DecisionRaces
