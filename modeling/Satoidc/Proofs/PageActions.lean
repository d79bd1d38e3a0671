import Satoidc.Pages
import Satoidc.Proofs.DecisionRaces
import Satoidc.Foundation.History

/-! Actions of pages that were rendered earlier. Nothing checks the actor again
when an action commits, so the check at the rendering vouches for it only as long
as the permissions behind it last. -/

namespace Satoidc.Proofs.PageActions
open Foundation Pages

/-- The user holds an active permission that the page requires, or `root`. -/
def Entitled (now : Instant) (permissions : List Permission) (page : Page) (userId : UserId) : Prop :=
  ∃ permission ∈ permissions, permission.userId = userId ∧ permission.active now = true ∧
    (permission.permissionType = .root ∨ permission.permissionType ∈ page.permissions)

abbrev Entitles (state : State) (page : Page) (userId : UserId) : Prop :=
  Entitled state.now state.store.permissions.rows page userId

theorem mem_getActivePermissionsForUser {now : Instant} {userId : UserId} {permissions : List Permission}
    {permissionType : PermissionsEnum} :
    permissionType ∈ getActivePermissionsForUser now userId permissions ↔
      ∃ permission ∈ permissions, permission.userId = userId ∧ permission.active now = true ∧
        permission.permissionType = permissionType := by
  simp [getActivePermissionsForUser, and_assoc]

theorem isAuthorized_any {userPermissions requiredPermissions : List PermissionsEnum} :
    isAuthorized userPermissions requiredPermissions .any = true ↔
      ∃ permissionType ∈ userPermissions, permissionType = .root ∨ permissionType ∈ requiredPermissions := by
  simp only [isAuthorized, Bool.or_eq_true, decide_eq_true_eq, List.any_eq_true]
  constructor
  · rintro (root | ⟨permissionType, required, held⟩)
    · exact ⟨.root, root, .inl rfl⟩
    · exact ⟨permissionType, held, .inr required⟩
  · rintro ⟨permissionType, held, rfl | required⟩
    · exact .inl held
    · exact .inr ⟨permissionType, required, held⟩

theorem authorizePageRequest_none {now : Instant} {permissions : List Permission} {userId : UserId} {page : Page} :
    authorizePageRequest now permissions (some userId) page.permissions .any = none ↔
      Entitled now permissions page userId := by
  simp only [authorizePageRequest, ite_eq_right_iff, Bool.not_eq_true', reduceCtorEq, imp_false, Bool.not_eq_false,
    isAuthorized_any, mem_getActivePermissionsForUser]
  constructor
  · rintro ⟨_, ⟨permission, member, same, active, rfl⟩, required⟩
    exact ⟨permission, member, same, active, required⟩
  · rintro ⟨permission, member, same, active, required⟩
    exact ⟨_, ⟨permission, member, same, active, rfl⟩, required⟩

/-- Every permission is still there, and active if it was. -/
def KeepsActive (before after : List Permission) : Prop :=
  ∀ permission ∈ before, ∃ later ∈ after, later.userId = permission.userId ∧
    later.permissionType = permission.permissionType ∧ ∀ now, permission.active now = true → later.active now = true

theorem KeepsActive.refl (rows : List Permission) : KeepsActive rows rows :=
  fun permission member => ⟨permission, member, rfl, rfl, fun _ active => active⟩

theorem Entitled.kept {before after : List Permission} {now : Instant} {page : Page} {userId : UserId}
    (entitled : Entitled now before page userId) (keeps : KeepsActive before after) :
    Entitled now after page userId := by
  obtain ⟨permission, member, same, active, required⟩ := entitled
  obtain ⟨later, stored, sameUser, sameType, still⟩ := keeps permission member
  exact ⟨later, stored, sameUser.trans same, still now active, sameType ▸ required⟩

/-- A flush that enables a permission for good cannot make a stored one inactive,
whatever was loaded. -/
theorem flush_active {loaded updated stored : Permission} {now : Instant} (enabled : updated.disabled = false)
    (unlimited : updated.expirationDate = none) (active : stored.active now = true) :
    (loaded.flush updated stored).active now = true := by
  simp only [Permission.active, Bool.and_eq_true, Bool.not_eq_true', Permission.flush, writeColumn] at active ⊢
  refine ⟨?_, ?_⟩
  · split
    · exact active.1
    · exact enabled
  · split
    · exact active.2
    · rw [unlimited]; rfl

theorem granted_keepsActive (rows : List Permission) (request : PermissionRequest) (permission : Option Permission)
    (decision : Decision) : KeepsActive rows (decision.granted rows request permission) := by
  cases decision with
  | deny _ _ _ | cancel _ _ => exact .refl rows
  | approve requestId actorId reason =>
    intro stored member
    cases permission with
    | none => exact ⟨stored, List.mem_append_left _ member, rfl, rfl, fun _ active => active⟩
    | some loaded =>
      by_cases hit : stored.id = loaded.id
      · exact ⟨_, mem_update_of_selected member hit, rfl, rfl, fun now active => flush_active rfl rfl active⟩
      · exact ⟨stored, mem_update_of_not_selected member hit, rfl, rfl, fun _ active => active⟩

def Undecided (request : PermissionRequest) : Prop := request.decidedBy = none ∧ request.decidedAt = none

/-- Every request is a new one that is undecided, or an old one whose decision is
as it was; and it is not pending again. -/
def KeepsDecisions (before after : List PermissionRequest) : Prop :=
  ∀ row ∈ after, Undecided row ∨ ∃ old ∈ before, row.decidedBy = old.decidedBy ∧ row.decidedAt = old.decidedAt ∧
    (row.status = .pending → old.status = .pending)

theorem KeepsDecisions.refl (rows : List PermissionRequest) : KeepsDecisions rows rows :=
  fun row member => .inr ⟨row, member, rfl, rfl, id⟩

theorem createPermissionRequest_ok {now : Instant} {store after : PermissionStore} {requesterId : UserId}
    {permissionType : PermissionsEnum} {reason : Option String} {request : PermissionRequest}
    (created : createPermissionRequest now store requesterId permissionType reason = .ok (request, after)) :
    after.permissions = store.permissions ∧ KeepsDecisions store.requests.rows after.requests.rows := by
  simp only [createPermissionRequest] at created
  split at created
  next => cases created
  next =>
    split at created
    next => cases created; exact ⟨rfl, .refl _⟩
    next =>
      split at created
      next => cases created
      next requests stored =>
        cases created
        refine ⟨rfl, ?_⟩
        intro row member
        rw [Table.store_some.mp stored] at member
        rcases List.mem_append.mp member with old | new
        · exact .inr ⟨row, old, rfl, rfl, id⟩
        · cases List.mem_singleton.mp new
          exact .inl ⟨rfl, rfl⟩

theorem cancelPermissionRequest_ok {now : Instant} {store after : PermissionStore} {requestId : Nat}
    {requesterId : UserId} {request : PermissionRequest}
    (cancelled : cancelPermissionRequest now store requestId requesterId = .ok (request, after)) :
    after.permissions.rows = store.permissions.rows ∧ KeepsDecisions store.requests.rows after.requests.rows := by
  simp only [cancelPermissionRequest, Decision.run] at cancelled
  split at cancelled
  next => cases cancelled
  next => cases cancelled; exact ⟨rfl, .refl _⟩
  next loaded _ loads =>
    split at cancelled
    next => cases cancelled
    next written =>
      cases cancelled
      obtain ⟨permissions, requests⟩ := DecisionRaces.write_some written
      refine ⟨permissions, ?_⟩
      intro row member
      rw [requests] at member
      obtain ⟨old, stored, rfl⟩ := mem_update.mp member
      refine .inr ⟨old, stored, ?_⟩
      have pending := (DecisionRaces.load_deciding loads).2.1
      split
      next => simp [PermissionRequest.flush, Decision.decided, writeColumn, pending]
      next => exact ⟨rfl, rfl, id⟩

@[simp] theorem setTab_store (state : State) (tab : Nat) (shown : Tab) :
    (state.setTab tab shown).store = state.store := rfl

theorem setTab_self (state : State) (tab : Nat) (shown : Tab) : (state.setTab tab shown).tabs tab = shown :=
  Function.update_self ..

theorem setTab_other (state : State) (shown : Tab) {tab other : Nat} (different : other ≠ tab) :
    (state.setTab tab shown).tabs other = state.tabs other :=
  Function.update_of_ne different ..

def Reads (state : State) (shown : Tab) : Prop :=
  ∀ actorId deciding, shown = .dashboardAdmin actorId (some deciding) →
    deciding.request ∈ state.store.requests.rows ∧ deciding.request.status = .pending

inductive Moved (state : State) : Event → State → Prop where
  | ticks {now} (later : state.now ≤ now) : Moved state (.tick now) { state with now }
  | sets {permissions} :
      Moved state (.setPermissions permissions) { state with store := { state.store with permissions } }
  | performs {event store} (calm : ∀ tab, event ≠ .commit tab)
      (permissions : store.permissions.rows = state.store.permissions.rows)
      (requests : KeepsDecisions state.store.requests.rows store.requests.rows) :
      Moved state event { state with store }
  | shows {event tab shown} (entitled : ∀ page userId, shown.shows = some (page, userId) →
        Entitles state page userId ∨ (state.tabs tab).shows = some (page, userId))
      (reads : Reads state shown) : Moved state event (state.setTab tab shown)
  | commits {tab actorId deciding store} (shown : state.tabs tab = .dashboardAdmin actorId (some deciding))
      (written : deciding.write state actorId = some store) :
      Moved state (.commit tab) ({ state with store }.setTab tab (.dashboardAdmin actorId none))
  | submits {tab clientMetadata clientId secret clients} :
      Moved state (.submit tab clientMetadata clientId secret) { state with clients }

theorem Moved.unchanged {state : State} {event : Event} (calm : ∀ tab, event ≠ .commit tab) : Moved state event state :=
  .performs calm rfl (.refl _)

theorem closes_moved (state : State) (event : Event) (tab : Nat) : Moved state event (state.setTab tab .closed) := by
  refine .shows ?_ ?_
  · rintro page userId ⟨⟩
  · rintro actorId deciding ⟨⟩

theorem perform_moved {state : State} {event : Event} {result : Except PyError (PermissionRequest × PermissionStore)}
    (calm : ∀ tab, event ≠ .commit tab)
    (keeps : ∀ request store, result = .ok (request, store) →
      store.permissions.rows = state.store.permissions.rows ∧ KeepsDecisions state.store.requests.rows store.requests.rows) :
    Moved state event (state.perform result) := by
  cases result with
  | error raised => exact .unchanged calm
  | ok pair => exact .performs calm (keeps pair.1 pair.2 rfl).1 (keeps pair.1 pair.2 rfl).2

theorem opened_shows (userId : UserId) (page : Page) : (opened userId page).shows = some (page, userId) := by
  cases page <;> rfl

theorem render_moved (state : State) (tab : Nat) (page : Page) (userId : Option UserId) :
    Moved state (.render tab page userId) (render state tab page userId) := by
  unfold render
  split
  next userId admitted =>
    refine .shows (fun other user same => .inl ?_) ?_
    · cases (opened_shows userId page).symm.trans same
      exact authorizePageRequest_none.mp admitted
    · intro actorId deciding same
      cases page <;> cases same
  next => exact .unchanged nofun

theorem readDecision_moved {state : State} {tab requestId : Nat} {verdict : Verdict} {actorId : UserId}
    (blank : state.tabs tab = .dashboardAdmin actorId none) :
    Moved state (.decide tab requestId verdict) (readDecision state tab requestId verdict actorId) := by
  unfold readDecision
  split
  next request permission loads =>
    refine .shows (fun page user same => .inr ?_) ?_
    · rw [blank]
      exact same
    · intro other deciding same
      cases same
      obtain ⟨found, pending, -⟩ := DecisionRaces.load_deciding loads
      exact ⟨(mem_of_lookup found).1, pending⟩
  next => exact .unchanged nofun
  next => exact .unchanged nofun

theorem step_moved {state next : State} {event : Event} (taken : step state event = some next) :
    Moved state event next := by
  cases event with
  | tick now =>
    simp only [step, Option.ite_none_right_eq_some, Option.some.injEq] at taken
    obtain ⟨later, rfl⟩ := taken
    exact .ticks later
  | setPermissions permissions => cases taken; exact .sets
  | request requesterId permissionType reason =>
    cases taken
    refine perform_moved nofun ?_
    intro request store created
    obtain ⟨permissions, requests⟩ := createPermissionRequest_ok created
    exact ⟨congrArg Table.rows permissions, requests⟩
  | cancel requestId requesterId =>
    cases taken
    refine perform_moved nofun ?_
    intro request store cancelled
    exact cancelPermissionRequest_ok cancelled
  | render tab page userId =>
    simp only [step, Option.ite_none_right_eq_some, Option.some.injEq] at taken
    obtain ⟨-, rfl⟩ := taken
    exact render_moved state tab page userId
  | close tab => cases taken; exact closes_moved state _ tab
  | decide tab requestId verdict =>
    simp only [step] at taken
    split at taken
    next actorId shown => cases taken; exact readDecision_moved shown
    next => cases taken
  | commit tab =>
    simp only [step] at taken
    split at taken
    next actorId deciding shown =>
      cases taken
      unfold commitDecision
      split
      next => exact closes_moved state _ tab
      next store written => exact .commits shown written
    next => cases taken
  | submit tab clientMetadata clientId secret =>
    simp only [step] at taken
    split at taken
    next userId shown =>
      simp only [submit, Option.map_eq_some_iff] at taken
      obtain ⟨clients, -, rfl⟩ := taken
      exact .submits
    next => cases taken

/-- The tab commits a decision or submits a client before it is closed. -/
def ActsLater (tab : Nat) : List Event → Prop
  | [] => False
  | .close closed :: later => closed ≠ tab ∧ ActsLater tab later
  | .commit acting :: later | .submit acting _ _ _ :: later => acting = tab ∨ ActsLater tab later
  | _ :: later => ActsLater tab later

/-- Time passes and permissions change only so that the actor of every open page that is
yet to act still has an active permission that the page requires. -/
def Retains (state : State) (later : List Event) : Event → Prop
  | .tick now => ∀ tab page userId, (state.tabs tab).shows = some (page, userId) → ActsLater tab later →
    Entitled now state.store.permissions.rows page userId
  | .setPermissions permissions => ∀ tab page userId, (state.tabs tab).shows = some (page, userId) → ActsLater tab later →
    Entitled state.now permissions.rows page userId
  | _ => True

/-- Each step of the run retains what the steps after it need. -/
def RetainsAlong : State → List Event → Prop
  | _, [] => True
  | state, event :: later => Retains state later event ∧ ∀ next, step state event = some next → RetainsAlong next later

theorem RetainsAlong.cons {state next : State} {event : Event} {later : List Event} (taken : step state event = some next)
    (retains : Retains state later event) (rest : RetainsAlong next later) : RetainsAlong state (event :: later) := by
  refine ⟨retains, ?_⟩
  intro other same
  cases taken.symm.trans same
  exact rest

theorem ActsLater.cons {tab : Nat} {event : Event} {later : List Event} (acts : ActsLater tab later)
    (remains : event ≠ .close tab) :
    ActsLater tab (event :: later) := by
  cases event with
  | close closed => exact ⟨fun same => remains (same ▸ rfl), acts⟩
  | commit | submit => exact .inr acts
  | tick | setPermissions | request | cancel | render | decide => exact acts

/-- The actors of the open pages that are yet to act. -/
def Vouched (later : List Event) (state : State) : Prop :=
  ∀ tab page userId, (state.tabs tab).shows = some (page, userId) → ActsLater tab later → Entitles state page userId

theorem step_close {state next : State} {tab : Nat} (taken : step state (.close tab) = some next) :
    (next.tabs tab).shows = none := by
  cases taken
  rw [setTab_self]
  rfl

theorem step_vouched {state next : State} {event : Event} {later : List Event} (taken : step state event = some next)
    (allowed : Retains state later event) (vouched : Vouched (event :: later) state) : Vouched later next := by
  intro other page userId shows acts
  by_cases closed : event = .close other
  · subst closed
    cases (step_close taken).symm.trans shows
  have kept : (state.tabs other).shows = some (page, userId) → Entitles state page userId := fun before =>
    vouched other page userId before (acts.cons closed)
  have moved := step_moved taken
  cases moved with
  | ticks later => exact allowed other page userId shows acts
  | sets => exact allowed other page userId shows acts
  | performs calm permissions requests =>
    have entitled := kept shows
    unfold Entitles at entitled
    rw [← permissions] at entitled
    exact entitled
  | @shows _ tab shown entitled reads =>
    by_cases same : other = tab
    · subst same
      rw [setTab_self] at shows
      rcases entitled page userId shows with now | before
      · exact now
      · exact kept before
    · rw [setTab_other _ _ same] at shows
      exact kept shows
  | @commits tab actorId deciding store shown written =>
    have before : (state.tabs other).shows = some (page, userId) := by
      by_cases same : other = tab
      · subst same
        rw [setTab_self] at shows
        rw [shown]
        exact shows
      · rw [setTab_other _ _ same] at shows
        exact shows
    refine (kept before).kept ?_
    rw [setTab_store, (DecisionRaces.write_some written).1]
    exact granted_keepsActive _ _ _ _
  | submits => exact kept shows

/-- Pending requests are undecided, and so is every request a tab is deciding. -/
structure Clean (state : State) : Prop where
  pending : ∀ row ∈ state.store.requests.rows, row.status = .pending → Undecided row
  deciding : ∀ tab actorId deciding, state.tabs tab = .dashboardAdmin actorId (some deciding) →
    deciding.request.status = .pending ∧ Undecided deciding.request

theorem flush_verdict {request : PermissionRequest} (pending : request.status = .pending) (undecided : Undecided request)
    (verdict : Verdict) (requestId : Nat) (actorId : UserId) (now : Instant) (stored : PermissionRequest) :
    let row := request.flush ((verdict.decision requestId actorId).decided now request) stored
    row.decidedBy = some actorId ∧ row.decidedAt = some now ∧ row.status ≠ .pending := by
  cases verdict <;>
    simp [PermissionRequest.flush, Verdict.decision, Decision.decided, writeColumn, pending, undecided.1, undecided.2]

theorem KeepsDecisions.pending {before after : List PermissionRequest} (keeps : KeepsDecisions before after)
    (clean : ∀ row ∈ before, row.status = .pending → Undecided row) :
    ∀ row ∈ after, row.status = .pending → Undecided row := by
  intro row member pending
  rcases keeps row member with undecided | ⟨old, stored, sameBy, sameAt, was⟩
  · exact undecided
  · have undecided := clean old stored (was pending)
    exact ⟨sameBy.trans undecided.1, sameAt.trans undecided.2⟩

theorem Moved.clean {state next : State} {event : Event} (moved : Moved state event next) (clean : Clean state) :
    Clean next := by
  cases moved with
  | ticks later => exact ⟨clean.pending, clean.deciding⟩
  | sets => exact ⟨clean.pending, clean.deciding⟩
  | performs calm permissions requests => exact ⟨requests.pending clean.pending, clean.deciding⟩
  | @shows _ tab shown entitled reads =>
    refine ⟨clean.pending, ?_⟩
    intro other actorId deciding same
    by_cases equal : other = tab
    · subst equal
      rw [setTab_self] at same
      obtain ⟨member, pending⟩ := reads actorId deciding same
      exact ⟨pending, clean.pending _ member pending⟩
    · rw [setTab_other _ _ equal] at same
      exact clean.deciding other actorId deciding same
  | @commits tab actorId deciding store shown written =>
    obtain ⟨pending, undecided⟩ := clean.deciding tab actorId deciding shown
    refine ⟨?_, ?_⟩
    · intro row member again
      rw [setTab_store, (DecisionRaces.write_some written).2] at member
      obtain ⟨old, stored, rfl⟩ := mem_update.mp member
      split at again
      next hit => exact absurd again (flush_verdict pending undecided _ _ _ _ old).2.2
      next missed => rw [if_neg missed]; exact clean.pending old stored again
    · intro other actor held same
      by_cases equal : other = tab
      · subst equal
        rw [setTab_self] at same
        cases same
      · rw [setTab_other _ _ equal] at same
        exact clean.deciding other actor held same
  | submits => exact ⟨clean.pending, clean.deciding⟩

/-- A decision stored after a step was stored before it, or was made in the step,
by the actor of the dashboard that commits it and at that time. -/
theorem Moved.decided {state next : State} {event : Event} (moved : Moved state event next) (clean : Clean state)
    {row : PermissionRequest} {actorId : UserId} {decidedAt : Instant} (member : row ∈ next.store.requests.rows)
    (decidedBy : row.decidedBy = some actorId) (decided : row.decidedAt = some decidedAt) :
    (∃ old ∈ state.store.requests.rows, old.decidedBy = some actorId ∧ old.decidedAt = some decidedAt) ∨
      (state.now = decidedAt ∧ ∃ tab, event = .commit tab ∧ (state.tabs tab).shows = some (.dashboardAdmin, actorId)) := by
  cases moved with
  | ticks later => exact .inl ⟨row, member, decidedBy, decided⟩
  | sets => exact .inl ⟨row, member, decidedBy, decided⟩
  | shows entitled reads => exact .inl ⟨row, member, decidedBy, decided⟩
  | submits => exact .inl ⟨row, member, decidedBy, decided⟩
  | performs calm permissions requests =>
    rcases requests row member with undecided | ⟨old, stored, sameBy, sameAt, -⟩
    · rw [undecided.1] at decidedBy
      cases decidedBy
    · exact .inl ⟨old, stored, sameBy.symm.trans decidedBy, sameAt.symm.trans decided⟩
  | @commits tab actor deciding store shown written =>
    obtain ⟨pending, undecided⟩ := clean.deciding tab actor deciding shown
    rw [setTab_store, (DecisionRaces.write_some written).2] at member
    obtain ⟨old, stored, rfl⟩ := mem_update.mp member
    split at decidedBy
    next hit =>
      rw [if_pos hit] at decided
      obtain ⟨byActor, atNow, -⟩ := flush_verdict pending undecided deciding.verdict deciding.request.id actor state.now old
      cases byActor.symm.trans decidedBy
      cases atNow.symm.trans decided
      exact .inr ⟨rfl, tab, rfl, by rw [shown]; rfl⟩
    next missed =>
      rw [if_neg missed] at decided
      exact .inl ⟨old, stored, decidedBy, decided⟩

def mutation (state : State) : Event → Option (Page × UserId)
  | .commit tab =>
    match state.tabs tab with
    | .dashboardAdmin actorId (some deciding) =>
      if (deciding.write state actorId).isSome then some (.dashboardAdmin, actorId) else none
    | _ => none
  | .submit tab _ _ _ =>
    match state.tabs tab with
    | .createClient userId => some (.createClient, userId)
    | _ => none
  | _ => none

theorem mutation_shown {state : State} {event : Event} {page : Page} {userId : UserId}
    (mutates : mutation state event = some (page, userId)) (later : List Event) :
    ∃ tab, (state.tabs tab).shows = some (page, userId) ∧ ActsLater tab (event :: later) := by
  unfold mutation at mutates
  split at mutates
  next tab =>
    split at mutates
    next actorId deciding shown =>
      simp only [Option.ite_none_right_eq_some, Option.some.injEq] at mutates
      exact ⟨tab, by rw [shown, ← mutates.2]; rfl, .inl rfl⟩
    next => cases mutates
  next tab _ _ _ =>
    split at mutates
    next user shown => exact ⟨tab, by rw [shown, ← Option.some.inj mutates]; rfl, .inl rfl⟩
    next => cases mutates
  next => cases mutates

/-- Whoever a decision or a new client is committed for is entitled to the page
at that moment. -/
def ActorsEntitled (start : State) (events : List Event) : Prop :=
  ∀ first event second reached page userId, events = first ++ event :: second → run step start first = some reached →
    mutation reached event = some (page, userId) → Entitles reached page userId

/-- Whoever a stored request was decided by had admin access when it was decided. -/
def DecidersEntitled (start : State) (events : List Event) (final : State) : Prop :=
  ∀ row ∈ final.store.requests.rows, ∀ actorId decidedAt, row.decidedBy = some actorId → row.decidedAt = some decidedAt →
    ∃ first second reached, events = first ++ second ∧ run step start first = some reached ∧
      reached.now = decidedAt ∧ Entitles reached .dashboardAdmin actorId

theorem vouched_initial (now : Instant) (permissions : Table Permission PermissionConstraints) (later : List Event) :
    Vouched later (initial now permissions) := by
  rintro tab page userId ⟨⟩

theorem vouched_run {state reached : State} {first second : List Event} (vouched : Vouched (first ++ second) state)
    (along : RetainsAlong state (first ++ second)) (executed : run step state first = some reached) :
    Vouched second reached := by
  induction first generalizing state with
  | nil => cases executed; exact vouched
  | cons event first ih =>
    obtain ⟨next, taken, rest⟩ := run_cons_some.mp executed
    exact ih (step_vouched taken along.1 vouched) (along.2 next taken) rest

theorem clean_initial (now : Instant) (permissions : Table Permission PermissionConstraints) :
    Clean (initial now permissions) :=
  ⟨by rintro row ⟨⟩, by rintro tab actorId deciding ⟨⟩⟩

section
variable {now : Instant} {permissions : Table Permission PermissionConstraints}

theorem clean_run {events : List Event} {final : State} (executed : run step (initial now permissions) events = some final) :
    Clean final :=
  run_invariant Clean (fun _ _ _ clean taken => (step_moved taken).clean clean) (clean_initial now permissions) executed

theorem deciders_entitled {first second : List Event} {reached : State}
    (executed : run step (initial now permissions) first = some reached)
    (along : RetainsAlong (initial now permissions) (first ++ second)) :
    DecidersEntitled (initial now permissions) first reached := by
  induction first using List.reverseRecOn generalizing second reached with
  | nil =>
    cases executed
    rintro row ⟨⟩
  | append_singleton first event ih =>
    obtain ⟨before, partway, taken⟩ := run_snoc_some.mp executed
    rw [List.append_assoc, List.singleton_append] at along
    intro row member actorId decidedAt decidedBy decided
    rcases (step_moved taken).decided (clean_run partway) member decidedBy decided with
      ⟨old, stored, byActor, atTime⟩ | ⟨same, tab, rfl, shown⟩
    · obtain ⟨earlier, rest, state, split, ran, time, entitled⟩ := ih partway along old stored actorId decidedAt byActor atTime
      exact ⟨earlier, rest ++ [event], state, by rw [split, List.append_assoc], ran, time, entitled⟩
    · have vouched := vouched_run (vouched_initial now permissions _) along partway
      exact ⟨first, [.commit tab], before, rfl, partway, same, vouched tab .dashboardAdmin actorId shown (.inl rfl)⟩

end

/-- While the actor of every open page that is yet to act keeps a permission that the page
requires, every decision and every new client is committed for an entitled actor. -/
theorem actors_entitled (now : Instant) (permissions : Table Permission PermissionConstraints) (events : List Event)
    (final : State) (executed : run step (initial now permissions) events = some final)
    (along : RetainsAlong (initial now permissions) events) :
    ActorsEntitled (initial now permissions) events ∧ DecidersEntitled (initial now permissions) events final := by
  refine ⟨?_, deciders_entitled executed (List.append_nil events ▸ along)⟩
  rintro first event second reached page userId rfl partway mutates
  obtain ⟨tab, shown, acts⟩ := mutation_shown mutates second
  exact vouched_run (vouched_initial now permissions _) along partway tab page userId shown acts

def admin : Permission where
  userId := 1
  grantedBy := none
  id := 1
  permissionType := .admin
  expirationDate := some (seconds 100)
  reason := none

def shortAdmin : Permission := { admin with userId := 2, id := 2, expirationDate := some (seconds 40) }

/-- User 1 is an admin until 100 s, and user 2 until 40 s. -/
def table : Table Permission PermissionConstraints := ⟨[admin, shortAdmin], by decide⟩

/-- The request is filed, both open the dashboard, and user 1 approves it at `now`. -/
def approvedAt (now : Instant) : List Event :=
  [.request 7 .developer none, .render 0 .dashboardAdmin (some 1), .render 1 .dashboardAdmin (some 2), .tick now,
    .decide 0 1 .approve, .commit 0]

theorem approved_in_time :
    ∃ final, run step (initial 0 table) (approvedAt (seconds 50)) = some final ∧
      ActorsEntitled (initial 0 table) (approvedAt (seconds 50)) ∧
      DecidersEntitled (initial 0 table) (approvedAt (seconds 50)) final := by
  refine ⟨_, rfl, actors_entitled 0 table (approvedAt (seconds 50)) _ rfl ?_⟩
  refine .cons rfl trivial (.cons rfl trivial (.cons rfl trivial (.cons rfl ?_ (.cons rfl trivial (.cons rfl trivial trivial)))))
  intro tab page userId shown acts
  rcases acts with rfl | later
  · cases shown
    exact ⟨admin, List.mem_cons_self, rfl, rfl, .inr (by decide)⟩
  · exact later.elim

theorem approved_after_expiry :
    ∃ final, run step (initial 0 table) (approvedAt (seconds 200)) = some final ∧
      ¬ ActorsEntitled (initial 0 table) (approvedAt (seconds 200)) := by
  refine ⟨_, rfl, ?_⟩
  intro entitled
  obtain ⟨permission, member, -, active, -⟩ :=
    entitled ((approvedAt (seconds 200)).take 5) (.commit 0) [] _ .dashboardAdmin 1 rfl rfl rfl
  rcases List.mem_pair.mp member with rfl | rfl
  · exact absurd active (by decide)
  · exact absurd active (by decide)

end Satoidc.Proofs.PageActions
