import Satoidc.AccessRequests
import Satoidc.Foundation.Provenance
import Satoidc.Proofs.PageActions

/-! Where developer access comes from, whatever handlers run between each other. A
permission appears or is enabled only by the decision of an admitted administrator on a
request that the user made, and no request is lost or reopened. -/

namespace Satoidc.Proofs.AccessRequests
open Foundation Satoidc.AccessRequests
open Pages (Deciding Verdict)

section sets
variable (admitted : UserId → Prop) (requested : UserId × PermissionsEnum → Prop)

/-- The permission is in force for good, by the decision of one of the administrators. -/
structure Enabled (row : Permission) : Prop where
  enabled : row.disabled = false
  unlimited : row.expirationDate = none
  granted : ∃ actor, row.grantedBy = some actor ∧ admitted actor

/-- One of the administrators has decided the request. -/
structure Decided (request : PermissionRequest) : Prop where
  status : request.status ≠ .pending
  decided : ∃ actor, request.decidedBy = some actor ∧ admitted actor

/-- The request, as it is or as an administrator has decided it. -/
structure RequestSince (before later : PermissionRequest) : Prop where
  id : later.id = before.id
  pair : later.pair = before.pair
  reason : later.reason = before.reason
  change : later = before ∨ Decided admitted later

structure PermissionSince (before later : Permission) : Prop where
  id : later.id = before.id
  pair : later.pair = before.pair
  change : later = before ∨ Enabled admitted later

/-- The request that an approval has read is still stored, but for what others have
decided since. -/
structure Selected (store : PermissionStore) (selected : PermissionRequest) : Prop where
  pending : selected.status = .pending
  requested : requested selected.pair
  request : ∃ stored ∈ store.requests.rows, RequestSince admitted selected stored

/-- What a decision has loaded is still stored, but for what others have decided since. -/
structure Loaded (store : PermissionStore) (deciding : Deciding) : Prop extends
    Selected admitted requested store deciding.request where
  permission : ∀ loaded, deciding.permission = some loaded → loaded.pair = deciding.request.pair ∧
    ∃ stored ∈ store.permissions.rows, PermissionSince admitted loaded stored

def Reads (store : PermissionStore) : Handling → Prop
  | .approving request => Selected admitted requested store request
  | .deciding deciding => Loaded admitted requested store deciding

/-- What a page does is on behalf of an administrator, or of a user who has asked. -/
def Backed (store : PermissionStore) : Tab → Prop
  | .closed => True
  | .profile userId adding => adding ≠ none → requested (userId, .developer)
  | .dashboardAdmin actorId handling => admitted actorId ∧ ∀ read, handling = some read → Reads admitted requested store read

/-- What a step may do to the tables. -/
structure Advances (store after : PermissionStore) : Prop where
  permissions : ∀ row ∈ store.permissions.rows, ∃ later ∈ after.permissions.rows, PermissionSince admitted row later
  requests : ∀ request ∈ store.requests.rows, ∃ later ∈ after.requests.rows, RequestSince admitted request later
  granted : ∀ row ∈ after.permissions.rows, row ∈ store.permissions.rows ∨ Enabled admitted row ∧ requested row.pair
  asked : ∀ request ∈ after.requests.rows, (∃ before ∈ store.requests.rows, before.pair = request.pair) ∨ requested request.pair
  decided : ∀ request ∈ after.requests.rows, request ∈ store.requests.rows ∨ request.status = .pending ∨ Decided admitted request
  approved : ∀ request ∈ after.requests.rows, request.status = .approved → request ∈ store.requests.rows ∨
    ∃ row ∈ after.permissions.rows, row.pair = request.pair ∧ Enabled admitted row

end sets

section sets
variable {admitted : UserId → Prop} {requested : UserId × PermissionsEnum → Prop} {store after : PermissionStore}

theorem RequestSince.refl (request : PermissionRequest) : RequestSince admitted request request := ⟨rfl, rfl, rfl, .inl rfl⟩

theorem PermissionSince.refl (row : Permission) : PermissionSince admitted row row := ⟨rfl, rfl, .inl rfl⟩

theorem RequestSince.trans {first second third : PermissionRequest} (left : RequestSince admitted first second)
    (right : RequestSince admitted second third) : RequestSince admitted first third := by
  refine ⟨right.id.trans left.id, right.pair.trans left.pair, right.reason.trans left.reason, ?_⟩
  rcases right.change with rfl | decided
  · exact left.change
  · exact .inr decided

theorem PermissionSince.trans {first second third : Permission} (left : PermissionSince admitted first second)
    (right : PermissionSince admitted second third) : PermissionSince admitted first third := by
  refine ⟨right.id.trans left.id, right.pair.trans left.pair, ?_⟩
  rcases right.change with rfl | enabled
  · exact left.change
  · exact .inr enabled

theorem Selected.stays {request : PermissionRequest} (selected : Selected admitted requested store request)
    (advances : Advances admitted requested store after) : Selected admitted requested after request := by
  obtain ⟨stored, member, since⟩ := selected.request
  obtain ⟨later, inside, more⟩ := advances.requests stored member
  exact ⟨selected.pending, selected.requested, later, inside, since.trans more⟩

theorem Loaded.stays {deciding : Deciding} (loaded : Loaded admitted requested store deciding)
    (advances : Advances admitted requested store after) : Loaded admitted requested after deciding := by
  refine ⟨loaded.toSelected.stays advances, ?_⟩
  intro permission held
  obtain ⟨pair, stored, member, since⟩ := loaded.permission permission held
  obtain ⟨later, inside, more⟩ := advances.permissions stored member
  exact ⟨pair, later, inside, since.trans more⟩

theorem Reads.stays {handling : Handling} (reads : Reads admitted requested store handling)
    (advances : Advances admitted requested store after) : Reads admitted requested after handling := by
  cases handling with
  | approving request => exact Selected.stays reads advances
  | deciding deciding => exact Loaded.stays reads advances

theorem Backed.stays {tab : Tab} (backed : Backed admitted requested store tab)
    (advances : Advances admitted requested store after) : Backed admitted requested after tab := by
  cases tab with
  | closed => exact trivial
  | profile userId adding => exact backed
  | dashboardAdmin actorId handling => exact ⟨backed.1, fun read held => (backed.2 read held).stays advances⟩

theorem Advances.refl (store : PermissionStore) : Advances admitted requested store store where
  permissions row member := ⟨row, member, .refl row⟩
  requests request member := ⟨request, member, .refl request⟩
  granted _ member := .inl member
  asked request member := .inl ⟨request, member, rfl⟩
  decided _ member := .inl member
  approved _ member _ := .inl member

section decision
variable {deciding : Deciding} {actorId : UserId} {now : Instant}

theorem flush_decided {stored : PermissionRequest} (loaded : Loaded admitted requested store deciding) (actor : admitted actorId)
    (since : RequestSince admitted deciding.request stored) :
    Decided admitted (deciding.request.flush
      ((deciding.verdict.decision deciding.request.id actorId).decided now deciding.request) stored) := by
  have pending := loaded.pending
  have column : ∃ other, writeColumn deciding.request.decidedBy (some actorId) stored.decidedBy = some other ∧
    admitted other := by
    rcases since.change with rfl | decided
    · exact ⟨actorId, writeColumn_current .., actor⟩
    · unfold writeColumn
      split
      · exact decided.decided
      · exact ⟨actorId, rfl, actor⟩
  cases deciding.verdict with
  | approve | deny reason =>
    refine ⟨?_, column⟩
    simp [PermissionRequest.flush, Verdict.decision, Decision.decided, writeColumn, pending]

theorem flush_enabled {loaded stored : Permission} {reason : Option String} (actor : admitted actorId)
    (since : PermissionSince admitted loaded stored) :
    Enabled admitted (loaded.flush
      { loaded with disabled := false, expirationDate := none, grantedBy := some actorId, reason } stored) := by
  rcases since.change with rfl | enabled
  · exact ⟨writeColumn_current .., writeColumn_current .., actorId, writeColumn_current .., actor⟩
  · refine ⟨?_, ?_, ?_⟩
    · simp [Permission.flush, writeColumn, enabled.enabled]
    · simp [Permission.flush, writeColumn, enabled.unlimited]
    · simp only [Permission.flush, writeColumn]
      split
      · exact enabled.granted
      · exact ⟨actorId, rfl, actor⟩

/-- What an approval or denial makes of the permission rows. -/
structure Grants (deciding : Deciding) (admitted : UserId → Prop) (rows later : List Permission) : Prop where
  kept : ∀ row ∈ rows, ∃ next ∈ later, PermissionSince admitted row next
  granted : ∀ row ∈ later, row ∈ rows ∨ Enabled admitted row ∧ row.pair = deciding.request.pair
  approved : deciding.verdict = .approve → ∃ row ∈ later, row.pair = deciding.request.pair ∧ Enabled admitted row

theorem granted_rows (loaded : Loaded admitted requested store deciding) (actor : admitted actorId) :
    Grants deciding admitted store.permissions.rows ((deciding.verdict.decision deciding.request.id actorId).granted
      store.permissions.rows deciding.request deciding.permission) := by
  cases verdict : deciding.verdict with
  | deny reason =>
    refine ⟨fun row member => ⟨row, member, .refl row⟩, fun _ member => .inl member, ?_⟩
    intro approves
    cases verdict.symm.trans approves
  | approve =>
    cases held : deciding.permission with
    | none =>
      simp only [Verdict.decision, Decision.granted, Decision.grant]
      refine ⟨fun row member => ⟨row, List.mem_append_left _ member, .refl row⟩, ?_, ?_⟩
      · intro row member
        rcases List.mem_append.mp member with old | new
        · exact .inl old
        · obtain rfl := List.mem_singleton.mp new
          exact .inr ⟨⟨rfl, rfl, actorId, rfl, actor⟩, rfl⟩
      · intro approves
        exact ⟨_, List.mem_append_right _ (List.mem_singleton.mpr rfl), rfl, rfl, rfl, actorId, rfl, actor⟩
    | some permission =>
      obtain ⟨pair, stored, inside, since⟩ := loaded.permission permission held
      have selected : ∀ row ∈ store.permissions.rows, row.id = permission.id → row = stored := fun row member same =>
        store.permissions.valid.id.unique member inside (same.trans since.id.symm)
      simp only [Verdict.decision, Decision.granted, Decision.grant]
      refine ⟨?_, ?_, ?_⟩
      · intro row member
        by_cases hit : row.id = permission.id
        · obtain rfl := selected row member hit
          exact ⟨_, mem_update_of_selected member hit, rfl, rfl, .inr (flush_enabled actor since)⟩
        · exact ⟨row, mem_update_of_not_selected member hit, .refl row⟩
      · intro row member
        obtain ⟨old, oldInside, becomes⟩ := mem_update.mp member
        split at becomes
        next hit =>
          obtain rfl := selected old oldInside hit
          subst becomes
          exact .inr ⟨flush_enabled actor since, since.pair.trans pair⟩
        next => subst becomes; exact .inl oldInside
      · intro approves
        exact ⟨_, mem_update_of_selected inside since.id, since.pair.trans pair, flush_enabled actor since⟩

theorem write_advances (written : write now store actorId deciding = some after)
    (loaded : Loaded admitted requested store deciding) (actor : admitted actorId) :
    Advances admitted requested store after := by
  obtain ⟨permissions, requests⟩ := DecisionRaces.write_some written
  have grants := granted_rows loaded actor
  rw [← permissions] at grants
  obtain ⟨stored, inside, since⟩ := loaded.request
  have selected : ∀ request ∈ store.requests.rows, request.id = deciding.request.id → request = stored :=
    fun request member same =>
    store.requests.valid.id.unique member inside (same.trans since.id.symm)
  have later : ∀ request ∈ after.requests.rows, request ∈ store.requests.rows ∨ Decided admitted request ∧
      request.pair = stored.pair ∧ (request.status = .approved → deciding.verdict = .approve) := by
    intro request member
    rw [requests] at member
    obtain ⟨old, oldInside, becomes⟩ := mem_update.mp member
    split at becomes
    next hit =>
      obtain rfl := selected old oldInside hit
      subst becomes
      refine .inr ⟨flush_decided loaded actor since, rfl, ?_⟩
      have pending := loaded.pending
      cases deciding.verdict with
      | approve => intro; rfl
      | deny reason => simp [PermissionRequest.flush, Verdict.decision, Decision.decided, writeColumn, pending]
    next => subst becomes; exact .inl oldInside
  refine ⟨grants.kept, ?_, ?_, ?_, ?_, ?_⟩
  · intro request member
    rw [requests]
    by_cases hit : request.id = deciding.request.id
    · obtain rfl := selected request member hit
      exact ⟨_, mem_update_of_selected member hit, rfl, rfl, rfl, .inr (flush_decided loaded actor since)⟩
    · exact ⟨request, mem_update_of_not_selected member hit, .refl request⟩
  · intro row member
    rcases grants.granted row member with old | ⟨enabled, pair⟩
    · exact .inl old
    · exact .inr ⟨enabled, pair ▸ loaded.requested⟩
  · intro request member
    rcases later request member with old | ⟨-, pair, -⟩
    · exact .inl ⟨request, old, rfl⟩
    · exact .inl ⟨stored, inside, pair.symm⟩
  · intro request member
    rcases later request member with old | ⟨decided, -, -⟩
    · exact .inl old
    · exact .inr (.inr decided)
  · intro request member status
    rcases later request member with old | ⟨-, pair, approves⟩
    · exact .inl old
    · obtain ⟨row, granted, samePair, enabled⟩ := grants.approved (approves status)
      exact .inr ⟨row, granted, samePair.trans (since.pair.symm.trans pair.symm), enabled⟩

end decision

theorem addPermissionRequest_ok {userId : UserId} {permissionType : PermissionsEnum} {reason : Option String}
    {request : PermissionRequest} (added : addPermissionRequest store userId permissionType reason = .ok (request, after)) :
    request.pair = (userId, permissionType) ∧ request.status = .pending ∧ after.permissions = store.permissions ∧
      after.requests.rows = store.requests.rows ++ [request] := by
  unfold addPermissionRequest at added
  dsimp only at added
  split at added
  next => cases added
  next requests stored => cases added; exact ⟨rfl, rfl, rfl, Table.store_some.mp stored⟩

theorem add_advances {userId : UserId} {reason : Option String} {request : PermissionRequest}
    (added : addPermissionRequest store userId .developer reason = .ok (request, after))
    (asks : requested (userId, .developer)) :
    Advances admitted requested store after := by
  obtain ⟨pair, pending, permissions, rows⟩ := addPermissionRequest_ok added
  have known : ∀ other ∈ after.requests.rows, other ∈ store.requests.rows ∨ other = request := by
    intro other member
    rw [rows, List.mem_append, List.mem_singleton] at member
    exact member
  refine ⟨?_, ?_, ?_, ?_, ?_, ?_⟩
  · rw [permissions]
    exact fun row member => ⟨row, member, .refl row⟩
  · intro other member
    exact ⟨other, rows ▸ List.mem_append_left _ member, .refl other⟩
  · rw [permissions]
    exact fun _ member => .inl member
  · intro other member
    rcases known other member with old | rfl
    · exact .inl ⟨other, old, rfl⟩
    · exact .inr (pair ▸ asks)
  · intro other member
    exact (known other member).imp_right fun (same : other = request) => .inl (same ▸ pending)
  · intro other member status
    rcases known other member with old | rfl
    · exact .inl old
    · cases pending.symm.trans status

/-- The input opens a dashboard for a user who may decide requests at that moment. -/
def Opens (store : PermissionStore) (input : Input) (actorId : UserId) : Prop :=
  ∃ now, input = .dashboardAdmin (some actorId) now ∧ PageActions.Entitled now store.permissions.rows .dashboardAdmin actorId

/-- The input submits the dialog on a profile page of the user. -/
def Submits (tab : Tab) (input : Input) (userId : UserId) : Prop :=
  tab = .profile userId none ∧ ∃ reason now, input = .submit reason now

theorem dashboardAdmin_backed {now : Instant} {userId : Option UserId}
    (opens : ∀ actorId, Opens store (.dashboardAdmin userId now) actorId → admitted actorId) :
    Backed admitted requested store (dashboardAdmin now store userId) := by
  unfold dashboardAdmin
  split
  next actorId authorized =>
    refine ⟨opens actorId ⟨now, rfl, ?_⟩, fun _ held => (by cases held)⟩
    exact PageActions.authorizePageRequest_none.mp authorized
  next => exact trivial

theorem decide_some {requestId : Nat} {verdict : Verdict} {handling : Handling}
    (decides : AccessRequests.decide store requestId verdict = some handling) :
    ∃ request ∈ store.requests.rows, request.status = .pending ∧
      (handling = .approving request ∨ ∃ reason, handling = .deciding ⟨.deny reason, request, none⟩) := by
  unfold AccessRequests.decide at decides
  split at decides
  next => cases decides
  next request found =>
    split at decides
    next => cases decides
    next pending =>
      refine ⟨request, (mem_of_lookup found).1, not_not.mp pending, ?_⟩
      cases verdict with
      | approve => cases decides; exact .inl rfl
      | deny reason => cases decides; exact .inr ⟨reason, rfl⟩

theorem decide_reads {requestId : Nat} {verdict : Verdict} {handling : Handling}
    (decides : AccessRequests.decide store requestId verdict = some handling)
    (asked : ∀ request ∈ store.requests.rows, requested request.pair) : Reads admitted requested store handling := by
  obtain ⟨request, inside, pending, becomes⟩ := decide_some decides
  have selected : Selected admitted requested store request := ⟨pending, asked request inside, request, inside, .refl request⟩
  rcases becomes with rfl | ⟨reason, rfl⟩
  · exact selected
  · exact ⟨selected, nofun⟩

theorem selectPermission_reads {request : PermissionRequest} (selected : Selected admitted requested store request) :
    Reads admitted requested store (AccessRequests.selectPermission store request) := by
  refine ⟨selected, ?_⟩
  intro permission found
  obtain ⟨member, pair⟩ := mem_of_lookup found
  exact ⟨pair, permission, member, .refl permission⟩

theorem submit_backed {now : Instant} {userId : UserId} {reason : Option String} (asks : requested (userId, .developer)) :
    Backed admitted requested store (AccessRequests.submit now store userId reason) := by
  unfold AccessRequests.submit
  split <;> exact fun _ => asks

theorem step_advances {input : Input} {index : Nat} {tab later : Tab}
    (taken : advance index input store tab = some (after, later)) (backed : Backed admitted requested store tab)
    (asked : ∀ request ∈ store.requests.rows, requested request.pair)
    (opens : ∀ actorId, Opens store input actorId → admitted actorId)
    (submits : ∀ userId, Submits tab input userId → requested (userId, .developer)) :
    Advances admitted requested store after ∧ Backed admitted requested after later := by
  unfold advance at taken
  split at taken
  · cases taken
    exact ⟨.refl _, fun adding => absurd rfl adding⟩
  · cases taken
    exact ⟨.refl _, dashboardAdmin_backed opens⟩
  · cases taken
    exact ⟨.refl _, submit_backed (submits _ ⟨rfl, _, _, rfl⟩)⟩
  · cases taken
    exact ⟨.refl _, backed.1, fun read decides => decide_reads decides asked⟩
  next actorId request =>
    cases taken
    refine ⟨.refl _, backed.1, ?_⟩
    rintro read ⟨⟩
    exact selectPermission_reads (backed.2 _ rfl)
  next userId reason _ =>
    split at taken
    next => cases taken; exact ⟨.refl _, trivial⟩
    next added =>
      cases taken
      exact ⟨add_advances added (backed (by simp)), fun adding => absurd rfl adding⟩
  next actorId deciding _ =>
    split at taken
    next => cases taken; exact ⟨.refl _, trivial⟩
    next written =>
      cases taken
      exact ⟨write_advances written (backed.2 _ rfl) backed.1, backed.1, fun _ held => (by cases held)⟩
  · cases taken
    exact ⟨.refl _, trivial⟩
  · cases taken

end sets

section runs

/-- The tables go back to the initial ones, and to administrators and askers. -/
structure Sound (admitted : UserId → Prop) (requested : UserId × PermissionsEnum → Prop) (start : PermissionStore)
    (world : World PermissionStore Tab) : Prop where
  granted : ∀ row ∈ world.shared.permissions.rows, row ∈ start.permissions.rows ∨ Enabled admitted row ∧ requested row.pair
  asked : ∀ request ∈ world.shared.requests.rows, requested request.pair
  decided : ∀ request ∈ world.shared.requests.rows,
    request ∈ start.requests.rows ∨ request.status = .pending ∨ Decided admitted request
  approved : ∀ request ∈ world.shared.requests.rows, request.status = .approved → request ∈ start.requests.rows ∨
    ∃ row ∈ world.shared.permissions.rows, row.pair = request.pair ∧ Enabled admitted row
  pages : ∀ index, Backed admitted requested world.shared (world.sessions index)

variable {admitted wider : UserId → Prop} {requested broader : UserId × PermissionsEnum → Prop} {start : PermissionStore}
  {world next : World PermissionStore Tab}

theorem Enabled.widen {row : Permission} (enabled : Enabled admitted row) (admits : ∀ actor, admitted actor → wider actor) :
    Enabled wider row := by
  obtain ⟨actor, same, known⟩ := enabled.granted
  exact ⟨enabled.enabled, enabled.unlimited, actor, same, admits actor known⟩

theorem Decided.widen {request : PermissionRequest} (decided : Decided admitted request)
    (admits : ∀ actor, admitted actor → wider actor) : Decided wider request := by
  obtain ⟨actor, same, known⟩ := decided.decided
  exact ⟨decided.status, actor, same, admits actor known⟩

theorem RequestSince.widen {before later : PermissionRequest} (since : RequestSince admitted before later)
    (admits : ∀ actor, admitted actor → wider actor) : RequestSince wider before later :=
  ⟨since.id, since.pair, since.reason, since.change.imp_right fun decided => decided.widen admits⟩

theorem PermissionSince.widen {before later : Permission} (since : PermissionSince admitted before later)
    (admits : ∀ actor, admitted actor → wider actor) : PermissionSince wider before later :=
  ⟨since.id, since.pair, since.change.imp_right fun enabled => enabled.widen admits⟩

theorem Selected.widen {store : PermissionStore} {request : PermissionRequest}
    (selected : Selected admitted requested store request)
    (admits : ∀ actor, admitted actor → wider actor) (asks : ∀ pair, requested pair → broader pair) :
    Selected wider broader store request := by
  obtain ⟨stored, member, since⟩ := selected.request
  exact ⟨selected.pending, asks _ selected.requested, stored, member, since.widen admits⟩

theorem Loaded.widen {store : PermissionStore} {deciding : Deciding} (loaded : Loaded admitted requested store deciding)
    (admits : ∀ actor, admitted actor → wider actor) (asks : ∀ pair, requested pair → broader pair) :
    Loaded wider broader store deciding := by
  refine ⟨loaded.toSelected.widen admits asks, ?_⟩
  intro permission held
  obtain ⟨pair, stored, member, since⟩ := loaded.permission permission held
  exact ⟨pair, stored, member, since.widen admits⟩

theorem Reads.widen {store : PermissionStore} {handling : Handling} (reads : Reads admitted requested store handling)
    (admits : ∀ actor, admitted actor → wider actor) (asks : ∀ pair, requested pair → broader pair) :
    Reads wider broader store handling := by
  cases handling with
  | approving request => exact Selected.widen reads admits asks
  | deciding deciding => exact Loaded.widen reads admits asks

theorem Backed.widen {store : PermissionStore} {tab : Tab} (backed : Backed admitted requested store tab)
    (admits : ∀ actor, admitted actor → wider actor) (asks : ∀ pair, requested pair → broader pair) :
    Backed wider broader store tab := by
  cases tab with
  | closed => exact trivial
  | profile userId adding => exact fun busy => asks _ (backed busy)
  | dashboardAdmin actorId handling =>
    exact ⟨admits actorId backed.1, fun read held => (backed.2 read held).widen admits asks⟩

theorem Sound.widen (sound : Sound admitted requested start world) (admits : ∀ actor, admitted actor → wider actor)
    (asks : ∀ pair, requested pair → broader pair) : Sound wider broader start world where
  granted row member := (sound.granted row member).imp_right fun known => ⟨known.1.widen admits, asks _ known.2⟩
  asked request member := asks _ (sound.asked request member)
  decided request member := (sound.decided request member).imp_right (Or.imp_right fun decided => decided.widen admits)
  approved request member status := (sound.approved request member status).imp_right fun known => by
    obtain ⟨row, inside, pair, enabled⟩ := known
    exact ⟨row, inside, pair, enabled.widen admits⟩
  pages index := (sound.pages index).widen admits asks

theorem Sound.step {event : Nat × Input} (sound : Sound admitted requested start world)
    (taken : AccessRequests.step world event = some next)
    (opens : ∀ actorId, Opens world.shared event.2 actorId → admitted actorId)
    (submits : ∀ userId, Submits (world.sessions event.1) event.2 userId → requested (userId, .developer)) :
    Advances admitted requested world.shared next.shared ∧ Sound admitted requested start next := by
  obtain ⟨mover, input⟩ := event
  obtain ⟨after, later, moved, rfl⟩ := World.step_some.mp taken
  obtain ⟨advances, backed⟩ := step_advances moved (sound.pages mover) sound.asked opens submits
  refine ⟨advances, ?_, ?_, ?_, ?_, ?_⟩
  · intro row member
    rcases advances.granted row member with old | new
    · exact sound.granted row old
    · exact .inr new
  · intro request member
    rcases advances.asked request member with ⟨before, old, same⟩ | new
    · exact same ▸ sound.asked before old
    · exact new
  · intro request member
    rcases advances.decided request member with old | new
    · exact sound.decided request old
    · exact .inr new
  · intro request member status
    rcases advances.approved request member status with old | new
    · rcases sound.approved request old status with initial | ⟨row, inside, pair, enabled⟩
      · exact .inl initial
      · obtain ⟨found, stored, since⟩ := advances.permissions row inside
        refine .inr ⟨found, stored, since.pair.trans pair, ?_⟩
        rcases since.change with rfl | later
        · exact enabled
        · exact later
    · exact .inr new
  · intro index
    by_cases same : index = mover
    · subst index
      rw [World.moved_self]
      exact backed
    · rw [World.moved_other _ _ _ same]
      exact (sound.pages index).stays advances

/-- A user was let onto the admin dashboard. -/
def Admitted (start : PermissionStore) (past : List (Nat × Input)) (actorId : UserId) : Prop :=
  Occurred AccessRequests.step (AccessRequests.initial start) past fun world event => Opens world.shared event.2 actorId

/-- The permission was requested from the start, or it is developer access and the user
asked for it on a profile page of their own. -/
def Requested (start : PermissionStore) (past : List (Nat × Input)) (pair : UserId × PermissionsEnum) : Prop :=
  (∃ request ∈ start.requests.rows, request.pair = pair) ∨ pair.2 = .developer ∧
    Occurred AccessRequests.step (AccessRequests.initial start) past fun world event =>
      Submits (world.sessions event.1) event.2 pair.1

variable {past rest : List (Nat × Input)}

theorem Requested.append {pair : UserId × PermissionsEnum} (asked : Requested start past pair) (later : List (Nat × Input)) :
    Requested start (past ++ later) pair :=
  asked.imp_right fun known => ⟨known.1, known.2.append later⟩

theorem initial_sound : Sound (Admitted start []) (Requested start []) start (AccessRequests.initial start) where
  granted _ member := .inl member
  asked request member := .inl ⟨request, member, rfl⟩
  decided _ member := .inl member
  approved _ member _ := .inl member
  pages _ := trivial

theorem Sound.extend {event : Nat × Input} (sound : Sound (Admitted start past) (Requested start past) start world)
    (executed : run AccessRequests.step (AccessRequests.initial start) past = some world)
    (taken : AccessRequests.step world event = some next) :
    Advances (Admitted start (past ++ [event])) (Requested start (past ++ [event])) world.shared next.shared ∧
      Sound (Admitted start (past ++ [event])) (Requested start (past ++ [event])) start next := by
  have widened : Sound (Admitted start (past ++ [event])) (Requested start (past ++ [event])) start world :=
    sound.widen (fun _ admits => admits.append [event]) fun _ asked => asked.append [event]
  apply widened.step taken
  · exact fun actorId opens => .last executed opens
  · exact fun userId submits => .inr ⟨rfl, .last executed submits⟩

theorem sound_run (executed : run AccessRequests.step (AccessRequests.initial start) past = some world) :
    Sound (Admitted start past) (Requested start past) start world :=
  run_history (fun past world => Sound (Admitted start past) (Requested start past) start world) initial_sound
    (fun _ _ _ _ partway sound _ taken => (sound.extend partway taken).2)
      (along_true (AccessRequests.initial start) past) executed

/-- A permission that was not there is in force by the decision of an administrator, and
is what its user asked for. -/
theorem permissions_requested (executed : run AccessRequests.step (AccessRequests.initial start) past = some world) :
    ∀ row ∈ world.shared.permissions.rows, row ∈ start.permissions.rows ∨
      Enabled (Admitted start past) row ∧ Requested start past row.pair :=
  (sound_run executed).granted

/-- No request is lost, changed in what it asks for, or opened again. -/
theorem requests_kept (executed : run AccessRequests.step (AccessRequests.initial start) past = some world)
    (further : run AccessRequests.step world rest = some next) {request : PermissionRequest}
    (stored : request ∈ world.shared.requests.rows) :
    ∃ later ∈ next.shared.requests.rows, RequestSince (Admitted start (past ++ rest)) request later := by
  refine run_history (fun done reached => ∃ later ∈ reached.shared.requests.rows,
    RequestSince (Admitted start (past ++ done)) request later) ⟨request, stored, .refl request⟩ ?_
      (along_true world rest) further
  intro done reached event after partway known _ taken
  obtain ⟨later, inside, since⟩ := known
  have whole : run AccessRequests.step (AccessRequests.initial start) (past ++ done) = some reached :=
    run_append_some.mpr ⟨world, executed, partway⟩
  obtain ⟨found, member, more⟩ := ((sound_run whole).extend whole taken).1.requests later inside
  rw [← List.append_assoc]
  exact ⟨found, member, (since.widen fun _ admits => admits.append [event]).trans more⟩

/-- Whoever decided a request that was not there decided was let onto the dashboard, and
the permission of an approved one is in force, even if decisions have raced. -/
theorem requests_decided (executed : run AccessRequests.step (AccessRequests.initial start) past = some world)
    {request : PermissionRequest} (stored : request ∈ world.shared.requests.rows) :
    request ∈ start.requests.rows ∨ request.status = .pending ∨ Decided (Admitted start past) request ∧
      (request.status = .approved →
        ∃ row ∈ world.shared.permissions.rows, row.pair = request.pair ∧ Enabled (Admitted start past) row) := by
  have sound := sound_run executed
  rcases sound.decided request stored with initial | pending | decided
  · exact .inl initial
  · exact .inr (.inl pending)
  · by_cases initial : request ∈ start.requests.rows
    · exact .inl initial
    · exact .inr (.inr ⟨decided, fun status => (sound.approved request stored status).resolve_left initial⟩)

theorem pendingPair_some {request : PermissionRequest} {pair : UserId × PermissionsEnum} :
    request.pendingPair = some pair ↔ request.status = .pending ∧ request.pair = pair := by
  unfold PermissionRequest.pendingPair
  split
  next pending => simp [pending]
  next decided => simp [decided]

/-- Only the partial index makes adding a request fail. -/
theorem addPermissionRequest_failed {store : PermissionStore} {userId : UserId} {permissionType : PermissionsEnum}
    {reason : Option String} {raised : PyError}
    (failed : addPermissionRequest store userId permissionType reason = .error raised) :
    raised = .integrityError ∧ ∃ request ∈ store.requests.rows, request.pendingPair = some (userId, permissionType) := by
  unfold addPermissionRequest at failed
  dsimp only at failed
  split at failed
  next rejected =>
    cases failed
    refine ⟨rfl, ?_⟩
    by_contra unused
    apply Table.store_none.mp rejected
    refine ⟨Keyed.append_singleton.mpr ⟨store.requests.valid.id, fun other member => (lt_nextId member).ne⟩,
      UniqueColumn.append_singleton.mpr ⟨store.requests.valid.onePending, ?_⟩⟩
    intro pair held other member same
    obtain ⟨-, rfl⟩ := pendingPair_some.mp held
    exact unused ⟨other, member, same⟩
  next => cases failed

/-- A commit either adds the request, or leaves the store alone because of a pending one. -/
theorem commit_cases {index : Nat} {now : Instant} {userId : UserId} {reason : Option String}
    (adding : world.sessions index = .profile userId (some reason))
    (taken : AccessRequests.step world (index, .commit now) = some next) :
    ∃ request, request ∈ next.shared.requests.rows ∧ request.pendingPair = some (userId, .developer) ∧
      (addPermissionRequest world.shared userId .developer reason = .ok (request, next.shared) ∨
        next.shared = world.shared ∧ addPermissionRequest world.shared userId .developer reason = .error .integrityError) := by
  obtain ⟨after, later, moved, rfl⟩ := World.step_some.mp taken
  rw [World.moved_shared]
  rw [adding] at moved
  simp only [advance] at moved
  split at moved
  next failed =>
    cases moved
    obtain ⟨rfl, request, stored, held⟩ := addPermissionRequest_failed failed
    exact ⟨request, stored, held, .inr ⟨rfl, failed⟩⟩
  next request result added =>
    cases moved
    obtain ⟨pair, pending, -, rows⟩ := addPermissionRequest_ok added
    refine ⟨request, ?_, pendingPair_some.mpr ⟨pending, pair⟩, .inl added⟩
    rw [rows]
    exact List.mem_append_right _ (List.mem_singleton.mpr rfl)

/-- A submission that passed its checks leaves one pending request of the user: its own,
or the one whose index entry makes the database refuse it. -/
theorem submitted_pending {index : Nat} {now : Instant} {userId : UserId} {reason : Option String}
    (adding : world.sessions index = .profile userId (some reason))
    (taken : AccessRequests.step world (index, .commit now) = some next) :
    ∃ request ∈ next.shared.requests.rows, request.pair = (userId, .developer) ∧ request.status = .pending ∧
      (∀ other ∈ next.shared.requests.rows, other.pair = (userId, .developer) → other.status = .pending → other = request) ∧
      (addPermissionRequest world.shared userId .developer reason = .ok (request, next.shared) ∨
        next.shared = world.shared ∧ addPermissionRequest world.shared userId .developer reason = .error .integrityError) := by
  obtain ⟨request, stored, held, ends⟩ := commit_cases adding taken
  obtain ⟨pending, pair⟩ := pendingPair_some.mp held
  refine ⟨request, stored, pair, pending, ?_, ends⟩
  intro other member samePair samePending
  exact next.shared.requests.valid.onePending.unique member stored (pendingPair_some.mpr ⟨samePending, samePair⟩) held

end runs

def oneAdmin : PermissionStore where
  permissions :=
    ⟨[{ userId := 1, grantedBy := none, id := 1, permissionType := .admin, expirationDate := none, reason := none }],
    by decide⟩
  requests := ⟨[], .nil⟩

/-- User 7 asks for developer access on two pages at once. -/
def asking : List (Nat × Input) :=
  [(0, .profile 7), (2, .profile 7), (0, .submit (some "apps") 5), (2, .submit none 5), (0, .commit 6)]

/-- The administrator 1 grants it. -/
def granting : List (Nat × Input) :=
  [(1, .dashboardAdmin (some 1) 7), (1, .decide 1 .approve), (1, .selectPermission), (1, .commit 8)]

def grantedAccess : Permission where
  userId := 7
  grantedBy := some 1
  id := 2
  permissionType := .developer
  expirationDate := none
  reason := some "Approved in admin dashboard"

theorem granted_access_requested :
    ∃ final, run AccessRequests.step (AccessRequests.initial oneAdmin) (asking ++ granting) = some final ∧
      grantedAccess ∈ final.shared.permissions.rows ∧ (grantedAccess ∈ oneAdmin.permissions.rows ∨
        Enabled (Admitted oneAdmin (asking ++ granting)) grantedAccess ∧
          Requested oneAdmin (asking ++ granting) (7, .developer)) := by
  refine ⟨_, rfl, List.mem_cons_of_mem _ List.mem_cons_self, ?_⟩
  exact @permissions_requested oneAdmin _ (asking ++ granting) rfl grantedAccess (List.mem_cons_of_mem _ List.mem_cons_self)

def askedAccess : PermissionRequest where
  requesterId := 7
  permissionType := .developer
  reason := some "apps"
  id := 1

def answeredAccess : PermissionRequest :=
  { askedAccess with
    status := .approved, decisionReason := some "Approved in admin dashboard", decidedBy := some 1, decidedAt := some 8 }

theorem asked_access_kept :
    ∃ middle final, run AccessRequests.step (AccessRequests.initial oneAdmin) asking = some middle ∧
      run AccessRequests.step middle granting = some final ∧ askedAccess ∈ middle.shared.requests.rows ∧
      ∃ later ∈ final.shared.requests.rows, RequestSince (Admitted oneAdmin (asking ++ granting)) askedAccess later := by
  refine ⟨_, _, rfl, rfl, List.mem_cons_self, ?_⟩
  exact @requests_kept oneAdmin _ _ asking granting rfl rfl askedAccess List.mem_cons_self

theorem answered_access_decided :
    ∃ final, run AccessRequests.step (AccessRequests.initial oneAdmin) (asking ++ granting) = some final ∧
      (answeredAccess ∈ oneAdmin.requests.rows ∨ answeredAccess.status = .pending ∨
        Decided (Admitted oneAdmin (asking ++ granting)) answeredAccess ∧ (answeredAccess.status = .approved →
          ∃ row ∈ final.shared.permissions.rows,
            row.pair = answeredAccess.pair ∧ Enabled (Admitted oneAdmin (asking ++ granting)) row)) := by
  refine ⟨_, rfl, ?_⟩
  exact @requests_decided oneAdmin _ (asking ++ granting) rfl answeredAccess List.mem_cons_self

/-- The world in which the other page is still to add its request. -/
def askedWorld : World PermissionStore Tab :=
  (run AccessRequests.step (AccessRequests.initial oneAdmin) asking).getD (AccessRequests.initial oneAdmin)

theorem asked_twice_pending :
    ∃ final, AccessRequests.step askedWorld (2, .commit 7) = some final ∧
      ∃ request ∈ final.shared.requests.rows, request.pair = (7, .developer) ∧ request.status = .pending ∧
        (∀ other ∈ final.shared.requests.rows, other.pair = (7, .developer) → other.status = .pending → other = request) ∧
        (addPermissionRequest askedWorld.shared 7 .developer none = .ok (request, final.shared) ∨
          final.shared = askedWorld.shared ∧
            addPermissionRequest askedWorld.shared 7 .developer none = .error .integrityError) := by
  refine ⟨_, rfl, ?_⟩
  exact @submitted_pending askedWorld _ 2 7 7 none rfl rfl

end Satoidc.Proofs.AccessRequests
