import Satoidc.Portal
import Satoidc.Proofs.AccessRequests
import Satoidc.Proofs.DashboardOwners

/-! Who ends up with a client. Behind every client there is a permission of its owner,
and behind every permission a chain of administrators that ends in the permissions that
the setup left. -/

namespace Satoidc.Proofs.ChainOfTrust
open Foundation

section access
open Satoidc.AccessRequests AccessRequests

/-- A permission that was there at the start; or one that was requested and granted for
good, whose grantor had been let onto the admin dashboard, earlier in the run, by a
permission that was then stored, active and itself trusted. -/
inductive Trusted (start : PermissionStore) : List (Nat × Input) → Permission → Prop where
  | initially {past row} (member : row ∈ start.permissions.rows) : Trusted start past row
  | granted {before index now after row grantor} {state : World PermissionStore Tab}
      (enabled : row.disabled = false) (unlimited : row.expirationDate = none) (named : row.grantedBy = some grantor.userId)
      (requested : Requested start (before ++ (index, .dashboardAdmin (some grantor.userId) now) :: after) row.pair)
      (partway : run AccessRequests.step (AccessRequests.initial start) before = some state)
      (held : grantor ∈ state.shared.permissions.rows) (active : grantor.active now = true)
      (power : grantor.permissionType = .root ∨ grantor.permissionType = .admin) (trusted : Trusted start before grantor) :
      Trusted start (before ++ (index, .dashboardAdmin (some grantor.userId) now) :: after) row

variable {start : PermissionStore} {past : List (Nat × Input)} {world : World PermissionStore Tab}

/-- The chain grows with the run: who grants was let in by a permission of an earlier state. -/
theorem trusted_run (size : Nat) {row : Permission} (bound : past.length ≤ size)
    (executed : run AccessRequests.step (AccessRequests.initial start) past = some world)
    (stored : row ∈ world.shared.permissions.rows) : Trusted start past row := by
  induction size generalizing past world row with
  | zero =>
    cases List.length_eq_zero_iff.mp (Nat.le_zero.mp bound)
    cases executed
    exact .initially stored
  | succ size ih =>
    rcases (sound_run executed).granted row stored with first | ⟨⟨enabled, unlimited, actor, named, admitted⟩, requested⟩
    · exact .initially first
    · obtain ⟨before, ⟨index, input⟩, after, state, rfl, partway, now, opened, grantor, member, rfl, active, power⟩ := admitted
      cases opened
      have shorter : before.length ≤ size := by
        rw [List.length_append, List.length_cons] at bound
        omega
      exact .granted enabled unlimited named requested partway member active (power.imp_right List.mem_singleton.mp)
        (ih shorter partway member)

/-- Every permission that is ever stored goes back to the start, grant by grant. -/
theorem permissions_trusted (executed : run AccessRequests.step (AccessRequests.initial start) past = some world)
    {row : Permission} (stored : row ∈ world.shared.permissions.rows) : Trusted start past row :=
  trusted_run past.length le_rfl executed stored

end access

/-- The event lets the user onto a developer page by a trusted permission of theirs,
which was there at the start or which the user had asked for. -/
def LetIn (start : PermissionStore) (past : List Portal.Event) (state : Portal.State) (event : Portal.Event)
    (uid : UserId) : Prop :=
  ∃ index now permission,
    (event = .inr (index, .dashboardDeveloper (some uid) now) ∨ event = .inr (index, .createClientPage (some uid) now)) ∧
      permission ∈ state.1.shared.permissions.rows ∧ permission.userId = uid ∧ permission.active now = true ∧
      (permission.permissionType = .root ∨ permission.permissionType ∈ [.developer, .admin]) ∧
        Trusted start (leftOf past) permission ∧
      (permission ∈ start.permissions.rows ∨ AccessRequests.Requested start (leftOf past) permission.pair)

section portal
variable {nfkc : String → String} {store : PermissionStore} {clients : Table RegisteredClient (Keyed RegisteredClient.id)}
  {events : List Portal.Event} {state final : Portal.State}

/-- No developer page changes the permissions that it reads. -/
theorem advance_permissions {mover : Nat} {input : Dashboard.Input} {shared after : Dashboard.Shared} {tab later : Dashboard.Tab}
    (own : ∀ rows, input ≠ .permissions rows) (taken : Dashboard.advance nfkc mover input shared tab = some (after, later)) :
    after.permissions = shared.permissions := by
  have committed : ∀ {userId entries} {flushed : Option Dashboard.Shared},
      (∀ next, flushed = some next → next.permissions = shared.permissions) →
      Dashboard.committed userId entries shared flushed = (after, later) → after.permissions = shared.permissions := by
    intro userId entries flushed kept ended
    cases flushed with
    | none => cases ended; rfl
    | some next => cases ended; exact kept after rfl
  have flushes : ∀ {entries next}, Dashboard.commit entries shared = some next → next.permissions = shared.permissions := by
    intro entries next written
    unfold Dashboard.commit at written
    split at written
    next => cases written; rfl
    next => cases written
  unfold Dashboard.advance at taken
  split at taken
  next => cases taken; rfl
  next => cases taken; rfl
  next =>
    obtain ⟨next, submitted, same⟩ := Option.map_eq_some_iff.mp taken
    cases same
    unfold Dashboard.submit at submitted
    split at submitted
    next => cases submitted; rfl
    next => obtain ⟨_, -, rfl⟩ := Option.map_eq_some_iff.mp submitted; rfl
  next =>
    obtain ⟨entry, -, acted⟩ := Option.map_eq_some_iff.mp taken
    unfold Dashboard.act at acted
    split at acted
    next => cases acted; rfl
    next =>
      dsimp only at acted
      split at acted
      next => cases acted; rfl
      next => exact committed (fun _ written => flushes written) acted
  next =>
    obtain ⟨entry, -, deleted⟩ := Option.map_eq_some_iff.mp taken
    refine committed ?_ deleted
    intro next removed
    obtain ⟨flushed, written, rfl⟩ := Option.map_eq_some_iff.mp removed
    have same : flushed.permissions = shared.permissions := flushes written
    exact same
  next => cases taken; rfl
  next rows _ _ _ => exact absurd rfl (own _)
  next => cases taken

theorem read_some {access : World PermissionStore AccessRequests.Tab} {request event : Nat × Dashboard.Input}
    (allowed : Portal.read access request = some event) : request = event ∧ ∀ rows, event.2 ≠ .permissions rows := by
  obtain ⟨mover, input⟩ := request
  cases input with
  | permissions rows => cases allowed
  | _ => cases allowed; exact ⟨rfl, nofun⟩

/-- The developer pages read the permissions as the other pages have left them. -/
theorem permissions_agree (executed : run (Portal.step nfkc) (Portal.initial store clients) events = some state) :
    state.2.shared.permissions = state.1.shared.permissions.rows := by
  have agrees := @coupled_agrees _ _ _ _ _ AccessRequests.step (Dashboard.step nfkc) Portal.tell Portal.read
    fun access pages => pages.shared.permissions = access.shared.permissions.rows
  refine agrees ?_ ?_ rfl executed
  · intro access pages next told
    obtain ⟨shared, tab, moved, rfl⟩ := World.step_some.mp told
    cases moved
    rfl
  · intro access pages request event next agreed allowed taken
    obtain ⟨shared, tab, moved, rfl⟩ := World.step_some.mp taken
    exact (advance_permissions (read_some allowed).2 moved).trans agreed

/-- Behind every user who is let onto a developer page there is a chain of grants. -/
theorem opened_letIn (executed : run (Portal.step nfkc) (Portal.initial store clients) events = some final) {uid : UserId}
    (opened : Occurred (Dashboard.step nfkc) (Dashboard.initial ⟨clients, store.permissions.rows⟩)
      ((coupledSecond AccessRequests.step (Dashboard.step nfkc) Portal.tell Portal.read).trace
        (Portal.initial store clients) events)
      fun world event => DashboardOwners.Opens world.shared event.2 uid) :
    ∃ first event second state, events = first ++ event :: second ∧
      run (Portal.step nfkc) (Portal.initial store clients) first = some state ∧ LetIn store first state event uid := by
  obtain ⟨first, event, second, state, split, partway, caused⟩ := coupled_occurred executed opened
  refine ⟨first, event, second, state, split, partway, ?_⟩
  rcases caused with ⟨_, now, impossible | impossible, -⟩ | ⟨request, asked, rfl, allowed, now, shown, permission,
    member, own, active, power⟩
  · cases impossible
  · cases impossible
  · rw [permissions_agree partway] at member
    have alone := coupled_first partway
    have known := (AccessRequests.sound_run alone).granted permission member
    obtain ⟨rfl, -⟩ := read_some allowed
    obtain ⟨index, input⟩ := request
    refine ⟨index, now, permission, ?_, member, own, active, power, trusted_run _ le_rfl alone member, known.imp_right And.right⟩
    rcases shown with rfl | rfl
    · exact .inl rfl
    · exact .inr rfl

/-- A client that was not there at the start belongs to a user who was let onto a
developer page by a permission with such a chain behind it. -/
theorem owners_trusted (executed : run (Portal.step nfkc) (Portal.initial store clients) events = some final)
    {row : RegisteredClient} (stored : row ∈ final.2.shared.clients.rows) :
    (∃ before ∈ clients.rows, before.id = row.id ∧ before.userId = row.userId) ∨
      ∃ first event second state, events = first ++ event :: second ∧
        run (Portal.step nfkc) (Portal.initial store clients) first = some state ∧ LetIn store first state event row.userId := by
  have alone := (coupledSecond AccessRequests.step (Dashboard.step nfkc) Portal.tell Portal.read).run_trace trivial executed
  rcases DashboardOwners.row_owner alone row stored with before | opened
  · exact .inl before
  · exact .inr (opened_letIn executed opened)

end portal

/-- User 1 is the root user that the setup has left, and user 2 has asked to be an administrator. -/
def setUp : PermissionStore where
  permissions := ⟨[{ userId := 1, grantedBy := none, id := 4, permissionType := .root, expirationDate := none, reason := none }],
    by decide⟩
  requests := ⟨[{ requesterId := 2, permissionType := .admin, reason := none, id := 1 }], by decide⟩

/-- User 2 becomes an administrator, and then gives user 9 the developer access that this user asks for. -/
def obtaining : List (Nat × AccessRequests.Input) :=
  [(1, .dashboardAdmin (some 1) 2000000), (1, .decide 1 .approve), (1, .selectPermission), (1, .commit 2000000)] ++
    [(0, .profile 9), (0, .submit (some "shop") 3000000), (0, .commit 3000000)] ++
    [(2, .dashboardAdmin (some 2) 3100000), (2, .decide 2 .approve), (2, .selectPermission), (2, .commit 3100000)]

def obtainedAccess : Permission where
  userId := 9
  grantedBy := some 2
  id := 6
  permissionType := .developer
  expirationDate := none
  reason := some "Approved in admin dashboard"

theorem obtained_access_trusted :
    ∃ final, run AccessRequests.step (AccessRequests.initial setUp) obtaining = some final ∧
      obtainedAccess ∈ final.shared.permissions.rows ∧ Trusted setUp obtaining obtainedAccess := by
  have stored : ∃ final, run AccessRequests.step (AccessRequests.initial setUp) obtaining = some final ∧
      obtainedAccess ∈ final.shared.permissions.rows :=
    ⟨_, rfl, List.mem_cons_of_mem _ (List.mem_cons_of_mem _ List.mem_cons_self)⟩
  obtain ⟨final, executed, member⟩ := stored
  exact ⟨final, executed, member, permissions_trusted executed member⟩

/-- Then the user registers a client. -/
def registering : List Portal.Event :=
  obtaining.map .inl ++
    [.inr (0, .createClientPage (some 9) 3200000),
      .inr (0, .submit (ClientManagement.appForm "client_secret_basic") 1 "shop" ⟨"w", by decide⟩ 3200000)]

theorem registered_owner_trusted :
    ∃ final, run (Portal.step id) (Portal.initial setUp ⟨[], List.nodup_nil⟩) registering = some final ∧
      ∃ row ∈ final.2.shared.clients.rows, row.userId = 9 ∧
        ((∃ before ∈ ([] : List RegisteredClient), before.id = row.id ∧ before.userId = row.userId) ∨
          ∃ first event second state, registering = first ++ event :: second ∧
            run (Portal.step id) (Portal.initial setUp ⟨[], List.nodup_nil⟩) first = some state ∧
            LetIn setUp first state event row.userId) := by
  have stored : ∃ final, run (Portal.step id) (Portal.initial setUp ⟨[], List.nodup_nil⟩) registering = some final ∧
      ∃ row ∈ final.2.shared.clients.rows, row.userId = 9 := ⟨_, rfl, _, List.mem_cons_self, rfl⟩
  obtain ⟨final, executed, row, member, owner⟩ := stored
  exact ⟨final, executed, row, member, owner, owners_trusted executed member⟩

end Satoidc.Proofs.ChainOfTrust
