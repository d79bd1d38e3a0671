import Satoidc.Dashboard
import Satoidc.Foundation.Provenance
import Satoidc.Proofs.ClientManagement
import Satoidc.Proofs.DeveloperAccess
import Satoidc.Proofs.PageActions

/-! Whose clients the developer pages change. A page writes to the ids of the objects it
has loaded, and these are its user's rows until one of them is deleted. -/

namespace Satoidc.Proofs.DashboardOwners
open Foundation Dashboard

/-- The ids to whose rows an object list writes. -/
def ids (entries : List Entry) : List Nat := entries.map fun entry => entry.client.id

def userOf : Tab → Option UserId
  | .developer userId _ | .createClient userId => some userId
  | .closed => none

def objectsOf : Tab → List Nat
  | .developer _ entries => ids entries
  | .createClient _ | .closed => []

/-- The input opens a page for a user who has developer access at that moment. -/
def Opens (shared : Shared) (input : Input) (uid : UserId) : Prop :=
  ∃ now, (input = .dashboardDeveloper (some uid) now ∨ input = .createClientPage (some uid) now) ∧
    PageActions.Entitled now shared.permissions .createClient uid

section objects
variable {nfkc : String → String} {entries : List Entry}

theorem ids_assign {id : Nat} {client : RegisteredClient} (same : client.id = id) :
    ids (assign id client entries) = ids entries := by
  unfold ids assign
  rw [List.map_map]
  apply List.map_congr_left
  intro entry _
  rw [Function.comp_apply]
  split
  next target => exact same.trans target.symm
  next => rfl

theorem ids_markDeleted (id : Nat) : ids (markDeleted id entries) = ids entries := by
  unfold ids markDeleted
  rw [List.map_map]
  apply List.map_congr_left
  intro entry _
  rw [Function.comp_apply]
  split <;> rfl

theorem ids_settled : ids (settled entries) = ids entries := by
  unfold ids settled
  rw [List.map_map]
  apply List.map_congr_left
  intro entry _
  rw [Function.comp_apply]
  split <;> rfl

theorem perform_id {action : ClientAction} {client after : RegisteredClient} {result : Except FormError Unit}
    (ran : (action.perform nfkc).run client = (result, after)) : after.id = client.id := by
  rcases ClientManagement.perform_cases nfkc client action with ⟨raised, refused⟩ | ⟨changed, accepted, performed⟩
  · cases ran.symm.trans refused
    rfl
  · cases ran.symm.trans accepted
    rw [performed.columns]

end objects

/-- The rows stay with their ids and owners, and only those of the ids change. -/
structure Writes (written : List Nat) (shared after : Shared) : Prop where
  kept : ∀ row ∈ shared.clients.rows, ∃ next ∈ after.clients.rows, next.id = row.id ∧ next.userId = row.userId
  changed : ∀ row ∈ shared.clients.rows, row ∉ after.clients.rows → row.id ∈ written
  old : ∀ row ∈ after.clients.rows, ∃ before ∈ shared.clients.rows, before.id = row.id ∧ before.userId = row.userId

theorem Writes.idle (written : List Nat) (shared : Shared) : Writes written shared shared where
  kept row member := ⟨row, member, rfl, rfl⟩
  changed _ member gone := absurd member gone
  old row member := ⟨row, member, rfl, rfl⟩

theorem flushRow_userId (entries : List Entry) (stored : RegisteredClient) :
    (flushRow entries stored).userId = stored.userId := by
  unfold flushRow
  split <;> rfl

theorem flushRow_other {entries : List Entry} {stored : RegisteredClient} (other : stored.id ∉ ids entries) :
    flushRow entries stored = stored := by
  unfold flushRow
  split
  next entry found =>
    have member := List.mem_of_find?_eq_some found
    have selected := List.find?_some found
    simp only [Bool.and_eq_true, decide_eq_true_eq] at selected
    exact absurd (List.mem_map.mpr ⟨entry, member, selected.2⟩) other
  next => rfl

theorem commit_writes {entries : List Entry} {shared after : Shared} (written : commit entries shared = some after) :
    Writes (ids entries) shared after := by
  unfold commit at written
  split at written
  next =>
    cases written
    have rows : ∀ row, row ∈ update (fun _ => True) (flushRow entries) shared.clients.rows ↔
        ∃ stored ∈ shared.clients.rows, flushRow entries stored = row := by
      intro row
      simp [mem_update]
    refine ⟨?_, ?_, ?_⟩
    · intro row member
      exact ⟨flushRow entries row, (rows _).mpr ⟨row, member, rfl⟩, flushRow_id .., flushRow_userId ..⟩
    · intro row member gone
      by_contra other
      exact gone ((rows row).mpr ⟨row, member, flushRow_other other⟩)
    · intro row member
      obtain ⟨stored, inside, rfl⟩ := (rows row).mp member
      exact ⟨stored, inside, (flushRow_id ..).symm, (flushRow_userId ..).symm⟩
  next => cases written

/-- Whom a step shows pages to, which objects they have, and which rows it changes. -/
structure Traces (shared : Shared) (tab : Tab) (input : Input) (after : Shared) (later : Tab) : Prop where
  users : ∀ uid, userOf later = some uid → userOf tab = some uid ∨ Opens shared input uid
  objects : ∀ uid, userOf later = some uid → ∀ id ∈ objectsOf later,
    (userOf tab = some uid ∧ id ∈ objectsOf tab) ∨ ∃ row ∈ shared.clients.rows, row.id = id ∧ row.userId = uid
  kept : ∀ row ∈ shared.clients.rows,
    (∃ next ∈ after.clients.rows, next.id = row.id ∧ next.userId = row.userId) ∨ input = .delete row.id
  changed : ∀ row ∈ shared.clients.rows, row ∉ after.clients.rows → ∃ uid, userOf tab = some uid ∧ row.id ∈ objectsOf tab
  created : ∀ row ∈ after.clients.rows,
    (∃ before ∈ shared.clients.rows, before.id = row.id ∧ before.userId = row.userId) ∨ userOf tab = some row.userId

section step
variable {nfkc : String → String} {shared after : Shared} {tab later : Tab} {input : Input}

/-- A step that leaves the rows alone. -/
theorem Traces.quiet (clients : after.clients = shared.clients)
    (users : ∀ uid, userOf later = some uid → userOf tab = some uid ∨ Opens shared input uid)
    (known : ∀ uid, userOf later = some uid → ∀ id ∈ objectsOf later,
      (userOf tab = some uid ∧ id ∈ objectsOf tab) ∨ ∃ row ∈ shared.clients.rows, row.id = id ∧ row.userId = uid) :
    Traces shared tab input after later where
  users := users
  objects := known
  kept row member := .inl ⟨row, clients ▸ member, rfl, rfl⟩
  changed _ member gone := absurd (clients ▸ member) gone
  created row member := .inl ⟨row, clients ▸ member, rfl, rfl⟩

theorem Traces.closes : Traces shared tab input shared .closed := .quiet rfl nofun nofun

theorem Traces.remains {userId : UserId} {entries next : List Entry} (same : ids next = ids entries)
    (writes : Writes (ids entries) shared after) :
    Traces shared (.developer userId entries) input after (.developer userId next) where
  users _ shown := .inl shown
  objects _ shown id member := .inl ⟨shown, (same ▸ member : id ∈ ids entries)⟩
  kept row member := .inl (writes.kept row member)
  changed row member gone := ⟨userId, rfl, writes.changed row member gone⟩
  created row member := .inl (writes.old row member)

theorem committed_traces {userId : UserId} {entries assigned : List Entry} (same : ids assigned = ids entries)
    (taken : committed userId assigned shared (commit assigned shared) = (after, later)) :
    Traces shared (.developer userId entries) input after later := by
  cases written : commit assigned shared with
  | none => rw [written] at taken; cases taken; exact .closes
  | some next =>
    rw [written] at taken
    cases taken
    exact .remains (ids_settled.trans same) (same ▸ commit_writes written)

theorem act_traces {userId : UserId} {entries : List Entry} {entry : Entry} {action : ClientAction}
    (taken : act nfkc userId entries entry action shared = (after, later)) :
    Traces shared (.developer userId entries) input after later := by
  unfold act at taken
  split at taken
  next ran =>
    cases taken
    exact .remains (ids_assign (perform_id ran)) (.idle _ shared)
  next ran =>
    have same := @ids_assign entries _ _ (perform_id ran)
    dsimp only at taken
    split at taken
    next => cases taken; exact .remains same (.idle _ shared)
    next => exact committed_traces same taken

theorem delete_traces {userId : UserId} {entries : List Entry} {id : Nat} (known : id ∈ ids entries)
    (taken : delete userId entries id shared = (after, later)) :
    Traces shared (.developer userId entries) (.delete id) after later := by
  unfold delete at taken
  dsimp only at taken
  cases written : commit (markDeleted id entries) shared with
  | none => rw [written] at taken; cases taken; exact .closes
  | some flushed =>
    rw [written] at taken
    cases taken
    have writes := commit_writes written
    rw [ids_markDeleted] at writes
    have stays : ∀ {row}, row.id ≠ id → row ∈ flushed.clients.rows → row ∈ (remove id flushed).clients.rows :=
      fun other member => List.mem_filter.mpr ⟨member, decide_eq_true other⟩
    refine ⟨fun _ shown => .inl shown, ?_, ?_, ?_, ?_⟩
    · intro uid shown other member
      rw [objectsOf, ids_settled, ids_markDeleted] at member
      exact .inl ⟨shown, member⟩
    · intro row member
      by_cases target : row.id = id
      · exact .inr (congrArg Input.delete target.symm)
      · obtain ⟨next, inside, sameId, sameUser⟩ := writes.kept row member
        exact .inl ⟨next, stays (sameId ▸ target) inside, sameId, sameUser⟩
    · intro row member gone
      refine ⟨userId, rfl, ?_⟩
      by_cases target : row.id = id
      · exact target ▸ known
      · exact writes.changed row member fun inside => gone (stays target inside)
    · intro row member
      exact .inl (writes.old row (List.mem_filter.mp member).1)

theorem admitted_some {now : Instant} {permissions : List Permission} {userId : Option UserId} {uid : UserId}
    (passed : admitted now permissions userId = some uid) :
    userId = some uid ∧ PageActions.Entitled now permissions .createClient uid := by
  unfold admitted at passed
  split at passed
  next => cases passed
  next allowed =>
    cases passed
    rw [DeveloperAccess.pageSecurity_eq _ _ (List.cons_ne_nil _ _)] at allowed
    exact ⟨rfl, PageActions.authorizePageRequest_none.mp allowed⟩

theorem opened_traces {userId : Option UserId} {now : Instant} {page : UserId → Tab}
    (asked : ∀ uid, userId = some uid → input = .dashboardDeveloper (some uid) now ∨ input = .createClientPage (some uid) now)
    (shows : ∀ uid, userOf (page uid) = some uid)
    (loads : ∀ uid, ∀ id ∈ objectsOf (page uid), ∃ row ∈ shared.clients.rows, row.id = id ∧ row.userId = uid) :
    Traces shared .closed input shared (((admitted now shared.permissions userId).map page).getD .closed) := by
  cases passed : admitted now shared.permissions userId with
  | none => exact .closes
  | some uid =>
    obtain ⟨given, entitled⟩ := admitted_some passed
    refine .quiet rfl ?_ ?_
    · intro other shown
      cases (shows uid).symm.trans shown
      exact .inr ⟨now, asked uid given, entitled⟩
    · intro other shown id member
      cases (shows uid).symm.trans shown
      exact .inr (loads uid id member)

theorem submit_traces {userId : UserId} {form : ClientForm} {id : Nat} {clientId : String} {secret : Secret} {now : Instant}
    (taken : submit nfkc userId form id clientId secret now shared = some after) :
    Traces shared (.createClient userId) input after (.createClient userId) := by
  unfold submit at taken
  split at taken
  next => cases taken; exact .quiet rfl (fun _ shown => .inl shown) nofun
  next client made =>
    obtain ⟨clients, stored, rfl⟩ := Option.map_eq_some_iff.mp taken
    have rows : clients.rows = shared.clients.rows ++ [client] := Table.store_some.mp stored
    have own : client.userId = userId := by
      unfold createClient at made
      cases built : buildClientMetadata nfkc form with
      | error raised => rw [built] at made; cases made
      | ok metadata => rw [built] at made; cases made; rfl
    refine ⟨fun _ shown => .inl shown, nofun, ?_, ?_, ?_⟩
    · intro row member
      exact .inl ⟨row, rows ▸ List.mem_append_left _ member, rfl, rfl⟩
    · intro row member gone
      exact absurd (rows ▸ List.mem_append_left _ member) gone
    · intro row member
      dsimp only at member
      rw [rows] at member
      rcases List.mem_append.mp member with old | new
      · exact .inl ⟨row, old, rfl, rfl⟩
      · cases List.mem_singleton.mp new
        exact .inr (congrArg some own.symm)

theorem advance_traces {mover : Nat} (taken : advance nfkc mover input shared tab = some (after, later)) :
    Traces shared tab input after later := by
  unfold advance at taken
  split at taken
  next userId now =>
    cases taken
    refine opened_traces (fun uid given => .inl (given ▸ rfl)) (fun _ => rfl) ?_
    intro uid id member
    obtain ⟨entry, inside, rfl⟩ := List.mem_map.mp member
    obtain ⟨client, loaded, rfl⟩ := List.mem_map.mp inside
    obtain ⟨stored, own⟩ := List.mem_filter.mp loaded
    exact ⟨client, stored, rfl, of_decide_eq_true own⟩
  next userId now =>
    cases taken
    exact opened_traces (fun uid given => .inr (given ▸ rfl)) (fun _ => rfl) fun _ => nofun
  next =>
    obtain ⟨next, submitted, same⟩ := Option.map_eq_some_iff.mp taken
    cases same
    exact submit_traces submitted
  next =>
    obtain ⟨entry, -, acted⟩ := Option.map_eq_some_iff.mp taken
    exact act_traces acted
  next id _ entries =>
    obtain ⟨entry, found, deleted⟩ := Option.map_eq_some_iff.mp taken
    have selected := List.find?_some found
    have known : id ∈ ids entries := List.mem_map.mpr ⟨entry, List.mem_of_find?_eq_some found, of_decide_eq_true selected⟩
    exact delete_traces known deleted
  next => cases taken; exact .closes
  next => cases taken; exact .quiet rfl (fun _ shown => .inl shown) fun _ shown _ member => .inl ⟨shown, member⟩
  next => cases taken

end step

/-- The event deletes the client with an id. -/
def Deletes (id : Nat) (event : Nat × Input) : Prop := event.2 = .delete id

section runs
variable {nfkc : String → String} {shared : Shared} {events : List (Nat × Input)} {final : World Shared Tab}

theorem step_traces {world next : World Shared Tab} {event : Nat × Input} (taken : step nfkc world event = some next) :
    Traces world.shared (world.sessions event.1) event.2 next.shared (next.sessions event.1) ∧
      ∀ index, index ≠ event.1 → next.sessions index = world.sessions index := by
  obtain ⟨after, tab, moved, rfl⟩ := World.step_some.mp taken
  rw [World.moved_shared, World.moved_self]
  exact ⟨advance_traces moved, fun index other => World.moved_other _ _ _ other⟩

/-- Pages are shown to users who were let onto a developer page. -/
theorem users (nfkc : String → String) :
    Provenance (step nfkc) Eq (fun world uid => ∃ index, userOf (world.sessions index) = some uid)
      (fun world event uid => Opens world.shared event.2 uid) where
  refl _ := rfl
  trans := Eq.trans
  traced := by
    intro world event next uid taken held
    obtain ⟨index, shown⟩ := held
    obtain ⟨traces, others⟩ := step_traces taken
    refine ⟨uid, rfl, ?_⟩
    by_cases mine : index = event.1
    · rw [mine] at shown
      rcases traces.users uid shown with before | now
      · exact .inl ⟨event.1, before⟩
      · exact .inr now
    · exact .inl ⟨index, others index mine ▸ shown⟩

theorem shown_opened (executed : run (step nfkc) (initial shared) events = some final) {index : Nat} {uid : UserId}
    (shown : userOf (final.sessions index) = some uid) :
    Occurred (step nfkc) (initial shared) events fun world event => Opens world.shared event.2 uid := by
  obtain ⟨source, rfl, first | occurred⟩ := (users nfkc).run executed ⟨index, shown⟩
  · obtain ⟨_, impossible⟩ := first
    cases impossible
  · exact occurred

/-- The row of an object is its user's, unless a row with its id has been deleted. -/
def Backed (nfkc : String → String) (shared : Shared) (past : List (Nat × Input)) (world : World Shared Tab) : Prop :=
  ∀ index uid, userOf (world.sessions index) = some uid → ∀ id ∈ objectsOf (world.sessions index),
    (∃ row ∈ world.shared.clients.rows, row.id = id ∧ row.userId = uid) ∨
      Occurred (step nfkc) (initial shared) past fun _ event => Deletes id event

theorem backed_step {past : List (Nat × Input)} {world next : World Shared Tab} {event : Nat × Input}
    (executed : run (step nfkc) (initial shared) past = some world) (taken : step nfkc world event = some next)
    (backed : Backed nfkc shared past world) : Backed nfkc shared (past ++ [event]) next := by
  obtain ⟨traces, others⟩ := step_traces taken
  have stays : ∀ {id uid}, (∃ row ∈ world.shared.clients.rows, row.id = id ∧ row.userId = uid) →
      (∃ row ∈ next.shared.clients.rows, row.id = id ∧ row.userId = uid) ∨
        Occurred (step nfkc) (initial shared) (past ++ [event]) fun _ event => Deletes id event := by
    rintro id uid ⟨row, member, rfl, rfl⟩
    rcases traces.kept row member with kept | deleted
    · exact .inl kept
    · exact .inr (.last executed deleted)
  have carried : ∀ {index id uid}, userOf (world.sessions index) = some uid → id ∈ objectsOf (world.sessions index) →
      (∃ row ∈ next.shared.clients.rows, row.id = id ∧ row.userId = uid) ∨
        Occurred (step nfkc) (initial shared) (past ++ [event]) fun _ event => Deletes id event := by
    intro index id uid shown member
    rcases backed index uid shown id member with stored | deleted
    · exact stays stored
    · exact .inr (deleted.append [event])
  intro index uid shown id member
  by_cases mine : index = event.1
  · rw [mine] at shown member
    rcases traces.objects uid shown id member with ⟨before, old⟩ | loaded
    · exact carried before old
    · exact stays loaded
  · rw [others index mine] at shown member
    exact carried shown member

theorem backed_run (executed : run (step nfkc) (initial shared) events = some final) : Backed nfkc shared events final := by
  refine run_history (Backed nfkc shared) (fun _ _ shown => (by cases shown)) ?_ (along_true (initial shared) events) executed
  intro past world event next partway backed _ taken
  exact backed_step partway taken backed

/-- A client changes or goes only through a page of a user who was let onto a developer
page before, and who is its owner unless a client with its id was deleted before. -/
theorem changed_by_owner {past : List (Nat × Input)} {world next : World Shared Tab} {event : Nat × Input}
    (executed : run (step nfkc) (initial shared) past = some world) (taken : step nfkc world event = some next)
    {row : RegisteredClient} (stored : row ∈ world.shared.clients.rows) (changed : row ∉ next.shared.clients.rows) :
    ∃ uid, userOf (world.sessions event.1) = some uid ∧
      (Occurred (step nfkc) (initial shared) past fun world event => Opens world.shared event.2 uid) ∧
      (row.userId = uid ∨ Occurred (step nfkc) (initial shared) past fun _ event => Deletes row.id event) := by
  obtain ⟨uid, shown, member⟩ := (step_traces taken).1.changed row stored changed
  refine ⟨uid, shown, shown_opened executed shown, ?_⟩
  rcases backed_run executed event.1 uid shown row.id member with ⟨own, inside, sameId, rfl⟩ | deleted
  · rw [world.shared.clients.valid.unique stored inside sameId.symm]
    exact .inl rfl
  · exact .inr deleted

/-- A new row belongs to the user of the page that it was created on. -/
theorem row_owner (executed : run (step nfkc) (initial shared) events = some final) :
    ∀ row ∈ final.shared.clients.rows, (∃ before ∈ shared.clients.rows, before.id = row.id ∧ before.userId = row.userId) ∨
      Occurred (step nfkc) (initial shared) events fun world event => Opens world.shared event.2 row.userId := by
  refine run_history (fun past world => ∀ row ∈ world.shared.clients.rows,
    (∃ before ∈ shared.clients.rows, before.id = row.id ∧ before.userId = row.userId) ∨
      Occurred (step nfkc) (initial shared) past fun world event => Opens world.shared event.2 row.userId)
    (fun row member => .inl ⟨row, member, rfl, rfl⟩) ?_ (along_true (initial shared) events) executed
  intro past world event next partway known _ taken row member
  rcases (step_traces taken).1.created row member with ⟨before, inside, sameId, sameUser⟩ | shown
  · rcases known before inside with ⟨first, firstMember, firstId, firstUser⟩ | occurred
    · exact .inl ⟨first, firstMember, firstId.trans sameId, firstUser.trans sameUser⟩
    · exact .inr (sameUser ▸ occurred.append [event])
  · exact .inr ((shown_opened partway shown).append [event])

/-- The stored clients stay with their owners until they are deleted. -/
def KeepsOwners (nfkc : String → String) (world : World Shared Tab) (events : List (Nat × Input))
    (final : World Shared Tab) : Prop :=
  ∀ row ∈ world.shared.clients.rows,
    (∃ later ∈ final.shared.clients.rows, later.id = row.id ∧ later.userId = row.userId) ∨
      Occurred (step nfkc) world events fun _ event => Deletes row.id event

theorem keepsOwners_run {world : World Shared Tab} (executed : run (step nfkc) world events = some final) :
    KeepsOwners nfkc world events final := by
  refine run_history (fun past reached => KeepsOwners nfkc world past reached) (fun row member => .inl ⟨row, member, rfl, rfl⟩)
    ?_ (along_true world events) executed
  intro past reached event next partway kept _ taken row member
  rcases kept row member with ⟨later, inside, sameId, sameUser⟩ | deleted
  · rcases (step_traces taken).1.kept later inside with ⟨found, stored, id, user⟩ | deleting
    · exact .inl ⟨found, stored, id.trans sameId, user.trans sameUser⟩
    · exact .inr (.last partway (sameId ▸ deleting))
  · exact .inr (deleted.append [event])

/-- A client belongs to a user who was let onto a developer page, if it was not there
before; and from any moment on, no client changes hands. -/
theorem owners_opened (executed : run (step nfkc) (initial shared) events = some final) :
    (∀ row ∈ final.shared.clients.rows, (∃ before ∈ shared.clients.rows, before.id = row.id ∧ before.userId = row.userId) ∨
      Occurred (step nfkc) (initial shared) events fun world event => Opens world.shared event.2 row.userId) ∧
    ∀ first second world, events = first ++ second → run (step nfkc) (initial shared) first = some world →
      KeepsOwners nfkc world second final := by
  refine ⟨row_owner executed, ?_⟩
  rintro first second world rfl partway
  obtain ⟨_, same, rest⟩ := run_append_some.mp executed
  cases partway.symm.trans same
  exact keepsOwners_run rest

end runs

/-- User 7 is a developer. -/
def oneDeveloper : Shared where
  clients := ⟨[], List.nodup_nil⟩
  permissions :=
    [{ userId := 7, grantedBy := none, id := 1, permissionType := .developer, expirationDate := none, reason := none }]

def registered : List (Nat × Input) :=
  [(0, .createClientPage (some 7) 5000000),
    (0, .submit (ClientManagement.appForm "client_secret_basic") 1 "abc" ⟨"s", by decide⟩ 5000000),
    (1, .dashboardDeveloper (some 7) 6000000)]

def disabling : Nat × Input := (1, .act 1 (.toggle ⟨8000000, by decide⟩))

def afterRegistration : World Shared Tab := (run (step id) (initial oneDeveloper) registered).getD (initial oneDeveloper)

theorem afterRegistration_reached : run (step id) (initial oneDeveloper) registered = some afterRegistration := rfl

/-- The client is disabled, and a second one of the same user's is deleted again. -/
def managed : List (Nat × Input) :=
  [(0, .createClientPage (some 7) 5000000),
    (0, .submit (ClientManagement.appForm "client_secret_basic") 1 "abc" ⟨"s", by decide⟩ 5000000),
    (0, .submit (ClientManagement.appForm "none") 2 "def" ⟨"two", by decide⟩ 5500000)] ++
    [(1, .dashboardDeveloper (some 7) 6000000), (1, .act 1 (.toggle ⟨8000000, by decide⟩)), (1, .delete 2)]

theorem registered_owner :
    ∃ final, run (step id) (initial oneDeveloper) managed = some final ∧
      final.shared.clients.rows.map RegisteredClient.id = [1] ∧
      (∀ row ∈ final.shared.clients.rows,
        (∃ before ∈ oneDeveloper.clients.rows, before.id = row.id ∧ before.userId = row.userId) ∨
          Occurred (step id) (initial oneDeveloper) managed fun world event => Opens world.shared event.2 row.userId) ∧
      ∀ first second world, managed = first ++ second → run (step id) (initial oneDeveloper) first = some world →
        KeepsOwners id world second final :=
  ⟨_, rfl, rfl, owners_opened rfl⟩

def afterDisabling : World Shared Tab := (step id afterRegistration disabling).getD afterRegistration

theorem afterDisabling_next : step id afterRegistration disabling = some afterDisabling := rfl

theorem disabled_by_owner :
    ∃ row ∈ afterRegistration.shared.clients.rows, row ∉ afterDisabling.shared.clients.rows ∧
      ∃ uid, userOf (afterRegistration.sessions disabling.1) = some uid ∧
        (Occurred (step id) (initial oneDeveloper) registered fun world event => Opens world.shared event.2 uid) ∧
        (row.userId = uid ∨ Occurred (step id) (initial oneDeveloper) registered fun _ event => Deletes row.id event) := by
  obtain ⟨row, rows⟩ : ∃ row, afterRegistration.shared.clients.rows = [row] := ⟨_, rfl⟩
  have stored : row ∈ afterRegistration.shared.clients.rows := rows ▸ List.mem_singleton.mpr rfl
  have enabled : afterRegistration.shared.clients.rows.map RegisteredClient.isClientDisabled = [false] := rfl
  have disabled : afterDisabling.shared.clients.rows.map RegisteredClient.isClientDisabled = [true] := rfl
  have changed : row ∉ afterDisabling.shared.clients.rows := by
    intro same
    have before := List.mem_map_of_mem (f := RegisteredClient.isClientDisabled) stored
    have after := List.mem_map_of_mem (f := RegisteredClient.isClientDisabled) same
    rw [enabled, List.mem_singleton] at before
    rw [disabled, List.mem_singleton] at after
    cases before.symm.trans after
  exact ⟨row, stored, changed, changed_by_owner afterRegistration_reached afterDisabling_next stored changed⟩

end Satoidc.Proofs.DashboardOwners
