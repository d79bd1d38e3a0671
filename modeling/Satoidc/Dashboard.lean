import Satoidc.Clients
import Satoidc.PermissionQueries
import Satoidc.Foundation.Interleaving

/-! The developer pages of all users at once. A page loads the clients of the user it
was rendered for and works on these objects as long as it is open; what it writes goes
to whatever row has an object's id by then. -/

namespace Satoidc.Dashboard
open Foundation

structure Shared where
  clients : Table RegisteredClient (Keyed RegisteredClient.id)
  permissions : List Permission

/-- A client object in the session of a page. One that was deleted cannot be added to
the session again, so changes to it stay where they are. -/
structure Entry extends ClientPages.Page where
  deleted : Bool := false

inductive Tab where
  | closed
  | developer (userId : UserId) (entries : List Entry)
  | createClient (userId : UserId)

/-- `submit` brings the id that the database chooses, which may be one of a deleted row. -/
inductive Input where
  | dashboardDeveloper (userId : Option UserId) (now : Instant)
  | createClientPage (userId : Option UserId) (now : Instant)
  | submit (form : ClientForm) (id : Nat) (clientId : String) (secret : Secret) (now : Instant)
  | act (id : Nat) (action : ClientAction)
  | delete (id : Nat)
  | close
  | permissions (rows : List Permission)

/-- The user that `page_security` lets onto the two pages. -/
def admitted (now : Instant) (permissions : List Permission) (userId : Option UserId) : Option UserId :=
  match PermissionQueries.pageSecurity now permissions userId [.developer, .admin] with
  | some _ => none
  | none => userId

def dashboardDeveloper (shared : Shared) (userId : UserId) : Tab :=
  .developer userId ((shared.clients.rows.filter fun client => client.userId = userId).map fun client =>
    { loaded := client, client })

/-- What the flush leaves of a stored row. -/
def flushRow (entries : List Entry) (stored : RegisteredClient) : RegisteredClient :=
  match entries.find? fun entry => !entry.deleted && entry.client.id = stored.id with
  | some entry => entry.loaded.flush entry.client stored
  | none => stored

theorem flushRow_id (entries : List Entry) (stored : RegisteredClient) : (flushRow entries stored).id = stored.id := by
  unfold flushRow
  split <;> rfl

/-- Each object that has changed still has its row. -/
def flushable (entries : List Entry) (rows : List RegisteredClient) : Bool :=
  entries.all fun entry => entry.deleted || entry.loaded = entry.client || rows.any (·.id = entry.client.id)

/-- `session.commit()`, which writes every object of the session. -/
def commit (entries : List Entry) (shared : Shared) : Option Shared :=
  if flushable entries shared.clients.rows then
    some { shared with clients := shared.clients.update (fun _ => True) (flushRow entries) (flushRow_id entries) }
  else none

def settled (entries : List Entry) : List Entry :=
  entries.map fun entry => if entry.deleted then entry else { entry with loaded := entry.client }

def assign (id : Nat) (client : RegisteredClient) (entries : List Entry) : List Entry :=
  entries.map fun entry => if entry.client.id = id then { entry with client } else entry

def markDeleted (id : Nat) (entries : List Entry) : List Entry :=
  entries.map fun entry => if entry.client.id = id then { entry with deleted := true } else entry

/-- A failed flush leaves the session of the page unusable. -/
def committed (userId : UserId) (entries : List Entry) (shared : Shared) : Option Shared → Shared × Tab
  | none => (shared, .closed)
  | some after => (after, .developer userId (settled entries))

def act (nfkc : String → String) (userId : UserId) (entries : List Entry) (entry : Entry) (action : ClientAction)
    (shared : Shared) : Shared × Tab :=
  match (action.perform nfkc).run entry.client with
  | (.error _, client) => (shared, .developer userId (assign entry.client.id client entries))
  | (.ok _, client) =>
    let entries := assign entry.client.id client entries
    if entry.deleted then (shared, .developer userId entries)
    else committed userId entries shared (commit entries shared)

/-- `DELETE ... WHERE id = ...`, which a row that is gone already does not make fail. -/
def remove (id : Nat) (shared : Shared) : Shared :=
  { shared with clients := ⟨shared.clients.rows.filter fun client => client.id ≠ id, shared.clients.valid.filter _⟩ }

def delete (userId : UserId) (entries : List Entry) (id : Nat) (shared : Shared) : Shared × Tab :=
  let entries := markDeleted id entries
  committed userId entries shared ((commit entries shared).map (remove id))

def submit (nfkc : String → String) (userId : UserId) (form : ClientForm) (id : Nat) (clientId : String) (secret : Secret)
    (now : Instant) (shared : Shared) : Option Shared :=
  match createClient nfkc form id userId clientId secret now with
  | .error _ => some shared
  | .ok client => (Table.store (shared.clients.rows ++ [client])).map fun clients => { shared with clients }

def advance (nfkc : String → String) (_ : Nat) : Input → Shared → Tab → Option (Shared × Tab)
  | .dashboardDeveloper userId now, shared, .closed =>
    some (shared, ((admitted now shared.permissions userId).map (dashboardDeveloper shared)).getD .closed)
  | .createClientPage userId now, shared, .closed =>
    some (shared, ((admitted now shared.permissions userId).map .createClient).getD .closed)
  | .submit form id clientId secret now, shared, .createClient userId =>
    (submit nfkc userId form id clientId secret now shared).map fun after => (after, .createClient userId)
  | .act id action, shared, .developer userId entries =>
    (entries.find? fun entry => entry.client.id = id).map fun entry => act nfkc userId entries entry action shared
  | .delete id, shared, .developer userId entries =>
    (entries.find? fun entry => entry.client.id = id).map fun _ => delete userId entries id shared
  | .close, shared, _ => some (shared, .closed)
  | .permissions rows, shared, tab => some ({ shared with permissions := rows }, tab)
  | _, _, _ => none

def step (nfkc : String → String) : World Shared Tab → Nat × Input → Option (World Shared Tab) := World.step (advance nfkc)

def initial (shared : Shared) : World Shared Tab := ⟨shared, fun _ => .closed⟩

end Satoidc.Dashboard
