import Satoidc.Permissions
import Satoidc.SignIn

/-! The setup wizard, which creates the first administrator with a password form or
for a wallet, its execution until it shuts down, and the accounts that it and the
service create over time. -/

namespace Satoidc.SetupWizard
open Foundation

/-- The rows that the wizard reads and writes. -/
structure Store where
  db : Db
  permissions : Table Permission PermissionConstraints

/-- The fields of the password form, as they stand in the page. -/
structure RootForm where
  login : String
  email : String
  nickname : String := "Satoshi"
  password : String
  deriving DecidableEq, Repr

/-- The row of the form's user. The ORM leaves an empty nickname to the column default. -/
def rootUser (host : Host) (uuid : UserId) (salt : Nat) (form : RootForm) : User :=
  { id := uuid
    lnurlPubkey := none
    login := some (stripped form.login)
    email := some (host.lower (stripped form.email))
    nickname := orElse (some (stripped form.nickname)) "Satoshi"
    passwordHash := some (host.hash salt form.password) }

def rootPermission (rows : List Permission) (userId : UserId) : Permission :=
  { userId
    grantedBy := none
    id := nextId Permission.id rows
    permissionType := .root
    expirationDate := none
    reason := some "Initial root user created via setup wizard" }

inductive Submitted where
  | notified (message : String)
  | raised (error : PyError)
  | created (store : Store)

/-- `submit`. The fields are validated as they stand and stripped afterwards; the user
and the permission are committed together. -/
def submit (host : Host) (uuid : UserId) (salt : Nat) (store : Store) (form : RootForm) : Submitted :=
  let validationErrors := validateRegistrationForm host.isValidEmail form.login form.nickname form.password form.email
  if validationErrors ≠ [] then .notified ("\n".intercalate (validationErrors.map Prod.snd))
  else
    match Table.store (store.db.users.rows ++ [rootUser host uuid salt form]),
      Table.store (store.permissions.rows ++ [rootPermission store.permissions.rows uuid]) with
    | some users, some permissions => .created ⟨{ store.db with users }, permissions⟩
    | _, _ => .raised .integrityError

theorem submit_created {host : Host} {uuid : UserId} {salt : Nat} {store after : Store} {form : RootForm}
    (created : submit host uuid salt store form = .created after) :
    validateRegistrationForm host.isValidEmail form.login form.nickname form.password form.email = [] ∧
      after.db.users.rows = store.db.users.rows ++ [rootUser host uuid salt form] ∧
      after.permissions.rows = store.permissions.rows ++ [rootPermission store.permissions.rows uuid] := by
  unfold submit at created
  dsimp only at created
  split at created
  next => cases created
  next valid =>
    split at created
    next users permissions usersStored permissionsStored =>
      cases created
      exact ⟨not_not.mp valid, Table.store_some.mp usersStored, Table.store_some.mp permissionsStored⟩
    next => cases created

/-- `exists_root_user`. -/
def existsRootUser (store : Store) : Bool :=
  store.permissions.rows.any fun permission => permission.permissionType = .root

/-- A page of the wizard: the k1 that its QR code shows, and whether its session still
takes statements, which a failed flush ends. -/
structure Page where
  k1 : Option String := none
  usable : Bool := true
  deriving DecidableEq, Repr

/-- `_event_handler`; nothing comes of an event for another k1. -/
def eventHandler (store : Store) (page : Page) (data : LnurlAuthEvent) : Option Submitted :=
  if some data.k1 ≠ page.k1 then none
  else
    -- `permissions.user_id` is not nullable
    match data.userId.bind fun userId =>
      Table.store (store.permissions.rows ++ [rootPermission store.permissions.rows userId]) with
    | some permissions => some (.created { store with permissions })
    | none => some (.raised .integrityError)

namespace Execution

/-- One execution of the wizard: the wallet callbacks being served, the pages that
visitors have open, and the events that have yet to reach a page. -/
structure State where
  calls : World LnurlCallback.Store LnurlCallback.Phase
  permissions : Table Permission PermissionConstraints
  pages : List Page := []
  deliveries : List (Nat × LnurlAuthEvent) := []
  finalizing : Bool := false
  running : Bool := true

def State.store (state : State) : Store := ⟨state.calls.shared.db, state.permissions⟩

/-- `main`: nothing is served if a root permission exists. -/
def main (store : Store) : Option State :=
  if existsRootUser store then none
  else some { calls := LnurlCallback.initial store.db, permissions := store.permissions }

inductive Event where
  | openPage
  | refreshQrcode (page : Nat) (k1 : String) (now : Instant)
  | callback (call : Nat × LnurlCallback.Input)
  | submit (page : Nat) (uuid : UserId) (salt : Nat) (form : RootForm)
  | handle (delivery : Nat)
  | shutdown

/-- A handler reads nothing from the database, so it is one step, at its commit. -/
def State.after (state : State) (index : Nat) (page : Page) : Submitted → State
  | .notified _ => state
  | .raised _ => { state with pages := state.pages.set index { page with usable := false } }
  | .created store =>
    if page.usable then
      -- `finalizing_setup` only starts the timer that shuts the server down
      { state with
        calls := { state.calls with shared := { state.calls.shared with db := store.db } }
        permissions := store.permissions
        finalizing := true }
    else state

/-- The pages that an event goes to: all that have subscribed so far. -/
def emitted (pages : List Page) : LnurlCallback.Phase → List (Nat × LnurlAuthEvent)
  | .finished _ exit => exit.event.toList.flatMap fun data => (List.range pages.length).map fun page => (page, data)
  | _ => []

def step (env : Settings) (curve : Secp256k1) (host : Host) (state : State) (event : Event) : Option State :=
  if state.running then
    match event with
    | .openPage => some { state with pages := state.pages ++ [{}] }
    | .refreshQrcode index k1 now => do
      let page ← state.pages[index]?
      match page.usable, Accounts.addChallenge state.store.db { k1, action := LnurlAction.register.value, createdAt := now } with
      | true, some db =>
        some { state with
          calls := { state.calls with shared := { state.calls.shared with db } }
          pages := state.pages.set index { page with k1 := some k1 } }
      | _, _ => some { state with pages := state.pages.set index { page with usable := false } }
    | .callback call => do
      let calls ← state.calls.step (LnurlCallback.advance env curve) call
      some { state with calls, deliveries := state.deliveries ++ emitted state.pages (calls.sessions call.1) }
    | .submit index uuid salt form => do
      let page ← state.pages[index]?
      some (state.after index page (submit host uuid salt state.store form))
    | .handle delivery => do
      let (index, data) ← state.deliveries[delivery]?
      let page ← state.pages[index]?
      let taken := { state with deliveries := state.deliveries.eraseIdx delivery }
      match eventHandler state.store page data with
      | none => some taken
      | some submitted => some (taken.after index page submitted)
    | .shutdown => if state.finalizing then some { state with running := false } else none
  else none

end Execution

/-- The operations on accounts, the wizard's among them. -/
inductive Operation where
  | account (operation : Accounts.Operation)
  | submit (uuid : UserId) (salt : Nat) (form : RootForm)

structure Accounts where
  state : Satoidc.Accounts.State
  permissions : Table Permission PermissionConstraints

def Accounts.step (env : Settings) (curve : Secp256k1) (host : Host) (accounts : Accounts) : Operation → Option Accounts
  | .account operation => (Satoidc.Accounts.step env curve host accounts.state operation).map fun state =>
    { accounts with state }
  | .submit uuid salt form =>
    match submit host uuid salt ⟨accounts.state.db, accounts.permissions⟩ form with
    | .created store => some ⟨{ accounts.state with db := store.db }, store.permissions⟩
    | _ => some accounts

def Accounts.initial : Accounts := ⟨Satoidc.Accounts.initial, ⟨[], .nil⟩⟩

end Satoidc.SetupWizard
