import Satoidc.Login

/-! The profile page. It loads its user once, when it is rendered, and every
action writes from that object; the columns an action does not change are not
written. -/

namespace Satoidc
open Foundation

/-- The columns an ORM flush writes to a stored user. -/
def User.flush (loaded updated stored : User) : User :=
  { stored with
    lnurlPubkey := writeColumn loaded.lnurlPubkey updated.lnurlPubkey stored.lnurlPubkey
    email := writeColumn loaded.email updated.email stored.email
    login := writeColumn loaded.login updated.login stored.login
    passwordHash := writeColumn loaded.passwordHash updated.passwordHash stored.passwordHash
    nickname := writeColumn loaded.nickname updated.nickname stored.nickname }

@[simp] theorem User.flush_id (loaded updated stored : User) : (loaded.flush updated stored).id = stored.id := rfl

namespace Profile

/-- How a page action ends: with a notification and the page's user as it is now,
or with an exception. -/
inductive Saved where
  | notified (db : Db) (user : User) (message : String)
  | raised (error : PyError)

def commit (db : Db) (loaded updated : User) (message : String) : Saved :=
  match Table.store (update (fun stored => stored.id = loaded.id) (loaded.flush updated) db.users.rows) with
  | none => .raised .integrityError
  | some users => .notified { db with users } updated message

def saveNickname (db : Db) (user : User) (nickname : String) : Saved :=
  let value := stripped nickname
  if !isValidNickname value then .notified db user "Invalid nickname format."
  else commit db user { user with nickname := orElse (some value) "Satoshi" } "Nickname updated."

def saveEmail (host : Host) (db : Db) (user : User) (email : String) : Saved :=
  let value := host.lower (stripped email)
  if !host.isValidEmail value then .notified db user "Invalid email address."
  else if db.users.rows.any fun other => other.email = some value && other.id ≠ user.id then
    .notified db user "Email is already in use."
  else commit db user { user with email := some value } "Email updated."

/-- The password dialog asks for the current password when the account had one as
it was opened; otherwise there is none to check. -/
structure PasswordForm where
  currentPassword : Option String
  newPassword : String
  confirmPassword : String
  deriving DecidableEq, Repr

def savePassword (host : Host) (salt : Nat) (db : Db) (user : User) (form : PasswordForm) : Saved :=
  match form.currentPassword.elim (.ok true) fun current => host.verify current user.passwordHash with
  | .error raised => .raised raised
  | .ok false => .notified db user "Current password is incorrect."
  | .ok true =>
    if !isValidPassword form.newPassword then .notified db user "New password is too weak."
    else if form.newPassword ≠ form.confirmPassword then .notified db user "Passwords do not match."
    else commit db user { user with passwordHash := some (host.hash salt form.newPassword) } "Password updated."

def unlink (db : Db) (user : User) : Saved :=
  if !truthy user.passwordHash then .notified db user "Set a password before unlinking this wallet."
  else commit db user { user with lnurlPubkey := none } "Wallet unlinked."

end Profile

namespace Accounts

structure State where
  db : Db
  pages : Nat → Option User

/-- One of the operations on accounts, run alone. A page is a number. -/
inductive Operation where
  | register (uuid : UserId) (salt : Nat) (session : Session) (form : RegisterForm)
  | issue (k1 : String) (action : LnurlAction) (now : Instant)
  | callback (uuid : UserId) (query : LnurlAuthCallbackIn) (now : Instant)
  | openProfile (page : Nat) (userId : UserId)
  | issueLink (page : Nat) (k1 : String) (now : Instant)
  | nickname (page : Nat) (nickname : String)
  | email (page : Nat) (email : String)
  | password (page : Nat) (salt : Nat) (form : Profile.PasswordForm)
  | unlink (page : Nat)

def addChallenge (db : Db) (challenge : LnurlAuthChallenge) : Option Db :=
  (Table.store (db.challenges.rows ++ [challenge])).map fun challenges => { db with challenges }

/-- The state after an action of a page. A failed flush leaves the session of the
page unusable. -/
def saved (state : State) (page : Nat) : Profile.Saved → State
  | .notified db user _ => ⟨db, Function.update state.pages page (some user)⟩
  | .raised .integrityError => ⟨state.db, Function.update state.pages page none⟩
  | .raised _ => state

def onPage (state : State) (page : Nat) (action : User → Profile.Saved) : Option State :=
  (state.pages page).map fun user => saved state page (action user)

def step (env : Settings) (curve : Secp256k1) (host : Host) (state : State) : Operation → Option State
  | .register uuid salt session form => some { state with db := (registerPost host uuid salt state.db session form).1 }
  | .issue k1 action now =>
    (addChallenge state.db { k1, action := action.value, createdAt := now }).map fun db => { state with db }
  | .callback uuid query now => some { state with db := (lnurlAuthCallback env curve now uuid state.db query).1 }
  | .openProfile page userId =>
    (state.db.userById userId).map fun user => { state with pages := Function.update state.pages page (some user) }
  | .issueLink page k1 now => do
    let user ← state.pages page
    let db ← addChallenge state.db { k1, userId := some user.id, action := "link", createdAt := now }
    some { state with db }
  | .nickname page nickname => onPage state page fun user => Profile.saveNickname state.db user nickname
  | .email page email => onPage state page fun user => Profile.saveEmail host state.db user email
  | .password page salt form => onPage state page fun user => Profile.savePassword host salt state.db user form
  | .unlink page => onPage state page fun user => Profile.unlink state.db user

def initial : State := ⟨⟨⟨[], by decide⟩, ⟨[], List.nodup_nil⟩⟩, fun _ => none⟩

end Accounts

end Satoidc
