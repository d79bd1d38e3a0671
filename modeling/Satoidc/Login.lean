import Satoidc.Lnurl
import Satoidc.Validators

/-! Signing in and registering: the redirect check and the form routes of the
login and registration pages. A route returns the value it hands to
`RedirectResponse` or `ui.navigate.to`. -/

namespace Satoidc
open Foundation

/-- What the account routes call outside the service: Unicode normalization and
lowercasing, pydantic's email validation, and pwdlib's salted hashing. -/
structure Host where
  nfkc : String → String
  lower : String → String
  isValidEmail : String → Bool
  hash : Nat → String → String
  verify : String → Option String → Except PyError Bool

/-- A stand-in for ASCII input, whose hashes are the salt and the password. -/
def Host.ascii : Host where
  nfkc text := text
  lower text := String.ofList (text.toList.map Char.toLower)
  isValidEmail text := '@' ∈ text.toList
  hash salt password := toString salt ++ "$" ++ password
  verify password
    | none => .error .unknownHash
    | some hash => .ok (String.ofList ((hash.toList.dropWhile (· ≠ '$')).tail) = password)

/-- Only relative redirects are accepted. -/
def safeRedirect (host : Host) (redirectTo : Option String) : Except PyError String :=
  match redirectTo with
  | none => .ok "/"
  | some text =>
    if text = "" then .ok "/"
    else match urlsplit host.nfkc text with
      | none => .error .invalidUrl
      | some parsed =>
        if parsed.scheme ≠ "" ∨ parsed.netloc ≠ "" then .ok "/"
        else if text.toList.head? ≠ some '/' then .ok "/"
        else .ok text

/-- The keys of `request.session` that the sign-in routes use. -/
structure Session where
  userId : Option UserId := none
  loginNonce : Option String := none
  deriving DecidableEq, Repr

/-- `not value` is false. -/
def truthy (value : Option String) : Bool := value ≠ none && value ≠ some ""

structure LoginForm where
  identifier : String
  password : String
  redirectTo : Option String := none
  loginNonce : Option String := none
  deriving DecidableEq, Repr

def Db.userByIdentifier (db : Db) (identifier : String) : Option User :=
  db.users.rows.find? fun user => user.email = some identifier || user.login = some identifier

def loginPost (host : Host) (db : Db) (session : Session) (form : LoginForm) : Session × Except PyError String :=
  let expectedNonce := session.loginNonce
  let session := { session with loginNonce := none }
  if !truthy expectedNonce || !truthy form.loginNonce || form.loginNonce ≠ expectedNonce then
    (session, .ok "/login?err=bad_flow")
  else match safeRedirect host form.redirectTo with
    | .error raised => (session, .error raised)
    | .ok nxt =>
      let invalid := "/login?err=invalid&redirect_to=" ++ quote nxt
      match db.userByIdentifier form.identifier with
      | none => (session, .ok invalid)
      | some user =>
        match host.verify form.password user.passwordHash with
        | .error raised => (session, .error raised)
        | .ok false => (session, .ok invalid)
        | .ok true => ({ session with userId := some user.id }, .ok nxt)

theorem loginPost_nonce (host : Host) (db : Db) (cookie : Session) (form : LoginForm) :
    (loginPost host db cookie form).1.loginNonce = none := by
  unfold loginPost
  dsimp only
  split
  · rfl
  · split
    · rfl
    · split
      · rfl
      · split <;> rfl

/-- `lnurl_redirect`, with the `lnurl_auth_temp_storage` it takes the user from. -/
def lnurlRedirect (host : Host) (storage : String → Option UserId) (session : Session) (redirectTo : Option String) :
    Except PyError ((String → Option UserId) × Session × String) := do
  let redirectTo ← safeRedirect host redirectTo
  match session.loginNonce with
  | none => .ok (storage, session, redirectTo)
  | some expectedNonce =>
    let userId := if truthy session.loginNonce then storage expectedNonce else none
    let storage := Function.update storage expectedNonce none
    .ok (storage, { session with userId := userId.or session.userId }, redirectTo)

structure RegisterForm where
  login : String
  email : String
  nickname : Option String := none
  password : String
  confirmPassword : String
  redirectTo : Option String := some "/profile"
  termsAccepted : Bool := false
  deriving DecidableEq, Repr

def registerRedirect (host : Host) (err : String) (redirectTo : Option String) : Except PyError String := do
  let redirectTo ← safeRedirect host redirectTo
  .ok ("/register?err=" ++ err ++ "&redirect_to=" ++ quote redirectTo)

def stripped (text : String) : String := String.ofList (strip text.toList)

namespace RegisterForm

/-- The values of the form's fields once `register_post` has cleaned them. -/
def cleanLogin (form : RegisterForm) : String := stripped form.login

def cleanEmail (host : Host) (form : RegisterForm) : String := host.lower (stripped form.email)

def cleanNickname (form : RegisterForm) : String := orElse (some (stripped (form.nickname.getD ""))) "Satoshi"

end RegisterForm

/-- The row that a valid form registers under a new id. -/
def registeredUser (host : Host) (uuid : UserId) (salt : Nat) (form : RegisterForm) : User :=
  { id := uuid
    lnurlPubkey := none
    login := some form.cleanLogin
    email := some (form.cleanEmail host)
    nickname := form.cleanNickname
    passwordHash := some (host.hash salt form.password) }

/-- What `register_post` answers before it writes: an error redirect, or the
target of a registration that goes ahead. -/
inductive RegisterCheck where
  | refused (err : String) (redirectTo : String)
  | accepted (redirectTo : String)
  deriving DecidableEq, Repr

def registerCheck (host : Host) (db : Db) (form : RegisterForm) : Except PyError RegisterCheck := do
  let redirectTo ← safeRedirect host form.redirectTo
  if !form.termsAccepted then .ok (.refused "terms" redirectTo)
  else if validateRegistrationForm host.isValidEmail form.cleanLogin form.cleanNickname form.password
      (form.cleanEmail host) ≠ [] then .ok (.refused "invalid" redirectTo)
  else if form.password ≠ form.confirmPassword then .ok (.refused "password_mismatch" redirectTo)
  else if db.users.rows.any fun user => user.login = some form.cleanLogin || user.email = some (form.cleanEmail host) then
    .ok (.refused "duplicate" redirectTo)
  else .ok (.accepted redirectTo)

def registerPost (host : Host) (uuid : UserId) (salt : Nat) (db : Db) (session : Session) (form : RegisterForm) :
    Db × Session × Except PyError String :=
  match registerCheck host db form with
  | .error raised => (db, session, .error raised)
  | .ok (.refused err redirectTo) => (db, session, registerRedirect host err (some redirectTo))
  | .ok (.accepted redirectTo) =>
    match Table.store (db.users.rows ++ [registeredUser host uuid salt form]) with
    | none => (db, session, .error .integrityError)
    | some users => ({ db with users }, { session with userId := some uuid }, .ok redirectTo)

theorem registerPost_keeps (host : Host) (uuid : UserId) (salt : Nat) (db : Db) (cookie : Session) (form : RegisterForm) :
    (registerPost host uuid salt db cookie form).2.1.loginNonce = cookie.loginNonce ∧
      (registerPost host uuid salt db cookie form).1.challenges = db.challenges := by
  unfold registerPost
  split
  · exact ⟨rfl, rfl⟩
  · exact ⟨rfl, rfl⟩
  · split
    · exact ⟨rfl, rfl⟩
    · exact ⟨rfl, rfl⟩

end Satoidc
