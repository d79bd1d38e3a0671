import Satoidc.SignIn
import Satoidc.Foundation.QueryString

/-! The way of a destination through signing in: from the middleware that bounces its
request to the pages, and from these through forms, redirects and query strings to the
route that signs the browser in. -/

namespace Satoidc
open Foundation

namespace AuthMiddleware

def publicPrefixes : List String := ["/_nicegui", "/oauth", "/api", "/auth/lnurl", "/.well-known"]

def publicExact : List String := ["/register", "/login", "/logout", "/health", "/forbidden", "/"]

inductive Dispatched where
  | passed
  | redirected (url : String)
  deriving DecidableEq, Repr

/-- The path of a request with its query, if it has one. -/
def fullPath (path query : String) : String := path ++ if query = "" then "" else "?" ++ query

def dispatch (path query : String) (session : Session) : Dispatched :=
  if path ∈ publicExact then .passed
  else if publicPrefixes.any fun start => start.toList.isPrefixOf path.toList then .passed
  else if session.userId = none then .redirected ("/login?redirect_to=" ++ quote (fullPath path query))
  else .passed

end AuthMiddleware

/-- `_hidden_value`. -/
def hiddenValue (value : String) : String :=
  String.ofList (value.toList.flatMap fun c => if c.toNat = 0x27 then "&#x27;".toList else [c])

/-- `html.escape(text, quote=True)`. -/
def escape (text : String) : String :=
  String.ofList (text.toList.flatMap fun c => match c.toNat with
    | 0x26 => "&amp;".toList
    | 0x3c => "&lt;".toList
    | 0x3e => "&gt;".toList
    | 0x22 => "&quot;".toList
    | 0x27 => "&#x27;".toList
    | _ => [c])

/-- What comes back in a form for a hidden input, by the text its page puts between the
quotes of `value='…'`: the props of NiceGUI, the browser and FastAPI. An input that is a
number in hex comes back as it is. -/
structure Forms where
  received : String → Option String
  hex : ∀ text, text ≠ "" → text.toList.all isHexDigit = true → received text = some text

/-- A `uuid.uuid4().hex`. -/
structure Nonce where
  text : String
  nonempty : text ≠ ""
  digits : text.toList.all isHexDigit = true

namespace Navigation

/-- The parameter that a page gets from the URL it is requested at. -/
def redirectTo (default url : String) : Option String :=
  some ((queryParameter "redirect_to" (requestQuery url)).getD default)

/-- The login or register page at a URL. -/
def visit (host : Host) (kind : PageKind) (browser : Nat) (nonce : Nonce) (session : Session) (url : String) :
    Except PyError SignIn.Rendered :=
  SignIn.openPage host kind browser nonce.text session (redirectTo "/profile" url)

/-- Where `lnurl_redirect` sends a browser that requests a URL. -/
def visitLnurlRedirect (host : Host) (storage : String → Option UserId) (session : Session) (url : String) :
    Except PyError String :=
  (lnurlRedirect host storage session (redirectTo "/" url)).map fun result => result.2.2

/-- What a person enters on a login page, and the database as it is then. -/
structure LoginAttempt where
  db : Db
  identifier : String
  password : String

def postLogin (host : Host) (forms : Forms) (session : Session) (page : SignIn.Page) (attempt : LoginAttempt) :
    Session × Except PyError String :=
  loginPost host attempt.db session
    { identifier := attempt.identifier
      password := attempt.password
      redirectTo := forms.received (hiddenValue page.redirectTo)
      loginNonce := forms.received page.nonce }

/-- A form that is filled in on a register page, but for its hidden input. -/
structure RegisterAttempt where
  db : Db
  uuid : UserId
  salt : Nat
  form : RegisterForm

def postRegister (host : Host) (forms : Forms) (session : Session) (page : SignIn.Page) (attempt : RegisterAttempt) :
    Session × Except PyError String :=
  (registerPost host attempt.uuid attempt.salt attempt.db session
    { attempt.form with redirectTo := (forms.received (escape page.redirectTo)).or (some "/profile") }).2

/-- The page after posts that each sent the browser back to one, with the nonces of the
pages they led to. -/
def retry {α : Type} (host : Host) (post : Session → SignIn.Page → α → Session × Except PyError String) :
    Session → SignIn.Page → List (α × Nonce) → Except PyError SignIn.Rendered
  | session, page, [] => .ok (.shown session page)
  | session, page, (attempt, nonce) :: later => do
    let (session, answer) := post session page attempt
    match ← visit host page.kind page.browser nonce session (← answer) with
    | .shown session page => retry host post session page later
    | .redirected url => .ok (.redirected url)

end Navigation

end Satoidc
