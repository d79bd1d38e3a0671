import Satoidc.Profile

/-! The login and register pages, which wait for a wallet to complete the k1 they
show, and the requests that end in a signed-in session. -/

namespace Satoidc
open Foundation

inductive PageKind where
  | login | register
  deriving DecidableEq, Repr

/-- The action of the challenges that a page draws. -/
def PageKind.action : PageKind → LnurlAction
  | .login => .login
  | .register => .register

def encodeQueryValue (value : String) : String := quote value

/-- Where the event handler of a page sends its browser. -/
def PageKind.lnurlRedirectUrl : PageKind → String → String
  | .login, redirectTo => "/auth/lnurl/redirect?redirect_to=" ++ encodeQueryValue redirectTo
  | .register, redirectTo => "/auth/lnurl/redirect?redirect_to=" ++ redirectTo

namespace SignIn

/-- A page that a browser shows, as the closures of its render hold it: the k1 of its
QR code, and where it has sent the browser. -/
structure Page where
  browser : Nat
  nonce : String
  kind : PageKind
  redirectTo : String
  k1 : Option String := none
  location : Option String := none
  deriving DecidableEq

inductive Rendered where
  | redirected (url : String)
  | shown (session : Session) (page : Page)

/-- `login_page` and `register_page`, with the nonce that they draw. -/
def openPage (host : Host) (kind : PageKind) (browser : Nat) (nonce : String) (session : Session)
    (redirectTo : Option String) : Except PyError Rendered := do
  let redirectTo ← safeRedirect host redirectTo
  if session.userId ≠ none then .ok (.redirected redirectTo)
  else .ok (.shown { session with loginNonce := some nonce } { browser, nonce, kind, redirectTo })

/-- `refresh_qrcode`, with the k1 that the new challenge gets. -/
def refreshQrcode (db : Db) (page : Page) (k1 : String) (now : Instant) : Option (Db × Page) :=
  (Accounts.addChallenge db { k1, action := page.kind.action.value, createdAt := now }).map fun db =>
    (db, { page with k1 := some k1 })

/-- `_event_handler`, with the `lnurl_auth_temp_storage` it writes to. -/
def eventHandler (storage : String → Option UserId) (page : Page) (data : LnurlAuthEvent) :
    (String → Option UserId) × Page :=
  if some data.k1 = page.k1 then
    (Function.update storage page.nonce data.userId,
      { page with location := some (page.kind.lnurlRedirectUrl page.redirectTo) })
  else (storage, page)

/-- The service and the browsers. A session is a signed cookie: a request may bring any
that its browser was ever given, and its answer gives it another. -/
structure State where
  db : Db
  storage : String → Option UserId
  cookies : Nat → List Session
  /-- Every page rendered so far. -/
  pages : List Page
  /-- The events that callbacks have emitted. -/
  emitted : List LnurlAuthEvent
  /-- The runs of event handlers that are due: a page and an event, by their numbers. -/
  pending : List (Nat × Nat)

inductive Request where
  | page (kind : PageKind) (redirectTo : Option String) (nonce : String)
  | lnurlRedirect (redirectTo : Option String)
  | loginPost (form : LoginForm)
  | registerPost (uuid : UserId) (salt : Nat) (form : RegisterForm)
  | logout

inductive Event where
  | request (browser : Nat) (cookie : Session) (request : Request)
  | refresh (page : Nat) (k1 : String) (now : Instant)
  | callback (query : LnurlAuthCallbackIn) (now : Instant) (uuid : UserId)
  | handle (page event : Nat)

namespace State

def give (state : State) (browser : Nat) (session : Session) : State :=
  { state with cookies := Function.update state.cookies browser (session :: state.cookies browser) }

/-- `lnurl_auth_events.call`: a run of its handler is due on every page there is. -/
def emit (state : State) (event : LnurlAuthEvent) : State :=
  { state with
    emitted := state.emitted ++ [event]
    pending := state.pending ++ (List.range state.pages.length).map fun page => (page, state.emitted.length) }

end State

/-- A request that raises is answered without a cookie. -/
def respond (host : Host) (state : State) (browser : Nat) (cookie : Session) : Request → State
  | .page kind redirectTo nonce =>
    match openPage host kind browser nonce cookie redirectTo with
    | .error _ => state
    | .ok (.redirected _) => state.give browser cookie
    | .ok (.shown session page) => { state.give browser session with pages := state.pages ++ [page] }
  | .lnurlRedirect redirectTo =>
    match Satoidc.lnurlRedirect host state.storage cookie redirectTo with
    | .error _ => state
    | .ok (storage, session, _) => { state.give browser session with storage }
  | .loginPost form =>
    match Satoidc.loginPost host state.db cookie form with
    | (_, .error _) => state
    | (session, .ok _) => state.give browser session
  | .registerPost uuid salt form =>
    match Satoidc.registerPost host uuid salt state.db cookie form with
    | (_, _, .error _) => state
    | (db, session, .ok _) => { state.give browser session with db }
  | .logout => state.give browser {}

def step (env : Settings) (curve : Secp256k1) (host : Host) (state : State) : Event → Option State
  | .request browser cookie request =>
    if cookie ∈ state.cookies browser then some (respond host state browser cookie request) else none
  | .refresh page k1 now => do
    let shown ← state.pages[page]?
    let (db, shown) ← refreshQrcode state.db shown k1 now
    some { state with db, pages := state.pages.set page shown }
  | .callback query now uuid =>
    let (db, phase) := lnurlAuthCallback env curve now uuid state.db query
    match phase with
    | .finished _ ⟨_, some event⟩ => some ({ state with db }.emit event)
    | _ => some { state with db }
  | .handle page event =>
    if (page, event) ∈ state.pending then do
      let shown ← state.pages[page]?
      let data ← state.emitted[event]?
      let (storage, shown) := eventHandler state.storage shown data
      some { state with storage, pages := state.pages.set page shown, pending := state.pending.erase (page, event) }
    else none

/-- A database, and browsers that have not been to the service. -/
def initial (db : Db) : State where
  db
  storage _ := none
  cookies _ := [{}]
  pages := []
  emitted := []
  pending := []

end SignIn

end Satoidc
