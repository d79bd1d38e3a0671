import Satoidc.SignIn

/-! The session as a signed cookie. A request decodes its own copy of the cookie it
brings, and its answer gives the client another cookie; the service keeps none, so a
client may bring any cookie it was ever given, and several requests at once. -/

namespace Satoidc.Cookies
open Foundation

/-- The keys of `request.session`. -/
structure ClientSession extends Session where
  csrfToken : Option String := none
  deriving DecidableEq, Repr

inductive Consent where
  | approve | deny
  deriving DecidableEq, Repr

structure AuthorizeForm where
  decision : Consent
  csrfToken : String
  deriving DecidableEq, Repr

/-- What `POST /oauth/authorize` answers before and in place of Authlib's response. -/
inductive AuthorizeAnswer where
  | loginRequired
  | invalidCsrf
  | typeError
  | invalidSession
  | response (decision : Consent) (user : User)
  deriving DecidableEq, Repr

/-- `hmac.compare_digest`, which takes text only if it is ASCII. -/
def compareDigest (first second : String) : Option Bool :=
  if first.toList.all (·.toNat < 128) && second.toList.all (·.toNat < 128) then some (first = second) else none

def authorize (db : Db) (session : ClientSession) (form : AuthorizeForm) : ClientSession × AuthorizeAnswer :=
  match session.userId with
  | none => (session, .loginRequired)
  | some uid =>
    match session.csrfToken with
    | none => (session, .invalidCsrf)
    | some csrfExpected =>
      if csrfExpected = "" || form.csrfToken = "" then (session, .invalidCsrf)
      else match compareDigest csrfExpected form.csrfToken with
        | none => (session, .typeError)
        | some false => (session, .invalidCsrf)
        | some true =>
          let session := { session with csrfToken := none }
          match lookup User.id db.users.rows uid with
          | none => (session, .invalidSession)
          | some user => (session, .response form.decision user)

/-- The token of the form has passed the check. -/
def AuthorizeAnswer.accepted : AuthorizeAnswer → Bool
  | .invalidSession | .response _ _ => true
  | _ => false

/-- The check (A) of `login_post`. -/
def loginAccepted (session : Session) (form : LoginForm) : Bool :=
  truthy session.loginNonce && truthy form.loginNonce && form.loginNonce = session.loginNonce

/-- The credentials that `login_post` goes on to check are right. -/
def authenticated (host : Host) (db : Db) (form : LoginForm) : Bool :=
  match db.userByIdentifier form.identifier with
  | none => false
  | some user =>
    match host.verify form.password user.passwordHash with
    | .ok verified => verified
    | .error _ => false

/-- The requests that use the session. Those that draw a value bring it along;
`validated` and `granted` say what Authlib does with the consent request. -/
inductive Request where
  | page (kind : PageKind) (redirectTo : Option String) (nonce : String)
  | loginPost (form : LoginForm)
  | lnurlRedirect (redirectTo : Option String)
  | registerPost (uuid : UserId) (salt : Nat) (form : RegisterForm)
  | logout
  | consentPage (validated : Bool) (csrf : String)
  | authorize (form : AuthorizeForm) (granted : Bool)
  | other

/-- What a request leaves behind: the session of its answer, if it did not raise, and
the values that it drew, accepted, signed in with or issued an authorization code for. -/
structure Served where
  db : Db
  storage : String → Option UserId
  session : Option ClientSession
  drew : Option String := none
  acceptedNonce : Option String := none
  signedIn : Option String := none
  acceptedCsrf : Option String := none
  issuedCode : Option String := none

def serve (host : Host) (db : Db) (storage : String → Option UserId) (session : ClientSession) : Request → Served
  | .page kind redirectTo nonce =>
    match SignIn.openPage host kind 0 nonce session.toSession redirectTo with
    | .error _ => { db, storage, session := none }
    | .ok (.redirected _) => { db, storage, session := some session }
    | .ok (.shown next _) => { db, storage, session := some { session with toSession := next }, drew := some nonce }
  | .loginPost form =>
    let (next, answer) := Satoidc.loginPost host db session.toSession form
    let acceptedNonce := if loginAccepted session.toSession form then form.loginNonce else none
    match answer with
    | .error _ => { db, storage, session := none, acceptedNonce }
    | .ok _ =>
      { db, storage, session := some { session with toSession := next }, acceptedNonce
        signedIn := if authenticated host db form then acceptedNonce else none }
  | .lnurlRedirect redirectTo =>
    match Satoidc.lnurlRedirect host storage session.toSession redirectTo with
    | .error _ => { db, storage, session := none }
    | .ok (storage, next, _) => { db, storage, session := some { session with toSession := next } }
  | .registerPost uuid salt form =>
    match Satoidc.registerPost host uuid salt db session.toSession form with
    | (_, _, .error _) => { db, storage, session := none }
    | (db, next, .ok _) => { db, storage, session := some { session with toSession := next } }
  | .logout => { db, storage, session := some {} }
  | .consentPage validated csrf =>
    if validated then { db, storage, session := some { session with csrfToken := some csrf }, drew := some csrf }
    else { db, storage, session := some session }
  | .authorize form granted =>
    let (next, answer) := Cookies.authorize db session form
    { db, storage
      session := if answer = .typeError then none else some next
      acceptedCsrf := if answer.accepted then some form.csrfToken else none
      issuedCode :=
        match answer with
        | .response .approve _ => if granted then some form.csrfToken else none
        | _ => none }
  | .other => { db, storage, session := some session }

/-- A cookie that was given out, and whether a request has brought it. -/
structure Cookie where
  session : ClientSession
  presented : Bool := false
  deriving DecidableEq, Repr

structure State where
  db : Db
  storage : String → Option UserId
  cookies : List Cookie
  /-- The requests that are being served, each with its copy of the session. -/
  serving : List (ClientSession × Request)
  drawn : List String
  acceptedNonces : List String
  signIns : List String
  acceptedCsrf : List String
  codes : List String

/-- A request without a cookie has an empty session. Values are drawn with `uuid4` and
`token_urlsafe`, so a drawn value is a new one. -/
inductive Event where
  | receive (cookie : Option Nat) (request : Request)
  | answer (index : Nat)
  | elsewhere (db : Db) (storage : String → Option UserId)

def step (host : Host) (state : State) : Event → Option State
  | .receive none request => some { state with serving := state.serving ++ [({}, request)] }
  | .receive (some index) request => do
    let cookie ← state.cookies[index]?
    some
      { state with
        cookies := state.cookies.set index { cookie with presented := true }
        serving := state.serving ++ [(cookie.session, request)] }
  | .answer index => do
    let (session, request) ← state.serving[index]?
    let served := serve host state.db state.storage session request
    if served.drew.any (· ∈ state.drawn) then none
    else
      some
        { db := served.db
          storage := served.storage
          cookies := state.cookies ++ served.session.toList.map fun session => { session }
          serving := state.serving.eraseIdx index
          drawn := served.drew.toList ++ state.drawn
          acceptedNonces := state.acceptedNonces ++ served.acceptedNonce.toList
          signIns := state.signIns ++ served.signedIn.toList
          acceptedCsrf := state.acceptedCsrf ++ served.acceptedCsrf.toList
          codes := state.codes ++ served.issuedCode.toList }
  | .elsewhere db storage => some { state with db, storage }

def initial (db : Db) : State where
  db
  storage _ := none
  cookies := []
  serving := []
  drawn := []
  acceptedNonces := []
  signIns := []
  acceptedCsrf := []
  codes := []

end Satoidc.Cookies
