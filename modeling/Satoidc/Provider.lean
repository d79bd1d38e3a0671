import Satoidc.AuthorizationCodes
import Satoidc.Cookies

/-! The provider as a whole: a person approves a client's request, the client redeems
the code it gets for tokens and refreshes these, and with an access token it asks for
claims about the person. Every callback is a query or a transaction of its own; what
Authlib checks between them is part of the steps. -/

namespace Satoidc.Provider
open Foundation

structure Store where
  accounts : Db
  codes : IssuedCodes
  tokens : Table OAuth2Token TokenConstraints

/-- The tables as the token endpoint's callbacks read them. -/
def Store.oauth (store : Store) : OAuthDb :=
  { users := store.accounts.users, codes := AuthorizationEndpoint.asCodes store.codes, tokens := store.tokens }

/-- The words of a scope, of which there are none where a request names no scope. -/
def scopeWords (scope : Option String) : List String := (splitWords (scope.getD "").toList).map String.ofList

/-- Authlib's `is_openid_scope`. -/
def isOpenidScope (scope : Option String) : Bool := "openid" ∈ scopeWords scope

/-- What a client sends to the token endpoint to redeem a code. -/
structure CodeExchange where
  clientId : String
  code : String
  redirectUri : Option String
  codeVerifier : Option String
  deriving DecidableEq, Repr

/-- Authlib's table of code challenge methods: whether a verifier meets a challenge. -/
abbrev ChallengeMethods := String → String → String → Bool

/-- Authlib's `CodeChallenge`: a code without a challenge is redeemed without a verifier. -/
def CodeExchange.meets (methods : ChallengeMethods) (exchange : CodeExchange) (authCode : IssuedCode) : Bool :=
  match authCode.codeChallenge, exchange.codeVerifier with
  | some challenge, some verifier =>
    if challenge = "" && verifier = "" then true
    else verifier ≠ "" && methods (authCode.codeChallengeMethod.getD "plain") challenge verifier
  | challenge, verifier => !truthy challenge && !truthy verifier

/-- What Authlib's grant compares a stored code with. -/
def CodeExchange.matches (methods : ChallengeMethods) (exchange : CodeExchange) (authCode : IssuedCode) : Bool :=
  (!truthy authCode.redirectUri || exchange.redirectUri = authCode.redirectUri) && exchange.meets methods authCode

/-- Where a request is between two callbacks. -/
inductive Phase where
  | start
  | approved (userId : UserId) (payload : AuthorizationPayload)
  | checked (userId : UserId) (payload : AuthorizationPayload)
  | issued (authCode : IssuedCode)
  | validatedCode (exchange : CodeExchange) (authCode : IssuedCode)
  | savedForCode (exchange : CodeExchange) (authCode : IssuedCode) (token : OAuth2Token)
  | exchanged (exchange : CodeExchange) (authCode : IssuedCode) (token : OAuth2Token)
  | validatedRefresh (credential : OAuth2Token)
  | savedForRefresh (credential token : OAuth2Token)
  | refreshed (credential token : OAuth2Token)
  | finished
  deriving DecidableEq

/-- `reject` is any other check of Authlib's that fails, and `accounts` a change of the
accounts by other requests. -/
inductive Input where
  | authorize (session : Cookies.ClientSession) (form : Cookies.AuthorizeForm) (payload : AuthorizationPayload)
  | existsNonce
  | saveAuthorizationCode (code : String) (now : Instant)
  | queryAuthorizationCode (exchange : CodeExchange) (now : Instant)
  | authenticateRefreshToken (clientId refreshToken : String) (now : Instant)
  | reject
  | saveToken (token : BearerToken) (now : Instant)
  | deleteAuthorizationCode
  | revokeOldCredential (now : Clock)
  | revoke (clientId token : String) (tokenTypeHint : Option String) (now : Clock)
  | accounts (accounts : Db)

/-- `POST /oauth/authorize` up to the first callback. -/
def authorize (store : Store) (session : Cookies.ClientSession) (form : Cookies.AuthorizeForm) (payload : AuthorizationPayload) :
    Phase :=
  match (Cookies.authorize store.accounts session form).2 with
  | .response .approve user => .approved user.id payload
  | _ => .finished

/-- Authlib grants what the client may have of the scope of the code or the credential,
or of the part of it that a refresh asks for. -/
def narrows (granted : String) (scope : Option String) : Bool :=
  (scopeWords (some granted)).all (· ∈ scopeWords scope)

/-- The token that a grant saves for a user and a client. -/
def save (store : Store) (token : BearerToken) (clientId : String) (userId : UserId) (now : Instant)
    (later : OAuth2Token → Phase) :
    Store × Phase :=
  match authenticateUser userId store.oauth with
  | none => (store, .finished)
  | some user =>
    match saveToken token clientId user.id now store.oauth with
    | .error _ => (store, .finished)
    | .ok (row, after) => ({ store with tokens := after.tokens }, later row)

def advance (methods : ChallengeMethods) (_ : Nat) : Input → Store → Phase → Option (Store × Phase)
  | .authorize session form payload, store, .start => some (store, authorize store session form payload)
  | .existsNonce, store, .approved userId payload =>
    -- only a nonce that the request has is looked up, and only for OpenID Connect
    if isOpenidScope payload.scope && truthy payload.nonce &&
        AuthorizationEndpoint.existsNonce payload.nonce payload store.codes then
      some (store, .finished)
    else some (store, .checked userId payload)
  | .saveAuthorizationCode code now, store, .checked userId payload =>
    match AuthorizationEndpoint.saveAuthorizationCode code payload userId now store.codes with
    | .error _ => some (store, .finished)
    | .ok (authCode, codes) => some ({ store with codes }, .issued authCode)
  | .queryAuthorizationCode exchange now, store, .start =>
    match AuthorizationEndpoint.queryAuthorizationCode exchange.code exchange.clientId now store.codes with
    | none => some (store, .finished)
    | some authCode => some (store, if exchange.matches methods authCode then .validatedCode exchange authCode else .finished)
  | .authenticateRefreshToken clientId refreshToken now, store, .start =>
    match authenticateRefreshToken refreshToken now store.oauth with
    | none => some (store, .finished)
    | some credential => some (store, if credential.clientId = clientId then .validatedRefresh credential else .finished)
  | .reject, store, .approved _ _ | .reject, store, .checked _ _ | .reject, store, .validatedCode _ _
  | .reject, store, .validatedRefresh _ => some (store, .finished)
  | .saveToken token now, store, .validatedCode exchange authCode =>
    if narrows token.scope authCode.scope then
      some (save store token authCode.clientId authCode.userId now (.savedForCode exchange authCode))
    else none
  | .saveToken token now, store, .validatedRefresh credential =>
    if narrows token.scope (some credential.scope) then
      some (save store token credential.clientId credential.userId now (.savedForRefresh credential))
    else none
  | .deleteAuthorizationCode, store, .savedForCode exchange authCode token =>
    some ({ store with codes := AuthorizationEndpoint.deleteAuthorizationCode authCode store.codes },
      .exchanged exchange authCode token)
  | .revokeOldCredential now, store, .savedForRefresh credential token =>
    some ({ store with tokens := (revokeOldCredential credential now store.oauth).tokens }, .refreshed credential token)
  | .revoke clientId token tokenTypeHint now, store, .start =>
    match revokeToken clientId token tokenTypeHint now store.oauth with
    | none => some (store, .finished)
    | some after => some ({ store with tokens := after.tokens }, .finished)
  | .accounts accounts, store, phase => some ({ store with accounts }, phase)
  | _, _, _ => none

def step (methods : ChallengeMethods) : World Store Phase → Nat × Input → Option (World Store Phase) :=
  World.step (advance methods)

/-- No code and no token has been issued, and no request has started. -/
def initial (accounts : Db) : World Store Phase :=
  ⟨⟨accounts, ⟨[], .nil⟩, ⟨[], .nil⟩⟩, fun _ => .start⟩

end Satoidc.Provider
