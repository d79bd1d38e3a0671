import Satoidc.Clients

/-! The authorization server: how long a token lives, introspection, revocation and
UserInfo, and the client lookup in front of them. Authlib's own checks are those
its endpoints make around the callbacks given to them. -/

namespace Satoidc
open Foundation

/-- The attributes of Authlib's class `BearerToken`. -/
structure BearerTokenClass where
  grantTypesExpiresIn : Dict String Int
  defaultExpiresIn : Int

/-- `app.config`, as far as the token generators read it. -/
structure AppConfig where
  oauth2AccessTokenGenerator : Bool := true
  oauth2RefreshTokenGenerator : Bool := false
  oauth2TokenExpiresIn : Option (Dict String Int)

def appConfig (env : Settings) : AppConfig where
  oauth2RefreshTokenGenerator := true
  oauth2TokenExpiresIn := some (Dict.empty.setAll [("authorization_code", env.oauth2TokenExpiresIn)])

def createTokenExpiresInGenerator (bearer : BearerTokenClass) (config : AppConfig) (grantType : String) : Int :=
  let data := bearer.grantTypesExpiresIn
  let data :=
    match config.oauth2TokenExpiresIn with
    | none => data
    | some expiresInConf => if expiresInConf.entries = [] then data else data.setAll expiresInConf.entries
  (data.get grantType).getD bearer.defaultExpiresIn

/-- A generator, as the length of the tokens it draws. -/
def createTokenGenerator (tokenGeneratorConf : Bool) (length : Nat) : Option Nat :=
  if tokenGeneratorConf then some length else none

/-- An object of Authlib's class `BearerToken`. -/
structure BearerTokenGenerator where
  accessTokenGenerator : Option Nat
  refreshTokenGenerator : Option Nat
  expiresGenerator : String → Int

def createBearerTokenGenerator (bearer : BearerTokenClass) (config : AppConfig) : BearerTokenGenerator where
  accessTokenGenerator := createTokenGenerator config.oauth2AccessTokenGenerator 42
  refreshTokenGenerator := createTokenGenerator config.oauth2RefreshTokenGenerator 48
  expiresGenerator := createTokenExpiresInGenerator bearer config

/-- The tokens that the generators draw for a request, and the scope it is granted. -/
structure Drawn where
  accessToken : String
  refreshToken : String
  scope : String
  deriving DecidableEq, Repr

def BearerTokenGenerator.generate (generator : BearerTokenGenerator) (grantType : String) (drawn : Drawn)
    (includeRefreshToken : Bool) : BearerToken where
  tokenType := "Bearer"
  accessToken := drawn.accessToken
  refreshToken := if includeRefreshToken && generator.refreshTokenGenerator.isSome then some drawn.refreshToken else none
  scope := drawn.scope
  expiresIn := generator.expiresGenerator grantType

structure CodeRequest where
  clientId : String
  code : String
  drawn : Drawn
  includeRefreshToken : Bool
  queriedAt : Instant
  savedAt : Instant

def exchangeCode (generator : BearerTokenGenerator) (request : CodeRequest) (db : OAuthDb) : Option (OAuth2Token × OAuthDb) :=
  match queryAuthorizationCode request.code request.clientId request.queriedAt db with
  | none => none
  | some authorizationCode =>
    match authenticateUser authorizationCode.userId db with
    | none => none
    | some user =>
      match saveToken (generator.generate "authorization_code" request.drawn request.includeRefreshToken) request.clientId
          user.id request.savedAt db with
      | .error _ => none
      | .ok (row, db) => some (row, deleteAuthorizationCode authorizationCode db)

structure RefreshRequest where
  clientId : String
  refreshToken : String
  drawn : Drawn
  authenticatedAt : Instant
  savedAt : Instant
  revokedAt : Clock

/-- `INCLUDE_NEW_REFRESH_TOKEN` is set. -/
def exchangeRefreshToken (generator : BearerTokenGenerator) (request : RefreshRequest) (db : OAuthDb) :
    Option (OAuth2Token × OAuthDb) :=
  match authenticateRefreshToken request.refreshToken request.authenticatedAt db with
  | none => none
  | some credential =>
    if credential.clientId ≠ request.clientId then none
    else match authenticateUser credential.userId db with
      | none => none
      | some user =>
        match saveToken (generator.generate "refresh_token" request.drawn true) request.clientId user.id request.savedAt db with
        | .error _ => none
        | .ok (row, db) => some (row, revokeOldCredential credential request.revokedAt db)

/-- Authlib's `is_expired`. A row whose lifetime is zero never expires. -/
def OAuth2Token.isExpired (token : OAuth2Token) (now : Instant) : Bool :=
  if token.expiresIn = 0 then false else seconds (token.issuedAt + token.expiresIn) < now

theorem OAuth2Token.isExpired_eq_false {token : OAuth2Token} {now : Instant} :
    token.isExpired now = false ↔ token.expiresIn = 0 ∨ now ≤ seconds (token.issuedAt + token.expiresIn) := by
  unfold isExpired
  split
  next endless => simp [endless]
  next ends => simp [ends]

/-- How an endpoint of Authlib tells that the access token of a row has expired. -/
abbrev ExpiryTest := OAuth2Token → Instant → Bool

def OAuth2Token.isRevoked (token : OAuth2Token) : Bool :=
  token.accessTokenRevokedAt ≠ 0 || token.refreshTokenRevokedAt ≠ 0

/-- The `query_token` of introspection and of revocation. -/
def queryToken (token : String) (tokenTypeHint : Option String) (db : OAuthDb) : Option OAuth2Token :=
  let byAccessToken := lookup OAuth2Token.accessToken db.tokens.rows token
  let byRefreshToken := lookup OAuth2Token.refreshToken db.tokens.rows (some token)
  if tokenTypeHint = some "access_token" then byAccessToken
  else if tokenTypeHint = some "refresh_token" then byRefreshToken
  else byAccessToken.or byRefreshToken

structure IntrospectionClaims where
  clientId : String
  tokenType : String
  username : UserId
  scope : String
  sub : UserId
  aud : String
  iss : String
  exp : Int
  iat : Int
  deriving DecidableEq, Repr

def introspectToken (env : Settings) (token : OAuth2Token) : IntrospectionClaims where
  clientId := token.clientId
  tokenType := token.tokenType
  username := token.userId
  scope := token.scope
  sub := token.userId
  aud := token.clientId
  iss := env.oauth2JwtIss
  exp := token.issuedAt + token.expiresIn
  iat := token.issuedAt

/-- The claims of an active token; without them the answer is `active: false`. -/
def introspectBy (isExpired : ExpiryTest) (env : Settings) (clientId token : String) (tokenTypeHint : Option String)
    (now : Instant) (db : OAuthDb) : Option IntrospectionClaims :=
  match queryToken token tokenTypeHint db with
  | none => none
  | some row =>
    if row.clientId ≠ clientId then none
    else if isExpired row now || row.isRevoked then none
    else some (introspectToken env row)

def introspect (env : Settings) (clientId token : String) (tokenTypeHint : Option String) (now : Instant) (db : OAuthDb) :
    Option IntrospectionClaims :=
  introspectBy OAuth2Token.isExpired env clientId token tokenTypeHint now db

/-- What the bearer validator makes of an access token, its scope apart. -/
def authenticateTokenBy (isExpired : ExpiryTest) (token : String) (now : Instant) (db : OAuthDb) : Option OAuth2Token :=
  (lookup OAuth2Token.accessToken db.tokens.rows token).filter fun row => !isExpired row now && !row.isRevoked

def authenticateToken (token : String) (now : Instant) (db : OAuthDb) : Option OAuth2Token :=
  authenticateTokenBy OAuth2Token.isExpired token now db

def OAuth2Token.revoke (tokenTypeHint : Option String) (now : Clock) (token : OAuth2Token) : OAuth2Token :=
  { token with
    accessTokenRevokedAt := unixSeconds now
    refreshTokenRevokedAt := if tokenTypeHint = some "access_token" then token.refreshTokenRevokedAt else unixSeconds now }

/-- Nothing where the token is another client's. A token that is not found is no error. -/
def revokeToken (clientId token : String) (tokenTypeHint : Option String) (now : Clock) (db : OAuthDb) : Option OAuthDb :=
  match queryToken token tokenTypeHint db with
  | none => some db
  | some row =>
    if row.clientId ≠ clientId then none
    else
      some { db with tokens :=
          ⟨update (fun stored => stored.id = row.id) (OAuth2Token.revoke tokenTypeHint now) db.tokens.rows,
            ⟨db.tokens.valid.id.update fun _ => rfl, db.tokens.valid.accessToken.update fun _ => rfl⟩⟩ }

structure UserInfo where
  sub : UserId
  email : Option (Option String) := none
  name : Option String := none
  lnurlPubkey : Option (Option String) := none
  deriving DecidableEq, Repr

/-- `"..." in scope` on the scope as one string. -/
def inScope (word scope : String) : Bool := scope.toList.tails.any fun rest => word.toList.isPrefixOf rest

def generateUserInfo (user : User) (scope : String) : UserInfo where
  sub := user.id
  email := if inScope "email" scope then some user.email else none
  name := if inScope "profile" scope then some user.nickname else none
  lnurlPubkey := if inScope "profile" scope then some user.lnurlPubkey else none

/-- The claims that Authlib puts into the ID token of a user and a scope. -/
def OpenIDCode.generateUserInfo (user : User) (scope : String) : UserInfo := Satoidc.generateUserInfo user scope

/-- `_userinfo_sync`: the token row and the claims released for it. -/
def userinfo (token : String) (now : Instant) (db : OAuthDb) : Option (OAuth2Token × UserInfo) :=
  match authenticateToken token now db with
  | none => none
  | some row =>
    if "profile".toList ∉ splitWords row.scope.toList then none
    else (authenticateUser row.userId db).map fun user => (row, generateUserInfo user row.scope)

namespace ClientService

structure State where
  clients : Table RegisteredClient (Keyed RegisteredClient.clientId)
  oauth : OAuthDb

/-- The `query_client` of `config_oauth`. -/
def queryClient (clientId : String) (state : State) : Option RegisteredClient :=
  (lookup RegisteredClient.clientId state.clients.rows clientId).filter fun client => !client.isClientDisabled

/-- Operations on the clients, and requests that pass Authlib's other checks. -/
inductive Event where
  | setDisabled (clientId : String) (disabled : Bool) (now : Clock)
  | delete (clientId : String)
  | authorize (clientId : String) (userId : UserId) (code : String) (now : Instant)
  | exchangeCode (request : CodeRequest)
  | refresh (request : RefreshRequest)
  | introspect (clientId token : String) (tokenTypeHint : Option String) (now : Instant)
  | revoke (clientId token : String) (tokenTypeHint : Option String) (now : Clock)
  | userinfo (token : String) (now : Instant)

def disabling (disabled : Bool) (now : Clock) (client : RegisteredClient) : RegisteredClient :=
  ((RegisteredClient.setClientDisabled disabled now).run client).2

theorem disabling_clientId (disabled : Bool) (now : Clock) (client : RegisteredClient) :
    (disabling disabled now client).clientId = client.clientId := rfl

def setDisabled (clientId : String) (disabled : Bool) (now : Clock) (state : State) : State :=
  let clients := state.clients.update (fun client => client.clientId = clientId) (disabling disabled now)
    (disabling_clientId disabled now)
  { state with clients }

def deleteClient (clientId : String) (state : State) : State :=
  { state with clients := ⟨state.clients.rows.filter fun client => client.clientId ≠ clientId, state.clients.valid.filter _⟩ }

/-- `save_authorization_code`. -/
def saveAuthorizationCode (code clientId : String) (userId : UserId) (now : Instant) (db : OAuthDb) : Option OAuthDb :=
  let authCode : OAuth2AuthorizationCode :=
    { id := nextId OAuth2AuthorizationCode.id db.codes.rows, code, clientId, userId, authTime := unixSeconds now }
  (Table.store (db.codes.rows ++ [authCode])).map fun codes => { db with codes }

/-- What an endpoint answers a client with, or releases for it. -/
inductive Answer where
  | code (code : String)
  | token (row : OAuth2Token)
  | introspection (claims : Option IntrospectionClaims)
  | revocation
  | userinfo (claims : UserInfo)
  deriving DecidableEq, Repr

/-- The endpoints that authenticate a client look it up first. -/
def forClient (state : State) (clientId : String) (respond : RegisteredClient → Option (OAuthDb × Answer)) :
    State × Option (String × Answer) :=
  match queryClient clientId state with
  | none => (state, none)
  | some client =>
    match respond client with
    | none => (state, none)
    | some (oauth, answer) => ({ state with oauth }, some (client.clientId, answer))

/-- The state after an event, and the answer with the client it is for. -/
def handle (env : Settings) (generator : BearerTokenGenerator) (state : State) : Event → State × Option (String × Answer)
  | .setDisabled clientId disabled now => (setDisabled clientId disabled now state, none)
  | .delete clientId => (deleteClient clientId state, none)
  | .authorize clientId userId code now =>
    forClient state clientId fun client =>
      (authenticateUser userId state.oauth).bind fun user =>
        (saveAuthorizationCode code client.clientId user.id now state.oauth).map fun oauth => (oauth, .code code)
  | .exchangeCode request =>
    forClient state request.clientId fun _ =>
      (exchangeCode generator request state.oauth).map fun (row, oauth) => (oauth, .token row)
  | .refresh request =>
    forClient state request.clientId fun _ =>
      (exchangeRefreshToken generator request state.oauth).map fun (row, oauth) => (oauth, .token row)
  | .introspect clientId token tokenTypeHint now =>
    forClient state clientId fun client =>
      some (state.oauth, .introspection (introspect env client.clientId token tokenTypeHint now state.oauth))
  | .revoke clientId token tokenTypeHint now =>
    forClient state clientId fun client =>
      (revokeToken client.clientId token tokenTypeHint now state.oauth).map fun oauth => (oauth, .revocation)
  | .userinfo token now =>
    match userinfo token now state.oauth with
    | none => (state, none)
    | some (row, claims) => (state, some (row.clientId, .userinfo claims))

def step (env : Settings) (generator : BearerTokenGenerator) (state : State) (event : Event) : Option State :=
  some (handle env generator state event).1

end ClientService

end Satoidc
