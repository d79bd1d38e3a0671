import Satoidc.OidcKeys

/-! ID tokens. `encode_id_token` pins the signing configuration in a context variable
of its thread while Authlib calls the four hooks, and puts back what was there
before on every way out. Other threads change keys in between. -/

namespace Satoidc
open Foundation

/-- What `get_active_jwt_config` makes of the row it has got. -/
def jwtConfigOf (env : Settings) (fernet : Fernet) (row : OidcSigningKey) : Except PyError JwtConfig :=
  match fernet.decrypt row.privateJwkEncrypted with
  | none => .error .invalidToken
  | some key => .ok { key, kid := row.kid, alg := row.alg, iss := env.oauth2JwtIss, exp := env.oauth2TokenExpiresIn }

theorem getActiveJwtConfig_eq (env : Settings) (fernet : Fernet) (generated : Generated) (now : Instant) (store : KeyStore) :
    getActiveJwtConfig env fernet generated now store =
      (ensureActiveSigningKey env fernet generated now store).bind fun (row, store) =>
        (jwtConfigOf env fernet row).map fun config => (config, store) := by
  simp only [getActiveJwtConfig, jwtConfigOf]
  cases ensureActiveSigningKey env fernet generated now store with
  | error raised => rfl
  | ok result =>
    simp only [Bind.bind, Except.bind]
    cases fernet.decrypt result.1.privateJwkEncrypted <;> rfl

structure ClientClaims where
  iss : String
  aud : List String
  iat : Int
  exp : Int
  authTime : Int
  deriving DecidableEq, Repr

structure EncodeHeader where
  alg : String
  typ : String
  kid : String
  deriving DecidableEq, Repr

def resolveClientPrivateKey (jwtConfig : JwtConfig) : RsaKey := jwtConfig.key

def getClientAlgorithm (jwtConfig : JwtConfig) : String := jwtConfig.alg

def getClientClaims (jwtConfig : JwtConfig) (clientId : String) (now : Instant) : ClientClaims where
  iss := jwtConfig.iss
  aud := [clientId]
  iat := unixSeconds now
  exp := jwtConfig.expiry now
  authTime := unixSeconds now

def getEncodeHeader (jwtConfig : JwtConfig) : EncodeHeader := ⟨jwtConfig.alg, "JWT", jwtConfig.kid⟩

namespace OpenIDCode

inductive Hook where
  | resolveClientPrivateKey
  | getClientAlgorithm
  | getClientClaims (clientId : String) (now : Instant)
  | getEncodeHeader

/-- What the hooks have returned to Authlib in a call. -/
structure Obtained where
  keys : List RsaKey := []
  algs : List String := []
  claims : List ClientClaims := []
  headers : List EncodeHeader := []

def Obtained.add (jwtConfig : JwtConfig) (obtained : Obtained) : Hook → Obtained
  | .resolveClientPrivateKey => { obtained with keys := Satoidc.resolveClientPrivateKey jwtConfig :: obtained.keys }
  | .getClientAlgorithm => { obtained with algs := Satoidc.getClientAlgorithm jwtConfig :: obtained.algs }
  | .getClientClaims clientId now =>
    { obtained with claims := Satoidc.getClientClaims jwtConfig clientId now :: obtained.claims }
  | .getEncodeHeader => { obtained with headers := Satoidc.getEncodeHeader jwtConfig :: obtained.headers }

/-- An ID token: its header, what it says of issuer and times, and what it is signed with. -/
structure IdToken where
  header : EncodeHeader
  claims : ClientClaims
  alg : String
  key : RsaKey
  deriving DecidableEq, Repr

/-- Authlib builds the token from results of the hooks. -/
def Obtained.builds (obtained : Obtained) (token : IdToken) : Prop :=
  token.header ∈ obtained.headers ∧ token.claims ∈ obtained.claims ∧ token.alg ∈ obtained.algs ∧ token.key ∈ obtained.keys

instance (obtained : Obtained) (token : IdToken) : Decidable (obtained.builds token) :=
  inferInstanceAs (Decidable (token.header ∈ obtained.headers ∧ token.claims ∈ obtained.claims ∧ token.alg ∈ obtained.algs ∧
    token.key ∈ obtained.keys))

/-- The point a call of `encode_id_token` has reached. `before` is the value that
`context_token` restores and `jwtConfig` the local variable. -/
inductive Call where
  | idle
  | reading
  | bootstrapping
  | encoding (before : Option JwtConfig) (jwtConfig : JwtConfig) (obtained : Obtained)
  | encoded (before : Option JwtConfig) (jwtConfig : JwtConfig) (token : IdToken)
  | leaving (before : Option JwtConfig) (result : Except PyError IdToken)
  | returned (result : Except PyError IdToken)

/-- A thread, with its value of `_oidc_jwt_config`. -/
structure Thread where
  pinned : Option JwtConfig
  call : Call

/-- `_current_oidc_jwt_config`. -/
def currentOidcJwtConfig (env : Settings) (fernet : Fernet) (generated : Generated) (now : Instant) (pinned : Option JwtConfig)
    (store : KeyStore) : Except PyError (JwtConfig × KeyStore) :=
  match pinned with
  | none => getActiveJwtConfig env fernet generated now store
  | some jwtConfig => .ok (jwtConfig, store)

/-- The end of `get_active_jwt_config`, and the `set` if it returned. -/
def pin (env : Settings) (fernet : Fernet) (pinned : Option JwtConfig) (row : OidcSigningKey) : Thread :=
  match jwtConfigOf env fernet row with
  | .error raised => ⟨pinned, .returned (.error raised)⟩
  | .ok jwtConfig => ⟨some jwtConfig, .encoding pinned jwtConfig {}⟩

def auditTokenSigned (kid : String) (store : KeyStore) : KeyStore :=
  { store with audit := store.audit ++ [⟨.tokenSigned, kid, "system"⟩] }

inductive Input where
  | call
  | read
  | bootstrap (generated : Generated) (now : Instant)
  | hook (hook : Hook) (generated : Generated) (now : Instant)
  | build (token : IdToken)
  | raise (raised : PyError)
  | audit
  | reset

/-- The next step of a thread. Authlib, the audit's commit included, may raise at any
point between the `set` and the `finally`. -/
def advance (env : Settings) (fernet : Fernet) : Input → KeyStore → Thread → Option (KeyStore × Thread)
  | .call, store, ⟨pinned, .idle⟩ | .call, store, ⟨pinned, .returned _⟩ => some (store, ⟨pinned, .reading⟩)
  | .read, store, ⟨pinned, .reading⟩ =>
    some (store, match store.activeKeys.head? with
      | none => ⟨pinned, .bootstrapping⟩
      | some active => pin env fernet pinned active)
  | .bootstrap generated now, store, ⟨pinned, .bootstrapping⟩ =>
    some (match createSigningKey env fernet generated now store .active with
      | .error raised => (store, ⟨pinned, .returned (.error raised)⟩)
      | .ok (row, store) => (store, pin env fernet pinned row))
  | .hook hook generated now, store, ⟨pinned, .encoding before jwtConfig obtained⟩ =>
    some (match currentOidcJwtConfig env fernet generated now pinned store with
      | .error raised => (store, ⟨pinned, .leaving before (.error raised)⟩)
      | .ok (current, store) => (store, ⟨pinned, .encoding before jwtConfig (obtained.add current hook)⟩))
  | .build token, store, ⟨pinned, .encoding before jwtConfig obtained⟩ =>
    if obtained.builds token then some (store, ⟨pinned, .encoded before jwtConfig token⟩) else none
  | .raise raised, store, ⟨pinned, .encoding before _ _⟩ | .raise raised, store, ⟨pinned, .encoded before _ _⟩ =>
    some (store, ⟨pinned, .leaving before (.error raised)⟩)
  | .audit, store, ⟨pinned, .encoded before jwtConfig token⟩ =>
    some (auditTokenSigned jwtConfig.kid store, ⟨pinned, .leaving before (.ok token)⟩)
  | .reset, store, ⟨_, .leaving before result⟩ => some (store, ⟨before, .returned result⟩)
  | _, _, _ => none

inductive Session where
  | keys (phase : KeyRace.Phase)
  | signing (thread : Thread)

inductive Action where
  | keys (input : KeyRace.Input)
  | signing (input : Input)

def advanceSession (env : Settings) (fernet : Fernet) (index : Nat) : Action → KeyStore → Session → Option (KeyStore × Session)
  | .keys input, store, .keys phase =>
    (KeyRace.advance env fernet index input store phase).map fun (store, phase) => (store, .keys phase)
  | .signing input, store, .signing thread =>
    (advance env fernet input store thread).map fun (store, thread) => (store, .signing thread)
  | _, _, _ => none

/-- No call has started; `signs` are the threads that sign, with whatever they have pinned. -/
def initial (store : KeyStore) (signs : Nat → Option (Option JwtConfig)) : World KeyStore Session :=
  ⟨store, fun index => (signs index).elim (.keys .start) fun pinned => .signing ⟨pinned, .idle⟩⟩

end OpenIDCode

end Satoidc
