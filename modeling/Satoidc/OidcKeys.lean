import Satoidc.Models
import Satoidc.Foundation.Interleaving
import Mathlib.Data.List.Sort

/-! OIDC signing keys: creation, activation, rotation, retirement and the
published key set. Each call reads rows into its session and later writes back
the columns it changed; the two parts are separate definitions. -/

namespace Satoidc
open Foundation

inductive KeyStatus where
  | validating | active | retired
  deriving DecidableEq, Repr

/-- The public dictionary of a key, with the `alg` and `use` that the service adds. -/
structure PublicJwk where
  kid : String
  kty : String
  n : String
  e : String
  alg : String
  use : String
  deriving DecidableEq, Repr

/-- A key pair from `jwk.generate_key`. Its `kid` is the thumbprint of the public part. -/
structure RsaKey where
  kid : String
  n : String
  e : String
  d : String
  deriving DecidableEq, Repr

def RsaKey.publicJwk (key : RsaKey) (alg : String) : PublicJwk :=
  { kid := key.kid, kty := "RSA", n := key.n, e := key.e, alg, use := "sig" }

/-- `Fernet` under the service's secret, over the private dictionary of a key. A
token depends on a random `iv`; one made under another secret does not decrypt. -/
structure Fernet where
  encrypt : Nat → RsaKey → String
  decrypt : String → Option RsaKey

/-- `oidc_signing_keys`. The integer primary key is left out: `kid` is unique,
never changes and identifies the row as well. -/
structure OidcSigningKey where
  kid : String
  publicJwk : PublicJwk
  privateJwkEncrypted : String
  alg : String
  kty : String
  use : String
  status : KeyStatus
  activatedAt : Option Instant := none
  validatingSince : Option Instant := none
  retiredAt : Option Instant := none
  retiredAfter : Option Instant := none
  createdAt : Instant
  deriving DecidableEq, Repr

inductive KeyEvent where
  | created | activated | demotedToValidating | retired | tokenSigned
  deriving DecidableEq, Repr

structure OidcSigningKeyAuditEvent where
  event : KeyEvent
  kid : String
  actor : String
  deriving DecidableEq, Repr

structure KeyStore where
  keys : Table OidcSigningKey (Keyed OidcSigningKey.kid)
  audit : List OidcSigningKeyAuditEvent

namespace KeyStore

def empty : KeyStore := ⟨⟨[], List.nodup_nil⟩, []⟩

def keyByKid (store : KeyStore) (kid : String) : Option OidcSigningKey :=
  lookup OidcSigningKey.kid store.keys.rows kid

def activeKeys (store : KeyStore) : List OidcSigningKey :=
  store.keys.rows.filter fun key => key.status = .active

end KeyStore

def retiredAfter (env : Settings) (rotatedAt : Instant) : Instant :=
  rotatedAt +
    seconds (env.oauth2TokenExpiresIn + env.oidcJwksCacheTtlSeconds + env.oidcKeyRetentionMarginSeconds)

/-- What `_generate_key_row` draws: a key pair and the initialization vector of
its encryption. -/
structure Generated where
  key : RsaKey
  iv : Nat
  deriving DecidableEq, Repr

/-- `_generate_key_row`, inserted at `now`. -/
def generateKeyRow (env : Settings) (fernet : Fernet) (generated : Generated) (status : KeyStatus) (now : Instant) :
    OidcSigningKey :=
  { kid := generated.key.kid
    publicJwk := generated.key.publicJwk env.oauth2JwtAlg
    privateJwkEncrypted := fernet.encrypt generated.iv generated.key
    alg := env.oauth2JwtAlg
    kty := "RSA"
    use := "sig"
    status
    activatedAt := if status = .active then some now else none
    createdAt := now }

def createdEvents (status : KeyStatus) (kid actor : String) : List OidcSigningKeyAuditEvent :=
  if status = .active then [⟨.created, kid, actor⟩, ⟨.activated, kid, actor⟩] else [⟨.created, kid, actor⟩]

def createSigningKey (env : Settings) (fernet : Fernet) (generated : Generated) (now : Instant) (store : KeyStore)
    (status : KeyStatus := .validating) (actor : String := "system") : Except PyError (OidcSigningKey × KeyStore) :=
  let row := generateKeyRow env fernet generated status now
  match Table.store (store.keys.rows ++ [row]) with
  | none => .error .integrityError
  | some keys => .ok (row, ⟨keys, store.audit ++ createdEvents status row.kid actor⟩)

theorem createSigningKey_ok {env : Settings} {fernet : Fernet} {generated : Generated} {now : Instant}
    {store after : KeyStore} {status : KeyStatus} {actor : String} {row : OidcSigningKey} :
    createSigningKey env fernet generated now store status actor = .ok (row, after) ↔
      row = generateKeyRow env fernet generated status now ∧ after.keys.rows = store.keys.rows ++ [row] ∧
        after.audit = store.audit ++ createdEvents status row.kid actor := by
  simp only [createSigningKey]
  constructor
  · intro created
    split at created
    next => cases created
    next keys stored =>
      cases created
      exact ⟨rfl, Table.store_some.mp stored, rfl⟩
  · rintro ⟨rfl, rows, audit⟩
    rw [Table.store_some.mpr rows, ← audit]

def ensureActiveSigningKey (env : Settings) (fernet : Fernet) (generated : Generated) (now : Instant)
    (store : KeyStore) : Except PyError (OidcSigningKey × KeyStore) :=
  match store.activeKeys.head? with
  | some active => .ok (active, store)
  | none => createSigningKey env fernet generated now store .active

structure JwtConfig where
  key : RsaKey
  kid : String
  alg : String
  iss : String
  exp : Int
  deriving DecidableEq, Repr

def getActiveJwtConfig (env : Settings) (fernet : Fernet) (generated : Generated) (now : Instant)
    (store : KeyStore) : Except PyError (JwtConfig × KeyStore) := do
  let (row, store) ← ensureActiveSigningKey env fernet generated now store
  match fernet.decrypt row.privateJwkEncrypted with
  | none => .error .invalidToken
  | some key =>
    .ok ({ key, kid := row.kid, alg := row.alg, iss := env.oauth2JwtIss, exp := env.oauth2TokenExpiresIn }, store)

theorem getActiveJwtConfig_ok {env : Settings} {fernet : Fernet} {generated : Generated} {now : Instant}
    {store after : KeyStore} {config : JwtConfig} :
    getActiveJwtConfig env fernet generated now store = .ok (config, after) ↔
      ∃ row, ensureActiveSigningKey env fernet generated now store = .ok (row, after) ∧
        fernet.decrypt row.privateJwkEncrypted = some config.key ∧ config.kid = row.kid ∧ config.alg = row.alg ∧
        config.iss = env.oauth2JwtIss ∧ config.exp = env.oauth2TokenExpiresIn := by
  simp only [getActiveJwtConfig]
  cases ensureActiveSigningKey env fernet generated now store with
  | error raised => exact ⟨fun impossible => (by cases impossible), fun ⟨_, impossible, _⟩ => (by cases impossible)⟩
  | ok pair =>
    obtain ⟨row, read⟩ := pair
    simp only [Bind.bind, Except.bind]
    constructor
    · intro signing
      split at signing
      next => cases signing
      next key opened => cases signing; exact ⟨row, rfl, opened, rfl, rfl, rfl, rfl⟩
    · rintro ⟨_, same, opened, kid, alg, iss, exp⟩
      cases same
      rw [opened]
      cases config
      cases kid; cases alg; cases iss; cases exp
      rfl

/-- The `exp` that `get_client_claims` puts into an ID token at `now`. -/
def JwtConfig.expiry (config : JwtConfig) (now : Instant) : Int := unixSeconds now + config.exp

def KeyStatus.publishable (status : KeyStatus) : Bool := status = .active || status = .validating

def getJwks (env : Settings) (fernet : Fernet) (generated : Generated) (now : Instant) (store : KeyStore) :
    Except PyError (List PublicJwk × KeyStore) := do
  let (_, store) ← ensureActiveSigningKey env fernet generated now store
  let keys := (store.keys.rows.filter fun key => key.status.publishable).insertionSort
    fun first second => first.createdAt ≤ second.createdAt
  .ok (keys.map OidcSigningKey.publicJwk, store)

/-- The columns an ORM flush writes to a stored key. -/
def OidcSigningKey.flush (loaded updated stored : OidcSigningKey) : OidcSigningKey :=
  { stored with
    status := writeColumn loaded.status updated.status stored.status
    activatedAt := writeColumn loaded.activatedAt updated.activatedAt stored.activatedAt
    validatingSince := writeColumn loaded.validatingSince updated.validatingSince stored.validatingSince
    retiredAt := writeColumn loaded.retiredAt updated.retiredAt stored.retiredAt
    retiredAfter := writeColumn loaded.retiredAfter updated.retiredAfter stored.retiredAfter }

def OidcSigningKey.demoted (env : Settings) (now : Instant) (key : OidcSigningKey) : OidcSigningKey :=
  { key with status := .validating, validatingSince := some now, retiredAfter := some (Satoidc.retiredAfter env now) }

def OidcSigningKey.activated (now : Instant) (key : OidcSigningKey) : OidcSigningKey :=
  { key with status := .active, activatedAt := some now, validatingSince := none, retiredAfter := none, retiredAt := none }

def OidcSigningKey.retired (now : Instant) (key : OidcSigningKey) : OidcSigningKey :=
  { key with status := .retired, retiredAt := some now }

/-- What the flush of `activate_signing_key` leaves of a stored row, given the
target and the active keys as the session has loaded them. -/
def activateRow (env : Settings) (now : Instant) (key : OidcSigningKey) (actives : List OidcSigningKey)
    (stored : OidcSigningKey) : OidcSigningKey :=
  if stored.kid = key.kid then key.flush (key.activated now) stored
  else match lookup OidcSigningKey.kid actives stored.kid with
    | some active => active.flush (active.demoted env now) stored
    | none => stored

theorem activateRow_kid (env : Settings) (now : Instant) (key : OidcSigningKey) (actives : List OidcSigningKey)
    (stored : OidcSigningKey) : (activateRow env now key actives stored).kid = stored.kid := by
  unfold activateRow
  split
  · rfl
  · split <;> rfl

def activateWrite (env : Settings) (now : Instant) (actor : String) (key : OidcSigningKey)
    (actives : List OidcSigningKey) (store : KeyStore) : KeyStore where
  keys := store.keys.update (fun _ => True) (activateRow env now key actives) (activateRow_kid env now key actives)
  audit := store.audit ++ (actives.filter fun active => active.kid ≠ key.kid).map
      (fun active => ⟨.demotedToValidating, active.kid, actor⟩) ++ [⟨.activated, key.kid, actor⟩]

/-- The target of `activate_signing_key` as it finds it. -/
def activatable (kid : String) : Option OidcSigningKey → Except PyError OidcSigningKey
  | none => .error (.valueError ("Unknown OIDC signing key: " ++ kid))
  | some key =>
    if key.status = .retired then .error (.valueError "Retired OIDC signing keys cannot be activated") else .ok key

def activateSigningKey (env : Settings) (now : Instant) (kid : String) (store : KeyStore)
    (actor : String := "system") : Except PyError (OidcSigningKey × KeyStore) := do
  let key ← activatable kid (store.keyByKid kid)
  .ok (key.activated now, activateWrite env now actor key store.activeKeys store)

/-- `rotate_signing_key`, with the two instants at which its parts read the clock. -/
def rotateSigningKey (env : Settings) (fernet : Fernet) (generated : Generated) (createdAt activatedAt : Instant)
    (store : KeyStore) (actor : String := "system") : Except PyError (OidcSigningKey × KeyStore) := do
  let (newKey, store) ← createSigningKey env fernet generated createdAt store .validating actor
  activateSigningKey env activatedAt newKey.kid store actor

def expiredKeys (now : Instant) (store : KeyStore) : List OidcSigningKey :=
  store.keys.rows.filter fun key => key.status = .validating && key.retiredAfter.any fun after => after < now

def retireRow (now : Instant) (expired : List OidcSigningKey) (stored : OidcSigningKey) : OidcSigningKey :=
  match lookup OidcSigningKey.kid expired stored.kid with
  | some key => key.flush (key.retired now) stored
  | none => stored

theorem retireRow_kid (now : Instant) (expired : List OidcSigningKey) (stored : OidcSigningKey) :
    (retireRow now expired stored).kid = stored.kid := by
  unfold retireRow
  split <;> rfl

def retireWrite (now : Instant) (actor : String) (expired : List OidcSigningKey) (store : KeyStore) : KeyStore where
  keys := store.keys.update (fun _ => True) (retireRow now expired) (retireRow_kid now expired)
  audit := store.audit ++ expired.map fun key => ⟨.retired, key.kid, actor⟩

def retireExpiredSigningKeys (now : Instant) (store : KeyStore) (actor : String := "system") : Nat × KeyStore :=
  let expired := expiredKeys now store
  (expired.length, retireWrite now actor expired store)

namespace KeyRace

/-- The point a call has reached, with the rows its session has loaded. -/
inductive Phase where
  | start
  | bootstrapping
  | inserted (kid : String)
  | rotated (key : OidcSigningKey)
  | found (key : OidcSigningKey) (now : Instant)
  | activating (key : OidcSigningKey) (now : Instant) (actives : List OidcSigningKey)
  | retiring (now : Instant) (expired : List OidcSigningKey)
  | finished

inductive Input where
  | create (generated : Generated) (now : Instant) (actor : String)
  | rotate (generated : Generated) (now : Instant) (actor : String)
  | refresh
  | ensure
  | bootstrap (generated : Generated) (now : Instant)
  | readKey (kid : String) (now : Instant)
  | readActives
  | activate (actor : String)
  | readExpired (now : Instant)
  | retire (actor : String)

/-- A created key's commit, after which the call goes on as `later` says. -/
def created (store : KeyStore) (later : OidcSigningKey → Phase) :
    Except PyError (OidcSigningKey × KeyStore) → KeyStore × Phase
  | .ok (row, after) => (after, later row)
  | .error _ => (store, .finished)

/-- A call that needs a row to go on, or ends with an error. -/
def reading (later : OidcSigningKey → Phase) : Except PyError OidcSigningKey → Phase
  | .ok key => later key
  | .error _ => .finished

def advance (env : Settings) (fernet : Fernet) (_ : Nat) : Input → KeyStore → Phase → Option (KeyStore × Phase)
  | .create generated now actor, store, .start =>
    some (created store (fun _ => .finished) (createSigningKey env fernet generated now store .validating actor))
  | .rotate generated now actor, store, .start =>
    some (created store (fun row => .inserted row.kid) (createSigningKey env fernet generated now store .validating actor))
  | .refresh, store, .inserted kid => some (store, ((store.keyByKid kid).map .rotated).getD .finished)
  | .ensure, store, .start => some (store, if store.activeKeys = [] then .bootstrapping else .finished)
  | .bootstrap generated now, store, .bootstrapping =>
    some (created store (fun _ => .finished) (createSigningKey env fernet generated now store .active))
  | .readKey kid now, store, .start => some (store, reading (.found · now) (activatable kid (store.keyByKid kid)))
  | .readKey kid now, store, .rotated key =>
    -- the query returns the object that this session still holds, as it was refreshed
    if kid = key.kid then some (store, reading (.found · now) (activatable kid (some key))) else none
  | .readActives, store, .found key now => some (store, .activating key now store.activeKeys)
  | .activate actor, store, .activating key now actives => some (activateWrite env now actor key actives store, .finished)
  | .readExpired now, store, .start => some (store, .retiring now (expiredKeys now store))
  | .retire actor, store, .retiring now expired => some (retireWrite now actor expired store, .finished)
  | _, _, _ => none

def initial (store : KeyStore) : World KeyStore Phase := ⟨store, fun _ => .start⟩

end KeyRace

namespace KeyLifecycle

/-- A call that runs alone. The two parts of a rotation are separate calls; the
second one holds the row that the first one inserted. -/
inductive Call where
  | create (generated : Generated) (actor : String)
  | ensure (generated : Generated)
  | activate (kid : String) (actor : String)
  | rotate (generated : Generated) (actor : String)
  | finishRotation (key : OidcSigningKey) (actor : String)
  | retire (actor : String)

structure State where
  store : KeyStore
  clock : Instant
  rotating : List OidcSigningKey

def initial (clock : Instant) : State := ⟨.empty, clock, []⟩

/-- The tables after a call that returned a row, and the same tables after one
that raised: its transaction is rolled back. -/
def outcome (store : KeyStore) : Except PyError (OidcSigningKey × KeyStore) → KeyStore
  | .ok (_, after) => after
  | .error _ => store

/-- The second part of a rotation. Its session still holds the inserted row. -/
def finishRotation (env : Settings) (now : Instant) (key : OidcSigningKey) (actor : String) (store : KeyStore) :
    Except PyError (OidcSigningKey × KeyStore) := do
  let key ← activatable key.kid (some key)
  .ok (key.activated now, activateWrite env now actor key store.activeKeys store)

def serve (env : Settings) (fernet : Fernet) (now : Instant) (store : KeyStore) : Call → KeyStore
  | .create generated actor | .rotate generated actor =>
    outcome store (createSigningKey env fernet generated now store .validating actor)
  | .ensure generated => outcome store (ensureActiveSigningKey env fernet generated now store)
  | .activate kid actor => outcome store (activateSigningKey env now kid store actor)
  | .finishRotation key actor => outcome store (finishRotation env now key actor store)
  | .retire actor => (retireExpiredSigningKeys now store actor).2

def rotations (env : Settings) (fernet : Fernet) (now : Instant) (store : KeyStore) (rotating : List OidcSigningKey) :
    Call → List OidcSigningKey
  | .rotate generated actor =>
    match createSigningKey env fernet generated now store .validating actor with
    | .ok (row, _) => row :: rotating
    | .error _ => rotating
  | .finishRotation key _ => rotating.erase key
  | _ => rotating

/-- A call can be served when the clock has not passed it, and a rotation
finished only if it is under way. -/
def enabled (state : State) (now : Instant) : Call → Bool
  | .finishRotation key _ => state.clock ≤ now && key ∈ state.rotating
  | _ => state.clock ≤ now

def step (env : Settings) (fernet : Fernet) (state : State) (event : Instant × Call) : Option State :=
  if enabled state event.1 event.2 then
    some
      { store := serve env fernet event.1 state.store event.2
        clock := event.1
        rotating := rotations env fernet event.1 state.store state.rotating event.2 }
  else none

end KeyLifecycle

end Satoidc
