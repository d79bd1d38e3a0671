import Satoidc.IdTokens

/-! Whole calls on the key tables, one after another at any clock, with every
state that a call commits on its way. -/

namespace Satoidc.KeyCalls
open Foundation

inductive Call where
  | create (generated : Generated) (status : KeyStatus) (actor : String) (now : Instant)
  | ensure (generated : Generated) (now : Instant)
  | activate (kid actor : String) (now : Instant)
  | rotate (generated : Generated) (actor : String) (createdAt activatedAt : Instant)
  | retire (actor : String) (now : Instant)
  | tokenSigned (kid : String)

/-- The states that a call commits, in order, and what it raises. -/
structure Served where
  commits : List KeyStore
  raised : Option PyError := none

def committing : Except PyError (OidcSigningKey × KeyStore) → Served
  | .ok (_, after) => { commits := [after] }
  | .error raised => { commits := [], raised := some raised }

def serve (env : Settings) (fernet : Fernet) (store : KeyStore) : Call → Served
  | .create generated status actor now => committing (createSigningKey env fernet generated now store status actor)
  | .ensure generated now => committing (ensureActiveSigningKey env fernet generated now store)
  | .activate kid actor now => committing (activateSigningKey env now kid store actor)
  | .rotate generated actor createdAt activatedAt =>
    match createSigningKey env fernet generated createdAt store .validating actor with
    | .error raised => { commits := [], raised := some raised }
    | .ok (newKey, created) =>
      -- the new key is committed already when the activation starts
      let activated := committing (activateSigningKey env activatedAt newKey.kid created actor)
      { activated with commits := created :: activated.commits }
  | .retire actor now => { commits := [(retireExpiredSigningKeys now store actor).2] }
  | .tokenSigned kid => { commits := [OpenIDCode.auditTokenSigned kid store] }

/-- Keys are created validating or active, and tokens are signed with stored keys. -/
def enabled (store : KeyStore) : Call → Bool
  | .create _ status _ _ => status ≠ .retired
  | .tokenSigned kid => (store.keyByKid kid).isSome
  | _ => true

def step (env : Settings) (fernet : Fernet) (store : KeyStore) (call : Call) : Option KeyStore :=
  if enabled store call then some ((serve env fernet store call).commits.getLastD store) else none

end Satoidc.KeyCalls
