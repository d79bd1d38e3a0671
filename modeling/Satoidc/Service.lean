import Satoidc.Provider
import Satoidc.Foundation.Coupling

/-! Signing in and authorizing clients together. A browser that approves a request does
so in a session that it has signed in before. -/

namespace Satoidc.Service
open Foundation

abbrev State := SignIn.State × World Provider.Store Provider.Phase

/-- A request to the provider, with the browser or the client that sends it. -/
structure Request where
  sender : Nat
  index : Nat
  input : Provider.Input

abbrev Event := SignIn.Event ⊕ Request

/-- The users, whom both sides read. -/
def tell (signIn : SignIn.State) : Nat × Provider.Input := (0, .accounts signIn.db)

/-- A browser sends its consent with a session that it was given. What the consent page
and its answer put into the session is the CSRF token only. -/
def read (signIn : SignIn.State) (request : Request) : Option (Nat × Provider.Input) :=
  match request.input with
  | .authorize session _ _ =>
    if session.toSession ∈ signIn.cookies request.sender then some (request.index, request.input) else none
  | .accounts _ => none
  | _ => some (request.index, request.input)

def step (env : Settings) (curve : Secp256k1) (host : Host) (methods : Provider.ChallengeMethods) :
    State → Event → Option State :=
  coupled (SignIn.step env curve host) (Provider.step methods) tell read

def initial (db : Db) : State := (SignIn.initial db, Provider.initial db)

end Satoidc.Service
