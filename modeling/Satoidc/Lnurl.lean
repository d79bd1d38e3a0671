import Satoidc.Models
import Satoidc.Foundation.Interleaving

/-! LNURL-auth: signature verification and the wallet callback. The callback is
one transaction of several statements; each is a separate step, so the same
definitions give both a callback run alone and callbacks interleaved. -/

namespace Satoidc
open Foundation

def hexDigit (c : Char) : Option UInt8 :=
  if '0' ≤ c ∧ c ≤ '9' then some (c.val - '0'.val).toUInt8
  else if 'a' ≤ c ∧ c ≤ 'f' then some (c.val - 'a'.val + 10).toUInt8
  else if 'A' ≤ c ∧ c ≤ 'F' then some (c.val - 'A'.val + 10).toUInt8
  else none

/-- ASCII whitespace, which `bytes.fromhex` skips between bytes. -/
def isAsciiSpace (c : Char) : Bool :=
  c == ' ' || c == '\t' || c == '\n' || c == '\x0b' || c == '\x0c' || c == '\r'

def hexBytes : List Char → Option (List UInt8)
  | [] => some []
  | [c] => if isAsciiSpace c then some [] else none
  | c :: d :: rest =>
    if isAsciiSpace c then hexBytes (d :: rest)
    else do
      let high ← hexDigit c
      let low ← hexDigit d
      let bytes ← hexBytes rest
      some ((high * 16 + low) :: bytes)

def bytesFromHex (text : String) : Except PyError (List UInt8) :=
  match hexBytes text.toList with
  | some bytes => .ok bytes
  | none => .error (.valueError "non-hexadecimal number found in fromhex() arg")

theorem bytesFromHex_ofList {text : List Char} {bytes : List UInt8} (read : hexBytes text = some bytes) :
    bytesFromHex (String.ofList text) = .ok bytes := by
  rw [bytesFromHex, String.toList_ofList, read]

theorem bytesFromHex_malformed {text : List Char} (unread : hexBytes text = none) :
    bytesFromHex (String.ofList text) =
      .error (.valueError "non-hexadecimal number found in fromhex() arg") := by
  rw [bytesFromHex, String.toList_ofList, unread]

/-- The entry points of the `ecdsa` package that `verify` calls, on its
secp256k1 curve: decoding a public key and checking a DER signature. -/
structure Secp256k1 where
  VerifyingKey : Type
  fromString : List UInt8 → Except PyError VerifyingKey
  verifyDigest : VerifyingKey → List UInt8 → List UInt8 → Except PyError Bool

/-- A stand-in that decodes every key and answers every signature alike. -/
def Secp256k1.answering (verified : Except PyError Bool) : Secp256k1 where
  VerifyingKey := Unit
  fromString _ := .ok ()
  verifyDigest _ _ _ := verified

def verify (curve : Secp256k1) (k1 key sig : String) : Except PyError Bool := do
  let k1 ← bytesFromHex k1
  let key ← bytesFromHex key
  let sig ← bytesFromHex sig
  let vk ← curve.fromString key
  match curve.verifyDigest vk sig k1 with
  | .error .badSignatureError => .ok false
  | outcome => outcome

/-- An answering curve gives its answer to all texts that are hexadecimal. -/
theorem verify_answering {answer : Except PyError Bool} {k1 key sig : List Char} (digest : (hexBytes k1).isSome = true)
    (point : (hexBytes key).isSome = true) (signature : (hexBytes sig).isSome = true) :
    verify (.answering answer) (String.ofList k1) (String.ofList key) (String.ofList sig) =
      match answer with
      | .error .badSignatureError => .ok false
      | outcome => outcome := by
  obtain ⟨_, digest⟩ := Option.isSome_iff_exists.mp digest
  obtain ⟨_, point⟩ := Option.isSome_iff_exists.mp point
  obtain ⟨_, signature⟩ := Option.isSome_iff_exists.mp signature
  simp only [verify, bytesFromHex_ofList digest, bytesFromHex_ofList point, bytesFromHex_ofList signature]
  rfl

inductive LnurlAction where
  | register | login | link | auth
  deriving DecidableEq, Repr

def LnurlAction.value : LnurlAction → String
  | .register => "register"
  | .login => "login"
  | .link => "link"
  | .auth => "auth"

/-- The validated query string of `GET /auth/lnurl/callback`. -/
structure LnurlAuthCallbackIn where
  k1 : String
  sig : String
  key : String
  action : Option LnurlAction
  k1Length : k1.length = 64
  sigLength : 16 ≤ sig.length ∧ sig.length ≤ 512
  keyLength : key.length = 66
  deriving DecidableEq

structure Response where
  status : String
  reason : Option String := none
  deriving DecidableEq, Repr

def Response.ok : Response := ⟨"OK", none⟩
def Response.error (reason : String) : Response := ⟨"ERROR", some reason⟩

/-- What `lnurl_auth_events.call` hands to the pages showing a QR code. -/
structure LnurlAuthEvent where
  k1 : String
  userId : Option UserId
  deriving DecidableEq, Repr

/-- How a callback ends: its response or exception, and the event it emitted. -/
structure Exit where
  outcome : Except PyError Response
  event : Option LnurlAuthEvent := none

def Exit.returned (response : Response) : Exit := ⟨.ok response, none⟩
def Exit.raised (error : PyError) : Exit := ⟨.error error, none⟩
def Exit.emitted (response : Response) (challenge : LnurlAuthChallenge) : Exit :=
  ⟨.ok response, some ⟨challenge.k1, challenge.userId⟩⟩

structure Db where
  users : Users
  challenges : Challenges

def Db.userByPubkey (db : Db) (key : String) : Option User :=
  db.users.rows.find? fun user => user.lnurlPubkey = some key

def Db.userById (db : Db) (id : UserId) : Option User :=
  lookup User.id db.users.rows id

/-- Writing back the challenge row that the transaction holds. -/
def Db.writeChallenge (db : Db) (users : Users) (challenge : LnurlAuthChallenge) : Db where
  users
  challenges := db.challenges.update (fun row => row.k1 = challenge.k1)
    (fun row => { row with consumed := challenge.consumed, userId := challenge.userId }) fun _ => rfl

/-- The row `User(password_hash=None, email=None, nickname=None, ...)` becomes:
the ORM leaves an explicit `None` to the column default `"Satoshi"`. -/
def walletUser (id : UserId) (key : String) : User :=
  { id, lnurlPubkey := some key, email := none, login := none, passwordHash := none, nickname := "Satoshi" }

def setPubkey (id : UserId) (key : String) (rows : List User) : List User :=
  update (fun user => user.id = id) (fun user => { user with lnurlPubkey := some key }) rows

namespace LnurlCallback

/-- The point a callback has reached. The challenge is the row the consuming
`UPDATE` returned, with the changes the transaction has made to it so far. -/
inductive Phase where
  | start
  | consumed (query : LnurlAuthCallbackIn) (challenge : LnurlAuthChallenge)
  | resolved (query : LnurlAuthCallbackIn) (challenge : LnurlAuthChallenge) (dbUser : Option User)
  | linking (query : LnurlAuthCallbackIn) (challenge : LnurlAuthChallenge) (user : User)
  | finished (challenge : Option LnurlAuthChallenge) (exit : Exit)

/-- The rows that `UPDATE ... WHERE k1 = ... AND NOT consumed AND created_at >= cutoff` matches. -/
def live (env : Settings) (now : Instant) (k1 : String) (challenge : LnurlAuthChallenge) : Bool :=
  challenge.k1 = k1 && !challenge.consumed && now - seconds env.lnurlK1TtlSeconds ≤ challenge.createdAt

/-- `UPDATE ... SET consumed = true ... RETURNING`, not committed yet. -/
def consume (env : Settings) (now : Instant) (db : Db) (query : LnurlAuthCallbackIn) : Phase :=
  match db.challenges.rows.find? (live env now query.k1) with
  | none => .finished none (.returned (.error "Invalid or expired k1"))
  | some challenge => .consumed query { challenge with consumed := true }

/-- The `session.commit()` after a successful action, then the event. -/
def commit (db : Db) (users : Option Users) (challenge : LnurlAuthChallenge) : Db × Phase :=
  match users with
  | none => (db, .finished (some challenge) (.raised .integrityError))
  | some users => (db.writeChallenge users challenge, .finished (some challenge) (.emitted .ok challenge))

/-- The next statement of the callback. A new user's id is `uuid`. An exit that
does not pass through `commit` leaves the database as it was: closing the
session rolls its transaction back. -/
def next (curve : Secp256k1) (uuid : UserId) (db : Db) : Phase → Db × Phase
  | .consumed query challenge =>
    if some challenge.action ≠ query.action.map LnurlAction.value then
      (db, .finished (some challenge) (.returned (.error "Action mismatch")))
    else match verify curve query.k1 query.key query.sig with
      | .error raised => (db, .finished (some challenge) (.raised raised))
      | .ok false => (db, .finished (some challenge) (.returned (.error "Bad Signature Error")))
      | .ok true => (db, .resolved query challenge (db.userByPubkey query.key))
  | .resolved query challenge dbUser =>
    match query.action with
    | some .register =>
      match dbUser with
      | none => commit db (Table.store (db.users.rows ++ [walletUser uuid query.key])) { challenge with userId := some uuid }
      | some user => commit db (some db.users) { challenge with userId := some user.id }
    | some .login =>
      match dbUser with
      | none => (db, .finished (some challenge) (.returned (.error "User not found for this linkingKey")))
      | some user => commit db (some db.users) { challenge with userId := some user.id }
    | some .link =>
      match challenge.userId with
      | none => (db, .finished (some challenge) (.returned (.error "Missing linked account")))
      | some linked =>
        if dbUser.any (fun user => user.id ≠ linked) then
          (db, .finished (some challenge) (.returned (.error "Wallet already linked to another account")))
        else match db.userById linked with
          | none => (db, .finished (some challenge) (.returned (.error "Linked account not found")))
          | some user => (db, .linking query challenge user)
    | some .auth => (db, .finished (some challenge) (.emitted .ok challenge))
    | none => (db, .finished (some challenge) (.emitted (.error "Unknown action") challenge))
  | .linking query challenge user =>
    -- an attribute set to the value it was loaded with is not in the UPDATE
    if user.lnurlPubkey = some query.key then commit db (some db.users) challenge
    else commit db (Table.store (setPubkey user.id query.key db.users.rows)) challenge
  | phase => (db, phase)

/-- The k1 of the challenge row that a callback in progress has updated and not
yet committed. -/
def Phase.holding : Phase → Option String
  | .consumed query _ | .resolved query _ _ | .linking query _ _ => some query.k1
  | .start | .finished _ _ => none

/-- The challenge with which a callback got past the k1 check. -/
def Phase.passed : Phase → Option LnurlAuthChallenge
  | .consumed _ challenge | .resolved _ challenge _ | .linking _ challenge _ => some challenge
  | .finished challenge _ => challenge
  | .start => none

/-- The database as concurrent transactions see it: the committed rows, and for
each challenge row the session whose uncommitted update has it locked. -/
structure Store where
  db : Db
  lockedBy : String → Option Nat

inductive Input where
  | begin (query : LnurlAuthCallbackIn) (now : Instant)
  | next (uuid : UserId)

/-- One step of session `index`. An `UPDATE` that matches a locked row waits, so
it has no step until the transaction holding the lock has ended. -/
def advance (env : Settings) (curve : Secp256k1) (index : Nat) : Input → Store → Phase → Option (Store × Phase)
  | .begin query now, store, .start =>
    match consume env now store.db query with
    | .consumed query challenge =>
      if store.lockedBy query.k1 = none then
        some ({ store with lockedBy := Function.update store.lockedBy query.k1 (some index) }, .consumed query challenge)
      else none
    | phase => some (store, phase)
  | .next uuid, store, phase =>
    match phase.holding with
    | none => none
    | some k1 =>
      let (db, later) := LnurlCallback.next curve uuid store.db phase
      let lockedBy := if later.holding = none then Function.update store.lockedBy k1 none else store.lockedBy
      some (⟨db, lockedBy⟩, later)
  | _, _, _ => none

/-- Any number of callbacks, none of which has started. -/
def initial (db : Db) : World Store Phase := ⟨⟨db, fun _ => none⟩, fun _ => .start⟩

end LnurlCallback

/-- `lnurl_auth_callback` with the database to itself: its statements one after
another, at most three of them after the consuming `UPDATE`. -/
def lnurlAuthCallback (env : Settings) (curve : Secp256k1) (now : Instant) (uuid : UserId) (db : Db)
    (query : LnurlAuthCallbackIn) : Db × LnurlCallback.Phase :=
  let first := LnurlCallback.next curve uuid db (LnurlCallback.consume env now db query)
  let second := LnurlCallback.next curve uuid first.1 first.2
  LnurlCallback.next curve uuid second.1 second.2

end Satoidc
