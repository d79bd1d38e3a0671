import Satoidc.Models
import Satoidc.Foundation.Interleaving

/-! The token endpoint. Authlib drives a request through the callbacks of its
grant: a check in the validation step, then a saved token, then the clean-up of
what was redeemed. Each callback commits on its own, in the session of the
request. -/

namespace Satoidc
open Foundation

/-- `oauth2_code`, as `AuthorizationCodeGrant` reads it back. -/
structure OAuth2AuthorizationCode where
  id : Nat
  code : String
  clientId : String
  userId : UserId
  authTime : Int
  deriving DecidableEq, Repr

def OAuth2AuthorizationCode.isExpired (code : OAuth2AuthorizationCode) (now : Instant) : Bool :=
  seconds (code.authTime + 300) < now

structure CodeConstraints (rows : List OAuth2AuthorizationCode) : Prop where
  id : Keyed OAuth2AuthorizationCode.id rows
  code : Keyed OAuth2AuthorizationCode.code rows

instance : DecidablePred CodeConstraints := fun rows =>
  decidable_of_iff (Keyed OAuth2AuthorizationCode.id rows ∧ Keyed OAuth2AuthorizationCode.code rows)
    ⟨fun ⟨id, code⟩ => ⟨id, code⟩, fun ⟨id, code⟩ => ⟨id, code⟩⟩

theorem CodeConstraints.nil : CodeConstraints [] := by decide

/-- `oauth2_token`. A revocation time of 0 says that it has not been revoked. -/
structure OAuth2Token where
  id : Nat
  userId : UserId
  clientId : String
  tokenType : String
  accessToken : String
  refreshToken : Option String
  scope : String
  issuedAt : Int
  expiresIn : Int
  accessTokenRevokedAt : Int := 0
  refreshTokenRevokedAt : Int := 0
  deriving DecidableEq, Repr

def OAuth2Token.isRefreshTokenActive (token : OAuth2Token) (now : Instant) : Bool :=
  if token.refreshTokenRevokedAt ≠ 0 then false
  else now ≤ seconds (token.issuedAt + token.expiresIn * 2)

/-- The primary key and the unique access token. Refresh tokens are only indexed. -/
structure TokenConstraints (rows : List OAuth2Token) : Prop where
  id : Keyed OAuth2Token.id rows
  accessToken : Keyed OAuth2Token.accessToken rows

instance : DecidablePred TokenConstraints := fun rows =>
  decidable_of_iff (Keyed OAuth2Token.id rows ∧ Keyed OAuth2Token.accessToken rows)
    ⟨fun ⟨id, accessToken⟩ => ⟨id, accessToken⟩, fun ⟨id, accessToken⟩ => ⟨id, accessToken⟩⟩

theorem TokenConstraints.nil : TokenConstraints [] := by decide

structure OAuthDb where
  users : Users
  codes : Table OAuth2AuthorizationCode CodeConstraints
  tokens : Table OAuth2Token TokenConstraints

def queryAuthorizationCode (code clientId : String) (now : Instant) (db : OAuthDb) : Option OAuth2AuthorizationCode :=
  (db.codes.rows.find? fun item => item.code = code ∧ item.clientId = clientId).filter fun item => !item.isExpired now

theorem queryAuthorizationCode_some {code clientId : String} {now : Instant} {db : OAuthDb}
    {item : OAuth2AuthorizationCode} (found : queryAuthorizationCode code clientId now db = some item) :
    item ∈ db.codes.rows ∧ item.code = code ∧ item.clientId = clientId ∧ now ≤ seconds (item.authTime + 300) := by
  obtain ⟨shown, fresh⟩ := Option.filter_eq_some_iff.mp found
  have selected := List.find?_some shown
  simp only [decide_eq_true_eq] at selected
  refine ⟨List.mem_of_find?_eq_some shown, selected.1, selected.2, ?_⟩
  simpa [OAuth2AuthorizationCode.isExpired] using fresh

/-- Deletes by primary key; a row that is already gone is no error. -/
def deleteAuthorizationCode (authorizationCode : OAuth2AuthorizationCode) (db : OAuthDb) : OAuthDb :=
  { db with codes :=
      ⟨db.codes.rows.filter fun row => row.id ≠ authorizationCode.id,
        ⟨db.codes.valid.id.filter _, db.codes.valid.code.filter _⟩⟩ }

/-- `authenticate_user` of both grants. -/
def authenticateUser (userId : UserId) (db : OAuthDb) : Option User :=
  lookup User.id db.users.rows userId

/-- The first row with the refresh token. Rows are neither deleted nor reordered,
so that is the same row in every query. -/
def authenticateRefreshToken (refreshToken : String) (now : Instant) (db : OAuthDb) : Option OAuth2Token :=
  (lookup OAuth2Token.refreshToken db.tokens.rows (some refreshToken)).filter fun token => token.isRefreshTokenActive now

theorem authenticateRefreshToken_some {refreshToken : String} {now : Instant} {db : OAuthDb} {token : OAuth2Token}
    (found : authenticateRefreshToken refreshToken now db = some token) :
    lookup OAuth2Token.refreshToken db.tokens.rows (some refreshToken) = some token ∧
      token.refreshTokenRevokedAt = 0 ∧ now ≤ seconds (token.issuedAt + token.expiresIn * 2) := by
  obtain ⟨shown, active⟩ := Option.filter_eq_some_iff.mp found
  unfold OAuth2Token.isRefreshTokenActive at active
  split at active
  next => cases active
  next unrevoked => exact ⟨shown, not_not.mp unrevoked, by simpa using active⟩

/-- A clock past the first second of 1970, so that a revocation time is not 0. -/
abbrev Clock := { now : Instant // unixSeconds now ≠ 0 }

/-- The flush writes the column whatever the row holds by now. -/
def revokeOldCredential (credential : OAuth2Token) (now : Clock) (db : OAuthDb) : OAuthDb :=
  { db with tokens :=
      ⟨update (fun row => row.id = credential.id) (fun row => { row with refreshTokenRevokedAt := unixSeconds now })
          db.tokens.rows,
        ⟨db.tokens.valid.id.update fun _ => rfl, db.tokens.valid.accessToken.update fun _ => rfl⟩⟩ }

theorem lookup_revokeOldCredential {κ : Type} [DecidableEq κ] (key : OAuth2Token → κ)
    (keeps : ∀ row revokedAt, key { row with refreshTokenRevokedAt := revokedAt } = key row)
    (credential : OAuth2Token) (now : Clock) (db : OAuthDb) (k : κ) :
    lookup key (revokeOldCredential credential now db).tokens.rows k = (lookup key db.tokens.rows k).map fun row =>
      if row.id = credential.id then { row with refreshTokenRevokedAt := unixSeconds now } else row :=
  lookup_update fun row => keeps row _

/-- What Authlib's `generate_token` returns. -/
structure BearerToken where
  tokenType : String
  accessToken : String
  refreshToken : Option String
  scope : String
  expiresIn : Int
  deriving DecidableEq, Repr

/-- The `save_token` of Authlib's SQLAlchemy integration. -/
def saveToken (token : BearerToken) (clientId : String) (userId : UserId) (now : Instant) (db : OAuthDb) :
    Except PyError (OAuth2Token × OAuthDb) :=
  let row : OAuth2Token :=
    { id := nextId OAuth2Token.id db.tokens.rows
      userId
      clientId
      tokenType := token.tokenType
      accessToken := token.accessToken
      refreshToken := token.refreshToken
      scope := token.scope
      issuedAt := unixSeconds now
      expiresIn := token.expiresIn }
  match Table.store (db.tokens.rows ++ [row]) with
  | none => .error .integrityError
  | some tokens => .ok (row, { db with tokens })

theorem tokenConstraints_append {rows : List OAuth2Token} {row : OAuth2Token} (valid : TokenConstraints rows)
    (next : row.id = nextId OAuth2Token.id rows) :
    TokenConstraints (rows ++ [row]) ↔ ∀ other ∈ rows, other.accessToken ≠ row.accessToken := by
  constructor
  · intro extended
    exact (Keyed.append_singleton.mp extended.accessToken).2
  · intro unused
    refine ⟨Keyed.append_singleton.mpr ⟨valid.id, ?_⟩,
      Keyed.append_singleton.mpr ⟨valid.accessToken, unused⟩⟩
    intro other member same
    have below : other.id < nextId OAuth2Token.id rows := lt_nextId member
    omega

theorem saveToken_ok {token : BearerToken} {clientId : String} {userId : UserId} {now : Instant} {db after : OAuthDb}
    {row : OAuth2Token} (saved : saveToken token clientId userId now db = .ok (row, after)) :
    (∀ other ∈ db.tokens.rows, other.accessToken ≠ token.accessToken) ∧
      row.id = nextId OAuth2Token.id db.tokens.rows ∧ row.refreshTokenRevokedAt = 0 ∧
      after.codes = db.codes ∧ after.tokens.rows = db.tokens.rows ++ [row] := by
  simp only [saveToken] at saved
  split at saved
  next => cases saved
  next tokens stored =>
    cases saved
    have rows := Table.store_some.mp stored
    exact ⟨(tokenConstraints_append db.tokens.valid rfl).mp (rows ▸ tokens.valid), rfl, rfl, rfl, rows⟩

theorem saveToken_error {token : BearerToken} {clientId : String} {userId : UserId} {now : Instant} {db : OAuthDb}
    {raised : PyError} (refused : saveToken token clientId userId now db = .error raised) :
    ¬ ∀ other ∈ db.tokens.rows, other.accessToken ≠ token.accessToken := by
  simp only [saveToken] at refused
  split at refused
  next broken =>
    intro unused
    exact Table.store_none.mp broken ((tokenConstraints_append db.tokens.valid rfl).mpr unused)
  next => cases refused

namespace TokenEndpoint

/-- Where a request is between two commits. `queriedAt` is the time of
`query_authorization_code`; a request that has answered keeps what it redeemed
and the token it answered with. -/
inductive Phase where
  | start
  | validatedCode (code : OAuth2AuthorizationCode) (queriedAt : Instant)
  | savedForCode (code : OAuth2AuthorizationCode) (queriedAt : Instant) (token : OAuth2Token)
  | exchanged (code : OAuth2AuthorizationCode) (queriedAt : Instant) (token : OAuth2Token)
  | validatedRefresh (credential : OAuth2Token)
  | savedForRefresh (credential token : OAuth2Token)
  | refreshed (credential token : OAuth2Token)
  | failed
  deriving DecidableEq, Repr

/-- `reject` is any other check of Authlib's that fails. -/
inductive Input where
  | queryAuthorizationCode (code clientId : String) (now : Instant)
  | authenticateRefreshToken (refreshToken : String) (now : Instant)
  | reject
  | saveToken (token : BearerToken) (now : Instant)
  | deleteAuthorizationCode
  | revokeOldCredential (now : Clock)

def save (token : BearerToken) (clientId : String) (userId : UserId) (now : Instant) (later : OAuth2Token → Phase)
    (db : OAuthDb) : OAuthDb × Phase :=
  match authenticateUser userId db with
  | none => (db, .failed)
  | some user =>
    match saveToken token clientId user.id now db with
    | .error _ => (db, .failed)
    | .ok (row, db) => (db, later row)

structure Accepts (db : OAuthDb) (userId : UserId) (token : BearerToken) : Prop where
  user : ∃ user ∈ db.users.rows, user.id = userId
  accessToken : ∀ row ∈ db.tokens.rows, row.accessToken ≠ token.accessToken

/-- `row` is in the database, under a new id and not revoked; the codes are as before. -/
structure Saved (db after : OAuthDb) (row : OAuth2Token) : Prop where
  id : row.id = nextId OAuth2Token.id db.tokens.rows
  unrevoked : row.refreshTokenRevokedAt = 0
  codes : after.codes = db.codes
  tokens : after.tokens.rows = db.tokens.rows ++ [row]

theorem save_cases {token : BearerToken} {clientId : String} {userId : UserId} {now : Instant}
    {later : OAuth2Token → Phase} {db after : OAuthDb} {phase : Phase}
    (saved : save token clientId userId now later db = (after, phase)) :
    (after = db ∧ phase = .failed ∧ ¬ Accepts db userId token) ∨
      ∃ row, phase = later row ∧ Accepts db userId token ∧ Saved db after row := by
  unfold save at saved
  split at saved
  next unknown =>
    cases saved
    refine .inl ⟨rfl, rfl, ?_⟩
    intro accepted
    obtain ⟨user, member, same⟩ := accepted.user
    exact lookup_none.mp unknown user member same
  next user known =>
    split at saved
    next raised refused =>
      cases saved
      exact .inl ⟨rfl, rfl, fun accepted => saveToken_error refused accepted.accessToken⟩
    next row written stored =>
      cases saved
      obtain ⟨unused, id, unrevoked, codes, tokens⟩ := saveToken_ok stored
      exact .inr ⟨row, rfl, ⟨⟨user, mem_of_lookup known⟩, unused⟩, id, unrevoked, codes, tokens⟩

def advance : Input → OAuthDb → Phase → Option (OAuthDb × Phase)
  | .queryAuthorizationCode code clientId now, db, .start =>
    some (db, (queryAuthorizationCode code clientId now db).elim .failed (.validatedCode · now))
  | .authenticateRefreshToken refreshToken now, db, .start =>
    some (db, (authenticateRefreshToken refreshToken now db).elim .failed .validatedRefresh)
  | .reject, db, .start | .reject, db, .validatedCode _ _ | .reject, db, .validatedRefresh _ => some (db, .failed)
  | .saveToken token now, db, .validatedCode code queriedAt =>
    some (save token code.clientId code.userId now (.savedForCode code queriedAt) db)
  | .saveToken token now, db, .validatedRefresh credential =>
    some (save token credential.clientId credential.userId now (.savedForRefresh credential) db)
  | .deleteAuthorizationCode, db, .savedForCode code queriedAt token =>
    some (deleteAuthorizationCode code db, .exchanged code queriedAt token)
  | .revokeOldCredential now, db, .savedForRefresh credential token =>
    some (revokeOldCredential credential now db, .refreshed credential token)
  | _, _, _ => none

inductive Moved : OAuthDb → Phase → Input → OAuthDb → Phase → Prop where
  | queries {db code clientId now item} (found : Satoidc.queryAuthorizationCode code clientId now db = some item) :
      Moved db .start (.queryAuthorizationCode code clientId now) db (.validatedCode item now)
  | authenticates {db refreshToken now token}
      (found : Satoidc.authenticateRefreshToken refreshToken now db = some token) :
      Moved db .start (.authenticateRefreshToken refreshToken now) db (.validatedRefresh token)
  | fails {db phase input} (unsaved : phase = .start ∨ (∃ code queriedAt, phase = .validatedCode code queriedAt) ∨
      ∃ credential, phase = .validatedRefresh credential) (checking : ∀ token now, input ≠ .saveToken token now) :
      Moved db phase input db .failed
  | refusesForCode {db code queriedAt token now} (refused : ¬ Accepts db code.userId token) :
      Moved db (.validatedCode code queriedAt) (.saveToken token now) db .failed
  | refusesForRefresh {db credential token now} (refused : ¬ Accepts db credential.userId token) :
      Moved db (.validatedRefresh credential) (.saveToken token now) db .failed
  | savesForCode {db after code queriedAt token now row} (accepted : Accepts db code.userId token)
      (saved : Saved db after row) :
      Moved db (.validatedCode code queriedAt) (.saveToken token now) after (.savedForCode code queriedAt row)
  | savesForRefresh {db after credential token now row} (accepted : Accepts db credential.userId token)
      (saved : Saved db after row) :
      Moved db (.validatedRefresh credential) (.saveToken token now) after (.savedForRefresh credential row)
  | deletes {db code queriedAt token} :
      Moved db (.savedForCode code queriedAt token) .deleteAuthorizationCode
        (Satoidc.deleteAuthorizationCode code db) (.exchanged code queriedAt token)
  | revokes {db credential token now} :
      Moved db (.savedForRefresh credential token) (.revokeOldCredential now)
        (Satoidc.revokeOldCredential credential now db) (.refreshed credential token)

theorem advance_moved {db after : OAuthDb} {phase later : Phase} {input : Input}
    (taken : advance input db phase = some (after, later)) : Moved db phase input after later := by
  unfold advance at taken
  split at taken
  next code clientId now =>
    cases found : queryAuthorizationCode code clientId now db with
    | none => rw [found] at taken; cases taken; exact .fails (.inl rfl) nofun
    | some item => rw [found] at taken; cases taken; exact .queries found
  next refreshToken now =>
    cases found : authenticateRefreshToken refreshToken now db with
    | none => rw [found] at taken; cases taken; exact .fails (.inl rfl) nofun
    | some token => rw [found] at taken; cases taken; exact .authenticates found
  next => cases taken; exact .fails (.inl rfl) nofun
  next code queriedAt => cases taken; exact .fails (.inr (.inl ⟨code, queriedAt, rfl⟩)) nofun
  next credential => cases taken; exact .fails (.inr (.inr ⟨credential, rfl⟩)) nofun
  next code queriedAt =>
    rcases save_cases (Option.some.inj taken) with ⟨rfl, rfl, refused⟩ | ⟨row, rfl, accepted, saved⟩
    · exact .refusesForCode refused
    · exact .savesForCode accepted saved
  next credential =>
    rcases save_cases (Option.some.inj taken) with ⟨rfl, rfl, refused⟩ | ⟨row, rfl, accepted, saved⟩
    · exact .refusesForRefresh refused
    · exact .savesForRefresh accepted saved
  next => cases taken; exact .deletes
  next => cases taken; exact .revokes
  next => cases taken

def step : World OAuthDb Phase → Nat × Input → Option (World OAuthDb Phase) :=
  World.step fun _ => advance

def initial (db : OAuthDb) : World OAuthDb Phase := ⟨db, fun _ => .start⟩

end TokenEndpoint

end Satoidc
