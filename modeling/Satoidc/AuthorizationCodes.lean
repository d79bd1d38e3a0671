import Satoidc.AuthorizationServer

/-! The authorization endpoint: a request's nonce is looked up among the stored codes,
and later its code is stored with the nonce. The token endpoint deletes the codes that
it redeems. Each callback is a query or a transaction of its own. -/

namespace Satoidc
open Foundation

/-- What Authlib's authorization grant hands to the callbacks: the payload of a request
to `/oauth/authorize`, whose client id is the one of the client it has looked up. -/
structure AuthorizationPayload where
  clientId : String
  redirectUri : Option String := none
  scope : Option String := none
  nonce : Option String := none
  codeChallenge : Option String := none
  codeChallengeMethod : Option String := none
  deriving DecidableEq, Repr

/-- A row of `oauth2_code` as `AuthorizationCodeGrant` writes it. -/
structure IssuedCode extends OAuth2AuthorizationCode where
  redirectUri : Option String
  scope : Option String
  nonce : Option String
  codeChallenge : Option String
  codeChallengeMethod : Option String
  deriving DecidableEq, Repr

def IssuedConstraints (rows : List IssuedCode) : Prop :=
  CodeConstraints (rows.map IssuedCode.toOAuth2AuthorizationCode)

instance : DecidablePred IssuedConstraints := fun rows =>
  inferInstanceAs (Decidable (CodeConstraints (rows.map IssuedCode.toOAuth2AuthorizationCode)))

theorem IssuedConstraints.nil : IssuedConstraints [] := CodeConstraints.nil

abbrev IssuedCodes := Table IssuedCode IssuedConstraints

namespace AuthorizationEndpoint

/-- `exists_nonce`. A comparison with `None` is an `IS NULL`. -/
def existsNonce (nonce : Option String) (payload : AuthorizationPayload) (codes : IssuedCodes) : Bool :=
  codes.rows.any fun row => row.clientId = payload.clientId && row.nonce = nonce

def saveAuthorizationCode (code : String) (payload : AuthorizationPayload) (userId : UserId) (now : Instant)
    (codes : IssuedCodes) : Except PyError (IssuedCode × IssuedCodes) :=
  let authCode : IssuedCode :=
    { id := nextId (fun row => row.id) codes.rows
      code
      clientId := payload.clientId
      userId
      authTime := unixSeconds now
      redirectUri := payload.redirectUri
      scope := payload.scope
      nonce := payload.nonce
      codeChallenge := payload.codeChallenge
      codeChallengeMethod := payload.codeChallengeMethod }
  match Table.store (codes.rows ++ [authCode]) with
  | none => .error .integrityError
  | some codes => .ok (authCode, codes)

def queryAuthorizationCode (code clientId : String) (now : Instant) (codes : IssuedCodes) : Option IssuedCode :=
  (codes.rows.find? fun item => item.code = code ∧ item.clientId = clientId).filter fun item => !item.isExpired now

theorem issuedConstraints_filter {rows : List IssuedCode} (valid : IssuedConstraints rows) (selected : IssuedCode → Bool) :
    IssuedConstraints (rows.filter selected) := by
  have fewer : (rows.filter selected).Sublist rows := List.filter_sublist
  have mapped := fewer.map IssuedCode.toOAuth2AuthorizationCode
  exact ⟨valid.id.sublist (mapped.map _), valid.code.sublist (mapped.map _)⟩

def deleteAuthorizationCode (authorizationCode : IssuedCode) (codes : IssuedCodes) : IssuedCodes :=
  ⟨codes.rows.filter fun row => row.id ≠ authorizationCode.id, issuedConstraints_filter codes.valid _⟩

theorem issuedConstraints_append {rows : List IssuedCode} {row : IssuedCode} (valid : IssuedConstraints rows)
    (next : row.id = nextId (fun row => row.id) rows) :
    IssuedConstraints (rows ++ [row]) ↔ ∀ other ∈ rows, other.code ≠ row.code := by
  unfold IssuedConstraints
  rw [List.map_append, List.map_singleton]
  constructor
  · rintro ⟨-, code⟩ other member
    exact (Keyed.append_singleton.mp code).2 _ (List.mem_map_of_mem member)
  · intro unused
    refine ⟨Keyed.append_singleton.mpr ⟨valid.id, ?_⟩, Keyed.append_singleton.mpr ⟨valid.code, ?_⟩⟩
    · rintro _ stored same
      obtain ⟨other, member, rfl⟩ := List.mem_map.mp stored
      have below := @lt_nextId IssuedCode (fun row => row.id) rows other member
      omega
    · rintro _ stored
      obtain ⟨other, member, rfl⟩ := List.mem_map.mp stored
      exact unused other member

/-- A code that is not stored yet is stored with what the payload asks for. -/
theorem saveAuthorizationCode_ok {code : String} {payload : AuthorizationPayload} {userId : UserId} {now : Instant}
    {codes after : IssuedCodes} {authCode : IssuedCode}
    (saved : saveAuthorizationCode code payload userId now codes = .ok (authCode, after)) :
    (∀ row ∈ codes.rows, row.code ≠ code) ∧ authCode.clientId = payload.clientId ∧ authCode.nonce = payload.nonce ∧
      after.rows = codes.rows ++ [authCode] := by
  simp only [saveAuthorizationCode] at saved
  split at saved
  next => cases saved
  next stored =>
    cases saved
    have rows := Table.store_some.mp stored
    exact ⟨(issuedConstraints_append codes.valid rfl).mp (rows ▸ after.valid), rfl, rfl, rows⟩

theorem saveAuthorizationCode_error {code : String} {payload : AuthorizationPayload} {userId : UserId} {now : Instant}
    {codes : IssuedCodes} {raised : PyError} (refused : saveAuthorizationCode code payload userId now codes = .error raised) :
    ¬ ∀ row ∈ codes.rows, row.code ≠ code := by
  simp only [saveAuthorizationCode] at refused
  split at refused
  next broken =>
    intro unused
    exact Table.store_none.mp broken ((issuedConstraints_append codes.valid rfl).mpr unused)
  next => cases refused

/-- The rows as the token endpoint's callbacks read them. -/
def asCodes (codes : IssuedCodes) : Table OAuth2AuthorizationCode CodeConstraints :=
  ⟨codes.rows.map IssuedCode.toOAuth2AuthorizationCode, codes.valid⟩

theorem queryAuthorizationCode_asCodes (code clientId : String) (now : Instant) (codes : IssuedCodes) (db : OAuthDb) :
    Satoidc.queryAuthorizationCode code clientId now { db with codes := asCodes codes } =
      (queryAuthorizationCode code clientId now codes).map IssuedCode.toOAuth2AuthorizationCode := by
  rw [queryAuthorizationCode, Satoidc.queryAuthorizationCode, asCodes, List.find?_map, Option.filter_map]
  rfl

theorem deleteAuthorizationCode_asCodes (authorizationCode : IssuedCode) (codes : IssuedCodes) (db : OAuthDb) :
    Satoidc.deleteAuthorizationCode authorizationCode.toOAuth2AuthorizationCode { db with codes := asCodes codes } =
      { db with codes := asCodes (deleteAuthorizationCode authorizationCode codes) } := by
  simp only [Satoidc.deleteAuthorizationCode, deleteAuthorizationCode, asCodes, List.filter_map]
  rfl

theorem store_asCodes (codes : IssuedCodes) (row : IssuedCode) :
    (Table.store ((asCodes codes).rows ++ [row.toOAuth2AuthorizationCode]) :
    Option (Table OAuth2AuthorizationCode CodeConstraints)) =
      (Table.store (codes.rows ++ [row]) : Option IssuedCodes).map asCodes := by
  have mapped : (asCodes codes).rows ++ [row.toOAuth2AuthorizationCode] =
    (codes.rows ++ [row]).map IssuedCode.toOAuth2AuthorizationCode := by
    rw [List.map_append]
    rfl
  rw [mapped]
  cases stored : (Table.store (codes.rows ++ [row]) : Option IssuedCodes) with
  | none =>
    have refused : ¬ IssuedConstraints (codes.rows ++ [row]) := Table.store_none.mp stored
    exact Table.store_none.mpr refused
  | some table => exact Table.store_some.mpr (congrArg (List.map _) (Table.store_some.mp stored))

/-- The authorization endpoint of the client service stores the same row. -/
theorem saveAuthorizationCode_asCodes (code : String) (payload : AuthorizationPayload) (userId : UserId) (now : Instant)
    (codes : IssuedCodes) (db : OAuthDb) :
    ClientService.saveAuthorizationCode code payload.clientId userId now { db with codes := asCodes codes } =
      (saveAuthorizationCode code payload userId now codes).toOption.map fun saved => { db with codes := asCodes saved.2 } := by
  have nextIds : nextId OAuth2AuthorizationCode.id (asCodes codes).rows = nextId (fun row => row.id) codes.rows := by
    rw [nextId, asCodes, List.map_map]
    rfl
  simp only [ClientService.saveAuthorizationCode, saveAuthorizationCode, nextIds]
  generalize row : IssuedCode.mk _ _ _ _ _ _ = authCode
  have stored := store_asCodes codes authCode
  rw [← row] at stored ⊢
  dsimp only at stored
  rw [stored]
  split
  next refused => rw [refused]; rfl
  next table saved => rw [saved]; rfl

/-- The stored codes, and every code that has ever been issued. -/
structure Store where
  codes : IssuedCodes
  issued : List IssuedCode

/-- Where a request is between two callbacks. A request whose nonce was not found
remembers how many codes had been issued by then. -/
inductive Phase where
  | start
  | rejected
  | checked (payload : AuthorizationPayload) (seen : Nat)
  | issued (authCode : IssuedCode)
  | queried (authCode : IssuedCode)
  | redeemed (authCode : IssuedCode)
  | failed
  deriving DecidableEq

inductive Input where
  | existsNonce (payload : AuthorizationPayload)
  | saveAuthorizationCode (code : String) (userId : UserId) (now : Instant)
  | queryAuthorizationCode (code clientId : String) (now : Instant)
  | deleteAuthorizationCode

def advance : Input → Store → Phase → Option (Store × Phase)
  | .existsNonce payload, store, .start =>
    if existsNonce payload.nonce payload store.codes then some (store, .rejected)
    else some (store, .checked payload store.issued.length)
  | .saveAuthorizationCode code userId now, store, .checked payload _ =>
    match saveAuthorizationCode code payload userId now store.codes with
    | .error _ => some (store, .failed)
    | .ok (authCode, codes) => some (⟨codes, store.issued ++ [authCode]⟩, .issued authCode)
  | .queryAuthorizationCode code clientId now, store, .start =>
    some (store, (queryAuthorizationCode code clientId now store.codes).elim .failed .queried)
  | .deleteAuthorizationCode, store, .queried authCode =>
    some ({ store with codes := deleteAuthorizationCode authCode store.codes }, .redeemed authCode)
  | _, _, _ => none

def step : World Store Phase → Nat × Input → Option (World Store Phase) :=
  World.step fun _ => advance

/-- No code has been issued yet, and no request has started. -/
def initial : World Store Phase := ⟨⟨⟨[], .nil⟩, []⟩, fun _ => .start⟩

end AuthorizationEndpoint

end Satoidc
