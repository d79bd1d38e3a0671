import Satoidc.Provider
import Satoidc.Proofs.ScopeClaims
import Satoidc.Foundation.Provenance

/-! What clients hold goes back to what people approved. Codes keep the approved request
as it was, tokens narrow its scope, and nothing else brings either into the store. -/

namespace Satoidc.Proofs.Consents
open Foundation Provider

/-- A person's answer to a client's request. -/
structure Approval where
  userId : UserId
  payload : AuthorizationPayload

/-- The request comes from a session of the person, with the session's token, and says
to approve. -/
def Approves (event : Nat × Input) (approval : Approval) : Prop :=
  ∃ session form, event.2 = .authorize session form approval.payload ∧ session.userId = some approval.userId ∧
    session.csrfToken = some form.csrfToken ∧ form.csrfToken ≠ "" ∧ form.decision = .approve

theorem authorize_approve {accounts : Db} {session : Cookies.ClientSession} {form : Cookies.AuthorizeForm} {user : User}
    (answered : (Cookies.authorize accounts session form).2 = .response .approve user) :
    session.userId = some user.id ∧ session.csrfToken = some form.csrfToken ∧ form.csrfToken ≠ "" ∧
      form.decision = .approve := by
  unfold Cookies.authorize at answered
  split at answered
  next => cases answered
  next uid signedIn =>
    split at answered
    next => cases answered
    next expected drawn =>
      split at answered
      next => cases answered
      next nonempty =>
        have given : form.csrfToken ≠ "" := by
          intro empty
          simp [empty] at nonempty
        split at answered
        next => cases answered
        next => cases answered
        next compared =>
          dsimp only at answered
          split at answered
          next => cases answered
          next known =>
            have same : expected = form.csrfToken := by
              unfold Cookies.compareDigest at compared
              split at compared
              next => simpa using compared
              next => cases compared
            obtain ⟨approve, rfl⟩ := Cookies.AuthorizeAnswer.response.inj answered
            rw [signedIn, drawn, same, (mem_of_lookup known).2]
            exact ⟨rfl, rfl, given, approve⟩

/-- The request that a code was issued for. -/
def payloadOf (row : IssuedCode) : AuthorizationPayload where
  clientId := row.clientId
  redirectUri := row.redirectUri
  scope := row.scope
  nonce := row.nonce
  codeChallenge := row.codeChallenge
  codeChallengeMethod := row.codeChallengeMethod

def approvalOf (row : IssuedCode) : Approval := ⟨row.userId, payloadOf row⟩

/-- The approval under which a request is being served. -/
def approval : Phase → Option Approval
  | .approved userId payload | .checked userId payload => some ⟨userId, payload⟩
  | .issued authCode | .validatedCode _ authCode | .savedForCode _ authCode _ | .exchanged _ authCode _ =>
    some (approvalOf authCode)
  | .start | .validatedRefresh _ | .savedForRefresh _ _ | .refreshed _ _ | .finished => none

/-- What a client may do, and for whom. -/
structure Warrant where
  userId : UserId
  clientId : String
  scope : List String

def Warrant.within (narrow wide : Warrant) : Prop :=
  narrow.userId = wide.userId ∧ narrow.clientId = wide.clientId ∧ narrow.scope ⊆ wide.scope

theorem Warrant.within_refl (warrant : Warrant) : warrant.within warrant := ⟨rfl, rfl, List.Subset.refl _⟩

theorem Warrant.within_trans {narrow middle wide : Warrant} (first : narrow.within middle) (second : middle.within wide) :
    narrow.within wide :=
  ⟨first.1.trans second.1, first.2.1.trans second.2.1, List.Subset.trans first.2.2 second.2.2⟩

def Approval.warrant (approval : Approval) : Warrant :=
  ⟨approval.userId, approval.payload.clientId, scopeWords approval.payload.scope⟩

def tokenWarrant (token : OAuth2Token) : Warrant := ⟨token.userId, token.clientId, scopeWords (some token.scope)⟩

/-- The token that a refresh has loaded. -/
def credential : Phase → Option OAuth2Token
  | .validatedRefresh credential => some credential
  | _ => none

theorem narrows_iff {granted : String} {scope : Option String} :
    narrows granted scope = true ↔ scopeWords (some granted) ⊆ scopeWords scope := by
  simp only [narrows, List.all_eq_true, decide_eq_true_eq]
  rfl

theorem saveAuthorizationCode_approval {code : String} {payload : AuthorizationPayload} {userId : UserId} {now : Instant}
    {codes after : IssuedCodes} {authCode : IssuedCode}
    (saved : AuthorizationEndpoint.saveAuthorizationCode code payload userId now codes = .ok (authCode, after)) :
    approvalOf authCode = ⟨userId, payload⟩ ∧ after.rows = codes.rows ++ [authCode] := by
  simp only [AuthorizationEndpoint.saveAuthorizationCode] at saved
  split at saved
  next => cases saved
  next stored =>
    cases saved
    exact ⟨rfl, Table.store_some.mp stored⟩

theorem saveToken_warrant {token : BearerToken} {clientId : String} {userId : UserId} {now : Instant} {db after : OAuthDb}
    {row : OAuth2Token} (saved : saveToken token clientId userId now db = .ok (row, after)) :
    tokenWarrant row = ⟨userId, clientId, scopeWords (some token.scope)⟩ ∧ after.tokens.rows = db.tokens.rows ++ [row] := by
  simp only [saveToken] at saved
  split at saved
  next => cases saved
  next tokens stored =>
    cases saved
    exact ⟨rfl, Table.store_some.mp stored⟩

/-- Where the codes, the tokens and the request itself go back to after a step. -/
structure Brings (store : Store) (phase : Phase) (event : Nat × Input) (after : Store) (later : Phase) : Prop where
  acts : ∀ item, approval later = some item →
    approval phase = some item ∨ (∃ row ∈ store.codes.rows, approvalOf row = item) ∨ Approves event item
  codes : ∀ row ∈ after.codes.rows, row ∈ store.codes.rows ∨ approval phase = some (approvalOf row)
  loads : ∀ token, credential later = some token →
    credential phase = some token ∨ ∃ refreshToken now, authenticateRefreshToken refreshToken now store.oauth = some token
  tokens : ∀ row ∈ after.tokens.rows, (∃ old ∈ store.tokens.rows, tokenWarrant row = tokenWarrant old) ∨
    (∃ item, approval phase = some item ∧ (tokenWarrant row).within item.warrant) ∨
    ∃ token, credential phase = some token ∧ (tokenWarrant row).within (tokenWarrant token)

/-- A step that stores nothing and goes on with what it had. -/
theorem Brings.quiet {store : Store} {phase later : Phase} {event : Nat × Input}
    (acts : ∀ item, approval later = some item →
      approval phase = some item ∨ (∃ row ∈ store.codes.rows, approvalOf row = item) ∨ Approves event item)
    (loads : ∀ token, credential later = some token →
      credential phase = some token ∨ ∃ refreshToken now, authenticateRefreshToken refreshToken now store.oauth = some token) :
    Brings store phase event store later where
  acts := acts
  codes _ member := .inl member
  loads := loads
  tokens row member := .inl ⟨row, member, rfl⟩

theorem Brings.finishes (store : Store) (phase : Phase) (event : Nat × Input) : Brings store phase event store .finished :=
  .quiet nofun nofun

theorem brings_tokens {store : Store} {phase later : Phase} {event : Nat × Input} {tokens : Table OAuth2Token TokenConstraints}
    (acts : ∀ item, approval later = some item → approval phase = some item) (loads : credential later = none)
    (rows : ∀ row ∈ tokens.rows, (∃ old ∈ store.tokens.rows, tokenWarrant row = tokenWarrant old) ∨
      (∃ item, approval phase = some item ∧ (tokenWarrant row).within item.warrant) ∨
      ∃ token, credential phase = some token ∧ (tokenWarrant row).within (tokenWarrant token)) :
    Brings store phase event { store with tokens } later where
  acts item same := .inl (acts item same)
  codes _ member := .inl member
  loads token same := by rw [loads] at same; cases same
  tokens := rows

theorem save_brings {store after : Store} {phase later : Phase} {event : Nat × Input} {token : BearerToken} {clientId : String}
    {userId : UserId} {now : Instant} {next : OAuth2Token → Phase}
    (saved : save store token clientId userId now next = (after, later))
    (warranted : (∃ item, approval phase = some item ∧
      Warrant.within ⟨userId, clientId, scopeWords (some token.scope)⟩ item.warrant) ∨
      ∃ old, credential phase = some old ∧ Warrant.within ⟨userId, clientId, scopeWords (some token.scope)⟩ (tokenWarrant old))
    (acts : ∀ row item, approval (next row) = some item → approval phase = some item)
    (loads : ∀ row, credential (next row) = none) :
    Brings store phase event after later := by
  unfold save at saved
  split at saved
  next => cases saved; exact .finishes ..
  next user known =>
    split at saved
    next => cases saved; exact .finishes ..
    next row written stored =>
      cases saved
      obtain ⟨warrant, rows⟩ := saveToken_warrant stored
      rw [(mem_of_lookup known).2] at warrant
      apply brings_tokens (acts row) (loads row)
      intro other member
      rw [rows] at member
      rcases List.mem_append.mp member with old | new
      · exact .inl ⟨other, old, rfl⟩
      · cases List.mem_singleton.mp new
        right
        rw [warrant]
        exact warranted

/-- Revocations leave what a token is for as it was. -/
theorem revoked_warrants {rows : List OAuth2Token} {selected : OAuth2Token → Prop} [DecidablePred selected]
    {change : OAuth2Token → OAuth2Token} (keeps : ∀ row, tokenWarrant (change row) = tokenWarrant row) {row : OAuth2Token}
    (member : row ∈ update selected change rows) : ∃ old ∈ rows, tokenWarrant row = tokenWarrant old := by
  obtain ⟨old, stored, rfl⟩ := mem_update.mp member
  refine ⟨old, stored, ?_⟩
  split
  next => exact keeps old
  next => rfl

theorem revokeOldCredential_warrants {credential : OAuth2Token} {now : Clock} {db : OAuthDb} {row : OAuth2Token}
    (member : row ∈ (revokeOldCredential credential now db).tokens.rows) :
    ∃ old ∈ db.tokens.rows, tokenWarrant row = tokenWarrant old :=
  revoked_warrants
    (fun row => (rfl : tokenWarrant { row with refreshTokenRevokedAt := unixSeconds now } = tokenWarrant row)) member

theorem revokeToken_warrants {clientId token : String} {tokenTypeHint : Option String} {now : Clock} {db after : OAuthDb}
    (revoked : revokeToken clientId token tokenTypeHint now db = some after) {row : OAuth2Token}
    (member : row ∈ after.tokens.rows) :
    ∃ old ∈ db.tokens.rows, tokenWarrant row = tokenWarrant old := by
  unfold revokeToken at revoked
  split at revoked
  next => cases revoked; exact ⟨row, member, rfl⟩
  next =>
    split at revoked
    next => cases revoked
    next =>
      cases revoked
      exact revoked_warrants (fun row => (rfl : tokenWarrant (row.revoke tokenTypeHint now) = tokenWarrant row)) member

section callbacks
variable {methods : ChallengeMethods} {store after : Store} {phase later : Phase} {event : Nat × Input}

theorem authorize_brings {session : Cookies.ClientSession} {form : Cookies.AuthorizeForm} {payload : AuthorizationPayload}
    (input : event.2 = .authorize session form payload) :
    Brings store .start event store (authorize store session form payload) := by
  unfold authorize
  split
  next user answered =>
    refine .quiet ?_ nofun
    intro item same
    cases same
    obtain ⟨signedIn, drawn, nonempty, approve⟩ := authorize_approve answered
    exact .inr (.inr ⟨session, form, input, signedIn, drawn, nonempty, approve⟩)
  next => exact .finishes ..

theorem saveCode_brings {userId : UserId} {payload : AuthorizationPayload} {code : String} {now : Instant} {codes : IssuedCodes}
    {authCode : IssuedCode} (acting : approval phase = some ⟨userId, payload⟩)
    (saved : AuthorizationEndpoint.saveAuthorizationCode code payload userId now store.codes = .ok (authCode, codes)) :
    Brings store phase event { store with codes } (.issued authCode) := by
  obtain ⟨approved, rows⟩ := saveAuthorizationCode_approval saved
  rw [← approved] at acting
  refine ⟨?_, ?_, nofun, fun row member => .inl ⟨row, member, rfl⟩⟩
  · intro item same
    exact .inl (acting.trans same)
  · intro row member
    dsimp only at member
    rw [rows] at member
    rcases List.mem_append.mp member with old | new
    · exact .inl old
    · cases List.mem_singleton.mp new
      exact .inr acting

theorem queryCode_brings {exchange : CodeExchange} {now : Instant} {authCode : IssuedCode}
    (found : AuthorizationEndpoint.queryAuthorizationCode exchange.code exchange.clientId now store.codes = some authCode) :
    Brings store phase event store (.validatedCode exchange authCode) := by
  refine .quiet ?_ nofun
  intro item same
  have stored := List.mem_of_find?_eq_some (Option.filter_eq_some_iff.mp found).1
  exact .inr (.inl ⟨authCode, stored, Option.some.inj same⟩)

theorem authenticateRefresh_brings {refreshToken : String} {now : Instant} {token : OAuth2Token}
    (found : authenticateRefreshToken refreshToken now store.oauth = some token) :
    Brings store phase event store (.validatedRefresh token) := by
  refine .quiet nofun ?_
  intro other same
  cases same
  exact .inr ⟨refreshToken, now, found⟩

theorem saveForCode_brings {exchange : CodeExchange} {authCode : IssuedCode} {token : BearerToken} {now : Instant}
    (narrow : narrows token.scope authCode.scope = true)
    (saved : save store token authCode.clientId authCode.userId now (.savedForCode exchange authCode) = (after, later)) :
    Brings store (.validatedCode exchange authCode) event after later := by
  have warranted : Warrant.within ⟨authCode.userId, authCode.clientId, scopeWords (some token.scope)⟩
    (approvalOf authCode).warrant :=
    ⟨rfl, rfl, narrows_iff.mp narrow⟩
  exact save_brings saved (.inl ⟨_, rfl, warranted⟩) (fun _ _ same => same) fun _ => rfl

theorem saveForRefresh_brings {credential : OAuth2Token} {token : BearerToken} {now : Instant}
    (narrow : narrows token.scope (some credential.scope) = true)
    (saved : save store token credential.clientId credential.userId now (.savedForRefresh credential) = (after, later)) :
    Brings store (.validatedRefresh credential) event after later := by
  have warranted : Warrant.within ⟨credential.userId, credential.clientId, scopeWords (some token.scope)⟩
    (tokenWarrant credential) :=
    ⟨rfl, rfl, narrows_iff.mp narrow⟩
  exact save_brings saved (.inr ⟨_, rfl, warranted⟩) (fun _ _ same => (by cases same)) fun _ => rfl

theorem delete_brings {exchange : CodeExchange} {authCode : IssuedCode} {token : OAuth2Token} :
    Brings store (.savedForCode exchange authCode token) event
      { store with codes := AuthorizationEndpoint.deleteAuthorizationCode authCode store.codes }
        (.exchanged exchange authCode token) where
  acts _ same := .inl same
  codes _ member := .inl (List.mem_filter.mp member).1
  loads := nofun
  tokens row member := .inl ⟨row, member, rfl⟩

theorem accounts_brings {accounts : Db} : Brings store phase event { store with accounts } phase where
  acts _ same := .inl same
  codes _ member := .inl member
  loads _ same := .inl same
  tokens row member := .inl ⟨row, member, rfl⟩

end callbacks

theorem advance_brings {methods : ChallengeMethods} {store after : Store} {phase later : Phase} {mover : Nat} {input : Input}
    (taken : advance methods mover input store phase = some (after, later)) : Brings store phase (mover, input) after later := by
  unfold advance at taken
  split at taken
  next => cases taken; exact authorize_brings rfl
  next =>
    split at taken
    next => cases taken; exact .finishes ..
    next => cases taken; exact .quiet (fun _ same => .inl same) nofun
  next =>
    split at taken
    next => cases taken; exact .finishes ..
    next saved => cases taken; exact saveCode_brings rfl saved
  next =>
    split at taken
    next => cases taken; exact .finishes ..
    next found =>
      cases taken
      split
      next => exact queryCode_brings found
      next => exact .finishes ..
  next =>
    split at taken
    next => cases taken; exact .finishes ..
    next found =>
      cases taken
      split
      next => exact authenticateRefresh_brings found
      next => exact .finishes ..
  next => cases taken; exact .finishes ..
  next => cases taken; exact .finishes ..
  next => cases taken; exact .finishes ..
  next => cases taken; exact .finishes ..
  next =>
    split at taken
    next narrow => exact saveForCode_brings narrow (Option.some.inj taken)
    next => cases taken
  next =>
    split at taken
    next narrow => exact saveForRefresh_brings narrow (Option.some.inj taken)
    next => cases taken
  next => cases taken; exact delete_brings
  next =>
    cases taken
    exact brings_tokens nofun rfl fun row member => .inl (revokeOldCredential_warrants member)
  next =>
    split at taken
    next => cases taken; exact .finishes ..
    next revoked =>
      cases taken
      exact brings_tokens nofun rfl fun row member => .inl (revokeToken_warrants revoked member)
  next => cases taken; exact accounts_brings
  next => cases taken

/-- Some request is being served, or some code is stored, under the approval. -/
def ActsUnder (world : World Store Phase) (item : Approval) : Prop :=
  (∃ index, approval (world.sessions index) = some item) ∨ ∃ row ∈ world.shared.codes.rows, approvalOf row = item

/-- Some code or token, stored or being worked with, lets a client do what the warrant says. -/
def Permits (world : World Store Phase) (warrant : Warrant) : Prop :=
  (∃ item, ActsUnder world item ∧ item.warrant = warrant) ∨
    (∃ index token, credential (world.sessions index) = some token ∧ tokenWarrant token = warrant) ∨
    ∃ token ∈ world.shared.tokens.rows, tokenWarrant token = warrant

variable {methods : ChallengeMethods}

/-- A session of the world after a step is the mover's new one or as it was. -/
theorem moved_session {world : World Store Phase} {mover : Nat} {shared : Store} {session : Phase} (index : Nat) :
    (world.moved mover shared session).sessions index = session ∧ index = mover ∨
      (world.moved mover shared session).sessions index = world.sessions index := by
  by_cases same : index = mover
  · subst same
    exact .inl ⟨World.moved_self .., rfl⟩
  · exact .inr (World.moved_other _ _ _ same)

theorem brought_actsUnder {world : World Store Phase} {mover : Nat} {input : Input} {shared : Store} {session : Phase}
    (brings : Brings world.shared (world.sessions mover) (mover, input) shared session) {item : Approval}
    (acting : ActsUnder (world.moved mover shared session) item) : ActsUnder world item ∨ Approves (mover, input) item := by
  rcases acting with ⟨index, same⟩ | ⟨row, member, same⟩
  · rcases moved_session index with ⟨moved, -⟩ | still
    · rw [moved] at same
      rcases brings.acts item same with before | stored | approves
      · exact .inl (.inl ⟨mover, before⟩)
      · exact .inl (.inr stored)
      · exact .inr approves
    · rw [still] at same
      exact .inl (.inl ⟨index, same⟩)
  · subst same
    rcases brings.codes row member with old | before
    · exact .inl (.inr ⟨row, old, rfl⟩)
    · exact .inl (.inl ⟨mover, before⟩)

theorem approvals_traced : Provenance (step methods) Eq ActsUnder (fun _ event item => Approves event item) where
  refl _ := rfl
  trans := Eq.trans
  traced := by
    intro world event next item taken acting
    obtain ⟨shared, session, moved, rfl⟩ := World.step_some.mp taken
    exact ⟨item, rfl, brought_actsUnder (advance_brings moved) acting⟩

theorem warrants_traced : Provenance (step methods) Warrant.within Permits
    (fun _ event warrant => ∃ item, Approves event item ∧ item.warrant = warrant) where
  refl := Warrant.within_refl
  trans := Warrant.within_trans
  traced := by
    intro world event next warrant taken permits
    obtain ⟨shared, session, moved, rfl⟩ := World.step_some.mp taken
    have brings := advance_brings moved
    rcases permits with ⟨item, acting, rfl⟩ | ⟨index, token, same, rfl⟩ | ⟨token, member, rfl⟩
    · refine ⟨_, Warrant.within_refl _, ?_⟩
      rcases brought_actsUnder brings acting with before | approves
      · exact .inl (.inl ⟨item, before, rfl⟩)
      · exact .inr ⟨item, approves, rfl⟩
    · refine ⟨_, Warrant.within_refl _, .inl ?_⟩
      rcases moved_session index with ⟨mine, -⟩ | still
      · rw [mine] at same
        rcases brings.loads token same with before | ⟨refreshToken, now, found⟩
        · exact .inr (.inl ⟨event.1, token, before, rfl⟩)
        · exact .inr (.inr ⟨token, (mem_of_lookup (authenticateRefreshToken_some found).1).1, rfl⟩)
      · rw [still] at same
        exact .inr (.inl ⟨index, token, same, rfl⟩)
    · rcases brings.tokens token member with ⟨old, stored, same⟩ | ⟨item, before, narrow⟩ | ⟨loaded, before, narrow⟩
      · exact ⟨_, Warrant.within_refl _, .inl (.inr (.inr ⟨old, stored, same.symm⟩))⟩
      · exact ⟨item.warrant, narrow, .inl (.inl ⟨item, .inl ⟨event.1, before⟩, rfl⟩)⟩
      · exact ⟨tokenWarrant loaded, narrow, .inl (.inr (.inl ⟨event.1, loaded, before, rfl⟩))⟩

theorem not_actsUnder_initial {accounts : Db} {item : Approval} : ¬ ActsUnder (initial accounts) item := by
  rintro (⟨index, same⟩ | ⟨row, member, -⟩)
  · cases same
  · cases member

theorem not_permits_initial {accounts : Db} {warrant : Warrant} : ¬ Permits (initial accounts) warrant := by
  rintro (⟨item, acting, -⟩ | ⟨index, token, same, -⟩ | ⟨token, member, -⟩)
  · exact not_actsUnder_initial acting
  · cases same
  · cases member

/-- The person has approved the request earlier in the run. -/
def Approved (methods : ChallengeMethods) (accounts : Db) (past : List (Nat × Input)) (approval : Approval) : Prop :=
  Occurred (step methods) (initial accounts) past fun _ event => Approves event approval

variable {accounts : Db} {events : List (Nat × Input)} {final : World Store Phase}

theorem approved_of_actsUnder (executed : run (step methods) (initial accounts) events = some final) {item : Approval}
    (acting : ActsUnder final item) : Approved methods accounts events item := by
  obtain ⟨source, rfl, first | occurred⟩ := approvals_traced.run executed acting
  · exact absurd first not_actsUnder_initial
  · exact occurred

theorem approved_of_permits (executed : run (step methods) (initial accounts) events = some final) {warrant : Warrant}
    (permits : Permits final warrant) : ∃ item, Approved methods accounts events item ∧ warrant.within item.warrant := by
  obtain ⟨source, narrow, first | occurred⟩ := warrants_traced.run executed permits
  · exact absurd first not_permits_initial
  · obtain ⟨before, event, after, state, split, partway, item, approves, rfl⟩ := occurred
    exact ⟨item, ⟨before, event, after, state, split, partway, approves⟩, narrow⟩

/-- Whoever holds a stored token, its user has approved a request of its client for at
least its scope, whatever requests ran at the same time. -/
theorem tokens_consented (executed : run (step methods) (initial accounts) events = some final) {token : OAuth2Token}
    (stored : token ∈ final.shared.tokens.rows) :
    ∃ payload, Approved methods accounts events ⟨token.userId, payload⟩ ∧ payload.clientId = token.clientId ∧
      scopeWords (some token.scope) ⊆ scopeWords payload.scope := by
  obtain ⟨⟨userId, payload⟩, approved, user, client, scope⟩ := approved_of_permits executed (.inr (.inr ⟨token, stored, rfl⟩))
  cases (user : token.userId = userId)
  exact ⟨payload, approved, client.symm, scope⟩

def alice : User :=
  { id := 7, lnurlPubkey := none, email := some "alice@example.com", login := some "alice21", passwordHash := none,
    nickname := "Alice" }

def verifier : String := "dBjftJeZ4CVP-mB92K27uhbUJU1p1r_wW1gFWFOEjXk"

def plainOnly : ChallengeMethods := fun method challenge verifier => method = "plain" && challenge = verifier

def asked : AuthorizationPayload where
  clientId := "client-1"
  redirectUri := some "https://app.example/cb"
  scope := some "openid profile email"
  nonce := some "n-1"
  codeChallenge := some verifier
  codeChallengeMethod := some "plain"

def presented : CodeExchange where
  clientId := "client-1"
  code := "code-1"
  redirectUri := some "https://app.example/cb"
  codeVerifier := some verifier

/-- Alice approves, the client redeems its code and refreshes its token for less. -/
def approvedAndRefreshed : List (Nat × Input) :=
  [(0, .authorize { userId := some 7, csrfToken := some "csrf" } ⟨.approve, "csrf"⟩ asked), (0, .existsNonce),
    (0, .saveAuthorizationCode "code-1" 0), (1, .queryAuthorizationCode presented 0),
    (1, .saveToken ⟨"Bearer", "access-1", some "refresh-1", "openid profile email", 300⟩ 0), (1, .deleteAuthorizationCode),
    (2, .authenticateRefreshToken "client-1" "refresh-1" 0),
    (2, .saveToken ⟨"Bearer", "access-2", some "refresh-2", "openid profile", 300⟩ 0)]

def aliceOnly : Db := ⟨⟨[alice], by decide⟩, ⟨[], List.nodup_nil⟩⟩

def afterRefresh : World Store Phase := (run (step plainOnly) (initial aliceOnly) approvedAndRefreshed).getD (initial aliceOnly)

theorem afterRefresh_reached : run (step plainOnly) (initial aliceOnly) approvedAndRefreshed = some afterRefresh := rfl

theorem refreshed_token_consented :
    ∃ token ∈ afterRefresh.shared.tokens.rows, token.accessToken = "access-2" ∧
      ∃ payload, Approved plainOnly aliceOnly approvedAndRefreshed ⟨token.userId, payload⟩ ∧ payload.clientId = token.clientId ∧
        scopeWords (some token.scope) ⊆ scopeWords payload.scope := by
  refine ⟨_, List.mem_cons_of_mem _ List.mem_cons_self, rfl, ?_⟩
  exact tokens_consented afterRefresh_reached (List.mem_cons_of_mem _ List.mem_cons_self)

/-- The exchange that a request has been let go on with, and the code for it. -/
def redeems : Phase → Option (CodeExchange × IssuedCode)
  | .validatedCode exchange authCode | .savedForCode exchange authCode _ | .exchanged exchange authCode _ =>
    some (exchange, authCode)
  | _ => none

/-- The token that a request has saved for a code. -/
def saved : Phase → Option (IssuedCode × OAuth2Token)
  | .savedForCode _ authCode token | .exchanged _ authCode token => some (authCode, token)
  | _ => none

/-- The exchange presents the code it is for, and the token is for the code's person and
client. -/
structure Bound (methods : ChallengeMethods) (phase : Phase) : Prop where
  exchange : ∀ exchange authCode, redeems phase = some (exchange, authCode) →
    exchange.clientId = authCode.clientId ∧ exchange.matches methods authCode = true
  token : ∀ authCode token, saved phase = some (authCode, token) → token.userId = authCode.userId ∧
    token.clientId = authCode.clientId

theorem Bound.idle {phase : Phase} (idle : redeems phase = none) (unsaved : saved phase = none) : Bound methods phase where
  exchange _ _ same := by rw [idle] at same; cases same
  token _ _ same := by rw [unsaved] at same; cases same

theorem queried_client {code clientId : String} {now : Instant} {codes : IssuedCodes} {authCode : IssuedCode}
    (found : AuthorizationEndpoint.queryAuthorizationCode code clientId now codes = some authCode) :
    authCode.clientId = clientId := by
  have selected := List.find?_some (Option.filter_eq_some_iff.mp found).1
  simp only [decide_eq_true_eq] at selected
  exact selected.2

theorem save_bound {store after : Store} {later : Phase} {exchange : CodeExchange} {authCode : IssuedCode} {token : BearerToken}
    {now : Instant} (bound : Bound methods (.validatedCode exchange authCode))
    (wrote : save store token authCode.clientId authCode.userId now (.savedForCode exchange authCode) = (after, later)) :
    Bound methods later := by
  unfold save at wrote
  split at wrote
  next => cases wrote; exact .idle rfl rfl
  next user known =>
    split at wrote
    next => cases wrote; exact .idle rfl rfl
    next row written stored =>
      cases wrote
      have warrant := (saveToken_warrant stored).1
      refine ⟨fun _ _ same => bound.exchange _ _ same, ?_⟩
      rintro _ _ ⟨⟩
      exact ⟨(congrArg Warrant.userId warrant).trans (mem_of_lookup known).2, congrArg Warrant.clientId warrant⟩

theorem save_idle {store after : Store} {later : Phase} {loaded : OAuth2Token} {token : BearerToken} {now : Instant}
    (wrote : save store token loaded.clientId loaded.userId now (.savedForRefresh loaded) = (after, later)) :
    Bound methods later := by
  unfold save at wrote
  split at wrote
  next => cases wrote; exact .idle rfl rfl
  next =>
    split at wrote
    next => cases wrote; exact .idle rfl rfl
    next => cases wrote; exact .idle rfl rfl

theorem advance_bound {store after : Store} {phase later : Phase} {mover : Nat} {input : Input} (bound : Bound methods phase)
    (taken : advance methods mover input store phase = some (after, later)) : Bound methods later := by
  unfold advance at taken
  split at taken
  next =>
    cases taken
    unfold authorize
    split
    next => exact .idle rfl rfl
    next => exact .idle rfl rfl
  next =>
    split at taken
    next => cases taken; exact .idle rfl rfl
    next => cases taken; exact .idle rfl rfl
  next =>
    split at taken
    next => cases taken; exact .idle rfl rfl
    next => cases taken; exact .idle rfl rfl
  next exchange now =>
    split at taken
    next => cases taken; exact .idle rfl rfl
    next authCode found =>
      cases taken
      split
      next matching =>
        refine ⟨?_, fun _ _ same => (by cases same)⟩
        intro other code same
        cases same
        exact ⟨(queried_client found).symm, matching⟩
      next => exact .idle rfl rfl
  next =>
    split at taken
    next => cases taken; exact .idle rfl rfl
    next =>
      cases taken
      split
      next => exact .idle rfl rfl
      next => exact .idle rfl rfl
  next => cases taken; exact .idle rfl rfl
  next => cases taken; exact .idle rfl rfl
  next => cases taken; exact .idle rfl rfl
  next => cases taken; exact .idle rfl rfl
  next =>
    split at taken
    next => exact save_bound bound (Option.some.inj taken)
    next => cases taken
  next =>
    split at taken
    next => exact save_idle (Option.some.inj taken)
    next => cases taken
  next => cases taken; exact ⟨fun _ _ same => bound.exchange _ _ same, fun _ _ same => bound.token _ _ same⟩
  next => cases taken; exact .idle rfl rfl
  next =>
    split at taken
    next => cases taken; exact .idle rfl rfl
    next => cases taken; exact .idle rfl rfl
  next => cases taken; exact bound
  next => cases taken

theorem sessions_bound (executed : run (step methods) (initial accounts) events = some final) (index : Nat) :
    Bound methods (final.sessions index) := by
  refine run_invariant (fun world => ∀ index, Bound methods (world.sessions index)) ?_ (fun _ => .idle rfl rfl) executed index
  intro world event next bound taken index
  obtain ⟨shared, session, moved, rfl⟩ := World.step_some.mp taken
  rcases moved_session index with ⟨mine, -⟩ | still
  · rw [mine]
    exact advance_bound (bound event.1) moved
  · rw [still]
    exact bound index

theorem matches_redirect {exchange : CodeExchange} {authCode : IssuedCode} (matching : exchange.matches methods authCode = true)
    (named : truthy authCode.redirectUri = true) : exchange.redirectUri = authCode.redirectUri := by
  simp only [CodeExchange.matches, Bool.and_eq_true, Bool.or_eq_true, Bool.not_eq_true', decide_eq_true_eq] at matching
  exact matching.1.resolve_left (Bool.not_eq_false _ ▸ named)

theorem matches_challenge {exchange : CodeExchange} {authCode : IssuedCode} {challenge : String}
    (matching : exchange.matches methods authCode = true) (shown : authCode.codeChallenge = some challenge)
    (some : challenge ≠ "") :
    ∃ verifier, exchange.codeVerifier = .some verifier ∧
      methods (authCode.codeChallengeMethod.getD "plain") challenge verifier = true := by
  have checked : exchange.meets methods authCode = true := (Bool.and_eq_true_iff.mp matching).2
  rw [CodeExchange.meets, shown] at checked
  cases presented : exchange.codeVerifier with
  | none => simp [presented, truthy, some] at checked
  | some verifier =>
    have challenged : ¬ (decide (challenge = "") && decide (verifier = "")) = true := by simp [some]
    simp only [presented] at checked
    rw [if_neg challenged] at checked
    exact ⟨verifier, rfl, (Bool.and_eq_true_iff.mp checked).2⟩

/-- A client that gets a token for a code is the one whose request was approved, for the
person who approved it, and meets the redirect URI and the challenge of that request. -/
theorem responses_bound (executed : run (step methods) (initial accounts) events = some final) {index : Nat}
    {exchange : CodeExchange} {authCode : IssuedCode} {token : OAuth2Token}
    (answered : final.sessions index = .exchanged exchange authCode token) :
    ∃ payload, Approved methods accounts events ⟨token.userId, payload⟩ ∧ payload.clientId = exchange.clientId ∧
      token.clientId = exchange.clientId ∧ (truthy payload.redirectUri = true → exchange.redirectUri = payload.redirectUri) ∧
      ∀ challenge, payload.codeChallenge = some challenge → challenge ≠ "" → ∃ verifier,
        exchange.codeVerifier = some verifier ∧
          methods (payload.codeChallengeMethod.getD "plain") challenge verifier = true := by
  have bound := sessions_bound executed index
  have approved := approved_of_actsUnder executed (.inl ⟨index, by rw [answered]; rfl⟩)
  rw [answered] at bound
  obtain ⟨client, matching⟩ := bound.exchange exchange authCode rfl
  obtain ⟨user, audience⟩ := bound.token authCode token rfl
  refine ⟨payloadOf authCode, user ▸ approved, client.symm, audience.trans client.symm, matches_redirect matching, ?_⟩
  intro challenge shown nonempty
  exact matches_challenge matching shown nonempty

theorem presented_bound :
    ∃ authCode token, afterRefresh.sessions 1 = .exchanged presented authCode token ∧
      ∃ payload, Approved plainOnly aliceOnly approvedAndRefreshed ⟨token.userId, payload⟩ ∧
        payload.clientId = presented.clientId ∧
        token.clientId = presented.clientId ∧ (truthy payload.redirectUri = true → presented.redirectUri = payload.redirectUri) ∧
        ∀ challenge, payload.codeChallenge = some challenge → challenge ≠ "" → ∃ verifier,
          presented.codeVerifier = some verifier ∧
            plainOnly (payload.codeChallengeMethod.getD "plain") challenge verifier = true := by
  refine ⟨_, _, rfl, ?_⟩
  exact @responses_bound plainOnly aliceOnly approvedAndRefreshed _ afterRefresh_reached 1 presented _ _ rfl

theorem mem_scopeWords {word scope : String} : word ∈ scopeWords (some scope) ↔ word.toList ∈ splitWords scope.toList := by
  simp only [scopeWords, Option.getD_some, List.mem_map]
  constructor
  · rintro ⟨part, member, rfl⟩
    rwa [String.toList_ofList]
  · intro member
    exact ⟨word.toList, member, String.ofList_toList⟩

theorem email_word : Word "email".toList := by
  have visible : "email".toList.all (fun c => !isSpace c) = true := by decide
  refine ⟨by decide, ?_⟩
  intro c member
  simpa using List.all_eq_true.mp visible c member

/-- Claims about a person go to clients whose request the person has approved with the
scope `profile`, and the email only if some word of the approved scope contains it. -/
theorem disclosures_consented (executed : run (step methods) (initial accounts) events = some final)
    {token : String} {now : Instant}
    {row : OAuth2Token} {claims : UserInfo} (released : userinfo token now final.shared.oauth = some (row, claims)) :
    ∃ payload, Approved methods accounts events ⟨claims.sub, payload⟩ ∧ payload.clientId = row.clientId ∧
      "profile" ∈ scopeWords payload.scope ∧
      (claims.email ≠ none → ∃ word ∈ scopeWords payload.scope, "email".toList <:+: word.toList) := by
  unfold userinfo at released
  split at released
  next => cases released
  next loaded found =>
    split at released
    next => cases released
    next profile =>
      obtain ⟨user, known, same⟩ := Option.map_eq_some_iff.mp released
      obtain ⟨rfl, rfl⟩ := Prod.mk.inj same
      have stored : loaded ∈ final.shared.tokens.rows := (mem_of_lookup (Option.filter_eq_some_iff.mp found).1).1
      obtain ⟨⟨userId, payload⟩, approved, sameUser, sameClient, scope⟩ :=
        approved_of_permits executed (.inr (.inr ⟨loaded, stored, rfl⟩))
      have client : payload.clientId = loaded.clientId := Eq.symm sameClient
      have subject : userId = user.id := Eq.trans (Eq.symm sameUser) (mem_of_lookup known).2.symm
      rw [subject] at approved
      have named : "profile" ∈ scopeWords (some loaded.scope) := mem_scopeWords.mpr (not_not.mp profile)
      refine ⟨payload, approved, client, scope named, ?_⟩
      intro disclosed
      have mentioned : inScope "email" loaded.scope = true := by
        by_contra missing
        exact disclosed (if_neg missing)
      obtain ⟨part, member, within⟩ := (infix_splitWords email_word).mp (ScopeClaims.inScope_iff.mp mentioned)
      have word : (String.ofList part).toList = part := String.toList_ofList
      rw [← word] at member within
      exact ⟨String.ofList part, scope (mem_scopeWords.mpr member), within⟩

theorem alice_disclosure_consented :
    ∃ row claims, userinfo "access-1" 0 afterRefresh.shared.oauth = some (row, claims) ∧
      claims.email = some (some "alice@example.com") ∧
      ∃ payload, Approved plainOnly aliceOnly approvedAndRefreshed ⟨claims.sub, payload⟩ ∧ payload.clientId = row.clientId ∧
        "profile" ∈ scopeWords payload.scope ∧
        (claims.email ≠ none → ∃ word ∈ scopeWords payload.scope, "email".toList <:+: word.toList) := by
  refine ⟨_, _, rfl, rfl, ?_⟩
  exact @disclosures_consented plainOnly aliceOnly approvedAndRefreshed _ afterRefresh_reached "access-1" 0 _ _ rfl

end Satoidc.Proofs.Consents
