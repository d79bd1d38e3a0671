import Satoidc.AuthorizationServer

/-! How long the tokens of a refresh chain live. The configured lifetime is that of
the code grant; a refresh falls back to Authlib's default. -/

namespace Satoidc.Proofs.TokenLifetimes
open Foundation

/-- One request of the token endpoint, callback by callback. -/
def alone (state : OAuthDb × TokenEndpoint.Phase) (input : TokenEndpoint.Input) : Option (OAuthDb × TokenEndpoint.Phase) :=
  TokenEndpoint.advance input state.1 state.2

section requests
variable {generator : BearerTokenGenerator} {db after : OAuthDb} {row : OAuth2Token}

theorem save_ok {token : BearerToken} {clientId : String} {userId : UserId} {now : Instant} {user : User}
    {later : OAuth2Token → TokenEndpoint.Phase} (known : authenticateUser userId db = some user)
    (saved : saveToken token clientId user.id now db = .ok (row, after)) :
    TokenEndpoint.save token clientId userId now later db = (after, later row) := by
  simp only [TokenEndpoint.save, known, saved]

theorem exchangeCode_run {request : CodeRequest} (answered : exchangeCode generator request db = some (row, after)) :
    ∃ code, run alone (db, .start)
        [.queryAuthorizationCode request.code request.clientId request.queriedAt,
          .saveToken (generator.generate "authorization_code" request.drawn request.includeRefreshToken) request.savedAt,
          .deleteAuthorizationCode] = some (after, .exchanged code request.queriedAt row) := by
  unfold exchangeCode at answered
  split at answered
  next => cases answered
  next code found =>
    split at answered
    next => cases answered
    next user known =>
      split at answered
      next => cases answered
      next token stored saved =>
        cases answered
        have own := (queryAuthorizationCode_some found).2.2.1
        refine ⟨code, ?_⟩
        simp only [run_cons, alone, TokenEndpoint.advance, found, Option.elim_some, Option.bind_some, run_nil]
        rw [own, save_ok known saved]
        rfl

theorem exchangeRefreshToken_run {request : RefreshRequest}
    (answered : exchangeRefreshToken generator request db = some (row, after)) :
    ∃ credential, run alone (db, .start)
        [.authenticateRefreshToken request.refreshToken request.authenticatedAt,
          .saveToken (generator.generate "refresh_token" request.drawn true) request.savedAt,
          .revokeOldCredential request.revokedAt] = some (after, .refreshed credential row) := by
  unfold exchangeRefreshToken at answered
  split at answered
  next => cases answered
  next credential found =>
    split at answered
    next => cases answered
    next own =>
      split at answered
      next => cases answered
      next user known =>
        split at answered
        next => cases answered
        next token stored saved =>
          cases answered
          refine ⟨credential, ?_⟩
          simp only [run_cons, alone, TokenEndpoint.advance, found, Option.elim_some, Option.bind_some, run_nil]
          rw [not_not.mp own, save_ok known saved]
          rfl

end requests

/-- What Authlib's class `BearerToken` defines: a lifetime for the code grant, none
for refreshes, and the default. -/
structure Documented (bearer : BearerTokenClass) : Prop where
  authorizationCode : bearer.grantTypesExpiresIn.get "authorization_code" ≠ none
  refreshToken : bearer.grantTypesExpiresIn.get "refresh_token" = none
  defaultExpiresIn : bearer.defaultExpiresIn = 3600

def serviceGenerator (bearer : BearerTokenClass) (env : Settings) : BearerTokenGenerator :=
  createBearerTokenGenerator bearer (appConfig env)

theorem expires_generator (bearer : BearerTokenClass) (env : Settings) (grantType : String) :
    (serviceGenerator bearer env).expiresGenerator grantType =
      ((bearer.grantTypesExpiresIn.set "authorization_code" env.oauth2TokenExpiresIn).get grantType).getD
        bearer.defaultExpiresIn := rfl

theorem expires_code (bearer : BearerTokenClass) (env : Settings) :
    (serviceGenerator bearer env).expiresGenerator "authorization_code" = env.oauth2TokenExpiresIn := by
  rw [expires_generator, Dict.get_set_self, Option.getD_some]

theorem expires_refresh {bearer : BearerTokenClass} (documented : Documented bearer) (env : Settings) :
    (serviceGenerator bearer env).expiresGenerator "refresh_token" = 3600 := by
  rw [expires_generator, Dict.get_set_other (by decide), documented.refreshToken, Option.getD_none,
    documented.defaultExpiresIn]

/-- A token row as it is written: unrevoked, its access token valid for `lifetime`
seconds and its refresh token for twice as long. -/
structure Lives (row : OAuth2Token) (lifetime : Int) : Prop where
  expiresIn : row.expiresIn = lifetime
  accessToken : ∀ now, row.isExpired now = false ↔ now ≤ seconds (row.issuedAt + lifetime)
  refreshToken : ∀ now, row.isRefreshTokenActive now = true ↔ now ≤ seconds (row.issuedAt + 2 * lifetime)

theorem saveToken_lives {token : BearerToken} {clientId : String} {userId : UserId} {now : Instant} {db after : OAuthDb}
    {row : OAuth2Token} (saved : saveToken token clientId userId now db = .ok (row, after)) (ends : token.expiresIn ≠ 0) :
    Lives row token.expiresIn := by
  have unrevoked := (saveToken_ok saved).2.2.1
  have lifetime : row.expiresIn = token.expiresIn := by
    simp only [saveToken] at saved
    split at saved
    next => cases saved
    next => cases saved; rfl
  refine ⟨lifetime, ?_, ?_⟩
  · intro now
    rw [OAuth2Token.isExpired_eq_false, lifetime]
    simp [ends]
  · intro now
    rw [Int.mul_comm 2]
    simp [OAuth2Token.isRefreshTokenActive, unrevoked, lifetime]

section written
variable {generator : BearerTokenGenerator} {db after : OAuthDb} {row : OAuth2Token}

theorem exchangeCode_lives {request : CodeRequest} (answered : exchangeCode generator request db = some (row, after))
    (ends : generator.expiresGenerator "authorization_code" ≠ 0) :
    Lives row (generator.expiresGenerator "authorization_code") := by
  unfold exchangeCode at answered
  split at answered
  next => cases answered
  next =>
    split at answered
    next => cases answered
    next =>
      split at answered
      next => cases answered
      next saved => cases answered; exact saveToken_lives saved ends

theorem exchangeRefreshToken_lives {request : RefreshRequest}
    (answered : exchangeRefreshToken generator request db = some (row, after))
    (ends : generator.expiresGenerator "refresh_token" ≠ 0) :
    Lives row (generator.expiresGenerator "refresh_token") := by
  unfold exchangeRefreshToken at answered
  split at answered
  next => cases answered
  next =>
    split at answered
    next => cases answered
    next =>
      split at answered
      next => cases answered
      next =>
        split at answered
        next => cases answered
        next saved => cases answered; exact saveToken_lives saved ends

end written

/-- A refresh of the last token of the chain. The rows written so far, the latest first. -/
def refreshLast (generator : BearerTokenGenerator) (chain : OAuthDb × List OAuth2Token) (request : RefreshRequest) :
    Option (OAuthDb × List OAuth2Token) :=
  if (chain.2.head?.bind OAuth2Token.refreshToken) = some request.refreshToken then
    (exchangeRefreshToken generator request chain.1).map fun (row, db) => (db, row :: chain.2)
  else none

theorem refreshLast_some {generator : BearerTokenGenerator} {chain next : OAuthDb × List OAuth2Token} {request : RefreshRequest}
    (taken : refreshLast generator chain request = some next) :
    ∃ row, exchangeRefreshToken generator request chain.1 = some (row, next.1) ∧ next.2 = row :: chain.2 := by
  unfold refreshLast at taken
  split at taken
  next =>
    obtain ⟨⟨row, db⟩, answered, rfl⟩ := Option.map_eq_some_iff.mp taken
    exact ⟨row, answered, rfl⟩
  next => cases taken

theorem refreshes_live {generator : BearerTokenGenerator} {requests : List RefreshRequest}
    {chain final : OAuthDb × List OAuth2Token} (ends : generator.expiresGenerator "refresh_token" ≠ 0)
    (executed : run (refreshLast generator) chain requests = some final) :
    ∃ refreshed, final.2 = refreshed ++ chain.2 ∧ refreshed.length = requests.length ∧
      ∀ row ∈ refreshed, Lives row (generator.expiresGenerator "refresh_token") := by
  induction requests generalizing chain with
  | nil =>
    cases executed
    exact ⟨[], rfl, rfl, fun _ member => nomatch member⟩
  | cons request requests ih =>
    obtain ⟨next, taken, rest⟩ := run_cons_some.mp executed
    obtain ⟨row, answered, written⟩ := refreshLast_some taken
    obtain ⟨refreshed, rows, length, lives⟩ := ih rest
    refine ⟨refreshed ++ [row], ?_, ?_, ?_⟩
    · rw [rows, written, List.append_assoc]
      rfl
    · simp [length]
    · intro other member
      rcases List.mem_append.mp member with earlier | last
      · exact lives other earlier
      · rw [List.mem_singleton.mp last]
        exact exchangeRefreshToken_lives answered ends

/-- The token of the code grant lives as long as the settings say; every token that a
refresh issues lives an hour, and its refresh token two. -/
theorem chain_lifetimes (bearer : BearerTokenClass) (documented : Documented bearer) (env : Settings)
    (positive : 0 < env.oauth2TokenExpiresIn) (request : CodeRequest) (db issued : OAuthDb) (first : OAuth2Token)
    (answered : exchangeCode (serviceGenerator bearer env) request db = some (first, issued))
    (requests : List RefreshRequest) (final : OAuthDb × List OAuth2Token)
    (executed : run (refreshLast (serviceGenerator bearer env)) (issued, [first]) requests = some final) :
    Lives first env.oauth2TokenExpiresIn ∧
      ∃ refreshed, final.2 = refreshed ++ [first] ∧ refreshed.length = requests.length ∧
        ∀ row ∈ refreshed, Lives row 3600 := by
  have code : (serviceGenerator bearer env).expiresGenerator "authorization_code" ≠ 0 := by
    rw [expires_code]
    exact positive.ne'
  have refresh : (serviceGenerator bearer env).expiresGenerator "refresh_token" ≠ 0 := by
    rw [expires_refresh documented]
    decide
  have lives := exchangeCode_lives answered code
  rw [expires_code] at lives
  obtain ⟨refreshed, rows, length, others⟩ := refreshes_live refresh executed
  rw [expires_refresh documented] at others
  exact ⟨lives, refreshed, rows, length, others⟩

def authlibBearer : BearerTokenClass :=
  ⟨Dict.empty.setAll [("authorization_code", 864000), ("implicit", 3600), ("password", 864000), ("client_credentials", 864000)],
    3600⟩

theorem authlibBearer_documented : Documented authlibBearer := ⟨by decide, by decide, rfl⟩

theorem oneWallet : UserConstraints [walletUser 7 "02"] := by decide

def pendingCode : OAuthDb where
  users := ⟨_, oneWallet⟩
  codes := ⟨[{ id := 1, code := "c", clientId := "app", userId := 7, authTime := 100 }], by decide⟩
  tokens := ⟨[], .nil⟩

def codeRequest : CodeRequest where
  clientId := "app"
  code := "c"
  drawn := ⟨"a1", "r1", "openid"⟩
  includeRefreshToken := true
  queriedAt := seconds 110
  savedAt := seconds 111

def refreshRequest : RefreshRequest where
  clientId := "app"
  refreshToken := "r1"
  drawn := ⟨"a2", "r2", "openid"⟩
  authenticatedAt := seconds 200
  savedAt := seconds 201
  revokedAt := ⟨seconds 202, by decide⟩

/-- A code is exchanged under the default setting of 300 seconds, and its token
refreshed once. -/
theorem refreshed_chain_lifetimes : ∃ first issued refreshed final,
    exchangeCode (serviceGenerator authlibBearer {}) codeRequest pendingCode = some (first, issued) ∧
      run (refreshLast (serviceGenerator authlibBearer {})) (issued, [first]) [refreshRequest] =
        some (final, [refreshed, first]) ∧
      Lives first 300 ∧ ∃ rows, [refreshed, first] = rows ++ [first] ∧ rows.length = 1 ∧ ∀ row ∈ rows, Lives row 3600 := by
  refine ⟨_, _, _, _, rfl, rfl, ?_⟩
  exact chain_lifetimes authlibBearer authlibBearer_documented {} (by decide) codeRequest pendingCode _ _ rfl
    [refreshRequest] _ rfl

theorem refreshed_outlives_setting : Documented authlibBearer ∧ ∃ first issued final,
    exchangeCode (serviceGenerator authlibBearer { oauth2TokenExpiresIn := 300 }) codeRequest pendingCode =
        some (first, issued) ∧
      run (refreshLast (serviceGenerator authlibBearer { oauth2TokenExpiresIn := 300 })) (issued, [first]) [refreshRequest] =
        some final ∧
      ¬ ∀ row ∈ final.2, row.expiresIn = 300 := by
  refine ⟨authlibBearer_documented, _, _, _, rfl, rfl, ?_⟩
  intro uniform
  exact absurd (uniform _ List.mem_cons_self) (by decide)

end Satoidc.Proofs.TokenLifetimes
