import Satoidc.AuthorizationServer

/-! What introspection says of a token and what the endpoints accept. Introspection
judges every token by the access token's lifetime and by both revocation times,
and looks only where the hint points. -/

namespace Satoidc.Proofs.Introspection
open Foundation

/-- Tokens are drawn at random: no string is two of them. -/
def Distinct (rows : List OAuth2Token) : Prop :=
  (rows.flatMap fun row => row.accessToken :: row.refreshToken.toList).Nodup

def Carries (row : OAuth2Token) (token : String) : Prop := row.accessToken = token ∨ row.refreshToken = some token

section distinct
variable {db : OAuthDb} {row other : OAuth2Token} {token : String}

theorem mem_tokens : token ∈ row.accessToken :: row.refreshToken.toList ↔ Carries row token := by
  rw [List.mem_cons, Option.mem_toList, Carries, eq_comm]

theorem Distinct.unique {rows : List OAuth2Token} (distinct : Distinct rows) (left : row ∈ rows) (right : other ∈ rows)
    (mine : Carries row token) (theirs : Carries other token) : row = other := by
  by_contra different
  have symmetric : Std.Symm (Function.onFun List.Disjoint fun row : OAuth2Token => row.accessToken :: row.refreshToken.toList) :=
    ⟨fun _ _ separate => List.Disjoint.symm separate⟩
  have disjoint := (List.nodup_flatMap.mp distinct).2.forall left right different
  exact disjoint (mem_tokens.mpr mine) (mem_tokens.mpr theirs)

theorem Distinct.not_both {rows : List OAuth2Token} (distinct : Distinct rows) (member : row ∈ rows) :
    row.refreshToken ≠ some row.accessToken := by
  have own := (List.nodup_flatMap.mp distinct).1 row member
  intro same
  rw [same] at own
  exact (List.nodup_cons.mp own).1 List.mem_cons_self

/-- Saving a token keeps tokens distinct if it was drawn fresh. -/
theorem Distinct.save {token : BearerToken} {clientId : String} {userId : UserId} {now : Instant} {after : OAuthDb}
    (distinct : Distinct db.tokens.rows) (saved : saveToken token clientId userId now db = .ok (row, after))
    (different : token.refreshToken ≠ some token.accessToken)
    (fresh : ∀ other ∈ db.tokens.rows, ¬ Carries other token.accessToken ∧
      ∀ refreshToken, token.refreshToken = some refreshToken → ¬ Carries other refreshToken) :
    Distinct after.tokens.rows := by
  have shown : row.accessToken = token.accessToken ∧ row.refreshToken = token.refreshToken := by
    simp only [saveToken] at saved
    split at saved
    next => cases saved
    next => cases saved; exact ⟨rfl, rfl⟩
  rw [Distinct, (saveToken_ok saved).2.2.2.2, List.flatMap_append, List.nodup_append]
  refine ⟨distinct, ?_, ?_⟩
  · rw [List.flatMap_singleton, shown.1, shown.2]
    cases drawn : token.refreshToken with
    | none => exact List.nodup_singleton _
    | some refreshToken =>
      rw [drawn] at different
      simpa using fun same => different (congrArg some same.symm)
  · intro old member new inside same
    subst same
    obtain ⟨other, stored, carried⟩ := List.mem_flatMap.mp member
    rw [List.flatMap_singleton, mem_tokens, Carries, shown.1, shown.2] at inside
    rcases inside with access | refresh
    · exact (fresh other stored).1 (access ▸ mem_tokens.mp carried)
    · exact (fresh other stored).2 old refresh (mem_tokens.mp carried)

theorem lookup_accessToken (member : row ∈ db.tokens.rows) :
    lookup OAuth2Token.accessToken db.tokens.rows row.accessToken = some row :=
  (lookup_some db.tokens.valid.accessToken).mpr ⟨member, rfl⟩

theorem lookup_refreshToken (distinct : Distinct db.tokens.rows) (member : row ∈ db.tokens.rows)
    (stored : row.refreshToken = some token) :
    lookup OAuth2Token.refreshToken db.tokens.rows (some token) = some row := by
  cases found : lookup OAuth2Token.refreshToken db.tokens.rows (some token) with
  | none => exact absurd stored (lookup_none.mp found row member)
  | some other =>
    obtain ⟨inside, same⟩ := mem_of_lookup found
    rw [distinct.unique inside member (.inr same) (.inr stored)]

theorem lookup_access_as_refresh (distinct : Distinct db.tokens.rows) (member : row ∈ db.tokens.rows) :
    lookup OAuth2Token.refreshToken db.tokens.rows (some row.accessToken) = none := by
  apply lookup_none.mpr
  intro other inside same
  have one := distinct.unique inside member (.inr same) (.inl rfl)
  subst one
  exact distinct.not_both member same

theorem lookup_refresh_as_access (distinct : Distinct db.tokens.rows) (member : row ∈ db.tokens.rows)
    (stored : row.refreshToken = some token) : lookup OAuth2Token.accessToken db.tokens.rows token = none := by
  apply lookup_none.mpr
  intro other inside same
  have one := distinct.unique inside member (.inl same) (.inr stored)
  subst one
  rw [← same] at stored
  exact distinct.not_both member stored

end distinct

/-- The access token has neither expired nor been revoked with its row. -/
def Live (row : OAuth2Token) (now : Instant) : Prop :=
  now ≤ seconds (row.issuedAt + row.expiresIn) ∧ row.accessTokenRevokedAt = 0 ∧ row.refreshTokenRevokedAt = 0

def Refreshable (row : OAuth2Token) (now : Instant) : Prop :=
  now ≤ seconds (row.issuedAt + row.expiresIn * 2) ∧ row.refreshTokenRevokedAt = 0

theorem seconds_le {first second : Int} : seconds first ≤ seconds second ↔ first ≤ second := by
  unfold seconds
  omega

/-- The row has expired once `issued_at + expires_in` is past. Authlib's own test says so
of every row whose lifetime is not zero. -/
def Plain (isExpired : ExpiryTest) (row : OAuth2Token) : Prop :=
  ∀ now, isExpired row now = decide (seconds (row.issuedAt + row.expiresIn) < now)

theorem isExpired_plain {row : OAuth2Token} (ends : row.expiresIn ≠ 0) : Plain OAuth2Token.isExpired row := by
  intro now
  rw [OAuth2Token.isExpired, if_neg ends]

section valid
variable {isExpired : ExpiryTest} {env : Settings} {db : OAuthDb} {row : OAuth2Token} {token : String} {hint : Option String}
  {now : Instant}

theorem live_iff (plain : Plain isExpired row) : (!isExpired row now && !row.isRevoked) = true ↔ Live row now := by
  rw [plain]
  simp [OAuth2Token.isRevoked, Live]

theorem refreshable_iff : row.isRefreshTokenActive now = true ↔ Refreshable row now := by
  unfold OAuth2Token.isRefreshTokenActive Refreshable
  by_cases revoked : row.refreshTokenRevokedAt = 0
  · simp [revoked]
  · simp [revoked]

theorem introspect_found (plain : Plain isExpired row) (found : queryToken token hint db = some row)
    {claims : IntrospectionClaims} :
    introspectBy isExpired env row.clientId token hint now db = some claims ↔ Live row now ∧
      introspectToken env row = claims := by
  have valid : (isExpired row now || row.isRevoked) = true ↔ ¬ Live row now := by
    rw [← live_iff plain, ← Bool.not_or, Bool.not_eq_true', Bool.not_eq_false]
  simp only [introspectBy, found, ne_eq, not_true_eq_false, if_false]
  by_cases live : Live row now
  · rw [if_neg (valid.not.mpr (not_not.mpr live))]
    simp [live]
  · rw [if_pos (valid.mpr live)]
    simp [live]

theorem introspect_missing (missing : queryToken token hint db = none) {clientId : String} :
    introspectBy isExpired env clientId token hint now db = none := by
  rw [introspectBy, missing]

theorem introspect_active (plain : Plain isExpired row) (found : queryToken token hint db = some row) :
    (introspectBy isExpired env row.clientId token hint now db).isSome ↔ Live row now := by
  rw [Option.isSome_iff_exists]
  constructor
  · rintro ⟨claims, shown⟩
    exact ((introspect_found plain found).mp shown).1
  · intro live
    exact ⟨_, (introspect_found plain found).mpr ⟨live, rfl⟩⟩

theorem authenticateToken_iff (plain : Plain isExpired row) (member : row ∈ db.tokens.rows) :
    authenticateTokenBy isExpired row.accessToken now db = some row ↔ Live row now := by
  rw [authenticateTokenBy, lookup_accessToken member, Option.filter_eq_some_iff, live_iff plain]
  simp

theorem authenticateRefreshToken_iff (distinct : Distinct db.tokens.rows) (member : row ∈ db.tokens.rows)
    (stored : row.refreshToken = some token) :
    authenticateRefreshToken token now db = some row ↔ Refreshable row now := by
  rw [authenticateRefreshToken, lookup_refreshToken distinct member stored, Option.filter_eq_some_iff, refreshable_iff]
  simp

theorem queryToken_access (hint : Option String) (distinct : Distinct db.tokens.rows) (member : row ∈ db.tokens.rows) :
    queryToken row.accessToken hint db = if hint = some "refresh_token" then none else some row := by
  simp only [queryToken, lookup_accessToken member, lookup_access_as_refresh distinct member, Option.some_or]
  split
  next access => simp [access]
  next => rfl

theorem queryToken_refresh (hint : Option String) (distinct : Distinct db.tokens.rows) (member : row ∈ db.tokens.rows)
    (stored : row.refreshToken = some token) :
    queryToken token hint db = if hint = some "access_token" then none else some row := by
  simp only [queryToken, lookup_refresh_as_access distinct member stored, lookup_refreshToken distinct member stored,
    Option.none_or, ite_self]

end valid

/-- What introspection by the owning client says of the two tokens of a row is what
the endpoints do with them. -/
structure Faithful (isExpired : ExpiryTest) (env : Settings) (db : OAuthDb) (row : OAuth2Token) (hint : Option String)
    (now : Instant) : Prop where
  accessToken : (introspectBy isExpired env row.clientId row.accessToken hint now db).isSome ↔
    authenticateTokenBy isExpired row.accessToken now db = some row
  accessExp : ∀ claims, introspectBy isExpired env row.clientId row.accessToken hint now db = some claims →
    ∀ later, authenticateTokenBy isExpired row.accessToken later db = some row ↔ later ≤ seconds claims.exp
  refreshToken : ∀ token, row.refreshToken = some token →
    ((introspectBy isExpired env row.clientId token hint now db).isSome ↔ authenticateRefreshToken token now db = some row)
  refreshExp : ∀ token claims, row.refreshToken = some token →
    introspectBy isExpired env row.clientId token hint now db = some claims →
    ∀ later, authenticateRefreshToken token later db = some row ↔ later ≤ seconds claims.exp

/-- The access token is dead, or looked for where it is; and the refresh token, if there
is one, is dead, or is looked for and has a lifetime of nothing. -/
structure Agrees (row : OAuth2Token) (hint : Option String) (now : Instant) : Prop where
  accessToken : hint = some "refresh_token" → ¬ Live row now
  refreshToken : row.refreshToken ≠ none →
    ¬ Refreshable row now ∧ (hint = some "access_token" ∨ ¬ Live row now) ∨
      hint ≠ some "access_token" ∧ Refreshable row now ∧ Live row now ∧ row.expiresIn = 0

section agree
variable {isExpired : ExpiryTest} {env : Settings} {db : OAuthDb} {row : OAuth2Token} {token : String} {hint : Option String}
  {now : Instant}

theorem accessToken_iff (plain : Plain isExpired row) (distinct : Distinct db.tokens.rows) (member : row ∈ db.tokens.rows) :
    ((introspectBy isExpired env row.clientId row.accessToken hint now db).isSome ↔
        authenticateTokenBy isExpired row.accessToken now db = some row) ↔
      (hint = some "refresh_token" → ¬ Live row now) := by
  rw [authenticateToken_iff plain member]
  have found := queryToken_access hint distinct member
  split at found
  next refresh =>
    rw [introspect_missing found]
    simp [refresh]
  next other => simp [introspect_active plain found, other]

theorem accessExp_holds (plain : Plain isExpired row) (distinct : Distinct db.tokens.rows)
    (member : row ∈ db.tokens.rows) {claims : IntrospectionClaims}
    (shown : introspectBy isExpired env row.clientId row.accessToken hint now db = some claims) (later : Instant) :
    authenticateTokenBy isExpired row.accessToken later db = some row ↔ later ≤ seconds claims.exp := by
  rw [authenticateToken_iff plain member]
  have found := queryToken_access hint distinct member
  split at found
  next =>
    rw [introspect_missing found] at shown
    cases shown
  next =>
    obtain ⟨live, rfl⟩ := (introspect_found plain found).mp shown
    simp [Live, introspectToken, live.2.1, live.2.2]

theorem refreshToken_iff (plain : Plain isExpired row) (distinct : Distinct db.tokens.rows) (member : row ∈ db.tokens.rows)
    (stored : row.refreshToken = some token) :
    ((introspectBy isExpired env row.clientId token hint now db).isSome ↔ authenticateRefreshToken token now db = some row) ↔
      (¬ Refreshable row now ∧ (hint = some "access_token" ∨ ¬ Live row now) ∨
        hint ≠ some "access_token" ∧ Refreshable row now ∧ Live row now) := by
  rw [authenticateRefreshToken_iff distinct member stored]
  have found := queryToken_refresh hint distinct member stored
  split at found
  next access =>
    rw [introspect_missing found]
    simp [access]
  next other =>
    rw [introspect_active plain found]
    tauto

/-- The reported expiry is that of the access token, half way to the other. -/
theorem refreshExp_iff (plain : Plain isExpired row) (distinct : Distinct db.tokens.rows) (member : row ∈ db.tokens.rows)
    (stored : row.refreshToken = some token) :
    (∀ claims, introspectBy isExpired env row.clientId token hint now db = some claims →
        ∀ later, authenticateRefreshToken token later db = some row ↔ later ≤ seconds claims.exp) ↔
      (hint ≠ some "access_token" → Live row now → row.expiresIn = 0) := by
  have found := queryToken_refresh hint distinct member stored
  split at found
  next access =>
    rw [introspect_missing found]
    simp [access]
  next other =>
    simp only [introspect_found plain found, authenticateRefreshToken_iff distinct member stored]
    constructor
    · intro exact _ live
      have notBefore : seconds (row.issuedAt + row.expiresIn) ≤ seconds (row.issuedAt + row.expiresIn * 2) :=
        ((exact _ ⟨live, rfl⟩ _).mpr le_rfl).1
      have notAfter : seconds (row.issuedAt + row.expiresIn * 2) ≤ seconds (row.issuedAt + row.expiresIn) :=
        (exact _ ⟨live, rfl⟩ _).mp ⟨le_rfl, live.2.2⟩
      rw [seconds_le] at notBefore notAfter
      omega
    · rintro zero claims ⟨live, rfl⟩ later
      simp [Refreshable, introspectToken, zero other live, live.2.2]

/-- For a token that lives at all, agreement on its refresh token takes its end. -/
theorem agrees_of_positive (positive : 0 < row.expiresIn) :
    Agrees row hint now ↔
      (hint = some "refresh_token" → ¬ Live row now) ∧ (row.refreshToken ≠ none → ¬ Refreshable row now) := by
  have outlives : Live row now → Refreshable row now := by
    rintro ⟨early, -, unrevoked⟩
    refine ⟨early.trans (seconds_le.mpr ?_), unrevoked⟩
    omega
  have alive : row.expiresIn ≠ 0 := by omega
  constructor
  · rintro ⟨access, refresh⟩
    refine ⟨access, ?_⟩
    intro stored
    rcases refresh stored with ⟨dead, -⟩ | ⟨-, -, -, zero⟩
    · exact dead
    · exact absurd zero alive
  · rintro ⟨access, refresh⟩
    refine ⟨access, ?_⟩
    intro stored
    exact .inl ⟨refresh stored, .inr fun live => refresh stored (outlives live)⟩

end agree

/-- Introspection tells what the endpoints do with the tokens of a row exactly when
the row `Agrees`. -/
theorem introspection_faithful_iff (isExpired : ExpiryTest) (env : Settings) (db : OAuthDb) (distinct : Distinct db.tokens.rows)
    (row : OAuth2Token) (member : row ∈ db.tokens.rows) (plain : Plain isExpired row) (hint : Option String) (now : Instant) :
    Faithful isExpired env db row hint now ↔ Agrees row hint now := by
  constructor
  · intro faithful
    refine ⟨(accessToken_iff plain distinct member).mp faithful.accessToken, ?_⟩
    intro refreshes
    obtain ⟨token, stored⟩ := Option.ne_none_iff_exists'.mp refreshes
    have expiry := (refreshExp_iff plain distinct member stored).mp fun claims => faithful.refreshExp token claims stored
    have refresh := (refreshToken_iff plain distinct member stored).mp (faithful.refreshToken token stored)
    rcases refresh with dead | ⟨hinted, active, live⟩
    · exact .inl dead
    · exact .inr ⟨hinted, active, live, expiry hinted live⟩
  · intro agrees
    refine ⟨(accessToken_iff plain distinct member).mpr agrees.accessToken,
      fun claims shown => accessExp_holds plain distinct member shown, ?_, ?_⟩
    · intro token stored
      apply (refreshToken_iff plain distinct member stored).mpr
      exact (agrees.refreshToken (by simp [stored])).imp_right fun ⟨hinted, active, live, _⟩ => ⟨hinted, active, live⟩
    · intro token claims stored
      refine (refreshExp_iff plain distinct member stored).mpr ?_ claims
      intro hinted live
      rcases agrees.refreshToken (by simp [stored]) with ⟨-, hint | dead⟩ | ⟨-, -, -, zero⟩
      · exact absurd hint hinted
      · exact absurd live dead
      · exact zero

/-- A token row with the default lifetime of 300 seconds. -/
def issuedToken : OAuth2Token where
  id := 1
  userId := 7
  clientId := "app"
  tokenType := "Bearer"
  accessToken := "a1"
  refreshToken := some "r1"
  scope := "openid"
  issuedAt := 0
  expiresIn := 300

def issuedDb : OAuthDb where
  users := ⟨[walletUser 7 "02"], by decide⟩
  codes := ⟨[], .nil⟩
  tokens := ⟨[issuedToken], by decide⟩

theorem ended_faithful : Distinct issuedDb.tokens.rows ∧ Plain OAuth2Token.isExpired issuedToken ∧
    Faithful OAuth2Token.isExpired {} issuedDb issuedToken (some "refresh_token") (seconds 700) := by
  have distinct : Distinct issuedDb.tokens.rows := by
    unfold Distinct
    decide
  have plain : Plain OAuth2Token.isExpired issuedToken := isExpired_plain (by decide)
  have member : issuedToken ∈ issuedDb.tokens.rows := List.mem_singleton.mpr rfl
  refine ⟨distinct, plain, (introspection_faithful_iff _ {} issuedDb distinct issuedToken member plain _ _).mpr ?_⟩
  refine ⟨fun _ live => absurd live.1 (by decide), fun _ => .inl ⟨?_, .inr fun live => absurd live.1 (by decide)⟩⟩
  exact fun active => absurd active.1 (by decide)

theorem refreshable_reported_inactive :
    ¬ Faithful OAuth2Token.isExpired {} issuedDb issuedToken none (seconds 400) ∧
      ¬ Faithful OAuth2Token.isExpired {} issuedDb issuedToken (some "refresh_token") (seconds 10) := by
  constructor
  · intro faithful
    have active := (faithful.refreshToken "r1" rfl).mpr rfl
    cases active
  · intro faithful
    have active := faithful.accessToken.mpr rfl
    cases active

end Satoidc.Proofs.Introspection
