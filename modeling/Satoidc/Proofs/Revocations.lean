import Satoidc.Proofs.Consents
import Satoidc.Foundation.AppendOnly

/-! Revocation is for good. Whatever requests run at the same time, what a token row says
about a revocation stays, so no endpoint serves the token again, and a refresh token is
used only by requests that were past their check by then. -/

namespace Satoidc.Proofs.Revocations
open Foundation Provider

/-- A token row later on: what it is for is the same, and what is revoked stays so. -/
structure TokenSince (before later : OAuth2Token) : Prop where
  clientId : later.clientId = before.clientId
  accessToken : later.accessToken = before.accessToken
  refreshToken : later.refreshToken = before.refreshToken
  accessRevoked : before.accessTokenRevokedAt ≠ 0 → later.accessTokenRevokedAt ≠ 0
  refreshRevoked : before.refreshTokenRevokedAt ≠ 0 → later.refreshTokenRevokedAt ≠ 0

theorem TokenSince.refl (token : OAuth2Token) : TokenSince token token := ⟨rfl, rfl, rfl, id, id⟩

theorem TokenSince.trans {first second third : OAuth2Token} (left : TokenSince first second) (right : TokenSince second third) :
    TokenSince first third where
  clientId := right.clientId.trans left.clientId
  accessToken := right.accessToken.trans left.accessToken
  refreshToken := right.refreshToken.trans left.refreshToken
  accessRevoked revoked := right.accessRevoked (left.accessRevoked revoked)
  refreshRevoked revoked := right.refreshRevoked (left.refreshRevoked revoked)

theorem TokenSince.isRevoked {before later : OAuth2Token} (since : TokenSince before later) (revoked : before.isRevoked = true) :
    later.isRevoked = true := by
  simp only [OAuth2Token.isRevoked, Bool.or_eq_true, decide_eq_true_eq] at revoked ⊢
  exact revoked.imp since.accessRevoked since.refreshRevoked

theorem TokenSince.revoke (tokenTypeHint : Option String) (now : Clock) (token : OAuth2Token) :
    TokenSince token (token.revoke tokenTypeHint now) := by
  refine ⟨rfl, rfl, rfl, fun _ => now.property, ?_⟩
  intro revoked
  simp only [OAuth2Token.revoke]
  split
  · exact revoked
  · exact now.property

abbrev Grows (store after : Store) : Prop := Extends TokenSince store.tokens.rows after.tokens.rows

section step
variable {methods : ChallengeMethods} {store after : Store} {phase later : Phase} {input : Input} {mover : Nat}

theorem save_grows {token : BearerToken} {clientId : String} {userId : UserId} {now : Instant} {next : OAuth2Token → Phase}
    (saved : save store token clientId userId now next = (after, later)) : Grows store after := by
  unfold save at saved
  split at saved
  next => cases saved; exact .refl .refl _
  next =>
    split at saved
    next => cases saved; exact .refl .refl _
    next stored =>
      cases saved
      obtain ⟨-, -, -, -, rows⟩ := saveToken_ok stored
      rw [Grows, rows]
      exact .append .refl _ _

theorem revokeToken_grows {clientId token : String} {tokenTypeHint : Option String} {now : Clock} {db after : OAuthDb}
    (revoked : revokeToken clientId token tokenTypeHint now db = some after) :
    Extends TokenSince db.tokens.rows after.tokens.rows := by
  unfold revokeToken at revoked
  split at revoked
  next => cases revoked; exact .refl .refl _
  next =>
    split at revoked
    next => cases revoked
    next => cases revoked; exact .update .refl (TokenSince.revoke tokenTypeHint now) _

theorem revokeOldCredential_grows (credential : OAuth2Token) (now : Clock) (db : OAuthDb) :
    Extends TokenSince db.tokens.rows (revokeOldCredential credential now db).tokens.rows :=
  .update .refl (fun _ => ⟨rfl, rfl, rfl, id, fun _ => now.property⟩) _

theorem advance_grows (taken : advance methods mover input store phase = some (after, later)) : Grows store after := by
  have idle : Grows store store := .refl .refl _
  unfold advance at taken
  split at taken
  next => cases taken; exact idle
  next => split at taken <;> cases taken <;> exact idle
  next => split at taken <;> cases taken <;> exact idle
  next => split at taken <;> cases taken <;> exact idle
  next => split at taken <;> cases taken <;> exact idle
  next => cases taken; exact idle
  next => cases taken; exact idle
  next => cases taken; exact idle
  next => cases taken; exact idle
  next =>
    split at taken
    next => exact save_grows (Option.some.inj taken)
    next => cases taken
  next =>
    split at taken
    next => exact save_grows (Option.some.inj taken)
    next => cases taken
  next => cases taken; exact idle
  next => cases taken; exact revokeOldCredential_grows ..
  next =>
    split at taken
    next => cases taken; exact idle
    next revoked => cases taken; exact revokeToken_grows revoked
  next => cases taken; exact idle
  next => cases taken

theorem authenticateToken_revoked {token : String} {row : OAuth2Token} {db : OAuthDb} {now : Instant}
    (found : lookup OAuth2Token.accessToken db.tokens.rows token = some row) (revoked : row.isRevoked = true) :
    authenticateToken token now db = none := by
  rw [authenticateToken, authenticateTokenBy, found, Option.filter_some, revoked]
  simp

theorem userinfo_revoked {token : String} {row : OAuth2Token} {db : OAuthDb} {now : Instant}
    (found : lookup OAuth2Token.accessToken db.tokens.rows token = some row) (revoked : row.isRevoked = true) :
    userinfo token now db = none := by
  rw [userinfo, authenticateToken_revoked found revoked]

theorem introspect_revoked {env : Settings} {clientId token : String} {tokenTypeHint : Option String} {row : OAuth2Token}
    {db : OAuthDb} {now : Instant} (found : queryToken token tokenTypeHint db = some row) (revoked : row.isRevoked = true) :
    introspect env clientId token tokenTypeHint now db = none := by
  simp [introspect, introspectBy, found, revoked]

theorem authenticateRefreshToken_revoked {refreshToken : String} {row : OAuth2Token} {db : OAuthDb} {now : Instant}
    (found : lookup OAuth2Token.refreshToken db.tokens.rows (some refreshToken) = some row)
    (revoked : row.refreshTokenRevokedAt ≠ 0) :
    authenticateRefreshToken refreshToken now db = none := by
  cases accepted : authenticateRefreshToken refreshToken now db with
  | none => rfl
  | some token =>
    obtain ⟨shown, unrevoked, -⟩ := authenticateRefreshToken_some accepted
    cases found.symm.trans shown
    exact absurd unrevoked revoked

end step

section runs
variable {methods : ChallengeMethods} {world final : World Store Phase} {events : List (Nat × Input)}

theorem run_grows (executed : run (step methods) world events = some final) : Grows world.shared final.shared := by
  refine run_history (fun _ reached => Grows world.shared reached.shared) (.refl .refl _) ?_ (along_true world events) executed
  intro past reached event next _ grows _ taken
  obtain ⟨shared, session, moved, rfl⟩ := World.step_some.mp taken
  exact grows.trans .trans (advance_grows moved)

/-- A revoked access token is never served again. -/
theorem revoked_unserved (executed : run (step methods) world events = some final) {row : OAuth2Token}
    (stored : row ∈ world.shared.tokens.rows) (revoked : row.isRevoked = true) (now : Instant) :
    userinfo row.accessToken now final.shared.oauth = none ∧
      ∀ env clientId tokenTypeHint, tokenTypeHint ≠ some "refresh_token" →
        introspect env clientId row.accessToken tokenTypeHint now final.shared.oauth = none := by
  have found := (lookup_some world.shared.tokens.valid.accessToken).mpr ⟨stored, rfl⟩
  obtain ⟨later, still, since⟩ := (run_grows executed).lookup (fun _ _ since => since.accessToken) found
  have ended := since.isRevoked revoked
  refine ⟨userinfo_revoked still ended, ?_⟩
  intro env clientId tokenTypeHint hint
  refine introspect_revoked ?_ ended
  simp only [queryToken, if_neg hint]
  split
  · exact still
  · exact Option.or_eq_some_iff.mpr (.inl still)

theorem checked_unrevoked (executed : run (step methods) world events = some final) {refreshToken : String} {row : OAuth2Token}
    (found : lookup OAuth2Token.refreshToken world.shared.tokens.rows (some refreshToken) = some row)
    (revoked : row.refreshTokenRevokedAt ≠ 0) (now : Instant) :
    authenticateRefreshToken refreshToken now final.shared.oauth = none := by
  obtain ⟨later, still, since⟩ := (run_grows executed).lookup (fun _ _ since => since.refreshToken) found
  exact authenticateRefreshToken_revoked still (since.refreshRevoked revoked)

theorem validating {phase : Phase} {token : OAuth2Token} (held : Consents.credential phase = some token) :
    phase = .validatedRefresh token := by
  cases phase with
  | validatedRefresh credential => rw [Option.some.inj held]
  | _ => cases held

/-- A revoked refresh token is accepted by no check from then on, so only the requests
that had made theirs can use it. -/
theorem revoked_unrefreshable (executed : run (step methods) world events = some final) {refreshToken : String}
    {row : OAuth2Token}
    (found : lookup OAuth2Token.refreshToken world.shared.tokens.rows (some refreshToken) = some row)
    (revoked : row.refreshTokenRevokedAt ≠ 0) :
    (∀ now, authenticateRefreshToken refreshToken now final.shared.oauth = none) ∧
      ∀ index credential, final.sessions index = .validatedRefresh credential → credential.refreshToken = some refreshToken →
        world.sessions index = .validatedRefresh credential := by
  refine ⟨checked_unrevoked executed found revoked, ?_⟩
  refine run_history (fun _ reached => ∀ index credential, reached.sessions index = .validatedRefresh credential →
    credential.refreshToken = some refreshToken → world.sessions index = .validatedRefresh credential)
    (fun _ _ held _ => held) ?_ (along_true world events) executed
  intro past reached event next partway known _ taken index credential held named
  obtain ⟨shared, session, moved, rfl⟩ := World.step_some.mp taken
  rcases @Consents.moved_session reached event.1 shared session index with ⟨mine, rfl⟩ | still
  · rw [mine] at held
    subst held
    rcases (Consents.advance_brings moved).loads credential rfl with before | ⟨other, now, accepted⟩
    · exact known _ credential (validating before) named
    · -- the check would have found the revoked row
      have same := (mem_of_lookup (authenticateRefreshToken_some accepted).1).2
      cases Option.some.inj (same.symm.trans named)
      cases (checked_unrevoked partway found revoked now).symm.trans accepted
  · rw [still] at held
    exact known index credential held named

end runs

/-- The client revokes the token that it got last. -/
def revoking : Nat × Input := (3, .revoke "client-1" "refresh-2" none ⟨6000000, by decide⟩)

def afterRevocation : World Store Phase :=
  (step Consents.plainOnly Consents.afterRefresh revoking).getD Consents.afterRefresh

def revokedToken : OAuth2Token where
  id := 2
  userId := 7
  clientId := "client-1"
  tokenType := "Bearer"
  accessToken := "access-2"
  refreshToken := some "refresh-2"
  scope := "openid profile"
  issuedAt := 0
  expiresIn := 300
  accessTokenRevokedAt := 6
  refreshTokenRevokedAt := 6

def retrying : List (Nat × Input) := [(4, .authenticateRefreshToken "client-1" "refresh-2" 7000000)]

theorem retried_unserved :
    ∃ final, run (step Consents.plainOnly) afterRevocation retrying = some final ∧
      revokedToken ∈ afterRevocation.shared.tokens.rows ∧
      userinfo "access-2" 8000000 final.shared.oauth = none ∧
      ∀ env clientId tokenTypeHint, tokenTypeHint ≠ some "refresh_token" →
        introspect env clientId "access-2" tokenTypeHint 8000000 final.shared.oauth = none := by
  refine ⟨_, rfl, List.mem_cons_of_mem _ List.mem_cons_self, ?_⟩
  exact @revoked_unserved Consents.plainOnly afterRevocation _ retrying rfl revokedToken
    (List.mem_cons_of_mem _ List.mem_cons_self) rfl 8000000

theorem retried_unrefreshable :
    ∃ final, run (step Consents.plainOnly) afterRevocation retrying = some final ∧
      (∀ now, authenticateRefreshToken "refresh-2" now final.shared.oauth = none) ∧
      ∀ index credential, final.sessions index = .validatedRefresh credential → credential.refreshToken = some "refresh-2" →
        afterRevocation.sessions index = .validatedRefresh credential := by
  refine ⟨_, rfl, ?_⟩
  exact @revoked_unrefreshable Consents.plainOnly afterRevocation _ retrying rfl "refresh-2" revokedToken rfl (by decide)

end Satoidc.Proofs.Revocations
