import Satoidc.OAuth2
import Satoidc.Foundation.Redemption
import Satoidc.Foundation.Simulation

/-! Refresh tokens as single-use tickets that are redeemed for fresh ones. A
refresh holds, issues and consumes; a code exchange mints the first token of a
family. -/

namespace Satoidc.Proofs.RefreshChains
open Foundation TokenEndpoint
open Redemption (Status Stage Move)

/-- A token row is redeemed by revoking its refresh token. -/
def tokenStatus (db : OAuthDb) (id : Nat) : Status :=
  match lookup OAuth2Token.id db.tokens.rows id with
  | none => .absent
  | some row => if row.refreshTokenRevokedAt = 0 then .available else .consumed

theorem tokenStatus_absent {db : OAuthDb} {id : Nat} : tokenStatus db id = .absent ↔ ∀ row ∈ db.tokens.rows, row.id ≠ id := by
  unfold tokenStatus
  split
  next missing => exact ⟨fun _ => lookup_none.mp missing, fun _ => rfl⟩
  next row found =>
    obtain ⟨member, same⟩ := mem_of_lookup found
    refine ⟨?_, fun none => absurd same (none row member)⟩
    intro absent
    split at absent <;> cases absent

theorem tokenStatus_available {db : OAuthDb} {id : Nat} :
    tokenStatus db id = .available ↔ ∃ row ∈ db.tokens.rows, row.id = id ∧ row.refreshTokenRevokedAt = 0 := by
  unfold tokenStatus
  split
  next missing =>
    refine ⟨fun absent => (by cases absent), ?_⟩
    rintro ⟨row, member, same, _⟩
    exact absurd same (lookup_none.mp missing row member)
  next row found =>
    obtain ⟨member, same⟩ := mem_of_lookup found
    constructor
    · intro available
      split at available
      next unrevoked => exact ⟨row, member, same, unrevoked⟩
      next => cases available
    · rintro ⟨other, stored, equal, unrevoked⟩
      cases db.tokens.valid.id.unique member stored (same.trans equal.symm)
      exact if_pos unrevoked

theorem tokenStatus_saved {db after : OAuthDb} {row : OAuth2Token} (saved : Saved db after row) :
    tokenStatus db row.id = .absent ∧ tokenStatus after = Redemption.opened (tokenStatus db) (some row.id) := by
  have absent : ∀ other ∈ db.tokens.rows, other.id ≠ row.id := by
    intro other member same
    have below : other.id < nextId OAuth2Token.id db.tokens.rows := lt_nextId member
    have next := saved.id
    omega
  refine ⟨tokenStatus_absent.mpr absent, ?_⟩
  funext id
  simp only [Redemption.opened, Function.update_apply, tokenStatus, saved.tokens, lookup_append_singleton]
  by_cases same : id = row.id
  · subst same
    rw [lookup_none.mpr absent, if_pos rfl, if_pos rfl, Option.none_or]
    exact if_pos saved.unrevoked
  · rw [if_neg same, if_neg (Ne.symm same), Option.or_none]

theorem tokenStatus_revoke {db : OAuthDb} {credential row : OAuth2Token} (now : Clock)
    (stored : row ∈ db.tokens.rows) (same : row.id = credential.id) :
    tokenStatus (Satoidc.revokeOldCredential credential now db) =
      Function.update (tokenStatus db) credential.id .consumed := by
  funext id
  simp only [Function.update_apply, tokenStatus, lookup_revokeOldCredential OAuth2Token.id fun _ _ => rfl]
  by_cases equal : id = credential.id
  · rw [(lookup_some db.tokens.valid.id).mpr ⟨stored, same.trans equal.symm⟩, Option.map_some, if_pos same, if_pos equal]
    exact if_neg now.property
  · rw [if_neg equal]
    cases found : lookup OAuth2Token.id db.tokens.rows id with
    | none => rfl
    | some other => rw [Option.map_some, if_neg fun hit => equal ((mem_of_lookup found).2.symm.trans hit)]

def tokenStage : Phase → Stage Nat
  | .validatedRefresh credential => .holding credential.id
  | .savedForRefresh credential token => .issued credential.id (some token.id)
  | .refreshed credential token => .redeemed credential.id (some token.id)
  | .failed => .failed
  | .start | .validatedCode _ _ | .savedForCode _ _ _ | .exchanged _ _ _ => .idle

def tokenMove : Phase → Phase → Move Nat
  | _, .validatedRefresh credential => .hold credential.id
  | _, .failed => .fail
  | _, .savedForRefresh _ token => .issue (some token.id)
  | _, .refreshed _ _ => .finish
  | _, .savedForCode _ _ token => .mint (some token.id)
  | _, _ => .mint none

def credentialOf : Phase → Option OAuth2Token
  | .validatedRefresh credential | .savedForRefresh credential _ | .refreshed credential _ => some credential
  | .start | .validatedCode _ _ | .savedForCode _ _ _ | .exchanged _ _ _ | .failed => none

/-- The credential's row is the one that its refresh token finds. -/
def Found (db : OAuthDb) (credential : OAuth2Token) : Prop :=
  ∃ row, lookup OAuth2Token.refreshToken db.tokens.rows credential.refreshToken = some row ∧ row.id = credential.id

def Known (world : World OAuthDb Phase) : Prop :=
  ∀ index credential, credentialOf (world.sessions index) = some credential → Found world.shared credential

theorem Found.congr {db after : OAuthDb} {credential : OAuth2Token} (found : Found db credential)
    (same : after.tokens = db.tokens) : Found after credential := by
  unfold Found
  rw [same]
  exact found

theorem Found.saved {db after : OAuthDb} {credential row : OAuth2Token} (found : Found db credential)
    (saved : Saved db after row) : Found after credential := by
  obtain ⟨stored, shown, same⟩ := found
  refine ⟨stored, ?_, same⟩
  rw [saved.tokens, lookup_append_singleton, shown, Option.some_or]

theorem Found.revoked {db : OAuthDb} {credential revoked : OAuth2Token} (found : Found db credential) (now : Clock) :
    Found (Satoidc.revokeOldCredential revoked now db) credential := by
  obtain ⟨stored, shown, same⟩ := found
  unfold Found
  rw [lookup_revokeOldCredential OAuth2Token.refreshToken fun _ _ => rfl, shown]
  refine ⟨_, rfl, ?_⟩
  dsimp only
  split <;> exact same

theorem moved_found {db after : OAuthDb} {phase later : Phase} {input : Input} {credential : OAuth2Token}
    (moved : Moved db phase input after later) (found : Found db credential) : Found after credential := by
  cases moved with
  | queries _ | authenticates _ | fails _ _ | refusesForCode _ | refusesForRefresh _ => exact found
  | savesForCode accepted saved | savesForRefresh accepted saved => exact found.saved saved
  | deletes => exact found.congr rfl
  | @revokes _ _ now => exact found.revoked now

theorem moved_credential {db after : OAuthDb} {phase later : Phase} {input : Input} {credential : OAuth2Token}
    (moved : Moved db phase input after later) (holds : credentialOf later = some credential) :
    credentialOf phase = some credential ∨ Found db credential := by
  cases moved with
  | authenticates found =>
    cases holds
    obtain ⟨shown, -, -⟩ := authenticateRefreshToken_some found
    refine .inr ⟨credential, ?_, rfl⟩
    rw [(mem_of_lookup shown).2]
    exact shown
  | queries _ | fails _ _ | refusesForCode _ | refusesForRefresh _ | savesForCode _ _ | deletes => cases holds
  | savesForRefresh _ _ | revokes => exact .inl holds

theorem Known.step {world next : World OAuthDb Phase} {event : Nat × Input} (known : Known world)
    (taken : TokenEndpoint.step world event = some next) : Known next := by
  obtain ⟨mover, input⟩ := event
  obtain ⟨shared, session, stepped, rfl⟩ := World.step_some.mp taken
  have moved := advance_moved stepped
  intro index credential holds
  refine moved_found moved ?_
  by_cases same : index = mover
  · subst same
    rw [World.moved_self] at holds
    rcases moved_credential moved holds with before | found
    · exact known index credential before
    · exact found
  · rw [World.moved_other _ _ _ same] at holds
    exact known index credential holds

theorem known_initial (db : OAuthDb) : Known (initial db) := by rintro _ _ ⟨⟩

theorem tokenMove_simulates {db after : OAuthDb} {phase later : Phase} {input : Input}
    (moved : Moved db phase input after later)
    (known : ∀ credential, credentialOf phase = some credential → Found db credential) :
    Redemption.advance (tokenMove phase later) (tokenStatus db) (tokenStage phase) =
      some (tokenStatus after, tokenStage later) := by
  cases moved with
  | queries _ | deletes | refusesForCode _ | refusesForRefresh _ => rfl
  | authenticates found =>
    obtain ⟨shown, unrevoked, -⟩ := authenticateRefreshToken_some found
    have available := tokenStatus_available.mpr ⟨_, (mem_of_lookup shown).1, rfl, unrevoked⟩
    exact if_pos available
  | fails unsaved checking => rcases unsaved with rfl | ⟨code, queriedAt, rfl⟩ | ⟨credential, rfl⟩ <;> rfl
  | savesForCode accepted saved | savesForRefresh accepted saved =>
    obtain ⟨absent, opened⟩ := tokenStatus_saved saved
    rw [opened]
    exact if_pos (decide_eq_true absent)
  | @revokes credential token now =>
    obtain ⟨row, shown, same⟩ := known credential rfl
    rw [tokenStatus_revoke now (mem_of_lookup shown).1 same]
    rfl

def tokens : SessionSimulation (fun _ => TokenEndpoint.advance) (fun _ => Redemption.advance (ι := Nat)) where
  invariant := Known
  view := tokenStatus
  stage := tokenStage
  move := tokenMove
  keeps _ _ _ known taken := known.step taken
  steps _ _ _ _ _ known taken := tokenMove_simulates (advance_moved taken) (known _)

/-- A token that the database accepts is saved for a refresh only while the old
row is not revoked and no other request has saved one for it that it has yet to
follow with the revocation. -/
def RotatesAlone (world : World OAuthDb Phase) (event : Nat × Input) : Prop :=
  match event.2, world.sessions event.1 with
  | .saveToken token _, .validatedRefresh credential => Accepts world.shared credential.userId token →
    (∃ row ∈ world.shared.tokens.rows, row.id = credential.id ∧ row.refreshTokenRevokedAt = 0) ∧
      ∀ other held saved, world.sessions other = .savedForRefresh held saved → held.id ≠ credential.id
  | _, _ => True

theorem tokenStage_issued {phase : Phase} {id : Nat} {fresh : Option Nat} :
    tokenStage phase = .issued id fresh ↔
      ∃ credential token, phase = .savedForRefresh credential token ∧ credential.id = id ∧ fresh = some token.id := by
  cases phase <;> simp [tokenStage, eq_comm]

theorem rotatesAlone_iff {world : World OAuthDb Phase} {mover : Nat} {input : Input} {after : OAuthDb} {later : Phase}
    (moved : Moved world.shared (world.sessions mover) input after later) :
    RotatesAlone world (mover, input) ↔
      Redemption.Exclusive (world.map tokenStatus tokenStage) (mover, tokenMove (world.sessions mover) later) := by
  generalize shown : world.sessions mover = phase at moved
  simp only [RotatesAlone, Redemption.Exclusive, World.map, shown]
  cases moved with
  | queries found | authenticates found | refusesForCode refused | savesForCode accepted saved | deletes | revokes =>
    exact Iff.rfl
  | fails unsaved checking =>
    rcases unsaved with rfl | ⟨code, queriedAt, rfl⟩ | ⟨credential, rfl⟩
    · cases input <;> exact Iff.rfl
    · cases input <;> exact Iff.rfl
    · cases input with
      | saveToken token now => exact absurd rfl (checking token now)
      | _ => exact Iff.rfl
  | refusesForRefresh refused => exact ⟨fun _ => trivial, fun _ accepted => absurd accepted refused⟩
  | @savesForRefresh _ credential token _ _ accepted saved =>
    show (Accepts world.shared credential.userId token → _) ↔ tokenStatus world.shared credential.id = .available ∧
      ∀ other fresh, tokenStage (world.sessions other) ≠ .issued credential.id fresh
    simp only [tokenStatus_available, ne_eq, tokenStage_issued]
    constructor
    · intro alone
      obtain ⟨stored, others⟩ := alone accepted
      refine ⟨stored, ?_⟩
      rintro other fresh ⟨held, child, same, equal, -⟩
      exact others other held child same equal
    · rintro ⟨stored, others⟩ -
      exact ⟨stored, fun other held child same equal => others other _ ⟨held, child, same, equal, rfl⟩⟩

def rotation : Phase → Option (OAuth2Token × OAuth2Token)
  | .savedForRefresh credential token | .refreshed credential token => some (credential, token)
  | .start | .validatedCode _ _ | .savedForCode _ _ _ | .exchanged _ _ _ | .validatedRefresh _ | .failed => none

/-- A request has saved row `child` for the refresh token of row `parent`. -/
def Rotated (world : World OAuthDb Phase) (parent child : Nat) : Prop :=
  ∃ index credential token, rotation (world.sessions index) = some (credential, token) ∧
    credential.id = parent ∧ token.id = child

/-- A request has saved a new row for this one and has yet to revoke it. -/
def BeingRotated (world : World OAuthDb Phase) (row : OAuth2Token) : Prop :=
  ∃ index credential token, world.sessions index = .savedForRefresh credential token ∧ credential.id = row.id

def answered : Phase → Option (Option String)
  | .refreshed credential _ => some credential.refreshToken
  | _ => none

def OncePerRefreshToken (world : World OAuthDb Phase) : Prop :=
  ∀ first second refreshToken, answered (world.sessions first) = some refreshToken →
    answered (world.sessions second) = some refreshToken → first = second

/-- Every row descends directly from one row at most. Of the rows that descend from
one row, any two descend one from the other, and at most one is unrevoked, not
counting rows whose revocation is under way. -/
structure Chains (world : World OAuthDb Phase) : Prop where
  oneParent : ∀ first second child, Rotated world first child → Rotated world second child → first = second
  linear : ∀ root first second, Relation.ReflTransGen (Rotated world) root first →
    Relation.ReflTransGen (Rotated world) root second →
    Relation.ReflTransGen (Rotated world) first second ∨ Relation.ReflTransGen (Rotated world) second first
  unrevoked : ∀ root, ∀ first ∈ world.shared.tokens.rows, ∀ second ∈ world.shared.tokens.rows,
    Relation.ReflTransGen (Rotated world) root first.id → Relation.ReflTransGen (Rotated world) root second.id →
    first.refreshTokenRevokedAt = 0 → second.refreshTokenRevokedAt = 0 →
    ¬ BeingRotated world first → ¬ BeingRotated world second → first = second

def Settled (world : World OAuthDb Phase) : Prop :=
  ∀ index credential token, world.sessions index ≠ .savedForRefresh credential token

theorem rotated_iff {world : World OAuthDb Phase} {parent child : Nat} :
    Redemption.Rotated (world.map tokenStatus tokenStage) parent child ↔ Rotated world parent child := by
  constructor
  · rintro ⟨index, claimed, fresh⟩
    cases phase : world.sessions index with
    | savedForRefresh credential token | refreshed credential token =>
      simp only [World.map, phase, tokenStage, Redemption.Stage.claimed, Redemption.Stage.fresh] at claimed fresh
      exact ⟨index, credential, token, by rw [phase]; rfl, Option.some.inj claimed, Option.some.inj fresh⟩
    | _ => simp only [World.map, phase, tokenStage] at claimed; cases claimed
  · rintro ⟨index, credential, token, rotates, rfl, rfl⟩
    refine ⟨index, ?_, ?_⟩ <;> cases phase : world.sessions index <;> rw [phase] at rotates <;> cases rotates <;>
      simp only [World.map, phase] <;> rfl

theorem rotatesAlone_run {db : OAuthDb} {events : List (Nat × Input)} {world : World OAuthDb Phase}
    (executed : run step (initial db) events = some world) :
    Along step RotatesAlone (initial db) events ↔ Redemption.SingleUse (world.map tokenStatus tokenStage) :=
  (tokens.along_trace (fun _ _ _ _ _ _ taken => rotatesAlone_iff (advance_moved taken)) (known_initial db) executed).trans
    (Redemption.exclusive_iff (tokens.run_trace (known_initial db) executed))

theorem exclusive_held {db : OAuthDb} {events : List (Nat × Input)} {world : World OAuthDb Phase}
    (executed : run step (initial db) events = some world) (along : Along step RotatesAlone (initial db) events) :
    Redemption.exclusive.Holds (world.map tokenStatus tokenStage) :=
  (Redemption.exclusive_start (tokenStatus db)).run _
    ((tokens.along_trace (fun _ _ _ _ _ _ taken => rotatesAlone_iff (advance_moved taken))
      (known_initial db) executed).mp along)
    (tokens.run_trace (known_initial db) executed)

theorem not_issued {world : World OAuthDb Phase} {row : OAuth2Token} (finished : ¬ BeingRotated world row) :
    ∀ index fresh, (world.map tokenStatus tokenStage).sessions index ≠ .issued row.id fresh := by
  intro index fresh issued
  obtain ⟨credential, token, phase, same, -⟩ := tokenStage_issued.mp issued
  exact finished ⟨index, credential, token, phase, same⟩

theorem chains_of_held {world : World OAuthDb Phase}
    (held : Redemption.exclusive.Holds (world.map tokenStatus tokenStage)) : Chains world := by
  have same : Redemption.Rotated (world.map tokenStatus tokenStage) = Rotated world := by
    funext parent child
    exact propext rotated_iff
  refine ⟨?_, ?_, ?_⟩
  · intro first second child left right
    exact Redemption.rotated_leftUnique held (rotated_iff.mpr left) (rotated_iff.mpr right)
  · intro root first second toFirst toSecond
    exact toFirst.total_of_right_unique (same ▸ Redemption.rotated_rightUnique held) toSecond
  · intro root first stored second storedToo toFirst toSecond unrevoked unrevokedToo finished finishedToo
    have equal := Redemption.one_available held (same ▸ toFirst) (same ▸ toSecond)
      (tokenStatus_available.mpr ⟨first, stored, rfl, unrevoked⟩)
      (tokenStatus_available.mpr ⟨second, storedToo, rfl, unrevokedToo⟩) (not_issued finished) (not_issued finishedToo)
    exact world.shared.tokens.valid.id.unique stored storedToo equal

/-- As long as every refresh saves its token alone, no refresh token yields two
responses and the rows form chains. In a run whose requests
are through, single use also requires it. -/
theorem refresh_single_use (db : OAuthDb) (events : List (Nat × Input)) (world : World OAuthDb Phase)
    (executed : run step (initial db) events = some world) :
    (Along step RotatesAlone (initial db) events → OncePerRefreshToken world ∧ Chains world) ∧
    (Settled world → OncePerRefreshToken world → Along step RotatesAlone (initial db) events) := by
  have known : Known world := run_invariant Known (fun _ _ _ known taken => known.step taken) (known_initial db) executed
  have found : ∀ index refreshToken, answered (world.sessions index) = some refreshToken →
      ∃ row, lookup OAuth2Token.refreshToken world.shared.tokens.rows refreshToken = some row ∧
        (tokenStage (world.sessions index)).claimed = some row.id := by
    intro index refreshToken answers
    cases phase : world.sessions index <;> rw [phase] at answers <;> cases answers
    obtain ⟨row, shown, same⟩ := known index _ (by rw [phase]; rfl)
    exact ⟨row, shown, congrArg some same.symm⟩
  refine ⟨fun along => ⟨?_, chains_of_held (exclusive_held executed along)⟩, ?_⟩
  · intro first second refreshToken left right
    obtain ⟨row, shown, claimed⟩ := found first refreshToken left
    obtain ⟨other, shownToo, claimedToo⟩ := found second refreshToken right
    cases shown.symm.trans shownToo
    exact (rotatesAlone_run executed).mp along first second row.id claimed claimedToo
  · intro settled once
    apply (rotatesAlone_run executed).mpr
    intro first second id left right
    have ended : ∀ index, (tokenStage (world.sessions index)).claimed = some id →
        ∃ row ∈ world.shared.tokens.rows, row.id = id ∧ answered (world.sessions index) = some row.refreshToken := by
      intro index claimed
      cases phase : world.sessions index with
      | savedForRefresh credential token => exact absurd phase (settled index credential token)
      | refreshed credential token =>
        rw [phase] at claimed
        cases claimed
        obtain ⟨row, shown, same⟩ := known index credential (by rw [phase]; rfl)
        obtain ⟨member, equal⟩ := mem_of_lookup shown
        exact ⟨row, member, same, congrArg some equal.symm⟩
      | _ => rw [phase] at claimed; cases claimed
    obtain ⟨row, member, same, answers⟩ := ended first left
    obtain ⟨other, memberToo, sameToo, answersToo⟩ := ended second right
    cases world.shared.tokens.valid.id.unique member memberToo (same.trans sameToo.symm)
    exact once first second row.refreshToken answers answersToo

def oldToken : OAuth2Token where
  id := 1
  userId := 1
  clientId := "client"
  tokenType := "Bearer"
  accessToken := "access"
  refreshToken := some "refresh"
  scope := "openid"
  issuedAt := 1000
  expiresIn := 300

def loggedIn : OAuthDb where
  users := ⟨[{ id := 1, lnurlPubkey := none, email := none, login := some "reader", passwordHash := none, nickname := "" }],
    by decide⟩
  codes := ⟨[], by decide⟩
  tokens := ⟨[oldToken], by decide⟩

def authenticate : Input := .authenticateRefreshToken "refresh" (seconds 1200)

def saveBearer (accessToken refreshToken : String) : Input :=
  .saveToken { tokenType := "Bearer", accessToken, refreshToken := some refreshToken, scope := "openid", expiresIn := 300 }
    (seconds 1200)

def child (id : Nat) (accessToken refreshToken : String) : OAuth2Token :=
  { oldToken with id, accessToken, refreshToken := some refreshToken, issuedAt := 1200 }

def revoke : Input := .revokeOldCredential ⟨seconds 1200, by decide⟩

/-- One stored refresh token, used in turn and by two requests that overlap. -/
def inTurn : List (Nat × Input) := [(0, authenticate), (0, saveBearer "second" "next"), (0, revoke), (1, authenticate)]

def overlapping : List (Nat × Input) :=
  [(0, authenticate), (1, authenticate), (0, saveBearer "second" "next"), (1, saveBearer "third" "other"),
    (0, revoke), (1, revoke)]

theorem refreshed_in_turn :
    ∃ world, run step (initial loggedIn) inTurn = some world ∧
      OncePerRefreshToken world ∧ Chains world := by
  refine ⟨_, rfl, (refresh_single_use loggedIn inTurn _ rfl).1 ?_⟩
  refine .cons rfl trivial (.cons rfl ?_ (.cons rfl trivial (.cons rfl trivial trivial)))
  rintro -
  refine ⟨⟨oldToken, List.mem_singleton_self _, rfl, rfl⟩, ?_⟩
  intro other held saved same
  cases other <;> cases same

theorem refreshed_twice :
    ∃ world, run step (initial loggedIn) overlapping = some world ∧
      ¬ OncePerRefreshToken world ∧ ¬ Chains world := by
  refine ⟨_, rfl, ?_, ?_⟩
  · intro once
    exact absurd (once 0 1 (some "refresh") rfl rfl) (by decide)
  · intro chains
    refine absurd (congrArg OAuth2Token.id (chains.unrevoked oldToken.id (child 2 "second" "next") (.tail _ (.head _))
      (child 3 "third" "other") (.tail _ (.tail _ (.head _))) (.single ⟨0, oldToken, child 2 "second" "next", rfl, rfl, rfl⟩)
      (.single ⟨1, oldToken, child 3 "third" "other", rfl, rfl, rfl⟩) rfl rfl ?_ ?_)) (by decide)
    all_goals
      rintro ⟨index, credential, token, phase, -⟩
      match index with
      | 0 | 1 => cases phase
      | index + 2 => cases phase

end Satoidc.Proofs.RefreshChains
