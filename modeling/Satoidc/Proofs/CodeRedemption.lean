import Satoidc.OAuth2
import Satoidc.Foundation.Redemption
import Satoidc.Foundation.Simulation

/-! Authorization codes as single-use tickets. The three callbacks of a code
exchange hold, issue and consume; whatever else the token endpoint does leaves
the codes alone. -/

namespace Satoidc.Proofs.CodeRedemption
open Foundation TokenEndpoint
open Redemption (Status Stage Move)

/-- A code that is not stored has been redeemed. -/
def codeStatus (db : OAuthDb) (id : Nat) : Status :=
  if lookup OAuth2AuthorizationCode.id db.codes.rows id = none then .consumed else .available

theorem codeStatus_available {db : OAuthDb} {id : Nat} :
    codeStatus db id = .available ↔ ∃ row ∈ db.codes.rows, row.id = id := by
  simp [codeStatus, lookup_none]

theorem codeStatus_congr {db after : OAuthDb} (same : after.codes = db.codes) : codeStatus after = codeStatus db := by
  funext id
  rw [codeStatus, codeStatus, same]

theorem codeStatus_delete (db : OAuthDb) (code : OAuth2AuthorizationCode) :
    codeStatus (Satoidc.deleteAuthorizationCode code db) = Function.update (codeStatus db) code.id .consumed := by
  funext id
  rw [Function.update_apply]
  split
  next same =>
    refine if_pos (lookup_none.mpr ?_)
    intro row member
    have kept := (List.mem_filter.mp member).2
    rw [same]
    simpa using kept
  next different =>
    rw [codeStatus, codeStatus]
    congr 2
    simp only [Satoidc.deleteAuthorizationCode, lookup, List.find?_filter]
    congr 1
    funext row
    by_cases hit : row.id = id
    · simp [hit, different]
    · simp [hit]

def codeStage : Phase → Stage Nat
  | .validatedCode code _ => .holding code.id
  | .savedForCode code _ _ => .issued code.id none
  | .exchanged code _ _ => .redeemed code.id none
  | .failed => .failed
  | .start | .validatedRefresh _ | .savedForRefresh _ _ | .refreshed _ _ => .idle

def codeMove : Phase → Phase → Move Nat
  | _, .validatedCode code _ => .hold code.id
  | _, .failed => .fail
  | _, .savedForCode _ _ _ => .issue none
  | _, .exchanged _ _ _ => .finish
  | _, _ => .mint none

theorem codeMove_simulates {db after : OAuthDb} {phase later : Phase} {input : Input}
    (moved : Moved db phase input after later) :
    Redemption.advance (codeMove phase later) (codeStatus db) (codeStage phase) =
      some (codeStatus after, codeStage later) := by
  cases moved with
  | queries found =>
    have stored := codeStatus_available.mpr ⟨_, (queryAuthorizationCode_some found).1, rfl⟩
    exact if_pos stored
  | authenticates found => rfl
  | fails unsaved checking => rcases unsaved with rfl | ⟨code, queriedAt, rfl⟩ | ⟨credential, rfl⟩ <;> rfl
  | refusesForCode refused => rfl
  | refusesForRefresh refused => rfl
  | savesForCode accepted saved => rw [codeStatus_congr saved.codes]; rfl
  | savesForRefresh accepted saved => rw [codeStatus_congr saved.codes]; rfl
  | deletes => rw [codeStatus_delete]; rfl
  | revokes => rfl

/-- A token that the database accepts is saved for a code only while the code is
still stored and no other request has saved one for it that it has yet to follow
with the deletion. -/
def SavesAlone (world : World OAuthDb Phase) (event : Nat × Input) : Prop :=
  match event.2, world.sessions event.1 with
  | .saveToken token _, .validatedCode code _ => Accepts world.shared code.userId token →
    (∃ row ∈ world.shared.codes.rows, row.id = code.id) ∧
      ∀ other held queriedAt saved, world.sessions other = .savedForCode held queriedAt saved → held.id ≠ code.id
  | _, _ => True

theorem codeStage_issued {phase : Phase} {id : Nat} {fresh : Option Nat} :
    codeStage phase = .issued id fresh ↔
      fresh = none ∧ ∃ code queriedAt token, phase = .savedForCode code queriedAt token ∧ code.id = id := by
  cases phase <;> simp [codeStage, eq_comm, and_comm]

theorem savesAlone_iff {world : World OAuthDb Phase} {mover : Nat} {input : Input} {after : OAuthDb} {later : Phase}
    (moved : Moved world.shared (world.sessions mover) input after later) :
    SavesAlone world (mover, input) ↔
      Redemption.Exclusive (world.map codeStatus codeStage) (mover, codeMove (world.sessions mover) later) := by
  generalize shown : world.sessions mover = phase at moved
  simp only [SavesAlone, Redemption.Exclusive, World.map, shown]
  cases moved with
  | queries found | authenticates found | refusesForRefresh refused | savesForRefresh accepted saved | deletes | revokes =>
    exact Iff.rfl
  | fails unsaved checking =>
    rcases unsaved with rfl | ⟨code, queriedAt, rfl⟩ | ⟨credential, rfl⟩
    · cases input <;> exact Iff.rfl
    · cases input with
      | saveToken token now => exact absurd rfl (checking token now)
      | _ => exact Iff.rfl
    · cases input <;> exact Iff.rfl
  | refusesForCode refused => exact ⟨fun _ => trivial, fun _ accepted => absurd accepted refused⟩
  | @savesForCode _ code _ token _ _ accepted saved =>
    show (Accepts world.shared code.userId token → _) ↔ codeStatus world.shared code.id = .available ∧
      ∀ other fresh, codeStage (world.sessions other) ≠ .issued code.id fresh
    simp only [codeStatus_available, ne_eq, codeStage_issued]
    constructor
    · intro alone
      obtain ⟨stored, others⟩ := alone accepted
      refine ⟨stored, ?_⟩
      rintro other fresh ⟨-, held, queriedAt, token, same, equal⟩
      exact others other held queriedAt token same equal
    · rintro ⟨stored, others⟩ -
      exact ⟨stored, fun other held queriedAt token same equal =>
        others other none ⟨rfl, held, queriedAt, token, same, equal⟩⟩

def codes : SessionSimulation (fun _ => TokenEndpoint.advance) (fun _ => Redemption.advance (ι := Nat)) where
  invariant _ := True
  view := codeStatus
  stage := codeStage
  move := codeMove
  keeps _ _ _ _ _ := trivial
  steps _ _ _ _ _ _ taken := codeMove_simulates (advance_moved taken)

/-- The code that a request has looked up, and when. -/
def queried : Phase → Option (OAuth2AuthorizationCode × Instant)
  | .validatedCode code queriedAt | .savedForCode code queriedAt _ | .exchanged code queriedAt _ =>
    some (code, queriedAt)
  | .start | .validatedRefresh _ | .savedForRefresh _ _ | .refreshed _ _ | .failed => none

/-- Codes are only ever deleted, and requests hold codes that were stored and
not expired when they were looked up. -/
structure Known (db : OAuthDb) (world : World OAuthDb Phase) : Prop where
  stored : ∀ row ∈ world.shared.codes.rows, row ∈ db.codes.rows
  queried : ∀ index code queriedAt, queried (world.sessions index) = some (code, queriedAt) →
    code ∈ db.codes.rows ∧ queriedAt ≤ seconds (code.authTime + 300)

theorem moved_codes {db after : OAuthDb} {phase later : Phase} {input : Input}
    (moved : Moved db phase input after later) : ∀ row ∈ after.codes.rows, row ∈ db.codes.rows := by
  intro row member
  cases moved with
  | queries _ | authenticates _ | fails _ _ | refusesForCode _ | refusesForRefresh _ | revokes => exact member
  | savesForCode accepted saved | savesForRefresh accepted saved => rw [← saved.codes]; exact member
  | deletes => exact List.mem_of_mem_filter member

theorem moved_queried {db after : OAuthDb} {phase later : Phase} {input : Input} {code : OAuth2AuthorizationCode}
    {queriedAt : Instant} (moved : Moved db phase input after later) (holds : queried later = some (code, queriedAt)) :
    queried phase = some (code, queriedAt) ∨
      (code ∈ db.codes.rows ∧ queriedAt ≤ seconds (code.authTime + 300)) := by
  cases moved with
  | queries found =>
    cases holds
    obtain ⟨member, -, -, timely⟩ := queryAuthorizationCode_some found
    exact .inr ⟨member, timely⟩
  | authenticates _ | fails _ _ | refusesForCode _ | refusesForRefresh _ | savesForRefresh _ _ | revokes => cases holds
  | savesForCode _ _ | deletes => exact .inl holds

theorem Known.step {db : OAuthDb} {world next : World OAuthDb Phase} {event : Nat × Input} (known : Known db world)
    (taken : TokenEndpoint.step world event = some next) : Known db next := by
  obtain ⟨mover, input⟩ := event
  obtain ⟨shared, session, stepped, rfl⟩ := World.step_some.mp taken
  have moved := advance_moved stepped
  refine ⟨fun row member => known.stored row (moved_codes moved row member), ?_⟩
  intro index code queriedAt holds
  by_cases same : index = mover
  · subst same
    rw [World.moved_self] at holds
    rcases moved_queried moved holds with before | ⟨member, timely⟩
    · exact known.queried index code queriedAt before
    · exact ⟨known.stored code member, timely⟩
  · rw [World.moved_other _ _ _ same] at holds
    exact known.queried index code queriedAt holds

theorem known_of_run {db : OAuthDb} {events : List (Nat × Input)} {world : World OAuthDb Phase}
    (executed : run step (initial db) events = some world) : Known db world :=
  run_invariant (Known db) (fun _ _ _ known taken => known.step taken)
    ⟨fun _ member => member, by rintro _ _ _ ⟨⟩⟩ executed

def answered : Phase → Option OAuth2AuthorizationCode
  | .exchanged code _ _ => some code
  | _ => none

/-- Every token response for a code was queried within the code's 300 seconds. -/
def Timely (world : World OAuthDb Phase) : Prop :=
  ∀ index code queriedAt token, world.sessions index = .exchanged code queriedAt token →
    queriedAt ≤ seconds (code.authTime + 300)

def OncePerCode (world : World OAuthDb Phase) : Prop :=
  ∀ first second code other, answered (world.sessions first) = some code →
    answered (world.sessions second) = some other → code.code = other.code → first = second

/-- Whenever a request is about to answer for a code, nobody has deleted it. -/
def NoneAfterDeletion (db : OAuthDb) (events : List (Nat × Input)) : Prop :=
  ∀ first mover second reached code queriedAt token, events = first ++ (mover, .deleteAuthorizationCode) :: second →
    run step (initial db) first = some reached → reached.sessions mover = .savedForCode code queriedAt token →
    ∃ row ∈ reached.shared.codes.rows, row.id = code.id

def Settled (world : World OAuthDb Phase) : Prop :=
  ∀ index code queriedAt token, world.sessions index ≠ .savedForCode code queriedAt token

theorem savesAlone_run {db : OAuthDb} {events : List (Nat × Input)} {world : World OAuthDb Phase}
    (executed : run step (initial db) events = some world) :
    Along step SavesAlone (initial db) events ↔ Redemption.SingleUse (world.map codeStatus codeStage) :=
  (codes.along_trace (fun _ _ _ _ _ _ taken => savesAlone_iff (advance_moved taken)) trivial executed).trans
    (Redemption.exclusive_iff (codes.run_trace trivial executed))

theorem stored_when_saved {db : OAuthDb} {events : List (Nat × Input)} {world : World OAuthDb Phase}
    (executed : run step (initial db) events = some world) (along : Along step SavesAlone (initial db) events)
    {index : Nat} {code : OAuth2AuthorizationCode} {queriedAt : Instant} {token : OAuth2Token}
    (saved : world.sessions index = .savedForCode code queriedAt token) :
    ∃ row ∈ world.shared.codes.rows, row.id = code.id := by
  have along := (codes.along_trace (fun _ _ _ _ _ _ taken => savesAlone_iff (advance_moved taken))
    trivial executed).mp along
  have held := (Redemption.exclusive_start (codeStatus db)).run _ along (codes.run_trace trivial executed)
  refine codeStatus_available.mp ((held.own index).issued code.id none ?_)
  exact congrArg codeStage saved

/-- As long as every request saves its token alone, no code yields two responses
and none is answered for after its deletion. In a run whose requests are through,
single use also requires it. The time limit holds in any case. -/
theorem code_single_use (db : OAuthDb) (events : List (Nat × Input)) (world : World OAuthDb Phase)
    (executed : run step (initial db) events = some world) :
    Timely world ∧
    (Along step SavesAlone (initial db) events → OncePerCode world ∧ NoneAfterDeletion db events) ∧
    (Settled world → OncePerCode world → Along step SavesAlone (initial db) events) := by
  have known := known_of_run executed
  have stored : ∀ index code, answered (world.sessions index) = some code →
      code ∈ db.codes.rows ∧ (codeStage (world.sessions index)).claimed = some code.id := by
    intro index code answers
    cases phase : world.sessions index <;> rw [phase] at answers <;> cases answers
    exact ⟨(known.queried index code _ (by rw [phase]; rfl)).1, rfl⟩
  refine ⟨?_, fun along => ⟨?_, ?_⟩, ?_⟩
  · intro index code queriedAt token exchanged
    exact (known.queried index code queriedAt (by rw [exchanged]; rfl)).2
  · intro first second code other left right same
    obtain ⟨member, claimed⟩ := stored first code left
    obtain ⟨memberToo, claimedToo⟩ := stored second other right
    cases db.codes.valid.code.unique member memberToo same
    exact (savesAlone_run executed).mp along first second code.id claimed claimedToo
  · rintro first mover second reached code queriedAt token rfl partway saved
    exact stored_when_saved partway (along.append partway).1 saved
  · intro settled once
    apply (savesAlone_run executed).mpr
    intro first second id left right
    have ended : ∀ index, (codeStage (world.sessions index)).claimed = some id →
        ∃ code, answered (world.sessions index) = some code ∧ code.id = id := by
      intro index claimed
      cases phase : world.sessions index with
      | savedForCode code queriedAt token => exact absurd phase (settled index code queriedAt token)
      | exchanged code queriedAt token => rw [phase] at claimed; cases claimed; exact ⟨code, rfl, rfl⟩
      | _ => rw [phase] at claimed; cases claimed
    obtain ⟨code, answers, same⟩ := ended first left
    obtain ⟨other, answersToo, sameToo⟩ := ended second right
    have equal : code = other :=
      db.codes.valid.id.unique (stored first code answers).1 (stored second other answersToo).1 (same.trans sameToo.symm)
    exact once first second code other answers answersToo (congrArg OAuth2AuthorizationCode.code equal)

def grantedCode : OAuth2AuthorizationCode :=
  { id := 1, code := "code", clientId := "client", userId := 1, authTime := 1000 }

def granted : OAuthDb where
  users := ⟨[{ id := 1, lnurlPubkey := none, email := none, login := some "developer", passwordHash := none, nickname := "" }],
    by decide⟩
  codes := ⟨[grantedCode], by decide⟩
  tokens := ⟨[], by decide⟩

def bearer (accessToken : String) : BearerToken :=
  { tokenType := "Bearer", accessToken, refreshToken := none, scope := "openid", expiresIn := 300 }

def query : Input := .queryAuthorizationCode "code" "client" (seconds 1200)

def saveBearer (accessToken : String) : Input := .saveToken (bearer accessToken) (seconds 1200)

/-- One stored code, redeemed in turn and by two requests that overlap. -/
def inTurn : List (Nat × Input) := [(0, query), (0, saveBearer "first"), (0, .deleteAuthorizationCode), (1, query)]

def overlapping : List (Nat × Input) :=
  [(0, query), (1, query), (0, saveBearer "first"), (1, saveBearer "second"), (0, .deleteAuthorizationCode),
    (1, .deleteAuthorizationCode)]

theorem redeemed_in_turn :
    ∃ world, run step (initial granted) inTurn = some world ∧
      Timely world ∧ OncePerCode world ∧ NoneAfterDeletion granted inTurn := by
  refine ⟨_, rfl, (code_single_use granted inTurn _ rfl).1, (code_single_use granted inTurn _ rfl).2.1 ?_⟩
  refine .cons rfl trivial (.cons rfl ?_ (.cons rfl trivial (.cons rfl trivial trivial)))
  rintro -
  refine ⟨⟨grantedCode, List.mem_singleton_self _, rfl⟩, ?_⟩
  intro other held queriedAt saved same
  cases other <;> cases same

theorem redeemed_twice :
    ∃ world, run step (initial granted) overlapping = some world ∧
      ¬ OncePerCode world ∧ ¬ NoneAfterDeletion granted overlapping := by
  refine ⟨_, rfl, ?_, ?_⟩
  · intro once
    exact absurd (once 0 1 grantedCode grantedCode rfl rfl rfl) (by decide)
  · intro stored
    obtain ⟨row, member, -⟩ := stored (overlapping.take 5) 1 [] _ grantedCode _ _ rfl rfl rfl
    cases member

end Satoidc.Proofs.CodeRedemption
