import Satoidc.Lnurl

/-! What a callback that runs alone does: it always ends, and it either leaves the
database alone or commits one of three changes. -/

namespace Satoidc.Proofs.CallbackEffects
open Foundation LnurlCallback

def userNotFound : Response := .error "User not found for this linkingKey"

/-- The ways the next statement of a callback goes: it ends the callback with nothing
done, it goes on, or it commits. -/
inductive Stepped (uuid : UserId) (curve : Secp256k1) (db : Db) : Phase → Db × Phase → Prop where
  | stays {phase} (idle : phase.holding = none) : Stepped uuid curve db phase (db, phase)
  | refuses {phase challenge exit} (held : phase.passed = some challenge) (silent : exit.event = none)
      (rejected : exit.outcome ≠ .ok .ok)
      (missing : exit.outcome = .ok userNotFound → ∃ query, phase = .resolved query challenge none ∧
        query.action = some .login) :
      Stepped uuid curve db phase (db, .finished (some challenge) exit)
  | resolves {query challenge} (action : some challenge.action = query.action.map LnurlAction.value)
      (signature : verify curve query.k1 query.key query.sig = .ok true) :
      Stepped uuid curve db (.consumed query challenge) (db, .resolved query challenge (db.userByPubkey query.key))
  | unknown {query challenge dbUser} (action : query.action = none) :
      Stepped uuid curve db (.resolved query challenge dbUser)
        (db, .finished (some challenge) (.emitted (.error "Unknown action") challenge))
  | accepts {query challenge dbUser} (action : query.action = some .auth) :
      Stepped uuid curve db (.resolved query challenge dbUser) (db, .finished (some challenge) (.emitted .ok challenge))
  | registers {query challenge dbUser} (action : query.action = some .register) (new : dbUser = none) :
      Stepped uuid curve db (.resolved query challenge dbUser)
        (commit db (Table.store (db.users.rows ++ [walletUser uuid query.key])) { challenge with userId := some uuid })
  | binds {query challenge dbUser user} (action : query.action = some .register ∨ query.action = some .login)
      (found : dbUser = some user) :
      Stepped uuid curve db (.resolved query challenge dbUser)
        (commit db (some db.users) { challenge with userId := some user.id })
  | finds {query challenge dbUser user} (action : query.action = some .link) (recorded : challenge.userId = some user.id)
      (stored : db.userById user.id = some user) (own : ∀ holder, dbUser = some holder → holder.id = user.id) :
      Stepped uuid curve db (.resolved query challenge dbUser) (db, .linking query challenge user)
  | keeps {query challenge user} (same : user.lnurlPubkey = some query.key) :
      Stepped uuid curve db (.linking query challenge user) (commit db (some db.users) challenge)
  | links {query challenge user} (different : user.lnurlPubkey ≠ some query.key) :
      Stepped uuid curve db (.linking query challenge user)
        (commit db (Table.store (setPubkey user.id query.key db.users.rows)) challenge)

theorem raised_not_ok {raised : PyError} {response : Response} : (Exit.raised raised).outcome ≠ .ok response := by
  intro same
  cases same

theorem error_not_ok (reason : String) : (Exit.returned (.error reason)).outcome ≠ .ok .ok := by
  simp [Exit.returned, Response.error, Response.ok]

theorem error_other {reason : String} (different : reason ≠ "User not found for this linkingKey") :
    (Exit.returned (.error reason)).outcome ≠ .ok userNotFound := by
  simpa [Exit.returned, userNotFound, Response.error] using different

section stepped
variable {uuid : UserId} {curve : Secp256k1} {db : Db} {phase : Phase} {challenge : LnurlAuthChallenge}

theorem Stepped.raises {raised : PyError} (held : phase.passed = some challenge) :
    Stepped uuid curve db phase (db, .finished (some challenge) (.raised raised)) :=
  .refuses held rfl raised_not_ok fun missing => absurd missing raised_not_ok

theorem Stepped.fails {reason : String} (held : phase.passed = some challenge)
    (different : reason ≠ "User not found for this linkingKey") :
    Stepped uuid curve db phase (db, .finished (some challenge) (.returned (.error reason))) :=
  .refuses held rfl (error_not_ok reason) fun missing => absurd missing (error_other different)

theorem next_stepped : Stepped uuid curve db phase (LnurlCallback.next curve uuid db phase) := by
  cases phase with
  | start | finished _ _ => exact .stays rfl
  | consumed query challenge =>
    simp only [LnurlCallback.next]
    split
    next => exact .fails rfl (by decide)
    next action =>
      split
      next => exact .raises rfl
      next => exact .fails rfl (by decide)
      next signature => exact .resolves (not_not.mp action) signature
  | resolved query challenge dbUser =>
    cases action : query.action with
    | none =>
      simp only [LnurlCallback.next, action]
      exact .unknown action
    | some kind =>
      cases kind with
      | auth =>
        simp only [LnurlCallback.next, action]
        exact .accepts action
      | register =>
        cases dbUser with
        | none =>
          simp only [LnurlCallback.next, action]
          exact .registers action rfl
        | some user =>
          simp only [LnurlCallback.next, action]
          exact .binds (.inl action) rfl
      | login =>
        cases dbUser with
        | none =>
          simp only [LnurlCallback.next, action]
          exact .refuses rfl rfl (error_not_ok _) fun _ => ⟨query, rfl, action⟩
        | some user =>
          simp only [LnurlCallback.next, action]
          exact .binds (.inr action) rfl
      | link =>
        simp only [LnurlCallback.next, action]
        cases recorded : challenge.userId with
        | none => exact .fails rfl (by decide)
        | some linked =>
          simp only
          split
          next => exact .fails rfl (by decide)
          next own =>
            cases stored : db.userById linked with
            | none => exact .fails rfl (by decide)
            | some user =>
              obtain rfl := (mem_of_lookup stored).2
              refine .finds action recorded stored ?_
              rintro holder rfl
              simpa using own
  | linking query challenge user =>
    simp only [LnurlCallback.next]
    split
    next same => exact .keeps same
    next different => exact .links different

end stepped

/-- The callback got past the k1 check, the action check and the signature check
with `challenge`, the consumed row. -/
structure Verified (env : Settings) (curve : Secp256k1) (now : Instant) (db : Db) (query : LnurlAuthCallbackIn)
    (challenge : LnurlAuthChallenge) : Prop where
  consumed : consume env now db query = .consumed query challenge
  action : some challenge.action = query.action.map LnurlAction.value
  signature : verify curve query.k1 query.key query.sig = .ok true

/-- The ways a callback ends. -/
inductive Effect (env : Settings) (curve : Secp256k1) (now : Instant) (uuid : UserId) (db : Db)
    (query : LnurlAuthCallbackIn) : Db × Phase → Prop where
  | idle {passed exit} (accepted : exit.outcome = .ok .ok → query.action = some .auth)
      (missing : exit.outcome = .ok userNotFound → query.action = some .login ∧ db.userByPubkey query.key = none ∧
        ∃ challenge, Verified env curve now db query challenge) :
      Effect env curve now uuid db query (db, .finished passed exit)
  | registers {challenge users} (verified : Verified env curve now db query challenge)
      (action : query.action = some .register) (unknown : db.userByPubkey query.key = none)
      (rows : users.rows = db.users.rows ++ [walletUser uuid query.key]) :
      Effect env curve now uuid db query (db.writeChallenge users { challenge with userId := some uuid },
        .finished (some { challenge with userId := some uuid }) (.emitted .ok { challenge with userId := some uuid }))
  | binds {challenge user} (verified : Verified env curve now db query challenge)
      (action : query.action = some .register ∨ query.action = some .login) (found : db.userByPubkey query.key = some user) :
      Effect env curve now uuid db query (db.writeChallenge db.users { challenge with userId := some user.id },
        .finished (some { challenge with userId := some user.id }) (.emitted .ok { challenge with userId := some user.id }))
  /-- The account that the challenge records takes the wallet, which no other account holds. -/
  | links {challenge user users} (verified : Verified env curve now db query challenge) (action : query.action = some .link)
      (recorded : challenge.userId = some user.id) (stored : db.userById user.id = some user)
      (unheld : ∀ holder, db.userByPubkey query.key = some holder → holder.id = user.id)
      (rows : user.lnurlPubkey = some query.key ∧ users.rows = db.users.rows ∨
        users.rows = setPubkey user.id query.key db.users.rows) :
      Effect env curve now uuid db query
        (db.writeChallenge users challenge, .finished (some challenge) (.emitted .ok challenge))

section effect
variable {env : Settings} {curve : Secp256k1} {now : Instant} {uuid : UserId} {db : Db} {query : LnurlAuthCallbackIn}
  {challenge : LnurlAuthChallenge}

theorem Effect.refused {passed : Option LnurlAuthChallenge} {exit : Exit} (rejected : exit.outcome ≠ .ok .ok)
    (other : exit.outcome ≠ .ok userNotFound) : Effect env curve now uuid db query (db, .finished passed exit) :=
  .idle (fun accepted => absurd accepted rejected) fun missing => absurd missing other

theorem commit_effect {users : Option Users} {challenge : LnurlAuthChallenge}
    (stored : ∀ table, users = some table → Effect env curve now uuid db query
      (db.writeChallenge table challenge, .finished (some challenge) (.emitted .ok challenge))) :
    Effect env curve now uuid db query (commit db users challenge) := by
  cases users with
  | none => exact .refused raised_not_ok raised_not_ok
  | some table => exact stored table rfl

theorem Effect.stays {result : Db × Phase} (ended : Effect env curve now uuid db query result) :
    LnurlCallback.next curve uuid result.1 result.2 = result := by
  cases ended <;> rfl

theorem linking_effect {user : User} (verified : Verified env curve now db query challenge)
    (action : query.action = some .link) (recorded : challenge.userId = some user.id) (stored : db.userById user.id = some user)
    (unheld : ∀ holder, db.userByPubkey query.key = some holder → holder.id = user.id) :
    Effect env curve now uuid db query (LnurlCallback.next curve uuid db (.linking query challenge user)) := by
  have step : Stepped uuid curve db _ (LnurlCallback.next curve uuid db (.linking query challenge user)) := next_stepped
  generalize LnurlCallback.next curve uuid db (.linking query challenge user) = result at step
  cases step with
  | stays idle => cases idle
  | refuses held silent rejected missing =>
    refine .refused rejected ?_
    intro same
    obtain ⟨_, other, _⟩ := missing same
    cases other
  | keeps same =>
    apply commit_effect
    intro table held
    cases held
    exact .links verified action recorded stored unheld (.inl ⟨same, rfl⟩)
  | links =>
    apply commit_effect
    intro table held
    exact .links verified action recorded stored unheld (.inr (Table.store_some.mp held))

theorem resolved_effect (verified : Verified env curve now db query challenge) :
    Effect env curve now uuid db query
        (LnurlCallback.next curve uuid db (.resolved query challenge (db.userByPubkey query.key))) ∨
      ∃ user, LnurlCallback.next curve uuid db (.resolved query challenge (db.userByPubkey query.key)) =
          (db, .linking query challenge user) ∧
        Effect env curve now uuid db query (LnurlCallback.next curve uuid db (.linking query challenge user)) := by
  have step : Stepped uuid curve db _
    (LnurlCallback.next curve uuid db (.resolved query challenge (db.userByPubkey query.key))) := next_stepped
  generalize LnurlCallback.next curve uuid db (.resolved query challenge (db.userByPubkey query.key)) = result at step
  cases step with
  | stays idle => cases idle
  | refuses held silent rejected missing =>
    cases held
    refine .inl (.idle (fun accepted => absurd accepted rejected) ?_)
    intro same
    obtain ⟨asked, resolved, action⟩ := missing same
    injection resolved with asks _ unknown
    exact ⟨asks ▸ action, unknown, challenge, verified⟩
  | unknown action =>
    exact .inl (.refused (by simp [Exit.emitted, Response.error, Response.ok])
      (by simp [Exit.emitted, Response.error, userNotFound]))
  | accepts action =>
    exact .inl (.idle (fun _ => action) (by simp [Exit.emitted, Response.ok, Response.error, userNotFound]))
  | registers action new =>
    exact .inl (commit_effect fun table stored => .registers verified action new (Table.store_some.mp stored))
  | binds action found =>
    left
    apply commit_effect
    intro table stored
    cases stored
    exact .binds verified action found
  | finds action recorded stored own => exact .inr ⟨_, rfl, linking_effect verified action recorded stored own⟩

theorem consume_cases (env : Settings) (now : Instant) (db : Db) (query : LnurlAuthCallbackIn) :
    consume env now db query = .finished none (.returned (.error "Invalid or expired k1")) ∨
      ∃ challenge, consume env now db query = .consumed query challenge := by
  unfold consume
  split
  · exact .inl rfl
  · exact .inr ⟨_, rfl⟩

theorem consumed_cases (uuid : UserId) (started : consume env now db query = .consumed query challenge) :
    (∃ exit, LnurlCallback.next curve uuid db (.consumed query challenge) = (db, .finished (some challenge) exit) ∧
        exit.event = none ∧ exit.outcome ≠ .ok .ok ∧ exit.outcome ≠ .ok userNotFound) ∨
      LnurlCallback.next curve uuid db (.consumed query challenge) =
          (db, .resolved query challenge (db.userByPubkey query.key)) ∧ Verified env curve now db query challenge := by
  have step : Stepped uuid curve db _ (LnurlCallback.next curve uuid db (.consumed query challenge)) := next_stepped
  generalize LnurlCallback.next curve uuid db (.consumed query challenge) = result at step
  cases step with
  | stays idle => cases idle
  | refuses held silent rejected missing =>
    cases held
    refine .inl ⟨_, rfl, silent, rejected, ?_⟩
    intro same
    obtain ⟨_, other, _⟩ := missing same
    cases other
  | resolves action signature => exact .inr ⟨rfl, started, action, signature⟩

theorem Verified.resolves (verified : Verified env curve now db query challenge) :
    LnurlCallback.next curve uuid db (.consumed query challenge) =
      (db, .resolved query challenge (db.userByPubkey query.key)) := by
  rw [LnurlCallback.next, if_neg (not_not.mpr verified.action), verified.signature]

/-- What is left of a callback once it is verified. -/
theorem Verified.callback (verified : Verified env curve now db query challenge) :
    lnurlAuthCallback env curve now uuid db query =
      LnurlCallback.next curve uuid
        (LnurlCallback.next curve uuid db (.resolved query challenge (db.userByPubkey query.key))).1
        (LnurlCallback.next curve uuid db (.resolved query challenge (db.userByPubkey query.key))).2 := by
  rw [lnurlAuthCallback, verified.consumed, verified.resolves]

theorem step_resolves {world : World Store Phase} {index : Nat} (shown : world.sessions index = .consumed query challenge)
    (verified : Verified env curve now world.shared.db query challenge) :
    World.step (advance env curve) world (index, .next uuid) =
      some (world.moved index world.shared (.resolved query challenge (world.shared.db.userByPubkey query.key))) := by
  simp only [World.step, shown, advance, Phase.holding, verified.resolves]
  rfl

theorem step_rejects {world : World Store Phase} {index : Nat} (shown : world.sessions index = .consumed query challenge)
    (action : some challenge.action = query.action.map LnurlAction.value)
    (rejected : verify curve query.k1 query.key query.sig = .ok false) :
    World.step (advance env curve) world (index, .next uuid) =
      some (world.moved index
        ⟨world.shared.db, Function.update world.shared.lockedBy query.k1 none⟩
        (.finished (some challenge) (.returned (.error "Bad Signature Error")))) := by
  have ended : LnurlCallback.next curve uuid world.shared.db (.consumed query challenge) =
      (world.shared.db, .finished (some challenge) (.returned (.error "Bad Signature Error"))) := by
    rw [LnurlCallback.next, if_neg (not_not.mpr action), rejected]
  simp only [World.step, shown, advance, Phase.holding, ended]
  rfl

/-- A callback that runs alone ends in one of the four ways. -/
theorem callback_effect : Effect env curve now uuid db query (lnurlAuthCallback env curve now uuid db query) := by
  unfold lnurlAuthCallback
  dsimp only
  rcases consume_cases env now db query with started | ⟨challenge, started⟩
  · have ended : Effect env curve now uuid db query (db, .finished none (.returned (.error "Invalid or expired k1"))) :=
      .refused (error_not_ok _) (error_other (by decide))
    rw [started, ended.stays, ended.stays, ended.stays]
    exact ended
  rw [started]
  rcases consumed_cases uuid started with ⟨exit, refused, -, rejected, other⟩ | ⟨passed, verified⟩
  · have ended : Effect env curve now uuid db query (db, .finished (some challenge) exit) := .refused rejected other
    rw [refused, ended.stays, ended.stays]
    exact ended
  rw [passed]
  rcases resolved_effect verified with ended | ⟨user, linking, ended⟩
  · rw [ended.stays]
    exact ended
  · rw [linking]
    exact ended

/-- What an event says: its challenge was verified, and an event of a sign-in names
the account that holds the wallet. -/
structure Announces (env : Settings) (curve : Secp256k1) (now : Instant) (db after : Db) (query : LnurlAuthCallbackIn)
    (event : LnurlAuthEvent) : Prop where
  verified : ∃ challenge, Verified env curve now db query challenge ∧ event.k1 = challenge.k1
  account : query.action = some .register ∨ query.action = some .login →
    ∃ user ∈ after.users.rows, user.lnurlPubkey = some query.key ∧ event.userId = some user.id

/-- A callback that has ended has emitted no event, or one that holds what it says. -/
def Truthful (env : Settings) (curve : Secp256k1) (now : Instant) (db : Db) (query : LnurlAuthCallbackIn) (result : Db × Phase) :
    Prop :=
  ∀ passed exit event, result.2 = .finished passed exit → exit.event = some event →
    Announces env curve now db result.1 query event

theorem Truthful.silent {after : Db} {passed : Option LnurlAuthChallenge} {exit : Exit} (silent : exit.event = none) :
    Truthful env curve now db query (after, .finished passed exit) := by
  intro _ _ event ended emitted
  cases ended
  rw [silent] at emitted
  cases emitted

theorem commit_truthful {users : Option Users} {bound : LnurlAuthChallenge}
    (verified : Verified env curve now db query challenge) (same : bound.k1 = challenge.k1)
    (account : ∀ table, users = some table → query.action = some .register ∨ query.action = some .login →
      ∃ user ∈ table.rows, user.lnurlPubkey = some query.key ∧ bound.userId = some user.id) :
    Truthful env curve now db query (commit db users bound) := by
  cases users with
  | none => exact .silent rfl
  | some table =>
    intro _ _ event ended emitted
    cases ended
    cases emitted
    exact ⟨⟨challenge, verified, same⟩, account table rfl⟩

theorem linking_truthful {user : User} (uuid : UserId) (verified : Verified env curve now db query challenge)
    (action : query.action = some .link) :
    Truthful env curve now db query (LnurlCallback.next curve uuid db (.linking query challenge user)) := by
  have other : ¬ (query.action = some .register ∨ query.action = some .login) := by simp [action]
  have step : Stepped uuid curve db _ (LnurlCallback.next curve uuid db (.linking query challenge user)) := next_stepped
  generalize LnurlCallback.next curve uuid db (.linking query challenge user) = result at step
  cases step with
  | stays idle => cases idle
  | refuses held silent => exact .silent silent
  | keeps => exact commit_truthful verified rfl fun _ _ signIn => absurd signIn other
  | links => exact commit_truthful verified rfl fun _ _ signIn => absurd signIn other

theorem commit_stays (uuid : UserId) (users : Option Users) (bound : LnurlAuthChallenge) :
    LnurlCallback.next curve uuid (commit db users bound).1 (commit db users bound).2 = commit db users bound := by
  cases users <;> rfl

/-- A callback that has found out who holds the wallet has ended after its next
statement, or links. -/
theorem resolved_truthful (uuid : UserId) (verified : Verified env curve now db query challenge) {result : Db × Phase}
    (step : Stepped uuid curve db (.resolved query challenge (db.userByPubkey query.key)) result) :
    LnurlCallback.next curve uuid result.1 result.2 = result ∧ Truthful env curve now db query result ∨
      ∃ user, result = (db, .linking query challenge user) ∧ query.action = some .link := by
  have holder : ∀ user, db.userByPubkey query.key = some user → user ∈ db.users.rows ∧ user.lnurlPubkey = some query.key := by
    intro user found
    exact ⟨List.mem_of_find?_eq_some found, by simpa using List.find?_some found⟩
  cases step with
  | stays idle => cases idle
  | refuses held silent => exact .inl ⟨rfl, .silent silent⟩
  | unknown action => cases verified.action.trans (congrArg (Option.map LnurlAction.value) action)
  | accepts action =>
    refine .inl ⟨rfl, ?_⟩
    intro _ _ event ended emitted
    cases ended
    cases emitted
    exact ⟨⟨challenge, verified, rfl⟩, fun signIn => absurd signIn (by simp [action])⟩
  | registers action =>
    refine .inl ⟨commit_stays uuid _ _, commit_truthful verified rfl ?_⟩
    intro table stored _
    refine ⟨walletUser uuid query.key, ?_, rfl, rfl⟩
    rw [Table.store_some.mp stored]
    exact List.mem_append_right _ (List.mem_singleton.mpr rfl)
  | binds action found =>
    refine .inl ⟨commit_stays uuid _ _, commit_truthful verified rfl ?_⟩
    intro table stored _
    cases stored
    exact ⟨_, (holder _ found).1, (holder _ found).2, rfl⟩
  | finds action => exact .inr ⟨_, rfl, action⟩

/-- The event of a callback that runs alone holds what it says. -/
theorem callback_truthful : Truthful env curve now db query (lnurlAuthCallback env curve now uuid db query) := by
  unfold lnurlAuthCallback
  dsimp only
  rcases consume_cases env now db query with started | ⟨challenge, started⟩
  · rw [started]
    exact .silent rfl
  rw [started]
  rcases consumed_cases uuid started with ⟨exit, ended, silent, -⟩ | ⟨resolved, verified⟩
  · rw [ended]
    exact .silent silent
  rw [resolved]
  rcases resolved_truthful uuid verified next_stepped with ⟨stays, truthful⟩ | ⟨user, linking, action⟩
  · rw [stays]
    exact truthful
  · rw [linking]
    exact linking_truthful uuid verified action

end effect

end Satoidc.Proofs.CallbackEffects
