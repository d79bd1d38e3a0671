import Satoidc.Proofs.CallbackEffects

/-! Replay protection of LNURL challenges over interleaved callbacks. A callback
commits the consumption of its challenge only together with a successful action,
so every other exit gives the challenge back to whoever asks next. -/

namespace Satoidc.Proofs.CallbackReplay
open Foundation LnurlCallback

/-- The callback's next statement does not end it without a commit. Before the
signature check this asks for the challenge's own action and a valid signature;
at the action itself, for an action that commits and a commit that violates no
constraint of `users`. -/
def Settles (curve : Secp256k1) (uuid : UserId) (db : Db) : Phase → Prop
  | .consumed query challenge =>
    some challenge.action = query.action.map LnurlAction.value ∧ verify curve query.k1 query.key query.sig = .ok true
  | .resolved query challenge dbUser =>
    match query.action with
    | some .register => dbUser = none → UserConstraints (db.users.rows ++ [walletUser uuid query.key])
    | some .login => dbUser ≠ none
    | some .link =>
      ∃ linked, challenge.userId = some linked ∧ (∀ user, dbUser = some user → user.id = linked) ∧
        db.userById linked ≠ none
    | some .auth | none => False
  | .linking query _ user =>
    user.lnurlPubkey = some query.key ∨ UserConstraints (setPubkey user.id query.key db.users.rows)
  | .start | .finished _ _ => True

/-- The guard on a whole run: whenever a callback in progress takes a step, it settles. -/
def Settling (curve : Secp256k1) (world : World Store Phase) (event : Nat × Input) : Prop :=
  match event.2 with
  | .begin _ _ => True
  | .next uuid => Settles curve uuid world.shared.db (world.sessions event.1)

def Consumed (db : Db) (k1 : String) : Prop :=
  ∃ row ∈ db.challenges.rows, row.k1 = k1 ∧ row.consumed = true

def Unconsumed (db : Db) (k1 : String) : Prop :=
  ∃ row ∈ db.challenges.rows, row.k1 = k1 ∧ row.consumed = false

theorem not_unconsumed {db : Db} {k1 : String} (consumed : Consumed db k1) : ¬ Unconsumed db k1 := by
  obtain ⟨row, member, same, spent⟩ := consumed
  rintro ⟨other, otherMember, otherSame, fresh⟩
  rw [db.challenges.valid.unique member otherMember (same.trans otherSame.symm), fresh] at spent
  cases spent

/-- What the next statement of a callback in progress does: it goes on, it ends
with nothing committed, or it commits the row it holds and ends. -/
inductive Outcome (db : Db) (phase : Phase) : Db → Phase → Prop where
  | goesOn {later} (holds : later.holding = phase.holding) (same : later.passed = phase.passed) :
      Outcome db phase db later
  | commits {users challenge exit held} (passed : phase.passed = some held)
      (k1 : challenge.k1 = held.k1) (consumed : challenge.consumed = held.consumed) :
      Outcome db phase (db.writeChallenge users challenge) (.finished (some challenge) exit)

theorem next_settles {curve : Secp256k1} {uuid : UserId} {db : Db} {phase : Phase}
    (settles : Settles curve uuid db phase) (active : phase.holding ≠ none) :
    Outcome db phase (LnurlCallback.next curve uuid db phase).1 (LnurlCallback.next curve uuid db phase).2 := by
  cases phase with
  | start | finished _ _ => exact absurd rfl active
  | consumed query challenge =>
    obtain ⟨action, valid⟩ := settles
    simp only [LnurlCallback.next, action, ne_eq, not_true_eq_false, ite_false, valid]
    exact .goesOn rfl rfl
  | resolved query challenge dbUser =>
    cases action : query.action with
    | none => simp [Settles, action] at settles
    | some kind =>
      cases kind with
      | auth => simp [Settles, action] at settles
      | register =>
        cases dbUser with
        | some user =>
          simp only [LnurlCallback.next, action, commit]
          exact .commits rfl rfl rfl
        | none =>
          simp only [Settles, action, forall_const] at settles
          obtain ⟨users, stored⟩ : ∃ users : Users,
              Table.store (db.users.rows ++ [walletUser uuid query.key]) = some users :=
            ⟨⟨_, settles⟩, Table.store_some.mpr rfl⟩
          simp only [LnurlCallback.next, action, stored, commit]
          exact .commits rfl rfl rfl
      | login =>
        cases dbUser with
        | none => simp [Settles, action] at settles
        | some user =>
          simp only [LnurlCallback.next, action, commit]
          exact .commits rfl rfl rfl
      | link =>
        simp only [Settles, action] at settles
        obtain ⟨linked, bound, own, exist⟩ := settles
        obtain ⟨user, found⟩ := Option.ne_none_iff_exists'.mp exist
        have notOther : dbUser.any (fun user => decide (user.id ≠ linked)) = false := by
          cases dbUser with
          | none => rfl
          | some user => simp [own user rfl]
        simp only [LnurlCallback.next, action, bound, notOther, found]
        exact .goesOn rfl rfl
  | linking query challenge user =>
    by_cases same : user.lnurlPubkey = some query.key
    · simp only [LnurlCallback.next, same, ite_true, commit]
      exact .commits rfl rfl rfl
    · simp only [Settles, same, false_or] at settles
      obtain ⟨users, stored⟩ : ∃ users : Users,
          Table.store (setPubkey user.id query.key db.users.rows) = some users :=
        ⟨⟨_, settles⟩, Table.store_some.mpr rfl⟩
      simp only [LnurlCallback.next, same, ite_false, stored, commit]
      exact .commits rfl rfl rfl

theorem next_unsettled {curve : Secp256k1} {uuid : UserId} {db : Db} {phase : Phase}
    (unsettled : ¬ Settles curve uuid db phase) :
    ∃ held challenge exit, phase.passed = some held ∧ challenge.k1 = held.k1 ∧
      LnurlCallback.next curve uuid db phase = (db, .finished (some challenge) exit) := by
  have step : CallbackEffects.Stepped uuid curve db phase (LnurlCallback.next curve uuid db phase) :=
    CallbackEffects.next_stepped
  generalize LnurlCallback.next curve uuid db phase = result at step
  cases step with
  | stays idle =>
    cases phase with
    | start | finished _ _ => exact absurd trivial unsettled
    | consumed _ _ | resolved _ _ _ | linking _ _ _ => cases idle
  | refuses held => exact ⟨_, _, _, held, rfl, rfl⟩
  | resolves action signature => exact absurd ⟨action, signature⟩ unsettled
  | unknown | accepts => exact ⟨_, _, _, rfl, rfl, rfl⟩
  | @registers query challenge dbUser action new =>
    simp only [Settles, action, Classical.not_imp] at unsettled
    have refused : (Table.store (db.users.rows ++ [walletUser uuid query.key]) : Option Users) = none :=
      Table.store_none.mpr unsettled.2
    rw [refused]
    exact ⟨challenge, { challenge with userId := some uuid }, _, rfl, rfl, rfl⟩
  | binds action found =>
    refine absurd ?_ unsettled
    rcases action with action | action <;> simp [Settles, action, found]
  | finds action recorded stored own =>
    refine absurd ?_ unsettled
    simp only [Settles, action]
    exact ⟨_, recorded, own, by rw [stored]; exact Option.some_ne_none _⟩
  | keeps same => exact absurd (.inl same) unsettled
  | @links query challenge user =>
    simp only [Settles, not_or] at unsettled
    have refused : (Table.store (setPubkey user.id query.key db.users.rows) : Option Users) = none :=
      Table.store_none.mpr unsettled.2
    rw [refused]
    exact ⟨challenge, challenge, _, rfl, rfl, rfl⟩

/-- Every step a callback can take, with the row lock it takes or gives back. -/
inductive Moved (curve : Secp256k1) (index : Nat) (store : Store) (phase : Phase) : Input → Store → Phase → Prop where
  | refuses {query now exit} (start : phase = .start) :
      Moved curve index store phase (.begin query now) store (.finished none exit)
  | admits {query now row} (start : phase = .start) (member : row ∈ store.db.challenges.rows)
      (same : row.k1 = query.k1) (fresh : row.consumed = false) (free : store.lockedBy query.k1 = none) :
      Moved curve index store phase (.begin query now)
        { store with lockedBy := Function.update store.lockedBy query.k1 (some index) }
        (.consumed query { row with consumed := true })
  | goesOn {uuid k1 later} (active : phase.holding = some k1) (settles : Settles curve uuid store.db phase)
      (holds : later.holding = some k1) (same : later.passed = phase.passed) :
      Moved curve index store phase (.next uuid) store later
  | commits {uuid k1 users challenge held exit} (active : phase.holding = some k1)
      (settles : Settles curve uuid store.db phase) (passed : phase.passed = some held)
      (same : challenge.k1 = held.k1) (consumed : challenge.consumed = held.consumed) :
      Moved curve index store phase (.next uuid)
        ⟨store.db.writeChallenge users challenge, Function.update store.lockedBy k1 none⟩
        (.finished (some challenge) exit)
  | abandons {uuid k1 challenge held exit} (active : phase.holding = some k1)
      (unsettled : ¬ Settles curve uuid store.db phase) (passed : phase.passed = some held)
      (same : challenge.k1 = held.k1) :
      Moved curve index store phase (.next uuid) ⟨store.db, Function.update store.lockedBy k1 none⟩
        (.finished (some challenge) exit)

theorem advance_moved {env : Settings} {curve : Secp256k1} {index : Nat} {input : Input} {store after : Store}
    {phase later : Phase} (taken : advance env curve index input store phase = some (after, later)) :
    Moved curve index store phase input after later := by
  cases input with
  | begin query now =>
    cases phase with
    | consumed _ _ | resolved _ _ _ | linking _ _ _ | finished _ _ => cases taken
    | start =>
      simp only [advance, consume] at taken
      cases found : store.db.challenges.rows.find? (live env now query.k1) with
      | none =>
        simp only [found] at taken
        cases taken
        exact .refuses rfl
      | some row =>
        simp only [found] at taken
        split at taken
        next free =>
          cases taken
          have matched := List.find?_some found
          simp only [live, Bool.and_eq_true, decide_eq_true_eq, Bool.not_eq_true'] at matched
          exact .admits rfl (List.mem_of_find?_eq_some found) matched.1.1 matched.1.2 free
        next => cases taken
  | next uuid =>
    simp only [advance] at taken
    cases active : phase.holding with
    | none => simp only [active] at taken; cases taken
    | some k1 =>
      simp only [active] at taken
      by_cases settles : Settles curve uuid store.db phase
      · have outcome := next_settles settles (by rw [active]; exact Option.some_ne_none k1)
        generalize LnurlCallback.next curve uuid store.db phase = result at outcome taken
        obtain ⟨db, moved⟩ := result
        cases outcome with
        | goesOn holds same =>
          rw [active] at holds
          simp only [holds, reduceCtorEq, ite_false] at taken
          cases taken
          exact .goesOn active settles holds same
        | commits passed same consumed =>
          simp only [Phase.holding, ite_true] at taken
          cases taken
          exact .commits active settles passed same consumed
      · obtain ⟨held, challenge, exit, passed, same, ended⟩ := next_unsettled settles
        simp only [ended, Phase.holding, ite_true] at taken
        cases taken
        exact .abandons active settles passed same

section writeChallenge
variable {db : Db} {users : Users} {challenge : LnurlAuthChallenge} {k1 : String}

theorem consumed_write (spent : challenge.consumed = true) (consumed : Consumed db k1) :
    Consumed (db.writeChallenge users challenge) k1 := by
  obtain ⟨row, member, same, already⟩ := consumed
  refine ⟨_, mem_update.mpr ⟨row, member, rfl⟩, ?_⟩
  subst same
  by_cases hit : row.k1 = challenge.k1
  · simp [hit, spent]
  · simp [hit, already]

theorem consumed_write_self (spent : challenge.consumed = true) (held : Unconsumed db challenge.k1) :
    Consumed (db.writeChallenge users challenge) challenge.k1 := by
  obtain ⟨row, member, same, -⟩ := held
  exact ⟨_, mem_update_of_selected member same, same, spent⟩

theorem unconsumed_write_other (different : k1 ≠ challenge.k1) (held : Unconsumed db k1) :
    Unconsumed (db.writeChallenge users challenge) k1 := by
  obtain ⟨row, member, same, fresh⟩ := held
  exact ⟨row, mem_update_of_not_selected member (fun hit => different (same.symm.trans hit)), same, fresh⟩

end writeChallenge

/-- A callback in progress holds the lock of its challenge row, which is still
unconsumed for everyone else, and its own copy is marked consumed. -/
def Own (index : Nat) (store : Store) (phase : Phase) : Prop :=
  ∀ k1, phase.holding = some k1 → store.lockedBy k1 = some index ∧ Unconsumed store.db k1 ∧
    ∃ held, phase.passed = some held ∧ held.k1 = k1 ∧ held.consumed = true

/-- A callback that ended after passing the k1 check has left its challenge consumed. -/
def Spent (db : Db) (phase : Phase) : Prop :=
  ∀ challenge exit, phase = .finished (some challenge) exit → Consumed db challenge.k1

/-- A step leaves the rows that other callbacks have locked alone, and consumed
challenges consumed. -/
structure Keeps (mover : Nat) (before after : Store) : Prop where
  locked : ∀ k1 other, other ≠ mover → before.lockedBy k1 = some other →
    after.lockedBy k1 = some other ∧ (Unconsumed before.db k1 → Unconsumed after.db k1)
  consumed : ∀ k1, Consumed before.db k1 → Consumed after.db k1

theorem Keeps.refl (mover : Nat) (store : Store) : Keeps mover store store :=
  ⟨fun _ _ _ locked => ⟨locked, id⟩, fun _ consumed => consumed⟩

theorem released_other {store : Store} {mover other : Nat} {k1 taken : String} (different : other ≠ mover)
    (mine : store.lockedBy k1 = some mover) (locked : store.lockedBy taken = some other) :
    taken ≠ k1 ∧ Function.update store.lockedBy k1 none taken = some other := by
  have apart : taken ≠ k1 := by
    rintro rfl
    exact different (Option.some.inj (locked.symm.trans mine))
  exact ⟨apart, (Function.update_of_ne apart ..).trans locked⟩

theorem moved_own {curve : Secp256k1} {index : Nat} {input : Input} {store after : Store} {phase later : Phase}
    (moved : Moved curve index store phase input after later) (own : Own index store phase) :
    Own index after later ∧ Keeps index store after := by
  cases moved with
  | refuses start => exact ⟨fun _ active => (by cases active), .refl _ _⟩
  | @admits query now row start member same fresh free =>
    refine ⟨?_, ?_, fun _ consumed => consumed⟩
    · intro k1 active
      cases active
      exact ⟨Function.update_self .., ⟨row, member, same, fresh⟩, _, rfl, same, rfl⟩
    · intro k1 other different locked
      have apart : k1 ≠ query.k1 := by
        rintro rfl
        rw [free] at locked
        cases locked
      exact ⟨(Function.update_of_ne apart ..).trans locked, id⟩
  | goesOn active settles holds same =>
    refine ⟨?_, .refl _ _⟩
    intro k1 still
    rw [holds] at still
    cases still
    rw [same]
    exact own _ active
  | @commits uuid k1 users challenge held exit active settles passed same consumed =>
    obtain ⟨mine, unconsumed, row, shown, equal, spent⟩ := own _ active
    cases passed.symm.trans shown
    refine ⟨fun _ still => (by cases still), ?_, ?_⟩
    · intro taken other different locked
      obtain ⟨apart, kept⟩ := released_other different mine locked
      exact ⟨kept, unconsumed_write_other (by rw [same, equal]; exact apart)⟩
    · exact fun _ => consumed_write (consumed.trans spent)
  | @abandons uuid k1 challenge held exit active unsettled passed same =>
    obtain ⟨mine, -⟩ := own _ active
    refine ⟨fun _ still => (by cases still), ?_, fun _ consumed => consumed⟩
    exact fun taken other different locked => ⟨(released_other different mine locked).2, id⟩

theorem moved_spent {curve : Secp256k1} {index : Nat} {input : Input} {store after : Store} {phase later : Phase}
    (moved : Moved curve index store phase input after later) (own : Own index store phase)
    (settling : ∀ uuid, input = .next uuid → Settles curve uuid store.db phase) : Spent after.db later := by
  cases moved with
  | refuses start => rintro _ _ ⟨⟩
  | admits start member same fresh free => rintro _ _ ⟨⟩
  | goesOn active settles holds same =>
    rintro challenge exit rfl
    cases holds
  | commits active settles passed same consumed =>
    rintro _ _ ⟨⟩
    obtain ⟨-, unconsumed, row, shown, equal, spent⟩ := own _ active
    cases passed.symm.trans shown
    exact consumed_write_self (consumed.trans spent) (by rw [same, equal]; exact unconsumed)
  | abandons active unsettled passed same => exact absurd (settling _ rfl) unsettled

theorem moved_unspent {curve : Secp256k1} {index : Nat} {uuid : UserId} {store after : Store} {phase later : Phase}
    (moved : Moved curve index store phase (.next uuid) after later) (own : Own index store phase)
    (unsettled : ¬ Settles curve uuid store.db phase) : ¬ Spent after.db later := by
  cases moved with
  | goesOn active settles holds same => exact absurd settles unsettled
  | commits active settles passed same consumed => exact absurd settles unsettled
  | abandons active unsettled passed same =>
    obtain ⟨-, unconsumed, row, shown, equal, -⟩ := own _ active
    cases passed.symm.trans shown
    intro spent
    exact not_unconsumed (spent _ _ rfl) (by rw [same, equal]; exact unconsumed)

theorem own_stable {other mover : Nat} {before after : Store} {phase : Phase} (different : other ≠ mover)
    (keeps : Keeps mover before after) (own : Own other before phase) : Own other after phase := by
  intro k1 active
  obtain ⟨locked, unconsumed, held⟩ := own k1 active
  obtain ⟨still, kept⟩ := keeps.locked k1 other different locked
  exact ⟨still, kept unconsumed, held⟩

theorem passed_cases {phase : Phase} {challenge : LnurlAuthChallenge} (passed : phase.passed = some challenge) :
    (∃ k1, phase.holding = some k1) ∨ ∃ exit, phase = .finished (some challenge) exit := by
  cases phase with
  | start => cases passed
  | consumed query _ | resolved query _ _ | linking query _ _ => exact .inl ⟨query.k1, rfl⟩
  | finished _ exit => cases passed; exact .inr ⟨exit, rfl⟩

def Apart (first second : Phase) : Prop :=
  ∀ challenge other, first.passed = some challenge → second.passed = some other → challenge.k1 ≠ other.k1

theorem moved_apart {curve : Secp256k1} {index other : Nat} {input : Input} {store after : Store}
    {phase later idle : Phase} (moved : Moved curve index store phase input after later)
    (own : Own other store idle) (spent : Spent store.db idle) (apart : Apart phase idle) : Apart later idle := by
  intro challenge held passed theirs
  cases moved with
  | refuses start => cases passed
  | @admits query now row start member same fresh free =>
    cases passed
    intro equal
    rcases passed_cases theirs with ⟨k1, active⟩ | ⟨exit, rfl⟩
    · obtain ⟨locked, -, mine, shown, k1Same, -⟩ := own k1 active
      cases theirs.symm.trans shown
      rw [← k1Same, ← equal, same, free] at locked
      cases locked
    · refine not_unconsumed (spent held exit rfl) ?_
      exact ⟨row, member, equal, fresh⟩
  | goesOn active settles holds kept => exact apart challenge held (kept ▸ passed) theirs
  | commits active settles was same consumed =>
    cases passed
    rw [same]
    exact apart _ held was theirs
  | abandons active unsettled was same =>
    cases passed
    rw [same]
    exact apart _ held was theirs

/-- Callbacks that abide by their row locks, whichever way they end. -/
def locking (env : Settings) (curve : Secp256k1) : Discipline (advance env curve) fun _ _ => True where
  store _ := True
  own := Own
  apart _ _ := True
  guarantee mover _ := Keeps mover
  symmetric _ _ := id
  moves _ _ _ _ _ _ own _ taken :=
    have moved := moved_own (advance_moved taken) own
    ⟨trivial, moved.1, moved.2⟩
  stable _ _ _ _ _ _ different _ _ _ keeps own := own_stable different keeps own
  separates _ _ _ _ _ _ _ _ _ _ _ _ _ := trivial

def settling (env : Settings) (curve : Secp256k1) : Discipline (advance env curve) (Settling curve) where
  store _ := True
  own index store phase := Own index store phase ∧ Spent store.db phase
  apart := Apart
  guarantee mover _ := Keeps mover
  symmetric _ _ apart challenge other left right := (apart other challenge right left).symm
  moves world mover input shared session _ own settles taken := by
    have moved := moved_own (advance_moved taken) own.1
    refine ⟨trivial, ⟨moved.1, moved_spent (advance_moved taken) own.1 ?_⟩, moved.2⟩
    rintro uuid rfl
    exact settles
  stable _ _ _ _ _ _ different _ _ _ keeps own :=
    ⟨own_stable different keeps own.1, fun challenge exit ended => keeps.consumed _ (own.2 challenge exit ended)⟩
  separates _ _ _ _ _ _ _ _ _ theirs _ taken apart := moved_apart (advance_moved taken) theirs.1 theirs.2 apart

theorem initial_locking (env : Settings) (curve : Secp256k1) (db : Db) : (locking env curve).Holds (initial db) :=
  ⟨trivial, fun _ _ active => (by cases active), fun _ _ _ => trivial⟩

theorem initial_settling (env : Settings) (curve : Secp256k1) (db : Db) : (settling env curve).Holds (initial db) :=
  ⟨trivial, fun _ => ⟨fun _ active => (by cases active), by rintro _ _ ⟨⟩⟩, by rintro _ _ _ _ _ ⟨⟩⟩

/-- Every callback that got past the k1 check and has ended left its challenge
consumed in the committed database. -/
def EveryEndConsumes (world : World Store Phase) : Prop :=
  ∀ index challenge exit, world.sessions index = .finished (some challenge) exit →
    Consumed world.shared.db challenge.k1

def OncePastCheck (world : World Store Phase) : Prop :=
  ∀ first second challenge other, (world.sessions first).passed = some challenge →
    (world.sessions second).passed = some other → challenge.k1 = other.k1 → first = second

/-- Consumption is committed in every reached state exactly when every step of
the run settles, and then no k1 gets a second callback past the check. -/
theorem consumption_committed_iff (env : Settings) (curve : Secp256k1) (db : Db) (events : List (Nat × Input))
    (world : World Store Phase)
    (executed : run (World.step (advance env curve)) (initial db) events = some world) :
    (Along (World.step (advance env curve)) (Settling curve) (initial db) events ↔
      ∀ first second reached, events = first ++ second →
        run (World.step (advance env curve)) (initial db) first = some reached → EveryEndConsumes reached) ∧
    (Along (World.step (advance env curve)) (Settling curve) (initial db) events → OncePastCheck world) := by
  refine ⟨⟨?_, ?_⟩, ?_⟩
  · rintro along first second reached rfl partway index challenge exit ended
    have held := (initial_settling env curve db).run _ (along.append partway).1 partway
    exact (held.own index).2 challenge exit ended
  · refine Along.of_reached (locking env curve).Holds EveryEndConsumes
      (fun _ _ _ held taken => held.step trivial taken) ?_ (initial_locking env curve db) executed
    rintro state ⟨mover, input⟩ next held taken consumes
    obtain ⟨shared, session, stepped, rfl⟩ := World.step_some.mp taken
    cases input with
    | begin query now => trivial
    | next uuid =>
      by_contra unsettled
      apply moved_unspent (advance_moved stepped) (held.own mover) unsettled
      intro challenge exit ended
      exact consumes mover challenge exit (by rw [World.moved_self]; exact ended)
  · intro along first second challenge other left right same
    by_contra different
    have held := (initial_settling env curve db).run _ along executed
    exact held.apart first second different challenge other left right same

def loginQuery : LnurlAuthCallbackIn where
  k1 := "5555555555555555555555555555555555555555555555555555555555555555"
  sig := "0000000000000000"
  key := "020000000000000000000000000000000000000000000000000000000000000001"
  action := some .login
  k1Length := String.length_ofList
  sigLength := by decide
  keyLength := String.length_ofList

def pendingLogin : Db where
  users := ⟨[walletUser 1 loginQuery.key], by decide⟩
  challenges := ⟨[{ k1 := loginQuery.k1, createdAt := 0 }], by decide⟩

def consumedLogin : LnurlAuthChallenge where
  k1 := loginQuery.k1
  consumed := true
  createdAt := 0

/-- The first callback has the row of the challenge. -/
def loginBegun : World Store Phase :=
  (initial pendingLogin).moved 0 ⟨pendingLogin, Function.update (fun _ => none) loginQuery.k1 (some 0)⟩
    (.consumed loginQuery consumedLogin)

theorem loginQuery_begins (curve : Secp256k1) :
    World.step (advance {} curve) (initial pendingLogin) (0, .begin loginQuery 0) = some loginBegun := rfl

/-- A login challenge answered by a wallet that an account holds. -/
theorem accepted_login_once :
    ∃ world, run (World.step (advance {} (.answering (.ok true)))) (initial pendingLogin)
        [(0, .begin loginQuery 0), (0, .next 2), (0, .next 2), (1, .begin loginQuery 0)] = some world ∧
      OncePastCheck world := by
  have verified : CallbackEffects.Verified {} (.answering (.ok true)) 0 loginBegun.shared.db loginQuery consumedLogin :=
    ⟨rfl, rfl, verify_answering rfl rfl rfl⟩
  have resolves :=
    @CallbackEffects.step_resolves {} (.answering (.ok true)) 0 2 loginQuery consumedLogin loginBegun 0 rfl verified
  have executed : run (World.step (advance {} (.answering (.ok true)))) (initial pendingLogin)
      [(0, .begin loginQuery 0), (0, .next 2), (0, .next 2), (1, .begin loginQuery 0)] = some _ :=
    run_cons_some.mpr ⟨loginBegun, rfl, run_cons_some.mpr ⟨_, resolves, rfl⟩⟩
  refine ⟨_, executed, (consumption_committed_iff {} (.answering (.ok true)) pendingLogin
    [(0, .begin loginQuery 0), (0, .next 2), (0, .next 2), (1, .begin loginQuery 0)] _ executed).2 ?_⟩
  refine .cons (loginQuery_begins _) trivial (.cons resolves ⟨rfl, verified.signature⟩ ?_)
  refine .cons rfl ?_ (.cons rfl trivial trivial)
  exact Option.some_ne_none _

/-- The same challenge answered twice with signatures that do not verify. -/
theorem forged_callback_replays :
    ∃ world, run (World.step (advance {} (.answering (.error .badSignatureError)))) (initial pendingLogin)
        [(0, .begin loginQuery 0), (0, .next 2), (1, .begin loginQuery 0)] = some world ∧
      ¬ EveryEndConsumes world ∧ ¬ OncePastCheck world := by
  have rejects :=
    @CallbackEffects.step_rejects {} (.answering (.error .badSignatureError)) 2 loginQuery consumedLogin loginBegun 0 rfl rfl
      (verify_answering rfl rfl rfl)
  refine ⟨_, run_cons_some.mpr ⟨loginBegun, rfl, run_cons_some.mpr ⟨_, rejects, rfl⟩⟩, ?_, ?_⟩
  · intro consumes
    obtain ⟨row, member, -, spent⟩ := consumes 0 _ _ rfl
    cases List.mem_singleton.mp member
    cases spent
  · intro once
    exact absurd (once 0 1 _ _ rfl rfl rfl) (by decide)

end Satoidc.Proofs.CallbackReplay
