import Satoidc.Proofs.CallbackEffects
import Satoidc.Proofs.CallbackReplay

/-! What a callback does to the users table: nothing, one new account for a wallet
nobody holds, or the wallet of the one account its challenge records. -/

namespace Satoidc.Proofs.WalletChanges
open Foundation LnurlCallback CallbackEffects

structure Inserts (query : LnurlAuthCallbackIn) (before after : Db) : Prop where
  action : query.action = some .register
  unheld : ∀ user ∈ before.users.rows, user.lnurlPubkey ≠ some query.key
  rows : ∃ uuid, after.users.rows = before.users.rows ++ [walletUser uuid query.key]

structure Links (query : LnurlAuthCallbackIn) (userId : UserId) (before after : Db) : Prop where
  action : query.action = some .link
  stored : ∃ user ∈ before.users.rows, user.id = userId ∧ user.lnurlPubkey ≠ some query.key
  unheld : ∀ other ∈ before.users.rows, other.id ≠ userId → other.lnurlPubkey ≠ some query.key
  rows : after.users.rows = setPubkey userId query.key before.users.rows

/-- Exactly one of the three. -/
structure Change (query : LnurlAuthCallbackIn) (before after : Db) : Prop where
  kinds : after.users.rows = before.users.rows ∨ Inserts query before after ∨ ∃ userId, Links query userId before after
  inserts : Inserts query before after → after.users.rows ≠ before.users.rows ∧ ∀ userId, ¬ Links query userId before after
  links : ∀ userId, Links query userId before after →
    after.users.rows ≠ before.users.rows ∧ ∀ other, Links query other before after → other = userId

section change
variable {query : LnurlAuthCallbackIn} {before after : Db} {userId other : UserId}

theorem Inserts.changes (inserts : Inserts query before after) : after.users.rows ≠ before.users.rows := by
  obtain ⟨uuid, rows⟩ := inserts.rows
  intro same
  have longer := congrArg List.length (rows.symm.trans same)
  simp at longer

theorem Links.holder (links : Links query userId before after) :
    ∃ user ∈ after.users.rows, user.id = userId ∧ user.lnurlPubkey = some query.key ∧ user ∉ before.users.rows := by
  obtain ⟨user, member, same, different⟩ := links.stored
  refine ⟨{ user with lnurlPubkey := some query.key }, ?_, same, rfl, ?_⟩
  · rw [links.rows]
    exact mem_update_of_selected member same
  · intro already
    have equal := before.users.valid.id.unique member already rfl
    exact different (congrArg User.lnurlPubkey equal)

theorem Links.changes (links : Links query userId before after) : after.users.rows ≠ before.users.rows := by
  obtain ⟨user, member, -, -, new⟩ := links.holder
  intro same
  rw [same] at member
  exact new member

theorem Links.same (first : Links query userId before after) (second : Links query other before after) : other = userId := by
  obtain ⟨holder, member, same, key, -⟩ := first.holder
  obtain ⟨another, otherMember, otherSame, otherKey, -⟩ := second.holder
  have one := after.users.valid.lnurlPubkey.unique member otherMember key otherKey
  rw [← same, ← otherSame, one]

theorem Change.of (kinds : after.users.rows = before.users.rows ∨ Inserts query before after ∨
    ∃ userId, Links query userId before after) : Change query before after := by
  refine ⟨kinds, ?_, ?_⟩
  · intro inserts
    refine ⟨inserts.changes, ?_⟩
    intro userId links
    cases inserts.action.symm.trans links.action
  · intro userId links
    exact ⟨links.changes, fun other again => links.same again⟩

/-- A new account that the table accepts is for a wallet nobody holds. -/
theorem Inserts.of_rows {uuid : UserId} (action : query.action = some .register)
    (rows : after.users.rows = before.users.rows ++ [walletUser uuid query.key]) : Inserts query before after := by
  refine ⟨action, ?_, uuid, rows⟩
  intro user member holds
  have old : user ∈ after.users.rows := rows ▸ List.mem_append_left _ member
  have new : walletUser uuid query.key ∈ after.users.rows := rows ▸ List.mem_append_right _ (List.mem_singleton.mpr rfl)
  have same := after.users.valid.lnurlPubkey.unique old new holds rfl
  have keyed : Keyed User.id (before.users.rows ++ [walletUser uuid query.key]) := rows ▸ after.users.valid.id
  exact (Keyed.append_singleton.mp keyed).2 user member (congrArg User.id same)

/-- A wallet that the table accepts for an account is held by no other. -/
theorem links_of_rows (action : query.action = some .link)
    (rows : after.users.rows = setPubkey userId query.key before.users.rows) :
    after.users.rows = before.users.rows ∨ Links query userId before after := by
  by_cases changes : ∃ user ∈ before.users.rows, user.id = userId ∧ user.lnurlPubkey ≠ some query.key
  · refine .inr ⟨action, changes, ?_, rows⟩
    obtain ⟨user, member, same, -⟩ := changes
    intro other inside different holds
    have kept : other ∈ after.users.rows := rows ▸ mem_update_of_not_selected inside different
    have linked : { user with lnurlPubkey := some query.key } ∈ after.users.rows :=
      rows ▸ mem_update_of_selected member same
    have one := after.users.valid.lnurlPubkey.unique kept linked holds rfl
    exact different ((congrArg User.id one).trans same)
  · left
    rw [rows]
    apply update_same
    intro user member same
    have holds : user.lnurlPubkey = some query.key := by
      by_contra different
      exact changes ⟨user, member, same, different⟩
    rw [← holds]

theorem setPubkey_other {rows : List User} {user : User} {key : String} (member : user ∈ rows) (different : user.id ≠ userId) :
    user ∈ setPubkey userId key rows := mem_update_of_not_selected member different

/-- Only the linked account is modified, and of it only the wallet. -/
theorem Change.keeps (change : Change query before after) {user : User} (member : user ∈ before.users.rows) :
    user ∈ after.users.rows ∨ Links query user.id before after ∧
      { user with lnurlPubkey := some query.key } ∈ after.users.rows := by
  rcases change.kinds with same | inserts | ⟨userId, links⟩
  · exact .inl (same ▸ member)
  · obtain ⟨uuid, rows⟩ := inserts.rows
    exact .inl (rows ▸ List.mem_append_left _ member)
  · by_cases own : user.id = userId
    · subst own
      exact .inr ⟨links, links.rows ▸ mem_update_of_selected member rfl⟩
    · exact .inl (links.rows ▸ setPubkey_other member own)

end change

/-- The stored challenge lets a callback with this query act. -/
structure Permits (curve : Secp256k1) (db : Db) (query : LnurlAuthCallbackIn) (challenge : LnurlAuthChallenge) : Prop where
  stored : challenge ∈ db.challenges.rows
  k1 : challenge.k1 = query.k1
  unconsumed : challenge.consumed = false
  action : some challenge.action = query.action.map LnurlAction.value
  signature : verify curve query.k1 query.key query.sig = .ok true

structure Admits (env : Settings) (curve : Secp256k1) (now : Instant) (db : Db) (query : LnurlAuthCallbackIn)
    (challenge : LnurlAuthChallenge) : Prop extends Permits curve db query challenge where
  recent : now - seconds env.lnurlK1TtlSeconds ≤ challenge.createdAt

section callback
variable {env : Settings} {curve : Secp256k1} {now : Instant} {uuid : UserId} {db : Db} {query : LnurlAuthCallbackIn}

theorem consume_live {challenge : LnurlAuthChallenge} (started : consume env now db query = .consumed query challenge) :
    ∃ row ∈ db.challenges.rows, challenge = { row with consumed := true } ∧ row.k1 = query.k1 ∧ row.consumed = false ∧
      now - seconds env.lnurlK1TtlSeconds ≤ row.createdAt := by
  unfold consume at started
  split at started
  next => cases started
  next row found =>
    cases started
    have matched := List.find?_some found
    simp only [live, Bool.and_eq_true, decide_eq_true_eq, Bool.not_eq_true'] at matched
    exact ⟨row, List.mem_of_find?_eq_some found, rfl, matched.1.1, matched.1.2, matched.2⟩

theorem verified_admits {challenge : LnurlAuthChallenge} (verified : Verified env curve now db query challenge) :
    ∃ row, Admits env curve now db query row ∧ challenge = { row with consumed := true } := by
  obtain ⟨row, member, rfl, same, fresh, recent⟩ := consume_live verified.consumed
  exact ⟨row, ⟨⟨member, same, fresh, verified.action, verified.signature⟩, recent⟩, rfl⟩

/-- The account of one callback: how the users table changes, under which
challenge, and whom the challenge is bound to. -/
structure Account (env : Settings) (curve : Secp256k1) (now : Instant) (query : LnurlAuthCallbackIn) (before after : Db) :
    Prop where
  change : Change query before after
  inserts : Inserts query before after → ∃ challenge, Admits env curve now before query challenge
  links : ∀ userId, Links query userId before after →
    ∃ challenge, Admits env curve now before query challenge ∧ challenge.userId = some userId
  bound : ∀ old ∈ before.challenges.rows, ∀ new ∈ after.challenges.rows, new.k1 = old.k1 → new.userId ≠ old.userId →
    (query.action = some .register ∨ query.action = some .login) ∧ new.k1 = query.k1 ∧
      ∃ holder ∈ after.users.rows, holder.lnurlPubkey = some query.key ∧ new.userId = some holder.id

theorem write_userId {users : Users} {challenge old new : LnurlAuthChallenge} (member : old ∈ db.challenges.rows)
    (inside : new ∈ (db.writeChallenge users challenge).challenges.rows) (same : new.k1 = old.k1)
    (rebound : new.userId ≠ old.userId) : new.k1 = challenge.k1 ∧ new.userId = challenge.userId := by
  obtain ⟨row, stored, written⟩ := mem_update.mp inside
  split at written
  next hit =>
    subst written
    exact ⟨hit, rfl⟩
  next =>
    subst written
    rw [db.challenges.valid.unique stored member same] at rebound
    exact absurd rfl rebound

theorem account_same {after : Db} (users : after.users.rows = db.users.rows)
    (bound : ∀ old ∈ db.challenges.rows, ∀ new ∈ after.challenges.rows, new.k1 = old.k1 → new.userId ≠ old.userId →
      (query.action = some .register ∨ query.action = some .login) ∧ new.k1 = query.k1 ∧
        ∃ holder ∈ after.users.rows, holder.lnurlPubkey = some query.key ∧ new.userId = some holder.id) :
    Account env curve now query db after := by
  refine ⟨.of (.inl users), ?_, ?_, bound⟩
  · intro inserts
    exact absurd users inserts.changes
  · intro userId links
    exact absurd users links.changes

theorem callback_account : Account env curve now query db (lnurlAuthCallback env curve now uuid db query).1 := by
  have effect : Effect env curve now uuid db query (lnurlAuthCallback env curve now uuid db query) := callback_effect
  generalize lnurlAuthCallback env curve now uuid db query = result at effect
  cases effect with
  | idle =>
    refine account_same rfl ?_
    intro old member new inside same rebound
    rw [db.challenges.valid.unique inside member same] at rebound
    exact absurd rfl rebound
  | @registers challenge users verified action unknown rows =>
    obtain ⟨row, admits, rfl⟩ := verified_admits verified
    have inserts : Inserts query db (db.writeChallenge users { row with consumed := true, userId := some uuid }) :=
      .of_rows action rows
    refine ⟨.of (.inr (.inl inserts)), fun _ => ⟨row, admits⟩, ?_, ?_⟩
    · intro userId links
      cases action.symm.trans links.action
    · intro old member new inside same rebound
      obtain ⟨k1, written⟩ := write_userId member inside same rebound
      refine ⟨.inl action, k1.trans admits.k1, walletUser uuid query.key, ?_, rfl, written⟩
      exact rows ▸ List.mem_append_right _ (List.mem_singleton.mpr rfl)
  | @binds challenge user verified action found =>
    obtain ⟨row, admits, rfl⟩ := verified_admits verified
    refine account_same rfl ?_
    intro old member new inside same rebound
    obtain ⟨k1, written⟩ := write_userId member inside same rebound
    refine ⟨action, k1.trans admits.k1, user, List.mem_of_find?_eq_some found, ?_, written⟩
    simpa using List.find?_some found
  | @links challenge user users verified action recorded stored unheld rows =>
    obtain ⟨row, admits, rfl⟩ := verified_admits verified
    have bound : ∀ old ∈ db.challenges.rows,
        ∀ new ∈ (db.writeChallenge users { row with consumed := true }).challenges.rows, new.k1 = old.k1 →
          new.userId = old.userId := by
      intro old member new inside same
      by_contra rebound
      obtain ⟨k1, written⟩ := write_userId member inside same rebound
      rw [db.challenges.valid.unique member admits.stored (same.symm.trans k1)] at rebound
      exact rebound written
    have silent : ∀ old ∈ db.challenges.rows,
        ∀ new ∈ (db.writeChallenge users { row with consumed := true }).challenges.rows, new.k1 = old.k1 →
          new.userId ≠ old.userId → (query.action = some .register ∨ query.action = some .login) ∧ new.k1 = query.k1 ∧
            ∃ holder ∈ users.rows, holder.lnurlPubkey = some query.key ∧ new.userId = some holder.id :=
      fun old member new inside same rebound => absurd (bound old member new inside same) rebound
    rcases rows with ⟨-, same⟩ | rows
    · exact account_same same silent
    have linked : (db.writeChallenge users { row with consumed := true }).users.rows = db.users.rows ∨
        Links query user.id db (db.writeChallenge users { row with consumed := true }) := links_of_rows action rows
    rcases linked with same | links
    · exact account_same same silent
    refine ⟨.of (.inr (.inr ⟨user.id, links⟩)), ?_, ?_, silent⟩
    · intro inserts
      cases action.symm.trans inserts.action
    · intro userId again
      rw [links.same again]
      exact ⟨row, admits, recorded⟩

end callback

/-- What a callback in progress has found out by the point it has reached. -/
def Checked (curve : Secp256k1) : Phase → Prop
  | .resolved query challenge _ =>
    some challenge.action = query.action.map LnurlAction.value ∧ verify curve query.k1 query.key query.sig = .ok true
  | .linking query challenge user =>
    (some challenge.action = query.action.map LnurlAction.value ∧ verify curve query.k1 query.key query.sig = .ok true) ∧
      query.action = some .link ∧ challenge.userId = some user.id
  | .start | .consumed _ _ | .finished _ _ => True

/-- What one statement of a callback does to the users table. -/
inductive Changes (curve : Secp256k1) (before after : Db) (phase : Phase) : Prop where
  | nothing (same : after.users.rows = before.users.rows)
  | inserts {query challenge} (active : phase.holding = some query.k1) (held : phase.passed = some challenge)
      (action : some challenge.action = query.action.map LnurlAction.value)
      (signature : verify curve query.k1 query.key query.sig = .ok true) (inserts : Inserts query before after)
  | links {query challenge userId} (active : phase.holding = some query.k1) (held : phase.passed = some challenge)
      (action : some challenge.action = query.action.map LnurlAction.value)
      (signature : verify curve query.k1 query.key query.sig = .ok true) (recorded : challenge.userId = some userId)
      (links : Links query userId before after)

section next
variable {curve : Secp256k1} {uuid : UserId} {db : Db} {query : LnurlAuthCallbackIn} {challenge : LnurlAuthChallenge}
  {phase : Phase}

theorem commit_changes {users : Option Users}
    (stored : ∀ table, users = some table → Changes curve db (db.writeChallenge table challenge) phase) :
    Checked curve (commit db users challenge).2 ∧ Changes curve db (commit db users challenge).1 phase := by
  cases users with
  | none => exact ⟨trivial, .nothing rfl⟩
  | some table => exact ⟨trivial, stored table rfl⟩

theorem next_changes (checked : Checked curve phase) :
    Checked curve (LnurlCallback.next curve uuid db phase).2 ∧
      Changes curve db (LnurlCallback.next curve uuid db phase).1 phase := by
  have step : Stepped uuid curve db phase (LnurlCallback.next curve uuid db phase) := next_stepped
  generalize LnurlCallback.next curve uuid db phase = result at step
  cases step with
  | stays => exact ⟨checked, .nothing rfl⟩
  | refuses | unknown | accepts => exact ⟨trivial, .nothing rfl⟩
  | resolves action signature => exact ⟨⟨action, signature⟩, .nothing rfl⟩
  | registers action =>
    obtain ⟨matched, signature⟩ := checked
    apply commit_changes
    intro table stored
    exact .inserts rfl rfl matched signature (.of_rows action (Table.store_some.mp stored))
  | binds =>
    apply commit_changes
    intro table stored
    cases stored
    exact .nothing rfl
  | finds action recorded => exact ⟨⟨checked, action, recorded⟩, .nothing rfl⟩
  | keeps =>
    apply commit_changes
    intro table stored
    cases stored
    exact .nothing rfl
  | @links query challenge user =>
    obtain ⟨⟨matched, signature⟩, action, recorded⟩ := checked
    apply commit_changes
    intro table stored
    have linked : (db.writeChallenge table challenge).users.rows = db.users.rows ∨
        Links query user.id db (db.writeChallenge table challenge) := links_of_rows action (Table.store_some.mp stored)
    rcases linked with same | links
    · exact .nothing same
    · exact .links rfl rfl matched signature recorded links

end next

/-- A callback in progress has its challenge row locked and holds it as it is stored,
but for the consumption. -/
structure Sound (curve : Secp256k1) (index : Nat) (store : Store) (phase : Phase) : Prop where
  row : ∀ k1, phase.holding = some k1 → store.lockedBy k1 = some index ∧
    ∃ row ∈ store.db.challenges.rows, row.k1 = k1 ∧ row.consumed = false ∧ phase.passed = some { row with consumed := true }
  checked : Checked curve phase

/-- The challenge rows that others have locked stay as they are. -/
def KeepsLocked (mover : Nat) (before after : Store) : Prop :=
  ∀ k1 other, other ≠ mover → before.lockedBy k1 = some other → after.lockedBy k1 = some other ∧
    ∀ row ∈ before.db.challenges.rows, row.k1 = k1 → row ∈ after.db.challenges.rows

theorem moved_row {curve : Secp256k1} {index : Nat} {input : Input} {store after : Store} {phase later : Phase}
    (moved : CallbackReplay.Moved curve index store phase input after later) (sound : Sound curve index store phase) :
    (∀ k1, later.holding = some k1 → after.lockedBy k1 = some index ∧ ∃ row ∈ after.db.challenges.rows,
      row.k1 = k1 ∧ row.consumed = false ∧ later.passed = some { row with consumed := true }) ∧
    KeepsLocked index store after := by
  cases moved with
  | refuses start => exact ⟨fun _ active => (by cases active), fun _ _ _ locked => ⟨locked, fun _ member _ => member⟩⟩
  | @admits query now row start member same fresh free =>
    refine ⟨?_, ?_⟩
    · intro k1 active
      cases active
      exact ⟨Function.update_self .., row, member, same, fresh, rfl⟩
    · intro k1 other different locked
      have apart : k1 ≠ query.k1 := by
        rintro rfl
        cases free.symm.trans locked
      exact ⟨(Function.update_of_ne apart ..).trans locked, fun _ inside _ => inside⟩
  | goesOn active settles holds same =>
    refine ⟨?_, fun _ _ _ locked => ⟨locked, fun _ member _ => member⟩⟩
    intro k1 still
    cases holds.symm.trans still
    rw [same]
    exact sound.row _ active
  | @commits uuid k1 users challenge held exit active settles passed same consumed =>
    obtain ⟨mine, row, member, equal, fresh, shown⟩ := sound.row _ active
    cases passed.symm.trans shown
    refine ⟨fun _ still => (by cases still), ?_⟩
    intro taken other different locked
    obtain ⟨apart, kept⟩ := CallbackReplay.released_other different mine locked
    refine ⟨kept, ?_⟩
    intro other inside shown
    exact mem_update_of_not_selected inside fun hit => apart (shown.symm.trans (hit.trans (same.trans equal)))
  | @abandons uuid k1 challenge held exit active unsettled passed same =>
    obtain ⟨mine, -⟩ := sound.row _ active
    refine ⟨fun _ still => (by cases still), ?_⟩
    exact fun taken other different locked => ⟨(CallbackReplay.released_other different mine locked).2, fun _ inside _ => inside⟩

theorem advance_checked {env : Settings} {curve : Secp256k1} {index : Nat} {input : Input} {store after : Store}
    {phase later : Phase} (taken : advance env curve index input store phase = some (after, later))
    (checked : Checked curve phase) : Checked curve later ∧ Changes curve store.db after.db phase := by
  cases input with
  | begin query now =>
    cases phase with
    | consumed _ _ | resolved _ _ _ | linking _ _ _ | finished _ _ => cases taken
    | start =>
      rcases consume_cases env now store.db query with started | ⟨challenge, started⟩
      · simp only [advance, started] at taken
        cases taken
        exact ⟨trivial, .nothing rfl⟩
      · simp only [advance, started] at taken
        split at taken
        · cases taken
          exact ⟨trivial, .nothing rfl⟩
        · cases taken
  | next uuid =>
    simp only [advance] at taken
    cases active : phase.holding with
    | none => simp only [active] at taken; cases taken
    | some k1 =>
      simp only [active] at taken
      cases taken
      exact next_changes checked

def checking (env : Settings) (curve : Secp256k1) : Discipline (advance env curve) fun _ _ => True where
  store _ := True
  own := Sound curve
  apart _ _ := True
  guarantee mover _ := KeepsLocked mover
  symmetric _ _ := id
  moves _ _ _ _ _ _ sound _ taken :=
    have moved := moved_row (CallbackReplay.advance_moved taken) sound
    ⟨trivial, ⟨moved.1, (advance_checked taken sound.checked).1⟩, moved.2⟩
  stable _ _ _ _ _ _ different _ _ _ keeps sound := by
    refine ⟨?_, sound.checked⟩
    intro k1 active
    obtain ⟨locked, row, member, same, fresh, held⟩ := sound.row k1 active
    obtain ⟨still, kept⟩ := keeps k1 _ different locked
    exact ⟨still, row, kept row member same, same, fresh, held⟩
  separates _ _ _ _ _ _ _ _ _ _ _ _ _ := trivial

theorem initial_checking (env : Settings) (curve : Secp256k1) (db : Db) : (checking env curve).Holds (initial db) :=
  ⟨trivial, fun _ => ⟨fun _ active => (by cases active), trivial⟩, fun _ _ _ => trivial⟩

/-- A step of any callback either leaves the users alone or inserts or links under
a challenge that is stored, unconsumed and permits it. -/
def StepChange (curve : Secp256k1) (before after : Db) : Prop :=
  after.users.rows = before.users.rows ∨
    ∃ query challenge, Permits curve before query challenge ∧
      (Inserts query before after ∨ ∃ userId, challenge.userId = some userId ∧ Links query userId before after)

theorem step_change {env : Settings} {curve : Secp256k1} {world next : World Store Phase} {event : Nat × Input}
    (held : (checking env curve).Holds world) (taken : World.step (advance env curve) world event = some next) :
    StepChange curve world.shared.db next.shared.db := by
  obtain ⟨mover, input⟩ := event
  obtain ⟨shared, session, stepped, rfl⟩ := World.step_some.mp taken
  have sound : Sound curve mover world.shared (world.sessions mover) := held.own mover
  cases (advance_checked stepped sound.checked).2 with
  | nothing same => exact .inl same
  | @inserts query challenge active passed action signature inserts =>
    obtain ⟨-, row, member, same, fresh, shown⟩ := sound.row _ active
    cases passed.symm.trans shown
    exact .inr ⟨query, row, ⟨member, same, fresh, action, signature⟩, .inl inserts⟩
  | @links query challenge userId active passed action signature recorded links =>
    obtain ⟨-, row, member, same, fresh, shown⟩ := sound.row _ active
    cases passed.symm.trans shown
    exact .inr ⟨query, row, ⟨member, same, fresh, action, signature⟩, .inr ⟨userId, recorded, links⟩⟩

/-- Every callback that runs alone keeps to its account. In every interleaving of
callbacks wallets stay distinct, and a step modifies no account other than the
one that its challenge records. -/
theorem wallet_changes (env : Settings) (curve : Secp256k1) :
    (∀ now uuid db query, Account env curve now query db (lnurlAuthCallback env curve now uuid db query).1) ∧
      ∀ db events world, run (World.step (advance env curve)) (initial db) events = some world →
        UniqueColumn User.lnurlPubkey world.shared.db.users.rows ∧
          ∀ first event second before after, events = first ++ event :: second →
            run (World.step (advance env curve)) (initial db) first = some before →
            World.step (advance env curve) before event = some after →
            StepChange curve before.shared.db after.shared.db ∧
              ∀ user ∈ before.shared.db.users.rows, user ∈ after.shared.db.users.rows ∨
                ∃ query challenge, Permits curve before.shared.db query challenge ∧ challenge.userId = some user.id ∧
                  query.action = some .link ∧ { user with lnurlPubkey := some query.key } ∈ after.shared.db.users.rows := by
  refine ⟨fun now uuid db query => callback_account, ?_⟩
  intro db events world executed
  refine ⟨world.shared.db.users.valid.lnurlPubkey, ?_⟩
  intro first event second before after split partway taken
  have held : (checking env curve).Holds before := (initial_checking env curve db).run _ (along_true _ _) partway
  have change := step_change held taken
  refine ⟨change, ?_⟩
  intro user member
  rcases change with same | ⟨query, challenge, permits, inserts | ⟨userId, recorded, links⟩⟩
  · exact .inl (same ▸ member)
  · exact ((Change.of (.inr (.inl inserts))).keeps member).imp_right fun ⟨links, _⟩ => by
      cases inserts.action.symm.trans links.action
  · rcases (Change.of (.inr (.inr ⟨userId, links⟩))).keeps member with kept | ⟨own, linked⟩
    · exact .inl kept
    · cases links.same own
      exact .inr ⟨query, challenge, permits, recorded, links.action, linked⟩

def linkQuery : LnurlAuthCallbackIn where
  k1 := "4444444444444444444444444444444444444444444444444444444444444444"
  sig := "0000000000000004"
  key := "020000000000000000000000000000000000000000000000000000000000000004"
  action := some .link
  k1Length := String.length_ofList
  sigLength := by decide
  keyLength := String.length_ofList

def pendingLink : Db where
  users :=
    ⟨[{ id := 7, lnurlPubkey := none, email := none, login := some "ann", passwordHash := some "1$a", nickname := "Ann" }],
    by decide⟩
  challenges := ⟨[{ k1 := linkQuery.k1, userId := some 7, action := "link", createdAt := 0 }], by decide⟩

def consumedLink : LnurlAuthChallenge where
  k1 := linkQuery.k1
  userId := some 7
  action := "link"
  consumed := true
  createdAt := 0

def linkBegun : World Store Phase :=
  (initial pendingLink).moved 0 ⟨pendingLink, Function.update (fun _ => none) linkQuery.k1 (some 0)⟩
    (.consumed linkQuery consumedLink)

/-- Account 7, which has a password, links a wallet. -/
theorem linked_wallet_kept :
    ∃ world, run (World.step (advance {} (.answering (.ok true)))) (initial pendingLink)
        [(0, .begin linkQuery 0), (0, .next 1), (0, .next 1), (0, .next 1)] = some world ∧
      world.shared.db.users.rows.map User.lnurlPubkey = [some linkQuery.key] ∧
      UniqueColumn User.lnurlPubkey world.shared.db.users.rows := by
  have verified : Verified {} (.answering (.ok true)) 0 linkBegun.shared.db linkQuery consumedLink :=
    ⟨rfl, rfl, verify_answering rfl rfl rfl⟩
  have executed : run (World.step (advance {} (.answering (.ok true)))) (initial pendingLink)
      [(0, .begin linkQuery 0), (0, .next 1), (0, .next 1), (0, .next 1)] = some _ :=
    run_cons_some.mpr ⟨linkBegun, rfl, run_cons_some.mpr ⟨_, step_resolves rfl verified, rfl⟩⟩
  refine ⟨_, executed, rfl, ?_⟩
  exact ((wallet_changes {} (.answering (.ok true))).2 pendingLink
    [(0, .begin linkQuery 0), (0, .next 1), (0, .next 1), (0, .next 1)] _ executed).1

end Satoidc.Proofs.WalletChanges
