import Satoidc.Profile
import Satoidc.Proofs.CallbackEffects

/-! What one operation on accounts does to the table of users: it leaves the table
alone, inserts a user, links a wallet, or flushes what a profile page has set. -/

namespace Satoidc.Proofs.UserChanges
open Foundation Accounts CallbackEffects

/-- What an operation sets of the user that its page shows. -/
inductive Edit (host : Host) (db : Db) (page : Nat) (user : User) : Operation → User → Prop where
  | nickname {raw} (value : String) : Edit host db page user (.nickname page raw) { user with nickname := value }
  | email {raw} (valid : host.isValidEmail (host.lower (stripped raw)) = true)
      (unused : (db.users.rows.any fun other => other.email = some (host.lower (stripped raw)) && other.id ≠ user.id) = false) :
      Edit host db page user (.email page raw) { user with email := some (host.lower (stripped raw)) }
  | password {salt form} (strong : isValidPassword form.newPassword = true) :
      Edit host db page user (.password page salt form) { user with passwordHash := some (host.hash salt form.newPassword) }
  | wallet (password : truthy user.passwordHash = true) :
      Edit host db page user (.unlink page) { user with lnurlPubkey := none }

inductive Change (host : Host) (state : State) : Operation → List User → Prop where
  | same {operation} : Change host state operation state.db.users.rows
  | registers {uuid salt session form redirectTo} (checked : registerCheck host state.db form = .ok (.accepted redirectTo)) :
      Change host state (.register uuid salt session form) (state.db.users.rows ++ [registeredUser host uuid salt form])
  | inserts {uuid query now} (unknown : state.db.userByPubkey query.key = none) :
      Change host state (.callback uuid query now) (state.db.users.rows ++ [walletUser uuid query.key])
  | links {uuid query now} (userId : UserId) :
      Change host state (.callback uuid query now) (setPubkey userId query.key state.db.users.rows)
  | edits {operation page user updated} (shown : state.pages page = some user)
      (edit : Edit host state.db page user operation updated) :
      Change host state operation (update (fun stored => stored.id = user.id) (user.flush updated) state.db.users.rows)

theorem commit_notified {db after : Db} {loaded updated user : User} {message shown : String}
    (committed : Profile.commit db loaded updated message = .notified after user shown) :
    user = updated ∧ after.users.rows = update (fun stored => stored.id = loaded.id) (loaded.flush updated) db.users.rows := by
  unfold Profile.commit at committed
  split at committed
  next => cases committed
  next users stored => cases committed; exact ⟨rfl, Table.store_some.mp stored⟩

theorem addChallenge_users {db after : Db} {challenge : LnurlAuthChallenge} (added : addChallenge db challenge = some after) :
    after.users = db.users := by
  unfold addChallenge at added
  obtain ⟨challenges, -, rfl⟩ := Option.map_eq_some_iff.mp added
  rfl

variable {env : Settings} {curve : Secp256k1} {host : Host} {state next : State} {operation : Operation} {user : User}

theorem registers_change {uuid : UserId} {salt : Nat} {session : Session} {form : RegisterForm} :
    Change host state (.register uuid salt session form) (registerPost host uuid salt state.db session form).1.users.rows := by
  unfold registerPost
  split
  next => exact .same
  next => exact .same
  next redirectTo checked =>
    split
    next => exact .same
    next users stored =>
      rw [Table.store_some.mp stored]
      exact .registers checked

/-- A verified callback goes on with the lookup of the wallet. -/
theorem step_verified {uuid : UserId} {query : LnurlAuthCallbackIn} {now : Instant} {challenge : LnurlAuthChallenge}
    (verified : Verified env curve now state.db query challenge) :
    step env curve host state (.callback uuid query now) =
      some { state with db := (LnurlCallback.next curve uuid
        (LnurlCallback.next curve uuid state.db (.resolved query challenge (state.db.userByPubkey query.key))).1
        (LnurlCallback.next curve uuid state.db (.resolved query challenge (state.db.userByPubkey query.key))).2).1 } := by
  rw [step, verified.callback]

theorem callback_change {uuid : UserId} {query : LnurlAuthCallbackIn} {now : Instant} :
    Change host state (.callback uuid query now) (lnurlAuthCallback env curve now uuid state.db query).1.users.rows := by
  have effect : Effect env curve now uuid state.db query (lnurlAuthCallback env curve now uuid state.db query) := callback_effect
  generalize lnurlAuthCallback env curve now uuid state.db query = result at effect
  cases effect with
  | idle | binds => exact .same
  | @registers _ users _ _ unknown rows =>
    change Change _ _ _ users.rows
    rw [rows]
    exact .inserts unknown
  | @links _ user users _ _ _ _ _ rows =>
    change Change _ _ _ users.rows
    rcases rows with ⟨-, same⟩ | rows
    · rw [same]
      exact .same
    · rw [rows]
      exact .links user.id

/-- The ways a page action ends: with what it tells, or with the flush of an edit. -/
inductive Acts (host : Host) (db : Db) (page : Nat) (user : User) (operation : Operation) : Profile.Saved → Prop where
  | told (message : String) : Acts host db page user operation (.notified db user message)
  | raised (error : PyError) : Acts host db page user operation (.raised error)
  | commits {updated : User} (message : String) (edit : Edit host db page user operation updated) :
      Acts host db page user operation (Profile.commit db user updated message)

theorem saved_change {page : Nat} {result : Profile.Saved} (shown : state.pages page = some user)
    (acts : Acts host state.db page user operation result) :
    Change host state operation (saved state page result).db.users.rows := by
  have raised : ∀ error, Change host state operation (saved state page (.raised error)).db.users.rows := by
    intro error
    cases error <;> exact .same
  cases acts with
  | told message => exact .same
  | raised error => exact raised error
  | @commits updated message edit =>
    cases committed : Profile.commit state.db user updated message with
    | raised error => exact raised error
    | notified after later told =>
      obtain ⟨-, rows⟩ := commit_notified committed
      change Change _ _ _ after.users.rows
      rw [rows]
      exact .edits shown edit

theorem onPage_change {page : Nat} {action : User → Profile.Saved}
    (acts : ∀ user, Acts host state.db page user operation (action user))
    (taken : onPage state page action = some next) : Change host state operation next.db.users.rows := by
  obtain ⟨user, shown, rfl⟩ := Option.map_eq_some_iff.mp taken
  exact saved_change shown (acts user)

theorem nickname_acts {db : Db} (page : Nat) (raw : String) :
    Acts host db page user (.nickname page raw) (Profile.saveNickname db user raw) := by
  unfold Profile.saveNickname
  dsimp only
  split
  · exact .told _
  · exact .commits _ (.nickname _)

theorem email_acts {db : Db} (page : Nat) (raw : String) :
    Acts host db page user (.email page raw) (Profile.saveEmail host db user raw) := by
  unfold Profile.saveEmail
  dsimp only
  split
  next => exact .told _
  next valid =>
    split
    next => exact .told _
    next unused => exact .commits _ (.email (by simpa using valid) (by simpa using unused))

theorem password_acts {db : Db} (page salt : Nat) (form : Profile.PasswordForm) :
    Acts host db page user (.password page salt form) (Profile.savePassword host salt db user form) := by
  unfold Profile.savePassword
  split
  · exact .raised _
  · exact .told _
  · split
    next => exact .told _
    next strong =>
      split
      · exact .told _
      · exact .commits _ (.password (by simpa using strong))

theorem unlink_acts {db : Db} (page : Nat) : Acts host db page user (.unlink page) (Profile.unlink db user) := by
  unfold Profile.unlink
  split
  next => exact .told _
  next password => exact .commits _ (.wallet (by simpa using password))

theorem step_change (taken : step env curve host state operation = some next) :
    Change host state operation next.db.users.rows := by
  cases operation with
  | register uuid salt session form => cases taken; exact registers_change
  | callback uuid query now => cases taken; exact callback_change
  | issue k1 action now =>
    obtain ⟨after, added, rfl⟩ := Option.map_eq_some_iff.mp taken
    change Change _ _ _ after.users.rows
    rw [addChallenge_users added]
    exact .same
  | issueLink page k1 now =>
    simp only [step, Option.bind_eq_bind, Option.bind_eq_some_iff, Option.some.injEq] at taken
    obtain ⟨user, -, after, added, rfl⟩ := taken
    change Change _ _ _ after.users.rows
    rw [addChallenge_users added]
    exact .same
  | openProfile page userId =>
    obtain ⟨user, -, rfl⟩ := Option.map_eq_some_iff.mp taken
    exact .same
  | nickname page raw => exact onPage_change (fun user => nickname_acts page raw) taken
  | email page raw => exact onPage_change (fun user => email_acts page raw) taken
  | password page salt form => exact onPage_change (fun user => password_acts page salt form) taken
  | unlink page => exact onPage_change (fun user => unlink_acts page) taken

end Satoidc.Proofs.UserChanges
