import Satoidc.Foundation.Runs
import Satoidc.Proofs.SignInMethods
import Satoidc.Proofs.UserChanges

/-! Signing in with a password. An account without one is no ordinary rejection: the
verifier raises for it, as `safe_redirect` does for a destination it cannot parse. -/

namespace Satoidc.Proofs.PasswordSignIn
open Foundation Satoidc.Accounts UserChanges

/-- What pwdlib does: it answers for the hashes it has made, and raises without one. -/
structure Pwdlib (host : Host) : Prop where
  answers : ∀ salt stored password, ∃ verified, host.verify password (some (host.hash salt stored)) = .ok verified
  raises : ∀ password, ∃ raised, host.verify password none = .error raised

/-- The password of a user, if there is one, was hashed by `hash_password`. -/
def Hashed (host : Host) (user : User) : Prop :=
  ∀ hash, user.passwordHash = some hash → ∃ salt password, hash = host.hash salt password

variable {host : Host} {state : State}

theorem Hashed.flush {db : Db} {page : Nat} {user updated row : User} {operation : Operation}
    (edit : Edit host db page user operation updated) (hashed : Hashed host row) : Hashed host (user.flush updated row) := by
  intro hash held
  simp only [User.flush] at held
  cases edit with
  | nickname | email | wallet =>
    rw [writeColumn, if_pos rfl] at held
    exact hashed hash held
  | password strong =>
    unfold writeColumn at held
    split at held
    next => exact hashed hash held
    next => cases held; exact ⟨_, _, rfl⟩

theorem change_hashed {operation : Operation} {rows : List User} (change : Change host state operation rows)
    (hashed : ∀ user ∈ state.db.users.rows, Hashed host user) : ∀ user ∈ rows, Hashed host user := by
  intro later member
  cases change with
  | same => exact hashed later member
  | registers =>
    rcases List.mem_append.mp member with old | new
    · exact hashed later old
    · intro hash held
      cases List.mem_singleton.mp new
      cases held
      exact ⟨_, _, rfl⟩
  | inserts =>
    rcases List.mem_append.mp member with old | new
    · exact hashed later old
    · intro hash held
      cases List.mem_singleton.mp new
      cases held
  | links userId =>
    obtain ⟨row, old, rfl⟩ := mem_update.mp member
    split
    next => exact hashed row old
    next => exact hashed row old
  | edits shown edit =>
    obtain ⟨row, old, rfl⟩ := mem_update.mp member
    split
    next => exact .flush edit (hashed row old)
    next => exact hashed row old

/-- A session's nonce is `uuid4().hex`, so an empty one is none. -/
def NonceMatches (session : Session) (form : LoginForm) : Prop :=
  truthy session.loginNonce = true ∧ form.loginNonce = session.loginNonce

/-- The form proves to be the user's: its nonce is the session's, and its password
verifies against the hash of the user it identifies. -/
def Authenticates (host : Host) (db : Db) (session : Session) (form : LoginForm) (user : User) : Prop :=
  NonceMatches session form ∧ db.userByIdentifier form.identifier = some user ∧
    ∃ hash, user.passwordHash = some hash ∧ host.verify form.password (some hash) = .ok true

/-- `login_post` redirects, signs in whoever has authenticated and nobody else, and has
used up the nonce. -/
structure Ordinary (host : Host) (db : Db) (session : Session) (form : LoginForm) : Prop where
  redirects : ∃ location, (loginPost host db session form).2 = .ok location
  signsIn : ∀ user, Authenticates host db session form user → (loginPost host db session form).1.userId = some user.id
  keeps : (∀ user, ¬ Authenticates host db session form user) → (loginPost host db session form).1.userId = session.userId
  nonce : (loginPost host db session form).1.loginNonce = none

/-- The login stops at its nonce, or its destination parses and the account that it
identifies has a password. -/
def Answerable (host : Host) (db : Db) (session : Session) (form : LoginForm) : Prop :=
  NonceMatches session form → (∃ nxt, safeRedirect host form.redirectTo = .ok nxt) ∧
    ∀ user, db.userByIdentifier form.identifier = some user → user.passwordHash ≠ none

section login
variable {db : Db} {session : Session} {form : LoginForm} {user : User} {nxt : String}

theorem nonceMatches_iff : NonceMatches session form ↔
    ¬ (!truthy session.loginNonce || !truthy form.loginNonce || form.loginNonce ≠ session.loginNonce) = true := by
  simp only [NonceMatches, Bool.or_eq_true, Bool.not_eq_true', decide_eq_true_eq, not_or, Bool.not_eq_false, not_not]
  constructor
  · rintro ⟨drawn, same⟩
    exact ⟨⟨drawn, same ▸ drawn⟩, same⟩
  · rintro ⟨⟨drawn, -⟩, same⟩
    exact ⟨drawn, same⟩

theorem loginPost_badFlow (mismatch : ¬ NonceMatches session form) :
    loginPost host db session form = ({ session with loginNonce := none }, .ok "/login?err=bad_flow") := by
  rw [loginPost, if_pos (not_not.mp (mt nonceMatches_iff.mpr mismatch))]

theorem loginPost_flow (same : NonceMatches session form) (safe : safeRedirect host form.redirectTo = .ok nxt) :
    loginPost host db session form =
      match db.userByIdentifier form.identifier with
      | none => ({ session with loginNonce := none }, .ok ("/login?err=invalid&redirect_to=" ++ quote nxt))
      | some user =>
        match host.verify form.password user.passwordHash with
        | .error raised => ({ session with loginNonce := none }, .error raised)
        | .ok false => ({ session with loginNonce := none }, .ok ("/login?err=invalid&redirect_to=" ++ quote nxt))
        | .ok true => (⟨some user.id, none⟩, .ok nxt) := by
  have passed := nonceMatches_iff.mp same
  cases found : db.userByIdentifier form.identifier with
  | none => simp only [loginPost, if_neg passed, safe, found]
  | some user =>
    cases checked : host.verify form.password user.passwordHash with
    | error raised => simp only [loginPost, if_neg passed, safe, found, checked]
    | ok verified => cases verified <;> simp only [loginPost, if_neg passed, safe, found, checked]

theorem loginPost_unparsed {raised : PyError} (same : NonceMatches session form)
    (unsafe' : safeRedirect host form.redirectTo = .error raised) :
    loginPost host db session form = ({ session with loginNonce := none }, .error raised) := by
  rw [loginPost, if_neg (nonceMatches_iff.mp same), unsafe']

/-- An answer that signs nobody in, when nobody has authenticated. -/
theorem Ordinary.rejects {location : String}
    (answered : loginPost host db session form = ({ session with loginNonce := none }, .ok location))
    (nobody : ∀ user, ¬ Authenticates host db session form user) : Ordinary host db session form := by
  refine ⟨⟨location, by rw [answered]⟩, fun user authenticated => absurd authenticated (nobody user), ?_, ?_⟩
  · intro _
    rw [answered]
  · rw [answered]

theorem Authenticates.verified {stored : Option String} {outcome : Except PyError Bool}
    (authenticated : Authenticates host db session form user)
    {found : User} (identified : db.userByIdentifier form.identifier = some found) (hash : found.passwordHash = stored)
    (verified : host.verify form.password stored = outcome) : found = user ∧ outcome = .ok true := by
  obtain ⟨-, same, kept, held, accepted⟩ := authenticated
  cases identified.symm.trans same
  cases held.symm.trans hash
  exact ⟨rfl, verified.symm.trans accepted⟩

theorem raised_not_ordinary {after : Session} {raised : PyError}
    (answered : loginPost host db session form = (after, .error raised)) :
    ¬ Ordinary host db session form := by
  intro ordinary
  obtain ⟨location, redirected⟩ := ordinary.redirects
  rw [answered] at redirected
  cases redirected

/-- A login whose password is checked against a hash is answered either way. -/
theorem ordinary_checked {hash : String} {verified : Bool} (same : NonceMatches session form)
    (safe : safeRedirect host form.redirectTo = .ok nxt) (found : db.userByIdentifier form.identifier = some user)
    (stored : user.passwordHash = some hash) (answered : host.verify form.password (some hash) = .ok verified) :
    Ordinary host db session form := by
  have flow := @loginPost_flow host db session form nxt same safe
  rw [found] at flow
  simp only [stored, answered] at flow
  cases verified with
  | false =>
    refine .rejects flow ?_
    intro other authenticated
    cases (authenticated.verified found stored answered).2
  | true =>
    have authenticated : Authenticates host db session form user := ⟨same, found, _, stored, answered⟩
    refine ⟨⟨nxt, by rw [flow]⟩, ?_, fun nobody => absurd authenticated (nobody user), by rw [flow]⟩
    intro other also
    rw [flow, (also.verified found stored answered).1]

theorem ordinary_iff (pwdlib : Pwdlib host) (hashed : ∀ user ∈ db.users.rows, Hashed host user) :
    Ordinary host db session form ↔ Answerable host db session form := by
  by_cases same : NonceMatches session form
  · cases safe : safeRedirect host form.redirectTo with
    | error raised =>
      apply iff_of_false (raised_not_ordinary (loginPost_unparsed same safe))
      intro answerable
      obtain ⟨⟨_, parsed⟩, -⟩ := answerable same
      cases safe.symm.trans parsed
    | ok nxt =>
      have flow := @loginPost_flow host db session form nxt same safe
      cases found : db.userByIdentifier form.identifier with
      | none =>
        rw [found] at flow
        refine iff_of_true (.rejects flow ?_) ?_
        · rintro user ⟨-, identified, -⟩
          cases found.symm.trans identified
        · intro _
          refine ⟨⟨nxt, safe⟩, fun user impossible => ?_⟩
          cases found.symm.trans impossible
      | some user =>
        rw [found] at flow
        cases stored : user.passwordHash with
        | none =>
          obtain ⟨raised, refused⟩ := pwdlib.raises form.password
          simp only [stored, refused] at flow
          exact iff_of_false (raised_not_ordinary flow) fun answerable => (answerable same).2 user found stored
        | some hash =>
          have member : user ∈ db.users.rows := List.mem_of_find?_eq_some found
          obtain ⟨salt, password, rfl⟩ := hashed user member hash stored
          obtain ⟨verified, answered⟩ := pwdlib.answers salt password form.password
          apply iff_of_true (ordinary_checked same safe found stored answered)
          intro _
          refine ⟨⟨nxt, safe⟩, fun other identified => ?_⟩
          cases found.symm.trans identified
          rw [stored]
          exact Option.some_ne_none _
  · have stopped := @loginPost_badFlow host db session form same
    refine iff_of_true (.rejects stopped ?_) fun matches' => absurd matches' same
    exact fun user authenticated => same authenticated.1

end login

/-- Whatever registrations, wallets and profile pages have made of the users, a login
is answered as it should be exactly when it stops at its nonce or has a destination
that parses and identifies no account without a password. -/
theorem login_ordinary_iff (env : Settings) (curve : Secp256k1) (host : Host) (pwdlib : Pwdlib host)
    (operations : List Operation)
    (state : State) (executed : run (step env curve host) initial operations = some state) (session : Session)
    (form : LoginForm) :
    Ordinary host state.db session form ↔ Answerable host state.db session form := by
  apply ordinary_iff pwdlib
  refine run_invariant (fun state => ∀ user ∈ state.db.users.rows, Hashed host user) ?_ ?_ executed
  · intro before operation after hashed taken
    exact change_hashed (step_change taken) hashed
  · intro user member
    cases member

theorem ascii_pwdlib : Pwdlib .ascii := ⟨fun _ _ _ => ⟨_, rfl⟩, fun _ => ⟨_, rfl⟩⟩

/-- A wallet account sets an email. -/
def walletThenEmail : List Operation :=
  [.issue SignInMethods.registerQuery.k1 .register 0, .callback 7 SignInMethods.registerQuery 0, .openProfile 0 7,
    .email 0 "Hal@example.com"]

def halWallet : User := { walletUser 7 SignInMethods.registerQuery.key with email := some "hal@example.com" }

def emailSaved : State where
  db := ⟨⟨[halWallet], by decide⟩, SignInMethods.walletRegistered.db.challenges⟩
  pages := Function.update (Function.update SignInMethods.walletRegistered.pages 0
    (some (walletUser 7 SignInMethods.registerQuery.key))) 0 (some halWallet)

theorem walletThenEmail_reached : run (step {} (.answering (.ok true)) .ascii) initial walletThenEmail = some emailSaved :=
  run_cons_some.mpr ⟨SignInMethods.registerIssued, rfl, run_cons_some.mpr
    ⟨SignInMethods.walletRegistered, SignInMethods.registerQuery_registers, rfl⟩⟩

def emailLogin : LoginForm := ⟨"hal@example.com", "Correct-horse-1", some "/profile", some "n"⟩

theorem email_with_password : ∃ state,
    run (step {} (.answering (.ok true)) .ascii) initial
        (walletThenEmail ++ [.password 0 1 ⟨none, "Correct-horse-1", "Correct-horse-1"⟩]) = some state ∧
      loginPost .ascii state.db { loginNonce := some "n" } emailLogin = (⟨some 7, none⟩, .ok "/profile") ∧
      Ordinary .ascii state.db { loginNonce := some "n" } emailLogin := by
  have executed : run (step {} (.answering (.ok true)) .ascii) initial
      (walletThenEmail ++ [.password 0 1 ⟨none, "Correct-horse-1", "Correct-horse-1"⟩]) = some _ :=
    run_append_some.mpr ⟨emailSaved, walletThenEmail_reached, rfl⟩
  refine ⟨_, executed, by decide, ?_⟩
  refine (login_ordinary_iff {} (.answering (.ok true)) .ascii ascii_pwdlib
    (walletThenEmail ++ [.password 0 1 ⟨none, "Correct-horse-1", "Correct-horse-1"⟩]) _ executed _ _).mpr ?_
  refine fun _ => ⟨⟨"/profile", by decide⟩, ?_⟩
  intro user found
  cases found
  exact Option.some_ne_none _

theorem email_without_password : ∃ state,
    run (step {} (.answering (.ok true)) .ascii) initial walletThenEmail = some state ∧
      loginPost .ascii state.db { loginNonce := some "n" } emailLogin = ({}, .error .unknownHash) ∧
      ¬ Ordinary .ascii state.db { loginNonce := some "n" } emailLogin := by
  have stops : ∀ db : Db, loginPost .ascii db { loginNonce := some "n" } emailLogin = ({}, .error .unknownHash) →
      ¬ Ordinary .ascii db { loginNonce := some "n" } emailLogin := by
    intro db raised ordinary
    obtain ⟨_, answered⟩ := ordinary.redirects
    rw [raised] at answered
    cases answered
  exact ⟨emailSaved, walletThenEmail_reached, rfl, stops _ rfl⟩

end Satoidc.Proofs.PasswordSignIn
