import Satoidc.Foundation.Stripping
import Satoidc.Proofs.NameWrites
import Satoidc.SetupWizard

/-! An identifier names one account at most. Logins have no `@` and emails have one, so
a login never equals an email, and the two columns are unique. -/

namespace Satoidc.Proofs.Identifiers
open Foundation SetupWizard NameWrites

/-- `User.email == identifier or User.login == identifier`. -/
def Names (identifier : String) (user : User) : Prop := user.email = some identifier ∨ user.login = some identifier

structure WellNamed (host : Host) (user : User) : Prop where
  email : ∀ email, user.email = some email → host.lower email = email ∧ '@' ∈ email.toList
  login : ∀ login, user.login = some login → isValidLogin login = true

/-- What the code relies on: an accepted email has an `@`, and lowercasing keeps it and
leaves lowercase text alone. -/
structure Text (host : Host) : Prop where
  validEmail : ∀ text, host.isValidEmail text = true → '@' ∈ text.toList
  lowerAt : ∀ text, '@' ∈ text.toList → '@' ∈ (host.lower text).toList
  lowerLower : ∀ text, host.lower (host.lower text) = host.lower text

theorem stripped_at {text : String} (member : '@' ∈ text.toList) : '@' ∈ (stripped text).toList := by
  rw [stripped, String.toList_ofList]
  exact mem_strip (by decide) member

theorem validLogin_at {login : String} (valid : isValidLogin login = true) : '@' ∉ login.toList := by
  intro member
  simp only [isValidLogin, Bool.and_eq_true, List.all_eq_true] at valid
  exact absurd (valid.2 '@' member) (by decide)

theorem isSpace_of_login {c : Char} (allowed : (isLower c || isAsciiDigit c) = true) : isSpace c = false := by
  have bounds : ('a'.toNat ≤ c.toNat ∧ c.toNat ≤ 'z'.toNat) ∨ ('0'.toNat ≤ c.toNat ∧ c.toNat ≤ '9'.toNat) := by
    simpa [isLower, isAsciiDigit, Char.le_def, UInt32.le_iff_toNat_le] using allowed
  have a : 'a'.toNat = 97 := rfl
  have z : 'z'.toNat = 122 := rfl
  have zero : '0'.toNat = 48 := rfl
  have nine : '9'.toNat = 57 := rfl
  simp only [isSpace, Bool.or_eq_false_iff, Bool.and_eq_false_iff, decide_eq_false_iff_not, beq_eq_false_iff_ne]
  omega

theorem validLogin_stripped {login : String} (valid : isValidLogin login = true) : stripped login = login := by
  simp only [isValidLogin, Bool.and_eq_true, List.all_eq_true] at valid
  have trimmed : Trimmed login.toList := .of_visible fun c member => isSpace_of_login (valid.2 c member)
  rw [stripped, strip_of_trimmed trimmed, String.ofList_toList]

variable {host : Host} {rows before after : List User} {identifier : String}

/-- Of well-named users in a table, an identifier names one. -/
theorem names_unique (named : ∀ user ∈ rows, WellNamed host user) (valid : UserConstraints rows) {first second : User}
    (left : first ∈ rows) (right : second ∈ rows) (namesFirst : Names identifier first) (namesSecond : Names identifier second) :
    first = second := by
  rcases namesFirst with email | login <;> rcases namesSecond with otherEmail | otherLogin
  · exact valid.email.unique left right email otherEmail
  · exact absurd ((named first left).email _ email).2 (validLogin_at ((named second right).login _ otherLogin))
  · exact absurd ((named second right).email _ otherEmail).2 (validLogin_at ((named first left).login _ login))
  · exact valid.login.unique left right login otherLogin

/-- What the checks ensure of a new email. -/
def Lowered (host : Host) (email : String) : Prop := host.lower email = email ∧ '@' ∈ email.toList

theorem lowered (text : Text host) {email : String} (member : '@' ∈ email.toList) : Lowered host (host.lower email) :=
  ⟨text.lowerLower email, text.lowerAt email member⟩

theorem emailInput_lowered (text : Text host) {state : Satoidc.Accounts.State}
    {operation : Satoidc.Accounts.Operation} {email : String}
    (input : emailInput host state operation = some email) : Lowered host email := by
  obtain ⟨valid, raw, rfl⟩ := emailInput_valid input
  exact ⟨text.lowerLower raw, text.validEmail _ valid⟩

theorem SameNames.names {row later : User} (same : SameNames row later) : Names identifier later ↔ Names identifier row := by
  rw [Names, Names, same.email, same.login]

section renames
variable {subject : UserId}

/-- The writes of this program: emails in lowercase and logins of their form. -/
abbrev Renames (host : Host) (subject : UserId) (before after : List User) : Prop :=
  Writes (Lowered host) (isValidLogin · = true) subject before after

theorem Renames.wellNamed (renames : Renames host subject before after) (named : ∀ user ∈ before, WellNamed host user) :
    ∀ user ∈ after, WellNamed host user := by
  intro later member
  constructor
  · intro email held
    rcases renames.email later member email held with ⟨row, old, stored⟩ | new
    · exact (named row old).email email stored
    · exact new
  · intro login held
    rcases renames.login later member login held with ⟨row, old, stored⟩ | new
    · exact (named row old).login login stored
    · exact new

/-- An identifier that names a user before and a user after names the same one. -/
theorem Renames.unshadowed (renames : Renames host subject before after) (named : ∀ user ∈ before, WellNamed host user)
    (validBefore : UserConstraints before) (validAfter : UserConstraints after) {user later : User} (old : user ∈ before)
    (new : later ∈ after) (namesUser : Names identifier user) (namesLater : Names identifier later) : later.id = user.id := by
  rcases renames.comes later new with ⟨row, member, same⟩ | isSubject
  · rw [names_unique named validBefore old member namesUser ((SameNames.names same).mp namesLater)]
    exact same.id
  · by_cases other : user.id = subject
    · exact isSubject.trans other.symm
    · obtain ⟨kept, member, same⟩ := renames.goes user old other
      have one := names_unique (Renames.wellNamed renames named) validAfter member new
        ((SameNames.names same).mpr namesUser) namesLater
      rw [← one]
      exact same.id

end renames

theorem submit_renames (text : Text host) {uuid : UserId} {salt : Nat} {store after : Store} {form : RootForm}
    (created : submit host uuid salt store form = .created after) :
    Renames host uuid store.db.users.rows after.db.users.rows := by
  obtain ⟨accepted, rows, -⟩ := submit_created created
  obtain ⟨login, email⟩ := validated accepted
  rw [rows]
  refine .insert rfl ?_ ?_
  · intro stored held
    cases held
    exact lowered text (stripped_at (text.validEmail _ email))
  · intro stored held
    cases held
    rw [validLogin_stripped login]
    exact login

theorem step_renames (text : Text host) {env : Settings} {curve : Secp256k1} {accounts next : SetupWizard.Accounts}
    {operation : SetupWizard.Operation} (taken : accounts.step env curve host operation = some next) :
    ∃ subject, Renames host subject accounts.state.db.users.rows next.state.db.users.rows := by
  cases operation with
  | account operation =>
    obtain ⟨state, stepped, rfl⟩ := Option.map_eq_some_iff.mp taken
    obtain ⟨subject, writes⟩ := step_writes stepped
    exact ⟨subject, writes.goes, writes.comes,
      fun later member email held => (writes.email later member email held).imp_right (emailInput_lowered text), writes.login⟩
  | submit uuid salt form =>
    simp only [SetupWizard.Accounts.step] at taken
    split at taken
    next store created =>
      cases taken
      exact ⟨uuid, submit_renames text created⟩
    next => cases taken; exact ⟨0, .same 0⟩

/-- A sign-in is into an account that the identifier names. -/
theorem loginPost_names {db : Db} {session : Session} {form : LoginForm}
    (signedIn : (loginPost host db session form).1.userId ≠ session.userId) :
    ∃ user ∈ db.users.rows, Names form.identifier user ∧ (loginPost host db session form).1.userId = some user.id := by
  unfold loginPost at signedIn ⊢
  dsimp only at signedIn ⊢
  split at signedIn
  next => exact absurd rfl signedIn
  next nonce =>
    rw [if_neg nonce]
    split at signedIn
    next => exact absurd rfl signedIn
    next target safe =>
      split at signedIn
      next => exact absurd rfl signedIn
      next user found =>
        split at signedIn
        next => exact absurd rfl signedIn
        next => exact absurd rfl signedIn
        next verified =>
          have names := List.find?_some found
          simp only [Bool.or_eq_true, decide_eq_true_eq] at names
          refine ⟨user, List.mem_of_find?_eq_some found, names, ?_⟩
          rfl

/-- In every state that registrations, email changes, the wizard and wallets lead to,
emails are lowercase and have an `@`, logins are of their form, both are unique, and an
identifier names one account at most; so `login_post` signs in to that one, and no
further operation makes an identifier name another account. -/
theorem identifiers_unambiguous (env : Settings) (curve : Secp256k1) (host : Host) (text : Text host)
    (operations : List SetupWizard.Operation) (accounts : SetupWizard.Accounts)
    (executed : run (SetupWizard.Accounts.step env curve host) .initial operations = some accounts) :
    let users := accounts.state.db.users.rows
    (∀ user ∈ users, WellNamed host user) ∧ UniqueColumn User.email users ∧ UniqueColumn User.login users ∧
      (∀ identifier, ∀ first ∈ users, ∀ second ∈ users, Names identifier first → Names identifier second → first = second) ∧
      (∀ session form, (loginPost host accounts.state.db session form).1.userId ≠ session.userId →
        ∃ user ∈ users, Names form.identifier user ∧ (∀ other ∈ users, Names form.identifier other → other = user) ∧
          (loginPost host accounts.state.db session form).1.userId = some user.id) ∧
      ∀ operation next, accounts.step env curve host operation = some next →
        ∀ identifier, ∀ user ∈ users, ∀ later ∈ next.state.db.users.rows,
          Names identifier user → Names identifier later → later.id = user.id := by
  have named : ∀ user ∈ accounts.state.db.users.rows, WellNamed host user := by
    refine run_invariant (fun accounts => ∀ user ∈ accounts.state.db.users.rows, WellNamed host user) ?_ ?_ executed
    · intro accounts operation next named taken
      obtain ⟨subject, renames⟩ := step_renames text taken
      exact Renames.wellNamed renames named
    · intro user member
      cases member
  have valid := accounts.state.db.users.valid
  have unique : ∀ identifier, ∀ first ∈ accounts.state.db.users.rows, ∀ second ∈ accounts.state.db.users.rows,
      Names identifier first → Names identifier second → first = second :=
    fun identifier first left second right => names_unique named valid left right
  refine ⟨named, valid.email, valid.login, unique, ?_, ?_⟩
  · intro session form signedIn
    obtain ⟨user, member, names, shown⟩ := loginPost_names signedIn
    exact ⟨user, member, names, fun other inside also => unique _ other inside user member also names, shown⟩
  · intro operation next taken identifier user old later new namesUser namesLater
    obtain ⟨subject, renames⟩ := step_renames text taken
    exact Renames.unshadowed renames named valid next.state.db.users.valid old new namesUser namesLater

theorem toLower_toLower (c : Char) : c.toLower.toLower = c.toLower := by
  unfold Char.toLower
  grind

theorem ascii_text : Text .ascii where
  validEmail text valid := by simpa [Host.ascii] using valid
  lowerAt text member := by
    simp only [Host.ascii, String.toList_ofList]
    exact List.mem_map.mpr ⟨'@', member, rfl⟩
  lowerLower text := by
    simp only [Host.ascii, String.toList_ofList, List.map_map]
    congr 1
    apply List.map_congr_left
    intro c _
    exact toLower_toLower c

/-- The wizard's user, a registration with capitals in the email, and email changes to
the login and to the email of the first user, which are refused, and to a new email. -/
def accountOperations : List SetupWizard.Operation :=
  [.submit 1 1 { login := "satoshi", email := "Satoshi@Example.com ", password := "Correct-horse-1" },
    .account (.register 2 2 {} ⟨"halfinney", "HAL@example.com", none, "Correct-horse-2", "Correct-horse-2", none, true⟩),
    .account (.openProfile 0 2), .account (.email 0 "satoshi"), .account (.email 0 " Satoshi@example.com"),
    .account (.email 0 "Finney@example.com")]

theorem accountOperations_unambiguous : ∃ accounts,
    run (SetupWizard.Accounts.step {} (.answering (.ok true)) .ascii) .initial accountOperations = some accounts ∧
      accounts.state.db.users.rows.map (fun user => (user.email, user.login)) =
        [(some "satoshi@example.com", some "satoshi"), (some "finney@example.com", some "halfinney")] ∧
      ∀ user ∈ accounts.state.db.users.rows, WellNamed .ascii user := by
  have shown : (run (SetupWizard.Accounts.step {} (.answering (.ok true)) .ascii) .initial accountOperations).map
      (fun accounts => accounts.state.db.users.rows.map fun user => (user.email, user.login)) =
        some [(some "satoshi@example.com", some "satoshi"), (some "finney@example.com", some "halfinney")] := by
    decide +kernel
  obtain ⟨accounts, executed, names⟩ := Option.map_eq_some_iff.mp shown
  refine ⟨accounts, executed, names, ?_⟩
  exact (identifiers_unambiguous {} (.answering (.ok true)) .ascii ascii_text accountOperations accounts executed).1

end Satoidc.Proofs.Identifiers
