import Satoidc.Foundation.Runs
import Satoidc.Proofs.UserChanges

/-! What the operations on accounts write into the two columns that name an account. -/

namespace Satoidc.Proofs.NameWrites
open Foundation Satoidc.Accounts UserChanges

structure SameNames (row later : User) : Prop where
  id : later.id = row.id
  email : later.email = row.email
  login : later.login = row.login

theorem SameNames.refl (row : User) : SameNames row row := ⟨rfl, rfl, rfl⟩

/-- At most the user `subject` gets other names, and a name that was not in the table
before is one of the new emails or logins. -/
structure Writes (newEmail newLogin : String → Prop) (subject : UserId) (before after : List User) : Prop where
  goes : ∀ row ∈ before, row.id ≠ subject → ∃ later ∈ after, SameNames row later
  comes : ∀ later ∈ after, (∃ row ∈ before, SameNames row later) ∨ later.id = subject
  email : ∀ later ∈ after, ∀ email, later.email = some email → (∃ row ∈ before, row.email = some email) ∨ newEmail email
  login : ∀ later ∈ after, ∀ login, later.login = some login → (∃ row ∈ before, row.login = some login) ∨ newLogin login

section writes
variable {newEmail newLogin : String → Prop} {subject : UserId} {rows : List User}

theorem Writes.same (subject : UserId) : Writes newEmail newLogin subject rows rows where
  goes row member _ := ⟨row, member, .refl row⟩
  comes later member := .inl ⟨later, member, .refl later⟩
  email later member _ held := .inl ⟨later, member, held⟩
  login later member _ held := .inl ⟨later, member, held⟩

theorem Writes.insert {row : User} (id : row.id = subject) (email : ∀ email, row.email = some email → newEmail email)
    (login : ∀ login, row.login = some login → newLogin login) : Writes newEmail newLogin subject rows (rows ++ [row]) := by
  have cases' : ∀ later ∈ rows ++ [row], later ∈ rows ∨ later = row := by
    intro later member
    simpa using member
  refine ⟨fun old member _ => ⟨old, List.mem_append_left _ member, .refl old⟩, ?_, ?_, ?_⟩
  · intro later member
    rcases cases' later member with old | rfl
    · exact .inl ⟨later, old, .refl later⟩
    · exact .inr id
  · intro later member name held
    rcases cases' later member with old | rfl
    · exact .inl ⟨later, old, held⟩
    · exact .inr (email name held)
  · intro later member name held
    rcases cases' later member with old | rfl
    · exact .inl ⟨later, old, held⟩
    · exact .inr (login name held)

theorem Writes.update {change : User → User} (keeps : ∀ row, (change row).id = row.id)
    (email : ∀ row email, (change row).email = some email → row.email = some email ∨ newEmail email)
    (login : ∀ row login, (change row).login = some login → row.login = some login ∨ newLogin login) :
    Writes newEmail newLogin subject rows (Foundation.update (fun row => row.id = subject) change rows) := by
  have cases' : ∀ later ∈ Foundation.update (fun row => row.id = subject) change rows,
      ∃ row ∈ rows, later = row ∨ row.id = subject ∧ later = change row := by
    intro later member
    obtain ⟨row, old, same⟩ := mem_update.mp member
    by_cases hit : row.id = subject
    · exact ⟨row, old, .inr ⟨hit, by rw [← same, if_pos hit]⟩⟩
    · exact ⟨row, old, .inl (by rw [← same, if_neg hit])⟩
  refine ⟨fun row member other => ⟨row, mem_update_of_not_selected member other, .refl row⟩, ?_, ?_, ?_⟩
  · intro later member
    obtain ⟨row, old, rfl | ⟨hit, rfl⟩⟩ := cases' later member
    · exact .inl ⟨later, old, .refl later⟩
    · exact .inr ((keeps row).trans hit)
  · intro later member name held
    obtain ⟨row, old, rfl | ⟨-, rfl⟩⟩ := cases' later member
    · exact .inl ⟨later, old, held⟩
    · exact (email row name held).imp_left fun stored => ⟨row, old, stored⟩
  · intro later member name held
    obtain ⟨row, old, rfl | ⟨-, rfl⟩⟩ := cases' later member
    · exact .inl ⟨later, old, held⟩
    · exact (login row name held).imp_left fun stored => ⟨row, old, stored⟩

end writes

theorem validated {isValidEmail : String → Bool} {login nickname password email : String}
    (accepted : validateRegistrationForm isValidEmail login nickname password email = []) :
    isValidLogin login = true ∧ isValidEmail email = true := by
  simp only [validateRegistrationForm, List.filterMap_eq_nil_iff, List.forall_mem_cons] at accepted
  obtain ⟨validLogin, -, -, validEmail, -⟩ := accepted
  constructor
  · by_contra invalid
    simp [invalid] at validLogin
  · by_contra invalid
    simp [invalid] at validEmail

variable {host : Host}

theorem registerCheck_accepted {db : Db} {form : RegisterForm} {redirectTo : String}
    (checked : registerCheck host db form = .ok (.accepted redirectTo)) :
    validateRegistrationForm host.isValidEmail form.cleanLogin form.cleanNickname form.password (form.cleanEmail host) = [] := by
  unfold registerCheck at checked
  cases safe : safeRedirect host form.redirectTo with
  | error raised => rw [safe] at checked; cases checked
  | ok target =>
    rw [safe] at checked
    simp only [Bind.bind, Except.bind] at checked
    split at checked
    next => cases checked
    next =>
      split at checked
      next => cases checked
      next valid => exact not_not.mp valid

/-- The email of an operation, if it passes the operation's checks. -/
def emailInput (host : Host) (state : State) : Operation → Option String
  | .register _ _ _ form =>
    match registerCheck host state.db form with
    | .ok (.accepted _) => some (form.cleanEmail host)
    | _ => none
  | .email page email => do
    let user ← state.pages page
    let value := host.lower (stripped email)
    if !host.isValidEmail value || state.db.users.rows.any
      (fun other => other.email = some value && other.id ≠ user.id) then none
    else some value
  | _ => none

theorem emailInput_valid {state : State} {operation : Operation} {text : String}
    (input : emailInput host state operation = some text) : host.isValidEmail text = true ∧ ∃ raw, text = host.lower raw := by
  cases operation with
  | register uuid salt session form =>
    simp only [emailInput] at input
    split at input
    next checked => cases input; exact ⟨(validated (registerCheck_accepted checked)).2, _, rfl⟩
    next => cases input
  | email page email =>
    simp only [emailInput, Option.bind_eq_bind, Option.bind_eq_some_iff] at input
    obtain ⟨user, -, chosen⟩ := input
    split at chosen
    next => cases chosen
    next passed =>
      cases chosen
      simp only [Bool.or_eq_true, Bool.not_eq_true', not_or, Bool.not_eq_false] at passed
      exact ⟨passed.1, _, rfl⟩
  | _ => cases input

variable {env : Settings} {curve : Secp256k1} {state next : State} {operation : Operation} {page : Nat} {user updated : User}

theorem edit_login (edit : Edit host state.db page user operation updated) : updated.login = user.login := by
  cases edit <;> rfl

theorem edit_email (shown : state.pages page = some user) (edit : Edit host state.db page user operation updated) :
    updated.email = user.email ∨ ∃ value, updated.email = some value ∧ emailInput host state operation = some value := by
  cases edit with
  | nickname | password | wallet => exact .inl rfl
  | email valid unused =>
    refine .inr ⟨_, rfl, ?_⟩
    simp only [emailInput, shown, Option.bind_eq_bind, Option.bind_some, valid, unused]
    rfl

theorem step_writes (taken : step env curve host state operation = some next) :
    ∃ subject, Writes (emailInput host state operation = some ·) (isValidLogin · = true) subject
      state.db.users.rows next.db.users.rows := by
  have change := step_change taken
  generalize next.db.users.rows = rows at change
  cases change with
  | same => exact ⟨0, .same 0⟩
  | @registers uuid salt session form redirectTo checked =>
    refine ⟨uuid, .insert rfl ?_ ?_⟩
    · intro email held
      cases held
      simp only [emailInput, checked]
    · intro login held
      cases held
      exact (validated (registerCheck_accepted checked)).1
  | @inserts uuid query now unknown =>
    refine ⟨uuid, .insert rfl ?_ ?_⟩
    all_goals
      intro name held
      cases held
  | links userId => exact ⟨userId, .update (fun _ => rfl) (fun _ _ held => .inl held) fun _ _ held => .inl held⟩
  | @edits _ page user updated shown edit =>
    refine ⟨user.id, .update (User.flush_id user updated) ?_ ?_⟩
    · intro row stored held
      simp only [User.flush, writeColumn] at held
      split at held
      next => exact .inl held
      next changed =>
        obtain ⟨value, written, new⟩ := (edit_email shown edit).resolve_left changed
        cases written.symm.trans held
        exact .inr new
    · intro row stored held
      simp only [User.flush, writeColumn, edit_login edit, ite_true] at held
      exact .inl held

end Satoidc.Proofs.NameWrites
