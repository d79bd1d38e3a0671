import Satoidc.AuthorizationServer
import Satoidc.Proofs.Identifiers

/-! Emails as addresses. Validating an email yields the address that it denotes, which
the code throws away: it stores and compares the text that was validated. -/

namespace Satoidc.Proofs.BareEmails
open Foundation Accounts NameWrites

/-- What the code relies on: `denotes` is the value that pydantic's validation yields,
and lowercasing leaves lowercase text alone. -/
structure Validation (host : Host) (denotes : String → Option String) : Prop where
  valid : ∀ text, host.isValidEmail text = (denotes text).isSome
  lowerLower : ∀ text, host.lower (host.lower text) = host.lower text

/-- The text is an address: up to lowercasing, the one it denotes. -/
def Bare (host : Host) (denotes : String → Option String) (email : String) : Prop :=
  ∃ address, denotes email = some address ∧ host.lower address = host.lower email

def SameAddress (host : Host) (denotes : String → Option String) (first second : String) : Prop :=
  ∃ address other, denotes first = some address ∧ denotes second = some other ∧ host.lower address = host.lower other

/-- The email that an operation stores, if it stores one, is written as an address. -/
def BareInput (host : Host) (denotes : String → Option String) (state : State) (operation : Operation) : Prop :=
  ∀ text, emailInput host state operation = some text → Bare host denotes text

/-- What is stored is a lowercase address. -/
structure Addressed (host : Host) (denotes : String → Option String) (email : String) : Prop where
  lower : host.lower email = email
  bare : Bare host denotes email

variable {host : Host} {denotes : String → Option String}

theorem Addressed.eq_of_same {first second : String} (left : Addressed host denotes first)
    (right : Addressed host denotes second)
    (same : SameAddress host denotes first second) : first = second := by
  obtain ⟨address, other, denoted, denotedOther, equal⟩ := same
  obtain ⟨a, isA, lowerA⟩ := left.bare
  obtain ⟨b, isB, lowerB⟩ := right.bare
  cases denoted.symm.trans isA
  cases denotedOther.symm.trans isB
  calc first = host.lower first := left.lower.symm
    _ = host.lower address := lowerA.symm
    _ = host.lower other := equal
    _ = host.lower second := lowerB
    _ = second := right.lower

def AllAddressed (host : Host) (denotes : String → Option String) (state : State) : Prop :=
  ∀ user ∈ state.db.users.rows, ∀ email, user.email = some email → Addressed host denotes email

theorem step_addressed {env : Settings} {curve : Secp256k1} {state next : State} {operation : Operation}
    (validation : Validation host denotes) (addressed : AllAddressed host denotes state)
    (input : BareInput host denotes state operation) (taken : step env curve host state operation = some next) :
    AllAddressed host denotes next := by
  obtain ⟨subject, writes⟩ := step_writes taken
  intro later member email held
  rcases writes.email later member email held with ⟨row, old, stored⟩ | new
  · exact addressed row old email stored
  · obtain ⟨-, raw, rfl⟩ := emailInput_valid new
    exact ⟨validation.lowerLower raw, input _ new⟩

theorem released_email {user : User} {scope email : String}
    (released : (generateUserInfo user scope).email = some (some email)) :
    user.email = some email := by
  simp only [generateUserInfo] at released
  split at released
  next => exact Option.some.inj released
  next => cases released

/-- If every email that an operation stores is written as an address, then all stored
emails are addresses, no two of them denote the same one, and so the email that is
released for a user is an address of that user alone. -/
theorem emails_are_addresses (env : Settings) (curve : Secp256k1) (host : Host) (denotes : String → Option String)
    (validation : Validation host denotes) (operations : List Operation) (state : State)
    (guarded : Along (step env curve host) (BareInput host denotes) initial operations)
    (executed : run (step env curve host) initial operations = some state) :
    let users := state.db.users.rows
    (∀ user ∈ users, ∀ email, user.email = some email → Bare host denotes email) ∧
      (∀ first ∈ users, ∀ second ∈ users, ∀ email other, first.email = some email → second.email = some other →
        SameAddress host denotes email other → first = second) ∧
      ∀ user ∈ users, ∀ scope email, (generateUserInfo user scope).email = some (some email) →
        Bare host denotes email ∧ ∀ second ∈ users, ∀ elsewhere other,
          (generateUserInfo second elsewhere).email = some (some other) → SameAddress host denotes email other →
            user = second := by
  have addressed : AllAddressed host denotes state := by
    refine run_invariant_along (AllAddressed host denotes) ?_ guarded ?_ executed
    · intro state operation next addressed input taken
      exact step_addressed validation addressed input taken
    · intro user member
      cases member
  have distinct : ∀ first ∈ state.db.users.rows, ∀ second ∈ state.db.users.rows, ∀ email other, first.email = some email →
      second.email = some other → SameAddress host denotes email other → first = second := by
    intro first left second right email other held shown same
    have equal := (addressed first left email held).eq_of_same (addressed second right other shown) same
    rw [← equal] at shown
    exact state.db.users.valid.email.unique left right held shown
  refine ⟨fun user member email held => (addressed user member email held).bare, distinct, ?_⟩
  intro user member scope email released
  have held := released_email released
  refine ⟨(addressed user member email held).bare, ?_⟩
  intro second right elsewhere other shown same
  exact distinct user member second right email other held (released_email shown) same

/-- The address in angle brackets if there are any, else the text; for text with an `@`. -/
def addressOf (text : String) : Option String :=
  if '@' ∈ text.toList then
    match text.toList.dropWhile (· ≠ '<') with
    | [] => some text
    | _ :: inner => some (String.ofList (inner.takeWhile (· ≠ '>')))
  else none

theorem addressOf_validation : Validation .ascii addressOf where
  valid text := by
    unfold addressOf Host.ascii
    by_cases at' : '@' ∈ text.toList
    · rw [if_pos at']
      split <;> simp [at']
    · simp [at']
  lowerLower := Identifiers.ascii_text.lowerLower

def registration (uuid : UserId) (login email : String) : Operation :=
  .register uuid 1 {} ⟨login, email, none, "Correct-horse-1", "Correct-horse-1", none, true⟩

theorem register_bare {state : State} {uuid : UserId} {salt : Nat} {session : Session} {form : RegisterForm}
    (bare : Bare host denotes (form.cleanEmail host)) : BareInput host denotes state (.register uuid salt session form) := by
  intro text input
  simp only [emailInput] at input
  split at input
  next => rw [← Option.some.inj input]; exact bare
  next => cases input

def twoRegistrations : List Operation :=
  [registration 1 "halfinney" " Hal@Example.com", registration 2 "satoshi" "satoshi@example.com"]

theorem twoRegistrations_bare (state : State) {operation : Operation} (member : operation ∈ twoRegistrations) :
    BareInput .ascii addressOf state operation := by
  have hal : Bare .ascii addressOf (Host.ascii.lower (stripped " Hal@Example.com")) :=
    ⟨"hal@example.com", by decide +kernel, by decide +kernel⟩
  have satoshi : Bare .ascii addressOf (Host.ascii.lower (stripped "satoshi@example.com")) :=
    ⟨"satoshi@example.com", by decide +kernel, by decide +kernel⟩
  simp only [twoRegistrations, List.mem_cons, List.not_mem_nil, or_false] at member
  rcases member with rfl | rfl
  · exact register_bare hal
  · exact register_bare satoshi

theorem two_addresses : ∃ state, run (step {} (.answering (.ok true)) .ascii) initial twoRegistrations = some state ∧
    state.db.users.rows.map User.email = [some "hal@example.com", some "satoshi@example.com"] ∧
      ∀ user ∈ state.db.users.rows, ∀ email, user.email = some email → Bare .ascii addressOf email := by
  have shown : (run (step {} (.answering (.ok true)) .ascii) initial twoRegistrations).map
      (fun state => state.db.users.rows.map User.email) = some [some "hal@example.com", some "satoshi@example.com"] := by
    decide +kernel
  obtain ⟨state, executed, emails⟩ := Option.map_eq_some_iff.mp shown
  have guarded : Along (step {} (.answering (.ok true)) .ascii) (BareInput .ascii addressOf) initial twoRegistrations := by
    apply along_iff.mpr
    intro first operation second reached split _
    apply twoRegistrations_bare
    rw [split]
    exact List.mem_append_right _ List.mem_cons_self
  refine ⟨state, executed, emails, ?_⟩
  exact (emails_are_addresses {} (.answering (.ok true)) .ascii addressOf addressOf_validation twoRegistrations state guarded
    executed).1

/-- One address, registered as it stands and once more with a name in front. -/
theorem one_address_twice :
    ∃ state, run (step {} (.answering (.ok true)) .ascii) initial
        [registration 1 "halfinney" "Hal Finney <hal@example.com>", registration 2 "satoshi" "hal@example.com"] = some state ∧
      state.db.users.rows.map (fun user => (user.id, user.email)) =
        [(1, some "hal finney <hal@example.com>"), (2, some "hal@example.com")] ∧
      ¬ Bare .ascii addressOf "hal finney <hal@example.com>" ∧
      SameAddress .ascii addressOf "hal finney <hal@example.com>" "hal@example.com" := by
  have shown : (run (step {} (.answering (.ok true)) .ascii) initial
      [registration 1 "halfinney" "Hal Finney <hal@example.com>", registration 2 "satoshi" "hal@example.com"]).map
        (fun state => state.db.users.rows.map fun user => (user.id, user.email)) =
          some [(1, some "hal finney <hal@example.com>"), (2, some "hal@example.com")] := by
    decide +kernel
  obtain ⟨state, executed, emails⟩ := Option.map_eq_some_iff.mp shown
  refine ⟨state, executed, emails, ?_, "hal@example.com", "hal@example.com", by decide +kernel, by decide +kernel, rfl⟩
  rintro ⟨address, denoted, same⟩
  have isAddress : addressOf "hal finney <hal@example.com>" = some "hal@example.com" := by decide +kernel
  cases isAddress.symm.trans denoted
  revert same
  decide +kernel

end Satoidc.Proofs.BareEmails
