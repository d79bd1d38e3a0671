import Mathlib.Data.List.Infix
import Satoidc.AuthorizationServer
import Satoidc.Foundation.Joining

/-! The claims that a scope releases. The code looks for a name anywhere in the scope's
text, so a scope token that merely contains the name releases its claims as well. -/

namespace Satoidc.Proofs.ScopeClaims
open Foundation

/-- The tokens of a space-separated scope. -/
def tokens (scope : String) : List (List Char) := (scope.toList.splitOn ' ').filter (· ≠ [])

def Requests (word : String) (scope : String) : Prop := word.toList ∈ tokens scope

/-- Some token of the scope contains the word. -/
def Mentions (word : String) (scope : String) : Prop := ∃ token ∈ tokens scope, word.toList <:+: token

instance (word scope : String) : Decidable (Requests word scope) := inferInstanceAs (Decidable (_ ∈ _))

/-- What the scope tokens `email` and `profile` stand for. -/
def claimsOf (user : User) (scope : String) : UserInfo where
  sub := user.id
  email := if Requests "email" scope then some user.email else none
  name := if Requests "profile" scope then some user.nickname else none
  lnurlPubkey := if Requests "profile" scope then some user.lnurlPubkey else none

/-- A token contains `email` or `profile` only in a scope that requests it. -/
def Plain (scope : String) : Prop :=
  (Mentions "email" scope → Requests "email" scope) ∧ (Mentions "profile" scope → Requests "profile" scope)

theorem inScope_iff {word scope : String} : inScope word scope = true ↔ word.toList <:+: scope.toList := by
  simp only [inScope, List.any_eq_true, List.mem_tails, List.isPrefixOf_iff_prefix]
  rw [List.infix_iff_prefix_suffix]
  exact ⟨fun ⟨rest, suffix', prefix'⟩ => ⟨rest, prefix', suffix'⟩,
    fun ⟨rest, prefix', suffix'⟩ => ⟨rest, suffix', prefix'⟩⟩

/-- A scope text contains a word exactly when one of its tokens does. -/
theorem inScope_mentions {word scope : String} (alone : ' ' ∉ word.toList) (some : word.toList ≠ []) :
    inScope word scope = true ↔ Mentions word scope := by
  rw [inScope_iff, infix_splitOn alone]
  constructor
  · rintro ⟨part, member, inside⟩
    refine ⟨part, List.mem_filter.mpr ⟨member, decide_eq_true ?_⟩, inside⟩
    rintro rfl
    exact some (List.infix_nil.mp inside)
  · rintro ⟨token, member, inside⟩
    exact ⟨token, (List.mem_filter.mp member).1, inside⟩

theorem inScope_email {scope : String} : inScope "email" scope = true ↔ Mentions "email" scope :=
  inScope_mentions (by decide) (by decide)

theorem inScope_profile {scope : String} : inScope "profile" scope = true ↔ Mentions "profile" scope :=
  inScope_mentions (by decide) (by decide)

theorem Requests.mentions {word scope : String} (requested : Requests word scope) : Mentions word scope :=
  ⟨word.toList, requested, List.infix_rfl⟩

/-- A claim that is released under one condition and due under another. -/
theorem release_iff {α : Type} {released due : Prop} [Decidable released] [Decidable due] {value : α} :
    (if released then some value else none) = (if due then some value else none) ↔ (released ↔ due) := by
  by_cases first : released
  · by_cases second : due
    · simp [first, second]
    · simp [first, second]
  · by_cases second : due
    · simp [first, second]
    · simp [first, second]

section claims
variable {user : User} {scope other : String}

theorem claims_iff : generateUserInfo user scope = claimsOf user scope ↔ Plain scope := by
  have email : (Mentions "email" scope ↔ Requests "email" scope) ↔ (Mentions "email" scope → Requests "email" scope) :=
    ⟨Iff.mp, fun plain => ⟨plain, Requests.mentions⟩⟩
  have profile : (Mentions "profile" scope ↔ Requests "profile" scope) ↔ (Mentions "profile" scope → Requests "profile" scope) :=
    ⟨Iff.mp, fun plain => ⟨plain, Requests.mentions⟩⟩
  rw [Plain, ← email, ← profile, ← inScope_email, ← inScope_profile, generateUserInfo, claimsOf]
  simp only [UserInfo.mk.injEq, release_iff, true_and, and_self]

theorem claims_same : generateUserInfo user scope = generateUserInfo user other ↔
    (Mentions "email" scope ↔ Mentions "email" other) ∧ (Mentions "profile" scope ↔ Mentions "profile" other) := by
  rw [← inScope_email, ← inScope_email, ← inScope_profile, ← inScope_profile, generateUserInfo, generateUserInfo]
  simp only [UserInfo.mk.injEq, release_iff, true_and, and_self]

/-- A token that is added mentions a word for the whole scope. -/
theorem mentions_added {word : String} {token : List Char} {left right : List (List Char)}
    (before : tokens scope = left ++ right)
    (after : tokens other = left ++ token :: right) :
    (Mentions word scope ↔ Mentions word other) ↔ (word.toList <:+: token → Mentions word scope) := by
  have added : Mentions word other ↔ word.toList <:+: token ∨ Mentions word scope := by
    rw [Mentions, Mentions, before, after]
    simp only [List.mem_append, List.mem_cons, or_and_right, exists_or, exists_eq_left]
    exact or_left_comm
  rw [added]
  exact ⟨fun same inside => same.mpr (.inl inside), fun kept => ⟨.inr, fun either => either.elim kept id⟩⟩

end claims

/-- UserInfo and the ID token release the claims of the scope's tokens exactly when no
token hides `email` or `profile` in a longer name, and another token leaves the claims
alone exactly when it does not. -/
theorem claims_exact_iff (user : User) (scope : String) :
    (generateUserInfo user scope = claimsOf user scope ↔ Plain scope) ∧
    (OpenIDCode.generateUserInfo user scope = claimsOf user scope ↔ Plain scope) ∧
    (∀ token now db row info, userinfo token now db = some (row, info) → row.scope = scope →
      authenticateUser row.userId db = some user →
      (info = claimsOf user scope ↔ Plain scope)) ∧
    ∀ other left token right, tokens scope = left ++ right → tokens other = left ++ token :: right →
      token ≠ "email".toList → token ≠ "profile".toList →
      (generateUserInfo user scope = generateUserInfo user other ↔
        ("email".toList <:+: token → Mentions "email" scope) ∧ ("profile".toList <:+: token → Mentions "profile" scope)) := by
  refine ⟨claims_iff, claims_iff, ?_, ?_⟩
  · intro token now db row info released same owner
    unfold userinfo at released
    split at released
    next => cases released
    next found =>
      split at released
      next => cases released
      next =>
        obtain ⟨holder, known, paired⟩ := Option.map_eq_some_iff.mp released
        cases paired
        cases known.symm.trans owner
        rw [same]
        exact claims_iff
  · intro other left token right before after _ _
    rw [claims_same, mentions_added before after, mentions_added before after]

def emailHolder : User :=
  { id := 1, lnurlPubkey := none, email := some "hal@example.com", login := some "halfinney",
    passwordHash := some "1$Correct-horse-1",
    nickname := "Hal" }

/-- A token that is not `email`, in a scope and added to one. -/
theorem email_verified_releases_email :
    (generateUserInfo emailHolder "openid profile email_verified").email = some (some "hal@example.com") ∧
      (claimsOf emailHolder "openid profile email_verified").email = none ∧
      generateUserInfo emailHolder "openid profile" ≠ generateUserInfo emailHolder "openid profile email_verified" := by
  decide

end Satoidc.Proofs.ScopeClaims
