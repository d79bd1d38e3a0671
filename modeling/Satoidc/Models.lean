import Satoidc.Foundation.Table

/-! The rows the service persists, its settings and the exceptions its code
raises. Columns that no modelled function reads (creation times of users,
requests and audit events, `is_active`) are left out. -/

namespace Satoidc
open Foundation

/-- The exceptions that the modelled functions raise or handle. -/
inductive PyError where
  | valueError (message : String)
  | integrityError
  | malformedPointError
  | badSignatureError
  | badDigestError
  | invalidToken
  | invalidUrl
  | unknownHash
  | unicodeDecodeError
  | permissionRequestNotFound (message : String)
  | permissionRequestNotAllowed (message : String)
  deriving DecidableEq, Repr

/-- A `datetime` in UTC, in microseconds since the epoch. -/
abbrev Instant := Int

/-- `timedelta(seconds=...)` on the scale of `Instant`. -/
def seconds (count : Int) : Int := count * 1000000

/-- `int(time.time())` for a clock that shows `now`. -/
def unixSeconds (now : Instant) : Int := now / 1000000

structure Settings where
  lnurlK1TtlSeconds : Int := 60
  oauth2JwtIss : String := "http://localhost:8000"
  oauth2JwtAlg : String := "RS256"
  oauth2TokenExpiresIn : Int := 300
  oidcJwksCacheTtlSeconds : Int := 300
  oidcKeyRetentionMarginSeconds : Int := 900
  deriving DecidableEq, Repr

abbrev UserId := Nat

structure User where
  id : UserId
  lnurlPubkey : Option String
  email : Option String
  login : Option String
  passwordHash : Option String
  nickname : String
  deriving DecidableEq, Repr

/-- The primary key of `users` and its three nullable unique columns. -/
structure UserConstraints (rows : List User) : Prop where
  id : Keyed User.id rows
  lnurlPubkey : UniqueColumn User.lnurlPubkey rows
  email : UniqueColumn User.email rows
  login : UniqueColumn User.login rows

instance : DecidablePred UserConstraints := fun rows =>
  decidable_of_iff (Keyed User.id rows ∧ UniqueColumn User.lnurlPubkey rows ∧
      UniqueColumn User.email rows ∧ UniqueColumn User.login rows)
    ⟨fun ⟨id, pubkey, email, login⟩ => ⟨id, pubkey, email, login⟩,
      fun ⟨id, pubkey, email, login⟩ => ⟨id, pubkey, email, login⟩⟩

theorem UserConstraints.nil : UserConstraints [] := by decide

abbrev Users := Table User UserConstraints

structure LnurlAuthChallenge where
  k1 : String
  userId : Option UserId := none
  action : String := "login"
  consumed : Bool := false
  createdAt : Instant
  deriving DecidableEq, Repr

abbrev Challenges := Table LnurlAuthChallenge (Keyed LnurlAuthChallenge.k1)

end Satoidc
