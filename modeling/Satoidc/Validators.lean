import Satoidc.Foundation.Url

/-! The validators of the registration form, as the languages of their regular
expressions. -/

namespace Satoidc
open Foundation

/-- The zero of every decimal digit block of Unicode; `\d` matches ten code points from each. -/
def decimalZeros : List Nat :=
  [0x30, 0x660, 0x6f0, 0x7c0, 0x966, 0x9e6, 0xa66, 0xae6, 0xb66, 0xbe6, 0xc66, 0xce6, 0xd66, 0xde6, 0xe50, 0xed0,
   0xf20, 0x1040, 0x1090, 0x17e0, 0x1810, 0x1946, 0x19d0, 0x1a80, 0x1a90, 0x1b50, 0x1bb0, 0x1c40, 0x1c50, 0xa620,
   0xa8d0, 0xa900, 0xa9d0, 0xa9f0, 0xaa50, 0xabf0, 0xff10, 0x104a0, 0x10d30, 0x11066, 0x110f0, 0x11136, 0x111d0,
   0x112f0, 0x11450, 0x114d0, 0x11650, 0x116c0, 0x11730, 0x118e0, 0x11950, 0x11c50, 0x11d50, 0x11da0, 0x16a60,
   0x16ac0, 0x16b50, 0x1d7ce, 0x1d7d8, 0x1d7e2, 0x1d7ec, 0x1d7f6, 0x1e140, 0x1e2f0, 0x1e950, 0x1fbf0]

/-- `\d`. -/
def isDecimal (c : Char) : Bool := decimalZeros.any fun first => first ≤ c.toNat && c.toNat < first + 10

def isLower (c : Char) : Bool := 'a' ≤ c && c ≤ 'z'

def isUpper (c : Char) : Bool := 'A' ≤ c && c ≤ 'Z'

/-- `[a-z0-9]` under `re.IGNORECASE`, which also folds four letters outside ASCII. -/
def isNicknameEdge (c : Char) : Bool :=
  isAsciiAlpha c || isAsciiDigit c || c.toNat = 0x130 || c.toNat = 0x131 || c.toNat = 0x17f || c.toNat = 0x212a

def isNicknameInner (c : Char) : Bool := isNicknameEdge c || c = '.' || c = '_' || c = '-'

def isValidLogin (v : String) : Bool :=
  6 ≤ v.length && v.length ≤ 30 && v.toList.all fun c => isLower c || isAsciiDigit c

def isValidNickname (v : String) : Bool :=
  match v.toList with
  | [] => true
  | [only] => isNicknameEdge only
  | first :: rest =>
    isNicknameEdge first && 2 ≤ rest.length && rest.length ≤ 79 && rest.dropLast.all isNicknameInner &&
      rest.getLast?.any isNicknameEdge

def isValidPassword (v : String) : Bool :=
  8 ≤ v.length && v.length ≤ 128 && '\n' ∉ v.toList && v.toList.any isLower && v.toList.any isUpper &&
    v.toList.any isDecimal && v.toList.any fun c => !isAsciiAlpha c && !isDecimal c

/-- The fields that `validate_registration_form` finds wrong, each with its
message. `isValidEmail` is pydantic's email validation. -/
def validateRegistrationForm (isValidEmail : String → Bool) (login nickname password email : String) :
    List (String × String) :=
  [("login", isValidLogin login, "Login must be 6-30 lowercase letters and digits."),
   ("nickname", isValidNickname nickname,
    "Nickname must have a maximum of 80 characters, start/end with letter/digit, and can include ._-"),
   ("password", isValidPassword password, "Password must be 8-128 chars, with upper/lowercase, digit, and special char."),
   ("email", isValidEmail email, "Invalid email address.")].filterMap
    fun (field, valid, message) => if valid then none else some (field, message)

end Satoidc
