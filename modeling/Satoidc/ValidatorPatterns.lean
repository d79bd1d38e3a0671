import Satoidc.Foundation.Regex
import Satoidc.Validators

/-! The validators of the registration form as the source writes them, with their
regular expressions. -/

namespace Satoidc.ValidatorPatterns
open Foundation

/-- `[a-z0-9]`. -/
def lowerOrDigit (c : Char) : Bool := isLower c || isAsciiDigit c

/-- `[a-z0-9._-]`. -/
def lowerDigitOrMark (c : Char) : Bool := lowerOrDigit c || c = '.' || c = '_' || c = '-'

/-- `.`, which stands for anything but a line feed. -/
def dot (c : Char) : Bool := c ≠ '\n'

/-- `^[a-z0-9]{6,30}$`. -/
def loginRe : Regex := .seq .start (.seq (.repeated (.one lowerOrDigit) 6 (some 30)) .finish)

/-- `^[a-z0-9](?:[a-z0-9._-]{1,78}[a-z0-9])?$`, ignoring case. -/
def nicknameRe : Regex :=
  .seq .start (.seq
    (.seq (.one (Regex.ignoringCase lowerOrDigit))
      (.optional (.seq (.repeated (.one (Regex.ignoringCase lowerDigitOrMark)) 1 (some 78))
        (.one (Regex.ignoringCase lowerOrDigit)))))
    .finish)

/-- `(?=.*[...])`. -/
def somewhere (accepts : Char → Bool) : Regex := .ahead (.seq (.repeated (.one dot) 0 none) (.one accepts))

/-- `^(?=.*[a-z])(?=.*[A-Z])(?=.*\d)(?=.*[^A-Za-z\d]).{8,128}$`. -/
def passwordRe : Regex :=
  .seq .start (.seq
    (.seq (somewhere isLower) (.seq (somewhere isUpper) (.seq (somewhere isDecimal)
      (.seq (somewhere fun c => !(isAsciiAlpha c || isDecimal c)) (.repeated (.one dot) 8 (some 128))))))
    .finish)

def isValidLogin (v : String) : Bool := loginRe.fullmatch v.toList

def isValidNickname (v : String) : Bool := if v.length > 0 then nicknameRe.fullmatch v.toList else true

def isValidPassword (v : String) : Bool := passwordRe.fullmatch v.toList

end Satoidc.ValidatorPatterns
