import Satoidc.Lnurl
import Satoidc.Foundation.FormData

/-! The URL that a page shows as a QR code, the request that a wallet makes for it, and
how the callback reads the query of that request. -/

namespace Satoidc
open Foundation

/-- What `qrcode` encodes. Before a page has drawn its first challenge its k1 is `None`. -/
def callbackUrl (baseUrl : String) (k1 : Option String) (action : LnurlAction) : String :=
  baseUrl ++ "auth/lnurl/callback?tag=login&k1=" ++ k1.getD "None" ++ "&action=" ++ action.value

def isHex (text : String) : Bool := text.toList.all fun c => (hexDigit c).isSome

theorem isHex_ofList {text : List Char} (digits : (text.all fun c => (hexDigit c).isSome) = true) :
    isHex (String.ofList text) = true := by
  rw [isHex, String.toList_ofList, digits]

/-- A wallet signs the k1 and adds the signature and its linking key to the query, both
as hexadecimal digits. -/
structure WalletAnswer where
  sig : String
  key : String
  sigHex : isHex sig = true
  keyHex : isHex key = true
  sigLength : 16 ≤ sig.length ∧ sig.length ≤ 512
  keyLength : key.length = 66

def WalletAnswer.url (answer : WalletAnswer) (url : String) : String := url ++ "&sig=" ++ answer.sig ++ "&key=" ++ answer.key

def LnurlAction.read (text : String) : Option LnurlAction :=
  [LnurlAction.register, .login, .link, .auth].find? fun action => action.value = text

/-- The dependency that validates the query. All four parameters are required, as the
model declares no defaults; what it refuses is answered with status 422. -/
def LnurlAuthCallbackIn.read (query : String) : Option LnurlAuthCallbackIn := do
  let k1 ← queryParameter "k1" query
  let sig ← queryParameter "sig" query
  let key ← queryParameter "key" query
  let action ← (queryParameter "action" query).bind LnurlAction.read
  if valid : k1.length = 64 ∧ (16 ≤ sig.length ∧ sig.length ≤ 512) ∧ key.length = 66 then
    some { k1, sig, key, action := some action, k1Length := valid.1, sigLength := valid.2.1, keyLength := valid.2.2 }
  else none

end Satoidc
