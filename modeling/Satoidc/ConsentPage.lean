import Satoidc.Cookies
import Satoidc.OAuth2Requests
import Satoidc.Foundation.FormData

/-! The page on which a person sees what a client asks for, and the form that it sends
to `POST /oauth/authorize`. The form repeats the query of the page twice: in its action
and in hidden inputs. -/

namespace Satoidc.ConsentPage
open Foundation

/-- The scopes with their descriptions. -/
def availableScopes : List (String × String) :=
  [("openid", "Allows authentication and access to your unique identifier."),
   ("profile", "Allows access to basic user profile information, such as name and nickname."),
   ("email", "Allows access to the user's email address.")]

structure ScopeRow where
  icon : String
  title : String
  description : String
  deriving DecidableEq, Repr

def scopeRow (scopes : List (List Char)) (scope icon title : String) : Option ScopeRow :=
  if scopes.any (· = scope.toList) then some ⟨icon, title, (availableScopes.lookup scope).getD ""⟩ else none

def scopeRows (scopes : List (List Char)) : List ScopeRow :=
  (scopeRow scopes "openid" "verified_user" "Identity").toList ++
    (scopeRow scopes "profile" "person" "View your profile").toList ++
      (scopeRow scopes "email" "mail" "Access your email").toList

/-- `request.query_params` as a mapping, which has the last value of every name. -/
def queryItems (query : List Char) : Dict (List Char) (List Char) := Dict.empty.setAll (parseQsl query)

structure Page where
  scopes : List ScopeRow
  action : List Char
  hidden : List (List Char × List Char)

/-- `GET /authorize` for a request that Authlib accepts, with a query of ASCII, which the
URL and the parameters read alike. -/
def authorizeGet (query : List Char) (csrf : String) : Page where
  scopes := scopeRows (splitWords (((queryItems query).get "scope".toList).getD []))
  action := "/oauth/authorize".toList ++ if query = [] then [] else '?' :: query
  hidden := ("csrf_token".toList, csrf.toList) :: (queryItems query).entries

/-- The values of the two buttons, which are both called `decision`. -/
def decisionValue : Cookies.Consent → String
  | .approve => "approve"
  | .deny => "deny"

/-- A text that stays what it is between single quotes in `props` and in an input. -/
def PlainText (text : List Char) : Prop := ∀ c ∈ text, c ≠ '\'' ∧ c ≠ '\\' ∧ 0x20 ≤ c.toNat

instance (text : List Char) : Decidable (PlainText text) :=
  List.decidableBAll (fun c => c ≠ '\'' ∧ c ≠ '\\' ∧ 0x20 ≤ c.toNat) text

/-- Browsers send no input without a name, and their own value for this one. -/
def IsFieldName (name : List Char) : Prop := name ≠ [] ∧ PlainText name ∧ name.map Char.toLower ≠ "_charset_".toList

instance (name : List Char) : Decidable (IsFieldName name) := instDecidableAnd

/-- What NiceGUI and the browser make of the attributes of the form: the fields that an
input becomes, and the query of the request to an action. -/
structure Browser where
  field : List Char → List Char → List (List Char × List Char)
  query : List Char → List Char
  field_plain : ∀ name value, IsFieldName name → PlainText value → field name value = [(name, value)]
  query_plain : ∀ path text, IsPlainUrl path → '\'' ∉ path → '\\' ∉ path → '?' ∉ path →
    IsPlainUrl text → '\\' ∉ text →
    query (path ++ if text = [] then [] else '?' :: text) = text

/-- The fields of the form in the order of its inputs. Of the buttons only the one that
was pressed counts. -/
def fields (browser : Browser) (page : Page) (decision : Cookies.Consent) : List (List Char × List Char) :=
  page.hidden.flatMap (fun input => browser.field input.1 input.2) ++ [("decision".toList, (decisionValue decision).toList)]

/-- The request for the page itself. -/
def shownRequest (headers : List (String × String)) (origin : String) (query : List Char) : HttpRequest where
  method := "GET"
  address := origin ++ "/authorize"
  headers := headers
  queryString := Utf8.encode query
  body := none

/-- The request that a button sends. The form is read from the stream; `cached` says
whether that leaves the body with the request. -/
def submitted (browser : Browser) (headers : List (String × String)) (origin : String) (page : Page)
    (decision : Cookies.Consent) (cached : Bool) : HttpRequest where
  method := "POST"
  address := origin ++ "/oauth/authorize"
  headers := ("content-type", "application/x-www-form-urlencoded") :: headers
  queryString := Utf8.encode (browser.query page.action)
  body := if cached then some (Utf8.encode (formData (fields browser page decision))) else none

/-- A parameter that FastAPI takes from a form: the last value of its name. -/
def formParameter (name : String) (form : List Char) : Option (List Char) := (valuesOf (parseQsl form) name.toList).getLast?

end Satoidc.ConsentPage
