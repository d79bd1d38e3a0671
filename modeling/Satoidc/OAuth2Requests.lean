import Mathlib.Data.List.Infix
import Satoidc.Models
import Satoidc.Foundation.MultiDict
import Satoidc.Foundation.QueryString

/-! The adapter through which Authlib reads requests. The parameters of the query come
first; those of a cached body replace them key by key. -/

namespace Satoidc
open Foundation

/-- Python's `str` by its code points, which `json.loads` also leaves unpaired surrogates in. -/
abbrev CodePoints := List Nat

def codePoints (text : List Char) : CodePoints := text.map Char.toNat

/-- What `json.loads` returns. -/
inductive PyValue where
  | none
  | bool (value : Bool)
  | int (value : Int)
  | float (literal : String)
  | str (text : CodePoints)
  | list (items : List PyValue)
  | dict (entries : List (CodePoints × PyValue))

def decodeUtf8 (bytes : List UInt8) : Except PyError (List Char) :=
  match Utf8.decode bytes with
  | some text => .ok text
  | none => .error .unicodeDecodeError

/-- A Starlette request. `address` is the URL up to the path, `queryString` the raw query.
The names of headers are in lowercase, and `body` is the attribute `_body`, which a
route sets by reading the body. -/
structure HttpRequest where
  method : String
  address : String
  headers : List (String × String)
  queryString : List UInt8
  body : Option (List UInt8)

namespace HttpRequest

def header (request : HttpRequest) (name : String) : Option String :=
  (request.headers.find? fun header => header.1 = name).map Prod.snd

/-- `str(request.url)`, for which the query has to be UTF-8. -/
def url (request : HttpRequest) : Except PyError String :=
  if request.queryString = [] then .ok request.address
  else do
    let query ← decodeUtf8 request.queryString
    .ok (request.address ++ "?" ++ String.ofList query)

/-- `request.query_params`, for which the query is read as Latin-1. -/
def queryParams (request : HttpRequest) : List (CodePoints × CodePoints) :=
  (parseQsl (Utf8.latin1 request.queryString)).map fun (name, value) => (codePoints name, codePoints value)

end HttpRequest

def decodeCachedBody (request : HttpRequest) : List UInt8 := request.body.getD []

/-- `(request.headers.get("content-type") or "").lower()`; letters outside ASCII make no
difference to what is looked for in it. -/
def contentType (request : HttpRequest) : List Char := ((request.header "content-type").getD "").toList.map Char.toLower

def isFormUrlencoded (request : HttpRequest) : Bool :=
  "application/x-www-form-urlencoded".toList <:+: contentType request

def isJson (request : HttpRequest) : Bool :=
  "application/json".toList <:+: contentType request || "+json".toList <:+ contentType request

/-- `parse_qs(text, keep_blank_values=True)`. -/
def parseQs (text : List Char) : Dict CodePoints (List CodePoints) :=
  grouped ((parseQsl text).map fun (name, value) => (codePoints name, codePoints value))

/-- One value becomes a scalar, several a list. -/
def flattened (values : List CodePoints) : Option PyValue :=
  match values with
  | [] => none
  | [value] => some (.str value)
  | values => some (.list (values.map .str))

def parseCachedForm (request : HttpRequest) : Except PyError (Dict CodePoints PyValue) := do
  let body := decodeCachedBody request
  if body = [] ∨ isFormUrlencoded request = false then .ok .empty
  else
    let text ← decodeUtf8 body
    .ok (setEach (fun entry _ => flattened entry.2) .empty (parseQs text).entries)

/-- `loads` is `json.loads`. -/
def parseCachedJson (loads : List Char → Except PyError PyValue) (request : HttpRequest) : Dict CodePoints PyValue :=
  let body := decodeCachedBody request
  if body = [] ∨ isJson request = false then .empty
  else match decodeUtf8 body >>= loads with
    | .ok (.dict entries) => Dict.empty.setAll entries
    | _ => .empty

structure FastAPIOAuth2Payload where
  data : Dict CodePoints PyValue
  datalist : Dict CodePoints (List PyValue)

namespace FastAPIOAuth2Payload

def empty : FastAPIOAuth2Payload := ⟨.empty, .empty⟩

/-- The loop over `query_params.keys()`. -/
def loadQuery (params : List (CodePoints × CodePoints)) : FastAPIOAuth2Payload :=
  (Dict.empty.setAll params).entries.foldl
    (fun payload (k, _) =>
      match valuesOf params k with
      | [] => payload
      | first :: rest =>
        { data := payload.data.set k (.str first)
          datalist := payload.datalist.set k ((payload.datalist.get k).getD [] ++ (first :: rest).map .str) })
    .empty

/-- The loop over `body_data.items()`. -/
def loadBody (bodyData : Dict CodePoints PyValue) (payload : FastAPIOAuth2Payload) : FastAPIOAuth2Payload :=
  bodyData.entries.foldl
    (fun payload (k, v) =>
      match v with
      | .list items => { data := payload.data.set k (items.head?.getD .none), datalist := payload.datalist.set k items }
      | v => { data := payload.data.set k v, datalist := payload.datalist.set k [v] })
    payload

def isGet (method : String) : Bool := method.toList.map Char.toUpper = "GET".toList

def load (loads : List Char → Except PyError PyValue) (request : HttpRequest) : Except PyError FastAPIOAuth2Payload := do
  let payload := loadQuery request.queryParams
  if isGet request.method then .ok payload
  else
    let form ← parseCachedForm request
    let bodyData := if form.entries = [] then parseCachedJson loads request else form
    .ok (loadBody bodyData payload)

end FastAPIOAuth2Payload

structure FastAPIOAuth2Request where
  method : String
  uri : String
  headers : Dict String String
  args : List (CodePoints × CodePoints)
  payload : FastAPIOAuth2Payload

/-- `dict(request.headers)`, in which Authlib looks for `Authorization`. -/
def oauth2Headers (request : HttpRequest) : Dict String String :=
  let headers := Dict.empty.setAll (request.headers.map fun header => (header.1, (request.header header.1).getD ""))
  match headers.get "authorization", headers.get "Authorization" with
  | some value, none => headers.set "Authorization" value
  | _, _ => headers

/-- Authlib's `OAuth2Request.__init__`, which refuses requests that are not over TLS. -/
abbrev OAuth2RequestInit := String → String → Dict String String → Except PyError Unit

def fastAPIOAuth2Request (init : OAuth2RequestInit) (loads : List Char → Except PyError PyValue) (request : HttpRequest) :
    Except PyError FastAPIOAuth2Request := do
  let headers := oauth2Headers request
  let uri ← request.url
  init request.method uri headers
  let payload ← FastAPIOAuth2Payload.load loads request
  .ok { method := request.method, uri, headers, args := request.queryParams, payload }

def FastAPIOAuth2Request.form (request : FastAPIOAuth2Request) : Dict CodePoints PyValue := request.payload.data

end Satoidc
