import Satoidc.Pages
import Satoidc.OAuth2
import Satoidc.Login
import Satoidc.Foundation.Dict
import Mathlib.Data.List.Sort
import Mathlib.Data.String.Basic

/-! Registered OAuth clients: the create and edit forms, secret rotation and the
enable/disable toggle. What a client may do is one JSON column, which every
operation rewrites as a whole. -/

namespace Satoidc
open Foundation

inductive MetadataKey where
  | clientName | clientUri | grantTypes | redirectUris | responseTypes | scope | tokenEndpointAuthMethod
  | disabledAt | updatedAt | clientSecretRotatedAt
  deriving DecidableEq, Repr

inductive MetadataValue where
  | str (text : String)
  | list (items : List String)
  | int (value : Int)
  deriving DecidableEq, Repr

/-- `bool(metadata.get(key))`. -/
def MetadataValue.truthy : Option MetadataValue → Bool
  | none => false
  | some (.str text) => text ≠ ""
  | some (.list items) => items ≠ []
  | some (.int value) => value ≠ 0

abbrev Metadata := Dict MetadataKey MetadataValue

/-- The dictionary that `build_client_metadata` returns. -/
def ClientMetadata.dict (metadata : ClientMetadata) : Metadata :=
  Dict.empty.setAll
    [(.clientName, .str metadata.clientName),
      (.clientUri, .str metadata.clientUri),
      (.grantTypes, .list metadata.grantTypes),
      (.redirectUris, .list metadata.redirectUris),
      (.responseTypes, .list metadata.responseTypes),
      (.scope, .str metadata.scope),
      (.tokenEndpointAuthMethod, .str metadata.tokenEndpointAuthMethod)]

/-- `oauth2_client`, with the metadata as the JSON column stores them. -/
structure RegisteredClient where
  id : Nat
  userId : UserId
  clientId : String
  clientIdIssuedAt : Int
  clientSecret : String
  clientMetadata : Metadata
  deriving DecidableEq

def OAuth2Client.registered (client : OAuth2Client) : RegisteredClient :=
  { id := client.id
    userId := client.userId
    clientId := client.clientId
    clientIdIssuedAt := client.clientIdIssuedAt
    clientSecret := client.clientSecret
    clientMetadata := client.clientMetadata.dict }

/-- What the form's inputs hold. -/
structure ClientForm where
  clientName : Option String
  clientUri : Option String
  scope : Option String
  redirectUri : Option String
  grantType : Option String
  responseType : Option String
  tokenEndpointAuthMethod : Option String
  deriving DecidableEq, Repr

/-- How the form functions fail: with a `ClientMetadataValidationError`, or with
the `ValueError` of a URL that `urlparse` does not accept. -/
inductive FormError where
  | clientMetadataValidationError (messages : List String)
  | invalidUrl
  deriving DecidableEq, Repr

def supportedGrantTypes : List String := ["authorization_code", "refresh_token"]
def supportedResponseTypes : List String := ["code"]
def supportedScopes : List String := ["openid", "profile", "email"]
def supportedAuthMethods : List String := ["none", "client_secret_basic", "client_secret_post"]

def parseMultilineValues (value : Option String) : List String :=
  ((splitLines (orElse value "").toList).map fun line => String.ofList (strip line)).filter (· ≠ "")

def isAbsoluteHttpUrl (nfkc : String → String) (value : String) : Except FormError Bool :=
  match urlsplit nfkc value with
  | none => .error .invalidUrl
  | some parsed => .ok (parsed.scheme ∈ ["http", "https"] && parsed.netloc ≠ "")

def parseScope (value : Option String) : String :=
  String.intercalate " " ((splitWords (orElse value "").toList).map String.ofList).eraseDups

/-- `sorted(set(values) - supported)`. -/
def unsupported (values supported : List String) : List String :=
  ((values.filter (· ∉ supported)).eraseDups).insertionSort (· ≤ ·)

namespace ClientForm

def authMethod (form : ClientForm) : String := orElse form.tokenEndpointAuthMethod "client_secret_basic"

/-- The message about a URL, if it is not an absolute one. -/
def urlError (nfkc : String → String) (message value : String) : Except FormError (List String) := do
  .ok (if ← isAbsoluteHttpUrl nfkc value then [] else [message])

def errors (nfkc : String → String) (form : ClientForm) : Except FormError (List String) := do
  let name := stripped (orElse form.clientName "")
  let uri := stripped (orElse form.clientUri "")
  let scopes := parseScope form.scope
  let redirectUris := parseMultilineValues form.redirectUri
  let grantTypes := parseMultilineValues form.grantType
  let responseTypes := parseMultilineValues form.responseType
  let uriErrors ← if uri ≠ "" then urlError nfkc "Client URI must be an absolute HTTP(S) URL." uri else .ok []
  let redirectErrors ← redirectUris.mapM fun redirect =>
    urlError nfkc ("Redirect URI must be an absolute HTTP(S) URL: " ++ redirect) redirect
  let unsupportedGrants := unsupported grantTypes supportedGrantTypes
  let unsupportedResponses := unsupported responseTypes supportedResponseTypes
  let unsupportedScopes := unsupported ((splitWords scopes.toList).map String.ofList) supportedScopes
  .ok ((if name = "" then ["Client name is required."] else []) ++ uriErrors ++
    (if redirectUris = [] then ["At least one redirect URI is required."] else []) ++ redirectErrors.flatten ++
    (if grantTypes = [] then ["At least one grant type is required."] else []) ++
    (if unsupportedGrants ≠ [] then ["Unsupported grant types: " ++ ", ".intercalate unsupportedGrants] else []) ++
    (if responseTypes = [] then ["At least one response type is required."] else []) ++
    (if unsupportedResponses ≠ [] then ["Unsupported response types: " ++ ", ".intercalate unsupportedResponses] else []) ++
    (if "code" ∈ responseTypes ∧ "authorization_code" ∉ grantTypes then
      ["The code response type requires the authorization_code grant."] else []) ++
    (if scopes = "" then ["At least one scope is required."] else []) ++
    (if unsupportedScopes ≠ [] then ["Unsupported scopes: " ++ ", ".intercalate unsupportedScopes] else []) ++
    if form.authMethod ∉ supportedAuthMethods then ["Unsupported token endpoint auth method: " ++ form.authMethod] else [])

end ClientForm

def buildClientMetadata (nfkc : String → String) (form : ClientForm) : Except FormError ClientMetadata := do
  let errors ← form.errors nfkc
  if errors ≠ [] then .error (.clientMetadataValidationError errors)
  else
    .ok
      { clientName := stripped (orElse form.clientName "")
        clientUri := stripped (orElse form.clientUri "")
        grantTypes := parseMultilineValues form.grantType
        redirectUris := parseMultilineValues form.redirectUri
        responseTypes := parseMultilineValues form.responseType
        scope := parseScope form.scope
        tokenEndpointAuthMethod := form.authMethod }

/-- `metadata.get(key) or default`, where the value is a string. -/
def MetadataValue.textOr (default : String) : Option MetadataValue → String
  | some (.str text) => orElse (some text) default
  | _ => default

/-- `"\n".join(metadata.get(key) or [])`, where the value is a list. -/
def MetadataValue.joined : Option MetadataValue → String
  | some (.list items) => "\n".intercalate items
  | _ => ""

/-- What `edit_client_dialog` fills its inputs with. -/
def editClientDialog (metadata : Metadata) : ClientForm where
  clientName := some (MetadataValue.textOr "" (metadata.get .clientName))
  clientUri := some (MetadataValue.textOr "" (metadata.get .clientUri))
  scope := some (MetadataValue.textOr "" (metadata.get .scope))
  redirectUri := some (MetadataValue.joined (metadata.get .redirectUris))
  grantType := some (MetadataValue.joined (metadata.get .grantTypes))
  responseType := some (MetadataValue.joined (metadata.get .responseTypes))
  tokenEndpointAuthMethod := some (MetadataValue.textOr "client_secret_basic" (metadata.get .tokenEndpointAuthMethod))

/-- What `token_urlsafe` returns. -/
abbrev Secret := { secret : String // secret ≠ "" }

/-- `create_client_page.submit`, up to the client it stores. -/
def createClient (nfkc : String → String) (form : ClientForm) (id : Nat) (userId : UserId) (clientId : String)
    (secret : Secret) (now : Instant) : Except FormError RegisteredClient := do
  let clientMetadata ← buildClientMetadata nfkc form
  .ok
    { id
      userId
      clientId
      clientIdIssuedAt := unixSeconds now
      clientSecret := if form.tokenEndpointAuthMethod ≠ some "none" then secret.val else ""
      clientMetadata := clientMetadata.dict }

/-- Code that works on a client object of a session. What it has assigned before an
exception stays assigned. -/
abbrev ClientM := ExceptT FormError (StateM RegisteredClient)

section ClientM
variable {α β : Type} (client : RegisteredClient)

@[simp] theorem run_pure (value : α) : (pure value : ClientM α).run client = (.ok value, client) := rfl

@[simp] theorem run_get : (get : ClientM RegisteredClient).run client = (.ok client, client) := rfl

@[simp] theorem run_modify (change : RegisteredClient → RegisteredClient) :
    (modify change : ClientM Unit).run client = (.ok (), change client) := rfl

@[simp] theorem run_throw (raised : FormError) : (throw raised : ClientM α).run client = (.error raised, client) := rfl

theorem run_bind (first : ClientM α) (next : α → ClientM β) :
    (first >>= next).run client =
      match first.run client with
      | (.ok value, client) => (next value).run client
      | (.error raised, client) => (.error raised, client) := by
  change (match first.run client with | (result, after) => ExceptT.bindCont next result after) = _
  rcases first.run client with ⟨raised | value, after⟩ <;> rfl

theorem run_discard (first : ClientM α) :
    (discard first).run client =
      match first.run client with
      | (.ok _, client) => (.ok (), client)
      | (.error raised, client) => (.error raised, client) := by
  change ((fun _ => ()) <$> first).run client = _
  rw [← LawfulMonad.bind_pure_comp, run_bind]
  rcases first.run client with ⟨raised | value, after⟩ <;> rfl

end ClientM

namespace RegisteredClient

def isClientDisabled (client : RegisteredClient) : Bool :=
  MetadataValue.truthy (client.clientMetadata.get .disabledAt)

def isPublic (client : RegisteredClient) : Prop :=
  client.clientMetadata.get .tokenEndpointAuthMethod = some (.str "none")

instance (client : RegisteredClient) : Decidable client.isPublic :=
  inferInstanceAs (Decidable (client.clientMetadata.get .tokenEndpointAuthMethod = some (.str "none")))

def setClientMetadata (metadata : Metadata) : ClientM Unit :=
  modify fun client => { client with clientMetadata := metadata }

def setClientDisabled (disabled : Bool) (now : Clock) : ClientM Metadata := do
  let timestamp := MetadataValue.int (unixSeconds now)
  let metadata := (← get).clientMetadata
  let metadata := (if disabled then metadata.set .disabledAt timestamp else metadata.pop .disabledAt).set .updatedAt timestamp
  setClientMetadata metadata
  return metadata

def rotateClientSecret (secret : Secret) (now : Clock) : ClientM String := do
  let timestamp := MetadataValue.int (unixSeconds now)
  let metadata := (← get).clientMetadata
  if metadata.get .tokenEndpointAuthMethod = some (.str "none") then
    throw (.clientMetadataValidationError ["Public clients do not have a secret to rotate."])
  else
    modify fun client => { client with clientSecret := secret.val }
    setClientMetadata ((metadata.set .clientSecretRotatedAt timestamp).set .updatedAt timestamp)
    return secret.val

/-- `if current_metadata.get(key): next_metadata[key] = current_metadata[key]`. -/
def keepKey (current next : Metadata) (key : MetadataKey) : Metadata :=
  match current.get key with
  | none => next
  | some value => if MetadataValue.truthy (some value) then next.set key value else next

def updateClientMetadata (nfkc : String → String) (form : ClientForm) (now : Clock) : ClientM Metadata := do
  let currentMetadata := (← get).clientMetadata
  let built ← ExceptT.mk (pure (buildClientMetadata nfkc form))
  let kept := keepKey currentMetadata (keepKey currentMetadata built.dict .disabledAt) .clientSecretRotatedAt
  let nextMetadata := kept.set .updatedAt (.int (unixSeconds now))
  setClientMetadata nextMetadata
  return nextMetadata

/-- The `save` of the edit dialog, up to its commit. The clock is read again when
a secret is issued. -/
def save (nfkc : String → String) (form : ClientForm) (secret : Secret) (now rotatedAt : Clock) : ClientM Unit := do
  let nextMetadata ← updateClientMetadata nfkc form now
  if nextMetadata.get .tokenEndpointAuthMethod = some (.str "none") then
    modify fun client => { client with clientSecret := "" }
  else if (← get).clientSecret = "" then
    discard (rotateClientSecret secret rotatedAt)

/-- `toggle_client`, up to its commit. -/
def toggleClient (now : Clock) : ClientM Unit := do
  discard (setClientDisabled (!(← get).isClientDisabled) now)

/-- The columns an ORM flush writes to a stored client. -/
def flush (loaded updated stored : RegisteredClient) : RegisteredClient :=
  { stored with
    clientSecret := writeColumn loaded.clientSecret updated.clientSecret stored.clientSecret
    clientMetadata := writeColumn loaded.clientMetadata updated.clientMetadata stored.clientMetadata }

end RegisteredClient

/-- An action of the developer dashboard on a client, with the secret it draws if
it issues one and its readings of the clock. -/
inductive ClientAction where
  | edit (form : ClientForm) (secret : Secret) (now rotatedAt : Clock)
  | rotate (secret : Secret) (now : Clock)
  | toggle (now : Clock)

def ClientAction.perform (nfkc : String → String) : ClientAction → ClientM Unit
  | .edit form secret now rotatedAt => RegisteredClient.save nfkc form secret now rotatedAt
  | .rotate secret now => discard (RegisteredClient.rotateClientSecret secret now)
  | .toggle now => RegisteredClient.toggleClient now

namespace ClientPages

/-- The client as a dashboard page holds it: the columns as its session last read or
wrote them, and the object with the assignments since. -/
structure Page where
  loaded : RegisteredClient
  client : RegisteredClient

inductive Input where
  | load
  | act (action : ClientAction)

/-- An action that raises ends before the commit. -/
def act (nfkc : String → String) (action : ClientAction) (stored : RegisteredClient) (page : Page) : RegisteredClient × Page :=
  match (action.perform nfkc).run page.client with
  | (.error _, client) => (stored, { page with client })
  | (.ok _, client) => (page.loaded.flush client stored, ⟨client, client⟩)

def advance (nfkc : String → String) (_ : Nat) : Input → RegisteredClient → Option Page → Option (RegisteredClient × Option Page)
  | .load, stored, _ => some (stored, some ⟨stored, stored⟩)
  | .act action, stored, some page => some ((act nfkc action stored page).1, some (act nfkc action stored page).2)
  | .act _, _, none => none

def initial (client : RegisteredClient) : World RegisteredClient (Option Page) := ⟨client, fun _ => none⟩

/-- An action of a page that has just been loaded. -/
def manage (nfkc : String → String) (stored : RegisteredClient) (action : ClientAction) : Option RegisteredClient :=
  some (act nfkc action stored ⟨stored, stored⟩).1

end ClientPages

end Satoidc
