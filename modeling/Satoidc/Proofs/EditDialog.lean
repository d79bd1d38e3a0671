import Satoidc.Proofs.ClientForms
import Satoidc.Proofs.ClientManagement

/-! Opening a client in the edit dialog and saving it as it is. What the dialog shows is
parsed to what it was made from, so the form that comes back builds the same metadata. -/

namespace Satoidc.Proofs.EditDialog
open Foundation RegisteredClient ClientForms ClientManagement

variable {nfkc : String → String}

/-- The checks and the metadata depend on the parsed form only. -/
theorem build_congr {first second : ClientForm} (same : parsed first = parsed second) :
    buildClientMetadata nfkc first = buildClientMetadata nfkc second := by
  obtain ⟨name, uri, grants, redirects, responses, scope, method⟩ := ClientMetadata.mk.inj same
  have messagesSame : messages first = messages second := by
    funext uriErrors redirectErrors
    simp only [messages, name, grants, redirects, responses, scope, method]
  have errors : first.errors nfkc = second.errors nfkc := by
    simp only [errors_eq, uri, redirects, messagesSame]
  cases checked : second.errors nfkc with
  | error raised => rw [build_of_raised (errors.trans checked), build_of_raised checked]
  | ok messages =>
    rw [build_of_errors (errors.trans checked), build_of_errors checked, same]

theorem parseScope_parseScope (text : Option String) : parseScope (some (parseScope text)) = parseScope text := by
  have once : ∀ text, parseScope text = " ".intercalate (words (orElse text "")).eraseDups := fun _ => rfl
  rw [once, orElse_some_self, words_parseScope, eraseDups_of_nodup (nodup_eraseDups _), ← once]

theorem authMethod_nonempty (form : ClientForm) : form.authMethod ≠ "" := by
  unfold ClientForm.authMethod orElse
  split
  next => decide
  next text =>
    split
    next => decide
    next given => exact given

theorem orElse_given {text default : String} (given : text ≠ "") : orElse (some text) default = text := if_neg given

/-- Metadata that were built from the form, as far as the form goes. -/
def Shows (metadata : Metadata) (form : ClientForm) : Prop :=
  ∀ key, builtValue (parsed form) key ≠ none → metadata.get key = builtValue (parsed form) key

/-- What the dialog shows of such metadata. -/
theorem editClientDialog_eq {metadata : Metadata} {form : ClientForm} (shows : Shows metadata form) :
    editClientDialog metadata =
      { clientName := some (parsed form).clientName
        clientUri := some (parsed form).clientUri
        scope := some (parsed form).scope
        redirectUri := some ("\n".intercalate (parsed form).redirectUris)
        grantType := some ("\n".intercalate (parsed form).grantTypes)
        responseType := some ("\n".intercalate (parsed form).responseTypes)
        tokenEndpointAuthMethod := some (parsed form).tokenEndpointAuthMethod } := by
  have name := shows .clientName nofun
  have uri := shows .clientUri nofun
  have scope := shows .scope nofun
  have redirects := shows .redirectUris nofun
  have grants := shows .grantTypes nofun
  have responses := shows .responseTypes nofun
  have method := shows .tokenEndpointAuthMethod nofun
  have given : (parsed form).tokenEndpointAuthMethod ≠ "" := authMethod_nonempty form
  simp only [editClientDialog, name, uri, scope, redirects, grants, responses, method, builtValue, MetadataValue.textOr,
    MetadataValue.joined, orElse_some_self, orElse_given given]

/-- The dialog's inputs are parsed to what the metadata were built from. -/
theorem parsed_editClientDialog {metadata : Metadata} {form : ClientForm} (shows : Shows metadata form) :
    parsed (editClientDialog metadata) = parsed form := by
  have lists : ∀ text, parseMultilineValues (some ("\n".intercalate (parseMultilineValues text))) = parseMultilineValues text :=
    fun text => parseMultilineValues_join fun _ => entry_of_parsed
  have method : orElse (some (orElse form.tokenEndpointAuthMethod "client_secret_basic")) "client_secret_basic" =
      orElse form.tokenEndpointAuthMethod "client_secret_basic" := orElse_given (authMethod_nonempty form)
  rw [editClientDialog_eq shows]
  simp only [parsed, ClientForm.authMethod, orElse_some_self, stripped_stripped, lists, parseScope_parseScope, method]

theorem build_editClientDialog {metadata : Metadata} {form : ClientForm} (shows : Shows metadata form) :
    buildClientMetadata nfkc (editClientDialog metadata) = buildClientMetadata nfkc form :=
  build_congr (parsed_editClientDialog shows)

theorem dict_shows (form : ClientForm) : Shows (parsed form).dict form := fun key _ => get_dict (parsed form) key

/-- The client has the metadata `built`, with whatever stamps the other actions have
left there since. -/
structure Extends (client : RegisteredClient) (built : ClientMetadata) : Prop where
  built : ∀ key, builtValue built key ≠ none → client.clientMetadata.get key = builtValue built key
  disabledAt : Stamped client .disabledAt
  rotatedAt : Stamped client .clientSecretRotatedAt

/-- An edit that builds the same metadata leaves all but `updated_at` as it is. -/
theorem get_edited_unmodified {client : RegisteredClient} {built : ClientMetadata} {now : Clock} {key : MetadataKey}
    (extended : Extends client built) (other : key ≠ .updatedAt) :
    (edited client built now).clientMetadata.get key = client.clientMetadata.get key := by
  by_cases form : builtValue built key = none
  · cases key with
    | disabledAt => exact get_edited_disabledAt extended.disabledAt
    | clientSecretRotatedAt => exact get_edited_rotatedAt extended.rotatedAt
    | updatedAt => exact absurd rfl other
    | _ => cases form
  · rw [get_edited_form form, extended.built key form]

/-- Every form that is built from is the one that the dialog gives back: saving it builds
the same metadata, and changes nothing of a client with them but `updated_at`. -/
theorem edit_unmodified (nfkc : String → String) (form : ClientForm) (built : ClientMetadata)
    (accepted : buildClientMetadata nfkc form = .ok built) :
    buildClientMetadata nfkc (editClientDialog built.dict) = .ok built ∧
    ∀ (client : RegisteredClient) (now : Clock), Extends client built →
      ∃ next, (updateClientMetadata nfkc (editClientDialog client.clientMetadata) now).run client =
          (.ok next, { client with clientMetadata := next }) ∧
        next.get .updatedAt = some (.int (unixSeconds now)) ∧
        ∀ key, key ≠ .updatedAt → next.get key = client.clientMetadata.get key := by
  cases build_parsed accepted
  constructor
  · rw [build_editClientDialog (dict_shows form), accepted]
  · intro client now extended
    refine ⟨(edited client (parsed form) now).clientMetadata, ?_, ?_, ?_⟩
    · rw [updateClientMetadata_run, build_editClientDialog extended.built, accepted]
      rfl
    · exact Dict.get_set_self
    · intro key other
      exact get_edited_unmodified extended other

def untidyForm : ClientForm where
  clientName := some " Client "
  clientUri := some ""
  scope := some "openid  profile openid"
  redirectUri := some "https://a.example/cb \n\n\thttps://b.example/cb\r\n"
  grantType := some "authorization_code\nrefresh_token"
  responseType := some "code"
  tokenEndpointAuthMethod := none

def disabledClient : RegisteredClient where
  id := 1
  userId := 1
  clientId := "client-1"
  clientIdIssuedAt := 1
  clientSecret := "secret"
  clientMetadata := (parsed untidyForm).dict.set .disabledAt (.int 5)

theorem untidyForm_built : buildClientMetadata id untidyForm = .ok (parsed untidyForm) := by
  have accepts : untidyForm.errors id = .ok [] := rfl
  rw [build_of_errors accepts, if_neg (not_not.mpr rfl)]

theorem disabledClient_extends : Extends disabledClient (parsed untidyForm) := by
  constructor
  · intro key given
    cases key <;> first | exact absurd rfl given | simp [disabledClient, Dict.get_set, get_dict]
  · rintro value shown
    cases Dict.get_set_self.symm.trans shown
    rfl
  · rintro value shown
    rw [disabledClient, Dict.get_set_other (by decide), get_dict] at shown
    cases shown

theorem disabledClient_unmodified :
    (parsed untidyForm).redirectUris = ["https://a.example/cb", "https://b.example/cb"] ∧
    buildClientMetadata id (editClientDialog (parsed untidyForm).dict) = .ok (parsed untidyForm) ∧
    ∃ next, (updateClientMetadata id (editClientDialog disabledClient.clientMetadata) ⟨7000000, by decide⟩).run disabledClient =
        (.ok next, { disabledClient with clientMetadata := next }) ∧
      next.get .updatedAt = some (.int (unixSeconds 7000000)) ∧
      ∀ key, key ≠ .updatedAt → next.get key = disabledClient.clientMetadata.get key := by
  obtain ⟨rebuilt, updated⟩ := edit_unmodified id untidyForm (parsed untidyForm) untidyForm_built
  exact ⟨rfl, rebuilt, updated disabledClient _ disabledClient_extends⟩

/-- Nor does the dialog's `save` touch the secret of a client whose secret is in step
with its authentication method. -/
theorem save_unmodified {form : ClientForm} {built : ClientMetadata} {client : RegisteredClient} {secret : Secret}
    {now rotatedAt : Clock} (accepted : buildClientMetadata nfkc form = .ok built) (extended : Extends client built)
    (inStep : client.clientSecret = "" ↔ client.isPublic) :
    (save nfkc (editClientDialog client.clientMetadata) secret now rotatedAt).run client =
      (.ok (), edited client built now) := by
  cases build_parsed accepted
  have same := (build_editClientDialog extended.built).trans accepted
  have published : client.isPublic ↔ (parsed form).tokenEndpointAuthMethod = "none" := by
    rw [isPublic, extended.built .tokenEndpointAuthMethod (Option.some_ne_none _)]
    simp [builtValue]
  rw [save_ok same]
  by_cases none : (parsed form).tokenEndpointAuthMethod = "none"
  · have cleared := inStep.mpr (published.mpr none)
    rw [if_pos none, ← cleared]
    rfl
  · have kept : client.clientSecret ≠ "" := fun missing => none (published.mp (inStep.mp missing))
    rw [if_neg none, if_neg kept]

end Satoidc.Proofs.EditDialog
