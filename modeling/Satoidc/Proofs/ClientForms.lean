import Satoidc.Clients
import Satoidc.Foundation.HttpUrl
import Satoidc.Foundation.Joining

/-! Which client forms are accepted. The form's texts are parsed into lists, and every
rule about them is checked on what is stored, except for the URLs: these are checked on
what `urlsplit` makes of them. -/

namespace Satoidc.Proofs.ClientForms
open Foundation ClientForm

def words (text : String) : List String := (splitWords text.toList).map String.ofList

theorem orElse_some_self (text : String) : orElse (some text) "" = text := by
  unfold orElse
  dsimp only
  split
  next empty => exact empty.symm
  next => rfl

theorem stripped_stripped (text : String) : stripped (stripped text) = stripped text := by
  rw [stripped, stripped, String.toList_ofList, strip_strip]

/-- An entry of a list that the form holds: a line without whitespace at its ends. -/
structure Entry (value : String) : Prop where
  stripped : stripped value = value
  nonempty : value ≠ ""
  plain : ∀ c ∈ value.toList, isLineBreak c = false

theorem entry_of_parsed {text : Option String} {value : String} (member : value ∈ parseMultilineValues text) : Entry value := by
  obtain ⟨mapped, nonempty⟩ := List.mem_filter.mp member
  obtain ⟨line, inside, rfl⟩ := List.mem_map.mp mapped
  refine ⟨?_, by simpa using nonempty, ?_⟩
  · rw [stripped, String.toList_ofList, strip_strip]
  · intro c kept
    rw [String.toList_ofList] at kept
    exact plain_of_splitLines inside c (strip_subset kept)

/-- Entries that are joined with newlines are parsed as they were. -/
theorem parseMultilineValues_join {values : List String} (entries : ∀ value ∈ values, Entry value) :
    parseMultilineValues (some ("\n".intercalate values)) = values := by
  have lines : ∀ line ∈ values.map String.toList, Line line := by
    rintro _ member
    obtain ⟨value, inside, rfl⟩ := List.mem_map.mp member
    exact ⟨fun empty => (entries value inside).nonempty (String.toList_eq_nil_iff.mp empty), (entries value inside).plain⟩
  have split : splitLines ("\n".intercalate values).toList = values.map String.toList := by
    rw [String.toList_intercalate]
    exact splitLines_intercalate lines
  rw [parseMultilineValues, orElse_some_self, split, List.map_map]
  have same : values.map ((fun line => String.ofList (strip line)) ∘ String.toList) = values := by
    refine (List.map_congr_left ?_).trans (List.map_id values)
    intro value member
    exact (entries value member).stripped
  rw [same, List.filter_eq_self]
  intro value member
  exact decide_eq_true (entries value member).nonempty

/-- The words of a parsed scope are the words of the text, each where it first occurs. -/
theorem words_parseScope (text : Option String) : words (parseScope text) = (words (orElse text "")).eraseDups := by
  have all : ∀ word ∈ ((words (orElse text "")).eraseDups).map String.toList, Word word := by
    intro word member
    obtain ⟨value, inside, rfl⟩ := List.mem_map.mp member
    obtain ⟨part, found, rfl⟩ := List.mem_map.mp (List.mem_eraseDups.mp inside)
    rw [String.toList_ofList]
    exact word_of_splitWords found
  have split : splitWords (parseScope text).toList = ((words (orElse text "")).eraseDups).map String.toList := by
    rw [parseScope, String.toList_intercalate]
    exact splitWords_intercalate all
  rw [words, split, List.map_map]
  refine (List.map_congr_left ?_).trans (List.map_id _)
  intro value _
  exact String.ofList_toList

theorem parseScope_empty {text : Option String} : parseScope text = "" ↔ words (orElse text "") = [] := by
  constructor
  · intro empty
    have none := words_parseScope text
    rw [empty] at none
    exact eraseDups_eq_nil.mp none.symm
  · intro none
    rw [parseScope]
    change " ".intercalate (words (orElse text "")).eraseDups = ""
    rw [none]
    rfl

/-- The URLs of a form, as they are stored. -/
def urls (form : ClientForm) : List String :=
  (if stripped (orElse form.clientUri "") = "" then [] else [stripped (orElse form.clientUri "")]) ++
    parseMultilineValues form.redirectUri

/-- Every rule about the form but those about single URLs. -/
structure Complete (form : ClientForm) : Prop where
  name : stripped (orElse form.clientName "") ≠ ""
  redirects : parseMultilineValues form.redirectUri ≠ []
  grants : parseMultilineValues form.grantType ≠ []
  supportedGrants : ∀ grant ∈ parseMultilineValues form.grantType, grant ∈ supportedGrantTypes
  authorizationCode : "authorization_code" ∈ parseMultilineValues form.grantType
  responses : parseMultilineValues form.responseType ≠ []
  code : ∀ response ∈ parseMultilineValues form.responseType, response = "code"
  scopes : words (orElse form.scope "") ≠ []
  supportedScopes : ∀ scope ∈ words (orElse form.scope ""), scope ∈ supportedScopes
  method : form.authMethod ∈ supportedAuthMethods

theorem unsupported_eq_nil {values supported : List String} : unsupported values supported = [] ↔
    ∀ value ∈ values, value ∈ supported := by
  have length : unsupported values supported = [] ↔ (values.filter (· ∉ supported)).eraseDups = [] := by
    rw [unsupported, ← List.length_eq_zero_iff, List.length_insertionSort, List.length_eq_zero_iff]
  rw [length, eraseDups_eq_nil, List.filter_eq_nil_iff]
  simp only [decide_eq_true_eq, not_not]

theorem message_eq_nil {condition : Prop} [Decidable condition] {message : String} :
    (if condition then [message] else []) = [] ↔ ¬ condition := by
  by_cases holds : condition <;> simp [holds]

variable {nfkc : String → String}

theorem urlError_ok {value : String} (message : String) (splits : urlsplit nfkc value ≠ none) :
    ∃ messages, urlError nfkc message value = .ok messages ∧ (messages = [] ↔ IsHttpUrl (cleaned value)) := by
  obtain ⟨parsed, split⟩ := Option.ne_none_iff_exists'.mp splits
  refine ⟨if parsed.scheme ∈ ["http", "https"] && parsed.netloc ≠ "" then [] else [message], ?_, ?_⟩
  · simp only [urlError, isAbsoluteHttpUrl, split]
    rfl
  · rw [← urlsplit_http split]
    simp

theorem urlError_invalid {value : String} (message : String) (raises : urlsplit nfkc value = none) :
    urlError nfkc message value = .error .invalidUrl := by
  simp only [urlError, isAbsoluteHttpUrl, raises]
  rfl

theorem urlErrors_ok {values : List String} (message : String → String) (splits : ∀ value ∈ values, urlsplit nfkc value ≠ none) :
    ∃ messages, values.mapM (fun value => urlError nfkc (message value) value) = .ok messages ∧
      (messages.flatten = [] ↔ ∀ value ∈ values, IsHttpUrl (cleaned value)) := by
  induction values with
  | nil => exact ⟨[], rfl, by simp⟩
  | cons value values ih =>
    obtain ⟨first, checked, firstEmpty⟩ := urlError_ok (message value) (splits value List.mem_cons_self)
    obtain ⟨rest, mapped, restEmpty⟩ := ih fun other member => splits other (List.mem_cons_of_mem _ member)
    refine ⟨first :: rest, ?_, ?_⟩
    · rw [List.mapM_cons, checked, mapped]
      rfl
    · rw [List.flatten_cons, List.append_eq_nil_iff, firstEmpty, restEmpty, List.forall_mem_cons]

theorem urlErrors_invalid {values : List String} (message : String → String)
    (raises : ∃ value ∈ values, urlsplit nfkc value = none) :
    values.mapM (fun value => urlError nfkc (message value) value) = .error .invalidUrl := by
  induction values with
  | nil => obtain ⟨_, member, _⟩ := raises; cases member
  | cons value values ih =>
    rw [List.mapM_cons]
    cases split : urlsplit nfkc value with
    | none => rw [urlError_invalid _ split]; rfl
    | some parsed =>
      obtain ⟨first, checked, -⟩ := urlError_ok (message value) (by rw [split]; exact Option.some_ne_none parsed)
      have later : ∃ other ∈ values, urlsplit nfkc other = none := by
        obtain ⟨other, member, none⟩ := raises
        rcases List.mem_cons.mp member with rfl | inside
        · rw [split] at none; cases none
        · exact ⟨other, inside, none⟩
      rw [checked, ih later]
      rfl

/-- The code's rules about the lists and the scope say what the form needs. -/
theorem complete_iff {form : ClientForm} : Complete form ↔
    ¬ stripped (orElse form.clientName "") = "" ∧ ¬ parseMultilineValues form.redirectUri = [] ∧
      ¬ parseMultilineValues form.grantType = [] ∧
      (∀ grant ∈ parseMultilineValues form.grantType, grant ∈ supportedGrantTypes) ∧
      ¬ parseMultilineValues form.responseType = [] ∧
      (∀ response ∈ parseMultilineValues form.responseType, response ∈ supportedResponseTypes) ∧
      ¬ ("code" ∈ parseMultilineValues form.responseType ∧ "authorization_code" ∉ parseMultilineValues form.grantType) ∧
      ¬ parseScope form.scope = "" ∧ (∀ scope ∈ words (parseScope form.scope), scope ∈ supportedScopes) ∧
      ¬ form.authMethod ∉ supportedAuthMethods := by
  rw [parseScope_empty, words_parseScope, not_not]
  constructor
  · intro complete
    refine ⟨complete.name, complete.redirects, complete.grants, complete.supportedGrants, complete.responses, ?_,
      ?_, complete.scopes, ?_,
      complete.method⟩
    · intro response member
      exact List.mem_singleton.mpr (complete.code response member)
    · rintro ⟨-, missing⟩
      exact missing complete.authorizationCode
    · intro scope member
      exact complete.supportedScopes scope (List.mem_eraseDups.mp member)
  · rintro ⟨name, redirects, grants, supportedGrants, responses, code, required, scopes, supportedScopes, method⟩
    have codes : ∀ response ∈ parseMultilineValues form.responseType, response = "code" :=
      fun response member => List.mem_singleton.mp (code response member)
    refine ⟨name, redirects, grants, supportedGrants, ?_, responses, codes, scopes, ?_, method⟩
    · obtain ⟨response, member⟩ := List.exists_mem_of_ne_nil _ responses
      by_contra missing
      exact required ⟨codes response member ▸ member, missing⟩
    · intro scope member
      exact supportedScopes scope (List.mem_eraseDups.mpr member)

theorem uriErrors_ok {uri message : String} (splits : uri ≠ "" → urlsplit nfkc uri ≠ none) :
    ∃ messages, (if uri ≠ "" then urlError nfkc message uri else .ok []) = .ok messages ∧
      (messages = [] ↔ ∀ url ∈ (if uri = "" then [] else [uri]), IsHttpUrl (cleaned url)) := by
  by_cases empty : uri = ""
  · exact ⟨[], by simp [empty], by simp [empty]⟩
  · obtain ⟨messages, checked, none⟩ := urlError_ok message (splits empty)
    exact ⟨messages, by rw [if_pos empty, checked], by rw [if_neg empty, none]; simp⟩

/-- The messages of all rules in order, given those about the URLs. -/
def messages (form : ClientForm) (uriErrors redirectErrors : List String) : List String :=
  (if stripped (orElse form.clientName "") = "" then ["Client name is required."] else []) ++ uriErrors ++
    (if parseMultilineValues form.redirectUri = [] then ["At least one redirect URI is required."] else []) ++ redirectErrors ++
    (if parseMultilineValues form.grantType = [] then ["At least one grant type is required."] else []) ++
    (if unsupported (parseMultilineValues form.grantType) supportedGrantTypes ≠ [] then
      ["Unsupported grant types: " ++ ", ".intercalate
        (unsupported (parseMultilineValues form.grantType) supportedGrantTypes)] else []) ++
    (if parseMultilineValues form.responseType = [] then ["At least one response type is required."] else []) ++
    (if unsupported (parseMultilineValues form.responseType) supportedResponseTypes ≠ [] then
      ["Unsupported response types: " ++
        ", ".intercalate (unsupported (parseMultilineValues form.responseType) supportedResponseTypes)] else []) ++
    (if "code" ∈ parseMultilineValues form.responseType ∧ "authorization_code" ∉ parseMultilineValues form.grantType then
      ["The code response type requires the authorization_code grant."] else []) ++
    (if parseScope form.scope = "" then ["At least one scope is required."] else []) ++
    (if unsupported (words (parseScope form.scope)) supportedScopes ≠ [] then
      ["Unsupported scopes: " ++ ", ".intercalate (unsupported (words (parseScope form.scope)) supportedScopes)] else []) ++
    if form.authMethod ∉ supportedAuthMethods then ["Unsupported token endpoint auth method: " ++ form.authMethod] else []

theorem messages_eq_nil {form : ClientForm} {uriErrors redirectErrors : List String} :
    messages form uriErrors redirectErrors = [] ↔ Complete form ∧ uriErrors = [] ∧ redirectErrors = [] := by
  rw [complete_iff]
  simp only [messages, List.append_eq_nil_iff, message_eq_nil, ne_eq, not_not, unsupported_eq_nil]
  constructor
  · intro ⟨⟨⟨⟨⟨⟨⟨⟨⟨⟨⟨name, uri⟩, redirects⟩, redirect⟩, grants⟩, grant⟩, responses⟩, response⟩, required⟩, scopes⟩,
    scope⟩, method⟩
    exact ⟨⟨name, redirects, grants, grant, responses, response, required, scopes, scope, method⟩, uri, redirect⟩
  · intro ⟨⟨name, redirects, grants, grant, responses, response, required, scopes, scope, method⟩, uri, redirect⟩
    exact ⟨⟨⟨⟨⟨⟨⟨⟨⟨⟨⟨name, uri⟩, redirects⟩, redirect⟩, grants⟩, grant⟩, responses⟩, response⟩, required⟩, scopes⟩,
      scope⟩, method⟩

/-- The client URI is checked first, then the redirect URIs; a `ValueError` ends the checks. -/
theorem errors_eq (form : ClientForm) :
    form.errors nfkc =
      (if stripped (orElse form.clientUri "") ≠ "" then
        urlError nfkc "Client URI must be an absolute HTTP(S) URL." (stripped (orElse form.clientUri ""))
      else .ok []).bind fun uriErrors =>
      ((parseMultilineValues form.redirectUri).mapM fun redirect =>
        urlError nfkc ("Redirect URI must be an absolute HTTP(S) URL: " ++ redirect) redirect).bind fun redirectErrors =>
      .ok (messages form uriErrors redirectErrors.flatten) := by
  unfold errors
  dsimp only
  split <;> rfl

theorem errors_ok {form : ClientForm} (splits : ∀ url ∈ urls form, urlsplit nfkc url ≠ none) :
    ∃ messages, form.errors nfkc = .ok messages ∧
      (messages = [] ↔ Complete form ∧ ∀ url ∈ urls form, IsHttpUrl (cleaned url)) := by
  obtain ⟨uriErrors, uriChecked, uriEmpty⟩ := @uriErrors_ok nfkc (stripped (orElse form.clientUri ""))
    "Client URI must be an absolute HTTP(S) URL." fun given =>
      splits _ (List.mem_append_left _ (by rw [if_neg given]; exact List.mem_singleton_self _))
  obtain ⟨redirectErrors, redirectsChecked, redirectsEmpty⟩ := urlErrors_ok
    (fun redirect => "Redirect URI must be an absolute HTTP(S) URL: " ++ redirect)
    fun url member => splits url (List.mem_append_right _ member)
  refine ⟨messages form uriErrors redirectErrors.flatten, ?_, ?_⟩
  · rw [errors_eq, uriChecked, redirectsChecked]
    rfl
  · rw [messages_eq_nil, uriEmpty, redirectsEmpty, urls, List.forall_mem_append]

theorem errors_invalid {form : ClientForm} (raises : ∃ url ∈ urls form, urlsplit nfkc url = none) :
    form.errors nfkc = .error .invalidUrl := by
  rw [errors_eq]
  by_cases uri : stripped (orElse form.clientUri "") ≠ "" ∧ urlsplit nfkc (stripped (orElse form.clientUri "")) = none
  · rw [if_pos uri.1, urlError_invalid _ uri.2]
    rfl
  · obtain ⟨uriErrors, uriChecked, -⟩ := @uriErrors_ok nfkc _ "Client URI must be an absolute HTTP(S) URL." (not_and.mp uri)
    have redirects : ∃ value ∈ parseMultilineValues form.redirectUri, urlsplit nfkc value = none := by
      obtain ⟨url, member, none⟩ := raises
      rcases List.mem_append.mp member with single | inside
      · split at single
        next => cases single
        next given =>
          rw [List.mem_singleton] at single
          exact absurd ⟨given, single ▸ none⟩ uri
      · exact ⟨url, inside, none⟩
    rw [uriChecked, urlErrors_invalid (fun redirect => "Redirect URI must be an absolute HTTP(S) URL: " ++ redirect) redirects]
    rfl

/-- What a form is parsed to, accepted or not. -/
def parsed (form : ClientForm) : ClientMetadata where
  clientName := stripped (orElse form.clientName "")
  clientUri := stripped (orElse form.clientUri "")
  grantTypes := parseMultilineValues form.grantType
  redirectUris := parseMultilineValues form.redirectUri
  responseTypes := parseMultilineValues form.responseType
  scope := parseScope form.scope
  tokenEndpointAuthMethod := form.authMethod

/-- The metadata of a form: the stripped texts, the entries of its lists, and the words
of its scope, each where it first occurs. -/
structure Normal (form : ClientForm) (metadata : ClientMetadata) : Prop where
  name : metadata.clientName = stripped (orElse form.clientName "")
  uri : metadata.clientUri = stripped (orElse form.clientUri "")
  redirects : metadata.redirectUris = parseMultilineValues form.redirectUri
  grants : metadata.grantTypes = parseMultilineValues form.grantType
  responses : metadata.responseTypes = parseMultilineValues form.responseType
  method : metadata.tokenEndpointAuthMethod = form.authMethod
  entries : ∀ entry ∈ metadata.redirectUris ++ metadata.grantTypes ++ metadata.responseTypes, stripped entry = entry ∧ entry ≠ ""
  scope : words metadata.scope = (words (orElse form.scope "")).eraseDups
  scopeNodup : (words metadata.scope).Nodup

theorem build_of_errors {form : ClientForm} {messages : List String} (checked : form.errors nfkc = .ok messages) :
    buildClientMetadata nfkc form =
      if messages ≠ [] then .error (.clientMetadataValidationError messages) else .ok (parsed form) := by
  rw [buildClientMetadata, checked]
  rfl

theorem build_of_raised {form : ClientForm} {raised : FormError} (refused : form.errors nfkc = .error raised) :
    buildClientMetadata nfkc form = .error raised := by
  rw [buildClientMetadata, refused]
  rfl

theorem build_parsed {form : ClientForm} {metadata : ClientMetadata} (built : buildClientMetadata nfkc form = .ok metadata) :
    metadata = parsed form := by
  cases checked : form.errors nfkc with
  | error raised => rw [build_of_raised checked] at built; cases built
  | ok messages =>
    rw [build_of_errors checked] at built
    split at built <;> cases built
    rfl

theorem parsed_normal (form : ClientForm) : Normal form (parsed form) := by
  refine ⟨rfl, rfl, rfl, rfl, rfl, rfl, ?_, words_parseScope _, ?_⟩
  · intro entry member
    have entries : Entry entry := by
      rcases List.mem_append.mp member with inside | inside
      · rcases List.mem_append.mp inside with inside | inside
        · exact entry_of_parsed inside
        · exact entry_of_parsed inside
      · exact entry_of_parsed inside
    exact ⟨entries.stripped, entries.nonempty⟩
  · have scope : words (parsed form).scope = _ := words_parseScope form.scope
    rw [scope]
    exact nodup_eraseDups _

/-- The form is one that the rules accept, read literally. -/
def Accepted (form : ClientForm) : Prop := Complete form ∧ ∀ url ∈ urls form, IsHttpUrl url.toList

/-- The form is answered with metadata exactly if it is accepted, and with the messages
of the rules that it breaks otherwise. -/
def Exact (nfkc : String → String) (form : ClientForm) : Prop :=
  match buildClientMetadata nfkc form with
  | .ok metadata => Accepted form ∧ Normal form metadata
  | .error (.clientMetadataValidationError messages) => messages ≠ [] ∧ ¬ Accepted form
  | .error .invalidUrl => False

/-- `urlsplit` splits every URL of the form, and what it leaves out of them does not
make the difference between a form that is accepted and one that is not. -/
structure PlainUrls (nfkc : String → String) (form : ClientForm) : Prop where
  splits : ∀ url ∈ urls form, urlsplit nfkc url ≠ none
  same : Complete form → ((∀ url ∈ urls form, IsHttpUrl (cleaned url)) ↔ ∀ url ∈ urls form, IsHttpUrl url.toList)

/-- For all inputs: the form is answered as the rules say exactly if its URLs are plain
enough for `urlsplit` to read them as they stand. -/
theorem build_exact (nfkc : String → String) (form : ClientForm) : Exact nfkc form ↔ PlainUrls nfkc form := by
  by_cases splits : ∀ url ∈ urls form, urlsplit nfkc url ≠ none
  · obtain ⟨messages, checked, accepts⟩ := errors_ok splits
    by_cases empty : messages = []
    · obtain ⟨complete, read⟩ := accepts.mp empty
      rw [Exact, build_of_errors checked, if_neg (not_not.mpr empty)]
      constructor
      · rintro ⟨accepted, -⟩
        exact ⟨splits, fun _ => ⟨fun _ => accepted.2, fun _ => read⟩⟩
      · intro plain
        exact ⟨⟨complete, (plain.same complete).mp read⟩, parsed_normal form⟩
    · rw [Exact, build_of_errors checked, if_pos empty]
      constructor
      · rintro ⟨-, refused⟩
        refine ⟨splits, fun complete => ⟨?_, ?_⟩⟩
        · intro read
          exact absurd (accepts.mpr ⟨complete, read⟩) empty
        · intro literal
          exact absurd ⟨complete, literal⟩ refused
      · intro plain
        refine ⟨empty, ?_⟩
        rintro ⟨complete, literal⟩
        exact empty (accepts.mpr ⟨complete, (plain.same complete).mpr literal⟩)
  · have raises : ∃ url ∈ urls form, urlsplit nfkc url = none := by
      push Not at splits
      exact splits
    rw [Exact, build_of_raised (errors_invalid raises)]
    constructor
    · exact False.elim
    · intro plain
      exact splits plain.splits

/-- URLs without control characters are plain if `urlsplit` accepts them. -/
theorem plainUrls_of_visible {form : ClientForm} (splits : ∀ url ∈ urls form, urlsplit nfkc url ≠ none)
    (start : ∀ url ∈ urls form, ∀ c, url.toList.head? = some c → isC0ControlOrSpace c = false)
    (inside : ∀ url ∈ urls form, ∀ c ∈ url.toList, isTabOrNewline c = false) : PlainUrls nfkc form := by
  refine ⟨splits, fun _ => forall₂_congr fun url member => ?_⟩
  rw [cleaned_eq (start url member) (inside url member)]

def redirectingTo (redirectUri : String) : ClientForm where
  clientName := some "Client"
  clientUri := none
  scope := some "openid profile openid"
  redirectUri := some redirectUri
  grantType := some "authorization_code"
  responseType := some "code"
  tokenEndpointAuthMethod := none

/-- A redirect URI that `urlsplit` raises an exception on, and one with a tab. -/
theorem inexact_urls :
    buildClientMetadata id (redirectingTo "http://[") = .error .invalidUrl ∧ ¬ Exact id (redirectingTo "http://[") ∧
      (∃ metadata, buildClientMetadata id (redirectingTo "ht\ttps://app.example/cb") = .ok metadata ∧
        metadata.redirectUris = ["ht\ttps://app.example/cb"]) ∧
      ¬ Exact id (redirectingTo "ht\ttps://app.example/cb") := by
  have raises : buildClientMetadata id (redirectingTo "http://[") = .error .invalidUrl :=
    build_of_raised (errors_invalid ⟨"http://[", by decide, by decide⟩)
  have accepts : (redirectingTo "ht\ttps://app.example/cb").errors id = .ok [] := rfl
  have built := build_of_errors accepts
  rw [if_neg (not_not.mpr rfl)] at built
  refine ⟨raises, ?_, ⟨_, built, rfl⟩, ?_⟩
  · rw [Exact, raises]
    exact id
  · rw [Exact, built]
    rintro ⟨⟨-, literal⟩, -⟩
    have url := literal "ht\ttps://app.example/cb" (by decide)
    rw [isHttpUrl_iff] at url
    exact absurd url (by decide)

end Satoidc.Proofs.ClientForms
