import Satoidc.OAuth2Requests

/-! What Authlib reads of a request: for each key the values of the body if it defines
the key, and else those of the query. A form that is not UTF-8 stops the adapter
instead of being ignored. -/

namespace Satoidc.Proofs.RequestPayload
open Foundation FastAPIOAuth2Payload

/-- The names and values of a body that the content type calls a form. -/
def formFields (request : HttpRequest) : List (CodePoints × CodePoints) :=
  if isFormUrlencoded request then
    (Utf8.decode (decodeCachedBody request)).elim [] fun text =>
      (parseQsl text).map fun (name, value) => (codePoints name, codePoints value)
  else []

def listed : PyValue → List PyValue
  | .list items => items
  | value => [value]

/-- The values that a body defines for a key: those of the form, or of the JSON object
when there is nothing in the form. -/
def bodyValues (loads : List Char → Except PyError PyValue) (request : HttpRequest) (key : CodePoints) : Option (List PyValue) :=
  if isGet request.method then none
  else if formFields request = [] then ((parseCachedJson loads request).get key).map listed
  else nonempty ((valuesOf (formFields request) key).map .str)

def queryValues (request : HttpRequest) (key : CodePoints) : Option (List PyValue) :=
  nonempty ((valuesOf request.queryParams key).map .str)

def documentedValues (loads : List Char → Except PyError PyValue) (request : HttpRequest) (key : CodePoints) :
    Option (List PyValue) :=
  (bodyValues loads request key).or (queryValues request key)

def firstValue (values : List PyValue) : PyValue := values.head?.getD .none

/-- The body can be read: it is not taken for a form, or it is UTF-8. -/
def BodyReadable (request : HttpRequest) : Prop :=
  isGet request.method = true ∨ isFormUrlencoded request = false ∨ ∃ text, Utf8.decode (decodeCachedBody request) = some text

/-- The request can be read: its query is UTF-8, and the body can be read. -/
def Readable (request : HttpRequest) : Prop := (∃ query, Utf8.decode request.queryString = some query) ∧ BodyReadable request

section query
variable {params : List (CodePoints × CodePoints)}

/-- The value that the loop over the query sets a key to. -/
def queryChange {μ : Type} (params : List (CodePoints × CodePoints)) (value : List CodePoints → Option μ → μ)
    (entry : CodePoints × CodePoints) (held : Option μ) : Option μ :=
  (nonempty (valuesOf params entry.1)).map fun values => value values held

theorem get_setEach_params {μ : Type} (value : List CodePoints → Option μ → μ) (key : CodePoints) :
    (setEach (queryChange params value) .empty (Dict.empty.setAll params).entries).get key =
      (nonempty (valuesOf params key)).map fun values => value values none := by
  rw [get_setEach (Dict.empty.setAll params).keyed, Dict.get_empty, Option.or_none]
  cases found : lookup Prod.fst (Dict.empty.setAll params).entries key with
  | none =>
    have absent : key ∉ params.map Prod.fst := by
      intro member
      have inside := Dict.mem_keys_setAll.mpr (.inr member : key ∈ (Dict.empty : Dict CodePoints CodePoints).keys ∨ _)
      exact Dict.mem_keys.mp inside (by rw [Dict.get, found]; rfl)
    rw [valuesOf_eq_nil.mpr absent]
    rfl
  | some entry => rw [Option.bind_some, queryChange, (mem_of_lookup found).2]

theorem loadQuery_data (key : CodePoints) :
    (loadQuery params).data.get key = (nonempty (valuesOf params key)).map fun values => (values.head?.map .str).getD .none := by
  rw [← get_setEach_params fun values _ => (values.head?.map .str).getD PyValue.none]
  congr 1
  refine (List.foldl_hom FastAPIOAuth2Payload.data ?_).symm
  intro payload entry
  obtain ⟨k, -⟩ := entry
  dsimp only [queryChange]
  cases valuesOf params k <;> rfl

theorem loadQuery_datalist (key : CodePoints) :
    (loadQuery params).datalist.get key = (nonempty (valuesOf params key)).map (List.map .str) := by
  have changes := @get_setEach_params params _ (fun values held => held.getD [] ++ values.map PyValue.str) key
  simp only [Option.getD_none, List.nil_append] at changes
  rw [← changes]
  congr 1
  refine (List.foldl_hom FastAPIOAuth2Payload.datalist ?_).symm
  intro payload entry
  obtain ⟨k, -⟩ := entry
  dsimp only [queryChange]
  cases valuesOf params k <;> rfl

end query

section body
variable {bodyData : Dict CodePoints PyValue} {payload : FastAPIOAuth2Payload} {request : HttpRequest}

/-- A loop that sets every key of the body to something it makes of its value. -/
theorem get_setEach_body {μ : Type} (value : PyValue → μ) (dict : Dict CodePoints μ) (key : CodePoints) :
    (setEach (fun entry _ => some (value entry.2)) dict bodyData.entries).get key =
      ((bodyData.get key).map value).or (dict.get key) := by
  rw [get_setEach bodyData.keyed]
  unfold Dict.get
  cases lookup Prod.fst bodyData.entries key <;> rfl

theorem loadBody_datalist (key : CodePoints) :
    (loadBody bodyData payload).datalist.get key = ((bodyData.get key).map listed).or (payload.datalist.get key) := by
  rw [← get_setEach_body]
  congr 1
  refine (List.foldl_hom FastAPIOAuth2Payload.datalist ?_).symm
  intro payload entry
  obtain ⟨k, v⟩ := entry
  cases v <;> rfl

theorem loadBody_data (key : CodePoints) :
    (loadBody bodyData payload).data.get key =
      ((bodyData.get key).map fun value => firstValue (listed value)).or (payload.data.get key) := by
  rw [← get_setEach_body fun value => firstValue (listed value)]
  congr 1
  refine (List.foldl_hom FastAPIOAuth2Payload.data ?_).symm
  intro payload entry
  obtain ⟨k, v⟩ := entry
  cases v <;> rfl

theorem flattened_listed {values : List CodePoints} (some : values ≠ []) :
    (flattened values).map listed = .some (values.map .str) := by
  match values with
  | [] => exact absurd rfl some
  | [_] | _ :: _ :: _ => rfl

/-- A form that is read holds the fields of the body. -/
theorem parseCachedForm_get {form : Dict CodePoints PyValue} (parsed : parseCachedForm request = .ok form) (key : CodePoints) :
    form.get key = (nonempty (valuesOf (formFields request) key)).bind flattened := by
  unfold parseCachedForm at parsed
  dsimp only at parsed
  split at parsed
  next skipped =>
    cases parsed
    have bare : formFields request = [] := by
      unfold formFields
      rcases skipped with absent | other
      · rw [absent]
        split <;> rfl
      · rw [other]
        rfl
    rw [bare]
    rfl
  next read =>
    rw [not_or, Bool.not_eq_false] at read
    cases decoded : Utf8.decode (decodeCachedBody request) with
    | none => rw [decodeUtf8, decoded] at parsed; cases parsed
    | some text =>
      rw [decodeUtf8, decoded] at parsed
      cases parsed
      rw [get_setEach (parseQs text).keyed, Dict.get_empty, Option.or_none, formFields, if_pos read.2, decoded, Option.elim_some,
        ← get_grouped, Dict.get]
      cases found : lookup Prod.fst (parseQs text).entries key with
      | none => rw [← parseQs, found]; rfl
      | some entry => rw [← parseQs, found]; rfl

theorem parseCachedForm_entries {form : Dict CodePoints PyValue} (parsed : parseCachedForm request = .ok form) :
    form.entries = [] ↔ formFields request = [] := by
  rw [Dict.entries_eq_nil]
  constructor
  · intro missing
    apply List.eq_nil_iff_forall_not_mem.mpr
    intro entry member
    obtain ⟨key, value⟩ := entry
    have absent := missing key
    rw [parseCachedForm_get parsed] at absent
    have present : valuesOf (formFields request) key ≠ [] := fun nothing =>
      valuesOf_eq_nil.mp nothing (List.mem_map.mpr ⟨_, member, rfl⟩)
    cases values : valuesOf (formFields request) key with
    | nil => exact present values
    | cons first rest => rw [values] at absent; cases rest <;> cases absent
  · intro bare key
    rw [parseCachedForm_get parsed, bare]
    rfl

theorem parseCachedForm_listed {form : Dict CodePoints PyValue} (parsed : parseCachedForm request = .ok form)
    (key : CodePoints) :
    (form.get key).map listed = nonempty ((valuesOf (formFields request) key).map .str) := by
  rw [parseCachedForm_get parsed]
  cases values : valuesOf (formFields request) key with
  | nil => rfl
  | cons first rest => exact flattened_listed (List.cons_ne_nil first rest)

theorem parseCachedForm_ok : (∃ form, parseCachedForm request = .ok form) ↔
    isFormUrlencoded request = false ∨ ∃ text, Utf8.decode (decodeCachedBody request) = some text := by
  unfold parseCachedForm
  dsimp only
  split
  next skipped =>
    refine ⟨fun _ => skipped.symm.imp_right ?_, fun _ => ⟨_, rfl⟩⟩
    intro absent
    exact ⟨[], Utf8.decode_some.mpr absent.symm⟩
  next read =>
    rw [not_or, Bool.not_eq_false] at read
    cases decoded : Utf8.decode (decodeCachedBody request) with
    | none =>
      rw [decodeUtf8, decoded]
      refine ⟨fun ⟨_, parsed⟩ => (by cases parsed), ?_⟩
      rintro (other | ⟨_, impossible⟩)
      · cases read.2.symm.trans other
      · cases impossible
    | some text =>
      rw [decodeUtf8, decoded]
      exact ⟨fun _ => .inr ⟨text, rfl⟩, fun _ => ⟨_, rfl⟩⟩

end body

section request
variable {loads : List Char → Except PyError PyValue} {request : HttpRequest} {payload : FastAPIOAuth2Payload}

theorem queryValues_first (key : CodePoints) :
    (loadQuery request.queryParams).data.get key = (queryValues request key).map firstValue := by
  rw [loadQuery_data, queryValues, nonempty_map]
  cases valuesOf request.queryParams key <;> rfl

theorem queryValues_all (key : CodePoints) :
    (loadQuery request.queryParams).datalist.get key = queryValues request key := by
  rw [loadQuery_datalist, queryValues, nonempty_map]

theorem map_or {α β : Type} (f : α → β) (first second : Option α) :
    (first.or second).map f = (first.map f).or (second.map f) := by
  cases first <;> rfl

/-- A payload that is loaded is the documented merge. -/
theorem load_documented (loaded : load loads request = .ok payload) (key : CodePoints) :
    payload.datalist.get key = documentedValues loads request key ∧
      payload.data.get key = (documentedValues loads request key).map firstValue := by
  unfold load at loaded
  split at loaded
  next get =>
    cases loaded
    rw [queryValues_first, queryValues_all, documentedValues, bodyValues, if_pos get]
    exact ⟨rfl, rfl⟩
  next other =>
    cases parsed : parseCachedForm request with
    | error raised => rw [parsed] at loaded; cases loaded
    | ok form =>
      rw [parsed] at loaded
      cases loaded
      have read : ((if form.entries = [] then parseCachedJson loads request else form).get key).map listed =
          bodyValues loads request key := by
        rw [bodyValues, if_neg other]
        by_cases bare : form.entries = []
        · rw [if_pos bare, if_pos ((parseCachedForm_entries parsed).mp bare)]
        · rw [if_neg bare, if_neg (mt (parseCachedForm_entries parsed).mpr bare)]
          exact parseCachedForm_listed parsed key
      rw [loadBody_datalist, loadBody_data, queryValues_first, queryValues_all, documentedValues, map_or, ← read, Option.map_map]
      exact ⟨rfl, rfl⟩

theorem load_ok : (∃ payload, load loads request = .ok payload) ↔ BodyReadable request := by
  unfold load BodyReadable
  split
  next get => exact ⟨fun _ => .inl get, fun _ => ⟨_, rfl⟩⟩
  next other =>
    rw [← parseCachedForm_ok]
    cases parseCachedForm request with
    | error raised => exact ⟨fun ⟨_, impossible⟩ => (by cases impossible), fun reads => (by simp [other] at reads)⟩
    | ok form => exact ⟨fun _ => .inr ⟨form, rfl⟩, fun _ => ⟨_, rfl⟩⟩

/-- The URL is there exactly when the query is UTF-8. -/
theorem url_ok : (∃ uri, request.url = .ok uri) ↔ ∃ query, Utf8.decode request.queryString = some query := by
  unfold HttpRequest.url
  split
  next empty => exact ⟨fun _ => ⟨[], Utf8.decode_some.mpr empty.symm⟩, fun _ => ⟨_, rfl⟩⟩
  next =>
    unfold decodeUtf8
    cases Utf8.decode request.queryString with
    | none => exact ⟨fun ⟨_, impossible⟩ => (by cases impossible), fun ⟨_, impossible⟩ => (by cases impossible)⟩
    | some query => exact ⟨fun _ => ⟨query, rfl⟩, fun _ => ⟨_, rfl⟩⟩

theorem load_raises {init : OAuth2RequestInit} {uri : String} {raised : PyError} (shown : request.url = .ok uri)
    (accepted : init request.method uri (oauth2Headers request) = .ok ()) (failed : load loads request = .error raised) :
    fastAPIOAuth2Request init loads request = .error raised := by
  simp only [fastAPIOAuth2Request, shown, accepted, failed, Bind.bind, Except.bind]

theorem fastAPIOAuth2Request_ok {init : OAuth2RequestInit} {made : FastAPIOAuth2Request} :
    fastAPIOAuth2Request init loads request = .ok made ↔
      ∃ uri payload, request.url = .ok uri ∧ init request.method uri (oauth2Headers request) = .ok () ∧
        load loads request = .ok payload ∧
          made = ⟨request.method, uri, oauth2Headers request, request.queryParams, payload⟩ := by
  simp only [fastAPIOAuth2Request]
  cases request.url with
  | error raised => exact ⟨fun impossible => (by cases impossible), fun ⟨_, _, impossible, _⟩ => (by cases impossible)⟩
  | ok uri =>
    simp only [Bind.bind, Except.bind]
    cases accepted : init request.method uri (oauth2Headers request) with
    | error raised =>
      constructor
      · intro impossible
        cases impossible
      · rintro ⟨_, _, same, impossible, -⟩
        cases same
        cases accepted.symm.trans impossible
    | ok checked =>
      cases load loads request with
      | error raised => exact ⟨fun impossible => (by cases impossible), fun ⟨_, _, _, _, impossible, _⟩ => (by cases impossible)⟩
      | ok payload =>
        constructor
        · intro same
          cases same
          exact ⟨uri, payload, rfl, accepted, rfl, rfl⟩
        · rintro ⟨_, _, sameUri, -, same, rfl⟩
          cases sameUri
          cases same
          rfl

/-- The adapter reads a request as documented exactly when its query and its body can be read. -/
theorem merged_iff (init : OAuth2RequestInit) (loads : List Char → Except PyError PyValue) (request : HttpRequest)
    (accepted : ∀ uri, request.url = .ok uri → init request.method uri (oauth2Headers request) = .ok ()) :
    (∃ made, fastAPIOAuth2Request init loads request = .ok made ∧
      ∀ key, made.payload.datalist.get key = documentedValues loads request key ∧
        made.payload.data.get key = (documentedValues loads request key).map firstValue) ↔
      Readable request := by
  rw [Readable, ← url_ok, ← @load_ok loads]
  constructor
  · rintro ⟨made, constructed, -⟩
    obtain ⟨uri, payload, shown, -, loaded, -⟩ := fastAPIOAuth2Request_ok.mp constructed
    exact ⟨⟨uri, shown⟩, payload, loaded⟩
  · rintro ⟨⟨uri, shown⟩, payload, loaded⟩
    exact ⟨_, fastAPIOAuth2Request_ok.mpr ⟨uri, payload, shown, accepted uri shown, loaded, rfl⟩, load_documented loaded⟩

end request

/-- Authlib's check of the transport. -/
def overTls : OAuth2RequestInit := fun _ url _ =>
  if "https://".toList <+: url.toList then .ok () else .error (.valueError "OAuth 2 MUST utilize https.")

/-- A decoder that finds no JSON. -/
def noJson : List Char → Except PyError PyValue := fun _ => .error (.valueError "Expecting value: line 1 column 1 (char 0)")

def formRequest (query body : List UInt8) : HttpRequest where
  method := "POST"
  address := "https://testserver/oauth/token"
  headers := [("content-type", "application/x-www-form-urlencoded")]
  queryString := query
  body := some body

theorem formRequest_accepted {query body : List UInt8} {uri : String} (shown : (formRequest query body).url = .ok uri) :
    overTls (formRequest query body).method uri (oauth2Headers (formRequest query body)) = .ok () := by
  have front : ∃ rest, uri = "https://testserver/oauth/token" ++ rest := by
    unfold HttpRequest.url at shown
    split at shown
    next => cases shown; exact ⟨"", (String.append_empty).symm⟩
    next =>
      cases decoded : decodeUtf8 (formRequest query body).queryString with
      | error raised => rw [decoded] at shown; cases shown
      | ok text => rw [decoded] at shown; cases shown; exact ⟨_, String.append_assoc ..⟩
  obtain ⟨rest, rfl⟩ := front
  have secure : "https://".toList <+: ("https://testserver/oauth/token" ++ rest).toList := by
    rw [String.toList_append]
    exact List.IsPrefix.trans (by decide) (List.prefix_append _ _)
  exact if_pos secure

theorem formRequest_made {query body : List UInt8} {uri : String} {payload : FastAPIOAuth2Payload}
    (shown : (formRequest query body).url = .ok uri) (loaded : load noJson (formRequest query body) = .ok payload) :
    fastAPIOAuth2Request overTls noJson (formRequest query body) =
      .ok ⟨(formRequest query body).method, uri, oauth2Headers (formRequest query body), (formRequest query body).queryParams,
        payload⟩ :=
  fastAPIOAuth2Request_ok.mpr ⟨uri, payload, shown, formRequest_accepted shown, loaded, rfl⟩

theorem query_and_form_merged :
    let request := formRequest (Utf8.encode "scope=openid&scope=email&client_id=query-client".toList)
      (Utf8.encode "client_id=form-client&grant_type=authorization_code".toList)
    documentedValues noJson request (codePoints "scope".toList) =
        some [.str (codePoints "openid".toList), .str (codePoints "email".toList)] ∧
      documentedValues noJson request (codePoints "client_id".toList) = some [.str (codePoints "form-client".toList)] ∧
      ∃ made, fastAPIOAuth2Request overTls noJson request = .ok made ∧
        ∀ key, made.payload.datalist.get key = documentedValues noJson request key ∧
          made.payload.data.get key = (documentedValues noJson request key).map firstValue := by
  have query : "scope=openid&scope=email&client_id=query-client".toList = _ := String.toList_ofList
  have form : "client_id=form-client&grant_type=authorization_code".toList = _ := String.toList_ofList
  rw [query, form]
  refine ⟨rfl, rfl, ?_⟩
  refine (merged_iff overTls noJson _ fun uri => formRequest_accepted).mpr ?_
  exact ⟨⟨_, Utf8.decode_some.mpr rfl⟩, .inr (.inr ⟨_, Utf8.decode_some.mpr rfl⟩)⟩

/-- A form of one byte that starts no character, and a query that ends in such a byte. -/
theorem undecodable_form_raises :
    fastAPIOAuth2Request overTls noJson (formRequest (Utf8.encode "client_id=c".toList) [0xff]) = .error .unicodeDecodeError ∧
      fastAPIOAuth2Request overTls noJson (formRequest (Utf8.encode "x=".toList ++ [0xe9]) []) = .error .unicodeDecodeError :=
  ⟨load_raises rfl (formRequest_accepted rfl) rfl, rfl⟩

end Satoidc.Proofs.RequestPayload
