import Satoidc.ConsentPage
import Satoidc.Proofs.CookieReplay
import Satoidc.Proofs.RequestPayload

/-! A person grants what the consent page shows: the form gives Authlib the request of
the page once more, and the endpoint the button that was pressed. -/

namespace Satoidc.Proofs.ConsentForms
open Foundation ConsentPage FastAPIOAuth2Payload RequestPayload

/-- A query that neither the URL, the attributes of the form nor a browser changes. -/
structure PlainQuery (query : List Char) : Prop where
  url : IsPlainUrl query
  backslash : '\\' ∉ query
  fields : ∀ field ∈ parseQsl query, IsFieldName field.1 ∧ PlainText field.2

/-- The value of a scope that Authlib reads is the one that the page has rows for. -/
def Shows (page : Page) (value : Option PyValue) : Prop :=
  ∃ scope : Option (List Char), value = scope.map (fun text => .str (codePoints text)) ∧
    page.scopes = scopeRows (splitWords (scope.getD []))

theorem codePoints_injective : Function.Injective codePoints :=
  List.map_injective_iff.mpr fun _ _ same => Char.toNat_inj.mp same

section form
variable {browser : Browser} {query : List Char} {csrf : String} {decision : Cookies.Consent}

theorem queryItems_get (name : List Char) : (queryItems query).get name = (valuesOf (parseQsl query) name).getLast? := by
  rw [queryItems, get_setAll, Dict.get_empty, Option.or_none]

theorem mem_queryItems {field : List Char × List Char} (member : field ∈ (queryItems query).entries) :
    field ∈ parseQsl query := by
  have held := (lookup_some (queryItems query).keyed).mpr ⟨member, rfl⟩
  have last := @queryItems_get query field.1
  rw [Dict.get, held, Option.map_some] at last
  obtain ⟨pair, inside, same⟩ := List.mem_map.mp (List.mem_of_getLast? last.symm)
  obtain ⟨listed, named⟩ := List.mem_filter.mp inside
  rw [show field = pair from Prod.ext (of_decide_eq_true named).symm same.symm]
  exact listed

theorem csrfToken_fieldName : IsFieldName "csrf_token".toList := ⟨by decide, by decide, by decide⟩

theorem fields_plain (plain : PlainQuery query) (drawn : PlainText csrf.toList) :
    fields browser (authorizeGet query csrf) decision =
      ("csrf_token".toList, csrf.toList) :: (queryItems query).entries ++
        [("decision".toList, (decisionValue decision).toList)] := by
  have kept : ∀ input ∈ (authorizeGet query csrf).hidden, browser.field input.1 input.2 = [input] := by
    intro input member
    rcases List.mem_cons.mp member with rfl | copied
    · exact browser.field_plain _ _ csrfToken_fieldName drawn
    · obtain ⟨name, value⟩ := plain.fields input (mem_queryItems copied)
      exact browser.field_plain _ _ name value
  rw [fields, List.flatMap_congr kept, List.flatMap_singleton']
  rfl

theorem PlainQuery.latin1 (plain : PlainQuery query) : Utf8.latin1 (Utf8.encode query) = query := by
  apply Utf8.latin1_encode
  intro c member
  have kept := plain.url c member
  simp only [isQueryEscaped, Bool.or_eq_false_iff, decide_eq_false_iff_not] at kept
  omega

theorem submitted_query {headers : List (String × String)} {origin : String} {cached : Bool} (plain : PlainQuery query) :
    Utf8.latin1 (submitted browser headers origin (authorizeGet query csrf) decision cached).queryString = query := by
  have path : IsPlainUrl "/oauth/authorize".toList := by decide
  have repeated : browser.query (authorizeGet query csrf).action = query :=
    browser.query_plain _ query path (by simp) (by simp) (by simp) plain.url plain.backslash
  rw [submitted, repeated, plain.latin1]

/-- A hidden input has the last value of its name. -/
theorem valuesOf_fields (plain : PlainQuery query) (drawn : PlainText csrf.toList) {name : List Char}
    (other : name ≠ "csrf_token".toList) (own : name ≠ "decision".toList) :
    valuesOf (fields browser (authorizeGet query csrf) decision) name = (valuesOf (parseQsl query) name).getLast?.toList := by
  have last : valuesOf [("decision".toList, (decisionValue decision).toList)] name = [] := by
    rw [valuesOf_cons]
    exact if_neg own.symm
  rw [fields_plain plain drawn, valuesOf_append, valuesOf_cons, last, List.append_nil, ← queryItems_get, ← valuesOf_entries]
  exact if_neg other.symm

end form

section request
variable {browser : Browser} {loads : List Char → Except PyError PyValue} {headers : List (String × String)} {origin : String}
  {query : List Char} {csrf : String} {decision : Cookies.Consent} {cached : Bool}

theorem submitted_header (page : Page) :
    (submitted browser headers origin page decision cached).header "content-type" =
      some "application/x-www-form-urlencoded" := by
  rw [HttpRequest.header, submitted]
  dsimp only
  rw [List.find?_cons_of_pos (by simp)]
  rfl

theorem urlencoded_lower :
    "application/x-www-form-urlencoded".toList.map Char.toLower = "application/x-www-form-urlencoded".toList := by
  decide +kernel

theorem submitted_contentType (page : Page) :
    contentType (submitted browser headers origin page decision cached) = "application/x-www-form-urlencoded".toList := by
  rw [contentType, submitted_header]
  exact urlencoded_lower

theorem submitted_urlencoded (page : Page) :
    isFormUrlencoded (submitted browser headers origin page decision cached) = true := by
  have whole : ∀ text word : List Char, text = word → word <:+: text := by
    intro text word same
    exact same ▸ List.infix_refl text
  exact decide_eq_true (whole _ _ (submitted_contentType page))

theorem submitted_readable (page : Page) : BodyReadable (submitted browser headers origin page decision cached) := by
  right; right
  cases cached with
  | false => exact ⟨[], Utf8.decode_some.mpr rfl⟩
  | true => exact ⟨_, Utf8.decode_some.mpr rfl⟩

/-- A body that is left with the request is the form. -/
theorem formFields_submitted (browser : Browser) (headers : List (String × String)) (origin : String) (page : Page)
    (decision : Cookies.Consent) (cached : Bool) :
    formFields (submitted browser headers origin page decision cached) =
      if cached then (fields browser page decision).map fun field => (codePoints field.1, codePoints field.2) else [] := by
  rw [formFields, if_pos (submitted_urlencoded page)]
  cases cached with
  | false =>
    have decoded : Utf8.decode (decodeCachedBody (submitted browser headers origin page decision false)) = some [] :=
      Utf8.decode_some.mpr rfl
    rw [decoded]
    rfl
  | true =>
    have decoded : Utf8.decode (decodeCachedBody (submitted browser headers origin page decision true)) =
        some (formData (fields browser page decision)) :=
      Utf8.decode_some.mpr rfl
    rw [decoded, Option.elim_some, parseQsl_formData]
    rfl

theorem queryParams_values {request : HttpRequest} (name : List Char) :
    queryValues request (codePoints name) =
      nonempty ((valuesOf (parseQsl (Utf8.latin1 request.queryString)) name).map fun value => .str (codePoints value)) := by
  rw [queryValues, HttpRequest.queryParams, valuesOf_map codePoints_injective codePoints, List.map_map]
  rfl

theorem shown_values (plain : PlainQuery query) (name : List Char) :
    documentedValues loads (shownRequest headers origin query) (codePoints name) =
      nonempty ((valuesOf (parseQsl query) name).map fun value => .str (codePoints value)) := by
  have get : isGet (shownRequest headers origin query).method = true := (by decide +kernel : isGet "GET" = true)
  rw [documentedValues, bodyValues, if_pos get, Option.none_or, queryParams_values, shownRequest, plain.latin1]

theorem getLast?_toList_of_single {α : Type} {values : List α} (single : values.length ≤ 1) :
    values.getLast?.toList = values := by
  match values with
  | [] | [_] => rfl
  | _ :: _ :: _ => simp at single

/-- A parameter that the query names once is the same in the form and its action. -/
theorem submitted_values (plain : PlainQuery query) (drawn : PlainText csrf.toList) {name : List Char}
    (other : name ≠ "csrf_token".toList) (own : name ≠ "decision".toList)
    (single : (valuesOf (parseQsl query) name).length ≤ 1) :
    documentedValues loads (submitted browser headers origin (authorizeGet query csrf) decision cached) (codePoints name) =
      nonempty ((valuesOf (parseQsl query) name).map fun value => .str (codePoints value)) := by
  have post : isGet (submitted browser headers origin (authorizeGet query csrf) decision cached).method = false :=
    (by decide +kernel : isGet "POST" = false)
  rw [documentedValues, queryParams_values, submitted_query plain, bodyValues, post, if_neg Bool.false_ne_true]
  cases cached with
  | false =>
    have bare := formFields_submitted browser headers origin (authorizeGet query csrf) decision false
    rw [if_neg Bool.false_ne_true] at bare
    rw [if_pos bare]
    rfl
  | true =>
    have fields := formFields_submitted browser headers origin (authorizeGet query csrf) decision true
    rw [if_pos rfl] at fields
    have written : formFields (submitted browser headers origin (authorizeGet query csrf) decision true) ≠ [] := by
      rw [fields, fields_plain plain drawn]
      exact List.cons_ne_nil _ _
    rw [if_neg written, fields, valuesOf_map codePoints_injective codePoints, valuesOf_fields plain drawn other own,
      getLast?_toList_of_single single, List.map_map]
    exact Option.or_self

theorem submitted_shows (plain : PlainQuery query) (drawn : PlainText csrf.toList)
    (single : (valuesOf (parseQsl query) "scope".toList).length ≤ 1) :
    Shows (authorizeGet query csrf)
      ((documentedValues loads (submitted browser headers origin (authorizeGet query csrf) decision cached)
        (codePoints "scope".toList)).map firstValue) := by
  rw [submitted_values plain drawn (by simp) (by simp) single]
  refine ⟨(valuesOf (parseQsl query) "scope".toList).getLast?, ?_, ?_⟩
  · cases values : valuesOf (parseQsl query) "scope".toList with
    | nil => rfl
    | cons scope rest =>
      rw [values] at single
      have alone : rest = [] := List.length_eq_zero_iff.mp (Nat.le_zero.mp (Nat.le_of_succ_le_succ single))
      subst alone
      rfl
  · rw [authorizeGet, queryItems_get]

/-- What a person grants is what the page shows: of every parameter that the query names
once, and Authlib refuses the others, it reads the value of the page again. -/
theorem granted_as_shown (browser : Browser) (loads : List Char → Except PyError PyValue) (headers : List (String × String))
    (origin : String) {query : List Char} (plain : PlainQuery query) {csrf : String} (drawn : PlainText csrf.toList)
    (decision : Cookies.Consent) (cached : Bool) :
    ∃ shown granted, load loads (shownRequest headers origin query) = .ok shown ∧
      load loads (submitted browser headers origin (authorizeGet query csrf) decision cached) = .ok granted ∧
      (∀ name, name ≠ "csrf_token".toList → name ≠ "decision".toList → (valuesOf (parseQsl query) name).length ≤ 1 →
        granted.data.get (codePoints name) = shown.data.get (codePoints name) ∧
          granted.datalist.get (codePoints name) = shown.datalist.get (codePoints name)) ∧
      ((valuesOf (parseQsl query) "scope".toList).length ≤ 1 →
        Shows (authorizeGet query csrf) (granted.data.get (codePoints "scope".toList))) := by
  have get : isGet (shownRequest headers origin query).method = true := (by decide +kernel : isGet "GET" = true)
  obtain ⟨shown, asked⟩ := (@load_ok loads (shownRequest headers origin query)).mpr (.inl get)
  obtain ⟨granted, sent⟩ := (@load_ok loads (submitted browser headers origin (authorizeGet query csrf) decision cached)).mpr
    (submitted_readable _)
  refine ⟨shown, granted, asked, sent, ?_, ?_⟩
  · intro name other own single
    obtain ⟨list, first⟩ := load_documented asked (codePoints name)
    obtain ⟨grantedList, grantedFirst⟩ := load_documented sent (codePoints name)
    rw [list, first, grantedList, grantedFirst, shown_values plain, submitted_values plain drawn other own single]
    exact ⟨rfl, rfl⟩
  · intro single
    rw [(load_documented sent _).2]
    exact submitted_shows plain drawn single

end request

section answer
variable {browser : Browser} {query : List Char} {csrf : String} {decision : Cookies.Consent}

/-- Whatever the query names, the button comes last. -/
theorem decision_pressed (page : Page) :
    formParameter "decision" (formData (fields browser page decision)) = some (decisionValue decision).toList := by
  have last : valuesOf [("decision".toList, (decisionValue decision).toList)] "decision".toList =
      [(decisionValue decision).toList] := by
    rw [valuesOf_cons]
    exact if_pos rfl
  rw [formParameter, parseQsl_formData, fields, valuesOf_append, last, List.getLast?_concat]

theorem csrfToken_sent (plain : PlainQuery query) (drawn : PlainText csrf.toList) :
    formParameter "csrf_token" (formData (fields browser (authorizeGet query csrf) decision)) =
      some ((valuesOf (parseQsl query) "csrf_token".toList).getLast?.getD csrf.toList) := by
  have last : valuesOf [("decision".toList, (decisionValue decision).toList)] "csrf_token".toList = [] := by
    rw [valuesOf_cons]
    exact if_neg (by simp)
  have first : valuesOf (("csrf_token".toList, csrf.toList) :: (queryItems query).entries) "csrf_token".toList =
      csrf.toList :: ((valuesOf (parseQsl query) "csrf_token".toList).getLast?).toList := by
    rw [valuesOf_cons, ← queryItems_get, ← valuesOf_entries]
    exact if_pos rfl
  rw [formParameter, parseQsl_formData, fields_plain plain drawn, valuesOf_append, last, List.append_nil, first]
  cases (valuesOf (parseQsl query) "csrf_token".toList).getLast? <;> rfl

/-- The endpoint goes on exactly with the session's own token. -/
theorem authorize_response {accounts : Db} {session : Cookies.ClientSession} {user : User} {token : String}
    (signedIn : session.userId = some user.id) (known : lookup User.id accounts.users.rows user.id = some user)
    (drew : session.csrfToken = some csrf) (nonempty : csrf ≠ "") (ascii : csrf.toList.all (·.toNat < 128) = true) :
    (Cookies.authorize accounts session ⟨decision, token⟩).2 = .response decision user ↔ token = csrf := by
  unfold Cookies.authorize
  simp only [signedIn, drew]
  constructor
  · intro answered
    split at answered
    next => cases answered
    next =>
      split at answered
      next => cases answered
      next => cases answered
      next equal => exact (CookieReplay.compareDigest_true equal).symm
  · rintro rfl
    have equal : Cookies.compareDigest token token = some true := by
      rw [Cookies.compareDigest, ascii]
      exact congrArg some (decide_eq_true rfl)
    rw [if_neg (by simpa using nonempty), equal]
    dsimp only
    rw [known]

/-- A form that goes back with the session of its page is answered with the button that
was pressed, unless the query has a `csrf_token` of its own. -/
theorem pressed_answered (browser : Browser) {query : List Char} (plain : PlainQuery query) {csrf : String}
    (drawn : PlainText csrf.toList) (decision : Cookies.Consent) {accounts : Db} {session : Cookies.ClientSession} {user : User}
    (signedIn : session.userId = some user.id) (known : lookup User.id accounts.users.rows user.id = some user)
    (drew : session.csrfToken = some csrf) (nonempty : csrf ≠ "") (ascii : csrf.toList.all (·.toNat < 128) = true) :
    let form := formData (fields browser (authorizeGet query csrf) decision)
    formParameter "decision" form = some (decisionValue decision).toList ∧
      ∃ token, formParameter "csrf_token" form = some token ∧
        ((Cookies.authorize accounts session ⟨decision, String.ofList token⟩).2 = .response decision user ↔
          (valuesOf (parseQsl query) "csrf_token".toList).getLast?.all (· = csrf.toList) = true) := by
  refine ⟨decision_pressed _, _, csrfToken_sent plain drawn, ?_⟩
  rw [authorize_response signedIn known drew nonempty ascii]
  cases (valuesOf (parseQsl query) "csrf_token".toList).getLast? with
  | none => simp [String.ofList_toList]
  | some own =>
    rw [Option.getD_some, Option.all_some, decide_eq_true_eq]
    constructor
    · intro same
      rw [← same, String.toList_ofList]
    · intro same
      rw [same, String.ofList_toList]

end answer

/-- A browser that sends every input with a name and repeats every query. -/
def ordinary : Browser where
  field name value := [(name, value)]
  query action := (cutAt '?' action).2
  field_plain _ _ _ _ := rfl
  query_plain := by
    intro path text _ _ _ absent _ _
    split
    next bare => rw [List.append_nil, cutAt_absent absent, bare]
    next => rw [cutAt_append absent]

def appQuery : List Char := "response_type=code&client_id=app&scope=openid+email&state=xyz".toList

theorem appQuery_fields : parseQsl appQuery =
    [("response_type".toList, "code".toList), ("client_id".toList, "app".toList), ("scope".toList, "openid email".toList),
      ("state".toList, "xyz".toList)] := by
  have text : appQuery = _ := String.toList_ofList
  rw [text]
  decide

theorem appQuery_plain : PlainQuery appQuery := by
  have text : appQuery = _ := String.toList_ofList
  refine ⟨by rw [text]; decide, by rw [text]; decide, ?_⟩
  rw [appQuery_fields]
  decide

theorem appQuery_granted :
    (authorizeGet appQuery "t0ken").scopes.map ScopeRow.title = ["Identity", "Access your email"] ∧
      ∃ shown granted, load noJson (shownRequest [] "https://provider" appQuery) = .ok shown ∧
        load noJson (submitted ordinary [] "https://provider" (authorizeGet appQuery "t0ken") .approve true) = .ok granted ∧
        (∀ name, name ≠ "csrf_token".toList → name ≠ "decision".toList → (valuesOf (parseQsl appQuery) name).length ≤ 1 →
          granted.data.get (codePoints name) = shown.data.get (codePoints name) ∧
            granted.datalist.get (codePoints name) = shown.datalist.get (codePoints name)) ∧
        ((valuesOf (parseQsl appQuery) "scope".toList).length ≤ 1 →
          Shows (authorizeGet appQuery "t0ken") (granted.data.get (codePoints "scope".toList))) := by
  have text : appQuery = _ := String.toList_ofList
  refine ⟨by rw [text]; decide, ?_⟩
  exact granted_as_shown ordinary noJson [] "https://provider" appQuery_plain (by decide) .approve true

def visitor : User := ⟨7, none, none, some "alice", none, "Alice"⟩

def visitors : Db := ⟨⟨[visitor], by decide⟩, ⟨[], List.nodup_nil⟩⟩

theorem visitor_answered :
    let form := formData (fields ordinary (authorizeGet appQuery "t0ken") .deny)
    formParameter "decision" form = some "deny".toList ∧ ∃ token, formParameter "csrf_token" form = some token ∧
      ((Cookies.authorize visitors { userId := some 7, csrfToken := some "t0ken" } ⟨.deny, String.ofList token⟩).2 =
          .response .deny visitor ↔
        (valuesOf (parseQsl appQuery) "csrf_token".toList).getLast?.all (· = "t0ken".toList) = true) :=
  pressed_answered ordinary appQuery_plain (by decide) .deny rfl rfl rfl (by decide) (by decide)

end Satoidc.Proofs.ConsentForms
