import Satoidc.Proofs.RequestPayload

/-! The `form` of a request shows its query as well. Two requests with one body have one
form only when their queries agree on every parameter that the body leaves open. -/

namespace Satoidc.Proofs.FormView
open Foundation FastAPIOAuth2Payload RequestPayload

/-- What a request's form gives for a key that its body does not define. -/
def leaked (request : HttpRequest) (key : CodePoints) : Option PyValue := (queryValues request key).map firstValue

def Defines (loads : List Char → Except PyError PyValue) (request : HttpRequest) (key : CodePoints) : Prop :=
  bodyValues loads request key ≠ none

section form
variable {init : OAuth2RequestInit} {loads : List Char → Except PyError PyValue} {request : HttpRequest}
  {made : FastAPIOAuth2Request} {key : CodePoints}

theorem form_get (constructed : fastAPIOAuth2Request init loads request = .ok made) :
    made.form.get key = ((bodyValues loads request key).map firstValue).or (leaked request key) := by
  obtain ⟨-, payload, -, -, loaded, rfl⟩ := fastAPIOAuth2Request_ok.mp constructed
  rw [FastAPIOAuth2Request.form, (load_documented loaded key).2, documentedValues, map_or]
  rfl

theorem form_open (constructed : fastAPIOAuth2Request init loads request = .ok made) (silent : ¬ Defines loads request key) :
    made.form.get key = leaked request key := by
  rw [form_get constructed, not_not.mp silent]
  rfl

theorem leaked_mem : leaked request key ≠ none ↔ key ∈ request.queryParams.map Prod.fst := by
  rw [leaked, Ne, Option.map_eq_none_iff, queryValues, nonempty_map, Option.map_eq_none_iff, not_iff_comm,
    ← valuesOf_eq_nil]
  cases valuesOf request.queryParams key with
  | nil => exact ⟨fun _ => rfl, fun _ => rfl⟩
  | cons first rest => exact ⟨fun impossible => (by cases impossible), fun impossible => (by cases impossible)⟩

end form

/-- The form of a request is one with its body's parameters only, and the same for
another query, exactly when the queries have nothing to add to the body. -/
theorem form_of_body_iff (init : OAuth2RequestInit) (loads : List Char → Except PyError PyValue) (request : HttpRequest)
    (address : String) (query : List UInt8) (made other : FastAPIOAuth2Request)
    (constructed : fastAPIOAuth2Request init loads request = .ok made)
    (replaced : fastAPIOAuth2Request init loads { request with address, queryString := query } = .ok other) :
    ((∀ key, made.form.get key = other.form.get key) ↔
      ∀ key, ¬ Defines loads request key → leaked request key = leaked { request with address, queryString := query } key) ∧
    ((∀ key, made.form.get key ≠ none → Defines loads request key) ↔
      ∀ key ∈ request.queryParams.map Prod.fst, Defines loads request key) := by
  have sameBody : ∀ key, bodyValues loads { request with address, queryString := query } key = bodyValues loads request key :=
    fun _ => rfl
  constructor
  · constructor
    · intro same key silent
      rw [← form_open constructed silent, same key]
      exact form_open replaced silent
    · intro agree key
      rw [form_get constructed, form_get replaced, sameBody key]
      by_cases defines : Defines loads request key
      · cases values : bodyValues loads request key with
        | none => exact absurd values defines
        | some _ => rfl
      · rw [agree key defines]
  · constructor
    · intro only key member
      by_contra silent
      refine silent (only key ?_)
      rw [form_open constructed silent]
      exact leaked_mem.mpr member
    · intro covered key shown
      by_contra silent
      rw [form_open constructed silent] at shown
      exact silent (covered key (leaked_mem.mp shown))

/-- The client id is in the body, so the query cannot replace it. -/
theorem client_id_of_body : ∃ made other,
    fastAPIOAuth2Request overTls noJson
        (formRequest (Utf8.encode "client_id=query-client".toList) (Utf8.encode "client_id=form-client".toList)) = .ok made ∧
      fastAPIOAuth2Request overTls noJson (formRequest [] (Utf8.encode "client_id=form-client".toList)) = .ok other ∧
        ∀ key, made.form.get key = other.form.get key := by
  have made := @formRequest_made (Utf8.encode "client_id=query-client".toList) (Utf8.encode "client_id=form-client".toList)
    _ _ rfl rfl
  have other := @formRequest_made [] (Utf8.encode "client_id=form-client".toList) _ _ rfl rfl
  refine ⟨_, _, made, other, ?_⟩
  refine (form_of_body_iff overTls noJson
    (formRequest (Utf8.encode "client_id=query-client".toList) (Utf8.encode "client_id=form-client".toList))
    "https://testserver/oauth/token" [] _ _ made other).1.mpr ?_
  intro key silent
  have missing : key ∉ [codePoints "client_id".toList] := by
    intro member
    cases List.mem_singleton.mp member
    exact silent (Option.some_ne_none [PyValue.str (codePoints "form-client".toList)])
  have hidden : leaked (formRequest (Utf8.encode "client_id=query-client".toList)
      (Utf8.encode "client_id=form-client".toList)) key = none :=
    not_not.mp (mt leaked_mem.mp missing)
  exact hidden

/-- A client secret in the URL is shown to client authentication. -/
theorem secret_of_query : ∃ made other,
    fastAPIOAuth2Request overTls noJson
        (formRequest (Utf8.encode "client_secret=s3cret".toList) (Utf8.encode "client_id=c".toList)) = .ok made ∧
      fastAPIOAuth2Request overTls noJson (formRequest [] (Utf8.encode "client_id=c".toList)) = .ok other ∧
      made.form.get (codePoints "client_secret".toList) = some (.str (codePoints "s3cret".toList)) ∧
      other.form.get (codePoints "client_secret".toList) = none :=
  ⟨_, _, formRequest_made rfl rfl, formRequest_made rfl rfl, rfl, rfl⟩

end Satoidc.Proofs.FormView
