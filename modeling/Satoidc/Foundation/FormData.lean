import Satoidc.Foundation.QueryString

/-! The fields of a form as a browser sends them: the serializer of the URL standard
for `application/x-www-form-urlencoded`, which `parse_qsl` undoes. -/

namespace Foundation

def isFormPlain (c : Char) : Bool := isAsciiAlpha c || isAsciiDigit c || c = '*' || c = '-' || c = '.' || c = '_'

def formEncodeChar (c : Char) : List Char :=
  if c = ' ' then ['+'] else if isFormPlain c then [c] else percentEncode c

def formEncode (text : List Char) : List Char := text.flatMap formEncodeChar

def formField (field : List Char × List Char) : List Char := formEncode field.1 ++ '=' :: formEncode field.2

def formData (fields : List (List Char × List Char)) : List Char := ['&'].intercalate (fields.map formField)

theorem isFormPlain_unreserved {c : Char} (plain : isFormPlain c = true) : isUnreserved c = true ∨ c = '*' := by
  simp only [isFormPlain, Bool.or_eq_true, decide_eq_true_eq] at plain
  simp only [isUnreserved, Bool.or_eq_true, decide_eq_true_eq]
  tauto

/-- A mark that has a meaning in a form is encoded wherever it stands. -/
theorem formEncode_absent {mark : Char} (reserved : isUnreserved mark = false) (other : mark ∉ ['+', '%', '*'])
    (text : List Char) : mark ∉ formEncode text := by
  intro member
  obtain ⟨c, -, inside⟩ := List.mem_flatMap.mp member
  simp only [List.mem_cons, List.not_mem_nil, or_false, not_or] at other
  obtain ⟨plus, percent, star⟩ := other
  unfold formEncodeChar at inside
  split at inside
  next => exact plus (List.mem_singleton.mp inside)
  next =>
    split at inside
    next plain =>
      cases List.mem_singleton.mp inside
      rcases isFormPlain_unreserved plain with unreserved | same
      · exact Bool.false_ne_true (reserved.symm.trans unreserved)
      · exact star same
    next =>
      rcases quoted_percentEncode c mark inside with unreserved | same
      · exact Bool.false_ne_true (reserved.symm.trans unreserved)
      · exact percent same

theorem isFormPlain_literal {c : Char} (plain : isFormPlain c = true) : c ≠ '%' ∧ c ≠ '+' := by
  refine ⟨?_, ?_⟩
  · rintro rfl
    cases plain
  · rintro rfl
    cases plain

/-- Decoding undoes the encoding of a name or a value. -/
theorem unquotePlus_formEncode (text : List Char) : unquotePlus (formEncode text) = text := by
  rw [unquotePlus]
  induction text with
  | nil => rfl
  | cons c rest ih =>
    rw [formEncode, List.flatMap_cons, List.map_append, ← formEncode, formEncodeChar]
    split
    next space =>
      subst space
      rw [List.map_singleton, List.singleton_append, show plusToSpace '+' = ' ' from rfl, unquoteFrom_literal _ (by decide), ih]
      rfl
    next =>
      split
      next plain =>
        obtain ⟨percent, plus⟩ := isFormPlain_literal plain
        rw [List.map_singleton, List.singleton_append, show plusToSpace c = c from if_neg plus,
          unquoteFrom_literal _ percent, ih]
        rfl
      next =>
        rw [(quoted_percentEncode c).plus, unquoteFrom_encoded, ih]
        rfl

theorem parseQsl_formField (field : List Char × List Char) : parseQsl (formField field) = [field] := by
  have alone : '&' ∉ formField field := by
    rw [formField, List.mem_append, List.mem_cons]
    rintro (name | same | value)
    · exact formEncode_absent rfl (by decide) _ name
    · exact absurd same (by decide)
    · exact formEncode_absent rfl (by decide) _ value
  have cut : cutAt '=' (formField field) = (formEncode field.1, formEncode field.2) :=
    cutAt_append (formEncode_absent rfl (by decide) _) _
  rw [parseQsl_field alone (by simp [formField]), cut, unquotePlus_formEncode, unquotePlus_formEncode]

/-- What a browser sends is read back field by field, whatever the fields are. -/
theorem parseQsl_formData (fields : List (List Char × List Char)) : parseQsl (formData fields) = fields := by
  induction fields with
  | nil => rfl
  | cons field fields ih =>
    cases fields with
    | nil => rw [formData, List.map_singleton, List.intercalate_singleton, parseQsl_formField]
    | cons next fields =>
      rw [formData, List.map_cons, List.map_cons, List.intercalate_cons_cons, List.append_assoc, List.singleton_append,
        parseQsl_append, parseQsl_formField, ← List.map_cons, ← formData, ih, List.singleton_append]

theorem formEncode_plain {text : List Char} (plain : ∀ c ∈ text, isFormPlain c = true) : formEncode text = text := by
  induction text with
  | nil => rfl
  | cons c rest ih =>
    have itself : formEncodeChar c = [c] := by
      have own := plain c List.mem_cons_self
      unfold formEncodeChar
      rw [if_neg (by rintro rfl; cases own), if_pos own]
    rw [formEncode, List.flatMap_cons, itself, ← formEncode, ih fun d member => plain d (List.mem_cons_of_mem c member),
      List.singleton_append]

theorem formEncode_plainUrl (text : List Char) : IsPlainUrl (formEncode text) := by
  intro mark member
  obtain ⟨c, -, inside⟩ := List.mem_flatMap.mp member
  unfold formEncodeChar at inside
  split at inside
  next => cases List.mem_singleton.mp inside; rfl
  next =>
    split at inside
    next plain =>
      cases List.mem_singleton.mp inside
      rcases isFormPlain_unreserved plain with unreserved | rfl
      · exact (Quoted.plainUrl fun d only => .inl (List.mem_singleton.mp only ▸ unreserved)) mark (List.mem_singleton_self mark)
      · rfl
    next => exact (quoted_percentEncode c).plainUrl mark inside

theorem formData_plainUrl (fields : List (List Char × List Char)) : IsPlainUrl (formData fields) := by
  have single : ∀ field, IsPlainUrl (formField field) := by
    intro field c member
    rw [formField, List.mem_append, List.mem_cons] at member
    rcases member with name | rfl | value
    · exact formEncode_plainUrl _ c name
    · rfl
    · exact formEncode_plainUrl _ c value
  induction fields with
  | nil => exact List.forall_mem_nil _
  | cons field fields ih =>
    cases fields with
    | nil => rw [formData, List.map_singleton, List.intercalate_singleton]; exact single field
    | cons next fields =>
      rw [formData, List.map_cons, List.map_cons, List.intercalate_cons_cons, ← List.map_cons, ← formData]
      intro c member
      rw [List.mem_append, List.mem_append, List.mem_singleton] at member
      rcases member with (first | rfl) | rest
      · exact single field c first
      · rfl
      · exact ih c rest

/-- A form in the query of a URL is sent as it is. -/
theorem requestQuery_formData {url : String} {path : List Char} {fields : List (List Char × List Char)}
    (chars : url.toList = path ++ '?' :: formData fields) (plainPath : IsPlainUrl path) (mark : '?' ∉ path) :
    requestQuery url = String.ofList (formData fields) := by
  have regrouped : url.toList = path ++ '?' :: (formData fields ++ []) := by rw [chars, List.append_nil]
  rw [requestQuery_split regrouped plainPath mark (formData_plainUrl fields)]
  exact congrArg String.ofList (List.append_nil _)

end Foundation
