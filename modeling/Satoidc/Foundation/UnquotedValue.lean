import Satoidc.Foundation.QueryString

/-! A value that is put into a query without being quoted. Decoding never makes a text
longer, so the value comes back as it was only if nothing of it was dropped, cut off or
decoded. -/

namespace Foundation

/-- An escape of two digits starts here. -/
def startsEscape : List Char → Bool
  | '%' :: high :: low :: _ => (escapedByte high low).isSome
  | _ => false

def hasEscape : List Char → Bool
  | [] => false
  | c :: rest => startsEscape (c :: rest) || hasEscape rest

/-- What `unquote` gets of a text that a browser sent. -/
def sent (text : List Char) : List Char := (text.flatMap encodeQueryChar).map plusToSpace

theorem sent_cons (c : Char) (rest : List Char) : sent (c :: rest) = (encodeQueryChar c).map plusToSpace ++ sent rest := by
  rw [sent, List.flatMap_cons, List.map_append]
  rfl

theorem percentEncode_plus (c : Char) : (percentEncode c).map plusToSpace = percentEncode c := (quoted_percentEncode c).plus

theorem percentEncode_percent (c : Char) : ∃ rest, percentEncode c = '%' :: rest := by
  have nonempty : String.utf8EncodeChar c ≠ [] := by
    apply List.ne_nil_of_length_pos
    rw [String.length_utf8EncodeChar]
    exact Char.utf8Size_pos c
  obtain ⟨byte, bytes, chars⟩ := List.exists_cons_of_ne_nil nonempty
  rw [percentEncode, chars, List.flatMap_cons, percentEncodeByte]
  exact ⟨_, rfl⟩

theorem sent_escaped {c : Char} (escaped : isQueryEscaped c = true) (rest : List Char) :
    sent (c :: rest) = percentEncode c ++ sent rest := by
  rw [sent_cons, encodeQueryChar, if_pos escaped, percentEncode_plus]

theorem sent_plain {c : Char} (plain : isQueryEscaped c = false) (rest : List Char) :
    sent (c :: rest) = plusToSpace c :: sent rest := by
  rw [sent_cons, encodeQueryChar, plain]
  rfl

theorem plusToSpace_of_ne {c : Char} (other : c ≠ '+') : plusToSpace c = c := if_neg other

/-- Only a digit is sent as a digit. -/
theorem sent_digit {text rest : List Char} {digit : Char} {value : Nat} (read : hexValue digit = some value)
    (starts : sent text = digit :: rest) : ∃ after, text = digit :: after ∧ sent after = rest := by
  cases text with
  | nil => cases starts
  | cons c after =>
    cases escaped : isQueryEscaped c with
    | true =>
      obtain ⟨more, percent⟩ := percentEncode_percent c
      rw [sent_escaped escaped, percent] at starts
      cases starts
      cases read
    | false =>
      rw [sent_plain escaped] at starts
      by_cases plus : c = '+'
      · subst plus
        cases starts
        cases read
      · rw [plusToSpace_of_ne plus] at starts
        cases starts
        exact ⟨after, rfl, rfl⟩

theorem escapedByte_digits {high low : Char} {byte : Nat} (decoded : escapedByte high low = some byte) :
    (∃ value, hexValue high = some value) ∧ ∃ value, hexValue low = some value := by
  simp only [escapedByte, Option.bind_eq_bind, Option.bind_eq_some_iff] at decoded
  obtain ⟨above, first, below, second, -⟩ := decoded
  exact ⟨⟨above, first⟩, ⟨below, second⟩⟩

theorem unquoteFrom_sent (state : Utf8.State) {c : Char} {rest : List Char} (plain : startsEscape (c :: rest) = false) :
    unquoteFrom state (sent (c :: rest)) = state.flush ++ plusToSpace c :: unquoteFrom .between (sent rest) := by
  cases escaped : isQueryEscaped c with
  | true =>
    have other : c ≠ '+' := by
      rintro rfl
      cases escaped
    rw [sent_escaped escaped, unquoteFrom_encoded, plusToSpace_of_ne other]
  | false =>
    rw [sent_plain escaped]
    by_cases percent : c = '%'
    · subst percent
      apply unquoteFrom_percent
      intro high low after same
      cases decoded : escapedByte high low with
      | none => rfl
      | some byte =>
        obtain ⟨⟨_, first⟩, ⟨_, second⟩⟩ := escapedByte_digits decoded
        obtain ⟨more, rfl, tail⟩ := sent_digit first same
        obtain ⟨most, rfl, -⟩ := sent_digit second tail
        rw [startsEscape, decoded] at plain
        cases plain
    · apply unquoteFrom_literal
      unfold plusToSpace
      split
      next => decide
      next => exact percent

theorem hexValue_unreserved {digit : Char} {value : Nat} (read : hexValue digit = some value) : isUnreserved digit = true := by
  unfold hexValue at read
  split_ifs at read with decimal lower upper
  · simp [isUnreserved, decimal]
  · have letter : isAsciiAlpha digit = true := by
      simp only [isAsciiAlpha, Bool.or_eq_true, Bool.and_eq_true, decide_eq_true_eq]
      exact .inl ⟨lower.1, Char.le_trans lower.2 (by decide : 'f' ≤ 'z')⟩
    simp [isUnreserved, letter]
  · have letter : isAsciiAlpha digit = true := by
      simp only [isAsciiAlpha, Bool.or_eq_true, Bool.and_eq_true, decide_eq_true_eq]
      exact .inr ⟨upper.1, Char.le_trans upper.2 (by decide : 'F' ≤ 'Z')⟩
    simp [isUnreserved, letter]

theorem sent_hexValue {digit : Char} {value : Nat} (read : hexValue digit = some value) (rest : List Char) :
    sent (digit :: rest) = digit :: sent rest := by
  have quoted : Quoted [digit] := by
    intro c member
    rw [List.mem_singleton.mp member]
    exact .inl (hexValue_unreserved read)
  rw [sent_plain (quoted.plainUrl digit List.mem_cons_self)]
  have same := quoted.plus
  rw [List.map_singleton, List.singleton_inj] at same
  rw [same]

theorem unquoteFrom_sent_escape (state : Utf8.State) {high low : Char} {byte : Nat} (decoded : escapedByte high low = some byte)
    (rest : List Char) : unquoteFrom state (sent ('%' :: high :: low :: rest)) =
      (state.feed byte).1 ++ unquoteFrom (state.feed byte).2 (sent rest) := by
  obtain ⟨⟨_, first⟩, ⟨_, second⟩⟩ := escapedByte_digits decoded
  rw [sent_plain rfl, sent_hexValue first, sent_hexValue second]
  show unquoteFrom state ('%' :: high :: low :: sent rest) = _
  rw [unquoteFrom, decoded]

theorem startsEscape_cases {text : List Char} (starts : startsEscape text = true) :
    ∃ high low rest byte, text = '%' :: high :: low :: rest ∧ escapedByte high low = some byte := by
  unfold startsEscape at starts
  split at starts
  next high low rest =>
    obtain ⟨byte, decoded⟩ := Option.isSome_iff_exists.mp starts
    exact ⟨high, low, rest, byte, rfl, decoded⟩
  next => cases starts

/-- Decoding never makes a text longer, and shorter if it finds an escape. -/
theorem unquoteFrom_length (state : Utf8.State) (text : List Char) :
    (unquoteFrom state (sent text)).length ≤ state.flush.length + text.length ∧
      (hasEscape text = true → (unquoteFrom state (sent text)).length < state.flush.length + text.length) := by
  cases text with
  | nil => exact ⟨le_rfl, nofun⟩
  | cons c rest =>
    cases starts : startsEscape (c :: rest) with
    | true =>
      obtain ⟨high, low, after, byte, chars, decoded⟩ := startsEscape_cases starts
      have fed := Utf8.feed_flush byte state
      have ih := (unquoteFrom_length (state.feed byte).2 after).1
      rw [chars, unquoteFrom_sent_escape state decoded, List.length_append]
      simp only [List.length_cons]
      omega
    | false =>
      obtain ⟨ih, shorter⟩ := unquoteFrom_length .between rest
      have fresh : Utf8.State.between.flush.length = 0 := rfl
      rw [fresh] at ih shorter
      rw [unquoteFrom_sent state starts, List.length_append, hasEscape, starts, Bool.false_or]
      simp only [List.length_cons]
      refine ⟨by omega, fun escape => ?_⟩
      have strict := shorter escape
      omega
termination_by text.length
decreasing_by
  all_goals simp_all
  omega

theorem unquoteFrom_unescaped (state : Utf8.State) {text : List Char} (unescaped : hasEscape text = false) :
    unquoteFrom state (sent text) = state.flush ++ text.map plusToSpace := by
  induction text generalizing state with
  | nil => exact (List.append_nil _).symm
  | cons c rest ih =>
    rw [hasEscape, Bool.or_eq_false_iff] at unescaped
    rw [unquoteFrom_sent state unescaped.1, ih .between unescaped.2]
    rfl

theorem encodeQuery_absent {mark : Char} (reserved : isUnreserved mark = false) (percent : mark ≠ '%') {text : List Char}
    (absent : mark ∉ text) : mark ∉ text.flatMap encodeQueryChar := by
  intro member
  obtain ⟨c, source, inside⟩ := List.mem_flatMap.mp member
  unfold encodeQueryChar at inside
  split at inside
  next =>
    obtain unreserved | same := quoted_percentEncode c mark inside
    · rw [reserved] at unreserved
      cases unreserved
    · exact percent same
  next =>
    rw [List.mem_singleton] at inside
    exact absent (inside ▸ source)

theorem encodeQuery_append {mark : Char} (plain : isQueryEscaped mark = false) (front back : List Char) :
    (front ++ mark :: back).flatMap encodeQueryChar =
      front.flatMap encodeQueryChar ++ mark :: back.flatMap encodeQueryChar := by
  rw [List.flatMap_append, List.flatMap_cons, encodeQueryChar, plain]
  rfl

theorem unquotePlus_length (text : List Char) : (unquotePlus (text.flatMap encodeQueryChar)).length ≤ text.length := by
  have bound := (unquoteFrom_length .between text).1
  rwa [Utf8.State.flush, List.length_nil, Nat.zero_add] at bound

/-- No parameter of a query is longer than what the browser was given for the query. -/
theorem parseQsl_length {text : List Char} {field : List Char × List Char}
    (member : field ∈ parseQsl (text.flatMap encodeQueryChar)) : field.2.length ≤ text.length := by
  by_cases several : '&' ∈ text
  · obtain ⟨front, back, rfl, -⟩ := List.eq_append_cons_of_mem several
    rw [encodeQuery_append rfl, parseQsl_append, List.mem_append] at member
    simp only [List.length_append, List.length_cons]
    obtain earlier | later := member
    · have bound := parseQsl_length earlier
      omega
    · have bound := parseQsl_length later
      omega
  · by_cases empty : text.flatMap encodeQueryChar = []
    · rw [empty] at member
      cases member
    · rw [parseQsl_field (encodeQuery_absent rfl (by decide) several) empty, List.mem_singleton] at member
      subst member
      by_cases named : '=' ∈ text
      · obtain ⟨front, back, rfl, absent⟩ := List.eq_append_cons_of_mem named
        have bound := unquotePlus_length back
        rw [encodeQuery_append rfl, cutAt_append (encodeQuery_absent rfl (by decide) absent)]
        simp only [List.length_append, List.length_cons]
        omega
      · rw [cutAt_absent (encodeQuery_absent rfl (by decide) named)]
        exact Nat.zero_le _
termination_by text.length
decreasing_by
  all_goals simp_all
  omega

/-- A value that a query means without being quoted. -/
structure MeansItself (value : List Char) : Prop where
  marks : ∀ c ∈ value, c ≠ '&' ∧ c ≠ '+' ∧ c ≠ '#' ∧ isTabOrNewline c = false
  ending : ∀ c, value.getLast? = some c → isC0ControlOrSpace c = false
  unescaped : hasEscape value = false

theorem MeansItself.unquotePlus {value : List Char} (itself : MeansItself value) :
    unquotePlus (value.flatMap encodeQueryChar) = value := by
  have same : ∀ c ∈ value, plusToSpace c = id c := fun c member => plusToSpace_of_ne (itself.marks c member).2.1
  have decoded := unquoteFrom_unescaped .between itself.unescaped
  rwa [List.map_congr_left same, List.map_id] at decoded

theorem queryParameter_mem {name query value : String} (found : queryParameter name query = some value) :
    ∃ field ∈ parseQsl query.toList, field.2 = value.toList := by
  obtain ⟨field, last, rfl⟩ := Option.map_eq_some_iff.mp found
  exact ⟨field, List.mem_of_mem_filter (List.mem_of_getLast? last), String.toList_ofList.symm⟩

/-- A parameter that was put into a URL without being quoted is read back as it was
exactly if it means itself. -/
theorem queryParameter_unquoted_iff {url name value : String} {path : List Char}
    (chars : url.toList = path ++ '?' :: (name.toList ++ ['='] ++ value.toList)) (plainPath : IsPlainUrl path)
    (mark : '?' ∉ path) (named : IsName name.toList) :
    queryParameter name (requestQuery url) = some value ↔ MeansItself value.toList := by
  have plain : IsPlainUrl (name.toList ++ ['=']) := by
    intro c member
    simp only [List.mem_append, List.mem_singleton] at member
    obtain inside | rfl := member
    · exact named.quoted.plainUrl c inside
    · rfl
  have regrouped : ∀ rest, name.toList ++ ['='] ++ rest = name.toList ++ '=' :: rest := fun rest => by simp
  rw [requestQuery_split chars plainPath mark plain, regrouped]
  have kept := (keptOf_sublist value.toList).length_le
  constructor
  · intro found
    obtain ⟨field, member, same⟩ := queryParameter_mem found
    rw [String.toList_ofList] at member
    have length := congrArg List.length same
    by_cases several : '&' ∈ keptOf value.toList
    · -- The value is cut at the first ampersand, and what follows it is shorter too.
      obtain ⟨front, back, split, absent⟩ := List.eq_append_cons_of_mem several
      have total := congrArg List.length split
      simp only [List.length_append, List.length_cons] at total
      have first := unquotePlus_length front
      rw [split, encodeQuery_append rfl, ← List.cons_append, ← List.append_assoc, parseQsl_append,
        parseQsl_named named (encodeQuery_absent rfl (by decide) absent), List.mem_append, List.mem_singleton] at member
      obtain rfl | later := member
      · dsimp only at length
        omega
      · have bound := parseQsl_length later
        omega
    · rw [parseQsl_named named (encodeQuery_absent rfl (by decide) several), List.mem_singleton] at member
      subst member
      obtain ⟨bound, shorter⟩ := unquoteFrom_length .between (keptOf value.toList)
      have decoded : (unquoteFrom .between (sent (keptOf value.toList))).length = value.toList.length := length
      have fresh : Utf8.State.between.flush.length = 0 := rfl
      rw [decoded, fresh] at bound shorter
      have whole : keptOf value.toList = value.toList := (keptOf_sublist _).eq_of_length_le (by omega)
      obtain ⟨every, ending⟩ := keptOf_eq_iff.mp whole
      rw [whole] at several shorter same
      have unescaped : hasEscape value.toList = false := by
        apply Bool.eq_false_iff.mpr
        intro escape
        have strict := shorter escape
        omega
      have spaces : value.toList.map plusToSpace = value.toList := (unquoteFrom_unescaped .between unescaped).symm.trans same
      refine ⟨fun c member => ⟨?_, ?_, every c member⟩, ending, unescaped⟩
      · rintro rfl
        exact several member
      · rintro rfl
        have kept := List.map_inj_left.mp (spaces.trans (List.map_id _).symm) '+' member
        exact absurd kept (by decide)
  · intro itself
    have whole : keptOf value.toList = value.toList :=
      keptOf_eq_iff.mpr ⟨fun c member => (itself.marks c member).2.2, itself.ending⟩
    have alone : '&' ∉ value.toList := fun member => (itself.marks _ member).1 rfl
    have field : parseQsl (name.toList ++ '=' :: value.toList.flatMap encodeQueryChar) =
      [] ++ [(name.toList, value.toList)] := by
      rw [parseQsl_named named (encodeQuery_absent rfl (by decide) alone), itself.unquotePlus]
      rfl
    rw [whole, queryParameter_last field, String.ofList_toList]

end Foundation
