import Satoidc.Foundation.Url
import Satoidc.Foundation.Utf8

/-! Query strings on their way from a URL to a parameter: how a browser reads the URL
that it is sent to and encodes its query (the URL standard), and how `parse_qsl`
decodes that. -/

namespace Foundation

def hexValue (c : Char) : Option Nat :=
  if isAsciiDigit c then some (c.toNat - 0x30)
  else if 'a' ≤ c ∧ c ≤ 'f' then some (c.toNat - 0x57)
  else if 'A' ≤ c ∧ c ≤ 'F' then some (c.toNat - 0x37)
  else none

/-- The byte that two digits behind a percent sign stand for. -/
def escapedByte (high low : Char) : Option Nat := do
  some ((← hexValue high) * 16 + (← hexValue low))

/-- `unquote(text)` behind bytes that have left the decoder in a state. -/
def unquoteFrom : Utf8.State → List Char → List Char
  | state, [] => state.flush
  | state, '%' :: high :: low :: rest =>
    match escapedByte high low with
    | some byte => (state.feed byte).1 ++ unquoteFrom (state.feed byte).2 rest
    | none => state.flush ++ '%' :: unquoteFrom .between (high :: low :: rest)
  | state, c :: rest => state.flush ++ c :: unquoteFrom .between rest

def plusToSpace (c : Char) : Char := if c = '+' then ' ' else c

/-- `unquote(text.replace("+", " "))`. -/
def unquotePlus (text : List Char) : List Char := unquoteFrom .between (text.map plusToSpace)

/-- `parse_qsl(query, keep_blank_values=True)`. -/
def parseQsl (query : List Char) : List (List Char × List Char) :=
  ((query.splitOn '&').filter (· ≠ [])).map fun field =>
    (unquotePlus (cutAt '=' field).1, unquotePlus (cutAt '=' field).2)

/-- The last value that a query has for a name. -/
def queryParameter (name query : String) : Option String :=
  (((parseQsl query.toList).filter fun field => field.1 = name.toList).getLast?).map fun field => String.ofList field.2

/-- The query of a URL: spaces and controls at its ends and tabs and newlines anywhere
are dropped, and the fragment is cut off. -/
def queryText (url : List Char) : List Char :=
  let cleaned := dropTabsAndNewlines ((url.dropWhile isC0ControlOrSpace).rdropWhile isC0ControlOrSpace)
  (cutAt '?' (cutAt '#' cleaned).1).2

/-- The characters that a browser escapes in a query: controls and spaces, everything
beyond ASCII, and the marks `"`, `#`, `'`, `<` and `>`. -/
def isQueryEscaped (c : Char) : Bool :=
  c.toNat ≤ 0x20 || 0x7e < c.toNat || c.toNat ∈ [0x22, 0x23, 0x27, 0x3c, 0x3e]

def percentEncode (c : Char) : List Char := (String.utf8EncodeChar c).flatMap percentEncodeByte

def encodeQueryChar (c : Char) : List Char := if isQueryEscaped c then percentEncode c else [c]

/-- The query string of the request that a browser makes for a URL. -/
def requestQuery (url : String) : String := String.ofList ((queryText url.toList).flatMap encodeQueryChar)

theorem hexValue_hexDigitUpper {n : Nat} (digit : n < 16) : hexValue (hexDigitUpper n) = some n := by
  have every : ∀ n : Fin 16, hexValue (hexDigitUpper n) = some n.val := by decide
  exact every ⟨n, digit⟩

theorem unquoteFrom_byte (state : Utf8.State) (byte : UInt8) (rest : List Char) :
    unquoteFrom state (percentEncodeByte byte ++ rest) =
      (state.feed byte.toNat).1 ++ unquoteFrom (state.feed byte.toNat).2 rest := by
  have small : byte.toNat < 256 := byte.toNat_lt
  have escaped : escapedByte (hexDigitUpper (byte.toNat / 16)) (hexDigitUpper (byte.toNat % 16)) = some byte.toNat := by
    rw [escapedByte, hexValue_hexDigitUpper (by omega), hexValue_hexDigitUpper (by omega)]
    simp only [Option.bind_eq_bind, Option.bind_some, Option.some.injEq]
    omega
  rw [percentEncodeByte, List.cons_append, List.cons_append, List.cons_append, List.nil_append, unquoteFrom, escaped]

theorem unquoteFrom_bytes (state : Utf8.State) (bytes : List UInt8) (rest : List Char) :
    unquoteFrom state (bytes.flatMap percentEncodeByte ++ rest) =
      (state.feedAll (bytes.map UInt8.toNat)).1 ++ unquoteFrom (state.feedAll (bytes.map UInt8.toNat)).2 rest := by
  induction bytes generalizing state with
  | nil => rfl
  | cons byte bytes ih =>
    rw [List.flatMap_cons, List.append_assoc, unquoteFrom_byte, ih, List.map_cons, Utf8.State.feedAll, List.append_assoc]

/-- A percent-encoded character is decoded to itself. -/
theorem unquoteFrom_encoded (state : Utf8.State) (c : Char) (rest : List Char) :
    unquoteFrom state (percentEncode c ++ rest) = state.flush ++ c :: unquoteFrom .between rest := by
  rw [percentEncode, unquoteFrom_bytes, Utf8.feed_encoded, List.append_assoc, List.singleton_append]

theorem unquoteFrom_literal (state : Utf8.State) {c : Char} (plain : c ≠ '%') (rest : List Char) :
    unquoteFrom state (c :: rest) = state.flush ++ c :: unquoteFrom .between rest := by
  rw [unquoteFrom]
  intro high low after same
  exact absurd same plain

/-- A percent sign that no two digits follow stands for itself. -/
theorem unquoteFrom_percent (state : Utf8.State) {rest : List Char}
    (alone : ∀ high low after, rest = high :: low :: after → escapedByte high low = none) :
    unquoteFrom state ('%' :: rest) = state.flush ++ '%' :: unquoteFrom .between rest := by
  match rest with
  | [] => rfl
  | [_] => rfl
  | high :: low :: after => rw [unquoteFrom, alone high low after rfl]

theorem isUnreserved_toNat {c : Char} (unreserved : isUnreserved c = true) :
    0x2d ≤ c.toNat ∧ c.toNat ≤ 0x7e ∧ (c.toNat < 0x3a ∨ 0x41 ≤ c.toNat) := by
  simp only [isUnreserved, isAsciiAlpha, isAsciiDigit, Bool.or_eq_true, Bool.and_eq_true, decide_eq_true_eq,
    Char.le_def, UInt32.le_iff_toNat_le] at unreserved
  obtain (((((⟨low, high⟩ | ⟨low, high⟩) | ⟨low, high⟩) | rfl) | rfl) | rfl) | rfl := unreserved
  · exact ⟨le_trans (by decide) low, le_trans high (by decide), .inr (le_trans (by decide) low)⟩
  · exact ⟨le_trans (by decide) low, le_trans high (by decide), .inr (le_trans (by decide) low)⟩
  · exact ⟨le_trans (by decide) low, le_trans high (by decide), .inl (lt_of_le_of_lt high (by decide))⟩
  all_goals decide

/-- What `quote` leaves in a text. -/
def Quoted (text : List Char) : Prop := ∀ c ∈ text, isUnreserved c = true ∨ c = '%'

theorem hexDigitUpper_unreserved {n : Nat} (digit : n < 16) : isUnreserved (hexDigitUpper n) = true := by
  have every : ∀ n : Fin 16, isUnreserved (hexDigitUpper n) = true := by decide
  exact every ⟨n, digit⟩

theorem quoted_percentEncode (c : Char) : Quoted (percentEncode c) := by
  intro mark member
  obtain ⟨byte, -, member⟩ := List.mem_flatMap.mp member
  have small : byte.toNat < 256 := byte.toNat_lt
  simp only [percentEncodeByte, List.mem_cons, List.not_mem_nil, or_false] at member
  obtain rfl | rfl | rfl := member
  · exact .inr rfl
  · exact .inl (hexDigitUpper_unreserved (by omega))
  · exact .inl (hexDigitUpper_unreserved (by omega))

def quoteChar (c : Char) : List Char := if isUnreserved c then [c] else percentEncode c

theorem quote_toList (text : String) : (quote text).toList = text.toList.flatMap quoteChar := by
  rw [quote, String.toList_ofList]
  rfl

theorem quoted_quote (text : String) : Quoted (quote text).toList := by
  intro c member
  rw [quote_toList, List.mem_flatMap] at member
  obtain ⟨source, -, inside⟩ := member
  unfold quoteChar at inside
  split at inside
  next unreserved =>
    rw [List.mem_singleton] at inside
    exact .inl (inside ▸ unreserved)
  next => exact quoted_percentEncode source c inside

/-- A quoted text has no character that ends a parameter, and none that a browser drops
or escapes. -/
theorem Quoted.toNat {text : List Char} (quoted : Quoted text) {c : Char} (member : c ∈ text) :
    0x25 ≤ c.toNat ∧ c.toNat ≤ 0x7e ∧ c.toNat ≠ 0x26 ∧ c.toNat ≠ 0x27 ∧ c.toNat ≠ 0x2b ∧
      (c.toNat < 0x3a ∨ 0x41 ≤ c.toNat) := by
  obtain unreserved | rfl := quoted c member
  · obtain ⟨low, high, sides⟩ := isUnreserved_toNat unreserved
    omega
  · decide

theorem Quoted.plus {text : List Char} (quoted : Quoted text) : text.map plusToSpace = text := by
  have same : ∀ c ∈ text, plusToSpace c = id c := by
    intro c member
    apply if_neg
    intro plus
    exact (quoted.toNat member).2.2.2.2.1 (congrArg Char.toNat plus)
  rw [List.map_congr_left same, List.map_id]

/-- `unquote` undoes `quote`. -/
theorem unquotePlus_quote (text : String) : unquotePlus (quote text).toList = text.toList := by
  rw [unquotePlus, (quoted_quote text).plus, quote_toList]
  induction text.toList with
  | nil => rfl
  | cons c rest ih =>
    rw [List.flatMap_cons, quoteChar]
    split
    next unreserved =>
      have plain : c ≠ '%' := by
        intro same
        rw [same] at unreserved
        cases unreserved
      rw [List.singleton_append, unquoteFrom_literal _ plain, ih]
      rfl
    next =>
      rw [unquoteFrom_encoded, ih]
      rfl

theorem cutAt_append {mark : Char} {before : List Char} (absent : mark ∉ before) (after : List Char) :
    cutAt mark (before ++ mark :: after) = (before, after) := by
  have all : ∀ c ∈ before, decide (c ≠ mark) = true := by
    intro c member
    apply decide_eq_true
    intro same
    exact absent (same ▸ member)
  have read : (before ++ mark :: after).takeWhile (fun c => decide (c ≠ mark)) = before := by
    rw [List.takeWhile_append_of_pos all, List.takeWhile_cons_of_neg (by simp), List.append_nil]
  simp only [cutAt, read, List.drop_left, List.tail_cons]

theorem cutAt_absent {mark : Char} {text : List Char} (absent : mark ∉ text) : cutAt mark text = (text, []) := by
  have read : text.takeWhile (fun c => decide (c ≠ mark)) = text := by
    apply List.takeWhile_eq_self_iff.mpr
    intro c member
    apply decide_eq_true
    intro same
    exact absent (same ▸ member)
  simp only [cutAt, read, List.drop_length, List.tail_nil]

theorem parseQsl_append (front back : List Char) : parseQsl (front ++ '&' :: back) = parseQsl front ++ parseQsl back := by
  rw [parseQsl, List.splitOn_append_cons_self, List.filter_append, List.map_append]
  rfl

theorem parseQsl_field {field : List Char} (alone : '&' ∉ field) (nonempty : field ≠ []) :
    parseQsl field = [(unquotePlus (cutAt '=' field).1, unquotePlus (cutAt '=' field).2)] := by
  have kept : [field].filter (· ≠ []) = [field] := List.filter_cons_of_pos (decide_eq_true nonempty)
  rw [parseQsl, List.splitOn_eq_singleton alone, kept]
  rfl

/-- A name that is the same in a query as it is. -/
def IsName (name : List Char) : Prop := ∀ c ∈ name, isUnreserved c = true

instance (name : List Char) : Decidable (IsName name) := List.decidableBAll (fun c => isUnreserved c = true) name

theorem IsName.absent {name : List Char} (named : IsName name) {mark : Char} (reserved : isUnreserved mark = false) :
    mark ∉ name := by
  intro member
  rw [named mark member] at reserved
  cases reserved

theorem IsName.quoted {name : List Char} (named : IsName name) : Quoted name := fun c member => .inl (named c member)

theorem unquotePlus_name {name : List Char} (named : IsName name) : unquotePlus name = name := by
  rw [unquotePlus, named.quoted.plus]
  induction name with
  | nil => rfl
  | cons c rest ih =>
    have plain : c ≠ '%' := by
      rintro rfl
      exact named.absent rfl List.mem_cons_self
    rw [unquoteFrom_literal _ plain, ih fun d member => named d (List.mem_cons_of_mem c member)]
    rfl

theorem parseQsl_named {name value : List Char} (named : IsName name) (alone : '&' ∉ value) :
    parseQsl (name ++ '=' :: value) = [(name, unquotePlus value)] := by
  have whole : '&' ∉ name ++ '=' :: value := by
    simp only [List.mem_append, List.mem_cons, not_or]
    exact ⟨named.absent rfl, by decide, alone⟩
  rw [parseQsl_field whole (by simp), cutAt_append (named.absent rfl), unquotePlus_name named]

/-- The last field of a query is the parameter that has its name. -/
theorem queryParameter_last {name : String} {query : List Char} {fields : List (List Char × List Char)} {value : List Char}
    (parsed : parseQsl query = fields ++ [(name.toList, value)]) :
    queryParameter name (String.ofList query) = some (String.ofList value) := by
  have kept : [(name.toList, value)].filter (fun field => field.1 = name.toList) = [(name.toList, value)] :=
    List.filter_cons_of_pos (decide_eq_true rfl)
  rw [queryParameter, String.toList_ofList, parsed, List.filter_append, kept, List.getLast?_concat]
  rfl

theorem isQueryEscaped_kept {c : Char} (kept : isQueryEscaped c = false) :
    isC0ControlOrSpace c = false ∧ isTabOrNewline c = false ∧ c ≠ '#' := by
  simp only [isQueryEscaped, Bool.or_eq_false_iff, decide_eq_false_iff_not] at kept
  obtain ⟨⟨low, -⟩, marks⟩ := kept
  refine ⟨decide_eq_false low, ?_, ?_⟩
  · unfold isTabOrNewline
    simp only [Bool.or_eq_false_iff, decide_eq_false_iff_not]
    refine ⟨⟨?_, ?_⟩, ?_⟩ <;> rintro rfl <;> exact low (by decide)
  · rintro rfl
    exact marks (by decide)

/-- What a browser keeps of a value at the end of a URL. -/
def keptOf (value : List Char) : List Char :=
  (cutAt '#' (dropTabsAndNewlines (value.rdropWhile isC0ControlOrSpace))).1

/-- A path or query that a browser leaves alone. -/
def IsPlainUrl (text : List Char) : Prop := ∀ c ∈ text, isQueryEscaped c = false

instance (text : List Char) : Decidable (IsPlainUrl text) := List.decidableBAll (fun c => isQueryEscaped c = false) text

theorem queryText_append {front : List Char} (plain : IsPlainUrl front) (nonempty : front ≠ []) (value : List Char) :
    queryText (front ++ value) = (cutAt '?' (front ++ keptOf value)).2 := by
  have noControl : ∀ c ∈ front, ¬ isC0ControlOrSpace c = true := by
    intro c member
    rw [(isQueryEscaped_kept (plain c member)).1]
    decide
  have ahead : (front ++ value).dropWhile isC0ControlOrSpace = front ++ value := by
    cases front with
    | nil => exact absurd rfl nonempty
    | cons c rest => exact List.dropWhile_cons_of_neg (noControl c List.mem_cons_self)
  have behind : (front ++ value).rdropWhile isC0ControlOrSpace = front ++ value.rdropWhile isC0ControlOrSpace := by
    have stops : front.reverse.dropWhile isC0ControlOrSpace = front.reverse := by
      cases chars : front.reverse with
      | nil => rfl
      | cons c rest =>
        apply List.dropWhile_cons_of_neg
        apply noControl
        rw [← List.mem_reverse, chars]
        exact List.mem_cons_self
    rw [List.rdropWhile, List.rdropWhile, List.reverse_append, List.dropWhile_append, stops]
    split
    next gone =>
      simp only [List.isEmpty_iff] at gone
      rw [gone, List.reverse_nil, List.append_nil, List.reverse_reverse]
    next => rw [List.reverse_append, List.reverse_reverse]
  have clean : dropTabsAndNewlines front = front := by
    apply List.filter_eq_self.mpr
    intro c member
    rw [(isQueryEscaped_kept (plain c member)).2.1]
    rfl
  have noFragment : ∀ c ∈ front, decide (c ≠ '#') = true := fun c member =>
    decide_eq_true (isQueryEscaped_kept (plain c member)).2.2
  have cut : ∀ rest, (cutAt '#' (front ++ rest)).1 = front ++ (cutAt '#' rest).1 := fun rest =>
    List.takeWhile_append_of_pos noFragment
  rw [queryText, ahead, behind, dropTabsAndNewlines, List.filter_append, ← dropTabsAndNewlines, ← dropTabsAndNewlines,
    clean]
  simp only [cut, keptOf]

theorem encodeQuery_plain {text : List Char} (plain : IsPlainUrl text) : text.flatMap encodeQueryChar = text := by
  induction text with
  | nil => rfl
  | cons c rest ih =>
    rw [List.flatMap_cons, ih fun d member => plain d (List.mem_cons_of_mem c member), encodeQueryChar,
      plain c List.mem_cons_self]
    rfl

theorem Quoted.plainUrl {text : List Char} (quoted : Quoted text) : IsPlainUrl text := by
  intro c member
  have sides := quoted.toNat member
  simp only [isQueryEscaped, Bool.or_eq_false_iff, decide_eq_false_iff_not, List.mem_cons, List.not_mem_nil, or_false]
  omega

theorem keptOf_sublist (value : List Char) : (keptOf value).Sublist value :=
  ((List.takeWhile_sublist _).trans List.filter_sublist).trans (List.rdropWhile_prefix _ _).sublist

/-- The values that a browser keeps as they are. -/
theorem keptOf_eq_iff {value : List Char} : keptOf value = value ↔
    (∀ c ∈ value, c ≠ '#' ∧ isTabOrNewline c = false) ∧ ∀ c, value.getLast? = some c → isC0ControlOrSpace c = false := by
  constructor
  · intro same
    have cut : (keptOf value).Sublist (dropTabsAndNewlines (value.rdropWhile isC0ControlOrSpace)) :=
      List.takeWhile_sublist _
    have filtered : (dropTabsAndNewlines (value.rdropWhile isC0ControlOrSpace)).Sublist (value.rdropWhile isC0ControlOrSpace) :=
      List.filter_sublist
    have ended := (List.rdropWhile_prefix isC0ControlOrSpace value).sublist
    -- No step drops anything, as the last one has the length of the first.
    have lengths := congrArg List.length same
    have end' := ended.eq_of_length_le (by have := cut.length_le; have := filtered.length_le; omega)
    rw [end'] at cut filtered
    have filter' := filtered.eq_of_length_le (by have := cut.length_le; omega)
    rw [keptOf, end', filter'] at same
    refine ⟨fun c member => ⟨?_, ?_⟩, ?_⟩
    · have every := List.takeWhile_eq_self_iff.mp same c member
      exact of_decide_eq_true every
    · have every := List.filter_eq_self.mp filter' c member
      simpa using every
    · intro c last
      have nonempty : value ≠ [] := by
        rintro rfl
        cases last
      have stops := List.rdropWhile_eq_self_iff.mp end' nonempty
      rw [List.getLast?_eq_some_getLast nonempty, Option.some.injEq] at last
      rw [last] at stops
      exact Bool.eq_false_iff.mpr stops
  · intro ⟨every, last⟩
    have end' : value.rdropWhile isC0ControlOrSpace = value := by
      apply List.rdropWhile_eq_self_iff.mpr
      intro nonempty
      rw [last _ (List.getLast?_eq_some_getLast nonempty)]
      decide
    have filter' : dropTabsAndNewlines value = value := by
      apply List.filter_eq_self.mpr
      intro c member
      rw [(every c member).2]
      rfl
    rw [keptOf, end', filter', cutAt_absent fun member => (every _ member).1 rfl]

theorem IsPlainUrl.keptOf {text : List Char} (plain : IsPlainUrl text) : keptOf text = text := by
  apply keptOf_eq_iff.mpr
  constructor
  · intro c member
    have kept := isQueryEscaped_kept (plain c member)
    exact ⟨kept.2.2, kept.2.1⟩
  · intro c last
    exact (isQueryEscaped_kept (plain c (List.mem_of_getLast? last))).1

/-- The request for a URL whose value starts behind a mark in its query. -/
theorem requestQuery_split {url : String} {path front value : List Char} (chars : url.toList = path ++ '?' :: (front ++ value))
    (plainPath : IsPlainUrl path) (mark : '?' ∉ path) (plainFront : IsPlainUrl front) :
    requestQuery url = String.ofList (front ++ (keptOf value).flatMap encodeQueryChar) := by
  have plain : IsPlainUrl (path ++ '?' :: front) := by
    intro c member
    simp only [List.mem_append, List.mem_cons] at member
    obtain inside | rfl | inside := member
    · exact plainPath c inside
    · rfl
    · exact plainFront c inside
  have regrouped : ∀ rest, path ++ '?' :: (front ++ rest) = path ++ '?' :: front ++ rest := fun rest => by
    rw [List.append_assoc, List.cons_append]
  rw [requestQuery, chars, regrouped, queryText_append plain (by simp), ← regrouped, cutAt_append mark, List.flatMap_append,
    encodeQuery_plain plainFront]

/-- A quoted value at the end of a URL is read back as it was, whatever parameters come
before it. -/
theorem queryParameter_quoted {url name value : String} {path front : List Char}
    (before : front = [] ∨ ∃ fields, front = fields ++ ['&'])
    (chars : url.toList = path ++ '?' :: (front ++ name.toList ++ ['='] ++ (quote value).toList))
    (plainPath : IsPlainUrl path) (mark : '?' ∉ path) (plainFront : IsPlainUrl front) (named : IsName name.toList) :
    queryParameter name (requestQuery url) = some value := by
  have plain : IsPlainUrl (front ++ name.toList ++ ['=']) := by
    intro c member
    simp only [List.mem_append, List.mem_singleton] at member
    obtain (inside | inside) | rfl := member
    · exact plainFront c inside
    · exact named.quoted.plainUrl c inside
    · rfl
  have quoted := quoted_quote value
  have alone : '&' ∉ (quote value).toList := fun member => (quoted.toNat member).2.2.1 rfl
  rw [requestQuery_split chars plainPath mark plain, quoted.plainUrl.keptOf, encodeQuery_plain quoted.plainUrl]
  have field := parseQsl_named named alone
  rw [unquotePlus_quote] at field
  have parsed : ∃ fields, parseQsl (front ++ name.toList ++ ['='] ++ (quote value).toList) =
      fields ++ [(name.toList, value.toList)] := by
    obtain rfl | ⟨fields, rfl⟩ := before
    · exact ⟨[], by simpa using field⟩
    · refine ⟨parseQsl fields, ?_⟩
      rw [← field, ← parseQsl_append]
      simp
  obtain ⟨fields, parsed⟩ := parsed
  rw [queryParameter_last parsed, String.ofList_toList]

end Foundation
