import Satoidc.Foundation.Url

/-! Absolute HTTP(S) URLs: the text itself against what `urlsplit` reads from it, which
is the text without some control characters. -/

namespace Foundation

/-- The text begins with `http://` or `https://`, in any case, and an authority. -/
def IsHttpUrl (text : List Char) : Prop :=
  ∃ start rest, text = start ++ rest ∧ start.map Char.toLower ∈ ["http://".toList, "https://".toList] ∧
    rest.takeWhile (fun c => !endsNetloc c) ≠ []

/-- The characters that `urlsplit` splits. -/
def cleaned (url : String) : List Char := dropTabsAndNewlines (url.toList.dropWhile isC0ControlOrSpace)

/-- Text without a control character in front, tabs and newlines is split as it stands. -/
theorem cleaned_eq {url : String} (start : ∀ c, url.toList.head? = some c → isC0ControlOrSpace c = false)
    (inside : ∀ c ∈ url.toList, isTabOrNewline c = false) : cleaned url = url.toList := by
  have kept : url.toList.dropWhile isC0ControlOrSpace = url.toList := by
    cases chars : url.toList with
    | nil => rfl
    | cons first rest =>
      rw [List.dropWhile_cons_of_neg]
      rw [start first (by rw [chars]; rfl)]
      exact Bool.false_ne_true
  rw [cleaned, kept, dropTabsAndNewlines, List.filter_eq_self]
  intro c member
  rw [inside c member]
  rfl

variable {c : Char} {text : List Char}

theorem isAsciiAlpha_toLower (c : Char) : isAsciiAlpha c.toLower = isAsciiAlpha c := by
  unfold Char.toLower
  split
  next upper =>
    simp only [isAsciiAlpha, Char.le_def]
    grind
  next => rfl

theorem toLower_eq_caseless {d : Char} (lowered : c.toLower = d) (caseless : isAsciiAlpha d = false) : c = d := by
  subst lowered
  rw [isAsciiAlpha_toLower] at caseless
  unfold Char.toLower
  split
  next upper =>
    simp only [isAsciiAlpha, Char.le_def] at caseless
    grind
  next => rfl

/-- Text whose lowercase form has no letters is that form. -/
theorem map_toLower_caseless {mark : List Char} (lowered : text.map Char.toLower = mark)
    (caseless : mark.all (fun c => !isAsciiAlpha c) = true) : text = mark := by
  subst lowered
  refine (List.map_id text).symm.trans (List.map_congr_left ?_)
  intro c member
  have plain := List.all_eq_true.mp caseless c.toLower (List.mem_map_of_mem member)
  exact toLower_eq_caseless rfl (by simpa using plain)

theorem drop_takeWhile (p : Char → Bool) (text : List Char) : text.drop (text.takeWhile p).length = text.dropWhile p := by
  have joined : text.takeWhile p ++ text.dropWhile p = text := List.takeWhile_append_dropWhile
  have dropped : (text.takeWhile p ++ text.dropWhile p).drop (text.takeWhile p).length = text.dropWhile p := List.drop_left
  rw [joined] at dropped
  exact dropped

theorem splitScheme_iff {scheme rest : List Char} (letters : scheme.all isAsciiAlpha = true) (nonempty : scheme ≠ []) :
    splitScheme text = (scheme, rest) ↔ ∃ start, text = start ++ ':' :: rest ∧ start.map Char.toLower = scheme := by
  constructor
  · intro read
    unfold splitScheme at read
    dsimp only at read
    split at read
    next first before after start behind =>
      split at read
      next =>
        obtain ⟨lowered, rfl⟩ := Prod.mk.inj read
        refine ⟨text.takeWhile fun c => c ≠ ':', ?_, lowered⟩
        rw [← behind, drop_takeWhile, List.takeWhile_append_dropWhile]
      next => exact absurd (Prod.mk.inj read).1.symm nonempty
    next => exact absurd (Prod.mk.inj read).1.symm nonempty
  · rintro ⟨start, rfl, rfl⟩
    have alpha : ∀ c ∈ start, isAsciiAlpha c = true := by
      intro c member
      rw [← isAsciiAlpha_toLower]
      exact List.all_eq_true.mp letters _ (List.mem_map_of_mem member)
    have before : (start ++ ':' :: rest).takeWhile (fun c => decide (c ≠ ':')) = start := by
      rw [List.takeWhile_append_of_pos, List.takeWhile_cons_of_neg (by decide), List.append_nil]
      intro c member
      have letter := alpha c member
      apply decide_eq_true
      rintro rfl
      exact absurd letter (by decide)
    unfold splitScheme
    rw [before]
    dsimp only
    rw [List.drop_left]
    cases start with
    | nil => exact absurd rfl nonempty
    | cons first start =>
      have chars : (first :: start).all isSchemeChar = true := by
        apply List.all_eq_true.mpr
        intro c member
        simp only [isSchemeChar, alpha c member, Bool.true_or]
      exact if_pos (by rw [alpha first List.mem_cons_self, chars]; rfl)

theorem splitNetloc_nonempty {rest : List Char} :
    (splitNetloc rest).1 ≠ [] ↔ ∃ behind, rest = '/' :: '/' :: behind ∧ behind.takeWhile (fun c => !endsNetloc c) ≠ [] := by
  constructor
  · intro nonempty
    unfold splitNetloc at nonempty
    split at nonempty
    next behind => exact ⟨behind, rfl, nonempty⟩
    next => exact absurd rfl nonempty
  · rintro ⟨behind, rfl, nonempty⟩
    exact nonempty

theorem begins_iff {scheme : List Char} (letters : scheme.all isAsciiAlpha = true) (nonempty : scheme ≠ []) :
    (∃ start rest, text = start ++ rest ∧ start.map Char.toLower = scheme ++ "://".toList ∧
        rest.takeWhile (fun c => !endsNetloc c) ≠ []) ↔
      (splitScheme text).1 = scheme ∧ (splitNetloc (splitScheme text).2).1 ≠ [] := by
  rw [splitNetloc_nonempty]
  constructor
  · rintro ⟨_, rest, rfl, lowered, authority⟩
    obtain ⟨start, slashes, rfl, same, marks⟩ := List.map_eq_append_iff.mp lowered
    cases map_toLower_caseless marks (by decide)
    have read : splitScheme (start ++ "://".toList ++ rest) = (scheme, '/' :: '/' :: rest) := by
      refine (splitScheme_iff letters nonempty).mpr ⟨start, ?_, same⟩
      rw [List.append_assoc]
      rfl
    rw [read]
    exact ⟨rfl, rest, rfl, authority⟩
  · rintro ⟨same, rest, slashes, authority⟩
    have read : splitScheme text = (scheme, '/' :: '/' :: rest) := Prod.ext same slashes
    obtain ⟨start, rfl, lowered⟩ := (splitScheme_iff letters nonempty).mp read
    refine ⟨start ++ "://".toList, rest, ?_, ?_, authority⟩
    · rw [List.append_assoc]
      rfl
    · rw [List.map_append, lowered]
      rfl

theorem isHttpUrl_iff :
    IsHttpUrl text ↔ (splitScheme text).1 ∈ ["http".toList, "https".toList] ∧ (splitNetloc (splitScheme text).2).1 ≠ [] := by
  have http := @begins_iff text "http".toList (by decide) (by decide)
  have https := @begins_iff text "https".toList (by decide) (by decide)
  rw [List.mem_pair, or_and_right, ← http, ← https]
  constructor
  · rintro ⟨start, rest, joined, lowered, authority⟩
    rcases List.mem_pair.mp lowered with same | same
    · exact .inl ⟨start, rest, joined, same, authority⟩
    · exact .inr ⟨start, rest, joined, same, authority⟩
  · rintro (⟨start, rest, joined, same, authority⟩ | ⟨start, rest, joined, same, authority⟩)
    · exact ⟨start, rest, joined, List.mem_pair.mpr (.inl same), authority⟩
    · exact ⟨start, rest, joined, List.mem_pair.mpr (.inr same), authority⟩

/-- The check on scheme and netloc is one on the text that `urlsplit` splits. -/
theorem urlsplit_http {nfkc : String → String} {url : String} {parsed : SplitResult} (split : urlsplit nfkc url = some parsed) :
    (parsed.scheme ∈ ["http", "https"] ∧ parsed.netloc ≠ "") ↔ IsHttpUrl (cleaned url) := by
  have parts : parsed.scheme = String.ofList (splitScheme (cleaned url)).1 ∧
      parsed.netloc = String.ofList (splitNetloc (splitScheme (cleaned url)).2).1 := by
    unfold urlsplit at split
    dsimp only at split
    split at split
    next => cases split; exact ⟨rfl, rfl⟩
    next => cases split
  rw [isHttpUrl_iff, parts.1, parts.2]
  simp only [List.mem_pair, ne_eq, ← String.toList_inj, String.toList_ofList]
  rfl

end Foundation
