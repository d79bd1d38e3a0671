import Satoidc.Foundation.Stripping
import Mathlib.Data.List.Nodup
import Mathlib.Data.String.Basic

/-! Words and lines that are joined come apart again: `str.split()` and
`str.splitlines()` undo the joins of what they could have returned. -/

namespace Foundation

variable {c : Char} {text : List Char}

/-- What `str.split()` can return. -/
structure Word (text : List Char) : Prop where
  nonempty : text ≠ []
  visible : ∀ c ∈ text, isSpace c = false

theorem mem_splitOnP {p : Char → Bool} {part : List Char} (member : part ∈ text.splitOnP p) : ∀ c ∈ part, p c = false := by
  induction text generalizing part with
  | nil =>
    rw [List.splitOnP_nil, List.mem_singleton] at member
    subst member
    nofun
  | cons first text ih =>
    rw [List.splitOnP_cons_eq_if_modifyHead] at member
    split at member
    next =>
      rcases List.mem_cons.mp member with rfl | later
      · nofun
      · exact ih later
    next stays =>
      obtain ⟨head, rest, parts⟩ := List.exists_cons_of_ne_nil (List.splitOnP_ne_nil p text)
      rw [parts, List.modifyHead_cons] at member
      rcases List.mem_cons.mp member with rfl | later
      · intro c inside
        rcases List.mem_cons.mp inside with rfl | inside
        · exact Bool.not_eq_true _ ▸ stays
        · exact ih (parts ▸ List.mem_cons_self) c inside
      · exact ih (parts ▸ List.mem_cons_of_mem _ later)

theorem word_of_splitWords {word : List Char} (member : word ∈ splitWords text) : Word word := by
  obtain ⟨part, nonempty⟩ := List.mem_filter.mp member
  exact ⟨by simpa using nonempty, mem_splitOnP part⟩

theorem splitWords_intercalate {words : List (List Char)} (all : ∀ word ∈ words, Word word) :
    splitWords ([' '].intercalate words) = words := by
  induction words with
  | nil => rfl
  | cons word words ih =>
    have first := all word List.mem_cons_self
    have rest := ih fun other member => all other (List.mem_cons_of_mem _ member)
    unfold splitWords at rest ⊢
    cases words with
    | nil => rw [List.intercalate_singleton, List.splitOnP_eq_singleton first.visible,
      List.filter_cons_of_pos (by simpa using first.nonempty)]; rfl
    | cons next words =>
      rw [List.intercalate_cons_cons, List.append_assoc, List.singleton_append,
        List.splitOnP_append_cons_of_forall_mem first.visible ' ' rfl,
          List.filter_cons_of_pos (by simpa using first.nonempty), rest]

section within
variable {α : Type*} {separator : α} {word : List α}

/-- A word without the separator that occurs in a text lies on one side of a separator. -/
theorem infix_separated (alone : separator ∉ word) {front back : List α} :
    word <:+: front ++ separator :: back ↔ word <:+: front ∨ word <:+: back := by
  constructor
  · rintro ⟨before, after, same⟩
    rcases List.append_eq_append_iff.mp same with ⟨rest, whole, -⟩ | ⟨rest, whole, right⟩
    · exact .inl ⟨before, rest, whole.symm⟩
    · match rest with
      | [] => exact .inl ⟨before, [], by rw [whole, List.append_nil, List.append_nil]⟩
      | _ :: rest =>
        obtain ⟨rfl, rfl⟩ := List.cons.inj right
        rcases List.append_eq_append_iff.mp whole with ⟨middle, -, inside⟩ | ⟨middle, -, inside⟩
        · rw [inside] at alone
          exact absurd (List.mem_append_right _ List.mem_cons_self) alone
        · match middle with
          | [] =>
            rw [List.nil_append] at inside
            rw [← inside] at alone
            exact absurd List.mem_cons_self alone
          | _ :: middle =>
            obtain ⟨-, rfl⟩ := List.cons.inj inside
            exact .inr ⟨middle, after, rfl⟩
  · rintro (left | right)
    · exact left.trans (List.prefix_append front _).isInfix
    · exact right.trans ((List.suffix_cons separator back).trans (List.suffix_append front _)).isInfix

theorem infix_intercalate (alone : separator ∉ word) {parts : List (List α)} (some : parts ≠ []) :
    word <:+: [separator].intercalate parts ↔ ∃ part ∈ parts, word <:+: part := by
  induction parts with
  | nil => exact absurd rfl some
  | cons part parts ih =>
    cases parts with
    | nil => simp
    | cons next parts =>
      rw [List.intercalate_cons_cons, List.append_assoc, List.singleton_append, infix_separated alone,
        ih (List.cons_ne_nil next parts)]
      exact (List.exists_mem_cons_iff _ part (next :: parts)).symm

/-- A word without the separator occurs in a text exactly when it occurs in a part of it. -/
theorem infix_splitOn [BEq α] [LawfulBEq α] (alone : separator ∉ word) {text : List α} :
    word <:+: text ↔ ∃ part ∈ text.splitOn separator, word <:+: part := by
  rw [← infix_intercalate alone (List.splitOn_ne_nil separator text), List.intercalate_splitOn]

/-- The same for several separators. -/
theorem infix_splitOnP {p : α → Bool} (alone : ∀ c ∈ word, p c = false) {text : List α} :
    word <:+: text ↔ ∃ part ∈ text.splitOnP p, word <:+: part := by
  -- the part in progress is put in front of the rest of the text
  suffices every : ∀ front : List α, (∀ c ∈ front, p c = false) →
      (word <:+: front ++ text ↔ ∃ part ∈ (front ++ text).splitOnP p, word <:+: part) from every [] nofun
  induction text with
  | nil =>
    intro front plain
    rw [List.append_nil, List.splitOnP_eq_singleton plain]
    simp
  | cons c text ih =>
    intro front plain
    cases separates : p c with
    | true =>
      have absent : c ∉ word := fun member => Bool.false_ne_true ((alone c member).symm.trans separates)
      rw [List.splitOnP_append_cons_of_forall_mem plain c separates, infix_separated absent, List.exists_mem_cons_iff]
      exact or_congr_right (ih [] nofun)
    | false =>
      have longer := ih (front ++ [c])
      rw [List.append_assoc, List.singleton_append] at longer
      apply longer
      intro other member
      rcases List.mem_append.mp member with old | new
      · exact plain other old
      · exact List.mem_singleton.mp new ▸ separates

end within

/-- A visible text occurs in another one exactly when it occurs in a word of it. -/
theorem infix_splitWords {word : List Char} (isWord : Word word) :
    word <:+: text ↔ ∃ part ∈ splitWords text, word <:+: part := by
  rw [infix_splitOnP isWord.visible]
  constructor
  · rintro ⟨part, member, inside⟩
    refine ⟨part, List.mem_filter.mpr ⟨member, decide_eq_true ?_⟩, inside⟩
    rintro rfl
    exact isWord.nonempty (List.infix_nil.mp inside)
  · rintro ⟨part, member, inside⟩
    exact ⟨part, (List.mem_filter.mp member).1, inside⟩

theorem splitLinesFrom_cons (plain : isLineBreak c = false) (line rest : List Char) :
    splitLinesFrom line (c :: rest) = splitLinesFrom (c :: line) rest := by
  rw [splitLinesFrom.eq_3]
  · rw [if_neg (by rw [plain]; exact Bool.false_ne_true)]
  · rintro _ rfl
    exact absurd plain (by decide)

theorem splitLinesFrom_append {plain : List Char} (all : ∀ c ∈ plain, isLineBreak c = false) (line rest : List Char) :
    splitLinesFrom line (plain ++ rest) = splitLinesFrom (plain.reverse ++ line) rest := by
  induction plain generalizing line with
  | nil => rfl
  | cons c plain ih =>
    rw [List.cons_append, splitLinesFrom_cons (all c List.mem_cons_self),
      ih fun other member => all other (List.mem_cons_of_mem _ member),
      List.reverse_cons, List.append_assoc, List.singleton_append]

theorem splitLinesFrom_newline (line rest : List Char) :
    splitLinesFrom line ('\n' :: rest) = line.reverse :: splitLinesFrom [] rest := by
  rw [splitLinesFrom.eq_3]
  · exact if_pos (by decide)
  · nofun

/-- What `str.splitlines()` can return, if it is not empty. -/
structure Line (text : List Char) : Prop where
  nonempty : text ≠ []
  plain : ∀ c ∈ text, isLineBreak c = false

theorem splitLines_intercalate {lines : List (List Char)} (all : ∀ line ∈ lines, Line line) :
    splitLines (['\n'].intercalate lines) = lines := by
  induction lines with
  | nil => rfl
  | cons line lines ih =>
    have first := all line List.mem_cons_self
    have rest := ih fun other member => all other (List.mem_cons_of_mem _ member)
    unfold splitLines at rest ⊢
    cases lines with
    | nil =>
      rw [List.intercalate_singleton, ← List.append_nil line, splitLinesFrom_append first.plain, List.append_nil, splitLinesFrom,
        if_neg (by simpa using first.nonempty), List.reverse_reverse, List.append_nil]
    | cons next lines =>
      rw [List.intercalate_cons_cons, List.append_assoc, List.singleton_append, splitLinesFrom_append first.plain,
        splitLinesFrom_newline, rest, List.append_nil, List.reverse_reverse]

theorem plain_of_splitLinesFrom {line found : List Char} (plain : ∀ c ∈ line, isLineBreak c = false)
    (member : found ∈ splitLinesFrom line text) : ∀ c ∈ found, isLineBreak c = false := by
  have reversed : ∀ c ∈ line.reverse, isLineBreak c = false := fun c inside => plain c (List.mem_reverse.mp inside)
  induction line, text using splitLinesFrom.induct with
  | case1 => rw [splitLinesFrom, if_pos rfl] at member; cases member
  | case2 line nonempty =>
    rw [splitLinesFrom, if_neg nonempty, List.mem_singleton] at member
    rw [member]
    exact reversed
  | case3 line rest ih =>
    rw [splitLinesFrom] at member
    rcases List.mem_cons.mp member with rfl | later
    · exact reversed
    · exact ih nofun later nofun
  | case4 line c rest other breaks ih =>
    rw [splitLinesFrom.eq_3 _ _ _ other, if_pos breaks] at member
    rcases List.mem_cons.mp member with rfl | later
    · exact reversed
    · exact ih nofun later nofun
  | case5 line c rest other stays ih =>
    rw [splitLinesFrom.eq_3 _ _ _ other, if_neg stays] at member
    have longer : ∀ d ∈ c :: line, isLineBreak d = false := by
      intro d inside
      rcases List.mem_cons.mp inside with rfl | inside
      · exact Bool.not_eq_true _ ▸ stays
      · exact plain d inside
    exact ih longer member fun d inside => longer d (List.mem_reverse.mp inside)

theorem plain_of_splitLines {line : List Char} (member : line ∈ splitLines text) : ∀ c ∈ line, isLineBreak c = false :=
  plain_of_splitLinesFrom (fun _ inside => absurd inside List.not_mem_nil) member

section eraseDups
variable {α : Type} [DecidableEq α]

theorem nodup_eraseDups (values : List α) : values.eraseDups.Nodup := by
  induction length : values.length using Nat.strongRecOn generalizing values with
  | ind n ih =>
    cases values with
    | nil => exact List.nodup_nil
    | cons value values =>
      rw [List.eraseDups_cons, List.nodup_cons, List.mem_eraseDups]
      refine ⟨by simp, ih _ ?_ _ rfl⟩
      rw [← length]
      exact Nat.lt_succ_of_le (List.length_filter_le _ _)

theorem eraseDups_of_nodup {values : List α} (nodup : values.Nodup) : values.eraseDups = values := by
  induction values with
  | nil => rfl
  | cons value values ih =>
    obtain ⟨fresh, rest⟩ := List.nodup_cons.mp nodup
    rw [List.eraseDups_cons, List.filter_eq_self.mpr, ih rest]
    intro other member
    have different : other ≠ value := fun same => fresh (same ▸ member)
    simpa using different

theorem eraseDups_eq_nil {values : List α} : values.eraseDups = [] ↔ values = [] := by
  cases values <;> simp [List.eraseDups_cons]

end eraseDups

end Foundation
