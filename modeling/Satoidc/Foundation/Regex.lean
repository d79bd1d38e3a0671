import Mathlib.Data.List.Basic
import Mathlib.Data.Nat.Basic

/-! Regular expressions as Python's `re` reads them. Where a pattern matches is given by
what is left of the text behind each of its matches; which of them a backtracking
search finds first makes no difference to whether there is one. -/

namespace Foundation

inductive Regex where
  | one (accepts : Char → Bool)
  | seq (first second : Regex)
  | optional (inner : Regex)
  | repeated (inner : Regex) (low : Nat) (high : Option Nat)
  | ahead (inner : Regex)
  | start
  | finish

namespace Regex

/-- `count` matches in a row. -/
def iterate (step : List Char → List (List Char)) : Nat → List Char → List (List Char)
  | 0, rest => [rest]
  | count + 1, rest => (step rest).flatMap (iterate step count)

/-- What the matches of a pattern in front of `rest`, the end of `text`, can leave. A
repetition without an upper bound need not match more often than there are characters. -/
def rests (text : List Char) : Regex → List Char → List (List Char)
  | .one _, [] => []
  | .one accepts, c :: rest => if accepts c then [rest] else []
  | .seq first second, rest => (rests text first rest).flatMap (rests text second)
  | .optional inner, rest => rest :: rests text inner rest
  | .repeated inner low high, rest =>
    ((List.range (high.getD (low + rest.length) + 1)).filter (low ≤ ·)).flatMap fun count =>
      iterate (rests text inner) count rest
  | .ahead inner, rest => if rests text inner rest = [] then [] else [rest]
  | .start, rest => if rest.length = text.length then [rest] else []
  | .finish, rest => if rest = [] ∨ rest = ['\n'] then [rest] else []

attribute [local simp] rests

/-- `re.compile(...).fullmatch(text)`. -/
def fullmatch (regex : Regex) (text : List Char) : Bool := (rests text regex text).any List.isEmpty

variable {text rest later : List Char} {first second inner : Regex} {accepts : Char → Bool} {low : Nat}

theorem mem_one : later ∈ rests text (.one accepts) rest ↔ ∃ c, accepts c = true ∧ rest = c :: later := by
  cases rest with
  | nil => simp
  | cons c rest =>
    rw [rests]
    split
    next accepted =>
      rw [List.mem_singleton]
      constructor
      · rintro rfl
        exact ⟨c, accepted, rfl⟩
      · rintro ⟨d, -, same⟩
        exact (List.cons.inj same).2.symm
    next refused =>
      refine ⟨fun impossible => (by cases impossible), ?_⟩
      rintro ⟨d, accepted, same⟩
      rw [(List.cons.inj same).1] at refused
      exact absurd accepted refused

theorem mem_seq : later ∈ rests text (.seq first second) rest ↔
    ∃ middle ∈ rests text first rest, later ∈ rests text second middle := by
  rw [rests, List.mem_flatMap]

theorem mem_optional : later ∈ rests text (.optional inner) rest ↔ later = rest ∨ later ∈ rests text inner rest := by
  rw [rests, List.mem_cons]

theorem mem_ahead : later ∈ rests text (.ahead inner) rest ↔ later = rest ∧ ∃ found, found ∈ rests text inner rest := by
  rw [rests]
  split
  next none' =>
    rw [none']
    exact ⟨fun impossible => (by cases impossible), fun ⟨_, _, impossible⟩ => (by cases impossible)⟩
  next some' =>
    rw [List.mem_singleton]
    exact ⟨fun same => ⟨same, List.exists_mem_of_ne_nil _ some'⟩, And.left⟩

theorem mem_start : later ∈ rests text .start rest ↔ later = rest ∧ rest.length = text.length := by
  rw [rests]
  split
  next same => simp [same]
  next different => simp [different]

theorem mem_finish : later ∈ rests text .finish rest ↔ later = rest ∧ (rest = [] ∨ rest = ['\n']) := by
  rw [rests]
  split
  next same => simp only [List.mem_singleton, same, and_true]
  next different => simp only [List.not_mem_nil, different, and_false]

theorem fullmatch_iff {regex : Regex} : fullmatch regex text = true ↔ [] ∈ rests text regex text := by
  simp [fullmatch]

/-- A pattern between anchors matches a whole text when it leaves nothing of it. -/
theorem fullmatch_anchored : fullmatch (.seq .start (.seq inner .finish)) text = true ↔ [] ∈ rests text inner text := by
  rw [fullmatch_iff, mem_seq]
  simp only [mem_start, mem_seq, mem_finish]
  constructor
  · rintro ⟨_, ⟨rfl, -⟩, _, inside, rfl, -⟩
    exact inside
  · intro inside
    exact ⟨text, ⟨rfl, trivial⟩, [], inside, rfl, .inl rfl⟩

theorem mem_iterate_one {count : Nat} : later ∈ iterate (rests text (.one accepts)) count rest ↔
    ∃ front, rest = front ++ later ∧ front.length = count ∧ ∀ c ∈ front, accepts c = true := by
  induction count generalizing rest with
  | zero =>
    rw [iterate, List.mem_singleton]
    constructor
    · rintro rfl
      exact ⟨[], rfl, rfl, fun _ impossible => (by cases impossible)⟩
    · rintro ⟨front, same, bare, -⟩
      rw [same, List.length_eq_zero_iff.mp bare, List.nil_append]
  | succ count ih =>
    rw [iterate, List.mem_flatMap]
    constructor
    · rintro ⟨middle, head, tail⟩
      obtain ⟨c, accepted, rfl⟩ := mem_one.mp head
      obtain ⟨front, rfl, length, all⟩ := ih.mp tail
      exact ⟨c :: front, rfl, congrArg (· + 1) length, List.forall_mem_cons.mpr ⟨accepted, all⟩⟩
    · rintro ⟨front, rfl, length, all⟩
      cases front with
      | nil => cases length
      | cons c front =>
        obtain ⟨accepted, all⟩ := List.forall_mem_cons.mp all
        exact ⟨front ++ later, mem_one.mpr ⟨c, accepted, rfl⟩, ih.mpr ⟨front, rfl, Nat.succ.inj length, all⟩⟩

theorem mem_repeated_one {high : Nat} : later ∈ rests text (.repeated (.one accepts) low (some high)) rest ↔
    ∃ front, rest = front ++ later ∧ low ≤ front.length ∧ front.length ≤ high ∧ ∀ c ∈ front, accepts c = true := by
  simp only [rests, List.mem_flatMap, List.mem_filter, List.mem_range, Option.getD_some, decide_eq_true_eq, mem_iterate_one]
  constructor
  · rintro ⟨_, ⟨below, above⟩, front, same, rfl, all⟩
    exact ⟨front, same, above, Nat.lt_succ_iff.mp below, all⟩
  · rintro ⟨front, same, above, below, all⟩
    exact ⟨front.length, ⟨Nat.lt_succ_iff.mpr below, above⟩, front, same, rfl, all⟩

theorem mem_many_one : later ∈ rests text (.repeated (.one accepts) low none) rest ↔
    ∃ front, rest = front ++ later ∧ low ≤ front.length ∧ ∀ c ∈ front, accepts c = true := by
  simp only [rests, List.mem_flatMap, List.mem_filter, List.mem_range, Option.getD_none, decide_eq_true_eq, mem_iterate_one]
  constructor
  · rintro ⟨_, ⟨-, above⟩, front, same, rfl, all⟩
    exact ⟨front, same, above, all⟩
  · rintro ⟨front, rfl, above, all⟩
    refine ⟨front.length, ⟨?_, above⟩, front, rfl, rfl, all⟩
    rw [List.length_append]
    omega

/-- The lowercase of a character. No other character than these has a lowercase in ASCII. -/
def simpleLower (c : Char) : Char :=
  if 'A' ≤ c ∧ c ≤ 'Z' then c.toLower
  else if c.toNat = 0x130 then 'i'
  else if c.toNat = 0x212a then 'k'
  else c

/-- A class of lowercase characters under `re.IGNORECASE`: a dotless i is taken for an i,
and a long s for an s. -/
def ignoringCase (accepts : Char → Bool) (c : Char) : Bool :=
  let lower := simpleLower c
  accepts lower || (lower.toNat = 0x131 && accepts 'i') || (lower.toNat = 0x17f && accepts 's')

/-- The letters outside ASCII that are taken for ASCII letters when case is ignored. -/
def foldsIntoAscii (c : Char) : Bool := c.toNat = 0x130 || c.toNat = 0x131 || c.toNat = 0x17f || c.toNat = 0x212a

variable {c : Char}

theorem simpleLower_ordinary (ordinary : foldsIntoAscii c = false) : simpleLower c = c.toLower := by
  simp only [foldsIntoAscii, Bool.or_eq_false_iff, decide_eq_false_iff_not] at ordinary
  unfold simpleLower
  split
  next => rfl
  next other =>
    rw [if_neg ordinary.1.1.1, if_neg ordinary.2]
    unfold Char.toLower
    split
    next upper => exact absurd upper other
    next => rfl

theorem toNat_toLower_lt (changed : c.toLower ≠ c) : c.toLower.toNat < 128 := by
  unfold Char.toLower at changed ⊢
  split
  next upper =>
    obtain ⟨low, high⟩ := upper
    rw [ge_iff_le, UInt32.le_iff_toNat_le] at low
    rw [UInt32.le_iff_toNat_le] at high
    have A : 'A'.val.toNat = 65 := rfl
    have Z : 'Z'.val.toNat = 90 := rfl
    have offset : ('a'.val - 'A'.val).toNat = 32 := rfl
    change (c.val + ('a'.val - 'A'.val)).toNat < 128
    rw [UInt32.toNat_add]
    omega
  next other => exact absurd (dif_neg other) changed

/-- Any other character counts as its ASCII lowercase. -/
theorem ignoringCase_ordinary (ordinary : foldsIntoAscii c = false) : ignoringCase accepts c = accepts c.toLower := by
  have kept : c.toLower.toNat ≠ 0x131 ∧ c.toLower.toNat ≠ 0x17f := by
    by_cases changed : c.toLower = c
    · simp only [foldsIntoAscii, Bool.or_eq_false_iff, decide_eq_false_iff_not] at ordinary
      rw [changed]
      exact ⟨ordinary.1.1.2, ordinary.1.2⟩
    · have ascii := toNat_toLower_lt changed
      omega
  simp only [ignoringCase, simpleLower_ordinary ordinary, kept, decide_false, Bool.false_and, Bool.or_false]

theorem ignoringCase_folded (folded : foldsIntoAscii c = true) (i : accepts 'i' = true) (k : accepts 'k' = true)
    (s : accepts 's' = true) : ignoringCase accepts c = true := by
  have notUpper : ¬('A' ≤ c ∧ c ≤ 'Z') := by
    rintro ⟨-, high⟩
    rw [Char.le_def, UInt32.le_iff_toNat_le] at high
    have Z : 'Z'.val.toNat = 90 := rfl
    have value : c.val.toNat = c.toNat := rfl
    simp only [foldsIntoAscii, Bool.or_eq_true, decide_eq_true_eq] at folded
    omega
  simp only [foldsIntoAscii, Bool.or_eq_true, decide_eq_true_eq] at folded
  rcases folded with ((dotted | dotless) | long) | kelvin
  · simp [ignoringCase, simpleLower, notUpper, dotted, i]
  · simp [ignoringCase, simpleLower, notUpper, dotless, i]
  · simp [ignoringCase, simpleLower, notUpper, long, s]
  · simp [ignoringCase, simpleLower, notUpper, kelvin, k]

end Regex

end Foundation
