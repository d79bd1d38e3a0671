import Satoidc.Foundation.Text

/-! Stripped text: what `str.strip()` leaves, and which text it leaves alone. -/

namespace Foundation

variable {c : Char} {text : List Char}

/-- No whitespace at either end. -/
structure Trimmed (text : List Char) : Prop where
  head : ∀ c, text.head? = some c → isSpace c = false
  last : ∀ c, text.getLast? = some c → isSpace c = false

theorem Trimmed.of_visible (visible : ∀ c ∈ text, isSpace c = false) : Trimmed text :=
  ⟨fun c first => visible c (List.mem_of_mem_head? first), fun c last => visible c (List.mem_of_getLast? last)⟩

theorem dropWhile_eq_self {p : Char → Bool} (stops : ∀ c, text.head? = some c → p c = false) : text.dropWhile p = text := by
  cases text with
  | nil => rfl
  | cons first rest => rw [List.dropWhile_cons, stops first rfl, if_neg Bool.false_ne_true]

theorem rdropWhile_eq_self {p : Char → Bool} (stops : ∀ c, text.getLast? = some c → p c = false) : text.rdropWhile p = text := by
  rw [List.rdropWhile, dropWhile_eq_self, List.reverse_reverse]
  intro c first
  exact stops c (by rw [← List.head?_reverse]; exact first)

theorem strip_of_trimmed (trimmed : Trimmed text) : strip text = text := by
  rw [strip, dropWhile_eq_self trimmed.head, rdropWhile_eq_self trimmed.last]

theorem head_dropWhile {p : Char → Bool} (first : (text.dropWhile p).head? = some c) : p c = false := by
  induction text with
  | nil => cases first
  | cons head text ih =>
    rw [List.dropWhile_cons] at first
    split at first
    next => exact ih first
    next stays => cases first; exact Bool.not_eq_true _ ▸ stays

theorem head_rdropWhile {p : Char → Bool} (first : (text.rdropWhile p).head? = some c) : text.head? = some c := by
  obtain ⟨rest, joined⟩ := List.rdropWhile_prefix p text
  cases kept : text.rdropWhile p with
  | nil => rw [kept] at first; cases first
  | cons head tail =>
    rw [kept] at first joined
    rw [← joined]
    exact first

theorem strip_trimmed (text : List Char) : Trimmed (strip text) := by
  constructor
  · intro c first
    exact head_dropWhile (head_rdropWhile first)
  · intro c last
    rw [strip, List.rdropWhile, List.getLast?_reverse] at last
    exact head_dropWhile last

theorem strip_strip (text : List Char) : strip (strip text) = strip text := strip_of_trimmed (strip_trimmed text)

theorem strip_subset : strip text ⊆ text :=
  List.Subset.trans (List.rdropWhile_prefix _ _).subset (List.dropWhile_sublist _).subset

theorem mem_dropWhile {p : Char → Bool} (stops : p c = false) (member : c ∈ text) : c ∈ text.dropWhile p := by
  induction text with
  | nil => cases member
  | cons head text ih =>
    rw [List.dropWhile_cons]
    split
    next drops =>
      rcases List.mem_cons.mp member with rfl | inside
      · rw [stops] at drops; cases drops
      · exact ih inside
    next => exact member

/-- A visible character survives. -/
theorem mem_strip (visible : isSpace c = false) (member : c ∈ text) : c ∈ strip text := by
  rw [strip, List.rdropWhile, List.mem_reverse]
  exact mem_dropWhile visible (List.mem_reverse.mpr (mem_dropWhile visible member))

end Foundation
