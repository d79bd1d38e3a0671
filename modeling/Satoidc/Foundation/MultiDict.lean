import Satoidc.Foundation.Dict

/-! Names with values in the order in which a query or a form lists them, a name as
often as it has values, and the dictionaries that are built from them one key at a time. -/

namespace Foundation

universe u v w

variable {κ : Type u} {ν : Type v} {μ : Type w} [DecidableEq κ]

/-- `MultiDict.getlist(key)`. -/
def valuesOf (pairs : List (κ × ν)) (key : κ) : List ν := (pairs.filter fun pair => pair.1 = key).map Prod.snd

theorem valuesOf_eq_nil {pairs : List (κ × ν)} {key : κ} : valuesOf pairs key = [] ↔ key ∉ pairs.map Prod.fst := by
  rw [valuesOf, List.map_eq_nil_iff, List.filter_eq_nil_iff, List.mem_map, not_exists]
  constructor
  · intro absent pair held
    exact absent pair held.1 (decide_eq_true held.2)
  · intro absent pair member same
    exact absent pair ⟨member, of_decide_eq_true same⟩

/-- The values, if there are any. -/
def nonempty : List ν → Option (List ν)
  | [] => none
  | values => some values

theorem nonempty_map (f : ν → μ) (values : List ν) : nonempty (values.map f) = (nonempty values).map (List.map f) := by
  cases values <;> rfl

/-- Each name with the list of its values, in the order of their first mentions. -/
def grouped (pairs : List (κ × ν)) : Dict κ (List ν) :=
  pairs.foldl (fun dict pair => dict.set pair.1 ((dict.get pair.1).getD [] ++ [pair.2])) .empty

theorem grouped_from (pairs : List (κ × ν)) (dict : Dict κ (List ν)) (key : κ) :
    (pairs.foldl (fun dict pair => dict.set pair.1 ((dict.get pair.1).getD [] ++ [pair.2])) dict).get key =
      if valuesOf pairs key = [] then dict.get key else some ((dict.get key).getD [] ++ valuesOf pairs key) := by
  induction pairs generalizing dict with
  | nil => rfl
  | cons pair pairs ih =>
    rw [List.foldl_cons, ih, Dict.get_set]
    by_cases same : pair.1 = key
    · have added : valuesOf (pair :: pairs) key = pair.2 :: valuesOf pairs key := by
        rw [valuesOf, List.filter_cons_of_pos (by simpa using same)]
        rfl
      rw [added, if_pos same.symm, if_neg (List.cons_ne_nil _ _), same]
      split
      next last => rw [last]
      next => rw [Option.getD_some, List.append_assoc, List.singleton_append]
    · have skipped : valuesOf (pair :: pairs) key = valuesOf pairs key := by
        rw [valuesOf, List.filter_cons_of_neg (by simpa using same)]
        rfl
      rw [skipped, if_neg (Ne.symm same)]

/-- Grouping loses nothing: each name keeps all its values in order. -/
theorem get_grouped (pairs : List (κ × ν)) (key : κ) : (grouped pairs).get key = nonempty (valuesOf pairs key) := by
  rw [grouped, grouped_from]
  cases valuesOf pairs key <;> rfl

theorem valuesOf_append (front back : List (κ × ν)) (key : κ) :
    valuesOf (front ++ back) key = valuesOf front key ++ valuesOf back key := by
  rw [valuesOf, List.filter_append, List.map_append]
  rfl

theorem valuesOf_cons (pair : κ × ν) (pairs : List (κ × ν)) (key : κ) :
    valuesOf (pair :: pairs) key = if pair.1 = key then pair.2 :: valuesOf pairs key else valuesOf pairs key := by
  unfold valuesOf
  split
  next same => rw [List.filter_cons_of_pos (by simpa using same), List.map_cons]
  next other => rw [List.filter_cons_of_neg (by simpa using other)]

/-- Renaming the keys apart leaves each with its values. -/
theorem valuesOf_map {κ' : Type u} {ν' : Type v} [DecidableEq κ'] {rename : κ → κ'}
    (apart : Function.Injective rename) (change : ν → ν')
    (pairs : List (κ × ν)) (key : κ) :
    valuesOf (pairs.map fun pair => (rename pair.1, change pair.2)) (rename key) = (valuesOf pairs key).map change := by
  induction pairs with
  | nil => rfl
  | cons pair pairs ih =>
    rw [List.map_cons, valuesOf_cons, valuesOf_cons, ih]
    by_cases same : pair.1 = key
    · rw [if_pos same, if_pos (congrArg rename same), List.map_cons]
    · rw [if_neg same, if_neg (apart.ne same)]

theorem get_setAll (dict : Dict κ ν) (pairs : List (κ × ν)) (key : κ) :
    (dict.setAll pairs).get key = (valuesOf pairs key).getLast?.or (dict.get key) := by
  induction pairs generalizing dict with
  | nil => rfl
  | cons pair pairs ih =>
    rw [Dict.setAll, List.foldl_cons, ← Dict.setAll, ih, valuesOf_cons, Dict.get_set]
    by_cases same : pair.1 = key
    · rw [if_pos same, if_pos same.symm, List.getLast?_cons]
      cases (valuesOf pairs key).getLast? <;> rfl
    · rw [if_neg same, if_neg (Ne.symm same)]

theorem valuesOf_entries (dict : Dict κ ν) (key : κ) : valuesOf dict.entries key = (dict.get key).toList := by
  obtain ⟨entries, keyed⟩ := dict
  unfold Dict.get
  dsimp only
  induction entries with
  | nil => rfl
  | cons entry entries ih =>
    have apart := (List.nodup_cons.mp keyed).1
    rw [valuesOf_cons]
    by_cases same : entry.1 = key
    · have found : lookup Prod.fst (entry :: entries) key = some entry := List.find?_cons_of_pos (decide_eq_true same)
      rw [if_pos same, valuesOf_eq_nil.mpr (same ▸ apart), found]
      rfl
    · have later : lookup Prod.fst (entry :: entries) key = lookup Prod.fst entries key :=
        List.find?_cons_of_neg (by simpa using same)
      rw [if_neg same, ih (List.nodup_cons.mp keyed).2, later]

/-- A loop that sees each entry once, and may set its key to a value that it makes of
the entry and of what the dictionary has for the key. -/
def setEach (change : κ × ν → Option μ → Option μ) (dict : Dict κ μ) (entries : List (κ × ν)) : Dict κ μ :=
  entries.foldl (fun dict entry => (change entry (dict.get entry.1)).elim dict (dict.set entry.1)) dict

theorem get_setEach {change : κ × ν → Option μ → Option μ} {entries : List (κ × ν)} (keyed : Keyed Prod.fst entries)
    (dict : Dict κ μ) (key : κ) :
    (setEach change dict entries).get key =
      ((lookup Prod.fst entries key).bind fun entry => change entry (dict.get key)).or (dict.get key) := by
  induction entries generalizing dict with
  | nil => rfl
  | cons entry entries ih =>
    have apart : ∀ other ∈ entries, other.1 ≠ entry.1 := by
      intro other member same
      exact (List.nodup_cons.mp keyed).1 (List.mem_map.mpr ⟨other, member, same⟩)
    rw [setEach, List.foldl_cons, ← setEach, ih (List.nodup_cons.mp keyed).2]
    by_cases same : entry.1 = key
    · have missing : lookup Prod.fst entries key = none := lookup_none.mpr fun other member => same ▸ apart other member
      have found : lookup Prod.fst (entry :: entries) key = some entry := List.find?_cons_of_pos (decide_eq_true same)
      rw [missing, found, same, Option.bind_none, Option.none_or, Option.bind_some]
      cases change entry (dict.get key) with
      | none => rfl
      | some value => rw [Option.elim_some, Dict.get_set_self, Option.some_or]
    · have later : lookup Prod.fst (entry :: entries) key = lookup Prod.fst entries key :=
        List.find?_cons_of_neg (by simpa using same)
      have kept : ((change entry (dict.get entry.1)).elim dict (dict.set entry.1)).get key = dict.get key := by
        cases change entry (dict.get entry.1) with
        | none => rfl
        | some value => exact Dict.get_set_other (Ne.symm same)
      rw [later, kept]

end Foundation
