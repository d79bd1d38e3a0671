import Mathlib.Data.Option.Basic
import Mathlib.Data.Prod.Basic
import Satoidc.Foundation.Table

/-! Python dictionaries: entries in insertion order, one for each key. Two
dictionaries with the same entries in another order differ, as their JSON does. -/

namespace Foundation

universe u v

@[ext] structure Dict (κ : Type u) (ν : Type v) where
  entries : List (κ × ν)
  keyed : Keyed Prod.fst entries
  deriving DecidableEq

namespace Dict

variable {κ : Type u} {ν : Type v} [DecidableEq κ]

/-- `dict.get(key)`. -/
def get (dict : Dict κ ν) (key : κ) : Option ν := (lookup Prod.fst dict.entries key).map Prod.snd

omit [DecidableEq κ] in
def empty : Dict κ ν := ⟨[], List.nodup_nil⟩

/-- `dict[key] = value`, which leaves the key where it is if the dictionary has it. -/
def set (dict : Dict κ ν) (key : κ) (value : ν) : Dict κ ν :=
  if absent : ∀ entry ∈ dict.entries, entry.1 ≠ key then
    ⟨dict.entries ++ [(key, value)], Keyed.append_singleton.mpr ⟨dict.keyed, absent⟩⟩
  else
    ⟨update (fun entry => entry.1 = key) (fun entry => (entry.1, value)) dict.entries, dict.keyed.update fun _ => rfl⟩

/-- `dict.pop(key, None)`. -/
def pop (dict : Dict κ ν) (key : κ) : Dict κ ν :=
  ⟨dict.entries.filter fun entry => entry.1 ≠ key, dict.keyed.filter _⟩

/-- `dict.update(entries)`, and the value of a literal with these entries. -/
def setAll (dict : Dict κ ν) (entries : List (κ × ν)) : Dict κ ν :=
  entries.foldl (fun dict entry => dict.set entry.1 entry.2) dict

variable {dict : Dict κ ν} {key other : κ} {value : ν}

@[simp] theorem get_empty : (empty : Dict κ ν).get key = none := rfl

theorem lookup_replaced (entries : List (κ × ν)) :
    lookup Prod.fst (update (fun entry => entry.1 = key) (fun entry => (entry.1, value)) entries) other =
      (lookup Prod.fst entries other).map fun entry => if entry.1 = key then (entry.1, value) else entry :=
  lookup_update fun _ => rfl

theorem get_set_self : (dict.set key value).get key = some value := by
  unfold set get
  split
  next absent =>
    have missing : lookup Prod.fst dict.entries key = none := lookup_none.mpr absent
    simp [lookup_append_singleton, missing]
  next present =>
    rw [lookup_replaced]
    cases found : lookup Prod.fst dict.entries key with
    | none => exact absurd (lookup_none.mp found) present
    | some entry => simp [(mem_of_lookup found).2]

theorem get_set_other (different : other ≠ key) : (dict.set key value).get other = dict.get other := by
  unfold set get
  split
  next absent => simp [lookup_append_singleton, different.symm]
  next present =>
    rw [lookup_replaced]
    cases found : lookup Prod.fst dict.entries other with
    | none => rfl
    | some entry => simp [(mem_of_lookup found).2, different]

theorem get_set : (dict.set key value).get other = if other = key then some value else dict.get other := by
  split
  next same => rw [same, get_set_self]
  next different => exact get_set_other different

theorem get_pop : (dict.pop key).get other = if other = key then none else dict.get other := by
  unfold pop get lookup
  rw [List.find?_filter]
  split
  next same =>
    subst same
    simp
  next different =>
    congr 2
    funext entry
    by_cases hit : entry.1 = other
    · simp [hit, different]
    · simp [hit]

omit [DecidableEq κ] in
def keys (dict : Dict κ ν) : List κ := dict.entries.map Prod.fst

theorem mem_keys : key ∈ dict.keys ↔ dict.get key ≠ none := by
  rw [Ne, get, Option.map_eq_none_iff, lookup_none, keys, List.mem_map]
  push Not
  exact Iff.rfl

theorem keys_set : (dict.set key value).keys = if key ∈ dict.keys then dict.keys else dict.keys ++ [key] := by
  have missing : (∀ entry ∈ dict.entries, entry.1 ≠ key) ↔ key ∉ dict.keys := by
    simp only [keys, List.mem_map, not_exists, not_and]
  unfold set
  split
  next absent => rw [if_neg (missing.mp absent), keys, List.map_append]; rfl
  next present =>
    rw [if_pos (not_not.mp (missing.not.mp present))]
    exact update_keys fun _ => rfl

theorem mem_keys_setAll {entries : List (κ × ν)} :
    key ∈ (dict.setAll entries).keys ↔ key ∈ dict.keys ∨ key ∈ entries.map Prod.fst := by
  induction entries generalizing dict with
  | nil => simp [setAll]
  | cons entry entries ih =>
    have added : key ∈ (dict.set entry.1 entry.2).keys ↔ key ∈ dict.keys ∨ key = entry.1 := by
      rw [mem_keys, mem_keys, get_set]
      by_cases same : key = entry.1
      · simp [same]
      · simp [same]
    rw [setAll, List.foldl_cons, ← setAll, ih, added, List.map_cons, List.mem_cons, or_assoc]

theorem entries_eq_nil : dict.entries = [] ↔ ∀ key, dict.get key = none := by
  constructor
  · intro bare key
    rw [get, bare]
    rfl
  · intro missing
    rw [← List.map_eq_nil_iff, ← keys]
    apply List.eq_nil_iff_forall_not_mem.mpr
    intro key member
    exact mem_keys.mp member (missing key)

/-- What a dictionary holds is its keys in their order and their values. -/
theorem eq_iff {first second : Dict κ ν} : first = second ↔ first.keys = second.keys ∧
    ∀ key, first.get key = second.get key := by
  constructor
  · intro same
    rw [same]
    exact ⟨rfl, fun _ => rfl⟩
  · intro ⟨order, values⟩
    have spelled : ∀ dict : Dict κ ν, dict.entries.map (Prod.map id some) = dict.keys.map fun key => (key, dict.get key) := by
      intro dict
      rw [keys, List.map_map]
      apply List.map_congr_left
      intro entry member
      have found : lookup Prod.fst dict.entries entry.1 = some entry := (lookup_some dict.keyed).mpr ⟨member, rfl⟩
      simp [Prod.map, get, found]
    have same : first.entries.map (Prod.map id some) = second.entries.map (Prod.map id some) := by
      rw [spelled, spelled, order]
      simp only [values]
    apply Dict.ext
    exact List.map_injective_iff.mpr (Function.Injective.prodMap Function.injective_id (Option.some_injective ν)) same

end Dict

end Foundation
