import Mathlib.Data.List.Perm.Basic
import Mathlib.Data.List.Perm.Subperm
import Mathlib.Data.List.Nodup

/-! Values that are drawn once and then move from place to place. As long as no step
makes a copy of a value, no value is in two places. -/

namespace Foundation

universe u v

variable {α : Type u} {ν : Type v}

section places
variable {value : α → List ν} {places : List α} {index : Nat} {place : α}

theorem flatMap_take (found : places[index]? = some place) :
    (value place ++ (places.eraseIdx index).flatMap value).Perm (places.flatMap value) := by
  obtain ⟨inside, rfl⟩ := List.getElem?_eq_some_iff.mp found
  have moved := List.getElem_cons_eraseIdx_perm inside
  simpa only [List.flatMap_cons] using moved.flatMap_right value

theorem flatMap_set {updated : α} (found : places[index]? = some place) :
    (value place ++ (places.set index updated).flatMap value).Perm (value updated ++ places.flatMap value) := by
  obtain ⟨inside, rfl⟩ := List.getElem?_eq_some_iff.mp found
  have replaced := (List.set_perm_cons_eraseIdx inside updated).flatMap_right value
  have taken : (value places[index] ++ (places.eraseIdx index).flatMap value).Perm (places.flatMap value) := flatMap_take found
  rw [List.flatMap_cons] at replaced
  have shuffled : (value places[index] ++ (value updated ++ (places.eraseIdx index).flatMap value)).Perm
      (value updated ++ (value places[index] ++ (places.eraseIdx index).flatMap value)) := by
    rw [← List.append_assoc, ← List.append_assoc]
    exact List.perm_append_comm.append_right _
  exact (replaced.append_left _).trans (shuffled.trans (taken.append_left _))

end places

/-- No value is held twice, and each one was drawn. -/
structure Unique (held drawn : List ν) : Prop where
  nodup : held.Nodup
  drawn : ∀ value ∈ held, value ∈ drawn

theorem Unique.move {held next drawn : List ν} (unique : Unique held drawn) (fewer : next.Subperm held) : Unique next drawn := by
  obtain ⟨same, perm, sublist⟩ := fewer
  refine ⟨perm.nodup_iff.mp (unique.nodup.sublist sublist), ?_⟩
  intro value member
  exact unique.drawn value (sublist.subset (perm.mem_iff.mpr member))

theorem Unique.draw {held next drawn : List ν} {fresh : List ν} (unique : Unique held drawn) (single : fresh.Nodup)
    (new : ∀ value ∈ fresh, value ∉ drawn) (fewer : next.Subperm (fresh ++ held)) : Unique next (fresh ++ drawn) := by
  have joined : Unique (fresh ++ held) (fresh ++ drawn) := by
    refine ⟨List.nodup_append.mpr ⟨single, unique.nodup, ?_⟩, ?_⟩
    · rintro value inside _ member rfl
      exact new value inside (unique.drawn value member)
    · intro value member
      rcases List.mem_append.mp member with inside | inside
      · exact List.mem_append_left _ inside
      · exact List.mem_append_right _ (unique.drawn value inside)
  exact joined.move fewer

end Foundation
