import Satoidc.Foundation.Table

/-! Tables whose rows are never deleted or moved. What a query finds first it finds
first ever after, and of a row only that changes what a relation allows. -/

namespace Foundation

universe u v

variable {ρ : Type u} {κ : Type v} {since : ρ → ρ → Prop} {before middle after : List ρ}

/-- The rows are in place, each as the relation allows, and new ones follow them. -/
def Extends (since : ρ → ρ → Prop) (before after : List ρ) : Prop :=
  ∃ change fresh, after = before.map change ++ fresh ∧ ∀ row, since row (change row)

namespace Extends

theorem append (refl : ∀ row, since row row) (rows fresh : List ρ) : Extends since rows (rows ++ fresh) :=
  ⟨id, fresh, by rw [List.map_id], refl⟩

theorem refl (refl : ∀ row, since row row) (rows : List ρ) : Extends since rows rows := by
  have same := append refl rows []
  rwa [List.append_nil] at same

theorem trans (trans : ∀ {first second third}, since first second → since second third → since first third)
    (left : Extends since before middle) (right : Extends since middle after) : Extends since before after := by
  obtain ⟨change, fresh, rfl, allowed⟩ := left
  obtain ⟨again, newer, rfl, further⟩ := right
  refine ⟨again ∘ change, fresh.map again ++ newer, ?_, fun row => trans (allowed row) (further _)⟩
  rw [List.map_append, List.map_map, List.append_assoc]

theorem update {selected : ρ → Prop} [DecidablePred selected] {change : ρ → ρ} (refl : ∀ row, since row row)
    (allowed : ∀ row, since row (change row)) (rows : List ρ) : Extends since rows (update selected change rows) := by
  refine ⟨fun row => if selected row then change row else row, [], (List.append_nil _).symm, ?_⟩
  intro row
  dsimp only
  split
  · exact allowed row
  · exact refl row

/-- The first row with a key is still the first one. -/
theorem lookup [DecidableEq κ] {key : ρ → κ} (held : Extends since before after)
    (keeps : ∀ row later, since row later → key later = key row) {k : κ} {row : ρ} (found : lookup key before k = some row) :
    ∃ later, Foundation.lookup key after k = some later ∧ since row later := by
  obtain ⟨change, fresh, rfl, allowed⟩ := held
  refine ⟨change row, ?_, allowed row⟩
  have same : (fun row => decide (key row = k)) ∘ change = fun row => decide (key row = k) := by
    funext row
    rw [Function.comp_apply, keeps row _ (allowed row)]
  unfold Foundation.lookup at found ⊢
  rw [List.find?_append, List.find?_map, same, found]
  rfl

end Extends

end Foundation
