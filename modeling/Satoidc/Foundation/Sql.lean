import Mathlib.Data.List.Dedup
import Mathlib.Data.Set.Card

/-! Conditions of SQL queries. A condition is true, false or, where a null takes
part in a comparison, unknown; a query selects the rows whose condition is true. -/

namespace Foundation.Sql

universe u v

/-- A truth value; `none` is UNKNOWN. -/
abbrev Truth := Option Bool

namespace Truth

def and : Truth → Truth → Truth
  | some false, _ | _, some false => some false
  | some true, some true => some true
  | _, _ => none

def or : Truth → Truth → Truth
  | some true, _ | _, some true => some true
  | some false, some false => some false
  | _, _ => none

/-- `truth IS value`, which is never unknown. -/
def is (truth : Truth) (value : Bool) : Truth := some (truth = some value)

/-- `WHERE first AND second AND ...`. -/
def all (conditions : List Truth) : Truth := conditions.foldr and (some true)

@[simp] theorem and_true {left right : Truth} : left.and right = some true ↔ left = some true ∧ right = some true := by
  cases left with
  | none => rcases right with _ | _ | _ <;> simp [and]
  | some value => cases value <;> rcases right with _ | _ | _ <;> simp [and]

@[simp] theorem or_true {left right : Truth} : left.or right = some true ↔ left = some true ∨ right = some true := by
  cases left with
  | none => rcases right with _ | _ | _ <;> simp [or]
  | some value => cases value <;> rcases right with _ | _ | _ <;> simp [or]

@[simp] theorem is_true {truth : Truth} {value : Bool} : truth.is value = some true ↔ truth = some value := by
  simp [is]

@[simp] theorem all_true {conditions : List Truth} :
    all conditions = some true ↔ ∀ condition ∈ conditions, condition = some true := by
  induction conditions with
  | nil => simp [all]
  | cons condition conditions ih =>
    rw [all, List.foldr_cons, and_true, ← all, ih]
    simp

end Truth

section columns
variable {α : Type u}

/-- A comparison, unknown if either side is null. -/
def compare (relation : α → α → Bool) (left right : Option α) : Truth :=
  left.bind fun left => right.map fun right => relation left right

def isNull (column : Option α) : Truth := some column.isNone

def isIn [DecidableEq α] (column : Option α) (values : List α) : Truth := column.map fun value => value ∈ values

@[simp] theorem compare_true {relation : α → α → Bool} {column : Option α} {value : α} :
    compare relation column (some value) = some true ↔ ∃ stored, column = some stored ∧ relation stored value = true := by
  cases column <;> simp [compare]

@[simp] theorem isNull_true {column : Option α} : isNull column = some true ↔ column = none := by
  simp [isNull]

@[simp] theorem isIn_true [DecidableEq α] {column : Option α} {values : List α} :
    isIn column values = some true ↔ ∃ stored, column = some stored ∧ stored ∈ values := by
  simp [isIn]

end columns

section queries
variable {ρ : Type u} {κ : Type v} [DecidableEq κ]

/-- `SELECT ... WHERE condition`. -/
def select (condition : ρ → Truth) (rows : List ρ) : List ρ := rows.filter fun row => condition row = some true

theorem mem_select {condition : ρ → Truth} {rows : List ρ} {row : ρ} :
    row ∈ select condition rows ↔ row ∈ rows ∧ condition row = some true := by
  simp [select]

/-- `SELECT COUNT(DISTINCT column) ... WHERE condition`. -/
def countDistinct (column : ρ → κ) (condition : ρ → Truth) (rows : List ρ) : Nat :=
  ((select condition rows).map column).dedup.length

/-- The count is the number of values that the column has in some selected row. -/
theorem countDistinct_eq (column : ρ → κ) (condition : ρ → Truth) (rows : List ρ) :
    countDistinct column condition rows = {value | ∃ row ∈ rows, condition row = some true ∧ column row = value}.ncard := by
  have values : {value | ∃ row ∈ rows, condition row = some true ∧ column row = value} =
      (((select condition rows).map column).toFinset : Set κ) := by
    ext value
    simp [mem_select, and_assoc]
  rw [values, Set.ncard_coe_finset, List.card_toFinset, countDistinct]

end queries

end Foundation.Sql
