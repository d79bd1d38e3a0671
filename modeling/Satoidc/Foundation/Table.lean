import Mathlib.Data.List.Nodup
import Mathlib.Data.List.Dedup
import Mathlib.Data.List.Pairwise

/-! Relational tables as lists of rows in insertion order. A table carries the
proof that its rows satisfy the constraints of its schema, so a write that would
break one has no result; that is the database's integrity error. -/

namespace Foundation

universe u v

variable {ρ : Type u} {κ : Type v}

/-- No two rows share a key: a primary key or a unique constraint. -/
def Keyed (key : ρ → κ) (rows : List ρ) : Prop := (rows.map key).Nodup

instance [DecidableEq κ] (key : ρ → κ) (rows : List ρ) : Decidable (Keyed key rows) :=
  inferInstanceAs (Decidable (rows.map key).Nodup)

theorem Keyed.unique {key : ρ → κ} {rows : List ρ} (keyed : Keyed key rows) {first second : ρ}
    (left : first ∈ rows) (right : second ∈ rows) (same : key first = key second) : first = second :=
  List.inj_on_of_nodup_map keyed left right same

theorem Keyed.append_singleton {key : ρ → κ} {rows : List ρ} {row : ρ} :
    Keyed key (rows ++ [row]) ↔ Keyed key rows ∧ ∀ other ∈ rows, key other ≠ key row := by
  simp only [Keyed, List.map_append, List.map_singleton, List.nodup_append, List.mem_singleton, List.mem_map]
  constructor
  · rintro ⟨keyed, -, apart⟩
    exact ⟨keyed, fun other member => apart _ ⟨other, member, rfl⟩ _ rfl⟩
  · rintro ⟨keyed, apart⟩
    refine ⟨keyed, List.nodup_singleton _, ?_⟩
    rintro _ ⟨other, member, rfl⟩ _ rfl
    exact apart other member

theorem Keyed.filter {key : ρ → κ} {rows : List ρ} (keyed : Keyed key rows) (selected : ρ → Bool) :
    Keyed key (rows.filter selected) :=
  keyed.sublist (List.filter_sublist.map key)

/-- No two rows share a non-null value of a column: a unique constraint on a
nullable column, which SQL does not apply to nulls. -/
def UniqueColumn (column : ρ → Option κ) (rows : List ρ) : Prop := (rows.filterMap column).Nodup

instance [DecidableEq κ] (column : ρ → Option κ) (rows : List ρ) : Decidable (UniqueColumn column rows) :=
  inferInstanceAs (Decidable (rows.filterMap column).Nodup)

theorem UniqueColumn.unique {column : ρ → Option κ} {rows : List ρ} (distinct : UniqueColumn column rows)
    {first second : ρ} {value : κ} (left : first ∈ rows) (right : second ∈ rows)
    (leftValue : column first = some value) (rightValue : column second = some value) : first = second := by
  by_contra different
  have apart := List.pairwise_filterMap.mp distinct
  have symmetric : Std.Symm fun a b => ∀ x, column a = some x → ∀ y, column b = some y → x ≠ y :=
    ⟨fun _ _ held _ shown _ stored same => held _ stored _ shown same.symm⟩
  exact apart.forall left right different value leftValue value rightValue rfl

theorem UniqueColumn.append_singleton {column : ρ → Option κ} {rows : List ρ} {row : ρ} :
    UniqueColumn column (rows ++ [row]) ↔
      UniqueColumn column rows ∧ ∀ value, column row = some value → ∀ other ∈ rows, column other ≠ some value := by
  simp only [UniqueColumn, List.filterMap_append, List.nodup_append, List.mem_filterMap]
  constructor
  · rintro ⟨distinct, -, apart⟩
    refine ⟨distinct, ?_⟩
    intro value held other member same
    exact apart value ⟨other, member, same⟩ value ⟨row, List.mem_singleton_self _, held⟩ rfl
  · rintro ⟨distinct, apart⟩
    refine ⟨distinct, ?_, ?_⟩
    · cases held : column row with
      | none => rw [List.filterMap_cons_none held]; exact List.nodup_nil
      | some value => rw [List.filterMap_cons_some held]; exact List.nodup_singleton _
    · rintro value ⟨other, member, same⟩ _ ⟨last, single, held⟩ rfl
      cases List.mem_singleton.mp single
      exact apart value held other member same

/-- `SELECT ... WHERE key = k`, first row. -/
def lookup [DecidableEq κ] (key : ρ → κ) (rows : List ρ) (k : κ) : Option ρ :=
  rows.find? fun row => key row = k

section lookup
variable [DecidableEq κ] {key : ρ → κ} {rows : List ρ} {k : κ}

theorem lookup_none : lookup key rows k = none ↔ ∀ row ∈ rows, key row ≠ k := by
  simp [lookup]

theorem mem_of_lookup {row : ρ} (found : lookup key rows k = some row) : row ∈ rows ∧ key row = k :=
  ⟨List.mem_of_find?_eq_some found, by simpa using List.find?_some found⟩

theorem lookup_some (keyed : Keyed key rows) {row : ρ} :
    lookup key rows k = some row ↔ row ∈ rows ∧ key row = k := by
  refine ⟨mem_of_lookup, ?_⟩
  rintro ⟨member, same⟩
  cases found : lookup key rows k with
  | none => exact absurd same (lookup_none.mp found row member)
  | some other =>
    obtain ⟨inside, equal⟩ := mem_of_lookup found
    rw [keyed.unique inside member (equal.trans same.symm)]

theorem lookup_append_singleton {row : ρ} :
    lookup key (rows ++ [row]) k = (lookup key rows k).or (if key row = k then some row else none) := by
  simp [lookup, List.find?_append, List.find?_singleton]

end lookup

def nextId (id : ρ → Nat) (rows : List ρ) : Nat :=
  (rows.map id).foldr max 0 + 1

theorem lt_nextId {id : ρ → Nat} {rows : List ρ} {row : ρ} (member : row ∈ rows) : id row < nextId id rows := by
  induction rows with
  | nil => cases member
  | cons head rows ih =>
    simp only [nextId, List.map_cons, List.foldr_cons] at ih ⊢
    rcases List.mem_cons.mp member with rfl | member
    · omega
    · have bound := ih member
      omega

/-- `UPDATE ... SET change WHERE selected`. -/
def update (selected : ρ → Prop) [DecidablePred selected] (change : ρ → ρ) (rows : List ρ) : List ρ :=
  rows.map fun row => if selected row then change row else row

section update
variable {selected : ρ → Prop} [DecidablePred selected] {change : ρ → ρ} {rows : List ρ}

theorem mem_update {row : ρ} :
    row ∈ update selected change rows ↔ ∃ old ∈ rows, (if selected old then change old else old) = row :=
  List.mem_map

theorem mem_update_of_selected {old : ρ} (member : old ∈ rows) (hit : selected old) :
    change old ∈ update selected change rows :=
  mem_update.mpr ⟨old, member, if_pos hit⟩

theorem mem_update_of_not_selected {old : ρ} (member : old ∈ rows) (missed : ¬ selected old) :
    old ∈ update selected change rows :=
  mem_update.mpr ⟨old, member, if_neg missed⟩

theorem update_same (same : ∀ row ∈ rows, selected row → change row = row) : update selected change rows = rows := by
  refine (List.map_congr_left ?_).trans (List.map_id rows)
  intro row member
  by_cases hit : selected row
  · rw [if_pos hit, same row member hit, id]
  · rw [if_neg hit, id]

theorem update_keys {key : ρ → κ} (keeps : ∀ row, key (change row) = key row) :
    (update selected change rows).map key = rows.map key := by
  rw [update, List.map_map]
  apply List.map_congr_left
  intro row _
  by_cases hit : selected row
  · simp [hit, keeps]
  · simp [hit]

theorem Keyed.update {key : ρ → κ} (keyed : Keyed key rows) (keeps : ∀ row, key (change row) = key row) :
    Keyed key (Foundation.update selected change rows) := by
  unfold Keyed
  rw [update_keys keeps]
  exact keyed

theorem lookup_update [DecidableEq κ] {key : ρ → κ} {k : κ} (keeps : ∀ row, key (change row) = key row) :
    lookup key (update selected change rows) k =
      (lookup key rows k).map fun row => if selected row then change row else row := by
  rw [lookup, update, List.find?_map]
  congr 2
  funext row
  by_cases hit : selected row
  · simp [hit, keeps]
  · simp [hit]

/-- An update that only clears values of a nullable unique column keeps it unique. -/
theorem UniqueColumn.update {column : ρ → Option κ} (distinct : UniqueColumn column rows)
    (clears : ∀ row ∈ rows, selected row → column (change row) = column row ∨ column (change row) = none) :
    UniqueColumn column (Foundation.update selected change rows) := by
  refine distinct.sublist ?_
  clear distinct
  induction rows with
  | nil => exact List.Sublist.refl _
  | cons row rows ih =>
    have rest := ih fun other member => clears other (List.mem_cons_of_mem _ member)
    have tail : (List.filterMap column (Foundation.update selected change rows)).Sublist
        (List.filterMap column (row :: rows)) := rest.trans ((List.sublist_cons_self row rows).filterMap column)
    by_cases hit : selected row
    · rcases clears row List.mem_cons_self hit with same | cleared
      · simp only [Foundation.update, List.map_cons, hit, ite_true]
        cases shown : column row with
        | none => rw [List.filterMap_cons_none (same.trans shown)]; exact tail
        | some value =>
          rw [List.filterMap_cons_some (same.trans shown), List.filterMap_cons_some shown]
          exact rest.cons_cons value
      · simp only [Foundation.update, List.map_cons, hit, ite_true]
        rw [List.filterMap_cons_none cleared]
        exact tail
    · simp only [Foundation.update, List.map_cons, hit, ite_false]
      cases shown : column row with
      | none => rw [List.filterMap_cons_none shown]; exact tail
      | some value =>
        rw [List.filterMap_cons_some shown, List.filterMap_cons_some shown]
        exact rest.cons_cons value

/-- An update of one row to a value that no other row has keeps a unique column unique. -/
theorem UniqueColumn.assign {key : ρ → κ} {ν : Type v} {column : ρ → Option ν} [DecidableEq κ] {k : κ} {value : ν}
    (distinct : UniqueColumn column rows) (keyed : Keyed key rows) (sets : ∀ row, column (change row) = some value)
    (free : ∀ row ∈ rows, column row = some value → key row = k) :
    UniqueColumn column (Foundation.update (fun row => key row = k) change rows) := by
  unfold UniqueColumn at distinct ⊢
  rw [Foundation.update, List.filterMap_map, List.Nodup, List.pairwise_filterMap]
  have apart := (List.pairwise_filterMap.mp distinct).and (List.pairwise_map.mp keyed)
  refine apart.imp_of_mem ?_
  intro first second left right ⟨others, keys⟩ a held b shown
  simp only [Function.comp_apply] at held shown
  split at held
  next hit =>
    cases held.symm.trans (sets first)
    rw [if_neg fun also => keys (hit.trans also.symm)] at shown
    rintro rfl
    exact keys (hit.trans (free second right shown).symm)
  next missed =>
    split at shown
    next hit =>
      cases shown.symm.trans (sets second)
      rintro rfl
      exact missed (free first left held)
    next => exact others a held b shown

end update

/-- One column of an ORM flush: it is written only if the session changed the
value it had loaded, and otherwise keeps whatever is stored by now. -/
def writeColumn {α : Type u} [DecidableEq α] (loaded updated stored : α) : α :=
  if updated = loaded then stored else updated

@[simp] theorem writeColumn_current {α : Type u} [DecidableEq α] (loaded updated : α) :
    writeColumn loaded updated loaded = updated := by
  unfold writeColumn
  split
  next same => exact same.symm
  next => rfl

@[simp] theorem writeColumn_written {α : Type u} [DecidableEq α] (loaded updated : α) :
    writeColumn loaded updated updated = updated := by
  unfold writeColumn
  split <;> rfl

theorem writeColumn_unchanged {α : Type u} [DecidableEq α] (loaded stored : α) :
    writeColumn loaded loaded stored = stored := if_pos rfl

theorem writeColumn_cases {α : Type u} [DecidableEq α] (loaded updated stored : α) :
    writeColumn loaded updated stored = stored ∨ writeColumn loaded updated stored = updated := by
  unfold writeColumn
  split
  · exact .inl rfl
  · exact .inr rfl

/-- The content of a table, with the constraints its schema declares. -/
@[ext] structure Table (ρ : Type u) (constraints : List ρ → Prop) where
  rows : List ρ
  valid : constraints rows

namespace Table
variable {constraints : List ρ → Prop}

/-- The database accepts new content only when every constraint holds of it. -/
def store [DecidablePred constraints] (rows : List ρ) : Option (Table ρ constraints) :=
  if valid : constraints rows then some ⟨rows, valid⟩ else none

theorem store_some [DecidablePred constraints] {rows : List ρ} {table : Table ρ constraints} :
    store rows = some table ↔ table.rows = rows := by
  unfold store
  constructor
  · intro stored
    split at stored
    · cases stored; rfl
    · cases stored
  · rintro rfl
    rw [dif_pos table.valid]

theorem store_none [DecidablePred constraints] {rows : List ρ} :
    (store rows : Option (Table ρ constraints)) = none ↔ ¬ constraints rows := by
  unfold store
  split
  next valid => simp [valid]
  next broken => simp [broken]

def update {key : ρ → κ} (selected : ρ → Prop) [DecidablePred selected] (change : ρ → ρ)
    (keeps : ∀ row, key (change row) = key row) (table : Table ρ (Keyed key)) : Table ρ (Keyed key) :=
  ⟨Foundation.update selected change table.rows, table.valid.update keeps⟩

@[simp] theorem update_rows {key : ρ → κ} {selected : ρ → Prop} [DecidablePred selected] {change : ρ → ρ}
    {keeps : ∀ row, key (change row) = key row} (table : Table ρ (Keyed key)) :
    (table.update selected change keeps).rows = Foundation.update selected change table.rows := rfl

end Table

end Foundation
