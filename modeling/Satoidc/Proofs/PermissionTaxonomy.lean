import Satoidc.Migrations
import Satoidc.Proofs.DeveloperAccess

/-! The upgrades keep every permission row, also one whose type the enum of the code
no longer has. Such a row, while it is active, fails every query for its user. -/

namespace Satoidc.Proofs.PermissionTaxonomy
open Foundation Foundation.Sql PermissionQueries Migrations

section loading
variable {ε α β : Type} {f : α → Except ε β} {xs : List α} {ys : List β}

theorem mapM_ok (mapped : xs.mapM f = .ok ys) :
    (∀ x ∈ xs, ∃ y ∈ ys, f x = .ok y) ∧ ∀ y ∈ ys, ∃ x ∈ xs, f x = .ok y := by
  induction xs generalizing ys with
  | nil => cases mapped; simp
  | cons x xs ih =>
    rw [List.mapM_cons] at mapped
    cases first : f x with
    | error raised => rw [first] at mapped; cases mapped
    | ok y =>
      cases rest : xs.mapM f with
      | error raised => rw [first, rest] at mapped; cases mapped
      | ok tail =>
        rw [first, rest] at mapped
        cases mapped
        obtain ⟨there, back⟩ := ih rest
        constructor
        · intro other member
          rcases List.mem_cons.mp member with rfl | member
          · exact ⟨y, List.mem_cons_self, first⟩
          · obtain ⟨image, inside, result⟩ := there other member
            exact ⟨image, List.mem_cons_of_mem _ inside, result⟩
        · intro other member
          rcases List.mem_cons.mp member with rfl | member
          · exact ⟨x, List.mem_cons_self, first⟩
          · obtain ⟨source, inside, result⟩ := back other member
            exact ⟨source, List.mem_cons_of_mem _ inside, result⟩

theorem mapM_total (every : ∀ x ∈ xs, ∃ y, f x = .ok y) : ∃ ys, xs.mapM f = .ok ys := by
  induction xs with
  | nil => exact ⟨[], rfl⟩
  | cons x xs ih =>
    obtain ⟨y, first⟩ := every x List.mem_cons_self
    obtain ⟨ys, rest⟩ := ih fun other member => every other (List.mem_cons_of_mem _ member)
    refine ⟨y :: ys, ?_⟩
    rw [List.mapM_cons, first, rest]
    rfl

end loading

theorem load_ok {stored : String} {permission : PermissionsEnum} : load stored = .ok permission ↔ name permission = stored := by
  constructor
  · intro loaded
    unfold load at loaded
    split at loaded
    next found => cases loaded; simpa using List.find?_some found
    next => cases loaded
  · rintro rfl
    cases permission <;> rfl

/-- Of the names that the initial migration allows, one is not a member's. -/
theorem load_initial {stored : String} (allowed : stored ∈ initialPermissionsEnum) :
    (∃ permission, load stored = .ok permission) ↔ stored ≠ "DRAW_OPERATOR" := by
  simp only [initialPermissionsEnum, List.mem_cons, List.not_mem_nil, or_false] at allowed
  rcases allowed with rfl | rfl | rfl | rfl
  · exact ⟨fun _ => by decide, fun _ => ⟨.root, rfl⟩⟩
  · exact ⟨fun _ => by decide, fun _ => ⟨.admin, rfl⟩⟩
  · refine ⟨?_, fun different => absurd rfl different⟩
    rintro ⟨permission, loaded⟩
    cases loaded
  · exact ⟨fun _ => by decide, fun _ => ⟨.support, rfl⟩⟩

theorem upgradeToHead_permissions (dialect : Dialect) (permissions : InitialPermissions) :
    (upgradeToHead (initialDatabase dialect permissions)).permissions = permissions.rows := rfl

/-- The chain ends at the last migration, whose enum can hold all that is stored. -/
theorem upgradeToHead_head (dialect : Dialect) (permissions : InitialPermissions) :
    (upgradeToHead (initialDatabase dialect permissions)).revision = addPermissionRequests.revision ∧
      ∀ row ∈ (upgradeToHead (initialDatabase dialect permissions)).permissions, row.permissionType ∈ permissionsEnum := by
  refine ⟨rfl, ?_⟩
  rw [upgradeToHead_permissions]
  intro row member
  have allowed := permissions.valid row member
  simp only [initialPermissionsEnum, permissionsEnum, List.mem_cons, List.not_mem_nil, or_false] at allowed ⊢
  tauto

/-- A permission that counts for its user. -/
def Active (now : Instant) (userId : UserId) (row : StoredPermission) : Prop :=
  row.userId = userId ∧ row.disabled = false ∧ ∀ date, row.expirationDate = some date → now < date

/-- Both functions return, and what they return is the types of the user's active
rows in `before`. -/
def Reads (now : Instant) (userId : UserId) (before after : List StoredPermission) : Prop :=
  ∃ types, Migrations.getActivePermissionsForUser now userId after = .ok types ∧
    Migrations.getActiveUserPermissions now userId after = .ok (types.map PermissionsEnum.value) ∧
    ∀ stored, stored ∈ types.map name ↔ ∃ row ∈ before, Active now userId row ∧ row.permissionType = stored

variable {now : Instant} {userId : UserId} {rows : List StoredPermission}

theorem mem_active {row : StoredPermission} :
    row ∈ select (fun row => activeForUser now userId row.columns) rows ↔ row ∈ rows ∧ Active now userId row := by
  rw [mem_select, DeveloperAccess.activeForUser_true]
  rfl

theorem reads_iff : Reads now userId rows rows ↔ ∀ row ∈ rows, Active now userId row →
    ∃ permission, load row.permissionType = .ok permission := by
  constructor
  · rintro ⟨types, loaded, -, -⟩ row member active
    obtain ⟨permission, -, found⟩ := (mapM_ok loaded).1 row (mem_active.mpr ⟨member, active⟩)
    exact ⟨permission, found⟩
  · intro every
    obtain ⟨types, loaded⟩ : ∃ types, Migrations.getActivePermissionsForUser now userId rows = .ok types := by
      apply mapM_total
      intro row member
      obtain ⟨stored, active⟩ := mem_active.mp member
      exact every row stored active
    have strings : Migrations.getActiveUserPermissions now userId rows = .ok (types.map PermissionsEnum.value) := by
      have same : Migrations.getActiveUserPermissions now userId rows =
        (Migrations.getActivePermissionsForUser now userId rows).bind fun types => .ok (types.map PermissionsEnum.value) := rfl
      rw [same, loaded]
      rfl
    refine ⟨types, loaded, strings, ?_⟩
    obtain ⟨there, back⟩ := mapM_ok loaded
    intro stored
    constructor
    · intro listed
      obtain ⟨permission, member, rfl⟩ := List.mem_map.mp listed
      obtain ⟨row, inside, found⟩ := back permission member
      obtain ⟨present, active⟩ := mem_active.mp inside
      exact ⟨row, present, active, (load_ok.mp found).symm⟩
    · rintro ⟨row, present, active, rfl⟩
      obtain ⟨permission, member, found⟩ := there row (mem_active.mpr ⟨present, active⟩)
      exact List.mem_map.mpr ⟨permission, member, load_ok.mp found⟩

/-- After the upgrade a user's permissions are read, and are those stored before it,
exactly when none of the user's active rows is a `DRAW_OPERATOR` permission; so they
are read of every user exactly when there is no such row. -/
theorem upgraded_permissions_read (dialect : Dialect) (permissions : InitialPermissions) (now : Instant) :
    (∀ userId, Reads now userId permissions.rows (upgradeToHead (initialDatabase dialect permissions)).permissions ↔
        ∀ row ∈ permissions.rows, Active now userId row → row.permissionType ≠ "DRAW_OPERATOR") ∧
      ((∀ userId, Reads now userId permissions.rows (upgradeToHead (initialDatabase dialect permissions)).permissions) ↔
        ∀ row ∈ permissions.rows, Active now row.userId row → row.permissionType ≠ "DRAW_OPERATOR") := by
  have each : ∀ userId, Reads now userId permissions.rows (upgradeToHead (initialDatabase dialect permissions)).permissions ↔
      ∀ row ∈ permissions.rows, Active now userId row → row.permissionType ≠ "DRAW_OPERATOR" := by
    intro userId
    rw [upgradeToHead_permissions, reads_iff]
    refine forall₂_congr fun row member => imp_congr_right fun _ => ?_
    exact load_initial (permissions.valid row member)
  refine ⟨each, ?_⟩
  constructor
  · intro every row member active
    exact (each row.userId).mp (every row.userId) row member active
  · intro none userId
    apply (each userId).mpr
    intro row member active
    cases active.1
    exact none row member active

/-- A user who may operate draws and is also an administrator. -/
def drawOperator : InitialPermissions where
  rows := [⟨7, none, 1, "ADMIN", none, none, false⟩, ⟨7, some 1, 2, "DRAW_OPERATOR", none, none, false⟩]
  valid := by simp [initialPermissionsEnum]

theorem drawOperator_unreadable :
    ¬ ∀ (dialect : Dialect) (permissions : InitialPermissions) (now : Instant) (userId : UserId),
      Reads now userId permissions.rows (upgradeToHead (initialDatabase dialect permissions)).permissions := by
  intro every
  obtain ⟨types, loaded, -⟩ := every .postgresql drawOperator 0 7
  cases loaded

end Satoidc.Proofs.PermissionTaxonomy
