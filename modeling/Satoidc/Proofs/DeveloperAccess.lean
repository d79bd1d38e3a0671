import Satoidc.PermissionQueries

/-! Developer access is one notion: the queries that decide it select the same rows,
and the page rule, the request rule and the dashboard's count agree on its users. -/

namespace Satoidc.Proofs.DeveloperAccess
open Foundation Foundation.Sql PermissionQueries

variable {now : Instant} {userId : UserId} {permission : Permission} {permissions : List Permission}

theorem unexpired_true {expirationDate : Option Instant} :
    (compare (fun date now => now < date) expirationDate (some now)).or (isNull expirationDate) = some true ↔
      ∀ date, expirationDate = some date → now < date := by
  cases expirationDate <;> simp

theorem activeForUser_true {row : Columns} : activeForUser now userId row = some true ↔
    row.userId = userId ∧ row.disabled = false ∧ ∀ date, row.expirationDate = some date → now < date := by
  rw [activeForUser, ← unexpired_true]
  simp

theorem active_iff : permission.active now = true ↔
    permission.disabled = false ∧ ∀ date, permission.expirationDate = some date → now < date := by
  cases expiration : permission.expirationDate <;> simp [Permission.active, expiration]

theorem activeForUser_columns : activeForUser now userId (columns permission) = some true ↔
    permission.userId = userId ∧ permission.active now = true := by
  rw [activeForUser_true, active_iff]
  rfl

theorem grantsDeveloperAccess_true : grantsDeveloperAccess now permission = some true ↔
    permission.permissionType ∈ developerAccessPermissions ∧ permission.active now = true := by
  rw [grantsDeveloperAccess, active_iff, ← unexpired_true]
  simp

/-- A row is inactive exactly when it is not active; at its expiration date it is. -/
theorem inactive_true : inactive now permission = some true ↔ permission.active now = false := by
  rw [← Bool.not_eq_true, active_iff]
  cases expiration : permission.expirationDate <;> cases disabled : permission.disabled <;> simp [inactive, expiration, disabled]

theorem getActivePermissionsForUser_eq :
    PermissionQueries.getActivePermissionsForUser now userId permissions =
      Satoidc.getActivePermissionsForUser now userId permissions := by
  unfold PermissionQueries.getActivePermissionsForUser Satoidc.getActivePermissionsForUser select
  congr 1
  apply List.filter_congr
  intro permission _
  rw [Bool.eq_iff_iff, decide_eq_true_iff, activeForUser_columns]
  simp

theorem getActiveUserPermissions_eq :
    getActiveUserPermissions now userId permissions =
      (PermissionQueries.getActivePermissionsForUser now userId permissions).map PermissionsEnum.value := rfl

theorem value_injective : Function.Injective PermissionsEnum.value := by
  intro first second same
  cases first <;> cases second <;> first | rfl | exact absurd same (by decide)

theorem hasDeveloperAccess_eq (types : List PermissionsEnum) :
    PermissionQueries.hasDeveloperAccess types = Satoidc.hasDeveloperAccess types := by
  rw [Bool.eq_iff_iff]
  simp only [PermissionQueries.hasDeveloperAccess, Satoidc.hasDeveloperAccess, List.any_eq_true, decide_eq_true_eq]
  constructor
  · rintro ⟨value, required, held⟩
    obtain ⟨type, inside, rfl⟩ := List.mem_map.mp required
    exact ⟨type, (List.mem_map_of_injective value_injective).mp held, inside⟩
  · rintro ⟨type, held, inside⟩
    exact ⟨type.value, List.mem_map_of_mem inside, List.mem_map_of_mem held⟩

theorem isAuthorized_eq (held required : List PermissionsEnum) (mode : PermissionMode) :
    PermissionQueries.isAuthorized (held.map PermissionsEnum.value) (required.map PermissionsEnum.value) mode =
      Satoidc.isAuthorized held required mode := by
  cases mode <;>
    simp [PermissionQueries.isAuthorized, Satoidc.isAuthorized, List.mem_map_of_injective value_injective, List.all_map,
      List.any_map, Function.comp_def, -List.mem_map]

theorem pageSecurity_eq (required : List PermissionsEnum) (mode : PermissionMode) (present : required ≠ []) :
    pageSecurity now permissions (some userId) required mode =
      Satoidc.authorizePageRequest now permissions (some userId) required mode := by
  rw [pageSecurity, if_neg present]
  simp only [PermissionQueries.authorizePageRequest, Satoidc.authorizePageRequest, getActiveUserPermissions_eq, isAuthorized_eq,
    getActivePermissionsForUser_eq]

/-- `has_developer_access` of the user's active permissions. -/
def HasAccess (now : Instant) (permissions : List Permission) (userId : UserId) : Prop :=
  PermissionQueries.hasDeveloperAccess (PermissionQueries.getActivePermissionsForUser now userId permissions) = true

theorem hasAccess_iff : HasAccess now permissions userId ↔
    ∃ permission ∈ permissions, permission.userId = userId ∧ permission.active now = true ∧
      permission.permissionType ∈ developerAccessPermissions := by
  rw [HasAccess, hasDeveloperAccess_eq, getActivePermissionsForUser_eq]
  simp [hasDeveloperAccess, Satoidc.getActivePermissionsForUser, developerAccessPermissions, and_assoc]

/-- The page's set `{DEVELOPER, ADMIN}` with the bypass of `ROOT` is the request
rule's set. -/
theorem pageSecurity_none : pageSecurity now permissions (some userId) [.developer, .admin] = none ↔
    HasAccess now permissions userId := by
  rw [pageSecurity_eq _ _ (List.cons_ne_nil _ _), HasAccess, hasDeveloperAccess_eq, getActivePermissionsForUser_eq]
  simp only [Satoidc.authorizePageRequest, Satoidc.isAuthorized, hasDeveloperAccess]
  generalize Satoidc.getActivePermissionsForUser now userId permissions = held
  constructor
  · intro admitted
    have authorized : (decide (PermissionsEnum.root ∈ held) || [PermissionsEnum.developer, .admin].any (· ∈ held)) = true := by
      cases decided : (decide (PermissionsEnum.root ∈ held) || [PermissionsEnum.developer, .admin].any (· ∈ held)) with
      | true => rfl
      | false => simp only [decided] at admitted; cases admitted
    simp only [List.any_cons, List.any_nil, Bool.or_false, Bool.or_eq_true, decide_eq_true_eq] at authorized
    apply List.any_eq_true.mpr
    rcases authorized with root | developer | admin
    · exact ⟨.root, root, by simp⟩
    · exact ⟨.developer, developer, by simp⟩
    · exact ⟨.admin, admin, by simp⟩
  · intro access
    obtain ⟨type, member, listed⟩ := List.any_eq_true.mp access
    simp only [List.mem_cons, List.not_mem_nil, or_false, decide_eq_true_eq] at listed
    rcases listed with rfl | rfl | rfl <;> simp [member]

theorem createPermissionRequest_notAllowed {store : PermissionStore} {reason : Option String} :
    (∃ message, createPermissionRequest now store userId .developer reason = .error (.permissionRequestNotAllowed message)) ↔
      HasAccess now store.permissions.rows userId := by
  rw [HasAccess, hasDeveloperAccess_eq, getActivePermissionsForUser_eq]
  constructor
  · rintro ⟨message, refused⟩
    by_contra missing
    simp only [createPermissionRequest, missing, decide_true, Bool.true_and, ite_false] at refused
    split at refused
    next => cases refused
    next => split at refused <;> cases refused
  · intro access
    exact ⟨_, by simp only [createPermissionRequest, access]; rfl⟩

theorem counted_iff : (∃ permission ∈ permissions, grantsDeveloperAccess now permission = some true ∧
    permission.userId = userId) ↔
    HasAccess now permissions userId := by
  rw [hasAccess_iff]
  constructor
  · rintro ⟨permission, member, granting, owner⟩
    obtain ⟨type, active⟩ := grantsDeveloperAccess_true.mp granting
    exact ⟨permission, member, owner, active, type⟩
  · rintro ⟨permission, member, owner, active, type⟩
    exact ⟨permission, member, grantsDeveloperAccess_true.mpr ⟨type, active⟩, owner⟩

theorem active_or_inactive (member : permission ∈ permissions) :
    permission ∈ select (fun row => activeForUser now permission.userId (columns row)) permissions ↔
      permission ∉ select (inactive now) permissions := by
  rw [mem_select, mem_select, activeForUser_columns, inactive_true]
  simp [member]

theorem inactive_length : (permissions.filter fun permission => permission.active now).length +
    (select (inactive now) permissions).length = permissions.length := by
  have others : select (inactive now) permissions = permissions.filter fun permission => !permission.active now := by
    apply List.filter_congr
    intro permission _
    rw [Bool.eq_iff_iff, decide_eq_true_iff, inactive_true]
    simp
  rw [others]
  exact (List.length_eq_length_filter_add _).symm

/-- For every table, time and user, the page of developers, the function
`has_developer_access`, the request rule and the dashboard's count are about the
same users; the two lists of active permissions agree; and every row is active in
those queries or counted as inactive, and not both. -/
theorem developer_access_agrees (now utcNow : Instant) (users : List User) (clients : List OAuth2Client)
    (store : PermissionStore) (userId : UserId) (reason : Option String) :
    let permissions := store.permissions.rows
    let metrics := getAdminDashboardMetrics now utcNow users clients store
    (pageSecurity now permissions (some userId) [.developer, .admin] = none ↔ HasAccess now permissions userId) ∧
      ((∃ message, createPermissionRequest now store userId .developer reason = .error (.permissionRequestNotAllowed message)) ↔
        HasAccess now permissions userId) ∧
      ((∃ permission ∈ permissions, grantsDeveloperAccess now permission = some true ∧ permission.userId = userId) ↔
        HasAccess now permissions userId) ∧
      metrics.developerAccessUsers = {userId | HasAccess now permissions userId}.ncard ∧
      getActiveUserPermissions now userId permissions =
        (PermissionQueries.getActivePermissionsForUser now userId permissions).map PermissionsEnum.value ∧
      PermissionQueries.getActivePermissionsForUser now userId permissions =
        Satoidc.getActivePermissionsForUser now userId permissions ∧
      (∀ permission ∈ permissions,
        (permission ∈ select (fun row => activeForUser now permission.userId (columns row)) permissions ↔
          permission ∉ select (inactive now) permissions) ∧
        (permission ∈ select (fun row => activeOfUser now permission.userId (columns row)) permissions ↔
          permission ∉ select (inactive now) permissions)) ∧
      (permissions.filter fun permission => permission.active now).length + metrics.inactivePermissions =
        permissions.length := by
  refine ⟨pageSecurity_none, createPermissionRequest_notAllowed, counted_iff, ?_, rfl, getActivePermissionsForUser_eq, ?_,
    inactive_length⟩
  · have same : {userId | ∃ permission ∈ store.permissions.rows, grantsDeveloperAccess now permission = some true ∧
        permission.userId = userId} = {userId | HasAccess now store.permissions.rows userId} := by
      ext userId
      exact counted_iff
    rw [← same]
    exact countDistinct_eq ..
  · intro permission member
    exact ⟨active_or_inactive member, active_or_inactive member⟩

end Satoidc.Proofs.DeveloperAccess
