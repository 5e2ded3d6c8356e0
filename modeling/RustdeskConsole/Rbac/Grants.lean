import RustdeskConsole.Rbac.Authorization

namespace RustdeskConsole.Rbac

open Collections

/-- The effective permissions of a role, whoever holds it. -/
def Store.effectivePermissions (s : Store) (roleGuid : String) : List PermissionCode :=
  filterEffectivePermissionCodes
    ((s.rolePermissions.filter (·.roleGuid = roleGuid)).map RolePermission.permissionCode)

/-- An assignment of the user whose role carries the permission. -/
structure Carries (s : Store) (userGuid code : String) (a : UserRoleAssignment) : Prop where
  mem : a ∈ s.assignments
  user : a.userGuid = userGuid
  permission : ∃ p ∈ s.effectivePermissions a.roleGuid, p.val = code

def HoldsGlobally (s : Store) (userGuid code : String) : Prop :=
  ∃ a, Carries s userGuid code a ∧ a.scopeType = "global"

def HoldsIn (s : Store) (userGuid code deviceGroupGuid : String) : Prop :=
  isDeviceGroupScopedPermission code = true ∧ ∃ a, Carries s userGuid code a ∧
    a.scopeType = "device_group" ∧ ⟨a.guid, deviceGroupGuid⟩ ∈ s.assignmentGroups

section Grants

variable {s : Store} {userGuid code : String}

theorem mem_grants_assignments {a : UserRoleAssignment} :
    a ∈ (loadEffectiveRoleGrants s userGuid).assignments ↔
      (a ∈ s.assignments ∧ a.userGuid = userGuid) ∧
        (a.scopeType = "global" ∨ a.scopeType = "device_group") := by
  simp only [loadEffectiveRoleGrants, List.mem_filter, decide_eq_true_eq, Bool.or_eq_true]

theorem grants_getD {a : UserRoleAssignment}
    (ha : a ∈ (loadEffectiveRoleGrants s userGuid).assignments) :
    ((loadEffectiveRoleGrants s userGuid).effectivePermissionsByRole.get? a.roleGuid).getD [] =
      s.effectivePermissions a.roleGuid := by
  have hrows : (s.rolePermissions.filter fun row ↦ ((loadEffectiveRoleGrants s userGuid).assignments.map
      UserRoleAssignment.roleGuid).contains row.roleGuid).filter (·.roleGuid = a.roleGuid) =
        s.rolePermissions.filter (·.roleGuid = a.roleGuid) := by
    rw [List.filter_filter]
    refine List.filter_congr fun row _ ↦ ?_
    by_cases hr : row.roleGuid = a.roleGuid
    · simp only [hr, decide_true, Bool.true_and, List.contains_iff_mem]
      exact List.mem_map_of_mem ha
    · simp [hr]
  have hget : (loadEffectiveRoleGrants s userGuid).effectivePermissionsByRole.get? a.roleGuid =
      ((OrderedMap.group (s.rolePermissions.filter fun row ↦
        ((loadEffectiveRoleGrants s userGuid).assignments.map
          UserRoleAssignment.roleGuid).contains row.roleGuid) RolePermission.roleGuid
            RolePermission.permissionCode).mapValues
              fun _ ↦ filterEffectivePermissionCodes).get? a.roleGuid := rfl
  rw [hget, OrderedMap.get?_mapValues, OrderedMap.get?_group, hrows, Store.effectivePermissions]
  by_cases hn : s.rolePermissions.filter (·.roleGuid = a.roleGuid) = []
  · simp [hn, filterEffectivePermissionCodes]
  · rw [if_neg hn]
    rfl

theorem any_grants {a : UserRoleAssignment}
    (ha : a ∈ (loadEffectiveRoleGrants s userGuid).assignments) :
    ((loadEffectiveRoleGrants s userGuid).effectivePermissionsByRole.get? a.roleGuid).any
      (·.any (·.val = code)) = true ↔ ∃ p ∈ s.effectivePermissions a.roleGuid, p.val = code := by
  rw [← grants_getD ha]
  cases (loadEffectiveRoleGrants s userGuid).effectivePermissionsByRole.get? a.roleGuid with
  | none => simp
  | some codes => simp

theorem mem_matchingAssignments {a : UserRoleAssignment} :
    a ∈ matchingAssignments (loadEffectiveRoleGrants s userGuid) code ↔
    Carries s userGuid code a ∧ (a.scopeType = "global" ∨
      (a.scopeType = "device_group" ∧ isDeviceGroupScopedPermission code = true)) := by
  rw [matchingAssignments, List.mem_filter]
  constructor
  · rintro ⟨ha, hp⟩
    obtain ⟨⟨hm, hu⟩, hs⟩ := mem_grants_assignments.mp ha
    obtain ⟨hp, hg⟩ := Bool.and_eq_true_iff.mp hp
    refine ⟨⟨hm, hu, (any_grants ha).mp hp⟩, ?_⟩
    rcases hs with hs | hs
    · exact .inl hs
    · simpa [hs] using hg
  · rintro ⟨⟨hm, hu, hp⟩, hs⟩
    have ha := mem_grants_assignments.mpr ⟨⟨hm, hu⟩, hs.imp_right And.left⟩
    refine ⟨ha, Bool.and_eq_true_iff.mpr ⟨(any_grants ha).mpr hp, ?_⟩⟩
    rcases hs with hs | ⟨hs, hd⟩
    · simp [hs]
    · simp [hd]

theorem any_global : (matchingAssignments (loadEffectiveRoleGrants s userGuid) code).any
    (·.scopeType = "global") = true ↔ HoldsGlobally s userGuid code := by
  rw [List.any_eq_true]
  constructor
  · rintro ⟨a, ha, hs⟩
    exact ⟨a, (mem_matchingAssignments.mp ha).1, of_decide_eq_true hs⟩
  · rintro ⟨a, ha, hs⟩
    exact ⟨a, mem_matchingAssignments.mpr ⟨ha, .inl hs⟩, decide_eq_true hs⟩

theorem roleScope_global : (roleScope s userGuid code).global = true ↔
    HoldsGlobally s userGuid code := by
  rw [← any_global, roleScope]
  split
  · rename_i h
    simp only [h]
  · rename_i h
    simp only [h, Bool.false_eq_true]

theorem mem_roleScope {g : String} : g ∈ (roleScope s userGuid code).deviceGroupGuids ↔
    ¬HoldsGlobally s userGuid code ∧ HoldsIn s userGuid code g := by
  rw [← any_global, roleScope]
  split
  · rename_i h
    simp only [h, List.not_mem_nil, not_true_eq_false, false_and]
  · rename_i h
    simp only [h, Bool.false_eq_true, not_false_eq_true, true_and, List.mem_eraseDups, List.mem_map,
      List.mem_filter, List.contains_iff_mem, decide_eq_true_eq]
    constructor
    · rintro ⟨row, ⟨hrow, a, ⟨ha, hs⟩, hg⟩, rfl⟩
      obtain ⟨hc, hd⟩ := mem_matchingAssignments.mp ha
      refine ⟨?_, a, hc, hs, hg ▸ hrow⟩
      rcases hd with hd | ⟨-, hd⟩
      · rw [hs] at hd
        exact absurd hd (by decide)
      · exact hd
    · rintro ⟨hd, a, hc, hs, hrow⟩
      exact ⟨_, ⟨hrow, a, ⟨mem_matchingAssignments.mpr ⟨hc, .inr ⟨hs, hd⟩⟩, hs⟩, rfl⟩, rfl⟩

theorem mem_scopedGrants {grant : UserRoleAssignment × PermissionCode} :
    grant ∈ scopedGrants (loadEffectiveRoleGrants s userGuid) ↔
      (Carries s userGuid grant.2.val grant.1 ∧ (grant.1.scopeType = "global" ∨
        (grant.1.scopeType = "device_group" ∧
          isDeviceGroupScopedPermission grant.2.val = true))) := by
  obtain ⟨a, p⟩ := grant
  simp only [scopedGrants, List.mem_flatMap, List.mem_map, List.mem_filter, Prod.mk.injEq]
  constructor
  · rintro ⟨a, ha, p, ⟨hp, hs⟩, rfl, rfl⟩
    rw [grants_getD ha] at hp
    obtain ⟨⟨hm, hu⟩, ht⟩ := mem_grants_assignments.mp ha
    refine ⟨⟨hm, hu, p, hp, rfl⟩, ?_⟩
    rcases ht with ht | ht
    · exact .inl ht
    · exact .inr ⟨ht, by simpa [ht] using hs⟩
  · rintro ⟨⟨hm, hu, q, hq, hqp⟩, ht⟩
    obtain rfl : q = p := Subtype.ext hqp
    have ha := mem_grants_assignments.mpr ⟨⟨hm, hu⟩, ht.imp_right And.left⟩
    refine ⟨a, ha, q, ⟨by rw [grants_getD ha]; exact hq, ?_⟩, rfl, rfl⟩
    rcases ht with ht | ⟨ht, hd⟩
    · simp [ht]
    · simp [hd]

/-- The row of a permission before the groups are added. -/
theorem getD_tally_raise (code : String) (grants : List (UserRoleAssignment × PermissionCode)) :
    ((OrderedMap.tally grants (·.2.val) ScopeRow.raise).get? code).getD ⟨false, []⟩ =
      ⟨(grants.filter (·.2.val = code)).any (·.1.scopeType = "global"), []⟩ := by
  have h : ∀ (grants : List (UserRoleAssignment × PermissionCode)) (current : Option ScopeRow)
      (global : Bool), current.getD ⟨false, []⟩ = ⟨global, []⟩ →
      (grants.foldl (fun row grant ↦ some (ScopeRow.raise row grant)) current).getD ⟨false, []⟩ =
        ⟨global || grants.any (·.1.scopeType = "global"), []⟩ := by
    intro grants
    induction grants with
    | nil => intro current global hc; simpa using hc
    | cons grant grants ih =>
      intro current global hc
      by_cases hg : grant.1.scopeType = "global"
      · rw [List.foldl_cons, ih _ true]
        · simp [hg]
        · simp [ScopeRow.raise, hg, hc]
      · rw [List.foldl_cons, ih _ global]
        · simp [hg]
        · simp [ScopeRow.raise, hg, hc]
  rw [OrderedMap.get?_tally]
  simpa using h (grants.filter (·.2.val = code)) none false rfl

theorem foldl_addGroup (additions : List (String × String)) (row : ScopeRow) :
    additions.foldl (fun row addition ↦ ScopeRow.addGroup addition row) row =
      ⟨row.global, additions.foldl (fun ids addition ↦ addValue ids addition.2) row.ids⟩ := by
  induction additions generalizing row with
  | nil => rfl
  | cons addition additions ih => rw [List.foldl_cons, ih, List.foldl_cons]; rfl

theorem mem_groupAdditions {g : String} :
    (code, g) ∈ groupAdditions s (loadEffectiveRoleGrants s userGuid) ↔ HoldsIn s userGuid code g := by
  have hscoped : ∀ {assignmentGuid}, code ∈ ((scopedPermissionsByAssignment
      (loadEffectiveRoleGrants s userGuid)).get? assignmentGuid).getD [] ↔
        isDeviceGroupScopedPermission code = true ∧ ∃ a, Carries s userGuid code a ∧
          a.scopeType = "device_group" ∧ a.guid = assignmentGuid := by
    intro assignmentGuid
    rw [scopedPermissionsByAssignment, OrderedMap.getD_group]
    simp only [List.mem_map, List.mem_filter, mem_scopedGrants, decide_eq_true_eq]
    constructor
    · rintro ⟨⟨a, p⟩, ⟨⟨⟨hc, hs⟩, hn⟩, hg⟩, rfl⟩
      obtain ⟨hs, hd⟩ := hs.resolve_left hn
      exact ⟨hd, a, hc, hs, hg⟩
    · rintro ⟨hd, a, hc, hs, hg⟩
      obtain ⟨p, -, rfl⟩ := hc.permission
      exact ⟨(a, p), ⟨⟨⟨hc, .inr ⟨hs, hd⟩⟩, by simp [hs]⟩, hg⟩, rfl⟩
  simp only [groupAdditions, List.mem_flatMap, List.mem_filter, List.mem_map, Prod.mk.injEq]
  constructor
  · rintro ⟨⟨assignmentGuid, _⟩, ⟨hrow, -⟩, _, hm, rfl, rfl⟩
    obtain ⟨hd, a, hc, hs, rfl⟩ := hscoped.mp hm
    exact ⟨hd, a, hc, hs, hrow⟩
  · rintro ⟨hd, a, hc, hs, hrow⟩
    have hm := hscoped.mpr ⟨hd, a, hc, hs, rfl⟩
    refine ⟨⟨a.guid, g⟩, ⟨hrow, ?_⟩, code, hm, rfl, rfl⟩
    rw [List.contains_iff_mem, OrderedMap.mem_keys]
    rcases hget : (scopedPermissionsByAssignment (loadEffectiveRoleGrants s userGuid)).get? a.guid with
      _ | codes
    · simp [hget] at hm
    · rfl

/-- The row of a permission says where the user holds it. -/
theorem scopeRows_spec (s : Store) (userGuid code : String) :
    let row := ((scopeRows s (loadEffectiveRoleGrants s userGuid)).get? code).getD ⟨false, []⟩
    (row.global = true ↔ HoldsGlobally s userGuid code) ∧
      ∀ g, g ∈ row.ids ↔ HoldsIn s userGuid code g := by
  intro row
  have hbase := getD_tally_raise code (scopedGrants (loadEffectiveRoleGrants s userGuid))
  have hrow : row = ⟨((scopedGrants (loadEffectiveRoleGrants s userGuid)).filter
      (·.2.val = code)).any (·.1.scopeType = "global"),
      ((groupAdditions s (loadEffectiveRoleGrants s userGuid)).filter (·.1 = code)).foldl
        (fun ids addition ↦ addValue ids addition.2) []⟩ := by
    simp only [row, scopeRows, OrderedMap.get?_foldl_modify, foldl_addGroup]
    rcases hget : (OrderedMap.tally (scopedGrants (loadEffectiveRoleGrants s userGuid)) (·.2.val)
      ScopeRow.raise).get? code with _ | base
    · have hnone : (groupAdditions s (loadEffectiveRoleGrants s userGuid)).filter
          (·.1 = code) = [] := by
        refine List.filter_eq_nil_iff.mpr fun addition hm hk ↦ ?_
        obtain ⟨_, g⟩ := addition
        obtain rfl := of_decide_eq_true hk
        obtain ⟨hd, a, hc, hs, -⟩ := mem_groupAdditions.mp hm
        obtain ⟨p, -, hp⟩ := hc.permission
        refine OrderedMap.get?_tally_eq_none.mp hget (a, p) ?_ hp
        exact mem_scopedGrants.mpr ⟨hp ▸ hc, .inr ⟨hs, hp ▸ hd⟩⟩
      rw [hget, Option.getD_none] at hbase
      rw [hnone, Option.map_none, Option.getD_none, List.foldl_nil, ← hbase]
    · rw [hget, Option.getD_some] at hbase
      rw [Option.map_some, Option.getD_some, hbase]
  rw [hrow]
  constructor
  · simp only [List.any_eq_true, List.mem_filter, mem_scopedGrants, decide_eq_true_eq]
    constructor
    · rintro ⟨⟨a, p⟩, ⟨⟨hc, -⟩, rfl⟩, hs⟩
      exact ⟨a, hc, hs⟩
    · rintro ⟨a, hc, hs⟩
      obtain ⟨p, -, rfl⟩ := hc.permission
      exact ⟨(a, p), ⟨⟨hc, .inl hs⟩, rfl⟩, hs⟩
  · intro g
    rw [mem_foldl_addValue, ← mem_groupAdditions]
    simp only [List.not_mem_nil, false_or, List.mem_filter, decide_eq_true_eq, Prod.exists]
    constructor
    · rintro ⟨_, _, ⟨hm, rfl⟩, rfl⟩
      exact hm
    · intro hm
      exact ⟨code, g, ⟨hm, rfl⟩, rfl⟩

theorem roleScopes_get? : (roleScopes s userGuid).get? code =
    (((scopeRows s (loadEffectiveRoleGrants s userGuid)).get? code).getD ⟨false, []⟩).view := by
  rw [roleScopes, OrderedMap.get?_filterMap]
  cases (scopeRows s (loadEffectiveRoleGrants s userGuid)).get? code <;> rfl

theorem roleScopes_isSome : ((roleScopes s userGuid).get? code).isSome ↔
    HoldsGlobally s userGuid code ∨ ∃ g, HoldsIn s userGuid code g := by
  obtain ⟨hglobal, hids⟩ := scopeRows_spec s userGuid code
  rw [roleScopes_get?, ← hglobal]
  simp only [← hids]
  generalize ((scopeRows s (loadEffectiveRoleGrants s userGuid)).get? code).getD ⟨false, []⟩ = row
  obtain ⟨global, ids⟩ := row
  cases global with
  | true => simp [ScopeRow.view]
  | false =>
    cases ids with
    | nil => simp [ScopeRow.view]
    | cons g ids => simp [ScopeRow.view]

theorem roleScopes_eq_some {scope : EffectivePermissionScope}
    (h : (roleScopes s userGuid).get? code = some scope) :
    (HoldsGlobally s userGuid code ∧ scope = ⟨.global, []⟩) ∨
      (¬HoldsGlobally s userGuid code ∧ scope.scopeType = .deviceGroup ∧
        ∀ g, g ∈ scope.deviceGroupGuids ↔ HoldsIn s userGuid code g) := by
  obtain ⟨hglobal, hids⟩ := scopeRows_spec s userGuid code
  rw [roleScopes_get?] at h
  rw [← hglobal]
  simp only [← hids]
  revert h
  generalize ((scopeRows s (loadEffectiveRoleGrants s userGuid)).get? code).getD ⟨false, []⟩ = row
  intro h
  obtain ⟨global, ids⟩ := row
  cases global with
  | true =>
    refine .inl ⟨rfl, ?_⟩
    simpa [ScopeRow.view, eq_comm] using h
  | false =>
    simp only [ScopeRow.view, Bool.not_false, Bool.true_and, Bool.false_eq_true, if_false] at h
    split at h
    · cases h
    · obtain rfl := Option.some.inj h
      exact .inr ⟨Bool.false_ne_true, rfl, fun g ↦ mem_sortBy⟩

theorem not_assignable (hc : isAssignablePermissionCode code = false) :
    roleScope s userGuid code = ⟨false, []⟩ := by
  have hcarries : ∀ a, ¬Carries s userGuid code a := by
    intro a ha
    obtain ⟨p, -, rfl⟩ := ha.permission
    rw [p.2] at hc
    cases hc
  have hglobal : (roleScope s userGuid code).global = false := by
    rw [Bool.eq_false_iff, ne_eq, roleScope_global]
    rintro ⟨a, ha, -⟩
    exact hcarries a ha
  have hgroups : (roleScope s userGuid code).deviceGroupGuids = [] := by
    refine List.eq_nil_iff_forall_not_mem.mpr fun g hg ↦ ?_
    obtain ⟨-, -, a, ha, -⟩ := mem_roleScope.mp hg
    exact hcarries a ha
  rw [← hglobal, ← hgroups]

variable {user : User}

theorem computePermissionScope_eq (hu : getCurrentUser s userGuid = .ok user)
    (ha : user.isAdmin = false) (code : String) :
    computePermissionScope s userGuid code = .ok (roleScope s userGuid code) := by
  rw [computePermissionScope, hu]
  change (if _ then _ else _) = _
  rcases hc : isAssignablePermissionCode code with _ | _
  · rw [not_assignable hc, ha]
    rfl
  · rw [ha]
    rfl

theorem getEffectivePermissions_eq (hu : getCurrentUser s userGuid = .ok user)
    (ha : user.isAdmin = false) :
    getEffectivePermissions s userGuid =
      .ok ⟨sortBy id (roleScopes s userGuid).keys, roleScopes s userGuid⟩ := by
  rw [getEffectivePermissions, hu]
  change (if _ then _ else _) = _
  rw [ha]
  rfl

/-- Per code and in bulk, a user's roles come to the same permissions. -/
theorem effective_permissions_agree (hu : getCurrentUser s userGuid = .ok user)
    (ha : user.isAdmin = false) (code : String) :
    ∃ effective scope, getEffectivePermissions s userGuid = .ok effective ∧
      computePermissionScope s userGuid code = .ok scope ∧
      (code ∈ effective.permissions ↔ scope.global = true ∨ scope.deviceGroupGuids ≠ []) ∧
      ((effective.scopes.get? code).isSome ↔ scope.global = true ∨ scope.deviceGroupGuids ≠ []) ∧
      ∀ listed, effective.scopes.get? code = some listed →
        (listed.scopeType = .global ↔ scope.global = true) ∧
        ∀ g, g ∈ listed.deviceGroupGuids ↔ g ∈ scope.deviceGroupGuids := by
  have hsome : ((roleScopes s userGuid).get? code).isSome ↔
      (roleScope s userGuid code).global = true ∨
        (roleScope s userGuid code).deviceGroupGuids ≠ [] := by
    rw [roleScopes_isSome, roleScope_global, ne_eq, List.eq_nil_iff_forall_not_mem]
    simp only [mem_roleScope, not_forall, not_not]
    by_cases hg : HoldsGlobally s userGuid code <;> simp [hg]
  refine ⟨_, _, getEffectivePermissions_eq hu ha, computePermissionScope_eq hu ha code, ?_, hsome,
    fun listed hl ↦ ?_⟩
  · rw [mem_sortBy, OrderedMap.mem_keys, hsome]
  · rw [roleScope_global]
    simp only [mem_roleScope]
    rcases roleScopes_eq_some hl with ⟨hg, rfl⟩ | ⟨hg, ht, hm⟩
    · simp [hg]
    · simp [hg, ht, hm]

/-- A store with rows no current code would write: a retired permission, a
permission without what it requires, a scope of no known type and a device
group assignment without device groups. -/
def damagedStore : Store where
  users := [⟨"operator", .active, false⟩, ⟨"member", .active, false⟩]
  roles := [⟨"delegate", "Delegate", false⟩, ⟨"viewer", "Viewer", false⟩,
    ⟨"editor", "Editor", false⟩, ⟨"retired", "Retired", false⟩]
  rolePermissions := [⟨"delegate", "roles.view"⟩, ⟨"delegate", "users.view"⟩,
    ⟨"delegate", "roles.assign"⟩, ⟨"delegate", "servers.control"⟩, ⟨"viewer", "devices.view"⟩,
    ⟨"editor", "devices.view"⟩, ⟨"editor", "devices.edit"⟩, ⟨"retired", "retired.code"⟩]
  assignments := [⟨"a", "operator", "delegate", "global"⟩, ⟨"b", "operator", "viewer", "device_group"⟩,
    ⟨"c", "operator", "editor", "regional"⟩, ⟨"d", "member", "viewer", "device_group"⟩,
    ⟨"e", "member", "retired", "global"⟩]
  assignmentGroups := [⟨"b", "lab"⟩]
  deviceGroups := [⟨"lab", "Lab"⟩, ⟨"office", "Office"⟩]

theorem damagedStore_consistent : damagedStore.Consistent where
  users := by decide
  roles := by decide
  rolePermissions := by decide
  assignments := by decide
  assignmentRoles := by decide
  assignmentGroups := by decide
  deviceGroups := by decide
  permissionRole := by decide
  assignmentUser := by decide
  assignmentRole := by decide
  groupAssignment := by decide
  groupDeviceGroup := by decide

theorem damagedStore_operator :
    getCurrentUser damagedStore "operator" = .ok ⟨"operator", .active, false⟩ := rfl

theorem damaged_permissions_agree : ∃ effective scope,
    getEffectivePermissions damagedStore "operator" = .ok effective ∧
      computePermissionScope damagedStore "operator" "devices.view" = .ok scope ∧
      ("devices.view" ∈ effective.permissions ↔
        scope.global = true ∨ scope.deviceGroupGuids ≠ []) ∧
      ((effective.scopes.get? "devices.view").isSome ↔
        scope.global = true ∨ scope.deviceGroupGuids ≠ []) ∧
      ∀ listed, effective.scopes.get? "devices.view" = some listed →
        (listed.scopeType = .global ↔ scope.global = true) ∧
        ∀ g, g ∈ listed.deviceGroupGuids ↔ g ∈ scope.deviceGroupGuids :=
  effective_permissions_agree damagedStore_operator rfl "devices.view"

example : computePermissionScope damagedStore "operator" "devices.view" =
    .ok ⟨false, ["lab"]⟩ := by decide +kernel

end Grants

end RustdeskConsole.Rbac
