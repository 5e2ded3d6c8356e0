import RustdeskConsole.Rbac.Delegation

namespace RustdeskConsole.Rbac

open Collections Effects.Guard

variable {s : Store} {userGuid actorGuid : String}

/-- A role a delegated operator may hand out or take away at all. -/
def Delegatable (s : Store) (role : Role) : Prop :=
  role.protectedAccount = false ∧ rolesAssign ∉ s.effectivePermissions role.guid

/-- The operator has everywhere what the role grants. -/
def GrantsGlobally (s : Store) (actorGuid roleGuid : String) : Prop :=
  s.effectivePermissions roleGuid ≠ [] ∧
    ∀ p ∈ s.effectivePermissions roleGuid, HoldsGlobally s actorGuid p.val

/-- The role only grants device permissions, and the operator has them in the
device group. -/
def GrantsIn (s : Store) (actorGuid roleGuid deviceGroupGuid : String) : Prop :=
  s.effectivePermissions roleGuid ≠ [] ∧
    (∃ group ∈ s.deviceGroups, group.guid = deviceGroupGuid) ∧
    ∀ p ∈ s.effectivePermissions roleGuid, isDeviceGroupScopedPermission p.val = true ∧
      (HoldsGlobally s actorGuid p.val ∨ HoldsIn s actorGuid p.val deviceGroupGuid)

def Assignable (s : Store) (actorGuid : String) (role : Role) : Prop :=
  Delegatable s role ∧
    (GrantsGlobally s actorGuid role.guid ∨ ∃ g, GrantsIn s actorGuid role.guid g)

theorem deviceScoped_iff {p : PermissionCode} :
    deviceScoped p = true ↔ isDeviceGroupScopedPermission p.val = true := by
  rw [deviceScoped, decide_eq_true_eq, find?_scope]

section ActorScopes

theorem actorScopes_get? (effective : EffectivePermissions) (p : PermissionCode) :
    (actorScopes effective).get? p.val = (effective.scopes.get? p.val).map
      fun scope ↦ ⟨scope.scopeType = .global, scope.deviceGroupGuids⟩ := by
  rcases hscope : effective.scopes.get? p.val with _ | scope
  · rw [actorScopes, Option.map_none, OrderedMap.get?_tally_eq_none]
    intro entry hm hc
    obtain ⟨permission, -, he⟩ := List.mem_filterMap.mp hm
    split at he
    · obtain ⟨scope, hget, rfl⟩ := Option.map_eq_some_iff.mp he
      rw [show permission.code = p.val from hc, hscope] at hget
      cases hget
    · cases he
  · obtain ⟨permission, hm, hc⟩ := p.mem_catalog
    have hn : ((PERMISSION_CATALOG.filterMap fun permission ↦
        if isAssignablePermissionCode permission.code then
          (effective.scopes.get? permission.code).map (permission.code, ·) else none).map
        Prod.fst).Nodup := by
      refine (sublist_map_filterMap (fun row e he ↦ ?_) PERMISSION_CATALOG).nodup
        catalog_codes_nodup
      split at he
      · obtain ⟨scope, -, rfl⟩ := Option.map_eq_some_iff.mp he
        rfl
      · cases he
    have hentry : (p.val, scope) ∈ PERMISSION_CATALOG.filterMap fun permission ↦
        if isAssignablePermissionCode permission.code then
          (effective.scopes.get? permission.code).map (permission.code, ·) else none := by
      refine List.mem_filterMap.mpr ⟨permission, hm, ?_⟩
      rw [hc, if_pos p.2, hscope]
      rfl
    exact OrderedMap.get?_tally_of_mem _ hn hentry

variable {p : PermissionCode}

/-- The scopes the preview keeps of a delegated operator. -/
def delegatedScopes (s : Store) (actorGuid : String) : OrderedMap String Grant :=
  actorScopes ⟨sortBy id (roleScopes s actorGuid).keys, roleScopes s actorGuid⟩

theorem delegatedScopes_isSome : ((delegatedScopes s actorGuid).get? p.val).isSome ↔
    HoldsGlobally s actorGuid p.val ∨ ∃ g, HoldsIn s actorGuid p.val g := by
  rw [delegatedScopes, actorScopes_get?, Option.isSome_map, roleScopes_isSome]

theorem delegatedScopes_eq_some {caller : Grant}
    (h : (delegatedScopes s actorGuid).get? p.val = some caller) :
    (caller.global = true ↔ HoldsGlobally s actorGuid p.val) ∧
      ∀ g, (caller.global = true ∨ g ∈ caller.groups) ↔
        (HoldsGlobally s actorGuid p.val ∨ HoldsIn s actorGuid p.val g) := by
  rw [delegatedScopes, actorScopes_get?, Option.map_eq_some_iff] at h
  obtain ⟨scope, hscope, rfl⟩ := h
  rcases roleScopes_eq_some hscope with ⟨hg, rfl⟩ | ⟨hg, ht, hm⟩
  · simp [hg]
  · simp [hg, ht, hm]

theorem delegatedScopes_any : ((delegatedScopes s actorGuid).get? p.val).any Grant.global = true ↔
    HoldsGlobally s actorGuid p.val := by
  rcases hget : (delegatedScopes s actorGuid).get? p.val with _ | caller
  · refine ⟨nofun, fun hg ↦ ?_⟩
    have hs := delegatedScopes_isSome.mpr (.inl hg)
    rw [hget] at hs
    cases hs
  · exact (delegatedScopes_eq_some hget).1

end ActorScopes

theorem uncovered_eq_none {scopes : OrderedMap String Grant} {permissions : List PermissionCode} :
    uncovered scopes permissions = none ↔ ∀ p ∈ permissions, ∃ caller,
      scopes.get? p.val = some caller ∧ (caller.global = true ∨ deviceScoped p = true) := by
  induction permissions with
  | nil => simp [uncovered]
  | cons p permissions ih =>
    rw [List.forall_mem_cons, ← ih, uncovered]
    rcases hget : scopes.get? p.val with _ | caller
    · simp
    · cases hg : caller.global with
      | true => simp [hg]
      | false =>
        cases hd : deviceScoped p with
        | true => simp
        | false => simp [hg]

theorem mem_narrow {scopes : OrderedMap String Grant} {allowed : List String} {g : String}
    {p : PermissionCode} : g ∈ narrow scopes allowed p ↔ g ∈ allowed ∧
      ∀ caller, scopes.get? p.val = some caller → caller.global = true ∨ g ∈ caller.groups := by
  unfold narrow
  split
  · rename_i hget
    simp [hget]
  · rename_i caller hget
    cases hg : caller.global with
    | true => simp [hget, hg]
    | false => simp [hget, hg]

theorem mem_foldl_narrow {scopes : OrderedMap String Grant} {permissions : List PermissionCode}
    {allowed : List String} {g : String} :
    g ∈ permissions.foldl (narrow scopes) allowed ↔ g ∈ allowed ∧ ∀ p ∈ permissions,
      ∀ caller, scopes.get? p.val = some caller → caller.global = true ∨ g ∈ caller.groups := by
  induction permissions generalizing allowed with
  | nil => simp
  | cons p permissions ih => rw [List.foldl_cons, ih, List.forall_mem_cons, mem_narrow, and_assoc]

section Preview

variable {role : Role} {g : String} (userGuid)

/-- What the preview works with for a delegated operator and a user it may
manage. -/
def delegatedContext (s : Store) (userGuid actorGuid : String) : EligibilityContext where
  targetIsAdmin := false
  owner := false
  selfTarget := false
  protectedTarget := false
  assigned := (s.assignments.filter (·.userGuid = userGuid)).map UserRoleAssignment.roleGuid
  permissionMap := permissionsByRole s ((sortBy Role.name s.roles).map Role.guid)
  actorScopes := delegatedScopes s actorGuid
  allGroups := sortBy DeviceGroup.name s.deviceGroups

theorem getRoleEligibility_eq {actor target : User} (hu : getCurrentUser s actorGuid = .ok actor)
    (ha : actor.isAdmin = false) (ht : s.user? userGuid = some target)
    (hadmin : target.isAdmin = false) (hne : userGuid ≠ actorGuid)
    (hp : isProtectedUser s userGuid false false = false) :
    getRoleEligibility s userGuid actorGuid =
      .ok ((sortBy Role.name s.roles).map (delegatedContext s userGuid actorGuid).eligibility) := by
  rw [getRoleEligibility, requireUser_eq_ok.mpr ht, hu, getEffectivePermissions_eq hu ha]
  change (if actor.isAdmin = true then _ else _) = _
  rw [if_neg (by simp [ha])]
  change Except.ok (List.map (EligibilityContext.eligibility ⟨target.isAdmin, actor.isAdmin,
    decide (userGuid = actorGuid), isProtectedUser s userGuid target.isAdmin false, _, _, _, _⟩) _) = _
  rw [hadmin, hp, ha, decide_eq_false hne]
  rfl

theorem permissionMap_getD (hr : role ∈ s.roles) :
    (((delegatedContext s userGuid actorGuid).permissionMap.get? role.guid).getD []) =
      s.effectivePermissions role.guid :=
  permissionsByRole_getD (List.mem_map_of_mem (mem_sortBy.mpr hr))

theorem globalAllowed_iff {roleGuid : String} : (delegatedContext s userGuid actorGuid).globalAllowed
    (s.effectivePermissions roleGuid) = true ↔ GrantsGlobally s actorGuid roleGuid := by
  simp only [EligibilityContext.globalAllowed, delegatedContext, Bool.false_or, Bool.and_eq_true,
    Bool.not_eq_true', List.isEmpty_eq_false_iff, List.all_eq_true, delegatedScopes_any, GrantsGlobally, ne_eq]

theorem allPermissionsDeviceScoped_iff {permissions : List PermissionCode} :
    EligibilityContext.allPermissionsDeviceScoped permissions = true ↔ permissions ≠ [] ∧
      ∀ p ∈ permissions, isDeviceGroupScopedPermission p.val = true := by
  simp only [EligibilityContext.allPermissionsDeviceScoped, Bool.and_eq_true, Bool.not_eq_true',
    List.isEmpty_eq_false_iff, List.all_eq_true, deviceScoped_iff]

/-- The operator has each permission somewhere, and everywhere those that know
no device groups. -/
def Covered (s : Store) (actorGuid roleGuid : String) : Prop :=
  ∀ p ∈ s.effectivePermissions roleGuid, HoldsGlobally s actorGuid p.val ∨
    ∃ g, HoldsIn s actorGuid p.val g

theorem uncovered_eq_none_iff {roleGuid : String} :
    uncovered (delegatedContext s userGuid actorGuid).actorScopes
      (s.effectivePermissions roleGuid) = none ↔ Covered s actorGuid roleGuid := by
  rw [uncovered_eq_none]
  refine forall₂_congr fun p _ ↦ ?_
  constructor
  · intro ⟨caller, hget, _⟩
    exact delegatedScopes_isSome.mp (Option.isSome_of_eq_some hget)
  · intro h
    obtain ⟨caller, hget⟩ := Option.isSome_iff_exists.mp (delegatedScopes_isSome.mpr h)
    refine ⟨caller, hget, ?_⟩
    rw [(delegatedScopes_eq_some hget).1, deviceScoped_iff]
    exact h.imp_right fun ⟨_, hg⟩ ↦ hg.1

theorem mem_allowedGroupGuids {roleGuid : String} (hc : Covered s actorGuid roleGuid) :
    g ∈ (delegatedContext s userGuid actorGuid).allowedGroupGuids
      (s.effectivePermissions roleGuid) ↔ GrantsIn s actorGuid roleGuid g := by
  have hgroups : g ∈ (delegatedContext s userGuid actorGuid).allGroups.map DeviceGroup.guid ↔
      ∃ group ∈ s.deviceGroups, group.guid = g := by
    simp only [delegatedContext, List.mem_map, mem_sortBy]
  rw [GrantsIn, ← hgroups, EligibilityContext.allowedGroupGuids]
  rcases hd : EligibilityContext.allPermissionsDeviceScoped (s.effectivePermissions roleGuid)
    with _ | _
  · have hn := mt allPermissionsDeviceScoped_iff.mpr (Bool.eq_false_iff.mp hd)
    simp only [Bool.false_and, Bool.false_eq_true, if_false, Bool.not_false, if_true,
      List.not_mem_nil, false_iff]
    exact fun h ↦ hn ⟨h.1, fun p hp ↦ (h.2.2 p hp).1⟩
  · obtain ⟨hne, hscoped⟩ := allPermissionsDeviceScoped_iff.mp hd
    simp only [Bool.true_and]
    rw [if_pos (by rfl), mem_foldl_narrow]
    refine ⟨fun h ↦ ⟨hne, h.1, fun p hp ↦ ⟨hscoped p hp, ?_⟩⟩, fun h ↦
      ⟨h.2.1, fun p hp caller hget ↦ ?_⟩⟩
    · obtain ⟨caller, hget⟩ := Option.isSome_iff_exists.mp
        (delegatedScopes_isSome.mpr (hc p hp))
      exact ((delegatedScopes_eq_some hget).2 g).mp (h.2 p hp caller hget)
    · exact ((delegatedScopes_eq_some hget).2 g).mpr (h.2.2 p hp).2

theorem reason_eq_none : (delegatedContext s userGuid actorGuid).reason role
    (s.effectivePermissions role.guid) = none ↔
      Delegatable s role ∧ Covered s actorGuid role.guid := by
  rw [← uncovered_eq_none_iff userGuid]
  simp only [EligibilityContext.reason, delegatedContext, Bool.false_eq_true, if_false,
    Bool.not_false, Bool.and_false, Bool.true_and, if_true, Delegatable]
  by_cases hp : role.protectedAccount = true
  · simp [hp]
  · by_cases hm : rolesAssign ∈ s.effectivePermissions role.guid
    · simp [hp, hm]
    · simp [hp, hm]

theorem GrantsGlobally.covered {roleGuid : String} (h : GrantsGlobally s actorGuid roleGuid) :
    Covered s actorGuid roleGuid := fun p hp ↦ .inl (h.2 p hp)

theorem GrantsIn.covered {roleGuid : String} (h : GrantsIn s actorGuid roleGuid g) :
    Covered s actorGuid roleGuid := fun p hp ↦ (h.2.2 p hp).2.imp_right fun hg ↦ ⟨g, hg⟩

theorem groupAllowed_iff {roleGuid : String} (hc : Covered s actorGuid roleGuid) :
    (EligibilityContext.allPermissionsDeviceScoped (s.effectivePermissions roleGuid) &&
      !((delegatedContext s userGuid actorGuid).allowedGroupGuids
        (s.effectivePermissions roleGuid)).isEmpty) = true ↔ ∃ g, GrantsIn s actorGuid roleGuid g := by
  rw [Bool.and_eq_true, allPermissionsDeviceScoped_iff, Bool.not_eq_true',
    List.isEmpty_eq_false_iff]
  constructor
  · intro ⟨_, hne⟩
    obtain ⟨g, hg⟩ := List.exists_mem_of_ne_nil _ hne
    exact ⟨g, (mem_allowedGroupGuids userGuid hc).mp hg⟩
  · intro ⟨g, hg⟩
    exact ⟨⟨hg.1, fun p hp ↦ (hg.2.2 p hp).1⟩,
      List.ne_nil_of_mem ((mem_allowedGroupGuids userGuid hc).mpr hg)⟩

theorem Assignable.covered (h : Assignable s actorGuid role) : Covered s actorGuid role.guid :=
  h.2.elim (·.covered) fun ⟨_, hg⟩ ↦ hg.covered

variable (hr : role ∈ s.roles)

include hr

theorem canAssign_iff : ((delegatedContext s userGuid actorGuid).eligibility role).canAssign = true ↔
    Assignable s actorGuid role := by
  simp only [EligibilityContext.eligibility, permissionMap_getD userGuid hr, Option.isNone_iff_eq_none,
    Option.or_eq_none_iff, reason_eq_none userGuid]
  have hscope : Covered s actorGuid role.guid →
      ((if (!(delegatedContext s userGuid actorGuid).globalAllowed
          (s.effectivePermissions role.guid) &&
        !(EligibilityContext.allPermissionsDeviceScoped (s.effectivePermissions role.guid) &&
          !((delegatedContext s userGuid actorGuid).allowedGroupGuids
            (s.effectivePermissions role.guid)).isEmpty)) = true then
              some "scope_exceeds_caller" else none) = none ↔
        GrantsGlobally s actorGuid role.guid ∨ ∃ g, GrantsIn s actorGuid role.guid g) := by
    intro hc
    rw [← groupAllowed_iff userGuid hc, ← globalAllowed_iff userGuid]
    simp only [ite_eq_right_iff, reduceCtorEq, imp_false, Bool.and_eq_true, Bool.not_eq_true',
      not_and, Bool.not_eq_false]
    rw [or_iff_not_imp_left, Bool.not_eq_true]
  constructor
  · intro ⟨⟨hd, hc⟩, hs⟩
    exact ⟨hd, (hscope hc).mp hs⟩
  · intro ⟨hd, hs⟩
    have hc := Assignable.covered ⟨hd, hs⟩
    exact ⟨⟨hd, hc⟩, (hscope hc).mpr hs⟩

theorem canRemove_iff :
    ((delegatedContext s userGuid actorGuid).eligibility role).canRemove = true ↔
      (∃ a ∈ s.assignments, a.userGuid = userGuid ∧ a.roleGuid = role.guid) ∧
        Assignable s actorGuid role := by
  rw [← canAssign_iff userGuid hr]
  simp only [EligibilityContext.eligibility, Bool.and_eq_true, List.contains_iff_mem]
  refine and_congr_left fun _ ↦ ?_
  simp only [delegatedContext, List.mem_map, List.mem_filter, decide_eq_true_eq, and_assoc]

theorem mem_allowedScopeTypes {scopeType : ScopeType} : scopeType ∈
    ((delegatedContext s userGuid actorGuid).eligibility role).allowedScopeTypes ↔
      Assignable s actorGuid role ∧ match scopeType with
        | .global => GrantsGlobally s actorGuid role.guid
        | .deviceGroup => ∃ g, GrantsIn s actorGuid role.guid g := by
  have hrow : ((delegatedContext s userGuid actorGuid).eligibility role).allowedScopeTypes =
      if ((delegatedContext s userGuid actorGuid).eligibility role).canAssign = true then
        (if (delegatedContext s userGuid actorGuid).globalAllowed
          (s.effectivePermissions role.guid) then [.global] else []) ++
        (if EligibilityContext.allPermissionsDeviceScoped (s.effectivePermissions role.guid) &&
          !((delegatedContext s userGuid actorGuid).allowedGroupGuids
            (s.effectivePermissions role.guid)).isEmpty then [.deviceGroup] else [])
      else [] := by
    rw [← permissionMap_getD userGuid hr]
    rfl
  rw [hrow]
  split
  · rename_i h
    have ha := (canAssign_iff userGuid hr).mp h
    rw [and_iff_right ha]
    cases scopeType with
    | global => simp [← globalAllowed_iff userGuid]
    | deviceGroup => simp [← groupAllowed_iff userGuid ha.covered]
  · rename_i h
    simp [mt (canAssign_iff userGuid hr).mpr h]

theorem mem_assignableDeviceGroups : g ∈ (((delegatedContext s userGuid actorGuid).eligibility
    role).assignableDeviceGroups.map DeviceGroup.guid) ↔
      Assignable s actorGuid role ∧ GrantsIn s actorGuid role.guid g := by
  have hrow : ((delegatedContext s userGuid actorGuid).eligibility role).assignableDeviceGroups =
      if (((delegatedContext s userGuid actorGuid).eligibility role).canAssign &&
        EligibilityContext.allPermissionsDeviceScoped (s.effectivePermissions role.guid)) = true then
        (sortBy DeviceGroup.name s.deviceGroups).filter fun group ↦
          ((delegatedContext s userGuid actorGuid).allowedGroupGuids
            (s.effectivePermissions role.guid)).contains group.guid
      else [] := by
    rw [← permissionMap_getD userGuid hr]
    rfl
  rw [hrow]
  split
  · rename_i h
    obtain ⟨hcan, _⟩ := Bool.and_eq_true_iff.mp h
    have ha := (canAssign_iff userGuid hr).mp hcan
    rw [← mem_allowedGroupGuids userGuid ha.covered, and_iff_right ha]
    simp only [List.mem_map, List.mem_filter, List.contains_iff_mem]
    constructor
    · intro ⟨group, ⟨_, hm⟩, hg⟩
      exact hg ▸ hm
    · intro hm
      obtain ⟨_, ⟨group, hgroup, hg⟩, _⟩ := (mem_allowedGroupGuids userGuid ha.covered).mp hm
      exact ⟨group, ⟨mem_sortBy.mpr hgroup, hg ▸ hm⟩, hg⟩
  · rename_i h
    simp only [List.map_nil, List.not_mem_nil, false_iff, not_and]
    intro ha hg
    refine h (Bool.and_eq_true_iff.mpr ⟨(canAssign_iff userGuid hr).mpr ha, ?_⟩)
    exact allPermissionsDeviceScoped_iff.mpr ⟨hg.1, fun p hp ↦ (hg.2.2 p hp).1⟩

end Preview

section Agreement

variable {actor target : User} {guid : ℕ → String} {normalized : List NormalizedAssignment}
  {assignments : List UserRoleAssignmentDto} {groupGuids : List String}

def Assigned (s : Store) (userGuid roleGuid : String) : Prop :=
  ∃ a ∈ s.assignments, a.userGuid = userGuid ∧ a.roleGuid = roleGuid

theorem find?_eligibility (hs : s.Consistent) {roleGuid : String} :
    ((((sortBy Role.name s.roles).map (delegatedContext s userGuid actorGuid).eligibility).find?
      (·.guid = roleGuid)).any RoleEligibility.canAssign) = true ↔
        ∃ role ∈ s.roles, role.guid = roleGuid ∧ Assignable s actorGuid role := by
  rw [List.find?_map, Option.any_map]
  rcases hf : (sortBy Role.name s.roles).find?
    ((fun row : RoleEligibility ↦ decide (row.guid = roleGuid)) ∘
      (delegatedContext s userGuid actorGuid).eligibility) with _ | found
  · refine ⟨nofun, fun ⟨role, hr, hg, _⟩ ↦ ?_⟩
    exact absurd (decide_eq_true hg) (List.find?_eq_none.mp hf role (mem_sortBy.mpr hr))
  · have hm := mem_sortBy.mp (List.mem_of_find?_eq_some hf)
    have hd := List.find?_some hf
    have hg : found.guid = roleGuid := of_decide_eq_true hd
    rw [Option.any_some, canAssign_iff userGuid hm]
    constructor
    · intro h
      exact ⟨found, hm, hg, h⟩
    · intro ⟨role, hr, hrg, h⟩
      obtain rfl := List.inj_on_of_nodup_map hs.roles hr hm (hrg.trans hg.symm)
      exact h

theorem mem_current {roleGuid : String} :
    ((s.assignments.filter (·.userGuid = userGuid)).map UserRoleAssignment.roleGuid).contains
      roleGuid = true ↔ Assigned s userGuid roleGuid := by
  simp only [List.contains_iff_mem, List.mem_map, List.mem_filter, decide_eq_true_eq, and_assoc,
    Assigned]

theorem mem_lockedRoleGuids {roleGuids : List String} {roleGuid : String}
    (hm : roleGuid ∈ roleGuids) : roleGuid ∈ lockedRoleGuids s roleGuids ↔
      (∃ role ∈ s.roles, role.guid = roleGuid ∧ role.protectedAccount = true) ∨
        rolesAssign ∈ s.effectivePermissions roleGuid := by
  rw [lockedRoleGuids, List.mem_append]
  refine or_congr ?_ ?_
  · simp only [List.mem_map, List.mem_filter, List.contains_iff_mem]
    constructor
    · intro ⟨role, ⟨⟨hr, _⟩, hp⟩, hg⟩
      exact ⟨role, hr, hg, hp⟩
    · intro ⟨role, hr, hg, hp⟩
      exact ⟨role, ⟨⟨hr, hg ▸ hm⟩, hp⟩, hg⟩
  · rw [← permissionsByRole_getD hm]
    simp only [List.mem_map, List.mem_filter, List.contains_iff_mem, Prod.exists,
      ← OrderedMap.get?_eq_some]
    constructor
    · intro ⟨_, codes, ⟨hget, hp⟩, hg⟩
      rw [← hg, hget]
      exact hp
    · intro hp
      rcases hget : (permissionsByRole s roleGuids).get? roleGuid with _ | codes
      · rw [hget] at hp
        cases hp
      · rw [hget] at hp
        exact ⟨roleGuid, codes, ⟨hget, hp⟩, rfl⟩

/-- What the write path asks for, told without its lists. -/
structure Permitted (s : Store) (userGuid actorGuid : String)
    (normalized : List NormalizedAssignment) : Prop where
  omitted : ∀ a ∈ s.assignments, a.userGuid = userGuid →
    (∀ n ∈ normalized, n.roleGuid ≠ a.roleGuid) →
      ∃ role ∈ s.roles, role.guid = a.roleGuid ∧ Assignable s actorGuid role
  requested : ∀ n ∈ normalized, ∃ role ∈ s.roles, role.guid = n.roleGuid ∧ Delegatable s role ∧
    (Assignable s actorGuid role ∨ Assigned s userGuid role.guid)
  deviceOnly : ∀ n ∈ normalized, n.scopeType = .deviceGroup → s.effectivePermissions n.roleGuid ≠ [] ∧
    ∀ p ∈ s.effectivePermissions n.roleGuid, isDeviceGroupScopedPermission p.val = true
  within : ∀ n ∈ normalized, ∀ p ∈ s.effectivePermissions n.roleGuid, Within s actorGuid n p.val

/-- The state of affairs the preview is made for. -/
structure Delegation (s : Store) (userGuid actorGuid : String) : Prop where
  consistent : s.Consistent
  operator : ∃ actor, getCurrentUser s actorGuid = .ok actor ∧ actor.isAdmin = false
  allowed : ∃ scope, requirePermission s actorGuid "roles.assign" = .ok scope
  target : ∃ target, s.user? userGuid = some target ∧ target.isAdmin = false
  unprotected : isProtectedUser s userGuid false false = false
  other : userGuid ≠ actorGuid

theorem Delegation.eligibility (d : Delegation s userGuid actorGuid) :
    getRoleEligibility s userGuid actorGuid =
      .ok ((sortBy Role.name s.roles).map (delegatedContext s userGuid actorGuid).eligibility) := by
  obtain ⟨actor, hu, ha⟩ := d.operator
  obtain ⟨target, ht, hadmin⟩ := d.target
  exact getRoleEligibility_eq userGuid hu ha ht hadmin d.other d.unprotected

theorem checkEligibility_eq_ok (d : Delegation s userGuid actorGuid)
    (hv : ∀ n ∈ normalized, n.Valid) :
    checkEligibility s normalized (permissionsByRole s
      (normalized.map NormalizedAssignment.roleGuid)) userGuid actorGuid = .ok () ↔
      (∀ role ∈ s.roles, Assigned s userGuid role.guid → ¬Assignable s actorGuid role →
        ∃ n ∈ normalized, n.roleGuid = role.guid) ∧
      (∀ n ∈ normalized, (∃ role ∈ s.roles, role.guid = n.roleGuid ∧ Assignable s actorGuid role) ∨
        Assigned s userGuid n.roleGuid) ∧
      ∀ n ∈ normalized, ∀ p ∈ s.effectivePermissions n.roleGuid, Within s actorGuid n p.val := by
  obtain ⟨actor, hu, ha⟩ := d.operator
  simp only [checkEligibility, bind_eq_ok, exists_unit, forbidFound_eq_ok, d.eligibility,
    getEffectivePermissions_eq hu ha, Except.ok.injEq, exists_eq_left']
  rw [assertWithinScope_eq_ok hv rfl]
  refine and_congr ?_ (and_congr_left fun _ ↦ ?_)
  · rw [List.find?_eq_none]
    constructor
    · intro h role hr hassigned hn
      by_contra hno
      refine h ((delegatedContext s userGuid actorGuid).eligibility role) ?_ ?_
      · rw [List.mem_filter, Bool.and_eq_true, Bool.not_eq_true', Bool.eq_false_iff, ne_eq,
          canRemove_iff userGuid hr, not_and]
        exact ⟨List.mem_map_of_mem (mem_sortBy.mpr hr), mem_current.mpr hassigned, fun _ ↦ hn⟩
      · simpa [EligibilityContext.eligibility] using hno
    · intro h row hm
      obtain ⟨hrow, hlocked⟩ := List.mem_filter.mp hm
      obtain ⟨role, hr, rfl⟩ := List.mem_map.mp hrow
      have hr := mem_sortBy.mp hr
      rw [Bool.and_eq_true, Bool.not_eq_true', Bool.eq_false_iff, ne_eq, canRemove_iff userGuid hr,
        not_and] at hlocked
      have hassigned := mem_current.mp hlocked.1
      obtain ⟨n, hn, hg⟩ := h role hr hassigned (hlocked.2 hassigned)
      simpa [EligibilityContext.eligibility] using ⟨n, hn, hg⟩
  · rw [List.find?_eq_none]
    refine forall₂_congr fun n hn ↦ ?_
    rw [← mem_current, ← @find?_eligibility s userGuid actorGuid d.consistent]
    simp only [Bool.and_eq_true, Bool.not_eq_true', not_and_or, Bool.not_eq_false]

theorem checkDelegation_eq_ok (d : Delegation s userGuid actorGuid)
    (hv : ∀ n ∈ normalized, n.Valid) :
    checkDelegation s normalized userGuid actorGuid = .ok () ↔
      (∀ a ∈ s.assignments, a.userGuid = userGuid → (∀ n ∈ normalized, n.roleGuid ≠ a.roleGuid) →
        a.roleGuid ∉ lockedRoleGuids s ((s.assignments.filter (·.userGuid = userGuid)).map
          UserRoleAssignment.roleGuid)) ∧
      ∀ n ∈ normalized, ∀ p ∈ s.effectivePermissions n.roleGuid, Within s actorGuid n p.val := by
  obtain ⟨actor, hu, ha⟩ := d.operator
  simp only [checkDelegation, bind_eq_ok, exists_unit, forbidFound_eq_ok,
    getEffectivePermissions_eq hu ha, Except.ok.injEq, exists_eq_left']
  rw [assertWithinScope_eq_ok hv rfl, List.find?_eq_none]
  refine and_congr_left fun _ ↦ ?_
  simp only [List.mem_filter, decide_eq_true_eq, and_imp, Bool.and_eq_true, Bool.not_eq_true',
    List.contains_eq_mem, decide_eq_false_iff_not, List.mem_map, not_exists, not_and, ne_eq]

theorem precheck_eq_ok (d : Delegation s userGuid actorGuid) :
    precheck s normalized groupGuids userGuid actorGuid = .ok () ↔
      (∃ roles, assertRolesExist s (normalized.map NormalizedAssignment.roleGuid) = .ok roles) ∧
      assertScopeTypes (permissionsByRole s (normalized.map NormalizedAssignment.roleGuid))
        normalized = .ok () ∧
      checkEligibility s normalized (permissionsByRole s
        (normalized.map NormalizedAssignment.roleGuid)) userGuid actorGuid = .ok () ∧
      assertGroupsExist s groupGuids = .ok () := by
  obtain ⟨actor, hu, ha⟩ := d.operator
  obtain ⟨target, ht, hadmin⟩ := d.target
  simp only [precheck, bind_eq_ok, exists_unit, hu, Except.ok.injEq, exists_eq_left', ha,
    unlessOwner_eq_ok, forbidIf_eq_ok, requireUser_eq_ok, discard_eq_ok, Bool.not_false,
    Bool.true_and, Bool.false_eq_true, false_or, decide_eq_false_iff_not, ht, Option.some.injEq,
    hadmin, d.allowed, d.unprotected, d.other, not_false_eq_true, true_and, exists_and_right]

theorem mem_groups {a : UserRoleAssignmentDto} {g : String}
    (hg : g ∈ a.normalized.deviceGroupGuids) : g ∈ a.deviceGroupGuids.getD [] := by
  rw [UserRoleAssignmentDto.normalized] at hg
  split at hg
  · exact List.mem_eraseDups.mp hg
  · cases hg

theorem exists_replaced_iff (d : Delegation s userGuid actorGuid) (hw : WellFormed s assignments) :
    (∃ s', replaceUserRoles s s guid userGuid assignments actorGuid = .ok s') ↔
      Permitted s userGuid actorGuid (assignments.map UserRoleAssignmentDto.normalized) := by
  obtain ⟨actor, hu, ha⟩ := d.operator
  obtain ⟨target, ht, hadmin⟩ := d.target
  have hvalid := validateAssignments_ok hw.distinct (fun _ _ ↦ List.not_mem_nil) hw.global
    hw.deviceGroup
  obtain ⟨hnodup, -, hv⟩ := validateAssignments_spec hvalid
  have hrole : ∀ n ∈ assignments.map UserRoleAssignmentDto.normalized,
      ∃ role ∈ s.roles, role.guid = n.roleGuid := by
    intro n hn
    obtain ⟨a, hm, rfl⟩ := List.mem_map.mp hn
    exact hw.role a hm
  have hroles := assertRolesExist_ok d.consistent hnodup (by simpa using hrole)
  have hgroups : assertGroupsExist s ((assignments.map UserRoleAssignmentDto.normalized).flatMap
      NormalizedAssignment.deviceGroupGuids).eraseDups = .ok () := by
    refine assertGroupsExist_ok d.consistent (nodup_eraseDups _) fun g hg ↦ ?_
    rw [List.mem_eraseDups, List.mem_flatMap] at hg
    obtain ⟨n, hn, hg⟩ := hg
    obtain ⟨a, hm, rfl⟩ := List.mem_map.mp hn
    exact hw.group a hm g (mem_groups hg)
  rw [replaceUserRoles, hvalid]
  simp only [bind_eq_ok, exists_unit, Except.ok.injEq, exists_eq_left', transaction_eq_ok hu ha,
    precheck_eq_ok d, hroles, hgroups, exists_and_left, exists_eq', and_true, true_and,
    checkEligibility_eq_ok d hv, assertScopeTypes_eq_ok]
  generalize hnormalized : assignments.map UserRoleAssignmentDto.normalized = normalized at *
  constructor
  · rintro ⟨⟨htypes, hlocked, hdenied, hwithin⟩, hdel⟩
    refine ⟨fun a hm hua hno ↦ ?_, fun n hn ↦ ?_, htypes, hwithin⟩
    · obtain ⟨role, hr, hg⟩ := d.consistent.assignmentRole a hm
      refine ⟨role, hr, hg, ?_⟩
      by_contra hn
      obtain ⟨n, hn, hng⟩ := hlocked role hr ⟨a, hm, hua, hg.symm⟩ hn
      exact hno n hn (hng.trans hg)
    · obtain ⟨role, hr, hg⟩ := hrole n hn
      obtain ⟨roles, hroles', hfree⟩ := hdel.roles
      obtain rfl := Except.ok.inj (hroles.symm.trans hroles')
      have hp : ¬role.protectedAccount = true := by
        refine List.find?_eq_none.mp hfree role (List.mem_filter.mpr ⟨hr, ?_⟩)
        exact List.contains_iff_mem.mpr (hg ▸ List.mem_map_of_mem hn)
      have hd : Delegatable s role := ⟨by simpa using hp, hg ▸ hdel.assign n hn⟩
      refine ⟨role, hr, hg, hd, ?_⟩
      rcases hdenied n hn with ⟨role', hr', hg', hassign⟩ | hassigned
      · obtain rfl := List.inj_on_of_nodup_map d.consistent.roles hr hr' (hg.trans hg'.symm)
        exact .inl hassign
      · exact .inr (hg ▸ hassigned)
  · intro h
    refine ⟨⟨h.deviceOnly, fun role hr hassigned hn ↦ ?_, fun n hn ↦ ?_, h.within⟩, ?_⟩
    · obtain ⟨a, hm, hua, hra⟩ := hassigned
      by_contra hno
      obtain ⟨role', hr', hg', hassign⟩ := h.omitted a hm hua fun n hn hg ↦
        hno ⟨n, hn, hg.trans hra⟩
      obtain rfl := List.inj_on_of_nodup_map d.consistent.roles hr hr' (hra.symm.trans hg'.symm)
      exact hn hassign
    · obtain ⟨role, hr, hg, -, hassign⟩ := h.requested n hn
      exact hassign.imp (fun ha ↦ ⟨role, hr, hg, ha⟩) fun ha ↦ hg ▸ ha
    · refine ⟨d.allowed, d.target, ?_, d.other, ⟨_, hroles, ?_⟩, fun n hn ↦ ?_,
        assertScopeTypes_eq_ok.mpr h.deviceOnly, hgroups,
        (checkDelegation_eq_ok d hv).mpr ⟨fun a hm hua hno ↦ ?_, h.within⟩⟩
      · rw [isProtectedUser_transaction ht, hadmin]
        exact d.unprotected
      · rw [List.find?_eq_none]
        intro role hm
        obtain ⟨hr, hc⟩ := List.mem_filter.mp hm
        obtain ⟨n, hn, hg⟩ := List.mem_map.mp (List.contains_iff_mem.mp hc)
        obtain ⟨role', hr', hg', hd, -⟩ := h.requested n hn
        obtain rfl := List.inj_on_of_nodup_map d.consistent.roles hr hr' (hg.symm.trans hg'.symm)
        simp [hd.1]
      · obtain ⟨role, -, hg, hd, -⟩ := h.requested n hn
        exact hg ▸ hd.2
      · obtain ⟨role, hr, hg, hassign⟩ := h.omitted a hm hua hno
        rw [mem_lockedRoleGuids (List.contains_iff_mem.mp (mem_current.mpr ⟨a, hm, hua, rfl⟩))]
        intro hlocked
        rcases hlocked with ⟨role', hr', hg', hp⟩ | hp
        · obtain rfl := List.inj_on_of_nodup_map d.consistent.roles hr hr' (hg.trans hg'.symm)
          rw [hassign.1.1] at hp
          cases hp
        · exact hassign.1.2 (hg ▸ hp)

theorem unprotected_of_assigned {role : Role} (hr : role ∈ s.roles)
    (ha : Assigned s userGuid role.guid) (hp : isProtectedUser s userGuid false false = false) :
    role.protectedAccount = false := by
  simp only [isProtectedUser, Bool.false_eq_true, if_false, Bool.false_or, List.any_eq_false] at hp
  have hn := hp role (List.mem_filter.mpr ⟨hr, mem_current.mpr ha⟩)
  simpa using hn

theorem exists_row {P : RoleEligibility → Prop} {roleGuid : String} :
    (∃ row ∈ (sortBy Role.name s.roles).map (delegatedContext s userGuid actorGuid).eligibility,
      row.guid = roleGuid ∧ P row) ↔ ∃ role ∈ s.roles, role.guid = roleGuid ∧
        P ((delegatedContext s userGuid actorGuid).eligibility role) := by
  constructor
  · intro ⟨row, hrow, hg, hp⟩
    obtain ⟨role, hr, rfl⟩ := List.mem_map.mp hrow
    exact ⟨role, mem_sortBy.mp hr, hg, hp⟩
  · intro ⟨role, hr, hg, hp⟩
    exact ⟨_, List.mem_map_of_mem (mem_sortBy.mpr hr), hg, hp⟩

/-- The preview offers the role as the request wants it, or the request leaves
a role without permissions at global scope. -/
def Offered (s : Store) (userGuid : String) (rows : List RoleEligibility)
    (request : UserRoleAssignmentDto) : Prop :=
  (∃ row ∈ rows, row.guid = request.roleGuid ∧ row.canAssign = true ∧
    request.scopeType ∈ row.allowedScopeTypes ∧
    ∀ g ∈ request.deviceGroupGuids.getD [], g ∈ row.assignableDeviceGroups.map DeviceGroup.guid) ∨
  (request.scopeType = .global ∧ Assigned s userGuid request.roleGuid ∧
    s.effectivePermissions request.roleGuid = [])

theorem global_offered_iff (d : Delegation s userGuid actorGuid) (hw : WellFormed s assignments)
    {r : UserRoleAssignmentDto} (hr : r ∈ assignments) (ht : r.scopeType = .global) :
    ((∃ role ∈ s.roles, role.guid = r.roleGuid ∧ Delegatable s role ∧
      (Assignable s actorGuid role ∨ Assigned s userGuid role.guid)) ∧
      ∀ p ∈ s.effectivePermissions r.roleGuid, Within s actorGuid r.normalized p.val) ↔
    Offered s userGuid ((sortBy Role.name s.roles).map
      (delegatedContext s userGuid actorGuid).eligibility) r := by
  have hwithin : ∀ p : PermissionCode, Within s actorGuid r.normalized p.val ↔
      HoldsGlobally s actorGuid p.val := by
    intro p
    simp [Within, ht]
  simp only [hwithin, Offered, exists_row, ht, true_and, hw.global r hr ht, List.not_mem_nil,
    false_imp_iff, implies_true, and_true]
  constructor
  · intro ⟨⟨role, hrole, hg, hd, ha⟩, hall⟩
    by_cases he : s.effectivePermissions r.roleGuid = []
    · refine .inr ⟨?_, he⟩
      rcases ha with ha | ha
      · rcases ha.2 with hn | ⟨_, hn⟩
        · exact absurd (hg ▸ he) hn.1
        · exact absurd (hg ▸ he) hn.1
      · exact hg ▸ ha
    · have hgrants : GrantsGlobally s actorGuid role.guid := hg ▸ ⟨he, hall⟩
      have hassign : Assignable s actorGuid role := ⟨hd, .inl hgrants⟩
      exact .inl ⟨role, hrole, hg, (canAssign_iff userGuid hrole).mpr hassign,
        (mem_allowedScopeTypes userGuid hrole).mpr ⟨hassign, hgrants⟩⟩
  · intro h
    rcases h with ⟨role, hrole, hg, hcan, hallowed⟩ | ⟨ha, he⟩
    · obtain ⟨hassign, hgrants⟩ := (mem_allowedScopeTypes userGuid hrole).mp hallowed
      exact ⟨⟨role, hrole, hg, hassign.1, .inl hassign⟩, hg ▸ hgrants.2⟩
    · obtain ⟨role, hrole, hg⟩ := hw.role r hr
      have hprot := unprotected_of_assigned hrole (hg ▸ ha) d.unprotected
      refine ⟨⟨role, hrole, hg, ⟨hprot, ?_⟩, .inr (hg ▸ ha)⟩, ?_⟩
      · rw [hg, he]
        exact List.not_mem_nil
      · rw [he]
        intro p hp
        cases hp

theorem deviceGroup_offered_iff (hw : WellFormed s assignments) {r : UserRoleAssignmentDto}
    (hr : r ∈ assignments) (ht : r.scopeType = .deviceGroup) :
    ((∃ role ∈ s.roles, role.guid = r.roleGuid ∧ Delegatable s role ∧
      (Assignable s actorGuid role ∨ Assigned s userGuid role.guid)) ∧
      (s.effectivePermissions r.roleGuid ≠ [] ∧
        ∀ p ∈ s.effectivePermissions r.roleGuid, isDeviceGroupScopedPermission p.val = true) ∧
      ∀ p ∈ s.effectivePermissions r.roleGuid, Within s actorGuid r.normalized p.val) ↔
    Offered s userGuid ((sortBy Role.name s.roles).map
      (delegatedContext s userGuid actorGuid).eligibility) r := by
  have hwithin : ∀ p : PermissionCode, Within s actorGuid r.normalized p.val ↔
      HoldsGlobally s actorGuid p.val ∨
        ∀ g ∈ r.deviceGroupGuids.getD [], HoldsIn s actorGuid p.val g := by
    intro p
    simp [Within, ht, UserRoleAssignmentDto.normalized, UserRoleAssignmentDto.groups]
  obtain ⟨g₀, hg₀⟩ := List.exists_mem_of_ne_nil _ (hw.deviceGroup r hr ht)
  simp only [hwithin, Offered, exists_row, ht, reduceCtorEq, false_and, or_false]
  constructor
  · rintro ⟨⟨role, hrole, hg, hd, _⟩, ⟨hne, hdevice⟩, hall⟩
    have hgrants : ∀ g ∈ r.deviceGroupGuids.getD [], GrantsIn s actorGuid role.guid g := by
      intro g hm
      rw [hg]
      exact ⟨hne, hw.group r hr g hm, fun p hp ↦
        ⟨hdevice p hp, (hall p hp).imp_right fun h ↦ h g hm⟩⟩
    have hassign : Assignable s actorGuid role := ⟨hd, .inr ⟨g₀, hgrants g₀ hg₀⟩⟩
    exact ⟨role, hrole, hg, (canAssign_iff userGuid hrole).mpr hassign,
      (mem_allowedScopeTypes userGuid hrole).mpr ⟨hassign, g₀, hgrants g₀ hg₀⟩,
      fun g hm ↦ (mem_assignableDeviceGroups userGuid hrole).mpr ⟨hassign, hgrants g hm⟩⟩
  · rintro ⟨role, hrole, hg, hcan, _, hall⟩
    have hassign := (canAssign_iff userGuid hrole).mp hcan
    have hgrants : ∀ g ∈ r.deviceGroupGuids.getD [], GrantsIn s actorGuid r.roleGuid g := by
      intro g hm
      exact hg ▸ ((mem_assignableDeviceGroups userGuid hrole).mp (hall g hm)).2
    refine ⟨⟨role, hrole, hg, hassign.1, .inl hassign⟩, ⟨(hgrants g₀ hg₀).1, fun p hp ↦
      ((hgrants g₀ hg₀).2.2 p hp).1⟩, fun p hp ↦ ?_⟩
    by_cases hglobal : HoldsGlobally s actorGuid p.val
    · exact .inl hglobal
    · exact .inr fun g hm ↦ ((hgrants g hm).2.2 p hp).2.resolve_left hglobal

theorem offered_iff (d : Delegation s userGuid actorGuid) (hw : WellFormed s assignments)
    {r : UserRoleAssignmentDto} (hr : r ∈ assignments) :
    ((∃ role ∈ s.roles, role.guid = r.roleGuid ∧ Delegatable s role ∧
      (Assignable s actorGuid role ∨ Assigned s userGuid role.guid)) ∧
      (r.scopeType = .deviceGroup → s.effectivePermissions r.roleGuid ≠ [] ∧
        ∀ p ∈ s.effectivePermissions r.roleGuid, isDeviceGroupScopedPermission p.val = true) ∧
      ∀ p ∈ s.effectivePermissions r.roleGuid, Within s actorGuid r.normalized p.val) ↔
    Offered s userGuid ((sortBy Role.name s.roles).map
      (delegatedContext s userGuid actorGuid).eligibility) r := by
  cases ht : r.scopeType with
  | global =>
    rw [← global_offered_iff d hw hr ht]
    simp
  | deviceGroup =>
    rw [← deviceGroup_offered_iff hw hr ht]
    simp

/-- The preview tells a delegated operator beforehand what the write path will
accept. -/
theorem preview_agrees_with_replacement (d : Delegation s userGuid actorGuid)
    (hw : WellFormed s assignments) :
    (∃ s', replaceUserRoles s s guid userGuid assignments actorGuid = .ok s') ↔
      ∃ rows, getRoleEligibility s userGuid actorGuid = .ok rows ∧
        (∀ a ∈ s.assignments, a.userGuid = userGuid → (∀ r ∈ assignments, r.roleGuid ≠ a.roleGuid) →
          ∃ row ∈ rows, row.guid = a.roleGuid ∧ row.canRemove = true) ∧
        ∀ r ∈ assignments, Offered s userGuid rows r := by
  rw [exists_replaced_iff d hw, d.eligibility]
  simp only [Except.ok.injEq, exists_eq_left', exists_row]
  have homitted : ∀ a ∈ s.assignments, a.userGuid = userGuid →
      ((∃ role ∈ s.roles, role.guid = a.roleGuid ∧ Assignable s actorGuid role) ↔
        ∃ role ∈ s.roles, role.guid = a.roleGuid ∧
          ((delegatedContext s userGuid actorGuid).eligibility role).canRemove = true) := by
    intro a hm hua
    refine exists_congr fun role ↦ and_congr_right fun hr ↦ and_congr_right fun hg ↦ ?_
    rw [canRemove_iff userGuid hr]
    exact ⟨fun ha ↦ ⟨⟨a, hm, hua, hg.symm⟩, ha⟩, And.right⟩
  constructor
  · intro h
    refine ⟨fun a hm hua hno ↦ (homitted a hm hua).mp (h.omitted a hm hua ?_), fun r hr ↦ ?_⟩
    · simpa using hno
    · have hn := List.mem_map_of_mem (f := UserRoleAssignmentDto.normalized) hr
      exact (offered_iff d hw hr).mp ⟨h.requested _ hn, h.deviceOnly _ hn, h.within _ hn⟩
  · intro ⟨homit, hoffered⟩
    have hall := fun r hr ↦ (offered_iff d hw hr).mpr (hoffered r hr)
    refine ⟨fun a hm hua hno ↦ (homitted a hm hua).mpr (homit a hm hua ?_), ?_, ?_, ?_⟩
    · simpa using hno
    · exact List.forall_mem_map.mpr fun r hr ↦ (hall r hr).1
    · exact List.forall_mem_map.mpr fun r hr ↦ (hall r hr).2.1
    · exact List.forall_mem_map.mpr fun r hr ↦ (hall r hr).2.2

theorem damagedStore_delegation : Delegation damagedStore "member" "operator" where
  consistent := damagedStore_consistent
  operator := ⟨_, damagedStore_operator, rfl⟩
  allowed := ⟨⟨true, []⟩, by decide +kernel⟩
  target := ⟨⟨"member", .active, false⟩, rfl, rfl⟩
  unprotected := by decide
  other := by decide

theorem sampleRequest_wellFormed : WellFormed damagedStore sampleRequest where
  distinct := by decide
  role := by decide
  global := by decide
  deviceGroup := by decide
  group := by decide

theorem sample_preview_agrees :
    (∃ s', replaceUserRoles damagedStore damagedStore freshGuid "member" sampleRequest "operator" =
      .ok s') ↔
      ∃ rows, getRoleEligibility damagedStore "member" "operator" = .ok rows ∧
        (∀ a ∈ damagedStore.assignments, a.userGuid = "member" →
          (∀ r ∈ sampleRequest, r.roleGuid ≠ a.roleGuid) →
            ∃ row ∈ rows, row.guid = a.roleGuid ∧ row.canRemove = true) ∧
        ∀ r ∈ sampleRequest, Offered damagedStore "member" rows r :=
  preview_agrees_with_replacement damagedStore_delegation sampleRequest_wellFormed

end Agreement

end RustdeskConsole.Rbac
