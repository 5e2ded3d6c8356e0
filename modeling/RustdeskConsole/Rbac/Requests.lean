import RustdeskConsole.Effects.Outcomes
import RustdeskConsole.Rbac.Grants
import RustdeskConsole.Rbac.UserRole

namespace RustdeskConsole.Rbac

open Collections Effects.Guard

/-- What the validation makes sure of. -/
structure NormalizedAssignment.Valid (a : NormalizedAssignment) : Prop where
  global : a.scopeType = .global → a.deviceGroupGuids = []
  deviceGroup : a.scopeType = .deviceGroup → a.deviceGroupGuids ≠ []
  nodup : a.deviceGroupGuids.Nodup

/-- A request that names each role once, only roles and device groups there
are, and device groups exactly where the scope needs them. -/
structure WellFormed (s : Store) (assignments : List UserRoleAssignmentDto) : Prop where
  distinct : (assignments.map UserRoleAssignmentDto.roleGuid).Nodup
  role : ∀ a ∈ assignments, ∃ role ∈ s.roles, role.guid = a.roleGuid
  global : ∀ a ∈ assignments, a.scopeType = .global → a.deviceGroupGuids.getD [] = []
  deviceGroup : ∀ a ∈ assignments, a.scopeType = .deviceGroup → a.deviceGroupGuids.getD [] ≠ []
  group : ∀ a ∈ assignments, ∀ guid ∈ a.deviceGroupGuids.getD [],
    ∃ group ∈ s.deviceGroups, group.guid = guid

@[simp] theorem normalized_roleGuid (a : UserRoleAssignmentDto) :
    a.normalized.roleGuid = a.roleGuid := rfl

@[simp] theorem normalized_scopeType (a : UserRoleAssignmentDto) :
    a.normalized.scopeType = a.scopeType := rfl

theorem normalized_valid {a : UserRoleAssignmentDto}
    (hd : a.scopeType = .deviceGroup → a.groups ≠ []) : a.normalized.Valid := by
  refine ⟨fun hs ↦ ?_, fun hs ↦ ?_, ?_⟩
  · simp only [UserRoleAssignmentDto.normalized] at hs ⊢
    simp [hs]
  · simp only [UserRoleAssignmentDto.normalized] at hs ⊢
    simpa [hs] using hd hs
  · simp only [UserRoleAssignmentDto.normalized]
    split
    · exact nodup_eraseDups _
    · exact .nil

theorem validateAssignments_spec {seen : List String} {assignments : List UserRoleAssignmentDto}
    {normalized : List NormalizedAssignment}
    (h : validateAssignments seen assignments = .ok normalized) :
    (normalized.map NormalizedAssignment.roleGuid).Nodup ∧
      (∀ a ∈ normalized, a.roleGuid ∉ seen) ∧ ∀ a ∈ normalized, a.Valid := by
  induction assignments generalizing seen normalized with
  | nil =>
    obtain rfl := Except.ok.inj h
    simp
  | cons a rest ih =>
    unfold validateAssignments at h
    split at h
    · cases h
    rename_i hseen
    split at h
    · cases h
    rename_i hd
    split at h
    · cases h
    obtain ⟨tail, ht, h⟩ := bind_eq_ok.mp h
    obtain rfl := pure_eq_ok.mp h
    obtain ⟨hn, hs, hv⟩ := ih ht
    have hv' : a.normalized.Valid := by
      refine normalized_valid fun ha he ↦ hd ?_
      simp [ha, he]
    refine ⟨?_, ?_, ?_⟩
    · rw [List.map_cons, List.nodup_cons]
      refine ⟨fun hm ↦ ?_, hn⟩
      obtain ⟨b, hb, he⟩ := List.mem_map.mp hm
      exact hs b hb (by simp [he])
    · rw [List.forall_mem_cons]
      refine ⟨by simpa using hseen, fun b hb hm ↦ hs b hb (List.mem_append_left _ hm)⟩
    · rw [List.forall_mem_cons]
      exact ⟨hv', hv⟩

theorem validateAssignments_ok {seen : List String} {assignments : List UserRoleAssignmentDto}
    (hn : (assignments.map UserRoleAssignmentDto.roleGuid).Nodup)
    (hs : ∀ a ∈ assignments, a.roleGuid ∉ seen)
    (hg : ∀ a ∈ assignments, a.scopeType = .global → a.deviceGroupGuids.getD [] = [])
    (hd : ∀ a ∈ assignments, a.scopeType = .deviceGroup → a.deviceGroupGuids.getD [] ≠ []) :
    validateAssignments seen assignments =
      .ok (assignments.map UserRoleAssignmentDto.normalized) := by
  induction assignments generalizing seen with
  | nil => rfl
  | cons a rest ih =>
    rw [List.map_cons, List.nodup_cons] at hn
    rw [List.forall_mem_cons] at hs hg hd
    have hrest : validateAssignments (seen ++ [a.roleGuid]) rest =
        .ok (rest.map UserRoleAssignmentDto.normalized) := by
      refine ih hn.2 (fun b hb hm ↦ ?_) hg.2 hd.2
      rcases List.mem_append.mp hm with hm | hm
      · exact hs.2 b hb hm
      · exact hn.1 (List.mem_map.mpr ⟨b, hb, List.mem_singleton.mp hm⟩)
    have hgroups : a.scopeType = .deviceGroup → a.groups ≠ [] := by
      intro ha he
      obtain ⟨g, hm⟩ := List.exists_mem_of_ne_nil _ (hd.1 ha)
      have hm' : g ∈ a.groups := List.mem_eraseDups.mpr hm
      rw [he] at hm'
      cases hm'
    have hglobal : a.scopeType = .global → a.groups = [] := by
      intro ha
      rw [UserRoleAssignmentDto.groups, hg.1 ha]
      rfl
    unfold validateAssignments
    rw [if_neg (by simpa using hs.1), if_neg (by simpa using hgroups),
      if_neg (by simpa using hglobal), hrest]
    rfl

@[simp] theorem forbidIf_eq_ok {condition : Bool} {message : String} :
    forbidIf condition message = .ok () ↔ condition = false := by
  cases condition with
  | false => exact ⟨fun _ ↦ rfl, fun _ ↦ rfl⟩
  | true => exact ⟨nofun, nofun⟩

@[simp] theorem forbidFound_eq_ok {α : Type} {found : Option α} {message : α → String} :
    forbidFound found message = .ok () ↔ found = none := by
  cases found with
  | none => exact ⟨fun _ ↦ rfl, fun _ ↦ rfl⟩
  | some a => exact ⟨nofun, nofun⟩

@[simp] theorem unlessOwner_eq_ok {owner : Bool} {check : Except Failure Unit} :
    unlessOwner owner check = .ok () ↔ owner = true ∨ check = .ok () := by
  cases owner with
  | false => simp [unlessOwner]
  | true => simp [unlessOwner]

theorem requireUser_eq_ok {s : Store} {userGuid : String} {user : User} :
    requireUser s userGuid = .ok user ↔ s.user? userGuid = some user := by
  unfold requireUser
  split
  · rename_i found hf
    rw [hf, Except.ok.injEq, Option.some.injEq]
  · rename_i hf
    rw [hf]
    exact ⟨nofun, nofun⟩

section Roles

variable {s : Store} {roleGuids : List String}

/-- Codes outside the catalog do not count, so leaving them out first changes
nothing. -/
theorem filterEffectivePermissionCodes_filter (codes : List String) :
    filterEffectivePermissionCodes (codes.filter isAssignablePermissionCode) =
      filterEffectivePermissionCodes codes := by
  have h : (codes.filter isAssignablePermissionCode).filterMap PermissionCode.of? =
      codes.filterMap PermissionCode.of? := by
    rw [List.filterMap_filter]
    refine List.filterMap_congr fun code _ ↦ ?_
    by_cases hc : isAssignablePermissionCode code = true
    · rw [if_pos hc]
    · rw [if_neg hc, PermissionCode.of?, dif_neg hc]
  rw [filterEffectivePermissionCodes, h, ← filterEffectivePermissionCodes]

theorem permissionsByRole_getD {roleGuid : String} (h : roleGuid ∈ roleGuids) :
    ((permissionsByRole s roleGuids).get? roleGuid).getD [] = s.effectivePermissions roleGuid := by
  have hrows : (((s.rolePermissions.filter fun row ↦ roleGuids.contains row.roleGuid).filter
      fun row ↦ isAssignablePermissionCode row.permissionCode).filter (·.roleGuid = roleGuid)).map
        RolePermission.permissionCode = ((s.rolePermissions.filter (·.roleGuid = roleGuid)).map
          RolePermission.permissionCode).filter isAssignablePermissionCode := by
    rw [List.filter_map, List.filter_filter, List.filter_filter, List.filter_filter]
    refine congrArg _ (List.filter_congr fun row _ ↦ ?_)
    by_cases hr : row.roleGuid = roleGuid
    · simp [hr, h]
    · simp [hr]
  rw [permissionsByRole, groupPermissions, OrderedMap.get?_mapValues, Store.effectivePermissions,
    ← filterEffectivePermissionCodes_filter, ← hrows, ← OrderedMap.getD_group]
  generalize (OrderedMap.group _ _ _).get? roleGuid = codes
  cases codes with
  | none => simp [filterEffectivePermissionCodes]
  | some codes => rfl

theorem mem_of_permissionsByRole {roleGuid : String} {codes : List PermissionCode}
    (h : (permissionsByRole s roleGuids).get? roleGuid = some codes) : roleGuid ∈ roleGuids := by
  rw [permissionsByRole, groupPermissions, OrderedMap.get?_mapValues, OrderedMap.get?_group] at h
  split at h
  · cases h
  · rename_i hn
    obtain ⟨row, hrow⟩ := List.exists_mem_of_ne_nil _ hn
    simp only [List.mem_filter, List.contains_iff_mem, decide_eq_true_eq] at hrow
    exact hrow.2 ▸ hrow.1.1.2

theorem permissionsByRole_any {p : PermissionCode} :
    (permissionsByRole s roleGuids).entries.any (·.2.contains p) = true ↔
      ∃ roleGuid ∈ roleGuids, p ∈ s.effectivePermissions roleGuid := by
  rw [List.any_eq_true]
  simp only [List.contains_iff_mem, Prod.exists, ← OrderedMap.get?_eq_some]
  constructor
  · intro ⟨roleGuid, codes, hget, hp⟩
    have hm := mem_of_permissionsByRole hget
    refine ⟨roleGuid, hm, ?_⟩
    rwa [← permissionsByRole_getD hm, hget]
  · intro ⟨roleGuid, hm, hp⟩
    rw [← permissionsByRole_getD hm] at hp
    rcases hget : (permissionsByRole s roleGuids).get? roleGuid with _ | codes
    · rw [hget] at hp
      cases hp
    · rw [hget] at hp
      exact ⟨roleGuid, codes, hget, hp⟩

theorem assertRolesExist_eq_ok {roles : List Role} :
    assertRolesExist s roleGuids = .ok roles ↔
      (s.roles.filter fun role ↦ roleGuids.contains role.guid).length = roleGuids.length ∧
        s.roles.filter (fun role ↦ roleGuids.contains role.guid) = roles := by
  unfold assertRolesExist
  dsimp only
  split
  · rename_i h
    exact ⟨nofun, fun hr ↦ absurd hr.1 h⟩
  · rename_i h
    rw [Except.ok.injEq, iff_and_self]
    exact fun _ ↦ of_not_not h

theorem assertRolesExist_ok (hs : s.Consistent) (hn : roleGuids.Nodup)
    (h : ∀ guid ∈ roleGuids, ∃ role ∈ s.roles, role.guid = guid) :
    assertRolesExist s roleGuids =
      .ok (s.roles.filter fun role ↦ roleGuids.contains role.guid) :=
  assertRolesExist_eq_ok.mpr ⟨(length_filter_contains hs.roles hn).mpr h, rfl⟩

theorem assertGroupsExist_ok {groupGuids : List String} (hs : s.Consistent)
    (hn : groupGuids.Nodup) (h : ∀ guid ∈ groupGuids, ∃ group ∈ s.deviceGroups, group.guid = guid) :
    assertGroupsExist s groupGuids = .ok () := by
  unfold assertGroupsExist
  rw [if_neg (not_not.mpr ((length_filter_contains hs.deviceGroups hn).mpr h))]

end Roles

section Scope

variable {s : Store} {normalized : List NormalizedAssignment}

theorem requested_getD {a : NormalizedAssignment} (ha : a ∈ normalized) :
    ((permissionsByRole s (normalized.map NormalizedAssignment.roleGuid)).get? a.roleGuid).getD [] =
      s.effectivePermissions a.roleGuid :=
  permissionsByRole_getD (List.mem_map_of_mem ha)

theorem assertScopeTypes_eq_ok :
    assertScopeTypes (permissionsByRole s (normalized.map NormalizedAssignment.roleGuid))
      normalized = .ok () ↔ ∀ a ∈ normalized, a.scopeType = .deviceGroup →
        s.effectivePermissions a.roleGuid ≠ [] ∧
          ∀ p ∈ s.effectivePermissions a.roleGuid, isDeviceGroupScopedPermission p.val = true := by
  unfold assertScopeTypes
  split
  · rename_i h
    refine ⟨nofun, fun hall ↦ ?_⟩
    obtain ⟨a, ha, h⟩ := List.any_eq_true.mp h
    simp only [requested_getD ha, Bool.and_eq_true, decide_eq_true_eq, Bool.or_eq_true,
      List.isEmpty_iff, List.any_eq_true, Bool.not_eq_true'] at h
    obtain ⟨hne, hscoped⟩ := hall a ha h.1
    rcases h.2 with he | ⟨p, hp, hd⟩
    · exact absurd he hne
    · rw [hscoped p hp] at hd
      cases hd
  · rename_i h
    refine ⟨fun _ a ha hd ↦ ?_, fun _ ↦ rfl⟩
    rw [Bool.not_eq_true, List.any_eq_false] at h
    have h := h a ha
    simpa only [requested_getD ha, hd, decide_true, Bool.true_and, Bool.or_eq_true,
      List.isEmpty_iff, List.any_eq_true, Bool.not_eq_true', not_or, not_exists, not_and,
      Bool.not_eq_false] using h

/-- What the requests for a permission add up to. -/
theorem foldl_extend (entries : List (NormalizedAssignment × PermissionCode))
    (current : Option Grant) :
    let start := current.getD ⟨false, []⟩
    let grant := (entries.foldl (fun current entry ↦ some (Grant.extend current entry.1))
      current).getD ⟨false, []⟩
    (grant.global = true ↔ start.global = true ∨ ∃ entry ∈ entries, entry.1.scopeType = .global) ∧
      ∀ g, g ∈ grant.groups ↔ g ∈ start.groups ∨
        ∃ entry ∈ entries, entry.1.scopeType ≠ .global ∧ g ∈ entry.1.deviceGroupGuids := by
  induction entries generalizing current with
  | nil => simp
  | cons entry entries ih =>
    obtain ⟨hglobal, hgroups⟩ := ih (some (Grant.extend current entry.1))
    simp only [List.foldl_cons, hglobal, hgroups, Option.getD_some, List.exists_mem_cons_iff]
    by_cases hs : entry.1.scopeType = .global
    · simp [Grant.extend, hs]
    · have hm := mem_foldl_addValue entry.1.deviceGroupGuids id (current.getD ⟨false, []⟩).groups
      simp only [id] at hm
      simp [Grant.extend, hs, hm, or_assoc]

variable {actorGuid : String}

/-- The operator holds a permission wherever the assignment would grant it. -/
def Within (s : Store) (actorGuid : String) (a : NormalizedAssignment) (code : String) : Prop :=
  HoldsGlobally s actorGuid code ∨
    (a.scopeType = .deviceGroup ∧ ∀ g ∈ a.deviceGroupGuids, HoldsIn s actorGuid code g)

theorem exceeds_some {grant : Grant} {scope : EffectivePermissionScope} :
    grant.exceeds (some scope) = false ↔ scope.scopeType = .global ∨
      (grant.global = false ∧ ∀ g ∈ grant.groups, g ∈ scope.deviceGroupGuids) := by
  obtain ⟨type, groups⟩ := scope
  cases type with
  | global => simp [Grant.exceeds]
  | deviceGroup =>
    cases hg : grant.global with
    | true => simp [Grant.exceeds, hg]
    | false => simp [Grant.exceeds, hg]

theorem mem_requested {a : NormalizedAssignment} {p : PermissionCode} :
    (a, p) ∈ (normalized.flatMap fun assignment ↦
      (((permissionsByRole s (normalized.map NormalizedAssignment.roleGuid)).get?
        assignment.roleGuid).getD []).map (assignment, ·)) ↔
      a ∈ normalized ∧ p ∈ s.effectivePermissions a.roleGuid := by
  simp only [List.mem_flatMap, List.mem_map, Prod.mk.injEq]
  constructor
  · intro ⟨b, hb, q, hq, hba, hqp⟩
    subst hba hqp
    exact ⟨hb, requested_getD hb ▸ hq⟩
  · intro ⟨ha, hp⟩
    exact ⟨a, ha, p, requested_getD ha ▸ hp, rfl, rfl⟩

theorem mem_proposed {code : String} {grant : Grant}
    (h : (proposed (permissionsByRole s (normalized.map NormalizedAssignment.roleGuid))
      normalized).get? code = some grant) :
    (grant.global = true ↔ ∃ a ∈ normalized, (∃ p ∈ s.effectivePermissions a.roleGuid,
      p.val = code) ∧ a.scopeType = .global) ∧
    ∀ g, g ∈ grant.groups ↔ ∃ a ∈ normalized, (∃ p ∈ s.effectivePermissions a.roleGuid,
      p.val = code) ∧ a.scopeType ≠ .global ∧ g ∈ a.deviceGroupGuids := by
  have hgrant : grant = ((proposed (permissionsByRole s
      (normalized.map NormalizedAssignment.roleGuid)) normalized).get? code).getD ⟨false, []⟩ := by
    rw [h, Option.getD_some]
  rw [hgrant, proposed, OrderedMap.get?_tally]
  obtain ⟨hglobal, hgroups⟩ := foldl_extend ((normalized.flatMap fun assignment ↦
    (((permissionsByRole s (normalized.map NormalizedAssignment.roleGuid)).get?
      assignment.roleGuid).getD []).map (assignment, ·)).filter (·.2.val = code)) none
  rw [hglobal]
  simp only [hgroups, Prod.exists, List.mem_filter, mem_requested, decide_eq_true_eq, Option.getD_none, List.not_mem_nil, Bool.false_eq_true,
    false_or]
  constructor
  · constructor
    · intro ⟨a, p, ⟨⟨ha, hp⟩, hc⟩, hs⟩
      exact ⟨a, ha, ⟨p, hp, hc⟩, hs⟩
    · intro ⟨a, ha, ⟨p, hp, hc⟩, hs⟩
      exact ⟨a, p, ⟨⟨ha, hp⟩, hc⟩, hs⟩
  · intro g
    constructor
    · intro ⟨a, p, ⟨⟨ha, hp⟩, hc⟩, hs⟩
      exact ⟨a, ha, ⟨p, hp, hc⟩, hs⟩
    · intro ⟨a, ha, ⟨p, hp, hc⟩, hs⟩
      exact ⟨a, p, ⟨⟨ha, hp⟩, hc⟩, hs⟩

theorem proposed_isSome {code : String} :
    ((proposed (permissionsByRole s (normalized.map NormalizedAssignment.roleGuid))
      normalized).get? code).isSome ↔
        ∃ a ∈ normalized, ∃ p ∈ s.effectivePermissions a.roleGuid, p.val = code := by
  rw [← not_iff_not, Bool.not_eq_true, Option.isSome_eq_false_iff, Option.isNone_iff_eq_none,
    proposed, OrderedMap.get?_tally_eq_none]
  simp only [Prod.forall, mem_requested, not_exists, not_and, and_imp]
  exact ⟨fun h a ha p ↦ h a p ha, fun h a p ha ↦ h a ha p⟩

/-- The check of the requests against the operator's own permissions, request
by request. -/
theorem assertWithinScope_eq_ok (hv : ∀ a ∈ normalized, a.Valid) {effective : EffectivePermissions}
    (he : effective.scopes = roleScopes s actorGuid) :
    assertWithinScope effective
      (permissionsByRole s (normalized.map NormalizedAssignment.roleGuid)) normalized = .ok () ↔
        ∀ a ∈ normalized, ∀ p ∈ s.effectivePermissions a.roleGuid, Within s actorGuid a p.val := by
  have hfind : assertWithinScope effective
      (permissionsByRole s (normalized.map NormalizedAssignment.roleGuid)) normalized = .ok () ↔
        ∀ code grant, (proposed (permissionsByRole s
          (normalized.map NormalizedAssignment.roleGuid)) normalized).get? code = some grant →
            grant.exceeds ((roleScopes s actorGuid).get? code) = false := by
    simp only [OrderedMap.get?_eq_some, ← he]
    unfold assertWithinScope
    split
    · rename_i entry hf
      refine ⟨nofun, fun h ↦ ?_⟩
      have hx := h _ _ (List.mem_of_find?_eq_some hf)
      rw [List.find?_some hf] at hx
      cases hx
    · rename_i hf
      refine ⟨fun _ code grant hm ↦ ?_, fun _ ↦ rfl⟩
      simpa using List.find?_eq_none.mp hf _ hm
  rw [hfind]
  constructor
  · intro h a ha p hp
    obtain ⟨grant, hgrant⟩ := Option.isSome_iff_exists.mp
      (proposed_isSome.mpr ⟨a, ha, p, hp, rfl⟩)
    obtain ⟨hglobal, hgroups⟩ := mem_proposed hgrant
    have hx := h _ _ hgrant
    rcases hscope : (roleScopes s actorGuid).get? p.val with _ | scope
    · rw [hscope] at hx
      cases hx
    rw [hscope, exceeds_some] at hx
    rcases roleScopes_eq_some hscope with ⟨hg, -⟩ | ⟨-, ht, hm⟩
    · exact .inl hg
    · obtain ⟨hn, hall⟩ := hx.resolve_left (by simp [ht])
      have hs : a.scopeType ≠ .global := by
        intro hs
        rw [hglobal.mpr ⟨a, ha, ⟨p, hp, rfl⟩, hs⟩] at hn
        cases hn
      refine .inr ⟨?_, fun g hg ↦ (hm g).mp (hall g ((hgroups g).mpr ⟨a, ha, ⟨p, hp, rfl⟩, hs, hg⟩))⟩
      cases hsa : a.scopeType with
      | global => exact absurd hsa hs
      | deviceGroup => rfl
  · intro h code grant hgrant
    obtain ⟨hglobal, hgroups⟩ := mem_proposed hgrant
    obtain ⟨a, ha, p, hp, rfl⟩ := proposed_isSome.mp (Option.isSome_of_eq_some hgrant)
    have hscope : ((roleScopes s actorGuid).get? p.val).isSome := by
      rw [roleScopes_isSome]
      rcases h a ha p hp with hg | ⟨hs, hg⟩
      · exact .inl hg
      · obtain ⟨g, hm⟩ := List.exists_mem_of_ne_nil _ ((hv a ha).deviceGroup hs)
        exact .inr ⟨g, hg g hm⟩
    obtain ⟨scope, hscope⟩ := Option.isSome_iff_exists.mp hscope
    rw [hscope, exceeds_some]
    rcases roleScopes_eq_some hscope with ⟨-, rfl⟩ | ⟨hn, -, hm⟩
    · exact .inl rfl
    · refine .inr ⟨?_, fun g hg ↦ (hm g).mpr ?_⟩
      · rw [Bool.eq_false_iff]
        intro hg
        obtain ⟨b, hb, ⟨q, hq, hqp⟩, hs⟩ := hglobal.mp hg
        rcases h b hb q hq with hw | ⟨hw, -⟩
        · exact hn (hqp ▸ hw)
        · rw [hs] at hw
          cases hw
      · obtain ⟨b, hb, ⟨q, hq, hqp⟩, -, hgb⟩ := (hgroups g).mp hg
        rcases h b hb q hq with hw | ⟨-, hw⟩
        · exact absurd (hqp ▸ hw) hn
        · exact hqp ▸ hw g hgb

end Scope

end RustdeskConsole.Rbac
