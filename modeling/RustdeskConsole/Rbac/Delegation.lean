import RustdeskConsole.Rbac.Requests

namespace RustdeskConsole.Rbac

open Collections Effects.Guard

variable {s s' before : Store} {guid : ℕ → String} {userGuid actorGuid : String}
  {normalized : List NormalizedAssignment} {groupGuids : List String} {actor : User}

/-- Everything the transaction insists on before it writes for an operator who
is not the owner. -/
structure Delegable (s : Store) (normalized : List NormalizedAssignment) (groupGuids : List String)
    (userGuid actorGuid : String) : Prop where
  allowed : ∃ scope, requirePermission s actorGuid "roles.assign" = .ok scope
  target : ∃ target, s.user? userGuid = some target ∧ target.isAdmin = false
  unprotected : isProtectedUser s userGuid false true = false
  other : userGuid ≠ actorGuid
  roles : ∃ roles, assertRolesExist s (normalized.map NormalizedAssignment.roleGuid) = .ok roles ∧
    roles.find? Role.protectedAccount = none
  assign : ∀ a ∈ normalized, rolesAssign ∉ s.effectivePermissions a.roleGuid
  scopeTypes : assertScopeTypes (permissionsByRole s
    (normalized.map NormalizedAssignment.roleGuid)) normalized = .ok ()
  groups : assertGroupsExist s groupGuids = .ok ()
  delegation : checkDelegation s normalized userGuid actorGuid = .ok ()

theorem not_any_rolesAssign : ((permissionsByRole s
    (normalized.map NormalizedAssignment.roleGuid)).entries.any (·.2.contains rolesAssign)) = false ↔
      ∀ a ∈ normalized, rolesAssign ∉ s.effectivePermissions a.roleGuid := by
  rw [← Bool.not_eq_true, permissionsByRole_any]
  simp only [List.mem_map, exists_exists_and_eq_and, not_exists, not_and]

theorem isProtectedUser_transaction {target : User} (ht : s.user? userGuid = some target)
    (isAdmin : Bool) : isProtectedUser s userGuid isAdmin true =
      isProtectedUser s userGuid target.isAdmin false := by
  simp only [isProtectedUser, ht, Option.any_some, if_true, Bool.false_eq_true, if_false]

theorem transaction_eq_ok (hu : getCurrentUser s actorGuid = .ok actor)
    (ha : actor.isAdmin = false) :
    transaction s guid normalized groupGuids userGuid actorGuid = .ok s' ↔
      Delegable s normalized groupGuids userGuid actorGuid ∧
        replaceAssignments s guid userGuid normalized = s' := by
  simp only [transaction, bind_eq_ok, exists_unit, pure_eq_ok, hu, Except.ok.injEq,
    exists_eq_left', ha, unlessOwner_eq_ok, forbidIf_eq_ok, forbidFound_eq_ok, requireUser_eq_ok,
    discard_eq_ok, Bool.not_false, Bool.true_and, Bool.false_eq_true, false_or,
    not_any_rolesAssign, decide_eq_false_iff_not]
  constructor
  · rintro ⟨hp, target, ht, hadmin, hprot, hne, roles, hroles, hfree, hassign, htypes, hgroups,
      hdelegation, hs'⟩
    rw [isProtectedUser_transaction ht, ← isProtectedUser_transaction ht false] at hprot
    exact ⟨⟨hp, ⟨target, ht, hadmin⟩, hprot, hne, ⟨roles, hroles, hfree⟩, hassign, htypes, hgroups,
      hdelegation⟩, hs'⟩
  · rintro ⟨⟨hp, ⟨target, ht, hadmin⟩, hprot, hne, ⟨roles, hroles, hfree⟩, hassign, htypes, hgroups,
      hdelegation⟩, hs'⟩
    rw [isProtectedUser_transaction ht, ← isProtectedUser_transaction ht target.isAdmin] at hprot
    exact ⟨hp, target, ht, hadmin, hprot, hne, roles, hroles, hfree, hassign, htypes, hgroups,
      hdelegation, hs'⟩

/-- The transaction's word on the scopes, assignment by assignment. -/
theorem within_of_checkDelegation (hu : getCurrentUser s actorGuid = .ok actor)
    (ha : actor.isAdmin = false) (hv : ∀ a ∈ normalized, a.Valid)
    (h : checkDelegation s normalized userGuid actorGuid = .ok ()) :
    ∀ a ∈ normalized, ∀ p ∈ s.effectivePermissions a.roleGuid, Within s actorGuid a p.val := by
  simp only [checkDelegation, bind_eq_ok, exists_unit, getEffectivePermissions_eq hu ha,
    Except.ok.injEq, exists_eq_left'] at h
  exact (assertWithinScope_eq_ok hv rfl).mp h.2

section Written

theorem mem_replaceAssignments {a : UserRoleAssignment} :
    a ∈ (replaceAssignments s guid userGuid normalized).assignments ↔
      (a ∈ s.assignments ∧ a.userGuid ≠ userGuid) ∨ ∃ n i, normalized[i]? = some n ∧
        a = ⟨guid i, userGuid, n.roleGuid, n.scopeType.column⟩ := by
  simp only [replaceAssignments, List.mem_append, List.mem_filter, List.mem_map, Prod.exists,
    List.mem_zipIdx_iff_getElem?, decide_eq_true_eq]
  exact or_congr_right (exists₂_congr fun n i ↦ and_congr_right fun _ ↦ eq_comm)

theorem mem_replaceAssignments_groups {row : UserRoleAssignmentDeviceGroup} :
    row ∈ (replaceAssignments s guid userGuid normalized).assignmentGroups ↔
      (row ∈ s.assignmentGroups ∧
        ∀ a ∈ s.assignments, a.userGuid = userGuid → a.guid ≠ row.assignmentGuid) ∨
      ∃ n i, normalized[i]? = some n ∧ n.scopeType = .deviceGroup ∧
        ∃ g ∈ n.deviceGroupGuids, row = ⟨guid i, g⟩ := by
  simp only [replaceAssignments, List.mem_append, List.mem_filter, List.mem_flatMap, Prod.exists,
    List.mem_zipIdx_iff_getElem?]
  refine or_congr (and_congr_right fun _ ↦ ?_) (exists₂_congr fun n i ↦ and_congr_right fun _ ↦ ?_)
  · simp only [Bool.not_eq_true', List.contains_eq_mem, decide_eq_false_iff_not, List.mem_map,
      List.mem_filter, decide_eq_true_eq, not_exists, not_and, and_imp]
  · by_cases hd : n.scopeType = .deviceGroup
    · simp only [hd, if_true, List.mem_map, true_and, eq_comm]
    · simp only [hd, if_false, List.not_mem_nil, false_and]

theorem Carries.kept {code : String} {a : UserRoleAssignment} (hne : userGuid ≠ actorGuid)
    (h : Carries s actorGuid code a) :
    Carries (replaceAssignments s guid userGuid normalized) actorGuid code a :=
  ⟨mem_replaceAssignments.mpr (.inl ⟨h.mem, h.user ▸ hne.symm⟩), h.user, h.permission⟩

theorem HoldsGlobally.kept {code : String} (hne : userGuid ≠ actorGuid)
    (h : HoldsGlobally s actorGuid code) :
    HoldsGlobally (replaceAssignments s guid userGuid normalized) actorGuid code := by
  obtain ⟨a, ha, hg⟩ := h
  exact ⟨a, ha.kept hne, hg⟩

theorem HoldsIn.kept {code g : String} (hs : s.Consistent) (hne : userGuid ≠ actorGuid)
    (h : HoldsIn s actorGuid code g) :
    HoldsIn (replaceAssignments s guid userGuid normalized) actorGuid code g := by
  obtain ⟨hd, a, ha, ht, hrow⟩ := h
  refine ⟨hd, a, ha.kept hne, ht, mem_replaceAssignments_groups.mpr (.inl ⟨hrow, ?_⟩)⟩
  intro b hb hu hg
  obtain rfl := List.inj_on_of_nodup_map hs.assignments hb ha.mem hg
  exact hne (hu ▸ ha.user)

variable {code : String}

theorem Carries.written {a : UserRoleAssignment}
    (h : Carries (replaceAssignments s guid userGuid normalized) userGuid code a) :
    ∃ n i, normalized[i]? = some n ∧ (∃ p ∈ s.effectivePermissions n.roleGuid, p.val = code) ∧
      a = ⟨guid i, userGuid, n.roleGuid, n.scopeType.column⟩ := by
  rcases mem_replaceAssignments.mp h.mem with ⟨-, hu⟩ | ⟨n, i, hi, rfl⟩
  · exact absurd h.user hu
  · exact ⟨n, i, hi, h.permission, rfl⟩

theorem HoldsGlobally.written
    (h : HoldsGlobally (replaceAssignments s guid userGuid normalized) userGuid code) :
    ∃ n ∈ normalized, (∃ p ∈ s.effectivePermissions n.roleGuid, p.val = code) ∧
      n.scopeType = .global := by
  obtain ⟨a, ha, ht⟩ := h
  obtain ⟨n, i, hi, hp, rfl⟩ := ha.written
  refine ⟨n, List.mem_of_getElem? hi, hp, ?_⟩
  cases hn : n.scopeType with
  | global => rfl
  | deviceGroup =>
    simp only [hn, ScopeType.column] at ht
    exact absurd ht (by decide)

theorem HoldsIn.written {g : String} (hs : s.Consistent) (hg : Function.Injective guid)
    (hf : ∀ i, ∀ a ∈ s.assignments, a.guid ≠ guid i)
    (h : HoldsIn (replaceAssignments s guid userGuid normalized) userGuid code g) :
    ∃ n ∈ normalized, (∃ p ∈ s.effectivePermissions n.roleGuid, p.val = code) ∧
      g ∈ n.deviceGroupGuids := by
  obtain ⟨-, a, ha, -, hrow⟩ := h
  obtain ⟨n, i, hi, hp, rfl⟩ := ha.written
  refine ⟨n, List.mem_of_getElem? hi, hp, ?_⟩
  rcases mem_replaceAssignments_groups.mp hrow with ⟨hrow, -⟩ | ⟨m, j, hj, -, g', hg', he⟩
  · obtain ⟨b, hb, hbg⟩ := hs.groupAssignment _ hrow
    exact absurd hbg (hf i b hb)
  · rw [UserRoleAssignmentDeviceGroup.mk.injEq] at he
    obtain rfl := hg he.1
    rw [hi, Option.some.injEq] at hj
    exact hj ▸ he.2 ▸ hg'

end Written

theorem replaceUserRoles_eq_ok {assignments : List UserRoleAssignmentDto}
    (h : replaceUserRoles before s guid userGuid assignments actorGuid = .ok s') :
    ∃ normalized, (∀ a ∈ normalized, a.Valid) ∧ transaction s guid normalized
      (normalized.flatMap NormalizedAssignment.deviceGroupGuids).eraseDups userGuid actorGuid =
        .ok s' := by
  simp only [replaceUserRoles, bind_eq_ok, exists_unit] at h
  obtain ⟨normalized, hn, -, h⟩ := h
  exact ⟨normalized, (validateAssignments_spec hn).2.2, h⟩

theorem exists_actor (h : transaction s guid normalized groupGuids userGuid actorGuid = .ok s') :
    ∃ actor, getCurrentUser s actorGuid = .ok actor := by
  simp only [transaction, bind_eq_ok] at h
  obtain ⟨actor, hu, -⟩ := h
  exact ⟨actor, hu⟩

theorem user?_of_getCurrentUser (hu : getCurrentUser s actorGuid = .ok actor) :
    s.user? actorGuid = some actor ∧ actor.status = .active := by
  unfold getCurrentUser at hu
  split at hu
  · rename_i user hf
    split at hu
    · rename_i hs
      obtain rfl := Except.ok.inj hu
      exact ⟨hf, hs⟩
    · cases hu
  · cases hu

/-- The roles a transaction leaves behind are among those it checked. -/
theorem unprotected_written {roles : List Role} (hu : (s.user? userGuid).any User.isAdmin = false)
    (hr : assertRolesExist s (normalized.map NormalizedAssignment.roleGuid) = .ok roles)
    (hp : roles.find? Role.protectedAccount = none) :
    isProtectedUser (replaceAssignments s guid userGuid normalized) userGuid false true = false := by
  obtain ⟨-, rfl⟩ := assertRolesExist_eq_ok.mp hr
  simp only [isProtectedUser, if_true, Bool.or_eq_false_iff, List.any_eq_false]
  refine ⟨hu, fun role hm ↦ List.find?_eq_none.mp hp role ?_⟩
  rw [List.mem_filter] at hm ⊢
  refine ⟨hm.1, ?_⟩
  obtain ⟨a, ha, hg⟩ := List.mem_map.mp (List.contains_iff_mem.mp hm.2)
  obtain ⟨hm', ht⟩ := List.mem_filter.mp ha
  rcases mem_replaceAssignments.mp hm' with ⟨-, hn⟩ | ⟨n, i, hi, rfl⟩
  · exact absurd (of_decide_eq_true ht) hn
  · exact List.contains_iff_mem.mpr (hg ▸ List.mem_map_of_mem (List.mem_of_getElem? hi))

/-- One scope reaches no further than another. -/
def PermissionScope.Le (a b : PermissionScope) : Prop :=
  (a.global = true → b.global = true) ∧
    ∀ g ∈ a.deviceGroupGuids, b.global = true ∨ g ∈ b.deviceGroupGuids

theorem roleScope_le (hs : s.Consistent) (hg : Function.Injective guid)
    (hf : ∀ i, ∀ a ∈ s.assignments, a.guid ≠ guid i) (hne : userGuid ≠ actorGuid)
    (hw : ∀ a ∈ normalized, ∀ p ∈ s.effectivePermissions a.roleGuid, Within s actorGuid a p.val)
    (code : String) :
    (roleScope (replaceAssignments s guid userGuid normalized) userGuid code).Le
      (roleScope (replaceAssignments s guid userGuid normalized) actorGuid code) := by
  refine ⟨fun h ↦ ?_, fun g h ↦ ?_⟩
  · rw [roleScope_global] at h ⊢
    obtain ⟨n, hn, ⟨p, hp, rfl⟩, ht⟩ := h.written
    rcases hw n hn p hp with hw | ⟨hd, -⟩
    · exact hw.kept hne
    · rw [ht] at hd
      cases hd
  · rw [mem_roleScope] at h
    rw [roleScope_global, mem_roleScope]
    obtain ⟨n, hn, ⟨p, hp, rfl⟩, hm⟩ := h.2.written hs hg hf
    by_cases ha : HoldsGlobally (replaceAssignments s guid userGuid normalized) actorGuid p.val
    · exact .inl ha
    · rcases hw n hn p hp with hw | ⟨-, hw⟩
      · exact absurd (hw.kept hne) ha
      · exact .inr ⟨ha, (hw g hm).kept hs hne⟩

/-- Whatever a delegated operator changes, the user ends up with no more than
the operator has. -/
theorem replaced_roles_within_operator {assignments : List UserRoleAssignmentDto}
    (hs : s.Consistent) (hg : Function.Injective guid)
    (hf : ∀ i, ∀ a ∈ s.assignments, a.guid ≠ guid i)
    (ha : ∀ actor, s.user? actorGuid = some actor → actor.isAdmin = false)
    (h : replaceUserRoles before s guid userGuid assignments actorGuid = .ok s') :
    userGuid ≠ actorGuid ∧ (∃ target, s.user? userGuid = some target ∧ target.isAdmin = false) ∧
      isProtectedUser s userGuid false true = false ∧
      (∀ code, ∃ held, computePermissionScope s' actorGuid code = .ok held ∧
        (roleScope s' userGuid code).Le held ∧
        ∀ granted, computePermissionScope s' userGuid code = .ok granted → granted.Le held) ∧
      isProtectedUser s' userGuid false true = false ∧
      ∀ a ∈ s'.assignments, a.userGuid = userGuid →
        rolesAssign ∉ s'.effectivePermissions a.roleGuid := by
  obtain ⟨normalized, hv, h⟩ := replaceUserRoles_eq_ok h
  obtain ⟨actor, hu⟩ := exists_actor h
  have ha := ha actor (user?_of_getCurrentUser hu).1
  obtain ⟨hdel, rfl⟩ := (transaction_eq_ok hu ha).mp h
  obtain ⟨target, ht, hadmin⟩ := hdel.target
  obtain ⟨roles, hroles, hfree⟩ := hdel.roles
  have hle := roleScope_le hs hg hf hdel.other
    (within_of_checkDelegation hu ha hv hdel.delegation)
  have hactor : getCurrentUser (replaceAssignments s guid userGuid normalized) actorGuid =
      .ok actor := hu
  refine ⟨hdel.other, hdel.target, hdel.unprotected, fun code ↦ ⟨_,
    computePermissionScope_eq hactor ha code, hle code, fun granted hgranted ↦ ?_⟩, ?_, ?_⟩
  · obtain ⟨user, hu', -⟩ := bind_eq_ok.mp hgranted
    have ht' : s.user? userGuid = some user := (user?_of_getCurrentUser hu').1
    obtain rfl : target = user := Option.some.inj (ht.symm.trans ht')
    rw [computePermissionScope_eq hu' hadmin, Except.ok.injEq] at hgranted
    exact hgranted ▸ hle code
  · exact unprotected_written (by simp [ht, hadmin]) hroles hfree
  · intro a hm hua
    rcases mem_replaceAssignments.mp hm with ⟨-, hn⟩ | ⟨n, i, hi, rfl⟩
    · exact absurd hua hn
    · exact hdel.assign n (List.mem_of_getElem? hi)

/-- Identifiers no row of the damaged store has. -/
def freshGuid (i : ℕ) : String := String.ofList (List.replicate (i + 1) 'x')

theorem freshGuid_injective : Function.Injective freshGuid := by
  intro i j h
  have hl := congrArg List.length (String.ofList_injective h)
  rw [List.length_replicate, List.length_replicate] at hl
  omega

theorem freshGuid_ne (i : ℕ) : ∀ a ∈ damagedStore.assignments, a.guid ≠ freshGuid i := by
  intro a ha h
  have hx : 'x' ∈ a.guid.toList := by
    rw [h, freshGuid, String.toList_ofList, List.mem_replicate]
    exact ⟨by omega, rfl⟩
  have hno : ∀ a ∈ damagedStore.assignments, 'x' ∉ a.guid.toList := by decide
  exact hno a ha hx

/-- The operator gives the member a role in its own device group and leaves a
role without permissions where it was. -/
def sampleRequest : List UserRoleAssignmentDto :=
  [⟨"viewer", .deviceGroup, some ["lab"]⟩, ⟨"retired", .global, none⟩]

theorem sampleRequest_ok : ∃ s', replaceUserRoles damagedStore damagedStore freshGuid "member"
    sampleRequest "operator" = .ok s' :=
  ⟨replaceAssignments damagedStore freshGuid "member"
    (sampleRequest.map UserRoleAssignmentDto.normalized), by decide +kernel⟩

theorem sample_replaced_within_operator : ∃ s',
    replaceUserRoles damagedStore damagedStore freshGuid "member" sampleRequest "operator" =
      .ok s' ∧
    ∀ code, ∃ held, computePermissionScope s' "operator" code = .ok held ∧
      (roleScope s' "member" code).Le held := by
  obtain ⟨s', h⟩ := sampleRequest_ok
  have hu : damagedStore.user? "operator" = some ⟨"operator", .active, false⟩ := rfl
  have ha : ∀ actor, damagedStore.user? "operator" = some actor → actor.isAdmin = false := by
    intro actor ha
    rw [hu, Option.some.injEq] at ha
    exact ha ▸ rfl
  obtain ⟨-, -, -, hle, -, -⟩ := replaced_roles_within_operator damagedStore_consistent
    freshGuid_injective freshGuid_ne ha h
  refine ⟨s', h, fun code ↦ ?_⟩
  obtain ⟨held, hheld, hle, -⟩ := hle code
  exact ⟨held, hheld, hle⟩

end RustdeskConsole.Rbac
