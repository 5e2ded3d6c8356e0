import RustdeskConsole.Rbac.Roles

namespace RustdeskConsole.Rbac

open Collections Effects.Guard Relation

variable {s s' before : Store} {guid actorGuid : String} {permissions : List String}
  {validated : List PermissionCode}

theorem validatePermissions_closed (h : validatePermissions permissions = .ok validated) :
    ∀ p ∈ validated, ∀ required ∈ getPermissionRequirements p.val,
      ∃ q ∈ validated, q.val = required := by
  unfold validatePermissions at h
  dsimp only at h
  split at h
  · cases h
  · split at h
    · cases h
    · rename_i hmissing
      obtain rfl := Except.ok.inj h
      intro p hp required hr
      by_contra hnone
      have hm : p.val ++ " requires " ++ required ∈ missingRequirements
          (sortBy Subtype.val (permissions.eraseDups.filterMap PermissionCode.of?)) := by
        refine List.mem_flatMap.mpr ⟨p, hp, List.mem_map_of_mem (List.mem_filter.mpr ⟨hr, ?_⟩)⟩
        rw [Bool.not_eq_true', Bool.eq_false_iff]
        intro hany
        obtain ⟨q, hq, he⟩ := List.any_eq_true.mp hany
        exact hnone ⟨q, hq, of_decide_eq_true he⟩
      rw [Bool.not_eq_true, Bool.not_eq_false', List.isEmpty_iff] at hmissing
      rw [hmissing] at hm
      cases hm

theorem ensureScoped_ok (h : ensureScopedAssignmentsRemainValid s guid validated = .ok ())
    {a : UserRoleAssignment} (ha : a ∈ s.assignments) (hg : a.roleGuid = guid)
    (ht : a.scopeType = "device_group") :
    validated ≠ [] ∧ ∀ p ∈ validated, isDeviceGroupScopedPermission p.val = true := by
  unfold ensureScopedAssignmentsRemainValid at h
  split at h
  · rename_i hall
    simpa [List.all_eq_true] using hall
  · split at h
    · cases h
    · rename_i hany
      refine absurd (List.any_eq_true.mpr ⟨a, ha, ?_⟩) hany
      simp [hg, ht]

namespace Store.Invariant

theorem replacePermissions (hi : s.Invariant)
    (hc : ∀ p ∈ validated, ∀ required ∈ getPermissionRequirements p.val,
      ∃ q ∈ validated, q.val = required)
    (hd : ∀ a ∈ s.assignments, a.roleGuid = guid → a.scopeType = "device_group" →
      validated ≠ [] ∧ ∀ p ∈ validated, isDeviceGroupScopedPermission p.val = true) :
    (replacePermissions s guid validated).Invariant := by
  have hmem : ∀ row, row ∈ (Rbac.replacePermissions s guid validated).rolePermissions ↔
      (row ∈ s.rolePermissions ∧ row.roleGuid ≠ guid) ∨
        ∃ p ∈ validated, row = ⟨guid, p.val⟩ := by
    intro row
    simp only [Rbac.replacePermissions, List.mem_append, List.mem_filter, List.mem_map,
      decide_eq_true_eq]
    exact or_congr_right (exists_congr fun p ↦ and_congr_right fun _ ↦ eq_comm)
  refine ⟨fun row hr ↦ ?_, fun row hr required hq ↦ ?_, hi.grouped, hi.groups, fun a ha ht ↦ ?_,
    fun a ha ht row hr hg ↦ ?_, hi.global, hi.owners⟩
  · rcases (hmem row).mp hr with ⟨hr, -⟩ | ⟨p, -, rfl⟩
    · exact hi.assignable row hr
    · exact p.2
  · rw [hmem]
    rcases (hmem row).mp hr with ⟨hr, hne⟩ | ⟨p, hp, rfl⟩
    · exact .inl ⟨hi.closed row hr required hq, hne⟩
    · obtain ⟨q, hqv, rfl⟩ := hc p hp required hq
      exact .inr ⟨q, hqv, rfl⟩
  · by_cases hg : a.roleGuid = guid
    · obtain ⟨p, hp⟩ := List.exists_mem_of_ne_nil _ (hd a ha hg ht).1
      exact ⟨_, (hmem _).mpr (.inr ⟨p, hp, rfl⟩), hg.symm⟩
    · obtain ⟨row, hr, hrow⟩ := hi.permitted a ha ht
      exact ⟨row, (hmem row).mpr (.inl ⟨hr, hrow ▸ hg⟩), hrow⟩
  · rcases (hmem row).mp hr with ⟨hr, -⟩ | ⟨p, hp, rfl⟩
    · exact hi.deviceScoped a ha ht row hr hg
    · exact (hd a ha hg.symm ht).2 p hp

/-- The invariant says nothing of the roles themselves. -/
theorem withRoles (hi : s.Invariant) (roles : List Role) : Invariant { s with roles := roles } :=
  ⟨hi.assignable, hi.closed, hi.grouped, hi.groups, hi.permitted, hi.deviceScoped, hi.global,
    hi.owners⟩

theorem withoutAssignments (hs : s.Consistent) (hi : s.Invariant)
    (gone : UserRoleAssignment → Bool) : (withoutAssignments s gone).Invariant := by
  have hsub : ∀ a ∈ (Rbac.withoutAssignments s gone).assignments,
      a ∈ s.assignments ∧ gone a = false := by
    intro a ha
    obtain ⟨hm, hg⟩ := List.mem_filter.mp ha
    exact ⟨hm, by simpa using hg⟩
  have hrows : ∀ row ∈ (Rbac.withoutAssignments s gone).assignmentGroups,
      row ∈ s.assignmentGroups := fun row hr ↦ (List.mem_filter.mp hr).1
  refine ⟨hi.assignable, hi.closed, fun a ha ht ↦ ?_, fun a ha ht row hr hg ↦
      hi.groups a (hsub a ha).1 ht row (hrows row hr) hg,
    fun a ha ht ↦ hi.permitted a (hsub a ha).1 ht,
    fun a ha ht ↦ hi.deviceScoped a (hsub a ha).1 ht, fun a ha ht row hr ↦
      hi.global a (hsub a ha).1 ht row (hrows row hr), fun a ha ↦ hi.owners a (hsub a ha).1⟩
  obtain ⟨hm, hg⟩ := hsub a ha
  obtain ⟨row, hr, hrow⟩ := hi.grouped a hm ht
  refine ⟨row, List.mem_filter.mpr ⟨hr, ?_⟩, hrow⟩
  rw [Bool.not_eq_true', Bool.eq_false_iff]
  intro hc
  obtain ⟨b, hb, hbg⟩ := List.mem_map.mp (List.contains_iff_mem.mp hc)
  obtain ⟨hbs, hbgone⟩ := List.mem_filter.mp hb
  obtain rfl := List.inj_on_of_nodup_map hs.assignments hbs hm (hbg.trans hrow)
  rw [hg] at hbgone
  cases hbgone

end Store.Invariant

section Operations

theorem createRole_invariant {dto : CreateRoleDto} (hs : s.Consistent) (hi : s.Invariant)
    (hs' : s'.Consistent) (h : createRole before s guid dto actorGuid = .ok s') : s'.Invariant := by
  simp only [createRole, bind_eq_ok, exists_unit, discard_eq_ok] at h
  obtain ⟨name, -, validated, hv, -, -, h⟩ := h
  split at h
  · cases h
  · obtain rfl := pure_eq_ok.mp h
    refine (hi.withRoles _).replacePermissions (validatePermissions_closed hv) fun a ha hg _ ↦ ?_
    obtain ⟨role, hr, hrole⟩ := hs.assignmentRole a ha
    have hn := hs'.roles
    simp only [replacePermissions, List.map_append, List.map_cons, List.map_nil] at hn
    have hdisj := (List.nodup_append.mp hn).2.2 role.guid (List.mem_map_of_mem hr) guid
      (List.mem_singleton.mpr rfl)
    exact absurd (hrole.trans hg) hdisj

theorem checkPermissions_some
    (h : checkPermissions s guid (some permissions) = .ok (some validated)) :
    validatePermissions permissions = .ok validated ∧
      ensureScopedAssignmentsRemainValid s guid validated = .ok () := by
  simp only [checkPermissions, bind_eq_ok, exists_unit, pure_eq_ok, Option.some.injEq] at h
  obtain ⟨_, hv, he, rfl⟩ := h
  exact ⟨hv, he⟩

theorem updateRole_invariant {dto : UpdateRoleDto} (hi : s.Invariant)
    (h : updateRole before s guid dto actorGuid = .ok s') : s'.Invariant := by
  simp only [updateRole, bind_eq_ok, exists_unit, discard_eq_ok] at h
  obtain ⟨-, -, h⟩ := h
  split at h
  · cases h
  · rename_i role hrole
    simp only [bind_eq_ok] at h
    obtain ⟨name, -, validated, hv, nextProtected, -, h⟩ := h
    split at h
    · cases h
    · obtain rfl := pure_eq_ok.mp h
      cases hp : dto.permissions with
      | none =>
        rw [hp] at hv
        obtain rfl := pure_eq_ok.mp hv
        exact hi.withRoles _
      | some permissions =>
        rw [hp] at hv
        cases validated with
        | none =>
          exact hi.withRoles _
        | some validated =>
          obtain ⟨hval, hens⟩ := checkPermissions_some hv
          exact (hi.withRoles _).replacePermissions (validatePermissions_closed hval)
            fun a ha hg ht ↦ ensureScoped_ok hens ha hg ht

theorem deleteRole_invariant (hs : s.Consistent) (hi : s.Invariant)
    (h : deleteRole s guid actorGuid = .ok s') : s'.Invariant := by
  simp only [deleteRole, bind_eq_ok, exists_unit, discard_eq_ok] at h
  obtain ⟨-, h⟩ := h
  split at h
  · cases h
  · obtain rfl := pure_eq_ok.mp h
    have hw := hi.withoutAssignments hs fun assignment ↦ assignment.roleGuid = guid
    have hne : ∀ a ∈ (withoutAssignments s fun assignment ↦ assignment.roleGuid = guid).assignments,
        a.roleGuid ≠ guid := by
      intro a ha
      simpa using (List.mem_filter.mp ha).2
    have hmem : ∀ row, row ∈ s.rolePermissions.filter (·.roleGuid ≠ guid) ↔
        row ∈ s.rolePermissions ∧ row.roleGuid ≠ guid := by
      intro row
      simp only [List.mem_filter, decide_eq_true_eq]
    refine ⟨fun row hr ↦ hi.assignable row ((hmem row).mp hr).1, fun row hr required hq ↦ ?_,
      hw.grouped, hw.groups, fun a ha ht ↦ ?_, fun a ha ht row hr ↦
        hw.deviceScoped a ha ht row ((hmem row).mp hr).1, hw.global, hw.owners⟩
    · obtain ⟨hr, hg⟩ := (hmem row).mp hr
      exact (hmem _).mpr ⟨hi.closed row hr required hq, hg⟩
    · obtain ⟨row, hr, hrow⟩ := hw.permitted a ha ht
      exact ⟨row, (hmem row).mpr ⟨hr, hrow ▸ hne a ha⟩, hrow⟩

theorem deleteDeviceGroup_invariant (hi : s.Invariant)
    (h : deleteDeviceGroup before s guid actorGuid = .ok s') : s'.Invariant := by
  simp only [deleteDeviceGroup, bind_eq_ok, exists_unit, discard_eq_ok] at h
  obtain ⟨-, h⟩ := h
  split at h
  · cases h
  · split at h
    · cases h
    · rename_i hfree
      obtain rfl := pure_eq_ok.mp h
      refine ⟨hi.assignable, hi.closed, hi.grouped, fun a ha ht row hr hg ↦ ?_, hi.permitted,
        hi.deviceScoped, hi.global, hi.owners⟩
      obtain ⟨group, hm, hgroup⟩ := hi.groups a ha ht row hr hg
      refine ⟨group, List.mem_filter.mpr ⟨hm, ?_⟩, hgroup⟩
      rw [hgroup, decide_eq_true_eq]
      intro he
      exact hfree (List.any_eq_true.mpr ⟨row, hr, by simpa using he⟩)

theorem deleteUser_invariant (hs : s.Consistent) (hi : s.Invariant)
    (h : deleteUser s guid actorGuid = .ok s') : s'.Invariant := by
  simp only [deleteUser, bind_eq_ok, exists_unit] at h
  obtain ⟨-, -, h⟩ := h
  obtain rfl := pure_eq_ok.mp h
  have hw := hi.withoutAssignments hs fun assignment ↦ assignment.userGuid = guid
  exact ⟨hw.assignable, hw.closed, hw.grouped, hw.groups, hw.permitted, hw.deviceScoped, hw.global,
    fun a ha user hu ↦ hw.owners a ha user (List.mem_filter.mp hu).1⟩

end Operations

section Replacement

variable {fresh : ℕ → String} {userGuid : String} {normalized : List NormalizedAssignment}
  {groupGuids : List String}

/-- The checks whose outcome the invariant needs. -/
theorem transaction_checks
    (h : transaction s fresh normalized groupGuids userGuid actorGuid = .ok s') :
    (∃ target, s.user? userGuid = some target ∧ target.isAdmin = false) ∧
      (∀ a ∈ normalized, a.scopeType = .deviceGroup →
        s.effectivePermissions a.roleGuid ≠ [] ∧ ∀ p ∈ s.effectivePermissions a.roleGuid,
          isDeviceGroupScopedPermission p.val = true) ∧
      replaceAssignments s fresh userGuid normalized = s' := by
  simp only [transaction, bind_eq_ok, exists_unit, pure_eq_ok, forbidIf_eq_ok,
    requireUser_eq_ok, assertScopeTypes_eq_ok] at h
  obtain ⟨actor, -, -, target, ht, hadmin, -, -, roles, -, -, -, htypes, -, -, hs'⟩ := h
  exact ⟨⟨target, ht, hadmin⟩, htypes, hs'⟩

/-- Where the invariant holds a role has the permissions it is given. -/
theorem Store.Invariant.mem_effectivePermissions (hi : s.Invariant) {row : RolePermission}
    (hr : row ∈ s.rolePermissions) :
    ∃ p ∈ s.effectivePermissions row.roleGuid, p.val = row.permissionCode := by
  have hstored : ∀ other ∈ s.rolePermissions, other.roleGuid = row.roleGuid →
      other.permissionCode ∈ (s.rolePermissions.filter (·.roleGuid = row.roleGuid)).map
        RolePermission.permissionCode := by
    intro other ho hg
    exact List.mem_map_of_mem (List.mem_filter.mpr ⟨ho, decide_eq_true hg⟩)
  refine ⟨⟨row.permissionCode, hi.assignable row hr⟩, ?_, rfl⟩
  refine mem_filterEffectivePermissionCodes.mpr ⟨hstored row hr rfl, fun required hq ↦ ?_⟩
  have hc := hi.closed row hr required hq
  exact ⟨hi.assignable _ hc, hstored _ hc rfl⟩

theorem transaction_invariant (hs : s.Consistent) (hi : s.Invariant)
    (hv : ∀ a ∈ normalized, a.Valid) (hs' : s'.Consistent)
    (h : transaction s fresh normalized groupGuids userGuid actorGuid = .ok s') :
    s'.Invariant := by
  obtain ⟨⟨target, ht, hadmin⟩, htypes, rfl⟩ := transaction_checks h
  have hkept : ∀ a ∈ s.assignments, a.userGuid ≠ userGuid →
      a ∈ (replaceAssignments s fresh userGuid normalized).assignments :=
    fun a ha hu ↦ mem_replaceAssignments.mpr (.inl ⟨ha, hu⟩)
  have hwritten : ∀ n i, normalized[i]? = some n →
      (⟨fresh i, userGuid, n.roleGuid, n.scopeType.column⟩ : UserRoleAssignment) ∈
        (replaceAssignments s fresh userGuid normalized).assignments :=
    fun n i hn ↦ mem_replaceAssignments.mpr (.inr ⟨n, i, hn, rfl⟩)
  have hgroupScope : ∀ n : NormalizedAssignment, n.scopeType.column = "device_group" →
      n.scopeType = .deviceGroup := by
    intro n hn
    cases hc : n.scopeType with
    | global =>
      rw [hc] at hn
      exact absurd hn (by decide)
    | deviceGroup => rfl
  refine ⟨hi.assignable, hi.closed, fun a ha hd ↦ ?_,
    fun a _ _ row hr _ ↦ hs'.groupDeviceGroup row hr, fun a ha hd ↦ ?_,
    fun a ha hd row hr hg ↦ ?_, fun a ha hd row hr hg ↦ ?_, fun a ha user hu hg ↦ ?_⟩
  · rcases mem_replaceAssignments.mp ha with ⟨hm, hu⟩ | ⟨n, i, hn, rfl⟩
    · obtain ⟨row, hr, hg⟩ := hi.grouped a hm hd
      refine ⟨row, mem_replaceAssignments_groups.mpr (.inl ⟨hr, fun b hb hbu hbg ↦ ?_⟩), hg⟩
      obtain rfl := List.inj_on_of_nodup_map hs.assignments hb hm (hbg.trans hg)
      exact hu hbu
    · have hn' := hgroupScope n hd
      obtain ⟨g, hg⟩ := List.exists_mem_of_ne_nil _
        ((hv n (List.mem_of_getElem? hn)).deviceGroup hn')
      exact ⟨⟨fresh i, g⟩,
        mem_replaceAssignments_groups.mpr (.inr ⟨n, i, hn, hn', g, hg, rfl⟩), rfl⟩
  · rcases mem_replaceAssignments.mp ha with ⟨hm, -⟩ | ⟨n, i, hn, rfl⟩
    · exact hi.permitted a hm hd
    · obtain ⟨hne, -⟩ := htypes n (List.mem_of_getElem? hn) (hgroupScope n hd)
      obtain ⟨p, hp⟩ := List.exists_mem_of_ne_nil _ hne
      obtain ⟨row, hr, -⟩ := List.mem_map.mp (mem_filterEffectivePermissionCodes.mp hp).1
      obtain ⟨hr, hg⟩ := List.mem_filter.mp hr
      exact ⟨row, hr, of_decide_eq_true hg⟩
  · rcases mem_replaceAssignments.mp ha with ⟨hm, -⟩ | ⟨n, i, hn, rfl⟩
    · exact hi.deviceScoped a hm hd row hr hg
    · obtain ⟨p, hp, hpc⟩ := hi.mem_effectivePermissions hr
      rw [hg] at hp
      exact hpc ▸ (htypes n (List.mem_of_getElem? hn) (hgroupScope n hd)).2 p hp
  · have hsame : ∀ b ∈ (replaceAssignments s fresh userGuid normalized).assignments,
        b.guid = a.guid → b = a :=
      fun b hb he ↦ List.inj_on_of_nodup_map hs'.assignments hb ha he
    rcases mem_replaceAssignments_groups.mp hr with ⟨hrow, hfree⟩ | ⟨m, j, hm, hmd, g, -, rfl⟩
    · rcases mem_replaceAssignments.mp ha with ⟨hm, -⟩ | ⟨n, i, hn, rfl⟩
      · exact hi.global a hm hd row hrow hg
      · obtain ⟨b, hb, hbg⟩ := hs.groupAssignment row hrow
        by_cases hbu : b.userGuid = userGuid
        · exact hfree b hb hbu hbg
        · rw [hsame b (hkept b hb hbu) (hbg.trans hg)] at hbu
          exact hbu rfl
    · rw [← hsame _ (hwritten m j hm) hg] at hd
      dsimp only at hd
      rw [hmd] at hd
      exact absurd hd (by decide)
  · rcases mem_replaceAssignments.mp ha with ⟨hm, -⟩ | ⟨n, i, hn, rfl⟩
    · exact hi.owners a hm user hu hg
    · have htarget := List.find?_some ht
      obtain rfl := List.inj_on_of_nodup_map hs.users hu (List.mem_of_find?_eq_some ht)
        (hg.trans (of_decide_eq_true htarget).symm)
      exact hadmin

end Replacement

theorem Operation.invariant {op : Operation} {fresh : ℕ → String} (hs : s.Consistent)
    (hi : s.Invariant) (hs' : s'.Consistent)
    (h : op.run before s fresh actorGuid = .ok s') : s'.Invariant := by
  cases op with
  | createRole dto => exact createRole_invariant hs hi hs' h
  | updateRole guid dto => exact updateRole_invariant hi h
  | deleteRole guid => exact deleteRole_invariant hs hi h
  | replaceUserRoles userGuid assignments =>
    obtain ⟨normalized, hv, ht⟩ := replaceUserRoles_eq_ok h
    exact transaction_invariant hs hi hv hs' ht
  | deleteDeviceGroup guid => exact deleteDeviceGroup_invariant hi h
  | deleteUser guid => exact deleteUser_invariant hs hi h

/-- The roles and their assignments keep to the invariant, whichever operations
run and whichever of them are rolled back. -/
theorem operations_keep_invariant (hs : s.Consistent) (hi : s.Invariant)
    (h : ReflTransGen Step s s') : s'.Consistent ∧ s'.Invariant := by
  induction h with
  | refl => exact ⟨hs, hi⟩
  | tail _ hstep ih =>
    cases hstep with
    | commit op hrun hc => exact ⟨hc, op.invariant ih.1 ih.2 hc hrun⟩
    | rollback => exact ih

/-- A store before its first role. -/
def bareStore : Store where
  users := [⟨"root", .active, true⟩, ⟨"member", .active, false⟩]
  roles := []
  rolePermissions := []
  assignments := []
  assignmentGroups := []
  deviceGroups := [⟨"lab", "Lab"⟩]

def roleStore : Store :=
  { bareStore with
    roles := [⟨"x", "Viewer", false⟩]
    rolePermissions := [⟨"x", "devices.edit"⟩, ⟨"x", "devices.view"⟩] }

def memberStore : Store :=
  { roleStore with
    assignments := [⟨"x", "member", "x", "device_group"⟩]
    assignmentGroups := [⟨"x", "lab"⟩] }

theorem bareStore_consistent : bareStore.Consistent := by
  constructor <;> decide

theorem bareStore_invariant : bareStore.Invariant := by
  constructor <;> decide

theorem bareStore_run : ReflTransGen Step bareStore memberStore := by
  have hrole : (Operation.createRole ⟨" Viewer ", ["devices.view", "devices.edit"], none⟩).run
      bareStore bareStore freshGuid "root" = .ok roleStore := by decide +kernel
  have hmember : (Operation.replaceUserRoles "member" [⟨"x", .deviceGroup, some ["lab"]⟩]).run
      roleStore roleStore freshGuid "root" = .ok memberStore := by decide +kernel
  have hroles : roleStore.Consistent := by constructor <;> decide
  have hmembers : memberStore.Consistent := by constructor <;> decide
  exact .tail (.single (.commit _ hrole hroles)) (.commit _ hmember hmembers)

theorem bareStore_operations_keep_invariant : memberStore.Consistent ∧ memberStore.Invariant :=
  operations_keep_invariant bareStore_consistent bareStore_invariant bareStore_run

end RustdeskConsole.Rbac
