import Mathlib.Data.List.Induction
import RustdeskConsole.Rbac.Requests

namespace RustdeskConsole.Rbac

open Collections

structure LoadedAssignment where
  assignment : UserRoleAssignment
  role : Option Role
  permissions : List PermissionCode
  groupGuids : List String

structure UserRoleResponse where
  guid : String
  roleGuid : String
  roleName : String
  scopeType : String
  deviceGroupGuids : List String
  permissions : List PermissionCode

structure UserRoles where
  data : List UserRoleResponse
  effectiveScope : OrderedMap String EffectivePermissionScope

def loadAssignments (s : Store) (userGuid : String) : List LoadedAssignment :=
  let assignments := s.assignments.filter (·.userGuid = userGuid)
  let roleGuids := assignments.map UserRoleAssignment.roleGuid
  let roles := s.roles.filter fun role ↦ roleGuids.contains role.guid
  let permissionMap := permissionsByRole s roleGuids
  let groups := s.assignmentGroups.filter fun row ↦
    (assignments.map UserRoleAssignment.guid).contains row.assignmentGuid
  let groupMap := OrderedMap.group groups UserRoleAssignmentDeviceGroup.assignmentGuid
    UserRoleAssignmentDeviceGroup.deviceGroupGuid
  assignments.map fun assignment ↦
    let rolePermissions := (permissionMap.get? assignment.roleGuid).getD []
    { assignment := assignment
      role := roles.find? (·.guid = assignment.roleGuid)
      permissions := if assignment.scopeType = "device_group" then
        rolePermissions.filter fun permission ↦ isDeviceGroupScopedPermission permission.val
        else rolePermissions
      groupGuids := if assignment.scopeType = "device_group" then
        sortBy id ((groupMap.get? assignment.guid).getD []) else [] }

/-- The scope of an assignment by itself: one of no known type is of no group. -/
def LoadedAssignment.scope (loaded : LoadedAssignment) : EffectivePermissionScope :=
  if loaded.assignment.scopeType = "global" then ⟨.global, []⟩
  else ⟨.deviceGroup, loaded.groupGuids⟩

def LoadedAssignment.unite (existing : Option EffectivePermissionScope)
    (loaded : LoadedAssignment) : EffectivePermissionScope :=
  match existing with
  | none => loaded.scope
  | some existing =>
    if existing.scopeType = .global then existing
    else if loaded.assignment.scopeType = "global" then loaded.scope
    else ⟨.deviceGroup,
      sortBy id (existing.deviceGroupGuids ++ loaded.groupGuids).eraseDups⟩

/-- Each assignment with each of its permissions. -/
def reportedGrants (assignments : List LoadedAssignment) :
    List (LoadedAssignment × PermissionCode) :=
  assignments.flatMap fun loaded ↦ loaded.permissions.map (loaded, ·)

def effectiveScopes (assignments : List LoadedAssignment) :
    OrderedMap String EffectivePermissionScope :=
  OrderedMap.tally (reportedGrants assignments) (·.2.val)
    fun existing grant ↦ grant.1.unite existing

def toResponse (loaded : LoadedAssignment) : UserRoleResponse where
  guid := loaded.assignment.guid
  roleGuid := loaded.assignment.roleGuid
  roleName := (loaded.role.map Role.name).getD ""
  scopeType := loaded.assignment.scopeType
  deviceGroupGuids := loaded.groupGuids
  permissions := loaded.permissions

def getUserRoles (s : Store) (userGuid : String) : Except Failure UserRoles := do
  let _ ← requireUser s userGuid
  let assignments := loadAssignments s userGuid
  pure ⟨assignments.map toResponse, effectiveScopes assignments⟩

/-- The report counts the assignment for the permission. -/
structure Reports (s : Store) (userGuid code : String) (a : UserRoleAssignment) : Prop where
  carries : Carries s userGuid code a
  inScope : a.scopeType = "device_group" → isDeviceGroupScopedPermission code = true

/-- The user has the permission by damaged rows only: their assignments are of no known
type, or of device groups and without one. -/
def OnlyDamaged (s : Store) (userGuid code : String) : Prop :=
  (∃ a, Reports s userGuid code a) ∧ ∀ a, Reports s userGuid code a →
    a.scopeType ≠ "global" ∧
      (a.scopeType = "device_group" → ∀ g, ⟨a.guid, g⟩ ∉ s.assignmentGroups)

/-- The same entry of a report, up to the order of its groups. -/
def SameScope : Option EffectivePermissionScope → Option EffectivePermissionScope → Prop
  | none, none => True
  | some scope, some scope' => scope.scopeType = scope'.scopeType ∧
    ∀ g, g ∈ scope.deviceGroupGuids ↔ g ∈ scope'.deviceGroupGuids
  | _, _ => False

section Report

variable {s : Store} {userGuid code : String}

theorem mem_loadAssignments {loaded : LoadedAssignment} (h : loaded ∈ loadAssignments s userGuid) :
    (loaded.assignment ∈ s.assignments ∧ loaded.assignment.userGuid = userGuid) ∧
      (∀ p, p ∈ loaded.permissions ↔ p ∈ s.effectivePermissions loaded.assignment.roleGuid ∧
        (loaded.assignment.scopeType = "device_group" →
          isDeviceGroupScopedPermission p.val = true)) ∧
      ∀ g, g ∈ loaded.groupGuids ↔ loaded.assignment.scopeType = "device_group" ∧
        ⟨loaded.assignment.guid, g⟩ ∈ s.assignmentGroups := by
  obtain ⟨a, ha, rfl⟩ := List.mem_map.mp h
  have hm : a ∈ s.assignments ∧ a.userGuid = userGuid := by
    simpa using List.mem_filter.mp ha
  refine ⟨hm, fun p ↦ ?_, fun g ↦ ?_⟩
  · dsimp only
    rw [permissionsByRole_getD (List.mem_map_of_mem ha)]
    by_cases ht : a.scopeType = "device_group"
    · simp [ht]
    · simp [ht]
  · dsimp only
    rw [OrderedMap.getD_group]
    by_cases ht : a.scopeType = "device_group"
    · simp only [ht, if_true, mem_sortBy, List.mem_map, List.mem_filter, true_and,
        List.contains_iff_mem, decide_eq_true_eq]
      constructor
      · intro hrow
        obtain ⟨row, ⟨⟨hrow, -⟩, hguid⟩, hg⟩ := hrow
        exact hguid ▸ hg ▸ hrow
      · intro hrow
        exact ⟨_, ⟨⟨hrow, a, hm, rfl⟩, rfl⟩, rfl⟩
    · simp [ht]

theorem exists_loaded {a : UserRoleAssignment} (ha : a ∈ s.assignments)
    (hu : a.userGuid = userGuid) :
    ∃ loaded ∈ loadAssignments s userGuid, loaded.assignment = a :=
  ⟨_, List.mem_map_of_mem (List.mem_filter.mpr ⟨ha, decide_eq_true hu⟩), rfl⟩

/-- What the entries of a permission come to. -/
structure Sums (grants : List (LoadedAssignment × PermissionCode))
    (scope : EffectivePermissionScope) : Prop where
  global : scope.scopeType = .global ↔ ∃ grant ∈ grants, grant.1.assignment.scopeType = "global"
  groups : scope.scopeType = .deviceGroup →
    ∀ g, g ∈ scope.deviceGroupGuids ↔ ∃ grant ∈ grants, g ∈ grant.1.groupGuids
  none : scope.scopeType = .global → scope.deviceGroupGuids = []

theorem LoadedAssignment.unite_none {loaded : LoadedAssignment} {p : PermissionCode}
    (hl : loaded ∈ loadAssignments s userGuid) : Sums [(loaded, p)] (loaded.unite none) := by
  obtain ⟨-, -, hgroups⟩ := mem_loadAssignments hl
  by_cases hg : loaded.assignment.scopeType = "global"
  · refine ⟨?_, ?_, ?_⟩ <;> simp [unite, scope, hg]
  · refine ⟨?_, ?_, ?_⟩ <;> simp [unite, scope, hg]

theorem Sums.unite {grants : List (LoadedAssignment × PermissionCode)}
    {existing : EffectivePermissionScope} {loaded : LoadedAssignment} {p : PermissionCode}
    (hs : Sums grants existing) :
    Sums (grants ++ [(loaded, p)]) (loaded.unite (some existing)) := by
  have hexists : ∀ P : LoadedAssignment × PermissionCode → Prop,
      (∃ grant ∈ grants ++ [(loaded, p)], P grant) ↔ (∃ grant ∈ grants, P grant) ∨ P (loaded, p) := by
    intro P
    simp only [List.mem_append, List.mem_singleton, or_and_right, exists_or, exists_eq_left]
  by_cases he : existing.scopeType = .global
  · have hunite : loaded.unite (some existing) = existing := by simp [LoadedAssignment.unite, he]
    rw [hunite]
    refine ⟨?_, fun hd ↦ ?_, hs.none⟩
    · rw [hexists, ← hs.global]
      simp [he]
    · rw [he] at hd
      cases hd
  · have hno : ¬∃ grant ∈ grants, grant.1.assignment.scopeType = "global" := fun h ↦
      he (hs.global.mpr h)
    have hdevice : existing.scopeType = .deviceGroup := by
      cases ht : existing.scopeType with
      | global => exact absurd ht he
      | deviceGroup => rfl
    by_cases hl : loaded.assignment.scopeType = "global"
    · refine ⟨?_, ?_, ?_⟩
      · rw [hexists]
        simp [LoadedAssignment.unite, LoadedAssignment.scope, he, hl]
      · simp [LoadedAssignment.unite, LoadedAssignment.scope, he, hl]
      · simp [LoadedAssignment.unite, LoadedAssignment.scope, he, hl]
    · refine ⟨?_, fun _ g ↦ ?_, ?_⟩
      · rw [hexists]
        simp [LoadedAssignment.unite, he, hl, hno]
      · rw [hexists, ← hs.groups hdevice g]
        simp [LoadedAssignment.unite, he, hl]
      · simp [LoadedAssignment.unite, he, hl]

/-- A permission is reported as soon as there is an entry of it. -/
theorem foldl_unite {grants : List (LoadedAssignment × PermissionCode)}
    (hg : ∀ grant ∈ grants, grant.1 ∈ loadAssignments s userGuid) :
    match grants.foldl (fun existing grant ↦ some (grant.1.unite existing)) none with
    | none => grants = []
    | some scope => grants ≠ [] ∧ Sums grants scope := by
  induction grants using List.reverseRecOn with
  | nil => rfl
  | append_singleton grants grant ih =>
    rw [List.foldl_append, List.foldl_cons, List.foldl_nil]
    have ih := ih fun grant hm ↦ hg grant (List.mem_append_left _ hm)
    obtain ⟨loaded, p⟩ := grant
    split at ih
    · next hn =>
      have hl : loaded ∈ loadAssignments s userGuid :=
        hg (loaded, p) (List.mem_append_right _ (.head _))
      rw [hn, ih]
      exact ⟨by simp, LoadedAssignment.unite_none hl⟩
    · next scope hsome =>
      rw [hsome]
      exact ⟨by simp, ih.2.unite⟩

theorem mem_reportedGrants {grant : LoadedAssignment × PermissionCode}
    (hm : grant ∈ reportedGrants (loadAssignments s userGuid)) :
    grant.1 ∈ loadAssignments s userGuid ∧
      Reports s userGuid grant.2.val grant.1.assignment := by
  obtain ⟨loaded, hl, hm⟩ := List.mem_flatMap.mp hm
  obtain ⟨p, hp, rfl⟩ := List.mem_map.mp hm
  obtain ⟨⟨ha, hu⟩, hperm, -⟩ := mem_loadAssignments hl
  obtain ⟨hp, hscope⟩ := (hperm p).mp hp
  exact ⟨hl, ⟨ha, hu, p, hp, rfl⟩, hscope⟩

theorem Reports.granted {a : UserRoleAssignment} (hr : Reports s userGuid code a) :
    ∃ grant ∈ reportedGrants (loadAssignments s userGuid),
      grant.2.val = code ∧ grant.1.assignment = a := by
  obtain ⟨p, hp, rfl⟩ := hr.carries.permission
  obtain ⟨loaded, hl, rfl⟩ := exists_loaded hr.carries.mem hr.carries.user
  obtain ⟨-, hperm, -⟩ := mem_loadAssignments hl
  have hmem := (hperm p).mpr ⟨hp, hr.inScope⟩
  exact ⟨(loaded, p), List.mem_flatMap.mpr ⟨loaded, hl, List.mem_map_of_mem hmem⟩, rfl, rfl⟩

/-- What the report says of a permission. -/
theorem effectiveScopes_get? :
    match (effectiveScopes (loadAssignments s userGuid)).get? code with
    | none => ¬∃ a, Reports s userGuid code a
    | some scope => (∃ a, Reports s userGuid code a) ∧
      (scope.scopeType = .global ↔ HoldsGlobally s userGuid code) ∧
      (scope.scopeType = .deviceGroup →
        ∀ g, g ∈ scope.deviceGroupGuids ↔ HoldsIn s userGuid code g) ∧
      (scope.scopeType = .global → scope.deviceGroupGuids = []) := by
  have hmem : ∀ grant, grant ∈ (reportedGrants (loadAssignments s userGuid)).filter
      (·.2.val = code) ↔ grant ∈ reportedGrants (loadAssignments s userGuid) ∧
        grant.2.val = code := by
    simp
  have hfold := @foldl_unite s userGuid
    ((reportedGrants (loadAssignments s userGuid)).filter (·.2.val = code)) fun grant hm ↦ (mem_reportedGrants ((hmem grant).mp hm).1).1
  rw [effectiveScopes, OrderedMap.get?_tally]
  split at hfold
  · next hn =>
    intro ⟨a, ha⟩
    obtain ⟨grant, hm, hc, -⟩ := ha.granted
    have hin := (hmem grant).mpr ⟨hm, hc⟩
    rw [hfold] at hin
    cases hin
  · next scope hsome =>
    obtain ⟨hne, hsums⟩ := hfold
    refine ⟨?_, ?_, fun hd g ↦ ?_, hsums.none⟩
    · obtain ⟨grant, hin⟩ := List.exists_mem_of_ne_nil _ hne
      obtain ⟨hgrant, rfl⟩ := (hmem grant).mp hin
      exact ⟨_, (mem_reportedGrants hgrant).2⟩
    · rw [hsums.global]
      constructor
      · intro ⟨grant, hin, hg⟩
        obtain ⟨hgrant, rfl⟩ := (hmem grant).mp hin
        exact ⟨_, (mem_reportedGrants hgrant).2.carries, hg⟩
      · intro ⟨a, hc, hg⟩
        have hr : Reports s userGuid code a := ⟨hc, fun hd ↦ by simp [hg] at hd⟩
        obtain ⟨grant, hm, hcode, rfl⟩ := hr.granted
        exact ⟨grant, (hmem grant).mpr ⟨hm, hcode⟩, hg⟩
    · rw [hsums.groups hd]
      constructor
      · intro ⟨grant, hin, hg⟩
        obtain ⟨hgrant, rfl⟩ := (hmem grant).mp hin
        obtain ⟨hl, hr⟩ := mem_reportedGrants hgrant
        obtain ⟨-, -, hgroups⟩ := mem_loadAssignments hl
        obtain ⟨ht, hrow⟩ := (hgroups g).mp hg
        exact ⟨hr.inScope ht, _, hr.carries, ht, hrow⟩
      · intro ⟨hscoped, a, hc, ht, hrow⟩
        have hr : Reports s userGuid code a := ⟨hc, fun _ ↦ hscoped⟩
        obtain ⟨grant, hm, hcode, rfl⟩ := hr.granted
        obtain ⟨-, -, hgroups⟩ := mem_loadAssignments (mem_reportedGrants hm).1
        exact ⟨grant, (hmem grant).mpr ⟨hm, hcode⟩, (hgroups g).mpr ⟨ht, hrow⟩⟩

theorem not_onlyDamaged (hr : ∃ a, Reports s userGuid code a) :
    ¬OnlyDamaged s userGuid code ↔
      HoldsGlobally s userGuid code ∨ ∃ g, HoldsIn s userGuid code g := by
  constructor
  · intro hn
    by_contra hno
    refine hn ⟨hr, fun a ha ↦ ⟨fun ht ↦ hno (.inl ⟨a, ha.carries, ht⟩), fun ht g hrow ↦ ?_⟩⟩
    exact hno (.inr ⟨g, ha.inScope ht, a, ha.carries, ht, hrow⟩)
  · intro h hd
    rcases h with ⟨a, hc, ht⟩ | ⟨g, hscoped, a, hc, ht, hrow⟩
    · exact (hd.2 a ⟨hc, fun hgroup ↦ by simp [ht] at hgroup⟩).1 ht
    · exact (hd.2 a ⟨hc, fun _ ↦ hscoped⟩).2 ht g hrow

theorem HoldsGlobally.reports (h : HoldsGlobally s userGuid code) :
    ∃ a, Reports s userGuid code a := by
  obtain ⟨a, hc, ht⟩ := h
  exact ⟨a, hc, fun hgroup ↦ by simp [ht] at hgroup⟩

theorem HoldsIn.reports {g : String} (h : HoldsIn s userGuid code g) :
    ∃ a, Reports s userGuid code a := by
  obtain ⟨hscoped, a, hc, -, -⟩ := h
  exact ⟨a, hc, fun _ ↦ hscoped⟩

/-- The report and the enforcement differ only where the report has an entry of no
groups and the enforcement has none. -/
theorem sameScope_iff : SameScope ((effectiveScopes (loadAssignments s userGuid)).get? code)
    ((roleScopes s userGuid).get? code) ↔ ¬OnlyDamaged s userGuid code := by
  have hreported := @effectiveScopes_get? s userGuid code
  have henforced := @roleScopes_isSome s userGuid code
  split at hreported
  · next hn =>
    have hnone : (roleScopes s userGuid).get? code = none := by
      rw [← Option.not_isSome_iff_eq_none, henforced]
      intro h
      rcases h with hg | ⟨g, hg⟩
      · exact hreported hg.reports
      · exact hreported hg.reports
    rw [hn, hnone]
    exact iff_of_true trivial fun hd ↦ hreported hd.1
  · next scope hsome =>
    obtain ⟨hr, hglobal, hgroups, hnil⟩ := hreported
    rw [hsome, not_onlyDamaged hr, ← henforced]
    cases he : (roleScopes s userGuid).get? code with
    | none => exact iff_of_false id Bool.false_ne_true
    | some enforced =>
      refine iff_of_true ?_ rfl
      rcases roleScopes_eq_some he with ⟨hg, rfl⟩ | ⟨hg, ht, hm⟩
      · have ht := hglobal.mpr hg
        exact ⟨ht, fun g ↦ by rw [hnil ht]⟩
      · have hd : scope.scopeType = .deviceGroup := by
          cases ht : scope.scopeType with
          | global => exact absurd (hglobal.mp ht) hg
          | deviceGroup => rfl
        exact ⟨hd.trans ht.symm, fun g ↦ (hgroups hd g).trans (hm g).symm⟩

theorem requireUser_of_current {user : User} (hu : getCurrentUser s userGuid = .ok user) :
    requireUser s userGuid = .ok user := by
  rw [getCurrentUser] at hu
  split at hu
  · split at hu
    · next h _ =>
      cases hu
      simp only [requireUser, h]
    · cases hu
  · cases hu

/-- What an administrator is shown of a permission is what is enforced of it, unless
the user has it by damaged rows only. -/
theorem report_enforced_iff {user : User} (hu : getCurrentUser s userGuid = .ok user)
    (ha : user.isAdmin = false) (code : String) :
    ∃ report effective, getUserRoles s userGuid = .ok report ∧
      getEffectivePermissions s userGuid = .ok effective ∧
      (SameScope (report.effectiveScope.get? code) (effective.scopes.get? code) ↔
        ¬OnlyDamaged s userGuid code) := by
  refine ⟨⟨(loadAssignments s userGuid).map toResponse,
    effectiveScopes (loadAssignments s userGuid)⟩, _, ?_, getEffectivePermissions_eq hu ha,
    sameScope_iff⟩
  rw [getUserRoles, requireUser_of_current hu]
  rfl

theorem sample_report_enforced : ∃ report effective,
    getUserRoles damagedStore "operator" = .ok report ∧
      getEffectivePermissions damagedStore "operator" = .ok effective ∧
      (SameScope (report.effectiveScope.get? "devices.view") (effective.scopes.get? "devices.view") ↔
        ¬OnlyDamaged damagedStore "operator" "devices.view") :=
  report_enforced_iff damagedStore_operator rfl "devices.view"

theorem member_onlyDamaged : OnlyDamaged damagedStore "member" "devices.view" := by
  have honly : ∀ a ∈ damagedStore.assignments, a.userGuid = "member" →
      (∃ p ∈ damagedStore.effectivePermissions a.roleGuid, p.val = "devices.view") →
        a = ⟨"d", "member", "viewer", "device_group"⟩ := by
    decide +kernel
  have hcarries : Carries damagedStore "member" "devices.view"
      ⟨"d", "member", "viewer", "device_group"⟩ :=
    ⟨by decide, rfl, by decide +kernel⟩
  refine ⟨⟨_, hcarries, fun _ ↦ by decide⟩, fun a ha ↦ ?_⟩
  obtain rfl := honly a ha.carries.mem ha.carries.user ha.carries.permission
  exact ⟨by decide, fun _ g ↦ by simp [damagedStore]⟩

/-- The member has an assignment of device groups without any group. -/
theorem damaged_scope_reported : ¬ ∀ s userGuid user code report effective,
    getCurrentUser s userGuid = .ok user → user.isAdmin = false →
      getUserRoles s userGuid = .ok report → getEffectivePermissions s userGuid = .ok effective →
        SameScope (report.effectiveScope.get? code) (effective.scopes.get? code) := by
  intro hall
  have hu : getCurrentUser damagedStore "member" = .ok ⟨"member", .active, false⟩ := rfl
  have hreport : getUserRoles damagedStore "member" =
      .ok ⟨(loadAssignments damagedStore "member").map toResponse,
        effectiveScopes (loadAssignments damagedStore "member")⟩ := rfl
  have hsame := hall damagedStore "member" _ "devices.view" _ _ hu rfl hreport
    (getEffectivePermissions_eq hu rfl)
  exact sameScope_iff.mp hsame member_onlyDamaged

end Report

end RustdeskConsole.Rbac
