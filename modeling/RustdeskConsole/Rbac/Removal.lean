import RustdeskConsole.Rbac.Delegation

namespace RustdeskConsole.Rbac

open Collections Effects.Guard

/-- A scope reaches all devices, or those of a device group. -/
def PermissionScope.Covers (scope : PermissionScope) (element : Option String) : Prop :=
  scope.global = true ∨ ∃ g ∈ scope.deviceGroupGuids, element = some g

/-- The request gives the permission there, be it by another role. -/
def Renewed (s : Store) (assignments : List UserRoleAssignmentDto) (code : String)
    (element : Option String) : Prop :=
  ∃ r ∈ assignments, (∃ p ∈ s.effectivePermissions r.roleGuid, p.val = code) ∧
    (r.scopeType = .global ∨
      r.scopeType = .deviceGroup ∧ ∃ g ∈ r.deviceGroupGuids.getD [], element = some g)

/-- Where an assignment of the user takes its role. -/
def UserRoleAssignment.Reaches (s : Store) (a : UserRoleAssignment) (code : String)
    (element : Option String) : Prop :=
  a.scopeType = "global" ∨ a.scopeType = "device_group" ∧
    isDeviceGroupScopedPermission code = true ∧
      ∃ g, ⟨a.guid, g⟩ ∈ s.assignmentGroups ∧ element = some g

/-- Whatever the request takes from the assignments of the user, the operator has. -/
def TakesOwn (s : Store) (assignments : List UserRoleAssignmentDto)
    (userGuid actorGuid : String) : Prop :=
  ∀ a ∈ s.assignments, a.userGuid = userGuid → ∀ p ∈ s.effectivePermissions a.roleGuid,
    ∀ element, a.Reaches s p.val element → Renewed s assignments p.val element ∨
      (roleScope s actorGuid p.val).Covers element

section Removal

variable {s s' before : Store} {guid : ℕ → String} {userGuid actorGuid code : String}
  {assignments : List UserRoleAssignmentDto} {normalized : List NormalizedAssignment}
  {element : Option String}

theorem roleScope_covers : (roleScope s userGuid code).Covers element ↔
    HoldsGlobally s userGuid code ∨ ∃ g, HoldsIn s userGuid code g ∧ element = some g := by
  rw [PermissionScope.Covers, roleScope_global]
  simp only [mem_roleScope]
  constructor
  · intro h
    rcases h with h | ⟨g, ⟨-, hg⟩, he⟩
    · exact .inl h
    · exact .inr ⟨g, hg, he⟩
  · intro h
    by_cases hglobal : HoldsGlobally s userGuid code
    · exact .inl hglobal
    · obtain ⟨g, hg, he⟩ := h.resolve_left hglobal
      exact .inr ⟨g, ⟨hglobal, hg⟩, he⟩

/-- A user has a permission where an assignment takes it. -/
theorem covers_iff_reaches : (roleScope s userGuid code).Covers element ↔
    ∃ a, Carries s userGuid code a ∧ a.Reaches s code element := by
  rw [roleScope_covers]
  constructor
  · intro h
    rcases h with ⟨a, hc, ht⟩ | ⟨g, ⟨hscoped, a, hc, ht, hrow⟩, he⟩
    · exact ⟨a, hc, .inl ht⟩
    · exact ⟨a, hc, .inr ⟨ht, hscoped, g, hrow, he⟩⟩
  · intro h
    obtain ⟨a, hc, ht | ⟨ht, hscoped, g, hrow, he⟩⟩ := h
    · exact .inl ⟨a, hc, ht⟩
    · exact .inr ⟨g, ⟨hscoped, a, hc, ht, hrow⟩, he⟩

theorem takesOwn_iff : TakesOwn s assignments userGuid actorGuid ↔
    ∀ code element, (roleScope s userGuid code).Covers element →
      Renewed s assignments code element ∨ (roleScope s actorGuid code).Covers element := by
  constructor
  · intro h code element hcovers
    obtain ⟨a, hc, hreaches⟩ := covers_iff_reaches.mp hcovers
    obtain ⟨p, hp, rfl⟩ := hc.permission
    exact h a hc.mem hc.user p hp element hreaches
  · intro h a ha hu p hp element hreaches
    exact h p.val element (covers_iff_reaches.mpr ⟨a, ⟨ha, hu, p, hp, rfl⟩, hreaches⟩)

theorem validateAssignments_eq {seen : List String}
    (h : validateAssignments seen assignments = .ok normalized) :
    normalized = assignments.map UserRoleAssignmentDto.normalized := by
  induction assignments generalizing seen normalized with
  | nil => exact (Except.ok.inj h).symm
  | cons a rest ih =>
    unfold validateAssignments at h
    split at h
    · cases h
    · split at h
      · cases h
      · split at h
        · cases h
        · obtain ⟨tail, htail, hn⟩ := bind_eq_ok.mp h
          rw [← Except.ok.inj hn, ih htail, List.map_cons]

theorem mem_normalized_groups {r : UserRoleAssignmentDto} {g : String}
    (ht : r.scopeType = .deviceGroup) :
    g ∈ r.normalized.deviceGroupGuids ↔ g ∈ r.deviceGroupGuids.getD [] := by
  simp [UserRoleAssignmentDto.normalized, UserRoleAssignmentDto.groups, ht]

/-- After the replacement the user has what the request gives, and nothing else. -/
theorem replaced_covers (hs : s.Consistent) (hg : Function.Injective guid)
    (hf : ∀ i, ∀ a ∈ s.assignments, a.guid ≠ guid i)
    (hv : validateAssignments [] assignments = .ok normalized)
    (ht : assertScopeTypes (permissionsByRole s
      (normalized.map NormalizedAssignment.roleGuid)) normalized = .ok ()) :
    (roleScope (replaceAssignments s guid userGuid normalized) userGuid code).Covers element ↔
      Renewed s assignments code element := by
  obtain ⟨-, -, hvalid⟩ := validateAssignments_spec hv
  obtain rfl := validateAssignments_eq hv
  rw [roleScope_covers]
  constructor
  · intro h
    rcases h with h | ⟨g, h, he⟩
    · obtain ⟨n, hn, hp, htype⟩ := h.written
      obtain ⟨r, hr, rfl⟩ := List.mem_map.mp hn
      exact ⟨r, hr, hp, .inl htype⟩
    · obtain ⟨n, hn, hp, hm⟩ := h.written hs hg hf
      have hdevice : n.scopeType = .deviceGroup := by
        cases htype : n.scopeType with
        | global =>
          rw [(hvalid n hn).global htype] at hm
          cases hm
        | deviceGroup => rfl
      obtain ⟨r, hr, rfl⟩ := List.mem_map.mp hn
      exact ⟨r, hr, hp, .inr ⟨hdevice, g, (mem_normalized_groups hdevice).mp hm, he⟩⟩
  · intro h
    obtain ⟨r, hr, hp, htype⟩ := h
    obtain ⟨i, hi⟩ := List.getElem?_of_mem (List.mem_map_of_mem hr)
    have hcarries : Carries (replaceAssignments s guid userGuid
        (assignments.map UserRoleAssignmentDto.normalized)) userGuid code
          ⟨guid i, userGuid, r.roleGuid, r.scopeType.column⟩ :=
      ⟨mem_replaceAssignments.mpr (.inr ⟨r.normalized, i, hi, rfl⟩), rfl, hp⟩
    rcases htype with htype | ⟨htype, g, hm, he⟩
    · exact .inl ⟨_, hcarries, by rw [htype]; rfl⟩
    · obtain ⟨-, hscoped⟩ := assertScopeTypes_eq_ok.mp ht r.normalized (List.mem_map_of_mem hr) htype
      obtain ⟨p, hp, rfl⟩ := hp
      have hrow : ⟨guid i, g⟩ ∈ (replaceAssignments s guid userGuid
          (assignments.map UserRoleAssignmentDto.normalized)).assignmentGroups :=
        mem_replaceAssignments_groups.mpr (.inr ⟨r.normalized, i, hi, htype, g,
          (mem_normalized_groups htype).mpr hm, rfl⟩)
      exact .inr ⟨g, ⟨hscoped p hp, _, hcarries, by rw [htype]; rfl, hrow⟩, he⟩

/-- A committed replacement takes nothing from the user that the operator does not have
if and only if each grant of the user that it does not renew is the operator's own. -/
theorem removed_within_operator_iff (hs : s.Consistent) (hg : Function.Injective guid)
    (hf : ∀ i, ∀ a ∈ s.assignments, a.guid ≠ guid i)
    (ha : ∀ actor, s.user? actorGuid = some actor → actor.isAdmin = false)
    (h : replaceUserRoles before s guid userGuid assignments actorGuid = .ok s') :
    (∀ code element, (roleScope s userGuid code).Covers element →
      ¬(roleScope s' userGuid code).Covers element → (roleScope s actorGuid code).Covers element) ↔
      TakesOwn s assignments userGuid actorGuid := by
  simp only [replaceUserRoles, bind_eq_ok, exists_unit] at h
  obtain ⟨normalized, hv, -, h⟩ := h
  obtain ⟨actor, hu⟩ := exists_actor h
  obtain ⟨hdel, rfl⟩ := (transaction_eq_ok hu (ha actor (user?_of_getCurrentUser hu).1)).mp h
  have hcovers : ∀ code element, (roleScope (replaceAssignments s guid userGuid normalized)
      userGuid code).Covers element ↔ Renewed s assignments code element :=
    fun code element ↦ replaced_covers hs hg hf hv hdel.scopeTypes
  rw [takesOwn_iff]
  simp only [hcovers]
  refine forall₂_congr fun code element ↦ imp_congr_right fun _ ↦ ?_
  constructor
  · intro himp
    by_cases hr : Renewed s assignments code element
    · exact .inl hr
    · exact .inr (himp hr)
  · intro hor hr
    exact hor.resolve_left hr

end Removal

section Sample

/-- The operator has devices of one group; the member has them everywhere. -/
def narrowStore : Store where
  users := [⟨"operator", .active, false⟩, ⟨"member", .active, false⟩]
  roles := [⟨"delegate", "Delegate", false⟩, ⟨"viewer", "Viewer", false⟩]
  rolePermissions := [⟨"delegate", "roles.view"⟩, ⟨"delegate", "users.view"⟩,
    ⟨"delegate", "roles.assign"⟩, ⟨"viewer", "devices.view"⟩]
  assignments := [⟨"a", "operator", "delegate", "global"⟩,
    ⟨"b", "operator", "viewer", "device_group"⟩, ⟨"c", "member", "viewer", "global"⟩]
  assignmentGroups := [⟨"b", "lab"⟩]
  deviceGroups := [⟨"lab", "Lab"⟩]

theorem narrowStore_consistent : narrowStore.Consistent where
  users := by decide
  roles := by decide
  rolePermissions := by decide
  assignments := by decide
  assignmentRoles := by decide
  assignmentGroups := by decide
  deviceGroups := by decide
  permissionRole := by decide
  assignmentUser := by decide
  assignmentRole := by decide
  groupAssignment := by decide
  groupDeviceGroup := by decide

theorem narrowStore_fresh (i : ℕ) : ∀ a ∈ narrowStore.assignments, a.guid ≠ freshGuid i := by
  intro a ha heq
  have hx : 'x' ∈ a.guid.toList := by
    rw [heq, freshGuid, String.toList_ofList, List.mem_replicate]
    exact ⟨by omega, rfl⟩
  have hno : ∀ a ∈ narrowStore.assignments, 'x' ∉ a.guid.toList := by decide
  exact hno a ha hx

theorem narrowStore_operator (actor : User) (hu : narrowStore.user? "operator" = some actor) :
    actor.isAdmin = false := by
  have hoperator : narrowStore.user? "operator" = some ⟨"operator", .active, false⟩ := rfl
  rw [hoperator, Option.some.injEq] at hu
  exact hu ▸ rfl

theorem narrowed_ok : replaceUserRoles narrowStore narrowStore freshGuid "member" [] "operator" =
    .ok (replaceAssignments narrowStore freshGuid "member" []) := by decide +kernel

theorem sample_removed_within : (∀ code element,
      (roleScope narrowStore "member" code).Covers element →
        ¬(roleScope (replaceAssignments narrowStore freshGuid "member" []) "member" code).Covers
          element → (roleScope narrowStore "operator" code).Covers element) ↔
    TakesOwn narrowStore [] "member" "operator" :=
  removed_within_operator_iff narrowStore_consistent freshGuid_injective narrowStore_fresh
    narrowStore_operator narrowed_ok

/-- An operator of one device group takes a global role away. -/
theorem foreign_scope_removed : ¬ ∀ (before s s' : Store) guid userGuid assignments actorGuid,
    s.Consistent → Function.Injective guid → (∀ i, ∀ a ∈ s.assignments, a.guid ≠ guid i) →
      (∀ actor, s.user? actorGuid = some actor → actor.isAdmin = false) →
        replaceUserRoles before s guid userGuid assignments actorGuid = .ok s' →
          ∀ code element, (roleScope s userGuid code).Covers element →
            ¬(roleScope s' userGuid code).Covers element →
              (roleScope s actorGuid code).Covers element := by
  intro hall
  have hmember : (roleScope narrowStore "member" "devices.view").global = true := by
    decide +kernel
  have hafter : roleScope (replaceAssignments narrowStore freshGuid "member" []) "member"
      "devices.view" = ⟨false, []⟩ := by decide +kernel
  have hoperator : (roleScope narrowStore "operator" "devices.view").global = false := by
    decide +kernel
  have hlost := hall narrowStore narrowStore _ freshGuid "member" [] "operator"
    narrowStore_consistent freshGuid_injective narrowStore_fresh narrowStore_operator narrowed_ok
    "devices.view" none (.inl hmember) (by simp [hafter, PermissionScope.Covers])
  simp [PermissionScope.Covers, hoperator] at hlost

end Sample

end RustdeskConsole.Rbac
