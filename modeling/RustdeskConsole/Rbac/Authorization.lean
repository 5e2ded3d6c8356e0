import Mathlib.Data.List.Nodup
import RustdeskConsole.Collections.OrderedMap

namespace RustdeskConsole.Rbac

open Collections

inductive ScopeType
  | global
  | deviceGroup
  deriving DecidableEq, Repr

/-- A catalog entry. `assignable` tells the codes a role may store from the
system-only ones. -/
structure PermissionDefinition where
  code : String
  scope : ScopeType
  assignable : Bool
  requires : List String

def definition (code : String) (scope : ScopeType) (requires : List String) :
    PermissionDefinition := ⟨code, scope, true, requires⟩

def systemDefinition (code : String) : PermissionDefinition := ⟨code, .global, false, []⟩

def PERMISSION_CATALOG : List PermissionDefinition :=
  [definition "web_client.connect" .deviceGroup [],
    definition "web_client.file_transfer" .deviceGroup ["web_client.connect"],
    definition "servers.view" .global [],
    definition "servers.control" .global ["servers.view"],
    definition "servers.config" .global ["servers.view"],
    definition "servers.disconnect" .global ["servers.view"],
    definition "servers.ban" .global ["servers.view"],
    definition "users.view" .global [],
    definition "users.create" .global ["users.view"],
    definition "users.edit" .global ["users.view"],
    definition "users.status" .global ["users.view"],
    definition "users.delete" .global ["users.view"],
    definition "users.security" .global ["users.view"],
    definition "users.force_logout" .global ["users.view"],
    definition "user_groups.view" .global [],
    definition "user_groups.create" .global ["user_groups.view"],
    definition "user_groups.edit" .global ["user_groups.view"],
    definition "user_groups.delete" .global ["user_groups.view"],
    definition "user_groups.membership" .global ["user_groups.view"],
    definition "devices.view" .deviceGroup [],
    definition "devices.edit" .deviceGroup ["devices.view"],
    definition "devices.status" .deviceGroup ["devices.view"],
    definition "devices.delete" .deviceGroup ["devices.view"],
    definition "devices.disconnect" .deviceGroup ["devices.view"],
    definition "address_books.view" .global [],
    definition "address_books.edit" .global ["address_books.view"],
    definition "address_books.share" .global ["address_books.view"],
    definition "strategies.view" .global [],
    definition "strategies.create" .global ["strategies.view"],
    definition "strategies.edit" .global ["strategies.view"],
    definition "strategies.delete" .global ["strategies.view"],
    definition "strategies.assign" .deviceGroup [],
    definition "audit.view" .global [],
    systemDefinition "roles.create",
    systemDefinition "roles.edit",
    systemDefinition "roles.delete",
    definition "roles.view" .global [],
    definition "roles.assign" .global ["roles.view", "users.view"],
    definition "dashboard.view" .global []]

def PERMISSION_CODES : List String :=
  (PERMISSION_CATALOG.filter PermissionDefinition.assignable).map PermissionDefinition.code

def isDeviceGroupScopedPermission (code : String) : Bool :=
  PERMISSION_CATALOG.any fun permission ↦ permission.code = code && permission.scope = .deviceGroup

def isAssignablePermissionCode (code : String) : Bool := PERMISSION_CODES.contains code

/-- `isAssignablePermissionCode` is the type guard of `PermissionCode`. -/
abbrev PermissionCode := { code : String // isAssignablePermissionCode code = true }

def PermissionCode.of? (code : String) : Option PermissionCode :=
  if h : isAssignablePermissionCode code = true then some ⟨code, h⟩ else none

def rolesAssign : PermissionCode := ⟨"roles.assign", by decide⟩

def getPermissionRequirements (code : String) : List String :=
  ((PERMISSION_CATALOG.filter PermissionDefinition.assignable).find? (·.code = code)).elim []
    PermissionDefinition.requires

def filterEffectivePermissionCodes (codes : List String) : List PermissionCode :=
  let known := (codes.filterMap PermissionCode.of?).eraseDups
  sortBy Subtype.val (known.filter fun code ↦
    (getPermissionRequirements code.val).all fun required ↦ known.any (·.val = required))

theorem of?_eq_some {code : String} {p : PermissionCode} :
    PermissionCode.of? code = some p ↔ code = p.val := by
  unfold PermissionCode.of?
  split
  · rename_i h
    rw [Option.some.injEq]
    exact ⟨fun h ↦ congrArg Subtype.val h, fun h ↦ Subtype.ext h⟩
  · rename_i h
    refine ⟨nofun, fun hc ↦ absurd p.2 (hc ▸ h)⟩

/-- A code is effective when it and all it requires were stored. -/
theorem mem_filterEffectivePermissionCodes {codes : List String} {p : PermissionCode} :
    p ∈ filterEffectivePermissionCodes codes ↔ p.val ∈ codes ∧
      ∀ required ∈ getPermissionRequirements p.val,
        isAssignablePermissionCode required = true ∧ required ∈ codes := by
  have hknown : ∀ q : PermissionCode, q ∈ (codes.filterMap PermissionCode.of?).eraseDups ↔
      q.val ∈ codes := by
    intro q
    simp only [List.mem_eraseDups, List.mem_filterMap, of?_eq_some, exists_eq_right]
  simp only [filterEffectivePermissionCodes, mem_sortBy, List.mem_filter, hknown,
    List.all_eq_true, List.any_eq_true, decide_eq_true_eq]
  refine and_congr_right fun _ ↦ forall₂_congr fun required _ ↦ ?_
  constructor
  · rintro ⟨q, hq, rfl⟩
    exact ⟨q.2, hq⟩
  · rintro ⟨ha, hq⟩
    exact ⟨⟨required, ha⟩, hq, rfl⟩

theorem catalog_codes_nodup : (PERMISSION_CATALOG.map PermissionDefinition.code).Nodup := by
  decide

theorem PermissionCode.mem_catalog (p : PermissionCode) :
    ∃ permission ∈ PERMISSION_CATALOG, permission.code = p.val := by
  have hp : p.val ∈ PERMISSION_CODES := List.contains_iff_mem.mp p.2
  obtain ⟨permission, hm, hc⟩ := List.mem_map.mp hp
  exact ⟨permission, (List.mem_filter.mp hm).1, hc⟩

/-- The catalog names each code once, so looking an entry up and searching for
a matching one say the same. -/
theorem find?_scope (code : String) :
    (PERMISSION_CATALOG.find? (·.code = code)).map PermissionDefinition.scope = some .deviceGroup ↔
      isDeviceGroupScopedPermission code = true := by
  simp only [isDeviceGroupScopedPermission, List.any_eq_true, Bool.and_eq_true, decide_eq_true_eq,
    Option.map_eq_some_iff]
  constructor
  · rintro ⟨permission, hf, hs⟩
    have hc : permission.code = code := by simpa using List.find?_some hf
    exact ⟨permission, List.mem_of_find?_eq_some hf, hc, hs⟩
  · rintro ⟨permission, hm, hc, hs⟩
    obtain ⟨found, hf⟩ : ∃ found, PERMISSION_CATALOG.find? (·.code = code) = some found := by
      rw [← Option.isSome_iff_exists, List.find?_isSome]
      exact ⟨permission, hm, by simpa using hc⟩
    have hfound : found.code = code := by simpa using List.find?_some hf
    obtain rfl : found = permission :=
      List.inj_on_of_nodup_map catalog_codes_nodup (List.mem_of_find?_eq_some hf) hm
        (hfound.trans hc.symm)
    exact ⟨found, hf, hs⟩

inductive UserStatus
  | unverified
  | disabled
  | active
  deriving DecidableEq, Repr

structure User where
  guid : String
  status : UserStatus
  isAdmin : Bool
  deriving DecidableEq

structure DeviceGroup where
  guid : String
  name : String
  deriving DecidableEq

structure Role where
  guid : String
  name : String
  protectedAccount : Bool
  deriving DecidableEq

structure RolePermission where
  roleGuid : String
  permissionCode : String
  deriving DecidableEq

/-- `scopeType` is a text column: a damaged row may hold anything. -/
structure UserRoleAssignment where
  guid : String
  userGuid : String
  roleGuid : String
  scopeType : String
  deriving DecidableEq

structure UserRoleAssignmentDeviceGroup where
  assignmentGuid : String
  deviceGroupGuid : String
  deriving DecidableEq

def ScopeType.column : ScopeType → String
  | .global => "global"
  | .deviceGroup => "device_group"

/-- The tables authorization reads. -/
structure Store where
  users : List User
  roles : List Role
  rolePermissions : List RolePermission
  assignments : List UserRoleAssignment
  assignmentGroups : List UserRoleAssignmentDeviceGroup
  deviceGroups : List DeviceGroup
  deriving DecidableEq

/-- The keys and references the entities declare. -/
structure Store.Consistent (s : Store) : Prop where
  users : (s.users.map User.guid).Nodup
  roles : (s.roles.map Role.guid).Nodup
  rolePermissions : s.rolePermissions.Nodup
  assignments : (s.assignments.map UserRoleAssignment.guid).Nodup
  assignmentRoles : (s.assignments.map fun a ↦ (a.userGuid, a.roleGuid)).Nodup
  assignmentGroups : s.assignmentGroups.Nodup
  deviceGroups : (s.deviceGroups.map DeviceGroup.guid).Nodup
  permissionRole : ∀ row ∈ s.rolePermissions, ∃ role ∈ s.roles, role.guid = row.roleGuid
  assignmentUser : ∀ a ∈ s.assignments, ∃ user ∈ s.users, user.guid = a.userGuid
  assignmentRole : ∀ a ∈ s.assignments, ∃ role ∈ s.roles, role.guid = a.roleGuid
  groupAssignment : ∀ row ∈ s.assignmentGroups, ∃ a ∈ s.assignments, a.guid = row.assignmentGuid
  groupDeviceGroup : ∀ row ∈ s.assignmentGroups,
    ∃ group ∈ s.deviceGroups, group.guid = row.deviceGroupGuid

def Store.user? (s : Store) (userGuid : String) : Option User :=
  s.users.find? (·.guid = userGuid)

inductive Failure
  | unauthorized (message : String)
  | forbidden (message : String)
  | notFound (message : String)
  | badRequest (message : String)
  | conflict (message : String)
  deriving DecidableEq, Repr

open Collections

structure PermissionScope where
  global : Bool
  deviceGroupGuids : List String
  deriving DecidableEq

structure EffectiveRoleGrants where
  assignments : List UserRoleAssignment
  effectivePermissionsByRole : OrderedMap String (List PermissionCode)

structure EffectivePermissionScope where
  scopeType : ScopeType
  deviceGroupGuids : List String
  deriving DecidableEq

structure EffectivePermissions where
  permissions : List String
  scopes : OrderedMap String EffectivePermissionScope

def getCurrentUser (s : Store) (userGuid : String) : Except Failure User :=
  match s.user? userGuid with
  | some user =>
    if user.status = .active then .ok user
    else .error (.unauthorized "Account does not exist or has been disabled")
  | none => .error (.unauthorized "Account does not exist or has been disabled")

def requireSuperAdmin (s : Store) (userGuid : String) : Except Failure User := do
  let user ← getCurrentUser s userGuid
  if user.isAdmin then pure user
  else throw (.forbidden "Super administrator permission required")

def loadEffectiveRoleGrants (s : Store) (userGuid : String) : EffectiveRoleGrants :=
  let assignments := (s.assignments.filter (·.userGuid = userGuid)).filter fun assignment ↦
    assignment.scopeType = "global" || assignment.scopeType = "device_group"
  let rows := s.rolePermissions.filter fun row ↦
    (assignments.map UserRoleAssignment.roleGuid).contains row.roleGuid
  { assignments := assignments
    effectivePermissionsByRole :=
      (OrderedMap.group rows RolePermission.roleGuid RolePermission.permissionCode).mapValues
        fun _ ↦ filterEffectivePermissionCodes }

def matchingAssignments (grants : EffectiveRoleGrants) (permissionCode : String) :
    List UserRoleAssignment :=
  grants.assignments.filter fun assignment ↦
    (grants.effectivePermissionsByRole.get? assignment.roleGuid).any
      (·.any (·.val = permissionCode)) &&
    (assignment.scopeType = "global" || isDeviceGroupScopedPermission permissionCode)

/-- What the roles of a user grant; the part of `computePermissionScope` behind
the checks of the account. -/
def roleScope (s : Store) (userGuid permissionCode : String) : PermissionScope :=
  let matching := matchingAssignments (loadEffectiveRoleGrants s userGuid) permissionCode
  if matching.any (·.scopeType = "global") then ⟨true, []⟩
  else
    let scopedAssignments := matching.filter (·.scopeType = "device_group")
    let groups := s.assignmentGroups.filter fun row ↦
      (scopedAssignments.map UserRoleAssignment.guid).contains row.assignmentGuid
    ⟨false, (groups.map UserRoleAssignmentDeviceGroup.deviceGroupGuid).eraseDups⟩

def computePermissionScope (s : Store) (userGuid permissionCode : String) :
    Except Failure PermissionScope := do
  let user ← getCurrentUser s userGuid
  if user.isAdmin || !isAssignablePermissionCode permissionCode then pure ⟨user.isAdmin, []⟩
  else pure (roleScope s userGuid permissionCode)

def requirePermission (s : Store) (userGuid permissionCode : String) :
    Except Failure PermissionScope := do
  if !isAssignablePermissionCode permissionCode then throw (.forbidden "Unknown permission")
  let scope ← computePermissionScope s userGuid permissionCode
  if !scope.global && scope.deviceGroupGuids.length = 0 then throw (.forbidden "Access denied")
  pure scope

/-- A row of `scopeRows`. -/
structure ScopeRow where
  global : Bool
  ids : List String

def ScopeRow.view (row : ScopeRow) : Option EffectivePermissionScope :=
  if !row.global && row.ids.length = 0 then none
  else if row.global then some ⟨.global, []⟩
  else some ⟨.deviceGroup, sortBy id row.ids⟩

/-- The permissions each assignment grants at its own scope. -/
def scopedGrants (grants : EffectiveRoleGrants) : List (UserRoleAssignment × PermissionCode) :=
  grants.assignments.flatMap fun assignment ↦
    (((grants.effectivePermissionsByRole.get? assignment.roleGuid).getD []).filter
      fun permissionCode ↦ !(assignment.scopeType = "device_group" &&
        !isDeviceGroupScopedPermission permissionCode.val)).map (assignment, ·)

def scopedPermissionsByAssignment (grants : EffectiveRoleGrants) : OrderedMap String (List String) :=
  OrderedMap.group ((scopedGrants grants).filter (·.1.scopeType ≠ "global")) (·.1.guid) (·.2.val)

/-- The device groups to add to the row of a permission. -/
def groupAdditions (s : Store) (grants : EffectiveRoleGrants) : List (String × String) :=
  let codes := scopedPermissionsByAssignment grants
  let groups := s.assignmentGroups.filter fun group ↦ codes.keys.contains group.assignmentGuid
  groups.flatMap fun group ↦
    ((codes.get? group.assignmentGuid).getD []).map (·, group.deviceGroupGuid)

def ScopeRow.raise (current : Option ScopeRow) (grant : UserRoleAssignment × PermissionCode) :
    ScopeRow :=
  let row := current.getD ⟨false, []⟩
  if grant.1.scopeType = "global" then { row with global := true } else row

def ScopeRow.addGroup (addition : String × String) (row : ScopeRow) : ScopeRow :=
  { row with ids := addValue row.ids addition.2 }

def scopeRows (s : Store) (grants : EffectiveRoleGrants) : OrderedMap String ScopeRow :=
  (groupAdditions s grants).foldl
    (fun rows addition ↦ rows.modify addition.1 (ScopeRow.addGroup addition))
    (OrderedMap.tally (scopedGrants grants) (·.2.val) ScopeRow.raise)

def roleScopes (s : Store) (userGuid : String) : OrderedMap String EffectivePermissionScope :=
  (scopeRows s (loadEffectiveRoleGrants s userGuid)).filterMap ScopeRow.view

def getEffectivePermissions (s : Store) (userGuid : String) :
    Except Failure EffectivePermissions := do
  let user ← getCurrentUser s userGuid
  if user.isAdmin then
    pure
      { permissions := PERMISSION_CATALOG.map PermissionDefinition.code
        scopes := OrderedMap.tally PERMISSION_CATALOG PermissionDefinition.code
          fun _ _ ↦ ⟨.global, []⟩ }
  else
    pure
      { permissions := sortBy id (roleScopes s userGuid).keys
        scopes := roleScopes s userGuid }

/-- `computeIsProtectedUser`. Only a transaction reads the user itself; outside
the caller's word on `isAdmin` counts. -/
def isProtectedUser (s : Store) (userGuid : String) (isAdmin : Bool) (transaction : Bool) : Bool :=
  let admin := if transaction then (s.user? userGuid).any User.isAdmin else isAdmin
  let assignments := s.assignments.filter (·.userGuid = userGuid)
  admin || (s.roles.filter fun role ↦
    (assignments.map UserRoleAssignment.roleGuid).contains role.guid).any Role.protectedAccount

end RustdeskConsole.Rbac
