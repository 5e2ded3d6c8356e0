import RustdeskConsole.Rbac.Authorization

namespace RustdeskConsole.Rbac

open Collections

structure UserRoleAssignmentDto where
  roleGuid : String
  scopeType : ScopeType
  deviceGroupGuids : Option (List String)

structure NormalizedAssignment where
  roleGuid : String
  scopeType : ScopeType
  deviceGroupGuids : List String

/-- A permission as a set of assignments would grant it; also what the operator
may grant of it. -/
structure Grant where
  global : Bool
  groups : List String

structure RoleEligibility where
  guid : String
  name : String
  protectedAccount : Bool
  assigned : Bool
  canAssign : Bool
  canRemove : Bool
  reasonCode : Option String
  allowedScopeTypes : List ScopeType
  assignableDeviceGroups : List DeviceGroup

def UserRoleAssignmentDto.groups (assignment : UserRoleAssignmentDto) : List String :=
  (assignment.deviceGroupGuids.getD []).eraseDups

def UserRoleAssignmentDto.normalized (assignment : UserRoleAssignmentDto) : NormalizedAssignment :=
  ⟨assignment.roleGuid, assignment.scopeType,
    if assignment.scopeType = .deviceGroup then assignment.groups else []⟩

def validateAssignments (seen : List String) :
    List UserRoleAssignmentDto → Except Failure (List NormalizedAssignment)
  | [] => .ok []
  | assignment :: rest =>
    if seen.contains assignment.roleGuid then
      .error (.badRequest "The same user cannot be assigned duplicate roles")
    else if assignment.scopeType = .deviceGroup && assignment.groups.isEmpty then
      .error (.badRequest "device_group scope requires at least one device group")
    else if assignment.scopeType = .global && !assignment.groups.isEmpty then
      .error (.badRequest "global scope cannot include device groups")
    else do
      let normalized ← validateAssignments (seen ++ [assignment.roleGuid]) rest
      pure (assignment.normalized :: normalized)

def groupPermissions (rows : List RolePermission) : OrderedMap String (List PermissionCode) :=
  (OrderedMap.group (rows.filter fun row ↦ isAssignablePermissionCode row.permissionCode)
    RolePermission.roleGuid RolePermission.permissionCode).mapValues
      fun _ ↦ filterEffectivePermissionCodes

/-- The permissions of the named roles, by role. -/
def permissionsByRole (s : Store) (roleGuids : List String) :
    OrderedMap String (List PermissionCode) :=
  groupPermissions (s.rolePermissions.filter fun row ↦ roleGuids.contains row.roleGuid)

/-- The catalog names the scope of a permission. -/
def deviceScoped (permission : PermissionCode) : Bool :=
  (PERMISSION_CATALOG.find? (·.code = permission.val)).map PermissionDefinition.scope =
    some .deviceGroup

def actorScopes (effective : EffectivePermissions) : OrderedMap String Grant :=
  OrderedMap.tally
    (PERMISSION_CATALOG.filterMap fun permission ↦
      if isAssignablePermissionCode permission.code then
        (effective.scopes.get? permission.code).map (permission.code, ·)
      else none)
    Prod.fst fun _ entry ↦ ⟨entry.2.scopeType = .global, entry.2.deviceGroupGuids⟩

/-- Why the operator's own permissions do not cover the role's, if they do not. -/
def uncovered (scopes : OrderedMap String Grant) : List PermissionCode → Option String
  | [] => none
  | permission :: permissions =>
    match scopes.get? permission.val with
    | none => some "missing_permission"
    | some caller =>
      if caller.global then uncovered scopes permissions
      else if !deviceScoped permission then some "scope_exceeds_caller"
      else uncovered scopes permissions

/-- Rule out the groups where the operator does not have the permission. -/
def narrow (scopes : OrderedMap String Grant) (allowed : List String)
    (permission : PermissionCode) : List String :=
  match scopes.get? permission.val with
  | none => allowed
  | some caller =>
    if caller.global then allowed else allowed.filter fun guid ↦ caller.groups.contains guid

/-- What `getRoleEligibility` knows before it looks at the roles. -/
structure EligibilityContext where
  targetIsAdmin : Bool
  owner : Bool
  selfTarget : Bool
  protectedTarget : Bool
  assigned : List String
  permissionMap : OrderedMap String (List PermissionCode)
  actorScopes : OrderedMap String Grant
  allGroups : List DeviceGroup

namespace EligibilityContext

def reason (c : EligibilityContext) (role : Role) (permissions : List PermissionCode) :
    Option String :=
  if c.targetIsAdmin then some "super_admin_target"
  else if !c.owner && c.selfTarget then some "self_target"
  else if !c.owner && c.protectedTarget then some "protected_target"
  else if !c.owner && (role.protectedAccount || permissions.contains rolesAssign) then
    some (if role.protectedAccount then "protected_role" else "role_grants_roles_assign")
  else if !c.owner then uncovered c.actorScopes permissions
  else none

def globalAllowed (c : EligibilityContext) (permissions : List PermissionCode) : Bool :=
  c.owner || (!permissions.isEmpty && permissions.all fun permission ↦
    (c.actorScopes.get? permission.val).any Grant.global)

def allPermissionsDeviceScoped (permissions : List PermissionCode) : Bool :=
  !permissions.isEmpty && permissions.all deviceScoped

def allowedGroupGuids (c : EligibilityContext) (permissions : List PermissionCode) : List String :=
  let all := c.allGroups.map DeviceGroup.guid
  if allPermissionsDeviceScoped permissions && !c.owner then
    permissions.foldl (narrow c.actorScopes) all
  else if !allPermissionsDeviceScoped permissions then []
  else all

def eligibility (c : EligibilityContext) (role : Role) : RoleEligibility :=
  let permissions := (c.permissionMap.get? role.guid).getD []
  let globalAllowed := c.globalAllowed permissions
  let allowedGroups := c.allowedGroupGuids permissions
  let groupAllowed := allPermissionsDeviceScoped permissions && !allowedGroups.isEmpty
  let reasonCode := (c.reason role permissions).or
    (if !globalAllowed && !groupAllowed then some "scope_exceeds_caller" else none)
  let canAssign := reasonCode.isNone
  let assigned := c.assigned.contains role.guid
  { guid := role.guid
    name := role.name
    protectedAccount := role.protectedAccount
    assigned := assigned
    canAssign := canAssign
    canRemove := assigned && canAssign
    reasonCode := reasonCode
    allowedScopeTypes := if canAssign then
      (if globalAllowed then [.global] else []) ++ (if groupAllowed then [.deviceGroup] else []) else []
    assignableDeviceGroups := if canAssign && allPermissionsDeviceScoped permissions then
      c.allGroups.filter fun group ↦ allowedGroups.contains group.guid else [] }

end EligibilityContext

def requireUser (s : Store) (userGuid : String) : Except Failure User :=
  match s.user? userGuid with
  | some user => .ok user
  | none => .error (.notFound "User does not exist")

def getRoleEligibility (s : Store) (userGuid actorGuid : String) :
    Except Failure (List RoleEligibility) := do
  let target ← requireUser s userGuid
  let actor ← getCurrentUser s actorGuid
  let roles := sortBy Role.name s.roles
  let scopes ← if actor.isAdmin then pure .empty
    else actorScopes <$> getEffectivePermissions s actorGuid
  let context : EligibilityContext :=
    { targetIsAdmin := target.isAdmin
      owner := actor.isAdmin
      selfTarget := userGuid = actorGuid
      protectedTarget := isProtectedUser s userGuid target.isAdmin false
      assigned := (s.assignments.filter (·.userGuid = userGuid)).map UserRoleAssignment.roleGuid
      permissionMap := permissionsByRole s (roles.map Role.guid)
      actorScopes := scopes
      allGroups := sortBy DeviceGroup.name s.deviceGroups }
  pure (roles.map context.eligibility)

def assertRolesExist (s : Store) (roleGuids : List String) : Except Failure (List Role) :=
  let roles := s.roles.filter fun role ↦ roleGuids.contains role.guid
  if roles.length ≠ roleGuids.length then
    .error (.notFound ("Role not found: " ++
      ", ".intercalate (roleGuids.filter fun guid ↦ !(roles.map Role.guid).contains guid)))
  else .ok roles

def assertScopeTypes (permissions : OrderedMap String (List PermissionCode))
    (normalized : List NormalizedAssignment) : Except Failure Unit :=
  if normalized.any fun assignment ↦
    let codes := (permissions.get? assignment.roleGuid).getD []
    assignment.scopeType = .deviceGroup &&
      (codes.isEmpty || codes.any fun code ↦ !isDeviceGroupScopedPermission code.val)
  then .error (.badRequest "device_group scope only supports device actions and strategies.assign")
  else .ok ()

def assertGroupsExist (s : Store) (groupGuids : List String) : Except Failure Unit :=
  let groups := s.deviceGroups.filter fun group ↦ groupGuids.contains group.guid
  if groups.length ≠ groupGuids.length then
    .error (.badRequest ("Device group not found: " ++
      ", ".intercalate (groupGuids.filter fun guid ↦ !(groups.map DeviceGroup.guid).contains guid)))
  else .ok ()

def Grant.extend (current : Option Grant) (assignment : NormalizedAssignment) : Grant :=
  let grant := current.getD ⟨false, []⟩
  if assignment.scopeType = .global then { grant with global := true }
  else { grant with groups := assignment.deviceGroupGuids.foldl addValue grant.groups }

/-- What the requested assignments come to, permission by permission. -/
def proposed (permissions : OrderedMap String (List PermissionCode))
    (normalized : List NormalizedAssignment) : OrderedMap String Grant :=
  OrderedMap.tally
    (normalized.flatMap fun assignment ↦
      ((permissions.get? assignment.roleGuid).getD []).map (assignment, ·))
    (·.2.val) fun current entry ↦ Grant.extend current entry.1

def Grant.exceeds (grant : Grant) : Option EffectivePermissionScope → Bool
  | none => true
  | some allowed => (grant.global && allowed.scopeType ≠ .global) ||
    (!grant.global && allowed.scopeType = .deviceGroup &&
      !(grant.groups.all fun group ↦ allowed.deviceGroupGuids.contains group))

def assertWithinScope (caller : EffectivePermissions)
    (permissions : OrderedMap String (List PermissionCode))
    (normalized : List NormalizedAssignment) : Except Failure Unit :=
  match (proposed permissions normalized).entries.find? fun entry ↦
    entry.2.exceeds (caller.scopes.get? entry.1) with
  | some entry => .error (.forbidden ("Role permissions exceed the operator scope: " ++ entry.1))
  | none => .ok ()

def forbidIf (condition : Bool) (message : String) : Except Failure Unit :=
  if condition then .error (.forbidden message) else .ok ()

def forbidFound {α : Type} (found : Option α) (message : α → String) : Except Failure Unit :=
  found.elim (.ok ()) fun a ↦ .error (.forbidden (message a))

def unlessOwner (owner : Bool) (check : Except Failure Unit) : Except Failure Unit :=
  if owner then .ok () else check

/-- The checks `replaceUserRoles` makes against the eligibility preview. -/
def checkEligibility (s : Store) (normalized : List NormalizedAssignment)
    (permissions : OrderedMap String (List PermissionCode)) (userGuid actorGuid : String) :
    Except Failure Unit := do
  let requested := normalized.map NormalizedAssignment.roleGuid
  let current := (s.assignments.filter (·.userGuid = userGuid)).map UserRoleAssignment.roleGuid
  let eligibility ← getRoleEligibility s userGuid actorGuid
  let lockedCurrent := eligibility.filter fun row ↦ row.assigned && !row.canRemove
  forbidFound (lockedCurrent.find? fun row ↦ !requested.contains row.guid)
    fun omitted ↦ "Cannot remove protected role: " ++ omitted.guid
  forbidFound (normalized.find? fun assignment ↦
      !((eligibility.find? (·.guid = assignment.roleGuid)).any RoleEligibility.canAssign) &&
        !current.contains assignment.roleGuid)
    fun denied ↦ "Role cannot be assigned: " ++ denied.roleGuid
  assertWithinScope (← getEffectivePermissions s actorGuid) permissions normalized

/-- What `replaceUserRoles` checks before its transaction. -/
def precheck (s : Store) (normalized : List NormalizedAssignment) (groupGuids : List String)
    (userGuid actorGuid : String) : Except Failure Unit := do
  let roleGuids := normalized.map NormalizedAssignment.roleGuid
  let _ ← assertRolesExist s roleGuids
  let permissions := permissionsByRole s roleGuids
  assertScopeTypes permissions normalized
  let actor ← getCurrentUser s actorGuid
  unlessOwner actor.isAdmin (discard (requirePermission s actorGuid "roles.assign"))
  let target ← requireUser s userGuid
  forbidIf target.isAdmin "Super administrators cannot be assigned regular roles"
  forbidIf (!actor.isAdmin && userGuid = actorGuid) "You cannot modify your own roles"
  forbidIf (!actor.isAdmin && isProtectedUser s userGuid target.isAdmin false)
    "Protected accounts can only be modified by a super administrator"
  unlessOwner actor.isAdmin (checkEligibility s normalized permissions userGuid actorGuid)
  assertGroupsExist s groupGuids

/-- The roles a delegated operator may not take away. -/
def lockedRoleGuids (s : Store) (roleGuids : List String) : List String :=
  ((s.roles.filter fun role ↦ roleGuids.contains role.guid).filter Role.protectedAccount).map Role.guid ++
    ((permissionsByRole s roleGuids).entries.filter (·.2.contains rolesAssign)).map Prod.fst

/-- The checks the transaction repeats. -/
def checkDelegation (s : Store) (normalized : List NormalizedAssignment)
    (userGuid actorGuid : String) : Except Failure Unit := do
  let roleGuids := normalized.map NormalizedAssignment.roleGuid
  let current := s.assignments.filter (·.userGuid = userGuid)
  let locked := lockedRoleGuids s (current.map UserRoleAssignment.roleGuid)
  forbidFound (current.find? fun assignment ↦
      !roleGuids.contains assignment.roleGuid && locked.contains assignment.roleGuid)
    fun omitted ↦ "Cannot remove protected role: " ++ omitted.roleGuid
  assertWithinScope (← getEffectivePermissions s actorGuid) (permissionsByRole s roleGuids) normalized

/-- The rows a request leaves behind, under the identifiers it was given. -/
def replaceAssignments (s : Store) (guid : ℕ → String) (userGuid : String)
    (normalized : List NormalizedAssignment) : Store :=
  let current := (s.assignments.filter (·.userGuid = userGuid)).map UserRoleAssignment.guid
  { s with
    assignments := s.assignments.filter (·.userGuid ≠ userGuid) ++
      normalized.zipIdx.map fun (assignment, i) ↦
        ⟨guid i, userGuid, assignment.roleGuid, assignment.scopeType.column⟩
    assignmentGroups := s.assignmentGroups.filter (fun row ↦ !current.contains row.assignmentGuid) ++
      normalized.zipIdx.flatMap fun (assignment, i) ↦
        if assignment.scopeType = .deviceGroup then
          assignment.deviceGroupGuids.map fun deviceGroupGuid ↦ ⟨guid i, deviceGroupGuid⟩
        else [] }

def transaction (s : Store) (guid : ℕ → String) (normalized : List NormalizedAssignment)
    (groupGuids : List String) (userGuid actorGuid : String) : Except Failure Store := do
  let roleGuids := normalized.map NormalizedAssignment.roleGuid
  let actor ← getCurrentUser s actorGuid
  unlessOwner actor.isAdmin (discard (requirePermission s actorGuid "roles.assign"))
  let target ← requireUser s userGuid
  forbidIf target.isAdmin "Super administrators cannot be assigned regular roles"
  forbidIf (!actor.isAdmin && isProtectedUser s userGuid target.isAdmin true)
    "Protected accounts can only be modified by a super administrator"
  forbidIf (!actor.isAdmin && userGuid = actorGuid) "You cannot modify your own roles"
  let roles ← assertRolesExist s roleGuids
  unlessOwner actor.isAdmin (forbidFound (roles.find? Role.protectedAccount)
    fun role ↦ "Protected roles can only be assigned by a super administrator: " ++ role.guid)
  let permissions := permissionsByRole s roleGuids
  forbidIf (!actor.isAdmin && permissions.entries.any (·.2.contains rolesAssign))
    "Roles containing roles.assign can only be assigned by a super administrator"
  assertScopeTypes permissions normalized
  assertGroupsExist s groupGuids
  unlessOwner actor.isAdmin (checkDelegation s normalized userGuid actorGuid)
  pure (replaceAssignments s guid userGuid normalized)

/-- `replaceUserRoles`. The checks outside the transaction may see another
state `before` than the transaction does. -/
def replaceUserRoles (before s : Store) (guid : ℕ → String) (userGuid : String)
    (assignments : List UserRoleAssignmentDto) (actorGuid : String) : Except Failure Store := do
  let normalized ← validateAssignments [] assignments
  let groupGuids := (normalized.flatMap NormalizedAssignment.deviceGroupGuids).eraseDups
  precheck before normalized groupGuids userGuid actorGuid
  transaction s guid normalized groupGuids userGuid actorGuid

end RustdeskConsole.Rbac
