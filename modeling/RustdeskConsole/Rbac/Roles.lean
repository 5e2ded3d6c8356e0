import Mathlib.Logic.Relation
import RustdeskConsole.Collections.Numeral
import RustdeskConsole.Rbac.Targets

namespace RustdeskConsole.Rbac

open Collections Effects.Guard

structure CreateRoleDto where
  name : String
  permissions : List String
  protectedAccount : Option Bool

structure UpdateRoleDto where
  name : Option String
  permissions : Option (List String)
  protectedAccount : Option Bool
  confirmProtectedAccountChange : Option Bool

section RoleService

def normalizeName (value : String) : Except Failure String :=
  let name := String.ofList (trim value)
  if name = "" then .error (.badRequest "Role name cannot be empty") else .ok name

/-- `LOWER` of the database only knows ASCII letters, as `String.toLower` does. -/
def namedAlike (s : Store) (name : String) : Option Role :=
  s.roles.find? fun role ↦ role.name.toLower = name.toLower

def ensureNameAvailable (s : Store) (name : String) : Except Failure Unit :=
  match namedAlike s name with
  | some _ => .error (.conflict "Role name already exists")
  | none => .ok ()

def missingRequirements (validated : List PermissionCode) : List String :=
  validated.flatMap fun permission ↦
    ((getPermissionRequirements permission.val).filter fun required ↦
      !validated.any (·.val = required)).map (permission.val ++ " requires " ++ ·)

def validatePermissions (permissions : List String) : Except Failure (List PermissionCode) :=
  let unique := permissions.eraseDups
  let systemOnly := unique.filter fun permission ↦ !isAssignablePermissionCode permission
  if !systemOnly.isEmpty then
    .error (.badRequest ("Permission code cannot be assigned: " ++ ", ".intercalate systemOnly))
  else
    let validated := sortBy Subtype.val (unique.filterMap PermissionCode.of?)
    if !(missingRequirements validated).isEmpty then
      .error (.badRequest ("Missing permission dependencies: " ++
        ", ".intercalate (missingRequirements validated)))
    else .ok validated

def ensureScopedAssignmentsRemainValid (s : Store) (roleGuid : String)
    (permissions : List PermissionCode) : Except Failure Unit :=
  if !permissions.isEmpty && permissions.all (isDeviceGroupScopedPermission ·.val) then .ok ()
  else if s.assignments.any fun assignment ↦
      assignment.roleGuid = roleGuid && assignment.scopeType = "device_group" then
    .error (.badRequest ("Roles with advanced scope grants can only contain device operations " ++
      "and strategies.assign"))
  else .ok ()

def replacePermissions (s : Store) (roleGuid : String) (permissions : List PermissionCode) : Store :=
  { s with rolePermissions := s.rolePermissions.filter (·.roleGuid ≠ roleGuid) ++
      permissions.map fun permission ↦ ⟨roleGuid, permission.val⟩ }

/-- `createRole`. What it checks outside the transaction it checks of the store
`before`. -/
def createRole (before s : Store) (guid : String) (dto : CreateRoleDto) (actorGuid : String) :
    Except Failure Store := do
  let name ← normalizeName dto.name
  let permissions ← validatePermissions dto.permissions
  ensureNameAvailable before name
  discard (requireSuperAdmin s actorGuid)
  if s.roles.any (·.name = name) then .error (.conflict "Role name already exists")
  else
    let role : Role := ⟨guid, name, dto.protectedAccount = some true⟩
    pure (replacePermissions { s with roles := s.roles ++ [role] } guid permissions)

/-- The checks of new permissions, where the request has any. -/
def checkPermissions (s : Store) (guid : String) :
    Option (List String) → Except Failure (Option (List PermissionCode))
  | none => pure none
  | some permissions => do
    let validated ← validatePermissions permissions
    ensureScopedAssignmentsRemainValid s guid validated
    pure (some validated)

def renamed (s : Store) (role : Role) : Option String → Except Failure String
  | none => pure role.name
  | some name => do
    let name ← normalizeName name
    if name ≠ role.name && (namedAlike s name).any (·.guid ≠ role.guid) then
      .error (.conflict "Role name already exists")
    else pure name

/-- Protection is only taken away from members when the request confirms it. -/
def reprotected (s : Store) (role : Role) (dto : UpdateRoleDto) : Except Failure Bool :=
  match dto.protectedAccount with
  | none => pure role.protectedAccount
  | some next =>
    let affected := (s.assignments.filter (·.roleGuid = role.guid)).length
    if next ≠ role.protectedAccount && !next && affected > 0 &&
        dto.confirmProtectedAccountChange ≠ some true then
      .error (.badRequest s!"Removing role protection will affect {affected} accounts, please confirm and retry")
    else pure next

def updateRole (before s : Store) (guid : String) (dto : UpdateRoleDto) (actorGuid : String) :
    Except Failure Store := do
  discard (checkPermissions before guid dto.permissions)
  discard (requireSuperAdmin s actorGuid)
  match s.roles.find? (·.guid = guid) with
  | none => .error (.notFound "Role not found")
  | some role =>
    let name ← renamed s role dto.name
    let permissions ← checkPermissions s guid dto.permissions
    let protectedAccount ← reprotected s role dto
    if s.roles.any fun other ↦ other.guid ≠ guid && other.name = name then
      .error (.conflict "UNIQUE constraint failed: roles.name")
    else
      let saved := { s with roles := s.roles.map fun other ↦
        if other.guid = guid then ⟨guid, name, protectedAccount⟩ else other }
      pure (permissions.elim saved (replacePermissions saved guid))

/-- The rows that go with the assignments. -/
def withoutAssignments (s : Store) (gone : UserRoleAssignment → Bool) : Store :=
  let guids := (s.assignments.filter gone).map UserRoleAssignment.guid
  { s with
    assignments := s.assignments.filter fun assignment ↦ !gone assignment
    assignmentGroups := s.assignmentGroups.filter fun row ↦ !guids.contains row.assignmentGuid }

def deleteRole (s : Store) (guid actorGuid : String) : Except Failure Store := do
  discard (requireSuperAdmin s actorGuid)
  match s.roles.find? (·.guid = guid) with
  | none => .error (.notFound "Role not found")
  | some _ =>
    let revoked := withoutAssignments s fun assignment ↦ assignment.roleGuid = guid
    pure { revoked with
      rolePermissions := s.rolePermissions.filter (·.roleGuid ≠ guid)
      roles := s.roles.filter (·.guid ≠ guid) }

end RoleService

/-- `deleteDeviceGroup`, as far as the tables of authorization go. -/
def deleteDeviceGroup (before s : Store) (guid actorGuid : String) : Except Failure Store := do
  discard (requireSuperAdmin before actorGuid)
  if !s.deviceGroups.any (·.guid = guid) then
    .error (.notFound "Device group does not exist")
  else if s.assignmentGroups.any (·.deviceGroupGuid = guid) then
    .error (.badRequest ("The device group is still referenced by role authorizations and cannot " ++
      "be deleted; please remove the related authorizations first"))
  else pure { s with deviceGroups := s.deviceGroups.filter (·.guid ≠ guid) }

/-- `deleteUser`; the assignments of the user go with it. -/
def deleteUser (s : Store) (guid actorGuid : String) : Except Failure Store := do
  discard (requireUser s guid)
  assertUserMutation s actorGuid "users.delete" guid true
  let revoked := withoutAssignments s fun assignment ↦ assignment.userGuid = guid
  pure { revoked with users := s.users.filter (·.guid ≠ guid) }

inductive Operation
  | createRole (dto : CreateRoleDto)
  | updateRole (guid : String) (dto : UpdateRoleDto)
  | deleteRole (guid : String)
  | replaceUserRoles (userGuid : String) (assignments : List UserRoleAssignmentDto)
  | deleteDeviceGroup (guid : String)
  | deleteUser (guid : String)

/-- `fresh` are the identifiers drawn for new rows. -/
def Operation.run (before s : Store) (fresh : ℕ → String) (actorGuid : String) :
    Operation → Except Failure Store
  | .createRole dto => Rbac.createRole before s (fresh 0) dto actorGuid
  | .updateRole guid dto => Rbac.updateRole before s guid dto actorGuid
  | .deleteRole guid => Rbac.deleteRole s guid actorGuid
  | .replaceUserRoles userGuid assignments =>
    Rbac.replaceUserRoles before s fresh userGuid assignments actorGuid
  | .deleteDeviceGroup guid => Rbac.deleteDeviceGroup before s guid actorGuid
  | .deleteUser guid => Rbac.deleteUser s guid actorGuid

/-- An operation commits a store that keeps what the tables declare, or its
transaction is rolled back. -/
inductive Step : Store → Store → Prop
  | commit {before s s' : Store} {fresh : ℕ → String} {actorGuid : String} (op : Operation) :
      op.run before s fresh actorGuid = .ok s' → s'.Consistent → Step s s'
  | rollback (s : Store) : Step s s

/-- What the roles and their assignments keep to. -/
structure Store.Invariant (s : Store) : Prop where
  assignable : ∀ row ∈ s.rolePermissions, isAssignablePermissionCode row.permissionCode = true
  closed : ∀ row ∈ s.rolePermissions, ∀ required ∈ getPermissionRequirements row.permissionCode,
    (⟨row.roleGuid, required⟩ : RolePermission) ∈ s.rolePermissions
  grouped : ∀ a ∈ s.assignments, a.scopeType = "device_group" →
    ∃ row ∈ s.assignmentGroups, row.assignmentGuid = a.guid
  groups : ∀ a ∈ s.assignments, a.scopeType = "device_group" → ∀ row ∈ s.assignmentGroups,
    row.assignmentGuid = a.guid → ∃ group ∈ s.deviceGroups, group.guid = row.deviceGroupGuid
  permitted : ∀ a ∈ s.assignments, a.scopeType = "device_group" →
    ∃ row ∈ s.rolePermissions, row.roleGuid = a.roleGuid
  deviceScoped : ∀ a ∈ s.assignments, a.scopeType = "device_group" → ∀ row ∈ s.rolePermissions,
    row.roleGuid = a.roleGuid → isDeviceGroupScopedPermission row.permissionCode = true
  global : ∀ a ∈ s.assignments, a.scopeType = "global" → ∀ row ∈ s.assignmentGroups,
    row.assignmentGuid ≠ a.guid
  owners : ∀ a ∈ s.assignments, ∀ user ∈ s.users, user.guid = a.userGuid → user.isAdmin = false

end RustdeskConsole.Rbac
