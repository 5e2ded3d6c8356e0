import RustdeskConsole.Accounts.Effect
import RustdeskConsole.AddressBooks.Permission
import RustdeskConsole.Effects.Embedding
import RustdeskConsole.Effects.Outcomes

namespace RustdeskConsole.UserGroups

open Collections Effects Effects.Checked
open Accounts (Failure)
open AddressBooks (AddressBook AddressBookRule ShareRule)
open Auth (truthy)

structure UserGroup where
  guid : String
  name : String
  normalizedName : String
  note : Option String
  isDefault : Bool
  deriving DecidableEq

structure World where
  accounts : Accounts.World
  groups : List UserGroup
  addressBooks : List AddressBook
  rules : List AddressBookRule

inductive Command
  | account (c : Accounts.Command)
  | findGroup (guid : String)
  | findDefaultGroup
  | findGroupByName (normalizedName : String)
  | insertGroup (draft : UserGroup)
  | saveGroup (group : UserGroup)
  | members (guid : String)
  | backfillUsers (guid : String)
  | clearUserTargets
  | clearGroupTargets
  | deleteInvalidTargets
  | deleteGroup (guid : String)
  | moveUsers (guid : String) (userGuids : List String)
  | deleteUser (guid : String)
  | checkAddressBookAccess (guid userId : String) (requiredRule : ShareRule)
  | findUser (user : String)
  | hasRule (addressBookGuid : String) (targetUserId targetGroupId : Option String)
  | insertRule (draft : AddressBookRule)

@[reducible] def Reply : Command → Type
  | .account c => Accounts.Reply c
  | .findGroup _ | .findDefaultGroup | .findGroupByName _ => Option UserGroup
  | .insertGroup _ | .saveGroup _ => Except Failure UserGroup
  | .members _ => List String
  | .backfillUsers _ | .clearUserTargets | .clearGroupTargets | .deleteInvalidTargets
  | .moveUsers .. => Except Failure ℕ
  | .deleteGroup _ => Except Failure (ℕ × ℕ)
  | .deleteUser _ => Except Failure Unit
  | .checkAddressBookAccess .. => Except Failure AddressBook
  | .findUser _ => Option String
  | .hasRule .. => Bool
  | .insertRule _ => Except Failure String

structure Platform extends Accounts.Platform where
  toLowerCase : String → String
  isUUID : String → Bool

/-- What the world decides about one command: what becomes of each of its
statements, and of the checks between them. -/
structure Choice where
  account : Accounts.Choice
  outcome : ℕ → Except Failure Unit

/-- The statements of one transaction. -/
abbrev Transaction := EStateM Failure World

/-- A transaction that fails is rolled back. -/
def transact {α : Type} (x : Transaction α) (w : World) : World × Except Failure α :=
  match x w with
  | .ok a w' => (w', .ok a)
  | .error failure _ => (w, .error failure)

namespace Transaction

def select (outcome : Except Failure Unit) : Transaction World := do
  reply outcome
  get

def write (outcome : Except Failure Unit) (f : World → World) : Transaction Unit := do
  reply outcome
  modify f

end Transaction

/-- The unique indexes of the groups table. -/
def uniqueGroups (groups : List UserGroup) : Prop :=
  (groups.map (·.guid)).Nodup ∧ (groups.map (·.normalizedName)).Nodup ∧
    (groups.filter (·.isDefault)).length ≤ 1

instance (groups : List UserGroup) : Decidable (uniqueGroups groups) :=
  inferInstanceAs (Decidable (_ ∧ _ ∧ _))

def foreignKey : Failure := .internal "FOREIGN KEY constraint failed"

/-- The reply to a statement that breaks a foreign key. -/
def broken : (c : Accounts.Command) → Option (Accounts.Reply c)
  | .insertUser _ => some (.error foreignKey)
  | .saveUsers _ | .updateStatus .. | .commitReset .. => some (.error foreignKey)
  | _ => none

namespace World

variable (w : World)

def findGroup (guid : String) : Option UserGroup := w.groups.find? (·.guid = guid)

def defaultGroup : Option UserGroup := w.groups.find? (·.isDefault)

def hasGroup (guid : String) : Bool := w.groups.any (·.guid = guid)

def members (guid : String) : List Accounts.User :=
  w.accounts.users.filter (·.userGroupGuid = some guid)

/-- A row that was there before, or that refers to a group there is. -/
def refers (row : Accounts.User) : Bool :=
  row ∈ w.accounts.users || row.userGroupGuid.all w.hasGroup

def updateUsers (f : Accounts.User → Accounts.User) : World :=
  { w with accounts := { w.accounts with users := w.accounts.users.map f } }

def writeGroups (groups : List UserGroup) : World × Except Failure Unit :=
  if uniqueGroups groups then ({ w with groups := groups }, .ok ())
  else (w, .error .uniqueViolation)

/-- A uuid drawn for a new row was never drawn before. -/
def insertGroup (draft : UserGroup) (uuid : String) : World × Option (Except Failure UserGroup) :=
  let group := { draft with guid := uuid }
  if w.hasGroup uuid then (w, none)
  else (w.writeGroups (group :: w.groups)).map id fun reply ↦ some (reply.map fun _ ↦ group)

def saveGroup (group : UserGroup) : World × Option (Except Failure UserGroup) :=
  (w.writeGroups (w.groups.map fun row ↦ if row.guid = group.guid then group else row)).map id
    fun reply ↦ some (reply.map fun _ ↦ group)

def assign (guid : String) (row : Accounts.User) : Accounts.User :=
  { row with userGroupGuid := some guid }

/-- The users whose group is missing. -/
def isStray (row : Accounts.User) : Bool := !row.userGroupGuid.any w.hasGroup

def backfillUsers (guid : String) : World × ℕ :=
  (w.updateUsers fun row ↦ if w.isStray row then assign guid row else row,
    w.accounts.users.countP w.isStray)

def clearUserTargets : World × ℕ :=
  ({ w with rules := w.rules.map fun rule ↦
      if rule.targetUserId = some "" then { rule with targetUserId := none } else rule },
    w.rules.countP fun rule ↦ rule.targetUserId = some "")

def clearGroupTargets : World × ℕ :=
  ({ w with rules := w.rules.map fun rule ↦
      if rule.targetGroupId = some "" then { rule with targetGroupId := none } else rule },
    w.rules.countP fun rule ↦ rule.targetGroupId = some "")

def deleteInvalidTargets : World × ℕ :=
  ({ w with rules := w.rules.filter fun rule ↦ rule.targetGroupId.all w.hasGroup },
    w.rules.countP fun rule ↦ !rule.targetGroupId.all w.hasGroup)

/-- The rules of a deleted group go with it, and users are left without one. -/
def deleteGroup (guid : String) : World :=
  let left := w.updateUsers fun row ↦
    if row.userGroupGuid = some guid then { row with userGroupGuid := none } else row
  { left with
    groups := w.groups.filter (·.guid ≠ guid)
    rules := w.rules.filter (·.targetGroupId ≠ some guid) }

/-- What the permission check of the address books reads. -/
def store : AddressBooks.Store where
  users := w.accounts.users.map fun user ↦ ⟨user.guid, user.username, user.userGroupGuid⟩
  addressBooks := w.addressBooks
  rules := w.rules

def insertRule (draft : AddressBookRule) (uuid : String) : World × Except Failure String :=
  if draft.targetGroupId.all w.hasGroup then
    ({ w with rules := { draft with guid := uuid } :: w.rules }, .ok uuid)
  else (w, .error foreignKey)

end World

namespace Transaction

variable (o : Choice)

/-- The transaction of `deleteGroup`: the users moved and the rules deleted. -/
def deleteGroup (guid : String) : Transaction (ℕ × ℕ) := do
  let w ← select (o.outcome 0)
  let group ← require (w.findGroup guid) (.notFound "User group does not exist")
  assert (!group.isDefault) (.badRequest "The default user group cannot be deleted")
  let w ← select (o.outcome 1)
  let defaultGroup ← require w.defaultGroup
    (.badRequest "The default user group does not exist")
  let w ← select (o.outcome 2)
  let currentUsers := w.members guid
  reply (o.outcome 3)
  write (o.outcome 4) (·.updateUsers fun row ↦
    if row.userGroupGuid = some guid then World.assign defaultGroup.guid row else row)
  write (o.outcome 5) fun w ↦ { w with rules := w.rules.filter (·.targetGroupId ≠ some guid) }
  write (o.outcome 6) (·.deleteGroup guid)
  pure (currentUsers.length, w.rules.countP (·.targetGroupId = some guid))

def moveAll (guid : String) (guidsToMove : List String) : Transaction Unit :=
  if guidsToMove.isEmpty then pure ()
  else write (o.outcome 3) (·.updateUsers fun row ↦
    if row.guid ∈ guidsToMove then World.assign guid row else row)

/-- The transaction of `moveUsers`: the users moved. -/
def moveUsers (guid : String) (uniqueGuids : List String) : Transaction ℕ := do
  let w ← select (o.outcome 0)
  let _ ← require (w.findGroup guid) (.notFound "User group does not exist")
  let w ← select (o.outcome 1)
  let users := w.accounts.users.filter (·.guid ∈ uniqueGuids)
  assert (users.length = uniqueGuids.length) (.notFound "One or more users do not exist")
  reply (o.outcome 2)
  let guidsToMove := (users.filter (·.userGroupGuid ≠ some guid)).map (·.guid)
  moveAll o guid guidsToMove
  pure guidsToMove.length

def deleteUser (guid : String) : Transaction Unit := do
  let w ← select (o.outcome 0)
  let _ ← require (w.accounts.findUser guid) (.notFound "User does not exist")
  reply (o.outcome 1)
  write (o.outcome 2) fun w ↦ { w with accounts := { w.accounts with
    users := w.accounts.users.filter (·.guid ≠ guid) } }

end Transaction

/-- A statement has no effect if it fails. -/
def statement {α : Type} (outcome : Except Failure Unit) (w : World) (done : World × α) :
    World × Option (Except Failure α) :=
  match outcome with
  | .ok () => (done.1, some (.ok done.2))
  | .error failure => (w, some (.error failure))

def execAccount (o : Choice) (platform : Platform) (call : Accounts.Call) (c : Accounts.Command) (w : World) :
    World × Option (Accounts.Reply c) :=
  let done := Accounts.exec platform.toPlatform call c o.account w.accounts
  if done.1.users.all w.refers then ({ w with accounts := done.1 }, done.2)
  else (w, broken c)

def exec (platform : Platform) (call : Accounts.Call) :
    (c : Command) → Choice → World → World × Option (Reply c)
  | .account c, o, w => execAccount o platform call c w
  | .findGroup guid, _, w => (w, some (w.findGroup guid))
  | .findDefaultGroup, _, w => (w, some w.defaultGroup)
  | .findGroupByName normalizedName, _, w =>
    (w, some (w.groups.find? (·.normalizedName = normalizedName)))
  | .insertGroup draft, o, w => w.insertGroup draft o.account.uuid
  | .saveGroup group, _, w => w.saveGroup group
  | .members guid, _, w => (w, some ((w.members guid).map (·.guid)))
  | .backfillUsers guid, o, w => statement (o.outcome 0) w (w.backfillUsers guid)
  | .clearUserTargets, o, w => statement (o.outcome 0) w w.clearUserTargets
  | .clearGroupTargets, o, w => statement (o.outcome 0) w w.clearGroupTargets
  | .deleteInvalidTargets, o, w => statement (o.outcome 0) w w.deleteInvalidTargets
  | .deleteGroup guid, o, w => (transact (Transaction.deleteGroup o guid) w).map id some
  | .moveUsers guid userGuids, o, w => (transact (Transaction.moveUsers o guid userGuids) w).map id some
  | .deleteUser guid, o, w => (transact (Transaction.deleteUser o guid) w).map id some
  | .checkAddressBookAccess guid userId requiredRule, _, w =>
    (w, some (AddressBooks.AddressBookPermissionService.checkAddressBookAccess w.store guid userId
      requiredRule))
  | .findUser user, _, w => (w, some ((w.accounts.users.find? fun row ↦
      if platform.isUUID user then row.guid = user else row.username = user).map (·.guid)))
  | .hasRule addressBookGuid targetUserId targetGroupId, _, w =>
    (w, some (w.rules.any fun rule ↦ rule.addressBookGuid = addressBookGuid &&
      rule.targetUserId = targetUserId && rule.targetGroupId = targetGroupId))
  | .insertRule draft, o, w => (w.insertRule draft o.account.uuid).map id some

abbrev Handler := Process Command Reply Unit Failure

namespace Handler

def ask (c : Command) : Handler (Reply c) := invoke c .ok

def assert (condition : Bool) (failure : Failure) : Handler Unit :=
  if condition then pure () else throw failure

def require {α : Type} (value : Option α) (failure : Failure) : Handler α :=
  match value with
  | some a => pure a
  | none => throw failure

end Handler

open Handler

structure CreateUserGroupDto where
  name : String
  note : Option String

structure UpdateUserGroupDto where
  name : Option String
  note : Option String

structure CreateRuleDto where
  guid : String
  user : Option String
  group : Option String
  rule : Option ℕ

variable (platform : Platform)

namespace UserGroupService

def DEFAULT_USER_GROUP_NAME : String := "Default"

/-- The name, and the form of it that is unique. -/
def normalizeName (value : String) : Handler (String × String) := do
  let name := String.ofList (trim value)
  assert (name ≠ "") (.badRequest "User group name cannot be empty")
  pure (name, platform.toLowerCase name)

def normalizeNote (value : Option String) : Option String :=
  truthy (value.map fun value ↦ String.ofList (trim value))

def isUniqueConstraintError (failure : Failure) : Bool := failure = .uniqueViolation

def concurrentDefault (failure : Failure) : Handler UserGroup := do
  let found ← ask .findDefaultGroup
  require found failure

def insertDefaultGroup (name normalizedName : String) : Handler UserGroup :=
  tryCatch (invoke (.insertGroup ⟨"", name, normalizedName, none, true⟩) fun reply ↦ reply)
    fun failure ↦ if isUniqueConstraintError failure then concurrentDefault failure else throw failure

def createDefaultGroup : Handler UserGroup := do
  let (name, normalizedName) ← normalizeName platform DEFAULT_USER_GROUP_NAME
  match ← ask (.findGroupByName normalizedName) with
  | some existingNamedGroup =>
    invoke (.saveGroup { existingNamedGroup with isDefault := true }) fun reply ↦ reply
  | none => insertDefaultGroup name normalizedName

def ensureDefaultGroup : Handler UserGroup := do
  match ← ask .findDefaultGroup with
  | some existingDefault => pure existingDefault
  | none => createDefaultGroup platform

def initializeStorage : Handler UserGroup := do
  let defaultGroup ← ensureDefaultGroup platform
  let _ ← (invoke (.backfillUsers defaultGroup.guid) fun reply ↦ reply : Handler ℕ)
  let _ ← (invoke .clearUserTargets fun reply ↦ reply : Handler ℕ)
  let _ ← (invoke .clearGroupTargets fun reply ↦ reply : Handler ℕ)
  let _ ← (invoke .deleteInvalidTargets fun reply ↦ reply : Handler ℕ)
  pure defaultGroup

def requireGroup (guid : String) : Handler UserGroup := do
  let group ← ask (.findGroup guid)
  require group (.notFound "User group does not exist")

def resolveUserGroupGuid (userGroupGuid : Option String) : Handler String := do
  match truthy userGroupGuid with
  | none => pure (← ensureDefaultGroup platform).guid
  | some userGroupGuid => pure (← requireGroup userGroupGuid).guid

def nameExists : Failure := .conflict "User group name already exists"

def assertNameAvailable (normalizedName : String) (ignoredGuid : Option String) :
    Handler Unit := do
  let existing ← ask (.findGroupByName normalizedName)
  assert (existing.all fun group ↦ some group.guid = ignoredGuid) nameExists

def rethrowUniqueName {α : Type} (failure : Failure) : Handler α :=
  if isUniqueConstraintError failure then throw nameExists else throw failure

def createGroup (dto : CreateUserGroupDto) : Handler UserGroup := do
  let (name, normalizedName) ← normalizeName platform dto.name
  assertNameAvailable normalizedName none
  tryCatch
    (invoke (.insertGroup ⟨"", name, normalizedName, normalizeNote dto.note, false⟩)
      fun reply ↦ reply) rethrowUniqueName

def rename (group : UserGroup) (name : Option String) : Handler UserGroup :=
  match name with
  | some name => do
    let (name, normalizedName) ← normalizeName platform name
    assertNameAvailable normalizedName (some group.guid)
    pure { group with name := name, normalizedName := normalizedName }
  | none => pure group

/-- The group, and how many users are in it. -/
def updateGroup (guid : String) (dto : UpdateUserGroupDto) : Handler (UserGroup × ℕ) := do
  let group ← requireGroup guid
  let renamed ← rename platform group dto.name
  let group := { renamed with
    note := if dto.note.isSome then normalizeNote dto.note else renamed.note }
  let saved ← tryCatch (invoke (.saveGroup group) fun reply ↦ reply) rethrowUniqueName
  let users ← ask (.members guid)
  pure (saved, users.length)

def assertUsersMutation (actorGuid : String) (targetGuids : List String)
    (permissionCode : String) : Handler Unit :=
  invoke (.account (.authorize actorGuid permissionCode targetGuids)) fun reply ↦ reply

def assertMembers (actorGuid : String) (affectedUsers : List String) : Handler Unit :=
  if affectedUsers.isEmpty then pure ()
  else assertUsersMutation actorGuid affectedUsers "user_groups.delete"

/-- The users moved and the rules deleted. -/
def deleteGroup (guid actorGuid : String) : Handler (ℕ × ℕ) := do
  let affectedUsers ← ask (.members guid)
  assertMembers actorGuid affectedUsers
  invoke (.deleteGroup guid) fun reply ↦ reply

def moveUsers (guid : String) (userGuids : List String) (actorGuid : String) : Handler ℕ := do
  assertUsersMutation actorGuid userGuids "user_groups.membership"
  invoke (.moveUsers guid userGuids.eraseDups) fun reply ↦ reply

end UserGroupService

open UserGroupService

namespace AddressBookRuleService

def targetUser (user : Option String) : Handler (Option String) :=
  match user with
  | none => pure none
  | some user => do
    let userEntity ← ask (.findUser user)
    let guid ← require userEntity (.notFound "User does not exist")
    pure (some guid)

def targetGroup (group : Option String) : Handler (Option String) :=
  match group with
  | none => pure none
  | some group => do
    let group ← requireGroup group
    pure (some group.guid)

/-- The guid of the new rule. -/
def createRule (dto : CreateRuleDto) (userId : String) : Handler String := do
  let _ ← (invoke (.checkAddressBookAccess dto.guid userId .fullControl) fun reply ↦ reply :
    Handler AddressBooks.AddressBook)
  assert ((truthy dto.user).isNone || (truthy dto.group).isNone)
    (.conflict "User and group cannot both be specified")
  let finalTargetUserId ← targetUser (truthy dto.user)
  let finalTargetGroupId ← targetGroup (truthy dto.group)
  let existingRule ← ask (.hasRule dto.guid (truthy finalTargetUserId) (truthy finalTargetGroupId))
  assert (!existingRule) (.conflict "This rule already exists")
  invoke (.insertRule ⟨"", dto.guid, finalTargetUserId, finalTargetGroupId, dto.rule.getD 1⟩)
    fun reply ↦ reply

end AddressBookRuleService

/-- An account command; the group of a user is resolved by the service of the groups. -/
def lower : (c : Accounts.Command) → Prog Command Reply (Accounts.Reply c)
  | .resolveUserGroupGuid userGroupGuid =>
    (resolveUserGroupGuid platform userGroupGuid).start () >>= fun x ↦ .done x.1
  | c => .call (.account c) .done

/-- The operations on accounts, over the store of the groups. -/
def lift {α : Type} (handler : Accounts.Handler α) : Handler α :=
  ExceptT.mk fun s ↦ (handler.start s).expand (lower platform)

namespace UserService

def deleteUser (guid : String) : Handler Unit := invoke (.deleteUser guid) fun reply ↦ reply

end UserService

inductive Request
  | createGroup (dto : CreateUserGroupDto)
  | updateGroup (guid : String) (dto : UpdateUserGroupDto)
  | deleteGroup (guid actorGuid : String)
  | moveUsers (guid : String) (userGuids : List String) (actorGuid : String)
  | account (request : Accounts.Request)
  | deleteUser (guid : String)
  | createRule (dto : CreateRuleDto) (userId : String)

def ignore {α : Type} (handler : Handler α) : Handler Unit := do
  let _ ← handler
  pure ()

def serve : Request → Handler Unit
  | .createGroup dto => ignore (createGroup platform dto)
  | .updateGroup guid dto => ignore (updateGroup platform guid dto)
  | .deleteGroup guid actorGuid => ignore (deleteGroup guid actorGuid)
  | .moveUsers guid userGuids actorGuid => ignore (moveUsers guid userGuids actorGuid)
  | .account request => lift platform (Accounts.serve platform.toPlatform request)
  | .deleteUser guid => UserService.deleteUser guid
  | .createRule dto userId => ignore (AddressBookRuleService.createRule dto userId)

def machine : Machine Accounts.Call Command Reply Choice World where
  exec := exec platform
  admits _ _ p := ∃ request, p = (serve platform request).start () >>= fun _ ↦ .done ()

end RustdeskConsole.UserGroups
