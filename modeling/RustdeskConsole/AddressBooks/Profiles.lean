import RustdeskConsole.AddressBooks.Listing
import RustdeskConsole.Effects.Outcomes

namespace RustdeskConsole.AddressBooks

open Accounts (Failure)
open Auth (truthy)
open Collections Effects Effects.Checked
open AddressBookPermissionService AddressBookRuleService

abbrev Handler := EStateM Failure Store

/-- What is decided elsewhere while one request is served: the guids that are
drawn, and what the database makes of the writes. -/
structure Choice where
  guid : String
  ruleGuid : String
  ruleSaved : Except Failure Unit
  saved : Except Failure Unit

/-- A field that is optional may be left out or null. A password that is null counts as
left out. -/
structure UpdateAddressBookProfileDto where
  guid : String
  name : Option (Option String)
  note : Option (Option String)
  owner : Option (Option String)
  password : Option String

namespace Store

variable (s : Store)

/-- A book of that name that is not personal. -/
def findNamed (name owner : String) : Option AddressBook :=
  s.addressBooks.find? fun book ↦
    book.name = some name && book.owner = owner && !book.isPersonal

def saveAddressBook (addressBook : AddressBook) : Store :=
  { s with
    addressBooks := s.addressBooks.map fun row ↦
      if row.guid = addressBook.guid then addressBook else row }

/-- The rules of a deleted book go with it. -/
def deleteAddressBooks (guids : List String) : Store :=
  { s with
    addressBooks := s.addressBooks.filter (·.guid ∉ guids)
    rules := s.rules.filter (·.addressBookGuid ∉ guids) }

end Store

namespace AddressBookRuleService

variable (o : Choice)

def findPrivateCustomAddressBook (s : Store) (guid userId : String) : Option AddressBook :=
  s.addressBooks.find? fun book ↦ book.guid = guid && book.owner = userId && !book.isPersonal &&
    !book.isShared && !externalGrantExists s book

def findSharedAddressBook (s : Store) (guid : String) : Option AddressBook :=
  s.addressBooks.find? fun book ↦ book.guid = guid && !book.isPersonal &&
    (book.isShared || externalGrantExists s book)

def trimmed (name : String) : Handler String := do
  let trimmedName := String.ofList (trim name)
  assert (trimmedName ≠ "") (.badRequest "Address book name cannot be empty")
  pure trimmedName

def nameExists : Failure := .conflict "Address book name already exists"

/-- `password ? JSON.stringify({ password }) : undefined`. -/
def infoOf (password : Option String) : Option Info := (truthy password).map Info.mk

def createAddressBookProfile (name ownerUserId : String) (isShared : Bool)
    (note password : Option String) : Handler String := do
  let trimmedName ← trimmed name
  let s ← get
  assert (s.findNamed trimmedName ownerUserId).isNone nameExists
  reply o.saved
  modify fun s ↦ { s with addressBooks :=
    ⟨o.guid, ownerUserId, false, isShared, some trimmedName, note, infoOf password⟩ ::
      s.addressBooks }
  pure o.guid

def addCustomAddressBook (name ownerUserId : String) (note password : Option String) :
    Handler String := createAddressBookProfile o name ownerUserId false note password

def addSharedAddressBook (name ownerUserId : String) (note password : Option String) :
    Handler String := createAddressBookProfile o name ownerUserId true note password

/-- The name that a book gets, which no other book of the owner has. -/
def assertName (name owner guid : String) : Handler String := do
  let trimmedName ← trimmed name
  let s ← get
  assert ((s.findNamed trimmedName owner).all (·.guid = guid)) nameExists
  pure trimmedName

/-- What `null.trim()` throws. -/
def nameNull : Failure := .internal "Cannot read properties of null (reading 'trim')"

def updateName (addressBook : AddressBook) (name : Option (Option String)) (owner : String) :
    Handler AddressBook :=
  match name with
  | some (some name) => do
    let trimmedName ← assertName name owner addressBook.guid
    pure { addressBook with name := some trimmedName }
  | some none => throw nameNull
  | none => pure addressBook

def updateCustomAddressBook (guid userId : String) (name note : Option (Option String)) :
    Handler Unit := do
  assert (name.isSome || note.isSome) (.badRequest "At least one field must be updated")
  let s ← get
  let addressBook ← require (findPrivateCustomAddressBook s guid userId)
    (.notFound "Private custom address book does not exist")
  let addressBook ← updateName addressBook name userId
  reply o.saved
  modify (·.saveAddressBook { addressBook with note := note.getD addressBook.note })

def deleteCustomAddressBooks (guids : List String) (userId : String) : Handler Unit := do
  let uniqueGuids := guids.eraseDups
  let s ← get
  let addressBooks := s.addressBooks.filter fun book ↦ book.guid ∈ uniqueGuids &&
    book.owner = userId && !book.isPersonal && !book.isShared && !externalGrantExists s book
  assert (addressBooks.length = uniqueGuids.length)
    (.notFound "One or more private custom address books do not exist")
  reply o.saved
  modify (·.deleteAddressBooks uniqueGuids)

/-- A condition on a column that is null is left out of a query. -/
def findNewOwner (s : Store) (owner : Option String) : Option User :=
  match owner with
  | some owner => s.user? owner
  | none => s.users.head?

def existingRule (s : Store) (guid : String) (owner : Option String) : Bool :=
  s.rules.any fun rule ↦ rule.addressBookGuid = guid &&
    owner.all (fun owner ↦ rule.targetUserId = some owner) && rule.targetGroupId.isNone

/-- A new owner who has no rule of their own is given one. -/
def grantOwner (guid : String) (owner : Option String) : Handler Unit := do
  let s ← get
  let _ ← require (findNewOwner s owner) (.notFound "New owner user does not exist")
  if existingRule s guid owner then pure ()
  else do
    reply o.ruleSaved
    modify fun s ↦ { s with rules :=
      ⟨o.ruleGuid, guid, owner, none, ShareRule.fullControl.level⟩ :: s.rules }

def isChangingOwner (addressBook : AddressBook) (owner : Option (Option String)) : Bool :=
  owner.any (· ≠ some addressBook.owner)

def assertAccess (guid : String) (userId : Option String) (requiredRule : ShareRule) :
    Handler Unit :=
  match truthy userId with
  | some userId => do
    let s ← get
    let _ ← reply (checkAddressBookAccess s guid userId requiredRule)
    pure ()
  | none => pure ()

def assertOwner (addressBook : AddressBook) (owner : Option (Option String)) : Handler Unit :=
  match owner with
  | some owner =>
    if owner = some addressBook.owner then pure () else grantOwner o addressBook.guid owner
  | none => pure ()

/-- The column of the owner takes no null. -/
def savedOwner (addressBook : AddressBook) (owner : Option (Option String)) :
    Except Failure String :=
  match owner with
  | some (some owner) => .ok owner
  | some none => .error (.internal "NOT NULL constraint failed: address_books.owner")
  | none => .ok addressBook.owner

def updateSharedAddressBook (dto : UpdateAddressBookProfileDto) (userId : Option String) :
    Handler Unit := do
  let s ← get
  let addressBook ← require (findSharedAddressBook s dto.guid)
    (.notFound "Address book does not exist")
  assertAccess dto.guid userId
    (if isChangingOwner addressBook dto.owner then .fullControl else .readWrite)
  assertOwner o addressBook dto.owner
  let addressBook ← updateName addressBook dto.name
    ((truthy dto.owner.join).getD addressBook.owner)
  let owner ← reply (savedOwner addressBook dto.owner)
  reply o.saved
  modify (·.saveAddressBook { addressBook with
    note := dto.note.getD addressBook.note
    owner := owner
    info := (infoOf dto.password).or addressBook.info })

def deletable (s : Store) (userId : String) : List String → Except Failure (List String)
  | [] => .ok []
  | guid :: guids =>
    match findSharedAddressBook s guid with
    | none => deletable s userId guids
    | some addressBook =>
      if addressBook.owner = userId then (deletable s userId guids).map (guid :: ·)
      else .error (.forbidden
        ("No permission to delete address book '" ++ addressBook.name.getD "null" ++ "'"))

/-- The books and their rules are deleted in one transaction. -/
def deleteSharedAddressBooks (guids : List String) (userId : String) : Handler Unit := do
  let s ← get
  let guidsToDelete ← reply (deletable s userId guids.eraseDups)
  if guidsToDelete.isEmpty then pure ()
  else do
    reply o.saved
    modify (·.deleteAddressBooks guidsToDelete)

end AddressBookRuleService

inductive Request
  | addCustom (name ownerUserId : String) (note password : Option String)
  | updateCustom (guid userId : String) (name note : Option (Option String))
  | deleteCustom (guids : List String) (userId : String)
  | addShared (name ownerUserId : String) (note password : Option String)
  | updateShared (dto : UpdateAddressBookProfileDto) (userId : Option String)
  | deleteShared (guids : List String) (userId : String)

def ignore {α : Type} (handler : Handler α) : Handler Unit := do
  let _ ← handler
  pure ()

def serve (o : Choice) : Request → Handler Unit
  | .addCustom name ownerUserId note password =>
    ignore (addCustomAddressBook o name ownerUserId note password)
  | .updateCustom guid userId name note => updateCustomAddressBook o guid userId name note
  | .deleteCustom guids userId => deleteCustomAddressBooks o guids userId
  | .addShared name ownerUserId note password =>
    ignore (addSharedAddressBook o name ownerUserId note password)
  | .updateShared dto userId => updateSharedAddressBook o dto userId
  | .deleteShared guids userId => deleteSharedAddressBooks o guids userId

end RustdeskConsole.AddressBooks
