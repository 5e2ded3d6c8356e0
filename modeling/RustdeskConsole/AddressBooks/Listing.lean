import Mathlib.Data.List.Dedup
import RustdeskConsole.AddressBooks.Permission
import RustdeskConsole.Collections.OrderedMap
import RustdeskConsole.Collections.Numeral

namespace RustdeskConsole.AddressBooks

open Accounts (Failure)
open Auth (truthy)
open Collections Effects.Guard

/-- The validation of a query demands positive numbers. -/
structure PaginationDto where
  current : ℕ
  pageSize : ℕ
  name : Option String
  note : Option String
  currentPos : 0 < current
  pageSizePos : 0 < pageSize

/-- One row of the join: an address book and a rule of it, if there is any. -/
structure JoinedRow where
  addressBook : AddressBook
  rule : Option AddressBookRule

/-- The columns that the rows are grouped by. -/
structure SharedAddressBookKey where
  guid : String
  name : Option String
  owner : String
  note : Option String
  info : Option Info
  deriving DecidableEq

structure SharedAddressBookRow where
  key : SharedAddressBookKey
  rule : ℕ
  deriving DecidableEq

structure AccessibleAddressBook where
  guid : String
  name : String
  owner : String
  note : String
  rule : ℕ
  info : Option Info
  isOwner : Option Bool
  deriving DecidableEq

namespace AddressBookRuleService

variable (like : String → String → Bool) (s : Store)

def externalGrantExists (addressBook : AddressBook) : Bool :=
  s.rules.any fun rule ↦ rule.addressBookGuid = addressBook.guid &&
    (rule.targetGroupId.isSome || rule.targetUserId.isNone ||
      rule.targetUserId ≠ some addressBook.owner)

/-- The conditions on the rules that are joined. -/
def subjectConditions (user : User) (rule : AddressBookRule) : Bool :=
  (rule.targetUserId = some user.guid && rule.targetGroupId.isNone) ||
    (rule.targetUserId.isNone && rule.targetGroupId.isNone) ||
    match truthy user.userGroupGuid with
    | some userGroupGuid => rule.targetUserId.isNone && rule.targetGroupId = some userGroupGuid
    | none => false

def joinRules (addressBook : AddressBook) : List AddressBookRule → List JoinedRow
  | [] => [⟨addressBook, none⟩]
  | rules => rules.map fun rule ↦ ⟨addressBook, some rule⟩

def leftJoin (user : User) (addressBook : AddressBook) : List JoinedRow :=
  joinRules addressBook (s.rules.filter fun rule ↦
    rule.addressBookGuid = addressBook.guid && subjectConditions user rule)

/-- An empty filter is none. -/
def matchesText (text column : Option String) : Bool :=
  match truthy (text.map fun text ↦ String.ofList (trim text)) with
  | some text => column.any fun column ↦ like column ("%" ++ text ++ "%")
  | none => true

def isSelected (user : User) (query : PaginationDto) (sharedOnly : Bool) (guid : Option String)
    (row : JoinedRow) : Bool :=
  (!row.addressBook.isPersonal) &&
    (row.addressBook.owner = user.guid || row.rule.isSome) &&
    (!sharedOnly || row.addressBook.isShared || externalGrantExists s row.addressBook) &&
    (truthy guid).all (· = row.addressBook.guid) &&
    matchesText like query.name row.addressBook.name &&
    matchesText like query.note row.addressBook.note

def selected (user : User) (query : PaginationDto) (sharedOnly : Bool) (guid : Option String) :
    List JoinedRow :=
  (s.addressBooks.flatMap (leftJoin s user)).filter (isSelected like s user query sharedOnly guid)

def JoinedRow.key (sharedOnly : Bool) (row : JoinedRow) : SharedAddressBookKey where
  guid := row.addressBook.guid
  name := row.addressBook.name
  owner := row.addressBook.owner
  note := row.addressBook.note
  info := if sharedOnly then none else row.addressBook.info

/-- `CASE WHEN addressBook.owner = :userId THEN :fullControl ELSE rule.rule END`. -/
def JoinedRow.level (user : User) (row : JoinedRow) : Option ℕ :=
  if row.addressBook.owner = user.guid then some ShareRule.fullControl.level
  else row.rule.map (·.rule)

/-- The maximum of a group; what is null does not count. -/
def maximum (levels : List (Option ℕ)) : ℕ := (levels.filterMap id).foldl max 0

def grouped (user : User) (sharedOnly : Bool) (rows : List JoinedRow) :
    List SharedAddressBookRow :=
  (OrderedMap.group rows (JoinedRow.key sharedOnly) (JoinedRow.level user)).entries.map
    fun entry ↦ ⟨entry.1, maximum entry.2⟩

/-- `ORDER BY addressBook.name ASC, addressBook.guid ASC`. -/
def precedes (a b : SharedAddressBookRow) : Bool :=
  match a.key.name, b.key.name with
  | none, none => a.key.guid ≤ b.key.guid
  | none, some _ => true
  | some _, none => false
  | some name, some name' => name < name' || (name = name' && a.key.guid ≤ b.key.guid)

def ordered (rows : List SharedAddressBookRow) : List SharedAddressBookRow :=
  rows.insertionSort fun a b ↦ precedes a b = true

def present (userId : String) (sharedOnly : Bool) (row : SharedAddressBookRow) :
    AccessibleAddressBook where
  guid := row.key.guid
  name := row.key.name.getD ""
  owner := (truthy ((s.user? row.key.owner).map (·.username))).getD row.key.owner
  note := row.key.note.getD ""
  rule := row.rule
  info := if sharedOnly then none else row.key.info
  isOwner := if sharedOnly then some (row.key.owner = userId) else none

/-- A page, and how many address books there are on all of them. -/
def getAccessibleAddressBooks (userId : String) (query : PaginationDto) (sharedOnly : Bool)
    (guid : Option String) : Except Failure (ℕ × List AccessibleAddressBook) := do
  let user ← require (s.user? userId) (.notFound "User does not exist")
  let rows := selected like s user query sharedOnly guid
  let total := (rows.map (·.addressBook.guid)).dedup.length
  let page := ((ordered (grouped user sharedOnly rows)).drop
    ((query.current - 1) * query.pageSize)).take query.pageSize
  pure (total, page.map (present s userId sharedOnly))

end AddressBookRuleService

end RustdeskConsole.AddressBooks
