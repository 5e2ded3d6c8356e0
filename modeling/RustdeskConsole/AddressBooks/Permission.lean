import RustdeskConsole.Accounts.Entities
import RustdeskConsole.Collections.Rows
import RustdeskConsole.Effects.Outcomes

namespace RustdeskConsole.AddressBooks

open Accounts (Failure)
open Auth (truthy)
open Collections Effects.Guard

inductive ShareRule
  | read
  | readWrite
  | fullControl
  deriving DecidableEq

def ShareRule.level : ShareRule → ℕ
  | .read => 1
  | .readWrite => 2
  | .fullControl => 3

/-- What is stored as JSON in the `info` column. -/
structure Info where
  password : String
  deriving DecidableEq

structure AddressBook where
  guid : String
  owner : String
  isPersonal : Bool
  isShared : Bool
  name : Option String
  note : Option String
  info : Option Info
  deriving DecidableEq

structure AddressBookRule where
  guid : String
  addressBookGuid : String
  targetUserId : Option String
  targetGroupId : Option String
  rule : ℕ
  deriving DecidableEq

structure User where
  guid : String
  username : String
  userGroupGuid : Option String
  deriving DecidableEq

structure Store where
  users : List User
  addressBooks : List AddressBook
  rules : List AddressBookRule
  deriving DecidableEq

namespace Store

def user? (s : Store) (guid : String) : Option User := s.users.find? (·.guid = guid)

def addressBook? (s : Store) (guid : String) : Option AddressBook :=
  s.addressBooks.find? (·.guid = guid)

/-- Guids are primary keys. -/
structure Keyed (s : Store) : Prop where
  users : (s.users.map (·.guid)).Nodup
  addressBooks : (s.addressBooks.map (·.guid)).Nodup

end Store

namespace AddressBookPermissionService

/-- The targets, each a user and a group, of the rules that apply to a user. -/
def applicableTargets (user : User) : List (Option String × Option String) :=
  [(some user.guid, none), (none, none)] ++
    match truthy user.userGroupGuid with
    | some userGroupGuid => [(none, some userGroupGuid)]
    | none => []

def applicableRules (s : Store) (addressBookGuid : String) (user : User) : List AddressBookRule :=
  s.rules.filter fun rule ↦ rule.addressBookGuid = addressBookGuid &&
    (rule.targetUserId, rule.targetGroupId) ∈ applicableTargets user

def effectiveRule (rules : List AddressBookRule) : ℕ :=
  rules.foldl (fun strongest rule ↦ max strongest rule.rule) 0

def insufficient (requiredRule : ShareRule) : Failure :=
  .forbidden ((if requiredRule = .readWrite then "Read-write" else "Full control") ++
    " permission required")

def checkAddressBookAccess (s : Store) (addressBookGuid userId : String)
    (requiredRule : ShareRule) : Except Failure AddressBook := do
  let addressBook ← require (s.addressBook? addressBookGuid)
    (.notFound "Address book does not exist")
  if addressBook.owner = userId then pure addressBook
  else do
    let user ← require (s.user? userId)
      (.forbidden "No permission to access this address book")
    let effective := effectiveRule (applicableRules s addressBookGuid user)
    refuseIf (effective = 0) (.forbidden "No permission to access this address book")
    refuseIf (effective < requiredRule.level) (insufficient requiredRule)
    pure addressBook

end AddressBookPermissionService

open AddressBookPermissionService

variable {s : Store} {user : User} {book : AddressBook} {rules : List AddressBookRule}
  {required : ShareRule} {guid userId : String}

/-- The level that a user has on an address book. -/
def levelOf (s : Store) (book : AddressBook) (user : User) : ℕ :=
  if book.owner = user.guid then ShareRule.fullControl.level
  else effectiveRule (applicableRules s book.guid user)

theorem foldl_max {n : ℕ} :
    rules.foldl (fun strongest rule ↦ max strongest rule.rule) n = max n (effectiveRule rules) := by
  induction rules generalizing n with
  | nil => simp [effectiveRule]
  | cons rule rules ih => rw [effectiveRule, List.foldl_cons, List.foldl_cons, ih, ih]; omega

theorem effectiveRule_cons {rule : AddressBookRule} :
    effectiveRule (rule :: rules) = max rule.rule (effectiveRule rules) := by
  rw [effectiveRule, List.foldl_cons, foldl_max, Nat.zero_max]

theorem effectiveRule_le {n : ℕ} (h : ∀ rule ∈ rules, rule.rule ≤ n) : effectiveRule rules ≤ n := by
  induction rules with
  | nil => exact Nat.zero_le n
  | cons rule rules ih =>
    rw [effectiveRule_cons]
    exact Nat.max_le.mpr ⟨h rule (.head _), ih fun rule hm ↦ h rule (.tail _ hm)⟩

/-- The check passes just when the level of the user reaches the required one. -/
theorem access_iff (hb : s.addressBook? guid = some book) (hu : s.user? user.guid = some user) :
    (∃ found, checkAddressBookAccess s guid user.guid required = .ok found) ↔
      required.level ≤ levelOf s book user := by
  have hguid : book.guid = guid := key_of_find? hb
  have hpos : 0 < required.level := by cases required <;> decide
  have hfull : required.level ≤ ShareRule.fullControl.level := by cases required <;> decide
  rw [checkAddressBookAccess, hb, levelOf, hguid]
  by_cases ho : book.owner = user.guid
  · simp only [bind_eq_ok, require_eq_ok, Option.some.injEq, exists_eq_left', if_pos ho]
    exact iff_of_true ⟨book, rfl⟩ hfull
  · simp only [bind_eq_ok, require_eq_ok, Option.some.injEq, exists_eq_left', if_neg ho, hu,
      refuseIf_eq_ok, decide_eq_false_iff_not, exists_unit]
    constructor
    · rintro ⟨found, hzero, hlt, -⟩
      omega
    · intro hle
      exact ⟨book, by omega, by omega, rfl⟩

end RustdeskConsole.AddressBooks
