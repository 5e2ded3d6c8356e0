import Mathlib.Data.Int.Notation
import Mathlib.Data.Nat.Notation
import RustdeskConsole.Effects.Machine

namespace RustdeskConsole.Tags

open Effects

inductive Failure
  | database (message : String)
  | notFound (message : String)
  | badRequest (message : String)
  | forbidden (message : String)
  | typeError
  deriving DecidableEq

inductive ShareRule
  | read
  | readWrite
  | fullControl
  deriving DecidableEq

structure AddressBook where
  guid : ℕ
  owner : String
  isPersonal : Bool
  name : String
  deriving DecidableEq

structure AddressBookTag where
  guid : ℕ
  addressBookGuid : ℕ
  name : String
  color : ℤ
  deriving DecidableEq

abbrev Key := ℕ × String

def AddressBookTag.key (tag : AddressBookTag) : Key := (tag.addressBookGuid, tag.name)

structure AddTagDto where
  name : String
  color : Option ℤ
  deriving DecidableEq

structure RenameTagDto where
  old : String
  new : String
  deriving DecidableEq

/-- The tags of a parsed address book. Its peers are left out: they refer to tags by guid. -/
structure LegacyData where
  tags : List String
  tagColors : List (String × ℤ)
  deriving DecidableEq

inductive LegacyBody
  | empty
  | malformed
  | null
  | parsed (data : LegacyData)
  deriving DecidableEq

inductive Request
  | addTag (addressBookGuid : ℕ) (dto : AddTagDto) (userId : Option String)
  | renameTag (addressBookGuid : ℕ) (dto : RenameTagDto) (userId : Option String)
  | getOrCreateTag (addressBookGuid : ℕ) (tagName : String)
  | updateLegacyAddressBook (userId : String) (data : LegacyBody)
  deriving DecidableEq

structure Call where
  id : ℕ
  request : Request
  deriving DecidableEq

/-- A call has found no tag of a name or one, has written one, or has replaced the tags of a book. -/
inductive Event
  | missed (key : Key)
  | found (guid : ℕ) (key : Key)
  | saved (guid : ℕ) (key : Key)
  | renamed (guid : ℕ) (key : Key)
  | replaced (addressBookGuid : ℕ) (tags : List (ℕ × String))
  deriving DecidableEq

/-- `nextGuid` stands for the identifiers that `uuidv4` has not given yet. -/
structure World where
  addressBooks : List AddressBook
  tags : List AddressBookTag
  nextGuid : ℕ
  history : List (Call × Event)

def World.note (w : World) (call : Call) (event : Event) : World :=
  { w with history := (call, event) :: w.history }

inductive Command
  | checkAccess (addressBookGuid : ℕ) (userId : String) (rule : ShareRule)
  | findAddressBook (guid : ℕ)
  | findPersonal (owner : String)
  | saveAddressBook (owner name : String)
  | findTag (name : String) (addressBookGuid : ℕ)
  | saveTag (addressBookGuid : ℕ) (name : String) (color : ℤ)
  | updateName (guid : ℕ) (name : String)
  | transaction (addressBookGuid : ℕ) (tags : List (String × ℤ))

@[reducible] def Reply : Command → Type
  | .checkAccess .. => Except Failure Unit
  | .findAddressBook _ => Except Failure (Option AddressBook)
  | .findPersonal _ => Except Failure (Option AddressBook)
  | .saveAddressBook .. => Except Failure AddressBook
  | .findTag .. => Except Failure (Option AddressBookTag)
  | .saveTag .. => Except Failure AddressBookTag
  | .updateName .. => Except Failure Unit
  | .transaction .. => Except Failure Unit

def findTag (tags : List AddressBookTag) (name : String) (addressBookGuid : ℕ) :
    Option AddressBookTag :=
  tags.find? fun tag ↦ tag.key = (addressBookGuid, name)

def World.insert (w : World) (addressBookGuid : ℕ) (name : String) (color : ℤ) : World :=
  { w with
    tags := w.tags ++ [⟨w.nextGuid, addressBookGuid, name, color⟩]
    nextGuid := w.nextGuid + 1 }

def World.rename (w : World) (guid : ℕ) (name : String) : World :=
  { w with tags := w.tags.map fun tag ↦ if tag.guid = guid then { tag with name := name } else tag }

/-- The tags that a transaction saves, with the guids it draws for them. -/
def drawn (addressBookGuid : ℕ) : ℕ → List (String × ℤ) → List AddressBookTag
  | _, [] => []
  | guid, (name, color) :: tags =>
    ⟨guid, addressBookGuid, name, color⟩ :: drawn addressBookGuid (guid + 1) tags

def World.replace (w : World) (addressBookGuid : ℕ) (tags : List (String × ℤ)) : World :=
  { w with
    tags := w.tags.filter (·.addressBookGuid ≠ addressBookGuid) ++
      drawn addressBookGuid w.nextGuid tags
    nextGuid := w.nextGuid + tags.length }

/-- A command fails as the world chooses, and a transaction has its effect as a whole or
not at all. -/
def exec (call : Call) (c : Command) (o : Except Failure Unit) (w : World) :
    World × Option (Reply c) :=
  match c, o with
  | .checkAccess .., .error failure => (w, some (.error failure))
  | .findAddressBook _, .error failure => (w, some (.error failure))
  | .findPersonal _, .error failure => (w, some (.error failure))
  | .saveAddressBook .., .error failure => (w, some (.error failure))
  | .findTag .., .error failure => (w, some (.error failure))
  | .saveTag .., .error failure => (w, some (.error failure))
  | .updateName .., .error failure => (w, some (.error failure))
  | .transaction .., .error failure => (w, some (.error failure))
  | .checkAccess .., .ok () => (w, some (.ok ()))
  | .findAddressBook guid, .ok () =>
    (w, some (.ok (w.addressBooks.find? fun book ↦ book.guid = guid)))
  | .findPersonal owner, .ok () =>
    (w, some (.ok (w.addressBooks.find? fun book ↦ book.owner = owner && book.isPersonal)))
  | .saveAddressBook owner name, .ok () =>
    let book := ⟨w.nextGuid, owner, true, name⟩
    ({ w with addressBooks := w.addressBooks ++ [book], nextGuid := w.nextGuid + 1 },
      some (.ok book))
  | .findTag name addressBookGuid, .ok () =>
    match findTag w.tags name addressBookGuid with
    | none => (w.note call (.missed (addressBookGuid, name)), some (.ok none))
    | some tag => (w.note call (.found tag.guid tag.key), some (.ok (some tag)))
  | .saveTag addressBookGuid name color, .ok () =>
    ((w.insert addressBookGuid name color).note call (.saved w.nextGuid (addressBookGuid, name)),
      some (.ok ⟨w.nextGuid, addressBookGuid, name, color⟩))
  | .updateName guid name, .ok () =>
    match w.tags.find? fun tag ↦ tag.guid = guid with
    | none => (w, some (.ok ()))
    | some tag =>
      ((w.rename guid name).note call (.renamed guid (tag.addressBookGuid, name)), some (.ok ()))
  | .transaction addressBookGuid tags, .ok () =>
    ((w.replace addressBookGuid tags).note call (.replaced addressBookGuid
        ((drawn addressBookGuid w.nextGuid tags).map fun tag ↦ (tag.guid, tag.name))),
      some (.ok ()))

abbrev Handler := Process Command Reply Unit Failure

/-- The command throws what it replies as a failure. -/
def attempt {α : Type} (c : Command) (h : Reply c = Except Failure α) : Handler α :=
  invoke c fun reply ↦ h ▸ reply

/-- `if (userId && checkAccess)` -/
def requireWrite (addressBookGuid : ℕ) (userId : Option String) : Handler Unit :=
  match userId.filter (· ≠ "") with
  | some userId => attempt (.checkAccess addressBookGuid userId .readWrite) rfl
  | none => pure ()

def getOrCreateTag (addressBookGuid : ℕ) (tagName : String) : Handler ℕ := do
  match ← attempt (.findTag tagName addressBookGuid) rfl with
  | some tag => pure tag.guid
  | none =>
    let tag ← attempt (.saveTag addressBookGuid tagName 0) rfl
    pure tag.guid

def addTag (addressBookGuid : ℕ) (dto : AddTagDto) (userId : Option String) : Handler Unit := do
  requireWrite addressBookGuid userId
  match ← attempt (.findAddressBook addressBookGuid) rfl with
  | none => throw (.notFound "Address book does not exist")
  | some _ =>
    match ← attempt (.findTag dto.name addressBookGuid) rfl with
    | some _ => throw (.badRequest "Tag already exists")
    | none =>
      let _ ← attempt (.saveTag addressBookGuid dto.name (dto.color.getD 0)) rfl
      pure ()

def renameTag (addressBookGuid : ℕ) (dto : RenameTagDto) (userId : Option String) :
    Handler Unit := do
  requireWrite addressBookGuid userId
  match ← attempt (.findTag dto.old addressBookGuid) rfl with
  | none => throw (.notFound "Tag does not exist")
  | some tag =>
    match ← attempt (.findTag dto.new addressBookGuid) rfl with
    | some _ => throw (.badRequest "New tag name already exists")
    | none => attempt (.updateName tag.guid dto.new) rfl

def dangerousProperties : List String := ["__proto__", "constructor", "prototype"]

/-- The tags that the legacy endpoint saves, with their colors. -/
def legacyTags (data : LegacyData) : List (String × ℤ) :=
  (data.tags.filter (· ∉ dangerousProperties)).map fun tagName ↦
    (tagName, (data.tagColors.lookup tagName).getD 0)

def findOrCreatePersonal (userId : String) : Handler AddressBook := do
  match ← attempt (.findPersonal userId) rfl with
  | some addressBook => pure addressBook
  | none => attempt (.saveAddressBook userId "Personal") rfl

def updateLegacyAddressBook (userId : String) : LegacyBody → Handler Unit
  | .empty => pure ()
  | .malformed => throw (.badRequest "Invalid JSON data")
  | .null => do
    let _ ← findOrCreatePersonal userId
    throw .typeError
  | .parsed data => do
    let addressBook ← findOrCreatePersonal userId
    attempt (.transaction addressBook.guid (legacyTags data)) rfl

def serve : Request → Handler Unit
  | .addTag addressBookGuid dto userId => addTag addressBookGuid dto userId
  | .renameTag addressBookGuid dto userId => renameTag addressBookGuid dto userId
  | .getOrCreateTag addressBookGuid tagName => discard (getOrCreateTag addressBookGuid tagName)
  | .updateLegacyAddressBook userId data => updateLegacyAddressBook userId data

def handler (call : Call) : Prog Command Reply Unit :=
  (serve call.request).start () >>= fun _ ↦ .done ()

/-- Any number of requests at once. A call takes no part twice. -/
def machine : Machine Call Command Reply (Except Failure Unit) World where
  exec := exec
  admits call w p := (∀ event, (call, event) ∉ w.history) ∧ p = handler call

end RustdeskConsole.Tags
