import RustdeskConsole.Effects.Logic
import RustdeskConsole.Posix.Durability
import RustdeskConsole.Serialization.Json
import RustdeskConsole.Updater.Control

namespace RustdeskConsole.Updater.Persistence

open Effects Function Posix.Durability Serialization

structure FilePath where
  directory : Text
  file : Text
  deriving DecidableEq

def FilePath.temporary (path : FilePath) (uuid : Text) : FilePath :=
  { path with file := path.file ++ '.' :: uuid ++ ".tmp".toList }

/-- A file that `atomicWrite` is asked for, which none of its temporary files is. -/
def FilePath.Target (path : FilePath) : Prop := ¬".tmp".toList <:+ path.file

theorem not_target_temporary {path : FilePath} {uuid : Text} : ¬(path.temporary uuid).Target :=
  not_not_intro (List.suffix_append ..)

/-- The text of a value as it stands in a file. -/
def contents (value : Value) : List UInt8 :=
  (stringify value ++ ['\n']).flatMap String.utf8EncodeChar

/-- What is no text is left out: it is never written. -/
def readJson (content : List UInt8) : Option Value :=
  content.toByteArray.utf8Decode?.bind fun text ↦ parse text.toList

theorem readJson_contents {value : Value} (hw : value.WellFormed) :
    readJson (contents value) = some value := by
  have hencode : (contents value).toByteArray = (stringify value ++ ['\n']).utf8Encode := rfl
  rw [readJson, hencode, List.utf8Decode?_utf8Encode, Option.bind_some, List.toList_toArray]
  exact parse_stringify_append hw (by rintro c ⟨⟩; rfl) rfl

/-- One call of `atomicWrite`, with the `randomUUID` that it draws. -/
structure Write where
  path : FilePath
  value : Value
  mode : ℕ
  uuid : Text

abbrev Write.staged (call : Write) : FilePath := call.path.temporary call.uuid

inductive Command
  | mkdir (directory : Text) (mode : ℕ)
  | openNew (path : FilePath) (mode : ℕ)
  | chmod (handle mode : ℕ)
  | writeFile (handle : ℕ) (content : List UInt8)
  | sync (handle : ℕ)
  | close (handle : ℕ)
  | rename (source target : FilePath)
  | openDirectory (directory : Text)
  | syncDirectory (directory : Text)
  | closeDirectory (directory : Text)
  | respond (written : Bool)

@[reducible] def Reply : Command → Type
  | .openNew .. => Except Failure ℕ
  | .respond _ => Unit
  | _ => Except Failure Unit

/-- A call of the system fails or not. A write that fails leaves anything. -/
structure Choice where
  fails : Bool
  left : List UInt8

/-- A version of a file: the number of the write that put it in place, and its inode. -/
abbrev Version := ℕ × ℕ

/-- What stands at first under each name. -/
abbrev Base := FilePath → Option (ℕ × List UInt8)

/-- The directories, which exist, and the writes that have come to their end. -/
structure World where
  cache : Cache FilePath (List UInt8)
  register : FilePath → Register Version
  owner : ℕ → Option ℕ
  answered : List ℕ

def World.reply (w : World) (o : Choice) (w' : World) : World × Option (Except Failure Unit) :=
  if o.fails then (w, some (.error .unknown)) else (w', some (.ok ()))

namespace World

/-- The file of the write comes under its name. -/
def publish (w : World) (id : ℕ) (source target : FilePath) (inode : ℕ) : World :=
  { w with
    cache := w.cache.rename source target
    register := fun path ↦
      if path = target then (w.register path).publish (id, inode) else w.register path }

def settle (w : World) (directory : Text) : World :=
  { w with
    cache := w.cache.syncNames fun path ↦ path.directory = directory
    register := fun path ↦
      if path.directory = directory then (w.register path).settle else w.register path }

/-- A loss of power takes all processes down, and what the cache has not brought
to the disk may be lost. -/
def lose (w : World) (loss : Loss FilePath (List UInt8)) : World :=
  { w with
    cache := w.cache.lose loss
    register := fun path ↦ (w.register path).cut fun version ↦
      some version.2 = (w.cache.lose loss).entry path }

end World

def exec (id : ℕ) : (c : Command) → Choice → World → World × Option (Reply c)
  | .mkdir .., o, w => w.reply o w
  | .openNew path _, o, w =>
    if o.fails || (w.cache.entry path).isSome then (w, some (.error .unknown))
    else
      ({ w with
        cache := w.cache.create path []
        owner := update w.owner w.cache.next (some id) }, some (.ok w.cache.next))
  | .chmod .., o, w => w.reply o w
  | .writeFile handle content, o, w =>
    if o.fails then
      ({ w with cache := w.cache.write handle o.left }, some (.error .unknown))
    else ({ w with cache := w.cache.write handle content }, some (.ok ()))
  | .sync handle, o, w => w.reply o { w with cache := w.cache.sync handle }
  | .close _, o, w => w.reply o w
  | .rename source target, o, w =>
    match w.cache.entry source with
    | none => (w, some (.error .unknown))
    | some inode => w.reply o (w.publish id source target inode)
  | .openDirectory _, o, w => w.reply o w
  | .syncDirectory directory, o, w => w.reply o (w.settle directory)
  | .closeDirectory _, o, w => w.reply o w
  | .respond true, _, w => ({ w with answered := id :: w.answered }, some ())
  | .respond false, _, w => (w, some ())

abbrev Handler := Process Command Reply Unit Failure

/-- The command throws what it replies as a failure. -/
def attempt {α : Type} (c : Command) (h : Reply c = Except Failure α) : Handler α :=
  invoke c fun reply ↦ h ▸ reply

/-- `try` with `finally`. -/
def finallyDo {α : Type} (p : Handler α) (last : Handler Unit) : Handler α := do
  let a ← tryCatch p fun failure ↦ do
    last
    throw failure
  last
  pure a

def syncDirectory (directory : Text) : Handler Unit := do
  attempt (.openDirectory directory) rfl
  finallyDo (attempt (.syncDirectory directory) rfl) (attempt (.closeDirectory directory) rfl)

def atomicWrite (path : FilePath) (value : Value) (mode : ℕ) (uuid : Text) : Handler Unit := do
  attempt (.mkdir path.directory 0o700) rfl
  let temporary := path.temporary uuid
  let handle ← attempt (.openNew temporary mode) rfl
  finallyDo
    (do
      attempt (.chmod handle mode) rfl
      attempt (.writeFile handle (contents value)) rfl
      attempt (.sync handle) rfl)
    (attempt (.close handle) rfl)
  attempt (.rename temporary path) rfl
  syncDirectory path.directory

def serve (call : Write) : Handler Unit :=
  tryCatch
    (do
      atomicWrite call.path call.value call.mode call.uuid
      invoke (.respond true) .ok)
    fun _ ↦ invoke (.respond false) .ok

def handler (call : Write) : Prog Command Reply Unit :=
  (serve call).start () >>= fun _ ↦ .done ()

/-- Any number of writes at once, in one process or in several. -/
def machine (calls : ℕ → Write) : Machine ℕ Command Reply Choice World where
  exec := exec
  admits id _ p := (calls id).path.Target ∧ p = handler (calls id)

end RustdeskConsole.Updater.Persistence
