import Mathlib.Data.Int.Notation
import Mathlib.Data.List.Basic
import RustdeskConsole.Effects.Machine

namespace RustdeskConsole.Audits

open Effects

/-- What a JSON text of an event holds. Reading the properties of `null` throws,
and so does slicing `files` that are no list. -/
inductive Info (ι : Type)
  | malformed
  | unreadable
  | object (info : ι)
  deriving DecidableEq

def Info.read {ι : Type} (fallback : ι) : Info ι → Option ι
  | .malformed => some fallback
  | .unreadable => none
  | .object info => some info

/-- `s || null` -/
def orNull (s : Option String) : Option String := s.filter (· ≠ "")

/-- The row of an event. `nonce` has a unique index of its own. -/
structure Audit (δ : Type) where
  id : ℕ
  deviceId : String
  deviceUuid : String
  nonce : Option String
  data : δ
  deriving DecidableEq

/-- An event as it comes in. It has no data if its info cannot be read. -/
structure Entry (δ : Type) where
  deviceId : String
  uuid : String
  nonce : Option String
  data : Option δ

section File

inductive FileAuditType
  | send
  | receive
  deriving DecidableEq

structure FileInfo where
  ip : Option String
  name : Option String
  num : Option ℤ
  files : Option (List (String × ℤ))
  deriving DecidableEq

/-- `connId` is the number as `String` writes it. -/
structure FileAuditDto where
  id : String
  uuid : String
  peerId : String
  connId : Option String
  type : Option FileAuditType
  path : Option String
  isFile : Bool
  info : Info FileInfo
  nonce : Option String
  deriving DecidableEq

structure FileData where
  peerId : String
  connId : Option String
  type : FileAuditType
  path : Option String
  isFile : Bool
  clientIp : String
  clientName : String
  fileCount : ℤ
  files : List (String × ℤ)
  deriving DecidableEq

def fileData (dto : FileAuditDto) (info : FileInfo) : FileData where
  peerId := dto.peerId
  connId := dto.connId
  type := dto.type.getD .send
  path := orNull dto.path
  isFile := dto.isFile
  clientIp := info.ip.getD ""
  clientName := info.name.getD ""
  fileCount := info.num.getD 0
  files := (info.files.map (List.take 10)).getD []

def fileEntry (dto : FileAuditDto) : Entry FileData where
  deviceId := dto.id
  uuid := dto.uuid
  nonce := dto.nonce
  data := (dto.info.read ⟨some "", some "", some 0, some []⟩).map (fileData dto)

end File

section Alarm

structure AlarmInfo where
  id : Option String
  ip : Option String
  name : Option String
  deriving DecidableEq

structure AlarmAuditDto where
  id : String
  uuid : String
  typ : ℕ
  info : Info AlarmInfo
  connId : Option String
  nonce : Option String
  connAuditRef : Option String
  deriving DecidableEq

structure AlarmData where
  typ : ℕ
  infoId : Option String
  infoIp : String
  infoName : Option String
  connId : Option String
  connAuditRef : Option String
  deriving DecidableEq

def alarmData (dto : AlarmAuditDto) (info : AlarmInfo) : AlarmData where
  typ := dto.typ
  infoId := orNull info.id
  infoIp := info.ip.getD ""
  infoName := orNull info.name
  connId := dto.connId
  connAuditRef := orNull dto.connAuditRef

def alarmEntry (dto : AlarmAuditDto) : Entry AlarmData where
  deviceId := dto.id
  uuid := dto.uuid
  nonce := dto.nonce
  data := (dto.info.read ⟨none, some "", none⟩).map (alarmData dto)

end Alarm

section Rows

variable {δ : Type}

def Audit.key (row : Audit δ) : String × Option String := (row.deviceId, row.nonce)

def Entry.key (entry : Entry δ) : String × Option String := (entry.deviceId, orNull entry.nonce)

/-- The unique index on the nonces. It lets any number of rows be without one. -/
def Indexed (rows : List (Audit δ)) : Prop :=
  rows.Pairwise fun row later ↦ row.nonce = none ∨ row.nonce ≠ later.nonce

variable {rows : List (Audit δ)} {row other : Audit δ}

theorem indexed_append (hi : Indexed rows)
    (hn : row.nonce = none ∨ ∀ other ∈ rows, other.nonce ≠ row.nonce) :
    Indexed (rows ++ [row]) := by
  refine List.pairwise_append.mpr ⟨hi, List.pairwise_singleton .., fun other hm last hl ↦ ?_⟩
  rw [List.mem_singleton.mp hl]
  rcases hn with hn | hn
  · by_cases ho : other.nonce = none
    · exact .inl ho
    · exact .inr fun heq ↦ ho (heq.trans hn)
  · exact .inr (hn other hm)

/-- A row with a nonce is the only one of its key. -/
theorem Indexed.filter_eq (hi : Indexed rows) (hm : row ∈ rows) (hn : row.nonce ≠ none) :
    rows.filter (fun other ↦ other.key = row.key) = [row] := by
  induction rows with
  | nil => cases hm
  | cons first rows ih =>
    obtain ⟨hfirst, hrest⟩ := List.pairwise_cons.mp hi
    rcases List.mem_cons.mp hm with rfl | hm
    · have hothers : rows.filter (fun other ↦ other.key = row.key) = [] := by
        refine List.filter_eq_nil_iff.mpr fun other ho hkey ↦ ?_
        rcases hfirst other ho with hnone | hne
        · exact hn hnone
        · exact hne (Prod.mk.inj (of_decide_eq_true hkey)).2.symm
      rw [List.filter_cons_of_pos (by simp), hothers]
    · have hne : first.key ≠ row.key := by
        intro hkey
        obtain ⟨-, hnonce⟩ := Prod.mk.inj hkey
        rcases hfirst row hm with hnone | hne
        · exact hn (hnonce.symm.trans hnone)
        · exact hne hnonce
      rw [List.filter_cons_of_neg (by simpa using hne)]
      exact ih hrest hm

end Rows

inductive Failure
  | database (message : String)
  | uniqueConstraint
  | typeError
  deriving DecidableEq

structure Call (ρ : Type) where
  id : ℕ
  request : ρ
  deriving DecidableEq

/-- A call has begun, its query for a row of its key has found one or not, its row
was refused by the index, the query after that has found none, and it has ended. -/
inductive Event (δ : Type)
  | began
  | looked (found : Bool)
  | refused
  | missed
  | answered (result : Except Failure (Audit δ))
  deriving DecidableEq

/-- The table of one kind of events. -/
structure World (ρ δ : Type) where
  rows : List (Audit δ)
  nextId : ℕ
  history : List (Call ρ × Event δ)

/-- What the database and the rest of the console bring into a command. -/
structure Outcome where
  failure : Option String
  cloneIsolation : Bool
  peer : Option String

inductive Command (δ : Type)
  | isDeviceCloneIsolationEnabled
  | findPeer (uuid : String)
  | findOne (deviceId nonce : String)
  | save (deviceId deviceUuid : String) (nonce : Option String) (data : δ)
  | findAgain (deviceId nonce : String)
  | answer (result : Except Failure (Audit δ))

@[reducible] def Reply {δ : Type} : Command δ → Type
  | .isDeviceCloneIsolationEnabled => Bool
  | .findPeer _ => Except Failure (Option String)
  | .findOne .. | .findAgain .. => Except Failure (Option (Audit δ))
  | .save .. => Except Failure (Audit δ)
  | .answer _ => Unit

variable {ρ δ : Type}

def find (rows : List (Audit δ)) (deviceId nonce : String) : Option (Audit δ) :=
  rows.find? fun row ↦ row.key = (deviceId, some nonce)

/-- The index on the nonces has one already. -/
def taken (rows : List (Audit δ)) (nonce : Option String) : Bool :=
  nonce.isSome && rows.any fun row ↦ row.nonce = nonce

def World.note (w : World ρ δ) (call : Call ρ) (event : Event δ) : World ρ δ :=
  { w with history := (call, event) :: w.history }

def World.insert (w : World ρ δ) (row : Audit δ) : World ρ δ :=
  { w with rows := w.rows ++ [row], nextId := w.nextId + 1 }

/-- `findAgain` is the query of `findOne`, made when a row has been refused. -/
def exec (call : Call ρ) : (c : Command δ) → Outcome → World ρ δ → World ρ δ × Option (Reply c)
  | .isDeviceCloneIsolationEnabled, o, w => (w.note call .began, some o.cloneIsolation)
  | .findPeer _, o, w =>
    match o.failure with
    | some message => (w, some (.error (.database message)))
    | none => (w, some (.ok o.peer))
  | .findOne deviceId nonce, o, w =>
    match o.failure with
    | some message => (w, some (.error (.database message)))
    | none =>
      let found := find w.rows deviceId nonce
      (w.note call (.looked found.isSome), some (.ok found))
  | .save deviceId deviceUuid nonce data, o, w =>
    match o.failure with
    | some message => (w, some (.error (.database message)))
    | none =>
      if taken w.rows nonce then (w.note call .refused, some (.error .uniqueConstraint))
      else
        let row := ⟨w.nextId, deviceId, deviceUuid, nonce, data⟩
        (w.insert row, some (.ok row))
  | .findAgain deviceId nonce, o, w =>
    match o.failure with
    | some message => (w, some (.error (.database message)))
    | none =>
      match find w.rows deviceId nonce with
      | none => (w.note call .missed, some (.ok none))
      | some row => (w, some (.ok (some row)))
  | .answer result, _, w => (w.note call (.answered result), some ())

abbrev Handler (δ : Type) := Process (Command δ) Reply Unit Failure

def ask (c : Command δ) : Handler δ (Reply c) := invoke c .ok

/-- The command throws what it replies as a failure. -/
def attempt {α : Type} (c : Command δ) (h : Reply c = Except Failure α) : Handler δ α :=
  invoke c fun reply ↦ h ▸ reply

variable (isolatedDeviceUuid : String → String → String)

def resolveDeviceUuid (uuid id : String) : Handler δ String := do
  let enabled ← ask .isDeviceCloneIsolationEnabled
  if !enabled then
    return uuid
  let isolated := isolatedDeviceUuid uuid id
  let existing ← attempt (.findPeer isolated) rfl
  if existing.isSome then
    return isolated
  let legacy ← attempt (.findPeer uuid) rfl
  return if legacy = some id then uuid else isolated

/-- The row of the same key, if the event has a nonce. -/
def existing (entry : Entry δ) : Handler δ (Option (Audit δ)) :=
  match orNull entry.nonce with
  | none => pure none
  | some nonce => attempt (.findOne entry.deviceId nonce) rfl

/-- What is made of a row that could not be saved. -/
def recover (entry : Entry δ) (err : Failure) : Handler δ (Audit δ) :=
  match orNull entry.nonce, err with
  | some nonce, .uniqueConstraint => do
    match ← attempt (.findAgain entry.deviceId nonce) rfl with
    | some row => pure row
    | none => throw err
  | _, _ => throw err

/-- What `auditFile` and `auditAlarm` have in common. -/
def audit (entry : Entry δ) : Handler δ (Audit δ) := do
  let uuid ← resolveDeviceUuid isolatedDeviceUuid entry.uuid entry.deviceId
  match ← existing entry with
  | some row => pure row
  | none =>
    match entry.data with
    | none => throw .typeError
    | some data =>
      tryCatch (attempt (.save entry.deviceId uuid (orNull entry.nonce) data) rfl) (recover entry)

def auditFile (dto : FileAuditDto) : Handler FileData (Audit FileData) :=
  audit isolatedDeviceUuid (fileEntry dto)

def auditAlarm (dto : AlarmAuditDto) : Handler AlarmData (Audit AlarmData) :=
  audit isolatedDeviceUuid (alarmEntry dto)

def handler (serve : Handler δ (Audit δ)) : Prog (Command δ) Reply Unit :=
  serve.start () >>= fun x ↦ .call (.answer x.1) .done

/-- Any number of requests of one kind at once. A call takes no part twice. -/
def machine (serve : ρ → Handler δ (Audit δ)) :
    Machine (Call ρ) (Command δ) Reply Outcome (World ρ δ) where
  exec := exec
  admits call w p := (∀ event, (call, event) ∉ w.history) ∧ p = handler (serve call.request)

end RustdeskConsole.Audits
