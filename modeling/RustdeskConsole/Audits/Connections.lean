import Mathlib.Data.List.Nodup
import RustdeskConsole.Audits.Service

namespace RustdeskConsole.Audits.Connections

/-- A property of a body that the DTO lets be left out or be `null`. -/
inductive Field (α : Type)
  | absent
  | null
  | given (value : α)
  deriving DecidableEq

namespace Field

variable {α : Type}

def toOption : Field α → Option α
  | given value => some value
  | _ => none

/-- `value || null` of a text. -/
def truthy (field : Field String) : Option String := orNull field.toOption

/-- `value !== undefined ? value : current`. -/
def orCurrent (field : Field α) (current : Option α) : Option α :=
  match field with
  | absent => current
  | null => none
  | given value => some value

end Field

/-- Numbers are given by what `String` makes of them. -/
structure ConnectionAuditDto where
  id : String
  uuid : Field String
  connId : Field String
  sessionId : String
  ip : Field String
  action : Field String
  peer : Field (List String)
  type : Field ℤ
  note : Field String
  nonce : Field String
  connAuditRef : Field String
  primaryAuth : Field ℤ
  twoFactor : Field ℤ

structure ConnectionAudit where
  id : ℕ
  deviceId : String
  deviceUuid : String
  connId : Option String
  sessionId : Option String
  ip : String
  action : String
  peerId : Option String
  peerName : Option String
  type : ℤ
  requestedAt : Option ℕ
  establishedAt : Option ℕ
  closedAt : Option ℕ
  note : Option String
  nonce : Option String
  connAuditRef : Option String
  primaryAuth : Option ℤ
  twoFactor : Option ℤ
  deriving DecidableEq

inductive Failure
  | notFound (message : String)
  | notNull (column : String)
  | uniqueConstraint

structure Table where
  rows : List ConnectionAudit
  nextId : ℕ

/-- What a report meets: the time, the setting, the devices and the order in
which the database goes through the rows. -/
structure Setting where
  now : ℕ
  cloneIsolation : Bool
  peer : String → Option String
  order : List ConnectionAudit → List ConnectionAudit
  perm : ∀ rows, (order rows).Perm rows

section Service

variable (isolatedDeviceUuid : String → String → String) (setting : Setting)

def resolveDeviceUuid (uuid id : String) : String :=
  if setting.cloneIsolation then
    let isolated := isolatedDeviceUuid uuid id
    if (setting.peer isolated).isSome then isolated
    else if setting.peer uuid = some id then uuid
    else isolated
  else uuid

def findOne (fits : ConnectionAudit → Bool) (rows : List ConnectionAudit) :
    Option ConnectionAudit :=
  (setting.order rows).find? fits

/-- The index on the nonces has that of the row at another row. -/
def nonceTaken (row : ConnectionAudit) (rows : List ConnectionAudit) : Bool :=
  row.nonce.isSome && rows.any fun other ↦ other.id ≠ row.id && other.nonce = row.nonce

def saveRow (row : ConnectionAudit) (table : Table) : Except Failure Table :=
  if nonceTaken row table.rows then .error .uniqueConstraint
  else .ok { table with rows := table.rows.map fun other ↦ if other.id = row.id then row else other }

/-- Columns of the row that take no `NULL`. -/
def insertRow (deviceUuid : Option String) (type : Option ℤ) (row : String → ℤ → ConnectionAudit)
    (table : Table) : Except Failure Table :=
  match deviceUuid, type with
  | none, _ => .error (.notNull "deviceUuid")
  | _, none => .error (.notNull "type")
  | some deviceUuid, some type =>
    let row := { row deviceUuid type with id := table.nextId }
    if nonceTaken row table.rows then .error .uniqueConstraint
    else .ok ⟨table.rows ++ [row], table.nextId + 1⟩

def addConnectionNote (dto : ConnectionAuditDto) (table : Table) : Except Failure Table :=
  match findOne setting (fun row ↦ row.deviceId = dto.id && row.sessionId = some dto.sessionId)
      table.rows with
  | none => .error (.notFound ("Connection audit not found for deviceId=" ++ dto.id ++
      ", sessionId=" ++ dto.sessionId))
  | some row => saveRow { row with note := dto.note.truthy } table

def reportedAction (dto : ConnectionAuditDto) : String :=
  match dto.action.truthy with
  | some action => if action = "new" then "open" else action
  | none => "established"

/-- `String(null)` is a text too. -/
def reportedConnId (dto : ConnectionAuditDto) : Option String :=
  match dto.connId with
  | .absent => none
  | .null => some "null"
  | .given connId => some connId

def reportedUuid (dto : ConnectionAuditDto) : Option String :=
  dto.uuid.toOption.map fun uuid ↦
    if uuid = "" then uuid else resolveDeviceUuid isolatedDeviceUuid setting uuid dto.id

/-- A moment is set once. -/
def stamp (now : ℕ) (due : Bool) (at? : Option ℕ) : Option ℕ :=
  if due && at?.isNone then some now else at?

def updateExistingConnection (row : ConnectionAudit) (dto : ConnectionAuditDto) (table : Table) :
    Except Failure Table :=
  let action := reportedAction dto
  let peer := dto.peer.toOption.getD []
  match dto.type.orCurrent (some row.type) with
  | none => .error (.notNull "type")
  | some type =>
    saveRow { row with
      requestedAt := stamp setting.now (action = "open") row.requestedAt
      establishedAt := stamp setting.now (action = "established") row.establishedAt
      closedAt := stamp setting.now (action = "close") row.closedAt
      sessionId := some dto.sessionId
      ip := dto.ip.truthy.getD row.ip
      peerId := peer[0]? <|> row.peerId
      peerName := peer[1]? <|> row.peerName
      type := type
      connAuditRef :=
        if dto.connAuditRef.orCurrent row.connAuditRef = row.connAuditRef then row.connAuditRef
        else dto.connAuditRef.truthy
      primaryAuth := dto.primaryAuth.orCurrent row.primaryAuth
      twoFactor := dto.twoFactor.orCurrent row.twoFactor
      nonce := dto.nonce.truthy <|> row.nonce
      action := action } table

def createNewConnection (dto : ConnectionAuditDto) (table : Table) : Except Failure Table :=
  let action := reportedAction dto
  let peer := dto.peer.toOption.getD []
  let uuid := reportedUuid isolatedDeviceUuid setting dto
  insertRow uuid (dto.type.orCurrent (some (-1))) (fun deviceUuid type ↦
    { id := 0
      deviceId := dto.id
      deviceUuid := deviceUuid
      connId := reportedConnId dto
      sessionId := some dto.sessionId
      ip := dto.ip.truthy.getD ""
      action := action
      peerId := peer[0]?
      peerName := peer[1]?
      type := type
      requestedAt := stamp setting.now (action = "open") none
      establishedAt := stamp setting.now (action = "established") none
      closedAt := stamp setting.now (action = "close") none
      note := none
      nonce := dto.nonce.truthy
      connAuditRef := dto.connAuditRef.truthy
      primaryAuth := dto.primaryAuth.toOption
      twoFactor := dto.twoFactor.toOption }) table

/-- The condition of the query. What is undefined in it is ignored. -/
def fits (dto : ConnectionAuditDto) (row : ConnectionAudit) : Bool :=
  row.deviceId = dto.id &&
    (reportedUuid isolatedDeviceUuid setting dto).all (row.deviceUuid = ·) &&
    (reportedConnId dto).all (row.connId = some ·)

def upsertConnectionAudit (dto : ConnectionAuditDto) (table : Table) : Except Failure Table :=
  match findOne setting (fits isolatedDeviceUuid setting dto) table.rows with
  | some row => updateExistingConnection setting row dto table
  | none => createNewConnection isolatedDeviceUuid setting dto table

def noteOnly (dto : ConnectionAuditDto) : Bool :=
  dto.uuid.truthy.isNone && dto.note ≠ .absent

def auditConnection (dto : ConnectionAuditDto) (table : Table) : Except Failure Table :=
  if noteOnly dto then addConnectionNote setting dto table
  else upsertConnectionAudit isolatedDeviceUuid setting dto table

end Service

section Records

variable (isolatedDeviceUuid : String → String → String) (setting : Setting)

/-- The connection of a record, or the one that a report is about. -/
abbrev Key := String × Option String × Option String

def ConnectionAudit.key (row : ConnectionAudit) : Key :=
  (row.deviceId, some row.deviceUuid, row.connId)

def own (dto : ConnectionAuditDto) : Key :=
  (dto.id, reportedUuid isolatedDeviceUuid setting dto, reportedConnId dto)

/-- The table after a report, which may have failed. -/
def after (dto : ConnectionAuditDto) (table : Table) : Table :=
  match auditConnection isolatedDeviceUuid setting dto table with
  | .ok table => table
  | .error _ => table

/-- A report has at most changed the record of its connection, or made one. -/
inductive Separated (key : Key) (rows rows' : List ConnectionAudit) : Prop
  | updated (before : List ConnectionAudit) (row row' : ConnectionAudit)
    (later : List ConnectionAudit) : rows = before ++ row :: later → rows' = before ++ row' :: later →
    row.key = key → row'.key = key → Separated key rows rows'
  | created (row : ConnectionAudit) : (∀ other ∈ rows, other.key ≠ key) → rows' = rows ++ [row] →
    row.key = key → Separated key rows rows'

/-- A report names its connection, and its record can be made if there is none. -/
structure Clear (dto : ConnectionAuditDto) (rows : List ConnectionAudit) : Prop where
  uuid : dto.uuid.toOption ≠ none
  connId : dto.connId = .absent → ∀ row ∈ rows, row.deviceId = dto.id →
    some row.deviceUuid = reportedUuid isolatedDeviceUuid setting dto → row.connId = none
  creates : (∀ row ∈ rows, row.key ≠ own isolatedDeviceUuid setting dto) →
    dto.type ≠ .null ∧ ∀ row ∈ rows, row.nonce = none ∨ row.nonce ≠ dto.nonce.truthy

/-- Every record has an id and a connection of its own. -/
structure Table.Sound (table : Table) : Prop where
  ids : (table.rows.map ConnectionAudit.id).Nodup
  fresh : ∀ row ∈ table.rows, row.id < table.nextId
  keys : (table.rows.map ConnectionAudit.key).Nodup

variable {isolatedDeviceUuid setting} {dto : ConnectionAuditDto} {table : Table} {key : Key}
  {rows rows' : List ConnectionAudit} {row row' : ConnectionAudit}

theorem Separated.keeps (h : Separated key rows rows') (hm : row ∈ rows) (hk : row.key ≠ key) :
    row ∈ rows' := by
  cases h with
  | updated before first first' later heq heq' hfirst hfirst' =>
    rw [heq, List.mem_append, List.mem_cons] at hm
    rw [heq', List.mem_append, List.mem_cons]
    rcases hm with hm | rfl | hm
    · exact .inl hm
    · exact absurd hfirst hk
    · exact .inr (.inr hm)
  | created last hno heq hlast =>
    rw [heq]
    exact List.mem_append_left _ hm

theorem Separated.files (h : Separated key rows rows') : ∃ row ∈ rows', row.key = key := by
  cases h with
  | updated before first first' later heq heq' hfirst hfirst' =>
    exact ⟨first', by simp [heq'], hfirst'⟩
  | created last hno heq hlast => exact ⟨last, by simp [heq], hlast⟩

/-- The connections that have a record, after a report. -/
theorem Separated.keys (h : Separated key rows rows') :
    rows'.map ConnectionAudit.key = rows.map ConnectionAudit.key ∨
      key ∉ rows.map ConnectionAudit.key ∧
        rows'.map ConnectionAudit.key = rows.map ConnectionAudit.key ++ [key] := by
  cases h with
  | updated before first first' later heq heq' hfirst hfirst' =>
    exact .inl (by simp [heq, heq', hfirst, hfirst'])
  | created last hno heq hlast =>
    refine .inr ⟨fun hm ↦ ?_, by simp [heq, hlast]⟩
    obtain ⟨other, hother, hkey⟩ := List.mem_map.mp hm
    exact hno other hother hkey

/-- Writing a row back replaces the one of its id. -/
theorem map_replace (hi : (rows.map ConnectionAudit.id).Nodup) (hm : row ∈ rows)
    (hid : row'.id = row.id) : ∃ before later, rows = before ++ row :: later ∧
      (rows.map fun other ↦ if other.id = row'.id then row' else other) =
        before ++ row' :: later := by
  obtain ⟨before, later, rfl⟩ := List.append_of_mem hm
  refine ⟨before, later, rfl, ?_⟩
  rw [List.map_append, List.nodup_append, List.map_cons, List.nodup_cons] at hi
  obtain ⟨-, ⟨hlater, -⟩, hbefore⟩ := hi
  have hkeep : ∀ others : List ConnectionAudit, (∀ other ∈ others, other.id ≠ row.id) →
      (others.map fun other ↦ if other.id = row'.id then row' else other) = others := by
    intro others hne
    refine List.map_congr_left (fun other hm ↦ ?_) |>.trans others.map_id
    exact if_neg (hid ▸ hne other hm)
  rw [List.map_append, List.map_cons, if_pos hid.symm, hkeep before, hkeep later]
  · exact fun other hother heq ↦ hlater (List.mem_map.mpr ⟨other, hother, heq⟩)
  · intro other hother
    exact hbefore other.id (List.mem_map_of_mem hother) row.id (.head _)

/-- Of a clear report, the rows that fit are those of its connection. -/
theorem Clear.fits_iff (hc : Clear isolatedDeviceUuid setting dto rows) (hm : row ∈ rows) :
    fits isolatedDeviceUuid setting dto row = true ↔
      row.key = own isolatedDeviceUuid setting dto := by
  obtain ⟨uuid, huuid⟩ : ∃ uuid, reportedUuid isolatedDeviceUuid setting dto = some uuid := by
    obtain ⟨uuid, hgiven⟩ := Option.ne_none_iff_exists'.mp hc.uuid
    exact ⟨_, by rw [reportedUuid, hgiven]; rfl⟩
  have hconn := hc.connId
  rw [fits, own, ConnectionAudit.key, huuid, reportedConnId]
  cases hgiven : dto.connId with
  | absent =>
    simp only [Option.all_some, Option.all_none, Bool.and_true, Bool.and_eq_true,
      decide_eq_true_eq, Prod.mk.injEq, Option.some.injEq]
    constructor
    · rintro ⟨hid, hu⟩
      exact ⟨hid, hu, hconn hgiven row hm hid (by rw [huuid, hu])⟩
    · rintro ⟨hid, hu, -⟩
      exact ⟨hid, hu⟩
  | null => simp [and_assoc]
  | given connId => simp [and_assoc]

/-- A row that is written back over one of its key changes no other record. -/
theorem saveRow_separated {table' : Table} (h : saveRow row' table = .ok table')
    (hs : table.Sound) (hm : row ∈ table.rows) (hid : row'.id = row.id) (hrow : row.key = key)
    (hrow' : row'.key = key) :
    Separated key table.rows table'.rows ∧ table'.Sound := by
  rw [saveRow] at h
  split at h
  · cases h
  · obtain ⟨before, later, heq, hmap⟩ := map_replace hs.ids hm hid
    obtain rfl := Except.ok.inj h
    have hsep := Separated.updated before row row' later heq hmap hrow hrow'
    refine ⟨hsep, ⟨?_, ?_, ?_⟩⟩
    · have hids := hs.ids
      simp only [hmap]
      rw [heq] at hids
      simpa [hid] using hids
    · intro other hother
      simp only [hmap] at hother
      rcases List.mem_append.mp hother with hb | hl
      · exact hs.fresh other (by simp [heq, hb])
      · rcases List.mem_cons.mp hl with rfl | hl
        · rw [hid]
          exact hs.fresh row hm
        · exact hs.fresh other (by simp [heq, hl])
    · have hkeys := hs.keys
      simp only [hmap]
      rw [heq] at hkeys
      simpa [hrow, hrow'] using hkeys

theorem createNewConnection_eq_ok (hc : Clear isolatedDeviceUuid setting dto table.rows)
    (hno : ∀ row ∈ table.rows, row.key ≠ own isolatedDeviceUuid setting dto) :
    ∃ row, row.key = own isolatedDeviceUuid setting dto ∧ row.id = table.nextId ∧
      createNewConnection isolatedDeviceUuid setting dto table =
        .ok ⟨table.rows ++ [row], table.nextId + 1⟩ := by
  obtain ⟨htype, hnonce⟩ := hc.creates hno
  obtain ⟨uuid, hgiven⟩ := Option.ne_none_iff_exists'.mp hc.uuid
  obtain ⟨deviceUuid, huuid⟩ : ∃ uuid, reportedUuid isolatedDeviceUuid setting dto = some uuid :=
    ⟨_, by rw [reportedUuid, hgiven]; rfl⟩
  obtain ⟨type, hover⟩ : ∃ type, dto.type.orCurrent (some (-1)) = some type := by
    cases hfield : dto.type with
    | absent => exact ⟨-1, rfl⟩
    | null => exact absurd hfield htype
    | given type => exact ⟨type, rfl⟩
  simp only [createNewConnection, insertRow, huuid, hover]
  rw [if_neg]
  · exact ⟨_, by rw [own, huuid]; rfl, rfl, rfl⟩
  · simp only [nonceTaken, Bool.and_eq_true, List.any_eq_true, not_and, not_exists,
      decide_eq_true_eq]
    intro hsome row hm _ heq
    rcases hnonce row hm with hnone | hne
    · rw [← heq, hnone] at hsome
      cases hsome
    · exact hne heq

theorem Table.Sound.add (hs : table.Sound) (hno : ∀ other ∈ table.rows, other.key ≠ row.key)
    (hid : row.id = table.nextId) : Table.Sound ⟨table.rows ++ [row], table.nextId + 1⟩ where
  ids := by
    rw [List.map_append, List.map_singleton, List.nodup_append]
    refine ⟨hs.ids, List.nodup_singleton _, fun id hm last hlast heq ↦ ?_⟩
    obtain ⟨other, hother, rfl⟩ := List.mem_map.mp hm
    have hlt := hs.fresh other hother
    rw [List.mem_singleton.mp hlast, hid] at heq
    omega
  fresh other hm := by
    simp only [List.mem_append, List.mem_singleton] at hm
    rcases hm with hm | rfl
    · have hlt := hs.fresh other hm
      simp only
      omega
    · simp only
      omega
  keys := by
    rw [List.map_append, List.map_singleton, List.nodup_append]
    refine ⟨hs.keys, List.nodup_singleton _, fun key hm last hlast heq ↦ ?_⟩
    obtain ⟨other, hother, rfl⟩ := List.mem_map.mp hm
    exact hno other hother (heq.trans (List.mem_singleton.mp hlast))

/-- A clear report is filed under its connection. -/
theorem after_separated (hs : table.Sound) (hf : noteOnly dto = false)
    (hc : Clear isolatedDeviceUuid setting dto table.rows) :
    Separated (own isolatedDeviceUuid setting dto) table.rows
        (after isolatedDeviceUuid setting dto table).rows ∧
      (after isolatedDeviceUuid setting dto table).Sound := by
  have hupsert : auditConnection isolatedDeviceUuid setting dto table =
      upsertConnectionAudit isolatedDeviceUuid setting dto table := by
    rw [auditConnection, hf, if_neg Bool.false_ne_true]
  rw [after, hupsert, upsertConnectionAudit]
  cases hfound : findOne setting (fits isolatedDeviceUuid setting dto) table.rows with
  | some row =>
    have hm : row ∈ table.rows :=
      (setting.perm table.rows).mem_iff.mp (List.mem_of_find?_eq_some hfound)
    have hkey : row.key = own isolatedDeviceUuid setting dto :=
      (hc.fits_iff hm).mp (List.find?_some hfound)
    dsimp only
    cases hupdate : updateExistingConnection setting row dto table with
    | error e =>
      obtain ⟨before, later, heq⟩ := List.append_of_mem hm
      exact ⟨.updated before row row later heq heq hkey hkey, hs⟩
    | ok table' =>
      simp only [updateExistingConnection] at hupdate
      split at hupdate
      · cases hupdate
      · exact saveRow_separated hupdate hs hm rfl hkey hkey
  | none =>
    have hno : ∀ row ∈ table.rows, row.key ≠ own isolatedDeviceUuid setting dto := by
      intro row hm hkey
      have hnot := List.find?_eq_none.mp hfound row ((setting.perm table.rows).mem_iff.mpr hm)
      exact hnot ((hc.fits_iff hm).mpr hkey)
    obtain ⟨row, hkey, hid, hcreate⟩ := createNewConnection_eq_ok hc hno
    dsimp only
    rw [hcreate]
    exact ⟨.created row hno rfl hkey, hs.add (hkey ▸ hno) hid⟩

/-- Clear reports one after the other, with the connections they are about. -/
inductive Run (isolatedDeviceUuid : String → String → String) (start : Table) :
    List Key → Table → Prop
  | start : Run isolatedDeviceUuid start [] start
  | report {keys : List Key} {table : Table} (setting : Setting) (dto : ConnectionAuditDto) :
    Run isolatedDeviceUuid start keys table → noteOnly dto = false →
    Clear isolatedDeviceUuid setting dto table.rows →
    Run isolatedDeviceUuid start (own isolatedDeviceUuid setting dto :: keys)
      (after isolatedDeviceUuid setting dto table)

/-- After any number of clear reports each connection has one record, which only
its own reports have changed. -/
theorem records_unmixed {start : Table} {keys : List Key}
    (hr : Run isolatedDeviceUuid start keys table) (hs : start.Sound) :
    table.Sound ∧ (∀ row ∈ start.rows, row.key ∉ keys → row ∈ table.rows) ∧
      (∀ key ∈ keys, ∃ row ∈ table.rows, row.key = key) ∧
      ∀ setting dto, noteOnly dto = false → Clear isolatedDeviceUuid setting dto table.rows →
        Separated (own isolatedDeviceUuid setting dto) table.rows
          (after isolatedDeviceUuid setting dto table).rows := by
  suffices h : table.Sound ∧ (∀ row ∈ start.rows, row.key ∉ keys → row ∈ table.rows) ∧
      ∀ key ∈ keys, ∃ row ∈ table.rows, row.key = key from
    ⟨h.1, h.2.1, h.2.2, fun setting dto hf hc ↦ (after_separated h.1 hf hc).1⟩
  induction hr with
  | start => exact ⟨hs, fun row hm _ ↦ hm, nofun⟩
  | @report keys table setting dto hrun hf hc ih =>
    obtain ⟨hsound, hkeep, hfiled⟩ := ih
    obtain ⟨hsep, hsound'⟩ := after_separated hsound hf hc
    refine ⟨hsound', fun row hm hk ↦ ?_, fun key hm ↦ ?_⟩
    · rw [List.mem_cons, not_or] at hk
      exact hsep.keeps (hkeep row hm hk.2) hk.1
    · rcases List.mem_cons.mp hm with rfl | hm
      · exact hsep.files
      · obtain ⟨row, hrow, hkey⟩ := hfiled key hm
        have hkeys : key ∈ (after isolatedDeviceUuid setting dto table).rows.map
            ConnectionAudit.key := by
          have hin : key ∈ table.rows.map ConnectionAudit.key := List.mem_map.mpr ⟨row, hrow, hkey⟩
          obtain heq | ⟨-, heq⟩ := hsep.keys
          · rwa [heq]
          · rw [heq]
            exact List.mem_append_left _ hin
        exact List.mem_map.mp hkeys

end Records

section Sample

def sampleSetting : Setting := ⟨0, false, fun _ ↦ none, id, fun rows ↦ .refl rows⟩

def sampleReport (connId : Field String) (action : String) : ConnectionAuditDto where
  id := "1"
  uuid := .given "u"
  connId := connId
  sessionId := "7"
  ip := .absent
  action := .given action
  peer := .absent
  type := .absent
  note := .absent
  nonce := .absent
  connAuditRef := .absent
  primaryAuth := .absent
  twoFactor := .absent

def sampleAfter (connId action : String) (table : Table) : Table :=
  after (fun uuid _ ↦ uuid) sampleSetting (sampleReport (.given connId) action) table

def sampleFirst : Table := sampleAfter "5" "new" ⟨[], 1⟩

/-- Two connections of one device, of which the first is closed. -/
def sampleThird : Table := sampleAfter "5" "close" (sampleAfter "6" "new" sampleFirst)

theorem sampleReport_clear (connId action : String) (rows : List ConnectionAudit) :
    Clear (fun uuid _ ↦ uuid) sampleSetting (sampleReport (.given connId) action) rows where
  uuid := Option.some_ne_none _
  connId := nofun
  creates _ := ⟨nofun, fun row _ ↦ em (row.nonce = none)⟩

theorem sampleRun {keys : List Key} {table : Table} (connId action : String)
    (hr : Run (fun uuid _ ↦ uuid) ⟨[], 1⟩ keys table) :
    Run (fun uuid _ ↦ uuid) ⟨[], 1⟩ (("1", some "u", some connId) :: keys)
      (sampleAfter connId action table) :=
  .report sampleSetting (sampleReport (.given connId) action) hr rfl
    (sampleReport_clear connId action table.rows)

theorem sample_records : Run (fun uuid _ ↦ uuid) ⟨[], 1⟩
    [("1", some "u", some "5"), ("1", some "u", some "6"), ("1", some "u", some "5")] sampleThird ∧
    sampleThird.Sound ∧ sampleThird.rows.map (fun row ↦ (row.connId, row.action)) =
      [(some "5", "close"), (some "6", "open")] := by
  have hrun := sampleRun "5" "close" (sampleRun "6" "new" (sampleRun "5" "new" .start))
  have hempty : Table.Sound ⟨[], 1⟩ := ⟨by simp, by simp, by simp⟩
  exact ⟨hrun, (records_unmixed hrun hempty).1, by decide +kernel⟩

/-- A report without `conn_id` takes the record of another connection. -/
theorem record_mixed : ¬ ∀ (isolatedDeviceUuid : String → String → String)
    (reports : List (Setting × ConnectionAuditDto)) (setting : Setting) (dto : ConnectionAuditDto),
    (∀ report ∈ reports, noteOnly report.2 = false) → noteOnly dto = false →
      let table := reports.foldl (fun table report ↦
        after isolatedDeviceUuid report.1 report.2 table) ⟨[], 1⟩
      Separated (own isolatedDeviceUuid setting dto) table.rows
        (after isolatedDeviceUuid setting dto table).rows := by
  intro hall
  have hsep : Separated ("1", some "u", none) sampleFirst.rows _ :=
    hall (fun uuid _ ↦ uuid) [(sampleSetting, sampleReport (.given "5") "new")] sampleSetting
      (sampleReport .absent "close") (by simp [noteOnly, sampleReport]) rfl
  obtain ⟨row, hm, hkey⟩ := hsep.files
  revert hkey
  revert row
  decide +kernel

end Sample

end RustdeskConsole.Audits.Connections
