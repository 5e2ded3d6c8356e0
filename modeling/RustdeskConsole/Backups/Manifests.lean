import RustdeskConsole.Backups.Scanning

namespace RustdeskConsole.Backups

open Collections Posix Serialization

variable {e : Environment} {context : BackupContext} {files : List FileEntry} {entry : FileEntry}

theorem get?_wellFormed {value found : Value} {key : String} (hw : value.WellFormed)
    (h : value.get? key = some found) : found.WellFormed := by
  unfold Value.get? at h
  split at h
  · obtain ⟨before, after, heq, -⟩ := List.lookup_eq_some_iff.mp h
    exact membersWellFormed_iff.mp hw.2 (key.toList, found) (by simp [heq])
  · cases h

theorem elementsWellFormed_iff {elements : List Value} :
    ElementsWellFormed elements ↔ ∀ element ∈ elements, element.WellFormed := by
  induction elements with
  | nil => simp [ElementsWellFormed]
  | cons element elements ih => rw [ElementsWellFormed, ih, List.forall_mem_cons]

theorem guard_then {α : Type} {p : Prop} [Decidable p] {f : Unit → Option α} {a : α} :
    ((guard p : Option Unit) >>= f) = some a ↔ p ∧ f () = some a := by
  by_cases h : p <;> simp [guard, h, failure]

theorem guard_bind {α : Type} {p : Prop} [Decidable p] {f : Unit → Option α} {a : α} :
    (guard p : Option Unit).bind f = some a ↔ p ∧ f () = some a :=
  guard_then

/-- What the acceptance of a manifest says of its entries. -/
structure Accepted (context : BackupContext) (manifest : Manifest) : Prop where
  wellFormed : ElementsWellFormed manifest.files
  entries : manifest.files.mapM validEntry = some manifest.entries
  databaseFile : manifest.databaseFile = Backups.databaseFile context.database.kind

theorem acceptManifest_eq_some {value : Value} {manifest : Manifest}
    (h : acceptManifest e context value = some manifest) :
    value.get? "files" = some (.array manifest.files) ∧
      manifest.files.mapM validEntry = some manifest.entries ∧
      manifest.databaseFile = databaseFile context.database.kind := by
  rw [acceptManifest] at h
  simp only [guard_then] at h
  obtain ⟨-, -, -, -, -, h⟩ := h
  obtain ⟨hash, -, h₁⟩ := Option.bind_eq_some_iff.mp h
  obtain ⟨files, hfiles, h₂⟩ := Option.bind_eq_some_iff.mp (guard_then.mp h₁).2
  obtain ⟨entries, hentries, h₃⟩ := Option.bind_eq_some_iff.mp (guard_then.mp h₂).2
  obtain rfl := Option.some.inj h₃
  obtain ⟨found, hfound, helements⟩ := Option.bind_eq_some_iff.mp hfiles
  cases found with
  | array elements =>
    obtain rfl := Option.some.inj helements
    exact ⟨hfound, hentries, rfl⟩
  | _ => cases helements

theorem acceptManifest_spec {value : Value} {manifest : Manifest} (hw : value.WellFormed)
    (h : acceptManifest e context value = some manifest) : Accepted context manifest := by
  obtain ⟨hfiles, hentries, hfile⟩ := acceptManifest_eq_some h
  exact ⟨get?_wellFormed hw hfiles, hentries, hfile⟩

theorem mapM_eq_some {values : List Value} {entries : List FileEntry}
    (h : values.mapM validEntry = some entries) :
    List.Forall₂ (fun value entry ↦ validEntry value = some entry) values entries := by
  induction values generalizing entries with
  | nil =>
    obtain rfl := Option.some.inj h
    exact .nil
  | cons value values ih =>
    rw [List.mapM_cons] at h
    obtain ⟨entry, hentry, h₁⟩ := Option.bind_eq_some_iff.mp h
    obtain ⟨rest, hrest, h₂⟩ := Option.bind_eq_some_iff.mp h₁
    obtain rfl := Option.some.inj h₂
    exact .cons hentry (ih hrest)

theorem validEntry_path {value : Value} (h : validEntry value = some entry) :
    isEntryPath entry.path = true := by
  rw [validEntry] at h
  obtain ⟨path, -, h₁⟩ := Option.bind_eq_some_iff.mp h
  obtain ⟨hpath, h₂⟩ := guard_then.mp h₁
  obtain ⟨kind, -, h₃⟩ := Option.bind_eq_some_iff.mp h₂
  obtain ⟨size, -, h₄⟩ := Option.bind_eq_some_iff.mp h₃
  obtain ⟨mode, -, h₅⟩ := Option.bind_eq_some_iff.mp h₄
  obtain ⟨-, h₆⟩ := guard_then.mp h₅
  obtain ⟨uid, -, h₇⟩ := Option.bind_eq_some_iff.mp h₆
  obtain ⟨gid, -, h₈⟩ := Option.bind_eq_some_iff.mp h₇
  obtain ⟨-, h₉⟩ := guard_then.mp h₈
  obtain rfl := Option.some.inj h₉
  exact hpath

theorem isEntryPath_spec {path : Text} (h : isEntryPath path = true) :
    ∃ rest, rest ≠ [] ∧ (∀ name ∈ rest, Plain name) ∧ path = ofParts rest := by
  simp only [isEntryPath, Bool.and_eq_true, List.all_eq_true, decide_eq_true_eq] at h
  refine ⟨segments path, List.splitOn_ne_nil '/' path, fun name hm ↦ ?_,
    (List.intercalate_splitOn '/').symm⟩
  obtain ⟨⟨hempty, hcurrent⟩, habove⟩ := h.2 name hm
  exact ⟨hempty, hcurrent, habove, not_mem_segment hm⟩

/-- The paths that a manifest has all lead to below the data directory. -/
def Valid (entries : List FileEntry) : Prop := ∀ entry ∈ entries, isEntryPath entry.path = true

theorem Valid.descend {entries : List FileEntry} (h : Valid entries) (hm : entry ∈ entries) :
    ∃ rest, rest ≠ [] ∧ (∀ name ∈ rest, Plain name) ∧ entry.path = ofParts rest ∧
      ∀ directory, Backups.descend directory entry.path = directory ++ rest := by
  obtain ⟨rest, hne, hplain, hpath⟩ := isEntryPath_spec (h entry hm)
  refine ⟨rest, hne, hplain, hpath, fun directory ↦ ?_⟩
  rw [hpath, descend_ofParts hplain]

theorem Accepted.valid {manifest : Manifest} (h : Accepted context manifest) :
    Valid manifest.entries := by
  intro entry hm
  obtain ⟨i, hi, rfl⟩ := List.getElem_of_mem hm
  have hall := mapM_eq_some h.entries
  exact validEntry_path ((List.forall₂_iff_get.mp hall).2 i (hall.length_eq ▸ hi) hi)

theorem plain_databaseFile {kind : DatabaseKind} : Plain (databaseFile kind) := by
  cases kind <;> decide

theorem kind?_text (kind : Kind) : kind? kind.text = some kind := by
  cases kind <;> rfl

theorem get?_named {members : List (String × Value)} {key : String} :
    (named members).get? key = members.lookup key := by
  rw [named, Value.get?]
  induction members with
  | nil => rfl
  | cons member members ih =>
    have hkey : (key.toList == member.1.toList) = (key == member.1) := by
      rw [Bool.eq_iff_iff, beq_iff_eq, beq_iff_eq, String.toList_inj]
    rw [List.map_cons, List.lookup_cons, List.lookup_cons, hkey, ih]

theorem get?_toJson (entry : FileEntry) : entry.toJson.get? "path" = some (.string entry.path) ∧
    entry.toJson.get? "kind" = some (.string entry.kind.text) ∧
    entry.toJson.get? "size" = some (.integer entry.size) ∧
    entry.toJson.get? "mode" = some (.integer entry.mode) ∧
    entry.toJson.get? "uid" = some (.integer entry.uid) ∧
    entry.toJson.get? "gid" = some (.integer entry.gid) ∧
    entry.toJson.get? "sha256" = entry.sha256.map Value.string := by
  simp only [FileEntry.toJson, get?_named]
  cases entry.sha256 <;> exact ⟨rfl, rfl, rfl, rfl, rfl, rfl, rfl⟩

theorem safeInteger?_eq_some {n m : ℕ} :
    safeInteger? (.integer n) = some m ↔ n ≤ MAX_SAFE_INTEGER ∧ n = m := by
  rw [safeInteger?]
  split
  · next h => simp only [Int.toNat_natCast, Option.some.injEq]; omega
  · next h => simp only [reduceCtorEq, false_iff]; omega

/-- What the JSON of an entry is read as, if it is valid. -/
theorem validEntry_toJson {found : FileEntry} (h : validEntry entry.toJson = some found) :
    found = entry := by
  obtain ⟨hpath, hkind, hsize, hmode, huid, hgid, hsha⟩ := get?_toJson entry
  rw [validEntry, hpath, hkind, hsize, hmode, huid, hgid, hsha] at h
  obtain ⟨path, hp, h₁⟩ := Option.bind_eq_some_iff.mp h
  obtain ⟨-, h₂⟩ := guard_then.mp h₁
  obtain ⟨kind, hk, h₃⟩ := Option.bind_eq_some_iff.mp h₂
  obtain ⟨size, hs, h₄⟩ := Option.bind_eq_some_iff.mp h₃
  obtain ⟨mode, hm, h₅⟩ := Option.bind_eq_some_iff.mp h₄
  obtain ⟨-, h₆⟩ := guard_then.mp h₅
  obtain ⟨uid, hu, h₇⟩ := Option.bind_eq_some_iff.mp h₆
  obtain ⟨gid, hg, h₈⟩ := Option.bind_eq_some_iff.mp h₇
  obtain ⟨-, h₉⟩ := guard_then.mp h₈
  obtain rfl := Option.some.inj h₉
  obtain rfl := Option.some.inj hp
  obtain rfl := Option.some.inj ((kind?_text entry.kind).symm.trans hk)
  obtain ⟨-, rfl⟩ := safeInteger?_eq_some.mp hs
  obtain ⟨-, rfl⟩ := safeInteger?_eq_some.mp hm
  obtain ⟨-, rfl⟩ := safeInteger?_eq_some.mp hu
  obtain ⟨-, rfl⟩ := safeInteger?_eq_some.mp hg
  have hsha : ((entry.sha256.map Value.string).bind text?) = entry.sha256 := by
    cases entry.sha256 <;> rfl
  rw [hsha]

theorem wellFormed_toJson : entry.toJson.WellFormed := by
  cases hash : entry.sha256 <;>
    simp [FileEntry.toJson, named, Value.WellFormed, hash, MembersWellFormed]

/-- Entries that are written as a manifest has its files are the entries of the manifest. -/
theorem entries_eq {manifest : Manifest} (ha : Accepted context manifest)
    (h : stringify (.array (files.map FileEntry.toJson)) = stringify (.array manifest.files)) :
    manifest.entries = files := by
  have hw : (Value.array (files.map FileEntry.toJson)).WellFormed := by
    refine elementsWellFormed_iff.mpr fun element hm ↦ ?_
    obtain ⟨entry, -, rfl⟩ := List.mem_map.mp hm
    exact wellFormed_toJson
  have heq := Value.array.inj (stringify_injOn hw ha.wellFormed h)
  have hall := mapM_eq_some ha.entries
  rw [← heq, List.forall₂_map_left_iff] at hall
  exact (List.forall₂_eq_eq_eq ▸ hall.imp fun _ _ hv ↦ (validEntry_toJson hv).symm).symm

theorem safeInteger?_bind {α : Type} {n : ℕ} {f : ℕ → Option α} {a : α} :
    (safeInteger? (.integer n)).bind f = some a ↔ n ≤ MAX_SAFE_INTEGER ∧ f n = some a := by
  rw [Option.bind_eq_some_iff]
  constructor
  · rintro ⟨m, hm, hf⟩
    obtain ⟨hle, rfl⟩ := safeInteger?_eq_some.mp hm
    exact ⟨hle, hf⟩
  · rintro ⟨hle, hf⟩
    exact ⟨n, safeInteger?_eq_some.mpr ⟨hle, rfl⟩, hf⟩

/-- The numbers of an entry that are kept exactly. -/
structure Exact (entry : FileEntry) : Prop where
  size : entry.size ≤ MAX_SAFE_INTEGER
  uid : entry.uid ≤ MAX_SAFE_INTEGER
  gid : entry.gid ≤ MAX_SAFE_INTEGER

theorem validEntry_toJson_iff : validEntry entry.toJson = some entry ↔
    isEntryPath entry.path = true ∧ Exact entry ∧ entry.mode ≤ 0o777 ∧
      (entry.kind = .directory ∨ (entry.sha256.map isHash).getD false = true) := by
  obtain ⟨hpath, hkind, hsize, hmode, huid, hgid, hsha⟩ := get?_toJson entry
  have hhash : ((entry.sha256.map Value.string).bind text?) = entry.sha256 := by
    cases entry.sha256 <;> rfl
  have hsafe : entry.mode ≤ 0o777 → entry.mode ≤ MAX_SAFE_INTEGER := by
    rw [MAX_SAFE_INTEGER]
    omega
  rw [validEntry, hpath, hkind, hsize, hmode, huid, hgid, hsha, hhash]
  simp only [Option.bind_eq_bind, Option.bind_some, text?, kind?_text, guard_bind,
    safeInteger?_bind, Bool.or_eq_true, decide_eq_true_eq]
  constructor
  · rintro ⟨hp, hs, -, hm, hu, hg, hh, -⟩
    exact ⟨hp, ⟨hs, hu, hg⟩, hm, hh⟩
  · rintro ⟨hp, ⟨hs, hu, hg⟩, hm, hh⟩
    exact ⟨hp, hs, hsafe hm, hm, hu, hg, hh, rfl⟩

theorem isEntryPath_ofParts {rest : List Name} (hne : rest ≠ [])
    (hplain : ∀ name ∈ rest, Plain name) : isEntryPath (ofParts rest) = true ↔
      (ofParts rest).contains '\\' = false ∧ (ofParts rest).contains ':' = false ∧
        containsControl (ofParts rest) = false := by
  have hsegments : segments (ofParts rest) = rest :=
    segments_ofParts hne fun name hm ↦ (hplain name hm).noSeparator
  have hhead : ¬(ofParts rest).head? = some '/' := by
    refine of_decide_eq_false (isAbsolute_ofParts (fun name hm ↦ (hplain name hm).noSeparator)
      fun hhead ↦ ?_)
    exact (hplain [] (List.mem_of_mem_head? hhead)).notEmpty rfl
  have hlength : 0 < (ofParts rest).length :=
    List.length_pos_iff.mpr (ofParts_ne_nil hne fun name hm ↦ (hplain name hm).notEmpty)
  have hall : rest.all (fun part ↦ part ≠ [] && part ≠ current && part ≠ above) = true := by
    rw [List.all_eq_true]
    intro name hm
    simp [(hplain name hm).notEmpty, (hplain name hm).notCurrent, (hplain name hm).notAbove]
  simp only [isEntryPath, hsegments, hall, hhead, hlength, ne_eq, not_false_eq_true, decide_true,
    Bool.and_true, Bool.true_and, Bool.and_eq_true, Bool.not_eq_true', and_assoc]

theorem mapM_toJson (h : ∀ entry ∈ files, validEntry entry.toJson = some entry) :
    (files.map FileEntry.toJson).mapM validEntry = some files := by
  induction files with
  | nil => rfl
  | cons entry files ih =>
    rw [List.map_cons, List.mapM_cons, h entry List.mem_cons_self,
      ih fun entry hm ↦ h entry (List.mem_cons_of_mem _ hm)]
    rfl

/-- A manifest that is accepted where it was written, if its entries are. -/
structure Own (e : Environment) (context : BackupContext) (manifest : SnapshotManifest) : Prop where
  jobId : manifest.jobId = context.jobId
  database : manifest.database = context.database.kind
  binding : manifest.binding = binding e context
  databaseFile : manifest.databaseFile = databaseFile context.database.kind
  databaseSha256 : isHash manifest.databaseSha256 = true
  count : manifest.files.length ≤ MAX_FILES

variable {manifest : SnapshotManifest}

theorem get?_manifest (manifest : SnapshotManifest) :
    manifest.toJson.get? "format" = some (.integer 1) ∧
      manifest.toJson.get? "jobId" = some (.string manifest.jobId) ∧
      manifest.toJson.get? "database" = some (.string manifest.database.text) ∧
      manifest.toJson.get? "binding" = some (.string manifest.binding) ∧
      manifest.toJson.get? "databaseFile" = some (.string manifest.databaseFile) ∧
      manifest.toJson.get? "databaseSize" = some (.integer manifest.databaseSize) ∧
      manifest.toJson.get? "databaseSha256" = some (.string manifest.databaseSha256) ∧
      manifest.toJson.get? "files" = some (.array (manifest.files.map FileEntry.toJson)) ∧
      manifest.toJson.get? "details" = some manifest.details := by
  simp only [SnapshotManifest.toJson, get?_named]
  exact ⟨rfl, rfl, rfl, rfl, rfl, rfl, rfl, rfl, rfl⟩

/-- What is read of a manifest that was written. -/
def SnapshotManifest.read (manifest : SnapshotManifest) : Manifest where
  databaseFile := manifest.databaseFile
  databaseSize := some (.integer manifest.databaseSize)
  databaseSha256 := manifest.databaseSha256
  files := manifest.files.map FileEntry.toJson
  entries := manifest.files
  details := some manifest.details

theorem Own.accepted (h : Own e context manifest)
    (hentries : ∀ entry ∈ manifest.files, validEntry entry.toJson = some entry) :
    acceptManifest e context manifest.toJson = some manifest.read := by
  obtain ⟨hformat, hjob, hkind, hbinding, hfile, hsize, hsha, hfiles, hdetails⟩ :=
    get?_manifest manifest
  rw [acceptManifest, hformat, hjob, hkind, hbinding, hfile, hsize, hsha, hfiles, hdetails]
  simp only [Option.bind_eq_bind, Option.bind_some, text?, array?, guard_bind, mapM_toJson hentries]
  simp [isInteger, isText, h.jobId, h.database, h.binding, h.databaseFile, h.databaseSha256,
    h.count, SnapshotManifest.read]

theorem wellFormed_manifest (h : manifest.details.WellFormed) : manifest.toJson.WellFormed := by
  have hfiles : ElementsWellFormed (manifest.files.map FileEntry.toJson) := by
    refine elementsWellFormed_iff.mpr fun element hm ↦ ?_
    obtain ⟨entry, -, rfl⟩ := List.mem_map.mp hm
    exact wellFormed_toJson
  simp [SnapshotManifest.toJson, named, Value.WellFormed, MembersWellFormed, h, hfiles]

/-- A machine that has the digests of what it backs up. -/
def sampleEnvironment : Environment where
  sha256 content :=
    (if content.length = 78 then
      "cc649c213956b6d2d172d433d0ab41bc4b07ae72976498adf656633321e7d9e4"
    else if content.length = 499 then
      "8c931f298cd6fef7c3f9c23e48b5cb1e51cd2452a5871803ed867eaeaa666aaf"
    else if content.length = 501 then
      "897b99c11232cbad4ecb7a3507f028346fca55b22ec9afc7459518947d77406e"
    else "e3b0c44298fc1c149afbf4c8996fb92427ae41e4649b934ca495991b7852b855").toList
  decode content := (content.toByteArray.utf8Decode?.getD #[]).toList
  statfs _ _ := ⟨4096, 1048576⟩
  sqlite3 _ volume := (some "ok\n", volume)
  toISOString := "2026-01-01T00:00:00.000Z".toList
  owner := ⟨1000, 1000⟩
  cwd := []
  depth := 4

def sampleContext : BackupContext where
  jobId := "job-1".toList
  database := .sqlite "/data/console.sqlite".toList
  dataDir := "/data".toList
  backupDir := "/backups".toList
  servicesStopped := true

def sampleDatabase : Location := ["data".toList, "console.sqlite".toList]

def sampleFolder : Node := ⟨.directory, 0o700, ⟨1000, 1000⟩, 1⟩

def sampleFile (content : List UInt8) : Node := ⟨.file content, 0o600, ⟨1000, 1000⟩, 1⟩

def sampleDetails : Value :=
  named [("mode", .integer 0o600), ("uid", .integer 1000), ("gid", .integer 1000)]

end RustdeskConsole.Backups
