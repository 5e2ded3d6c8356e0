import RustdeskConsole.Backups.Reading
import RustdeskConsole.Backups.Restoration

namespace RustdeskConsole.Backups

open Collections Effects Posix Serialization
open Calls hiding call bind_eq_ok written
open Updater (Failure)

variable {e : Environment} {context : BackupContext} {snapshot : BackupSnapshot}
  {volume volume' : Volume} {path staging location : Location} {rest : List Name} {name : Name}
  {files : List FileEntry} {entry : FileEntry} {details value : Value} {content : List UInt8}
  {s s' : System} {u : Unit}

theorem resolve_written (h : ∀ name ∈ location, Plain name) :
    resolve e (Backups.written location) = location := by
  have habsolute : isAbsolute ('/' :: ofParts location) = true := rfl
  rw [resolve, locate, Backups.written, parts_cons, parts_ofParts fun name hm ↦ (h name hm).isPart,
    if_pos habsolute, foldl_enter_of_not_above fun hm ↦ (h above hm).notAbove rfl, List.nil_append]

/-- What is written stands there in the end. -/
theorem atomicWrite_eq_ok (h : atomicWrite e path value s = .ok u s') :
    s'.volume.bytes path = some (encode (stringify value ++ ['\n'])) := by
  obtain ⟨⟨⟩, s₁, hc₁, h₁⟩ := Calls.bind_eq_ok h
  obtain ⟨uuid, s₂, hc₂, h₂⟩ := Calls.bind_eq_ok h₁
  obtain ⟨⟨⟩, s₃, hc₃, h₃⟩ := Calls.bind_eq_ok h₂
  obtain ⟨⟨⟩, s₄, hc₄, h₄⟩ := Calls.bind_eq_ok h₃
  obtain ⟨⟨⟩, s₅, hc₅, h₅⟩ := Calls.bind_eq_ok h₄
  obtain ⟨⟨⟩, s₆, hc₆, h₆⟩ := Calls.bind_eq_ok h₅
  obtain ⟨⟨⟩, s₇, hc₇, h₇⟩ := Calls.bind_eq_ok h₆
  have hmade := (openNew_eq_ok hc₃).2
  have hwritten := writeFile_eq_ok ((chmod_adds.of_ok hc₄).kept _ _ hmade) hc₅
  have hmoved := rename_eq_ok hc₇ []
  rw [List.append_nil, List.append_nil] at hmoved
  rw [(ask_eq_ok h₇).2, bytes_congr hmoved, (ask_eq_ok hc₆).2, hwritten]

/-- The bytes that a manifest is written as. -/
def SnapshotManifest.bytes (manifest : SnapshotManifest) : List UInt8 :=
  encode (stringify manifest.toJson ++ ['\n'])

/-- What describes a snapshot of the files. -/
def describe (e : Environment) (context : BackupContext) (content : List UInt8)
    (files : List FileEntry) (details : Value) : SnapshotManifest where
  jobId := context.jobId
  database := context.database.kind
  binding := binding e context
  createdAt := e.toISOString
  databaseFile := databaseFile context.database.kind
  databaseSize := content.length
  databaseSha256 := e.sha256 content
  files := files
  details := details

/-- Where the snapshot of a job stands. -/
def snapshotPath (e : Environment) (context : BackupContext) : Location :=
  resolve e context.backupDir ++ ["snapshot".toList]

/-- The snapshot of a job that is reported. -/
def completed (e : Environment) (context : BackupContext) (content : List UInt8)
    (files : List FileEntry) (details : Value) : BackupSnapshot where
  schemaVersion := 1
  jobId := context.jobId
  database := context.database.kind
  path := Backups.written (snapshotPath e context)
  createdAt := e.toISOString
  metadata := named [("manifestSha256",
    .string (e.sha256 (describe e context content files details).bytes))]

def keys (values : List Value) : Text := stringify (.array (values.map key))

/-- What the completion of a snapshot leaves. -/
structure Completed (e : Environment) (context : BackupContext) (staging : Location)
    (files : List FileEntry) (details : Value) (volume volume' : Volume)
    (snapshot : BackupSnapshot) (content : List UInt8) : Prop where
  database : volume.bytes (staging ++ [databaseFile context.database.kind]) = some content
  verified : ∃ actual, listing e volume (staging ++ ["files".toList]) [] true e.depth
      (staging ++ ["files".toList]) = some actual ∧ actual.length ≤ MAX_FILES ∧
    actual.length = files.length ∧
      keys (actual.map FileEntry.toJson) = keys (files.map FileEntry.toJson)
  manifest : volume'.bytes (snapshotPath e context ++ ["snapshot.json".toList]) =
    some (describe e context content files details).bytes
  moved : ∀ first ∈ ["files".toList, databaseFile context.database.kind], ∀ rest,
    volume'.node (snapshotPath e context ++ first :: rest) =
      volume.node (staging ++ first :: rest)
  snapshot : snapshot = completed e context content files details

theorem verifyFiles_eq_ok {expected : List Value} (h : verifyFiles e path expected s = .ok u s') :
    s'.volume = s.volume ∧ ∃ actual, listing e s.volume path [] true e.depth path = some actual ∧
      actual.length ≤ MAX_FILES ∧ actual.length = expected.length ∧
        keys (actual.map FileEntry.toJson) = keys expected := by
  obtain ⟨actual, s₁, hc₁, h₁⟩ := Calls.bind_eq_ok h
  obtain ⟨⟨⟩, s₂, hc₂, h₂⟩ := Calls.bind_eq_ok h₁
  obtain ⟨hv, hlisting, hmax⟩ := scanFiles_eq_ok hc₁
  obtain ⟨hlength, rfl⟩ := check_eq_ok hc₂
  obtain ⟨hkeys, rfl⟩ := check_eq_ok h₂
  refine ⟨hv, actual, hlisting, hmax, of_decide_eq_true hlength, ?_⟩
  rw [keys, keys, List.map_map]
  exact of_decide_eq_true hkeys

theorem stored_not_aside {kind : DatabaseKind} {first : Name}
    (h : first ∈ ["files".toList, databaseFile kind]) :
    ¬Aside (staging ++ ["snapshot.json".toList]) (staging ++ first :: rest) := by
  have hhead : ∀ kind, ∀ first ∈ ["files".toList, databaseFile kind], first.head? ≠ some 's' := by
    intro kind
    cases kind <;> decide
  rintro (hp | hp | ⟨suffix, hp⟩)
  · rw [List.dropLast_concat] at hp
    exact not_prefix_append (List.cons_ne_nil _ _) hp
  · obtain ⟨more, hmore⟩ := (List.prefix_append_right_inj staging).mp hp
    exact hhead kind first h (congrArg List.head? (List.cons.inj hmore).1).symm
  · rw [siblingOf, List.dropLast_concat, List.getLastD_concat] at hp
    obtain ⟨more, hmore⟩ := (List.prefix_append_right_inj staging).mp hp
    exact hhead kind first h (congrArg List.head? (List.cons.inj hmore).1).symm

theorem completeSnapshot_eq_ok
    (h : completeSnapshot e context staging (databaseFile context.database.kind) files details s =
      .ok snapshot s') :
    ∃ content, Completed e context staging files details s.volume s'.volume snapshot content := by
  obtain ⟨info, s₁, hc₁, h₁⟩ := Calls.bind_eq_ok h
  obtain ⟨hash, s₂, hc₂, h₂⟩ := Calls.bind_eq_ok h₁
  obtain ⟨⟨⟩, s₃, hc₃, h₃⟩ := Calls.bind_eq_ok h₂
  obtain ⟨⟨⟩, s₄, hc₄, h₄⟩ := Calls.bind_eq_ok h₃
  obtain ⟨⟨⟩, s₅, hc₅, h₅⟩ := Calls.bind_eq_ok h₄
  obtain ⟨⟨⟩, s₆, hc₆, h₆⟩ := Calls.bind_eq_ok h₅
  obtain ⟨manifestHash, s₇, hc₇, h₇⟩ := Calls.bind_eq_ok h₆
  obtain ⟨rfl, rfl⟩ := pure_eq_ok h₇
  have hpath : descend (resolve e context.backupDir) "snapshot".toList = snapshotPath e context :=
    descend_plain (by decide)
  rw [descend_plain plain_databaseFile] at hc₁ hc₂
  rw [hpath] at hc₅ hc₇ ⊢
  rw [descend_plain (by decide)] at hc₃ hc₄ hc₇
  obtain ⟨hinfo, -, hv₁⟩ := stat_eq_ok hc₁
  obtain ⟨⟨content, hcontent, rfl⟩, hv₂⟩ := hashFile_eq_ok hc₂
  obtain ⟨hv₃, actual, hlisting, hverified⟩ := verifyFiles_eq_ok hc₃
  rw [hv₁] at hv₂ hcontent
  rw [hv₂] at hv₃ hlisting
  rw [List.length_map] at hverified
  have hsize : (info.content.bytes?.getD []).length = content.length := by
    have hbytes := hcontent
    rw [Volume.bytes, hinfo, Option.bind_some] at hbytes
    rw [hbytes, Option.getD_some]
  rw [hsize] at hc₄
  have hmoved := rename_eq_ok hc₅
  have hmanifest : s₆.volume.bytes (snapshotPath e context ++ ["snapshot.json".toList]) =
      some (describe e context content files details).bytes := by
    have hwritten := atomicWrite_eq_ok hc₄
    rw [(ask_eq_ok hc₆).2, bytes_congr (hmoved ["snapshot.json".toList]), hwritten]
    rfl
  obtain ⟨⟨stored, hstored, rfl⟩, hv₇⟩ := hashFile_eq_ok hc₇
  obtain rfl := Option.some.inj (hmanifest.symm.trans hstored)
  refine ⟨content, hcontent, ⟨actual, hlisting, hverified⟩, ?_, fun first hfirst rest ↦ ?_, rfl⟩
  · rw [hv₇, hmanifest]
  · rw [hv₇, (ask_eq_ok hc₆).2]
    rw [hmoved, atomicWrite_within.of_ok hc₄ _ (stored_not_aside hfirst), hv₃]

/-- What is documented of the parts that are not the adapter's own: each text is decoded as it was
encoded, and a digest has 64 hexadecimal digits. -/
structure Faithful (e : Environment) : Prop where
  decode : ∀ text, e.decode (encode text) = text
  sha256 : ∀ content, isHash (e.sha256 content) = true

/-- An entry that was listed is valid where its path and its numbers are. -/
theorem validEntry_of_listed {root : Location} {excluded : List Location} {depth : ℕ}
    (hf : Faithful e) (h : listing e volume root excluded true depth root = some files)
    (hm : entry ∈ files) :
    validEntry entry.toJson = some entry ↔ entry.path.contains ':' = false ∧ Exact entry := by
  obtain ⟨name, rest, node, hv, hat⟩ := (listing_lists h).sound entry hm
  obtain ⟨hpath, hplain⟩ := hv.named hat
  have hmode : (entry.mode ≤ 0o777 ∧ entry.path.contains '\\' = false ∧
      containsControl entry.path = false) ∧
        (entry.kind = .directory ∨ (entry.sha256.map isHash).getD false = true) := by
    dsimp only [entryAt] at hat
    split at hat
    · next hsafe =>
      obtain rfl := Option.some.inj hat
      simp only [Bool.and_eq_true, Bool.not_eq_true'] at hsafe
      refine ⟨⟨Nat.and_le_right, hsafe.2⟩, ?_⟩
      by_cases hd : node.content = .directory
      · exact .inl (if_pos hd)
      · refine .inr ?_
        simp [entryOf, hd, hf.sha256]
    · cases hat
  obtain ⟨⟨hmode, hslash, hcontrol⟩, hhash⟩ := hmode
  rw [validEntry_toJson_iff]
  rw [hpath] at hslash hcontrol ⊢
  rw [isEntryPath_ofParts (by simp) hplain]
  constructor
  · rintro ⟨⟨-, hcolon, -⟩, hexact, -⟩
    exact ⟨hcolon, hexact⟩
  · rintro ⟨hcolon, hexact⟩
    exact ⟨⟨hslash, hcolon, hcontrol⟩, hexact, hmode, hhash⟩

/-- What is needed of a snapshot where it is read. -/
structure Kept (e : Environment) (context : BackupContext) (files : List FileEntry)
    (details : Value) (volume : Volume) (content : List UInt8) : Prop where
  database : volume.bytes (snapshotPath e context ++ [databaseFile context.database.kind]) =
    some content
  verified : ∃ actual, listing e volume (snapshotPath e context ++ ["files".toList]) [] true
      e.depth (snapshotPath e context ++ ["files".toList]) = some actual ∧
    actual.length ≤ MAX_FILES ∧ actual.length = files.length ∧
      keys (actual.map FileEntry.toJson) = keys (files.map FileEntry.toJson)
  manifest : volume.bytes (snapshotPath e context ++ ["snapshot.json".toList]) =
    some (describe e context content files details).bytes

theorem Completed.kept {volume'' : Volume}
    (h : Completed e context staging files details volume volume' snapshot content)
    (hk : ∀ rest, volume''.node (snapshotPath e context ++ rest) =
      volume'.node (snapshotPath e context ++ rest)) :
    Kept e context files details volume'' content := by
  obtain ⟨actual, hlisting, hverified⟩ := h.verified
  refine ⟨?_, ⟨actual, ?_, hverified⟩, ?_⟩
  · rw [bytes_congr ((hk _).trans (h.moved _ (by simp) [])), h.database]
  · have hnode : ∀ rest, volume''.node (snapshotPath e context ++ ["files".toList] ++ rest) =
        volume.node (staging ++ ["files".toList] ++ rest) := by
      intro rest
      rw [List.append_assoc, hk, List.append_assoc]
      exact h.moved _ (by simp) rest
    have hlist : listing e volume'' _ [] true e.depth (_ ++ []) =
        listing e volume _ [] true e.depth (_ ++ []) := listing_congr hnode
    rw [List.append_nil, List.append_nil] at hlist
    rw [hlist, hlisting]
  · rw [bytes_congr (hk _), h.manifest]

/-- What is written of the files can be read again. -/
structure Readable (manifest : SnapshotManifest) : Prop where
  names : ∀ entry ∈ manifest.files, entry.path.contains ':' = false
  exact : ∀ entry ∈ manifest.files, Exact entry
  length : manifest.bytes.length ≤ 32 * 1024 * 1024

theorem parse_bytes (hf : Faithful e) {manifest : SnapshotManifest}
    (h : manifest.details.WellFormed) :
    parse (e.decode manifest.bytes) = some manifest.toJson := by
  have hstops : Stops ['\n'] := by simp [Stops, isWord]
  rw [SnapshotManifest.bytes, hf.decode]
  exact parse_stringify_append (wellFormed_manifest h) hstops (by decide)

theorem Kept.own (h : Kept e context files details volume content) (hf : Faithful e) :
    Own e context (describe e context content files details) := by
  obtain ⟨actual, -, hmax, hlength, -⟩ := h.verified
  exact ⟨rfl, rfl, rfl, rfl, hf.sha256 content, hlength ▸ hmax⟩

theorem Kept.readManifest_finds (h : Kept e context files details volume content)
    (hf : Faithful e) (hdetails : details.WellFormed)
    (hnames : (files.map FileEntry.path).Nodup)
    (hvalid : ∀ entry ∈ files, validEntry entry.toJson = some entry)
    (hlength : (describe e context content files details).bytes.length ≤ 32 * 1024 * 1024)
    (hs : snapshot.metadata = named [("manifestSha256",
      .string (e.sha256 (describe e context content files details).bytes))]) :
    Finds (readManifest e context snapshot (snapshotPath e context)) volume
      (describe e context content files details).read := by
  obtain ⟨node, hnode, hcontent⟩ := Volume.bytes_eq_some.mp h.manifest
  have hlink : node.content ≠ .link := by simp [hcontent]
  have hmanifest := h.manifest
  rw [readManifest]
  rw [← descend_plain (by decide)] at hnode hmanifest
  refine .bind (noLinks_finds hnode hlink) (.bind (.stat hnode hlink) (.bind (.assert ?_)
    (.bind (hashFile_finds hmanifest) (.bind (.assert ?_) (.bind (.readFile hmanifest)
    (.bind (.require ?_) (.bind (.require ((h.own hf).accepted hvalid)) (.bind (.assert ?_)
    .pure))))))))
  · rw [hcontent]
    exact decide_eq_true hlength
  · rw [hs, get?_named]
    exact decide_eq_true rfl
  · rw [parse_bytes hf hdetails]
    rfl
  · exact decide_eq_true hnames

theorem noLinks_undisturbed : Preserves System.Undisturbed (noLinks path) :=
  forM_undisturbed fun _ _ ↦ .bind ask_undisturbed fun _ ↦ assert_undisturbed

theorem Kept.verifyDatabase_finds (h : Kept e context files details volume content) :
    Finds (verifyDatabase e (describe e context content files details).read
      (snapshotPath e context)) volume () := by
  obtain ⟨node, hnode, hcontent⟩ := Volume.bytes_eq_some.mp h.database
  have hlink : node.content ≠ .link := by simp [hcontent]
  have hdatabase := h.database
  have hplace : descend (snapshotPath e context)
      (describe e context content files details).read.databaseFile =
        snapshotPath e context ++ [databaseFile context.database.kind] :=
    descend_plain plain_databaseFile
  rw [verifyDatabase, hplace]
  refine .bind (noLinks_finds hnode hlink) (.bind (.stat hnode hlink) (.bind (.assert ?_)
    (.bind (hashFile_finds hdatabase) (.assert ?_))))
  · rw [hcontent]
    exact decide_eq_true rfl
  · exact decide_eq_true rfl

theorem Kept.verifyFiles_finds (h : Kept e context files details volume content) :
    Finds (verifyFiles e (descend (snapshotPath e context) "files".toList)
      (describe e context content files details).read.files) volume () := by
  obtain ⟨actual, hlisting, hmax, hlength, hkeys⟩ := h.verified
  rw [descend_plain (by decide)]
  refine .bind (scanFiles_finds hlisting hmax) (.bind (.assert (decide_eq_true ?_))
    (.assert (decide_eq_true ?_)))
  · rw [hlength]
    exact (List.length_map _).symm
  · rw [← List.map_map]
    exact hkeys

theorem assertContext_undisturbed : Preserves System.Undisturbed (assertContext e context) :=
  .bind assert_undisturbed fun _ ↦ .bind assert_undisturbed fun _ ↦ .bind assert_undisturbed
    fun _ ↦ .bind noLinks_undisturbed fun _ ↦ .bind stat_undisturbed fun _ ↦
    .bind assert_undisturbed fun _ ↦ .bind mkdirAll_undisturbed fun _ ↦
    .bind noLinks_undisturbed fun _ ↦ .bind stat_undisturbed fun _ ↦
    .bind assert_undisturbed fun _ ↦ assert_undisturbed

theorem plain_snapshotPath (h : assertContext e context s = .ok u s') :
    ∀ name ∈ snapshotPath e context, Plain name := by
  obtain ⟨⟨⟩, s₁, hc₁, h₁⟩ := Calls.bind_eq_ok h
  obtain ⟨⟨⟩, s₂, hc₂, h₂⟩ := Calls.bind_eq_ok h₁
  obtain ⟨-, hbackup⟩ := Bool.and_eq_true_iff.mp (check_eq_ok hc₂).1
  intro name hm
  rcases List.mem_append.mp hm with hm | hm
  · exact plain_resolve hbackup name hm
  · rw [List.mem_singleton.mp hm]
    decide

/-- What was written is read, where it can be read at all. -/
theorem Kept.readSnapshot_eq (hk : Kept e context files details s'.volume content)
    (hf : Faithful e) (hdetails : details.WellFormed)
    (hnames : (files.map FileEntry.path).Nodup)
    (hvalid : ∀ entry ∈ files, validEntry entry.toJson = some entry)
    (hlength : (describe e context content files details).bytes.length ≤ 32 * 1024 * 1024)
    (hs : s.Undisturbed) (hcontext : assertContext e context s = .ok u s') :
    ∃ s'', readSnapshot e context (completed e context content files details) s =
      .ok (describe e context content files details).read s'' := by
  have hpath : resolve e (completed e context content files details).path =
      snapshotPath e context := resolve_written (plain_snapshotPath hcontext)
  have hplace : descend (resolve e context.backupDir) "snapshot".toList = snapshotPath e context :=
    descend_plain (by decide)
  obtain ⟨node, hnode, -⟩ := Volume.bytes_eq_some.mp hk.database
  obtain ⟨directory, hdirectory, hd⟩ := Disk.isDirectory_dropLast hnode
  rw [List.dropLast_concat] at hdirectory
  have hfinds : Finds (do
      let path := resolve e (completed e context content files details).path
      check ((completed e context content files details).schemaVersion = 1 &&
          (completed e context content files details).jobId = context.jobId &&
          (completed e context content files details).database = context.database.kind &&
          path = descend (resolve e context.backupDir) "snapshot".toList)
        "BACKUP_SNAPSHOT_MISMATCH" "The backup snapshot does not belong to this job."
      noLinks path
      let manifest ← readManifest e context (completed e context content files details) path
      verifyDatabase e manifest path
      verifyFiles e (descend path "files".toList) manifest.files
      pure manifest) s'.volume (describe e context content files details).read := by
    dsimp only
    rw [hpath]
    refine .bind (.assert ?_) (.bind (noLinks_finds hdirectory (by simp [hd]))
      (.bind (hk.readManifest_finds hf hdetails hnames hvalid hlength rfl)
      (.bind hk.verifyDatabase_finds (.bind hk.verifyFiles_finds .pure))))
    simp only [completed, hplace, decide_true, Bool.and_self]
  obtain ⟨s'', hok, -⟩ := hfinds s' rfl ((assertContext_undisturbed s hs).of_ok hcontext)
  exact ⟨s'', (Effects.Loop.bind_ok hcontext).trans hok⟩

/-- What can be read was written so that it can. -/
theorem Kept.readable {root : Location} {excluded : List Location} {depth : ℕ}
    {manifest : Manifest} {s'' : System} {volume : Volume}
    (hk : Kept e context files details s'.volume content) (hf : Faithful e)
    (hdetails : details.WellFormed)
    (hlisting : listing e volume root excluded true depth root = some files)
    (hcontext : assertContext e context s = .ok u s')
    (h : readSnapshot e context (completed e context content files details) s = .ok manifest s'') :
    Readable (describe e context content files details) := by
  obtain ⟨⟨⟩, s₁, hc₁, h₁⟩ := Calls.bind_eq_ok h
  obtain ⟨-, rfl⟩ := EStateM.Result.ok.inj (hc₁.symm.trans hcontext)
  obtain ⟨⟨⟩, s₂, hc₂, h₂⟩ := Calls.bind_eq_ok h₁
  obtain ⟨⟨⟩, s₃, hc₃, h₃⟩ := Calls.bind_eq_ok h₂
  obtain ⟨found, s₄, hc₄, h₄⟩ := Calls.bind_eq_ok h₃
  obtain ⟨text, value, htext, hlength, hvalue, haccepted⟩ := readManifest_eq_ok hc₄
  have hpath : resolve e (completed e context content files details).path =
      snapshotPath e context := resolve_written (plain_snapshotPath hcontext)
  rw [(noLinks_eq_ok hc₃).1, (check_eq_ok hc₂).2, hpath, descend_plain (by decide),
    hk.manifest] at htext
  obtain rfl := Option.some.inj htext
  rw [parse_bytes hf hdetails] at hvalue
  obtain rfl := Option.some.inj hvalue
  obtain ⟨hfiles, hentries, -⟩ := acceptManifest_eq_some haccepted
  obtain ⟨-, -, -, -, -, -, -, hwritten, -⟩ :=
    get?_manifest (describe e context content files details)
  have hall := mapM_eq_some hentries
  rw [← Value.array.inj (Option.some.inj (hwritten.symm.trans hfiles)),
    List.forall₂_map_left_iff] at hall
  have hvalid : ∀ entry ∈ files, entry.path.contains ':' = false ∧ Exact entry := by
    intro entry hm
    obtain ⟨i, hi, rfl⟩ := List.getElem_of_mem hm
    have hentry := (List.forall₂_iff_get.mp hall).2 i hi (hall.length_eq ▸ hi)
    refine (validEntry_of_listed hf hlisting hm).mp (hentry.trans (congrArg some ?_))
    exact validEntry_toJson hentry
  exact ⟨fun entry hm ↦ (hvalid entry hm).1, fun entry hm ↦ (hvalid entry hm).2, hlength⟩

section Completion

variable {excluded : List Location} {s₀ s₁ s₂ s₃ s₄ s₅ : System}

theorem kept_of_completed
    (hcomplete : completeSnapshot e context staging (databaseFile context.database.kind) files
      details s₂ = .ok snapshot s₃)
    (hkept : ∀ rest, s₄.volume.node (snapshotPath e context ++ rest) =
      s₃.volume.node (snapshotPath e context ++ rest))
    (hcontext : assertContext e context s₄ = .ok () s₅) :
    ∃ content, s₂.volume.bytes (staging ++ [databaseFile context.database.kind]) = some content ∧
      snapshot = completed e context content files details ∧
        Kept e context files details s₅.volume content := by
  obtain ⟨content, hcompleted⟩ := completeSnapshot_eq_ok hcomplete
  refine ⟨content, hcompleted.database, hcompleted.snapshot, hcompleted.kept fun rest ↦ ?_⟩
  rw [← hkept]
  refine (assertContext_adds.of_ok hcontext).within _ ?_
  rw [snapshotPath, List.append_assoc]
  exact not_prefix_append (by simp)

theorem readable_of_read {manifest : Manifest} (hf : Faithful e) (hdetails : details.WellFormed)
    (hscan : scanFiles e (resolve e context.dataDir) excluded true s₀ = .ok files s₁)
    (hcomplete : completeSnapshot e context staging (databaseFile context.database.kind) files
      details s₂ = .ok snapshot s₃)
    (hkept : ∀ rest, s₄.volume.node (snapshotPath e context ++ rest) =
      s₃.volume.node (snapshotPath e context ++ rest))
    (hread : readSnapshot e context snapshot s₄ = .ok manifest s₅) :
    Readable (describe e context ((s₂.volume.bytes
      (staging ++ [databaseFile context.database.kind])).getD []) files details) := by
  obtain ⟨⟨⟩, s, hcontext, -⟩ := Calls.bind_eq_ok hread
  obtain ⟨content, hdatabase, rfl, hk⟩ := kept_of_completed hcomplete hkept hcontext
  rw [hdatabase, Option.getD_some]
  exact hk.readable hf hdetails (scanFiles_eq_ok hscan).2.1 hcontext hread

/-- A snapshot that was completed is read back as it was taken exactly where no path of a file has
a colon, and neither a number nor the manifest is too large. -/
theorem readSnapshot_iff (hf : Faithful e) (hdetails : details.WellFormed)
    (hscan : scanFiles e (resolve e context.dataDir) excluded true s₀ = .ok files s₁)
    (hcomplete : completeSnapshot e context staging (databaseFile context.database.kind) files
      details s₂ = .ok snapshot s₃)
    (hkept : ∀ rest, s₄.volume.node (snapshotPath e context ++ rest) =
      s₃.volume.node (snapshotPath e context ++ rest))
    (hs : s₄.Undisturbed) (hcontext : assertContext e context s₄ = .ok () s₅) :
    (∃ manifest s', readSnapshot e context snapshot s₄ = .ok manifest s' ∧
      manifest.entries = files) ↔
        Readable (describe e context ((s₂.volume.bytes
          (staging ++ [databaseFile context.database.kind])).getD []) files details) := by
  constructor
  · rintro ⟨manifest, s', hread, -⟩
    exact readable_of_read hf hdetails hscan hcomplete hkept hread
  · intro hr
    obtain ⟨content, hdatabase, rfl, hk⟩ := kept_of_completed hcomplete hkept hcontext
    rw [hdatabase, Option.getD_some] at hr
    obtain ⟨-, hlisting, -⟩ := scanFiles_eq_ok hscan
    have hvalid : ∀ entry ∈ files, validEntry entry.toJson = some entry := fun entry hm ↦
      (validEntry_of_listed hf hlisting hm).mpr ⟨hr.names entry hm, hr.exact entry hm⟩
    have hroot : listing e s₀.volume (resolve e context.dataDir) excluded true e.depth
        (resolve e context.dataDir ++ []) = some files := by rw [List.append_nil, hlisting]
    obtain ⟨s', hread⟩ := hk.readSnapshot_eq hf hdetails (listing_nodup hroot) hvalid hr.length hs
      hcontext
    exact ⟨_, s', hread, rfl⟩

end Completion

def sampleStaging : Location := ["backups".toList, ".snapshot-x".toList]

def sampleStart (name : Name) : System where
  volume := .furnish
    [(["data".toList], sampleFolder), (sampleDatabase, sampleFile []),
      (["data".toList, name], sampleFile []), (["backups".toList], sampleFolder),
      (sampleStaging, sampleFolder), (sampleStaging ++ ["database.sqlite".toList], sampleFile []),
      (sampleStaging ++ ["files".toList], sampleFolder),
      (sampleStaging ++ ["files".toList, name], sampleFile [])]
  fates := []
  suffixes := ["4f1c".toList]

def sampleEntry (name : Name) : FileEntry :=
  ⟨name, .file, 0, 0o600, 1000, 1000, some (sampleEnvironment.sha256 [])⟩

def sampleBackup : Action (List FileEntry × BackupSnapshot) := do
  let files ← scanFiles sampleEnvironment (resolve sampleEnvironment sampleContext.dataDir)
    (SqliteBackupAdapter.excluded sampleDatabase) true
  let snapshot ← completeSnapshot sampleEnvironment sampleContext sampleStaging
    (databaseFile sampleContext.database.kind) files sampleDetails
  pure (files, snapshot)

/-- What a program comes to. -/
def outcome {α : Type} (x : Action α) (s : System) : Option α :=
  match x s with
  | .ok a _ => some a
  | .error _ _ => none

theorem outcome_eq_some {α : Type} {x : Action α} {a : α} (h : outcome x s = some a) :
    x s = .ok a (finalState x s) := by
  rw [finalState]
  unfold outcome at h
  cases hx : x s with
  | ok a' s' =>
    rw [hx] at h
    rw [Option.some.inj h]
  | error error s' =>
    rw [hx] at h
    cases h

theorem sampleBackup_eq_ok {start : System}
    (h : (outcome sampleBackup start).map Prod.fst = some files) :
    ∃ snapshot s₁, scanFiles sampleEnvironment
        (resolve sampleEnvironment sampleContext.dataDir)
        (SqliteBackupAdapter.excluded sampleDatabase) true start = .ok files s₁ ∧
      completeSnapshot sampleEnvironment sampleContext sampleStaging
        (databaseFile sampleContext.database.kind) files sampleDetails s₁ =
          .ok snapshot (finalState sampleBackup start) := by
  obtain ⟨⟨files, snapshot⟩, hrun, rfl⟩ := Option.map_eq_some_iff.mp h
  obtain ⟨found, s₁, hscan, h₁⟩ := Calls.bind_eq_ok (outcome_eq_some hrun)
  obtain ⟨complete, s₂, hcomplete, h₂⟩ := Calls.bind_eq_ok h₁
  obtain ⟨hpair, hlast⟩ := pure_eq_ok h₂
  obtain ⟨rfl, rfl⟩ := Prod.mk.inj hpair
  exact ⟨snapshot, s₁, hscan, hlast ▸ hcomplete⟩

theorem sampleFaithful : Faithful sampleEnvironment where
  decode text := by
    have hencode : (encode text).toByteArray = text.utf8Encode := rfl
    have hdecode : sampleEnvironment.decode (encode text) =
        ((encode text).toByteArray.utf8Decode?.getD #[]).toList := rfl
    rw [hdecode, hencode, List.utf8Decode?_utf8Encode]
    rfl
  sha256 content := by
    simp only [sampleEnvironment]
    split_ifs <;> decide +kernel

theorem sampleDetails_wellFormed : sampleDetails.WellFormed := by
  simp [sampleDetails, named, Value.WellFormed, MembersWellFormed]

theorem sampleBackup_plain :
    (outcome sampleBackup (sampleStart ['a'])).map Prod.fst = some [sampleEntry ['a']] := by
  decide +kernel

theorem sampleBackup_colon : (outcome sampleBackup (sampleStart "a:b".toList)).map Prod.fst =
    some [sampleEntry "a:b".toList] := by
  decide +kernel

theorem sampleBackup_undisturbed {name : Name}
    (h : (finalState sampleBackup (sampleStart name)).fates.isEmpty = true) :
    (finalState sampleBackup (sampleStart name)).Undisturbed := by
  rw [System.Undisturbed, List.isEmpty_iff.mp h]
  simp

/-- A file with a colon in its name is backed up, and makes the whole backup one that is not
read. -/
theorem colon_not_read : ∃ snapshot s₁ s₂ s₃,
    scanFiles sampleEnvironment (resolve sampleEnvironment sampleContext.dataDir)
        (SqliteBackupAdapter.excluded sampleDatabase) true (sampleStart "a:b".toList) =
      .ok [sampleEntry "a:b".toList] s₁ ∧
    completeSnapshot sampleEnvironment sampleContext sampleStaging
        (databaseFile sampleContext.database.kind) [sampleEntry "a:b".toList] sampleDetails s₁ =
      .ok snapshot s₂ ∧ s₂.Undisturbed ∧
    assertContext sampleEnvironment sampleContext s₂ = .ok () s₃ ∧
    ∀ manifest s', readSnapshot sampleEnvironment sampleContext snapshot s₂ ≠ .ok manifest s' := by
  obtain ⟨snapshot, s₁, hscan, hcomplete⟩ := sampleBackup_eq_ok sampleBackup_colon
  have hcontext : outcome (assertContext sampleEnvironment sampleContext)
      (finalState sampleBackup (sampleStart "a:b".toList)) = some () := by decide +kernel
  refine ⟨snapshot, s₁, _, _, hscan, hcomplete, sampleBackup_undisturbed (by decide +kernel),
    outcome_eq_some hcontext, fun manifest s' hread ↦ ?_⟩
  have hreadable := readable_of_read sampleFaithful sampleDetails_wellFormed hscan hcomplete
    (fun _ ↦ rfl) hread
  have hname := hreadable.names (sampleEntry "a:b".toList) List.mem_cons_self
  revert hname
  decide

theorem plain_read : ∃ snapshot s manifest s',
    readSnapshot sampleEnvironment sampleContext snapshot s = .ok manifest s' ∧
      manifest.entries = [sampleEntry ['a']] := by
  obtain ⟨snapshot, s₁, hscan, hcomplete⟩ := sampleBackup_eq_ok sampleBackup_plain
  have hcontext : outcome (assertContext sampleEnvironment sampleContext)
      (finalState sampleBackup (sampleStart ['a'])) = some () := by decide +kernel
  have hdatabase : ((sampleStart ['a']).volume.bytes
      (sampleStaging ++ [databaseFile sampleContext.database.kind])).getD [] = [] := by
    decide +kernel
  have hlength : (describe sampleEnvironment sampleContext [] [sampleEntry ['a']]
      sampleDetails).bytes.length = 499 := by decide +kernel
  refine ⟨snapshot, _, (readSnapshot_iff sampleFaithful sampleDetails_wellFormed hscan hcomplete
    (fun _ ↦ rfl) (sampleBackup_undisturbed (by decide +kernel))
    (outcome_eq_some hcontext)).mpr ?_⟩
  rw [(scanFiles_eq_ok hscan).1, hdatabase]
  refine ⟨fun entry hm ↦ ?_, fun entry hm ↦ ?_, by rw [hlength]; decide⟩
  · rw [List.mem_singleton.mp hm]
    decide
  · rw [List.mem_singleton.mp hm]
    exact ⟨by decide, by decide, by decide⟩

end RustdeskConsole.Backups
