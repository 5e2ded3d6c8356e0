import RustdeskConsole.Backups.Snapshots

namespace RustdeskConsole.Backups

open Collections Effects Posix Serialization
open Calls hiding call bind_eq_ok written
open Updater (Failure)

variable {e : Environment} {context : BackupContext} {snapshot : BackupSnapshot}
  {volume volume' volume'' : Volume} {data backup stored location path : Location}
  {excluded : List Location} {rest : List Name} {name : Name} {entries : List FileEntry}
  {entry : FileEntry} {node : Node} {manifest : Manifest} {hashes : Bool} {depth : ℕ}
  {s s' : System} {u : Unit}

/-- The data directory is as a manifest has it, with the contents that are stored for it. -/
structure Restored (data stored : Location) (excluded : List Location)
    (entries : List FileEntry) (volume volume' : Volume) : Prop where
  only : ∀ rest node, rest ≠ [] →
    (∀ between, between ≠ [] → between <+: rest → data ++ between ∉ excluded) →
    volume'.node (data ++ rest) = some node → ∃ entry ∈ entries, entry.path = ofParts rest
  all : ∀ entry ∈ entries, ∃ rest node, Listed volume' data excluded entry rest node ∧
    (entry.kind = .file → ∃ content, volume.bytes (stored ++ rest) = some content ∧
      volume'.bytes (data ++ rest) = some content)

/-- What is left out may change, and the way to the data directory. -/
theorem Restored.congr (h : Restored data stored excluded entries volume volume')
    (hw : ∀ rest, data ++ rest ∉ excluded → rest ≠ [] →
      volume''.node (data ++ rest) = volume'.node (data ++ rest)) :
    Restored data stored excluded entries volume volume'' := by
  refine ⟨fun rest node hne hshown hn ↦ h.only rest node hne hshown ?_, fun entry hm ↦ ?_⟩
  · rw [← hw rest (hshown rest hne (List.prefix_refl _)) hne, hn]
  · obtain ⟨rest, node, hlisted, hfile⟩ := h.all entry hm
    have hnode := hw rest (hlisted.shown rest hlisted.notRoot (List.prefix_refl _))
      hlisted.notRoot
    refine ⟨rest, node, ⟨hlisted.notRoot, hnode.trans hlisted.stands, hlisted.path, hlisted.shown,
      hlisted.same, hlisted.kind⟩, fun hk ↦ ?_⟩
    obtain ⟨content, hcontent, hc⟩ := hfile hk
    exact ⟨content, hcontent, by rw [bytes_congr hnode, hc]⟩

theorem Restored.congr_stored (h : Restored data stored excluded entries volume volume')
    (hs : ∀ rest, volume.bytes (stored ++ rest) = volume''.bytes (stored ++ rest)) :
    Restored data stored excluded entries volume'' volume' := by
  refine ⟨h.only, fun entry hm ↦ ?_⟩
  obtain ⟨rest, node, hlisted, hfile⟩ := h.all entry hm
  exact ⟨rest, node, hlisted, hs rest ▸ hfile⟩

/-- Each file has the bytes that are stored for it, once all of them are in place. -/
theorem places_eq_ok
    (hout : ∀ entry ∈ entries, ¬Target e context entries
      (descend (descend (resolve e snapshot.path) "files".toList) entry.path))
    (h : entries.forM (place e context snapshot) s = .ok u s') :
    ∀ entry ∈ entries, entry.kind = .file → ∃ content,
      s.volume.bytes (descend (descend (resolve e snapshot.path) "files".toList) entry.path) =
          some content ∧
        s'.volume.bytes (descend (resolve e context.dataDir) entry.path) = some content := by
  have hloop := forM_eq_ok (fun done s' ↦ Adds (Target e context entries) s.volume s'.volume ∧
      ∀ entry ∈ done, entry.kind = .file → ∃ content,
        s.volume.bytes (descend (descend (resolve e snapshot.path) "files".toList) entry.path) =
            some content ∧
          s'.volume.bytes (descend (resolve e context.dataDir) entry.path) = some content)
    (fun done entry more s₁ s₂ heq hinv hturn ↦ by
      have hm : entry ∈ entries := by simp [heq]
      have hadds := (place_adds.of_ok hturn).mono (target_of_mem hm)
      refine ⟨trans_of (Adds (Target e context entries)) hinv.1 hadds, fun other ho hfile ↦ ?_⟩
      rcases List.mem_append.mp ho with ho | ho
      · obtain ⟨content, hsource, htarget⟩ := hinv.2 other ho hfile
        exact ⟨content, hsource, hadds.kept _ _ htarget⟩
      · obtain rfl := List.mem_singleton.mp ho
        rw [place, if_neg (by simp [hfile])] at hturn
        obtain ⟨-, content, hsource, -, htarget⟩ := durableCopy_eq_ok hturn
        rw [bytes_congr (hinv.1.within _ (hout other hm))] at hsource
        exact ⟨content, hsource, htarget⟩)
    ⟨refl_of (Adds _) _, by simp⟩ h
  exact hloop.2

/-- What the restoration of the business files may touch. -/
def Touched (data backup : Location) (excluded : List Location) (location : Location) : Prop :=
  location <+: backup ∨
    (∃ suffix, backup ++ ["displaced-files-".toList ++ suffix] <+: location) ∨
    ∃ name, data ++ [name] ∉ excluded ∧ data ++ [name] <+: location

theorem touched_of_aside {suffix : Name}
    (h : Aside (backup ++ ["displaced-files-".toList ++ suffix] ++ [name]) location) :
    Touched data backup excluded location := by
  rcases h with hp | hp | ⟨more, hp⟩
  · rw [List.dropLast_concat, List.prefix_concat_iff] at hp
    rcases hp with rfl | hp
    · exact .inr (.inl ⟨suffix, List.prefix_refl _⟩)
    · exact .inl hp
  · exact .inr (.inl ⟨suffix, (List.prefix_append ..).trans hp⟩)
  · rw [siblingOf, List.dropLast_concat] at hp
    exact .inr (.inl ⟨suffix, (List.prefix_append ..).trans hp⟩)

theorem not_touched_stored (hd : Apart data backup) :
    ¬Touched data backup excluded (backup ++ "snapshot".toList :: rest) := by
  rintro (hp | ⟨suffix, hp⟩ | ⟨name, -, hp⟩)
  · exact not_prefix_append (List.cons_ne_nil _ _) hp
  · have heq := (List.prefix_append_right_inj backup).mp hp
    obtain ⟨more, hmore⟩ := heq
    have hhead : some 'd' = some 's' := congrArg List.head? (List.cons.inj hmore).1
    exact absurd (Option.some.inj hhead) (by decide)
  · exact hd.outside _ ((List.prefix_append ..).trans hp)

theorem not_touched_excluded (hd : Apart data backup) (hx : data ++ [name] ∈ excluded) :
    ¬Touched data backup excluded (data ++ [name]) := by
  rintro (hp | ⟨suffix, hp⟩ | ⟨other, hx', hp⟩)
  · exact hd.notBelow ((List.prefix_append ..).trans hp)
  · exact hd.inside _ ((List.prefix_append ..).trans hp)
  · obtain heq := List.IsPrefix.eq_of_length hp (by simp)
    exact hx' (heq ▸ hx)

theorem touched_of_listed {volume : Volume} (h : Listed volume data excluded entry rest node) :
    Touched data backup excluded (data ++ rest) := by
  obtain ⟨name, more, rfl⟩ := List.exists_cons_of_ne_nil h.notRoot
  exact .inr (.inr ⟨name, h.shown [name] (by simp) (by simp), more,
    (List.append_cons ..).symm⟩)

theorem data_not_aside (hd : Apart data backup) {quarantine : Name} :
    ¬Aside (backup ++ [quarantine] ++ [name]) (data ++ rest) := by
  rintro (hp | hp | ⟨more, hp⟩)
  · rw [List.dropLast_concat] at hp
    exact hd.outside _ ((List.prefix_append ..).trans hp)
  · rw [List.append_assoc] at hp
    exact hd.inside _ ((List.prefix_append ..).trans hp)
  · rw [siblingOf, List.dropLast_concat, List.append_assoc] at hp
    exact hd.inside _ ((List.prefix_append ..).trans hp)

theorem restoreFiles_eq_ok (hd : Apart (resolve e context.dataDir) (resolve e context.backupDir))
    (ha : Accepted context manifest)
    (hpath : resolve e snapshot.path = resolve e context.backupDir ++ ["snapshot".toList])
    (h : restoreFiles e context snapshot manifest excluded s = .ok u s') :
    Within (Touched (resolve e context.dataDir) (resolve e context.backupDir) excluded)
        s.volume s'.volume ∧
      Restored (resolve e context.dataDir)
        (resolve e context.backupDir ++ ["snapshot".toList, "files".toList]) excluded
        manifest.entries s.volume s'.volume := by
  obtain ⟨⟨⟩, s₁, hc₁, h₁⟩ := Calls.bind_eq_ok h
  obtain ⟨⟨⟩, s₂, hc₂, h₂⟩ := Calls.bind_eq_ok h₁
  obtain ⟨current, s₃, hc₃, h₃⟩ := Calls.bind_eq_ok h₂
  obtain ⟨quarantine, s₄, hc₄, h₄⟩ := Calls.bind_eq_ok h₃
  obtain ⟨⟨⟩, s₅, hc₅, h₅⟩ := Calls.bind_eq_ok h₄
  obtain ⟨⟨⟩, s₆, hc₆, h₆⟩ := Calls.bind_eq_ok h₅
  obtain ⟨⟨⟩, s₇, hc₇, h₇⟩ := Calls.bind_eq_ok h₆
  obtain ⟨⟨⟩, s₈, hc₈, h₈⟩ := Calls.bind_eq_ok h₇
  obtain ⟨⟨⟩, s₉, hc₉, h₉⟩ := Calls.bind_eq_ok h₈
  obtain ⟨⟨⟩, s₁₀, hc₁₀, h₁₀⟩ := Calls.bind_eq_ok h₉
  obtain ⟨restored, s₁₁, hc₁₁, h₁₁⟩ := Calls.bind_eq_ok h₁₀
  obtain ⟨⟨⟩, s₁₂, hc₁₂, h₁₂⟩ := Calls.bind_eq_ok h₁₁
  obtain ⟨-, hcurrent, -⟩ := scanFiles_eq_ok hc₃
  obtain ⟨⟨suffix, rfl⟩, -, -, hmade⟩ := mkdtemp_eq_ok hc₄
  rw [descend_plain (by decide)] at hc₅ hc₆ h₁₂
  have hv₃ : s₃.volume = s.volume := by
    rw [(scanFiles_eq_ok hc₃).1, ← (check_eq_ok hc₁).2]
    exact (verifyFiles_respects (r := fun v v' ↦ v' = v)).of_ok hc₂
  have hv₁₂ : s₁₂.volume = s₉.volume := by
    rw [(check_eq_ok hc₁₂).2, (scanFiles_eq_ok hc₁₁).1, (ask_eq_ok hc₁₀).2]
  have hlisting : listing e s₁₂.volume (resolve e context.dataDir) excluded true e.depth
      (resolve e context.dataDir) = some manifest.entries := by
    rw [entries_eq ha (of_decide_eq_true (check_eq_ok hc₁₂).1), (check_eq_ok hc₁₂).2,
      (scanFiles_eq_ok hc₁₁).1]
    exact (scanFiles_eq_ok hc₁₁).2.1
  have hstored : ∀ path : List Name, (∀ name ∈ path, Plain name) →
      descend (descend (resolve e snapshot.path) "files".toList) (ofParts path) =
        resolve e context.backupDir ++ "snapshot".toList :: "files".toList :: path := by
    intro path hplain
    rw [hpath, descend_ofParts hplain, descend_plain (by decide)]
    simp
  have htarget : ∀ l, Target e context manifest.entries l →
      Touched (resolve e context.dataDir) (resolve e context.backupDir) excluded l := by
    rintro _ ⟨entry, hm, rfl⟩
    obtain ⟨rest, node, hlisted⟩ := listed_of_mem hlisting hm
    rw [hlisted.path, descend_ofParts hlisted.plain]
    exact touched_of_listed hlisted
  have hout : ∀ entry ∈ manifest.entries, ¬Target e context manifest.entries
      (descend (descend (resolve e snapshot.path) "files".toList) entry.path) := by
    intro entry hm
    obtain ⟨rest, node, hlisted⟩ := listed_of_mem hlisting hm
    rw [hlisted.path, hstored rest hlisted.plain]
    exact mt (htarget _) (not_touched_stored hd)
  have hdisplaced : Within (Touched (resolve e context.dataDir) (resolve e context.backupDir)
      excluded) s.volume s₇.volume := by
    rw [← hv₃]
    refine trans_of (Within _) (hmade.within.mono ?_) (trans_of (Within _)
      ((mkdir_adds.of_ok hc₅).within.mono ?_) (trans_of (Within _)
      ((atomicWrite_within.of_ok hc₆).mono fun l ↦ touched_of_aside)
      (((displaces_within hcurrent).of_ok hc₇).mono ?_)))
    · rintro _ rfl
      exact .inr (.inl ⟨suffix, List.prefix_refl _⟩)
    · rintro _ rfl
      exact .inr (.inl ⟨suffix, List.prefix_append ..⟩)
    · rintro l (hp | hp)
      · exact .inr (.inl ⟨suffix, (List.prefix_append ..).trans hp⟩)
      · exact .inr (.inr hp)
  have hlast := atomicWrite_within.of_ok h₁₂
  refine ⟨trans_of (Within _) hdisplaced (trans_of (Within _)
    ((places_adds.of_ok hc₈).within.mono htarget) (trans_of (Within _)
    ((owns_adds.of_ok hc₉).within.mono htarget) (hv₁₂ ▸ hlast.mono fun l ↦ touched_of_aside))),
    fun rest node hne hshown hn ↦ ?_, fun entry hm ↦ ?_⟩
  · rw [hlast _ (data_not_aside hd)] at hn
    obtain ⟨entry, hm, hat⟩ := exists_listed hlisting hn hne hshown
    refine ⟨entry, hm, ?_⟩
    rw [(entryAt_eq_some hat).1]
    exact relative_append
  · obtain ⟨rest, node, hlisted⟩ := listed_of_mem hlisting hm
    have hnode := hlast (resolve e context.dataDir ++ rest) (data_not_aside hd)
    refine ⟨rest, node, ⟨hlisted.notRoot, hnode.trans hlisted.stands, hlisted.path, hlisted.shown,
      hlisted.same, hlisted.kind⟩, fun hfile ↦ ?_⟩
    obtain ⟨content, hsource, hplaced⟩ := places_eq_ok hout hc₈ entry hm hfile
    rw [hlisted.path, hstored rest hlisted.plain,
      bytes_congr (hdisplaced _ (not_touched_stored hd))] at hsource
    rw [hlisted.path, descend_ofParts hlisted.plain] at hplaced
    refine ⟨content, by simpa using hsource, ?_⟩
    rw [bytes_congr hnode, hv₁₂]
    exact (owns_adds.of_ok hc₉).kept _ _ hplaced

/-- Once all of them are put aside, none of the files stands in the data directory. -/
theorem quarantines_eq_ok {sources : List Location} {quarantine : Name} (hd : Apart data backup)
    (hsources : ∀ source ∈ sources, ∃ name, source = data ++ [name])
    (hq : s.volume.IsDirectory (backup ++ [quarantine]))
    (h : sources.forM (fun source ↦ quarantineFile e source (backup ++ [quarantine])) s =
      .ok u s') :
    Within (fun l ↦ backup ++ [quarantine] <+: l ∧ l ≠ backup ++ [quarantine] ∨ l ∈ sources)
        s.volume s'.volume ∧
      ∀ source ∈ sources, s'.volume.node source = none := by
  have hout : ∀ rest, backup ++ rest ∉ sources := by
    intro rest hm
    obtain ⟨name, hname⟩ := hsources _ hm
    exact hd.inside [name] ⟨rest, hname⟩
  refine forM_eq_ok (fun done s' ↦ Within (fun l ↦ backup ++ [quarantine] <+: l ∧
      l ≠ backup ++ [quarantine] ∨ l ∈ sources) s.volume s'.volume ∧
        ∀ source ∈ done, s'.volume.node source = none)
    (fun done source more s₁ s₂ heq hinv hturn ↦ ?_) ⟨refl_of (Within _) _, by simp⟩ h
  have hm : source ∈ sources := by simp [heq]
  obtain ⟨name, rfl⟩ := hsources source hm
  have hdirectory : s₁.volume.IsDirectory (backup ++ [quarantine]) := by
    refine isDirectory_congr (hinv.1 _ ?_) hq
    rintro (⟨-, hne⟩ | hmem)
    · exact hne rfl
    · exact hout _ hmem
  have hw := quarantineFile_within.of_ok hturn
  have hnone := quarantineFile_eq_ok hdirectory hturn
  refine ⟨trans_of (Within _) hinv.1 (hw.mono ?_), fun other ho ↦ ?_⟩
  · rintro l (rfl | rfl)
    · exact .inl ⟨List.prefix_append .., by simp⟩
    · exact .inr hm
  · rcases List.mem_append.mp ho with ho | ho
    · by_cases hother : other = data ++ [name]
      · rwa [hother]
      · refine hw.free ?_ (hinv.2 other ho)
        rintro (rfl | rfl)
        · rw [List.append_assoc] at ho
          exact hout _ (heq ▸ List.mem_append_left _ ho)
        · exact hother rfl
    · rwa [List.mem_singleton.mp ho]

open SqliteBackupAdapter

/-- The names that what is read of a snapshot begins with. -/
def storedNames (kind : DatabaseKind) : List Name :=
  ["snapshot.json".toList, "files".toList, databaseFile kind]

theorem not_sidecar {kind : DatabaseKind} {first : Name} (h : first ∈ storedNames kind) :
    backup ++ "snapshot".toList :: first :: rest ∉
      sidecars (backup ++ ["snapshot".toList, databaseFile kind]) := by
  intro hm
  obtain ⟨suffix, hs, heq⟩ := List.mem_map.mp hm
  have hnames : ∀ kind, ∀ first ∈ storedNames kind, ∀ suffix ∈ ["-wal", "-shm", "-journal"],
      databaseFile kind ++ suffix.toList ≠ first := by
    intro kind
    cases kind <;> decide
  rw [siblingOf, List.append_cons backup, List.dropLast_concat, List.getLastD_concat,
    List.append_assoc] at heq
  exact hnames kind first h suffix hs (List.cons.inj (List.cons.inj
    (List.append_cancel_left heq)).2).1

/-- What a restoration may touch before it has come to the business files. -/
def Prepared (backup : Location) (kind : DatabaseKind) (path location : Location) : Prop :=
  location <+: backup ∨ location ∈ sidecars (backup ++ ["snapshot".toList, databaseFile kind]) ∨
    (∃ suffix, backup ++ ["displaced-sqlite-".toList ++ suffix] <+: location) ∨
    location ∈ SqliteBackupAdapter.excluded path

theorem not_prepared {kind : DatabaseKind} {first : Name} (hd : Apart data backup)
    (hp : path.dropLast = data) (h : first ∈ storedNames kind) :
    ¬Prepared backup kind path (backup ++ "snapshot".toList :: first :: rest) := by
  rintro (hway | hm | ⟨suffix, hway⟩ | hm)
  · exact not_prefix_append (List.cons_ne_nil _ _) hway
  · exact not_sidecar h hm
  · obtain ⟨more, hmore⟩ := (List.prefix_append_right_inj backup).mp hway
    have hhead : some 'd' = some 's' := congrArg List.head? (List.cons.inj hmore).1
    exact absurd (Option.some.inj hhead) (by decide)
  · obtain ⟨name, hname⟩ := excluded_cases hd hp hm
    exact hd.inside [name] ⟨_, hname⟩

theorem Verified.database (h : Verified e context snapshot volume manifest) :
    descend (resolve e snapshot.path) manifest.databaseFile =
      resolve e context.backupDir ++ ["snapshot".toList, databaseFile context.database.kind] := by
  rw [h.accepted.databaseFile, descend_plain plain_databaseFile, h.path, List.append_assoc]
  rfl

theorem run_eq_ok {result : String} (h : run e path s = .ok result s') :
    s'.volume = (e.sqlite3 path s.volume).2 := by
  rw [run] at h
  cases hrun : e.sqlite3 path s.volume with
  | mk found volume =>
    rw [hrun] at h
    cases found with
    | none => cases h
    | some found =>
      obtain ⟨-, rfl⟩ := EStateM.Result.ok.inj h
      rfl

theorem integrity_eq_ok (h : integrity e path s = .ok u s') :
    s'.volume = (e.sqlite3 path s.volume).2 := by
  obtain ⟨result, s₁, hc₁, h₁⟩ := Calls.bind_eq_ok h
  rw [(check_eq_ok h₁).2]
  exact run_eq_ok hc₁

theorem validate_within (hreads : ReadsOnly e) (h : validate e context snapshot s = .ok u s') :
    Within (Prepared (resolve e context.backupDir) context.database.kind path)
      s.volume s'.volume := by
  obtain ⟨manifest, s₁, hread, hcheck⟩ := validate_eq_ok h
  rw [(readSnapshot_eq_ok hread).database] at hcheck
  exact trans_of (Within _) ((readSnapshot_adds.of_ok hread).within.mono fun l ↦ .inl)
    (((integrity_adds hreads).of_ok hcheck).within.mono fun l ↦ .inr ∘ .inl)

theorem sidecar_ne (hp : path = data ++ [name]) (h : location ∈ sidecars path) :
    location ≠ path := by
  subst hp
  rintro rfl
  obtain ⟨suffix, hs, heq⟩ := List.mem_map.mp h
  have hsuffix : ∀ suffix ∈ ["-wal", "-shm", "-journal"], suffix.toList ≠ [] := by decide
  rw [siblingOf, List.dropLast_concat, List.getLastD_concat] at heq
  exact hsuffix suffix hs (List.append_right_eq_self.mp (List.cons.inj
    (List.append_cancel_left heq)).1)

/-- The data directory is the one that a snapshot was taken of. -/
structure Recovered (e : Environment) (context : BackupContext) (path : Location)
    (manifest : Manifest) (volume volume' : Volume) : Prop where
  described : ∃ content value, volume.bytes (resolve e context.backupDir ++
      ["snapshot".toList, "snapshot.json".toList]) = some content ∧
    parse (e.decode content) = some value ∧ acceptManifest e context value = some manifest
  files : Restored (resolve e context.dataDir)
    (resolve e context.backupDir ++ ["snapshot".toList, "files".toList])
    (SqliteBackupAdapter.excluded path) manifest.entries volume volume'
  database : ∃ content, volume.bytes (resolve e context.backupDir ++
      ["snapshot".toList, databaseFile context.database.kind]) = some content ∧
    volume'.bytes path = some content
  /-- What goes with the database is what the last check of it has made. -/
  clean : ∃ between : Volume, (∀ sidecar ∈ sidecars path, between.node sidecar = none) ∧
    volume' = (e.sqlite3 path between).2

theorem restore_eq_ok (hreads : ReadsOnly e)
    (h : restore e context snapshot s = .ok u s') :
    ∃ given manifest, context.database = .sqlite given ∧
      Recovered e context (resolve e given) manifest s.volume s'.volume := by
  obtain ⟨⟨⟩, s₁, hc₁, h₁⟩ := Calls.bind_eq_ok h
  obtain ⟨⟨⟩, s₂, hc₂, h₂⟩ := Calls.bind_eq_ok h₁
  obtain ⟨manifest, s₃, hc₃, h₃⟩ := Calls.bind_eq_ok h₂
  obtain ⟨path, s₄, hc₄, h₄⟩ := Calls.bind_eq_ok h₃
  obtain ⟨details, s₅, hc₅, h₅⟩ := Calls.bind_eq_ok h₄
  obtain ⟨⟨mode, owner⟩, s₆, hc₆, h₆⟩ := Calls.bind_eq_ok h₅
  obtain ⟨⟨⟩, s₇, hc₇, h₇⟩ := Calls.bind_eq_ok h₆
  obtain ⟨quarantine, s₈, hc₈, h₈⟩ := Calls.bind_eq_ok h₇
  obtain ⟨⟨⟩, s₉, hc₉, h₉⟩ := Calls.bind_eq_ok h₈
  obtain ⟨⟨⟩, s₁₀, hc₁₀, h₁₀⟩ := Calls.bind_eq_ok h₉
  obtain ⟨⟨⟩, s₁₁, hc₁₁, h₁₁⟩ := Calls.bind_eq_ok h₁₀
  obtain ⟨⟨⟩, s₁₂, hc₁₂, h₁₂⟩ := Calls.bind_eq_ok h₁₁
  obtain ⟨⟨⟩, s₁₃, hc₁₃, h₁₃⟩ := Calls.bind_eq_ok h₁₂
  obtain ⟨⟨⟩, s₁₄, hc₁₄, h₁₄⟩ := Calls.bind_eq_ok h₁₃
  have hverified := readSnapshot_eq_ok hc₃
  have hd := hverified.apart
  obtain ⟨rfl, hparent, given, hdatabase, rfl⟩ := database_eq_ok hc₄
  obtain ⟨⟨suffix, rfl⟩, -, hq, hmade⟩ := mkdtemp_eq_ok hc₈
  have hsources : ∀ source ∈ SqliteBackupAdapter.excluded (resolve e given),
      ∃ name, source = resolve e context.dataDir ++ [name] := fun source ↦
    excluded_cases hd hparent
  obtain ⟨name, hname⟩ := hsources _ List.mem_cons_self
  have hvalidated : Within (Prepared (resolve e context.backupDir) context.database.kind
      (resolve e given)) s.volume s₂.volume := by
    rw [← (check_eq_ok hc₁).2]
    exact validate_within hreads hc₂
  have hv₇ : s₇.volume = s₄.volume := by
    rw [(checkSpace_respects (r := fun v v' ↦ v' = v)).of_ok hc₇, (require_eq_ok hc₆).2,
      (require_eq_ok hc₅).2]
  have hnew : Within (Prepared (resolve e context.backupDir) context.database.kind
      (resolve e given)) s₄.volume s₈.volume := by
    rw [← hv₇]
    refine hmade.within.mono ?_
    rintro _ rfl
    exact .inr (.inr (.inl ⟨suffix, List.prefix_refl _⟩))
  obtain ⟨hquarantined, hgone⟩ := quarantines_eq_ok hd hsources hq hc₉
  have hprepared : Within (Prepared (resolve e context.backupDir) context.database.kind
      (resolve e given)) s.volume s₉.volume := by
    refine trans_of (Within _) hvalidated (trans_of (Within _)
      ((readSnapshot_adds.of_ok hc₃).within.mono fun l ↦ .inl) (trans_of (Within _) hnew
      (hquarantined.mono ?_)))
    rintro l (⟨hp, -⟩ | hm)
    · exact .inr (.inr (.inl ⟨suffix, hp⟩))
    · exact .inr (.inr (.inr hm))
  obtain ⟨htouched, hrestored⟩ := restoreFiles_eq_ok hd hverified.accepted hverified.path hc₁₀
  have hlast : Adds (· = resolve e given) s₁₀.volume s₁₄.volume := by
    rw [(ask_eq_ok hc₁₄).2]
    exact trans_of (Adds _) (durableCopy_adds.of_ok hc₁₁) (trans_of (Adds _)
      (chown_adds.of_ok hc₁₂) (chmod_adds.of_ok hc₁₃))
  have hchecked := (integrity_adds hreads).of_ok h₁₄
  have hstored : ∀ first rest, first ∈ storedNames context.database.kind →
      s₉.volume.bytes (resolve e context.backupDir ++ "snapshot".toList :: first :: rest) =
        s.volume.bytes (resolve e context.backupDir ++ "snapshot".toList :: first :: rest) :=
    fun first rest hfirst ↦ bytes_congr (hprepared _ (not_prepared hd hparent hfirst))
  refine ⟨given, manifest, hdatabase, ?_, ?_, ?_, s₁₄.volume, fun sidecar hm ↦ ?_,
    integrity_eq_ok h₁₄⟩
  · obtain ⟨content, value, hcontent, hvalue⟩ := hverified.described
    refine ⟨content, value, ?_, hvalue⟩
    rwa [bytes_congr (hvalidated _ (not_prepared hd hparent (by simp [storedNames])))] at hcontent
  · refine (hrestored.congr_stored fun rest ↦ ?_).congr fun rest hshown hne ↦ ?_
    · simpa using hstored "files".toList rest (by simp [storedNames])
    · have hpath : resolve e context.dataDir ++ rest ≠ resolve e given :=
        fun heq ↦ hshown (heq ▸ List.mem_cons_self)
      rw [hchecked.within _ fun hm ↦ hshown (List.mem_cons_of_mem _ hm),
        hlast.within _ hpath]
  · rw [hverified.database] at hc₁₁
    obtain ⟨-, content, hsource, -, htarget⟩ := durableCopy_eq_ok hc₁₁
    rw [bytes_congr (htouched _ (not_touched_stored hd)),
      hstored _ _ (by simp [storedNames])] at hsource
    refine ⟨content, hsource, hchecked.kept _ _ ?_⟩
    rw [(ask_eq_ok hc₁₄).2]
    exact (chmod_adds.of_ok hc₁₃).kept _ _ ((chown_adds.of_ok hc₁₂).kept _ _ htarget)
  · have hexcluded := List.mem_cons_of_mem (resolve e given) hm
    obtain ⟨other, rfl⟩ := hsources _ hexcluded
    refine hlast.within.free (sidecar_ne hname hm) (htouched.free ?_ (hgone _ hexcluded))
    exact not_touched_excluded hd hexcluded

/-- Wherever a restoration stops, no file is lost. Where it succeeds, the data is that of the
snapshot. -/
theorem restore_keeps_data (h : ReadsOnly e) :
    Ends (restore e context snapshot) s fun result s' ↦
      Safe (resolve e context.dataDir) (resolve e context.backupDir) s.volume s'.volume ∧
        (result = .ok () → ∃ given manifest, context.database = .sqlite given ∧
          Recovered e context (resolve e given) manifest s.volume s'.volume) := by
  have hsafe : Ends (restore e context snapshot) s fun _ s' ↦
      Safe (resolve e context.dataDir) (resolve e context.backupDir) s.volume s'.volume :=
    restore_safe h
  refine .intro (fun u s' hx ↦ ⟨hsafe.of_ok hx, fun _ ↦ restore_eq_ok h hx⟩) fun error s' hx ↦ ?_
  refine ⟨hsafe.of_error hx, fun hr ↦ ?_⟩
  cases hr

def sampleSnapshot : BackupSnapshot :=
  completed sampleEnvironment sampleContext [] [sampleEntry ['a']] sampleDetails

/-- The data after an update: a directory stands where a file was backed up. -/
def sampleUpdated : System where
  volume := .furnish
    [(["data".toList], sampleFolder), (sampleDatabase, sampleFile [1]),
      (["data".toList, "console.sqlite-wal".toList], sampleFile [2]),
      (["data".toList, ['a']], sampleFolder), (["data".toList, ['a'], ['b']], sampleFile [3]),
      (["backups".toList], sampleFolder), (["backups".toList, "snapshot".toList], sampleFolder),
      (["backups".toList, "snapshot".toList, "snapshot.json".toList], sampleFile
        (describe sampleEnvironment sampleContext [] [sampleEntry ['a']] sampleDetails).bytes),
      (["backups".toList, "snapshot".toList, "database.sqlite".toList], sampleFile []),
      (["backups".toList, "snapshot".toList, "files".toList], sampleFolder),
      (["backups".toList, "snapshot".toList, "files".toList, ['a']], sampleFile [])]
  fates := []
  suffixes := [['1'], ['2'], ['3'], ['4']]

theorem sample_readsOnly : ReadsOnly sampleEnvironment :=
  fun _ volume ↦ refl_of (Adds _) volume

theorem sample_keeps_data :
    Ends (restore sampleEnvironment sampleContext sampleSnapshot) sampleUpdated fun result s' ↦
      Safe (resolve sampleEnvironment sampleContext.dataDir)
          (resolve sampleEnvironment sampleContext.backupDir) sampleUpdated.volume s'.volume ∧
        (result = .ok () → ∃ given manifest, sampleContext.database = .sqlite given ∧
          Recovered sampleEnvironment sampleContext (resolve sampleEnvironment given) manifest
            sampleUpdated.volume s'.volume) := by
  generalize sampleUpdated = s
  exact restore_keeps_data sample_readsOnly

end RustdeskConsole.Backups
