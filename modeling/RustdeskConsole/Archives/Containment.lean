import RustdeskConsole.Archives.Extraction

namespace RustdeskConsole.Archives

open Collections Posix Effects Effects.Guard Effects.Loop Member
open Updater (Failure)
open Releases (check)

variable {e : Environment} {destination : Path} {disk disk₁ disk' : Disk} {m m' : Member}
  {ms : List Member} {listing : Listing} {names : List Name} {path : Path} {entry : Entry}

theorem place_ofParts (h : ∀ name ∈ names, IsPart name) (habove : above ∉ names) :
    place e destination (ofParts names) = locate e.cwd destination ++ names := by
  have hrelative : isAbsolute (ofParts names) = false := by
    refine isAbsolute_ofParts (fun name hm ↦ (h name hm).noSeparator) fun hhead ↦ ?_
    exact (h [] (List.mem_of_mem_head? hhead)).notEmpty rfl
  have hparts := parts_ofParts h
  rw [place, locate_join hrelative (by rwa [hparts]), hparts]

theorem Member.Legal.place (h : m.Legal) (hp : names <+: m.names) :
    place e destination (ofParts names) = locate e.cwd destination ++ names :=
  place_ofParts (isPart_of_initial hp) fun hm ↦ h.notAbove (hp.subset hm)

theorem Member.IsFile.not_directory (h : m.IsFile) : m.type ≠ ['5'] := by
  rintro ht
  rcases h with h | h <;> simp [h] at ht

/-- A listing that passed every check. -/
structure Sealed (ms : List Member) (listing : Listing) : Prop extends Reflects ms listing where
  separate : ∀ entry ∈ listing.entries, entry.path ∉ listing.directories

theorem sealed_of_finish (h : Reflects ms listing) (hf : finish listing = .ok ()) :
    Sealed ms listing := by
  obtain ⟨⟨⟩, -, hf⟩ := bind_eq_ok.mp hf
  refine ⟨h, fun entry hm ↦ ?_⟩
  have hall := List.all_eq_true.mp (check_eq_ok.mp hf) entry hm
  exact of_decide_eq_true hall

/-- There is room for every member, and for the directories above it. -/
structure Roomy (destination : Path) (ms : List Member) : Prop where
  top : Fits destination []
  below : ∀ m ∈ ms, ∀ names, names <+: m.names → Fits destination (ofParts names)

/-- The first that is made below the destination. -/
def topmost (ms : List Member) : Option Path :=
  match ms.find? needsDirectory with
  | some m => some m.topDirectory
  | none => (ms.find? (·.names ≠ [])).map fun m ↦ ofParts m.names

theorem mem_ordered : path ∈ orderedDirectories listing ↔ path ∈ listing.directories :=
  List.mem_insertionSort _

theorem Reflects.ordered (h : Reflects ms listing) : ∃ rest,
    orderedDirectories listing = [] :: rest ∧
      rest.head? = (ms.find? needsDirectory).map topDirectory := by
  obtain ⟨below, htop⟩ := h.top
  have hpos (path : Path) : 1 ≤ depth path :=
    List.length_pos_iff.mpr (List.splitOn_ne_nil '/' path)
  have hbelow (path : Path) (hp : path ∈ below) :
      ∃ m ∈ ms, ∃ names, m.Needs names ∧ path = ofParts names := by
    refine ((h.directories path).mp (by simp [htop, hp])).resolve_left ?_
    rintro rfl
    have honce := h.once
    rw [htop, List.nodup_cons] at honce
    exact honce.1 hp
  refine ⟨below.insertionSort fun left right ↦ depth left ≤ depth right, ?_, ?_⟩
  · rw [orderedDirectories, htop]
    exact List.insertionSort_cons_of_forall_rel _ fun path _ ↦ hpos path
  · have hlead := h.lead
    rw [htop, List.find?_cons_of_neg (by simp [isTop])] at hlead
    cases hfind : ms.find? needsDirectory with
    | none =>
      obtain rfl : below = [] := by
        refine List.eq_nil_iff_forall_not_mem.mpr fun path hp ↦ ?_
        obtain ⟨m, hm, names, hneeds, -⟩ := hbelow path hp
        exact List.find?_eq_none.mp hfind m hm (needsDirectory_iff.mpr ⟨names, hneeds⟩)
      rfl
    | some m =>
      rw [hfind] at hlead
      refine head?_insertionSort (fun path _ ↦ hpos path) ?_
      rw [Option.map_some] at hlead
      rw [← hlead, ← List.head?_filter, ← List.head?_filter]
      refine congrArg List.head? (List.filter_congr fun path hp ↦ ?_)
      obtain ⟨m, hm, names, hneeds, rfl⟩ := hbelow path hp
      have hparts : ∀ name ∈ names, IsPart name := isPart_of_initial hneeds.2.1
      rw [isTop, parts_ofParts hparts, depth,
        segments_ofParts hneeds.1 fun name hm ↦ (hparts name hm).noSeparator]

namespace Sealed

variable (h : Sealed ms listing)
include h

theorem entry_of_file (hm : m ∈ ms) (hfile : m.IsFile) : ∃ entry ∈ listing.entries,
    entry.path = ofParts m.names ∧ entry.content = m.content ∧ fileMode m = .ok entry.mode := by
  have hne : m.names ≠ [] :=
    ((h.legal m hm).kind.resolve_left hfile.not_directory).2
  have hmem : (ofParts m.names, m.content, fileMode m) ∈
      listing.entries.map fun entry ↦ (entry.path, entry.content, .ok entry.mode) := by
    rw [← h.files]
    exact List.mem_map.mpr ⟨m, by simp [hm, hne, hfile.not_directory], rfl⟩
  obtain ⟨entry, hentry, heq⟩ := List.mem_map.mp hmem
  simp only [Prod.mk.injEq] at heq
  exact ⟨entry, hentry, heq.1, heq.2.1, heq.2.2.symm⟩

theorem file_of_entry (hentry : entry ∈ listing.entries) : ∃ m ∈ ms, m.IsFile ∧ m.names ≠ [] ∧
    entry.path = ofParts m.names ∧ entry.content = m.content ∧ fileMode m = .ok entry.mode := by
  have hmem : (entry.path, entry.content, (.ok entry.mode : Except Failure ℕ)) ∈
      (ms.filter fun m ↦ m.names ≠ [] && m.type ≠ ['5']).map
        fun m ↦ (ofParts m.names, m.content, fileMode m) := by
    rw [h.files]
    exact List.mem_map.mpr ⟨entry, hentry, rfl⟩
  obtain ⟨m, hm, heq⟩ := List.mem_map.mp hmem
  simp only [Prod.mk.injEq] at heq
  obtain ⟨hm, hkind⟩ := List.mem_filter.mp hm
  simp only [Bool.and_eq_true, decide_eq_true_iff] at hkind
  exact ⟨m, hm, ((h.legal m hm).kind.resolve_left hkind.2).1, hkind.1, heq.1.symm, heq.2.1.symm,
    heq.2.2⟩

theorem needed_of_prefix (hm : m ∈ ms) (hn : names ≠ []) (hp : names <+: m.names)
    (hk : m.IsDirectory ∨ names ≠ m.names) : ofParts names ∈ listing.directories :=
  (h.directories _).mpr (.inr ⟨m, hm, names, ⟨hn, hp, hk⟩, rfl⟩)

/-- No regular file is above another member. -/
theorem file_above (hm : m ∈ ms) (hfile : m.IsFile) (hm' : m' ∈ ms) (hp : m.names <+: m'.names) :
    m.names = m'.names := by
  by_contra hne
  obtain ⟨entry, hentry, hpath, -, -⟩ := h.entry_of_file hm hfile
  have hnames := ((h.legal m hm).kind.resolve_left hfile.not_directory).2
  exact h.separate entry hentry (hpath ▸ h.needed_of_prefix hm' hnames hp (.inr hne))

theorem directory_eq (hp : path ∈ listing.directories) : path = ofParts (parts path) := by
  rcases (h.directories path).mp hp with rfl | ⟨m, hm, names, hneeds, rfl⟩
  · rw [parts_nil]
    rfl
  · rw [parts_ofParts (isPart_of_initial hneeds.2.1)]

theorem place_directory (hp : path ∈ listing.directories) :
    place e destination path = locate e.cwd destination ++ parts path := by
  rcases (h.directories path).mp hp with rfl | ⟨m, hm, names, hneeds, rfl⟩
  · have hroot := @place_ofParts e destination [] (by simp) (by simp)
    rwa [parts_nil]
  · rw [parts_ofParts (isPart_of_initial hneeds.2.1)]
    exact (h.legal m hm).place hneeds.2.1

theorem directory_ne_entry (hp : path ∈ listing.directories) (hentry : entry ∈ listing.entries) :
    parts path ≠ parts entry.path := by
  intro heq
  obtain ⟨m, -, -, -, hpath, -⟩ := h.file_of_entry hentry
  have hentryPath : entry.path = ofParts (parts entry.path) := by
    rw [hpath, parts_ofParts isPart_names]
  have hself := h.directory_eq hp
  rw [heq, ← hentryPath] at hself
  exact h.separate entry hentry (hself ▸ hp)

theorem parts_entry_ne {before after : List Entry}
    (heq : listing.entries = before ++ entry :: after) :
    ∀ other ∈ before, parts other.path ≠ parts entry.path := by
  have hpaths : (listing.entries.map (·.path)).Nodup := by
    have hfst := congrArg (List.map Prod.fst) h.files
    simp only [List.map_map, Function.comp_def] at hfst
    rw [← hfst]
    refine (List.Sublist.map _ ?_).nodup (h.seen ▸ h.distinct)
    rw [← List.filter_filter]
    exact List.filter_sublist.filter _
  intro other hm hparts
  have hpath {entry : Entry} (hentry : entry ∈ listing.entries) :
      entry.path = ofParts (parts entry.path) := by
    obtain ⟨m, -, -, -, hpath, -⟩ := h.file_of_entry hentry
    rw [hpath, parts_ofParts isPart_names]
  have hsame : other.path = entry.path := by
    rw [hpath (show other ∈ listing.entries by simp [heq, hm]), hparts, ← hpath (by simp [heq])]
  rw [heq, List.map_append, List.nodup_append] at hpaths
  exact hpaths.2.2 _ (List.mem_map_of_mem hm) _ (List.mem_cons_self ..) hsame

theorem made_below {root : Location}
    (hm : Made e.owner disk root (listing.directories.map parts) disk₁)
    (hn : names ≠ []) (hnames : ∀ name ∈ names, IsPart name) :
    disk₁.node (root ++ names) =
      if ofParts names ∈ listing.directories then some (made e.owner) else none := by
  rcases hm.below names hn with ⟨hsome, way, hway, hp⟩ | ⟨hnone, hway⟩
  · obtain ⟨path, hpath, rfl⟩ := List.mem_map.mp hway
    rcases (h.directories path).mp hpath with rfl | ⟨m, hmem, needed, hneeds, rfl⟩
    · rw [parts_nil] at hp
      exact absurd (List.prefix_nil.mp hp) hn
    · rw [parts_ofParts (isPart_of_initial hneeds.2.1)] at hp
      rw [if_pos, hsome]
      refine h.needed_of_prefix hmem hn (hp.trans hneeds.2.1) ?_
      refine hneeds.2.2.imp_right fun hne heq ↦ hne ?_
      exact hneeds.2.1.eq_of_length_le (heq ▸ hp.length_le)
  · rw [if_neg, hnone]
    intro hmem
    refine hway _ (List.mem_map_of_mem hmem) ?_
    rw [parts_ofParts hnames]

theorem parts_entry (hentry : entry ∈ listing.entries) : ∃ m ∈ ms, m.IsFile ∧ m.names ≠ [] ∧
    parts entry.path = m.names ∧ entry.path = ofParts m.names := by
  obtain ⟨m, hm, hfile, hne, hpath, -⟩ := h.file_of_entry hentry
  exact ⟨m, hm, hfile, hne, by rw [hpath, parts_ofParts isPart_names], hpath⟩

theorem fits_directory (hroomy : Roomy destination ms) (hp : path ∈ listing.directories) :
    Fits destination path := by
  rcases (h.directories path).mp hp with rfl | ⟨m, hm, names, hneeds, rfl⟩
  · exact hroomy.top
  · exact hroomy.below m hm names hneeds.2.1

theorem fits_entry (hroomy : Roomy destination ms) (hentry : entry ∈ listing.entries) :
    Fits destination entry.path := by
  obtain ⟨m, hm, -, -, -, hpath⟩ := h.parts_entry hentry
  exact hpath ▸ hroomy.below m hm m.names List.prefix_rfl

theorem place_entry (hentry : entry ∈ listing.entries) :
    place e destination entry.path = locate e.cwd destination ++ parts entry.path := by
  obtain ⟨m, hm, -, -, hparts, hpath⟩ := h.parts_entry hentry
  rw [hparts, hpath]
  exact (h.legal m hm).place List.prefix_rfl

theorem makeDirectories_spec (hempty : Empty disk (locate e.cwd destination))
    (hroomy : Roomy destination ms)
    {ordered : List Path} (hordered : ∀ path, path ∈ ordered ↔ path ∈ listing.directories) :
    ∃ disk₁, ordered.forM (makeDirectory e destination) disk = .ok () disk₁ ∧
      Made e.owner disk (locate e.cwd destination) (listing.directories.map parts) disk₁ := by
  have hrun : ∃ disk₁, ordered.forM (makeDirectory e destination) disk = .ok () disk₁ ∧
      Made e.owner disk (locate e.cwd destination) (ordered.map parts) disk₁ := by
    refine forM_ok
      (fun done disk₁ ↦ Made e.owner disk (locate e.cwd destination) (done.map parts) disk₁) ?_
      (hempty.made e.owner)
    intro done path rest s heq hinv
    have hmem : path ∈ listing.directories := (hordered path).mp (by simp [heq])
    rw [List.map_append]
    exact hinv.step (h.place_directory hmem) (h.fits_directory hroomy hmem)
  obtain ⟨disk₁, hrun, hmade⟩ := hrun
  exact ⟨disk₁, hrun, hmade.of_mem fun way ↦ by simp [hordered]⟩

theorem writeEntries_spec (hroomy : Roomy destination ms)
    (hmade : Made e.owner disk (locate e.cwd destination) (listing.directories.map parts) disk₁) :
    ∃ disk', listing.entries.forM (writeEntry e destination) disk₁ = .ok () disk' ∧
      Written e.owner disk₁ (locate e.cwd destination) listing.entries disk' := by
  have hnone (entry : Entry) (hentry : entry ∈ listing.entries) :
      disk₁.node (locate e.cwd destination ++ parts entry.path) = none := by
    obtain ⟨m, -, -, hne, hparts, hpath⟩ := h.parts_entry hentry
    rw [hparts, h.made_below hmade hne isPart_names, if_neg (hpath ▸ h.separate entry hentry)]
  refine forM_ok _ (fun done entry rest s heq hinv ↦ ?_) ⟨by simp, by simp⟩
  have hentry : entry ∈ listing.entries := by simp [heq]
  obtain ⟨m, hm, -, hne, hparts, hpath⟩ := h.parts_entry hentry
  refine hinv.step (h.place_entry hentry) (hparts ▸ hne) (h.fits_entry hroomy hentry)
    (h.parts_entry_ne heq) ?_ ?_
  · intro other hother
    refine hnone other ?_
    rw [heq, List.append_cons]
    exact List.mem_append_left _ hother
  · rw [hparts]
    by_cases hd : m.names.dropLast = []
    · rw [hd, List.append_nil]
      exact hmade.isDirectory
    · have hp : m.names.dropLast <+: m.names := List.dropLast_prefix _
      have hneeded := h.needed_of_prefix hm hd hp (.inr (Disk.dropLast_ne hne))
      refine ⟨made e.owner, ?_, rfl⟩
      rw [h.made_below hmade hd (isPart_of_initial hp), if_pos hneeded]

theorem syncDirectories_spec (hroomy : Roomy destination ms)
    (hmade : Made e.owner disk (locate e.cwd destination) (listing.directories.map parts) disk₁)
    (hwritten : Written e.owner disk₁ (locate e.cwd destination) listing.entries disk')
    {ordered : List Path} (hordered : ∀ path ∈ ordered, path ∈ listing.directories) :
    ordered.forM (syncDirectory e destination) disk' = .ok () disk' := by
  have hrun : ∃ s, ordered.forM (syncDirectory e destination) disk' = .ok () s ∧ s = disk' := by
    refine forM_ok (fun _ s ↦ s = disk') ?_ rfl
    rintro done path rest s heq rfl
    have hmem := hordered path (by simp [heq])
    have hother : ∀ entry ∈ listing.entries, locate e.cwd destination ++ parts path ≠
        locate e.cwd destination ++ parts entry.path :=
      fun entry hentry hsame ↦ h.directory_ne_entry hmem hentry (List.append_cancel_left hsame)
    obtain ⟨node, hnode⟩ : ∃ node, s.node (place e destination path) = some node := by
      rw [h.place_directory hmem, hwritten.others _ hother]
      by_cases hn : parts path = []
      · obtain ⟨node, hnode, -⟩ := hmade.isDirectory
        rw [hn, List.append_nil]
        exact ⟨node, hnode⟩
      · rw [h.made_below hmade hn fun _ ↦ isPart_of_mem, ← h.directory_eq hmem, if_pos hmem]
        exact ⟨_, rfl⟩
    have hopen := Disk.attempt_ok (Disk.openOld_spec hnode)
    exact ⟨s, perform_ok (h.fits_directory hroomy hmem) hopen, rfl⟩
  obtain ⟨_, hrun, rfl⟩ := hrun
  exact hrun

theorem writeListing_spec (hempty : Empty disk (locate e.cwd destination))
    (hroomy : Roomy destination ms) :
    ∃ disk₁ disk', writeListing e destination listing disk = .ok () disk' ∧
      Made e.owner disk (locate e.cwd destination) (listing.directories.map parts) disk₁ ∧
      Written e.owner disk₁ (locate e.cwd destination) listing.entries disk' := by
  obtain ⟨disk₁, hdirectories, hmade⟩ := h.makeDirectories_spec hempty hroomy fun _ ↦ mem_ordered
  obtain ⟨disk', hentries, hwritten⟩ := h.writeEntries_spec hroomy hmade
  have hsync := h.syncDirectories_spec hroomy hmade hwritten
    fun path hp ↦ mem_ordered.mp (List.mem_reverse.mp hp)
  exact ⟨disk₁, disk', (bind_ok hdirectories).trans ((bind_ok hentries).trans hsync), hmade,
    hwritten⟩

/-- What was made has names that the system has room for. -/
theorem roomy_of_writeListing (hempty : Empty disk (locate e.cwd destination))
    (hrun : writeListing e destination listing disk = .ok () disk') : Roomy destination ms := by
  obtain ⟨disk₁, hdirectories, hrest⟩ := exists_of_bind_ok hrun
  obtain ⟨disk₂, hentries, -⟩ := exists_of_bind_ok hrest
  have hstays : Disk.Stable (Disk.Short (locate e.cwd destination)) := Disk.stable_short
  have hkeeps := preserves_makeDirectory hstays e destination
  have hkeeps' := preserves_writeEntry hstays e destination
  have hdirectory (path : Path) (hp : path ∈ listing.directories) : Fits destination path := by
    obtain ⟨s₁, s₂, hs, hmake⟩ := forM_eq_ok hkeeps hempty.short hdirectories (mem_ordered.mpr hp)
    exact fits_of_makeDirectory (h.place_directory hp) hs hmake
  have hshort₁ := (Preserves.forM hkeeps _ disk hempty.short).of_ok hdirectories
  have hentry (entry : Entry) (hm : entry ∈ listing.entries) : Fits destination entry.path := by
    obtain ⟨s₁, s₂, hs, hwrite⟩ := forM_eq_ok hkeeps' hshort₁ hentries hm
    exact fits_of_writeEntry (h.place_entry hm) hs hwrite
  refine ⟨hdirectory [] ((h.directories []).mpr (.inl rfl)), fun m hm names hp ↦ ?_⟩
  by_cases hn : names = []
  · exact hn ▸ hdirectory [] ((h.directories []).mpr (.inl rfl))
  · by_cases hk : m.IsDirectory ∨ names ≠ m.names
    · exact hdirectory _ (h.needed_of_prefix hm hn hp hk)
    · rw [not_or, not_not] at hk
      obtain ⟨entry, hm', hpath, -⟩ :=
        h.entry_of_file hm ((h.legal m hm).kind.resolve_left hk.1).1
      rw [hk.2, ← hpath]
      exact hentry entry hm'

theorem head?_entries (hnone : ms.find? needsDirectory = none) :
    (listing.entries.map (·.path)).head? =
      (ms.find? (·.names ≠ [])).map fun m ↦ ofParts m.names := by
  have hpaths := congrArg (List.map Prod.fst) h.files
  rw [List.map_map, List.map_map] at hpaths
  have hkind : (ms.filter fun m ↦ m.names ≠ [] && m.type ≠ ['5']) =
      ms.filter (·.names ≠ []) := by
    refine List.filter_congr fun m hm ↦ ?_
    have hneeds := List.find?_eq_none.mp hnone m hm
    by_cases hfive : m.type = ['5']
    · rw [needsDirectory, if_pos hfive] at hneeds
      simp only [decide_eq_true_iff, not_not] at hneeds
      simp [hneeds]
    · simp [hfive]
  rw [hkind] at hpaths
  rw [← List.head?_filter, ← List.head?_map]
  exact congrArg List.head? hpaths.symm

/-- The first below the destination is a directory, or the first file where none is needed. -/
theorem topmost_cases (htop : topmost ms = some path) :
    (∃ name after, orderedDirectories listing = [] :: path :: after ∧ parts path = [name]) ∨
      ∃ entry after, orderedDirectories listing = [[]] ∧ listing.entries = entry :: after ∧
        entry.path = path := by
  obtain ⟨rest, hordered, hhead⟩ := h.ordered
  rw [topmost] at htop
  cases hfind : ms.find? needsDirectory with
  | some m =>
    rw [hfind] at htop hhead
    obtain rfl := Option.some.inj htop
    obtain ⟨after, rfl⟩ := List.head?_eq_some_iff.mp hhead
    obtain ⟨names, hne, hp, -⟩ := needsDirectory_iff.mp (List.find?_some hfind)
    have htake : m.names.take 1 <+: m.names := List.take_prefix ..
    cases hnames : m.names with
    | nil => exact absurd (List.prefix_nil.mp (hnames ▸ hp)) hne
    | cons name others =>
      refine .inl ⟨name, after, hordered, ?_⟩
      rw [topDirectory, parts_ofParts (isPart_of_initial htake), hnames]
      rfl
  | none =>
    rw [hfind] at htop hhead
    obtain rfl := List.head?_eq_none_iff.mp hhead
    have hentries := h.head?_entries hfind
    dsimp only at htop
    rw [htop, List.head?_map] at hentries
    obtain ⟨entry, hentry, hpath⟩ := Option.map_eq_some_iff.mp hentries
    obtain ⟨after, hentries⟩ := List.head?_eq_some_iff.mp hentry
    exact .inr ⟨entry, after, hordered, hentries, hpath⟩

theorem makeDirectory_top (hempty : Empty disk (locate e.cwd destination))
    (hfits : Fits destination []) : ∃ disk₁, makeDirectory e destination [] disk = .ok () disk₁ ∧
      Made e.owner disk (locate e.cwd destination) [[]] disk₁ := by
  have hplace : place e destination [] = locate e.cwd destination ++ parts [] :=
    h.place_directory ((h.directories []).mpr (.inl rfl))
  have hstep := (hempty.made e.owner).step hplace hfits
  rwa [parts_nil] at hstep

/-- Where there is no room for the first below the destination, nothing is made below it. -/
theorem writeListing_stops (hempty : Empty disk (locate e.cwd destination))
    (hfits : Fits destination []) (htop : topmost ms = some path) (hno : ¬Fits destination path) :
    ∃ failure disk', writeListing e destination listing disk = .error failure disk' ∧
      ∀ other, other ≠ locate e.cwd destination → disk'.node other = disk.node other := by
  obtain ⟨disk₁, hroot, hmade⟩ := h.makeDirectory_top hempty hfits
  have hbelow (names : List Name) (hn : names ≠ []) :
      disk₁.node (locate e.cwd destination ++ names) = none := by
    rcases hmade.below names hn with ⟨-, way, hway, hp⟩ | ⟨hnone, -⟩
    · exact absurd (List.prefix_nil.mp (List.mem_singleton.mp hway ▸ hp)) hn
    · exact hnone
  have hsame (other : Location) (hother : other ≠ locate e.cwd destination) :
      disk₁.node other = disk.node other := by
    by_cases hp : locate e.cwd destination <+: other
    · obtain ⟨names, rfl⟩ := hp
      have hn : names ≠ [] := fun hnil ↦ hother (by rw [hnil, List.append_nil])
      rw [hbelow names hn, hempty.nothing names hn]
    · exact hmade.outside other hp
  refine ⟨.unknown, disk₁, ?_, hsame⟩
  rcases h.topmost_cases htop with
    ⟨name, after, hordered, hone⟩ | ⟨entry, after, hordered, hentries, hpath⟩
  · have hmem : path ∈ listing.directories := mem_ordered.mp (by simp [hordered])
    have hstop := makeDirectory_stops hmade.isDirectory (h.place_directory hmem) hone
      (hbelow [name] (by simp)) hno
    rw [writeListing, hordered]
    exact bind_error ((bind_ok hroot).trans (bind_error hstop))
  · have hentry : entry ∈ listing.entries := by simp [hentries]
    have hshort := (preserves_makeDirectory Disk.stable_short e _ _ disk hempty.short).of_ok hroot
    have hstop := writeEntry_stops (h.place_entry hentry) hshort (hpath ▸ hno)
    rw [writeListing, hordered, hentries]
    exact (bind_ok (bind_ok hroot)).trans (bind_error (bind_error hstop))

/-- What was first made below the destination stays there, however the extraction ends. -/
theorem writeListing_leaves (hempty : Empty disk (locate e.cwd destination))
    (hfits : Fits destination []) (htop : topmost ms = some path) (hpath : Fits destination path) :
    parts path ≠ [] ∧ Ends (writeListing e destination listing) disk
      fun _ disk' ↦ disk'.node (locate e.cwd destination ++ parts path) ≠ none := by
  obtain ⟨disk₁, hroot, hmade⟩ := h.makeDirectory_top hempty hfits
  have hstays : Disk.Stable fun disk ↦
    disk.node (locate e.cwd destination ++ parts path) ≠ none := Disk.stable_present
  rcases h.topmost_cases htop with
    ⟨name, after, hordered, hone⟩ | ⟨entry, after, hordered, hentries, rfl⟩
  · have hmem : path ∈ listing.directories := mem_ordered.mp (by simp [hordered])
    have hne : parts path ≠ [] := by simp [hone]
    obtain ⟨disk₂, hmake, hmade₂⟩ := hmade.step (h.place_directory hmem) hpath
    have hthere : disk₂.node (locate e.cwd destination ++ parts path) ≠ none := by
      rcases hmade₂.below (parts path) hne with ⟨hsome, -⟩ | ⟨-, hnot⟩
      · simp [hsome]
      · exact absurd List.prefix_rfl (hnot (parts path) (by simp))
    have hrun : (orderedDirectories listing).forM (makeDirectory e destination) disk =
        after.forM (makeDirectory e destination) disk₂ := by
      rw [hordered]
      exact (bind_ok hroot).trans (bind_ok hmake)
    have hmore := Preserves.forM (preserves_makeDirectory hstays e destination) after disk₂ hthere
    refine ⟨hne, (hmore.of_run hrun).bind (fun _ s hs ↦ ?_) fun _ _ hs ↦ hs⟩
    exact Preserves.bind (.forM (preserves_writeEntry hstays e destination) _)
      (fun _ ↦ .forM (preserves_syncDirectory e destination) _) s hs
  · have hentry : entry ∈ listing.entries := by simp [hentries]
    obtain ⟨m, hm, -, hne, hparts, -⟩ := h.parts_entry hentry
    rw [← hparts] at hne
    have hinit : (parts entry.path).dropLast = [] := by
      by_contra hn
      have hp : (parts entry.path).dropLast <+: m.names := hparts ▸ List.dropLast_prefix _
      have hneeded := h.needed_of_prefix hm hn hp (.inr (hparts ▸ Disk.dropLast_ne hne))
      have hnil := mem_ordered.mpr hneeded
      rw [hordered, List.mem_singleton, ofParts_eq_nil (isPart_of_initial hp)] at hnil
      exact hn hnil
    have hfree : disk₁.node (locate e.cwd destination ++ parts entry.path) = none := by
      rcases hmade.below (parts entry.path) hne with ⟨-, way, hway, hp⟩ | ⟨hnone, -⟩
      · exact absurd (List.prefix_nil.mp (List.mem_singleton.mp hway ▸ hp)) hne
      · exact hnone
    have hnothing : Written e.owner disk₁ (locate e.cwd destination) [] disk₁ :=
      ⟨by simp, fun _ _ ↦ rfl⟩
    obtain ⟨disk₂, hwrite, hwritten⟩ := hnothing.step (h.place_entry hentry) hne hpath (by simp)
      (by simpa using hfree) (by rw [hinit, List.append_nil]; exact hmade.isDirectory)
    have hthere : disk₂.node (locate e.cwd destination ++ parts entry.path) ≠ none := by
      simp [hwritten.files entry (by simp)]
    have hrun : listing.entries.forM (writeEntry e destination) disk₁ =
        after.forM (writeEntry e destination) disk₂ := by
      rw [hentries]
      exact bind_ok hwrite
    have hmore := Preserves.forM (preserves_writeEntry hstays e destination) after disk₂ hthere
    have hfirst : (orderedDirectories listing).forM (makeDirectory e destination) disk =
        .ok () disk₁ := by
      rw [hordered]
      exact bind_ok hroot
    refine ⟨hne, Ends.of_run ?_ (bind_ok hfirst)⟩
    exact (hmore.of_run hrun).bind
      (fun _ ↦ Preserves.forM (preserves_syncDirectory e destination) _) fun _ _ hs ↦ hs

end Sealed

/-- What an extraction made below the root: the members and the directories above them. -/
structure Extracted (owner : Owner) (root : Location) (ms : List Member) (disk disk' : Disk) :
    Prop where
  kinds : ∀ m ∈ ms, m.IsDirectory ∨ m.IsFile
  inside : ∀ m ∈ ms, isAbsolute m.path = false ∧ ∀ name ∈ m.names, Plain name
  distinct : ((ms.map Member.names).filter (· ≠ [])).Nodup
  unnamed : ∀ m ∈ ms, m.names = [] → m.IsDirectory
  separate : ∀ m ∈ ms, m.IsFile → ∀ m' ∈ ms, m.names <+: m'.names → m.names = m'.names
  files : ∀ m ∈ ms, m.IsFile → ∃ mode, fileMode m = .ok mode ∧
    disk'.node (root ++ m.names) = some ⟨.file m.content, mode, owner, 1⟩
  directories : ∀ m ∈ ms, ∀ names, m.Needs names →
    disk'.node (root ++ names) = some ⟨.directory, 0o755, owner, 1⟩
  only : ∀ names, names ≠ [] → disk'.node (root ++ names) ≠ none → ∃ m ∈ ms, names <+: m.names
  top : ∃ node, disk.node root = some node ∧ disk'.node root = some { node with mode := 0o755 }
  outside : ∀ other, ¬root <+: other → disk'.node other = disk.node other

theorem Reflects.distinct_names (h : Reflects ms listing) :
    ((ms.map Member.names).filter (· ≠ [])).Nodup := by
  have hseen := h.distinct
  rw [h.seen] at hseen
  rw [List.filter_map]
  refine List.Nodup.of_map ofParts ?_
  rwa [List.map_map]

theorem Member.Legal.plain (h : m.Legal) : ∀ name ∈ m.names, Plain name := by
  intro name hm
  have hpart : IsPart name := isPart_names name hm
  exact ⟨hpart.notEmpty, hpart.notCurrent, fun heq ↦ h.notAbove (heq ▸ hm), hpart.noSeparator⟩

theorem Sealed.extracted (h : Sealed ms listing)
    (hmade : Made e.owner disk (locate e.cwd destination) (listing.directories.map parts) disk₁)
    (hwritten : Written e.owner disk₁ (locate e.cwd destination) listing.entries disk') :
    Extracted e.owner (locate e.cwd destination) ms disk disk' where
  kinds m hm := (h.legal m hm).kind.imp_right And.left
  inside m hm := ⟨(h.legal m hm).relative, (h.legal m hm).plain⟩
  distinct := h.distinct_names
  unnamed m hm hn := (h.legal m hm).kind.resolve_right fun hk ↦ hk.2 hn
  separate m hm hfile m' hm' := h.file_above hm hfile hm'
  files m hm hfile := by
    obtain ⟨entry, hentry, hpath, hcontent, hmode⟩ := h.entry_of_file hm hfile
    have hnode := hwritten.files entry hentry
    rw [hpath, parts_ofParts isPart_names, fileNode, hcontent] at hnode
    exact ⟨entry.mode, hmode, hnode⟩
  directories m hm names hneeds := by
    have hmem := h.needed_of_prefix hm hneeds.1 hneeds.2.1 hneeds.2.2
    have hparts := parts_ofParts (isPart_of_initial hneeds.2.1)
    rw [hwritten.others, h.made_below hmade hneeds.1 (isPart_of_initial hneeds.2.1), if_pos hmem]
    · rfl
    · intro entry hentry heq
      refine h.directory_ne_entry hmem hentry ?_
      rw [hparts]
      exact List.append_cancel_left heq
  only names hn hsome := by
    by_cases hfile : ∃ entry ∈ listing.entries, names = parts entry.path
    · obtain ⟨entry, hentry, rfl⟩ := hfile
      obtain ⟨m, hm, -, -, hparts, -⟩ := h.parts_entry hentry
      exact ⟨m, hm, hparts ▸ List.prefix_rfl⟩
    · rw [hwritten.others _ fun entry hentry heq ↦
        hfile ⟨entry, hentry, List.append_cancel_left heq⟩] at hsome
      rcases hmade.below names hn with ⟨-, way, hway, hp⟩ | ⟨hnone, -⟩
      · obtain ⟨path, hpath, rfl⟩ := List.mem_map.mp hway
        rcases (h.directories path).mp hpath with rfl | ⟨m, hm, needed, hneeds, rfl⟩
        · rw [parts_nil] at hp
          exact absurd (List.prefix_nil.mp hp) hn
        · rw [parts_ofParts (isPart_of_initial hneeds.2.1)] at hp
          exact ⟨m, hm, hp.trans hneeds.2.1⟩
      · exact absurd hnone hsome
  top := by
    obtain ⟨node, hnode, -, htop⟩ := hmade.top
    refine ⟨node, hnode, ?_⟩
    rw [hwritten.others, htop, if_pos]
    · exact List.mem_map.mpr ⟨[], (h.directories []).mpr (.inl rfl), parts_nil⟩
    · intro entry hentry heq
      obtain ⟨m, -, -, hne, hparts, -⟩ := h.parts_entry hentry
      exact hne (hparts ▸ (List.self_eq_append_right.mp heq))
  outside other hother := by
    rw [hwritten.others, hmade.outside other hother]
    rintro entry - rfl
    exact hother (List.prefix_append ..)

theorem Reflects.nodup_names (h : Reflects ms listing) :
    (ms.map Member.names).Nodup ↔ (ms.filter (·.names = [])).length ≤ 1 := by
  have hroot : (ms.map Member.names).count [] = (ms.filter (·.names = [])).length := by
    rw [List.count, List.countP_map, List.countP_eq_length_filter]
    refine congrArg List.length (List.filter_congr fun m _ ↦ ?_)
    cases hn : m.names <;> simp [hn]
  rw [← hroot, List.nodup_iff_count_le_one]
  refine ⟨fun hall ↦ hall [], fun hone names ↦ ?_⟩
  by_cases hn : names = []
  · exact hn ▸ hone
  · have hcount := List.nodup_iff_count_le_one.mp h.distinct_names names
    rwa [List.count_filter (by simpa using hn)] at hcount

/-- The listing, and nothing more, stands below the root, each member under a name of its own. -/
structure Exact (owner : Owner) (root : Location) (ms : List Member) (disk disk' : Disk) : Prop
    extends Extracted owner root ms disk disk' where
  once : (ms.map Member.names).Nodup
  listed : ∀ names, names ≠ [] → disk'.node (root ++ names) ≠ none → ∃ m ∈ ms, m.names = names

/-- An archive is refused before anything is made below the destination, or extracted. -/
def Contained (e : Environment) (destination : Path) (archive : List UInt8) (disk : Disk) : Prop :=
  (∃ failure disk', extractArchive e destination archive disk = .error failure disk' ∧
    ∀ other, other ≠ locate e.cwd destination → disk'.node other = disk.node other) ∨
  ∃ bytes disk', e.gunzipSync archive = .ok bytes ∧
    extractArchive e destination archive disk = .ok () disk' ∧
    Exact e.owner (locate e.cwd destination) (members e.decode (bytes.length / 512) bytes none)
      disk disk'

/-- One member at most is the destination itself, and what a member lies in is a member. -/
structure Extractable (destination : Path) (ms : List Member) : Prop
    extends Roomy destination ms where
  single : (ms.filter (·.names = [])).length ≤ 1
  listed : ∀ m ∈ ms, ∀ names, m.Needs names → ∃ m' ∈ ms, m'.names = names

/-- There is no room for the very first that is to be made. -/
def Cramped (destination : Path) (ms : List Member) : Prop :=
  ¬Fits destination [] ∨ ∃ path, topmost ms = some path ∧ ¬Fits destination path

theorem topmost_prefix {ms : List Member} (htop : topmost ms = some path) :
    ∃ m ∈ ms, ∃ names, names <+: m.names ∧ path = ofParts names := by
  rw [topmost] at htop
  cases hfind : ms.find? needsDirectory with
  | some m =>
    rw [hfind] at htop
    cases htop
    exact ⟨m, List.mem_of_find?_eq_some hfind, _, List.take_prefix .., rfl⟩
  | none =>
    rw [hfind] at htop
    obtain ⟨m, hm, rfl⟩ := Option.map_eq_some_iff.mp htop
    exact ⟨m, List.mem_of_find?_eq_some hm, _, List.prefix_rfl, rfl⟩

/-- A listing that there is room for is never cramped. -/
theorem Roomy.not_cramped (h : Roomy destination ms) : ¬Cramped destination ms := by
  rintro (htop | ⟨path, hfirst, hno⟩)
  · exact htop h.top
  · obtain ⟨m, hm, names, hp, rfl⟩ := topmost_prefix hfirst
    exact hno (h.below m hm names hp)

/-- With no first below the destination there is nothing that could be too long. -/
theorem roomy_of_topmost_none (hfits : Fits destination []) (h : topmost ms = none) :
    Roomy destination ms := by
  refine ⟨hfits, fun m hm names hp ↦ ?_⟩
  rw [topmost] at h
  cases hfind : ms.find? needsDirectory with
  | some m =>
    rw [hfind] at h
    cases h
  | none =>
    rw [hfind] at h
    have hnil := List.find?_eq_none.mp (Option.map_eq_none_iff.mp h) m hm
    simp only [decide_eq_true_iff, not_not] at hnil
    rw [hnil] at hp
    rw [List.prefix_nil.mp hp]
    exact hfits

theorem Extracted.exact_iff {owner : Owner} {root : Location}
    (h : Extracted owner root ms disk disk') (hreflects : Reflects ms listing) :
    Exact owner root ms disk disk' ↔ (ms.filter (·.names = [])).length ≤ 1 ∧
      ∀ m ∈ ms, ∀ names, m.Needs names → ∃ m' ∈ ms, m'.names = names := by
  rw [← hreflects.nodup_names]
  constructor
  · intro hexact
    refine ⟨hexact.once, fun m hm names hneeds ↦ hexact.listed names hneeds.1 ?_⟩
    rw [h.directories m hm names hneeds]
    exact Option.some_ne_none _
  · rintro ⟨honce, hlisted⟩
    refine ⟨h, honce, fun names hn hnode ↦ ?_⟩
    obtain ⟨m, hm, hp⟩ := h.only names hn hnode
    by_cases heq : names = m.names
    · exact ⟨m, hm, heq.symm⟩
    · exact hlisted m hm names ⟨hn, hp, .inr heq⟩

/-- An archive that passed the checks is extracted where there is room for all its names. -/
theorem Sealed.extraction_spec (h : Sealed ms listing)
    (hempty : Empty disk (locate e.cwd destination)) (hroomy : Roomy destination ms) :
    ∃ disk', writeListing e destination listing disk = .ok () disk' ∧
      Extracted e.owner (locate e.cwd destination) ms disk disk' := by
  obtain ⟨disk₁, disk', hrun, hmade, hwritten⟩ := h.writeListing_spec hempty hroomy
  exact ⟨disk', hrun, h.extracted hmade hwritten⟩

theorem Sealed.cramped_stops (h : Sealed ms listing)
    (hempty : Empty disk (locate e.cwd destination)) (hcramped : Cramped destination ms) :
    ∃ failure disk', writeListing e destination listing disk = .error failure disk' ∧
      ∀ other, other ≠ locate e.cwd destination → disk'.node other = disk.node other := by
  by_cases hfits : Fits destination []
  · obtain ⟨path, htop, hno⟩ := hcramped.resolve_left (not_not.mpr hfits)
    exact h.writeListing_stops hempty hfits htop hno
  · have hlong : ¬byteLength (join destination []) < pathMax :=
      fun hlt ↦ hfits ⟨by simp, hlt⟩
    have hstop : makeDirectory e destination [] disk = .error .unknown disk :=
      bind_error (by rw [perform, if_neg hlong])
    obtain ⟨rest, hordered, -⟩ := h.ordered
    refine ⟨.unknown, disk, ?_, fun _ _ ↦ rfl⟩
    rw [writeListing, hordered]
    exact bind_error (bind_error hstop)

/-- Where there is room for the first but not for all, something is left behind. -/
theorem Sealed.leaves (h : Sealed ms listing) (hempty : Empty disk (locate e.cwd destination))
    (hroomy : ¬Roomy destination ms) (hcramped : ¬Cramped destination ms) :
    ∃ failure disk', writeListing e destination listing disk = .error failure disk' ∧
      ∃ other, other ≠ locate e.cwd destination ∧ disk'.node other ≠ disk.node other := by
  rw [Cramped, not_or, not_not] at hcramped
  obtain ⟨hfits, hfirst⟩ := hcramped
  cases htop : topmost ms with
  | none => exact absurd (roomy_of_topmost_none hfits htop) hroomy
  | some path =>
    have hpath : Fits destination path := by
      by_contra hno
      exact hfirst ⟨path, htop, hno⟩
    obtain ⟨hne, hleaves⟩ := h.writeListing_leaves hempty hfits htop hpath
    cases hrun : writeListing e destination listing disk with
    | ok _ disk' => exact absurd (h.roomy_of_writeListing hempty hrun) hroomy
    | error failure disk' =>
      refine ⟨failure, disk', rfl, _, fun heq ↦ hne (List.self_eq_append_right.mp heq.symm), ?_⟩
      rw [hempty.nothing _ hne]
      exact hleaves.of_error hrun

theorem sealed_of_readArchive {archive : List UInt8} (h : readArchive e archive = .ok listing) :
    ∃ bytes, e.gunzipSync archive = .ok bytes ∧
      Sealed (members e.decode (bytes.length / 512) bytes none) listing := by
  obtain ⟨bytes, hbytes, hlist⟩ := bind_eq_ok.mp h
  obtain ⟨listing', hlist, hfinish⟩ := bind_eq_ok.mp hlist
  obtain ⟨⟨⟩, hfinish, hspace⟩ := bind_eq_ok.mp hfinish
  obtain ⟨⟨⟩, -, hspace⟩ := bind_eq_ok.mp hspace
  cases hspace
  exact ⟨bytes, hbytes, sealed_of_finish (list_spec reflects_start hlist) hfinish⟩

/-- Past its checks an extraction is contained where everything fits, or not even the first. -/
theorem extraction_contained (archive : List UInt8)
    (hempty : Empty disk (locate e.cwd destination)) :
    Contained e destination archive disk ↔
      (∃ failure, readArchive e archive = .error failure) ∨
      ∃ bytes, e.gunzipSync archive = .ok bytes ∧
        (Extractable destination (members e.decode (bytes.length / 512) bytes none) ∨
          Cramped destination (members e.decode (bytes.length / 512) bytes none)) := by
  rcases hread : readArchive e archive with failure | listing
  · have hrun : extractArchive e destination archive disk = .error failure disk := by
      rw [extractArchive, hread]
    exact iff_of_true (.inl ⟨failure, disk, hrun, fun _ _ ↦ rfl⟩) (.inl ⟨failure, rfl⟩)
  · obtain ⟨bytes, hbytes, hsealed⟩ := sealed_of_readArchive hread
    have hrun : extractArchive e destination archive disk =
        writeListing e destination listing disk := by
      rw [extractArchive, hread]
    rw [Contained, hrun]
    by_cases hcramped : Cramped destination (members e.decode (bytes.length / 512) bytes none)
    · obtain ⟨failure, disk', hstop, hsame⟩ := hsealed.cramped_stops hempty hcramped
      exact iff_of_true (.inl ⟨failure, disk', hstop, hsame⟩) (.inr ⟨bytes, hbytes, .inr hcramped⟩)
    · by_cases hroomy : Roomy destination (members e.decode (bytes.length / 512) bytes none)
      · obtain ⟨disk', hdone, hextracted⟩ := hsealed.extraction_spec hempty hroomy
        have hiff := hextracted.exact_iff hsealed.toReflects
        constructor
        · rintro (⟨_, _, hfailed, -⟩ | ⟨_, _, hbytes', hdone', hexact⟩)
          · cases hdone.symm.trans hfailed
          · cases hbytes.symm.trans hbytes'
            cases hdone.symm.trans hdone'
            obtain ⟨hsingle, hlisted⟩ := hiff.mp hexact
            exact .inr ⟨bytes, hbytes, .inl ⟨hroomy, hsingle, hlisted⟩⟩
        · rintro (⟨_, hfailed⟩ | ⟨_, hbytes', hroom⟩)
          · cases hfailed
          · cases hbytes.symm.trans hbytes'
            have hall := hroom.resolve_right hcramped
            exact .inr ⟨bytes, disk', hbytes, hdone, hiff.mpr ⟨hall.single, hall.listed⟩⟩
      · obtain ⟨failure, disk', hstop, other, hother, hchanged⟩ :=
          hsealed.leaves hempty hroomy hcramped
        refine iff_of_false ?_ ?_
        · rintro (⟨_, _, hfailed, hsame⟩ | ⟨_, _, -, hdone, -⟩)
          · cases hstop.symm.trans hfailed
            exact hchanged (hsame other hother)
          · cases hstop.symm.trans hdone
        · rintro (⟨_, hfailed⟩ | ⟨_, hbytes', hroom⟩)
          · cases hfailed
          · cases hbytes.symm.trans hbytes'
            exact hroom.elim (fun hall ↦ hroomy hall.toRoomy) hcramped

def sampleField (length : ℕ) (text : List Char) : List UInt8 :=
  text.map (fun c ↦ UInt8.ofNat c.toNat) ++ List.replicate (length - text.length) 0

def sampleHeader (name : List Char) (size sum type : String) : List UInt8 :=
  sampleField 100 name ++ sampleField 24 "0000644".toList ++ sampleField 12 size.toList ++
    sampleField 12 "00000000000".toList ++ sampleField 7 sum.toList ++ [32] ++
      sampleField 356 type.toList

/-- The destination itself, a directory, and a file in it. -/
def sampleTar : List UInt8 :=
  sampleHeader "./".toList "00000000000" "003420" "5" ++
    sampleHeader "a/".toList "00000000000" "003503" "5" ++
      sampleHeader "a/b".toList "00000000002" "003642" "0" ++ sampleField 512 "hi".toList

def sampleArchive : List UInt8 :=
  [31, 139, 8, 0, 0, 0, 0, 0, 2, 255, 211, 211, 103, 160, 57, 48, 0, 2, 51, 19, 19, 172, 226, 80,
    128, 198, 54, 54, 49, 50, 96, 80, 48, 101, 24, 5, 180, 6, 137, 131, 51, 254, 77, 13, 140, 71,
    227, 159, 62, 241, 159, 52, 8, 226, 223, 8, 61, 254, 205, 76, 140, 24, 20, 12, 70, 163, 135,
    230, 32, 35, 115, 52, 12, 70, 50, 0, 0, 36, 131, 138, 95, 0, 8, 0, 0]

def longName : List Char := "d/".toList ++ List.replicate 256 'a'

/-- A file whose long name is given by the header before it. -/
def longTar : List UInt8 :=
  sampleHeader "././@LongLink".toList "00000000402" "005350" "L" ++ sampleField 512 longName ++
    sampleHeader (longName.take 100) "00000000000" "026143" "0"

def longArchive : List UInt8 :=
  [31, 139, 8, 0, 0, 0, 0, 0, 2, 255, 211, 211, 215, 211, 119, 240, 201, 207, 75, 247, 201, 204,
    203, 102, 160, 13, 48, 0, 2, 51, 19, 19, 172, 226, 32, 96, 98, 96, 4, 103, 3, 1, 144, 109, 106,
    108, 106, 192, 160, 224, 195, 48, 10, 104, 13, 82, 244, 19, 71, 56, 24, 141, 127, 90, 3, 66,
    249, 31, 146, 231, 145, 216, 70, 102, 134, 38, 198, 12, 10, 6, 163, 217, 147, 230, 0, 0, 22,
    228, 48, 77, 0, 6, 0, 0]

def sampleEnvironment : Environment where
  decode bytes := bytes.map fun byte ↦ Char.ofNat byte.toNat
  gunzipSync archive :=
    if archive = sampleArchive then .ok sampleTar
    else if archive = longArchive then .ok longTar
    else .error .unknown
  statfs := .ok ⟨4096, 16384⟩
  owner := ⟨0, 0⟩
  cwd := []

def sampleDisk : Disk where
  nodes := ⟨[([], ⟨.directory, 0o755, ⟨0, 0⟩, 1⟩)], by simp⟩
  root := ⟨_, rfl, rfl⟩
  parents location node h hne := by
    have hm := OrderedMap.get?_eq_some.mp h
    simp only [List.mem_singleton, Prod.mk.injEq] at hm
    exact absurd hm.1 hne

theorem sampleDisk_empty : Empty sampleDisk (locate [] ['/']) where
  directory := Disk.isDirectory_root
  nothing names hn := by
    rcases hnode : sampleDisk.node (locate [] ['/'] ++ names) with _ | node
    · rfl
    · have hm := OrderedMap.get?_eq_some.mp hnode
      simp only [sampleDisk, List.mem_singleton, Prod.mk.injEq] at hm
      exact absurd (List.append_eq_nil_iff.mp hm.1).2 hn

def sampleMembers : List Member :=
  members sampleEnvironment.decode (sampleTar.length / 512) sampleTar none

theorem sample_extractable : Extractable ['/'] sampleMembers := by
  have hbelow : ∀ m ∈ sampleMembers, ∀ names ∈ m.names.inits,
      Fits ['/'] (ofParts names) ∧ (names ≠ [] → ∃ m' ∈ sampleMembers, m'.names = names) := by
    decide +kernel
  refine ⟨⟨by decide +kernel, fun m hm names hp ↦ ?_⟩, by decide +kernel, ?_⟩
  · exact (hbelow m hm names ((List.mem_inits _ _).mpr hp)).1
  · intro m hm names hneeds
    exact (hbelow m hm names ((List.mem_inits _ _).mpr hneeds.2.1)).2 hneeds.1

theorem sample_extracted : (readArchive sampleEnvironment sampleArchive).isOk = true ∧
    Contained sampleEnvironment ['/'] sampleArchive sampleDisk :=
  ⟨by decide +kernel, (extraction_contained sampleArchive sampleDisk_empty).mpr
    (.inr ⟨sampleTar, by decide +kernel, .inl sample_extractable⟩)⟩

def failedDisk : EStateM.Result Failure Disk Unit → Option Disk
  | .ok _ _ => none
  | .error _ disk => some disk

/-- A directory is left behind when the name of the file in it is too long. -/
theorem long_name_uncontained : Empty sampleDisk (locate [] ['/']) ∧
    ¬Contained sampleEnvironment ['/'] longArchive sampleDisk := by
  have hleft : (failedDisk (extractArchive sampleEnvironment ['/'] longArchive sampleDisk)).map
      (fun disk ↦ (disk.node [['d']]).isSome) = some true := by
    decide +kernel
  refine ⟨sampleDisk_empty, ?_⟩
  rintro (⟨failure, disk', hrun, hsame⟩ | ⟨bytes, disk', -, hrun, -⟩)
  · rw [hrun] at hleft
    have hnone : disk'.node [['d']] = none := hsame [['d']] (by decide)
    rw [failedDisk, Option.map_some, hnone] at hleft
    cases hleft
  · rw [hrun] at hleft
    cases hleft

end RustdeskConsole.Archives
