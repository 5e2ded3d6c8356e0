import RustdeskConsole.Archives.Members
import RustdeskConsole.Effects.Outcomes
import RustdeskConsole.Posix.Disk

namespace RustdeskConsole.Archives

open Collections Posix Effects Effects.Guard Effects.Loop
open Updater (Failure)
open Releases (check)

structure Space where
  bsize : ℕ
  bavail : ℕ

def releaseSpaceReserve : ℕ := 16 * 1024 * 1024

def checkReleaseSpace (statfs : Except Failure Space) (fileSizes : List ℕ) (directoryCount : ℕ) :
    Except Failure Unit := do
  let space ← statfs
  let required := (fileSizes.map fun size ↦
    (size + space.bsize - 1) / space.bsize * space.bsize).sum +
      directoryCount * space.bsize + releaseSpaceReserve
  let available := space.bavail * space.bsize
  check (available ≥ required) "INSUFFICIENT_DISK"
    ("Release staging requires " ++ toString required ++ " bytes; " ++ toString available ++
      " bytes are available on its filesystem (includes a 16 MiB safety reserve).")

/-- What surrounds the extraction: how bytes are read as UTF-8 and expanded, the space that is
free, and the user and the directory of the process. -/
structure Environment where
  decode : List UInt8 → List Char
  gunzipSync : List UInt8 → Except Failure (List UInt8)
  statfs : Except Failure Space
  owner : Owner
  cwd : Location

def depth (path : Path) : ℕ := (segments path).length

variable (e : Environment)

def readArchive (archive : List UInt8) : Except Failure Listing := do
  let bytes ← e.gunzipSync archive
  let listing ← list e.decode (bytes.length / 512) bytes start
  finish listing
  checkReleaseSpace e.statfs (listing.entries.map (·.content.length)) listing.directories.length
  pure listing

variable (destination : Path)

def place (path : Path) : Location := locate e.cwd (join destination path)

/-- A call of the system that names a path. -/
def perform (path : Path) (call : Location → EStateM Errno Disk Unit) :
    EStateM Failure Disk Unit := fun disk ↦
  if byteLength path < pathMax then
    match call (locate e.cwd path) disk with
    | .ok _ disk => .ok () disk
    | .error _ disk => .error .unknown disk
  else .error .unknown disk

def makeDirectory (directory : Path) : EStateM Failure Disk Unit := do
  let path := join destination directory
  perform e path (Disk.mkdirAll e.owner 0o755)
  perform e path fun location ↦ Disk.attempt (Disk.chmod location 0o755)

def writeEntry (entry : Entry) : EStateM Failure Disk Unit :=
  perform e (join destination entry.path) fun handle ↦ do
    Disk.attempt (Disk.openNew e.owner handle entry.mode)
    Disk.attempt (Disk.chmod handle entry.mode)
    Disk.attempt (Disk.writeFile handle entry.content)

def syncDirectory (directory : Path) : EStateM Failure Disk Unit :=
  perform e (join destination directory) fun location ↦ Disk.attempt (Disk.openOld location)

def orderedDirectories (listing : Listing) : List Path :=
  listing.directories.insertionSort fun left right ↦ depth left ≤ depth right

def writeListing (listing : Listing) : EStateM Failure Disk Unit := do
  (orderedDirectories listing).forM (makeDirectory e destination)
  listing.entries.forM (writeEntry e destination)
  (orderedDirectories listing).reverse.forM (syncDirectory e destination)

def extractArchive (archive : List UInt8) : EStateM Failure Disk Unit := fun disk ↦
  match readArchive e archive with
  | .error failure => .error failure disk
  | .ok listing => writeListing e destination listing disk

/-- The system has room for the names of a path and for the path below the destination. -/
def Fits (path : Path) : Prop :=
  (∀ name ∈ parts path, byteLength name ≤ nameMax) ∧
    byteLength (join destination path) < pathMax

instance (path : Path) : Decidable (Fits destination path) := inferInstanceAs (Decidable (_ ∧ _))

/-- A directory that holds nothing. -/
structure Empty (disk : Disk) (location : Location) : Prop where
  directory : disk.IsDirectory location
  nothing : ∀ names, names ≠ [] → disk.node (location ++ names) = none

variable {e destination} {disk disk₀ disk₁ : Disk} {root other : Location} {names way : List Name}
  {path : Path} {entry : Entry} {entries : List Entry} {done : List (List Name)}

theorem perform_ok {call : Location → EStateM Errno Disk Unit} (hfits : Fits destination path)
    (h : call (place e destination path) disk = .ok () disk₁) :
    perform e (join destination path) call disk = .ok () disk₁ := by
  rw [place] at h
  rw [perform, if_pos hfits.2, h]

theorem perform_eq_ok {call : Location → EStateM Errno Disk Unit}
    (h : perform e (join destination path) call disk = .ok () disk₁) :
    byteLength (join destination path) < pathMax ∧
      call (place e destination path) disk = .ok () disk₁ := by
  rw [perform] at h
  split at h
  · next hlt =>
    refine ⟨hlt, ?_⟩
    rw [place]
    cases hcall : call (locate e.cwd (join destination path)) disk with
    | ok _ s =>
      rw [hcall] at h
      cases h
      rfl
    | error =>
      rw [hcall] at h
      cases h
  · cases h

theorem preserves_perform {P : Disk → Prop} {call : Location → EStateM Errno Disk Unit}
    (h : Preserves P (call (locate e.cwd path))) : Preserves P (perform e path call) := by
  intro disk hP
  have hcall := h disk hP
  rw [Ends] at hcall ⊢
  rw [perform]
  by_cases hlt : byteLength path < pathMax
  · rw [if_pos hlt]
    cases hc : call (locate e.cwd path) disk with
    | ok _ s =>
      rw [hc] at hcall
      exact hcall
    | error _ s =>
      rw [hc] at hcall
      exact hcall
  · rw [if_neg hlt]
    exact hP

theorem preserves_makeDirectory {P : Disk → Prop} (h : Disk.Stable P) (e : Environment)
    (destination path : Path) : Preserves P (makeDirectory e destination path) :=
  .bind (preserves_perform h.mkdirFrom) fun _ ↦ preserves_perform h.chmod

theorem preserves_writeEntry {P : Disk → Prop} (h : Disk.Stable P) (e : Environment)
    (destination : Path) (entry : Entry) : Preserves P (writeEntry e destination entry) :=
  preserves_perform (.bind h.openNew fun _ ↦ .bind h.chmod fun _ ↦ h.writeFile)

theorem preserves_syncDirectory {P : Disk → Prop} (e : Environment) (destination path : Path) :
    Preserves P (syncDirectory e destination path) :=
  preserves_perform Disk.Stable.openOld

theorem prefix_append_cases (h : other <+: root ++ way) :
    other <+: root ∨ ∃ names, other = root ++ names ∧ names <+: way := by
  rcases List.prefix_or_prefix_of_prefix h (List.prefix_append root way) with hp | ⟨names, rfl⟩
  · exact .inl hp
  · exact .inr ⟨names, rfl, (List.prefix_append_right_inj root).mp h⟩

def made (owner : Owner) : Node := ⟨.directory, 0o755, owner, 1⟩

/-- The disk after the directories below the root were made. -/
structure Made (owner : Owner) (disk₀ : Disk) (root : Location) (done : List (List Name))
    (disk : Disk) : Prop where
  outside : ∀ other, ¬root <+: other → disk.node other = disk₀.node other
  top : ∃ node, disk₀.node root = some node ∧ node.content = .directory ∧
    disk.node root = some (if [] ∈ done then { node with mode := 0o755 } else node)
  below : ∀ names, names ≠ [] →
    disk.node (root ++ names) = some (made owner) ∧ (∃ way ∈ done, names <+: way) ∨
      disk.node (root ++ names) = none ∧ ∀ way ∈ done, ¬names <+: way

theorem Empty.short (h : Empty disk root) : Disk.Short root disk := by
  intro names hn
  by_cases hnil : names = []
  · simp [hnil]
  · exact absurd (h.nothing names hnil) hn

theorem Empty.made (h : Empty disk root) (owner : Owner) : Made owner disk root [] disk where
  outside _ _ := rfl
  top := by
    obtain ⟨node, hnode, hd⟩ := h.directory
    exact ⟨node, hnode, hd, by simpa using hnode⟩
  below names hn := .inr ⟨h.nothing names hn, by simp⟩

theorem Made.of_mem (h : Made e.owner disk₀ root done disk) {done' : List (List Name)}
    (hm : ∀ way, way ∈ done ↔ way ∈ done') : Made e.owner disk₀ root done' disk where
  outside := h.outside
  top := by simpa only [hm] using h.top
  below := by simpa only [hm] using h.below

theorem Made.isDirectory (h : Made e.owner disk₀ root done disk) : disk.IsDirectory root := by
  obtain ⟨node, -, hd, hnode⟩ := h.top
  refine ⟨_, hnode, ?_⟩
  split <;> exact hd

theorem getLast?_append_mem {names : List Name} (hn : names ≠ []) :
    (root ++ names).getLast?.getD [] ∈ names := by
  rw [List.getLast?_append_of_ne_nil _ hn, List.getLast?_eq_getLast_of_ne_nil hn]
  exact List.getLast_mem hn

theorem Made.free_way (h : Made e.owner disk₀ root done disk) {way : List Name}
    (hfits : ∀ name ∈ way, byteLength name ≤ nameMax) :
    ∀ other, other <+: root ++ way →
      disk.node other = none ∧ byteLength (other.getLast?.getD []) ≤ nameMax ∨
        disk.IsDirectory other := by
  intro other hother
  rcases prefix_append_cases hother with hother | ⟨names, rfl, hpre⟩
  · exact .inr (Disk.isDirectory_of_prefix h.isDirectory hother)
  · by_cases hn : names = []
    · rw [hn, List.append_nil]
      exact .inr h.isDirectory
    · rcases h.below names hn with ⟨hnode, -⟩ | ⟨hnode, -⟩
      · exact .inr ⟨_, hnode, rfl⟩
      · exact .inl ⟨hnode, hfits _ (hpre.subset (getLast?_append_mem hn))⟩

/-- `mkdir` fills in what is missing on the way to a directory below the root. -/
theorem Made.mkdirAll (h : Made e.owner disk₀ root done disk) {way : List Name}
    (hfits : ∀ name ∈ way, byteLength name ≤ nameMax) :
    ∃ disk₁, Disk.mkdirAll e.owner 0o755 (root ++ way) disk = .ok () disk₁ ∧
      (∀ other, ¬root <+: other → disk₁.node other = disk.node other) ∧
      disk₁.node root = disk.node root ∧
      ∀ names, names ≠ [] → disk₁.node (root ++ names) =
        if names <+: way then some (made e.owner) else disk.node (root ++ names) := by
  obtain ⟨disk₁, hmkdir, hnode⟩ := Disk.mkdirAll_spec e.owner 0o755 (h.free_way hfits)
  refine ⟨disk₁, hmkdir, fun other hother ↦ ?_, ?_, fun names hn ↦ ?_⟩
  · rw [hnode, if_neg]
    intro ⟨hnone, hp⟩
    rcases prefix_append_cases hp with hp | ⟨names, rfl, -⟩
    · obtain ⟨node, hsome, -⟩ := Disk.isDirectory_of_prefix h.isDirectory hp
      cases hnone.symm.trans hsome
    · exact hother (List.prefix_append ..)
  · rw [hnode, if_neg]
    intro ⟨hnone, _⟩
    obtain ⟨node, hsome, -⟩ := h.isDirectory
    cases hnone.symm.trans hsome
  · simp only [hnode, List.prefix_append_right_inj]
    rcases h.below names hn with ⟨hsome, -⟩ | ⟨hnone, -⟩
    · simp [hsome, made]
    · simp [hnone, made]

theorem Made.step (h : Made e.owner disk₀ root done disk)
    (hp : place e destination path = root ++ parts path) (hfits : Fits destination path) :
    ∃ disk', makeDirectory e destination path disk = .ok () disk' ∧
      Made e.owner disk₀ root (done ++ [parts path]) disk' := by
  obtain ⟨disk₁, hmkdir, houtside, htop, hbelow⟩ := h.mkdirAll hfits.1
  generalize hway : parts path = way at hp hmkdir hbelow
  obtain ⟨node, hnode₀, hd, hnode⟩ := h.top
  obtain ⟨given, hgiven⟩ : ∃ given, disk₁.node (root ++ way) = some given := by
    by_cases hw : way = []
    · rw [hw, List.append_nil, htop, hnode]
      exact ⟨_, rfl⟩
    · rw [hbelow way hw, if_pos List.prefix_rfl]
      exact ⟨_, rfl⟩
  obtain ⟨disk', hchmod, hall⟩ := Disk.chmod_spec 0o755 hgiven
  refine ⟨disk', ?_, ?_, ?_, ?_⟩
  · rw [← hp] at hmkdir hchmod
    exact (bind_ok (perform_ok hfits hmkdir)).trans
      (perform_ok hfits (Disk.attempt_ok hchmod))
  · intro other hother
    rw [hall, if_neg, houtside other hother, h.outside other hother]
    rintro rfl
    exact hother (List.prefix_append ..)
  · refine ⟨node, hnode₀, hd, ?_⟩
    rw [hall]
    by_cases hw : way = []
    · subst hw
      rw [List.append_nil, htop, hnode] at hgiven
      rw [List.append_nil, if_pos rfl, ← Option.some.inj hgiven]
      split <;> simp
    · rw [if_neg (by simpa using hw), htop, hnode]
      simp [Ne.symm hw]
  · intro names hn
    rw [hall]
    by_cases hw : names = way
    · subst hw
      rw [hbelow names hn, if_pos List.prefix_rfl] at hgiven
      rw [if_pos rfl, ← Option.some.inj hgiven]
      exact .inl ⟨rfl, names, by simp, List.prefix_rfl⟩
    · rw [if_neg (by simpa using hw), hbelow names hn]
      by_cases hpre : names <+: way
      · exact .inl ⟨if_pos hpre, way, by simp, hpre⟩
      · rw [if_neg hpre]
        rcases h.below names hn with ⟨hsome, way', hm, hp'⟩ | ⟨hnone, hdone⟩
        · exact .inl ⟨hsome, way', by simp [hm], hp'⟩
        · refine .inr ⟨hnone, fun way' hm ↦ ?_⟩
          rcases List.mem_append.mp hm with hm | hm
          · exact hdone way' hm
          · exact List.mem_singleton.mp hm ▸ hpre

def fileNode (owner : Owner) (entry : Entry) : Node := ⟨.file entry.content, entry.mode, owner, 1⟩

/-- The disk after entries were written below the root. -/
structure Written (owner : Owner) (disk₁ : Disk) (root : Location) (entries : List Entry)
    (disk : Disk) : Prop where
  files : ∀ entry ∈ entries, disk.node (root ++ parts entry.path) = some (fileNode owner entry)
  others : ∀ other, (∀ entry ∈ entries, other ≠ root ++ parts entry.path) →
    disk.node other = disk₁.node other

theorem Written.step (h : Written e.owner disk₁ root entries disk)
    (hp : place e destination entry.path = root ++ parts entry.path)
    (hne : parts entry.path ≠ []) (hfits : Fits destination entry.path)
    (hnew : ∀ other ∈ entries, parts other.path ≠ parts entry.path)
    (hnone : ∀ other ∈ entries ++ [entry], disk₁.node (root ++ parts other.path) = none)
    (hd : disk₁.IsDirectory (root ++ (parts entry.path).dropLast)) :
    ∃ disk', writeEntry e destination entry disk = .ok () disk' ∧
      Written e.owner disk₁ root (entries ++ [entry]) disk' := by
  have hfresh : disk.node (root ++ parts entry.path) = none := by
    rw [h.others, hnone entry (by simp)]
    intro other hm heq
    exact hnew other hm (List.append_cancel_left heq).symm
  have hparent : disk.IsDirectory (root ++ parts entry.path).dropLast := by
    obtain ⟨node, hnode, hc⟩ := hd
    refine ⟨node, ?_, hc⟩
    rw [List.dropLast_append_of_ne_nil hne, h.others, hnode]
    intro other hm heq
    rw [heq, hnone other (by simp [hm])] at hnode
    cases hnode
  obtain ⟨disk₂, hopen, hnode₂⟩ := Disk.create_spec ⟨.file [], entry.mode, e.owner, 1⟩
    (hfits.1 _ (getLast?_append_mem hne)) hfresh hparent
  obtain ⟨disk₃, hchmod, hnode₃⟩ := Disk.chmod_spec entry.mode
    ((hnode₂ _).trans (if_pos rfl))
  obtain ⟨disk', hwrite, hnode'⟩ := Disk.writeFile_spec entry.content
    ((hnode₃ _).trans (if_pos rfl))
  refine ⟨disk', ?_, fun other hm ↦ ?_, fun other hm ↦ ?_⟩
  · refine perform_ok hfits ?_
    rw [hp]
    exact (bind_ok (Disk.attempt_ok hopen)).trans
      ((bind_ok (Disk.attempt_ok hchmod)).trans (Disk.attempt_ok hwrite))
  · rcases List.mem_append.mp hm with hm | hm
    · have hother : root ++ parts other.path ≠ root ++ parts entry.path :=
        fun heq ↦ hnew other hm (List.append_cancel_left heq)
      rw [hnode', if_neg hother, hnode₃, if_neg hother, hnode₂, if_neg hother, h.files other hm]
    · rw [List.mem_singleton.mp hm, hnode', if_pos rfl]
      rfl
  · have hother : other ≠ root ++ parts entry.path := hm entry (by simp)
    rw [hnode', if_neg hother, hnode₃, if_neg hother, hnode₂, if_neg hother,
      h.others other fun entry hm' ↦ hm entry (by simp [hm'])]

/-- A directory is made only where the system has room for its names. -/
theorem fits_of_makeDirectory (hp : place e destination path = root ++ parts path)
    (hshort : Disk.Short root disk) (h : makeDirectory e destination path disk = .ok () disk₁) :
    Fits destination path := by
  obtain ⟨disk₂, hmake, -⟩ := exists_of_bind_ok h
  obtain ⟨hlt, hcall⟩ := perform_eq_ok hmake
  obtain ⟨top, htop, -⟩ := disk.root
  have hthere := Disk.mkdirFrom_eq_ok hcall fun hnone ↦
    absurd (htop.symm.trans hnone) (Option.some_ne_none top)
  rw [hp, List.nil_append] at hthere
  exact ⟨(Disk.stable_short.mkdirFrom disk hshort).of_ok hcall _ hthere, hlt⟩

theorem short_of_openNew {owner : Owner} {mode : ℕ}
    (hp : place e destination path = root ++ parts path) (hshort : Disk.Short root disk)
    (h : Disk.attempt (Disk.openNew owner (place e destination path) mode) disk = .ok () disk₁) :
    ∀ name ∈ parts path, byteLength name ≤ nameMax := by
  have hshort₁ := (Disk.stable_short.openNew disk hshort).of_ok h
  refine hshort₁ (parts path) ?_
  rw [Disk.attempt] at h
  split at h
  · next hcreate =>
    cases h
    obtain ⟨-, -, -, hall⟩ := Disk.create_eq_ok hcreate
    rw [← hp, hall, if_pos rfl]
    exact Option.some_ne_none _
  · cases h

/-- The topmost directory that there is no room for is not made. -/
theorem makeDirectory_stops {name : Name} (hd : disk.IsDirectory root)
    (hp : place e destination path = root ++ parts path) (hone : parts path = [name])
    (hn : disk.node (root ++ [name]) = none)
    (hfits : ¬Fits destination path) :
    makeDirectory e destination path disk = .error .unknown disk := by
  refine bind_error ?_
  rw [perform]
  by_cases hlt : byteLength (join destination path) < pathMax
  · have hlong : nameMax < byteLength name := by
      by_contra hle
      refine hfits ⟨fun other hm ↦ ?_, hlt⟩
      rw [hone] at hm
      exact List.mem_singleton.mp hm ▸ Nat.le_of_not_lt hle
    have hcreate : disk.create (root ++ [name]) ⟨.directory, 0o755, e.owner, 1⟩ =
        .error .nameTooLong := by
      rw [Disk.create, List.getLast?_concat]
      exact if_pos hlong
    have hcall : Disk.mkdirAll e.owner 0o755 (place e destination path) disk =
        .error .nameTooLong disk := by
      rw [hp, hone, Disk.mkdirAll, Disk.mkdirFrom_append (by rwa [List.nil_append])]
      refine bind_error ?_
      rw [List.nil_append, Disk.ensureDirectory_none hn, Disk.attempt, hcreate]
    rw [place] at hcall
    rw [if_pos hlt, hcall]
  · rw [if_neg hlt]

theorem fits_of_writeEntry (hp : place e destination entry.path = root ++ parts entry.path)
    (hshort : Disk.Short root disk) (h : writeEntry e destination entry disk = .ok () disk₁) :
    Fits destination entry.path := by
  obtain ⟨hlt, hcall⟩ := perform_eq_ok h
  obtain ⟨disk₂, hopen, -⟩ := exists_of_bind_ok hcall
  exact ⟨short_of_openNew hp hshort hopen, hlt⟩

theorem writeEntry_stops (hp : place e destination entry.path = root ++ parts entry.path)
    (hshort : Disk.Short root disk) (hfits : ¬Fits destination entry.path) :
    writeEntry e destination entry disk = .error .unknown disk := by
  rw [writeEntry, perform]
  by_cases hlt : byteLength (join destination entry.path) < pathMax
  · have hopen : ∃ errno, Disk.attempt (Disk.openNew e.owner (place e destination entry.path)
        entry.mode) disk = .error errno disk := by
      cases hcreate : Disk.openNew e.owner (place e destination entry.path) entry.mode disk with
      | ok disk₁ => exact absurd ⟨short_of_openNew hp hshort (Disk.attempt_ok hcreate), hlt⟩ hfits
      | error errno => exact ⟨errno, by rw [Disk.attempt, hcreate]⟩
    obtain ⟨errno, hopen⟩ := hopen
    rw [place] at hopen
    rw [if_pos hlt, bind_error hopen]
  · rw [if_neg hlt]

end RustdeskConsole.Archives
