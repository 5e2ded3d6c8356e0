import RustdeskConsole.Collections.OrderedMap
import RustdeskConsole.Effects.Outcomes
import RustdeskConsole.Posix.Paths

namespace RustdeskConsole.Posix

open Collections Effects Effects.Loop

inductive Content
  | directory
  | file (bytes : List UInt8)
  | link
  | special
  deriving DecidableEq

structure Owner where
  uid : ℕ
  gid : ℕ
  deriving DecidableEq

structure Node where
  content : Content
  mode : ℕ
  owner : Owner
  links : ℕ
  deriving DecidableEq

inductive Errno
  | present
  | missing
  | notDirectory
  | notFile
  | nameTooLong
  deriving DecidableEq

/-- The bytes of a text in UTF-8. -/
def byteLength (text : List Char) : ℕ := (text.map Char.utf8Size).sum

/-- The bytes that one name may have. -/
def nameMax : ℕ := 255

/-- The bytes that the path of a call may have, with the one that ends it. -/
def pathMax : ℕ := 4096

/-- A file system: whatever has a name stands in a directory. -/
structure Disk where
  nodes : OrderedMap Location Node
  root : ∃ node, nodes.get? [] = some node ∧ node.content = .directory
  parents : ∀ location node, nodes.get? location = some node → location ≠ [] →
    ∃ parent, nodes.get? location.dropLast = some parent ∧ parent.content = .directory

namespace Disk

def node (disk : Disk) (location : Location) : Option Node := disk.nodes.get? location

def IsDirectory (disk : Disk) (location : Location) : Prop :=
  ∃ node, disk.node location = some node ∧ node.content = .directory

variable {disk disk' : Disk} {location other : Location} {name : Name} {given : Node}

instance : Decidable (disk.IsDirectory location) :=
  match h : disk.node location with
  | none => .isFalse fun ⟨_, hn, _⟩ ↦ nomatch h.symm.trans hn
  | some node =>
    if hc : node.content = .directory then .isTrue ⟨node, h, hc⟩
    else .isFalse fun ⟨_, hn, hd⟩ ↦ hc (Option.some.inj (h.symm.trans hn) ▸ hd)

theorem isDirectory_root : disk.IsDirectory [] := disk.root

theorem isDirectory_dropLast (h : disk.node location = some given) :
    disk.IsDirectory location.dropLast := by
  by_cases hl : location = []
  · rw [hl]
    exact disk.root
  · exact disk.parents location given h hl

theorem isDirectory_of_prefix (hd : disk.IsDirectory location) (hp : other <+: location) :
    disk.IsDirectory other := by
  induction location using List.reverseRecOn with
  | nil =>
    rw [List.prefix_nil.mp hp]
    exact hd
  | append_singleton init last ih =>
    rcases List.prefix_concat_iff.mp hp with rfl | hp
    · exact hd
    · obtain ⟨node, hn, -⟩ := hd
      have hinit := isDirectory_dropLast hn
      rw [List.dropLast_concat] at hinit
      exact ih hinit hp

theorem dropLast_ne (h : location ≠ []) : location.dropLast ≠ location := by
  intro heq
  have hlen := congrArg List.length heq
  rw [List.length_dropLast] at hlen
  have := List.length_pos_iff.mpr h
  omega

def put (disk : Disk) (location : Location) (node : Node) (hn : disk.node location = none)
    (hp : disk.IsDirectory location.dropLast) : Disk where
  nodes := disk.nodes.set location node
  root := by
    obtain ⟨root, hr, hd⟩ := disk.root
    have hne : ([] : Location) ≠ location := by
      rintro rfl
      cases hn.symm.trans hr
    exact ⟨root, by rw [OrderedMap.get?_set, if_neg hne, hr], hd⟩
  parents other node' h hne := by
    obtain ⟨parent, hparent, hd⟩ : disk.IsDirectory other.dropLast := by
      rw [OrderedMap.get?_set] at h
      split at h
      · next heq => exact heq ▸ hp
      · exact disk.parents other node' h hne
    refine ⟨parent, ?_, hd⟩
    rw [OrderedMap.get?_set, if_neg, ← hparent]
    · rfl
    · intro heq
      rw [heq, hn] at hparent
      cases hparent

/-- Change what is known of a node, without making or removing a directory. -/
def alter (disk : Disk) (location : Location) (f : Node → Node)
    (hf : ∀ node, (f node).content = .directory ↔ node.content = .directory) : Disk where
  nodes := disk.nodes.modify location f
  root := by
    obtain ⟨root, hr, hd⟩ := disk.root
    rw [OrderedMap.get?_modify]
    split
    · next heq => exact ⟨f root, by rw [← heq, hr]; rfl, (hf root).mpr hd⟩
    · exact ⟨root, hr, hd⟩
  parents other node h hne := by
    have hold : ∃ old, disk.nodes.get? other = some old := by
      rw [OrderedMap.get?_modify] at h
      split at h
      · next heq =>
        obtain ⟨old, hold, -⟩ := Option.map_eq_some_iff.mp h
        exact ⟨old, heq ▸ hold⟩
      · exact ⟨node, h⟩
    obtain ⟨old, hold⟩ := hold
    obtain ⟨parent, hparent, hd⟩ := disk.parents other old hold hne
    rw [OrderedMap.get?_modify]
    split
    · next heq => exact ⟨f parent, by rw [← heq, hparent]; rfl, (hf parent).mpr hd⟩
    · exact ⟨parent, hparent, hd⟩

def create (disk : Disk) (location : Location) (node : Node) : Except Errno Disk :=
  if nameMax < byteLength (location.getLast?.getD []) then .error .nameTooLong
  else if hn : disk.node location = none then
    if hp : disk.IsDirectory location.dropLast then .ok (disk.put location node hn hp)
    else .error (if disk.node location.dropLast = none then .missing else .notDirectory)
  else .error .present

/-- A call that changes nothing when it fails. -/
def attempt (call : Disk → Except Errno Disk) : EStateM Errno Disk Unit := fun disk ↦
  match call disk with
  | .ok disk => .ok () disk
  | .error errno => .error errno disk

def ensureDirectory (owner : Owner) (mode : ℕ) (location : Location) : EStateM Errno Disk Unit :=
  fun disk ↦
    match disk.node location with
    | some node =>
      if node.content = .directory then .ok () disk else .error .notDirectory disk
    | none => attempt (create · location ⟨.directory, mode, owner, 1⟩) disk

/-- `mkdir` with `recursive`, from a directory on. -/
def mkdirFrom (owner : Owner) (mode : ℕ) (location : Location) :
    List Name → EStateM Errno Disk Unit
  | [] => pure ()
  | name :: names => do
    ensureDirectory owner mode (location ++ [name])
    mkdirFrom owner mode (location ++ [name]) names

def mkdirAll (owner : Owner) (mode : ℕ) (location : Location) : EStateM Errno Disk Unit :=
  mkdirFrom owner mode [] location

def chmod (location : Location) (mode : ℕ) (disk : Disk) : Except Errno Disk :=
  if disk.node location = none then .error .missing
  else .ok (disk.alter location (fun node ↦ { node with mode := mode }) fun _ ↦ Iff.rfl)

/-- `open` with `wx` -/
def openNew (owner : Owner) (location : Location) (mode : ℕ) (disk : Disk) : Except Errno Disk :=
  disk.create location ⟨.file [], mode, owner, 1⟩

def setBytes (bytes : List UInt8) (node : Node) : Node :=
  match node.content with
  | .file _ => { node with content := .file bytes }
  | _ => node

def writeFile (location : Location) (bytes : List UInt8) (disk : Disk) : Except Errno Disk :=
  if disk.node location = none then .error .missing
  else .ok (disk.alter location (setBytes bytes) fun node ↦ by
    unfold setBytes
    split <;> simp_all)

/-- `open` with `r`, which takes files and directories alike. -/
def openOld (location : Location) (disk : Disk) : Except Errno Disk :=
  if disk.node location = none then .error .missing else .ok disk

theorem node_put {hn : disk.node location = none} {hp : disk.IsDirectory location.dropLast} :
    (disk.put location given hn hp).node other =
      if other = location then some given else disk.node other :=
  OrderedMap.get?_set

theorem node_alter {f : Node → Node}
    {hf : ∀ node, (f node).content = .directory ↔ node.content = .directory} :
    (disk.alter location f hf).node other =
      if other = location then (disk.node location).map f else disk.node other :=
  OrderedMap.get?_modify f

theorem create_eq_ok (h : disk.create location given = .ok disk') :
    byteLength (location.getLast?.getD []) ≤ nameMax ∧ disk.node location = none ∧
      disk.IsDirectory location.dropLast ∧ ∀ other,
        disk'.node other = if other = location then some given else disk.node other := by
  rw [create] at h
  split at h
  · cases h
  · next hfits =>
    split at h
    · next hn =>
      split at h
      · next hp =>
        cases h
        exact ⟨Nat.le_of_not_lt hfits, hn, hp, fun _ ↦ node_put⟩
      · cases h
    · cases h

theorem create_spec (given : Node) (hfits : byteLength (location.getLast?.getD []) ≤ nameMax)
    (hn : disk.node location = none) (hp : disk.IsDirectory location.dropLast) :
    ∃ disk', disk.create location given = .ok disk' ∧ ∀ other,
      disk'.node other = if other = location then some given else disk.node other := by
  refine ⟨disk.put location given hn hp, ?_, fun other ↦ node_put⟩
  rw [create, if_neg (Nat.not_lt.mpr hfits), dif_pos hn, dif_pos hp]

theorem attempt_ok {call : Disk → Except Errno Disk} (h : call disk = .ok disk') :
    attempt call disk = .ok () disk' := by
  rw [attempt, h]

theorem preserves_attempt {P : Disk → Prop} {call : Disk → Except Errno Disk}
    (h : ∀ disk disk', call disk = .ok disk' → P disk → P disk') :
    Preserves P (attempt call) := by
  intro disk hP
  rw [Ends, attempt]
  cases hcall : call disk with
  | ok disk' => exact h disk disk' hcall hP
  | error _ => exact hP

theorem chmod_spec (mode : ℕ) (hn : disk.node location = some given) :
    ∃ disk', disk.chmod location mode = .ok disk' ∧ ∀ other,
      disk'.node other = if other = location then some { given with mode := mode }
        else disk.node other := by
  refine ⟨_, if_neg (by simp [hn]), fun other ↦ ?_⟩
  rw [node_alter, hn]
  rfl

theorem writeFile_spec (bytes : List UInt8) (hn : disk.node location = some given) :
    ∃ disk', disk.writeFile location bytes = .ok disk' ∧ ∀ other,
      disk'.node other = if other = location then some (setBytes bytes given)
        else disk.node other := by
  refine ⟨_, if_neg (by simp [hn]), fun other ↦ ?_⟩
  rw [node_alter, hn]
  rfl

theorem openOld_spec (hn : disk.node location = some given) : disk.openOld location = .ok disk :=
  if_neg (by simp [hn])

theorem ensureDirectory_isDirectory {owner : Owner} {mode : ℕ} (h : disk.IsDirectory location) :
    ensureDirectory owner mode location disk = .ok () disk := by
  obtain ⟨node, hn, hd⟩ := h
  rw [ensureDirectory, hn]
  exact if_pos hd

theorem ensureDirectory_none {owner : Owner} {mode : ℕ} (h : disk.node location = none) :
    ensureDirectory owner mode location disk =
      attempt (create · location ⟨.directory, mode, owner, 1⟩) disk := by
  rw [ensureDirectory, h]

/-- The directories that are missing on the way are made, and nothing else is touched. -/
theorem mkdirFrom_spec {owner : Owner} {mode : ℕ} {names : List Name}
    (hd : disk.IsDirectory location)
    (hway : ∀ way, way <+: location ++ names →
      disk.node way = none ∧ byteLength (way.getLast?.getD []) ≤ nameMax ∨ disk.IsDirectory way) :
    ∃ disk', mkdirFrom owner mode location names disk = .ok () disk' ∧ ∀ other, disk'.node other =
      if disk.node other = none ∧ other <+: location ++ names then
        some ⟨.directory, mode, owner, 1⟩ else disk.node other := by
  induction names generalizing disk location with
  | nil =>
    refine ⟨disk, rfl, fun other ↦ ?_⟩
    rw [List.append_nil, if_neg]
    intro ⟨hn, hp⟩
    obtain ⟨node, hnode, -⟩ := isDirectory_of_prefix hd hp
    cases hn.symm.trans hnode
  | cons name names ih =>
    rw [List.append_cons] at hway ⊢
    have hself : location ++ [name] <+: location ++ [name] ++ names := List.prefix_append ..
    rcases hway _ hself with ⟨hn, hfits⟩ | hdir
    · obtain ⟨disk₁, hcreate, hnode⟩ := create_spec ⟨.directory, mode, owner, 1⟩ hfits hn
        (by rwa [List.dropLast_concat])
      have hd₁ : disk₁.IsDirectory (location ++ [name]) := ⟨_, by rw [hnode, if_pos rfl], rfl⟩
      have hway₁ : ∀ way, way <+: location ++ [name] ++ names →
          disk₁.node way = none ∧ byteLength (way.getLast?.getD []) ≤ nameMax ∨
            disk₁.IsDirectory way := by
        intro way hp
        by_cases heq : way = location ++ [name]
        · exact .inr (heq ▸ hd₁)
        · rw [IsDirectory, hnode, if_neg heq]
          exact hway way hp
      obtain ⟨disk', hrest, hnode'⟩ := ih hd₁ hway₁
      refine ⟨disk', ?_, fun other ↦ ?_⟩
      · exact (bind_ok ((ensureDirectory_none hn).trans (attempt_ok hcreate))).trans hrest
      · rw [hnode', hnode]
        by_cases heq : other = location ++ [name]
        · simp [heq, hn]
        · simp [heq]
    · obtain ⟨disk', hrest, hall⟩ := ih hdir hway
      exact ⟨disk', (bind_ok (ensureDirectory_isDirectory hdir)).trans hrest, hall⟩

theorem mkdirAll_spec (owner : Owner) (mode : ℕ)
    (hway : ∀ way, way <+: location →
      disk.node way = none ∧ byteLength (way.getLast?.getD []) ≤ nameMax ∨ disk.IsDirectory way) :
    ∃ disk', mkdirAll owner mode location disk = .ok () disk' ∧ ∀ other, disk'.node other =
      if disk.node other = none ∧ other <+: location then
        some ⟨.directory, mode, owner, 1⟩ else disk.node other :=
  mkdirFrom_spec isDirectory_root hway

/-- What holds on of a disk while nodes are added to it and changed. -/
structure Stable (P : Disk → Prop) : Prop where
  create : ∀ {disk disk' : Disk} {location : Location} {given : Node},
    disk.create location given = .ok disk' → P disk → P disk'
  alter : ∀ {disk disk' : Disk}, (∀ other, disk'.node other = none ↔ disk.node other = none) →
    P disk → P disk'

theorem node_alter_none {f : Node → Node}
    {hf : ∀ node, (f node).content = .directory ↔ node.content = .directory} :
    (disk.alter location f hf).node other = none ↔ disk.node other = none := by
  rw [node_alter]
  split
  · next heq => rw [Option.map_eq_none_iff, heq]
  · rfl

theorem stable_present : Stable fun disk ↦ disk.node location ≠ none where
  create hcreate hn := by
    obtain ⟨-, -, -, hall⟩ := create_eq_ok hcreate
    rw [hall]
    split
    · exact Option.some_ne_none _
    · exact hn
  alter halter hn := by rwa [Ne, halter]

/-- No name below the location is too long. -/
def Short (location : Location) (disk : Disk) : Prop :=
  ∀ names, disk.node (location ++ names) ≠ none → ∀ name ∈ names, byteLength name ≤ nameMax

theorem stable_short : Stable (Short location) where
  create {disk disk' place given} hcreate hshort names hn := by
    obtain ⟨hfits, -, hparent, hall⟩ := create_eq_ok hcreate
    rw [hall] at hn
    split at hn
    · next heq =>
      induction names using List.reverseRecOn with
      | nil => simp
      | append_singleton init last =>
        rw [← heq, ← List.append_assoc, List.getLast?_concat, Option.getD_some] at hfits
        rw [← heq, ← List.append_assoc, List.dropLast_concat] at hparent
        obtain ⟨node, hnode, -⟩ := hparent
        intro name hm
        rcases List.mem_append.mp hm with hm | hm
        · exact hshort init (by simp [hnode]) name hm
        · exact List.mem_singleton.mp hm ▸ hfits
    · exact hshort names hn
  alter halter hshort names hn := hshort names (by rwa [Ne, ← halter])

namespace Stable

variable {P : Disk → Prop} {owner : Owner} {mode : ℕ}

theorem openNew (h : Stable P) : Preserves P (attempt (openNew owner location mode)) :=
  preserves_attempt fun _ _ hcreate ↦ h.create hcreate

theorem chmod (h : Stable P) : Preserves P (attempt (chmod location mode)) := by
  refine preserves_attempt fun disk disk' hcall ↦ ?_
  rw [Disk.chmod] at hcall
  split at hcall
  · cases hcall
  · cases hcall
    exact h.alter fun _ ↦ node_alter_none

theorem writeFile (h : Stable P) {bytes : List UInt8} :
    Preserves P (attempt (writeFile location bytes)) := by
  refine preserves_attempt fun disk disk' hcall ↦ ?_
  rw [Disk.writeFile] at hcall
  split at hcall
  · cases hcall
  · cases hcall
    exact h.alter fun _ ↦ node_alter_none

theorem openOld : Preserves P (attempt (openOld location)) := by
  refine preserves_attempt fun disk disk' hcall ↦ ?_
  rw [Disk.openOld] at hcall
  split at hcall
  · cases hcall
  · cases hcall
    exact id

theorem mkdirFrom (h : Stable P) {names : List Name} :
    Preserves P (mkdirFrom owner mode location names) := by
  induction names generalizing location with
  | nil => exact .pure
  | cons name names ih =>
    refine .bind ?_ fun _ ↦ ih
    intro disk hP
    rcases hn : disk.node (location ++ [name]) with _ | node
    · rw [Ends, ensureDirectory_none hn]
      exact preserves_attempt (fun _ _ ↦ h.create) disk hP
    · rw [Ends, ensureDirectory, hn]
      by_cases hc : node.content = .directory
      · simp only [if_pos hc]
        exact hP
      · simp only [if_neg hc]
        exact hP

end Stable

theorem mkdirFrom_eq_ok {owner : Owner} {mode : ℕ} {names : List Name}
    (h : mkdirFrom owner mode location names disk = .ok () disk')
    (hd : disk.node location ≠ none) : disk'.node (location ++ names) ≠ none := by
  induction names generalizing disk location with
  | nil =>
    cases h
    rwa [List.append_nil]
  | cons name names ih =>
    obtain ⟨disk₁, hmade, hrest⟩ := exists_of_bind_ok h
    rw [List.append_cons]
    refine ih hrest ?_
    rcases hn : disk.node (location ++ [name]) with _ | node
    · rw [ensureDirectory_none hn, attempt] at hmade
      split at hmade
      · next hcreate =>
        cases hmade
        obtain ⟨-, -, -, hall⟩ := create_eq_ok hcreate
        rw [hall, if_pos rfl]
        exact Option.some_ne_none _
      · cases hmade
    · rw [ensureDirectory, hn] at hmade
      by_cases hc : node.content = .directory
      · simp only [if_pos hc] at hmade
        cases hmade
        rw [hn]
        exact Option.some_ne_none _
      · simp only [if_neg hc] at hmade
        cases hmade

/-- Past the directories that stand, the rest of the way is made from the last of them. -/
theorem mkdirFrom_append {owner : Owner} {mode : ℕ} {way names : List Name}
    (h : disk.IsDirectory (location ++ way)) :
    mkdirFrom owner mode location (way ++ names) disk =
      mkdirFrom owner mode (location ++ way) names disk := by
  induction way generalizing location with
  | nil => rw [List.append_nil, List.nil_append]
  | cons name way ih =>
    rw [List.append_cons] at h ⊢
    have hd : disk.IsDirectory (location ++ [name]) :=
      isDirectory_of_prefix h (List.prefix_append ..)
    exact (bind_ok (ensureDirectory_isDirectory hd)).trans (ih h)

end Disk

end RustdeskConsole.Posix
