import RustdeskConsole.Posix.Disk
import RustdeskConsole.Effects.Outcomes
import Mathlib.Data.List.Nodup

namespace RustdeskConsole.Posix

open Collections Effects.Guard

theorem plain_iff {name : Name} :
    Plain name ↔ name ≠ [] ∧ name ≠ current ∧ name ≠ above ∧ '/' ∉ name :=
  ⟨fun h ↦ ⟨h.notEmpty, h.notCurrent, h.notAbove, h.noSeparator⟩,
    fun h ↦ ⟨h.1, h.2.1, h.2.2.1, h.2.2.2⟩⟩

instance : DecidablePred Plain := fun _ ↦ decidable_of_iff _ plain_iff.symm

theorem Plain.isPart {name : Name} (h : Plain name) : IsPart name :=
  ⟨h.notEmpty, h.notCurrent, h.noSeparator⟩

def Content.bytes? : Content → Option (List UInt8)
  | .file bytes => some bytes
  | _ => none

/-- A disk whose names can all be written in a path. -/
structure Volume extends Disk where
  plain : ∀ location node, nodes.get? location = some node → ∀ name ∈ location, Plain name

namespace Volume

def bytes (volume : Volume) (location : Location) : Option (List UInt8) :=
  (volume.node location).bind fun node ↦ node.content.bytes?

/-- Why nothing is found at a place. -/
def absence (volume : Volume) (location : Location) : Errno :=
  if location.inits.any fun way ↦ (volume.node way).any fun node ↦ node.content ≠ .directory
  then .notDirectory else .missing

def lookup (location : Location) (volume : Volume) : Except Errno Node :=
  match volume.node location with
  | some node => .ok node
  | none => .error (volume.absence location)

/-- What stands in a directory. -/
def names (volume : Volume) (location : Location) : List Name :=
  volume.nodes.keys.filterMap fun other ↦
    if other.dropLast = location then other.getLast? else none

variable {volume volume' : Volume} {location other source target : Location} {name : Name}
  {given node : Node} {content : List UInt8} {mode : ℕ}

theorem bytes_eq_some : volume.bytes location = some content ↔
    ∃ node, volume.node location = some node ∧ node.content = .file content := by
  rw [bytes, Option.bind_eq_some_iff]
  refine exists_congr fun node ↦ and_congr_right fun _ ↦ ?_
  cases node.content <;> simp [Content.bytes?]

theorem lookup_eq_ok : volume.lookup location = .ok node ↔ volume.node location = some node := by
  unfold lookup
  split
  · next found hnode => simp [hnode]
  · next hnode => simp [hnode]

theorem mem_names : name ∈ volume.names location ↔ volume.node (location ++ [name]) ≠ none := by
  simp only [names, List.mem_filterMap, OrderedMap.mem_keys, Option.isSome_iff_ne_none]
  constructor
  · rintro ⟨other, hother, h⟩
    split at h
    · next heq =>
      obtain ⟨init, rfl⟩ := List.getLast?_eq_some_iff.mp h
      rwa [← heq, List.dropLast_concat]
    · cases h
  · intro h
    exact ⟨location ++ [name], h, by simp⟩

theorem nodup_names : (volume.names location).Nodup := by
  refine List.Nodup.filterMap ?_ volume.nodes.nodup
  intro other other' found hother hother'
  simp only [Option.mem_def] at hother hother'
  split at hother
  · next heq =>
    split at hother'
    · next heq' =>
      obtain ⟨init, rfl⟩ := List.getLast?_eq_some_iff.mp hother
      obtain ⟨init', rfl⟩ := List.getLast?_eq_some_iff.mp hother'
      rw [List.dropLast_concat] at heq heq'
      rw [heq, heq']
    · cases hother'
  · cases hother

theorem eq_nil_of_node (h : volume.node location = some given) (hg : given.content ≠ .directory)
    {rest : List Name} (hn : volume.node (location ++ rest) = some node) : rest = [] := by
  by_contra hr
  obtain ⟨found, hfound, hd⟩ := Disk.isDirectory_of_prefix (Disk.isDirectory_dropLast hn)
    (show location <+: (location ++ rest).dropLast by
      rw [List.dropLast_append_of_ne_nil hr]
      exact List.prefix_append ..)
  rw [h] at hfound
  exact hg (Option.some.inj hfound ▸ hd)

/-- Below what is not there stands nothing. -/
theorem node_append_eq_none (h : volume.node location = none) (rest : List Name) :
    volume.node (location ++ rest) = none := by
  by_contra hne
  obtain ⟨child, hchild⟩ := Option.ne_none_iff_exists'.mp hne
  by_cases hr : rest = []
  · rw [hr, List.append_nil, h] at hchild
    cases hchild
  · obtain ⟨parent, hparent, -⟩ := Disk.isDirectory_of_prefix
      (Disk.isDirectory_dropLast hchild)
      (show location <+: (location ++ rest).dropLast by
        rw [List.dropLast_append_of_ne_nil hr]
        exact List.prefix_append ..)
    rw [h] at hparent
    cases hparent

def put (volume : Volume) (location : Location) (given : Node)
    (hn : volume.node location = none) (hp : volume.IsDirectory location.dropLast)
    (hl : ∀ name ∈ location, Plain name) : Volume where
  toDisk := volume.toDisk.put location given hn hp
  plain other node h := by
    have hnode := Disk.node_put.symm.trans h
    split at hnode
    · next heq => exact heq ▸ hl
    · exact volume.plain other node hnode

def alter (volume : Volume) (location : Location) (f : Node → Node)
    (hf : ∀ node, (f node).content = .directory ↔ node.content = .directory) : Volume where
  toDisk := volume.toDisk.alter location f hf
  plain other node h := by
    have hnode := Disk.node_alter.symm.trans h
    split at hnode
    · next heq =>
      obtain ⟨old, hold, -⟩ := Option.map_eq_some_iff.mp hnode
      exact heq ▸ volume.plain location old hold
    · exact volume.plain other node hnode

def erase (volume : Volume) (location : Location) (hl : location ≠ [])
    (hc : volume.names location = []) : Volume where
  nodes := volume.nodes.erase location
  root := by
    obtain ⟨root, hr, hd⟩ := volume.root
    exact ⟨root, by rw [OrderedMap.get?_erase, if_neg (Ne.symm hl), hr], hd⟩
  parents other node h hne := by
    rw [OrderedMap.get?_erase] at h
    split at h
    · cases h
    · obtain ⟨parent, hparent, hd⟩ := volume.parents other node h hne
      refine ⟨parent, ?_, hd⟩
      rw [OrderedMap.get?_erase, if_neg, hparent]
      intro heq
      have hlast : other.getLast hne ∈ volume.names location := by
        rw [mem_names, ← heq, List.dropLast_append_getLast]
        exact Option.ne_none_iff_exists'.mpr ⟨node, h⟩
      rw [hc] at hlast
      cases hlast
  plain other node h := by
    rw [OrderedMap.get?_erase] at h
    split at h
    · cases h
    · exact volume.plain other node h

theorem node_erase {hl : location ≠ []} {hc : volume.names location = []} :
    (volume.erase location hl hc).node other =
      if other = location then none else volume.node other :=
  OrderedMap.get?_erase

def create (location : Location) (given : Node) (volume : Volume) : Except Errno Volume :=
  if hn : volume.node location = none then
    if h : volume.IsDirectory location.dropLast ∧ ∀ name ∈ location, Plain name then
      .ok (volume.put location given hn h.1 h.2)
    else .error (volume.absence location)
  else .error .present

theorem directory_withMode (mode : ℕ) (node : Node) :
    { node with mode := mode }.content = .directory ↔ node.content = .directory :=
  Iff.rfl

theorem directory_setBytes (content : List UInt8) (node : Node) :
    (Disk.setBytes content node).content = .directory ↔ node.content = .directory := by
  unfold Disk.setBytes
  split <;> simp_all

def chmod (location : Location) (mode : ℕ) (volume : Volume) : Except Errno Volume := do
  discard (volume.lookup location)
  pure (volume.alter location (fun node ↦ { node with mode := mode }) (directory_withMode mode))

def chown (location : Location) (owner : Owner) (volume : Volume) : Except Errno Volume := do
  discard (volume.lookup location)
  pure (volume.alter location (fun node ↦ { node with owner := owner }) fun _ ↦ Iff.rfl)

def write (location : Location) (content : List UInt8) (volume : Volume) :
    Except Errno Volume := do
  discard (volume.lookup location)
  pure (volume.alter location (Disk.setBytes content) (directory_setBytes content))

def readFile (location : Location) (volume : Volume) : Except Errno (List UInt8) := do
  let node ← volume.lookup location
  match node.content.bytes? with
  | some content => pure content
  | none => throw .notFile

def readdir (location : Location) (volume : Volume) : Except Errno (List Name) := do
  let node ← volume.lookup location
  if node.content = .directory then pure (volume.names location) else throw .notDirectory

def remove (location : Location) (volume : Volume) : Except Errno Volume :=
  if h : location ≠ [] ∧ volume.names location = [] then .ok (volume.erase location h.1 h.2)
  else .error .present

def unlink (location : Location) (volume : Volume) : Except Errno Volume := do
  let node ← volume.lookup location
  if node.content = .directory then throw .notFile
  volume.remove location

def rmdir (location : Location) (volume : Volume) : Except Errno Volume := do
  let node ← volume.lookup location
  if node.content ≠ .directory then throw .notDirectory
  volume.remove location

/-- Where something stands after what is at `source` was moved. -/
def shift (source target other : Location) : Location :=
  if source <+: other then target ++ other.drop source.length else other

theorem shift_append (rest : List Name) : shift source target (source ++ rest) = target ++ rest := by
  rw [shift, if_pos (List.prefix_append ..), List.drop_left]

theorem shift_of_not (h : ¬source <+: other) : shift source target other = other := if_neg h

theorem nodup_shift (hn : volume.node target = none) :
    ((volume.nodes.entries.map fun e ↦ (shift source target e.1, e.2)).map Prod.fst).Nodup := by
  have hfree : ∀ key ∈ volume.nodes.keys, ¬target <+: key := by
    rintro key hkey ⟨rest, rfl⟩
    obtain ⟨node, hnode⟩ := Option.isSome_iff_exists.mp (OrderedMap.mem_keys.mp hkey)
    cases (node_append_eq_none hn rest).symm.trans hnode
  have hkeys : (volume.nodes.entries.map fun e ↦ (shift source target e.1, e.2)).map Prod.fst =
      volume.nodes.keys.map (shift source target) := by
    simp [OrderedMap.keys]
  rw [hkeys]
  refine List.Nodup.map_on ?_ volume.nodes.nodup
  intro key hkey key' hkey' heq
  by_cases hs : source <+: key
  · obtain ⟨rest, rfl⟩ := hs
    rw [shift_append] at heq
    by_cases hs' : source <+: key'
    · obtain ⟨rest', rfl⟩ := hs'
      rw [shift_append] at heq
      rw [List.append_cancel_left heq]
    · rw [shift_of_not hs'] at heq
      exact absurd ⟨rest, heq⟩ (hfree key' hkey')
  · rw [shift_of_not hs] at heq
    by_cases hs' : source <+: key'
    · obtain ⟨rest', rfl⟩ := hs'
      rw [shift_append] at heq
      exact absurd ⟨rest', heq.symm⟩ (hfree key hkey)
    · rwa [shift_of_not hs'] at heq

def shifted (volume : Volume) (source target : Location) (hn : volume.node target = none) :
    OrderedMap Location Node :=
  ⟨volume.nodes.entries.map fun e ↦ (shift source target e.1, e.2), nodup_shift hn⟩

theorem get?_shifted (hn : volume.node target = none) :
    (volume.shifted source target hn).get? other = some given ↔
      ∃ key, shift source target key = other ∧ volume.node key = some given := by
  rw [OrderedMap.get?_eq_some, shifted, List.mem_map]
  constructor
  · rintro ⟨e, hm, he⟩
    obtain ⟨hkey, hgiven⟩ := Prod.mk.inj he
    exact ⟨e.1, hkey, OrderedMap.get?_eq_some.mpr (hgiven ▸ hm)⟩
  · rintro ⟨key, hkey, hnode⟩
    exact ⟨(key, given), OrderedMap.get?_eq_some.mp hnode, by rw [hkey]⟩

/-- Move what is at `source`, with all that is below it, to where nothing is. -/
def move (volume : Volume) (source target : Location) (hn : volume.node target = none)
    (hp : volume.IsDirectory target.dropLast) (hl : ∀ name ∈ target, Plain name)
    (hs : ¬source <+: target) : Volume where
  nodes := volume.shifted source target hn
  root := by
    obtain ⟨root, hr, hd⟩ := volume.root
    refine ⟨root, (get?_shifted hn).mpr ⟨[], shift_of_not fun h ↦ hs ?_, hr⟩, hd⟩
    rw [List.prefix_nil.mp h]
    exact List.nil_prefix
  parents other node h hne := by
    obtain ⟨key, rfl, hnode⟩ := (get?_shifted hn).mp h
    by_cases hk : source <+: key
    · obtain ⟨rest, rfl⟩ := hk
      rw [shift_append]
      by_cases hr : rest = []
      · obtain ⟨parent, hparent, hd⟩ := hp
        rw [hr, List.append_nil]
        refine ⟨parent, (get?_shifted hn).mpr ⟨_, shift_of_not fun h ↦ hs ?_, hparent⟩, hd⟩
        exact h.trans (List.dropLast_prefix _)
      · obtain ⟨parent, hparent, hd⟩ := Disk.isDirectory_dropLast hnode
        rw [List.dropLast_append_of_ne_nil hr] at hparent ⊢
        exact ⟨parent, (get?_shifted hn).mpr ⟨_, shift_append _, hparent⟩, hd⟩
    · rw [shift_of_not hk] at hne ⊢
      obtain ⟨parent, hparent, hd⟩ := Disk.isDirectory_dropLast hnode
      refine ⟨parent, (get?_shifted hn).mpr ⟨_, shift_of_not fun h ↦ hk ?_, hparent⟩, hd⟩
      exact h.trans (List.dropLast_prefix _)
  plain other node h := by
    obtain ⟨key, rfl, hnode⟩ := (get?_shifted hn).mp h
    by_cases hk : source <+: key
    · obtain ⟨rest, rfl⟩ := hk
      rw [shift_append]
      intro name hname
      rcases List.mem_append.mp hname with hname | hname
      · exact hl name hname
      · exact volume.plain _ node hnode name (List.mem_append_right _ hname)
    · rw [shift_of_not hk]
      exact volume.plain key node hnode

variable {hn : volume.node target = none} {hp : volume.IsDirectory target.dropLast}
  {hl : ∀ name ∈ target, Plain name} {hs : ¬source <+: target}

theorem node_move : (volume.move source target hn hp hl hs).node other = some given ↔
    ∃ key, shift source target key = other ∧ volume.node key = some given :=
  get?_shifted hn

theorem node_move_target (rest : List Name) :
    (volume.move source target hn hp hl hs).node (target ++ rest) =
      volume.node (source ++ rest) := by
  refine Option.ext fun given ↦ ?_
  rw [node_move]
  constructor
  · rintro ⟨key, hkey, hnode⟩
    by_cases hk : source <+: key
    · obtain ⟨rest', rfl⟩ := hk
      rw [shift_append] at hkey
      rwa [← List.append_cancel_left hkey]
    · rw [shift_of_not hk] at hkey
      rw [hkey, node_append_eq_none hn] at hnode
      cases hnode
  · intro hnode
    exact ⟨_, shift_append rest, hnode⟩

theorem node_move_of_not (hsource : ¬source <+: other) (htarget : ¬target <+: other) :
    (volume.move source target hn hp hl hs).node other = volume.node other := by
  refine Option.ext fun given ↦ ?_
  rw [node_move]
  constructor
  · rintro ⟨key, hkey, hnode⟩
    by_cases hk : source <+: key
    · obtain ⟨rest, rfl⟩ := hk
      rw [shift_append] at hkey
      exact absurd ⟨rest, hkey⟩ htarget
    · rwa [← hkey, shift_of_not hk]
  · intro hnode
    exact ⟨other, shift_of_not hsource, hnode⟩

def moveTo (source target : Location) (volume : Volume) : Except Errno Volume :=
  if hn : volume.node target = none then
    if h : volume.IsDirectory target.dropLast ∧ (∀ name ∈ target, Plain name) ∧
        ¬source <+: target then
      .ok (volume.move source target hn h.1 h.2.1 h.2.2)
    else .error (volume.absence target)
  else .error .present

/-- Make room for something that is moved to a place where only its like may stand. -/
def vacate (target : Location) (node : Node) (volume : Volume) : Except Errno Volume :=
  match volume.node target with
  | none => pure volume
  | some old =>
    if node.content = .directory ↔ old.content = .directory then volume.remove target
    else throw .notDirectory

/-- `rename` puts a file in the place of another, and a directory in that of an empty one. -/
def rename (source target : Location) (volume : Volume) : Except Errno Volume := do
  let node ← volume.lookup source
  if source = target then return volume
  volume.vacate target node >>= moveTo source target

theorem create_spec (h : volume.create location given = .ok volume') :
    volume.node location = none ∧ volume.IsDirectory location.dropLast ∧ ∀ other,
      volume'.node other = if other = location then some given else volume.node other := by
  unfold create at h
  split at h
  · next hn =>
    split at h
    · next hp =>
      obtain rfl := Except.ok.inj h
      exact ⟨hn, hp.1, fun other ↦ @Disk.node_put _ _ _ _ hn hp.1⟩
    · cases h
  · cases h

theorem discard_lookup {f : Unit → Except Errno Volume}
    (h : (discard (volume.lookup location) >>= f) = .ok volume') :
    ∃ node, volume.node location = some node ∧ f () = .ok volume' := by
  obtain ⟨⟨⟩, hd, hf⟩ := bind_eq_ok.mp h
  obtain ⟨node, hnode⟩ := discard_eq_ok.mp hd
  exact ⟨node, lookup_eq_ok.mp hnode, hf⟩

theorem node_alter {f : Node → Node}
    {hf : ∀ node, (f node).content = .directory ↔ node.content = .directory} :
    (volume.alter location f hf).node other =
      if other = location then (volume.node location).map f else volume.node other :=
  @Disk.node_alter _ _ _ f hf

theorem chmod_spec (h : volume.chmod location mode = .ok volume') :
    ∃ node, volume.node location = some node ∧ ∀ other, volume'.node other =
      if other = location then some { node with mode := mode } else volume.node other := by
  obtain ⟨node, hnode, hf⟩ := discard_lookup h
  obtain rfl := Except.ok.inj hf
  refine ⟨node, hnode, fun other ↦ ?_⟩
  rw [node_alter, hnode]
  rfl

theorem chown_spec {owner : Owner} (h : volume.chown location owner = .ok volume') :
    ∃ node, volume.node location = some node ∧ ∀ other, volume'.node other =
      if other = location then some { node with owner := owner } else volume.node other := by
  obtain ⟨node, hnode, hf⟩ := discard_lookup h
  obtain rfl := Except.ok.inj hf
  refine ⟨node, hnode, fun other ↦ ?_⟩
  rw [node_alter, hnode]
  rfl

theorem write_spec (h : volume.write location content = .ok volume') :
    ∃ node, volume.node location = some node ∧ ∀ other, volume'.node other =
      if other = location then some (Disk.setBytes content node) else volume.node other := by
  obtain ⟨node, hnode, hf⟩ := discard_lookup h
  obtain rfl := Except.ok.inj hf
  refine ⟨node, hnode, fun other ↦ ?_⟩
  rw [node_alter, hnode]
  rfl

theorem readFile_eq_ok : volume.readFile location = .ok content ↔
    volume.bytes location = some content := by
  rw [readFile, bind_eq_ok, bytes, Option.bind_eq_some_iff]
  refine exists_congr fun node ↦ and_congr lookup_eq_ok ?_
  cases node.content.bytes? <;> simp [pure, Except.pure, throw, throwThe, MonadExceptOf.throw]

theorem readdir_eq_ok {found : List Name} : volume.readdir location = .ok found ↔
    volume.IsDirectory location ∧ volume.names location = found := by
  rw [readdir, bind_eq_ok]
  constructor
  · rintro ⟨node, hnode, h⟩
    split at h
    · next hd => exact ⟨⟨node, lookup_eq_ok.mp hnode, hd⟩, Except.ok.inj h⟩
    · cases h
  · rintro ⟨⟨node, hnode, hd⟩, rfl⟩
    exact ⟨node, lookup_eq_ok.mpr hnode, if_pos hd⟩

theorem remove_spec (h : volume.remove location = .ok volume') :
    location ≠ [] ∧ ∀ other,
      volume'.node other = if other = location then none else volume.node other := by
  unfold remove at h
  split at h
  · next hc =>
    obtain rfl := Except.ok.inj h
    exact ⟨hc.1, fun other ↦ node_erase⟩
  · cases h

theorem unlink_spec (h : volume.unlink location = .ok volume') :
    ∃ node, volume.node location = some node ∧ node.content ≠ .directory ∧ ∀ other,
      volume'.node other = if other = location then none else volume.node other := by
  obtain ⟨node, hnode, h⟩ := bind_eq_ok.mp h
  split at h
  · cases h
  · next hd => exact ⟨node, lookup_eq_ok.mp hnode, hd, (remove_spec h).2⟩

theorem rmdir_spec (h : volume.rmdir location = .ok volume') : ∀ other,
    volume'.node other = if other = location then none else volume.node other := by
  obtain ⟨node, -, h⟩ := bind_eq_ok.mp h
  split at h
  · cases h
  · exact (remove_spec h).2

theorem moveTo_spec (h : volume.moveTo source target = .ok volume') :
    ¬source <+: target ∧
      (∀ rest, volume'.node (target ++ rest) = volume.node (source ++ rest)) ∧
      ∀ other, ¬source <+: other → ¬target <+: other →
        volume'.node other = volume.node other := by
  unfold moveTo at h
  split at h
  · split at h
    · next hs =>
      obtain rfl := Except.ok.inj h
      exact ⟨hs.2.2, node_move_target, fun other ↦ node_move_of_not⟩
    · cases h
  · cases h

theorem vacate_spec (h : volume.vacate target given = .ok volume') (hne : other ≠ target) :
    volume'.node other = volume.node other := by
  unfold vacate at h
  split at h
  · rw [Except.ok.inj h]
  · split at h
    · rw [(remove_spec h).2, if_neg hne]
    · cases h

theorem rename_spec (h : volume.rename source target = .ok volume') (hne : source ≠ target) :
    (∀ rest, volume'.node (target ++ rest) = volume.node (source ++ rest)) ∧
      ∀ other, ¬source <+: other → ¬target <+: other →
        volume'.node other = volume.node other := by
  obtain ⟨node, -, h⟩ := bind_eq_ok.mp h
  rw [if_neg hne] at h
  obtain ⟨vacant, hvacate, h⟩ := bind_eq_ok.mp h
  obtain ⟨hs, hmoved, hrest⟩ := moveTo_spec h
  refine ⟨fun rest ↦ ?_, fun other hsource htarget ↦ ?_⟩
  · rw [hmoved, vacate_spec hvacate]
    rintro rfl
    exact hs (List.prefix_append ..)
  · rw [hrest other hsource htarget, vacate_spec hvacate]
    rintro rfl
    exact htarget (List.prefix_refl _)

/-- A volume with nothing but its root. -/
def blank : Volume where
  nodes := ⟨[([], ⟨.directory, 0o755, ⟨0, 0⟩, 1⟩)], List.nodup_singleton _⟩
  root := ⟨_, rfl, rfl⟩
  parents location node h hne := by
    have hm := OrderedMap.get?_eq_some.mp h
    simp only [List.mem_singleton, Prod.mk.injEq] at hm
    exact absurd hm.1 hne
  plain location node h := by
    have hm := OrderedMap.get?_eq_some.mp h
    simp only [List.mem_singleton, Prod.mk.injEq] at hm
    simp [hm.1]

/-- The volume that holds the given things, each of which has its directory before it. -/
def furnish (given : List (Location × Node)) : Volume :=
  given.foldl (fun volume item ↦ (volume.create item.1 item.2).toOption.getD volume) blank

end Volume

end RustdeskConsole.Posix
