import RustdeskConsole.Backups.Storage

namespace RustdeskConsole.Backups

open Collections Effects Posix Serialization
open Calls hiding call bind_eq_ok written
open Updater (Failure)

variable {e : Environment} {volume volume' : Volume} {root root' directory directory' path : Location}
  {excluded excluded' : List Location} {hashes : Bool} {rest way : List Name} {name : Name}
  {node : Node} {files more : List FileEntry} {entry : FileEntry} {depth : ℕ} {s s' : System}

theorem descend_ofParts (h : ∀ name ∈ rest, Plain name) :
    descend directory (ofParts rest) = directory ++ rest := by
  rw [descend, parts_ofParts fun name hm ↦ (h name hm).isPart, foldl_enter_of_not_above]
  exact fun hm ↦ (h above hm).notAbove rfl

theorem descend_plain (h : Plain name) : descend directory name = directory ++ [name] := by
  have hname : ofParts [name] = name := List.intercalate_singleton ..
  rw [← hname, descend_ofParts (by simpa using h), hname]

theorem shared_append : shared root (root ++ rest) = root.length := by
  induction root with
  | nil => cases rest <;> rfl
  | cons first root ih => rw [List.cons_append, shared, if_pos rfl, ih, List.length_cons]

theorem relative_append : relative root (root ++ rest) = ofParts rest := by
  rw [relative, shared_append, Nat.sub_self, List.replicate_zero, List.nil_append,
    List.drop_left]

theorem plain_of_node (h : volume.node (root ++ rest) = some node) : ∀ name ∈ rest, Plain name :=
  fun name hm ↦ volume.plain _ node h name (List.mem_append_right root hm)

theorem descend_of_mem (h : name ∈ volume.names directory) :
    descend directory name = directory ++ [name] := by
  obtain ⟨node, hnode⟩ := Option.ne_none_iff_exists'.mp (Volume.mem_names.mp h)
  exact descend_plain (plain_of_node hnode name List.mem_cons_self)

/-- The entry of what stands at a place, where it can be kept. -/
def entryAt (e : Environment) (root : Location) (hashes : Bool) (path : Location) (info : Node) :
    Option FileEntry :=
  let entry := entryOf root path info
  if (info.content = .directory || (info.content.bytes?.isSome && info.links = 1)) &&
      (!entry.path.contains '\\' && !containsControl entry.path) then
    some { entry with
      sha256 := if entry.kind = .file && hashes then
        some (e.sha256 (info.content.bytes?.getD [])) else none }
  else none

def gather (f : Name → Option (List FileEntry)) : List Name → Option (List FileEntry)
  | [] => some []
  | name :: names =>
    (f name).bind fun first ↦ (gather f names).map fun rest ↦ first ++ rest

attribute [local instance] lawful_location

def listItem (e : Environment) (volume : Volume) (root : Location) (excluded : List Location)
    (hashes : Bool) (below : Location → Option (List FileEntry)) (path : Location) :
    Option (List FileEntry) :=
  if path ∈ excluded then some []
  else
    (volume.node path).bind fun info ↦ (entryAt e root hashes path info).bind fun entry ↦
      if entry.kind = .directory then (below path).map fun files ↦ entry :: files
      else some [entry]

/-- What a scan finds on a volume, if it comes to an end. -/
def listing (e : Environment) (volume : Volume) (root : Location) (excluded : List Location)
    (hashes : Bool) : ℕ → Location → Option (List FileEntry)
  | 0, _ => none
  | depth + 1, directory =>
    if volume.IsDirectory directory then
      gather (fun name ↦ listItem e volume root excluded hashes
        (listing e volume root excluded hashes depth) (directory ++ [name]))
        (sort (volume.names directory))
    else none

theorem mem_sort {names : List Name} : name ∈ sort names ↔ name ∈ names :=
  List.mem_insertionSort _

theorem check_eq_ok {condition : Bool} {code message : String} {u : Unit}
    (h : check condition code message s = .ok u s') : condition = true ∧ s' = s :=
  assert_eq_ok h

theorem hashFile_eq_ok {hash : Text} (h : hashFile e path s = .ok hash s') :
    (∃ content, s.volume.bytes path = some content ∧ hash = e.sha256 content) ∧
      s'.volume = s.volume := by
  obtain ⟨content, s₁, hcall, h₁⟩ := Calls.bind_eq_ok h
  obtain ⟨rfl, rfl⟩ := pure_eq_ok h₁
  obtain ⟨hread, hv⟩ := ask_eq_ok hcall
  exact ⟨⟨content, Volume.readFile_eq_ok.mp hread, rfl⟩, hv⟩

theorem scanEntry_eq_ok (hnode : s.volume.node path = some node)
    (h : scanEntry e root hashes path node s = .ok entry s') :
    entryAt e root hashes path node = some entry ∧ s'.volume = s.volume := by
  obtain ⟨⟨⟩, s₁, hc₁, h₁⟩ := Calls.bind_eq_ok h
  obtain ⟨hkind, rfl⟩ := check_eq_ok hc₁
  obtain ⟨⟨⟩, s₂, hc₂, h₂⟩ := Calls.bind_eq_ok h₁
  obtain ⟨hname, rfl⟩ := check_eq_ok hc₂
  rw [entryAt, if_pos (Bool.and_eq_true_iff.mpr ⟨hkind, hname⟩)]
  split at h₂
  · next hfile =>
    obtain ⟨hash, s₃, hhash, h₃⟩ := Calls.bind_eq_ok h₂
    obtain ⟨⟨content, hcontent, rfl⟩, hv⟩ := hashFile_eq_ok hhash
    obtain ⟨rfl, rfl⟩ := pure_eq_ok h₃
    rw [Volume.bytes, hnode, Option.bind_some] at hcontent
    rw [if_pos hfile, hcontent]
    exact ⟨rfl, hv⟩
  · next hfile =>
    obtain ⟨rfl, rfl⟩ := pure_eq_ok h₂
    rw [if_neg hfile]
    exact ⟨rfl, rfl⟩

/-- One turn of a scan. -/
def visitItem (e : Environment) (root : Location) (excluded : List Location) (hashes : Bool)
    (below : Location → List FileEntry → Action (List FileEntry)) (files : List FileEntry)
    (path : Location) : Action (List FileEntry) :=
  if path ∈ excluded then pure files
  else do
    let info ← lstat path
    let entry ← scanEntry e root hashes path info
    check ((files ++ [entry]).length ≤ MAX_FILES) "BACKUP_FILE_LIMIT"
      "Business data exceeds the supported snapshot file limit."
    if entry.kind = .directory then below path (files ++ [entry]) else pure (files ++ [entry])

theorem visit_succ : visit e root excluded hashes (depth + 1) directory files = (do
    let names ← readdir directory
    (sort names).foldlM (fun files name ↦ visitItem e root excluded hashes
      (visit e root excluded hashes depth) files (descend directory name)) files) := rfl

/-- What a scan that has succeeded has done: it has appended what the listing has. -/
structure Scanned (listed : Option (List FileEntry)) (files more : List FileEntry)
    (s s' : System) : Prop where
  still : s'.volume = s.volume
  found : ∃ found, listed = some found ∧ more = files ++ found ∧
    (found ≠ [] → more.length ≤ MAX_FILES)

theorem visitItem_eq_ok {below : Location → List FileEntry → Action (List FileEntry)}
    {listed : Location → Option (List FileEntry)}
    (hbelow : ∀ path files more s s', below path files s = .ok more s' → s.volume = volume →
      Scanned (listed path) files more s s')
    (h : visitItem e root excluded hashes below files path s = .ok more s')
    (hv : s.volume = volume) :
    Scanned (listItem e volume root excluded hashes listed path) files more s s' := by
  unfold visitItem at h
  rw [listItem]
  split at h
  · next hexcluded =>
    obtain ⟨rfl, rfl⟩ := pure_eq_ok h
    rw [if_pos hexcluded]
    exact ⟨rfl, [], rfl, (List.append_nil _).symm, by simp⟩
  · next hexcluded =>
    rw [if_neg hexcluded]
    obtain ⟨info, s₁, hc₁, h₁⟩ := Calls.bind_eq_ok h
    obtain ⟨hinfo, hv₁⟩ := lstat_eq_ok hc₁
    obtain ⟨entry, s₂, hc₂, h₂⟩ := Calls.bind_eq_ok h₁
    obtain ⟨hentry, hv₂⟩ := scanEntry_eq_ok (hv₁ ▸ hinfo) hc₂
    obtain ⟨⟨⟩, s₃, hc₃, h₃⟩ := Calls.bind_eq_ok h₂
    obtain ⟨hlimit, hs₃⟩ := check_eq_ok hc₃
    have hvolume : s₃.volume = volume := by rw [hs₃, hv₂, hv₁, hv]
    rw [← hv, hinfo, Option.bind_some, hentry, Option.bind_some]
    split at h₃
    · next hdirectory =>
      rw [if_pos hdirectory]
      obtain ⟨hstill, found, hlisted, rfl, hmax⟩ := hbelow _ _ _ _ _ h₃ hvolume
      rw [hlisted]
      refine ⟨by rw [hstill, hvolume, hv], entry :: found, rfl, List.append_assoc .., fun _ ↦ ?_⟩
      by_cases hfound : found = []
      · rw [hfound, List.append_nil]
        exact of_decide_eq_true hlimit
      · exact hmax hfound
    · next hdirectory =>
      rw [if_neg hdirectory]
      obtain ⟨rfl, rfl⟩ := pure_eq_ok h₃
      exact ⟨by rw [hvolume, hv], [entry], rfl, rfl, fun _ ↦ of_decide_eq_true hlimit⟩

theorem foldlM_eq_ok {turn : List FileEntry → Name → Action (List FileEntry)}
    {f : Name → Option (List FileEntry)} {names : List Name}
    (hturn : ∀ name ∈ names, ∀ files more s s', turn files name s = .ok more s' →
      s.volume = volume → Scanned (f name) files more s s')
    (h : names.foldlM turn files s = .ok more s') (hv : s.volume = volume) :
    Scanned (gather f names) files more s s' := by
  induction names generalizing files s with
  | nil =>
    obtain ⟨rfl, rfl⟩ := pure_eq_ok h
    exact ⟨rfl, [], rfl, (List.append_nil _).symm, by simp⟩
  | cons name names ih =>
    rw [List.foldlM_cons] at h
    obtain ⟨between, s₁, hc₁, h₁⟩ := Calls.bind_eq_ok h
    obtain ⟨hstill, first, hfirst, rfl, hmax⟩ :=
      hturn name List.mem_cons_self files between s s₁ hc₁ hv
    obtain ⟨hstill', found, hfound, rfl, hmax'⟩ :=
      ih (fun name hm ↦ hturn name (List.mem_cons_of_mem _ hm)) h₁ (hstill.trans hv)
    refine ⟨hstill'.trans hstill, first ++ found, ?_, List.append_assoc .., fun hne ↦ ?_⟩
    · rw [gather, hfirst, Option.bind_some, hfound, Option.map_some]
    · by_cases hempty : found = []
      · rw [hempty, List.append_nil] at hne ⊢
        exact hmax hne
      · exact hmax' hempty

/-- A scan that succeeds has changed nothing, and found what there is. -/
theorem visit_eq_ok
    (h : visit e root excluded hashes depth directory files s = .ok more s')
    (hv : s.volume = volume) :
    Scanned (listing e volume root excluded hashes depth directory) files more s s' := by
  induction depth generalizing directory files more s s' with
  | zero => cases h
  | succ depth ih =>
    rw [visit_succ] at h
    obtain ⟨names, s₁, hnames, h₁⟩ := Calls.bind_eq_ok h
    obtain ⟨hread, hv₁⟩ := ask_eq_ok hnames
    obtain ⟨hd, rfl⟩ := Volume.readdir_eq_ok.mp hread
    rw [hv] at hd h₁
    rw [listing, if_pos hd]
    obtain ⟨hstill, hfound⟩ := foldlM_eq_ok (f := fun name ↦ listItem e volume root excluded
      hashes (listing e volume root excluded hashes depth) (directory ++ [name]))
      (fun name hm files more s s' h hv ↦ by
        rw [descend_of_mem (mem_sort.mp hm)] at h
        exact visitItem_eq_ok (fun path files more s s' ↦ ih) h hv) h₁ (hv₁.trans hv)
    exact ⟨hstill.trans hv₁, hfound⟩

/-- Something stands at a place, and nothing on the way from another one is left out. -/
structure Visible (volume : Volume) (excluded : List Location) (path : Location)
    (rest : List Name) (node : Node) : Prop where
  stands : volume.node (path ++ rest) = some node
  shown : ∀ between, between <+: rest → path ++ between ∉ excluded

/-- The entries are those of what stands at or below a place. -/
structure Covers (e : Environment) (volume : Volume) (root : Location) (excluded : List Location)
    (hashes : Bool) (path : Location) (found : List FileEntry) : Prop where
  sound : ∀ entry ∈ found, ∃ rest node, Visible volume excluded path rest node ∧
    entryAt e root hashes (path ++ rest) node = some entry
  complete : ∀ rest node, Visible volume excluded path rest node →
    ∃ entry ∈ found, entryAt e root hashes (path ++ rest) node = some entry

/-- The entries are those of what stands below a directory. -/
structure Lists (e : Environment) (volume : Volume) (root : Location) (excluded : List Location)
    (hashes : Bool) (directory : Location) (found : List FileEntry) : Prop where
  sound : ∀ entry ∈ found, ∃ name rest node,
    Visible volume excluded (directory ++ [name]) rest node ∧
      entryAt e root hashes (directory ++ [name] ++ rest) node = some entry
  complete : ∀ name rest node, Visible volume excluded (directory ++ [name]) rest node →
    ∃ entry ∈ found, entryAt e root hashes (directory ++ [name] ++ rest) node = some entry

theorem gather_eq_some {f : Name → Option (List FileEntry)} {names : List Name}
    (h : gather f names = some more) : (∀ name ∈ names, ∃ first, f name = some first) ∧
      ∀ entry, entry ∈ more ↔ ∃ name ∈ names, ∃ first, f name = some first ∧ entry ∈ first := by
  induction names generalizing more with
  | nil =>
    obtain rfl := Option.some.inj h
    simp
  | cons name names ih =>
    obtain ⟨first, hfirst, h⟩ := Option.bind_eq_some_iff.mp h
    obtain ⟨rest, hrest, rfl⟩ := Option.map_eq_some_iff.mp h
    obtain ⟨hall, hmem⟩ := ih hrest
    refine ⟨List.forall_mem_cons.mpr ⟨⟨first, hfirst⟩, hall⟩, fun entry ↦ ?_⟩
    rw [List.mem_append, hmem]
    constructor
    · rintro (hm | ⟨other, hother, found, hfound, hm⟩)
      · exact ⟨name, List.mem_cons_self, first, hfirst, hm⟩
      · exact ⟨other, List.mem_cons_of_mem _ hother, found, hfound, hm⟩
    · rintro ⟨other, hother, found, hfound, hm⟩
      rcases List.mem_cons.mp hother with rfl | hother
      · rw [hfirst] at hfound
        exact .inl (Option.some.inj hfound ▸ hm)
      · exact .inr ⟨other, hother, found, hfound, hm⟩

theorem entryAt_eq_some (h : entryAt e root hashes path node = some entry) :
    entry = { entryOf root path node with sha256 := entry.sha256 } ∧
      (entry.kind = .directory ↔ node.content = .directory) := by
  dsimp only [entryAt] at h
  split at h
  · obtain rfl := Option.some.inj h
    refine ⟨rfl, ?_⟩
    simp only [entryOf]
    split <;> simp_all
  · cases h

theorem listItem_covers {below : Location → Option (List FileEntry)}
    (hbelow : ∀ path found, below path = some found →
      Lists e volume root excluded hashes path found)
    (h : listItem e volume root excluded hashes below path = some more) :
    Covers e volume root excluded hashes path more := by
  unfold listItem at h
  split at h
  · next hexcluded =>
    obtain rfl := Option.some.inj h
    refine ⟨by simp, fun rest node hv ↦ ?_⟩
    have hshown := hv.shown [] List.nil_prefix
    rw [List.append_nil] at hshown
    exact absurd hexcluded hshown
  · next hexcluded =>
    obtain ⟨info, hinfo, h₁⟩ := Option.bind_eq_some_iff.mp h
    obtain ⟨entry, hentry, h₂⟩ := Option.bind_eq_some_iff.mp h₁
    have hself : Visible volume excluded path [] info := by
      refine ⟨by rwa [List.append_nil], fun between hb ↦ ?_⟩
      rwa [List.prefix_nil.mp hb, List.append_nil]
    have hentry' : entryAt e root hashes (path ++ []) info = some entry := by
      rwa [List.append_nil]
    split at h₂
    · next hdirectory =>
      obtain ⟨found, hfound, rfl⟩ := Option.map_eq_some_iff.mp h₂
      have hlists := hbelow path found hfound
      refine ⟨List.forall_mem_cons.mpr ⟨⟨[], info, hself, hentry'⟩, fun other hm ↦ ?_⟩, ?_⟩
      · obtain ⟨name, rest, node, hv, hat⟩ := hlists.sound other hm
        rw [List.append_assoc] at hat
        refine ⟨[name] ++ rest, node, ⟨?_, fun between hb ↦ ?_⟩, hat⟩
        · rw [← List.append_assoc]
          exact hv.stands
        · rcases List.prefix_cons_iff.mp hb with rfl | ⟨after, rfl, hafter⟩
          · rwa [List.append_nil]
          · rw [List.append_cons]
            exact hv.shown after hafter
      · intro rest node hv
        cases rest with
        | nil =>
          have hnode := hv.stands
          rw [List.append_nil, hinfo] at hnode
          obtain rfl := Option.some.inj hnode
          exact ⟨entry, List.mem_cons_self, hentry'⟩
        | cons name rest =>
          obtain ⟨other, hm, hat⟩ := hlists.complete name rest node
            ⟨by rw [← List.append_cons]; exact hv.stands, fun between hb ↦ by
              rw [← List.append_cons]
              exact hv.shown _ ((List.prefix_cons_inj name).mpr hb)⟩
          rw [← List.append_cons] at hat
          exact ⟨other, List.mem_cons_of_mem _ hm, hat⟩
    · next hdirectory =>
      obtain rfl := Option.some.inj h₂
      refine ⟨by simpa using ⟨[], info, hself, hentry'⟩, fun rest node hv ↦ ?_⟩
      obtain rfl := Volume.eq_nil_of_node hinfo
        (mt (entryAt_eq_some hentry).2.mpr hdirectory) hv.stands
      have hnode := hv.stands
      rw [List.append_nil, hinfo] at hnode
      obtain rfl := Option.some.inj hnode
      exact ⟨entry, List.mem_singleton_self _, hentry'⟩

theorem listing_lists (h : listing e volume root excluded hashes depth directory = some more) :
    Lists e volume root excluded hashes directory more := by
  induction depth generalizing directory more with
  | zero => cases h
  | succ depth ih =>
    rw [listing] at h
    split at h
    · obtain ⟨hall, hmem⟩ := gather_eq_some h
      have hcovers : ∀ name first, listItem e volume root excluded hashes
          (listing e volume root excluded hashes depth) (directory ++ [name]) = some first →
            Covers e volume root excluded hashes (directory ++ [name]) first :=
        fun name first ↦ listItem_covers fun path found ↦ ih
      refine ⟨fun entry hm ↦ ?_, fun name rest node hv ↦ ?_⟩
      · obtain ⟨name, -, first, hfirst, hm⟩ := (hmem entry).mp hm
        obtain ⟨rest, node, hv, hat⟩ := (hcovers name first hfirst).sound entry hm
        exact ⟨name, rest, node, hv, hat⟩
      · have hname : name ∈ sort (volume.names directory) := by
          rw [mem_sort, Volume.mem_names]
          intro hnone
          cases (Volume.node_append_eq_none hnone rest).symm.trans hv.stands
        obtain ⟨first, hfirst⟩ := hall name hname
        obtain ⟨entry, hm, hat⟩ := (hcovers name first hfirst).complete rest node hv
        exact ⟨entry, (hmem entry).mpr ⟨name, hname, first, hfirst, hm⟩, hat⟩
    · cases h

theorem noLinks_eq_ok {u : Unit} (h : noLinks path s = .ok u s') :
    s'.volume = s.volume ∧ ∀ way, way <+: path →
      ∃ node, s.volume.node way = some node ∧ node.content ≠ .link := by
  have hloop := forM_eq_ok (fun done s' ↦ s'.volume = s.volume ∧ ∀ way ∈ done,
      ∃ node, s.volume.node way = some node ∧ node.content ≠ .link)
    (fun done way rest s₁ s₂ _ hinv hturn ↦ by
      obtain ⟨info, s₃, hc₁, h₁⟩ := Calls.bind_eq_ok hturn
      obtain ⟨hinfo, hv⟩ := lstat_eq_ok hc₁
      obtain ⟨hlink, rfl⟩ := check_eq_ok h₁
      refine ⟨hv.trans hinv.1, fun other hm ↦ ?_⟩
      rcases List.mem_append.mp hm with hm | hm
      · exact hinv.2 other hm
      · rw [List.mem_singleton.mp hm, ← hinv.1]
        exact ⟨info, hinfo, of_decide_eq_true hlink⟩)
    ⟨rfl, by simp⟩ h
  exact ⟨hloop.1, fun way hp ↦ hloop.2 way ((List.mem_inits _ _).mpr hp)⟩

theorem scanFiles_eq_ok (h : scanFiles e root excluded hashes s = .ok files s') :
    s'.volume = s.volume ∧ listing e s.volume root excluded hashes e.depth root = some files ∧
      files.length ≤ MAX_FILES := by
  obtain ⟨⟨⟩, s₁, hc₁, h₁⟩ := Calls.bind_eq_ok h
  obtain ⟨hv, -⟩ := noLinks_eq_ok hc₁
  obtain ⟨hstill, found, hfound, rfl, hmax⟩ := visit_eq_ok h₁ hv
  refine ⟨hstill.trans hv, hfound, ?_⟩
  cases files with
  | nil => exact Nat.zero_le _
  | cons first files => exact hmax (List.cons_ne_nil _ _)

/-- What is known of an entry that was listed. -/
structure Listed (volume : Volume) (root : Location) (excluded : List Location)
    (entry : FileEntry) (rest : List Name) (node : Node) : Prop where
  notRoot : rest ≠ []
  stands : volume.node (root ++ rest) = some node
  path : entry.path = ofParts rest
  shown : ∀ between, between ≠ [] → between <+: rest → root ++ between ∉ excluded
  same : entry = { entryOf root (root ++ rest) node with sha256 := entry.sha256 }
  kind : entry.kind = .directory ↔ node.content = .directory

theorem Listed.plain (h : Listed volume root excluded entry rest node) :
    ∀ name ∈ rest, Plain name :=
  plain_of_node h.stands

theorem listed_of_mem (h : listing e volume root excluded hashes depth root = some files)
    (hm : entry ∈ files) : ∃ rest node, Listed volume root excluded entry rest node := by
  obtain ⟨name, rest, node, hv, hat⟩ := (listing_lists h).sound entry hm
  obtain ⟨hsame, hkind⟩ := entryAt_eq_some hat
  rw [List.append_assoc] at hat
  have hstands := hv.stands
  rw [List.append_assoc] at hsame hstands
  refine ⟨[name] ++ rest, node, by simp, hstands, ?_, fun between hne hb ↦ ?_, hsame, hkind⟩
  · rw [hsame]
    exact relative_append
  · rcases List.prefix_cons_iff.mp hb with rfl | ⟨after, rfl, hafter⟩
    · exact absurd rfl hne
    · rw [List.append_cons]
      exact hv.shown after hafter

theorem exists_listed (h : listing e volume root excluded hashes depth root = some files)
    (hn : volume.node (root ++ rest) = some node) (hne : rest ≠ [])
    (hshown : ∀ between, between ≠ [] → between <+: rest → root ++ between ∉ excluded) :
    ∃ entry ∈ files, entryAt e root hashes (root ++ rest) node = some entry := by
  obtain ⟨name, rest, rfl⟩ := List.exists_cons_of_ne_nil hne
  have hvisible : Visible volume excluded (root ++ [name]) rest node := by
    refine ⟨by rwa [← List.append_cons], fun between hb ↦ ?_⟩
    rw [← List.append_cons]
    exact hshown _ (by simp) ((List.prefix_cons_inj name).mpr hb)
  obtain ⟨entry, hm, hat⟩ := (listing_lists h).complete name rest node hvisible
  exact ⟨entry, hm, by rwa [List.append_cons]⟩

end RustdeskConsole.Backups
