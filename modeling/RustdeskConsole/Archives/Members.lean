import RustdeskConsole.Archives.Listing

namespace RustdeskConsole.Archives

open Collections Posix Effects.Guard
open Updater (Failure)
open Releases (check)

namespace Member

def names (m : Member) : List Name := parts m.path

def IsDirectory (m : Member) : Prop := m.type = ['5']

def IsFile (m : Member) : Prop := m.type = ['0'] ∨ m.type = []

/-- A member that stays inside, and is no link or special file. -/
structure Legal (m : Member) : Prop where
  relative : isAbsolute m.path = false
  notAbove : above ∉ m.names
  kind : m.IsDirectory ∨ m.IsFile ∧ m.names ≠ []

/-- The directories that a member is, or lies in. -/
def Needs (m : Member) (names : List Name) : Prop :=
  names ≠ [] ∧ names <+: m.names ∧ (m.IsDirectory ∨ names ≠ m.names)

def needsDirectory (m : Member) : Bool :=
  if m.type = ['5'] then m.names ≠ [] else 2 ≤ m.names.length

def topDirectory (m : Member) : Path := ofParts (m.names.take 1)

end Member

open Member

variable {m : Member} {ms : List Member} {listing listing' : Listing} {names : List Name}
  {path : Path}

theorem isPart_names : ∀ name ∈ m.names, IsPart name := fun _ ↦ isPart_of_mem

theorem isPart_of_initial (h : names <+: m.names) : ∀ name ∈ names, IsPart name :=
  fun name hm ↦ isPart_names name (h.subset hm)

theorem mem_segments_above : above ∈ segments path ↔ above ∈ parts path := by
  rw [mem_parts]
  simp [above, current]

theorem not_isUnsafe (h : isUnsafe path = false) :
    isAbsolute path = false ∧ above ∉ parts path := by
  simp only [isUnsafe, Bool.or_eq_false_iff] at h
  refine ⟨h.1.1.1.1, fun hm ↦ ?_⟩
  have hfalse := h.1.2
  rw [List.contains_eq_mem, decide_eq_false_iff_not] at hfalse
  exact hfalse (mem_segments_above.mpr hm)

theorem normalized_eq (h : above ∉ parts path) : normalized path = ofParts (parts path) := by
  rw [normalized, parts_normalize, normalParts_eq h]

theorem ofParts_eq_nil (h : ∀ name ∈ names, IsPart name) : ofParts names = [] ↔ names = [] := by
  rw [← show ofParts [] = [] from rfl]
  exact ofParts_inj h (by simp)

theorem ofParts_ne_current (h : ∀ name ∈ names, IsPart name) : ofParts names ≠ current := by
  intro heq
  have hnil : names = [] := by rw [← parts_ofParts h, heq, parts_current]
  rw [hnil] at heq
  cases heq

theorem length_le_ofParts (h : ∀ name ∈ names, IsPart name) :
    names.length ≤ (ofParts names).length := by
  induction names with
  | nil => simp
  | cons first rest ih =>
    have hfirst := List.length_pos_iff.mpr (h first List.mem_cons_self).notEmpty
    have hrest := ih fun name hm ↦ h name (List.mem_cons_of_mem _ hm)
    cases rest with
    | nil =>
      simp only [ofParts, List.intercalate_singleton, List.length_singleton]
      exact hfirst
    | cons second rest =>
      rw [ofParts, List.intercalate_cons_cons, List.length_append, List.length_append]
      rw [ofParts] at hrest
      simp only [List.length_cons] at hrest ⊢
      omega

/-- The loop over the directories of a path ends, after all of them. -/
theorem mem_ancestors {fuel : ℕ} (h : ∀ name ∈ names, IsPart name) (hf : names.length ≤ fuel) :
    path ∈ ancestors fuel (ofParts names) ↔
      ∃ way, way ≠ [] ∧ way <+: names ∧ path = ofParts way := by
  induction names using List.reverseRecOn generalizing fuel with
  | nil =>
    constructor
    · intro hm
      cases fuel with
      | zero => simp [ancestors] at hm
      | succ fuel => simp [ancestors, ofParts] at hm
    · rintro ⟨way, hne, hp, _⟩
      exact absurd (List.prefix_nil.mp hp) hne
  | append_singleton init last ih =>
    obtain ⟨fuel, rfl⟩ : ∃ n, fuel = n + 1 := by
      rw [List.length_append, List.length_singleton] at hf
      exact ⟨fuel - 1, by omega⟩
    have hinit : ∀ name ∈ init, IsPart name := fun name hm ↦ h name (by simp [hm])
    have hlast : IsPart last := h last (by simp)
    have hne : ¬(ofParts (init ++ [last]) = current ∨ ofParts (init ++ [last]) = []) := by
      rw [not_or]
      exact ⟨ofParts_ne_current h, fun heq ↦ by simpa using (ofParts_eq_nil h).mp heq⟩
    have hstep : ancestors fuel (dirname (ofParts (init ++ [last]))) =
        ancestors fuel (ofParts init) := by
      rw [dirname_ofParts hinit hlast]
      split
      · next hnil =>
        rw [hnil]
        cases fuel <;> simp [ancestors, ofParts]
      · rfl
    rw [ancestors, if_neg hne, List.mem_cons, hstep,
      ih hinit (by rw [List.length_append, List.length_singleton] at hf; omega)]
    constructor
    · rintro (rfl | ⟨way, hway, hp, rfl⟩)
      · exact ⟨_, by simp, List.prefix_rfl, rfl⟩
      · exact ⟨way, hway, hp.trans (List.prefix_append ..), rfl⟩
    · rintro ⟨way, hway, hp, rfl⟩
      rcases List.prefix_concat_iff.mp hp with rfl | hp
      · exact .inl rfl
      · exact .inr ⟨way, hway, hp, rfl⟩

/-- The directories that are noted for a path, which is a file's or a directory's. -/
theorem mem_ancestors_parent (path : Path) (hne : names ≠ []) (h : ∀ name ∈ names, IsPart name) (isDirectory : Prop)
    [Decidable isDirectory] {parent : Path}
    (hparent : parent = if isDirectory then ofParts names else dirname (ofParts names)) :
    path ∈ ancestors parent.length parent ↔
      ∃ way, way ≠ [] ∧ way <+: names ∧ (isDirectory ∨ way ≠ names) ∧ path = ofParts way := by
  by_cases hd : isDirectory
  · rw [hparent, if_pos hd, mem_ancestors h (length_le_ofParts h)]
    simp [hd]
  · rw [hparent, if_neg hd]
    obtain ⟨init, last, rfl⟩ : ∃ init last, names = init ++ [last] :=
      ⟨_, _, (List.dropLast_append_getLast hne).symm⟩
    have hinit : ∀ name ∈ init, IsPart name := fun name hm ↦ h name (by simp [hm])
    have hway (way : List Name) : way <+: init ↔ way <+: init ++ [last] ∧ way ≠ init ++ [last] := by
      rw [List.prefix_concat_iff]
      constructor
      · intro hp
        refine ⟨.inr hp, ?_⟩
        rintro rfl
        have := hp.length_le
        simp at this
      · exact fun ⟨hp, hn⟩ ↦ hp.resolve_left hn
    rw [dirname_ofParts hinit (h last (by simp))]
    by_cases hnil : init = []
    · subst hnil
      constructor
      · intro hm
        simp [ancestors, current] at hm
      · rintro ⟨way, hw, hp, hn, _⟩
        exact absurd (List.prefix_nil.mp ((hway way).mpr ⟨hp, hn.resolve_left hd⟩)) hw
    · rw [if_neg hnil, mem_ancestors hinit (length_le_ofParts hinit)]
      simp only [hway, hd, false_or, and_assoc]

def isTop (path : Path) : Bool := (parts path).length = 1

theorem needsDirectory_iff : m.needsDirectory = true ↔ ∃ names, m.Needs names := by
  rw [needsDirectory]
  split
  · next hfive =>
    rw [decide_eq_true_iff]
    refine ⟨fun hn ↦ ⟨m.names, hn, List.prefix_rfl, .inl hfive⟩, ?_⟩
    rintro ⟨names, hne, hp, -⟩ hnil
    exact hne (List.prefix_nil.mp (hnil ▸ hp))
  · next hfive =>
    rw [decide_eq_true_iff]
    constructor
    · intro hlen
      have hone : (m.names.take 1).length = 1 := by
        rw [List.length_take]
        omega
      refine ⟨m.names.take 1, fun hnil ↦ ?_, List.take_prefix .., .inr fun heq ↦ ?_⟩
      · rw [hnil] at hone
        cases hone
      · rw [heq] at hone
        omega
    · rintro ⟨names, hne, hp, hk⟩
      have hlt : names.length ≠ m.names.length := fun hl ↦
        (hk.resolve_left hfive) (hp.eq_of_length hl)
      have hle := hp.length_le
      have hpos := List.length_pos_iff.mpr hne
      omega

/-- The first directory that a member brings is the topmost it lies in. -/
theorem find?_ancestors (hn : m.names ≠ []) {parent : Path}
    (hparent : parent = if m.type = ['5'] then ofParts m.names else dirname (ofParts m.names)) :
    (ancestors parent.length parent).find? isTop =
      if m.needsDirectory then some m.topDirectory else none := by
  have hmem (path : Path) := mem_ancestors_parent path hn isPart_names (m.type = ['5']) hparent
  have htop (path : Path) (hm : path ∈ ancestors parent.length parent) (hp : isTop path = true) :
      path = m.topDirectory := by
    obtain ⟨way, hne, hpre, -, rfl⟩ := (hmem path).mp hm
    rw [isTop, parts_ofParts (isPart_of_initial hpre), decide_eq_true_iff] at hp
    rw [topDirectory, ← hp, ← List.prefix_iff_eq_take.mp hpre]
  split
  · next hneeds =>
    obtain ⟨names, hne, hpre, hk⟩ := needsDirectory_iff.mp hneeds
    have htake : m.names.take 1 <+: m.names := List.take_prefix ..
    have hone : (m.names.take 1).length = 1 := by
      have := List.length_pos_iff.mpr hn
      rw [List.length_take]
      omega
    have hin : m.topDirectory ∈ ancestors parent.length parent := by
      refine (hmem _).mpr ⟨m.names.take 1, fun hnil ↦ by simp [hnil] at hone, htake, ?_, rfl⟩
      refine hk.imp_right fun hother heq ↦ hother ?_
      have hlen : m.names.length = 1 := heq ▸ hone
      refine hpre.eq_of_length_le ?_
      rw [hlen]
      exact List.length_pos_iff.mpr hne
    have hfound : isTop m.topDirectory = true := by
      rw [isTop, topDirectory, parts_ofParts (isPart_of_initial htake), decide_eq_true_iff]
      exact hone
    obtain ⟨path, hfind⟩ := Option.isSome_iff_exists.mp (List.find?_isSome.mpr ⟨_, hin, hfound⟩)
    rw [hfind, htop path (List.mem_of_find?_eq_some hfind) (List.find?_some hfind)]
  · next hneeds =>
    refine List.find?_eq_none.mpr fun path hm hp ↦ hneeds ?_
    obtain ⟨way, hne, hpre, hk, -⟩ := (hmem path).mp hm
    exact needsDirectory_iff.mpr ⟨way, hne, hpre, hk⟩

/-- What a listing has gathered of the members that were admitted. -/
structure Reflects (ms : List Member) (listing : Listing) : Prop where
  legal : ∀ m ∈ ms, m.Legal
  top : ∃ below, listing.directories = [] :: below
  once : listing.directories.Nodup
  lead : listing.directories.find? isTop = (ms.find? needsDirectory).map topDirectory
  seen : listing.seen = (ms.filter (·.names ≠ [])).map fun m ↦ ofParts m.names
  distinct : listing.seen.Nodup
  files : (ms.filter fun m ↦ m.names ≠ [] && m.type ≠ ['5']).map
      (fun m ↦ (ofParts m.names, m.content, fileMode m)) =
    listing.entries.map fun entry ↦ (entry.path, entry.content, .ok entry.mode)
  directories : ∀ path, path ∈ listing.directories ↔
    path = [] ∨ ∃ m ∈ ms, ∃ names, m.Needs names ∧ path = ofParts names

theorem reflects_start : Reflects [] start where
  legal := by simp
  top := ⟨[], rfl⟩
  once := by simp [start]
  lead := by simp [start, isTop]
  seen := rfl
  distinct := by simp [start]
  files := rfl
  directories := by simp [start]

theorem check_eq_ok {condition : Bool} {code message : String} :
    check condition code message = .ok () ↔ condition = true := by
  rw [check, refuseIf_eq_ok]
  cases condition <;> simp

theorem needs_root (hn : m.names = []) : ¬m.Needs names := by
  intro ⟨hne, hp, _⟩
  rw [hn] at hp
  exact hne (List.prefix_nil.mp hp)

theorem mem_directories (hn : m.names ≠ []) {directories : List Path} {parent : Path}
    (hparent : parent = if m.type = ['5'] then ofParts m.names else dirname (ofParts m.names)) :
    path ∈ (ancestors parent.length parent).foldl addValue directories ↔
      path ∈ directories ∨ ∃ names, m.Needs names ∧ path = ofParts names := by
  have hfold := mem_foldl_addValue (ancestors parent.length parent) id directories path
  simp only [id_eq, exists_eq_right] at hfold
  have hmem := mem_ancestors_parent path hn isPart_names (m.type = ['5']) hparent
  rw [hfold, hmem]
  simp only [Needs, IsDirectory, and_assoc]

theorem Reflects.root (h : Reflects ms listing) (hm : m.Legal) (hn : m.names = []) :
    Reflects (ms ++ [m]) listing where
  legal m' hm' := by
    rcases List.mem_append.mp hm' with hm' | hm'
    · exact h.legal m' hm'
    · exact List.mem_singleton.mp hm' ▸ hm
  top := h.top
  once := h.once
  lead := by
    have hneeds : ¬m.needsDirectory = true := fun hneeds ↦
      needs_root hn (needsDirectory_iff.mp hneeds).choose_spec
    rw [h.lead, List.find?_append, List.find?_cons_of_neg hneeds, List.find?_nil, Option.or_none]
  seen := by
    rw [List.filter_append, List.filter_cons_of_neg (by simp [hn]), List.filter_nil,
      List.append_nil, h.seen]
  distinct := h.distinct
  files := by
    rw [List.filter_append, List.filter_cons_of_neg (by simp [hn]), List.filter_nil,
      List.append_nil, h.files]
  directories path := by
    rw [h.directories]
    simp [or_and_right, exists_or, needs_root hn]

theorem Reflects.named (h : Reflects ms listing) (hm : m.Legal) (hn : m.names ≠ [])
    (hseen : ofParts m.names ∉ listing.seen) {parent : Path} {entries : List Entry}
    (hparent : parent = if m.type = ['5'] then ofParts m.names else dirname (ofParts m.names))
    (he : entries.map (fun entry ↦ (entry.path, entry.content, Except.ok entry.mode)) =
      listing.entries.map (fun entry ↦ (entry.path, entry.content, Except.ok entry.mode)) ++
        if m.type = ['5'] then [] else [(ofParts m.names, m.content, fileMode m)]) :
    Reflects (ms ++ [m]) { listing with
      directories := (ancestors parent.length parent).foldl addValue listing.directories
      entries := entries
      seen := listing.seen ++ [ofParts m.names] } where
  legal m' hm' := by
    rcases List.mem_append.mp hm' with hm' | hm'
    · exact h.legal m' hm'
    · exact List.mem_singleton.mp hm' ▸ hm
  top := by
    obtain ⟨below, htop⟩ := h.top
    rw [htop]
    exact foldl_addValue_cons ..
  once := nodup_foldl_addValue h.once
  lead := by
    rw [find?_foldl_addValue, h.lead, find?_ancestors hn hparent, List.find?_append]
    cases ms.find? needsDirectory <;> cases hneeds : m.needsDirectory <;> simp [hneeds]
  seen := by
    rw [List.filter_append, List.filter_cons_of_pos (by simp [hn]), List.filter_nil,
      List.map_append, ← h.seen]
    rfl
  distinct := by
    rw [List.nodup_append]
    refine ⟨h.distinct, by simp, ?_⟩
    rintro path hp _ hs rfl
    exact hseen (List.mem_singleton.mp hs ▸ hp)
  files := by
    rw [he, ← h.files, List.filter_append, List.map_append]
    split
    · next ht => rw [List.filter_cons_of_neg (by simp [ht])]; rfl
    · next ht => rw [List.filter_cons_of_pos (by simp [hn, ht])]; rfl
  directories path := by
    rw [mem_directories hn hparent, h.directories]
    simp only [List.mem_append, List.mem_singleton, or_and_right, exists_or, exists_eq_left]
    rw [or_assoc]

theorem Reflects.of_eq (h : Reflects ms listing) (hd : listing'.directories = listing.directories)
    (he : listing'.entries = listing.entries) (hs : listing'.seen = listing.seen) :
    Reflects ms listing' := by
  obtain ⟨directories, entries, count, seen, extendedPath⟩ := listing'
  subst hd he hs
  exact ⟨h.legal, h.top, h.once, h.lead, h.seen, h.distinct, h.files, h.directories⟩

theorem admitMember_spec (h : Reflects ms listing) (ha : admitMember m listing = .ok listing') :
    Reflects (ms ++ [m]) listing' := by
  obtain ⟨⟨⟩, hsafe, ha⟩ := bind_eq_ok.mp ha
  rw [check_eq_ok, Bool.not_eq_true'] at hsafe
  obtain ⟨habs, habove⟩ := not_isUnsafe hsafe
  rw [normalized_eq habove] at ha
  have hparts : ∀ name ∈ m.names, IsPart name := isPart_names
  dsimp only at ha
  split at ha
  · next hroot =>
    have hnil : m.names = [] :=
      (ofParts_eq_nil hparts).mp (hroot.resolve_left (ofParts_ne_current hparts))
    obtain ⟨⟨⟩, htype, ha⟩ := bind_eq_ok.mp ha
    cases ha
    have hfive : m.type = ['5'] := of_decide_eq_true (check_eq_ok.mp htype)
    exact h.root ⟨habs, habove, .inl hfive⟩ hnil
  · next hroot =>
    have hne : m.names ≠ [] := fun hnil ↦ hroot (.inr ((ofParts_eq_nil hparts).mpr hnil))
    obtain ⟨⟨⟩, hfresh, ha⟩ := bind_eq_ok.mp ha
    rw [check_eq_ok, Bool.and_eq_true, decide_eq_true_iff] at hfresh
    obtain ⟨hseen, htype⟩ := hfresh
    have hkind : m.IsDirectory ∨ m.IsFile ∧ m.names ≠ [] := by
      simp only [Bool.or_eq_true, decide_eq_true_iff] at htype
      rcases htype with htype | htype
      · exact .inr ⟨htype, hne⟩
      · exact .inl htype
    split at ha
    · next hfive =>
      cases ha
      exact h.named ⟨habs, habove, hkind⟩ hne hseen
        (by rw [if_pos hfive]; rfl) (by simp [hfive])
    · next hfive =>
      obtain ⟨mode, hmode, ha⟩ := bind_eq_ok.mp ha
      cases ha
      exact h.named ⟨habs, habove, hkind⟩ hne hseen
        (by rw [if_neg hfive]; rfl) (by simp [hfive, hmode]; rfl)

variable {decode : List UInt8 → List Char} {fuel : ℕ} {bytes : List UInt8}

theorem admitMember_extendedPath (ha : admitMember m listing = .ok listing') :
    listing'.extendedPath = listing.extendedPath := by
  obtain ⟨⟨⟩, -, ha⟩ := bind_eq_ok.mp ha
  dsimp only at ha
  split at ha
  · obtain ⟨⟨⟩, -, ha⟩ := bind_eq_ok.mp ha
    cases ha
    rfl
  · obtain ⟨⟨⟩, -, ha⟩ := bind_eq_ok.mp ha
    split at ha
    · cases ha
      rfl
    · obtain ⟨mode, -, ha⟩ := bind_eq_ok.mp ha
      cases ha
      rfl

theorem list_spec (h : Reflects ms listing) (hl : list decode fuel bytes listing = .ok listing') :
    Reflects (ms ++ members decode fuel bytes listing.extendedPath) listing' := by
  induction fuel generalizing bytes ms listing with
  | zero =>
    cases hl
    rwa [members, List.append_nil]
  | succ fuel ih =>
    rw [list] at hl
    rw [members]
    split at hl
    · next hend =>
      cases hl
      rwa [if_pos hend, List.append_nil]
    · next hend =>
      rw [if_neg hend]
      obtain ⟨⟨size, type⟩, hheader, hl⟩ := bind_eq_ok.mp hl
      obtain ⟨⟨⟩, -, hl⟩ := bind_eq_ok.mp hl
      rw [hheader]
      dsimp only at hl ⊢
      split at hl
      · next extended hextension =>
        obtain ⟨path, rfl, hl⟩ := bind_eq_ok.mp hl
        rw [hextension]
        replace hl : list decode fuel (bytes.drop (padded size))
          { listing with count := listing.count + 1, extendedPath := path } = .ok listing' := hl
        refine ih ?_ hl
        exact h.of_eq rfl rfl rfl
      · next hextension =>
        obtain ⟨admitted, hadmit, hl⟩ := bind_eq_ok.mp hl
        rw [hextension]
        have hnone : Reflects ms { listing with count := listing.count + 1, extendedPath := none } :=
          h.of_eq rfl rfl rfl
        have hrest := ih (admitMember_spec hnone hadmit) hl
        rwa [admitMember_extendedPath hadmit, List.append_assoc, List.singleton_append] at hrest

end RustdeskConsole.Archives
