import RustdeskConsole.Backups.Manifests

namespace RustdeskConsole.Backups

open Collections Posix Serialization
open Calls hiding call bind_eq_ok written
open Updater (Failure)

variable {e : Environment} {volume volume' : Volume} {root root' directory path : Location}
  {excluded : List Location} {hashes : Bool} {rest way : List Name} {name : Name}
  {node : Node} {files found : List FileEntry} {entry : FileEntry} {depth : ℕ}
  {content : List UInt8}

theorem noLinks_finds (hn : volume.node path = some node) (hl : node.content ≠ .link) :
    Finds (noLinks path) volume () := by
  refine .forM fun way hway ↦ ?_
  by_cases hp : way = path
  · subst hp
    exact .bind (.lstat hn) (.assert (decide_eq_true hl))
  · have hinit : way <+: path.dropLast := by
      obtain ⟨rest, rfl⟩ := (List.mem_inits _ _).mp hway
      rw [List.dropLast_append_of_ne_nil (by simpa using hp)]
      exact List.prefix_append ..
    obtain ⟨found, hfound, hd⟩ := Disk.isDirectory_of_prefix (Disk.isDirectory_dropLast hn) hinit
    exact .bind (.lstat hfound) (.assert (by simp [hd]))

theorem hashFile_finds (h : volume.bytes path = some content) :
    Finds (hashFile e path) volume (e.sha256 content) :=
  .bind (.readFile h) .pure

theorem scanEntry_finds (hn : volume.node path = some node)
    (h : entryAt e root hashes path node = some entry) :
    Finds (scanEntry e root hashes path node) volume entry := by
  dsimp only [entryAt] at h
  split at h
  · next hsafe =>
    obtain rfl := Option.some.inj h
    obtain ⟨hkind, hname⟩ := Bool.and_eq_true_iff.mp hsafe
    refine .bind (.assert hkind) (.bind (.assert hname) (.ite (fun hfile ↦ ?_) fun hfile ↦ ?_))
    · rw [if_pos hfile]
      refine .bind (hashFile_finds ?_) .pure
      obtain ⟨hfile, -⟩ := Bool.and_eq_true_iff.mp hfile
      have hd : node.content ≠ .directory := by
        intro hd
        simp [entryOf, hd] at hfile
      rw [decide_eq_false hd, Bool.false_or, Bool.and_eq_true] at hkind
      obtain ⟨hsome, -⟩ := hkind
      obtain ⟨content, hcontent⟩ := Option.isSome_iff_exists.mp hsome
      rw [Volume.bytes, hn, Option.bind_some, hcontent, Option.getD_some]
    · rw [if_neg hfile]
      exact .pure
  · cases h

theorem visitItem_finds {below : Location → List FileEntry → Action (List FileEntry)}
    {listed : Location → Option (List FileEntry)}
    (hbelow : ∀ path files found, listed path = some found →
      (files ++ found).length ≤ MAX_FILES → Finds (below path files) volume (files ++ found))
    (h : listItem e volume root excluded hashes listed path = some found)
    (hmax : (files ++ found).length ≤ MAX_FILES) :
    Finds (visitItem e root excluded hashes below files path) volume (files ++ found) := by
  unfold listItem at h
  unfold visitItem
  split at h
  · next hexcluded =>
    obtain rfl := Option.some.inj h
    rw [if_pos hexcluded, List.append_nil]
    exact .pure
  · next hexcluded =>
    rw [if_neg hexcluded]
    obtain ⟨info, hinfo, h₁⟩ := Option.bind_eq_some_iff.mp h
    obtain ⟨entry, hentry, h₂⟩ := Option.bind_eq_some_iff.mp h₁
    refine .bind (.lstat hinfo) (.bind (scanEntry_finds hinfo hentry) ?_)
    split at h₂
    · next hdirectory =>
      obtain ⟨more, hmore, rfl⟩ := Option.map_eq_some_iff.mp h₂
      rw [List.append_cons files entry more] at hmax ⊢
      refine .bind (.assert (decide_eq_true ?_)) ?_
      · rw [List.length_append] at hmax
        omega
      · rw [if_pos hdirectory]
        exact hbelow path _ more hmore hmax
    · next hdirectory =>
      obtain rfl := Option.some.inj h₂
      refine .bind (.assert (decide_eq_true hmax)) ?_
      rw [if_neg hdirectory]
      exact .pure

theorem foldlM_finds {turn : List FileEntry → Name → Action (List FileEntry)}
    {f : Name → Option (List FileEntry)} {names : List Name}
    (hturn : ∀ name ∈ names, ∀ files first, f name = some first →
      (files ++ first).length ≤ MAX_FILES → Finds (turn files name) volume (files ++ first))
    (h : gather f names = some found) (hmax : (files ++ found).length ≤ MAX_FILES) :
    Finds (names.foldlM turn files) volume (files ++ found) := by
  induction names generalizing files found with
  | nil =>
    obtain rfl := Option.some.inj h
    rw [List.append_nil]
    exact .pure
  | cons name names ih =>
    obtain ⟨first, hfirst, h₁⟩ := Option.bind_eq_some_iff.mp h
    obtain ⟨more, hmore, rfl⟩ := Option.map_eq_some_iff.mp h₁
    rw [← List.append_assoc] at hmax ⊢
    rw [List.foldlM_cons]
    refine .bind (hturn name List.mem_cons_self files first hfirst ?_)
      (ih (fun name hm ↦ hturn name (List.mem_cons_of_mem _ hm)) hmore hmax)
    rw [List.length_append] at hmax
    omega

/-- What there is to be found is what an undisturbed scan finds. -/
theorem visit_finds
    (h : listing e volume root excluded hashes depth directory = some found)
    (hmax : (files ++ found).length ≤ MAX_FILES) :
    Finds (visit e root excluded hashes depth directory files) volume (files ++ found) := by
  induction depth generalizing directory files found with
  | zero => cases h
  | succ depth ih =>
    rw [listing] at h
    split at h
    · next hd =>
      rw [visit_succ]
      refine .bind (.readdir hd) (foldlM_finds (fun name hm files first hfirst hmax ↦ ?_) h hmax)
      rw [descend_of_mem (mem_sort.mp hm)]
      exact visitItem_finds (fun path files found ↦ ih) hfirst hmax
    · cases h

theorem isDirectory_of_listing
    (h : listing e volume root excluded hashes depth directory = some found) :
    volume.IsDirectory directory := by
  cases depth with
  | zero => cases h
  | succ depth =>
    rw [listing] at h
    split at h
    · next hd => exact hd
    · cases h

theorem scanFiles_finds (h : listing e volume root excluded hashes e.depth root = some found)
    (hmax : found.length ≤ MAX_FILES) :
    Finds (scanFiles e root excluded hashes) volume found := by
  obtain ⟨node, hnode, hd⟩ := isDirectory_of_listing h
  exact .bind (noLinks_finds hnode (by simp [hd])) (visit_finds h hmax)

theorem codeUnits_inj {text text' : Text} (h : codeUnits text = codeUnits text') :
    text = text' := by
  have hvalid : ∀ c : Char, c.toNat < 0xd800 ∨ 0xdfff < c.toNat ∧ c.toNat < 0x110000 :=
    fun c ↦ c.valid
  have hcons : ∀ (c : Char) (cs : Text), codeUnits (c :: cs) = (if c.toNat < 0x10000 then [c.toNat]
      else [0xd800 + (c.toNat - 0x10000) / 0x400, 0xdc00 + (c.toNat - 0x10000) % 0x400]) ++
        codeUnits cs := fun c cs ↦ rfl
  induction text generalizing text' with
  | nil =>
    cases text' with
    | nil => rfl
    | cons d ds =>
      rw [hcons] at h
      split at h <;> cases h
  | cons c cs ih =>
    cases text' with
    | nil =>
      rw [hcons] at h
      split at h <;> cases h
    | cons d ds =>
      have hc := hvalid c
      have hd := hvalid d
      rw [hcons, hcons] at h
      suffices hboth : c.toNat = d.toNat ∧ codeUnits cs = codeUnits ds by
        rw [Char.toNat_inj.mp hboth.1, ih hboth.2]
      split at h <;> split at h <;>
        simp only [List.cons_append, List.nil_append, List.cons.injEq] at h
      · exact h
      · omega
      · omega
      · exact ⟨by omega, h.2.2⟩

/-- However a directory is read, its names are visited in one order. -/
theorem sort_eq_of_perm {names names' : List Name} (h : names.Perm names') :
    sort names = sort names' := by
  have htotal : Std.Total fun left right : Name ↦ codeUnits left ≤ codeUnits right :=
    ⟨fun left right ↦ le_total (codeUnits left) (codeUnits right)⟩
  have htrans : IsTrans Name fun left right ↦ codeUnits left ≤ codeUnits right :=
    ⟨fun _ _ _ ↦ le_trans⟩
  refine List.Perm.eq_of_pairwise (fun left right _ _ hle hge ↦ codeUnits_inj (le_antisymm hle hge))
    (List.pairwise_insertionSort _ names) (List.pairwise_insertionSort _ names') ?_
  exact (List.perm_insertionSort _ names).trans (h.trans (List.perm_insertionSort _ names').symm)

theorem sort_names (h : ∀ name, volume'.node (directory ++ [name]) = volume.node (path ++ [name])) :
    sort (volume'.names directory) = sort (volume.names path) := by
  refine sort_eq_of_perm ((List.perm_ext_iff_of_nodup Volume.nodup_names Volume.nodup_names).mpr
    fun name ↦ ?_)
  rw [Volume.mem_names, Volume.mem_names, h]

theorem entryAt_congr :
    entryAt e root' hashes (root' ++ way) node = entryAt e root hashes (root ++ way) node := by
  simp only [entryAt, entryOf, relative_append]

theorem gather_congr {f g : Name → Option (List FileEntry)} {names : List Name}
    (h : ∀ name ∈ names, f name = g name) : gather f names = gather g names := by
  induction names with
  | nil => rfl
  | cons name names ih =>
    rw [gather, gather, h name List.mem_cons_self,
      ih fun name hm ↦ h name (List.mem_cons_of_mem _ hm)]

/-- What a scan finds is the same wherever the files stand. -/
theorem listing_congr
    (h : ∀ rest, volume'.node (root' ++ rest) = volume.node (root ++ rest)) :
    listing e volume' root' [] hashes depth (root' ++ way) =
      listing e volume root [] hashes depth (root ++ way) := by
  induction depth generalizing way with
  | zero => rfl
  | succ depth ih =>
    have hdirectory : volume'.IsDirectory (root' ++ way) ↔ volume.IsDirectory (root ++ way) := by
      rw [Disk.IsDirectory, Disk.IsDirectory, h]
    have hnames : sort (volume'.names (root' ++ way)) = sort (volume.names (root ++ way)) := by
      refine sort_names fun name ↦ ?_
      rw [List.append_assoc, h, List.append_assoc]
    have hitem : ∀ name, listItem e volume' root' [] hashes
        (listing e volume' root' [] hashes depth) (root' ++ way ++ [name]) =
          listItem e volume root [] hashes (listing e volume root [] hashes depth)
            (root ++ way ++ [name]) := by
      intro name
      rw [List.append_assoc, List.append_assoc, listItem, listItem, if_neg List.not_mem_nil,
        if_neg List.not_mem_nil, h, ih]
      refine Option.bind_congr fun info _ ↦ ?_
      rw [entryAt_congr]
    rw [listing, listing, hnames, gather_congr fun name _ ↦ hitem name]
    exact if_congr hdirectory rfl rfl

theorem path_of_entryAt (h : entryAt e root hashes (root ++ rest) node = some entry) :
    entry.path = ofParts rest := by
  rw [(entryAt_eq_some h).1]
  exact relative_append

theorem Visible.named (hv : Visible volume excluded (root ++ way) rest node)
    (h : entryAt e root hashes (root ++ way ++ rest) node = some entry) :
    entry.path = ofParts (way ++ rest) ∧ ∀ name ∈ way ++ rest, Plain name := by
  have hnode := hv.stands
  rw [List.append_assoc] at h hnode
  exact ⟨path_of_entryAt h, plain_of_node hnode⟩

theorem gather_nodup {f : Name → Option (List FileEntry)} {names : List Name}
    (hn : names.Nodup) (hf : ∀ name first, f name = some first → (first.map FileEntry.path).Nodup)
    (hd : ∀ name first name' first', f name = some first → f name' = some first' →
      ∀ entry ∈ first, ∀ entry' ∈ first', entry.path = entry'.path → name = name')
    (h : gather f names = some found) : (found.map FileEntry.path).Nodup := by
  induction names generalizing found with
  | nil =>
    obtain rfl := Option.some.inj h
    exact List.nodup_nil
  | cons name names ih =>
    obtain ⟨first, hfirst, h₁⟩ := Option.bind_eq_some_iff.mp h
    obtain ⟨more, hmore, rfl⟩ := Option.map_eq_some_iff.mp h₁
    obtain ⟨hname, hnames⟩ := List.nodup_cons.mp hn
    rw [List.map_append]
    refine List.Nodup.append (hf name first hfirst) (ih hnames hmore) fun path hp hp' ↦ ?_
    obtain ⟨entry, hm, rfl⟩ := List.mem_map.mp hp
    obtain ⟨entry', hm', heq⟩ := List.mem_map.mp hp'
    obtain ⟨name', hname', first', hfirst', hm'⟩ := ((gather_eq_some hmore).2 entry').mp hm'
    exact hname (hd name first name' first' hfirst hfirst' entry hm entry' hm' heq.symm ▸ hname')

theorem listing_nodup
    (h : listing e volume root excluded hashes depth (root ++ way) = some found) :
    (found.map FileEntry.path).Nodup := by
  induction depth generalizing way found with
  | zero => cases h
  | succ depth ih =>
    rw [listing] at h
    split at h
    · have hcovers : ∀ name first, listItem e volume root excluded hashes
          (listing e volume root excluded hashes depth) (root ++ way ++ [name]) = some first →
            Covers e volume root excluded hashes (root ++ (way ++ [name])) first := by
        intro name first hitem
        rw [← List.append_assoc]
        exact listItem_covers (fun path found ↦ listing_lists) hitem
      refine gather_nodup ?_ (fun name first hfirst ↦ ?_)
        (fun name first name' first' hfirst hfirst' entry hm entry' hm' heq ↦ ?_) h
      · exact (List.perm_insertionSort _ _).nodup_iff.mpr Volume.nodup_names
      · have hself := hcovers name first hfirst
        unfold listItem at hfirst
        split at hfirst
        · obtain rfl := Option.some.inj hfirst
          exact List.nodup_nil
        · obtain ⟨info, hinfo, h₁⟩ := Option.bind_eq_some_iff.mp hfirst
          obtain ⟨entry, hentry, h₂⟩ := Option.bind_eq_some_iff.mp h₁
          split at h₂
          · obtain ⟨files, hfiles, rfl⟩ := Option.map_eq_some_iff.mp h₂
            rw [List.append_assoc] at hfiles
            refine List.nodup_cons.mpr ⟨fun hm ↦ ?_, ih hfiles⟩
            obtain ⟨other, hother, heq⟩ := List.mem_map.mp hm
            obtain ⟨below, rest, node, hv, hat⟩ := (listing_lists hfiles).sound other hother
            rw [List.append_assoc root] at hv hat
            obtain ⟨hpath, hplain⟩ := hv.named hat
            rw [List.append_assoc] at hinfo hentry
            rw [hpath, path_of_entryAt hentry] at heq
            have hparts := (ofParts_inj (fun name hm ↦ (hplain name hm).isPart)
              fun name hm ↦ (plain_of_node hinfo name hm).isPart).mp heq
            simpa using congrArg List.length hparts
          · obtain rfl := Option.some.inj h₂
            exact List.nodup_singleton _
      · obtain ⟨rest, node, hv, hat⟩ := (hcovers name first hfirst).sound entry hm
        obtain ⟨rest', node', hv', hat'⟩ := (hcovers name' first' hfirst').sound entry' hm'
        obtain ⟨hpath, hplain⟩ := hv.named hat
        obtain ⟨hpath', hplain'⟩ := hv'.named hat'
        rw [hpath, hpath'] at heq
        have hparts := (ofParts_inj (fun name hm ↦ (hplain name hm).isPart)
          fun name hm ↦ (hplain' name hm).isPart).mp heq
        simp only [List.append_assoc, List.cons_append, List.nil_append] at hparts
        exact (List.cons.inj (List.append_cancel_left hparts)).1
    · cases h

end RustdeskConsole.Backups
