import RustdeskConsole.Backups.Manifests

namespace RustdeskConsole.Backups

open Collections Effects Posix Serialization
open Calls hiding call bind_eq_ok written
open Updater (Failure)

variable {e : Environment} {context : BackupContext} {snapshot : BackupSnapshot}
  {volume volume' volume'' : Volume} {root directory path source target location : Location}
  {excluded : List Location} {hashes : Bool} {rest : List Name} {name : Name}
  {files : List FileEntry} {entry : FileEntry} {depth : ℕ} {s s' : System} {content : List UInt8}

section Reading

variable {r : Volume → Volume → Prop} [IsPreorder Volume r]

theorem noLinks_respects : Respects r (noLinks path) :=
  .forM fun _ _ ↦ .bind .ask fun _ ↦ .assert

theorem stat_respects : Respects r (stat path : Action Node) :=
  .bind .ask fun _ ↦ .bind .assert fun _ ↦ .pure

theorem hashFile_respects : Respects r (hashFile e path) := .bind .ask fun _ ↦ .pure

theorem scanEntry_respects {node : Node} : Respects r (scanEntry e root hashes path node) :=
  .bind .assert fun _ ↦ .bind .assert fun _ ↦ .ite
    (fun _ ↦ .bind hashFile_respects fun _ ↦ .pure) fun _ ↦ .pure

theorem visit_respects : Respects r (visit e root excluded hashes depth directory files) := by
  induction depth generalizing directory files with
  | zero => exact .throw
  | succ depth ih =>
    refine .bind .ask fun names ↦ .foldlM fun files name _ ↦ .ite (fun _ ↦ .pure) fun _ ↦ ?_
    exact .bind .ask fun info ↦ .bind scanEntry_respects fun entry ↦ .bind .assert fun _ ↦
      .ite (fun _ ↦ ih) fun _ ↦ .pure

theorem scanFiles_respects : Respects r (scanFiles e root excluded hashes) :=
  .bind noLinks_respects fun _ ↦ visit_respects

theorem verifyFiles_respects {expected : List Value} :
    Respects r (verifyFiles e directory expected) :=
  .bind scanFiles_respects fun _ ↦ .bind .assert fun _ ↦ .assert

theorem checkSpace_respects {bytes : ℕ} : Respects r (checkSpace e context bytes excluded) :=
  .bind scanFiles_respects fun _ ↦ .forM fun _ _ ↦ .bind .ask fun _ ↦ .assert

theorem require_respects {α : Type} {value : Option α} {failure : Trouble Failure} :
    Respects r (Checked.require value failure : Action α) := by
  cases value with
  | none => exact .throw
  | some a => exact .pure

theorem database_respects : Respects r (SqliteBackupAdapter.database e context) := by
  unfold SqliteBackupAdapter.database
  split
  · exact .bind .assert fun _ ↦ .pure
  · exact .throw

end Reading

theorem privateDirectory_adds : Respects (Adds (· <+: path)) (privateDirectory e path) :=
  .bind mkdirAll_adds fun _ ↦ .bind noLinks_respects fun _ ↦ .bind stat_respects fun _ ↦
    .bind .assert fun _ ↦ .assert

theorem assertContext_adds :
    Respects (Adds (· <+: resolve e context.backupDir)) (assertContext e context) :=
  .bind .assert fun _ ↦ .bind .assert fun _ ↦ .bind .assert fun _ ↦ .bind noLinks_respects fun _ ↦
    .bind stat_respects fun _ ↦ .bind .assert fun _ ↦ privateDirectory_adds

theorem readManifest_respects {r : Volume → Volume → Prop} [IsPreorder Volume r] :
    Respects r (readManifest e context snapshot path) :=
  .bind noLinks_respects fun _ ↦ .bind stat_respects fun _ ↦ .bind .assert fun _ ↦
    .bind hashFile_respects fun _ ↦ .bind .assert fun _ ↦ .bind .ask fun _ ↦
    .bind require_respects fun _ ↦ .bind require_respects fun _ ↦ .bind .assert fun _ ↦ .pure

theorem verifyDatabase_respects {manifest : Manifest} {r : Volume → Volume → Prop}
    [IsPreorder Volume r] : Respects r (verifyDatabase e manifest path) :=
  .bind noLinks_respects fun _ ↦ .bind stat_respects fun _ ↦ .bind .assert fun _ ↦
    .bind hashFile_respects fun _ ↦ .assert

theorem readSnapshot_adds :
    Respects (Adds (· <+: resolve e context.backupDir)) (readSnapshot e context snapshot) :=
  .bind assertContext_adds fun _ ↦ .bind .assert fun _ ↦ .bind noLinks_respects fun _ ↦
    .bind readManifest_respects fun _ ↦ .bind verifyDatabase_respects fun _ ↦
    .bind verifyFiles_respects fun _ ↦ .pure

theorem durableCopy_adds : Respects (Adds (· = target)) (durableCopy e source target) :=
  .bind copyFile_adds fun _ ↦ .bind chmod_adds fun _ ↦ .ask

/-- The places that are touched when a file is written. -/
def Aside (path location : Location) : Prop :=
  location <+: path.dropLast ∨ path <+: location ∨ ∃ suffix, siblingOf path suffix <+: location

theorem atomicWrite_rest {uuid : Name} {value : Value} :
    Respects (Within fun l ↦ siblingOf path uuid <+: l ∨ path <+: l) (do
      Calls.chmod (siblingOf path uuid) 0o600
      writeFile (siblingOf path uuid) (encode (stringify value ++ ['\n']))
      sync (siblingOf path uuid)
      Calls.rename (siblingOf path uuid) path
      sync path.dropLast : Action Unit) := by
  have hself : ∀ l, l = siblingOf path uuid → siblingOf path uuid <+: l ∨ path <+: l := by
    rintro _ rfl
    exact .inl (List.prefix_refl _)
  exact .bind (chmod_adds.mono fun v v' h ↦ h.within.mono hself) fun _ ↦
    .bind (writeFile_within.mono fun v v' h ↦ h.mono hself) fun _ ↦ .bind .ask fun _ ↦
    .bind rename_within fun _ ↦ .ask

theorem atomicWrite_within {value : Value} :
    Respects (Within (Aside path)) (atomicWrite e path value) := by
  refine .bind (mkdirAll_adds.mono fun v v' h ↦ h.within.mono fun _ ↦ .inl) fun _ ↦
    .bind .draw fun uuid ↦ .bind (openNew_adds.mono fun v v' h ↦ h.within.mono ?_) fun _ ↦
    atomicWrite_rest.mono fun v v' h ↦ h.mono ?_
  · rintro _ rfl
    exact .inr (.inr ⟨_, List.prefix_refl _⟩)
  · rintro l (hl | hl)
    · exact .inr (.inr ⟨_, hl⟩)
    · exact .inr (.inl hl)

theorem bytes_eq_none (h : volume.node location = none) (rest : List Name) :
    volume.bytes (location ++ rest) = none := by
  rw [Volume.bytes, Volume.node_append_eq_none h]
  rfl

theorem atomicWrite_adds (e : Environment) (value : Value) (h : s.volume.node path = none) :
    Ends (atomicWrite e path value) s fun _ s' ↦ Adds (Aside path) s.volume s'.volume := by
  have hpath : path ≠ [] := by
    rintro rfl
    obtain ⟨root, hroot, -⟩ := s.volume.root
    cases h.symm.trans hroot
  have hmkdir : Respects (Adds (Aside path))
      (mkdirAll e.owner path.dropLast 0o700 : Action Unit) :=
    mkdirAll_adds.mono fun v v' h ↦ h.mono fun _ ↦ .inl
  refine hmkdir.andThen fun _ s₁ h₁ ↦ ?_
  have hfree : s₁.volume.node path = none := by
    rw [(mkdirAll_adds.of_ok h₁).within, h]
    intro hp
    have hlength := hp.length_le
    rw [List.length_dropLast] at hlength
    have := List.length_pos_iff.mpr hpath
    omega
  refine Respects.draw.andThen fun uuid s₂ h₂ ↦ ?_
  have hv₂ : s₂.volume = s₁.volume := by
    obtain ⟨-, rfl⟩ := EStateM.Result.ok.inj h₂
    rfl
  have hself : ∀ suffix l, l = siblingOf path suffix →
      siblingOf path suffix <+: l ∨ path <+: l := by
    rintro suffix _ rfl
    exact .inl (List.prefix_refl _)
  have haside : ∀ suffix l, siblingOf path suffix <+: l ∨ path <+: l → Aside path l := by
    rintro suffix l (hl | hl)
    · exact .inr (.inr ⟨_, hl⟩)
    · exact .inr (.inl hl)
  by_cases htemporary : s₂.volume.node (siblingOf path ('.' :: uuid ++ ".tmp".toList)) = none
  · refine ((openNew_adds.mono fun v v' h ↦ h.within.mono (hself _)).bind
      (fun _ ↦ atomicWrite_rest) s₂).mono fun _ s' h' ↦ (h'.adds ?_).mono (haside _)
    rintro l (⟨rest, rfl⟩ | ⟨rest, rfl⟩)
    · exact bytes_eq_none htemporary rest
    · exact bytes_eq_none (hv₂ ▸ hfree) rest
  · refine Respects.andThen (openNew_adds.mono fun v v' h ↦ h.mono fun l hl ↦
      haside _ l (hself _ l hl)) fun _ s₃ h₃ ↦ absurd (openNew_eq_ok h₃).1 htemporary

/-- A file of the data directory is kept in one of the directories for what was displaced. -/
def Displaced (backup : Location) (volume : Volume) (rest : List Name) (content : List UInt8) :
    Prop :=
  ∃ quarantine : Name, "displaced-".toList <+: quarantine ∧
    (volume.bytes (backup ++ quarantine :: rest) = some content ∨
      volume.bytes (backup ++ quarantine :: "files".toList :: rest) = some content)

/-- No file is lost: each is in place, or one of the data directory that was displaced. -/
def Safe (data backup : Location) (volume volume' : Volume) : Prop :=
  ∀ location content, volume.bytes location = some content →
    volume'.bytes location = some content ∨
      ∃ rest, location = data ++ rest ∧ Displaced backup volume' rest content

structure Apart (data backup : Location) : Prop where
  notBelow : ¬data <+: backup
  notAbove : ¬backup <+: data

variable {data backup : Location}

theorem Apart.outside (h : Apart data backup) (rest : List Name) :
    ¬data <+: backup ++ rest :=
  not_below h.notAbove h.notBelow rest

theorem Apart.inside (h : Apart data backup) (rest : List Name) :
    ¬backup <+: data ++ rest :=
  not_below h.notBelow h.notAbove rest

theorem Adds.safe {region : Location → Prop} (h : Adds region volume volume') :
    Safe data backup volume volume' :=
  fun location content hc ↦ .inl (h.kept location content hc)

theorem Safe.refl : Safe data backup volume volume := fun _ _ ↦ .inl

theorem Safe.displaced (hd : Apart data backup) (h : Safe data backup volume volume')
    (hp : Displaced backup volume rest content) : Displaced backup volume' rest content := by
  have hkept : ∀ way, volume.bytes (backup ++ way) = some content →
      volume'.bytes (backup ++ way) = some content := by
    intro way hc
    rcases h _ _ hc with hc | ⟨rest, heq, -⟩
    · exact hc
    · exact absurd ⟨rest, heq.symm⟩ (hd.outside way)
  obtain ⟨quarantine, hq, hc⟩ := hp
  exact ⟨quarantine, hq, hc.imp (hkept _) (hkept _)⟩

theorem Safe.isPreorder (hd : Apart data backup) : IsPreorder Volume (Safe data backup) where
  refl _ := Safe.refl
  trans volume _ _ h h' location content hc := by
    rcases h location content hc with hc | ⟨rest, heq, hp⟩
    · exact h' location content hc
    · exact .inr ⟨rest, heq, h'.displaced hd hp⟩

/-- A part of the data directory may be removed once there is a copy of each file in it. -/
theorem safe_of_copied (way copy : List Name)
    (hd : Apart data backup) (hw : Within (data ++ way <+: ·) volume volume')
    (hcopied : ∀ rest content, volume.bytes (data ++ way ++ rest) = some content →
      volume.bytes (backup ++ copy ++ rest) = some content)
    (hcopy : ∃ quarantine, "displaced-".toList <+: quarantine ∧
      (copy = quarantine :: way ∨ copy = quarantine :: "files".toList :: way)) :
    Safe data backup volume volume' := by
  intro location content hc
  by_cases hl : data ++ way <+: location
  · obtain ⟨rest, rfl⟩ := hl
    have hkept : volume'.bytes (backup ++ copy ++ rest) = some content := by
      rw [bytes_congr (hw _ _)]
      · exact hcopied rest content hc
      · rw [List.append_assoc]
        exact fun hp ↦ hd.outside _ ((List.prefix_append data way).trans hp)
    refine .inr ⟨way ++ rest, List.append_assoc .., ?_⟩
    obtain ⟨quarantine, hq, rfl | rfl⟩ := hcopy
    · exact ⟨quarantine, hq, .inl (by simpa using hkept)⟩
    · exact ⟨quarantine, hq, .inr (by simpa using hkept)⟩
  · rw [Volume.bytes, ← hw location hl] at hc
    exact .inl hc

theorem plain_foldl {names start : List Name} (hs : ∀ name ∈ start, Plain name)
    (hn : ∀ name ∈ names, IsPart name) : ∀ name ∈ names.foldl enter start, Plain name := by
  induction names generalizing start with
  | nil => exact hs
  | cons part names ih =>
    refine ih (fun name hm ↦ ?_) fun name hm ↦ hn name (List.mem_cons_of_mem _ hm)
    unfold enter at hm
    split at hm
    · exact hs name (List.mem_of_mem_dropLast hm)
    · next habove =>
      rcases List.mem_append.mp hm with hm | hm
      · exact hs name hm
      · rw [List.mem_singleton.mp hm]
        have hpart := hn part List.mem_cons_self
        exact ⟨hpart.notEmpty, hpart.notCurrent, habove, hpart.noSeparator⟩

theorem plain_resolve {path : Path} (h : isAbsolute path = true) :
    ∀ name ∈ resolve e path, Plain name := by
  rw [resolve, locate, if_pos h]
  exact plain_foldl (by simp) fun _ ↦ isPart_of_mem

theorem contained_append (h : ∀ name ∈ rest, Plain name) : contained root (root ++ rest) = true := by
  have hparts : parts (ofParts rest) = rest := parts_ofParts fun name hm ↦ (h name hm).isPart
  have habove : above ∉ parts (ofParts rest) := by
    rw [hparts]
    exact fun hm ↦ (h above hm).notAbove rfl
  rw [contained, relative_append]
  by_cases hrest : rest = []
  · simp [hrest, ofParts]
  · have hout : ((above ++ ['/']).isPrefixOf (ofParts rest)) = false := by
      rw [Bool.eq_false_iff]
      intro hp
      obtain ⟨more, hmore⟩ := List.isPrefixOf_iff_prefix.mp hp
      rw [List.append_assoc, List.singleton_append] at hmore
      rw [← hmore, parts_append] at habove
      exact habove (List.mem_append_left _ (by decide))
    have hne : ofParts rest ≠ above := by
      intro heq
      rw [heq] at habove
      exact habove (by decide)
    have habsolute : isAbsolute (ofParts rest) = false := by
      refine isAbsolute_ofParts (fun name hm ↦ (h name hm).noSeparator) fun hhead ↦ ?_
      exact (h [] (List.mem_of_mem_head? hhead)).notEmpty rfl
    simp [hout, hne, habsolute]

theorem apart_of_contained {data backup : Location} (hdata : ∀ name ∈ data, Plain name)
    (hbackup : ∀ name ∈ backup, Plain name)
    (h : (!contained data backup && !contained backup data) = true) : Apart data backup := by
  simp only [Bool.and_eq_true, Bool.not_eq_true'] at h
  constructor
  · rintro ⟨rest, rfl⟩
    rw [contained_append fun name hm ↦ hbackup name (List.mem_append_right _ hm)] at h
    cases h.1
  · rintro ⟨rest, rfl⟩
    rw [contained_append fun name hm ↦ hdata name (List.mem_append_right _ hm)] at h
    cases h.2

theorem assertContext_eq_ok {u : Unit} (h : assertContext e context s = .ok u s') :
    Apart (resolve e context.dataDir) (resolve e context.backupDir) := by
  obtain ⟨⟨⟩, s₁, hc₁, h₁⟩ := Calls.bind_eq_ok h
  obtain ⟨⟨⟩, s₂, hc₂, h₂⟩ := Calls.bind_eq_ok h₁
  obtain ⟨⟨⟩, s₃, hc₃, h₃⟩ := Calls.bind_eq_ok h₂
  obtain ⟨hdata, hbackup⟩ := Bool.and_eq_true_iff.mp (check_eq_ok hc₂).1
  exact apart_of_contained (plain_resolve hdata) (plain_resolve hbackup) (check_eq_ok hc₃).1

theorem durableCopy_eq_ok {u : Unit} (h : durableCopy e source target s = .ok u s') :
    s.volume.node target = none ∧ ∃ content, s.volume.bytes source = some content ∧
      s'.volume.bytes source = some content ∧ s'.volume.bytes target = some content := by
  have hadds := durableCopy_adds.of_ok h
  obtain ⟨⟨⟩, s₁, hc₁, h₁⟩ := Calls.bind_eq_ok h
  obtain ⟨hfree, content, hsource, htarget⟩ := copyFile_eq_ok hc₁
  obtain ⟨⟨⟩, s₂, hc₂, h₂⟩ := Calls.bind_eq_ok h₁
  refine ⟨hfree, content, hsource, hadds.kept _ _ hsource, ?_⟩
  rw [(ask_eq_ok h₂).2]
  exact (chmod_adds.of_ok hc₂).kept _ _ htarget

theorem eq_nil_of_bytes {content' : List UInt8} (h : volume.bytes location = some content)
    (hrest : volume.bytes (location ++ rest) = some content') : rest = [] := by
  obtain ⟨node, hnode, hcontent⟩ := Volume.bytes_eq_some.mp h
  obtain ⟨node', hnode', -⟩ := Volume.bytes_eq_some.mp hrest
  refine Volume.eq_nil_of_node hnode ?_ hnode'
  rw [hcontent]
  simp

theorem plain_of_bytes (h : volume.bytes (directory ++ rest) = some content) :
    ∀ name ∈ rest, Plain name := by
  obtain ⟨node, hnode, -⟩ := Volume.bytes_eq_some.mp h
  exact plain_of_node hnode

/-- A file that is put aside is removed only after the copy of it is complete. -/
theorem quarantineFile_safe {quarantine : Name} (hd : Apart data backup)
    (hq : "displaced-".toList <+: quarantine) :
    Respects (Safe data backup)
      (quarantineFile e (data ++ [name]) (backup ++ [quarantine])) := by
  have := Safe.isPreorder hd
  refine .tryCatch (fun s ↦ ?_) fun error ↦ .ite (fun _ ↦ .pure) fun _ ↦ .throw
  refine Respects.ask.andThen fun info s₁ h₁ ↦ Respects.assert.andThen fun _ s₂ h₂ ↦
    (durableCopy_adds.mono fun v v' h ↦ Adds.safe h).andThen fun _ s₃ h₃ ↦
    Respects.ask.andThen fun _ s₄ h₄ ↦ ?_
  obtain ⟨-, content, hbefore, hsource, htarget⟩ := durableCopy_eq_ok h₃
  have hname : descend (backup ++ [quarantine]) ((data ++ [name]).getLastD []) =
      backup ++ [quarantine, name] := by
    rw [List.getLastD_concat, descend_plain (plain_of_bytes hbefore name List.mem_cons_self),
      List.append_assoc]
    rfl
  rw [hname, ← (ask_eq_ok h₄).2] at htarget
  rw [← (ask_eq_ok h₄).2] at hsource
  have hunlink : Ends (Calls.unlink (data ++ [name]) : Action Unit) s₄ fun _ s' ↦
      Safe data backup s₄.volume s'.volume := by
    refine (unlink_within s₄).mono fun _ s' hw ↦
      safe_of_copied [name] [quarantine, name] hd (hw.mono ?_) ?_
        ⟨quarantine, hq, .inl rfl⟩
    · rintro _ rfl
      exact List.prefix_refl _
    · intro rest content' hrest
      obtain rfl := eq_nil_of_bytes hsource hrest
      rw [List.append_nil] at hrest ⊢
      rw [htarget, ← hsource, hrest]
  exact hunlink.bind (fun _ s₅ h₅ ↦ (Respects.ask s₅).mono fun _ _ h' ↦ trans_of _ h₅ h')
    fun _ _ h ↦ h

theorem quarantineFile_within : Respects
    (Within fun l ↦ l = directory ++ [name] ∨ l = root ++ [name])
    (quarantineFile e (root ++ [name]) directory) := by
  refine .tryCatch (fun s ↦ ?_) fun error ↦ .ite (fun _ ↦ .pure) fun _ ↦ .throw
  refine Respects.ask.andThen fun info s₁ h₁ ↦ Respects.assert.andThen fun _ s₂ h₂ ↦ ?_
  rw [List.getLastD_concat,
    descend_plain (plain_of_node (lstat_eq_ok h₁).1 name List.mem_cons_self)]
  have hrest : Respects (Within fun l ↦ l = directory ++ [name] ∨ l = root ++ [name]) (do
      durableCopy e (root ++ [name]) (directory ++ [name])
      sync directory
      Calls.unlink (root ++ [name])
      sync (root ++ [name]).dropLast : Action Unit) :=
    .bind (durableCopy_adds.mono fun v v' h ↦ h.within.mono fun l ↦ .inl) fun _ ↦ .bind .ask
      fun _ ↦ .bind (unlink_within.mono fun v v' h ↦ h.mono fun l ↦ .inr) fun _ ↦ .ask
  exact hrest s₂

theorem tryCatch_eq_ok {α : Type} {x : Action α} {g : Trouble Failure → Action α} {a : α}
    (h : (tryCatch x g) s = .ok a s') :
    x s = .ok a s' ∨ ∃ error s₁, x s = .error error s₁ ∧ g error s₁ = .ok a s' := by
  have hb : (MonadExcept.tryCatch x g) s = EStateM.tryCatch x g s := rfl
  rw [hb] at h
  delta EStateM.tryCatch at h
  cases hx : x s with
  | ok a' s₁ =>
    rw [hx] at h
    exact .inl h
  | error error s₁ =>
    rw [hx] at h
    exact .inr ⟨error, s₁, rfl, h⟩

theorem durableCopy_ne_missing (hsource : s.volume.bytes source = some content)
    (ht : s.volume.IsDirectory target.dropLast) (hplain : ∀ name ∈ target, Plain name) :
    durableCopy e source target s ≠ .error .missing s' := by
  intro h
  have hexists : ∀ {s₁ : System} {u : Unit}, copyFile e.owner source target s =
      (.ok u s₁ : EStateM.Result (Trouble Failure) System Unit) →
        s₁.volume.node target ≠ none := by
    intro s₁ u hcopy
    obtain ⟨-, content, -, hcontent⟩ := copyFile_eq_ok hcopy
    obtain ⟨node, hnode, -⟩ := Volume.bytes_eq_some.mp hcontent
    exact Option.ne_none_iff_exists'.mpr ⟨node, hnode⟩
  rcases bind_eq_error h with hc | ⟨⟨⟩, s₁, hc₁, h₁⟩
  · exact copyFile_ne_missing hsource ht hplain hc
  · rcases bind_eq_error h₁ with hc | ⟨⟨⟩, s₂, hc₂, h₂⟩
    · exact hexists hc₁ (chmod_eq_missing hc)
    · obtain ⟨node, -, hnode⟩ := Volume.chmod_spec (change_eq_ok hc₂)
      have hnone := sync_eq_missing h₂
      rw [hnode, if_pos rfl] at hnone
      cases hnone

theorem isDirectory_congr (h : volume'.node location = volume.node location)
    (hd : volume.IsDirectory location) : volume'.IsDirectory location := by
  obtain ⟨node, hnode, hcontent⟩ := hd
  exact ⟨node, h.trans hnode, hcontent⟩

theorem bytes_of_isSome {node : Node} (h : volume.node location = some node)
    (hs : node.content.bytes?.isSome = true) : ∃ content, volume.bytes location = some content := by
  obtain ⟨content, hcontent⟩ := Option.isSome_iff_exists.mp hs
  exact ⟨content, by rw [Volume.bytes, h, Option.bind_some, hcontent]⟩

/-- The file is gone where its removal finds something missing. -/
theorem quarantine_missing {info : Node} (hinfo : s.volume.node (root ++ [name]) = some info)
    (hq : s.volume.IsDirectory directory)
    (h : (do
      check info.content.bytes?.isSome "BACKUP_UNSAFE_FILE" "A database recovery file is unsafe."
      durableCopy e (root ++ [name]) (descend directory ((root ++ [name]).getLastD []))
      sync directory
      Calls.unlink (root ++ [name])
      sync (root ++ [name]).dropLast : Action Unit) s = .error .missing s') :
    s'.volume.node (root ++ [name]) = none := by
  have hname : Plain name := plain_of_node hinfo name List.mem_cons_self
  rw [List.getLastD_concat, descend_plain hname] at h
  rcases bind_eq_error h with hc | ⟨⟨⟩, s₁, hc₁, h₁⟩
  · cases assert_eq_error hc
  · obtain ⟨hfile, rfl⟩ := check_eq_ok hc₁
    obtain ⟨content, hcontent⟩ := bytes_of_isSome hinfo hfile
    rcases bind_eq_error h₁ with hc | ⟨⟨⟩, s₂, hc₂, h₂⟩
    · refine absurd hc (durableCopy_ne_missing hcontent (by rwa [List.dropLast_concat]) ?_)
      obtain ⟨node, hnode, -⟩ := hq
      intro part hm
      rcases List.mem_append.mp hm with hm | hm
      · exact s₁.volume.plain _ node hnode part hm
      · rwa [List.mem_singleton.mp hm]
    · have hadds := durableCopy_adds.of_ok hc₂
      have hkept := hadds.kept _ _ hcontent
      rcases bind_eq_error h₂ with hc | ⟨⟨⟩, s₃, hc₃, h₃⟩
      · obtain ⟨node, hnode, -⟩ := hq
        have hnone := sync_eq_missing hc
        rw [hadds.within _ (by simp), hnode] at hnone
        cases hnone
      · rw [← (ask_eq_ok hc₃).2] at hkept
        rcases bind_eq_error h₃ with hc | ⟨⟨⟩, s₄, hc₄, h₄⟩
        · rw [Volume.bytes, unlink_eq_missing hc] at hkept
          cases hkept
        · rw [(ask_eq_missing h₄).2]
          exact unlink_eq_ok hc₄

/-- Where a file was put aside, or there was none, none stands any more. -/
theorem quarantineFile_eq_ok {u : Unit} (hq : s.volume.IsDirectory directory)
    (h : quarantineFile e (root ++ [name]) directory s = .ok u s') :
    s'.volume.node (root ++ [name]) = none := by
  rcases tryCatch_eq_ok h with h | ⟨error, s₁, hbody, hhandler⟩
  · obtain ⟨info, s₁, hc₁, h₁⟩ := Calls.bind_eq_ok h
    obtain ⟨⟨⟩, s₂, hc₂, h₂⟩ := Calls.bind_eq_ok h₁
    obtain ⟨⟨⟩, s₃, hc₃, h₃⟩ := Calls.bind_eq_ok h₂
    obtain ⟨⟨⟩, s₄, hc₄, h₄⟩ := Calls.bind_eq_ok h₃
    obtain ⟨⟨⟩, s₅, hc₅, h₅⟩ := Calls.bind_eq_ok h₄
    rw [(ask_eq_ok h₅).2]
    exact unlink_eq_ok hc₅
  · cases error with
    | missing =>
      obtain ⟨-, rfl⟩ := pure_eq_ok hhandler
      rcases bind_eq_error hbody with hc | ⟨info, s₂, hc₂, h₂⟩
      · obtain ⟨hlookup, hv⟩ := ask_eq_missing hc
        rw [hv]
        exact lookup_eq_error hlookup
      · obtain ⟨hinfo, hv⟩ := lstat_eq_ok hc₂
        exact quarantine_missing (hv ▸ hinfo) (hv ▸ hq) h₂
    | system => cases hhandler
    | raised failure => cases hhandler

theorem syncCopy_respects {r : Volume → Volume → Prop} [IsPreorder Volume r] :
    Respects r (syncCopy e target entry) :=
  .ite (fun _ ↦ .ask) fun _ ↦ .bind scanFiles_respects fun _ ↦
    .bind (.forM fun _ _ ↦ .ask) fun _ ↦ .forM fun _ _ ↦ .ask

/-- What is displaced is removed only after the copy of it is complete. -/
theorem displace_safe {quarantine : Name}
    (hd : Apart (resolve e context.dataDir) (resolve e context.backupDir))
    (hq : "displaced-".toList <+: quarantine) (hn : Plain name)
    (hpath : entry.path = ofParts [name]) :
    Respects (Safe (resolve e context.dataDir) (resolve e context.backupDir))
      (displace e context (resolve e context.backupDir ++ [quarantine]) entry) := by
  have := Safe.isPreorder hd
  have hplain : ∀ part ∈ [name], Plain part := by simpa using hn
  have hfiles : Plain "files".toList := by decide
  intro s
  rw [displace, hpath, descend_ofParts hplain, descend_plain hfiles, descend_ofParts hplain,
    List.append_assoc, List.append_assoc]
  refine (cp_adds.mono fun v v' h ↦ Adds.safe h).andThen fun _ s₁ h₁ ↦
    syncCopy_respects.andThen fun _ s₂ h₂ ↦ Respects.ask.andThen fun _ s₃ h₃ ↦
    Respects.ask.andThen fun _ s₄ h₄ ↦ ?_
  have hv : s₄.volume = s₁.volume := by
    rw [(ask_eq_ok h₄).2, (ask_eq_ok h₃).2]
    exact ((syncCopy_respects (r := fun v v' ↦ v' = v)).of_ok h₂)
  refine (rm_within s₄).mono fun _ s' hw ↦
    safe_of_copied [name] [quarantine, "files".toList, name] hd hw ?_ ⟨quarantine, hq, .inr rfl⟩
  intro rest content hrest
  have hst : ¬resolve e context.dataDir ++ [name] <+:
      resolve e context.backupDir ++ [quarantine, "files".toList, name] :=
    fun hp ↦ hd.outside _ ((List.prefix_append ..).trans hp)
  have hts : ¬resolve e context.backupDir ++ [quarantine, "files".toList, name] <+:
      resolve e context.dataDir ++ [name] :=
    fun hp ↦ hd.inside _ ((List.prefix_append ..).trans hp)
  rw [hv, bytes_congr ((cp_adds.of_ok h₁).within _ (not_below hst hts rest))] at hrest
  rw [hv]
  exact cp_eq_ok hst hts h₁ rest hrest

/-- The places in the data directory that a manifest has entries for. -/
def Target (e : Environment) (context : BackupContext) (entries : List FileEntry)
    (location : Location) : Prop :=
  ∃ entry ∈ entries, location = Backups.descend (resolve e context.dataDir) entry.path

theorem place_adds : Respects (Adds (· = descend (resolve e context.dataDir) entry.path))
    (place e context snapshot entry) :=
  .ite (fun _ ↦ mkdir_adds) fun _ ↦ durableCopy_adds

theorem own_adds : Respects (Adds (· = descend (resolve e context.dataDir) entry.path))
    (own e context entry) :=
  .bind chown_adds fun _ ↦ .bind chmod_adds fun _ ↦ .ite (fun _ ↦ .ask) fun _ ↦ .pure

theorem target_of_mem {entries : List FileEntry} (hm : entry ∈ entries) :
    ∀ l, l = descend (resolve e context.dataDir) entry.path → Target e context entries l :=
  fun _ hl ↦ ⟨entry, hm, hl⟩

theorem places_adds {entries : List FileEntry} : Respects (Adds (Target e context entries))
    (entries.forM (place e context snapshot)) :=
  .forM fun _ hm ↦ place_adds.mono fun _ _ h ↦ h.mono (target_of_mem hm)

theorem owns_adds {entries : List FileEntry} : Respects (Adds (Target e context entries))
    (entries.reverse.forM (own e context)) :=
  .forM fun _ hm ↦ own_adds.mono fun _ _ h ↦ h.mono (target_of_mem (List.mem_reverse.mp hm))

theorem displace_within {quarantine : Location} (hn : Plain name)
    (hpath : entry.path = ofParts [name]) :
    Respects (Within fun l ↦ quarantine ++ ["files".toList] <+: l ∨
      resolve e context.dataDir ++ [name] <+: l) (displace e context quarantine entry) := by
  have hplain : ∀ part ∈ [name], Plain part := by simpa using hn
  rw [displace, hpath, descend_ofParts hplain, descend_plain (by decide : Plain "files".toList),
    descend_ofParts hplain]
  exact .bind (cp_adds.mono fun v v' h ↦ h.within.mono fun l hl ↦
      .inl ((List.prefix_append ..).trans hl)) fun _ ↦ .bind syncCopy_respects fun _ ↦
    .bind .ask fun _ ↦ .bind .ask fun _ ↦ rm_within.mono fun v v' h ↦ h.mono fun l ↦ .inr

/-- The entries that stand directly in the data directory. -/
theorem top_of_listed {node : Node} (h : Listed volume root excluded entry rest node)
    (ht : entry.path.contains '/' = false) : ∃ name, rest = [name] := by
  obtain ⟨name, more, rfl⟩ := List.exists_cons_of_ne_nil h.notRoot
  cases more with
  | nil => exact ⟨name, rfl⟩
  | cons second more =>
    rw [h.path] at ht
    simp [ofParts, List.intercalate_cons_cons] at ht

theorem not_aside :
    ¬Aside (location ++ ["intent.json".toList]) (location ++ ["restored.json".toList]) := by
  rintro (hp | hp | ⟨suffix, hp⟩)
  · have hlength := hp.length_le
    rw [List.dropLast_concat, List.length_append, List.length_singleton] at hlength
    omega
  · have heq := (List.prefix_append_right_inj location).mp hp
    revert heq
    decide
  · rw [siblingOf, List.dropLast_concat, List.getLastD_concat] at hp
    obtain ⟨rest, heq⟩ := (List.prefix_append_right_inj location).mp hp
    have hhead : some 'i' = some 'r' := congrArg List.head? (List.cons.inj heq).1
    exact absurd (Option.some.inj hhead) (by decide)

theorem displaces_safe {current : List FileEntry} {suffix : Name}
    (hd : Apart (resolve e context.dataDir) (resolve e context.backupDir))
    (hcurrent : listing e volume (resolve e context.dataDir) excluded hashes depth
      (resolve e context.dataDir) = some current) :
    Respects (Safe (resolve e context.dataDir) (resolve e context.backupDir))
      ((current.filter fun entry ↦ !entry.path.contains '/').forM (displace e context
        (resolve e context.backupDir ++ ["displaced-files-".toList ++ suffix]))) := by
  have := Safe.isPreorder hd
  refine .forM fun entry hm ↦ ?_
  obtain ⟨hm, htop⟩ := List.mem_filter.mp hm
  obtain ⟨rest, node, hlisted⟩ := listed_of_mem hcurrent hm
  obtain ⟨name, rfl⟩ := top_of_listed hlisted (by simpa using htop)
  exact displace_safe hd ⟨"files-".toList ++ suffix, rfl⟩
    (hlisted.plain name List.mem_cons_self) hlisted.path

theorem displaces_within {current : List FileEntry} {quarantine : Location}
    (hcurrent : listing e volume (resolve e context.dataDir) excluded hashes depth
      (resolve e context.dataDir) = some current) :
    Respects (Within fun l ↦ quarantine ++ ["files".toList] <+: l ∨
        ∃ name, resolve e context.dataDir ++ [name] ∉ excluded ∧
          resolve e context.dataDir ++ [name] <+: l)
      ((current.filter fun entry ↦ !entry.path.contains '/').forM
        (displace e context quarantine)) := by
  refine .forM fun entry hm ↦ ?_
  obtain ⟨hm, htop⟩ := List.mem_filter.mp hm
  obtain ⟨rest, node, hlisted⟩ := listed_of_mem hcurrent hm
  obtain ⟨name, rfl⟩ := top_of_listed hlisted (by simpa using htop)
  refine (displace_within (hlisted.plain name List.mem_cons_self) hlisted.path).mono
    fun v v' h ↦ h.mono fun l hl ↦ hl.imp_right fun hl ↦ ⟨name, ?_, hl⟩
  exact hlisted.shown [name] (by simp) (List.prefix_refl _)

theorem Target.below {entries : List FileEntry} (hvalid : Valid entries)
    (h : Target e context entries location) : resolve e context.dataDir <+: location := by
  obtain ⟨entry, hm, rfl⟩ := h
  obtain ⟨rest, -, -, -, hdescend⟩ := hvalid.descend hm
  rw [hdescend]
  exact List.prefix_append ..

/-- Nothing that comes between the two records of a restoration makes the second one. -/
theorem free_of_displaced {manifest : Manifest} {current : List FileEntry} {quarantine : Location}
    {s₁ s₂ s₃ s₄ : System} {u u' u'' : Unit}
    (hout : ¬resolve e context.dataDir <+: quarantine ++ ["restored.json".toList])
    (hvalid : Valid manifest.entries)
    (hcurrent : listing e volume (resolve e context.dataDir) excluded hashes depth
      (resolve e context.dataDir) = some current)
    (hfree : s₁.volume.node (quarantine ++ ["restored.json".toList]) = none)
    (h₁ : (current.filter fun entry ↦ !entry.path.contains '/').forM
      (displace e context quarantine) s₁ = .ok u s₂)
    (h₂ : manifest.entries.forM (place e context snapshot) s₂ = .ok u' s₃)
    (h₃ : manifest.entries.reverse.forM (own e context) s₃ = .ok u'' s₄) :
    s₄.volume.node (quarantine ++ ["restored.json".toList]) = none := by
  refine (owns_adds.of_ok h₃).within.free (mt (Target.below hvalid) hout) ?_
  refine (places_adds.of_ok h₂).within.free (mt (Target.below hvalid) hout) ?_
  refine ((displaces_within hcurrent).of_ok h₁).free ?_ hfree
  rintro (hp | ⟨name, -, hp⟩)
  · have heq := (List.prefix_append_right_inj quarantine).mp hp
    revert heq
    decide
  · exact hout ((List.prefix_append ..).trans hp)

/-- However far the business files are restored, none of the old ones is lost. -/
theorem restoreFiles_safe {manifest : Manifest}
    (hd : Apart (resolve e context.dataDir) (resolve e context.backupDir))
    (hvalid : Valid manifest.entries) :
    Ends (restoreFiles e context snapshot manifest excluded) s fun _ s' ↦
      Safe (resolve e context.dataDir) (resolve e context.backupDir) s.volume s'.volume := by
  have := Safe.isPreorder hd
  refine Respects.assert.andThen fun _ s₁ h₁ ↦ verifyFiles_respects.andThen fun _ s₂ h₂ ↦
    scanFiles_respects.andThen fun current s₃ h₃ ↦
    (mkdtemp_adds.mono fun v v' h ↦ Adds.safe h).andThen fun quarantine s₄ h₄ ↦
    (mkdir_adds.mono fun v v' h ↦ Adds.safe h).andThen fun _ s₅ h₅ ↦ ?_
  obtain ⟨-, hcurrent, -⟩ := scanFiles_eq_ok h₃
  obtain ⟨⟨suffix, rfl⟩, hfree, -, hmade⟩ := mkdtemp_eq_ok h₄
  have hplain : ∀ name : Name, Plain name → ∀ directory : Location,
      Backups.descend directory name = directory ++ [name] := fun name h directory ↦ descend_plain h
  rw [hplain _ (by decide), hplain _ (by decide)]
  rw [hplain _ (by decide)] at h₅
  have hbelow : ∀ name : Name, name ≠ "files".toList → s₅.volume.node
      (resolve e context.backupDir ++ ["displaced-files-".toList ++ suffix] ++ [name]) = none := by
    intro name hne
    rw [(mkdir_adds.of_ok h₅).within, hmade.within]
    · exact Volume.node_append_eq_none hfree [name]
    · simp
    · simpa using hne
  have hout : ¬resolve e context.dataDir <+: resolve e context.backupDir ++
      ["displaced-files-".toList ++ suffix] ++ ["restored.json".toList] := by
    rw [List.append_assoc]
    exact hd.outside _
  have hintent := atomicWrite_adds e (named [("jobId", .string context.jobId),
    ("files", .array (current.map fun file ↦ .string file.path))])
    (hbelow "intent.json".toList (by decide))
  refine Respects.go_on (hintent.mono fun _ _ h ↦ Adds.safe h) fun _ s₆ h₆ ↦
    (displaces_safe hd hcurrent).andThen fun _ s₇ h₇ ↦
    (places_adds.mono fun v v' h ↦ Adds.safe h).andThen fun _ s₈ h₈ ↦
    (owns_adds.mono fun v v' h ↦ Adds.safe h).andThen fun _ s₉ h₉ ↦
    Respects.ask.andThen fun _ s₁₀ h₁₀ ↦ scanFiles_respects.andThen fun restored s₁₁ h₁₁ ↦
    Respects.assert.andThen fun _ s₁₂ h₁₂ ↦ ?_
  have hlast := free_of_displaced hout hvalid hcurrent
    ((hintent.of_ok h₆).within.free not_aside (hbelow _ (by decide))) h₇ h₈ h₉
  have hv : s₁₂.volume = s₉.volume := by
    rw [(check_eq_ok h₁₂).2, (scanFiles_eq_ok h₁₁).1, (ask_eq_ok h₁₀).2]
  exact (atomicWrite_adds e _ (hv ▸ hlast)).mono fun _ _ h ↦ Adds.safe h

/-- What a successful reading of a snapshot shows. -/
structure Verified (e : Environment) (context : BackupContext) (snapshot : BackupSnapshot)
    (volume : Volume) (manifest : Manifest) : Prop where
  apart : Apart (resolve e context.dataDir) (resolve e context.backupDir)
  path : resolve e snapshot.path = resolve e context.backupDir ++ ["snapshot".toList]
  accepted : Accepted context manifest
  described : ∃ content value, volume.bytes (resolve e context.backupDir ++
      ["snapshot".toList, "snapshot.json".toList]) = some content ∧
    parse (e.decode content) = some value ∧ acceptManifest e context value = some manifest

theorem not_prefix_append (h : rest ≠ []) : ¬location ++ rest <+: location := by
  intro hp
  have hlength := hp.length_le
  have := List.length_pos_iff.mpr h
  rw [List.length_append] at hlength
  omega

theorem readManifest_eq_ok {manifest : Manifest}
    (h : readManifest e context snapshot path s = .ok manifest s') :
    ∃ content value,
      s.volume.bytes (descend path "snapshot.json".toList) = some content ∧
        content.length ≤ 32 * 1024 * 1024 ∧ parse (e.decode content) = some value ∧
          acceptManifest e context value = some manifest := by
  obtain ⟨⟨⟩, s₁, hc₁, h₁⟩ := Calls.bind_eq_ok h
  obtain ⟨info, s₂, hc₂, h₂⟩ := Calls.bind_eq_ok h₁
  obtain ⟨⟨⟩, s₃, hc₃, h₃⟩ := Calls.bind_eq_ok h₂
  obtain ⟨hash, s₄, hc₄, h₄⟩ := Calls.bind_eq_ok h₃
  obtain ⟨⟨⟩, s₅, hc₅, h₅⟩ := Calls.bind_eq_ok h₄
  obtain ⟨content, s₆, hc₆, h₆⟩ := Calls.bind_eq_ok h₅
  obtain ⟨value, s₇, hc₇, h₇⟩ := Calls.bind_eq_ok h₆
  obtain ⟨found, s₈, hc₈, h₈⟩ := Calls.bind_eq_ok h₇
  obtain ⟨⟨⟩, s₉, hc₉, h₉⟩ := Calls.bind_eq_ok h₈
  have hv : s₅.volume = s.volume := by
    rw [(check_eq_ok hc₅).2, (hashFile_eq_ok hc₄).2, (check_eq_ok hc₃).2, (stat_eq_ok hc₂).2.2,
      (noLinks_eq_ok hc₁).1]
  have hcontent := Volume.readFile_eq_ok.mp (ask_eq_ok hc₆).1
  rw [hv] at hcontent
  obtain ⟨hinfo, -⟩ := stat_eq_ok hc₂
  rw [(noLinks_eq_ok hc₁).1] at hinfo
  have hlength := of_decide_eq_true (check_eq_ok hc₃).1
  have hbytes : info.content.bytes? = some content := by
    rwa [Volume.bytes, hinfo, Option.bind_some] at hcontent
  rw [hbytes, Option.getD_some] at hlength
  obtain ⟨hvalue, -⟩ := Option.filter_eq_some_iff.mp (require_eq_ok hc₇).1
  obtain ⟨rfl, -⟩ := pure_eq_ok h₉
  exact ⟨content, value, hcontent, hlength, hvalue, (require_eq_ok hc₈).1⟩

theorem readSnapshot_eq_ok {manifest : Manifest}
    (h : readSnapshot e context snapshot s = .ok manifest s') :
    Verified e context snapshot s.volume manifest := by
  obtain ⟨⟨⟩, s₁, hc₁, h₁⟩ := Calls.bind_eq_ok h
  obtain ⟨⟨⟩, s₂, hc₂, h₂⟩ := Calls.bind_eq_ok h₁
  obtain ⟨⟨⟩, s₃, hc₃, h₃⟩ := Calls.bind_eq_ok h₂
  obtain ⟨found, s₄, hc₄, h₄⟩ := Calls.bind_eq_ok h₃
  obtain ⟨⟨⟩, s₅, hc₅, h₅⟩ := Calls.bind_eq_ok h₄
  obtain ⟨⟨⟩, s₆, hc₆, h₆⟩ := Calls.bind_eq_ok h₅
  have hpath : resolve e snapshot.path = resolve e context.backupDir ++ ["snapshot".toList] := by
    rw [← descend_plain (by decide)]
    exact of_decide_eq_true (Bool.and_eq_true_iff.mp (check_eq_ok hc₂).1).2
  have hv : s₃.volume = s₁.volume := by rw [(noLinks_eq_ok hc₃).1, (check_eq_ok hc₂).2]
  obtain ⟨content, value, hcontent, -, hvalue, haccepted⟩ := readManifest_eq_ok hc₄
  rw [hpath, descend_plain (by decide), List.append_assoc, List.singleton_append, hv,
    bytes_congr ((assertContext_adds.of_ok hc₁).within _ (not_prefix_append (by simp)))] at hcontent
  obtain ⟨rfl, -⟩ := pure_eq_ok h₆
  exact ⟨assertContext_eq_ok hc₁, hpath, acceptManifest_spec (wellFormed_parse hvalue) haccepted,
    content, value, hcontent, hvalue, haccepted⟩

open SqliteBackupAdapter

/-- The check of a database makes no more than what goes with the database, and
leaves what is there, an old `-shm` file included. -/
def ReadsOnly (e : Environment) : Prop :=
  ∀ path volume, Adds (· ∈ sidecars path) volume (e.sqlite3 path volume).2

theorem run_adds (h : ReadsOnly e) : Respects (Adds (· ∈ sidecars path)) (run e path) := by
  intro s
  have hadds := h path s.volume
  rw [Ends, run]
  cases hrun : e.sqlite3 path s.volume with
  | mk result volume =>
    rw [hrun] at hadds
    cases result with
    | none => exact hadds
    | some result => exact hadds

theorem integrity_adds (h : ReadsOnly e) :
    Respects (Adds (· ∈ sidecars path)) (integrity e path) :=
  .bind (run_adds h) fun _ ↦ .assert

theorem validate_adds (h : ReadsOnly e) :
    Respects (Adds fun _ ↦ True) (validate e context snapshot) :=
  .bind (readSnapshot_adds.mono fun _ _ h ↦ h.mono fun _ _ ↦ trivial) fun _ ↦
    (integrity_adds h).mono fun _ _ h ↦ h.mono fun _ _ ↦ trivial

theorem validate_eq_ok {u : Unit} (h : validate e context snapshot s = .ok u s') :
    ∃ manifest s₁, readSnapshot e context snapshot s = .ok manifest s₁ ∧
      integrity e (descend (resolve e snapshot.path) manifest.databaseFile) s₁ = .ok u s' := by
  obtain ⟨manifest, s₁, hc₁, h₁⟩ := Calls.bind_eq_ok h
  exact ⟨manifest, s₁, hc₁, h₁⟩

theorem database_eq_ok (h : database e context s = .ok path s') :
    s' = s ∧ path.dropLast = resolve e context.dataDir ∧
      ∃ given, context.database = .sqlite given ∧ path = resolve e given := by
  rw [database] at h
  cases hdatabase : context.database with
  | sqlite given =>
    rw [hdatabase] at h
    obtain ⟨⟨⟩, s₁, hc₁, h₁⟩ := Calls.bind_eq_ok h
    obtain ⟨hparent, rfl⟩ := check_eq_ok hc₁
    obtain ⟨rfl, rfl⟩ := pure_eq_ok h₁
    exact ⟨rfl, of_decide_eq_true hparent, given, rfl, rfl⟩
  | mysql host port name =>
    rw [hdatabase] at h
    cases h

theorem excluded_cases (hd : Apart data backup) (hp : path.dropLast = data)
    (hs : source ∈ SqliteBackupAdapter.excluded path) : ∃ name, source = data ++ [name] := by
  rcases List.mem_cons.mp hs with rfl | hs
  · have hne : source ≠ [] := by
      rintro rfl
      rw [← hp] at hd
      exact hd.notBelow List.nil_prefix
    exact ⟨source.getLast hne, by rw [← hp, List.dropLast_append_getLast]⟩
  · obtain ⟨suffix, -, rfl⟩ := List.mem_map.mp hs
    exact ⟨_, by rw [siblingOf, hp]⟩

/-- However far a restoration comes, no file is lost. -/
theorem restore_safe (h : ReadsOnly e) : Ends (restore e context snapshot) s fun _ s' ↦
    Safe (resolve e context.dataDir) (resolve e context.backupDir) s.volume s'.volume := by
  by_cases hd : Apart (resolve e context.dataDir) (resolve e context.backupDir)
  · have := Safe.isPreorder hd
    refine Respects.assert.andThen fun _ s₁ h₁ ↦
      ((validate_adds h).mono fun v v' h ↦ Adds.safe h).andThen fun _ s₂ h₂ ↦
      (readSnapshot_adds.mono fun v v' h ↦ Adds.safe h).andThen fun manifest s₃ h₃ ↦
      database_respects.andThen fun path s₄ h₄ ↦ require_respects.andThen fun details s₅ h₅ ↦
      require_respects.andThen fun ownership s₆ h₆ ↦ checkSpace_respects.andThen fun _ s₇ h₇ ↦
      (mkdtemp_adds.mono fun v v' h ↦ Adds.safe h).andThen fun quarantine s₈ h₈ ↦ ?_
    have hverified := readSnapshot_eq_ok h₃
    obtain ⟨-, hparent, -⟩ := database_eq_ok h₄
    obtain ⟨⟨suffix, rfl⟩, -, -⟩ := mkdtemp_eq_ok h₈
    refine Respects.andThen (.forM fun source hm ↦ ?_) fun _ s₉ h₉ ↦
      Respects.go_on (restoreFiles_safe hd hverified.accepted.valid) fun _ s₁₀ h₁₀ ↦
      (durableCopy_adds.mono fun v v' h ↦ Adds.safe h).andThen fun _ s₁₁ h₁₁ ↦
      (chown_adds.mono fun v v' h ↦ Adds.safe h).andThen fun _ s₁₂ h₁₂ ↦
      (chmod_adds.mono fun v v' h ↦ Adds.safe h).andThen fun _ s₁₃ h₁₃ ↦
      Respects.ask.andThen fun _ s₁₄ h₁₄ ↦
      (integrity_adds h).mono (fun v v' h ↦ Adds.safe h) s₁₄
    obtain ⟨name, rfl⟩ := excluded_cases hd hparent hm
    exact quarantineFile_safe hd ⟨"sqlite-".toList ++ suffix, rfl⟩
  · have hadds : Ends (restore e context snapshot) s fun _ s' ↦
        Adds (fun _ ↦ True) s.volume s'.volume := by
      refine Respects.assert.andThen fun _ s₁ h₁ ↦ (validate_adds h).andThen fun _ s₂ h₂ ↦ ?_
      obtain ⟨manifest, s₃, hread, -⟩ := validate_eq_ok h₂
      exact absurd (readSnapshot_eq_ok hread).apart hd
    exact hadds.mono fun _ _ h ↦ Adds.safe h

end RustdeskConsole.Backups
