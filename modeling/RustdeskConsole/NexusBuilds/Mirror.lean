import RustdeskConsole.Effects.Logic
import RustdeskConsole.NexusBuilds.Service

namespace RustdeskConsole.NexusBuilds

open Effects Function
open Posix (Location)

variable {storagePath : Location} {artifact : String → String → List UInt8} {call other : ℕ}
  {w w' : World} {c : Command} {o : Choice} {uuid file : String} {filePath : Location}

/-- The poll has selected the job, which is final only where the poll was overtaken. -/
def Selected (call : ℕ) (uuid : String) (w : World) : Prop :=
  .selected call ∈ w.events ∧ ∀ build ∈ w.builds, build.uuid = uuid →
    build.status.terminal = true → overtaken call uuid w.events = true

/-- Every artifact of a completed job is there, or a poll still has to download it. -/
structure Mirrored (storagePath : Location) (artifact : String → String → List UInt8)
    (w : World) : Prop where
  unique : (w.builds.map (·.uuid)).Nodup
  artifacts : ∀ build ∈ w.builds, build.status = .completed → ∀ file ∈ build.files.getD [],
    w.Whole storagePath artifact build.uuid file ∨
      ∃ d ∈ w.owed, d.uuid = build.uuid ∧ file ∈ d.files
  downloads : ∀ d ∈ w.downloadingSet, d ∈ w.owed
  distinct : ∀ d ∈ w.downloadingSet, ∀ d' ∈ w.downloadingSet, d.uuid = d'.uuid → d = d'
  opened : ∀ filePath call, w.streams filePath = some call → (w.disk filePath).isSome

/-- What the other polls leave alone. -/
structure Others (storagePath : Location) (artifact : String → String → List UInt8) (call : ℕ)
    (w w' : World) : Prop where
  whole : ∀ uuid file, w.Whole storagePath artifact uuid file →
    w'.Whole storagePath artifact uuid file
  streams : ∀ filePath, w'.streams filePath = some call ↔ w.streams filePath = some call
  disk : ∀ filePath, w.streams filePath = some call → w'.disk filePath = w.disk filePath
  owed : ∀ d, d.call = call → (d ∈ w'.owed ↔ d ∈ w.owed)
  downloads : ∀ d, d.call = call → (d ∈ w'.downloadingSet ↔ d ∈ w.downloadingSet)
  selected : ∀ uuid, Selected call uuid w → Selected call uuid w'

/-- A poll stores what it has selected, begins the one download that it has to make, and
ends it when all is there. -/
def Guarded (storagePath : Location) (artifact : String → String → List UInt8) (call : ℕ) :
    Command → World → Prop
  | .updateBuild uuid .., w => Selected call uuid w
  | .beginDownload uuid files, w => ⟨call, uuid, files⟩ ∈ w.owed ∧
      (∀ d ∈ w.owed, d.call = call → d.files = files) ∧ ∀ d ∈ w.downloadingSet, d.call ≠ call
  | .endDownload uuid, w => (∃ d ∈ w.downloadingSet, d.call = call ∧ d.uuid = uuid) ∧
      ∀ d ∈ w.owed, d.call = call → ∀ file ∈ d.files, w.Whole storagePath artifact d.uuid file
  | _, _ => True

/-- What one command of a poll does where nothing is disturbed. -/
inductive Effect (storagePath : Location) (artifact : String → String → List UInt8) (call : ℕ)
    (w : World) : World → Prop
  | quiet (tokens : List NexusToken) : Effect storagePath artifact call w { w with tokens }
  | selected : Effect storagePath artifact call w (w.findActive call).1
  | updated (uuid : String) (status : BuildStatus) (files : Option (List String))
      (message : Option String)
      (final : ∀ build ∈ w.builds, build.uuid = uuid → build.status.terminal = true →
        status.terminal = true)
      (listed : status = .completed → files = none → ∀ build ∈ w.builds, build.uuid = uuid →
        ∀ file ∈ build.files.getD [], w.Whole storagePath artifact uuid file) :
      Effect storagePath artifact call w (w.updateBuild call uuid status files message)
  | began (uuid : String) (files : List String) (new : ∀ d ∈ w.downloadingSet, d.uuid ≠ uuid)
      (owed : ⟨call, uuid, files⟩ ∈ w.owed) :
      Effect storagePath artifact call w
        { w with downloadingSet := ⟨call, uuid, files⟩ :: w.downloadingSet }
  | skipped (uuid : String) (d : Download) (mem : d ∈ w.downloadingSet) (same : d.uuid = uuid)
      (free : ∀ d ∈ w.downloadingSet, d.call ≠ call)
      (files : ∀ e ∈ w.owed, e.call = call → e.files ⊆ d.files) :
      Effect storagePath artifact call w
        { w with owed := w.owed.filter fun d ↦ ¬(d.call = call ∧ d.uuid = uuid) }
  | opened (filePath : Location) (new : w.disk filePath = none) :
      Effect storagePath artifact call w (w.createWriteStream call filePath (.ok ()))
  | wrote (filePath : Location) (byte : UInt8) (own : w.streams filePath = some call) :
      Effect storagePath artifact call w
        { w with disk := update w.disk filePath ((w.disk filePath).map (· ++ [byte])) }
  | finished (filePath : Location) (own : w.streams filePath = some call) :
      Effect storagePath artifact call w { w with streams := update w.streams filePath none }
  | ended (uuid : String) (d : Download) (mem : d ∈ w.downloadingSet) (own : d.call = call)
      (same : d.uuid = uuid)
      (done : ∀ e ∈ w.owed, e.call = call → ∀ file ∈ e.files,
        w.Whole storagePath artifact e.uuid file) :
      Effect storagePath artifact call w (w.endDownload call uuid)

section Effect

theorem Effect.same : Effect storagePath artifact call w w := .quiet w.tokens

theorem perform_effect (hg : Guarded storagePath artifact call c w)
    (hd : disturbs storagePath artifact call c o w = false) :
    Effect storagePath artifact call w (perform storagePath artifact call c o w).1 := by
  cases c with
  | businessWritesAllowed => exact .same
  | findActive =>
    rw [perform]
    cases o.outcome with
    | error failure => exact .same
    | ok _ => exact .selected
  | findToken => exact .same
  | fetchStatus => exact .same
  | existsFile => exact .same
  | fetchFile => exact .same
  | saveToken token =>
    rw [perform]
    cases o.outcome with
    | error failure => exact .same
    | ok _ => exact .quiet _
  | updateBuild uuid status files message =>
    rw [perform]
    rw [disturbs] at hd
    cases hout : o.outcome with
    | error failure => exact .same
    | ok _ =>
      obtain ⟨hlate, hlisted⟩ := Bool.or_eq_false_iff.mp (hout ▸ hd : _ = false)
      refine .updated uuid status files message (fun build hm hu ht ↦ ?_) fun hs hf build hm hu ↦ ?_
      · rw [hg.2 build hm hu ht, Bool.and_true, Bool.not_eq_false'] at hlate
        exact hlate
      · subst hs hf
        simpa [hu] using List.any_eq_false.mp hlisted build hm
  | beginDownload uuid files =>
    obtain ⟨howed, hfiles, hfree⟩ := hg
    rw [perform, World.beginDownload]
    rw [disturbs] at hd
    split
    · next hany =>
      rw [if_pos hany] at hd
      simp only [Bool.not_eq_false', List.any_eq_true, Bool.and_eq_true, decide_eq_true_eq,
        List.all_eq_true] at hd
      obtain ⟨d, hm, hu, hsub⟩ := hd
      refine .skipped uuid d hm hu hfree fun e he hc ↦ ?_
      rw [hfiles e he hc]
      exact hsub
    · next hany =>
      simp only [List.any_eq_true, decide_eq_true_eq, not_exists, not_and] at hany
      exact .began uuid files hany howed
  | createWriteStream filePath =>
    rw [disturbs] at hd
    rw [perform]
    cases hout : o.outcome with
    | error failure => exact .same
    | ok _ =>
      refine .opened filePath ?_
      simpa [hout, Except.isOk, Except.toBool] using hd
  | writeByte filePath byte =>
    rw [perform, World.writeByte]
    split
    · next hown => exact .wrote filePath byte hown
    · exact .same
  | finish filePath =>
    rw [perform, World.finish]
    split
    · next hown => exact .finished filePath hown
    · exact .same
  | endDownload uuid =>
    obtain ⟨⟨d, hm, hc, hu⟩, hdone⟩ := hg
    exact .ended uuid d hm hc hu hdone

theorem owed_updateBuild {status : BuildStatus} {files : Option (List String)}
    {message : Option String} {d : Download} (hd : d ∈ w.owed) :
    d ∈ (w.updateBuild call uuid status files message).owed := by
  rw [World.updateBuild]
  dsimp only
  split
  · exact .tail _ hd
  · exact hd

theorem Effect.whole (he : Effect storagePath artifact call w w')
    (hw : w.Whole storagePath artifact uuid file) : w'.Whole storagePath artifact uuid file := by
  obtain ⟨path, hpath, hdisk, hstream⟩ := hw
  refine ⟨path, hpath, ?_⟩
  cases he with
  | quiet => exact ⟨hdisk, hstream⟩
  | selected => exact ⟨hdisk, hstream⟩
  | updated => exact ⟨hdisk, hstream⟩
  | began => exact ⟨hdisk, hstream⟩
  | skipped => exact ⟨hdisk, hstream⟩
  | ended => exact ⟨hdisk, hstream⟩
  | opened filePath hnew =>
    have hne : path ≠ filePath := by
      rintro rfl
      rw [hnew] at hdisk
      cases hdisk
    simp only [World.createWriteStream, update_of_ne hne]
    exact ⟨hdisk, hstream⟩
  | wrote filePath byte hown =>
    have hne : path ≠ filePath := by
      rintro rfl
      rw [hown] at hstream
      cases hstream
    simp only [update_of_ne hne]
    exact ⟨hdisk, hstream⟩
  | finished filePath hown =>
    refine ⟨hdisk, ?_⟩
    by_cases hp : path = filePath
    · simp only [hp, update_self]
    · simp only [update_of_ne hp]
      exact hstream

theorem updateRows_uuid {builds : List NexusBuild} {status : BuildStatus}
    {files : Option (List String)} {message : Option String} :
    (updateRows builds uuid status files message).map (·.uuid) = builds.map (·.uuid) := by
  rw [updateRows, List.map_map]
  refine List.map_congr_left fun build _ ↦ ?_
  rw [Function.comp_apply]
  split <;> rfl

/-- Once a poll has selected a job, it is final only where the poll was overtaken. -/
theorem Effect.selects (he : Effect storagePath artifact other w w')
    (hs : Selected call uuid w) : Selected call uuid w' := by
  cases he with
  | quiet => exact hs
  | selected => exact ⟨.tail _ hs.1, hs.2⟩
  | began => exact hs
  | skipped => exact hs
  | opened => exact hs
  | wrote => exact hs
  | finished => exact hs
  | ended => exact hs
  | updated job status files message =>
    refine ⟨?_, fun build hb hu ht ↦ ?_⟩
    · simp only [World.updateBuild]
      split
      · exact .tail _ hs.1
      · exact hs.1
    · obtain ⟨old, hold, rfl⟩ := List.mem_map.mp hb
      simp only [World.updateBuild]
      by_cases hj : old.uuid = job
      · rw [if_pos hj] at hu ht
        rw [if_pos ht, overtaken, decide_eq_true ⟨hj.symm.trans hu, hs.1⟩, Bool.true_or]
      · rw [if_neg hj] at hu ht
        have hevents := hs.2 old hold hu ht
        split
        · rw [overtaken, hevents, Bool.or_true]
        · exact hevents

theorem Effect.mirrored (he : Effect storagePath artifact call w w')
    (hm : Mirrored storagePath artifact w) : Mirrored storagePath artifact w' := by
  have hwhole : ∀ {uuid file}, w.Whole storagePath artifact uuid file →
      w'.Whole storagePath artifact uuid file := he.whole
  cases he with
  | quiet => exact ⟨hm.unique, hm.artifacts, hm.downloads, hm.distinct, hm.opened⟩
  | selected => exact ⟨hm.unique, hm.artifacts, hm.downloads, hm.distinct, hm.opened⟩
  | updated uuid status files message hfinal hlisted =>
    refine ⟨?_, fun build hb hs file hf ↦ ?_, fun d hd ↦ owed_updateBuild (hm.downloads d hd),
      hm.distinct, hm.opened⟩
    · rw [World.updateBuild, updateRows_uuid]
      exact hm.unique
    obtain ⟨old, hold, hbuild⟩ := List.mem_map.mp hb
    by_cases hu : old.uuid = uuid
    · rw [if_pos hu] at hbuild
      subst hbuild
      obtain rfl : status = .completed := hs
      cases files with
      | none =>
        have hw : w.Whole storagePath artifact uuid file := hlisted rfl rfl old hold hu file hf
        rw [← hu] at hw
        exact .inl (hwhole hw)
      | some files =>
        have hne : files ≠ [] := List.ne_nil_of_mem hf
        refine .inr ⟨⟨call, uuid, files⟩, ?_, hu.symm, hf⟩
        simp [World.updateBuild, hne]
    · rw [if_neg hu] at hbuild
      subst hbuild
      refine (hm.artifacts old hold hs file hf).imp_right fun ⟨d, hd, h⟩ ↦ ?_
      exact ⟨d, owed_updateBuild hd, h⟩
  | began uuid files hnew howed =>
    refine ⟨hm.unique, hm.artifacts, List.forall_mem_cons.mpr ⟨howed, hm.downloads⟩, ?_, hm.opened⟩
    rintro d hd d' hd' huuid
    rcases List.mem_cons.mp hd with rfl | hd <;> rcases List.mem_cons.mp hd' with rfl | hd'
    · rfl
    · exact absurd huuid.symm (hnew d' hd')
    · exact absurd huuid (hnew d hd)
    · exact hm.distinct d hd d' hd' huuid
  | skipped uuid d hd huuid hfree hfiles =>
    refine ⟨hm.unique, fun build hb hs file hf ↦ ?_, fun d' hd' ↦ ?_, hm.distinct, hm.opened⟩
    · refine (hm.artifacts build hb hs file hf).imp_right fun ⟨e, he, hu, hfile⟩ ↦ ?_
      by_cases hmine : e.call = call ∧ e.uuid = uuid
      · refine ⟨d, List.mem_filter.mpr ⟨hm.downloads d hd, ?_⟩, ?_, hfiles e he hmine.1 hfile⟩
        · simp [hfree d hd]
        · rw [huuid, ← hmine.2, hu]
      · exact ⟨e, List.mem_filter.mpr ⟨he, decide_eq_true hmine⟩, hu, hfile⟩
    · exact List.mem_filter.mpr ⟨hm.downloads d' hd', by simp [hfree d' hd']⟩
  | opened filePath hnew =>
    refine ⟨hm.unique, fun build hb hs file hf ↦
      (hm.artifacts build hb hs file hf).imp_left hwhole, hm.downloads, hm.distinct,
      fun path call' hs ↦ ?_⟩
    by_cases hp : path = filePath
    · simp [World.createWriteStream, hp]
    · simp only [World.createWriteStream, update_of_ne hp] at hs ⊢
      exact hm.opened path call' hs
  | wrote filePath byte hown =>
    refine ⟨hm.unique, fun build hb hs file hf ↦
      (hm.artifacts build hb hs file hf).imp_left hwhole, hm.downloads, hm.distinct,
      fun path call' hs ↦ ?_⟩
    have hdisk := hm.opened path call' hs
    by_cases hp : path = filePath
    · rw [hp] at hdisk
      simpa [hp] using hdisk
    · simp only [update_of_ne hp]
      exact hdisk
  | finished filePath hown =>
    refine ⟨hm.unique, fun build hb hs file hf ↦
      (hm.artifacts build hb hs file hf).imp_left hwhole, hm.downloads, hm.distinct,
      fun path call' hs ↦ ?_⟩
    by_cases hp : path = filePath
    · simp [hp] at hs
    · simp only [update_of_ne hp] at hs
      exact hm.opened path call' hs
  | ended uuid d hd hcall huuid hdone =>
    refine ⟨hm.unique, fun build hb hs file hf ↦ ?_, fun d' hd' ↦ ?_, fun d' hd' d'' hd'' ↦ ?_,
      hm.opened⟩
    · rcases hm.artifacts build hb hs file hf with h | ⟨e, he, hu, hfile⟩
      · exact .inl (hwhole h)
      · by_cases hmine : e.call = call ∧ e.uuid = uuid
        · exact .inl (hu ▸ hwhole (hdone e he hmine.1 file hfile))
        · exact .inr ⟨e, List.mem_filter.mpr ⟨he, decide_eq_true hmine⟩, hu, hfile⟩
    · obtain ⟨hd', hne⟩ := List.mem_filter.mp hd'
      refine List.mem_filter.mpr ⟨hm.downloads d' hd', ?_⟩
      rw [decide_eq_true_eq] at hne ⊢
      exact fun h ↦ hne h.2
    · exact hm.distinct d' (List.mem_filter.mp hd').1 d'' (List.mem_filter.mp hd'').1

theorem Effect.others (he : Effect storagePath artifact other w w')
    (hm : Mirrored storagePath artifact w) (hne : call ≠ other) :
    Others storagePath artifact call w w' := by
  have hwhole : ∀ uuid file, w.Whole storagePath artifact uuid file →
      w'.Whole storagePath artifact uuid file := fun _ _ ↦ he.whole
  have hselected : ∀ uuid, Selected call uuid w → Selected call uuid w' :=
    fun _ hs ↦ he.selects hs
  have hothers : ∀ (uuid : String) (d : Download), d.call = call →
      (d ∈ w.owed.filter (fun d ↦ ¬(d.call = other ∧ d.uuid = uuid)) ↔ d ∈ w.owed) := by
    intro uuid d hd
    rw [List.mem_filter]
    exact and_iff_left (decide_eq_true fun h ↦ hne (hd ▸ h.1))
  cases he with
  | quiet => exact ⟨hwhole, fun _ ↦ .rfl, fun _ _ ↦ rfl, fun _ _ ↦ .rfl, fun _ _ ↦ .rfl, hselected⟩
  | selected =>
    exact ⟨hwhole, fun _ ↦ .rfl, fun _ _ ↦ rfl, fun _ _ ↦ .rfl, fun _ _ ↦ .rfl, hselected⟩
  | updated uuid status files message =>
    refine ⟨hwhole, fun _ ↦ .rfl, fun _ _ ↦ rfl, fun d hd ↦ ⟨fun h ↦ ?_, owed_updateBuild⟩,
      fun _ _ ↦ .rfl, hselected⟩
    rw [World.updateBuild] at h
    dsimp only at h
    split at h
    · rcases List.mem_cons.mp h with rfl | h
      · exact absurd hd hne.symm
      · exact h
    · exact h
  | began uuid files hnew howed =>
    refine ⟨hwhole, fun _ ↦ .rfl, fun _ _ ↦ rfl, fun _ _ ↦ .rfl, fun d hd ↦ ?_, hselected⟩
    refine ⟨fun h ↦ (List.mem_cons.mp h).resolve_left ?_, .tail _⟩
    rintro rfl
    exact hne hd.symm
  | skipped uuid =>
    exact ⟨hwhole, fun _ ↦ .rfl, fun _ _ ↦ rfl, hothers uuid, fun _ _ ↦ .rfl, hselected⟩
  | opened filePath hnew =>
    have hp : ∀ path, w.streams path = some call → path ≠ filePath := by
      rintro path hs rfl
      have hsome := hm.opened path call hs
      rw [hnew] at hsome
      cases hsome
    refine ⟨hwhole, fun path ↦ ⟨fun hs ↦ ?_, fun hs ↦ ?_⟩, fun path hs ↦ ?_, fun _ _ ↦ .rfl,
      fun _ _ ↦ .rfl, hselected⟩
    · by_cases hpath : path = filePath
      · simp only [World.createWriteStream, hpath, update_self, Option.some.injEq] at hs
        exact absurd hs hne.symm
      · simpa only [World.createWriteStream, update_of_ne hpath] using hs
    · simpa only [World.createWriteStream, update_of_ne (hp path hs)] using hs
    · simp only [World.createWriteStream, update_of_ne (hp path hs)]
  | wrote filePath byte hown =>
    refine ⟨hwhole, fun _ ↦ .rfl, fun path hs ↦ ?_, fun _ _ ↦ .rfl, fun _ _ ↦ .rfl, hselected⟩
    have hpath : path ≠ filePath := by
      rintro rfl
      rw [hown] at hs
      exact hne (Option.some.inj hs).symm
    simp only [update_of_ne hpath]
  | finished filePath hown =>
    refine ⟨hwhole, fun path ↦ ?_, fun _ _ ↦ rfl, fun _ _ ↦ .rfl, fun _ _ ↦ .rfl, hselected⟩
    by_cases hpath : path = filePath
    · simp only [hpath, update_self, hown, reduceCtorEq, Option.some.injEq, false_iff]
      exact hne.symm
    · simp only [update_of_ne hpath]
  | ended uuid d₀ hd₀ hcall huuid hdone =>
    refine ⟨hwhole, fun _ ↦ .rfl, fun _ _ ↦ rfl, hothers uuid, fun d hd ↦ ?_, hselected⟩
    refine ⟨fun h ↦ (List.mem_filter.mp h).1, fun h ↦ List.mem_filter.mpr ⟨h, ?_⟩⟩
    rw [decide_eq_true_eq]
    intro heq
    obtain rfl := hm.distinct d h d₀ hd₀ (heq.trans huuid.symm)
    exact hne (hd.symm.trans hcall)

/-- A final status is followed by a final one only. -/
theorem Effect.final (he : Effect storagePath artifact call w w') {build : NexusBuild}
    (hb : build ∈ w.builds) (ht : build.status.terminal = true) :
    ∃ build' ∈ w'.builds, build'.uuid = build.uuid ∧ build'.status.terminal = true := by
  cases he with
  | quiet => exact ⟨build, hb, rfl, ht⟩
  | selected => exact ⟨build, hb, rfl, ht⟩
  | began => exact ⟨build, hb, rfl, ht⟩
  | skipped => exact ⟨build, hb, rfl, ht⟩
  | opened => exact ⟨build, hb, rfl, ht⟩
  | wrote => exact ⟨build, hb, rfl, ht⟩
  | finished => exact ⟨build, hb, rfl, ht⟩
  | ended => exact ⟨build, hb, rfl, ht⟩
  | updated uuid status files message hfinal =>
    refine ⟨_, List.mem_map_of_mem hb, ?_⟩
    by_cases hu : build.uuid = uuid
    · rw [if_pos hu]
      exact ⟨rfl, hfinal build hb hu ht⟩
    · rw [if_neg hu]
      exact ⟨rfl, ht⟩

end Effect

section Logic

theorem Others.refl : Others storagePath artifact call w w :=
  ⟨fun _ _ h ↦ h, fun _ ↦ .rfl, fun _ _ ↦ rfl, fun _ _ ↦ .rfl, fun _ _ ↦ .rfl, fun _ h ↦ h⟩

theorem Others.trans {w₁ w₂ w₃ : World} (h₁ : Others storagePath artifact call w₁ w₂)
    (h₂ : Others storagePath artifact call w₂ w₃) : Others storagePath artifact call w₁ w₃ where
  whole uuid file h := h₂.whole uuid file (h₁.whole uuid file h)
  streams path := (h₂.streams path).trans (h₁.streams path)
  disk path h := (h₂.disk path ((h₁.streams path).mpr h)).trans (h₁.disk path h)
  owed d h := (h₂.owed d h).trans (h₁.owed d h)
  downloads d h := (h₂.downloads d h).trans (h₁.downloads d h)
  selected uuid h := h₂.selected uuid (h₁.selected uuid h)

/-- The step of a guarded command after which nothing is disturbed. -/
theorem exec_effect (hg : w.disturbed = false → Guarded storagePath artifact call c w)
    (hd : (exec storagePath artifact call c o w).1.disturbed = false) :
    w.disturbed = false ∧ Effect storagePath artifact call w
      (perform storagePath artifact call c o w).1 := by
  obtain ⟨hw, hd⟩ := Bool.or_eq_false_iff.mp hd
  exact ⟨hw, perform_effect (hg hw) hd⟩

theorem mirrored_disturbed (hm : Mirrored storagePath artifact w) (disturbed : Bool) :
    Mirrored storagePath artifact { w with disturbed } :=
  ⟨hm.unique, hm.artifacts, hm.downloads, hm.distinct, hm.opened⟩

/-- As long as nothing is disturbed, what is stored is mirrored, and a poll finds its
own downloads as it has left them. -/
def logic (storagePath : Location) (artifact : String → String → List UInt8) :
    Logic (machine storagePath artifact) where
  inv w := w.disturbed = false → Mirrored storagePath artifact w
  guard call c w := w.disturbed = false → Guarded storagePath artifact call c w
  rely call w w' := w'.disturbed = false →
    w.disturbed = false ∧ Others storagePath artifact call w w'
  rely_refl _ _ h := ⟨h, .refl⟩
  rely_trans _ _ _ _ h₁ h₂ h := by
    obtain ⟨hw₂, hothers₂⟩ := h₂ h
    obtain ⟨hw₁, hothers₁⟩ := h₁ hw₂
    exact ⟨hw₁, hothers₁.trans hothers₂⟩
  keeps _ _ hi hg hd := by
    obtain ⟨hw, he⟩ := exec_effect hg hd
    exact mirrored_disturbed (he.mirrored (hi hw)) _
  interferes _ _ hne hi hg hd := by
    obtain ⟨hw, he⟩ := exec_effect hg hd
    obtain ⟨hwhole, hstreams, hdisk, howed, hdownloads, hselected⟩ := he.others (hi hw) hne
    exact ⟨hw, hwhole, hstreams, hdisk, howed, hdownloads, hselected⟩

end Logic

end RustdeskConsole.NexusBuilds
