import Mathlib.Data.List.Nodup
import RustdeskConsole.NexusBuilds.Mirror

namespace RustdeskConsole.NexusBuilds

open Effects Function
open Posix (Location)

variable {storagePath : Location} {artifact : String → String → List UInt8} {call : ℕ}
  {w w' : World} {c : Command} {o : Choice} {uuid file nexusToken : String} {filePath : Location}
  {files done : List String} {α β : Type}

/-- What is open of a poll: the downloads that it owes, those it has begun, and the
file that it writes with the bytes so far. -/
structure Holds (call : ℕ) (owed downloads : List Download)
    (stream : Option (Location × List UInt8)) (w : World) : Prop where
  owed : ∀ d, d.call = call → (d ∈ w.owed ↔ d ∈ owed)
  downloads : ∀ d, d.call = call → (d ∈ w.downloadingSet ↔ d ∈ downloads)
  streams : ∀ filePath, w.streams filePath = some call ↔ ∃ bytes, stream = some (filePath, bytes)
  bytes : ∀ filePath bytes, stream = some (filePath, bytes) → w.disk filePath = some bytes

def AllWhole (storagePath : Location) (artifact : String → String → List UInt8) (uuid : String)
    (files : List String) (w : World) : Prop :=
  ∀ file ∈ files, w.Whole storagePath artifact uuid file

/-- The poll has selected these jobs. -/
def SelectedAll (call : ℕ) (builds : List NexusBuild) (w : World) : Prop :=
  ∀ build ∈ builds, Selected call build.uuid w

def Calmly (P : World → Prop) (w : World) : Prop := w.disturbed = false → P w

/-- What no other poll can change. -/
def Local (storagePath : Location) (artifact : String → String → List UInt8) (call : ℕ)
    (P : World → Prop) : Prop :=
  ∀ w w', Others storagePath artifact call w w' → P w → P w'

/-- Started in `P` the process ends in `Q` with a result, or in `E` with an exception,
unless something is disturbed. -/
def Does (storagePath : Location) (artifact : String → String → List UInt8) (call : ℕ)
    (P : World → Prop) (p : Handler α) (Q : α → World → Prop) (E : World → Prop) : Prop :=
  ∀ s w, Calmly P w → (logic storagePath artifact).Ensures call p
    (fun a _ w' ↦ Calmly (Q a) w') (fun _ _ w' ↦ Calmly E w') s w

section Rules

variable {P P' : World → Prop} {Q Q' : α → World → Prop} {R : β → World → Prop}
  {E E' : World → Prop} {p : Handler α}

theorem Holds.others {owed downloads : List Download} {stream : Option (Location × List UInt8)} :
    Local storagePath artifact call (Holds call owed downloads stream) := by
  intro w w' ho h
  refine ⟨fun d hd ↦ (ho.owed d hd).trans (h.owed d hd),
    fun d hd ↦ (ho.downloads d hd).trans (h.downloads d hd),
    fun path ↦ (ho.streams path).trans (h.streams path), fun path bytes hs ↦ ?_⟩
  rw [ho.disk path ((h.streams path).mpr ⟨bytes, hs⟩), h.bytes path bytes hs]

/-- Neither the tokens nor the builds matter. -/
theorem Holds.same {owed downloads : List Download} {stream : Option (Location × List UInt8)}
    (h : Holds call owed downloads stream w) (ho : w'.owed = w.owed)
    (hd : w'.downloadingSet = w.downloadingSet) (hs : w'.streams = w.streams)
    (hb : w'.disk = w.disk) : Holds call owed downloads stream w' := by
  obtain ⟨howed, hdownloads, hstreams, hbytes⟩ := h
  refine ⟨?_, ?_, ?_, ?_⟩
  · rwa [ho]
  · rwa [hd]
  · rwa [hs]
  · rwa [hb]

theorem AllWhole.others :
    Local storagePath artifact call (AllWhole storagePath artifact uuid files) :=
  fun _ _ ho h file hf ↦ ho.whole uuid file (h file hf)

theorem AllWhole.perform (h : AllWhole storagePath artifact uuid files w) (call : ℕ)
    (hg : Guarded storagePath artifact call c w)
    (hd : disturbs storagePath artifact call c o w = false) :
    AllWhole storagePath artifact uuid files (perform storagePath artifact call c o w).1 :=
  fun file hf ↦ (perform_effect hg hd).whole (h file hf)

theorem Local.and (hp : Local storagePath artifact call P)
    (hp' : Local storagePath artifact call P') :
    Local storagePath artifact call fun w ↦ P w ∧ P' w :=
  fun w w' ho h ↦ ⟨hp w w' ho h.1, hp' w w' ho h.2⟩

theorem Local.false : Local storagePath artifact call fun _ ↦ False := fun _ _ _ h ↦ h

namespace Does

theorem pure {a : α} (h : ∀ w, P w → Q a w) :
    Does storagePath artifact call P (pure a : Handler α) Q E :=
  fun _ _ hp ↦ .pure fun hd ↦ h _ (hp hd)

theorem throw {failure : Failure} (h : ∀ w, P w → E w) :
    Does storagePath artifact call P (throw failure : Handler α) Q E :=
  fun _ _ hp ↦ .throw fun hd ↦ h _ (hp hd)

theorem bind {f : α → Handler β} (hp : Does storagePath artifact call P p Q E)
    (hf : ∀ a, Does storagePath artifact call (Q a) (f a) R E) :
    Does storagePath artifact call P (p >>= f) R E :=
  fun s w h ↦ (hp s w h).andThen fun a s' w' hq ↦ hf a s' w' hq

theorem tryCatch {f : Failure → Handler α} (hp : Does storagePath artifact call P p Q E)
    (hf : ∀ failure, Does storagePath artifact call E (f failure) Q E') :
    Does storagePath artifact call P (tryCatch p f) Q E' :=
  fun s w h ↦ .tryCatch ((hp s w h).mono (fun _ _ _ hq ↦ hq) fun failure s' w' he ↦
    hf failure s' w' he)

theorem weaken (hp : Does storagePath artifact call P p Q E) (h : ∀ w, P' w → P w) :
    Does storagePath artifact call P' p Q E :=
  fun s w hp' ↦ hp s w fun hd ↦ h w (hp' hd)

theorem mono (hp : Does storagePath artifact call P p Q E) (hQ : ∀ a w, Q a w → Q' a w)
    (hE : ∀ w, E w → E' w) : Does storagePath artifact call P p Q' E' :=
  fun s w h ↦ (hp s w h).mono (fun a _ w' hq hd ↦ hQ a w' (hq hd)) fun _ _ w' he hd ↦
    hE w' (he hd)

/-- Where something is disturbed, it stays so. -/
theorem wp_disturbed {p : Prog Command Reply α} {Q : α → World → Prop} (hd : w.disturbed = true)
    (hQ : ∀ a w', w'.disturbed = true → Q a w') : (logic storagePath artifact).Wp call p Q w := by
  induction p generalizing w with
  | done a => exact hQ a w hd
  | call c k ih =>
    intro w₁ hr _
    have hd₁ : w₁.disturbed = true := by
      rw [← Bool.not_eq_false]
      intro h
      rw [(hr h).1] at hd
      cases hd
    refine ⟨fun h ↦ ?_, fun o w₂ r hx _ ↦ ih r ?_⟩
    · rw [hd₁] at h
      cases h
    · obtain ⟨rfl, -⟩ := Prod.mk.inj hx
      exact Bool.or_eq_true_iff.mpr (.inl hd₁)

theorem of_pure {φ : Prop} (h : φ → Does storagePath artifact call P p Q E) :
    Does storagePath artifact call (fun w ↦ φ ∧ P w) p Q E := by
  intro s w hp
  cases hd : w.disturbed with
  | false => exact h (hp hd).1 s w fun _ ↦ (hp hd).2
  | true =>
    refine wp_disturbed hd fun x w' hd' ↦ ?_
    have hall : ∀ P' : World → Prop, Calmly P' w' := fun _ hf ↦ by
      rw [hd'] at hf
      cases hf
    obtain ⟨_ | a, _⟩ := x
    · exact hall _
    · exact hall _

theorem of_false : Does storagePath artifact call (fun _ ↦ False) p Q E :=
  (of_pure (P := fun _ ↦ True) False.elim : Does storagePath artifact call
    (fun _ ↦ False ∧ True) p Q E).weaken fun _ h ↦ h.elim

/-- One command: it is met where `P` holds still, and disturbs nothing. -/
theorem invoke_mirrored {g : Reply c → Except Failure α}
    (hl : Local storagePath artifact call P)
    (hg : ∀ w, P w → Guarded storagePath artifact call c w)
    (hq : ∀ o w, Mirrored storagePath artifact w → P w →
      disturbs storagePath artifact call c o w = false →
      match g (perform storagePath artifact call c o w).2 with
      | .ok a => Q a { (perform storagePath artifact call c o w).1 with disturbed := false }
      | .error _ => E { (perform storagePath artifact call c o w).1 with disturbed := false }) :
    Does storagePath artifact call P (invoke c g) Q E := by
  intro s w hp
  refine .invoke fun w₁ hr hi ↦ ?_
  have hp₁ : Calmly P w₁ := fun hd ↦ hl w w₁ (hr hd).2 (hp (hr hd).1)
  refine ⟨fun hd ↦ hg w₁ (hp₁ hd), fun o w₂ r hx _ ↦ ?_⟩
  obtain ⟨rfl, hr⟩ := Prod.mk.inj hx
  obtain rfl := Option.some.inj hr
  change Logic.Settles _ _ _ { (perform storagePath artifact call c o w₁).1 with
    disturbed := w₁.disturbed || disturbs storagePath artifact call c o w₁ } _
  cases hd : w₁.disturbed || disturbs storagePath artifact call c o w₁ with
  | true =>
    cases g (perform storagePath artifact call c o w₁).2 with
    | ok a => exact nofun
    | error failure => exact nofun
  | false =>
    obtain ⟨hw, hc⟩ := Bool.or_eq_false_iff.mp hd
    have h := hq o w₁ (hi hw) (hp₁ hw) hc
    revert h
    cases g (perform storagePath artifact call c o w₁).2 with
    | ok a => exact fun h _ ↦ h
    | error failure => exact fun h _ ↦ h

theorem invoke {g : Reply c → Except Failure α} (hl : Local storagePath artifact call P)
    (hg : ∀ w, P w → Guarded storagePath artifact call c w)
    (hq : ∀ o w, P w → disturbs storagePath artifact call c o w = false →
      match g (perform storagePath artifact call c o w).2 with
      | .ok a => Q a { (perform storagePath artifact call c o w).1 with disturbed := false }
      | .error _ => E { (perform storagePath artifact call c o w).1 with disturbed := false }) :
    Does storagePath artifact call P (invoke c g) Q E :=
  invoke_mirrored hl hg fun o w _ ↦ hq o w

/-- What a poll has selected, it has selected to its end. -/
theorem frame {builds : List NexusBuild} (hp : Does storagePath artifact call P p Q E) :
    Does storagePath artifact call (fun w ↦ P w ∧ SelectedAll call builds w) p
      (fun a w ↦ Q a w ∧ SelectedAll call builds w) fun w ↦ E w ∧ SelectedAll call builds w := by
  intro s w h
  have hframe := (hp s w fun hd ↦ (h hd).1).frame (P := Calmly (SelectedAll call builds))
    (fun w w' hr hs hd build hb ↦ (hr hd).2.selected _ (hs (hr hd).1 build hb))
    (fun c o w hg hs hd build hb ↦ ?_) fun hd ↦ (h hd).2
  · exact hframe.mono (fun _ _ _ ⟨hs, hq⟩ hd ↦ ⟨hq hd, hs hd⟩)
      fun _ _ _ ⟨hs, he⟩ hd ↦ ⟨he hd, hs hd⟩
  · obtain ⟨hw, he⟩ := exec_effect hg hd
    exact he.selects (hs hw build hb)

end Does

end Rules

section Download

variable {d : Download}

/-- The file is being written, up to some byte. -/
def Writing (storagePath : Location) (artifact : String → String → List UInt8) (d : Download)
    (done : List String) (filePath : Location) (bytes : List UInt8) (w : World) : Prop :=
  Holds d.call [d] [d] (some (filePath, bytes)) w ∧ AllWhole storagePath artifact d.uuid done w

/-- Between two files, the first ones are there. -/
def Between (storagePath : Location) (artifact : String → String → List UInt8) (d : Download)
    (done : List String) (w : World) : Prop :=
  Holds d.call [d] [d] none w ∧ AllWhole storagePath artifact d.uuid done w

theorem writeBody_does {bytes written : List UInt8}
    (hpath : safeJoin storagePath [d.uuid, file] = .ok filePath)
    (hbytes : written ++ bytes = artifact d.uuid file) :
    Does storagePath artifact d.call (Writing storagePath artifact d done filePath written)
      (writeBody filePath bytes false)
      (fun _ ↦ Between storagePath artifact d (file :: done)) fun _ ↦ False := by
  have hlocal : ∀ written, Local storagePath artifact d.call
      (Writing storagePath artifact d done filePath written) := fun _ ↦
    Holds.others.and AllWhole.others
  induction bytes generalizing written with
  | nil =>
    refine .invoke (hlocal written) (fun _ _ ↦ trivial) fun o w hwriting hd ↦ ?_
    obtain ⟨hh, hw⟩ := hwriting
    have hown : w.streams filePath = some d.call := (hh.streams filePath).mpr ⟨written, rfl⟩
    have hall := hw.perform d.call (c := .finish filePath) trivial hd
    have hout : o.outcome = .ok () := by
      rw [disturbs] at hd
      cases hout : o.outcome with
      | ok _ => rfl
      | error failure => simp [hout, Except.isOk, Except.toBool] at hd
    rw [perform, World.finish, if_pos hown, hout] at hall ⊢
    refine ⟨⟨hh.owed, hh.downloads, fun path ↦ ?_, (by simp)⟩, List.forall_mem_cons.mpr ⟨?_, hall⟩⟩
    · by_cases hp : path = filePath
      · simp [hp]
      · simp only [update_of_ne hp, reduceCtorEq, exists_const, iff_false]
        intro hs
        obtain ⟨_, heq⟩ := (hh.streams path).mp hs
        exact hp (Prod.mk.inj (Option.some.inj heq)).1.symm
    · refine ⟨filePath, hpath, ?_, update_self ..⟩
      rw [← hbytes, List.append_nil]
      exact hh.bytes filePath written rfl
  | cons byte bytes ih =>
    rw [writeBody]
    refine .bind (Q := fun _ ↦ Writing storagePath artifact d done filePath (written ++ [byte])) ?_
      fun _ ↦ ih (by simpa using hbytes)
    refine .invoke (hlocal written) (fun _ _ ↦ trivial) fun o w hwriting hd ↦ ?_
    obtain ⟨hh, hw⟩ := hwriting
    have hown : w.streams filePath = some d.call := (hh.streams filePath).mpr ⟨written, rfl⟩
    have hall := hw.perform d.call (c := .writeByte filePath byte) trivial hd
    rw [perform, World.writeByte, if_pos hown] at hall ⊢
    refine ⟨⟨hh.owed, hh.downloads, fun path ↦ ?_, fun path bytes heq ↦ ?_⟩, hall⟩
    · rw [hh.streams path]
      simp
    · obtain ⟨rfl, rfl⟩ := Prod.mk.inj (Option.some.inj heq)
      simp [hh.bytes filePath written rfl]

theorem Between.others : Local storagePath artifact d.call (Between storagePath artifact d done) :=
  Holds.others.and AllWhole.others

theorem Between.same (h : Between storagePath artifact d done w) (disturbed : Bool) :
    Between storagePath artifact d done { w with disturbed } :=
  ⟨h.1.same rfl rfl rfl rfl, h.2⟩

/-- The file that was not there is opened. -/
theorem createWriteStream_does {R : Unit → World → Prop} {p : Handler Unit}
    (hp : Does storagePath artifact d.call (Writing storagePath artifact d done filePath []) p R
      fun _ ↦ False) :
    Does storagePath artifact d.call (Between storagePath artifact d done)
      (do ask (.createWriteStream filePath); p) R fun _ ↦ False := by
  refine .bind (Q := fun _ ↦ Writing storagePath artifact d done filePath []) ?_ fun _ ↦ hp
  refine .invoke Between.others (fun _ _ ↦ trivial) fun o w ⟨hh, hw⟩ hd ↦ ?_
  have hall := hw.perform d.call (c := .createWriteStream filePath) trivial hd
  have hout : o.outcome = .ok () := by
    rw [disturbs] at hd
    cases hout : o.outcome with
    | ok _ => rfl
    | error failure => simp [hout, Except.isOk, Except.toBool] at hd
  rw [perform, hout] at hall ⊢
  refine ⟨⟨hh.owed, hh.downloads, fun path ↦ ?_, fun path bytes heq ↦ ?_⟩, hall⟩
  · by_cases hpath : path = filePath
    · simp [World.createWriteStream, hpath]
    · have hnone : w.streams path ≠ some d.call := fun hs ↦ by
        obtain ⟨_, heq⟩ := (hh.streams path).mp hs
        cases heq
      simp [World.createWriteStream, update_of_ne hpath, hnone, Ne.symm hpath]
  · obtain ⟨rfl, rfl⟩ := Prod.mk.inj (Option.some.inj heq)
    simp [World.createWriteStream]

theorem downloadFile_does :
    Does storagePath artifact d.call (Between storagePath artifact d done)
      (downloadFile nexusToken d.uuid file)
      (fun _ ↦ Between storagePath artifact d (file :: done)) fun _ ↦ False := by
  refine .bind (Q := fun found w ↦ found.elim (Between storagePath artifact d (file :: done) w)
    fun filePath ↦ safeJoin storagePath [d.uuid, file] = .ok filePath ∧
      Between storagePath artifact d done w) ?_ fun found ↦ ?_
  · refine .invoke Between.others (fun _ _ ↦ trivial) fun o w hb hd ↦ ?_
    rw [disturbs] at hd
    rw [perform]
    cases hfound : w.existsFile storagePath d.uuid file with
    | error failure => simp [hfound] at hd
    | ok found =>
      cases found with
      | none =>
        have hwhole : w.Whole storagePath artifact d.uuid file := by simpa [hfound] using hd
        exact Between.same ⟨hb.1, List.forall_mem_cons.mpr ⟨hwhole, hb.2⟩⟩ _
      | some filePath =>
        refine ⟨?_, hb.same _⟩
        rw [World.existsFile] at hfound
        cases hjoin : safeJoin storagePath [d.uuid, file] with
        | error failure =>
          rw [hjoin] at hfound
          cases hfound
        | ok path =>
          rw [hjoin] at hfound
          have heq : (if (w.disk path).isSome then none else some path) = some filePath :=
            Except.ok.inj hfound
          split at heq
          · cases heq
          · rw [Option.some.inj heq]
  · cases found with
    | none => exact .pure fun _ h ↦ h
    | some filePath =>
      refine .of_pure fun hpath ↦ ?_
      refine .bind (Q := fun response w ↦ response = .body (artifact d.uuid file) false ∧
        Between storagePath artifact d done w) ?_ fun response ↦ .of_pure fun hresponse ↦ ?_
      · refine .invoke Between.others (fun _ _ ↦ trivial) fun o w hb hd ↦ ?_
        rw [disturbs] at hd
        have hservice : o.service = .whole := by simpa using hd
        rw [perform, hservice]
        exact ⟨rfl, hb.same _⟩
      · subst hresponse
        exact createWriteStream_does (writeBody_does hpath rfl)

theorem downloadFiles_does :
    Does storagePath artifact d.call (Between storagePath artifact d done)
      (downloadFiles nexusToken d.uuid files)
      (fun _ w ↦ Between storagePath artifact d done w ∧
        AllWhole storagePath artifact d.uuid files w) fun _ ↦ False := by
  induction files generalizing done with
  | nil => exact .pure fun w h ↦ ⟨h, nofun⟩
  | cons file files ih =>
    refine .bind downloadFile_does fun _ ↦ ih.mono (fun _ w ⟨⟨hh, hw⟩, hall⟩ ↦ ?_) fun _ h ↦ h
    obtain ⟨hfile, hw⟩ := List.forall_mem_cons.mp hw
    exact ⟨⟨hh, hw⟩, List.forall_mem_cons.mpr ⟨hfile, hall⟩⟩

/-- A download that a poll owes is made, or left to another poll. -/
theorem downloadBuildFilesToLocal_does :
    Does storagePath artifact d.call (Holds d.call [d] [] none)
      (downloadBuildFilesToLocal nexusToken d.uuid d.files)
      (fun _ ↦ Holds d.call [] [] none) fun _ ↦ False := by
  refine .bind (Q := fun began w ↦ if began then Between storagePath artifact d [] w
    else Holds d.call [] [] none w) ?_ fun began ↦ ?_
  · refine .invoke Holds.others (fun w hh ↦ ⟨?_, fun e he hc ↦ ?_, fun e he hc ↦ ?_⟩)
      fun o w hh hd ↦ ?_
    · exact (hh.owed d rfl).mpr (.head _)
    · rw [List.mem_singleton.mp ((hh.owed e hc).mp he)]
    · cases (hh.downloads e hc).mp he
    · rw [disturbs] at hd
      rw [perform, World.beginDownload]
      split at hd
      · next hany =>
        rw [if_pos hany]
        refine ⟨fun e hc ↦ ?_, hh.downloads, hh.streams, hh.bytes⟩
        refine iff_of_false (fun hm ↦ ?_) (List.not_mem_nil)
        obtain ⟨hm, hne⟩ := List.mem_filter.mp hm
        obtain rfl := List.mem_singleton.mp ((hh.owed e hc).mp hm)
        simp at hne
      · next hany =>
        rw [if_neg hany]
        simp only [Bool.or_eq_false_iff, Bool.not_eq_false'] at hd
        obtain ⟨hjoin, hout⟩ := hd
        cases hj : safeJoin storagePath [d.uuid] with
        | error failure => simp [hj, Except.isOk, Except.toBool] at hjoin
        | ok directory =>
          cases ho : o.outcome with
          | error failure => simp [ho, Except.isOk, Except.toBool] at hout
          | ok _ =>
            refine ⟨⟨hh.owed, fun e hc ↦ ?_, hh.streams, hh.bytes⟩, List.forall_mem_nil _⟩
            rw [List.mem_cons, List.mem_singleton]
            refine or_iff_left fun hm ↦ ?_
            cases (hh.downloads e hc).mp hm
  · cases began with
    | false => exact .pure fun _ h ↦ h
    | true =>
      refine .bind (.tryCatch downloadFiles_does fun _ ↦ .of_false) fun _ ↦ ?_
      refine .invoke (Between.others.and AllWhole.others)
        (fun w hw ↦ ⟨⟨d, ?_, rfl, rfl⟩, fun e he hc ↦ ?_⟩) fun o w hw hd ↦ ?_
      · exact (hw.1.1.downloads d rfl).mpr (.head _)
      · obtain rfl := List.mem_singleton.mp ((hw.1.1.owed e hc).mp he)
        exact hw.2
      · obtain ⟨⟨hh, -⟩, -⟩ := hw
        refine ⟨fun e hc ↦ iff_of_false (fun hm ↦ ?_) List.not_mem_nil,
          fun e hc ↦ iff_of_false (fun hm ↦ ?_) List.not_mem_nil, hh.streams, (by simp)⟩
        · obtain ⟨hm, hne⟩ := List.mem_filter.mp hm
          obtain rfl := List.mem_singleton.mp ((hh.owed e hc).mp hm)
          simp at hne
        · obtain ⟨hm, hne⟩ := List.mem_filter.mp hm
          obtain rfl := List.mem_singleton.mp ((hh.downloads e hc).mp hm)
          simp at hne

end Download

section Poll

/-- A poll with nothing open. -/
abbrev Free (call : ℕ) : World → Prop := Holds call [] [] none

theorem Free.quiet {g : Reply c → Except Failure α}
    (hg : ∀ w, Guarded storagePath artifact call c w)
    (hc : ∀ o w, ∃ tokens, (perform storagePath artifact call c o w).1 = { w with tokens }) :
    Does storagePath artifact call (Free call) (invoke c g) (fun _ ↦ Free call) (Free call) := by
  refine .invoke Holds.others (fun w _ ↦ hg w) fun o w hh _ ↦ ?_
  obtain ⟨tokens, hw⟩ := hc o w
  rw [hw]
  cases g (perform storagePath artifact call c o w).2 with
  | ok a => exact hh.same rfl rfl rfl rfl
  | error failure => exact hh.same rfl rfl rfl rfl

theorem clearCurrent_does {token : NexusToken} {status : BuildStatus} :
    Does storagePath artifact call (Free call) (clearCurrent token uuid status)
      (fun _ ↦ Free call) (Free call) := by
  rw [clearCurrent]
  split
  · refine Free.quiet (fun _ ↦ trivial) fun o w ↦ ?_
    rw [perform]
    cases o.outcome with
    | ok _ => exact ⟨_, rfl⟩
    | error failure => exact ⟨w.tokens, rfl⟩
  · exact .pure fun _ h ↦ h

/-- A poll with nothing open that has selected these jobs. -/
def Ready (call : ℕ) (builds : List NexusBuild) (w : World) : Prop :=
  Free call w ∧ SelectedAll call builds w

theorem SelectedAll.others {builds : List NexusBuild} :
    Local storagePath artifact call (SelectedAll call builds) :=
  fun _ _ ho h build hb ↦ ho.selected _ (h build hb)

/-- Storing a job as completed, the poll owes its download. -/
theorem updateBuild_does {build : NexusBuild} {builds : List NexusBuild} {status : BuildStatus}
    {files : Option (List String)} {message : Option String} (hb : build ∈ builds) :
    Does storagePath artifact call (Ready call builds)
      (invoke (.updateBuild build.uuid status files message) fun reply ↦ reply)
      (fun _ ↦ if status = .completed && !(files.getD []).isEmpty then
        Holds call [⟨call, build.uuid, files.getD []⟩] [] none else Free call) (Free call) := by
  refine .invoke (Holds.others.and SelectedAll.others) (fun _ h ↦ h.2 build hb)
    fun o w ⟨hh, _⟩ _ ↦ ?_
  rw [perform]
  cases o.outcome with
  | error failure => exact hh.same rfl rfl rfl rfl
  | ok _ =>
    dsimp only [World.updateBuild]
    split
    · refine ⟨fun d hd ↦ ?_, hh.downloads, hh.streams, hh.bytes⟩
      rw [List.mem_cons, List.mem_singleton]
      refine or_iff_left fun hm ↦ ?_
      cases (hh.owed d hd).mp hm
    · exact hh.same rfl rfl rfl rfl

theorem syncBuildStatus_does {build : NexusBuild} {builds : List NexusBuild} (hb : build ∈ builds) :
    Does storagePath artifact call (Ready call builds) (syncBuildStatus build) (fun _ ↦ Free call)
      (Free call) := by
  have hquiet : ∀ {c : Command} {α : Type} {g : Reply c → Except Failure α},
      (∀ w, Guarded storagePath artifact call c w) →
      (∀ o w, ∃ tokens, (perform storagePath artifact call c o w).1 = { w with tokens }) →
        Does storagePath artifact call (Ready call builds) (invoke c g)
          (fun _ ↦ Ready call builds) (Free call) := fun hg hc ↦
    (Free.quiet hg hc).frame.mono (fun _ _ h ↦ h) fun _ h ↦ h.1
  refine .bind (hquiet (fun _ ↦ trivial) fun o w ↦ ⟨w.tokens, rfl⟩) fun ⟨found, now⟩ ↦ ?_
  dsimp only
  cases found.filter (now ≤ ·.expiresAt) with
  | none => exact updateBuild_does hb
  | some token =>
    refine .bind (hquiet (fun _ ↦ trivial) fun o w ↦ ⟨w.tokens, rfl⟩) fun response ↦ ?_
    cases response with
    | none => exact .pure fun _ h ↦ h.1
    | some data =>
      refine .bind (updateBuild_does hb) fun _ ↦ ?_
      split
      · refine .bind (E := Free call) ?_ fun _ ↦ clearCurrent_does
        exact (downloadBuildFilesToLocal_does (d := ⟨call, build.uuid, data.files.getD []⟩)).mono
          (fun _ _ h ↦ h) fun _ h ↦ h.elim
      · exact clearCurrent_does

theorem syncAll_does {builds : List NexusBuild} :
    Does storagePath artifact call (Ready call builds) (syncAll builds) (fun _ ↦ Free call)
      (Free call) := by
  induction builds with
  | nil => exact .pure fun _ h ↦ h.1
  | cons build builds ih =>
    have hfirst : Does storagePath artifact call
        (fun w ↦ Ready call (build :: builds) w ∧ SelectedAll call builds w)
        (syncBuildStatus build) (fun _ ↦ Ready call builds) (Ready call builds) :=
      (syncBuildStatus_does (.head _)).frame
    refine .bind ((hfirst.weaken fun w h ↦ ?_).mono (fun _ _ h ↦ h) fun _ h ↦ h.1) fun _ ↦ ih
    exact ⟨h, fun b hb ↦ h.2 b (.tail _ hb)⟩

/-- What a poll selects is not final. -/
theorem selectedAll_activeBuilds (hu : (w.builds.map (·.uuid)).Nodup) :
    SelectedAll call w.activeBuilds (w.findActive call).1 := by
  refine fun build hb ↦ ⟨.head _, fun other ho huuid ht ↦ ?_⟩
  obtain ⟨hmem, hactive⟩ := List.mem_filter.mp hb
  obtain rfl := List.inj_on_of_nodup_map hu ho hmem huuid
  simp only [Bool.or_eq_true, decide_eq_true_eq] at hactive
  rcases hactive with hpending | hbuilding
  · rw [hpending] at ht
    cases ht
  · rw [hbuilding] at ht
    cases ht

theorem pollActiveBuilds_does :
    Does storagePath artifact call (Free call) pollActiveBuilds (fun _ ↦ Free call)
      (Free call) := by
  refine .bind (Free.quiet (fun _ ↦ trivial) fun o w ↦ ⟨w.tokens, rfl⟩) fun allowed ↦ ?_
  split
  · refine .tryCatch (.bind (Q := fun builds ↦ Ready call builds) ?_ fun _ ↦ syncAll_does)
      fun _ ↦ .pure fun _ h ↦ h
    refine .invoke_mirrored Holds.others (fun _ _ ↦ trivial) fun o w hm hh _ ↦ ?_
    rw [perform]
    cases o.outcome with
    | error failure => exact hh.same rfl rfl rfl rfl
    | ok _ => exact ⟨hh.same rfl rfl rfl rfl, selectedAll_activeBuilds hm.unique⟩
  · exact .pure fun _ h ↦ h

theorem delivers : (logic storagePath artifact).Delivers fun call ↦ Calmly (Free call) := by
  rintro call w p - ⟨⟨howed, hdownloads, hstreams, -⟩, rfl⟩
  have hfree : Calmly (Free call) w := fun _ ↦ ⟨fun d hd ↦ iff_of_false (fun hm ↦ howed d hm hd)
    List.not_mem_nil, fun d hd ↦ iff_of_false (fun hm ↦ hdownloads d hm hd) List.not_mem_nil,
    fun path ↦ iff_of_false (hstreams path) nofun, nofun⟩
  refine Logic.Wp.bind (Logic.Wp.mono (pollActiveBuilds_does () w hfree) fun x w' h ↦ ?_)
  obtain ⟨_ | a, _⟩ := x
  · exact h
  · exact h

theorem stable_free : (logic storagePath artifact).Stable fun call ↦ Calmly (Free call) :=
  fun _ w w' hr h hd ↦ Holds.others w w' (hr hd).2 (h (hr hd).1)

end Poll

end RustdeskConsole.NexusBuilds
