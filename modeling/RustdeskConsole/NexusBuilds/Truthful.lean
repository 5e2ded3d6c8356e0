import RustdeskConsole.NexusBuilds.Polling

namespace RustdeskConsole.NexusBuilds

open Effects Function
open Posix (Location)

section Runs

/-- A console that has just been started, with the artifacts of the completed jobs. -/
structure Starts (storagePath : Location) (artifact : String → String → List UInt8)
    (w : World) : Prop where
  unique : (w.builds.map (·.uuid)).Nodup
  artifacts : ∀ build ∈ w.builds, build.status = .completed → ∀ file ∈ build.files.getD [],
    w.Whole storagePath artifact build.uuid file
  owed : w.owed = []
  downloadingSet : w.downloadingSet = []
  streams : ∀ filePath, w.streams filePath = none
  events : w.events = []
  disturbed : w.disturbed = false

/-- No poll is in flight. -/
def Quiescent (cfg : Config ℕ Command Reply World) : Prop :=
  ∀ call, cfg.threads call = none ∨ isDone (cfg.threads call) = true

/-- A job that is stored as completed has all its artifacts, or the next poll looks at
it once more. -/
def Truthful (storagePath : Location) (artifact : String → String → List UInt8)
    (w : World) : Prop :=
  ∀ build ∈ w.builds, build.status = .completed →
    (∀ file ∈ build.files.getD [], w.Whole storagePath artifact build.uuid file) ∨
      build ∈ w.activeBuilds

/-- What was final is final. -/
def Forward (w w' : World) : Prop :=
  ∀ build ∈ w.builds, build.status.terminal = true →
    ∃ build' ∈ w'.builds, build'.uuid = build.uuid ∧ build'.status.terminal = true

/-- The step disturbs nothing, and no poll is lost. -/
def UndisturbedStep (cfg cfg' : Config ℕ Command Reply World) : Prop :=
  cfg'.world.disturbed = false ∧
    ∀ call, (cfg.threads call).isSome = true → (cfg'.threads call).isSome = true

variable {storagePath : Location} {artifact : String → String → List UInt8} {call : ℕ}
  {w w' w₀ : World} {c : Command} {o : Choice} {cfg cfg' : Config ℕ Command Reply World}

theorem Starts.mirrored (h : Starts storagePath artifact w) : Mirrored storagePath artifact w where
  unique := h.unique
  artifacts build hb hs file hf := .inl (h.artifacts build hb hs file hf)
  downloads := by simp [h.downloadingSet]
  distinct := by simp [h.downloadingSet]
  opened path call hs := by
    rw [h.streams] at hs
    cases hs

theorem run_leaves (h₀ : Starts storagePath artifact w₀)
    (hr : (machine storagePath artifact).Run (Machine.idle w₀) cfg) :
    (logic storagePath artifact).Leaves (fun call ↦ Calmly (Free call)) cfg :=
  Logic.Leaves.run stable_free delivers (Logic.leaves_idle fun _ ↦ h₀.mirrored) hr

theorem run_undisturbed (h₀ : Starts storagePath artifact w₀)
    (hr : (machine storagePath artifact).RunWhere UndisturbedStep (Machine.idle w₀) cfg) :
    cfg.world.disturbed = false := by
  cases hr with
  | refl => exact h₀.disturbed
  | tail _ hs => exact hs.2.1

/-- What a poll owes is its own. -/
theorem exec_owed {d : Download} (hd : d ∈ (exec storagePath artifact call c o w).1.owed) :
    d ∈ w.owed ∨ d.call = call := by
  change d ∈ (perform storagePath artifact call c o w).1.owed at hd
  cases c with
  | businessWritesAllowed => exact .inl hd
  | findActive =>
    rw [perform] at hd
    cases ho : o.outcome <;> rw [ho] at hd <;> exact .inl hd
  | findToken => exact .inl hd
  | fetchStatus => exact .inl hd
  | existsFile => exact .inl hd
  | fetchFile => exact .inl hd
  | saveToken token =>
    rw [perform] at hd
    cases ho : o.outcome <;> rw [ho] at hd <;> exact .inl hd
  | updateBuild uuid status files message =>
    rw [perform] at hd
    cases ho : o.outcome with
    | error failure =>
      rw [ho] at hd
      exact .inl hd
    | ok _ =>
      rw [ho] at hd
      dsimp only [World.updateBuild] at hd
      split at hd
      · rcases List.mem_cons.mp hd with rfl | hd
        · exact .inr rfl
        · exact .inl hd
      · exact .inl hd
  | beginDownload uuid files =>
    rw [perform, World.beginDownload] at hd
    split at hd
    · exact .inl (List.mem_filter.mp hd).1
    · exact .inl hd
  | createWriteStream filePath =>
    rw [perform] at hd
    cases ho : o.outcome <;> rw [ho] at hd <;> exact .inl hd
  | writeByte filePath byte =>
    rw [perform, World.writeByte] at hd
    split at hd <;> exact .inl hd
  | finish filePath =>
    rw [perform, World.finish] at hd
    split at hd <;> exact .inl hd
  | endDownload uuid => exact .inl (List.mem_filter.mp hd).1

/-- As long as no poll is lost, what is owed is owed by a poll that has been started. -/
theorem run_started (h₀ : Starts storagePath artifact w₀)
    (hr : (machine storagePath artifact).RunWhere UndisturbedStep (Machine.idle w₀) cfg) :
    ∀ d ∈ cfg.world.owed, (cfg.threads d.call).isSome = true := by
  induction hr with
  | refl =>
    intro d hd
    change d ∈ w₀.owed at hd
    rw [h₀.owed] at hd
    cases hd
  | @tail cfg₁ cfg₂ _ hs ih =>
    obtain ⟨hstep, -, hkept⟩ := hs
    intro d hd
    cases hstep with
    | spawn => exact hkept _ (ih d hd)
    | stop => exact hkept _ (ih d hd)
    | @reply threads w w' i c k o r hi he =>
      have hw : (exec storagePath artifact i c o w).1 = w' := congrArg Prod.fst he
      rw [← hw] at hd
      rcases exec_owed hd with hd | rfl
      · exact hkept _ (ih d hd)
      · simp only [update_self, Option.isSome_some]
    | abort o hi he => cases he

theorem truthful (h₀ : Starts storagePath artifact w₀)
    (hr : (machine storagePath artifact).RunWhere UndisturbedStep (Machine.idle w₀) cfg)
    (hq : Quiescent cfg) : Truthful storagePath artifact cfg.world := by
  have hl := run_leaves h₀ hr.run
  have hcalm := run_undisturbed h₀ hr
  refine fun build hb hs ↦ .inl fun file hf ↦ ?_
  refine ((hl.1 hcalm).artifacts build hb hs file hf).resolve_right ?_
  rintro ⟨d, hd, -⟩
  rcases hq d.call with hnone | hdone
  · have hsome := run_started h₀ hr d hd
    rw [hnone] at hsome
    cases hsome
  · cases ((hl.ended (eq_done hdone) hcalm).owed d rfl).mp hd

theorem forward (h₀ : Starts storagePath artifact w₀)
    (hr : (machine storagePath artifact).RunWhere UndisturbedStep (Machine.idle w₀) cfg)
    (hr' : (machine storagePath artifact).RunWhere UndisturbedStep cfg cfg') :
    Forward cfg.world cfg'.world := by
  induction hr' with
  | refl => exact fun build hb ht ↦ ⟨build, hb, rfl, ht⟩
  | @tail cfg₁ cfg₂ hrun hs ih =>
    have hl := run_leaves h₀ (hr.run.trans (Machine.RunWhere.run hrun))
    intro build hb ht
    obtain ⟨build₁, hb₁, hu₁, ht₁⟩ := ih build hb ht
    rcases hl.step_cases hs.1 with hw | ⟨call, c, o, hg, hw⟩
    · rw [hw]
      exact ⟨build₁, hb₁, hu₁, ht₁⟩
    · have hcalm := hs.2.1
      rw [hw] at hcalm ⊢
      obtain ⟨-, he⟩ := exec_effect hg hcalm
      obtain ⟨build₂, hb₂, hu₂, ht₂⟩ := he.final hb₁ ht₁
      exact ⟨build₂, hb₂, hu₂.trans hu₁, ht₂⟩

/-- In a run without disturbance a completed job has its artifacts once no poll is in
flight, and a final status is not lost. -/
theorem mirroring_truthful (h₀ : Starts storagePath artifact w₀)
    (hr : (machine storagePath artifact).RunWhere UndisturbedStep (Machine.idle w₀) cfg)
    (hr' : (machine storagePath artifact).RunWhere UndisturbedStep cfg cfg') :
    (Quiescent cfg → Truthful storagePath artifact cfg.world) ∧ Forward cfg.world cfg'.world :=
  ⟨truthful h₀ hr, forward h₀ hr hr'⟩

end Runs

section Sample

def sampleMachine : Machine ℕ Command Reply Choice World :=
  machine ["data".toList, "nexus".toList] fun _ _ ↦ [77, 90]

def sampleWorld (builds : List NexusBuild) : World :=
  ⟨builds, [⟨"u1", "jwt", 60, some "b1"⟩], [], fun _ ↦ none, fun _ ↦ none, [], [], false⟩

theorem sample_starts {builds : List NexusBuild} (hu : (builds.map (·.uuid)).Nodup)
    (hc : ∀ build ∈ builds, build.status ≠ .completed) :
    Starts ["data".toList, "nexus".toList] (fun _ _ ↦ [77, 90]) (sampleWorld builds) where
  unique := hu
  artifacts build hb hs := absurd hs (hc build hb)
  owed := rfl
  downloadingSet := rfl
  streams _ := rfl
  events := rfl
  disturbed := rfl

theorem sample_unused (call : ℕ) (builds : List NexusBuild) : Unused call (sampleWorld builds) :=
  ⟨nofun, nofun, nofun, nofun⟩

/-- Nexus calls a job completed, and serves its artifact like this. -/
def sampleChoices (count : ℕ) (service : Service) : List Choice :=
  List.replicate count
    ⟨true, 0, .ok (), .ok (some ⟨.completed, some ["client.exe"], none⟩), service⟩

/-- Polls that go on in turns. -/
def sampleTurns (turns : List (ℕ × List Choice)) (cfg : Config ℕ Command Reply World) :
    Config ℕ Command Reply World :=
  turns.foldl (fun cfg t ↦ sampleMachine.resume t.1 t.2 cfg) cfg

/-- Whether nothing is disturbed in these turns. -/
def calm : List (ℕ × List Choice) → Config ℕ Command Reply World → Bool
  | [], _ => true
  | t :: turns, cfg =>
    ((cfg.threads t.1).all fun p ↦
      sampleMachine.plays t.1 (fun _ w' ↦ !w'.disturbed) t.2 p cfg.world) &&
      calm turns (sampleMachine.resume t.1 t.2 cfg)

theorem play_undisturbed {call : ℕ} {os : List Choice} {p : Prog Command Reply Unit} {w : World}
    {threads : ℕ → Option (Prog Command Reply Unit)} (hp : threads call = some p)
    (h : sampleMachine.plays call (fun _ w' ↦ !w'.disturbed) os p w = true) :
    sampleMachine.RunWhere UndisturbedStep ⟨threads, w⟩
      ⟨update threads call (sampleMachine.play call os p w).1,
        (sampleMachine.play call os p w).2⟩ := by
  induction os generalizing p w threads with
  | nil =>
    simp only [Machine.play, ← hp, update_eq_self]
    exact .refl
  | cons o os ih =>
    cases p with
    | done a =>
      simp only [Machine.play, ← hp, update_eq_self]
      exact .refl
    | call c k =>
      rcases he : sampleMachine.exec call c o w with ⟨w', _ | r⟩
      · cases he
      · simp only [Machine.plays, he, Bool.and_eq_true, Bool.not_eq_true'] at h
        have hself : update threads call (some (k r)) call = some (k r) := update_self ..
        have hrest := ih hself h.2
        rw [update_idem] at hrest
        simp only [Machine.play, he]
        refine .head ⟨.reply o hp he, h.1, fun other hs ↦ ?_⟩ hrest
        by_cases ho : other = call
        · simp only [ho, update_self, Option.isSome_some]
        · simpa only [update_of_ne ho] using hs

theorem turns_undisturbed {turns : List (ℕ × List Choice)}
    {cfg : Config ℕ Command Reply World} (h : calm turns cfg = true) :
    sampleMachine.RunWhere UndisturbedStep cfg (sampleTurns turns cfg) := by
  induction turns generalizing cfg with
  | nil => exact .refl
  | cons t turns ih =>
    obtain ⟨hplay, hrest⟩ := Bool.and_eq_true_iff.mp h
    have hturn : sampleMachine.RunWhere UndisturbedStep cfg
        (sampleMachine.resume t.1 t.2 cfg) := by
      unfold Machine.resume
      cases hp : cfg.threads t.1 with
      | none => exact .refl
      | some p =>
        rw [hp] at hplay
        exact play_undisturbed hp hplay
    exact hturn.trans (ih hrest)

/-- The polls that have no turn stay where they are. -/
theorem turns_threads {turns : List (ℕ × List Choice)} {cfg : Config ℕ Command Reply World}
    {call : ℕ} (h : ∀ t ∈ turns, t.1 ≠ call) :
    (sampleTurns turns cfg).threads call = cfg.threads call := by
  induction turns generalizing cfg with
  | nil => rfl
  | cons t turns ih =>
    obtain ⟨hne, h⟩ := List.forall_mem_cons.mp h
    refine (ih h).trans ?_
    change (sampleMachine.resume t.1 t.2 cfg).threads call = cfg.threads call
    unfold Machine.resume
    cases cfg.threads t.1 with
    | none => rfl
    | some p => exact update_of_ne hne.symm ..

def sampleBuilds : List NexusBuild :=
  [⟨"b1", "u1", .pending, none, none⟩, ⟨"b2", "u1", .building, none, none⟩]

/-- Two polls that have started. -/
def sampleStarted : Config ℕ Command Reply World :=
  ⟨update (update (fun _ ↦ none) 0 (some handler)) 1 (some handler), sampleWorld sampleBuilds⟩

/-- The first poll hears that the first job is still being built, and stores it after the
second poll has heard that it is completed; the second poll leaves a download to the first. -/
def sampleOrder : List (ℕ × List Choice) :=
  [(0, sampleChoices 3 .whole ++ [⟨true, 0, .ok (), .ok (some ⟨.building, none, none⟩), .whole⟩]),
    (1, sampleChoices 4 .whole), (0, sampleChoices 9 .whole), (1, sampleChoices 15 .whole),
    (0, sampleChoices 4 .whole)]

def sampleEnd : Config ℕ Command Reply World := sampleTurns sampleOrder sampleStarted

theorem sample_mirrored :
    Truthful ["data".toList, "nexus".toList] (fun _ _ ↦ [77, 90]) sampleEnd.world ∧
      sampleEnd.world.builds = [⟨"b1", "u1", .completed, some ["client.exe"], none⟩,
        ⟨"b2", "u1", .completed, some ["client.exe"], none⟩] := by
  have hturns : sampleMachine.RunWhere UndisturbedStep sampleStarted sampleEnd :=
    turns_undisturbed (by decide +kernel)
  have hfirst : UndisturbedStep (Machine.idle (sampleWorld sampleBuilds))
      ⟨update (fun _ ↦ none) 0 (some handler), sampleWorld sampleBuilds⟩ :=
    ⟨rfl, fun _ h ↦ by cases h⟩
  have hsecond : UndisturbedStep
      ⟨update (fun _ ↦ none) 0 (some handler), sampleWorld sampleBuilds⟩ sampleStarted := by
    refine ⟨rfl, fun call hs ↦ ?_⟩
    simp only [sampleStarted, update_apply] at hs ⊢
    split
    · rfl
    · exact hs
  have hr : sampleMachine.RunWhere UndisturbedStep (Machine.idle (sampleWorld sampleBuilds))
      sampleEnd := .head ⟨.spawn rfl ⟨sample_unused 0 _, rfl⟩, hfirst⟩
    (.head ⟨.spawn rfl ⟨sample_unused 1 _, rfl⟩, hsecond⟩ hturns)
  have hq : Quiescent sampleEnd := by
    intro call
    by_cases hc : call = 0 ∨ call = 1
    · rcases hc with rfl | rfl
      · exact .inr (by decide +kernel)
      · exact .inr (by decide +kernel)
    · obtain ⟨h₀, h₁⟩ := not_or.mp hc
      have hturn : ∀ t ∈ sampleOrder, t.1 = 0 ∨ t.1 = 1 := by decide
      refine .inl ((turns_threads fun t ht heq ↦ ?_).trans ?_)
      · exact hc (heq ▸ hturn t ht)
      · simp [sampleStarted, h₀, h₁]
  exact ⟨(mirroring_truthful (sample_starts (by decide) (by decide)) hr .refl).1 hq,
    by decide +kernel⟩

/-- One poll, of a job that Nexus calls completed. -/
def samplePoll (service : Service) : Config ℕ Command Reply World :=
  ⟨update (fun _ ↦ none) 0 (sampleMachine.play 0 (sampleChoices 14 service) handler
    (sampleWorld [⟨"b1", "u1", .pending, none, none⟩])).1,
    (sampleMachine.play 0 (sampleChoices 14 service) handler
      (sampleWorld [⟨"b1", "u1", .pending, none, none⟩])).2⟩

/-- A download that breaks off after one byte is not made up for. -/
theorem broken_untruthful : ¬∀ storagePath artifact (w₀ : World) cfg cfg',
    Starts storagePath artifact w₀ →
      (machine storagePath artifact).Run (Machine.idle w₀) cfg →
        (machine storagePath artifact).Run cfg cfg' →
          (Quiescent cfg → Truthful storagePath artifact cfg.world) ∧
            Forward cfg.world cfg'.world := by
  intro h
  have hr : sampleMachine.Run (Machine.idle _) (samplePoll (.broken 1)) :=
    sampleMachine.start_run 0 (sampleChoices 14 (.broken 1)) rfl ⟨sample_unused 0 _, rfl⟩
  have hq : Quiescent (samplePoll (.broken 1)) := by
    intro call
    by_cases hc : call = 0
    · subst hc
      exact .inr (by decide +kernel)
    · exact .inl (by simp [samplePoll, hc])
  have ht := (h _ _ _ _ _ (sample_starts (by decide) (by decide)) hr .refl).1 hq
  have hbuilds : (samplePoll (.broken 1)).world.builds =
      [⟨"b1", "u1", .completed, some ["client.exe"], none⟩] := by decide +kernel
  rcases ht _ (by rw [hbuilds]; exact .head _) rfl with hw | hactive
  · have hnot : ¬(samplePoll (.broken 1)).world.Whole ["data".toList, "nexus".toList]
        (fun _ _ ↦ [77, 90]) "b1" "client.exe" := by decide +kernel
    exact hnot (hw "client.exe" (.head _))
  · rw [World.activeBuilds, hbuilds] at hactive
    simp at hactive

end Sample

end RustdeskConsole.NexusBuilds
