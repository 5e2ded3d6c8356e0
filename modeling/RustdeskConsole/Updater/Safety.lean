import RustdeskConsole.Updater.WorkerSpec

namespace RustdeskConsole.Updater

open Effects Function

/-- The job as the control process accepts it, before any worker was started. -/
structure Accepted (w : World) : Prop where
  queued : w.job.view.status = .queued
  snapshot : w.job.snapshot = none
  undecided : w.job.decision = none
  operations : ∀ key, w.job.operations key = none
  history : w.history = []

theorem Accepted.journal {w : World} (h : Accepted w) : Journal w.job w.job w where
  jobId := rfl
  plan := rfl
  original := rfl
  queued _ := ⟨h.undecided, h.operations, by simp [h.history]⟩
  switched hs := by simp [h.operations] at hs
  switchCalled hm := by simp [h.history] at hm
  restoring hs := by simp [h.operations] at hs
  deployment hs := by simp [h.operations] at hs
  restoreCalled hm := by simp [h.history] at hm
  restoredOnce := by simp [h.history]
  loaded r hm := by simp [h.history] at hm
  decided e hm := by simp [h.history] at hm
  reopened e hm := by simp [h.history] at hm
  committed hd := by simp [h.undecided] at hd
  restored hd := by simp [h.undecided] at hd
  succeeded hs := by simp [h.queued] at hs
  rolledBack hs := by simp [h.queued] at hs
  failed _ := h.operations .switch
  recovery _ hs := by simp [h.queued] at hs

section Sample

def sampleComponent (version : String) : InstalledComponent := ⟨version, ⟨version⟩, ⟨0⟩⟩

def sampleInstallation : Installation :=
  ⟨"i", .managedLinux, "/s", "/d", .sqlite, fun _ ↦ sampleComponent "1", none⟩

def samplePlan : PersistedPlan :=
  ⟨⟨"i", fun _ ↦ true, 0, true⟩, "x", fun _ ↦ sampleComponent "2", fun _ ↦ "x"⟩

/-- An update of both components from release 1 to release 2. -/
def sampleWorld : World where
  job := ⟨⟨"j", .queued, .preparing, 0, none, none, "", none⟩, samplePlan, sampleInstallation,
    none, none, fun _ ↦ none⟩
  maintenance := none
  installation := sampleInstallation
  deployed _ := "1"
  running _ := true
  history := []

def sampleChoice (ending : Ending) : Choice :=
  ⟨ending, false, 0, fun _ ↦ "2", fun _ ↦ true, "x", ⟨"j", "b"⟩, []⟩

def calls (n : ℕ) : List Choice := List.replicate n (sampleChoice .returns)

def failure : List Choice := [sampleChoice (.throws none)]

/-- What one start of the worker makes of the sample with these choices. -/
def replay (choices : List Choice) : Config Unit Command Reply World :=
  let played := machine.play () choices ((fun _ ↦ ()) <$> workerMain.start sampleWorld.job)
    sampleWorld
  ⟨update (fun _ ↦ none) () played.1, played.2⟩

theorem sample_accepted : Accepted sampleWorld := ⟨rfl, rfl, rfl, fun _ ↦ rfl, rfl⟩

theorem replay_run (choices : List Choice) :
    machine.Run (Machine.idle sampleWorld) (replay choices) :=
  machine.start_run () choices rfl ⟨workerMain, .head _, sampleWorld.job, rfl⟩

/-- The switch fails and the recovery is about to restore the data. -/
def restoring : Config Unit Command Reply World := replay (calls 24 ++ failure ++ calls 9)

/-- Preparation fails before the fence was raised, and then the write that is to
open the maintenance file again. -/
def unfenced : Config Unit Command Reply World :=
  replay (calls 8 ++ failure ++ calls 1 ++ failure ++ calls 2)

end Sample

section Runs

variable {w₀ : World} {cfg : Config Unit Command Reply World}

theorem reachable (h₀ : Accepted w₀) (hr : machine.Run (Machine.idle w₀) cfg) :
    (logic w₀.job).Verified cfg :=
  (Logic.verified_idle (L := logic w₀.job) h₀.journal).run (admissible w₀.job) hr

/-- A restore starts only before the point of no return, and only once: no
decision was saved, the fence was never opened, and no attempt read a record in
which the restore had been journaled. -/
theorem restore_before_point_of_no_return (h₀ : Accepted w₀)
    (hr : machine.Run (Machine.idle w₀) cfg) :
    cfg.world.history.countP Event.restores ≤ 1 ∧
      ∀ context snapshot k, cfg.threads () = some (.call (.restore context snapshot) k) →
        (∀ record, .jobSaved record ∈ cfg.world.history → record.decision = none) ∧
        (∀ state, .maintenanceWritten state ∈ cfg.world.history → state.active = true) ∧
        .restoreCalled ∉ cfg.world.history ∧
        ∀ record, .jobRead record ∈ cfg.world.history →
          record.operations .restoreData = none := by
  have hv := reachable h₀ hr
  refine ⟨hv.1.restoredOnce, fun context snapshot k hk ↦ ?_⟩
  have hg : Quiet cfg.world ∧ Returnable cfg.world := hv.guard hk
  obtain ⟨-, hundecided, hclosed, hfirst, hloaded, -, -⟩ := hg
  refine ⟨fun record hm ↦ ?_, fun state hm ↦ ?_, hfirst, hloaded⟩
  · simpa [Event.decides] using hundecided _ hm
  · simpa [Event.reopens] using hclosed _ hm

theorem restoring_before_point_of_no_return :
    restoring.world.history.countP Event.restores ≤ 1 ∧
      .restoreCalled ∉ restoring.world.history :=
  have h := restore_before_point_of_no_return sample_accepted
    (replay_run (calls 24 ++ failure ++ calls 9))
  ⟨h.1, (h.2 ⟨"j", .sqlite, "/d", "/s/backups/j", true⟩ ⟨"j", "b"⟩ _ rfl).2.2.1⟩

/-- Data is copied and put back only behind the fence with both services
stopped, and nothing is switched before the file names a snapshot of it. -/
theorem data_touched_behind_fence (h₀ : Accepted w₀) (hr : machine.Run (Machine.idle w₀) cfg) :
    (∀ context k, cfg.threads () = some (.call (.backup context) k) → Quiet cfg.world) ∧
    (∀ context snapshot k, cfg.threads () = some (.call (.restore context snapshot) k) →
      Quiet cfg.world ∧ cfg.world.job.operations .restoreDeployment = some .done) ∧
    (∀ installation plan k, cfg.threads () = some (.call (.switchApplications installation plan) k) →
      BackedUp cfg.world.job cfg.world.history) ∧
    ∀ record k, cfg.threads () = some (.call (.saveJob record) k) →
      (record.operations .switch).isSome → BackedUp cfg.world.job cfg.world.history := by
  have hv := reachable h₀ hr
  refine ⟨fun context k hk ↦ hv.guard hk, fun context snapshot k hk ↦ ?_,
    fun installation plan k hk ↦ ?_, fun record k hk hs ↦ ?_⟩
  · have hg : Quiet cfg.world ∧ Returnable cfg.world := hv.guard hk
    exact ⟨hg.1, hg.2.deployment⟩
  · have hg : guard w₀.job (.switchApplications installation plan) cfg.world := hv.guard hk
    exact hg.2.2
  · have hg : guard w₀.job (.saveJob record) cfg.world := hv.guard hk
    obtain ⟨-, hj, hsame⟩ := hg
    obtain ⟨snapshot, hn, hm⟩ := (hj.switched hs).2
    exact ⟨snapshot, (hsame hs).symm.trans hn, hm⟩

theorem restoring_behind_fence : Quiet restoring.world :=
  have h := data_touched_behind_fence sample_accepted (replay_run (calls 24 ++ failure ++ calls 9))
  (h.2.1 ⟨"j", .sqlite, "/d", "/s/backups/j", true⟩ ⟨"j", "b"⟩ _ rfl).1

/-- Nothing overwrites the record of a job that has ended. -/
theorem terminal_final (h₀ : Accepted w₀) (hr : machine.Run (Machine.idle w₀) cfg)
    {cfg' : Config Unit Command Reply World} (hr' : machine.Run cfg cfg')
    (ht : cfg.world.job.terminal = true) : cfg'.world.job = cfg.world.job := by
  have hstep : ∀ i c o w, (logic w₀.job).inv w → (logic w₀.job).guard i c w →
      w.job.terminal = true → (machine.exec i c o w).1.job = w.job := by
    intro _ c o w _ hg hw
    by_cases hc : ∃ record, c = .saveJob record
    · obtain ⟨record, rfl⟩ := hc
      rw [hg.1] at hw
      cases hw
    · cases c with
      | saveJob record => exact absurd ⟨record, rfl⟩ hc
      | writeMaintenance => exact World.writeMaintenance_job ..
      | enterRecover => rfl
      | _ => exact (exec_kept (by trivial) o w).job
  exact (reachable h₀ hr).run_within (admissible w₀.job)
    (T := fun a b ↦ a.job.terminal = true → b.job = a.job) (fun _ _ ↦ rfl)
    (fun hab hbc ha ↦ (hbc (hab ha ▸ ha)).trans (hab ha)) hstep hr' ht

theorem terminal_statuses_truthful (h₀ : Accepted w₀) (hr : machine.Run (Machine.idle w₀) cfg) :
    (cfg.world.job.view.status = .succeeded →
      cfg.world.job.decision = some .commitDecided ∧
      cfg.world.job.operations .verify = some .done ∧
      cfg.world.job.operations .helper = some .done ∧
      cfg.world.job.operations .persistInstallation = some .done ∧
      cfg.world.installation = commitInstallation w₀.job.originalInstallation w₀.job.plan) ∧
    (cfg.world.job.view.status = .rolledBack →
      cfg.world.job.decision = some .restoreDecided ∧
      cfg.world.job.operations .restoreData = some .done ∧
      cfg.world.installation = w₀.job.originalInstallation ∧
      ∀ component, cfg.world.deployed component =
        w₀.job.originalInstallation.deployment.release
          (w₀.job.originalInstallation.current component)) ∧
    (cfg.world.job.view.status = .failed →
      cfg.world.job.operations .switch = none ∧ .switchCalled ∉ cfg.world.history) ∧
    ∀ cfg', machine.Run cfg cfg' → cfg.world.job.terminal = true →
      cfg'.world.job = cfg.world.job := by
  have hj := (reachable h₀ hr).1
  refine ⟨fun hs ↦ ?_, fun hs ↦ ?_, fun hs ↦ ⟨hj.failed hs, fun hm ↦ ?_⟩,
    fun cfg' hr' ht ↦ terminal_final h₀ hr hr' ht⟩
  · have hd := hj.succeeded hs
    obtain ⟨hv, hh, hp, hi⟩ := hj.committed hd
    exact ⟨hd, hv, hh, hp, by rw [hi, hj.original, hj.plan]⟩
  · obtain ⟨hd, hdep⟩ := hj.rolledBack hs
    obtain ⟨hdata, hdone⟩ := hj.restored hd
    exact ⟨hd, hdata, by rw [hj.deployment hdone, hj.original], hj.original ▸ hdep⟩
  · have hc := hj.switchCalled hm
    rw [hj.failed hs] at hc
    cases hc

theorem sample_succeeds_truthfully :
    (replay (calls 60)).world.job.decision = some .commitDecided :=
  ((terminal_statuses_truthful sample_accepted (replay_run (calls 60))).1 rfl).1

/-- As long as no maintenance write of an undecided recovery loses the fence, a
job left to the operator is fenced. -/
theorem recovery_required_fenced (h₀ : Accepted w₀) (hr : machine.Run (Machine.idle w₀) cfg)
    (hl : ¬FenceLost cfg.world.history) (hs : cfg.world.job.view.status = .recoveryRequired)
    (hd : cfg.world.job.decision = none) : fenced cfg.world :=
  (reachable h₀ hr).1.recovery hl hs hd

theorem unstopped_fenced :
    fenced (replay (calls 15 ++ failure ++ calls 2 ++ failure ++ calls 2)).world := by
  refine recovery_required_fenced sample_accepted (replay_run _) (fun hl ↦ ?_) rfl rfl
  obtain ⟨e, hm, he⟩ := hl.exists
  revert e
  decide

theorem unfenced_recovery : ¬∀ w₀ cfg, Accepted w₀ → machine.Run (Machine.idle w₀) cfg →
    cfg.world.job.view.status = .recoveryRequired → cfg.world.job.decision = none →
    fenced cfg.world := by
  intro h
  have hf := h sampleWorld unfenced sample_accepted (replay_run _) rfl rfl
  exact Bool.false_ne_true hf

end Runs

end RustdeskConsole.Updater
