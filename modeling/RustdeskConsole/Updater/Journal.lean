import Mathlib.Data.List.Basic
import RustdeskConsole.Updater.World

namespace RustdeskConsole.Updater

namespace Event

def decides : Event → Prop
  | .jobSaved record => record.decision.isSome
  | _ => False

def reopens : Event → Prop
  | .maintenanceWritten state => state.active = false
  | _ => False

def restores : Event → Bool
  | .restoreCalled => true
  | _ => false

/-- A failed maintenance write that leaves an undecided job without its fence:
it broke off over a file that was not active, or after the inactive contents
became visible. -/
def losesFence : Event → Prop
  | .maintenanceFailed record before state landed =>
    record.decision = none ∧ businessWritesAllowed (if landed then some state else before)
  | _ => False

instance : DecidablePred losesFence
  | .maintenanceFailed .. => inferInstanceAs (Decidable (_ ∧ _))
  | .jobRead _ | .jobSaved _ | .maintenanceWritten _ | .recoverEntered | .applicationsStopped
  | .startCalled | .switchCalled | .backupTaken _ | .restoreCalled => isFalse id

end Event

/-- Both services were stopped and the worker has not started them since. -/
def Quiesced : List Event → Prop
  | [] => False
  | .applicationsStopped :: _ => True
  | .startCalled :: _ => False
  | _ :: history => Quiesced history

/-- Some maintenance write made by `recover` lost the fence. -/
def FenceLost : List Event → Prop
  | [] => False
  | event :: history => (event.losesFence ∧ .recoverEntered ∈ history) ∨ FenceLost history

theorem FenceLost.exists {history : List Event} (h : FenceLost history) :
    ∃ e ∈ history, e.losesFence := by
  induction history with
  | nil => cases h
  | cons e history ih =>
    rcases h with ⟨he, -⟩ | h
    · exact ⟨e, .head _, he⟩
    · obtain ⟨e', hm, he⟩ := ih h
      exact ⟨e', .tail _ hm, he⟩

def BackedUp (record : JobRecord) (history : List Event) : Prop :=
  ∃ snapshot, record.snapshot = some snapshot ∧ .backupTaken snapshot ∈ history

def fenced (w : World) : Prop := w.maintenance.any MaintenanceState.active = true

/-- What a job file may say of the job that was accepted and of the world it is
found in. -/
structure Journal (accepted record : JobRecord) (w : World) : Prop where
  jobId : record.view.jobId = accepted.view.jobId
  plan : record.plan = accepted.plan
  original : record.originalInstallation = accepted.originalInstallation
  queued : record.view.status = .queued → record.decision = none ∧
    (∀ key, record.operations key = none) ∧ .recoverEntered ∉ w.history
  switched : (record.operations .switch).isSome →
    (record.operations .fence).isSome ∧ BackedUp record w.history
  switchCalled : .switchCalled ∈ w.history → (record.operations .switch).isSome
  restoring : (record.operations .restoreDeployment).isSome → .recoverEntered ∈ w.history
  deployment : record.operations .restoreDeployment = some .done →
    w.installation = record.originalInstallation
  restoreCalled : .restoreCalled ∈ w.history → (record.operations .restoreData).isSome
  restoredOnce : w.history.countP Event.restores ≤ 1
  loaded : ∀ r, .jobRead r ∈ w.history → (r.operations .restoreData).isSome →
    (record.operations .restoreData).isSome
  decided : ∀ e ∈ w.history, e.decides → record.decision.isSome
  reopened : ∀ e ∈ w.history, e.reopens → record.decision.isSome ∨
    (record.operations .switch = none ∧ .recoverEntered ∈ w.history)
  committed : record.decision = some .commitDecided →
    record.operations .verify = some .done ∧ record.operations .helper = some .done ∧
    record.operations .persistInstallation = some .done ∧
    w.installation = commitInstallation record.originalInstallation record.plan
  restored : record.decision = some .restoreDecided →
    record.operations .restoreData = some .done ∧
    record.operations .restoreDeployment = some .done
  succeeded : record.view.status = .succeeded → record.decision = some .commitDecided
  rolledBack : record.view.status = .rolledBack → record.decision = some .restoreDecided ∧
    ∀ component, w.deployed component =
      record.originalInstallation.deployment.release (record.originalInstallation.current component)
  failed : record.view.status = .failed → record.operations .switch = none
  recovery : ¬FenceLost w.history → record.view.status = .recoveryRequired →
    record.decision = none → fenced w

def Quiet (w : World) : Prop :=
  w.maintenance = some ⟨w.job.view.jobId, true, false⟩ ∧ Quiesced w.history ∧
    w.running = fun _ ↦ false

/-- Where a restore may start: the point of no return lies ahead and no attempt
before this one got as far. -/
structure Returnable (w : World) : Prop where
  undecided : ∀ e ∈ w.history, ¬e.decides
  closed : ∀ e ∈ w.history, ¬e.reopens
  first : .restoreCalled ∉ w.history
  loaded : ∀ r, .jobRead r ∈ w.history → r.operations .restoreData = none
  intent : w.job.operations .restoreData = some .intent
  deployment : w.job.operations .restoreDeployment = some .done

/-- What the worker has made sure of before it issues a command. -/
def guard (accepted : JobRecord) : Command → World → Prop
  | .saveJob record, w => w.job.terminal = false ∧ Journal accepted record w ∧
      ((record.operations .switch).isSome → record.snapshot = w.job.snapshot)
  | .writeMaintenance state, w => w.job.decision.isSome ∨ (w.job.view.status = .running ∧
      (state.active = true ∨
        (w.job.operations .switch = none ∧ .recoverEntered ∈ w.history)))
  | .enterRecover, w => w.job.view.status = .running
  | .backup _, w => Quiet w
  | .restore _ _, w => Quiet w ∧ Returnable w
  | .switchApplications _ _, w => w.job.decision = none ∧
      (w.job.operations .switch).isSome ∧ BackedUp w.job w.history
  | .restoreDeployment _ _, w => w.job.decision = none ∧
      w.job.operations .restoreDeployment = some .intent
  | .commit _ _, w => w.job.decision = none ∧ w.job.operations .restoreDeployment = none
  | _, _ => True

/-- What a record must say before an event may join its history. -/
def Event.admissible (record : JobRecord) (history : List Event) : Event → Prop
  | .recoverEntered => record.view.status ≠ .queued
  | .switchCalled => (record.operations .switch).isSome
  | .restoreCalled => (record.operations .restoreData).isSome ∧ .restoreCalled ∉ history
  | .jobRead r => (r.operations .restoreData).isSome → (record.operations .restoreData).isSome
  | .jobSaved r => r.decision.isSome → record.decision.isSome
  | .maintenanceWritten state => state.active = false → record.decision.isSome ∨
      (record.operations .switch = none ∧ .recoverEntered ∈ history)
  | _ => True

theorem BackedUp.push {record : JobRecord} {history : List Event} (h : BackedUp record history)
    (e : Event) : BackedUp record (e :: history) := by
  obtain ⟨snapshot, hs, hm⟩ := h
  exact ⟨snapshot, hs, List.mem_cons_of_mem _ hm⟩

namespace Journal

variable {accepted record : JobRecord} {w w' : World}

theorem push {e : Event} (h : Journal accepted record w)
    (he : e.admissible record w.history) : Journal accepted record (w.record e) where
  jobId := h.jobId
  plan := h.plan
  original := h.original
  queued hq := by
    obtain ⟨hd, ho, hr⟩ := h.queued hq
    refine ⟨hd, ho, fun hm ↦ ?_⟩
    rcases List.mem_cons.mp hm with rfl | hm
    · exact he hq
    · exact hr hm
  switched hs := ⟨(h.switched hs).1, (h.switched hs).2.push e⟩
  switchCalled hm := by
    rcases List.mem_cons.mp hm with rfl | hm
    · exact he
    · exact h.switchCalled hm
  restoring hr := List.mem_cons_of_mem _ (h.restoring hr)
  deployment := h.deployment
  restoreCalled hm := by
    rcases List.mem_cons.mp hm with rfl | hm
    · exact he.1
    · exact h.restoreCalled hm
  restoredOnce := by
    by_cases hr : e.restores = true
    · obtain rfl : e = .restoreCalled := by
        cases e <;> first | rfl | cases hr
      have hz : w.history.countP Event.restores = 0 := by
        rw [List.countP_eq_zero]
        intro e hm hr
        obtain rfl : e = .restoreCalled := by
          cases e <;> first | rfl | cases hr
        exact he.2 hm
      exact Nat.le_of_eq ((List.countP_cons_of_pos hr).trans (by rw [hz]))
    · exact (List.countP_cons_of_neg hr).symm ▸ h.restoredOnce
  loaded r hm hr := by
    rcases List.mem_cons.mp hm with rfl | hm
    · exact he hr
    · exact h.loaded r hm hr
  decided e' hm hd := by
    rcases List.mem_cons.mp hm with rfl | hm
    · cases e' <;> first | exact he hd | cases hd
    · exact h.decided e' hm hd
  reopened e' hm ho := by
    rcases List.mem_cons.mp hm with rfl | hm
    · cases e' <;> first | exact (he ho).imp_right (.imp_right (List.mem_cons_of_mem _)) | cases ho
    · exact (h.reopened e' hm ho).imp_right (.imp_right (List.mem_cons_of_mem _))
  committed := h.committed
  restored := h.restored
  succeeded := h.succeeded
  rolledBack := h.rolledBack
  failed := h.failed
  recovery hf := h.recovery fun hl ↦ hf (.inr hl)

theorem change (h : Journal accepted record w) (hh : w'.history = w.history)
    (hi : w'.installation = w.installation ∨
      (record.decision = none ∧ record.operations .restoreDeployment ≠ some .done))
    (hd : w'.deployed = w.deployed ∨ record.decision = none)
    (hm : w'.maintenance = w.maintenance ∨ record.decision.isSome ∨
      record.view.status = .running) : Journal accepted record w' := by
  obtain ⟨job, maintenance, installation, deployed, running, history⟩ := w'
  simp only at hh hi hd hm
  subst hh
  refine { h with deployment := ?_, committed := ?_, rolledBack := ?_, recovery := ?_ }
  · intro hr
    rcases hi with hi | ⟨-, hi⟩
    · exact hi.trans (h.deployment hr)
    · exact absurd hr hi
  · intro hc
    obtain ⟨hv, hh, hp, hinst⟩ := h.committed hc
    refine ⟨hv, hh, hp, ?_⟩
    rcases hi with hi | ⟨hi, -⟩
    · exact hi.trans hinst
    · rw [hi] at hc
      cases hc
  · intro hs
    obtain ⟨hr, hdep⟩ := h.rolledBack hs
    refine ⟨hr, fun component ↦ ?_⟩
    rcases hd with hd | hd
    · exact (congrFun hd component).trans (hdep component)
    · rw [hd] at hr
      cases hr
  · intro hf hs hn
    rcases hm with hm | hm | hm
    · simpa only [fenced, hm] using h.recovery hf hs hn
    · rw [hn] at hm
      cases hm
    · rw [hs] at hm
      cases hm

theorem stamp (h : Journal accepted record w) (now : ℕ) :
    Journal accepted (record.stamp now) w := by
  cases h
  constructor <;> assumption

theorem unstamp {now : ℕ} (h : Journal accepted (record.stamp now) w) :
    Journal accepted record w := by
  cases h
  constructor <;> assumption

theorem set_running (h : Journal accepted record w) (running : Component → Bool) :
    Journal accepted record { w with running := running } :=
  h.change rfl (.inl rfl) (.inl rfl) (.inl rfl)

theorem deploy (h : Journal accepted record w) (hn : record.decision = none)
    (deployed : Component → String) (o : Choice) :
    Journal accepted record (w.deploy deployed o).1 := by
  rcases ho : o.ending with _ | _ | _ <;> simp only [World.deploy, ho] <;>
    exact h.change rfl (.inl rfl) (.inr hn) (.inl rfl)

theorem install (h : Journal accepted record w) (hn : record.decision = none)
    (hr : record.operations .restoreDeployment ≠ some .done) (installation : Installation)
    (o : Choice) : Journal accepted record (w.install installation o) := by
  unfold World.install
  split
  · exact h.change rfl (.inr ⟨hn, hr⟩) (.inl rfl) (.inl rfl)
  · exact h

theorem fence {state : MaintenanceState} (h : Journal accepted record w)
    (hs : record.decision.isSome ∨ (record.view.status = .running ∧ (state.active = true ∨
      (record.operations .switch = none ∧ .recoverEntered ∈ w.history)))) (o : Choice) :
    Journal accepted record (w.writeMaintenance state o).1 := by
  have hv : Journal accepted record (if o.visible then
      { w with maintenance := some state }.record (.maintenanceWritten state) else w) := by
    cases o.visible
    · exact h
    · refine Journal.push (h.change rfl (.inl rfl) (.inl rfl) (.inr (hs.imp_right And.left))) ?_
      intro ha
      refine hs.imp_right fun ⟨_, hr⟩ ↦ hr.resolve_left ?_
      rw [ha]
      exact Bool.false_ne_true
  rcases ho : o.ending with _ | _ | _
  · simpa only [World.writeMaintenance, ho] using hv
  · simpa only [World.writeMaintenance, ho] using
      hv.push (e := .maintenanceFailed w.job w.maintenance state o.landed) trivial
  · simpa only [World.writeMaintenance, ho] using hv

theorem saved (h : Journal accepted w.job w) (hr : Journal accepted record w) (o : Choice) :
    Journal accepted (w.saveJob record o).1.job (w.saveJob record o).1 := by
  have hw : Journal accepted (record.stamp o.clock) { w with job := record.stamp o.clock } :=
    (hr.stamp o.clock).change rfl (.inl rfl) (.inl rfl) (.inl rfl)
  rcases ho : o.ending with _ | _ | _
  · simp only [World.saveJob, Choice.visible, ho, if_true]
    exact hw.push id
  · rcases hl : o.landed with _ | _
    · simpa [World.saveJob, Choice.visible, ho, hl] using h
    · simpa [World.saveJob, Choice.visible, ho, hl] using hw
  · rcases hl : o.landed with _ | _
    · simpa [World.saveJob, Choice.visible, ho, hl] using h
    · simpa [World.saveJob, Choice.visible, ho, hl] using hw

/-- Every command the worker has grounds to issue keeps the journal sound,
however far the command gets. -/
theorem exec {c : Command} (h : Journal accepted w.job w) (hg : guard accepted c w)
    (o : Choice) : Journal accepted (exec c o w).1.job (exec c o w).1 := by
  cases c with
  | now | fingerprint | exactManifest | blockers | prepare | updateHelper | startWorker | validate =>
    exact h
  | readJob => exact h.push id
  | saveJob record => exact h.saved hg.2.1 o
  | writeMaintenance state =>
    simpa only [Updater.exec, World.writeMaintenance_job] using h.fence hg o
  | enterRecover => 
    refine h.push fun hq ↦ ?_
    rw [guard, hq] at hg
    cases hg
  | stopApplications =>
    rcases ho : o.ending with _ | _ | _ <;> simp only [Updater.exec, ho]
    · exact (h.set_running _).push trivial
    · exact h.set_running _
    · exact h.set_running _
  | switchApplications installation plan =>
    have hs : Journal accepted w.job (w.record .switchCalled) := h.push hg.2.1
    simpa only [Updater.exec, World.deploy_job, World.record] using hs.deploy hg.1 _ o
  | startApplications => exact (h.set_running _).push trivial
  | verify installation plan restored => simpa only [Updater.exec, World.verify_fst] using h
  | restoreDeployment installation job =>
    have hr : w.job.operations .restoreDeployment ≠ some .done := by simp [hg.2]
    simpa only [Updater.exec, World.restoreDeployment, World.deploy_job, World.install_job] using
      (h.install hg.1 hr _ o).deploy hg.1 _ o
  | commit installation plan =>
    have hr : w.job.operations .restoreDeployment ≠ some .done := by simp [hg.2]
    simpa only [Updater.exec, World.commit, World.install_job] using h.install hg.1 hr _ o
  | backup context =>
    rcases ho : o.ending with _ | _ | _ <;> simp only [Updater.exec, ho]
    · exact h.push trivial
    · exact h
    · exact h
  | restore context snapshot =>
    exact h.push ⟨by simp [hg.2.intent], hg.2.first⟩

end Journal

end RustdeskConsole.Updater
