import RustdeskConsole.Updater.WorkerRules

namespace RustdeskConsole.Updater

open Effects Function Worker

/-- The memory of an undecided attempt agrees with the file: everything but the
progress of a current operation was saved. -/
structure Aligned (s job : JobRecord) : Prop where
  running : s.view.status = .running
  saved : job.view.status = .running
  decision : s.decision = none
  undecided : job.decision = none
  jobId : s.view.jobId = job.view.jobId
  plan : s.plan = job.plan
  original : s.originalInstallation = job.originalInstallation
  operations : s.operations = job.operations
  snapshot : (s.operations .switch).isSome → s.snapshot = job.snapshot

namespace Aligned

variable {accepted s r : JobRecord} {w : World}

theorem stamped (hs : r.view.status = .running) (hd : r.decision = none) (now : ℕ) :
    Aligned r (r.stamp now) :=
  ⟨hs, hs, hd, hd, rfl, rfl, rfl, rfl, fun _ ↦ rfl⟩

theorem not_terminal {job : JobRecord} (h : Aligned s job) : job.terminal = false := by
  simp [JobRecord.terminal, h.saved]

/-- What an undecided attempt may save. -/
theorem journal (h : Aligned s w.job) (hj : Journal accepted w.job w)
    (hid : r.view.jobId = s.view.jobId) (hp : r.plan = s.plan)
    (ho : r.originalInstallation = s.originalInstallation) (hd : r.decision = none)
    (hst : r.view.status = .running ∨
      (r.view.status = .failed ∧ r.operations .switch = none) ∨
      (r.view.status = .recoveryRequired ∧ (¬FenceLost w.history → fenced w)))
    (hops : ∀ key, (s.operations key).isSome → (r.operations key).isSome)
    (hsw : (r.operations .switch).isSome → (r.operations .fence).isSome ∧
      BackedUp r w.history ∧ ∀ e ∈ w.history, ¬e.reopens)
    (hrec : (r.operations .restoreDeployment).isSome → .recoverEntered ∈ w.history)
    (hdep : r.operations .restoreDeployment = some .done →
      w.installation = r.originalInstallation) : Journal accepted r w where
  jobId := hid.trans (h.jobId.trans hj.jobId)
  plan := hp.trans (h.plan.trans hj.plan)
  original := ho.trans (h.original.trans hj.original)
  queued hq := by
    rcases hst with hst | ⟨hst, -⟩ | ⟨hst, -⟩ <;> rw [hst] at hq <;> cases hq
  switched hs := ⟨(hsw hs).1, (hsw hs).2.1⟩
  switchCalled hm := hops _ (by rw [h.operations]; exact hj.switchCalled hm)
  restoring := hrec
  deployment := hdep
  restoreCalled hm := hops _ (by rw [h.operations]; exact hj.restoreCalled hm)
  restoredOnce := hj.restoredOnce
  loaded r' hm hr := hops _ (by rw [h.operations]; exact hj.loaded r' hm hr)
  decided e hm he := by
    have hs := hj.decided e hm he
    rw [h.undecided] at hs
    cases hs
  reopened e hm he := by
    rcases hj.reopened e hm he with hs | ⟨-, hr⟩
    · rw [h.undecided] at hs
      cases hs
    · refine .inr ⟨?_, hr⟩
      by_contra hn
      exact (hsw (Option.isSome_iff_ne_none.mpr hn)).2.2 e hm he
  committed hc := by rw [hd] at hc; cases hc
  restored hc := by rw [hd] at hc; cases hc
  succeeded hs := by
    rcases hst with hst | ⟨hst, -⟩ | ⟨hst, -⟩ <;> rw [hst] at hs <;> cases hs
  rolledBack hs := by
    rcases hst with hst | ⟨hst, -⟩ | ⟨hst, -⟩ <;> rw [hst] at hs <;> cases hs
  failed hs := by
    rcases hst with hst | ⟨-, hn⟩ | ⟨hst, -⟩
    · rw [hst] at hs
      cases hs
    · exact hn
    · rw [hst] at hs
      cases hs
  recovery hf hs _ := by
    rcases hst with hst | ⟨hst, -⟩ | ⟨-, hw⟩
    · rw [hst] at hs
      cases hs
    · rw [hst] at hs
      cases hs
    · exact hw hf

theorem closed (h : Aligned s w.job) (hj : Journal accepted w.job w)
    (hs : (s.operations .switch).isSome) : ∀ e ∈ w.history, ¬e.reopens := by
  intro e hm he
  rcases hj.reopened e hm he with hd | ⟨hn, -⟩
  · rw [h.undecided] at hd
    cases hd
  · rw [h.operations, hn] at hs
    cases hs

theorem backedUp (h : Aligned s w.job) (hj : Journal accepted w.job w)
    (hs : (s.operations .switch).isSome) : BackedUp s w.history := by
  have hsw : (w.job.operations .switch).isSome := h.operations ▸ hs
  obtain ⟨-, snapshot, hn, hm⟩ := hj.switched hsw
  exact ⟨snapshot, (h.snapshot hs).trans hn, hm⟩

/-- A save that leaves the operations alone. -/
theorem journal_same (h : Aligned s w.job) (hj : Journal accepted w.job w)
    (hid : r.view.jobId = s.view.jobId) (hp : r.plan = s.plan)
    (ho : r.originalInstallation = s.originalInstallation) (hd : r.decision = none)
    (hops : r.operations = s.operations) (hsn : r.snapshot = s.snapshot)
    (hst : r.view.status = .running ∨
      (r.view.status = .failed ∧ r.operations .switch = none) ∨
      (r.view.status = .recoveryRequired ∧ (¬FenceLost w.history → fenced w))) :
    Journal accepted r w := by
  have hjob : r.operations = w.job.operations := hops.trans h.operations
  refine h.journal hj hid hp ho hd hst (fun key hk ↦ hops ▸ hk) (fun hs ↦ ?_) (fun hr ↦ ?_)
    fun hr ↦ ?_
  · have hss : (s.operations .switch).isSome := hops ▸ hs
    obtain ⟨snapshot, hn, hm⟩ := h.backedUp hj hss
    exact ⟨hjob ▸ (hj.switched (hjob ▸ hs)).1, ⟨snapshot, hsn.trans hn, hm⟩, h.closed hj hss⟩
  · exact hj.restoring (hjob ▸ hr)
  · rw [ho, h.original]
    exact hj.deployment (hjob ▸ hr)

end Aligned

/-- A job is marked running when it is first picked up, and again when `recover`
asks for another attempt. -/
theorem Journal.setRunning {accepted record : JobRecord} {w : World}
    (h : Journal accepted record w) : Journal accepted (record.setStatus .running) w := by
  have hrun : (record.setStatus .running).view.status = .running := rfl
  exact { h with
    queued := fun hs ↦ by rw [hrun] at hs; cases hs
    succeeded := fun hs ↦ by rw [hrun] at hs; cases hs
    rolledBack := fun hs ↦ by rw [hrun] at hs; cases hs
    failed := fun hs ↦ by rw [hrun] at hs; cases hs
    recovery := fun _ hs ↦ by rw [hrun] at hs; cases hs }

/-- What has to hold before the intent of an operation may be saved. -/
def Enabled (s : JobRecord) (w : World) : OperationKey → Prop
  | .switch => (s.operations .fence).isSome ∧ BackedUp s w.history ∧ s.snapshot = w.job.snapshot ∧
      ∀ e ∈ w.history, ¬e.reopens
  | .restoreDeployment => .recoverEntered ∈ w.history
  | _ => True

/-- What an operation has to leave behind before it may be called done. -/
def Achieved (s : JobRecord) (w : World) : OperationKey → Prop
  | .restoreDeployment => w.installation = s.originalInstallation
  | _ => True

namespace Aligned

variable {accepted s : JobRecord} {w : World} {key : OperationKey} {state : OperationState}

theorem journal_setOperation (h : Aligned s w.job) (hj : Journal accepted w.job w)
    (he : Enabled s w key ∨ (s.operations key).isSome)
    (ha : state = .done → Achieved s w key) : Journal accepted (s.setOperation key state) w := by
  refine h.journal hj rfl rfl rfl h.decision (.inl h.running) (fun k hk ↦ ?_) (fun hs ↦ ?_)
    (fun hr ↦ ?_) fun hr ↦ ?_
  · by_cases hkey : k = key
    · subst hkey
      simp
    · rwa [s.setOperation_of_ne state hkey]
  · have hcase : (s.operations .switch).isSome ∨ key = .switch ∧ Enabled s w .switch := by
      by_cases hkey : key = .switch
      · subst hkey
        exact he.symm.imp_right fun he ↦ ⟨rfl, he⟩
      · rw [s.setOperation_of_ne state (Ne.symm hkey)] at hs
        exact .inl hs
    have hf : (s.operations .fence).isSome → ((s.setOperation key state).operations .fence).isSome := by
      intro hf
      by_cases hkey : key = .fence
      · subst hkey
        simp
      · rwa [s.setOperation_of_ne state (Ne.symm hkey)]
    rcases hcase with hs | ⟨-, hfence, hb, -, hc⟩
    · have hfence := (hj.switched (h.operations ▸ hs)).1
      exact ⟨hf (h.operations ▸ hfence), h.backedUp hj hs, h.closed hj hs⟩
    · exact ⟨hf hfence, hb, hc⟩
  · by_cases hkey : key = .restoreDeployment
    · subst hkey
      rcases he with he | he
      · exact he
      · exact hj.restoring (h.operations ▸ he)
    · rw [s.setOperation_of_ne state (Ne.symm hkey), h.operations] at hr
      exact hj.restoring hr
  · by_cases hkey : key = .restoreDeployment
    · subst hkey
      rw [s.setOperation_self] at hr
      exact ha (Option.some.inj hr)
    · rw [s.setOperation_of_ne state (Ne.symm hkey), h.operations] at hr
      exact (hj.deployment hr).trans h.original.symm

theorem guard_setOperation (h : Aligned s w.job)
    (he : Enabled s w key ∨ (s.operations key).isSome) (ha : state = .done → Achieved s w key)
    (hj : Journal accepted w.job w) :
    guard accepted (.saveJob (s.setOperation key state)) w := by
  refine ⟨h.not_terminal, h.journal_setOperation hj he ha, fun hs ↦ ?_⟩
  by_cases hkey : key = .switch
  · subst hkey
    rcases he with he | he
    · exact he.2.2.1
    · exact h.snapshot he
  · rw [s.setOperation_of_ne state (Ne.symm hkey)] at hs
    exact h.snapshot hs

end Aligned

/-- The first attempt on its way to the commit decision. -/
structure Underway (s : JobRecord) (w : World) : Prop where
  aligned : Aligned s w.job
  first : .recoverEntered ∉ w.history

structure Isolated (s : JobRecord) (w : World) : Prop extends Underway s w where
  quiet : Quiet w
  fence : (s.operations .fence).isSome
  unswitched : s.operations .switch = none

def Recoverable (e : Failure) (s : JobRecord) (w : World) : Prop :=
  e ≠ .journal → Aligned s w.job

theorem Recoverable.journal (s : JobRecord) (w : World) : Recoverable .journal s w :=
  fun h ↦ absurd rfl h

theorem Aligned.kept {s : JobRecord} {w w' : World} (h : Aligned s w.job) (hk : Kept w w') :
    Aligned s w'.job := hk.job ▸ h

theorem Quiet.saved {r : JobRecord} {w : World} (h : Quiet w)
    (hid : r.view.jobId = w.job.view.jobId) (now : ℕ) : Quiet (w.saved r now) := by
  obtain ⟨hm, hq, hr⟩ := h
  refine ⟨hm.trans ?_, hq, hr⟩
  rw [← hid]
  rfl

theorem Aligned.setSnapshot {s job : JobRecord} (h : Aligned s job)
    (hn : s.operations .switch = none) (snapshot : BackupSnapshot) :
    Aligned (s.setSnapshot snapshot) job :=
  { h with snapshot := fun hs ↦ by simp [JobRecord.setSnapshot, hn] at hs }

namespace Underway

variable {s r : JobRecord} {w w' : World}

theorem saved (h : Underway s w) (hs : r.view.status = .running) (hd : r.decision = none)
    (now : ℕ) : Underway r (w.saved r now) := by
  refine ⟨.stamped hs hd now, ?_⟩
  simpa [World.saved, World.record] using h.first

theorem setOperation (h : Underway s w) (key : OperationKey) (state : OperationState) (now : ℕ) :
    Underway (s.setOperation key state) (w.saved (s.setOperation key state) now) :=
  h.saved (r := s.setOperation key state) h.aligned.running h.aligned.decision now

theorem setPhase (h : Underway s w) (p : JobPhase) (now : ℕ) :
    Underway (s.setPhase p) (w.saved (s.setPhase p) now) :=
  h.saved (r := s.setPhase p) h.aligned.running h.aligned.decision now

theorem fence (h : Underway s w) (state : MaintenanceState) : Underway s (w.wrote state) := by
  refine ⟨h.aligned, ?_⟩
  simpa [World.wrote, World.record] using h.first

theorem closed {accepted : JobRecord} (h : Underway s w) (hj : Journal accepted w.job w) :
    ∀ e ∈ w.history, ¬e.reopens := by
  intro e hm he
  rcases hj.reopened e hm he with hd | ⟨-, hr⟩
  · rw [h.aligned.undecided] at hd
    cases hd
  · exact h.first hr

theorem setSnapshot (h : Underway s w) (hn : s.operations .switch = none)
    (snapshot : BackupSnapshot) :
    Underway (s.setSnapshot snapshot) (w.record (.backupTaken snapshot)) := by
  refine ⟨h.aligned.setSnapshot hn snapshot, ?_⟩
  simpa [World.record] using h.first

theorem kept (h : Underway s w) (hk : Kept w w') : Underway s w' :=
  ⟨h.aligned.kept hk, fun hm ↦ h.first (hk.recover.mp hm)⟩

theorem recoverable (h : Underway s w) (e : Failure) : Recoverable e s w := fun _ ↦ h.aligned

theorem installed (h : Underway s w) (installation : Installation) :
    Underway s { w with installation := installation } := ⟨h.aligned, h.first⟩

theorem stopped (h : Underway s w) : Underway s w.stopped := by
  refine ⟨h.aligned, ?_⟩
  simpa [World.stopped, World.record] using h.first

end Underway

/-- An attempt to get back behind the fence. -/
structure Recovering (s : JobRecord) (w : World) : Prop where
  aligned : Aligned s w.job
  entered : .recoverEntered ∈ w.history

/-- Where `recover` gives up. -/
def Unproved (e : Failure) (s : JobRecord) (w : World) : Prop :=
  e ≠ .journal → Aligned s w.job ∧ (¬FenceLost w.history → fenced w)

theorem Unproved.journal (s : JobRecord) (w : World) : Unproved .journal s w :=
  fun h ↦ absurd rfl h

theorem Quiet.fenced {w : World} (h : Quiet w) : fenced w := by
  simp [Updater.fenced, h.1]

theorem Quiet.kept {w w' : World} (h : Quiet w) (hk : Kept w w') (hh : w'.history = w.history)
    (hr : w'.running = w.running) : Quiet w' := by
  obtain ⟨hm, hq, hn⟩ := h
  exact ⟨by rw [hk.maintenance, hk.job, hm], hh ▸ hq, hr.trans hn⟩

namespace Recovering

variable {s r : JobRecord} {w w' : World}

theorem saved (h : Recovering s w) (hs : r.view.status = .running) (hd : r.decision = none)
    (now : ℕ) : Recovering r (w.saved r now) :=
  ⟨.stamped hs hd now, .tail _ h.entered⟩

theorem setOperation (h : Recovering s w) (key : OperationKey) (state : OperationState)
    (now : ℕ) : Recovering (s.setOperation key state) (w.saved (s.setOperation key state) now) :=
  h.saved (r := s.setOperation key state) h.aligned.running h.aligned.decision now

theorem setPhase (h : Recovering s w) (p : JobPhase) (now : ℕ) :
    Recovering (s.setPhase p) (w.saved (s.setPhase p) now) :=
  h.saved (r := s.setPhase p) h.aligned.running h.aligned.decision now

theorem fence (h : Recovering s w) (state : MaintenanceState) : Recovering s (w.wrote state) :=
  ⟨h.aligned, .tail _ h.entered⟩

theorem stopped (h : Recovering s w) : Recovering s w.stopped := ⟨h.aligned, .tail _ h.entered⟩

theorem kept (h : Recovering s w) (hk : Kept w w') : Recovering s w' :=
  ⟨h.aligned.kept hk, hk.recover.mpr h.entered⟩

theorem unproved (h : Recovering s w) (hf : fenced w) (e : Failure) (hk : Kept w w') :
    Unproved e s w' := by
  refine fun _ ↦ ⟨h.aligned.kept hk, fun _ ↦ ?_⟩
  rw [fenced, hk.maintenance]
  exact hf

/-- A failed maintenance write either leaves the fence or counts as having lost it. -/
theorem failed (h : Recovering s w) (state : MaintenanceState) (landed : Bool) (e : Failure) :
    Unproved e s ((if landed then w.wrote state else w).record
      (.maintenanceFailed w.job w.maintenance state landed)) := by
  refine fun _ ↦ ⟨by cases landed <;> exact h.aligned, fun hl ↦ ?_⟩
  have hentered : .recoverEntered ∈ (if landed then w.wrote state else w).history := by
    cases landed
    · exact h.entered
    · exact .tail _ h.entered
  by_contra hf
  refine hl (.inl ⟨⟨h.aligned.undecided, ?_⟩, hentered⟩)
  cases landed <;> simpa [businessWritesAllowed, fenced, World.wrote, World.record] using hf

end Recovering

/-- No attempt has got as far as restoring data. -/
def Unattempted (w : World) : Prop :=
  .restoreCalled ∉ w.history ∧ ∀ r, .jobRead r ∈ w.history → r.operations .restoreData = none

theorem Journal.unattempted {accepted s : JobRecord} {w : World} (h : Journal accepted s w)
    (hn : s.operations .restoreData = none) : Unattempted w := by
  refine ⟨fun hm ↦ ?_, fun r hm ↦ ?_⟩
  · have hs := h.restoreCalled hm
    rw [hn] at hs
    cases hs
  · by_contra hr
    have hs := h.loaded r hm (Option.isSome_iff_ne_none.mpr hr)
    rw [hn] at hs
    cases hs

theorem Unattempted.saved {w : World} (h : Unattempted w) (r : JobRecord) (now : ℕ) :
    Unattempted (w.saved r now) := by
  simpa [Unattempted, World.saved, World.record] using h

/-- What makes a decision true. -/
def Earned (s : JobRecord) (w : World) : Decision → Prop
  | .commitDecided => s.operations .verify = some .done ∧ s.operations .helper = some .done ∧
      s.operations .persistInstallation = some .done ∧
      w.installation = commitInstallation s.originalInstallation s.plan
  | .restoreDecided => s.operations .restoreData = some .done ∧
      s.operations .restoreDeployment = some .done

theorem Aligned.journal_setDecision {accepted s : JobRecord} {w : World} {decision : Decision}
    (h : Aligned s w.job) (hj : Journal accepted w.job w) (hd : Earned s w decision) :
    Journal accepted (s.setDecision decision) w := by
  have hs : Journal accepted s w := h.journal_same hj rfl rfl rfl h.decision rfl rfl (.inl h.running)
  have hrun : (s.setDecision decision).view.status = .running := h.running
  refine { hs with queued := ?_, decided := fun _ _ _ ↦ rfl, reopened := fun _ _ _ ↦ .inl rfl,
                   committed := ?_, restored := ?_, succeeded := ?_, rolledBack := ?_,
                   recovery := fun _ _ hn ↦ nomatch hn }
  · intro hq
    rw [hrun] at hq
    cases hq
  · intro hc
    obtain rfl : decision = .commitDecided := Option.some.inj hc
    exact hd
  · intro hc
    obtain rfl : decision = .restoreDecided := Option.some.inj hc
    exact hd
  · intro hq
    rw [hrun] at hq
    cases hq
  · intro hq
    rw [hrun] at hq
    cases hq

/-- A decision was persisted and the memory knows it. -/
structure Decided (accepted s : JobRecord) (w : World) : Prop where
  decision : s.decision.isSome
  journal : Journal accepted s w
  unfinished : w.job.terminal = false
  running : s.view.status = .running
  snapshot : (s.operations .switch).isSome → s.snapshot = w.job.snapshot

namespace Decided

variable {accepted s : JobRecord} {w : World}

theorem saved (h : Decided accepted s w) (now : ℕ) : Decided accepted s (w.saved s now) where
  decision := h.decision
  journal := by
    have hj : Journal accepted s { w with job := s.stamp now } :=
      h.journal.change rfl (.inl rfl) (.inl rfl) (.inl rfl)
    exact hj.push (e := .jobSaved s) id
  unfinished := by
    simp [World.saved, World.record, JobRecord.terminal, JobRecord.stamp, h.running]
  running := h.running
  snapshot _ := rfl

theorem wrote (h : Decided accepted s w) (state : MaintenanceState) :
    Decided accepted s (w.wrote state) := by
  have hj : Journal accepted s { w with maintenance := some state } :=
    h.journal.change rfl (.inl rfl) (.inl rfl) (.inr (.inl h.decision))
  exact { h with journal := hj.push (e := .maintenanceWritten state) fun _ ↦ .inl h.decision }

theorem failed (h : Decided accepted s w) (record : JobRecord) (before : Option MaintenanceState)
    (state : MaintenanceState) (landed : Bool) :
    Decided accepted s (w.record (.maintenanceFailed record before state landed)) :=
  { h with journal := h.journal.push (e := .maintenanceFailed record before state landed) trivial }

end Decided

end RustdeskConsole.Updater
