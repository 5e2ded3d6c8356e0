import RustdeskConsole.Updater.Attempt

namespace RustdeskConsole.Updater

open Effects Function Worker

namespace UpdateWorker

section Steps

variable {accepted s : JobRecord} {w : World}
  {Q : Unit → JobRecord → World → Prop} {E : Failure → JobRecord → World → Prop}

theorem operation_ensures {key : OperationKey} {action : Worker Unit} (h : Aligned s w.job)
    (he : Journal accepted w.job w → Enabled s w key) (hE : ∀ s w, E .journal s w)
    (ha : ∀ now, (logic accepted).Ensures () action
      (fun _ s' w' ↦ Aligned s' w'.job ∧ (s'.operations key).isSome ∧ Achieved s' w' key ∧
        ∀ now, Journal accepted (s'.setOperation key .done) (w'.saved (s'.setOperation key .done) now) →
          Q () (s'.setOperation key .done) (w'.saved (s'.setOperation key .done) now))
      E (s.setOperation key .intent) (w.saved (s.setOperation key .intent) now)) :
    (logic accepted).Ensures () (operation key action) Q E s w := by
  refine .bind (.modify (.bind (.get (.bind ?_))))
  refine saveJob_ensures (fun hj ↦ h.guard_setOperation (.inl (he hj)) (by simp) hj) (fun now _ ↦ ?_) (hE _)
  refine .bind ((ha now).mono ?_ fun _ _ _ h ↦ h)
  rintro _ s' w' ⟨h', hs, hd, hQ⟩
  refine .bind (.modify (.bind (.get ?_)))
  exact saveJob_ensures (h'.guard_setOperation (.inr hs) fun _ ↦ hd) hQ (hE _)

theorem phase_ensures {p : JobPhase} (h : Aligned s w.job) (hE : ∀ s w, E .journal s w)
    (hQ : ∀ now, Journal accepted (s.setPhase p) (w.saved (s.setPhase p) now) →
      Q () (s.setPhase p) (w.saved (s.setPhase p) now)) :
    (logic accepted).Ensures () (phase p) Q E s w := by
  refine .bind (.modify (.bind (.get ?_)))
  refine saveJob_ensures (fun hj ↦ ⟨h.not_terminal, ?_, h.snapshot⟩) hQ (hE _)
  exact h.journal_same hj rfl rfl rfl h.decision rfl rfl (.inl h.running)

theorem revalidateRelease_ensures {plan : PersistedPlan} {component : Component}
    (hQ : Q () s w) (hE : ∀ e, E e s w) :
    (logic accepted).Ensures () (revalidateRelease plan component) Q E s w :=
  .bind (still_ensures (fun _ ↦ rfl) trivial (fun _ ↦ assert_ensures hQ hE) hE)

theorem revalidate_ensures {installation : Installation} {plan : PersistedPlan} {execution : Bool}
    (hQ : Q () s w) (hE : ∀ e, E e s w) :
    (logic accepted).Ensures () (revalidate installation plan execution) Q E s w := by
  refine .bind (assert_ensures ?_ hE)
  cases execution
  case' false =>
    refine .bind (still_ensures (c := .now) (fun _ ↦ rfl) trivial (fun _ ↦ ?_) hE)
    refine .bind (assert_ensures ?_ hE)
  all_goals
    refine .bind (still_ensures (fun _ ↦ rfl) trivial (fun _ ↦ ?_) hE)
    refine .bind (assert_ensures ?_ hE)
    refine .bind (revalidateRelease_ensures (.bind (revalidateRelease_ensures ?_ hE)) hE)
    refine .bind (still_ensures (fun _ ↦ rfl) trivial (fun blockers ↦ ?_) hE)
    cases blockers with
    | nil => exact .pure hQ
    | cons blocker _ => exact .throw (hE _)

end Steps

section Finish

variable {accepted s : JobRecord} {w : World} {status : JobStatus} {code message : String}
  {Q : Unit → JobRecord → World → Prop} {E : Failure → JobRecord → World → Prop}

theorem finish_decided_ensures (h : Decided accepted s w)
    (hst : status = .recoveryRequired ∨
      (status = .succeeded ∧ s.decision = some .commitDecided) ∨
      (status = .rolledBack ∧ s.decision = some .restoreDecided ∧
        ∀ component, w.deployed component =
          s.originalInstallation.deployment.release (s.originalInstallation.current component)))
    (hQ : ∀ s w, Q () s w) (hE : ∀ s w, E .journal s w) :
    (logic accepted).Ensures () (finish status code message) Q E s w := by
  refine .bind (now_ensures fun t ↦ ?_)
  refine .bind (.modify (.bind (.get ?_)))
  refine saveJob_ensures (fun _ ↦ ⟨h.unfinished, ?_, h.snapshot⟩) (fun _ _ ↦ hQ _ _) (hE _)
  have hstatus : (finished s status code message t).view.status = status := rfl
  refine { h.journal with queued := ?_, succeeded := ?_, rolledBack := ?_, failed := ?_,
                          recovery := ?_ }
  · intro hs
    rcases hst with rfl | ⟨rfl, -⟩ | ⟨rfl, -⟩ <;> cases hs
  · intro hs
    rcases hst with rfl | ⟨rfl, hd⟩ | ⟨rfl, -⟩
    · cases hs
    · exact hd
    · cases hs
  · intro hs
    rcases hst with rfl | ⟨rfl, -⟩ | ⟨rfl, hd⟩
    · cases hs
    · cases hs
    · exact hd
  · intro hs
    rcases hst with rfl | ⟨rfl, -⟩ | ⟨rfl, -⟩ <;> cases hs
  · intro _ _ hn
    have hd := h.decision
    rw [show s.decision = none from hn] at hd
    cases hd

theorem completeDecision_ensures {installation : Installation} (h : Decided accepted s w)
    (hi : installation = accepted.originalInstallation)
    (hQ : ∀ s w, Q () s w) (hE : ∀ s w, E .journal s w) :
    (logic accepted).Ensures () (completeDecision installation) Q E s w := by
  have hrepair : ∀ {e w'}, Decided accepted s w' → e ≠ Failure.journal →
      (logic accepted).Ensures () (finish .recoveryRequired "POST_DECISION_REPAIR_REQUIRED"
        "The durable decision is preserved. Repair service availability without restoring an older database snapshot.")
        Q E s w' :=
    fun h' _ ↦ finish_decided_ensures h' (.inl rfl) hQ hE
  refine .bind (.get (unlessJournal_ensures hE ?_))
  refine .bind (saveJob_ensures (fun _ ↦ ⟨h.unfinished, h.journal, h.snapshot⟩) (fun t _ ↦ ?_)
    fun w' hn ↦ absurd rfl hn)
  have h₁ := h.saved t
  refine .bind (verify_ensures (fun hv ↦ ?_) fun e ↦ hrepair h₁)
  refine .bind (writeMaintenance_ensures (fun _ ↦ .inl h.decision) ?_ fun e landed ↦ ?_)
  · have h₂ := h₁.wrote ⟨s.view.jobId, false, true⟩
    by_cases hr : s.decision = some .restoreDecided
    · rw [if_pos hr]
      refine finish_decided_ensures h₂ (.inr (.inr ⟨rfl, hr, fun component ↦ ?_⟩)) hQ
        fun _ _ hn ↦ absurd rfl hn
      have hc := hv component
      rwa [if_pos (decide_eq_true hr), hi, ← h.journal.original] at hc
    · rw [if_neg hr]
      refine finish_decided_ensures h₂ (.inr (.inl ⟨rfl, ?_⟩)) hQ
        fun _ _ hn ↦ absurd rfl hn
      obtain ⟨decision, hd⟩ := Option.isSome_iff_exists.mp h.decision
      cases decision with
      | commitDecided => exact hd
      | restoreDecided => exact absurd hd hr
  · refine hrepair (.failed ?_ _ _ _ _)
    cases landed
    · exact h₁
    · exact h₁.wrote _

end Finish


theorem decide_ensures {accepted s : JobRecord} {w : World} {decision : Decision}
    {Q : Unit → JobRecord → World → Prop} {E : Failure → JobRecord → World → Prop}
    (h : Aligned s w.job) (hd : Earned s w decision) (hE : ∀ s w, E .journal s w)
    (hQ : ∀ t, Decided accepted (s.setDecision decision) (w.saved (s.setDecision decision) t) →
      Q () (s.setDecision decision) (w.saved (s.setDecision decision) t)) :
    (logic accepted).Ensures () (decide decision) Q E s w := by
  refine .bind (.get (.bind ?_))
  refine saveJob_ensures (fun hj ↦ ⟨h.not_terminal, h.journal_setDecision hj hd, h.snapshot⟩)
    (fun t hj ↦ .modify (hQ t ⟨rfl, hj, ?_, h.running, fun _ ↦ rfl⟩)) (hE _)
  exact (Aligned.stamped (r := s) h.running h.decision t).not_terminal

section Forward

variable {accepted s : JobRecord} {w : World} {installation : Installation}

theorem writeMaintenance_recoverable {active allowStart : Bool} {Q : Unit → JobRecord → World → Prop}
    (h : Underway s w) (ha : active = true)
    (hQ : Q () s (w.wrote ⟨s.view.jobId, active, allowStart⟩)) :
    (logic accepted).Ensures () (writeMaintenance s.view.jobId active allowStart) Q Recoverable s w := by
  refine writeMaintenance_ensures (fun _ ↦ .inr ⟨h.aligned.saved, .inl ha⟩) hQ fun e landed _ ↦ ?_
  cases landed <;> exact h.aligned

theorem prepareAndFence_ensures (h : Underway s w) (hs : s.operations .switch = none) :
    (logic accepted).Ensures () (prepareAndFence installation) (fun _ ↦ Isolated) Recoverable s w := by
  refine .bind (.get (.bind (revalidate_ensures ?_ h.recoverable)))
  refine .bind (operation_ensures h.aligned (fun _ ↦ trivial) Recoverable.journal fun t ↦ .bind (.get ?_))
  have h₁ := h.setOperation .prepare .intent t
  refine kept_ensures (c := .prepare installation s.plan) trivial (fun _ ↦ trivial)
    (fun _ w₁ hk ↦ ⟨h₁.aligned.kept hk, by simp, trivial, fun t _ ↦ ?_⟩)
    fun e w₁ hk ↦ (h₁.kept hk).recoverable e
  have h₂ := (h₁.kept hk).setOperation .prepare .done t
  refine .bind (phase_ensures h₂.aligned Recoverable.journal fun t _ ↦ ?_)
  have h₃ := h₂.setPhase .maintenance t
  refine .bind (operation_ensures h₃.aligned (fun _ ↦ trivial) Recoverable.journal fun t ↦ .bind (.get ?_))
  have h₄ := h₃.setOperation .fence .intent t
  refine writeMaintenance_recoverable h₄ rfl ⟨h₄.aligned, by simp, trivial, fun t _ ↦ ?_⟩
  have h₅ := (h₄.fence ⟨s.view.jobId, true, false⟩).setOperation .fence .done t
  refine operation_ensures h₅.aligned (fun _ ↦ trivial) Recoverable.journal fun t ↦ ?_
  have h₆ := h₅.setOperation .stop .intent t
  refine stopApplications_ensures ⟨h₆.aligned, by simp, trivial, fun t _ ↦ ?_⟩
    fun e w₁ hk ↦ (h₆.kept hk).recoverable e
  have h₇ := h₆.stopped.setOperation .stop .done t
  refine ⟨h₇, ⟨rfl, trivial, rfl⟩, ?_, ?_⟩
  · simp [JobRecord.setPhase]
  · simp [JobRecord.setPhase, hs]

theorem takeBackup_ensures {Q : Unit → JobRecord → World → Prop} (h : Underway s w) (hq : Quiet w)
    (hn : s.operations .switch = none) (hQ : ∀ snapshot, Q () (s.setSnapshot snapshot)
      (w.record (.backupTaken snapshot))) :
    (logic accepted).Ensures () (takeBackup installation) Q Recoverable s w := by
  refine .bind (.get (.bind ?_))
  refine backup_ensures rfl hq (fun snapshot ↦ ?_) fun e w₁ hk ↦ (h.kept hk).recoverable e
  exact .bind (.modify (still_ensures (c := .validate _ _) (fun _ ↦ rfl) trivial
    (fun _ ↦ hQ snapshot) fun e ↦ (h.setSnapshot hn snapshot).recoverable e))

theorem switch_ensures (h : Underway s w) (he : Journal accepted w.job w → Enabled s w .switch) :
    (logic accepted).Ensures ()
      (operation .switch do perform (.switchApplications installation (← get).plan) rfl)
      (fun _ ↦ Underway) Recoverable s w := by
  refine operation_ensures h.aligned he Recoverable.journal fun t ↦ .bind (.get ?_)
  have h₁ := h.setOperation .switch .intent t
  have hs : (s.setOperation .switch .intent).operations .switch = some .intent :=
    s.setOperation_self .switch .intent
  refine kept_ensures (c := .switchApplications _ _) trivial (fun hj ↦ ?_)
    (fun _ w₁ hk ↦ ⟨h₁.aligned.kept hk, by simp, trivial,
      fun t _ ↦ (h₁.kept hk).setOperation .switch .done t⟩) fun e w₁ hk ↦ (h₁.kept hk).recoverable e
  rw [h₁.aligned.operations] at hs
  have hsome : ((w.saved (s.setOperation .switch .intent) t).job.operations .switch).isSome := by
    simp [hs]
  exact ⟨h₁.aligned.undecided, hsome, (hj.switched hsome).2⟩

theorem backUpAndSwitch_ensures (h : Isolated s w) :
    (logic accepted).Ensures () (backUpAndSwitch installation) (fun _ ↦ Underway) Recoverable s w := by
  refine .bind (phase_ensures h.aligned Recoverable.journal fun t _ ↦ ?_)
  have h₁ := h.setPhase .backingUp t
  have q₁ : Quiet (w.saved (s.setPhase .backingUp) t) := h.quiet.saved h.aligned.jobId t
  refine .bind (operation_ensures h₁.aligned (fun _ ↦ trivial) Recoverable.journal fun t ↦ ?_)
  have h₂ := h₁.setOperation .backup .intent t
  have q₂ : Quiet _ := q₁.saved (r := (s.setPhase .backingUp).setOperation .backup .intent) rfl t
  have hn : ((s.setPhase .backingUp).setOperation .backup .intent).operations .switch = none := by
    simp [JobRecord.setPhase, h.unswitched]
  refine takeBackup_ensures h₂ q₂ hn fun snapshot ↦ ?_
  have h₃ := h₂.setSnapshot hn snapshot
  refine ⟨h₃.aligned, by simp [JobRecord.setSnapshot], trivial, fun t _ ↦ ?_⟩
  have h₄ := h₃.setOperation .backup .done t
  refine .bind (phase_ensures h₄.aligned Recoverable.journal fun t _ ↦ ?_)
  have h₅ := h₄.setPhase .switching t
  refine switch_ensures h₅ fun hj ↦ ⟨?_, ⟨snapshot, rfl, ?_⟩, rfl, h₅.closed hj⟩
  · simp [JobRecord.setPhase, JobRecord.setSnapshot, h.fence]
  · simp [World.saved, World.record]

theorem startBehindFence_ensures (h : Underway s w) :
    (logic accepted).Ensures () startBehindFence
      (fun _ ↦ Underway) Recoverable s w := by
  refine operation_ensures h.aligned (fun _ ↦ trivial) Recoverable.journal fun t ↦ .bind (.get ?_)
  have h₁ := h.setOperation .validationStart .intent t
  refine .bind (writeMaintenance_recoverable h₁ rfl ?_)
  have h₂ := h₁.fence ⟨s.view.jobId, true, true⟩
  exact kept_ensures (c := .startApplications) trivial (fun _ ↦ trivial)
    (fun _ w₁ hk ↦ ⟨h₂.aligned.kept hk, by simp, trivial,
      fun t _ ↦ (h₂.kept hk).setOperation .validationStart .done t⟩)
    fun e w₁ hk ↦ (h₂.kept hk).recoverable e

theorem verifyTargets_ensures (h : Underway s w) :
    (logic accepted).Ensures () (verifyTargets installation)
      (fun _ s' w' ↦ Underway s' w' ∧
        s'.operations .verify = some .done ∧ s'.operations .helper = some .done)
      Recoverable s w := by
  refine .bind (phase_ensures h.aligned Recoverable.journal fun t _ ↦ ?_)
  have h₁ := h.setPhase .verifying t
  refine .bind (operation_ensures h₁.aligned (fun _ ↦ trivial) Recoverable.journal fun t ↦ ?_)
  have h₂ := h₁.setOperation .verify .intent t
  refine .bind (.get (verify_ensures (fun _ ↦ ⟨h₂.aligned, by simp, trivial, fun t _ ↦ ?_⟩)
    h₂.recoverable))
  have h₃ := h₂.setOperation .verify .done t
  refine .bind (phase_ensures h₃.aligned Recoverable.journal fun t _ ↦ ?_)
  have h₄ := h₃.setPhase .updatingHelper t
  refine operation_ensures h₄.aligned (fun _ ↦ trivial) Recoverable.journal fun t ↦ ?_
  have h₅ := h₄.setOperation .helper .intent t
  refine .bind (.get (kept_ensures (c := .updateHelper _ _) trivial (fun _ ↦ trivial)
    (fun _ w₁ hk ↦ ⟨h₅.aligned.kept hk, by simp, trivial, fun t _ ↦ ?_⟩)
    fun e w₁ hk ↦ (h₅.kept hk).recoverable e))
  exact ⟨(h₅.kept hk).setOperation .helper .done t, by simp, by simp⟩

theorem persistInstallation_ensures (h : Underway s w)
    (hi : installation = accepted.originalInstallation) (hv : s.operations .verify = some .done)
    (hh : s.operations .helper = some .done) :
    (logic accepted).Ensures () (persistInstallation installation)
      (fun _ s' w' ↦ Underway s' w' ∧ Earned s' w' .commitDecided) Recoverable s w := by
  refine .bind (phase_ensures h.aligned Recoverable.journal fun t _ ↦ ?_)
  have h₁ := h.setPhase .committing t
  refine operation_ensures h₁.aligned (fun _ ↦ trivial) Recoverable.journal fun t ↦ .bind (.get ?_)
  have h₂ := h₁.setOperation .persistInstallation .intent t
  refine commit_ensures (fun hj ↦ ⟨h₂.aligned.undecided, ?_⟩)
    ⟨h₂.aligned, by simp, trivial, fun t hj ↦ ⟨?_, ?_⟩⟩ fun e w₁ hk ↦ (h₂.kept hk).recoverable e
  · by_contra hn
    exact h₂.first (hj.restoring (Option.isSome_iff_ne_none.mpr hn))
  · exact (h₂.installed _).setOperation .persistInstallation .done t
  · refine ⟨by simp [hv], by simp [hh], by simp, ?_⟩
    rw [hj.original, ← hi]
    rfl

end Forward

section Backward

variable {accepted s : JobRecord} {w : World} {installation : Installation}
  {Q : Unit → JobRecord → World → Prop}

theorem writeMaintenance_unproved {active allowStart : Bool} (h : Recovering s w)
    (ha : active = true ∨ s.operations .switch = none)
    (hQ : Q () s (w.wrote ⟨s.view.jobId, active, allowStart⟩)) :
    (logic accepted).Ensures () (writeMaintenance s.view.jobId active allowStart) Q Unproved s w := by
  refine writeMaintenance_ensures (fun _ ↦ .inr ⟨h.aligned.saved, ?_⟩) hQ
    fun e landed ↦ h.failed _ landed e
  exact ha.imp_right fun hn ↦ ⟨h.aligned.operations ▸ hn, h.entered⟩

theorem isolate_ensures (h : Recovering s w) :
    (logic accepted).Ensures () isolate
      (fun _ s' w' ↦ s' = s ∧ Recovering s w' ∧ ((s.operations .fence).isSome → Quiet w'))
      Unproved s w := by
  refine .bind (.get ?_)
  by_cases hf : (s.operations .fence).isSome
  · rw [if_pos hf]
    refine .bind (writeMaintenance_unproved h (.inl rfl) ?_)
    have h₁ := h.fence ⟨s.view.jobId, true, false⟩
    refine stopApplications_ensures ⟨rfl, h₁.stopped, fun _ ↦ ⟨?_, trivial, rfl⟩⟩
      fun e w₁ hk ↦ h₁.unproved rfl e hk
    simp [World.stopped, World.wrote, World.record, h.aligned.jobId]
  · rw [if_neg hf]
    exact .pure ⟨rfl, h, fun hs ↦ absurd hs hf⟩

theorem reopen_ensures (h : Recovering s w) :
    (logic accepted).Ensures () (reopen installation)
      (fun _ s' w' ↦ s' = s ∧ Recovering s w') Unproved s w := by
  refine .bind (.get ?_)
  by_cases hf : (s.operations .fence).isSome
  · rw [if_pos hf]
    refine .bind (writeMaintenance_unproved h (.inl rfl) ?_)
    have h₁ := h.fence ⟨s.view.jobId, true, true⟩
    have hfenced : fenced (w.wrote ⟨s.view.jobId, true, true⟩) := rfl
    refine .bind (kept_ensures (c := .startApplications) trivial (fun _ ↦ trivial)
      (fun _ w₁ hk ↦ ?_) fun e w₁ hk ↦ h₁.unproved hfenced e hk)
    exact verify_ensures (fun _ ↦ ⟨rfl, h₁.kept hk⟩) fun e ↦ h₁.unproved hfenced e hk
  · rw [if_neg hf]
    exact .pure ⟨rfl, h⟩

theorem restoreData_ensures {snapshot : BackupSnapshot} (h : Recovering s w) (hq : Quiet w)
    (hs : (s.operations .switch).isSome) (hu : Unattempted w)
    (hi : s.operations .restoreData = some .intent)
    (hd : s.operations .restoreDeployment = some .done)
    (hQ : ∀ w', Kept w w' → Q () s w') :
    (logic accepted).Ensures () (restoreData installation snapshot) Q Unproved s w := by
  refine .bind (.get (.bind (still_ensures (c := .validate _ _) (fun _ ↦ rfl) trivial (fun _ ↦ ?_)
    fun e ↦ h.unproved hq.fenced e (.refl w))))
  refine kept_ensures (c := .restore _ _) trivial (fun hj ↦ ⟨hq, ?_⟩) (fun _ ↦ hQ)
    fun e w₁ hk ↦ h.unproved hq.fenced e hk
  refine ⟨fun e hm he ↦ ?_, h.aligned.closed hj hs, hu.1, hu.2, ?_, ?_⟩
  · have hdec := hj.decided e hm he
    rw [h.aligned.undecided] at hdec
    cases hdec
  · exact h.aligned.operations ▸ hi
  · exact h.aligned.operations ▸ hd

theorem restorable_ensures {record : JobRecord} {Q : BackupSnapshot → JobRecord → World → Prop}
    {E : Failure → JobRecord → World → Prop}
    (hQ : ∀ snapshot, record.operations .restoreData ≠ some .intent → Q snapshot s w)
    (hE : ∀ e, E e s w) : (logic accepted).Ensures () (restorable record) Q E s w := by
  unfold restorable
  cases record.snapshot with
  | none => exact .throw (hE _)
  | some snapshot =>
    by_cases hi : record.operations .restoreData = some .intent
    · simpa only [if_pos hi] using .throw (hE _)
    · simpa only [if_neg hi] using .pure (hQ snapshot hi)

theorem restoreOnce_ensures {snapshot : BackupSnapshot} (h : Recovering s w)
    (hj : Journal accepted s w) (hq : Quiet w) (hs : (s.operations .switch).isSome)
    (hd : s.operations .restoreDeployment = some .done)
    (hn : s.operations .restoreData ≠ some .intent) :
    (logic accepted).Ensures ()
      (do
        if (← get).operations .restoreData ≠ some .done then
          operation .restoreData (restoreData installation snapshot))
      (fun _ s' w' ↦ Recovering s' w' ∧ Earned s' w' .restoreDecided) Unproved s w := by
  refine .bind (.get ?_)
  by_cases hr : s.operations .restoreData = some .done
  · rw [if_neg (not_not.mpr hr)]
    exact .pure ⟨h, hr, hd⟩
  · rw [if_pos hr]
    have hnone : s.operations .restoreData = none := by
      rcases hv : s.operations .restoreData with _ | _ | _
      · rfl
      · exact absurd hv hn
      · exact absurd hv hr
    refine operation_ensures h.aligned (fun _ ↦ trivial) Unproved.journal fun t ↦ ?_
    have h₁ := h.setOperation .restoreData .intent t
    have q₁ : Quiet (w.saved (s.setOperation .restoreData .intent) t) := hq.saved h.aligned.jobId t
    refine restoreData_ensures h₁ q₁ (by simp [hs]) ((hj.unattempted hnone).saved _ t) (by simp)
      (by simp [hd]) fun w₁ hk ↦ ⟨h₁.aligned.kept hk, by simp, trivial, fun t _ ↦ ?_⟩
    exact ⟨(h₁.kept hk).setOperation .restoreData .done t, by simp, by simp [hd]⟩

theorem rollBack_ensures (h : Recovering s w) (hq : Quiet w)
    (hs : (s.operations .switch).isSome) :
    (logic accepted).Ensures () (rollBack installation)
      (fun _ s' w' ↦ Recovering s' w' ∧ Earned s' w' .restoreDecided) Unproved s w := by
  refine .bind (phase_ensures h.aligned Unproved.journal fun t _ ↦ .bind (.get (.bind ?_)))
  have h₁ := h.setPhase .restoring t
  have q₁ : Quiet (w.saved (s.setPhase .restoring) t) := hq.saved h.aligned.jobId t
  refine restorable_ensures (fun snapshot hn ↦ ?_) fun e ↦ h₁.unproved q₁.fenced e (.refl _)
  refine .bind (operation_ensures h₁.aligned (fun _ ↦ h₁.entered) Unproved.journal fun t ↦ ?_)
  have h₂ := h₁.setOperation .restoreDeployment .intent t
  have q₂ : Quiet ((w.saved _ _).saved ((s.setPhase .restoring).setOperation .restoreDeployment .intent) t) :=
    q₁.saved rfl t
  refine .bind (.get (restoreDeployment_ensures ⟨h₂.aligned.undecided, ?_⟩
    (fun w₁ hk hh hinst hr ↦ ⟨h₂.aligned.kept hk, by simp, hinst, fun t hj ↦ ?_⟩)
    fun e w₁ hk ↦ h₂.unproved q₂.fenced e hk))
  · rw [← h₂.aligned.operations, JobRecord.setOperation_self]
  · have h₃ := (h₂.kept hk).setOperation .restoreDeployment .done t
    have q₃ : Quiet _ := (q₂.kept hk hh hr).saved
      (r := ((s.setPhase .restoring).setOperation .restoreDeployment .intent).setOperation
        .restoreDeployment .done) (by rw [hk.job]; rfl) t
    exact restoreOnce_ensures h₃ hj q₃ (by simp [hs]) (by simp) (by simpa using hn)

theorem finish_undecided_ensures {status : JobStatus} {code message : String}
    {E : Failure → JobRecord → World → Prop} (h : Aligned s w.job)
    (hst : (status = .failed ∧ s.operations .switch = none) ∨
      (status = .recoveryRequired ∧ (¬FenceLost w.history → fenced w)))
    (hQ : ∀ s w, Q () s w) (hE : ∀ s w, E .journal s w) :
    (logic accepted).Ensures () (finish status code message) Q E s w := by
  refine .bind (now_ensures fun t ↦ .bind (.modify (.bind (.get ?_))))
  refine saveJob_ensures (fun hj ↦ ⟨h.not_terminal, ?_, h.snapshot⟩) (fun _ _ ↦ hQ _ _) (hE _)
  exact h.journal_same hj rfl rfl rfl h.decision rfl rfl (.inr hst)

theorem recover_ensures {cause : Failure} {E : Failure → JobRecord → World → Prop}
    (h : Aligned s w.job) (hi : installation = accepted.originalInstallation)
    (hQ : ∀ s w, Q () s w) (hE : ∀ s w, E .journal s w) :
    (logic accepted).Ensures () (recover installation cause) Q E s w := by
  refine .bind (.get ?_)
  rw [if_neg (by simp [h.decision])]
  refine .bind (enterRecover_ensures h.saved fun hj ↦ unlessJournal_ensures hE ?_)
  have hgive : ∀ e s' w', Unproved e s' w' → e ≠ .journal →
      (logic accepted).Ensures () (finish .recoveryRequired "RECOVERY_REQUIRED"
        "Automatic recovery could not be proved. Business access remains fenced; preserve backups and use host recovery.")
        Q E s' w' :=
    fun e s' w' hu he ↦ finish_undecided_ensures (hu he).1 (.inr ⟨rfl, (hu he).2⟩) hQ hE
  refine Logic.Ensures.mono (E := Unproved) ?_ (fun _ _ _ hQ ↦ hQ) hgive
  have h₁ : Recovering s (w.record .recoverEntered) := ⟨h, .head _⟩
  refine .bind (.get (.bind ((isolate_ensures h₁).mono ?_ fun _ _ _ he ↦ he)))
  rintro _ s w₁ ⟨rfl, h₂, hq⟩
  by_cases hs : (s.operations .switch).isSome
  · simp only [hs, if_true]
    have hf := (hj.switched (h.operations ▸ hs)).1
    have hq₂ : Quiet w₁ := hq (h.operations ▸ hf)
    refine .bind ((rollBack_ensures h₂ hq₂ hs).mono ?_ fun _ _ _ he ↦ he)
    rintro _ s₃ w₃ ⟨h₃, he⟩
    refine .bind ((reopen_ensures h₃).mono ?_ fun _ _ _ he ↦ he)
    rintro _ s₄ w₄ ⟨rfl, h₄⟩
    refine .bind (decide_ensures h₄.aligned he Unproved.journal fun t hd ↦ ?_)
    exact completeDecision_ensures hd hi hQ Unproved.journal
  · simp only [hs, if_false, Bool.false_eq_true]
    refine .bind ((reopen_ensures h₂).mono ?_ fun _ _ _ he ↦ he)
    rintro _ s₄ w₄ ⟨rfl, h₄⟩
    have hn : s₄.operations .switch = none := by simpa using hs
    refine .bind (.get (.bind (writeMaintenance_unproved h₄ (.inr hn) ?_)))
    exact finish_undecided_ensures (h₄.fence _).aligned (.inl ⟨rfl, hn⟩) hQ Unproved.journal

end Backward

section Main

variable {accepted s : JobRecord} {w : World} {installation : Installation}

theorem first_attempt_ensures (h : Underway s w) (hs : s.operations .switch = none)
    (hi : installation = accepted.originalInstallation) :
    (logic accepted).Ensures ()
      (do
        prepareAndFence installation
        backUpAndSwitch installation
        startBehindFence
        verifyTargets installation
        persistInstallation installation
        decide .commitDecided
        completeDecision installation) (fun _ _ _ ↦ True) Recoverable s w := by
  refine .bind ((prepareAndFence_ensures h hs).mono ?_ fun _ _ _ he ↦ he)
  intro _ s₁ w₁ h₁
  refine .bind ((backUpAndSwitch_ensures h₁).mono ?_ fun _ _ _ he ↦ he)
  intro _ s₂ w₂ h₂
  refine .bind ((startBehindFence_ensures h₂).mono ?_ fun _ _ _ he ↦ he)
  intro _ s₃ w₃ h₃
  refine .bind ((verifyTargets_ensures h₃).mono ?_ fun _ _ _ he ↦ he)
  rintro _ s₄ w₄ ⟨h₄, hv, hh⟩
  refine .bind ((persistInstallation_ensures h₄ hi hv hh).mono ?_ fun _ _ _ he ↦ he)
  rintro _ s₅ w₅ ⟨h₅, he⟩
  refine .bind (decide_ensures h₅.aligned he Recoverable.journal fun t hd ↦ ?_)
  exact completeDecision_ensures hd hi (fun _ _ ↦ trivial) Recoverable.journal

theorem run_ensures (hi : installation = accepted.originalInstallation) :
    (logic accepted).Ensures () (run installation) (fun _ _ _ ↦ True) (fun _ _ _ ↦ True) s w := by
  refine .bind (readJob_ensures (fun hj ↦ ?_) fun _ _ _ ↦ trivial)
  refine .bind (.set (.bind (.get ?_)))
  rcases hs : w.job.view.status with _ | _ | _ | _ | _ | _
  case succeeded | failed | rolledBack | recoveryRequired =>
    simp only [JobRecord.terminal, hs]
    exact .pure trivial
  all_goals
    have ht : w.job.terminal = false := by simp [JobRecord.terminal, hs]
    simp only [ht, Bool.false_or, reduceCtorEq, decide_false, Bool.false_eq_true, if_false]
  case queued =>
    obtain ⟨hd, ho, hf⟩ := hj.queued hs
    simp only [hd, Option.isSome_none, Bool.false_eq_true, if_false]
    refine .bind (.modify (.bind (.get (.bind ?_))))
    refine saveJob_ensures (fun hj ↦ ⟨ht, hj.setRunning, fun _ ↦ rfl⟩) (fun t hj ↦ ?_) fun _ ↦ trivial
    have hu : Underway (w.job.setStatus .running)
        ((w.record (.jobRead w.job)).saved (w.job.setStatus .running) t) :=
      ⟨.stamped (r := w.job.setStatus .running) rfl hd t, by
        simpa [World.saved, World.record] using hf⟩
    refine unlessJournal_ensures (fun _ _ ↦ trivial) ((first_attempt_ensures hu (ho _) hi).mono
      (fun _ _ _ _ ↦ trivial) fun e s' w' he hn ↦ ?_)
    exact recover_ensures (he hn) hi (fun _ _ ↦ trivial) fun _ _ ↦ trivial
  case running =>
    by_cases hd : w.job.decision.isSome
    · rw [if_pos hd]
      exact completeDecision_ensures ⟨hd, hj, ht, hs, fun _ ↦ rfl⟩ hi (fun _ _ ↦ trivial)
        fun _ _ ↦ trivial
    · rw [if_neg hd]
      have hn : w.job.decision = none := by simpa using hd
      exact recover_ensures ⟨hs, hs, hn, hn, rfl, rfl, rfl, rfl, fun _ ↦ rfl⟩ hi
        (fun _ _ ↦ trivial) fun _ _ ↦ trivial

end Main

end UpdateWorker

theorem workerMain_ensures {accepted s : JobRecord} {w : World} :
    (logic accepted).Ensures () workerMain (fun _ _ _ ↦ True) (fun _ _ _ ↦ True) s w :=
  .bind (readJob_ensures (fun hj ↦ UpdateWorker.run_ensures hj.original) fun _ _ _ ↦ trivial)

theorem recoverMain_ensures {accepted s : JobRecord} {w : World} :
    (logic accepted).Ensures () recoverMain (fun _ _ _ ↦ True) (fun _ _ _ ↦ True) s w := by
  refine .bind (readJob_ensures (fun _ ↦ ?_) fun _ _ _ ↦ trivial)
  refine .bind (readJob_ensures (fun hj ↦ ?_) fun _ _ _ ↦ trivial)
  refine .bind (assert_ensures ?_ fun _ ↦ trivial)
  have hstart : ∀ w', (logic accepted).Ensures ()
      (perform (.startWorker w.job.view.jobId) rfl) (fun _ _ _ ↦ True) (fun _ _ _ ↦ True) s w' :=
    fun w' ↦ still_ensures (c := .startWorker _) (fun _ ↦ rfl) trivial (fun _ ↦ trivial)
      fun _ ↦ trivial
  by_cases hs : w.job.view.status = .recoveryRequired
  · have ht : w.job.terminal = false := by simp [JobRecord.terminal, hs]
    simp only [World.record, hs, if_true]
    exact .bind (saveJob_ensures (fun _ ↦ ⟨ht, hj.setRunning, fun _ ↦ rfl⟩) (fun t _ ↦ hstart _)
      fun _ ↦ trivial)
  · simp only [World.record, hs, if_false]
    exact hstart _

/-- Both modes of the updater keep to the rules wherever they are started. -/
theorem admissible (accepted : JobRecord) : (logic accepted).Admissible := by
  rintro _ w p - ⟨main, hm, memory, rfl⟩
  have hmain : (logic accepted).Ensures () main (fun _ _ _ ↦ True) (fun _ _ _ ↦ True) memory w := by
    rcases List.mem_pair.mp hm with rfl | rfl
    · exact workerMain_ensures
    · exact recoverMain_ensures
  have hw : (logic accepted).Wp () (main.start memory) _ w := hmain
  exact Logic.Wp.bind (f := fun _ ↦ .done ()) (hw.mono fun _ _ _ ↦ trivial)

end RustdeskConsole.Updater
