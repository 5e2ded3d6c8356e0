import RustdeskConsole.Effects.Logic
import RustdeskConsole.Updater.Worker

namespace RustdeskConsole.Updater

open Effects Worker

def Command.saves : Command → Bool
  | .saveJob _ => true
  | _ => false

theorem exec_job {c : Command} (hc : c.saves = false) (o : Choice) (w : World) :
    (exec c o w).1.job = w.job := by
  cases c with
  | saveJob record => cases hc
  | writeMaintenance => exact World.writeMaintenance_job ..
  | switchApplications => exact World.deploy_job ..
  | restoreDeployment =>
    simp only [exec, World.restoreDeployment, World.deploy_job, World.install_job]
  | verify => simp only [exec, World.verify_fst]
  | commit => exact World.install_job ..
  | stopApplications | backup =>
    cases ho : o.ending with
    | returns =>
      simp only [exec, ho]
      rfl
    | throws => simp only [exec, ho]
    | dies => simp only [exec, ho]
  | _ => rfl

theorem saveJob_job (record : JobRecord) (o : Choice) (w : World) :
    (exec (.saveJob record) o w).1.job = w.job ∨
      (exec (.saveJob record) o w).1.job = record.stamp o.clock := by
  rcases ho : o.ending with _ | _ | _ <;> rcases hl : o.landed with _ | _ <;>
    simp [exec, World.saveJob, World.record, Choice.visible, ho, hl]

/-- What the rest of the host may rely on: a worker writes the file of its own
job, and only while the job has not ended. -/
def live : Logic machine where
  inv _ := True
  guard _ c w := ∀ record, c = .saveJob record →
    w.job.terminal = false ∧ record.view.jobId = w.job.view.jobId
  rely _ w w' := w'.job = w.job
  rely_refl _ _ := rfl
  rely_trans _ _ _ _ h h' := Eq.trans h' h
  keeps _ _ _ _ := trivial
  interferes _ _ hij := absurd rfl hij

theorem live_guard {c : Command} (hc : c.saves = false) (w : World) : live.guard () c w := by
  intro record hr
  rw [hr] at hc
  cases hc

/-- The job the worker has loaded has not ended, nor has the one in the file. -/
structure Live (s : JobRecord) (w : World) : Prop where
  memory : s.terminal = false
  file : w.job.terminal = false
  jobId : s.view.jobId = w.job.view.jobId

def Leaves (e : Failure) (s : JobRecord) (w : World) : Prop := e = .journal ∨ Live s w

/-- The program may run on a job that has not ended. -/
def Safe {α : Type} (p : Worker α) (Q : JobRecord → World → Prop) : Prop :=
  ∀ s w, Live s w → live.Ensures () p (fun _ ↦ Q) Leaves s w

abbrev Steady {α : Type} (p : Worker α) : Prop := Safe p Live

abbrev Closing (p : Worker Unit) : Prop := Safe p fun _ _ ↦ True

namespace Safe

variable {α β : Type} {p : Worker α} {f : α → Worker β} {Q : JobRecord → World → Prop}

protected theorem pure {a : α} : Steady (pure a : Worker α) := fun _ _ h ↦ .pure h

protected theorem throw {e : Failure} : Safe (throw e : Worker α) Q :=
  fun _ _ h ↦ .throw (.inr h)

protected theorem bind (hp : Steady p) (hf : ∀ a, Safe (f a) Q) : Safe (p >>= f) Q :=
  fun s w h ↦ .bind ((hp s w h).mono (fun a s w h ↦ hf a s w h) fun _ _ _ h ↦ h)

protected theorem get {f : JobRecord → Worker β} (hf : ∀ r, Safe (f r) Q) : Safe (get >>= f) Q :=
  fun s w h ↦ .bind (.get (hf s s w h))

protected theorem modify {g : JobRecord → JobRecord} (ht : ∀ r, r.terminal = false → (g r).terminal = false)
    (hj : ∀ r, (g r).view.jobId = r.view.jobId) : Steady (modify g : Worker Unit) := by
  intro s w h
  exact .modify ⟨ht s h.memory, h.file, (hj s).trans h.jobId⟩

theorem ite {c : Prop} [Decidable c] {p q : Worker α} (hp : Safe p Q) (hq : Safe q Q) :
    Safe (if c then p else q) Q := by
  split
  · exact hp
  · exact hq

protected theorem invoke {c : Command} {f : Reply c → Except Failure α} (hc : c.saves = false) :
    Steady (invoke c f) := by
  intro s w h
  refine .invoke fun w₁ hw _ ↦ ⟨live_guard hc w₁, fun o w₂ r he _ ↦ ?_⟩
  have hw : w₁.job = w.job := hw
  have he : exec c o w₁ = (w₂, some r) := he
  have hj : w₂.job = w.job := by
    rw [← hw, ← exec_job hc o w₁, he]
  have hl : Live s w₂ := ⟨h.memory, hj ▸ h.file, hj ▸ h.jobId⟩
  cases f r with
  | ok a => exact hl
  | error e => exact .inr hl

theorem unlessJournal {body : Worker Unit} {handler : Failure → Worker Unit} {s : JobRecord}
    {w : World} (hb : live.Ensures () body (fun _ _ _ ↦ True) Leaves s w)
    (hh : ∀ e, Closing (handler e)) :
    live.Ensures () (Worker.unlessJournal body handler) (fun _ _ _ ↦ True) Leaves s w := by
  refine .tryCatch (hb.mono (fun _ _ _ h ↦ h) fun e s w he ↦ ?_)
  split
  · exact .throw (.inl rfl)
  · rename_i hne
    exact hh e s w (he.resolve_left hne)

end Safe

section Saving

variable {α : Type} {s record : JobRecord} {w w' : World} {Q : JobRecord → World → Prop}

theorem saveJob_live (hf : w.job.terminal = false) (hj : record.view.jobId = w.job.view.jobId)
    (hQ : ∀ now w', w'.job = record.stamp now → Q s w') :
    live.Ensures () (saveJob record) (fun _ ↦ Q) (fun e _ _ ↦ e = .journal) s w := by
  refine .invoke fun w₁ hw _ ↦ ⟨?_, fun o w₂ r he _ ↦ ?_⟩
  · intro r hr
    cases hr
    have hw : w₁.job = w.job := hw
    exact ⟨hw ▸ hf, hw ▸ hj⟩
  · have he : exec (.saveJob record) o w₁ = (w₂, some r) := he
    rcases ho : o.ending with _ | _ | _ <;>
      simp only [exec, World.saveJob, Choice.visible, ho, if_true, Prod.mk.injEq,
        Option.some.injEq, reduceCtorEq, and_false] at he
    · obtain ⟨rfl, rfl⟩ := he
      exact hQ o.clock _ rfl
    · obtain ⟨-, rfl⟩ := he
      exact rfl

theorem Live.save (h : Live s w) (hj : record.view.jobId = s.view.jobId)
    (hQ : ∀ now w', w'.job = record.stamp now → Q s w') :
    live.Ensures () (saveJob record) (fun _ ↦ Q) Leaves s w :=
  (saveJob_live h.file (hj.trans h.jobId) hQ).mono (fun _ _ _ h ↦ h) fun _ _ _ he ↦ .inl he

theorem Live.stamped {now : ℕ} (h : Live s w) (hw : w'.job = record.stamp now)
    (ht : record.terminal = false) (hj : record.view.jobId = s.view.jobId) : Live s w' :=
  ⟨h.memory, hw ▸ ht, hw ▸ hj.symm⟩

/-- Save what memory says of the job, up to a change that does not end it. -/
theorem Safe.save {g : JobRecord → JobRecord} (ht : ∀ r, r.terminal = false → (g r).terminal = false)
    (hj : ∀ r, (g r).view.jobId = r.view.jobId) {k : Worker α} (hk : Safe k Q) :
    Safe (get >>= fun r ↦ saveJob (g r) >>= fun _ ↦ k) Q := by
  intro s w h
  refine .bind (.get (.bind (h.save (hj s) fun now w' hw ↦ ?_)))
  exact hk s w' (h.stamped hw (ht s h.memory) (hj s))

theorem Safe.saveLast : Steady (get >>= fun r ↦ saveJob r : Worker Unit) := by
  intro s w h
  exact .bind (.get (h.save rfl fun now w' hw ↦ h.stamped hw h.memory rfl))

end Saving

section Programs

variable {installation : Installation}

theorem perform_steady {c : Command} {h : Reply c = Except Failure Unit}
    (hc : c.saves = false) : Steady (perform c h) := Safe.invoke hc

theorem writeMaintenance_steady {jobId : String} {active allowStart : Bool} :
    Steady (writeMaintenance jobId active allowStart) := Safe.invoke rfl

theorem assert_steady {condition : Bool} {code message : String} :
    Steady (assert condition code message) := Safe.ite Safe.pure Safe.throw

theorem revalidate_steady {plan : PersistedPlan} :
    Steady (revalidate installation plan true) := by
  have hrelease : ∀ component, Steady (revalidateRelease plan component) :=
    fun component ↦ Safe.bind (Safe.invoke rfl) fun _ ↦ assert_steady
  refine Safe.bind assert_steady fun _ ↦ Safe.bind (Safe.invoke rfl) fun _ ↦
    Safe.bind assert_steady fun _ ↦ Safe.bind (hrelease _) fun _ ↦ Safe.bind (hrelease _) fun _ ↦
    Safe.bind (Safe.invoke rfl) fun blockers ↦ ?_
  cases blockers with
  | nil => exact Safe.pure
  | cons blocker _ => exact Safe.throw

namespace UpdateWorker

theorem operation_steady {key : OperationKey} {action : Worker Unit} (ha : Steady action) :
    Steady (operation key action) := by
  have hset : ∀ state, Steady (modify (·.setOperation key state) : Worker Unit) :=
    fun _ ↦ Safe.modify (fun _ h ↦ h) fun _ ↦ rfl
  refine Safe.bind (hset _) fun _ ↦ Safe.save (g := id) (fun _ h ↦ h) (fun _ ↦ rfl) ?_
  exact Safe.bind ha fun _ ↦ Safe.bind (hset _) fun _ ↦ Safe.saveLast

theorem phase_steady {p : JobPhase} : Steady (phase p) :=
  Safe.bind (Safe.modify (fun _ h ↦ h) fun _ ↦ rfl) fun _ ↦ Safe.saveLast

theorem decide_steady {decision : Decision} : Steady (decide decision) :=
  Safe.save (g := (·.setDecision decision)) (fun _ h ↦ h) (fun _ ↦ rfl)
    (Safe.modify (fun _ h ↦ h) fun _ ↦ rfl)

theorem finish_closing {status : JobStatus} {code message : String} :
    Closing (finish status code message) := by
  refine Safe.bind (Safe.invoke rfl) fun t s w h ↦ ?_
  have hj : (finished s status code message t).view.jobId = w.job.view.jobId := h.jobId
  exact .bind (.modify (.bind (.get ((saveJob_live h.file hj fun _ _ _ ↦ trivial).mono
    (fun _ _ _ h ↦ h) fun _ _ _ he ↦ .inl he))))

theorem completeDecision_closing : Closing (completeDecision installation) := by
  intro s w h
  refine .bind (.get (Safe.unlessJournal (.bind (h.save rfl fun now w' hw ↦ ?_))
    fun _ ↦ finish_closing))
  have h' : Live s w' := h.stamped hw h.memory rfl
  refine Safe.bind (perform_steady rfl) (fun _ ↦ Safe.bind writeMaintenance_steady fun _ ↦ ?_) s w' h'
  exact Safe.ite finish_closing finish_closing

theorem restorable_steady {record : JobRecord} : Steady (restorable record) := by
  unfold restorable
  split
  · exact Safe.throw
  · exact Safe.ite Safe.throw Safe.pure

theorem restoreData_steady {snapshot : BackupSnapshot} :
    Steady (restoreData installation snapshot) :=
  Safe.get fun _ ↦ Safe.bind (perform_steady rfl) fun _ ↦ perform_steady rfl

theorem isolate_steady : Steady (isolate) :=
  Safe.get fun _ ↦ Safe.ite (Safe.bind writeMaintenance_steady fun _ ↦ perform_steady rfl) Safe.pure

theorem rollBack_steady : Steady (rollBack installation) := by
  refine Safe.bind phase_steady fun _ ↦ Safe.get fun _ ↦ Safe.bind restorable_steady fun _ ↦
    Safe.bind (operation_steady (Safe.get fun _ ↦ perform_steady rfl)) fun _ ↦ Safe.get fun _ ↦ ?_
  exact Safe.ite (operation_steady restoreData_steady) Safe.pure

theorem reopen_steady : Steady (reopen installation) :=
  Safe.get fun _ ↦ Safe.ite (Safe.bind writeMaintenance_steady fun _ ↦
    Safe.bind (perform_steady rfl) fun _ ↦ perform_steady rfl) Safe.pure

theorem recover_closing {cause : Failure} : Closing (recover installation cause) := by
  refine Safe.get fun _ ↦ Safe.ite completeDecision_closing (Safe.bind (Safe.invoke rfl) fun _ ↦ ?_)
  refine fun s w h ↦ Safe.unlessJournal (Safe.get (fun r ↦ ?_) s w h) fun _ ↦ finish_closing
  refine Safe.bind isolate_steady fun _ ↦ ?_
  by_cases hs : (r.operations .switch).isSome = true
  · simp only [hs, if_true]
    exact Safe.bind rollBack_steady fun _ ↦ Safe.bind reopen_steady fun _ ↦
      Safe.bind decide_steady fun _ ↦ completeDecision_closing
  · simp only [hs, if_false, Bool.false_eq_true]
    exact Safe.bind reopen_steady fun _ ↦ Safe.get fun _ ↦
      Safe.bind writeMaintenance_steady fun _ ↦ finish_closing

theorem takeBackup_steady : Steady (takeBackup installation) :=
  Safe.get fun _ ↦ Safe.bind (Safe.invoke rfl) fun _ ↦
    Safe.bind (Safe.modify (fun _ h ↦ h) fun _ ↦ rfl) fun _ ↦ perform_steady rfl

theorem prepareAndFence_steady : Steady (prepareAndFence installation) :=
  Safe.get fun _ ↦ Safe.bind revalidate_steady fun _ ↦
    Safe.bind (operation_steady (Safe.get fun _ ↦ perform_steady rfl)) fun _ ↦
    Safe.bind phase_steady fun _ ↦
    Safe.bind (operation_steady (Safe.get fun _ ↦ writeMaintenance_steady)) fun _ ↦
    operation_steady (perform_steady rfl)

theorem backUpAndSwitch_steady : Steady (backUpAndSwitch installation) :=
  Safe.bind phase_steady fun _ ↦ Safe.bind (operation_steady takeBackup_steady) fun _ ↦
    Safe.bind phase_steady fun _ ↦ operation_steady (Safe.get fun _ ↦ perform_steady rfl)

theorem startBehindFence_steady : Steady (startBehindFence) :=
  operation_steady (Safe.get fun _ ↦ Safe.bind writeMaintenance_steady fun _ ↦ perform_steady rfl)

theorem verifyTargets_steady : Steady (verifyTargets installation) :=
  Safe.bind phase_steady fun _ ↦
    Safe.bind (operation_steady (Safe.get fun _ ↦ perform_steady rfl)) fun _ ↦
    Safe.bind phase_steady fun _ ↦ operation_steady (Safe.get fun _ ↦ perform_steady rfl)

theorem persistInstallation_steady : Steady (persistInstallation installation) :=
  Safe.bind phase_steady fun _ ↦ operation_steady (Safe.get fun _ ↦ perform_steady rfl)

end UpdateWorker

/-- A program that may start on any file. -/
def Sound (p : Worker Unit) : Prop :=
  ∀ s w, live.Ensures () p (fun _ _ _ ↦ True) (fun _ _ _ ↦ True) s w

theorem readJob_live {k : JobRecord → Worker Unit} {s : JobRecord} {w : World}
    (hk : ∀ w', w'.job = w.job →
      live.Ensures () (k w'.job) (fun _ _ _ ↦ True) (fun _ _ _ ↦ True) s w') :
    live.Ensures () (readJob >>= k) (fun _ _ _ ↦ True) (fun _ _ _ ↦ True) s w := by
  refine .bind (.invoke fun w₁ hw _ ↦ ⟨live_guard rfl w₁, fun o w₂ r he _ ↦ ?_⟩)
  have hw : w₁.job = w.job := hw
  obtain ⟨rfl, hr⟩ : w₁.record (.jobRead w₁.job) = w₂ ∧ o.reply w₁.job = some r := by
    simpa only [Machine.exec, machine, exec, Prod.mk.injEq] using he
  cases r with
  | ok record =>
    obtain rfl : w₁.job = record := by
      rcases ho : o.ending with _ | _ | _ <;> simp_all [Choice.reply]
    exact hk (w₁.record (.jobRead w₁.job)) hw
  | error e => trivial

namespace UpdateWorker

theorem run_live : Sound (run installation) := by
  intro s w
  refine readJob_live fun w' _ ↦ .bind (.set (.bind (.get ?_)))
  split
  · exact .pure trivial
  · rename_i ht
    have hf : w'.job.terminal = false := by
      rw [Bool.or_eq_true, not_or, Bool.not_eq_true] at ht
      exact ht.1
    have hattempt : Closing (do
        prepareAndFence installation
        backUpAndSwitch installation
        startBehindFence
        verifyTargets installation
        persistInstallation installation
        decide .commitDecided
        completeDecision installation) :=
      Safe.bind prepareAndFence_steady fun _ ↦ Safe.bind backUpAndSwitch_steady fun _ ↦
        Safe.bind startBehindFence_steady fun _ ↦ Safe.bind verifyTargets_steady fun _ ↦
        Safe.bind persistInstallation_steady fun _ ↦ Safe.bind decide_steady fun _ ↦
        completeDecision_closing
    have hrecover : ∀ cause, Closing (recover installation cause) := fun _ ↦ recover_closing
    have hfirst := Safe.bind (Safe.modify (g := (·.setStatus .running)) (fun _ _ ↦ rfl) fun _ ↦ rfl)
      fun _ ↦ Safe.save (g := id) (fun _ h ↦ h) (fun _ ↦ rfl) fun s w h ↦
        Safe.unlessJournal (hattempt s w h) hrecover
    exact ((Safe.ite completeDecision_closing (Safe.ite recover_closing hfirst)) _ _
      ⟨hf, hf, rfl⟩).mono (fun _ _ _ _ ↦ trivial) fun _ _ _ _ ↦ trivial

end UpdateWorker

theorem workerMain_live : Sound workerMain :=
  fun _ _ ↦ readJob_live fun _ _ ↦ UpdateWorker.run_live _ _

theorem recoverMain_live : Sound recoverMain := by
  intro s w
  refine readJob_live fun _ _ ↦ readJob_live fun w' _ ↦ .bind ?_
  have hstart : Sound (perform (.startWorker w'.job.view.jobId) rfl) := by
    refine fun s w ↦ .invoke fun w₁ _ _ ↦ ⟨live_guard rfl w₁, fun _ _ r _ _ ↦ ?_⟩
    cases r <;> trivial
  cases w'.job.decision.isSome || w'.job.operations .restoreData ≠ some .intent
  · exact .throw trivial
  refine .pure ?_
  by_cases hs : w'.job.view.status = .recoveryRequired
  · have hf : w'.job.terminal = false := by simp [JobRecord.terminal, hs]
    simp only [hs, if_true]
    have hj : (w'.job.setStatus .running).view.jobId = w'.job.view.jobId := rfl
    exact .bind ((saveJob_live hf hj fun _ w'' _ ↦ hstart _ w'').mono (fun _ _ _ h ↦ h)
      fun _ _ _ _ ↦ trivial)
  · simp only [hs, if_false]
    exact hstart _ _

end Programs

end RustdeskConsole.Updater
