import RustdeskConsole.Effects.Logic
import RustdeskConsole.Updater.Journal
import RustdeskConsole.Updater.Worker

namespace RustdeskConsole.Updater

open Effects Function Worker

/-- One process at a time: nothing moves between two commands of the worker. -/
def logic (accepted : JobRecord) : Logic machine where
  inv w := Journal accepted w.job w
  guard _ := guard accepted
  rely _ := Eq
  rely_refl _ _ := rfl
  rely_trans _ := Eq.trans
  keeps o _ h hg := h.exec hg o
  interferes _ _ hij := absurd rfl hij

def World.saved (w : World) (record : JobRecord) (now : ℕ) : World :=
  { w with job := record.stamp now }.record (.jobSaved record)

def World.stopped (w : World) : World :=
  { w with running := fun _ ↦ false }.record .applicationsStopped

def World.wrote (w : World) (state : MaintenanceState) : World :=
  { w with maintenance := some state }.record (.maintenanceWritten state)

/-- What everything but a write of the job or of the maintenance file keeps. -/
structure Kept (w w' : World) : Prop where
  job : w'.job = w.job
  maintenance : w'.maintenance = w.maintenance
  recover : .recoverEntered ∈ w'.history ↔ .recoverEntered ∈ w.history
  fence : FenceLost w.history → FenceLost w'.history

theorem Kept.refl (w : World) : Kept w w := ⟨rfl, rfl, .rfl, id⟩

theorem Kept.record {w w' : World} {e : Event} (h : Kept w w') (he : e ≠ .recoverEntered) :
    Kept w (w'.record e) := by
  refine ⟨h.job, h.maintenance, Iff.trans ?_ h.recover, fun hf ↦ .inr (h.fence hf)⟩
  simp [World.record, he.symm]

theorem Kept.change {w w' : World} (h : Kept w w') (installation : Installation)
    (deployed : Component → String) (running : Component → Bool) :
    Kept w { w' with installation := installation, deployed := deployed, running := running } :=
  ⟨h.job, h.maintenance, h.recover, h.fence⟩

def Command.keeps : Command → Prop
  | .saveJob _ | .writeMaintenance _ | .enterRecover => False
  | _ => True

theorem Kept.deploy {w w' : World} (h : Kept w w') (deployed : Component → String) (o : Choice) :
    Kept w (w'.deploy deployed o).1 := by
  rcases ho : o.ending with _ | _ | _ <;> simp only [World.deploy, ho] <;> exact h.change _ _ _

theorem Kept.install {w w' : World} (h : Kept w w') (installation : Installation) (o : Choice) :
    Kept w (w'.install installation o) := by
  unfold World.install
  split
  · exact h.change _ _ _
  · exact h

theorem exec_kept {c : Command} (hc : c.keeps) (o : Choice) (w : World) :
    Kept w (exec c o w).1 := by
  have h := Kept.refl w
  cases c with
  | saveJob | writeMaintenance | enterRecover => exact hc.elim
  | now | fingerprint | exactManifest | blockers | prepare | updateHelper | startWorker | validate =>
    exact h
  | readJob | restore => exact h.record (by simp)
  | stopApplications =>
    rcases ho : o.ending with _ | _ | _ <;> simp only [exec, ho]
    · exact (h.change _ _ _).record (by simp)
    · exact h.change _ _ _
    · exact h.change _ _ _
  | switchApplications => exact (h.record (by simp)).deploy _ _
  | startApplications => exact (h.change _ _ _).record (by simp)
  | verify => simpa only [exec, World.verify_fst] using h
  | restoreDeployment => exact (h.install _ _).deploy _ _
  | commit => exact h.install _ _
  | backup =>
    rcases ho : o.ending with _ | _ | _ <;> simp only [exec, ho]
    · exact h.record (by simp)
    · exact h
    · exact h

theorem Choice.reply_eq {α : Type} {o : Choice} {a : α} {r : Except Failure α}
    (h : o.reply a = some r) : (o.ending = .returns ∧ r = .ok a) ∨
      ∃ error, o.ending = .throws error ∧ r = .error (Ending.failure error) := by
  rcases ho : o.ending with _ | error | _ <;> simp only [Choice.reply, ho] at h
  · exact .inl ⟨rfl, (Option.some.inj h).symm⟩
  · exact .inr ⟨error, rfl, (Option.some.inj h).symm⟩
  · cases h

section Rules

variable {accepted s : JobRecord} {w : World} {α : Type}
  {Q : α → JobRecord → World → Prop} {E : Failure → JobRecord → World → Prop}

theorem invoke_ensures {c : Command} {f : Reply c → Except Failure α}
    (hg : Journal accepted w.job w → guard accepted c w)
    (h : ∀ o w' r, exec c o w = (w', some r) → Journal accepted w'.job w' →
      Logic.Settles Q E s w' (f r)) : (logic accepted).Ensures () (invoke c f) Q E s w := by
  refine Logic.Ensures.invoke fun w₁ hw hi ↦ ?_
  obtain rfl : w = w₁ := hw
  exact ⟨hg hi, h⟩

/-- The rule for commands whose effects nobody relies on later. -/
theorem kept_ensures {c : Command} {f : Reply c → Except Failure α} (hc : c.keeps)
    (hg : Journal accepted w.job w → guard accepted c w)
    (hQ : ∀ a w', Kept w w' → Q a s w') (hE : ∀ e w', Kept w w' → E e s w') :
    (logic accepted).Ensures () (invoke c f) Q E s w := by
  refine invoke_ensures hg fun o w' r he _ ↦ ?_
  have hk : Kept w w' := by simpa only [he] using exec_kept hc o w
  cases f r with
  | ok a => exact hQ a w' hk
  | error e => exact hE e w' hk

theorem still_ensures {c : Command} {f : Reply c → Except Failure α}
    (hc : ∀ o, (exec c o w).1 = w) (hg : guard accepted c w)
    (hQ : ∀ a, Q a s w) (hE : ∀ e, E e s w) :
    (logic accepted).Ensures () (invoke c f) Q E s w := by
  refine invoke_ensures (fun _ ↦ hg) fun o w' r he _ ↦ ?_
  obtain rfl : w = w' := by simpa only [hc] using congrArg Prod.fst he
  cases f r with
  | ok a => exact hQ a
  | error e => exact hE e

end Rules

section Commands

variable {accepted s : JobRecord} {w : World}
  {Q : Unit → JobRecord → World → Prop} {E : Failure → JobRecord → World → Prop}

theorem assert_ensures {condition : Bool} {code message : String} (hQ : Q () s w)
    (hE : ∀ e, E e s w) :
    (logic accepted).Ensures () (assert condition code message) Q E s w := by
  cases condition
  · exact .throw (hE _)
  · exact .pure hQ

theorem unlessJournal_ensures {body : Worker Unit} {handler : Failure → Worker Unit}
    (hE : ∀ s w, E .journal s w)
    (h : (logic accepted).Ensures () body Q
      (fun e s w ↦ e ≠ .journal → (logic accepted).Ensures () (handler e) Q E s w) s w) :
    (logic accepted).Ensures () (unlessJournal body handler) Q E s w := by
  refine .tryCatch (h.mono (fun _ _ _ hQ ↦ hQ) fun e s w he ↦ ?_)
  by_cases hj : e = .journal
  · rw [if_pos hj]
    exact .throw (hE s w)
  · rw [if_neg hj]
    exact he hj

theorem saveJob_ensures {record : JobRecord}
    (hg : Journal accepted w.job w → guard accepted (.saveJob record) w)
    (hQ : ∀ now, Journal accepted record (w.saved record now) → Q () s (w.saved record now))
    (hE : ∀ w', E .journal s w') :
    (logic accepted).Ensures () (saveJob record) Q E s w := by
  refine invoke_ensures hg fun o w' r he hj ↦ ?_
  rcases ho : o.ending with _ | _ | _ <;>
    simp only [exec, World.saveJob, Choice.visible, ho, if_true, Prod.mk.injEq, Option.some.injEq,
      reduceCtorEq, and_false] at he
  · obtain ⟨rfl, rfl⟩ := he
    exact hQ o.clock hj.unstamp
  · obtain ⟨-, rfl⟩ := he
    exact hE w'

theorem writeMaintenance_ensures {jobId : String} {active allowStart : Bool}
    (hg : Journal accepted w.job w → guard accepted (.writeMaintenance ⟨jobId, active, allowStart⟩) w)
    (hQ : Q () s (w.wrote ⟨jobId, active, allowStart⟩))
    (hE : ∀ e (landed : Bool), E e s
      ((if landed then w.wrote ⟨jobId, active, allowStart⟩ else w).record
        (.maintenanceFailed w.job w.maintenance ⟨jobId, active, allowStart⟩ landed))) :
    (logic accepted).Ensures () (writeMaintenance jobId active allowStart) Q E s w := by
  refine invoke_ensures hg fun o w' r he _ ↦ ?_
  rcases ho : o.ending with _ | _ | _ <;>
    simp only [exec, World.writeMaintenance, Choice.visible, Choice.reply, ho, if_true,
      Prod.mk.injEq, Option.some.injEq, reduceCtorEq, and_false] at he
  · obtain ⟨rfl, rfl⟩ := he
    exact hQ
  · obtain ⟨rfl, rfl⟩ := he
    exact hE _ o.landed

theorem enterRecover_ensures (hg : w.job.view.status = .running)
    (hQ : Journal accepted w.job (w.record .recoverEntered) → Q () s (w.record .recoverEntered)) :
    (logic accepted).Ensures () enterRecover Q E s w := by
  refine invoke_ensures (fun _ ↦ hg) fun o w' r he hj ↦ ?_
  obtain ⟨rfl, rfl⟩ : w.record .recoverEntered = w' ∧ () = r := by
    simpa only [exec, Prod.mk.injEq, Option.some.injEq] using he
  exact hQ hj

theorem stopApplications_ensures (hQ : Q () s w.stopped)
    (hE : ∀ e w', Kept w w' → E e s w') :
    (logic accepted).Ensures () (perform .stopApplications rfl) Q E s w := by
  refine invoke_ensures (fun _ ↦ trivial) fun o w' r he _ ↦ ?_
  have hk : Kept w w' := by
    simpa only [he] using exec_kept (c := .stopApplications) trivial o w
  rcases ho : o.ending with _ | _ | _ <;>
    simp only [exec, Choice.reply, ho, Prod.mk.injEq, Option.some.injEq, reduceCtorEq,
      and_false] at he
  · obtain ⟨rfl, rfl⟩ := he
    exact hQ
  · obtain ⟨-, rfl⟩ := he
    exact hE _ w' hk

theorem commit_ensures {installation : Installation} {plan : PersistedPlan}
    (hg : Journal accepted w.job w → guard accepted (.commit installation plan) w)
    (hQ : Q () s { w with installation := commitInstallation installation plan })
    (hE : ∀ e w', Kept w w' → E e s w') :
    (logic accepted).Ensures () (perform (.commit installation plan) rfl) Q E s w := by
  refine invoke_ensures hg fun o w' r he _ ↦ ?_
  have hk : Kept w w' := by
    simpa only [he] using exec_kept (c := .commit installation plan) trivial o w
  rcases ho : o.ending with _ | _ | _ <;>
    simp only [exec, World.commit, World.install, Choice.visible, Choice.reply, ho, if_true,
      Prod.mk.injEq, Option.some.injEq, reduceCtorEq, and_false] at he
  · obtain ⟨rfl, rfl⟩ := he
    exact hQ
  · obtain ⟨-, rfl⟩ := he
    exact hE _ w' hk

theorem restoreDeployment_ensures {installation : Installation} {record : JobRecord}
    (hg : guard accepted (.restoreDeployment installation record) w)
    (hQ : ∀ w', Kept w w' → w'.history = w.history →
      w'.installation = record.originalInstallation → w'.running = w.running → Q () s w')
    (hE : ∀ e w', Kept w w' → E e s w') :
    (logic accepted).Ensures () (perform (.restoreDeployment installation record) rfl) Q E s w := by
  refine invoke_ensures (fun _ ↦ hg) fun o w' r he _ ↦ ?_
  have hk : Kept w w' := by
    simpa only [he] using exec_kept (c := .restoreDeployment installation record) trivial o w
  rcases ho : o.ending with _ | _ | _ <;>
    simp only [exec, World.restoreDeployment, World.deploy, World.install, Choice.visible,
      Choice.reply, ho, if_true, Prod.mk.injEq, Option.some.injEq, reduceCtorEq, and_false] at he
  · obtain ⟨rfl, rfl⟩ := he
    exact hQ _ hk rfl rfl rfl
  · obtain ⟨-, rfl⟩ := he
    exact hE _ w' hk

theorem verify_ensures {installation : Installation} {plan : PersistedPlan} {restored : Bool}
    (hQ : (∀ component, w.deployed component = installation.deployment.release
      ((if restored then installation.current else plan.targets) component)) → Q () s w)
    (hE : ∀ e, E e s w) :
    (logic accepted).Ensures () (perform (.verify installation plan restored) rfl) Q E s w := by
  refine invoke_ensures (fun _ ↦ trivial) fun o w' r he _ ↦ ?_
  obtain rfl : w = w' := by
    simpa only [exec, World.verify_fst] using congrArg Prod.fst he
  by_cases hv : w.deployed .backend = installation.deployment.release
        ((if restored then installation.current else plan.targets) .backend) ∧
      w.deployed .web = installation.deployment.release
        ((if restored then installation.current else plan.targets) .web)
  · simp only [exec, World.verify, if_pos hv, Prod.mk.injEq, true_and] at he
    rcases Choice.reply_eq he with ⟨-, rfl⟩ | ⟨error, -, rfl⟩
    · exact hQ (by rintro (_ | _); exacts [hv.1, hv.2])
    · exact hE _
  · simp only [exec, World.verify, if_neg hv, Prod.mk.injEq, true_and, Option.some.injEq] at he
    exact he ▸ hE _

end Commands

section Reads

variable {accepted s : JobRecord} {w : World} {E : Failure → JobRecord → World → Prop}

theorem now_ensures {Q : ℕ → JobRecord → World → Prop} (hQ : ∀ t, Q t s w) :
    (logic accepted).Ensures () now Q E s w := by
  refine invoke_ensures (fun _ ↦ trivial) fun o w' r he _ ↦ ?_
  obtain ⟨rfl, -⟩ : w = w' ∧ o.clock = r := by
    simpa only [exec, Prod.mk.injEq, Option.some.injEq] using he
  exact hQ r

theorem readJob_ensures {Q : JobRecord → JobRecord → World → Prop}
    (hQ : Journal accepted w.job (w.record (.jobRead w.job)) →
      Q w.job s (w.record (.jobRead w.job))) (hE : ∀ e w', Kept w w' → E e s w') :
    (logic accepted).Ensures () readJob Q E s w := by
  refine invoke_ensures (fun _ ↦ trivial) fun o w' r he hj ↦ ?_
  have hk : Kept w w' := by simpa only [he] using exec_kept (c := .readJob) trivial o w
  obtain ⟨rfl, hr⟩ : w.record (.jobRead w.job) = w' ∧ o.reply w.job = some r := by
    simpa only [exec, Prod.mk.injEq] using he
  rcases Choice.reply_eq hr with ⟨-, rfl⟩ | ⟨error, -, rfl⟩
  · exact hQ hj
  · exact hE _ _ hk

theorem backup_ensures {Q : BackupSnapshot → JobRecord → World → Prop} {context : BackupContext}
    {f : Reply (.backup context) → Except Failure BackupSnapshot} (hf : f = id) (hg : Quiet w)
    (hQ : ∀ snapshot, Q snapshot s (w.record (.backupTaken snapshot)))
    (hE : ∀ e w', Kept w w' → E e s w') :
    (logic accepted).Ensures () (invoke (.backup context) f) Q E s w := by
  refine invoke_ensures (fun _ ↦ hg) fun o w' r he _ ↦ ?_
  have hk : Kept w w' := by simpa only [he] using exec_kept (c := .backup context) trivial o w
  subst hf
  rcases ho : o.ending with _ | _ | _ <;>
    simp only [exec, Choice.reply, ho, Prod.mk.injEq, Option.some.injEq, reduceCtorEq,
      and_false] at he
  · obtain ⟨rfl, rfl⟩ := he
    exact hQ o.snapshot
  · obtain ⟨rfl, rfl⟩ := he
    exact hE _ _ hk

end Reads

end RustdeskConsole.Updater
