import RustdeskConsole.ServerBans.Queue

namespace RustdeskConsole.ServerBans

open Effects Function

variable {config : RuntimeConfig} {w w' w₀ : World} {bans : Bans} {ticket : ℕ} {job : Job}
  {α β : Type} {s : Unit} {task : Task}

section Turn

/-- A write in its turn, with the list that it finds or leaves. -/
structure Held (bans : Bans) (ticket : ℕ) (job : Job) (found now : Bans) (w : World) : Prop where
  active : Active ticket w
  job : w.jobs[ticket]? = some job
  replay : w.replay bans ticket = found
  bans : w.bans = now
  earlier : ∀ m < ticket, (w.reports m).isSome

variable {found now : Bans}

theorem Held.kept (hh : Held bans ticket job found now w) (hk : Kept ticket w w') :
    Held bans ticket job found now w' where
  active := ⟨hk.started.trans hh.active.started, hk.report.trans hh.active.report⟩
  job := by
    obtain ⟨later, heq⟩ := hk.jobs
    rw [← heq]
    exact List.getElem?_append_left (List.getElem?_eq_some_iff.mp hh.job).1 |>.trans hh.job
  replay := by
    have hlt := (List.getElem?_eq_some_iff.mp hh.job).1
    rw [replay_congr (prefix_take hk.jobs (Nat.le_of_lt hlt))
      fun m hm ↦ hk.earlier m hm (hh.earlier m hm)]
    exact hh.replay
  bans := (hk.bans hh.active).trans hh.bans
  earlier m hm := by
    rw [hk.earlier m hm (hh.earlier m hm)]
    exact hh.earlier m hm

/-- A part of a turn that keeps the list as it is. -/
def Idle (config : RuntimeConfig) (bans : Bans) (ticket : ℕ) (job : Job) (found now : Bans)
    (p : Handler α) : Prop :=
  ∀ s w, Held bans ticket job found now w → (logic config bans).Ensures (.work ticket) p
    (fun _ _ w' ↦ Held bans ticket job found now w')
    (fun _ _ w' ↦ Held bans ticket job found now w') s w

theorem idle_attempt {c : Command} {h : Reply c = Except Failure α}
    (hc : ∀ w, guard bans (.work ticket) c w)
    (hx : ∀ o w, (exec config (.work ticket) c o w).1 = w) :
    Idle config bans ticket job found now (attempt c h) := by
  intro s w hh
  refine .invoke fun w₁ hk _ ↦ ⟨hc w₁, fun o w₂ r he _ ↦ ?_⟩
  have hw : w₂ = w₁ := (congrArg Prod.fst he).symm.trans (hx o w₁)
  have hheld : Held bans ticket job found now w₂ := hw ▸ hh.kept hk
  generalize h ▸ r = reply
  cases reply with
  | ok a => exact hheld
  | error failure => exact hheld

theorem audited_spec {actor nodeId action : String} {work : Handler α} {after : Bans}
    {Q : α → Prop} (hw : (logic config bans).Ensures (.work ticket) work
      (fun result _ w' ↦ Q result ∧ Held bans ticket job found after w')
      (fun _ _ w' ↦ Held bans ticket job found now w') s w) :
    (logic config bans).Ensures (.work ticket) (audited actor nodeId action work)
      (fun result _ w' ↦ Q result ∧ Held bans ticket job found after w')
      (fun _ _ w' ↦ Held bans ticket job found now w') s w := by
  have hrecord : Idle config bans ticket job found after
      (attempt (.record actor nodeId action) rfl) := idle_attempt (fun _ ↦ trivial) fun _ _ ↦ rfl
  have hdenied : Idle config bans ticket job found now (attempt (.recordDenied actor nodeId action
      "Server management operation failed") rfl) := idle_attempt (fun _ ↦ trivial) fun _ _ ↦ rfl
  refine .bind (.tryCatch (hw.mono (fun result s₁ w₁ h₁ ↦ ?_) fun error s₁ w₁ h₁ ↦ ?_))
  · refine .bind (.tryCatch ((hrecord s₁ w₁ h₁.2).mono (fun _ s₂ w₂ h₂ ↦ ?_)
      fun _ s₂ w₂ h₂ ↦ ?_))
    · exact .pure ⟨h₁.1, h₂⟩
    · exact .pure (.pure ⟨h₁.1, h₂⟩)
  · refine .bind ((hdenied s₁ w₁ h₁).mono (fun _ s₂ w₂ h₂ ↦ ?_) fun _ _ _ h₂ ↦ h₂)
    exact .throw h₂

theorem put_spec {config' : RuntimeConfig} {body : ServerBansDto}
    (hh : Held bans ticket job found now w) :
    (logic config bans).Ensures (.work ticket)
      (fetchJson config' (attempt (.putBans body) rfl))
      (fun _ _ w' ↦ Held bans ticket job found body.bans w')
      (fun _ _ w' ↦ Held bans ticket job found now w') s w := by
  rw [fetchJson]
  split
  · exact .throw hh
  · refine .invoke fun w₁ hk _ ↦ ⟨(hh.kept hk).active, fun o w₂ r he _ ↦ ?_⟩
    rw [show (machine config).exec = exec config from rfl, exec] at he
    have hheld := hh.kept hk
    split at he
    · cases he
      exact ⟨⟨hheld.active.started, hheld.active.report⟩, hheld.job, hheld.replay, rfl,
        hheld.earlier⟩
    · cases he
      exact hheld

theorem getBans_spec {config' : RuntimeConfig} (hh : Held bans ticket job found now w) :
    (logic config bans).Ensures (.work ticket) (fetchJson config' (attempt .getBans rfl))
      (fun current _ w' ↦ Held bans ticket job found now w' ∧ current = now)
      (fun _ _ w' ↦ Held bans ticket job found now w') s w := by
  rw [fetchJson]
  split
  · exact .throw hh
  · refine .invoke fun w₁ hk _ ↦ ⟨trivial, fun o w₂ r he _ ↦ ?_⟩
    obtain ⟨rfl, hr⟩ := Prod.mk.inj he
    cases hr
    have hheld := hh.kept hk
    cases o.outcome with
    | ok u => exact ⟨hheld, hheld.bans⟩
    | error failure => exact hheld

/-- After a turn the list is what the report says. -/
theorem perform_spec (hh : Held bans ticket job found found w) :
    (logic config bans).Ensures (.work ticket) (perform config job)
      (fun report _ w' ↦ Held bans ticket job found
        (if report.succeeded then job.apply found else found) w') (fun _ _ _ ↦ False) s w := by
  cases job with
  | save actor nodeId dto =>
    have hwork : (logic config bans).Ensures (.work ticket)
        (do
          fetchJson config (attempt (.putBans dto) rfl)
          pure dto)
        (fun _ _ w' ↦ True ∧ Held bans ticket (.save actor nodeId dto) found dto.bans w')
        (fun _ _ w' ↦ Held bans ticket (.save actor nodeId dto) found found w') s w :=
      .bind ((put_spec hh).mono (fun _ _ _ h₁ ↦ .pure ⟨trivial, h₁⟩) fun _ _ _ h₁ ↦ h₁)
    exact .tryCatch (.map ((audited_spec hwork).mono (fun _ _ _ h₁ ↦ h₁.2)
      fun _ _ _ h₁ ↦ .pure h₁))
  | sync actor add remove =>
    have hruntime : Idle config bans ticket (.sync actor add remove) found found
        (attempt .runtime rfl) := idle_attempt (fun _ ↦ trivial) fun _ _ ↦ rfl
    refine .map (.tryCatch (.bind ((hruntime s w hh).mono (fun config' s₁ w₁ h₁ ↦ ?_)
      fun _ _ _ h₁ ↦ .pure h₁)))
    split
    · exact .pure h₁
    · refine .bind ((getBans_spec h₁).mono (fun current s₂ w₂ h₂ ↦ ?_) fun _ _ _ h₂ ↦ .pure h₂)
      obtain ⟨hh₂, rfl⟩ := h₂
      have hwork : (logic config bans).Ensures (.work ticket)
          (do
            fetchJson config' (attempt (.putBans (merged current add remove)) rfl)
            pure ⟨true, none, none⟩)
          (fun (result : DeviceBanSyncResult) _ w' ↦ result.enforced = true ∧
            Held bans ticket (.sync actor add remove) current (current.change add remove) w')
          (fun _ _ w' ↦ Held bans ticket (.sync actor add remove) current current w') s₂ w₂ :=
        .bind ((put_spec hh₂).mono (fun _ _ _ h₃ ↦ .pure ⟨rfl, merged_bans ▸ h₃⟩)
          fun _ _ _ h₃ ↦ h₃)
      refine (audited_spec hwork).mono (fun result _ _ h₃ ↦ ?_) fun _ _ _ h₃ ↦ .pure h₃
      rw [Report.succeeded, h₃.1]
      exact h₃.2

/-- A write starts in its turn and settles with a true report. -/
theorem turn_spec (hj : w.jobs[ticket]? = some job) (hd : w.due ticket = true)
    (hs : Serial bans w) : (logic config bans).Ensures (.work ticket) (turn config job)
      (fun _ _ _ ↦ True) (fun _ _ _ ↦ True) s w := by
  obtain ⟨hfresh, hprev⟩ := Bool.and_eq_true_iff.mp hd
  have hlt := (List.getElem?_eq_some_iff.mp hj).1
  rw [hs.awaits ticket hlt] at hprev
  have hearlier : ∀ m < ticket, (w.reports m).isSome := by
    intro m hm
    cases ticket with
    | zero => omega
    | succ previous =>
      have hprev : (w.reports previous).isSome := hprev
      by_cases heq : m = previous
      · exact heq ▸ hprev
      · exact hs.ordered previous (hs.started previous hprev) m (by omega)
  have hnone : w.started ticket = false := by simpa using hfresh
  refine .bind (.invoke fun w₁ hk hs₁ ↦ ?_)
  have hk : Kept ticket w w₁ := hk
  have hnone₁ : w₁.started ticket = false := hk.started.trans hnone
  have hearlier₁ : ∀ m < ticket, (w₁.reports m).isSome := by
    intro m hm
    rw [hk.earlier m hm (hearlier m hm)]
    exact hearlier m hm
  have hlt₁ : ticket < w₁.jobs.length := Nat.lt_of_lt_of_le hlt hk.jobs.length_le
  refine ⟨⟨hlt₁, hnone₁, hearlier₁⟩, fun o w₂ r he _ ↦ ?_⟩
  cases he
  have hreport : w₁.reports ticket = none := by
    by_contra hsome
    rw [hs₁.started ticket (Option.isSome_iff_ne_none.mpr hsome)] at hnone₁
    cases hnone₁
  have hj₁ : w₁.jobs[ticket]? = some job := by
    obtain ⟨later, heq⟩ := hk.jobs
    rw [← heq]
    exact (List.getElem?_append_left hlt).trans hj
  have hheld : Held bans ticket job (w₁.replay bans ticket) (w₁.replay bans ticket)
      (w₁.start ticket) :=
    ⟨⟨update_self .., hreport⟩, hj₁, rfl, hs₁.value ticket hearlier₁ hnone₁, hearlier₁⟩
  refine .bind ((perform_spec hheld).mono (fun report s₃ w₃ h₃ ↦ ?_) fun _ _ _ h₃ ↦ h₃.elim)
  refine .invoke fun w₄ hk₄ _ ↦ ⟨?_, fun _ _ _ _ _ ↦ trivial⟩
  have h₄ := h₃.kept hk₄
  refine ⟨h₄.active, job, h₄.job, ?_⟩
  rw [h₄.bans, h₄.replay]

end Turn

section Requests

/-- A request may do anything but start, settle or put. -/
theorem free_attempt {c : Command} {h : Reply c = Except Failure α}
    (hc : ∀ w, guard bans task c w) : (logic config bans).Ensures task (attempt c h)
      (fun _ _ _ ↦ True) (fun _ _ _ ↦ True) s w := by
  refine .invoke fun w₁ _ _ ↦ ⟨hc w₁, fun o w₂ r _ _ ↦ ?_⟩
  generalize h ▸ r = reply
  cases reply with
  | ok a => trivial
  | error failure => trivial

theorem free_ask {c : Command} (hc : ∀ w, guard bans task c w) :
    (logic config bans).Ensures task (ask c) (fun _ _ _ ↦ True) (fun _ _ _ ↦ True) s w :=
  .invoke fun w₁ _ _ ↦ ⟨hc w₁, fun _ _ _ _ _ ↦ trivial⟩

theorem requireNode_spec {config' : RuntimeConfig} {nodeId : String} {id : ℕ} {request : Request} :
    (logic config bans).Ensures (.request id request) (requireNode config' nodeId)
      (fun _ _ _ ↦ True) (fun _ _ _ ↦ True) s w := by
  have hfind : ∀ s w, (logic config bans).Ensures (.request id request) (ask (.findRelay nodeId))
      (fun _ _ _ ↦ True) (fun _ _ _ ↦ True) s w := fun _ _ ↦ free_ask fun _ ↦ trivial
  rw [requireNode]
  split
  · exact .throw trivial
  · split
    · exact .pure trivial
    · refine .bind ((hfind s w).mono (fun found s₁ w₁ _ ↦ ?_) fun _ _ _ _ ↦ trivial)
      split
      · exact .pure trivial
      · exact .throw trivial

theorem serve_spec {id : ℕ} {request : Request} :
    (logic config bans).Ensures (.request id request) (serve request)
      (fun _ _ _ ↦ True) (fun _ _ _ ↦ True) s w := by
  have henqueue : ∀ job s w, (logic config bans).Ensures (.request id request)
      (ask (.enqueueBansWrite job)) (fun _ _ _ ↦ True) (fun _ _ _ ↦ True) s w :=
    fun _ _ _ ↦ free_ask fun _ ↦ trivial
  cases hr : request with
  | saveBans actor nodeId dto =>
    have hruntime : (logic config bans).Ensures (.request id request) (attempt .runtime rfl)
        (fun _ _ _ ↦ True) (fun _ _ _ ↦ True) s w := free_attempt fun _ ↦ trivial
    subst hr
    refine .bind (hruntime.mono (fun config' s₁ w₁ _ ↦ ?_) fun _ _ _ _ ↦ trivial)
    refine .bind (requireNode_spec.mono (fun _ s₂ w₂ _ ↦ ?_) fun _ _ _ _ ↦ trivial)
    exact henqueue _ s₂ w₂
  | syncDeviceBans actor changes =>
    subst hr
    rw [serve, syncDeviceBans]
    split
    · exact .pure trivial
    · exact henqueue _ s w

theorem admissible : (logic config bans).Admissible := by
  intro task w p hs ha
  have hdone : ∀ handler : Handler Unit, (logic config bans).Ensures task handler
      (fun _ _ _ ↦ True) (fun _ _ _ ↦ True) () w →
        (logic config bans).Wp task (program handler) (fun _ _ ↦ True) w :=
    fun handler h ↦ Logic.Wp.bind (Logic.Wp.mono h fun _ _ _ ↦ trivial)
  cases task with
  | request id request =>
    subst ha
    exact hdone _ serve_spec
  | work ticket =>
    obtain ⟨hd, job, hj, rfl⟩ := ha
    exact hdone _ (turn_spec hj hd hs)

end Requests

section Runs

/-- No write has been queued yet. -/
structure Starts (w : World) : Prop where
  bansQueue : w.bansQueue = .resolved
  jobs : w.jobs = []
  started : ∀ n, w.started n = false
  reports : ∀ n, w.reports n = none

/-- Every write that was queued has settled. -/
def Quiescent (w : World) : Prop := ∀ n < w.jobs.length, (w.reports n).isSome

theorem serial_start (h₀ : Starts w₀) : Serial w₀.bans w₀ where
  bansQueue := by rw [h₀.bansQueue, h₀.jobs, List.length_nil, before]
  awaits n hn := by
    rw [h₀.jobs, List.length_nil] at hn
    omega
  ordered n hn := by
    rw [h₀.started] at hn
    cases hn
  started n hn := by
    rw [h₀.reports] at hn
    cases hn
  queued n hn := by
    rw [h₀.started] at hn
    cases hn
  value n _ _ := by
    rw [World.replay, World.succeeded, h₀.jobs, List.take_nil]
    rfl

/-- Once nothing is queued any more the list is the one that the successful
writes lead to, one after another as they were queued. -/
theorem bans_serialized {cfg : Config Task Command Reply World} (h₀ : Starts w₀)
    (hr : (machine config).Run (Machine.idle w₀) cfg) (hq : Quiescent cfg.world) :
    cfg.world.bans = cfg.world.replay w₀.bans cfg.world.jobs.length := by
  have hs := ((Logic.verified_idle (serial_start h₀)).run admissible hr).1
  refine hs.value _ hq ?_
  by_contra hn
  have hlt := hs.queued _ (by simpa using hn)
  omega

end Runs

section Sample

def sampleConfig : RuntimeConfig := ⟨some "http://hbbs", "primary"⟩

def sampleMachine : Machine Task Command Reply Choice World := machine sampleConfig

def sampleWorld : World :=
  ⟨⟨some [some "a", none, some "e"], some []⟩, .resolved, [], fun _ ↦ .resolved, fun _ ↦ false,
    fun _ ↦ none⟩

def sampleProgram : Task → Prog Command Reply Unit
  | .request _ request => program (serve request)
  | .work 0 => program (turn sampleConfig (.sync "admin" ["b"] ["a"]))
  | .work 1 => program (turn sampleConfig (.save "admin" "primary" ⟨["d"], []⟩))
  | .work _ => program (turn sampleConfig (.sync "admin" ["c"] []))

def sampleJob : Task → Option Job
  | .request .. => none
  | .work 0 => some (.sync "admin" ["b"] ["a"])
  | .work 1 => some (.save "admin" "primary" ⟨["d"], []⟩)
  | .work _ => some (.sync "admin" ["c"] [])

def sampleFresh : Task → World → Bool
  | .request .., _ => true
  | .work ticket, w => w.due ticket && w.jobs[ticket]? = sampleJob (.work ticket)

theorem sampleFresh_admits (task : Task) (w : World) (h : sampleFresh task w = true) :
    sampleMachine.admits task w (sampleProgram task) := by
  cases task with
  | request id request => rfl
  | work ticket =>
    simp only [sampleFresh, Bool.and_eq_true, decide_eq_true_eq] at h
    refine ⟨h.1, ?_⟩
    match ticket with
    | 0 => exact ⟨_, h.2, rfl⟩
    | 1 => exact ⟨_, h.2, rfl⟩
    | _ + 2 => exact ⟨_, h.2, rfl⟩

def succeeds : Choice := ⟨.ok (), true⟩

def fails : Choice := ⟨.error (.unavailable "Server management unavailable"), true⟩

/-- Three writes overlap; the one in the middle fails. -/
def sampleRun : Config Task Command Reply World :=
  sampleMachine.schedule sampleProgram sampleFresh
    [(.request 1 (.syncDeviceBans "admin" ⟨some ["b", "b"], some ["a"]⟩), [succeeds]),
      (.work 0, [succeeds, succeeds, succeeds]),
      (.request 2 (.saveBans "admin" "primary" ⟨["d"], []⟩), [succeeds, succeeds]),
      (.request 3 (.syncDeviceBans "admin" ⟨some ["c"], none⟩), [succeeds]),
      (.work 0, [succeeds, fails, succeeds]), (.work 1, [succeeds, fails, fails, succeeds]),
      (.work 2, [succeeds, succeeds, succeeds, succeeds, succeeds, succeeds])]
    (Machine.idle sampleWorld)

theorem sample_serialized :
    sampleRun.world.bans = sampleRun.world.replay sampleWorld.bans sampleRun.world.jobs.length ∧
      sampleRun.world.bans.deviceIds = some [some "e", some "b", some "c"] :=
  ⟨bans_serialized ⟨rfl, rfl, fun _ ↦ rfl, fun _ ↦ rfl⟩ (Machine.schedule_run sampleFresh_admits _)
    (by unfold Quiescent; decide +kernel), by decide +kernel⟩

end Sample

end RustdeskConsole.ServerBans
