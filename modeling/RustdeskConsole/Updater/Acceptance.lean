import RustdeskConsole.Effects.History
import RustdeskConsole.Updater.Control
import RustdeskConsole.Updater.Live

namespace RustdeskConsole.Updater

open Effects Effects.History

/-- What a request whose key already belongs to a job may be answered: the job,
if the request is the same, and otherwise a conflict. A read that failed is the
only excuse, and nothing is stored meanwhile. -/
structure Repeated (body : CreateJobRequest) (outcome : Except Failure CreateJobResponse)
    (during : List Notice) (job : StoredJob) : Prop where
  untouched : ∀ other, .stored other ∉ during
  honest : ∀ response, outcome = .ok response →
    response.jobId = job.jobId ∧ body.planId = job.planId
  same : .failed ∉ during → body.planId = job.planId → ∃ response, outcome = .ok response
  different : .failed ∉ during → body.planId ≠ job.planId →
    outcome = .error (.update "IDEMPOTENCY_CONFLICT"
      "This idempotency key belongs to a different request.")

def Notice.begins : Notice → Bool
  | .received .. => true
  | _ => false

def Notice.stores : Notice → Bool
  | .stored _ => true
  | _ => false

/-- The answer to the request that was received after `before`. -/
def Answers (body : CreateJobRequest) (actorId : String) (before : List Notice)
    (outcome : Except Failure CreateJobResponse) (notices : List Notice) : Prop :=
  ∃ during, notices = during ++ .received body actorId :: before ∧
    (∀ notice ∈ during, notice.begins = false) ∧
    (body.valid actorId = true → ∀ job, .stored job ∈ before →
      job.idempotencyKey = body.idempotencyKey → Repeated body outcome during job)

def law (earlier : List Notice) : Notice → Prop
  | .answered body outcome => ∃ actorId before, Answers body actorId before outcome earlier
  | _ => True

/-- A later version of a stored job. -/
structure StoredJob.Later (a b : StoredJob) : Prop where
  jobId : a.jobId = b.jobId
  key : a.idempotencyKey = b.idempotencyKey
  digest : a.requestDigest = b.requestDigest
  plan : a.planId = b.planId
  ended : a.terminal = true → b.terminal = true

namespace StoredJob.Later

variable {a b c : StoredJob}

theorem refl (a : StoredJob) : a.Later a := ⟨rfl, rfl, rfl, rfl, id⟩

theorem trans (hab : a.Later b) (hbc : b.Later c) : a.Later c :=
  ⟨hab.jobId.trans hbc.jobId, hab.key.trans hbc.key, hab.digest.trans hbc.digest,
    hab.plan.trans hbc.plan, fun h ↦ hbc.ended (hab.ended h)⟩

end StoredJob.Later

/-- What others do while the control process waits. -/
structure Evolves (h h' : Host) : Prop where
  notices : h'.notices = h.notices
  jobs : List.Forall₂ StoredJob.Later h.jobs h'.jobs

/-- What is true of the jobs directory and of the answers given. -/
structure Orderly (digest : String → Bool → String) (h : Host) : Prop where
  ids : (h.jobs.map StoredJob.jobId).Nodup
  keys : (h.jobs.map StoredJob.idempotencyKey).Nodup
  single : (h.jobs.filter (!·.terminal)).length ≤ 1
  digests : ∀ job ∈ h.jobs, job.requestDigest = digest job.planId true
  stored : ∀ job, .stored job ∈ h.notices → ∃ job' ∈ h.jobs, job.Later job'
  lawful : Lawful law h.notices

section Evolution

variable {digest : String → Bool → String} {h h' h'' : Host} {as bs : List StoredJob}

theorem forall₂_later_map {β : Type} {f : StoredJob → β} (hf : ∀ a b, a.Later b → f a = f b)
    (h : List.Forall₂ StoredJob.Later as bs) : bs.map f = as.map f := by
  induction h with
  | nil => rfl
  | cons hab _ ih => rw [List.map_cons, List.map_cons, ih, hf _ _ hab]

theorem forall₂_later_exists (h : List.Forall₂ StoredJob.Later as bs) :
    (∀ a ∈ as, ∃ b ∈ bs, a.Later b) ∧ ∀ b ∈ bs, ∃ a ∈ as, a.Later b := by
  induction h with
  | nil => exact ⟨fun _ ha ↦ absurd ha List.not_mem_nil, fun _ hb ↦ absurd hb List.not_mem_nil⟩
  | @cons a b as bs hab _ ih =>
    refine ⟨List.forall_mem_cons.mpr ⟨⟨b, .head _, hab⟩, fun c hc ↦ ?_⟩,
      List.forall_mem_cons.mpr ⟨⟨a, .head _, hab⟩, fun c hc ↦ ?_⟩⟩
    · obtain ⟨d, hd, hcd⟩ := ih.1 c hc
      exact ⟨d, .tail _ hd, hcd⟩
    · obtain ⟨d, hd, hdc⟩ := ih.2 c hc
      exact ⟨d, .tail _ hd, hdc⟩

theorem forall₂_later_unfinished (h : List.Forall₂ StoredJob.Later as bs) :
    (bs.filter (!·.terminal)).length ≤ (as.filter (!·.terminal)).length := by
  induction h with
  | nil => exact Nat.le_refl _
  | @cons a b as bs hab _ ih =>
    have hended := hab.ended
    rcases ha : a.terminal with _ | _ <;> rcases hb : b.terminal with _ | _
    · simp only [List.filter_cons, ha, hb, Bool.not_false, if_true, List.length_cons]
      omega
    · simp only [List.filter_cons, ha, hb, Bool.not_false, if_true, List.length_cons,
        Bool.not_true, Bool.false_eq_true, if_false]
      omega
    · rw [ha, hb] at hended
      exact absurd (hended rfl) Bool.false_ne_true
    · simpa only [List.filter_cons, ha, hb, Bool.not_true, Bool.false_eq_true, if_false] using ih

theorem Evolves.refl (h : Host) : Evolves h h :=
  ⟨rfl, List.forall₂_same.mpr fun a _ ↦ .refl a⟩

theorem Evolves.trans (hh : Evolves h h') (hh' : Evolves h' h'') : Evolves h h'' where
  notices := hh'.notices.trans hh.notices
  jobs := by
    have htrans : ∀ {as bs cs}, List.Forall₂ StoredJob.Later as bs →
        List.Forall₂ StoredJob.Later bs cs → List.Forall₂ StoredJob.Later as cs := by
      intro as bs cs hab
      induction hab generalizing cs with
      | nil => exact fun h ↦ h
      | cons hab _ ih =>
        intro hbc
        cases hbc with
        | cons hbc hrest => exact .cons (hab.trans hbc) (ih hrest)
    exact htrans hh.jobs hh'.jobs

theorem Orderly.evolves (ho : Orderly digest h) (he : Evolves h h') : Orderly digest h' where
  ids := by rw [forall₂_later_map (fun _ _ h ↦ h.jobId) he.jobs]; exact ho.ids
  keys := by rw [forall₂_later_map (fun _ _ h ↦ h.key) he.jobs]; exact ho.keys
  single := (forall₂_later_unfinished he.jobs).trans ho.single
  digests job hj := by
    obtain ⟨a, ha, hab⟩ := (forall₂_later_exists he.jobs).2 job hj
    rw [← hab.digest, ← hab.plan]
    exact ho.digests a ha
  stored job hj := by
    rw [he.notices] at hj
    obtain ⟨a, ha, hja⟩ := ho.stored job hj
    obtain ⟨b, hb, hab⟩ := (forall₂_later_exists he.jobs).1 a ha
    exact ⟨b, hb, hja.trans hab⟩
  lawful := he.notices ▸ ho.lawful

theorem Orderly.notify {notice : Notice} (ho : Orderly digest h) (hl : law h.notices notice)
    (hs : notice.stores = false) : Orderly digest (h.notify notice) := by
  refine ⟨ho.ids, ho.keys, ho.single, ho.digests, fun job hj ↦ ?_, lawful_cons.mpr ⟨hl, ho.lawful⟩⟩
  rcases List.mem_cons.mp hj with heq | hj
  · rw [← heq] at hs
    cases hs
  · exact ho.stored job hj

/-- When a job may be stored: it is new, and no other job is unfinished. -/
structure Storable (digest : String → Bool → String) (job : StoredJob) (h : Host) : Prop where
  jobId : ∀ other ∈ h.jobs, other.jobId ≠ job.jobId
  key : ∀ other ∈ h.jobs, other.idempotencyKey ≠ job.idempotencyKey
  ended : ∀ other ∈ h.jobs, other.terminal = true
  digest : job.requestDigest = digest job.planId true

theorem Storable.jobs {job : StoredJob} (hs : Storable digest job h) :
    (h.store job).jobs = h.jobs ++ [job] := by
  have hkeep : h.jobs.filter (·.jobId ≠ job.jobId) = h.jobs :=
    List.filter_eq_self.mpr fun other ho ↦ decide_eq_true (hs.jobId other ho)
  simp only [Host.store, Host.notify, hkeep]

theorem Orderly.store {job : StoredJob} (ho : Orderly digest h) (hs : Storable digest job h) :
    Orderly digest (h.store job) := by
  have hnodup : ∀ {f : StoredJob → String}, (h.jobs.map f).Nodup →
      (∀ other ∈ h.jobs, f other ≠ f job) → ((h.store job).jobs.map f).Nodup := by
    intro f hn hne
    rw [hs.jobs, List.map_append, List.map_singleton]
    refine List.nodup_append.mpr ⟨hn, List.nodup_singleton _, fun a ha b hb ↦ ?_⟩
    obtain ⟨other, ho, rfl⟩ := List.mem_map.mp ha
    rw [List.mem_singleton.mp hb]
    exact hne other ho
  refine ⟨hnodup ho.ids hs.jobId, hnodup ho.keys hs.key, ?_, fun other hm ↦ ?_, fun other hm ↦ ?_,
    lawful_cons.mpr ⟨trivial, ho.lawful⟩⟩
  · have hnone : h.jobs.filter (!·.terminal) = [] :=
      List.filter_eq_nil_iff.mpr fun other ho ↦ by simp [hs.ended other ho]
    rw [hs.jobs, List.filter_append, hnone, List.nil_append]
    exact List.length_filter_le _ _
  · rw [hs.jobs, List.mem_append, List.mem_singleton] at hm
    rcases hm with hm | rfl
    · exact ho.digests other hm
    · exact hs.digest
  · rw [hs.jobs]
    rcases List.mem_cons.mp hm with heq | hm
    · cases heq
      exact ⟨job, List.mem_append_right _ (.head _), .refl _⟩
    · obtain ⟨a, ha, hoa⟩ := ho.stored other hm
      exact ⟨a, List.mem_append_left _ ha, hoa⟩

theorem Orderly.find? (ho : Orderly digest h) {jobId : String} {job : StoredJob} :
    h.find? jobId = some job ↔ job ∈ h.jobs ∧ job.jobId = jobId := by
  constructor
  · intro hf
    exact ⟨List.mem_of_find?_eq_some hf, by simpa using List.find?_some hf⟩
  · rintro ⟨hm, rfl⟩
    obtain ⟨found, hf⟩ : ∃ found, h.find? job.jobId = some found := by
      rw [← Option.isSome_iff_exists, Host.find?, List.find?_isSome]
      exact ⟨job, hm, decide_eq_true rfl⟩
    have hid : found.jobId = job.jobId := by simpa using List.find?_some hf
    obtain rfl := List.inj_on_of_nodup_map ho.ids (List.mem_of_find?_eq_some hf) hm hid
    exact hf

end Evolution

section Worker

variable {digest : String → Bool → String} {h : Host} {jobId : String} {job : StoredJob}

/-- What a worker may do to the file of its job. -/
theorem live_later {c : Command} {w : World} (hg : live.guard () c w) (o : Choice) :
    (exec c o w).1.job.view.jobId = w.job.view.jobId ∧
      (w.job.terminal = true → (exec c o w).1.job.terminal = true) := by
  by_cases hc : c.saves = false
  · rw [exec_job hc o w]
    exact ⟨rfl, id⟩
  · cases c with
    | saveJob record =>
      obtain ⟨hf, hj⟩ := hg record rfl
      rw [hf]
      refine ⟨?_, fun ht ↦ absurd ht Bool.false_ne_true⟩
      rcases saveJob_job record o w with hw | hw <;> rw [hw]
      exact hj
    | _ => exact absurd rfl hc

theorem unfocus_evolves {w : World} (hj : w.job.view.jobId = jobId)
    (ht : ∀ job ∈ h.jobs, job.jobId = jobId → job.terminal = true → w.job.terminal = true) :
    Evolves h (h.unfocus jobId w) := by
  refine ⟨rfl, List.forall₂_map_right_iff.mpr (List.forall₂_same.mpr fun job hm ↦ ?_)⟩
  split
  · rename_i hid
    exact ⟨hid.trans hj.symm, rfl, rfl, rfl, ht job hm hid⟩
  · exact .refl job

theorem worker_evolves (ho : Orderly digest h) {c : Command} (hf : h.find? jobId = some job)
    (hg : live.guard () c (h.focus job)) (o : HostChoice) :
    Evolves h (hostExec (.worker jobId c) o h).1 := by
  obtain ⟨hj, ht⟩ := live_later hg o.call
  obtain ⟨hm, hid⟩ := ho.find?.mp hf
  simp only [hostExec, hf]
  refine unfocus_evolves (hj.trans hid) fun other hother hoid hended ↦ ht ?_
  obtain rfl := List.inj_on_of_nodup_map ho.ids hother hm (hoid.trans hid.symm)
  exact hended

end Worker

/-- What each command needs before it is issued. -/
def hostGuard (digest : String → Bool → String) : Party → HostCommand → Host → Prop
  | .control, .writeJob job, h => Storable digest job h
  | .control, .respond body outcome, h => law h.notices (.answered body outcome)
  | .control, .worker _ _, _ => False
  | .control, _, _ => True
  | .worker, .worker jobId c, h => ∃ job, h.find? jobId = some job ∧ live.guard () c (h.focus job)
  | .worker, _, _ => False

/-- The control process may rely on the jobs it knows going on; a worker may rely
on its file. -/
def hostRely : Party → Host → Host → Prop
  | .control, h, h' => Evolves h h'
  | .worker, h, h' => ∀ jobId job, h.find? jobId = some job → h'.find? jobId = some job

section Keeping

variable {digest : String → Bool → String} {h : Host}

theorem read_orderly {α : Type} (ho : Orderly digest h) (a : α) (o : Choice) :
    Orderly digest (h.read a o).1 := by
  rcases he : o.ending with _ | _ | _ <;> simp only [Host.read, he]
  · exact ho
  · exact ho.notify trivial rfl
  · exact ho.notify trivial rfl

theorem read_jobs {α : Type} (a : α) (o : Choice) : (h.read a o).1.jobs = h.jobs := by
  rcases he : o.ending with _ | _ | _ <;> simp only [Host.read, he, Host.notify]

theorem control_keeps {c : HostCommand} (o : HostChoice) (ho : Orderly digest h)
    (hg : hostGuard digest .control c h) : Orderly digest (hostExec c o h).1 := by
  cases c with
  | receive => exact ho.notify trivial rfl
  | respond => exact ho.notify hg rfl
  | loadInstallation | readdir | readPlan => exact read_orderly ho _ _
  | readJob jobId =>
    simp only [hostExec]
    split
    · exact read_orderly ho _ _
    · exact ho.notify trivial rfl
  | planner | now | randomUUID | startWorker | workerAlive => exact ho
  | writeJob job =>
    simp only [hostExec, Host.writeJob]
    split
    · exact ho.store hg
    · exact ho
  | worker => exact hg.elim

/-- No command of the control process touches a file that is there. -/
theorem control_jobs {c : HostCommand} (o : HostChoice) (hg : hostGuard digest .control c h) :
    ∃ new, (hostExec c o h).1.jobs = h.jobs ++ new := by
  have hsame : ∀ {jobs}, jobs = h.jobs → ∃ new, jobs = h.jobs ++ new :=
    fun hj ↦ ⟨[], hj.trans (List.append_nil _).symm⟩
  cases c with
  | receive | respond => exact hsame rfl
  | loadInstallation | readdir | readPlan => exact hsame (read_jobs _ _)
  | readJob jobId =>
    simp only [hostExec]
    split
    · exact hsame (read_jobs _ _)
    · exact hsame rfl
  | planner | now | randomUUID | startWorker | workerAlive => exact hsame rfl
  | writeJob job =>
    simp only [hostExec, Host.writeJob]
    split
    · exact ⟨[job], Storable.jobs hg⟩
    · exact hsame rfl
  | worker => exact hg.elim

end Keeping

variable {digest : String → Bool → String}

def hostLogic (digest : String → Bool → String) : Logic (host digest) where
  inv := Orderly digest
  guard := hostGuard digest
  rely := hostRely
  rely_refl i h := by
    cases i with
    | control => exact Evolves.refl h
    | worker => exact fun _ _ ↦ id
  rely_trans i _ _ _ h h' := by
    cases i with
    | control => exact Evolves.trans h h'
    | worker => exact fun jobId job hf ↦ h' jobId job (h jobId job hf)
  keeps {i c} o w ho hg := by
    cases i with
    | control => exact control_keeps o ho hg
    | worker =>
      cases c with
      | worker jobId c =>
        obtain ⟨job, hf, hg⟩ := hg
        exact ho.evolves (worker_evolves ho hf hg o)
      | _ => exact hg.elim
  interferes {i j c} o w hij ho hg := by
    cases i with
    | control =>
      cases j with
      | control => exact absurd rfl hij
      | worker =>
        cases c with
        | worker jobId c =>
          obtain ⟨job, hf, hg⟩ := hg
          exact worker_evolves ho hf hg o
        | _ => exact hg.elim
    | worker =>
      cases j with
      | worker => exact absurd rfl hij
      | control =>
        intro jobId job hf
        obtain ⟨new, hnew⟩ := control_jobs o hg
        have hnew : ((host digest).exec .control c o w).1.jobs = w.jobs ++ new := hnew
        rw [Host.find?, hnew, List.find?_append, ← Host.find?, hf, Option.some_or]

section Workers

theorem find?_unfocus {h : Host} {jobId : String} {job : StoredJob} {w : World}
    (ho : Orderly digest (h.unfocus jobId w)) (hf : h.find? jobId = some job)
    (hj : w.job.view.jobId = jobId) :
    (h.unfocus jobId w).find? jobId = some { job with record := w.job } := by
  refine ho.find?.mpr ⟨List.mem_map.mpr ⟨job, List.mem_of_find?_eq_some hf, ?_⟩, hj⟩
  rw [if_pos (by simpa using List.find?_some hf)]

/-- A worker sees the host with its own job in the place of all jobs. -/
def workerEmbedding (digest : String → Bool → String) (jobId : String) :
    Logic.Embedding live (hostLogic digest) () .worker (.worker jobId) fun _ ↦ id where
  sees h w := ∃ job, h.find? jobId = some job ∧ w = h.focus job
  rely {h h' w} hr _ hs := by
    obtain ⟨job, hf, rfl⟩ := hs
    exact ⟨h'.focus job, ⟨job, hr jobId job hf, rfl⟩, rfl, trivial⟩
  guard {c h w} _ hs hg := by
    obtain ⟨job, hf, rfl⟩ := hs
    exact ⟨job, hf, hg⟩
  exec {c o h h' w r} ho hs hg he := by
    obtain ⟨job, hf, rfl⟩ := hs
    have he : hostExec (.worker jobId c) o h = (h', some r) := he
    have hkeep := ho.evolves (worker_evolves ho hf hg o)
    have hid := (live_later hg o.call).1.trans (ho.find?.mp hf).2
    simp only [hostExec, hf] at he hkeep
    obtain ⟨rfl, hr⟩ := Prod.mk.inj he
    exact ⟨o.call, (exec c o.call (h.focus job)).1, Prod.ext rfl hr, _,
      find?_unfocus hkeep hf hid, rfl⟩

theorem worker_admissible {h : Host} {jobId : String} {memory : JobRecord} {main : Worker Unit}
    (hf : (h.find? jobId).isSome) (hm : main ∈ [workerMain, recoverMain]) :
    (hostLogic digest).Wp .worker ((fun _ ↦ ()) <$> forJob jobId (main.start memory))
      (fun _ _ ↦ True) h := by
  obtain ⟨job, hf⟩ := Option.isSome_iff_exists.mp hf
  have hmain : Sound main := by
    rcases List.mem_pair.mp hm with rfl | rfl
    · exact workerMain_live
    · exact recoverMain_live
  have hw : live.Wp () (main.start memory) _ (h.focus job) := hmain memory (h.focus job)
  have ht := hw.translate (workerEmbedding digest jobId) ⟨job, hf, rfl⟩
  exact Logic.Wp.bind (f := fun _ ↦ .done ()) (ht.mono fun _ _ _ ↦ trivial)

end Workers

section Reads

open UpdateControl

variable {s : JobRecord} {h : Host} {α : Type} {E : Failure → JobRecord → Host → Prop}

/-- A read replies something of `V`, or leaves a notice that it failed. -/
def Reads (c : HostCommand) (f : HostReply c → Except Failure α) (V : α → Host → Prop) : Prop :=
  ∀ o h h' r, hostExec c o h = (h', some r) → (h' = h ∧ ∃ a, f r = .ok a ∧ V a h) ∨
    (h' = h.notify .failed ∧ ∃ e, f r = .error e)

theorem read_cases {V : α → Host → Prop} {a : α} {o : Choice} {h' : Host} {r : Except Failure α}
    (hr : h.read a o = (h', some r)) (hV : V a h) : (h' = h ∧ ∃ a, r = .ok a ∧ V a h) ∨
      (h' = h.notify .failed ∧ ∃ e, r = .error e) := by
  rcases hc : o.ending with _ | error | _ <;>
    simp only [Host.read, hc, Choice.reply, Prod.mk.injEq, Option.some.injEq, reduceCtorEq,
      and_false] at hr
  · exact .inl ⟨hr.1.symm, a, hr.2.symm, hV⟩
  · exact .inr ⟨hr.1.symm, _, hr.2.symm⟩

theorem Reads.ensures {c : HostCommand} {f : HostReply c → Except Failure α}
    {V : α → Host → Prop} (hr : Reads c f V) (hg : ∀ h, hostGuard digest .control c h)
    {Q : α → JobRecord → Host → Prop}
    (hQ : ∀ a h', Evolves h h' → Orderly digest h' → V a h' → Q a s h')
    (hE : ∀ e h', Evolves h h' → E e s (h'.notify .failed)) :
    (hostLogic digest).Ensures .control (invoke c f) Q E s h := by
  refine .invoke fun h₁ he ho ↦ ⟨hg h₁, fun o h₂ r hx _ ↦ ?_⟩
  rcases hr o h₁ h₂ r hx with ⟨rfl, a, ha, hV⟩ | ⟨rfl, e, hf⟩
  · rw [ha]
    exact hQ a _ he ho hV
  · rw [hf]
    exact hE e h₁ he

theorem reload_reads : Reads .loadInstallation (fun reply ↦ reply) fun _ _ ↦ True :=
  fun _ _ _ _ hx ↦ read_cases (V := fun _ _ ↦ True) hx trivial

theorem readPlan_reads {planId : String} :
    Reads (.readPlan planId) (fun reply ↦ reply) fun _ _ ↦ True :=
  fun _ _ _ _ hx ↦ read_cases (V := fun _ _ ↦ True) hx trivial

theorem readdir_reads : Reads .readdir (fun reply ↦ reply) fun jobIds h ↦
    jobIds.Perm (h.jobs.map StoredJob.jobId) := by
  intro o h h' r hx
  refine read_cases (V := fun jobIds h ↦ jobIds.Perm (h.jobs.map StoredJob.jobId)) hx ?_
  unfold HostChoice.listing
  split
  · rename_i hp
    exact List.isPerm_iff.mp hp
  · exact .refl _

theorem readJob_reads {jobId : String} : Reads (.readJob jobId) (fun reply ↦ reply)
    fun job h ↦ h.find? jobId = some job := by
  intro o h h' r hx
  cases hf : h.find? jobId with
  | some job =>
    simp only [hostExec, hf] at hx
    exact read_cases (V := fun job h ↦ h.find? jobId = some job) hx hf
  | none =>
    simp only [hostExec, hf, Prod.mk.injEq, Option.some.injEq] at hx
    exact .inr ⟨hx.1.symm, _, hx.2.symm⟩

/-- Each file is read at its own moment; what was read has only gone on since. -/
theorem readJobs_ensures {jobIds : List String} {Q : List StoredJob → JobRecord → Host → Prop}
    (hQ : ∀ jobs h', Evolves h h' → Orderly digest h' →
      (∀ jobId ∈ jobIds, ∃ job ∈ jobs, job.jobId = jobId) →
      (∀ job ∈ jobs, ∃ job' ∈ h'.jobs, job.Later job') → Q jobs s h')
    (ho : Orderly digest h) (hE : ∀ e h', Evolves h h' → E e s (h'.notify .failed)) :
    (hostLogic digest).Ensures .control (readJobs jobIds) Q E s h := by
  induction jobIds generalizing h Q with
  | nil =>
    exact .pure (hQ [] h (.refl h) ho (fun _ hm ↦ absurd hm List.not_mem_nil)
      fun _ hm ↦ absurd hm List.not_mem_nil)
  | cons jobId jobIds ih =>
    refine .bind (readJob_reads.ensures (fun _ ↦ trivial) (fun job h₁ he₁ ho₁ hf ↦ ?_) hE)
    refine .bind (ih (fun jobs h₂ he₂ ho₂ hall hlater ↦ .pure ?_) ho₁
      fun e h₂ he₂ ↦ hE e h₂ (he₁.trans he₂))
    obtain ⟨hm, hid⟩ := ho₁.find?.mp hf
    refine hQ _ h₂ (he₁.trans he₂) ho₂ (List.forall_mem_cons.mpr ⟨⟨job, .head _, hid⟩,
      fun other hother ↦ ?_⟩) (List.forall_mem_cons.mpr
        ⟨(forall₂_later_exists he₂.jobs).1 job hm, hlater⟩)
    obtain ⟨found, hfound, hfid⟩ := hall other hother
    exact ⟨found, .tail _ hfound, hfid⟩

theorem jobs_ensures {Q : List StoredJob → JobRecord → Host → Prop}
    (hQ : ∀ jobs h', Evolves h h' → Orderly digest h' →
      (∀ job' ∈ h'.jobs, ∃ job ∈ jobs, job.Later job') →
      (∀ job ∈ jobs, ∃ job' ∈ h'.jobs, job.Later job') → Q jobs s h')
    (hE : ∀ e h', Evolves h h' → E e s (h'.notify .failed)) :
    (hostLogic digest).Ensures .control jobs Q E s h := by
  refine .bind (readdir_reads.ensures (fun _ ↦ trivial) (fun jobIds h₁ he₁ ho₁ hp ↦ ?_) hE)
  refine .bind (readJobs_ensures (fun jobs h₂ he₂ ho₂ hall hlater ↦ .pure ?_) ho₁
    fun e h₂ he₂ ↦ hE e h₂ (he₁.trans he₂))
  have hmem : ∀ job, job ∈ newestFirst jobs ↔ job ∈ jobs := fun job ↦ List.mem_insertionSort _
  refine hQ _ h₂ (he₁.trans he₂) ho₂ (fun job' hj' ↦ ?_) fun job hj ↦ hlater job ((hmem job).mp hj)
  have hid : job'.jobId ∈ jobIds := by
    rw [hp.mem_iff, ← forall₂_later_map (fun _ _ h ↦ h.jobId) he₂.jobs]
    exact List.mem_map_of_mem hj'
  obtain ⟨job, hj, hjid⟩ := hall _ hid
  obtain ⟨other, hother, hlt⟩ := hlater job hj
  obtain rfl := List.inj_on_of_nodup_map ho₂.ids hother hj' (hlt.jobId.symm.trans hjid)
  exact ⟨job, (hmem job).mpr hj, hlt⟩

end Reads

section Requests

open UpdateControl

variable {s : JobRecord} {h h' : Host} {body : CreateJobRequest} {actorId : String}
  {before : List Notice}

/-- The request is being handled, and nothing was stored for it yet. -/
def Waiting (body : CreateJobRequest) (actorId : String) (before : List Notice) (h : Host) : Prop :=
  ∃ during, h.notices = during ++ .received body actorId :: before ∧
    ∀ notice ∈ during, notice.begins = false ∧ notice.stores = false

/-- The request is being handled, and its key is new. -/
def Unclaimed (body : CreateJobRequest) (actorId : String) (before : List Notice) (h : Host) :
    Prop :=
  (∃ during, h.notices = during ++ .received body actorId :: before ∧
    ∀ notice ∈ during, notice.begins = false) ∧
  ∀ job, .stored job ∈ before → job.idempotencyKey ≠ body.idempotencyKey

theorem Waiting.evolves (hw : Waiting body actorId before h) (he : Evolves h h') :
    Waiting body actorId before h' := by
  obtain ⟨during, hn, hd⟩ := hw
  exact ⟨during, he.notices.trans hn, hd⟩

theorem Unclaimed.evolves (hu : Unclaimed body actorId before h) (he : Evolves h h') :
    Unclaimed body actorId before h' := by
  obtain ⟨⟨during, hn, hd⟩, hnew⟩ := hu
  exact ⟨⟨during, he.notices.trans hn, hd⟩, hnew⟩

theorem Unclaimed.notify {notice : Notice} (hu : Unclaimed body actorId before h)
    (hb : notice.begins = false) : Unclaimed body actorId before (h.notify notice) := by
  obtain ⟨⟨during, hn, hd⟩, hnew⟩ := hu
  exact ⟨⟨notice :: during, congrArg (notice :: ·) hn, List.forall_mem_cons.mpr ⟨hb, hd⟩⟩, hnew⟩

theorem Unclaimed.answers (hu : Unclaimed body actorId before h)
    (outcome : Except Failure CreateJobResponse) :
    Answers body actorId before outcome h.notices := by
  obtain ⟨⟨during, hn, hd⟩, hnew⟩ := hu
  exact ⟨during, hn, hd, fun _ job hj hk ↦ absurd hk (hnew job hj)⟩

/-- A failed read excuses the error. -/
theorem Waiting.excused (hw : Waiting body actorId before h) (e : Failure) :
    Answers body actorId before (.error e) (h.notify .failed).notices := by
  obtain ⟨during, hn, hd⟩ := hw
  have hfailed : Notice.failed ∈ Notice.failed :: during := .head _
  refine ⟨.failed :: during, congrArg (_ :: ·) hn,
    List.forall_mem_cons.mpr ⟨rfl, fun notice hm ↦ (hd notice hm).1⟩, fun _ job _ _ ↦ ?_⟩
  refine ⟨fun other hm ↦ ?_, nofun, fun hf ↦ absurd hfailed hf, fun hf ↦ absurd hfailed hf⟩
  rcases List.mem_cons.mp hm with heq | hm
  · cases heq
  · cases (hd _ hm).2

theorem Waiting.invalid (hw : Waiting body actorId before h) (hv : body.valid actorId = false)
    (outcome : Except Failure CreateJobResponse) :
    Answers body actorId before outcome h.notices := by
  obtain ⟨during, hn, hd⟩ := hw
  refine ⟨during, hn, fun notice hm ↦ (hd notice hm).1, fun hvalid ↦ ?_⟩
  rw [hv] at hvalid
  cases hvalid

theorem CreateJobRequest.acknowledged (hv : body.valid actorId = true) :
    body.acknowledgeDowntime = true := by
  simp only [CreateJobRequest.valid, Bool.and_eq_true] at hv
  exact hv.1.1.2

/-- The job that has the key is the one the request is answered with. -/
theorem repeated_ensures (hd : ∀ p q, digest p true = digest q true → p = q)
    (ho : Orderly digest h) (hw : Waiting body actorId before h)
    (hv : body.valid actorId = true) {duplicate job : StoredJob} (hj : job ∈ h.jobs)
    (hl : duplicate.Later job) (hk : duplicate.idempotencyKey = body.idempotencyKey) :
    (hostLogic digest).Ensures .control
      (repeated duplicate (digest body.planId body.acknowledgeDowntime))
      (fun r _ h ↦ Answers body actorId before (.ok r) h.notices)
      (fun e _ h ↦ Answers body actorId before (.error e) h.notices) s h := by
  obtain ⟨during, hn, hq⟩ := hw
  have hdigest : duplicate.requestDigest = digest duplicate.planId true := by
    rw [hl.digest, hl.plan]
    exact ho.digests job hj
  have hsame : ∀ other, .stored other ∈ before → other.idempotencyKey = body.idempotencyKey →
      other.jobId = duplicate.jobId ∧ other.planId = duplicate.planId := by
    intro other hm hkey
    have hm' : Notice.stored other ∈ h.notices := by
      rw [hn]
      exact List.mem_append_right _ (.tail _ hm)
    obtain ⟨job', hj', hlater⟩ := ho.stored other hm'
    have hkeys : job'.idempotencyKey = job.idempotencyKey := by
      rw [← hlater.key, ← hl.key, hkey, hk]
    obtain rfl := List.inj_on_of_nodup_map ho.keys hj' hj hkeys
    exact ⟨hlater.jobId.trans hl.jobId.symm, hlater.plan.trans hl.plan.symm⟩
  have hanswers : ∀ outcome, (∀ response, outcome = .ok response →
        response.jobId = duplicate.jobId ∧ body.planId = duplicate.planId) →
      (body.planId = duplicate.planId → ∃ response, outcome = .ok response) →
      (body.planId ≠ duplicate.planId → outcome = .error (.update "IDEMPOTENCY_CONFLICT"
        "This idempotency key belongs to a different request.")) →
      Answers body actorId before outcome h.notices := by
    intro outcome hhonest hgood hbad
    have hnone : ∀ other, .stored other ∉ during := by
      intro other hm
      cases (hq _ hm).2
    refine ⟨during, hn, fun notice hm ↦ (hq notice hm).1, fun _ other hm hkey ↦ ?_⟩
    obtain ⟨hid, hplan⟩ := hsame other hm hkey
    rw [hplan.symm] at hgood hbad
    refine ⟨hnone, fun response hr ↦ ?_, fun _ ↦ hgood, fun _ ↦ hbad⟩
    exact ⟨(hhonest response hr).1.trans hid.symm, (hhonest response hr).2.trans hplan.symm⟩
  have hack := CreateJobRequest.acknowledged hv
  unfold repeated UpdateControl.assert
  by_cases hp : duplicate.planId = body.planId
  · rw [if_pos (by rw [hdigest, hp, hack, decide_eq_true_eq])]
    refine .bind (.pure (.pure (hanswers _ (fun response hr ↦ ?_) (fun _ ↦ ⟨_, rfl⟩)
      fun hne ↦ absurd hp.symm hne)))
    obtain rfl := Except.ok.inj hr
    exact ⟨rfl, hp.symm⟩
  · rw [if_neg (by rw [hdigest, hack, decide_eq_true_eq]; exact fun hc ↦ hp (hd _ _ hc))]
    exact .bind (.throw (hanswers _ (fun _ hr ↦ by cases hr) (fun hc ↦ absurd hc.symm hp)
      fun _ ↦ rfl))

/-- What has to hold when a job is created, and stays so. -/
structure Open (body : CreateJobRequest) (actorId : String) (before : List Notice) (h : Host) :
    Prop where
  unclaimed : Unclaimed body actorId before h
  key : ∀ job ∈ h.jobs, job.idempotencyKey ≠ body.idempotencyKey
  ended : ∀ job ∈ h.jobs, job.terminal = true

theorem Open.evolves (hp : Open body actorId before h) (he : Evolves h h') :
    Open body actorId before h' := by
  refine ⟨hp.unclaimed.evolves he, fun job hj ↦ ?_, fun job hj ↦ ?_⟩
  all_goals obtain ⟨a, ha, hab⟩ := (forall₂_later_exists he.jobs).2 job hj
  · exact hab.key ▸ hp.key a ha
  · exact hab.ended (hp.ended a ha)

theorem Open.failed (hp : Open body actorId before h) (e : Failure) :
    Answers body actorId before (.error e) (h.notify .failed).notices :=
  (hp.unclaimed.notify rfl).answers _

theorem planner_ensures {α : Type} {p : Worker α} (hp : Open body actorId before h) :
    (hostLogic digest).Ensures .control (planner p) (fun _ _ h ↦ Open body actorId before h)
      (fun _ _ h ↦ Open body actorId before h) s h := by
  have hw : (hostLogic digest).Wp .control ((p.start s).translate .planner fun _ ↦ id)
      (fun _ h ↦ Open body actorId before h) h := by
    refine Logic.Wp.of_still (fun _ _ he hp ↦ hp.evolves he) (fun _ _ _ ↦ trivial)
      (fun c o h h' r hp hx ↦ ?_) hp
    obtain ⟨rfl, -⟩ := Prod.mk.inj hx
    exact hp
  refine hw.mono ?_
  rintro ⟨_ | a, s⟩ w h <;> exact h

theorem randomUUID_new {o : HostChoice} {jobId : String} (ho : Orderly digest h)
    (hx : hostExec .randomUUID o h = (h', some jobId)) :
    h = h' ∧ ∀ job ∈ h.jobs, job.jobId ≠ jobId := by
  simp only [hostExec, Prod.mk.injEq] at hx
  obtain ⟨rfl, hx⟩ := hx
  split at hx
  · cases hx
  · rename_i hnone
    obtain rfl := Option.some.inj hx
    refine ⟨rfl, fun job hj hid ↦ hnone ?_⟩
    rw [ho.find?.mpr ⟨hj, hid⟩]
    rfl

theorem writeJob_cases {job : StoredJob} {o : Choice} {r : Except Failure Unit}
    (hx : h.writeJob job o = (h', some r)) : (h' = h.store job ∧ r = .ok ()) ∨
      ((h' = h ∨ h' = h.store job) ∧ r = .error .journal) := by
  rcases hc : o.ending with _ | error | _ <;>
    simp only [Host.writeJob, Choice.visible, hc, if_true, Prod.mk.injEq, Option.some.injEq,
      reduceCtorEq, and_false] at hx
  · exact .inl ⟨hx.1.symm, hx.2.symm⟩
  · refine .inr ⟨?_, hx.2.symm⟩
    split at hx
    · exact .inr hx.1.symm
    · exact .inl hx.1.symm

theorem storeJob_ensures {job : StoredJob} (hp : Open body actorId before h)
    (hid : ∀ other ∈ h.jobs, other.jobId ≠ job.jobId)
    (hk : job.idempotencyKey = body.idempotencyKey) (hd : job.requestDigest = digest job.planId true) :
    (hostLogic digest).Ensures .control (saveJob job)
      (fun _ _ h ↦ Unclaimed body actorId before h)
      (fun _ _ h ↦ Unclaimed body actorId before h) s h := by
  refine .bind (.invoke fun h₁ he₁ _ ↦ ⟨trivial, fun o h₁' now hx _ ↦ ?_⟩)
  obtain ⟨rfl, -⟩ := Prod.mk.inj hx
  refine .bind (.invoke fun h₂ he₂ _ ↦ ⟨?_, fun o h₃ r hx _ ↦ ?_⟩)
  · have he := Evolves.trans he₁ he₂
    have hp₂ := hp.evolves he
    refine ⟨fun other ho ↦ ?_, fun other ho ↦ (hp₂.key other ho).trans_eq hk.symm, hp₂.ended, hd⟩
    obtain ⟨a, ha, hab⟩ := (forall₂_later_exists he.jobs).2 other ho
    exact hab.jobId ▸ hid a ha
  · have hu := (hp.evolves (Evolves.trans he₁ he₂)).unclaimed
    have hs : Unclaimed body actorId before (h₂.store (job.stamp now)) := hu.notify rfl
    rcases writeJob_cases hx with ⟨rfl, rfl⟩ | ⟨rfl | rfl, rfl⟩
    · exact .pure hs
    · exact hu
    · exact hs

theorem create_ensures {installation : Installation} {requestDigest : String}
    (hd : requestDigest = digest body.planId true) (hp : Open body actorId before h) :
    (hostLogic digest).Ensures .control (create body actorId requestDigest installation)
      (fun r _ h ↦ Answers body actorId before (.ok r) h.notices)
      (fun e _ h ↦ Answers body actorId before (.error e) h.notices) s h := by
  refine .bind (readPlan_reads.ensures (fun _ ↦ trivial) (fun plan h₁ he₁ _ _ ↦ ?_)
    fun e h₁ he₁ ↦ (hp.evolves he₁).failed e)
  refine .bind ((planner_ensures (hp.evolves he₁)).mono (fun _ s₂ h₂ hp₂ ↦ ?_)
    fun e _ _ hp₂ ↦ hp₂.unclaimed.answers _)
  refine .bind (.invoke fun h₃ he₃ _ ↦ ⟨trivial, fun o h₃' createdAt hx _ ↦ ?_⟩)
  obtain ⟨rfl, -⟩ := Prod.mk.inj hx
  refine .bind (.invoke fun h₄ he₄ ho₄ ↦ ⟨trivial, fun o h₄' jobId hx _ ↦ ?_⟩)
  obtain ⟨rfl, hid⟩ := randomUUID_new ho₄ hx
  have hp₄ := hp₂.evolves (Evolves.trans he₃ he₄)
  have hjob : (hostLogic digest).Ensures .control (saveJob (queued body actorId requestDigest
      installation plan createdAt jobId)) _ _ s₂ h₄ := storeJob_ensures hp₄ hid rfl hd
  refine .bind (hjob.mono (fun job s₅ h₅ hu ↦ ?_)
    fun e _ _ hu ↦ hu.answers _)
  refine .bind (.tryCatch (.invoke fun h₆ he₆ _ ↦ ⟨trivial, fun o h₆' r hx _ ↦ ?_⟩))
  obtain ⟨rfl, -⟩ := Prod.mk.inj hx
  have hu₆ := (hu.evolves he₆).answers (.ok (response job))
  cases r with
  | ok => exact .pure hu₆
  | error => exact .pure (.pure hu₆)

/-- Whatever is found when the request is handled, the answer is one the law
allows. -/
theorem accept_ensures (hd : ∀ p q, digest p true = digest q true → p = q)
    (hw : Waiting body actorId before h) :
    (hostLogic digest).Ensures .control (accept digest body actorId)
      (fun r _ h ↦ Answers body actorId before (.ok r) h.notices)
      (fun e _ h ↦ Answers body actorId before (.error e) h.notices) s h := by
  refine .bind (reload_reads.ensures (fun _ ↦ trivial) (fun installation h₁ he₁ _ _ ↦ ?_)
    fun e h₁ he₁ ↦ (hw.evolves he₁).excused e)
  have hw₁ := hw.evolves he₁
  cases hv : body.valid actorId with
  | false => exact .bind (.throw (hw₁.invalid hv _))
  | true =>
    refine .bind (.pure (.bind (jobs_ensures (fun jobs h₂ he₂ ho₂ hall hlater ↦ ?_)
      fun e h₂ he₂ ↦ (hw₁.evolves he₂).excused e)))
    have hw₂ := hw₁.evolves he₂
    have hack := CreateJobRequest.acknowledged hv
    cases hf : jobs.find? (·.idempotencyKey = body.idempotencyKey) with
    | some duplicate =>
      obtain ⟨job, hj, hl⟩ := hlater duplicate (List.mem_of_find?_eq_some hf)
      exact repeated_ensures hd ho₂ hw₂ hv hj hl (by simpa using List.find?_some hf)
    | none =>
      have hnew : ∀ job ∈ h₂.jobs, job.idempotencyKey ≠ body.idempotencyKey := by
        intro job hj
        obtain ⟨a, ha, hab⟩ := hall job hj
        exact hab.key ▸ by simpa using List.find?_eq_none.mp hf a ha
      have hu : Unclaimed body actorId before h₂ := by
        obtain ⟨during, hn, hq⟩ := hw₂
        refine ⟨⟨during, hn, fun notice hm ↦ (hq notice hm).1⟩, fun job hm ↦ ?_⟩
        obtain ⟨job', hj', hl⟩ := ho₂.stored job (hn ▸ List.mem_append_right _ (.tail _ hm))
        exact hl.key ▸ hnew job' hj'
      cases hended : jobs.all StoredJob.terminal with
      | false => exact .bind (.throw (hu.answers _))
      | true =>
        refine .bind (.pure (create_ensures (by rw [hack]) ⟨hu, hnew, fun job hj ↦ ?_⟩))
        obtain ⟨a, ha, hab⟩ := hall job hj
        exact hab.ended (List.all_eq_true.mp hended a ha)

theorem handle_ensures (hd : ∀ p q, digest p true = digest q true → p = q) :
    (hostLogic digest).Ensures .control (handle digest body actorId) (fun _ _ _ ↦ True)
      (fun _ _ _ ↦ True) s h := by
  refine .bind (.invoke fun h₁ _ _ ↦ ⟨trivial, fun o h₂ r hx _ ↦ ?_⟩)
  obtain ⟨rfl, -⟩ := Prod.mk.inj hx
  have hw : Waiting body actorId h₁.notices (h₁.notify (.received body actorId)) :=
    ⟨[], rfl, fun _ hm ↦ absurd hm List.not_mem_nil⟩
  have houtcome : (hostLogic digest).Ensures .control
      (tryCatch (.ok <$> accept digest body actorId) fun error ↦ pure (.error error))
      (fun outcome _ h ↦ Answers body actorId h₁.notices outcome h.notices) (fun _ _ _ ↦ True) s
      (h₁.notify (.received body actorId)) :=
    .tryCatch (.map ((accept_ensures hd hw).mono (fun _ _ _ ha ↦ ha) fun _ _ _ ha ↦ .pure ha))
  refine .bind (houtcome.mono (fun outcome s₃ h₃ ha ↦ ?_) fun _ _ _ h ↦ h)
  refine .invoke fun h₄ he₄ _ ↦ ⟨?_, fun _ _ _ _ _ ↦ trivial⟩
  have he₄ : Evolves h₃ h₄ := he₄
  refine ⟨actorId, h₁.notices, ?_⟩
  rw [he₄.notices]
  exact ha

theorem reconcile_ensures : (hostLogic digest).Ensures .control reconcile (fun _ _ _ ↦ True)
    (fun _ _ _ ↦ True) s h := by
  refine .bind (reload_reads.ensures (fun _ ↦ trivial) (fun _ h₁ _ _ _ ↦ ?_) fun _ _ _ ↦ trivial)
  have hcurrent : (hostLogic digest).Ensures .control current (fun _ _ _ ↦ True)
      (fun _ _ _ ↦ True) s h₁ := by
    refine .bind (jobs_ensures (fun jobs h₂ _ _ _ _ ↦ .bind ?_) fun _ _ _ ↦ trivial)
    unfold UpdateControl.assert
    split
    · exact .pure (.pure trivial)
    · exact .throw trivial
  have hcall : ∀ {α : Type} {c : HostCommand} {f : HostReply c → Except Failure α} {s : JobRecord}
      {h : Host}, (∀ h, hostGuard digest .control c h) → (hostLogic digest).Ensures .control (invoke c f)
        (fun _ _ _ ↦ True) (fun _ _ _ ↦ True) s h := by
    intro α c f s h hg
    refine .invoke fun h _ _ ↦ ⟨hg h, fun _ _ r _ _ ↦ ?_⟩
    cases f r <;> trivial
  refine .bind (hcurrent.mono (fun job s₃ h₃ _ ↦ ?_) fun _ _ _ h ↦ h)
  cases job with
  | none => exact .pure trivial
  | some job =>
    dsimp only
    split
    · exact .pure trivial
    · refine .bind ((hcall (c := .workerAlive job.jobId) fun _ ↦ trivial).mono (fun alive _ _ _ ↦ ?_) fun _ _ _ h ↦ h)
      split
      · exact .pure trivial
      · exact hcall (c := .startWorker job.jobId) fun _ ↦ trivial

end Requests

theorem host_admissible (hd : ∀ p q, digest p true = digest q true → p = q) :
    (hostLogic digest).Admissible := by
  intro i h p _ ha
  cases i with
  | control =>
    have hends : ∀ {main : Control Unit} {memory}, (hostLogic digest).Ensures .control main
        (fun _ _ _ ↦ True) (fun _ _ _ ↦ True) memory h →
        (hostLogic digest).Wp .control ((fun _ ↦ ()) <$> main.start memory) (fun _ _ ↦ True) h := by
      intro main memory hmain
      have hw : (hostLogic digest).Wp .control (main.start memory) _ h := hmain
      exact Logic.Wp.bind (f := fun _ ↦ .done ()) (hw.mono fun _ _ _ ↦ trivial)
    obtain ⟨memory, rfl | ⟨body, actorId, rfl⟩⟩ := ha
    · exact hends reconcile_ensures
    · exact hends (handle_ensures hd)
  | worker =>
    obtain ⟨jobId, memory, hf, main, hm, rfl⟩ := ha
    exact worker_admissible hf hm

/-- A host that no job was ever accepted on. -/
structure Blank (h : Host) : Prop where
  jobs : h.jobs = []
  notices : h.notices = []

theorem Blank.orderly {h : Host} (hb : Blank h) : Orderly digest h := by
  obtain ⟨hj, hn⟩ := hb
  refine ⟨?_, ?_, ?_, ?_, ?_, ?_⟩
  · simp [hj]
  · simp [hj]
  · simp [hj]
  · simp [hj]
  · simp [hn]
  · rw [hn]
    exact lawful_nil

/-- However requests, reconciliations, workers and recoveries interleave and
wherever the control process is started again, at most one job is unfinished, a
key belongs to one job, and a request that repeats a key is answered with its job
or rejected, and stores nothing. -/
theorem jobs_accepted_once (hd : ∀ p q, digest p true = digest q true → p = q) {h₀ : Host}
    (hb : Blank h₀) {cfg : Config Party HostCommand HostReply Host}
    (hr : (host digest).Run (Machine.idle h₀) cfg) :
    (cfg.world.jobs.filter (!·.terminal)).length ≤ 1 ∧
    (cfg.world.jobs.map StoredJob.idempotencyKey).Nodup ∧
    (∀ job, .stored job ∈ cfg.world.notices → ∃ job' ∈ cfg.world.jobs, job.Later job') ∧
    ∀ body outcome earlier, .answered body outcome :: earlier <:+ cfg.world.notices →
      ∃ actorId during before, earlier = during ++ .received body actorId :: before ∧
        (∀ notice ∈ during, notice.begins = false) ∧
        (body.valid actorId = true → ∀ job, .stored job ∈ before →
          job.idempotencyKey = body.idempotencyKey →
          (∀ other, .stored other ∉ during) ∧
          (∀ response, outcome = .ok response →
            response.jobId = job.jobId ∧ body.planId = job.planId) ∧
          (.failed ∉ during → body.planId = job.planId →
            ∃ response, outcome = .ok response ∧ response.jobId = job.jobId) ∧
          (.failed ∉ during → body.planId ≠ job.planId →
            outcome = .error (.update "IDEMPOTENCY_CONFLICT"
              "This idempotency key belongs to a different request."))) := by
  have ho : Orderly digest cfg.world :=
    ((Logic.verified_idle (L := hostLogic digest) hb.orderly).run (host_admissible hd) hr).1
  refine ⟨ho.single, ho.keys, ho.stored, fun body outcome earlier hs ↦ ?_⟩
  obtain ⟨actorId, before, during, hn, hq, hanswers⟩ := ho.lawful _ _ hs
  refine ⟨actorId, during, before, hn, hq, fun hv job hj hk ↦ ?_⟩
  obtain ⟨huntouched, hhonest, hsame, hdifferent⟩ := hanswers hv job hj hk
  refine ⟨huntouched, hhonest, fun hf hp ↦ ?_, hdifferent⟩
  obtain ⟨response, hresponse⟩ := hsame hf hp
  exact ⟨response, hresponse, (hhonest response hresponse).1⟩

section Sample

def sampleRequest : CreateJobRequest where
  planId := "11111111-1111-4111-8111-111111111111"
  idempotencyKey := "22222222-2222-4222-8222-222222222222"
  acknowledgeDowntime := true

def sampleHost : Host where
  jobs := []
  maintenance := none
  installation := ⟨"i", .managedLinux, "/s", "/d", .sqlite, fun _ ↦ ⟨"1", ⟨"1"⟩, ⟨0⟩⟩, none⟩
  deployed _ := "1"
  running _ := true
  history := []
  notices := []

def sampleCall : HostChoice where
  call := ⟨.returns, true, 0, fun _ ↦ "1", fun _ ↦ true, "x", ⟨"x", "b"⟩, []⟩
  order := []
  plan := ⟨⟨"i", fun _ ↦ true, 1, true⟩, "x", fun _ ↦ ⟨"2", ⟨"2"⟩, ⟨0⟩⟩, fun _ ↦ "x"⟩
  alive := false

def sampleDigest (planId : String) (_ : Bool) : String := planId

/-- The sample request is handled, every call returning. -/
def served (h : Host) : Host :=
  ((host sampleDigest).play .control (List.replicate 20 sampleCall)
    ((fun _ ↦ ()) <$> (UpdateControl.handle sampleDigest sampleRequest "admin").start
      ⟨⟨"", .queued, .preparing, 0, none, none, "", none⟩, sampleCall.plan, sampleHost.installation,
        none, none, fun _ ↦ none⟩) h).2

theorem served_run (h : Host) (threads : Party → Option (Prog HostCommand HostReply Unit)) :
    ∃ threads', (host sampleDigest).Run ⟨threads, h⟩ ⟨threads', served h⟩ :=
  ⟨_, .head (.stop .control) (Machine.start_run (host sampleDigest) .control
    (List.replicate 20 sampleCall) (Function.update_self ..) ⟨_, .inr ⟨sampleRequest, "admin", rfl⟩⟩)⟩

/-- The same request twice leaves one job. -/
theorem sample_jobs_accepted_once :
    (served (served sampleHost)).jobs.length = 1 ∧
      ((served (served sampleHost)).jobs.filter (!·.terminal)).length ≤ 1 ∧
      ((served (served sampleHost)).jobs.map StoredJob.idempotencyKey).Nodup := by
  obtain ⟨_, hfirst⟩ := served_run sampleHost fun _ ↦ none
  obtain ⟨_, hsecond⟩ := served_run (served sampleHost) _
  have hdigest : ∀ p q, sampleDigest p true = sampleDigest q true → p = q := fun _ _ h ↦ h
  have h := jobs_accepted_once hdigest ⟨rfl, rfl⟩ (hfirst.trans hsecond)
  exact ⟨by decide +kernel, h.1, h.2.1⟩

end Sample

end RustdeskConsole.Updater
