import Mathlib.Algebra.BigOperators.Group.List.Basic
import Mathlib.Algebra.GroupWithZero.Nat
import Mathlib.Data.Prod.Lex
import Mathlib.Logic.Relation
import RustdeskConsole.UpdateChecks.Flight

namespace RustdeskConsole.UpdateChecks

open Relation

variable {ρ : Type} {s s' : State ρ} {i id : ℕ} {call : Call ρ} {check : Check ρ}
  {version : Option String} {result : ρ}

section Progress

/-- A call that may still begin a check. -/
def Phase.asks : Phase ρ → Bool
  | .saving | .ready | .waiting _ => true
  | _ => false

def State.asking (s : State ρ) : ℕ := s.calls.countP fun call ↦ call.phase.asks

def State.stage (s : State ρ) : ℕ :=
  if s.running.isSome then 2 else if s.pendingUpdate.isSome then 1 else 0

def State.weight (s : State ρ) : Phase ρ → ℕ
  | .saving => 2
  | phase => (s.mayResume phase).toNat

def State.work (s : State ρ) : ℕ := (s.calls.map fun call ↦ s.weight call.phase).sum

/-- What is left to do: the checks that may still be begun, the one under way, and
the calls that may go on. -/
def State.left (s : State ρ) : ℕ ×ₗ ℕ ×ₗ ℕ := toLex (s.asking, toLex (s.stage, s.work))

theorem left_lt_of_asking (h : s'.asking < s.asking) : s'.left < s.left :=
  Prod.Lex.toLex_lt_toLex.mpr (.inl h)

theorem left_lt_of_stage (ha : s'.asking = s.asking) (h : s'.stage < s.stage) :
    s'.left < s.left :=
  Prod.Lex.toLex_lt_toLex.mpr (.inr ⟨ha, Prod.Lex.toLex_lt_toLex.mpr (.inl h)⟩)

theorem left_lt_of_work (ha : s'.asking = s.asking) (hs : s'.stage = s.stage)
    (h : s'.work < s.work) : s'.left < s.left :=
  Prod.Lex.toLex_lt_toLex.mpr (.inr ⟨ha, Prod.Lex.toLex_lt_toLex.mpr (.inr ⟨hs, h⟩)⟩)

theorem calls_setPhase (hc : s.calls[i]? = some call) : ∃ before after,
    s.calls = before ++ call :: after ∧
      ∀ phase, (s.setPhase i call phase).calls = before ++ { call with phase } :: after := by
  obtain ⟨hi, rfl⟩ := List.getElem?_eq_some_iff.mp hc
  refine ⟨s.calls.take i, s.calls.drop (i + 1), ?_, fun phase ↦ ?_⟩
  · rw [List.getElem_cons_drop, List.take_append_drop]
  · exact List.set_eq_take_append_cons_drop.trans (if_pos hi)

theorem asking_setPhase (hc : s.calls[i]? = some call) (phase : Phase ρ) :
    (s.setPhase i call phase).asking + call.phase.asks.toNat = s.asking + phase.asks.toNat := by
  obtain ⟨before, after, hcalls, hset⟩ := calls_setPhase hc
  rw [State.asking, State.asking, hset, hcalls, List.countP_append, List.countP_append,
    List.countP_cons, List.countP_cons]
  cases call.phase.asks <;> cases phase.asks <;> simp <;> omega

theorem work_setPhase (hc : s.calls[i]? = some call) (phase : Phase ρ) :
    (s.setPhase i call phase).work + s.weight call.phase = s.work + s.weight phase := by
  obtain ⟨before, after, hcalls, hset⟩ := calls_setPhase hc
  have hweight : (s.setPhase i call phase).weight = s.weight := rfl
  rw [State.work, State.work, hset, hcalls, hweight]
  simp only [List.map_append, List.map_cons, List.sum_append, List.sum_cons]
  omega

theorem not_resolved (hp : s.pendingUpdate = some id) : s.resolved id = false := by
  simp [State.resolved, hp]

theorem stage_running (hr : s.running = some (id, check)) : s.stage = 2 := by
  rw [State.stage, hr]
  rfl

/-- A check that has ended is no longer under way. -/
theorem stage_finish (hr : s.running = some (id, check)) (outcome : Option ρ) :
    (s.finish id check outcome).stage < s.stage := by
  obtain ⟨hp, hid, -⟩ := running_eq_some.mp hr
  have hnone : (s.finish id check outcome).running = none := by
    refine Option.eq_none_iff_forall_ne_some.mpr fun ⟨other, check'⟩ heq ↦ ?_
    obtain ⟨hp', hid', ho⟩ := running_eq_some.mp heq
    obtain rfl := Option.some.inj (hp.symm.trans hp')
    rw [getElem?_finish hid, if_pos rfl] at hid'
    cases hid'
    cases ho
  rw [stage_running hr, State.stage, hnone, Option.isSome_none, if_neg Bool.false_ne_true]
  split
  · exact Nat.one_lt_two
  · exact Nat.two_pos

theorem left_saved {rest : List ℕ} (hc : s.calls[i]? = some call) (hs : call.phase = .saving)
    (h : Saves { s with frontendVersionUpdate := rest } i call s') : s'.left < s.left := by
  cases h with
  | ready lastKnown =>
    have hasking := asking_setPhase hc .ready
    have hwork := work_setPhase hc .ready
    rw [hs] at hasking hwork
    exact left_lt_of_work (Nat.add_right_cancel hasking) rfl
      (Nat.lt_of_add_lt_add_right (hwork.trans_lt (Nat.add_lt_add_left Nat.one_lt_two _)))
  | thrown =>
    have hasking := asking_setPhase hc .thrown
    rw [hs] at hasking
    exact left_lt_of_asking (Nat.lt_of_succ_le (Nat.le_of_eq hasking))

theorem left_loops (hc : s.calls[i]? = some call) (hm : s.mayResume call.phase = true)
    (hphase : call.phase = .ready ∨ ∃ id, call.phase = .waiting id) (hl : Loops s i call s') :
    s'.left < s.left := by
  have hasks : call.phase.asks.toNat = 1 := by
    rcases hphase with heq | ⟨id, heq⟩ <;> rw [heq] <;> rfl
  have hweight : s.weight call.phase = 1 := by
    rcases hphase with heq | ⟨id, heq⟩
    · rw [heq]
      rfl
    · rw [heq] at hm ⊢
      rw [State.weight, hm]
      · rfl
      · nofun
  have hdone : ∀ phase : Phase ρ, phase.asks = false →
      (s.setPhase i call phase).asking < s.asking := by
    intro phase hp
    have h := asking_setPhase hc phase
    rw [hasks, hp] at h
    exact Nat.lt_of_succ_le (Nat.le_of_eq h)
  cases hl with
  | returned => exact left_lt_of_asking (hdone _ rfl)
  | waiting id hp =>
    have hasking := asking_setPhase hc (.waiting id)
    have hwork := work_setPhase hc (.waiting id)
    rw [hasks] at hasking
    have hrests : s.weight (.waiting id) = 0 := by
      rw [State.weight, State.mayResume, not_resolved hp]
      · rfl
      · nofun
    rw [hweight, hrests] at hwork
    exact left_lt_of_work (Nat.add_right_cancel hasking) rfl
      (Nat.lt_of_succ_le (Nat.le_of_eq hwork))
  | joined id => exact left_lt_of_asking (hdone _ rfl)
  | performed => exact left_lt_of_asking (hdone (.joined s.checks.length) rfl)
  | refused => exact left_lt_of_asking (hdone _ rfl)

theorem left_resumes (hc : s.calls[i]? = some call) (hm : s.mayResume call.phase = true)
    (hr : Resumes s i call s') : s'.left < s.left := by
  cases hr with
  | looped hphase _ hl => exact left_loops hc hm hphase hl
  | returned hphase =>
    have hasking := asking_setPhase hc (.returned s.cachedResult)
    have hwork := work_setPhase hc (.returned s.cachedResult)
    have hasks : call.phase.asks.toNat = 0 := by
      rcases hphase with heq | ⟨id, heq⟩ <;> rw [heq] <;> rfl
    have hweight : s.weight call.phase = 1 := by
      rcases hphase with heq | ⟨id, heq⟩
      · rw [heq]
        rfl
      · rw [heq] at hm ⊢
        rw [State.weight, hm]
        · rfl
        · nofun
    rw [hasks] at hasking
    rw [hweight] at hwork
    exact left_lt_of_work hasking rfl (Nat.lt_of_succ_le (Nat.le_of_eq hwork))

/-- Each step of the service leaves less to do. -/
theorem Settles.left (h : Sound s) (hs : Settles s s') : s'.left < s.left := by
  cases hs with
  | @saved i rest call _ hq hc hs =>
    obtain ⟨other, ho, hsaving⟩ := (h.saves i).mp (hq ▸ List.mem_cons_self)
    obtain rfl := Option.some.inj (hc.symm.trans ho)
    exact left_saved hc hsaving hs
  | resumed hc hm hr => exact left_resumes hc hm hr
  | answered result _ hr => exact left_lt_of_stage rfl (stage_finish hr (some result))
  | failed hr => exact left_lt_of_stage rfl (stage_finish hr none)
  | cleared hr hp =>
    refine left_lt_of_stage rfl ?_
    have hsome : s.pendingUpdate.isSome = true := Option.isSome_iff_ne_none.mpr hp
    rw [State.stage, State.stage, hr, hsome]
    exact Nat.zero_lt_one

/-- The service comes to rest only when nothing is left to do. -/
theorem Sound.rests (h : Sound s) (hs : ∀ s', ¬Goes s s') : s.pendingUpdate = none ∧
    ∀ call ∈ s.calls, call.phase = .thrown ∨ ∃ result, call.phase = .returned result := by
  have hnone : ∀ action : Action ρ, action.settles = true → UpdateChecks.step s action = none :=
    fun action ha ↦ Option.eq_none_iff_forall_ne_some.mpr fun s' heq ↦ hs s' ⟨action, ha, heq⟩
  have hqueue : s.frontendVersionUpdate = [] := by
    rcases hq : s.frontendVersionUpdate with _ | ⟨i, rest⟩
    · rfl
    · obtain ⟨call, hc, -⟩ := (h.saves i).mp (hq ▸ List.mem_cons_self)
      have hsave := hnone (.save false) rfl
      simp [UpdateChecks.step, hq, hc] at hsave
  have hrunning : s.running = none := by
    rcases hr : s.running with _ | ⟨id, check⟩
    · rfl
    · have hfail := hnone .fail rfl
      simp [UpdateChecks.step, hr] at hfail
  have hpending : s.pendingUpdate = none := by
    by_contra hp
    have hclear := hnone .clear rfl
    simp [UpdateChecks.step, hrunning, Option.isSome_iff_ne_none.mpr hp] at hclear
  have hresumes : ∀ call ∈ s.calls, s.mayResume call.phase = false := by
    intro call hm
    by_contra hmay
    rw [Bool.not_eq_false] at hmay
    obtain ⟨i, hc⟩ := List.getElem?_of_mem hm
    have hresume := hnone (.resume i false) rfl
    simp [UpdateChecks.step, hc, hmay] at hresume
  have hended : ∀ id, id < s.checks.length → s.resolved id = true := by
    intro id hid
    have hcheck : s.checks[id]? = some s.checks[id] := List.getElem?_eq_getElem hid
    have hsome : s.checks[id].outcome.isSome := by
      by_contra ho
      rw [Option.not_isSome_iff_eq_none] at ho
      have hid := h.ended id _ hcheck ho
      rw [hpending] at hid
      cases hid
    rw [State.resolved, hpending, hcheck, Option.bind_some, hsome]
    rfl
  refine ⟨hpending, fun call hm ↦ ?_⟩
  have hf := h.fits call hm
  have hrest := hresumes call hm
  have hsaves := h.saves
  obtain ⟨version, phase⟩ := call
  cases phase with
  | saving =>
    obtain ⟨i, hc⟩ := List.getElem?_of_mem hm
    have hi := (h.saves i).mpr ⟨_, hc, rfl⟩
    rw [hqueue] at hi
    cases hi
  | ready | refused => cases hrest
  | waiting id => exact (Bool.eq_false_iff.mp hrest (hended id hf.2)).elim
  | joined id =>
    obtain ⟨-, outcome, hid, -⟩ := hf
    exact (Bool.eq_false_iff.mp hrest (hended id (List.getElem?_eq_some_iff.mp hid).1)).elim
  | returned result => exact .inr ⟨result, rfl⟩
  | thrown => exact .inl rfl

theorem Sound.goes (h : Sound s) (hg : Goes s s') : Sound s' := h.settles (settles_of_goes h hg)

theorem Sound.terminates (h : Sound s) : Acc (fun s' s : State ρ ↦ Goes s s') s := by
  induction hl : s.left using WellFoundedLT.induction generalizing s with
  | ind left ih =>
    refine .intro _ fun s' hg ↦ ?_
    exact ih s'.left (hl ▸ (settles_of_goes h hg).left h) (h.goes hg) rfl

end Progress

section Runs

def Reachable (s : State ρ) : Prop :=
  ∃ empty persisted, ReflTransGen Step (initial empty persisted) s

theorem Reachable.sound (h : Reachable s) : Sound s := by
  obtain ⟨empty, persisted, h⟩ := h
  induction h with
  | refl => exact sound_initial empty persisted
  | tail _ hs ih => exact ih.step hs

theorem getElem?_loops (hc : s.calls[i]? = some call) (hl : Loops s i call s') {j : ℕ}
    (hne : i ≠ j) : s'.calls[j]? = s.calls[j]? := by
  cases hl with
  | performed => exact (getElem?_setPhase (s := s.performUpdateCheck _) hc j).trans (if_neg hne)
  | _ => exact (getElem?_setPhase hc j).trans (if_neg hne)

theorem getElem?_resumes (hc : s.calls[i]? = some call) (hr : Resumes s i call s') {j : ℕ}
    (hne : i ≠ j) : s'.calls[j]? = s.calls[j]? := by
  cases hr with
  | looped _ _ hl => exact getElem?_loops hc hl hne
  | returned => exact (getElem?_setPhase hc j).trans (if_neg hne)

theorem getElem?_saves {rest : List ℕ} (hc : s.calls[i]? = some call)
    (hs : Saves { s with frontendVersionUpdate := rest } i call s') (j : ℕ) :
    ∃ phase, (∀ r, phase ≠ .returned r) ∧
      s'.calls[j]? = if i = j then some { call with phase } else s.calls[j]? := by
  cases hs with
  | ready => exact ⟨.ready, nofun, getElem?_setPhase hc j⟩
  | thrown => exact ⟨.thrown, nofun, getElem?_setPhase hc j⟩

/-- A call that has come to its end is the one that went on. -/
theorem resumes_of_returned (h : Sound s) (hs : Step s s') (hc : s.calls[i]? = some call)
    (hn : ∀ r, call.phase ≠ .returned r)
    (hc' : s'.calls[i]? = some ⟨version, .returned result⟩) :
    s.mayResume call.phase = true ∧ Resumes s i call s' := by
  have hstays : s'.calls[i]? ≠ s.calls[i]? := by
    intro heq
    obtain rfl := Option.some.inj (hc.symm.trans (heq.symm.trans hc'))
    exact hn result rfl
  rcases step_cases h hs with ⟨version, rfl⟩ | ⟨allowed, rfl⟩ | hs
  · refine (hstays ?_).elim
    rw [State.checkUpdate]
    split
    · exact (getElem?_append_of_some hc).trans hc.symm
    · exact (getElem?_append_of_some hc).trans hc.symm
  · refine (hstays ?_).elim
    rcases @fetchUpdate_cases ρ s none allowed with hf | ⟨id, -, hf⟩ | ⟨-, hf⟩
    · rw [hf]
    · rw [hf]
    · rw [hf]
      rfl
  · cases hs with
    | @saved j rest other _ _ ho hs =>
      obtain ⟨phase, hphase, hget⟩ := getElem?_saves ho hs i
      by_cases heq : j = i
      · rw [if_pos heq, hc'] at hget
        cases hget
        exact (hphase result rfl).elim
      · exact (hstays (hget.trans (if_neg heq))).elim
    | @resumed j other _ ho hm hr =>
      by_cases heq : j = i
      · subst heq
        obtain rfl := Option.some.inj (hc.symm.trans ho)
        exact ⟨hm, hr⟩
      · exact (hstays (getElem?_resumes ho hr heq)).elim
    | _ => exact (hstays rfl).elim

section Sample

/-- The steps that are possible, one after the other. -/
def replay (s : State ρ) : List (Action ρ) → State ρ
  | [] => s
  | action :: actions => ((step s action).map fun s' ↦ replay s' actions).getD s

theorem replay_reaches (actions : List (Action ρ)) (s : State ρ) :
    ReflTransGen Step s (replay s actions) := by
  induction actions generalizing s with
  | nil => exact .refl
  | cons action actions ih =>
    rw [replay]
    rcases hs : step s action with _ | s'
    · exact .refl
    · exact .head ⟨action, hs⟩ (ih s')

/-- A call for version `1` has begun a check, which a call for version `2` awaits. -/
def sampleWaiting : State ℕ :=
  replay (initial 0 none) [.checkUpdate (some "1"), .save false, .resume 0 true,
    .checkUpdate (some "2"), .save false, .resume 1 true]

def sampleAnswered : State ℕ := replay sampleWaiting [.answer 7, .clear]

theorem sampleWaiting_reachable : Reachable sampleWaiting :=
  ⟨0, none, replay_reaches _ _⟩

theorem sampleAnswered_reachable : Reachable sampleAnswered :=
  ⟨0, none, (replay_reaches _ _).trans (replay_reaches _ _)⟩

end Sample

/-- However calls, answers and the timer interleave, no two checks are under way
at once. When no more calls come, the service comes to rest after finitely many
steps, and then each call has been answered or has failed to save its version. -/
theorem checks_settle (h : Reachable s) :
    (∀ id check, s.checks[id]? = some check → check.outcome = none → id + 1 = s.checks.length) ∧
      Acc (fun s' s : State ρ ↦ Goes s s') s ∧
      ∀ s', ReflTransGen Goes s s' → (∀ s'', ¬Goes s' s'') → s'.pendingUpdate = none ∧
        ∀ call ∈ s'.calls, call.phase = .thrown ∨ ∃ result, call.phase = .returned result := by
  have hsound := h.sound
  refine ⟨fun id check hid ho ↦ hsound.last id (hsound.ended id check hid ho), hsound.terminates,
    fun s' hg ↦ ?_⟩
  have hsound' : Sound s' := by
    induction hg with
    | refl => exact hsound
    | tail _ hg ih => exact ih.goes hg
  exact hsound'.rests

theorem sample_settles :
    (∀ id check, sampleWaiting.checks[id]? = some check → check.outcome = none →
        id + 1 = sampleWaiting.checks.length) ∧
      Acc (fun s' s : State ℕ ↦ Goes s s') sampleWaiting ∧
      ∀ s', ReflTransGen Goes sampleWaiting s' → (∀ s'', ¬Goes s' s'') →
        s'.pendingUpdate = none ∧
          ∀ call ∈ s'.calls, call.phase = .thrown ∨ ∃ result, call.phase = .returned result :=
  checks_settle sampleWaiting_reachable

/-- A call for a version gets what is cached when it ends, and that is the last
answer of all and was given for this version, unless business writes were not
allowed when the call asked or the check for its version that it awaited failed. -/
theorem answer_for_version (h : Reachable s) (hs : Step s s') (hc : s.calls[i]? = some call)
    (hn : ∀ r, call.phase ≠ .returned r)
    (hc' : s'.calls[i]? = some ⟨version, .returned result⟩) :
    version = call.frontendVersion ∧ result = s.cachedResult ∧
      ((∃ id, Newest s id version result) ∨ call.phase = .refused ∨
        ∃ id, call.phase = .joined id ∧ s.checks[id]? = some ⟨version, some none⟩) := by
  have hsound := h.sound
  obtain ⟨hm, hr⟩ := resumes_of_returned hsound hs hc hn hc'
  cases hr with
  | looped hphase hv hl =>
    cases hl with
    | returned hcached =>
      rw [getElem?_setPhase hc, if_pos rfl] at hc'
      cases hc'
      refine ⟨rfl, rfl, .inl ?_⟩
      rw [hcached]
      exact hsound.shown (hcached ▸ hv)
    | performed =>
      rw [getElem?_setPhase (s := s.performUpdateCheck _) hc, if_pos rfl] at hc'
      cases hc'
    | _ =>
      rw [getElem?_setPhase hc, if_pos rfl] at hc'
      cases hc'
  | returned hphase =>
    rw [getElem?_setPhase hc, if_pos rfl] at hc'
    cases hc'
    refine ⟨rfl, rfl, ?_⟩
    rcases hphase with hrefused | ⟨id, hjoined⟩
    · exact .inr (.inl hrefused)
    · have hf := hsound.fits call (List.mem_of_getElem? hc)
      rw [Fits, hjoined] at hf
      obtain ⟨-, outcome, hid, hnewest⟩ := hf
      rw [hjoined, State.mayResume, State.resolved, hid] at hm
      rcases outcome with _ | _ | r
      · simp at hm
      · exact .inr (.inr ⟨id, hjoined, hid⟩)
      · exact .inl ⟨id, hnewest r rfl⟩

theorem sample_answer : some "1" = some "1" ∧ 7 = sampleAnswered.cachedResult ∧
    ((∃ id, Newest sampleAnswered id (some "1") 7) ∨ (Phase.joined 0 : Phase ℕ) = .refused ∨
      ∃ id, (Phase.joined 0 : Phase ℕ) = .joined id ∧
        sampleAnswered.checks[id]? = some ⟨some "1", some none⟩) := by
  have hs : Step sampleAnswered (replay sampleAnswered [.resume 0 true]) :=
    ⟨.resume 0 true, by decide +kernel⟩
  have hc : sampleAnswered.calls[0]? = some ⟨some "1", .joined 0⟩ := by decide +kernel
  have hc' : (replay sampleAnswered [.resume 0 true]).calls[0]? = some ⟨some "1", .returned 7⟩ := by
    decide +kernel
  exact answer_for_version sampleAnswered_reachable hs hc nofun hc'

end Runs

end RustdeskConsole.UpdateChecks
