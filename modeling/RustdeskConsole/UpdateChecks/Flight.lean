import Mathlib.Data.List.Nodup
import RustdeskConsole.UpdateChecks.Service

namespace RustdeskConsole.UpdateChecks

variable {ρ : Type} {s s' : State ρ} {i id : ℕ} {call : Call ρ} {check : Check ρ}
  {version : Option String} {phase : Phase ρ} {result : ρ} {allowed : Bool}

/-- The answer to this check is the last that came. -/
structure Newest (s : State ρ) (id : ℕ) (version : Option String) (result : ρ) : Prop where
  answered : s.checks[id]? = some ⟨version, some (some result)⟩
  last : ∀ later check, id < later → s.checks[later]? = some check →
    ∀ r, check.outcome ≠ some (some r)

/-- A check that a call awaits is for the version of the call, and its answer is
still the last. -/
def Joined (s : State ρ) (call : Call ρ) (id : ℕ) : Prop :=
  ∃ outcome, s.checks[id]? = some ⟨call.frontendVersion, outcome⟩ ∧
    ∀ r, outcome = some (some r) → Newest s id call.frontendVersion s.cachedResult

/-- What holds of a call that has got as far as this. -/
def Fits (s : State ρ) (call : Call ρ) : Prop :=
  match call.phase with
  | .joined id => call.frontendVersion ≠ none ∧ Joined s call id
  | .waiting id => call.frontendVersion ≠ none ∧ id < s.checks.length
  | .returned _ => True
  | _ => call.frontendVersion ≠ none

/-- There is no more than one check under way, it is the last that was begun, and
what is cached is the last answer. -/
structure Sound (s : State ρ) : Prop where
  ended : ∀ id check, s.checks[id]? = some check → check.outcome = none →
    s.pendingUpdate = some id
  last : ∀ id, s.pendingUpdate = some id → id + 1 = s.checks.length
  shown : s.cachedFrontendVersion ≠ none →
    ∃ id, Newest s id s.cachedFrontendVersion s.cachedResult
  cached : ∀ id version result, Newest s id version result →
    version = s.cachedFrontendVersion ∧ result = s.cachedResult
  fits : ∀ call ∈ s.calls, Fits s call
  saves : ∀ i, i ∈ s.frontendVersionUpdate ↔ ∃ call, s.calls[i]? = some call ∧ call.phase = .saving
  nodup : s.frontendVersionUpdate.Nodup

theorem sound_initial (empty : ρ) (persisted : Option String) :
    Sound (initial empty persisted) where
  ended _ _ h := by cases h
  last _ h := by cases h
  shown h := (h rfl).elim
  cached _ _ _ h := by cases h.answered
  fits _ h := by cases h
  saves _ := by simp [initial]
  nodup := List.nodup_nil

section Moves

theorem Fits.congr (h : Fits s call) (hc : s'.checks = s.checks)
    (hr : s'.cachedResult = s.cachedResult) : Fits s' call := by
  obtain ⟨version, phase⟩ := call
  cases phase with
  | joined id =>
    obtain ⟨hv, outcome, hid, hnewest⟩ := h
    refine ⟨hv, outcome, hc ▸ hid, fun r ho ↦ ?_⟩
    obtain ⟨hanswered, hlast⟩ := hnewest r ho
    rw [hr]
    exact ⟨hc ▸ hanswered, hc ▸ hlast⟩
  | waiting id => exact ⟨h.1, hc ▸ h.2⟩
  | _ => exact h

theorem mem_setPhase {other : Call ρ} (h : other ∈ (s.setPhase i call phase).calls) :
    other ∈ s.calls ∨ other = { call with phase } :=
  List.mem_or_eq_of_mem_set h

theorem getElem?_setPhase (hc : s.calls[i]? = some call) (j : ℕ) :
    (s.setPhase i call phase).calls[j]? =
      if i = j then some { call with phase } else s.calls[j]? := by
  have hi : i < s.calls.length := (List.getElem?_eq_some_iff.mp hc).1
  simp only [State.setPhase, List.getElem?_set, hi, if_true]

/-- A call that has saved goes on. -/
theorem Sound.setPhase (h : Sound s) (hc : s.calls[i]? = some call) (hs : call.phase ≠ .saving)
    (hs' : phase ≠ .saving) (hf : Fits s { call with phase }) :
    Sound (s.setPhase i call phase) where
  ended := h.ended
  last := h.last
  shown hv := by
    obtain ⟨id, hanswered, hlast⟩ := h.shown hv
    exact ⟨id, hanswered, hlast⟩
  cached id version result hn := h.cached id version result ⟨hn.answered, hn.last⟩
  fits other hm := by
    rcases mem_setPhase hm with hm | rfl
    · exact (h.fits other hm).congr rfl rfl
    · exact hf.congr rfl rfl
  saves j := by
    rw [getElem?_setPhase hc]
    split
    · next heq =>
      subst heq
      refine (h.saves i).trans ⟨fun ⟨other, ho, hp⟩ ↦ ?_, fun ⟨other, ho, hp⟩ ↦ ?_⟩
      · obtain rfl := Option.some.inj (hc.symm.trans ho)
        exact (hs hp).elim
      · obtain rfl := Option.some.inj ho
        exact (hs' hp).elim
    · exact h.saves j
  nodup := h.nodup

theorem getElem?_append_cases {α : Type} {l : List α} {a b : α} {j : ℕ}
    (h : (l ++ [b])[j]? = some a) : l[j]? = some a ∨ j = l.length ∧ a = b := by
  rw [List.getElem?_append] at h
  split at h
  · exact .inl h
  · rw [List.getElem?_singleton] at h
    split at h
    · cases h
      exact .inr ⟨by omega, rfl⟩
    · cases h

theorem getElem?_append_of_some {α : Type} {l l' : List α} {a : α} {j : ℕ}
    (h : l[j]? = some a) : (l ++ l')[j]? = some a := by
  rw [List.getElem?_append_left (List.getElem?_eq_some_iff.mp h).1, h]

theorem Newest.perform {fresh : Option String} (h : Newest s id version result) :
    Newest (s.performUpdateCheck fresh) id version result where
  answered := getElem?_append_of_some h.answered
  last later check hlt hl := by
    rcases getElem?_append_cases hl with hl | ⟨-, rfl⟩
    · exact h.last later check hlt hl
    · nofun

theorem Newest.of_perform {fresh : Option String}
    (h : Newest (s.performUpdateCheck fresh) id version result) : Newest s id version result where
  answered := by
    rcases getElem?_append_cases h.answered with hid | ⟨-, heq⟩
    · exact hid
    · cases heq
  last later check hlt hl := h.last later check hlt (getElem?_append_of_some hl)

theorem Fits.perform {fresh : Option String} (h : Fits s call) :
    Fits (s.performUpdateCheck fresh) call := by
  obtain ⟨version, phase⟩ := call
  cases phase with
  | joined id =>
    obtain ⟨hv, outcome, hid, hnewest⟩ := h
    exact ⟨hv, outcome, getElem?_append_of_some hid, fun r ho ↦ (hnewest r ho).perform⟩
  | waiting id => exact ⟨h.1, Nat.lt_of_lt_of_le h.2 (List.length_append ▸ Nat.le_add_right ..)⟩
  | _ => exact h

/-- A check begins when no other is under way. -/
theorem Sound.perform (h : Sound s) (hp : s.pendingUpdate = none) :
    Sound (s.performUpdateCheck version) where
  ended id check hid ho := by
    rcases getElem?_append_cases hid with hid | ⟨rfl, -⟩
    · have hsome := h.ended id check hid ho
      rw [hp] at hsome
      cases hsome
    · rfl
  last id hid := by
    cases hid
    simp [State.performUpdateCheck]
  shown hv := by
    obtain ⟨id, hid⟩ := h.shown hv
    exact ⟨id, hid.perform⟩
  cached id version result hn := h.cached id version result hn.of_perform
  fits call hm := (h.fits call hm).perform
  saves := h.saves
  nodup := h.nodup

theorem running_eq_some : s.running = some (id, check) ↔
    s.pendingUpdate = some id ∧ s.checks[id]? = some check ∧ check.outcome = none := by
  rw [State.running]
  simp only [Option.bind_eq_bind, Option.bind_eq_some_iff]
  constructor
  · rintro ⟨id', hp, check', hid, heq⟩
    split at heq
    · next ho =>
      cases heq
      exact ⟨hp, hid, Option.isNone_iff_eq_none.mp ho⟩
    · cases heq
  · rintro ⟨hp, hid, ho⟩
    exact ⟨id, hp, check, hid, by rw [ho]; rfl⟩

theorem getElem?_finish {outcome : Option ρ} (hid : s.checks[id]? = some check) (j : ℕ) :
    (s.finish id check outcome).checks[j]? =
      if id = j then some { check with outcome := some outcome } else s.checks[j]? := by
  have hlt : id < s.checks.length := (List.getElem?_eq_some_iff.mp hid).1
  simp only [State.finish, List.getElem?_set, hlt, if_true]

/-- The check under way ends without an answer. -/
theorem Sound.fail (h : Sound s) (hr : s.running = some (id, check)) :
    Sound (s.finish id check none) := by
  obtain ⟨hp, hid, ho⟩ := running_eq_some.mp hr
  have hnewest : ∀ {other version result}, Newest s other version result →
      Newest (s.finish id check none) other version result := by
    intro other version result hn
    have hne : id ≠ other := by
      rintro rfl
      obtain rfl := Option.some.inj (hid.symm.trans hn.answered)
      cases ho
    refine ⟨by rw [getElem?_finish hid, if_neg hne, hn.answered], fun later check' hlt hl ↦ ?_⟩
    rw [getElem?_finish hid] at hl
    split at hl
    · cases hl
      nofun
    · exact hn.last later check' hlt hl
  refine ⟨fun other check' hother hnone ↦ ?_, fun other hother ↦ ?_, fun hv ↦ ?_,
    fun other version result hn ↦ h.cached other version result ?_, fun call hm ↦ ?_, h.saves,
    h.nodup⟩
  · rw [getElem?_finish hid] at hother
    split at hother
    · cases hother
      cases hnone
    · exact h.ended other check' hother hnone
  · rw [h.last other hother, State.finish, List.length_set]
  · obtain ⟨other, hother⟩ := h.shown hv
    exact ⟨other, hnewest hother⟩
  · refine ⟨?_, fun later check' hlt hl r hr ↦ ?_⟩
    · have hanswered := hn.answered
      rw [getElem?_finish hid] at hanswered
      split at hanswered
      · cases hanswered
      · exact hanswered
    · have hne : id ≠ later := by
        rintro rfl
        obtain rfl := Option.some.inj (hid.symm.trans hl)
        rw [ho] at hr
        cases hr
      exact hn.last later check' hlt (by rw [getElem?_finish hid, if_neg hne, hl]) r hr
  · have hf := h.fits call hm
    obtain ⟨version, phase⟩ := call
    cases phase with
    | joined other =>
      obtain ⟨hv, outcome, hother, hn⟩ := hf
      refine ⟨hv, ?_⟩
      by_cases heq : id = other
      · subst heq
        obtain rfl := Option.some.inj (hid.symm.trans hother)
        exact ⟨some none, by rw [getElem?_finish hid, if_pos rfl], nofun⟩
      · exact ⟨outcome, by rw [getElem?_finish hid, if_neg heq, hother],
          fun r hr ↦ hnewest (hn r hr)⟩
    | waiting other => exact ⟨hf.1, by rw [State.finish, List.length_set]; exact hf.2⟩
    | _ => exact hf

/-- The answer of the check under way comes when no call is left that could have
gone on with an earlier one. -/
theorem Sound.answer (h : Sound s) (hd : s.drained) (hr : s.running = some (id, check)) :
    Sound { s.finish id check (some result) with
      cachedResult := result
      cachedFrontendVersion := check.frontendVersion } := by
  obtain ⟨hp, hid, ho⟩ := running_eq_some.mp hr
  have hget := @getElem?_finish ρ s id check (some result) hid
  have hnewest : Newest { s.finish id check (some result) with
      cachedResult := result
      cachedFrontendVersion := check.frontendVersion } id check.frontendVersion result := by
    refine ⟨(hget id).trans (if_pos rfl), fun later check' hlt hl ↦ ?_⟩
    have hlen : later < s.checks.length := by
      have := (List.getElem?_eq_some_iff.mp hl).1
      rwa [State.finish, List.length_set] at this
    have hlast := h.last id hp
    omega
  refine ⟨fun other check' hother hnone ↦ ?_, fun other hother ↦ ?_, fun _ ↦ ⟨id, hnewest⟩,
    fun other version r hn ↦ ?_, fun call hm ↦ ?_, h.saves, h.nodup⟩
  · rw [hget] at hother
    split at hother
    · cases hother
      cases hnone
    · exact h.ended other check' hother hnone
  · exact (h.last other hother).trans (List.length_set ..).symm
  · by_cases heq : id = other
    · subst heq
      cases hn.answered.symm.trans ((hget id).trans (if_pos rfl))
      exact ⟨rfl, rfl⟩
    · have hlen : other < s.checks.length := by
        have := (List.getElem?_eq_some_iff.mp hn.answered).1
        rwa [State.finish, List.length_set] at this
      have hlast := h.last id hp
      exact (hn.last id _ (by omega) ((hget id).trans (if_pos rfl)) result rfl).elim
  · have hf := h.fits call hm
    have hdrained := List.all_eq_true.mp hd call hm
    obtain ⟨version, phase⟩ := call
    cases phase with
    | joined other =>
      obtain ⟨hv, outcome, hother, hn⟩ := hf
      refine ⟨hv, ?_⟩
      by_cases heq : id = other
      · subst heq
        obtain rfl := Option.some.inj (hid.symm.trans hother)
        exact ⟨_, (hget id).trans (if_pos rfl), fun _ _ ↦ hnewest⟩
      · refine ⟨outcome, (hget other).trans ((if_neg heq).trans hother), fun r hr ↦ ?_⟩
        have hresumes : s.mayResume (.joined other) = true := by
          rw [State.mayResume, State.resolved, hp, hother, hr]
          simpa using heq
        rw [hresumes] at hdrained
        cases hdrained
    | waiting other => exact ⟨hf.1, Nat.lt_of_lt_of_eq hf.2 (List.length_set ..).symm⟩
    | _ => exact hf

end Moves

section Steps

theorem fetchUpdate_cases : s.fetchUpdate allowed version = (s, none) ∨
    (∃ id, s.pendingUpdate = some id ∧ s.fetchUpdate allowed version = (s, some id)) ∨
    s.pendingUpdate = none ∧ s.fetchUpdate allowed version =
      (s.performUpdateCheck (version.or s.lastKnownFrontendVersion), some s.checks.length) := by
  rw [State.fetchUpdate]
  split
  · exact .inl rfl
  · split
    · next id hp => exact .inr (.inl ⟨id, hp, rfl⟩)
    · next hp => exact .inr (.inr ⟨hp, rfl⟩)

/-- What the loop makes of a call. -/
inductive Loops (s : State ρ) (i : ℕ) (call : Call ρ) : State ρ → Prop
  | returned : call.frontendVersion = s.cachedFrontendVersion →
      Loops s i call (s.setPhase i call (.returned s.cachedResult))
  | waiting (id : ℕ) : s.pendingUpdate = some id → Loops s i call (s.setPhase i call (.waiting id))
  | joined (id : ℕ) (check : Check ρ) : call.frontendVersion ≠ s.cachedFrontendVersion →
      s.pendingUpdate = some id → s.checks[id]? = some check →
      check.frontendVersion = call.frontendVersion →
      Loops s i call (s.setPhase i call (.joined id))
  | performed : s.pendingUpdate = none →
      Loops s i call ((s.performUpdateCheck call.frontendVersion).setPhase i call
        (.joined s.checks.length))
  | refused : Loops s i call (s.setPhase i call .refused)

theorem loops_loop (hv : call.frontendVersion ≠ none) :
    Loops s i call (s.loop i call allowed) := by
  rw [State.loop]
  split
  · next heq => exact .returned heq
  · next hne =>
    split
    · next id ho => exact .waiting id (Option.filter_eq_some_iff.mp ho).1
    · next ho =>
      rcases @fetchUpdate_cases ρ s call.frontendVersion allowed with hf | ⟨id, hp, hf⟩ | ⟨hp, hf⟩
      · rw [hf]
        exact .refused
      · rw [hf]
        have hsame : s.checks[id]?.map Check.frontendVersion = some call.frontendVersion := by
          simpa [State.other, hp] using ho
        obtain ⟨check, hid, hcheck⟩ := Option.map_eq_some_iff.mp hsame
        exact .joined id check hne hp hid hcheck
      · obtain ⟨version, hversion⟩ := Option.ne_none_iff_exists'.mp hv
        have hor : call.frontendVersion.or s.lastKnownFrontendVersion = call.frontendVersion := by
          rw [hversion]
          rfl
        rw [hf, hor]
        exact .performed hp

/-- What becomes of a call that goes on. -/
inductive Resumes (s : State ρ) (i : ℕ) (call : Call ρ) : State ρ → Prop
  | looped {s' : State ρ} : (call.phase = .ready ∨ ∃ id, call.phase = .waiting id) →
      call.frontendVersion ≠ none → Loops s i call s' → Resumes s i call s'
  | returned : (call.phase = .refused ∨ ∃ id, call.phase = .joined id) →
      Resumes s i call (s.setPhase i call (.returned s.cachedResult))

theorem resumes_resume (hm : s.mayResume call.phase = true) (hf : Fits s call) :
    Resumes s i call (s.resume i call allowed) := by
  rw [State.resume]
  obtain ⟨version, phase⟩ := call
  cases phase with
  | ready => exact .looped (.inl rfl) hf (loops_loop hf)
  | waiting id => exact .looped (.inr ⟨id, rfl⟩) hf.1 (loops_loop hf.1)
  | joined id => exact .returned (.inr ⟨id, rfl⟩)
  | refused => exact .returned (.inl rfl)
  | _ => cases hm

theorem mayResume_saving (hm : s.mayResume call.phase = true) : call.phase ≠ .saving := by
  intro heq
  rw [heq] at hm
  cases hm

theorem Sound.loops (h : Sound s) (hc : s.calls[i]? = some call) (hs : call.phase ≠ .saving)
    (hv : call.frontendVersion ≠ none) (hl : Loops s i call s') : Sound s' := by
  cases hl with
  | returned => exact h.setPhase hc hs nofun trivial
  | waiting id hp =>
    exact h.setPhase hc hs nofun ⟨hv, Nat.lt_of_succ_le (Nat.le_of_eq (h.last id hp))⟩
  | joined id check hne hp hid hcheck =>
    refine h.setPhase hc hs nofun ⟨hv, check.outcome, hcheck ▸ hid, fun r ho ↦ ?_⟩
    have hlast := h.last id hp
    have hnewest : Newest s id check.frontendVersion r := by
      refine ⟨ho ▸ hid, fun later _ hlt hl ↦ ?_⟩
      have hlen := (List.getElem?_eq_some_iff.mp hl).1
      omega
    exact (hne (hcheck ▸ (h.cached id _ r hnewest).1)).elim
  | performed hp =>
    refine (h.perform hp).setPhase hc hs nofun ⟨hv, none, ?_, nofun⟩
    exact List.getElem?_concat_length
  | refused => exact h.setPhase hc hs nofun hv

theorem Sound.resumes (h : Sound s) (hc : s.calls[i]? = some call) (hs : call.phase ≠ .saving)
    (hr : Resumes s i call s') : Sound s' := by
  cases hr with
  | looped _ hv hl => exact h.loops hc hs hv hl
  | returned => exact h.setPhase hc hs nofun trivial

/-- What becomes of the call whose save ends. -/
inductive Saves (s : State ρ) (i : ℕ) (call : Call ρ) : State ρ → Prop
  | ready (lastKnown : Option String) :
      Saves s i call { s.setPhase i call .ready with lastKnownFrontendVersion := lastKnown }
  | thrown : Saves s i call (s.setPhase i call .thrown)

theorem saves_saveFrontendVersion {fails : Bool} :
    Saves s i call (s.saveFrontendVersion i call fails) := by
  rw [State.saveFrontendVersion]
  split
  · exact .ready s.lastKnownFrontendVersion
  · split
    · exact .thrown
    · exact .ready call.frontendVersion

theorem Sound.setSaved {rest : List ℕ} (h : Sound s) (hq : s.frontendVersionUpdate = i :: rest)
    (hc : s.calls[i]? = some call) (hp : phase ≠ .saving)
    (hf : Fits s { call with phase }) :
    Sound { s.setPhase i call phase with frontendVersionUpdate := rest } := by
  have hnodup := h.nodup
  rw [hq, List.nodup_cons] at hnodup
  refine ⟨h.ended, h.last, fun hv ↦ ?_, fun id version result hn ↦
    h.cached id version result ⟨hn.answered, hn.last⟩, fun other hm ↦ ?_, fun j ↦ ?_, hnodup.2⟩
  · obtain ⟨id, hanswered, hlast⟩ := h.shown hv
    exact ⟨id, hanswered, hlast⟩
  · rcases mem_setPhase hm with hm | rfl
    · exact (h.fits other hm).congr rfl rfl
    · exact hf.congr rfl rfl
  · have hsaves := h.saves j
    rw [hq, List.mem_cons] at hsaves
    have hget : (s.setPhase i call phase).calls[j]? = _ := getElem?_setPhase hc j
    by_cases heq : i = j
    · subst heq
      rw [if_pos rfl] at hget
      refine ⟨fun hm ↦ (hnodup.1 hm).elim, fun ⟨other, ho, hother⟩ ↦ ?_⟩
      obtain rfl := Option.some.inj (hget.symm.trans ho)
      exact (hp hother).elim
    · rw [if_neg heq] at hget
      have hiff : j ∈ rest ↔ j = i ∨ j ∈ rest := ⟨.inr, fun hm ↦ hm.resolve_left (Ne.symm heq)⟩
      exact hiff.trans (hsaves.trans ⟨fun ⟨other, ho, hother⟩ ↦ ⟨other, hget.trans ho, hother⟩,
        fun ⟨other, ho, hother⟩ ↦ ⟨other, hget.symm.trans ho, hother⟩⟩)

theorem Sound.saved {rest : List ℕ} (h : Sound s) (hq : s.frontendVersionUpdate = i :: rest)
    (hc : s.calls[i]? = some call)
    (hs : Saves { s with frontendVersionUpdate := rest } i call s') : Sound s' := by
  obtain ⟨other, ho, hsaving⟩ := (h.saves i).mp (hq ▸ List.mem_cons_self)
  obtain rfl := Option.some.inj (hc.symm.trans ho)
  have hv : call.frontendVersion ≠ none := by
    have hf := h.fits call (List.mem_of_getElem? hc)
    rw [Fits, hsaving] at hf
    exact hf
  cases hs with
  | ready lastKnown =>
    obtain ⟨h₁, h₂, h₃, h₄, h₅, h₆, h₇⟩ :
        Sound { s.setPhase i call .ready with frontendVersionUpdate := rest } :=
      h.setSaved hq hc nofun hv
    exact ⟨h₁, h₂, fun hne ↦ (h₃ hne).imp fun _ hn ↦ ⟨hn.answered, hn.last⟩,
      fun id version result hn ↦ h₄ id version result ⟨hn.answered, hn.last⟩,
      fun other hm ↦ (h₅ other hm).congr rfl rfl, h₆, h₇⟩
  | thrown => exact h.setSaved hq hc nofun hv

theorem Sound.clear (h : Sound s) (hr : s.running = none) :
    Sound { s with pendingUpdate := none } where
  ended id check hid ho := by
    have hsome := running_eq_some.mpr ⟨h.ended id check hid ho, hid, ho⟩
    rw [hr] at hsome
    cases hsome
  last _ hid := by cases hid
  shown hv := (h.shown hv).imp fun _ hn ↦ ⟨hn.answered, hn.last⟩
  cached id version result hn := h.cached id version result ⟨hn.answered, hn.last⟩
  fits call hm := (h.fits call hm).congr rfl rfl
  saves := h.saves
  nodup := h.nodup

theorem Fits.append (h : Fits s call) {calls : List (Call ρ)} {queue : List ℕ} :
    Fits { s with frontendVersionUpdate := queue, calls := calls } call :=
  h.congr rfl rfl

theorem Sound.checkUpdate (h : Sound s) : Sound (s.checkUpdate version) := by
  have hlt : ∀ i ∈ s.frontendVersionUpdate, i < s.calls.length := by
    intro i hi
    obtain ⟨call, hc, -⟩ := (h.saves i).mp hi
    exact (List.getElem?_eq_some_iff.mp hc).1
  rw [State.checkUpdate]
  split
  · next htruthy =>
    refine ⟨h.ended, h.last, fun hv ↦ (h.shown hv).imp fun _ hn ↦ ⟨hn.answered, hn.last⟩,
      fun id version result hn ↦ h.cached id version result ⟨hn.answered, hn.last⟩,
      fun call hm ↦ ?_, fun i ↦ ?_, ?_⟩
    · rcases List.mem_append.mp hm with hm | hm
      · exact (h.fits call hm).append
      · obtain rfl := List.mem_singleton.mp hm
        rintro rfl
        cases htruthy
    · refine List.mem_append.trans ⟨fun hm ↦ ?_, fun ⟨call, hc, hsaving⟩ ↦ ?_⟩
      · rcases hm with hm | hm
        · obtain ⟨call, hc, hsaving⟩ := (h.saves i).mp hm
          exact ⟨call, getElem?_append_of_some hc, hsaving⟩
        · obtain rfl := List.mem_singleton.mp hm
          exact ⟨_, List.getElem?_concat_length, rfl⟩
      · rcases getElem?_append_cases hc with hc | ⟨rfl, -⟩
        · exact .inl ((h.saves i).mpr ⟨call, hc, hsaving⟩)
        · exact .inr List.mem_cons_self
    · refine List.nodup_append.mpr ⟨h.nodup, List.nodup_singleton _, fun i hi j hj ↦ ?_⟩
      obtain rfl := List.mem_singleton.mp hj
      exact Nat.ne_of_lt (hlt i hi)
  · refine ⟨h.ended, h.last, fun hv ↦ (h.shown hv).imp fun _ hn ↦ ⟨hn.answered, hn.last⟩,
      fun id version result hn ↦ h.cached id version result ⟨hn.answered, hn.last⟩,
      fun call hm ↦ ?_, fun i ↦ (h.saves i).trans ⟨fun ⟨call, hc, hsaving⟩ ↦
        ⟨call, getElem?_append_of_some hc, hsaving⟩, fun ⟨call, hc, hsaving⟩ ↦ ?_⟩, h.nodup⟩
    · rcases List.mem_append.mp hm with hm | hm
      · exact (h.fits call hm).append
      · obtain rfl := List.mem_singleton.mp hm
        trivial
    · rcases getElem?_append_cases hc with hc | ⟨-, rfl⟩
      · exact ⟨call, hc, hsaving⟩
      · cases hsaving

/-- What a step that is neither the arrival of a call nor the timer does. -/
inductive Settles (s : State ρ) : State ρ → Prop
  | saved {i : ℕ} {rest : List ℕ} {call : Call ρ} {s' : State ρ} :
      s.frontendVersionUpdate = i :: rest → s.calls[i]? = some call →
      Saves { s with frontendVersionUpdate := rest } i call s' → Settles s s'
  | resumed {i : ℕ} {call : Call ρ} {s' : State ρ} : s.calls[i]? = some call →
      s.mayResume call.phase = true → Resumes s i call s' → Settles s s'
  | answered {id : ℕ} {check : Check ρ} (result : ρ) : s.drained → s.running = some (id, check) →
      Settles s { s.finish id check (some result) with
        cachedResult := result
        cachedFrontendVersion := check.frontendVersion }
  | failed {id : ℕ} {check : Check ρ} : s.running = some (id, check) →
      Settles s (s.finish id check none)
  | cleared : s.running = none → s.pendingUpdate ≠ none →
      Settles s { s with pendingUpdate := none }

theorem settles_of_goes (h : Sound s) (hg : Goes s s') : Settles s s' := by
  obtain ⟨action, ha, hs⟩ := hg
  cases action with
  | checkUpdate | handleScheduledUpdateCheck => cases ha
  | save fails =>
    rw [step] at hs
    split at hs
    · cases hs
    · next i rest hq =>
      obtain ⟨call, hc, rfl⟩ := Option.map_eq_some_iff.mp hs
      exact .saved hq hc saves_saveFrontendVersion
  | resume i allowed =>
    obtain ⟨call, hc, rfl⟩ := Option.map_eq_some_iff.mp hs
    obtain ⟨hc, hm⟩ := Option.filter_eq_some_iff.mp hc
    exact .resumed hc hm (resumes_resume hm (h.fits call (List.mem_of_getElem? hc)))
  | answer result =>
    rw [step] at hs
    split at hs
    · next hd =>
      obtain ⟨⟨id, check⟩, hr, rfl⟩ := Option.map_eq_some_iff.mp hs
      exact .answered result hd hr
    · cases hs
  | fail =>
    obtain ⟨⟨id, check⟩, hr, rfl⟩ := Option.map_eq_some_iff.mp hs
    exact .failed hr
  | clear =>
    rw [step] at hs
    split at hs
    · next hb =>
      cases hs
      rw [Bool.and_eq_true, Option.isNone_iff_eq_none, Option.isSome_iff_ne_none] at hb
      exact .cleared hb.1 hb.2
    · cases hs

theorem step_cases (h : Sound s) (hs : Step s s') :
    (∃ version, s' = s.checkUpdate version) ∨
      (∃ allowed, s' = (s.fetchUpdate allowed none).1) ∨ Settles s s' := by
  obtain ⟨action, hs⟩ := hs
  cases action with
  | checkUpdate version => exact .inl ⟨version, (Option.some.inj hs).symm⟩
  | handleScheduledUpdateCheck allowed =>
    exact .inr (.inl ⟨allowed, (Option.some.inj hs).symm⟩)
  | _ => exact .inr (.inr (settles_of_goes h ⟨_, rfl, hs⟩))

theorem Sound.settles (h : Sound s) (hs : Settles s s') : Sound s' := by
  cases hs with
  | saved hq hc hs => exact h.saved hq hc hs
  | resumed hc hm hr => exact h.resumes hc (mayResume_saving hm) hr
  | answered result hd hr => exact h.answer hd hr
  | failed hr => exact h.fail hr
  | cleared hr => exact h.clear hr

theorem Sound.step (h : Sound s) (hs : Step s s') : Sound s' := by
  rcases step_cases h hs with ⟨version, rfl⟩ | ⟨allowed, rfl⟩ | hs
  · exact h.checkUpdate
  · rcases @fetchUpdate_cases ρ s none allowed with hf | ⟨id, -, hf⟩ | ⟨hp, hf⟩
    · rw [hf]
      exact h
    · rw [hf]
      exact h
    · rw [hf]
      exact h.perform hp
  · exact h.settles hs

end Steps

end RustdeskConsole.UpdateChecks
