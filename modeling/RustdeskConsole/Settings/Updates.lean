import RustdeskConsole.Settings.Protocol

namespace RustdeskConsole.Settings

open Collections Effects Effects.History

variable {w w' w₀ : World} {call other : Call} {h : History}
  {cfg cfg' : Config Call Command Reply World}

section Specs

theorem not_mem_of_grown {event : Event} (hn : (call, event) ∉ w.history)
    (ho : Others call w w') : (call, event) ∉ w'.history := by
  obtain ⟨later, heq, hl⟩ := ho.grown
  intro hm
  rw [heq] at hm
  rcases List.mem_append.mp hm with hm | hm
  · exact hl _ hm rfl
  · exact hn hm

/-- The call has stored its flag, if it has committed. -/
def Closed (call : Call) (w : World) : Prop :=
  ∀ merged, (call, .committed merged) ∈ w.history → (call, .finished) ∈ w.history

theorem closed_stable : logic.Stable Closed := by
  intro call w w' ho hc merged hm
  obtain ⟨later, heq, hl⟩ := ho.grown
  rw [heq] at hm ⊢
  rcases List.mem_append.mp hm with hm | hm
  · exact absurd rfl (hl _ hm)
  · exact List.mem_append_right _ (hc merged hm)

theorem closed_of_new (hn : ∀ event, (call, event) ∉ w.history) : Closed call w :=
  fun merged hm ↦ absurd hm (hn (.committed merged))

theorem Sampled.others {generation : ℕ} {flag : Bool} (hs : Sampled generation flag w)
    (ho : Others call w w') : Sampled generation flag w' where
  known := Nat.le_trans hs.known ho.generation
  flag hgen hset := by
    have hknown := hs.known
    have hgrown := ho.generation
    obtain ⟨hset, hflag⟩ := ho.flag (by omega) hset
    exact (hs.flag (by omega) hset).trans hflag.symm

theorem updateSettings_spec {dto : UpdateGeneralSettingsDto} {s : Unit}
    (hc : call.request = .updateSettings dto) (hn : ∀ event, (call, event) ∉ w.history) :
    logic.Ensures call (updateSettings dto) (fun _ _ ↦ Closed call) (fun _ _ ↦ Closed call)
      s w := by
  refine .bind (.invoke fun w₁ ho₁ _ ↦ ⟨trivial, fun o w₂ r hx _ ↦ ?_⟩)
  have hn₁ := fun event ↦ not_mem_of_grown (hn event) ho₁
  cases o with
  | error failure =>
    cases hx
    exact closed_of_new hn₁
  | ok u =>
    cases hx
    have hread : lastRead call ((call, .read w₁.settings) :: w₁.history) = some w₁.settings :=
      if_pos rfl
    have hn₂ : ∀ event, (∀ current, event ≠ .read current) →
        (call, event) ∉ (call, .read w₁.settings) :: w₁.history := by
      intro event hne
      simpa [hne] using hn₁ event
    refine .bind (.invoke fun w₃ ho₃ _ ↦ ⟨?_, fun o w₄ r hx _ ↦ ?_⟩)
    · have hn₃ := not_mem_of_grown (hn₂ .finished nofun) ho₃
      exact ⟨hn₃, dto, w₁.settings, hc, (lastRead_of_grown ho₃.grown).trans hread, rfl⟩
    · cases o with
      | error failure =>
        cases hx
        exact fun merged hm ↦ absurd hm (not_mem_of_grown (hn₂ (.committed merged) nofun) ho₃)
      | ok u =>
        cases hx
        have hown : ownCommit call ((call, .committed (merge dto w₁.settings)) :: w₃.history) =
          some (merge dto w₁.settings) := if_pos rfl
        refine .bind (.invoke fun w₅ ho₅ _ ↦ ⟨?_, fun _ _ _ hx _ ↦ ?_⟩)
        · exact ⟨_, (ownCommit_of_grown ho₅.grown).trans hown, rfl⟩
        · cases hx
          exact .pure fun merged hm ↦ .head _

theorem refreshDeviceCloneIsolation_spec {s : Unit} (hc : Closed call w) :
    logic.Ensures call refreshDeviceCloneIsolation (fun _ _ ↦ Closed call) (fun _ _ ↦ Closed call)
      s w := by
  refine .tryCatch (.bind (.invoke fun w₁ ho₁ _ ↦ ⟨trivial, fun _ w₂ r hx _ ↦ ?_⟩))
  have hc₁ := closed_stable call w w₁ ho₁ hc
  cases hx
  refine .bind (.invoke fun w₃ ho₃ _ ↦ ⟨trivial, fun o w₄ r hx _ ↦ ?_⟩)
  have hc₃ := closed_stable call w₁ w₃ ho₃ hc₁
  cases o with
  | error failure =>
    cases hx
    exact .pure hc₃
  | ok u =>
    cases hx
    have hs : Sampled w₁.cacheGeneration w₃.flag w₃ := ⟨ho₃.generation, fun _ _ ↦ rfl⟩
    refine .invoke fun w₅ ho₅ _ ↦ ⟨hs.others ho₅, fun _ _ _ hx _ ↦ ?_⟩
    have hc₅ := closed_stable call w₃ w₅ ho₅ hc₃
    cases hx
    split <;> exact hc₅

/-- A call that ends has stored the flag that it has committed. -/
theorem delivers : logic.Delivers Closed := by
  rintro call w p - ⟨hnew, rfl⟩
  have hserve : logic.Ensures call (serve call.request) (fun _ _ ↦ Closed call)
      (fun _ _ ↦ Closed call) () w := by
    cases hc : call.request with
    | updateSettings dto =>
      exact .bind ((updateSettings_spec hc hnew).mono (fun _ _ _ h ↦ .pure h) fun _ _ _ h ↦ h)
    | refreshDeviceCloneIsolation => exact refreshDeviceCloneIsolation_spec (closed_of_new hnew)
  refine Logic.Wp.bind (Logic.Wp.mono hserve fun x w h ↦ ?_)
  rcases x with ⟨_ | _, _⟩ <;> exact h

theorem admissible : logic.Admissible := fun call w p hi ha ↦
  (delivers call w p hi ha).mono fun _ _ _ ↦ trivial

/-- When every update that has committed has ended, no flag is left to be stored. -/
theorem settled_of_done (hs : Stored w₀) (hr : machine.Run (Machine.idle w₀) cfg)
    (hd : ∀ call merged, (call, .committed merged) ∈ cfg.world.history →
      cfg.threads call = some (.done ())) : Settled cfg.world.history := by
  have hleaves := (Logic.leaves_idle (Q := Closed) hs).run closed_stable delivers hr
  exact fun call merged hm ↦ hleaves.ended (hd call merged hm) merged hm

end Specs

section Orderly

/-- An update that commits finds what it does not mention as it has read it, and
the updates store their flags in the order in which they have committed. -/
def Orderly (w : World) (call : Call) : Event → Prop
  | .read _ => True
  | .committed _ =>
    match call.request, lastRead call w.history with
    | .updateSettings dto, some current => Leaves dto current w.settings
    | _, _ => True
  | .finished => ∀ later ∈ committedSince call w.history, (later, .finished) ∉ w.history

def OrderlyStep (cfg cfg' : Config Call Command Reply World) : Prop :=
  ∀ call event, cfg'.world.history = (call, event) :: cfg.world.history →
    Orderly cfg.world call event

/-- The cache follows the table as soon as all updates have stored their flags. -/
def Current (w : World) : Prop := Settled w.history → w.deviceCloneIsolationCache = w.flag

theorem exec_current {c : Command} {o : Except Failure Unit} (hc : Current w) (hs : Stored w)
    (hg : guard call c w) (ho : ∀ event,
      (exec call c o w).1.history = (call, event) :: w.history → Orderly w call event) :
    Current (exec call c o w).1 := by
  cases c with
  | readSettings =>
    cases o with
    | error failure => exact hc
    | ok u => exact fun hset ↦ hc (settled_read hset)
  | transaction merged =>
    cases o with
    | error failure => exact hc
    | ok u => exact fun hset ↦ (not_settled hg.1 hset).elim
  | storeFlag flag =>
    intro hset
    obtain ⟨merged, hown, rfl⟩ := hg
    have horder := ho .finished rfl
    have hlast : committedSince call w.history = [] := by
      refine List.eq_nil_iff_forall_not_mem.mpr fun later hl ↦ ?_
      obtain ⟨hne, settings, hm⟩ := mem_of_committedSince hl
      cases hset later settings (.tail _ hm) with
      | head => exact hne rfl
      | tail _ hf => exact horder later hl hf
    exact (hs.flag call merged (lastCommit_of_own hown hlast)).symm
  | generation => exact hc
  | readFlag =>
    cases o with
    | error failure => exact hc
    | ok u => exact hc
  | refreshFlag generation flag =>
    rw [exec]
    split
    · exact hc
    · next heq =>
      intro hset
      exact hg.flag (not_not.mp heq).symm hset

theorem exec_leaves {c : Command} {o : Except Failure Unit} {dto : UpdateGeneralSettingsDto}
    {merged : GeneralSettings} (hs : Stored w) (hg : guard call c w)
    (hr : other.request = .updateSettings dto)
    (hc : (exec call c o w).1.history = (other, .committed merged) :: w.history) :
    Leaves dto w.settings (exec call c o w).1.settings ↔ Orderly w other (.committed merged) := by
  have hsame : (exec call c o w).1.history ≠ w.history := fun heq ↦
    List.cons_ne_self _ _ (hc.symm.trans heq)
  cases c with
  | transaction settings =>
    cases o with
    | error failure => exact absurd rfl hsame
    | ok u =>
      cases hc
      obtain ⟨-, dto', current, hr', hread, rfl⟩ := hg
      cases hr.symm.trans hr'
      have hone := hs.reads call current (mem_of_lastRead hread)
      refine (leaves_save hone).trans ?_
      simp only [Orderly, hr, hread]
  | readSettings =>
    cases o with
    | error failure => exact absurd rfl hsame
    | ok u => cases hc
  | storeFlag flag => cases hc
  | generation => exact absurd rfl hsame
  | readFlag =>
    cases o with
    | error failure => exact absurd rfl hsame
    | ok u => exact absurd rfl hsame
  | refreshFlag generation flag =>
    refine absurd ?_ hsame
    rw [exec]
    split <;> rfl

end Orderly

section Runs

/-- A service that has just read the flag. -/
structure Starts (w : World) : Prop where
  history : w.history = []
  cache : w.deviceCloneIsolationCache = w.flag

theorem stored_start (h₀ : Starts w₀) : Stored w₀ where
  flag call merged hl := by
    rw [h₀.history] at hl
    cases hl
  reads call current hm := by
    rw [h₀.history] at hm
    cases hm

theorem verified (h₀ : Starts w₀) (hr : machine.Run (Machine.idle w₀) cfg) : logic.Verified cfg :=
  (Logic.verified_idle (stored_start h₀)).run admissible hr

theorem step_current (hv : logic.Verified cfg) (hc : Current cfg.world) (hs : machine.Step cfg cfg')
    (ho : OrderlyStep cfg cfg') : Current cfg'.world := by
  rcases Logic.Leaves.step_cases hv hs with hw | ⟨call, c, o, hg, hw⟩
  · rw [hw]
    exact hc
  · rw [hw]
    exact exec_current hc hv.1 hg fun event he ↦ ho call event (hw ▸ he)

theorem run_current (h₀ : Starts w₀)
    (hr : machine.RunWhere OrderlyStep (Machine.idle w₀) cfg) : Current cfg.world := by
  induction hr with
  | refl => exact fun _ ↦ h₀.cache
  | tail hrun hs ih => exact step_current (verified h₀ (Machine.RunWhere.run hrun)) ih hs.1 hs.2

/-- A commit leaves what its update does not mention if and only if it is in
order, and in an orderly run the cache is right whenever no update is under way. -/
theorem updates_kept (h₀ : Starts w₀)
    (hr : machine.RunWhere OrderlyStep (Machine.idle w₀) cfg) :
    (∀ cfg' call dto merged, machine.Step cfg cfg' → call.request = .updateSettings dto →
      cfg'.world.history = (call, .committed merged) :: cfg.world.history →
        (Leaves dto cfg.world.settings cfg'.world.settings ↔
          Orderly cfg.world call (.committed merged))) ∧
      (Settled cfg.world.history → cfg.world.deviceCloneIsolationCache = cfg.world.flag) := by
  refine ⟨fun cfg' call dto merged hs hrequest hh ↦ ?_, run_current h₀ hr⟩
  have hv := verified h₀ hr.run
  rcases Logic.Leaves.step_cases hv hs with hw | ⟨caller, c, o, hg, hw⟩
  · rw [hw] at hh
    exact absurd hh.symm (List.cons_ne_self _ _)
  · rw [hw] at hh ⊢
    exact exec_leaves hv.1 hg hrequest hh

end Runs

section Sample

instance (w : World) (call : Call) : (event : Event) → Decidable (Orderly w call event)
  | .read _ => inferInstanceAs (Decidable True)
  | .committed _ =>
    match hr : call.request, hl : lastRead call w.history with
    | .updateSettings dto, some current => decidable_of_iff (Leaves dto current w.settings)
        (by simp only [Orderly, hr, hl])
    | .updateSettings _, none => isTrue (by simp only [Orderly, hr, hl])
    | .refreshDeviceCloneIsolation, _ => isTrue (by simp only [Orderly, hr])
  | .finished => inferInstanceAs (Decidable (∀ later ∈ committedSince call w.history,
      (later, .finished) ∉ w.history))

def Event.isCommit : Event → Bool
  | .committed _ => true
  | _ => false

theorem settled_iff :
    Settled h ↔ ∀ e ∈ h, e.2.isCommit = true → (e.1, .finished) ∈ h := by
  constructor
  · intro hs e he hc
    obtain ⟨call, event⟩ := e
    cases event with
    | committed merged => exact hs call merged he
    | read current => cases hc
    | finished => cases hc
  · exact fun hs call merged hm ↦ hs _ hm rfl

instance : Decidable (Settled h) := decidable_of_iff _ settled_iff.symm

def orderlyStep (w w' : World) : Bool :=
  w'.history = w.history || match w'.history with
    | [] => true
    | (call, event) :: _ => decide (Orderly w call event)

theorem orderlyStep_iff (cfg cfg' : Config Call Command Reply World)
    (h : orderlyStep cfg.world cfg'.world = true) : OrderlyStep cfg cfg' := by
  intro call event hh
  rw [orderlyStep, hh, decide_eq_false (List.cons_ne_self _ _), Bool.false_or] at h
  exact of_decide_eq_true h

def sampleWorld : World := ⟨fun _ ↦ none, false, 0, []⟩

def sampleFresh (call : Call) (w : World) : Bool := w.history.all fun e ↦ decide (e.1 ≠ call)

theorem sampleFresh_admits (call : Call) (w : World) (h : sampleFresh call w = true) :
    machine.admits call w (handler call.request) := by
  refine ⟨fun event hm ↦ ?_, rfl⟩
  have hne := List.all_eq_true.mp h _ hm
  simp at hne

def sampleTurns (turns : List (Call × ℕ)) : List (Call × List (Except Failure Unit)) :=
  turns.map fun t ↦ (t.1, List.replicate t.2 (.ok ()))

def sampleRun (turns : List (Call × ℕ)) : Config Call Command Reply World :=
  machine.schedule (fun call ↦ handler call.request) sampleFresh (sampleTurns turns)
    (Machine.idle sampleWorld)

def sampleLanguage : Call :=
  ⟨1, .updateSettings ⟨true, some "de-DE", none, none, some true, none, none⟩⟩

def sampleDays : Call :=
  ⟨2, .updateSettings ⟨true, none, some 7, none, some false, none, none⟩⟩

/-- The update goes one command further. -/
def sampleNext (call : Call) (cfg : Config Call Command Reply World) :
    Config Call Command Reply World :=
  machine.resume call [.ok ()] cfg

/-- One update after the other. -/
def sampleOrderly : Config Call Command Reply World :=
  sampleRun [(sampleLanguage, 3), (sampleDays, 1)]

theorem sample_kept : Leaves ⟨true, none, some 7, none, some false, none, none⟩
      sampleOrderly.world.settings (sampleNext sampleDays sampleOrderly).world.settings ∧
    sampleOrderly.world.deviceCloneIsolationCache = sampleOrderly.world.flag := by
  have hr : machine.RunWhere OrderlyStep (Machine.idle sampleWorld) sampleOrderly :=
    Machine.schedule_runWhere orderlyStep_iff (fun _ ↦ by simp [orderlyStep]) sampleFresh_admits _
      (by decide +kernel)
  obtain ⟨hcommit, hcache⟩ := updates_kept ⟨rfl, rfl⟩ hr
  have hs : machine.Step sampleOrderly (sampleNext sampleDays sampleOrderly) :=
    Machine.resume_step _ (by decide +kernel)
  exact ⟨(hcommit _ sampleDays _ (merge ⟨true, none, some 7, none, some false, none, none⟩
    sampleOrderly.world.settings) hs rfl (by decide +kernel)).mpr (by decide +kernel),
    hcache (by decide +kernel)⟩

/-- The update of the days has read the settings before the language is stored. -/
def sampleOverlap : Config Call Command Reply World :=
  sampleRun [(sampleDays, 1), (sampleLanguage, 3)]

/-- Both have committed, and the first to commit is the last to store its flag. -/
def sampleLate : Config Call Command Reply World :=
  sampleRun [(sampleLanguage, 2), (sampleDays, 3), (sampleLanguage, 1)]

theorem update_lost : (¬ ∀ (w₀ : World) (cfg cfg' : Config Call Command Reply World) (call : Call)
    (dto : UpdateGeneralSettingsDto) (merged : GeneralSettings), Starts w₀ →
      machine.Run (Machine.idle w₀) cfg → machine.Step cfg cfg' →
        call.request = .updateSettings dto →
          cfg'.world.history = (call, .committed merged) :: cfg.world.history →
            Leaves dto cfg.world.settings cfg'.world.settings) ∧
    ¬ ∀ (w₀ : World) (cfg : Config Call Command Reply World), Starts w₀ →
      machine.Run (Machine.idle w₀) cfg → Settled cfg.world.history →
        cfg.world.deviceCloneIsolationCache = cfg.world.flag := by
  have hrun : ∀ turns, machine.Run (Machine.idle sampleWorld) (sampleRun turns) :=
    fun _ ↦ Machine.schedule_run sampleFresh_admits _
  constructor
  · intro hall
    have hs : machine.Step sampleOverlap (sampleNext sampleDays sampleOverlap) :=
      Machine.resume_step _ (by decide +kernel)
    have hleaves := hall sampleWorld _ _ sampleDays _ (merge ⟨true, none, some 7, none, some false,
      none, none⟩ sampleWorld.settings) ⟨rfl, rfl⟩ (hrun _) hs rfl (by decide +kernel)
    have hlost : (sampleNext sampleDays sampleOverlap).world.settings.defaultLanguage ≠
        sampleOverlap.world.settings.defaultLanguage := by decide +kernel
    exact hlost (hleaves.defaultLanguage rfl)
  · intro hall
    have hwrong : sampleLate.world.deviceCloneIsolationCache ≠ sampleLate.world.flag := by
      decide +kernel
    exact hwrong (hall sampleWorld sampleLate ⟨rfl, rfl⟩ (hrun _) (by decide +kernel))

end Sample

end RustdeskConsole.Settings
