import RustdeskConsole.Audits.Protocol

namespace RustdeskConsole.Audits

open Effects

variable {ρ δ : Type} (entry : ρ → Entry δ) {w w₀ : World ρ δ} {call : Call ρ}

/-- Whoever reads its info can, and a row is refused only for a nonce that a row of
its own device has. -/
def Orderly (w : World ρ δ) (call : Call ρ) : Event δ → Prop
  | .began => orNull (entry call.request).nonce = none → (entry call.request).data.isSome = true
  | .looked found => found = false → (entry call.request).data.isSome = true
  | .refused => ∀ row ∈ w.rows, row.nonce = orNull (entry call.request).nonce →
    row.deviceId = (entry call.request).deviceId
  | .missed | .answered _ => True

def OrderlyStep (cfg cfg' : Config (Call ρ) (Command δ) Reply (World ρ δ)) : Prop :=
  ∀ call event, cfg'.world.history = (call, event) :: cfg.world.history →
    Orderly entry cfg.world call event

/-- Every call that has ended, unless the database failed it, has returned a row of
its own device and nonce, and there is one row for a device and a nonce. -/
def Kept (w : World ρ δ) : Prop :=
  ∀ call result, (call, .answered result) ∈ w.history →
    (∃ message, result = .error (.database message)) ∨
      ∃ row ∈ w.rows, result = .ok row ∧ row.key = call.key entry ∧
        (row.nonce ≠ none → w.rows.filter (fun other ↦ other.key = row.key) = [row])

/-- In an orderly run nobody looks for a refused row in vain. -/
structure Clear (w : World ρ δ) : Prop where
  found : ∀ call, (call, .missed) ∉ w.history
  stored : ∀ call, (call, .refused) ∈ w.history → ∃ row ∈ w.rows, row.key = call.key entry
  reads : ∀ call, Reads entry call w.history → (entry call.request).data.isSome = true

section Steps

variable {entry}

theorem reads_cons {history : List (Call ρ × Event δ)} {event : Event δ} {other : Call ρ}
    (hr : Reads entry other ((call, event) :: history))
    (hev : event = .looked false ∨ event = .began ∧ orNull (entry call.request).nonce = none →
      (entry call.request).data.isSome = true)
    (hreads : Reads entry other history → (entry other.request).data.isSome = true) :
    (entry other.request).data.isSome = true := by
  rcases hr with hm | ⟨hm, hn⟩
  · rcases List.mem_cons.mp hm with heq | hm
    · obtain ⟨rfl, hevent⟩ := Prod.mk.inj heq
      exact hev (.inl hevent.symm)
    · exact hreads (.inl hm)
  · rcases List.mem_cons.mp hm with heq | hm
    · obtain ⟨rfl, hevent⟩ := Prod.mk.inj heq
      exact hev (.inr ⟨hevent.symm, hn⟩)
    · exact hreads (.inr ⟨hm, hn⟩)

theorem Clear.note {event : Event δ} (hc : Clear entry w) (hm : event ≠ .missed)
    (hs : event = .refused → ∃ row ∈ w.rows, row.key = call.key entry)
    (hr : event = .looked false ∨ event = .began ∧ orNull (entry call.request).nonce = none →
      (entry call.request).data.isSome = true) : Clear entry (w.note call event) where
  found other ho := by
    rcases List.mem_cons.mp ho with heq | ho
    · exact hm (Prod.mk.inj heq).2.symm
    · exact hc.found other ho
  stored other ho := by
    rcases List.mem_cons.mp ho with heq | ho
    · obtain ⟨rfl, hevent⟩ := Prod.mk.inj heq
      exact hs hevent.symm
    · exact hc.stored other ho
  reads other ho := reads_cons ho hr (hc.reads other)

theorem Clear.insert {row : Audit δ} (hc : Clear entry w) : Clear entry (w.insert row) where
  found := hc.found
  stored other ho := by
    obtain ⟨stored, hm, hkey⟩ := hc.stored other ho
    exact ⟨stored, List.mem_append_left _ hm, hkey⟩
  reads := hc.reads

theorem exists_of_taken {rows : List (Audit δ)} {nonce : Option String}
    (ht : taken rows nonce = true) : ∃ row ∈ rows, row.nonce = nonce := by
  obtain ⟨-, hany⟩ := Bool.and_eq_true_iff.mp ht
  obtain ⟨row, hm, hn⟩ := List.any_eq_true.mp hany
  exact ⟨row, hm, of_decide_eq_true hn⟩

theorem exec_clear {c : Command δ} {o : Outcome} (hc : Clear entry w) (hg : guard entry call c w)
    (ho : ∀ event, (exec call c o w).1.history = (call, event) :: w.history →
      Orderly entry w call event) : Clear entry (exec call c o w).1 := by
  cases c with
  | isDeviceCloneIsolationEnabled =>
    refine hc.note (by simp) (by simp) fun hr ↦ ?_
    rcases hr with hlooked | ⟨-, hn⟩
    · cases hlooked
    · exact ho .began rfl hn
  | findPeer uuid =>
    rw [exec]
    split
    · exact hc
    · exact hc
  | findOne deviceId nonce =>
    rw [exec] at ho ⊢
    split
    · exact hc
    · next hf =>
      rw [hf] at ho
      refine hc.note (by simp) (by simp) fun hr ↦ ?_
      rcases hr with hlooked | ⟨hbegan, -⟩
      · exact ho _ rfl (Event.looked.inj hlooked)
      · cases hbegan
  | save deviceId deviceUuid nonce data =>
    rw [exec] at ho ⊢
    split
    · exact hc
    · next hf =>
      rw [hf] at ho
      dsimp only at ho ⊢
      split
      · next ht =>
        rw [if_pos ht] at ho
        refine hc.note (by simp) (fun _ ↦ ?_) (by simp)
        obtain ⟨row, hm, hn⟩ := exists_of_taken ht
        obtain ⟨-, hnonce⟩ := Prod.mk.inj hg
        have hdevice := ho .refused rfl row hm (hn.trans hnonce)
        exact ⟨row, hm, Prod.ext hdevice (hn.trans hnonce)⟩
      · exact hc.insert
  | findAgain deviceId nonce =>
    rw [exec]
    split
    · exact hc
    · split
      · next hfind =>
        obtain ⟨row, hm, hkey⟩ := hc.stored call hg.2
        have hno := List.find?_eq_none.mp hfind row hm
        exact absurd (decide_eq_true (hkey.trans hg.1.symm)) hno
      · exact hc
  | answer result => exact hc.note (by simp) (by simp) (by simp)

theorem Clear.kept (hc : Clear entry w) (hs : Sound entry w) : Kept entry w := by
  intro call result hm
  have hj := hs.justified call result hm
  match result with
  | .ok row => exact .inr ⟨row, hj.1, rfl, hj.2, hs.indexed.filter_eq hj.1⟩
  | .error (.database message) => exact .inl ⟨message, rfl⟩
  | .error .uniqueConstraint => exact absurd hj (hc.found call)
  | .error .typeError =>
    have hd := hc.reads call hj.2
    rw [hj.1] at hd
    cases hd

end Steps

section Runs

/-- A table that its index has let be, and no call yet. -/
structure Starts (w : World ρ δ) : Prop where
  indexed : Indexed w.rows
  history : w.history = []

variable {entry} {isolatedDeviceUuid : String → String → String}
  {cfg cfg' : Config (Call ρ) (Command δ) Reply (World ρ δ)}

abbrev auditMachine (entry : ρ → Entry δ) (isolatedDeviceUuid : String → String → String) :=
  machine fun request ↦ audit isolatedDeviceUuid (entry request)

theorem sound_start (h₀ : Starts w₀) : Sound entry w₀ where
  indexed := h₀.indexed
  justified call result hm := by
    rw [h₀.history] at hm
    cases hm

theorem clear_start (h₀ : Starts w₀) : Clear entry w₀ where
  found call hm := by
    rw [h₀.history] at hm
    cases hm
  stored call hm := by
    rw [h₀.history] at hm
    cases hm
  reads call hr := by
    rw [h₀.history] at hr
    rcases hr with hm | ⟨hm, -⟩
    · cases hm
    · cases hm

variable [DecidableEq ρ]

theorem step_clear {serve : ρ → Handler δ (Audit δ)} (hv : (logic entry serve).Verified cfg)
    (hc : Clear entry cfg.world) (hs : (machine serve).Step cfg cfg')
    (ho : OrderlyStep entry cfg cfg') : Clear entry cfg'.world := by
  rcases Logic.Leaves.step_cases hv hs with hw | ⟨call, c, o, hg, hw⟩
  · rw [hw]
    exact hc
  · rw [hw]
    exact exec_clear hc hg fun event he ↦ ho call event (hw ▸ he)

theorem run_kept (h₀ : Starts w₀) (hr : (auditMachine entry isolatedDeviceUuid).RunWhere
    (OrderlyStep entry) (Machine.idle w₀) cfg) : Kept entry cfg.world := by
  have hv : ∀ {cfg}, (auditMachine entry isolatedDeviceUuid).Run (Machine.idle w₀) cfg →
      (logic entry _).Verified cfg :=
    fun hrun ↦ (Logic.verified_idle (sound_start h₀)).run admissible hrun
  have hclear : Clear entry cfg.world := by
    induction hr with
    | refl => exact clear_start h₀
    | tail hrun hs ih => exact step_clear (hv (Machine.RunWhere.run hrun)) ih hs.1 hs.2
  exact hclear.kept (hv hr.run).1

/-- File events and alarms alike: in an orderly run every call that ends returns
the one row of its device and its nonce. -/
theorem audits_kept :
    (∀ (w₀ : World FileAuditDto FileData) (cfg), Starts w₀ →
      (machine (auditFile isolatedDeviceUuid)).RunWhere (OrderlyStep fileEntry)
        (Machine.idle w₀) cfg → Kept fileEntry cfg.world) ∧
      ∀ (w₀ : World AlarmAuditDto AlarmData) (cfg), Starts w₀ →
        (machine (auditAlarm isolatedDeviceUuid)).RunWhere (OrderlyStep alarmEntry)
          (Machine.idle w₀) cfg → Kept alarmEntry cfg.world :=
  ⟨fun _ _ h₀ hr ↦ run_kept h₀ hr, fun _ _ h₀ hr ↦ run_kept h₀ hr⟩

end Runs

section Sample

instance (w : World ρ δ) (call : Call ρ) : (event : Event δ) → Decidable (Orderly entry w call event)
  | .began => inferInstanceAs (Decidable (orNull (entry call.request).nonce = none → _))
  | .looked _ => inferInstanceAs (Decidable (_ = false → _))
  | .refused => inferInstanceAs (Decidable (∀ row ∈ w.rows, _ → _))
  | .missed => inferInstanceAs (Decidable True)
  | .answered _ => inferInstanceAs (Decidable True)

def orderlyStep [DecidableEq ρ] [DecidableEq δ] (w w' : World ρ δ) : Bool :=
  w'.history = w.history || match w'.history with
    | [] => true
    | (call, event) :: _ => decide (Orderly entry w call event)

variable {entry}

theorem orderlyStep_iff [DecidableEq ρ] [DecidableEq δ]
    (cfg cfg' : Config (Call ρ) (Command δ) Reply (World ρ δ))
    (h : orderlyStep entry cfg.world cfg'.world = true) : OrderlyStep entry cfg cfg' := by
  intro call event hh
  rw [orderlyStep, hh, decide_eq_false (List.cons_ne_self _ _), Bool.false_or] at h
  exact of_decide_eq_true h

def sampleFresh [DecidableEq ρ] (call : Call ρ) (w : World ρ δ) : Bool :=
  w.history.all fun e ↦ decide (e.1 ≠ call)

theorem sampleFresh_admits [DecidableEq ρ] {serve : ρ → Handler δ (Audit δ)} (call : Call ρ)
    (w : World ρ δ) (h : sampleFresh call w = true) :
    (machine serve).admits call w (handler (serve call.request)) := by
  refine ⟨fun event hm ↦ ?_, rfl⟩
  have hne := List.all_eq_true.mp h _ hm
  simp at hne

def sampleRun [DecidableEq ρ] (serve : ρ → Handler δ (Audit δ)) (turns : List (Call ρ × ℕ)) :
    Config (Call ρ) (Command δ) Reply (World ρ δ) :=
  (machine serve).schedule (fun call ↦ handler (serve call.request)) sampleFresh
    (turns.map fun t ↦ (t.1, List.replicate t.2 ⟨none, false, none⟩)) (Machine.idle ⟨[], 1, []⟩)

def sampleFile (id : ℕ) (device : String) : Call FileAuditDto :=
  ⟨id, device, "uuid", "peer", none, some .send, none, true, .malformed, some "nonce"⟩

def sampleAlarm (id : ℕ) (device : String) : Call AlarmAuditDto :=
  ⟨id, device, "uuid", 1, .malformed, none, some "nonce", none⟩

/-- The second call looks before the first has saved. -/
def sampleTurns (first second : ρ) : List (ρ × ℕ) := [(first, 2), (second, 2), (first, 2), (second, 3)]

theorem starts_sample : Starts (⟨[], 1, []⟩ : World ρ δ) := ⟨.nil, rfl⟩

/-- A retry overlaps the call that it repeats. -/
theorem sample_audits_kept :
    Kept fileEntry (sampleRun (auditFile (· ++ ·))
      (sampleTurns (sampleFile 1 "a") (sampleFile 2 "a"))).world ∧
    Kept alarmEntry (sampleRun (auditAlarm (· ++ ·))
      (sampleTurns (sampleAlarm 1 "a") (sampleAlarm 2 "a"))).world := by
  obtain ⟨hfile, halarm⟩ := @audits_kept (· ++ ·)
  exact ⟨hfile _ _ starts_sample (Machine.schedule_runWhere orderlyStep_iff
      (fun _ ↦ by simp [orderlyStep]) sampleFresh_admits _ (by decide +kernel)),
    halarm _ _ starts_sample (Machine.schedule_runWhere orderlyStep_iff
      (fun _ ↦ by simp [orderlyStep]) sampleFresh_admits _ (by decide +kernel))⟩

/-- Two devices chance upon the same nonce, and the second loses its event. -/
theorem event_lost :
    (¬ ∀ (w₀ : World FileAuditDto FileData) (cfg), Starts w₀ →
      (machine (auditFile (· ++ ·))).Run (Machine.idle w₀) cfg → Kept fileEntry cfg.world) ∧
      ¬ ∀ (w₀ : World AlarmAuditDto AlarmData) (cfg), Starts w₀ →
        (machine (auditAlarm (· ++ ·))).Run (Machine.idle w₀) cfg →
          Kept alarmEntry cfg.world := by
  constructor
  · intro hall
    have hk := hall _ (sampleRun _ (sampleTurns (sampleFile 1 "a") (sampleFile 2 "b")))
      starts_sample (Machine.schedule_run sampleFresh_admits _)
    have hlost := hk (sampleFile 2 "b") (.error .uniqueConstraint) (by decide +kernel)
    rcases hlost with ⟨message, he⟩ | ⟨row, -, he, -⟩
    · cases he
    · cases he
  · intro hall
    have hk := hall _ (sampleRun _ (sampleTurns (sampleAlarm 1 "a") (sampleAlarm 2 "b")))
      starts_sample (Machine.schedule_run sampleFresh_admits _)
    have hlost := hk (sampleAlarm 2 "b") (.error .uniqueConstraint) (by decide +kernel)
    rcases hlost with ⟨message, he⟩ | ⟨row, -, he, -⟩
    · cases he
    · cases he

end Sample

end RustdeskConsole.Audits
