import RustdeskConsole.Devices.Tombstones

namespace RustdeskConsole.Devices

open Effects Effects.History Function

/-- The servers ban exactly the device ids that a tombstone is marked for. -/
def World.InStep (w : World) : Prop := ∀ deviceId, deviceId ∈ w.bans ↔
  ∃ uuid tombstone, w.tombstones uuid = some tombstone ∧ tombstone.deviceId = deviceId ∧
    tombstone.banned = true

/-- Whatever has left an event has ended. -/
def Quiescent (cfg : Config Call Command Reply World) : Prop :=
  ∀ e ∈ cfg.world.history, cfg.threads e.1 = some (.done ())

/-- A marked tombstone records the ban of the device id. -/
def Recorded (l : Ledger) (deviceId uuid : String) : Prop :=
  l.deleted uuid = some deviceId ∧ uuid ∈ l.marked

/-- A deletion has applied a ban and has not recorded it yet. -/
def Applying (h : History) (call : Call) (uuid deviceId : String) : Prop :=
  Awaiting call (.banned uuid deviceId) (fun e ↦ ∃ u saved, e = .patched u saved) h

/-- A restoration has lifted a ban and has not removed the tombstone yet. -/
def Lifting (h : History) (call : Call) (uuid deviceId : String) : Prop :=
  Awaiting call (.lifted uuid deviceId) (fun e ↦ ∃ u saved, e = .removed u saved) h

/-- A ban that the call accounts for no longer, or never did, is accounted for. -/
def Backed (l : Ledger) (h : History) (call : Call) (deviceId : String) : Prop :=
  (∃ uuid, Recorded l deviceId uuid) ∨ ∃ c ≠ call, ∃ uuid, Applying h c uuid deviceId

/-- Since the call read the tombstone, a deletion has saved its record on it. -/
def Remarked (h : History) (call : Call) (uuid : String) : Prop :=
  ¬Unfollowed (fun e ↦ ∃ deviceId banned, e = (call, .found uuid deviceId banned))
    (fun e ↦ e.2 = .patched uuid true) h

/-- Since the call lifted the ban, a deletion has applied it again. -/
def Rebanned (h : History) (call : Call) (deviceId : String) : Prop :=
  ¬Unfollowed (fun e ↦ ∃ uuid, e = (call, .lifted uuid deviceId))
    (fun e ↦ ∃ uuid, e.2 = .banned uuid deviceId) h

/-- The events that do not set the tombstones and the ban list apart. -/
def Matches (l : Ledger) (h : History) (call : Call) : Event → Prop
  | .cleared _ | .found .. | .registered _ | .banned .. => True
  | .deleted uuid deviceId => uuid ∈ l.marked → l.deleted uuid = some deviceId
  | .patched uuid saved => ∀ deviceId, (call, .banned uuid deviceId) ∈ h →
      (saved = true ∧ l.deleted uuid = some deviceId) ∨
        ((saved = false ∨ l.deleted uuid = none) ∧ Backed l h call deviceId)
  | .lifted uuid deviceId =>
      (∀ u ≠ uuid, Recorded l deviceId u → ∃ c, Lifting h c u deviceId) ∧
        ∀ c u, ¬Applying h c u deviceId
  | .removed uuid true => ∀ deviceId, Recorded l deviceId uuid → deviceId ∈ l.bans →
      Remarked h call uuid ∨ Rebanned h call deviceId ∨ deviceId = "" →
      (∃ u ≠ uuid, Recorded l deviceId u) ∨ ∃ c u, Applying h c u deviceId
  | .removed uuid false => ∀ deviceId, (call, .lifted uuid deviceId) ∈ h →
      Recorded l deviceId uuid → deviceId ∈ l.bans ∨ ∃ c ≠ call, Lifting h c uuid deviceId
  | .overwritten deviceIds => ∀ deviceId, deviceId ∈ deviceIds ↔ deviceId ∈ l.bans

/-- A step that does not set the tombstones and the ban list apart. -/
def Careful (cfg cfg' : Config Call Command Reply World) : Prop :=
  ∀ call event, cfg'.world.history = (call, event) :: cfg.world.history →
    Matches cfg.world.ledger cfg.world.history call event

/-- What bans, marked tombstones and running follow-ups say of each other. -/
structure Accounted (l : Ledger) (h : History) : Prop where
  backed : ∀ deviceId ∈ l.bans, (∃ uuid, Recorded l deviceId uuid) ∨
    ∃ call uuid, Applying h call uuid deviceId
  effective : ∀ uuid deviceId, Recorded l deviceId uuid →
    deviceId ∈ l.bans ∨ ∃ call, Lifting h call uuid deviceId
  applied : ∀ call uuid deviceId, Applying h call uuid deviceId → deviceId ∈ l.bans
  marked : ∀ uuid ∈ l.marked, l.deleted uuid ≠ none

/-- What restorations have read and lifted, as far as no deletion came in between. -/
structure Upheld (l : Ledger) (h : History) : Prop where
  found : ∀ call uuid deviceId banned x, (call, .found uuid deviceId banned) ∈ h →
    Recorded l x uuid → ¬Remarked h call uuid → banned = true ∧ deviceId = x
  lifted : ∀ call uuid deviceId, (call, .lifted uuid deviceId) ∈ h → deviceId ∈ l.bans →
    Rebanned h call deviceId

/-- The steps of a deletion's ban. -/
def Event.ofBan : Event → Bool
  | .banned .. | .patched .. => true
  | _ => false

/-- The steps of a restoration. -/
def Event.ofLift : Event → Bool
  | .lifted .. | .removed .. => true
  | _ => false

section Accounted

variable {l : Ledger} {h : History} {call c : Call} {event : Event} {uuid deviceId u d : String}

theorem applying_iff (he : event.ofBan = false) :
    Applying ((call, event) :: h) c u d ↔ Applying h c u d := by
  refine awaiting_of_ne (fun hb ↦ ?_) fun ⟨v, saved, hp⟩ ↦ ?_
  · rw [← hb] at he
    cases he
  · rw [hp] at he
    cases he

theorem lifting_iff (he : event.ofLift = false) :
    Lifting ((call, event) :: h) c u d ↔ Lifting h c u d := by
  refine awaiting_of_ne (fun hl ↦ ?_) fun ⟨v, saved, hr⟩ ↦ ?_
  · rw [← hl] at he
    cases he
  · rw [hr] at he
    cases he

theorem applying_patched {v : String} {saved : Bool} :
    Applying ((call, .patched v saved) :: h) c u d ↔ c ≠ call ∧ Applying h c u d :=
  awaiting_settled (fun he ↦ by cases he) ⟨v, saved, rfl⟩

theorem lifting_removed {v : String} {saved : Bool} :
    Lifting ((call, .removed v saved) :: h) c u d ↔ c ≠ call ∧ Lifting h c u d :=
  awaiting_settled (fun he ↦ by cases he) ⟨v, saved, rfl⟩

theorem Accounted.banned (ha : Accounted l h)
    (hn : ∀ v saved, (call, .patched v saved) ∉ h) :
    Accounted (l.after h call (.banned uuid deviceId)) ((call, .banned uuid deviceId) :: h) where
  backed x hx := by
    rcases hx with rfl | hx
    · refine .inr ⟨call, uuid, awaiting_cons.mpr ⟨.inr ⟨rfl, rfl, ?_⟩, ?_⟩⟩
      · rintro _ ⟨v, saved, rfl⟩
        exact hn v saved
      · rintro ⟨-, v, saved, he⟩
        cases he
    · refine (ha.backed x hx).imp id fun ⟨c, v, hc⟩ ↦ ⟨c, v, awaiting_cons.mpr ⟨.inl hc, ?_⟩⟩
      rintro ⟨-, v, saved, he⟩
      cases he
  effective v x hr := by
    refine (ha.effective v x hr).imp (Set.mem_insert_of_mem _) fun ⟨c, hc⟩ ↦ ⟨c, ?_⟩
    exact (lifting_iff rfl).mpr hc
  applied c v x hc := by
    rcases (awaiting_cons.mp hc).1 with hc | ⟨-, he, -⟩
    · exact Set.mem_insert_of_mem _ (ha.applied c v x hc)
    · cases he
      exact Set.mem_insert ..
  marked := ha.marked

theorem Accounted.lifted (ha : Accounted l h) (hn : ∀ v saved, (call, .removed v saved) ∉ h)
    (hm : Matches l h call (.lifted uuid deviceId)) :
    Accounted (l.after h call (.lifted uuid deviceId)) ((call, .lifted uuid deviceId) :: h) where
  backed x hx := by
    refine (ha.backed x hx.1).imp id fun ⟨c, v, hc⟩ ↦ ⟨c, v, ?_⟩
    exact (applying_iff rfl).mpr hc
  effective v x hr := by
    have hold : ∀ c, Lifting h c v x → Lifting ((call, .lifted uuid deviceId) :: h) c v x := by
      intro c hc
      refine awaiting_cons.mpr ⟨.inl hc, ?_⟩
      rintro ⟨-, v, saved, he⟩
      cases he
    by_cases hx : x = deviceId
    · subst hx
      by_cases hv : v = uuid
      · subst hv
        refine .inr ⟨call, awaiting_cons.mpr ⟨.inr ⟨rfl, rfl, ?_⟩, ?_⟩⟩
        · rintro _ ⟨v, saved, rfl⟩
          exact hn v saved
        · rintro ⟨-, v, saved, he⟩
          cases he
      · obtain ⟨c, hc⟩ := hm.1 v hv hr
        exact .inr ⟨c, hold c hc⟩
    · exact (ha.effective v x hr).imp (fun hb ↦ ⟨hb, hx⟩) fun ⟨c, hc⟩ ↦ ⟨c, hold c hc⟩
  applied c v x hc := by
    have hc := (applying_iff rfl).mp hc
    refine ⟨ha.applied c v x hc, fun hx ↦ ?_⟩
    rw [Set.mem_singleton_iff.mp hx] at hc
    exact hm.2 c v hc
  marked := ha.marked

theorem recorded_patched {saved : Bool} {x v : String} :
    Recorded (l.after h call (.patched uuid saved)) x v ↔ Recorded l x v ∨
      (saved = true ∧ v = uuid ∧ l.deleted uuid = some x ∧ ∃ y, (call, .banned uuid y) ∈ h) := by
  cases saved with
  | false => simp [Recorded, Ledger.after]
  | true =>
    constructor
    · rintro ⟨hd, hm | ⟨rfl, -, hb⟩⟩
      · exact .inl ⟨hd, hm⟩
      · exact .inr ⟨rfl, rfl, hd, hb⟩
    · rintro (⟨hd, hm⟩ | ⟨-, rfl, hd, hb⟩)
      · exact ⟨hd, .inl hm⟩
      · exact ⟨hd, .inr ⟨rfl, hd ▸ rfl, hb⟩⟩

theorem Accounted.patched {saved : Bool} (ha : Accounted l h)
    (hal : l.Allows h call (.patched uuid saved)) (hm : Matches l h call (.patched uuid saved)) :
    Accounted (l.after h call (.patched uuid saved)) ((call, .patched uuid saved) :: h) := by
  have hbans : (l.after h call (.patched uuid saved)).bans = l.bans := by
    cases saved <;> rfl
  refine ⟨fun x hx ↦ ?_, fun v x hr ↦ ?_, fun c v x hc ↦ ?_, fun v hv ↦ ?_⟩
  · rw [hbans] at hx
    rcases ha.backed x hx with ⟨v, hr⟩ | ⟨c, v, hc⟩
    · exact .inl ⟨v, recorded_patched.mpr (.inl hr)⟩
    · by_cases hcc : c = call
      · subst hcc
        obtain rfl := hal.2 v x hc.1
        rcases hm x hc.1 with ⟨hs, hd⟩ | ⟨-, ⟨u, hr⟩ | ⟨c', hne, u, hc'⟩⟩
        · exact .inl ⟨v, recorded_patched.mpr (.inr ⟨hs, rfl, hd, x, hc.1⟩)⟩
        · exact .inl ⟨u, recorded_patched.mpr (.inl hr)⟩
        · exact .inr ⟨c', u, applying_patched.mpr ⟨hne, hc'⟩⟩
      · exact .inr ⟨c, v, applying_patched.mpr ⟨hcc, hc⟩⟩
  · rw [hbans]
    rcases recorded_patched.mp hr with hr | ⟨hs, rfl, hd, y, hy⟩
    · exact (ha.effective v x hr).imp id fun ⟨c, hc⟩ ↦ ⟨c, (lifting_iff rfl).mpr hc⟩
    · rcases hm y hy with ⟨-, hd'⟩ | ⟨hs' | hd', -⟩
      · rw [Option.some.inj (hd.symm.trans hd')]
        refine .inl (ha.applied call v y ⟨hy, ?_⟩)
        rintro _ ⟨u, saved', rfl⟩
        exact hal.1 u saved'
      · rw [hs] at hs'
        cases hs'
      · rw [hd] at hd'
        cases hd'
  · rw [hbans]
    exact ha.applied c v x (applying_patched.mp hc).2
  · cases saved with
    | false => exact ha.marked v hv
    | true =>
      rcases hv with hv | ⟨rfl, hs, -⟩
      · exact ha.marked v hv
      · exact Option.isSome_iff_ne_none.mp hs

theorem recorded_removed {x v : String} :
    Recorded (l.after h call (.removed uuid true)) x v ↔ v ≠ uuid ∧ Recorded l x v := by
  constructor
  · rintro ⟨hd, hm, hne⟩
    have hne : v ≠ uuid := hne
    exact ⟨hne, by simpa only [Ledger.after, update_of_ne hne] using hd, hm⟩
  · rintro ⟨hne, hd, hm⟩
    exact ⟨by simpa only [Ledger.after, update_of_ne hne] using hd, hm, hne⟩

/-- A ban still in force when its tombstone goes was applied after the restoration looked. -/
theorem Upheld.removed {x : String} (hu : Upheld l h)
    (hal : l.Allows h call (.removed uuid true)) (hr : Recorded l x uuid) (hx : x ∈ l.bans) :
    Remarked h call uuid ∨ Rebanned h call x ∨ x = "" := by
  obtain ⟨-, deviceId, banned, hf, hl⟩ := hal
  by_cases hm : Remarked h call uuid
  · exact .inl hm
  · obtain ⟨rfl, rfl⟩ := hu.found call uuid deviceId banned x hf hr hm
    by_cases he : deviceId = ""
    · exact .inr (.inr he)
    · exact .inr (.inl (hu.lifted call uuid deviceId (hl rfl he) hx))

theorem Accounted.removed {saved : Bool} (ha : Accounted l h) (hu : Upheld l h)
    (hal : l.Allows h call (.removed uuid saved)) (hm : Matches l h call (.removed uuid saved)) :
    Accounted (l.after h call (.removed uuid saved)) ((call, .removed uuid saved) :: h) := by
  cases saved with
  | false =>
    refine ⟨fun x hx ↦ ?_, fun v x hr ↦ ?_, fun c v x hc ↦ ?_, ha.marked⟩
    · exact (ha.backed x hx).imp id fun ⟨c, v, hc⟩ ↦ ⟨c, v, (applying_iff rfl).mpr hc⟩
    · rcases ha.effective v x hr with hb | ⟨c, hc⟩
      · exact .inl hb
      · by_cases hcc : c = call
        · subst hcc
          obtain rfl := hal.1 v x hc.1
          exact (hm x hc.1 hr).imp id fun ⟨c', hne, hc'⟩ ↦ ⟨c', lifting_removed.mpr ⟨hne, hc'⟩⟩
        · exact .inr ⟨c, lifting_removed.mpr ⟨hcc, hc⟩⟩
    · exact ha.applied c v x ((applying_iff rfl).mp hc)
  | true =>
    refine ⟨fun x hx ↦ ?_, fun v x hr ↦ ?_, fun c v x hc ↦ ?_, fun v hv ↦ ?_⟩
    · have hmatch := fun hr ↦ hm x hr hx (hu.removed hal hr hx)
      rcases ha.backed x hx with ⟨v, hr⟩ | ⟨c, v, hc⟩
      · by_cases hv : v = uuid
        · subst hv
          rcases hmatch hr with ⟨u, hne, hr'⟩ | ⟨c, u, hc⟩
          · exact .inl ⟨u, recorded_removed.mpr ⟨hne, hr'⟩⟩
          · exact .inr ⟨c, u, (applying_iff rfl).mpr hc⟩
        · exact .inl ⟨v, recorded_removed.mpr ⟨hv, hr⟩⟩
      · exact .inr ⟨c, v, (applying_iff rfl).mpr hc⟩
    · obtain ⟨hne, hr⟩ := recorded_removed.mp hr
      refine (ha.effective v x hr).imp id fun ⟨c, hc⟩ ↦ ⟨c, lifting_removed.mpr ⟨?_, hc⟩⟩
      rintro rfl
      exact hne (hal.1 v x hc.1)
    · exact ha.applied c v x ((applying_iff rfl).mp hc)
    · have hne : v ≠ uuid := hv.2
      simpa only [Ledger.after, update_of_ne hne] using ha.marked v hv.1

theorem recorded_deleted (hm : Matches l h call (.deleted uuid deviceId)) {x v : String} :
    Recorded (l.after h call (.deleted uuid deviceId)) x v ↔ Recorded l x v := by
  refine and_congr_left fun hv ↦ ?_
  by_cases hne : v = uuid
  · subst hne
    simp only [Ledger.after, update_self, hm hv]
  · simp only [Ledger.after, update_of_ne hne]

theorem Accounted.deleted (ha : Accounted l h) (hm : Matches l h call (.deleted uuid deviceId)) :
    Accounted (l.after h call (.deleted uuid deviceId)) ((call, .deleted uuid deviceId) :: h) := by
  refine ⟨fun x hx ↦ ?_, fun v x hr ↦ ?_, fun c v x hc ↦ ?_, fun v hv ↦ ?_⟩
  · rcases ha.backed x hx with ⟨v, hr⟩ | ⟨c, v, hc⟩
    · exact .inl ⟨v, (recorded_deleted hm).mpr hr⟩
    · exact .inr ⟨c, v, (applying_iff rfl).mpr hc⟩
  · exact (ha.effective v x ((recorded_deleted hm).mp hr)).imp id
      fun ⟨c, hc⟩ ↦ ⟨c, (lifting_iff rfl).mpr hc⟩
  · exact ha.applied c v x ((applying_iff rfl).mp hc)
  · by_cases hne : v = uuid
    · subst hne
      simp [Ledger.after]
    · simpa only [Ledger.after, update_of_ne hne] using ha.marked v hv

/-- The events that touch neither tombstones nor bans, or keep the ban list. -/
theorem Accounted.mono {l' : Ledger} (ha : Accounted l h) (hd : l'.deleted = l.deleted)
    (hm : l'.marked = l.marked) (hb : ∀ x, x ∈ l'.bans ↔ x ∈ l.bans) (he : event.ofBan = false)
    (he' : event.ofLift = false) : Accounted l' ((call, event) :: h) := by
  have hrec : ∀ x v, Recorded l' x v ↔ Recorded l x v := by
    intro x v
    rw [Recorded, Recorded, hd, hm]
  refine ⟨fun x hx ↦ ?_, fun v x hr ↦ ?_, fun c v x hc ↦ ?_, fun v hv ↦ ?_⟩
  · rcases ha.backed x ((hb x).mp hx) with ⟨v, hr⟩ | ⟨c, v, hc⟩
    · exact .inl ⟨v, (hrec x v).mpr hr⟩
    · exact .inr ⟨c, v, (applying_iff he).mpr hc⟩
  · exact (ha.effective v x ((hrec x v).mp hr)).imp (hb x).mpr
      fun ⟨c, hc⟩ ↦ ⟨c, (lifting_iff he').mpr hc⟩
  · exact (hb x).mpr (ha.applied c v x ((applying_iff he).mp hc))
  · rw [hd]
    exact ha.marked v (hm ▸ hv)

theorem Upheld.log (hu : Upheld l h) (hal : l.Allows h call event)
    (hm : Matches l h call event) : Upheld (l.after h call event) ((call, event) :: h) where
  found c v d b x hf hr hn := by
    rw [Remarked, not_not, unfollowed_cons] at hn
    have hrec : Recorded l x v := by
      cases event with
      | patched uuid saved =>
        rcases recorded_patched.mp hr with hr | ⟨rfl, rfl, -⟩
        · exact hr
        · rcases List.mem_cons.mp hf with he | hf
          · cases he
          · exact absurd ⟨d, b, rfl⟩ (hn.1 rfl _ hf)
      | removed uuid saved =>
        cases saved with
        | false => exact hr
        | true => exact (recorded_removed.mp hr).2
      | deleted uuid deviceId => exact (recorded_deleted hm).mp hr
      | _ => exact hr
    rcases List.mem_cons.mp hf with he | hf
    · cases he
      exact ⟨hal.2.mpr hrec.2, Option.some.inj (hal.1.symm.trans hrec.1)⟩
    · exact hu.found c v d b x hf hrec (not_not.mpr hn.2)
  lifted c v d hl hd := by
    rw [Rebanned, unfollowed_cons]
    intro ⟨hn, hun⟩
    rcases List.mem_cons.mp hl with he | hold
    · cases he
      exact hd.2 rfl
    · refine hu.lifted c v d hold ?_ hun
      cases event with
      | banned uuid deviceId =>
        rcases hd with rfl | hd
        · exact absurd ⟨v, rfl⟩ (hn ⟨uuid, rfl⟩ _ hold)
        · exact hd
      | lifted uuid deviceId => exact hd.1
      | overwritten deviceIds => exact (hm d).mp hd
      | patched uuid saved =>
        cases saved with
        | false => exact hd
        | true => exact hd
      | removed uuid saved =>
        cases saved with
        | false => exact hd
        | true => exact hd
      | _ => exact hd

theorem Accounted.log (ha : Accounted l h) (hu : Upheld l h) (hal : l.Allows h call event)
    (hm : Matches l h call event) : Accounted (l.after h call event) ((call, event) :: h) := by
  cases event with
  | cleared uuid => exact ha.mono rfl rfl (fun _ ↦ .rfl) rfl rfl
  | found uuid deviceId banned => exact ha.mono rfl rfl (fun _ ↦ .rfl) rfl rfl
  | registered uuid => exact ha.mono rfl rfl (fun _ ↦ .rfl) rfl rfl
  | deleted uuid deviceId => exact ha.deleted hm
  | banned uuid deviceId => exact ha.banned hal
  | patched uuid saved => exact ha.patched hal hm
  | lifted uuid deviceId => exact ha.lifted hal hm
  | removed uuid saved => exact ha.removed hu hal hm
  | overwritten deviceIds => exact ha.mono rfl rfl hm rfl rfl

end Accounted

section Runs

variable {isolatedDeviceUuid : String → String → String} {cloneIsolation : Bool} {w₀ w : World}
  {cfg cfg' : Config Call Command Reply World}

theorem inStep_iff :
    w.InStep ↔ ∀ deviceId, deviceId ∈ w.ledger.bans ↔ ∃ uuid, Recorded w.ledger deviceId uuid := by
  refine forall_congr' fun deviceId ↦ iff_congr .rfl (exists_congr fun uuid ↦ ?_)
  constructor
  · rintro ⟨tombstone, ht, hd, hb⟩
    exact ⟨by simp [World.ledger, ht, hd], tombstone, ht, hb⟩
  · rintro ⟨hd, tombstone, ht, hb⟩
    refine ⟨tombstone, ht, ?_, hb⟩
    simpa [World.ledger, ht] using hd

theorem accounted_initial (h₀ : w₀.history = []) (hw : w₀.InStep) :
    Accounted w₀.ledger w₀.history := by
  rw [h₀]
  refine ⟨fun x hx ↦ .inl ((inStep_iff.mp hw x).mp hx), fun v x hr ↦
    .inl ((inStep_iff.mp hw x).mpr ⟨v, hr⟩), fun c v x hc ↦ ?_, fun v ⟨tombstone, ht, _⟩ ↦ ?_⟩
  · cases hc.1
  · simp [World.ledger, ht]

theorem upheld_initial (h₀ : w₀.history = []) : Upheld w₀.ledger w₀.history := by
  rw [h₀]
  exact ⟨fun _ _ _ _ _ hm ↦ (by cases hm), fun _ _ _ hm ↦ (by cases hm)⟩

theorem accounted_reachable (h₀ : w₀.history = []) (hw : w₀.InStep)
    (hr : (machine isolatedDeviceUuid cloneIsolation).RunWhere Careful (Machine.idle w₀) cfg) :
    Accounted cfg.world.ledger cfg.world.history ∧ Upheld cfg.world.ledger cfg.world.history := by
  induction hr with
  | refl => exact ⟨accounted_initial h₀ hw, upheld_initial h₀⟩
  | tail hrun hs ih =>
    rcases moves_of_step (reached h₀ (Machine.RunWhere.run hrun)) hs.1 with
      ⟨hh, hl⟩ | ⟨call, event, ha, hh, hl⟩
    · rwa [hh, hl]
    · have hm := hs.2 call event hh
      rw [hh, hl]
      exact ⟨ih.1.log ih.2 ha hm, ih.2.log ha hm⟩

/-- As long as no step sets the tombstones and the ban list apart, they are in
step whenever nothing is running. -/
theorem bans_in_step (h₀ : w₀.history = []) (hw : w₀.InStep)
    (hr : (machine isolatedDeviceUuid cloneIsolation).RunWhere Careful (Machine.idle w₀) cfg)
    (hq : Quiescent cfg) : cfg.world.InStep := by
  have ha := (accounted_reachable h₀ hw hr).1
  have hL := reached h₀ hr.run
  refine inStep_iff.mpr fun deviceId ↦ ⟨fun hb ↦ ?_, fun ⟨uuid, hrec⟩ ↦ ?_⟩
  · rcases ha.backed deviceId hb with hrec | ⟨call, uuid, hm, hn⟩
    · exact hrec
    · obtain ⟨u, saved, hp⟩ := (hL.ended (hq _ hm)).banned uuid deviceId hm
      exact absurd hp (hn _ ⟨u, saved, rfl⟩)
  · rcases ha.effective uuid deviceId hrec with hb | ⟨call, hm, hn⟩
    · exact hb
    · obtain ⟨u, saved, hp⟩ := (hL.ended (hq _ hm)).lifted uuid deviceId hm
      exact absurd hp (hn _ ⟨u, saved, rfl⟩)

end Runs

section Sample

def sampleReport (index : ℕ) (uuid id : String) : Call := ⟨index, .heartbeat ⟨id, uuid, 0, 0⟩⟩

def sampleBan (index : ℕ) (uuid : String) : Call := ⟨index, .deleteDevice uuid "admin" true false⟩

def sampleRestore : Call := ⟨4, .restoreTombstone "u1" "admin"⟩

/-- Two machines are deleted one after the other, and the first one is restored. -/
def sampleTurns (id₁ id₂ : String) : List (Call × ℕ) :=
  [(sampleReport 0 "u1" id₁, 3), (sampleBan 1 "u1", 5), (sampleReport 2 "u2" id₂, 3),
    (sampleBan 3 "u2", 5), (sampleRestore, 5)]

def sampleRestored (id₁ id₂ : String) : Config Call Command Reply World :=
  sampleSchedule (sampleTurns id₁ id₂) emptyWorld

theorem emptyWorld_inStep : emptyWorld.InStep := by
  intro deviceId
  constructor
  · intro hm
    cases hm
  · rintro ⟨uuid, tombstone, ht, -⟩
    cases ht

theorem quiescent_of_all {cfg : Config Call Command Reply World}
    (h : (cfg.world.history.all fun e ↦ isDone (cfg.threads e.1)) = true) : Quiescent cfg :=
  fun e he ↦ eq_done (List.all_eq_true.mp h e he)

/-- Restoring one of two tombstones of one device id lifts the ban that the other
one records. -/
theorem tombstone_unbanned : ∃ w₀ cfg, w₀.history = [] ∧ w₀.InStep ∧
    sampleMachine.Run (Machine.idle w₀) cfg ∧ Quiescent cfg ∧ ¬cfg.world.InStep := by
  refine ⟨emptyWorld, sampleRestored "7" "7", rfl, emptyWorld_inStep,
    Machine.schedule_run sampleFresh_admits _, quiescent_of_all (by decide +kernel), fun hs ↦ ?_⟩
  have hbans : (sampleRestored "7" "7").world.bans = [] := by decide +kernel
  have htomb : (sampleRestored "7" "7").world.tombstones "u2" =
      some ⟨"u2", "7", true, false, false, "admin"⟩ := by decide +kernel
  have hmem := (hs "7").mpr ⟨"u2", _, htomb, rfl, rfl⟩
  rw [hbans] at hmem
  cases hmem

/-- No other tombstone has the device id. -/
def sole (w : World) (uuid deviceId : String) : Bool := w.history.all fun e ↦
  match e.2 with
  | .deleted u _ => u = uuid || (w.tombstones u).all (·.deviceId ≠ deviceId)
  | _ => true

/-- Every deletion that has banned the device id has recorded it. -/
def settled (w : World) (deviceId : String) : Bool := w.history.all fun e ↦
  match e.2 with
  | .banned _ d => d ≠ deviceId || w.history.any fun e' ↦
      e'.1 = e.1 && match e'.2 with
        | .patched .. => true
        | _ => false
  | _ => true

/-- New deletions, whose bans and records all succeed, and restorations of device
ids that no other tombstone has. -/
def plainly (w w' : World) : Bool :=
  w'.history = w.history || match w'.history with
    | (_, .cleared _) :: _ | (_, .found ..) :: _ | (_, .registered _) :: _
    | (_, .banned ..) :: _ => true
    | (_, .deleted uuid _) :: _ => (w.tombstones uuid).isNone
    | (_, .patched _ true) :: _ => w.history.all fun e ↦
        match e.2 with
        | .banned uuid deviceId => (w.tombstones uuid).any (·.deviceId = deviceId)
        | _ => true
    | (_, .lifted uuid deviceId) :: _ => sole w uuid deviceId && settled w deviceId
    | (_, .removed uuid true) :: _ => (w.tombstones uuid).all (·.deviceId ∉ w.bans)
    | _ => false

theorem not_recorded_of_sole {w : World} {uuid deviceId u : String}
    (hd : ∀ u, (w.ledger.deleted u).isSome → ∃ c d, (c, .deleted u d) ∈ w.history)
    (hs : sole w uuid deviceId = true) (hu : u ≠ uuid) : ¬Recorded w.ledger deviceId u := by
  rintro ⟨hid, -⟩
  obtain ⟨c, d, hm⟩ := hd u (by rw [hid]; rfl)
  obtain ⟨tombstone, ht, hid⟩ := Option.map_eq_some_iff.mp hid
  have hall := List.all_eq_true.mp hs _ hm
  simp [hu, ht, hid] at hall

theorem not_applying_of_settled {w : World} {deviceId u : String} {c : Call}
    (hs : settled w deviceId = true) : ¬Applying w.history c u deviceId := by
  intro ⟨hb, hn⟩
  have hall := List.all_eq_true.mp hs _ hb
  simp only [ne_eq, not_true_eq_false, decide_false, Bool.false_or] at hall
  obtain ⟨⟨c', event⟩, hm, he⟩ := List.any_eq_true.mp hall
  cases event with
  | patched v saved =>
    obtain rfl : c' = c := by simpa using he
    exact hn _ ⟨v, saved, rfl⟩ hm
  | _ => simp at he

theorem careful_of_plainly {cfg cfg' : Config Call Command Reply World}
    (hd : ∀ u, (cfg.world.ledger.deleted u).isSome → ∃ c d, (c, .deleted u d) ∈ cfg.world.history)
    (h : plainly cfg.world cfg'.world = true) : Careful cfg cfg' := by
  intro call event hh
  rw [plainly, hh, decide_eq_false (List.cons_ne_self _ _), Bool.false_or] at h
  cases event with
  | cleared uuid => trivial
  | found uuid deviceId banned => trivial
  | registered uuid => trivial
  | banned uuid deviceId => trivial
  | deleted uuid deviceId =>
    rintro ⟨tombstone, ht, -⟩
    simp [ht] at h
  | patched uuid saved =>
    cases saved with
    | false => cases h
    | true =>
      intro deviceId hm
      have hd := List.all_eq_true.mp h _ hm
      obtain ⟨tombstone, ht, hid⟩ := Option.any_eq_true _ _ |>.mp hd
      exact .inl ⟨rfl, by simpa [World.ledger, ht] using hid⟩
  | lifted uuid deviceId =>
    obtain ⟨hsole, hsettled⟩ := Bool.and_eq_true_iff.mp h
    exact ⟨fun u hu hr ↦ absurd hr (not_recorded_of_sole hd hsole hu),
      fun c u ↦ not_applying_of_settled hsettled⟩
  | removed uuid saved =>
    cases saved with
    | false => cases h
    | true =>
      intro deviceId hr hb
      obtain ⟨tombstone, ht, hid⟩ := Option.map_eq_some_iff.mp hr.1
      have hb : deviceId ∈ cfg.world.bans := hb
      simp [ht, hid, hb] at h
  | overwritten deviceIds => cases h

/-- From an empty world, the run says of every tombstone whose deletion it is. -/
theorem deleted_of_tombstone {cfg : Config Call Command Reply World}
    (hr : sampleMachine.Run (Machine.idle emptyWorld) cfg) (u : String)
    (hu : (cfg.world.ledger.deleted u).isSome) :
    ∃ c deviceId, (c, .deleted u deviceId) ∈ cfg.world.history := by
  induction hr with
  | refl => cases hu
  | tail hrun hs ih =>
    rcases moves_of_step (reached rfl hrun) hs with ⟨hh, hl⟩ | ⟨call, event, -, hh, hl⟩
    · rw [hl] at hu
      rw [hh]
      exact ih hu
    · rw [hl, after_deleted_isSome] at hu
      rw [hh]
      rcases hu with ⟨deviceId, rfl⟩ | ⟨-, hu⟩
      · exact ⟨call, deviceId, .head _⟩
      · obtain ⟨c, deviceId, hm⟩ := ih hu
        exact ⟨c, deviceId, .tail _ hm⟩

theorem careful_run {cfg : Config Call Command Reply World}
    (hr : sampleMachine.RunWhere (fun a b ↦ plainly a.world b.world = true)
      (Machine.idle emptyWorld) cfg) :
    sampleMachine.RunWhere Careful (Machine.idle emptyWorld) cfg := by
  induction hr with
  | refl => exact .refl
  | tail hrun hs ih =>
    have hd := deleted_of_tombstone (Machine.RunWhere.run hrun)
    exact ih.tail ⟨hs.1, careful_of_plainly hd hs.2⟩

/-- Two devices are deleted, and the first one is restored; the second one stays banned. -/
theorem sample_bans_in_step : (sampleRestored "7" "8").world.InStep ∧
    (sampleRestored "7" "8").world.tombstones "u1" = none ∧
    (sampleRestored "7" "8").world.bans = ["8"] :=
  ⟨bans_in_step rfl emptyWorld_inStep
    (careful_run (Machine.schedule_runWhere (fun _ _ ↦ id) (fun _ ↦ by simp [plainly])
      sampleFresh_admits _ (by decide +kernel)))
    (quiescent_of_all (by decide +kernel)), by decide +kernel, by decide +kernel⟩

end Sample

end RustdeskConsole.Devices
