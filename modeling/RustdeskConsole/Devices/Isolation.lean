import RustdeskConsole.Devices.Reports
import RustdeskConsole.Devices.Tombstones

namespace RustdeskConsole.Devices

open Collections Effects Function Relation

/-- A report as it was filed: the pair it came with and the key it resolved to. -/
structure Report where
  uuid : String
  id : String
  raw : Bool
  key : String

/-- A history of reports, with those whose row has stood ever since. -/
structure Filing where
  world : World
  reports : List Report
  standing : List Report

section Filing

variable (isolatedDeviceUuid : String → String → String)

/-- The pair that a request resolves. -/
def filed (w : World) : Request → Option (String × String)
  | .heartbeat data => if dropped w data then none else some (data.uuid, data.id)
  | .sysinfo dto => (truthy dto.id).map (dto.uuid, ·)
  | _ => none

def Request.listed : Request → Bool
  | .restoreTombstone .. | .lateWrite _ => false
  | _ => true

def Resolves (w : World) (uuid id key : String) : Prop :=
  ∀ call, Evaluates (machine isolatedDeviceUuid true) call
    (resolveDeviceUuid isolatedDeviceUuid true uuid id) w (.ok key) w

def Serviced (request : Request) (w w' : World) : Prop :=
  ∃ call x, Completes (machine isolatedDeviceUuid true) call
    (serve isolatedDeviceUuid true request) w x w'

def standingIn (w : World) (reports : List Report) : List Report :=
  reports.filter fun report ↦ (w.peers report.key).isSome

structure Files (w : World) (request : Request) (report : Report) : Prop where
  filed : filed w request = some (report.uuid, report.id)
  raw : report.raw = keepsRaw isolatedDeviceUuid report.uuid report.id w
  resolves : Resolves isolatedDeviceUuid w report.uuid report.id report.key

inductive Filing.Step (request : Request) : Filing → Filing → Prop
  | report {w w' : World} {reports standing : List Report} {report : Report} :
      Files isolatedDeviceUuid w request report → Serviced isolatedDeviceUuid request w w' →
      Step request ⟨w, reports, standing⟩
        ⟨w', report :: reports, standingIn w' (report :: standing)⟩
  | other {w w' : World} {reports standing : List Report} :
      filed w request = none → Serviced isolatedDeviceUuid request w w' →
      Step request ⟨w, reports, standing⟩ ⟨w', reports, standingIn w' standing⟩

/-- Different pairs have different keys, and the key of a row that stands is
still the key of its pair. -/
structure Isolated (s : Filing) : Prop where
  distinct : ∀ r ∈ s.reports, ∀ r' ∈ s.reports, r.key = r'.key → r.uuid = r'.uuid ∧ r.id = r'.id
  fixed : ∀ r ∈ s.standing, Resolves isolatedDeviceUuid s.world r.uuid r.id r.key

/-- A raw uuid and an isolated key do not meet in a report, and a flush that goes
through leaves its id to the row of a report that kept its raw uuid. -/
structure Clear (request : Request) (s s' : Filing) : Prop where
  raw : ∀ uuid id, filed s.world request = some (uuid, id) →
    keepsRaw isolatedDeviceUuid uuid id s.world = true →
    ∀ r ∈ s.reports, r.raw = false → isolatedDeviceUuid r.uuid r.id ≠ uuid
  isolated : ∀ uuid id, filed s.world request = some (uuid, id) →
    keepsRaw isolatedDeviceUuid uuid id s.world = false →
    ∀ r ∈ s.reports, r.raw = true → r.uuid ≠ isolatedDeviceUuid uuid id
  flush : request = .flush → (∀ uuid, s'.world.peerBuffer.get? uuid = none) →
    ∀ r ∈ s.reports, r.raw = true → ∀ row, s.world.peers r.uuid = some row →
      ∀ change, s.world.peerBuffer.get? r.uuid = some change → change.id = row.id

end Filing

/-- Where a report that kept its raw uuid finds its row, if that is not deleted. -/
def Grounded (isolatedDeviceUuid : String → String → String) (w : World) (r : Report) : Prop :=
  (w.idOf r.uuid = some r.id ∧ w.idOf (isolatedDeviceUuid r.uuid r.id) = none) ∨
    (w.idOf r.uuid = none ∧ (w.tombstones r.uuid).isSome)

/-- What every clear run keeps. -/
structure Kept (isolatedDeviceUuid : String → String → String) (s : Filing) : Prop where
  key : ∀ r ∈ s.reports, r.key = if r.raw then r.uuid else isolatedDeviceUuid r.uuid r.id
  proper : ∀ r ∈ s.reports, r.raw = true → isolatedDeviceUuid r.uuid r.id ≠ r.uuid
  grounded : ∀ r ∈ s.reports, r.raw = true → Grounded isolatedDeviceUuid s.world r
  same : ∀ r ∈ s.reports, ∀ r' ∈ s.reports, r.raw = true → r'.raw = true → r.uuid = r'.uuid →
    r.id = r'.id
  apart : ∀ r ∈ s.reports, ∀ r' ∈ s.reports, r.raw = true → r'.raw = false →
    r.uuid ≠ isolatedDeviceUuid r'.uuid r'.id
  standing : ∀ r ∈ s.standing, r ∈ s.reports ∧ (s.world.idOf r.key).isSome
  stands : ∀ r ∈ s.reports, r.raw = true → (s.world.idOf r.uuid).isSome → r ∈ s.standing

variable {isolatedDeviceUuid : String → String → String} {s s' : Filing} {w w' : World}
  {request : Request}

theorem resolves_iff {uuid id key : String} : Resolves isolatedDeviceUuid w uuid id key ↔
    key = keyOf isolatedDeviceUuid uuid id w := by
  constructor
  · intro h
    have hx := resolveDeviceUuid_evaluates.yields _ _ (h ⟨0, .flush⟩).completes
    exact Except.ok.inj hx.1
  · rintro rfl call
    exact resolveDeviceUuid_evaluates

theorem idOf_isSome {uuid : String} : (w.idOf uuid).isSome = (w.peers uuid).isSome :=
  Option.isSome_map

theorem Kept.isolated (hinj : Injective2 isolatedDeviceUuid) (h : Kept isolatedDeviceUuid s) :
    Isolated isolatedDeviceUuid s where
  distinct r hr r' hr' hk := by
    rw [h.key r hr, h.key r' hr'] at hk
    cases hraw : r.raw with
    | true =>
      cases hraw' : r'.raw with
      | true =>
        rw [hraw, hraw', if_pos rfl, if_pos rfl] at hk
        exact ⟨hk, h.same r hr r' hr' hraw hraw' hk⟩
      | false =>
        rw [hraw, hraw', if_pos rfl, if_neg Bool.false_ne_true] at hk
        exact absurd hk (h.apart r hr r' hr' hraw hraw')
    | false =>
      cases hraw' : r'.raw with
      | true =>
        rw [hraw, hraw', if_pos rfl, if_neg Bool.false_ne_true] at hk
        exact absurd hk.symm (h.apart r' hr' r hr hraw' hraw)
      | false =>
        rw [hraw, hraw', if_neg Bool.false_ne_true, if_neg Bool.false_ne_true] at hk
        exact hinj hk
  fixed r hr := by
    obtain ⟨hm, hsome⟩ := h.standing r hr
    refine resolves_iff.mpr ?_
    rw [h.key r hm] at hsome ⊢
    cases hraw : r.raw with
    | true =>
      rw [hraw, if_pos rfl] at hsome
      rcases h.grounded r hm hraw with ⟨hid, hnone⟩ | ⟨hnone, -⟩
      · rw [if_pos rfl, keyOf_of_raw (keepsRaw_iff.mpr ⟨hnone, hid⟩)]
      · rw [hnone] at hsome
        cases hsome
    | false =>
      rw [hraw, if_neg Bool.false_ne_true] at hsome
      rw [if_neg Bool.false_ne_true, keyOf_of_isolated]
      intro hk
      rw [(keepsRaw_iff.mp hk).1] at hsome
      cases hsome

/-- What one request may do to the rows. -/
inductive Effect (isolatedDeviceUuid : String → String → String) (request : Request)
    (w w' : World) : Prop
  | calm : Calm w w' → Effect isolatedDeviceUuid request w w'
  | registers {uuid id : String} : filed w request = some (uuid, id) →
      Registers (keyOf isolatedDeviceUuid uuid id w) id w w' →
      Effect isolatedDeviceUuid request w w'
  | flushes : request = .flush → Flushes w w' → w'.tombstones = w.tombstones →
      Effect isolatedDeviceUuid request w w'
  | removes {guid : String} : Removes guid w w' → Effect isolatedDeviceUuid request w w'

theorem ignore_yields {α : Type} {p : Handler α} {call : Call} {P : World → Prop}
    (hp : Yields (machine isolatedDeviceUuid true) call p w fun _ w' ↦ P w') :
    Yields (machine isolatedDeviceUuid true) call (ignore p) w fun _ w' ↦ P w' :=
  hp.bind (fun _ _ h ↦ .pure h) fun _ _ h ↦ h

theorem serviced_effect (hl : request.listed = true)
    (hs : Serviced isolatedDeviceUuid request w w') : Effect isolatedDeviceUuid request w w' := by
  obtain ⟨call, x, hc⟩ := hs
  cases request with
  | heartbeat data =>
    rcases handleHeartbeat_yields x w' hc with h | ⟨hd, h⟩
    · exact .calm h
    · exact .registers (by rw [filed, hd]; rfl) h
  | sysinfo dto => exact .calm (ignore_yields createSysinfo_calm.yields x w' hc)
  | flush =>
    obtain ⟨hf, ht⟩ := flush_yields x w' hc
    exact .flushes rfl hf ht
  | deleteDevice guid actorGuid protocolBan releaseId =>
    rcases ignore_yields deleteDevice_yields x w' hc with h | h
    · exact .calm h
    · exact .removes h
  | restoreTombstone uuid actorGuid => cases hl
  | lateWrite index => cases hl

/-- A row kept raw is neither registered anew nor given another id. -/
theorem Grounded.step {r : Report} (hinj : Injective2 isolatedDeviceUuid)
    (hg : Grounded isolatedDeviceUuid w r) (he : Effect isolatedDeviceUuid request w w')
    (hf : request = .flush → (∀ uuid, w'.peerBuffer.get? uuid = none) →
      ∀ row, w.peers r.uuid = some row → ∀ change, w.peerBuffer.get? r.uuid = some change →
        change.id = row.id) :
    Grounded isolatedDeviceUuid w' r ∧ ((w'.idOf r.uuid).isSome → (w.idOf r.uuid).isSome) := by
  cases he with
  | calm h =>
    rw [Grounded, h.ids]
    exact ⟨hg.imp_right fun ⟨hn, ht⟩ ↦ ⟨hn, h.deleted _ ht⟩, fun hsome ↦ hsome⟩
  | @registers uuid id hfiled h =>
    have hisolated : keyOf isolatedDeviceUuid uuid id w = isolatedDeviceUuid uuid id := by
      refine keyOf_of_isolated fun hraw ↦ ?_
      have hfresh := h.fresh
      rw [keyOf_of_raw hraw, (keepsRaw_iff.mp hraw).2] at hfresh
      cases hfresh
    rw [hisolated] at h
    have huuid : r.uuid ≠ isolatedDeviceUuid uuid id := by
      rintro heq
      rcases hg with ⟨hid, -⟩ | ⟨-, ht⟩
      · rw [heq, h.fresh] at hid
        cases hid
      · rw [heq, h.admitted] at ht
        cases ht
    refine ⟨?_, fun hsome ↦ ?_⟩
    · rcases hg with ⟨hid, hnone⟩ | ⟨hnone, ht⟩
      · refine .inl ⟨?_, ?_⟩
        · rw [h.ids, update_of_ne huuid, hid]
        · rw [h.ids, update_of_ne, hnone]
          intro heq
          obtain ⟨hu, hi⟩ := hinj heq
          have hraw := keepsRaw_iff.mpr ⟨hnone, hid⟩
          rw [hu, hi] at hraw
          exact absurd (hisolated.symm.trans (keyOf_of_raw hraw)) (hu ▸ huuid.symm)
      · exact .inr ⟨by rw [h.ids, update_of_ne huuid, hnone], by rwa [h.tombstones]⟩
    · rwa [h.ids, update_of_ne huuid] at hsome
  | flushes hreq h ht =>
    cases h with
    | kept hids _ =>
      rw [Grounded, hids, ht]
      exact ⟨hg, fun hsome ↦ hsome⟩
    | written hids hempty =>
      rw [Grounded, hids, hids, ht]
      refine ⟨?_, fun hsome ↦ by simpa using hsome⟩
      rcases hg with ⟨hid, hnone⟩ | ⟨hnone, ht⟩
      · refine .inl ⟨?_, by rw [hnone, Option.map_none]⟩
        rw [hid, Option.map_some]
        cases hb : w.peerBuffer.get? r.uuid with
        | none => rfl
        | some change =>
          obtain ⟨row, hrow, hrid⟩ := Option.map_eq_some_iff.mp hid
          rw [Option.elim_some, hf hreq hempty row hrow change hb, hrid]
      · exact .inr ⟨by rw [hnone, Option.map_none], ht⟩
  | @removes guid h =>
    rw [Grounded, h.ids]
    by_cases hu : r.uuid = guid
    · subst hu
      rw [update_self]
      exact ⟨.inr ⟨rfl, h.deleted _ (.inl rfl)⟩, nofun⟩
    · rw [update_of_ne hu]
      refine ⟨?_, fun hsome ↦ hsome⟩
      rcases hg with ⟨hid, hnone⟩ | ⟨hnone, ht⟩
      · refine .inl ⟨hid, ?_⟩
        by_cases hi : isolatedDeviceUuid r.uuid r.id = guid
        · rw [hi, update_self]
        · rw [update_of_ne hi, hnone]
      · exact .inr ⟨hnone, h.deleted _ (.inr ht)⟩

section Step

variable {report : Report}

theorem Files.keyed (hf : Files isolatedDeviceUuid w request report) :
    report.key = if report.raw then report.uuid else isolatedDeviceUuid report.uuid report.id := by
  rw [resolves_iff.mp hf.resolves, keyOf, hf.raw]

theorem Files.ids (hf : Files isolatedDeviceUuid w request report) (hr : report.raw = true) :
    w.idOf (isolatedDeviceUuid report.uuid report.id) = none ∧
      w.idOf report.uuid = some report.id :=
  keepsRaw_iff.mp (hf.raw ▸ hr)

theorem Files.proper (hf : Files isolatedDeviceUuid w request report) (hr : report.raw = true) :
    isolatedDeviceUuid report.uuid report.id ≠ report.uuid := by
  intro heq
  obtain ⟨hnone, hid⟩ := hf.ids hr
  rw [heq, hid] at hnone
  cases hnone

theorem mem_standingIn {reports : List Report} :
    report ∈ standingIn w reports ↔ report ∈ reports ∧ (w.idOf report.key).isSome := by
  rw [standingIn, List.mem_filter, idOf_isSome]

/-- A filed report with the reports before it. -/
theorem Kept.file {reports standing : List Report}
    (h : Kept isolatedDeviceUuid ⟨w, reports, standing⟩)
    (hf : Files isolatedDeviceUuid w request report)
    (hc : Clear isolatedDeviceUuid request ⟨w, reports, standing⟩ s') :
    Kept isolatedDeviceUuid ⟨w, report :: reports, standingIn w (report :: standing)⟩ where
  key := List.forall_mem_cons.mpr ⟨hf.keyed, h.key⟩
  proper := List.forall_mem_cons.mpr ⟨hf.proper, h.proper⟩
  grounded := List.forall_mem_cons.mpr ⟨fun hr ↦ .inl (hf.ids hr).symm, h.grounded⟩
  same := by
    have hnew : report.raw = true → ∀ r ∈ reports, r.raw = true → r.uuid = report.uuid →
        r.id = report.id := by
      intro hraw r hr hraw' hu
      rcases h.grounded r hr hraw' with ⟨hid, -⟩ | ⟨hnone, -⟩
      · rw [hu, (hf.ids hraw).2] at hid
        exact (Option.some.inj hid).symm
      · rw [hu, (hf.ids hraw).2] at hnone
        cases hnone
    intro r hr r' hr' hraw hraw' hu
    rcases List.mem_cons.mp hr with rfl | hold
    · rcases List.mem_cons.mp hr' with rfl | hold'
      · rfl
      · exact (hnew hraw r' hold' hraw' hu.symm).symm
    · rcases List.mem_cons.mp hr' with rfl | hold'
      · exact hnew hraw' r hold hraw hu
      · exact h.same r hold r' hold' hraw hraw' hu
  apart := by
    intro r hr r' hr' hraw hraw'
    rcases List.mem_cons.mp hr with rfl | hold
    · rcases List.mem_cons.mp hr' with rfl | hold'
      · rw [hraw] at hraw'
        cases hraw'
      · exact (hc.raw _ _ hf.filed (hf.raw ▸ hraw) r' hold' hraw').symm
    · rcases List.mem_cons.mp hr' with rfl | hold'
      · exact hc.isolated _ _ hf.filed (hf.raw ▸ hraw') r hold hraw
      · exact h.apart r hold r' hold' hraw hraw'
  standing := by
    intro r hr
    obtain ⟨hm, hsome⟩ := mem_standingIn.mp hr
    refine ⟨?_, hsome⟩
    rcases List.mem_cons.mp hm with rfl | hm
    · exact .head _
    · exact .tail _ (h.standing r hm).1
  stands := by
    intro r hr hraw hsome
    refine mem_standingIn.mpr ?_
    rcases List.mem_cons.mp hr with rfl | hr
    · exact ⟨.head _, by rwa [hf.keyed, hraw, if_pos rfl]⟩
    · exact ⟨.tail _ (h.stands r hr hraw hsome), by rwa [h.key r hr, hraw, if_pos rfl]⟩

/-- The rows move under reports that were filed. -/
theorem Kept.move (hinj : Injective2 isolatedDeviceUuid) {reports standing : List Report}
    (h : Kept isolatedDeviceUuid ⟨w, reports, standing⟩)
    (he : Effect isolatedDeviceUuid request w w')
    (hf : ∀ r ∈ reports, r.raw = true → request = .flush →
      (∀ uuid, w'.peerBuffer.get? uuid = none) → ∀ row, w.peers r.uuid = some row →
        ∀ change, w.peerBuffer.get? r.uuid = some change → change.id = row.id) :
    Kept isolatedDeviceUuid ⟨w', reports, standingIn w' standing⟩ where
  key := h.key
  proper := h.proper
  grounded r hr hraw := ((h.grounded r hr hraw).step hinj he (hf r hr hraw)).1
  same := h.same
  apart := h.apart
  standing r hr := by
    obtain ⟨hm, hsome⟩ := mem_standingIn.mp hr
    exact ⟨(h.standing r hm).1, hsome⟩
  stands r hr hraw hsome := by
    have hbefore := ((h.grounded r hr hraw).step hinj he (hf r hr hraw)).2 hsome
    refine mem_standingIn.mpr ⟨h.stands r hr hraw hbefore, ?_⟩
    rwa [h.key r hr, hraw, if_pos rfl]

theorem Kept.restand {reports standing standing' : List Report}
    (h : Kept isolatedDeviceUuid ⟨w, reports, standing⟩)
    (hs : ∀ r ∈ standing', r ∈ reports ∧ (w.idOf r.key).isSome)
    (hsub : ∀ r ∈ standing, r ∈ standing') : Kept isolatedDeviceUuid ⟨w, reports, standing'⟩ where
  key := h.key
  proper := h.proper
  grounded := h.grounded
  same := h.same
  apart := h.apart
  standing := hs
  stands r hr hraw hsome := hsub r (h.stands r hr hraw hsome)

theorem Kept.step (hinj : Injective2 isolatedDeviceUuid) (hl : request.listed = true)
    (h : Kept isolatedDeviceUuid s) (hstep : Filing.Step isolatedDeviceUuid request s s')
    (hc : Clear isolatedDeviceUuid request s s') : Kept isolatedDeviceUuid s' := by
  cases hstep with
  | @report w w' reports standing report hf hs =>
    have hmoved := (h.file hf hc).move hinj (serviced_effect hl hs) fun r hr hraw hreq ↦ by
      have hnone := hf.filed
      rw [hreq] at hnone
      cases hnone
    refine hmoved.restand (fun r hr ↦ ?_) fun r hr ↦ ?_
    · obtain ⟨hm, hsome⟩ := mem_standingIn.mp hr
      refine ⟨?_, hsome⟩
      rcases List.mem_cons.mp hm with rfl | hm
      · exact .head _
      · exact .tail _ (h.standing r hm).1
    · obtain ⟨hm, hsome⟩ := mem_standingIn.mp hr
      exact mem_standingIn.mpr ⟨(mem_standingIn.mp hm).1, hsome⟩
  | other hn hs =>
    exact h.move hinj (serviced_effect hl hs) fun r hr hraw hreq hempty ↦
      hc.flush hreq hempty r hr hraw

/-- A step that is not clear breaks the isolation. -/
theorem Kept.clear (hl : request.listed = true)
    (h : Kept isolatedDeviceUuid s) (hstep : Filing.Step isolatedDeviceUuid request s s')
    (hi : Isolated isolatedDeviceUuid s') : Clear isolatedDeviceUuid request s s' := by
  cases hstep with
  | @report w w' reports standing report hf hs =>
    have hpair : ∀ {uuid id}, filed w request = some (uuid, id) →
        report.uuid = uuid ∧ report.id = id := by
      intro uuid id hfiled
      exact Prod.mk.inj (Option.some.inj (hf.filed.symm.trans hfiled))
    refine ⟨fun uuid id hfiled hk r hr hraw heq ↦ ?_, fun uuid id hfiled hk r hr hraw heq ↦ ?_,
      fun hreq ↦ ?_⟩
    · obtain ⟨rfl, rfl⟩ := hpair hfiled
      rw [← hf.raw] at hk
      have hkeys : r.key = report.key := by
        rw [h.key r hr, hf.keyed, hraw, hk, if_pos rfl, if_neg Bool.false_ne_true, heq]
      obtain ⟨hu, hi⟩ := hi.distinct r (.tail _ hr) report (.head _) hkeys
      rw [hu, hi] at heq
      exact hf.proper hk heq
    · obtain ⟨rfl, rfl⟩ := hpair hfiled
      rw [← hf.raw] at hk
      have hkeys : r.key = report.key := by
        rw [h.key r hr, hf.keyed, hraw, hk, if_pos rfl, if_neg Bool.false_ne_true, heq]
      obtain ⟨hu, hi⟩ := hi.distinct r (.tail _ hr) report (.head _) hkeys
      rw [← hu, ← hi] at heq
      exact h.proper r hr hraw heq.symm
    · have hnone := hf.filed
      rw [hreq] at hnone
      cases hnone
  | @other w w' reports standing hn hs =>
    refine ⟨fun uuid id hfiled ↦ ?_, fun uuid id hfiled ↦ ?_,
      fun hreq hempty r hr hraw row hrow change hchange ↦ ?_⟩
    · rw [show filed w request = some (uuid, id) from hfiled] at hn
      cases hn
    · rw [show filed w request = some (uuid, id) from hfiled] at hn
      cases hn
    · subst hreq
      obtain ⟨call, x, hc⟩ := hs
      have hid : w.idOf r.uuid = some row.id := by
        rw [World.idOf, show w.peers r.uuid = some row from hrow, Option.map_some]
      have hrid : row.id = r.id := by
        rcases h.grounded r hr hraw with ⟨hid', -⟩ | ⟨hnone, -⟩
        · exact Option.some.inj (hid.symm.trans hid')
        · exact absurd (hid.symm.trans hnone) (by simp)
      rcases (flush_yields x w' hc).1 with ⟨-, hkept⟩ | ⟨hids, -⟩
      · have hsome := hkept r.uuid
          (by rw [show w.peerBuffer.get? r.uuid = some change from hchange]; rfl)
        rw [show w'.peerBuffer.get? r.uuid = none from hempty r.uuid] at hsome
        cases hsome
      · have hid' : w'.idOf r.uuid = some change.id := by
          rw [hids, hid, Option.map_some, show w.peerBuffer.get? r.uuid = some change from hchange,
            Option.elim_some]
        have hkey := h.key r hr
        rw [hraw, if_pos rfl] at hkey
        have hin : r ∈ standingIn w' standing :=
          mem_standingIn.mpr ⟨h.stands r hr hraw (by rw [show w.idOf r.uuid = _ from hid]; rfl),
            by rw [hkey, hid']; rfl⟩
        have hresolves := resolves_iff.mp (hi.fixed r hin)
        rw [hkey] at hresolves
        by_cases hk : keepsRaw isolatedDeviceUuid r.uuid r.id w' = true
        · have hsame := (keepsRaw_iff.mp hk).2
          rw [hid'] at hsame
          rw [hrid]
          exact Option.some.inj hsame
        · exact absurd (hresolves.trans (keyOf_of_isolated hk)).symm (h.proper r hr hraw)

end Step

def startFiling (w : World) : Filing := ⟨w, [], []⟩

/-- Requests one after the other, each of them clear where it is served. -/
abbrev ClearRun (isolatedDeviceUuid : String → String → String) : Filing → Filing → Prop :=
  ReflTransGen fun s s' ↦ ∃ request : Request, request.listed = true ∧
    Filing.Step isolatedDeviceUuid request s s' ∧ Clear isolatedDeviceUuid request s s'

theorem kept_start : Kept isolatedDeviceUuid (startFiling w) where
  key := nofun
  proper := nofun
  grounded := nofun
  same := nofun
  apart := nofun
  standing := nofun
  stands := nofun

theorem run_kept (hinj : Injective2 isolatedDeviceUuid)
    (hr : ClearRun isolatedDeviceUuid (startFiling w) s) : Kept isolatedDeviceUuid s := by
  induction hr with
  | refl => exact kept_start
  | tail _ hstep ih =>
    obtain ⟨request, hl, hs, hc⟩ := hstep
    exact ih.step hinj hl hs hc

/-- Reports stay apart as long as no raw uuid is an isolated key, and no longer. -/
theorem keys_isolated (hinj : Injective2 isolatedDeviceUuid)
    (hr : ClearRun isolatedDeviceUuid (startFiling w) s) :
    Isolated isolatedDeviceUuid s ∧ ∀ request s', request.listed = true →
      Filing.Step isolatedDeviceUuid request s s' →
        (Isolated isolatedDeviceUuid s' ↔ Clear isolatedDeviceUuid request s s') := by
  have h := run_kept hinj hr
  exact ⟨h.isolated hinj, fun request s' hl hstep ↦
    ⟨h.clear hl hstep, fun hc ↦ (h.step hinj hl hstep hc).isolated hinj⟩⟩

section Sample

/-- A key that keeps its uuid and its id apart. -/
def encode : List Char → List Char → List Char
  | [], id => 'b' :: id
  | c :: uuid, id => 'a' :: c :: encode uuid id

theorem encode_injective : Injective2 encode := by
  intro uuid uuid' id id' h
  induction uuid generalizing uuid' with
  | nil =>
    cases uuid' with
    | nil => exact ⟨rfl, (List.cons.inj h).2⟩
    | cons c' uuid' => exact absurd (List.cons.inj h).1 (by decide)
  | cons c uuid ih =>
    cases uuid' with
    | nil => exact absurd (List.cons.inj h).1 (by decide)
    | cons c' uuid' =>
      obtain ⟨-, hpair⟩ := List.cons.inj h
      obtain ⟨rfl, htail⟩ := List.cons.inj hpair
      obtain ⟨rfl, rfl⟩ := ih htail
      exact ⟨rfl, rfl⟩

def sampleKey (uuid id : String) : String := String.ofList (encode uuid.toList id.toList)

theorem sampleKey_injective : Injective2 sampleKey := by
  intro uuid uuid' id id' h
  obtain ⟨hu, hi⟩ := encode_injective (String.ofList_injective h)
  exact ⟨String.toList_injective hu, String.toList_injective hi⟩

/-- The world after a heartbeat that met with no failure. -/
def afterHeartbeat (w : World) (data : HeartbeatDto) : World :=
  ((Machine.complete (machine sampleKey true) ⟨0, .heartbeat data⟩ (List.replicate 20 sampleChoice)
    ((serve sampleKey true (.heartbeat data)).start ()) w).map Prod.snd).getD w

def reportOf (w : World) (data : HeartbeatDto) : Report where
  uuid := data.uuid
  id := data.id
  raw := keepsRaw sampleKey data.uuid data.id w
  key := keyOf sampleKey data.uuid data.id w

theorem serviced_afterHeartbeat {data : HeartbeatDto}
    (h : (Machine.complete (machine sampleKey true) ⟨0, .heartbeat data⟩
      (List.replicate 20 sampleChoice) ((serve sampleKey true (.heartbeat data)).start ())
      w).isSome = true) : Serviced sampleKey (.heartbeat data) w (afterHeartbeat w data) := by
  obtain ⟨⟨⟨x, u⟩, w'⟩, hc⟩ := Option.isSome_iff_exists.mp h
  rw [afterHeartbeat, hc]
  exact ⟨_, x, Serves.of_complete hc⟩

theorem files_reportOf {data : HeartbeatDto} (h : dropped w data = false) :
    Files sampleKey w (.heartbeat data) (reportOf w data) where
  filed := by
    rw [filed, h]
    rfl
  raw := rfl
  resolves := resolves_iff.mpr rfl

def sampleData : HeartbeatDto := ⟨"1", "u", 0, 0⟩

/-- It comes under the isolated key of the first device, with the id of that device. -/
def sampleIntruder : HeartbeatDto := ⟨"1", "aub1", 0, 0⟩

def filedIn (s : Filing) (data : HeartbeatDto) : Filing where
  world := afterHeartbeat s.world data
  reports := reportOf s.world data :: s.reports
  standing := standingIn (afterHeartbeat s.world data) (reportOf s.world data :: s.standing)

theorem step_filedIn {s : Filing} {data : HeartbeatDto} (hd : dropped s.world data = false)
    (hc : (Machine.complete (machine sampleKey true) ⟨0, .heartbeat data⟩
      (List.replicate 20 sampleChoice) ((serve sampleKey true (.heartbeat data)).start ())
      s.world).isSome = true) : Filing.Step sampleKey (.heartbeat data) s (filedIn s data) :=
  .report (files_reportOf hd) (serviced_afterHeartbeat hc)

theorem clear_heartbeat {s s' : Filing} {data : HeartbeatDto}
    (hraw : keepsRaw sampleKey data.uuid data.id s.world = true → ∀ r ∈ s.reports, r.raw = false →
      sampleKey r.uuid r.id ≠ data.uuid)
    (hisolated : keepsRaw sampleKey data.uuid data.id s.world = false → ∀ r ∈ s.reports,
      r.raw = true → r.uuid ≠ sampleKey data.uuid data.id) :
    Clear sampleKey (.heartbeat data) s s' where
  raw uuid id hf hk := by
    rw [filed] at hf
    split at hf
    · cases hf
    · cases hf
      exact hraw hk
  isolated uuid id hf hk := by
    rw [filed] at hf
    split at hf
    · cases hf
    · cases hf
      exact hisolated hk
  flush hf := by cases hf

/-- A device of the time before the isolation has kept its row. -/
def legacyWorld : World :=
  { emptyWorld with peers := update emptyWorld.peers "v" (some ⟨"v", "2", 0, 0, 0, none, none⟩) }

def sampleLegacy : HeartbeatDto := ⟨"2", "v", 0, 0⟩

def sampleFirst (w : World) : Filing := filedIn (startFiling w) sampleData

def sampleSecond : Filing := filedIn (sampleFirst legacyWorld) sampleLegacy

/-- A new device is filed under an isolated key, and then one of old under its raw uuid. -/
theorem sample_isolated : Isolated sampleKey sampleSecond ∧
    (∀ request s', request.listed = true → Filing.Step sampleKey request sampleSecond s' →
      (Isolated sampleKey s' ↔ Clear sampleKey request sampleSecond s')) ∧
    sampleSecond.reports.map (·.raw) = [true, false] := by
  have hfirst : Filing.Step sampleKey (.heartbeat sampleData) (startFiling legacyWorld)
      (sampleFirst legacyWorld) := step_filedIn (by decide +kernel) (by decide +kernel)
  have hsecond : Filing.Step sampleKey (.heartbeat sampleLegacy) (sampleFirst legacyWorld)
      sampleSecond := step_filedIn (by decide +kernel) (by decide +kernel)
  have hrun : ClearRun sampleKey (startFiling legacyWorld) sampleSecond := by
    refine .tail (.single ⟨_, rfl, hfirst, clear_heartbeat (fun _ ↦ nofun) fun _ ↦ nofun⟩)
      ⟨_, rfl, hsecond, clear_heartbeat (fun _ ↦ ?_) fun hk ↦ absurd hk (by decide +kernel)⟩
    decide +kernel
  have hkept := keys_isolated sampleKey_injective hrun
  exact ⟨hkept.1, hkept.2, by decide +kernel⟩

/-- A second device is filed under the row of the first one. -/
theorem isolation_broken : ¬ ∀ isolatedDeviceUuid : String → String → String,
    Injective2 isolatedDeviceUuid → ∀ w s, ReflTransGen (fun s s' ↦ ∃ request : Request,
      request.listed = true ∧ Filing.Step isolatedDeviceUuid request s s') (startFiling w) s →
        Isolated isolatedDeviceUuid s := by
  intro hall
  have hfirst : Filing.Step sampleKey (.heartbeat sampleData) (startFiling emptyWorld)
      (sampleFirst emptyWorld) := step_filedIn (by decide +kernel) (by decide +kernel)
  have hsecond : Filing.Step sampleKey (.heartbeat sampleIntruder) (sampleFirst emptyWorld)
      ⟨_, reportOf (sampleFirst emptyWorld).world sampleIntruder ::
        (sampleFirst emptyWorld).reports, _⟩ :=
    .report (files_reportOf (by decide +kernel)) (serviced_afterHeartbeat (by decide +kernel))
  have h := hall sampleKey sampleKey_injective emptyWorld _
    (.tail (.single ⟨_, rfl, hfirst⟩) ⟨_, rfl, hsecond⟩)
  have hkeys : (reportOf (sampleFirst emptyWorld).world sampleIntruder).key =
      (reportOf emptyWorld sampleData).key := by decide +kernel
  obtain ⟨huuid, -⟩ := h.distinct _ (.head _) _ (.tail _ (.head _)) hkeys
  exact absurd huuid (by decide)

end Sample

end RustdeskConsole.Devices
