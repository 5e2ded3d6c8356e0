import RustdeskConsole.Gateway.Closing

namespace RustdeskConsole.Gateway

open Effects Effects.History Effects.Guard Function Collections WebClient

section Current

variable {w : World} {now : ℕ} {guid : String} {session : Session}

theorem find_eq_some : w.find guid = some session ↔
    guid ∈ w.sessions ∧ w.objects guid = some session := by
  unfold World.find
  split
  · rename_i hg
    exact ⟨fun ho ↦ ⟨hg, ho⟩, And.right⟩
  · rename_i hg
    exact ⟨nofun, fun ho ↦ absurd ho.1 hg⟩

theorem current_eq_ok (hc : w.current now guid = .ok session) :
    guid ∈ w.sessions ∧ w.objects guid = some session ∧ w.stopped = false ∧ now < session.expiresAt := by
  unfold World.current at hc
  split at hc
  · cases hc
  · rename_i found hf
    split at hc
    · cases hc
    · rename_i hcond
      cases hc
      simp only [Bool.or_eq_true, decide_eq_true_eq, not_or, Bool.not_eq_true, Nat.not_le] at hcond
      obtain ⟨hg, ho⟩ := find_eq_some.mp hf
      exact ⟨hg, ho, hcond.1.1, hcond.1.2⟩

theorem World.bindRelay_cases (w : World) (call : Call) (now : ℕ) (guid uuid : String) :
    (∃ failure, w.bindRelay call now guid uuid = (w, .error failure)) ∨
      w.bindRelay call now guid uuid = ((w.modify guid fun session ↦
        { session with relayUuid := some uuid }).note call (.bound guid uuid), .ok ()) := by
  unfold World.bindRelay
  split
  · exact .inl ⟨_, rfl⟩
  · dsimp only
    split
    · exact .inl ⟨_, rfl⟩
    · exact .inr rfl

theorem World.attach_cases (w : World) (now : ℕ) (guid : String) (channel : ℕ) :
    (∃ failure, w.attach now guid channel = (w, .error failure)) ∨
      w.attach now guid channel = (w.modify guid fun session ↦
        { session with sockets := session.sockets ++ [channel] }, .ok ()) := by
  unfold World.attach
  split
  · exact .inl ⟨_, rfl⟩
  · split
    · exact .inl ⟨_, rfl⟩
    · exact .inr rfl

variable {runtime : Runtime} {unsettled : Option ℕ} (hs : Sound runtime unsettled w)

include hs

theorem Sound.object_guid (ho : w.objects guid = some session) : session.guid = guid := by
  obtain ⟨c, s, a, b, -, hg, hsame⟩ := (hs.registry.object guid session ho).started
  exact hsame.guid.trans hg

theorem Sound.live_of_current (hc : w.current now guid = .ok session) : Live w.history guid :=
  (hs.registry.live guid).mp (current_eq_ok hc).1

end Current

namespace Sound

variable {runtime : Runtime} {unsettled : Option ℕ} {w w' : World} {call : Call}

section Create

theorem begin (hs : Sound runtime unsettled w) {o : Choice}
    (hg : ∀ guid epoch, (call, .begun guid epoch) ∉ w.history) :
    Sound runtime unsettled (w.begin call o).1 := by
  unfold World.begin
  split
  · rename_i hc
    obtain ⟨hu, hf⟩ := (Bool.and_eq_true _ _).mp hc
    refine hs.note ⟨fun c' e hm ↦ ?_, hg, hs.epoch, hu⟩ rfl
    exact of_decide_eq_true (List.all_eq_true.mp hf _ hm) rfl
  · exact hs

theorem not_released (hs : Sound runtime unsettled w) {user : String}
    (hn : (call, .reserved user) ∉ w.history) : (call, .released user) ∉ w.history := by
  intro hm
  obtain ⟨earlier, hsuf, hlaw⟩ := hs.lawful.of_mem hm
  exact hn (((List.suffix_cons ..).trans hsuf).subset hlaw.1)

theorem reserve (hs : Sound runtime unsettled w) {user : String}
    (hg : ∀ u, (call, .reserved u) ∉ w.history) :
    Sound runtime unsettled (w.reserve call user).1 := by
  have hcap := hs.capacity.reserve (hs.not_released (hg user))
  unfold World.reserve at hcap ⊢
  split at hcap
  · rename_i hfull
    rw [if_pos hfull]
    exact hs
  · rename_i hroom
    rw [if_neg hroom]
    exact ⟨lawful_cons.mpr ⟨hg, hs.lawful⟩, hs.registry.note rfl,
      hs.ticketing.note (by simp) (by simp), hs.epoch.trans (timeouts_note (by simp)).symm, hcap,
      hs.backlog.note (by simp), hs.switchboard.note rfl⟩

theorem releaseReservation (hs : Sound runtime unsettled w) {user : String}
    (hr : (call, .reserved user) ∈ w.history) (hn : (call, .released user) ∉ w.history) :
    Sound runtime unsettled (w.releaseReservation call user) :=
  ⟨lawful_cons.mpr ⟨⟨hr, hn⟩, hs.lawful⟩, hs.registry.note rfl, hs.ticketing.note (by simp) (by simp),
    hs.epoch.trans (timeouts_note (by simp)).symm, hs.capacity.release hs.lawful hr hn,
    hs.backlog.note (by simp), hs.switchboard.note rfl⟩

theorem unissued_iff {hash : String} : w.unissued hash = true ↔
    ∀ guid phase, ¬Issued w.history hash guid phase := by
  simp only [World.unissued, List.all_eq_true]
  constructor
  · intro hall guid phase hi
    cases hi with
    | rendezvous hm hg => exact (of_decide_eq_true (hall _ hm)).1 rfl
    | relay hm hg => exact (of_decide_eq_true (hall _ hm)).2 rfl
  · intro hn x hx
    obtain ⟨c, e⟩ := x
    cases e with
    | started session rendezvous relay =>
      refine decide_eq_true ⟨?_, ?_⟩
      · rintro rfl
        exact hn _ _ (.rendezvous hx rfl)
      · rintro rfl
        exact hn _ _ (.relay hx rfl)
    | _ => rfl

theorem admissible_eq_ok {now : ℕ} {session : Session} {parent : Option String} {epoch : ℕ}
    (ha : w.admissible now session parent epoch = .ok ()) : w.pendingTimeouts = [] ∧
      epoch = w.verificationEpoch ∧ ∀ guid, parent = some guid → guid ∈ w.sessions := by
  simp only [World.admissible, bind_eq_ok, refuseIf_eq_ok, exists_unit] at ha
  obtain ⟨hrun, profile, -, hrest⟩ := ha
  simp only [Bool.or_eq_false_iff, Bool.not_eq_false', List.isEmpty_iff, decide_eq_false_iff_not,
    Decidable.not_not] at hrun hrest
  refine ⟨hrun.1.2, hrun.2, fun guid hp ↦ ?_⟩
  have hin := hrest.2
  rw [hp, Option.any_some, decide_eq_false_iff_not, Decidable.not_not] at hin
  exact hin

/-- The parent of a session that is started is still as its call found it. -/
theorem child_of_started (hs : Sound runtime unsettled w) {session s : Session} {guid a b : String}
    {c : Call} (hg : session.parentGuid = some guid) (hm : guid ∈ w.sessions)
    (hst : (c, .started s a b) ∈ w.history) (hsg : s.guid = guid) (hk : s.kind = .desktop)
    (hactor : s.actor = session.actor) (htarget : s.targetId = session.targetId)
    (hact : Activated w.history guid) : Child w.sessions w.objects session := by
  obtain ⟨parent, hobj⟩ := hs.registry.started guid ⟨c, s, a, b, hst, hsg⟩
  obtain ⟨⟨c', s', a', b', hm', hg', hsame⟩, hactive, -⟩ := hs.registry.object guid parent hobj
  obtain ⟨-, rfl, -, -⟩ := started_unique hs.lawful hm' hst (hg'.trans hsg.symm)
  exact .intro hg hm hobj (hsame.kind.trans hk) (hactive.mpr hact) (hsame.actor.trans hactor)
    (hsame.targetId.trans htarget)

/-- The reservation of a call becomes a session with two tickets. -/
theorem insert (hs : Sound runtime unsettled w) {session : Session} {rendezvous relay : String}
    {expiresAt : ℕ} (hlaw : law runtime w.history (call, .started session rendezvous relay))
    (hres : (call, .reserved session.actor.id) ∈ w.history)
    (hrel : (call, .released session.actor.id) ∉ w.history) (hactive : session.active = false)
    (hrelay : session.relayUuid = none) (hsock : session.sockets = [])
    (hchild : session.kind = .file → Child w.sessions w.objects session)
    (hdesktop : session.kind = .desktop → truthy session.parentGuid = none) :
    Sound runtime unsettled (({ w with
      sessions := w.sessions ++ [session.guid]
      objects := update w.objects session.guid (some session)
      tickets := update (update w.tickets rendezvous (some ⟨session.guid, .rendezvous, expiresAt⟩))
        relay (some ⟨session.guid, .relay, expiresAt⟩) }.note call
          (.started session rendezvous relay)).releaseReservation call session.actor.id) := by
  have hl : Lawful (law runtime) ((call, .started session rendezvous relay) :: w.history) :=
    lawful_cons.mpr ⟨hlaw, hs.lawful⟩
  obtain ⟨-, hfresh, hne, -, hissued⟩ := hlaw
  have hnotin : session.guid ∉ w.sessions := fun hm ↦ hfresh ((hs.registry.live _).mp hm).1
  refine ⟨lawful_cons.mpr ⟨⟨.tail _ hres, fun hm ↦ ?_⟩, hl⟩, ?_, ?_, ?_, ?_, ?_, ?_⟩
  · exact hrel ((mem_note (by simp)).mp hm)
  · exact (hs.registry.start hs.lawful hfresh hactive hrelay hchild hdesktop).note rfl
  · exact (hs.ticketing.start hs.lawful hne hissued).note (by simp) (by simp)
  · exact hs.epoch.trans ((timeouts_note (by simp)).trans (timeouts_note (by simp))).symm
  · exact hs.capacity.start hs.lawful hnotin hres hrel rfl rfl rfl rfl
  · exact (hs.backlog.note (by simp)).note (by simp)
  · exact ((hs.switchboard.start hs.lawful hfresh hsock).note rfl).note rfl

theorem startSession (hs : Sound runtime unsettled w) {o : Choice} {session : Session}
    {parent : Option String} {epoch : ℕ}
    (hg : guard runtime call (.startSession session parent epoch) w) :
    Sound runtime unsettled (w.startSession call runtime o session parent epoch).1 := by
  unfold World.startSession
  split
  · exact hs
  · rename_i hok
    obtain ⟨-, hepoch, hparent⟩ := admissible_eq_ok hok
    obtain ⟨hbegun, hnone, hres, hrel, hactive, hrelay, hsock, hkind⟩ := hg
    dsimp only
    split
    · rename_i hnew
      simp only [Bool.and_eq_true, decide_eq_true_eq] at hnew
      obtain ⟨⟨hne, hnew₁⟩, hnew₂⟩ := hnew
      have hfresh : ¬Started w.history session.guid := by
        rintro ⟨c, s, a, b, hm, hsg⟩
        obtain ⟨e, hb⟩ := started_begun hs.lawful hm
        obtain ⟨rfl, -⟩ := begun_unique hs.lawful hbegun (hsg ▸ hb)
        exact hnone s a b hm
      have hlaw : law runtime w.history (call, .started
          { session with ticketHashes := [runtime.sha256 o.rendezvous, runtime.sha256 o.relay] }
          (runtime.sha256 o.rendezvous) (runtime.sha256 o.relay)) := by
        refine ⟨?_, hfresh, hne, rfl, fun guid phase ↦ ?_⟩
        · rw [← hs.epoch, ← hepoch]
          exact hbegun
        · exact ⟨unissued_iff.mp hnew₁ guid phase, unissued_iff.mp hnew₂ guid phase⟩
      refine hs.insert hlaw hres hrel hactive hrelay hsock (fun hk ↦ ?_) fun hk ↦ ?_
      · rw [show session.kind = .file from hk] at hkind
        obtain ⟨guid, c, s, a, b, hp, hpg, hst, hsg, hsk, hactor, htarget, hact⟩ := hkind
        exact hs.child_of_started hpg (hparent guid hp) hst hsg hsk hactor htarget hact
      · rw [show session.kind = .desktop from hk] at hkind
        exact hkind
    · exact hs

end Create

section Tickets

variable {now : ℕ}

theorem takeTicket (hs : Sound runtime unsettled w) {hash : String} :
    Sound runtime unsettled (w.takeTicket call now hash).1 := by
  unfold World.takeTicket
  split
  · exact hs
  · rename_i ticket ht
    obtain ⟨-, hi, hn⟩ := hs.ticketing hash ticket ht
    exact ⟨lawful_cons.mpr ⟨⟨hi, hn⟩, hs.lawful⟩, hs.registry.note rfl, hs.ticketing.take,
      hs.epoch.trans (timeouts_note (by simp)).symm,
      hs.capacity.shrink (List.Sublist.refl _) (fun _ ↦ rfl) rfl fun _ ↦
        outstanding_note (by simp) (by simp),
      hs.backlog.note (by simp), hs.switchboard.note rfl⟩

theorem claimTicket (hs : Sound runtime unsettled w) {value : String} {ticket : Ticket}
    (hg : guard runtime call (.claimTicket value ticket) w) :
    Sound runtime unsettled (w.claimTicket call now value ticket).1 := by
  unfold World.claimTicket
  split
  · exact hs
  · rename_i session hc
    have hguid := hs.object_guid (current_eq_ok hc).2.1
    refine hs.note ⟨?_, hg.2, ticket, hg.1, hguid.symm, rfl⟩ rfl
    rw [hguid]
    exact hs.live_of_current hc

theorem purgeTickets (hs : Sound runtime unsettled w) :
    Sound runtime unsettled (w.purgeTickets now).1 :=
  { hs with
    ticketing := hs.ticketing.narrow fun _ _ hm ↦ (Option.filter_eq_some_iff.mp hm).1
    capacity := hs.capacity.shrink (List.Sublist.refl _) (fun _ ↦ rfl) rfl fun _ ↦ rfl }

end Tickets

section Validity

variable {now : ℕ} {guid : String}

theorem confirm (hs : Sound runtime unsettled w) {expiresAt : ℕ} :
    Sound runtime unsettled (w.confirm call now guid expiresAt).1 := by
  unfold World.confirm
  split
  · exact hs
  · rename_i session hc
    have hs' : Sound runtime unsettled (w.modify guid fun session ↦
        { session with expiresAt := min session.expiresAt expiresAt }) :=
      hs.modify (fun _ ↦ ⟨rfl, rfl, rfl, rfl, rfl, rfl⟩) (fun _ ↦ rfl) (fun _ ↦ rfl) fun _ ↦
        List.Subset.refl _
    dsimp only
    split
    · exact hs'
    · exact hs'.note (hs.live_of_current hc) rfl

theorem activate (hs : Sound runtime unsettled w)
    (hg : (call, .recorded guid .gatewayOpen) ∈ w.history) :
    Sound runtime unsettled (w.activate call now guid).1 := by
  unfold World.activate
  split
  · exact hs
  · rename_i session hc
    exact ⟨lawful_cons.mpr ⟨⟨hs.live_of_current hc, hg⟩, hs.lawful⟩, hs.registry.activate,
      hs.ticketing.note (by simp) (by simp), hs.epoch.trans (timeouts_note (by simp)).symm,
      hs.capacity.shrink (List.Sublist.refl _) (fun _ ↦ owns_change fun _ ↦ rfl) rfl fun _ ↦
        outstanding_note (by simp) (by simp),
      hs.backlog.note (by simp), Switchboard.note (hs.switchboard.modify fun _ _ hm ↦ hm) rfl⟩

theorem bindRelay (hs : Sound runtime unsettled w) {uuid : String} :
    Sound runtime unsettled (w.bindRelay call now guid uuid).1 := by
  unfold World.bindRelay
  split
  · exact hs
  · rename_i session hc
    dsimp only
    split
    · exact hs
    · rename_i hcond
      simp only [Bool.or_eq_true, not_or, Bool.not_eq_true, Bool.not_eq_false', Option.isSome_eq_false_iff,
        Option.isNone_iff_eq_none, List.any_eq_false, Bool.and_eq_true, decide_eq_true_eq,
        not_and] at hcond
      obtain ⟨⟨hu, hunbound⟩, hother⟩ := hcond
      have hshows := hs.registry.object guid session (current_eq_ok hc).2.1
      have hnone : ∀ u, ¬Bound w.history guid u := by
        intro u hb
        have hrelay := (hshows.relayUuid u).mpr hb
        rw [truthy, hrelay, Option.filter_some] at hunbound
        split at hunbound
        · cases hunbound
        · rename_i hempty
          obtain ⟨huu, -⟩ := bound_started hs.lawful hb
          obtain rfl : u = "" := by simpa using hempty
          exact absurd huu (by decide)
      have hfree : ∀ g ∈ w.sessions, g ≠ guid → ¬Bound w.history g uuid := by
        intro g hg hne hb
        obtain ⟨object, ho⟩ := hs.registry.started g ((hs.registry.live g).mp hg).1
        have hrelay := ((hs.registry.object g object ho).relayUuid uuid).mpr hb
        have hno := hother g hg hne
        rw [ho, Option.any_some, hrelay, decide_eq_true rfl] at hno
        cases hno
      exact ⟨lawful_cons.mpr ⟨⟨hu, hs.live_of_current hc, hnone⟩, hs.lawful⟩,
        hs.registry.bind hnone hfree, hs.ticketing.note (by simp) (by simp),
        hs.epoch.trans (timeouts_note (by simp)).symm,
        hs.capacity.shrink (List.Sublist.refl _) (fun _ ↦ owns_change fun _ ↦ rfl) rfl fun _ ↦
          outstanding_note (by simp) (by simp),
        hs.backlog.note (by simp), Switchboard.note (hs.switchboard.modify fun _ _ hm ↦ hm) rfl⟩

theorem attach (hs : Sound runtime unsettled w) {channel : ℕ} {claim : GatewayClaim}
    (hc : Claimed w.history channel claim) (hg : claim.sessionGuid = guid) :
    Sound runtime unsettled (w.attach now guid channel).1 := by
  unfold World.attach
  split
  · exact hs
  · split
    · exact hs
    · exact { hs with
        registry := hs.registry.modify (fun _ ↦ ⟨rfl, rfl, rfl, rfl, rfl, rfl⟩) (fun _ ↦ rfl)
          fun _ ↦ rfl
        capacity := hs.capacity.shrink (List.Sublist.refl _) (fun _ ↦ owns_change fun _ ↦ rfl) rfl
          fun _ ↦ rfl
        switchboard := hs.switchboard.attach hc hg }

theorem countReport (hs : Sound runtime unsettled w) :
    Sound runtime unsettled (w.countReport now guid).1 := by
  have hmod : ∀ {w : World} {f : Session → Session}, Sound runtime unsettled w →
      (∀ session, (f session).SameAs session ∧ (f session).active = session.active ∧
        (f session).relayUuid = session.relayUuid ∧ (f session).sockets = session.sockets) →
      Sound runtime unsettled (w.modify guid f) := fun hs hf ↦
    hs.modify (fun s ↦ (hf s).1) (fun s ↦ (hf s).2.1) (fun s ↦ (hf s).2.2.1) fun s ↦
      (hf s).2.2.2 ▸ List.Subset.refl _
  have hs' : Sound runtime unsettled (w.modify guid fun session ↦
      if now - session.reportWindow ≥ 1000 then
        { session with reportWindow := now, windowReports := 0 }
      else session) := by
    refine hmod hs fun session ↦ ?_
    split
    · exact ⟨⟨rfl, rfl, rfl, rfl, rfl, rfl⟩, rfl, rfl, rfl⟩
    · exact ⟨.refl session, rfl, rfl, rfl⟩
  unfold World.countReport
  dsimp only
  split
  · exact hs'
  · exact hmod hs' fun session ↦ ⟨⟨rfl, rfl, rfl, rfl, rfl, rfl⟩, rfl, rfl, rfl⟩

theorem record (hs : Sound runtime unsettled w) {audit : Audit} {actorGuid : Option String}
    (hg : guard runtime call (.record guid audit actorGuid) w) :
    Sound runtime unsettled (w.note call (.recorded guid audit)) := by
  refine hs.note ?_ rfl
  cases audit with
  | sessionEnded reason closedBy => exact hg
  | gatewayOpen => exact hg
  | _ => trivial

end Validity

end Sound

end RustdeskConsole.Gateway
