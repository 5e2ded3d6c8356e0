import RustdeskConsole.Gateway.GatewaySpec

namespace RustdeskConsole.Gateway

open Effects Effects.History Function Collections WebClientSessionService WebClient

section Runs

variable {runtime : Runtime} {configuration : WebClientState}

theorem initial_sound : Sound runtime none (World.initial configuration) where
  lawful := lawful_nil
  registry := by
    refine ⟨List.nodup_nil, fun guid ↦ ⟨fun hm ↦ ?_, fun hl ↦ ?_⟩, fun guid session ho ↦ ?_,
      fun guid hs ↦ ?_, fun guid hm ↦ ?_, fun guid session ho ↦ ?_, fun a hm ↦ ?_⟩
    · cases hm
    · obtain ⟨_, _, _, _, hm, -⟩ := hl.1
      cases hm
    · cases ho
    · obtain ⟨_, _, _, _, hm, -⟩ := hs
      cases hm
    · cases hm
    · cases ho
    · cases hm
  ticketing := by
    intro hash ticket ht
    cases ht
  epoch := rfl
  capacity := by
    refine ⟨fun user ↦ rfl, ?_, fun user ↦ ?_⟩
    · simp [World.initial, OrderedMap.total, OrderedMap.empty]
    · simp [World.initial, World.reserved]
  backlog := by simp [World.initial, Backlog]
  switchboard := by
    refine ⟨fun channel socket hs ↦ ?_, fun channel socket hs ↦ ?_, fun channel _ ↦ ⟨?_, ?_⟩,
      fun guid session ho ↦ ?_, fun channel claim _ hst ↦ ?_⟩
    · cases hs
    · cases hs
    · rintro ⟨_, hm⟩
      cases hm
    · rintro ⟨_, _, _, hm⟩
      cases hm
    · cases ho
    · obtain ⟨_, _, _, hm⟩ := hst
      cases hm

variable {cfg cfg' : Config Call Command Reply World}
  (hr : (machine runtime).Run (Machine.idle (World.initial configuration)) cfg)

include hr

theorem reached : (logic runtime).Leaves (fun call w ↦ Discharged call w.history) cfg :=
  (Logic.leaves_idle (L := logic runtime) (w := World.initial configuration)
    ⟨initial_sound, fun hne ↦ absurd rfl hne⟩).run discharged_stable delivers hr

theorem sound_of_run : Sound runtime none cfg.world := (reached hr).1.1

/-- One step is a block of one call. -/
theorem ages_of_step (hs : (machine runtime).Step cfg cfg') : ∃ call,
    Ages call cfg.world cfg'.world ∧
      Adds (fun e ↦ e.1 = call) cfg.world.history cfg'.world.history := by
  have hL := reached hr
  rcases hL.step_cases hs with he | ⟨call, c, o, hg, he⟩
  · rw [he]
    exact ⟨⟨0, .refresh⟩, (Wanes.refl _).ages, .refl _⟩
  · have hk := exec_keeps c o hL.1.1 hL.1.2 hg
    rw [he]
    exact ⟨call, hk.ages, hk.adds.mono fun _ ↦ And.left⟩

/-- A session that appears in the map was started by the step. -/
theorem started_of_step (hs : (machine runtime).Step cfg cfg') {guid : String}
    (hm : guid ∈ cfg'.world.sessions) (hn : guid ∉ cfg.world.sessions) :
    ∃ call session rendezvous relay, (call, .started session rendezvous relay) ∈ cfg'.world.history ∧
      (call, .started session rendezvous relay) ∉ cfg.world.history ∧ session.guid = guid := by
  obtain ⟨call, -, ha⟩ := ages_of_step hr hs
  have hlive := ((sound_of_run (hr.tail hs)).registry.live guid).mp hm
  obtain ⟨c, session, a, b, hst, hg⟩ := hlive.1
  refine ⟨c, session, a, b, hst, fun hold ↦ hn ?_, hg⟩
  refine ((sound_of_run hr).registry.live guid).mpr ⟨⟨c, session, a, b, hold, hg⟩, fun he ↦ ?_⟩
  exact hlive.2 (he.mono ha.suffix)

/-- A session object never gets a later expiry. -/
theorem expiresAt_antitone (hr' : (machine runtime).Run cfg cfg') {guid : String} {session : Session}
    (ho : cfg.world.objects guid = some session) :
    ∃ session', cfg'.world.objects guid = some session' ∧ session'.expiresAt ≤ session.expiresAt := by
  induction hr' with
  | refl => exact ⟨session, ho, Nat.le_refl _⟩
  | tail hrun hs ih =>
    obtain ⟨session₁, ho₁, hle₁⟩ := ih
    obtain ⟨call, hage, -⟩ := ages_of_step (hr.trans hrun) hs
    obtain ⟨session₂, ho₂, hle₂⟩ := hage.objects guid session₁ ho₁
    exact ⟨session₂, ho₂, hle₂.trans hle₁⟩

end Runs

section Tickets

variable {runtime : Runtime} {h : History} (hl : Lawful (law runtime) h)

include hl

/-- One value is consumed at most once. -/
theorem consumed_once (value : String) :
    AtMostOnce (fun e : Call × Event ↦ ∃ claim, e.2 = .consumed value claim) h := by
  intro e earlier hs ⟨claim, he⟩ p hp ⟨claim', hpe⟩
  obtain ⟨c, rfl⟩ : ∃ c, e = (c, .consumed value claim) := ⟨e.1, Prod.ext rfl he⟩
  obtain ⟨c', rfl⟩ : ∃ c', p = (c', .consumed value claim') := ⟨p.1, Prod.ext rfl hpe⟩
  have hl' := hl.of_suffix ((List.suffix_cons ..).trans hs)
  obtain ⟨-, hnone, ticket, ⟨before, hb, ht⟩, -, -⟩ := hl _ _ hs
  obtain ⟨ticket', ht', -, -⟩ := consumed_ticket hl' hp
  obtain ⟨rfl, -⟩ := taken_unique hl' (hb.subset (.tail _ ht)) ht'
  exact hnone _ _ hp

/-- No claim on a session is made after its end. -/
theorem consumed_unended (guid : String) :
    Unfollowed (fun e : Call × Event ↦ ∃ closed : List Closed, e.2 = .ended closed ∧
      guid ∈ closed.map (·.guid))
      (fun e ↦ ∃ value claim, e.2 = .consumed value claim ∧ claim.sessionGuid = guid) h := by
  intro e earlier hs ⟨value, claim, he, hg⟩ p hp ⟨closed, hpe, hm⟩
  obtain ⟨c, rfl⟩ : ∃ c, e = (c, .consumed value claim) := ⟨e.1, Prod.ext rfl he⟩
  obtain ⟨c', rfl⟩ : ∃ c', p = (c', .ended closed) := ⟨p.1, Prod.ext rfl hpe⟩
  obtain ⟨hlive, -⟩ := hl _ _ hs
  exact hlive.2 ⟨c', closed, hp, hg ▸ hm⟩

end Tickets

/-- No verification timed out between the begin of a creation and its session. -/
def Punctual (h : History) : Prop :=
  ∀ later mid before call session rendezvous relay guid epoch,
    h = later ++ (call, .started session rendezvous relay) :: (mid ++ (call, .begun guid epoch) :: before) →
      ∀ other, (other, .timedOut) ∉ mid

section Lifecycle

variable {runtime : Runtime} {h : History} (hl : Lawful (law runtime) h)

include hl

/-- A call begins one creation. -/
theorem begun_once {c : Call} {guid guid' : String} {epoch epoch' : ℕ}
    (hb : (c, .begun guid epoch) ∈ h) (hb' : (c, .begun guid' epoch') ∈ h) :
    guid = guid' ∧ epoch = epoch' := by
  have ho : AtMostOnce (fun x : Call × Event ↦ ∃ g e, x = (c, .begun g e)) h := by
    refine hl.unfollowed fun earlier x hx ⟨g, e, he⟩ p hp ⟨g', e', hpe⟩ ↦ ?_
    subst he hpe
    exact hx.2.1 _ _ hp
  cases ho.eq hb hb' ⟨_, _, rfl⟩ ⟨_, _, rfl⟩
  exact ⟨rfl, rfl⟩

theorem punctual : Punctual h := by
  intro later mid before call session rendezvous relay guid epoch hh other hm
  have hs : (call, .started session rendezvous relay) :: (mid ++ (call, .begun guid epoch) :: before) <:+ h :=
    ⟨later, hh.symm⟩
  have hb : (call, .begun guid epoch) :: before <:+ mid ++ (call, .begun guid epoch) :: before :=
    List.suffix_append ..
  have hsuf := (List.suffix_cons ..).trans hs
  obtain ⟨hbegun, -⟩ := hl _ _ hs
  obtain ⟨-, -, hepoch, -⟩ := hl _ _ (hb.trans hsuf)
  obtain ⟨-, he⟩ := begun_once hl (hsuf.subset hbegun) ((hb.trans hsuf).subset (.head _))
  have hcount : timeouts (mid ++ (call, .begun guid epoch) :: before) =
      mid.countP (fun x ↦ x.2 = .timedOut) + timeouts before := by
    simp [timeouts, List.countP_append]
  have hpos : 0 < mid.countP (fun x ↦ x.2 = .timedOut) :=
    List.countP_pos_iff.mpr ⟨_, hm, decide_eq_true rfl⟩
  omega

theorem ended_once (guid : String) : AtMostOnce (fun e : Call × Event ↦
    ∃ closed : List Closed, e.2 = .ended closed ∧ guid ∈ closed.map (·.guid)) h := by
  refine hl.unfollowed fun earlier x hx ⟨closed, he, hm⟩ p hp ⟨closed', hpe, hm'⟩ ↦ ?_
  obtain ⟨c, rfl⟩ : ∃ c, x = (c, .ended closed) := ⟨x.1, Prod.ext rfl he⟩
  obtain ⟨c', rfl⟩ : ∃ c', p = (c', .ended closed') := ⟨p.1, Prod.ext rfl hpe⟩
  obtain ⟨item, hi, rfl⟩ := List.mem_map.mp hm
  exact (hx.2 item hi).2 ⟨c', closed', hp, hm'⟩

theorem handed_once (guid : String) : AtMostOnce (fun e : Call × Event ↦
    ∃ closed : List Closed, e.2 = .handed closed ∧ guid ∈ closed.map (·.guid)) h := by
  refine hl.unfollowed fun earlier x hx ⟨closed, he, hm⟩ p hp ⟨closed', hpe, hm'⟩ ↦ ?_
  obtain ⟨c, rfl⟩ : ∃ c, x = (c, .handed closed) := ⟨x.1, Prod.ext rfl he⟩
  obtain ⟨c', rfl⟩ : ∃ c', p = (c', .handed closed') := ⟨p.1, Prod.ext rfl hpe⟩
  obtain ⟨item, hi, rfl⟩ := List.mem_map.mp hm
  exact (hx.2 item hi).2 ⟨c', closed', hp, hm'⟩

/-- One call alone gets to record the end of a session. -/
theorem handedTo_unique {c c' : Call} {guid : String} (hh : HandedTo h c guid)
    (hh' : HandedTo h c' guid) : c = c' := by
  obtain ⟨closed, hm, hg⟩ := hh
  obtain ⟨closed', hm', hg'⟩ := hh'
  exact (Prod.mk.inj ((handed_once hl guid).eq hm hm' ⟨_, rfl, hg⟩ ⟨_, rfl, hg'⟩)).1

theorem sessionEnded_once (guid : String) : AtMostOnce (fun e : Call × Event ↦
    ∃ reason closedBy, e.2 = .recorded guid (.sessionEnded reason closedBy)) h := by
  intro x earlier hs ⟨reason, closedBy, he⟩ p hp ⟨reason', closedBy', hpe⟩
  obtain ⟨c, rfl⟩ : ∃ c, x = (c, .recorded guid (.sessionEnded reason closedBy)) :=
    ⟨x.1, Prod.ext rfl he⟩
  obtain ⟨c', rfl⟩ : ∃ c', p = (c', .recorded guid (.sessionEnded reason' closedBy')) :=
    ⟨p.1, Prod.ext rfl hpe⟩
  have hl' := hl.of_suffix ((List.suffix_cons ..).trans hs)
  obtain ⟨hh, hnone⟩ := hl _ _ hs
  obtain ⟨before, hb, hh', -⟩ := hl'.of_mem hp
  obtain rfl := handedTo_unique hl' hh (hh'.mono ((List.suffix_cons ..).trans hb))
  exact hnone _ _ hp

theorem bound_once (guid : String) :
    AtMostOnce (fun e : Call × Event ↦ ∃ uuid, e.2 = .bound guid uuid) h := by
  refine hl.unfollowed fun earlier x hx ⟨uuid, he⟩ p hp ⟨uuid', hpe⟩ ↦ ?_
  obtain ⟨c, rfl⟩ : ∃ c, x = (c, .bound guid uuid) := ⟨x.1, Prod.ext rfl he⟩
  obtain ⟨c', rfl⟩ : ∃ c', p = (c', .bound guid uuid') := ⟨p.1, Prod.ext rfl hpe⟩
  exact hx.2.2 uuid' ⟨c', hp⟩

/-- A session is claimed once in each phase, and by one channel. -/
theorem claimed_phase {channel channel' : ℕ} {claim claim' : GatewayClaim}
    (hc : Claimed h channel claim) (hc' : Claimed h channel' claim')
    (hg : claim.sessionGuid = claim'.sessionGuid) (hp : claim.phase = claim'.phase) :
    channel = channel' := by
  obtain ⟨c, hc⟩ := hc
  obtain ⟨c', hc'⟩ := hc'
  obtain ⟨-, value, hv⟩ := claimed_admitted hl hc
  obtain ⟨-, value', hv'⟩ := claimed_admitted hl hc'
  obtain ⟨ticket, ht, htg, htp⟩ := consumed_ticket hl hv
  obtain ⟨ticket', ht', htg', htp'⟩ := consumed_ticket hl hv'
  have hi := taken_issued hl ht
  have hi' := taken_issued hl ht'
  rw [htg, htp] at hi
  rw [htg', htp', ← hg, ← hp] at hi'
  rw [← issued_hash hl hi hi'] at ht'
  obtain ⟨rfl, -⟩ := taken_unique hl ht ht'
  exact (claimed_once hl hc hc').1

/-- One call serves the first frame of the relay channel of a session. -/
theorem opening_unique {c c' : Call} {guid : String} (ho : Opening h c guid)
    (ho' : Opening h c' guid) : c = c' := by
  obtain ⟨channel, bytes, claim, hv, hc, hp, hg⟩ := ho
  obtain ⟨channel', bytes', claim', hv', hc', hp', hg'⟩ := ho'
  obtain rfl := claimed_phase hl hc hc' (hg.trans hg'.symm) (hp.trans hp'.symm)
  exact (validated_unique hl hv hv').1

theorem gatewayOpen_once (guid : String) :
    AtMostOnce (fun e : Call × Event ↦ e.2 = .recorded guid .gatewayOpen) h := by
  intro x earlier hs he p hp hpe
  obtain ⟨c, rfl⟩ : ∃ c, x = (c, .recorded guid .gatewayOpen) := ⟨x.1, Prod.ext rfl he⟩
  obtain ⟨c', rfl⟩ : ∃ c', p = (c', .recorded guid .gatewayOpen) := ⟨p.1, Prod.ext rfl hpe⟩
  have hl' := hl.of_suffix ((List.suffix_cons ..).trans hs)
  obtain ⟨ho, hnone⟩ := hl _ _ hs
  obtain ⟨before, hb, ho', -⟩ := hl'.of_mem hp
  obtain rfl := opening_unique hl' ho (ho'.mono ((List.suffix_cons ..).trans hb))
  exact hnone hp

theorem released_once (call : Call) (user : String) :
    AtMostOnce (fun e : Call × Event ↦ e = (call, .released user)) h := by
  refine hl.unfollowed fun earlier x hx he p hp hpe ↦ ?_
  subst he hpe
  exact hx.2 hp

end Lifecycle

/-- Two objects under one guid are those of one start. -/
theorem sameAs_of_adds {runtime : Runtime} {w w' : World} {guid : String} {session session' : Session}
    (hs : Sound runtime none w) (hs' : Sound runtime none w') (hsuf : w.history <:+ w'.history)
    (ho : w.objects guid = some session) (ho' : w'.objects guid = some session') :
    session'.kind = session.kind ∧ session'.parentGuid = session.parentGuid := by
  obtain ⟨c, s, a, b, hm, hg, hsame⟩ := (hs.registry.object guid session ho).started
  obtain ⟨c', s', a', b', hm', hg', hsame'⟩ := (hs'.registry.object guid session' ho').started
  obtain ⟨-, rfl, -⟩ := started_unique hs'.lawful (hsuf.subset hm) hm' (hg.trans hg'.symm)
  exact ⟨hsame'.kind.trans hsame.kind.symm, hsame'.parentGuid.trans hsame.parentGuid.symm⟩

section Claims

variable {runtime : Runtime} {configuration : WebClientState}
  {cfg cfg' : Config Call Command Reply World}

/-- The children of a session that leaves the map leave with it. -/
theorem children_leave
    (hr : (machine runtime).Run (Machine.idle (World.initial configuration)) cfg)
    (hs : (machine runtime).Step cfg cfg') {parent child : String} {session : Session}
    (hp : parent ∈ cfg.world.sessions) (hgone : parent ∉ cfg'.world.sessions)
    (ho : cfg.world.objects child = some session) (hparent : session.parentGuid = some parent) :
    child ∉ cfg'.world.sessions := by
  intro hm
  have hsound := sound_of_run hr
  have hsound' := sound_of_run (hr.tail hs)
  obtain ⟨call, hage, ha⟩ := ages_of_step hr hs
  obtain ⟨session', ho', -⟩ := hage.objects child session ho
  obtain ⟨hkind, hpg⟩ := sameAs_of_adds hsound hsound' ha.suffix ho ho'
  cases hk : session.kind with
  | desktop =>
    have hnone := hsound.registry.desktop child session ho hk
    rw [hparent, truthy, Option.filter_eq_none_iff] at hnone
    have hne := hsound.guid_ne_empty hp
    exact hnone parent rfl (decide_eq_true hne)
  | file =>
    obtain ⟨hg, hin, -⟩ := hsound'.registry.child child hm session' ho' (hkind.trans hk)
    obtain rfl := Option.some.inj (hg.symm.trans (hpg.trans hparent))
    exact hgone hin

/-- Tickets are single use and never outlive their session. -/
theorem ticket_single_use
    (hr : (machine runtime).Run (Machine.idle (World.initial configuration)) cfg) :
    (∀ hash ticket, cfg.world.tickets hash = some ticket →
      ticket.sessionGuid ∈ cfg.world.sessions) ∧
    (∀ value, AtMostOnce (fun e ↦ ∃ claim, e.2 = .consumed value claim) cfg.world.history) ∧
    (∀ guid, Unfollowed
      (fun e ↦ ∃ closed : List Closed, e.2 = .ended closed ∧ guid ∈ closed.map (·.guid))
      (fun e ↦ ∃ value claim, e.2 = .consumed value claim ∧ claim.sessionGuid = guid)
      cfg.world.history) ∧
    (∀ call value claim earlier, (call, .consumed value claim) :: earlier <:+ cfg.world.history →
      Live earlier claim.sessionGuid ∧ ∃ ticket, ticket.sessionGuid = claim.sessionGuid ∧
        Consuming earlier call (runtime.sha256 value) ticket) ∧
    ∀ call value s, (∀ event, (call, event) ∉ cfg.world.history) →
      (logic runtime).Ensures call (consumeTicket value)
        (fun claim _ w' ↦ claim.sessionGuid ∈ w'.sessions ∧
          ∃ earlier, w'.history = (call, .consumed value claim) :: earlier)
        (fun _ _ w' ↦ ∀ v claim, (call, .consumed v claim) ∉ w'.history) s cfg.world := by
  have hs := sound_of_run hr
  refine ⟨fun hash ticket hm ↦ (hs.ticketing hash ticket hm).1, consumed_once hs.lawful,
    consumed_unended hs.lawful, fun call value claim earlier hsuf ↦ ?_, fun call value s hnone ↦ ?_⟩
  · obtain ⟨hlive, -, ticket, hc, hg, -⟩ := hs.lawful _ _ hsuf
    exact ⟨hlive, ticket, hg, hc⟩
  · have ho : Own call (fun e ↦ ∀ v k, e ≠ .consumed v k) cfg.world.history :=
      fun e he ↦ absurd he (hnone e)
    refine consumeTicket_ensures (fun e hc v k ↦ ?_) (fun _ _ ↦ nofun)
      (fun v k hne ↦ hne v k rfl) ho (fun claim w' earlier hh _ _ hs' ↦ ?_)
      fun _ w' ho' _ v k hm ↦ ho' _ hm v k rfl
    · rintro rfl
      cases hc
    · refine ⟨?_, earlier, hh⟩
      have hsuf : (call, .consumed value claim) :: earlier <:+ w'.history := hh ▸ List.suffix_rfl
      obtain ⟨hlive, -⟩ := hs'.lawful _ _ hsuf
      rw [hs'.registry.live, hh]
      exact (live_note (by simp) (by simp)).mpr hlive

/-- A verification timeout ends every session and every creation under way. -/
theorem timeout_fences_create
    (hr : (machine runtime).Run (Machine.idle (World.initial configuration)) cfg) :
    (cfg.world.pendingTimeouts ≠ [] → cfg.world.sessions = []) ∧
    Punctual cfg.world.history ∧
    (∀ cfg', (machine runtime).Step cfg cfg' →
      (∀ guid ∈ cfg'.world.sessions, guid ∉ cfg.world.sessions →
        ∃ call session rendezvous relay, session.guid = guid ∧
          (call, .started session rendezvous relay) ∈ cfg'.world.history ∧
          (call, .started session rendezvous relay) ∉ cfg.world.history) ∧
      ∀ hash ticket, cfg'.world.tickets hash = some ticket → cfg.world.tickets hash ≠ some ticket →
        ∃ call session rendezvous relay, (hash = rendezvous ∨ hash = relay) ∧
          (call, .started session rendezvous relay) ∈ cfg'.world.history ∧
          (call, .started session rendezvous relay) ∉ cfg.world.history) ∧
    ∀ call actor rawTargetId kind parentGuid s, (∀ event, (call, event) ∉ cfg.world.history) →
      (logic runtime).Ensures call (create runtime actor rawTargetId kind parentGuid)
        (fun grant _ w' ↦ Granted call grant w'.history ∧ Punctual w'.history)
        (fun _ _ _ ↦ True) s cfg.world := by
  obtain ⟨hs, hsus⟩ := (reached hr).1
  refine ⟨hsus, punctual hs.lawful, fun cfg' hstep ↦ ⟨fun guid hm hn ↦ ?_, fun hash ticket hm hn ↦ ?_⟩,
    fun call actor rawTargetId kind parentGuid s hnone ↦ ?_⟩
  · obtain ⟨call, session, a, b, hnew, hold, hg⟩ := started_of_step hr hstep hm hn
    exact ⟨call, session, a, b, hg, hnew, hold⟩
  · obtain ⟨call, hage, -⟩ := ages_of_step hr hstep
    rcases hage.tickets hash ticket hm with hm | ⟨session, a, b, hnew, hold, hh⟩
    · exact absurd hm hn
    · exact ⟨call, session, a, b, hh, hnew, hold⟩
  · have ho : Own call Event.Calm cfg.world.history := fun e hm ↦ absurd hm (hnone e)
    exact ((create_ensures ho).keeps ⟨hs, hsus⟩).mono
      (fun _ _ _ h ↦ ⟨h.2.1, punctual h.1.1.lawful⟩) fun _ _ _ _ ↦ trivial

/-- Sessions form a tree of two levels, and never are too many. -/
theorem session_tree_bounded
    (hr : (machine runtime).Run (Machine.idle (World.initial configuration)) cfg) :
    (∀ guid ∈ cfg.world.sessions, ∀ session, cfg.world.objects guid = some session →
      session.kind = .file → ∃ parentGuid parent, session.parentGuid = some parentGuid ∧
        parentGuid ∈ cfg.world.sessions ∧ cfg.world.objects parentGuid = some parent ∧
        parent.kind = .desktop ∧ parent.active = true ∧ parent.actor = session.actor ∧
        parent.targetId = session.targetId) ∧
    (∀ cfg', (machine runtime).Step cfg cfg' → ∀ parent ∈ cfg.world.sessions,
      parent ∉ cfg'.world.sessions → ∀ child session, cfg.world.objects child = some session →
        session.parentGuid = some parent → child ∉ cfg'.world.sessions) ∧
    (∀ cfg', (machine runtime).Run cfg cfg' → ∀ guid session, cfg.world.objects guid = some session →
      ∃ session', cfg'.world.objects guid = some session' ∧ session'.expiresAt ≤ session.expiresAt) ∧
    cfg.world.sessions.length + cfg.world.reservations.total ≤ 256 ∧
    (∀ user, cfg.world.sessions.countP (cfg.world.owns user) + cfg.world.reserved user ≤ 8) ∧
    (∀ user, cfg.world.reserved user = outstanding cfg.world.history user) ∧
    ∀ call user, AtMostOnce (fun e ↦ e = (call, .released user)) cfg.world.history ∧
      (cfg.threads call = some (.done ()) → (call, .reserved user) ∈ cfg.world.history →
        (call, .released user) ∈ cfg.world.history) := by
  have hL := reached hr
  have hs := hL.1.1
  refine ⟨fun guid hm session ho hk ↦ ?_, fun cfg' hstep parent hp hgone child session ho hpg ↦
    children_leave hr hstep hp hgone ho hpg, fun cfg' hr' guid session ho ↦
    expiresAt_antitone hr hr' ho, hs.capacity.total, hs.capacity.user, hs.capacity.reserved,
    fun call user ↦ ⟨released_once hs.lawful call user, fun hdone ↦ (hL.ended hdone).released user⟩⟩
  obtain ⟨hg, hin, hobj, hkind, hact, hactor, htarget⟩ := hs.registry.child guid hm session ho hk
  exact ⟨_, _, hg, hin, hobj, hkind, hact, hactor, htarget⟩

/-- Each session lives through each event of its life once. -/
theorem lifecycle_exactly_once
    (hr : (machine runtime).Run (Machine.idle (World.initial configuration)) cfg) :
    (∀ guid, AtMostOnce
      (fun e ↦ ∃ closed : List Closed, e.2 = .ended closed ∧ guid ∈ closed.map (·.guid))
      cfg.world.history) ∧
    (∀ call closed, (call, .ended closed) ∈ cfg.world.history → (closed.map (·.guid)).Nodup) ∧
    (∀ guid, AtMostOnce (fun e ↦ ∃ reason closedBy, e.2 = .recorded guid (.sessionEnded reason closedBy))
      cfg.world.history) ∧
    (∀ guid, AtMostOnce (fun e ↦ ∃ uuid, e.2 = .bound guid uuid) cfg.world.history) ∧
    (∀ guid, AtMostOnce (fun e ↦ e.2 = .recorded guid .gatewayOpen) cfg.world.history) ∧
    ∀ a ∈ cfg.world.sessions, ∀ b ∈ cfg.world.sessions, ∀ session session' uuid,
      cfg.world.objects a = some session → cfg.world.objects b = some session' →
      session.relayUuid = some uuid → session'.relayUuid = some uuid → a = b := by
  have hs := sound_of_run hr
  refine ⟨ended_once hs.lawful, fun call closed hm ↦ ?_, sessionEnded_once hs.lawful,
    bound_once hs.lawful, gatewayOpen_once hs.lawful,
    fun a ha b hb session session' uuid ho ho' hu hu' ↦ ?_⟩
  · obtain ⟨-, -, hnodup, -⟩ := hs.lawful.of_mem hm
    exact hnodup
  · exact hs.registry.relayUuid a ha b hb uuid
      (((hs.registry.object a session ho).relayUuid uuid).mp hu)
      (((hs.registry.object b session' ho').relayUuid uuid).mp hu')

end Claims

section Sample

def sampleConfig : ValidatedWebClientConfig :=
  ⟨"wss://id", "wss://relay", "key", "https://console", none, none⟩

def sampleTicket (letter : Char) : String := String.ofList (List.replicate 43 letter)

def sampleGuid (digit : Char) : String :=
  "00000000-0000-0000-0000-00000000000" ++ String.ofList [digit]

def sampleRuntime : Runtime := ⟨fun text ↦ "hash:" ++ text, fun c ↦ c.isAlphanum⟩

/-- Every check succeeds in time. -/
def sampleChoice : Choice where
  now := 1000
  uuid := sampleGuid '1'
  rendezvous := sampleTicket 'A'
  relay := sampleTicket 'B'
  late := false
  verdict := .ok ("peer", 100000000)
  outcome := .ok ()
  configuration := .enabled sampleConfig
  room := true

/-- What is drawn for a second session. -/
def sampleOther : Choice :=
  { sampleChoice with
    uuid := sampleGuid '2'
    rendezvous := sampleTicket 'C'
    relay := sampleTicket 'D' }

def sampleFresh (call : Call) (w : World) : Bool := w.history.all fun e ↦ decide (e.1 ≠ call)

theorem sampleFresh_admits (call : Call) (w : World) (h : sampleFresh call w = true) :
    (machine sampleRuntime).admits call w (handler sampleRuntime call.request) := by
  refine ⟨fun event hm ↦ ?_, rfl⟩
  have hne := List.all_eq_true.mp h _ hm
  simp at hne

/-- Calls are served one after the other, each as far as its choices go. -/
def sampleRun (turns : List (Call × List Choice)) : Config Call Command Reply World :=
  (machine sampleRuntime).schedule (fun call ↦ handler sampleRuntime call.request) sampleFresh turns
    (Machine.idle (World.initial (.enabled sampleConfig)))

theorem sampleRun_run (turns : List (Call × List Choice)) :
    (machine sampleRuntime).Run (Machine.idle (World.initial (.enabled sampleConfig)))
      (sampleRun turns) :=
  Machine.schedule_run sampleFresh_admits turns

def sampleServed (o : Choice) (call : Call) : Call × List Choice := (call, List.replicate 20 o)

def sampleActor : WebClientActor := ⟨"user", "jti"⟩

def sampleCreate : Call := ⟨0, .create sampleActor "123 456" .desktop none⟩

def sampleUpgrade : Call := ⟨1, .upgrade 7 (some "https://console")⟩

def sampleFrame (ticket : String) : List UInt8 :=
  ("\x7b\"ticket\":\"" ++ ticket ++ "\"\x7d").toUTF8.toList

def sampleFirst : Call := ⟨2, .browserMessage 7 (sampleFrame (sampleTicket 'A')) false⟩

/-- The request to the desktop 123456 under the server's key. -/
def sampleRequest : List UInt8 :=
  [0x42, 15, 0x0a, 6, 0x31, 0x32, 0x33, 0x34, 0x35, 0x36, 0x1a, 3, 0x6b, 0x65, 0x79, 0x40, 1]

def sampleSecond : Call := ⟨3, .browserMessage 7 sampleRequest true⟩

/-- The field that names the relay. -/
def sampleRelay : List UInt8 := 0x12 :: 36 :: (sampleGuid '9').toUTF8.toList

def sampleReply : Call := ⟨4, .upstreamMessage 7 (0x9a :: 1 :: 38 :: sampleRelay) true⟩

def sampleThird : Call := ⟨6, .browserMessage 8 (sampleFrame (sampleTicket 'B')) false⟩

/-- The request to be relayed to the desktop. -/
def sampleFourth : Call :=
  ⟨7, .browserMessage 8 ([0x92, 1, 51, 0x0a, 6, 0x31, 0x32, 0x33, 0x34, 0x35, 0x36] ++
    sampleRelay ++ [0x32, 3, 0x6b, 0x65, 0x79]) true⟩

/-- A desktop session with both of its channels open, and a file session under it. -/
def sampleOpened : List (Call × List Choice) :=
  [sampleCreate, sampleUpgrade, sampleFirst, sampleSecond, sampleReply,
    ⟨5, .upgrade 8 (some "https://console")⟩, sampleThird, sampleFourth].map
      (sampleServed sampleChoice) ++
    [sampleServed sampleOther ⟨8, .createFile sampleActor (sampleGuid '1')⟩]

/-- The owner ends the desktop session, and the file session with it. -/
def sampleEnded : List (Call × List Choice) :=
  sampleOpened ++ [sampleServed sampleChoice ⟨9, .endSession sampleActor (sampleGuid '1')⟩]

/-- While another session is created, the check of the first one is late. -/
def sampleFenced : List (Call × List Choice) :=
  let other : Call := ⟨1, .create sampleActor "123 456" .desktop none⟩
  [sampleServed sampleChoice sampleCreate, (other, List.replicate 5 sampleOther),
    sampleServed { sampleChoice with late := true } ⟨2, .ensureValid (sampleGuid '1')⟩,
    sampleServed sampleOther other]

theorem sample_ticket_single_use : AtMostOnce
    (fun e : Call × Event ↦ ∃ claim, e.2 = .consumed (sampleTicket 'A') claim)
    (sampleRun sampleOpened).world.history :=
  (ticket_single_use (sampleRun_run sampleOpened)).2.1 (sampleTicket 'A')

theorem sample_timeout_fences_create : (sampleRun sampleFenced).world.sessions = [] ∧
    Punctual (sampleRun sampleFenced).world.history :=
  ⟨(timeout_fences_create (sampleRun_run sampleFenced)).1 (by decide +kernel),
    (timeout_fences_create (sampleRun_run sampleFenced)).2.1⟩

theorem sample_session_tree_bounded :
    (∃ session parentGuid parent,
      (sampleRun sampleOpened).world.objects (sampleGuid '2') = some session ∧
      session.parentGuid = some parentGuid ∧ parentGuid ∈ (sampleRun sampleOpened).world.sessions ∧
      (sampleRun sampleOpened).world.objects parentGuid = some parent ∧ parent.active = true) ∧
    (sampleRun sampleOpened).world.sessions.length +
      (sampleRun sampleOpened).world.reservations.total ≤ 256 := by
  obtain ⟨htree, -, -, htotal, -⟩ := session_tree_bounded (sampleRun_run sampleOpened)
  have hfile : ((sampleRun sampleOpened).world.objects (sampleGuid '2')).any
      (fun session ↦ decide (session.kind = .file)) = true := by decide +kernel
  obtain ⟨session, ho, hk⟩ := (Option.any_eq_true ..).mp hfile
  obtain ⟨parentGuid, parent, hpg, hin, hobj, -, hact, -⟩ :=
    htree (sampleGuid '2') (by decide +kernel) session ho (of_decide_eq_true hk)
  exact ⟨⟨session, parentGuid, parent, ho, hpg, hin, hobj, hact⟩, htotal⟩

theorem sample_lifecycle_exactly_once :
    (sampleFourth, .recorded (sampleGuid '1') .gatewayOpen) ∈
      (sampleRun sampleEnded).world.history ∧
    AtMostOnce (fun e ↦ e.2 = .recorded (sampleGuid '1') .gatewayOpen)
      (sampleRun sampleEnded).world.history ∧
    AtMostOnce (fun e ↦ ∃ closed : List Closed, e.2 = .ended closed ∧
      sampleGuid '1' ∈ closed.map (·.guid)) (sampleRun sampleEnded).world.history := by
  obtain ⟨hended, -, -, -, hopen, -⟩ := lifecycle_exactly_once (sampleRun_run sampleEnded)
  exact ⟨by decide +kernel, hopen (sampleGuid '1'), hended (sampleGuid '1')⟩

end Sample

end RustdeskConsole.Gateway
