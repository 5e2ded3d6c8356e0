import RustdeskConsole.Gateway.Switchboard

namespace RustdeskConsole.Gateway

open Effects Effects.History Function Collections WebClient

/-- The events that no state shows. -/
def Event.quiet : Event → Bool
  | .begun .. | .confirmed _ | .consumed .. | .recorded .. => true
  | _ => false

/-- Tickets may go, and no session is extended. -/
structure Wanes (w w' : World) : Prop where
  tickets : ∀ hash ticket, w'.tickets hash = some ticket → w.tickets hash = some ticket
  objects : ∀ guid session, w.objects guid = some session →
    ∃ session', w'.objects guid = some session' ∧ session'.expiresAt ≤ session.expiresAt

namespace Wanes

variable {w w' w'' : World}

theorem of_eq (ht : w'.tickets = w.tickets) (ho : w'.objects = w.objects) : Wanes w w' :=
  ⟨fun _ _ hm ↦ ht ▸ hm, fun _ session hm ↦ ⟨session, ho ▸ hm, Nat.le_refl _⟩⟩

theorem refl (w : World) : Wanes w w := of_eq rfl rfl

theorem trans (hw : Wanes w w') (hw' : Wanes w' w'') : Wanes w w'' where
  tickets hash ticket hm := hw.tickets hash ticket (hw'.tickets hash ticket hm)
  objects guid session hm := by
    obtain ⟨session', hm', hle⟩ := hw.objects guid session hm
    obtain ⟨session'', hm'', hle'⟩ := hw'.objects guid session' hm'
    exact ⟨session'', hm'', hle'.trans hle⟩

theorem of_change {guid : String} {f : Session → Session} (ht : w'.tickets = w.tickets)
    (ho : w'.objects = update w.objects guid ((w.objects guid).map f))
    (hf : ∀ session, (f session).expiresAt ≤ session.expiresAt) : Wanes w w' := by
  refine ⟨fun _ _ hm ↦ ht ▸ hm, fun g session hm ↦ ?_⟩
  rw [ho]
  refine ⟨_, change_eq_some.mpr ⟨session, hm, rfl⟩, ?_⟩
  split
  · exact hf session
  · exact Nat.le_refl _

end Wanes

/-- What a stop changes of the world: channels, and the sockets of a session. -/
structure Hushed (call : Call) (w w' : World) : Prop where
  sessions : w'.sessions = w.sessions
  pendingTimeouts : w'.pendingTimeouts = w.pendingTimeouts
  emergencies : w'.emergencies = w.emergencies
  channels : w'.channels = w.channels
  wanes : Wanes w w'
  adds : Adds (fun x ↦ ∃ channel reason cause, x = (call, .stopped channel reason cause))
    w.history w'.history

namespace Hushed

variable {call : Call} {w w' w'' : World}

theorem refl (w : World) : Hushed call w w := ⟨rfl, rfl, rfl, rfl, .refl w, .refl _⟩

theorem trans (hh : Hushed call w w') (hh' : Hushed call w' w'') : Hushed call w w'' where
  sessions := hh'.sessions.trans hh.sessions
  pendingTimeouts := hh'.pendingTimeouts.trans hh.pendingTimeouts
  emergencies := hh'.emergencies.trans hh.emergencies
  channels := hh'.channels.trans hh.channels
  wanes := hh.wanes.trans hh'.wanes
  adds := hh.adds.trans hh'.adds

theorem stopChannel {channel : ℕ} {reason : Reason} {cause : Cause} :
    Hushed call w (w.stopChannel call channel reason cause) := by
  unfold World.stopChannel
  split
  · exact refl w
  · split
    · exact refl w
    · refine ⟨rfl, rfl, rfl, rfl, ?_, (Adds.refl _).cons ⟨channel, reason, cause, rfl⟩⟩
      rename_i socket _ _
      cases hd : socket.detach with
      | none => exact .of_eq rfl rfl
      | some guid => exact .of_change rfl rfl fun _ ↦ Nat.le_refl _

theorem closeSockets {item : Closed} : Hushed call w (w.closeSockets call item) := by
  have hfold : ∀ (chs : List ℕ) (w : World), Hushed call w
      (chs.foldl (fun w ch ↦ w.stopChannel call ch item.reason .invalidated) w) := by
    intro chs
    induction chs with
    | nil => exact refl
    | cons ch chs ih => exact fun w ↦ stopChannel.trans (ih _)
  obtain ⟨h₁, h₂, h₃, h₄, h₅, h₆⟩ := hfold (((w.objects item.guid).map (·.sockets)).getD []) w
  exact ⟨h₁, h₂, h₃, h₄, h₅.trans (.of_change rfl rfl fun _ ↦ Nat.le_refl _), h₆⟩

end Hushed

namespace Sound

variable {runtime : Runtime} {unsettled : Option ℕ} {w w' : World} {call : Call} {e : Event}

theorem frame (hs : Sound runtime unsettled w) (hsessions : w'.sessions = w.sessions)
    (hobjects : w'.objects = w.objects) (htickets : w'.tickets = w.tickets)
    (hreservations : w'.reservations = w.reservations)
    (hepoch : w'.verificationEpoch = w.verificationEpoch)
    (hemergencies : w'.emergencies = w.emergencies) (hsockets : w'.sockets = w.sockets)
    (hhistory : w'.history = w.history) : Sound runtime unsettled w' where
  lawful := hhistory ▸ hs.lawful
  registry := by
    rw [hsessions, hobjects, hhistory]
    exact hs.registry
  ticketing := by
    rw [hsessions, htickets, hhistory]
    exact hs.ticketing
  epoch := by rw [hepoch, hhistory, hs.epoch]
  capacity := by
    refine hs.capacity.shrink (hsessions ▸ List.Sublist.refl _) (fun u ↦ ?_) hreservations fun u ↦ ?_
    · funext guid
      rw [World.owns, World.owns, hobjects]
    · rw [hhistory]
  backlog := by
    rw [hemergencies, hhistory]
    exact hs.backlog
  switchboard := by
    rw [hsessions, hobjects, hsockets, hhistory]
    exact hs.switchboard

/-- Record an event that no state shows. -/
theorem note (hs : Sound runtime unsettled w) (hlaw : law runtime w.history (call, e))
    (hq : e.quiet = true) : Sound runtime unsettled (w.note call e) where
  lawful := lawful_cons.mpr ⟨hlaw, hs.lawful⟩
  registry := by
    refine hs.registry.note ?_
    cases e <;> first | rfl | cases hq
  ticketing := by
    refine hs.ticketing.note (fun s a b he ↦ ?_) fun hash t he ↦ ?_ <;> rw [he] at hq <;> cases hq
  epoch := by
    refine hs.epoch.trans (timeouts_note ?_).symm
    rintro rfl
    cases hq
  capacity := by
    refine hs.capacity.note (fun u he ↦ ?_) fun u he ↦ ?_ <;> rw [he] at hq <;> cases hq
  backlog := by
    refine hs.backlog.note fun closed he ↦ ?_
    rw [he] at hq
    cases hq
  switchboard := by
    refine hs.switchboard.note ?_
    cases e <;> first | rfl | cases hq

/-- The sockets of a channel that stops leave the session they are attached to. -/
theorem mem_detach {ch ch' : ℕ} {detach : Option String} {guid : String} {session' : Session}
    (ho : w.detach ch detach guid = some session') (hm : ch' ∈ session'.sockets) :
    ∃ session, w.objects guid = some session ∧ ch' ∈ session.sockets := by
  cases detach with
  | none => exact ⟨session', ho, hm⟩
  | some g =>
    obtain ⟨session, hobj, rfl⟩ := change_eq_some.mp ho
    refine ⟨session, hobj, ?_⟩
    split at hm
    · exact List.mem_of_mem_erase hm
    · exact hm

theorem owns_change {w : World} {f : Session → Session} {guid user : String}
    (hf : ∀ session, (f session).actor = session.actor) :
    { w with objects := update w.objects guid ((w.objects guid).map f) }.owns user = w.owns user := by
  funext g
  by_cases hg : g = guid
  · subst hg
    simp only [World.owns, update_self]
    cases w.objects g with
    | none => rfl
    | some session => simp only [Option.map_some, Option.any_some, hf]
  · simp only [World.owns, update_of_ne hg]

theorem modify (hs : Sound runtime unsettled w) {guid : String} {f : Session → Session}
    (hsame : ∀ session, (f session).SameAs session)
    (hactive : ∀ session, (f session).active = session.active)
    (hrelay : ∀ session, (f session).relayUuid = session.relayUuid)
    (hsockets : ∀ session, (f session).sockets ⊆ session.sockets) :
    Sound runtime unsettled (w.modify guid f) :=
  { hs with
    registry := hs.registry.modify hsame hactive hrelay
    capacity := hs.capacity.shrink (List.Sublist.refl _) (fun _ ↦ owns_change fun s ↦ (hsame s).actor) rfl
      fun _ ↦ rfl
    switchboard := hs.switchboard.modify hsockets }

/-- What the law asks of a stop with a given cause. -/
def Causes (h : History) (ch : ℕ) : Cause → Prop
  | .handoff => HandedOff h ch ∧ ∃ claim, Claimed h ch claim ∧ claim.phase = .rendezvous
  | .invalidated => ∃ claim, Claimed h ch claim ∧ Ended h claim.sessionGuid
  | _ => True

theorem Causes.law {h : History} {ch : ℕ} {cause : Cause} {reason : Reason} (hc : Causes h ch cause)
    (hn : ¬Stopped h ch) : law runtime h (call, .stopped ch reason cause) := by
  cases cause with
  | ordinary | shutdown => exact ⟨hn, trivial⟩
  | handoff | invalidated => exact ⟨hn, hc⟩

theorem stopChannel (hs : Sound runtime unsettled w) {ch : ℕ} {reason : Reason} {cause : Cause}
    (hcause : Causes w.history ch cause)
    (horphaned : unsettled ≠ some ch → ∀ claim, Claimed w.history ch claim →
      claim.sessionGuid ∉ w.sessions ∨ cause = .handoff ∨ cause = .shutdown) :
    Sound runtime unsettled (w.stopChannel call ch reason cause) := by
  unfold World.stopChannel
  split
  · exact hs
  · rename_i socket hsock
    have htr := hs.switchboard.traffic ch socket hsock
    split
    · exact hs
    · rename_i hrun
      have hn : ¬Stopped w.history ch := fun hst ↦ hrun (htr.stopped.mpr hst)
      have hself : ∀ k, StoppedBy ((call, .stopped ch reason k) :: w.history) ch k :=
        fun k ↦ ⟨call, reason, .head _⟩
      refine ⟨lawful_cons.mpr ⟨hcause.law hn, hs.lawful⟩, ?_, hs.ticketing.note (by simp) (by simp),
        hs.epoch.trans (timeouts_note (by simp)).symm, ?_, hs.backlog.note (by simp), ?_⟩
      · refine Registry.note rfl ?_
        cases hd : socket.detach with
        | none =>
          simp only [World.note, World.detach]
          exact hs.registry
        | some guid =>
          simp only [World.note, World.detach]
          exact hs.registry.modify (fun s ↦ ⟨rfl, rfl, rfl, rfl, rfl, rfl⟩) (fun _ ↦ rfl) fun _ ↦ rfl
      · refine hs.capacity.shrink (List.Sublist.refl _) (fun u ↦ ?_) rfl fun u ↦
          outstanding_note (by simp) (by simp)
        cases hd : socket.detach with
        | none => rfl
        | some guid => exact owns_change fun _ ↦ rfl
      · have hsw : Switchboard unsettled w.sessions (w.detach ch socket.detach) w.sockets
            w.history := hs.switchboard.change fun guid session' ho ch' hm ↦ mem_detach ho hm
        refine hsw.event rfl htr.stop (fun _ ↦ .of_stopped ⟨cause, hself cause⟩) fun hu claim _ hc ↦ ?_
        rcases horphaned hu claim ((claimed_note (by simp)).mp hc) with hg | rfl | rfl
        · exact .inl hg
        · exact .inr (.inl (hself .handoff))
        · exact .inr (.inr (hself .shutdown))

theorem closeSockets (hs : Sound runtime unsettled w) {item : Closed}
    (he : Ended w.history item.guid) : Sound runtime unsettled (w.closeSockets call item) := by
  have hfold : ∀ (chs : List ℕ) (w : World), Sound runtime unsettled w → Ended w.history item.guid →
      (∀ ch ∈ chs, ∃ claim, Claimed w.history ch claim ∧ claim.sessionGuid = item.guid) →
      Sound runtime unsettled
        (chs.foldl (fun w ch ↦ w.stopChannel call ch item.reason .invalidated) w) := by
    intro chs
    induction chs with
    | nil => exact fun w hs _ _ ↦ hs
    | cons ch chs ih =>
      intro w hs he hchs
      obtain ⟨claim, hc, hg⟩ := hchs ch (.head _)
      have hsuf : w.history <:+ (w.stopChannel call ch item.reason .invalidated).history :=
        Hushed.stopChannel.adds.suffix
      refine ih _ (hs.stopChannel ⟨claim, hc, hg ▸ he⟩ fun _ claim' hc' ↦ .inl fun hm ↦ ?_)
        (he.mono hsuf) fun ch' hm ↦ ?_
      · rw [claimed_unique hs.lawful hc' hc, hg] at hm
        exact ((hs.registry.live _).mp hm).2 he
      · obtain ⟨claim', hc', hg'⟩ := hchs ch' (.tail _ hm)
        exact ⟨claim', hc'.mono hsuf, hg'⟩
  refine (hfold _ w hs he fun ch hm ↦ ?_).modify (fun s ↦ ⟨rfl, rfl, rfl, rfl, rfl, rfl⟩)
    (fun _ ↦ rfl) (fun _ ↦ rfl) fun s ↦ List.nil_subset _
  cases ho : w.objects item.guid with
  | none =>
    rw [ho] at hm
    cases hm
  | some session =>
    rw [ho] at hm
    exact hs.switchboard.attached item.guid session ho ch hm

/-- A session object keeps the hashes of the tickets that were issued with it. -/
theorem holdsTicket (hs : Sound runtime unsettled w) {hash guid : String} {phase : Phase}
    (hi : Issued w.history hash guid phase) : w.holdsTicket guid hash = true := by
  obtain ⟨session, hobj⟩ := hs.registry.started guid hi.started
  obtain ⟨c, s, a, b, hm, hg, hsame⟩ := (hs.registry.object guid session hobj).started
  obtain ⟨earlier, -, -, -, -, hhashes, -⟩ := hs.lawful.of_mem hm
  have hmem : hash ∈ s.ticketHashes := by
    rw [hhashes]
    cases hi with
    | rendezvous hm' hg' =>
      obtain ⟨-, -, rfl, -⟩ := started_unique hs.lawful hm' hm (hg'.trans hg.symm)
      exact .head _
    | relay hm' hg' =>
      obtain ⟨-, -, -, rfl⟩ := started_unique hs.lawful hm' hm (hg'.trans hg.symm)
      exact .tail _ (.head _)
  rw [World.holdsTicket, hobj, Option.any_some, decide_eq_true_eq, hsame.ticketHashes]
  exact hmem

theorem remove (hs : Sound runtime unsettled w) {closed : List Closed}
    (hnodup : (closed.map (·.guid)).Nodup) (hlive : ∀ item ∈ closed, item.guid ∈ w.sessions)
    (hfamily : ∀ guid ∈ w.sessions, guid ∉ closed.map (·.guid) → ∀ session,
      w.objects guid = some session → ∀ parent ∈ closed.map (·.guid),
        session.parentGuid ≠ some parent) :
    Sound runtime unsettled (w.remove call closed) where
  lawful := lawful_cons.mpr
    ⟨⟨hnodup, fun item hm ↦ (hs.registry.live _).mp (hlive item hm)⟩, hs.lawful⟩
  registry := hs.registry.remove hfamily
  ticketing := by
    refine hs.ticketing.remove fun hash ticket ht hg ↦ ?_
    exact List.any_eq_true.mpr ⟨_, hg, hs.holdsTicket (hs.ticketing hash ticket ht).2.1⟩
  epoch := hs.epoch.trans (timeouts_note (by simp)).symm
  capacity := hs.capacity.shrink List.filter_sublist (fun _ ↦ rfl) rfl fun _ ↦
    outstanding_note (by simp) (by simp)
  backlog := hs.backlog.note (by simp)
  switchboard := (hs.switchboard.shrink List.filter_sublist.subset).note rfl

end Sound

theorem wanes_remove {w : World} {call : Call} {closed : List Closed} :
    Wanes w (w.remove call closed) := by
  refine ⟨fun hash ticket hm ↦ ?_, fun guid session hm ↦ ⟨session, hm, Nat.le_refl _⟩⟩
  simp only [World.remove, World.note] at hm
  split at hm
  · cases hm
  · exact hm

/-- The events of a block that ends sessions. -/
def Event.closing : Event → Bool
  | .ended _ | .stopped .. => true
  | _ => false

/-- What such a block does: the sessions go from the map, and channels stop. -/
structure Invalidated (call : Call) (closed : List Closed) (w w' : World) : Prop where
  nodup : (closed.map (·.guid)).Nodup
  live : ∀ item ∈ closed, item.guid ∈ w.sessions
  ended : ∀ item ∈ closed, Ended w'.history item.guid
  sessions : w'.sessions = w.sessions.filter fun guid ↦ guid ∉ closed.map (·.guid)
  pendingTimeouts : w'.pendingTimeouts = w.pendingTimeouts
  emergencies : w'.emergencies = w.emergencies
  channels : w'.channels = w.channels
  wanes : Wanes w w'
  adds : Adds (fun x ↦ x.1 = call ∧ x.2.closing = true) w.history w'.history

/-- Sessions that may go together: a session that stays is no child of one of them. -/
structure Closable (w : World) (items : List String) : Prop where
  nodup : (items.filter (· ∈ w.sessions)).Nodup
  family : ∀ guid ∈ w.sessions, guid ∉ items → ∀ session, w.objects guid = some session →
    ∀ parent ∈ items, parent ∈ w.sessions → session.parentGuid ≠ some parent

namespace Sound

variable {runtime : Runtime} {unsettled : Option ℕ} {w : World} {items : List String}

theorem invalidate (hs : Sound runtime unsettled w) (hc : Closable w items) (call : Call)
    (reason : String → Reason) :
    Sound runtime unsettled (w.invalidate call items reason).1 ∧
      Invalidated call (w.invalidate call items reason).2 w (w.invalidate call items reason).1 := by
  have hguids : (w.invalidate call items reason).2.map (·.guid) = items.filter (· ∈ w.sessions) := by
    simp only [World.invalidate, List.map_map, Function.comp_def, List.map_id']
  generalize hr : (w.invalidate call items reason).2 = closed at hguids
  have hw : (w.invalidate call items reason).1 =
      closed.foldl (fun w item ↦ w.closeSockets call item) (w.remove call closed) := by
    rw [← hr]
    rfl
  have hmem : ∀ guid, guid ∈ closed.map (·.guid) ↔ guid ∈ items ∧ guid ∈ w.sessions := by
    intro guid
    rw [hguids, List.mem_filter, decide_eq_true_eq]
  have hlive : ∀ item ∈ closed, item.guid ∈ w.sessions := fun item hm ↦
    ((hmem _).mp (List.mem_map_of_mem hm)).2
  have hremove : Sound runtime unsettled (w.remove call closed) := by
    refine hs.remove (hguids ▸ hc.nodup) hlive fun guid hg hn session ho parent hp ↦ ?_
    obtain ⟨hpi, hps⟩ := (hmem parent).mp hp
    exact hc.family guid hg (fun hi ↦ hn ((hmem guid).mpr ⟨hi, hg⟩)) session ho parent hpi hps
  have hfold : ∀ (rest : List Closed) (w : World), Sound runtime unsettled w →
      (∀ item ∈ rest, Ended w.history item.guid) →
      Sound runtime unsettled (rest.foldl (fun w item ↦ w.closeSockets call item) w) ∧
        Hushed call w (rest.foldl (fun w item ↦ w.closeSockets call item) w) := by
    intro rest
    induction rest with
    | nil => exact fun w hs _ ↦ ⟨hs, .refl w⟩
    | cons item rest ih =>
      intro w hs he
      have hh : Hushed call w (w.closeSockets call item) := .closeSockets
      obtain ⟨hs', hh'⟩ := ih _ (hs.closeSockets (he item (.head _))) fun item' hm ↦
        (he item' (.tail _ hm)).mono hh.adds.suffix
      exact ⟨hs', hh.trans hh'⟩
  obtain ⟨hsound, hhush⟩ := hfold closed _ hremove fun item hm ↦
    ended_ended.mpr (.inl (List.mem_map_of_mem hm))
  rw [hw]
  refine ⟨hsound, hguids ▸ hc.nodup, hlive, fun item hm ↦ ?_, hhush.sessions, hhush.pendingTimeouts,
    hhush.emergencies, hhush.channels, wanes_remove.trans hhush.wanes, ?_⟩
  · have hended : Ended (w.remove call closed).history item.guid :=
      ended_ended.mpr (.inl (List.mem_map_of_mem hm))
    exact hended.mono hhush.adds.suffix
  · have hfirst : Adds (fun x ↦ x.1 = call ∧ x.2.closing = true) w.history
        (w.remove call closed).history := (Adds.refl _).cons ⟨rfl, rfl⟩
    refine hfirst.trans (hhush.adds.mono ?_)
    rintro _ ⟨channel, reason, cause, rfl⟩
    exact ⟨rfl, rfl⟩

theorem closable_all (hs : Sound runtime unsettled w) : Closable w w.sessions :=
  ⟨hs.registry.nodup.filter _, fun _ hg hn ↦ absurd hg hn⟩

theorem guid_ne_empty (hs : Sound runtime unsettled w) {guid : String} (hg : guid ∈ w.sessions) :
    guid ≠ "" := by
  have hu := started_isUuid hs.lawful ((hs.registry.live guid).mp hg).1
  rintro rfl
  exact absurd hu (by decide)

/-- A parent is a desktop session, and has no parent of its own. -/
theorem parentless (hs : Sound runtime unsettled w) {guid parent : String} {session : Session}
    (hg : guid ∈ w.sessions) (ho : w.objects guid = some session) (hp : parent ∈ w.sessions)
    (hpar : session.parentGuid = some parent) : ∃ object, w.objects parent = some object ∧
      truthy object.parentGuid = none := by
  have hne : truthy session.parentGuid ≠ none := by
    rw [hpar, truthy, Option.filter_some, decide_eq_true (hs.guid_ne_empty hp)]
    exact nofun
  cases hk : session.kind with
  | desktop => exact absurd (hs.registry.desktop guid session ho hk) hne
  | file =>
    cases hs.registry.child guid hg session ho hk with
    | @intro p object hp' _ hobj hkind _ _ _ =>
      obtain rfl := Option.some.inj (hpar.symm.trans hp')
      exact ⟨object, hobj, hs.registry.desktop parent object hobj hkind⟩

theorem mem_family {guid child : String} : child ∈ w.family guid ↔ child = guid ∨
    child ∈ w.sessions ∧ ∃ session, w.objects child = some session ∧
      session.parentGuid = some guid := by
  simp only [World.family, List.mem_cons, List.mem_filter, Option.any_eq_true, decide_eq_true_eq]

theorem closable_family (hs : Sound runtime unsettled w) {guid : String} (hg : guid ∈ w.sessions) :
    Closable w (w.family guid) := by
  have hself : ∀ session, w.objects guid = some session → session.parentGuid ≠ some guid := by
    intro session ho hpar
    obtain ⟨object, ho', hn⟩ := hs.parentless hg ho hg hpar
    obtain rfl := Option.some.inj (ho.symm.trans ho')
    rw [hpar, truthy, Option.filter_some, decide_eq_true (hs.guid_ne_empty hg)] at hn
    cases hn
  refine ⟨List.Nodup.filter _ (List.nodup_cons.mpr ⟨fun hm ↦ ?_, hs.registry.nodup.filter _⟩),
    fun child hc hn session ho parent hp hps hpar ↦ ?_⟩
  · obtain ⟨-, hany⟩ := List.mem_filter.mp hm
    obtain ⟨session, ho, hp⟩ := (Option.any_eq_true _ _).mp hany
    exact hself session ho (of_decide_eq_true hp)
  · rcases mem_family.mp hp with rfl | ⟨-, object, hobj, hpp⟩
    · exact hn (mem_family.mpr (.inr ⟨hc, session, ho, hpar⟩))
    · obtain ⟨object', hobj', hnone⟩ := hs.parentless hc ho hps hpar
      obtain rfl := Option.some.inj (hobj.symm.trans hobj')
      rw [hpp, truthy, Option.filter_some, decide_eq_true (hs.guid_ne_empty hg)] at hnone
      cases hnone

end Sound

end RustdeskConsole.Gateway
