import RustdeskConsole.Gateway.Invalidation

namespace RustdeskConsole.Gateway

open Effects Effects.History Function Collections WebClient

/-- The events that mark no progress of the call itself. -/
def Event.calm : Event → Bool
  | .timedOut | .confirmed _ | .ended _ | .handed _ | .stopped .. => true
  | .recorded _ audit => decide (audit ≠ .gatewayOpen)
  | _ => false

def Event.Calm (e : Event) : Prop := e.calm = true

theorem Event.calm_of_closing {e : Event} (he : e.closing = true) : e.calm = true := by
  cases e with
  | ended | stopped => rfl
  | _ => cases he

/-- The events of a verification timeout. -/
def Event.expiring : Event → Bool
  | .timedOut | .ended _ | .stopped .. => true
  | _ => false

theorem Event.expiring_of_closing {e : Event} (he : e.closing = true) : e.expiring = true := by
  cases e with
  | ended | stopped => rfl
  | _ => cases he

theorem Event.calm_of_expiring {e : Event} (he : e.expiring = true) : e.Calm := by
  cases e with
  | timedOut | ended | stopped => rfl
  | _ => cases he

/-- A block that leaves events of `P`, and may end sessions whose termination
records it leaves to its call. -/
structure Closes (call : Call) (P : Event → Prop) (closed : List Closed) (w w' : World) : Prop where
  sessions : w'.sessions.Sublist w.sessions
  pendingTimeouts : w'.pendingTimeouts = w.pendingTimeouts
  wanes : Wanes w w'
  adds : Adds (fun x ↦ x.1 = call ∧ P x.2) w.history w'.history
  handed : closed = [] ∨ ∃ earlier, w'.history = (call, .handed closed) :: earlier

theorem Closes.refl {call : Call} {P : Event → Prop} (w : World) : Closes call P [] w w :=
  ⟨List.Sublist.refl _, rfl, .refl w, .refl _, .inl rfl⟩

theorem Suspended.shrink {w w' : World} (hs : Suspended w) (hsub : w'.sessions.Sublist w.sessions)
    (hp : w'.pendingTimeouts ≠ [] → w.pendingTimeouts ≠ []) : Suspended w' := by
  intro hne
  have hsub' := hsub
  rw [hs (hp hne)] at hsub'
  exact List.sublist_nil.mp hsub'

namespace Closes

variable {call : Call} {P Q : Event → Prop} {closed : List Closed} {w w' w'' : World}

theorem suspended (hc : Closes call P closed w w') (hs : Suspended w) : Suspended w' :=
  hs.shrink hc.sessions fun hne ↦ hc.pendingTimeouts ▸ hne

theorem mono (hc : Closes call P closed w w') (hPQ : ∀ e, P e → Q e) :
    Closes call Q closed w w' :=
  { hc with adds := hc.adds.mono fun _ hx ↦ ⟨hx.1, hPQ _ hx.2⟩ }

theorem after (hc : Closes call P closed w' w'') (hs : w'.sessions = w.sessions)
    (hp : w'.pendingTimeouts = w.pendingTimeouts) (hw : Wanes w w')
    (ha : Adds (fun x ↦ x.1 = call ∧ P x.2) w.history w'.history) : Closes call P closed w w'' :=
  ⟨hs ▸ hc.sessions, hc.pendingTimeouts.trans hp, hw.trans hc.wanes, ha.trans hc.adds, hc.handed⟩

theorem after_hushed (hc : Closes call Event.Calm closed w' w'') (hh : Hushed call w w') :
    Closes call Event.Calm closed w w'' := by
  refine hc.after hh.sessions hh.pendingTimeouts hh.wanes (hh.adds.mono ?_)
  rintro _ ⟨channel, reason, cause, rfl⟩
  exact ⟨rfl, rfl⟩

end Closes

namespace Invalidated

variable {call : Call} {closed : List Closed} {w w' : World}

theorem calm (hi : Invalidated call closed w w') :
    Adds (fun x ↦ x.1 = call ∧ x.2.Calm) w.history w'.history :=
  hi.adds.mono fun _ hx ↦ ⟨hx.1, Event.calm_of_closing hx.2⟩

theorem sublist (hi : Invalidated call closed w w') : w'.sessions.Sublist w.sessions := by
  rw [hi.sessions]
  exact List.filter_sublist

theorem handed (hi : Invalidated call closed w w') {guid : String} (hh : Handed w'.history guid) :
    Handed w.history guid := by
  obtain ⟨c, items, hm, hg⟩ := hh
  rcases hi.adds.new _ hm with hm | ⟨-, hc⟩
  · exact ⟨c, items, hm, hg⟩
  · cases hc

end Invalidated

namespace Sound

variable {runtime : Runtime} {unsettled : Option ℕ} {w w' : World} {call : Call}
  {closed : List Closed}

/-- The sessions that a block ended are new to the backlog and to every call. -/
theorem fresh_closed (hs : Sound runtime unsettled w) (hi : Invalidated call closed w w') :
    (∀ item ∈ closed, Ended w'.history item.guid ∧ ¬Handed w'.history item.guid) ∧
      ∀ item ∈ w.emergencies.flatten, item.guid ∉ closed.map (·.guid) := by
  have hlive : ∀ item ∈ closed, ¬Ended w.history item.guid := fun item hm ↦
    ((hs.registry.live _).mp (hi.live item hm)).2
  refine ⟨fun item hm ↦ ⟨hi.ended item hm, fun hh ↦ ?_⟩, fun item hm hc ↦ ?_⟩
  · exact hlive item hm (handed_ended hs.lawful (hi.handed hh))
  · obtain ⟨item', hm', hg⟩ := List.mem_map.mp hc
    exact hlive item' hm' (hg ▸ (hs.backlog.2 item hm).1)

/-- The termination records are handed to the call. -/
theorem hand (hs : Sound runtime unsettled w) (hs' : Sound runtime unsettled w')
    (hi : Invalidated call closed w w') : Sound runtime unsettled (w'.note call (.handed closed)) where
  lawful := lawful_cons.mpr ⟨⟨hi.nodup, (hs.fresh_closed hi).1⟩, hs'.lawful⟩
  registry := hs'.registry.note rfl
  ticketing := hs'.ticketing.note (by simp) (by simp)
  epoch := hs'.epoch.trans (timeouts_note (by simp)).symm
  capacity := hs'.capacity.note (by simp) (by simp)
  backlog := hs'.backlog.hand fun item hm ↦ (hs.fresh_closed hi).2 item (hi.emergencies ▸ hm)
  switchboard := hs'.switchboard.note rfl

theorem closes_hand (hi : Invalidated call closed w w') :
    Closes call Event.Calm closed w (w'.note call (.handed closed)) :=
  ⟨hi.sublist, hi.pendingTimeouts, hi.wanes.trans (.of_eq rfl rfl), hi.calm.cons ⟨rfl, rfl⟩,
    .inr ⟨_, rfl⟩⟩

theorem closeGrant (hs : Sound runtime unsettled w) (call : Call) (guid : String)
    (reason : Reason) :
    Sound runtime unsettled (w.closeGrant call guid reason).1 ∧
      Closes call Event.Calm (w.closeGrant call guid reason).2 w (w.closeGrant call guid reason).1 ∧
      guid ∉ (w.closeGrant call guid reason).1.sessions := by
  unfold World.closeGrant
  split
  · rename_i hg
    obtain ⟨hs', hi⟩ := hs.invalidate (hs.closable_family hg) call fun item ↦
      if item = guid then reason else .parentClosed
    refine ⟨hs.hand hs' hi, closes_hand hi, fun hm ↦ ?_⟩
    have hmem : guid ∈ (w.invalidate call (w.family guid) fun item ↦
        if item = guid then reason else .parentClosed).1.sessions := hm
    rw [hi.sessions, List.mem_filter, decide_eq_true_eq] at hmem
    apply hmem.2
    simp only [World.invalidate, List.map_map, Function.comp_def, List.map_id', List.mem_filter,
      decide_eq_true_eq, mem_family]
    exact ⟨.inl trivial, hg⟩
  · rename_i hg
    exact ⟨hs, .refl w, hg⟩

theorem unsettle (hs : Sound runtime none w) (channel : ℕ) : Sound runtime (some channel) w :=
  { hs with switchboard := hs.switchboard.unsettle channel }

section Stop

variable {channel : ℕ} {socket : Channel} {reason : Reason} {cause : Cause}

theorem settle (hs : Sound runtime (some channel) w)
    (hset : ∀ socket, w.sockets channel = some socket → Settled w.history channel socket)
    (horphaned : ∀ claim, Stopped w.history channel → Claimed w.history channel claim →
      claim.sessionGuid ∉ w.sessions ∨ StoppedBy w.history channel .handoff ∨
        StoppedBy w.history channel .shutdown) : Sound runtime none w :=
  { hs with switchboard := hs.switchboard.settle hset horphaned }

/-- A block that stops its channel is done with it. -/
theorem settle_stopped (hs : Sound runtime (some channel) w) (hst : Stopped w.history channel)
    (horphaned : ∀ claim, Claimed w.history channel claim →
      claim.sessionGuid ∉ w.sessions ∨ StoppedBy w.history channel .handoff ∨
        StoppedBy w.history channel .shutdown) : Sound runtime none w :=
  hs.settle (fun _ _ ↦ .of_stopped hst) fun claim _ hc ↦ horphaned claim hc

theorem stopChannel_history (hsock : w.sockets channel = some socket)
    (hrun : socket.stopped = false) : (w.stopChannel call channel reason cause).history =
      (call, .stopped channel reason cause) :: w.history := by
  simp only [World.stopChannel, hsock, hrun, Bool.false_eq_true, if_false, World.note]

theorem stop_running (hs : Sound runtime (some channel) w) (hsock : w.sockets channel = some socket)
    (hrun : socket.stopped = false) (hcause : Causes w.history channel cause) :
    Sound runtime none (w.stop call channel reason cause).1 ∧
      Closes call Event.Calm (w.stop call channel reason cause).2 w (w.stop call channel reason cause).1 := by
  have hs' : Sound runtime (some channel) (w.stopChannel call channel reason cause) :=
    hs.stopChannel hcause fun hne ↦ absurd rfl hne
  have hhush : Hushed call w (w.stopChannel call channel reason cause) := .stopChannel
  have hh := @stopChannel_history w call channel socket reason cause hsock hrun
  have hby : StoppedBy (w.stopChannel call channel reason cause).history channel cause :=
    ⟨call, reason, hh ▸ .head _⟩
  have hclaimed : ∀ claim, Claimed (w.stopChannel call channel reason cause).history channel claim →
      socket.claim = some claim := by
    intro claim hc
    rw [hh, claimed_note (by simp)] at hc
    exact ((hs.switchboard.traffic channel socket hsock).claim claim).mpr hc
  have hstill : Closes call Event.Calm [] w (w.stopChannel call channel reason cause) :=
    Closes.after_hushed (.refl _) hhush
  simp only [World.stop, hsock, hrun, Bool.false_eq_true, if_false]
  cases cause with
  | ordinary =>
    cases hc : socket.claim with
    | none =>
      refine ⟨hs'.settle_stopped ⟨_, hby⟩ fun claim hk ↦ ?_, hstill⟩
      rw [hc] at hclaimed
      cases hclaimed claim hk
    | some claim =>
      obtain ⟨hs'', hcl, hgone⟩ := hs'.closeGrant call claim.sessionGuid reason
      refine ⟨hs''.settle_stopped ⟨_, hby.mono hcl.adds.suffix⟩ fun claim' hk ↦ .inl ?_,
        hcl.after_hushed hhush⟩
      have hold : Claimed (w.stopChannel call channel reason .ordinary).history channel claim' := by
        obtain ⟨c, hm⟩ := hk
        rcases hcl.adds.new _ hm with hm | ⟨-, hcalm⟩
        · exact ⟨c, hm⟩
        · cases hcalm
      obtain rfl := Option.some.inj (hc.symm.trans (hclaimed claim' hold))
      exact hgone
  | handoff => exact ⟨hs'.settle_stopped ⟨_, hby⟩ fun _ _ ↦ .inr (.inl hby), hstill⟩
  | shutdown => exact ⟨hs'.settle_stopped ⟨_, hby⟩ fun _ _ ↦ .inr (.inr hby), hstill⟩
  | invalidated =>
    refine ⟨hs'.settle_stopped ⟨_, hby⟩ fun claim hk ↦ .inl fun hm ↦ ?_, hstill⟩
    obtain ⟨claim', hc', he⟩ := hcause
    rw [claimed_unique hs'.lawful hk (hc'.mono hhush.adds.suffix)] at hm
    exact ((hs'.registry.live _).mp hm).2 (he.mono hhush.adds.suffix)

theorem stop (hs : Sound runtime none w) (call : Call) (channel : ℕ) (reason : Reason) (cause : Cause)
    (hcause : ∀ socket, w.sockets channel = some socket → socket.stopped = false →
      Causes w.history channel cause) :
    Sound runtime none (w.stop call channel reason cause).1 ∧
      Closes call Event.Calm (w.stop call channel reason cause).2 w (w.stop call channel reason cause).1 := by
  cases hsock : w.sockets channel with
  | none =>
    simp only [World.stop, hsock]
    exact ⟨hs, .refl w⟩
  | some socket =>
    cases hrun : socket.stopped with
    | true =>
      simp only [World.stop, hsock, hrun, if_true]
      exact ⟨hs, .refl w⟩
    | false => exact (hs.unsettle channel).stop_running hsock hrun (hcause socket hsock hrun)

theorem refuse (hs : Sound runtime none w) (call : Call) (channel : ℕ) (reason : Reason) :
    Sound runtime none (w.refuse call channel reason).1 ∧
    Closes call Event.Calm (w.refuse call channel reason).2 w (w.refuse call channel reason).1 :=
  hs.stop call channel reason .ordinary fun _ _ _ ↦ trivial

end Stop

section Deadline

/-- The timer of a verification fires. -/
theorem expire (hs : Sound runtime unsettled w) {symbol : ℕ ⊕ ℕ} :
    Sound runtime unsettled ({ w with
      pendingTimeouts := symbol :: w.pendingTimeouts
      verificationEpoch := w.verificationEpoch + 1 }.note call .timedOut) where
  lawful := lawful_cons.mpr ⟨trivial, hs.lawful⟩
  registry := hs.registry.note rfl
  ticketing := hs.ticketing.note (by simp) (by simp)
  epoch := by
    simp only [World.note, timeouts, List.countP_cons, decide_true, if_true]
    exact congrArg (· + 1) hs.epoch
  capacity := hs.capacity.shrink (List.Sublist.refl _) (fun _ ↦ rfl) rfl fun _ ↦
    outstanding_note (by simp) (by simp)
  backlog := hs.backlog.note (by simp)
  switchboard := hs.switchboard.note rfl

theorem timeOut (hs : Sound runtime unsettled w) (call : Call) (symbol : ℕ ⊕ ℕ) :
    Sound runtime unsettled (w.timeOut call symbol) ∧ (w.timeOut call symbol).sessions = [] ∧
      Wanes w (w.timeOut call symbol) ∧
      Adds (fun x ↦ x.1 = call ∧ x.2.expiring = true) w.history (w.timeOut call symbol).history := by
  have hs₁ : Sound runtime unsettled ({ w with
      pendingTimeouts := symbol :: w.pendingTimeouts
      verificationEpoch := w.verificationEpoch + 1 }.note call .timedOut) := hs.expire
  have hadds : Adds (fun x ↦ x.1 = call ∧ x.2.expiring = true) w.history ({ w with
      pendingTimeouts := symbol :: w.pendingTimeouts
      verificationEpoch := w.verificationEpoch + 1 }.note call .timedOut).history :=
    (Adds.refl _).cons ⟨rfl, rfl⟩
  have hwane : Wanes w ({ w with
      pendingTimeouts := symbol :: w.pendingTimeouts
      verificationEpoch := w.verificationEpoch + 1 }.note call .timedOut) := .of_eq rfl rfl
  unfold World.timeOut
  generalize { w with
      pendingTimeouts := symbol :: w.pendingTimeouts
      verificationEpoch := w.verificationEpoch + 1 }.note call .timedOut = w₁ at hs₁ hadds hwane
  obtain ⟨hs₂, hi⟩ := hs₁.invalidate hs₁.closable_all call fun _ ↦ .verificationTimeout
  have hnone : (w₁.invalidate call w₁.sessions fun _ ↦ .verificationTimeout).1.sessions = [] := by
    rw [hi.sessions, List.filter_eq_nil_iff]
    intro guid hg
    simp [World.invalidate, hg]
  have hadds₂ := hadds.trans (hi.adds.mono fun _ hx ↦ ⟨hx.1, Event.expiring_of_closing hx.2⟩)
  have hwane₂ := hwane.trans hi.wanes
  dsimp only
  split
  · exact ⟨hs₂, hnone, hwane₂, hadds₂⟩
  · refine ⟨{ hs₂ with capacity := ?_, backlog := ?_ }, hnone, hwane₂.trans (.of_eq rfl rfl), hadds₂⟩
    · exact hs₂.capacity.shrink (List.Sublist.refl _) (fun _ ↦ rfl) rfl fun _ ↦ rfl
    · rw [hi.emergencies]
      exact (hi.emergencies ▸ hs₂.backlog).enqueue hi.nodup (hs₁.fresh_closed hi).1
        (hs₁.fresh_closed hi).2

theorem withDeadline {α : Type} (hs : Sound runtime none w) (hsus : Suspended w) (call : Call)
    (o : Choice) (result : Except Failure α) : Sound runtime none (w.withDeadline call o result).1 ∧
      Suspended (w.withDeadline call o result).1 ∧ Wanes w (w.withDeadline call o result).1 ∧
      Adds (fun x ↦ x.1 = call ∧ x.2.expiring = true) w.history
        (w.withDeadline call o result).1.history := by
  unfold World.withDeadline
  split
  · obtain ⟨hs', hnone, hadds⟩ := hs.timeOut call (.inl w.verificationEpoch)
    exact ⟨hs', fun _ ↦ hnone, hadds⟩
  · exact ⟨hs, hsus, .refl w, .refl _⟩

theorem expireRound (hs : Sound runtime none w) (hsus : Suspended w) (call : Call) (round : ℕ) :
    Sound runtime none (w.expireRound call round) ∧ Suspended (w.expireRound call round) ∧
      Wanes w (w.expireRound call round) ∧
      Adds (fun x ↦ x.1 = call ∧ x.2.expiring = true) w.history
        (w.expireRound call round).history := by
  unfold World.expireRound
  split
  · obtain ⟨hs', hnone, hwane, hadds⟩ := hs.timeOut call (.inr round)
    exact ⟨hs'.frame rfl rfl rfl rfl rfl rfl rfl rfl, fun _ ↦ hnone,
      hwane.trans (.of_eq rfl rfl), hadds⟩
  · exact ⟨hs, hsus, .refl w, .refl _⟩

theorem takeEmergency (hs : Sound runtime none w) :
    Sound runtime none (w.takeEmergency call).1 ∧
      Closes call Event.Calm (w.takeEmergency call).2 w (w.takeEmergency call).1 := by
  unfold World.takeEmergency
  split
  · exact ⟨hs, .refl w⟩
  · rename_i closed rest he
    have hb := he ▸ hs.backlog
    have hnodup : (closed.map (·.guid)).Nodup := by
      have hall := hb.1
      rw [List.flatten_cons, List.map_append, List.nodup_append] at hall
      exact hall.1
    have hclosed : ∀ item ∈ closed, Ended w.history item.guid ∧ ¬Handed w.history item.guid := by
      intro item hm
      exact hb.2 item (List.mem_flatten.mpr ⟨closed, .head _, hm⟩)
    refine ⟨⟨lawful_cons.mpr ⟨⟨hnodup, hclosed⟩, hs.lawful⟩, hs.registry.note rfl,
      hs.ticketing.note (by simp) (by simp), hs.epoch.trans (timeouts_note (by simp)).symm, ?_,
      hb.take, hs.switchboard.note rfl⟩, ⟨List.Sublist.refl _, rfl, .of_eq rfl rfl,
      (Adds.refl _).cons ⟨rfl, rfl⟩,
      .inr ⟨_, rfl⟩⟩⟩
    exact hs.capacity.shrink (List.Sublist.refl _) (fun _ ↦ rfl) rfl fun _ ↦
      outstanding_note (by simp) (by simp)

theorem shutdown (hs : Sound runtime none w) :
    Sound runtime none (w.shutdown call).1 ∧
      Closes call Event.Calm (w.shutdown call).2 w (w.shutdown call).1 := by
  have hs₁ : Sound runtime none { w with stopped := true } := hs.frame rfl rfl rfl rfl rfl rfl rfl rfl
  obtain ⟨hs', hi⟩ := hs₁.invalidate hs₁.closable_all call fun _ ↦ .applicationShutdown
  have hw : Wanes w { w with stopped := true } := .of_eq rfl rfl
  exact ⟨hs₁.hand hs' hi, (closes_hand hi).after rfl rfl hw (.refl _)⟩

end Deadline

end Sound

end RustdeskConsole.Gateway
