import RustdeskConsole.Effects.Logic
import RustdeskConsole.Gateway.ChannelSteps

namespace RustdeskConsole.Gateway

open Effects Effects.History Effects.Guard Function Collections WebClient

/-- Time only shortens the life of sessions and tickets; a new session brings new tickets. -/
structure Ages (call : Call) (w w' : World) : Prop where
  tickets : ∀ hash ticket, w'.tickets hash = some ticket → w.tickets hash = some ticket ∨
    ∃ session rendezvous relay, (call, .started session rendezvous relay) ∈ w'.history ∧
      (call, .started session rendezvous relay) ∉ w.history ∧ (hash = rendezvous ∨ hash = relay)
  objects : ∀ guid session, w.objects guid = some session →
    ∃ session', w'.objects guid = some session' ∧ session'.expiresAt ≤ session.expiresAt

theorem Wanes.ages {call : Call} {w w' : World} (hw : Wanes w w') : Ages call w w' :=
  ⟨fun hash ticket hm ↦ .inl (hw.tickets hash ticket hm), hw.objects⟩

/-- What a guarded command keeps, and what it leaves behind. -/
structure Keeps (runtime : Runtime) (call : Call) (c : Command) (w : World)
    (x : World × Option (Reply c)) : Prop where
  sound : Sound runtime none x.1
  suspended : Suspended x.1
  ages : Ages call w x.1
  adds : Adds (fun e ↦ e.1 = call ∧ c.Leaves e.2) w.history x.1.history
  handed : ∀ r, x.2 = some r → c.closed r = [] ∨
    ∃ earlier, x.1.history = (call, .handed (c.closed r)) :: earlier

/-- A command that leaves the sessions in their place. -/
structure Frame (call : Call) (c : Command) (w w' : World) : Prop where
  sessions : w'.sessions = w.sessions
  pendingTimeouts : w'.pendingTimeouts = w.pendingTimeouts
  wanes : Wanes w w'
  adds : Adds (fun e ↦ e.1 = call ∧ c.Leaves e.2) w.history w'.history

theorem Frame.refl {call : Call} {c : Command} (w : World) : Frame call c w w :=
  ⟨rfl, rfl, .refl w, .refl _⟩

/-- A command that leaves the tickets and the session objects as well. -/
theorem Frame.of_eq {call : Call} {c : Command} {w w' : World} (hs : w'.sessions = w.sessions)
    (hp : w'.pendingTimeouts = w.pendingTimeouts) (ht : w'.tickets = w.tickets)
    (ho : w'.objects = w.objects) (hh : w'.history = w.history) : Frame call c w w' :=
  ⟨hs, hp, .of_eq ht ho, hh ▸ .refl _⟩

theorem Frame.note {call : Call} {c : Command} {w w' : World} {e : Event} (he : c.Leaves e)
    (hs : w'.sessions = w.sessions) (hp : w'.pendingTimeouts = w.pendingTimeouts) (hw : Wanes w w')
    (hh : w'.history = (call, e) :: w.history) : Frame call c w w' :=
  ⟨hs, hp, hw, hh ▸ (Adds.refl _).cons ⟨rfl, he⟩⟩

namespace Keeps

variable {runtime : Runtime} {call : Call} {c : Command} {w w' : World} {r : Reply c}
  {reply : Option (Reply c)}

theorem of_closes (h : Sound runtime none w' ∧ Closes call c.Leaves (c.closed r) w w')
    (hsus : Suspended w) : Keeps runtime call c w (w', some r) :=
  ⟨h.1, h.2.suspended hsus, h.2.wanes.ages, h.2.adds, fun r' hr ↦ by
    obtain rfl := Option.some.inj hr
    exact h.2.handed⟩

theorem of_calm (h : Sound runtime none w' ∧ Closes call Event.Calm (c.closed r) w w')
    (hsus : Suspended w) : Keeps runtime call c w (w', some r) :=
  of_closes ⟨h.1, h.2.mono fun _ ↦ .inr⟩ hsus

theorem of_step (hc : ∀ r, c.closed r = []) (hs : Sound runtime none w') (hsus : Suspended w')
    (hw : Ages call w w') (ha : Adds (fun e ↦ e.1 = call ∧ c.Leaves e.2) w.history w'.history) :
    Keeps runtime call c w (w', reply) :=
  ⟨hs, hsus, hw, ha, fun r _ ↦ .inl (hc r)⟩

theorem of_frame (hc : ∀ r, c.closed r = []) (hs : Sound runtime none w') (hsus : Suspended w)
    (hf : Frame call c w w') : Keeps runtime call c w (w', reply) :=
  of_step hc hs (hsus.shrink (hf.sessions ▸ List.Sublist.refl _) fun hne ↦ hf.pendingTimeouts ▸ hne)
    hf.wanes.ages hf.adds

/-- A command that only reads. -/
theorem of_read (hc : ∀ r, c.closed r = []) (hs : Sound runtime none w) (hsus : Suspended w) :
    Keeps runtime call c w (w, reply) :=
  of_frame hc hs hsus (.refl w)

end Keeps

section Frames

variable {w : World} {call : Call} {o : Choice} {guid : String} {now : ℕ}

theorem begin_frame : Frame call .begin w (w.begin call o).1 := by
  unfold World.begin
  split
  · exact .note (.inl rfl) rfl rfl (.of_eq rfl rfl) rfl
  · exact .refl w

theorem reserve_frame {user : String} : Frame call (.reserve user) w (w.reserve call user).1 := by
  unfold World.reserve
  split
  · exact .refl w
  · exact .note (.inl rfl) rfl rfl (.of_eq rfl rfl) rfl

theorem takeTicket_frame {value hash : String} :
    Frame call (.takeTicket value) w (w.takeTicket call now hash).1 := by
  unfold World.takeTicket
  split
  · exact .refl w
  · refine .note (.inl rfl) rfl rfl ⟨fun other ticket hm ↦ ?_, (Wanes.refl w).objects⟩ rfl
    have hm' : update w.tickets hash none other = some ticket := hm
    by_cases hh : other = hash
    · subst hh
      rw [update_self] at hm'
      cases hm'
    · rwa [update_of_ne hh] at hm'

theorem claimTicket_frame {value : String} {ticket : Ticket} :
    Frame call (.claimTicket value ticket) w (w.claimTicket call now value ticket).1 := by
  unfold World.claimTicket
  split
  · exact .refl w
  · exact .note (.inl rfl) rfl rfl (.of_eq rfl rfl) rfl

theorem confirm_frame {expiresAt : ℕ} :
    Frame call (.confirm guid expiresAt) w (w.confirm call now guid expiresAt).1 := by
  unfold World.confirm
  split
  · exact .refl w
  · have hwane : Wanes w (w.modify guid fun session ↦
        { session with expiresAt := min session.expiresAt expiresAt }) :=
      .of_change rfl rfl fun session ↦ Nat.min_le_left session.expiresAt expiresAt
    dsimp only
    split
    · exact ⟨rfl, rfl, hwane, .refl _⟩
    · exact .note (e := .confirmed guid) (.inr rfl) rfl rfl (hwane.trans (.of_eq rfl rfl)) rfl

theorem activate_frame : Frame call (.activate guid) w (w.activate call now guid).1 := by
  unfold World.activate
  split
  · exact .refl w
  · exact .note (.inl rfl) rfl rfl (.of_change rfl rfl fun _ ↦ Nat.le_refl _) rfl

theorem countReport_frame : Frame call (.countReport guid) w (w.countReport now guid).1 := by
  have hwane : Wanes w (w.modify guid fun session ↦
      if now - session.reportWindow ≥ 1000 then
        { session with reportWindow := now, windowReports := 0 }
      else session) := by
    refine .of_change rfl rfl fun session ↦ ?_
    split <;> exact Nat.le_refl _
  unfold World.countReport
  dsimp only
  split
  · exact ⟨rfl, rfl, hwane, .refl _⟩
  · exact ⟨rfl, rfl, hwane.trans (.of_change rfl rfl fun _ ↦ Nat.le_refl _), .refl _⟩

theorem beginRound_frame : Frame call .beginRound w w.beginRound.1 := by
  unfold World.beginRound
  split
  · exact .refl w
  · exact .of_eq rfl rfl rfl rfl rfl

theorem purgeTickets_frame : Frame call .purgeTickets w (w.purgeTickets now).1 := by
  refine ⟨rfl, rfl, ⟨fun hash ticket hm ↦ ?_, (Wanes.refl w).objects⟩, .refl _⟩
  exact (Option.filter_eq_some_iff.mp hm).1

theorem upgrade_frame {channel : ℕ} {origin : Option String} :
    Frame call (.upgrade channel origin) w (w.upgrade channel origin) := by
  unfold World.upgrade
  split
  · exact .refl w
  · split
    · exact .refl w
    · exact .of_eq rfl rfl rfl rfl rfl

theorem connect_frame {channel : ℕ} : Frame call (.connect channel) w (w.connect channel).1 := by
  unfold World.connect
  split
  · exact .refl w
  · split
    · exact .refl w
    · exact .of_eq rfl rfl rfl rfl rfl

end Frames

section Blocks

variable {runtime : Runtime} {w : World} {call : Call} {o : Choice}

theorem startSession_ages {session : Session} {parent : Option String} {epoch expiresAt : ℕ}
    {w' : World} (hs : Sound runtime none w)
    (hg : guard runtime call (.startSession session parent epoch) w) (rendezvous relay : String)
    (ht : w'.tickets = update (update w.tickets rendezvous
      (some ⟨session.guid, .rendezvous, expiresAt⟩)) relay (some ⟨session.guid, .relay, expiresAt⟩))
    (ho : w'.objects = update w.objects session.guid
      (some { session with ticketHashes := [rendezvous, relay] }))
    (hh : (call, .started { session with ticketHashes := [rendezvous, relay] } rendezvous relay) ∈
      w'.history) : Ages call w w' where
  tickets hash ticket hm := by
    rw [ht] at hm
    by_cases hr : hash = relay
    · exact .inr ⟨_, _, _, hh, hg.2.1 _ _ _, .inr hr⟩
    · by_cases hv : hash = rendezvous
      · exact .inr ⟨_, _, _, hh, hg.2.1 _ _ _, .inl hv⟩
      · rw [update_of_ne hr, update_of_ne hv] at hm
        exact .inl hm
  objects guid old hold := by
    have hne : guid ≠ session.guid := by
      rintro rfl
      obtain ⟨c, s, a, b, hm, hsg, -⟩ := (hs.registry.object _ old hold).started
      obtain ⟨e, hb⟩ := started_begun hs.lawful hm
      rw [hsg] at hb
      obtain ⟨rfl, -⟩ := begun_unique hs.lawful hb hg.1
      exact hg.2.1 _ _ _ hm
    exact ⟨old, by rwa [ho, update_of_ne hne], Nat.le_refl _⟩

theorem startSession_keeps {session : Session} {parent : Option String} {epoch : ℕ}
    (hs : Sound runtime none w) (hsus : Suspended w)
    (hg : guard runtime call (.startSession session parent epoch) w) :
    Keeps runtime call (.startSession session parent epoch) w
      (w.startSession call runtime o session parent epoch) := by
  have hs' := hs.startSession (o := o) hg
  unfold World.startSession at hs' ⊢
  split at hs'
  · exact .of_read (fun _ ↦ rfl) hs hsus
  · rename_i hok
    dsimp only at hs' ⊢
    split at hs'
    · rename_i hnew
      rw [if_pos hnew]
      refine .of_step (fun _ ↦ rfl) hs' (fun hne ↦ ?_) ?_ (((Adds.refl _).cons ⟨rfl, .inl rfl⟩).cons
        ⟨rfl, .inl rfl⟩)
      · exact absurd (Sound.admissible_eq_ok hok).1 hne
      · exact startSession_ages hs hg _ _ rfl rfl (.tail _ (.head _))
    · rename_i hnew
      rw [if_neg hnew]
      exact .of_read (fun _ ↦ rfl) hs hsus

theorem settle_keeps {c : Command} {reply : Option (Reply c)} {symbol : ℕ ⊕ ℕ} {w' : World}
    (hc : ∀ r, c.closed r = []) (hs : Sound runtime none w) (hsus : Suspended w)
    (hw : Sound runtime none (w.settle symbol) → Sound runtime none w')
    (hsess : w'.sessions = w.sessions) (hp : w'.pendingTimeouts = (w.settle symbol).pendingTimeouts)
    (ht : w'.tickets = w.tickets) (ho : w'.objects = w.objects) (hh : w'.history = w.history) :
    Keeps runtime call c w (w', reply) := by
  refine .of_step hc (hw (hs.frame rfl rfl rfl rfl rfl rfl rfl rfl)) ?_ (Wanes.of_eq ht ho).ages
    (hh ▸ .refl _)
  refine hsus.shrink (hsess ▸ List.Sublist.refl _) fun hne hnil ↦ hne ?_
  rw [hp, World.settle, hnil, List.filter_nil]

theorem deadline_keeps {α : Type} {c : Command} {result : Except Failure α}
    (hc : ∀ r, c.closed r = []) (hs : Sound runtime none w) (hsus : Suspended w) {f : Except Failure α → Option (Reply c)} :
    Keeps runtime call c w ((w.withDeadline call o result).map id f) := by
  obtain ⟨hs', hsus', hw, ha⟩ := hs.withDeadline hsus call o result
  exact .of_step hc hs' hsus' hw.ages (ha.mono fun _ hx ↦ ⟨hx.1, .inr (Event.calm_of_expiring hx.2)⟩)

end Blocks

theorem Sound.beginRound {runtime : Runtime} {w : World} (hs : Sound runtime none w) :
    Sound runtime none w.beginRound.1 := by
  unfold World.beginRound
  split
  · exact hs
  · exact hs.frame rfl rfl rfl rfl rfl rfl rfl rfl

section Exec

variable {runtime : Runtime} {w : World} {call : Call}

theorem exec_keeps (c : Command) (o : Choice) (hs : Sound runtime none w) (hsus : Suspended w)
    (hg : guard runtime call c w) : Keeps runtime call c w (exec runtime call c o w) := by
  cases c with
  | unavailable | verifying | requireConfiguration | profileIdentity | current | owned | expiry
  | relayLifecycle | find | inspect | claim | isStopped | awaitOpen =>
    exact .of_read (fun _ ↦ rfl) hs hsus
  | refresh =>
    exact .of_frame (fun _ ↦ rfl) (hs.frame rfl rfl rfl rfl rfl rfl rfl rfl) hsus
      (.of_eq rfl rfl rfl rfl rfl)
  | begin => exact .of_frame (fun _ ↦ rfl) (hs.begin hg) hsus begin_frame
  | reserve user => exact .of_frame (fun _ ↦ rfl) (hs.reserve hg) hsus reserve_frame
  | releaseReservation user =>
    exact .of_frame (fun _ ↦ rfl) (hs.releaseReservation hg.1 hg.2) hsus
      (.note (.inl rfl) rfl rfl (.of_eq rfl rfl) rfl)
  | startSession session parent epoch => exact startSession_keeps hs hsus hg
  | validate | requireDisconnect => exact deadline_keeps (fun _ ↦ rfl) hs hsus
  | record guid audit actorGuid =>
    obtain ⟨hs', hsus', hw, ha⟩ := (hs.record hg).withDeadline hsus call o o.outcome
    have hwane : Wanes w (w.note call (.recorded guid audit)) := .of_eq rfl rfl
    have hrecorded : Adds (fun e ↦ e.1 = call ∧ (Command.record guid audit actorGuid).Leaves e.2)
        w.history ((call, .recorded guid audit) :: w.history) := (Adds.refl _).cons ⟨rfl, .inl rfl⟩
    exact .of_step (fun _ ↦ rfl) hs' hsus' (hwane.trans hw).ages
      (hrecorded.trans (ha.mono fun _ hx ↦ ⟨hx.1, .inr (Event.calm_of_expiring hx.2)⟩))
  | takeTicket value => exact .of_frame (fun _ ↦ rfl) hs.takeTicket hsus takeTicket_frame
  | claimTicket value ticket => exact .of_frame (fun _ ↦ rfl) (hs.claimTicket hg) hsus claimTicket_frame
  | confirm guid expiresAt => exact .of_frame (fun _ ↦ rfl) hs.confirm hsus confirm_frame
  | closeGrant guid reason =>
    obtain ⟨hs', hc, -⟩ := hs.closeGrant call guid reason
    exact .of_calm ⟨hs', hc⟩ hsus
  | activate guid => exact .of_frame (fun _ ↦ rfl) (hs.activate hg) hsus activate_frame
  | countReport guid => exact .of_frame (fun _ ↦ rfl) hs.countReport hsus countReport_frame
  | beginRound => exact .of_frame (fun _ ↦ rfl) hs.beginRound hsus beginRound_frame
  | purgeTickets => exact .of_frame (fun _ ↦ rfl) hs.purgeTickets hsus purgeTickets_frame
  | endRound round =>
    simp only [exec, World.endRound]
    split
    · exact settle_keeps (fun _ ↦ rfl) hs hsus (fun hs' ↦ hs'.frame rfl rfl rfl rfl rfl rfl rfl rfl) rfl
        rfl rfl rfl rfl
    · exact settle_keeps (fun _ ↦ rfl) hs hsus id rfl rfl rfl rfl rfl
  | expireRound round =>
    obtain ⟨hs', hsus', hw, ha⟩ := hs.expireRound hsus call round
    exact .of_step (fun _ ↦ rfl) hs' hsus' hw.ages
      (ha.mono fun _ hx ↦ ⟨hx.1, .inr (Event.calm_of_expiring hx.2)⟩)
  | settle symbol => exact settle_keeps (fun _ ↦ rfl) hs hsus id rfl rfl rfl rfl rfl
  | takeEmergency => exact .of_calm hs.takeEmergency hsus
  | shutdown => exact .of_calm hs.shutdown hsus
  | upgrade channel origin => exact .of_frame (fun _ ↦ rfl) hs.upgrade hsus upgrade_frame
  | receive channel bytes binary => exact .of_closes (hs.receive hg) hsus
  | authorized channel claim =>
    obtain ⟨hs', hc, -⟩ := hs.authorized _ hg
    exact .of_closes ⟨hs', hc⟩ hsus
  | connect channel => exact .of_frame (fun _ ↦ rfl) hs.connect hsus connect_frame
  | proceed channel stage request => exact .of_closes (hs.proceed hg) hsus
  | receiveUpstream channel bytes binary => exact .of_closes hs.receiveUpstream hsus
  | stop channel reason => exact .of_calm (hs.refuse call channel reason) hsus
  | expireChannel channel => exact .of_calm hs.expireChannel hsus
  | closeBrowser channel => exact .of_calm hs.closeBrowser hsus
  | closeUpstream channel => exact .of_calm hs.closeUpstream hsus
  | destroyGateway => exact .of_calm hs.destroyGateway hsus

end Exec

/-- Between two blocks of one call the others only add events of their own. -/
def logic (runtime : Runtime) : Logic (machine runtime) where
  inv w := Sound runtime none w ∧ Suspended w
  guard := guard runtime
  rely call w w' := Adds (fun e ↦ e.1 ≠ call) w.history w'.history
  rely_refl _ w := .refl _
  rely_trans _ := Adds.trans
  keeps o _ hi hg := by
    have hk := exec_keeps _ o hi.1 hi.2 hg
    exact ⟨hk.sound, hk.suspended⟩
  interferes {call other c} o w hne hi hg := by
    have hk := exec_keeps c o hi.1 hi.2 hg
    refine hk.adds.mono fun e he ↦ ?_
    rw [he.1]
    exact hne.symm

end RustdeskConsole.Gateway
