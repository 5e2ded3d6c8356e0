import RustdeskConsole.Gateway.SessionSteps

namespace RustdeskConsole.Gateway

open Effects Effects.History Effects.Guard Function Collections WebClient

/-- The events by which a command marks the progress of its call. -/
def Command.marks (c : Command) (e : Event) : Bool :=
  match c with
  | .begin => (e matches .begun ..)
  | .reserve _ => (e matches .reserved _)
  | .releaseReservation _ => (e matches .released _)
  | .startSession .. => (e matches .started .. | .released _)
  | .takeTicket _ => (e matches .taken ..)
  | .claimTicket .. => (e matches .consumed ..)
  | .record .. => (e matches .recorded ..)
  | .activate _ => (e matches .activated _)
  | .receive .. => (e matches .admitted _ | .validated .. | .toUpstream ..)
  | .authorized .. => (e matches .claimed ..)
  | .proceed .. => (e matches .toUpstream ..)
  | .receiveUpstream .. => (e matches .bound .. | .toBrowser ..)
  | _ => false

def Command.Leaves (c : Command) (e : Event) : Prop := c.marks e = true ∨ e.Calm

/-- The sessions whose termination records a block leaves to its call. -/
def Command.closed : (c : Command) → Reply c → List Closed
  | .closeGrant .., closed | .takeEmergency, closed | .shutdown, closed | .authorized .., closed
  | .proceed .., closed | .receiveUpstream .., closed | .stop .., closed | .expireChannel _, closed
  | .closeBrowser _, closed | .closeUpstream _, closed => closed
  | .receive .., .handled closed => closed
  | _, _ => []

section Events

variable {e : Event} {channel : ℕ} (he : e.channel = some channel)

include he

theorem Event.ofSession_channel : e.ofSession = false := by
  cases e <;> first | rfl | cases he

theorem Event.timedOut_channel : e ≠ .timedOut := by
  rintro rfl
  cases he

theorem Event.taken_channel (hash : String) (ticket : Ticket) : e ≠ .taken hash ticket := by
  rintro rfl
  cases he

theorem Event.reserved_channel (user : String) : e ≠ .reserved user := by
  rintro rfl
  cases he

theorem Event.released_channel (user : String) : e ≠ .released user := by
  rintro rfl
  cases he

theorem Event.handed_channel (closed : List Closed) : e ≠ .handed closed := by
  rintro rfl
  cases he

end Events

section Socket

variable {h : History} {channel : ℕ} {socket socket' : Channel}

theorem Traffic.congr (ht : Traffic h channel socket) (hst : socket'.stopped = socket.stopped)
    (hc : socket'.claim = socket.claim) (hstage : socket'.stage = socket.stage)
    (hr : socket.replied = true → socket'.replied = true) : Traffic h channel socket' where
  stopped := by rw [hst, ht.stopped]
  claim k := by rw [hc, ht.claim]
  admitted := by rw [hstage, ht.admitted]
  validated := by rw [hstage, ht.validated]
  sentUp hu := by
    rw [hstage]
    exact ht.sentUp hu
  sentDown hd := by
    rw [hstage]
    exact (ht.sentDown hd).imp_left fun hs ↦ ⟨hs.1, hr hs.2⟩
  reply hs := ht.reply (hstage ▸ hs)
  opaqueData hs := ht.opaqueData (hstage ▸ hs)

/-- A channel that was just accepted. -/
theorem Traffic.fresh {runtime : Runtime} (hl : Lawful (law runtime) h)
    (hn : ¬Admitted h channel ∧ ¬Stopped h channel) :
    Traffic h channel ⟨false, none, .ticket, false, false, false, true, none⟩ := by
  have hclaim : ∀ claim, ¬Claimed h channel claim := fun claim hc ↦ hn.1 (claimed_channel hl hc)
  have hvalid : ¬Validated h channel := by
    intro hv
    obtain ⟨claim, hc⟩ := validated_claimed hl hv
    exact hclaim claim hc
  refine ⟨⟨nofun, fun hst ↦ absurd hst hn.2⟩, fun claim ↦ ⟨nofun, fun hc ↦ absurd hc (hclaim claim)⟩,
    ⟨fun hne ↦ absurd rfl hne, fun ha ↦ absurd ha hn.1⟩, ?_, fun hu ↦ ?_, fun hd ↦ ?_, nofun, nofun⟩
  · refine ⟨?_, fun hv ↦ absurd hv hvalid⟩
    rintro (hs | hs | hs) <;> cases hs
  · exact absurd (sentUp_validated hl hu) hvalid
  · obtain ⟨claim, hc⟩ := sentDown_claimed hl hd
    exact absurd hc (hclaim claim)

theorem Settled.congr (hs : Settled h channel socket)
    (hstage : socket'.stage = .reply ∨ socket'.stage = .opaqueData →
      socket.stage = .reply ∨ socket.stage = .opaqueData)
    (hr : socket'.replied = socket.replied) (hf : socket'.refused = socket.refused) :
    Settled h channel socket' where
  proceeded hp := hs.proceeded (hstage hp)
  replied hrep := by
    rw [hf]
    exact hs.replied (hr ▸ hrep)

end Socket

namespace Sound

variable {runtime : Runtime} {w w' : World} {call : Call} {channel : ℕ} {socket : Channel}
  {e : Event} {f : Channel → Channel}

/-- A change of the channel a block works on. -/
theorem adjust (hs : Sound runtime (some channel) w) (hsock : w.sockets channel = some socket)
    (ht : Traffic w.history channel (f socket)) : Sound runtime (some channel) (w.adjust channel f) := by
  refine { hs with capacity := ?_, switchboard := ?_ }
  · exact hs.capacity.shrink (List.Sublist.refl _) (fun _ ↦ rfl) rfl fun _ ↦ rfl
  · simp only [World.adjust, hsock, Option.map_some]
    exact hs.switchboard.adjust ht

/-- An event of the channel a block works on. -/
theorem adjust_note (hs : Sound runtime (some channel) w) (hsock : w.sockets channel = some socket)
    (he : e.channel = some channel) (hlaw : law runtime w.history (call, e))
    (ht : Traffic ((call, e) :: w.history) channel (f socket)) :
    Sound runtime (some channel) ((w.adjust channel f).note call e) where
  lawful := lawful_cons.mpr ⟨hlaw, hs.lawful⟩
  registry := hs.registry.note (Event.ofSession_channel he)
  ticketing := hs.ticketing.note (Event.ofSession_started (Event.ofSession_channel he))
    (Event.taken_channel he)
  epoch := hs.epoch.trans (timeouts_note (Event.timedOut_channel he)).symm
  capacity := hs.capacity.shrink (List.Sublist.refl _) (fun _ ↦ rfl) rfl fun _ ↦
    outstanding_note (Event.reserved_channel he) (Event.released_channel he)
  backlog := hs.backlog.note (Event.handed_channel he)
  switchboard := by
    simp only [World.note, World.adjust, hsock, Option.map_some]
    exact hs.switchboard.step he ht

theorem note_channel (hs : Sound runtime (some channel) w) (hsock : w.sockets channel = some socket)
    (he : e.channel = some channel) (hlaw : law runtime w.history (call, e))
    (ht : Traffic ((call, e) :: w.history) channel socket) :
    Sound runtime (some channel) (w.note call e) := by
  have hadj : w.adjust channel id = w := by
    simp only [World.adjust, Option.map_id, id_eq, update_eq_self]
  have hs' := hs.adjust_note (f := id) hsock he hlaw ht
  rwa [hadj] at hs'

/-- The block leaves its channel running. -/
theorem settle_running (hs : Sound runtime (some channel) w) (hrun : ¬Stopped w.history channel)
    (hset : ∀ socket, w.sockets channel = some socket → Settled w.history channel socket) :
    Sound runtime none w :=
  hs.settle hset fun _ hst ↦ absurd hst hrun

theorem running (hs : Sound runtime (some channel) w) (hsock : w.sockets channel = some socket)
    (hrun : socket.stopped = false) : ¬Stopped w.history channel := by
  rw [← (hs.switchboard.traffic channel socket hsock).stopped, hrun]
  exact nofun

theorem upgrade (hs : Sound runtime none w) {origin : Option String} :
    Sound runtime none (w.upgrade channel origin) := by
  unfold World.upgrade
  split
  · exact hs
  · split
    · exact hs
    · rename_i hcond
      simp only [Bool.or_eq_true, not_or, Bool.not_eq_true, Option.isSome_eq_false_iff,
        Option.isNone_iff_eq_none] at hcond
      have hn := hs.switchboard.unknown channel hcond.2
      have hs' : Sound runtime (some channel) (w.accept channel) :=
        { hs with
          capacity := hs.capacity.shrink (List.Sublist.refl _) (fun _ ↦ rfl) rfl fun _ ↦ rfl
          switchboard := (hs.switchboard.unsettle channel).adjust (.fresh hs.lawful hn) }
      refine hs'.settle_running hn.2 fun socket hsock ↦ ?_
      simp only [World.accept, update_self] at hsock
      obtain rfl := Option.some.inj hsock
      refine ⟨?_, nofun⟩
      rintro (hst | hst) <;> cases hst

section Forward

variable {bytes : List UInt8}

theorem stop_unsettled (hs : Sound runtime (some channel) w) (hsock : w.sockets channel = some socket)
    (hrun : socket.stopped = false) (call : Call) (reason : Reason) :
    Sound runtime none (w.refuse call channel reason).1 ∧ Closes call Event.Calm
      (w.refuse call channel reason).2 w (w.refuse call channel reason).1 :=
  hs.stop_running hsock hrun trivial

theorem forward (hs : Sound runtime (some channel) w) (hsock : w.sockets channel = some socket)
    (hrun : socket.stopped = false) (side : Side) (room : Bool)
    (hlaw : law runtime w.history (call, side.sent channel bytes))
    (ht : Traffic ((call, side.sent channel bytes) :: w.history) channel socket)
    (hset : Settled ((call, side.sent channel bytes) :: w.history) channel socket) :
    Sound runtime none (w.forward call channel side bytes room).1 ∧
      Closes call (fun e ↦ e = side.sent channel bytes ∨ e.Calm)
        (w.forward call channel side bytes room).2 w (w.forward call channel side bytes room).1 := by
  unfold World.forward
  split
  · have he : (side.sent channel bytes).channel = some channel := by cases side <;> rfl
    have hstop : ∀ ch reason cause, side.sent channel bytes ≠ .stopped ch reason cause := by
      cases side <;> exact nofun
    refine ⟨(hs.note_channel hsock he hlaw ht).settle_running ?_ fun socket' hsock' ↦ ?_,
      Closes.after (.refl _) rfl rfl (.of_eq rfl rfl) ((Adds.refl _).cons ⟨rfl, .inl rfl⟩)⟩
    · exact fun hst ↦ hs.running hsock hrun ((stopped_note hstop).mp hst)
    · obtain rfl := Option.some.inj (hsock.symm.trans hsock')
      exact hset
  · obtain ⟨hs', hc⟩ := hs.stop_unsettled hsock hrun call .overloaded
    exact ⟨hs', hc.mono fun _ ↦ .inr⟩

end Forward

/-- A change of a channel that no event marks. -/
theorem turn (hs : Sound runtime none w) (hsock : w.sockets channel = some socket)
    (f : Channel → Channel) (ht : Traffic w.history channel (f socket))
    (hset : Settled w.history channel (f socket)) : Sound runtime none (w.adjust channel f) := by
  refine ((hs.unsettle channel).adjust hsock ht).settle (fun s hs' ↦ ?_) fun claim hst hc ↦
    hs.switchboard.orphaned channel claim nofun hst hc
  simp only [World.adjust, hsock, Option.map_some, update_self] at hs'
  obtain rfl := Option.some.inj hs'
  exact hset

/-- A step that the block takes with its channel, and that leaves it running. -/
theorem progress (hs : Sound runtime none w) (hsock : w.sockets channel = some socket)
    (hrun : socket.stopped = false) (f : Channel → Channel) (he : e.channel = some channel)
    (hstop : ∀ ch reason cause, e ≠ .stopped ch reason cause) (hlaw : law runtime w.history (call, e))
    (ht : Traffic ((call, e) :: w.history) channel (f socket))
    (hset : Settled w.history channel (f socket)) :
    Sound runtime none ((w.adjust channel f).note call e) := by
  have hun := hs.unsettle channel
  refine (hun.adjust_note hsock he hlaw ht).settle_running ?_ fun socket' hsock' ↦ ?_
  · exact fun hst ↦ hun.running hsock hrun ((stopped_note hstop).mp hst)
  · simp only [World.note, World.adjust, hsock, Option.map_some, update_self] at hsock'
    obtain rfl := Option.some.inj hsock'
    exact hset.grow

/-- The frames of the browser. -/
theorem receive (hs : Sound runtime none w) {bytes : List UInt8} {binary room : Bool}
    (hg : ∀ channel, (call, .admitted channel) ∉ w.history) :
    Sound runtime none (w.receive call channel bytes binary room).1 ∧
      Closes call (Command.receive channel bytes binary).Leaves
        ((Command.receive channel bytes binary).closed (w.receive call channel bytes binary room).2) w
        (w.receive call channel bytes binary room).1 := by
  have hrefuse : ∀ reason, Sound runtime none (w.refuse call channel reason).1 ∧
      Closes call (Command.receive channel bytes binary).Leaves (w.refuse call channel reason).2 w
        (w.refuse call channel reason).1 := by
    intro reason
    obtain ⟨hs', hc⟩ := hs.refuse call channel reason
    exact ⟨hs', hc.mono fun _ ↦ .inr⟩
  unfold World.receive
  cases hsock : w.sockets channel with
  | none => exact ⟨hs, .refl w⟩
  | some socket =>
    have htr := hs.switchboard.traffic channel socket hsock
    have hset := hs.switchboard.settled channel socket hsock nofun
    have hun := hs.unsettle channel
    dsimp only
    cases hrun : socket.stopped with
    | true => exact ⟨hs, .refl w⟩
    | false =>
      simp only [Bool.false_eq_true, if_false]
      split
      · exact hrefuse _
      · cases hstage : socket.stage with
        | ticket =>
          dsimp only
          split
          · exact hrefuse _
          · split
            · exact hrefuse _
            · have hnew : ¬Admitted w.history channel := fun ha ↦ htr.admitted.mpr ha hstage
              refine ⟨hs.progress hsock hrun (fun socket ↦ { socket with stage := .authorizing }) rfl
                (by simp) ⟨hnew, hg⟩ (htr.accept_ticket hstage) (hset.congr ?_ rfl rfl),
                Closes.after (.refl _) rfl rfl (.of_eq rfl rfl) ((Adds.refl _).cons ⟨rfl, .inl rfl⟩)⟩
              rintro (hst | hst) <;> cases hst
        | authorizing | opening | reply => exact hrefuse _
        | request =>
          dsimp only
          split
          · rename_i claim hclaim
            split
            · exact hrefuse _
            · rename_i hvalid
              have hnew : ¬Validated w.history channel := by
                rw [← htr.validated, hstage]
                simp
              refine ⟨hs.progress hsock hrun (fun socket ↦ { socket with stage := .opening }) rfl
                (by simp) ⟨hun.running hsock hrun, hnew, claim, (htr.claim claim).mp hclaim, hvalid⟩
                (htr.validate hstage) (hset.congr ?_ rfl rfl),
                Closes.after (.refl _) rfl rfl (.of_eq rfl rfl) ((Adds.refl _).cons ⟨rfl, .inl rfl⟩)⟩
              rintro (hst | hst) <;> cases hst
          · exact hrefuse _
        | opaqueData =>
          dsimp only
          split
          · obtain ⟨claim, hc, hphase, hact⟩ := htr.opaqueData hstage
            have hlaw : law runtime w.history (call, .toUpstream channel bytes) := by
              refine ⟨hun.running hsock hrun, htr.validated.mp (.inr (.inr hstage)), claim, hc, ?_⟩
              rw [hphase]
              exact hact
            obtain ⟨hs', hcl⟩ := hun.forward hsock hrun .upstream room hlaw
              (htr.sendUp (.inr hstage)) hset.grow
            refine ⟨hs', hcl.mono fun e he ↦ ?_⟩
            rcases he with rfl | he
            · exact .inl rfl
            · exact .inr he
          · exact hrefuse _

/-- What the browser sends next is validated against the claim of a consumed ticket. -/
theorem authorized (hs : Sound runtime none w) (now : ℕ) {claim : GatewayClaim}
    (hg : guard runtime call (.authorized channel claim) w) :
    Sound runtime none (w.authorized call channel now claim).1 ∧
      Closes call (Command.authorized channel claim).Leaves (w.authorized call channel now claim).2 w
        (w.authorized call channel now claim).1 ∧
      (call, .claimed channel claim) ∈ (w.authorized call channel now claim).1.history := by
  obtain ⟨hadmitted, hconsumed, honce⟩ := hg
  unfold World.authorized
  cases hsock : w.sockets channel with
  | none => exact absurd ⟨call, hadmitted⟩ (hs.switchboard.unknown channel hsock).1
  | some socket =>
    have htr := hs.switchboard.traffic channel socket hsock
    have hset := hs.switchboard.settled channel socket hsock (by simp)
    have hnew : ∀ k, ¬Claimed w.history channel k := by
      rintro k ⟨c, hc⟩
      obtain rfl := admitted_unique hs.lawful (claimed_admitted hs.lawful hc).1 hadmitted
      exact honce channel k hc
    have hvalid : ¬Validated w.history channel := by
      intro hv
      obtain ⟨k, hk⟩ := validated_claimed hs.lawful hv
      exact hnew k hk
    have hs₁ : Sound runtime (some channel) ((w.adjust channel fun socket ↦
        { socket with claim := some claim }).note call (.claimed channel claim)) :=
      (hs.unsettle channel).adjust_note hsock rfl ⟨hadmitted, hconsumed, honce⟩ (htr.take hnew)
    have hsock₁ : ((w.adjust channel fun socket ↦ { socket with claim := some claim }).note call
        (.claimed channel claim)).sockets channel = some { socket with claim := some claim } := by
      simp only [World.note, World.adjust, hsock, Option.map_some, update_self]
    have hadds : Adds (fun x ↦ x.1 = call ∧ (Command.authorized channel claim).Leaves x.2) w.history
        ((call, .claimed channel claim) :: w.history) := (Adds.refl _).cons ⟨rfl, .inl rfl⟩
    dsimp only
    generalize hw₁ : (w.adjust channel fun socket ↦ { socket with claim := some claim }).note call
      (.claimed channel claim) = w₁ at hs₁ hsock₁
    have hh : w₁.history = (call, .claimed channel claim) :: w.history := by rw [← hw₁]; rfl
    have hsess : w₁.sessions = w.sessions := by rw [← hw₁]; rfl
    have hpend : w₁.pendingTimeouts = w.pendingTimeouts := by rw [← hw₁]; rfl
    have hwane : Wanes w w₁ := hw₁ ▸ .of_eq rfl rfl
    have hclaimed : Claimed w₁.history channel claim := ⟨call, hh ▸ .head _⟩
    have hfinish : ∀ {w₂ closed}, Sound runtime none w₂ → Closes call Event.Calm closed w₁ w₂ →
        Sound runtime none w₂ ∧ Closes call (Command.authorized channel claim).Leaves closed w w₂ ∧
          (call, .claimed channel claim) ∈ w₂.history := by
      intro w₂ closed hs₂ hc
      exact ⟨hs₂, (hc.mono fun _ ↦ .inr).after hsess hpend hwane (hh ▸ hadds), hc.adds.mem (hh ▸ .head _)⟩
    cases hrun : socket.stopped with
    | true =>
      rw [Bool.true_or, if_pos rfl]
      obtain ⟨hs₂, hc, hgone⟩ := hs₁.closeGrant call claim.sessionGuid .clientClosed
      have hst : Stopped w₁.history channel := (hs₁.switchboard.traffic channel _ hsock₁).stopped.mp hrun
      refine hfinish (hs₂.settle_stopped ?_ fun k hk ↦ .inl ?_) hc
      · obtain ⟨cause, hby⟩ := hst
        exact ⟨cause, hby.mono hc.adds.suffix⟩
      · rw [claimed_unique hs₂.lawful hk (hclaimed.mono hc.adds.suffix)]
        exact hgone
    | false =>
      have hset₁ : ∀ s, w₁.sockets channel = some s → Settled w₁.history channel s := by
        intro s hs'
        obtain rfl := Option.some.inj (hsock₁.symm.trans hs')
        rw [hh]
        exact Settled.grow (hset.congr id rfl rfl)
      have hidle : Sound runtime none w₁ := hs₁.settle_running (hs₁.running hsock₁ hrun) hset₁
      rw [Bool.false_or]
      split
      · obtain ⟨hs₂, hc, -⟩ := hidle.closeGrant call claim.sessionGuid .clientClosed
        exact hfinish hs₂ hc
      · have hs₂ : Sound runtime none (w₁.attach now claim.sessionGuid channel).1 :=
          hidle.attach hclaimed rfl
        rcases w₁.attach_cases now claim.sessionGuid channel with ⟨failure, he⟩ | he
        · rw [he]
          obtain ⟨hs₃, hc⟩ := hidle.refuse call channel .authorizationRevoked
          exact hfinish hs₃ hc
        · rw [he] at hs₂ ⊢
          have hvalid₁ : ¬Validated w₁.history channel := by
            rwa [hh, validated_note (by simp)]
          have hdown₁ : ¬SentDown w₁.history channel := by
            rw [hh, sentDown_note (by simp)]
            intro hd
            obtain ⟨k, hk⟩ := sentDown_claimed hs.lawful hd
            exact hnew k hk
          have htr₁ : Traffic w₁.history channel { socket with
              claim := some claim, detach := some claim.sessionGuid, stage := .request
              timer := true } := by
            refine (hs₁.switchboard.traffic channel _ hsock₁).turn rfl rfl
              (iff_of_true (by simp) ⟨call, ?_⟩) (iff_of_false (by simp) hvalid₁)
              (fun hu ↦ hvalid₁ (sentUp_validated hs₁.lawful hu)) hdown₁ (by simp) (by simp)
            exact hh ▸ .tail _ hadmitted
          have hwane₁ : Wanes w₁ (w₁.modify claim.sessionGuid fun session ↦
              { session with sockets := session.sockets ++ [channel] }) :=
            .of_change rfl rfl fun _ ↦ Nat.le_refl _
          refine hfinish ?_ (Closes.after (.refl _) rfl rfl (hwane₁.trans (.of_eq rfl rfl)) (.refl _))
          have hset₂ : Settled w₁.history channel { socket with
              claim := some claim, detach := some claim.sessionGuid, stage := .request
              timer := true } := by
            refine (hset₁ _ hsock₁).congr ?_ rfl rfl
            rintro (hst | hst) <;> cases hst
          exact (hs₂.turn hsock₁ (fun socket ↦ { socket with
            detach := some claim.sessionGuid, stage := .request, timer := true }) htr₁ hset₂).frame rfl
            rfl rfl rfl rfl rfl rfl rfl

theorem connect (hs : Sound runtime none w) : Sound runtime none (w.connect channel).1 := by
  unfold World.connect
  split
  · exact hs
  · rename_i claim hclaim
    split
    · exact hs
    · cases hsock : w.sockets channel with
      | none =>
        rw [hsock] at hclaim
        cases hclaim
      | some socket =>
        exact hs.turn hsock _ ((hs.switchboard.traffic channel socket hsock).congr rfl rfl rfl id)
          ((hs.switchboard.settled channel socket hsock nofun).congr id rfl rfl)

theorem isStopped_eq_false (hi : w.isStopped channel = false) : ∃ socket,
    w.sockets channel = some socket ∧ socket.stopped = false := by
  simp only [World.isStopped, Bool.or_eq_false_iff, Option.all_eq_false] at hi
  exact hi.1

/-- The first frame goes upstream. -/
theorem proceed (hs : Sound runtime none w) {stage : Stage} {request : List UInt8} {room : Bool}
    (hg : guard runtime call (.proceed channel stage request) w) :
    Sound runtime none (w.proceed call channel stage request room).1 ∧
      Closes call (Command.proceed channel stage request).Leaves
        (w.proceed call channel stage request room).2 w
        (w.proceed call channel stage request room).1 := by
  unfold World.proceed
  cases hi : w.isStopped channel with
  | true => exact ⟨hs, .refl w⟩
  | false =>
    obtain ⟨hvalid, hsent, claim, hclaimed, hphase⟩ := hg
    obtain ⟨socket, hsock, hrun⟩ := isStopped_eq_false hi
    have hun := hs.unsettle channel
    have hst := hun.running hsock hrun
    have htr := hs.switchboard.traffic channel socket hsock
    have hnot : ¬(socket.stage = .reply ∨ socket.stage = .opaqueData) := by
      intro hp
      rcases (hs.switchboard.settled channel socket hsock nofun).proceeded hp with hs' |
        ⟨c, b, b', hv, hu⟩
      · exact hst hs'
      · obtain ⟨rfl, -⟩ := validated_unique hs.lawful hv hvalid
        exact hsent channel b' hu
    have hup : ¬SentUp w.history channel := fun hu ↦ hnot (htr.sentUp hu)
    have hdown : ¬SentDown w.history channel := by
      intro hd
      exact hnot ((htr.sentDown hd).imp_left And.left)
    have hstage : (claim.phase = .rendezvous ∧ stage = .reply) ∨
        (claim.phase = .relay ∧ stage = .opaqueData ∧ Activated w.history claim.sessionGuid) := by
      cases hp : claim.phase with
      | rendezvous =>
        rw [hp] at hphase
        exact .inl ⟨rfl, hphase⟩
      | relay =>
        rw [hp] at hphase
        exact .inr ⟨rfl, hphase⟩
    have hopen : stage = .reply ∨ stage = .opaqueData :=
      hstage.imp And.right fun ho ↦ ho.2.1
    have htr' : Traffic w.history channel { socket with
        stage := stage, timer := socket.timer && stage ≠ .opaqueData } := by
      refine htr.turn rfl rfl (iff_of_true ?_ (claimed_channel hs.lawful hclaimed))
        (iff_of_true (.inr hopen) ⟨call, request, hvalid⟩) hup hdown ?_ ?_
      · rcases hopen with rfl | rfl <;> exact nofun
      · rcases hstage with ⟨hp, -⟩ | ⟨-, rfl, -⟩
        · exact fun _ ↦ ⟨claim, hclaimed, hp⟩
        · exact nofun
      · rcases hstage with ⟨-, rfl⟩ | ⟨hp, -, ha⟩
        · exact nofun
        · exact fun _ ↦ ⟨claim, hclaimed, hp, ha⟩
    have hlaw : law runtime w.history (call, .toUpstream channel request) := by
      refine ⟨hst, ⟨call, request, hvalid⟩, claim, hclaimed, ?_⟩
      rcases hstage with ⟨hp, -⟩ | ⟨hp, -, ha⟩
      · rw [hp]
        exact ⟨hup, call, hvalid⟩
      · rw [hp]
        exact ha
    have hsock' : (w.adjust channel fun socket ↦ { socket with
        stage := stage, timer := socket.timer && stage ≠ .opaqueData }).sockets channel = some { socket with
        stage := stage, timer := socket.timer && stage ≠ .opaqueData } := by
      simp only [World.adjust, hsock, Option.map_some, update_self]
    have hset' : Settled ((call, .toUpstream channel request) :: w.history) channel { socket with
        stage := stage, timer := socket.timer && stage ≠ .opaqueData } :=
      ⟨fun _ ↦ .inr ⟨call, request, request, .tail _ hvalid, .head _⟩,
        (hs.switchboard.settled channel socket hsock nofun).grow.replied⟩
    obtain ⟨hs', hc⟩ := (hun.adjust hsock htr').forward hsock' hrun .upstream room hlaw
      (htr'.sendUp hopen) hset'
    refine ⟨hs', (hc.mono fun e he ↦ ?_).after rfl rfl (.of_eq rfl rfl) (.refl _)⟩
    rcases he with rfl | he
    · exact .inl rfl
    · exact .inr he

theorem bindReply (hs : Sound runtime none w) (call : Call) (now : ℕ) (claim : Option GatewayClaim)
    (reply : RendezvousReply) : Sound runtime none (w.bindReply call now claim reply).1 ∧
      (w.bindReply call now claim reply).1.sockets = w.sockets ∧
      (w.bindReply call now claim reply).1.sessions = w.sessions ∧
      (w.bindReply call now claim reply).1.pendingTimeouts = w.pendingTimeouts ∧
      Wanes w (w.bindReply call now claim reply).1 ∧
      Adds (fun x ↦ x.1 = call ∧ ∃ guid uuid, x.2 = .bound guid uuid) w.history
        (w.bindReply call now claim reply).1.history := by
  cases reply with
  | refused => exact ⟨hs, rfl, rfl, rfl, .refl w, .refl _⟩
  | relay uuid =>
    cases claim with
    | none => exact ⟨hs, rfl, rfl, rfl, .refl w, .refl _⟩
    | some claim =>
      have hs' : Sound runtime none (w.bindRelay call now claim.sessionGuid uuid).1 := hs.bindRelay
      unfold World.bindReply
      dsimp only
      rcases w.bindRelay_cases call now claim.sessionGuid uuid with ⟨failure, he⟩ | he
      · rw [he]
        exact ⟨hs, rfl, rfl, rfl, .refl w, .refl _⟩
      · rw [he] at hs' ⊢
        exact ⟨hs', rfl, rfl, rfl, .of_change rfl rfl fun _ ↦ Nat.le_refl _,
          (Adds.refl _).cons ⟨rfl, _, _, rfl⟩⟩

/-- A valid reply goes to the browser. -/
theorem reply (hs : Sound runtime none w) (hsock : w.sockets channel = some socket)
    (hrun : socket.stopped = false) (hstage : socket.stage = .reply) (hreplied : socket.replied = false)
    {bytes : List UInt8} (room : Bool) {reply : RendezvousReply}
    (hreply : readRendezvousReply bytes = .ok reply) :
    Sound runtime none ((w.adjust channel fun socket ↦ { socket with
        replied := true, refused := reply = .refused, timer := false }).forward call channel .browser
          bytes room).1 ∧
      Closes call (fun e ↦ e = Side.browser.sent channel bytes ∨ e.Calm)
        ((w.adjust channel fun socket ↦ { socket with
          replied := true, refused := reply = .refused, timer := false }).forward call channel .browser
            bytes room).2 w
        ((w.adjust channel fun socket ↦ { socket with
          replied := true, refused := reply = .refused, timer := false }).forward call channel .browser
            bytes room).1 := by
  have htr := hs.switchboard.traffic channel socket hsock
  have hset := hs.switchboard.settled channel socket hsock nofun
  have hun := hs.unsettle channel
  have hdown : ¬SentDown w.history channel := by
    intro hd
    rcases htr.sentDown hd with ⟨-, hr⟩ | ho
    · rw [hreplied] at hr
      cases hr
    · rw [hstage] at ho
      cases ho
  obtain ⟨claim, hc, hphase⟩ := htr.reply hstage
  have hlaw : law runtime w.history (call, .toBrowser channel bytes) := by
    refine ⟨hun.running hsock hrun, claim, hc, ?_⟩
    rw [hphase]
    exact ⟨hdown, reply, hreply⟩
  have htr' : Traffic w.history channel { socket with
      replied := true, refused := reply = .refused, timer := false } :=
    htr.congr rfl rfl rfl fun _ ↦ rfl
  have hset' : Settled ((call, .toBrowser channel bytes) :: w.history) channel { socket with
      replied := true, refused := reply = .refused, timer := false } :=
    ⟨hset.grow.proceeded, fun _ ↦ .inr ⟨call, bytes, reply, .head _, hreply, of_decide_eq_false⟩⟩
  have hsock' : (w.adjust channel fun socket ↦ { socket with
      replied := true, refused := reply = .refused, timer := false }).sockets channel = some { socket with
      replied := true, refused := reply = .refused, timer := false } := by
    simp only [World.adjust, hsock, Option.map_some, update_self]
  obtain ⟨hs', hcl⟩ := (hun.adjust hsock htr').forward hsock' hrun .browser room hlaw
    (htr'.sendDown (.inl ⟨hstage, rfl⟩)) hset'
  exact ⟨hs', hcl.after rfl rfl (.of_eq rfl rfl) (.refl _)⟩

/-- The frames of the upstream. -/
theorem receiveUpstream (hs : Sound runtime none w) {now : ℕ} {bytes : List UInt8}
    {binary room : Bool} :
    Sound runtime none (w.receiveUpstream call channel now bytes binary room).1 ∧
      Closes call (Command.receiveUpstream channel bytes binary).Leaves
        (w.receiveUpstream call channel now bytes binary room).2 w
        (w.receiveUpstream call channel now bytes binary room).1 := by
  have hrefuse : ∀ {w : World} reason, Sound runtime none w →
      Sound runtime none (w.refuse call channel reason).1 ∧
      Closes call (Command.receiveUpstream channel bytes binary).Leaves
        (w.refuse call channel reason).2 w (w.refuse call channel reason).1 := by
    intro w reason hs
    obtain ⟨hs', hc⟩ := hs.refuse call channel reason
    exact ⟨hs', hc.mono fun _ ↦ .inr⟩
  have hsent : ∀ e, e = Side.browser.sent channel bytes ∨ e.Calm →
      (Command.receiveUpstream channel bytes binary).Leaves e := by
    intro e he
    rcases he with rfl | he
    · exact .inl rfl
    · exact .inr he
  unfold World.receiveUpstream
  cases hsock : w.sockets channel with
  | none => exact ⟨hs, .refl w⟩
  | some socket =>
    dsimp only
    split
    · exact ⟨hs, .refl w⟩
    · rename_i hrun
      simp only [Bool.or_eq_true, Bool.not_eq_true', not_or, Bool.not_eq_true,
        Bool.not_eq_false] at hrun
      split
      · exact hrefuse _ hs
      · split
        · exact hrefuse _ hs
        · have htr := hs.switchboard.traffic channel socket hsock
          have hset := hs.switchboard.settled channel socket hsock nofun
          have hun := hs.unsettle channel
          split
          · rename_i hstage hreplied
            split
            · exact hrefuse _ hs
            · rename_i reply hreply
              obtain ⟨hs₁, hsock₁, hsess₁, hpend₁, hwane₁, hadds₁⟩ :=
                hs.bindReply call now socket.claim reply
              have hadds : Adds (fun x ↦ x.1 = call ∧
                  (Command.receiveUpstream channel bytes binary).Leaves x.2) w.history
                  (w.bindReply call now socket.claim reply).1.history := by
                refine hadds₁.mono ?_
                rintro ⟨_, _⟩ ⟨rfl, guid, uuid, rfl⟩
                exact ⟨rfl, .inl rfl⟩
              generalize w.bindReply call now socket.claim reply = r
                at hs₁ hsock₁ hsess₁ hpend₁ hwane₁ hadds
              obtain ⟨w₁, _ | ⟨⟩⟩ := r
              · obtain ⟨hs', hc⟩ := hrefuse .protocolError hs₁
                exact ⟨hs', hc.after hsess₁ hpend₁ hwane₁ hadds⟩
              · obtain ⟨hs', hc⟩ := hs₁.reply (hsock₁ ▸ hsock) hrun.1 hstage hreplied room hreply
                exact ⟨hs', (hc.mono hsent).after hsess₁ hpend₁ hwane₁ hadds⟩
          · rename_i hstage
            obtain ⟨claim, hc, hphase, hact⟩ := htr.opaqueData hstage
            have hlaw : law runtime w.history (call, .toBrowser channel bytes) := by
              refine ⟨hun.running hsock hrun.1, claim, hc, ?_⟩
              rw [hphase]
              exact hact
            obtain ⟨hs', hcl⟩ := hun.forward hsock hrun.1 .browser room hlaw
              (htr.sendDown (.inr hstage)) hset.grow
            exact ⟨hs', hcl.mono hsent⟩
          · exact hrefuse _ hs

theorem handoff_causes (hs : Sound runtime none w) (hsock : w.sockets channel = some socket)
    (hrun : socket.stopped = false) (hh : socket.handoff = true) :
    Causes w.history channel .handoff := by
  have htr := hs.switchboard.traffic channel socket hsock
  simp only [Channel.handoff, Bool.and_eq_true, Bool.not_eq_true', Option.any_eq_true,
    decide_eq_true_eq] at hh
  obtain ⟨⟨⟨claim, hclaim, hphase⟩, hreplied⟩, hrefused⟩ := hh
  refine ⟨?_, claim, (htr.claim claim).mp hclaim, hphase⟩
  rcases (hs.switchboard.settled channel socket hsock nofun).replied hreplied with hst |
    ⟨c, bytes, reply, hm, hread, hnot⟩
  · exact absurd hst ((hs.unsettle channel).running hsock hrun)
  · cases reply with
    | refused => exact absurd rfl (hnot hrefused)
    | relay uuid => exact ⟨c, bytes, uuid, hm, hread⟩

theorem stop_handoff (hs : Sound runtime none w) (call : Call) (channel : ℕ) (reason : Reason) :
    let cause := if (w.sockets channel).any (·.handoff) then Cause.handoff else .ordinary
    Sound runtime none (w.stop call channel reason cause).1 ∧
      Closes call Event.Calm (w.stop call channel reason cause).2 w
        (w.stop call channel reason cause).1 := by
  refine hs.stop call channel reason _ fun socket hsock hrun ↦ ?_
  rw [hsock, Option.any_some]
  cases hh : socket.handoff with
  | true => exact hs.handoff_causes hsock hrun hh
  | false => exact trivial

theorem closeBrowser (hs : Sound runtime none w) :
    Sound runtime none (w.closeBrowser call channel).1 ∧
      Closes call Event.Calm (w.closeBrowser call channel).2 w (w.closeBrowser call channel).1 := by
  obtain ⟨hs', hc⟩ := hs.stop_handoff call channel .clientClosed
  exact ⟨hs'.frame rfl rfl rfl rfl rfl rfl rfl rfl, hc.sessions, hc.pendingTimeouts,
    hc.wanes.trans (.of_eq rfl rfl), hc.adds, hc.handed⟩

theorem closeUpstream (hs : Sound runtime none w) :
    Sound runtime none (w.closeUpstream call channel).1 ∧
      Closes call Event.Calm (w.closeUpstream call channel).2 w (w.closeUpstream call channel).1 := by
  unfold World.closeUpstream
  dsimp only
  split
  · exact hs.stop_handoff call channel .upstreamClosed
  · exact ⟨hs, .refl w⟩

theorem expireChannel (hs : Sound runtime none w) :
    Sound runtime none (w.expireChannel call channel).1 ∧
      Closes call Event.Calm (w.expireChannel call channel).2 w (w.expireChannel call channel).1 := by
  unfold World.expireChannel
  split
  · exact hs.refuse call channel .handshakeTimeout
  · exact ⟨hs, .refl w⟩

theorem destroyGateway (hs : Sound runtime none w) :
    Sound runtime none (w.destroyGateway call) ∧
      Closes call Event.Calm [] w (w.destroyGateway call) := by
  have hfold : ∀ (channels : List ℕ) (w : World), Sound runtime none w →
      Sound runtime none (channels.foldl (fun w channel ↦
        (w.stop call channel .applicationShutdown .shutdown).1) w) ∧
      Closes call Event.Calm [] w (channels.foldl (fun w channel ↦
        (w.stop call channel .applicationShutdown .shutdown).1) w) := by
    intro channels
    induction channels with
    | nil => exact fun w hs ↦ ⟨hs, .refl w⟩
    | cons channel channels ih =>
      intro w hs
      obtain ⟨hs₁, hc₁⟩ := hs.stop call channel .applicationShutdown .shutdown fun _ _ _ ↦ trivial
      obtain ⟨hs₂, hc₂⟩ := ih _ hs₁
      exact ⟨hs₂, hc₂.sessions.trans hc₁.sessions, hc₂.pendingTimeouts.trans hc₁.pendingTimeouts,
        hc₁.wanes.trans hc₂.wanes, hc₁.adds.trans hc₂.adds, .inl rfl⟩
  have hs₁ : Sound runtime none { w with destroyed := true } := hs.frame rfl rfl rfl rfl rfl rfl rfl rfl
  obtain ⟨hs', hc⟩ := hfold w.channels _ hs₁
  have hw : Wanes w { w with destroyed := true } := .of_eq rfl rfl
  exact ⟨hs'.frame rfl rfl rfl rfl rfl rfl rfl rfl, hc.sessions, hc.pendingTimeouts,
    (hw.trans hc.wanes).trans (.of_eq rfl rfl), hc.adds, .inl rfl⟩

end Sound

end RustdeskConsole.Gateway
