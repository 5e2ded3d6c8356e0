import RustdeskConsole.Gateway.Capacity

namespace RustdeskConsole.Gateway

open Effects Effects.History Function WebClient

/-- The channel an event is about. -/
def Event.channel : Event → Option ℕ
  | .admitted channel | .claimed channel _ | .validated channel _ | .toUpstream channel _
  | .toBrowser channel _ | .stopped channel _ _ => some channel
  | _ => none

section Other

variable {h : History} {c c' : Call} {e f : Event} {channel : ℕ}

theorem mem_other (he : e.channel ≠ some channel) (hf : f.channel = some channel) :
    (c', f) ∈ (c, e) :: h ↔ (c', f) ∈ h := by
  apply mem_note
  rintro rfl
  exact he hf

theorem stopped_note (he : ∀ ch r cause, e ≠ .stopped ch r cause) :
    Stopped ((c, e) :: h) channel ↔ Stopped h channel := by
  simp only [Stopped, StoppedBy, mem_note (he _ _ _).symm]

theorem claimed_note {claim : GatewayClaim} (he : ∀ ch k, e ≠ .claimed ch k) :
    Claimed ((c, e) :: h) channel claim ↔ Claimed h channel claim := by
  simp only [Claimed, mem_note (he _ _).symm]

theorem admitted_note (he : ∀ ch, e ≠ .admitted ch) :
    Admitted ((c, e) :: h) channel ↔ Admitted h channel := by
  simp only [Admitted, mem_note (he _).symm]

theorem validated_note (he : ∀ ch b, e ≠ .validated ch b) :
    Validated ((c, e) :: h) channel ↔ Validated h channel := by
  simp only [Validated, mem_note (he _ _).symm]

theorem sentUp_note (he : ∀ ch b, e ≠ .toUpstream ch b) :
    SentUp ((c, e) :: h) channel ↔ SentUp h channel := by
  simp only [SentUp, mem_note (he _ _).symm]

theorem sentDown_note (he : ∀ ch b, e ≠ .toBrowser ch b) :
    SentDown ((c, e) :: h) channel ↔ SentDown h channel := by
  simp only [SentDown, mem_note (he _ _).symm]

variable (he : e.channel ≠ some channel)

include he

theorem stoppedBy_other {cause : Cause} :
    StoppedBy ((c, e) :: h) channel cause ↔ StoppedBy h channel cause := by
  simp only [StoppedBy, mem_other (f := .stopped channel _ cause) he rfl]

theorem stopped_other : Stopped ((c, e) :: h) channel ↔ Stopped h channel := by
  simp only [Stopped, stoppedBy_other he]

theorem claimed_other {claim : GatewayClaim} :
    Claimed ((c, e) :: h) channel claim ↔ Claimed h channel claim := by
  simp only [Claimed, mem_other (f := .claimed channel claim) he rfl]

theorem admitted_other : Admitted ((c, e) :: h) channel ↔ Admitted h channel := by
  simp only [Admitted, mem_other (f := .admitted channel) he rfl]

theorem validated_other : Validated ((c, e) :: h) channel ↔ Validated h channel := by
  simp only [Validated, mem_other (f := .validated channel _) he rfl]

theorem sentUp_other : SentUp ((c, e) :: h) channel ↔ SentUp h channel := by
  simp only [SentUp, mem_other (f := .toUpstream channel _) he rfl]

theorem sentDown_other : SentDown ((c, e) :: h) channel ↔ SentDown h channel := by
  simp only [SentDown, mem_other (f := .toBrowser channel _) he rfl]

theorem Traffic.other {socket : Channel} (ht : Traffic h channel socket) :
    Traffic ((c, e) :: h) channel socket where
  stopped := by rw [stopped_other he, ht.stopped]
  claim k := by rw [claimed_other he, ht.claim]
  admitted := by rw [admitted_other he, ht.admitted]
  validated := by rw [validated_other he, ht.validated]
  sentUp hs := ht.sentUp ((sentUp_other he).mp hs)
  sentDown hs := ht.sentDown ((sentDown_other he).mp hs)
  reply hs := by
    obtain ⟨claim, hc, hp⟩ := ht.reply hs
    exact ⟨claim, hc.mono (List.suffix_cons ..), hp⟩
  opaqueData hs := by
    obtain ⟨claim, hc, hp, ha⟩ := ht.opaqueData hs
    exact ⟨claim, hc.mono (List.suffix_cons ..), hp, ha.mono (List.suffix_cons ..)⟩

end Other

namespace Traffic

variable {h : History} {c : Call} {e : Event} {channel : ℕ} {socket socket' : Channel}

/-- The channel goes another way without an event. -/
theorem turn (ht : Traffic h channel socket) (hst : socket'.stopped = socket.stopped)
    (hc : socket'.claim = socket.claim)
    (ha : socket'.stage ≠ .ticket ↔ Admitted h channel)
    (hv : socket'.stage = .opening ∨ socket'.stage = .reply ∨ socket'.stage = .opaqueData ↔
      Validated h channel)
    (hu : ¬SentUp h channel) (hd : ¬SentDown h channel)
    (hr : socket'.stage = .reply → ∃ claim, Claimed h channel claim ∧ claim.phase = .rendezvous)
    (ho : socket'.stage = .opaqueData → ∃ claim, Claimed h channel claim ∧ claim.phase = .relay ∧
      Activated h claim.sessionGuid) : Traffic h channel socket' :=
  ⟨by rw [hst, ht.stopped], fun k ↦ by rw [hc, ht.claim], ha, hv, fun h ↦ absurd h hu,
    fun h ↦ absurd h hd, hr, ho⟩

theorem reply_grow (ht : Traffic h channel socket) (hs : socket.stage = .reply) :
    ∃ claim, Claimed ((c, e) :: h) channel claim ∧ claim.phase = .rendezvous := by
  obtain ⟨claim, hc, hp⟩ := ht.reply hs
  exact ⟨claim, hc.mono (List.suffix_cons ..), hp⟩

theorem opaque_grow (ht : Traffic h channel socket) (hs : socket.stage = .opaqueData) :
    ∃ claim, Claimed ((c, e) :: h) channel claim ∧ claim.phase = .relay ∧
      Activated ((c, e) :: h) claim.sessionGuid := by
  obtain ⟨claim, hc, hp, ha⟩ := ht.opaqueData hs
  exact ⟨claim, hc.mono (List.suffix_cons ..), hp, ha.mono (List.suffix_cons ..)⟩

theorem accept_ticket (ht : Traffic h channel socket) (hs : socket.stage = .ticket) :
    Traffic ((c, .admitted channel) :: h) channel { socket with stage := .authorizing } where
  stopped := by rw [stopped_note (by simp), ht.stopped]
  claim k := by rw [claimed_note (by simp), ht.claim]
  admitted := iff_of_true nofun ⟨c, .head _⟩
  validated := by
    rw [validated_note (by simp), ← ht.validated, hs]
    simp
  sentUp hu := by
    rw [sentUp_note (by simp)] at hu
    simpa [hs] using ht.sentUp hu
  sentDown hd := by
    rw [sentDown_note (by simp)] at hd
    simpa [hs] using ht.sentDown hd
  reply := nofun
  opaqueData := nofun

theorem take (ht : Traffic h channel socket) {claim : GatewayClaim}
    (hn : ∀ k, ¬Claimed h channel k) :
    Traffic ((c, .claimed channel claim) :: h) channel { socket with claim := some claim } where
  stopped := by rw [stopped_note (by simp), ht.stopped]
  claim k := by
    constructor
    · intro hk
      obtain rfl := Option.some.inj hk
      exact ⟨c, .head _⟩
    · rintro ⟨c', hm⟩
      rcases List.mem_cons.mp hm with heq | hm
      · cases heq
        rfl
      · exact absurd ⟨c', hm⟩ (hn k)
  admitted := by rw [admitted_note (by simp), ht.admitted]
  validated := by rw [validated_note (by simp), ← ht.validated]
  sentUp hu := ht.sentUp ((sentUp_note (by simp)).mp hu)
  sentDown hd := ht.sentDown ((sentDown_note (by simp)).mp hd)
  reply hs := ht.reply_grow hs
  opaqueData hs := ht.opaque_grow hs

theorem validate (ht : Traffic h channel socket) (hs : socket.stage = .request)
    {bytes : List UInt8} :
    Traffic ((c, .validated channel bytes) :: h) channel { socket with stage := .opening } where
  stopped := by rw [stopped_note (by simp), ht.stopped]
  claim k := by rw [claimed_note (by simp), ht.claim]
  admitted := by
    rw [admitted_note (by simp), ← ht.admitted, hs]
    simp
  validated := iff_of_true (.inl rfl) ⟨c, bytes, .head _⟩
  sentUp hu := by
    rw [sentUp_note (by simp)] at hu
    simpa [hs] using ht.sentUp hu
  sentDown hd := by
    rw [sentDown_note (by simp)] at hd
    simpa [hs] using ht.sentDown hd
  reply := nofun
  opaqueData := nofun

theorem sendUp (ht : Traffic h channel socket) {bytes : List UInt8}
    (hs : socket.stage = .reply ∨ socket.stage = .opaqueData) :
    Traffic ((c, .toUpstream channel bytes) :: h) channel socket where
  stopped := by rw [stopped_note (by simp), ht.stopped]
  claim k := by rw [claimed_note (by simp), ht.claim]
  admitted := by rw [admitted_note (by simp), ht.admitted]
  validated := by rw [validated_note (by simp), ← ht.validated]
  sentUp _ := hs
  sentDown hd := ht.sentDown ((sentDown_note (by simp)).mp hd)
  reply hs := ht.reply_grow hs
  opaqueData hs := ht.opaque_grow hs

theorem sendDown (ht : Traffic h channel socket) {bytes : List UInt8}
    (hs : socket.stage = .reply ∧ socket.replied = true ∨ socket.stage = .opaqueData) :
    Traffic ((c, .toBrowser channel bytes) :: h) channel socket where
  stopped := by rw [stopped_note (by simp), ht.stopped]
  claim k := by rw [claimed_note (by simp), ht.claim]
  admitted := by rw [admitted_note (by simp), ht.admitted]
  validated := by rw [validated_note (by simp), ← ht.validated]
  sentUp hu := ht.sentUp ((sentUp_note (by simp)).mp hu)
  sentDown _ := hs
  reply hs := ht.reply_grow hs
  opaqueData hs := ht.opaque_grow hs

theorem stop (ht : Traffic h channel socket) {reason : Reason} {cause : Cause} :
    Traffic ((c, .stopped channel reason cause) :: h) channel
      { socket with stopped := true, timer := false, detach := none } where
  stopped := iff_of_true rfl ⟨cause, c, reason, .head _⟩
  claim k := by rw [claimed_note (by simp), ht.claim]
  admitted := by rw [admitted_note (by simp), ht.admitted]
  validated := by rw [validated_note (by simp), ← ht.validated]
  sentUp hu := ht.sentUp ((sentUp_note (by simp)).mp hu)
  sentDown hd := ht.sentDown ((sentDown_note (by simp)).mp hd)
  reply hs := ht.reply_grow hs
  opaqueData hs := ht.opaque_grow hs

end Traffic

section Settled

variable {h : History} {c : Call} {e : Event} {channel : ℕ} {socket : Channel}

theorem Settled.grow (hs : Settled h channel socket) : Settled ((c, e) :: h) channel socket where
  proceeded hp := by
    rcases hs.proceeded hp with ⟨cause, hst⟩ | ⟨c', b, b', hv, hu⟩
    · exact .inl ⟨cause, hst.mono (List.suffix_cons ..)⟩
    · exact .inr ⟨c', b, b', .tail _ hv, .tail _ hu⟩
  replied hr := by
    rcases hs.replied hr with ⟨cause, hst⟩ | ⟨c', b, reply, hd, hrep⟩
    · exact .inl ⟨cause, hst.mono (List.suffix_cons ..)⟩
    · exact .inr ⟨c', b, reply, .tail _ hd, hrep⟩

theorem Settled.of_stopped (hs : Stopped h channel) : Settled h channel socket :=
  ⟨fun _ ↦ .inl hs, fun _ ↦ .inl hs⟩

end Settled

namespace Switchboard

variable {unsettled : Option ℕ} {sessions sessions' : List String}
  {objects objects' : String → Option Session} {sockets : ℕ → Option Channel} {h : History}
  {c : Call} {e : Event}

/-- An event of no channel; sessions may leave, and channels be detached. -/
theorem note (hs : Switchboard unsettled sessions objects sockets h) (he : e.channel = none) :
    Switchboard unsettled sessions objects sockets ((c, e) :: h) := by
  have hne : ∀ channel : ℕ, e.channel ≠ some channel := by
    intro channel heq
    rw [he] at heq
    cases heq
  refine ⟨fun channel socket hc hu ↦ (hs.settled channel socket hc hu).grow,
    fun channel socket hc ↦ (hs.traffic channel socket hc).other (hne channel),
    fun channel hc ↦ ?_, fun guid session ho channel hm ↦ ?_, fun channel claim hu hst hc ↦ ?_⟩
  · rw [admitted_other (hne channel), stopped_other (hne channel)]
    exact hs.unknown channel hc
  · obtain ⟨claim, hc, hg⟩ := hs.attached guid session ho channel hm
    exact ⟨claim, hc.mono (List.suffix_cons ..), hg⟩
  · rw [stoppedBy_other (hne channel), stoppedBy_other (hne channel)]
    exact hs.orphaned channel claim hu ((stopped_other (hne channel)).mp hst)
      ((claimed_other (hne channel)).mp hc)

theorem shrink (hs : Switchboard unsettled sessions objects sockets h) (hsub : sessions' ⊆ sessions) :
    Switchboard unsettled sessions' objects sockets h :=
  { hs with
    orphaned := fun channel claim hu hst hc ↦
      (hs.orphaned channel claim hu hst hc).imp_left fun hn hm ↦ hn (hsub hm) }

theorem change (hs : Switchboard unsettled sessions objects sockets h)
    (ho : ∀ guid session', objects' guid = some session' → ∀ channel ∈ session'.sockets,
      ∃ session, objects guid = some session ∧ channel ∈ session.sockets) :
    Switchboard unsettled sessions objects' sockets h :=
  { hs with
    attached := fun guid session' ho' channel hm ↦ by
      obtain ⟨session, hobj, hm'⟩ := ho guid session' ho' channel hm
      exact hs.attached guid session hobj channel hm' }

theorem modify (hs : Switchboard unsettled sessions objects sockets h) {f : Session → Session}
    {guid : String} (hf : ∀ session, (f session).sockets ⊆ session.sockets) :
    Switchboard unsettled sessions (update objects guid ((objects guid).map f)) sockets h := by
  refine hs.change fun g s' ho channel hm ↦ ?_
  obtain ⟨s, hobj, rfl⟩ := change_eq_some.mp ho
  refine ⟨s, hobj, ?_⟩
  split at hm
  · exact hf s hm
  · exact hm

/-- A new session is none that a channel ever claimed. -/
theorem start (hs : Switchboard unsettled sessions objects sockets h) {runtime : Runtime}
    (hl : Lawful (law runtime) h) {session : Session} (hnew : ¬Started h session.guid)
    (hsock : session.sockets = []) :
    Switchboard unsettled (sessions ++ [session.guid])
      (update objects session.guid (some session)) sockets h := by
  refine { hs with attached := fun guid s ho channel hm ↦ ?_, orphaned := fun channel claim hu hst hc ↦ ?_ }
  · by_cases hg : guid = session.guid
    · subst hg
      rw [update_self] at ho
      obtain rfl := Option.some.inj ho
      rw [hsock] at hm
      cases hm
    · rw [update_of_ne hg] at ho
      exact hs.attached guid s ho channel hm
  · refine (hs.orphaned channel claim hu hst hc).imp_left fun hn hm ↦ ?_
    rw [List.mem_append, List.mem_singleton] at hm
    rcases hm with hm | heq
    · exact hn hm
    · exact hnew (heq ▸ claimed_started hl hc)

/-- A channel of the claimed session is attached to it. -/
theorem attach (hs : Switchboard unsettled sessions objects sockets h) {guid : String} {channel : ℕ}
    {claim : GatewayClaim} (hc : Claimed h channel claim) (hg : claim.sessionGuid = guid) :
    Switchboard unsettled sessions (update objects guid ((objects guid).map fun session ↦
      { session with sockets := session.sockets ++ [channel] })) sockets h := by
  refine { hs with attached := fun g s' ho ch hm ↦ ?_ }
  obtain ⟨s, hobj, rfl⟩ := change_eq_some.mp ho
  split at hm
  · rename_i hgg
    rw [List.mem_append, List.mem_singleton] at hm
    rcases hm with hm | rfl
    · exact hs.attached g s hobj ch hm
    · exact ⟨claim, hc, hg.trans hgg.symm⟩
  · exact hs.attached g s hobj ch hm

/-- A block begins to work on a channel. -/
theorem unsettle (hs : Switchboard none sessions objects sockets h) (channel : ℕ) :
    Switchboard (some channel) sessions objects sockets h :=
  { hs with
    settled := fun ch s hc _ ↦ hs.settled ch s hc nofun
    orphaned := fun ch claim _ ↦ hs.orphaned ch claim nofun }

section Socket

variable {channel : ℕ} {socket : Channel}

/-- The block is done with its channel. -/
theorem settle (hs : Switchboard (some channel) sessions objects sockets h)
    (hset : ∀ socket, sockets channel = some socket → Settled h channel socket)
    (horphaned : ∀ claim, Stopped h channel → Claimed h channel claim →
      claim.sessionGuid ∉ sessions ∨ StoppedBy h channel .handoff ∨ StoppedBy h channel .shutdown) :
    Switchboard none sessions objects sockets h := by
  refine { hs with settled := fun ch s hc _ ↦ ?_, orphaned := fun ch claim _ hst hc ↦ ?_ }
  · by_cases hcc : ch = channel
    · subst hcc
      exact hset s hc
    · exact hs.settled ch s hc fun heq ↦ hcc (Option.some.inj heq).symm
  · by_cases hcc : ch = channel
    · subst hcc
      exact horphaned claim hst hc
    · exact hs.orphaned ch claim (fun heq ↦ hcc (Option.some.inj heq).symm) hst hc

/-- A change of the unsettled channel without an event. -/
theorem adjust (hs : Switchboard (some channel) sessions objects sockets h)
    (ht : Traffic h channel socket) :
    Switchboard (some channel) sessions objects (update sockets channel (some socket)) h := by
  refine { hs with settled := fun ch s hch hu ↦ ?_, traffic := fun ch s hch ↦ ?_, unknown := fun ch hch ↦ ?_ }
  · rw [update_of_ne fun heq ↦ hu (congrArg some heq.symm)] at hch
    exact hs.settled ch s hch hu
  · by_cases hcc : ch = channel
    · subst hcc
      rw [update_self] at hch
      obtain rfl := Option.some.inj hch
      exact ht
    · rw [update_of_ne hcc] at hch
      exact hs.traffic ch s hch
  · by_cases hcc : ch = channel
    · subst hcc
      rw [update_self] at hch
      cases hch
    · rw [update_of_ne hcc] at hch
      exact hs.unknown ch hch

/-- Something happens on one channel. -/
theorem event (hs : Switchboard unsettled sessions objects sockets h)
    (he : e.channel = some channel) (ht : Traffic ((c, e) :: h) channel socket)
    (hset : unsettled ≠ some channel → Settled ((c, e) :: h) channel socket)
    (horphaned : unsettled ≠ some channel → ∀ claim, Stopped ((c, e) :: h) channel →
      Claimed ((c, e) :: h) channel claim → claim.sessionGuid ∉ sessions ∨
        StoppedBy ((c, e) :: h) channel .handoff ∨ StoppedBy ((c, e) :: h) channel .shutdown) :
    Switchboard unsettled sessions objects (update sockets channel (some socket)) ((c, e) :: h) := by
  have hother : ∀ ch, ch ≠ channel → e.channel ≠ some ch := by
    intro ch hch heq
    exact hch (Option.some.inj (he.symm.trans heq)).symm
  refine ⟨fun ch s hch hu ↦ ?_, fun ch s hch ↦ ?_, fun ch hch ↦ ?_, fun guid session ho ch hm ↦ ?_,
    fun ch claim hu hst hc ↦ ?_⟩
  · by_cases hcc : ch = channel
    · subst hcc
      rw [update_self] at hch
      obtain rfl := Option.some.inj hch
      exact hset hu
    · rw [update_of_ne hcc] at hch
      exact (hs.settled ch s hch hu).grow
  · by_cases hcc : ch = channel
    · subst hcc
      rw [update_self] at hch
      obtain rfl := Option.some.inj hch
      exact ht
    · rw [update_of_ne hcc] at hch
      exact (hs.traffic ch s hch).other (hother ch hcc)
  · by_cases hcc : ch = channel
    · subst hcc
      rw [update_self] at hch
      cases hch
    · rw [update_of_ne hcc] at hch
      rw [admitted_other (hother ch hcc), stopped_other (hother ch hcc)]
      exact hs.unknown ch hch
  · obtain ⟨claim, hc, hg⟩ := hs.attached guid session ho ch hm
    exact ⟨claim, hc.mono (List.suffix_cons ..), hg⟩
  · by_cases hcc : ch = channel
    · subst hcc
      exact horphaned hu claim hst hc
    · rw [stoppedBy_other (hother ch hcc), stoppedBy_other (hother ch hcc)]
      exact hs.orphaned ch claim hu ((stopped_other (hother ch hcc)).mp hst)
        ((claimed_other (hother ch hcc)).mp hc)

/-- Something happens on the unsettled channel. -/
theorem step (hs : Switchboard (some channel) sessions objects sockets h)
    (he : e.channel = some channel) (ht : Traffic ((c, e) :: h) channel socket) :
    Switchboard (some channel) sessions objects (update sockets channel (some socket))
      ((c, e) :: h) :=
  hs.event he ht (fun hn ↦ absurd rfl hn) fun hn ↦ absurd rfl hn

end Socket

end Switchboard

end RustdeskConsole.Gateway
