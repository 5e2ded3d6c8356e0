import RustdeskConsole.Gateway.Sessions

namespace RustdeskConsole.Gateway

open Effects Effects.History Function Collections WebClient

section Traffic

variable {runtime : Runtime} {h : History} {channel : ℕ} {claim : GatewayClaim}
  (hl : Lawful (law runtime) h)

include hl

/-- What a rendezvous channel sends upstream, it sends once. -/
theorem sentUp_once (hc : Claimed h channel claim) (hp : claim.phase = .rendezvous) :
    AtMostOnce (fun e : Call × Event ↦ ∃ bytes, e.2 = .toUpstream channel bytes) h := by
  intro e earlier hs ⟨bytes, he⟩ p hpm ⟨bytes', hpe⟩
  obtain ⟨c, rfl⟩ : ∃ c, e = (c, .toUpstream channel bytes) := ⟨e.1, Prod.ext rfl he⟩
  obtain ⟨c', rfl⟩ : ∃ c', p = (c', .toUpstream channel bytes') := ⟨p.1, Prod.ext rfl hpe⟩
  obtain ⟨-, -, claim', hc', hlaw⟩ := hl _ _ hs
  obtain rfl := claimed_unique hl hc (hc'.mono ((List.suffix_cons ..).trans hs))
  rw [hp] at hlaw
  exact hlaw.1 ⟨c', bytes', hpm⟩

theorem sentDown_once (hc : Claimed h channel claim) (hp : claim.phase = .rendezvous) :
    AtMostOnce (fun e : Call × Event ↦ ∃ bytes, e.2 = .toBrowser channel bytes) h := by
  intro e earlier hs ⟨bytes, he⟩ p hpm ⟨bytes', hpe⟩
  obtain ⟨c, rfl⟩ : ∃ c, e = (c, .toBrowser channel bytes) := ⟨e.1, Prod.ext rfl he⟩
  obtain ⟨c', rfl⟩ : ∃ c', p = (c', .toBrowser channel bytes') := ⟨p.1, Prod.ext rfl hpe⟩
  obtain ⟨-, claim', hc', hlaw⟩ := hl _ _ hs
  obtain rfl := claimed_unique hl hc (hc'.mono ((List.suffix_cons ..).trans hs))
  rw [hp] at hlaw
  exact hlaw.1 ⟨c', bytes', hpm⟩

theorem sentUp_request (hc : Claimed h channel claim) (hp : claim.phase = .rendezvous) {c : Call}
    {bytes : List UInt8} (hm : (c, .toUpstream channel bytes) ∈ h) :
    ∃ c, (c, .validated channel bytes) ∈ h := by
  obtain ⟨earlier, hs, -, -, claim', hc', hlaw⟩ := hl.of_mem hm
  have hsuf := (List.suffix_cons ..).trans hs
  obtain rfl := claimed_unique hl hc (hc'.mono hsuf)
  rw [hp] at hlaw
  obtain ⟨-, c', hv⟩ := hlaw
  exact ⟨c', hsuf.subset hv⟩

theorem sentDown_reply (hc : Claimed h channel claim) (hp : claim.phase = .rendezvous) {c : Call}
    {bytes : List UInt8} (hm : (c, .toBrowser channel bytes) ∈ h) :
    ∃ reply, readRendezvousReply bytes = .ok reply := by
  obtain ⟨earlier, hs, -, claim', hc', hlaw⟩ := hl.of_mem hm
  obtain rfl := claimed_unique hl hc (hc'.mono ((List.suffix_cons ..).trans hs))
  rw [hp] at hlaw
  exact hlaw.2

/-- The relay of a session was marked open before its channel carries anything. -/
theorem relay_activated (hc : Claimed h channel claim) (hp : claim.phase = .relay) {c : Call}
    {bytes : List UInt8} {earlier : History}
    (hs : (c, .toUpstream channel bytes) :: earlier <:+ h ∨
      (c, .toBrowser channel bytes) :: earlier <:+ h) : Activated earlier claim.sessionGuid := by
  rcases hs with hs | hs
  · obtain ⟨-, -, claim', hc', hlaw⟩ := hl _ _ hs
    obtain rfl := claimed_unique hl hc (hc'.mono ((List.suffix_cons ..).trans hs))
    rwa [hp] at hlaw
  · obtain ⟨-, claim', hc', hlaw⟩ := hl _ _ hs
    obtain rfl := claimed_unique hl hc (hc'.mono ((List.suffix_cons ..).trans hs))
    rwa [hp] at hlaw

/-- The upstream hears nothing before a first frame that fits the consumed claim. -/
theorem sentUp_after_request {c : Call} {bytes : List UInt8} {earlier : History}
    (hs : (c, .toUpstream channel bytes) :: earlier <:+ h) :
    ∃ claim request, Claimed earlier channel claim ∧
      (∃ c value, (c, .consumed value claim) ∈ earlier) ∧
      (∃ c, (c, .validated channel request) ∈ earlier) ∧ validateRequest request claim = .ok () := by
  have hl' := hl.of_suffix ((List.suffix_cons ..).trans hs)
  obtain ⟨-, ⟨c', request, hv⟩, -⟩ := hl _ _ hs
  obtain ⟨before, hb, -, -, claim, hc, hok⟩ := hl'.of_mem hv
  have hc' := hc.mono ((List.suffix_cons ..).trans hb)
  refine ⟨claim, request, hc', ?_, ⟨c', hv⟩, hok⟩
  obtain ⟨c'', hm⟩ := hc'
  exact ⟨c'', (claimed_admitted hl' hm).2⟩

theorem silent_once_stopped (channel : ℕ) : Unfollowed
    (fun e : Call × Event ↦ ∃ reason cause, e.2 = .stopped channel reason cause)
    (fun e ↦ ∃ bytes, e.2 = .toUpstream channel bytes ∨ e.2 = .toBrowser channel bytes) h := by
  refine hl.unfollowed fun earlier x hx ⟨bytes, he⟩ p hp ⟨reason, cause, hpe⟩ ↦ ?_
  obtain ⟨c', rfl⟩ : ∃ c', p = (c', .stopped channel reason cause) := ⟨p.1, Prod.ext rfl hpe⟩
  have hst : Stopped earlier channel := ⟨cause, c', reason, hp⟩
  rcases he with he | he
  · obtain ⟨c, rfl⟩ : ∃ c, x = (c, .toUpstream channel bytes) := ⟨x.1, Prod.ext rfl he⟩
    exact hx.1 hst
  · obtain ⟨c, rfl⟩ : ∃ c, x = (c, .toBrowser channel bytes) := ⟨x.1, Prod.ext rfl he⟩
    exact hx.1 hst

/-- A hand-off keeps the session for the relay that the forwarded reply names. -/
theorem handoff_rendezvous (hc : Claimed h channel claim) (hst : StoppedBy h channel .handoff) :
    claim.phase = .rendezvous ∧ HandedOff h channel := by
  obtain ⟨c, reason, hm⟩ := hst
  obtain ⟨earlier, hs, -, ⟨c', bytes, uuid, hb, hreply⟩, claim', hc', hp⟩ := hl.of_mem hm
  have hsuf := (List.suffix_cons ..).trans hs
  obtain rfl := claimed_unique hl hc (hc'.mono hsuf)
  exact ⟨hp, c', bytes, uuid, hsuf.subset hb, hreply⟩

end Traffic

section Claims

variable {runtime : Runtime} {configuration : WebClientState}
  {cfg : Config Call Command Reply World}

/-- A channel forwards what it may, when it may. -/
theorem channel_forwards_safely
    (hr : (machine runtime).Run (Machine.idle (World.initial configuration)) cfg) (channel : ℕ) :
    (∀ call bytes earlier, (call, .toUpstream channel bytes) :: earlier <:+ cfg.world.history →
      ∃ claim request, Claimed earlier channel claim ∧
        (∃ c value, (c, .consumed value claim) ∈ earlier) ∧
        (∃ c, (c, .validated channel request) ∈ earlier) ∧ validateRequest request claim = .ok ()) ∧
    (∀ claim, Claimed cfg.world.history channel claim → claim.phase = .rendezvous →
      AtMostOnce (fun e ↦ ∃ bytes, e.2 = .toUpstream channel bytes) cfg.world.history ∧
      AtMostOnce (fun e ↦ ∃ bytes, e.2 = .toBrowser channel bytes) cfg.world.history ∧
      (∀ call bytes, (call, .toUpstream channel bytes) ∈ cfg.world.history →
        ∃ c, (c, .validated channel bytes) ∈ cfg.world.history) ∧
      ∀ call bytes, (call, .toBrowser channel bytes) ∈ cfg.world.history →
        ∃ reply, readRendezvousReply bytes = .ok reply) ∧
    (∀ claim, Claimed cfg.world.history channel claim → claim.phase = .relay →
      ∀ call bytes earlier, (call, .toUpstream channel bytes) :: earlier <:+ cfg.world.history ∨
        (call, .toBrowser channel bytes) :: earlier <:+ cfg.world.history →
        Activated earlier claim.sessionGuid) ∧
    Unfollowed (fun e ↦ ∃ reason cause, e.2 = .stopped channel reason cause)
      (fun e ↦ ∃ bytes, e.2 = .toUpstream channel bytes ∨ e.2 = .toBrowser channel bytes)
      cfg.world.history := by
  have hl := (sound_of_run hr).lawful
  refine ⟨fun call bytes earlier ↦ sentUp_after_request hl, fun claim hc hp ↦ ?_,
    fun claim hc hp call bytes earlier ↦ relay_activated hl hc hp, silent_once_stopped hl channel⟩
  exact ⟨sentUp_once hl hc hp, sentDown_once hl hc hp, fun call bytes ↦ sentUp_request hl hc hp,
    fun call bytes ↦ sentDown_reply hl hc hp⟩

/-- A session outlives its stopped channel only after a hand-off, or until the shutdown. -/
theorem no_orphaned_grant
    (hr : (machine runtime).Run (Machine.idle (World.initial configuration)) cfg) {channel : ℕ}
    (hst : Stopped cfg.world.history channel) {call : Call} {value : String} {claim : GatewayClaim}
    (ha : (call, .admitted channel) ∈ cfg.world.history)
    (hc : (call, .consumed value claim) ∈ cfg.world.history)
    (hdone : cfg.threads call = some (.done ())) :
    Ended cfg.world.history claim.sessionGuid ∨
      (StoppedBy cfg.world.history channel .handoff ∧ claim.phase = .rendezvous ∧
        HandedOff cfg.world.history channel) ∨
      StoppedBy cfg.world.history channel .shutdown := by
  have hL := reached hr
  have hs := hL.1.1
  have hclaimed : Claimed cfg.world.history channel claim :=
    ⟨call, (hL.ended hdone).obtained channel value claim ha hc⟩
  rcases hs.switchboard.orphaned channel claim nofun hst hclaimed with hgone | hhand | hshut
  · by_contra hcon
    rw [not_or] at hcon
    exact hgone ((hs.registry.live _).mpr ⟨claimed_started hs.lawful hclaimed, hcon.1⟩)
  · exact .inr (.inl ⟨hhand, handoff_rendezvous hs.lawful hclaimed hhand⟩)
  · exact .inr (.inr hshut)

end Claims

section Sample

def sampleClose : Call := ⟨4, .browserClose 7⟩

/-- The browser closes a channel whose request was sent. -/
def sampleClosed : Config Call Command Reply World :=
  sampleRun ([sampleCreate, sampleUpgrade, sampleFirst, sampleSecond, sampleClose].map
    (sampleServed sampleChoice))

def sampleClaim : GatewayClaim := ⟨sampleGuid '1', "123456", .desktop, .rendezvous, none, "key"⟩

theorem sampleClosed_run : (machine sampleRuntime).Run
    (Machine.idle (World.initial (.enabled sampleConfig))) sampleClosed :=
  sampleRun_run _

theorem sample_forwards_safely : Unfollowed
    (fun e : Call × Event ↦ ∃ reason cause, e.2 = .stopped 7 reason cause)
    (fun e ↦ ∃ bytes, e.2 = .toUpstream 7 bytes ∨ e.2 = .toBrowser 7 bytes)
    sampleClosed.world.history :=
  (channel_forwards_safely sampleClosed_run 7).2.2.2

theorem sample_no_orphan : Ended sampleClosed.world.history (sampleGuid '1') ∨
    (StoppedBy sampleClosed.world.history 7 .handoff ∧ sampleClaim.phase = .rendezvous ∧
      HandedOff sampleClosed.world.history 7) ∨
    StoppedBy sampleClosed.world.history 7 .shutdown := by
  have hst : (sampleClose, .stopped 7 .clientClosed .ordinary) ∈ sampleClosed.world.history := by
    decide +kernel
  have ha : (sampleFirst, .admitted 7) ∈ sampleClosed.world.history := by decide +kernel
  have hc : (sampleFirst, .consumed (sampleTicket 'A') sampleClaim) ∈
      sampleClosed.world.history := by decide +kernel
  have hdone : isDone (sampleClosed.threads sampleFirst) = true := by decide +kernel
  exact no_orphaned_grant sampleClosed_run ⟨_, _, _, hst⟩ ha hc (eq_done hdone)

end Sample

end RustdeskConsole.Gateway
