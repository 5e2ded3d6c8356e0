import RustdeskConsole.Gateway.Law

namespace RustdeskConsole.Gateway

open Effects Effects.History WebClient

section Monotone

variable {h h' : History} {c : Call} {guid uuid hash : String} {phase : Phase} {channel : ℕ}
  {claim : GatewayClaim} {cause : Cause}

theorem Started.mono (hs : Started h guid) (hh : h <:+ h') : Started h' guid := by
  obtain ⟨c, s, a, b, hm, hg⟩ := hs
  exact ⟨c, s, a, b, hh.subset hm, hg⟩

theorem Ended.mono (he : Ended h guid) (hh : h <:+ h') : Ended h' guid := by
  obtain ⟨c, closed, hm, hg⟩ := he
  exact ⟨c, closed, hh.subset hm, hg⟩

theorem HandedTo.mono (ht : HandedTo h c guid) (hh : h <:+ h') : HandedTo h' c guid := by
  obtain ⟨closed, hm, hg⟩ := ht
  exact ⟨closed, hh.subset hm, hg⟩

theorem Activated.mono (ha : Activated h guid) (hh : h <:+ h') : Activated h' guid := by
  obtain ⟨c, hm⟩ := ha
  exact ⟨c, hh.subset hm⟩

theorem Claimed.mono (hc : Claimed h channel claim) (hh : h <:+ h') : Claimed h' channel claim := by
  obtain ⟨c, hm⟩ := hc
  exact ⟨c, hh.subset hm⟩

theorem Issued.mono (hi : Issued h hash guid phase) (hh : h <:+ h') : Issued h' hash guid phase := by
  cases hi with
  | rendezvous hm hg => exact .rendezvous (hh.subset hm) hg
  | relay hm hg => exact .relay (hh.subset hm) hg

theorem Issued.started (hi : Issued h hash guid phase) :
    Started h guid := by
  cases hi with
  | rendezvous hm hg => exact ⟨_, _, _, _, hm, hg⟩
  | relay hm hg => exact ⟨_, _, _, _, hm, hg⟩

theorem Opening.mono (ho : Opening h c guid) (hh : h <:+ h') : Opening h' c guid := by
  obtain ⟨channel, bytes, claim, hv, hc, hr⟩ := ho
  exact ⟨channel, bytes, claim, hh.subset hv, hc.mono hh, hr⟩

theorem Consuming.mono {ticket : Ticket} (hc : Consuming h c hash ticket) (hh : h <:+ h') :
    Consuming h' c hash ticket := by
  obtain ⟨earlier, hs, ht⟩ := hc
  exact ⟨earlier, hs.trans hh, ht⟩

theorem StoppedBy.mono (hs : StoppedBy h channel cause) (hh : h <:+ h') :
    StoppedBy h' channel cause := by
  obtain ⟨c, reason, hm⟩ := hs
  exact ⟨c, reason, hh.subset hm⟩

end Monotone

variable {runtime : Runtime} {h : History} (hl : Lawful (law runtime) h)

include hl

section Sessions

variable {c c' : Call} {guid : String}

theorem begun_unique {e e' : ℕ} (hb : (c, .begun guid e) ∈ h) (hb' : (c', .begun guid e') ∈ h) :
    c = c' ∧ e = e' := by
  have ho : AtMostOnce (fun x : Call × Event ↦ ∃ e, x.2 = .begun guid e) h := by
    refine hl.unfollowed fun earlier x hx ⟨e, he⟩ p hp ⟨e', hpe⟩ ↦ ?_
    obtain ⟨c, rfl⟩ : ∃ c, x = (c, .begun guid e) := ⟨x.1, Prod.ext rfl he⟩
    obtain ⟨c', rfl⟩ : ∃ c', p = (c', .begun guid e') := ⟨p.1, Prod.ext rfl hpe⟩
    exact hx.1 _ _ hp
  have heq := ho.eq hb hb' ⟨e, rfl⟩ ⟨e', rfl⟩
  cases heq
  exact ⟨rfl, rfl⟩

theorem started_begun {s : Session} {a b : String} (hs : (c, .started s a b) ∈ h) :
    ∃ epoch, (c, .begun s.guid epoch) ∈ h := by
  obtain ⟨earlier, he, hlaw⟩ := hl.of_mem hs
  exact ⟨_, ((List.suffix_cons ..).trans he).subset hlaw.1⟩

theorem started_isUuid (hs : Started h guid) : isUuid guid = true := by
  obtain ⟨c, s, a, b, hm, rfl⟩ := hs
  obtain ⟨epoch, hb⟩ := started_begun hl hm
  obtain ⟨earlier, -, -, -, -, hu⟩ := hl.of_mem hb
  exact hu

theorem started_unique {s s' : Session} {a b a' b' : String} (hs : (c, .started s a b) ∈ h)
    (hs' : (c', .started s' a' b') ∈ h) (hg : s.guid = s'.guid) :
    c = c' ∧ s = s' ∧ a = a' ∧ b = b' := by
  have ho : AtMostOnce (fun x : Call × Event ↦ ∃ r a b, x.2 = .started r a b ∧ r.guid = s.guid) h := by
    refine hl.unfollowed fun earlier x hx ⟨r, a, b, he, hr⟩ p hp ⟨r', a', b', hpe, hr'⟩ ↦ ?_
    obtain ⟨c, rfl⟩ : ∃ c, x = (c, .started r a b) := ⟨x.1, Prod.ext rfl he⟩
    obtain ⟨c', rfl⟩ : ∃ c', p = (c', .started r' a' b') := ⟨p.1, Prod.ext rfl hpe⟩
    exact hx.2.1 ⟨_, _, _, _, hp, hr'.trans hr.symm⟩
  have heq := ho.eq hs hs' ⟨s, a, b, rfl, rfl⟩ ⟨s', a', b', rfl, hg.symm⟩
  cases heq
  exact ⟨rfl, rfl, rfl, rfl⟩

theorem ended_started (he : Ended h guid) : Started h guid := by
  obtain ⟨c, closed, hm, hg⟩ := he
  obtain ⟨item, hi, rfl⟩ := List.mem_map.mp hg
  obtain ⟨earlier, hs, hlaw⟩ := hl.of_mem hm
  exact (hlaw.2 item hi).1.mono ((List.suffix_cons ..).trans hs)

theorem activated_started (ha : Activated h guid) : Started h guid := by
  obtain ⟨c, hm⟩ := ha
  obtain ⟨earlier, hs, hlive, -⟩ := hl.of_mem hm
  exact hlive.1.mono ((List.suffix_cons ..).trans hs)

theorem bound_started {uuid : String} (hb : Bound h guid uuid) :
    isUuid uuid = true ∧ Started h guid := by
  obtain ⟨c, hm⟩ := hb
  obtain ⟨earlier, hs, hu, hlive, -⟩ := hl.of_mem hm
  exact ⟨hu, hlive.1.mono ((List.suffix_cons ..).trans hs)⟩

theorem handed_ended (hh : Handed h guid) : Ended h guid := by
  obtain ⟨c, closed, hm, hg⟩ := hh
  obtain ⟨item, hi, rfl⟩ := List.mem_map.mp hg
  obtain ⟨earlier, hs, hlaw⟩ := hl.of_mem hm
  exact (hlaw.2 item hi).1.mono ((List.suffix_cons ..).trans hs)

theorem recorded_handed {reason : Reason} {closedBy : Option String}
    (hr : (c, .recorded guid (.sessionEnded reason closedBy)) ∈ h) : Handed h guid := by
  obtain ⟨earlier, hs, hlaw⟩ := hl.of_mem hr
  exact ⟨c, hlaw.1.mono ((List.suffix_cons ..).trans hs)⟩

end Sessions

section Tickets

variable {c : Call} {hash guid : String} {phase : Phase}

theorem consumed_ticket {value : String} {claim : GatewayClaim}
    (hc : (c, .consumed value claim) ∈ h) : ∃ ticket, (c, .taken (runtime.sha256 value) ticket) ∈ h ∧
      ticket.sessionGuid = claim.sessionGuid ∧ ticket.phase = claim.phase := by
  obtain ⟨earlier, hs, -, -, ticket, ⟨before, hb, ht⟩, hg, hp⟩ := hl.of_mem hc
  have hsuf := (List.suffix_cons ..).trans (hb.trans ((List.suffix_cons ..).trans hs))
  exact ⟨ticket, hsuf.subset ht, hg, hp⟩

theorem consumed_started {value : String} {claim : GatewayClaim}
    (hc : (c, .consumed value claim) ∈ h) : Started h claim.sessionGuid := by
  obtain ⟨earlier, hs, hlive, -⟩ := hl.of_mem hc
  exact hlive.1.mono ((List.suffix_cons ..).trans hs)

theorem taken_issued {ticket : Ticket} (ht : (c, .taken hash ticket) ∈ h) :
    Issued h hash ticket.sessionGuid ticket.phase := by
  obtain ⟨earlier, hs, hi, -⟩ := hl.of_mem ht
  exact hi.mono ((List.suffix_cons ..).trans hs)

theorem taken_unique {c' : Call} {ticket ticket' : Ticket} (ht : (c, .taken hash ticket) ∈ h)
    (ht' : (c', .taken hash ticket') ∈ h) : c = c' ∧ ticket = ticket' := by
  have ho : AtMostOnce (fun x : Call × Event ↦ ∃ t, x.2 = .taken hash t) h := by
    refine hl.unfollowed fun earlier x hx ⟨t, he⟩ p hp ⟨t', hpe⟩ ↦ ?_
    obtain ⟨c, rfl⟩ : ∃ c, x = (c, .taken hash t) := ⟨x.1, Prod.ext rfl he⟩
    obtain ⟨c', rfl⟩ : ∃ c', p = (c', .taken hash t') := ⟨p.1, Prod.ext rfl hpe⟩
    exact hx.2 ⟨_, _, hp⟩
  have heq := ho.eq ht ht' ⟨_, rfl⟩ ⟨_, rfl⟩
  cases heq
  exact ⟨rfl, rfl⟩

/-- A session has one ticket of each phase. -/
theorem issued_hash {hash' : String} (hi : Issued h hash guid phase)
    (hi' : Issued h hash' guid phase) : hash = hash' := by
  cases hi with
  | rendezvous hm hg =>
    cases hi' with
    | rendezvous hm' hg' => exact (started_unique hl hm hm' (hg.trans hg'.symm)).2.2.1
  | relay hm hg =>
    cases hi' with
    | relay hm' hg' => exact (started_unique hl hm hm' (hg.trans hg'.symm)).2.2.2

end Tickets

section Channels

variable {c c' : Call} {channel : ℕ} {claim claim' : GatewayClaim}

theorem admitted_unique (ha : (c, .admitted channel) ∈ h) (ha' : (c', .admitted channel) ∈ h) :
    c = c' := by
  have ho : AtMostOnce (fun x : Call × Event ↦ x.2 = .admitted channel) h := by
    refine hl.unfollowed fun earlier x hx he p hp hpe ↦ ?_
    obtain ⟨c, rfl⟩ : ∃ c, x = (c, .admitted channel) := ⟨x.1, Prod.ext rfl he⟩
    obtain ⟨c', rfl⟩ : ∃ c', p = (c', .admitted channel) := ⟨p.1, Prod.ext rfl hpe⟩
    exact hx.1 ⟨_, hp⟩
  exact (Prod.mk.inj (ho.eq ha ha' rfl rfl)).1

/-- A call admits one channel. -/
theorem admitted_channel {channel' : ℕ} (ha : (c, .admitted channel) ∈ h)
    (ha' : (c, .admitted channel') ∈ h) : channel = channel' := by
  have ho : AtMostOnce (fun x : Call × Event ↦ ∃ ch, x = (c, .admitted ch)) h := by
    refine hl.unfollowed fun earlier x hx ⟨ch, he⟩ p hp ⟨ch', hpe⟩ ↦ ?_
    subst he hpe
    exact hx.2 _ hp
  cases ho.eq ha ha' ⟨_, rfl⟩ ⟨_, rfl⟩
  rfl

theorem claimed_admitted (hc : (c, .claimed channel claim) ∈ h) :
    (c, .admitted channel) ∈ h ∧ ∃ value, (c, .consumed value claim) ∈ h := by
  obtain ⟨earlier, hs, ha, ⟨value, hv⟩, -⟩ := hl.of_mem hc
  have hsuf := (List.suffix_cons ..).trans hs
  exact ⟨hsuf.subset ha, value, hsuf.subset hv⟩

theorem claimed_once {channel' : ℕ} (hc : (c, .claimed channel claim) ∈ h)
    (hc' : (c, .claimed channel' claim') ∈ h) : channel = channel' ∧ claim = claim' := by
  have ho : AtMostOnce (fun x : Call × Event ↦ ∃ ch k, x = (c, .claimed ch k)) h := by
    refine hl.unfollowed fun earlier x hx ⟨ch, k, he⟩ p hp ⟨ch', k', hpe⟩ ↦ ?_
    subst he hpe
    exact hx.2.2 _ _ hp
  cases ho.eq hc hc' ⟨_, _, rfl⟩ ⟨_, _, rfl⟩
  exact ⟨rfl, rfl⟩

/-- A channel has one claim. -/
theorem claimed_unique (hc : Claimed h channel claim) (hc' : Claimed h channel claim') :
    claim = claim' := by
  obtain ⟨c, hc⟩ := hc
  obtain ⟨c', hc'⟩ := hc'
  obtain rfl := admitted_unique hl (claimed_admitted hl hc).1 (claimed_admitted hl hc').1
  exact (claimed_once hl hc hc').2

theorem claimed_started (hc : Claimed h channel claim) : Started h claim.sessionGuid := by
  obtain ⟨c, hc⟩ := hc
  obtain ⟨-, value, hv⟩ := claimed_admitted hl hc
  exact consumed_started hl hv

theorem validated_claimed (hv : Validated h channel) : ∃ claim, Claimed h channel claim := by
  obtain ⟨c, bytes, hv⟩ := hv
  obtain ⟨earlier, hs, -, -, claim, hc, -⟩ := hl.of_mem hv
  exact ⟨claim, hc.mono ((List.suffix_cons ..).trans hs)⟩

theorem validated_unique {bytes bytes' : List UInt8} (hv : (c, .validated channel bytes) ∈ h)
    (hv' : (c', .validated channel bytes') ∈ h) : c = c' ∧ bytes = bytes' := by
  have ho : AtMostOnce (fun x : Call × Event ↦ ∃ b, x.2 = .validated channel b) h := by
    refine hl.unfollowed fun earlier x hx ⟨b, he⟩ p hp ⟨b', hpe⟩ ↦ ?_
    obtain ⟨c, rfl⟩ : ∃ c, x = (c, .validated channel b) := ⟨x.1, Prod.ext rfl he⟩
    obtain ⟨c', rfl⟩ : ∃ c', p = (c', .validated channel b') := ⟨p.1, Prod.ext rfl hpe⟩
    exact hx.2.1 ⟨_, _, hp⟩
  cases ho.eq hv hv' ⟨_, rfl⟩ ⟨_, rfl⟩
  exact ⟨rfl, rfl⟩

theorem sentUp_validated (hs : SentUp h channel) : Validated h channel := by
  obtain ⟨c, bytes, hm⟩ := hs
  obtain ⟨earlier, he, -, ⟨c', b, hv⟩, -⟩ := hl.of_mem hm
  exact ⟨c', b, ((List.suffix_cons ..).trans he).subset hv⟩

theorem sentDown_claimed (hs : SentDown h channel) : ∃ claim, Claimed h channel claim := by
  obtain ⟨c, bytes, hm⟩ := hs
  obtain ⟨earlier, he, -, claim, hc, -⟩ := hl.of_mem hm
  exact ⟨claim, hc.mono ((List.suffix_cons ..).trans he)⟩

theorem claimed_channel (hc : Claimed h channel claim) : Admitted h channel := by
  obtain ⟨c, hc⟩ := hc
  exact ⟨c, (claimed_admitted hl hc).1⟩

end Channels

end RustdeskConsole.Gateway
