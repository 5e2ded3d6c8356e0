import RustdeskConsole.Effects.History
import RustdeskConsole.Gateway.Service

namespace RustdeskConsole.Gateway

open Effects Effects.History WebClient

section Facts

variable (h : History)

def timeouts : ℕ := h.countP fun x ↦ x.2 = .timedOut

def Started (guid : String) : Prop :=
  ∃ c session rendezvous relay, (c, .started session rendezvous relay) ∈ h ∧ session.guid = guid

def Ended (guid : String) : Prop :=
  ∃ c closed, (c, .ended closed) ∈ h ∧ guid ∈ closed.map (·.guid)

/-- The abstract session map: started and not ended. -/
def Live (guid : String) : Prop := Started h guid ∧ ¬Ended h guid

def HandedTo (c : Call) (guid : String) : Prop :=
  ∃ closed, (c, .handed closed) ∈ h ∧ guid ∈ closed.map (·.guid)

def Handed (guid : String) : Prop := ∃ c, HandedTo h c guid

def Activated (guid : String) : Prop := ∃ c, (c, .activated guid) ∈ h

def Bound (guid uuid : String) : Prop := ∃ c, (c, .bound guid uuid) ∈ h

/-- A session is started with one ticket for each phase. -/
inductive Issued (hash guid : String) : Phase → Prop
  | rendezvous {c session relay} : (c, .started session hash relay) ∈ h → session.guid = guid →
      Issued hash guid .rendezvous
  | relay {c session rendezvous} : (c, .started session rendezvous hash) ∈ h →
      session.guid = guid → Issued hash guid .relay

def Taken (hash : String) : Prop := ∃ c ticket, (c, .taken hash ticket) ∈ h

def Admitted (channel : ℕ) : Prop := ∃ c, (c, .admitted channel) ∈ h

def Claimed (channel : ℕ) (claim : GatewayClaim) : Prop := ∃ c, (c, .claimed channel claim) ∈ h

def Validated (channel : ℕ) : Prop := ∃ c bytes, (c, .validated channel bytes) ∈ h

def SentUp (channel : ℕ) : Prop := ∃ c bytes, (c, .toUpstream channel bytes) ∈ h

def SentDown (channel : ℕ) : Prop := ∃ c bytes, (c, .toBrowser channel bytes) ∈ h

def StoppedBy (channel : ℕ) (cause : Cause) : Prop := ∃ c reason, (c, .stopped channel reason cause) ∈ h

def Stopped (channel : ℕ) : Prop := ∃ cause, StoppedBy h channel cause

/-- A reply that names the relay was forwarded to the browser. -/
def HandedOff (channel : ℕ) : Prop :=
  ∃ c bytes uuid, (c, .toBrowser channel bytes) ∈ h ∧ readRendezvousReply bytes = .ok (.relay uuid)

/-- The call serves the first frame of a relay channel of the session. -/
def Opening (c : Call) (guid : String) : Prop :=
  ∃ channel bytes claim, (c, .validated channel bytes) ∈ h ∧ Claimed h channel claim ∧
    claim.phase = .relay ∧ claim.sessionGuid = guid

/-- The call took the ticket and then confirmed its session. -/
def Consuming (c : Call) (hash : String) (ticket : Ticket) : Prop :=
  ∃ earlier, (c, .confirmed ticket.sessionGuid) :: earlier <:+ h ∧ (c, .taken hash ticket) ∈ earlier

/-- The reservations that were not released. -/
def outstanding (user : String) : ℕ :=
  h.countP fun x ↦ x.2 = .reserved user ∧ (x.1, .released user) ∉ h

end Facts

/-- The parent a session may be created under. -/
def Lineage (h : History) (actor : WebClientActor) (targetId : String)
    (parentGuid parent : Option String) : Kind → Prop
  | .desktop => truthy parentGuid = none
  | .file => ∃ guid c s a b, parent = some guid ∧ parentGuid = some guid ∧
      (c, .started s a b) ∈ h ∧ s.guid = guid ∧ s.kind = .desktop ∧ s.actor = actor ∧
      s.targetId = targetId ∧ Activated h guid

/-- What must have come before each event, and what must not. -/
def law (runtime : Runtime) (h : History) : Call × Event → Prop
  | (c, .begun guid epoch) =>
    (∀ c' e, (c', .begun guid e) ∉ h) ∧ (∀ g e, (c, .begun g e) ∉ h) ∧ epoch = timeouts h ∧
      isUuid guid = true
  | (c, .reserved _) => ∀ user, (c, .reserved user) ∉ h
  | (c, .released user) => (c, .reserved user) ∈ h ∧ (c, .released user) ∉ h
  | (c, .started session rendezvous relay) =>
    (c, .begun session.guid (timeouts h)) ∈ h ∧ ¬Started h session.guid ∧ rendezvous ≠ relay ∧
      session.ticketHashes = [rendezvous, relay] ∧
      ∀ guid phase, ¬Issued h rendezvous guid phase ∧ ¬Issued h relay guid phase
  | (_, .timedOut) => True
  | (_, .taken hash ticket) => Issued h hash ticket.sessionGuid ticket.phase ∧ ¬Taken h hash
  | (_, .confirmed guid) => Live h guid
  | (c, .consumed value claim) =>
    Live h claim.sessionGuid ∧ (∀ v k, (c, .consumed v k) ∉ h) ∧
      ∃ ticket, Consuming h c (runtime.sha256 value) ticket ∧
        ticket.sessionGuid = claim.sessionGuid ∧ ticket.phase = claim.phase
  | (_, .bound guid uuid) => isUuid uuid = true ∧ Live h guid ∧ ∀ u, ¬Bound h guid u
  | (c, .activated guid) => Live h guid ∧ (c, .recorded guid .gatewayOpen) ∈ h
  | (_, .ended closed) => (closed.map (·.guid)).Nodup ∧ ∀ item ∈ closed, Live h item.guid
  | (_, .handed closed) =>
    (closed.map (·.guid)).Nodup ∧ ∀ item ∈ closed, Ended h item.guid ∧ ¬Handed h item.guid
  | (c, .recorded guid audit) =>
    match audit with
    | .sessionEnded _ _ =>
      HandedTo h c guid ∧ ∀ reason closedBy, (c, .recorded guid (.sessionEnded reason closedBy)) ∉ h
    | .gatewayOpen => Opening h c guid ∧ (c, .recorded guid .gatewayOpen) ∉ h
    | _ => True
  | (c, .admitted channel) => ¬Admitted h channel ∧ ∀ ch, (c, .admitted ch) ∉ h
  | (c, .claimed channel claim) =>
    (c, .admitted channel) ∈ h ∧ (∃ value, (c, .consumed value claim) ∈ h) ∧
      ∀ ch k, (c, .claimed ch k) ∉ h
  | (_, .validated channel bytes) =>
    ¬Stopped h channel ∧ ¬Validated h channel ∧
      ∃ claim, Claimed h channel claim ∧ validateRequest bytes claim = .ok ()
  | (_, .toUpstream channel bytes) =>
    ¬Stopped h channel ∧ Validated h channel ∧ ∃ claim, Claimed h channel claim ∧
      match claim.phase with
      | .rendezvous => ¬SentUp h channel ∧ ∃ c, (c, .validated channel bytes) ∈ h
      | .relay => Activated h claim.sessionGuid
  | (_, .toBrowser channel bytes) =>
    ¬Stopped h channel ∧ ∃ claim, Claimed h channel claim ∧
      match claim.phase with
      | .rendezvous => ¬SentDown h channel ∧ ∃ reply, readRendezvousReply bytes = .ok reply
      | .relay => Activated h claim.sessionGuid
  | (_, .stopped channel _ cause) =>
    ¬Stopped h channel ∧
      match cause with
      | .handoff => HandedOff h channel ∧ ∃ claim, Claimed h channel claim ∧ claim.phase = .rendezvous
      | .invalidated => ∃ claim, Claimed h channel claim ∧ Ended h claim.sessionGuid
      | _ => True

/-- What never changes of a session object. -/
structure Session.SameAs (session started : Session) : Prop where
  guid : session.guid = started.guid
  actor : session.actor = started.actor
  targetId : session.targetId = started.targetId
  kind : session.kind = started.kind
  parentGuid : session.parentGuid = started.parentGuid
  ticketHashes : session.ticketHashes = started.ticketHashes

/-- What an object on the heap shows of the history of its session. -/
structure Shows (h : History) (guid : String) (session : Session) : Prop where
  started : ∃ c s rendezvous relay, (c, .started s rendezvous relay) ∈ h ∧ s.guid = guid ∧
    session.SameAs s
  active : session.active = true ↔ Activated h guid
  relayUuid : ∀ uuid, session.relayUuid = some uuid ↔ Bound h guid uuid

/-- A file session stands under an active desktop session of the same login and
the same target. -/
inductive Child (sessions : List String) (objects : String → Option Session)
    (session : Session) : Prop
  | intro {guid parent} : session.parentGuid = some guid → guid ∈ sessions →
      objects guid = some parent → parent.kind = .desktop → parent.active = true →
      parent.actor = session.actor → parent.targetId = session.targetId → Child sessions objects session

structure Registry (sessions : List String) (objects : String → Option Session) (h : History) :
    Prop where
  nodup : sessions.Nodup
  live : ∀ guid, guid ∈ sessions ↔ Live h guid
  object : ∀ guid session, objects guid = some session → Shows h guid session
  started : ∀ guid, Started h guid → ∃ session, objects guid = some session
  child : ∀ guid ∈ sessions, ∀ session, objects guid = some session → session.kind = .file →
    Child sessions objects session
  desktop : ∀ guid session, objects guid = some session → session.kind = .desktop →
    truthy session.parentGuid = none
  relayUuid : ∀ a ∈ sessions, ∀ b ∈ sessions, ∀ uuid, Bound h a uuid → Bound h b uuid → a = b

/-- A stored ticket is that of a live session, and was not taken. -/
def Ticketing (sessions : List String) (tickets : String → Option Ticket) (h : History) : Prop :=
  ∀ hash ticket, tickets hash = some ticket →
    ticket.sessionGuid ∈ sessions ∧ Issued h hash ticket.sessionGuid ticket.phase ∧ ¬Taken h hash

structure Capacity (w : World) : Prop where
  reserved : ∀ user, w.reserved user = outstanding w.history user
  total : w.sessions.length + w.reservations.total ≤ 256
  user : ∀ user, w.sessions.countP (w.owns user) + w.reserved user ≤ 8

/-- The sessions whose end is still to be recorded in the background. -/
def Backlog (emergencies : List (List Closed)) (h : History) : Prop :=
  (emergencies.flatten.map (·.guid)).Nodup ∧
    ∀ item ∈ emergencies.flatten, Ended h item.guid ∧ ¬Handed h item.guid

/-- What a channel shows of its history. -/
structure Traffic (h : History) (channel : ℕ) (socket : Channel) : Prop where
  stopped : socket.stopped = true ↔ Stopped h channel
  claim : ∀ claim, socket.claim = some claim ↔ Claimed h channel claim
  admitted : socket.stage ≠ .ticket ↔ Admitted h channel
  validated : socket.stage = .opening ∨ socket.stage = .reply ∨ socket.stage = .opaqueData ↔
    Validated h channel
  sentUp : SentUp h channel → socket.stage = .reply ∨ socket.stage = .opaqueData
  sentDown : SentDown h channel → socket.stage = .reply ∧ socket.replied = true ∨
    socket.stage = .opaqueData
  reply : socket.stage = .reply → ∃ claim, Claimed h channel claim ∧ claim.phase = .rendezvous
  opaqueData : socket.stage = .opaqueData → ∃ claim, Claimed h channel claim ∧
    claim.phase = .relay ∧ Activated h claim.sessionGuid

/-- A stage or a flag that announces a forwarded frame has come with it, or
with the stop of the channel. -/
structure Settled (h : History) (channel : ℕ) (socket : Channel) : Prop where
  proceeded : socket.stage = .reply ∨ socket.stage = .opaqueData → Stopped h channel ∨
    ∃ c bytes bytes', (c, .validated channel bytes) ∈ h ∧ (c, .toUpstream channel bytes') ∈ h
  replied : socket.replied = true → Stopped h channel ∨ ∃ c bytes reply,
    (c, .toBrowser channel bytes) ∈ h ∧ readRendezvousReply bytes = .ok reply ∧
      (socket.refused = false → reply ≠ .refused)

/-- Inside a block one channel may be `unsettled`. -/
structure Switchboard (unsettled : Option ℕ) (sessions : List String)
    (objects : String → Option Session) (sockets : ℕ → Option Channel) (h : History) : Prop where
  settled : ∀ channel socket, sockets channel = some socket → unsettled ≠ some channel →
    Settled h channel socket
  traffic : ∀ channel socket, sockets channel = some socket → Traffic h channel socket
  unknown : ∀ channel, sockets channel = none → ¬Admitted h channel ∧ ¬Stopped h channel
  attached : ∀ guid session, objects guid = some session → ∀ channel ∈ session.sockets,
    ∃ claim, Claimed h channel claim ∧ claim.sessionGuid = guid
  orphaned : ∀ channel claim, unsettled ≠ some channel → Stopped h channel →
    Claimed h channel claim → claim.sessionGuid ∉ sessions ∨ StoppedBy h channel .handoff ∨
      StoppedBy h channel .shutdown

/-- What holds between any two blocks of any call. -/
structure Sound (runtime : Runtime) (unsettled : Option ℕ) (w : World) : Prop where
  lawful : Lawful (law runtime) w.history
  registry : Registry w.sessions w.objects w.history
  ticketing : Ticketing w.sessions w.tickets w.history
  epoch : w.verificationEpoch = timeouts w.history
  capacity : Capacity w
  backlog : Backlog w.emergencies w.history
  switchboard : Switchboard unsettled w.sessions w.objects w.sockets w.history

/-- While a verification timeout is pending no session exists. -/
def Suspended (w : World) : Prop := w.pendingTimeouts ≠ [] → w.sessions = []

def guard (runtime : Runtime) (call : Call) : Command → World → Prop
  | .begin, w => ∀ guid epoch, (call, .begun guid epoch) ∉ w.history
  | .reserve _, w => ∀ user, (call, .reserved user) ∉ w.history
  | .releaseReservation user, w =>
    (call, .reserved user) ∈ w.history ∧ (call, .released user) ∉ w.history
  | .startSession session parent epoch, w =>
    (call, .begun session.guid epoch) ∈ w.history ∧
      (∀ s a b, (call, .started s a b) ∉ w.history) ∧
      (call, .reserved session.actor.id) ∈ w.history ∧
      (call, .released session.actor.id) ∉ w.history ∧
      session.active = false ∧ session.relayUuid = none ∧ session.sockets = [] ∧
      Lineage w.history session.actor session.targetId session.parentGuid parent session.kind
  | .claimTicket value ticket, w =>
    Consuming w.history call (runtime.sha256 value) ticket ∧
      ∀ v k, (call, .consumed v k) ∉ w.history
  | .record guid (.sessionEnded _ _) _, w =>
    HandedTo w.history call guid ∧
      ∀ reason closedBy, (call, .recorded guid (.sessionEnded reason closedBy)) ∉ w.history
  | .record guid .gatewayOpen _, w =>
    Opening w.history call guid ∧ (call, .recorded guid .gatewayOpen) ∉ w.history
  | .activate guid, w => (call, .recorded guid .gatewayOpen) ∈ w.history
  | .receive .., w =>
    ∀ channel, (call, .admitted channel) ∉ w.history
  | .authorized channel claim, w =>
    (call, .admitted channel) ∈ w.history ∧ (∃ value, (call, .consumed value claim) ∈ w.history) ∧
      ∀ ch k, (call, .claimed ch k) ∉ w.history
  | .proceed channel stage request, w =>
    (call, .validated channel request) ∈ w.history ∧
      (∀ ch bytes, (call, .toUpstream ch bytes) ∉ w.history) ∧
      ∃ claim, Claimed w.history channel claim ∧
        match claim.phase with
        | .rendezvous => stage = .reply
        | .relay => stage = .opaqueData ∧ Activated w.history claim.sessionGuid
  | _, _ => True

end RustdeskConsole.Gateway
