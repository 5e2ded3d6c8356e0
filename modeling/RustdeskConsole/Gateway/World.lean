import Mathlib.Logic.Function.Basic
import RustdeskConsole.Gateway.Entities

namespace RustdeskConsole.Gateway

open Effects.Guard Function Collections WebClient

/-- The calls of the session service and the events of its sockets and timers. -/
inductive Request
  | create (actor : WebClientActor) (rawTargetId : String) (kind : Kind)
      (parentGuid : Option String)
  | createFile (actor : WebClientActor) (parentGuid : String)
  | consumeTicket (value : String)
  | ensureValid (guid : String)
  | closeGrant (guid : String) (reason : Reason) (closedBy : Option String)
  | report (actor : WebClientActor) (guid : String) (dto : WebClientEventDto)
  | requireOwnedActive (actor : WebClientActor) (guid : String)
  | endSession (actor : WebClientActor) (guid : String)
  | revalidateSessions
  | expireRound (round : ℕ)
  | settle (symbol : ℕ ⊕ ℕ)
  | emergencyAudit
  | destroySessions
  | refresh
  | upgrade (channel : ℕ) (origin : Option String)
  | browserMessage (channel : ℕ) (bytes : List UInt8) (binary : Bool)
  | browserError (channel : ℕ) (tooLarge : Bool)
  | browserClose (channel : ℕ)
  | upstreamMessage (channel : ℕ) (bytes : List UInt8) (binary : Bool)
  | upstreamError (channel : ℕ) (tooLarge : Bool)
  | upstreamClose (channel : ℕ)
  | sent (channel : ℕ) (reason : Reason)
  | channelTimeout (channel : ℕ)
  | destroyGateway
  deriving DecidableEq

structure Call where
  id : ℕ
  request : Request
  deriving DecidableEq

/-- What a call leaves in the history. -/
inductive Event
  | begun (guid : String) (epoch : ℕ)
  | reserved (user : String)
  | released (user : String)
  | started (session : Session) (rendezvous relay : String)
  | timedOut
  | taken (hash : String) (ticket : Ticket)
  | confirmed (guid : String)
  | consumed (value : String) (claim : GatewayClaim)
  | bound (guid uuid : String)
  | activated (guid : String)
  | ended (closed : List Closed)
  | handed (closed : List Closed)
  | recorded (guid : String) (audit : Audit)
  | admitted (channel : ℕ)
  | claimed (channel : ℕ) (claim : GatewayClaim)
  | validated (channel : ℕ) (bytes : List UInt8)
  | toUpstream (channel : ℕ) (bytes : List UInt8)
  | toBrowser (channel : ℕ) (bytes : List UInt8)
  | stopped (channel : ℕ) (reason : Reason) (cause : Cause)
  deriving DecidableEq

abbrev History := List (Call × Event)

/-- The two services. A session object stays on the heap when its session
leaves the map: calls in flight still hold it. A verification timeout is
pending under the number it got (left), that of a whole round of revalidation
under the round's (right). -/
structure World where
  configuration : WebClientState
  sessions : List String
  objects : String → Option Session
  tickets : String → Option Ticket
  reservations : OrderedMap String ℕ
  checking : Bool
  stopped : Bool
  pendingTimeouts : List (ℕ ⊕ ℕ)
  verificationEpoch : ℕ
  rounds : ℕ
  round : Option ℕ
  emergencies : List (List Closed)
  sockets : ℕ → Option Channel
  channels : List ℕ
  unauthenticated : List ℕ
  destroyed : Bool
  history : History

/-- What the world decides about one command: the clock, the random values, the
answers of the database, the state of a socket. -/
structure Choice where
  now : ℕ
  uuid : String
  rendezvous : String
  relay : String
  late : Bool
  verdict : Except Failure (String × ℕ)
  outcome : Except Failure Unit
  configuration : WebClientState
  room : Bool

namespace World

def note (w : World) (call : Call) (event : Event) : World :=
  { w with history := (call, event) :: w.history }

section Sessions

variable (w : World) (call : Call) (now : ℕ)

/-- `this.sessions.get`. -/
def find (guid : String) : Option Session := if guid ∈ w.sessions then w.objects guid else none

def modify (guid : String) (f : Session → Session) : World :=
  { w with objects := update w.objects guid ((w.objects guid).map f) }

def unavailable {α : Type} : Except Failure α :=
  .error (.forbidden "Web client session is unavailable")

def current (guid : String) : Except Failure Session :=
  match w.find guid with
  | none => unavailable
  | some session =>
    if w.stopped || session.expiresAt ≤ now ||
        (!session.active && now - session.createdAt ≥ 120000) then unavailable
    else .ok session

def owned (guid : String) (actor : WebClientActor) : Except Failure Session := do
  let session ← w.current now guid
  if session.actor ≠ actor then unavailable else pure session

/-- A user owns the session objects that carry his id. -/
def owns (user guid : String) : Bool := (w.objects guid).any (·.actor.id = user)

def holdsTicket (guid hash : String) : Bool :=
  (w.objects guid).any fun session ↦ decide (hash ∈ session.ticketHashes)

def reserved (user : String) : ℕ := (w.reservations.get? user).getD 0

def reserve (user : String) : World × Except Failure Unit :=
  if w.sessions.length + w.reservations.total ≥ 256 ||
      w.sessions.countP (w.owns user) + w.reserved user ≥ 8 then
    (w, .error (.tooManyRequests "Web client session limit exceeded"))
  else
    ({ w with reservations := w.reservations.set user (w.reserved user + 1) }.note call
      (.reserved user), .ok ())

def releaseReservation (user : String) : World :=
  { w with
    reservations :=
      if w.reserved user ≤ 1 then w.reservations.erase user
      else w.reservations.set user (w.reserved user - 1) }.note call (.released user)

end Sessions

section Stop

variable (w : World) (call : Call)

/-- The heap after `channel.detach?.()`. -/
def detach (channel : ℕ) : Option String → String → Option Session
  | none => w.objects
  | some guid => update w.objects guid ((w.objects guid).map fun session ↦
      { session with sockets := session.sockets.erase channel })

/-- `stop` without its last step, the end of the grant. -/
def stopChannel (channel : ℕ) (reason : Reason) (cause : Cause) : World :=
  match w.sockets channel with
  | none => w
  | some socket =>
    if socket.stopped then w
    else
      { w with
        objects := w.detach channel socket.detach
        sockets := update w.sockets channel
          (some { socket with stopped := true, timer := false, detach := none })
        unauthenticated := w.unauthenticated.erase channel }.note call (.stopped channel reason cause)

/-- Call the close callbacks of a session that was ended. -/
def closeSockets (closed : Closed) : World :=
  let sockets := ((w.objects closed.guid).map (·.sockets)).getD []
  (sockets.foldl (fun w channel ↦ w.stopChannel call channel closed.reason .invalidated) w).modify
    closed.guid fun session ↦ { session with sockets := [] }

/-- The first loop of `invalidate`: all go before any callback is called. -/
def remove (closed : List Closed) : World :=
  let guids := closed.map (·.guid)
  { w with
    sessions := w.sessions.filter fun guid ↦ guid ∉ guids
    tickets := fun hash ↦
      if guids.any fun guid ↦ w.holdsTicket guid hash then none else w.tickets hash }.note call (.ended closed)

def invalidate (items : List String) (reason : String → Reason) : World × List Closed :=
  let closed := (items.filter (· ∈ w.sessions)).map fun guid ↦ ⟨guid, reason guid⟩
  (closed.foldl (fun w item ↦ w.closeSockets call item) (w.remove call closed), closed)

def family (guid : String) : List String :=
  guid :: w.sessions.filter fun child ↦
    (w.objects child).any fun session ↦ session.parentGuid = some guid

/-- The synchronous part of `closeGrant`. -/
def closeGrant (guid : String) (reason : Reason) : World × List Closed :=
  if guid ∈ w.sessions then
    let (w, closed) := w.invalidate call (w.family guid) fun item ↦
      if item = guid then reason else .parentClosed
    (w.note call (.handed closed), closed)
  else (w, [])

def stop (channel : ℕ) (reason : Reason) (cause : Cause) : World × List Closed :=
  match w.sockets channel with
  | none => (w, [])
  | some socket =>
    if socket.stopped then (w, [])
    else
      let w := w.stopChannel call channel reason cause
      match cause, socket.claim with
      | .ordinary, some claim => w.closeGrant call claim.sessionGuid reason
      | _, _ => (w, [])

end Stop

section Deadline

variable (w : World) (call : Call)

/-- The callback of the timer of `withDeadline`. -/
def timeOut (symbol : ℕ ⊕ ℕ) : World :=
  let w := { w with
    pendingTimeouts := symbol :: w.pendingTimeouts
    verificationEpoch := w.verificationEpoch + 1 }.note call .timedOut
  let (w, closed) := w.invalidate call w.sessions fun _ ↦ .verificationTimeout
  if closed.isEmpty then w else { w with emergencies := w.emergencies ++ [closed] }

/-- Either the operation settles in time or its timer fires first. -/
def withDeadline {α : Type} (o : Choice) (result : Except Failure α) : World × Except Failure α :=
  if o.late then
    (w.timeOut call (.inl w.verificationEpoch),
      .error (.serviceUnavailable "Web client verification timed out"))
  else (w, result)

def settle (symbol : ℕ ⊕ ℕ) : World :=
  { w with pendingTimeouts := w.pendingTimeouts.filter (· ≠ symbol) }

def beginRound : World × Option ℕ :=
  if w.checking || w.stopped then (w, none)
  else
    ({ w with checking := true, round := some w.rounds, rounds := w.rounds + 1 }, some w.rounds)

def expireRound (round : ℕ) : World :=
  if w.round = some round then
    { w.timeOut call (.inr round) with round := none, checking := false }
  else w

def endRound (round : ℕ) : World :=
  let w := w.settle (.inr round)
  if w.round = some round then { w with round := none, checking := false } else w

/-- The termination records that a timeout left for the background. -/
def takeEmergency : World × List Closed :=
  match w.emergencies with
  | [] => (w, [])
  | closed :: rest => ({ w with emergencies := rest }.note call (.handed closed), closed)

def shutdown : World × List Closed :=
  let (w, closed) := { w with stopped := true }.invalidate call w.sessions fun _ ↦
    .applicationShutdown
  (w.note call (.handed closed), closed)

end Deadline

section Create

variable (w : World) (call : Call)

/-- Whether any session was ever begun under the guid. -/
def fresh (guid : String) : Bool :=
  w.history.all fun e ↦ match e.2 with
    | .begun other _ => decide (other ≠ guid)
    | _ => true

/-- Whether a ticket with this hash was ever issued. -/
def unissued (hash : String) : Bool :=
  w.history.all fun e ↦ match e.2 with
    | .started _ rendezvous relay => decide (rendezvous ≠ hash ∧ relay ≠ hash)
    | _ => true

/-- A uuid is drawn once; the epoch is read at the same moment. -/
def begin (o : Choice) : World × Option (String × ℕ) :=
  if isUuid o.uuid && w.fresh o.uuid then
    (w.note call (.begun o.uuid w.verificationEpoch), some (o.uuid, w.verificationEpoch))
  else (w, none)

/-- The moment of creation and the moment of expiry of a new session. -/
def expiry (now : ℕ) (parent : Option String) (loginExpiry : ℕ) : ℕ × ℕ :=
  let expiresAt := min (now + 8 * 60 * 60 * 1000) loginExpiry
  match parent.bind w.objects with
  | none => (now, expiresAt)
  | some parent => (now, min expiresAt parent.expiresAt)

/-- The last check of `create`. -/
def admissible (now : ℕ) (session : Session) (parent : Option String) (epoch : ℕ) :
    Except Failure Unit := do
  let gone := Failure.forbidden "Web client session is no longer available"
  refuseIf (w.stopped || !w.pendingTimeouts.isEmpty || decide (epoch ≠ w.verificationEpoch)) gone
  let profileIdentity ← w.configuration.profileIdentity
  refuseIf (decide (session.profileIdentity ≠ profileIdentity) || decide (session.expiresAt ≤ now) ||
    parent.any fun guid ↦ decide (guid ∉ w.sessions)) gone

/-- The last block of `create`. On success its `finally` runs in it too: the
reservation becomes the session. -/
def startSession (runtime : Runtime) (o : Choice) (session : Session) (parent : Option String)
    (epoch : ℕ) : World × Option (Except Failure WebClientGrant) :=
  match w.admissible o.now session parent epoch with
  | .error failure => (w, some (.error failure))
  | .ok () =>
    let rendezvous := runtime.sha256 o.rendezvous
    let relay := runtime.sha256 o.relay
    let session := { session with ticketHashes := [rendezvous, relay] }
    let expiresAt := min (o.now + 60000) session.expiresAt
    if rendezvous ≠ relay && w.unissued rendezvous && w.unissued relay then
      (({ w with
        sessions := w.sessions ++ [session.guid]
        objects := update w.objects session.guid (some session)
        tickets := update (update w.tickets rendezvous
          (some ⟨session.guid, .rendezvous, expiresAt⟩)) relay
          (some ⟨session.guid, .relay, expiresAt⟩) }.note call
          (.started session rendezvous relay)).releaseReservation call session.actor.id,
        some (.ok ⟨session.guid, o.rendezvous, o.relay, session.expiresAt⟩))
    else (w, none)

end Create

section Tickets

variable (w : World) (call : Call) (now : ℕ)

/-- The first block of `consumeTicket`: the ticket is gone whatever comes next. -/
def takeTicket (hash : String) : World × Except Failure Ticket :=
  match w.tickets hash with
  | none => (w, .error (.forbidden "Invalid or expired web client ticket"))
  | some ticket =>
    ({ w with tickets := update w.tickets hash none }.note call (.taken hash ticket), do
      refuseIf (ticket.expiresAt ≤ now) (.forbidden "Invalid or expired web client ticket")
      let session ← w.current now ticket.sessionGuid
      refuseIf (decide (ticket.phase = .relay) && (truthy session.relayUuid).isNone)
        (.forbidden "Relay has not been bound")
      pure ticket)

/-- The last block of `consumeTicket`. -/
def claimTicket (value : String) (ticket : Ticket) : World × Except Failure GatewayClaim :=
  match w.current now ticket.sessionGuid with
  | .error failure => (w, .error failure)
  | .ok session =>
    let claim : GatewayClaim := {
      sessionGuid := session.guid
      targetId := session.targetId
      kind := session.kind
      phase := ticket.phase
      relayUuid := truthy session.relayUuid
      serverPublicKey := session.serverPublicKey }
    (w.note call (.consumed value claim), .ok claim)

def purgeTickets : World × List String :=
  ({ w with tickets := fun hash ↦ (w.tickets hash).filter (·.expiresAt > now) }, w.sessions)

end Tickets

section Validity

variable (w : World) (call : Call) (now : ℕ)

def checkParent (session : Session) : Except Failure Unit :=
  match truthy session.parentGuid with
  | none => .ok ()
  | some guid => do
    let parent ← w.current now guid
    refuseIf (!parent.active || decide (parent.actor ≠ session.actor))
      (.forbidden "Parent session is unavailable")

/-- The second block of `ensureValid`. -/
def confirm (guid : String) (expiresAt : ℕ) : World × Except Failure Unit :=
  match w.current now guid with
  | .error failure => (w, .error failure)
  | .ok session =>
    let w := w.modify guid fun session ↦
      { session with expiresAt := min session.expiresAt expiresAt }
    let checked : Except Failure Unit := do
      let profileIdentity ← w.configuration.profileIdentity
      refuseIf (session.profileIdentity ≠ profileIdentity)
        (.forbidden "Web client configuration changed")
      w.checkParent now session
      discard (w.current now guid)
    match checked with
    | .error failure => (w, .error failure)
    | .ok () => (w.note call (.confirmed guid), .ok ())

/-- The check between the two awaits of `markRelayOpen`. -/
def relayLifecycle (guid : String) : Except Failure Unit :=
  refuseIf ((w.objects guid).all fun session ↦
    session.active || (truthy session.relayUuid).isNone) (.forbidden "Invalid relay lifecycle")

def activate (guid : String) : World × Except Failure Unit :=
  match w.current now guid with
  | .error failure => (w, .error failure)
  | .ok _ =>
    ((w.modify guid fun session ↦ { session with active := true }).note call (.activated guid),
      .ok ())

def bindRelay (guid uuid : String) : World × Except Failure Unit :=
  let invalid := Failure.forbidden "Invalid relay binding"
  match w.current now guid with
  | .error failure => (w, .error failure)
  | .ok session =>
    if !isUuid uuid || (truthy session.relayUuid).isSome ||
        w.sessions.any (fun other ↦ decide (other ≠ guid) &&
          (w.objects other).any fun session ↦ session.relayUuid = some uuid) then
      (w, .error invalid)
    else
      ((w.modify guid fun session ↦ { session with relayUuid := some uuid }).note call
        (.bound guid uuid), .ok ())

def attach (guid : String) (channel : ℕ) : World × Except Failure Unit :=
  match w.current now guid with
  | .error failure => (w, .error failure)
  | .ok session =>
    if session.sockets.length ≥ 2 then
      (w, .error (.forbidden "Web client channel limit exceeded"))
    else
      (w.modify guid fun session ↦ { session with sockets := session.sockets ++ [channel] }, .ok ())

/-- The counters of `report`. -/
def countReport (guid : String) : World × Except Failure Unit :=
  let w := w.modify guid fun session ↦
    if now - session.reportWindow ≥ 1000 then { session with reportWindow := now, windowReports := 0 }
    else session
  if (w.objects guid).all fun session ↦
      decide (session.reports ≥ 1024) || decide (session.windowReports ≥ 4) then
    (w, .error (.tooManyRequests "Web client event limit exceeded"))
  else
    (w.modify guid fun session ↦ { session with
      reports := session.reports + 1
      windowReports := session.windowReports + 1 }, .ok ())

end Validity

end World

end RustdeskConsole.Gateway
