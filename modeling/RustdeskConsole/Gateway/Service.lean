import RustdeskConsole.Effects.Machine
import RustdeskConsole.Gateway.World

namespace RustdeskConsole.Gateway

open Effects Effects.Guard Function WebClient

def MESSAGE_BYTES : ℕ := 8 * 1024 * 1024

def AUTHENTICATION_BYTES : ℕ := 4096

def UNAUTHENTICATED_SOCKETS : ℕ := 16

def SOCKETS : ℕ := 512

inductive Side
  | browser
  | upstream

def Side.sent : Side → ℕ → List UInt8 → Event
  | .browser => .toBrowser
  | .upstream => .toUpstream

/-- What `receive` leaves to do. -/
inductive Received
  | handled (closed : List Closed)
  | authorize (ticket : String)
  | openUpstream

/-- The first frame against the claim of its channel. -/
def validateRequest (bytes : List UInt8) (claim : GatewayClaim) : Except WebClient.Failure Unit :=
  match claim.phase with
  | .rendezvous => validatePunchHoleRequest bytes claim.binding
  | .relay => validateRequestRelay bytes claim.binding

/-- Whether a close of either socket hands the session over to the relay channel. -/
def Channel.handoff (socket : Channel) : Bool :=
  socket.claim.any (·.phase = .rendezvous) && socket.replied && !socket.refused

namespace World

variable (w : World) (call : Call) (channel : ℕ)

def adjust (f : Channel → Channel) : World :=
  { w with sockets := update w.sockets channel ((w.sockets channel).map f) }

def refuse (reason : Reason) : World × List Closed := w.stop call channel reason .ordinary

/-- A new socket; its first frame is waited for under the timer. -/
def accept : World :=
  { w with
    sockets := update w.sockets channel (some ⟨false, none, .ticket, false, false, false, true, none⟩)
    channels := w.channels ++ [channel]
    unauthenticated := w.unauthenticated ++ [channel] }

def upgrade (origin : Option String) : World :=
  match w.configuration.getAllowedOrigin with
  | .error _ => w
  | .ok allowedOrigin =>
    if w.destroyed || origin ≠ some allowedOrigin || w.channels.length ≥ SOCKETS ||
        w.unauthenticated.length ≥ UNAUTHENTICATED_SOCKETS || (w.sockets channel).isSome then w
    else w.accept channel

/-- `room`: the destination is open and its buffer can take the bytes. -/
def forward (side : Side) (bytes : List UInt8) (room : Bool) : World × List Closed :=
  if room then (w.note call (side.sent channel bytes), [])
  else w.refuse call channel .overloaded

def receive (bytes : List UInt8) (binary room : Bool) : World × Received :=
  match w.sockets channel with
  | none => (w, .handled [])
  | some socket =>
    let refuse := fun reason ↦ (w.refuse call channel reason).map id Received.handled
    if socket.stopped then (w, .handled [])
    else if bytes.length > MESSAGE_BYTES then refuse .overloaded
    else match socket.stage with
    | .ticket =>
      if binary || bytes.length > AUTHENTICATION_BYTES then refuse .protocolError
      else match ticketFrame bytes with
        | none => refuse .protocolError
        | some ticket =>
          ((w.adjust channel fun socket ↦ { socket with stage := .authorizing }).note call
            (.admitted channel), .authorize ticket)
    | .authorizing | .opening | .reply => refuse .protocolError
    | .request =>
      match binary, socket.claim with
      | true, some claim =>
        match validateRequest bytes claim with
        | .error _ => refuse .protocolError
        | .ok () =>
          ((w.adjust channel fun socket ↦ { socket with stage := .opening }).note call
            (.validated channel bytes), .openUpstream)
      | _, _ => refuse .protocolError
    | .opaqueData =>
      if binary && socket.upstream then
        (w.forward call channel .upstream bytes room).map id Received.handled
      else refuse .protocolError

/-- What `authorize` does with the claim of a consumed ticket. -/
def authorized (now : ℕ) (claim : GatewayClaim) : World × List Closed :=
  match w.sockets channel with
  | none => (w, [])
  | some socket =>
    let w := (w.adjust channel fun socket ↦ { socket with claim := some claim }).note call
      (.claimed channel claim)
    if socket.stopped || w.destroyed then w.closeGrant call claim.sessionGuid .clientClosed
    else match w.attach now claim.sessionGuid channel with
      | (w, .error _) => w.refuse call channel .authorizationRevoked
      | (w, .ok ()) =>
        ({ w.adjust channel fun socket ↦ { socket with
              detach := some claim.sessionGuid, stage := .request, timer := true } with
            unauthenticated := w.unauthenticated.erase channel }, [])

/-- Open the socket to the upstream of the claim's phase. -/
def connect : World × Except Failure Unit :=
  match (w.sockets channel).bind (·.claim) with
  | none => (w, .error (.error "Cannot read properties of undefined"))
  | some claim =>
    match w.configuration.getUpstream claim.phase with
    | .error failure => (w, .error failure)
    | .ok _ => (w.adjust channel fun socket ↦ { socket with upstream := true }, .ok ())

def isStopped : Bool := (w.sockets channel).all (·.stopped) || w.destroyed

/-- The last block of `openUpstream`, which forwards the first frame. -/
def proceed (stage : Stage) (request : List UInt8) (room : Bool) : World × List Closed :=
  if w.isStopped channel then (w, [])
  else
    (w.adjust channel fun socket ↦ { socket with
      stage := stage
      timer := socket.timer && stage ≠ .opaqueData }).forward call channel .upstream request room

def bindReply (now : ℕ) (claim : Option GatewayClaim) :
    RendezvousReply → World × Except Failure Unit
  | .refused => (w, .ok ())
  | .relay uuid =>
    match claim with
    | none => (w, .error (.error "Cannot read properties of undefined"))
    | some claim => w.bindRelay call now claim.sessionGuid uuid

def receiveUpstream (now : ℕ) (bytes : List UInt8) (binary room : Bool) : World × List Closed :=
  match w.sockets channel with
  | none => (w, [])
  | some socket =>
    if socket.stopped || !socket.upstream then (w, [])
    else if !binary then w.refuse call channel .protocolError
    else if bytes.length > MESSAGE_BYTES then w.refuse call channel .overloaded
    else match socket.stage, socket.replied with
    | .reply, false =>
      match readRendezvousReply bytes with
      | .error _ => w.refuse call channel .protocolError
      | .ok reply =>
        match w.bindReply call now socket.claim reply with
        | (w, .error _) => w.refuse call channel .protocolError
        | (w, .ok ()) =>
          (w.adjust channel fun socket ↦ { socket with
            replied := true
            refused := reply = .refused
            timer := false }).forward call channel .browser bytes room
    | .opaqueData, _ => w.forward call channel .browser bytes room
    | _, _ => w.refuse call channel .protocolError

def closeBrowser : World × List Closed :=
  let cause := if (w.sockets channel).any (·.handoff) then .handoff else .ordinary
  let (w, closed) := w.stop call channel .clientClosed cause
  ({ w with
    channels := w.channels.erase channel
    unauthenticated := w.unauthenticated.erase channel }, closed)

def closeUpstream : World × List Closed :=
  let cause := if (w.sockets channel).any (·.handoff) then .handoff else .ordinary
  if (w.sockets channel).any (·.upstream) then w.stop call channel .upstreamClosed cause
  else (w, [])

def expireChannel : World × List Closed :=
  if (w.sockets channel).any (·.timer) then w.refuse call channel .handshakeTimeout else (w, [])

/-- Every channel is stopped by force; the grants go with the session service. -/
def destroyGateway : World :=
  let w := { w with destroyed := true }
  { w.channels.foldl (fun w channel ↦ (w.stop call channel .applicationShutdown .shutdown).1) w with
    channels := []
    unauthenticated := [] }

end World

/-- The synchronous blocks of the two services and the operations they await. -/
inductive Command
  | refresh
  | begin
  | unavailable
  | verifying
  | reserve (user : String)
  | releaseReservation (user : String)
  | requireConfiguration
  | profileIdentity
  | current (guid : String)
  | owned (guid : String) (actor : WebClientActor)
  | expiry (parent : Option String) (loginExpiry : ℕ)
  | startSession (session : Session) (parent : Option String) (epoch : ℕ)
  | validate (actor : WebClientActor) (targetId : String) (kind : Kind) (peerUuid : Option String)
  | requireDisconnect (actor : WebClientActor) (peerUuid : String)
  | record (guid : String) (audit : Audit) (actorGuid : Option String)
  | takeTicket (value : String)
  | claimTicket (value : String) (ticket : Ticket)
  | confirm (guid : String) (expiresAt : ℕ)
  | closeGrant (guid : String) (reason : Reason)
  | relayLifecycle (guid : String)
  | activate (guid : String)
  | find (guid : String)
  | countReport (guid : String)
  | beginRound
  | purgeTickets
  | inspect (guid : String)
  | endRound (round : ℕ)
  | expireRound (round : ℕ)
  | settle (symbol : ℕ ⊕ ℕ)
  | takeEmergency
  | shutdown
  | upgrade (channel : ℕ) (origin : Option String)
  | receive (channel : ℕ) (bytes : List UInt8) (binary : Bool)
  | authorized (channel : ℕ) (claim : GatewayClaim)
  | claim (channel : ℕ)
  | isStopped (channel : ℕ)
  | connect (channel : ℕ)
  | awaitOpen (channel : ℕ)
  | proceed (channel : ℕ) (stage : Stage) (request : List UInt8)
  | receiveUpstream (channel : ℕ) (bytes : List UInt8) (binary : Bool)
  | stop (channel : ℕ) (reason : Reason)
  | expireChannel (channel : ℕ)
  | closeBrowser (channel : ℕ)
  | closeUpstream (channel : ℕ)
  | destroyGateway

/-- What `revalidateSessions` finds of a session it comes to. -/
inductive Inspection
  | gone
  | expired
  | pendingExpired
  | due

@[reducible] def Reply : Command → Type
  | .begin => String × ℕ
  | .unavailable | .verifying | .isStopped _ => Bool
  | .requireConfiguration => Except Failure ValidatedWebClientConfig
  | .profileIdentity => Except Failure ProfileIdentity
  | .current _ | .owned .. => Except Failure Session
  | .expiry .. => ℕ × ℕ
  | .startSession .. => Except Failure WebClientGrant
  | .validate .. => Except Failure (String × ℕ)
  | .takeTicket _ => Except Failure Ticket
  | .claimTicket .. => Except Failure GatewayClaim
  | .find _ => Option Session
  | .beginRound => Option ℕ
  | .purgeTickets => List String
  | .inspect _ => Inspection
  | .receive .. => Received
  | .claim _ => Except Failure GatewayClaim
  | .reserve _ | .requireDisconnect .. | .record .. | .confirm .. | .relayLifecycle _ | .activate _
  | .countReport _ | .connect _ | .awaitOpen _ => Except Failure Unit
  | .closeGrant .. | .takeEmergency | .shutdown | .authorized .. | .proceed .. | .receiveUpstream ..
  | .stop .. | .expireChannel _ | .closeBrowser _ | .closeUpstream _ => List Closed
  | .refresh | .releaseReservation _ | .endRound _ | .expireRound _ | .settle _ | .upgrade ..
  | .destroyGateway => Unit

namespace World

variable (w : World)

def inspect (now : ℕ) (guid : String) : Inspection :=
  match w.find guid with
  | none => .gone
  | some session =>
    if now ≥ session.expiresAt then .expired
    else if !session.active && now - session.createdAt ≥ 120000 then .pendingExpired
    else .due

end World

variable (runtime : Runtime)

def exec (call : Call) : (c : Command) → Choice → World → World × Option (Reply c)
  | .refresh, o, w => ({ w with configuration := o.configuration }, some ())
  | .begin, o, w => w.begin call o
  | .unavailable, _, w => (w, some (w.stopped || !w.pendingTimeouts.isEmpty))
  | .verifying, _, w => (w, some (!w.pendingTimeouts.isEmpty))
  | .reserve user, _, w => (w.reserve call user).map id some
  | .releaseReservation user, _, w => (w.releaseReservation call user, some ())
  | .requireConfiguration, _, w => (w, some w.configuration.requireConfiguration)
  | .profileIdentity, _, w => (w, some w.configuration.profileIdentity)
  | .current guid, o, w => (w, some (w.current o.now guid))
  | .owned guid actor, o, w => (w, some (w.owned o.now guid actor))
  | .expiry parent loginExpiry, o, w => (w, some (w.expiry o.now parent loginExpiry))
  | .startSession session parent epoch, o, w => w.startSession call runtime o session parent epoch
  | .validate .., o, w => (w.withDeadline call o o.verdict).map id some
  | .requireDisconnect .., o, w => (w.withDeadline call o o.outcome).map id some
  | .record guid audit _, o, w =>
    ((w.note call (.recorded guid audit)).withDeadline call o o.outcome).map id some
  | .takeTicket value, o, w => (w.takeTicket call o.now (runtime.sha256 value)).map id some
  | .claimTicket value ticket, o, w => (w.claimTicket call o.now value ticket).map id some
  | .confirm guid expiresAt, o, w => (w.confirm call o.now guid expiresAt).map id some
  | .closeGrant guid reason, _, w => (w.closeGrant call guid reason).map id some
  | .relayLifecycle guid, _, w => (w, some (w.relayLifecycle guid))
  | .activate guid, o, w => (w.activate call o.now guid).map id some
  | .find guid, _, w => (w, some (w.find guid))
  | .countReport guid, o, w => (w.countReport o.now guid).map id some
  | .beginRound, _, w => w.beginRound.map id some
  | .purgeTickets, o, w => (w.purgeTickets o.now).map id some
  | .inspect guid, o, w => (w, some (w.inspect o.now guid))
  | .endRound round, _, w => (w.endRound round, some ())
  | .expireRound round, _, w => (w.expireRound call round, some ())
  | .settle symbol, _, w => (w.settle symbol, some ())
  | .takeEmergency, _, w => (w.takeEmergency call).map id some
  | .shutdown, _, w => (w.shutdown call).map id some
  | .upgrade channel origin, _, w => (w.upgrade channel origin, some ())
  | .receive channel bytes binary, o, w =>
    (w.receive call channel bytes binary o.room).map id some
  | .authorized channel claim, o, w => (w.authorized call channel o.now claim).map id some
  | .claim channel, _, w =>
    (w, some (require ((w.sockets channel).bind (·.claim))
      (.error "Cannot read properties of undefined")))
  | .isStopped channel, _, w => (w, some (w.isStopped channel))
  | .connect channel, _, w => (w.connect channel).map id some
  | .awaitOpen _, o, w => (w, some o.outcome)
  | .proceed channel stage request, o, w => (w.proceed call channel stage request o.room).map id some
  | .receiveUpstream channel bytes binary, o, w =>
    (w.receiveUpstream call channel o.now bytes binary o.room).map id some
  | .stop channel reason, _, w => (w.refuse call channel reason).map id some
  | .expireChannel channel, _, w => (w.expireChannel call channel).map id some
  | .closeBrowser channel, _, w => (w.closeBrowser call channel).map id some
  | .closeUpstream channel, _, w => (w.closeUpstream call channel).map id some
  | .destroyGateway, _, w => (w.destroyGateway call, some ())

/-- The local variables of `create` that outlive its exceptions. -/
structure Locals where
  reserved : Bool
  targetId : Option String

/-- An asynchronous function; other calls may run between any two commands. -/
abbrev Handler := Process Command Reply Locals Failure

namespace Handler

def ask (c : Command) : Handler (Reply c) := invoke c .ok

def assert (condition : Bool) (failure : Failure) : Handler Unit :=
  if condition then pure () else throw failure

def unwrap {α : Type} : Except Failure α → Handler α
  | .ok a => pure a
  | .error failure => throw failure

end Handler

open Handler

namespace WebClientSessionService

def requireConfiguration : Handler ValidatedWebClientConfig :=
  invoke .requireConfiguration fun reply ↦ reply

def profileIdentity : Handler ProfileIdentity := invoke .profileIdentity fun reply ↦ reply

def current (guid : String) : Handler Session := invoke (.current guid) fun reply ↦ reply

def owned (guid : String) (actor : WebClientActor) : Handler Session :=
  invoke (.owned guid actor) fun reply ↦ reply

def validate (actor : WebClientActor) (targetId : String) (kind : Kind)
    (peerUuid : Option String) : Handler (String × ℕ) :=
  invoke (.validate actor targetId kind peerUuid) fun reply ↦ reply

/-- The actor is that of the session where none is given. -/
def record (guid : String) (audit : Audit) (actorGuid : Option String) : Handler Unit :=
  invoke (.record guid audit actorGuid) fun reply ↦ reply

/-- The first record that fails ends the loop. -/
def persistTerminations (closedBy : Option String) : List Closed → Handler Unit
  | [] => pure ()
  | closed :: rest => do
    let recorded ← tryCatch
      (do
        record closed.guid (.sessionEnded closed.reason closedBy) closedBy
        pure true)
      fun _ ↦ pure false
    if recorded then persistTerminations closedBy rest else pure ()

def closeGrant (guid : String) (reason : Reason) (closedBy : Option String) : Handler Unit := do
  let closed ← ask (.closeGrant guid reason)
  persistTerminations closedBy closed

def Failure.reason : Failure → Reason
  | .unauthorized _ => .authenticationRevoked
  | _ => .authorizationRevoked

def ensureValid (sessionGuid : String) : Handler Unit := do
  let session ← current sessionGuid
  tryCatch
    (do
      let (_, expiresAt) ← validate session.actor session.targetId session.kind
        (some session.peerUuid)
      invoke (.confirm sessionGuid expiresAt) fun reply ↦ reply)
    fun failure ↦ do
      closeGrant sessionGuid (Failure.reason failure) none
      throw failure

/-- The audit of a refused request; its own failure is only logged. -/
def recordDenied (guid : String) (audit : Audit) (actorGuid : String) : Handler Unit := do
  if ← ask .verifying then pure ()
  else tryCatch (record guid audit (some actorGuid)) fun _ ↦ pure ()

def asHttpException : Failure → Failure
  | .error _ => .serviceUnavailable "Web client authorization is unavailable"
  | failure => failure

/-- The desktop session a file session is asked for under. -/
def parentOf (actor : WebClientActor) (targetId : String) (kind : Kind)
    (parentGuid : Option String) : Handler (Option Session) := do
  let rejected := Failure.forbidden "Web client parent session is unavailable"
  match kind with
  | .desktop =>
    assert (truthy parentGuid).isNone rejected
    pure none
  | .file =>
    let parent ← owned (parentGuid.getD "") actor
    assert (parent.kind = .desktop && parent.targetId = targetId && parent.active) rejected
    ensureValid parent.guid
    pure (some parent)

/-- The `try` block of `create` once the reservation is made. -/
def establish (actor : WebClientActor) (targetId : String) (kind : Kind)
    (parentGuid : Option String) (guid : String) (epoch : ℕ) : Handler WebClientGrant := do
  let configuration ← requireConfiguration
  let profileIdentity ← profileIdentity
  let parent ← parentOf actor targetId kind parentGuid
  let (peerUuid, loginExpiry) ← validate actor targetId kind none
  let (now, expiresAt) ← ask (.expiry (parent.map (·.guid)) loginExpiry)
  record guid .requestAllowed (some actor.id)
  let session : Session := {
    guid := guid
    actor := actor
    targetId := targetId
    peerUuid := peerUuid
    kind := kind
    parentGuid := parentGuid
    createdAt := now
    expiresAt := expiresAt
    profileIdentity := profileIdentity
    serverPublicKey := configuration.serverPublicKey
    relayUuid := none
    active := false
    ticketHashes := []
    sockets := []
    reports := 0
    reportWindow := now
    windowReports := 0 }
  invoke (.startSession session (parent.map (·.guid)) epoch) fun reply ↦ reply

/-- The `try` block of `create`. -/
def request (actor : WebClientActor) (rawTargetId : String) (kind : Kind)
    (parentGuid : Option String) (guid : String) (epoch : ℕ) : Handler WebClientGrant := do
  let unavailable ← ask .unavailable
  assert (!unavailable) (.serviceUnavailable "Web client is unavailable")
  let targetId ← unwrap (normalizeWebClientTarget runtime rawTargetId)
  modify fun locals ↦ { locals with targetId := some targetId }
  invoke (.reserve actor.id) fun reply ↦ reply
  modify fun locals ↦ { locals with reserved := true }
  establish actor targetId kind parentGuid guid epoch

def create (actor : WebClientActor) (rawTargetId : String) (kind : Kind)
    (parentGuid : Option String) : Handler WebClientGrant := do
  let (guid, epoch) ← ask .begin
  set ({ reserved := false, targetId := none } : Locals)
  tryCatch (request runtime actor rawTargetId kind parentGuid guid epoch) fun failure ↦ do
    let locals ← get
    recordDenied guid (.requestDenied kind locals.targetId none) actor.id
    if locals.reserved then ask (.releaseReservation actor.id) else pure ()
    throw (asHttpException failure)

def createFile (actor : WebClientActor) (parentGuid : String) : Handler WebClientGrant := do
  let parent ← tryCatch (owned parentGuid actor) fun failure ↦ do
    recordDenied parentGuid (.requestDenied .file none (some parentGuid)) actor.id
    throw failure
  create runtime actor parent.targetId .file (some parentGuid)

def consumeTicket (value : String) : Handler GatewayClaim := do
  assert (isTicket value.toList) (.forbidden "Invalid web client ticket")
  let ticket ← invoke (.takeTicket value) fun reply ↦ reply
  ensureValid ticket.sessionGuid
  invoke (.claimTicket value ticket) fun reply ↦ reply

def markRelayOpen (sessionGuid : String) : Handler Unit := do
  let _ ← current sessionGuid
  ensureValid sessionGuid
  invoke (.relayLifecycle sessionGuid) fun reply ↦ reply
  tryCatch (record sessionGuid .gatewayOpen none) fun _ ↦ do
    closeGrant sessionGuid .auditUnavailable none
    throw (.serviceUnavailable "Web client audit is unavailable")
  invoke (.activate sessionGuid) fun reply ↦ reply

def revalidate : List String → Handler Unit
  | [] => pure ()
  | guid :: rest => do
    match ← ask (.inspect guid) with
    | .gone => pure ()
    | .expired => closeGrant guid .expired none
    | .pendingExpired => closeGrant guid .pendingExpired none
    | .due => tryCatch (ensureValid guid) fun _ ↦ pure ()
    revalidate rest

def revalidateSessions : Handler Unit := do
  match ← ask .beginRound with
  | none => pure ()
  | some round =>
    let guids ← ask .purgeTickets
    revalidate guids
    ask (.endRound round)

def report (actor : WebClientActor) (sessionGuid : String) (dto : WebClientEventDto) :
    Handler Unit := do
  let session ← owned sessionGuid actor
  ensureValid sessionGuid
  let session := ((← ask (.find sessionGuid))).getD session
  assert session.active (.badRequest "Invalid web client event")
  let file : Option (String × ℕ × Direction) := do
    let fileName ← truthy dto.fileName
    let size ← dto.size
    let direction ← dto.direction
    pure (fileName, size, direction)
  assert (if dto.event.isFile then session.kind = .file && file.isSome
      else dto.fileName.isNone && dto.size.isNone && dto.direction.isNone)
    (.badRequest "Invalid web client event metadata")
  invoke (.countReport sessionGuid) fun reply ↦ reply
  record sessionGuid (.browser dto.event (if dto.event.isFile then file else none)) none
  let _ ← current sessionGuid

def requireOwnedActive (actor : WebClientActor) (guid : String) : Handler Unit := do
  let session ← owned guid actor
  assert (session.active && session.kind = .desktop)
    (.forbidden "Web client session is unavailable")
  ensureValid guid
  let session ← current guid
  assert session.active (.forbidden "Web client session is unavailable")

def endSession (actor : WebClientActor) (sessionGuid : String) : Handler Unit := do
  match ← ask (.find sessionGuid) with
  | none => pure ()
  | some session =>
    if session.actor = actor then closeGrant sessionGuid .cancelled (some actor.id)
    else
      invoke (.requireDisconnect actor session.peerUuid) fun reply ↦ reply
      closeGrant sessionGuid .adminDisconnect (some actor.id)

end WebClientSessionService

namespace WebClientGateway

open WebClientSessionService

/-- A block that may stop the channel, and the termination audit of the grant
that goes with it. -/
def finish (c : Command) (closed : Reply c → List Closed) : Handler Unit := do
  let reply ← ask c
  persistTerminations none (closed reply)

def authorize (channel : ℕ) (ticket : String) : Handler Unit := do
  let claim ← tryCatch (do pure (some (← consumeTicket ticket))) fun _ ↦ pure none
  match claim with
  | some claim => finish (.authorized channel claim) id
  | none => finish (.stop channel .authorizationRevoked) id

/-- The `try` block of `openUpstream`; the grant may end with its last step. -/
def upstream (channel : ℕ) (request : List UInt8) : Handler (List Closed) := do
  let claim ← invoke (.claim channel) fun reply ↦ reply
  ensureValid claim.sessionGuid
  if ← ask (.isStopped channel) then pure []
  else
    invoke (.connect channel) fun reply ↦ reply
    invoke (.awaitOpen channel) fun reply ↦ reply
    if ← ask (.isStopped channel) then pure []
    else match claim.phase with
      | .relay =>
        markRelayOpen claim.sessionGuid
        ask (.proceed channel .opaqueData request)
      | .rendezvous => ask (.proceed channel .reply request)

def openUpstream (channel : ℕ) (request : List UInt8) : Handler Unit := do
  let closed ← tryCatch (upstream channel request) fun _ ↦ ask (.stop channel .upstreamError)
  persistTerminations none closed

def receive (channel : ℕ) (bytes : List UInt8) (binary : Bool) : Handler Unit := do
  match ← ask (.receive channel bytes binary) with
  | .handled closed => persistTerminations none closed
  | .authorize ticket => authorize channel ticket
  | .openUpstream => openUpstream channel bytes

end WebClientGateway

open WebClientSessionService WebClientGateway

def ignore {α : Type} (handler : Handler α) : Handler Unit := do
  let _ ← handler
  pure ()

def serve : Request → Handler Unit
  | .create actor rawTargetId kind parentGuid =>
    ignore (create runtime actor rawTargetId kind parentGuid)
  | .createFile actor parentGuid => ignore (createFile runtime actor parentGuid)
  | .consumeTicket value => ignore (consumeTicket value)
  | .ensureValid guid => ensureValid guid
  | .closeGrant guid reason closedBy => closeGrant guid reason closedBy
  | .report actor guid dto => report actor guid dto
  | .requireOwnedActive actor guid => requireOwnedActive actor guid
  | .endSession actor guid => endSession actor guid
  | .revalidateSessions => revalidateSessions
  | .expireRound round => ask (.expireRound round)
  | .settle symbol => ask (.settle symbol)
  | .emergencyAudit => finish .takeEmergency id
  | .destroySessions => finish .shutdown id
  | .refresh => ask .refresh
  | .upgrade channel origin => ask (.upgrade channel origin)
  | .browserMessage channel bytes binary => WebClientGateway.receive channel bytes binary
  | .browserError channel tooLarge =>
    finish (.stop channel (if tooLarge then .overloaded else .protocolError)) id
  | .browserClose channel => finish (.closeBrowser channel) id
  | .upstreamMessage channel bytes binary => finish (.receiveUpstream channel bytes binary) id
  | .upstreamError channel tooLarge =>
    finish (.stop channel (if tooLarge then .overloaded else .upstreamError)) id
  | .upstreamClose channel => finish (.closeUpstream channel) id
  | .sent channel reason => finish (.stop channel reason) id
  | .channelTimeout channel => finish (.expireChannel channel) id
  | .destroyGateway => ask .destroyGateway

def handler (request : Request) : Prog Command Reply Unit :=
  (serve runtime request).start ⟨false, none⟩ >>= fun _ ↦ .done ()

/-- Any number of calls and events in flight, each served once. -/
def machine : Machine Call Command Reply Choice World where
  exec := exec runtime
  admits call w p := (∀ event, (call, event) ∉ w.history) ∧ p = handler runtime call.request

/-- The services as they start. -/
def World.initial (configuration : WebClientState) : World where
  configuration := configuration
  sessions := []
  objects _ := none
  tickets _ := none
  reservations := .empty
  checking := false
  stopped := false
  pendingTimeouts := []
  verificationEpoch := 0
  rounds := 0
  round := none
  emergencies := []
  sockets _ := none
  channels := []
  unauthenticated := []
  destroyed := false
  history := []

end RustdeskConsole.Gateway
