import RustdeskConsole.Collections.Numeral
import RustdeskConsole.Effects.Outcomes
import RustdeskConsole.WebClient.Handshake

namespace RustdeskConsole.Gateway

open Collections Effects.Guard WebClient
open Protobuf (utf8)

/-- The exceptions of the session service; `error` is any that is no `HttpException`. -/
inductive Failure
  | badRequest (message : String)
  | unauthorized (message : String)
  | forbidden (message : String)
  | tooManyRequests (message : String)
  | serviceUnavailable (message : String)
  | error (message : String)
  deriving DecidableEq

def truthy (s : Option String) : Option String := s.filter (· ≠ "")

/-- What `node:crypto` and the regular expressions compute: SHA-256 in hex, and
the word characters of the Unicode classes of a device id. -/
structure Runtime where
  sha256 : String → String
  isWord : Char → Bool

structure WebClientActor where
  id : String
  jti : String
  deriving DecidableEq

inductive Phase
  | rendezvous
  | relay
  deriving DecidableEq

/-- Why a session ends; `TERMINATION_REASONS`. -/
inductive Reason
  | cancelled
  | adminDisconnect
  | clientClosed
  | upstreamClosed
  | upstreamError
  | protocolError
  | overloaded
  | authorizationRevoked
  | authenticationRevoked
  | verificationTimeout
  | handshakeTimeout
  | expired
  | pendingExpired
  | parentClosed
  | applicationShutdown
  | auditUnavailable
  | connectionClosed
  deriving DecidableEq

/-- The validated settings of the web client. -/
structure ValidatedWebClientConfig where
  idServerUrl : String
  relayServerUrl : String
  serverPublicKey : String
  allowedOrigin : String
  idUpstreamUrl : Option String
  relayUpstreamUrl : Option String
  deriving DecidableEq

inductive WebClientState
  | disabled
  | invalid
  | enabled (config : ValidatedWebClientConfig)
  deriving DecidableEq

/-- The values whose JSON is compared with that of an earlier moment. -/
structure ProfileIdentity where
  idServerUrl : String
  relayServerUrl : String
  serverPublicKey : String
  allowedOrigin : String
  rendezvousUpstream : String
  relayUpstream : String
  deriving DecidableEq

namespace WebClientState

def requireConfiguration : WebClientState → Except Failure ValidatedWebClientConfig
  | .enabled config => .ok config
  | .disabled | .invalid => .error (.serviceUnavailable "Web client configuration is unavailable")

def getAllowedOrigin (state : WebClientState) : Except Failure String := do
  let config ← state.requireConfiguration
  pure config.allowedOrigin

def getUpstream (state : WebClientState) (phase : Phase) : Except Failure String := do
  let config ← state.requireConfiguration
  match phase with
  | .rendezvous => pure (config.idUpstreamUrl.getD config.idServerUrl)
  | .relay => pure (config.relayUpstreamUrl.getD config.relayServerUrl)

def profileIdentity (state : WebClientState) : Except Failure ProfileIdentity := do
  let config ← state.requireConfiguration
  let allowedOrigin ← state.getAllowedOrigin
  let rendezvousUpstream ← state.getUpstream .rendezvous
  let relayUpstream ← state.getUpstream .relay
  pure ⟨config.idServerUrl, config.relayServerUrl, config.serverPublicKey, allowedOrigin,
    rendezvousUpstream, relayUpstream⟩

end WebClientState

structure GatewayClaim where
  sessionGuid : String
  targetId : String
  kind : Kind
  phase : Phase
  relayUuid : Option String
  serverPublicKey : String
  deriving DecidableEq

def GatewayClaim.binding (claim : GatewayClaim) : ProtocolBinding :=
  ⟨claim.targetId, claim.kind, claim.serverPublicKey, claim.relayUuid⟩

structure WebClientGrant where
  sessionGuid : String
  rendezvous : String
  relay : String
  expiresAt : ℕ

/-- A session object. The close callbacks it holds are those of the channels
attached to it. -/
structure Session where
  guid : String
  actor : WebClientActor
  targetId : String
  peerUuid : String
  kind : Kind
  parentGuid : Option String
  createdAt : ℕ
  expiresAt : ℕ
  profileIdentity : ProfileIdentity
  serverPublicKey : String
  relayUuid : Option String
  active : Bool
  ticketHashes : List String
  sockets : List ℕ
  reports : ℕ
  reportWindow : ℕ
  windowReports : ℕ
  deriving DecidableEq

structure Ticket where
  sessionGuid : String
  phase : Phase
  expiresAt : ℕ
  deriving DecidableEq

/-- A session that was ended, and why. -/
structure Closed where
  guid : String
  reason : Reason
  deriving DecidableEq

inductive BrowserEvent
  | remoteAuthSucceeded
  | remoteAuthFailed
  | fileStarted
  | fileCompleted
  | fileFailed
  deriving DecidableEq

def BrowserEvent.isFile : BrowserEvent → Bool
  | .remoteAuthSucceeded | .remoteAuthFailed => false
  | .fileStarted | .fileCompleted | .fileFailed => true

inductive Direction
  | upload
  | download
  deriving DecidableEq

structure WebClientEventDto where
  event : BrowserEvent
  fileName : Option String
  size : Option ℕ
  direction : Option Direction
  deriving DecidableEq

/-- The audit records of the service. -/
inductive Audit
  | requestAllowed
  | requestDenied (kind : Kind) (targetId parentGuid : Option String)
  | sessionEnded (reason : Reason) (closedBy : Option String)
  | gatewayOpen
  | browser (event : BrowserEvent) (file : Option (String × ℕ × Direction))
  deriving DecidableEq

section Text

def isAsciiLetter (c : Char) : Bool := ('a' ≤ c && c ≤ 'z') || ('A' ≤ c && c ≤ 'Z')

def isAsciiDigit (c : Char) : Bool := '0' ≤ c && c ≤ '9'

variable (runtime : Runtime)

def isDeviceId : List Char → Bool
  | [] => false
  | c :: rest => isAsciiLetter c && 5 ≤ rest.length && rest.length ≤ 15 &&
      rest.all fun c ↦ runtime.isWord c || c = '-' || c.toNat = 0x200C || c.toNat = 0x200D

def normalizeWebClientTarget (raw : String) : Except Failure String := do
  let invalid := Failure.badRequest "Invalid target ID"
  refuseIf (utf16Length raw > 256) invalid
  let value := trim raw
  if !value.isEmpty && value.all fun c ↦ isAsciiDigit c || c = ' ' then
    pure (String.ofList (value.filter (· ≠ ' ')))
  else if isDeviceId runtime value then pure (String.ofList value)
  else .error invalid

/-- A ticket is 32 random bytes in base64url. -/
def isTicket (value : List Char) : Bool :=
  value.length = 43 && value.all fun c ↦ isAsciiLetter c || isAsciiDigit c || c = '_' || c = '-'

/-- Drop the given characters after any white space. -/
def skip (token text : List Char) : Option (List Char) :=
  let text := text.dropWhile isSpace
  if token.isPrefixOf text then some (text.drop token.length) else none

/-- The only frame a new channel may send: `{"ticket":"..."}`, spaces aside. -/
def ticketFrame (bytes : List UInt8) : Option String := do
  let text ← utf8 bytes
  let text ← skip ['{'] text.toList
  let text ← skip "\"ticket\"".toList text
  let text ← skip [':'] text
  let text ← skip ['"'] text
  let value := text.take 43
  let text ← (text.drop 43).dropPrefix? ['"']
  let text ← skip ['}'] text
  if isTicket value && (text.dropWhile isSpace).isEmpty then some (String.ofList value) else none

end Text

inductive Stage
  | ticket
  | authorizing
  | request
  | opening
  | reply
  | opaqueData
  deriving DecidableEq

/-- A channel of the gateway; `detach` names the session it is attached to. -/
structure Channel where
  upstream : Bool
  claim : Option GatewayClaim
  stage : Stage
  stopped : Bool
  replied : Bool
  refused : Bool
  timer : Bool
  detach : Option String
  deriving DecidableEq

/-- What stops a channel. All but an ordinary stop retain the grant. -/
inductive Cause
  | ordinary
  | handoff
  | invalidated
  | shutdown
  deriving DecidableEq

end RustdeskConsole.Gateway
