import RustdeskConsole.Effects.Machine
import RustdeskConsole.Oidc.Entities

namespace RustdeskConsole.OidcLogins

open Effects
open Accounts (Failure User OidcUserInfo UserInfo)
open Oidc (OidcProvider OidcAuthState OidcAuthStatus OidcAuthRequestDto providerNameOf
  authCodeExpiryMinutes)
open Auth (truthy UserStatus)

inductive Request
  | requestAuth (dto : OidcAuthRequestDto)
  | callback (state error code : Option String)
  | queryAuth (code deviceId deviceUuid : String)
  | cleanup
  deriving DecidableEq

structure Call where
  id : ℕ
  request : Request
  deriving DecidableEq

/-- A callback has found a state, pending or not, has issued a token for it or has
saved it; a poll has consumed the state of a code or has answered with a token. -/
inductive Event
  | found (guid : String) (pending : Bool)
  | issued (guid token : String)
  | saved (guid : String)
  | consumed (code : String)
  | delivered (guid token : String)
  deriving DecidableEq

/-- All that was ever inserted is kept in `drawn`, and in `accepted` the codes
that the providers have exchanged. The newest event comes first. -/
structure World where
  authStates : List OidcAuthState
  drawn : List OidcAuthState
  accepted : List String
  history : List (Call × Event)

/-- What is decided elsewhere about one command. -/
structure Choice where
  outcome : Except Failure Unit
  now : ℕ
  text : String
  flag : Bool
  provider : Option OidcProvider
  userInfo : Except Failure OidcUserInfo
  user : User
  userRow : Option User
  stale : List String

inductive Command
  | now
  | randomText
  | isCallbackUrlAllowed (callbackUrl : String)
  | getSiteSettings
  | getProviderWithSecret (name : String)
  | insertAuthState (authState : OidcAuthState)
  | findAuthState (state : String)
  | saveAuthState (authState : OidcAuthState)
  | exchange (provider : OidcProvider) (authState : OidcAuthState) (code : Option String)
  | findOrCreateUser (userInfo : OidcUserInfo) (providerName : String)
  | createOrUpdateDevice (userGuid : String) (authState : OidcAuthState)
  | generateToken (authState : OidcAuthState) (userGuid : String)
  | consume (code deviceId deviceUuid : String) (now : ℕ)
  | findByDevice (code deviceId deviceUuid : String) (status : Option OidcAuthStatus)
  | findUser (guid : Option String)
  | removeAuthState (authState : OidcAuthState)
  | respond (authState : OidcAuthState) (accessToken : String)
  | deleteExpired (now : ℕ)
  | deleteStale

@[reducible] def Value : Command → Type
  | .now | .consume .. => ℕ
  | .randomText | .getSiteSettings | .generateToken .. => String
  | .isCallbackUrlAllowed _ => Bool
  | .getProviderWithSecret _ => Option OidcProvider
  | .findAuthState _ | .findByDevice .. => Option OidcAuthState
  | .exchange .. => Except Failure OidcUserInfo
  | .findOrCreateUser .. => User
  | .findUser _ => Option User
  | .insertAuthState _ | .saveAuthState _ | .createOrUpdateDevice .. | .removeAuthState _
  | .respond .. | .deleteExpired _ | .deleteStale => Unit

@[reducible] def Reply (c : Command) : Type := Except Failure (Value c)

namespace World

def note (w : World) (call : Call) (event : Event) : World :=
  { w with history := (call, event) :: w.history }

/-- A save of an entity whose row is gone inserts it again. -/
def saveAuthState (w : World) (authState : OidcAuthState) : World :=
  { w with
    authStates :=
      if w.authStates.any (·.guid = authState.guid) then
        w.authStates.map fun row ↦ if row.guid = authState.guid then authState else row
      else authState :: w.authStates }

def removeWhere (w : World) (p : OidcAuthState → Bool) : World :=
  { w with authStates := w.authStates.filter fun row ↦ !p row }

end World

/-- The row that a poll of this device asks for. -/
def isPolled (code deviceId deviceUuid : String) (row : OidcAuthState) : Bool :=
  row.code = code && row.deviceId = some deviceId && row.deviceUuid = some deviceUuid

def isConsumable (code deviceId deviceUuid : String) (now : ℕ) (row : OidcAuthState) : Bool :=
  isPolled code deviceId deviceUuid row && row.status = .authorized && now < row.expiresAt

def World.consume (w : World) (p : OidcAuthState → Bool) : World :=
  { w with
    authStates := w.authStates.map fun row ↦
      if p row then { row with status := .consumed } else row }

/-- What a command does when it does not fail. The random values of a new state
were never drawn before, and a provider accepts each code once. -/
def perform (call : Call) : (c : Command) → Choice → World → World × Option (Value c)
  | .now, o, w => (w, some o.now)
  | .randomText, o, w => (w, some o.text)
  | .isCallbackUrlAllowed _, o, w => (w, some o.flag)
  | .getSiteSettings, o, w => (w, some o.text)
  | .getProviderWithSecret _, o, w => (w, some o.provider)
  | .insertAuthState authState, _, w =>
    if w.drawn.any fun row ↦ row.guid = authState.guid || row.code = authState.code then (w, none)
    else ({ w with
      authStates := authState :: w.authStates
      drawn := authState :: w.drawn }, some ())
  | .findAuthState state, _, w =>
    match w.authStates.find? (·.state = state) with
    | some row => (w.note call (.found row.guid (row.status = .pending)), some (some row))
    | none => (w, some none)
  | .saveAuthState authState, _, w =>
    if authState.status = .authorized
      then ((w.saveAuthState authState).note call (.saved authState.guid), some ())
      else (w.saveAuthState authState, some ())
  | .exchange _ _ code, o, w =>
    match code with
    | some code =>
      if code ∈ w.accepted then (w, some (.error (.internal "invalid_grant")))
      else ({ w with accepted := code :: w.accepted }, some o.userInfo)
    | none => (w, some (.error (.internal "response parameter \"code\" missing")))
  | .findOrCreateUser .., o, w => (w, some o.user)
  | .createOrUpdateDevice .., _, w => (w, some ())
  | .generateToken authState _, o, w => (w.note call (.issued authState.guid o.text), some o.text)
  | .consume code deviceId deviceUuid now, _, w =>
    let p := isConsumable code deviceId deviceUuid now
    match w.authStates.countP p with
    | 0 => (w, some 0)
    | affected => ((w.consume p).note call (.consumed code), some affected)
  | .findByDevice code deviceId deviceUuid status, _, w =>
    (w, some (w.authStates.find? fun row ↦
      isPolled code deviceId deviceUuid row && status.all (· = row.status)))
  | .findUser _, o, w => (w, some o.userRow)
  | .removeAuthState authState, _, w => (w.removeWhere (·.guid = authState.guid), some ())
  | .respond authState accessToken, _, w =>
    (w.note call (.delivered authState.guid accessToken), some ())
  | .deleteExpired now, _, w =>
    (w.removeWhere fun row ↦ row.expiresAt < now && row.status ≠ .authorized, some ())
  | .deleteStale, o, w =>
    (w.removeWhere fun row ↦ row.status = .authorized && row.guid ∈ o.stale, some ())

def exec (call : Call) (c : Command) (o : Choice) (w : World) : World × Option (Reply c) :=
  match o.outcome with
  | .error failure => (w, some (.error failure))
  | .ok () => ((perform call c o w).1, (perform call c o w).2.map .ok)

abbrev Handler := Process Command Reply Unit Failure

namespace Handler

/-- What the command replies; it throws what it replies as a failure. -/
def attempt (c : Command) : Handler (Value c) := invoke c id

def assert (condition : Bool) (failure : Failure) : Handler Unit :=
  if condition then pure () else throw failure

def require {α : Type} (value : Option α) (failure : Failure) : Handler α :=
  match value with
  | some a => pure a
  | none => throw failure

def reply {α : Type} (x : Except Failure α) : Handler α :=
  match x with
  | .ok a => pure a
  | .error failure => throw failure

end Handler

open Handler

namespace OidcService

def assertCallbackUrl (callbackUrl : Option String) : Handler Unit :=
  match truthy callbackUrl with
  | none => pure ()
  | some callbackUrl => do
    let allowed ← attempt (.isCallbackUrlAllowed callbackUrl)
    assert allowed (.badRequest ("callbackUrl is not within the allowed site addresses; please " ++
      "check the site.frontendUrl setting in general settings"))

def requestAuth (dto : OidcAuthRequestDto) : Handler String := do
  let providerName := providerNameOf dto.op
  let found ← attempt (.getProviderWithSecret providerName)
  let provider ← require found (.badRequest
    ("OIDC provider \"" ++ providerName ++ "\" does not exist or is not enabled"))
  assertCallbackUrl dto.callbackUrl
  let code ← attempt .randomText
  let codeVerifier ← attempt .randomText
  let state ← attempt .randomText
  let nonce ← attempt .randomText
  let now ← attempt .now
  let effectiveBackendUrl ← attempt .getSiteSettings
  let guid ← attempt .randomText
  attempt (.insertAuthState {
    guid := guid
    code := code
    op := dto.op
    providerType := provider.type
    deviceId := dto.id
    deviceUuid := dto.uuid
    deviceInfo := some dto.deviceInfo
    redirectUri := effectiveBackendUrl ++ "/api/oidc/callback"
    state := state
    nonce := if provider.type = .oidc then some nonce else none
    codeVerifier := codeVerifier
    frontendRedirectUrl := truthy dto.callbackUrl
    status := .pending
    userGuid := none
    accessToken := none
    expiresAt := now + authCodeExpiryMinutes * 60000 })
  pure code

/-- A web login is sent on to the frontend with the token; a client polls for it. -/
structure CallbackResult where
  frontendRedirectUrl : Option String
  accessToken : Option String
  user : Option (String × Option String × Bool)

def result (authState : OidcAuthState) (accessToken : String) (user : User) : CallbackResult :=
  match truthy authState.frontendRedirectUrl with
  | some frontendRedirectUrl => ⟨some frontendRedirectUrl, some accessToken,
      some (user.username, truthy user.email, user.isAdmin)⟩
  | none => ⟨none, none, none⟩

def bindDevice (userGuid : String) (authState : OidcAuthState) : Handler Unit :=
  if (truthy authState.deviceId).isSome || (truthy authState.deviceUuid).isSome then
    attempt (.createOrUpdateDevice userGuid authState)
  else pure ()

/-- The part of a callback whose failures are kept from the client. -/
def complete (provider : OidcProvider) (authState : OidcAuthState) (code : Option String) :
    Handler CallbackResult := do
  let userInfo ← reply (← attempt (.exchange provider authState code))
  let user ← attempt (.findOrCreateUser userInfo (providerNameOf authState.op))
  bindDevice user.guid authState
  let accessToken ← attempt (.generateToken authState user.guid)
  attempt (.saveAuthState { authState with
    status := .authorized, userGuid := some user.guid, accessToken := some accessToken })
  pure (result authState accessToken user)

def conceal : Failure → Handler CallbackResult
  | .badRequest message => throw (.badRequest message)
  | _ => throw (.unauthorized "OIDC authentication failed, please try again")

/-- An authorization that has expired is marked so, whatever has become of it. -/
def assertCurrent (authState : OidcAuthState) (now : ℕ) : Handler Unit :=
  if authState.expiresAt < now then do
    attempt (.saveAuthState { authState with status := .expired })
    throw (.badRequest "OIDC authorization has expired, please start the authorization again")
  else pure ()

def handleCallback (state error code : Option String) : Handler CallbackResult := do
  assert (truthy error).isNone (.badRequest "OIDC authentication failed, please try again")
  let state ← require (truthy state) (.badRequest "OIDC callback is missing the state parameter")
  let found ← attempt (.findAuthState state)
  let authState ← require found (.badRequest "Invalid OIDC state parameter")
  let now ← attempt .now
  assertCurrent authState now
  assert (authState.status = .pending) (.badRequest "OIDC authorization state is invalid")
  let providerName := providerNameOf authState.op
  let found ← attempt (.getProviderWithSecret providerName)
  let provider ← require found (.badRequest
    ("OIDC provider \"" ++ providerName ++ "\" does not exist"))
  tryCatch (complete provider authState code) conceal

structure LoginResponse where
  accessToken : String
  guid : String
  name : String
  email : Option String
  note : Option String
  status : UserStatus
  info : UserInfo
  isAdmin : Bool
  thirdAuthType : Option String
  tfaEnabled : Bool
  hasPassword : Bool

def loginResponse (accessToken : String) (user : User) : LoginResponse where
  accessToken := accessToken
  guid := user.guid
  name := user.username
  email := truthy user.email
  note := truthy user.note
  status := user.status
  info := user.getUserInfo
  isAdmin := user.isAdmin
  thirdAuthType := truthy user.thirdAuthType
  tfaEnabled := (truthy user.tfaSecret).isSome
  hasPassword := (truthy user.password).isSome

def noAuthed : Failure := .unauthorized "No authed oidc is found"

/-- Why a poll finds nothing to consume. -/
def refusal : Option OidcAuthStatus → Failure
  | some .expired => .unauthorized "Authorization expired"
  | some .cancelled => .unauthorized "Authorization cancelled"
  | some .consumed => .unauthorized "Authorization already consumed"
  | some .pending | some .authorized | none => noAuthed

def deliver (authState : OidcAuthState) : Handler LoginResponse := do
  let accessToken ← require (truthy authState.accessToken) noAuthed
  let found ← attempt (.findUser authState.userGuid)
  let user ← require found (.unauthorized "User not found")
  attempt (.removeAuthState authState)
  attempt (.respond authState accessToken)
  pure (loginResponse accessToken user)

def queryAuth (code deviceId deviceUuid : String) : Handler LoginResponse := do
  let now ← attempt .now
  let affected ← attempt (.consume code deviceId deviceUuid now)
  match affected with
  | 0 => do
    let authState ← attempt (.findByDevice code deviceId deviceUuid none)
    throw (refusal (authState.map (·.status)))
  | _ => do
    let found ← attempt (.findByDevice code deviceId deviceUuid (some .consumed))
    let authState ← require found noAuthed
    deliver authState

end OidcService

def handleCleanupExpiredAuthStates : Handler Unit := do
  let now ← attempt .now
  attempt (.deleteExpired now)
  attempt .deleteStale

def ignore {α : Type} (handler : Handler α) : Handler Unit := do
  let _ ← handler
  pure ()

def serve : Request → Handler Unit
  | .requestAuth dto => ignore (OidcService.requestAuth dto)
  | .callback state error code => ignore (OidcService.handleCallback state error code)
  | .queryAuth code deviceId deviceUuid => ignore (OidcService.queryAuth code deviceId deviceUuid)
  | .cleanup => handleCleanupExpiredAuthStates

def handler (call : Call) : Prog Command Reply Unit :=
  (serve call.request).start () >>= fun _ ↦ .done ()

/-- Any number of requests at once. A call takes no part twice. -/
def machine : Machine Call Command Reply Choice World where
  exec := exec
  admits call w p := (∀ event, (call, event) ∉ w.history) ∧ p = handler call

end RustdeskConsole.OidcLogins
