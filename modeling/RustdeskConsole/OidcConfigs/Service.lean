import RustdeskConsole.Collections.OrderedMap
import RustdeskConsole.Effects.Outcomes
import RustdeskConsole.Oidc.Service

namespace RustdeskConsole.OidcConfigs

open Effects
open Accounts (Failure OidcUserInfo)
open Auth (truthy)
open Collections (OrderedMap)
open Oidc (OidcProvider OidcAuthState IdTokenClaims FetchedUserInfo Json CreateOidcProviderDto
  UpdateOidcProviderDto OidcAuthRequestDto providerNameOf authCodeExpiryMinutes claimsUserInfo
  mergeUserInfo dataUserInfo subText)

/-- The endpoints of a provider, as it publishes them or as they are stored. -/
structure ServerMetadata where
  issuer : String
  authorizationEndpoint : Option String
  tokenEndpoint : Option String
  userinfoEndpoint : Option String
  jwksUri : Option String
  deriving DecidableEq

/-- What the client library keeps of a provider. -/
structure Configuration where
  metadata : ServerMetadata
  clientId : String
  clientSecret : Option String
  deriving DecidableEq

/-- What a request to a provider is made with. -/
inductive Outgoing
  | authorization (endpoint clientId : String)
  | token (endpoint clientId : String) (clientSecret : Option String)
  | userinfo (endpoint : String)
  deriving DecidableEq

/-- A request is kept with what was stored of its provider when it was sent. -/
inductive Event
  | filled (provider : OidcProvider) (timestamp : ℕ)
  | cleared (issuer : String)
  | sent (stored : Option OidcProvider) (outgoing : Outgoing)
  deriving DecidableEq

/-- The newest event comes first. -/
structure World where
  providers : List OidcProvider
  authStates : List OidcAuthState
  configCache : OrderedMap String Configuration
  configCacheTimestamp : OrderedMap String ℕ
  history : List Event

structure Tokens where
  claims : Option IdTokenClaims
  accessToken : Option String

/-- What is decided elsewhere while one request is served: the clock when it
comes in, when it looks into the cache and when it fills it, random values, what
the database makes of a write, and what a provider answers. -/
structure Choice where
  received : ℕ
  now : ℕ
  cached : ℕ
  uuid : String
  code : String
  state : String
  nonce : String
  codeVerifier : String
  callbackUrlAllowed : Bool
  effectiveBackendUrl : String
  saved : Except Failure Unit
  authStateSaved : Except Failure Unit
  validated : Except Failure Unit
  granted : Except Failure Tokens
  fetched : Option FetchedUserInfo
  data : Except Failure Json
  signedIn : Except Failure (String × String)

def configCacheTtl : ℕ := 24 * 60 * 60 * 1000

/-- `cachedTimestamp && Date.now() - cachedTimestamp < CONFIG_CACHE_TTL`. -/
def timely (timestamp now : ℕ) : Bool := timestamp ≠ 0 && now < timestamp + configCacheTtl

namespace World

def record (w : World) (event : Event) : World := { w with history := event :: w.history }

def provider? (w : World) (guid : String) : Option OidcProvider :=
  w.providers.find? (·.guid = guid)

def getProviderWithSecret (w : World) (name : String) : Option OidcProvider :=
  w.providers.find? fun p ↦ p.name = name && p.enabled

def authState? (w : World) (state : String) : Option OidcAuthState :=
  w.authStates.find? (·.state = state)

def cachedConfig (w : World) (issuer : String) (now : ℕ) : Option Configuration :=
  match w.configCache.get? issuer, w.configCacheTimestamp.get? issuer with
  | some config, some timestamp => if timely timestamp now then some config else none
  | _, _ => none

def cacheConfig (w : World) (provider : OidcProvider) (config : Configuration) (timestamp : ℕ) :
    World :=
  { w with
    configCache := w.configCache.set provider.issuer config
    configCacheTimestamp := w.configCacheTimestamp.set provider.issuer timestamp
    history := .filled provider timestamp :: w.history }

/-- An empty issuer is none, and clears everything. -/
def clearConfigCache (w : World) (issuer : String) : World :=
  { w with
    configCache := if issuer = "" then .empty else w.configCache.erase issuer
    configCacheTimestamp := if issuer = "" then .empty else w.configCacheTimestamp.erase issuer
    history := .cleared issuer :: w.history }

def saveProvider (w : World) (provider : OidcProvider) : World :=
  { w with providers := w.providers.map fun row ↦ if row.guid = provider.guid then provider else row }

def removeProvider (w : World) (guid : String) : World :=
  { w with providers := w.providers.filter (·.guid ≠ guid) }

def saveAuthState (w : World) (authState : OidcAuthState) : World :=
  { w with authStates := w.authStates.map fun row ↦
      if row.guid = authState.guid then authState else row }

end World

abbrev Handler := EStateM Failure World

namespace Handler

def assert (condition : Bool) (failure : Failure) : Handler Unit :=
  if condition then pure () else throw failure

def require {α : Type} (value : Option α) (failure : Failure) : Handler α :=
  match value with
  | some a => pure a
  | none => throw failure

/-- A reply from elsewhere. -/
def reply {α : Type} (x : Except Failure α) : Handler α :=
  match x with
  | .ok a => pure a
  | .error failure => throw failure

def send (guid : String) (outgoing : Outgoing) : Handler Unit :=
  modify fun w ↦ w.record (.sent (w.provider? guid) outgoing)

variable {P : World → Prop} {α β : Type} {failure : Failure} {f : α → Handler β}

theorem preserves_assert {condition : Bool} : Preserves P (assert condition failure) := by
  rw [assert]
  split
  · exact .pure
  · exact .throw

theorem preserves_require {value : Option α} (h : ∀ a, value = some a → Preserves P (f a)) :
    Preserves P (require value failure >>= f) := by
  cases value with
  | some a => exact h a rfl
  | none => exact .throw

theorem preserves_reply {x : Except Failure α} : Preserves P (reply x) := by
  cases x with
  | ok a => exact .pure
  | error failure => exact .throw

end Handler

open Handler
open Oidc.OidcAdminService (nameExists doesNotExist assign)

variable (discovery : String → Option ServerMetadata) (o : Choice)

/-- `client.discovery`, which an OAuth2 provider is not asked for. -/
def discover (provider : OidcProvider) : Option Configuration :=
  if provider.type = .oauth2 then none
  else (discovery provider.issuer).map fun metadata ↦
    ⟨metadata, provider.clientId, truthy provider.clientSecret⟩

/-- The configuration made of the stored endpoints. -/
def manualConfiguration (provider : OidcProvider) : Configuration where
  metadata :=
    { issuer := provider.issuer
      authorizationEndpoint := provider.authorizationEndpoint
      tokenEndpoint := provider.tokenEndpoint
      userinfoEndpoint := provider.userinfoEndpoint
      jwksUri := provider.jwksUri }
  clientId := provider.clientId
  clientSecret := truthy provider.clientSecret

def configurationOf (provider : OidcProvider) : Configuration :=
  (discover discovery provider).getD (manualConfiguration provider)

namespace OidcAdminService

def assertName (name : String) : Handler Unit := do
  let w ← get
  assert (w.providers.find? (·.name = name)).isNone (nameExists name)

def create (dto : CreateOidcProviderDto) : Handler Unit := do
  assertName dto.name
  let type := dto.type.getD .oidc
  let provider : OidcProvider := {
    guid := o.uuid
    name := dto.name
    type := type
    issuer := dto.issuer
    clientId := dto.clientId
    clientSecret := truthy dto.clientSecret
    scope := some ((truthy dto.scope).getD
      (if type = .oauth2 then "read:user user:email" else "openid email profile"))
    authorizationEndpoint := truthy dto.authorizationEndpoint
    tokenEndpoint := truthy dto.tokenEndpoint
    userinfoEndpoint := truthy dto.userinfoEndpoint
    jwksUri := truthy dto.jwksUri
    icon := truthy dto.icon
    enabled := dto.enabled.getD true }
  reply o.saved
  modify fun w ↦ { w with providers := provider :: w.providers }

def findProvider (guid : String) : Handler OidcProvider := do
  let w ← get
  require (w.provider? guid) (doesNotExist guid)

/-- A name is looked up when it is another one. -/
def assertRename (provider : OidcProvider) (name : Option String) : Handler Unit :=
  match truthy name with
  | some name => if name = provider.name then pure () else assertName name
  | none => pure ()

def update (guid : String) (dto : UpdateOidcProviderDto) : Handler Unit := do
  let provider ← findProvider guid
  assertRename provider dto.name
  reply o.saved
  modify (·.saveProvider (assign provider dto))
  modify fun w ↦ if (assign provider dto).issuer ≠ provider.issuer
    then w.clearConfigCache provider.issuer else w
  modify (·.clearConfigCache (assign provider dto).issuer)

def remove (guid : String) : Handler Unit := do
  let provider ← findProvider guid
  modify (·.clearConfigCache provider.issuer)
  reply o.saved
  modify (·.removeProvider guid)

def toggle (guid : String) (enabled : Bool) : Handler Unit := do
  let provider ← findProvider guid
  reply o.saved
  modify (·.saveProvider { provider with enabled := enabled })

/-- A discovery that goes through clears what is cached of the issuer. -/
def testConnection (guid : String) : Handler Bool := do
  let provider ← findProvider guid
  match discovery provider.issuer with
  | some _ => do
    modify (·.clearConfigCache provider.issuer)
    pure true
  | none => pure false

end OidcAdminService

namespace OidcService

def getOidcConfig (provider : OidcProvider) : Handler Configuration := do
  let w ← get
  match w.cachedConfig provider.issuer o.now with
  | some config => pure config
  | none => do
    modify (·.cacheConfig provider (configurationOf discovery provider) o.cached)
    pure (configurationOf discovery provider)

def getProviderWithSecret (name : String) (failure : Failure) : Handler OidcProvider := do
  let w ← get
  require (w.getProviderWithSecret name) failure

def buildAuthorizationUrl (guid : String) (config : Configuration) : Handler Unit := do
  let endpoint ← require (truthy config.metadata.authorizationEndpoint)
    (.internal "authorization server metadata does not contain a valid authorization_endpoint")
  send guid (.authorization endpoint config.clientId)

def requestAuth (dto : OidcAuthRequestDto) : Handler String := do
  let providerName := providerNameOf dto.op
  let provider ← getProviderWithSecret providerName (.badRequest
    ("OIDC provider \"" ++ providerName ++ "\" does not exist or is not enabled"))
  assert ((truthy dto.callbackUrl).isNone || o.callbackUrlAllowed) (.badRequest
    ("callbackUrl is not within the allowed site addresses; please " ++
      "check the site.frontendUrl setting in general settings"))
  let authState : OidcAuthState := {
    guid := o.uuid
    code := o.code
    op := dto.op
    providerType := provider.type
    deviceId := dto.id
    deviceUuid := dto.uuid
    deviceInfo := some dto.deviceInfo
    redirectUri := o.effectiveBackendUrl ++ "/api/oidc/callback"
    state := o.state
    nonce := if provider.type = .oidc then some o.nonce else none
    codeVerifier := o.codeVerifier
    frontendRedirectUrl := truthy dto.callbackUrl
    status := .pending
    userGuid := none
    accessToken := none
    expiresAt := o.received + authCodeExpiryMinutes * 60000 }
  reply o.authStateSaved
  modify fun w ↦ { w with authStates := authState :: w.authStates }
  let config ← getOidcConfig discovery o provider
  buildAuthorizationUrl provider.guid config
  pure o.code

/-- The response is validated before the tokens are asked for. -/
def authorizationCodeGrant (guid : String) (config : Configuration) : Handler Tokens := do
  reply o.validated
  let endpoint ← require (truthy config.metadata.tokenEndpoint)
    (.internal "authorization server metadata does not contain a valid token_endpoint")
  send guid (.token endpoint config.clientId config.clientSecret)
  reply o.granted

/-- The userinfo endpoint is asked when an email or a picture is missing. Its
failure is no failure. -/
def completeUserInfo (guid : String) (config : Configuration) (claims : Option IdTokenClaims) :
    Handler OidcUserInfo :=
  let userInfo := claimsUserInfo claims
  match truthy config.metadata.userinfoEndpoint with
  | some endpoint =>
    if (truthy userInfo.email).isNone || (truthy userInfo.picture).isNone then do
      send guid (.userinfo endpoint)
      pure (match o.fetched with
        | some fetched => mergeUserInfo claims fetched
        | none => userInfo)
    else pure userInfo
  | none => pure userInfo

def handleOidcCallback (provider : OidcProvider) (config : Configuration) :
    Handler OidcUserInfo := do
  let tokens ← authorizationCodeGrant o provider.guid config
  completeUserInfo o provider.guid config tokens.claims

def fetchOAuth2UserInfo (provider : OidcProvider) : Handler OidcUserInfo := do
  let userinfoEndpoint ← require (truthy provider.userinfoEndpoint) (.badRequest
    "The OAuth2 provider has no user info endpoint configured, unable to get user info")
  send provider.guid (.userinfo userinfoEndpoint)
  let data ← reply o.data
  let sub ← require (subText data) (.unauthorized "Failed to get user info")
  pure (dataUserInfo data sub)

def handleOAuth2Callback (provider : OidcProvider) (config : Configuration)
    (authState : OidcAuthState) : Handler OidcUserInfo := do
  let tokens ← authorizationCodeGrant o provider.guid config
  let _ ← require (truthy tokens.accessToken)
    (.unauthorized "OAuth2 token exchange failed: no access_token received")
  let providerName := providerNameOf authState.op
  let provider ← getProviderWithSecret providerName (.badRequest
    ("OAuth2 provider \"" ++ providerName ++ "\" does not exist"))
  fetchOAuth2UserInfo o provider

def exchange (provider : OidcProvider) (config : Configuration) (authState : OidcAuthState) :
    Handler OidcUserInfo :=
  match provider.type with
  | .oidc => handleOidcCallback o provider config
  | .oauth2 => handleOAuth2Callback o provider config authState

/-- The part of a callback whose failures are kept from the client. -/
def complete (provider : OidcProvider) (authState : OidcAuthState) : Handler Unit := do
  let config ← getOidcConfig discovery o provider
  let _ ← exchange o provider config authState
  let (userGuid, accessToken) ← reply o.signedIn
  reply o.authStateSaved
  modify (·.saveAuthState { authState with
    status := .authorized, userGuid := some userGuid, accessToken := some accessToken })

def conceal : Failure → Handler Unit
  | .badRequest message => throw (.badRequest message)
  | _ => throw (.unauthorized "OIDC authentication failed, please try again")

/-- An authorization that has expired is marked so. -/
def assertCurrent (authState : OidcAuthState) : Handler Unit :=
  if authState.expiresAt < o.received then do
    reply o.authStateSaved
    modify (·.saveAuthState { authState with status := .expired })
    throw (.badRequest "OIDC authorization has expired, please start the authorization again")
  else pure ()

def handleCallback (state error : Option String) : Handler Unit := do
  assert (truthy error).isNone (.badRequest "OIDC authentication failed, please try again")
  let state ← require (truthy state) (.badRequest "OIDC callback is missing the state parameter")
  let w ← get
  let authState ← require (w.authState? state) (.badRequest "Invalid OIDC state parameter")
  assertCurrent o authState
  assert (authState.status = .pending) (.badRequest "OIDC authorization state is invalid")
  let providerName := providerNameOf authState.op
  let provider ← getProviderWithSecret providerName (.badRequest
    ("OIDC provider \"" ++ providerName ++ "\" does not exist"))
  tryCatch (complete discovery o provider authState) conceal

end OidcService

inductive Request
  | create (dto : CreateOidcProviderDto)
  | update (guid : String) (dto : UpdateOidcProviderDto)
  | remove (guid : String)
  | toggle (guid : String) (enabled : Bool)
  | testConnection (guid : String)
  | requestAuth (dto : OidcAuthRequestDto)
  | callback (state error : Option String)

def ignore {α : Type} (handler : Handler α) : Handler Unit := do
  let _ ← handler
  pure ()

def serve : Request → Handler Unit
  | .create dto => OidcAdminService.create o dto
  | .update guid dto => OidcAdminService.update o guid dto
  | .remove guid => OidcAdminService.remove o guid
  | .toggle guid enabled => OidcAdminService.toggle o guid enabled
  | .testConnection guid => ignore (OidcAdminService.testConnection discovery guid)
  | .requestAuth dto => ignore (OidcService.requestAuth discovery o dto)
  | .callback state error => OidcService.handleCallback discovery o state error

end RustdeskConsole.OidcConfigs
