import RustdeskConsole.Accounts.Service
import RustdeskConsole.Effects.Embedding
import RustdeskConsole.Oidc.Entities

namespace RustdeskConsole.Oidc

open Effects
open Accounts (Failure column OidcUserInfo User)
open Auth (truthy)

inductive Event
  | found (provider : OidcProvider)
  | answered (answer : Answer)
  | authorized (account : String)

/-- The newest event comes first. The uuids in use are those of the accounts. -/
structure World where
  accounts : Accounts.World
  providers : List OidcProvider
  authStates : List OidcAuthState
  history : List (ℕ × Event)

/-- Commands on accounts are those of the account services. -/
inductive Command
  | now
  | randomText
  | isCallbackUrlAllowed (callbackUrl : String)
  | getSiteSettings
  | findProvider (guid : String)
  | findProviderByName (name : String)
  | getProviderWithSecret (name : String)
  | insertProvider (draft : OidcProvider)
  | saveProvider (loaded saved : OidcProvider)
  | removeProvider (provider : OidcProvider)
  | insertAuthState (draft : OidcAuthState)
  | findAuthState (state : String)
  | expireAuthState (authState : OidcAuthState)
  | authorizeAuthState (authState : OidcAuthState) (userGuid accessToken : String)
  | getOidcConfig (provider : OidcProvider)
  | buildAuthorizationUrl (config : OidcConfig) (authState : OidcAuthState) (scope : String)
  | grantIdToken (config : OidcConfig) (authState : OidcAuthState)
  | grantAccessToken (config : OidcConfig) (authState : OidcAuthState)
  | fetchUserInfo (config : OidcConfig) (expectedSubject : String)
  | fetch (userinfoEndpoint accessToken : String)
  | createOrUpdateDevice (userGuid : String) (authState : OidcAuthState)
  | generateToken (userGuid : String) (deviceId deviceUuid : Option String)
  | account (request : Accounts.Request) (command : Accounts.Command)

@[reducible] def Reply : Command → Type
  | .now => ℕ
  | .randomText | .getSiteSettings | .buildAuthorizationUrl .. => String
  | .isCallbackUrlAllowed _ => Bool
  | .findProvider _ | .findProviderByName _ | .getProviderWithSecret _ => Option OidcProvider
  | .insertProvider _ => OidcProvider
  | .saveProvider .. | .removeProvider _ | .insertAuthState _ | .expireAuthState _
  | .authorizeAuthState .. => Unit
  | .findAuthState _ => Option OidcAuthState
  | .getOidcConfig _ => OidcConfig
  | .grantIdToken .. => Except Failure (Option IdTokenClaims)
  | .grantAccessToken .. => Except Failure (Option String)
  | .fetchUserInfo .. => Option FetchedUserInfo
  | .fetch .. => Except Failure Json
  | .createOrUpdateDevice .. => Except Failure Unit
  | .generateToken .. => Except Failure String
  | .account _ command => Accounts.Reply command

/-- What the world decides about one command: the clock, random values, which of
several rows a lookup finds, and what the providers answer. -/
structure Choice where
  now : ℕ
  uuid : String
  text : String
  row : ℕ
  flag : Bool
  config : OidcConfig
  claims : Except Failure (Option IdTokenClaims)
  accessToken : Except Failure (Option String)
  fetched : Option FetchedUserInfo
  data : Except Failure Json
  outcome : Except Failure Unit
  token : Except Failure String
  account : Accounts.Choice

namespace World

def record (w : World) (i : ℕ) (event : Event) : World :=
  { w with history := (i, event) :: w.history }

/-- One of the rows, if there are any. -/
def one {α : Type} (rows : List α) (row : ℕ) : Option (Option α) :=
  match rows with
  | [] => some none
  | _ => rows[row]?.map some

def getProviderWithSecret (w : World) (i : ℕ) (name : String) (row : ℕ) :
    World × Option (Option OidcProvider) :=
  match one (w.providers.filter fun p ↦ p.name = name && p.enabled) row with
  | none => (w, none)
  | some none => (w, some none)
  | some (some provider) => (w.record i (.found provider), some (some provider))

def draw (w : World) (uuid : String) : World :=
  { w with accounts := { w.accounts with drawn := uuid :: w.accounts.drawn } }

/-- A uuid drawn for a new row was never drawn before. -/
def insertProvider (w : World) (draft : OidcProvider) (uuid : String) :
    World × Option OidcProvider :=
  let provider := { draft with guid := uuid }
  if uuid ∈ w.accounts.drawn then (w, none)
  else ({ w.draw uuid with providers := provider :: w.providers }, some provider)

def insertAuthState (w : World) (draft : OidcAuthState) (uuid : String) : World × Option Unit :=
  if uuid ∈ w.accounts.drawn then (w, none)
  else ({ w.draw uuid with authStates := { draft with guid := uuid } :: w.authStates }, some ())

/-- The row after a save of the entity, which writes the columns that changed. -/
def mergeProvider (loaded saved row : OidcProvider) : OidcProvider where
  guid := row.guid
  name := column loaded.name saved.name row.name
  type := column loaded.type saved.type row.type
  issuer := column loaded.issuer saved.issuer row.issuer
  clientId := column loaded.clientId saved.clientId row.clientId
  clientSecret := column loaded.clientSecret saved.clientSecret row.clientSecret
  scope := column loaded.scope saved.scope row.scope
  authorizationEndpoint :=
    column loaded.authorizationEndpoint saved.authorizationEndpoint row.authorizationEndpoint
  tokenEndpoint := column loaded.tokenEndpoint saved.tokenEndpoint row.tokenEndpoint
  userinfoEndpoint := column loaded.userinfoEndpoint saved.userinfoEndpoint row.userinfoEndpoint
  jwksUri := column loaded.jwksUri saved.jwksUri row.jwksUri
  icon := column loaded.icon saved.icon row.icon
  enabled := column loaded.enabled saved.enabled row.enabled

/-- A save of an entity whose row is gone inserts it again. -/
def saveProvider (w : World) (loaded saved : OidcProvider) : World :=
  if w.providers.any (·.guid = loaded.guid) then
    { w with providers := w.providers.map fun row ↦
      if row.guid = loaded.guid then mergeProvider loaded saved row else row }
  else { w with providers := saved :: w.providers }

def removeProvider (w : World) (provider : OidcProvider) : World :=
  { w with providers := w.providers.filter (·.guid ≠ provider.guid) }

def updateAuthState (w : World) (authState : OidcAuthState)
    (update : OidcAuthState → OidcAuthState) : World :=
  { w with authStates := w.authStates.map fun row ↦
    if row.guid = authState.guid then update row else row }

def authorizeAuthState (w : World) (i : ℕ) (authState : OidcAuthState)
    (userGuid accessToken : String) : World :=
  (w.updateAuthState authState fun row ↦ { row with
    status := .authorized
    userGuid := some userGuid
    accessToken := some accessToken }).record i (.authorized userGuid)

/-- What a provider answers is kept in the history. -/
def answer {α : Type} (w : World) (i : ℕ) (reply : Except Failure α) (answer : α → Answer) :
    World × Option (Except Failure α) :=
  match reply with
  | .ok a => (w.record i (.answered (answer a)), some (.ok a))
  | .error failure => (w, some (.error failure))

end World

def exec (platform : Accounts.Platform) (i : ℕ) :
    (c : Command) → Choice → World → World × Option (Reply c)
  | .now, o, w => (w, some o.now)
  | .randomText, o, w => (w, some o.text)
  | .isCallbackUrlAllowed _, o, w => (w, some o.flag)
  | .getSiteSettings, o, w => (w, some o.text)
  | .findProvider guid, _, w => (w, some (w.providers.find? (·.guid = guid)))
  | .findProviderByName name, o, w =>
    (w, World.one (w.providers.filter (·.name = name)) o.row)
  | .getProviderWithSecret name, o, w => w.getProviderWithSecret i name o.row
  | .insertProvider draft, o, w => w.insertProvider draft o.uuid
  | .saveProvider loaded saved, _, w => (w.saveProvider loaded saved, some ())
  | .removeProvider provider, _, w => (w.removeProvider provider, some ())
  | .insertAuthState draft, o, w => w.insertAuthState draft o.uuid
  | .findAuthState state, o, w => (w, World.one (w.authStates.filter (·.state = state)) o.row)
  | .expireAuthState authState, _, w =>
    (w.updateAuthState authState fun row ↦ { row with status := .expired }, some ())
  | .authorizeAuthState authState userGuid accessToken, _, w =>
    (w.authorizeAuthState i authState userGuid accessToken, some ())
  | .getOidcConfig _, o, w => (w, some o.config)
  | .buildAuthorizationUrl _ _ _, o, w => (w, some o.text)
  | .grantIdToken _ _, o, w => w.answer i o.claims .idToken
  | .grantAccessToken _ _, o, w => (w, some o.accessToken)
  | .fetchUserInfo _ _, o, w => (w, some o.fetched)
  | .fetch _ _, o, w => w.answer i o.data .userInfo
  | .createOrUpdateDevice _ _, o, w => (w, some o.outcome)
  | .generateToken _ _ _, o, w => (w, some o.token)
  | .account request c, o, w =>
    let (accounts, reply) := Accounts.exec platform ⟨i, request⟩ c o.account w.accounts
    ({ w with accounts := accounts }, reply)

abbrev Handler := Process Command Reply Unit Failure

namespace Handler

def ask (c : Command) : Handler (Reply c) := invoke c .ok

def assert (condition : Bool) (failure : Failure) : Handler Unit :=
  if condition then pure () else throw failure

def require {α : Type} (value : Option α) (failure : Failure) : Handler α :=
  match value with
  | some a => pure a
  | none => throw failure

/-- A handler of the account services, called from this one. -/
def accounts {α : Type} (request : Accounts.Request) (handler : Accounts.Handler α) : Handler α :=
  ExceptT.mk fun s ↦ (handler.start s).translate (.account request) fun _ ↦ id

end Handler

open Handler

namespace OidcAdminService

def nameExists (name : String) : Failure :=
  .badRequest ("OIDC provider name \"" ++ name ++ "\" already exists")

def doesNotExist (guid : String) : Failure :=
  .notFound ("OIDC provider \"" ++ guid ++ "\" does not exist")

def assertName (name : String) : Handler Unit := do
  let existing ← ask (.findProviderByName name)
  assert existing.isNone (nameExists name)

def create (dto : CreateOidcProviderDto) : Handler OidcProvider := do
  assertName dto.name
  let type := dto.type.getD .oidc
  ask (.insertProvider {
    guid := ""
    name := dto.name
    type := type
    issuer := dto.issuer
    clientId := dto.clientId
    clientSecret := truthy dto.clientSecret
    scope := some ((truthy dto.scope).getD
      (if type = .oauth2 then "read:user user:email" else "openid email profile"))
    authorizationEndpoint := truthy dto.authorizationEndpoint
    tokenEndpoint := truthy dto.tokenEndpoint
    userinfoEndpoint := truthy dto.userinfoEndpoint
    jwksUri := truthy dto.jwksUri
    icon := truthy dto.icon
    enabled := dto.enabled.getD true })

/-- A name is looked up when it is another one. -/
def assertRename (provider : OidcProvider) (name : Option String) : Handler Unit :=
  match truthy name with
  | some name => if name = provider.name then pure () else assertName name
  | none => pure ()

def assign (provider : OidcProvider) (dto : UpdateOidcProviderDto) : OidcProvider :=
  { provider with
    type := dto.type.getD provider.type
    name := dto.name.getD provider.name
    issuer := dto.issuer.getD provider.issuer
    clientId := dto.clientId.getD provider.clientId
    clientSecret := dto.clientSecret.or provider.clientSecret
    scope := dto.scope.or provider.scope
    authorizationEndpoint := dto.authorizationEndpoint.or provider.authorizationEndpoint
    tokenEndpoint := dto.tokenEndpoint.or provider.tokenEndpoint
    userinfoEndpoint := dto.userinfoEndpoint.or provider.userinfoEndpoint
    jwksUri := dto.jwksUri.or provider.jwksUri
    icon := dto.icon.or provider.icon
    enabled := dto.enabled.getD provider.enabled }

def findProvider (guid : String) : Handler OidcProvider := do
  let found ← ask (.findProvider guid)
  require found (doesNotExist guid)

def update (guid : String) (dto : UpdateOidcProviderDto) : Handler OidcProvider := do
  let provider ← findProvider guid
  assertRename provider dto.name
  ask (.saveProvider provider (assign provider dto))
  pure (assign provider dto)

def remove (guid : String) : Handler Unit := do
  let provider ← findProvider guid
  ask (.removeProvider provider)

def toggle (guid : String) (enabled : Bool) : Handler OidcProvider := do
  let provider ← findProvider guid
  ask (.saveProvider provider { provider with enabled := enabled })
  pure { provider with enabled := enabled }

end OidcAdminService

namespace OidcService

def assertCallbackUrl (callbackUrl : Option String) : Handler Unit :=
  match truthy callbackUrl with
  | none => pure ()
  | some callbackUrl => do
    let allowed ← ask (.isCallbackUrlAllowed callbackUrl)
    assert allowed (.badRequest ("callbackUrl is not within the allowed site addresses; please " ++
      "check the site.frontendUrl setting in general settings"))

/-- Only an OIDC provider is given a nonce. -/
def randomNonce (type : OidcProviderType) : Handler (Option String) :=
  match type with
  | .oidc => do
    let nonce ← ask .randomText
    pure (some nonce)
  | .oauth2 => pure none

/-- The code that the client polls with, and the url that the user is sent to. -/
def requestAuth (dto : OidcAuthRequestDto) : Handler (String × String) := do
  let providerName := providerNameOf dto.op
  let found ← ask (.getProviderWithSecret providerName)
  let provider ← require found (.badRequest
    ("OIDC provider \"" ++ providerName ++ "\" does not exist or is not enabled"))
  assertCallbackUrl dto.callbackUrl
  let code ← ask .randomText
  let codeVerifier ← ask .randomText
  let state ← ask .randomText
  let nonce ← randomNonce provider.type
  let now ← ask .now
  let effectiveBackendUrl ← ask .getSiteSettings
  let authState : OidcAuthState := {
    guid := ""
    code := code
    op := dto.op
    providerType := provider.type
    deviceId := dto.id
    deviceUuid := dto.uuid
    deviceInfo := some dto.deviceInfo
    redirectUri := effectiveBackendUrl ++ "/api/oidc/callback"
    state := state
    nonce := nonce
    codeVerifier := codeVerifier
    frontendRedirectUrl := truthy dto.callbackUrl
    status := .pending
    userGuid := none
    accessToken := none
    expiresAt := now + authCodeExpiryMinutes * 60000 }
  ask (.insertAuthState authState)
  let config ← ask (.getOidcConfig provider)
  let url ← ask (.buildAuthorizationUrl config authState ((truthy provider.scope).getD
    (if provider.type = .oauth2 then "read:user user:email" else "openid email profile")))
  pure (code, url)

/-- The userinfo endpoint is asked when an email or a picture is missing. Its
failure is no failure. -/
def completeUserInfo (config : OidcConfig) (claims : Option IdTokenClaims) :
    Handler OidcUserInfo :=
  let userInfo := claimsUserInfo claims
  if ((truthy userInfo.email).isNone || (truthy userInfo.picture).isNone) &&
      (truthy config.userinfoEndpoint).isSome then do
    let fetched ← ask (.fetchUserInfo config userInfo.sub)
    pure (match fetched with
      | some fetched => mergeUserInfo claims fetched
      | none => userInfo)
  else pure userInfo

def handleOidcCallback (config : OidcConfig) (authState : OidcAuthState) :
    Handler OidcUserInfo := do
  let claims ← invoke (.grantIdToken config authState) fun reply ↦ reply
  completeUserInfo config claims

def fetchOAuth2UserInfo (accessToken : String) (provider : OidcProvider) :
    Handler OidcUserInfo := do
  let userinfoEndpoint ← require (truthy provider.userinfoEndpoint) (.badRequest
    "The OAuth2 provider has no user info endpoint configured, unable to get user info")
  let data ← invoke (.fetch userinfoEndpoint accessToken) fun reply ↦ reply
  let sub ← require (subText data) (.unauthorized "Failed to get user info")
  pure (dataUserInfo data sub)

def handleOAuth2Callback (config : OidcConfig) (authState : OidcAuthState) :
    Handler OidcUserInfo := do
  let granted : Option String ← invoke (.grantAccessToken config authState) fun reply ↦ reply
  let accessToken ← require (truthy granted)
    (.unauthorized "OAuth2 token exchange failed: no access_token received")
  let providerName := providerNameOf authState.op
  let found ← ask (.getProviderWithSecret providerName)
  let provider ← require found (.badRequest
    ("OAuth2 provider \"" ++ providerName ++ "\" does not exist"))
  fetchOAuth2UserInfo accessToken provider

def exchange (provider : OidcProvider) (config : OidcConfig) (authState : OidcAuthState) :
    Handler OidcUserInfo :=
  match provider.type with
  | .oidc => handleOidcCallback config authState
  | .oauth2 => handleOAuth2Callback config authState

def bindDevice (userGuid : String) (authState : OidcAuthState) : Handler Unit :=
  if (truthy authState.deviceId).isSome || (truthy authState.deviceUuid).isSome then
    invoke (.createOrUpdateDevice userGuid authState) fun reply ↦ reply
  else pure ()

/-- A web login is sent on to the frontend with the token; a client polls for it. -/
structure CallbackResult where
  frontendRedirectUrl : Option String
  accessToken : Option String
  user : Option (String × Option String × Bool)

def result (authState : OidcAuthState) (accessToken : String) (user : User) : CallbackResult :=
  match truthy authState.frontendRedirectUrl with
  | some frontendRedirectUrl => ⟨some frontendRedirectUrl, some accessToken,
      some (user.username, truthy user.email, user.isAdmin)⟩
  | none => ⟨none, none, none⟩

variable (platform : Accounts.Platform)

def findOrCreateUser (userInfo : OidcUserInfo) (providerName : String) : Handler User :=
  accounts (.oidcLogin userInfo providerName)
    (Accounts.OidcService.findOrCreateUser platform userInfo providerName)

/-- The part of a callback whose failures are kept from the client. -/
def complete (provider : OidcProvider) (authState : OidcAuthState) : Handler CallbackResult := do
  let config ← ask (.getOidcConfig provider)
  let userInfo ← exchange provider config authState
  let user ← findOrCreateUser platform userInfo (providerNameOf authState.op)
  bindDevice user.guid authState
  let accessToken ← invoke (.generateToken user.guid authState.deviceId authState.deviceUuid)
    fun reply ↦ reply
  ask (.authorizeAuthState authState user.guid accessToken)
  pure (result authState accessToken user)

def conceal : Failure → Handler CallbackResult
  | .badRequest message => throw (.badRequest message)
  | _ => throw (.unauthorized "OIDC authentication failed, please try again")

/-- An authorization that has expired is marked so. -/
def assertCurrent (authState : OidcAuthState) (now : ℕ) : Handler Unit :=
  if authState.expiresAt < now then do
    ask (.expireAuthState authState)
    throw (.badRequest "OIDC authorization has expired, please start the authorization again")
  else pure ()

def handleCallback (state error : Option String) : Handler CallbackResult := do
  assert (truthy error).isNone (.badRequest "OIDC authentication failed, please try again")
  let state ← require (truthy state) (.badRequest "OIDC callback is missing the state parameter")
  let found ← ask (.findAuthState state)
  let authState ← require found (.badRequest "Invalid OIDC state parameter")
  let now ← ask .now
  assertCurrent authState now
  assert (authState.status = .pending) (.badRequest "OIDC authorization state is invalid")
  let providerName := providerNameOf authState.op
  let found ← ask (.getProviderWithSecret providerName)
  let provider ← require found (.badRequest
    ("OIDC provider \"" ++ providerName ++ "\" does not exist"))
  tryCatch (complete platform provider authState) conceal

end OidcService

def ignore {α : Type} (handler : Handler α) : Handler Unit := do
  let _ ← handler
  pure ()

variable (platform : Accounts.Platform)

def serve : Request → Handler Unit
  | .create dto => ignore (OidcAdminService.create dto)
  | .update guid dto => ignore (OidcAdminService.update guid dto)
  | .remove guid => OidcAdminService.remove guid
  | .toggle guid enabled => ignore (OidcAdminService.toggle guid enabled)
  | .requestAuth dto => ignore (OidcService.requestAuth dto)
  | .callback state error => ignore (OidcService.handleCallback platform state error)

def handler (request : Request) : Prog Command Reply Unit :=
  (serve platform request).start () >>= fun _ ↦ .done ()

/-- The server: any number of valid requests in flight, told apart by their
numbers, each served once. -/
def machine : Machine ℕ Command Reply Choice World where
  exec := exec platform
  admits i w p := (∀ event, (i, event) ∉ w.history) ∧
    ∃ request, request.valid = true ∧ p = handler platform request

end RustdeskConsole.Oidc
