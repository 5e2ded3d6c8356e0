import RustdeskConsole.Effects.Machine
import RustdeskConsole.Auth.World

namespace RustdeskConsole.Auth

open Effects

/-- A request handler; every command is one of its awaits. -/
abbrev Handler := Process Command Reply Unit Failure

namespace Handler

def ask (c : Command) : Handler (Reply c) := invoke c .ok

def assert (condition : Bool) (failure : Failure) : Handler Unit :=
  if condition then pure () else throw failure

def require {α : Type} (value : Option α) (failure : Failure) : Handler α :=
  match value with
  | some a => pure a
  | none => throw failure

end Handler

open Handler

namespace LoginSessionService

def createSession (params : CreateSessionParams) : Handler LoginSession := do
  if params.deleteExisting then
    ask (.deleteUserUnusedSessions params.userGuid)
  ask (.saveSession params)

def markSessionUsed (session : LoginSession) : Handler Unit := do
  let affected ← ask (.markSessionUsed session)
  assert affected (.unauthorized "Login session already used or revoked")

end LoginSessionService

open LoginSessionService

/-- The device fields of a request. -/
structure Device where
  id : Option String
  uuid : Option String
  info : Option DeviceInfoDto

def createOrUpdateDevice (userGuid : String) (device : Device) : Handler Unit :=
  if (truthy device.id).isSome || (truthy device.uuid).isSome then
    invoke (.createOrUpdateDevice userGuid device.id device.uuid device.info) fun reply ↦ reply
  else pure ()

variable (crypto : Crypto)

/-- `AuthTokenService.generateToken`. -/
def generateToken (user : User) (device : Device) : Handler String := do
  let expiryDays ← ask .getJwtExpiryDays
  let userToken ← ask (.saveToken user device.id device.uuid device.info expiryDays)
  pure (crypto.signToken ⟨user.guid, user.username, user.email, user.isAdmin, device.id,
    userToken.jti⟩ userToken.expiresAt)

/-- `AuthLoginHelper.completeLogin`. -/
def completeLogin (user : User) (session : LoginSession) (device : Device) :
    Handler LoginResponse := do
  markSessionUsed session
  createOrUpdateDevice user.guid device
  let token ← generateToken crypto user device
  pure (.accessToken token user)

namespace LdapService

def searchUser (username : String) : Handler LdapUserInfo :=
  invoke (.searchLdapUser username) fun reply ↦ reply

def verifyUserPassword (dn password : String) : Handler Unit :=
  invoke (.bindLdapUser dn password) fun reply ↦ reply

/-- The groups found are not used. -/
def authenticate (username password : String) : Handler User := do
  let enabled ← ask .isLdapEnabled
  assert enabled (.badRequest "LDAP authentication is not enabled")
  let info ← searchUser username
  verifyUserPassword info.dn password
  ask (.searchLdapGroups info.dn)
  let user ← ask (.findOrCreateLdapUser info)
  assert (user.status ≠ .disabled) (.unauthorized "Account has been disabled")
  pure user

end LdapService

namespace AuthTfaService

def initiateTfaLogin (user : User) : Handler LoginResponse := do
  let session ← createSession {
    userGuid := user.guid
    method := .tfa
    code := none
    email := none
    expiryMinutes := tfaLoginSessionExpiryMinutes
    deleteExisting := true }
  pure (.emailCheck "tfa_check" session.guid user)

def handleTfaLogin (dto : LoginDto) : Handler LoginResponse := do
  let incomplete := Failure.badRequest "Two-factor authentication parameters are incomplete"
  let tfaCode ← require (truthy dto.tfaCode) incomplete
  let secret ← require (truthy dto.secret) incomplete
  let session? ← ask (.findSession secret (some .tfa) (some false) true)
  let session ← require session?
    (.unauthorized "Login session expired or invalid, please log in again")
  let user? ← ask (.findUserByGuid session.userGuid)
  let user ← require user? (.unauthorized "User does not exist")
  assert ((truthy dto.username).all fun username ↦
      user.username = username || user.email = some username)
    (.unauthorized "User info mismatch")
  let tfaSecret ← require (truthy user.tfaSecret)
    (.unauthorized "Two-factor authentication parameters are invalid")
  let isValidTfa ← ask (.verifyTfaCode tfaSecret tfaCode)
  assert isValidTfa (.unauthorized "Incorrect two-factor authentication code")
  assert (user.status ≠ .disabled) (.unauthorized "Account has been disabled")
  completeLogin crypto user session ⟨dto.id, dto.uuid, dto.deviceInfo⟩

end AuthTfaService

namespace AuthEmailService

def initiateEmailVerification (user : User) : Handler LoginResponse := do
  let email ← require (truthy user.email)
    (.badRequest "User has no email set, cannot perform email verification")
  let code ← ask .generateCode
  let session ← createSession {
    userGuid := user.guid
    method := .email
    code := some code
    email := some email
    expiryMinutes := emailVerificationCodeExpiryMinutes
    deleteExisting := true }
  let sent ← ask (.sendVerificationCode email code)
  assert sent
    (.badRequest "Failed to send the verification code email, please try again later")
  pure (.emailCheck "email_check" session.guid user)

def handleEmailCodeLogin (dto : LoginDto) : Handler LoginResponse := do
  let incomplete := Failure.badRequest "Verification parameters are incomplete"
  let username ← require (truthy dto.username) incomplete
  let verificationCode ← require (truthy dto.verificationCode) incomplete
  let secret ← require (truthy dto.secret) incomplete
  let session? ← ask (.findSession secret (some .email) (some false) true)
  let session ← require session?
    (.unauthorized "Verification code expired or invalid, please log in again")
  assert (session.code = some verificationCode) (.unauthorized "Incorrect verification code")
  let user? ← ask (.findUserByUsernameOrEmail username)
  let user ← require (user?.filter (·.guid = session.userGuid)) (.unauthorized "User info mismatch")
  assert (user.status ≠ .disabled) (.unauthorized "Account has been disabled")
  completeLogin crypto user session ⟨dto.id, dto.uuid, dto.deviceInfo⟩

end AuthEmailService

namespace AuthPasskeyService

def notEnabled : Failure := .badRequest "Passkey feature is not enabled"

def beginRegistration (userGuid : String) : Handler String := do
  let config ← ask .getWebAuthnConfig
  assert config.enabled notEnabled
  let user? ← ask (.findUser userGuid)
  let _ ← require user? (.notFound "User does not exist")
  let existing ← ask (.findCredentials userGuid)
  let challenge ← ask (.generateOptions config existing)
  let _ ← createSession {
    userGuid := userGuid
    method := .passkeyReg
    code := some challenge
    email := none
    expiryMinutes := passkeySessionExpiryMinutes
    deleteExisting := false }
  pure challenge

def beginAuthLogin : Handler (String × String) := do
  let config ← ask .getWebAuthnConfig
  assert config.enabled notEnabled
  let challenge ← ask (.generateOptions config [])
  let session ← createSession {
    userGuid := "pending"
    method := .passkey
    code := some challenge
    email := none
    expiryMinutes := passkeySessionExpiryMinutes
    deleteExisting := false }
  pure (session.guid, challenge)

def verifyAuthLogin (dto : VerifyPasskeyAuthDto) : Handler LoginResponse := do
  let config ← ask .getWebAuthnConfig
  assert config.enabled notEnabled
  let session? ← ask (.findSession dto.secret none (some false) true)
  let session ← require session?
    (.unauthorized "Login session expired or invalid, please log in again")
  assert (session.method = .passkey || session.method = .passkeyTfa)
    (.unauthorized "Session type mismatch")
  let credential? ← ask (.findCredential dto.response.id)
  let credential ← require credential? (.unauthorized "No matching credential found")
  assert (!(session.method = .passkeyTfa && session.userGuid ≠ credential.userGuid))
    (.unauthorized "Credential does not match the user")
  let user? ← ask (.findUserByGuid credential.userGuid)
  let user ← require user? (.unauthorized "User does not exist")
  assert (user.status ≠ .disabled) (.unauthorized "Account has been disabled")
  let verification ← ask (.verifyAssertion config session.code credential dto.response)
  let newCounter ← require verification (.unauthorized "Passkey authentication failed")
  ask (.saveCredential { credential with counter := newCounter })
  completeLogin crypto user session ⟨dto.id, dto.uuid, dto.deviceInfo⟩

def initiatePasskeyTfa (user : User) : Handler LoginResponse := do
  let config ← ask .getWebAuthnConfig
  assert config.enabled notEnabled
  let credentials ← ask (.findCredentials user.guid)
  assert (!credentials.isEmpty)
    (.badRequest "No Passkey credential bound, cannot perform two-factor authentication")
  let challenge ← ask (.generateOptions config credentials)
  let session ← createSession {
    userGuid := user.guid
    method := .passkeyTfa
    code := some challenge
    email := none
    expiryMinutes := passkeySessionExpiryMinutes
    deleteExisting := true }
  pure (.passkeyCheck session.guid challenge user)

def hasCredentials (userGuid : String) : Handler Bool := do
  let count ← ask (.countCredentials userGuid)
  pure (decide (count > 0))

end AuthPasskeyService

namespace AuthService

open LdapService AuthTfaService AuthEmailService AuthPasskeyService

def buildLoginResponse (user : User) (device : Device) : Handler LoginResponse := do
  createOrUpdateDevice user.guid device
  let token ← generateToken crypto user device
  pure (.accessToken token user)

def tryLdapAuthentication (username password : String) : Handler (Option User) := do
  let authenticated : Handler (Option User) := do
    let user ← authenticate username password
    pure (some user)
  if ← ask (.isLinkedLdapUser username) then authenticated
  else if ← ask .isLdapEnabled then tryCatch authenticated fun _ ↦ pure none
  else pure none

/-- What `localLogin` does with a user whose password was right. -/
def secondFactor (user : User) (device : Device) : Handler LoginResponse := do
  if user.info.emailVerification && (truthy user.email).isSome then
    initiateEmailVerification user
  else if ← (if user.info.passkeyTfaEnabled then hasCredentials user.guid else pure false) then
    initiatePasskeyTfa user
  else if (truthy user.tfaSecret).isSome then
    initiateTfaLogin user
  else if user.info.tfaEnforce then
    pure (.enforceTfa user)
  else
    buildLoginResponse crypto user device

def localLogin (username password : String) (device : Device) : Handler LoginResponse := do
  let incorrect := Failure.unauthorized "Incorrect username or password"
  let user? ← ask (.findUserByUsernameOrEmail username)
  let user ← require user? incorrect
  let hash ← require user.password (.internal "Illegal arguments: string, object")
  let isPasswordValid ← ask (.compare password hash)
  assert isPasswordValid incorrect
  assert (user.status ≠ .disabled) (.unauthorized "Account has been disabled")
  assert (user.status ≠ .unverified) (.unauthorized "Please verify your email first")
  secondFactor crypto user device

def handleStandardLogin (dto : LoginDto) : Handler LoginResponse := do
  let incomplete := Failure.badRequest "Username and password are required"
  let username ← require (truthy dto.username) incomplete
  let password ← require (truthy dto.password) incomplete
  match ← tryLdapAuthentication username password with
  | some ldapUser => buildLoginResponse crypto ldapUser ⟨dto.id, dto.uuid, dto.deviceInfo⟩
  | none => localLogin crypto username password ⟨dto.id, dto.uuid, dto.deviceInfo⟩

/-- The session's method, not the request, chooses the verifier. -/
def handleEmailCodeLogin (dto : LoginDto) : Handler LoginResponse := do
  let secret ← require (truthy dto.secret) (.badRequest "Missing session identifier")
  let session? ← ask (.findSession secret none (some false) false)
  let session ← require session?
    (.unauthorized "Login session expired or invalid, please log in again")
  if session.method = .tfa then handleTfaLogin crypto dto
  else AuthEmailService.handleEmailCodeLogin crypto dto

def login (dto : LoginDto) : Handler LoginResponse :=
  match dto.type with
  | some .emailCode => handleEmailCodeLogin crypto dto
  | some .smsCode =>
    throw (.badRequest "SMS code login is under development and currently unavailable")
  | some .tfaCode => handleTfaLogin crypto dto
  | _ => handleStandardLogin crypto dto

end AuthService

open AuthService AuthPasskeyService

def ignore {α : Type} (handler : Handler α) : Handler Unit := do
  let _ ← handler
  pure ()

def serve : Request → Handler Unit
  | .login dto => ignore (login crypto dto)
  | .beginPasskeyAuth => ignore beginAuthLogin
  | .verifyPasskeyAuth dto => ignore (verifyAuthLogin crypto dto)
  | .beginPasskeyRegistration userGuid => ignore (beginRegistration userGuid)
  | .changePassword userId dto => invoke (.changePassword userId dto) fun reply ↦ reply
  | .confirmReset dto => invoke (.confirmReset dto) fun reply ↦ reply
  | .updateUserSecurity guid dto actorGuid =>
    invoke (.updateUserSecurity guid dto actorGuid) fun reply ↦ reply
  | .forceLogout userGuids actorGuid =>
    invoke (.forceLogout userGuids actorGuid) fun reply ↦ reply
  | .console => ask .changeConsole

def handler (request : Request) : Prog Command Reply Unit :=
  (serve crypto request).start () >>= fun _ ↦ .done ()

/-- The server: any number of requests in flight, each served once. -/
def machine : Machine Call Command Reply Choice World where
  exec := exec crypto
  admits call w p := (∀ event, (call, event) ∉ w.history) ∧ p = handler crypto call.request

/-- A database that no login flow has touched. -/
def World.initial (users : List User) (credentials : List PasskeyCredential)
    (resetTokens : List PasswordResetToken) : World :=
  ⟨users, credentials, [], [], resetTokens, []⟩

end RustdeskConsole.Auth
