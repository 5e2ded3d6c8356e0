import Mathlib.Data.List.Basic
import RustdeskConsole.Effects.Outcomes
import RustdeskConsole.Auth.Entities

namespace RustdeskConsole.Auth

open Effects.Guard

/-- What a call leaves in the history: what it read of an account and what it
made durable. -/
inductive Event
  | userRead (user : User)
  | ldapFound (username : String) (info : LdapUserInfo)
  | ldapBound (dn password : String)
  | ldapMapped (info : LdapUserInfo) (user : User)
  | credentialsCounted (userGuid : String) (count : ℕ)
  | credentialRead (credential : PasskeyCredential)
  | sessionRead (session : LoginSession)
  | sessionSaved (session : LoginSession)
  | sessionUsed (session : LoginSession) (now : ℕ)
  | tokenSaved (token : UserToken)
  | revoked (userGuids : List String)
  deriving DecidableEq

/-- The rows a call brought into being are named by fresh uuids. -/
def Event.uuid : Event → Option String
  | .sessionSaved session => some session.guid
  | .tokenSaved token => some token.guid
  | _ => none

/-- The tables the login flows share. The newest event comes first. -/
structure World where
  users : List User
  credentials : List PasskeyCredential
  sessions : List LoginSession
  tokens : List UserToken
  resetTokens : List PasswordResetToken
  history : List (Call × Event)

inductive Command
  | findSession (guid : String) (method : Option SessionMethod) (used : Option Bool)
      (checkExpiry : Bool)
  | findUserByGuid (guid : String)
  | findUserByUsernameOrEmail (username : String)
  | compare (password hash : String)
  | isLinkedLdapUser (username : String)
  | isLdapEnabled
  | searchLdapUser (username : String)
  | bindLdapUser (dn password : String)
  | searchLdapGroups (dn : String)
  | findOrCreateLdapUser (info : LdapUserInfo)
  | getWebAuthnConfig
  | findUser (guid : String)
  | countCredentials (userGuid : String)
  | findCredentials (userGuid : String)
  | findCredential (credentialId : Option String)
  | generateOptions (config : WebAuthnConfig) (allowed : List PasskeyCredential)
  | generateCode
  | deleteUserUnusedSessions (userGuid : String)
  | saveSession (params : CreateSessionParams)
  | sendVerificationCode (email code : String)
  | verifyTfaCode (secret code : String)
  | verifyAssertion (config : WebAuthnConfig) (challenge : Option String)
      (credential : PasskeyCredential) (response : AuthenticationResponse)
  | saveCredential (credential : PasskeyCredential)
  | markSessionUsed (session : LoginSession)
  | createOrUpdateDevice (userGuid : String) (deviceId deviceUuid : Option String)
      (deviceInfo : Option DeviceInfoDto)
  | getJwtExpiryDays
  | saveToken (user : User) (deviceId deviceUuid : Option String)
      (deviceInfo : Option DeviceInfoDto) (expiryDays : ℕ)
  | changePassword (userId : String) (dto : ChangePasswordDto)
  | confirmReset (dto : ConfirmPasswordResetDto)
  | updateUserSecurity (guid : String) (dto : UpdateUserSecurityDto) (actorGuid : String)
  | forceLogout (userGuids : List String) (actorGuid : String)
  | changeConsole

@[reducible] def Reply : Command → Type
  | .findSession .. => Option LoginSession
  | .findUserByGuid _ | .findUserByUsernameOrEmail _ | .findUser _ => Option User
  | .compare .. | .isLinkedLdapUser _ | .isLdapEnabled => Bool
  | .searchLdapUser _ => Except Failure LdapUserInfo
  | .findOrCreateLdapUser _ => User
  | .getWebAuthnConfig => WebAuthnConfig
  | .countCredentials _ | .getJwtExpiryDays => ℕ
  | .findCredentials _ => List PasskeyCredential
  | .findCredential _ => Option PasskeyCredential
  | .generateOptions .. | .generateCode => String
  | .saveSession _ => LoginSession
  | .sendVerificationCode .. | .verifyTfaCode .. | .markSessionUsed _ => Bool
  | .verifyAssertion .. => Option ℕ
  | .saveToken .. => UserToken
  | .bindLdapUser .. | .createOrUpdateDevice .. | .changePassword .. | .confirmReset _
  | .updateUserSecurity .. | .forceLogout .. => Except Failure Unit
  | .searchLdapGroups _ | .deleteUserUnusedSessions _ | .saveCredential _ | .changeConsole => Unit

/-- What other endpoints and jobs may do to the tables: rewrite accounts and
credentials, use up or delete sessions, revoke or delete tokens. -/
structure ConsoleChange where
  users : List User
  credentials : List PasskeyCredential
  resetTokens : List PasswordResetToken
  usesSession : LoginSession → Bool
  keepsSession : LoginSession → Bool
  revokesToken : UserToken → Bool
  keepsToken : UserToken → Bool

/-- What the world decides about one command. -/
structure Choice where
  now : ℕ
  uuid : String
  text : String
  flag : Bool
  days : ℕ
  config : WebAuthnConfig
  ldapInfo : Except Failure LdapUserInfo
  outcome : Except Failure Unit
  change : ConsoleChange

namespace World

def record (w : World) (call : Call) (event : Event) : World :=
  { w with history := (call, event) :: w.history }

def recordFound {α : Type} (w : World) (call : Call) (event : α → Event) : Option α → World
  | some a => w.record call (event a)
  | none => w

/-- A uuid drawn for a new row was never drawn before. -/
def fresh (w : World) (uuid : String) : Prop :=
  ∀ e ∈ w.history, e.2.uuid ≠ some uuid

instance (w : World) (uuid : String) : Decidable (w.fresh uuid) :=
  inferInstanceAs (Decidable (∀ e ∈ w.history, e.2.uuid ≠ some uuid))

def findSession (w : World) (guid : String) (method : Option SessionMethod) (used : Option Bool)
    (checkExpiry : Bool) (now : ℕ) : Option LoginSession :=
  w.sessions.find? fun s ↦ s.guid = guid && method.all (s.method = ·) && used.all (s.used = ·) &&
    (!checkExpiry || decide (now < s.expiresAt))

def saveSession (w : World) (call : Call) (params : CreateSessionParams) (o : Choice) :
    World × Option LoginSession :=
  let session : LoginSession := {
    guid := o.uuid
    userGuid := params.userGuid
    method := params.method
    email := params.email
    code := params.code
    expiresAt := o.now + params.expiryMinutes * 60000
    used := false }
  if w.fresh o.uuid then
    ({ w with sessions := session :: w.sessions }.record call (.sessionSaved session), some session)
  else (w, none)

def usable (session : LoginSession) (now : ℕ) (s : LoginSession) : Bool :=
  s.guid = session.guid && !s.used && decide (now < s.expiresAt)

/-- One conditional update; the reply says whether it affected a row. -/
def markSessionUsed (w : World) (call : Call) (session : LoginSession) (now : ℕ) : World × Bool :=
  match w.sessions.find? (usable session now) with
  | none => (w, false)
  | some row =>
    ({ w with
        sessions := w.sessions.map fun s ↦ if usable session now s then { s with used := true } else s
      }.record call (.sessionUsed row now), true)

def deleteUserUnusedSessions (w : World) (userGuid : String) : World :=
  { w with sessions := w.sessions.filter fun s ↦ !(s.userGuid = userGuid && !s.used) }

def saveToken (w : World) (call : Call) (user : User) (deviceId deviceUuid : Option String)
    (deviceInfo : Option DeviceInfoDto) (expiryDays : ℕ) (o : Choice) : World × Option UserToken :=
  let token : UserToken := {
    guid := o.uuid
    userGuid := user.guid
    jti := o.uuid
    deviceId := deviceId
    deviceUuid := deviceUuid
    deviceOs := deviceInfo.bind (·.os)
    deviceType := deviceInfo.bind (·.type)
    deviceName := deviceInfo.bind (·.name)
    expiresAt := o.now + expiryDays * 86400000
    isRevoked := false }
  if w.fresh o.uuid then
    ({ w with tokens := token :: w.tokens }.record call (.tokenSaved token), some token)
  else (w, none)

/-- An undefined id drops the condition, which then finds any row. -/
def findCredential (w : World) (credentialId : Option String) : Option PasskeyCredential :=
  w.credentials.find? fun c ↦ credentialId.all (c.credentialId = ·)

/-- A row deleted meanwhile is inserted again. -/
def saveCredential (w : World) (credential : PasskeyCredential) : World :=
  if w.credentials.any (·.guid = credential.guid) then
    { w with credentials := w.credentials.map fun c ↦
        if c.guid = credential.guid then credential else c }
  else { w with credentials := credential :: w.credentials }

def saveUser (w : World) (user : User) : World :=
  { w with users := w.users.map fun u ↦ if u.guid = user.guid then user else u }

def useResetToken (w : World) (record : PasswordResetToken) (now : ℕ) : World × ℕ :=
  let unused := fun r : PasswordResetToken ↦ decide (r.guid = record.guid ∧ r.usedAt = none)
  ({ w with resetTokens := w.resetTokens.map fun r ↦
      if unused r then { r with usedAt := some now } else r },
    w.resetTokens.countP unused)

/-- A name no account has, found by counting up a suffix. -/
def unusedUsername (w : World) (username : String) : String :=
  let candidates := username ::
    (List.range w.users.length).map fun n ↦ username ++ "_" ++ toString (n + 1)
  (candidates.find? fun name ↦ !w.users.any (·.username = name)).getD username

def ldapUsername (info : LdapUserInfo) (uuid : String) : String :=
  let localPart := (truthy info.email).map fun email ↦ (email.splitOn "@").headD ""
  (((truthy (some info.username)).or (truthy info.displayName)).or (truthy localPart)).getD
    ("ldap_" ++ uuid)

def findOrCreateLdapUser (w : World) (call : Call) (info : LdapUserInfo) (o : Choice) :
    World × User :=
  let subject := "ldap:" ++ info.username
  match w.users.find? (·.oidcSubject = some subject) with
  | some existing =>
    let user := { existing with email := (truthy info.email).or existing.email }
    ((w.saveUser user).record call (.ldapMapped info user), user)
  | none =>
    let user : User := {
      guid := o.uuid
      username := w.unusedUsername (ldapUsername info o.text)
      displayName := none
      email := truthy info.email
      password := none
      note := match truthy info.displayName with
        | some displayName => "LDAPUser (" ++ displayName ++ ")"
        | none => "LDAPUser"
      status := .active
      isAdmin := false
      tfaSecret := none
      info := ⟨false, false, false⟩
      thirdAuthType := some "ldap"
      oidcSubject := some subject }
    ({ w with users := user :: w.users }.record call (.ldapMapped info user), user)

def applyChange (w : World) (change : ConsoleChange) : World :=
  { w with
    users := change.users
    credentials := change.credentials
    resetTokens := change.resetTokens
    sessions := (w.sessions.filter change.keepsSession).map fun s ↦
      if change.usesSession s then { s with used := true } else s
    tokens := (w.tokens.filter change.keepsToken).map fun t ↦
      if change.revokesToken t then { t with isRevoked := true } else t }

/-- Revoke the users' active tokens and delete their unused login sessions. -/
def revokeActiveTokens (w : World) (userGuids : List String) : World :=
  { w with
    tokens := w.tokens.map fun t ↦
      if t.userGuid ∈ userGuids then { t with isRevoked := true } else t
    sessions := w.sessions.filter fun s ↦ !(decide (s.userGuid ∈ userGuids) && !s.used) }

end World

section Revocation

variable (crypto : Crypto) (o : Choice) (w : World)

/-- A transaction's outcome: the tables it commits and the users it logs out. -/
abbrev Transaction := Except Failure (World × List String)

def thirdParty (user : User) : Except Failure Unit :=
  refuseIf (truthy user.thirdAuthType).isSome
    (.badRequest "Third-party login users cannot change the password")

def changePassword (userId : String) (dto : ChangePasswordDto) : Transaction := do
  let user ← require (w.users.find? (·.guid = userId)) (.notFound "User does not exist")
  thirdParty user
  let password ← require (truthy user.password)
    (.badRequest "No password is set for the current account, please contact an administrator")
  refuseIf (!crypto.compare dto.currentPassword password)
    (.badRequest "Current password is incorrect")
  let w := w.saveUser { user with password := some (crypto.hash dto.newPassword o.text) }
  pure (w.revokeActiveTokens [userId], [userId])

def getTokenWithUser (token : String) : Except Failure (User × PasswordResetToken) := do
  let record ← require (w.resetTokens.find? (·.token = crypto.digest token))
    (.unauthorized "Invalid or expired reset token")
  refuseIf record.usedAt.isSome (.unauthorized "Reset token has already been used or revoked")
  refuseIf (o.now > record.expiresAt) (.unauthorized "Reset token has expired")
  let user ← require (w.users.find? (·.guid = record.userGuid))
    (.unauthorized "Invalid or expired reset token")
  refuseIf (user.status ≠ .active) (.unauthorized "Account is not active")
  pure (user, record)

def confirmReset (dto : ConfirmPasswordResetDto) : Transaction := do
  let (user, record) ← getTokenWithUser crypto o w dto.token
  thirdParty user
  let (w, affected) := w.useResetToken record o.now
  refuseIf (affected ≠ 1) (.unauthorized "Reset token has already been used or revoked")
  let w := w.saveUser { user with password := some (crypto.hash dto.newPassword o.text) }
  pure (w.revokeActiveTokens [user.guid], [user.guid])

def setPassword (user : User) (newPassword : Option String) : Except Failure User :=
  match newPassword with
  | none => .ok user
  | some newPassword => do
    thirdParty user
    pure { user with password := some (crypto.hash newPassword o.text) }

/-- The authorization check is the world's choice. -/
def updateUserSecurity (guid : String) (dto : UpdateUserSecurityDto) : Transaction := do
  let user ← require (w.users.find? (·.guid = guid)) (.notFound "User does not exist")
  o.outcome
  let user ← setPassword crypto o { user with info := { user.info with
    tfaEnforce := dto.tfaEnforce.getD user.info.tfaEnforce
    emailVerification := dto.emailVerification.getD user.info.emailVerification } } dto.newPassword
  pure ((w.saveUser user).revokeActiveTokens [guid], [guid])

def forceLogout (userGuids : List String) : Transaction := do
  let uniqueGuids := userGuids.eraseDups
  let users := w.users.filter (·.guid ∈ uniqueGuids)
  refuseIf (users.length ≠ uniqueGuids.length) (.notFound "One or more users do not exist")
  users.forM fun _ ↦ o.outcome
  pure (w.revokeActiveTokens uniqueGuids, uniqueGuids)

/-- A transaction takes effect as a whole or not at all. -/
def Transaction.commit (t : Transaction) (call : Call) : World × Option (Except Failure Unit) :=
  match t with
  | .ok (w', userGuids) => (w'.record call (.revoked userGuids), some (.ok ()))
  | .error failure => (w, some (.error failure))

end Revocation

def exec (crypto : Crypto) (call : Call) : (c : Command) → Choice → World → World × Option (Reply c)
  | .findSession guid method used checkExpiry, o, w =>
    let found := w.findSession guid method used checkExpiry o.now
    (w.recordFound call .sessionRead found, some found)
  | .findUserByGuid guid, _, w =>
    let found := w.users.find? (·.guid = guid)
    (w.recordFound call .userRead found, some found)
  | .findUserByUsernameOrEmail username, _, w =>
    let found := w.users.find? fun u ↦ u.username = username || u.email = some username
    (w.recordFound call .userRead found, some found)
  | .compare password hash, _, w => (w, some (crypto.compare password hash))
  | .isLinkedLdapUser username, _, w =>
    (w, some (w.users.any (·.oidcSubject = some ("ldap:" ++ username))))
  | .isLdapEnabled, o, w => (w, some o.flag)
  | .searchLdapUser username, o, w =>
    (w.recordFound call (.ldapFound username) o.ldapInfo.toOption, some o.ldapInfo)
  | .bindLdapUser dn password, o, w =>
    (w.recordFound call (fun _ ↦ .ldapBound dn password) o.outcome.toOption, some o.outcome)
  | .searchLdapGroups _, _, w => (w, some ())
  | .findOrCreateLdapUser info, o, w => (w.findOrCreateLdapUser call info o).map id some
  | .getWebAuthnConfig, o, w => (w, some o.config)
  | .findUser guid, _, w => (w, some (w.users.find? (·.guid = guid)))
  | .countCredentials userGuid, _, w =>
    let count := w.credentials.countP (·.userGuid = userGuid)
    (w.record call (.credentialsCounted userGuid count), some count)
  | .findCredentials userGuid, _, w => (w, some (w.credentials.filter (·.userGuid = userGuid)))
  | .findCredential credentialId, _, w =>
    let found := w.findCredential credentialId
    (w.recordFound call .credentialRead found, some found)
  | .generateOptions _ _, o, w => (w, some o.text)
  | .generateCode, o, w => (w, some o.text)
  | .deleteUserUnusedSessions userGuid, _, w => (w.deleteUserUnusedSessions userGuid, some ())
  | .saveSession params, o, w => w.saveSession call params o
  | .sendVerificationCode _ _, o, w => (w, some o.flag)
  | .verifyTfaCode secret code, o, w => (w, some (crypto.verifyTotp secret code o.now))
  | .verifyAssertion config challenge credential response, _, w =>
    (w, some (crypto.verifyAssertion config challenge credential response))
  | .saveCredential credential, _, w => (w.saveCredential credential, some ())
  | .markSessionUsed session, o, w => (w.markSessionUsed call session o.now).map id some
  | .createOrUpdateDevice .., o, w => (w, some o.outcome)
  | .getJwtExpiryDays, o, w => (w, some o.days)
  | .saveToken user deviceId deviceUuid deviceInfo expiryDays, o, w =>
    w.saveToken call user deviceId deviceUuid deviceInfo expiryDays o
  | .changePassword userId dto, o, w => (changePassword crypto o w userId dto).commit w call
  | .confirmReset dto, o, w => (confirmReset crypto o w dto).commit w call
  | .updateUserSecurity guid dto _, o, w => (updateUserSecurity crypto o w guid dto).commit w call
  | .forceLogout userGuids _, o, w => (forceLogout o w userGuids).commit w call
  | .changeConsole, o, w => (w.applyChange o.change, some ())

/-- `AuthTokenService.validateToken`. -/
def validateToken (crypto : Crypto) (w : World) (token : String) (now : ℕ) : Option JwtPayload := do
  let payload ← crypto.verifyToken token now
  if payload.sub = "" ∨ payload.jti = "" then none
  else if w.tokens.any fun t ↦
      t.userGuid = payload.sub && t.jti = payload.jti && !t.isRevoked then some payload
  else none

end RustdeskConsole.Auth
