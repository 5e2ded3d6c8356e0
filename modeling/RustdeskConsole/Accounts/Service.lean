import RustdeskConsole.Collections.Numeral
import RustdeskConsole.Effects.Machine
import RustdeskConsole.Accounts.World

namespace RustdeskConsole.Accounts

open Auth (UserStatus LdapUserInfo ChangePasswordDto ConfirmPasswordResetDto UpdateUserSecurityDto
  PasswordResetToken truthy)
open Effects Collections

/-- A request handler; every command is one of its awaits. -/
abbrev Handler := Process Command Reply Unit Failure

namespace Handler

def ask (c : Command) : Handler (Reply c) := invoke c .ok

def assert (condition : Bool) (failure : Failure) : Handler Unit :=
  if condition then pure () else throw failure

def require {α : Type} (value : Option α) (failure : Failure) : Handler α :=
  match value with
  | some a => pure a
  | none => throw failure

end Handler

open Handler

def resolveUserGroupGuid (userGroupGuid : Option String) : Handler String :=
  invoke (.resolveUserGroupGuid userGroupGuid) fun reply ↦ reply

def insertUser (draft : User) : Handler User := invoke (.insertUser draft) fun reply ↦ reply

def saveUsers (changes : List Change) : Handler Unit :=
  invoke (.saveUsers changes) fun reply ↦ reply

def save (loaded saved : User) : Handler Unit := saveUsers [⟨loaded, saved⟩]

def authorize (actorGuid permission : String) (userGuids : List String) : Handler Unit :=
  invoke (.authorize actorGuid permission userGuids) fun reply ↦ reply

def findUser (guid : String) (failure : Failure := .notFound "User does not exist") :
    Handler User := do
  let found ← ask (.findUser guid)
  require found failure

def usernameExists : Failure := .badRequest "Username already exists"
def emailExists : Failure := .badRequest "Email already exists"

/-- No account, or no account but this one, has the username. -/
def assertUsername (username : String) (guid : Option String) : Handler Unit := do
  let existing ← ask (.findUserByUsername username)
  assert (existing.all fun user ↦ some user.guid = guid) usernameExists

def assertEmail (email : String) (guid : Option String) : Handler Unit := do
  let existing ← ask (.findUserByEmail email)
  assert (existing.all fun user ↦ some user.guid = guid) emailExists

def assertSomeUsername (username guid : Option String) : Handler Unit :=
  match username with
  | some username => assertUsername username guid
  | none => pure ()

/-- `if (email)`: an absent or empty email is not looked up. -/
def assertSomeEmail (email : Option String) (guid : Option String) : Handler Unit :=
  match truthy email with
  | some email => assertEmail email guid
  | none => pure ()

/-- A row that is yet to be given its guid. -/
def newUser (username : String) (email password : Option String) (note : Option String)
    (status : UserStatus) (userGroupGuid : String) : User where
  guid := ""
  username := username
  displayName := none
  email := email
  password := password
  note := note
  status := status
  isAdmin := false
  tfaSecret := none
  info := none
  thirdAuthType := none
  oidcSubject := none
  avatar := none
  userGroupGuid := some userGroupGuid

namespace UserService

def createUser (dto : CreateUserDto) : Handler String := do
  let userGroupGuid ← resolveUserGroupGuid dto.userGroupGuid
  assertUsername dto.name none
  assertSomeEmail dto.email none
  let password ← ask (.hash dto.password)
  let _ ← insertUser { newUser dto.name (truthy dto.email) (some password)
    (some (dto.note.getD "")) .active userGroupGuid with displayName := truthy dto.displayName }
  pure "User created successfully"

def inviteUser (dto : InviteUserDto) : Handler (String × Option String) := do
  let userGroupGuid ← resolveUserGroupGuid dto.userGroupGuid
  assertEmail dto.email none
  assertUsername dto.name none
  let user ← insertUser { newUser dto.name (some dto.email) (some "") (some (dto.note.getD ""))
    .unverified userGroupGuid with displayName := truthy dto.displayName }
  let now ← ask .now
  let invitation ← ask (.insertInvitation {
    guid := ""
    token := ""
    email := dto.email
    name := dto.name
    displayName := truthy dto.displayName
    userGroupGuid := some userGroupGuid
    note := truthy dto.note
    userGuid := some user.guid
    expiresAt := now + invitationExpiryDays * 86400000
    usedAt := none })
  let emailSent ← ask (.sendInvitation dto.email invitation.token)
  if emailSent then pure ("Invitation sent successfully", none)
  else pure ("User created, but sending the invitation email failed; " ++
    "please check the SMTP configuration", some invitation.token)

def acceptInvitation (dto : AcceptInvitationDto) : Handler String := do
  let found ← ask (.findInvitation dto.token)
  let invitation ← require found (.badRequest "Invalid invitation token")
  assert invitation.usedAt.isNone (.badRequest "Invitation has already been used")
  let now ← ask .now
  assert (now ≤ invitation.expiresAt) (.badRequest "Invitation has expired")
  let userGuid ← require (truthy invitation.userGuid)
    (.notFound "Invitation is not linked to a user")
  let user ← findUser userGuid (.notFound "Associated user does not exist")
  let password ← ask (.hash dto.password)
  save user { user with password := some password, status := .active }
  let usedAt ← ask .now
  ask (.saveInvitation invitation usedAt)
  pure "Account activated, please log in"

def authorizeIf (condition : Bool) (actorGuid guid permission : String) : Handler Unit :=
  if condition then authorize actorGuid permission [guid] else pure ()

/-- The fields of the dto that need no lookup. -/
def updateFields (user : User) (dto : UpdateUserDto) : User :=
  { user with
    username := dto.name.getD user.username
    displayName := if dto.displayName.isSome then truthy dto.displayName else user.displayName
    email := if dto.email.isSome then truthy dto.email else user.email
    note := dto.note.or user.note
    status := dto.status.getD user.status }

def resolveMembership (user : User) (userGroupGuid : Option String) : Handler User :=
  match userGroupGuid with
  | none => pure user
  | some group => do
    let resolved ← resolveUserGroupGuid (some group)
    pure { user with userGroupGuid := some resolved }

def updateUser (guid : String) (dto : UpdateUserDto) (actorGuid : String) : Handler String := do
  let user ← findUser guid
  assert dto.isAdmin.isNone (.badRequest "The system owner identity cannot be modified")
  authorizeIf (dto.name.isSome || dto.displayName.isSome || dto.email.isSome || dto.note.isSome)
    actorGuid guid "users.edit"
  authorizeIf dto.status.isSome actorGuid guid "users.status"
  authorizeIf dto.userGroupGuid.isSome actorGuid guid "user_groups.membership"
  assertSomeUsername dto.name (some guid)
  assertSomeEmail dto.email (some guid)
  let updated ← resolveMembership (updateFields user dto) dto.userGroupGuid
  save user updated
  pure "User updated"

def updateCurrentUser (userId : String) (dto : UpdateCurrentUserDto) : Handler String := do
  let user ← findUser userId
  assertSomeEmail dto.email (some userId)
  save user { user with
    displayName := if dto.displayName.isSome then truthy dto.displayName else user.displayName
    email := if dto.email.isSome then truthy dto.email else user.email
    note := dto.note.or user.note }
  pure "User info updated"

def thirdParty (user : User) : Handler Unit :=
  assert (truthy user.thirdAuthType).isNone
    (.badRequest "Third-party login users cannot change the password")

def changePassword (userId : String) (dto : ChangePasswordDto) : Handler String := do
  let user ← findUser userId
  thirdParty user
  let password ← require (truthy user.password)
    (.badRequest "No password is set for the current account, please contact an administrator")
  let isPasswordValid ← ask (.compare dto.currentPassword password)
  assert isPasswordValid (.badRequest "Current password is incorrect")
  let password ← ask (.hash dto.newPassword)
  save user { user with password := some password }
  pure "Password changed successfully"

/-- What the security settings of a request make of an account's info. -/
def securityInfo (user : User) (tfaEnforce emailVerification : Option Bool) : UserInfo :=
  let userInfo := user.getUserInfo.withOther fun other ↦
    { other with tfaEnforce := tfaEnforce.or other.tfaEnforce }
  { userInfo with emailVerification := emailVerification.or userInfo.emailVerification }

def hashPassword (user : User) (newPassword : Option String) : Handler User :=
  match newPassword with
  | none => pure user
  | some newPassword => do
    thirdParty user
    let password ← ask (.hash newPassword)
    pure { user with password := some password }

def updateUserSecurity (guid : String) (dto : UpdateUserSecurityDto) (actorGuid : String) :
    Handler Unit := do
  let user ← findUser guid
  authorize actorGuid "users.security" [guid]
  let updated ← hashPassword user dto.newPassword
  save user (updated.setUserInfo (securityInfo user dto.tfaEnforce dto.emailVerification))

def updateStatuses (guids : List String) (status : UserStatus) (actorGuid : String) :
    Handler Unit :=
  if guids.isEmpty then pure ()
  else do
    authorize actorGuid "users.status" guids
    invoke (.updateStatus guids status) fun reply ↦ reply

/-- The guids updated, and those of no user. -/
def batchUpdateStatus (dto : BatchStatusDto) (actorGuid : String) :
    Handler (List String × List String) := do
  let users ← ask (.findUsers dto.userGuids)
  assert (!users.isEmpty) (.notFound "User does not exist")
  let isFound (guid : String) : Bool := users.any (·.guid = guid)
  let guidsToUpdate := dto.userGuids.filter isFound
  updateStatuses guidsToUpdate dto.status actorGuid
  pure (guidsToUpdate, dto.userGuids.filter fun guid ↦ !isFound guid)

def batchUpdateSecurity (dto : BatchSecurityDto) (actorGuid : String) : Handler String := do
  let uniqueGuids := dto.userGuids.eraseDups
  let users ← ask (.findUsers uniqueGuids)
  assert (!users.isEmpty && users.length = uniqueGuids.length) (.notFound "User does not exist")
  authorize actorGuid "users.security" uniqueGuids
  saveUsers (users.map fun user ↦
    ⟨user, user.setUserInfo (securityInfo user dto.tfaEnforce dto.emailVerification)⟩)
  pure "Bulk security settings updated"

def uploadAvatar (userGuid : String) (file : AvatarFile) : Handler User := do
  assert (file.mimetype ∈ allowedMimeTypes)
    (.badRequest "Unsupported image format; only JPG, PNG and WebP are supported")
  assert (file.size ≤ maxFileSize) (.badRequest "Image size cannot exceed 2MB")
  let user ← findUser userGuid
  let now ← ask .now
  ask (.storeAvatar userGuid)
  let updated := { user with
    avatar := some ("/api/avatars/" ++ userGuid ++ ".webp?v=" ++ toString now) }
  save user updated
  pure updated

def deleteAvatar (userGuid : String) : Handler User := do
  let user ← findUser userGuid
  assert (truthy user.avatar).isSome (.notFound "User has no avatar set")
  save user { user with avatar := none }
  pure { user with avatar := none }

end UserService

namespace AuthTfaService

/-- An enforced second factor may be set up again with a current code. -/
def assertMayReset (user : User) (isEnforced : Bool) (currentCode : Option String) :
    Handler Unit :=
  match truthy user.tfaSecret with
  | none => pure ()
  | some tfaSecret => do
    assert isEnforced
      (.badRequest "2FA is already enabled; disable it first to set it up again")
    let currentCode ← require (truthy currentCode) (.badRequest
      "2FA is enabled and enforced; the current verification code is required to reset it")
    let isValid ← ask (.verifyTfaCode tfaSecret currentCode)
    assert isValid (.unauthorized "Current verification code is incorrect")

def setupTfa (userGuid : String) (currentCode : Option String) : Handler String := do
  let user ← findUser userGuid
  assertMayReset user user.isEnforced currentCode
  let secret ← ask .randomText
  save user (user.setUserInfo (user.getUserInfo.withOther fun other ↦
    { other with tfaPendingSecret := some secret }))
  pure secret

def verifyAndBindTfa (userGuid code : String) : Handler String := do
  let user ← findUser userGuid
  assert (!((truthy user.tfaSecret).isSome && !user.isEnforced)) (.badRequest "2FA already enabled")
  let pendingSecret ← require (truthy (user.getUserInfo.other.bind (·.tfaPendingSecret)))
    (.badRequest "Please call the setup endpoint to generate a 2FA secret first")
  let isValid ← ask (.verifyTfaCode pendingSecret code)
  assert isValid (.unauthorized "Incorrect verification code, please try again")
  save user { user.setUserInfo (user.getUserInfo.withOther fun other ↦
    { other with tfaPendingSecret := none }) with tfaSecret := some pendingSecret }
  pure "2FA bound successfully"

def disableTfa (userGuid code : String) : Handler String := do
  let user ← findUser userGuid
  let tfaSecret ← require (truthy user.tfaSecret) (.badRequest "2FA is not enabled")
  assert (!user.isEnforced)
    (.badRequest "The administrator requires 2FA to be enabled; it cannot be disabled")
  let isValid ← ask (.verifyTfaCode tfaSecret code)
  assert isValid (.unauthorized "Incorrect verification code")
  save user { user with tfaSecret := some "" }
  pure "2FA disabled"

end AuthTfaService

namespace AuthPasskeyService

def assertCredential (userGuid : String) (enabled : Bool) : Handler Unit :=
  if enabled then do
    let count ← ask (.countCredentials userGuid)
    assert (0 < count)
      (.badRequest "Please bind a Passkey credential before enabling two-factor authentication")
  else pure ()

def setPasskeyTfaEnabled (userGuid : String) (enabled : Bool) : Handler String := do
  let user ← findUser userGuid
  assertCredential userGuid enabled
  save user (user.setUserInfo (user.getUserInfo.withOther fun other ↦
    { other with passkeyTfaEnabled := some enabled }))
  pure (if enabled then "Passkey two-factor authentication enabled"
    else "Passkey two-factor authentication disabled")

end AuthPasskeyService

/-- A unique index that is hit is no failure yet. -/
def retryable : Except Failure User → Except Failure (Option User)
  | .ok user => .ok (some user)
  | .error .uniqueViolation => .ok none
  | .error failure => .error failure

/-- Create a user under an unused name. A unique index that is hit nevertheless
costs one of the attempts. -/
def createExternalUser (draft : User) (username : String) (failure : Failure) :
    ℕ → String → ℕ → Handler User
  | 0, _, _ => throw failure
  | attempts + 1, finalUsername, suffix => do
    let (unused, next) ← ask (.findUnusedUsername username finalUsername suffix)
    let created : Option User ← invoke (.insertUser { draft with username := unused }) retryable
    match created with
    | some user => pure user
    | none =>
      let finalUsername := username ++ "_" ++ toString (next + 1)
      createExternalUser draft username failure attempts finalUsername (next + 1)

namespace LdapService

/-- `ldapUserInfo.email && existingUser.email !== ldapUserInfo.email`. -/
def updateEmail (user : User) (email : Option String) : Handler User :=
  match truthy email with
  | none => pure user
  | some email =>
    if user.email = some email then pure user
    else do
      save user { user with email := some email }
      pure { user with email := some email }

def findOrCreateUser (info : LdapUserInfo) : Handler User := do
  let ldapSubject := "ldap:" ++ info.username
  match ← ask (.findUserBySubject ldapSubject) with
  | some existing => updateEmail existing info.email
  | none =>
    let text ← ask .randomText
    let localPart := (truthy info.email).map fun email ↦ (email.splitOn "@").headD ""
    let username := (((truthy (some info.username)).or (truthy info.displayName)).or
      (truthy localPart)).getD ("ldap_" ++ text)
    let userGroupGuid ← resolveUserGroupGuid none
    let note := match truthy info.displayName with
      | some displayName => "LDAPUser (" ++ displayName ++ ")"
      | none => "LDAPUser"
    createExternalUser { newUser "" (truthy info.email) none (some note) .active userGroupGuid with
      thirdAuthType := some "ldap"
      oidcSubject := some ldapSubject } username
      (.internal "Failed to create LDAP user, username conflict retried 3 times") 3 username 1

end LdapService

namespace OidcService

variable (platform : Platform)

def sanitizeAvatarUrl (picture : Option String) : Option String :=
  (truthy picture).filter fun picture ↦
    decide (utf16Length picture ≤ 255) && platform.isHttpUrl picture

def backfill (user : User) (picture : Option String) : Handler User :=
  match sanitizeAvatarUrl platform picture with
  | none => pure user
  | some avatarUrl =>
    if (truthy user.avatar).isSome then pure user
    else do
      let affected ← ask (.backfillAvatar user.guid avatarUrl)
      pure (if affected then { user with avatar := some avatarUrl } else user)

def findOrCreateUser (userInfo : OidcUserInfo) (providerName : String) : Handler User := do
  let oidcSubject := "oidc:" ++ providerName ++ ":" ++ userInfo.sub
  match ← ask (.findUserBySubject oidcSubject) with
  | some existing => backfill platform existing userInfo.picture
  | none =>
    let localPart := (truthy userInfo.email).map fun email ↦ (email.splitOn "@").headD ""
    let username := (((truthy userInfo.preferredUsername).or (truthy userInfo.name)).or
      (truthy localPart)).getD ("oidc_" ++ String.ofList (utf16Take 8 userInfo.sub.toList))
    let userGroupGuid ← resolveUserGroupGuid none
    let email := if userInfo.emailVerified then userInfo.email else none
    createExternalUser { newUser "" email none (some ("OIDC user (" ++ providerName ++ ")")) .active
        userGroupGuid with
      thirdAuthType := some "oidc"
      oidcSubject := some oidcSubject
      avatar := sanitizeAvatarUrl platform userInfo.picture } username
      (.internal "Failed to create OIDC user after 3 attempts due to username conflicts") 3 username 1

end OidcService

namespace PasswordResetService

/-- The token that is mailed in the background, if one was made. -/
def issueToken (user : User) : Handler String := do
  let now ← ask .now
  ask (.deleteResetTokens user.guid)
  ask (.insertResetToken user.guid (now + passwordResetExpiryMinutes * 60000))

def eligible (user : User) : Bool :=
  (truthy user.email).isSome && (truthy user.thirdAuthType).isNone && user.status = .active

def requestReset (usernameOrEmail : String) : Handler (String × Option String) := do
  let enabled ← ask .getActiveSmtpConfig
  assert enabled (.badRequest
    "Email service is not enabled, please contact the administrator to reset the password")
  let found ← ask (.findUserByUsernameOrEmail usernameOrEmail usernameOrEmail)
  let message :=
    "If the account exists and has a bound email address, a password reset link has been sent"
  match found.filter eligible with
  | some user =>
    let token ← issueToken user
    pure (message, some token)
  | none => pure (message, none)

def getTokenWithUser (token : String) : Handler (User × PasswordResetToken) := do
  let found ← ask (.findResetToken token)
  let record ← require found (.unauthorized "Invalid or expired reset token")
  assert record.usedAt.isNone (.unauthorized "Reset token has already been used or revoked")
  let now ← ask .now
  assert (now ≤ record.expiresAt) (.unauthorized "Reset token has expired")
  let user ← findUser record.userGuid (.unauthorized "Invalid or expired reset token")
  assert (user.status = .active) (.unauthorized "Account is not active")
  pure (user, record)

/-- The user name is part of the answer. -/
def confirmReset (dto : ConfirmPasswordResetDto) : Handler (String × String) := do
  let (user, record) ← getTokenWithUser dto.token
  UserService.thirdParty user
  let usedAt ← ask .now
  let password ← ask (.hash dto.newPassword)
  invoke (.commitReset record usedAt ⟨user, { user with password := some password }⟩)
    fun reply ↦ reply
  pure ("Password has been reset successfully", user.username)

end PasswordResetService

namespace AuthService

def refuseExisting (existing : Option User) (username : String) : Handler Unit :=
  match existing with
  | some user =>
    if user.username = username then throw (.conflict "Username already exists")
    else throw (.conflict "Email already registered")
  | none => pure ()

def register (dto : RegisterDto) : Handler String := do
  let existing ← ask (.findUserByUsernameOrEmail dto.username dto.email)
  refuseExisting existing dto.username
  let password ← ask (.hash dto.password)
  let userGroupGuid ← resolveUserGroupGuid none
  let _ ← insertUser (newUser dto.username (some dto.email) (some password)
    (some (dto.note.getD "")) .active userGroupGuid)
  pure "Registration successful"

end AuthService

open UserService AuthTfaService AuthPasskeyService PasswordResetService AuthService

def ignore {α : Type} (handler : Handler α) : Handler Unit := do
  let _ ← handler
  pure ()

variable (platform : Platform)

def serve : Request → Handler Unit
  | .acceptInvitation dto => ignore (acceptInvitation dto)
  | .updateCurrentUser userId dto => ignore (updateCurrentUser userId dto)
  | .changePassword userId dto => ignore (changePassword userId dto)
  | .uploadAvatar userGuid file => ignore (uploadAvatar userGuid file)
  | .deleteAvatar userGuid => ignore (deleteAvatar userGuid)
  | .setupTfa userGuid currentCode => ignore (setupTfa userGuid currentCode)
  | .verifyAndBindTfa userGuid code => ignore (verifyAndBindTfa userGuid code)
  | .disableTfa userGuid code => ignore (disableTfa userGuid code)
  | .setPasskeyTfaEnabled userGuid enabled => ignore (setPasskeyTfaEnabled userGuid enabled)
  | .ldapLogin info => ignore (LdapService.findOrCreateUser info)
  | .oidcLogin userInfo providerName =>
    ignore (OidcService.findOrCreateUser platform userInfo providerName)
  | .requestReset usernameOrEmail => ignore (requestReset usernameOrEmail)
  | .confirmReset dto => ignore (confirmReset dto)
  | .register dto => ignore (register dto)
  | .createUser dto => ignore (createUser dto)
  | .inviteUser dto => ignore (inviteUser dto)
  | .updateUser guid dto actorGuid => ignore (updateUser guid dto actorGuid)
  | .updateUserSecurity guid dto actorGuid => updateUserSecurity guid dto actorGuid
  | .batchUpdateStatus dto actorGuid => ignore (batchUpdateStatus dto actorGuid)
  | .batchUpdateSecurity dto actorGuid => ignore (batchUpdateSecurity dto actorGuid)

def handler (request : Request) : Prog Command Reply Unit :=
  (serve platform request).start () >>= fun _ ↦ .done ()

/-- The server: any number of requests in flight, each served once. -/
def machine : Machine Call Command Reply Choice World where
  exec := exec platform
  admits call w p := (∀ event, (call, event) ∉ w.history) ∧ p = handler platform call.request

end RustdeskConsole.Accounts
