import RustdeskConsole.Auth.Entities

namespace RustdeskConsole.Accounts

open Auth (UserStatus LdapUserInfo ChangePasswordDto ConfirmPasswordResetDto UpdateUserSecurityDto
  PasswordResetToken truthy)

inductive Failure
  | badRequest (message : String)
  | unauthorized (message : String)
  | forbidden (message : String)
  | notFound (message : String)
  | conflict (message : String)
  | uniqueViolation
  | internal (message : String)
  deriving DecidableEq

/-- The entries of `info.other` that the operations read or write. -/
structure OtherInfo where
  tfaEnforce : Option Bool
  tfaPendingSecret : Option String
  passkeyTfaEnabled : Option Bool
  deriving DecidableEq

structure UserInfo where
  emailVerification : Option Bool
  emailAlarmNotification : Option Bool
  other : Option OtherInfo
  deriving DecidableEq

def OtherInfo.empty : OtherInfo := ⟨none, none, none⟩

/-- `!!userInfo?.other?.tfa_enforce`. -/
def UserInfo.isEnforced (userInfo : UserInfo) : Bool :=
  (userInfo.other.bind (·.tfaEnforce)).getD false

/-- `userInfo.other = userInfo.other || {}`, and then a change of it. -/
def UserInfo.withOther (userInfo : UserInfo) (change : OtherInfo → OtherInfo) : UserInfo :=
  { userInfo with other := some (change (userInfo.other.getD .empty)) }

/-- A row of the users table; `info` holds what its JSON text parses to. -/
structure User where
  guid : String
  username : String
  displayName : Option String
  email : Option String
  password : Option String
  note : Option String
  status : UserStatus
  isAdmin : Bool
  tfaSecret : Option String
  info : Option UserInfo
  thirdAuthType : Option String
  oidcSubject : Option String
  avatar : Option String
  userGroupGuid : Option String
  deriving DecidableEq

namespace User

def getUserInfo (user : User) : UserInfo :=
  user.info.getD ⟨some false, some false, some .empty⟩

def setUserInfo (user : User) (userInfo : UserInfo) : User := { user with info := some userInfo }

/-- The flag an administrator sets to demand a second factor. -/
def isEnforced (user : User) : Bool := user.getUserInfo.isEnforced

@[simp] theorem setUserInfo_guid (user : User) (userInfo : UserInfo) :
    (user.setUserInfo userInfo).guid = user.guid := rfl

@[simp] theorem setUserInfo_status (user : User) (userInfo : UserInfo) :
    (user.setUserInfo userInfo).status = user.status := rfl

@[simp] theorem setUserInfo_isEnforced (user : User) (userInfo : UserInfo) :
    (user.setUserInfo userInfo).isEnforced = userInfo.isEnforced := rfl

end User

@[simp] theorem UserInfo.withOther_isEnforced (userInfo : UserInfo)
    (change : OtherInfo → OtherInfo) : (userInfo.withOther change).isEnforced =
      ((change (userInfo.other.getD .empty)).tfaEnforce).getD false := rfl

/-- Writing another entry of `other` leaves the flag as it was. -/
theorem UserInfo.isEnforced_withOther {userInfo : UserInfo} {change : OtherInfo → OtherInfo}
    (hc : ∀ other, (change other).tfaEnforce = other.tfaEnforce) :
    (userInfo.withOther change).isEnforced = userInfo.isEnforced := by
  rw [withOther_isEnforced, hc, isEnforced]
  cases userInfo.other with
  | none => rfl
  | some other => rfl

structure Invitation where
  guid : String
  token : String
  email : String
  name : String
  displayName : Option String
  userGroupGuid : Option String
  note : Option String
  userGuid : Option String
  expiresAt : ℕ
  usedAt : Option ℕ
  deriving DecidableEq

structure CreateUserDto where
  name : String
  displayName : Option String
  password : String
  userGroupGuid : Option String
  email : Option String
  note : Option String
  deriving DecidableEq

structure InviteUserDto where
  email : String
  name : String
  displayName : Option String
  userGroupGuid : Option String
  note : Option String
  deriving DecidableEq

structure AcceptInvitationDto where
  token : String
  password : String
  deriving DecidableEq

structure RegisterDto where
  username : String
  email : String
  password : String
  note : Option String
  deriving DecidableEq

structure UpdateUserDto where
  name : Option String
  displayName : Option String
  email : Option String
  note : Option String
  status : Option UserStatus
  isAdmin : Option Bool
  userGroupGuid : Option String
  deriving DecidableEq

structure UpdateCurrentUserDto where
  displayName : Option String
  email : Option String
  note : Option String
  deriving DecidableEq

structure BatchStatusDto where
  userGuids : List String
  status : UserStatus
  deriving DecidableEq

structure BatchSecurityDto where
  userGuids : List String
  tfaEnforce : Option Bool
  emailVerification : Option Bool
  deriving DecidableEq

structure AvatarFile where
  mimetype : String
  size : ℕ
  deriving DecidableEq

structure OidcUserInfo where
  sub : String
  email : Option String
  emailVerified : Bool
  name : Option String
  preferredUsername : Option String
  picture : Option String
  deriving DecidableEq

def invitationExpiryDays : ℕ := 7
def passwordResetExpiryMinutes : ℕ := 30
def allowedMimeTypes : List String := ["image/jpeg", "image/png", "image/webp"]
def maxFileSize : ℕ := 2 * 1024 * 1024

/-- The requests that write accounts, invitations or reset tokens. A user's own
requests carry the guid of the token they came with, an operator's the guid of
the actor. -/
inductive Request
  | acceptInvitation (dto : AcceptInvitationDto)
  | updateCurrentUser (userId : String) (dto : UpdateCurrentUserDto)
  | changePassword (userId : String) (dto : ChangePasswordDto)
  | uploadAvatar (userGuid : String) (file : AvatarFile)
  | deleteAvatar (userGuid : String)
  | setupTfa (userGuid : String) (currentCode : Option String)
  | verifyAndBindTfa (userGuid code : String)
  | disableTfa (userGuid code : String)
  | setPasskeyTfaEnabled (userGuid : String) (enabled : Bool)
  | ldapLogin (info : LdapUserInfo)
  | oidcLogin (userInfo : OidcUserInfo) (providerName : String)
  | requestReset (usernameOrEmail : String)
  | confirmReset (dto : ConfirmPasswordResetDto)
  | register (dto : RegisterDto)
  | createUser (dto : CreateUserDto)
  | inviteUser (dto : InviteUserDto)
  | updateUser (guid : String) (dto : UpdateUserDto) (actorGuid : String)
  | updateUserSecurity (guid : String) (dto : UpdateUserSecurityDto) (actorGuid : String)
  | batchUpdateStatus (dto : BatchStatusDto) (actorGuid : String)
  | batchUpdateSecurity (dto : BatchSecurityDto) (actorGuid : String)
  deriving DecidableEq

namespace Request

/-- The status an operator asks to give to an account. -/
def askedStatus (guid : String) : Request → Option UserStatus
  | .updateUser target dto _ => if target = guid then dto.status else none
  | .batchUpdateStatus dto _ => if guid ∈ dto.userGuids then some dto.status else none
  | _ => none

/-- The value an operator asks the second-factor flag of an account to have. -/
def askedEnforce (guid : String) : Request → Option Bool
  | .updateUserSecurity target dto _ => if target = guid then dto.tfaEnforce else none
  | .batchUpdateSecurity dto _ => if guid ∈ dto.userGuids then dto.tfaEnforce else none
  | _ => none

/-- The external identity that a login presents. -/
def subject : Request → Option String
  | .ldapLogin info => some ("ldap:" ++ info.username)
  | .oidcLogin userInfo providerName => some ("oidc:" ++ providerName ++ ":" ++ userInfo.sub)
  | _ => none

end Request

structure Call where
  number : ℕ
  request : Request
  deriving DecidableEq

end RustdeskConsole.Accounts
