import Mathlib.Data.Nat.Notation

namespace RustdeskConsole.Auth

inductive Failure
  | badRequest (message : String)
  | unauthorized (message : String)
  | notFound (message : String)
  | internal (message : String)
  deriving DecidableEq

/-- JavaScript truthiness of an optional string. -/
def truthy (s : Option String) : Option String := s.filter (· ≠ "")

inductive UserStatus
  | unverified
  | disabled
  | active
  deriving DecidableEq

/-- The entries of the `info` column that the login flows read. -/
structure UserInfo where
  emailVerification : Bool
  passkeyTfaEnabled : Bool
  tfaEnforce : Bool
  deriving DecidableEq

structure User where
  guid : String
  username : String
  displayName : Option String
  email : Option String
  password : Option String
  note : String
  status : UserStatus
  isAdmin : Bool
  tfaSecret : Option String
  info : UserInfo
  thirdAuthType : Option String
  oidcSubject : Option String
  deriving DecidableEq

inductive SessionMethod
  | email
  | tfa
  | passkeyReg
  | passkey
  | passkeyTfa
  deriving DecidableEq

structure LoginSession where
  guid : String
  userGuid : String
  method : SessionMethod
  email : Option String
  code : Option String
  expiresAt : ℕ
  used : Bool
  deriving DecidableEq

structure UserToken where
  guid : String
  userGuid : String
  jti : String
  deviceId : Option String
  deviceUuid : Option String
  deviceOs : Option String
  deviceType : Option String
  deviceName : Option String
  expiresAt : ℕ
  isRevoked : Bool
  deriving DecidableEq

structure PasskeyCredential where
  guid : String
  userGuid : String
  credentialId : String
  credentialPublicKey : String
  counter : ℕ
  transports : Option String
  deriving DecidableEq

structure PasswordResetToken where
  guid : String
  token : String
  userGuid : String
  expiresAt : ℕ
  usedAt : Option ℕ
  deriving DecidableEq

structure JwtPayload where
  sub : String
  username : String
  email : Option String
  isAdmin : Bool
  deviceId : Option String
  jti : String
  deriving DecidableEq

structure WebAuthnConfig where
  rpId : String
  rpName : String
  rpOrigins : List String
  enabled : Bool
  deriving DecidableEq

structure LdapUserInfo where
  dn : String
  username : String
  email : Option String
  displayName : Option String
  deriving DecidableEq

structure DeviceInfoDto where
  os : Option String
  type : Option String
  name : Option String
  deriving DecidableEq

inductive LoginType
  | account
  | mobile
  | smsCode
  | emailCode
  | tfaCode
  | passkeyCheck
  deriving DecidableEq

structure LoginDto where
  type : Option LoginType
  username : Option String
  password : Option String
  verificationCode : Option String
  tfaCode : Option String
  secret : Option String
  id : Option String
  uuid : Option String
  deviceInfo : Option DeviceInfoDto
  deriving DecidableEq

/-- The browser's answer. Only `id` is read here, and it is not validated; the
rest goes to the assertion verifier as it is. -/
structure AuthenticationResponse where
  id : Option String
  body : String
  deriving DecidableEq

structure VerifyPasskeyAuthDto where
  secret : String
  response : AuthenticationResponse
  id : Option String
  uuid : Option String
  deviceInfo : Option DeviceInfoDto
  deriving DecidableEq

structure ChangePasswordDto where
  currentPassword : String
  newPassword : String
  deriving DecidableEq

structure ConfirmPasswordResetDto where
  token : String
  newPassword : String
  deriving DecidableEq

structure UpdateUserSecurityDto where
  tfaEnforce : Option Bool
  emailVerification : Option Bool
  newPassword : Option String
  deriving DecidableEq

def tfaLoginSessionExpiryMinutes : ℕ := 5
def emailVerificationCodeExpiryMinutes : ℕ := 5
def passkeySessionExpiryMinutes : ℕ := 5

structure CreateSessionParams where
  userGuid : String
  method : SessionMethod
  code : Option String
  email : Option String
  expiryMinutes : ℕ
  deleteExisting : Bool
  deriving DecidableEq

/-- A login response. Its user payload is a view of the entity it carries. -/
inductive LoginResponse
  | accessToken (token : String) (user : User)
  | emailCheck (tfaType secret : String) (user : User)
  | passkeyCheck (secret challenge : String) (user : User)
  | enforceTfa (user : User)

/-- The libraries the flows trust. An exception of a verifier counts as a
refusal, as its callers treat it. -/
structure Crypto where
  compare : String → String → Bool
  hash : String → String → String
  verifyTotp : String → String → ℕ → Bool
  verifyAssertion : WebAuthnConfig → Option String → PasskeyCredential →
    AuthenticationResponse → Option ℕ
  digest : String → String
  signToken : JwtPayload → ℕ → String
  verifyToken : String → ℕ → Option JwtPayload

/-- The endpoints that create login sessions, issue tokens or revoke them.
`console` is any other endpoint or job. -/
inductive Request
  | login (dto : LoginDto)
  | beginPasskeyAuth
  | verifyPasskeyAuth (dto : VerifyPasskeyAuthDto)
  | beginPasskeyRegistration (userGuid : String)
  | changePassword (userId : String) (dto : ChangePasswordDto)
  | confirmReset (dto : ConfirmPasswordResetDto)
  | updateUserSecurity (guid : String) (dto : UpdateUserSecurityDto) (actorGuid : String)
  | forceLogout (userGuids : List String) (actorGuid : String)
  | console
  deriving DecidableEq

/-- One request as the server received it. -/
structure Call where
  number : ℕ
  request : Request
  deriving DecidableEq

end RustdeskConsole.Auth
