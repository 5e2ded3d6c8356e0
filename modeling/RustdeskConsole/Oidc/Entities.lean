import RustdeskConsole.Accounts.Entities

namespace RustdeskConsole.Oidc

open Accounts (Failure OidcUserInfo)
open Auth (truthy)

/-- A parsed JSON text. A number is given by what `String` makes of it. -/
inductive Json
  | null
  | boolean (value : Bool)
  | number (text : String)
  | string (value : String)
  | array (elements : List Json)
  | object (members : List (String × Json))

namespace Json

mutual

/-- `String(json)`. It throws at an object whose own `toString` hides the
inherited one. -/
def text : Json → Option String
  | .null => some "null"
  | .boolean value => some (if value then "true" else "false")
  | .number text => some text
  | .string value => some value
  | .array elements => (texts elements).map (String.intercalate ",")
  | .object members =>
    if members.any (·.1 = "toString") then none else some "[object Object]"

/-- The elements as `join` writes them: a `null` leaves a gap. -/
def texts : List Json → Option (List String)
  | [] => some []
  | .null :: elements => (texts elements).map ("" :: ·)
  | element :: elements => do
    let first ← text element
    let others ← texts elements
    some (first :: others)

end

/-- `json[key] ?? undefined`. -/
def member (json : Json) (key : String) : Option Json :=
  match json with
  | .object members =>
    match members.find? (·.1 = key) with
    | some (_, .null) => none
    | found => found.map (·.2)
  | _ => none

/-- `json[key] as string | undefined`; what is no string counts as absent. -/
def text? (json : Json) (key : String) : Option String :=
  match json.member key with
  | some (.string value) => some value
  | _ => none

def boolean? (json : Json) (key : String) : Option Bool :=
  match json.member key with
  | some (.boolean value) => some value
  | _ => none

end Json

inductive OidcProviderType
  | oidc
  | oauth2
  deriving DecidableEq

structure OidcProvider where
  guid : String
  name : String
  type : OidcProviderType
  issuer : String
  clientId : String
  clientSecret : Option String
  scope : Option String
  authorizationEndpoint : Option String
  tokenEndpoint : Option String
  userinfoEndpoint : Option String
  jwksUri : Option String
  icon : Option String
  enabled : Bool
  deriving DecidableEq

structure CreateOidcProviderDto where
  type : Option OidcProviderType
  name : String
  issuer : String
  clientId : String
  clientSecret : Option String
  scope : Option String
  authorizationEndpoint : Option String
  tokenEndpoint : Option String
  userinfoEndpoint : Option String
  jwksUri : Option String
  icon : Option String
  enabled : Option Bool
  deriving DecidableEq

structure UpdateOidcProviderDto where
  type : Option OidcProviderType
  name : Option String
  issuer : Option String
  clientId : Option String
  clientSecret : Option String
  scope : Option String
  authorizationEndpoint : Option String
  tokenEndpoint : Option String
  userinfoEndpoint : Option String
  jwksUri : Option String
  icon : Option String
  enabled : Option Bool
  deriving DecidableEq

inductive OidcAuthStatus
  | pending
  | authorized
  | consumed
  | expired
  | cancelled
  deriving DecidableEq

structure OidcAuthState where
  guid : String
  code : String
  op : String
  providerType : OidcProviderType
  deviceId : Option String
  deviceUuid : Option String
  deviceInfo : Option String
  redirectUri : String
  state : String
  nonce : Option String
  codeVerifier : String
  frontendRedirectUrl : Option String
  status : OidcAuthStatus
  userGuid : Option String
  accessToken : Option String
  expiresAt : ℕ
  deriving DecidableEq

structure OidcAuthRequestDto where
  op : String
  id : Option String
  uuid : Option String
  deviceInfo : String
  callbackUrl : Option String
  deriving DecidableEq

/-- What the server metadata of a provider is read for. -/
structure OidcConfig where
  issuer : String
  userinfoEndpoint : Option String
  deriving DecidableEq

/-- The claims of an ID token. -/
structure IdTokenClaims where
  sub : Option String
  email : Option String
  emailVerified : Option Bool
  name : Option String
  preferredUsername : Option String
  picture : Option String
  deriving DecidableEq

/-- What the userinfo endpoint of an OIDC provider adds to them. -/
structure FetchedUserInfo where
  email : Option String
  emailVerified : Option Bool
  name : Option String
  preferredUsername : Option String
  picture : Option String
  deriving DecidableEq

inductive Claim
  | id
  | sub
  | login
  deriving DecidableEq

/-- Whom a provider says that it has authenticated. -/
structure Subject where
  claim : Claim
  value : Json

/-- What a provider answers in a callback. -/
inductive Answer
  | idToken (claims : Option IdTokenClaims)
  | userInfo (data : Json)

namespace Answer

def subject : Answer → Option Subject
  | .idToken claims => (claims.bind (·.sub)).map fun sub ↦ ⟨.sub, .string sub⟩
  | .userInfo data => (((data.member "id").map (⟨.id, ·⟩)).or
      ((data.member "sub").map (⟨.sub, ·⟩))).or ((data.member "login").map (⟨.login, ·⟩))

/-- What `String` makes of the method `sub`, which a text has. -/
def subMethod : String := "function sub() \x7b [native code] \x7d"

/-- The subject as text. It is empty if there is none. -/
def text : Answer → Option String
  | .userInfo .null => none
  | .userInfo (.string _) => some subMethod
  | answer =>
    match answer.subject with
    | some subject => subject.value.text
    | none => some ""

theorem text_of_subject {a b : Answer} (hs : a.subject = b.subject) (hn : a.subject ≠ none) :
    a.text = b.text := by
  have htext : ∀ {a : Answer}, a.subject ≠ none → a.text = a.subject.bind (·.value.text) := by
    intro a hn
    cases hs : a.subject with
    | none => exact absurd hs hn
    | some subject =>
      cases a with
      | idToken claims => simp only [text, hs, Option.bind_some]
      | userInfo data =>
        cases data with
        | null => cases hs
        | string s => cases hs
        | _ => simp only [text, hs, Option.bind_some]
  rw [htext hn, htext (hs ▸ hn), hs]

end Answer

/-- The user info that the claims of an ID token make up. -/
def claimsUserInfo (claims : Option IdTokenClaims) : OidcUserInfo where
  sub := (claims.bind (·.sub)).getD ""
  email := claims.bind (·.email)
  emailVerified := (claims.bind (·.emailVerified)).getD false
  name := claims.bind (·.name)
  preferredUsername := claims.bind (·.preferredUsername)
  picture := claims.bind (·.picture)

/-- The claims, completed from the userinfo endpoint. -/
def mergeUserInfo (claims : Option IdTokenClaims) (fetched : FetchedUserInfo) : OidcUserInfo :=
  let selectedEmail := (truthy (claims.bind (·.email))).or fetched.email
  { claimsUserInfo claims with
    email := selectedEmail
    emailVerified := ((claims.bind (·.emailVerified)).or
      (if (truthy selectedEmail).isSome && fetched.email = selectedEmail
        then fetched.emailVerified else none)).getD false
    name := (truthy (claims.bind (·.name))).or fetched.name
    preferredUsername := (truthy (claims.bind (·.preferredUsername))).or fetched.preferredUsername
    picture := (truthy (claims.bind (·.picture))).or fetched.picture }

/-- `String(data.id ?? data.sub ?? data.login ?? '')`, which throws if the data
are `null`. -/
def subText : Json → Option String
  | .null => none
  | .string _ => some Answer.subMethod
  | data =>
    match ((data.member "id").or (data.member "sub")).or (data.member "login") with
    | some value => value.text
    | none => some ""

def dataUserInfo (data : Json) (sub : String) : OidcUserInfo where
  sub := sub
  email := data.text? "email"
  emailVerified := (data.boolean? "email_verified").getD (truthy (data.text? "email")).isSome
  name := (data.text? "name").or (data.text? "login")
  preferredUsername := ((data.text? "login").or (data.text? "username")).or (data.text? "name")
  picture := (truthy (data.text? "avatar_url")).or (data.text? "picture")

/-- The text that the code takes for the subject is that of the subject. -/
theorem subText_eq (data : Json) : subText data = (Answer.userInfo data).text := by
  cases data with
  | null => rfl
  | object members =>
    simp only [subText, Answer.text, Answer.subject]
    cases (Json.object members).member "id" with
    | some value => rfl
    | none =>
      cases (Json.object members).member "sub" with
      | some value => rfl
      | none => cases (Json.object members).member "login" <;> rfl
  | _ => rfl

theorem claimsUserInfo_sub (claims : Option IdTokenClaims) :
    (Answer.idToken claims).text = some (claimsUserInfo claims).sub := by
  simp only [Answer.text, Answer.subject, claimsUserInfo]
  cases claims.bind (·.sub) with
  | none => rfl
  | some sub => simp [Json.text]

theorem mergeUserInfo_sub (claims : Option IdTokenClaims) (fetched : FetchedUserInfo) :
    (mergeUserInfo claims fetched).sub = (claimsUserInfo claims).sub := rfl

def authCodeExpiryMinutes : ℕ := 3

/-- `op.replace(/^(oidc|oauth2)\//, '')`. -/
def providerNameOf (op : String) : String :=
  if "oidc/".toList.isPrefixOf op.toList then String.ofList (op.toList.drop 5)
  else if "oauth2/".toList.isPrefixOf op.toList then String.ofList (op.toList.drop 7)
  else op

/-- The requests that write providers, or sign users in through them. -/
inductive Request
  | create (dto : CreateOidcProviderDto)
  | update (guid : String) (dto : UpdateOidcProviderDto)
  | remove (guid : String)
  | toggle (guid : String) (enabled : Bool)
  | requestAuth (dto : OidcAuthRequestDto)
  | callback (state error : Option String)
  deriving DecidableEq

/-- What the validation of the dtos demands of a name. -/
def Request.valid : Request → Bool
  | .create dto => dto.name ≠ ""
  | .update _ dto => dto.name ≠ some ""
  | _ => true

end RustdeskConsole.Oidc
