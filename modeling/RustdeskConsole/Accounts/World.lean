import Mathlib.Data.List.Nodup
import RustdeskConsole.Effects.Outcomes
import RustdeskConsole.Accounts.Entities

namespace RustdeskConsole.Accounts

open Auth (UserStatus LdapUserInfo PasswordResetToken truthy)
open Effects.Guard

/-- An entity as it was loaded, and as it is to be saved. -/
structure Change where
  loaded : User
  saved : User
  deriving DecidableEq

inductive Event
  | read (users : List User)
  | authorized (permission : String) (userGuids : List String)
  | created (user : User)
  | wrote (changes : List Change)
  | invitationRead (invitation : Invitation)
  | invitationUsed (invitation : Invitation)
  | resetUsed (record : PasswordResetToken) (change : Change)
  deriving DecidableEq

/-- What an event wrote to the users table. -/
def Event.changes : Event → List Change
  | .wrote changes => changes
  | .resetUsed _ change => [change]
  | _ => []

/-- The newest event comes first. `drawn` are the uuids already in use. -/
structure World where
  users : List User
  invitations : List Invitation
  resetTokens : List PasswordResetToken
  drawn : List String
  history : List (Call × Event)

inductive Command
  | now
  | randomText
  | findUser (guid : String)
  | findUserBySubject (oidcSubject : String)
  | findUserByUsername (username : String)
  | findUserByEmail (email : String)
  | findUserByUsernameOrEmail (username email : String)
  | findUsers (guids : List String)
  | findUnusedUsername (username finalUsername : String) (suffix : ℕ)
  | countCredentials (userGuid : String)
  | resolveUserGroupGuid (userGroupGuid : Option String)
  | hash (password : String)
  | compare (password hash : String)
  | verifyTfaCode (secret code : String)
  | authorize (actorGuid permission : String) (userGuids : List String)
  | storeAvatar (userGuid : String)
  | insertUser (draft : User)
  | saveUsers (changes : List Change)
  | updateStatus (guids : List String) (status : UserStatus)
  | backfillAvatar (guid avatar : String)
  | findInvitation (token : String)
  | insertInvitation (draft : Invitation)
  | saveInvitation (invitation : Invitation) (usedAt : ℕ)
  | getActiveSmtpConfig
  | sendInvitation (email token : String)
  | deleteResetTokens (userGuid : String)
  | insertResetToken (userGuid : String) (expiresAt : ℕ)
  | findResetToken (token : String)
  | commitReset (record : PasswordResetToken) (usedAt : ℕ) (change : Change)

@[reducible] def Reply : Command → Type
  | .now | .countCredentials _ => ℕ
  | .randomText | .hash _ => String
  | .findUser _ | .findUserBySubject _ | .findUserByUsername _ | .findUserByEmail _
  | .findUserByUsernameOrEmail .. => Option User
  | .findUsers _ => List User
  | .findUnusedUsername .. => String × ℕ
  | .resolveUserGroupGuid _ => Except Failure String
  | .compare .. | .verifyTfaCode .. | .backfillAvatar .. | .getActiveSmtpConfig
  | .sendInvitation .. => Bool
  | .insertUser _ => Except Failure User
  | .authorize .. | .saveUsers _ | .updateStatus .. | .commitReset .. => Except Failure Unit
  | .findInvitation _ => Option Invitation
  | .insertInvitation _ => Invitation
  | .findResetToken _ => Option PasswordResetToken
  | .insertResetToken .. => String
  | .storeAvatar _ | .saveInvitation .. | .deleteResetTokens _ => Unit

/-- The libraries the operations call. -/
structure Platform where
  compare : String → String → Bool
  hash : String → String → String
  verifyTotp : String → String → ℕ → Bool
  digest : String → String
  isHttpUrl : String → Bool

/-- What the world decides about one command. -/
structure Choice where
  now : ℕ
  uuid : String
  text : String
  count : ℕ
  flag : Bool
  userGroupGuid : Except Failure String
  outcome : Except Failure Unit

/-- What a save makes of a column. It is assumed to write the column only if the
entity no longer holds what was loaded. -/
def column {α : Type} [DecidableEq α] (loaded saved row : α) : α :=
  if saved = loaded then row else saved

/-- The row after a save of the entity. -/
def Change.merge (change : Change) (row : User) : User where
  guid := row.guid
  username := column change.loaded.username change.saved.username row.username
  displayName := column change.loaded.displayName change.saved.displayName row.displayName
  email := column change.loaded.email change.saved.email row.email
  password := column change.loaded.password change.saved.password row.password
  note := column change.loaded.note change.saved.note row.note
  status := column change.loaded.status change.saved.status row.status
  isAdmin := column change.loaded.isAdmin change.saved.isAdmin row.isAdmin
  tfaSecret := column change.loaded.tfaSecret change.saved.tfaSecret row.tfaSecret
  info := column change.loaded.info change.saved.info row.info
  thirdAuthType := column change.loaded.thirdAuthType change.saved.thirdAuthType row.thirdAuthType
  oidcSubject := column change.loaded.oidcSubject change.saved.oidcSubject row.oidcSubject
  avatar := column change.loaded.avatar change.saved.avatar row.avatar
  userGroupGuid := column change.loaded.userGroupGuid change.saved.userGroupGuid row.userGroupGuid

/-- The change that is about the row, if there is one. -/
def changeOf (changes : List Change) (guid : String) : Option Change :=
  changes.find? (·.loaded.guid = guid)

def applyChanges (changes : List Change) (row : User) : User :=
  match changeOf changes row.guid with
  | some change => change.merge row
  | none => row

/-- The unique indexes of the users table. Texts are compared exactly, as SQLite does. -/
def uniqueColumns (users : List User) : Prop :=
  (users.map (·.guid)).Nodup ∧ (users.map (·.username)).Nodup ∧
    (users.filterMap (·.email)).Nodup ∧ (users.filterMap (·.oidcSubject)).Nodup

instance (users : List User) : Decidable (uniqueColumns users) :=
  inferInstanceAs (Decidable (_ ∧ _ ∧ _ ∧ _))

namespace World

def record (w : World) (call : Call) (event : Event) : World :=
  { w with history := (call, event) :: w.history }

def findUser (w : World) (guid : String) : Option User := w.users.find? (·.guid = guid)

/-- `AuthUserHelper.findByUsernameOrEmail` and the lookup of `register`. -/
def identifiedBy (username email : String) (user : User) : Bool :=
  user.username = username || user.email = some email

/-- A statement that breaks a unique index has no effect. -/
def writeUsers (w : World) (call : Call) (users : List User) (event : Event) :
    World × Except Failure Unit :=
  if uniqueColumns users then ({ w with users := users }.record call event, .ok ())
  else (w, .error .uniqueViolation)

def saveUsers (w : World) (call : Call) (event : Event) : World × Except Failure Unit :=
  w.writeUsers call (w.users.map (applyChanges event.changes)) event

/-- A uuid drawn for a new row was never drawn before. -/
def insertUser (w : World) (call : Call) (draft : User) (uuid : String) :
    World × Option (Except Failure User) :=
  let user := { draft with guid := uuid }
  if uuid ∈ w.drawn then (w, none)
  else
    let drew := { w with drawn := uuid :: w.drawn }
    (drew.writeUsers call (user :: w.users) (.created user)).map id fun reply ↦
      some (reply.map fun _ ↦ user)

/-- An update statement reads the rows and writes them in one go. -/
def updateRows (w : World) (call : Call) (update : User → User) (rows : List User) :
    World × Except Failure Unit :=
  w.saveUsers call (.wrote (rows.map fun row ↦ ⟨row, update row⟩))

def updateStatus (w : World) (call : Call) (guids : List String) (status : UserStatus) :
    World × Except Failure Unit :=
  let rows := w.users.filter (·.guid ∈ guids)
  if rows.length = guids.eraseDups.length then
    w.updateRows call (fun row ↦ { row with status := status }) rows
  else (w, .error (.conflict "User info has changed, please try again"))

def backfillAvatar (w : World) (call : Call) (guid avatar : String) : World × Bool :=
  match w.users.filter fun row ↦ row.guid = guid && row.avatar.isNone with
  | [] => (w, false)
  | rows => ((w.updateRows call (fun row ↦ { row with avatar := some avatar }) rows).1, true)

def insertInvitation (w : World) (draft : Invitation) (uuid token : String) :
    World × Option Invitation :=
  let invitation := { draft with guid := uuid, token := token }
  if uuid ∈ w.drawn then (w, none)
  else ({ w with
      drawn := uuid :: w.drawn
      invitations := invitation :: w.invitations }, some invitation)

/-- The save writes the one column that the handler set. -/
def saveInvitation (w : World) (call : Call) (invitation : Invitation) (usedAt : ℕ) : World :=
  let mark (row : Invitation) : Invitation :=
    if row.guid = invitation.guid then { row with usedAt := some usedAt } else row
  { w with invitations := w.invitations.map mark }.record call (.invitationUsed invitation)

/-- Only the digest of a reset token is stored; the reply is the token itself. -/
def insertResetToken (platform : Platform) (w : World) (userGuid : String) (expiresAt : ℕ)
    (uuid token : String) : World × Option String :=
  if uuid ∈ w.drawn then (w, none)
  else ({ w with
      drawn := uuid :: w.drawn
      resetTokens := ⟨uuid, platform.digest token, userGuid, expiresAt, none⟩ :: w.resetTokens },
    some token)

def unused (record r : PasswordResetToken) : Bool := r.guid = record.guid && r.usedAt.isNone

def mark (record : PasswordResetToken) (usedAt : ℕ) (r : PasswordResetToken) :
    PasswordResetToken :=
  if unused record r then { r with usedAt := some usedAt } else r

/-- The writes of the transaction of `confirmReset`. -/
def commitReset (w : World) (call : Call) (record : PasswordResetToken) (usedAt : ℕ)
    (change : Change) : World × Except Failure Unit :=
  if w.resetTokens.countP (unused record) = 1 then
    match w.saveUsers call (.resetUsed record change) with
    | (saved, .ok ()) =>
      ({ saved with resetTokens := saved.resetTokens.map (mark record usedAt) }, .ok ())
    | (unsaved, .error failure) => (unsaved, .error failure)
  else (w, .error (.unauthorized "Reset token has already been used or revoked"))

/-- The name, or the `count`-th one after it, if no account has it. -/
def unusedUsername (w : World) (username finalUsername : String) (suffix count : ℕ) :
    Option (String × ℕ) :=
  let candidate := if count = 0 then finalUsername
    else username ++ "_" ++ toString (suffix + count - 1)
  if w.users.any (·.username = candidate) then none else some (candidate, suffix + count)

end World

def exec (platform : Platform) (call : Call) :
    (c : Command) → Choice → World → World × Option (Reply c)
  | .now, o, w => (w, some o.now)
  | .randomText, o, w => (w, some o.text)
  | .findUser guid, _, w =>
    let found := w.findUser guid
    (w.record call (.read found.toList), some found)
  | .findUserBySubject oidcSubject, _, w =>
    let found := w.users.find? (·.oidcSubject = some oidcSubject)
    (w.record call (.read found.toList), some found)
  | .findUserByUsername username, _, w => (w, some (w.users.find? (·.username = username)))
  | .findUserByEmail email, _, w => (w, some (w.users.find? (·.email = some email)))
  | .findUserByUsernameOrEmail username email, _, w =>
    (w, some (w.users.find? (World.identifiedBy username email)))
  | .findUsers guids, _, w =>
    let found := w.users.filter (·.guid ∈ guids)
    (w.record call (.read found), some found)
  | .findUnusedUsername username finalUsername suffix, o, w =>
    match w.unusedUsername username finalUsername suffix o.count with
    | some found => (w, some found)
    | none => (w, none)
  | .countCredentials _, o, w => (w, some o.count)
  | .resolveUserGroupGuid _, o, w => (w, some o.userGroupGuid)
  | .hash password, o, w => (w, some (platform.hash password o.text))
  | .compare password hash, _, w => (w, some (platform.compare password hash))
  | .verifyTfaCode secret code, o, w => (w, some (platform.verifyTotp secret code o.now))
  | .authorize _ permission userGuids, o, w =>
    match o.outcome with
    | .ok () => (w.record call (.authorized permission userGuids), some (.ok ()))
    | .error failure => (w, some (.error failure))
  | .storeAvatar _, _, w => (w, some ())
  | .insertUser draft, o, w => w.insertUser call draft o.uuid
  | .saveUsers changes, _, w => (w.saveUsers call (.wrote changes)).map id some
  | .updateStatus guids status, _, w => (w.updateStatus call guids status).map id some
  | .backfillAvatar guid avatar, _, w => (w.backfillAvatar call guid avatar).map id some
  | .findInvitation token, _, w =>
    match w.invitations.find? (·.token = token) with
    | some invitation => (w.record call (.invitationRead invitation), some (some invitation))
    | none => (w, some none)
  | .insertInvitation draft, o, w => w.insertInvitation draft o.uuid o.text
  | .saveInvitation invitation usedAt, _, w => (w.saveInvitation call invitation usedAt, some ())
  | .getActiveSmtpConfig, o, w => (w, some o.flag)
  | .sendInvitation _ _, o, w => (w, some o.flag)
  | .deleteResetTokens userGuid, _, w =>
    ({ w with resetTokens := w.resetTokens.filter (·.userGuid ≠ userGuid) }, some ())
  | .insertResetToken userGuid expiresAt, o, w =>
    w.insertResetToken platform userGuid expiresAt o.uuid o.text
  | .findResetToken token, _, w =>
    (w, some (w.resetTokens.find? (·.token = platform.digest token)))
  | .commitReset record usedAt change, _, w =>
    (w.commitReset call record usedAt change).map id some

end RustdeskConsole.Accounts
