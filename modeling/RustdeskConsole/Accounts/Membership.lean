import RustdeskConsole.Accounts.Effect
import RustdeskConsole.Effects.Embedding

namespace RustdeskConsole.Accounts

open Auth (truthy)
open Effects Handler

/-- A change that leaves the group of an account or gives it one. -/
def Change.Assigns (change : Change) : Prop :=
  change.saved.userGroupGuid = change.loaded.userGroupGuid ∨ change.saved.userGroupGuid.isSome

/-- A command that leaves no account without a group. -/
def Command.Assigns : Command → Prop
  | .insertUser draft => draft.userGroupGuid.isSome
  | .saveUsers changes => ∀ change ∈ changes, change.Assigns
  | .commitReset _ _ change => change.Assigns
  | _ => True

/-- Whatever the replies, the handler leaves no account without a group. -/
def Assigned {α : Type} (p : Handler α) : Prop := Issues Command.Assigns p fun _ ↦ True

variable {α β : Type} {platform : Platform}

namespace Assigned

theorem pure {a : α} : Assigned (pure a) := Issues.pure trivial

theorem throw {failure : Failure} : Assigned (throw failure : Handler α) := Issues.throw

theorem invoke {c : Command} {g : Reply c → Except Failure α} (h : c.Assigns) :
    Assigned (invoke c g) := Issues.invoke h fun _ _ _ ↦ trivial

theorem bind {p : Handler α} {f : α → Handler β} (hp : Assigned p) (hf : ∀ a, Assigned (f a)) :
    Assigned (p >>= f) := Issues.bind hp fun a _ ↦ hf a

theorem ask {c : Command} (h : c.Assigns) : Assigned (ask c) := .invoke h

theorem assert {condition : Bool} {failure : Failure} : Assigned (assert condition failure) := by
  cases condition with
  | true => exact .pure
  | false => exact .throw

theorem require {value : Option α} {failure : Failure} : Assigned (require value failure) := by
  cases value with
  | some a => exact .pure
  | none => exact .throw

theorem findUser {guid : String} {failure : Failure} : Assigned (findUser guid failure) :=
  .bind (ask trivial) fun _ ↦ require

theorem assertUsername {username : String} {guid : Option String} :
    Assigned (assertUsername username guid) := .bind (ask trivial) fun _ ↦ assert

theorem assertEmail {email : String} {guid : Option String} : Assigned (assertEmail email guid) :=
  .bind (ask trivial) fun _ ↦ assert

theorem assertSomeUsername {username guid : Option String} :
    Assigned (assertSomeUsername username guid) := by
  cases username with
  | some username => exact assertUsername
  | none => exact .pure

theorem assertSomeEmail {email guid : Option String} : Assigned (assertSomeEmail email guid) := by
  rw [Accounts.assertSomeEmail]
  split
  · exact assertEmail
  · exact .pure

theorem resolveUserGroupGuid {userGroupGuid : Option String} :
    Assigned (resolveUserGroupGuid userGroupGuid) := .invoke trivial

theorem authorize {actorGuid permission : String} {userGuids : List String} :
    Assigned (authorize actorGuid permission userGuids) := .invoke trivial

theorem save {loaded saved : User} (h : Change.Assigns ⟨loaded, saved⟩) :
    Assigned (save loaded saved) :=
  .invoke fun _ hm ↦ List.mem_singleton.mp hm ▸ h

/-- A save of other columns. -/
theorem saves {loaded saved : User} (h : saved.userGroupGuid = loaded.userGroupGuid) :
    Assigned (Accounts.save loaded saved) := save (.inl h)

theorem ignore {p : Handler α} (hp : Assigned p) : Assigned (ignore p) :=
  .bind hp fun _ ↦ .pure

end Assigned

namespace UserService

theorem createUser_assigned (dto : CreateUserDto) : Assigned (createUser dto) :=
  .bind .resolveUserGroupGuid fun _ ↦ .bind .assertUsername fun _ ↦ .bind .assertSomeEmail fun _ ↦
    .bind (.ask trivial) fun _ ↦ .bind (.invoke rfl) fun _ ↦ .pure

theorem inviteUser_assigned (dto : InviteUserDto) : Assigned (inviteUser dto) := by
  refine .bind .resolveUserGroupGuid fun _ ↦ .bind .assertEmail fun _ ↦ .bind .assertUsername fun _ ↦
    .bind (.invoke rfl) fun _ ↦ .bind (.ask trivial) fun _ ↦ .bind (.ask trivial) fun _ ↦
    .bind (.ask trivial) fun emailSent ↦ ?_
  split
  · exact .pure
  · exact .pure

theorem acceptInvitation_assigned (dto : AcceptInvitationDto) : Assigned (acceptInvitation dto) :=
  .bind (.ask trivial) fun _ ↦ .bind .require fun _ ↦ .bind .assert fun _ ↦
    .bind (.ask trivial) fun _ ↦ .bind .assert fun _ ↦ .bind .require fun _ ↦
    .bind .findUser fun _ ↦ .bind (.ask trivial) fun _ ↦ .bind (.saves rfl) fun _ ↦
    .bind (.ask trivial) fun _ ↦ .bind (.ask trivial) fun _ ↦ .pure

theorem authorizeIf_assigned {condition : Bool} {actorGuid guid permission : String} :
    Assigned (authorizeIf condition actorGuid guid permission) := by
  cases condition with
  | true => exact .authorize
  | false => exact .pure

/-- The one change that moves an account to another group. -/
theorem resolveMembership_issues {user updated : User} {userGroupGuid : Option String}
    (h : updated.userGroupGuid = user.userGroupGuid) :
    Issues Command.Assigns (resolveMembership updated userGroupGuid)
      fun saved ↦ Change.Assigns ⟨user, saved⟩ := by
  cases userGroupGuid with
  | none => exact .pure (.inl h)
  | some group => exact Issues.bind Assigned.resolveUserGroupGuid fun _ _ ↦ .pure (.inr rfl)

theorem updateUser_assigned (guid : String) (dto : UpdateUserDto) (actorGuid : String) :
    Assigned (updateUser guid dto actorGuid) :=
  .bind .findUser fun _ ↦ .bind .assert fun _ ↦ .bind authorizeIf_assigned fun _ ↦
    .bind authorizeIf_assigned fun _ ↦ .bind authorizeIf_assigned fun _ ↦
    .bind .assertSomeUsername fun _ ↦ .bind .assertSomeEmail fun _ ↦
    Issues.bind (resolveMembership_issues rfl) fun _ h ↦ Assigned.bind (.save h) fun _ ↦ .pure

theorem updateCurrentUser_assigned (userId : String) (dto : UpdateCurrentUserDto) :
    Assigned (updateCurrentUser userId dto) :=
  .bind .findUser fun _ ↦ .bind .assertSomeEmail fun _ ↦ .bind (.saves rfl) fun _ ↦ .pure

theorem changePassword_assigned (userId : String) (dto : Auth.ChangePasswordDto) :
    Assigned (changePassword userId dto) :=
  .bind .findUser fun _ ↦ .bind .assert fun _ ↦ .bind .require fun _ ↦ .bind (.ask trivial) fun _ ↦
    .bind .assert fun _ ↦ .bind (.ask trivial) fun _ ↦ .bind (.saves rfl) fun _ ↦ .pure

theorem hashPassword_issues {user : User} {newPassword : Option String} :
    Issues Command.Assigns (hashPassword user newPassword)
      fun updated ↦ updated.userGroupGuid = user.userGroupGuid := by
  cases newPassword with
  | none => exact .pure rfl
  | some newPassword =>
    exact Issues.bind Assigned.assert fun _ _ ↦
      Issues.bind (Assigned.ask trivial) fun _ _ ↦ .pure rfl

theorem updateUserSecurity_assigned (guid : String) (dto : Auth.UpdateUserSecurityDto)
    (actorGuid : String) : Assigned (updateUserSecurity guid dto actorGuid) :=
  .bind .findUser fun _ ↦ .bind .authorize fun _ ↦ Issues.bind hashPassword_issues fun _ h ↦
    Assigned.saves h

theorem batchUpdateStatus_assigned (dto : BatchStatusDto) (actorGuid : String) :
    Assigned (batchUpdateStatus dto actorGuid) := by
  refine .bind (.ask trivial) fun users ↦ .bind .assert fun _ ↦ .bind ?_ fun _ ↦ .pure
  rw [updateStatuses]
  split
  · exact .pure
  · exact .bind .authorize fun _ ↦ .invoke trivial

theorem batchUpdateSecurity_assigned (dto : BatchSecurityDto) (actorGuid : String) :
    Assigned (batchUpdateSecurity dto actorGuid) := by
  refine .bind (.ask trivial) fun users ↦ .bind .assert fun _ ↦ .bind .authorize fun _ ↦
    .bind (.invoke fun change hm ↦ ?_) fun _ ↦ .pure
  obtain ⟨user, -, rfl⟩ := List.mem_map.mp hm
  exact .inl rfl

theorem uploadAvatar_assigned (userGuid : String) (file : AvatarFile) :
    Assigned (uploadAvatar userGuid file) :=
  .bind .assert fun _ ↦ .bind .assert fun _ ↦ .bind .findUser fun _ ↦ .bind (.ask trivial) fun _ ↦
    .bind (.ask trivial) fun _ ↦ .bind (.saves rfl) fun _ ↦ .pure

theorem deleteAvatar_assigned (userGuid : String) : Assigned (deleteAvatar userGuid) :=
  .bind .findUser fun _ ↦ .bind .assert fun _ ↦ .bind (.saves rfl) fun _ ↦ .pure

end UserService

section Authentication

theorem setupTfa_assigned (userGuid : String) (currentCode : Option String) :
    Assigned (AuthTfaService.setupTfa userGuid currentCode) := by
  refine .bind .findUser fun user ↦ .bind ?_ fun _ ↦ .bind (.ask trivial) fun _ ↦
    .bind (.saves rfl) fun _ ↦ .pure
  rw [AuthTfaService.assertMayReset]
  split
  · exact .pure
  · exact .bind .assert fun _ ↦ .bind .require fun _ ↦ .bind (.ask trivial) fun _ ↦ .assert

theorem verifyAndBindTfa_assigned (userGuid code : String) :
    Assigned (AuthTfaService.verifyAndBindTfa userGuid code) :=
  .bind .findUser fun _ ↦ .bind .assert fun _ ↦ .bind .require fun _ ↦ .bind (.ask trivial) fun _ ↦
    .bind .assert fun _ ↦ .bind (.saves rfl) fun _ ↦ .pure

theorem disableTfa_assigned (userGuid code : String) :
    Assigned (AuthTfaService.disableTfa userGuid code) :=
  .bind .findUser fun _ ↦ .bind .require fun _ ↦ .bind .assert fun _ ↦ .bind (.ask trivial) fun _ ↦
    .bind .assert fun _ ↦ .bind (.saves rfl) fun _ ↦ .pure

theorem setPasskeyTfaEnabled_assigned (userGuid : String) (enabled : Bool) :
    Assigned (AuthPasskeyService.setPasskeyTfaEnabled userGuid enabled) := by
  refine .bind .findUser fun _ ↦ .bind ?_ fun _ ↦ .bind (.saves rfl) fun _ ↦ .pure
  rw [AuthPasskeyService.assertCredential]
  split
  · exact .bind (.ask trivial) fun _ ↦ .assert
  · exact .pure

theorem requestReset_assigned (usernameOrEmail : String) :
    Assigned (PasswordResetService.requestReset usernameOrEmail) := by
  refine .bind (.ask trivial) fun _ ↦ .bind .assert fun _ ↦ .bind (.ask trivial) fun found ↦ ?_
  simp only
  split
  · exact .bind (.bind (.ask trivial) fun _ ↦ .bind (.ask trivial) fun _ ↦ .ask trivial)
      fun _ ↦ .pure
  · exact .pure

theorem getTokenWithUser_assigned (token : String) :
    Assigned (PasswordResetService.getTokenWithUser token) :=
  .bind (.ask trivial) fun _ ↦ .bind .require fun _ ↦ .bind .assert fun _ ↦
    .bind (.ask trivial) fun _ ↦ .bind .assert fun _ ↦ .bind .findUser fun _ ↦
    .bind .assert fun _ ↦ .pure

theorem confirmReset_assigned (dto : Auth.ConfirmPasswordResetDto) :
    Assigned (PasswordResetService.confirmReset dto) :=
  .bind (getTokenWithUser_assigned dto.token) fun _ ↦ .bind .assert fun _ ↦
    .bind (.ask trivial) fun _ ↦ .bind (.ask trivial) fun _ ↦ .bind (.invoke (.inl rfl)) fun _ ↦ .pure

theorem register_assigned (dto : RegisterDto) : Assigned (AuthService.register dto) := by
  refine .bind (.ask trivial) fun existing ↦ .bind ?_ fun _ ↦ .bind (.ask trivial) fun _ ↦
    .bind .resolveUserGroupGuid fun _ ↦ .bind (.invoke rfl) fun _ ↦ .pure
  cases existing with
  | none => exact .pure
  | some user =>
    simp only [AuthService.refuseExisting]
    split
    · exact .throw
    · exact .throw

end Authentication

section Identities

/-- By induction on the attempts that are left. -/
theorem createExternalUser_assigned {draft : User} (h : draft.userGroupGuid.isSome)
    (username : String) (failure : Failure) (attempts : ℕ) (finalUsername : String) (suffix : ℕ) :
    Assigned (createExternalUser draft username failure attempts finalUsername suffix) := by
  induction attempts generalizing finalUsername suffix with
  | zero => exact .throw
  | succ attempts ih =>
    refine .bind (.ask trivial) fun unused ↦ .bind (.invoke h) fun created ↦ ?_
    simp only
    split
    · exact .pure
    · exact ih _ _

theorem ldapLogin_assigned (info : Auth.LdapUserInfo) :
    Assigned (LdapService.findOrCreateUser info) := by
  refine .bind (.ask trivial) fun found ↦ ?_
  split
  · rw [LdapService.updateEmail]
    split
    · exact .pure
    · split
      · exact .pure
      · exact .bind (.saves rfl) fun _ ↦ .pure
  · exact .bind (.ask trivial) fun _ ↦ .bind .resolveUserGroupGuid fun _ ↦
      createExternalUser_assigned rfl _ _ _ _ _

theorem oidcLogin_assigned (platform : Platform) (userInfo : OidcUserInfo) (providerName : String) :
    Assigned (OidcService.findOrCreateUser platform userInfo providerName) := by
  refine .bind (.ask trivial) fun found ↦ ?_
  split
  · rw [OidcService.backfill]
    split
    · exact .pure
    · split
      · exact .pure
      · exact .bind (.ask trivial) fun _ ↦ .pure
  · exact .bind .resolveUserGroupGuid fun _ ↦ createExternalUser_assigned rfl _ _ _ _ _

end Identities

/-- No operation leaves an account without a group. -/
theorem serve_assigned (platform : Platform) (request : Request) :
    Assigned (serve platform request) := by
  cases request with
  | acceptInvitation dto => exact .ignore (UserService.acceptInvitation_assigned dto)
  | updateCurrentUser userId dto =>
    exact .ignore (UserService.updateCurrentUser_assigned userId dto)
  | changePassword userId dto => exact .ignore (UserService.changePassword_assigned userId dto)
  | uploadAvatar userGuid file => exact .ignore (UserService.uploadAvatar_assigned userGuid file)
  | deleteAvatar userGuid => exact .ignore (UserService.deleteAvatar_assigned userGuid)
  | setupTfa userGuid currentCode => exact .ignore (setupTfa_assigned userGuid currentCode)
  | verifyAndBindTfa userGuid code => exact .ignore (verifyAndBindTfa_assigned userGuid code)
  | disableTfa userGuid code => exact .ignore (disableTfa_assigned userGuid code)
  | setPasskeyTfaEnabled userGuid enabled =>
    exact .ignore (setPasskeyTfaEnabled_assigned userGuid enabled)
  | ldapLogin info => exact .ignore (ldapLogin_assigned info)
  | oidcLogin userInfo providerName =>
    exact .ignore (oidcLogin_assigned platform userInfo providerName)
  | requestReset usernameOrEmail => exact .ignore (requestReset_assigned usernameOrEmail)
  | confirmReset dto => exact .ignore (confirmReset_assigned dto)
  | register dto => exact .ignore (register_assigned dto)
  | createUser dto => exact .ignore (UserService.createUser_assigned dto)
  | inviteUser dto => exact .ignore (UserService.inviteUser_assigned dto)
  | updateUser guid dto actorGuid =>
    exact .ignore (UserService.updateUser_assigned guid dto actorGuid)
  | updateUserSecurity guid dto actorGuid =>
    exact UserService.updateUserSecurity_assigned guid dto actorGuid
  | batchUpdateStatus dto actorGuid =>
    exact .ignore (UserService.batchUpdateStatus_assigned dto actorGuid)
  | batchUpdateSecurity dto actorGuid =>
    exact .ignore (UserService.batchUpdateSecurity_assigned dto actorGuid)

section Rows

variable {call : Call} {c : Command} {o : Choice} {w : World}

theorem merge_assigned {change : Change} {row : User} (h : change.Assigns)
    (hr : row.userGroupGuid.isSome) : (change.merge row).userGroupGuid.isSome := by
  simp only [Change.merge, column]
  split
  · exact hr
  · next hne => exact h.resolve_left hne

/-- What a command that assigns makes of the table. -/
theorem users_assigned (hc : c.Assigns) (hw : ∀ user ∈ w.users, user.userGroupGuid.isSome) :
    ∀ user ∈ (exec platform call c o w).1.users, user.userGroupGuid.isSome := by
  have he : Effect call w c (exec platform call c o w).1 := exec_effect
  intro user hm
  cases he with
  | quiet hu => exact hw user (hu ▸ hm)
  | noted event _ _ hu => exact hw user (hu ▸ hm)
  | created created _ hu _ _ _ hd =>
    obtain ⟨draft, rfl, hd⟩ := hd
    rw [hu] at hm
    rcases List.mem_cons.mp hm with rfl | hm
    · rw [hd]
      exact hc
    · exact hw user hm
  | wrote event hwrites hu =>
    have hchanges : ∀ change ∈ event.changes, change.Assigns := by
      intro change hm
      cases hwrites with
      | save => exact hc change hm
      | reset => exact List.mem_singleton.mp hm ▸ hc
      | status | avatar =>
        obtain ⟨row, -, rfl⟩ := List.mem_map.mp hm
        exact .inl rfl
    rw [hu] at hm
    obtain ⟨row, hrow, rfl⟩ := List.mem_map.mp hm
    rw [applyChanges]
    split
    · next change hchange =>
      exact merge_assigned (hchanges change (List.mem_of_find?_eq_some hchange)) (hw row hrow)
    · exact hw row hrow

end Rows

end RustdeskConsole.Accounts
