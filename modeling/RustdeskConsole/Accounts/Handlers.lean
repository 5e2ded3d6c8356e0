import RustdeskConsole.Accounts.Protocol

namespace RustdeskConsole.Accounts

open Auth (UserStatus truthy)
open Effects

variable {platform : Platform} {call : Call} {w : World}

/-- A handler that may be started anywhere. -/
def Served {α : Type} (platform : Platform) (call : Call) (p : Handler α) : Prop :=
  ∀ w, Safe platform call p (fun _ _ ↦ True) w

section Rules

variable {α β : Type}

theorem Quiet.served {p : Handler α} (hp : Quiet platform call p) : Served platform call p :=
  fun w ↦ (hp w).mono (fun _ _ _ _ ↦ trivial) fun _ _ _ h ↦ h

theorem served_bind {p : Handler α} {f : α → Handler β} (hp : Quiet platform call p)
    (hf : ∀ a, Served platform call (f a)) : Served platform call (p >>= f) :=
  fun _ ↦ safe_after hp fun a w' _ ↦ hf a w'

/-- A save, and then an answer. -/
theorem saves {loaded saved : User} {f : Unit → Handler α}
    (hl : Licensed w.history call ⟨loaded, saved⟩) (hf : ∀ a, Served platform call (f a)) :
    Safe platform call (save loaded saved >>= f) (fun _ _ ↦ True) w :=
  safe_bind (save_safe hl) fun a w' _ ↦ hf a w'

theorem served_pure {a : α} : Served platform call (pure a) := Quiet.pure.served

/-- A user's own operation reads the account it is about. -/
theorem reads {guid : String} {failure : Failure} {f : User → Handler β}
    (hf : ∀ user w, (call, .read [user]) ∈ w.history → user.guid = guid →
      Safe platform call (f user) (fun _ _ ↦ True) w) :
    Served platform call (findUser guid failure >>= f) :=
  fun _ ↦ safe_bind findUser_safe fun user w' h ↦ hf user w' h.2.1 h.2.2

end Rules

namespace UserService

theorem createUser_served (dto : CreateUserDto) (hn : call.request.subject = none) :
    Served platform call (createUser dto) := by
  refine Quiet.served ?_
  refine .bind .resolveUserGroupGuid fun _ ↦ .bind .assertUsername fun _ ↦
    .bind .assertSomeEmail fun _ ↦ ?_
  exact .bind (.ask fun _ ↦ trivial) fun _ ↦
    .bind (.insertUser hn.symm) fun _ ↦ .pure

theorem inviteUser_served (dto : InviteUserDto) (hn : call.request.subject = none) :
    Served platform call (inviteUser dto) := by
  refine Quiet.served ?_
  refine .bind .resolveUserGroupGuid fun _ ↦ .bind .assertEmail fun _ ↦
    .bind .assertUsername fun _ ↦ .bind (.insertUser hn.symm) fun _ ↦ ?_
  refine .bind (.ask fun _ ↦ trivial) fun _ ↦ .bind (.ask fun _ ↦ trivial) fun _ ↦
    .bind (.ask fun _ ↦ trivial) fun emailSent ↦ ?_
  split
  · exact .pure
  · exact .pure

/-- The one operation that activates an account unasked. -/
theorem acceptInvitation_served {dto : AcceptInvitationDto}
    (hr : call.request = .acceptInvitation dto) :
    Served platform call (acceptInvitation dto) := by
  intro w
  refine safe_bind findInvitation_safe fun found w hfound ↦ safe_bind safe_require
    fun invitation w' ⟨hw, hsome⟩ ↦ safe_bind safe_assert fun _ w ⟨hw', hnone⟩ ↦ ?_
  subst hw
  subst hw'
  have hread : (call, .invitationRead invitation) ∈ w.history := hfound invitation hsome
  have hunused : invitation.usedAt = none := Option.isNone_iff_eq_none.mp hnone
  refine safe_after (.ask fun _ ↦ trivial) fun _ w hs₁ ↦ safe_after .assert fun _ w hs₂ ↦
    safe_after .require fun userGuid w hs₃ ↦ safe_bind findUser_safe
      fun user w ⟨hs₄, huser, _⟩ ↦ safe_after (.ask fun _ ↦ trivial) fun password w hs₅ ↦
    safe_bind (save_safe ?_) fun _ w hs₆ ↦ safe_after (.ask fun _ ↦ trivial) fun usedAt w hs₇ ↦
    safe_bind (safe_invoke (P := fun _ _ ↦ True) (fun w' hs₈ ↦ ?_) fun _ _ _ _ _ _ ↦ trivial)
      fun _ _ _ ↦ safe_pure trivial
  · refine ⟨rfl, rfl, fun _ ↦ .inr ⟨?_, ⟨[user], hs₅.subset huser, .head _⟩, ⟨dto, hr⟩, rfl⟩,
      fun hne ↦ absurd rfl hne⟩
    rw [statusField, hr]
    rfl
  · have hs := ((hs₁.trans hs₂).trans hs₃).trans hs₄
    have hs' := ((hs₅.trans hs₆).trans hs₇).trans hs₈
    exact ⟨(hs.trans hs').subset hread, hunused⟩

/-- Saves that leave both columns alone need no read to go by. -/
theorem updateCurrentUser_served (userId : String) (dto : UpdateCurrentUserDto) :
    Served platform call (updateCurrentUser userId dto) :=
  served_bind .findUser fun _ ↦ served_bind .assertSomeEmail fun _ _ ↦
    saves (licensed_of_eq rfl rfl rfl rfl) fun _ ↦ served_pure

theorem changePassword_served (userId : String) (dto : Auth.ChangePasswordDto) :
    Served platform call (changePassword userId dto) := by
  refine served_bind .findUser fun _ ↦ served_bind .thirdParty fun _ ↦ served_bind .require fun _ ↦
    served_bind (.ask fun _ ↦ trivial) fun _ ↦ served_bind .assert fun _ ↦
    served_bind (.ask fun _ ↦ trivial) fun _ w' ↦ ?_
  exact saves (licensed_of_eq rfl rfl rfl rfl) fun _ ↦ served_pure

theorem uploadAvatar_served (userGuid : String) (file : AvatarFile) :
    Served platform call (uploadAvatar userGuid file) := by
  refine served_bind .assert fun _ ↦ served_bind .assert fun _ ↦ served_bind .findUser fun _ ↦
    served_bind (.ask fun _ ↦ trivial) fun _ ↦ served_bind (.ask fun _ ↦ trivial) fun _ w' ↦ ?_
  exact saves (licensed_of_eq rfl rfl rfl rfl) fun _ ↦ served_pure

theorem deleteAvatar_served (userGuid : String) :
    Served platform call (deleteAvatar userGuid) :=
  served_bind .findUser fun _ ↦ served_bind .assert fun _ _ ↦
    saves (licensed_of_eq rfl rfl rfl rfl) fun _ ↦ served_pure

/-- What an operator's update knows when it saves. -/
theorem licensed_update {user updated : User} {dto : UpdateUserDto} {actorGuid : String}
    {h : History} (hr : call.request = .updateUser user.guid dto actorGuid)
    (hauth : dto.status.isSome = true → (call, .authorized "users.status" [user.guid]) ∈ h)
    (hg : updated.guid = user.guid) (ho : updated.oidcSubject = user.oidcSubject)
    (hs : updated.status = dto.status.getD user.status) (hi : updated.info = user.info) :
    Licensed h call ⟨user, updated⟩ := by
  refine ⟨hg, ho, fun hne ↦ .inl ?_, fun hne ↦ absurd hi hne⟩
  have hne : updated.status ≠ user.status := hne
  cases hd : dto.status with
  | none =>
    rw [hs, hd] at hne
    exact absurd rfl hne
  | some status =>
    rw [hd] at hs hauth
    have hask : call.request.askedStatus user.guid = some status := by
      rw [hr, Request.askedStatus, if_pos rfl, hd]
    exact ⟨hask.trans (congrArg some hs.symm), [user.guid], hauth rfl, .head _⟩

theorem authorizeIf_safe {condition : Bool} {actorGuid guid permission : String} :
    Safe platform call (authorizeIf condition actorGuid guid permission) (fun _ w' ↦
      w.history <:+ w'.history ∧
        (condition = true → (call, .authorized permission [guid]) ∈ w'.history)) w := by
  cases condition with
  | false => exact safe_pure ⟨List.suffix_rfl, nofun⟩
  | true => exact authorize_safe.mono (fun _ _ _ h ↦ ⟨h.1, fun _ ↦ h.2⟩) fun _ _ _ h ↦ h

theorem resolveMembership_safe {user : User} {userGroupGuid : Option String} :
    Safe platform call (resolveMembership user userGroupGuid) (fun updated w' ↦
      w.history <:+ w'.history ∧ updated.guid = user.guid ∧
        updated.oidcSubject = user.oidcSubject ∧ updated.status = user.status ∧
        updated.info = user.info) w := by
  cases userGroupGuid with
  | none => exact safe_pure ⟨List.suffix_rfl, rfl, rfl, rfl, rfl⟩
  | some group =>
    exact safe_after .resolveUserGroupGuid fun _ _ hs ↦ safe_pure ⟨hs, rfl, rfl, rfl, rfl⟩

theorem updateUser_served {guid actorGuid : String} {dto : UpdateUserDto}
    (hr : call.request = .updateUser guid dto actorGuid) :
    Served platform call (updateUser guid dto actorGuid) := by
  refine reads fun user w _ hguid ↦ safe_after .assert fun _ w _ ↦
    safe_after .authorizeIf fun _ w _ ↦ safe_bind authorizeIf_safe fun _ w ⟨_, hauth⟩ ↦
    safe_after .authorizeIf fun _ w hs₁ ↦ safe_after .assertSomeUsername fun _ w hs₂ ↦
    safe_after .assertSomeEmail fun _ w hs₃ ↦ safe_bind resolveMembership_safe
      fun updated w ⟨hs₄, hid, ho, hst, hin⟩ ↦ saves ?_ fun _ ↦ served_pure
  subst hguid
  have hs := ((hs₁.trans hs₂).trans hs₃).trans hs₄
  exact licensed_update hr (fun hd ↦ hs.subset (hauth hd)) hid ho hst hin

/-- The flag that the security settings of a request make of the flag read. -/
theorem securityInfo_isEnforced (user : User) (tfaEnforce emailVerification : Option Bool) :
    (securityInfo user tfaEnforce emailVerification).isEnforced =
      tfaEnforce.getD user.isEnforced := by
  cases tfaEnforce with
  | some b => rfl
  | none =>
    rw [Option.getD_none, User.isEnforced]
    exact UserInfo.isEnforced_withOther fun _ ↦ rfl

/-- What an operator's change of the security settings knows when it saves. -/
theorem licensed_security {user updated : User} {h : History} {guids : List String}
    {tfaEnforce emailVerification : Option Bool}
    (hask : call.request.askedEnforce user.guid = tfaEnforce)
    (hauth : (call, .authorized "users.security" guids) ∈ h) (hm : user.guid ∈ guids)
    (hread : ∃ users, (call, .read users) ∈ h ∧ user ∈ users)
    (hg : updated.guid = user.guid) (ho : updated.oidcSubject = user.oidcSubject)
    (hs : updated.status = user.status) :
    Licensed h call ⟨user, updated.setUserInfo (securityInfo user tfaEnforce emailVerification)⟩ := by
  refine ⟨hg, ho, fun hne ↦ absurd hs hne, fun _ ↦ ?_⟩
  have hflag := securityInfo_isEnforced user tfaEnforce emailVerification
  cases tfaEnforce with
  | none => exact .inr ⟨hask, hread, hflag⟩
  | some b => exact .inl ⟨hask.trans (congrArg some hflag.symm), guids, hauth, hm⟩

theorem hashPassword_safe {user : User} {newPassword : Option String} :
    Safe platform call (hashPassword user newPassword) (fun updated w' ↦
      w.history <:+ w'.history ∧ updated.guid = user.guid ∧
        updated.oidcSubject = user.oidcSubject ∧ updated.status = user.status) w := by
  cases newPassword with
  | none => exact safe_pure ⟨List.suffix_rfl, rfl, rfl, rfl⟩
  | some newPassword =>
    exact safe_after .thirdParty fun _ _ hs₁ ↦ safe_after (.ask fun _ ↦ trivial) fun _ _ hs₂ ↦
      safe_pure ⟨hs₁.trans hs₂, rfl, rfl, rfl⟩

theorem updateUserSecurity_served {guid actorGuid : String} {dto : Auth.UpdateUserSecurityDto}
    (hr : call.request = .updateUserSecurity guid dto actorGuid) :
    Served platform call (updateUserSecurity guid dto actorGuid) := by
  refine reads fun user w hread hguid ↦ safe_bind authorize_safe fun _ w ⟨hs₁, hauth⟩ ↦
    safe_bind hashPassword_safe fun updated w ⟨hs₂, hid, ho, hst⟩ ↦ ?_
  subst hguid
  have hask : call.request.askedEnforce user.guid = dto.tfaEnforce := by
    rw [hr, Request.askedEnforce, if_pos rfl]
  have hread' : ∃ users, (call, .read users) ∈ w.history ∧ user ∈ users :=
    ⟨[user], (hs₁.trans hs₂).subset hread, .head _⟩
  exact (save_safe (licensed_security hask (hs₂.subset hauth) (.head _) hread' hid ho hst)).mono (fun _ _ _ _ ↦ trivial) fun _ _ _ h ↦ h

theorem findUsers_safe {guids : List String} :
    Safe platform call (Handler.ask (.findUsers guids)) (fun users w' ↦
      w.history <:+ w'.history ∧ (call, .read users) ∈ w'.history ∧
        ∀ user ∈ users, user.guid ∈ guids) w :=
  safe_invoke (fun _ _ ↦ trivial) fun _ _ _ hw hr he ↦ ⟨hw, Except.ok.inj he ▸ hr⟩

theorem updateStatuses_served {guids : List String} {status : UserStatus} {actorGuid : String}
    (hask : ∀ guid ∈ guids, call.request.askedStatus guid = some status) :
    Served platform call (updateStatuses guids status actorGuid) := by
  intro w
  rw [updateStatuses]
  split
  · exact safe_pure trivial
  · refine safe_bind authorize_safe fun _ w ⟨_, hauth⟩ ↦ ?_
    exact safe_invoke (fun _ hs guid hm ↦ ⟨hask guid hm, guids, hs.subset hauth, hm⟩)
      fun _ _ _ _ _ _ ↦ trivial

theorem batchUpdateStatus_served {dto : BatchStatusDto} {actorGuid : String}
    (hr : call.request = .batchUpdateStatus dto actorGuid) :
    Served platform call (batchUpdateStatus dto actorGuid) := by
  refine served_bind (.ask fun _ ↦ trivial) fun users ↦ served_bind .assert fun _ w ↦
    safe_bind (updateStatuses_served (fun guid hm ↦ ?_) w) fun _ _ _ ↦ safe_pure trivial
  rw [hr, Request.askedStatus, if_pos (List.mem_of_mem_filter hm)]

theorem batchUpdateSecurity_served {dto : BatchSecurityDto} {actorGuid : String}
    (hr : call.request = .batchUpdateSecurity dto actorGuid) :
    Served platform call (batchUpdateSecurity dto actorGuid) := by
  intro w
  refine safe_bind findUsers_safe fun users w ⟨_, hread, hin⟩ ↦ safe_after .assert fun _ w hs₁ ↦
    safe_bind authorize_safe fun _ w ⟨hs₂, hauth⟩ ↦ safe_bind (saveUsers_safe
      (fun change hm ↦ ?_) (.inr fun change hm ↦ ?_)) fun _ _ _ ↦ safe_pure trivial
  rotate_left
  · obtain ⟨user, -, rfl⟩ := List.mem_map.mp hm
    exact ⟨rfl, rfl⟩
  obtain ⟨user, hu, rfl⟩ := List.mem_map.mp hm
  have hask : call.request.askedEnforce user.guid = dto.tfaEnforce := by
    rw [hr, Request.askedEnforce, if_pos (List.mem_eraseDups.mp (hin user hu))]
  exact licensed_security hask hauth (hin user hu) ⟨users, (hs₁.trans hs₂).subset hread, hu⟩ rfl rfl rfl

end UserService

section Own

/-- A user's own change of an entry of `info` other than the flag. -/
theorem licensed_entry {user saved : User} {h : History} {change : OtherInfo → OtherInfo}
    (ha : call.request.askedEnforce user.guid = none) (hr : (call, .read [user]) ∈ h)
    (hg : saved.guid = user.guid) (ho : saved.oidcSubject = user.oidcSubject)
    (hs : saved.status = user.status) (hi : saved.info = some (user.getUserInfo.withOther change))
    (hc : ∀ other, (change other).tfaEnforce = other.tfaEnforce) :
    Licensed h call ⟨user, saved⟩ := by
  refine licensed_of_info hg ho hs ha hr ?_
  rw [User.isEnforced, User.getUserInfo, hi]
  exact UserInfo.isEnforced_withOther hc

end Own

namespace AuthTfaService

theorem assertMayReset_quiet {user : User} {isEnforced : Bool} {currentCode : Option String} :
    Quiet platform call (assertMayReset user isEnforced currentCode) := by
  rw [assertMayReset]
  split
  · exact .pure
  · exact .bind .assert fun _ ↦ .bind .require fun _ ↦ .bind (.ask fun _ ↦ trivial) fun _ ↦ .assert

theorem setupTfa_served {userGuid : String} {currentCode : Option String}
    (ha : ∀ guid, call.request.askedEnforce guid = none) :
    Served platform call (setupTfa userGuid currentCode) := by
  refine reads fun user w hread _ ↦ safe_after assertMayReset_quiet fun _ w hs₁ ↦
    safe_after (.ask fun _ ↦ trivial) fun secret w hs₂ ↦ saves ?_ fun _ ↦ served_pure
  exact licensed_entry (ha _) ((hs₁.trans hs₂).subset hread) rfl rfl rfl rfl fun _ ↦ rfl

theorem verifyAndBindTfa_served {userGuid code : String}
    (ha : ∀ guid, call.request.askedEnforce guid = none) :
    Served platform call (verifyAndBindTfa userGuid code) := by
  refine reads fun user w hread _ ↦ safe_after .assert fun _ w hs₁ ↦
    safe_after .require fun secret w hs₂ ↦ safe_after (.ask fun _ ↦ trivial) fun _ w hs₃ ↦
    safe_after .assert fun _ w hs₄ ↦ saves ?_ fun _ ↦ served_pure
  have hs := ((hs₁.trans hs₂).trans hs₃).trans hs₄
  exact licensed_entry (ha _) (hs.subset hread) rfl rfl rfl rfl fun _ ↦ rfl

theorem disableTfa_served (userGuid code : String) :
    Served platform call (disableTfa userGuid code) :=
  served_bind .findUser fun _ ↦ served_bind .require fun _ ↦ served_bind .assert fun _ ↦
    served_bind (.ask fun _ ↦ trivial) fun _ ↦ served_bind .assert fun _ _ ↦
      saves (licensed_of_eq rfl rfl rfl rfl) fun _ ↦ served_pure

end AuthTfaService

namespace AuthPasskeyService

theorem assertCredential_quiet {userGuid : String} {enabled : Bool} :
    Quiet platform call (assertCredential userGuid enabled) := by
  rw [assertCredential]
  split
  · exact .bind (.ask fun _ ↦ trivial) fun _ ↦ .assert
  · exact .pure

theorem setPasskeyTfaEnabled_served {userGuid : String} {enabled : Bool}
    (ha : ∀ guid, call.request.askedEnforce guid = none) :
    Served platform call (setPasskeyTfaEnabled userGuid enabled) := by
  refine reads fun user w hread _ ↦ safe_after assertCredential_quiet fun _ w hs ↦
    saves ?_ fun _ ↦ served_pure
  exact licensed_entry (ha _) (hs.subset hread) rfl rfl rfl rfl fun _ ↦ rfl

end AuthPasskeyService

section External

theorem createExternalUser_quiet {draft : User} {username : String} {failure : Failure}
    (hd : draft.oidcSubject = call.request.subject) (attempts : ℕ) {finalUsername : String}
    {suffix : ℕ} : Quiet platform call
      (createExternalUser draft username failure attempts finalUsername suffix) := by
  induction attempts generalizing finalUsername suffix with
  | zero => exact .throw
  | succ attempts ih =>
    refine .bind (.ask fun _ ↦ trivial) fun _ ↦ .bind (.invoke fun _ ↦ hd) fun created ↦ ?_
    cases created with
    | none => exact ih
    | some user => exact .pure

theorem LdapService.updateEmail_served (user : User) (email : Option String) :
    Served platform call (updateEmail user email) := by
  rw [updateEmail]
  split
  · exact served_pure
  · split
    · exact served_pure
    · exact fun _ ↦ saves (licensed_of_eq rfl rfl rfl rfl) fun _ ↦ served_pure

theorem LdapService.findOrCreateUser_served {info : Auth.LdapUserInfo}
    (hr : call.request = .ldapLogin info) : Served platform call (findOrCreateUser info) := by
  refine served_bind (.ask fun _ ↦ trivial) fun found ↦ ?_
  cases found with
  | some existing => exact updateEmail_served existing info.email
  | none =>
    refine Quiet.served (.bind (.ask fun _ ↦ trivial) fun _ ↦ ?_)
    exact .bind .resolveUserGroupGuid fun _ ↦ createExternalUser_quiet (by rw [hr]; rfl) 3

theorem OidcService.backfill_quiet {user : User} {picture : Option String} :
    Quiet platform call (backfill platform user picture) := by
  rw [backfill]
  split
  · exact .pure
  · split
    · exact .pure
    · exact .bind (.ask fun _ ↦ trivial) fun _ ↦ .pure

theorem OidcService.findOrCreateUser_served {userInfo : OidcUserInfo} {providerName : String}
    (hr : call.request = .oidcLogin userInfo providerName) :
    Served platform call (findOrCreateUser platform userInfo providerName) := by
  refine Quiet.served (.bind (.ask fun _ ↦ trivial) fun found ↦ ?_)
  cases found with
  | some existing => exact backfill_quiet
  | none =>
    exact .bind .resolveUserGroupGuid fun _ ↦ createExternalUser_quiet (by rw [hr]; rfl) 3

end External

namespace PasswordResetService

theorem requestReset_served (usernameOrEmail : String) :
    Served platform call (requestReset usernameOrEmail) := by
  refine Quiet.served (.bind (.ask fun _ ↦ trivial) fun _ ↦ .bind .assert fun _ ↦
    .bind (.ask fun _ ↦ trivial) fun found ↦ ?_)
  split
  · refine .bind (.bind (.ask fun _ ↦ trivial) fun _ ↦ .bind (.ask fun _ ↦ trivial) fun _ ↦ ?_)
      fun _ ↦ .pure
    exact .ask fun _ ↦ trivial
  · exact .pure

theorem getTokenWithUser_quiet {token : String} :
    Quiet platform call (getTokenWithUser token) := by
  refine .bind (.ask fun _ ↦ trivial) fun _ ↦ .bind .require fun _ ↦ .bind .assert fun _ ↦
    .bind (.ask fun _ ↦ trivial) fun _ ↦ .bind .assert fun _ ↦ .bind .findUser fun _ ↦ ?_
  exact .bind .assert fun _ ↦ .pure

theorem confirmReset_served (dto : Auth.ConfirmPasswordResetDto) :
    Served platform call (confirmReset dto) := by
  refine served_bind getTokenWithUser_quiet fun x ↦ served_bind .thirdParty fun _ ↦
    served_bind (.ask fun _ ↦ trivial) fun _ ↦ served_bind (.ask fun _ ↦ trivial) fun _ w ↦ ?_
  exact safe_bind (safe_invoke (fun _ _ ↦ licensed_of_eq rfl rfl rfl rfl) fun _ _ _ _ _ _ ↦ trivial)
    fun _ _ _ ↦ safe_pure trivial

end PasswordResetService

theorem AuthService.register_served (dto : RegisterDto) (hn : call.request.subject = none) :
    Served platform call (register dto) := by
  refine Quiet.served (.bind (.ask fun _ ↦ trivial) fun existing ↦ .bind ?_ fun _ ↦
    .bind (.ask fun _ ↦ trivial) fun _ ↦ .bind .resolveUserGroupGuid fun _ ↦
    .bind (.insertUser hn.symm) fun _ ↦ .pure)
  cases existing with
  | none => exact .pure
  | some user =>
    rw [refuseExisting]
    split <;> exact .throw

theorem ignore_served {α : Type} {p : Handler α} (hp : Served platform call p) :
    Served platform call (ignore p) :=
  fun w ↦ safe_bind (hp w) fun _ _ _ ↦ safe_pure trivial

open UserService AuthTfaService AuthPasskeyService PasswordResetService AuthService

theorem serve_served : Served platform call (serve platform call.request) := by
  cases hr : call.request with
  | acceptInvitation dto => exact ignore_served (acceptInvitation_served hr)
  | updateCurrentUser userId dto => exact ignore_served (updateCurrentUser_served userId dto)
  | changePassword userId dto => exact ignore_served (changePassword_served userId dto)
  | uploadAvatar userGuid file => exact ignore_served (uploadAvatar_served userGuid file)
  | deleteAvatar userGuid => exact ignore_served (deleteAvatar_served userGuid)
  | setupTfa => exact ignore_served (setupTfa_served fun _ ↦ by rw [hr]; rfl)
  | verifyAndBindTfa => exact ignore_served (verifyAndBindTfa_served fun _ ↦ by rw [hr]; rfl)
  | disableTfa userGuid code => exact ignore_served (disableTfa_served userGuid code)
  | setPasskeyTfaEnabled =>
    exact ignore_served (setPasskeyTfaEnabled_served fun _ ↦ by rw [hr]; rfl)
  | ldapLogin info => exact ignore_served (LdapService.findOrCreateUser_served hr)
  | oidcLogin userInfo providerName =>
    exact ignore_served (OidcService.findOrCreateUser_served hr)
  | requestReset usernameOrEmail => exact ignore_served (requestReset_served usernameOrEmail)
  | confirmReset dto => exact ignore_served (confirmReset_served dto)
  | register dto => exact ignore_served (register_served dto (by rw [hr]; rfl))
  | createUser dto => exact ignore_served (createUser_served dto (by rw [hr]; rfl))
  | inviteUser dto => exact ignore_served (inviteUser_served dto (by rw [hr]; rfl))
  | updateUser => exact ignore_served (updateUser_served hr)
  | updateUserSecurity => exact updateUserSecurity_served hr
  | batchUpdateStatus => exact ignore_served (batchUpdateStatus_served hr)
  | batchUpdateSecurity => exact ignore_served (batchUpdateSecurity_served hr)

theorem admissible (platform : Platform) : (logic platform).Admissible := by
  intro call w p _ ⟨_, hp⟩
  have hw : (logic platform).Wp call ((serve platform call.request).start ()) _ w := serve_served w
  rw [hp]
  exact Logic.Wp.bind (f := fun _ ↦ .done ()) (hw.mono fun _ _ _ ↦ trivial)

end RustdeskConsole.Accounts
