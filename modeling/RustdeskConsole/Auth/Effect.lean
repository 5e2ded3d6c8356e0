import RustdeskConsole.Effects.Outcomes
import RustdeskConsole.Effects.History
import RustdeskConsole.Auth.World

namespace RustdeskConsole.Auth

open Effects Effects.Guard

/-- The rows of `w'` come from rows of `w`, which may have been used up or
revoked since. -/
structure Narrows (w w' : World) : Prop where
  sessions : ∀ s ∈ w'.sessions, ∃ s₀ ∈ w.sessions, s = s₀ ∨ s = { s₀ with used := true }
  tokens : ∀ t ∈ w'.tokens, ∃ t₀ ∈ w.tokens, t = t₀ ∨ t = { t₀ with isRevoked := true }

theorem Narrows.of_eq {w w' : World} (hs : w'.sessions = w.sessions) (ht : w'.tokens = w.tokens) :
    Narrows w w' :=
  ⟨fun s h ↦ ⟨s, hs ▸ h, .inl rfl⟩, fun t h ↦ ⟨t, ht ▸ h, .inl rfl⟩⟩

theorem exists_of_mem_update {α : Type} {p q : α → Bool} {f : α → α} {l : List α} {a : α}
    (h : a ∈ (l.filter p).map fun b ↦ if q b then f b else b) : ∃ b ∈ l, a = b ∨ a = f b := by
  obtain ⟨b, hb, rfl⟩ := List.mem_map.mp h
  refine ⟨b, List.mem_of_mem_filter hb, ?_⟩
  cases q b with
  | false => exact .inl rfl
  | true => exact .inr rfl

theorem narrows_applyChange (w : World) (change : ConsoleChange) : Narrows w (w.applyChange change) :=
  ⟨fun _ ↦ exists_of_mem_update, fun _ ↦ exists_of_mem_update⟩

theorem narrows_deleteUserUnusedSessions (w : World) (userGuid : String) :
    Narrows w (w.deleteUserUnusedSessions userGuid) :=
  ⟨fun s h ↦ ⟨s, List.mem_of_mem_filter h, .inl rfl⟩, fun t h ↦ ⟨t, h, .inl rfl⟩⟩

/-- The events that a command may leave beside the changes of the tables. -/
def notes : Command → Event → Prop
  | .findSession .., .sessionRead _ => True
  | .findUserByGuid _, .userRead _ => True
  | .findUserByUsernameOrEmail _, .userRead _ => True
  | .findCredential _, .credentialRead _ => True
  | _, .credentialsCounted .. => True
  | _, .ldapFound .. => True
  | _, .ldapBound .. => True
  | _, .ldapMapped .. => True
  | _, _ => False

/-- All that one command does to the sessions, the tokens and the history. -/
inductive Effect (call : Call) (w : World) : Command → World → Prop
  | quiet {c w'} : w'.history = w.history → Narrows w w' → Effect call w c w'
  | noted {c w' event} : notes c event → w'.history = (call, event) :: w.history →
      w'.sessions = w.sessions → w'.tokens = w.tokens → Effect call w c w'
  | saved {params session w'} : w.fresh session.guid → session.userGuid = params.userGuid →
      session.method = params.method → session.used = false →
      w'.history = (call, .sessionSaved session) :: w.history →
      w'.sessions = session :: w.sessions → w'.tokens = w.tokens →
      Effect call w (.saveSession params) w'
  | used {session row now w'} : row ∈ w.sessions → World.usable session now row = true →
      w'.history = (call, .sessionUsed row now) :: w.history →
      w'.sessions = w.sessions.map (fun s ↦
        if World.usable session now s then { s with used := true } else s) →
      w'.tokens = w.tokens → Effect call w (.markSessionUsed session) w'
  | issued {user deviceId deviceUuid deviceInfo expiryDays token w'} : w.fresh token.guid →
      token.jti = token.guid → token.userGuid = user.guid →
      w'.history = (call, .tokenSaved token) :: w.history → w'.sessions = w.sessions →
      w'.tokens = token :: w.tokens →
      Effect call w (.saveToken user deviceId deviceUuid deviceInfo expiryDays) w'
  | revoked {c userGuids w'} : w'.history = (call, .revoked userGuids) :: w.history →
      w'.sessions = (w.revokeActiveTokens userGuids).sessions →
      w'.tokens = (w.revokeActiveTokens userGuids).tokens → Effect call w c w'

section Transactions

variable {crypto : Crypto} {o : Choice} {w w' : World} {userGuids : List String}

/-- The tables a transaction commits once it has logged its users out. -/
structure LogsOut (w : World) (userGuids : List String) (w' : World) : Prop where
  history : w'.history = w.history
  sessions : w'.sessions = (w.revokeActiveTokens userGuids).sessions
  tokens : w'.tokens = (w.revokeActiveTokens userGuids).tokens

theorem changePassword_logsOut {userId : String} {dto : ChangePasswordDto}
    (h : changePassword crypto o w userId dto = .ok (w', userGuids)) : LogsOut w userGuids w' := by
  simp only [changePassword, bind_eq_ok, exists_unit, pure_eq_ok, Prod.mk.injEq] at h
  obtain ⟨user, -, -, password, -, -, rfl, rfl⟩ := h
  exact ⟨rfl, rfl, rfl⟩

theorem confirmReset_logsOut {dto : ConfirmPasswordResetDto}
    (h : confirmReset crypto o w dto = .ok (w', userGuids)) : LogsOut w userGuids w' := by
  simp only [confirmReset, bind_eq_ok, exists_unit, pure_eq_ok, Prod.mk.injEq] at h
  obtain ⟨⟨user, record⟩, -, -, -, rfl, rfl⟩ := h
  exact ⟨rfl, rfl, rfl⟩

theorem updateUserSecurity_logsOut {guid : String} {dto : UpdateUserSecurityDto}
    (h : updateUserSecurity crypto o w guid dto = .ok (w', userGuids)) :
    LogsOut w userGuids w' := by
  simp only [updateUserSecurity, bind_eq_ok, exists_unit, pure_eq_ok, Prod.mk.injEq] at h
  obtain ⟨user, -, -, user', -, rfl, rfl⟩ := h
  exact ⟨rfl, rfl, rfl⟩

theorem forceLogout_logsOut {guids : List String}
    (h : forceLogout o w guids = .ok (w', userGuids)) : LogsOut w userGuids w' := by
  simp only [forceLogout, bind_eq_ok, exists_unit, pure_eq_ok, Prod.mk.injEq] at h
  obtain ⟨-, -, rfl, rfl⟩ := h
  exact ⟨rfl, rfl, rfl⟩

theorem commit_effect {t : Transaction} {call : Call} {c : Command}
    (h : ∀ w' userGuids, t = .ok (w', userGuids) → LogsOut w userGuids w') :
    Effect call w c (t.commit w call).1 := by
  cases t with
  | error failure => exact .quiet rfl (.of_eq rfl rfl)
  | ok x =>
    obtain ⟨w', userGuids⟩ := x
    have hl := h w' userGuids rfl
    exact .revoked (congrArg _ hl.history) hl.sessions hl.tokens

end Transactions

section

variable {crypto : Crypto} {call : Call} {c : Command} {o : Choice} {w : World}

theorem recordFound_effect {α : Type} {event : α → Event} {found : Option α}
    (h : ∀ a, notes c (event a)) : Effect call w c (w.recordFound call event found) := by
  cases found with
  | none => exact .quiet rfl (.of_eq rfl rfl)
  | some a => exact .noted (h a) rfl rfl rfl

theorem markSessionUsed_effect {session : LoginSession} {now : ℕ} :
    Effect call w (.markSessionUsed session) (w.markSessionUsed call session now).1 := by
  rw [World.markSessionUsed]
  split
  · exact .quiet rfl (.of_eq rfl rfl)
  · rename_i row hrow
    exact .used (List.mem_of_find?_eq_some hrow) (List.find?_some hrow) rfl rfl rfl

theorem findOrCreateLdapUser_effect {info : LdapUserInfo} :
    Effect call w c (w.findOrCreateLdapUser call info o).1 := by
  rw [World.findOrCreateLdapUser]
  split
  · exact .noted (by cases c <;> trivial) rfl rfl rfl
  · exact .noted (by cases c <;> trivial) rfl rfl rfl

theorem exec_effect : Effect call w c (exec crypto call c o w).1 := by
  cases c with
  | findSession | findUserByGuid | findUserByUsernameOrEmail | findCredential | searchLdapUser
  | bindLdapUser => exact recordFound_effect fun _ ↦ trivial
  | findOrCreateLdapUser => exact findOrCreateLdapUser_effect
  | countCredentials userGuid =>
    have hn : notes (.countCredentials userGuid)
        (.credentialsCounted userGuid (w.credentials.countP (·.userGuid = userGuid))) := trivial
    exact .noted hn rfl rfl rfl
  | compare | isLinkedLdapUser | isLdapEnabled | searchLdapGroups | getWebAuthnConfig | findUser
  | findCredentials | generateOptions | generateCode | sendVerificationCode | verifyTfaCode
  | verifyAssertion | createOrUpdateDevice | getJwtExpiryDays =>
    exact .quiet rfl (.of_eq rfl rfl)
  | saveCredential credential =>
    have h : (w.saveCredential credential).history = w.history ∧
        (w.saveCredential credential).sessions = w.sessions ∧
        (w.saveCredential credential).tokens = w.tokens := by
      rw [World.saveCredential]
      split <;> exact ⟨rfl, rfl, rfl⟩
    exact .quiet h.1 (.of_eq h.2.1 h.2.2)
  | deleteUserUnusedSessions userGuid =>
    exact .quiet rfl (narrows_deleteUserUnusedSessions w userGuid)
  | changeConsole => exact .quiet rfl (narrows_applyChange w o.change)
  | saveSession params =>
    rw [exec, World.saveSession]
    split
    · rename_i hf
      exact .saved hf rfl rfl rfl rfl rfl rfl
    · exact .quiet rfl (.of_eq rfl rfl)
  | saveToken user deviceId deviceUuid deviceInfo expiryDays =>
    rw [exec, World.saveToken]
    split
    · rename_i hf
      exact .issued hf rfl rfl rfl rfl rfl
    · exact .quiet rfl (.of_eq rfl rfl)
  | markSessionUsed session => exact markSessionUsed_effect
  | changePassword => exact commit_effect fun _ _ ↦ changePassword_logsOut
  | confirmReset => exact commit_effect fun _ _ ↦ confirmReset_logsOut
  | updateUserSecurity => exact commit_effect fun _ _ ↦ updateUserSecurity_logsOut
  | forceLogout => exact commit_effect fun _ _ ↦ forceLogout_logsOut

end

end RustdeskConsole.Auth
