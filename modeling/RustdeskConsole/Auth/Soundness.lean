import RustdeskConsole.Auth.LoginSpec

namespace RustdeskConsole.Auth

open Effects Function

section Runs

variable {crypto : Crypto} {users : List User} {credentials : List PasskeyCredential}
  {resetTokens : List PasswordResetToken} {cfg : Config Call Command Reply World}

theorem genuine_initial : Genuine crypto (World.initial users credentials resetTokens).history
    (World.initial users credentials resetTokens).sessions := by
  refine ⟨fun _ _ _ _ h ↦ (List.not_mem_nil h).elim, fun _ h ↦ (List.not_mem_nil h).elim,
    fun _ h ↦ (List.not_mem_nil h).elim, fun _ _ _ h ↦ (List.not_mem_nil h).elim,
    fun _ _ _ _ _ _ h ↦ (List.not_mem_nil h).elim, fun _ _ h ↦ (List.not_mem_nil h).elim,
    fun _ _ h ↦ (List.not_mem_nil h).elim, fun _ _ _ h ↦ ?_⟩
  exact (List.not_mem_nil (h.subset (.head _))).elim

theorem verified_initial : (logic crypto).Verified
    (Machine.idle (World.initial users credentials resetTokens)) :=
  Logic.verified_idle genuine_initial

theorem verified_reachable
    (hr : (machine crypto).Run (Machine.idle (World.initial users credentials resetTokens)) cfg) :
    (logic crypto).Verified cfg :=
  verified_initial.run (admissible crypto) hr

/-- No second factor can be bypassed: whatever the requests and however they
interleave, a token is issued only on grounds the call had then. -/
theorem token_issued_on_grounds
    (hr : (machine crypto).Run (Machine.idle (World.initial users credentials resetTokens)) cfg)
    {call : Call} {token : UserToken} {earlier : History}
    (ht : (call, .tokenSaved token) :: earlier <:+ cfg.world.history) :
    Grounds crypto earlier call token.userGuid :=
  (verified_reachable hr).1.grounds call token earlier ht

/-- The call used up a session of the given guid. -/
def UsesSession (guid : String) (e : Call × Event) : Prop :=
  ∃ session now, e.2 = .sessionUsed session now ∧ session.guid = guid

theorem usesSession_step {call : Call} {c : Command} {w w' : World}
    (hg : Genuine crypto w.history w.sessions) (he : Effect call w c w') {guid : String}
    (ho : History.AtMostOnce (UsesSession guid) w.history) :
    History.AtMostOnce (UsesSession guid) w'.history := by
  have hquiet : ∀ event, (∀ session now, event ≠ .sessionUsed session now) →
      History.AtMostOnce (UsesSession guid) ((call, event) :: w.history) := by
    intro event hne
    refine History.unfollowed_cons.mpr ⟨fun hused ↦ ?_, ho⟩
    obtain ⟨session, now, hu, -⟩ := hused
    exact absurd hu (hne session now)
  cases he with
  | quiet hh => exact hh ▸ ho
  | noted hn hh =>
    refine hh ▸ hquiet _ fun session now heq ↦ ?_
    rw [heq] at hn
    cases c <;> cases hn
  | saved _ _ _ _ hh => exact hh ▸ hquiet _ (by simp)
  | @used session row now w' hr hu hh =>
    rw [hh]
    refine History.unfollowed_cons.mpr ⟨fun hused e hm hused' ↦ ?_, ho⟩
    obtain ⟨s, t, heq, hid⟩ := hused
    obtain ⟨s', t', he', hid'⟩ := hused'
    obtain ⟨rfl, -⟩ := Event.sessionUsed.inj heq
    simp only [World.usable, Bool.and_eq_true, Bool.not_eq_true'] at hu
    have hin : (e.1, .sessionUsed s' t') ∈ w.history := by
      rw [← he']
      exact hm
    exact hg.unused row hr hu.1.2 e.1 s' t' hin (hid'.trans hid.symm)
  | issued _ _ _ hh => exact hh ▸ hquiet _ (by simp)
  | revoked hh => exact hh ▸ hquiet _ (by simp)

/-- Every login session is used up at most once. -/
theorem session_used_once
    (hr : (machine crypto).Run (Machine.idle (World.initial users credentials resetTokens)) cfg)
    (guid : String) : History.AtMostOnce (UsesSession guid) cfg.world.history := by
  induction hr with
  | refl => exact History.lawful_nil
  | tail hrun hs ih =>
    have hv := verified_reachable hrun
    rcases Logic.Leaves.step_cases (Q := fun _ _ ↦ True) hv hs with hw | ⟨call, c, o, -, hw⟩
    · exact hw ▸ ih
    · exact hw ▸ usesSession_step hv.1 exec_effect ih

end Runs

section Sample

def sampleUser : User where
  guid := "u1"
  username := "alice"
  displayName := none
  email := none
  password := some "hash:secret"
  note := ""
  status := .active
  isAdmin := false
  tfaSecret := some "totp"
  info := ⟨false, false, false⟩
  thirdAuthType := none
  oidcSubject := none

/-- Libraries that decide the sample inputs as the real ones would. -/
def sampleCrypto : Crypto where
  compare password hash := hash = "hash:" ++ password
  hash password _ := "hash:" ++ password
  verifyTotp secret code _ := code = secret ++ "-code"
  verifyAssertion _ _ _ _ := none
  digest token := token
  signToken payload _ := payload.jti
  verifyToken jwt _ := some ⟨"u1", "alice", none, false, none, jwt⟩

def sampleChoice (uuid : String) : Choice where
  now := 0
  uuid := uuid
  text := ""
  flag := false
  days := 30
  config := ⟨"", "", [], false⟩
  ldapInfo := .error (.unauthorized "Incorrect username or password")
  outcome := .ok ()
  change := ⟨[], [], [], fun _ ↦ false, fun _ ↦ true, fun _ ↦ false, fun _ ↦ true⟩

def passwordLogin : Call :=
  ⟨0, .login ⟨none, some "alice", some "secret", none, none, none, none, none, none⟩⟩

def codeLogin : Call :=
  ⟨1, .login ⟨some .tfaCode, none, none, none, some "totp-code", some "s1", none, none, none⟩⟩

def passwordPlayed : Option (Prog Command Reply Unit) × World :=
  (machine sampleCrypto).play passwordLogin (List.replicate 6 (sampleChoice "s1"))
    (handler sampleCrypto passwordLogin.request) (World.initial [sampleUser] [] [])

def codePlayed : Option (Prog Command Reply Unit) × World :=
  (machine sampleCrypto).play codeLogin (List.replicate 6 (sampleChoice "t1"))
    (handler sampleCrypto codeLogin.request) passwordPlayed.2

def sampleSession : LoginSession :=
  ⟨"s1", "u1", .tfa, none, none, 300000, false⟩

def sampleToken : UserToken :=
  ⟨"t1", "u1", "t1", none, none, none, none, none, 2592000000, false⟩

def sampleEarlier : History :=
  [(codeLogin, .sessionUsed sampleSession 0), (codeLogin, .userRead sampleUser),
    (codeLogin, .sessionRead sampleSession), (passwordLogin, .sessionSaved sampleSession),
    (passwordLogin, .userRead sampleUser)]

theorem codePlayed_run : (machine sampleCrypto).Run
    (Machine.idle (World.initial [sampleUser] [] []))
    ⟨update (update (fun _ ↦ none) passwordLogin passwordPlayed.1) codeLogin codePlayed.1,
      codePlayed.2⟩ := by
  refine ((machine sampleCrypto).start_run passwordLogin _ rfl ⟨fun _ h ↦ ?_, rfl⟩).trans
    ((machine sampleCrypto).start_run codeLogin _ rfl ⟨fun event h ↦ ?_, rfl⟩)
  · exact List.not_mem_nil h
  · have hh : passwordPlayed.2.history = [(passwordLogin, .sessionSaved sampleSession),
        (passwordLogin, .userRead sampleUser)] := by decide +kernel
    have hm : (codeLogin, event) ∈ passwordPlayed.2.history := h
    rw [hh] at hm
    simp [codeLogin, passwordLogin] at hm

theorem sample_issued_on_grounds : Grounds sampleCrypto sampleEarlier codeLogin "u1" := by
  have hh : codePlayed.2.history = (codeLogin, .tokenSaved sampleToken) :: sampleEarlier := by
    decide +kernel
  exact token_issued_on_grounds codePlayed_run ⟨[], hh.symm⟩

end Sample

end RustdeskConsole.Auth
