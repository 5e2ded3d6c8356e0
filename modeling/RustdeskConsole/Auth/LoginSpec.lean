import RustdeskConsole.Auth.Protocol

namespace RustdeskConsole.Auth

open Effects Effects.History Handler

/-- The call has not touched an account, a session or a token yet. -/
structure Clean (h : History) (call : Call) : Prop where
  noRead : NoRead h call
  noUse : NoUse h call
  unsettled : Unsettled h call

theorem Clean.of_absent {h : History} {call : Call} (ha : ∀ event, (call, event) ∉ h) :
    Clean h call :=
  ⟨fun _ ↦ ha _, fun _ _ ↦ ha _, fun _ ↦ ha _, fun _ ↦ ha _⟩

theorem Clean.grow {h h' : History} {call : Call} (hc : Clean h call) (hg : Grows call h h') :
    Clean h' call :=
  ⟨hg.noRead hc.noRead, hg.noUse hc.noUse, hg.unsettled hc.unsettled⟩

section Note

variable {h : History} {call : Call} {event : Event}

theorem NoRead.note (hn : NoRead h call) (he : ∀ user, .userRead user ≠ event) :
    NoRead ((call, event) :: h) call :=
  fun user hm ↦ hn user (mem_of_ne hm (he user))

theorem NoUse.note (hn : NoUse h call) (he : ∀ s now, .sessionUsed s now ≠ event) :
    NoUse ((call, event) :: h) call :=
  fun s now hm ↦ hn s now (mem_of_ne hm (he s now))

theorem Unsettled.note (hu : Unsettled h call) (he : event.uuid = none) :
    Unsettled ((call, event) :: h) call := by
  refine ⟨fun s hm ↦ hu.1 s (mem_of_ne hm ?_), fun t hm ↦ hu.2 t (mem_of_ne hm ?_)⟩
  · intro heq
    rw [← heq] at he
    cases he
  · intro heq
    rw [← heq] at he
    cases he

/-- The events after which a call is no longer clean. -/
def Event.touches : Event → Bool
  | .userRead _ | .sessionUsed .. | .sessionSaved _ | .tokenSaved _ => true
  | _ => false

theorem Clean.note (hc : Clean h call) (ht : event.touches = false) :
    Clean ((call, event) :: h) call := by
  cases event with
  | userRead | sessionUsed | sessionSaved | tokenSaved => cases ht
  | _ =>
    refine ⟨hc.noRead.note fun _ he ↦ ?_, hc.noUse.note fun _ _ he ↦ ?_, hc.unsettled.note rfl⟩
    · cases he
    · cases he

end Note

/-- The commands that leave the history as it is. -/
def Command.silent : Command → Bool
  | .compare .. | .isLinkedLdapUser _ | .isLdapEnabled | .searchLdapGroups _ | .getWebAuthnConfig
  | .findUser _ | .findCredentials _ | .generateOptions .. | .generateCode
  | .deleteUserUnusedSessions _ | .sendVerificationCode .. | .verifyTfaCode .. | .verifyAssertion ..
  | .saveCredential _ | .createOrUpdateDevice .. | .getJwtExpiryDays | .changeConsole => true
  | _ => false

section Rules

variable {crypto : Crypto} {call : Call} {w : World} {α : Type} {s : Unit}

theorem exec_silent {c : Command} {o : Choice} (hc : c.silent = true) :
    (exec crypto call c o w).1.history = w.history := by
  cases c with
  | saveCredential credential =>
    simp only [exec, World.saveCredential]
    split <;> rfl
  | compare | isLinkedLdapUser | isLdapEnabled | searchLdapGroups | getWebAuthnConfig | findUser
  | findCredentials | generateOptions | generateCode | deleteUserUnusedSessions
  | sendVerificationCode | verifyTfaCode | verifyAssertion | createOrUpdateDevice
  | getJwtExpiryDays | changeConsole => rfl
  | _ => cases hc

theorem guard_silent {c : Command} (hc : c.silent = true) : guard crypto call c w := by
  cases c <;> trivial

theorem silent_ensures {c : Command} {f : Reply c → Except Failure α}
    {Q : α → Unit → World → Prop} {E : Failure → Unit → World → Prop} (hc : c.silent = true)
    (hk : ∀ o w₁ w₂ r, exec crypto call c o w₁ = (w₂, some r) →
      Grows call w.history w₂.history → Logic.Settles Q E s w₂ (f r)) :
    (logic crypto).Ensures call (invoke c f) Q E s w := by
  refine .invoke fun w₁ hr _ ↦ ⟨guard_silent hc, fun o w₂ r he _ ↦ hk o w₁ w₂ r he ?_⟩
  have hh : w₂.history = w₁.history := by
    have h := @exec_silent crypto call w₁ c o hc
    rwa [show exec crypto call c o w₁ = (w₂, some r) from he] at h
  rwa [hh]

theorem assert_ensures {condition : Bool} {failure : Failure}
    {Q : Unit → Unit → World → Prop} {E : Failure → Unit → World → Prop}
    (hq : condition = true → Q () s w) (he : E failure s w) :
    (logic crypto).Ensures call (assert condition failure) Q E s w := by
  cases condition with
  | true => exact .pure (hq rfl)
  | false => exact .throw he

theorem require_ensures {value : Option α} {failure : Failure}
    {Q : α → Unit → World → Prop} {E : Failure → Unit → World → Prop}
    (hq : ∀ a, value = some a → Q a s w) (he : E failure s w) :
    (logic crypto).Ensures call (require value failure) Q E s w := by
  cases value with
  | some a => exact .pure (hq a rfl)
  | none => exact .throw he

end Rules

section Reads

variable {crypto : Crypto} {call : Call} {w : World} {α : Type}
  {E : Failure → Unit → World → Prop}

/-- A session found unused was saved by some call, as it was found. -/
theorem findSession_ensures {guid : String} {method : Option SessionMethod} {checkExpiry : Bool}
    {Q : Option LoginSession → Unit → World → Prop}
    (hr : NoRead w.history call) (hu : NoUse w.history call)
    (hnone : ∀ w', Grows call w.history w'.history → Q none () w')
    (hsome : ∀ h session w', Grows call w.history h → session.guid = guid →
      method.all (session.method = ·) = true → (∃ c, (c, .sessionSaved session) ∈ h) →
      w'.history = (call, .sessionRead session) :: h → Q (some session) () w') :
    (logic crypto).Ensures call (ask (.findSession guid method (some false) checkExpiry)) Q E ()
      w := by
  refine .invoke fun w₁ hg hi ↦ ⟨⟨hg.noRead hr, hg.noUse hu⟩, fun o w₂ r he _ ↦ ?_⟩
  obtain ⟨rfl, heq⟩ := Prod.mk.inj he
  obtain rfl := Option.some.inj heq
  rcases hf : w₁.findSession guid method (some false) checkExpiry o.now with _ | session
  · exact hnone w₁ hg
  · have hm := List.mem_of_find?_eq_some hf
    have hp := List.find?_some hf
    simp only [Bool.and_eq_true, decide_eq_true_eq, Option.all_some] at hp
    obtain ⟨c, hc⟩ := Genuine.row hi session hm
    refine hsome w₁.history session _ hg hp.1.1.1 hp.1.1.2 ⟨c, ?_⟩ rfl
    rwa [← hp.1.2] at hc

theorem findUserByGuid_ensures {guid : String} {Q : Option User → Unit → World → Prop}
    (hr : NoRead w.history call) (hu : NoUse w.history call)
    (hnone : ∀ w', Grows call w.history w'.history → Q none () w')
    (hsome : ∀ h user w', Grows call w.history h → user.guid = guid →
      w'.history = (call, .userRead user) :: h → Q (some user) () w') :
    (logic crypto).Ensures call (ask (.findUserByGuid guid)) Q E () w := by
  refine .invoke fun w₁ hg _ ↦ ⟨⟨hg.noRead hr, hg.noUse hu⟩, fun o w₂ r he _ ↦ ?_⟩
  obtain ⟨rfl, heq⟩ := Prod.mk.inj he
  obtain rfl := Option.some.inj heq
  generalize hf : List.find? _ w₁.users = found
  cases found with
  | none => exact hnone w₁ hg
  | some user =>
    have hid : user.guid = guid := by simpa using List.find?_some hf
    exact hsome w₁.history user _ hg hid rfl

theorem findUserByUsernameOrEmail_ensures {username : String}
    {Q : Option User → Unit → World → Prop}
    (hr : NoRead w.history call) (hu : NoUse w.history call)
    (hnone : ∀ w', Grows call w.history w'.history → Q none () w')
    (hsome : ∀ h user w', Grows call w.history h → w'.history = (call, .userRead user) :: h →
      Q (some user) () w') :
    (logic crypto).Ensures call (ask (.findUserByUsernameOrEmail username)) Q E () w := by
  refine .invoke fun w₁ hg _ ↦ ⟨⟨hg.noRead hr, hg.noUse hu⟩, fun o w₂ r he _ ↦ ?_⟩
  obtain ⟨rfl, heq⟩ := Prod.mk.inj he
  obtain rfl := Option.some.inj heq
  generalize List.find? _ w₁.users = found
  cases found with
  | none => exact hnone w₁ hg
  | some user => exact hsome w₁.history user _ hg rfl

theorem findCredential_ensures {credentialId : Option String}
    {Q : Option PasskeyCredential → Unit → World → Prop}
    (hr : NoRead w.history call) (hu : NoUse w.history call)
    (hnone : ∀ w', Grows call w.history w'.history → Q none () w')
    (hsome : ∀ h credential w', Grows call w.history h →
      w'.history = (call, .credentialRead credential) :: h → Q (some credential) () w') :
    (logic crypto).Ensures call (ask (.findCredential credentialId)) Q E () w := by
  refine .invoke fun w₁ hg _ ↦ ⟨⟨hg.noRead hr, hg.noUse hu⟩, fun o w₂ r he _ ↦ ?_⟩
  obtain ⟨rfl, heq⟩ := Prod.mk.inj he
  obtain rfl := Option.some.inj heq
  rcases hf : w₁.findCredential credentialId with _ | credential
  · exact hnone w₁ hg
  · exact hsome w₁.history credential _ hg rfl

end Reads

section Ldap

variable {crypto : Crypto} {call : Call} {w : World} {username password : String}

/-- The directory accepted the username and the password for this account. -/
def LdapAuthenticated (h : History) (call : Call) (username password : String) (user : User) :
    Prop :=
  ∃ info, (call, .ldapFound username info) ∈ h ∧ (call, .ldapBound info.dn password) ∈ h ∧
    (call, .ldapMapped info user) ∈ h

theorem searchUser_ensures {Q : LdapUserInfo → Unit → World → Prop}
    {E : Failure → Unit → World → Prop}
    (hthrow : ∀ failure w', Grows call w.history w'.history → E failure () w')
    (hk : ∀ h info w', Grows call w.history h →
      w'.history = (call, .ldapFound username info) :: h → Q info () w') :
    (logic crypto).Ensures call (LdapService.searchUser username) Q E () w := by
  refine .invoke fun w₁ hg _ ↦ ⟨trivial, fun o w₂ r he _ ↦ ?_⟩
  obtain ⟨rfl, heq⟩ := Prod.mk.inj he
  obtain rfl := Option.some.inj heq
  cases o.ldapInfo with
  | error failure => exact hthrow failure w₁ hg
  | ok info => exact hk w₁.history info _ hg rfl

theorem verifyUserPassword_ensures {dn : String} {Q : Unit → Unit → World → Prop}
    {E : Failure → Unit → World → Prop}
    (hthrow : ∀ failure w', Grows call w.history w'.history → E failure () w')
    (hk : ∀ h w', Grows call w.history h →
      w'.history = (call, .ldapBound dn password) :: h → Q () () w') :
    (logic crypto).Ensures call (LdapService.verifyUserPassword dn password) Q E () w := by
  refine .invoke fun w₁ hg _ ↦ ⟨trivial, fun o w₂ r he _ ↦ ?_⟩
  obtain ⟨rfl, heq⟩ := Prod.mk.inj he
  obtain rfl := Option.some.inj heq
  cases o.outcome with
  | error failure => exact hthrow failure w₁ hg
  | ok u => exact hk w₁.history _ hg rfl

theorem findOrCreateLdapUser_ensures {info : LdapUserInfo} {Q : User → Unit → World → Prop}
    {E : Failure → Unit → World → Prop}
    (hk : ∀ h user w', Grows call w.history h →
      w'.history = (call, .ldapMapped info user) :: h → Q user () w') :
    (logic crypto).Ensures call (ask (.findOrCreateLdapUser info)) Q E () w := by
  refine .invoke fun w₁ hg _ ↦ ⟨trivial, fun o w₂ user he _ ↦ hk w₁.history user w₂ hg ?_⟩
  obtain ⟨rfl, heq⟩ := Prod.mk.inj he
  obtain rfl := Option.some.inj heq
  change (w₁.findOrCreateLdapUser call info o).1.history = _
  rw [World.findOrCreateLdapUser]
  split <;> rfl

theorem authenticate_ensures (hc : Clean w.history call) :
    (logic crypto).Ensures call (LdapService.authenticate username password)
      (fun user _ w ↦ LdapAuthenticated w.history call username password user ∧
        Clean w.history call) (fun _ _ w ↦ Clean w.history call) () w := by
  refine .bind (silent_ensures rfl fun _ _ _ enabled _ hg ↦ ?_)
  have hc := hc.grow hg
  refine .bind (assert_ensures (fun _ ↦ ?_) hc)
  refine .bind (searchUser_ensures (fun _ _ hg ↦ hc.grow hg) fun h₁ info w₁ hg hh₁ ↦ ?_)
  have hc : Clean w₁.history call := hh₁ ▸ (hc.grow hg).note rfl
  have hfound : (call, .ldapFound username info) ∈ w₁.history := hh₁ ▸ .head _
  refine .bind (verifyUserPassword_ensures (fun _ _ hg ↦ hc.grow hg) fun h₂ w₂ hg hh₂ ↦ ?_)
  have hc : Clean w₂.history call := hh₂ ▸ (hc.grow hg).note rfl
  have hbound : (call, .ldapBound info.dn password) ∈ w₂.history := hh₂ ▸ .head _
  have hfound : (call, .ldapFound username info) ∈ w₂.history := hh₂ ▸ .tail _ (hg.mem hfound)
  refine .bind (silent_ensures rfl fun _ _ w₃ _ _ hg ↦ ?_)
  have hc := hc.grow hg
  have hbound := hg.mem hbound
  have hfound := hg.mem hfound
  refine .bind (findOrCreateLdapUser_ensures fun h₄ user w₄ hg hh₄ ↦ ?_)
  have hc : Clean w₄.history call := hh₄ ▸ (hc.grow hg).note rfl
  refine .bind (assert_ensures (fun _ ↦ .pure ⟨⟨info, ?_, ?_, ?_⟩, hc⟩) hc)
  · exact hh₄ ▸ .tail _ (hg.mem hfound)
  · exact hh₄ ▸ .tail _ (hg.mem hbound)
  · exact hh₄ ▸ .head _

theorem tryLdapAuthentication_ensures (hc : Clean w.history call) :
    (logic crypto).Ensures call (AuthService.tryLdapAuthentication username password)
      (fun found _ w ↦ (∀ user, found = some user →
        LdapAuthenticated w.history call username password user) ∧ Clean w.history call)
      (fun _ _ _ ↦ True) () w := by
  have hauth : ∀ w, Clean w.history call → (logic crypto).Ensures call
      (do let user ← LdapService.authenticate username password; pure (some user))
      (fun found _ w ↦ (∀ user, found = some user →
        LdapAuthenticated w.history call username password user) ∧ Clean w.history call)
      (fun _ _ w ↦ Clean w.history call) () w := by
    intro w hc
    refine .bind ((authenticate_ensures hc).mono (fun user _ w ⟨ha, hc⟩ ↦ ?_) fun _ _ _ hc ↦ hc)
    refine .pure ⟨fun u hu ↦ ?_, hc⟩
    rwa [← Option.some.inj hu]
  refine .bind (silent_ensures rfl fun o _ w₁ linked _ hg ↦ ?_)
  have hc₁ := hc.grow hg
  cases linked with
  | true => exact (hauth w₁ hc₁).mono (fun _ _ _ h ↦ h) fun _ _ _ _ ↦ trivial
  | false =>
    refine .bind (silent_ensures rfl fun o _ w₂ enabled _ hg ↦ ?_)
    have hc₂ := hc₁.grow hg
    cases enabled with
    | true =>
      refine .tryCatch ((hauth w₂ hc₂).mono (fun _ _ _ h ↦ h) fun _ _ w hc ↦ ?_)
      exact .pure ⟨fun _ hn ↦ (by cases hn), hc⟩
    | false => exact .pure ⟨fun _ hn ↦ (by cases hn), hc₂⟩

end Ldap

section Issue

variable {crypto : Crypto} {call : Call} {w : World}

/-- Nothing is promised of what the handler returns, only that it keeps to the
rules. -/
abbrev Keeps (crypto : Crypto) (call : Call) {α : Type} (handler : Handler α) (w : World) : Prop :=
  (logic crypto).Ensures call handler (fun _ _ _ ↦ True) (fun _ _ _ ↦ True) () w

theorem createOrUpdateDevice_ensures {userGuid : String} {device : Device}
    {Q : Unit → Unit → World → Prop} (hk : ∀ w', Grows call w.history w'.history → Q () () w') :
    (logic crypto).Ensures call (createOrUpdateDevice userGuid device) Q (fun _ _ _ ↦ True) ()
      w := by
  rw [createOrUpdateDevice]
  split
  · refine silent_ensures rfl fun o _ w' r _ hg ↦ ?_
    cases r with
    | error failure => trivial
    | ok u => exact hk w' hg
  · exact .pure (hk w (.refl _))

theorem generateToken_keeps {user : User} {device : Device}
    (hgr : Grounds crypto w.history call user.guid) (hu : Unsettled w.history call) :
    Keeps crypto call (generateToken crypto user device) w := by
  refine .bind (silent_ensures rfl fun _ _ w₁ _ _ hg ↦ ?_)
  refine .bind (.invoke fun w₂ hg' _ ↦ ⟨⟨?_, ?_⟩, fun _ _ _ _ _ ↦ .pure trivial⟩)
  · exact (hg.trans hg').grounds hgr
  · exact (hg.trans hg').unsettled hu

theorem issue_keeps {user : User} {device : Device}
    (hgr : Grounds crypto w.history call user.guid) (hu : Unsettled w.history call) :
    Keeps crypto call (AuthService.buildLoginResponse crypto user device) w := by
  refine .bind (createOrUpdateDevice_ensures fun w₁ hg ↦ ?_)
  refine .bind ((generateToken_keeps (hg.grounds hgr) (hg.unsettled hu)).mono (fun _ _ _ _ ↦ ?_)
    fun _ _ _ _ ↦ trivial)
  exact .pure trivial

theorem saveSession_keeps {params : CreateSessionParams}
    (hp : params.method.secondFactor = true →
      (∃ user, Presented crypto w.history call user ∧ user.admitted ∧
        user.guid = params.userGuid) ∧ Unsettled w.history call) :
    Keeps crypto call (LoginSessionService.createSession params) w := by
  have hsave : ∀ w', Grows call w.history w'.history →
      Keeps crypto call (ask (.saveSession params)) w' := by
    intro w' hg
    refine .invoke fun w₁ hg' _ ↦ ⟨fun h2 ↦ ?_, fun _ _ _ _ _ ↦ trivial⟩
    have hg := hg.trans hg'
    obtain ⟨⟨user, hpu, ha, hid⟩, hu⟩ := hp h2
    exact ⟨⟨user, hg.presented hpu, ha, hid⟩, hg.unsettled hu⟩
  rw [LoginSessionService.createSession]
  split
  · exact .bind (silent_ensures rfl fun _ _ w₁ _ _ hg ↦ hsave w₁ hg)
  · exact hsave w (.refl _)

end Issue

section SecondStep

variable {crypto : Crypto} {call : Call} {w : World} {session : LoginSession} {user : User}

/-- What completing a login for `user` rests on. -/
def Proven (crypto : Crypto) (h : History) (call : Call) (session : LoginSession)
    (user : User) : Prop :=
  (session.method.secondFactor = true ∧ session.userGuid = user.guid ∧
    Confirmed crypto h call session) ∨ Asserted crypto h call session user.guid

theorem Proven.mono {h h' : History} (hp : Proven crypto h call session user) (hs : h <:+ h') :
    Proven crypto h' call session user :=
  hp.imp (fun ⟨h2, hu, hc⟩ ↦ ⟨h2, hu, hc.mono hs⟩) (Asserted.mono · hs)

/-- Using up the session turns what was proven into grounds for a token. -/
theorem Proven.grounds {h : History} {sessions : List LoginSession}
    (hg : Genuine crypto h sessions) (hp : Proven crypto h call session user)
    (hs : ∃ c, (c, .sessionSaved session) ∈ h) (hu : UsedUp h call session) :
    Grounds crypto h call user.guid := by
  obtain ⟨c, hc⟩ := hs
  rcases hp with ⟨h2, hid, hconf⟩ | ha
  · exact .secondFactor h2 hid hu hconf (hg.opened c session hc h2)
  · exact .passwordless hu ha

theorem completeLogin_keeps {device : Device} (hr : Ready w.history call session)
    (hp : Proven crypto w.history call session user) :
    Keeps crypto call (completeLogin crypto user session device) w := by
  refine .bind (.bind (.invoke fun w₁ hg hi ↦ ⟨hg.ready hr, fun o w₂ r he hi₂ ↦ ?_⟩))
  have hr₁ := hg.ready hr
  have hp₁ := hp.mono hg.suffix
  obtain ⟨hw, heq⟩ := Prod.mk.inj he
  have heq := Option.some.inj heq
  refine assert_ensures (fun hok ↦ ?_) trivial
  simp only [id] at hw heq
  split at heq
  · rw [← heq] at hok
    cases hok
  rename_i row hrow
  rw [hrow] at hw
  subst hw
  have husable := List.find?_some hrow
  simp only [World.usable, Bool.and_eq_true, decide_eq_true_eq, Bool.not_eq_true'] at husable
  have hrs : row = session := by
    obtain ⟨c, hc⟩ := Genuine.row hi row (List.mem_of_find?_eq_some hrow)
    obtain ⟨c', hc'⟩ := hr₁.saved
    rw [← husable.1.2] at hc
    exact (Genuine.sessionId hi c c' row session hc hc' husable.1.1).2
  subst hrs
  obtain ⟨hup, hsaved⟩ := Genuine.usedUp hi₂ call row o.now (.head _)
  have hgr := (hp₁.mono (List.suffix_cons ..)).grounds hi₂ hsaved hup
  have hun : Unsettled ((call, .sessionUsed row o.now) :: w₁.history) call :=
    hr₁.unsettled.note rfl
  exact issue_keeps hgr hun

/-- Reading the account after the session puts every read after the session. -/
theorem Ready.of_read {h : History} (hr : NoRead h call) (hu : NoUse h call)
    (hun : Unsettled h call) (hs : ∃ c, (c, .sessionSaved session) ∈ h)
    (hn : ∀ dto, call.request = .login dto → dto.standard = false)
    (hsole : ∀ dto s, call.request = .verifyPasskeyAuth dto → (call, .sessionRead s) ∈ h →
      s = session) : Ready ((call, .userRead user) :: h) call session where
  nonstandard := hn
  saved := by
    obtain ⟨c, hc⟩ := hs
    exact ⟨c, .tail _ hc⟩
  read := by
    obtain ⟨c, hc⟩ := hs
    refine preceded_cons ⟨_, hc, c, rfl⟩ fun e he hp ↦ ?_
    obtain ⟨u, rfl⟩ := hp
    exact hr u he
  sole dto s hd hm := hsole dto s hd (mem_of_ne hm nofun)
  noUse := hu.note nofun
  unsettled := hun.note rfl

theorem handleTfaLogin_keeps {dto : LoginDto} (hc : Clean w.history call)
    (hreq : call.request = .login dto) (hstd : dto.standard = false) :
    Keeps crypto call (AuthTfaService.handleTfaLogin crypto dto) w := by
  refine .bind (require_ensures (fun tfaCode hcode ↦ ?_) trivial)
  refine .bind (require_ensures (fun secret hsecret ↦ ?_) trivial)
  refine .bind (findSession_ensures hc.noRead hc.noUse
    (fun w₁ _ ↦ .bind (require_ensures (fun _ hs ↦ by cases hs) trivial))
    fun h₁ session w₁ hg hid hm hsaved hh₁ ↦ ?_)
  have hc₁ : Clean w₁.history call := hh₁ ▸ (hc.grow hg).note rfl
  have hsaved₁ : ∃ c, (c, .sessionSaved session) ∈ w₁.history := by
    obtain ⟨c, hs⟩ := hsaved
    exact ⟨c, hh₁ ▸ .tail _ hs⟩
  refine .bind (require_ensures (fun _ hs ↦ ?_) trivial)
  obtain rfl := Option.some.inj hs
  refine .bind (findUserByGuid_ensures hc₁.noRead hc₁.noUse
    (fun w₂ _ ↦ .bind (require_ensures (fun _ hu ↦ by cases hu) trivial))
    fun h₂ user w₂ hg₂ huid hh₂ ↦ ?_)
  have hready : Ready w₂.history call session := by
    have hc₂ := hc₁.grow hg₂
    obtain ⟨c, hs⟩ := hsaved₁
    rw [hh₂]
    refine .of_read hc₂.noRead hc₂.noUse hc₂.unsettled ⟨c, hg₂.mem hs⟩ (fun d hd ↦ ?_)
      fun d _ hd ↦ ?_
    · rw [hreq, Request.login.injEq] at hd
      rw [← hd, hstd]
    · rw [hreq] at hd
      cases hd
  have hread : (call, .userRead user) ∈ w₂.history := hh₂ ▸ .head _
  refine .bind (require_ensures (fun _ hs ↦ ?_) trivial)
  obtain rfl := Option.some.inj hs
  refine .bind (assert_ensures (fun _ ↦ ?_) trivial)
  refine .bind (require_ensures (fun tfaSecret htfa ↦ ?_) trivial)
  refine .bind (silent_ensures rfl fun o _ w₃ valid he hg₃ ↦ ?_)
  refine .bind (assert_ensures (fun hvalid ↦ ?_) trivial)
  refine .bind (assert_ensures (fun _ ↦ ?_) trivial)
  have hverified : crypto.verifyTotp tfaSecret tfaCode o.now = true := by
    rw [← hvalid]
    exact Option.some.inj (Prod.mk.inj he).2
  have hmethod : session.method = .tfa := by simpa using hm
  refine completeLogin_keeps (hg₃.ready hready) (.inl ⟨by rw [hmethod]; rfl, huid.symm, ?_⟩)
  exact .tfa hreq hmethod (hid ▸ hsecret) (hg₃.mem hread) huid htfa hcode hverified

theorem handleEmailCodeLogin_keeps {dto : LoginDto} (hc : Clean w.history call)
    (hreq : call.request = .login dto) (hstd : dto.standard = false) :
    Keeps crypto call (AuthEmailService.handleEmailCodeLogin crypto dto) w := by
  refine .bind (require_ensures (fun username _ ↦ ?_) trivial)
  refine .bind (require_ensures (fun verificationCode hcode ↦ ?_) trivial)
  refine .bind (require_ensures (fun secret hsecret ↦ ?_) trivial)
  refine .bind (findSession_ensures hc.noRead hc.noUse
    (fun w₁ _ ↦ .bind (require_ensures (fun _ hs ↦ by cases hs) trivial))
    fun h₁ session w₁ hg hid hm hsaved hh₁ ↦ ?_)
  have hc₁ : Clean w₁.history call := hh₁ ▸ (hc.grow hg).note rfl
  have hsaved₁ : ∃ c, (c, .sessionSaved session) ∈ w₁.history := by
    obtain ⟨c, hs⟩ := hsaved
    exact ⟨c, hh₁ ▸ .tail _ hs⟩
  refine .bind (require_ensures (fun _ hs ↦ ?_) trivial)
  obtain rfl := Option.some.inj hs
  refine .bind (assert_ensures (fun hmatch ↦ ?_) trivial)
  refine .bind (findUserByUsernameOrEmail_ensures hc₁.noRead hc₁.noUse
    (fun w₂ _ ↦ .bind (require_ensures (fun _ hu ↦ by cases hu) trivial))
    fun h₂ user w₂ hg₂ hh₂ ↦ ?_)
  have hready : Ready w₂.history call session := by
    have hc₂ := hc₁.grow hg₂
    obtain ⟨c, hs⟩ := hsaved₁
    rw [hh₂]
    refine .of_read hc₂.noRead hc₂.noUse hc₂.unsettled ⟨c, hg₂.mem hs⟩ (fun d hd ↦ ?_)
      fun d _ hd ↦ ?_
    · rw [hreq, Request.login.injEq] at hd
      rw [← hd, hstd]
    · rw [hreq] at hd
      cases hd
  refine .bind (require_ensures (fun user' hs ↦ ?_) trivial)
  obtain ⟨hs, huid⟩ := Option.filter_eq_some_iff.mp hs
  obtain rfl := Option.some.inj hs
  refine .bind (assert_ensures (fun _ ↦ ?_) trivial)
  have hmethod : session.method = .email := by simpa using hm
  have huid : user.guid = session.userGuid := by simpa using huid
  refine completeLogin_keeps hready (.inl ⟨by rw [hmethod]; rfl, huid.symm, ?_⟩)
  exact .email hreq hmethod (hid ▸ hsecret) hcode (by simpa using hmatch)

theorem verifyAuthLogin_keeps {dto : VerifyPasskeyAuthDto}
    (ha : ∀ event, (call, event) ∉ w.history) (hreq : call.request = .verifyPasskeyAuth dto) :
    Keeps crypto call (AuthPasskeyService.verifyAuthLogin crypto dto) w := by
  have hc := Clean.of_absent ha
  refine .bind (silent_ensures rfl fun _ _ w₀ config _ hg₀ ↦ ?_)
  have hc₀ := hc.grow hg₀
  refine .bind (assert_ensures (fun _ ↦ ?_) trivial)
  refine .bind (findSession_ensures hc₀.noRead hc₀.noUse
    (fun w₁ _ ↦ .bind (require_ensures (fun _ hs ↦ by cases hs) trivial))
    fun h₁ session w₁ hg₁ hid _ hsaved hh₁ ↦ ?_)
  have hc₁ : Clean w₁.history call := hh₁ ▸ (hc₀.grow hg₁).note rfl
  have hsaved₁ : ∃ c, (c, .sessionSaved session) ∈ w₁.history := by
    obtain ⟨c, hs⟩ := hsaved
    exact ⟨c, hh₁ ▸ .tail _ hs⟩
  have hsread₁ : (call, .sessionRead session) ∈ w₁.history := hh₁ ▸ .head _
  have hsole₁ : ∀ s, (call, .sessionRead s) ∈ w₁.history → s = session := by
    intro s hs
    rw [hh₁] at hs
    rcases List.mem_cons.mp hs with he | hs
    · exact Event.sessionRead.inj (Prod.mk.inj he).2
    · exact absurd (hg₀.own _ (hg₁.own _ hs)) (ha _)
  refine .bind (require_ensures (fun _ hs ↦ ?_) trivial)
  obtain rfl := Option.some.inj hs
  refine .bind (assert_ensures (fun hmethod ↦ ?_) trivial)
  refine .bind (findCredential_ensures hc₁.noRead hc₁.noUse
    (fun w₂ _ ↦ .bind (require_ensures (fun _ hc ↦ by cases hc) trivial))
    fun h₂ credential w₂ hg₂ hh₂ ↦ ?_)
  have hc₂ : Clean w₂.history call := hh₂ ▸ (hc₁.grow hg₂).note rfl
  have hcred₂ : (call, .credentialRead credential) ∈ w₂.history := hh₂ ▸ .head _
  refine .bind (require_ensures (fun _ hs ↦ ?_) trivial)
  obtain rfl := Option.some.inj hs
  refine .bind (assert_ensures (fun howner ↦ ?_) trivial)
  refine .bind (findUserByGuid_ensures hc₂.noRead hc₂.noUse
    (fun w₃ _ ↦ .bind (require_ensures (fun _ hu ↦ by cases hu) trivial))
    fun h₃ user w₃ hg₃ huid hh₃ ↦ ?_)
  have hready : Ready w₃.history call session := by
    have hc₃ := hc₂.grow hg₃
    obtain ⟨c, hs⟩ := hsaved₁
    rw [hh₃]
    refine .of_read hc₃.noRead hc₃.noUse hc₃.unsettled
      ⟨c, hg₃.mem (hh₂ ▸ .tail _ (hg₂.mem hs))⟩ (fun d hd ↦ ?_) fun d s _ hs ↦ hsole₁ s ?_
    · rw [hreq] at hd
      cases hd
    · have hs₂ := hg₃.own _ hs
      rw [hh₂] at hs₂
      exact hg₂.own _ (mem_of_ne hs₂ nofun)
  have hread₃ : (call, .userRead user) ∈ w₃.history := hh₃ ▸ .head _
  have hcred₃ : (call, .credentialRead credential) ∈ w₃.history := hh₃ ▸ .tail _ (hg₃.mem hcred₂)
  have hsread₃ : (call, .sessionRead session) ∈ w₃.history :=
    hh₃ ▸ .tail _ (hg₃.mem (hh₂ ▸ .tail _ (hg₂.mem hsread₁)))
  refine .bind (require_ensures (fun _ hs ↦ ?_) trivial)
  obtain rfl := Option.some.inj hs
  refine .bind (assert_ensures (fun hstatus ↦ ?_) trivial)
  refine .bind (silent_ensures rfl fun _ _ w₄ verification he hg₄ ↦ ?_)
  refine .bind (require_ensures (fun newCounter hcounter ↦ ?_) trivial)
  have hverified : crypto.verifyAssertion config session.code credential dto.response =
      some newCounter := (Option.some.inj (Prod.mk.inj he).2).trans hcounter
  refine .bind (silent_ensures rfl fun _ _ w₅ _ _ hg₅ ↦ ?_)
  have hg₅ := hg₄.trans hg₅
  refine completeLogin_keeps (hg₅.ready hready) ?_
  by_cases hm : session.method = .passkeyTfa
  · have howner : session.userGuid = credential.userGuid := by simpa [hm] using howner
    refine .inl ⟨by rw [hm]; rfl, howner.trans huid.symm, ?_⟩
    exact .passkey hreq hm hid.symm (hg₅.mem hcred₃) howner.symm hverified
  · have hm : session.method = .passkey := by simpa [hm] using hmethod
    refine .inr (.intro hreq hm hid.symm (hg₅.mem hsread₃) (hg₅.mem hcred₃) huid.symm
      (hg₅.mem hread₃) rfl (by simpa using hstatus) hverified)

end SecondStep

section FirstStep

variable {crypto : Crypto} {call : Call} {w : World} {user : User}

theorem initiateTfaLogin_keeps (hp : Presented crypto w.history call user) (ha : user.admitted)
    (hu : Unsettled w.history call) : Keeps crypto call (AuthTfaService.initiateTfaLogin user) w :=
  .bind ((saveSession_keeps fun _ ↦ ⟨⟨user, hp, ha, rfl⟩, hu⟩).mono (fun _ _ _ _ ↦ .pure trivial)
    fun _ _ _ _ ↦ trivial)

theorem initiateEmailVerification_keeps (hp : Presented crypto w.history call user)
    (ha : user.admitted) (hu : Unsettled w.history call) :
    Keeps crypto call (AuthEmailService.initiateEmailVerification user) w := by
  refine .bind (require_ensures (fun email _ ↦ ?_) trivial)
  refine .bind (silent_ensures rfl fun _ _ w₁ code _ hg ↦ ?_)
  refine .bind ((saveSession_keeps fun _ ↦ ⟨⟨user, hg.presented hp, ha, rfl⟩,
    hg.unsettled hu⟩).mono (fun session _ w₂ _ ↦ ?_) fun _ _ _ _ ↦ trivial)
  refine .bind (silent_ensures rfl fun _ _ w₃ sent _ _ ↦ ?_)
  exact .bind (assert_ensures (fun _ ↦ .pure trivial) trivial)

theorem initiatePasskeyTfa_keeps (hp : Presented crypto w.history call user)
    (ha : user.admitted) (hu : Unsettled w.history call) :
    Keeps crypto call (AuthPasskeyService.initiatePasskeyTfa user) w := by
  refine .bind (silent_ensures rfl fun _ _ w₁ config _ hg₁ ↦ ?_)
  refine .bind (assert_ensures (fun _ ↦ ?_) trivial)
  refine .bind (silent_ensures rfl fun _ _ w₂ credentials _ hg₂ ↦ ?_)
  refine .bind (assert_ensures (fun _ ↦ ?_) trivial)
  refine .bind (silent_ensures rfl fun _ _ w₃ challenge _ hg₃ ↦ ?_)
  have hg := (hg₁.trans hg₂).trans hg₃
  exact .bind ((saveSession_keeps fun _ ↦ ⟨⟨user, hg.presented hp, ha, rfl⟩,
    hg.unsettled hu⟩).mono (fun _ _ _ _ ↦ .pure trivial) fun _ _ _ _ ↦ trivial)

theorem hasCredentials_ensures {userGuid : String} {Q : Bool → Unit → World → Prop}
    (hk : ∀ h count w', Grows call w.history h →
      w'.history = (call, .credentialsCounted userGuid count) :: h → Q (decide (count > 0)) () w') :
    (logic crypto).Ensures call (AuthPasskeyService.hasCredentials userGuid) Q (fun _ _ _ ↦ True)
      () w := by
  refine .bind (.invoke fun w₁ hg _ ↦ ⟨trivial, fun o w₂ r he _ ↦ .pure ?_⟩)
  obtain ⟨rfl, heq⟩ := Prod.mk.inj he
  obtain rfl := Option.some.inj heq
  exact hk w₁.history _ _ hg rfl

theorem secondFactor_keeps {device : Device} (hp : Presented crypto w.history call user)
    (hu : Unsettled w.history call) :
    Keeps crypto call (AuthService.secondFactor crypto user device) w := by
  have hrest : ∀ w, Presented crypto w.history call user → Unsettled w.history call →
      (user.info.emailVerification = true → truthy user.email = none) →
      (user.info.passkeyTfaEnabled = true → (call, .credentialsCounted user.guid 0) ∈ w.history) →
      Keeps crypto call (if (truthy user.tfaSecret).isSome then AuthTfaService.initiateTfaLogin user
        else if user.info.tfaEnforce then pure (.enforceTfa user)
        else AuthService.buildLoginResponse crypto user device) w := by
    intro w hp hu hemail hpasskey
    split
    · rename_i htfa
      exact initiateTfaLogin_keeps hp (.inr (.inr (.inl (Option.isSome_iff_ne_none.mp htfa)))) hu
    · rename_i htfa
      split
      · exact .pure trivial
      · rename_i henforce
        refine issue_keeps (.password hp ⟨hemail, hpasskey, ?_, ?_⟩ rfl) hu
        · simpa using htfa
        · simpa using henforce
  rw [AuthService.secondFactor]
  split
  · rename_i hemail
    simp only [Bool.and_eq_true, Option.isSome_iff_ne_none] at hemail
    exact initiateEmailVerification_keeps hp (.inl hemail) hu
  · rename_i hemail
    have hemail : user.info.emailVerification = true → truthy user.email = none := by
      intro he
      simpa [he] using hemail
    by_cases hpk : user.info.passkeyTfaEnabled = true
    · rw [if_pos hpk]
      refine .bind (hasCredentials_ensures fun h count w₁ hg hh ↦ ?_)
      have hp₁ : Presented crypto w₁.history call user := by
        cases hg.presented hp with
        | intro hr hs hpw hhash hcmp hact hm => exact .intro hr hs hpw hhash hcmp hact (hh ▸ .tail _ hm)
      have hu₁ : Unsettled w₁.history call := hh ▸ (hg.unsettled hu).note rfl
      by_cases hcount : count > 0
      · rw [decide_eq_true hcount]
        exact initiatePasskeyTfa_keeps hp₁ (.inr (.inl hpk)) hu₁
      · rw [decide_eq_false hcount]
        obtain rfl : count = 0 := by omega
        exact hrest w₁ hp₁ hu₁ hemail fun _ ↦ hh ▸ .head _
    · rw [if_neg hpk]
      exact .bind (.pure (hrest w hp hu hemail fun h ↦ absurd h hpk))

theorem localLogin_keeps {dto : LoginDto} {username password : String} {device : Device}
    (hc : Clean w.history call) (hreq : call.request = .login dto) (hstd : dto.standard = true)
    (hpw : truthy dto.password = some password) :
    Keeps crypto call (AuthService.localLogin crypto username password device) w := by
  refine .bind (findUserByUsernameOrEmail_ensures hc.noRead hc.noUse
    (fun w₁ _ ↦ .bind (require_ensures (fun _ hu ↦ by cases hu) trivial))
    fun h₁ user w₁ hg₁ hh₁ ↦ ?_)
  have hu₁ : Unsettled w₁.history call := hh₁ ▸ (hc.grow hg₁).unsettled.note rfl
  have hread : (call, .userRead user) ∈ w₁.history := hh₁ ▸ .head _
  refine .bind (require_ensures (fun _ hs ↦ ?_) trivial)
  obtain rfl := Option.some.inj hs
  refine .bind (require_ensures (fun hash hhash ↦ ?_) trivial)
  refine .bind (silent_ensures rfl fun _ _ w₂ valid he hg₂ ↦ ?_)
  refine .bind (assert_ensures (fun hvalid ↦ ?_) trivial)
  refine .bind (assert_ensures (fun hdisabled ↦ ?_) trivial)
  refine .bind (assert_ensures (fun hunverified ↦ ?_) trivial)
  have hcmp : crypto.compare password hash = true :=
    (Option.some.inj (Prod.mk.inj he).2).trans hvalid
  have hactive : user.status = .active := by
    cases hs : user.status with
    | active => rfl
    | disabled => simp [hs] at hdisabled
    | unverified => simp [hs] at hunverified
  exact secondFactor_keeps (.intro hreq hstd hpw hhash hcmp hactive (hg₂.mem hread))
    (hg₂.unsettled hu₁)

theorem handleStandardLogin_keeps {dto : LoginDto} (hc : Clean w.history call)
    (hreq : call.request = .login dto) (hstd : dto.standard = true) :
    Keeps crypto call (AuthService.handleStandardLogin crypto dto) w := by
  refine .bind (require_ensures (fun username hname ↦ ?_) trivial)
  refine .bind (require_ensures (fun password hpw ↦ ?_) trivial)
  refine .bind ((tryLdapAuthentication_ensures hc).mono (fun found _ w₁ ⟨hf, hc₁⟩ ↦ ?_)
    fun _ _ _ _ ↦ trivial)
  cases found with
  | none => exact localLogin_keeps hc₁ hreq hstd hpw
  | some user =>
    obtain ⟨info, hfound, hbound, hmapped⟩ := hf user rfl
    exact issue_keeps (.ldap hreq hname hpw hfound hbound hmapped rfl hc₁.noRead hc₁.noUse)
      hc₁.unsettled

end FirstStep

section Serve

variable {crypto : Crypto} {call : Call} {w : World}

theorem login_keeps {dto : LoginDto} (hc : Clean w.history call)
    (hreq : call.request = .login dto) : Keeps crypto call (AuthService.login crypto dto) w := by
  have hstandard : dto.standard = true →
      Keeps crypto call (AuthService.handleStandardLogin crypto dto) w :=
    handleStandardLogin_keeps hc hreq
  rw [AuthService.login]
  rcases ht : dto.type with _ | _ | _ | _ | _ | _ | _
  case some.smsCode => exact .throw trivial
  case some.tfaCode => exact handleTfaLogin_keeps hc hreq (by simp only [LoginDto.standard, ht])
  case some.emailCode =>
    have hstd : dto.standard = false := by simp only [LoginDto.standard, ht]
    refine .bind (require_ensures (fun secret _ ↦ ?_) trivial)
    refine .bind (findSession_ensures hc.noRead hc.noUse
      (fun w₁ _ ↦ .bind (require_ensures (fun _ hs ↦ by cases hs) trivial))
      fun h₁ session w₁ hg _ _ _ hh₁ ↦ ?_)
    have hc₁ : Clean w₁.history call := hh₁ ▸ (hc.grow hg).note rfl
    refine .bind (require_ensures (fun _ hs ↦ ?_) trivial)
    obtain rfl := Option.some.inj hs
    split
    · exact handleTfaLogin_keeps hc₁ hreq hstd
    · exact handleEmailCodeLogin_keeps hc₁ hreq hstd
  all_goals exact hstandard (by simp only [LoginDto.standard, ht])

theorem beginAuthLogin_keeps : Keeps crypto call AuthPasskeyService.beginAuthLogin w := by
  refine .bind (silent_ensures rfl fun _ _ w₁ config _ _ ↦ ?_)
  refine .bind (assert_ensures (fun _ ↦ ?_) trivial)
  refine .bind (silent_ensures rfl fun _ _ w₂ challenge _ _ ↦ ?_)
  exact .bind ((saveSession_keeps fun h ↦ by cases h).mono (fun _ _ _ _ ↦ .pure trivial)
    fun _ _ _ _ ↦ trivial)

theorem beginRegistration_keeps {userGuid : String} :
    Keeps crypto call (AuthPasskeyService.beginRegistration userGuid) w := by
  refine .bind (silent_ensures rfl fun _ _ w₁ config _ _ ↦ ?_)
  refine .bind (assert_ensures (fun _ ↦ ?_) trivial)
  refine .bind (silent_ensures rfl fun _ _ w₂ user? _ _ ↦ ?_)
  refine .bind (require_ensures (fun user _ ↦ ?_) trivial)
  refine .bind (silent_ensures rfl fun _ _ w₃ existing _ _ ↦ ?_)
  refine .bind (silent_ensures rfl fun _ _ w₄ challenge _ _ ↦ ?_)
  exact .bind ((saveSession_keeps fun h ↦ by cases h).mono (fun _ _ _ _ ↦ .pure trivial)
    fun _ _ _ _ ↦ trivial)

theorem ignore_keeps {α : Type} {handler : Handler α} (h : Keeps crypto call handler w) :
    Keeps crypto call (ignore handler) w :=
  .bind (h.mono (fun _ _ _ _ ↦ .pure trivial) fun _ _ _ _ ↦ trivial)

theorem serve_keeps (ha : ∀ event, (call, event) ∉ w.history) :
    Keeps crypto call (serve crypto call.request) w := by
  have hany : ∀ (c : Command) (h : Reply c = Except Failure Unit),
      (∀ w, guard crypto call c w) → Keeps crypto call (invoke c fun reply ↦ h ▸ reply) w :=
    fun c h hg ↦ .invoke fun w₁ _ _ ↦ ⟨hg w₁, fun _ _ r _ _ ↦ by
      generalize (h ▸ r : Except Failure Unit) = result
      cases result <;> trivial⟩
  cases hreq : call.request with
  | login dto => exact ignore_keeps (login_keeps (.of_absent ha) hreq)
  | beginPasskeyAuth => exact ignore_keeps beginAuthLogin_keeps
  | verifyPasskeyAuth dto => exact ignore_keeps (verifyAuthLogin_keeps ha hreq)
  | beginPasskeyRegistration userGuid => exact ignore_keeps beginRegistration_keeps
  | changePassword userId dto => exact hany _ rfl fun _ ↦ trivial
  | confirmReset dto => exact hany _ rfl fun _ ↦ trivial
  | updateUserSecurity guid dto actorGuid => exact hany _ rfl fun _ ↦ trivial
  | forceLogout userGuids actorGuid => exact hany _ rfl fun _ ↦ trivial
  | console => exact silent_ensures rfl fun _ _ _ _ _ _ ↦ trivial

/-- Every request keeps to the rules, whatever the others do meanwhile. -/
theorem admissible (crypto : Crypto) : (logic crypto).Admissible := by
  intro call w p _ ⟨ha, hp⟩
  have hw : (logic crypto).Wp call ((serve crypto call.request).start ()) _ w := serve_keeps ha
  rw [hp]
  exact Logic.Wp.bind (f := fun _ ↦ .done ()) (hw.mono fun _ _ _ ↦ trivial)

end Serve

end RustdeskConsole.Auth
