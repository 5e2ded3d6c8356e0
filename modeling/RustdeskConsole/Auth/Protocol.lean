import RustdeskConsole.Effects.Logic
import RustdeskConsole.Auth.Effect
import RustdeskConsole.Auth.Login

namespace RustdeskConsole.Auth

open Effects Effects.History

abbrev History := List (Call × Event)

/-- The sessions that a right password opens. -/
def SessionMethod.secondFactor : SessionMethod → Bool
  | .email | .tfa | .passkeyTfa => true
  | .passkeyReg | .passkey => false

/-- The requests that `login` hands to `handleStandardLogin`. -/
def LoginDto.standard (dto : LoginDto) : Bool :=
  match dto.type with
  | some .emailCode | some .smsCode | some .tfaCode => false
  | _ => true

def NoRead (h : History) (call : Call) : Prop := ∀ user, (call, .userRead user) ∉ h

def NoUse (h : History) (call : Call) : Prop := ∀ session now, (call, .sessionUsed session now) ∉ h

/-- Nothing has come of the call yet. -/
def Unsettled (h : History) (call : Call) : Prop :=
  (∀ session, (call, .sessionSaved session) ∉ h) ∧ ∀ token, (call, .tokenSaved token) ∉ h

section Grounds

variable (crypto : Crypto) (h : History) (call : Call)

/-- A standard login read this account and presented its password. -/
inductive Presented (user : User) : Prop
  | intro {dto password hash} : call.request = .login dto → dto.standard = true →
      truthy dto.password = some password → user.password = some hash →
      crypto.compare password hash = true → user.status = .active →
      (call, .userRead user) ∈ h → Presented user

/-- As the call read the account, no second factor applies to it. -/
structure Unprotected (user : User) : Prop where
  email : user.info.emailVerification = true → truthy user.email = none
  passkey : user.info.passkeyTfaEnabled = true → (call, .credentialsCounted user.guid 0) ∈ h
  tfa : truthy user.tfaSecret = none
  enforced : user.info.tfaEnforce = false

/-- The call used up a session that was unexpired and that no call had used. -/
def UsedUp (session : LoginSession) : Prop :=
  ∃ now before, (call, .sessionUsed session now) :: before <:+ h ∧ session.used = false ∧
    now < session.expiresAt ∧
    ∀ other s t, (other, .sessionUsed s t) ∈ before → s.guid ≠ session.guid

/-- The session was opened for the account whose password had been presented. -/
def Opened (session : LoginSession) : Prop :=
  ∃ opener earlier user, (opener, .sessionSaved session) :: earlier <:+ h ∧
    Presented crypto earlier opener user ∧ user.guid = session.userGuid

/-- The call passed the verifier of the session's own method. -/
inductive Confirmed (session : LoginSession) : Prop
  | email {dto code} : call.request = .login dto → session.method = .email →
      truthy dto.secret = some session.guid → truthy dto.verificationCode = some code →
      session.code = some code → Confirmed session
  | tfa {dto user secret code now} : call.request = .login dto → session.method = .tfa →
      truthy dto.secret = some session.guid → (call, .userRead user) ∈ h →
      user.guid = session.userGuid → truthy user.tfaSecret = some secret →
      truthy dto.tfaCode = some code → crypto.verifyTotp secret code now = true →
      Confirmed session
  | passkey {dto credential config counter} : call.request = .verifyPasskeyAuth dto →
      session.method = .passkeyTfa → dto.secret = session.guid →
      (call, .credentialRead credential) ∈ h → credential.userGuid = session.userGuid →
      crypto.verifyAssertion config session.code credential dto.response = some counter →
      Confirmed session

/-- The account a passkey presented without a password belongs to. -/
inductive Asserted (session : LoginSession) (u : String) : Prop
  | intro {dto credential user config counter} : call.request = .verifyPasskeyAuth dto →
      session.method = .passkey → dto.secret = session.guid →
      (call, .sessionRead session) ∈ h → (call, .credentialRead credential) ∈ h →
      credential.userGuid = u → (call, .userRead user) ∈ h → user.guid = u →
      user.status ≠ .disabled →
      crypto.verifyAssertion config session.code credential dto.response = some counter →
      Asserted session u

/-- What a token for `u` may be issued on. -/
inductive Grounds (u : String) : Prop
  | ldap {dto username password info user} : call.request = .login dto →
      truthy dto.username = some username → truthy dto.password = some password →
      (call, .ldapFound username info) ∈ h → (call, .ldapBound info.dn password) ∈ h →
      (call, .ldapMapped info user) ∈ h → user.guid = u → NoRead h call → NoUse h call → Grounds u
  | passwordless {session} : UsedUp h call session → Asserted crypto h call session u → Grounds u
  | password {user} : Presented crypto h call user → Unprotected h call user → user.guid = u →
      Grounds u
  | secondFactor {session} : session.method.secondFactor = true → session.userGuid = u →
      UsedUp h call session → Confirmed crypto h call session → Opened crypto h session → Grounds u

end Grounds

/-- What the sessions and the history say of each other in every reachable
state. -/
structure Genuine (crypto : Crypto) (h : History) (sessions : List LoginSession) : Prop where
  sessionId : ∀ c c' s s', (c, .sessionSaved s) ∈ h → (c', .sessionSaved s') ∈ h →
    s.guid = s'.guid → c = c' ∧ s = s'
  row : ∀ s ∈ sessions, ∃ c, (c, .sessionSaved { s with used := false }) ∈ h
  unused : ∀ s ∈ sessions, s.used = false →
    ∀ c s' now, (c, .sessionUsed s' now) ∈ h → s'.guid ≠ s.guid
  usedUp : ∀ c s now, (c, .sessionUsed s now) ∈ h →
    UsedUp h c s ∧ ∃ c', (c', .sessionSaved s) ∈ h
  usedOnce : ∀ c c' s s' now now', (c, .sessionUsed s now) ∈ h →
    (c', .sessionUsed s' now') ∈ h → s.guid = s'.guid → c = c'
  opened : ∀ c s, (c, .sessionSaved s) ∈ h → s.method.secondFactor = true → Opened crypto h s
  tokenId : ∀ c t, (c, .tokenSaved t) ∈ h → t.jti = t.guid
  grounds : ∀ c t earlier, (c, .tokenSaved t) :: earlier <:+ h → Grounds crypto earlier c t.userGuid

/-- The history of a world that call `call` did not move. -/
structure Grows (call : Call) (h h' : History) : Prop where
  suffix : h <:+ h'
  own : ∀ event, (call, event) ∈ h' → (call, event) ∈ h

/-- A pending second step: the session it is about to use up was saved before
the call read any account. -/
structure Ready (h : History) (call : Call) (session : LoginSession) : Prop where
  nonstandard : ∀ dto, call.request = .login dto → dto.standard = false
  saved : ∃ c, (c, .sessionSaved session) ∈ h
  read : Preceded (fun e ↦ ∃ user, e = (call, .userRead user))
    (fun e ↦ ∃ c, e = (c, .sessionSaved session)) h
  sole : ∀ dto s, call.request = .verifyPasskeyAuth dto → (call, .sessionRead s) ∈ h → s = session
  noUse : NoUse h call
  unsettled : Unsettled h call

/-- What makes a standard login able to end in a token or a session. -/
def User.admitted (user : User) : Prop :=
  (user.info.emailVerification = true ∧ truthy user.email ≠ none) ∨
    user.info.passkeyTfaEnabled = true ∨ truthy user.tfaSecret ≠ none ∨ user.info.tfaEnforce = false

def guard (crypto : Crypto) (call : Call) : Command → World → Prop
  | .findUserByGuid _, w | .findUserByUsernameOrEmail _, w | .findSession .., w
  | .findCredential _, w =>
    NoRead w.history call ∧ NoUse w.history call
  | .saveSession params, w => params.method.secondFactor = true →
    (∃ user, Presented crypto w.history call user ∧ user.admitted ∧ user.guid = params.userGuid) ∧
      Unsettled w.history call
  | .markSessionUsed session, w => Ready w.history call session
  | .saveToken user .., w => Grounds crypto w.history call user.guid ∧ Unsettled w.history call
  | _, _ => True

section Membership

variable {h : History} {call c : Call} {e e' : Event}

theorem mem_of_ne (hm : (c, e') ∈ (call, e) :: h) (hne : e' ≠ e) : (c, e') ∈ h := by
  rcases List.mem_cons.mp hm with he | hm
  · exact absurd (Prod.mk.inj he).2 hne
  · exact hm

theorem suffix_of_ne {earlier : History} (hs : (c, e') :: earlier <:+ (call, e) :: h)
    (hne : e' ≠ e) : (c, e') :: earlier <:+ h := by
  rcases List.suffix_cons_iff.mp hs with he | hs
  · exact absurd (Prod.mk.inj (List.cons_eq_cons.mp he).1).2 hne
  · exact hs

theorem forall_suffix_token {token : UserToken} {T : Call → UserToken → History → Prop} :
    (∀ c t earlier, (c, .tokenSaved t) :: earlier <:+ (call, .tokenSaved token) :: h →
      T c t earlier) ↔
    T call token h ∧ ∀ c t earlier, (c, .tokenSaved t) :: earlier <:+ h → T c t earlier := by
  constructor
  · intro hT
    exact ⟨hT _ _ _ List.suffix_rfl,
      fun c t earlier hs ↦ hT c t earlier (hs.trans (List.suffix_cons ..))⟩
  · intro ⟨hnew, hT⟩ c t earlier hs
    rcases List.suffix_cons_iff.mp hs with he | hs
    · cases he
      exact hnew
    · exact hT c t earlier hs

end Membership

section Monotone

variable {crypto : Crypto} {h h' : History} {call : Call} {session : LoginSession}

theorem UsedUp.mono (hu : UsedUp h call session) (hs : h <:+ h') : UsedUp h' call session := by
  obtain ⟨now, before, hb, hr⟩ := hu
  exact ⟨now, before, hb.trans hs, hr⟩

theorem Opened.mono (ho : Opened crypto h session) (hs : h <:+ h') : Opened crypto h' session := by
  obtain ⟨opener, earlier, user, hb, hr⟩ := ho
  exact ⟨opener, earlier, user, hb.trans hs, hr⟩

theorem Confirmed.mono (hc : Confirmed crypto h call session) (hs : h <:+ h') :
    Confirmed crypto h' call session := by
  cases hc with
  | email hr hm hg hv hc => exact .email hr hm hg hv hc
  | tfa hr hm hg hread hu ht hc hv => exact .tfa hr hm hg (hs.subset hread) hu ht hc hv
  | passkey hr hm hg hc hu hv => exact .passkey hr hm hg (hs.subset hc) hu hv

theorem Asserted.mono {u : String} (ha : Asserted crypto h call session u) (hs : h <:+ h') :
    Asserted crypto h' call session u := by
  cases ha with
  | intro hr hm hg hsr hc hu hur hug hd hv =>
    exact .intro hr hm hg (hs.subset hsr) (hs.subset hc) hu (hs.subset hur) hug hd hv

end Monotone

namespace Genuine

variable {crypto : Crypto} {h : History} {sessions sessions' : List LoginSession} {call : Call}

theorem narrow (hg : Genuine crypto h sessions)
    (hn : ∀ s ∈ sessions', ∃ s₀ ∈ sessions, s = s₀ ∨ s = { s₀ with used := true }) :
    Genuine crypto h sessions' := by
  refine { hg with row := fun s hs ↦ ?_, unused := fun s hs hu ↦ ?_ }
  · obtain ⟨s₀, hs₀, rfl | rfl⟩ := hn s hs
    · exact hg.row s hs₀
    · exact hg.row s₀ hs₀
  · obtain ⟨s₀, hs₀, rfl | rfl⟩ := hn s hs
    · exact hg.unused s hs₀ hu
    · cases hu

theorem note (hg : Genuine crypto h sessions) {event : Event} (hid : event.uuid = none)
    (hu : ∀ s now, .sessionUsed s now ≠ event) :
    Genuine crypto ((call, event) :: h) sessions := by
  have hsaved : ∀ s, Event.sessionSaved s ≠ event := by
    intro s he
    rw [← he] at hid
    cases hid
  have htoken : ∀ t, Event.tokenSaved t ≠ event := by
    intro t he
    rw [← he] at hid
    cases hid
  have hsuf : h <:+ (call, event) :: h := List.suffix_cons ..
  refine ⟨fun c c' s s' h₁ h₂ ↦ hg.sessionId c c' s s' (mem_of_ne h₁ (hsaved s))
      (mem_of_ne h₂ (hsaved s')), fun s hs ↦ ?_,
    fun s hs hf c s' now hm ↦ hg.unused s hs hf c s' now (mem_of_ne hm (hu s' now)),
    fun c s now hm ↦ ?_, fun c c' s s' now now' h₁ h₂ ↦
      hg.usedOnce c c' s s' now now' (mem_of_ne h₁ (hu s now)) (mem_of_ne h₂ (hu s' now')),
    fun c s hm hf ↦ (hg.opened c s (mem_of_ne hm (hsaved s)) hf).mono hsuf,
    fun c t hm ↦ hg.tokenId c t (mem_of_ne hm (htoken t)), fun c t earlier hs ↦ ?_⟩
  · obtain ⟨c, hc⟩ := hg.row s hs
    exact ⟨c, .tail _ hc⟩
  · obtain ⟨hup, c', hc'⟩ := hg.usedUp c s now (mem_of_ne hm (hu s now))
    exact ⟨hup.mono hsuf, c', .tail _ hc'⟩
  · exact hg.grounds c t earlier (suffix_of_ne hs (htoken t))

theorem save (hg : Genuine crypto h sessions) {session : LoginSession}
    (hf : ∀ e ∈ h, e.2.uuid ≠ some session.guid) (hu : session.used = false)
    (hp : session.method.secondFactor = true →
      ∃ user, Presented crypto h call user ∧ user.guid = session.userGuid) :
    Genuine crypto ((call, .sessionSaved session) :: h) (session :: sessions) := by
  have hsuf : h <:+ (call, .sessionSaved session) :: h := List.suffix_cons ..
  have hnew : ∀ c s, (c, .sessionSaved s) ∈ h → s.guid ≠ session.guid := by
    intro c s hm he
    exact hf _ hm (congrArg some he)
  refine ⟨fun c c' s s' h₁ h₂ he ↦ ?_, fun s hs ↦ ?_, fun s hs hsu c s' now hm ↦ ?_,
    fun c s now hm ↦ ?_, fun c c' s s' now now' h₁ h₂ ↦
      hg.usedOnce c c' s s' now now' (mem_of_ne h₁ nofun) (mem_of_ne h₂ nofun),
    fun c s hm hm' ↦ ?_, fun c t hm ↦ hg.tokenId c t (mem_of_ne hm nofun),
    fun c t earlier hs ↦ hg.grounds c t earlier (suffix_of_ne hs nofun)⟩
  · rcases List.mem_cons.mp h₁ with e₁ | h₁ <;> rcases List.mem_cons.mp h₂ with e₂ | h₂
    · cases e₁
      cases e₂
      exact ⟨rfl, rfl⟩
    · cases e₁
      exact absurd he.symm (hnew c' s' h₂)
    · cases e₂
      exact absurd he (hnew c s h₁)
    · exact hg.sessionId c c' s s' h₁ h₂ he
  · rcases List.mem_cons.mp hs with rfl | hs
    · refine ⟨call, ?_⟩
      rw [← hu]
      exact .head _
    · obtain ⟨c, hc⟩ := hg.row s hs
      exact ⟨c, .tail _ hc⟩
  · have hold := mem_of_ne hm nofun
    rcases List.mem_cons.mp hs with rfl | hs
    · obtain ⟨-, c', hc'⟩ := hg.usedUp c s' now hold
      exact hnew c' s' hc'
    · exact hg.unused s hs hsu c s' now hold
  · obtain ⟨hup, c', hc'⟩ := hg.usedUp c s now (mem_of_ne hm nofun)
    exact ⟨hup.mono hsuf, c', .tail _ hc'⟩
  · rcases List.mem_cons.mp hm with e | hm
    · obtain ⟨rfl, e⟩ := Prod.mk.inj e
      cases e
      obtain ⟨user, hpu, hg'⟩ := hp hm'
      exact ⟨_, h, user, List.suffix_rfl, hpu, hg'⟩
    · exact (hg.opened c s hm hm').mono hsuf

/-- The used rows are those that have the session's guid: there is no other
unused row of that guid. -/
theorem use (hg : Genuine crypto h sessions) {session row : LoginSession} {now : ℕ}
    (hr : row ∈ sessions) (hu : World.usable session now row = true) :
    Genuine crypto ((call, .sessionUsed row now) :: h) (sessions.map fun s ↦
      if World.usable session now s then { s with used := true } else s) := by
  have hsuf : h <:+ (call, .sessionUsed row now) :: h := List.suffix_cons ..
  simp only [World.usable, Bool.and_eq_true, decide_eq_true_eq, Bool.not_eq_true'] at hu
  obtain ⟨⟨hguid, hunused⟩, hnow⟩ := hu
  have hsame : ∀ s ∈ sessions, s.used = false → s.guid = row.guid → s = row := by
    intro s hs hsu he
    obtain ⟨c, hc⟩ := hg.row s hs
    obtain ⟨c', hc'⟩ := hg.row row hr
    rw [← hsu] at hc
    rw [← hunused] at hc'
    exact (hg.sessionId _ _ _ _ hc hc' he).2
  have hsaved : ∃ c, (c, .sessionSaved row) ∈ h := by
    obtain ⟨c, hc⟩ := hg.row row hr
    rw [← hunused] at hc
    exact ⟨c, hc⟩
  refine ⟨fun c c' s s' h₁ h₂ ↦ hg.sessionId c c' s s' (mem_of_ne h₁ nofun) (mem_of_ne h₂ nofun),
    fun s hs ↦ ?_, fun s hs hsu c s' t hm ↦ ?_, fun c s t hm ↦ ?_,
    fun c c' s s' t t' h₁ h₂ he ↦ ?_,
    fun c s hm hf ↦ (hg.opened c s (mem_of_ne hm nofun) hf).mono hsuf,
    fun c t hm ↦ hg.tokenId c t (mem_of_ne hm nofun),
    fun c t earlier hs ↦ hg.grounds c t earlier (suffix_of_ne hs nofun)⟩
  · obtain ⟨s₀, hs₀, rfl⟩ := List.mem_map.mp hs
    obtain ⟨c, hc⟩ := hg.row s₀ hs₀
    refine ⟨c, .tail _ ?_⟩
    split <;> exact hc
  · obtain ⟨s₀, hs₀, rfl⟩ := List.mem_map.mp hs
    split at hsu
    · cases hsu
    · rename_i hnot
      rw [if_neg hnot]
      rcases List.mem_cons.mp hm with e | hm
      · cases e
        intro he
        apply hnot
        rw [hsame s₀ hs₀ hsu he.symm]
        simp only [World.usable, hguid, hunused, hnow, decide_true, Bool.not_false, Bool.and_self]
      · exact hg.unused s₀ hs₀ hsu c s' t hm
  · rcases List.mem_cons.mp hm with e | hm
    · cases e
      obtain ⟨c', hc'⟩ := hsaved
      exact ⟨⟨now, h, List.suffix_rfl, hunused, hnow, fun o s' t hm ↦
        hg.unused row hr hunused o s' t hm⟩, c', .tail _ hc'⟩
    · obtain ⟨hup, c', hc'⟩ := hg.usedUp c s t hm
      exact ⟨hup.mono hsuf, c', .tail _ hc'⟩
  · rcases List.mem_cons.mp h₁ with e₁ | h₁ <;> rcases List.mem_cons.mp h₂ with e₂ | h₂
    · rw [(Prod.mk.inj e₁).1, (Prod.mk.inj e₂).1]
    · cases e₁
      exact absurd he.symm (hg.unused row hr hunused c' s' t' h₂)
    · cases e₂
      exact absurd he (hg.unused row hr hunused c s t h₁)
    · exact hg.usedOnce c c' s s' t t' h₁ h₂ he

theorem issue (hg : Genuine crypto h sessions) {token : UserToken} (hid : token.jti = token.guid)
    (hgr : Grounds crypto h call token.userGuid) :
    Genuine crypto ((call, .tokenSaved token) :: h) sessions := by
  have hsuf : h <:+ (call, .tokenSaved token) :: h := List.suffix_cons ..
  refine ⟨fun c c' s s' h₁ h₂ ↦ hg.sessionId c c' s s' (mem_of_ne h₁ nofun) (mem_of_ne h₂ nofun),
    fun s hs ↦ ?_, fun s hs hf c s' now hm ↦ hg.unused s hs hf c s' now (mem_of_ne hm nofun),
    fun c s now hm ↦ ?_, fun c c' s s' now now' h₁ h₂ ↦
      hg.usedOnce c c' s s' now now' (mem_of_ne h₁ nofun) (mem_of_ne h₂ nofun),
    fun c s hm hf ↦ (hg.opened c s (mem_of_ne hm nofun) hf).mono hsuf,
    fun c t hm ↦ ?_, forall_suffix_token.mpr ⟨hgr, hg.grounds⟩⟩
  · obtain ⟨c, hc⟩ := hg.row s hs
    exact ⟨c, .tail _ hc⟩
  · obtain ⟨hup, c', hc'⟩ := hg.usedUp c s now (mem_of_ne hm nofun)
    exact ⟨hup.mono hsuf, c', .tail _ hc'⟩
  · rcases List.mem_cons.mp hm with e | hm
    · cases e
      exact hid
    · exact hg.tokenId c t hm

theorem step {crypto : Crypto} {call : Call} {c : Command} {w w' : World}
    (hg : Genuine crypto w.history w.sessions) (hc : guard crypto call c w)
    (he : Effect call w c w') : Genuine crypto w'.history w'.sessions := by
  cases he with
  | quiet hh hn =>
    rw [hh]
    exact hg.narrow hn.sessions
  | @noted c w' event hn hh hs ht =>
    rw [hh, hs]
    have hid : event.uuid = none := by
      cases event <;> cases c <;> first | rfl | cases hn
    refine hg.note hid fun s now he ↦ ?_
    rw [← he] at hn
    cases c <;> cases hn
  | @saved params session w' hf hu hm hused hh hs ht =>
    rw [hh, hs]
    refine hg.save hf hused fun h2 ↦ ?_
    obtain ⟨⟨user, hp, -, hid⟩, -⟩ := hc (hm ▸ h2)
    exact ⟨user, hp, hid.trans hu.symm⟩
  | used hr hu hh hs ht =>
    rw [hh, hs]
    exact hg.use hr hu
  | issued hf hid hu hh hs ht =>
    rw [hh, hs]
    exact hg.issue hid (hu ▸ hc.1)
  | revoked hh hs ht =>
    rw [hh, hs]
    exact (hg.narrow fun s h ↦ ⟨s, List.mem_of_mem_filter h, .inl rfl⟩).note rfl nofun

end Genuine

section Growth

variable {crypto : Crypto} {h h' h'' : History} {call : Call}

namespace Grows

theorem refl (h : History) : Grows call h h := ⟨List.suffix_rfl, fun _ hm ↦ hm⟩

theorem trans (hg : Grows call h h') (hg' : Grows call h' h'') : Grows call h h'' :=
  ⟨hg.suffix.trans hg'.suffix, fun event hm ↦ hg.own event (hg'.own event hm)⟩

variable (hg : Grows call h h')

include hg

theorem mem {e : Call × Event} (hm : e ∈ h) : e ∈ h' := hg.suffix.subset hm

theorem noRead (hn : NoRead h call) : NoRead h' call := fun user hm ↦ hn user (hg.own _ hm)

theorem noUse (hn : NoUse h call) : NoUse h' call := fun s now hm ↦ hn s now (hg.own _ hm)

theorem unsettled (hu : Unsettled h call) : Unsettled h' call :=
  ⟨fun s hm ↦ hu.1 s (hg.own _ hm), fun t hm ↦ hu.2 t (hg.own _ hm)⟩

theorem presented {user : User} (hp : Presented crypto h call user) :
    Presented crypto h' call user := by
  cases hp with
  | intro hr hs hp hh hc ha hm => exact .intro hr hs hp hh hc ha (hg.mem hm)

theorem unprotected {user : User} (hu : Unprotected h call user) : Unprotected h' call user :=
  { hu with passkey := fun hp ↦ hg.mem (hu.passkey hp) }

theorem grounds {u : String} (hgr : Grounds crypto h call u) : Grounds crypto h' call u := by
  cases hgr with
  | ldap hr hu hp hf hb hm he hn hs =>
    exact .ldap hr hu hp (hg.mem hf) (hg.mem hb) (hg.mem hm) he (hg.noRead hn) (hg.noUse hs)
  | passwordless hu ha => exact .passwordless (hu.mono hg.suffix) (ha.mono hg.suffix)
  | password hp hu he => exact .password (hg.presented hp) (hg.unprotected hu) he
  | secondFactor h2 he hu hc ho =>
    exact .secondFactor h2 he (hu.mono hg.suffix) (hc.mono hg.suffix) (ho.mono hg.suffix)

theorem ready {session : LoginSession} (hr : Ready h call session) : Ready h' call session where
  nonstandard := hr.nonstandard
  saved := by
    obtain ⟨c, hc⟩ := hr.saved
    exact ⟨c, hg.mem hc⟩
  read := by
    refine hr.read.mono hg.suffix fun e he hp ↦ ?_
    obtain ⟨user, rfl⟩ := hp
    exact hg.own _ he
  sole dto s hd hs := hr.sole dto s hd (hg.own _ hs)
  noUse := hg.noUse hr.noUse
  unsettled := hg.unsettled hr.unsettled

end Grows

end Growth

theorem Effect.history {call : Call} {w w' : World} {c : Command} (he : Effect call w c w') :
    w'.history = w.history ∨ ∃ event, w'.history = (call, event) :: w.history := by
  cases he with
  | quiet hh => exact .inl hh
  | noted _ hh | saved _ _ _ _ hh | used _ _ hh | issued _ _ _ hh | revoked hh => exact .inr ⟨_, hh⟩

theorem Effect.grows {call other : Call} {w w' : World} {c : Command} (he : Effect other w c w')
    (hne : call ≠ other) : Grows call w.history w'.history := by
  rcases he.history with hh | ⟨event, hh⟩
  · rw [hh]
    exact .refl _
  · rw [hh]
    refine ⟨List.suffix_cons .., fun e hm ↦ ?_⟩
    rcases List.mem_cons.mp hm with heq | hm
    · exact absurd (Prod.mk.inj heq).1 hne
    · exact hm

/-- What a call may take for granted of the others: they only add events of
their own. -/
def logic (crypto : Crypto) : Logic (machine crypto) where
  inv w := Genuine crypto w.history w.sessions
  guard := guard crypto
  rely call w w' := Grows call w.history w'.history
  rely_refl _ _ := .refl _
  rely_trans _ _ _ _ := .trans
  keeps _ _ hg hc := hg.step hc exec_effect
  interferes _ _ hne _ _ := exec_effect.grows hne

end RustdeskConsole.Auth
