import RustdeskConsole.Auth.Soundness

namespace RustdeskConsole.Auth

open Effects Effects.History Function

def Reads (call : Call) (u : String) (e : Call × Event) : Prop :=
  ∃ user, e = (call, .userRead user) ∧ user.guid = u

def Revokes (u : String) (e : Call × Event) : Prop :=
  ∃ userGuids, e.2 = .revoked userGuids ∧ u ∈ userGuids

/-- No revocation of `u` has committed since the call read `u`'s row. -/
def Current (h : History) (call : Call) (u : String) : Prop :=
  Unfollowed (Reads call u) (Revokes u) h

/-- The calls whose credential checks a token of this call rests on: its own,
and the one that opened the session it used up. -/
inductive RestsOn (h : History) (call : Call) : Call → Prop
  | self : RestsOn h call call
  | opener {session now opener} : (call, .sessionUsed session now) ∈ h →
      session.method.secondFactor = true → (opener, .sessionSaved session) ∈ h →
      RestsOn h call opener

def Accepted (crypto : Crypto) (w : World) (token : UserToken) : Prop :=
  ∃ jwt now payload, validateToken crypto w jwt now = some payload ∧
    payload.sub = token.userGuid ∧ payload.jti = token.jti

/-- An accepted token rests on no credential check that read its user's row
before a revocation of that user committed. -/
def RevocationComplete (crypto : Crypto) (w : World) : Prop :=
  ∀ call token earlier checker, (call, .tokenSaved token) :: earlier <:+ w.history →
    RestsOn earlier call checker → Accepted crypto w token →
    Current w.history checker token.userGuid

/-- The call has checked a credential of `u` and has left neither token nor
session yet, and no revocation can stop it: a standard login from its read of
the account, a second step from the use of its session, a passwordless login
from its read of the account. -/
inductive Exposed (crypto : Crypto) (h : History) (call : Call) (u : String) : Prop
  | password {user} : Presented crypto h call user → user.admitted → user.guid = u →
      Unsettled h call → Exposed crypto h call u
  | secondFactor {session now} : (call, .sessionUsed session now) ∈ h →
      session.method.secondFactor = true → session.userGuid = u → Unsettled h call →
      Exposed crypto h call u
  | passwordless {session} : Asserted crypto h call session u →
      (∀ other s now, (other, .sessionUsed s now) ∈ h → s.guid = session.guid → other = call) →
      Unsettled h call → Exposed crypto h call u

/-- The step commits no revocation of a user for whom a running call is exposed. -/
def Careful (crypto : Crypto) (cfg cfg' : Config Call Command Reply World) : Prop :=
  ∀ actor userGuids, cfg'.world.history = (actor, .revoked userGuids) :: cfg.world.history →
    ∀ u ∈ userGuids, ∀ call p, cfg.threads call = some p → p.next.isSome →
      ¬Exposed crypto cfg.world.history call u

section Cons

variable {crypto : Crypto} {h : History} {i call checker : Call} {event : Event} {u : String}

theorem Current.cons (hc : Current h call u) (he : ∀ userGuids, .revoked userGuids ≠ event) :
    Current ((i, event) :: h) call u := by
  refine unfollowed_cons.mpr ⟨fun hr ↦ ?_, hc⟩
  obtain ⟨userGuids, heq, -⟩ := hr
  exact absurd heq.symm (he userGuids)

theorem Current.cons_revoked {userGuids : List String} (hc : Current h call u)
    (hu : u ∉ userGuids) : Current ((i, .revoked userGuids) :: h) call u := by
  refine unfollowed_cons.mpr ⟨fun hr ↦ ?_, hc⟩
  obtain ⟨guids, heq, hm⟩ := hr
  exact absurd (Event.revoked.inj heq ▸ hm) hu

theorem Current.of_noRead (hn : NoRead h call) : Current h call u := by
  refine .of_not_mem fun e he hr ↦ ?_
  obtain ⟨user, rfl, -⟩ := hr
  exact hn user he

theorem RestsOn.of_cons (hr : RestsOn ((i, event) :: h) call checker)
    (hu : call = i → ∀ s now, .sessionUsed s now ≠ event)
    (hs : ∀ s now, (call, .sessionUsed s now) ∈ h → .sessionSaved s ≠ event) :
    RestsOn h call checker := by
  cases hr with
  | self => exact .self
  | @opener session now _ hused h2 hsaved =>
    have hused : (call, .sessionUsed session now) ∈ h := by
      rcases List.mem_cons.mp hused with he | hm
      · exact absurd (Prod.mk.inj he).2 (hu (Prod.mk.inj he).1 session now)
      · exact hm
    exact .opener hused h2 (mem_of_ne hsaved (hs session now hused))

theorem RestsOn.of_noUse (hr : RestsOn h call checker) (hn : NoUse h call) : checker = call := by
  cases hr with
  | self => rfl
  | opener hused => exact absurd hused (hn _ _)

theorem Unsettled.of_cons (hu : Unsettled ((i, event) :: h) call) : Unsettled h call :=
  ⟨fun s hm ↦ hu.1 s (.tail _ hm), fun t hm ↦ hu.2 t (.tail _ hm)⟩

/-- An event that is another call's, or none of those that expose. -/
theorem Exposed.of_cons (hx : Exposed crypto ((i, event) :: h) call u)
    (hi : call = i → (∀ user, .userRead user ≠ event) ∧ (∀ s now, .sessionUsed s now ≠ event) ∧
      (∀ s, .sessionRead s ≠ event) ∧ ∀ c, .credentialRead c ≠ event) :
    Exposed crypto h call u := by
  have hold : ∀ {e : Event}, (call = i → e ≠ event) → (call, e) ∈ (i, event) :: h →
      (call, e) ∈ h := by
    intro e hne hm
    rcases List.mem_cons.mp hm with he | hm
    · exact absurd (Prod.mk.inj he).2 (hne (Prod.mk.inj he).1)
    · exact hm
  cases hx with
  | password hp ha hid hu =>
    cases hp with
    | intro hr hs hpw hh hc hact hm =>
      exact .password (.intro hr hs hpw hh hc hact (hold (fun he ↦ (hi he).1 _) hm)) ha hid
        hu.of_cons
  | secondFactor hused h2 hid hu =>
    exact .secondFactor (hold (fun he ↦ (hi he).2.1 _ _) hused) h2 hid hu.of_cons
  | passwordless ha hsole hu =>
    cases ha with
    | intro hr hm hg hs hc hcu huser hid hd hv =>
      exact .passwordless (.intro hr hm hg (hold (fun he ↦ (hi he).2.2.1 _) hs)
        (hold (fun he ↦ (hi he).2.2.2 _) hc) hcu (hold (fun he ↦ (hi he).1 _) huser) hid hd hv)
        (fun other s now hm ↦ hsole other s now (.tail _ hm)) hu.of_cons

end Cons

/-- Whatever follows the session's start follows the call's read of the account. -/
theorem Ready.current {h : History} {call : Call} {session : LoginSession} {u : String}
    (hr : Ready h call session)
    (hun : Unfollowed (fun e ↦ ∃ c, e = (c, .sessionSaved session)) (Revokes u) h) :
    Current h call u := by
  have hread : Preceded (Reads call u) (fun e ↦ ∃ c, e = (c, .sessionSaved session)) h := by
    intro earlier hsuf ⟨e, he, user, heq, _⟩
    exact hr.read earlier hsuf ⟨e, he, user, heq⟩
  exact hread.unfollowed hun

/-- What a careful run keeps true: tokens in force, pending sessions and running
calls rest on credential checks that no revocation has followed. -/
structure Traced (crypto : Crypto) (live : Call → Prop) (w : World) : Prop where
  tokens : ∀ call token earlier checker, (call, .tokenSaved token) :: earlier <:+ w.history →
    (∃ t ∈ w.tokens, t.userGuid = token.userGuid ∧ t.jti = token.jti ∧ t.isRevoked = false) →
    RestsOn earlier call checker → Current w.history checker token.userGuid
  sessions : ∀ s ∈ w.sessions, s.used = false → s.method.secondFactor = true →
    Unfollowed (fun e ↦ ∃ c, e = (c, .sessionSaved s)) (Revokes s.userGuid) w.history ∧
      ∀ c, (c, .sessionSaved s) ∈ w.history → Current w.history c s.userGuid
  calls : ∀ call u checker, live call → Exposed crypto w.history call u →
    RestsOn w.history call checker → Current w.history checker u

/-- A command that reads an account, a session or a credential comes before the
call's first read of an account and before its use of a session. -/
theorem reads_guard {crypto : Crypto} {i : Call} {c : Command} {w : World} {event : Event}
    (hg : guard crypto i c w) (hn : notes c event)
    (he : (∃ user, event = .userRead user) ∨ (∃ s, event = .sessionRead s) ∨
      ∃ c, event = .credentialRead c) : NoRead w.history i ∧ NoUse w.history i := by
  rcases he with ⟨_, rfl⟩ | ⟨_, rfl⟩ | ⟨_, rfl⟩ <;> cases c <;> first | exact hg | cases hn

/-- What a token is issued on exposes the call, unless the directory vouched for
the user. -/
theorem Grounds.exposed {crypto : Crypto} {h : History} {sessions : List LoginSession}
    {call : Call} {u : String} (hgen : Genuine crypto h sessions)
    (hg : Grounds crypto h call u) (hu : Unsettled h call) :
    (NoRead h call ∧ NoUse h call) ∨ Exposed crypto h call u := by
  cases hg with
  | ldap _ _ _ _ _ _ _ hr hn => exact .inl ⟨hr, hn⟩
  | password hp hun hid => exact .inr (.password hp (.inr (.inr (.inr hun.enforced))) hid hu)
  | secondFactor h2 hid hup _ _ =>
    obtain ⟨now, before, hs, -⟩ := hup
    exact .inr (.secondFactor (mem_of_suffix hs) h2 hid hu)
  | passwordless hup ha =>
    obtain ⟨now, before, hs, -⟩ := hup
    refine .inr (.passwordless ha (fun other s t hm hid ↦ ?_) hu)
    exact hgen.usedOnce other call s _ t now hm (mem_of_suffix hs) hid

namespace Traced

variable {crypto : Crypto} {live : Call → Prop} {i : Call} {w w' : World} {event : Event}

theorem tokens_cons (ht : Traced crypto live w) (hh : w'.history = (i, event) :: w.history)
    (hrev : ∀ userGuids, .revoked userGuids ≠ event) (htok : ∀ t, .tokenSaved t ≠ event)
    (htokens : w'.tokens = w.tokens) :
    ∀ call token earlier checker, (call, .tokenSaved token) :: earlier <:+ w'.history →
    (∃ t ∈ w'.tokens, t.userGuid = token.userGuid ∧ t.jti = token.jti ∧ t.isRevoked = false) →
    RestsOn earlier call checker → Current w'.history checker token.userGuid := by
  intro call token earlier checker hs hrow hr
  rw [hh] at hs ⊢
  rw [htokens] at hrow
  exact (ht.tokens call token earlier checker (suffix_of_ne hs (htok token)) hrow hr).cons hrev

theorem sessions_cons (ht : Traced crypto live w) (hh : w'.history = (i, event) :: w.history)
    (hrev : ∀ userGuids, .revoked userGuids ≠ event) (hsaved : ∀ s, .sessionSaved s ≠ event)
    {s : LoginSession} (hs : s ∈ w.sessions) (hu : s.used = false)
    (h2 : s.method.secondFactor = true) :
    Unfollowed (fun e ↦ ∃ c, e = (c, .sessionSaved s)) (Revokes s.userGuid) w'.history ∧
      ∀ c, (c, .sessionSaved s) ∈ w'.history → Current w'.history c s.userGuid := by
  obtain ⟨hun, hcur⟩ := ht.sessions s hs hu h2
  rw [hh]
  refine ⟨unfollowed_cons.mpr ⟨fun hr ↦ ?_, hun⟩, fun c hm ↦ ?_⟩
  · obtain ⟨userGuids, heq, -⟩ := hr
    exact absurd heq.symm (hrev userGuids)
  · exact (hcur c (mem_of_ne hm (hsaved s))).cons hrev

theorem noted {c : Command} (ht : Traced crypto live w) (hg : guard crypto i c w)
    (hn : notes c event) (hh : w'.history = (i, event) :: w.history)
    (hs : w'.sessions = w.sessions) (htokens : w'.tokens = w.tokens) : Traced crypto live w' := by
  have hne : event.uuid = none ∧ (∀ s now, .sessionUsed s now ≠ event) ∧
      ∀ userGuids, .revoked userGuids ≠ event := by
    refine ⟨?_, fun s now he ↦ ?_, fun userGuids he ↦ ?_⟩
    · cases event <;> cases c <;> first | rfl | cases hn
    · rw [← he] at hn
      cases c <;> cases hn
    · rw [← he] at hn
      cases c <;> cases hn
  have hsaved : ∀ s, .sessionSaved s ≠ event := by
    intro s he
    rw [← he] at hne
    cases hne.1
  have htok : ∀ t, .tokenSaved t ≠ event := by
    intro t he
    rw [← he] at hne
    cases hne.1
  refine ⟨ht.tokens_cons hh hne.2.2 htok htokens, fun s hm hu h2 ↦
    ht.sessions_cons hh hne.2.2 hsaved (hs ▸ hm) hu h2, fun call u checker hl hx hr ↦ ?_⟩
  rw [hh] at hx hr ⊢
  have hrests := hr.of_cons (fun _ s now ↦ hne.2.1 s now) fun s _ _ ↦ hsaved s
  by_cases hread : call = i ∧ ((∃ user, event = .userRead user) ∨ (∃ s, event = .sessionRead s) ∨
      ∃ c, event = .credentialRead c)
  · obtain ⟨rfl, he⟩ := hread
    obtain ⟨hnr, hnu⟩ := reads_guard hg hn he
    rw [hrests.of_noUse hnu]
    exact (Current.of_noRead hnr).cons hne.2.2
  · refine (ht.calls call u checker hl (hx.of_cons fun hi ↦ ⟨fun user he ↦ ?_, hne.2.1,
      fun s he ↦ ?_, fun c he ↦ ?_⟩) hrests).cons hne.2.2
    · exact hread ⟨hi, .inl ⟨user, he.symm⟩⟩
    · exact hread ⟨hi, .inr (.inl ⟨s, he.symm⟩)⟩
    · exact hread ⟨hi, .inr (.inr ⟨c, he.symm⟩)⟩

theorem saved {params : CreateSessionParams} {session : LoginSession} (ht : Traced crypto live w)
    (hgen : Genuine crypto w.history w.sessions) (hl : live i)
    (hg : guard crypto i (.saveSession params) w) (hf : w.fresh session.guid)
    (hu : session.userGuid = params.userGuid) (hm : session.method = params.method)
    (hh : w'.history = (i, .sessionSaved session) :: w.history)
    (hs : w'.sessions = session :: w.sessions) (htokens : w'.tokens = w.tokens) :
    Traced crypto live w' := by
  have hnew : ∀ c s, (c, .sessionSaved s) ∈ w.history → s.guid ≠ session.guid :=
    fun c s hc he ↦ hf _ hc (congrArg some he)
  refine ⟨ht.tokens_cons hh nofun nofun htokens, fun s hsm hsu h2 ↦ ?_,
    fun call u checker hlive hx hr ↦ ?_⟩
  · rw [hs] at hsm
    rw [hh]
    rcases List.mem_cons.mp hsm with rfl | hsm
    · refine ⟨unfollowed_cons.mpr ⟨fun hr ↦ ?_, .of_not_mem fun e he hp ↦ ?_⟩, fun c hc ↦ ?_⟩
      · obtain ⟨_, heq, -⟩ := hr
        cases heq
      · obtain ⟨c, rfl⟩ := hp
        exact hnew c s he rfl
      · have hci : c = i := by
          rcases List.mem_cons.mp hc with he | hc
          · exact (Prod.mk.inj he).1
          · exact absurd rfl (hnew c s hc)
        obtain ⟨⟨user, hp, ha, hid⟩, hun⟩ := hg (hm ▸ h2)
        rw [hci]
        exact (ht.calls i s.userGuid i hl (.password hp ha (hid.trans hu.symm) hun) .self).cons nofun
    · obtain ⟨hun, hcur⟩ := ht.sessions s hsm hsu h2
      refine ⟨unfollowed_cons.mpr ⟨fun hr ↦ ?_, hun⟩, fun c hc ↦ ?_⟩
      · obtain ⟨_, heq, -⟩ := hr
        cases heq
      · rcases List.mem_cons.mp hc with he | hc
        · obtain ⟨c', hc'⟩ := hgen.row s hsm
          rw [← hsu] at hc'
          exact absurd (congrArg LoginSession.guid (Event.sessionSaved.inj (Prod.mk.inj he).2))
            (hnew c' s hc')
        · exact (hcur c hc).cons nofun
  · rw [hh] at hx hr ⊢
    have hci : call ≠ i := by
      intro he
      have hun : Unsettled ((i, .sessionSaved session) :: w.history) call := by
        cases hx with
        | password _ _ _ hun | secondFactor _ _ _ hun | passwordless _ _ hun => exact hun
      exact hun.1 session (he ▸ .head _)
    have hr := hr.of_cons (fun he ↦ absurd he hci) fun s now hused he ↦ by
      obtain ⟨-, c, hc⟩ := hgen.usedUp call s now hused
      exact hnew c s hc (congrArg LoginSession.guid (Event.sessionSaved.inj he))
    exact (ht.calls call u checker hlive (hx.of_cons fun he ↦ absurd he hci) hr).cons nofun

theorem used {session row : LoginSession} {now : ℕ} (ht : Traced crypto live w)
    (hgen : Genuine crypto w.history w.sessions) (hl : live i)
    (hg : guard crypto i (.markSessionUsed session) w) (hrow : row ∈ w.sessions)
    (husable : World.usable session now row = true)
    (hh : w'.history = (i, .sessionUsed row now) :: w.history)
    (hs : w'.sessions = w.sessions.map (fun s ↦
      if World.usable session now s then { s with used := true } else s))
    (htokens : w'.tokens = w.tokens) : Traced crypto live w' := by
  have hready : Ready w.history i session := hg
  simp only [World.usable, Bool.and_eq_true, decide_eq_true_eq, Bool.not_eq_true'] at husable
  obtain ⟨⟨hguid, hunused⟩, -⟩ := husable
  obtain rfl : row = session := by
    obtain ⟨c, hc⟩ := hgen.row row hrow
    obtain ⟨c', hc'⟩ := hready.saved
    rw [← hunused] at hc
    exact (hgen.sessionId c c' row session hc hc' hguid).2
  refine ⟨ht.tokens_cons hh (by simp) (by simp) htokens, fun s hsm hsu h2 ↦ ?_,
    fun call u checker hlive hx hr ↦ ?_⟩
  · rw [hs] at hsm
    obtain ⟨s₀, hs₀, rfl⟩ := List.mem_map.mp hsm
    split at hsu
    · cases hsu
    · rename_i hnot
      rw [if_neg hnot] at h2 ⊢
      exact ht.sessions_cons hh (by simp) (by simp) hs₀ hsu h2
  · rw [hh] at hx hr ⊢
    by_cases hci : call = i
    · subst hci
      have hself : ∀ s t, (call, .sessionUsed s t) ∈ (call, .sessionUsed row now) :: w.history →
          s = row := by
        intro s t hm
        rcases List.mem_cons.mp hm with he | hm
        · cases he
          rfl
        · exact absurd hm (hready.noUse s t)
      cases hx with
      | password hp =>
        cases hp with
        | intro hreq hstd =>
          rw [hready.nonstandard _ hreq] at hstd
          cases hstd
      | secondFactor hused h2 hid =>
        obtain rfl := hself _ _ hused
        obtain ⟨hun, hcur⟩ := ht.sessions _ hrow hunused h2
        subst hid
        cases hr with
        | self => exact (hready.current hun).cons (by simp)
        | opener hused' _ hsaved =>
          obtain rfl := hself _ _ hused'
          exact (hcur _ (mem_of_ne hsaved (by simp))).cons (by simp)
      | @passwordless s ha hsole hun =>
        have ha : Asserted crypto w.history call s u := by
          cases ha with
          | intro hr hm hg hs hc hcu huser hid hd hv =>
            exact .intro hr hm hg (mem_of_ne hs (by simp)) (mem_of_ne hc (by simp)) hcu
              (mem_of_ne huser (by simp)) hid hd hv
        have hpk : row.method = .passkey := by
          cases ha with
          | intro hr hm _ hs => exact hready.sole _ s hr hs ▸ hm
        have hchecker : checker = call := by
          cases hr with
          | self => rfl
          | opener hused' h2 =>
            rw [hself _ _ hused', hpk] at h2
            cases h2
        rw [hchecker]
        exact (ht.calls call u call hl (.passwordless ha (fun o s t hm ↦ hsole o s t (.tail _ hm))
          hun.of_cons) .self).cons (by simp)
    · have hr := hr.of_cons (fun he ↦ absurd he hci) fun s t _ ↦ (by simp)
      exact (ht.calls call u checker hlive (hx.of_cons fun he ↦ absurd he hci) hr).cons (by simp)

theorem issued {user : User} {deviceId deviceUuid : Option String}
    {deviceInfo : Option DeviceInfoDto} {days : ℕ} {token : UserToken}
    (ht : Traced crypto live w) (hgen : Genuine crypto w.history w.sessions) (hl : live i)
    (hg : guard crypto i (.saveToken user deviceId deviceUuid deviceInfo days) w)
    (hf : w.fresh token.guid) (hid : token.jti = token.guid) (hu : token.userGuid = user.guid)
    (hh : w'.history = (i, .tokenSaved token) :: w.history) (hs : w'.sessions = w.sessions)
    (htokens : w'.tokens = token :: w.tokens) : Traced crypto live w' := by
  refine ⟨?_, fun s hsm hsu h2 ↦ ht.sessions_cons hh nofun nofun (hs ▸ hsm) hsu h2,
    fun call u checker hlive hx hr ↦ ?_⟩
  · rw [hh, htokens]
    intro call t earlier checker hsuf hrow hr
    refine Current.cons ?_ nofun
    rcases List.suffix_cons_iff.mp hsuf with he | hsuf
    · cases he
      rw [hu]
      obtain ⟨hgr, hun⟩ := hg
      rcases hgr.exposed hgen hun with ⟨hnr, hnu⟩ | hx
      · rw [hr.of_noUse hnu]
        exact .of_noRead hnr
      · exact ht.calls i user.guid checker hl hx hr
    · refine ht.tokens call t earlier checker hsuf ?_ hr
      have hold : (call, .tokenSaved t) ∈ w.history := mem_of_suffix hsuf
      obtain ⟨row, hm, hrow⟩ := hrow
      rcases List.mem_cons.mp hm with rfl | hm
      · have ht' := hgen.tokenId call t hold
        exact absurd (congrArg some ((ht'.symm.trans hrow.2.1.symm).trans hid)) (hf _ hold)
      · exact ⟨row, hm, hrow⟩
  · rw [hh] at hx hr ⊢
    have hci : call ≠ i := by
      intro he
      have hun : Unsettled ((i, .tokenSaved token) :: w.history) call := by
        cases hx with
        | password _ _ _ hun | secondFactor _ _ _ hun | passwordless _ _ hun => exact hun
      exact hun.2 token (he ▸ .head _)
    have hr := hr.of_cons (fun he ↦ absurd he hci) fun s now _ ↦ nofun
    exact (ht.calls call u checker hlive (hx.of_cons fun he ↦ absurd he hci) hr).cons nofun

theorem revoked {userGuids : List String} (ht : Traced crypto live w)
    (hcare : ∀ u ∈ userGuids, ∀ call, live call → ¬Exposed crypto w.history call u)
    (hh : w'.history = (i, .revoked userGuids) :: w.history)
    (hs : w'.sessions = (w.revokeActiveTokens userGuids).sessions)
    (htokens : w'.tokens = (w.revokeActiveTokens userGuids).tokens) : Traced crypto live w' := by
  refine ⟨fun call token earlier checker hsuf hrow hr ↦ ?_, fun s hsm hsu h2 ↦ ?_,
    fun call u checker hlive hx hr ↦ ?_⟩
  · rw [hh] at hsuf ⊢
    rw [htokens] at hrow
    obtain ⟨row, hm, hu, hj, hrev⟩ := hrow
    obtain ⟨t, ht', rfl⟩ := List.mem_map.mp hm
    split at hrev
    · cases hrev
    · rename_i hnot
      rw [if_neg hnot] at hu hj
      rw [hu] at hnot
      exact (ht.tokens call token earlier checker (suffix_of_ne hsuf nofun) ⟨t, ht', hu, hj, hrev⟩
        hr).cons_revoked hnot
  · rw [hs] at hsm
    obtain ⟨hsm, hkept⟩ := List.mem_filter.mp hsm
    have hnot : s.userGuid ∉ userGuids := by simpa [hsu] using hkept
    obtain ⟨hun, hcur⟩ := ht.sessions s hsm hsu h2
    rw [hh]
    refine ⟨unfollowed_cons.mpr ⟨fun hr ↦ ?_, hun⟩, fun c hm ↦
      (hcur c (mem_of_ne hm nofun)).cons_revoked hnot⟩
    obtain ⟨guids, heq, hmem⟩ := hr
    exact absurd (Event.revoked.inj heq ▸ hmem) hnot
  · rw [hh] at hx hr ⊢
    have hx := hx.of_cons fun _ ↦ ⟨fun _ he ↦ (by cases he), fun _ _ he ↦ (by cases he),
      fun _ he ↦ (by cases he), fun _ he ↦ (by cases he)⟩
    have hr := hr.of_cons (fun _ _ _ he ↦ (by cases he)) fun _ _ _ he ↦ (by cases he)
    have hnot : u ∉ userGuids := fun hu ↦ hcare u hu call hlive hx
    exact (ht.calls call u checker hlive hx hr).cons_revoked hnot

theorem step {c : Command} (ht : Traced crypto live w)
    (hgen : Genuine crypto w.history w.sessions) (hl : live i) (hg : guard crypto i c w)
    (he : Effect i w c w')
    (hcare : ∀ userGuids, w'.history = (i, .revoked userGuids) :: w.history →
      ∀ u ∈ userGuids, ∀ call, live call → ¬Exposed crypto w.history call u) :
    Traced crypto live w' := by
  cases he with
  | quiet hh hn =>
    refine ⟨fun call token earlier checker hsuf hrow hr ↦ ?_, fun s hsm hsu h2 ↦ ?_, ?_⟩
    · rw [hh] at hsuf ⊢
      obtain ⟨row, hm, hu, hj, hrev⟩ := hrow
      obtain ⟨t, hm, rfl | rfl⟩ := hn.tokens row hm
      · exact ht.tokens call token earlier checker hsuf ⟨row, hm, hu, hj, hrev⟩ hr
      · cases hrev
    · rw [hh]
      obtain ⟨s₀, hm, rfl | rfl⟩ := hn.sessions s hsm
      · exact ht.sessions s hm hsu h2
      · cases hsu
    · rw [hh]
      exact ht.calls
  | noted hn hh hs htokens => exact ht.noted hg hn hh hs htokens
  | saved hf hu hm _ hh hs htokens => exact ht.saved hgen hl hg hf hu hm hh hs htokens
  | used hr hu hh hs htokens => exact ht.used hgen hl hg hr hu hh hs htokens
  | issued hf hid hu hh hs htokens => exact ht.issued hgen hl hg hf hid hu hh hs htokens
  | revoked hh hs htokens => exact ht.revoked (hcare _ hh) hh hs htokens

theorem anti {live' : Call → Prop} (ht : Traced crypto live w) (h : ∀ call, live' call → live call) :
    Traced crypto live' w :=
  { ht with calls := fun call u checker hl ↦ ht.calls call u checker (h call hl) }

end Traced

theorem Exposed.exists_event {crypto : Crypto} {h : History} {call : Call} {u : String}
    (hx : Exposed crypto h call u) : ∃ event, (call, event) ∈ h := by
  cases hx with
  | password hp =>
    cases hp with
    | intro _ _ _ _ _ _ hm => exact ⟨_, hm⟩
  | secondFactor hm => exact ⟨_, hm⟩
  | passwordless ha =>
    cases ha with
    | intro _ _ _ hm => exact ⟨_, hm⟩

/-- The calls that have a command to perform. -/
def Live (cfg : Config Call Command Reply World) (call : Call) : Prop :=
  ∃ p, cfg.threads call = some p ∧ p.next.isSome

section Runs

variable {crypto : Crypto} {users : List User} {credentials : List PasskeyCredential}
  {resetTokens : List PasswordResetToken} {cfg cfg' : Config Call Command Reply World}

theorem traced_initial : Traced crypto (Live (Machine.idle (World.initial users credentials
    resetTokens))) (World.initial users credentials resetTokens) := by
  refine ⟨fun _ _ _ _ hs ↦ ?_, fun _ hs ↦ (List.not_mem_nil hs).elim, fun _ _ _ hl ↦ ?_⟩
  · exact (List.not_mem_nil (mem_of_suffix hs)).elim
  · obtain ⟨p, hp, -⟩ := hl
    cases hp

theorem live_update {threads : Call → Option (Prog Command Reply Unit)} {w w' : World} {i : Call}
    {p : Option (Prog Command Reply Unit)} (hi : Live ⟨threads, w⟩ i) :
    ∀ call, Live ⟨update threads i p, w'⟩ call → Live ⟨threads, w⟩ call := by
  intro call ⟨q, hq, hn⟩
  by_cases hci : call = i
  · exact hci ▸ hi
  · exact ⟨q, by simpa only [update_of_ne hci] using hq, hn⟩

theorem traced_step (hv : (logic crypto).Verified cfg) (ht : Traced crypto (Live cfg) cfg.world)
    (hs : (machine crypto).Step cfg cfg') (hc : Careful crypto cfg cfg') :
    Traced crypto (Live cfg') cfg'.world := by
  have hcare : ∀ i userGuids, cfg'.world.history = (i, .revoked userGuids) :: cfg.world.history →
      ∀ u ∈ userGuids, ∀ call, Live cfg call → ¬Exposed crypto cfg.world.history call u :=
    fun i userGuids hh u hu call ⟨p, hp, hn⟩ ↦ hc i userGuids hh u hu call p hp hn
  cases hs with
  | @spawn threads w i p hi ha =>
    refine { ht with calls := fun call u checker hl hx hr ↦ ?_ }
    by_cases hci : call = i
    · obtain ⟨event, hm⟩ := hx.exists_event
      exact absurd (hci ▸ hm) (ha.1 event)
    · obtain ⟨q, hq, hn⟩ := hl
      exact ht.calls call u checker ⟨q, by simpa only [update_of_ne hci] using hq, hn⟩ hx hr
  | @reply threads w w' i c k o r hi he =>
    have hl : Live ⟨threads, w⟩ i := ⟨_, hi, rfl⟩
    have heff : Effect i w c w' := by
      have h := @exec_effect crypto i c o w
      rwa [show exec crypto i c o w = (w', some r) from he] at h
    exact (ht.step hv.1 hl (hv.guard hi) heff (hcare i)).anti (live_update hl)
  | @abort threads w w' i c k o hi he =>
    have hl : Live ⟨threads, w⟩ i := ⟨_, hi, rfl⟩
    have heff : Effect i w c w' := by
      have h := @exec_effect crypto i c o w
      rwa [show exec crypto i c o w = (w', none) from he] at h
    exact (ht.step hv.1 hl (hv.guard hi) heff (hcare i)).anti (live_update hl)
  | @stop threads w i =>
    refine ht.anti fun call ⟨q, hq, hn⟩ ↦ ?_
    have hq : update threads i none call = some q := hq
    by_cases hci : call = i
    · rw [hci, update_self] at hq
      cases hq
    · exact ⟨q, by simpa only [update_of_ne hci] using hq, hn⟩

theorem traced_reachable (hr : (machine crypto).RunWhere (Careful crypto)
    (Machine.idle (World.initial users credentials resetTokens)) cfg) :
    Traced crypto (Live cfg) cfg.world := by
  induction hr with
  | refl => exact traced_initial
  | tail hrun hs ih => exact traced_step (verified_reachable (Machine.RunWhere.run hrun)) ih hs.1 hs.2

theorem accepted_row {w : World} {token : UserToken} (ha : Accepted crypto w token) :
    ∃ t ∈ w.tokens, t.userGuid = token.userGuid ∧ t.jti = token.jti ∧ t.isRevoked = false := by
  obtain ⟨jwt, now, payload, hv, hsub, hjti⟩ := ha
  simp only [validateToken, Option.bind_eq_bind, Option.bind_eq_some_iff] at hv
  obtain ⟨p, -, hv⟩ := hv
  split at hv
  · cases hv
  · split at hv
    · rename_i hany
      obtain ⟨t, hm, ht⟩ := List.any_eq_true.mp hany
      simp only [Bool.and_eq_true, decide_eq_true_eq, Bool.not_eq_true'] at ht
      obtain rfl := Option.some.inj hv
      exact ⟨t, hm, ht.1.1.trans hsub, ht.1.2.trans hjti, ht.2⟩
    · cases hv

/-- As long as no revocation of a user commits while a running call is exposed
for that user, every revocation is complete. -/
theorem careful_revocation_complete (hr : (machine crypto).RunWhere (Careful crypto)
    (Machine.idle (World.initial users credentials resetTokens)) cfg) :
    RevocationComplete crypto cfg.world :=
  fun call token earlier checker hs hrests ha ↦
    (traced_reachable hr).tokens call token earlier checker hs (accepted_row ha) hrests

end Runs

section Sample

def plainUser : User := { sampleUser with tfaSecret := none }

def plainWorld : World := World.initial [plainUser] [] []

def forceLogoutCall : Call := ⟨2, .forceLogout ["u1"] "admin"⟩

/-- The first `n` commands of a login. It performs six. -/
def loginPlayed (n : ℕ) : Option (Prog Command Reply Unit) × World :=
  (machine sampleCrypto).play passwordLogin (List.replicate n (sampleChoice "t1"))
    (handler sampleCrypto passwordLogin.request) plainWorld

/-- A forced logout after the first `n` commands of the login. -/
def logoutPlayed (n : ℕ) : Option (Prog Command Reply Unit) × World :=
  (machine sampleCrypto).play forceLogoutCall [sampleChoice ""]
    (handler sampleCrypto forceLogoutCall.request) (loginPlayed n).2

/-- The rest of a login that the logout interrupted. -/
def latePlayed : Option (Prog Command Reply Unit) × World :=
  (machine sampleCrypto).play passwordLogin (List.replicate 2 (sampleChoice "t1"))
    ((loginPlayed 4).1.getD (.done ())) (logoutPlayed 4).2

def plainToken : UserToken :=
  ⟨"t1", "u1", "t1", none, none, none, none, none, 2592000000, false⟩

def loginThreads (n : ℕ) : Call → Option (Prog Command Reply Unit) :=
  update (fun _ ↦ none) passwordLogin (loginPlayed n).1

theorem loginThreads_logout (n : ℕ) : loginThreads n forceLogoutCall = none :=
  update_of_ne (by decide) ..

theorem loginPlayed_absent {n : ℕ} (h : (loginPlayed n).2.history.all (·.1 ≠ forceLogoutCall)) :
    ∀ event, (forceLogoutCall, event) ∉ (loginPlayed n).2.history := by
  intro event hm
  simpa using List.all_eq_true.mp h _ hm

/-- A forced logout commits between the password check of a login and the save
of its token: validation accepts the token afterwards. -/
theorem revocation_incomplete : ∃ cfg, (machine sampleCrypto).Run (Machine.idle plainWorld) cfg ∧
    ¬RevocationComplete sampleCrypto cfg.world := by
  have hlogin : (machine sampleCrypto).Run (Machine.idle plainWorld)
      ⟨loginThreads 4, (loginPlayed 4).2⟩ :=
    (machine sampleCrypto).start_run passwordLogin _ rfl ⟨fun _ h ↦ List.not_mem_nil h, rfl⟩
  have hlogout := (machine sampleCrypto).start_run forceLogoutCall [sampleChoice ""]
    (loginThreads_logout 4) ⟨loginPlayed_absent (n := 4) (by decide +kernel), rfl⟩
  have hrunning : update (loginThreads 4) forceLogoutCall (logoutPlayed 4).1 passwordLogin =
      some ((loginPlayed 4).1.getD (.done ())) := by
    rw [update_of_ne (by decide), loginThreads, update_self]
    exact (Option.some_get (x := (loginPlayed 4).1) rfl).symm
  have hlate := (machine sampleCrypto).play_run passwordLogin
    (List.replicate 2 (sampleChoice "t1")) _ (logoutPlayed 4).2 _ hrunning
  refine ⟨_, (hlogin.trans hlogout).trans hlate, fun hcomplete ↦ ?_⟩
  have hh : latePlayed.2.history = [(passwordLogin, .tokenSaved plainToken),
      (forceLogoutCall, .revoked ["u1"]), (passwordLogin, .userRead plainUser)] := by
    decide +kernel
  have hv : validateToken sampleCrypto latePlayed.2 "t1" 0 =
      some ⟨"u1", "alice", none, false, none, "t1"⟩ := by decide +kernel
  have hcurrent := hcomplete passwordLogin plainToken _ passwordLogin ⟨[], hh.symm⟩ .self
    ⟨"t1", 0, _, hv, rfl, rfl⟩
  exact hcurrent (forceLogoutCall, .revoked ["u1"]) [(passwordLogin, .userRead plainUser)]
    ⟨[_], hh.symm⟩ ⟨_, rfl, .head _⟩ _ (.head _) ⟨plainUser, rfl, rfl⟩

/-- The steps that commit no revocation. -/
def unrevoking (_ w' : World) : Bool :=
  match w'.history with
  | (_, .revoked _) :: _ => false
  | _ => true

theorem careful_of_unrevoking {crypto : Crypto} (cfg cfg' : Config Call Command Reply World)
    (h : unrevoking cfg.world cfg'.world = true) : Careful crypto cfg cfg' := by
  intro actor userGuids hh
  rw [unrevoking, hh] at h
  cases h

theorem loginPlayed_done : (loginPlayed 6).1 = some (.done ()) := rfl

/-- By the time the login has ended no call but the logout is running. -/
theorem late_logout_careful (cfg' : Config Call Command Reply World) : Careful sampleCrypto
    ⟨update (loginThreads 6) forceLogoutCall (some (handler sampleCrypto forceLogoutCall.request)),
      (loginPlayed 6).2⟩ cfg' := by
  intro actor userGuids _ u _ call p hp hn hx
  by_cases hcl : call = forceLogoutCall
  · obtain ⟨event, hm⟩ := hx.exists_event
    have ha := loginPlayed_absent (n := 6) (by decide +kernel)
    exact ha event (hcl ▸ hm)
  · have hp : loginThreads 6 call = some p := by simpa only [update_of_ne hcl] using hp
    by_cases hcp : call = passwordLogin
    · rw [hcp, loginThreads, update_self, loginPlayed_done] at hp
      obtain rfl := Option.some.inj hp
      cases hn
    · rw [loginThreads, update_of_ne hcp] at hp
      cases hp

/-- A forced logout after the login is complete: its token is refused. -/
theorem late_logout_complete : RevocationComplete sampleCrypto (logoutPlayed 6).2 := by
  have hstart : (machine sampleCrypto).RunWhere (Careful sampleCrypto) (Machine.idle plainWorld)
      ⟨update (fun _ ↦ none) passwordLogin (some (handler sampleCrypto passwordLogin.request)),
        plainWorld⟩ :=
    .single ⟨.spawn rfl ⟨fun _ h ↦ List.not_mem_nil h, rfl⟩, careful_of_unrevoking _ _ rfl⟩
  have hlogin := (machine sampleCrypto).play_runWhere passwordLogin
    (@careful_of_unrevoking sampleCrypto) (List.replicate 6 (sampleChoice "t1")) _
    plainWorld (update (fun _ ↦ none) passwordLogin
      (some (handler sampleCrypto passwordLogin.request))) (update_self ..) (by decide +kernel)
  rw [update_idem] at hlogin
  have hspawn : (machine sampleCrypto).RunWhere (Careful sampleCrypto)
      ⟨loginThreads 6, (loginPlayed 6).2⟩ ⟨update (loginThreads 6) forceLogoutCall
        (some (handler sampleCrypto forceLogoutCall.request)), (loginPlayed 6).2⟩ :=
    .single ⟨.spawn (loginThreads_logout 6) ⟨loginPlayed_absent (by decide +kernel), rfl⟩,
      careful_of_unrevoking _ _ (by decide +kernel)⟩
  have hlogout : (machine sampleCrypto).Step
      ⟨update (loginThreads 6) forceLogoutCall
        (some (handler sampleCrypto forceLogoutCall.request)), (loginPlayed 6).2⟩
      ⟨update (update (loginThreads 6) forceLogoutCall
        (some (handler sampleCrypto forceLogoutCall.request))) forceLogoutCall (some (.done ())),
        (logoutPlayed 6).2⟩ :=
    .reply (sampleChoice "") (c := .forceLogout ["u1"] "admin") (k := fun _ ↦ .done ())
      (update_self ..) rfl
  exact careful_revocation_complete
    (((hstart.trans hlogin).trans hspawn).tail ⟨hlogout, late_logout_careful _⟩)

end Sample

end RustdeskConsole.Auth
