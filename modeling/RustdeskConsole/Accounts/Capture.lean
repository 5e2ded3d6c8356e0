import RustdeskConsole.Accounts.Administered
import RustdeskConsole.Auth.Login

namespace RustdeskConsole.Accounts

open Auth (LoginDto LdapUserInfo truthy)
open Effects Effects.History

/-- The columns of an account that the login flows read. -/
def User.login (user : User) : Auth.User where
  guid := user.guid
  username := user.username
  displayName := user.displayName
  email := user.email
  password := user.password
  note := user.note.getD ""
  status := user.status
  isAdmin := user.isAdmin
  tfaSecret := user.tfaSecret
  info := ⟨user.getUserInfo.emailVerification.getD false,
    (user.getUserInfo.other.bind (·.passkeyTfaEnabled)).getD false, user.isEnforced⟩
  thirdAuthType := user.thirdAuthType
  oidcSubject := user.oidcSubject

section Subjects

/-- Some account is linked to the external identity. -/
def Linked (users : List User) (subject : String) : Prop :=
  ∃ u ∈ users, u.oidcSubject = some subject

/-- A login that presented the identity created an account. -/
def Presented (h : History) (subject : String) : Prop :=
  ∃ call user, (call, .created user) ∈ h ∧ call.request.subject = some subject

/-- An LDAP login of a directory user of that name created an account. -/
def Provisioned (h : History) (username : String) : Prop :=
  ∃ call user info, (call, .created user) ∈ h ∧ call.request = .ldapLogin info ∧
    info.username = username

theorem ldap_inj {a b : String} (h : "ldap:" ++ a = "ldap:" ++ b) : a = b := by
  have hl := congrArg String.toList h
  simp only [String.toList_append, List.append_cancel_left_eq, String.toList_inj] at hl
  exact hl

theorem ldap_ne_oidc {a b : String} : "oidc:" ++ a ≠ "ldap:" ++ b := by
  intro h
  have hl := congrArg String.toList h
  simp at hl

theorem presented_ldap {h : History} {username : String} :
    Presented h ("ldap:" ++ username) ↔ Provisioned h username := by
  constructor
  · intro ⟨call, user, hm, hs⟩
    cases hr : call.request with
    | ldapLogin info =>
      rw [hr] at hs
      exact ⟨call, user, info, hm, hr, ldap_inj (Option.some.inj hs)⟩
    | oidcLogin userInfo providerName =>
      rw [hr, Request.subject, String.append_assoc, String.append_assoc] at hs
      exact absurd (Option.some.inj hs) ldap_ne_oidc
    | _ =>
      rw [hr] at hs
      cases hs
  · intro ⟨call, user, info, hm, hr, hn⟩
    exact ⟨call, user, hm, by rw [hr, Request.subject, hn]⟩

variable {call : Call} {c : Command} {w w' : World} {subject : String}

theorem linked_map {changes : List Change}
    (hk : ∀ change ∈ changes, change.saved.oidcSubject = change.loaded.oidcSubject) :
    Linked (w.users.map (applyChanges changes)) subject ↔ Linked w.users subject := by
  have hsame : ∀ u, (applyChanges changes u).oidcSubject = u.oidcSubject := by
    intro u
    rw [applyChanges]
    split
    · rename_i change hc
      exact if_pos (hk change (Field.changeOf_spec hc).1)
    · rfl
  constructor
  · rintro ⟨u', hm, hs⟩
    obtain ⟨u, hu, rfl⟩ := List.mem_map.mp hm
    exact ⟨u, hu, (hsame u).symm.trans hs⟩
  · rintro ⟨u, hm, hs⟩
    exact ⟨_, List.mem_map_of_mem hm, (hsame u).trans hs⟩

/-- Accounts are linked to the identities that created them. -/
theorem linked_step (hg : guard call c w) (he : Effect call w c w')
    (hi : Linked w.users subject ↔ Presented w.history subject) :
    Linked w'.users subject ↔ Presented w'.history subject := by
  have hquiet : ∀ event, (∀ user, event ≠ .created user) →
      (Presented ((call, event) :: w.history) subject ↔ Presented w.history subject) := by
    intro event hne
    constructor
    · intro ⟨c', user, hm, hs⟩
      rcases List.mem_cons.mp hm with heq | hm
      · exact absurd (Prod.mk.inj heq).2.symm (hne user)
      · exact ⟨c', user, hm, hs⟩
    · intro ⟨c', user, hm, hs⟩
      exact ⟨c', user, .tail _ hm, hs⟩
  cases he with
  | quiet hu _ hh => rw [hu, hh, hi]
  | noted event hs _ hu _ hh =>
    have hne : ∀ user, event ≠ .created user := by
      intro user heq
      rw [heq] at hs
      cases hs
    rw [hu, hh, hquiet event hne, hi]
  | created user hf hu hq hd hh hc =>
    obtain ⟨draft, rfl, hdraft⟩ := hc
    have hsub : user.oidcSubject = call.request.subject := by
      rw [hdraft]
      exact hg
    rw [hu, hh]
    constructor
    · intro ⟨u, hm, hs⟩
      rcases List.mem_cons.mp hm with rfl | hm
      · exact ⟨call, u, .head _, hsub.symm.trans hs⟩
      · obtain ⟨c', user', hm', hs'⟩ := hi.mp ⟨u, hm, hs⟩
        exact ⟨c', user', .tail _ hm', hs'⟩
    · intro ⟨c', user', hm, hs⟩
      rcases List.mem_cons.mp hm with heq | hm
      · obtain ⟨rfl, heq⟩ := Prod.mk.inj heq
        exact ⟨user, .head _, hsub.trans hs⟩
      · obtain ⟨u, hm', hs'⟩ := hi.mpr ⟨c', user', hm, hs⟩
        exact ⟨u, .tail _ hm', hs'⟩
  | wrote event hw hu _ _ hh =>
    have hne : ∀ user, event ≠ .created user := by
      intro user heq
      rw [heq] at hw
      cases hw
    rw [hu, hh, linked_map fun change hm ↦ (licensed_of_writes hw hg change hm).subject,
      hquiet event hne, hi]

theorem linked_reachable {platform : Platform} {w₀ : World}
    {cfg : Config Call Command Reply World} (hb : w₀.Blank)
    (hlocal : ∀ u ∈ w₀.users, u.oidcSubject = none)
    (hr : (machine platform).Run (Machine.idle w₀) cfg) (subject : String) :
    Linked cfg.world.users subject ↔ Presented cfg.world.history subject := by
  induction hr with
  | refl =>
    constructor
    · intro ⟨u, hm, hs⟩
      rw [hlocal u hm] at hs
      cases hs
    · intro ⟨call, user, hm, _⟩
      have hm : (call, .created user) ∈ w₀.history := hm
      rw [hb.history] at hm
      cases hm
  | tail hrun hs ih =>
    have hv := verified_reachable hb hrun
    rcases Logic.Leaves.step_cases (Q := fun _ _ ↦ True) hv hs with hw | ⟨call, c, o, hg, hw⟩
    · exact hw ▸ ih
    · exact hw ▸ linked_step hg exec_effect ih

end Subjects

section Login

open Auth (Crypto)
open Auth.AuthService

/-- What the LDAP server answers. -/
structure Directory where
  search : String → Except Auth.Failure LdapUserInfo
  bind : String → String → Except Auth.Failure Unit

/-- The directory rejects the username with the password. -/
def Directory.Rejects (d : Directory) (username password : String) : Prop :=
  ∀ info, d.search username = .ok info → ∃ failure, d.bind info.dn password = .error failure

/-- The choices of the world in which the directory answers. -/
def Directory.Answers (d : Directory) : Auth.Command → Auth.Choice → Prop
  | .searchLdapUser username, o => o.ldapInfo = d.search username
  | .bindLdapUser dn password, o => o.outcome = d.bind dn password
  | _, _ => True

variable (crypto : Crypto) (d : Directory) (call : Auth.Call) {α : Type}

/-- Whatever the world chooses, the program goes on and comes to `T`. -/
def Leads (T : Prog Auth.Command Auth.Reply α → Auth.World → Prop) :
    Prog Auth.Command Auth.Reply α → Auth.World → Prop
  | .done a, w => T (.done a) w
  | .call c k, w => T (.call c k) w ∨ ∀ o, d.Answers c o →
    ∃ w' r, Auth.exec crypto call c o w = (w', some r) ∧ Leads T (k r) w'

/-- The program has become `p`, and the accounts are as they were. -/
def Becomes (p : Prog Auth.Command Auth.Reply α) (w : Auth.World)
    (q : Prog Auth.Command Auth.Reply α) (w' : Auth.World) : Prop :=
  q = p ∧ w'.users = w.users

variable {crypto d call} {T T' : Prog Auth.Command Auth.Reply α → Auth.World → Prop}

theorem Leads.here {p : Prog Auth.Command Auth.Reply α} {w : Auth.World} (h : T p w) :
    Leads crypto d call T p w := by
  cases p with
  | done a => exact h
  | call c k => exact .inl h

theorem Leads.trans {p : Prog Auth.Command Auth.Reply α} {w : Auth.World}
    (h : Leads crypto d call T p w)
    (hT : ∀ q w', T q w' → Leads crypto d call T' q w') : Leads crypto d call T' p w := by
  induction p generalizing w with
  | done a => exact hT _ w h
  | call c k ih =>
    rcases h with h | h
    · exact hT _ w h
    · refine .inr fun o ho ↦ ?_
      obtain ⟨w', r, he, hk⟩ := h o ho
      exact ⟨w', r, he, ih r hk⟩

variable {dto : LoginDto} {username password : String} {w : Auth.World}

/-- The choice in which the directory answers this command. -/
def Directory.answer (d : Directory) (dn password username : String) : Auth.Choice where
  now := 0
  uuid := ""
  text := ""
  flag := true
  days := 0
  config := ⟨"", "", [], false⟩
  ldapInfo := d.search username
  outcome := d.bind dn password
  change := ⟨[], [], [], fun _ ↦ false, fun _ ↦ true, fun _ ↦ false, fun _ ↦ true⟩

/-- A directory that rejects the credentials leaves an unlinked username to the
local login. -/
theorem leads_local (hu : truthy dto.username = some username)
    (hp : truthy dto.password = some password) (hr : d.Rejects username password)
    (hn : ¬∃ u ∈ w.users, u.oidcSubject = some ("ldap:" ++ username)) :
    Leads crypto d call (Becomes ((localLogin crypto username password
      ⟨dto.id, dto.uuid, dto.deviceInfo⟩).start ()) w) ((handleStandardLogin crypto dto).start ()) w := by
  have hlinked : (w.users.any fun u ↦ decide (u.oidcSubject = some ("ldap:" ++ username))) = false := by
    simpa using hn
  rw [handleStandardLogin, hu, hp]
  refine .inr fun o _ ↦ ⟨w, _, rfl, ?_⟩
  dsimp only
  rw [hlinked]
  refine .inr fun o _ ↦ ⟨w, _, rfl, ?_⟩
  cases o.flag with
  | false => exact .here ⟨rfl, rfl⟩
  | true =>
    refine .inr fun o _ ↦ ⟨w, _, rfl, ?_⟩
    cases o.flag with
    | false => exact .here ⟨rfl, rfl⟩
    | true =>
      refine .inr fun o ho ↦ ⟨_, _, rfl, ?_⟩
      have ho : o.ldapInfo = d.search username := ho
      rw [ho]
      cases hs : d.search username with
      | error failure => exact .here ⟨rfl, rfl⟩
      | ok info =>
        refine .inr fun o ho ↦ ⟨_, _, rfl, ?_⟩
        have ho : o.outcome = d.bind info.dn password := ho
        obtain ⟨failure, hb⟩ := hr info hs
        rw [ho, hb]
        exact .here ⟨rfl, rfl⟩

/-- The local login looks an account up first. -/
def looksUp : Option Auth.Command → Bool
  | some (.findUserByUsernameOrEmail _) => true
  | _ => false

theorem not_becomes {device : Auth.Device}
    {p : Prog Auth.Command Auth.Reply (Except Auth.Failure Auth.LoginResponse × Unit)}
    {w' : Auth.World} (hp : looksUp p.next = false) :
    ¬Becomes ((localLogin crypto username password device).start ()) w p w' := by
  intro h
  rw [h.1] at hp
  cases hp

/-- The execution in which the world chooses `o`. -/
theorem Leads.next {c : Auth.Command} {k : Auth.Reply c → Prog Auth.Command Auth.Reply α}
    {o : Auth.Choice} {w' : Auth.World} {r : Auth.Reply c}
    (h : Leads crypto d call T (.call c k) w) (hT : ¬T (.call c k) w) (ho : d.Answers c o)
    (he : Auth.exec crypto call c o w = (w', some r)) : Leads crypto d call T (k r) w' := by
  obtain ⟨w₁, r₁, he₁, hk⟩ := (h.resolve_left hT) o ho
  rw [he] at he₁
  obtain ⟨rfl, hr⟩ := Prod.mk.inj he₁
  exact Option.some.inj hr ▸ hk

/-- A linked username is never left to the local login. -/
theorem not_leads_local (hu : truthy dto.username = some username)
    (hp : truthy dto.password = some password) (hr : d.Rejects username password)
    (hl : ∃ u ∈ w.users, u.oidcSubject = some ("ldap:" ++ username)) :
    ¬Leads crypto d call (Becomes ((localLogin crypto username password
      ⟨dto.id, dto.uuid, dto.deviceInfo⟩).start ()) w) ((handleStandardLogin crypto dto).start ()) w := by
  have hlinked : (w.users.any fun u ↦ decide (u.oidcSubject = some ("ldap:" ++ username))) = true := by
    simpa using hl
  rw [handleStandardLogin, hu, hp]
  intro h
  have h₁ := Leads.next (o := d.answer "" "" "") h (not_becomes rfl) trivial rfl
  dsimp only at h₁
  rw [hlinked] at h₁
  have h₂ := Leads.next (o := d.answer "" "" "") h₁ (not_becomes rfl) trivial rfl
  have h₃ := Leads.next (o := d.answer "" "" username) h₂ (not_becomes rfl) rfl rfl
  have hans : (d.answer "" "" username).ldapInfo = d.search username := rfl
  rw [hans] at h₃
  cases hs : d.search username with
  | error failure =>
    rw [hs] at h₃
    exact not_becomes rfl h₃
  | ok info =>
    rw [hs] at h₃
    have h₄ := Leads.next (o := d.answer info.dn password "") h₃ (not_becomes rfl) rfl rfl
    obtain ⟨failure, hb⟩ := hr info hs
    have hans : (d.answer info.dn password "").outcome = d.bind info.dn password := rfl
    rw [hans, hb] at h₄
    exact not_becomes rfl h₄

/-- The local login of an active account with its password comes to the second
factor of that account. -/
theorem leads_secondFactor {user : Auth.User} {hash : String} {device : Auth.Device}
    (hf : (w.users.find? fun u ↦ u.username = username || u.email = some username) = some user)
    (hpw : user.password = some hash) (hc : crypto.compare password hash = true)
    (hs : user.status = .active) :
    Leads crypto d call (Becomes ((secondFactor crypto user device).start ()) w)
      ((localLogin crypto username password device).start ()) w := by
  refine .inr fun o _ ↦ ⟨w.record call (.userRead user), _, by rw [Auth.exec, hf]; rfl, ?_⟩
  obtain ⟨guid, name, displayName, email, stored, note, status, isAdmin, tfaSecret, info,
    thirdAuthType, oidcSubject⟩ := user
  obtain rfl : stored = some hash := hpw
  obtain rfl : status = .active := hs
  refine .inr fun o _ ↦ ⟨_, _, rfl, ?_⟩
  dsimp only
  rw [hc]
  exact .here ⟨rfl, rfl⟩

end Login

section Runs

variable {platform : Platform} {w₀ : World} {cfg : Config Call Command Reply World}

/-- The lookup of the only account that the string identifies. -/
theorem find?_login {users : List User} {u : User} {text : String} (hm : u ∈ users)
    (hi : World.identifiedBy text text u = true)
    (ho : ∀ v ∈ users, World.identifiedBy text text v = true → v = u) :
    ((users.map User.login).find? fun v ↦ v.username = text || v.email = some text) =
      some u.login := by
  rw [List.find?_map]
  have hf : users.find? (World.identifiedBy text text) = some u := by
    obtain ⟨v, hv⟩ := Option.isSome_iff_exists.mp (List.find?_isSome.mpr ⟨u, hm, hi⟩)
    rw [hv, ho v (List.mem_of_find?_eq_some hv) (List.find?_some hv)]
  exact congrArg (Option.map User.login) hf

theorem linked_login {users : List User} {subject : String} :
    (∃ u ∈ users.map User.login, u.oidcSubject = some subject) ↔ Linked users subject := by
  constructor
  · intro ⟨v, hv, hs⟩
    obtain ⟨u, hu, rfl⟩ := List.mem_map.mp hv
    exact ⟨u, hu, hs⟩
  · intro ⟨u, hu, hs⟩
    exact ⟨_, List.mem_map_of_mem hu, hs⟩

open Auth.AuthService in
/-- A local account is left to the local login, whatever the directory says of
its username, exactly if no directory user of that name has been provisioned. -/
theorem local_login_proceeds (hb : w₀.Blank) (hlocal : ∀ u ∈ w₀.users, u.oidcSubject = none)
    (hr : (machine platform).Run (Machine.idle w₀) cfg) {crypto : Auth.Crypto} {d : Directory}
    {call : Auth.Call} {w : Auth.World} (hw : w.users = cfg.world.users.map User.login)
    {u : User} (hm : u ∈ cfg.world.users) (hactive : u.status = .active) {dto : LoginDto}
    {password hash : String} (hu : truthy dto.username = some u.username)
    (hp : truthy dto.password = some password) (hpw : u.password = some hash)
    (hc : crypto.compare password hash = true) (hrej : d.Rejects u.username password) :
    (Leads crypto d call (Becomes ((localLogin crypto u.username password
        ⟨dto.id, dto.uuid, dto.deviceInfo⟩).start ()) w) ((handleStandardLogin crypto dto).start ()) w ↔
      ¬Provisioned cfg.world.history u.username) ∧
    (¬Provisioned cfg.world.history u.username →
      (∀ v ∈ cfg.world.users, World.identifiedBy u.username u.username v = true → v = u) →
      Leads crypto d call (Becomes ((secondFactor crypto u.login
        ⟨dto.id, dto.uuid, dto.deviceInfo⟩).start ()) w)
        ((handleStandardLogin crypto dto).start ()) w) := by
  have hlink : (∃ v ∈ w.users, v.oidcSubject = some ("ldap:" ++ u.username)) ↔
      Provisioned cfg.world.history u.username := by
    rw [hw, linked_login, linked_reachable hb hlocal hr, presented_ldap]
  have hlocal' : ¬Provisioned cfg.world.history u.username →
      Leads crypto d call (Becomes ((localLogin crypto u.username password
        ⟨dto.id, dto.uuid, dto.deviceInfo⟩).start ()) w)
        ((handleStandardLogin crypto dto).start ()) w := by
    intro hn
    exact leads_local hu hp hrej fun hl ↦ hn (hlink.mp hl)
  refine ⟨⟨fun h hprov ↦ not_leads_local hu hp hrej (hlink.mpr hprov) h, hlocal'⟩, fun hn ho ↦ ?_⟩
  refine (hlocal' hn).trans fun q w' ⟨hq, hus⟩ ↦ ?_
  have hf : (w'.users.find? fun v ↦ v.username = u.username || v.email = some u.username) =
      some u.login := by
    rw [hus, hw]
    exact find?_login hm (by simp [World.identifiedBy]) ho
  rw [hq]
  refine (leads_secondFactor hf hpw hc hactive).trans fun q' w'' ⟨hq', hus'⟩ ↦ ?_
  exact .here ⟨hq', hus'.trans hus⟩

end Runs

section Sample

def sampleCrypto : Auth.Crypto where
  compare password hash := hash = "hash:" ++ password
  hash password _ := "hash:" ++ password
  verifyTotp secret code _ := code = secret ++ "-code"
  verifyAssertion _ _ _ _ := none
  digest token := token
  signToken payload _ := payload.jti
  verifyToken jwt _ := some ⟨"u1", "alice", none, false, none, jwt⟩

/-- A directory in which nobody's password is right. -/
def sampleDirectory : Directory where
  search username := .ok ⟨"uid=" ++ username, username, none, none⟩
  bind _ _ := .error (.unauthorized "Incorrect username or password")

theorem sampleDirectory_rejects (username password : String) :
    sampleDirectory.Rejects username password := fun _ _ ↦ ⟨_, rfl⟩

def sampleAlice : User := { sampleUser "u1" "alice" .active with password := some "hash:secret" }

def sampleLocal : World := ⟨[sampleAlice], [], [], ["u1"], []⟩

theorem sampleLocal_blank : sampleLocal.Blank := by
  refine ⟨by simp [uniqueColumns, sampleLocal, sampleAlice, sampleUser], ?_, rfl⟩
  intro user hm
  rw [List.mem_singleton.mp hm]
  exact .head _

/-- An LDAP login of the directory user of the given name. -/
def sampleLdapLogin (name : String) : Call := ⟨0, .ldapLogin ⟨"uid=" ++ name, name, none, none⟩⟩

/-- The name found is the first one, or one with a suffix. -/
def sampleProvisioned (name : String) (count : ℕ) : Config Call Command Reply World :=
  (machine samplePlatform).schedule (fun call ↦ handler samplePlatform call.request) sampleFresh
    [(sampleLdapLogin name, List.replicate 5 { sampleChoice "n1" "s" with count := count })]
    (Machine.idle sampleLocal)

theorem sampleProvisioned_run (name : String) (count : ℕ) :
    (machine samplePlatform).Run (Machine.idle sampleLocal) (sampleProvisioned name count) :=
  Machine.schedule_run sampleFresh_admits _

def sampleLogin : LoginDto := ⟨none, some "alice", some "secret", none, none, none, none, none, none⟩

def sampleDevice : Auth.Device := ⟨sampleLogin.id, sampleLogin.uuid, sampleLogin.deviceInfo⟩

def sampleLogins (cfg : Config Call Command Reply World) : Auth.World :=
  Auth.World.initial (cfg.world.users.map User.login) [] []

theorem sampleLogins_users (cfg : Config Call Command Reply World) :
    (sampleLogins cfg).users = cfg.world.users.map User.login := rfl

/-- The account of a directory user who is called like a local account. -/
def sampleCaptor : User :=
  { sampleUser "n1" "alice_1" .active with
    note := some "LDAPUser"
    thirdAuthType := some "ldap"
    oidcSubject := some "ldap:alice"
    userGroupGuid := some "g1" }

section

open Auth.AuthService

theorem sampleLogin_refused {cfg : Config Call Command Reply World}
    (hl : Linked cfg.world.users ("ldap:" ++ "alice")) :
    ¬Leads sampleCrypto sampleDirectory ⟨0, .login sampleLogin⟩
      (Becomes ((localLogin sampleCrypto "alice" "secret" sampleDevice).start ())
        (sampleLogins cfg)) ((handleStandardLogin sampleCrypto sampleLogin).start ())
      (sampleLogins cfg) := by
  have hu : truthy sampleLogin.username = some "alice" := by decide
  have hp : truthy sampleLogin.password = some "secret" := by decide
  have hl' : ∃ u ∈ (sampleLogins cfg).users, u.oidcSubject = some ("ldap:" ++ "alice") :=
    linked_login.mpr hl
  exact not_leads_local hu hp (sampleDirectory_rejects "alice" "secret") hl'

/-- A directory user who is called like a local account locks it out. -/
theorem local_account_captured : ∃ w₀ cfg, w₀.Blank ∧ (∀ u ∈ w₀.users, u.oidcSubject = none) ∧
    (machine samplePlatform).Run (Machine.idle w₀) cfg ∧ sampleAlice ∈ cfg.world.users ∧
    sampleDirectory.Rejects "alice" "secret" ∧
    ¬Leads sampleCrypto sampleDirectory ⟨0, .login sampleLogin⟩
      (Becomes ((localLogin sampleCrypto "alice" "secret" sampleDevice).start ())
        (sampleLogins cfg)) ((handleStandardLogin sampleCrypto sampleLogin).start ())
      (sampleLogins cfg) := by
  have hm : sampleAlice ∈ (sampleProvisioned "alice" 1).world.users := by decide +kernel
  have hcaptor : sampleCaptor ∈ (sampleProvisioned "alice" 1).world.users := by decide +kernel
  have hn : ∀ u ∈ sampleLocal.users, u.oidcSubject = none := by decide
  have hs : sampleCaptor.oidcSubject = some ("ldap:" ++ "alice") := by decide +kernel
  exact ⟨sampleLocal, sampleProvisioned "alice" 1, sampleLocal_blank, hn,
    sampleProvisioned_run "alice" 1, hm, sampleDirectory_rejects "alice" "secret",
    sampleLogin_refused ⟨_, hcaptor, hs⟩⟩

end

open Auth.AuthService in
theorem sample_login_proceeds :
    Leads sampleCrypto sampleDirectory ⟨0, .login sampleLogin⟩
      (Becomes ((secondFactor sampleCrypto sampleAlice.login sampleDevice).start ())
        (sampleLogins (sampleProvisioned "carol" 0)))
      ((handleStandardLogin sampleCrypto sampleLogin).start ())
      (sampleLogins (sampleProvisioned "carol" 0)) := by
  have hm : sampleAlice ∈ (sampleProvisioned "carol" 0).world.users := by decide +kernel
  have hn : ∀ u ∈ sampleLocal.users, u.oidcSubject = none := by decide
  have hone : ((sampleProvisioned "carol" 0).world.users.all fun v ↦
      !World.identifiedBy "alice" "alice" v || v = sampleAlice) = true := by decide +kernel
  have ho : ∀ v ∈ (sampleProvisioned "carol" 0).world.users,
      World.identifiedBy "alice" "alice" v = true → v = sampleAlice := by
    intro v hv hi
    have hor := List.all_eq_true.mp hone v hv
    rw [hi] at hor
    exact of_decide_eq_true hor
  have hcalls : ∀ e ∈ (sampleProvisioned "carol" 0).world.history,
      e.1 = sampleLdapLogin "carol" := by decide +kernel
  have hnot : ¬Provisioned (sampleProvisioned "carol" 0).world.history sampleAlice.username := by
    intro ⟨call, user, info, hin, hr, hname⟩
    have hcall : call = sampleLdapLogin "carol" := hcalls _ hin
    rw [hcall] at hr
    have hinfo := Request.ldapLogin.inj hr
    rw [← hinfo] at hname
    have hne : "carol" ≠ "alice" := by decide
    exact hne hname
  have hcompare : sampleCrypto.compare "secret" "hash:secret" = true := by decide
  have hu : truthy sampleLogin.username = some sampleAlice.username := by decide
  have hp : truthy sampleLogin.password = some "secret" := by decide
  exact (local_login_proceeds sampleLocal_blank hn (sampleProvisioned_run "carol" 0)
    (sampleLogins_users _) hm rfl hu hp rfl hcompare (sampleDirectory_rejects _ _)).2 hnot ho

end Sample

end RustdeskConsole.Accounts
