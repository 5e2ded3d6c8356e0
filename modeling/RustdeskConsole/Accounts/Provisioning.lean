import Mathlib.Data.Set.Finite.Basic
import Mathlib.Data.String.Basic
import RustdeskConsole.Effects.Serial
import RustdeskConsole.Accounts.Service

namespace RustdeskConsole.Accounts

open Auth (LdapUserInfo truthy)
open Effects Handler

/-- Who a directory or a provider says is logging in. -/
inductive Identity
  | ldap (info : LdapUserInfo)
  | oidc (userInfo : OidcUserInfo) (providerName : String)

namespace Identity

def subject : Identity → String
  | ldap info => "ldap:" ++ info.username
  | oidc userInfo providerName => "oidc:" ++ providerName ++ ":" ++ userInfo.sub

/-- The email that a new account gets. -/
def email : Identity → Option String
  | ldap info => truthy info.email
  | oidc userInfo _ => if userInfo.emailVerified then userInfo.email else none

end Identity

section Provision

variable (platform : Platform)

def provision : Identity → Handler User
  | .ldap info => LdapService.findOrCreateUser info
  | .oidc userInfo providerName => OidcService.findOrCreateUser platform userInfo providerName

/-- A database that answers, with a default group for new users. -/
def workingMachine (userGroupGuid : String) : Machine Call Command Reply Choice World :=
  { machine platform with
    exec := fun call c o w ↦ exec platform call c { o with userGroupGuid := .ok userGroupGuid } w }

end Provision

/-- The identity is new, and a new uuid is not that of a user. -/
structure Unknown (identity : Identity) (w : World) : Prop where
  unique : uniqueColumns w.users
  drawn : ∀ user ∈ w.users, user.guid ∈ w.drawn
  subject : ∀ user ∈ w.users, user.oidcSubject ≠ some identity.subject

/-- One user more, linked to the identity, under a name that no other had. -/
def AccountCreated (identity : Identity) (w : World) (x : Except Failure User) (w' : World) : Prop :=
  ∃ user, x = .ok user ∧ user.oidcSubject = some identity.subject ∧
    (∀ other ∈ w.users, other.username ≠ user.username) ∧ w'.users = user :: w.users

/-- No user has the email of the new account. -/
def EmailFree (email : Option String) (w : World) : Prop :=
  ∀ text, email = some text → ∀ user ∈ w.users, user.email ≠ some text

variable {platform : Platform} {userGroupGuid : String} {call : Call} {identity : Identity}
  {w w' : World} {draft user : User} {username finalUsername uuid : String} {failure : Failure}
  {attempts suffix : ℕ}

section Insertion

theorem nodup_filterMap_cons {α : Type} {f : User → Option α} {users : List User}
    (h : (users.filterMap f).Nodup) : ((user :: users).filterMap f).Nodup ↔
      ∀ a, f user = some a → ∀ other ∈ users, f other ≠ some a := by
  cases hf : f user with
  | none => simpa [List.filterMap_cons_none hf] using h
  | some a =>
    rw [List.filterMap_cons_some hf, List.nodup_cons]
    simp only [List.mem_filterMap, not_exists, not_and, h, and_true, Option.some.injEq]
    constructor
    · rintro hno _ rfl other hm
      exact hno other hm
    · exact fun hno other hm ↦ hno a rfl other hm

/-- Of a new row, only the email can hit a unique index. -/
theorem uniqueColumns_cons (h : Unknown identity w) (hg : user.guid ∉ w.drawn)
    (hn : ∀ other ∈ w.users, other.username ≠ user.username)
    (hs : user.oidcSubject = some identity.subject) :
    uniqueColumns (user :: w.users) ↔ EmailFree user.email w := by
  obtain ⟨hguids, hnames, hemails, hsubjects⟩ := h.unique
  have hguid : ((user :: w.users).map (·.guid)).Nodup := by
    rw [List.map_cons, List.nodup_cons, List.mem_map]
    exact ⟨fun ⟨other, hm, heq⟩ ↦ hg (heq ▸ h.drawn other hm), hguids⟩
  have hname : ((user :: w.users).map (·.username)).Nodup := by
    rw [List.map_cons, List.nodup_cons, List.mem_map]
    exact ⟨fun ⟨other, hm, heq⟩ ↦ hn other hm heq, hnames⟩
  have hsubject : ((user :: w.users).filterMap (·.oidcSubject)).Nodup := by
    refine (nodup_filterMap_cons hsubjects).mpr fun subject heq other hm ↦ ?_
    rw [← heq, hs]
    exact h.subject other hm
  rw [uniqueColumns, nodup_filterMap_cons hemails]
  exact ⟨fun hall ↦ hall.2.2.1, fun hfree ↦ ⟨hguid, hname, hfree, hsubject⟩⟩

theorem Unknown.draw (h : Unknown identity w) :
    Unknown identity { w with drawn := uuid :: w.drawn } :=
  ⟨h.unique, fun user hm ↦ .tail _ (h.drawn user hm), h.subject⟩

/-- An insert under an unused name succeeds just when the email is free. -/
theorem insertUser_reply (call : Call) (draft : User) (h : Unknown identity w)
    (hs : draft.oidcSubject = some identity.subject)
    (hn : ∀ other ∈ w.users, other.username ≠ draft.username) (hd : uuid ∉ w.drawn) :
    (EmailFree draft.email w → ∃ w', w.insertUser call draft uuid =
      (w', some (.ok { draft with guid := uuid })) ∧
        w'.users = { draft with guid := uuid } :: w.users) ∧
    (¬ EmailFree draft.email w → w.insertUser call draft uuid =
      ({ w with drawn := uuid :: w.drawn }, some (.error .uniqueViolation))) := by
  have hiff : uniqueColumns ({ draft with guid := uuid } :: w.users) ↔ EmailFree draft.email w :=
    uniqueColumns_cons h hd hn hs
  constructor
  · intro hfree
    simp only [World.insertUser, World.writeUsers]
    rw [if_neg hd, if_pos (hiff.mpr hfree)]
    exact ⟨_, rfl, rfl⟩
  · intro htaken
    simp only [World.insertUser, World.writeUsers]
    rw [if_neg hd, if_neg fun hu ↦ htaken (hiff.mp hu)]
    rfl

end Insertion

section Names

theorem unusedUsername_spec {count : ℕ} {found : String × ℕ}
    (h : w.unusedUsername username finalUsername suffix count = some found) :
    ∀ other ∈ w.users, other.username ≠ found.1 := by
  rw [World.unusedUsername] at h
  by_cases hany : w.users.any (·.username = if count = 0 then finalUsername
      else username ++ "_" ++ toString (suffix + count - 1)) = true
  · simp only [if_pos hany, reduceCtorEq] at h
  · obtain rfl := Option.some.inj ((if_neg hany).symm.trans h)
    intro other hm heq
    exact hany (List.any_eq_true.mpr ⟨other, hm, decide_eq_true heq⟩)

theorem toString_injective {m n : ℕ} (h : toString m = toString n) : m = n := by
  have hdigits : Nat.toDigits 10 m = Nat.toDigits 10 n := String.ofList_injective h
  have hm : Nat.ofDigitChars 10 (Nat.toDigits 10 m) 0 = m :=
    Nat.ofDigitChars_toDigits (by omega) (by omega)
  rw [← hm, hdigits, Nat.ofDigitChars_toDigits (by omega) (by omega)]

theorem exists_not_mem {f : ℕ → String} (hf : Function.Injective f) (texts : List String) :
    ∃ n, f n ∉ texts := by
  by_contra! hall
  refine Set.infinite_range_of_injective hf (texts.finite_toSet.subset ?_)
  rintro _ ⟨n, rfl⟩
  exact hall n

/-- The search for a name ends: there are more suffixes than users. -/
theorem exists_unusedUsername : ∃ count found,
    w.unusedUsername username finalUsername suffix count = some found := by
  have hinj : Function.Injective fun n : ℕ ↦ username ++ "_" ++ toString (suffix + n) := by
    intro m n heq
    have hsum := toString_injective ((String.append_right_inj _).mp heq)
    omega
  obtain ⟨n, hn⟩ := exists_not_mem hinj (w.users.map (·.username))
  refine ⟨n + 1, (username ++ "_" ++ toString (suffix + n), suffix + (n + 1)), ?_⟩
  have hany : w.users.any (·.username = username ++ "_" ++ toString (suffix + n)) = false := by
    refine List.any_eq_false.mpr fun other hm heq ↦ hn ?_
    exact List.mem_map.mpr ⟨other, hm, of_decide_eq_true heq⟩
  simp only [World.unusedUsername, Nat.add_one_ne_zero, if_false, ← Nat.add_assoc,
    Nat.add_sub_cancel, hany, Bool.false_eq_true]

theorem exists_fresh (drawn : List String) : ∃ uuid, uuid ∉ drawn := by
  obtain ⟨n, hn⟩ := exists_not_mem (fun _ _ ↦ toString_injective) drawn
  exact ⟨toString n, hn⟩

end Names

section Creation

/-- What creating the account comes to: it succeeds just when the email is free. -/
def Created (identity : Identity) (email : Option String) (w : World) (x : Except Failure User)
    (w' : World) : Prop :=
  (EmailFree email w → AccountCreated identity w x w') ∧
    (¬EmailFree email w → ∃ failure, x = .error failure)

theorem findUnusedUsername_yields :
    Yields (workingMachine platform userGroupGuid) call
      (ask (.findUnusedUsername username finalUsername suffix)) w fun x w' ↦ w' = w ∧
        ∃ found, x = .ok found ∧ ∀ other ∈ w.users, other.username ≠ found.1 := by
  refine .invoke fun o w₁ r he ↦ ?_
  simp only [workingMachine, exec] at he
  split at he
  · next found hfound =>
    obtain ⟨rfl, hr⟩ := Prod.mk.inj he
    obtain rfl := Option.some.inj hr
    exact ⟨rfl, found, rfl, unusedUsername_spec hfound⟩
  · simp at he

theorem insertUser_yields (draft : User) (h : Unknown identity w)
    (hs : draft.oidcSubject = some identity.subject)
    (hn : ∀ other ∈ w.users, other.username ≠ draft.username) :
    Yields (workingMachine platform userGroupGuid) call (invoke (.insertUser draft) retryable) w
      fun x w' ↦
        (EmailFree draft.email w → ∃ user, x = .ok (some user) ∧
          AccountCreated identity w (.ok user) w') ∧
        (¬EmailFree draft.email w → x = .ok none ∧
          ∃ uuid, w' = { w with drawn := uuid :: w.drawn }) := by
  refine .invoke fun o w₁ r he ↦ ?_
  change w.insertUser call draft o.uuid = (w₁, some r) at he
  by_cases hd : o.uuid ∈ w.drawn
  · simp only [World.insertUser, if_pos hd, Prod.mk.injEq, reduceCtorEq, and_false] at he
  · obtain ⟨hfree, htaken⟩ := insertUser_reply call draft h hs hn hd
    refine ⟨fun hf ↦ ?_, fun hf ↦ ?_⟩
    · obtain ⟨w₂, hinsert, husers⟩ := hfree hf
      obtain ⟨rfl, hr⟩ := Prod.mk.inj (hinsert.symm.trans he)
      obtain rfl := Option.some.inj hr
      exact ⟨_, rfl, _, rfl, hs, hn, husers⟩
    · obtain ⟨rfl, hr⟩ := Prod.mk.inj ((htaken hf).symm.trans he)
      obtain rfl := Option.some.inj hr
      exact ⟨rfl, o.uuid, rfl⟩

theorem createExternalUser_yields (h : Unknown identity w)
    (hs : draft.oidcSubject = some identity.subject) :
    Yields (workingMachine platform userGroupGuid) call
      (createExternalUser draft username failure attempts finalUsername suffix) w fun x w' ↦
        (EmailFree draft.email w → attempts ≠ 0 → AccountCreated identity w x w') ∧
          (¬EmailFree draft.email w → ∃ failure, x = .error failure) := by
  induction attempts generalizing w finalUsername suffix with
  | zero => exact .throw ⟨fun _ hne ↦ absurd rfl hne, fun _ ↦ ⟨failure, rfl⟩⟩
  | succ attempts ih =>
    rw [createExternalUser]
    refine findUnusedUsername_yields.bind (fun found w₁ hfound ↦ ?_) fun e w₁ he ↦ ?_
    swap
    · obtain ⟨-, found, herror, -⟩ := he
      simp at herror
    obtain ⟨rfl, found', heq, hunused⟩ := hfound
    obtain rfl := Except.ok.inj heq
    refine (insertUser_yields { draft with username := found.1 } h hs hunused).bind
      (fun created w₂ hcreated ↦ ?_) fun e w₂ he ↦ ?_
    · by_cases hf : EmailFree draft.email w₁
      · obtain ⟨user, hok, hprovisioned⟩ := hcreated.1 hf
        obtain rfl := Except.ok.inj hok
        exact .pure ⟨fun _ _ ↦ hprovisioned, fun hno ↦ absurd hf hno⟩
      · obtain ⟨hnone, uuid, rfl⟩ := hcreated.2 hf
        obtain rfl := Except.ok.inj hnone
        exact (ih h.draw).mono fun x w' hx ↦ ⟨fun hno ↦ absurd hno hf, fun _ ↦ hx.2 hf⟩
    · exfalso
      by_cases hf : EmailFree draft.email w₁
      · obtain ⟨user, herror, -⟩ := he.1 hf
        simp at herror
      · simpa using (he.2 hf).1

/-- Left to itself, the creation ends. -/
theorem createExternalUser_completes (h : Unknown identity w)
    (hs : draft.oidcSubject = some identity.subject) : ∃ x w',
      Completes (workingMachine platform userGroupGuid) call
        (createExternalUser draft username failure attempts finalUsername suffix) w x w' := by
  induction attempts generalizing w finalUsername suffix with
  | zero => exact ⟨_, _, .throw⟩
  | succ attempts ih =>
    obtain ⟨count, found, hfound⟩ : ∃ count found,
      w.unusedUsername username finalUsername suffix count = some found := exists_unusedUsername
    obtain ⟨uuid, hd⟩ := exists_fresh w.drawn
    obtain ⟨hfree, htaken⟩ := insertUser_reply call { draft with username := found.1 } h hs
      (unusedUsername_spec hfound) hd
    let choice : Choice := ⟨0, uuid, "", count, false, .ok "", .ok ()⟩
    have hask : Completes (workingMachine platform userGroupGuid) call
        (ask (.findUnusedUsername username finalUsername suffix)) w (.ok found) w := by
      refine .invoke (o := choice) ?_
      simp only [workingMachine, exec, choice, hfound]
    rw [createExternalUser]
    by_cases hf : EmailFree draft.email w
    · obtain ⟨w', hinsert, -⟩ := hfree hf
      exact ⟨_, w', hask.bind ((Completes.invoke (o := choice) hinsert).bind .pure)⟩
    · have hinsert : Completes (workingMachine platform userGroupGuid) call
          (invoke (.insertUser { draft with username := found.1 }) retryable) w (.ok none)
          { w with drawn := uuid :: w.drawn } :=
        Serves.call (o := choice) (htaken hf) .done
      obtain ⟨x, w', hrest⟩ := ih h.draw
      exact ⟨x, w', hask.bind (hinsert.bind hrest)⟩

end Creation

section Provision

theorem Unknown.record (h : Unknown identity w) {event : Event} :
    Unknown identity (w.record call event) := ⟨h.unique, h.drawn, h.subject⟩

theorem lookup_evaluates (h : Unknown identity w) :
    Evaluates (workingMachine platform userGroupGuid) call
      (ask (.findUserBySubject identity.subject)) w (.ok none) (w.record call (.read [])) := by
  refine .invoke ⟨0, "", "", 0, false, .ok "", .ok ()⟩ fun o ↦ ?_
  have hnone : w.users.find? (·.oidcSubject = some identity.subject) = none :=
    List.find?_eq_none.mpr fun user hm heq ↦ h.subject user hm (of_decide_eq_true heq)
  change (w.record call (.read (w.users.find? _).toList), some (w.users.find? _)) = _
  rw [hnone]
  rfl

theorem resolve_evaluates :
    Evaluates (workingMachine platform userGroupGuid) call (resolveUserGroupGuid none) w
      (.ok userGroupGuid) w :=
  .invoke ⟨0, "", "", 0, false, .ok "", .ok ()⟩ fun _ ↦ rfl

theorem randomText_yields : Yields (workingMachine platform userGroupGuid) call (ask .randomText) w
    fun x w' ↦ w' = w ∧ ∃ text, x = .ok text := by
  refine .invoke fun o w' r he ↦ ?_
  obtain ⟨rfl, hr⟩ := Prod.mk.inj he
  exact ⟨rfl, r, rfl⟩

theorem created_of_yields {draft : User} (h : Unknown identity w)
    (hs : draft.oidcSubject = some identity.subject) (he : draft.email = identity.email) :
    Yields (workingMachine platform userGroupGuid) call
      (createExternalUser draft username failure 3 finalUsername suffix)
      (w.record call (.read [])) (Created identity identity.email w) :=
  (createExternalUser_yields h.record hs).mono fun _ _ hx ↦
    ⟨fun hf ↦ hx.1 (he ▸ hf) (by omega), fun hf ↦ hx.2 (he ▸ hf)⟩

theorem provision_yields (h : Unknown identity w) :
    Yields (workingMachine platform userGroupGuid) call (provision platform identity) w
      (Created identity identity.email w) := by
  cases identity with
  | ldap info =>
    refine (lookup_evaluates h).bind_yields (randomText_yields.bind (fun text w₁ hw₁ ↦ ?_)
      fun e w₁ hw₁ ↦ ?_)
    · obtain ⟨rfl, -⟩ := hw₁
      exact resolve_evaluates.bind_yields (created_of_yields h rfl rfl)
    · obtain ⟨-, text, herror⟩ := hw₁
      simp at herror
  | oidc userInfo providerName =>
    exact (lookup_evaluates h).bind_yields (resolve_evaluates.bind_yields
      (created_of_yields h rfl rfl))

theorem ends_bind {α β : Type} {M : Machine Call Command Reply Choice World} {p : Handler α}
    {f : α → Handler β} {a : α} (hp : Completes M call p w (.ok a) w')
    (hf : ∃ x w'', Completes M call (f a) w' x w'') :
    ∃ x w'', Completes M call (p >>= f) w x w'' := by
  obtain ⟨x, w'', hf⟩ := hf
  exact ⟨x, w'', hp.bind hf⟩

theorem provision_completes (h : Unknown identity w) : ∃ x w',
    Completes (workingMachine platform userGroupGuid) call (provision platform identity) w x w' := by
  cases identity with
  | ldap info =>
    have htext : Completes (workingMachine platform userGroupGuid) call (ask .randomText)
        (w.record call (.read [])) (.ok "") (w.record call (.read [])) :=
      .invoke (o := ⟨0, "", "", 0, false, .ok "", .ok ()⟩) rfl
    exact ends_bind (lookup_evaluates h).completes (ends_bind htext
      (ends_bind resolve_evaluates.completes (createExternalUser_completes h.record rfl)))
  | oidc userInfo providerName =>
    exact ends_bind (lookup_evaluates h).completes
      (ends_bind resolve_evaluates.completes (createExternalUser_completes h.record rfl))

end Provision

/-- Provisioning a new identity ends, and it ends with an account of its own just
when no user has the email that the account gets. -/
theorem provisioned_iff (platform : Platform) (userGroupGuid : String) (call : Call)
    (h : Unknown identity w) :
    (∃ x w', Completes (workingMachine platform userGroupGuid) call (provision platform identity) w
      x w') ∧
    ∀ x w', Completes (workingMachine platform userGroupGuid) call (provision platform identity) w
      x w' → (AccountCreated identity w x w' ↔ EmailFree identity.email w) := by
  refine ⟨provision_completes h, fun x w' hc ↦ ⟨fun hp ↦ ?_, (provision_yields h x w' hc).1⟩⟩
  by_contra hf
  obtain ⟨failure, rfl⟩ := (provision_yields h x w' hc).2 hf
  obtain ⟨user, hok, -⟩ := hp
  simp at hok

section Sample

def sampleProvider : Platform := ⟨fun _ _ ↦ false, fun _ _ ↦ "", fun _ _ _ ↦ false, id, fun _ ↦ true⟩

def sampleIdentity (email : String) : Identity :=
  .oidc ⟨"1", some email, true, some "ann", none, none⟩ "google"

def sampleGuest : Call := ⟨0, .oidcLogin ⟨"1", none, true, some "ann", none, none⟩ "google"⟩

def sampleAnn : World :=
  ⟨[{ newUser "ann" (some "ann@b.c") none none .active "g" with guid := "u" }], [], [], ["u"], []⟩

theorem sampleAnn_unknown (email : String) : Unknown (sampleIdentity email) sampleAnn where
  unique := by decide
  drawn := by decide
  subject user hm := by
    obtain rfl := List.mem_singleton.mp hm
    simp [newUser]

theorem sample_provisioned :
    (∃ x w', Completes (workingMachine sampleProvider "g") sampleGuest
      (provision sampleProvider (sampleIdentity "d@b.c")) sampleAnn x w') ∧
    ∀ x w', Completes (workingMachine sampleProvider "g") sampleGuest
      (provision sampleProvider (sampleIdentity "d@b.c")) sampleAnn x w' →
      (AccountCreated (sampleIdentity "d@b.c") sampleAnn x w' ↔
        EmailFree (sampleIdentity "d@b.c").email sampleAnn) :=
  provisioned_iff _ _ _ (sampleAnn_unknown _)

/-- A provider vouches for an email that a local account has. -/
theorem email_blocks : ¬ ∀ platform userGroupGuid call identity w x w', Unknown identity w →
    Completes (workingMachine platform userGroupGuid) call (provision platform identity) w x w' →
    AccountCreated identity w x w' := by
  intro hall
  obtain ⟨x, w', hc⟩ : ∃ x w', Completes (workingMachine sampleProvider "g") sampleGuest
    (provision sampleProvider (sampleIdentity "ann@b.c")) sampleAnn x w' :=
    provision_completes (sampleAnn_unknown "ann@b.c")
  have htaken : ¬EmailFree (sampleIdentity "ann@b.c").email sampleAnn :=
    fun hf ↦ hf "ann@b.c" rfl _ (.head _) rfl
  obtain ⟨failure, rfl⟩ := (provision_yields (sampleAnn_unknown "ann@b.c") x w' hc).2 htaken
  obtain ⟨user, hok, -⟩ := hall _ _ _ _ _ _ _ (sampleAnn_unknown "ann@b.c") hc
  simp at hok

end Sample

end RustdeskConsole.Accounts
