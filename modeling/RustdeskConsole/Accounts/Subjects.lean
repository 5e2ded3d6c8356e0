import RustdeskConsole.Effects.Logic
import RustdeskConsole.Accounts.Effect

namespace RustdeskConsole.Accounts

open Auth (UserStatus)
open Effects

/-- The account with the guid is linked to the external identity. -/
def LinkedTo (users : List User) (guid subject : String) : Prop :=
  ∃ user ∈ users, user.guid = guid ∧ user.oidcSubject = some subject

/-- Commands that leave the identities of the accounts there are alone. -/
def Command.sparing : Command → Bool
  | .saveUsers _ | .commitReset .. => false
  | _ => true

section Linked

variable {users : List User} {w w' : World} {call : Call} {c : Command} {guid guid' : String}
  {subject subject' : String}

/-- An account is linked to one identity at most. -/
theorem LinkedTo.subject_eq (hu : uniqueColumns users) (h : LinkedTo users guid subject)
    (h' : LinkedTo users guid subject') : subject = subject' := by
  obtain ⟨user, hm, hg, hs⟩ := h
  obtain ⟨user', hm', hg', hs'⟩ := h'
  have heq : user = user' := eq_of_guid hu hm hm' (hg.trans hg'.symm)
  rw [heq, hs'] at hs
  exact (Option.some.inj hs).symm

/-- An identity is linked to one account at most. -/
theorem LinkedTo.guid_eq (hu : uniqueColumns users) (h : LinkedTo users guid subject)
    (h' : LinkedTo users guid' subject) : guid = guid' := by
  obtain ⟨user, hm, hg, hs⟩ := h
  obtain ⟨user', hm', hg', hs'⟩ := h'
  have hnodup := hu.2.2.2
  have heq : user = user' := by
    by_contra hne
    obtain ⟨l₁, l₂, rfl⟩ := List.append_of_mem hm
    rw [List.filterMap_append, List.filterMap_cons_some hs, List.nodup_append] at hnodup
    rcases List.mem_append.mp hm' with hl | hl
    · exact hnodup.2.2 _ (List.mem_filterMap.mpr ⟨user', hl, hs'⟩) _ (.head _) rfl
    · rcases List.mem_cons.mp hl with heq | hl
      · exact hne heq.symm
      · exact (List.nodup_cons.mp hnodup.2.1).1 (List.mem_filterMap.mpr ⟨user', hl, hs'⟩)
  rw [← hg, heq, hg']

theorem subject_of_writes {event : Event} (hw : Writes w c event) (hc : c.sparing = true)
    (user : User) : (applyChanges event.changes user).oidcSubject = user.oidcSubject := by
  have hsame : ∀ change ∈ event.changes,
      change.saved.oidcSubject = change.loaded.oidcSubject := by
    cases hw with
    | save => cases hc
    | reset => cases hc
    | status | avatar =>
      intro change hm
      obtain ⟨row, -, rfl⟩ := List.mem_map.mp hm
      rfl
  rw [applyChanges]
  split
  · rename_i change hf
    have heq := hsame change (List.mem_of_find?_eq_some hf)
    simp only [Change.merge, column, if_pos heq]
  · rfl

theorem LinkedTo.step (he : Effect call w c w') (hc : c.sparing = true)
    (h : LinkedTo w.users guid subject) : LinkedTo w'.users guid subject := by
  obtain ⟨user, hm, hg, hs⟩ := h
  cases he with
  | quiet hu =>
    rw [hu]
    exact ⟨user, hm, hg, hs⟩
  | noted _ _ _ hu =>
    rw [hu]
    exact ⟨user, hm, hg, hs⟩
  | created _ _ hu =>
    rw [hu]
    exact ⟨user, .tail _ hm, hg, hs⟩
  | wrote event hw hu =>
    rw [hu]
    refine ⟨_, List.mem_map_of_mem hm, ?_, ?_⟩
    · rw [applyChanges_guid, hg]
    · rw [subject_of_writes hw hc, hs]

theorem Effect.unique (he : Effect call w c w') (hu : uniqueColumns w.users) :
    uniqueColumns w'.users := by
  cases he with
  | quiet h | noted _ _ _ h =>
    rw [h]
    exact hu
  | created _ _ _ hq | wrote _ _ _ hq => exact hq

end Linked

/-- Sparing commands keep every link. -/
def subjectLogic (platform : Platform) : Logic (machine platform) where
  inv w := uniqueColumns w.users
  guard _ c _ := c.sparing = true
  rely _ w w' := ∀ guid subject, LinkedTo w.users guid subject → LinkedTo w'.users guid subject
  rely_refl _ _ _ _ := id
  rely_trans _ _ _ _ h h' guid subject hl := h' guid subject (h guid subject hl)
  keeps _ _ hu _ := exec_effect.unique hu
  interferes _ _ _ _ hc _ _ := LinkedTo.step exec_effect hc

section Programs

variable {platform : Platform} {call : Call} {w : World} {α β : Type} {subject : String}

abbrev Links (platform : Platform) (call : Call) (p : Handler α) (P : α → World → Prop)
    (w : World) : Prop :=
  (subjectLogic platform).Ensures call p (fun a _ w ↦ P a w) (fun _ _ _ ↦ True) () w

theorem links_bind {p : Handler α} {f : α → Handler β} {P : α → World → Prop} {Q : β → World → Prop}
    (hp : Links platform call p P w) (hf : ∀ a w', P a w' → Links platform call (f a) Q w') :
    Links platform call (p >>= f) Q w := by
  refine Logic.Ensures.bind (hp.mono (fun a s w' h ↦ ?_) fun _ _ _ h ↦ h)
  cases s
  exact hf a w' h

/-- What the reply to a sparing command says. -/
theorem links_invoke {c : Command} {f : Reply c → Except Failure α} {P : α → World → Prop}
    (hc : c.sparing = true)
    (hP : ∀ o w₁ w₂ r a, (∀ guid subject, LinkedTo w.users guid subject →
        LinkedTo w₂.users guid subject) →
      exec platform call c o w₁ = (w₂, some r) → f r = .ok a → P a w₂) :
    Links platform call (invoke c f) P w := by
  refine Logic.Ensures.invoke fun w₁ hr _ ↦ ⟨hc, fun o w₂ r he _ ↦ ?_⟩
  have he : exec platform call c o w₁ = (w₂, some r) := he
  have hk : ∀ guid subject, LinkedTo w.users guid subject → LinkedTo w₂.users guid subject := by
    intro guid subject hl
    have heff : Effect call w₁ c w₂ := by
      have h : Effect call w₁ c (exec platform call c o w₁).1 := exec_effect
      rwa [he] at h
    exact (hr guid subject hl).step heff hc
  cases hf : f r with
  | error e => trivial
  | ok a => exact hP o w₁ w₂ r a hk he hf

theorem links_ask {c : Command} (hc : c.sparing = true) {P : Reply c → World → Prop}
    (hP : ∀ o w₁ w₂ r, (∀ guid subject, LinkedTo w.users guid subject →
      LinkedTo w₂.users guid subject) → exec platform call c o w₁ = (w₂, some r) → P r w₂) :
    Links platform call (Handler.ask c) P w :=
  links_invoke hc fun o w₁ w₂ r _ hk he hf ↦ Except.ok.inj hf ▸ hP o w₁ w₂ r hk he

theorem findUserBySubject_links :
    Links platform call (Handler.ask (.findUserBySubject subject))
      (fun found w ↦ ∀ user ∈ found, LinkedTo w.users user.guid subject) w := by
  refine links_ask rfl fun o w₁ w₂ r _ he user hm ↦ ?_
  obtain ⟨rfl, hr⟩ := Prod.mk.inj he
  obtain rfl := Option.some.inj hr
  have hf : w₁.users.find? (·.oidcSubject = some subject) = some user := hm
  exact ⟨user, List.mem_of_find?_eq_some hf, rfl, by simpa using List.find?_some hf⟩

theorem insertUser_links (draft : User) {o : Choice} {w₁ w₂ : World} {user : User}
    (hd : draft.oidcSubject = some subject)
    (he : exec platform call (.insertUser draft) o w₁ = (w₂, some (.ok user))) :
    LinkedTo w₂.users user.guid subject := by
  rw [exec, World.insertUser] at he
  split at he
  · cases (Prod.mk.inj he).2
  · rcases writeUsers_cases { w₁ with drawn := o.uuid :: w₁.drawn } call
      ({ draft with guid := o.uuid } :: w₁.users) (.created { draft with guid := o.uuid }) with
      ⟨heq, -⟩ | heq
    · simp only [heq] at he
      obtain ⟨rfl, hr⟩ := Prod.mk.inj he
      rw [← Except.ok.inj (Option.some.inj hr)]
      exact ⟨_, .head _, rfl, hd⟩
    · simp only [heq] at he
      cases (Prod.mk.inj he).2

theorem createExternalUser_links {draft : User} {username : String} {failure : Failure}
    (hd : draft.oidcSubject = some subject) (attempts : ℕ) {finalUsername : String} {suffix : ℕ}
    {w : World} :
    Links platform call (createExternalUser draft username failure attempts finalUsername suffix)
      (fun user w ↦ LinkedTo w.users user.guid subject) w := by
  induction attempts generalizing finalUsername suffix w with
  | zero => exact Logic.Ensures.throw trivial
  | succ attempts ih =>
    refine links_bind (links_ask (P := fun _ _ ↦ True) rfl fun _ _ _ _ _ _ ↦ trivial)
      fun x w' _ ↦ ?_
    refine links_bind (P := fun created w ↦ ∀ user ∈ created, LinkedTo w.users user.guid subject)
      (links_invoke rfl fun o w₁ w₂ r created _ he hf user hm ↦ ?_) fun created w' hcreated ↦ ?_
    · have hr : r = .ok user := by
        cases r with
        | ok user' =>
          rw [← Except.ok.inj hf] at hm
          rw [Option.some.inj hm]
        | error e =>
          cases e with
          | uniqueViolation =>
            rw [← Except.ok.inj hf] at hm
            cases hm
          | _ => cases hf
      rw [hr] at he
      exact insertUser_links { draft with username := x.1 } hd he
    · cases created with
      | some user => exact Logic.Ensures.pure (hcreated user rfl)
      | none => exact ih

/-- Whoever signs in through a provider has the account of the identity. -/
theorem OidcService.findOrCreateUser_links {userInfo : OidcUserInfo} {providerName : String} :
    Links platform call (OidcService.findOrCreateUser platform userInfo providerName)
      (fun user w ↦ LinkedTo w.users user.guid ("oidc:" ++ providerName ++ ":" ++ userInfo.sub)) w := by
  refine links_bind findUserBySubject_links fun found w hfound ↦ ?_
  cases found with
  | some existing =>
    have hl := hfound existing rfl
    dsimp only [OidcService.backfill]
    split
    · exact Logic.Ensures.pure hl
    · split
      · exact Logic.Ensures.pure hl
      · refine links_bind (links_ask (P := fun _ w ↦ LinkedTo w.users existing.guid _) rfl
          fun o w₁ w₂ r hk _ ↦ hk _ _ hl) fun affected w' hl' ↦ ?_
        split
        · exact Logic.Ensures.pure hl'
        · exact Logic.Ensures.pure hl'
  | none =>
    refine links_bind (P := fun _ _ ↦ True) (links_invoke rfl fun _ _ _ _ _ _ _ _ ↦ trivial)
      fun group w' _ ↦ ?_
    exact createExternalUser_links rfl 3

end Programs

end RustdeskConsole.Accounts
