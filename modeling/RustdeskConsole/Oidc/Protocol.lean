import RustdeskConsole.Effects.History
import RustdeskConsole.Accounts.Subjects
import RustdeskConsole.Oidc.Service

namespace RustdeskConsole.Oidc

open Accounts (Failure LinkedTo uniqueColumns)
open Effects Effects.History

abbrev History := List (ℕ × Event)

/-- The `oidcSubject` of an account. -/
def key (name sub : String) : String := "oidc:" ++ name ++ ":" ++ sub

/-- The event tells nothing but the name and the text that a call came with. -/
def Trail (name sub : String) : Event → Prop
  | .found provider => provider.name = name
  | .answered answer => answer.text = some sub
  | .authorized _ => False

/-- The account is the one for the name and the text that the call came with. -/
structure Keyed (w : World) (i : ℕ) (account name sub : String) : Prop where
  found : ∀ provider, (i, .found provider) ∈ w.history → provider.name = name
  answered : ∀ answer, (i, .answered answer) ∈ w.history → answer.text = some sub
  linked : LinkedTo w.accounts.users account (key name sub)

structure Bound (w : World) : Prop where
  unique : uniqueColumns w.accounts.users
  keyed : ∀ i account, (i, .authorized account) ∈ w.history → ∃ name sub, Keyed w i account name sub

def Unsettled (i : ℕ) (w : World) : Prop := ∀ account, (i, .authorized account) ∉ w.history

/-- A call learns nothing more once it is through, and gives out the account
that is linked to what it has learnt. -/
def guard (i : ℕ) : Command → World → Prop
  | .getProviderWithSecret _, w | .grantIdToken .., w | .fetch .., w => Unsettled i w
  | .authorizeAuthState _ userGuid _, w => ∃ name sub, Keyed w i userGuid name sub
  | .account _ c, _ => c.sparing = true
  | _, _ => True

/-- What the event of a command may be. -/
inductive Notes : Command → Event → Prop
  | found {name provider} : provider.name = name → Notes (.getProviderWithSecret name) (.found provider)
  | idToken {config authState claims} :
      Notes (.grantIdToken config authState) (.answered (.idToken claims))
  | userInfo {endpoint accessToken data} :
      Notes (.fetch endpoint accessToken) (.answered (.userInfo data))
  | authorized {authState userGuid accessToken} :
      Notes (.authorizeAuthState authState userGuid accessToken) (.authorized userGuid)

/-- Every link of an account is kept. -/
def KeepsLinks (w w' : World) : Prop :=
  ∀ guid subject, LinkedTo w.accounts.users guid subject → LinkedTo w'.accounts.users guid subject

inductive Effect (i : ℕ) (w : World) (c : Command) (w' : World) : Prop
  | quiet : w'.accounts.users = w.accounts.users → w'.history = w.history → Effect i w c w'
  | noted (event : Event) : Notes c event → w'.accounts.users = w.accounts.users →
      w'.history = (i, event) :: w.history → Effect i w c w'
  | account (request : Accounts.Request) (c' : Accounts.Command) : c = .account request c' →
      Accounts.Effect ⟨i, request⟩ w.accounts c' w'.accounts → w'.history = w.history →
      Effect i w c w'

section Step

variable {platform : Accounts.Platform} {i j : ℕ} {c : Command} {o : Choice} {w w' : World}

theorem answer_effect {α : Type} {reply : Except Failure α} {f : α → Answer}
    (hn : ∀ a, Notes c (.answered (f a))) : Effect i w c (w.answer i reply f).1 := by
  cases reply with
  | error failure => exact .quiet rfl rfl
  | ok a => exact .noted _ (hn a) rfl rfl

theorem one_mem {α : Type} {rows : List α} {row : ℕ} {a : α}
    (h : World.one rows row = some (some a)) : a ∈ rows := by
  cases rows with
  | nil => cases h
  | cons b rows =>
    obtain ⟨a', ha, hs⟩ := Option.map_eq_some_iff.mp h
    cases hs
    exact List.mem_of_getElem? ha

theorem exec_effect : Effect i w c (exec platform i c o w).1 := by
  cases c with
  | getProviderWithSecret name =>
    rw [exec, World.getProviderWithSecret]
    split
    · exact .quiet rfl rfl
    · exact .quiet rfl rfl
    · rename_i provider hone
      have hm := (List.mem_filter.mp (one_mem hone)).2
      simp only [Bool.and_eq_true, decide_eq_true_eq] at hm
      exact .noted _ (.found hm.1) rfl rfl
  | insertProvider | insertAuthState =>
    simp only [exec, World.insertProvider, World.insertAuthState]
    split
    · exact .quiet rfl rfl
    · exact .quiet rfl rfl
  | saveProvider =>
    simp only [exec, World.saveProvider]
    split
    · exact .quiet rfl rfl
    · exact .quiet rfl rfl
  | authorizeAuthState => exact .noted _ .authorized rfl rfl
  | grantIdToken => exact answer_effect fun _ ↦ .idToken
  | fetch => exact answer_effect fun _ ↦ .userInfo
  | account request c => exact .account request c rfl Accounts.exec_effect rfl
  | _ => exact .quiet rfl rfl

theorem Effect.links (he : Effect i w c w') (hg : guard i c w) : KeepsLinks w w' := by
  intro guid subject hl
  cases he with
  | quiet hu | noted _ _ hu => exact hu ▸ hl
  | account request c' hc he =>
    subst hc
    exact hl.step he hg

theorem Effect.adds (he : Effect i w c w') : Adds (fun e ↦ e.1 = i) w.history w'.history := by
  cases he with
  | quiet _ hh | account _ _ _ _ hh =>
    rw [hh]
    exact Adds.refl _
  | noted event _ _ hh =>
    rw [hh]
    exact (Adds.refl _).cons rfl

/-- What a call came with is settled before it is through. -/
theorem Keyed.step {account name sub : String} (he : Effect i w c w') (hg : guard i c w)
    (hm : (j, .authorized account) ∈ w.history) (hk : Keyed w j account name sub) :
    Keyed w' j account name sub := by
  have hold : ∀ event, (j, event) ∈ w'.history → (j, event) ∈ w.history ∨
      ∃ account, event = .authorized account := by
    intro event hm'
    cases he with
    | quiet _ hh | account _ _ _ _ hh => exact .inl (hh ▸ hm')
    | noted event' hn _ hh =>
      rw [hh] at hm'
      rcases List.mem_cons.mp hm' with heq | hm'
      · obtain ⟨rfl, rfl⟩ := Prod.mk.inj heq
        cases hn with
        | authorized => exact .inr ⟨_, rfl⟩
        | found | idToken | userInfo => exact absurd hm (hg account)
      · exact .inl hm'
  refine ⟨fun provider hm' ↦ ?_, fun answer hm' ↦ ?_, he.links hg _ _ hk.linked⟩
  · rcases hold _ hm' with hm' | ⟨_, heq⟩
    · exact hk.found provider hm'
    · cases heq
  · rcases hold _ hm' with hm' | ⟨_, heq⟩
    · exact hk.answered answer hm'
    · cases heq

theorem Bound.step (hb : Bound w) (hg : guard i c w) (he : Effect i w c w') : Bound w' := by
  constructor
  · cases he with
    | quiet hu | noted _ _ hu =>
      rw [hu]
      exact hb.unique
    | account _ _ _ he => exact he.unique hb.unique
  · intro j account hm
    have hkept : (j, .authorized account) ∈ w.history → ∃ name sub, Keyed w' j account name sub := by
      intro hm
      obtain ⟨name, sub, hk⟩ := hb.keyed j account hm
      exact ⟨name, sub, hk.step he hg hm⟩
    cases he with
    | quiet _ hh | account _ _ _ _ hh => exact hkept (hh ▸ hm)
    | noted event hn hu hh =>
      rw [hh] at hm
      rcases List.mem_cons.mp hm with heq | hm
      · obtain ⟨rfl, rfl⟩ := Prod.mk.inj heq
        cases hn with
        | authorized =>
          obtain ⟨name, sub, hf, ha, hl⟩ := hg
          refine ⟨name, sub, fun provider hm ↦ ?_, fun answer hm ↦ ?_, hu ▸ hl⟩
          · rw [hh] at hm
            rcases List.mem_cons.mp hm with heq | hm
            · cases (Prod.mk.inj heq).2
            · exact hf provider hm
          · rw [hh] at hm
            rcases List.mem_cons.mp hm with heq | hm
            · cases (Prod.mk.inj heq).2
            · exact ha answer hm
      · exact hkept hm

end Step

/-- What a call may take for granted of the others. -/
structure Stays (i : ℕ) (w w' : World) : Prop where
  links : KeepsLinks w w'
  others : Adds (fun e ↦ e.1 ≠ i) w.history w'.history

theorem Stays.refl (i : ℕ) (w : World) : Stays i w w := ⟨fun _ _ ↦ id, Adds.refl _⟩

theorem Stays.trans {i : ℕ} {w₁ w₂ w₃ : World} (h : Stays i w₁ w₂) (h' : Stays i w₂ w₃) :
    Stays i w₁ w₃ :=
  ⟨fun g s hl ↦ h'.links g s (h.links g s hl), h.others.trans h'.others⟩

def logic (platform : Accounts.Platform) : Logic (machine platform) where
  inv := Bound
  guard := guard
  rely := Stays
  rely_refl := Stays.refl
  rely_trans _ _ _ _ := Stays.trans
  keeps _ _ hb hg := hb.step hg exec_effect
  interferes _ _ hij _ hg := ⟨exec_effect.links hg,
    exec_effect.adds.mono fun _ heq ↦ heq ▸ hij.symm⟩

section Programs

variable {platform : Accounts.Platform} {i : ℕ} {w : World} {α β : Type} {P P' : Event → Prop}

abbrev Safe (platform : Accounts.Platform) (i : ℕ) (p : Handler α) (P : α → World → Prop)
    (w : World) : Prop :=
  (logic platform).Ensures i p (fun a _ w ↦ P a w) (fun _ _ _ ↦ True) () w

theorem safe_bind {p : Handler α} {f : α → Handler β} {P : α → World → Prop} {Q : β → World → Prop}
    (hp : Safe platform i p P w) (hf : ∀ a w', P a w' → Safe platform i (f a) Q w') :
    Safe platform i (p >>= f) Q w := by
  refine Logic.Ensures.bind (hp.mono (fun a s w' h ↦ ?_) fun _ _ _ h ↦ h)
  cases s
  exact hf a w' h

theorem safe_pure {a : α} {P : α → World → Prop} (h : P a w) : Safe platform i (pure a) P w := h

theorem safe_throw {e : Failure} {P : α → World → Prop} :
    Safe platform i (throw e : Handler α) P w :=
  Logic.Ensures.throw trivial

theorem safe_invoke {c : Command} {f : Reply c → Except Failure α} {P : α → World → Prop}
    (hg : ∀ w', Stays i w w' → guard i c w')
    (hP : ∀ o w₁ w₂ r a, Stays i w w₁ → exec platform i c o w₁ = (w₂, some r) → f r = .ok a →
      P a w₂) : Safe platform i (invoke c f) P w := by
  refine Logic.Ensures.invoke fun w₁ hw _ ↦ ⟨hg w₁ hw, fun o w₂ r he _ ↦ ?_⟩
  cases hf : f r with
  | error e => trivial
  | ok a => exact hP o w₁ w₂ r a hw he hf

/-- Commands of which nothing is noted, and which write no account. -/
def Command.still : Command → Bool
  | .getProviderWithSecret _ | .grantIdToken .. | .fetch .. | .authorizeAuthState ..
  | .account .. => false
  | _ => true

theorem guard_still {c : Command} (hc : c.still = true) : guard i c w := by
  cases c <;> first | exact trivial | cases hc

theorem stays_still {c : Command} {o : Choice} {w' : World} {r : Reply c} (hc : c.still = true)
    (he : exec platform i c o w = (w', some r)) : Stays i w w' := by
  have heff : Effect i w c w' := by
    have h : Effect i w c (exec platform i c o w).1 := exec_effect
    rwa [he] at h
  refine ⟨heff.links (guard_still hc), ?_⟩
  cases heff with
  | quiet _ hh | account _ _ _ _ hh =>
    rw [hh]
    exact Adds.refl _
  | noted event hn => cases hn <;> cases hc

/-- A process that leaves things as it finds them, as far as its call knows. -/
def Quiet (platform : Accounts.Platform) (i : ℕ) (p : Handler α) : Prop :=
  ∀ w, Safe platform i p (fun _ w' ↦ Stays i w w') w

namespace Quiet

theorem pure {a : α} : Quiet platform i (pure a) := fun _ ↦ safe_pure (Stays.refl ..)

theorem throw {e : Failure} : Quiet platform i (throw e : Handler α) := fun _ ↦ safe_throw

theorem bind {p : Handler α} {f : α → Handler β} (hp : Quiet platform i p)
    (hf : ∀ a, Quiet platform i (f a)) : Quiet platform i (p >>= f) := by
  intro w
  refine safe_bind (hp w) fun a w' h ↦ ?_
  exact (hf a w').mono (fun _ _ _ h' ↦ h.trans h') fun _ _ _ h ↦ h

theorem invoke {c : Command} {f : Reply c → Except Failure α} (hc : c.still = true) :
    Quiet platform i (invoke c f) :=
  fun _ ↦ safe_invoke (fun _ _ ↦ guard_still hc) fun _ _ _ _ _ hw he _ ↦
    hw.trans (stays_still hc he)

theorem ask {c : Command} (hc : c.still = true) : Quiet platform i (Handler.ask c) := invoke hc

theorem assert {condition : Bool} {failure : Failure} :
    Quiet platform i (Handler.assert condition failure) := by
  rw [Handler.assert]
  split
  · exact pure
  · exact throw

theorem require {value : Option α} {failure : Failure} :
    Quiet platform i (Handler.require value failure) := by
  cases value with
  | none => exact throw
  | some a => exact pure

end Quiet

theorem safe_after {p : Handler α} {f : α → Handler β} {Q : β → World → Prop}
    (hp : Quiet platform i p) (hf : ∀ a w', Stays i w w' → Safe platform i (f a) Q w') :
    Safe platform i (p >>= f) Q w :=
  safe_bind (hp w) hf

theorem Quiet.safe {p : Handler α} {P : World → Prop} (hp : Quiet platform i p)
    (hP : ∀ w', Stays i w w' → P w') : Safe platform i p (fun _ ↦ P) w :=
  (hp w).mono (fun _ _ w' h ↦ hP w' h) fun _ _ _ h ↦ h

theorem own_stays {w' : World} (ho : Own i P w.history) (hs : Stays i w w') :
    Own i P w'.history := ho.others hs.others

theorem unsettled (ho : Own i P w.history) (hn : ∀ account, ¬P (.authorized account)) :
    Unsettled i w := fun account hm ↦ hn account (ho _ hm)

/-- An account service finds its world in that of the provider services. -/
def embedding (platform : Accounts.Platform) (i : ℕ) (request : Accounts.Request)
    (P : Event → Prop) : Logic.Embedding (Accounts.subjectLogic platform) (logic platform)
      ⟨i, request⟩ i (.account request) fun _ ↦ id where
  sees h w := h.accounts = w ∧ Own i P h.history
  rely {h h' w} hr hb hs := by
    obtain ⟨rfl, ho⟩ := hs
    exact ⟨h'.accounts, ⟨rfl, own_stays ho hr⟩, hr.links, hb.unique⟩
  guard _ _ hg := hg
  exec {c o h h' w r} _ hs _ he := by
    obtain ⟨rfl, ho⟩ := hs
    obtain ⟨rfl, hr⟩ := Prod.mk.inj he
    exact ⟨o.account, _, Prod.ext rfl hr, rfl, ho⟩

theorem safe_accounts {request : Accounts.Request} {p : Accounts.Handler α}
    {Q : α → Accounts.World → Prop} (ho : Own i P w.history)
    (hp : Accounts.Links platform ⟨i, request⟩ p Q w.accounts) :
    Safe platform i (Handler.accounts request p)
      (fun a w ↦ Own i P w.history ∧ Q a w.accounts) w := by
  have hw := hp.translate (embedding platform i request P) ⟨rfl, ho⟩
  refine Logic.Wp.mono hw ?_
  rintro ⟨_ | a, s⟩ w' ⟨w₀, ⟨rfl, ho'⟩, hq⟩
  · exact trivial
  · exact ⟨ho', hq⟩

end Programs

end RustdeskConsole.Oidc
