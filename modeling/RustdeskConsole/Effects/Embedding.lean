import RustdeskConsole.Effects.Logic
import RustdeskConsole.Effects.Serial

namespace RustdeskConsole.Effects

variable {ι ι' C C' : Type} {R : C → Type} {R' : C' → Type} {O O' W W' ε α β : Type}

section Expansion

/-- The program with each command replaced by a program of other commands. -/
def Prog.expand (f : ∀ c, Prog C' R' (R c)) : Prog C R α → Prog C' R' α
  | .done a => .done a
  | .call c k => f c >>= fun r ↦ (k r).expand f

/-- Whatever the replies, each command of the program satisfies `G`, and its
result satisfies `Q`. -/
def Prog.Issues (G : C → Prop) : Prog C R α → (α → Prop) → Prop
  | .done a, Q => Q a
  | .call c k, Q => G c ∧ ∀ r, (k r).Issues G Q

theorem Prog.Issues.bind {G : C → Prop} {P : α → Prop} {Q : β → Prop} {p : Prog C R α}
    {f : α → Prog C R β} (hp : p.Issues G P) (hf : ∀ a, P a → (f a).Issues G Q) :
    (p >>= f).Issues G Q := by
  induction p with
  | done a => exact hf a hp
  | call c k ih => exact ⟨hp.1, fun r ↦ ih r (hp.2 r)⟩

/-- An expanded program keeps what the expansion of each of its commands keeps. -/
theorem Serves.of_expand {M : Machine ι C' R' O W} {i : ι} {f : ∀ c, Prog C' R' (R c)}
    {G : C → Prop} {P : W → Prop} {Q : α → Prop}
    (hf : ∀ c, G c → ∀ w r w', P w → Serves M i (f c) w r w' → P w') {p : Prog C R α} {w w' : W}
    {a : α} (hp : p.Issues G Q) (hw : P w) (h : Serves M i (p.expand f) w a w') : P w' := by
  induction p generalizing w with
  | done b =>
    cases h
    exact hw
  | call c k ih =>
    obtain ⟨r, w₁, hc, hk⟩ := h.of_bind
    exact ih r (hp.2 r) (hf c hp.1 w r w₁ hw hc) hk

/-- Whatever the replies, each command of the process satisfies `G`, and a result
satisfies `Q`. -/
def Issues (G : C → Prop) (p : Process C R Unit ε α) (Q : α → Prop) : Prop :=
  (p.start ()).Issues G fun x ↦ ∀ a, x.1 = .ok a → Q a

namespace Issues

variable {G : C → Prop} {p : Process C R Unit ε α} {f : α → Process C R Unit ε β} {P : α → Prop}
  {Q : β → Prop}

theorem pure {a : α} (h : P a) : Issues G (pure a : Process C R Unit ε α) P := by
  intro b hb
  cases hb
  exact h

theorem throw {e : ε} : Issues G (throw e : Process C R Unit ε α) P := nofun

theorem invoke {c : C} {g : R c → Except ε α} (h : G c) (hg : ∀ r a, g r = .ok a → P a) :
    Issues G (Effects.invoke c g : Process C R Unit ε α) P := ⟨h, hg⟩

theorem bind (hp : Issues G p P) (hf : ∀ a, P a → Issues G (f a) Q) : Issues G (p >>= f) Q := by
  rw [Issues, Process.start_bind]
  refine Prog.Issues.bind hp fun x hx ↦ ?_
  obtain ⟨x, u⟩ := x
  cases x with
  | ok a => exact hf a (hx a rfl)
  | error e => nofun

end Issues

end Expansion

section Following

variable {τ : Type}

/-- A protocol: what may be sent in a state, and the state that the reply leads to. -/
structure Protocol (τ C : Type) (R : C → Type) where
  allows : τ → C → Prop
  after : τ → (c : C) → R c → τ

/-- Whatever the replies, each command of the program is allowed in the state that it is sent
in, and its result satisfies `Q` in the state that it ends in. -/
def Prog.Follows (T : Protocol τ C R) (t : τ) : Prog C R α → (τ → α → Prop) → Prop
  | .done a, Q => Q t a
  | .call c k, Q => T.allows t c ∧ ∀ r, (k r).Follows T (T.after t c r) Q

variable {T : Protocol τ C R} {t : τ}

theorem Prog.Follows.mono {P Q : τ → α → Prop} {p : Prog C R α} (hp : p.Follows T t P)
    (h : ∀ t a, P t a → Q t a) : p.Follows T t Q := by
  induction p generalizing t with
  | done a => exact h t a hp
  | call c k ih => exact ⟨hp.1, fun r ↦ ih r (hp.2 r)⟩

theorem Prog.Follows.bind {P : τ → α → Prop} {Q : τ → β → Prop} {p : Prog C R α}
    {f : α → Prog C R β} (hp : p.Follows T t P) (hf : ∀ t a, P t a → (f a).Follows T t Q) :
    (p >>= f).Follows T t Q := by
  induction p generalizing t with
  | done a => exact hf t a hp
  | call c k ih => exact ⟨hp.1, fun r ↦ ih r (hp.2 r)⟩

/-- Commands that are always allowed and lead to no other state may be sent in any. -/
theorem Prog.Issues.follows {G : C → Prop} {Q : α → Prop} {p : Prog C R α}
    (hG : ∀ c, G c → T.allows t c ∧ ∀ r, T.after t c r = t) (hp : p.Issues G Q) :
    p.Follows T t fun t' a ↦ t' = t ∧ Q a := by
  induction p with
  | done a => exact ⟨rfl, hp⟩
  | call c k ih =>
    refine ⟨(hG c hp.1).1, fun r ↦ ?_⟩
    rw [(hG c hp.1).2 r]
    exact ih r (hp.2 r)

/-- Whatever the replies, each command of the process is allowed in the state that it is sent
in, and a result satisfies `Q` in the state that it ends in. -/
def Follows (T : Protocol τ C R) (t : τ) (p : Process C R Unit ε α) (Q : τ → α → Prop) : Prop :=
  (p.start ()).Follows T t fun t x ↦ ∀ a, x.1 = .ok a → Q t a

namespace Follows

variable {p : Process C R Unit ε α} {f : α → Process C R Unit ε β} {P : τ → α → Prop}
  {Q : τ → β → Prop}

theorem pure {a : α} (h : P t a) : Follows T t (pure a : Process C R Unit ε α) P := by
  intro b hb
  cases hb
  exact h

theorem invoke {c : C} {g : R c → Except ε α} (h : T.allows t c)
    (hg : ∀ r a, g r = .ok a → P (T.after t c r) a) :
    Follows T t (Effects.invoke c g : Process C R Unit ε α) P := ⟨h, hg⟩

theorem bind (hp : Follows T t p P) (hf : ∀ t a, P t a → Follows T t (f a) Q) :
    Follows T t (p >>= f) Q := by
  rw [Follows, Process.start_bind]
  refine Prog.Follows.bind hp fun t x hx ↦ ?_
  obtain ⟨x, u⟩ := x
  cases x with
  | ok a => exact hf t a (hx a rfl)
  | error e => nofun

theorem of_issues {G : C → Prop} {P : α → Prop}
    (hG : ∀ c, G c → T.allows t c ∧ ∀ r, T.after t c r = t) (hp : Issues G p P) :
    Follows T t p fun t' a ↦ t' = t ∧ P a := by
  refine Prog.Follows.mono (Prog.Issues.follows hG hp) ?_
  rintro t' x ⟨rfl, hx⟩ a ha
  exact ⟨rfl, hx a ha⟩

end Follows

end Following

/-- The program with its commands said in those of another machine. -/
def Prog.translate (f : C → C') (g : ∀ c, R' (f c) → R c) : Prog C R α → Prog C' R' α
  | .done a => .done a
  | .call c k => .call (f c) fun r ↦ (k (g c r)).translate f g

namespace Logic

/-- One machine as a program of another sees it: `sees w' w` when `w` is what it
finds of the larger world `w'`. -/
structure Embedding {M : Machine ι C R O W} {M' : Machine ι' C' R' O' W'} (L : Logic M)
    (L' : Logic M') (i : ι) (i' : ι') (f : C → C') (g : ∀ c, R' (f c) → R c) where
  sees : W' → W → Prop
  rely : ∀ {h h' w}, L'.rely i' h h' → L'.inv h' → sees h w → ∃ w', sees h' w' ∧ L.rely i w w' ∧
    L.inv w'
  guard : ∀ {c h w}, L'.inv h → sees h w → L.guard i c w → L'.guard i' (f c) h
  exec : ∀ {c o h h' w r}, L'.inv h → sees h w → L.guard i c w →
    M'.exec i' (f c) o h = (h', some r) → ∃ o' w', M.exec i c o' w = (w', some (g c r)) ∧ sees h' w'

variable {M : Machine ι C R O W} {M' : Machine ι' C' R' O' W'} {L : Logic M} {L' : Logic M'}
  {i : ι} {i' : ι'} {f : C → C'} {g : ∀ c, R' (f c) → R c}

/-- What is proved of a program where it alone matters holds of it in the larger
world. -/
theorem Wp.translate (e : Embedding L L' i i' f g) {p : Prog C R α} {Q : α → W → Prop} {w : W}
    {h : W'} (hp : L.Wp i p Q w) (hs : e.sees h w) :
    L'.Wp i' (p.translate f g) (fun a h ↦ ∃ w, e.sees h w ∧ Q a w) h := by
  induction p generalizing w h with
  | done a => exact ⟨w, hs, hp⟩
  | call c k ih =>
    intro h₁ hr hi
    obtain ⟨w₁, hs₁, hrw, hiw⟩ := e.rely hr hi hs
    obtain ⟨hg, hk⟩ := hp w₁ hrw hiw
    refine ⟨e.guard hi hs₁ hg, fun o h₂ r he _ ↦ ?_⟩
    obtain ⟨o', w₂, hw, hs₂⟩ := e.exec hi hs₁ hg he
    have hkeep := L.keeps o' hiw hg
    rw [hw] at hkeep
    exact ih (g c r) (hk o' w₂ (g c r) hw hkeep) hs₂

/-- A program whose commands may always be issued and keep `P` keeps `P`. -/
theorem Wp.of_still {P : W' → Prop} (hr : ∀ h h', L'.rely i' h h' → P h → P h')
    (hg : ∀ c h, L'.inv h → L'.guard i' (f c) h)
    (he : ∀ c o h h' r, P h → M'.exec i' (f c) o h = (h', some r) → P h')
    {p : Prog C R α} {h : W'} (hP : P h) : L'.Wp i' (p.translate f g) (fun _ ↦ P) h := by
  induction p generalizing h with
  | done a => exact hP
  | call c k ih =>
    intro h₁ hr₁ hi
    exact ⟨hg c h₁ hi, fun o h₂ r heq _ ↦ ih (g c r) (he c o h₁ h₂ r (hr h h₁ hr₁ hP) heq)⟩

/-- A program whose commands all satisfy `G` keeps what such commands keep. -/
theorem Wp.of_issues {G : C → Prop} {P : W → Prop} {T : α → Prop}
    (hr : ∀ w w', L.rely i w w' → P w → P w') (hg : ∀ c w, G c → P w → L.guard i c w)
    (he : ∀ c o w w' r, G c → P w → M.exec i c o w = (w', some r) → P w') {p : Prog C R α} {w : W}
    (hp : p.Issues G T) (hP : P w) : L.Wp i p (fun a w ↦ T a ∧ P w) w := by
  induction p generalizing w with
  | done a => exact ⟨hp, hP⟩
  | call c k ih =>
    intro w₁ hrely _
    have hP₁ := hr w w₁ hrely hP
    exact ⟨hg c w₁ hp.1 hP₁, fun o w₂ r heq _ ↦ ih r (hp.2 r) (he c o w₁ w₂ r hp.1 hP₁ heq)⟩

/-- A process whose commands all satisfy `G` keeps what such commands keep. -/
theorem Ensures.of_issues {G : C → Prop} {P : W → Prop} {T : α → Prop}
    (hr : ∀ w w', L.rely i w w' → P w → P w') (hg : ∀ c w, G c → P w → L.guard i c w)
    (he : ∀ c o w w' r, G c → P w → M.exec i c o w = (w', some r) → P w')
    {p : Process C R Unit ε α} {w : W} (hp : Issues G p T) (hP : P w) :
    L.Ensures i p (fun a _ w ↦ T a ∧ P w) (fun _ _ ↦ P) () w := by
  refine (Wp.of_issues hr hg he hp hP).mono ?_
  rintro ⟨_ | a, s⟩ w ⟨ht, hPw⟩
  · exact hPw
  · exact ⟨ht a rfl, hPw⟩

/-- A program that follows a protocol keeps what the commands keep that the protocol allows. -/
theorem Wp.of_follows {τ : Type} {T : Protocol τ C R} {P : τ → W → Prop} {Q : τ → α → Prop}
    (hr : ∀ t w w', L.rely i w w' → P t w → P t w')
    (hg : ∀ t c w, T.allows t c → P t w → L.guard i c w)
    (he : ∀ t c o w w' r, T.allows t c → P t w → M.exec i c o w = (w', some r) →
      P (T.after t c r) w') {p : Prog C R α} {t : τ} {w : W} (hp : p.Follows T t Q) (hP : P t w) :
    L.Wp i p (fun a w ↦ ∃ t, Q t a ∧ P t w) w := by
  induction p generalizing t w with
  | done a => exact ⟨t, hp, hP⟩
  | call c k ih =>
    intro w₁ hrely _
    have hP₁ := hr t w w₁ hrely hP
    exact ⟨hg t c w₁ hp.1 hP₁, fun o w₂ r heq _ ↦ ih r (hp.2 r) (he t c o w₁ w₂ r hp.1 hP₁ heq)⟩

/-- A process that follows a protocol keeps what the commands keep that the protocol allows. -/
theorem Ensures.of_follows {τ : Type} {T : Protocol τ C R} {P : τ → W → Prop} {Q : τ → α → Prop}
    (hr : ∀ t w w', L.rely i w w' → P t w → P t w')
    (hg : ∀ t c w, T.allows t c → P t w → L.guard i c w)
    (he : ∀ t c o w w' r, T.allows t c → P t w → M.exec i c o w = (w', some r) →
      P (T.after t c r) w') {p : Process C R Unit ε α} {t : τ} {w : W} (hp : Follows T t p Q)
    (hP : P t w) :
    L.Ensures i p (fun a _ w ↦ ∃ t, Q t a ∧ P t w) (fun _ _ w ↦ ∃ t, P t w) () w := by
  refine (Wp.of_follows hr hg he hp hP).mono ?_
  rintro ⟨_ | a, s⟩ w ⟨t, hq, hPw⟩
  · exact ⟨t, hPw⟩
  · exact ⟨t, hq a rfl, hPw⟩

end Logic

end RustdeskConsole.Effects
