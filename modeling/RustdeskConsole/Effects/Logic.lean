import RustdeskConsole.Effects.Machine

namespace RustdeskConsole.Effects

open Function Relation

variable {ι C : Type} {R : C → Type} {O W σ ε α β : Type}

/-- Proof rules for the programs of one machine. Guarded commands keep the
invariant, and what they do to the world is within what every other thread
relies on. -/
structure Logic (M : Machine ι C R O W) where
  inv : W → Prop
  guard : ι → C → W → Prop
  rely : ι → W → W → Prop
  rely_refl : ∀ i w, rely i w w
  rely_trans : ∀ i {w₁ w₂ w₃}, rely i w₁ w₂ → rely i w₂ w₃ → rely i w₁ w₃
  keeps : ∀ {i c} (o) {w}, inv w → guard i c w → inv (M.exec i c o w).1
  interferes : ∀ {i j c} (o) {w}, i ≠ j → inv w → guard j c w → rely i w (M.exec j c o w).1

namespace Logic

variable {M : Machine ι C R O W} (L : Logic M) (i : ι)

/-- Whatever the other threads and the world do, each command of the program
meets its guard, and if the program ends it ends in `Q`. -/
def Wp : Prog C R α → (α → W → Prop) → W → Prop
  | .done a, Q, w => Q a w
  | .call c k, Q, w => ∀ w₁, L.rely i w w₁ → L.inv w₁ → L.guard i c w₁ ∧
      ∀ o w₂ r, M.exec i c o w₁ = (w₂, some r) → L.inv w₂ → Wp (k r) Q w₂

variable {L i}

theorem Wp.bind {p : Prog C R α} {f : α → Prog C R β} {Q : β → W → Prop} {w : W}
    (h : L.Wp i p (fun a ↦ L.Wp i (f a) Q) w) : L.Wp i (p >>= f) Q w := by
  induction p generalizing w with
  | done a => exact h
  | call c k ih =>
    intro w₁ hr hi
    obtain ⟨hg, hk⟩ := h w₁ hr hi
    exact ⟨hg, fun o w₂ r he hi₂ ↦ ih r (hk o w₂ r he hi₂)⟩

theorem Wp.mono {p : Prog C R α} {Q Q' : α → W → Prop} {w : W}
    (h : L.Wp i p Q w) (hQ : ∀ a w, Q a w → Q' a w) : L.Wp i p Q' w := by
  induction p generalizing w with
  | done a => exact hQ a w h
  | call c k ih =>
    intro w₁ hr hi
    obtain ⟨hg, hk⟩ := h w₁ hr hi
    exact ⟨hg, fun o w₂ r he hi₂ ↦ ih r (hk o w₂ r he hi₂)⟩

/-- A program that starts where the invariant holds ends where it holds. -/
theorem Wp.keeps {p : Prog C R α} {Q : α → W → Prop} {w : W} (h : L.Wp i p Q w) (hi : L.inv w) :
    L.Wp i p (fun a w ↦ L.inv w ∧ Q a w) w := by
  induction p generalizing w with
  | done a => exact ⟨hi, h⟩
  | call c k ih =>
    intro w₁ hr hi₁
    obtain ⟨hg, hk⟩ := h w₁ hr hi₁
    exact ⟨hg, fun o w₂ r he hi₂ ↦ ih r (hk o w₂ r he hi₂) hi₂⟩

/-- What neither this thread nor any other undoes holds to the end of its program. -/
theorem Wp.frame {p : Prog C R α} {Q : α → W → Prop} {P : W → Prop} {w : W}
    (hrely : ∀ w w', L.rely i w w' → P w → P w')
    (hexec : ∀ c o w, L.guard i c w → P w → P (M.exec i c o w).1) (h : L.Wp i p Q w) (hP : P w) :
    L.Wp i p (fun a w ↦ P w ∧ Q a w) w := by
  induction p generalizing w with
  | done a => exact ⟨hP, h⟩
  | call c k ih =>
    intro w₁ hr hi
    obtain ⟨hg, hk⟩ := h w₁ hr hi
    refine ⟨hg, fun o w₂ r he hi₂ ↦ ih r (hk o w₂ r he hi₂) ?_⟩
    have hP₂ := hexec c o w₁ hg (hrely w w₁ hr hP)
    rwa [he] at hP₂

variable (L) in
/-- What no other thread can undo. -/
def Stable (Q : ι → W → Prop) : Prop := ∀ i w w', L.rely i w w' → Q i w → Q i w'

theorem stable_true : L.Stable fun _ _ ↦ True := fun _ _ _ _ _ ↦ trivial

/-- A verified program stays verified while others move. -/
theorem Wp.stable {p : Prog C R α} {Q : ι → W → Prop} {w w' : W} (hQ : L.Stable Q)
    (h : L.Wp i p (fun _ ↦ Q i) w) (hr : L.rely i w w') : L.Wp i p (fun _ ↦ Q i) w' := by
  cases p with
  | done a => exact hQ i w w' hr h
  | call c k => exact fun w₁ hr₁ ↦ h w₁ (L.rely_trans i hr hr₁)

section Sound

variable (L)

/-- The state of a run in which every thread is verified. -/
def Verified (cfg : Config ι C R W) : Prop :=
  L.inv cfg.world ∧ ∀ i p, cfg.threads i = some p → L.Wp i p (fun _ _ ↦ True) cfg.world

/-- Everything the machine admits is verified wherever the invariant holds. -/
def Admissible : Prop :=
  ∀ i w p, L.inv w → M.admits i w p → L.Wp i p (fun _ _ ↦ True) w

/-- A verified state in which every thread that has ended has left `Q` behind. -/
def Leaves (Q : ι → W → Prop) (cfg : Config ι C R W) : Prop :=
  L.inv cfg.world ∧ ∀ i p, cfg.threads i = some p → L.Wp i p (fun _ ↦ Q i) cfg.world

/-- Everything the machine admits leaves `Q` behind. -/
def Delivers (Q : ι → W → Prop) : Prop :=
  ∀ i w p, L.inv w → M.admits i w p → L.Wp i p (fun _ ↦ Q i) w

variable {L} {Q : ι → W → Prop}

theorem verified_idle {w : W} (hw : L.inv w) : L.Verified (Machine.idle w) :=
  ⟨hw, fun _ _ h ↦ by cases h⟩

theorem leaves_idle {w : W} (hw : L.inv w) : L.Leaves Q (Machine.idle w) :=
  ⟨hw, fun _ _ h ↦ by cases h⟩

theorem Leaves.ended {cfg : Config ι C R W} (h : L.Leaves Q cfg) {i : ι}
    (hi : cfg.threads i = some (.done ())) : Q i cfg.world :=
  h.2 i _ hi

theorem Verified.guard {cfg : Config ι C R W} (h : L.Verified cfg) {i : ι} {c : C}
    {k : R c → Prog C R Unit} (hi : cfg.threads i = some (.call c k)) : L.guard i c cfg.world :=
  (h.2 i _ hi cfg.world (L.rely_refl i _) h.1).1

variable [DecidableEq ι]

/-- A step of a verified run leaves the world alone, or is one guarded command. -/
theorem Leaves.step_cases {cfg cfg' : Config ι C R W} (h : L.Leaves Q cfg)
    (hs : M.Step cfg cfg') : cfg'.world = cfg.world ∨ ∃ i c o, L.guard i c cfg.world ∧
      cfg'.world = (M.exec i c o cfg.world).1 := by
  obtain ⟨hinv, hwp⟩ := h
  cases hs with
  | spawn hi ha => exact .inl rfl
  | @reply threads w w' i c k o r hi he =>
    exact .inr ⟨i, c, o, (hwp i _ hi w (L.rely_refl i w) hinv).1, by rw [he]⟩
  | @abort threads w w' i c k o hi he =>
    exact .inr ⟨i, c, o, (hwp i _ hi w (L.rely_refl i w) hinv).1, by rw [he]⟩
  | stop i => exact .inl rfl

theorem Leaves.step (hQ : L.Stable Q) (hL : L.Delivers Q) {cfg cfg' : Config ι C R W}
    (h : L.Leaves Q cfg) (hs : M.Step cfg cfg') : L.Leaves Q cfg' := by
  obtain ⟨hinv, hwp⟩ := h
  cases hs with
  | @spawn threads w i p hi ha =>
    refine ⟨hinv, fun j q hj ↦ ?_⟩
    by_cases hji : j = i
    · subst hji
      simp only [update_self, Option.some.injEq] at hj
      exact hj ▸ hL j w p hinv ha
    · exact hwp j q (by simpa only [update_of_ne hji] using hj)
  | @reply threads w w' i c k o r hi he =>
    obtain ⟨hg, hk⟩ := hwp i _ hi w (L.rely_refl i w) hinv
    have hinv' : L.inv w' := by simpa only [he] using L.keeps o hinv hg
    refine ⟨hinv', fun j q hj ↦ ?_⟩
    by_cases hji : j = i
    · subst hji
      simp only [update_self, Option.some.injEq] at hj
      exact hj ▸ hk o w' r he hinv'
    · have hrely : L.rely j w w' := by simpa only [he] using L.interferes o hji hinv hg
      exact (hwp j q (by simpa only [update_of_ne hji] using hj)).stable hQ hrely
  | @abort threads w w' i c k o hi he =>
    obtain ⟨hg, -⟩ := hwp i _ hi w (L.rely_refl i w) hinv
    refine ⟨by simpa only [he] using L.keeps o hinv hg, fun j q hj ↦ ?_⟩
    by_cases hji : j = i
    · subst hji
      simp at hj
    · have hrely : L.rely j w w' := by simpa only [he] using L.interferes o hji hinv hg
      exact (hwp j q (by simpa only [update_of_ne hji] using hj)).stable hQ hrely
  | @stop threads w i =>
    refine ⟨hinv, fun j q hj ↦ ?_⟩
    by_cases hji : j = i
    · subst hji
      simp at hj
    · exact hwp j q (by simpa only [update_of_ne hji] using hj)

theorem Leaves.run (hQ : L.Stable Q) (hL : L.Delivers Q) {cfg cfg' : Config ι C R W}
    (h : L.Leaves Q cfg) (hr : M.Run cfg cfg') : L.Leaves Q cfg' := by
  induction hr with
  | refl => exact h
  | tail _ hs ih => exact ih.step hQ hL hs

theorem Verified.run (hL : L.Admissible) {cfg cfg' : Config ι C R W}
    (h : L.Verified cfg) (hr : M.Run cfg cfg') : L.Verified cfg' :=
  Leaves.run stable_true hL h hr

/-- A relation that every guarded command stays within holds between any two
states of a run. -/
theorem Verified.run_within (hL : L.Admissible) {T : W → W → Prop}
    (hrefl : ∀ w, T w w) (htrans : ∀ {a b c}, T a b → T b c → T a c)
    (hT : ∀ i c o w, L.inv w → L.guard i c w → T w (M.exec i c o w).1)
    {cfg cfg' : Config ι C R W} (h : L.Verified cfg) (hr : M.Run cfg cfg') :
    T cfg.world cfg'.world := by
  induction hr with
  | refl => exact hrefl _
  | tail hrun hs ih =>
    have hv := h.run hL hrun
    refine htrans ih ?_
    cases hs with
    | spawn => exact hrefl _
    | @reply threads w w' i c k o r hi he =>
      simpa only [he] using hT i c o w hv.1 (hv.guard hi)
    | @abort threads w w' i c k o hi he =>
      simpa only [he] using hT i c o w hv.1 (hv.guard hi)
    | stop => exact hrefl _

end Sound

def Settles (Q : α → σ → W → Prop) (E : ε → σ → W → Prop) (s : σ) (w : W) : Except ε α → Prop
  | .ok a => Q a s w
  | .error e => E e s w

variable (L i) in
/-- The process ends in `Q` with a result or in `E` with an exception; both see
the memory it leaves behind. -/
def Ensures (p : Process C R σ ε α) (Q : α → σ → W → Prop) (E : ε → σ → W → Prop)
    (s : σ) (w : W) : Prop :=
  L.Wp i (p.start s) (fun x w ↦ Settles Q E x.2 w x.1) w

namespace Ensures

variable {Q : α → σ → W → Prop} {E : ε → σ → W → Prop} {s : σ} {w : W}

theorem pure {a : α} (h : Q a s w) : L.Ensures i (pure a : Process C R σ ε α) Q E s w := h

theorem throw {e : ε} (h : E e s w) : L.Ensures i (throw e : Process C R σ ε α) Q E s w := h

theorem bind {p : Process C R σ ε α} {f : α → Process C R σ ε β} {Q : β → σ → W → Prop}
    (h : L.Ensures i p (fun a s ↦ L.Ensures i (f a) Q E s) E s w) :
    L.Ensures i (p >>= f) Q E s w := by
  have hp : L.Wp i (p.start s) _ w := h
  rw [Ensures, Process.start_bind]
  refine Wp.bind (hp.mono ?_)
  rintro ⟨_ | a, s⟩ w h <;> exact h

theorem map {p : Process C R σ ε α} {f : α → β} {Q : β → σ → W → Prop}
    (h : L.Ensures i p (fun a ↦ Q (f a)) E s w) : L.Ensures i (f <$> p) Q E s w := by
  have hp : L.Wp i (p.start s) _ w := h
  rw [Ensures, Process.start_map]
  refine Wp.bind (hp.mono ?_)
  rintro ⟨_ | a, s⟩ w h <;> exact h

theorem tryCatch {p : Process C R σ ε α} {f : ε → Process C R σ ε α}
    (h : L.Ensures i p Q (fun e s ↦ L.Ensures i (f e) Q E s) s w) :
    L.Ensures i (tryCatch p f) Q E s w := by
  have hp : L.Wp i (p.start s) _ w := h
  rw [Ensures, Process.start_tryCatch]
  refine Wp.bind (hp.mono ?_)
  rintro ⟨_ | a, s⟩ w h <;> exact h

theorem get {Q : σ → σ → W → Prop} (h : Q s s w) :
    L.Ensures i (get : Process C R σ ε σ) Q E s w := h

theorem set {Q : PUnit → σ → W → Prop} {s' : σ} (h : Q () s' w) :
    L.Ensures i (set s' : Process C R σ ε PUnit) Q E s w := h

theorem modify {Q : PUnit → σ → W → Prop} {f : σ → σ} (h : Q () (f s) w) :
    L.Ensures i (modify f : Process C R σ ε PUnit) Q E s w := h

theorem invoke {c : C} {f : R c → Except ε α}
    (h : ∀ w₁, L.rely i w w₁ → L.inv w₁ → L.guard i c w₁ ∧
      ∀ o w₂ r, M.exec i c o w₁ = (w₂, some r) → L.inv w₂ → Settles Q E s w₂ (f r)) :
    L.Ensures i (invoke c f) Q E s w := h

theorem keeps {p : Process C R σ ε α} (h : L.Ensures i p Q E s w) (hi : L.inv w) :
    L.Ensures i p (fun a s w ↦ L.inv w ∧ Q a s w) (fun e s w ↦ L.inv w ∧ E e s w) s w := by
  refine (Wp.keeps h hi).mono ?_
  rintro ⟨_ | a, s⟩ w h <;> exact h

theorem frame {p : Process C R σ ε α} {P : W → Prop}
    (hrely : ∀ w w', L.rely i w w' → P w → P w')
    (hexec : ∀ c o w, L.guard i c w → P w → P (M.exec i c o w).1) (h : L.Ensures i p Q E s w)
    (hP : P w) :
    L.Ensures i p (fun a s w ↦ P w ∧ Q a s w) (fun e s w ↦ P w ∧ E e s w) s w := by
  refine (Wp.frame hrely hexec h hP).mono ?_
  rintro ⟨_ | a, s⟩ w h <;> exact h

theorem mono {p : Process C R σ ε α} {Q' : α → σ → W → Prop} {E' : ε → σ → W → Prop}
    (h : L.Ensures i p Q E s w) (hQ : ∀ a s w, Q a s w → Q' a s w)
    (hE : ∀ e s w, E e s w → E' e s w) : L.Ensures i p Q' E' s w := by
  have hp : L.Wp i (p.start s) _ w := h
  refine hp.mono ?_
  rintro ⟨_ | a, s⟩ w h
  · exact hE _ s w h
  · exact hQ _ s w h

/-- An exception of the first part is one of the whole. -/
theorem andThen {p : Process C R σ ε α} {f : α → Process C R σ ε β} {P : α → σ → W → Prop}
    {Q : β → σ → W → Prop} (hp : L.Ensures i p P E s w)
    (hf : ∀ a s w, P a s w → L.Ensures i (f a) Q E s w) : L.Ensures i (p >>= f) Q E s w :=
  .bind (hp.mono hf fun _ _ _ he ↦ he)

end Ensures

end Logic

end RustdeskConsole.Effects
