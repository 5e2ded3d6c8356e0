import Mathlib.Logic.Basic
import Mathlib.Data.List.Basic
import Mathlib.Data.List.Forall2

namespace RustdeskConsole.Effects

variable {ε σ α β : Type} {x : EStateM ε σ α} {f : α → EStateM ε σ β} {a : α} {e : ε} {s s' : σ}

/-- Started at `s`, the program ends, with a result or with an error, where `Q`
holds. -/
def Ends (x : EStateM ε σ α) (s : σ) (Q : Except ε α → σ → Prop) : Prop :=
  match x s with
  | .ok a s' => Q (.ok a) s'
  | .error e s' => Q (.error e) s'

/-- The state that a program leaves, however it ends. -/
def finalState (x : EStateM ε σ α) (s : σ) : σ :=
  match x s with
  | .ok _ s' => s'
  | .error _ s' => s'

namespace Ends

variable {P Q : Except ε α → σ → Prop}

theorem finalState {Q : σ → Prop} (h : Ends x s fun _ s' ↦ Q s') : Q (finalState x s) := by
  rw [Ends] at h
  rw [Effects.finalState]
  cases hx : x s with
  | ok a s' =>
    rw [hx] at h
    exact h
  | error e s' =>
    rw [hx] at h
    exact h

theorem of_ok (h : Ends x s Q) (hx : x s = .ok a s') : Q (.ok a) s' := by
  rw [Ends, hx] at h
  exact h

theorem of_error (h : Ends x s Q) (hx : x s = .error e s') : Q (.error e) s' := by
  rw [Ends, hx] at h
  exact h

theorem intro (hok : ∀ a s', x s = .ok a s' → Q (.ok a) s')
    (herror : ∀ e s', x s = .error e s' → Q (.error e) s') : Ends x s Q := by
  rw [Ends]
  cases hx : x s with
  | ok a s' => exact hok a s' hx
  | error e s' => exact herror e s' hx

theorem mono (h : Ends x s P) (hq : ∀ r s', P r s' → Q r s') : Ends x s Q :=
  intro (fun _ s' hx ↦ hq _ s' (h.of_ok hx)) fun _ s' hx ↦ hq _ s' (h.of_error hx)

theorem of_run {y : EStateM ε σ α} (h : Ends y s' Q) (hrun : x s = y s') : Ends x s Q := by
  rwa [Ends, hrun]

theorem pure (h : Q (.ok a) s) : Ends (pure a) s Q := h

theorem throw (h : Q (.error e) s) : Ends (throw e) s Q := h

theorem get {Q : Except ε σ → σ → Prop} (h : Q (.ok s) s) : Ends MonadState.get s Q := h

theorem modify {g : σ → σ} {Q : Except ε PUnit → σ → Prop} (h : Q (.ok ()) (g s)) :
    Ends (modify g) s Q := h

theorem get_bind {f : σ → EStateM ε σ β} {Q : Except ε β → σ → Prop} (h : Ends (f s) s Q) :
    Ends (MonadState.get >>= f) s Q := h

theorem modify_bind {g : σ → σ} {f : PUnit → EStateM ε σ β} {Q : Except ε β → σ → Prop}
    (h : Ends (f ()) (g s) Q) : Ends (modifyThe σ g >>= f) s Q := h

theorem bind {Q : Except ε β → σ → Prop} (hx : Ends x s P)
    (hf : ∀ a s', P (.ok a) s' → Ends (f a) s' Q)
    (he : ∀ e s', P (.error e) s' → Q (.error e) s') : Ends (x >>= f) s Q := by
  have hb : (x >>= f) s = EStateM.bind x f s := rfl
  rw [Ends, hb, EStateM.bind]
  cases hr : x s with
  | ok a s' => exact hf a s' (hx.of_ok hr)
  | error e s' => exact he e s' (hx.of_error hr)

theorem tryCatch {g : ε → EStateM ε σ α} (hx : Ends x s P)
    (hok : ∀ a s', P (.ok a) s' → Q (.ok a) s')
    (hg : ∀ e s', P (.error e) s' → Ends (g e) s' Q) : Ends (tryCatch x g) s Q := by
  have hb : (MonadExcept.tryCatch x g) s = EStateM.tryCatch x g s := rfl
  rw [Ends, hb]
  delta EStateM.tryCatch
  cases hr : x s with
  | ok a s' => exact hok a s' (hx.of_ok hr)
  | error e s' => exact hg e s' (hx.of_error hr)

end Ends

namespace Checked

def assert (condition : Bool) (failure : ε) : EStateM ε σ Unit :=
  if condition then pure () else throw failure

def require (value : Option α) (failure : ε) : EStateM ε σ α :=
  match value with
  | some a => pure a
  | none => throw failure

/-- A reply from elsewhere. -/
def reply (x : Except ε α) : EStateM ε σ α :=
  match x with
  | .ok a => pure a
  | .error failure => throw failure

variable {condition : Bool} {failure : ε} {Q : Except ε β → σ → Prop}

theorem assert_bind {f : Unit → EStateM ε σ β} (he : Q (.error failure) s)
    (h : condition = true → Ends (f ()) s Q) : Ends (assert condition failure >>= f) s Q := by
  cases condition with
  | true => exact h rfl
  | false => exact .throw he

theorem require_bind {value : Option α} (he : Q (.error failure) s)
    (h : ∀ a, value = some a → Ends (f a) s Q) : Ends (require value failure >>= f) s Q := by
  cases value with
  | some a => exact h a rfl
  | none => exact .throw he

theorem reply_bind {x : Except ε α} (he : ∀ failure, Q (.error failure) s)
    (h : ∀ a, x = .ok a → Ends (f a) s Q) : Ends (reply x >>= f) s Q := by
  cases x with
  | ok a => exact h a rfl
  | error failure => exact .throw (he failure)

end Checked

/-- Started where `P` holds, the program ends where `P` holds. -/
def Preserves (P : σ → Prop) (x : EStateM ε σ α) : Prop := ∀ s, P s → Ends x s fun _ ↦ P

namespace Preserves

variable {P : σ → Prop}

theorem pure : Preserves P (pure a : EStateM ε σ α) := fun _ h ↦ .pure h

theorem throw : Preserves P (throw e : EStateM ε σ α) := fun _ h ↦ .throw h

theorem get : Preserves P (MonadState.get : EStateM ε σ σ) := fun _ h ↦ .get h

theorem modify {g : σ → σ} (h : ∀ s, P s → P (g s)) :
    Preserves P (modify g : EStateM ε σ PUnit) := fun s hs ↦ .modify (h s hs)

theorem bind (hx : Preserves P x) (hf : ∀ a, Preserves P (f a)) : Preserves P (x >>= f) :=
  fun s hs ↦ (hx s hs).bind (fun a s' h ↦ hf a s' h) fun _ _ h ↦ h

theorem forM {turn : α → EStateM ε σ PUnit} (h : ∀ a, Preserves P (turn a)) (as : List α) :
    Preserves P (as.forM turn) := by
  induction as with
  | nil => exact pure
  | cons a as ih => exact bind (h a) fun _ ↦ ih

end Preserves

end RustdeskConsole.Effects

namespace RustdeskConsole.Effects.Guard

variable {ε α β : Type} {x : Except ε α} {f : α → Except ε β} {a a' : α} {b : β} {e : ε}

def require (value : Option α) (error : ε) : Except ε α :=
  match value with
  | some a => .ok a
  | none => .error error

def refuseIf (condition : Bool) (error : ε) : Except ε Unit :=
  if condition then .error error else .ok ()

theorem require_eq_ok {value : Option α} : require value e = .ok a ↔ value = some a := by
  cases value with
  | none => exact ⟨nofun, nofun⟩
  | some b =>
    simp only [require, Except.ok.injEq, Option.some.injEq]

theorem refuseIf_eq_ok {condition : Bool} : refuseIf condition e = .ok () ↔ condition = false := by
  cases condition with
  | false => exact ⟨fun _ ↦ rfl, fun _ ↦ rfl⟩
  | true => exact ⟨nofun, nofun⟩

theorem bind_eq_ok : x >>= f = .ok b ↔ ∃ a, x = .ok a ∧ f a = .ok b := by
  cases x with
  | error e =>
    constructor
    · intro h
      cases h
    · intro ⟨_, h, _⟩
      cases h
  | ok a =>
    constructor
    · intro h
      exact ⟨a, rfl, h⟩
    · intro ⟨_, h, hf⟩
      cases h
      exact hf

theorem pure_eq_ok : (pure a : Except ε α) = .ok a' ↔ a = a' :=
  ⟨Except.ok.inj, congrArg Except.ok⟩

theorem map_eq_ok {g : α → β} : x.map g = .ok b ↔ ∃ a, x = .ok a ∧ g a = b := by
  cases x with
  | error e => simp [Except.map]
  | ok a => simp [Except.map]

theorem exists_unit {p : Unit → Prop} : (∃ u, p u) ↔ p () := ⟨fun ⟨_, h⟩ ↦ h, fun h ↦ ⟨(), h⟩⟩

theorem discard_eq_ok : discard x = .ok () ↔ ∃ a, x = .ok a := by
  cases x with
  | error e => exact ⟨nofun, nofun⟩
  | ok a => exact ⟨fun _ ↦ ⟨a, rfl⟩, fun _ ↦ rfl⟩

end RustdeskConsole.Effects.Guard

namespace RustdeskConsole.Effects.Loop

variable {ε σ α β : Type} {x : EStateM ε σ α} {f : α → EStateM ε σ β} {a : α} {s s' : σ}

theorem bind_ok (hx : x s = .ok a s') : (x >>= f) s = f a s' := by
  have hb : (x >>= f) s = EStateM.bind x f s := rfl
  rw [hb, EStateM.bind, hx]

theorem bind_error {e : ε} (hx : x s = .error e s') : (x >>= f) s = .error e s' := by
  have hb : (x >>= f) s = EStateM.bind x f s := rfl
  rw [hb, EStateM.bind, hx]

theorem exists_of_bind_ok {f : PUnit → EStateM ε σ PUnit} {x : EStateM ε σ PUnit}
    (h : (x >>= f) s = .ok () s') : ∃ s₁, x s = .ok () s₁ ∧ f () s₁ = .ok () s' := by
  cases hx : x s with
  | ok u s₁ => exact ⟨s₁, rfl, (bind_ok hx).symm.trans h⟩
  | error e s₁ => cases (bind_error hx).symm.trans h

/-- A loop whose turns all succeed, and keep what holds of the turns so far. -/
theorem forM_ok {turn : α → EStateM ε σ PUnit} {as : List α} (inv : List α → σ → Prop)
    (hstep : ∀ done a rest s, as = done ++ a :: rest → inv done s →
      ∃ s', turn a s = .ok () s' ∧ inv (done ++ [a]) s')
    (hs : inv [] s) : ∃ s', as.forM turn s = .ok () s' ∧ inv as s' := by
  suffices h : ∀ rest done s, as = done ++ rest → inv done s →
      ∃ s', rest.forM turn s = .ok () s' ∧ inv as s' from h as [] s rfl hs
  intro rest
  induction rest with
  | nil =>
    intro done s has hinv
    rw [List.append_nil] at has
    exact ⟨s, rfl, has ▸ hinv⟩
  | cons a rest ih =>
    intro done s has hinv
    obtain ⟨s₁, hturn, hinv₁⟩ := hstep done a rest s has hinv
    obtain ⟨s', hrest, hinv'⟩ := ih (done ++ [a]) s₁ (by rw [has, List.append_assoc]; rfl) hinv₁
    exact ⟨s', (bind_ok hturn).trans hrest, hinv'⟩

/-- Each turn of a loop that ends well was started where what every turn keeps held. -/
theorem forM_eq_ok {turn : α → EStateM ε σ PUnit} {as : List α} {P : σ → Prop}
    (hP : ∀ a, Preserves P (turn a)) (hs : P s) (h : as.forM turn s = .ok () s') (ha : a ∈ as) :
    ∃ s₁ s₂, P s₁ ∧ turn a s₁ = .ok () s₂ := by
  induction as generalizing s with
  | nil => cases ha
  | cons b as ih =>
    obtain ⟨s₁, hturn, hrest⟩ := exists_of_bind_ok h
    rcases List.mem_cons.mp ha with rfl | ha
    · exact ⟨s, s₁, hs, hturn⟩
    · exact ih ((hP b s hs).of_ok hturn) hrest ha

end RustdeskConsole.Effects.Loop
