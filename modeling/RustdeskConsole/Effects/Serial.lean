import RustdeskConsole.Effects.Machine

namespace RustdeskConsole.Effects

variable {ι C : Type} {R : C → Type} {O W ε α β : Type}

/-- The program, run from one world to its end with nothing else going on, ends
in another world with a result. -/
inductive Serves (M : Machine ι C R O W) (i : ι) : Prog C R α → W → α → W → Prop
  | done {a : α} {w : W} : Serves M i (.done a) w a w
  | call {c : C} {k : R c → Prog C R α} {o : O} {r : R c} {a : α} {w w' w'' : W} :
      M.exec i c o w = (w', some r) → Serves M i (k r) w' a w'' → Serves M i (.call c k) w a w''

/-- A process run to its end alone: its result and the world it leaves. -/
def Completes (M : Machine ι C R O W) (i : ι) (p : Process C R Unit ε α) (w : W) (x : Except ε α)
    (w' : W) : Prop := Serves M i (p.start ()) w (x, ()) w'

/-- However the process goes when it is left to itself, it ends in `Q`. -/
def Yields (M : Machine ι C R O W) (i : ι) (p : Process C R Unit ε α) (w : W)
    (Q : Except ε α → W → Prop) : Prop := ∀ x w', Completes M i p w x w' → Q x w'

/-- Whatever the world chooses, the process ends in the same way. -/
structure Evaluates (M : Machine ι C R O W) (i : ι) (p : Process C R Unit ε α) (w : W)
    (x : Except ε α) (w' : W) : Prop where
  completes : Completes M i p w x w'
  yields : Yields M i p w fun y w'' ↦ y = x ∧ w'' = w'

/-- The program run to its end alone, with the world's choices given one by one. -/
def Machine.complete (M : Machine ι C R O W) (i : ι) : List O → Prog C R α → W → Option (α × W)
  | _, .done a, w => some (a, w)
  | [], .call _ _, _ => none
  | o :: os, .call c k, w =>
    match M.exec i c o w with
    | (w', some r) => M.complete i os (k r) w'
    | (_, none) => none

/-- Started where `P` holds and left to itself, the process ends where `P` holds. -/
def Maintains (M : Machine ι C R O W) (i : ι) (P : W → Prop) (p : Process C R Unit ε α) : Prop :=
  ∀ w, P w → Yields M i p w fun _ w' ↦ P w'

variable {M : Machine ι C R O W} {i : ι} {w w' w'' : W}

namespace Serves

variable {a : α} {b : β}

theorem bind {p : Prog C R α} {f : α → Prog C R β} (hp : Serves M i p w a w')
    (hf : Serves M i (f a) w' b w'') : Serves M i (p >>= f) w b w'' := by
  induction hp with
  | done => exact hf
  | call he _ ih => exact .call he (ih hf)

theorem of_bind {p : Prog C R α} {f : α → Prog C R β} (h : Serves M i (p >>= f) w b w'') :
    ∃ a w', Serves M i p w a w' ∧ Serves M i (f a) w' b w'' := by
  induction p generalizing w with
  | done a => exact ⟨a, w, .done, h⟩
  | call c k ih =>
    cases h with
    | call he hk =>
      obtain ⟨a, w', hp, hf⟩ := ih _ hk
      exact ⟨a, w', .call he hp, hf⟩

theorem of_complete {os : List O} {p : Prog C R α} (h : M.complete i os p w = some (a, w')) :
    Serves M i p w a w' := by
  induction os generalizing p w with
  | nil =>
    cases p with
    | done b =>
      cases h
      exact .done
    | call c k => cases h
  | cons o os ih =>
    cases p with
    | done b =>
      cases h
      exact .done
    | call c k =>
      rw [Machine.complete] at h
      rcases he : M.exec i c o w with ⟨w₁, _ | r⟩
      · simp only [he] at h
        cases h
      · simp only [he] at h
        exact .call he (ih h)

end Serves

namespace Completes

variable {p : Process C R Unit ε α} {f : α → Process C R Unit ε β} {x : Except ε β} {a : α} {e : ε}

theorem pure : Completes M i (pure a : Process C R Unit ε α) w (.ok a) w := .done

theorem throw : Completes M i (throw e : Process C R Unit ε α) w (.error e) w := .done

theorem bind (hp : Completes M i p w (.ok a) w') (hf : Completes M i (f a) w' x w'') :
    Completes M i (p >>= f) w x w'' := by
  rw [Completes, Process.start_bind]
  exact Serves.bind hp hf

theorem bind_throw (hp : Completes M i p w (.error e) w') :
    Completes M i (p >>= f) w (.error e) w' := by
  rw [Completes, Process.start_bind]
  exact Serves.bind hp .done

theorem of_bind (h : Completes M i (p >>= f) w x w'') :
    (∃ a w', Completes M i p w (.ok a) w' ∧ Completes M i (f a) w' x w'') ∨
      ∃ e, Completes M i p w (.error e) w'' ∧ x = .error e := by
  rw [Completes, Process.start_bind] at h
  obtain ⟨⟨y, u⟩, w', hp, hf⟩ := h.of_bind
  cases u
  cases y with
  | ok a => exact .inl ⟨a, w', hp, hf⟩
  | error e =>
    cases hf
    exact .inr ⟨e, hp, rfl⟩

theorem invoke {c : C} {g : R c → Except ε α} {o : O} {r : R c}
    (he : M.exec i c o w = (w', some r)) : Completes M i (invoke c g) w (g r) w' := .call he .done

theorem of_invoke {c : C} {g : R c → Except ε α} {y : Except ε α}
    (h : Completes M i (Effects.invoke c g) w y w') :
    ∃ o r, M.exec i c o w = (w', some r) ∧ y = g r := by
  cases h with
  | call he hk =>
    cases hk
    exact ⟨_, _, he, rfl⟩

theorem of_tryCatch {g : ε → Process C R Unit ε α} {y : Except ε α}
    (h : Completes M i (tryCatch p g) w y w'') :
    (∃ a, Completes M i p w (.ok a) w'' ∧ y = .ok a) ∨
      ∃ e w', Completes M i p w (.error e) w' ∧ Completes M i (g e) w' y w'' := by
  rw [Completes, Process.start_tryCatch] at h
  obtain ⟨⟨y, u⟩, w', hp, hf⟩ := h.of_bind
  cases u
  cases y with
  | ok a =>
    cases hf
    exact .inl ⟨a, hp, rfl⟩
  | error e => exact .inr ⟨e, w', hp, hf⟩

theorem tryCatch {g : ε → Process C R Unit ε α} (h : Completes M i p w (.ok a) w') :
    Completes M i (tryCatch p g) w (.ok a) w' := by
  rw [Completes, Process.start_tryCatch]
  exact Serves.bind h .done

end Completes

namespace Yields

variable {p : Process C R Unit ε α} {f : α → Process C R Unit ε β} {P Q : Except ε α → W → Prop}

theorem pure {a : α} (h : Q (.ok a) w) : Yields M i (pure a) w Q := by
  intro x w' hc
  cases hc
  exact h

theorem throw {e : ε} (h : Q (.error e) w) : Yields M i (throw e) w Q := by
  intro x w' hc
  cases hc
  exact h

theorem mono (hp : Yields M i p w P) (h : ∀ x w', P x w' → Q x w') : Yields M i p w Q :=
  fun x w' hc ↦ h x w' (hp x w' hc)

theorem bind {P : Except ε α → W → Prop} {Q : Except ε β → W → Prop} (hp : Yields M i p w P)
    (hf : ∀ a w', P (.ok a) w' → Yields M i (f a) w' Q)
    (he : ∀ e w', P (.error e) w' → Q (.error e) w') : Yields M i (p >>= f) w Q := by
  intro x w'' hc
  rcases hc.of_bind with ⟨a, w', hc, hfa⟩ | ⟨e, hthrown, rfl⟩
  · exact hf a w' (hp _ _ hc) x w'' hfa
  · exact he e w'' (hp _ _ hthrown)

theorem invoke {c : C} {g : R c → Except ε α}
    (h : ∀ o w' r, M.exec i c o w = (w', some r) → Q (g r) w') :
    Yields M i (Effects.invoke c g) w Q := by
  intro x w' hc
  obtain ⟨o, r, he, rfl⟩ := hc.of_invoke
  exact h o w' r he

theorem tryCatch {g : ε → Process C R Unit ε α} (hp : Yields M i p w P)
    (hok : ∀ a w', P (.ok a) w' → Q (.ok a) w')
    (hg : ∀ e w', P (.error e) w' → Yields M i (g e) w' Q) : Yields M i (tryCatch p g) w Q := by
  intro x w'' hc
  rcases hc.of_tryCatch with ⟨a, hdone, rfl⟩ | ⟨e, w', hthrown, hge⟩
  · exact hok a w'' (hp _ _ hdone)
  · exact hg e w' (hp _ _ hthrown) x w'' hge

end Yields

namespace Maintains

variable {P : W → Prop} {p : Process C R Unit ε α} {f : α → Process C R Unit ε β}

theorem pure (a : α) : Maintains M i P (pure a : Process C R Unit ε α) := fun _ h ↦ .pure h

theorem throw (e : ε) : Maintains M i P (throw e : Process C R Unit ε α) := fun _ h ↦ .throw h

theorem bind (hp : Maintains M i P p) (hf : ∀ a, Maintains M i P (f a)) :
    Maintains M i P (p >>= f) :=
  fun w h ↦ (hp w h).bind (fun a _ ↦ hf a _) fun _ _ h ↦ h

theorem invoke {c : C} {g : R c → Except ε α}
    (h : ∀ w o w' r, P w → M.exec i c o w = (w', some r) → P w') :
    Maintains M i P (Effects.invoke c g) := fun w hw ↦ .invoke fun o w' r he ↦ h w o w' r hw he

end Maintains

namespace Evaluates

variable {p : Process C R Unit ε α} {f : α → Process C R Unit ε β} {x : Except ε β} {a : α} {e : ε}

theorem pure : Evaluates M i (pure a : Process C R Unit ε α) w (.ok a) w :=
  ⟨.pure, .pure ⟨rfl, rfl⟩⟩

theorem throw : Evaluates M i (throw e : Process C R Unit ε α) w (.error e) w :=
  ⟨.throw, .throw ⟨rfl, rfl⟩⟩

/-- A command that leaves the world no choice. -/
theorem invoke {c : C} {g : R c → Except ε α} {r : R c} (o : O)
    (h : ∀ o, M.exec i c o w = (w', some r)) : Evaluates M i (Effects.invoke c g) w (g r) w' := by
  refine ⟨.invoke (h o), .invoke fun o₁ w₁ r₁ he ↦ ?_⟩
  rw [h o₁] at he
  obtain ⟨rfl, hr⟩ := Prod.mk.inj he
  cases hr
  exact ⟨rfl, rfl⟩

theorem bind (hp : Evaluates M i p w (.ok a) w') (hf : Evaluates M i (f a) w' x w'') :
    Evaluates M i (p >>= f) w x w'' := by
  refine ⟨hp.completes.bind hf.completes, hp.yields.bind (fun a₁ w₁ h ↦ ?_) fun e₁ w₁ h ↦ ?_⟩
  · obtain ⟨heq, rfl⟩ := h
    cases heq
    exact hf.yields
  · cases h.1

theorem bind_throw (hp : Evaluates M i p w (.error e) w') :
    Evaluates M i (p >>= f) w (.error e) w' := by
  refine ⟨hp.completes.bind_throw, hp.yields.bind (fun a₁ w₁ h ↦ ?_) fun e₁ w₁ h ↦ ?_⟩
  · cases h.1
  · obtain ⟨heq, rfl⟩ := h
    cases heq
    exact ⟨rfl, rfl⟩

theorem tryCatch {g : ε → Process C R Unit ε α} (hp : Evaluates M i p w (.ok a) w') :
    Evaluates M i (tryCatch p g) w (.ok a) w' := by
  refine ⟨hp.completes.tryCatch, hp.yields.tryCatch (fun _ _ h ↦ h) fun e w₁ h ↦ ?_⟩
  cases h.1

/-- What is known to happen goes on into what comes after it. -/
theorem bind_yields {Q : Except ε β → W → Prop} (hp : Evaluates M i p w (.ok a) w')
    (hf : Yields M i (f a) w' Q) : Yields M i (p >>= f) w Q := by
  refine hp.yields.bind (fun a₁ w₁ h ↦ ?_) fun e w₁ h ↦ ?_
  · obtain ⟨heq, rfl⟩ := h
    cases heq
    exact hf
  · cases h.1

theorem throw_yields {Q : Except ε β → W → Prop} (hp : Evaluates M i p w (.error e) w')
    (h : Q (.error e) w') : Yields M i (p >>= f) w Q := by
  intro y w₁ hc
  obtain ⟨rfl, rfl⟩ := hp.bind_throw.yields y w₁ hc
  exact h

end Evaluates

end RustdeskConsole.Effects
