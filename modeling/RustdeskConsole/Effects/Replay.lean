import Mathlib.Data.List.Basic

namespace RustdeskConsole.Effects

variable {κ α ε : Type}

/-- How events change a keyed state: an event writes some keys, whatever they
hold, and drops what it forbids from the others. -/
structure EventLaw (κ α ε : Type) where
  write : ε → κ → Option (Option α)
  drops : ε → α → Bool

namespace EventLaw

variable (L : EventLaw κ α ε)

def step (m : κ → Option α) (e : ε) : κ → Option α := fun k ↦
  match L.write e k with
  | some v => v
  | none => (m k).filter fun a ↦ !L.drops e a

/-- The state after the first `n` events. -/
def after (m : κ → Option α) (es : List ε) (n : ℕ) : κ → Option α := (es.take n).foldl L.step m

/-- A view that is replaying events and has got to `n`. What it does not hold as
it was then it holds as it was later, or lacks because it changes later, but
nothing is from after `b`. -/
def Chases (m : κ → Option α) (es : List ε) (b n : ℕ) (view : κ → Option α) : Prop :=
  ∀ k, view k = L.after m es n k ∨
    (∃ c, n < c ∧ c ≤ b ∧ view k = L.after m es c k) ∨
      view k = none ∧ ∃ c, n < c ∧ c ≤ b ∧ L.after m es c k ≠ L.after m es n k

/-- A view that was put together from what was read between `n` and `b`. What
did not change between the two it holds. -/
def Covers (m : κ → Option α) (es : List ε) (n b : ℕ) (view : κ → Option α) : Prop :=
  ∀ k, (view k = none ∨ ∃ c, n ≤ c ∧ c ≤ b ∧ view k = L.after m es c k) ∧
    ((∀ c, n ≤ c → c ≤ b → L.after m es c k = L.after m es n k) → view k = L.after m es n k)

variable {L} {m : κ → Option α} {es es' : List ε} {b n : ℕ} {view : κ → Option α} {e : ε}

theorem after_append (hn : n ≤ es.length) : L.after m (es ++ es') n = L.after m es n := by
  rw [after, after, List.take_append_of_le_length hn]

theorem after_succ (he : es[n]? = some e) :
    L.after m es (n + 1) = L.step (L.after m es n) e := by
  rw [after, after, List.take_add_one, he, Option.toList_some, List.foldl_append]
  rfl

theorem step_write {v : Option α} {k : κ} (h : L.write e k = some v) : L.step m e k = v := by
  simp only [step, h]

theorem step_drop {k : κ} (h : L.write e k = none) :
    L.step m e k = (m k).filter fun a ↦ !L.drops e a := by
  simp only [step, h]

theorem step_keep {k : κ} (h : L.write e k = none) (hd : ∀ a, L.drops e a = false) :
    L.step m e k = m k := by
  rw [step_drop h]
  cases m k with
  | none => rfl
  | some a => simp [hd a]

theorem Chases.append (h : L.Chases m es b n view) (hn : n ≤ es.length) (hb : b ≤ es.length) :
    L.Chases m (es ++ es') b n view := by
  intro k
  rw [after_append hn]
  refine (h k).imp id (Or.imp ?_ (And.imp id ?_))
  · rintro ⟨c, hc, hcb, heq⟩
    exact ⟨c, hc, hcb, by rw [after_append (Nat.le_trans hcb hb), heq]⟩
  · rintro ⟨c, hc, hcb, hne⟩
    exact ⟨c, hc, hcb, by rwa [after_append (Nat.le_trans hcb hb)]⟩

theorem Covers.chases (h : L.Covers m es n b view) : L.Chases m es b n view := by
  intro k
  obtain ⟨hread, hkept⟩ := h k
  rcases hread with hnone | ⟨c, hc, hcb, heq⟩
  · by_cases hn : view k = L.after m es n k
    · exact .inl hn
    · refine .inr (.inr ⟨hnone, ?_⟩)
      by_contra hall
      refine hn (hkept fun c hc hcb ↦ ?_)
      rcases Nat.eq_or_lt_of_le hc with rfl | hlt
      · rfl
      · by_contra hne
        exact hall ⟨c, hlt, hcb, hne⟩
  · rcases Nat.eq_or_lt_of_le hc with rfl | hlt
    · exact .inl heq
    · exact .inr (.inl ⟨c, hlt, hcb, heq⟩)

/-- Replaying the next event keeps up the chase. -/
theorem Chases.step (h : L.Chases m es b n view) (he : es[n]? = some e) :
    L.Chases m es b (n + 1) (L.step view e) := by
  intro k
  rw [after_succ he]
  cases hw : L.write e k with
  | some v => exact .inl ((step_write hw).trans (step_write hw).symm)
  | none =>
    rw [step_drop hw, step_drop hw]
    rcases h k with heq | ⟨c, hc, hcb, heq⟩ | ⟨hnone, c, hc, hcb, hne⟩
    · exact .inl (by rw [heq])
    · rcases Nat.eq_or_lt_of_le hc with rfl | hlt
      · refine .inl ?_
        rw [heq, after_succ he, step_drop hw, Option.filter_filter]
        simp
      · cases hv : view k with
        | none => exact .inr (.inl ⟨c, hlt, hcb, by rw [Option.filter_none, ← heq, hv]⟩)
        | some a =>
          cases hd : L.drops e a with
          | false =>
            have hkept : (some a).filter (fun a ↦ !L.drops e a) = some a := by simp [hd]
            exact .inr (.inl ⟨c, hlt, hcb, by rw [hkept, ← heq, hv]⟩)
          | true =>
            have hgone : (some a).filter (fun a ↦ !L.drops e a) = none := by simp [hd]
            refine .inr (.inr ⟨hgone, c, hlt, hcb, fun hsame ↦ ?_⟩)
            rw [← heq, hv] at hsame
            have hstays := (Option.filter_eq_some_iff.mp hsame.symm).2
            simp [hd] at hstays
    · rw [hnone, Option.filter_none]
      cases hold : (L.after m es n k).filter fun a ↦ !L.drops e a with
      | none => exact .inl rfl
      | some a =>
        have hsame : L.after m es n k = some a := (Option.filter_eq_some_iff.mp hold).1
        refine .inr (.inr ⟨rfl, c, ?_, hcb, hsame ▸ hne⟩)
        by_contra hle
        have heq : c = n + 1 := by omega
        rw [heq, after_succ he, step_drop hw, hold] at hne
        exact hne hsame.symm

/-- Past everything that was read the view is the state itself. -/
theorem Chases.caught_up (h : L.Chases m es b n view) (hb : b ≤ n) : view = L.after m es n := by
  funext k
  rcases h k with heq | ⟨c, hc, hcb, -⟩ | ⟨-, c, hc, hcb, -⟩
  · exact heq
  · omega
  · omega

end EventLaw

end RustdeskConsole.Effects
