import RustdeskConsole.Gateway.Protocol

namespace RustdeskConsole.Gateway

open Effects Effects.History Handler WebClientSessionService WebClient

/-- The call itself has only left calm events. -/
def Still (call : Call) (h h' : History) : Prop := Adds (fun e ↦ e.1 = call → e.2.Calm) h h'

/-- The termination records that a call has still to write. -/
structure Owes (call : Call) (closed : List Closed) (h : History) : Prop where
  nodup : (closed.map (·.guid)).Nodup
  handed : ∀ item ∈ closed, HandedTo h call item.guid
  unrecorded : ∀ item ∈ closed, ∀ reason closedBy,
    (call, .recorded item.guid (.sessionEnded reason closedBy)) ∉ h

section Growth

variable {call : Call} {h h' h'' : History} {P : Event → Prop} {e : Event}

theorem Still.refl (h : History) : Still call h h := Adds.refl h

theorem Still.trans (hs : Still call h h') (hs' : Still call h' h'') : Still call h h'' :=
  Adds.trans hs hs'

theorem Still.of_others (ha : Adds (fun e ↦ e.1 ≠ call) h h') : Still call h h' :=
  ha.mono fun _ hne heq ↦ absurd heq hne

theorem Still.note (hs : Still call h h') (he : e.Calm) : Still call h ((call, e) :: h') :=
  hs.cons fun _ ↦ he

theorem Owes.nil : Owes call [] h := ⟨List.nodup_nil, nofun, nofun⟩

/-- What a block handed to its call was not recorded before. -/
theorem Owes.of_handed {runtime : Runtime} {closed : List Closed} (hl : Lawful (law runtime) h)
    (hh : closed = [] ∨ ∃ earlier, h = (call, .handed closed) :: earlier) : Owes call closed h := by
  rcases hh with rfl | ⟨earlier, rfl⟩
  · exact .nil
  · obtain ⟨⟨hnodup, hnew⟩, hl⟩ := lawful_cons.mp hl
    refine ⟨hnodup, fun item hm ↦ ⟨closed, .head _, List.mem_map_of_mem hm⟩,
      fun item hm reason closedBy hr ↦ ?_⟩
    exact (hnew item hm).2 (recorded_handed hl ((mem_note (by simp)).mp hr))

theorem Owes.others {closed : List Closed} (ho : Owes call closed h)
    (ha : Adds (fun e ↦ e.1 ≠ call) h h') : Owes call closed h' :=
  ⟨ho.nodup, fun item hm ↦ (ho.handed item hm).mono ha.suffix, fun item hm reason closedBy ↦
    ha.not_mem (ho.unrecorded item hm reason closedBy) fun hne ↦ hne rfl⟩

end Growth

section Rules

variable {runtime : Runtime} {call : Call} {w : World} {s : Locals} {α β : Type}
  {Q : α → Locals → World → Prop} {E : Failure → Locals → World → Prop}

/-- A command that leaves calm events only. -/
theorem calm_ensures {c : Command} {f : Reply c → Except Failure α}
    (hc : ∀ e, c.marks e = false) (hg : ∀ w, guard runtime call c w)
    (hk : ∀ w' r, Still call w.history w'.history → Owes call (c.closed r) w'.history →
      Logic.Settles Q E s w' (f r)) :
    (logic runtime).Ensures call (invoke c f) Q E s w := by
  refine .invoke fun w₁ hr hi ↦ ⟨hg w₁, fun o w₂ r he hi₂ ↦ hk w₂ r ?_ ?_⟩
  · have ha := (exec_keeps c o hi.1 hi.2 (hg w₁)).adds
    rw [show exec runtime call c o w₁ = (w₂, some r) from he] at ha
    refine (Still.of_others hr).trans (ha.mono fun e hx _ ↦ ?_)
    rcases hx.2 with hm | hm
    · rw [hc] at hm
      cases hm
    · exact hm
  · have hh := (exec_keeps c o hi.1 hi.2 (hg w₁)).handed r
    rw [show exec runtime call c o w₁ = (w₂, some r) from he] at hh
    exact .of_handed hi₂.1.lawful (hh rfl)

/-- A command that only reads. -/
theorem read_ensures {c : Command} {f : Reply c → Except Failure α} {g : Choice → World → Reply c}
    (hc : ∀ o w, exec runtime call c o w = (w, some (g o w))) (hg : ∀ w, guard runtime call c w)
    (hk : ∀ w' o, Still call w.history w'.history → Sound runtime none w' →
      Logic.Settles Q E s w' (f (g o w'))) :
    (logic runtime).Ensures call (invoke c f) Q E s w := by
  refine .invoke fun w₁ hr hi ↦ ⟨hg w₁, fun o w₂ r he _ ↦ ?_⟩
  have hx : (w₁, some (g o w₁)) = (w₂, some r) := (hc o w₁).symm.trans he
  obtain ⟨rfl, hs⟩ := Prod.mk.inj hx
  obtain rfl := Option.some.inj hs
  exact hk w₁ o (.of_others hr) hi.1

theorem assert_ensures {condition : Bool} {failure : Failure} {Q : Unit → Locals → World → Prop}
    (hq : condition = true → Q () s w) (he : E failure s w) :
    (logic runtime).Ensures call (assert condition failure) Q E s w := by
  cases condition with
  | true => exact .pure (hq rfl)
  | false => exact .throw he

theorem unwrap_ensures {result : Except Failure α} (hq : ∀ a, Q a s w) (he : ∀ failure, E failure s w) :
    (logic runtime).Ensures call (unwrap result) Q E s w := by
  cases result with
  | ok a => exact .pure (hq a)
  | error failure => exact .throw (he failure)

end Rules

/-- A process that leaves calm events only, and its memory as it was. -/
def Quiet {α : Type} (runtime : Runtime) (call : Call) (p : Handler α) : Prop :=
  ∀ s w, (logic runtime).Ensures call p
    (fun _ s' w' ↦ s' = s ∧ Still call w.history w'.history)
    (fun _ s' w' ↦ s' = s ∧ Still call w.history w'.history) s w

namespace Quiet

variable {runtime : Runtime} {call : Call} {α β : Type} {p : Handler α}

theorem pure {a : α} : Quiet runtime call (pure a : Handler α) :=
  fun _ w ↦ .pure ⟨rfl, .refl w.history⟩

/-- What a quiet process cannot undo is still there when it ends. -/
theorem ensures {s : Locals} {w : World} {Q : α → Locals → World → Prop}
    {E : Failure → Locals → World → Prop} (hp : Quiet runtime call p)
    (hq : ∀ a w', Still call w.history w'.history → Q a s w')
    (he : ∀ failure w', Still call w.history w'.history → E failure s w') :
    (logic runtime).Ensures call p Q E s w :=
  (hp s w).mono (fun a _ w' h ↦ h.1 ▸ hq a w' h.2) fun failure _ w' h ↦ h.1 ▸ he failure w' h.2

theorem bind {f : α → Handler β} (hp : Quiet runtime call p) (hf : ∀ a, Quiet runtime call (f a)) :
    Quiet runtime call (p >>= f) := by
  intro s w
  refine .bind (hp.ensures (fun a w₁ h₁ ↦ ?_) fun _ w₁ h₁ ↦ ⟨rfl, h₁⟩)
  exact (hf a).ensures (fun _ w₂ h₂ ↦ ⟨rfl, h₁.trans h₂⟩) fun _ w₂ h₂ ↦ ⟨rfl, h₁.trans h₂⟩

theorem tryCatch {f : Failure → Handler α} (hp : Quiet runtime call p)
    (hf : ∀ failure, Quiet runtime call (f failure)) : Quiet runtime call (tryCatch p f) := by
  intro s w
  refine .tryCatch (hp.ensures (fun _ w₁ h₁ ↦ ⟨rfl, h₁⟩) fun failure w₁ h₁ ↦ ?_)
  exact (hf failure).ensures (fun _ w₂ h₂ ↦ ⟨rfl, h₁.trans h₂⟩) fun _ w₂ h₂ ↦ ⟨rfl, h₁.trans h₂⟩

theorem invoke {c : Command} {f : Reply c → Except Failure α} (hc : ∀ e, c.marks e = false)
    (hg : ∀ w, guard runtime call c w) : Quiet runtime call (invoke c f) := by
  intro s w
  refine calm_ensures hc hg fun w' r hs _ ↦ ?_
  rcases f r with _ | _ <;> exact ⟨rfl, hs⟩

theorem assert {condition : Bool} {failure : Failure} :
    Quiet runtime call (assert condition failure) :=
  fun _ w ↦ assert_ensures (fun _ ↦ ⟨rfl, .refl w.history⟩) ⟨rfl, .refl w.history⟩

end Quiet

end RustdeskConsole.Gateway
