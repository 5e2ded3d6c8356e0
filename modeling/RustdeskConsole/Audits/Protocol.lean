import RustdeskConsole.Audits.Service
import RustdeskConsole.Effects.Logic

namespace RustdeskConsole.Audits

open Effects

variable {ρ δ : Type} (entry : ρ → Entry δ) {w w' : World ρ δ} {call : Call ρ}

/-- The key under which a call files its event. -/
abbrev Call.key (call : Call ρ) : String × Option String := (entry call.request).key

/-- A call has come to the point at which it reads its info. -/
def Reads (call : Call ρ) (history : List (Call ρ × Event δ)) : Prop :=
  (call, .looked false) ∈ history ∨
    (call, .began) ∈ history ∧ orNull (entry call.request).nonce = none

/-- How a call may end: with a row of its key, or with a failure that has come up. -/
def Justified (call : Call ρ) (w : World ρ δ) : Except Failure (Audit δ) → Prop
  | .ok row => row ∈ w.rows ∧ row.key = call.key entry
  | .error (.database _) => True
  | .error .uniqueConstraint => (call, .missed) ∈ w.history
  | .error .typeError => (entry call.request).data = none ∧ Reads entry call w.history

structure Sound (w : World ρ δ) : Prop where
  indexed : Indexed w.rows
  justified : ∀ call result, (call, .answered result) ∈ w.history → Justified entry call w result

def guard (call : Call ρ) (c : Command δ) (w : World ρ δ) : Prop :=
  match c with
  | .save deviceId _ nonce _ => (deviceId, nonce) = call.key entry
  | .findAgain deviceId nonce =>
    (deviceId, some nonce) = call.key entry ∧ (call, .refused) ∈ w.history
  | .answer result => Justified entry call w result
  | _ => True

/-- What every command does: rows and events stay. -/
structure Keeps (w w' : World ρ δ) : Prop where
  rows : w.rows ⊆ w'.rows
  history : w.history ⊆ w'.history

namespace Keeps

theorem refl : Keeps w w := ⟨fun _ hm ↦ hm, fun _ hm ↦ hm⟩

theorem trans {w'' : World ρ δ} (hk : Keeps w w') (hk' : Keeps w' w'') : Keeps w w'' :=
  ⟨fun _ hm ↦ hk'.rows (hk.rows hm), fun _ hm ↦ hk'.history (hk.history hm)⟩

theorem note {event : Event δ} : Keeps w (w.note call event) :=
  ⟨fun _ hm ↦ hm, fun _ hm ↦ .tail _ hm⟩

theorem insert {row : Audit δ} : Keeps w (w.insert row) :=
  ⟨fun _ hm ↦ List.mem_append_left _ hm, fun _ hm ↦ hm⟩

end Keeps

theorem exec_keeps {c : Command δ} {o : Outcome} : Keeps w (exec call c o w).1 := by
  cases c with
  | isDeviceCloneIsolationEnabled => exact .note
  | findPeer uuid =>
    rw [exec]
    split
    · exact .refl
    · exact .refl
  | findOne deviceId nonce =>
    rw [exec]
    split
    · exact .refl
    · exact .note
  | save deviceId deviceUuid nonce data =>
    rw [exec]
    split
    · exact .refl
    · split
      · exact .note
      · exact .insert
  | findAgain deviceId nonce =>
    rw [exec]
    split
    · exact .refl
    · split
      · exact .note
      · exact .refl
  | answer result => exact .note

variable {entry}

theorem Reads.keeps {history history' : List (Call ρ × Event δ)}
    (hr : Reads entry call history) (hk : history ⊆ history') : Reads entry call history' :=
  hr.imp (fun hm ↦ hk hm) fun hm ↦ ⟨hk hm.1, hm.2⟩

theorem Justified.keeps {result : Except Failure (Audit δ)} (hj : Justified entry call w result)
    (hk : Keeps w w') : Justified entry call w' result := by
  match result with
  | .ok row => exact ⟨hk.rows hj.1, hj.2⟩
  | .error (.database message) => trivial
  | .error .uniqueConstraint => exact hk.history hj
  | .error .typeError => exact ⟨hj.1, hj.2.keeps hk.history⟩

theorem Sound.note {event : Event δ} (hs : Sound entry w)
    (he : ∀ result, event = .answered result → Justified entry call w result) :
    Sound entry (w.note call event) := by
  refine ⟨hs.indexed, fun other result hm ↦ ?_⟩
  rcases List.mem_cons.mp hm with heq | hm
  · obtain ⟨rfl, hevent⟩ := Prod.mk.inj heq
    exact (he result hevent.symm).keeps .note
  · exact (hs.justified other result hm).keeps .note

theorem not_taken {rows : List (Audit δ)} {nonce : Option String} (ht : ¬taken rows nonce = true) :
    nonce = none ∨ ∀ row ∈ rows, row.nonce ≠ nonce := by
  cases nonce with
  | none => exact .inl rfl
  | some nonce =>
    refine .inr fun row hm heq ↦ ht ?_
    rw [taken, Option.isSome_some, Bool.true_and]
    exact List.any_eq_true.mpr ⟨row, hm, decide_eq_true heq⟩

theorem exec_sound {c : Command δ} {o : Outcome} (hs : Sound entry w)
    (hg : guard entry call c w) : Sound entry (exec call c o w).1 := by
  cases c with
  | isDeviceCloneIsolationEnabled => exact hs.note nofun
  | findPeer uuid =>
    rw [exec]
    split
    · exact hs
    · exact hs
  | findOne deviceId nonce =>
    rw [exec]
    split
    · exact hs
    · exact hs.note nofun
  | save deviceId deviceUuid nonce data =>
    rw [exec]
    split
    · exact hs
    · split
      · exact hs.note nofun
      · next ht =>
        exact ⟨indexed_append hs.indexed (not_taken ht),
          fun other result hm ↦ (hs.justified other result hm).keeps .insert⟩
  | findAgain deviceId nonce =>
    rw [exec]
    split
    · exact hs
    · split
      · exact hs.note nofun
      · exact hs
  | answer result =>
    refine hs.note fun answer heq ↦ ?_
    cases heq
    exact hg

variable (entry) in
/-- A call files its event under its own key, and ends as it may. -/
def logic (serve : ρ → Handler δ (Audit δ)) : Logic (machine serve) where
  inv := Sound entry
  guard := guard entry
  rely _ := Keeps
  rely_refl _ _ := .refl
  rely_trans _ := .trans
  keeps _ _ := exec_sound
  interferes _ _ _ _ _ := exec_keeps

section Specs

variable {serve : ρ → Handler δ (Audit δ)} {isolatedDeviceUuid : String → String → String}
  {s : Unit}

variable (entry serve call) in
/-- The process ends in `Q`, or with a failure that has come up. -/
abbrev Does {α : Type} (p : Handler δ α) (Q : α → World ρ δ → Prop) (w : World ρ δ) : Prop :=
  (logic entry serve).Ensures call p (fun a _ w ↦ Q a w)
    (fun e _ w ↦ Justified entry call w (.error e)) () w

theorem find_mem {rows : List (Audit δ)} {deviceId nonce : String} {row : Audit δ}
    (hf : find rows deviceId nonce = some row) :
    row ∈ rows ∧ row.key = (deviceId, some nonce) :=
  ⟨List.mem_of_find?_eq_some hf, by simpa using List.find?_some hf⟩

theorem findPeer_spec {uuid : String} (hb : (call, .began) ∈ w.history) :
    Does entry call serve (attempt (.findPeer uuid) rfl)
      (fun _ w ↦ (call, .began) ∈ w.history) w := by
  refine .invoke fun w₁ hk _ ↦ ⟨trivial, fun o w₂ r hx _ ↦ ?_⟩
  cases hf : o.failure with
  | some message =>
    simp only [machine, exec, hf] at hx
    cases hx
    trivial
  | none =>
    simp only [machine, exec, hf] at hx
    cases hx
    exact hk.history hb

theorem resolveDeviceUuid_spec {uuid id : String} :
    Does entry call serve (resolveDeviceUuid isolatedDeviceUuid uuid id)
      (fun _ w ↦ (call, .began) ∈ w.history) w := by
  refine .bind (.invoke fun w₁ _ _ ↦ ⟨trivial, fun o w₂ enabled hx _ ↦ ?_⟩)
  cases hx
  have hb : (call, .began) ∈ (w₁.note call .began).history := .head _
  cases hc : o.cloneIsolation with
  | false => exact .pure hb
  | true =>
    refine .bind ((findPeer_spec hb).mono (fun existing _ w₂ hb ↦ ?_) fun _ _ _ he ↦ he)
    cases existing with
    | some peer => exact .pure hb
    | none => exact .bind ((findPeer_spec hb).mono (fun _ _ _ hb ↦ .pure hb) fun _ _ _ he ↦ he)

/-- What is found has the key of the call; otherwise the call may read its info. -/
theorem existing_spec (hb : (call, .began) ∈ w.history) :
    Does entry call serve (existing (entry call.request))
      (fun found w ↦ match found with
        | some row => Justified entry call w (.ok row)
        | none => Reads entry call w.history) w := by
  rw [existing]
  split
  · next hn => exact .pure (.inr ⟨hb, hn⟩)
  · next nonce hn =>
    refine .invoke fun w₁ hk _ ↦ ⟨trivial, fun o w₂ r hx _ ↦ ?_⟩
    cases hf : o.failure with
    | some message =>
      simp only [machine, exec, hf] at hx
      cases hx
      trivial
    | none =>
      simp only [machine, exec, hf] at hx
      cases hx
      cases hfind : find w₁.rows (entry call.request).deviceId nonce with
      | none => exact .inl (.head _)
      | some row =>
        obtain ⟨hm, hkey⟩ := find_mem hfind
        exact ⟨hm, hkey.trans (by rw [Call.key, Entry.key, hn])⟩

theorem recover_spec {err : Failure} (he : err = .uniqueConstraint →
      (call, .refused) ∈ w.history ∧ orNull (entry call.request).nonce ≠ none)
    (hj : err ≠ .uniqueConstraint → Justified entry call w (.error err)) :
    Does entry call serve (recover (entry call.request) err)
      (fun row w ↦ Justified entry call w (.ok row)) w := by
  unfold recover
  cases hn : orNull (entry call.request).nonce with
  | none => exact .throw (hj fun hu ↦ (he hu).2 hn)
  | some nonce =>
    cases err with
    | database message => exact .throw (hj nofun)
    | typeError => exact .throw (hj nofun)
    | uniqueConstraint =>
      have hkey : ((entry call.request).deviceId, some nonce) = call.key entry := by
        rw [Call.key, Entry.key, hn]
      refine .bind (.invoke fun w₁ hk _ ↦ ⟨⟨hkey, hk.history (he rfl).1⟩, fun o w₂ r hx _ ↦ ?_⟩)
      cases hf : o.failure with
      | some message =>
        simp only [machine, exec, hf] at hx
        cases hx
        trivial
      | none =>
        simp only [machine, exec, hf] at hx
        cases hfind : find w₁.rows (entry call.request).deviceId nonce with
        | none =>
          simp only [hfind] at hx
          cases hx
          exact .throw (.head _)
        | some row =>
          simp only [hfind] at hx
          cases hx
          obtain ⟨hm, hrow⟩ := find_mem hfind
          exact .pure ⟨hm, hrow.trans hkey⟩

theorem save_spec {uuid : String} {data : δ} :
    Does entry call serve
      (tryCatch (attempt (.save (entry call.request).deviceId uuid
        (orNull (entry call.request).nonce) data) rfl) (recover (entry call.request)))
      (fun row w ↦ Justified entry call w (.ok row)) w := by
  refine .tryCatch (.invoke fun w₁ hk _ ↦ ⟨rfl, fun o w₂ r hx _ ↦ ?_⟩)
  cases hf : o.failure with
  | some message =>
    simp only [machine, exec, hf] at hx
    cases hx
    exact recover_spec nofun fun _ ↦ trivial
  | none =>
    simp only [machine, exec, hf] at hx
    split at hx
    · next ht =>
      cases hx
      refine recover_spec (fun _ ↦ ⟨.head _, fun hn ↦ ?_⟩) fun hne ↦ absurd rfl hne
      rw [hn, taken] at ht
      cases ht
    · cases hx
      exact ⟨List.mem_append_right _ (.head _), rfl⟩

theorem audit_spec : Does entry call serve (audit isolatedDeviceUuid (entry call.request))
    (fun row w ↦ Justified entry call w (.ok row)) w := by
  refine .bind (resolveDeviceUuid_spec.mono (fun uuid _ w₁ hb ↦ ?_) fun _ _ _ he ↦ he)
  refine .bind ((existing_spec hb).mono (fun found _ w₂ hfound ↦ ?_) fun _ _ _ he ↦ he)
  cases found with
  | some row => exact .pure hfound
  | none =>
    dsimp only
    split
    · next hd => exact .throw ⟨hd, hfound⟩
    · exact save_spec

theorem admissible :
    (logic entry fun request ↦ audit isolatedDeviceUuid (entry request)).Admissible := by
  rintro call w p - ⟨-, rfl⟩
  refine Logic.Wp.bind (Logic.Wp.mono audit_spec fun x w₁ hx ↦ ?_)
  obtain ⟨result, s⟩ := x
  refine fun w₂ hk _ ↦ ⟨?_, fun _ _ _ _ _ ↦ trivial⟩
  have hj : Justified entry call w₁ result := by
    cases result with
    | ok row => exact hx
    | error failure => exact hx
  exact hj.keeps hk

end Specs

end RustdeskConsole.Audits
