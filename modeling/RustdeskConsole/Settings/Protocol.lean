import RustdeskConsole.Effects.History
import RustdeskConsole.Effects.Logic
import RustdeskConsole.Settings.Service

namespace RustdeskConsole.Settings

open Collections Effects Effects.History

/-- What a call last read. -/
def lastRead (call : Call) : History → Option GeneralSettings
  | [] => none
  | (other, .read current) :: h => if other = call then some current else lastRead call h
  | _ :: h => lastRead call h

/-- What a call last committed. -/
def ownCommit (call : Call) : History → Option GeneralSettings
  | [] => none
  | (other, .committed merged) :: h => if other = call then some merged else ownCommit call h
  | _ :: h => ownCommit call h

/-- The newest commit. -/
def lastCommit : History → Option (Call × GeneralSettings)
  | [] => none
  | (call, .committed merged) :: _ => some (call, merged)
  | _ :: h => lastCommit h

/-- The updates that have committed since the call has. -/
def committedSince (call : Call) : History → List Call
  | [] => []
  | (other, .committed _) :: h => if other = call then [] else other :: committedSince call h
  | _ :: h => committedSince call h

/-- Every update that has committed has stored its flag in the cache. -/
def Settled (h : History) : Prop :=
  ∀ call merged, (call, .committed merged) ∈ h → (call, .finished) ∈ h

/-- The flag that is stored is that of the newest commit. -/
structure Stored (w : World) : Prop where
  flag : ∀ call merged, lastCommit w.history = some (call, merged) →
    w.flag = merged.deviceCloneIsolation
  reads : ∀ call current, (call, .read current) ∈ w.history → 1 ≤ current.jwtExpiryDays

/-- A flag that was read under a generation may still be put in the cache. -/
structure Sampled (generation : ℕ) (flag : Bool) (w : World) : Prop where
  known : generation ≤ w.cacheGeneration
  flag : w.cacheGeneration = generation → Settled w.history → flag = w.flag

def guard (call : Call) (c : Command) (w : World) : Prop :=
  match c with
  | .transaction merged => (call, .finished) ∉ w.history ∧ ∃ dto current,
    call.request = .updateSettings dto ∧ lastRead call w.history = some current ∧
      merged = merge dto current
  | .storeFlag flag => ∃ merged, ownCommit call w.history = some merged ∧
    merged.deviceCloneIsolation = flag
  | .refreshFlag generation flag => Sampled generation flag w
  | _ => True

variable {w w' : World} {call other : Call} {h h' : History}

theorem lastRead_of_grown (hg : Grown (fun e ↦ e.1 ≠ call) h h') :
    lastRead call h' = lastRead call h := by
  obtain ⟨later, rfl, hl⟩ := hg
  induction later with
  | nil => rfl
  | cons e later ih =>
    obtain ⟨hne, hrest⟩ := List.forall_mem_cons.mp hl
    obtain ⟨other, event⟩ := e
    cases event with
    | read current => exact (if_neg hne).trans (ih hrest)
    | committed merged => exact ih hrest
    | finished => exact ih hrest

theorem ownCommit_of_grown (hg : Grown (fun e ↦ e.1 ≠ call) h h') :
    ownCommit call h' = ownCommit call h := by
  obtain ⟨later, rfl, hl⟩ := hg
  induction later with
  | nil => rfl
  | cons e later ih =>
    obtain ⟨hne, hrest⟩ := List.forall_mem_cons.mp hl
    obtain ⟨other, event⟩ := e
    cases event with
    | read current => exact ih hrest
    | committed merged => exact (if_neg hne).trans (ih hrest)
    | finished => exact ih hrest

theorem mem_of_lastRead {current : GeneralSettings} (hr : lastRead call h = some current) :
    (call, .read current) ∈ h := by
  induction h with
  | nil => cases hr
  | cons e h ih =>
    obtain ⟨other, event⟩ := e
    cases event with
    | read settings =>
      rw [lastRead] at hr
      split at hr
      · next heq =>
        cases hr
        exact heq ▸ .head _
      · exact .tail _ (ih hr)
    | committed merged => exact .tail _ (ih hr)
    | finished => exact .tail _ (ih hr)

theorem mem_of_committedSince (hs : other ∈ committedSince call h) :
    other ≠ call ∧ ∃ merged, (other, .committed merged) ∈ h := by
  induction h with
  | nil => cases hs
  | cons e h ih =>
    obtain ⟨caller, event⟩ := e
    have htail : other ∈ committedSince call h →
        other ≠ call ∧ ∃ merged, (other, .committed merged) ∈ (caller, event) :: h := by
      intro hmem
      obtain ⟨hne, merged, hm⟩ := ih hmem
      exact ⟨hne, merged, .tail _ hm⟩
    cases event with
    | read current => exact htail hs
    | finished => exact htail hs
    | committed merged =>
      rw [committedSince] at hs
      split at hs
      · cases hs
      · next hne =>
        rcases List.mem_cons.mp hs with rfl | hmem
        · exact ⟨hne, merged, .head _⟩
        · exact htail hmem

/-- A call after which nobody has committed has committed last. -/
theorem lastCommit_of_own {merged : GeneralSettings} (ho : ownCommit call h = some merged)
    (hs : committedSince call h = []) : lastCommit h = some (call, merged) := by
  induction h with
  | nil => cases ho
  | cons e h ih =>
    obtain ⟨caller, event⟩ := e
    cases event with
    | read current => exact ih ho hs
    | finished => exact ih ho hs
    | committed settings =>
      rw [ownCommit] at ho
      rw [committedSince] at hs
      split at hs
      · next heq =>
        rw [if_pos heq] at ho
        cases ho
        rw [lastCommit, heq]
      · cases hs

section Rely

/-- What the other calls do: a flag is stored anew only by a commit, which is
settled only under a new generation. -/
structure Others (call : Call) (w w' : World) : Prop where
  grown : Grown (fun e ↦ e.1 ≠ call) w.history w'.history
  generation : w.cacheGeneration ≤ w'.cacheGeneration
  flag : w'.cacheGeneration = w.cacheGeneration → Settled w'.history →
    Settled w.history ∧ w'.flag = w.flag

theorem Others.refl : Others call w w := ⟨.refl _, Nat.le_refl _, fun _ hs ↦ ⟨hs, rfl⟩⟩

theorem Others.trans {w'' : World} (ho : Others call w w') (ho' : Others call w' w'') :
    Others call w w'' where
  grown := ho.grown.trans ho'.grown
  generation := Nat.le_trans ho.generation ho'.generation
  flag hgen hs := by
    have hle := ho.generation
    have hle' := ho'.generation
    obtain ⟨hs', hf'⟩ := ho'.flag (by omega) hs
    obtain ⟨hs'', hf⟩ := ho.flag (by omega) hs'
    exact ⟨hs'', hf'.trans hf⟩

theorem settled_read {current : GeneralSettings} (hs : Settled ((other, .read current) :: h)) :
    Settled h := by
  intro call merged hm
  cases hs call merged (.tail _ hm) with
  | tail _ hf => exact hf

theorem not_settled {merged : GeneralSettings} (hf : (other, .finished) ∉ h) :
    ¬Settled ((other, .committed merged) :: h) := by
  intro hs
  cases hs other merged (.head _) with
  | tail _ hm => exact hf hm

theorem exec_others {c : Command} {o : Except Failure Unit} (hne : other ≠ call)
    (hg : guard other c w) : Others call w (exec other c o w).1 := by
  cases c with
  | readSettings =>
    cases o with
    | error failure => exact .refl
    | ok u =>
      exact ⟨(Grown.refl _).cons hne, Nat.le_refl _, fun _ hs ↦ ⟨settled_read hs, rfl⟩⟩
  | transaction merged =>
    cases o with
    | error failure => exact .refl
    | ok u =>
      exact ⟨(Grown.refl _).cons hne, Nat.le_refl _, fun _ hs ↦ (not_settled hg.1 hs).elim⟩
  | storeFlag flag =>
    refine ⟨(Grown.refl _).cons hne, Nat.le_succ _, fun hgen _ ↦ ?_⟩
    have hgen : w.cacheGeneration + 1 = w.cacheGeneration := hgen
    omega
  | generation => exact .refl
  | readFlag =>
    cases o with
    | error failure => exact .refl
    | ok u => exact .refl
  | refreshFlag generation flag =>
    rw [exec]
    split
    · exact .refl
    · exact ⟨.refl _, Nat.le_refl _, fun _ hs ↦ ⟨hs, rfl⟩⟩

theorem exec_stored {c : Command} {o : Except Failure Unit} (hs : Stored w) :
    Stored (exec call c o w).1 := by
  cases c with
  | readSettings =>
    cases o with
    | error failure => exact hs
    | ok u =>
      refine ⟨hs.flag, fun other current hm ↦ ?_⟩
      cases hm with
      | head => exact one_le_readJwtExpiryDays
      | tail _ hm => exact hs.reads other current hm
  | transaction merged =>
    cases o with
    | error failure => exact hs
    | ok u =>
      refine ⟨fun other settings hl ↦ ?_, fun other current hm ↦ ?_⟩
      · cases hl
        exact readFlag_save
      · cases hm with
        | tail _ hm => exact hs.reads other current hm
  | storeFlag flag =>
    refine ⟨hs.flag, fun other current hm ↦ ?_⟩
    cases hm with
    | tail _ hm => exact hs.reads other current hm
  | generation => exact hs
  | readFlag =>
    cases o with
    | error failure => exact hs
    | ok u => exact hs
  | refreshFlag generation flag =>
    rw [exec]
    split
    · exact hs
    · exact ⟨hs.flag, hs.reads⟩

/-- An update commits what it has merged and stores the flag of what it has
committed; a refresh stores a flag that is not older than its generation. -/
def logic : Logic machine where
  inv := Stored
  guard := guard
  rely := Others
  rely_refl _ _ := .refl
  rely_trans _ := .trans
  keeps _ _ hs _ := exec_stored hs
  interferes _ _ hne _ hg := exec_others hne.symm hg

end Rely

end RustdeskConsole.Settings
