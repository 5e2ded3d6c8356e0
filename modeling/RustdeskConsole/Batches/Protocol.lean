import RustdeskConsole.Effects.Logic
import RustdeskConsole.Batches.Drafts

namespace RustdeskConsole.Batches

open Collections Effects Effects.History Function
open Rbac (PermissionScope)
open Devices (Failure DeviceTombstone)

/-- What the last access check of a call found. -/
def lastChecked (call : Call) : History → List Peer
  | [] => []
  | (other, .checked peers) :: h => if other = call then peers else lastChecked call h
  | _ :: h => lastChecked call h

/-- What a call last found to go on with. -/
def lastFound (call : Call) : History → List Peer
  | [] => []
  | (other, .found peers) :: h => if other = call then peers else lastFound call h
  | _ :: h => lastFound call h

/-- The devices that a batch goes on to write. -/
def selected (call : Call) (h : History) : List String :=
  match call.request with
  | .updateDevice guid _ _ | .deleteDevice guid _ => [guid]
  | .updateDeviceStatus .. => (lastChecked call h).map (·.uuid)
  | .assignStrategy .. => (lastFound call h).map (·.uuid)
  | .unassignStrategy strategyGuid _ _ =>
    ((lastFound call h).filter (·.strategyGuid = some strategyGuid)).map (·.uuid)
  | .write .. | .register _ => []

section Scope

variable (scopeOf : String → String → PermissionScope)

/-- The scope of a batch. -/
def Request.scope : Request → PermissionScope
  | .updateDevice _ _ actorGuid => scopeOf actorGuid "devices.edit"
  | .updateDeviceStatus _ _ actorGuid => scopeOf actorGuid "devices.status"
  | .deleteDevice _ actorGuid => scopeOf actorGuid "devices.delete"
  | .assignStrategy _ _ actorGuid | .unassignStrategy _ _ actorGuid =>
    scopeOf actorGuid "strategies.assign"
  | .write .. | .register _ => ⟨false, []⟩

/-- A call commits nothing, or every device that it goes on to write, each of
them within its scope. -/
def Ready (call : Call) (w : World) : Prop :=
  Blank call w ∨
    ((∀ draft ∈ w.mine call, inGroups (call.request.scope scopeOf) draft.before.deviceGroupGuid) ∧
      ∀ uuid ∈ selected call w.history, ∃ draft ∈ w.mine call, draft.uuid = uuid)

def guard (call : Call) (c : Command) (w : World) : Prop :=
  match c with
  | .update cond _ | .delete cond =>
    cond.scope = call.request.scope scopeOf ∧ w.mine call = []
  | .updateNow cond _ => cond.scope = call.request.scope scopeOf ∧ Blank call w ∧
      ∃ uuid, cond.uuids = [uuid] ∧ ∀ u ∈ selected call w.history, u = uuid
  | .commit => Ready scopeOf call w
  | .write uuid data => call.request = .write uuid data
  | .register peer => call.request = .register peer
  | _ => True

end Scope

variable {scopeOf : String → String → PermissionScope} {w w' : World} {call other : Call}
  {h h' : History}

theorem lastChecked_of_grown (hg : Grown (fun e ↦ e.1 ≠ call) h h') :
    lastChecked call h' = lastChecked call h := by
  obtain ⟨later, rfl, hl⟩ := hg
  induction later with
  | nil => rfl
  | cons e later ih =>
    obtain ⟨hne, hrest⟩ := List.forall_mem_cons.mp hl
    obtain ⟨other, event⟩ := e
    cases event with
    | checked peers => exact (if_neg hne).trans (ih hrest)
    | found peers => exact ih hrest
    | committed => exact ih hrest
    | written uuid => exact ih hrest

theorem lastFound_of_grown (hg : Grown (fun e ↦ e.1 ≠ call) h h') :
    lastFound call h' = lastFound call h := by
  obtain ⟨later, rfl, hl⟩ := hg
  induction later with
  | nil => rfl
  | cons e later ih =>
    obtain ⟨hne, hrest⟩ := List.forall_mem_cons.mp hl
    obtain ⟨other, event⟩ := e
    cases event with
    | checked peers => exact ih hrest
    | found peers => exact (if_neg hne).trans (ih hrest)
    | committed => exact ih hrest
    | written uuid => exact ih hrest

/-- What other calls do to the part of a call. -/
structure Others (call : Call) (w w' : World) : Prop where
  grown : Grown (fun e ↦ e.1 ≠ call) w.history w'.history
  mine : w'.mine call = w.mine call
  tombs : w'.tombs call = w.tombs call

theorem Others.refl : Others call w w := ⟨.refl _, rfl, rfl⟩

theorem Others.trans {w'' : World} (ho : Others call w w') (ho' : Others call w' w'') :
    Others call w w'' :=
  ⟨ho.grown.trans ho'.grown, ho'.mine.trans ho.mine, ho'.tombs.trans ho.tombs⟩

theorem Others.note (hne : other ≠ call) (event : Event) (hm : w'.mine call = w.mine call)
    (ht : w'.tombs call = w.tombs call) (hh : w'.history = w.history) :
    Others call w (w'.note other event) :=
  ⟨by rw [World.note, hh]; exact (Grown.refl _).cons hne, hm, ht⟩

theorem Drafts.others {cond : Where} {f : Peer → Option Peer} (hne : other ≠ call)
    (hd : Drafts other cond f w w') : Others call w w' := by
  rw [hd.world]
  refine ⟨.refl _, ?_, rfl⟩
  rw [World.mine, List.filter_append, List.filter_eq_nil_iff.mpr, List.nil_append, World.mine]
  intro draft hdraft
  obtain ⟨row, -, rfl⟩ := List.mem_map.mp hdraft
  simpa using hne

theorem others_draft {cond : Where} {f : Peer → Option Peer} {o : Except Failure Unit}
    (hne : other ≠ call) : Others call w (w.draft other cond f o).1 := by
  rcases hd : w.draft other cond f o with ⟨w', x⟩
  rcases draft_cases hd with ⟨rfl, -⟩ | ⟨-, hdrafts⟩
  · exact .refl
  · exact hdrafts.others hne

theorem others_rollback (hne : other ≠ call) : Others call w (w.rollback other) := by
  refine ⟨.refl _, ?_, ?_⟩
  · rw [World.mine, World.rollback, List.filter_filter, World.mine]
    refine List.filter_congr fun draft _ ↦ ?_
    by_cases hc : draft.call = call
    · simp [hc, hne.symm]
    · simp [hc]
  · rw [World.tombs, World.rollback, List.filter_filter, World.tombs]
    refine List.filter_congr fun e _ ↦ ?_
    by_cases hc : e.1 = call
    · simp [hc, hne.symm]
    · simp [hc]

theorem others_commit (hne : other ≠ call) : Others call w (w.commit other) :=
  .note hne .committed (others_rollback hne).mine (others_rollback hne).tombs rfl

theorem others_write {uuid : String} {data : PeerUpdate} (hne : other ≠ call) :
    Others call w (w.write other uuid data) := by
  rw [World.write]
  split
  · exact .refl
  · exact .note hne _ rfl rfl rfl

theorem others_register {peer : Peer} (hne : other ≠ call) :
    Others call w (w.register other peer) := by
  rw [World.register]
  split
  · exact .refl
  · exact .note hne _ rfl rfl rfl

theorem updateNow_cases {cond : Where} {data : PeerUpdate} {o : Except Failure Unit}
    {x : Except Failure ℕ} (h : updateNow w call cond data o = (w', x)) :
    (w' = w ∧ ∃ failure, x = .error failure) ∨ ∃ w₁, x = .ok (w.matched cond).length ∧
      Drafts call cond (fun row ↦ some (data.apply row)) w w₁ ∧ w' = w₁.commit call := by
  rw [updateNow] at h
  rcases hd : w.draft call cond (fun row ↦ some (data.apply row)) o with ⟨w₁, y⟩
  rw [hd] at h
  rcases draft_cases hd with ⟨rfl, failure, rfl⟩ | ⟨rfl, hdrafts⟩
  · cases h
    exact .inl ⟨rfl, failure, rfl⟩
  · cases h
    exact .inr ⟨w₁, rfl, hdrafts, rfl⟩

theorem exec_others {c : Command} {o : Choice} (hne : other ≠ call) :
    Others call w (exec scopeOf other c o w).1 := by
  cases c with
  | update cond data =>
    have h : Others call w
      (w.draft other cond (fun row ↦ some (data.apply row)) o.outcome).1 := others_draft hne
    exact h
  | delete cond =>
    have h : Others call w (w.draft other cond (fun _ ↦ none) o.outcome).1 := others_draft hne
    exact h
  | entomb tombstone =>
    change Others call w (w.entomb other tombstone o.outcome).1
    cases o.outcome with
    | error failure => exact .refl
    | ok u =>
      refine ⟨.refl _, rfl, ?_⟩
      rw [World.tombs, World.entomb, List.filter_cons_of_neg (by simpa using hne), World.tombs]
  | commit =>
    rw [exec]
    split
    · exact .refl
    · exact others_commit hne
  | rollback => exact others_rollback hne
  | updateNow cond data =>
    rcases hu : updateNow w other cond data o.outcome with ⟨w', x⟩
    rw [exec, hu]
    rcases updateNow_cases hu with ⟨rfl, -⟩ | ⟨w₁, -, hd, rfl⟩
    · exact .refl
    · exact (hd.others hne).trans (others_commit hne)
  | write uuid data => exact others_write hne
  | register peer => exact others_register hne
  | checkPeers uuids => exact .note hne _ rfl rfl rfl
  | findPeers uuids => exact .note hne _ rfl rfl rfl
  | requirePermission => exact .refl
  | requireSuperAdmin => exact .refl
  | findUser => exact .refl
  | findDeviceGroup => exact .refl
  | findStrategyByName => exact .refl
  | findStrategy => exact .refl

theorem exec_locked {c : Command} {o : Choice} (hl : Locked w) (hg : guard scopeOf call c w) :
    Locked (exec scopeOf call c o w).1 := by
  cases c with
  | update cond data =>
    rcases hd : w.draft call cond (fun row ↦ some (data.apply row)) o.outcome with ⟨w', x⟩
    rw [exec, hd]
    rcases draft_cases hd with ⟨rfl, -⟩ | ⟨-, hdrafts⟩
    · exact hl
    · refine hl.draft (fun row row' h ↦ ?_) hg.2 hdrafts
      cases h
      rfl
  | delete cond =>
    rcases hd : w.draft call cond (fun _ ↦ none) o.outcome with ⟨w', x⟩
    rw [exec, hd]
    rcases draft_cases hd with ⟨rfl, -⟩ | ⟨-, hdrafts⟩
    · exact hl
    · exact hl.draft (fun row row' h ↦ by cases h) hg.2 hdrafts
  | entomb tombstone =>
    change Locked (w.entomb call tombstone o.outcome).1
    cases o.outcome with
    | error failure => exact hl
    | ok u => exact ⟨hl.keyed, hl.rows, hl.drafted, hl.nodup⟩
  | commit =>
    rw [exec]
    split
    · exact hl
    · exact hl.commit
  | rollback => exact hl.rollback
  | updateNow cond data =>
    rcases hu : updateNow w call cond data o.outcome with ⟨w', x⟩
    rw [exec, hu]
    rcases updateNow_cases hu with ⟨rfl, -⟩ | ⟨w₁, -, hd, rfl⟩
    · exact hl
    · refine (hl.draft (fun row row' h ↦ ?_) hg.2.1.mine hd).commit
      cases h
      rfl
  | write uuid data => exact hl.write
  | register peer => exact hl.register
  | checkPeers uuids => exact ⟨hl.keyed, hl.rows, hl.drafted, hl.nodup⟩
  | findPeers uuids => exact ⟨hl.keyed, hl.rows, hl.drafted, hl.nodup⟩
  | requirePermission => exact hl
  | requireSuperAdmin => exact hl
  | findUser => exact hl
  | findDeviceGroup => exact hl
  | findStrategyByName => exact hl
  | findStrategy => exact hl

/-- A call meets its guards, and the others leave its open writes alone. -/
def logic (scopeOf : String → String → PermissionScope) : Logic (machine scopeOf) where
  inv := Locked
  guard := guard scopeOf
  rely := Others
  rely_refl _ _ := .refl
  rely_trans _ := .trans
  keeps _ _ hl hg := exec_locked hl hg
  interferes _ _ hne _ _ := exec_others hne.symm

end RustdeskConsole.Batches
