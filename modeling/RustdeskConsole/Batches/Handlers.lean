import RustdeskConsole.Batches.Protocol

namespace RustdeskConsole.Batches

open Collections Effects Effects.History Function
open Rbac (PermissionScope)
open Devices (Failure DeviceTombstone)

variable {scopeOf : String → String → PermissionScope} {w w' : World} {call : Call} {α β : Type}
  {s : Unit}

theorem Blank.others (hb : Blank call w) (ho : Others call w w') : Blank call w' :=
  ⟨ho.mine.trans hb.mine, ho.tombs.trans hb.tombs⟩

theorem selected_of_grown {h h' : History} (hg : Grown (fun e ↦ e.1 ≠ call) h h') :
    selected call h' = selected call h := by
  rw [selected, selected, lastChecked_of_grown hg, lastFound_of_grown hg]

theorem Ready.others (hr : Ready scopeOf call w) (ho : Others call w w') :
    Ready scopeOf call w' := by
  rw [Ready, ho.mine, selected_of_grown ho.grown]
  exact hr.imp_left fun hb ↦ hb.others ho

/-- The commands that only read. -/
def Command.reads : Command → Bool
  | .update .. | .delete _ | .entomb _ | .commit | .rollback | .updateNow .. | .write ..
  | .register _ => false
  | _ => true

theorem guard_reads {c : Command} (hc : c.reads = true) : guard scopeOf call c w := by
  cases c with
  | update => cases hc
  | delete => cases hc
  | updateNow => cases hc
  | commit => cases hc
  | write => cases hc
  | register => cases hc
  | _ => trivial

theorem blank_reads {c : Command} (hc : c.reads = true) {o : Choice} (hb : Blank call w) :
    Blank call (exec scopeOf call c o w).1 := by
  cases c with
  | update => cases hc
  | delete => cases hc
  | entomb => cases hc
  | commit => cases hc
  | rollback => cases hc
  | updateNow => cases hc
  | write => cases hc
  | register => cases hc
  | checkPeers => exact ⟨hb.mine, hb.tombs⟩
  | findPeers => exact ⟨hb.mine, hb.tombs⟩
  | _ => exact hb

/-- A handler that has nothing open when it starts nor when it ends. -/
def Clean (scopeOf : String → String → PermissionScope) (call : Call) (p : Handler α) : Prop :=
  ∀ s w, Blank call w → (logic scopeOf).Ensures call p
    (fun _ _ w' ↦ Blank call w') (fun _ _ w' ↦ Blank call w') s w

namespace Clean

variable {p : Handler α} {f : α → Handler β}

theorem pure {a : α} : Clean scopeOf call (pure a : Handler α) := fun _ _ hb ↦ .pure hb

theorem throw {failure : Failure} : Clean scopeOf call (throw failure : Handler α) :=
  fun _ _ hb ↦ .throw hb

theorem bind (hp : Clean scopeOf call p) (hf : ∀ a, Clean scopeOf call (f a)) :
    Clean scopeOf call (p >>= f) :=
  fun s w hb ↦ .bind ((hp s w hb).mono (fun a s' w' hb' ↦ hf a s' w' hb') fun _ _ _ hb' ↦ hb')

theorem invoke {c : Command} {g : Reply c → Except Failure α} (hc : c.reads = true) :
    Clean scopeOf call (invoke c g) := by
  intro s w hb
  refine .invoke fun w₁ ho _ ↦ ⟨guard_reads hc, fun o w₂ r hx _ ↦ ?_⟩
  have hw : (exec scopeOf call c o w₁).1 = w₂ := congrArg Prod.fst hx
  have hblank : Blank call w₂ := hw ▸ blank_reads hc (hb.others ho)
  cases g r with
  | ok a => exact hblank
  | error failure => exact hblank

theorem ask {c : Command} (hc : c.reads = true) : Clean scopeOf call (ask c) := invoke hc

theorem require {found : Option String} {failure : Failure} :
    Clean scopeOf call (require found failure) := by
  cases found with
  | none => exact .throw
  | some guid => exact .pure

theorem lookUp {name : Option (Option String)} {find : String → Handler (Option String)}
    {failure : Failure} (hf : ∀ name, Clean scopeOf call (find name)) :
    Clean scopeOf call (lookUp name find failure) := by
  match name with
  | none => exact .pure
  | some none => exact .pure
  | some (some name) => exact .bind (hf name) fun found ↦ .bind .require fun guid ↦ .pure

end Clean

section Access

variable {userGuid permissionCode deviceUuid : String} {uuids : List String}

theorem requirePermission_spec (hb : Blank call w) :
    (logic scopeOf).Ensures call (attempt (.requirePermission userGuid permissionCode) rfl)
      (fun scope _ w' ↦ Blank call w' ∧ scope = scopeOf userGuid permissionCode)
      (fun _ _ w' ↦ Blank call w') s w := by
  refine .invoke fun w₁ ho _ ↦ ⟨trivial, fun o w₂ r hx _ ↦ ?_⟩
  obtain ⟨rfl, hr⟩ := Prod.mk.inj hx
  have hr := Option.some.inj hr
  have hblank := hb.others ho
  subst hr
  cases o.permitted with
  | error failure => exact hblank
  | ok u =>
    simp only [requirePermission]
    split
    · exact hblank
    · exact ⟨hblank, rfl⟩

theorem checkPeers_spec (hb : Blank call w) :
    (logic scopeOf).Ensures call (ask (.checkPeers uuids))
      (fun peers _ w' ↦ Blank call w' ∧ lastChecked call w'.history = peers ∧
        ∀ peer ∈ peers, peer.uuid ∈ uuids) (fun _ _ w' ↦ Blank call w') s w := by
  refine .invoke fun w₁ ho hl ↦ ⟨trivial, fun o w₂ r hx _ ↦ ?_⟩
  obtain ⟨rfl, hr⟩ := Prod.mk.inj hx
  cases hr
  have hblank := hb.others ho
  refine ⟨⟨hblank.mine, hblank.tombs⟩, if_pos rfl, fun peer hp ↦ ?_⟩
  obtain ⟨uuid, hu, hrow⟩ := List.mem_filterMap.mp hp
  rw [hl.keyed uuid peer hrow]
  exact List.mem_eraseDups.mp hu

theorem findPeers_spec (hb : Blank call w) :
    (logic scopeOf).Ensures call (ask (.findPeers uuids))
      (fun peers _ w' ↦ Blank call w' ∧ lastFound call w'.history = peers)
      (fun _ _ w' ↦ Blank call w') s w := by
  refine .invoke fun w₁ ho hl ↦ ⟨trivial, fun o w₂ r hx _ ↦ ?_⟩
  obtain ⟨rfl, hr⟩ := Prod.mk.inj hx
  cases hr
  have hblank := hb.others ho
  exact ⟨⟨hblank.mine, hblank.tombs⟩, if_pos rfl⟩

theorem assertDeviceAccess_spec (hb : Blank call w) :
    (logic scopeOf).Ensures call (assertDeviceAccess userGuid permissionCode deviceUuid)
      (fun access _ w' ↦ Blank call w' ∧ access.2 = scopeOf userGuid permissionCode)
      (fun _ _ w' ↦ Blank call w') s w := by
  refine .bind ((requirePermission_spec hb).mono (fun scope s₁ w₁ h₁ ↦ ?_) fun _ _ _ h₁ ↦ h₁)
  refine .bind ((checkPeers_spec h₁.1).mono (fun peers s₂ w₂ h₂ ↦ ?_) fun _ _ _ h₂ ↦ h₂)
  cases peers with
  | nil => exact .throw h₂.1
  | cons peer peers =>
    dsimp only
    split
    · exact .pure ⟨h₂.1, h₁.2⟩
    · exact .throw h₂.1

theorem assertDevicesAccess_spec (hb : Blank call w) :
    (logic scopeOf).Ensures call (assertDevicesAccess userGuid permissionCode uuids)
      (fun access _ w' ↦ Blank call w' ∧ access.2 = scopeOf userGuid permissionCode ∧
        lastChecked call w'.history = access.1 ∧ ∀ peer ∈ access.1, peer.uuid ∈ uuids)
      (fun _ _ w' ↦ Blank call w') s w := by
  refine .bind ((requirePermission_spec hb).mono (fun scope s₁ w₁ h₁ ↦ ?_) fun _ _ _ h₁ ↦ h₁)
  refine .bind ((checkPeers_spec h₁.1).mono (fun peers s₂ w₂ h₂ ↦ ?_) fun _ _ _ h₂ ↦ h₂)
  split
  · exact .pure ⟨h₂.1, h₁.2, h₂.2⟩
  · exact .throw h₂.1

theorem assertStrategyTargets_spec (hb : Blank call w) :
    (logic scopeOf).Ensures call (assertStrategyTargets userGuid uuids)
      (fun scope _ w' ↦ Blank call w' ∧ scope = scopeOf userGuid "strategies.assign")
      (fun _ _ w' ↦ Blank call w') s w := by
  refine .bind ((requirePermission_spec hb).mono (fun scope s₁ w₁ h₁ ↦ ?_) fun _ _ _ h₁ ↦ h₁)
  refine .bind ((checkPeers_spec h₁.1).mono (fun peers s₂ w₂ h₂ ↦ ?_) fun _ _ _ h₂ ↦ h₂)
  split
  · exact .pure ⟨h₂.1, h₁.2⟩
  · exact .throw h₂.1

end Access

section Writes

variable {cond : Where}

/-- A call has written rows within its scope, all it named if they are as many. -/
structure Drafted (scopeOf : String → String → PermissionScope) (call : Call) (cond : Where)
    (affected : ℕ) (w : World) : Prop where
  within : ∀ draft ∈ w.mine call,
    inGroups (call.request.scope scopeOf) draft.before.deviceGroupGuid
  all : affected = cond.uuids.length → ∀ uuid ∈ cond.uuids, ∃ draft ∈ w.mine call, draft.uuid = uuid

theorem Drafts.drafted {f : Peer → Option Peer} (hd : Drafts call cond f w w')
    (hm : w.mine call = []) (hs : cond.scope = call.request.scope scopeOf) :
    Drafted scopeOf call cond (w.matched cond).length w' where
  within draft hdraft := by
    rw [hd.mine hm] at hdraft
    obtain ⟨row, hr, rfl⟩ := List.mem_map.mp hdraft
    have hsel := (mem_matched.mp hr).2.2
    rw [Where.selects, Bool.and_eq_true] at hsel
    exact hs ▸ hsel.1
  all hn uuid hu := by
    obtain ⟨row, hr, rfl⟩ := List.mem_map.mp (matched_all hn hu)
    rw [hd.mine hm]
    exact ⟨_, List.mem_map_of_mem hr, rfl⟩

theorem update_spec {data : PeerUpdate} (hm : w.mine call = [])
    (hs : cond.scope = call.request.scope scopeOf) :
    (logic scopeOf).Ensures call (attempt (.update cond data) rfl)
      (fun affected _ w' ↦ Drafted scopeOf call cond affected w' ∧
        selected call w'.history = selected call w.history) (fun _ _ _ ↦ True) s w := by
  refine .invoke fun w₁ ho _ ↦ ⟨⟨hs, ho.mine.trans hm⟩, fun o w₂ r hx _ ↦ ?_⟩
  have hx : w₁.draft call cond (fun row ↦ some (data.apply row)) o.outcome = (w₂, r) :=
    map_some_inj hx
  rcases draft_cases hx with ⟨-, failure, rfl⟩ | ⟨rfl, hd⟩
  · trivial
  · refine ⟨hd.drafted (ho.mine.trans hm) hs, ?_⟩
    rw [hd.world]
    exact selected_of_grown ho.grown

theorem delete_spec (hm : w.mine call = []) (hs : cond.scope = call.request.scope scopeOf) :
    (logic scopeOf).Ensures call (attempt (.delete cond) rfl)
      (fun affected _ w' ↦ Drafted scopeOf call cond affected w' ∧
        selected call w'.history = selected call w.history) (fun _ _ _ ↦ True) s w := by
  refine .invoke fun w₁ ho _ ↦ ⟨⟨hs, ho.mine.trans hm⟩, fun o w₂ r hx _ ↦ ?_⟩
  have hx : w₁.draft call cond (fun _ ↦ none) o.outcome = (w₂, r) := map_some_inj hx
  rcases draft_cases hx with ⟨-, failure, rfl⟩ | ⟨rfl, hd⟩
  · trivial
  · refine ⟨hd.drafted (ho.mine.trans hm) hs, ?_⟩
    rw [hd.world]
    exact selected_of_grown ho.grown

theorem Drafted.ready {affected : ℕ} (hd : Drafted scopeOf call cond affected w)
    (hn : affected = cond.uuids.length) (hs : ∀ uuid ∈ selected call w.history, uuid ∈ cond.uuids) :
    Ready scopeOf call w :=
  .inr ⟨hd.within, fun uuid hu ↦ hd.all hn uuid (hs uuid hu)⟩

theorem blank_rollback : Blank call (w.rollback call) where
  mine := by
    rw [World.mine, World.rollback, List.filter_filter, List.filter_eq_nil_iff]
    simp
  tombs := by
    rw [World.tombs, World.rollback, List.filter_filter, List.filter_eq_nil_iff]
    simp

theorem blank_commit : Blank call (w.commit call) := ⟨blank_rollback.mine, blank_rollback.tombs⟩

theorem transaction_spec {body : Handler α}
    (h : (logic scopeOf).Ensures call body (fun _ _ w' ↦ Ready scopeOf call w')
      (fun _ _ _ ↦ True) s w) : (logic scopeOf).Ensures call (transaction body)
        (fun _ _ w' ↦ Blank call w') (fun _ _ w' ↦ Blank call w') s w := by
  have hrollback : ∀ (failure : Failure) s₁ w₁, (logic scopeOf).Ensures call
      (do
        ask .rollback
        throw failure : Handler α)
      (fun _ _ w' ↦ Blank call w') (fun _ _ w' ↦ Blank call w') s₁ w₁ := by
    intro failure s₁ w₁
    refine .bind (.invoke fun w₂ _ _ ↦ ⟨trivial, fun o w₃ r hx _ ↦ ?_⟩)
    cases hx
    exact .throw blank_rollback
  refine .tryCatch (.bind (h.mono (fun result s₁ w₁ hr ↦ ?_)
    fun failure s₁ w₁ _ ↦ hrollback failure s₁ w₁))
  refine .bind (.invoke fun w₂ ho _ ↦ ⟨hr.others ho, fun o w₃ r hx _ ↦ ?_⟩)
  rw [show (machine scopeOf).exec = exec scopeOf from rfl, exec] at hx
  split at hx
  · cases hx
    exact hrollback _ s₁ _
  · cases hx
    exact .pure blank_commit

end Writes

end RustdeskConsole.Batches
