import RustdeskConsole.Effects.History
import RustdeskConsole.Batches.Service

namespace RustdeskConsole.Batches

open Collections Effects Effects.History Function
open Rbac (PermissionScope)
open Devices (Failure DeviceTombstone)

variable {w w' : World} {call other : Call} {cond : Where} {uuid : String}

namespace World

/-- What a call has written and not committed. -/
def mine (w : World) (call : Call) : List Draft := w.drafts.filter (·.call = call)

def tombs (w : World) (call : Call) : List (Call × DeviceTombstone) :=
  w.entombed.filter (·.1 = call)

end World

/-- Rows lie under their keys, and a row that is written and not committed stays
as it was, with one writer. -/
structure Locked (w : World) : Prop where
  keyed : ∀ uuid row, w.peers uuid = some row → row.uuid = uuid
  rows : ∀ draft ∈ w.drafts, w.peers draft.uuid = some draft.before
  drafted : ∀ draft ∈ w.drafts, ∀ row, draft.after = some row → row.uuid = draft.uuid
  nodup : (w.drafts.map (·.uuid)).Nodup

/-- Nothing of the call is open. -/
structure Blank (call : Call) (w : World) : Prop where
  mine : w.mine call = []
  tombs : w.tombs call = []

section Matched

theorem mem_matched {row : String × Peer} : row ∈ w.matched cond ↔
    row.1 ∈ cond.uuids ∧ w.peers row.1 = some row.2 ∧ cond.selects row.2 = true := by
  obtain ⟨uuid, peer⟩ := row
  simp only [World.matched, List.mem_filterMap, List.mem_eraseDups, Option.map_eq_some_iff,
    Option.filter_eq_some_iff, Prod.mk.injEq]
  constructor
  · rintro ⟨u, hu, p, hp, rfl, rfl⟩
    exact ⟨hu, hp⟩
  · rintro ⟨hu, hp⟩
    exact ⟨uuid, hu, peer, hp, rfl, rfl⟩

theorem nodup_matched : ((w.matched cond).map Prod.fst).Nodup := by
  have hsub : ((w.matched cond).map Prod.fst).Sublist (cond.uuids.eraseDups.map id) := by
    refine sublist_map_filterMap (fun uuid row h ↦ ?_) cond.uuids.eraseDups
    obtain ⟨peer, -, rfl⟩ := Option.map_eq_some_iff.mp h
    rfl
  exact hsub.nodup (by simpa using nodup_eraseDups cond.uuids)

theorem length_eraseDups_le {α : Type} [DecidableEq α] (as : List α) :
    as.eraseDups.length ≤ as.length :=
  (List.subperm_of_subset (nodup_eraseDups as) fun _ ↦ List.mem_eraseDups.mp).length_le

theorem isSome_of_length_filterMap {α β : Type} {f : α → Option β} {as : List α}
    (h : (as.filterMap f).length = as.length) : ∀ a ∈ as, (f a).isSome := by
  intro a ha
  by_contra hn
  have hlt := List.length_filterMap_lt_length_iff_exists.mpr
    ⟨a, ha, Option.not_isSome_iff_eq_none.mp hn⟩
  omega

/-- An update that matches as many rows as it names matches all of them. -/
theorem matched_all (h : (w.matched cond).length = cond.uuids.length) {uuid : String}
    (hu : uuid ∈ cond.uuids) : uuid ∈ (w.matched cond).map Prod.fst := by
  have hle := length_eraseDups_le cond.uuids
  have hge := List.length_filterMap_le
    (fun uuid ↦ ((w.peers uuid).filter cond.selects).map (uuid, ·)) cond.uuids.eraseDups
  have hall : (w.matched cond).length = cond.uuids.eraseDups.length := by
    rw [World.matched] at h ⊢
    omega
  obtain ⟨row, hrow⟩ := Option.isSome_iff_exists.mp
    (isSome_of_length_filterMap hall uuid (List.mem_eraseDups.mpr hu))
  obtain ⟨peer, hp, rfl⟩ := Option.map_eq_some_iff.mp hrow
  obtain ⟨hpeer, hsel⟩ := Option.filter_eq_some_iff.mp hp
  exact List.mem_map.mpr ⟨(uuid, peer), mem_matched.mpr ⟨hu, hpeer, hsel⟩, rfl⟩

end Matched

section Writes

/-- What an `UPDATE` or `DELETE` of a call that has written nothing yet does. -/
structure Drafts (call : Call) (cond : Where) (f : Peer → Option Peer) (w w' : World) : Prop where
  world : w' = { w with
    drafts := (w.matched cond).map (fun row ↦ ⟨call, row.1, row.2, f row.2⟩) ++ w.drafts }
  free : ∀ row ∈ w.matched cond, w.lockedFor call row.1 = false

theorem draft_cases {f : Peer → Option Peer} {o : Except Failure Unit} {x : Except Failure ℕ}
    (h : w.draft call cond f o = (w', x)) : (w' = w ∧ ∃ failure, x = .error failure) ∨
      x = .ok (w.matched cond).length ∧ Drafts call cond f w w' := by
  cases o with
  | error failure =>
    cases h
    exact .inl ⟨rfl, _, rfl⟩
  | ok u =>
    rw [World.draft] at h
    split at h
    · cases h
      exact .inl ⟨rfl, _, rfl⟩
    · next hn =>
      cases h
      refine .inr ⟨rfl, rfl, fun row hr ↦ ?_⟩
      have hfree := fun hl ↦ hn (List.any_eq_true.mpr ⟨row, hr, hl⟩)
      exact Bool.eq_false_iff.mpr hfree

theorem Drafts.mine {f : Peer → Option Peer} (hd : Drafts call cond f w w')
    (hm : w.mine call = []) : w'.mine call =
      (w.matched cond).map fun row ↦ ⟨call, row.1, row.2, f row.2⟩ := by
  rw [World.mine] at hm
  rw [hd.world, World.mine, List.filter_append, hm, List.append_nil, List.filter_eq_self]
  intro draft hdraft
  obtain ⟨row, -, rfl⟩ := List.mem_map.mp hdraft
  simp

theorem Locked.draft {f : Peer → Option Peer} (hf : ∀ row row', f row = some row' →
    row'.uuid = row.uuid) (hl : Locked w) (hm : w.mine call = []) (hd : Drafts call cond f w w') :
    Locked w' := by
  rw [hd.world]
  refine ⟨hl.keyed, fun draft hdraft ↦ ?_, fun draft hdraft row hrow ↦ ?_, ?_⟩
  · rcases List.mem_append.mp hdraft with hdraft | hdraft
    · obtain ⟨row, hr, rfl⟩ := List.mem_map.mp hdraft
      exact (mem_matched.mp hr).2.1
    · exact hl.rows draft hdraft
  · rcases List.mem_append.mp hdraft with hdraft | hdraft
    · obtain ⟨row', hr, rfl⟩ := List.mem_map.mp hdraft
      rw [hf _ _ hrow]
      exact hl.keyed _ _ (mem_matched.mp hr).2.1
    · exact hl.drafted draft hdraft row hrow
  · rw [List.map_append, List.map_map]
    refine List.Nodup.append nodup_matched hl.nodup ?_
    intro uuid hnew hold
    obtain ⟨row, hr, rfl⟩ := List.mem_map.mp hnew
    obtain ⟨draft, hdraft, hu⟩ := List.mem_map.mp hold
    have hfree := hd.free row hr
    rw [World.lockedFor, List.any_eq_false] at hfree
    have hother := hfree draft hdraft
    have hcall : draft.call ≠ call := fun hcall ↦ by
      have hmem : draft ∈ w.mine call := List.mem_filter.mpr ⟨hdraft, by simpa using hcall⟩
      rw [hm] at hmem
      cases hmem
    exact hother (by simp [hu, hcall])

theorem mem_of_draftOf {draft : Draft} (h : w.draftOf call uuid = some draft) :
    draft ∈ w.mine call ∧ draft.uuid = uuid := by
  have hmem := List.mem_of_find?_eq_some h
  have hkey := List.find?_some h
  simp only [Bool.and_eq_true, decide_eq_true_eq] at hkey
  exact ⟨List.mem_filter.mpr ⟨hmem, by simpa using hkey.1⟩, hkey.2⟩

theorem Locked.rollback (hl : Locked w) : Locked (w.rollback call) where
  keyed := hl.keyed
  rows draft hd := hl.rows draft (List.mem_of_mem_filter hd)
  drafted draft hd := hl.drafted draft (List.mem_of_mem_filter hd)
  nodup := (List.filter_sublist.map _).nodup hl.nodup

theorem Locked.commit (hl : Locked w) : Locked (w.commit call) where
  keyed uuid row hrow := by
    change (w.draftOf call uuid).elim (w.peers uuid) (·.after) = some row at hrow
    cases hd : w.draftOf call uuid with
    | none =>
      rw [hd] at hrow
      exact hl.keyed uuid row hrow
    | some draft =>
      rw [hd] at hrow
      obtain ⟨hmem, rfl⟩ := mem_of_draftOf hd
      exact hl.drafted draft (List.mem_of_mem_filter hmem) row hrow
  rows draft hd := by
    obtain ⟨hmem, hcall⟩ := List.mem_filter.mp hd
    have hcall : draft.call ≠ call := by simpa using hcall
    have hnone : w.draftOf call draft.uuid = none := by
      cases hd' : w.draftOf call draft.uuid with
      | none => rfl
      | some draft' =>
        obtain ⟨hmem', hu⟩ := mem_of_draftOf hd'
        obtain ⟨hmem', hcall'⟩ := List.mem_filter.mp hmem'
        have heq := List.inj_on_of_nodup_map hl.nodup hmem' hmem hu
        rw [heq] at hcall'
        exact absurd (by simpa using hcall') hcall
    change (w.draftOf call draft.uuid).elim (w.peers draft.uuid) (·.after) = some draft.before
    rw [hnone]
    exact hl.rows draft hmem
  drafted draft hd := hl.drafted draft (List.mem_of_mem_filter hd)
  nodup := (List.filter_sublist.map _).nodup hl.nodup

theorem Locked.write {data : PeerUpdate} (hl : Locked w) : Locked (w.write call uuid data) := by
  rw [World.write]
  split
  · exact hl
  · next hn =>
    refine ⟨fun u row hrow ↦ ?_, fun draft hd ↦ ?_, hl.drafted, hl.nodup⟩
    · by_cases hu : u = uuid
      · subst hu
        have hrow : (w.peers u).map data.apply = some row := by
          simpa [World.note] using hrow
        obtain ⟨before, hb, rfl⟩ := Option.map_eq_some_iff.mp hrow
        exact hl.keyed u before hb
      · exact hl.keyed u row ((update_of_ne hu ..).symm.trans hrow)
    · have hu : draft.uuid ≠ uuid := fun hu ↦ hn (List.any_eq_true.mpr ⟨draft, hd, by simp [hu]⟩)
      exact (update_of_ne hu ..).trans (hl.rows draft hd)

theorem Locked.register {peer : Peer} (hl : Locked w) : Locked (w.register call peer) := by
  rw [World.register]
  split
  · exact hl
  · next hn =>
    refine ⟨fun u row hrow ↦ ?_, fun draft hd ↦ ?_, hl.drafted, hl.nodup⟩
    · by_cases hu : u = peer.uuid
      · subst hu
        cases (update_self ..).symm.trans hrow
        rfl
      · exact hl.keyed u row ((update_of_ne hu ..).symm.trans hrow)
    · have hu : draft.uuid ≠ peer.uuid := fun hu ↦ by
        rw [← hu, hl.rows draft hd] at hn
        exact hn rfl
      exact (update_of_ne hu ..).trans (hl.rows draft hd)

end Writes

end RustdeskConsole.Batches
