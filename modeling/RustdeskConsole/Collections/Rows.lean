import Mathlib.Data.List.Nodup

namespace RustdeskConsole.Collections

variable {α κ : Type} [DecidableEq κ] {key : α → κ} {rows : List α} {row : α} {k k' : κ}

theorem key_of_find? (hf : rows.find? (key · = k) = some row) : key row = k := by
  simpa using List.find?_some hf

theorem find?_of_mem (hd : (rows.map key).Nodup) (hm : row ∈ rows) :
    rows.find? (key · = key row) = some row := by
  obtain ⟨before, after, rfl⟩ := List.append_of_mem hm
  rw [List.map_append, List.nodup_append] at hd
  refine List.find?_eq_some_iff_append.mpr ⟨by simp, before, after, rfl, fun other hother ↦ ?_⟩
  simpa using hd.2.2 (key other) (List.mem_map_of_mem hother) (key row) (by simp)

theorem findRev?_of_mem (hd : (rows.map key).Nodup) (hm : row ∈ rows) :
    rows.findRev? (key · = key row) = some row := by
  rw [List.findRev?_eq_find?_reverse]
  refine find?_of_mem ?_ (List.mem_reverse.mpr hm)
  rwa [List.map_reverse, List.nodup_reverse]

theorem find?_map_key {g : α → α} (hg : ∀ row, key (g row) = key row) (k : κ) :
    (rows.map g).find? (fun row ↦ key row = k) = (rows.find? fun row ↦ key row = k).map g := by
  rw [List.find?_map]
  congr 2
  funext row
  simp only [Function.comp_apply, hg]

theorem find?_filter_key (hk : k' ≠ k) :
    (rows.filter fun row ↦ decide (key row ≠ k)).find? (fun row ↦ key row = k') =
      rows.find? fun row ↦ key row = k' := by
  rw [List.find?_filter]
  congr 1
  funext row
  by_cases h : key row = k'
  · simp [h, hk]
  · simp [h]

/-- What comes of one row among all that comes of rows with keys of their own. -/
theorem filter_flatMap_key {β : Type} {f : α → List β} {key' : β → κ}
    (hf : ∀ row ∈ rows, ∀ b ∈ f row, key' b = key row) (hd : (rows.map key).Nodup)
    (hm : row ∈ rows) : (rows.flatMap f).filter (key' · = key row) = f row := by
  induction rows with
  | nil => cases hm
  | cons first rows ih =>
    obtain ⟨hn, hd⟩ := List.nodup_cons.mp hd
    have hrest : ∀ row ∈ rows, ∀ b ∈ f row, key' b = key row := fun row h ↦ hf row (.tail _ h)
    rw [List.flatMap_cons, List.filter_append]
    rcases List.mem_cons.mp hm with rfl | hm
    · have hself : (f row).filter (key' · = key row) = f row :=
        List.filter_eq_self.mpr fun b hb ↦ decide_eq_true (hf row (.head _) b hb)
      have hothers : (rows.flatMap f).filter (key' · = key row) = [] := by
        refine List.filter_eq_nil_iff.mpr fun b hb ↦ ?_
        obtain ⟨other, hother, hb⟩ := List.mem_flatMap.mp hb
        rw [hrest other hother b hb, decide_eq_true_eq]
        exact fun heq ↦ hn (heq ▸ List.mem_map_of_mem hother)
      rw [hself, hothers, List.append_nil]
    · have hfirst : (f first).filter (key' · = key row) = [] := by
        refine List.filter_eq_nil_iff.mpr fun b hb ↦ ?_
        rw [hf first (.head _) b hb, decide_eq_true_eq]
        exact fun heq ↦ hn (heq ▸ List.mem_map_of_mem hm)
      rw [hfirst, List.nil_append, ih hrest hd hm]

/-- The pages of a list, one after the other. -/
theorem flatMap_pages {as : List α} {pageSize n : ℕ} :
    ((List.range n).flatMap fun i ↦ (as.drop (i * pageSize)).take pageSize) =
      as.take (n * pageSize) := by
  induction n with
  | zero => simp
  | succ n ih =>
    rw [List.range_succ, List.flatMap_append, ih, List.flatMap_singleton, Nat.succ_mul,
      List.take_add]

end RustdeskConsole.Collections
