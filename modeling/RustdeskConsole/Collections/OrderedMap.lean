import Mathlib.Algebra.Ring.Nat
import Mathlib.Data.List.Basic
import Mathlib.Data.List.Nodup
import Mathlib.Data.List.Perm.Subperm
import Mathlib.Data.List.Sort
import Mathlib.Logic.Function.Basic

namespace RustdeskConsole.Collections

variable {κ α β ρ : Type} [DecidableEq κ]

/-- Overwrite the entry of a key where it stands, or append a new one. -/
def setEntry (k : κ) (a : α) : List (κ × α) → List (κ × α)
  | [] => [(k, a)]
  | e :: es => if e.1 = k then (k, a) :: es else e :: setEntry k a es

theorem map_fst_setEntry (k : κ) (a : α) (es : List (κ × α)) :
    (setEntry k a es).map Prod.fst =
      if k ∈ es.map Prod.fst then es.map Prod.fst else es.map Prod.fst ++ [k] := by
  induction es with
  | nil => rfl
  | cons e es ih =>
    by_cases he : e.1 = k
    · simp [setEntry, he]
    · by_cases hm : k ∈ es.map Prod.fst
      · simp only [setEntry, if_neg he, List.map_cons, ih, List.mem_cons, hm, or_true, if_true]
      · simp only [setEntry, if_neg he, List.map_cons, ih, List.mem_cons, hm, or_false,
          if_neg (Ne.symm he), if_false, List.cons_append]

theorem mem_setEntry {k k' : κ} {a a' : α} {es : List (κ × α)}
    (hd : (es.map Prod.fst).Nodup) :
    (k', a') ∈ setEntry k a es ↔ (k' = k ∧ a' = a) ∨ (k' ≠ k ∧ (k', a') ∈ es) := by
  induction es with
  | nil => simp [setEntry]
  | cons e es ih =>
    obtain ⟨hn, hd⟩ := List.nodup_cons.mp hd
    by_cases he : e.1 = k
    · subst he
      simp only [setEntry, if_true, List.mem_cons, Prod.mk.injEq]
      constructor
      · rintro (⟨rfl, rfl⟩ | hm)
        · exact .inl ⟨rfl, rfl⟩
        · refine .inr ⟨fun hk ↦ hn ?_, .inr hm⟩
          exact hk ▸ List.mem_map_of_mem (f := Prod.fst) hm
      · rintro (h | ⟨hk, rfl | hm⟩)
        · exact .inl h
        · exact absurd rfl hk
        · exact .inr hm
    · simp only [setEntry, if_neg he, List.mem_cons, ih hd]
      constructor
      · rintro (rfl | h | ⟨hk, hm⟩)
        · exact .inr ⟨he, .inl rfl⟩
        · exact .inl h
        · exact .inr ⟨hk, .inr hm⟩
      · rintro (h | ⟨hk, rfl | hm⟩)
        · exact .inr (.inl h)
        · exact .inl rfl
        · exact .inr (.inr ⟨hk, hm⟩)

/-- Add a value to a set kept in insertion order. -/
def addValue [DecidableEq α] (as : List α) (a : α) : List α := if a ∈ as then as else as ++ [a]

theorem mem_foldl_addValue [DecidableEq α] (rows : List ρ) (f : ρ → α) (as : List α) (a : α) :
    a ∈ rows.foldl (fun as row ↦ addValue as (f row)) as ↔ a ∈ as ∨ ∃ row ∈ rows, f row = a := by
  induction rows generalizing as with
  | nil => simp
  | cons row rows ih =>
    rw [List.foldl_cons, ih]
    unfold addValue
    split
    · rename_i hm
      constructor
      · rintro (ha | ⟨row, hr, rfl⟩)
        · exact .inl ha
        · exact .inr ⟨row, .tail _ hr, rfl⟩
      · rintro (ha | ⟨row', hr, rfl⟩)
        · exact .inl ha
        · rcases List.mem_cons.mp hr with rfl | hr
          · exact .inl hm
          · exact .inr ⟨row', hr, rfl⟩
    · simp only [List.mem_append, List.mem_cons, List.not_mem_nil, or_false, exists_eq_or_imp]
      rw [or_assoc, @eq_comm _ a]

theorem find?_foldl_addValue [DecidableEq α] (p : α → Bool) (as ds : List α) :
    (as.foldl addValue ds).find? p = (ds.find? p).or (as.find? p) := by
  induction as generalizing ds with
  | nil => simp
  | cons a as ih =>
    rw [List.foldl_cons, ih, addValue]
    split
    · next hm =>
      cases hp : p a with
      | false => rw [List.find?_cons_of_neg (by simp [hp])]
      | true =>
        obtain ⟨d, hd⟩ := Option.isSome_iff_exists.mp (List.find?_isSome.mpr ⟨a, hm, hp⟩)
        rw [hd]
        rfl
    · rw [List.find?_append, Option.or_assoc]
      cases hp : p a <;> simp [hp]

theorem nodup_foldl_addValue [DecidableEq α] {as ds : List α} (h : ds.Nodup) :
    (as.foldl addValue ds).Nodup := by
  induction as generalizing ds with
  | nil => exact h
  | cons a as ih =>
    refine ih ?_
    unfold addValue
    split
    · exact h
    · next hm =>
      rw [List.nodup_append]
      refine ⟨h, by simp, ?_⟩
      rintro b hb _ ha rfl
      exact hm (List.mem_singleton.mp ha ▸ hb)

theorem foldl_addValue_cons [DecidableEq α] (d : α) (as ds : List α) :
    ∃ rest, as.foldl addValue (d :: ds) = d :: rest := by
  induction as generalizing ds with
  | nil => exact ⟨ds, rfl⟩
  | cons a as ih =>
    rw [List.foldl_cons, addValue]
    split
    · exact ih ds
    · exact ih (ds ++ [a])

/-- The sort is stable: of those with the least key, the first comes first. -/
theorem head?_insertionSort {key : α → ℕ} {k : ℕ} {as : List α} {a : α}
    (hmin : ∀ b ∈ as, k ≤ key b) (h : as.find? (fun b ↦ key b = k) = some a) :
    (as.insertionSort fun left right ↦ key left ≤ key right).head? = some a := by
  induction as with
  | nil => cases h
  | cons b as ih =>
    rw [List.insertionSort_cons]
    by_cases hb : key b = k
    · rw [List.find?_cons_of_pos (by simpa using hb)] at h
      cases h
      rw [← List.insertionSort_cons, List.insertionSort_cons_of_forall_rel]
      · rfl
      · exact fun c hc ↦ hb ▸ hmin c (List.mem_cons_of_mem _ hc)
    · rw [List.find?_cons_of_neg (by simpa using hb)] at h
      have hhead := ih (fun c hc ↦ hmin c (List.mem_cons_of_mem _ hc)) h
      obtain ⟨rest, hrest⟩ := List.head?_eq_some_iff.mp hhead
      have ha : key a = k := by simpa using List.find?_some h
      have hlt : ¬key b ≤ key a := by
        have := hmin b List.mem_cons_self
        omega
      rw [hrest, List.orderedInsert, if_neg hlt]
      rfl

def sortBy (key : α → String) (as : List α) : List α :=
  as.insertionSort fun a b ↦ key a ≤ key b

@[simp] theorem sortBy_nil (key : α → String) : sortBy key ([] : List α) = [] := rfl

@[simp] theorem mem_sortBy {key : α → String} {as : List α} {a : α} : a ∈ sortBy key as ↔ a ∈ as :=
  List.mem_insertionSort _

theorem nodup_eraseDups [DecidableEq α] (as : List α) : as.eraseDups.Nodup := by
  induction h : as.length using Nat.strongRecOn generalizing as with
  | ind n ih =>
    cases as with
    | nil => exact .nil
    | cons a as =>
      have hl := List.length_filter_le (fun b ↦ !b == a) as
      rw [List.length_cons] at h
      rw [List.eraseDups_cons, List.nodup_cons, List.mem_eraseDups, List.mem_filter]
      exact ⟨by simp, ih _ (by omega) _ rfl⟩

/-- Rows with distinct keys are as many as the keys looked for when none of
these is missing. -/
theorem length_filter_contains {rows : List ρ} {key : ρ → κ} (hr : (rows.map key).Nodup)
    {keys : List κ} (hk : keys.Nodup) :
    (rows.filter fun row ↦ keys.contains (key row)).length = keys.length ↔
      ∀ k ∈ keys, ∃ row ∈ rows, key row = k := by
  have hf : ((rows.filter fun row ↦ keys.contains (key row)).map key).Nodup :=
    ((List.filter_sublist).map key).nodup hr
  have hs : (rows.filter fun row ↦ keys.contains (key row)).map key ⊆ keys := by
    intro k hm
    obtain ⟨row, hrow, rfl⟩ := List.mem_map.mp hm
    exact List.contains_iff_mem.mp (List.mem_filter.mp hrow).2
  have hp := List.subperm_of_subset hf hs
  rw [← List.length_map key]
  constructor
  · intro hl k hm
    have hm' := (hp.perm_of_length_le (Nat.le_of_eq hl.symm)).mem_iff.mpr hm
    obtain ⟨row, hrow, rfl⟩ := List.mem_map.mp hm'
    exact ⟨row, (List.mem_filter.mp hrow).1, rfl⟩
  · intro h
    refine Nat.le_antisymm hp.length_le (List.subperm_of_subset hk fun k hm ↦ ?_).length_le
    obtain ⟨row, hrow, rfl⟩ := h k hm
    exact List.mem_map_of_mem (List.mem_filter.mpr ⟨hrow, List.contains_iff_mem.mpr hm⟩)

omit [DecidableEq κ] in
theorem sublist_map_filterMap {f : ρ → Option α} {key : ρ → κ} {key' : α → κ}
    (h : ∀ row a, f row = some a → key' a = key row) (rows : List ρ) :
    List.Sublist ((rows.filterMap f).map key') (rows.map key) := by
  induction rows with
  | nil => exact .slnil
  | cons row rows ih =>
    rcases hf : f row with _ | e
    · rw [List.filterMap_cons_none hf, List.map_cons]
      exact ih.cons _
    · rw [List.filterMap_cons_some hf, List.map_cons, List.map_cons, h row e hf]
      exact ih.cons_cons _

/-- A map that keeps its keys in the order in which they first came in. -/
structure OrderedMap (κ α : Type) where
  entries : List (κ × α)
  nodup : (entries.map Prod.fst).Nodup

namespace OrderedMap

def empty : OrderedMap κ α := ⟨[], .nil⟩

def get? (m : OrderedMap κ α) (k : κ) : Option α := (m.entries.find? (·.1 = k)).map Prod.snd

def set (m : OrderedMap κ α) (k : κ) (a : α) : OrderedMap κ α where
  entries := setEntry k a m.entries
  nodup := by
    rw [map_fst_setEntry]
    split
    · exact m.nodup
    · rename_i h
      exact List.Nodup.append m.nodup (List.nodup_singleton k) (by simpa using h)

def mapValues (m : OrderedMap κ α) (f : κ → α → β) : OrderedMap κ β where
  entries := m.entries.map fun e ↦ (e.1, f e.1 e.2)
  nodup := by simpa only [List.map_map, Function.comp_def] using m.nodup

/-- Keep the entries that `f` has a value for. -/
def filterMap (m : OrderedMap κ α) (f : α → Option β) : OrderedMap κ β where
  entries := m.entries.filterMap fun e ↦ (f e.2).map (e.1, ·)
  nodup := by
    refine (sublist_map_filterMap (fun e e' he ↦ ?_) m.entries).nodup m.nodup
    obtain ⟨b, -, rfl⟩ := Option.map_eq_some_iff.mp he
    rfl

/-- Change the entry of a key, if there is one. -/
def modify (m : OrderedMap κ α) (k : κ) (f : α → α) : OrderedMap κ α :=
  (m.get? k).elim m fun a ↦ m.set k (f a)

def keys (m : OrderedMap κ α) : List κ := m.entries.map Prod.fst

def erase (m : OrderedMap κ α) (k : κ) : OrderedMap κ α where
  entries := m.entries.filter (·.1 ≠ k)
  nodup := (List.filter_sublist.map Prod.fst).nodup m.nodup

def total (m : OrderedMap κ ℕ) : ℕ := (m.entries.map Prod.snd).sum

/-- Go through the rows and update, for each, the entry of its key. -/
def tally (rows : List ρ) (key : ρ → κ) (step : Option α → ρ → α) : OrderedMap κ α :=
  rows.foldl (fun m row ↦ m.set (key row) (step (m.get? (key row)) row)) empty

variable {m : OrderedMap κ α} {k k' : κ} {a : α}

theorem get?_eq_some : m.get? k = some a ↔ (k, a) ∈ m.entries := by
  obtain ⟨es, hd⟩ := m
  simp only [get?]
  induction es with
  | nil => simp
  | cons e es ih =>
    obtain ⟨hn, hd'⟩ := List.nodup_cons.mp hd
    by_cases he : e.1 = k
    · subst he
      simp only [decide_true, List.find?_cons_of_pos, Option.map_some, Option.some.injEq,
        List.mem_cons]
      constructor
      · rintro rfl
        exact .inl rfl
      · rintro (h | h)
        · exact (congrArg Prod.snd h).symm
        · exact absurd (List.mem_map_of_mem (f := Prod.fst) h) hn
    · rw [List.find?_cons_of_neg (by simpa using he), ih hd', List.mem_cons]
      refine ⟨.inr, fun h ↦ h.resolve_left fun h ↦ he ?_⟩
      exact (congrArg Prod.fst h).symm

@[simp] theorem get?_empty : (empty : OrderedMap κ α).get? k = none := rfl

theorem get?_set : (m.set k a).get? k' = if k' = k then some a else m.get? k' := by
  refine Option.ext fun a' ↦ ?_
  rw [get?_eq_some]
  simp only [set, mem_setEntry m.nodup]
  by_cases hk : k' = k
  · simp [hk, eq_comm]
  · simp [hk, get?_eq_some]

theorem entries_set (h : m.get? k = none) : (m.set k a).entries = m.entries ++ [(k, a)] := by
  have hk : ∀ e ∈ m.entries, e.1 ≠ k := by
    intro e he hk
    rw [get?_eq_some.mpr (show (k, e.2) ∈ m.entries from hk ▸ he)] at h
    cases h
  have hs : ∀ es : List (κ × α), (∀ e ∈ es, e.1 ≠ k) → setEntry k a es = es ++ [(k, a)] := by
    intro es
    induction es with
    | nil => intro _; rfl
    | cons e es ih =>
      intro hes
      rw [List.forall_mem_cons] at hes
      rw [setEntry, if_neg hes.1, ih hes.2, List.cons_append]
  exact hs m.entries hk

theorem get?_mapValues (f : κ → α → β) : (m.mapValues f).get? k = (m.get? k).map (f k) := by
  refine Option.ext fun b ↦ ?_
  rw [get?_eq_some, Option.map_eq_some_iff]
  simp only [mapValues, List.mem_map, Prod.mk.injEq, Prod.exists, get?_eq_some]
  constructor
  · rintro ⟨k', a, hm, rfl, rfl⟩
    exact ⟨a, hm, rfl⟩
  · rintro ⟨a, hm, rfl⟩
    exact ⟨k, a, hm, rfl, rfl⟩

theorem get?_filterMap (f : α → Option β) : (m.filterMap f).get? k = (m.get? k).bind f := by
  refine Option.ext fun b ↦ ?_
  rw [get?_eq_some, Option.bind_eq_some_iff]
  simp only [filterMap, List.mem_filterMap, Option.map_eq_some_iff, Prod.mk.injEq, Prod.exists,
    get?_eq_some]
  constructor
  · rintro ⟨k', a, hm, b', hf, rfl, rfl⟩
    exact ⟨a, hm, hf⟩
  · rintro ⟨a, hm, hf⟩
    exact ⟨k, a, hm, b, hf, rfl, rfl⟩

theorem mem_keys : k ∈ m.keys ↔ (m.get? k).isSome := by
  rw [Option.isSome_iff_exists, keys, List.mem_map]
  simp only [get?_eq_some, Prod.exists, exists_and_right, exists_eq_right]

theorem get?_modify (f : α → α) :
    (m.modify k f).get? k' = if k' = k then (m.get? k).map f else m.get? k' := by
  unfold modify
  rcases hm : m.get? k with _ | a
  · by_cases hk : k' = k <;> simp [hk, hm]
  · simp [get?_set]

/-- Changing entries one after the other changes each by the rows of its key. -/
theorem get?_foldl_modify (rows : List ρ) (key : ρ → κ) (f : ρ → α → α) (m : OrderedMap κ α)
    (k : κ) : (rows.foldl (fun m row ↦ m.modify (key row) (f row)) m).get? k =
      (m.get? k).map fun a ↦ (rows.filter (key · = k)).foldl (fun a row ↦ f row a) a := by
  induction rows generalizing m with
  | nil => simp
  | cons row rows ih =>
    rw [List.foldl_cons, ih, get?_modify]
    by_cases hk : key row = k
    · subst hk
      simp [Function.comp_def]
    · simp [hk, Ne.symm hk]

/-- Setting many entries to one value. -/
theorem get?_foldl_set (rows : List ρ) (key : ρ → κ) (a : α) (m : OrderedMap κ α) (k : κ) :
    (rows.foldl (fun m row ↦ m.set (key row) a) m).get? k =
      if ∃ row ∈ rows, key row = k then some a else m.get? k := by
  induction rows generalizing m with
  | nil => simp
  | cons row rows ih =>
    rw [List.foldl_cons, ih, get?_set]
    by_cases hrest : ∃ row ∈ rows, key row = k
    · have hcons : ∃ r ∈ row :: rows, key r = k := by
        obtain ⟨r, hr, hk⟩ := hrest
        exact ⟨r, .tail _ hr, hk⟩
      rw [if_pos hrest, if_pos hcons]
    · by_cases hk : key row = k
      · have hcons : ∃ r ∈ row :: rows, key r = k := ⟨row, .head _, hk⟩
        rw [if_neg hrest, if_pos hk.symm, if_pos hcons]
      · have hcons : ¬∃ r ∈ row :: rows, key r = k := by
          rintro ⟨r, hr, hrk⟩
          rcases List.mem_cons.mp hr with rfl | hr
          · exact hk hrk
          · exact hrest ⟨r, hr, hrk⟩
        rw [if_neg hrest, if_neg (Ne.symm hk), if_neg hcons]

/-- Setting the entries of rows with keys of their own. -/
theorem get?_foldl_insert (rows : List ρ) (key : ρ → κ) (val : ρ → α) (m : OrderedMap κ α) (k : κ)
    (hn : (rows.map key).Nodup) :
    (rows.foldl (fun m row ↦ m.set (key row) (val row)) m).get? k =
      ((rows.find? (key · = k)).map val).or (m.get? k) := by
  induction rows generalizing m with
  | nil => rfl
  | cons row rows ih =>
    obtain ⟨hrow, hn⟩ := List.nodup_cons.mp hn
    rw [List.foldl_cons, ih _ hn, get?_set]
    by_cases hk : key row = k
    · subst hk
      have hnone : rows.find? (key · = key row) = none := by
        refine List.find?_eq_none.mpr fun other hm ↦ ?_
        rw [decide_eq_true_eq]
        exact fun heq ↦ hrow (heq ▸ List.mem_map_of_mem hm)
      rw [if_pos rfl, hnone, List.find?_cons_of_pos (by simp)]
      rfl
    · rw [if_neg (Ne.symm hk), List.find?_cons_of_neg (by simpa using hk)]

/-- An entry of a tally has seen the rows of its key and no others. -/
theorem get?_tally (rows : List ρ) (key : ρ → κ) (step : Option α → ρ → α) (k : κ) :
    (tally rows key step).get? k =
      (rows.filter (key · = k)).foldl (fun a row ↦ some (step a row)) none := by
  have h : ∀ m : OrderedMap κ α,
      (rows.foldl (fun m row ↦ m.set (key row) (step (m.get? (key row)) row)) m).get? k =
        (rows.filter (key · = k)).foldl (fun a row ↦ some (step a row)) (m.get? k) := by
    induction rows with
    | nil => intro m; rfl
    | cons row rows ih =>
      intro m
      rw [List.foldl_cons, ih, get?_set]
      by_cases hk : key row = k
      · subst hk
        simp
      · simp [hk, Ne.symm hk]
  exact h empty

theorem get?_tally_eq_none {rows : List ρ} {key : ρ → κ} {step : Option α → ρ → α} {k : κ} :
    (tally rows key step).get? k = none ↔ ∀ row ∈ rows, key row ≠ k := by
  have h : ∀ (rows : List ρ) (a : α),
      (rows.foldl (fun a row ↦ some (step a row)) (some a)).isSome := by
    intro rows
    induction rows with
    | nil => intro a; rfl
    | cons row rows ih => intro a; exact ih _
  rw [get?_tally]
  rcases hf : rows.filter (key · = k) with _ | ⟨row, rest⟩
  · simpa [List.filter_eq_nil_iff] using hf
  · have hm : row ∈ rows.filter (key · = k) := hf ▸ .head _
    obtain ⟨hr, hk⟩ := List.mem_filter.mp hm
    refine ⟨fun hn ↦ ?_, fun hn ↦ absurd (of_decide_eq_true hk) (hn row hr)⟩
    have hs := h rest (step none row)
    rw [List.foldl_cons] at hn
    rw [hn] at hs
    cases hs

theorem get?_tally_of_mem {rows : List ρ} {key : ρ → κ} (step : Option α → ρ → α)
    (hn : (rows.map key).Nodup) {row : ρ} (hm : row ∈ rows) :
    (tally rows key step).get? (key row) = some (step none row) := by
  have hf : rows.filter (key · = key row) = [row] := by
    induction rows with
    | nil => cases hm
    | cons r rows ih =>
      rw [List.map_cons, List.nodup_cons] at hn
      rcases List.mem_cons.mp hm with rfl | hm
      · rw [List.filter_cons_of_pos (by simp), List.filter_eq_nil_iff.mpr]
        intro r hr hk
        exact hn.1 (of_decide_eq_true hk ▸ List.mem_map_of_mem hr)
      · rw [List.filter_cons_of_neg, ih hn.2 hm]
        intro hk
        exact hn.1 (of_decide_eq_true hk ▸ List.mem_map_of_mem hm)
  rw [get?_tally, hf]
  rfl

/-- Collect the values of the rows under their keys. -/
def group (rows : List ρ) (key : ρ → κ) (val : ρ → α) : OrderedMap κ (List α) :=
  tally rows key fun list row ↦ list.getD [] ++ [val row]

theorem get?_group (rows : List ρ) (key : ρ → κ) (val : ρ → α) (k : κ) :
    (group rows key val).get? k =
      if rows.filter (key · = k) = [] then none
      else some ((rows.filter (key · = k)).map val) := by
  have h : ∀ (rows : List ρ) (l : List α),
      rows.foldl (fun list row ↦ some (list.getD [] ++ [val row])) (some l) =
        some (l ++ rows.map val) := by
    intro rows
    induction rows with
    | nil => intro l; simp
    | cons row rows ih => intro l; simp [ih]
  rw [group, get?_tally]
  cases rows.filter (key · = k) with
  | nil => rfl
  | cons row rows => simp [h]

theorem getD_group (rows : List ρ) (key : ρ → κ) (val : ρ → α) (k : κ) :
    ((group rows key val).get? k).getD [] = (rows.filter (key · = k)).map val := by
  rw [get?_group]
  split
  · simp_all
  · rfl

theorem get?_erase : (m.erase k).get? k' = if k' = k then none else m.get? k' := by
  refine Option.ext fun a ↦ ?_
  rw [get?_eq_some]
  simp only [erase, List.mem_filter, decide_eq_true_eq]
  by_cases hk : k' = k
  · simp [hk]
  · simp [hk, get?_eq_some]

theorem total_eq (m : OrderedMap κ ℕ) (k : κ) :
    m.total = ((m.entries.filter (·.1 ≠ k)).map Prod.snd).sum + (m.get? k).getD 0 := by
  obtain ⟨es, hd⟩ := m
  simp only [total, get?]
  induction es with
  | nil => rfl
  | cons e es ih =>
    obtain ⟨hn, hd'⟩ := List.nodup_cons.mp hd
    have ih := ih hd'
    by_cases he : e.1 = k
    · have hf : es.filter (·.1 ≠ k) = es := by
        refine List.filter_eq_self.mpr fun e' he' ↦ ?_
        simp only [ne_eq, decide_not, Bool.not_eq_true', decide_eq_false_iff_not]
        intro hk
        exact hn (he.trans hk.symm ▸ List.mem_map_of_mem he')
      rw [List.filter_cons_of_neg (by simpa using he), hf]
      simp [he, Nat.add_comm]
    · simp [he, ih, Nat.add_assoc]

theorem total_erase (m : OrderedMap κ ℕ) (k : κ) :
    m.total = (m.erase k).total + (m.get? k).getD 0 :=
  m.total_eq k

theorem total_set (m : OrderedMap κ ℕ) (k : κ) (n : ℕ) :
    (m.set k n).total + (m.get? k).getD 0 = m.total + n := by
  have he : ∀ es : List (κ × ℕ), (setEntry k n es).filter (·.1 ≠ k) = es.filter (·.1 ≠ k) := by
    intro es
    induction es with
    | nil => simp [setEntry]
    | cons e es ih =>
      by_cases he : e.1 = k
      · simp [setEntry, he]
      · simp only [setEntry, if_neg he, List.filter_cons, ih]
  rw [(m.set k n).total_eq k, m.total_eq k, get?_set, if_pos rfl]
  simp only [set, he, Option.getD_some]
  omega

section Entries

variable {e : κ × α} {es : List (κ × α)}

theorem get?_mk_cons (hd : ((e :: es).map Prod.fst).Nodup) :
    (⟨e :: es, hd⟩ : OrderedMap κ α).get? k = if e.1 = k then some e.2
      else (⟨es, (List.nodup_cons.mp hd).2⟩ : OrderedMap κ α).get? k := by
  by_cases he : e.1 = k
  · simp [get?, he]
  · simp [get?, he]

theorem get?_mk_tail (hd : ((e :: es).map Prod.fst).Nodup) :
    (⟨es, (List.nodup_cons.mp hd).2⟩ : OrderedMap κ α).get? e.1 = none := by
  rw [Option.eq_none_iff_forall_ne_some]
  intro a ha
  exact (List.nodup_cons.mp hd).1 (List.mem_map.mpr ⟨_, get?_eq_some.mp ha, rfl⟩)

/-- Values that are there are kept when the entries of another map come in. -/
theorem get?_foldl_fill (m' : OrderedMap κ α) :
    (m.entries.foldl (fun m' e ↦ if (m'.get? e.1).isSome then m' else m'.set e.1 e.2) m').get? k =
      (m'.get? k).or (m.get? k) := by
  obtain ⟨es, hd⟩ := m
  induction es generalizing m' with
  | nil => exact (Option.or_none).symm
  | cons e es ih =>
    rw [List.foldl_cons, get?_mk_cons, ih _ (List.nodup_cons.mp hd).2]
    by_cases he : e.1 = k
    · subst he
      rw [get?_mk_tail hd, Option.or_none, if_pos rfl]
      cases hm : m'.get? e.1 with
      | some a => simp [hm]
      | none => simp [get?_set]
    · rw [if_neg he]
      split
      · rfl
      · rw [get?_set, if_neg (Ne.symm he)]

/-- Each value is changed by the entry of its key. -/
theorem foldl_update (f : κ → β) (g : κ → α → β → β) :
    m.entries.foldl (fun f e ↦ Function.update f e.1 (g e.1 e.2 (f e.1))) f k =
      (m.get? k).elim (f k) (g k · (f k)) := by
  obtain ⟨es, hd⟩ := m
  induction es generalizing f with
  | nil => rfl
  | cons e es ih =>
    rw [List.foldl_cons, get?_mk_cons, ih _ (List.nodup_cons.mp hd).2]
    by_cases he : e.1 = k
    · subst he
      rw [get?_mk_tail hd, if_pos rfl, Function.update_self]
      rfl
    · rw [if_neg he, Function.update_of_ne (Ne.symm he)]

/-- Values that each entry may fail to change, all or none of them. -/
theorem foldlM_update_eq_some {f f' : κ → β} {g : κ → α → β → Option β} :
    m.entries.foldlM (fun f e ↦ (g e.1 e.2 (f e.1)).map (Function.update f e.1)) f = some f' ↔
      (∀ k a, m.get? k = some a → (g k a (f k)).isSome) ∧
        f' = fun k ↦ (m.get? k).elim (f k) fun a ↦ (g k a (f k)).getD (f k) := by
  obtain ⟨es, hd⟩ := m
  induction es generalizing f with
  | nil => exact ⟨fun h ↦ ⟨nofun, (Option.some.inj h).symm⟩, fun h ↦ congrArg some h.2.symm⟩
  | cons e es ih =>
    have htail := get?_mk_tail hd
    rw [List.foldlM_cons]
    cases hg : g e.1 e.2 (f e.1) with
    | none =>
      refine ⟨nofun, fun h ↦ ?_⟩
      have he := h.1 e.1 e.2 (by rw [get?_mk_cons, if_pos rfl])
      rw [hg] at he
      cases he
    | some b =>
      refine (ih (List.nodup_cons.mp hd).2).trans (and_congr ?_ (Eq.congr_right (funext fun k ↦ ?_)))
      · constructor
        · intro h k a ha
          rw [get?_mk_cons] at ha
          by_cases he : e.1 = k
          · subst he
            obtain rfl := Option.some.inj ((if_pos rfl).symm.trans ha)
            rw [hg]
            rfl
          · rw [if_neg he] at ha
            have hk := h k a ha
            rwa [Function.update_of_ne (Ne.symm he)] at hk
        · intro h k a ha
          by_cases he : e.1 = k
          · subst he
            rw [htail] at ha
            cases ha
          · rw [Function.update_of_ne (Ne.symm he)]
            exact h k a (by rw [get?_mk_cons, if_neg he, ha])
      · rw [get?_mk_cons]
        by_cases he : e.1 = k
        · subst he
          rw [htail, if_pos rfl, Function.update_self, Option.elim_none, Option.elim_some, hg]
          rfl
        · rw [if_neg he, Function.update_of_ne (Ne.symm he)]

end Entries

end OrderedMap

end RustdeskConsole.Collections
