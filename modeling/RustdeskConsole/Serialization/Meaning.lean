import Mathlib.Data.List.Lex
import Mathlib.Data.List.Nodup
import Mathlib.Data.List.Perm.Basic
import Mathlib.Data.List.Sort
import RustdeskConsole.Serialization.Json

namespace RustdeskConsole.Serialization

section Entries

variable {κ α γ : Type} {entries entries' : List (κ × α)} {k : κ} {a : α}

section Lookup

variable [BEq κ] [LawfulBEq κ]

theorem lookup_eq_some_iff_mem (hd : (entries.map Prod.fst).Nodup) :
    entries.lookup k = some a ↔ (k, a) ∈ entries := by
  induction entries with
  | nil => simp
  | cons entry entries ih =>
    obtain ⟨hnew, hd⟩ := List.nodup_cons.mp hd
    rw [List.lookup_cons, List.mem_cons]
    split
    · next heq =>
      obtain rfl : k = entry.1 := by simpa using heq
      have hold : (entry.1, a) ∉ entries := fun hm ↦ hnew (List.mem_map.mpr ⟨_, hm, rfl⟩)
      simp [hold, Prod.ext_iff, eq_comm]
    · next hne =>
      have hne : k ≠ entry.1 := by simpa using hne
      rw [ih hd]
      simp [hne, Prod.ext_iff]

/-- Entries that are found alike are the same but for their order. -/
theorem perm_of_lookup (hd : (entries.map Prod.fst).Nodup) (hd' : (entries'.map Prod.fst).Nodup)
    (h : ∀ k, entries.lookup k = entries'.lookup k) : entries.Perm entries' := by
  refine (List.perm_ext_iff_of_nodup hd.of_map hd'.of_map).mpr fun ⟨k, a⟩ ↦ ?_
  rw [← lookup_eq_some_iff_mem hd, ← lookup_eq_some_iff_mem hd', h]

theorem lookup_perm (hd : (entries.map Prod.fst).Nodup) (hp : entries.Perm entries') :
    entries.lookup k = entries'.lookup k := by
  have hd' : (entries'.map Prod.fst).Nodup := (hp.map Prod.fst).nodup_iff.mp hd
  refine Option.ext fun a ↦ ?_
  rw [lookup_eq_some_iff_mem hd, lookup_eq_some_iff_mem hd', hp.mem_iff]

end Lookup

variable [LinearOrder γ]

def sortEntries (key : κ → γ) (entries : List (κ × α)) : List (κ × α) :=
  entries.insertionSort fun a b ↦ key a.1 ≤ key b.1

theorem perm_sortEntries {key : κ → γ} : (sortEntries key entries).Perm entries :=
  List.perm_insertionSort ..

/-- The order before does not matter where the keys tell all entries apart. -/
theorem sortEntries_perm {key : κ → γ} (hkey : ∀ a ∈ entries, ∀ b ∈ entries,
    key a.1 = key b.1 → a = b) (hp : entries.Perm entries') :
    sortEntries key entries = sortEntries key entries' := by
  have hsorted : ∀ entries : List (κ × α),
      (sortEntries key entries).Pairwise fun a b ↦ key a.1 ≤ key b.1 := fun entries ↦
    have : IsTrans (κ × α) fun a b ↦ key a.1 ≤ key b.1 := ⟨fun _ _ _ ↦ le_trans⟩
    have : Std.Total fun a b : κ × α ↦ key a.1 ≤ key b.1 := ⟨fun _ _ ↦ le_total ..⟩
    List.pairwise_insertionSort _ entries
  refine List.Perm.eq_of_pairwise (fun a b ha hb hab hba ↦ ?_) (hsorted _) (hsorted _)
    (perm_sortEntries.trans (hp.trans perm_sortEntries.symm))
  exact hkey a (perm_sortEntries.subset ha) b (hp.symm.subset (perm_sortEntries.subset hb))
    (le_antisymm hab hba)

end Entries

/-- What a value says: of an object, what each of its members says, whatever their
order. -/
inductive Meaning
  | leaf (value : Value)
  | array (elements : List Meaning)
  | object (members : Text → Option Meaning)

mutual

def meaning : Value → Meaning
  | .array elements => .array (meanings elements)
  | .object members => .object (memberMeaning members)
  | value => .leaf value

def meanings : List Value → List Meaning
  | [] => []
  | element :: rest => meaning element :: meanings rest

def memberMeaning : List (Text × Value) → Text → Option Meaning
  | [], _ => none
  | (key, value) :: rest, name =>
    if name = key then some (meaning value) else memberMeaning rest name

end

variable {members members' : List (Text × Value)} {name : Text}

theorem memberMeaning_eq : memberMeaning members name = (members.lookup name).map meaning := by
  induction members with
  | nil => rfl
  | cons member members ih =>
    rw [memberMeaning, List.lookup_cons, ih]
    split
    · next h => simp [h]
    · next h => rw [beq_eq_false_iff_ne.mpr h]

end RustdeskConsole.Serialization
