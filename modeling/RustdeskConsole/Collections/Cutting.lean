import Mathlib.Data.List.TakeWhile

namespace RustdeskConsole.Collections

variable {α : Type}

/-- What takes a match off the front of a text. A match is not empty. -/
structure Pattern (α : Type) where
  take : List α → Option (List α)
  shorter : ∀ {text rest}, take text = some rest → rest.length < text.length

variable {p q : Pattern α} {text rest a b piece : List α}

/-- One pattern after the other. -/
def Pattern.andThen (p q : Pattern α) : Pattern α where
  take text := (p.take text).bind q.take
  shorter h := by
    obtain ⟨middle, hp, hq⟩ := Option.bind_eq_some_iff.mp h
    have hshort := p.shorter hp
    have hshorter := q.shorter hq
    omega

@[simp] theorem Pattern.andThen_take : (p.andThen q).take text = (p.take text).bind q.take := rfl

/-- The leftmost match: what comes before it and what comes after it. -/
def search (p : Pattern α) : List α → Option (List α × List α)
  | [] => none
  | c :: text =>
    match p.take (c :: text) with
    | some rest => some ([], rest)
    | none => (search p text).map fun found ↦ (c :: found.1, found.2)

theorem take_nil : p.take [] = none := by
  cases h : p.take [] with
  | none => rfl
  | some rest =>
    have hshort := p.shorter h
    simp at hshort

theorem search_of_take (h : p.take text = some rest) : search p text = some ([], rest) := by
  cases text with
  | nil =>
    rw [take_nil] at h
    cases h
  | cons c text => rw [search, h]

theorem search_cons_of_none {c : α} (h : p.take (c :: text) = none) :
    search p (c :: text) = (search p text).map fun found ↦ (c :: found.1, found.2) := by
  rw [search, h]

/-- Where no match starts, the search goes on. -/
theorem search_skip (hp : ∀ c ∈ a, ∀ text, p.take (c :: text) = none) :
    search p (a ++ text) = (search p text).map fun found ↦ (a ++ found.1, found.2) := by
  induction a with
  | nil => simp
  | cons c a ih =>
    rw [List.cons_append, search_cons_of_none (hp c (.head _) _), ih fun c hc ↦ hp c (.tail _ hc),
      Option.map_map]
    rfl

theorem search_shorter (h : search p text = some (piece, rest)) : rest.length < text.length := by
  induction text generalizing piece with
  | nil => cases h
  | cons c text ih =>
    cases ht : p.take (c :: text) with
    | some after =>
      rw [search_of_take ht] at h
      cases h
      exact p.shorter ht
    | none =>
      rw [search_cons_of_none ht] at h
      obtain ⟨⟨before, after⟩, hs, heq⟩ := Option.map_eq_some_iff.mp h
      cases heq
      have hshort : after.length < text.length := ih hs
      simp only [List.length_cons]
      omega

/-- Cuts a text at the matches, leftmost first. The last part has none. -/
def cut (p : Pattern α) (text : List α) : List (List α) × List α :=
  match _h : search p text with
  | none => ([], text)
  | some (piece, rest) => (piece :: (cut p rest).1, (cut p rest).2)
termination_by text.length
decreasing_by exact search_shorter _h

theorem cut_of_none (h : search p text = none) : cut p text = ([], text) := by
  rw [cut]
  split
  · rfl
  · next heq => simp [h] at heq

theorem cut_of_some (h : search p text = some (piece, rest)) :
    cut p text = (piece :: (cut p rest).1, (cut p rest).2) := by
  rw [cut]
  split
  · next heq => simp [h] at heq
  · next heq =>
    simp only [h, Option.some.injEq, Prod.mk.injEq] at heq
    rw [heq.1, heq.2]

/-- What follows a text does not change its matches. -/
structure Pattern.Stable (p : Pattern α) : Prop where
  extend : ∀ {a rest}, p.take a = some rest → ∀ b, p.take (a ++ b) = some (rest ++ b)
  first : ∀ {a} b, p.take a = none → p.take (a ++ b) ≠ none → search p a = none

theorem search_append (hp : p.Stable) (h : search p a = some (piece, rest)) (b : List α) :
    search p (a ++ b) = some (piece, rest ++ b) := by
  induction a generalizing piece with
  | nil => cases h
  | cons c a ih =>
    cases ht : p.take (c :: a) with
    | some after =>
      rw [search_of_take ht] at h
      cases h
      exact search_of_take (hp.extend ht b)
    | none =>
      have hlong : p.take (c :: (a ++ b)) = none := by
        by_contra hne
        rw [hp.first b ht hne] at h
        cases h
      rw [search_cons_of_none ht] at h
      obtain ⟨⟨before, after⟩, hs, heq⟩ := Option.map_eq_some_iff.mp h
      cases heq
      rw [List.cons_append, search_cons_of_none hlong, ih hs]
      rfl

/-- A text can be cut in two steps, the last part of the first being carried over. -/
theorem cut_append (hp : p.Stable) (a b : List α) : cut p (a ++ b) =
    ((cut p a).1 ++ (cut p ((cut p a).2 ++ b)).1, (cut p ((cut p a).2 ++ b)).2) := by
  induction hn : a.length using Nat.strongRecOn generalizing a with
  | ind n ih =>
    cases hs : search p a with
    | none => rw [cut_of_none hs, List.nil_append]
    | some found =>
      obtain ⟨piece, rest⟩ := found
      have hshort := search_shorter hs
      rw [cut_of_some hs, cut_of_some (search_append hp hs b), ih rest.length (by omega) rest rfl]
      rfl

section Words

/-- A text is these words, with blanks between them and maybe around them. -/
inductive Spaced (blank : α → Bool) : List α → List (List α) → Prop
  | finish {gap : List α} : (∀ c ∈ gap, blank c = true) → Spaced blank gap []
  | word {gap word tail : List α} {ws : List (List α)} : (∀ c ∈ gap, blank c = true) → word ≠ [] →
    (∀ c ∈ word, blank c = false) → (∀ c, tail.head? = some c → blank c = true) →
    Spaced blank tail ws → Spaced blank (gap ++ word ++ tail) (word :: ws)

variable {blank : α → Bool} {gap word tail : List α} {ws : List (List α)} {c : α}

def words (blank : α → Bool) (text : List α) : List (List α) :=
  (text.splitOnP blank).filter fun word ↦ !word.isEmpty

theorem words_cons_blank (hc : blank c = true) : words blank (c :: text) = words blank text := by
  rw [words, List.splitOnP_cons_eq_if_modifyHead, if_pos hc]
  rfl

theorem words_append_gap (h : ∀ c ∈ gap, blank c = true) :
    words blank (gap ++ text) = words blank text := by
  induction gap with
  | nil => rfl
  | cons c gap ih =>
    rw [List.cons_append, words_cons_blank (h c List.mem_cons_self)]
    exact ih fun d hd ↦ h d (List.mem_cons_of_mem _ hd)

theorem words_word (hne : word ≠ []) (h : ∀ c ∈ word, blank c = false)
    (htail : ∀ c, tail.head? = some c → blank c = true) :
    words blank (word ++ tail) = word :: words blank tail := by
  cases tail with
  | nil =>
    rw [List.append_nil, words, List.splitOnP_eq_singleton h,
      List.filter_cons_of_pos (by simpa using hne)]
    rfl
  | cons c tail =>
    have hc := htail c rfl
    rw [words_cons_blank hc, words, List.splitOnP_append_cons _ _ hc,
      List.splitOnP_eq_singleton h, List.singleton_append,
      List.filter_cons_of_pos (by simpa using hne)]
    rfl

theorem Spaced.words_eq (h : Spaced blank text ws) : words blank text = ws := by
  induction h with
  | @finish gap hgap =>
    rw [← List.append_nil gap, words_append_gap hgap]
    rfl
  | word hgap hne hword htail _ ih =>
    rw [List.append_assoc, words_append_gap hgap, words_word hne hword htail, ih]

theorem Spaced.cons_blank (hc : blank c = true) (h : Spaced blank text ws) :
    Spaced blank (c :: text) ws := by
  have hcons {gap : List α} (hgap : ∀ d ∈ gap, blank d = true) : ∀ d ∈ c :: gap, blank d = true :=
    List.forall_mem_cons.mpr ⟨hc, hgap⟩
  cases h with
  | finish hgap => exact .finish (hcons hgap)
  | word hgap hne hword htail hrest => exact .word (hcons hgap) hne hword htail hrest

theorem Spaced.cons_letter (hc : blank c = false) (h : Spaced blank text ws) :
    ∃ ws, Spaced blank (c :: text) ws := by
  by_cases hhead : ∀ d, text.head? = some d → blank d = true
  · exact ⟨_, @Spaced.word _ _ [] [c] _ _ (by simp) (by simp) (by simpa using hc) hhead h⟩
  · cases h with
    | finish hgap => exact absurd (fun d hd ↦ hgap d (List.mem_of_head? hd)) hhead
    | @word gap word tail ws hgap hne hword htail hrest =>
      cases gap with
      | cons d gap =>
        refine absurd (fun d' hd ↦ ?_) hhead
        cases hd
        exact hgap d List.mem_cons_self
      | nil =>
        have hlong : ∀ d ∈ c :: word, blank d = false := List.forall_mem_cons.mpr ⟨hc, hword⟩
        exact ⟨_, @Spaced.word _ _ [] (c :: word) _ _ (by simp) (by simp) hlong htail hrest⟩

theorem Spaced.append_gap (h : Spaced blank text ws) (hgap : ∀ c ∈ gap, blank c = true) :
    Spaced blank (text ++ gap) ws := by
  induction h with
  | finish hstart => exact .finish (List.forall_mem_append.mpr ⟨hstart, hgap⟩)
  | @word start word tail ws hstart hne hword htail _ ih =>
    rw [List.append_assoc]
    refine .word hstart hne hword (fun c hc ↦ ?_) ih
    cases tail with
    | nil => exact hgap c (List.mem_of_head? hc)
    | cons d tail => exact htail c hc

/-- Every text has its words, and no others. -/
theorem spaced_iff : Spaced blank text ws ↔ words blank text = ws := by
  refine ⟨Spaced.words_eq, ?_⟩
  suffices h : ∃ ws, Spaced blank text ws by
    obtain ⟨ws', hws⟩ := h
    rintro rfl
    rwa [hws.words_eq]
  induction text with
  | nil => exact ⟨[], .finish (by simp)⟩
  | cons c text ih =>
    obtain ⟨ws', hws⟩ := ih
    cases hc : blank c with
    | true => exact ⟨ws', hws.cons_blank hc⟩
    | false => exact hws.cons_letter hc

theorem words_append_right (hgap : ∀ c ∈ gap, blank c = true) :
    words blank (text ++ gap) = words blank text :=
  spaced_iff.mp ((spaced_iff.mpr rfl).append_gap hgap)

theorem words_eq_nil (h : words blank text = []) : ∀ c ∈ text, blank c = true := by
  cases spaced_iff.mpr h with
  | finish hgap => exact hgap

def strip (blank : α → Bool) (text : List α) : List α :=
  ((text.dropWhile blank).reverse.dropWhile blank).reverse

theorem head?_dropWhile (h : (text.dropWhile blank).head? = some c) : blank c = false := by
  have hhead := List.head?_dropWhile_not blank text
  rw [h] at hhead
  simpa using hhead

theorem strip_append : strip blank text ++ ((text.dropWhile blank).reverse.takeWhile blank).reverse =
    text.dropWhile blank := by
  rw [strip, ← List.reverse_append, List.takeWhile_append_dropWhile, List.reverse_reverse]

/-- A text is what it is stripped to, with blanks around it. -/
theorem strip_text (blank : α → Bool) (text : List α) :
    ∃ front back, text = front ++ strip blank text ++ back ∧ ∀ c ∈ front ++ back, blank c = true := by
  refine ⟨text.takeWhile blank, ((text.dropWhile blank).reverse.takeWhile blank).reverse, ?_, ?_⟩
  · rw [List.append_assoc, strip_append, List.takeWhile_append_dropWhile]
  · intro c hc
    obtain hc | hc := List.mem_append.mp hc
    · exact List.mem_takeWhile_imp hc
    · exact List.mem_takeWhile_imp (List.mem_reverse.mp hc)

theorem head?_strip (h : (strip blank text).head? = some c) : blank c = false := by
  have hstart : (text.dropWhile blank).head? = some c := by
    rw [← strip_append, List.head?_append, h]
    rfl
  exact head?_dropWhile hstart

theorem words_strip : words blank (strip blank text) = words blank text := by
  obtain ⟨front, back, htext, hgaps⟩ := strip_text blank text
  obtain ⟨hfront, hback⟩ := List.forall_mem_append.mp hgaps
  calc words blank (strip blank text)
      = words blank (front ++ (strip blank text ++ back)) := by
        rw [words_append_gap hfront, words_append_right hback]
    _ = words blank text := by rw [← List.append_assoc, ← htext]

theorem words_strip_ne_nil (h : strip blank text ≠ []) : words blank (strip blank text) ≠ [] := by
  intro hnil
  have hblank := words_eq_nil hnil _ (List.head_mem h)
  rw [head?_strip (List.head?_eq_some_head h)] at hblank
  cases hblank

end Words

end RustdeskConsole.Collections
