import Mathlib.Data.List.Induction
import Mathlib.Data.List.Infix
import Mathlib.Data.List.TakeWhile

namespace RustdeskConsole.Posix

abbrev Name := List Char

abbrev Path := List Char

/-- A place in the file system, as the names below the root. -/
abbrev Location := List Name

def current : Name := ['.']

def above : Name := ['.', '.']

def segments (path : Path) : List Name := path.splitOn '/'

/-- The segments that are not passed over. -/
def parts (path : Path) : List Name := (segments path).filter fun part ↦ part ≠ current && part ≠ []

def ofParts (names : List Name) : Path := ['/'].intercalate names

def isAbsolute (path : Path) : Bool := path.head? = some '/'

/-- One part of a path that is made normal; what leads above an absolute one is dropped. -/
def resolvePart (absolute : Bool) (names : List Name) (part : Name) : List Name :=
  if part ≠ above then names ++ [part]
  else match names.getLast? with
    | some last => if last = above then names ++ [part] else names.dropLast
    | none => if absolute then [] else [part]

def normalParts (path : Path) : List Name :=
  (parts path).foldl (resolvePart (isAbsolute path)) []

def normalize (path : Path) : Path :=
  let names := normalParts path
  let trailing : List Name := if path.getLast? = some '/' then [[]] else []
  if isAbsolute path then '/' :: ofParts (if names = [] then [] else names ++ trailing)
  else ofParts ((if names = [] then [current] else names) ++ trailing)

def join (directory path : Path) : Path :=
  match directory, path with
  | [], [] => current
  | [], _ => normalize path
  | _, [] => normalize directory
  | _, _ => normalize (directory ++ '/' :: path)

/-- The part of a path before its last name. -/
def dirname (path : Path) : Path :=
  let rest := (path.tail.reverse.dropWhile (· = '/')).dropWhile (· ≠ '/')
  if path = [] then current
  else if rest = [] then (if isAbsolute path then ['/'] else current)
  else if isAbsolute path && rest.length = 1 then ['/', '/']
  else path.take rest.length

def enter (location : Location) (part : Name) : Location :=
  if part = above then location.dropLast else location ++ [part]

/-- Where a path leads from a directory in which no link stands. -/
def locate (cwd : Location) (path : Path) : Location :=
  (parts path).foldl enter (if isAbsolute path then [] else cwd)

/-- A name that a directory may hold. -/
structure Plain (name : Name) : Prop where
  notEmpty : name ≠ []
  notCurrent : name ≠ current
  notAbove : name ≠ above
  noSeparator : '/' ∉ name

/-- A part that is not passed over, of a path that is split. -/
structure IsPart (part : Name) : Prop where
  notEmpty : part ≠ []
  notCurrent : part ≠ current
  noSeparator : '/' ∉ part

variable {path directory : Path} {names : List Name} {name part : Name} {cwd location : Location}
  {absolute : Bool}

theorem not_mem_segment (h : part ∈ segments path) : '/' ∉ part := by
  induction path generalizing part with
  | nil => simp_all [segments]
  | cons c cs ih =>
    rw [segments, List.splitOn_cons_eq_if_modifyHead] at h
    split at h
    · rcases List.mem_cons.mp h with rfl | h
      · simp
      · exact ih h
    · next hc =>
      obtain ⟨first, rest, hs⟩ := List.exists_cons_of_ne_nil (List.splitOn_ne_nil '/' cs)
      rw [hs, List.modifyHead_cons] at h
      have hfirst : ∀ part ∈ first :: rest, '/' ∉ part := by
        intro part hp
        rw [← hs] at hp
        exact ih hp
      rcases List.mem_cons.mp h with rfl | h
      · have hne : '/' ≠ c := fun heq ↦ hc (by simp [← heq])
        simp [hne, hfirst first List.mem_cons_self]
      · exact hfirst part (List.mem_cons_of_mem _ h)

theorem mem_parts : part ∈ parts path ↔ part ∈ segments path ∧ part ≠ current ∧ part ≠ [] := by
  simp [parts]

theorem isPart_of_mem (h : part ∈ parts path) : IsPart part := by
  obtain ⟨hs, hc, he⟩ := mem_parts.mp h
  exact ⟨he, hc, not_mem_segment hs⟩

theorem segments_ofParts (hn : names ≠ []) (h : ∀ name ∈ names, '/' ∉ name) :
    segments (ofParts names) = names :=
  List.splitOn_intercalate '/' h hn

theorem filter_parts (h : ∀ name ∈ names, IsPart name) :
    names.filter (fun part ↦ part ≠ current && part ≠ []) = names := by
  rw [List.filter_eq_self]
  intro name hm
  simp [(h name hm).notEmpty, (h name hm).notCurrent]

@[simp] theorem parts_nil : parts [] = [] := by
  simp [parts, segments]

@[simp] theorem parts_current : parts current = [] := rfl

theorem parts_ofParts (h : ∀ name ∈ names, IsPart name) : parts (ofParts names) = names := by
  by_cases hn : names = []
  · rw [hn]
    exact parts_nil
  · rw [parts, segments_ofParts hn fun name hm ↦ (h name hm).noSeparator, filter_parts h]

theorem parts_append : parts (directory ++ '/' :: path) = parts directory ++ parts path := by
  rw [parts, segments, List.splitOn_append_cons_self, List.filter_append]
  rfl

theorem parts_cons : parts ('/' :: path) = parts path := by
  rw [← List.nil_append ('/' :: path), parts_append, parts_nil, List.nil_append]

theorem resolvePart_above (h : part ≠ above) : resolvePart absolute names part = names ++ [part] :=
  if_pos h

theorem isPart_resolvePart (hn : ∀ name ∈ names, IsPart name) (hp : IsPart part) :
    ∀ name ∈ resolvePart absolute names part, IsPart name := by
  have hsnoc : ∀ name ∈ names ++ [part], IsPart name := by
    intro name hm
    rcases List.mem_append.mp hm with hm | hm
    · exact hn name hm
    · rw [List.mem_singleton.mp hm]
      exact hp
  unfold resolvePart
  split
  · exact hsnoc
  · split
    · split
      · exact hsnoc
      · exact fun name hm ↦ hn name (List.mem_of_mem_dropLast hm)
    · split
      · simp
      · intro name hm
        rw [List.mem_singleton.mp hm]
        exact hp

theorem isPart_foldl {given : List Name} (hn : ∀ name ∈ names, IsPart name)
    (hg : ∀ name ∈ given, IsPart name) :
    ∀ name ∈ given.foldl (resolvePart absolute) names, IsPart name := by
  induction given generalizing names with
  | nil => exact hn
  | cons part given ih =>
    rw [List.foldl_cons]
    exact ih (isPart_resolvePart hn (hg part List.mem_cons_self))
      fun name hm ↦ hg name (List.mem_cons_of_mem _ hm)

theorem isPart_normalParts : ∀ name ∈ normalParts path, IsPart name :=
  isPart_foldl (by simp) fun _ ↦ isPart_of_mem

/-- Without a part that leads upwards only what is passed over is lost. -/
theorem normalParts_eq (h : above ∉ parts path) : normalParts path = parts path := by
  have hfold : ∀ given names : List Name, above ∉ given →
      given.foldl (resolvePart (isAbsolute path)) names = names ++ given := by
    intro given
    induction given with
    | nil => simp
    | cons part given ih =>
      intro names hg
      rw [List.mem_cons, not_or] at hg
      rw [List.foldl_cons, resolvePart_above (Ne.symm hg.1), ih _ hg.2, List.append_assoc,
        List.singleton_append]
  exact hfold _ _ h

theorem isAbsolute_ofParts (h : ∀ name ∈ names, '/' ∉ name) (hn : names.head? ≠ some []) :
    isAbsolute (ofParts names) = false := by
  cases names with
  | nil => rfl
  | cons name rest =>
    cases name with
    | nil => exact absurd rfl hn
    | cons c cs =>
      have hc : '/' ≠ c := fun heq ↦ h _ List.mem_cons_self (heq ▸ List.mem_cons_self)
      simp [isAbsolute, ofParts, Ne.symm hc]

theorem filter_trailing (trailing : Bool) :
    (if trailing then [[]] else [] : List Name).filter (fun part ↦ part ≠ current && part ≠ []) =
      [] := by
  cases trailing <;> rfl

theorem parts_ofParts_append (hn : names ≠ []) (h : ∀ name ∈ names, IsPart name)
    (trailing : Bool) :
    parts (ofParts (names ++ if trailing then [[]] else [])) = names := by
  rw [parts, segments_ofParts (by simp [hn]), List.filter_append, filter_trailing,
    List.append_nil, filter_parts h]
  intro name hm
  rcases List.mem_append.mp hm with hm | hm
  · exact (h name hm).noSeparator
  · cases trailing <;> simp_all

theorem parts_normalize : parts (normalize path) = normalParts path := by
  unfold normalize
  by_cases hn : normalParts path = []
  · by_cases ha : isAbsolute path
    · simp [hn, ha, parts_cons, ofParts]
    · by_cases ht : path.getLast? = some '/' <;> simp [hn, ha, ht, ofParts, current] <;> rfl
  · have hparts := parts_ofParts_append hn isPart_normalParts (path.getLast? = some '/')
    by_cases ha : isAbsolute path
    · simpa [hn, ha, parts_cons] using hparts
    · simpa [hn, ha] using hparts

theorem isAbsolute_normalize : isAbsolute (normalize path) = isAbsolute path := by
  unfold normalize
  by_cases ha : isAbsolute path
  · simp only [ha, if_true]
    rfl
  · simp only [ha, Bool.false_eq_true, if_false]
    have hp : ∀ name ∈ normalParts path, IsPart name := isPart_normalParts
    refine isAbsolute_ofParts ?_ ?_
    · intro name hm
      rcases List.mem_append.mp hm with hm | hm
      · split at hm
        · rw [List.mem_singleton.mp hm]
          simp [current]
        · exact (hp name hm).noSeparator
      · split at hm <;> simp_all
    · split
      · simp [current]
      · next hn =>
        obtain ⟨name, rest, hs⟩ := List.exists_cons_of_ne_nil hn
        rw [hs] at hp ⊢
        simpa using (hp name List.mem_cons_self).notEmpty

theorem foldl_enter_resolvePart {s : Location} (ha : absolute = true → s = []) :
    (resolvePart absolute names part).foldl enter s = enter (names.foldl enter s) part := by
  by_cases hp : part = above
  · subst hp
    induction names using List.reverseRecOn with
    | nil =>
      by_cases habs : absolute
      · simp [resolvePart, habs, ha habs, enter]
      · simp [resolvePart, habs]
    | append_singleton init last _ =>
      by_cases hlast : last = above
      · simp [resolvePart, hlast]
      · simp [resolvePart, hlast, enter]
  · rw [resolvePart_above hp, List.foldl_append, List.foldl_cons, List.foldl_nil]

/-- Making a path normal keeps where it leads. -/
theorem foldl_enter_foldl (given : List Name) {s : Location} (ha : absolute = true → s = []) :
    (given.foldl (resolvePart absolute) names).foldl enter s =
      given.foldl enter (names.foldl enter s) := by
  induction given generalizing names with
  | nil => rfl
  | cons part given ih =>
    rw [List.foldl_cons, List.foldl_cons, ih, foldl_enter_resolvePart ha]

theorem locate_normalize : locate cwd (normalize path) = locate cwd path := by
  rw [locate, parts_normalize, isAbsolute_normalize, normalParts,
    foldl_enter_foldl _ fun ha ↦ if_pos ha]
  rfl

theorem foldl_enter_of_not_above (h : above ∉ names) :
    names.foldl enter location = location ++ names := by
  induction names generalizing location with
  | nil => simp
  | cons name names ih =>
    rw [List.mem_cons, not_or] at h
    rw [List.foldl_cons, ih h.2, enter, if_neg (Ne.symm h.1), List.append_assoc,
      List.singleton_append]

theorem locate_join (ha : isAbsolute path = false) (h : above ∉ parts path) :
    locate cwd (join directory path) = locate cwd directory ++ parts path := by
  cases directory with
  | nil =>
    cases path with
    | nil =>
      rw [parts_nil, List.append_nil]
      rfl
    | cons c cs =>
      rw [join, locate_normalize, locate, ha, foldl_enter_of_not_above h]
      · simp [locate, isAbsolute]
      · simp
  | cons d ds =>
    cases path with
    | nil => simp [join, locate_normalize]
    | cons c cs =>
      have habs : isAbsolute (d :: ds ++ '/' :: c :: cs) = isAbsolute (d :: ds) := rfl
      rw [join, locate_normalize, locate, habs, parts_append, List.foldl_append,
        foldl_enter_of_not_above h]
      · rfl
      all_goals simp

theorem ofParts_concat (hn : names ≠ []) :
    ofParts (names ++ [name]) = ofParts names ++ '/' :: name := by
  induction names with
  | nil => exact absurd rfl hn
  | cons first rest ih =>
    cases rest with
    | nil => simp [ofParts]
    | cons second rest =>
      have ih := ih (by simp)
      simp only [ofParts, List.cons_append, List.intercalate_cons_cons] at ih ⊢
      rw [ih, ← List.append_assoc]

theorem ofParts_ne_nil (hn : names ≠ []) (h : ∀ name ∈ names, name ≠ []) : ofParts names ≠ [] := by
  cases names with
  | nil => exact absurd rfl hn
  | cons first rest =>
    have hfirst := h first List.mem_cons_self
    cases rest <;> simp [ofParts, hfirst]

theorem dropWhile_separator (h : '/' ∉ name) : name.dropWhile (· ≠ '/') = [] := by
  rw [List.dropWhile_eq_nil_iff]
  intro c hc
  have hne : c ≠ '/' := fun heq ↦ h (heq ▸ hc)
  simp [hne]

theorem dirname_name (h : '/' ∉ name) (hne : name ≠ []) : dirname name = current := by
  have hdrop : ((name.tail.reverse.dropWhile (· = '/')).dropWhile (· ≠ '/')) = [] := by
    apply dropWhile_separator
    intro hm
    have hm := (List.dropWhile_sublist _).mem hm
    exact h (List.mem_of_mem_tail (List.mem_reverse.mp hm))
  have ha : isAbsolute name = false := by
    cases name with
    | nil => exact absurd rfl hne
    | cons c cs =>
      have hc : c ≠ '/' := fun heq ↦ h (heq ▸ List.mem_cons_self)
      simp [isAbsolute, hc]
  rw [dirname, hdrop]
  simp [hne, ha]

theorem dirname_concat (hd : directory ≠ []) (ha : isAbsolute directory = false) (h : '/' ∉ name)
    (hne : name ≠ []) : dirname (directory ++ '/' :: name) = directory := by
  obtain ⟨d, ds, rfl⟩ := List.exists_cons_of_ne_nil hd
  obtain ⟨c, cs, hrev⟩ := List.exists_cons_of_ne_nil (mt List.reverse_eq_nil_iff.mp hne)
  have hc : ∀ x ∈ c :: cs, x ≠ '/' := by
    rw [← hrev]
    intro x hx heq
    exact h (heq ▸ List.mem_reverse.mp hx)
  have htail : (d :: ds ++ '/' :: name).tail.reverse = c :: cs ++ '/' :: ds.reverse := by
    simp [← hrev]
  have hfirst : (c :: cs ++ '/' :: ds.reverse).dropWhile (· = '/') = c :: cs ++ '/' :: ds.reverse :=
    List.dropWhile_cons_of_neg (by simp [hc c List.mem_cons_self])
  have hrest : (c :: cs ++ '/' :: ds.reverse).dropWhile (· ≠ '/') = '/' :: ds.reverse := by
    rw [List.dropWhile_append_of_pos fun x hx ↦ by simp [hc x hx]]
    simp
  have habs : isAbsolute (d :: ds ++ '/' :: name) = false := ha
  rw [dirname, htail, hfirst, hrest, habs]
  simp

theorem dirname_ofParts (h : ∀ name ∈ names, IsPart name) (hp : IsPart name) :
    dirname (ofParts (names ++ [name])) = if names = [] then current else ofParts names := by
  by_cases hn : names = []
  · rw [if_pos hn, hn, List.nil_append]
    exact (congrArg dirname (List.intercalate_singleton ..)).trans
      (dirname_name hp.noSeparator hp.notEmpty)
  · rw [if_neg hn, ofParts_concat hn]
    refine dirname_concat (ofParts_ne_nil hn fun name hm ↦ (h name hm).notEmpty)
      (isAbsolute_ofParts (fun name hm ↦ (h name hm).noSeparator) ?_) hp.noSeparator hp.notEmpty
    intro hhead
    exact (h [] (List.mem_of_mem_head? hhead)).notEmpty rfl

theorem ofParts_inj {names' : List Name} (h : ∀ name ∈ names, IsPart name)
    (h' : ∀ name ∈ names', IsPart name) : ofParts names = ofParts names' ↔ names = names' := by
  refine ⟨fun heq ↦ ?_, congrArg ofParts⟩
  rw [← parts_ofParts h, ← parts_ofParts h', heq]

end RustdeskConsole.Posix
