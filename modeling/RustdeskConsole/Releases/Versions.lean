import Mathlib.Data.List.Forall2
import Mathlib.Data.List.Lex
import Mathlib.Data.List.TakeWhile
import Mathlib.Order.Defs.Unbundled
import RustdeskConsole.Collections.Cutting
import RustdeskConsole.Collections.Numeral
import RustdeskConsole.Effects.Outcomes
import RustdeskConsole.Updater.Contracts

namespace RustdeskConsole.Releases

open Collections Effects.Guard Updater

def check (condition : Bool) (code message : String) : Except Failure Unit :=
  refuseIf (!condition) (.update code message)

def parts (version : String) : List (List Char) := version.toList.splitOn '.'

/-- `STABLE_VERSION`: three numerals without leading zeros, with dots between them. -/
def isStableVersion (version : String) : Bool :=
  (parts version).length = 3 && (parts version).all isNumeral

def numbers (version : String) : List ℕ := (parts version).map numeralValue

def compareParts : List ℕ → List ℕ → ℤ
  | m :: ms, n :: ns => if m ≠ n then (if m < n then -1 else 1) else compareParts ms ns
  | _, _ => 0

def compareVersions (left right : String) : Except Failure ℤ := do
  check (isStableVersion left && isStableVersion right) "UNKNOWN_VERSION"
    "Only stable semantic versions are supported."
  pure (compareParts (numbers left) (numbers right))

inductive Operator
  | atLeast
  | atMost
  | above
  | below
  | exactly
  deriving DecidableEq

def Operator.test : Operator → ℤ → Bool
  | .atLeast, value => value ≥ 0
  | .atMost, value => value ≤ 0
  | .above, value => value > 0
  | .below, value => value < 0
  | .exactly, value => value = 0

/-- `(>=|<=|>|<|=)?` before what is left of a term. -/
def splitOperator : List Char → Operator × List Char
  | '>' :: '=' :: cs => (.atLeast, cs)
  | '<' :: '=' :: cs => (.atMost, cs)
  | '>' :: cs => (.above, cs)
  | '<' :: cs => (.below, cs)
  | '=' :: cs => (.exactly, cs)
  | cs => (.exactly, cs)

structure Comparator where
  operator : Operator
  bound : String
  deriving DecidableEq

def parseTerm (term : List Char) : Option Comparator :=
  let (operator, version) := splitOperator term
  if isStableVersion (String.ofList version) then some ⟨operator, String.ofList version⟩ else none

/-- `range.trim().split(/\s+/)` -/
def terms (range : String) : List (List Char) :=
  let trimmed := trim range
  if trimmed = [] then [[]] else (trimmed.splitOnP isSpace).filter (· ≠ [])

def everyTerm (version : String) : List (List Char) → Except Failure Bool
  | [] => .ok true
  | term :: rest =>
    match parseTerm term with
    | none => .ok false
    | some comparator => do
      let value ← compareVersions version comparator.bound
      if comparator.operator.test value then everyTerm version rest else .ok false

def satisfies (version range : String) : Except Failure Bool := everyTerm version (terms range)

/-- The ranges that a manifest may have. -/
def acceptsRange (range : String) : Bool :=
  utf16Length range < 200 && (terms range).all fun term ↦ (parseTerm term).isSome

section Order

variable {v w : String} {ms ns : List ℕ}

theorem compareParts_lt (hl : ms.length = ns.length) : compareParts ms ns < 0 ↔ ms < ns := by
  induction ms generalizing ns with
  | nil =>
    cases ns with
    | nil => simp [compareParts]
    | cons n ns => cases hl
  | cons m ms ih =>
    cases ns with
    | nil => cases hl
    | cons n ns =>
      have ih := ih (Nat.succ.inj hl)
      rw [compareParts, List.cons_lt_cons_iff]
      by_cases hmn : m = n
      · simp [hmn, ih]
      · by_cases hlt : m < n
        · simp [hmn, hlt]
        · simp [hmn, hlt]

theorem compareParts_neg (hl : ms.length = ns.length) :
    compareParts ns ms = -compareParts ms ns := by
  induction ms generalizing ns with
  | nil =>
    cases ns with
    | nil => rfl
    | cons n ns => cases hl
  | cons m ms ih =>
    cases ns with
    | nil => cases hl
    | cons n ns =>
      rw [compareParts, compareParts, ih (Nat.succ.inj hl)]
      by_cases hmn : m = n
      · simp [hmn]
      · by_cases hlt : m < n
        · simp [hmn, Ne.symm hmn, hlt, Nat.lt_asymm hlt]
        · have hgt : n < m := by omega
          simp [hmn, Ne.symm hmn, hlt, hgt]

theorem compareParts_eq_zero (hl : ms.length = ns.length) :
    compareParts ms ns = 0 ↔ ms = ns := by
  have hlt := compareParts_lt hl
  have hgt := compareParts_lt hl.symm
  rw [compareParts_neg hl] at hgt
  constructor
  · intro hz
    exact le_antisymm (not_lt.mp fun h ↦ by have := hgt.mpr h; omega)
      (not_lt.mp fun h ↦ by have := hlt.mpr h; omega)
  · intro heq
    have h1 : ¬compareParts ms ns < 0 := fun h ↦ (lt_irrefl ns) (heq ▸ hlt.mp h)
    have h2 : ¬-compareParts ms ns < 0 := fun h ↦ (lt_irrefl ns) (heq ▸ hgt.mp h)
    omega

theorem stable_iff : isStableVersion v = true ↔
    (parts v).length = 3 ∧ ∀ part ∈ parts v, isNumeral part = true := by
  simp [isStableVersion]

theorem map_numeralValue_inj {xs ys : List (List Char)} (hx : ∀ x ∈ xs, isNumeral x = true)
    (hy : ∀ y ∈ ys, isNumeral y = true) (h : xs.map numeralValue = ys.map numeralValue) :
    xs = ys := by
  induction xs generalizing ys with
  | nil => exact (List.map_eq_nil_iff.mp h.symm).symm
  | cons x xs ih =>
    cases ys with
    | nil => cases h
    | cons y ys =>
      obtain ⟨hhead, htail⟩ := List.cons.inj h
      rw [numeralValue_inj (hx x (.head _)) (hy y (.head _)) hhead,
        ih (fun z hz ↦ hx z (.tail _ hz)) (fun z hz ↦ hy z (.tail _ hz)) htail]

/-- A stable version is known by its three numbers. -/
theorem numbers_inj (hv : isStableVersion v = true) (hw : isStableVersion w = true)
    (h : numbers v = numbers w) : v = w := by
  obtain ⟨-, hv⟩ := stable_iff.mp hv
  obtain ⟨-, hw⟩ := stable_iff.mp hw
  have hparts : parts v = parts w := map_numeralValue_inj hv hw h
  have hjoin := congrArg (List.intercalate ['.']) hparts
  rw [parts, parts, List.intercalate_splitOn, List.intercalate_splitOn] at hjoin
  exact String.toList_inj.mp hjoin

theorem numbers_length (hv : isStableVersion v = true) (hw : isStableVersion w = true) :
    (numbers v).length = (numbers w).length := by
  rw [numbers, numbers, List.length_map, List.length_map, (stable_iff.mp hv).1,
    (stable_iff.mp hw).1]

theorem compareVersions_eq (hv : isStableVersion v = true) (hw : isStableVersion w = true) :
    compareVersions v w = .ok (compareParts (numbers v) (numbers w)) := by
  rw [compareVersions, hv, hw]
  rfl

theorem stable_of_compared {k : ℤ} (h : compareVersions v w = .ok k) :
    isStableVersion v = true ∧ isStableVersion w = true := by
  obtain ⟨u, hu, -⟩ := bind_eq_ok.mp h
  have hstable := refuseIf_eq_ok.mp hu
  simpa using hstable

/-- The versions that can be compared. -/
abbrev StableVersion := { version : String // isStableVersion version = true }

def Lower (v w : StableVersion) : Prop := ∃ k, compareVersions v w = .ok k ∧ k < 0

theorem lower_iff {v w : StableVersion} : Lower v w ↔ numbers v < numbers w := by
  rw [Lower, compareVersions_eq v.2 w.2, ← compareParts_lt (numbers_length v.2 w.2)]
  simp

instance : IsStrictTotalOrder StableVersion Lower where
  irrefl v h := lt_irrefl _ (lower_iff.mp h)
  trans u v w huv hvw := lower_iff.mpr (lt_trans (lower_iff.mp huv) (lower_iff.mp hvw))
  trichotomous v w hvw hwv := by
    rw [lower_iff] at hvw hwv
    exact Subtype.ext (numbers_inj v.2 w.2 (le_antisymm (not_lt.mp hwv) (not_lt.mp hvw)))

/-- The comparison tells the order of the versions. -/
theorem compareVersions_spec (v w : StableVersion) : ∃ k, compareVersions v w = .ok k ∧
    (k < 0 ↔ Lower v w) ∧ (k = 0 ↔ v = w) ∧ (0 < k ↔ Lower w v) := by
  have hl := numbers_length v.2 w.2
  refine ⟨_, compareVersions_eq v.2 w.2, ?_, ?_, ?_⟩
  · rw [compareParts_lt hl, lower_iff]
  · rw [compareParts_eq_zero hl]
    exact ⟨fun h ↦ Subtype.ext (numbers_inj v.2 w.2 h), fun h ↦ h ▸ rfl⟩
  · rw [lower_iff, ← compareParts_lt hl.symm, compareParts_neg hl]
    omega

end Order

section Ranges

variable {v : StableVersion} {range : String} {comparator : Comparator}

/-- What a comparator says of a version. -/
def Operator.Holds (v bound : StableVersion) : Operator → Prop
  | .atLeast => v = bound ∨ Lower bound v
  | .atMost => v = bound ∨ Lower v bound
  | .above => Lower bound v
  | .below => Lower v bound
  | .exactly => v = bound

/-- The signs of an operator; equality may go without one. -/
def Operator.signs : Operator → List (List Char)
  | .atLeast => [['>', '=']]
  | .atMost => [['<', '=']]
  | .above => [['>']]
  | .below => [['<']]
  | .exactly => [['='], []]

/-- The term reads as the comparator: a sign of its operator before its version. -/
structure Comparator.Written (comparator : Comparator) (term : List Char) : Prop where
  stable : isStableVersion comparator.bound = true
  text : ∃ sign ∈ comparator.operator.signs, term = sign ++ comparator.bound.toList

/-- The comparators that stand in the text of a range, with white space between them. -/
def Says (range : String) (comparators : List Comparator) : Prop :=
  ∃ terms, Spaced isSpace range.toList terms ∧
    List.Forall₂ (fun comparator term ↦ comparator.Written term) comparators terms

theorem parseTerm_stable {term : List Char} (h : parseTerm term = some comparator) :
    isStableVersion comparator.bound = true := by
  rcases hs : splitOperator term with ⟨operator, version⟩
  rw [parseTerm, hs] at h
  dsimp only at h
  split at h
  · next hstable =>
    cases h
    exact hstable
  · cases h

theorem test_iff (operator : Operator) (v bound : StableVersion) {k : ℤ}
    (hk : compareVersions v bound = .ok k) :
    operator.test k = true ↔ operator.Holds v bound := by
  obtain ⟨k', hk', hneg, hzero, hpos⟩ := compareVersions_spec v bound
  obtain rfl : k = k' := Except.ok.inj (hk.symm.trans hk')
  cases operator with
  | atLeast =>
    rw [Operator.test, Operator.Holds, ← hzero, ← hpos]
    simp
    omega
  | atMost =>
    rw [Operator.test, Operator.Holds, ← hzero, ← hneg]
    simp
    omega
  | above =>
    rw [Operator.test, Operator.Holds, ← hpos]
    simp
  | below =>
    rw [Operator.test, Operator.Holds, ← hneg]
    simp
  | exactly =>
    rw [Operator.test, Operator.Holds, ← hzero]
    simp

/-- Whatever the terms are, they are all read, and the answer is whether they all hold. -/
theorem everyTerm_spec (v : StableVersion) {ts : List (List Char)}
    (h : ∀ term ∈ ts, (parseTerm term).isSome = true) : ∃ answer, everyTerm v ts = .ok answer ∧
      (answer = true ↔ ∀ comparator ∈ ts.filterMap parseTerm,
        ∃ bound : StableVersion, bound.val = comparator.bound ∧
          comparator.operator.Holds v bound) := by
  induction ts with
  | nil => exact ⟨true, rfl, by simp⟩
  | cons term ts ih =>
    obtain ⟨hterm, hts⟩ := List.forall_mem_cons.mp h
    obtain ⟨answer, hanswer, hiff⟩ := ih hts
    obtain ⟨comparator, hc⟩ := Option.isSome_iff_exists.mp hterm
    have hbound := parseTerm_stable hc
    obtain ⟨k, hk, -⟩ := compareVersions_spec v ⟨comparator.bound, hbound⟩
    have htest := test_iff comparator.operator v ⟨comparator.bound, hbound⟩ hk
    have hhead : (∃ bound : StableVersion, bound.val = comparator.bound ∧
        comparator.operator.Holds v bound) ↔ comparator.operator.test k = true := by
      rw [htest]
      constructor
      · intro ⟨bound, heq, hholds⟩
        obtain rfl : bound = ⟨comparator.bound, hbound⟩ := Subtype.ext heq
        exact hholds
      · exact fun hholds ↦ ⟨_, rfl, hholds⟩
    rw [everyTerm, hc, List.filterMap_cons_some hc]
    dsimp only
    rw [hk]
    by_cases ht : comparator.operator.test k = true
    · refine ⟨answer, ?_, ?_⟩
      · rw [← hanswer]
        exact if_pos ht
      · rw [List.forall_mem_cons, hhead, ← hiff]
        simp [ht]
    · refine ⟨false, if_neg ht, ?_⟩
      rw [List.forall_mem_cons, hhead]
      simp [ht]

theorem accepts_terms (h : acceptsRange range = true) :
    ∀ term ∈ terms range, (parseTerm term).isSome = true :=
  List.all_eq_true.mp (Bool.and_eq_true_iff.mp h).2

theorem terms_eq : terms range =
    if words isSpace range.toList = [] then [[]] else words isSpace range.toList := by
  have htrim : trim range = strip isSpace range.toList := rfl
  rw [← words_strip, terms, htrim]
  have hfilter : (fun term : List Char ↦ decide (term ≠ [])) = fun term ↦ !term.isEmpty := by
    funext term
    cases term <;> rfl
  by_cases hnil : strip isSpace range.toList = []
  · rw [if_pos hnil, hnil, if_pos]
    rfl
  · rw [if_neg hnil, if_neg (words_strip_ne_nil hnil), hfilter, words]

theorem digit_of_stable {version : String} (h : isStableVersion version = true) :
    ∃ c cs, version.toList = c :: cs ∧ c.isDigit = true := by
  obtain ⟨hlength, hnumerals⟩ := stable_iff.mp h
  cases htext : version.toList with
  | nil => simp [parts, htext] at hlength
  | cons c cs =>
    refine ⟨c, cs, rfl, ?_⟩
    rw [parts, htext, List.splitOn_cons_eq_if_modifyHead] at hnumerals
    split at hnumerals
    · simp [isNumeral] at hnumerals
    · obtain ⟨part, rest, hparts⟩ := List.exists_cons_of_ne_nil (List.splitOn_ne_nil '.' cs)
      rw [hparts, List.modifyHead_cons] at hnumerals
      have hfirst := hnumerals (c :: part) List.mem_cons_self
      rw [isNumeral] at hfirst
      split at hfirst
      · next hzero => rw [hzero]; rfl
      · exact (Bool.and_eq_true_iff.mp hfirst).1

theorem parseTerm_sign {term : List Char} {operator : Operator} {version : List Char}
    (hsplit : splitOperator term = (operator, version)) :
    parseTerm term = some comparator ↔
      comparator = ⟨operator, String.ofList version⟩ ∧ isStableVersion comparator.bound = true := by
  rw [parseTerm, hsplit]
  dsimp only
  split
  · next hstable =>
    rw [Option.some.injEq]
    exact ⟨fun h ↦ h ▸ ⟨rfl, hstable⟩, fun h ↦ h.1.symm⟩
  · next hstable =>
    refine iff_of_false (by simp) ?_
    rintro ⟨rfl, h⟩
    exact hstable h

/-- What is written has its sign taken off, as no version starts like one. -/
theorem splitOperator_append {operator : Operator} {sign : List Char} {version : String}
    (hsign : sign ∈ operator.signs) (h : isStableVersion version = true) :
    splitOperator (sign ++ version.toList) = (operator, version.toList) := by
  obtain ⟨c, cs, htext, hdigit⟩ := digit_of_stable h
  have hc : c ≠ '=' ∧ c ≠ '>' ∧ c ≠ '<' := by
    refine ⟨?_, ?_, ?_⟩ <;> rintro rfl <;> cases hdigit
  rw [htext]
  cases operator <;> simp only [Operator.signs, List.mem_cons, List.not_mem_nil, or_false] at hsign
  case exactly =>
    rcases hsign with rfl | rfl
    · rfl
    · simp [splitOperator, hc]
  all_goals
    subst hsign
    simp [splitOperator, hc]

theorem splitOperator_eq {term version : List Char} {operator : Operator}
    (h : splitOperator term = (operator, version)) :
    ∃ sign ∈ operator.signs, term = sign ++ version := by
  unfold splitOperator at h
  split at h <;> cases h
  · exact ⟨_, List.mem_singleton.mpr rfl, rfl⟩
  · exact ⟨_, List.mem_singleton.mpr rfl, rfl⟩
  · exact ⟨_, List.mem_singleton.mpr rfl, rfl⟩
  · exact ⟨_, List.mem_singleton.mpr rfl, rfl⟩
  · exact ⟨_, List.mem_cons_self, rfl⟩
  · exact ⟨[], List.mem_cons_of_mem _ List.mem_cons_self, rfl⟩

theorem parseTerm_eq_some {term : List Char} :
    parseTerm term = some comparator ↔ comparator.Written term := by
  constructor
  · intro h
    rcases hsplit : splitOperator term with ⟨operator, version⟩
    obtain ⟨rfl, hstable⟩ := (parseTerm_sign hsplit).mp h
    obtain ⟨sign, hsign, rfl⟩ := splitOperator_eq hsplit
    exact ⟨hstable, sign, hsign, by rw [String.toList_ofList]⟩
  · rintro ⟨hstable, sign, hsign, rfl⟩
    rw [parseTerm_sign (splitOperator_append hsign hstable), String.ofList_toList]
    exact ⟨rfl, hstable⟩

/-- The comparators of a range are what its terms are parsed to, one from each. -/
theorem says_iff (h : acceptsRange range = true) {comparators : List Comparator} :
    Says range comparators ↔ comparators = (terms range).filterMap parseTerm := by
  have hterms := accepts_terms h
  have hwords : words isSpace range.toList = terms range := by
    rw [terms_eq]
    split
    · next hnil =>
      rw [terms_eq, if_pos hnil] at hterms
      exact absurd (hterms [] List.mem_cons_self) (by decide)
    · rfl
  simp only [Says, spaced_iff, hwords, exists_eq_left', ← parseTerm_eq_some]
  generalize terms range = ts at hterms
  induction ts generalizing comparators with
  | nil => simp
  | cons term ts ih =>
    obtain ⟨hterm, hts⟩ := List.forall_mem_cons.mp hterms
    obtain ⟨comparator, hc⟩ := Option.isSome_iff_exists.mp hterm
    rw [List.filterMap_cons_some hc, List.forall₂_cons_right_iff]
    constructor
    · rintro ⟨first, rest, hfirst, hrest, rfl⟩
      rw [(ih hts).mp hrest, Option.some.inj (hc.symm.trans hfirst)]
    · rintro rfl
      exact ⟨comparator, _, hc, (ih hts).mpr rfl, rfl⟩

end Ranges

end RustdeskConsole.Releases
