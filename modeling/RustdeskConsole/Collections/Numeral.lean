import Mathlib.Algebra.Ring.Nat
import Mathlib.Data.List.Induction
import Mathlib.Data.Nat.Digits.Defs

namespace RustdeskConsole.Collections

/-- The white space of `\s` and of `trim`. -/
def isSpace (c : Char) : Bool :=
  [0x09, 0x0A, 0x0B, 0x0C, 0x0D, 0x20, 0xA0, 0x1680, 0x2028, 0x2029, 0x202F, 0x205F, 0x3000,
    0xFEFF].contains c.toNat || (0x2000 ≤ c.toNat && c.toNat ≤ 0x200A)

def trim (s : String) : List Char :=
  ((s.toList.dropWhile isSpace).reverse.dropWhile isSpace).reverse

def utf16Length (s : String) : ℕ :=
  (s.toList.map fun c ↦ if c.toNat < 0x10000 then 1 else 2).sum

/-- `substring(0, n)`. The first half of a pair is stored as a replacement character. -/
def utf16Take : ℕ → List Char → List Char
  | 0, _ => []
  | _, [] => []
  | 1, c :: _ => if c.toNat < 0x10000 then [c] else [Char.ofNat 0xFFFD]
  | n + 2, c :: cs =>
    c :: if c.toNat < 0x10000 then utf16Take (n + 1) cs else utf16Take n cs

/-- A decimal numeral without leading zeros. -/
def isNumeral : List Char → Bool
  | [] => false
  | c :: cs => if c = '0' then cs.isEmpty else c.isDigit && cs.all Char.isDigit

def numeralValue (cs : List Char) : ℕ := Nat.ofDigitChars 10 cs 0

def digitValue (c : Char) : ℕ := c.toNat - 48

variable {a b cs : List Char} {c : Char}

theorem digitValue_bounds (hc : c.isDigit = true) : 48 ≤ c.toNat ∧ c.toNat ≤ 57 := by
  simpa [Char.isDigit, UInt32.le_iff_toNat_le] using hc

theorem ofNat_digitValue (hc : c.isDigit = true) : Char.ofNat (digitValue c + 48) = c := by
  have hbounds := digitValue_bounds hc
  have hsum : digitValue c + 48 = c.toNat := by
    rw [digitValue]
    omega
  rw [hsum, Char.ofNat_toNat]

theorem digitValue_ne_zero (hc : c.isDigit = true) (h0 : c ≠ '0') : digitValue c ≠ 0 := by
  intro hz
  have hchar := ofNat_digitValue hc
  rw [hz] at hchar
  exact h0 hchar.symm

theorem numeralValue_eq : numeralValue cs = Nat.ofDigits 10 (cs.reverse.map digitValue) := by
  induction cs using List.reverseRecOn with
  | nil => rfl
  | append_singleton cs c ih =>
    rw [numeralValue] at ih ⊢
    rw [Nat.ofDigitChars_append, Nat.ofDigitChars_cons, Nat.ofDigitChars_nil, ih,
      List.reverse_append, List.reverse_singleton, List.singleton_append, List.map_cons,
      Nat.ofDigits_cons]
    simp only [digitValue, Char.reduceToNat]
    omega

theorem isNumeral_cases (h : isNumeral cs = true) :
    cs = ['0'] ∨ (∀ c ∈ cs, c.isDigit = true) ∧ ∃ c rest, cs = c :: rest ∧ c ≠ '0' := by
  cases cs with
  | nil => cases h
  | cons c rest =>
    rw [isNumeral] at h
    split at h
    · next hc => exact .inl (by rw [hc, List.isEmpty_iff.mp h])
    · next hc =>
      obtain ⟨hd, hall⟩ := Bool.and_eq_true_iff.mp h
      exact .inr ⟨List.forall_mem_cons.mpr ⟨hd, List.all_eq_true.mp hall⟩, c, rest, rfl, hc⟩

/-- A numeral that does not start with zero has the digits of its value. -/
theorem digits_numeralValue (hd : ∀ c ∈ cs, c.isDigit = true)
    (h0 : ∃ c rest, cs = c :: rest ∧ c ≠ '0') :
    Nat.digits 10 (numeralValue cs) = cs.reverse.map digitValue := by
  obtain ⟨c, rest, rfl, hc⟩ := h0
  rw [numeralValue_eq]
  refine Nat.digits_ofDigits 10 (by omega) _ (fun n hn ↦ ?_) fun hne ↦ ?_
  · obtain ⟨d, hm, rfl⟩ := List.mem_map.mp hn
    have hbounds := digitValue_bounds (hd d (List.mem_reverse.mp hm))
    rw [digitValue]
    omega
  · have hlast : ((c :: rest).reverse.map digitValue).getLast hne = digitValue c := by
      simp
    rw [hlast]
    exact digitValue_ne_zero (hd c (.head _)) hc

theorem reverse_digits (hd : ∀ c ∈ cs, c.isDigit = true)
    (h0 : ∃ c rest, cs = c :: rest ∧ c ≠ '0') :
    ((Nat.digits 10 (numeralValue cs)).map fun n ↦ Char.ofNat (n + 48)).reverse = cs := by
  rw [digits_numeralValue hd h0, List.map_map, ← List.map_reverse, List.reverse_reverse]
  refine (List.map_congr_left fun c hc ↦ ?_).trans (List.map_id cs)
  exact ofNat_digitValue (hd c hc)

theorem numeralValue_pos (hd : ∀ c ∈ cs, c.isDigit = true)
    (h0 : ∃ c rest, cs = c :: rest ∧ c ≠ '0') : numeralValue cs ≠ 0 := by
  intro hz
  have hcs := reverse_digits hd h0
  obtain ⟨c, rest, rfl, -⟩ := h0
  rw [hz] at hcs
  simp at hcs

/-- Two numerals of the same value are the same. -/
theorem numeralValue_inj (ha : isNumeral a = true) (hb : isNumeral b = true)
    (h : numeralValue a = numeralValue b) : a = b := by
  have hzero : numeralValue ['0'] = 0 := rfl
  rcases isNumeral_cases ha with rfl | ⟨hda, h0a⟩
  · rcases isNumeral_cases hb with rfl | ⟨hdb, h0b⟩
    · rfl
    · exact absurd (h.symm.trans hzero) (numeralValue_pos hdb h0b)
  · rcases isNumeral_cases hb with rfl | ⟨hdb, h0b⟩
    · exact absurd (h.trans hzero) (numeralValue_pos hda h0a)
    · rw [← reverse_digits hda h0a, ← reverse_digits hdb h0b, h]

end RustdeskConsole.Collections
