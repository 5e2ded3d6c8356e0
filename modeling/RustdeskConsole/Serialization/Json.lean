import RustdeskConsole.Collections.Numeral
import RustdeskConsole.Collections.OrderedMap
import Mathlib.Data.List.TakeWhile

namespace RustdeskConsole.Serialization

open Collections

abbrev Text := List Char

/-- The digits of an exponent and its sign, or nothing. -/
def isExponent (text : Text) : Bool :=
  match text with
  | [] => true
  | c :: rest =>
    let digits := if rest.head? = some '+' ∨ rest.head? = some '-' then rest.tail else rest
    (c = 'e' || c = 'E') && digits ≠ [] && digits.all Char.isDigit

/-- What may follow the whole part of a number. -/
def isFraction (text : Text) : Bool :=
  match text with
  | '.' :: rest => rest.takeWhile Char.isDigit ≠ [] && isExponent (rest.dropWhile Char.isDigit)
  | text => isExponent text

def isNumber (text : Text) : Bool :=
  let body := if text.head? = some '-' then text.tail else text
  isNumeral (body.takeWhile Char.isDigit) && isFraction (body.dropWhile Char.isDigit)

def readExponent (text : Text) : ℤ :=
  match text with
  | [] => 0
  | _ :: rest =>
    if rest.head? = some '-' then -numeralValue rest.tail
    else if rest.head? = some '+' then numeralValue rest.tail
    else numeralValue rest

structure Decimal where
  mantissa : ℤ
  exponent : ℤ

def decimal (text : Text) : Decimal :=
  let body := if text.head? = some '-' then text.tail else text
  let rest := body.dropWhile Char.isDigit
  let fraction := if rest.head? = some '.' then rest.tail.takeWhile Char.isDigit else []
  let exponent := if rest.head? = some '.' then rest.tail.dropWhile Char.isDigit else rest
  { mantissa := (if text.head? = some '-' then -1 else 1) *
      numeralValue (body.takeWhile Char.isDigit ++ fraction)
    exponent := readExponent exponent - fraction.length }

def Decimal.integer? (d : Decimal) : Option ℤ :=
  let power : ℤ := 10 ^ d.exponent.natAbs
  if 0 ≤ d.exponent then some (d.mantissa * power)
  else if d.mantissa % power = 0 then some (d.mantissa / power)
  else none

/-- What JSON has a text for. A number that is no integer is known by its text. No
number is rounded, as `JSON.parse` does where 53 bits do not hold it. -/
inductive Value
  | null
  | bool (b : Bool)
  | integer (n : ℤ)
  | fraction (text : Text)
  | string (text : Text)
  | array (elements : List Value)
  | object (members : List (Text × Value))

def Value.isNull : Value → Bool
  | .null => true
  | _ => false

/-- A property of an object. -/
def Value.get? (value : Value) (name : String) : Option Value :=
  match value with
  | .object members => members.lookup name.toList
  | _ => none

/-- The characters that have an escape of one letter. -/
def escapes : List (Char × Char) :=
  [('"', '"'), ('\\', '\\'), ('\x08', 'b'), ('\x0c', 'f'), ('\n', 'n'), ('\r', 'r'), ('\t', 't')]

def escape (c : Char) : Text :=
  match escapes.lookup c with
  | some letter => ['\\', letter]
  | none =>
    if c.toNat < 0x20 then
      ['\\', 'u', '0', '0', Nat.digitChar (c.toNat / 16), Nat.digitChar (c.toNat % 16)]
    else [c]

def quote (text : Text) : Text := '"' :: text.flatMap escape ++ ['"']

def digits (n : ℤ) : Text :=
  if n < 0 then '-' :: Nat.toDigits 10 n.natAbs else Nat.toDigits 10 n.natAbs

mutual

def stringify : Value → Text
  | .null => "null".toList
  | .bool b => (if b then "true" else "false").toList
  | .integer n => digits n
  | .fraction text => text
  | .string text => quote text
  | .array elements => '[' :: (stringifyElements elements ++ [']'])
  | .object members => '\x7b' :: (stringifyMembers members ++ ['\x7d'])

def stringifyElements : List Value → Text
  | [] => []
  | [element] => stringify element
  | element :: rest => stringify element ++ ',' :: stringifyElements rest

def stringifyMembers : List (Text × Value) → Text
  | [] => []
  | [(key, value)] => quote key ++ ':' :: stringify value
  | (key, value) :: rest => quote key ++ ':' :: (stringify value ++ ',' :: stringifyMembers rest)

end

def isBlank (c : Char) : Bool := c = ' ' || c = '\t' || c = '\n' || c = '\r'

def skip (text : Text) : Text := text.dropWhile isBlank

def hexValue (c : Char) : Option ℕ :=
  if c.isDigit then some (c.toNat - 48)
  else if 'a' ≤ c ∧ c ≤ 'f' then some (c.toNat - 87)
  else if 'A' ≤ c ∧ c ≤ 'F' then some (c.toNat - 55)
  else none

def readUnit (text : Text) : Option (ℕ × Text) :=
  match text with
  | a :: b :: c :: d :: rest => do
    let unit := (((← hexValue a) * 16 + (← hexValue b)) * 16 + (← hexValue c)) * 16 + (← hexValue d)
    some (unit, rest)
  | _ => none

/-- The unit that completes a pair. -/
def readLow (high : ℕ) (text : Text) : Option (Char × Text) :=
  match text with
  | '\\' :: 'u' :: rest => do
    let (low, rest) ← readUnit rest
    if 0xdc00 ≤ low ∧ low < 0xe000 then
      some (Char.ofNat (0x10000 + (high - 0xd800) * 0x400 + (low - 0xdc00)), rest)
    else none
  | _ => none

def unescape (letter : Char) : Option Char :=
  if letter = '/' then some '/' else (escapes.find? (·.2 = letter)).map Prod.fst

/-- What follows a backslash. -/
def readEscape (text : Text) : Option (Char × Text) :=
  match text with
  | [] => none
  | letter :: rest =>
    if letter = 'u' then do
      let (unit, rest) ← readUnit rest
      if 0xd800 ≤ unit ∧ unit < 0xdc00 then readLow unit rest
      else if 0xdc00 ≤ unit ∧ unit < 0xe000 then none
      else some (Char.ofNat unit, rest)
    else (unescape letter).map (·, rest)

/-- A string from behind its first quotation mark. -/
def readString : ℕ → Text → Option (Text × Text)
  | 0, _ => none
  | _ + 1, [] => none
  | fuel + 1, c :: rest =>
    if c = '"' then some ([], rest)
    else if c = '\\' then do
      let (c, rest) ← readEscape rest
      let (text, rest) ← readString fuel rest
      some (c :: text, rest)
    else if c.toNat < 0x20 then none
    else do
      let (text, rest) ← readString fuel rest
      some (c :: text, rest)

def isWord (c : Char) : Bool := c.isAlphanum || c = '-' || c = '+' || c = '.'

def number (word : Text) : Value :=
  match (decimal word).integer? with
  | some n => .integer n
  | none => .fraction word

def literal (word : Text) : Option Value :=
  if word = "null".toList then some .null
  else if word = "true".toList then some (.bool true)
  else if word = "false".toList then some (.bool false)
  else if isNumber word then some (number word)
  else none

def readKey (text : Text) : Option (Text × Text) :=
  match skip text with
  | '"' :: rest => do
    let (key, rest) ← readString rest.length rest
    match skip rest with
    | ':' :: rest => some (key, rest)
    | _ => none
  | _ => none

/-- The members of an object. Of several that have one name the last one counts. -/
def assemble (members : List (Text × Value)) : List (Text × Value) :=
  members.foldl (fun entries member ↦ setEntry member.1 member.2 entries) []

mutual

/-- The value that a text starts with. Every turn takes a character at least. -/
def readValue : ℕ → Text → Option (Value × Text)
  | 0, _ => none
  | fuel + 1, text =>
    match skip text with
    | [] => none
    | c :: rest =>
      if c = '"' then (readString rest.length rest).map fun (text, rest) ↦ (.string text, rest)
      else if c = '[' then
        if (skip rest).head? = some ']' then some (.array [], (skip rest).tail)
        else (readElements fuel rest).map fun (elements, rest) ↦ (.array elements, rest)
      else if c = '\x7b' then
        if (skip rest).head? = some '\x7d' then some (.object [], (skip rest).tail)
        else (readMembers fuel rest).map fun (members, rest) ↦ (.object (assemble members), rest)
      else (literal ((c :: rest).takeWhile isWord)).map (·, (c :: rest).dropWhile isWord)

def readElements : ℕ → Text → Option (List Value × Text)
  | 0, _ => none
  | fuel + 1, text => do
    let (element, rest) ← readValue fuel text
    match skip rest with
    | [] => none
    | c :: rest =>
      if c = ']' then some ([element], rest)
      else if c = ',' then do
        let (elements, rest) ← readElements fuel rest
        some (element :: elements, rest)
      else none

def readMembers : ℕ → Text → Option (List (Text × Value) × Text)
  | 0, _ => none
  | fuel + 1, text => do
    let (key, rest) ← readKey text
    let (value, rest) ← readValue fuel rest
    match skip rest with
    | [] => none
    | c :: rest =>
      if c = '\x7d' then some ([(key, value)], rest)
      else if c = ',' then do
        let (members, rest) ← readMembers fuel rest
        some ((key, value) :: members, rest)
      else none

end

def parse (text : Text) : Option Value := do
  let (value, rest) ← readValue (text.length + 1) text
  if skip rest = [] then some value else none

mutual

/-- No name is twice in an object, and no integer is written as a fraction. -/
def Value.WellFormed : Value → Prop
  | .fraction text => isNumber text = true ∧ (decimal text).integer? = none
  | .array elements => ElementsWellFormed elements
  | .object members => (members.map Prod.fst).Nodup ∧ MembersWellFormed members
  | _ => True

def ElementsWellFormed : List Value → Prop
  | [] => True
  | element :: rest => element.WellFormed ∧ ElementsWellFormed rest

def MembersWellFormed : List (Text × Value) → Prop
  | [] => True
  | (_, value) :: rest => value.WellFormed ∧ MembersWellFormed rest

end

variable {text rest : Text} {c : Char} {fuel n : ℕ} {value : Value} {elements : List Value}
  {members : List (Text × Value)}

theorem hexValue_digitChar : ∀ n < 16, hexValue (Nat.digitChar n) = some n := by decide

theorem unescape_escapes : ∀ e ∈ escapes, unescape e.2 = some e.1 ∧ e.2 ≠ 'u' := by decide

theorem readUnit_control (rest : Text) (h : c.toNat < 0x20) :
    readUnit ('0' :: '0' :: Nat.digitChar (c.toNat / 16) :: Nat.digitChar (c.toNat % 16) :: rest) =
      some (c.toNat, rest) := by
  have hzero : hexValue '0' = some 0 := rfl
  have hlow : c.toNat / 16 * 16 + c.toNat % 16 = c.toNat := Nat.div_add_mod' ..
  simp only [readUnit, hzero, hexValue_digitChar _ (show c.toNat / 16 < 16 by omega),
    hexValue_digitChar _ (Nat.mod_lt c.toNat (by omega : 16 > 0)), Option.bind_eq_bind,
    Option.bind_some, Nat.zero_mul, Nat.zero_add, hlow]

theorem mem_escapes {letter : Char} (h : escapes.lookup c = some letter) :
    (c, letter) ∈ escapes := by
  obtain ⟨before, after, heq, -⟩ := List.lookup_eq_some_iff.mp h
  rw [heq]
  exact List.mem_append_right _ List.mem_cons_self

theorem plain_of_lookup (h : escapes.lookup c = none) : c ≠ '"' ∧ c ≠ '\\' := by
  have hout := List.lookup_eq_none_iff.mp h
  exact ⟨by simpa using hout ('"', '"') (by simp [escapes]),
    by simpa using hout ('\\', '\\') (by simp [escapes])⟩

theorem readEscape_escape (h : escape c = '\\' :: text) :
    readEscape (text ++ rest) = some (c, rest) := by
  unfold escape at h
  split at h
  · next letter hl =>
    obtain ⟨hun, hu⟩ := unescape_escapes _ (mem_escapes hl)
    obtain rfl := (List.cons.inj h).2
    rw [List.singleton_append, readEscape, if_neg hu, hun]
    rfl
  · next hl =>
    split at h
    · next hc =>
      obtain rfl := (List.cons.inj h).2
      have hunit := readUnit_control rest hc
      simp only [List.cons_append, List.nil_append, readEscape, if_true, hunit,
        Option.bind_eq_bind, Option.bind_some]
      rw [if_neg (by omega), if_neg (by omega), Char.ofNat_toNat]
    · exact absurd (List.cons.inj h).1 (plain_of_lookup hl).2

theorem escape_cases : (∃ text, escape c = '\\' :: text) ∨
    escape c = [c] ∧ c ≠ '"' ∧ c ≠ '\\' ∧ ¬c.toNat < 0x20 := by
  unfold escape
  split
  · exact .inl ⟨_, rfl⟩
  · next hl =>
    split
    · exact .inl ⟨_, rfl⟩
    · next hc => exact .inr ⟨rfl, (plain_of_lookup hl).1, (plain_of_lookup hl).2, hc⟩

theorem readString_escape : readString (fuel + 1) (escape c ++ rest) =
    (readString fuel rest).map fun found ↦ (c :: found.1, found.2) := by
  rcases escape_cases (c := c) with ⟨text, htext⟩ | ⟨hc, hquote, hslash, hcontrol⟩
  · rw [htext, List.cons_append, readString, if_neg (by decide), if_pos rfl,
      readEscape_escape htext]
    change (readString fuel rest).bind (fun found ↦ some (c :: found.1, found.2)) = _
    cases readString fuel rest <;> rfl
  · rw [hc, List.singleton_append, readString, if_neg hquote, if_neg hslash, if_neg hcontrol]
    change (readString fuel rest).bind (fun found ↦ some (c :: found.1, found.2)) = _
    cases readString fuel rest <;> rfl

theorem readString_quoted (h : text.length < fuel) :
    readString fuel (text.flatMap escape ++ '"' :: rest) = some (text, rest) := by
  induction text generalizing fuel with
  | nil =>
    obtain ⟨fuel, rfl⟩ := Nat.exists_eq_add_of_lt h
    rfl
  | cons c text ih =>
    obtain ⟨fuel, rfl⟩ := Nat.exists_eq_add_of_lt (Nat.zero_lt_of_lt h)
    rw [List.length_cons] at h
    rw [List.flatMap_cons, List.append_assoc, Nat.zero_add, readString_escape, ih (by omega)]
    rfl

theorem length_le_escaped (text : Text) : text.length ≤ (text.flatMap escape).length := by
  induction text with
  | nil => exact Nat.le_refl 0
  | cons c text ih =>
    have hc : 1 ≤ (escape c).length := by
      rcases escape_cases (c := c) with ⟨text, htext⟩ | ⟨hc, -⟩
      · simp [htext]
      · simp [hc]
    rw [List.flatMap_cons, List.length_append, List.length_cons]
    omega

/-- What follows a quotation mark is read up to the next one. -/
theorem readString_quote :
    readString (text.flatMap escape ++ '"' :: rest).length (text.flatMap escape ++ '"' :: rest) =
      some (text, rest) := by
  refine readString_quoted ?_
  have hlength := length_le_escaped text
  rw [List.length_append, List.length_cons]
  omega

theorem isNumeral_concat (h : isNumeral text = true) (h0 : text ≠ ['0']) (hc : c.isDigit = true) :
    isNumeral (text ++ [c]) = true := by
  cases text with
  | nil => cases h
  | cons first text =>
    rw [isNumeral] at h
    rw [List.cons_append, isNumeral]
    split at h
    · next hfirst =>
      rw [hfirst, List.isEmpty_iff.mp h] at h0
      exact absurd rfl h0
    · next hfirst =>
      rw [if_neg hfirst]
      simpa [hc] using h

theorem isNumeral_toDigits : isNumeral (Nat.toDigits 10 n) = true := by
  induction n using Nat.strong_induction_on with
  | h n ih =>
    by_cases hn : n < 10
    · rw [Nat.toDigits_of_lt_base hn, isNumeral]
      split
      · rfl
      · simpa using hn
    · rw [Nat.toDigits_of_base_le (by omega) (by omega)]
      refine isNumeral_concat (ih _ (by omega)) (fun hzero ↦ ?_) ?_
      · have hvalue := Nat.ofDigitChars_ten_toDigits (n := n / 10)
        rw [hzero] at hvalue
        have hz : Nat.ofDigitChars 10 ['0'] 0 = 0 := rfl
        omega
      · simpa using Nat.mod_lt n (by omega)

theorem all_toDigits : ∀ c ∈ Nat.toDigits 10 n, c.isDigit = true :=
  fun _ hc ↦ Nat.isDigit_of_mem_toDigits (by omega) (by omega) hc

theorem takeWhile_toDigits : (Nat.toDigits 10 n).takeWhile Char.isDigit = Nat.toDigits 10 n :=
  List.takeWhile_eq_self_iff.mpr all_toDigits

theorem dropWhile_toDigits : (Nat.toDigits 10 n).dropWhile Char.isDigit = [] :=
  List.dropWhile_eq_nil_iff.mpr all_toDigits

theorem head?_toDigits : (Nat.toDigits 10 n).head? ≠ some '-' := by
  intro h
  have hc := all_toDigits _ (List.mem_of_mem_head? h)
  cases hc

theorem isNumber_digits (n : ℤ) : isNumber (digits n) = true := by
  unfold digits
  split
  · simp only [isNumber, List.head?_cons, if_true, List.tail_cons, takeWhile_toDigits,
      dropWhile_toDigits, isNumeral_toDigits]
    rfl
  · simp only [isNumber, if_neg head?_toDigits, takeWhile_toDigits, dropWhile_toDigits,
      isNumeral_toDigits]
    rfl

theorem integer?_decimal (n : ℤ) : (decimal (digits n)).integer? = some n := by
  have hvalue := Nat.ofDigitChars_ten_toDigits (n := n.natAbs)
  unfold digits
  split
  · simp only [decimal, List.head?_cons, if_true, List.tail_cons, takeWhile_toDigits,
      dropWhile_toDigits, List.head?_nil, reduceCtorEq, if_false, List.append_nil, numeralValue,
      hvalue, Decimal.integer?, readExponent, List.length_nil, Int.natCast_zero, Int.sub_zero]
    simp [-Nat.cast_natAbs]
    omega
  · simp only [decimal, if_neg head?_toDigits, takeWhile_toDigits,
      dropWhile_toDigits, List.head?_nil, reduceCtorEq, if_false, List.append_nil, numeralValue,
      hvalue, Decimal.integer?, readExponent, List.length_nil, Int.natCast_zero, Int.sub_zero]
    simp [-Nat.cast_natAbs]
    omega

theorem isWord_of_isDigit (h : c.isDigit = true) : isWord c = true := by
  simp [isWord, Char.isAlphanum, h]

theorem isWord_of_tail {rest : Text} (hrest : ∀ c ∈ rest.tail, isWord c = true)
    (hhead : ∀ c ∈ rest.head?, isWord c = true) : ∀ c ∈ rest, isWord c = true := by
  cases rest with
  | nil => simp
  | cons c rest => exact List.forall_mem_cons.mpr ⟨hhead c rfl, hrest⟩

theorem isWord_of_isExponent (h : isExponent text = true) : ∀ c ∈ text, isWord c = true := by
  cases text with
  | nil => simp
  | cons c rest =>
    simp only [isExponent, Bool.and_eq_true, Bool.or_eq_true, decide_eq_true_eq] at h
    obtain ⟨⟨hc, -⟩, hdigits⟩ := h
    refine List.forall_mem_cons.mpr ⟨by rcases hc with rfl | rfl <;> rfl, ?_⟩
    have hall : ∀ digits : Text, digits.all Char.isDigit = true → ∀ c ∈ digits, isWord c = true :=
      fun digits h c hc ↦ isWord_of_isDigit (List.all_eq_true.mp h c hc)
    split at hdigits
    · next hsign =>
      refine isWord_of_tail (hall _ hdigits) fun c hc ↦ ?_
      rw [Option.mem_def] at hc
      rw [hc, Option.some.injEq, Option.some.injEq] at hsign
      rcases hsign with rfl | rfl <;> rfl
    · exact hall _ hdigits

theorem isWord_of_isFraction (h : isFraction text = true) : ∀ c ∈ text, isWord c = true := by
  unfold isFraction at h
  split at h
  · next rest =>
    refine List.forall_mem_cons.mpr ⟨rfl, fun c hc ↦ ?_⟩
    rw [← List.takeWhile_append_dropWhile (p := Char.isDigit) (l := rest), List.mem_append] at hc
    rcases hc with hc | hc
    · exact isWord_of_isDigit (List.mem_takeWhile_imp hc)
    · exact isWord_of_isExponent (Bool.and_eq_true_iff.mp h).2 c hc
  · exact isWord_of_isExponent h

theorem isWord_of_isNumber (h : isNumber text = true) : ∀ c ∈ text, isWord c = true := by
  have hbody : ∀ body : Text, isFraction (body.dropWhile Char.isDigit) = true →
      ∀ c ∈ body, isWord c = true := by
    intro body hrest c hc
    rw [← List.takeWhile_append_dropWhile (p := Char.isDigit) (l := body), List.mem_append] at hc
    rcases hc with hc | hc
    · exact isWord_of_isDigit (List.mem_takeWhile_imp hc)
    · exact isWord_of_isFraction hrest c hc
  have hrest := (Bool.and_eq_true_iff.mp h).2
  split at hrest
  · next hsign =>
    refine isWord_of_tail (hbody _ hrest) fun c hc ↦ ?_
    rw [Option.mem_def, hsign] at hc
    obtain rfl := Option.some.inj hc
    rfl
  · exact hbody _ hrest

theorem isNumber_ne (h : isNumber text = true) :
    text ≠ "null".toList ∧ text ≠ "true".toList ∧ text ≠ "false".toList := by
  refine ⟨?_, ?_, ?_⟩ <;> rintro rfl <;> cases h

/-- A value without parts is one word. -/
structure IsLiteral (word : Text) (value : Value) : Prop where
  literal : literal word = some value
  words : ∀ c ∈ word, isWord c = true
  some : word ≠ []

theorem isLiteral_number (h : isNumber text = true) : IsLiteral text (number text) where
  literal := by
    obtain ⟨hnull, htrue, hfalse⟩ := isNumber_ne h
    rw [Serialization.literal, if_neg hnull, if_neg htrue, if_neg hfalse, if_pos h]
  words := isWord_of_isNumber h
  some := by
    rintro rfl
    cases h

theorem isLiteral_integer (n : ℤ) : IsLiteral (digits n) (.integer n) := by
  have h := isLiteral_number (isNumber_digits n)
  rwa [number, integer?_decimal] at h

theorem isLiteral_fraction (h : (Value.fraction text).WellFormed) :
    IsLiteral text (.fraction text) := by
  have hliteral := isLiteral_number h.1
  rwa [number, h.2] at hliteral

theorem isLiteral_null : IsLiteral "null".toList .null where
  literal := rfl
  words := by
    rw [← List.all_eq_true]
    rfl
  some := List.cons_ne_nil _ _

theorem isLiteral_bool (b : Bool) : IsLiteral (stringify (.bool b)) (.bool b) where
  literal := by cases b <;> rfl
  words := by
    rw [← List.all_eq_true]
    cases b <;> rfl
  some := by cases b <;> exact List.cons_ne_nil _ _

/-- What may stand behind a value. -/
def Stops (rest : Text) : Prop := ∀ c ∈ rest.head?, isWord c = false

theorem takeWhile_word (hw : ∀ c ∈ text, isWord c = true) (hr : Stops rest) :
    (text ++ rest).takeWhile isWord = text := by
  rw [List.takeWhile_append_of_pos hw]
  cases rest with
  | nil => simp
  | cons c rest => simp [hr c rfl]

theorem dropWhile_word (hw : ∀ c ∈ text, isWord c = true) (hr : Stops rest) :
    (text ++ rest).dropWhile isWord = rest := by
  rw [List.dropWhile_append_of_pos hw]
  cases rest with
  | nil => rfl
  | cons c rest => simp [hr c rfl]

theorem isBlank_of_isWord (h : isWord c = true) : isBlank c = false := by
  rw [Bool.eq_false_iff]
  intro hb
  simp only [isBlank, Bool.or_eq_true, decide_eq_true_eq] at hb
  rcases hb with ((rfl | rfl) | rfl) | rfl <;> cases h

theorem skip_cons (h : isBlank c = false) : skip (c :: rest) = c :: rest := by
  rw [skip, List.dropWhile_cons_of_neg (by simp [h])]

theorem readValue_literal (h : IsLiteral text value) (hr : Stops rest) :
    readValue (fuel + 1) (text ++ rest) = some (value, rest) := by
  obtain ⟨c, text', rfl⟩ := List.exists_cons_of_ne_nil h.some
  have hc := h.words c List.mem_cons_self
  have hne : ∀ d, isWord d = false → c ≠ d := by
    rintro _ hd rfl
    rw [hd] at hc
    cases hc
  rw [List.cons_append, readValue, skip_cons (isBlank_of_isWord hc)]
  simp only [if_neg (hne '"' rfl), if_neg (hne '[' rfl), if_neg (hne '\x7b' rfl)]
  rw [← List.cons_append, takeWhile_word h.words hr, dropWhile_word h.words hr, h.literal]
  rfl

theorem isLiteral_of_wellFormed (hw : value.WellFormed) :
    IsLiteral (stringify value) value ∨ (∃ text, value = .string text) ∨
      (∃ elements, value = .array elements) ∨ ∃ members, value = .object members := by
  cases value with
  | null => exact .inl isLiteral_null
  | bool b => exact .inl (isLiteral_bool b)
  | integer n => exact .inl (isLiteral_integer n)
  | fraction text => exact .inl (isLiteral_fraction hw)
  | string text => exact .inr (.inl ⟨text, rfl⟩)
  | array elements => exact .inr (.inr (.inl ⟨elements, rfl⟩))
  | object members => exact .inr (.inr (.inr ⟨members, rfl⟩))

/-- What the text of a value starts with. -/
theorem stringify_head (hw : value.WellFormed) : ∃ c rest, stringify value = c :: rest ∧
    isBlank c = false ∧ c ≠ ']' ∧ c ≠ '\x7d' := by
  rcases isLiteral_of_wellFormed hw with h | ⟨text, rfl⟩ | ⟨elements, rfl⟩ | ⟨members, rfl⟩
  · obtain ⟨c, rest, heq⟩ := List.exists_cons_of_ne_nil h.some
    have hc := h.words c (heq ▸ List.mem_cons_self)
    refine ⟨c, rest, heq, isBlank_of_isWord hc, ?_, ?_⟩ <;> rintro rfl <;> cases hc
  · exact ⟨'"', _, rfl, rfl, by decide, by decide⟩
  · exact ⟨'[', _, rfl, rfl, by decide, by decide⟩
  · exact ⟨'\x7b', _, rfl, rfl, by decide, by decide⟩

theorem readKey_quote : readKey (quote text ++ ':' :: rest) = some (text, rest) := by
  have hquote : quote text ++ ':' :: rest = '"' :: (text.flatMap escape ++ '"' :: ':' :: rest) := by
    simp [quote]
  rw [hquote, readKey, skip_cons rfl]
  simp only [readString_quote, Option.bind_eq_bind, Option.bind_some,
    skip_cons (show isBlank ':' = false from rfl)]

theorem setEntry_of_not_mem {key : Text} {entries : List (Text × Value)}
    (h : key ∉ entries.map Prod.fst) : setEntry key value entries = entries ++ [(key, value)] := by
  induction entries with
  | nil => rfl
  | cons entry entries ih =>
    rw [List.map_cons, List.mem_cons, not_or] at h
    rw [setEntry, if_neg (Ne.symm h.1), ih h.2, List.cons_append]

theorem assemble_eq (hd : (members.map Prod.fst).Nodup) : assemble members = members := by
  induction members using List.reverseRecOn with
  | nil => rfl
  | append_singleton members member ih =>
    rw [List.map_append, List.nodup_append] at hd
    rw [assemble, List.foldl_append, List.foldl_cons, List.foldl_nil]
    rw [assemble] at ih
    rw [ih hd.1, setEntry_of_not_mem]
    exact fun hm ↦ hd.2.2 _ hm member.1 (by simp) rfl

/-- What is read, with so much fuel, of the texts of values. -/
structure Reads (fuel : ℕ) : Prop where
  value : ∀ value rest, value.WellFormed → Stops rest → (stringify value).length ≤ fuel →
    readValue fuel (stringify value ++ rest) = some (value, rest)
  elements : ∀ elements rest, elements ≠ [] → ElementsWellFormed elements →
    (stringifyElements elements).length < fuel →
      readElements fuel (stringifyElements elements ++ ']' :: rest) = some (elements, rest)
  members : ∀ members rest, members ≠ [] → MembersWellFormed members →
    (stringifyMembers members).length < fuel →
      readMembers fuel (stringifyMembers members ++ '\x7d' :: rest) = some (members, rest)

theorem stringifyElements_cons (hne : elements ≠ []) : stringifyElements (value :: elements) =
    stringify value ++ ',' :: stringifyElements elements := by
  obtain ⟨element, elements, rfl⟩ := List.exists_cons_of_ne_nil hne
  rfl

theorem stringifyMembers_cons (hne : members ≠ []) : stringifyMembers ((text, value) :: members) =
    quote text ++ ':' :: (stringify value ++ ',' :: stringifyMembers members) := by
  obtain ⟨member, members, rfl⟩ := List.exists_cons_of_ne_nil hne
  rfl

theorem skip_elements (hne : elements ≠ []) (hw : ElementsWellFormed elements) :
    (skip (stringifyElements elements ++ rest)).head? ≠ some ']' := by
  obtain ⟨element, elements, rfl⟩ := List.exists_cons_of_ne_nil hne
  obtain ⟨c, text, heq, hc, hne, -⟩ := stringify_head hw.1
  have hhead : ∃ more, stringifyElements (element :: elements) = c :: more := by
    by_cases h : elements = []
    · rw [h]
      exact ⟨text, heq⟩
    · rw [stringifyElements_cons h, heq]
      exact ⟨_, rfl⟩
  obtain ⟨more, hmore⟩ := hhead
  rw [hmore, List.cons_append, skip_cons hc]
  simpa using hne

theorem skip_members (hne : members ≠ []) :
    (skip (stringifyMembers members ++ rest)).head? ≠ some '\x7d' := by
  obtain ⟨⟨text, value⟩, members, rfl⟩ := List.exists_cons_of_ne_nil hne
  have hhead : ∃ more, stringifyMembers ((text, value) :: members) = '"' :: more := by
    by_cases h : members = []
    · rw [h]
      exact ⟨_, rfl⟩
    · rw [stringifyMembers_cons h]
      exact ⟨_, rfl⟩
  obtain ⟨more, hmore⟩ := hhead
  rw [hmore, List.cons_append, skip_cons rfl]
  simp

theorem stops_of_head (h : isWord c = false) : Stops (c :: rest) := by
  intro d hd
  rwa [← Option.some.inj hd]

theorem Reads.value_succ (h : Reads fuel) (hw : value.WellFormed) (hr : Stops rest)
    (hf : (stringify value).length ≤ fuel + 1) :
    readValue (fuel + 1) (stringify value ++ rest) = some (value, rest) := by
  rcases isLiteral_of_wellFormed hw with hl | ⟨text, rfl⟩ | ⟨elements, rfl⟩ | ⟨members, rfl⟩
  · exact readValue_literal hl hr
  · have htext : stringify (.string text) ++ rest =
        '"' :: (text.flatMap escape ++ '"' :: rest) := by
      simp [stringify, quote]
    rw [htext, readValue, skip_cons rfl]
    simp only [if_true, readString_quote]
    rfl
  · have htext : stringify (.array elements) ++ rest =
        '[' :: (stringifyElements elements ++ ']' :: rest) := by
      simp [stringify]
    rw [htext, readValue, skip_cons rfl]
    by_cases hne : elements = []
    · subst hne
      rfl
    · have hlength : (stringifyElements elements).length < fuel := by
        simp only [stringify, List.length_cons, List.length_append, List.length_nil] at hf
        omega
      simp only [if_neg (show '[' ≠ '"' by decide), if_true, if_neg (skip_elements hne hw),
        h.elements elements rest hne hw hlength]
      rfl
  · have htext : stringify (.object members) ++ rest =
        '\x7b' :: (stringifyMembers members ++ '\x7d' :: rest) := by
      simp [stringify]
    rw [htext, readValue, skip_cons rfl]
    by_cases hne : members = []
    · subst hne
      rfl
    · have hlength : (stringifyMembers members).length < fuel := by
        simp only [stringify, List.length_cons, List.length_append, List.length_nil] at hf
        omega
      simp only [if_neg (show '\x7b' ≠ '"' by decide), if_neg (show '\x7b' ≠ '[' by decide),
        if_true, if_neg (skip_members hne), h.members members rest hne hw.2 hlength,
        Option.map_some, assemble_eq hw.1]

theorem Reads.elements_succ (h : Reads fuel) (hne : elements ≠ [])
    (hw : ElementsWellFormed elements) (hf : (stringifyElements elements).length < fuel + 1) :
    readElements (fuel + 1) (stringifyElements elements ++ ']' :: rest) = some (elements, rest) := by
  obtain ⟨element, elements, rfl⟩ := List.exists_cons_of_ne_nil hne
  by_cases hlast : elements = []
  · subst hlast
    have hread := h.value element (']' :: rest) hw.1 (stops_of_head rfl) (Nat.le_of_lt_succ hf)
    rw [stringifyElements, readElements, hread, Option.bind_eq_bind, Option.bind_some]
    simp only [skip_cons (show isBlank ']' = false from rfl), if_true]
  · rw [stringifyElements_cons hlast, List.length_append, List.length_cons] at hf
    have hread := h.value element (',' :: (stringifyElements elements ++ ']' :: rest)) hw.1
      (stops_of_head rfl) (by omega)
    have hrest := h.elements elements rest hlast hw.2 (by omega)
    rw [stringifyElements_cons hlast, List.append_assoc, List.cons_append, readElements, hread,
      Option.bind_eq_bind, Option.bind_some]
    simp only [skip_cons (show isBlank ',' = false from rfl),
      if_neg (show ',' ≠ ']' by decide), if_true, hrest]
    rfl

theorem Reads.members_succ (h : Reads fuel) (hne : members ≠ [])
    (hw : MembersWellFormed members) (hf : (stringifyMembers members).length < fuel + 1) :
    readMembers (fuel + 1) (stringifyMembers members ++ '\x7d' :: rest) = some (members, rest) := by
  obtain ⟨⟨text, value⟩, members, rfl⟩ := List.exists_cons_of_ne_nil hne
  by_cases hlast : members = []
  · subst hlast
    have hlength : (stringify value).length ≤ fuel := by
      simp only [stringifyMembers, List.length_append, List.length_cons] at hf
      omega
    have hread := h.value value ('\x7d' :: rest) hw.1 (stops_of_head rfl) hlength
    rw [stringifyMembers, List.append_assoc, List.cons_append, readMembers, readKey_quote,
      Option.bind_eq_bind, Option.bind_some]
    simp only [hread, Option.bind_eq_bind, Option.bind_some,
      skip_cons (show isBlank '\x7d' = false from rfl), if_true]
  · rw [stringifyMembers_cons hlast, List.length_append, List.length_cons, List.length_append,
      List.length_cons] at hf
    have hread := h.value value (',' :: (stringifyMembers members ++ '\x7d' :: rest)) hw.1
      (stops_of_head rfl) (by omega)
    have hrest := h.members members rest hlast hw.2 (by omega)
    rw [stringifyMembers_cons hlast, List.append_assoc, List.cons_append, List.append_assoc,
      List.cons_append, readMembers, readKey_quote, Option.bind_eq_bind, Option.bind_some]
    simp only [hread, Option.bind_eq_bind, Option.bind_some,
      skip_cons (show isBlank ',' = false from rfl), if_neg (show ',' ≠ '\x7d' by decide),
      if_true, hrest]

theorem reads (fuel : ℕ) : Reads fuel := by
  induction fuel with
  | zero =>
    refine ⟨fun value rest hw _ hf ↦ ?_, fun _ _ _ _ hf ↦ absurd hf (Nat.not_lt_zero _),
      fun _ _ _ _ hf ↦ absurd hf (Nat.not_lt_zero _)⟩
    obtain ⟨c, text, heq, -⟩ := stringify_head hw
    rw [heq, List.length_cons] at hf
    omega
  | succ fuel ih =>
    exact ⟨fun _ _ ↦ ih.value_succ, fun _ _ ↦ ih.elements_succ, fun _ _ ↦ ih.members_succ⟩

/-- What is written is read back, with white space after it. -/
theorem parse_stringify_append (hw : value.WellFormed) (hs : Stops rest) (hr : skip rest = []) :
    parse (stringify value ++ rest) = some value := by
  have hread := (reads ((stringify value ++ rest).length + 1)).value value rest hw hs (by
    rw [List.length_append]
    omega)
  rw [parse, hread]
  simp [hr]

theorem parse_stringify (hw : value.WellFormed) : parse (stringify value) = some value := by
  have hstops : Stops [] := by simp [Stops]
  have hread := parse_stringify_append hw hstops rfl
  rwa [List.append_nil] at hread

theorem membersWellFormed_iff :
    MembersWellFormed members ↔ ∀ member ∈ members, member.2.WellFormed := by
  induction members with
  | nil => simp [MembersWellFormed]
  | cons member members ih => rw [MembersWellFormed, ih, List.forall_mem_cons]

theorem nodup_assemble : ((assemble members).map Prod.fst).Nodup := by
  induction members using List.reverseRecOn with
  | nil => exact List.nodup_nil
  | append_singleton members member ih =>
    rw [assemble, List.foldl_append, List.foldl_cons, List.foldl_nil, map_fst_setEntry]
    split
    · exact ih
    · next hm => exact List.Nodup.append ih (List.nodup_singleton _) (by simpa using hm)

theorem mem_of_mem_assemble {member : Text × Value} (h : member ∈ assemble members) :
    member ∈ members := by
  induction members using List.reverseRecOn with
  | nil => exact h
  | append_singleton members last ih =>
    rw [assemble, List.foldl_append, List.foldl_cons, List.foldl_nil] at h
    rcases (mem_setEntry nodup_assemble).mp h with ⟨hkey, hvalue⟩ | ⟨-, hm⟩
    · rw [Prod.ext hkey hvalue]
      simp
    · exact List.mem_append_left _ (ih hm)

/-- Whatever is read, with so much fuel, is well formed. -/
structure Sound (fuel : ℕ) : Prop where
  value : ∀ text value rest, readValue fuel text = some (value, rest) → value.WellFormed
  elements : ∀ text elements rest, readElements fuel text = some (elements, rest) →
    ElementsWellFormed elements
  members : ∀ text members rest, readMembers fuel text = some (members, rest) →
    MembersWellFormed members

theorem wellFormed_literal (h : literal text = some value) : value.WellFormed := by
  unfold literal at h
  split at h
  · obtain rfl := Option.some.inj h
    trivial
  · split at h
    · obtain rfl := Option.some.inj h
      trivial
    · split at h
      · obtain rfl := Option.some.inj h
        trivial
      · split at h
        · next hnumber =>
          obtain rfl := Option.some.inj h
          unfold number
          split
          · trivial
          · next hnone => exact ⟨hnumber, hnone⟩
        · cases h

theorem Sound.value_succ (h : Sound fuel) (hr : readValue (fuel + 1) text = some (value, rest)) :
    value.WellFormed := by
  rw [readValue] at hr
  split at hr
  · cases hr
  · split at hr
    · obtain ⟨found, -, heq⟩ := Option.map_eq_some_iff.mp hr
      obtain ⟨rfl, -⟩ := Prod.mk.inj heq
      trivial
    · split at hr
      · split at hr
        · obtain ⟨rfl, -⟩ := Prod.mk.inj (Option.some.inj hr)
          trivial
        · obtain ⟨found, hfound, heq⟩ := Option.map_eq_some_iff.mp hr
          obtain ⟨rfl, -⟩ := Prod.mk.inj heq
          exact h.elements _ found.1 found.2 hfound
      · split at hr
        · split at hr
          · obtain ⟨rfl, -⟩ := Prod.mk.inj (Option.some.inj hr)
            exact ⟨List.nodup_nil, trivial⟩
          · obtain ⟨found, hfound, heq⟩ := Option.map_eq_some_iff.mp hr
            obtain ⟨rfl, -⟩ := Prod.mk.inj heq
            refine ⟨nodup_assemble, membersWellFormed_iff.mpr fun member hm ↦ ?_⟩
            exact membersWellFormed_iff.mp (h.members _ found.1 found.2 hfound) member
              (mem_of_mem_assemble hm)
        · obtain ⟨found, hfound, heq⟩ := Option.map_eq_some_iff.mp hr
          obtain ⟨rfl, -⟩ := Prod.mk.inj heq
          exact wellFormed_literal hfound

theorem Sound.elements_succ (h : Sound fuel)
    (hr : readElements (fuel + 1) text = some (elements, rest)) : ElementsWellFormed elements := by
  rw [readElements] at hr
  obtain ⟨found, hfound, hr⟩ := Option.bind_eq_some_iff.mp hr
  have hw := h.value _ found.1 found.2 hfound
  dsimp only at hr
  split at hr
  · cases hr
  · split at hr
    · obtain ⟨rfl, -⟩ := Prod.mk.inj (Option.some.inj hr)
      exact ⟨hw, trivial⟩
    · split at hr
      · obtain ⟨more, hmore, hr⟩ := Option.bind_eq_some_iff.mp hr
        obtain ⟨rfl, -⟩ := Prod.mk.inj (Option.some.inj hr)
        exact ⟨hw, h.elements _ more.1 more.2 hmore⟩
      · cases hr

theorem Sound.members_succ (h : Sound fuel)
    (hr : readMembers (fuel + 1) text = some (members, rest)) : MembersWellFormed members := by
  rw [readMembers] at hr
  obtain ⟨key, -, hr⟩ := Option.bind_eq_some_iff.mp hr
  obtain ⟨found, hfound, hr⟩ := Option.bind_eq_some_iff.mp hr
  have hw := h.value _ found.1 found.2 hfound
  dsimp only at hr
  split at hr
  · cases hr
  · split at hr
    · obtain ⟨rfl, -⟩ := Prod.mk.inj (Option.some.inj hr)
      exact ⟨hw, trivial⟩
    · split at hr
      · obtain ⟨more, hmore, hr⟩ := Option.bind_eq_some_iff.mp hr
        obtain ⟨rfl, -⟩ := Prod.mk.inj (Option.some.inj hr)
        exact ⟨hw, h.members _ more.1 more.2 hmore⟩
      · cases hr

theorem sound (fuel : ℕ) : Sound fuel := by
  induction fuel with
  | zero =>
    constructor <;> intro _ _ _ h <;> cases h
  | succ fuel ih =>
    exact ⟨fun _ _ _ ↦ ih.value_succ, fun _ _ _ ↦ ih.elements_succ, fun _ _ _ ↦ ih.members_succ⟩

theorem wellFormed_parse (h : parse text = some value) : value.WellFormed := by
  obtain ⟨found, hread, h⟩ := Option.bind_eq_some_iff.mp h
  have hw := (sound _).value _ found.1 found.2 hread
  dsimp only at h
  split at h
  · exact Option.some.inj h ▸ hw
  · cases h

theorem stringify_injOn {value value' : Value} (hw : value.WellFormed) (hw' : value'.WellFormed)
    (h : stringify value = stringify value') : value = value' := by
  have hread := parse_stringify hw
  rw [h, parse_stringify hw'] at hread
  exact (Option.some.inj hread).symm

end RustdeskConsole.Serialization
