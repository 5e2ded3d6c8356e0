import RustdeskConsole.Directory.Literals

namespace RustdeskConsole.Directory

open Collections Replacement

/-- The part of the configuration that the searches read. -/
structure LdapConfig where
  searchFilter : String
  groupSearchBase : String
  groupSearchFilter : String

namespace LdapService

/-- `[\\()*\u0000]`. -/
def isReserved (c : Char) : Bool := c ∈ ['\\', '(', ')', '*', Char.ofNat 0]

def escapeLdapFilterValue (value : List Char) : List Char :=
  value.flatMap fun c ↦
    if isReserved c then
      let hex := Nat.toDigits 16 c.toNat
      '\\' :: (List.replicate (2 - hex.length) '0' ++ hex)
    else [c]

def substitute (template placeholder value : String) : String :=
  String.ofList (replace placeholder.toList (escapeLdapFilterValue value.toList) template.toList)

def searchFilter (config : LdapConfig) (username : String) : String :=
  substitute config.searchFilter "\x7b\x7busername\x7d\x7d" username

/-- Without a base or a filter for groups, no groups are searched. -/
def groupFilter (config : LdapConfig) (userDN : String) : Option String :=
  if config.groupSearchBase = "" ∨ config.groupSearchFilter = "" then none
  else some (substitute config.groupSearchFilter "\x7b\x7bdn\x7d\x7d" userDN)

end LdapService

open LdapService

inductive Search
  | user
  | groups

namespace Search

def placeholder : Search → String
  | user => "\x7b\x7busername\x7d\x7d"
  | groups => "\x7b\x7bdn\x7d\x7d"

def template (config : LdapConfig) : Search → List Piece
  | user => pieces user.placeholder.toList config.searchFilter.toList
  | groups => pieces groups.placeholder.toList config.groupSearchFilter.toList

/-- The filter that is sent for a username, or for the name of an entry. -/
def filter (config : LdapConfig) : Search → String → Option String
  | user => fun username ↦ some (searchFilter config username)
  | groups => groupFilter config

end Search

variable {config : LdapConfig} {search : Search} {value sent : String}

/-- The value as the octets that an assertion compares. -/
def literal (value : String) : List Element :=
  (value.toList.flatMap String.utf8EncodeChar).map .octet

/-- The filter is the template with the escaped value in every place, and is read
as the template with the value itself there. -/
def Faithful (config : LdapConfig) (search : Search) (value sent : String) : Prop :=
  sent.toList = fill (escapeLdapFilterValue value.toList) (search.template config) ∧
    ∀ f, Filter.parse (search.template config) = some f →
      Filter.parse (sent.toList.map .char) = some (f.subst (literal value))

/-- The template has no placeholder, or it has one and the value has no dollar
sign before a dollar sign, an ampersand, a backquote or an apostrophe. -/
def Settled (config : LdapConfig) (search : Search) (value : String) : Prop :=
  (search.template config).count .hole = 0 ∨ isPlain value.toList = true ∧
    ((search.template config).count .hole = 1 ∨ value = search.placeholder)

instance : Decidable (Settled config search value) := inferInstanceAs (Decidable (_ ∨ _))

section Escape

variable {c : Char} {text : List Char}

theorem escape_cons : escapeLdapFilterValue (c :: text) =
    escapeLdapFilterValue [c] ++ escapeLdapFilterValue text := by
  simp [escapeLdapFilterValue]

theorem escape_plain (h : isReserved c = false) : escapeLdapFilterValue [c] = [c] := by
  simp [escapeLdapFilterValue, h]

theorem isReserved_cases (h : isReserved c = true) :
    c = '\\' ∨ c = '(' ∨ c = ')' ∨ c = '*' ∨ c = Char.ofNat 0 := by
  simpa only [isReserved, decide_eq_true_eq, List.mem_cons, List.not_mem_nil, or_false] using h

/-- A reserved character becomes a backslash and the digits of its code. -/
theorem escape_reserved (h : isReserved c = true) : ∃ high low hi lo,
    escapeLdapFilterValue [c] = ['\\', high, low] ∧ Filter.hexDigit high = some hi ∧
      Filter.hexDigit low = some lo ∧ 16 * hi + lo = c.toNat ∧
      ∀ d ∈ ['\\', high, low], d ∉ ['$', '(', ')'] := by
  rcases isReserved_cases h with rfl | rfl | rfl | rfl | rfl
  · exact ⟨'5', 'c', 5, 12, rfl, by decide, by decide, rfl, by simp⟩
  · exact ⟨'2', '8', 2, 8, rfl, by decide, by decide, rfl, by simp⟩
  · exact ⟨'2', '9', 2, 9, rfl, by decide, by decide, rfl, by simp⟩
  · exact ⟨'2', 'a', 2, 10, rfl, by decide, by decide, rfl, by simp⟩
  · exact ⟨'0', '0', 0, 0, rfl, by decide, by decide, rfl, by simp⟩

theorem not_mem_escape (h : c ∈ ['(', ')']) : c ∉ escapeLdapFilterValue text := by
  induction text with
  | nil => exact List.not_mem_nil
  | cons d text ih =>
    rw [escape_cons, List.mem_append, not_or]
    refine ⟨fun hm ↦ ?_, ih⟩
    cases hd : isReserved d with
    | true =>
      obtain ⟨high, low, hi, lo, hescape, -, -, -, hno⟩ := escape_reserved hd
      exact hno c (hescape ▸ hm) (List.mem_cons_of_mem _ h)
    | false =>
      obtain rfl := List.mem_singleton.mp (escape_plain hd ▸ hm)
      simp only [List.mem_cons, List.not_mem_nil, or_false] at h
      rcases h with rfl | rfl <;> simp [isReserved] at hd

/-- The token that an escaped character is read as. -/
def tokenOf (c : Char) : Token :=
  if isReserved c then .octet (UInt8.ofNat c.toNat) else .char c

theorem tokens_escape_char {ps : List Piece} :
    Filter.tokens ((escapeLdapFilterValue [c]).map .char ++ ps) =
      (Filter.tokens ps).map (tokenOf c :: ·) := by
  cases hc : isReserved c with
  | true =>
    obtain ⟨high, low, hi, lo, hescape, hhigh, hlow, hcode, -⟩ := escape_reserved hc
    simp only [hescape, List.map_cons, List.map_nil, List.cons_append, List.nil_append]
    rw [Filter.tokens, tokenOf, if_pos hc]
    simp only [hhigh, hlow, Option.bind_eq_bind, Option.bind_some, hcode]
    cases Filter.tokens ps <;> rfl
  | false =>
    have htoken : Filter.token c = some (.char c) := by
      simp only [isReserved, decide_eq_false_iff_not, List.mem_cons, not_or] at hc
      simp [Filter.token, hc]
    have hne : c ≠ '\\' := by
      rintro rfl
      simp [isReserved] at hc
    rw [escape_plain hc, List.map_cons, List.map_nil, List.cons_append, List.nil_append,
      Filter.tokens_char hne, htoken, tokenOf, if_neg (by simp [hc])]
    rfl

/-- Whatever is escaped is read as a literal. -/
theorem escape_literal : Filter.Literal (escapeLdapFilterValue text) (text.map tokenOf) where
  read ps := by
    induction text with
    | nil => simp [escapeLdapFilterValue]
    | cons c text ih =>
      rw [escape_cons, List.map_append, List.append_assoc, tokens_escape_char, ih, Option.map_map]
      rfl
  plain t ht := by
    obtain ⟨c, -, rfl⟩ := List.mem_map.mp ht
    rw [tokenOf]
    split <;> simp [Filter.isValue]

theorem elements_tokenOf :
    (text.map tokenOf).flatMap Filter.elements = (text.flatMap String.utf8EncodeChar).map .octet := by
  induction text with
  | nil => rfl
  | cons c text ih =>
    rw [List.map_cons, List.flatMap_cons, List.flatMap_cons, List.map_append, ih]
    refine congrArg (· ++ _) ?_
    rw [tokenOf]
    split
    · next hc => rcases isReserved_cases hc with rfl | rfl | rfl | rfl | rfl <;> rfl
    · rfl

theorem isPlain_cons_of_ne (h : c ≠ '$') : isPlain (c :: text) = isPlain text := by
  cases text with
  | nil => rfl
  | cons d text => simp [isPlain, h]

/-- Escaping neither makes a reference nor takes one away. -/
theorem isPlain_escape : isPlain (escapeLdapFilterValue text) = isPlain text := by
  induction text with
  | nil => rfl
  | cons c text ih =>
    rw [escape_cons]
    cases hc : isReserved c with
    | true =>
      obtain ⟨high, low, hi, lo, hescape, -, -, -, hno⟩ := escape_reserved hc
      have hne : ∀ d ∈ ['\\', high, low], d ≠ '$' := fun d hd heq ↦ hno d hd (by simp [heq])
      have hcne : c ≠ '$' := by
        rintro rfl
        simp [isReserved] at hc
      rw [hescape, List.cons_append, List.cons_append, List.cons_append, List.nil_append,
        isPlain_cons_of_ne (hne _ (by simp)), isPlain_cons_of_ne (hne _ (by simp)),
        isPlain_cons_of_ne (hne _ (by simp)), isPlain_cons_of_ne hcne, ih]
    | false =>
      rw [escape_plain hc, List.cons_append, List.nil_append]
      cases text with
      | nil => rfl
      | cons d text =>
        rw [isPlain, ← ih, escape_cons]
        cases hd : isReserved d with
        | true =>
          obtain ⟨high, low, hi, lo, hescape, -⟩ := escape_reserved hd
          rw [hescape, List.cons_append, isPlain]
          rcases isReserved_cases hd with rfl | rfl | rfl | rfl | rfl <;> simp
        | false => rw [escape_plain hd, List.cons_append, isPlain]

theorem escape_eq {pattern : List Char} (hp : '\\' ∉ pattern)
    (hr : ∀ c ∈ pattern, isReserved c = false) :
    escapeLdapFilterValue text = pattern ↔ text = pattern := by
  have hsame : ∀ text : List Char, (∀ c ∈ text, isReserved c = false) →
      escapeLdapFilterValue text = text := by
    intro text h
    induction text with
    | nil => rfl
    | cons c text ih =>
      rw [escape_cons, escape_plain (h c (.head _)), ih fun d hd ↦ h d (.tail _ hd)]
      rfl
  constructor
  · rintro rfl
    refine (hsame text fun c hc ↦ ?_).symm
    by_contra hres
    rw [Bool.not_eq_false] at hres
    obtain ⟨high, low, hi, lo, hescape, -⟩ := escape_reserved hres
    refine hp (List.mem_flatMap.mpr ⟨c, hc, ?_⟩)
    have hmem : '\\' ∈ escapeLdapFilterValue [c] := by simp [hescape]
    simpa [escapeLdapFilterValue] using hmem
  · rintro rfl
    exact hsame text hr

end Escape

theorem filter_eq (h : search.filter config value = some sent) :
    ∃ text, search.template config = pieces search.placeholder.toList text ∧
      sent.toList =
        replace search.placeholder.toList (escapeLdapFilterValue value.toList) text := by
  cases search with
  | user =>
    obtain rfl := Option.some.inj h
    exact ⟨_, rfl, by simp [searchFilter, substitute, Search.placeholder]⟩
  | groups =>
    simp only [Search.filter, groupFilter] at h
    split at h
    · simp at h
    · obtain rfl := Option.some.inj h
      exact ⟨_, rfl, by simp [substitute, Search.placeholder]⟩

theorem settled_iff {text : List Char}
    (ht : search.template config = pieces search.placeholder.toList text) :
    Settled config search value ↔
      Exact search.placeholder.toList (escapeLdapFilterValue value.toList) text := by
  have hp : '\\' ∉ search.placeholder.toList ∧
      ∀ c ∈ search.placeholder.toList, isReserved c = false := by
    cases search <;> simp [Search.placeholder, isReserved]
  rw [Settled, Exact, ht, isPlain_escape, escape_eq hp.1 hp.2, String.toList_inj]

theorem filter_faithful (h : search.filter config value = some sent) :
    (Settled config search value → Faithful config search value sent) ∧
      ∀ f, Filter.parse (search.template config) = some f →
        (Faithful config search value sent ↔ Settled config search value) := by
  obtain ⟨text, htemplate, hsent⟩ := filter_eq h
  have hp : search.placeholder.toList ≠ [] ∧ '$' ∉ search.placeholder.toList ∧
      '(' ∉ search.placeholder.toList ∧ ')' ∉ search.placeholder.toList := by
    cases search <;> decide
  have hread : sent.toList =
      fill (escapeLdapFilterValue value.toList) (search.template config) →
      Faithful config search value sent := by
    intro heq
    refine ⟨heq, fun f hf ↦ ?_⟩
    rw [heq, Filter.parse_fill escape_literal hf, elements_tokenOf, literal]
  rw [settled_iff htemplate]
  refine ⟨fun hexact ↦ hread ?_, fun f hf ↦ ⟨fun hfaithful ↦ ?_, fun hexact ↦ hread ?_⟩⟩
  · rw [hsent, htemplate, replace_of_exact hp.1 hexact]
  · rw [htemplate] at hf
    obtain ⟨hhead, hlast⟩ := Filter.parse_parentheses hf
    rw [← replace_exact_iff hp.1 hp.2.1 ⟨hp.2.2.1, not_mem_escape (by simp)⟩
      ⟨hp.2.2.2, not_mem_escape (by simp)⟩ hhead hlast, ← hsent, ← htemplate]
    exact hfaithful.1
  · rw [hsent, htemplate, replace_of_exact hp.1 hexact]

def sampleConfig : LdapConfig := ⟨"(sAMAccountName=\x7b\x7busername\x7d\x7d)", "", ""⟩

theorem sample_faithful : Faithful sampleConfig .user "ann*" "(sAMAccountName=ann\\2a)" :=
  (filter_faithful (show Search.user.filter sampleConfig "ann*" = _ by decide)).1 (by decide)

/-- A username of two dollar signs is searched as one. -/
theorem dollars_unfaithful : ¬ ∀ config search value sent,
    Search.filter config search value = some sent → Faithful config search value sent := by
  intro hall
  have hsent := (hall sampleConfig .user "$$" "(sAMAccountName=$)" (by decide)).1
  exact absurd hsent (by decide)

end RustdeskConsole.Directory
