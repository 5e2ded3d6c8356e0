import Mathlib.Data.List.Count
import Mathlib.Data.List.Infix
import Mathlib.Data.Nat.Notation

namespace RustdeskConsole.Collections

/-- A character of a template, or one of its placeholders. -/
inductive Piece
  | char (c : Char)
  | hole
  deriving DecidableEq

namespace Replacement

variable (pattern : List Char)

/-- What stands before and after the first occurrence of the pattern. -/
def cut : List Char → Option (List Char × List Char)
  | [] => none
  | c :: text =>
    if pattern.isPrefixOf (c :: text) then some ([], (c :: text).drop pattern.length)
    else (cut text).map fun (before, after) ↦ (c :: before, after)

/-- The pieces that follow when as many characters are skipped. -/
def piecesFrom : ℕ → List Char → List Piece
  | _, [] => []
  | 0, c :: text =>
    if pattern.isPrefixOf (c :: text) then .hole :: piecesFrom (pattern.length - 1) text
    else .char c :: piecesFrom 0 text
  | k + 1, _ :: text => piecesFrom k text

def pieces (text : List Char) : List Piece := piecesFrom pattern 0 text

/-- What a character after a dollar sign stands for in a replacement. -/
def reference (before after : List Char) (c : Char) : Option (List Char) :=
  if c = '$' then some ['$']
  else if c = '&' then some pattern
  else if c.toNat = 0x60 then some before
  else if c.toNat = 0x27 then some after
  else none

/-- `GetSubstitution`, for a pattern without captures. -/
def getSubstitution (before after : List Char) : List Char → List Char
  | [] => []
  | [c] => [c]
  | c :: d :: rest =>
    if c = '$' then
      match reference pattern before after d with
      | some text => text ++ getSubstitution before after rest
      | none => c :: getSubstitution before after (d :: rest)
    else c :: getSubstitution before after (d :: rest)

/-- `String.prototype.replace` with two strings. -/
def replace (replacement text : List Char) : List Char :=
  match cut pattern text with
  | some (before, after) => before ++ getSubstitution pattern before after replacement ++ after
  | none => text

end Replacement

def Piece.fill (replacement : List Char) : Piece → List Char
  | .char c => [c]
  | .hole => replacement

/-- A text with the same text in the place of every placeholder. -/
def fill (replacement : List Char) (pieces : List Piece) : List Char :=
  pieces.flatMap (Piece.fill replacement)

/-- No dollar sign of the text is the start of a reference. -/
def isPlain : List Char → Bool
  | [] => true
  | [_] => true
  | c :: d :: rest => !(c = '$' && d.toNat ∈ [0x24, 0x26, 0x60, 0x27]) && isPlain (d :: rest)

namespace Replacement

variable {pattern before after text replacement : List Char} {c : Char}

@[simp]
theorem fill_nil : fill replacement [] = [] := rfl

@[simp]
theorem fill_char {ps : List Piece} :
    fill replacement (.char c :: ps) = c :: fill replacement ps := rfl

@[simp]
theorem fill_hole {ps : List Piece} :
    fill replacement (.hole :: ps) = replacement ++ fill replacement ps := rfl

@[simp]
theorem fill_append {ps qs : List Piece} :
    fill replacement (ps ++ qs) = fill replacement ps ++ fill replacement qs :=
  List.flatMap_append

@[simp]
theorem fill_chars : fill replacement (text.map .char) = text := by
  induction text with
  | nil => rfl
  | cons c text ih => rw [List.map_cons, fill_char, ih]

theorem piecesFrom_skip (k : ℕ) :
    piecesFrom pattern k text = piecesFrom pattern 0 (text.drop k) := by
  induction k generalizing text with
  | zero => rfl
  | succ k ih =>
    cases text with
    | nil => rfl
    | cons c text => rw [List.drop_succ_cons, ← ih, piecesFrom]

theorem cut_text (h : cut pattern text = some (before, after)) :
    text = before ++ pattern ++ after := by
  induction text generalizing before with
  | nil => simp [cut] at h
  | cons c text ih =>
    rw [cut] at h
    split at h
    · next hpre =>
      obtain ⟨rest, hrest⟩ := List.isPrefixOf_iff_prefix.mp hpre
      simp only [← hrest, List.drop_left, Option.some.injEq, Prod.mk.injEq] at h
      obtain ⟨rfl, rfl⟩ := h
      rw [← hrest, List.nil_append]
    · obtain ⟨⟨before', after'⟩, hcut, heq⟩ := Option.map_eq_some_iff.mp h
      simp only [Prod.mk.injEq] at heq
      obtain ⟨rfl, rfl⟩ := heq
      rw [ih hcut, List.cons_append, List.cons_append]

theorem pieces_of_none (h : cut pattern text = none) : pieces pattern text = text.map .char := by
  induction text with
  | nil => rfl
  | cons c text ih =>
    rw [cut] at h
    split at h
    · simp at h
    · next hpre =>
      rw [pieces, piecesFrom, if_neg hpre, List.map_cons]
      exact congrArg _ (ih (Option.map_eq_none_iff.mp h))

theorem pieces_of_some (hp : pattern ≠ []) (h : cut pattern text = some (before, after)) :
    pieces pattern text = before.map .char ++ .hole :: pieces pattern after := by
  induction text generalizing before with
  | nil => simp [cut] at h
  | cons c text ih =>
    rw [cut] at h
    rw [pieces, piecesFrom]
    split at h
    · next hpre =>
      simp only [Option.some.injEq, Prod.mk.injEq] at h
      obtain ⟨rfl, rfl⟩ := h
      have hlen : pattern.length = (pattern.length - 1) + 1 := by
        have := List.length_pos_iff.mpr hp
        omega
      rw [if_pos hpre, piecesFrom_skip, List.map_nil, List.nil_append, pieces, hlen,
        List.drop_succ_cons, Nat.add_sub_cancel]
    · next hpre =>
      obtain ⟨⟨before', after'⟩, hcut, heq⟩ := Option.map_eq_some_iff.mp h
      simp only [Prod.mk.injEq] at heq
      obtain ⟨rfl, rfl⟩ := heq
      rw [if_neg hpre, List.map_cons, List.cons_append]
      exact congrArg _ (ih hcut)

/-- The pieces of a text make the text again. -/
theorem fill_pieces (hp : pattern ≠ []) : fill pattern (pieces pattern text) = text := by
  induction hn : text.length using Nat.strong_induction_on generalizing text with
  | _ n ih =>
    cases hcut : cut pattern text with
    | none => rw [pieces_of_none hcut, fill_chars]
    | some parts =>
      obtain ⟨before, after⟩ := parts
      have htext := cut_text hcut
      have hlt : after.length < n := by
        have := List.length_pos_iff.mpr hp
        rw [← hn, htext, List.length_append, List.length_append]
        omega
      rw [pieces_of_some hp hcut, fill_append, fill_chars, fill_hole, ih _ hlt rfl, htext,
        List.append_assoc]

theorem getSubstitution_plain (h : isPlain replacement = true) :
    getSubstitution pattern before after replacement = replacement := by
  induction replacement with
  | nil => rfl
  | cons c rest ih =>
    cases rest with
    | nil => rfl
    | cons d rest =>
      rw [isPlain, Bool.and_eq_true] at h
      rw [getSubstitution, ih h.2]
      split
      · next hc =>
        have hnone : reference pattern before after d = none := by
          have hd : d ≠ '$' ∧ d ≠ '&' ∧ d.toNat ≠ 0x60 ∧ d.toNat ≠ 0x27 := by
            refine ⟨?_, ?_, fun heq ↦ ?_, fun heq ↦ ?_⟩
            · rintro rfl
              simp [hc] at h
            · rintro rfl
              simp [hc] at h
            · simp [hc, heq] at h
            · simp [hc, heq] at h
          rw [reference, if_neg hd.1, if_neg hd.2.1, if_neg hd.2.2.1, if_neg hd.2.2.2]
        rw [hnone]
      · rfl

theorem replace_of_some (h : cut pattern text = some (before, after)) :
    replace pattern replacement text =
      before ++ (getSubstitution pattern before after replacement ++ after) := by
  rw [replace, h]
  exact List.append_assoc ..

theorem reference_eq_none {d : Char} (h : reference pattern before after d = none) :
    d.toNat ∉ [0x24, 0x26, 0x60, 0x27] := by
  intro hm
  rw [reference] at h
  have hd : d ≠ '$' ∧ d ≠ '&' := by
    constructor <;> rintro rfl <;> simp at h
  rw [if_neg hd.1, if_neg hd.2] at h
  have hne : d.toNat ≠ 0x24 ∧ d.toNat ≠ 0x26 :=
    ⟨fun heq ↦ hd.1 (Char.toNat_inj.mp heq), fun heq ↦ hd.2 (Char.toNat_inj.mp heq)⟩
  split at h
  · simp at h
  · split at h
    · simp at h
    · simp_all

/-- Where the text before and the text after each have a character that the
result does not, a reference can only lose dollar signs. -/
theorem getSubstitution_count {a b : Char} (hpat : '$' ∉ pattern) (ha : a ∈ before)
    (hb : b ∈ after) (hna : a ∉ getSubstitution pattern before after replacement)
    (hnb : b ∉ getSubstitution pattern before after replacement) :
    (getSubstitution pattern before after replacement).count '$' ≤ replacement.count '$' ∧
      (replacement.count '$' ≤ (getSubstitution pattern before after replacement).count '$' →
        isPlain replacement = true) := by
  fun_induction getSubstitution pattern before after replacement with
  | case1 => simp [isPlain]
  | case2 c => simp [isPlain]
  | case3 d rest text href ih =>
    simp only [List.mem_append, not_or] at hna hnb
    obtain ⟨hle, -⟩ := ih hna.2 hnb.2
    have hlost : text.count '$' < ('$' :: d :: []).count '$' := by
      rw [reference] at href
      split at href
      · next hd =>
        obtain rfl := Option.some.inj href
        simp [hd]
      split at href
      · obtain rfl := Option.some.inj href
        simp [List.count_eq_zero.mpr hpat]
      split at href
      · exact absurd (Option.some.inj href ▸ ha) hna.1
      split at href
      · exact absurd (Option.some.inj href ▸ hb) hnb.1
      · simp at href
    have hsum : ('$' :: d :: rest).count '$' = ('$' :: d :: []).count '$' + rest.count '$' := by
      rw [← List.count_append]
      rfl
    rw [List.count_append, hsum]
    exact ⟨by omega, fun hge ↦ by omega⟩
  | case4 d rest href ih =>
    simp only [List.mem_cons, not_or] at hna hnb
    obtain ⟨hle, hplain⟩ := ih hna.2 hnb.2
    rw [List.count_cons_self, List.count_cons_self]
    refine ⟨by omega, fun hge ↦ ?_⟩
    simp [isPlain, hplain (by omega), reference_eq_none href]
  | case5 c d rest hc ih =>
    simp only [List.mem_cons, not_or] at hna hnb
    obtain ⟨hle, hplain⟩ := ih hna.2 hnb.2
    rw [List.count_cons_of_ne hc, List.count_cons_of_ne hc]
    refine ⟨hle, fun hge ↦ ?_⟩
    simp [isPlain, hc, hplain hge]

@[simp]
theorem count_char {ps : List Piece} : (Piece.char c :: ps).count .hole = ps.count .hole :=
  List.count_cons_of_ne (by simp)

@[simp]
theorem count_chars : (text.map Piece.char).count .hole = 0 :=
  List.count_eq_zero.mpr (by simp)

theorem count_fill (r : List Char) (ps : List Piece) : (fill r ps).count c =
    (fill [] ps).count c + ps.count .hole * r.count c := by
  induction ps with
  | nil => simp
  | cons piece ps ih =>
    cases piece with
    | char d =>
      rw [count_char, fill_char, fill_char, List.count_cons, List.count_cons, ih]
      omega
    | hole =>
      simp only [fill_hole, List.count_append, List.nil_append, ih, List.count_cons_self]
      rw [Nat.add_mul, Nat.one_mul]
      omega

theorem length_fill (r : List Char) (ps : List Piece) : (fill r ps).length =
    (fill [] ps).length + ps.count .hole * r.length := by
  induction ps with
  | nil => simp
  | cons piece ps ih =>
    cases piece with
    | char d =>
      rw [count_char, fill_char, fill_char, List.length_cons, List.length_cons, ih]
      omega
    | hole =>
      simp only [fill_hole, List.length_append, List.nil_append, ih, List.count_cons_self]
      rw [Nat.add_mul, Nat.one_mul]
      omega

theorem fill_congr {r s : List Char} {ps : List Piece} (h : ps.count .hole = 0) :
    fill r ps = fill s ps := by
  induction ps with
  | nil => rfl
  | cons piece ps ih =>
    cases piece with
    | char d => rw [fill_char, fill_char, ih (by rwa [count_char] at h)]
    | hole => simp at h

theorem fill_inj {ps : List Piece} (h : fill replacement ps = fill pattern ps)
    (hps : ps.count .hole ≠ 0) : replacement = pattern := by
  have hlen : replacement.length = pattern.length := by
    have hall := congrArg List.length h
    rw [length_fill, length_fill pattern, Nat.add_left_cancel_iff] at hall
    exact Nat.eq_of_mul_eq_mul_left (Nat.pos_of_ne_zero hps) hall
  induction ps with
  | nil => simp at hps
  | cons piece ps ih =>
    cases piece with
    | char d =>
      rw [fill_char, fill_char] at h
      exact ih (List.tail_eq_of_cons_eq h) (by rwa [count_char] at hps)
    | hole => exact (List.append_inj h hlen).1

/-- The replacement leaves no placeholder and expands to itself. -/
def Exact (pattern replacement text : List Char) : Prop :=
  (pieces pattern text).count .hole = 0 ∨ isPlain replacement = true ∧
    ((pieces pattern text).count .hole = 1 ∨ replacement = pattern)

instance : Decidable (Exact pattern replacement text) := inferInstanceAs (Decidable (_ ∨ _))

theorem replace_of_exact (hp : pattern ≠ []) (h : Exact pattern replacement text) :
    replace pattern replacement text = fill replacement (pieces pattern text) := by
  rw [Exact] at h
  cases hcut : cut pattern text with
  | none => rw [pieces_of_none hcut, fill_chars, replace, hcut]
  | some parts =>
    obtain ⟨before, after⟩ := parts
    have hpieces := pieces_of_some hp hcut
    rw [hpieces, List.count_append, List.count_cons_self, count_chars] at h
    obtain ⟨hplain, honce⟩ := h.resolve_left (by omega)
    have hafter : fill replacement (pieces pattern after) = after := by
      rcases honce with honce | rfl
      · exact (fill_congr (by omega)).trans (fill_pieces hp)
      · exact fill_pieces hp
    rw [replace_of_some hcut, hpieces, fill_append, fill_chars, fill_hole, hafter,
      getSubstitution_plain hplain]

theorem mem_of_mem_pieces (hp : pattern ≠ []) (h : .char c ∈ pieces pattern text) : c ∈ text := by
  have hmem : c ∈ fill pattern (pieces pattern text) :=
    List.mem_flatMap.mpr ⟨.char c, h, List.mem_singleton_self c⟩
  rwa [fill_pieces hp] at hmem

/-- In a text between two characters that neither the pattern nor the replacement
has, the first occurrence is replaced exactly only where no reference is. -/
theorem replace_exact_iff {a b : Char} (hp : pattern ≠ []) (hpat : '$' ∉ pattern)
    (ha : a ∉ pattern ∧ a ∉ replacement) (hb : b ∉ pattern ∧ b ∉ replacement)
    (hhead : (pieces pattern text).head? = some (.char a))
    (hlast : (pieces pattern text).getLast? = some (.char b)) :
    replace pattern replacement text = fill replacement (pieces pattern text) ↔
      Exact pattern replacement text := by
  refine ⟨fun heq ↦ ?_, replace_of_exact hp⟩
  rw [Exact]
  cases hcut : cut pattern text with
  | none => exact .inl (by rw [pieces_of_none hcut, count_chars])
  | some parts =>
    obtain ⟨before, after⟩ := parts
    have hpieces := pieces_of_some hp hcut
    rw [replace_of_some hcut, hpieces, fill_append, fill_chars, fill_hole] at heq
    rw [hpieces] at hhead hlast
    have hsame := List.append_cancel_left heq
    have hbefore : a ∈ before := by
      cases before with
      | nil => simp at hhead
      | cons d before =>
        simp only [List.map_cons, List.cons_append, List.head?_cons, Option.some.injEq,
          Piece.char.injEq] at hhead
        exact List.mem_cons.mpr (.inl hhead.symm)
    have hafter : b ∈ after := by
      apply mem_of_mem_pieces hp
      rw [List.getLast?_append, List.getLast?_cons] at hlast
      cases hps : (pieces pattern after).getLast? with
      | none => simp [hps] at hlast
      | some piece =>
        obtain rfl : piece = .char b := by simpa [hps] using hlast
        exact List.mem_of_getLast? hps
    have hcount : ∀ x, x ∉ pattern →
        (getSubstitution pattern before after replacement).count x = replacement.count x +
          (pieces pattern after).count .hole * replacement.count x := by
      intro x hx
      have hall := congrArg (List.count x) hsame
      have hold := count_fill (c := x) pattern (pieces pattern after)
      rw [fill_pieces hp, List.count_eq_zero.mpr hx, Nat.mul_zero] at hold
      rw [List.count_append, List.count_append, count_fill replacement, hold]
        at hall
      omega
    have hnone : ∀ x, x ∉ pattern → x ∉ replacement →
        x ∉ getSubstitution pattern before after replacement := by
      intro x hx hr
      rw [← List.count_eq_zero, hcount x hx, List.count_eq_zero.mpr hr, Nat.mul_zero]
    have hplain : isPlain replacement = true :=
      (getSubstitution_count hpat hbefore hafter (hnone a ha.1 ha.2) (hnone b hb.1 hb.2)).2
        (by rw [hcount '$' hpat]; omega)
    refine .inr ⟨hplain, ?_⟩
    rw [hpieces, List.count_append, count_chars, List.count_cons_self]
    rw [getSubstitution_plain hplain] at hsame
    have hrest := List.append_cancel_left hsame
    by_cases hzero : (pieces pattern after).count .hole = 0
    · exact .inl (by omega)
    · exact .inr (fill_inj (by rw [← hrest, fill_pieces hp]) hzero)

end Replacement

end RustdeskConsole.Collections
