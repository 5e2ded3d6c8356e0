import Mathlib.Data.List.TakeWhile
import RustdeskConsole.Directory.Filter

namespace RustdeskConsole.Directory

open Collections

variable {text : List Char} {ts input rest value : List Token} {ps : List Piece} {f : Filter}
  {fs : List Filter} {fuel : ℕ} {inner : Filter.Inner}

namespace Filter

/-- The text is read as part of a value, whatever follows it. -/
structure Literal (text : List Char) (ts : List Token) : Prop where
  read : ∀ ps, tokens (text.map .char ++ ps) = (tokens ps).map (ts ++ ·)
  plain : ∀ t ∈ ts, isValue t = true ∧ t ≠ .any ∧ t ≠ .hole

end Filter

def Token.fill (ts : List Token) : Token → List Token
  | .hole => ts
  | t => [t]

namespace Filter

/-- The tokens with those of a literal in the place of every placeholder. -/
def fillTokens (ts input : List Token) : List Token := input.flatMap (Token.fill ts)

@[simp]
theorem fillTokens_nil : fillTokens ts [] = [] := rfl

@[simp]
theorem fillTokens_hole : fillTokens ts (.hole :: input) = ts ++ fillTokens ts input := rfl

theorem fillTokens_cons {t : Token} (h : t ≠ .hole) :
    fillTokens ts (t :: input) = t :: fillTokens ts input := by
  cases t with
  | hole => exact absurd rfl h
  | _ => rfl

theorem fillTokens_append :
    fillTokens ts (input ++ rest) = fillTokens ts input ++ fillTokens ts rest :=
  List.flatMap_append

theorem fillTokens_self (h : .hole ∉ input) : fillTokens ts input = input := by
  induction input with
  | nil => rfl
  | cons t input ih =>
    rw [List.mem_cons, not_or] at h
    rw [fillTokens_cons (Ne.symm h.1), ih h.2]

section Reading

theorem token_ne_hole {c : Char} {t : Token} (h : token c = some t) : t ≠ .hole := by
  rintro rfl
  simp only [token] at h
  split at h
  · simp at h
  split at h
  · simp at h
  split at h
  · simp at h
  split at h <;> simp at h

theorem tokens_char {c : Char} (hc : c ≠ '\\') :
    tokens (.char c :: ps) = (token c).bind fun head ↦ (tokens ps).map (head :: ·) := by
  rw [tokens.eq_def]
  cases ht : token c with
  | none => simp [hc, ht]
  | some head => cases hps : tokens ps <;> simp [hc, ht, hps]

theorem tokens_fill (hl : Literal text ts) (h : tokens ps = some input) :
    tokens ((fill text ps).map .char) = some (fillTokens ts input) := by
  fun_induction tokens ps generalizing input with
  | case1 =>
    obtain rfl := Option.some.inj h
    rfl
  | case2 pieces ih =>
    obtain ⟨rest, hrest, rfl⟩ := Option.map_eq_some_iff.mp h
    rw [Replacement.fill_hole, List.map_append, hl.read, ih hrest, fillTokens_hole]
    rfl
  | case3 high low pieces ih =>
    simp only [Option.bind_eq_bind, Option.bind_eq_some_iff, Option.some.injEq] at h
    obtain ⟨hi, hhi, lo, hlo, rest, hrest, rfl⟩ := h
    simp only [Replacement.fill_char, List.map_cons]
    rw [tokens, fillTokens_cons (by simp)]
    simp [hhi, hlo, ih hrest]
  | case4 pieces hno => simp at h
  | case5 c pieces hc ih =>
    simp only [Option.bind_eq_bind, Option.bind_eq_some_iff, Option.some.injEq] at h
    obtain ⟨head, hhead, rest, hrest, rfl⟩ := h
    rw [Replacement.fill_char, List.map_cons, tokens_char hc, hhead, ih hrest,
      fillTokens_cons (token_ne_hole hhead)]
    rfl

end Reading

section Filling

theorem fillTokens_value (hl : Literal text ts) (h : ∀ t ∈ value, isValue t = true) :
    ∀ t ∈ fillTokens ts value, isValue t = true := by
  intro t ht
  obtain ⟨u, hu, htu⟩ := List.mem_flatMap.mp ht
  cases u with
  | hole => exact (hl.plain t htu).1
  | _ =>
    obtain rfl := List.mem_singleton.mp htu
    exact h _ hu

theorem any_fillTokens (hl : Literal text ts) : .any ∈ fillTokens ts value ↔ .any ∈ value := by
  constructor
  · intro ht
    obtain ⟨u, hu, htu⟩ := List.mem_flatMap.mp ht
    cases u with
    | hole => exact absurd rfl (hl.plain _ htu).2.1
    | any => exact hu
    | _ => simp [Token.fill] at htu
  · intro ht
    exact List.mem_flatMap.mpr ⟨.any, ht, List.mem_singleton_self _⟩

theorem subst_octets (es : List Element) (bytes : List UInt8) :
    (bytes.map .octet).flatMap (Element.subst es) = bytes.map .octet := by
  induction bytes with
  | nil => rfl
  | cons b bytes ih =>
    rw [List.map_cons, List.flatMap_cons, ih]
    rfl

theorem elements_fillTokens : (fillTokens ts value).flatMap elements =
    (value.flatMap elements).flatMap (Element.subst (ts.flatMap elements)) := by
  induction value with
  | nil => rfl
  | cons t value ih =>
    cases t with
    | hole =>
      rw [fillTokens_hole, List.flatMap_append, ih, List.flatMap_cons, List.flatMap_append]
      exact congrArg (· ++ _) (List.append_nil _).symm
    | char c =>
      have hc : elements (.char c) = (String.utf8EncodeChar c).map .octet := rfl
      rw [fillTokens_cons (by simp), List.flatMap_cons, List.flatMap_cons, ih,
        List.flatMap_append, hc, subst_octets]
    | _ =>
      rw [fillTokens_cons (by simp), List.flatMap_cons, List.flatMap_cons, ih, List.flatMap_append]
      rfl

theorem build_fill {left : List Char} (hl : Literal text ts) (h : build left value = some f) :
    build left (fillTokens ts value) = some (f.subst (ts.flatMap elements)) := by
  simp only [build] at h ⊢
  split at h
  · next hc =>
    obtain rfl := Option.some.inj h
    simp only [any_fillTokens hl]
    rw [if_pos hc, elements_fillTokens, subst]
  · simp at h

/-- A match is an attribute description, an equals sign and a value. -/
theorem readItem_eq_some : readItem input = some (f, rest) ↔
    ∃ left value, input = left ++ .char '=' :: (value ++ .closing :: rest) ∧
      (∀ t ∈ left, (attrChar t).isSome = true) ∧ (∀ t ∈ value, isValue t = true) ∧
      build (left.filterMap attrChar) value = some f := by
  constructor
  · intro h
    rw [readItem] at h
    split at h
    · next right hright =>
      split at h
      · next rest' hrest =>
        obtain ⟨f', hf, heq⟩ := Option.map_eq_some_iff.mp h
        simp only [Prod.mk.injEq] at heq
        obtain ⟨rfl, rfl⟩ := heq
        refine ⟨_, _, ?_, fun t ht ↦ ?_,
          fun t ht ↦ List.mem_takeWhile_imp ht, hf⟩
        · rw [← hrest, List.takeWhile_append_dropWhile, ← hright, List.takeWhile_append_dropWhile]
        · exact List.mem_takeWhile_imp (p := fun t ↦ (attrChar t).isSome) ht
      · simp at h
    · simp at h
  · rintro ⟨left, value, rfl, hleft, hvalue, hf⟩
    have heq : (attrChar (.char '=')).isSome = false := rfl
    have hclose : isValue .closing = false := rfl
    rw [readItem, List.dropWhile_append_of_pos hleft, List.takeWhile_append_of_pos hleft,
      List.dropWhile_cons_of_neg (by simp [heq]), List.takeWhile_cons_of_neg (by simp [heq])]
    simp only [List.append_nil]
    rw [List.dropWhile_append_of_pos hvalue, List.takeWhile_append_of_pos hvalue,
      List.dropWhile_cons_of_neg (by simp [hclose]), List.takeWhile_cons_of_neg (by simp [hclose])]
    simp [hf]

theorem readItem_fill (hl : Literal text ts) (h : readItem input = some (f, rest)) :
    readItem (fillTokens ts input) =
      some (f.subst (ts.flatMap elements), fillTokens ts rest) := by
  obtain ⟨left, value, rfl, hleft, hvalue, hf⟩ := readItem_eq_some.mp h
  refine readItem_eq_some.mpr ⟨left, fillTokens ts value, ?_, hleft,
    fillTokens_value hl hvalue, build_fill hl hf⟩
  have hno : Token.hole ∉ left := fun hm ↦ by simpa [attrChar] using hleft _ hm
  rw [fillTokens_append, fillTokens_self hno, fillTokens_cons (by simp), fillTokens_append,
    fillTokens_cons (by simp)]

theorem close_eq_some {g : Filter} : close g input = some (f, rest) ↔
    input = .closing :: rest ∧ f = g := by
  rw [close.eq_def]
  split
  · simp [eq_comm, and_comm]
  · next hno => simp only [reduceCtorEq, false_iff]; exact fun h ↦ hno _ h.1

theorem close_fill {g : Filter} (h : close g input = some (f, rest)) (value : List Element) :
    close (g.subst value) (fillTokens ts input) = some (f.subst value, fillTokens ts rest) := by
  obtain ⟨rfl, rfl⟩ := close_eq_some.mp h
  exact close_eq_some.mpr ⟨fillTokens_cons (by simp), rfl⟩

theorem substs_isEmpty {es : List Element} : (substs es fs).isEmpty = fs.isEmpty := by
  cases fs <;> rfl

/-- A reader finds the same filters, with the literal in them. -/
def Fills (ts : List Token) (inner : Inner) : Prop :=
  ∀ input fs rest, inner input = some (fs, rest) →
    inner (fillTokens ts input) = some (substs (ts.flatMap elements) fs, fillTokens ts rest)

theorem several_fill {connective : List Filter → Filter} (hi : Fills ts inner)
    (hc : ∀ fs, (connective fs).subst (ts.flatMap elements) =
      connective (substs (ts.flatMap elements) fs))
    (h : several inner connective input = some (f, rest)) :
    several inner connective (fillTokens ts input) =
      some (f.subst (ts.flatMap elements), fillTokens ts rest) := by
  simp only [several, Option.bind_eq_bind, Option.bind_eq_some_iff, Prod.exists] at h
  obtain ⟨fs, after, hfs, h⟩ := h
  simp only [several, hi _ _ _ hfs, Option.bind_eq_bind, Option.bind_some, substs_isEmpty]
  split at h
  · simp at h
  · next hne =>
    rw [if_neg hne, ← hc]
    exact close_fill h _

theorem negated_fill (hi : Fills ts inner) (h : negated inner input = some (f, rest)) :
    negated inner (fillTokens ts input) =
      some (f.subst (ts.flatMap elements), fillTokens ts rest) := by
  simp only [negated, Option.bind_eq_bind, Option.bind_eq_some_iff, Prod.exists] at h
  obtain ⟨fs, after, hfs, h⟩ := h
  simp only [negated, hi _ _ _ hfs, Option.bind_eq_bind, Option.bind_some]
  split at h
  · exact close_fill h _
  · simp at h

/-- A match starts with the same token when its placeholders are filled. -/
theorem readItem_head (h : readItem input = some (f, rest)) :
    (fillTokens ts input).head? = input.head? := by
  obtain ⟨left, value, rfl, hleft, -⟩ := readItem_eq_some.mp h
  cases left with
  | nil => rfl
  | cons t left =>
    have hno : t ≠ .hole := fun heq ↦ by simpa [heq, attrChar] using hleft t (.head _)
    rw [List.cons_append, fillTokens_cons hno, List.head?_cons, List.head?_cons]

theorem component_item (h : ∀ c ∈ ['&', '|', '!'], input.head? ≠ some (.char c)) :
    component inner input = readItem input := by
  rw [component.eq_def]
  split
  · exact absurd rfl (h '&' (by simp))
  · exact absurd rfl (h '|' (by simp))
  · exact absurd rfl (h '!' (by simp))
  · rfl

theorem component_fill (hl : Literal text ts) (hi : Fills ts inner)
    (h : component inner input = some (f, rest)) :
    component inner (fillTokens ts input) =
      some (f.subst (ts.flatMap elements), fillTokens ts rest) := by
  rw [component.eq_def] at h
  split at h
  · rw [fillTokens_cons (by simp)]
    exact several_fill hi (fun _ ↦ rfl) h
  · rw [fillTokens_cons (by simp)]
    exact several_fill hi (fun _ ↦ rfl) h
  · rw [fillTokens_cons (by simp)]
    exact negated_fill hi h
  · next hand hor hnot =>
    rw [component_item, readItem_fill hl h]
    intro c hc heq
    rw [readItem_head h, List.head?_eq_some_iff] at heq
    obtain ⟨right, hright⟩ := heq
    simp only [List.mem_cons, List.not_mem_nil, or_false] at hc
    rcases hc with rfl | rfl | rfl
    · exact hand _ hright
    · exact hor _ hright
    · exact hnot _ hright

theorem filters_fill (hl : Literal text ts) (fuel : ℕ) : Fills ts (filters fuel) := by
  induction fuel with
  | zero => intro input fs rest h; simp [filters] at h
  | succ fuel ih =>
    intro input fs rest h
    cases input with
    | nil =>
      simp only [filters, Option.some.injEq, Prod.mk.injEq] at h
      obtain ⟨rfl, rfl⟩ := h
      rfl
    | cons t input =>
      cases t with
      | opening =>
        simp only [filters, Option.bind_eq_bind, Option.bind_eq_some_iff, Option.some.injEq,
          Prod.mk.injEq, Prod.exists] at h
        obtain ⟨f, after, hf, fs, rest, hfs, rfl, rfl⟩ := h
        rw [fillTokens_cons (by simp)]
        simp [filters, component_fill hl ih hf, ih _ _ _ hfs, substs]
      | closing =>
        simp only [filters, Option.some.injEq, Prod.mk.injEq] at h
        obtain ⟨rfl, rfl⟩ := h
        rw [fillTokens_cons (by simp)]
        rfl
      | _ => simp [filters] at h

theorem count_fillTokens (hl : Literal text ts) :
    (fillTokens ts input).count .opening = input.count .opening := by
  have hno : ts.count .opening = 0 :=
    List.count_eq_zero.mpr fun hm ↦ by simpa [isValue] using (hl.plain _ hm).1
  induction input with
  | nil => rfl
  | cons t input ih =>
    cases t with
    | hole => rw [fillTokens_hole, List.count_append, hno, ih, Nat.zero_add,
        List.count_cons_of_ne (by simp)]
    | _ => rw [fillTokens_cons (by simp), List.count_cons, List.count_cons, ih]

/-- A template whose placeholders are filled with a literal is read as its filter
with the value of the literal in their place. -/
theorem parse_fill (hl : Literal text ts) (h : parse ps = some f) :
    parse ((fill text ps).map .char) = some (f.subst (ts.flatMap elements)) := by
  simp only [parse, Option.bind_eq_bind, Option.bind_eq_some_iff, Prod.exists] at h
  obtain ⟨input, hinput, fs, rest, hfs, h⟩ := h
  split at h
  · next filter =>
    obtain rfl := Option.some.inj h
    simp only [parse, tokens_fill hl hinput, count_fillTokens hl, filters_fill hl _ _ _ _ hfs,
      Option.bind_eq_bind, Option.bind_some, substs, fillTokens_nil]
  · simp at h

end Filling

section Parentheses

theorem tokens_nil (h : tokens ps = some []) : ps = [] := by
  fun_cases tokens ps with
  | case1 => rfl
  | case2 pieces => simp [tokens] at h
  | case3 high low pieces => simp [tokens, Option.bind_eq_some_iff] at h
  | case4 pieces hno => simp [tokens] at h
  | case5 c pieces hc => simp [tokens_char hc, Option.bind_eq_some_iff] at h

theorem token_closing {c : Char} (h : token c = some .closing) : c = ')' := by
  rw [token] at h
  split at h
  · simp at h
  split at h
  · assumption
  split at h
  · simp at h
  split at h <;> simp at h

theorem token_opening {c : Char} (h : token c = some .opening) : c = '(' := by
  rw [token] at h
  split at h
  · assumption
  split at h
  · simp at h
  split at h
  · simp at h
  split at h <;> simp at h

theorem getLast?_cons_of_some {α : Type} {a b : α} {as : List α} (h : as.getLast? = some b) :
    (a :: as).getLast? = some b := by
  rw [List.getLast?_cons, h, Option.getD_some]

theorem getLast?_of_cons {α : Type} {a b : α} {as : List α} (h : (a :: as).getLast? = some b) :
    as.getLast? = some b ∨ as = [] ∧ a = b := by
  rw [List.getLast?_cons, Option.some.injEq] at h
  cases hlast : as.getLast? with
  | none => exact .inr ⟨List.getLast?_eq_none_iff.mp hlast, by simpa [hlast] using h⟩
  | some c => exact .inl (by simpa [hlast] using h)

theorem tokens_last (h : tokens ps = some input) (hlast : input.getLast? = some .closing) :
    ps.getLast? = some (.char ')') := by
  fun_induction tokens ps generalizing input with
  | case1 =>
    obtain rfl := Option.some.inj h
    simp at hlast
  | case2 pieces ih =>
    obtain ⟨rest, hrest, rfl⟩ := Option.map_eq_some_iff.mp h
    rcases getLast?_of_cons hlast with hlast | ⟨-, heq⟩
    · exact getLast?_cons_of_some (ih hrest hlast)
    · simp at heq
  | case3 high low pieces ih =>
    simp only [Option.bind_eq_bind, Option.bind_eq_some_iff, Option.some.injEq] at h
    obtain ⟨hi, hhi, lo, hlo, rest, hrest, rfl⟩ := h
    rcases getLast?_of_cons hlast with hlast | ⟨-, heq⟩
    · exact getLast?_cons_of_some (getLast?_cons_of_some (getLast?_cons_of_some (ih hrest hlast)))
    · simp at heq
  | case4 pieces hno => simp at h
  | case5 c pieces hc ih =>
    simp only [Option.bind_eq_bind, Option.bind_eq_some_iff, Option.some.injEq] at h
    obtain ⟨head, hhead, rest, hrest, rfl⟩ := h
    rcases getLast?_of_cons hlast with hlast | ⟨rfl, rfl⟩
    · exact getLast?_cons_of_some (ih hrest hlast)
    · rw [tokens_nil hrest, token_closing hhead]
      rfl

theorem tokens_head {right : List Token} (h : tokens ps = some (.opening :: right)) :
    ps.head? = some (.char '(') := by
  fun_cases tokens ps with
  | case1 => simp [tokens] at h
  | case2 pieces => simp [tokens] at h
  | case3 high low pieces => simp [tokens, Option.bind_eq_some_iff] at h
  | case4 pieces hno => simp [tokens] at h
  | case5 c pieces hc =>
    simp only [tokens_char hc, Option.bind_eq_some_iff, Option.map_eq_some_iff, List.cons.injEq] at h
    obtain ⟨head, hhead, rest, -, rfl, -⟩ := h
    rw [token_opening hhead]
    rfl

/-- What is left is the end of what was given. -/
def Stops (inner : Inner) : Prop :=
  ∀ input fs rest, inner input = some (fs, rest) → ∃ read, input = read ++ rest

theorem closed (hi : Stops inner) {after : List Token} (hfs : inner input = some (fs, after))
    {g : Filter} (h : close g after = some (f, rest)) : ∃ read, input = read ++ .closing :: rest := by
  obtain ⟨read, rfl⟩ := hi _ _ _ hfs
  obtain ⟨rfl, -⟩ := close_eq_some.mp h
  exact ⟨read, rfl⟩

theorem several_stops {connective : List Filter → Filter} (hi : Stops inner)
    (h : several inner connective input = some (f, rest)) :
    ∃ read, input = read ++ .closing :: rest := by
  simp only [several, Option.bind_eq_bind, Option.bind_eq_some_iff, Prod.exists] at h
  obtain ⟨fs, after, hfs, h⟩ := h
  split at h
  · simp at h
  · exact closed hi hfs h

theorem component_stops (hi : Stops inner) (h : component inner input = some (f, rest)) :
    ∃ read, input = read ++ .closing :: rest := by
  rw [component.eq_def] at h
  split at h
  · obtain ⟨read, rfl⟩ := several_stops hi h
    exact ⟨_ :: read, rfl⟩
  · obtain ⟨read, rfl⟩ := several_stops hi h
    exact ⟨_ :: read, rfl⟩
  · simp only [negated, Option.bind_eq_bind, Option.bind_eq_some_iff, Prod.exists] at h
    obtain ⟨fs, after, hfs, h⟩ := h
    split at h
    · obtain ⟨read, rfl⟩ := closed hi hfs h
      exact ⟨_ :: read, rfl⟩
    · simp at h
  · obtain ⟨left, value, rfl, -⟩ := readItem_eq_some.mp h
    exact ⟨left ++ .char '=' :: value, by simp⟩

theorem filters_stops (fuel : ℕ) : Stops (filters fuel) := by
  induction fuel with
  | zero => intro input fs rest h; simp [filters] at h
  | succ fuel ih =>
    intro input fs rest h
    rw [filters.eq_def] at h
    split at h
    · simp at h
    · next heq =>
      obtain rfl := Nat.succ.inj heq
      simp only [Option.bind_eq_bind, Option.bind_eq_some_iff, Option.some.injEq, Prod.mk.injEq,
        Prod.exists] at h
      obtain ⟨f, after, hf, fs', rest', hfs, -, rfl⟩ := h
      obtain ⟨read, rfl⟩ := component_stops ih hf
      obtain ⟨read', rfl⟩ := ih _ _ _ hfs
      exact ⟨.opening :: (read ++ .closing :: read'), by simp⟩
    · simp only [Option.some.injEq, Prod.mk.injEq] at h
      exact ⟨[], h.2⟩
    · simp only [Option.some.injEq, Prod.mk.injEq] at h
      exact ⟨[], h.2⟩
    · simp at h

theorem filters_none (h : filters fuel input = some ([], rest)) : rest = input := by
  rw [filters.eq_def] at h
  split at h
  · simp at h
  · simp [Option.bind_eq_some_iff] at h
  · simp only [Option.some.injEq, Prod.mk.injEq] at h
    exact h.2.symm
  · simp only [Option.some.injEq, Prod.mk.injEq] at h
    exact h.2.symm
  · simp at h

/-- A filter stands in parentheses. -/
theorem parse_parentheses (h : parse ps = some f) :
    ps.head? = some (.char '(') ∧ ps.getLast? = some (.char ')') := by
  simp only [parse, Option.bind_eq_bind, Option.bind_eq_some_iff, Prod.exists] at h
  obtain ⟨input, hinput, fs, rest, hfs, h⟩ := h
  split at h
  · rw [filters.eq_def] at hfs
    split at hfs
    · simp at hfs
    · next right _ _ =>
      simp only [Option.bind_eq_bind, Option.bind_eq_some_iff, Option.some.injEq, Prod.mk.injEq,
        List.cons.injEq, Prod.exists] at hfs
      obtain ⟨f, after, hf, fs, rest, hfs, ⟨-, rfl⟩, rfl⟩ := hfs
      obtain rfl := filters_none hfs
      obtain ⟨read, rfl⟩ := component_stops (filters_stops _) hf
      refine ⟨tokens_head hinput, tokens_last hinput ?_⟩
      rw [← List.cons_append, List.getLast?_concat]
    · simp at hfs
    · simp at hfs
    · simp at hfs
  · simp at h

end Parentheses

end Filter

end RustdeskConsole.Directory
