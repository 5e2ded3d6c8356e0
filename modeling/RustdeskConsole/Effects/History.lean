import Mathlib.Data.List.Infix

namespace RustdeskConsole.Effects.History

variable {ε : Type} {P Q R : ε → Prop} {e : ε} {h h' : List ε}

/-- In a history, whose newest event comes first, no `Q` ever follows a `P`. -/
def Unfollowed (P Q : ε → Prop) (h : List ε) : Prop :=
  ∀ e earlier, e :: earlier <:+ h → Q e → ∀ p ∈ earlier, ¬P p

/-- Every `P` comes after some `Q`. -/
def Preceded (P Q : ε → Prop) (h : List ε) : Prop :=
  ∀ earlier, earlier <:+ h → (∃ p ∈ earlier, P p) → ∃ q ∈ earlier, Q q

theorem forall_suffix_cons {T : ε → List ε → Prop} :
    (∀ p earlier, p :: earlier <:+ e :: h → T p earlier) ↔
      T e h ∧ ∀ p earlier, p :: earlier <:+ h → T p earlier := by
  constructor
  · intro hT
    exact ⟨hT e h List.suffix_rfl, fun p earlier hs ↦ hT p earlier (hs.trans (List.suffix_cons ..))⟩
  · intro ⟨he, hT⟩ p earlier hs
    rcases List.suffix_cons_iff.mp hs with heq | hs
    · obtain ⟨rfl, rfl⟩ := List.cons_eq_cons.mp heq
      exact he
    · exact hT p earlier hs

theorem exists_suffix_of_mem (he : e ∈ h) : ∃ earlier, e :: earlier <:+ h := by
  obtain ⟨later, earlier, rfl⟩ := List.append_of_mem he
  exact ⟨earlier, later, rfl⟩

theorem mem_of_suffix (hs : e :: h <:+ h') : e ∈ h' := hs.subset (.head _)

theorem unfollowed_cons :
    Unfollowed P Q (e :: h) ↔ (Q e → ∀ p ∈ h, ¬P p) ∧ Unfollowed P Q h :=
  forall_suffix_cons

theorem Unfollowed.of_not_mem (hP : ∀ p ∈ h, ¬P p) : Unfollowed P Q h := by
  intro e earlier hs _ p hp
  exact hP p (hs.subset (.tail _ hp))

theorem Preceded.mono (hP : Preceded P Q h) (hs : h <:+ h') (hh : ∀ p ∈ h', P p → p ∈ h) :
    Preceded P Q h' := by
  intro earlier he ⟨p, hp, hpp⟩
  have hph : p ∈ h := hh p (he.subset hp) hpp
  rcases List.suffix_or_suffix_of_suffix he hs with hsub | hsub
  · exact hP earlier hsub ⟨p, hp, hpp⟩
  · obtain ⟨q, hq, hqq⟩ := hP h List.suffix_rfl ⟨p, hph, hpp⟩
    exact ⟨q, hsub.subset hq, hqq⟩

theorem preceded_cons (hq : ∃ q ∈ h, Q q) (hP : ∀ p ∈ h, ¬P p) : Preceded P Q (e :: h) := by
  intro earlier he ⟨p, hp, hpp⟩
  rcases List.suffix_cons_iff.mp he with rfl | he
  · obtain ⟨q, hq, hqq⟩ := hq
    exact ⟨q, .tail _ hq, hqq⟩
  · exact absurd hpp (hP p (he.subset hp))

/-- What never follows a `Q` never follows anything that comes after one. -/
theorem Preceded.unfollowed (hP : Preceded P Q h) (hQ : Unfollowed Q R h) : Unfollowed P R h := by
  intro e earlier hs hR p hp hpp
  obtain ⟨q, hq, hqq⟩ := hP earlier ((List.suffix_cons ..).trans hs) ⟨p, hp, hpp⟩
  exact hQ e earlier hs hR q hq hqq

/-- A `P` stands: it came when `P` let it, and no `Q` has come since. -/
def Standing (P : ε → List ε → Prop) (Q : ε → Prop) (h : List ε) : Prop :=
  ∃ later e earlier, h = later ++ e :: earlier ∧ P e earlier ∧ ∀ q ∈ later, ¬Q q

theorem standing_cons {P : ε → List ε → Prop} :
    Standing P Q (e :: h) ↔ P e h ∨ ¬Q e ∧ Standing P Q h := by
  constructor
  · rintro ⟨later, p, earlier, heq, hp, hq⟩
    rcases List.cons_eq_append_iff.mp heq with ⟨rfl, heq⟩ | ⟨later, rfl, rfl⟩
    · obtain ⟨rfl, rfl⟩ := List.cons_eq_cons.mp heq
      exact .inl hp
    · exact .inr ⟨hq e (.head _), later, p, earlier, rfl, hp, fun q hm ↦ hq q (.tail _ hm)⟩
  · rintro (hp | ⟨he, later, p, earlier, rfl, hp, hq⟩)
    · exact ⟨[], e, h, rfl, hp, nofun⟩
    · exact ⟨e :: later, p, earlier, rfl, hp, List.forall_mem_cons.mpr ⟨he, hq⟩⟩

/-- The events that came after `e`. -/
def Since (e : ε) (later h : List ε) : Prop := ∃ earlier, h = later ++ e :: earlier

theorem since_cons {a : ε} {later : List ε} :
    Since e later (a :: h) ↔ (later = [] ∧ e = a) ∨ ∃ l, later = a :: l ∧ Since e l h := by
  constructor
  · intro ⟨earlier, heq⟩
    rcases List.cons_eq_append_iff.mp heq with ⟨rfl, heq⟩ | ⟨l, rfl, rfl⟩
    · exact .inl ⟨rfl, (List.cons_eq_cons.mp heq).1.symm⟩
    · exact .inr ⟨l, rfl, earlier, rfl⟩
  · rintro (⟨rfl, rfl⟩ | ⟨l, rfl, earlier, rfl⟩)
    · exact ⟨h, rfl⟩
    · exact ⟨earlier, rfl⟩

theorem exists_since (he : e ∈ h) : ∃ later, Since e later h := by
  obtain ⟨later, earlier, rfl⟩ := List.append_of_mem he
  exact ⟨later, earlier, rfl⟩

theorem Since.mem {later : List ε} (hs : Since e later h) : e ∈ h := by
  obtain ⟨earlier, rfl⟩ := hs
  exact List.mem_append_right _ (.head _)

/-- Each event of the history was allowed by what had come before it. -/
def Lawful (law : List ε → ε → Prop) (h : List ε) : Prop :=
  ∀ e earlier, e :: earlier <:+ h → law earlier e

section Law

variable {law : List ε → ε → Prop}

theorem lawful_nil : Lawful law [] := by
  intro e earlier hs
  cases List.suffix_nil.mp hs

theorem lawful_cons : Lawful law (e :: h) ↔ law h e ∧ Lawful law h := forall_suffix_cons

theorem Lawful.of_suffix (hl : Lawful law h') (hs : h <:+ h') : Lawful law h :=
  fun e earlier he ↦ hl e earlier (he.trans hs)

theorem Lawful.of_mem (hl : Lawful law h) (he : e ∈ h) : ∃ earlier, e :: earlier <:+ h ∧
    law earlier e := by
  obtain ⟨earlier, hs⟩ := exists_suffix_of_mem he
  exact ⟨earlier, hs, hl e earlier hs⟩

/-- An event that the law allows only when no `P` has come is not preceded by one. -/
theorem Lawful.unfollowed (hl : Lawful law h)
    (hlaw : ∀ earlier e, law earlier e → Q e → ∀ p ∈ earlier, ¬P p) : Unfollowed P Q h :=
  fun e earlier hs hq ↦ hlaw earlier e (hl e earlier hs) hq

end Law

/-- The history grew, and by events of `P` only. -/
structure Adds (P : ε → Prop) (h h' : List ε) : Prop where
  suffix : h <:+ h'
  new : ∀ e ∈ h', e ∈ h ∨ P e

namespace Adds

variable {h'' : List ε}

theorem refl (h : List ε) : Adds P h h := ⟨List.suffix_rfl, fun _ he ↦ .inl he⟩

theorem trans (ha : Adds P h h') (ha' : Adds P h' h'') : Adds P h h'' where
  suffix := ha.suffix.trans ha'.suffix
  new e he := by
    rcases ha'.new e he with he | hp
    · exact ha.new e he
    · exact .inr hp

theorem mono (ha : Adds P h h') (hPQ : ∀ e, P e → Q e) : Adds Q h h' :=
  ⟨ha.suffix, fun e he ↦ (ha.new e he).imp_right (hPQ e)⟩

theorem cons (ha : Adds P h h') (hp : P e) : Adds P h (e :: h') where
  suffix := ha.suffix.trans (List.suffix_cons ..)
  new e' he := by
    rcases List.mem_cons.mp he with rfl | he
    · exact .inr hp
    · exact ha.new e' he

theorem mem (ha : Adds P h h') (he : e ∈ h) : e ∈ h' := ha.suffix.subset he

theorem not_mem (ha : Adds P h h') (hn : e ∉ h) (hp : ¬P e) : e ∉ h' := by
  intro he
  rcases ha.new e he with he | he
  · exact hn he
  · exact hp he

end Adds

/-- The history grew, and everything that was added is a `P`. -/
def Grown (P : ε → Prop) (h h' : List ε) : Prop := ∃ later, h' = later ++ h ∧ ∀ e ∈ later, P e

namespace Grown

variable {h'' earlier : List ε}

theorem refl (h : List ε) : Grown P h h := ⟨[], rfl, nofun⟩

theorem trans (hg : Grown P h h') (hg' : Grown P h' h'') : Grown P h h'' := by
  obtain ⟨l, rfl, hl⟩ := hg
  obtain ⟨l', rfl, hl'⟩ := hg'
  refine ⟨l' ++ l, (List.append_assoc ..).symm, fun e he ↦ ?_⟩
  rcases List.mem_append.mp he with he | he
  · exact hl' e he
  · exact hl e he

theorem mono (hg : Grown P h h') (hPQ : ∀ e, P e → Q e) : Grown Q h h' := by
  obtain ⟨later, heq, hl⟩ := hg
  exact ⟨later, heq, fun e he ↦ hPQ e (hl e he)⟩

theorem cons (hg : Grown P h h') (hp : P e) : Grown P h (e :: h') := by
  obtain ⟨later, rfl, hl⟩ := hg
  exact ⟨e :: later, rfl, List.forall_mem_cons.mpr ⟨hp, hl⟩⟩

theorem suffix (hg : Grown P h h') : h <:+ h' := by
  obtain ⟨later, rfl, -⟩ := hg
  exact List.suffix_append ..

/-- What is not a `P` was there before, at its place. -/
theorem suffix_of (hg : Grown P h h') (he : ¬P e) (hs : e :: earlier <:+ h') :
    e :: earlier <:+ h := by
  obtain ⟨later, rfl, hl⟩ := hg
  induction later with
  | nil => exact hs
  | cons a later ih =>
    rcases List.suffix_cons_iff.mp hs with heq | hold
    · exact absurd ((List.cons_eq_cons.mp heq).1 ▸ hl a (.head _)) he
    · exact ih (fun e hm ↦ hl e (.tail _ hm)) hold

end Grown

section Own

variable {ι α : Type} {i : ι} {P Q : α → Prop} {h h' : List (ι × α)} {a : α}

/-- Everything that the thread left in the history is a `P`. -/
def Own (i : ι) (P : α → Prop) (h : List (ι × α)) : Prop := ∀ a, (i, a) ∈ h → P a

namespace Own

theorem still (ho : Own i P h) (hs : Adds (fun e ↦ e.1 = i → Q e.2) h h') (hP : ∀ a, Q a → P a) :
    Own i P h' := by
  intro a ha
  rcases hs.new _ ha with ha | hq
  · exact ho a ha
  · exact hP a (hq rfl)

theorem grow (ho : Own i P h) (ha : Adds (fun e ↦ e.1 = i → P e.2) h h') : Own i P h' :=
  ho.still ha fun _ ↦ id

theorem others (ho : Own i P h) (ha : Adds (fun e ↦ e.1 ≠ i) h h') : Own i P h' :=
  ho.grow (ha.mono fun _ hne heq ↦ absurd heq hne)

theorem note (ho : Own i P h) (ha : P a) : Own i P ((i, a) :: h) :=
  ho.grow ((Adds.refl h).cons fun _ ↦ ha)

theorem mono (ho : Own i P h) (hPQ : ∀ a, P a → Q a) : Own i Q h := fun a ha ↦ hPQ a (ho a ha)

end Own

section Awaiting

variable {ι α : Type} {i j : ι} {a b : α} {Q : α → Prop} {h : List (ι × α)}

/-- The thread left `a` in the history, and no `Q`. -/
def Awaiting (i : ι) (a : α) (Q : α → Prop) (h : List (ι × α)) : Prop :=
  (i, a) ∈ h ∧ ∀ q, Q q → (i, q) ∉ h

theorem awaiting_cons : Awaiting i a Q ((j, b) :: h) ↔
    (Awaiting i a Q h ∨ (i = j ∧ a = b ∧ ∀ q, Q q → (i, q) ∉ h)) ∧ ¬(i = j ∧ Q b) := by
  constructor
  · intro ⟨hm, hn⟩
    have hn' : ∀ q, Q q → (i, q) ∉ h := fun q hq hp ↦ hn q hq (.tail _ hp)
    refine ⟨?_, fun ⟨hij, hb⟩ ↦ hn b hb (hij ▸ .head _)⟩
    rcases List.mem_cons.mp hm with heq | hm
    · obtain ⟨hij, hab⟩ := Prod.mk.inj heq
      exact .inr ⟨hij, hab, hn'⟩
    · exact .inl ⟨hm, hn'⟩
  · intro ⟨hor, hn⟩
    have hno : (∀ q, Q q → (i, q) ∉ h) → ∀ q, Q q → (i, q) ∉ (j, b) :: h := by
      intro hall q hq hm
      rcases List.mem_cons.mp hm with heq | hm
      · obtain ⟨hij, hqb⟩ := Prod.mk.inj heq
        exact hn ⟨hij, hqb ▸ hq⟩
      · exact hall q hq hm
    rcases hor with ⟨hm, hp⟩ | ⟨rfl, rfl, hp⟩
    · exact ⟨.tail _ hm, hno hp⟩
    · exact ⟨.head _, hno hp⟩

theorem awaiting_of_ne (hab : a ≠ b) (hb : ¬Q b) :
    Awaiting i a Q ((j, b) :: h) ↔ Awaiting i a Q h := by
  rw [awaiting_cons]
  constructor
  · rintro ⟨ha | ⟨-, he, -⟩, -⟩
    · exact ha
    · exact absurd he hab
  · exact fun ha ↦ ⟨.inl ha, fun hc ↦ hb hc.2⟩

theorem awaiting_settled (hab : a ≠ b) (hb : Q b) :
    Awaiting i a Q ((j, b) :: h) ↔ i ≠ j ∧ Awaiting i a Q h := by
  rw [awaiting_cons]
  constructor
  · rintro ⟨ha | ⟨-, he, -⟩, hn⟩
    · exact ⟨fun hij ↦ hn ⟨hij, hb⟩, ha⟩
    · exact absurd he hab
  · exact fun ⟨hij, ha⟩ ↦ ⟨.inl ha, fun hc ↦ hij hc.1⟩

end Awaiting

end Own

/-- At most one event of the history is a `P`. -/
def AtMostOnce (P : ε → Prop) (h : List ε) : Prop := Unfollowed P P h

theorem AtMostOnce.eq (ho : AtMostOnce P h) {e e' : ε} (he : e ∈ h) (he' : e' ∈ h) (hp : P e)
    (hp' : P e') : e = e' := by
  induction h with
  | nil => cases he
  | cons a h ih =>
    obtain ⟨ha, ho⟩ := unfollowed_cons.mp ho
    rcases List.mem_cons.mp he with rfl | hm <;> rcases List.mem_cons.mp he' with rfl | hm'
    · rfl
    · exact absurd hp' (ha hp e' hm')
    · exact absurd hp (ha hp' e hm)
    · exact ih ho hm hm'

theorem AtMostOnce.countP_le_one [DecidablePred P] (ho : AtMostOnce P h) : h.countP P ≤ 1 := by
  induction h with
  | nil => exact Nat.zero_le _
  | cons a h ih =>
    obtain ⟨ha, ho⟩ := unfollowed_cons.mp ho
    rw [List.countP_cons]
    split
    · rename_i hp
      have hz : h.countP P = 0 := by
        rw [List.countP_eq_zero]
        intro p hm
        simpa using ha (of_decide_eq_true hp) p hm
      omega
    · exact ih ho

end RustdeskConsole.Effects.History
