import Mathlib.Data.List.Infix
import RustdeskConsole.Effects.History
import RustdeskConsole.Strategies.Coherence

namespace RustdeskConsole.Strategies

open Effects.History
open Devices (truthy)

variable {h h' earlier : History} {i j : ℕ} {e : Event} {db : Database} {uuid : String}
  {result : Option Strategy} {V V' : List Database}

/-- The tables as an operation left them, and all versions that came after. -/
def versionsSince (operation : ℕ) : History → List Database
  | [] => []
  | (j, .committed db) :: h =>
    if j = operation ∨ versionsSince operation h ≠ [] then db :: versionsSince operation h else []
  | _ :: h => versionsSince operation h

theorem mem_versionsSince_cons (hm : db ∈ versionsSince i h) : db ∈ versionsSince i ((j, e) :: h) := by
  cases e with
  | committed db' =>
    rw [versionsSince, if_pos (.inr (List.ne_nil_of_mem hm))]
    exact .tail _ hm
  | loaded => exact hm
  | cleared => exact hm
  | stored => exact hm
  | answered => exact hm

theorem versionsSince_suffix (hs : h <:+ h') (hm : db ∈ versionsSince i h) :
    db ∈ versionsSince i h' := by
  obtain ⟨later, rfl⟩ := hs
  induction later with
  | nil => exact hm
  | cons e later ih => exact mem_versionsSince_cons ih

theorem versionsSince_of_committed (hm : (i, .committed db) ∈ h) : versionsSince i h ≠ [] := by
  obtain ⟨earlier, hs⟩ := exists_suffix_of_mem hm
  have hd : db ∈ versionsSince i ((i, .committed db) :: earlier) := by
    rw [versionsSince, if_pos (.inl rfl)]
    exact .head _
  exact List.ne_nil_of_mem (versionsSince_suffix hs hd)

/-- What a lookup resolves that reads the device, its user and its group from
three versions of the tables. -/
def mixed (db₁ db₂ db₃ : Database) (uuid : String) : Option Strategy :=
  (db₁.peer uuid).bind fun peer ↦
    ((db₁.strategyOf peer.strategyGuid).or ((truthy peer.userGuid).bind db₂.userStrategy)).or
      ((truthy peer.deviceGroupGuid).bind db₃.groupStrategy)

/-- The result comes from these versions and from no others. -/
def ResolvesFrom (V : List Database) (uuid : String) (result : Option Strategy) : Prop :=
  ∃ db₁ ∈ V, ∃ db₂ ∈ V, ∃ db₃ ∈ V, result = mixed db₁ db₂ db₃ uuid

theorem ResolvesFrom.mono (hr : ResolvesFrom V uuid result) (hV : ∀ db ∈ V, db ∈ V') :
    ResolvesFrom V' uuid result := by
  obtain ⟨db₁, h₁, db₂, h₂, db₃, h₃, heq⟩ := hr
  exact ⟨db₁, hV _ h₁, db₂, hV _ h₂, db₃, hV _ h₃, heq⟩

/-- A lookup is answered from what the tables have been since each operation
that had returned when it started. -/
def FreshAnswers (h : History) : Prop :=
  ∀ i uuid earlier result, (i, .loaded uuid) :: earlier <:+ h → (i, .answered result) ∈ h →
    ∀ operation, (operation, .cleared) ∈ earlier →
      ResolvesFrom (versionsSince operation h) uuid result

/-- Every operation that has returned when a lookup stores its result had
committed when the lookup began to read. -/
def TimelyStores (h : History) : Prop :=
  ∀ i uuid stored, (i, .stored uuid) :: stored <:+ h →
    ∀ uuid' earlier, (i, .loaded uuid') :: earlier <:+ stored →
      ∀ operation, (operation, .cleared) ∈ stored → ∃ db, (operation, .committed db) ∈ earlier

theorem TimelyStores.of_suffix (ht : TimelyStores h') (hs : h <:+ h') : TimelyStores h :=
  fun i uuid stored hst ↦ ht i uuid stored (hst.trans hs)

instance : Decidable (ResolvesFrom V uuid result) :=
  inferInstanceAs (Decidable (∃ db₁ ∈ V, ∃ db₂ ∈ V, ∃ db₃ ∈ V, result = mixed db₁ db₂ db₃ uuid))

def committedBy (i : ℕ) : ℕ × Event → Bool
  | (j, .committed _) => j = i
  | _ => false

theorem any_committedBy : h.any (committedBy i) = true ↔ ∃ db, (i, .committed db) ∈ h := by
  rw [List.any_eq_true]
  constructor
  · intro ⟨⟨j, e⟩, hm, he⟩
    cases e with
    | committed db =>
      obtain rfl := of_decide_eq_true he
      exact ⟨db, hm⟩
    | _ => cases he
  · intro ⟨db, hm⟩
    exact ⟨_, hm, decide_eq_true rfl⟩

/-- Whether each operation that has returned satisfies `p`. -/
def allCleared (p : ℕ → Bool) (h : History) : Bool :=
  h.all fun
    | (operation, .cleared) => p operation
    | _ => true

theorem allCleared_iff {p : ℕ → Bool} :
    allCleared p h = true ↔ ∀ operation, (operation, .cleared) ∈ h → p operation = true := by
  rw [allCleared, List.all_eq_true]
  constructor
  · exact fun hall operation hm ↦ hall _ hm
  · intro hall ⟨operation, e⟩ hm
    cases e with
    | cleared => exact hall operation hm
    | _ => rfl

/-- Whether what a thread loaded in the history satisfies `p`. -/
def allLoaded (p : ℕ → String → History → Bool) (h : History) : Bool :=
  h.tails.all fun
    | (i, .loaded uuid) :: earlier => p i uuid earlier
    | _ => true

theorem allLoaded_iff {p : ℕ → String → History → Bool} : allLoaded p h = true ↔
    ∀ i uuid earlier, (i, .loaded uuid) :: earlier <:+ h → p i uuid earlier = true := by
  rw [allLoaded, List.all_eq_true]
  constructor
  · exact fun hall i uuid earlier hs ↦ hall _ ((List.mem_tails _ _).mpr hs)
  · intro hall t hm
    match t with
    | [] => rfl
    | (i, e) :: earlier =>
      cases e with
      | loaded uuid => exact hall i uuid earlier ((List.mem_tails _ _).mp hm)
      | _ => rfl

def timelyStores (h : History) : Bool :=
  h.tails.all fun
    | (i, .stored _) :: stored => allLoaded (fun j _ earlier ↦
        j ≠ i || allCleared (fun operation ↦ earlier.any (committedBy operation)) stored) stored
    | _ => true

theorem timelyStores_iff : timelyStores h = true ↔ TimelyStores h := by
  rw [timelyStores, List.all_eq_true]
  constructor
  · intro hall i uuid stored hs uuid' earlier hl operation hc
    have hp := allLoaded_iff.mp (hall _ ((List.mem_tails _ _).mpr hs)) i uuid' earlier hl
    rw [Bool.or_eq_true] at hp
    rcases hp with hne | hp
    · simp at hne
    · exact any_committedBy.mp (allCleared_iff.mp hp operation hc)
  · intro ht t hm
    match t with
    | [] => rfl
    | (i, e) :: stored =>
      cases e with
      | stored uuid =>
        refine allLoaded_iff.mpr fun j uuid' earlier hl ↦ ?_
        by_cases hji : j = i
        · subst hji
          refine Bool.or_eq_true_iff.mpr (.inr (allCleared_iff.mpr fun operation hc ↦ ?_))
          exact any_committedBy.mpr (ht j uuid stored ((List.mem_tails _ _).mp hm) uuid' earlier hl
            operation hc)
        · simp [hji]
      | _ => rfl

instance : Decidable (TimelyStores h) := decidable_of_iff _ timelyStores_iff

def freshAnswers (h : History) : Bool :=
  allLoaded (fun i uuid earlier ↦ h.all fun
    | (j, .answered result) => j ≠ i || allCleared (fun operation ↦
        ResolvesFrom (versionsSince operation h) uuid result) earlier
    | _ => true) h

theorem freshAnswers_iff : freshAnswers h = true ↔ FreshAnswers h := by
  rw [freshAnswers, allLoaded_iff]
  constructor
  · intro hall i uuid earlier result hs hm operation hc
    have hp := List.all_eq_true.mp (hall i uuid earlier hs) _ hm
    rw [Bool.or_eq_true] at hp
    rcases hp with hne | hp
    · simp at hne
    · exact of_decide_eq_true (allCleared_iff.mp hp operation hc)
  · intro hf i uuid earlier hs
    refine List.all_eq_true.mpr fun ⟨j, e⟩ hm ↦ ?_
    cases e with
    | answered result =>
      by_cases hji : j = i
      · subst hji
        refine Bool.or_eq_true_iff.mpr (.inr (allCleared_iff.mpr fun operation hc ↦ ?_))
        exact decide_eq_true (hf j uuid earlier result hs hm operation hc)
      · simp [hji]
    | _ => rfl

instance : Decidable (FreshAnswers h) := decidable_of_iff _ freshAnswers_iff

/-- What one more event asks of the answers. -/
theorem freshAnswers_cons (hf : FreshAnswers h)
    (hl : ∀ uuid, e = .loaded uuid → ∀ event, (i, event) ∉ h)
    (ha : ∀ result, e = .answered result → ∀ uuid earlier, (i, .loaded uuid) :: earlier <:+ h →
      ∀ operation, (operation, .cleared) ∈ earlier →
        ResolvesFrom (versionsSince operation h) uuid result) : FreshAnswers ((i, e) :: h) := by
  intro j uuid earlier result hs hm operation hc
  refine ResolvesFrom.mono ?_ fun db ↦ mem_versionsSince_cons
  rcases List.suffix_cons_iff.mp hs with heq | hold
  · obtain ⟨hhead, rfl⟩ := List.cons_eq_cons.mp heq
    obtain ⟨rfl, rfl⟩ := Prod.mk.inj hhead
    rcases List.mem_cons.mp hm with heq | hm
    · cases heq
    · exact absurd hm (hl uuid rfl _)
  · rcases List.mem_cons.mp hm with heq | hm
    · obtain ⟨rfl, rfl⟩ := Prod.mk.inj heq
      exact ha result rfl uuid earlier hold operation hc
    · exact hf j uuid earlier result hold hm operation hc

/-- Every operation that has returned had committed before. -/
def Returned (h : History) : Prop :=
  ∀ operation earlier, (operation, .cleared) :: earlier <:+ h →
    ∃ db, (operation, .committed db) ∈ earlier

theorem returned_cons (hr : Returned h) (hc : e = .cleared → ∃ db, (i, .committed db) ∈ h) :
    Returned ((i, e) :: h) := by
  intro operation earlier hs
  rcases List.suffix_cons_iff.mp hs with heq | hold
  · obtain ⟨hhead, rfl⟩ := List.cons_eq_cons.mp heq
    obtain ⟨rfl, rfl⟩ := Prod.mk.inj hhead
    exact hc rfl
  · exact hr operation earlier hold

theorem Returned.versionsSince (hr : Returned h) (hs : earlier <:+ h)
    (hc : (i, .cleared) ∈ earlier) : versionsSince i earlier ≠ [] := by
  obtain ⟨before, hb⟩ := exists_suffix_of_mem hc
  obtain ⟨db, hm⟩ := hr i before (hb.trans hs)
  exact versionsSince_of_committed (hb.subset (.tail _ hm))

end RustdeskConsole.Strategies
