import RustdeskConsole.Effects.Logic
import RustdeskConsole.Strategies.Caches
import RustdeskConsole.Strategies.Service
import RustdeskConsole.Strategies.Versions

namespace RustdeskConsole.Strategies

open Collections Effects Effects.History

/-- Lookups, and the two operations that assign strategies. -/
def Request.concerned : Request → Bool
  | .findStrategyForDevice _ | .assignStrategy .. | .unassignStrategy .. => true
  | _ => false

section Protocol

variable {rows : List Strategy} {w w' : World} {i j : ℕ} {uuid guid : String} {db : Database}
  {result : Option Strategy}

def rowOf (rows : List Strategy) (guid : String) : Option Strategy :=
  rows.find? (·.guid = guid)

/-- The caches and the answers come from what the tables have been, over a table
of strategies that stays. -/
structure Kept (rows : List Strategy) (w : World) : Prop where
  strategies : w.db.strategies = rows
  versions : ∀ j db, (j, .committed db) ∈ w.history → db.strategies = rows
  current : ∀ operation, versionsSince operation w.history ≠ [] →
    w.db ∈ versionsSince operation w.history
  returned : Returned w.history
  objects : ∀ guid strategy, w.strategyObjectCache.get? guid = some strategy →
    rowOf rows guid = some strategy
  devices : ∀ uuid guid, w.deviceStrategyCache.get? uuid = some (some guid) →
    ∃ strategy, w.strategyObjectCache.get? guid = some strategy
  cached : TimelyStores w.history → ∀ uuid cached, w.deviceStrategyCache.get? uuid = some cached →
    ∀ operation, (operation, .cleared) ∈ w.history →
      ResolvesFrom (versionsSince operation w.history) uuid (cached.bind (rowOf rows))
  answers : TimelyStores w.history → FreshAnswers w.history

/-- What the lookup has found was read after it began. -/
def Found (h : History) (i : ℕ) (uuid : String) (result : Option Strategy) : Prop :=
  ∀ uuid' earlier, (i, .loaded uuid') :: earlier <:+ h → uuid' = uuid ∧
    ∀ operation, versionsSince operation earlier ≠ [] →
      ResolvesFrom (versionsSince operation h) uuid result

/-- A lookup may store what it has read, and answer what is fresh. -/
def guard (rows : List Strategy) (i : ℕ) : Command → World → Prop
  | .findStrategy _, _ | .findUser _, _ | .findDeviceGroup _, _ | .cachedStrategy _, _
  | .assign .., _ | .unassign .., _ => True
  | .findPeer _, w => ∀ event, (i, event) ∉ w.history
  | .cacheStrategy uuid result, w => Found w.history i uuid result ∧
      (∃ uuid earlier, (i, .loaded uuid) :: earlier <:+ w.history) ∧
      ∀ strategy, result = some strategy → rowOf rows strategy.guid = some strategy
  | .answer result, w => TimelyStores w.history → ∀ uuid earlier,
      (i, .loaded uuid) :: earlier <:+ w.history → ∀ operation, (operation, .cleared) ∈ earlier →
        ResolvesFrom (versionsSince operation w.history) uuid result
  | .invalidateDeviceStrategyCache none, w => ∃ db, (i, .committed db) ∈ w.history
  | _, _ => False

theorem versionsSince_noted {e : Event} {h : History} {operation : ℕ}
    (hn : ∀ db, e ≠ .committed db) :
    versionsSince operation ((i, e) :: h) = versionsSince operation h := by
  cases e with
  | committed db => exact absurd rfl (hn db)
  | loaded => rfl
  | cleared => rfl
  | stored => rfl
  | answered => rfl

/-- An event that neither commits nor clears leaves the caches as right as they were. -/
theorem Kept.noted {e : Event} (hk : Kept rows w) (hn : ∀ db, e ≠ .committed db) (hc : e ≠ .cleared)
    (ha : TimelyStores ((i, e) :: w.history) → FreshAnswers ((i, e) :: w.history)) :
    Kept rows (w.note i e) where
  strategies := hk.strategies
  versions j db hm := by
    rcases List.mem_cons.mp hm with heq | hm
    · exact absurd (Prod.mk.inj heq).2.symm (hn db)
    · exact hk.versions j db hm
  current operation hne := by
    rw [World.note, versionsSince_noted hn] at hne ⊢
    exact hk.current operation hne
  returned := returned_cons hk.returned fun heq ↦ absurd heq hc
  objects := hk.objects
  devices := hk.devices
  cached ht uuid cached hm operation hcleared := by
    rw [World.note, versionsSince_noted hn]
    refine hk.cached (ht.of_suffix (List.suffix_cons ..)) uuid cached hm operation ?_
    rcases List.mem_cons.mp hcleared with heq | hm
    · exact absurd (Prod.mk.inj heq).2.symm hc
    · exact hm
  answers := ha

theorem Kept.commit (hk : Kept rows w) (hs : db.strategies = rows) :
    Kept rows (w.commit i db) where
  strategies := hs
  versions j db' hm := by
    rcases List.mem_cons.mp hm with heq | hm
    · obtain ⟨-, he⟩ := Prod.mk.inj heq
      cases he
      exact hs
    · exact hk.versions j db' hm
  current operation hne := by
    rw [World.commit, World.note, versionsSince] at hne ⊢
    split at hne
    · next hor =>
      rw [if_pos hor]
      exact .head _
    · exact absurd rfl hne
  returned := returned_cons hk.returned nofun
  objects := hk.objects
  devices := hk.devices
  cached ht uuid cached hm operation hcleared := by
    refine (hk.cached (ht.of_suffix (List.suffix_cons ..)) uuid cached hm operation ?_).mono
      fun _ ↦ mem_versionsSince_cons
    rcases List.mem_cons.mp hcleared with heq | hm
    · cases heq
    · exact hm
  answers ht := freshAnswers_cons (hk.answers (ht.of_suffix (List.suffix_cons ..))) nofun nofun

theorem Kept.clear (hk : Kept rows w) (hc : ∃ db, (i, .committed db) ∈ w.history) :
    Kept rows (w.invalidateDeviceStrategyCache i none) where
  strategies := hk.strategies
  versions j db hm := by
    rcases List.mem_cons.mp hm with heq | hm
    · cases heq
    · exact hk.versions j db hm
  current := hk.current
  returned := returned_cons hk.returned fun _ ↦ hc
  objects := hk.objects
  devices _ _ hm := by cases hm
  cached _ _ _ hm := by cases hm
  answers ht := freshAnswers_cons (hk.answers (ht.of_suffix (List.suffix_cons ..))) nofun nofun

theorem history_cacheStrategy :
    (w.cacheStrategy i uuid result).history = (i, .stored uuid) :: w.history := by
  cases result <;> rfl

theorem Kept.store (hk : Kept rows w) (hf : Found w.history i uuid result)
    (hl : ∃ uuid earlier, (i, .loaded uuid) :: earlier <:+ w.history)
    (hr : ∀ strategy, result = some strategy → rowOf rows strategy.guid = some strategy) :
    Kept rows (w.cacheStrategy i uuid result) := by
  have hkept : Kept rows (w.note i (.stored uuid)) := by
    refine hk.noted nofun nofun fun ht ↦ ?_
    exact freshAnswers_cons (hk.answers (ht.of_suffix (List.suffix_cons ..))) nofun nofun
  have hh : (w.cacheStrategy i uuid result).history = (w.note i (.stored uuid)).history :=
    history_cacheStrategy
  refine ⟨?_, ?_, ?_, ?_, fun guid strategy hm ↦ ?_, fun uuid' guid hm ↦ ?_,
    fun ht uuid' cached hm operation hc ↦ ?_, ?_⟩
  · rw [World.db_cacheStrategy]
    exact hk.strategies
  · rw [hh]
    exact hkept.versions
  · rw [hh, World.db_cacheStrategy]
    exact hkept.current
  · rw [hh]
    exact hkept.returned
  · rcases World.get?_object_cacheStrategy.mp hm with ⟨heq, hg⟩ | ⟨-, hm⟩
    · rw [← hg]
      exact hr strategy heq
    · exact hk.objects guid strategy hm
  · rw [World.get?_device_cacheStrategy] at hm
    by_cases hg : ∃ row, result = some row ∧ row.guid = guid
    · obtain ⟨row, heq, hg⟩ := hg
      exact ⟨row, World.get?_object_cacheStrategy.mpr (.inl ⟨heq, hg⟩)⟩
    · split at hm
      · obtain ⟨row, heq, hg'⟩ := Option.map_eq_some_iff.mp (Option.some.inj hm)
        exact absurd ⟨row, heq, hg'⟩ hg
      · obtain ⟨strategy, ho⟩ := hk.devices uuid' guid hm
        refine ⟨strategy, World.get?_object_cacheStrategy.mpr (.inr ⟨fun row heq hg' ↦ ?_, ho⟩)⟩
        exact hg ⟨row, heq, hg'⟩
  · rw [hh] at ht hc ⊢
    rw [World.get?_device_cacheStrategy] at hm
    split at hm
    · next hu =>
      subst hu
      cases hm
      obtain ⟨uuid₀, earlier, hs⟩ := hl
      have hc : (operation, .cleared) ∈ w.history := by
        rcases List.mem_cons.mp hc with heq | hc
        · cases heq
        · exact hc
      obtain ⟨db, hm⟩ := ht i uuid' w.history List.suffix_rfl uuid₀ earlier hs operation hc
      have hresolves := (hf uuid₀ earlier hs).2 operation (versionsSince_of_committed hm)
      have hvalue : (result.map (·.guid)).bind (rowOf rows) = result := by
        cases hresult : result with
        | none => rfl
        | some strategy => exact hr strategy hresult
      rw [hvalue]
      exact hresolves
    · exact hkept.cached ht uuid' cached hm operation hc
  · rw [hh]
    exact hkept.answers

/-- What every other thread leaves of the history of this one. -/
def Others (i : ℕ) (w w' : World) : Prop := Grown (fun e ↦ e.1 ≠ i) w.history w'.history

theorem exec_grown {c : Command} (hg : guard rows j c w) (o : Choice) :
    Grown (fun e ↦ e.1 = j) w.history (exec j c o w).1.history := by
  cases c with
  | assign strategyGuid type targets =>
    rw [exec]
    dsimp only [World.assign, Prod.map]
    split
    · exact .refl _
    · split
      · exact .refl _
      · exact (Grown.refl _).cons rfl
  | unassign strategyGuid type targets =>
    rw [exec]
    dsimp only [World.unassign, Prod.map]
    split
    · exact .refl _
    · split
      · exact .refl _
      · exact (Grown.refl _).cons rfl
  | invalidateDeviceStrategyCache deviceUuid =>
    cases deviceUuid with
    | none => exact (Grown.refl _).cons rfl
    | some uuid => exact hg.elim
  | cacheStrategy uuid result =>
    rw [exec, history_cacheStrategy]
    exact (Grown.refl _).cons rfl
  | findPeer | answer => exact (Grown.refl _).cons rfl
  | findStrategy | findUser | findDeviceGroup | cachedStrategy => exact .refl _
  | _ => exact hg.elim

theorem Kept.step {c : Command} (hk : Kept rows w) (hg : guard rows i c w) (o : Choice) :
    Kept rows (exec i c o w).1 := by
  cases c with
  | assign strategyGuid type targets =>
    rw [exec]
    dsimp only [World.assign, Prod.map]
    split
    · exact hk
    · split
      · exact hk
      · refine hk.commit ?_
        cases type <;> exact hk.strategies
  | unassign strategyGuid type targets =>
    rw [exec]
    dsimp only [World.unassign, Prod.map]
    split
    · exact hk
    · split
      · exact hk
      · refine hk.commit ?_
        cases type <;> exact hk.strategies
  | invalidateDeviceStrategyCache deviceUuid =>
    cases deviceUuid with
    | none => exact hk.clear hg
    | some uuid => exact hg.elim
  | cacheStrategy uuid result => exact hk.store hg.1 hg.2.1 hg.2.2
  | findPeer uuid =>
    refine hk.noted (by simp) (by simp) fun ht ↦ ?_
    exact freshAnswers_cons (hk.answers (ht.of_suffix (List.suffix_cons ..)))
      (fun _ _ ↦ hg) (by simp)
  | answer result =>
    refine hk.noted (by simp) (by simp) fun ht ↦ ?_
    have ht := ht.of_suffix (List.suffix_cons ..)
    refine freshAnswers_cons (hk.answers ht) (by simp) fun result' heq ↦ ?_
    cases heq
    exact hg ht
  | findStrategy | findUser | findDeviceGroup | cachedStrategy => exact hk
  | _ => exact hg.elim

def logic (rows : List Strategy) (isolatedDeviceUuid : String → String → String)
    (cloneIsolation : Bool) :
    Logic (machine isolatedDeviceUuid cloneIsolation Request.concerned) where
  inv := Kept rows
  guard := guard rows
  rely := Others
  rely_refl _ _ := .refl _
  rely_trans _ _ _ _ := .trans
  keeps o _ hk hg := hk.step hg o
  interferes o _ hij _ hg := (exec_grown hg o).mono fun _ heq ↦ heq ▸ hij.symm

end Protocol

end RustdeskConsole.Strategies
