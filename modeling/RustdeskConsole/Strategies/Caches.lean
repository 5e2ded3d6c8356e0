import Mathlib.Data.Set.Basic
import RustdeskConsole.Strategies.Coherence

namespace RustdeskConsole.Strategies

open Collections
open Devices (truthy)

variable {w : World} {S T : Set String} {uuid guid : String} {peer : Peer} {strategy : Strategy}
  {db : Database} {i : ℕ}

/-- What both caches hold is in the tables, and a device is never cached with a
strategy that is not cached itself. -/
structure Sound (w : World) : Prop where
  object : ∀ guid strategy, w.strategyObjectCache.get? guid = some strategy →
    w.db.strategy guid = some strategy
  cached : ∀ uuid guid, w.deviceStrategyCache.get? uuid = some (some guid) →
    ∃ strategy, w.strategyObjectCache.get? guid = some strategy
  referential : w.db.Referential

/-- The cached strategy of a device, if there is one, is what it resolves to. -/
def Agrees (w : World) (uuid : String) : Prop :=
  ∀ peer cached, w.db.peer uuid = some peer → w.deviceStrategyCache.get? uuid = some cached →
    cached = (w.db.resolve peer).map (·.guid)

/-- The caches are right about all devices but those of `S`. -/
structure CoherentOff (S : Set String) (w : World) : Prop extends Sound w where
  agrees : ∀ uuid ∉ S, Agrees w uuid

namespace World

/-- What a lookup finds when nothing else goes on. -/
def lookup (w : World) (peer : Peer) : Option Strategy :=
  (w.cachedStrategy peer.uuid).getD (w.db.resolve peer)

def afterLookup (w : World) (i : ℕ) (peer : Peer) : World :=
  match w.cachedStrategy peer.uuid with
  | some _ => w
  | none => w.cacheStrategy i peer.uuid (w.db.resolve peer)

@[simp] theorem db_cacheStrategy {result : Option Strategy} :
    (w.cacheStrategy i uuid result).db = w.db := by
  cases result <;> rfl

theorem db_afterLookup : (w.afterLookup i peer).db = w.db := by
  rw [afterLookup]
  split
  · rfl
  · exact db_cacheStrategy

theorem get?_device_cacheStrategy {result : Option Strategy} {uuid' : String} :
    (w.cacheStrategy i uuid result).deviceStrategyCache.get? uuid' =
      if uuid' = uuid then some (result.map (·.guid)) else w.deviceStrategyCache.get? uuid' := by
  cases result <;> exact OrderedMap.get?_set

theorem get?_object_cacheStrategy {result : Option Strategy} :
    (w.cacheStrategy i uuid result).strategyObjectCache.get? guid = some strategy ↔
      (result = some strategy ∧ strategy.guid = guid) ∨
        (∀ row, result = some row → row.guid ≠ guid) ∧
          w.strategyObjectCache.get? guid = some strategy := by
  cases result with
  | none => simp [cacheStrategy, note]
  | some row =>
    rw [cacheStrategy, note, OrderedMap.get?_set]
    by_cases hk : guid = row.guid
    · rw [if_pos hk]
      constructor
      · intro h
        cases h
        exact .inl ⟨rfl, hk.symm⟩
      · intro h
        rcases h with ⟨h, -⟩ | ⟨h, -⟩
        · exact h
        · exact absurd hk.symm (h row rfl)
    · rw [if_neg hk]
      constructor
      · intro h
        refine .inr ⟨fun row' h' heq ↦ ?_, h⟩
        cases h'
        exact hk heq.symm
      · intro h
        rcases h with ⟨h, heq⟩ | ⟨-, h⟩
        · cases h
          exact absurd heq.symm hk
        · exact h

end World

namespace Sound

/-- What `findStrategyForPeer` reads of the caches. -/
theorem cachedStrategy (h : Sound w) :
    w.cachedStrategy uuid = (w.deviceStrategyCache.get? uuid).map fun cached ↦
      cached.bind w.db.strategy := by
  rw [World.cachedStrategy]
  cases hc : w.deviceStrategyCache.get? uuid with
  | none => rfl
  | some cached =>
    cases cached with
    | none => rfl
    | some guid =>
      obtain ⟨strategy, ho⟩ := h.cached uuid guid hc
      simp only [ho, Option.map_some, Option.bind_some, h.object guid strategy ho]

theorem lookup_eq (h : Sound w) (hp : w.db.peer peer.uuid = some peer) :
    w.lookup peer = w.db.resolve peer ↔ Agrees w peer.uuid := by
  rw [World.lookup, h.cachedStrategy]
  constructor
  · intro heq peer' cached hp' hc
    rw [hp] at hp'
    cases hp'
    rw [hc, Option.map_some, Option.getD_some] at heq
    rw [← heq]
    cases cached with
    | none => rfl
    | some guid =>
      obtain ⟨strategy, ho⟩ := h.cached _ guid hc
      have hs := h.object guid strategy ho
      rw [Option.bind_some, hs, Option.map_some, Database.strategy_guid hs]
  · intro ha
    cases hc : w.deviceStrategyCache.get? peer.uuid with
    | none => rfl
    | some cached =>
      have hcached := ha peer cached hp hc
      rw [Option.map_some, Option.getD_some, hcached]
      cases hr : w.db.resolve peer with
      | none => rfl
      | some strategy =>
        rw [Option.map_some, Option.bind_some]
        exact Database.resolve_guid hr

end Sound

namespace CoherentOff

theorem blank (hr : db.Referential) (hd : w.db = db) (ho : w.strategyObjectCache = .empty)
    (hc : w.deviceStrategyCache = .empty) : CoherentOff ∅ w where
  object guid strategy h := by
    rw [ho] at h
    cases h
  cached uuid guid h := by
    rw [hc] at h
    cases h
  referential := hd ▸ hr
  agrees uuid _ peer cached _ h := by
    rw [hc] at h
    cases h

theorem mono (h : CoherentOff S w) (hST : S ⊆ T) : CoherentOff T w :=
  ⟨h.toSound, fun uuid hu ↦ h.agrees uuid fun hm ↦ hu (hST hm)⟩

/-- The caches and the tables are all that counts. -/
theorem of_eq {w' : World} (h : CoherentOff S w) (hd : w'.db = w.db)
    (ho : w'.strategyObjectCache = w.strategyObjectCache)
    (hc : w'.deviceStrategyCache = w.deviceStrategyCache) : CoherentOff S w' := by
  refine ⟨⟨fun guid strategy hg ↦ ?_, fun uuid guid hg ↦ ?_, ?_⟩,
    fun uuid hu peer cached hp hg ↦ ?_⟩
  · rw [ho] at hg
    rw [hd]
    exact h.object guid strategy hg
  · rw [hc] at hg
    rw [ho]
    exact h.cached uuid guid hg
  · rw [hd]
    exact h.referential
  · rw [hd] at hp ⊢
    rw [hc] at hg
    exact h.agrees uuid hu peer cached hp hg

theorem write (h : CoherentOff S w) (hk : Database.Keeps T w.db db) :
    CoherentOff (S ∪ T) { w with db := db } := by
  refine ⟨⟨fun guid strategy hg ↦ ?_, h.cached, hk.referential⟩, fun uuid hu peer cached hp hc ↦ ?_⟩
  · exact hk.strategy guid strategy (h.object guid strategy hg)
  · obtain ⟨hS, hT⟩ := not_or.mp hu
    obtain ⟨peer', hp', hr⟩ := hk.resolve uuid hT peer hp
    rw [hr]
    exact h.agrees uuid hS peer' cached hp' hc

theorem write_quiet (h : CoherentOff S w) (hk : Database.Keeps ∅ w.db db) :
    CoherentOff S { w with db := db } := by
  rw [← Set.union_empty S]
  exact h.write hk

/-- A flush writes what the devices have said of themselves. -/
theorem flush (h : CoherentOff S w) : CoherentOff S w.flush := by
  have hfold : ∀ (entries : List (String × BufferedPeerUpdate)) (v : World), CoherentOff S v →
      CoherentOff S { v with db := entries.foldl (fun db entry ↦ db.updatePeer entry.1 fun row ↦
        { row with
          id := entry.2.id, ver := entry.2.ver, modifiedAt := entry.2.modifiedAt }) v.db } := by
    intro entries
    induction entries with
    | nil => exact fun v hv ↦ hv
    | cons entry entries ih =>
      intro v hv
      have hk : Database.Keeps ∅ v.db (v.db.updatePeer entry.1 fun row ↦ { row with
          id := entry.2.id, ver := entry.2.ver, modifiedAt := entry.2.modifiedAt }) :=
        Database.keeps_updatePeer_links hv.referential (fun _ ↦ rfl) fun _ ↦ rfl
      exact ih _ (hv.write_quiet hk)
  exact (hfold w.peerBuffer.entries w h).of_eq rfl rfl rfl

theorem emptied (h : CoherentOff S w) : CoherentOff T { w with deviceStrategyCache := .empty } where
  object := h.object
  cached _ _ hc := by cases hc
  referential := h.referential
  agrees _ _ _ _ _ hc := by cases hc

theorem clear (h : CoherentOff S w) : CoherentOff T (w.invalidateDeviceStrategyCache i none) :=
  h.emptied.of_eq rfl rfl rfl

theorem invalidate (h : CoherentOff S w) :
    CoherentOff (S \ {uuid}) (w.invalidateDeviceStrategyCache i (some uuid)) := by
  rw [World.invalidateDeviceStrategyCache]
  cases ht : truthy (some uuid) with
  | none => exact h.emptied.of_eq rfl rfl rfl
  | some uuid' =>
    obtain ⟨heq, -⟩ := Option.filter_eq_some_iff.mp ht
    cases heq
    refine ⟨⟨h.object, fun uuid' guid hc ↦ ?_, h.referential⟩, fun uuid' hu peer cached hp hc ↦ ?_⟩
    · rw [OrderedMap.get?_erase] at hc
      split at hc
      · cases hc
      · exact h.cached uuid' guid hc
    · rw [OrderedMap.get?_erase] at hc
      split at hc
      · cases hc
      · next hne => exact h.agrees uuid' (fun hS ↦ hu ⟨hS, hne⟩) peer cached hp hc

/-- A lookup stores what it has read from the tables. -/
theorem cacheStrategy (h : CoherentOff S w) (hp : w.db.peer uuid = some peer) :
    CoherentOff S (w.cacheStrategy i uuid (w.db.resolve peer)) := by
  refine ⟨⟨fun guid strategy ho ↦ ?_, fun uuid' guid hc ↦ ?_, ?_⟩,
    fun uuid' hu peer' cached hp' hc ↦ ?_⟩
  · rw [World.db_cacheStrategy]
    rcases World.get?_object_cacheStrategy.mp ho with ⟨hr, heq⟩ | ⟨-, ho⟩
    · rw [← heq]
      exact Database.resolve_guid hr
    · exact h.object guid strategy ho
  · rw [World.get?_device_cacheStrategy] at hc
    split at hc
    · obtain ⟨strategy, hr, heq⟩ := Option.map_eq_some_iff.mp (Option.some.inj hc)
      exact ⟨strategy, World.get?_object_cacheStrategy.mpr (.inl ⟨hr, heq⟩)⟩
    · obtain ⟨strategy, ho⟩ := h.cached uuid' guid hc
      by_cases hg : ∃ row, w.db.resolve peer = some row ∧ row.guid = guid
      · obtain ⟨row, hr, heq⟩ := hg
        exact ⟨row, World.get?_object_cacheStrategy.mpr (.inl ⟨hr, heq⟩)⟩
      · refine ⟨strategy, World.get?_object_cacheStrategy.mpr (.inr ⟨fun row hr heq ↦ ?_, ho⟩)⟩
        exact hg ⟨row, hr, heq⟩
  · rw [World.db_cacheStrategy]
    exact h.referential
  · rw [World.db_cacheStrategy] at hp' ⊢
    rw [World.get?_device_cacheStrategy] at hc
    split at hc
    · next heq =>
      rw [heq, hp] at hp'
      cases hp'
      exact (Option.some.inj hc).symm
    · exact h.agrees uuid' hu peer' cached hp' hc

/-- What `deleteStrategy` does to the tables and then to the caches. -/
theorem removeStrategy (h : CoherentOff S w) :
    CoherentOff S ({ w with db := w.db.removeStrategy guid }.forgetStrategy guid) := by
  have hcached : ∀ uuid cached,
      (w.deviceStrategyCache.filterMap fun cached ↦
        if cached = some guid then none else some cached).get? uuid = some cached →
      w.deviceStrategyCache.get? uuid = some cached ∧ cached ≠ some guid := by
    intro uuid cached hc
    rw [OrderedMap.get?_filterMap] at hc
    obtain ⟨cached', hc', hif⟩ := Option.bind_eq_some_iff.mp hc
    split at hif
    · cases hif
    · next hne =>
      cases hif
      exact ⟨hc', hne⟩
  refine ⟨⟨fun guid' strategy ho ↦ ?_, fun uuid guid' hc ↦ ?_,
    Database.referential_removeStrategy h.referential⟩, fun uuid hu peer' cached hp hc ↦ ?_⟩
  · rw [World.forgetStrategy, OrderedMap.get?_erase] at ho
    split at ho
    · cases ho
    · next hk =>
      exact (Database.strategy_removeStrategy hk).trans (h.object guid' strategy ho)
  · obtain ⟨hc, hne⟩ := hcached uuid _ hc
    obtain ⟨strategy, ho⟩ := h.cached uuid guid' hc
    have hk : guid' ≠ guid := fun heq ↦ hne (congrArg some heq)
    rw [World.forgetStrategy, OrderedMap.get?_erase, if_neg hk]
    exact ⟨strategy, ho⟩
  · obtain ⟨hc, hne⟩ := hcached uuid _ hc
    obtain ⟨peer, hpeer, rfl⟩ := Option.map_eq_some_iff.mp (Database.peer_removeStrategy ▸ hp)
    have ha := h.agrees uuid hu peer cached hpeer hc
    rw [ha]
    refine congrArg (Option.map _) (Database.resolve_removeStrategy fun strategy hs heq ↦ ?_).symm
    rw [ha, hs, Option.map_some, heq] at hne
    exact hne rfl

/-- What `updateStrategy` does to the tables and then to the caches. -/
theorem replaceStrategy (h : CoherentOff S w) (hs : (w.db.strategy strategy.guid).isSome) :
    CoherentOff S { w with
      db := w.db.replaceStrategy strategy
      strategyObjectCache := w.strategyObjectCache.set strategy.guid strategy } := by
  refine ⟨⟨fun guid row ho ↦ ?_, fun uuid guid hc ↦ ?_,
    Database.referential_replaceStrategy h.referential⟩, fun uuid hu peer cached hp hc ↦ ?_⟩
  · rw [Database.strategy_replaceStrategy]
    rw [OrderedMap.get?_set] at ho
    split at ho
    · next heq =>
      cases ho
      obtain ⟨row, hrow⟩ := Option.isSome_iff_exists.mp hs
      rw [heq, hrow, Option.map_some, Database.replaced, if_pos (Database.strategy_guid hrow)]
    · next hne =>
      have hrow := h.object guid row ho
      rw [hrow, Option.map_some, Database.replaced,
        if_neg (by rwa [Database.strategy_guid hrow])]
  · rw [OrderedMap.get?_set]
    split
    · exact ⟨strategy, rfl⟩
    · exact h.cached uuid guid hc
  · rw [Database.guid_replaceStrategy]
    exact h.agrees uuid hu peer cached hp hc

theorem afterLookup (h : CoherentOff S w) (hp : w.db.peer peer.uuid = some peer) :
    CoherentOff S (w.afterLookup i peer) := by
  rw [World.afterLookup]
  split
  · exact h
  · exact h.cacheStrategy hp

end CoherentOff

end RustdeskConsole.Strategies
