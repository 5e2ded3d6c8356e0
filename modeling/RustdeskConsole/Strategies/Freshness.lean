import RustdeskConsole.Strategies.Protocol

namespace RustdeskConsole.Strategies

open Collections Effects Effects.History Handler
open Devices (Failure truthy)

section Lookup

variable {rows : List Strategy} {isolatedDeviceUuid : String → String → String}
  {cloneIsolation : Bool} {α β : Type} {i : ℕ} {w w' : World} {uuid : String} {peer : Peer}
  {h h' : History} {φ ψ : Database → Prop} {result : Option Strategy}

abbrev Safe (rows : List Strategy) (isolatedDeviceUuid : String → String → String)
    (cloneIsolation : Bool) (i : ℕ) (p : Handler α) (P : α → World → Prop) (w : World) : Prop :=
  (logic rows isolatedDeviceUuid cloneIsolation).Ensures i p (fun a _ w ↦ P a w)
    (fun _ _ _ ↦ True) () w

theorem safe_bind {p : Handler α} {f : α → Handler β} {P : α → World → Prop}
    {Q : β → World → Prop} (hp : Safe rows isolatedDeviceUuid cloneIsolation i p P w)
    (hf : ∀ a w', P a w' → Safe rows isolatedDeviceUuid cloneIsolation i (f a) Q w') :
    Safe rows isolatedDeviceUuid cloneIsolation i (p >>= f) Q w := by
  refine Logic.Ensures.bind (hp.mono (fun a s w' h ↦ ?_) fun _ _ _ h ↦ h)
  cases s
  exact hf a w' h

theorem safe_pure {a : α} {P : α → World → Prop} (h : P a w) :
    Safe rows isolatedDeviceUuid cloneIsolation i (pure a) P w := h

theorem safe_invoke {c : Command} {f : Reply c → Except Failure α} {P : α → World → Prop}
    (h : ∀ w₁, Others i w w₁ → Kept rows w₁ → guard rows i c w₁ ∧
      ∀ o w₂ r a, exec i c o w₁ = (w₂, some r) → f r = .ok a → P a w₂) :
    Safe rows isolatedDeviceUuid cloneIsolation i (invoke c f) P w := by
  refine Logic.Ensures.invoke fun w₁ hw hk ↦ ⟨(h w₁ hw hk).1, fun o w₂ r he _ ↦ ?_⟩
  cases hf : f r with
  | error e => trivial
  | ok a => exact (h w₁ hw hk).2 o w₂ r a he hf

/-- Whatever has been committed before the lookup began, one of the versions since
then satisfies `φ`. -/
def Seen (h : History) (i : ℕ) (φ : Database → Prop) : Prop :=
  ∀ uuid earlier, (i, .loaded uuid) :: earlier <:+ h → ∀ operation,
    versionsSince operation earlier ≠ [] → ∃ db ∈ versionsSince operation h, φ db

theorem Seen.others (hs : Seen h i φ) (hg : Grown (fun e ↦ e.1 ≠ i) h h') : Seen h' i φ := by
  intro uuid earlier hl operation hn
  obtain ⟨db, hm, hφ⟩ := hs uuid earlier (hg.suffix_of (fun hne ↦ hne rfl) hl) operation hn
  exact ⟨db, versionsSince_suffix hg.suffix hm, hφ⟩

theorem Seen.mono (hs : Seen h i φ) (hφψ : ∀ db, φ db → ψ db) : Seen h i ψ := by
  intro uuid earlier hl operation hn
  obtain ⟨db, hm, hφ⟩ := hs uuid earlier hl operation hn
  exact ⟨db, hm, hφψ db hφ⟩

theorem Kept.seen (hk : Kept rows w) (hφ : φ w.db) : Seen w.history i φ := by
  intro uuid earlier hl operation hn
  obtain ⟨db, hm⟩ := List.exists_mem_of_ne_nil _ hn
  have hmem := versionsSince_suffix ((List.suffix_cons ..).trans hl) hm
  exact ⟨w.db, hk.current operation (List.ne_nil_of_mem hmem), hφ⟩

/-- The lookup of the device has begun. -/
def Begun (h : History) (i : ℕ) (uuid : String) : Prop :=
  (∃ earlier, (i, .loaded uuid) :: earlier <:+ h) ∧
    ∀ uuid' earlier, (i, .loaded uuid') :: earlier <:+ h → uuid' = uuid

theorem Begun.others (hb : Begun h i uuid) (hg : Grown (fun e ↦ e.1 ≠ i) h h') :
    Begun h' i uuid := by
  refine ⟨hb.1.imp fun earlier hs ↦ hs.trans hg.suffix, fun uuid' earlier hs ↦ ?_⟩
  exact hb.2 uuid' earlier (hg.suffix_of (fun hne ↦ hne rfl) hs)

/-- What was seen of the device, its user and its group makes up what is found. -/
theorem Begun.found {φ₁ φ₂ φ₃ : Database → Prop} (hb : Begun h i uuid) (h₁ : Seen h i φ₁)
    (h₂ : Seen h i φ₂) (h₃ : Seen h i φ₃)
    (hr : ∀ db₁ db₂ db₃, φ₁ db₁ → φ₂ db₂ → φ₃ db₃ → result = mixed db₁ db₂ db₃ uuid) :
    Found h i uuid result := by
  intro uuid' earlier hs
  refine ⟨hb.2 uuid' earlier hs, fun operation hn ↦ ?_⟩
  obtain ⟨db₁, hm₁, hφ₁⟩ := h₁ uuid' earlier hs operation hn
  obtain ⟨db₂, hm₂, hφ₂⟩ := h₂ uuid' earlier hs operation hn
  obtain ⟨db₃, hm₃, hφ₃⟩ := h₃ uuid' earlier hs operation hn
  exact ⟨db₁, hm₁, db₂, hm₂, db₃, hm₃, hr db₁ db₂ db₃ hφ₁ hφ₂ hφ₃⟩

/-- What may be answered. -/
def Answerable (h : History) (i : ℕ) (result : Option Strategy) : Prop :=
  TimelyStores h → ∀ uuid earlier, (i, .loaded uuid) :: earlier <:+ h →
    ∀ operation, (operation, .cleared) ∈ earlier → ResolvesFrom (versionsSince operation h) uuid result

theorem Answerable.others (ha : Answerable h i result) (hg : Grown (fun e ↦ e.1 ≠ i) h h') :
    Answerable h' i result := by
  intro ht uuid earlier hs operation hc
  exact (ha (ht.of_suffix hg.suffix) uuid earlier (hg.suffix_of (fun hne ↦ hne rfl) hs) operation
    hc).mono fun _ ↦ versionsSince_suffix hg.suffix

theorem Found.answerable (hf : Found h i uuid result) (hr : Returned h) : Answerable h i result := by
  intro _ uuid' earlier hs operation hc
  obtain ⟨rfl, hresolves⟩ := hf uuid' earlier hs
  exact hresolves operation (hr.versionsSince ((List.suffix_cons ..).trans hs) hc)

theorem strategyOf_rows {db : Database} (hs : db.strategies = rows) (reference : Option String) :
    db.strategyOf reference = (truthy reference).bind (rowOf rows) := by
  subst hs
  rfl

/-- The result is a row of the table of strategies. -/
def Tabled (rows : List Strategy) (result : Option Strategy) : Prop :=
  ∀ strategy, result = some strategy → rowOf rows strategy.guid = some strategy

theorem tabled_rowOf (reference : Option String) :
    Tabled rows ((truthy reference).bind (rowOf rows)) := by
  intro strategy hs
  obtain ⟨guid, -, hg⟩ := Option.bind_eq_some_iff.mp hs
  have heq : strategy.guid = guid := by simpa using List.find?_some hg
  rwa [heq]

theorem tabled_none : Tabled rows none := nofun

namespace StrategyService

theorem findStrategyOf_safe (reference : Option String) :
    Safe rows isolatedDeviceUuid cloneIsolation i (findStrategyOf reference) (fun result w' ↦
      result = (truthy reference).bind (rowOf rows) ∧ Others i w w') w := by
  rw [findStrategyOf]
  cases truthy reference with
  | none => exact safe_pure ⟨rfl, .refl _⟩
  | some guid =>
    refine safe_invoke fun w₁ hw hk ↦ ⟨trivial, fun o w₂ r a he hr ↦ ?_⟩
    cases he
    cases hr
    refine ⟨?_, hw⟩
    rw [Database.strategy, hk.strategies]
    rfl

/-- Of the user nothing is read but what its row says at some moment of the lookup. -/
theorem resolveUserStrategy_safe (userGuid : Option String)
    (hs : Seen w.history i fun db ↦ db.strategies = rows) :
    Safe rows isolatedDeviceUuid cloneIsolation i (resolveUserStrategy userGuid) (fun result w' ↦
      Others i w w' ∧ Tabled rows result ∧ Seen w'.history i fun db ↦
        (truthy userGuid).bind db.userStrategy = result) w := by
  rw [resolveUserStrategy]
  cases truthy userGuid with
  | none => exact safe_pure ⟨.refl _, tabled_none, hs.mono fun _ _ ↦ rfl⟩
  | some guid =>
    refine safe_bind (P := fun user w' ↦ Others i w w' ∧ Seen w'.history i fun db ↦
      db.strategies = rows ∧ db.user guid = user) (safe_invoke fun w₁ hw hk ↦
        ⟨trivial, fun o w₂ r a he hr ↦ ?_⟩) fun user w₁ hw ↦ ?_
    · cases he
      cases hr
      exact ⟨hw, hk.seen ⟨hk.strategies, rfl⟩⟩
    · refine (findStrategyOf_safe _).mono (fun found _ w₂ hfound ↦ ?_) fun _ _ _ h ↦ h
      obtain ⟨rfl, hw₂⟩ := hfound
      refine ⟨hw.1.trans hw₂, tabled_rowOf _, (hw.2.others hw₂).mono fun db hdb ↦ ?_⟩
      rw [Option.bind_some, Database.userStrategy, hdb.2]
      cases user with
      | none => rfl
      | some user => exact strategyOf_rows hdb.1 _

theorem resolveGroupStrategy_safe (deviceGroupGuid : Option String)
    (hs : Seen w.history i fun db ↦ db.strategies = rows) :
    Safe rows isolatedDeviceUuid cloneIsolation i (resolveGroupStrategy deviceGroupGuid)
      (fun result w' ↦ Others i w w' ∧ Tabled rows result ∧ Seen w'.history i fun db ↦
        (truthy deviceGroupGuid).bind db.groupStrategy = result) w := by
  rw [resolveGroupStrategy]
  cases truthy deviceGroupGuid with
  | none => exact safe_pure ⟨.refl _, tabled_none, hs.mono fun _ _ ↦ rfl⟩
  | some guid =>
    refine safe_bind (P := fun group w' ↦ Others i w w' ∧ Seen w'.history i fun db ↦
      db.strategies = rows ∧ db.deviceGroup guid = group) (safe_invoke fun w₁ hw hk ↦
        ⟨trivial, fun o w₂ r a he hr ↦ ?_⟩) fun group w₁ hw ↦ ?_
    · cases he
      cases hr
      exact ⟨hw, hk.seen ⟨hk.strategies, rfl⟩⟩
    · refine (findStrategyOf_safe _).mono (fun found _ w₂ hfound ↦ ?_) fun _ _ _ h ↦ h
      obtain ⟨rfl, hw₂⟩ := hfound
      refine ⟨hw.1.trans hw₂, tabled_rowOf _, (hw.2.others hw₂).mono fun db hdb ↦ ?_⟩
      rw [Option.bind_some, Database.groupStrategy, hdb.2]
      cases group with
      | none => rfl
      | some group => exact strategyOf_rows hdb.1 _

theorem resolveStrategyForPeer_safe (hb : Begun w.history i uuid)
    (hs : Seen w.history i fun db ↦ db.strategies = rows ∧ db.peer uuid = some peer) :
    Safe rows isolatedDeviceUuid cloneIsolation i (resolveStrategyForPeer peer)
      (fun result w' ↦ Begun w'.history i uuid ∧ Tabled rows result ∧
        Found w'.history i uuid result) w := by
  have hmixed : ∀ {db₁ db₂ db₃ : Database}, db₁.strategies = rows ∧ db₁.peer uuid = some peer →
      mixed db₁ db₂ db₃ uuid = (((truthy peer.strategyGuid).bind (rowOf rows)).or
        ((truthy peer.userGuid).bind db₂.userStrategy)).or
          ((truthy peer.deviceGroupGuid).bind db₃.groupStrategy) := by
    intro db₁ db₂ db₃ hdb
    rw [mixed, hdb.2, Option.bind_some, strategyOf_rows hdb.1]
  refine safe_bind (findStrategyOf_safe _) fun own w₁ hown ↦ ?_
  obtain ⟨hown, hw₁⟩ := hown
  have htabled : Tabled rows own := hown ▸ tabled_rowOf _
  rw [← hown] at hmixed
  have hs₁ := hs.others hw₁
  have hb₁ := hb.others hw₁
  cases own with
  | some strategy =>
    refine safe_pure ⟨hb₁, htabled, hb₁.found hs₁ hs₁ hs₁ fun db₁ db₂ db₃ h₁ _ _ ↦ ?_⟩
    rw [hmixed h₁, Option.some_or, Option.some_or]
  | none =>
    refine safe_bind (resolveUserStrategy_safe _ (hs₁.mono fun _ ↦ And.left))
      fun users w₂ ⟨hw₂, htabled, husers⟩ ↦ ?_
    have hs₂ := hs₁.others hw₂
    have hb₂ := hb₁.others hw₂
    cases users with
    | some strategy =>
      refine safe_pure ⟨hb₂, htabled, hb₂.found hs₂ husers hs₂ fun db₁ db₂ db₃ h₁ h₂ _ ↦ ?_⟩
      rw [hmixed h₁, h₂, Option.none_or, Option.some_or]
    | none =>
      refine (resolveGroupStrategy_safe _ (hs₂.mono fun _ ↦ And.left)).mono
        (fun groups _ w₃ ⟨hw₃, htabled, hgroups⟩ ↦ ?_) fun _ _ _ h ↦ h
      refine ⟨hb₂.others hw₃, htabled, (hb₂.others hw₃).found (hs₂.others hw₃)
        (husers.others hw₃) hgroups fun db₁ db₂ db₃ h₁ h₂ h₃ ↦ ?_⟩
      rw [hmixed h₁, h₂, h₃, Option.none_or, Option.none_or]

theorem cachedStrategy_eq (hk : Kept rows w) : w.cachedStrategy uuid =
    (w.deviceStrategyCache.get? uuid).map fun cached ↦ cached.bind (rowOf rows) := by
  rw [World.cachedStrategy]
  cases hc : w.deviceStrategyCache.get? uuid with
  | none => rfl
  | some cached =>
    cases cached with
    | none => rfl
    | some guid =>
      obtain ⟨strategy, ho⟩ := hk.devices uuid guid hc
      simp only [ho, Option.map_some, Option.bind_some, hk.objects guid strategy ho]

/-- What the cache says is as fresh as any operation that has returned. -/
theorem cached_answerable (hk : Kept rows w) (hb : Begun w.history i uuid)
    (hc : w.cachedStrategy uuid = some result) : Answerable w.history i result := by
  intro ht uuid' earlier hs operation hcleared
  rw [cachedStrategy_eq hk] at hc
  obtain ⟨cached, hm, rfl⟩ := Option.map_eq_some_iff.mp hc
  rw [hb.2 uuid' earlier hs]
  exact hk.cached ht uuid cached hm operation (hs.subset (.tail _ hcleared))

theorem findStrategyForPeer_safe (hu : peer.uuid = uuid) (hb : Begun w.history i uuid)
    (hs : Seen w.history i fun db ↦ db.strategies = rows ∧ db.peer uuid = some peer) :
    Safe rows isolatedDeviceUuid cloneIsolation i (findStrategyForPeer peer)
      (fun result w' ↦ Answerable w'.history i result) w := by
  refine safe_bind (P := fun cached w' ↦ Others i w w' ∧
    ∀ result, cached = some result → Answerable w'.history i result)
    (safe_invoke fun w₁ hw hk ↦ ⟨trivial, fun o w₂ r a he hr ↦ ?_⟩) fun cached w₁ hcached ↦ ?_
  · cases he
    cases hr
    refine ⟨hw, fun result hc ↦ ?_⟩
    rw [hu] at hc
    exact cached_answerable hk (hb.others hw) hc
  · obtain ⟨hw, hcached⟩ := hcached
    cases cached with
    | some result => exact safe_pure (hcached result rfl)
    | none =>
      refine safe_bind (resolveStrategyForPeer_safe (hb.others hw) (hs.others hw))
        fun result w₂ ⟨hb₂, htabled, hfound⟩ ↦ ?_
      refine safe_bind (P := fun _ w' ↦ Answerable w'.history i result)
        (safe_invoke fun w₃ hw₃ hk ↦ ?_) fun _ w₄ ha ↦ safe_pure ha
      have hb₃ := hb₂.others hw₃
      have hfound₃ : Found w₃.history i uuid result := by
        intro uuid' earlier hs
        obtain ⟨heq, hresolves⟩ := hfound uuid' earlier (hw₃.suffix_of (fun hne ↦ hne rfl) hs)
        exact ⟨heq, fun operation hn ↦ (hresolves operation hn).mono fun _ ↦
          versionsSince_suffix hw₃.suffix⟩
      refine ⟨⟨hu.symm ▸ hfound₃, ⟨uuid, hb₃.1⟩, htabled⟩, fun o w₄ r a he hr ↦ ?_⟩
      have heq : (w₃.cacheStrategy i peer.uuid result, some ()) = (w₄, some r) := he
      obtain ⟨rfl, -⟩ := Prod.mk.inj heq
      rw [history_cacheStrategy]
      intro ht uuid' earlier hs operation hc
      rcases List.suffix_cons_iff.mp hs with hhead | hold
      · cases (List.cons_eq_cons.mp hhead).1
      · refine ResolvesFrom.mono ?_ fun _ ↦ mem_versionsSince_cons
        exact hfound₃.answerable hk.returned (ht.of_suffix (List.suffix_cons ..)) uuid' earlier
          hold operation hc

/-- A lookup of a new thread is answered by what it may answer. -/
theorem answerLookup_safe (deviceUuid : String) (hn : ∀ event, (i, event) ∉ w.history) :
    Safe rows isolatedDeviceUuid cloneIsolation i (answerLookup deviceUuid)
      (fun _ _ ↦ True) w := by
  refine safe_bind (P := fun result w' ↦ Answerable w'.history i result) ?_ fun result w₁ ha ↦ ?_
  · refine safe_bind (P := fun peer w' ↦ Begun w'.history i deviceUuid ∧
      (Seen w'.history i fun db ↦ db.strategies = rows ∧ db.peer deviceUuid = peer) ∧
      (∀ row, peer = some row → row.uuid = deviceUuid) ∧ Returned w'.history)
      (safe_invoke fun w₁ hw hk ↦ ?_) fun peer w₁ ⟨hb, hs, hu, hreturned⟩ ↦ ?_
    · have hfresh : ∀ event, (i, event) ∉ w₁.history := by
        intro event hm
        obtain ⟨earlier, hs⟩ := exists_suffix_of_mem hm
        exact hn event (mem_of_suffix (hw.suffix_of (fun hne ↦ hne rfl) hs))
      refine ⟨hfresh, fun o w₂ r a he hr ↦ ?_⟩
      cases he
      cases hr
      have honly : ∀ uuid' earlier, (i, .loaded uuid') :: earlier <:+
          (i, .loaded deviceUuid) :: w₁.history → uuid' = deviceUuid ∧ earlier = w₁.history := by
        intro uuid' earlier hs
        rcases List.suffix_cons_iff.mp hs with hhead | hold
        · obtain ⟨heq, rfl⟩ := List.cons_eq_cons.mp hhead
          cases heq
          exact ⟨rfl, rfl⟩
        · exact absurd (mem_of_suffix hold) (hfresh _)
      refine ⟨⟨⟨w₁.history, List.suffix_rfl⟩, fun uuid' earlier hs ↦ (honly uuid' earlier hs).1⟩,
        fun uuid' earlier hs operation hne ↦ ?_, fun row hrow ↦ Database.peer_uuid hrow,
        returned_cons hk.returned nofun⟩
      obtain ⟨-, rfl⟩ := honly uuid' earlier hs
      exact ⟨w₁.db, hk.current operation hne, hk.strategies, rfl⟩
    · cases peer with
      | some peer => exact findStrategyForPeer_safe (hu peer rfl) hb hs
      | none =>
        have hfound : Found w₁.history i deviceUuid none := by
          refine hb.found hs hs hs fun db₁ db₂ db₃ h₁ _ _ ↦ ?_
          rw [mixed, h₁.2, Option.bind_none]
        exact safe_pure (hfound.answerable hreturned)
  · refine safe_invoke fun w₂ hw _ ↦ ⟨ha.others hw, fun _ _ _ _ _ _ ↦ trivial⟩

theorem transaction_safe {α : Type} {c : Command} {f : Reply c → Except Failure α}
    (hg : ∀ w, guard rows i c w) (hc : ∀ o w w' r a, exec i c o w = (w', some r) → f r = .ok a →
      ∃ db, (i, .committed db) ∈ w'.history) :
    Safe rows isolatedDeviceUuid cloneIsolation i (do
      let a ← invoke c f
      ask (.invalidateDeviceStrategyCache none)
      pure a) (fun _ _ ↦ True) w := by
  refine safe_bind (P := fun _ w' ↦ ∃ db, (i, .committed db) ∈ w'.history)
    (safe_invoke fun w₁ hw _ ↦ ⟨hg w₁, fun o w₂ r a he hr ↦ hc o w₁ w₂ r a he hr⟩)
    fun a w₁ ⟨db, hm⟩ ↦ ?_
  refine safe_bind (P := fun _ _ ↦ True) (safe_invoke fun w₂ hw _ ↦ ⟨⟨db, hw.suffix.subset hm⟩,
    fun _ _ _ _ _ _ ↦ trivial⟩) fun _ _ _ ↦ safe_pure trivial

theorem assignStrategy_safe (strategyGuid : String) (type : TargetType) (targets : List String) :
    Safe rows isolatedDeviceUuid cloneIsolation i (assignStrategy strategyGuid type targets)
      (fun _ _ ↦ True) w := by
  refine transaction_safe (fun _ ↦ trivial) fun o w w' r a he hr ↦ ?_
  have he := map_some_inj he
  dsimp only [World.assign] at he
  split at he
  · cases he
    cases hr
  · split at he
    · cases he
      cases hr
    · cases he
      exact ⟨_, .head _⟩

theorem unassignStrategy_safe (strategyGuid : String) (type : TargetType)
    (targets : List String) :
    Safe rows isolatedDeviceUuid cloneIsolation i (unassignStrategy strategyGuid type targets)
      (fun _ _ ↦ True) w := by
  refine transaction_safe (fun _ ↦ trivial) fun o w w' r a he hr ↦ ?_
  have he := map_some_inj he
  dsimp only [World.unassign] at he
  split at he
  · cases he
    cases hr
  · split at he
    · cases he
      cases hr
    · cases he
      exact ⟨_, .head _⟩

end StrategyService

theorem ignore_safe {p : Handler α}
    (hp : Safe rows isolatedDeviceUuid cloneIsolation i p (fun _ _ ↦ True) w) :
    Safe rows isolatedDeviceUuid cloneIsolation i (ignore p) (fun _ _ ↦ True) w :=
  safe_bind hp fun _ _ _ ↦ safe_pure trivial

theorem admissible : (logic rows isolatedDeviceUuid cloneIsolation).Admissible := by
  intro i w p hk ⟨hn, request, hrequest, heq⟩
  subst heq
  refine Logic.Wp.bind (Logic.Wp.mono (Q := fun _ _ ↦ True) ?_ fun _ _ _ ↦ trivial)
  have hserve : Safe rows isolatedDeviceUuid cloneIsolation i
      (serve isolatedDeviceUuid cloneIsolation request) (fun _ _ ↦ True) w := by
    cases request with
    | findStrategyForDevice deviceUuid => exact StrategyService.answerLookup_safe deviceUuid hn
    | assignStrategy strategyGuid type targets =>
      exact ignore_safe (StrategyService.assignStrategy_safe strategyGuid type targets)
    | unassignStrategy strategyGuid type targets =>
      exact ignore_safe (StrategyService.unassignStrategy_safe strategyGuid type targets)
    | _ => cases hrequest
  exact Logic.Wp.mono hserve fun _ _ _ ↦ trivial

theorem kept_blank (ho : w.strategyObjectCache = .empty) (hd : w.deviceStrategyCache = .empty)
    (hh : w.history = []) : Kept w.db.strategies w where
  strategies := rfl
  versions j db hm := by
    rw [hh] at hm
    cases hm
  current operation hn := by
    rw [hh] at hn
    exact absurd rfl hn
  returned operation earlier hs := by
    rw [hh] at hs
    cases List.suffix_nil.mp hs
  objects guid strategy hm := by
    rw [ho] at hm
    cases hm
  devices uuid guid hm := by
    rw [hd] at hm
    cases hm
  cached _ uuid cached hm := by
    rw [hd] at hm
    cases hm
  answers _ i uuid earlier result hs := by
    rw [hh] at hs
    cases List.suffix_nil.mp hs

/-- As long as each lookup stores in time, every answer is as fresh as the
operations that had returned before it. -/
theorem lookups_fresh {cfg : Config ℕ Command Reply World} (ho : w.strategyObjectCache = .empty)
    (hd : w.deviceStrategyCache = .empty) (hh : w.history = [])
    (hr : (machine isolatedDeviceUuid cloneIsolation Request.concerned).Run (Machine.idle w) cfg)
    (ht : TimelyStores cfg.world.history) : FreshAnswers cfg.world.history :=
  ((Logic.verified_idle (kept_blank ho hd hh)).run (L := logic w.db.strategies isolatedDeviceUuid
    cloneIsolation) admissible hr).1.answers ht

end Lookup

section Sample

/-- A device whose user has no strategy, and a strategy that is assigned to nothing. -/
def unassignedWorld : World where
  db := {
    peers := [⟨"d", "1", some "u", none, none, none, 0, 0⟩]
    users := [⟨"u", "user", none⟩]
    deviceGroups := []
    strategies := [⟨"s", "strategy", "", some [("key", "value")], 5⟩]
    tombstones := []
    sysinfos := [] }
  peerBuffer := .empty
  strategyObjectCache := .empty
  deviceStrategyCache := .empty
  history := []

/-- One assignment among lookups of the device. -/
def sampleRequest (i : ℕ) : Request :=
  if i = 1 then .assignStrategy "s" .device ["d"] else .findStrategyForDevice "d"

def sampleFresh (i : ℕ) (w : World) : Bool := w.history.all fun e ↦ e.1 ≠ i

abbrev sampleMachine : Machine ℕ Command Reply Choice World :=
  machine (fun uuid _ ↦ uuid) false Request.concerned

theorem sampleFresh_admits (i : ℕ) (w : World) (hf : sampleFresh i w = true) :
    sampleMachine.admits i w (handler (fun uuid _ ↦ uuid) false (sampleRequest i)) := by
  refine ⟨fun event hm ↦ ?_, sampleRequest i, ?_, rfl⟩
  · have hne := List.all_eq_true.mp hf _ hm
    simp at hne
  · rw [sampleRequest]
    split <;> rfl

/-- Each turn lets one thread go on by some commands. -/
def sampleRun (turns : List (ℕ × ℕ)) : Config ℕ Command Reply World :=
  sampleMachine.schedule (fun i ↦ handler (fun uuid _ ↦ uuid) false (sampleRequest i)) sampleFresh
    (turns.map fun t ↦ (t.1, List.replicate t.2 ⟨0, "", .ok ()⟩)) (Machine.idle unassignedWorld)

theorem sampleRun_run (turns : List (ℕ × ℕ)) :
    sampleMachine.Run (Machine.idle unassignedWorld) (sampleRun turns) :=
  Machine.schedule_run sampleFresh_admits _

/-- The assignment and then a lookup, each to its end. -/
theorem sample_fresh : FreshAnswers (sampleRun [(1, 4), (0, 8)]).world.history :=
  lookups_fresh rfl rfl rfl (sampleRun_run _) (by decide +kernel)

/-- A lookup reads, the assignment commits and clears the cache, and then the lookup
stores what it has read. The next one finds that. -/
theorem lookup_stale : ¬ ∀ (isolatedDeviceUuid : String → String → String) (cloneIsolation : Bool)
    (w : World) (cfg : Config ℕ Command Reply World), w.strategyObjectCache = .empty →
      w.deviceStrategyCache = .empty → w.history = [] →
      (machine isolatedDeviceUuid cloneIsolation Request.concerned).Run (Machine.idle w) cfg →
      FreshAnswers cfg.world.history := by
  intro hclaim
  have hf := hclaim _ _ _ _ rfl rfl rfl (sampleRun_run [(0, 3), (1, 4), (0, 4), (2, 8)])
  exact absurd hf (by decide +kernel)

end Sample

end RustdeskConsole.Strategies
