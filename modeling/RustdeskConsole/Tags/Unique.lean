import RustdeskConsole.Tags.Protocol

namespace RustdeskConsole.Tags

open Effects Effects.History

variable {w w' w₀ : World} {call : Call} {event : Event} {guid addressBookGuid : ℕ}
  {name : String} {key : Key} {tag : AddressBookTag}
  {cfg cfg' : Config Call Command Reply World}

/-- No two tags of one book have the same name. -/
def Unique (w : World) : Prop := (w.tags.map AddressBookTag.key).Nodup

/-- No other tag that was given the name after the call had looked for it still has it. -/
def Undisturbed (w : World) (call : Call) (guid : ℕ) (key : Key) : Prop :=
  ∀ later, Since (call, .missed key) later w.history → ∀ tag ∈ w.tags, tag.key = key →
    tag.guid ≠ guid → ∀ e ∈ later, ¬e.2.Writes tag.guid key

/-- Who writes a tag has not been overtaken, and who replaces a book's tags lists each name once. -/
def Orderly (w : World) (call : Call) : Event → Prop
  | .saved guid key | .renamed guid key => Undisturbed w call guid key
  | .replaced _ tags => (tags.map Prod.snd).Nodup
  | .missed _ | .found .. => True

def OrderlyTo (w w' : World) : Prop :=
  ∀ call event, w'.history = (call, event) :: w.history → Orderly w call event

def OrderlyStep (cfg cfg' : Config Call Command Reply World) : Prop :=
  OrderlyTo cfg.world cfg'.world

section Steps

theorem undisturbed_iff (hs : Sound w) (hm : (call, .missed key) ∈ w.history) :
    Undisturbed w call guid key ↔ ∀ tag ∈ w.tags, tag.key = key → tag.guid = guid := by
  constructor
  · intro hu tag htag hkey
    by_contra hne
    obtain ⟨later, hsince⟩ := exists_since hm
    obtain ⟨e, he, hw⟩ := hs.missed call key later hsince tag htag hkey
    exact hu later hsince tag htag hkey hne e he hw
  · intro hall later _ tag htag hkey hne
    exact absurd (hall tag htag hkey) hne

theorem nodup_concat {tags : List AddressBookTag} : ((tags ++ [tag]).map AddressBookTag.key).Nodup ↔
    (tags.map AddressBookTag.key).Nodup ∧ ∀ t ∈ tags, t.key ≠ tag.key := by
  rw [List.map_append, List.nodup_append_comm, List.map_singleton, List.singleton_append,
    List.nodup_cons, List.mem_map, and_comm]
  simp

theorem unique_insert (hs : Sound w) (hu : Unique w) {color : ℤ}
    (hm : (call, .missed (addressBookGuid, name)) ∈ w.history) :
    Unique (w.insert addressBookGuid name color) ↔
      Undisturbed w call w.nextGuid (addressBookGuid, name) := by
  rw [undisturbed_iff hs hm, Unique, World.insert, nodup_concat]
  constructor
  · exact fun hu tag htag hkey ↦ absurd hkey (hu.2 tag htag)
  · intro hall
    refine ⟨hu, fun tag htag hkey ↦ ?_⟩
    exact absurd (hall tag htag hkey) (Nat.ne_of_lt (hs.fresh tag htag))

theorem renamed_key {t : AddressBookTag} :
    AddressBookTag.key (if t.guid = guid then { t with name := name } else t) =
      if t.guid = guid then (t.addressBookGuid, name) else t.key := by
  split <;> rfl

theorem unique_rename (hs : Sound w) (hu : Unique w) (htag : tag ∈ w.tags) (hguid : tag.guid = guid)
    (hm : (call, .missed (tag.addressBookGuid, name)) ∈ w.history) :
    Unique (w.rename guid name) ↔ Undisturbed w call guid (tag.addressBookGuid, name) := by
  have hnodup : w.tags.Nodup := List.Nodup.of_map _ hu
  have hinj := (List.nodup_map_iff_inj_on hnodup).mp hu
  rw [undisturbed_iff hs hm, Unique, World.rename, List.map_map, List.nodup_map_iff_inj_on hnodup]
  simp only [Function.comp_apply, renamed_key]
  constructor
  · intro hall t ht hkey
    by_contra hne
    refine hne (congrArg AddressBookTag.guid (hall t ht tag htag ?_) |>.trans hguid)
    rw [if_neg hne, if_pos hguid, hkey]
  · intro hall x hx y hy heq
    have hself {t : AddressBookTag} (ht : t ∈ w.tags) (h : t.guid = guid) : t = tag :=
      eq_of_guid hs.guids ht htag (h.trans hguid.symm)
    by_cases hxg : x.guid = guid <;> by_cases hyg : y.guid = guid
    · rw [hself hx hxg, hself hy hyg]
    · rw [if_pos hxg, if_neg hyg, hself hx hxg] at heq
      exact absurd (hall y hy heq.symm) hyg
    · rw [if_neg hxg, if_pos hyg, hself hy hyg] at heq
      exact absurd (hall x hx heq) hxg
    · rw [if_neg hxg, if_neg hyg] at heq
      exact hinj x hx y hy heq

theorem unique_replace (hu : Unique w) {tags : List (String × ℤ)} :
    Unique (w.replace addressBookGuid tags) ↔
      ((drawn addressBookGuid w.nextGuid tags).map (·.name)).Nodup := by
  have hbook {t : AddressBookTag} (ht : t ∈ drawn addressBookGuid w.nextGuid tags) :
      t.addressBookGuid = addressBookGuid := (mem_drawn ht).1
  have hkeys : (drawn addressBookGuid w.nextGuid tags).map AddressBookTag.key =
      ((drawn addressBookGuid w.nextGuid tags).map (·.name)).map (Prod.mk addressBookGuid) := by
    rw [List.map_map]
    exact List.map_congr_left fun t ht ↦ by rw [AddressBookTag.key, hbook ht]; rfl
  rw [Unique, World.replace, List.map_append, List.nodup_append, hkeys,
    List.nodup_map_iff fun _ _ heq ↦ (Prod.mk.inj heq).2]
  constructor
  · exact fun h ↦ h.2.1
  · intro hnames
    refine ⟨(List.filter_sublist.map _).nodup hu, hnames, ?_⟩
    rintro _ hm _ hm' rfl
    obtain ⟨old, hold, hkey⟩ := List.mem_map.mp hm
    obtain ⟨new, -, hnew⟩ := List.mem_map.mp hm'
    have hne : old.addressBookGuid ≠ addressBookGuid := by simpa using (List.mem_filter.mp hold).2
    exact hne (congrArg Prod.fst (hkey.trans hnew.symm))

theorem orderlyTo_of_eq (h : w'.history = w.history) : OrderlyTo w w' :=
  fun _ _ heq ↦ absurd (h.symm.trans heq).symm (List.cons_ne_self _ _)

theorem orderlyTo_note (h : w'.history = w.history) :
    OrderlyTo w (w'.note call event) ↔ Orderly w call event := by
  rw [OrderlyTo, World.note, h]
  constructor
  · exact fun ho ↦ ho call event rfl
  · rintro ho _ _ heq
    cases heq
    exact ho

theorem unique_still (hu : Unique w) (ht : w'.tags = w.tags) (ho : OrderlyTo w w') :
    Unique w' ↔ OrderlyTo w w' := by
  rw [Unique, ht]
  exact ⟨fun _ ↦ ho, fun _ ↦ hu⟩

/-- The names stay unique with a command if and only if its step is orderly. -/
theorem exec_unique {c : Command} {o : Except Failure Unit} (hs : Sound w) (hg : guard call c w)
    (hu : Unique w) : Unique (exec call c o w).1 ↔ OrderlyTo w (exec call c o w).1 := by
  cases o with
  | error failure => cases c <;> exact unique_still hu rfl (orderlyTo_of_eq rfl)
  | ok u =>
    cases c with
    | findTag name addressBookGuid =>
      rw [exec]
      split <;> exact unique_still hu rfl ((orderlyTo_note rfl).mpr trivial)
    | saveTag addressBookGuid name color =>
      have hnote := @orderlyTo_note w (w.insert addressBookGuid name color) call
        (.saved w.nextGuid (addressBookGuid, name)) rfl
      exact (unique_insert hs hu hg).trans hnote.symm
    | updateName guid name =>
      obtain ⟨addressBookGuid, old, hfound, hmissed⟩ := hg
      rw [exec]
      split
      · exact unique_still hu rfl (orderlyTo_of_eq rfl)
      · next tag h =>
        have hmem := List.mem_of_find?_eq_some h
        have hguid : tag.guid = guid := by simpa using List.find?_some h
        have hbook := (hs.found call guid _ hfound).2 tag hmem hguid
        rw [← show tag.addressBookGuid = addressBookGuid from hbook] at hmissed
        have hnote := @orderlyTo_note w (w.rename guid name) call
          (.renamed guid (tag.addressBookGuid, name)) rfl
        exact (unique_rename hs hu hmem hguid hmissed).trans hnote.symm
    | transaction addressBookGuid tags =>
      have hnote := @orderlyTo_note w (w.replace addressBookGuid tags) call (.replaced addressBookGuid
        ((drawn addressBookGuid w.nextGuid tags).map fun tag ↦ (tag.guid, tag.name))) rfl
      rw [Orderly, List.map_map] at hnote
      exact (unique_replace hu).trans hnote.symm
    | _ => exact unique_still hu rfl (orderlyTo_of_eq rfl)

end Steps

section Runs

/-- A database whose tags have guids of their own and unique names, and no call yet. -/
structure Starts (w : World) : Prop where
  guids : (w.tags.map (·.guid)).Nodup
  fresh : ∀ tag ∈ w.tags, tag.guid < w.nextGuid
  unique : Unique w
  history : w.history = []

theorem Starts.sound (h : Starts w) : Sound w where
  guids := h.guids
  fresh := h.fresh
  missed call key later hsince := by
    have hm := hsince.mem
    rw [h.history] at hm
    cases hm
  found call guid key hm := by
    rw [h.history] at hm
    cases hm

theorem step_unique (hv : logic.Verified cfg) (hu : Unique cfg.world)
    (hs : machine.Step cfg cfg') : Unique cfg'.world ↔ OrderlyStep cfg cfg' := by
  rw [OrderlyStep]
  rcases Logic.Leaves.step_cases hv hs with hw | ⟨call, c, o, hg, hw⟩
  · rw [hw]
    exact unique_still hu rfl (orderlyTo_of_eq rfl)
  · rw [hw]
    exact exec_unique hv.1 hg hu

/-- An orderly run keeps the names of each book unique, and a further step keeps them so
if and only if it is orderly. -/
theorem tags_unique (h₀ : Starts w₀)
    (hr : machine.RunWhere OrderlyStep (Machine.idle w₀) cfg) :
    Unique cfg.world ∧
      ∀ cfg', machine.Step cfg cfg' → (Unique cfg'.world ↔ OrderlyStep cfg cfg') := by
  have hv {cfg : Config Call Command Reply World} (hrun : machine.Run (Machine.idle w₀) cfg) :
      logic.Verified cfg := (Logic.verified_idle h₀.sound).run admissible hrun
  have hu : Unique cfg.world := by
    induction hr with
    | refl => exact h₀.unique
    | tail hrun hs ih => exact (step_unique (hv (Machine.RunWhere.run hrun)) ih hs.1).mpr hs.2
  exact ⟨hu, fun cfg' hs ↦ step_unique (hv hr.run) hu hs⟩

end Runs

section Sample

/-- Nothing stands in the way of what is written. -/
def orderlyStep (w w' : World) : Bool :=
  w'.history = w.history || match w'.history with
    | (_, .saved guid key) :: _ | (_, .renamed guid key) :: _ =>
      w.tags.all fun tag ↦ tag.key ≠ key || tag.guid = guid
    | (_, .replaced _ tags) :: _ => (tags.map Prod.snd).Nodup
    | _ => true

theorem orderlyStep_iff (cfg cfg' : Config Call Command Reply World)
    (h : orderlyStep cfg.world cfg'.world = true) : OrderlyStep cfg cfg' := by
  intro call event hh
  rw [orderlyStep, hh, decide_eq_false (List.cons_ne_self _ _), Bool.false_or] at h
  have hfree {guid : ℕ} {key : Key}
      (hall : cfg.world.tags.all (fun tag ↦ tag.key ≠ key || tag.guid = guid) = true) :
      Undisturbed cfg.world call guid key := by
    intro later _ tag hm hkey hne
    have htag := List.all_eq_true.mp hall tag hm
    simp [hkey, hne] at htag
  cases event with
  | missed key => trivial
  | found guid key => trivial
  | saved guid key => exact hfree h
  | renamed guid key => exact hfree h
  | replaced addressBookGuid tags =>
    have hnames : (tags.map Prod.snd).Nodup := of_decide_eq_true h
    exact hnames

def sampleFresh (call : Call) (w : World) : Bool := w.history.all fun e ↦ decide (e.1 ≠ call)

theorem sampleFresh_admits (call : Call) (w : World) (h : sampleFresh call w = true) :
    machine.admits call w (handler call) := by
  refine ⟨fun event hm ↦ ?_, rfl⟩
  have hne := List.all_eq_true.mp h _ hm
  simp at hne

def sampleWorld : World := ⟨[⟨1, "owner", true, "Personal"⟩], [⟨2, 1, "home", 0⟩], 3, []⟩

theorem starts_sample : Starts sampleWorld := by
  constructor <;> simp [sampleWorld, Unique]

def sampleRun (turns : List (Call × ℕ)) : Config Call Command Reply World :=
  machine.schedule handler sampleFresh
    (turns.map fun t ↦ (t.1, List.replicate t.2 (.ok ()))) (Machine.idle sampleWorld)

def sampleAdd (id : ℕ) : Call := ⟨id, .addTag 1 ⟨"work", none⟩ (some "owner")⟩

def sampleLegacy (tags : List String) : Call :=
  ⟨0, .updateLegacyAddressBook "owner" (.parsed ⟨tags, []⟩)⟩

def sampleRename : Call := ⟨0, .renameTag 1 ⟨"home", "away"⟩ none⟩

/-- The book is replaced while the second call still waits. -/
theorem sample_tags_unique :
    Unique (sampleRun [(sampleAdd 0, 4), (sampleRename, 2), (sampleLegacy ["away", "prototype"], 2),
      (sampleRename, 1), (⟨1, .getOrCreateTag 1 "home"⟩, 2)]).world :=
  (tags_unique starts_sample (Machine.schedule_runWhere orderlyStep_iff
    (fun _ ↦ by simp [orderlyStep]) sampleFresh_admits _ (by decide +kernel))).1

/-- One request that lists a name twice, or two requests that overlap. -/
theorem tag_repeated :
    (∃ w₀ cfg, Starts w₀ ∧ machine.Run (Machine.idle w₀) cfg ∧ ¬Unique cfg.world ∧
      ∀ e ∈ cfg.world.history, e.1 = sampleLegacy ["work", "work"]) ∧
    ∃ w₀ cfg, Starts w₀ ∧ machine.Run (Machine.idle w₀) cfg ∧ ¬Unique cfg.world ∧
      ∀ e ∈ cfg.world.history, e.1 = sampleAdd 0 ∨ e.1 = sampleAdd 1 := by
  constructor
  · refine ⟨_, sampleRun [(sampleLegacy ["work", "work"], 2)], starts_sample,
      Machine.schedule_run sampleFresh_admits _, ?_, by decide +kernel⟩
    rw [Unique]
    decide +kernel
  · refine ⟨_, sampleRun [(sampleAdd 0, 3), (sampleAdd 1, 4), (sampleAdd 0, 1)], starts_sample,
      Machine.schedule_run sampleFresh_admits _, ?_, by decide +kernel⟩
    rw [Unique]
    decide +kernel

end Sample

end RustdeskConsole.Tags
