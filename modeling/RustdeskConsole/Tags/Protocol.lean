import Mathlib.Data.List.Nodup
import RustdeskConsole.Effects.History
import RustdeskConsole.Effects.Logic
import RustdeskConsole.Tags.Service

namespace RustdeskConsole.Tags

open Effects Effects.History

variable {w w' : World} {call : Call} {event : Event} {guid addressBookGuid : ℕ} {name : String}
  {key : Key} {tag : AddressBookTag}

/-- The event gave the tag this book and name. -/
def Event.Writes (guid : ℕ) (key : Key) : Event → Prop
  | .saved g k | .renamed g k => g = guid ∧ k = key
  | .replaced addressBookGuid tags => addressBookGuid = key.1 ∧ (guid, key.2) ∈ tags
  | .missed _ | .found .. => False

/-- A tag of a name that a call did not find was given that name afterwards, and the tag
that a call found stays in its book. -/
structure Sound (w : World) : Prop where
  guids : (w.tags.map (·.guid)).Nodup
  fresh : ∀ tag ∈ w.tags, tag.guid < w.nextGuid
  missed : ∀ call key later, Since (call, .missed key) later w.history →
    ∀ tag ∈ w.tags, tag.key = key → ∃ e ∈ later, e.2.Writes tag.guid key
  found : ∀ call guid key, (call, .found guid key) ∈ w.history →
    guid < w.nextGuid ∧ ∀ tag ∈ w.tags, tag.guid = guid → tag.addressBookGuid = key.1

def guard (call : Call) (c : Command) (w : World) : Prop :=
  match c with
  | .saveTag addressBookGuid name _ => (call, .missed (addressBookGuid, name)) ∈ w.history
  | .updateName guid name => ∃ addressBookGuid old,
    (call, .found guid (addressBookGuid, old)) ∈ w.history ∧
      (call, .missed (addressBookGuid, name)) ∈ w.history
  | _ => True

theorem eq_of_guid (hg : (w.tags.map (·.guid)).Nodup) {tag' : AddressBookTag}
    (hm : tag ∈ w.tags) (hm' : tag' ∈ w.tags) (h : tag.guid = tag'.guid) : tag = tag' :=
  List.inj_on_of_nodup_map hg hm hm' h

theorem not_found (h : findTag w.tags name addressBookGuid = none) (hm : tag ∈ w.tags) :
    tag.key ≠ (addressBookGuid, name) := by
  have hno := List.find?_eq_none.mp h tag hm
  simpa using hno

theorem found_mem (h : findTag w.tags name addressBookGuid = some tag) :
    tag ∈ w.tags ∧ tag.key = (addressBookGuid, name) :=
  ⟨List.mem_of_find?_eq_some h, by simpa using List.find?_some h⟩

theorem Sound.note_missed (hs : Sound w) (h : findTag w.tags name addressBookGuid = none) :
    Sound (w.note call (.missed (addressBookGuid, name))) where
  guids := hs.guids
  fresh := hs.fresh
  missed other key later hsince tag hm hkey := by
    rcases since_cons.mp hsince with ⟨-, heq⟩ | ⟨l, rfl, hold⟩
    · cases heq
      exact absurd hkey (not_found h hm)
    · obtain ⟨e, he, hw⟩ := hs.missed other key l hold tag hm hkey
      exact ⟨e, .tail _ he, hw⟩
  found other guid key hm := by
    rcases List.mem_cons.mp hm with heq | hm
    · cases heq
    · exact hs.found other guid key hm

theorem Sound.note_found (hs : Sound w) (h : tag ∈ w.tags) :
    Sound (w.note call (.found tag.guid tag.key)) where
  guids := hs.guids
  fresh := hs.fresh
  missed other key later hsince tag hm hkey := by
    rcases since_cons.mp hsince with ⟨-, heq⟩ | ⟨l, rfl, hold⟩
    · cases heq
    · obtain ⟨e, he, hw⟩ := hs.missed other key l hold tag hm hkey
      exact ⟨e, .tail _ he, hw⟩
  found other guid key hm := by
    rcases List.mem_cons.mp hm with heq | hm
    · cases heq
      refine ⟨hs.fresh tag h, fun tag' hm' hguid ↦ ?_⟩
      rw [eq_of_guid hs.guids hm' h hguid]
      rfl
    · exact hs.found other guid key hm

/-- What a command that writes tags may do. -/
structure Writes (w w' : World) (event : Event) : Prop where
  guids : (w'.tags.map (·.guid)).Nodup
  fresh : ∀ tag ∈ w'.tags, tag.guid < w'.nextGuid
  grows : w.nextGuid ≤ w'.nextGuid
  history : w'.history = w.history
  written : ∀ tag ∈ w'.tags, tag ∈ w.tags ∨ event.Writes tag.guid tag.key
  kept : ∀ tag ∈ w'.tags, w.nextGuid ≤ tag.guid ∨
    ∃ old ∈ w.tags, old.guid = tag.guid ∧ old.addressBookGuid = tag.addressBookGuid
  missed : ∀ key, event ≠ .missed key
  found : ∀ guid key, event ≠ .found guid key

theorem Sound.write (hs : Sound w) (hw : Writes w w' event) : Sound (w'.note call event) where
  guids := hw.guids
  fresh := hw.fresh
  missed other key later hsince tag hm hkey := by
    rcases since_cons.mp hsince with ⟨-, heq⟩ | ⟨l, rfl, hold⟩
    · exact absurd (Prod.mk.inj heq).2.symm (hw.missed key)
    · rw [hw.history] at hold
      rcases hw.written tag hm with hm | hwrites
      · obtain ⟨e, he, hw⟩ := hs.missed other key l hold tag hm hkey
        exact ⟨e, .tail _ he, hw⟩
      · exact ⟨_, .head _, hkey ▸ hwrites⟩
  found other guid key hm := by
    rcases List.mem_cons.mp hm with heq | hm
    · exact absurd (Prod.mk.inj heq).2.symm (hw.found guid key)
    · rw [hw.history] at hm
      obtain ⟨hlt, hbook⟩ := hs.found other guid key hm
      refine ⟨Nat.lt_of_lt_of_le hlt hw.grows, fun tag htag hguid ↦ ?_⟩
      rcases hw.kept tag htag with hnew | ⟨old, hold, hsame, hab⟩
      · have hle : w.nextGuid ≤ guid := hguid ▸ hnew
        omega
      · rw [← hab]
        exact hbook old hold (hsame.trans hguid)

theorem insert_writes (hs : Sound w) {color : ℤ} : Writes w (w.insert addressBookGuid name color)
    (.saved w.nextGuid (addressBookGuid, name)) where
  guids := by
    rw [World.insert, List.map_append, List.nodup_append]
    refine ⟨hs.guids, by simp, fun guid hm other ho ↦ ?_⟩
    obtain ⟨tag, htag, rfl⟩ := List.mem_map.mp hm
    have hlt := hs.fresh tag htag
    rw [List.mem_singleton.mp ho]
    exact Nat.ne_of_lt hlt
  fresh tag hm := by
    rcases List.mem_append.mp hm with hm | hm
    · exact Nat.lt_succ_of_lt (hs.fresh tag hm)
    · rw [List.mem_singleton.mp hm]
      exact Nat.lt_succ_self _
  grows := Nat.le_succ _
  history := rfl
  written tag hm := by
    refine (List.mem_append.mp hm).imp_right fun hm ↦ ?_
    rw [List.mem_singleton.mp hm]
    exact ⟨rfl, rfl⟩
  kept tag hm := by
    rcases List.mem_append.mp hm with hm | hm
    · exact .inr ⟨tag, hm, rfl, rfl⟩
    · rw [List.mem_singleton.mp hm]
      exact .inl (Nat.le_refl _)
  missed := nofun
  found := nofun

theorem rename_guids : ((w.rename guid name).tags.map (·.guid)) = w.tags.map (·.guid) := by
  rw [World.rename, List.map_map]
  refine List.map_congr_left fun tag _ ↦ ?_
  dsimp only [Function.comp_def]
  split <;> rfl

theorem mem_rename (h : tag ∈ (w.rename guid name).tags) :
    ∃ old ∈ w.tags, tag = if old.guid = guid then { old with name := name } else old := by
  obtain ⟨old, hm, rfl⟩ := List.mem_map.mp h
  exact ⟨old, hm, rfl⟩

theorem rename_writes (hs : Sound w) (hm : tag ∈ w.tags) (hguid : tag.guid = guid) :
    Writes w (w.rename guid name) (.renamed guid (tag.addressBookGuid, name)) where
  guids := by
    rw [rename_guids]
    exact hs.guids
  fresh tag hm := by
    obtain ⟨old, hold, rfl⟩ := mem_rename hm
    have hlt := hs.fresh old hold
    split <;> exact hlt
  grows := Nat.le_refl _
  history := rfl
  written tag' hm' := by
    obtain ⟨old, hold, rfl⟩ := mem_rename hm'
    split
    · next heq =>
      rw [eq_of_guid hs.guids hold hm (heq.trans hguid.symm)]
      exact .inr ⟨hguid.symm, rfl⟩
    · exact .inl hold
  kept tag' hm' := by
    obtain ⟨old, hold, rfl⟩ := mem_rename hm'
    refine .inr ⟨old, hold, ?_⟩
    split <;> exact ⟨rfl, rfl⟩
  missed := nofun
  found := nofun

theorem mem_drawn {tags : List (String × ℤ)} {next : ℕ} (h : tag ∈ drawn addressBookGuid next tags) :
    tag.addressBookGuid = addressBookGuid ∧ next ≤ tag.guid ∧ tag.guid < next + tags.length := by
  induction tags generalizing next with
  | nil => cases h
  | cons entry tags ih =>
    rcases List.mem_cons.mp h with rfl | h
    · simp
    · obtain ⟨hbook, hle, hlt⟩ := ih h
      rw [List.length_cons]
      exact ⟨hbook, by omega, by omega⟩

theorem drawn_guids {tags : List (String × ℤ)} {next : ℕ} :
    ((drawn addressBookGuid next tags).map (·.guid)).Nodup := by
  induction tags generalizing next with
  | nil => exact .nil
  | cons entry tags ih =>
    rw [drawn, List.map_cons, List.nodup_cons]
    refine ⟨fun hm ↦ ?_, ih⟩
    obtain ⟨tag, htag, heq⟩ := List.mem_map.mp hm
    obtain ⟨-, hle, -⟩ := mem_drawn htag
    dsimp only at heq
    omega

theorem replace_writes (hs : Sound w) {tags : List (String × ℤ)} :
    Writes w (w.replace addressBookGuid tags) (.replaced addressBookGuid
      ((drawn addressBookGuid w.nextGuid tags).map fun tag ↦ (tag.guid, tag.name))) where
  guids := by
    rw [World.replace, List.map_append, List.nodup_append]
    refine ⟨(List.filter_sublist.map _).nodup hs.guids, drawn_guids, fun guid hm other ho ↦ ?_⟩
    obtain ⟨tag, htag, rfl⟩ := List.mem_map.mp hm
    obtain ⟨new, hnew, rfl⟩ := List.mem_map.mp ho
    have hlt := hs.fresh tag (List.mem_of_mem_filter htag)
    obtain ⟨-, hle, -⟩ := mem_drawn hnew
    omega
  fresh tag hm := by
    rcases List.mem_append.mp hm with hm | hm
    · exact Nat.lt_add_right _ (hs.fresh tag (List.mem_of_mem_filter hm))
    · exact (mem_drawn hm).2.2
  grows := Nat.le_add_right ..
  history := rfl
  written tag hm := by
    rcases List.mem_append.mp hm with hm | hm
    · exact .inl (List.mem_of_mem_filter hm)
    · exact .inr ⟨(mem_drawn hm).1.symm, List.mem_map_of_mem hm⟩
  kept tag hm := by
    rcases List.mem_append.mp hm with hm | hm
    · exact .inr ⟨tag, List.mem_of_mem_filter hm, rfl, rfl⟩
    · exact .inl (mem_drawn hm).2.1
  missed := nofun
  found := nofun

theorem Sound.of_eq (hs : Sound w) (ht : w'.tags = w.tags) (hn : w.nextGuid ≤ w'.nextGuid)
    (hh : w'.history = w.history) : Sound w' := by
  obtain ⟨books, tags, next, history⟩ := w'
  subst ht hh
  exact ⟨hs.guids, fun tag hm ↦ Nat.lt_of_lt_of_le (hs.fresh tag hm) hn, hs.missed,
    fun call guid key hm ↦ (hs.found call guid key hm).imp_left fun hlt ↦ Nat.lt_of_lt_of_le hlt hn⟩

theorem exec_sound {c : Command} {o : Except Failure Unit} (hs : Sound w) :
    Sound (exec call c o w).1 := by
  cases o with
  | error failure => cases c <;> exact hs
  | ok u =>
    cases c with
    | checkAccess => exact hs
    | findAddressBook guid => exact hs
    | findPersonal owner => exact hs
    | saveAddressBook owner name => exact hs.of_eq rfl (Nat.le_succ _) rfl
    | findTag name addressBookGuid =>
      rw [exec]
      split
      · next h => exact hs.note_missed h
      · next h => exact hs.note_found (found_mem h).1
    | saveTag addressBookGuid name color => exact hs.write (insert_writes hs)
    | updateName guid name =>
      rw [exec]
      split
      · exact hs
      · next h =>
        have hguid := List.find?_some h
        exact hs.write (rename_writes hs (List.mem_of_find?_eq_some h) (of_decide_eq_true hguid))
    | transaction addressBookGuid tags => exact hs.write (replace_writes hs)

theorem exec_history {c : Command} {o : Except Failure Unit} :
    w.history ⊆ (exec call c o w).1.history := by
  cases o with
  | error failure => cases c <;> exact fun _ hm ↦ hm
  | ok u =>
    cases c with
    | findTag name addressBookGuid =>
      rw [exec]
      split <;> exact List.subset_cons_self ..
    | saveTag => exact List.subset_cons_self ..
    | updateName guid name =>
      rw [exec]
      split
      · exact fun _ hm ↦ hm
      · exact List.subset_cons_self ..
    | transaction => exact List.subset_cons_self ..
    | _ => exact fun _ hm ↦ hm

/-- A call writes a tag of a name that it has looked for in vain. -/
def logic : Logic machine where
  inv := Sound
  guard := guard
  rely _ w w' := w.history ⊆ w'.history
  rely_refl _ _ := fun _ hm ↦ hm
  rely_trans _ := fun h h' _ hm ↦ h' (h hm)
  keeps _ _ hs _ := exec_sound hs
  interferes _ _ _ _ _ := exec_history

section Specs

variable {α : Type} {s : Unit}

/-- The process ends, one way or another. -/
abbrev Does (call : Call) (p : Handler α) (Q : α → World → Prop) (w : World) : Prop :=
  logic.Ensures call p (fun a _ w ↦ Q a w) (fun _ _ _ ↦ True) () w

theorem attempt_spec {c : Command} (h : Reply c = Except Failure α) (hg : ∀ w, guard call c w) :
    Does call (attempt c h) (fun _ _ ↦ True) w := by
  refine .invoke fun w₁ _ _ ↦ ⟨hg w₁, fun o w₂ r hx _ ↦ ?_⟩
  cases h ▸ r <;> trivial

theorem requireWrite_spec {userId : Option String} :
    Does call (requireWrite addressBookGuid userId) (fun _ _ ↦ True) w := by
  unfold requireWrite
  split
  · exact attempt_spec rfl fun _ ↦ trivial
  · exact .pure trivial

theorem findAddressBook_spec {guid : ℕ} :
    Does call (attempt (.findAddressBook guid) rfl) (fun _ _ ↦ True) w :=
  attempt_spec rfl fun _ ↦ trivial

theorem findTag_spec : Does call (attempt (.findTag name addressBookGuid) rfl)
    (fun found w' ↦ w.history ⊆ w'.history ∧ match found with
      | none => (call, .missed (addressBookGuid, name)) ∈ w'.history
      | some tag => (call, .found tag.guid (addressBookGuid, name)) ∈ w'.history) w := by
  refine .invoke fun w₁ hk _ ↦ ⟨trivial, fun o w₂ r hx _ ↦ ?_⟩
  cases o with
  | error failure =>
    cases hx
    trivial
  | ok u =>
    simp only [machine, exec] at hx
    split at hx
    · cases hx
      exact ⟨fun _ hm ↦ .tail _ (hk hm), .head _⟩
    · next h =>
      cases hx
      rw [(found_mem h).2]
      exact ⟨fun _ hm ↦ .tail _ (hk hm), .head _⟩

theorem saveTag_spec {color : ℤ} (hm : (call, .missed (addressBookGuid, name)) ∈ w.history) :
    Does call (attempt (.saveTag addressBookGuid name color) rfl) (fun _ _ ↦ True) w := by
  refine .invoke fun w₁ hk _ ↦ ⟨hk hm, fun o w₂ r hx _ ↦ ?_⟩
  cases r <;> trivial

theorem getOrCreateTag_spec : Does call (getOrCreateTag addressBookGuid name) (fun _ _ ↦ True) w := by
  refine .bind (findTag_spec.mono (fun found _ w₁ hfound ↦ ?_) fun _ _ _ he ↦ he)
  cases found with
  | some tag => exact .pure trivial
  | none =>
    exact .bind ((saveTag_spec hfound.2).mono (fun _ _ _ _ ↦ .pure trivial) fun _ _ _ he ↦ he)

theorem addTag_spec {dto : AddTagDto} {userId : Option String} :
    Does call (addTag addressBookGuid dto userId) (fun _ _ ↦ True) w := by
  refine .bind (requireWrite_spec.mono (fun _ _ w₁ _ ↦ ?_) fun _ _ _ he ↦ he)
  refine .bind (findAddressBook_spec.mono (fun book _ w₂ _ ↦ ?_) fun _ _ _ he ↦ he)
  cases book with
  | none => exact .throw trivial
  | some book =>
    refine .bind (findTag_spec.mono (fun found _ w₃ hfound ↦ ?_) fun _ _ _ he ↦ he)
    cases found with
    | some tag => exact .throw trivial
    | none =>
      exact .bind ((saveTag_spec hfound.2).mono (fun _ _ _ _ ↦ .pure trivial) fun _ _ _ he ↦ he)

theorem renameTag_spec {dto : RenameTagDto} {userId : Option String} :
    Does call (renameTag addressBookGuid dto userId) (fun _ _ ↦ True) w := by
  refine .bind (requireWrite_spec.mono (fun _ _ w₁ _ ↦ ?_) fun _ _ _ he ↦ he)
  refine .bind (findTag_spec.mono (fun found _ w₂ hfound ↦ ?_) fun _ _ _ he ↦ he)
  cases found with
  | none => exact .throw trivial
  | some tag =>
    refine .bind (findTag_spec.mono (fun other _ w₃ hother ↦ ?_) fun _ _ _ he ↦ he)
    cases other with
    | some other => exact .throw trivial
    | none =>
      refine .invoke fun w₄ hk _ ↦ ⟨?_, fun o w₅ r hx _ ↦ ?_⟩
      · exact ⟨addressBookGuid, dto.old, hk (hother.1 hfound.2), hk hother.2⟩
      · cases r <;> trivial

theorem findOrCreatePersonal_spec {userId : String} :
    Does call (findOrCreatePersonal userId) (fun _ _ ↦ True) w := by
  have hfind : Does call (attempt (.findPersonal userId) rfl) (fun _ _ ↦ True) w :=
    attempt_spec rfl fun _ ↦ trivial
  refine .bind (hfind.mono (fun found _ w₁ _ ↦ ?_) fun _ _ _ he ↦ he)
  cases found with
  | some book => exact .pure trivial
  | none => exact attempt_spec rfl fun _ ↦ trivial

theorem updateLegacyAddressBook_spec {userId : String} {data : LegacyBody} :
    Does call (updateLegacyAddressBook userId data) (fun _ _ ↦ True) w := by
  cases data with
  | empty => exact .pure trivial
  | malformed => exact .throw trivial
  | null =>
    exact .bind (findOrCreatePersonal_spec.mono (fun _ _ _ _ ↦ .throw trivial) fun _ _ _ he ↦ he)
  | parsed data =>
    refine .bind (findOrCreatePersonal_spec.mono (fun book _ w₁ _ ↦ ?_) fun _ _ _ he ↦ he)
    exact attempt_spec rfl fun _ ↦ trivial

theorem admissible : logic.Admissible := by
  rintro call w p - ⟨-, rfl⟩
  have hserve : Does call (serve call.request) (fun _ _ ↦ True) w := by
    cases call.request with
    | addTag addressBookGuid dto userId => exact addTag_spec
    | renameTag addressBookGuid dto userId => exact renameTag_spec
    | getOrCreateTag addressBookGuid tagName => exact .map getOrCreateTag_spec
    | updateLegacyAddressBook userId data => exact updateLegacyAddressBook_spec
  exact Logic.Wp.bind (Logic.Wp.mono hserve fun _ _ _ ↦ trivial)

end Specs

end RustdeskConsole.Tags
