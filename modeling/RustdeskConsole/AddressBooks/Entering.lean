import Mathlib.Data.List.Forall2
import RustdeskConsole.AddressBooks.Replacing

namespace RustdeskConsole.AddressBooks.AddressBookLegacyService

open Accounts (Failure)
open Collections Effects Effects.Checked

variable {env : Environment} {s s' : State} {book : String} {names : OrderedMap String String}
  {peerData : PeerPayload} {row : AddressBookPeer}

/-- The books and the tags stay, and the peers with their links. -/
structure Kept (before after : PeerStore) : Prop where
  addressBooks : after.addressBooks = before.addressBooks
  tags : after.tags = before.tags
  devices : before.devices ⊆ after.devices
  peers : before.peers ⊆ after.peers
  links : ∀ link, link.peerGuid ∈ before.peers.map (·.guid) →
    (link ∈ after.links ↔ link ∈ before.links)

/-- The row of a peer, of its device and with a link to each of its tags that has a
guid. -/
structure Entered (book : String) (names : OrderedMap String String) (store : PeerStore)
    (peerData : PeerPayload) (row : AddressBookPeer) : Prop where
  book : row.addressBookGuid = book
  device : ∃ device ∈ store.devices, device.uuid = row.deviceId ∧ device.id = peerData.id
  hash : row.hash = some (peerData.hash.getD "")
  peerAlias : row.peerAlias = some (peerData.peerAlias.getD "")
  links : ∀ tagGuid, ⟨row.guid, tagGuid⟩ ∈ store.links ↔
    ∃ name ∈ peerData.tags, names.get? name = some tagGuid
  declared : ∀ name ∈ peerData.tags, name ∈ inheritedMembers → names.get? name ≠ none

/-- A name of a tag that stands for an inherited member. -/
def Misnamed (names : OrderedMap String String) (peerData : PeerPayload) : Prop :=
  ∃ name ∈ peerData.tags, names.get? name = none ∧ name ∈ inheritedMembers

theorem Kept.refl (store : PeerStore) : Kept store store :=
  ⟨rfl, rfl, fun _ h ↦ h, fun _ h ↦ h, fun _ _ ↦ .rfl⟩

theorem Kept.trans {first second third : PeerStore} (h₁ : Kept first second)
    (h₂ : Kept second third) : Kept first third where
  addressBooks := h₂.addressBooks.trans h₁.addressBooks
  tags := h₂.tags.trans h₁.tags
  devices _ h := h₂.devices (h₁.devices h)
  peers _ h := h₂.peers (h₁.peers h)
  links link h := (h₂.links link (List.map_subset _ h₁.peers h)).trans (h₁.links link h)

theorem Entered.later {before after : PeerStore} (h : Entered book names before peerData row)
    (hk : Kept before after) (hrow : row ∈ before.peers) :
    Entered book names after peerData row where
  book := h.book
  device := by
    obtain ⟨device, hm, hd⟩ := h.device
    exact ⟨device, hk.devices hm, hd⟩
  hash := h.hash
  peerAlias := h.peerAlias
  links tagGuid := (hk.links _ (List.mem_map_of_mem hrow)).trans (h.links tagGuid)
  declared := h.declared

section Device

theorem Sound.addDevice (henv : Answers env) (hs : Sound env s) {id : String} {n : ℕ} :
    Sound env ⟨{ s.store with devices := s.store.devices ++ [⟨env.uuid s.drawn, id⟩] },
      s.drawn + 1, n⟩ where
  identified := ⟨hs.identified.peers, hs.identified.tags⟩
  devices := by
    have hnew : env.uuid s.drawn ∉ s.store.devices.map (·.uuid) := fun h ↦ hs.uuid_notMem (by
      simp only [keys, List.mem_append]
      exact .inl (.inr h))
    simpa using List.nodup_append.mpr ⟨hs.devices, List.nodup_singleton _, by simpa using hnew⟩
  fresh := by
    refine hs.draw henv (Nat.lt_succ_self _) fun key hm ↦ ?_
    simp only [keys, List.map_append, List.mem_append, List.map_cons, List.map_nil,
      List.mem_singleton] at hm ⊢
    tauto

/-- A device that is there, or that an IP address stands for. -/
def Known (store : PeerStore) (id : String) : Prop :=
  (∃ device ∈ store.devices, device.id = id) ∨ isIpDevice id

theorem findOrCreatePeer_ends (henv : Answers env) (hs : Sound env s) {id : String}
    (hid : Known s.store id) :
    Ends (findOrCreatePeer env id) s fun r s' ↦ ∃ device, r = .ok (some device) ∧
      device ∈ s'.store.devices ∧ device.id = id ∧ Sound env s' ∧ Kept s.store s'.store ∧
        s'.store.peers = s.store.peers := by
  refine ask_bind henv ?_
  refine .get_bind ?_
  cases hfind : (env.byHeartbeat s.store.devices).find? (·.id = id) with
  | some device =>
    refine .pure ⟨device, rfl, ?_, key_of_find? hfind,
      hs.shrink (.refl _) (.refl _) (.refl _) (.refl _) le_rfl, .refl _, rfl⟩
    exact (env.perm _).mem_iff.mp (List.mem_of_find?_eq_some hfind)
  | none =>
    have hip : isIpDevice id = true := by
      rcases hid with ⟨device, hm, hd⟩ | hip
      · have h := List.find?_eq_none.mp hfind device ((env.perm _).mem_iff.mpr hm)
        exact absurd (decide_eq_true hd) h
      · exact hip
    simp only [hip, ↓reduceIte]
    refine draw_bind (write_bind henv (.pure ⟨_, rfl, ?_, rfl, hs.addDevice henv, ?_, rfl⟩))
    · simp
    · exact ⟨rfl, rfl, fun _ h ↦ List.mem_append_left _ h, fun _ h ↦ h, fun _ _ ↦ .rfl⟩

end Device

section Links

variable {tags : List String} {guid : String}

theorem addLink_eq (link : AddressBookPeerTag) (store : PeerStore) :
    ∃ links, addLink link store = { store with links := links } ∧
      ∀ other, other ∈ links ↔ other ∈ store.links ∨ other = link := by
  rw [addLink]
  split
  · next h =>
    refine ⟨store.links, rfl, fun other ↦ ⟨.inl, ?_⟩⟩
    rintro (hm | rfl)
    · exact hm
    · exact h
  · exact ⟨_, rfl, fun other ↦ by simp⟩

theorem Sound.withLinks (hs : Sound env s) {links : List AddressBookPeerTag} {n : ℕ}
    (hl : ∀ link ∈ links, link ∈ s.store.links ∨ link.peerGuid ∈ s.store.peers.map (·.guid)) :
    Sound env ⟨{ s.store with links := links }, s.drawn, n⟩ where
  identified := ⟨hs.identified.peers, hs.identified.tags⟩
  devices := hs.devices
  fresh n hle hm := by
    refine hs.fresh n hle ?_
    simp only [keys, List.mem_append] at hm ⊢
    rcases hm with hm | hm
    · exact .inl hm
    · obtain ⟨link, hlink, hg⟩ := List.mem_map.mp hm
      rw [← hg]
      rcases hl link hlink with h | h
      · exact .inr (List.mem_map_of_mem h)
      · exact .inl (.inl (.inl h))

/-- What the links of one peer change. -/
structure LinksBuilt (env : Environment) (guid : String) (names : OrderedMap String String)
    (tags : List String) (s s' : State) : Prop where
  sound : Sound env s'
  store : s'.store = { s.store with links := s'.store.links }
  links : ∀ link, link ∈ s'.store.links ↔ link ∈ s.store.links ∨
    link.peerGuid = guid ∧ ∃ name ∈ tags, names.get? name = some link.tagGuid
  declared : ∀ name ∈ tags, name ∈ inheritedMembers → names.get? name ≠ none

theorem createLinks_ends (henv : Answers env) (hs : Sound env s)
    (hg : guid ∈ s.store.peers.map (·.guid)) :
    Ends (createLinks env names guid tags) s fun r s' ↦
      match r with
      | .ok _ => LinksBuilt env guid names tags s s'
      | .error _ => ∃ name ∈ tags, names.get? name = none ∧ name ∈ inheritedMembers := by
  induction tags generalizing s with
  | nil => exact .pure ⟨hs, rfl, fun link ↦ by simp, (by simp)⟩
  | cons tag tags ih =>
    rw [createLinks]
    cases hname : names.get? tag with
    | some tagGuid =>
      obtain ⟨links, hadd, hmem⟩ := addLink_eq ⟨guid, tagGuid⟩ s.store
      refine write_bind henv ?_
      rw [hadd]
      have hs₁ : Sound env ⟨{ s.store with links := links }, s.drawn, s.asked + 1⟩ := by
        refine hs.withLinks fun link hl ↦ ((hmem link).mp hl).imp_right ?_
        rintro rfl
        exact hg
      refine (ih hs₁ hg).mono fun r s' h ↦ ?_
      cases r with
      | error failure =>
        obtain ⟨name, hm, hbad⟩ := h
        exact ⟨name, .tail _ hm, hbad⟩
      | ok _ =>
        refine ⟨h.sound, h.store, fun link ↦ ?_, List.forall_mem_cons.mpr ⟨fun _ ↦ ?_, h.declared⟩⟩
        · rw [h.links, hmem]
          obtain ⟨peerGuid, other⟩ := link
          simp only [List.exists_mem_cons_iff, hname, AddressBookPeerTag.mk.injEq,
            Option.some.injEq]
          tauto
        · rw [hname]
          simp
    | none =>
      simp only
      split
      · next hin => exact .throw ⟨tag, .head _, hname, hin⟩
      · next hin =>
        refine (ih hs hg).mono fun r s' h ↦ ?_
        cases r with
        | error failure =>
          obtain ⟨name, hm, hbad⟩ := h
          exact ⟨name, .tail _ hm, hbad⟩
        | ok _ =>
          refine ⟨h.sound, h.store, fun link ↦ ?_,
            List.forall_mem_cons.mpr ⟨fun h ↦ absurd h hin, h.declared⟩⟩
          rw [h.links]
          simp only [List.exists_mem_cons_iff, hname, reduceCtorEq, false_or]

end Links

section Peers

variable {peers : List PeerPayload}

theorem Sound.addPeer (henv : Answers env) (hs : Sound env s) {row : AddressBookPeer} {n : ℕ}
    (hg : row.guid = env.uuid s.drawn) :
    Sound env ⟨{ s.store with peers := s.store.peers ++ [row] }, s.drawn + 1, n⟩ where
  identified := by
    refine ⟨?_, hs.identified.tags⟩
    have hnew : row.guid ∉ s.store.peers.map (·.guid) := fun h ↦ hs.uuid_notMem (by
      rw [hg] at h
      simp only [keys, List.mem_append]
      exact .inl (.inl (.inl h)))
    simpa using List.nodup_append.mpr ⟨hs.identified.peers, List.nodup_singleton _, by
      simpa using hnew⟩
  devices := hs.devices
  fresh := by
    refine hs.draw henv (Nat.lt_succ_self _) fun key hm ↦ ?_
    simp only [keys, List.map_append, List.mem_append, List.map_cons, List.map_nil,
      List.mem_singleton, hg] at hm ⊢
    tauto

theorem createPeer_ends (henv : Answers env) (hs : Sound env s)
    (hid : Known s.store peerData.id) :
    Ends (createPeer env book names peerData) s fun r s' ↦
      match r with
      | .ok _ => ∃ row, Sound env s' ∧ Kept s.store s'.store ∧
          s'.store.peers = s.store.peers ++ [row] ∧ Entered book names s'.store peerData row
      | .error _ => Misnamed names peerData := by
  refine (findOrCreatePeer_ends henv hs hid).bind (fun found s₁ h₁ ↦ ?_) fun failure s₁ h₁ ↦ ?_
  · obtain ⟨device, hr, hdevice, hdid, hs₁, hk, hpeers⟩ := h₁
    obtain rfl : found = some device := by simpa using hr
    refine draw_bind (write_bind henv ?_)
    let row : AddressBookPeer := ⟨env.uuid s₁.drawn, book, device.uuid,
      some (peerData.hash.getD ""), none, some (peerData.peerAlias.getD ""), none⟩
    let s₂ : State :=
      ⟨{ s₁.store with peers := s₁.store.peers ++ [row] }, s₁.drawn + 1, s₁.asked + 1⟩
    have hs₂ : Sound env s₂ := hs₁.addPeer henv rfl
    have hlinks : Ends (createLinks env names row.guid peerData.tags) s₂ _ :=
      createLinks_ends henv hs₂ (by simp [s₂])
    refine hlinks.mono fun r s' h ↦ ?_
    cases r with
    | error failure => exact h
    | ok _ =>
      have hnew : ∀ link ∈ s₁.store.links, link.peerGuid ≠ row.guid := by
        intro link hm heq
        refine hs₁.uuid_notMem ?_
        simp only [keys, List.mem_append]
        exact .inr (List.mem_map.mpr ⟨link, hm, heq⟩)
      have hother : row.guid ∉ s₁.store.peers.map (·.guid) := by
        intro hm
        refine hs₁.uuid_notMem ?_
        simp only [keys, List.mem_append]
        exact .inl (.inl (.inl hm))
      have hkept : Kept s₁.store s'.store := by
        rw [h.store]
        refine ⟨rfl, rfl, fun _ hm ↦ hm, fun _ hm ↦ List.mem_append_left _ hm, fun link hm ↦ ?_⟩
        rw [h.links]
        refine or_iff_left fun hl ↦ hother ?_
        rw [← hl.1]
        exact hm
      refine ⟨row, h.sound, hk.trans hkept, ?_, rfl, ⟨device, hkept.devices hdevice, rfl, hdid⟩,
        rfl, rfl, fun tagGuid ↦ ?_, h.declared⟩
      · rw [h.store, ← hpeers]
      · rw [h.links]
        refine (or_iff_right fun hl ↦ hnew _ hl rfl).trans (and_iff_right rfl)
  · obtain ⟨device, hr, -⟩ := h₁
    cases hr

theorem Known.later {before after : PeerStore} {id : String} (h : Known before id)
    (hk : Kept before after) : Known after id := by
  rcases h with ⟨device, hm, hd⟩ | h
  · exact .inl ⟨device, hk.devices hm, hd⟩
  · exact .inr h

theorem createPeers_ends (henv : Answers env) (hs : Sound env s)
    (hids : ∀ peerData ∈ peers, Known s.store peerData.id) :
    Ends (createPeers env book names peers) s fun r s' ↦
      match r with
      | .ok _ => ∃ rows, Sound env s' ∧ Kept s.store s'.store ∧
          s'.store.peers = s.store.peers ++ rows ∧
            List.Forall₂ (Entered book names s'.store) peers rows
      | .error _ => ∃ peerData ∈ peers, Misnamed names peerData := by
  induction peers generalizing s with
  | nil => exact .pure ⟨[], hs, .refl _, (List.append_nil _).symm, .nil⟩
  | cons first peers ih =>
    have hfirst : Ends (createPeer env book names first) s _ :=
      createPeer_ends henv hs (hids first (.head _))
    refine hfirst.bind (fun _ s₁ h₁ ↦ ?_) fun failure s₁ h₁ ↦ ⟨first, .head _, h₁⟩
    obtain ⟨row, hs₁, hk₁, hpeers₁, hrow⟩ := h₁
    refine (ih hs₁ fun peerData hm ↦ (hids peerData (.tail _ hm)).later hk₁).mono fun r s' h ↦ ?_
    cases r with
    | error failure =>
      obtain ⟨peerData, hm, hbad⟩ := h
      exact ⟨peerData, .tail _ hm, hbad⟩
    | ok _ =>
      obtain ⟨rows, hs', hk', hpeers', hrows⟩ := h
      refine ⟨row :: rows, hs', hk₁.trans hk', ?_, .cons (hrow.later hk' ?_) hrows⟩
      · rw [hpeers', hpeers₁, List.append_assoc, List.singleton_append]
      · rw [hpeers₁]
        exact List.mem_append_right _ (.head _)

end Peers

end RustdeskConsole.AddressBooks.AddressBookLegacyService
