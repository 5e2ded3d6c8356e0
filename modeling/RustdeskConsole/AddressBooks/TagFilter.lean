import Mathlib.Data.List.Perm.Subperm
import RustdeskConsole.AddressBooks.Access
import RustdeskConsole.AddressBooks.Atomicity
import RustdeskConsole.AddressBooks.Peers

namespace RustdeskConsole.AddressBooks

open Accounts (Failure)
open Auth (truthy)
open Collections Effects.Guard
open AddressBookPermissionService AddressBookPeerService

def PeersQueryDto.at (query : PeersQueryDto) (i : ℕ) : PeersQueryDto :=
  { query with
    current := i + 1
    currentPos := Nat.succ_pos i }

namespace PeerStore

/-- Guids are primary keys. -/
structure Identified (s : PeerStore) : Prop where
  peers : (s.peers.map (·.guid)).Nodup
  tags : (s.tags.map (·.guid)).Nodup

/-- A tag that the peer is linked to. -/
def Linked (s : PeerStore) (peer : AddressBookPeer) (tag : AddressBookTag) : Prop :=
  tag ∈ s.tags ∧ ∃ link ∈ s.links, link.peerGuid = peer.guid ∧ link.tagGuid = tag.guid

/-- The peer carries a tag of the book with that name. -/
def Carries (s : PeerStore) (ab : String) (peer : AddressBookPeer) (name : String) : Prop :=
  ∃ tag, s.Linked peer tag ∧ tag.addressBookGuid = ab ∧ tag.name = name

end PeerStore

/-- What the requested tags demand of a peer. -/
def Wanted (s : PeerStore) (query : PeersQueryDto) (tags : List String) (peer : AddressBookPeer) :
    Prop :=
  match query.tagMode with
  | .union => ∃ name ∈ tags, s.Carries query.ab peer name
  | .intersection => ∀ name ∈ tags, s.Carries query.ab peer name

open Classical in
/-- The peers that meet the other conditions and carry the requested tags. -/
noncomputable def wanted (like : String → String → Bool) (s : PeerStore) (query : PeersQueryDto)
    (tags : List String) : List AddressBookPeer :=
  s.peers.filter fun peer ↦ isCandidate like s query peer && decide (Wanted s query tags peer)

/-- All pages together show these peers, each with all its tags, and every page
tells how many there are. -/
structure Shows (like : String → String → Bool) (s : PeerStore) (query : PeersQueryDto)
    (userId : Option String) (peers : List AddressBookPeer) : Prop where
  pages : ∃ page, (∀ i, getPeers like s (query.at i) userId = .ok (peers.length, page i)) ∧
    ∀ n, peers.length ≤ n * query.pageSize → (List.range n).flatMap page = peers.map (present s)
  tags : ∀ peer ∈ peers, ∀ name, name ∈ (present s peer).tags ↔
    ∃ tag, s.Linked peer tag ∧ tag.name = name

variable {like : String → String → Bool} {s : PeerStore} {query : PeersQueryDto}
  {userId : Option String} {tags : List String} {peer : AddressBookPeer} {name : String}
  {n : ℕ}

section Rows

theorem mem_tagNames (hs : s.Identified) :
    name ∈ s.tagNames peer ↔ ∃ tag, s.Linked peer tag ∧ tag.name = name := by
  simp only [PeerStore.tagNames, List.mem_filterMap, List.mem_filter, decide_eq_true_eq,
    Option.map_eq_some_iff, PeerStore.Linked]
  constructor
  · intro ⟨link, ⟨hm, hpeer⟩, tag, htag, hname⟩
    exact ⟨tag, ⟨List.mem_of_find?_eq_some htag, link, hm, hpeer, (key_of_find? htag).symm⟩, hname⟩
  · intro ⟨tag, ⟨htag, link, hm, hpeer, hguid⟩, hname⟩
    refine ⟨link, ⟨hm, hpeer⟩, tag, ?_, hname⟩
    rw [hguid]
    exact find?_of_mem hs.tags htag

theorem mem_namedLinks : (peer.guid, name) ∈ namedLinks s query.ab tags ↔
    name ∈ tags ∧ s.Carries query.ab peer name := by
  simp only [namedLinks, List.mem_flatMap, List.mem_map, List.mem_filter, Bool.and_eq_true,
    decide_eq_true_eq, Prod.mk.injEq, PeerStore.Carries, PeerStore.Linked]
  constructor
  · rintro ⟨apt, hm, tag, ⟨htag, ⟨hguid, hab⟩, hname⟩, hpeer, rfl⟩
    exact ⟨hname, tag, ⟨htag, apt, hm, hpeer, hguid⟩, hab, rfl⟩
  · rintro ⟨hname, tag, ⟨htag, apt, hm, hpeer, hguid⟩, hab, rfl⟩
    exact ⟨apt, hm, tag, ⟨htag, ⟨hguid, hab⟩, hname⟩, hpeer, rfl⟩

theorem mem_map_namedLinks : peer.guid ∈ (namedLinks s query.ab tags).map (·.1) ↔
    ∃ name ∈ tags, s.Carries query.ab peer name := by
  rw [List.mem_map]
  constructor
  · intro ⟨⟨guid, name⟩, hm, heq⟩
    obtain rfl : guid = peer.guid := heq
    exact ⟨name, mem_namedLinks.mp hm⟩
  · intro ⟨name, hname, hc⟩
    exact ⟨(peer.guid, name), mem_namedLinks.mpr ⟨hname, hc⟩, rfl⟩

/-- The count is the length of a list without repetition: the requested names that
the peer carries. -/
theorem countNames_eq : ∃ names : List String,
    countNames (namedLinks s query.ab tags) peer.guid = names.length ∧ names.Nodup ∧
      ∀ name, name ∈ names ↔ name ∈ tags ∧ s.Carries query.ab peer name := by
  refine ⟨_, rfl, List.nodup_dedup _, fun name ↦ ?_⟩
  rw [List.mem_dedup, List.mem_map, ← mem_namedLinks]
  constructor
  · rintro ⟨⟨guid, name⟩, hm, rfl⟩
    obtain ⟨hm, hguid⟩ := List.mem_filter.mp hm
    rw [decide_eq_true_eq] at hguid
    rwa [← hguid]
  · intro hm
    exact ⟨(peer.guid, name), List.mem_filter.mpr ⟨hm, decide_eq_true rfl⟩, rfl⟩

/-- Counting finds the peers that carry every name only if no name is repeated. -/
theorem countNames_iff : countNames (namedLinks s query.ab tags) peer.guid = tags.length ↔
    tags.Nodup ∧ ∀ name ∈ tags, s.Carries query.ab peer name := by
  obtain ⟨names, hcount, hnames, hmem⟩ : ∃ names : List String,
      countNames (namedLinks s query.ab tags) peer.guid = names.length ∧ _ ∧ _ := countNames_eq
  have hsub : names ⊆ tags.dedup := fun name hm ↦ List.mem_dedup.mpr ((hmem name).mp hm).1
  rw [hcount]
  constructor
  · intro heq
    have hle : tags.length ≤ tags.dedup.length := heq ▸ (hnames.subperm hsub).length_le
    have hdedup : tags.dedup = tags :=
      (List.dedup_sublist tags).eq_of_length_le hle
    rw [hdedup] at hsub
    have hperm := (hnames.subperm hsub).perm_of_length_le heq.ge
    refine ⟨hdedup ▸ tags.nodup_dedup, fun name hm ↦ ((hmem name).mp ?_).2⟩
    exact hperm.mem_iff.mpr hm
  · intro ⟨htags, hall⟩
    refine ((List.perm_ext_iff_of_nodup hnames htags).mpr fun name ↦ ?_).length_eq
    rw [hmem name]
    exact ⟨fun h ↦ h.1, fun hm ↦ ⟨hm, hall name hm⟩⟩

end Rows

/-- What the query selects by the tags. -/
theorem matchesTags_iff (ht : query.tags = some tags) (hne : tags ≠ []) :
    matchesTags s query peer = true ↔
      Wanted s query tags peer ∧ (query.tagMode = .intersection → tags.Nodup) := by
  have hempty : tags.isEmpty = false := by simpa using hne
  rw [matchesTags, ht, Wanted]
  simp only [hempty, Bool.false_eq_true, ↓reduceIte]
  cases query.tagMode with
  | union => simp [mem_map_namedLinks]
  | intersection =>
    simp only [List.mem_filter, List.mem_dedup, decide_eq_true_eq, countNames_iff,
      mem_map_namedLinks, forall_const]
    constructor
    · intro ⟨_, hnodup, hall⟩
      exact ⟨hall, hnodup⟩
    · intro ⟨hall, hnodup⟩
      obtain ⟨name, rest, rfl⟩ := List.exists_cons_of_ne_nil hne
      exact ⟨⟨name, .head _, hall name (.head _)⟩, hnodup, hall⟩

/-- The rows that the query selects, in the order of all its pages. -/
def selectedPeers (like : String → String → Bool) (s : PeerStore) (query : PeersQueryDto) :
    List AddressBookPeer :=
  s.peers.filter fun peer ↦ isCandidate like s query peer && matchesTags s query peer

theorem getPeers_eq {book : AddressBook} (hs : s.Identified)
    (hb : s.addressBook? query.ab = some book)
    (ha : AccessGranted s.toStore query.ab userId .read) (i : ℕ) :
    getPeers like s (query.at i) userId = .ok ((selectedPeers like s query).length,
      (((selectedPeers like s query).drop (i * query.pageSize)).take query.pageSize).map
        (present s)) := by
  have hcount : ((selectedPeers like s query).map (·.guid)).dedup.length =
      (selectedPeers like s query).length := by
    have hnodup : ((selectedPeers like s query).map (·.guid)).Nodup :=
      (List.filter_sublist.map _).nodup hs.peers
    rw [hnodup.dedup, List.length_map]
  rw [← hcount, getPeers]
  refine bind_eq_ok.mpr ⟨book, by rw [require_eq_ok]; exact hb, ?_⟩
  cases hu : truthy userId with
  | none => rfl
  | some user =>
    refine bind_eq_ok.mpr ⟨(), discard_eq_ok.mpr (ha user hu), rfl⟩

theorem pages_eq (hn : (selectedPeers like s query).length ≤ n * query.pageSize) :
    (List.range n).flatMap (fun i ↦ (((selectedPeers like s query).drop (i * query.pageSize)).take
      query.pageSize).map (present s)) = (selectedPeers like s query).map (present s) := by
  rw [← List.map_flatMap, flatMap_pages, List.take_of_length_le hn]

/-- Over all its pages, the listing shows just the peers that carry the requested
tags, unless a name is repeated where all of them have to be carried: then it shows
none. -/
theorem tag_filter_exact_iff {book : AddressBook} (hs : s.Identified)
    (hb : s.addressBook? query.ab = some book)
    (ha : AccessGranted s.toStore query.ab userId .read)
    (ht : query.tags = some tags) (hne : tags ≠ []) :
    Shows like s query userId (wanted like s query tags) ↔
      query.tagMode = .union ∨ tags.Nodup ∨ wanted like s query tags = [] := by
  classical
  have hnames : ∀ peer ∈ wanted like s query tags, ∀ name, name ∈ (present s peer).tags ↔
      ∃ tag, s.Linked peer tag ∧ tag.name = name := fun _ _ _ ↦ mem_tagNames hs
  by_cases hfair : query.tagMode = .intersection → tags.Nodup
  · have heq : selectedPeers like s query = wanted like s query tags := by
      refine List.filter_congr fun peer _ ↦ ?_
      rw [Bool.eq_iff_iff, Bool.and_eq_true, Bool.and_eq_true, decide_eq_true_eq,
        matchesTags_iff ht hne, and_iff_left hfair]
    refine iff_of_true ?_ ?_
    · rw [← heq] at hnames ⊢
      exact ⟨⟨_, getPeers_eq hs hb ha, fun n hn ↦ pages_eq hn⟩, hnames⟩
    · cases hmode : query.tagMode with
      | union => exact .inl rfl
      | intersection => exact .inr (.inl (hfair hmode))
  · obtain ⟨hmode, hrep⟩ := Classical.not_imp.mp hfair
    have hnone : selectedPeers like s query = [] := by
      refine List.filter_eq_nil_iff.mpr fun peer _ ↦ ?_
      rw [Bool.and_eq_true, matchesTags_iff ht hne]
      exact fun h ↦ hfair h.2.2
    have hpage : ∀ i, getPeers like s (query.at i) userId = .ok ((selectedPeers like s query).length,
        (((selectedPeers like s query).drop (i * query.pageSize)).take query.pageSize).map
          (present s)) := getPeers_eq hs hb ha
    simp only [hnone, List.length_nil, List.drop_nil, List.take_nil, List.map_nil] at hpage
    rw [hmode]
    simp only [reduceCtorEq, hrep, false_or]
    constructor
    · intro h
      obtain ⟨page, hall, -⟩ := h.pages
      have hsame := (hall 0).symm.trans (hpage 0)
      simp only [Except.ok.injEq, Prod.mk.injEq] at hsame
      exact List.length_eq_zero_iff.mp hsame.1
    · intro hzero
      refine ⟨⟨fun _ ↦ [], fun i ↦ ?_, fun n _ ↦ ?_⟩, hnames⟩
      · rw [hzero, hpage i]
        rfl
      · rw [hzero]
        exact List.flatMap_eq_nil_iff.mpr fun _ _ ↦ rfl

section Sample

/-- A peer that carries two tags, and one that carries the first of them. -/
def samplePeers : PeerStore where
  users := [⟨"u", "user", none⟩]
  addressBooks := [⟨"1", "u", false, false, some "b", none, none⟩]
  rules := []
  peers := [⟨"p", "1", "d", none, none, none, none⟩, ⟨"q", "1", "e", none, none, none, none⟩]
  tags := [⟨"x", "1", "home", 0⟩, ⟨"y", "1", "work", 0⟩]
  links := [⟨"p", "x"⟩, ⟨"p", "y"⟩, ⟨"q", "x"⟩]
  devices := []
  sysinfos := []

def samplePeersQuery (tags : List String) : PeersQueryDto :=
  ⟨sampleQuery 1 Nat.one_pos, "1", none, none, some tags, .intersection⟩

theorem samplePeers_identified : samplePeers.Identified := ⟨by decide, by decide⟩

theorem samplePeers_granted : AccessGranted samplePeers.toStore "1" (some "u") .read :=
  fun user hu ↦ ⟨⟨"1", "u", false, false, some "b", none, none⟩, by
    obtain ⟨rfl, -⟩ : "u" = user ∧ ¬user = "" := by simpa [truthy] using hu
    rfl⟩

theorem sample_tag_filter : Shows (fun _ _ ↦ true) samplePeers (samplePeersQuery ["home", "work"])
    (some "u") (wanted (fun _ _ ↦ true) samplePeers (samplePeersQuery ["home", "work"])
      ["home", "work"]) :=
  (tag_filter_exact_iff samplePeers_identified rfl samplePeers_granted rfl (by simp)).mpr
    (.inr (.inl (by decide)))

/-- A name that is requested twice hides the peers that carry it. -/
theorem repeated_name_hides : ¬ ∀ (like : String → String → Bool) (s : PeerStore)
    (query : PeersQueryDto) (userId : Option String) (tags : List String) (book : AddressBook),
    s.Identified → s.addressBook? query.ab = some book →
    AccessGranted s.toStore query.ab userId .read → query.tags = some tags → tags ≠ [] →
    Shows like s query userId (wanted like s query tags) := by
  intro hall
  have hshows := hall (fun _ _ ↦ true) samplePeers (samplePeersQuery ["home", "home"]) (some "u")
    _ _ samplePeers_identified rfl samplePeers_granted rfl (by simp)
  obtain ⟨page, hpage, -⟩ := hshows.pages
  have hnone : getPeers (fun _ _ ↦ true) samplePeers ((samplePeersQuery ["home", "home"]).at 0)
      (some "u") = .ok (0, []) := by decide
  have hzero := (hpage 0).symm.trans hnone
  simp only [Except.ok.injEq, Prod.mk.injEq, List.length_eq_zero_iff] at hzero
  have hcarries : Wanted samplePeers (samplePeersQuery ["home", "home"]) ["home", "home"]
      ⟨"p", "1", "d", none, none, none, none⟩ := by
    intro name hm
    obtain rfl : name = "home" := by simpa using hm
    exact ⟨⟨"x", "1", "home", 0⟩, ⟨.head _, ⟨"p", "x"⟩, .head _, rfl, rfl⟩, rfl, rfl⟩
  have hmem : ⟨"p", "1", "d", none, none, none, none⟩ ∈ wanted (fun _ _ ↦ true) samplePeers
      (samplePeersQuery ["home", "home"]) ["home", "home"] :=
    List.mem_filter.mpr ⟨.head _, by simp only [hcarries, decide_true, Bool.and_true]; decide⟩
  rw [hzero.1] at hmem
  exact List.not_mem_nil hmem

end Sample

end RustdeskConsole.AddressBooks
