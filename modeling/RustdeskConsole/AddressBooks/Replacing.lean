import RustdeskConsole.AddressBooks.Legacy
import RustdeskConsole.AddressBooks.TagFilter

namespace RustdeskConsole.AddressBooks.AddressBookLegacyService

open Accounts (Failure)
open Collections Effects Effects.Checked

variable {env : Environment} {s s' : State} {α β : Type} {book guid : String}

section Atomic

/-- The tags, the peers and the links are as before. -/
structure SameTables (before after : PeerStore) : Prop where
  tags : after.tags = before.tags
  peers : after.peers = before.peers
  links : after.links = before.links

theorem ask_ends : Ends (ask env) s fun _ s' ↦ s'.store = s.store ∧ s'.drawn = s.drawn := by
  refine .get_bind ?_
  refine .modify_bind ?_
  cases env.failure s.asked with
  | none => exact .pure ⟨rfl, rfl⟩
  | some message => exact .throw ⟨rfl, rfl⟩

theorem write_ends {change : PeerStore → PeerStore} :
    Ends (write env change) s fun _ s' ↦ s'.store = s.store ∨ s'.store = change s.store := by
  refine ask_ends.bind (fun _ s₁ h₁ ↦ .modify ?_) fun _ _ h ↦ .inl h.1
  exact .inr (congrArg change h₁.1)

theorem draw_bind {f : String → Service α} {Q : Except Failure α → State → Prop}
    (h : Ends (f (env.uuid s.drawn)) { s with drawn := s.drawn + 1 } Q) :
    Ends (draw env >>= f) s Q := h

theorem personalAddressBook_ends {userId : String} :
    Ends (personalAddressBook env userId) s fun _ s' ↦ SameTables s.store s'.store := by
  refine ask_ends.bind (fun _ s₁ h₁ ↦ .get_bind ?_) fun _ s₁ h₁ ↦ ?_
  · rw [← h₁.1]
    cases s₁.store.addressBooks.find? fun book ↦ book.owner = userId && book.isPersonal with
    | some found => exact .pure ⟨rfl, rfl, rfl⟩
    | none =>
      have hsame : ∀ s' : State, s'.store = s₁.store ∨ s'.store = { s₁.store with
          addressBooks := s₁.store.addressBooks ++
            [⟨env.uuid s₁.drawn, userId, true, false, some "Personal", none, none⟩] } →
          SameTables s₁.store s'.store := by
        rintro s' (h | h)
        · rw [h]
          exact ⟨rfl, rfl, rfl⟩
        · rw [h]
          exact ⟨rfl, rfl, rfl⟩
      exact draw_bind (write_ends.bind (fun _ s' h ↦ .pure (hsame s' h)) fun _ s' h ↦ hsame s' h)
  · rw [h₁.1]
    exact ⟨rfl, rfl, rfl⟩

/-- A transaction that fails has changed no table that it works on. -/
theorem transaction_ends (body : Service α) :
    Ends (transaction env body) s fun r s' ↦
      (∃ failure, r = .error failure) → SameTables s.store s'.store := by
  refine .get_bind (Ends.tryCatch (P := fun _ _ ↦ True) ?_ (fun _ _ _ h ↦ by simp at h)
    fun failure s₁ _ ↦ .modify_bind (.throw fun _ ↦ ⟨rfl, rfl, rfl⟩))
  exact .intro (fun _ _ _ ↦ trivial) fun _ _ _ ↦ trivial

theorem updateLegacyAddressBook_atomic (env : Environment) (userId : String) (data : Data)
    (s : State) : Ends (updateLegacyAddressBook env userId data) s fun r s' ↦
      (∃ failure, r = .error failure) → SameTables s.store s'.store := by
  cases data with
  | empty => exact .pure fun _ ↦ ⟨rfl, rfl, rfl⟩
  | malformed => exact .throw fun _ ↦ ⟨rfl, rfl, rfl⟩
  | null =>
    exact personalAddressBook_ends.bind (fun _ _ h ↦ .throw fun _ ↦ h) fun _ _ h _ ↦ h
  | json | torn =>
    refine personalAddressBook_ends.bind (fun found s₁ h₁ ↦ ?_) fun _ _ h _ ↦ h
    refine (transaction_ends _).mono fun r s₂ h₂ hr ↦ ?_
    obtain ⟨htags, hpeers, hlinks⟩ := h₂ hr
    exact ⟨htags.trans h₁.tags, hpeers.trans h₁.peers, hlinks.trans h₁.links⟩

end Atomic

/-- Every query succeeds, and no uuid comes twice. -/
structure Answers (env : Environment) : Prop where
  queries : ∀ n, env.failure n = none
  uuids : Function.Injective env.uuid

/-- The keys that are taken. -/
def keys (store : PeerStore) : List String :=
  store.peers.map (·.guid) ++ store.tags.map (·.guid) ++ store.devices.map (·.uuid) ++
    store.links.map (·.peerGuid)

/-- Keys are primary keys, and the uuids that are still to come are new. -/
structure Sound (env : Environment) (s : State) : Prop where
  identified : s.store.Identified
  devices : (s.store.devices.map (·.uuid)).Nodup
  fresh : ∀ n, s.drawn ≤ n → env.uuid n ∉ keys s.store

/-- A link is between a peer and a tag of one book. -/
def Joined (store : PeerStore) : Prop :=
  ∀ link ∈ store.links, ∃ peer ∈ store.peers, ∃ tag ∈ store.tags,
    peer.guid = link.peerGuid ∧ tag.guid = link.tagGuid ∧
      peer.addressBookGuid = tag.addressBookGuid

/-- No rows of the book, and the rest as it was. -/
structure Cleared (book : String) (before after : PeerStore) : Prop where
  tags : tagsOf after book = []
  peers : peersOf after book = []
  addressBooks : after.addressBooks = before.addressBooks
  devices : after.devices = before.devices

section Steps

variable {Q : Except Failure α → State → Prop}

theorem ask_bind (henv : Answers env) {f : Unit → Service α}
    (h : Ends (f ()) { s with asked := s.asked + 1 } Q) : Ends (ask env >>= f) s Q := by
  refine Ends.bind (P := fun r s' ↦ r = .ok () ∧ s' = { s with asked := s.asked + 1 }) ?_ ?_ ?_
  · refine .get_bind ?_
    refine .modify_bind ?_
    rw [henv.queries]
    exact .pure ⟨rfl, rfl⟩
  · rintro _ _ ⟨-, rfl⟩
    exact h
  · rintro _ _ ⟨hr, -⟩
    cases hr

theorem write_bind (henv : Answers env) {change : PeerStore → PeerStore} {f : Unit → Service α}
    (h : Ends (f ()) { s with store := change s.store, asked := s.asked + 1 } Q) :
    Ends (write env change >>= f) s Q := by
  refine Ends.bind (P := fun r s' ↦ r = .ok () ∧
    s' = { s with store := change s.store, asked := s.asked + 1 }) ?_ ?_ ?_
  · exact ask_bind henv (.modify ⟨rfl, rfl⟩)
  · rintro _ _ ⟨-, rfl⟩
    exact h
  · rintro _ _ ⟨hr, -⟩
    cases hr

end Steps

section Clearing

theorem mem_peersOf {store : PeerStore} {peer : AddressBookPeer} :
    peer ∈ peersOf store book ↔ peer ∈ store.peers ∧ peer.addressBookGuid = book := by
  simp [peersOf]

theorem mem_tagsOf {store : PeerStore} {tag : AddressBookTag} :
    tag ∈ tagsOf store book ↔ tag ∈ store.tags ∧ tag.addressBookGuid = book := by
  simp [tagsOf]

/-- With its peers, a book loses every link to its tags. -/
theorem links_cleared {store : PeerStore} (hs : store.Identified) (hj : Joined store) :
    (store.links.filter (·.peerGuid ∉ (peersOf store book).map (·.guid))).all
      (·.tagGuid ∉ (tagsOf store book).map (·.guid)) := by
  rw [List.all_eq_true]
  intro link hlink
  obtain ⟨hlink, hpeer⟩ := List.mem_filter.mp hlink
  rw [decide_eq_true_eq] at hpeer ⊢
  intro htag
  obtain ⟨peer, hp, tag, ht, hpg, htg, hab⟩ := hj link hlink
  obtain ⟨other, ho, hog⟩ := List.mem_map.mp htag
  obtain ⟨ho, hbook⟩ := mem_tagsOf.mp ho
  have hsame : tag = other := List.inj_on_of_nodup_map hs.tags ht ho (htg.trans hog.symm)
  refine hpeer (List.mem_map.mpr ⟨peer, mem_peersOf.mpr ⟨hp, ?_⟩, hpg⟩)
  rw [hab, hsame, hbook]

/-- With fewer rows, and fewer uuids to come, all stays sound. -/
theorem Sound.shrink (hs : Sound env s) (hp : s'.store.peers.Sublist s.store.peers)
    (ht : s'.store.tags.Sublist s.store.tags) (hd : s'.store.devices.Sublist s.store.devices)
    (hl : s'.store.links.Sublist s.store.links) (hn : s.drawn ≤ s'.drawn) : Sound env s' where
  identified := ⟨(hp.map _).nodup hs.identified.peers, (ht.map _).nodup hs.identified.tags⟩
  devices := (hd.map _).nodup hs.devices
  fresh n hle hm := by
    refine hs.fresh n (hn.trans hle) (List.Sublist.subset ?_ hm)
    exact (((hp.map _).append (ht.map _)).append (hd.map _)).append (hl.map _)

theorem deleteAll_ends (henv : Answers env) (hs : Sound env s) (hj : Joined s.store) :
    Ends (deleteAll env book) s fun r s' ↦
      r = .ok () ∧ Sound env s' ∧ Cleared book s.store s'.store := by
  let kept := s.store.links.filter (·.peerGuid ∉ (peersOf s.store book).map (·.guid))
  have hrest : ∀ n, Ends (do
      let s ← get
      let tagGuids := (tagsOf s.store book).map (·.guid)
      assert (s.store.links.all (·.tagGuid ∉ tagGuids)) (.internal "FOREIGN KEY constraint failed")
      write env fun store ↦ { store with tags := store.tags.filter (·.addressBookGuid ≠ book) }
      write env fun store ↦ { store with peers := store.peers.filter (·.addressBookGuid ≠ book) })
      ⟨{ s.store with links := kept }, s.drawn, n⟩ fun r s' ↦
        r = .ok () ∧ Sound env s' ∧ Cleared book s.store s'.store := by
    intro n
    refine .get_bind ?_
    have hall : kept.all (·.tagGuid ∉ (tagsOf s.store book).map (·.guid)) :=
      links_cleared hs.identified hj
    have hassert : assert (kept.all (·.tagGuid ∉ (tagsOf s.store book).map (·.guid)))
        (Failure.internal "FOREIGN KEY constraint failed") = (pure () : Service Unit) := if_pos hall
    change Ends (assert (kept.all (·.tagGuid ∉ (tagsOf s.store book).map (·.guid))) _ >>= _) _ _
    rw [hassert]
    refine write_bind henv ?_
    refine ask_bind henv (.modify ⟨rfl, ?_, ?_, ?_, rfl, rfl⟩)
    · exact hs.shrink List.filter_sublist List.filter_sublist (.refl _) List.filter_sublist le_rfl
    · simp [tagsOf, List.filter_filter]
    · simp [peersOf, List.filter_filter]
  refine ask_bind henv ?_
  refine .get_bind ?_
  dsimp only
  split
  · exact write_bind henv (hrest _)
  · next hempty =>
    have hnone : (peersOf s.store book).map (·.guid) = [] := by simpa using hempty
    have hkept : kept = s.store.links := by simp [kept, hnone]
    have hstore : { s.store with links := kept } = s.store := by rw [hkept]
    have h := hrest (s.asked + 1)
    rwa [hstore] at h

end Clearing

section Tags

variable {colors : ColorsText} {tags : List String} {start : OrderedMap String String}

/-- The rows of the tags are in the book, each with its color. -/
structure TagsBuilt (env : Environment) (book : String) (colors : ColorsText) (tags : List String)
    (s s' : State) (rows : List AddressBookTag) : Prop where
  sound : Sound env s'
  store : s'.store = { s.store with tags := s.store.tags ++ rows }
  names : rows.map (·.name) = tags
  books : ∀ row ∈ rows, row.addressBookGuid = book
  colors : ∀ row ∈ rows, storedColor env colors row.name = .ok row.color

theorem Sound.uuid_notMem (hs : Sound env s) : env.uuid s.drawn ∉ keys s.store :=
  hs.fresh s.drawn le_rfl

/-- What the next uuid may be the key of. -/
theorem Sound.draw (henv : Answers env) (hs : Sound env s) (hn : s.drawn < s'.drawn)
    (hk : ∀ key ∈ keys s'.store, key ∈ keys s.store ∨ key = env.uuid s.drawn) :
    ∀ n, s'.drawn ≤ n → env.uuid n ∉ keys s'.store := by
  intro n hle hm
  rcases hk _ hm with h | h
  · exact hs.fresh n (by omega) h
  · have := henv.uuids h
    omega

theorem Sound.addTag (henv : Answers env) (hs : Sound env s) {name : String} {color : ℤ} {n : ℕ} :
    Sound env ⟨{ s.store with tags := s.store.tags ++ [⟨env.uuid s.drawn, book, name, color⟩] },
      s.drawn + 1, n⟩ where
  identified := by
    refine ⟨hs.identified.peers, ?_⟩
    have hnew : env.uuid s.drawn ∉ s.store.tags.map (·.guid) := fun h ↦ hs.uuid_notMem (by
      simp only [keys, List.mem_append]
      exact .inl (.inl (.inr h)))
    simpa using List.nodup_append.mpr ⟨hs.identified.tags, List.nodup_singleton _, by
      simpa using hnew⟩
  devices := hs.devices
  fresh := by
    refine hs.draw henv (Nat.lt_succ_self _) fun key hm ↦ ?_
    simp only [keys, List.map_append, List.mem_append, List.map_cons, List.map_nil,
      List.mem_singleton] at hm ⊢
    tauto

theorem createTags_ends (henv : Answers env) (hn : tags.Nodup)
    (hsafe : ∀ tag ∈ tags, tag ∉ dangerousProperties) (hs : Sound env s) :
    Ends (createTags env book colors tags start) s fun r s' ↦
      match r with
      | .ok names => ∃ rows, TagsBuilt env book colors tags s s' rows ∧
          names = rows.foldl (fun names row ↦ names.set row.name row.guid) start
      | .error _ => ∃ tag ∈ tags, ∀ color, storedColor env colors tag ≠ .ok color := by
  induction tags generalizing s start with
  | nil =>
    refine .pure ⟨[], ⟨hs, ?_, rfl, nofun, nofun⟩, rfl⟩
    rw [List.append_nil]
  | cons tag tags ih =>
    obtain ⟨-, hn⟩ := List.nodup_cons.mp hn
    rw [createTags, if_neg (hsafe tag (.head _))]
    refine draw_bind ?_
    cases hcolor : storedColor env colors tag with
    | error failure =>
      refine .throw ⟨tag, .head _, fun color ↦ ?_⟩
      rw [hcolor]
      exact nofun
    | ok color =>
      refine write_bind henv ?_
      refine (ih hn (fun tag hm ↦ hsafe tag (.tail _ hm)) (hs.addTag henv)).mono fun r s' h ↦ ?_
      cases r with
      | error failure =>
        obtain ⟨tag, hm, hall⟩ := h
        exact ⟨tag, .tail _ hm, hall⟩
      | ok names =>
        obtain ⟨rows, hb, hnames⟩ := h
        refine ⟨⟨env.uuid s.drawn, book, tag, color⟩ :: rows, ⟨hb.sound, ?_, ?_, ?_, ?_⟩, hnames⟩
        · rw [hb.store]
          simp
        · rw [List.map_cons, hb.names]
        · exact List.forall_mem_cons.mpr ⟨rfl, hb.books⟩
        · exact List.forall_mem_cons.mpr ⟨hcolor, hb.colors⟩

end Tags

end RustdeskConsole.AddressBooks.AddressBookLegacyService
