import RustdeskConsole.AddressBooks.Entering

namespace RustdeskConsole.AddressBooks.AddressBookLegacyService

open Accounts (Failure)
open Collections Effects Effects.Checked

namespace Payload

variable (payload : Payload)

def color? (tag : String) : Option ℤ := payload.tagColors.parse.bind (·.get? tag)

/-- Distinct tags with none of the dangerous names, colors that are numbers, and
distinct peers that are registered or in IP form. -/
structure WellFormed (store : PeerStore) : Prop where
  tags : payload.tags.Nodup
  safe : ∀ tag ∈ payload.tags, tag ∉ dangerousProperties
  colors : payload.tagColors ≠ .null
  ids : (payload.peers.map (·.id)).Nodup
  known : ∀ peerData ∈ payload.peers, Known store peerData.id

/-- No tag without a color, and no tag of a peer that is not declared, has the name of
an inherited member. -/
structure Unshadowed (env : Environment) : Prop where
  colors : ∀ tag ∈ payload.tags, tag ∈ inheritedMembers → payload.color? tag = none →
    env.memberColor tag = some 0
  tags : ∀ peerData ∈ payload.peers, ∀ tag ∈ peerData.tags, tag ∈ inheritedMembers →
    tag ∈ payload.tags

structure Matches (peerData : PeerPayload) (shown : LegacyPeer) : Prop where
  id : shown.id = peerData.id
  hash : shown.hash = peerData.hash.getD ""
  peerAlias : shown.peerAlias = peerData.peerAlias.getD ""
  tags : ∀ tag, tag ∈ shown.tags ↔ tag ∈ peerData.tags ∧ tag ∈ payload.tags

structure Shown (book : LegacyAddressBook) : Prop where
  tags : book.tags = payload.tags
  colors : ∀ tag, book.tagColors.get? tag =
    if tag ∈ payload.tags then some ((payload.color? tag).getD 0) else none
  peers : List.Forall₂ payload.Matches payload.peers book.peers

/-- The text `null` stands for no tags and no peers. -/
def Returned (book : Option LegacyAddressBook) : Prop :=
  match book with
  | none => payload.tags = [] ∧ payload.peers = []
  | some book => payload.Shown book

/-- The update succeeds, and what is got then is the payload. -/
def RoundTrips (env : Environment) (userId : String) (s : State) : Prop :=
  ∃ s₁ book s₂, updateLegacyAddressBook env userId (.json payload) s = .ok () s₁ ∧
    getLegacyAddressBook env userId s₁ = .ok book s₂ ∧ payload.Returned book

end Payload

variable {env : Environment} {s s' : State} {userId name guid : String} {payload : Payload}
  {rows : List AddressBookTag} {found : AddressBook}

def ownBook? (store : PeerStore) (userId : String) : Option AddressBook :=
  store.addressBooks.find? fun book ↦ book.owner = userId && book.isPersonal

def tagNameToGuid (rows : List AddressBookTag) : OrderedMap String String :=
  rows.foldl (fun names row ↦ names.set row.name row.guid) .empty

/-- What a successful update leaves in the book of the user. -/
structure Replaced (env : Environment) (payload : Payload) (guid : String) (s : State) : Prop where
  sound : Sound env s
  names : (tagsOf s.store guid).map (·.name) = payload.tags
  colors : ∀ row ∈ tagsOf s.store guid,
    storedColor env payload.tagColors row.name = .ok row.color
  peers : List.Forall₂ (Entered guid (tagNameToGuid (tagsOf s.store guid)) s.store) payload.peers
    (peersOf s.store guid)

section Rows

variable {α β : Type} {R : α → β → Prop} {as : List α} {bs : List β}

theorem exists_row (h : List.Forall₂ R as bs) : ∀ a ∈ as, ∃ b ∈ bs, R a b := by
  induction h with
  | nil => exact nofun
  | cons hab _ ih =>
    refine List.forall_mem_cons.mpr ⟨⟨_, .head _, hab⟩, fun a hm ↦ ?_⟩
    obtain ⟨b, hb, hr⟩ := ih a hm
    exact ⟨b, .tail _ hb, hr⟩

theorem forall_row {P : β → Prop} (h : List.Forall₂ R as bs) (hp : ∀ a b, R a b → P b) :
    ∀ b ∈ bs, P b := by
  induction h with
  | nil => exact nofun
  | cons hab _ ih => exact List.forall_mem_cons.mpr ⟨hp _ _ hab, ih⟩

end Rows

section Names

theorem tagNameToGuid_eq_some (hn : (rows.map (·.name)).Nodup) :
    (tagNameToGuid rows).get? name = some guid ↔
      ∃ row ∈ rows, row.name = name ∧ row.guid = guid := by
  rw [tagNameToGuid, OrderedMap.get?_foldl_insert rows (·.name) (·.guid) _ _ hn,
    OrderedMap.get?_empty, Option.or_none, Option.map_eq_some_iff]
  constructor
  · intro ⟨row, hf, hg⟩
    exact ⟨row, List.mem_of_find?_eq_some hf, key_of_find? hf, hg⟩
  · rintro ⟨row, hm, rfl, hg⟩
    exact ⟨row, find?_of_mem hn hm, hg⟩

theorem tagNameToGuid_eq_none (hn : (rows.map (·.name)).Nodup) :
    (tagNameToGuid rows).get? name = none ↔ name ∉ rows.map (·.name) := by
  rw [← not_iff_not, not_not, ← ne_eq, Option.ne_none_iff_exists', List.mem_map]
  simp only [tagNameToGuid_eq_some hn]
  constructor
  · rintro ⟨_, row, hm, hname, _⟩
    exact ⟨row, hm, hname⟩
  · rintro ⟨row, hm, hname⟩
    exact ⟨row.guid, row, hm, hname, rfl⟩

theorem showColors_get? (hn : (rows.map (·.name)).Nodup)
    (hsafe : ∀ row ∈ rows, row.name ≠ "__proto__") :
    (showColors rows).get? name = (rows.find? (·.name = name)).map (·.color) := by
  have hfold : showColors rows =
      rows.foldl (fun colors row ↦ colors.set row.name row.color) .empty := by
    refine List.foldl_ext _ _ _ fun colors row hm ↦ ?_
    rw [if_neg (hsafe row hm)]
  rw [hfold, OrderedMap.get?_foldl_insert rows (·.name) (·.color) _ _ hn, OrderedMap.get?_empty,
    Option.or_none]

/-- The color that is stored is that of the payload, unless it is that of an inherited
member. -/
theorem storedColor_iff (hc : payload.tagColors ≠ .null) {tag : String} :
    storedColor env payload.tagColors tag = .ok ((payload.color? tag).getD 0) ↔
      (tag ∈ inheritedMembers → payload.color? tag = none → env.memberColor tag = some 0) := by
  have hparse : ∃ colors, payload.tagColors.parse = some colors := by
    cases ht : payload.tagColors with
    | null => exact absurd ht hc
    | missing | malformed => exact ⟨_, rfl⟩
    | object colors => exact ⟨colors, rfl⟩
  obtain ⟨colors, hparse⟩ := hparse
  rw [storedColor, Payload.color?, hparse]
  simp only [Option.bind_some]
  cases colors.get? tag with
  | some color => simp
  | none =>
    by_cases hin : tag ∈ inheritedMembers
    · cases env.memberColor tag with
      | none => simp [hin]
      | some color => simp [hin]
    · simp [hin]

end Names

section Book

theorem personalAddressBook_finds (henv : Answers env) (hs : Sound env s) :
    Ends (personalAddressBook env userId) s fun r s' ↦ ∃ found, r = .ok found ∧
      ownBook? s'.store userId = some found ∧ Sound env s' ∧
        SameTables s.store s'.store ∧ s'.store.devices = s.store.devices := by
  refine ask_bind henv ?_
  refine .get_bind ?_
  cases hown : ownBook? s.store userId with
  | some found =>
    rw [ownBook?] at hown
    rw [hown]
    exact .pure ⟨found, rfl, hown, hs.shrink (.refl _) (.refl _) (.refl _) (.refl _) le_rfl,
      ⟨rfl, rfl, rfl⟩, rfl⟩
  | none =>
    rw [ownBook?] at hown
    rw [hown]
    refine draw_bind (write_bind henv (.pure ⟨_, rfl, ?_, ?_, ⟨rfl, rfl, rfl⟩, rfl⟩))
    · rw [ownBook?, List.find?_append, hown, Option.none_or]
      exact List.find?_cons_of_pos (by simp)
    · exact hs.shrink (.refl _) (.refl _) (.refl _) (.refl _) (Nat.le_succ _)

theorem getLegacyAddressBook_ends (henv : Answers env)
    (hown : ownBook? s.store userId = some found) :
    Ends (getLegacyAddressBook env userId) s fun r _ ↦ r = .ok (show? s.store found.guid) := by
  have hbook : Ends (personalAddressBook env userId) s fun r s' ↦
      r = .ok found ∧ s'.store = s.store := by
    refine ask_bind henv ?_
    refine .get_bind ?_
    rw [ownBook?] at hown
    rw [hown]
    exact .pure ⟨rfl, rfl⟩
  refine hbook.bind (fun a s₁ h₁ ↦ ?_) fun _ _ h ↦ ?_
  · obtain ⟨ha, hstore⟩ := h₁
    obtain rfl : a = found := by simpa using ha
    refine ask_bind henv (ask_bind henv ?_)
    refine .get_bind ?_
    simp only [hstore]
    split
    · exact ask_bind henv (ask_bind henv (.pure rfl))
    · exact .pure rfl
  · cases h.1

end Book

section Update

theorem transaction_answers (henv : Answers env) {α : Type} {body : Service α}
    {P Q : Except Failure α → State → Prop} (hbody : Ends body s P)
    (hok : ∀ a s', P (.ok a) s' → Q (.ok a) { s' with asked := s'.asked + 1 })
    (herror : ∀ failure s' s'', P (.error failure) s' → Q (.error failure) s'') :
    Ends (transaction env body) s Q := by
  refine .get_bind ?_
  refine Ends.tryCatch (P := fun r s' ↦ match r with
    | .ok a => Q (.ok a) s'
    | .error failure => ∀ s'', Q (.error failure) s'') ?_ (fun _ _ h ↦ h)
    fun failure s₁ h ↦ .modify_bind (.throw (h _))
  refine hbody.bind (fun a s₁ h₁ ↦ ?_) fun failure s₁ h₁ s₂ ↦ herror failure s₁ s₂ h₁
  exact ask_bind henv (.pure (hok a s₁ h₁))

theorem replaceAll_ends (henv : Answers env) (hs : Sound env s) (hj : Joined s.store)
    (hw : payload.WellFormed s.store) :
    Ends (replaceAll env guid payload) s fun r s' ↦
      match r with
      | .ok _ => Replaced env payload guid s' ∧ s'.store.addressBooks = s.store.addressBooks ∧
          ∀ peerData ∈ payload.peers, ∀ tag ∈ peerData.tags, tag ∈ inheritedMembers →
            tag ∈ payload.tags
      | .error _ => ¬payload.Unshadowed env := by
  refine (deleteAll_ends henv hs hj).bind (fun _ s₁ h₁ ↦ ?_) fun failure s₁ h₁ ↦ ?_
  · obtain ⟨-, hs₁, hclear⟩ := h₁
    have htags : Ends (createTags env guid payload.tagColors payload.tags .empty) s₁ _ :=
      createTags_ends henv hw.tags hw.safe hs₁
    refine htags.bind (fun names s₂ h₂ ↦ ?_) fun failure s₂ h₂ ↦ ?_
    · obtain ⟨rows, hb, hnames⟩ := h₂
      change names = tagNameToGuid rows at hnames
      have hn : (rows.map (·.name)).Nodup := hb.names ▸ hw.tags
      have hknown : ∀ peerData ∈ payload.peers, Known s₂.store peerData.id := by
        intro peerData hm
        have h := hw.known peerData hm
        rw [Known, hb.store, hclear.devices]
        exact h
      have hpeers : Ends (createPeers env guid names payload.peers) s₂ _ :=
        createPeers_ends henv hb.sound hknown
      refine hpeers.mono fun r s' h ↦ ?_
      cases r with
      | error failure =>
        obtain ⟨peerData, hm, name, hname, hnone, hin⟩ := h
        intro hun
        rw [hnames, tagNameToGuid_eq_none hn, hb.names] at hnone
        exact hnone (hun.tags peerData hm name hname hin)
      | ok _ =>
        obtain ⟨prows, hs', hk, hprows, hall⟩ := h
        have htagsOf : tagsOf s'.store guid = rows := by
          rw [tagsOf, hk.tags, hb.store, List.filter_append]
          have hold : s₁.store.tags.filter (·.addressBookGuid = guid) = [] := hclear.tags
          rw [hold, List.nil_append, List.filter_eq_self]
          exact fun row hm ↦ decide_eq_true (hb.books row hm)
        have hpeersOf : peersOf s'.store guid = prows := by
          rw [peersOf, hprows, hb.store, List.filter_append]
          have hold : s₁.store.peers.filter (·.addressBookGuid = guid) = [] := hclear.peers
          rw [hold, List.nil_append, List.filter_eq_self]
          exact forall_row hall fun _ _ h ↦ decide_eq_true h.book
        refine ⟨⟨hs', ?_, ?_, ?_⟩, ?_, ?_⟩
        · rw [htagsOf, hb.names]
        · rw [htagsOf]
          exact hb.colors
        · rw [htagsOf, hpeersOf, ← hnames]
          exact hall
        · rw [hk.addressBooks, hb.store, hclear.addressBooks]
        · intro peerData hm tag htag hin
          obtain ⟨row, -, hrow⟩ := exists_row hall peerData hm
          by_contra hnot
          rw [← hb.names, ← tagNameToGuid_eq_none hn, ← hnames] at hnot
          exact hrow.declared tag htag hin hnot
    · obtain ⟨tag, hm, hbad⟩ := h₂
      intro hun
      exact hbad _ ((storedColor_iff hw.colors).mpr (hun.colors tag hm))
  · obtain ⟨hr, -⟩ := h₁
    cases hr

theorem updateLegacyAddressBook_ends (henv : Answers env) (hs : Sound env s)
    (hj : Joined s.store) (hw : payload.WellFormed s.store) :
    Ends (updateLegacyAddressBook env userId (.json payload)) s fun r s' ↦
      match r with
      | .ok _ => (∃ found, ownBook? s'.store userId = some found ∧
          Replaced env payload found.guid s') ∧
          ∀ peerData ∈ payload.peers, ∀ tag ∈ peerData.tags, tag ∈ inheritedMembers →
            tag ∈ payload.tags
      | .error _ => ¬payload.Unshadowed env := by
  refine (personalAddressBook_finds henv hs).bind (fun a s₁ h₁ ↦ ?_) fun _ _ h ↦ ?_
  · obtain ⟨found, ha, hown, hs₁, hsame, hdevices⟩ := h₁
    obtain rfl : a = found := by simpa using ha
    have hj₁ : Joined s₁.store := by
      rw [Joined, hsame.links, hsame.peers, hsame.tags]
      exact hj
    have hw₁ : payload.WellFormed s₁.store := by
      refine ⟨hw.tags, hw.safe, hw.colors, hw.ids, fun peerData hm ↦ ?_⟩
      have h := hw.known peerData hm
      rw [Known, hdevices]
      exact h
    refine transaction_answers henv (replaceAll_ends henv hs₁ hj₁ hw₁) ?_ ?_
    · intro _ s₂ ⟨hr, hbooks, hdeclared⟩
      refine ⟨⟨a, ?_, ?_⟩, hdeclared⟩
      · rw [ownBook?, hbooks]
        exact hown
      · exact ⟨hr.sound.shrink (.refl _) (.refl _) (.refl _) (.refl _) le_rfl, hr.names,
          hr.colors, hr.peers⟩
    · exact fun _ _ _ h ↦ h
  · obtain ⟨found, hr, -⟩ := h
    cases hr

end Update

section Reading

variable {store : PeerStore}

theorem Replaced.matches (h : Replaced env payload guid s) (hn : payload.tags.Nodup)
    {peerData : PeerPayload} {row : AddressBookPeer}
    (hrow : Entered guid (tagNameToGuid (tagsOf s.store guid)) s.store peerData row) :
    payload.Matches peerData (showPeer s.store row) where
  id := by
    obtain ⟨device, hm, huuid, hid⟩ := hrow.device
    have hfind : s.store.device? row.deviceId = some device := by
      rw [← huuid]
      exact findRev?_of_mem h.sound.devices hm
    simp only [showPeer, hfind, Option.map_some, Option.getD_some, hid]
  hash := by simp only [showPeer, hrow.hash, Option.getD_some]
  peerAlias := by simp only [showPeer, hrow.peerAlias, Option.getD_some]
  tags tag := by
    have hnames : ((tagsOf s.store guid).map (·.name)).Nodup := h.names ▸ hn
    simp only [showPeer, mem_tagNames h.sound.identified, ← h.names, List.mem_map]
    constructor
    · rintro ⟨other, ⟨hm, ⟨peerGuid, tagGuid⟩, hlink, rfl, rfl⟩, rfl⟩
      obtain ⟨name, hname, hget⟩ := (hrow.links _).mp hlink
      obtain ⟨row', hm', hname', hguid⟩ := (tagNameToGuid_eq_some hnames).mp hget
      have hsame : row' = other :=
        List.inj_on_of_nodup_map h.sound.identified.tags (mem_tagsOf.mp hm').1 hm hguid
      subst hsame
      exact ⟨hname' ▸ hname, row', hm', rfl⟩
    · rintro ⟨htag, row', hm', rfl⟩
      refine ⟨row', ⟨(mem_tagsOf.mp hm').1, ⟨row.guid, row'.guid⟩, ?_, rfl, rfl⟩, rfl⟩
      exact (hrow.links _).mpr ⟨_, htag, (tagNameToGuid_eq_some hnames).mpr ⟨row', hm', rfl, rfl⟩⟩

/-- What is got is the payload if every color is that of the payload. -/
theorem Replaced.returned_iff (h : Replaced env payload guid s) (hw : payload.WellFormed store) :
    payload.Returned (show? s.store guid) ↔ ∀ tag ∈ payload.tags,
      storedColor env payload.tagColors tag = .ok ((payload.color? tag).getD 0) := by
  have hn : ((tagsOf s.store guid).map (·.name)).Nodup := h.names ▸ hw.tags
  have hsafe : ∀ row ∈ tagsOf s.store guid, row.name ≠ "__proto__" := by
    intro row hm heq
    refine hw.safe row.name (h.names ▸ List.mem_map_of_mem hm) ?_
    rw [heq]
    exact .head _
  rw [show?]
  split
  · next hempty =>
    rw [Bool.and_eq_true, List.isEmpty_iff, List.isEmpty_iff] at hempty
    have htags : payload.tags = [] := by rw [← h.names, hempty.1, List.map_nil]
    have hpeers : payload.peers = [] := by
      have hp := h.peers
      rwa [hempty.2, List.forall₂_nil_right_iff] at hp
    refine iff_of_true ⟨htags, hpeers⟩ ?_
    rw [htags]
    exact nofun
  · have hpeers : List.Forall₂ payload.Matches payload.peers
        ((peersOf s.store guid).map (showPeer s.store)) :=
      List.forall₂_map_right_iff.mpr (h.peers.imp fun _ _ hrow ↦ h.matches hw.tags hrow)
    constructor
    · intro hshown tag hm
      have hm' := hm
      rw [← h.names] at hm'
      obtain ⟨row, hrow, rfl⟩ := List.mem_map.mp hm'
      have hcolor := hshown.colors row.name
      simp only [showColors_get? hn hsafe, find?_of_mem hn hrow, Option.map_some, if_pos hm,
        Option.some.injEq] at hcolor
      rw [h.colors row hrow, hcolor]
    · intro hall
      refine ⟨h.names, fun tag ↦ ?_, hpeers⟩
      simp only [showColors_get? hn hsafe]
      by_cases hm : tag ∈ payload.tags
      · have hm' := hm
        rw [← h.names] at hm'
        obtain ⟨row, hrow, rfl⟩ := List.mem_map.mp hm'
        have hcolor := (h.colors row hrow).symm.trans (hall row.name hm)
        rw [if_pos hm, find?_of_mem hn hrow, Option.map_some]
        simpa using hcolor
      · rw [if_neg hm, Option.map_eq_none_iff, List.find?_eq_none]
        intro row hrow heq
        rw [decide_eq_true_eq] at heq
        exact hm (heq ▸ h.names ▸ List.mem_map_of_mem hrow)

end Reading

/-- A well-formed payload comes back as it was given if and only if no name in it is
taken for an inherited member. -/
theorem roundTrips_iff (henv : Answers env) (hs : Sound env s) (hj : Joined s.store)
    (hw : payload.WellFormed s.store) :
    payload.RoundTrips env userId s ↔ payload.Unshadowed env := by
  have hupdate : Ends (updateLegacyAddressBook env userId (.json payload)) s _ :=
    updateLegacyAddressBook_ends henv hs hj hw
  constructor
  · intro ⟨s₁, book, s₂, hu, hg, hr⟩
    obtain ⟨⟨found, hown, hreplaced⟩, hdeclared⟩ := hupdate.of_ok hu
    have hbook := (getLegacyAddressBook_ends henv hown).of_ok hg
    obtain rfl : book = show? s₁.store found.guid := by simpa using hbook
    refine ⟨fun tag hm ↦ ?_, hdeclared⟩
    exact (storedColor_iff hw.colors).mp ((hreplaced.returned_iff hw).mp hr tag hm)
  · intro hun
    cases hu : updateLegacyAddressBook env userId (.json payload) s with
    | error failure s₁ => exact absurd hun (hupdate.of_error hu)
    | ok _ s₁ =>
      obtain ⟨⟨found, hown, hreplaced⟩, -⟩ := hupdate.of_ok hu
      have hget : Ends (getLegacyAddressBook env userId) s₁ _ := getLegacyAddressBook_ends henv hown
      cases hg : getLegacyAddressBook env userId s₁ with
      | error failure s₂ => cases hget.of_error hg
      | ok book s₂ =>
        obtain rfl : book = show? s₁.store found.guid := by simpa using hget.of_ok hg
        refine ⟨s₁, _, s₂, hu, hg, (hreplaced.returned_iff hw).mpr fun tag hm ↦ ?_⟩
        exact (storedColor_iff hw.colors).mpr (hun.colors tag hm)

/-- An update that fails changes no tag, no peer and no link; and a well-formed payload
comes back as it was given if and only if no name in it is taken for an inherited
member. -/
theorem legacy_replacement (env : Environment) (userId : String) :
    (∀ data s, Ends (updateLegacyAddressBook env userId data) s fun r s' ↦
      (∃ failure, r = .error failure) → SameTables s.store s'.store) ∧
    ∀ (payload : Payload) s, Answers env → Sound env s → Joined s.store →
      payload.WellFormed s.store →
        (payload.RoundTrips env userId s ↔ payload.Unshadowed env) :=
  ⟨updateLegacyAddressBook_atomic env userId, fun _ _ henv hs hj hw ↦
    roundTrips_iff henv hs hj hw⟩

section Sample

def sampleEnvironment : Environment where
  uuid n := String.ofList (List.replicate (n + 1) 'u')
  failure _ := none
  byHeartbeat := id
  perm := .refl
  memberColor _ := none
  oneConnection := true

def sampleState : State := ⟨⟨⟨[], [], []⟩, [], [], [], [⟨"d1", "123456789"⟩], []⟩, 0, 0⟩

def samplePayload : Payload := ⟨["home"], [⟨"123456789", none, some "desk", ["home", "old"]⟩],
  .object (.set .empty "home" 7)⟩

/-- A tag that is not declared, and that every object has. -/
def shadowedPayload : Payload := ⟨[], [⟨"123456789", none, none, ["toString"]⟩], .missing⟩

theorem sample_answers : Answers sampleEnvironment := by
  refine ⟨fun _ ↦ rfl, fun n m h ↦ ?_⟩
  have hlength := congrArg (·.toList.length) h
  simpa [sampleEnvironment] using hlength

theorem sample_sound : Sound sampleEnvironment sampleState := by
  refine ⟨⟨by simp [sampleState], by simp [sampleState]⟩, by simp [sampleState], fun n _ hm ↦ ?_⟩
  have heq : String.ofList (List.replicate (n + 1) 'u') = "d1" := by
    simpa [keys, sampleState, sampleEnvironment] using hm
  have hhead := congrArg (·.toList.head?) heq
  simp [List.replicate_succ] at hhead

theorem sample_joined : Joined sampleState.store := nofun

theorem legacy_replacement_home :
    samplePayload.RoundTrips sampleEnvironment "ann" sampleState :=
  ((legacy_replacement sampleEnvironment "ann").2 samplePayload sampleState sample_answers
    sample_sound sample_joined ⟨by simp [samplePayload],
      by simp [samplePayload, dangerousProperties], nofun, by simp [samplePayload], by simp [samplePayload, Known, sampleState]⟩).mpr
    ⟨by simp [samplePayload, inheritedMembers], by simp [samplePayload, inheritedMembers]⟩

theorem legacy_replacement_shadowed : ¬∀ env userId (payload : Payload) s, Answers env →
    Sound env s → Joined s.store → payload.WellFormed s.store →
      payload.RoundTrips env userId s := by
  intro h
  have hw : shadowedPayload.WellFormed sampleState.store := ⟨by simp [shadowedPayload],
    by simp [shadowedPayload], nofun, by simp [shadowedPayload],
    by simp [shadowedPayload, Known, sampleState]⟩
  obtain ⟨s₁, _, _, hu, -⟩ := h sampleEnvironment "ann" shadowedPayload sampleState sample_answers
    sample_sound sample_joined hw
  have hupdate : Ends (updateLegacyAddressBook sampleEnvironment "ann" (.json shadowedPayload))
      sampleState _ := updateLegacyAddressBook_ends sample_answers sample_sound sample_joined hw
  have hdeclared := (hupdate.of_ok hu).2 _ (.head _) "toString" (.head _)
    (by simp [inheritedMembers])
  cases hdeclared

end Sample

end RustdeskConsole.AddressBooks.AddressBookLegacyService
