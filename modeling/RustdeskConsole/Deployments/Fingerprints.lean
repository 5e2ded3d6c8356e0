import RustdeskConsole.Serialization.Meaning

namespace RustdeskConsole.Deployments

open Collections Serialization

/-- The code units of a character. -/
def utf16 (c : Char) : List ℕ :=
  if c.toNat < 0x10000 then [c.toNat]
  else [0xD800 + (c.toNat - 0x10000) / 0x400, 0xDC00 + (c.toNat - 0x10000) % 0x400]

def units (text : Text) : List ℕ := text.flatMap utf16

/-- The keys that an object has first, by number. -/
def isIndex (key : Text) : Bool := isNumeral key && numeralValue key < 2 ^ 32 - 1

def fromEntries (entries : List (Text × Value)) : List (Text × Value) :=
  sortEntries numeralValue (entries.filter fun entry ↦ isIndex entry.1) ++
    entries.filter fun entry ↦ !isIndex entry.1

mutual

/-- The members are sorted by the code units of their keys. -/
def canonical : Value → Value
  | .array elements => .array (canonicalElements elements)
  | .object members => .object (fromEntries (sortEntries units (canonicalMembers members)))
  | value => value

def canonicalElements : List Value → List Value
  | [] => []
  | element :: rest => canonical element :: canonicalElements rest

def canonicalMembers : List (Text × Value) → List (Text × Value)
  | [] => []
  | (key, value) :: rest => (key, canonical value) :: canonicalMembers rest

end

section Canonical

variable {text text' : Text} {value : Value} {entries members members' : List (Text × Value)}
  {name : Text}

theorem utf16_cases (c : Char) : c.toNat < 0x10000 ∧ ¬(0xD800 ≤ c.toNat ∧ c.toNat < 0xDC00) ∧
      utf16 c = [c.toNat] ∨
    ∃ high low, high < 0x400 ∧ low < 0x400 ∧ c.toNat = 0x10000 + high * 0x400 + low ∧
      utf16 c = [0xD800 + high, 0xDC00 + low] := by
  have hvalid := c.valid
  have hn : c.val.toNat = c.toNat := rfl
  simp only [UInt32.isValidChar, Nat.isValidChar, hn] at hvalid
  by_cases h : c.toNat < 0x10000
  · refine .inl ⟨h, ?_, if_pos h⟩
    omega
  · refine .inr ⟨(c.toNat - 0x10000) / 0x400, (c.toNat - 0x10000) % 0x400, ?_, ?_, ?_, if_neg h⟩
    · omega
    · omega
    · omega

theorem units_cons {c : Char} : units (c :: text) = utf16 c ++ units text := List.flatMap_cons ..

/-- The code units tell texts apart. -/
theorem units_injective (h : units text = units text') : text = text' := by
  induction text generalizing text' with
  | nil =>
    cases text' with
    | nil => rfl
    | cons d text' =>
      rw [units_cons] at h
      rcases utf16_cases d with ⟨-, -, hd⟩ | ⟨high, low, -, -, -, hd⟩ <;> rw [hd] at h <;> cases h
  | cons c text ih =>
    cases text' with
    | nil =>
      rw [units_cons] at h
      rcases utf16_cases c with ⟨-, -, hc⟩ | ⟨high, low, -, -, -, hc⟩ <;> rw [hc] at h <;> cases h
    | cons d text' =>
      rw [units_cons, units_cons] at h
      rcases utf16_cases c with ⟨-, hc, heq⟩ | ⟨high, low, hh, hl, hc, heq⟩ <;>
        rcases utf16_cases d with ⟨-, hd, heq'⟩ | ⟨high', low', hh', hl', hd, heq'⟩ <;>
        rw [heq, heq'] at h
      · obtain ⟨hunit, hrest⟩ := List.cons.inj h
        rw [Char.toNat_inj.mp hunit, ih hrest]
      · have hunit := (List.cons.inj h).1
        omega
      · have hunit := (List.cons.inj h).1
        omega
      · obtain ⟨hunit, h⟩ := List.cons.inj h
        obtain ⟨hunit', hrest⟩ := List.cons.inj h
        have hchar : c.toNat = d.toNat := by omega
        rw [Char.toNat_inj.mp hchar, ih hrest]

theorem perm_fromEntries : (fromEntries entries).Perm entries :=
  (perm_sortEntries.append_right _).trans (List.filter_append_perm ..)

theorem perm_canonical : (fromEntries (sortEntries units entries)).Perm entries :=
  perm_fromEntries.trans perm_sortEntries

theorem keys_canonicalMembers :
    (canonicalMembers members).map Prod.fst = members.map Prod.fst := by
  induction members with
  | nil => rfl
  | cons member members ih => rw [canonicalMembers, List.map_cons, List.map_cons, ih]

theorem lookup_canonicalMembers :
    (canonicalMembers members).lookup name = (members.lookup name).map canonical := by
  induction members with
  | nil => rfl
  | cons member members ih =>
    rw [canonicalMembers, List.lookup_cons, List.lookup_cons, ih]
    split <;> rfl

theorem nodup_canonical (hd : (members.map Prod.fst).Nodup) :
    ((fromEntries (sortEntries units (canonicalMembers members))).map Prod.fst).Nodup := by
  rw [(perm_canonical.map Prod.fst).nodup_iff, keys_canonicalMembers]
  exact hd

/-- Members that are found alike become the same. -/
theorem fromEntries_eq (hd : (members.map Prod.fst).Nodup) (hd' : (members'.map Prod.fst).Nodup)
    (h : ∀ name, (members.lookup name).map canonical = (members'.lookup name).map canonical) :
    fromEntries (sortEntries units (canonicalMembers members)) =
      fromEntries (sortEntries units (canonicalMembers members')) := by
  rw [← keys_canonicalMembers] at hd hd'
  have hperm : (canonicalMembers members).Perm (canonicalMembers members') :=
    perm_of_lookup hd hd' fun name ↦ by rw [lookup_canonicalMembers, h, lookup_canonicalMembers]
  refine congrArg fromEntries (sortEntries_perm (fun a ha b hb hkey ↦ ?_) hperm)
  exact List.inj_on_of_nodup_map hd ha hb (units_injective hkey)

mutual

theorem canonical_wellFormed : ∀ value : Value, value.WellFormed → (canonical value).WellFormed
  | .null, hw | .bool _, hw | .integer _, hw | .fraction _, hw | .string _, hw => hw
  | .array elements, hw => canonicalElements_wellFormed elements hw
  | .object members, hw => by
    refine ⟨nodup_canonical hw.1, membersWellFormed_iff.mpr fun member hm ↦ ?_⟩
    exact membersWellFormed_iff.mp (canonicalMembers_wellFormed members hw.2) member
      (perm_canonical.subset hm)

theorem canonicalElements_wellFormed : ∀ elements : List Value,
    ElementsWellFormed elements → ElementsWellFormed (canonicalElements elements)
  | [], hw => hw
  | element :: rest, hw =>
    ⟨canonical_wellFormed element hw.1, canonicalElements_wellFormed rest hw.2⟩

theorem canonicalMembers_wellFormed : ∀ members : List (Text × Value),
    MembersWellFormed members → MembersWellFormed (canonicalMembers members)
  | [], hw => hw
  | (_, value) :: rest, hw =>
    ⟨canonical_wellFormed value hw.1, canonicalMembers_wellFormed rest hw.2⟩

end

mutual

/-- The canonical value says the same. -/
theorem meaning_canonical : ∀ value : Value, value.WellFormed →
    meaning (canonical value) = meaning value
  | .null, _ | .bool _, _ | .integer _, _ | .fraction _, _ | .string _, _ => rfl
  | .array elements, hw => congrArg Meaning.array (meanings_canonical elements hw)
  | .object members, hw => by
    refine congrArg Meaning.object (funext fun name ↦ ?_)
    rw [memberMeaning_eq, lookup_perm (nodup_canonical hw.1) perm_canonical, ← memberMeaning_eq]
    exact memberMeaning_canonical members hw.2 name

theorem meanings_canonical : ∀ elements : List Value, ElementsWellFormed elements →
    meanings (canonicalElements elements) = meanings elements
  | [], _ => rfl
  | element :: rest, hw => by
    rw [canonicalElements, meanings, meanings, meaning_canonical element hw.1,
      meanings_canonical rest hw.2]

theorem memberMeaning_canonical : ∀ members : List (Text × Value), MembersWellFormed members →
    ∀ name, memberMeaning (canonicalMembers members) name = memberMeaning members name
  | [], _, _ => rfl
  | (key, value) :: rest, hw, name => by
    rw [canonicalMembers, memberMeaning, memberMeaning, meaning_canonical value hw.1,
      memberMeaning_canonical rest hw.2]

end

mutual

/-- What says the same has one canonical value. -/
theorem canonical_eq : ∀ value value' : Value, value.WellFormed → value'.WellFormed →
    meaning value = meaning value' → canonical value = canonical value'
  | .array elements, .array elements', hw, hw', h =>
    congrArg Value.array (canonicalElements_eq elements elements' hw hw' (Meaning.array.inj h))
  | .object members, .object members', hw, hw', h => by
    refine congrArg Value.object (fromEntries_eq hw.1 hw'.1 fun name ↦ ?_)
    exact lookup_canonical_eq members members' hw.2 hw'.2 name
      (congrFun (Meaning.object.inj h) name)
  | .null, value', _, _, h | .bool _, value', _, _, h | .integer _, value', _, _, h
  | .fraction _, value', _, _, h | .string _, value', _, _, h => by
    cases value' <;> cases h
    rfl

theorem canonicalElements_eq : ∀ elements elements' : List Value, ElementsWellFormed elements →
    ElementsWellFormed elements' → meanings elements = meanings elements' →
    canonicalElements elements = canonicalElements elements'
  | [], [], _, _, _ => rfl
  | element :: rest, element' :: rest', hw, hw', h => by
    obtain ⟨hfirst, hrest⟩ := List.cons.inj h
    rw [canonicalElements, canonicalElements, canonical_eq element element' hw.1 hw'.1 hfirst,
      canonicalElements_eq rest rest' hw.2 hw'.2 hrest]

theorem lookup_canonical_eq : ∀ members members' : List (Text × Value),
    MembersWellFormed members → MembersWellFormed members' →
    ∀ name, memberMeaning members name = memberMeaning members' name →
      (members.lookup name).map canonical = (members'.lookup name).map canonical
  | [], members', _, _, name, h => by
    have hnone : memberMeaning members' name = none := h.symm
    rw [memberMeaning_eq] at hnone
    rw [Option.map_eq_none_iff.mp hnone]
    rfl
  | (key, value) :: rest, members', hw, hw', name, h => by
    rw [memberMeaning] at h
    rw [List.lookup_cons]
    by_cases hname : name = key
    · rw [if_pos hname, memberMeaning_eq, eq_comm, Option.map_eq_some_iff] at h
      obtain ⟨value', hfound, hmeaning⟩ := h
      obtain ⟨before, after, hmembers, -⟩ := List.lookup_eq_some_iff.mp hfound
      have hw' := membersWellFormed_iff.mp hw' (name, value') (hmembers ▸ by simp)
      rw [beq_iff_eq.mpr hname, hfound]
      exact congrArg some (canonical_eq value value' hw.1 hw' hmeaning.symm)
    · rw [if_neg hname] at h
      rw [beq_eq_false_iff_ne.mpr hname]
      exact lookup_canonical_eq rest members' hw.2 hw' name h

end

end Canonical

/-- Two values are digested as one text if and only if they say the same. -/
theorem stringify_canonical_iff {value value' : Value} (hw : value.WellFormed)
    (hw' : value'.WellFormed) : stringify (canonical value) = stringify (canonical value') ↔
      meaning value = meaning value' := by
  constructor
  · intro h
    have heq := stringify_injOn (canonical_wellFormed value hw) (canonical_wellFormed value' hw') h
    rw [← meaning_canonical value hw, heq, meaning_canonical value' hw']
  · intro h
    rw [canonical_eq value value' hw hw' h]

section Compose

/-- What `docker compose config` prints: its services, and all that is beside them. -/
structure ComposeConfig where
  services : List (Text × List (Text × Value))
  others : List (Text × Value)

def ComposeConfig.value (config : ComposeConfig) : Value :=
  .object (("services".toList,
    .object (config.services.map fun (name, fields) ↦ (name, .object fields))) :: config.others)

def ComposeConfig.WellFormed (config : ComposeConfig) : Prop := config.value.WellFormed

def deleteImage (services : List Text) (service : Text) (fields : List (Text × Value)) :
    List (Text × Value) :=
  if services.contains service then fields.filter (·.1 ≠ "image".toList) else fields

/-- `delete normalized.services[service].image` for all these services. -/
def ComposeConfig.normalized (config : ComposeConfig) (services : List Text) : ComposeConfig where
  services := config.services.map fun (name, fields) ↦ (name, deleteImage services name fields)
  others := config.others

/-- The text that is digested. -/
def fingerprinted (config : ComposeConfig) (services : List Text) : Text :=
  stringify (canonical (config.normalized services).value)

def configurationFingerprint (digest : Text → String) (config : ComposeConfig)
    (services : List Text) : String :=
  digest (fingerprinted config services)

/-- What the configuration says of a field of a service. -/
def ComposeConfig.setting (config : ComposeConfig) (service field : Text) : Option Meaning :=
  (config.services.lookup service).bind fun fields ↦ memberMeaning fields field

/-- Two configurations differ in the images of these services at most. -/
structure AgreeBut (services : List Text) (config config' : ComposeConfig) : Prop where
  others : ∀ name, memberMeaning config.others name = memberMeaning config'.others name
  present : ∀ service, (config.services.lookup service).isSome =
    (config'.services.lookup service).isSome
  setting : ∀ service field, ¬(service ∈ services ∧ field = "image".toList) →
    config.setting service field = config'.setting service field

variable {config config' : ComposeConfig} {services : List Text} {service field : Text}

theorem lookup_map_snd {α β : Type} {f : Text → α → β} {entries : List (Text × α)} {key : Text} :
    (entries.map fun (name, a) ↦ (name, f name a)).lookup key =
      (entries.lookup key).map (f key) := by
  induction entries with
  | nil => rfl
  | cons entry entries ih =>
    rw [List.map_cons, List.lookup_cons, List.lookup_cons, ih]
    split
    · next h => rw [beq_iff_eq.mp h, Option.map_some]
    · rfl

theorem memberMeaning_filter {fields : List (Text × Value)} {image : Text} :
    memberMeaning (fields.filter (·.1 ≠ image)) field =
      if field = image then none else memberMeaning fields field := by
  induction fields with
  | nil => simp [memberMeaning]
  | cons member fields ih =>
    rw [List.filter_cons]
    by_cases hm : member.1 = image
    · rw [if_neg (by simpa using hm), ih]
      split
      · rfl
      · next hf => rw [memberMeaning, if_neg (hm ▸ hf)]
    · rw [if_pos (by simpa using hm), memberMeaning, memberMeaning, ih]
      by_cases hf : field = member.1
      · rw [if_pos hf, if_neg (hf ▸ hm), if_pos hf]
      · rw [if_neg hf, if_neg hf]

/-- What is left of a service says the same as before, but of its image. -/
theorem memberMeaning_normalized {fields : List (Text × Value)} :
    memberMeaning (deleteImage services service fields) field =
      if services.contains service ∧ field = "image".toList then none
      else memberMeaning fields field := by
  rw [deleteImage]
  by_cases hs : services.contains service
  · rw [if_pos hs, memberMeaning_filter]
    simp only [hs, true_and]
  · rw [if_neg hs, if_neg (hs ·.1)]

def ComposeConfig.normal (config : ComposeConfig) (services : List Text) (service : Text) :
    Option (Text → Option Meaning) :=
  (config.services.lookup service).map fun fields field ↦
    if services.contains service ∧ field = "image".toList then none else memberMeaning fields field

theorem meaning_normalized : meaning (config.normalized services).value =
    .object fun name ↦ if name = "services".toList then
        some (.object fun service ↦ (config.normal services service).map .object)
      else memberMeaning config.others name := by
  refine congrArg Meaning.object (funext fun name ↦ ?_)
  rw [memberMeaning]
  split
  · refine congrArg some (congrArg Meaning.object (funext fun service ↦ ?_))
    rw [memberMeaning_eq, lookup_map_snd (f := fun _ fields ↦ Value.object fields),
      ComposeConfig.normalized, lookup_map_snd (f := deleteImage services), ComposeConfig.normal,
      Option.map_map, Option.map_map, Option.map_map]
    refine congrArg (Option.map · _) (funext fun fields ↦ ?_)
    exact congrArg Meaning.object (funext fun field ↦ memberMeaning_normalized)
  · rfl

theorem deleteImage_wellFormed {fields : List (Text × Value)}
    (hw : (Value.object fields).WellFormed) :
    (Value.object (deleteImage services service fields)).WellFormed := by
  rw [deleteImage]
  split
  · have hsub : (fields.filter (·.1 ≠ "image".toList)).Sublist fields := List.filter_sublist
    exact ⟨hw.1.sublist (hsub.map Prod.fst), membersWellFormed_iff.mpr fun member hm ↦
      membersWellFormed_iff.mp hw.2 member (hsub.subset hm)⟩
  · exact hw

theorem normalized_wellFormed (hw : config.WellFormed) :
    (config.normalized services).WellFormed := by
  obtain ⟨hkeys, ⟨hnames, hservices⟩, hothers⟩ := hw
  refine ⟨hkeys, ⟨?_, membersWellFormed_iff.mpr fun member hm ↦ ?_⟩, hothers⟩
  · rw [List.map_map] at hnames
    rw [ComposeConfig.normalized, List.map_map, List.map_map]
    exact hnames
  · rw [ComposeConfig.normalized, List.map_map] at hm
    obtain ⟨service, hs, rfl⟩ := List.mem_map.mp hm
    exact deleteImage_wellFormed (membersWellFormed_iff.mp hservices _ (List.mem_map_of_mem hs))

/-- No other member is called `services`. -/
theorem others_services (hw : config.WellFormed) :
    memberMeaning config.others "services".toList = none := by
  have hnew := (List.nodup_cons.mp hw.1).1
  rw [memberMeaning_eq, Option.map_eq_none_iff, List.lookup_eq_none_iff]
  intro member hm
  exact bne_iff_ne.mpr fun heq ↦ hnew (List.mem_map.mpr ⟨member, hm, heq.symm⟩)

theorem normal_eq_iff : config.normal services service = config'.normal services service ↔
    (config.services.lookup service).isSome = (config'.services.lookup service).isSome ∧
      ∀ field, ¬(service ∈ services ∧ field = "image".toList) →
        config.setting service field = config'.setting service field := by
  rw [ComposeConfig.normal, ComposeConfig.normal]
  simp only [ComposeConfig.setting, List.contains_iff_mem]
  cases config.services.lookup service with
  | none =>
    cases config'.services.lookup service with
    | none => simp
    | some fields' => simp
  | some fields =>
    cases config'.services.lookup service with
    | none => simp
    | some fields' =>
      simp only [Option.map_some, Option.some.injEq, Option.isSome_some, Option.bind_some, true_and]
      constructor
      · intro h field hfield
        have heq := congrFun h field
        rwa [if_neg hfield, if_neg hfield] at heq
      · intro h
        funext field
        by_cases hfield : service ∈ services ∧ field = "image".toList
        · rw [if_pos hfield, if_pos hfield]
        · rw [if_neg hfield, if_neg hfield, h field hfield]

/-- Two configurations have one fingerprint text if and only if they say the same,
in whatever order, but for the images of the managed services. -/
theorem fingerprinted_iff (hw : config.WellFormed) (hw' : config'.WellFormed) :
    fingerprinted config services = fingerprinted config' services ↔
      AgreeBut services config config' := by
  rw [fingerprinted, fingerprinted, stringify_canonical_iff (normalized_wellFormed hw)
    (normalized_wellFormed hw'), meaning_normalized, meaning_normalized, Meaning.object.injEq]
  constructor
  · intro h
    have hnormal : ∀ service, config.normal services service = config'.normal services service := by
      intro service
      have hservices := congrFun h "services".toList
      rw [if_pos rfl, if_pos rfl, Option.some.injEq, Meaning.object.injEq] at hservices
      exact Option.map_injective (fun _ _ ↦ Meaning.object.inj) (congrFun hservices service)
    refine ⟨fun name ↦ ?_, fun service ↦ (normal_eq_iff.mp (hnormal service)).1,
      fun service ↦ (normal_eq_iff.mp (hnormal service)).2⟩
    by_cases hname : name = "services".toList
    · rw [hname, others_services hw, others_services hw']
    · have hother := congrFun h name
      rwa [if_neg hname, if_neg hname] at hother
  · intro h
    funext name
    split
    · refine congrArg some (congrArg Meaning.object (funext fun service ↦ ?_))
      rw [normal_eq_iff.mpr ⟨h.present service, h.setting service⟩]
    · exact h.others name

def sampleConfig (image : Text) : ComposeConfig where
  services := [("web".toList, [("image".toList, .string image), ("tty".toList, .bool true)])]
  others := [("name".toList, .string "console".toList)]

theorem sampleConfig_wellFormed (image : Text) : (sampleConfig image).WellFormed := by
  simp [ComposeConfig.WellFormed, ComposeConfig.value, Value.WellFormed, MembersWellFormed,
    sampleConfig]

theorem sample_fingerprinted : fingerprinted (sampleConfig ['1']) ["web".toList] =
      fingerprinted (sampleConfig ['2']) ["web".toList] ↔
    AgreeBut ["web".toList] (sampleConfig ['1']) (sampleConfig ['2']) :=
  fingerprinted_iff (sampleConfig_wellFormed _) (sampleConfig_wellFormed _)

end Compose

end RustdeskConsole.Deployments
