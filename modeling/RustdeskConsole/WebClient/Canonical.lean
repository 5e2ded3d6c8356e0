import RustdeskConsole.Protobuf.Wire
import RustdeskConsole.WebClient.Binding

namespace RustdeskConsole.WebClient

open Collections Effects.Guard
open Protobuf (Minimal varint)

/-- What a field may hold. -/
def Field.Admits (definition : Field) : WireValue → Prop
  | .number value => definition.wire = .varint ∧ ∀ max, definition.max = some max → value ≤ max
  | .buffer bytes =>
    definition.wire = .length ∧ bytes.length ≤ definition.max.getD MAX_HANDSHAKE_BYTES

/-- A varint of the handshake: minimal, and at most `2 ^ 32 - 1`. -/
def IsVarint (value : ℕ) (bytes : List UInt8) : Prop := Minimal value bytes ∧ value ≤ 2 ^ 32 - 1

def IsPayload : WireValue → List UInt8 → Prop
  | .number value, bytes => IsVarint value bytes
  | .buffer content, bytes => ∃ length, IsVarint content.length length ∧ bytes = length ++ content

/-- The bytes are those of one field that conforms to the schema. -/
def IsField (schema : Schema) (entry : ℕ × WireValue) (bytes : List UInt8) : Prop :=
  ∃ definition tag payload, schema.field entry.1 = some definition ∧ definition.Admits entry.2 ∧
    IsVarint (entry.1 * 8 + definition.wire.code) tag ∧ IsPayload entry.2 payload ∧
    bytes = tag ++ payload

/-- Fields one after another, no two of them of one number. -/
structure Canonical (schema : Schema) (bytes : List UInt8) : Prop where
  short : bytes.length ≤ 16 * 1024
  fields : ∃ parts : List ((ℕ × WireValue) × List UInt8),
    (∀ part ∈ parts, IsField schema part.1 part.2) ∧ (parts.map (·.1.1)).Nodup ∧
    bytes = (parts.map Prod.snd).flatten

def encodeEntry : ℕ × WireValue → List UInt8
  | (number, .number value) => varint (number * 8) ++ varint value
  | (number, .buffer bytes) => varint (number * 8 + 2) ++ (varint bytes.length ++ bytes)

def encode (entries : List (ℕ × WireValue)) : List UInt8 := entries.flatMap encodeEntry

def WireValue.size : WireValue → ℕ
  | .number value => value
  | .buffer bytes => bytes.length

/-- An entry that has a field of its own to stand in. -/
def Representable (schema : Schema) (entry : ℕ × WireValue) : Prop :=
  ∃ definition, schema.field entry.1 = some definition ∧ definition.Admits entry.2 ∧
    entry.1 * 8 + definition.wire.code < 2 ^ 32 ∧ entry.2.size < 2 ^ 32

/-- Entries that make a handshake together. -/
structure Fits (schema : Schema) (values : OrderedMap ℕ WireValue) : Prop where
  representable : ∀ entry ∈ values.entries, Representable schema entry
  short : (encode values.entries).length ≤ 16 * 1024

variable {schema : Schema} {values values' : OrderedMap ℕ WireValue} {bytes rest : List UInt8}
  {entry : ℕ × WireValue} {entries : List (ℕ × WireValue)} {value : ℕ}

section Varints

theorem high_bit_clear {n : ℕ} (hn : n < 128) : UInt8.ofNat n &&& 128 = 0 := by
  rw [high_bit, Protobuf.toNat_last hn]
  exact hn

theorem high_bit_set {n : ℕ} : ¬UInt8.ofNat (n % 128 + 128) &&& 128 = 0 := by
  rw [high_bit, Protobuf.toNat_more]
  omega

/-- What the loop takes in is minimal: from the second byte on there are digits to come. -/
theorem readVarintFrom_minimal {n i accumulated : ℕ}
    (h : readVarintFrom n i accumulated bytes = .ok (value, rest)) (hi : n + i = 5) :
    ∃ digits, value = accumulated + digits * 2 ^ (7 * i) ∧ bytes = varint digits ++ rest ∧
      digits < 2 ^ (32 - 7 * i) ∧ (i ≠ 0 → digits ≠ 0) := by
  induction n generalizing i accumulated bytes with
  | zero => cases h
  | succ n ih =>
    cases bytes with
    | nil => cases h
    | cons b bytes =>
      have hdigits := readVarintFrom_digits (k := n + 1) h hi (Nat.le_refl _)
      rw [readVarintFrom] at h
      split at h
      · cases h
      split at h
      · rename_i hbit
        rw [high_bit] at hbit
        split at h
        · cases h
        rename_i hzero
        obtain ⟨hv, rfl⟩ := Prod.mk.inj (Except.ok.inj h)
        rw [low_bits, Nat.mod_eq_of_lt hbit] at hv
        obtain ⟨digits, hd, -, hlt⟩ := hdigits
        rw [Protobuf.readDigits, if_pos hbit] at hd
        obtain ⟨rfl, -⟩ := Prod.mk.inj (Option.some.inj hd)
        refine ⟨b.toNat, hv.symm, ?_, hlt, fun hne hb ↦ hzero ?_⟩
        · rw [Protobuf.varint_last hbit]
          rfl
        · simpa [hne] using UInt8.toNat_inj.mp hb
      · rename_i hbit
        rw [high_bit, Nat.not_lt] at hbit
        obtain ⟨digits, hv, hbytes, hlt, hne⟩ := ih h (by omega)
        have hne : digits ≠ 0 := hne (Nat.succ_ne_zero i)
        rw [low_bits] at hv
        refine ⟨b.toNat % 128 + 128 * digits, ?_, ?_, ?_, fun _ ↦ by omega⟩
        · rw [hv]
          ring
        · rw [Protobuf.varint_more hbit hne, hbytes]
          rfl
        · have hn : n ≠ 0 := by
            rintro rfl
            cases h
          have hpow : 2 ^ (32 - 7 * i) = 128 * 2 ^ (32 - 7 * (i + 1)) := by
            rw [show 32 - 7 * i = 7 + (32 - 7 * (i + 1)) by omega, Nat.pow_add]
          omega

/-- The loop takes in all that is minimal and small enough. -/
theorem readVarintFrom_varint {n i accumulated digits : ℕ} (hi : n + i = 5) (hn : n ≠ 0)
    (hlt : digits < 2 ^ (32 - 7 * i)) (hne : i ≠ 0 → digits ≠ 0) :
    readVarintFrom n i accumulated (varint digits ++ rest) =
      .ok (accumulated + digits * 2 ^ (7 * i), rest) := by
  induction n generalizing i accumulated digits with
  | zero => exact absurd rfl hn
  | succ n ih =>
    by_cases hd : digits < 128
    · have hlast := Protobuf.toNat_last hd
      rw [Protobuf.varint_of_lt hd, List.singleton_append, readVarintFrom, if_neg, if_pos, if_neg,
        low_bits, hlast, Nat.mod_eq_of_lt hd]
      · intro hz
        rw [Bool.and_eq_true, decide_eq_true_eq, decide_eq_true_eq] at hz
        have hzero := congrArg UInt8.toNat hz.2
        rw [hlast] at hzero
        exact hne hz.1 hzero
      · exact high_bit_clear hd
      · intro hz
        rw [Bool.and_eq_true, decide_eq_true_eq, decide_eq_true_eq] at hz
        obtain ⟨rfl, hbig⟩ := hz
        have hbig := UInt8.lt_iff_toNat_lt.mp hbig
        rw [hlast] at hbig
        change 15 < digits at hbig
        change digits < 16 at hlt
        omega
    · have hi4 : i ≠ 4 := by
        rintro rfl
        change digits < 16 at hlt
        omega
      have hpow : 2 ^ (32 - 7 * i) = 128 * 2 ^ (32 - 7 * (i + 1)) := by
        rw [show 32 - 7 * i = 7 + (32 - 7 * (i + 1)) by omega, Nat.pow_add]
      have hrest : readVarintFrom n (i + 1) (accumulated + digits % 128 * 2 ^ (7 * i))
          (varint (digits / 128) ++ rest) = .ok (accumulated + digits % 128 * 2 ^ (7 * i) +
            digits / 128 * 2 ^ (7 * (i + 1)), rest) :=
        ih (by omega) (by omega) (by omega) fun _ ↦ by omega
      rw [Protobuf.varint_of_ge (Nat.not_lt.mp hd), List.cons_append, readVarintFrom, if_neg,
        if_neg high_bit_set, low_bits, Protobuf.toNat_more]
      · rw [show (digits % 128 + 128) % 128 = digits % 128 by omega, hrest]
        have hsum : digits = digits % 128 + 128 * (digits / 128) := by omega
        have hvalue : accumulated + digits % 128 * 2 ^ (7 * i) + digits / 128 * 2 ^ (7 * (i + 1)) =
            accumulated + digits * 2 ^ (7 * i) := by
          calc accumulated + digits % 128 * 2 ^ (7 * i) + digits / 128 * 2 ^ (7 * (i + 1))
              = accumulated + (digits % 128 + 128 * (digits / 128)) * 2 ^ (7 * i) := by ring
            _ = accumulated + digits * 2 ^ (7 * i) := by rw [← hsum]
        rw [hvalue]
      · simp [hi4]

theorem readVarint_eq_ok :
    readVarint bytes = .ok (value, rest) ↔ value < 2 ^ 32 ∧ bytes = varint value ++ rest := by
  constructor
  · intro h
    obtain ⟨digits, hv, hbytes, hlt, -⟩ := readVarintFrom_minimal h rfl
    rw [Nat.mul_zero, Nat.pow_zero, Nat.mul_one, Nat.zero_add] at hv
    rw [hv]
    exact ⟨hlt, hbytes⟩
  · rintro ⟨hlt, rfl⟩
    have h : readVarintFrom 5 0 0 (varint value ++ rest) = .ok (0 + value * 2 ^ (7 * 0), rest) :=
      readVarintFrom_varint rfl (by omega) hlt fun h ↦ absurd rfl h
    rw [readVarint]
    simpa using h

end Varints

section Fields

theorem encodeEntry_eq {definition : Field} (ha : definition.Admits entry.2) :
    encodeEntry entry = varint (entry.1 * 8 + definition.wire.code) ++
      match entry.2 with
      | .number value => varint value
      | .buffer bytes => varint bytes.length ++ bytes := by
  obtain ⟨number, value⟩ := entry
  cases value with
  | number value =>
    have hw : definition.wire = .varint := ha.1
    rw [hw]
    rfl
  | buffer bytes =>
    have hw : definition.wire = .length := ha.1
    rw [hw]
    rfl

theorem encodeEntry_ne_nil (entry : ℕ × WireValue) : encodeEntry entry ≠ [] := by
  obtain ⟨number, value⟩ := entry
  cases value with
  | number value => exact List.append_ne_nil_of_left_ne_nil (Protobuf.varint_ne_nil _) _
  | buffer bytes => exact List.append_ne_nil_of_left_ne_nil (Protobuf.varint_ne_nil _) _

theorem code_lt (wire : Wire) : wire.code < 8 := by
  cases wire with
  | varint => decide
  | length => decide

/-- A round takes in the encoding of an entry that is new and conforms to the schema. -/
theorem readField_sound (h : readField schema values bytes = .ok (entry, rest)) :
    values.get? entry.1 = none ∧ Representable schema entry ∧
      bytes = encodeEntry entry ++ rest := by
  obtain ⟨⟨tag, bytes₁⟩, htag, h⟩ := bind_eq_ok.mp h
  obtain ⟨htag, hbytes⟩ := readVarint_eq_ok.mp htag
  dsimp only at h
  split at h
  · cases h
  rename_i definition hdef
  obtain ⟨_, hc, h⟩ := bind_eq_ok.mp h
  obtain ⟨hwire, hnone⟩ := Bool.and_eq_true_iff.mp (check_eq_ok.mp hc)
  obtain ⟨⟨value, bytes₂⟩, hvalue, h⟩ := bind_eq_ok.mp h
  obtain ⟨hvalue, hbytes₁⟩ := readVarint_eq_ok.mp hvalue
  rw [Option.isNone_iff_eq_none] at hnone
  have hwire := of_decide_eq_true hwire
  have hsplit : tag / 8 * 8 + definition.wire.code = tag := by omega
  dsimp only at h
  split at h
  · rename_i hw
    obtain ⟨_, hmax, h⟩ := bind_eq_ok.mp h
    obtain ⟨rfl, rfl⟩ := Prod.mk.inj (pure_eq_ok.mp h)
    have ha : definition.Admits (.number value) := by
      refine ⟨hw, fun max hm ↦ ?_⟩
      rw [check_eq_ok, hm, Option.all_some] at hmax
      exact of_decide_eq_true hmax
    refine ⟨hnone, ⟨definition, hdef, ha, hsplit.symm ▸ htag, hvalue⟩, ?_⟩
    rw [hbytes, hbytes₁, encodeEntry_eq ha, hsplit, List.append_assoc]
  · rename_i hw
    obtain ⟨_, hlen, h⟩ := bind_eq_ok.mp h
    obtain ⟨rfl, rfl⟩ := Prod.mk.inj (pure_eq_ok.mp h)
    obtain ⟨hmax, hlen⟩ := Bool.and_eq_true_iff.mp (check_eq_ok.mp hlen)
    have htake : (bytes₂.take value).length = value := by
      rw [List.length_take]
      exact Nat.min_eq_left (of_decide_eq_true hlen)
    have ha : definition.Admits (.buffer (bytes₂.take value)) := by
      refine ⟨hw, ?_⟩
      rw [htake]
      exact of_decide_eq_true hmax
    refine ⟨hnone, ⟨definition, hdef, ha, hsplit.symm ▸ htag, ?_⟩, ?_⟩
    · rw [WireValue.size, htake]
      exact hvalue
    · rw [hbytes, hbytes₁, encodeEntry_eq ha, hsplit]
      dsimp only
      rw [htake, List.append_assoc, List.append_assoc, List.take_append_drop]

theorem readField_encodeEntry (hnone : values.get? entry.1 = none)
    (he : Representable schema entry) :
    readField schema values (encodeEntry entry ++ rest) = .ok (entry, rest) := by
  obtain ⟨definition, hdef, ha, htag, hsize⟩ := he
  have hcode := code_lt definition.wire
  have hnumber : (entry.1 * 8 + definition.wire.code) / 8 = entry.1 := by omega
  have hwire : (entry.1 * 8 + definition.wire.code) % 8 = definition.wire.code := by omega
  rw [encodeEntry_eq ha, List.append_assoc]
  refine bind_eq_ok.mpr ⟨_, readVarint_eq_ok.mpr ⟨htag, rfl⟩, ?_⟩
  dsimp only
  rw [hnumber, hdef]
  refine bind_eq_ok.mpr ⟨(), check_eq_ok.mpr ?_, ?_⟩
  · rw [hwire, hnone, Option.isNone_none, decide_eq_true rfl, Bool.true_and]
  obtain ⟨number, value⟩ := entry
  cases value with
  | number value =>
    obtain ⟨hw, hmax⟩ := ha
    refine bind_eq_ok.mpr ⟨_, readVarint_eq_ok.mpr ⟨hsize, rfl⟩, ?_⟩
    rw [hw]
    refine bind_eq_ok.mpr ⟨(), check_eq_ok.mpr ?_, rfl⟩
    rw [Option.all_eq_true]
    intro max hm
    exact decide_eq_true (hmax max hm)
  | buffer content =>
    obtain ⟨hw, hmax⟩ := ha
    have hlen : content.length ≤ (content ++ rest).length := by
      rw [List.length_append]
      exact Nat.le_add_right _ _
    refine bind_eq_ok.mpr ⟨_, readVarint_eq_ok.mpr ⟨hsize, List.append_assoc ..⟩, ?_⟩
    rw [hw]
    dsimp only [WireValue.size]
    refine bind_eq_ok.mpr ⟨(), check_eq_ok.mpr ?_, ?_⟩
    · exact Bool.and_eq_true_iff.mpr ⟨decide_eq_true hmax, decide_eq_true hlen⟩
    · rw [List.take_left, List.drop_left]
      rfl

theorem readFields_sound {n : ℕ} (h : readFields schema n values bytes = .ok values') :
    ∃ entries, values'.entries = values.entries ++ entries ∧
      (∀ entry ∈ entries, Representable schema entry) ∧ bytes = encode entries := by
  induction n generalizing values bytes with
  | zero =>
    cases bytes with
    | nil =>
      obtain rfl := Except.ok.inj h
      exact ⟨[], (List.append_nil _).symm, nofun, rfl⟩
    | cons b bytes => cases h
  | succ n ih =>
    cases bytes with
    | nil =>
      obtain rfl := Except.ok.inj h
      exact ⟨[], (List.append_nil _).symm, nofun, rfl⟩
    | cons b bytes =>
      obtain ⟨⟨entry, rest⟩, hfield, h⟩ := bind_eq_ok.mp h
      obtain ⟨hnone, hentry, hbytes⟩ := readField_sound hfield
      obtain ⟨entries, hentries, hall, rfl⟩ := ih h
      refine ⟨entry :: entries, ?_, List.forall_mem_cons.mpr ⟨hentry, hall⟩, hbytes⟩
      rw [hentries, OrderedMap.entries_set hnone, List.append_assoc]
      rfl

theorem readFields_encode {n : ℕ} (hentries : values'.entries = values.entries ++ entries)
    (hall : ∀ entry ∈ entries, Representable schema entry) (hn : (encode entries).length ≤ n) :
    readFields schema n values (encode entries) = .ok values' := by
  induction entries generalizing n values with
  | nil =>
    have heq : values = values' := by
      obtain ⟨es, hes⟩ := values
      obtain ⟨es', hes'⟩ := values'
      simpa using hentries.symm
    cases n with
    | zero => exact congrArg Except.ok heq
    | succ n => exact congrArg Except.ok heq
  | cons entry entries ih =>
    rw [List.forall_mem_cons] at hall
    have hnone : values.get? entry.1 = none := by
      rw [Option.eq_none_iff_forall_ne_some]
      intro value hget
      have hmem := List.mem_map_of_mem (f := Prod.fst) (OrderedMap.get?_eq_some.mp hget)
      have hnodup := values'.nodup
      rw [hentries, List.map_append, List.map_cons, List.nodup_append] at hnodup
      exact hnodup.2.2 _ hmem _ List.mem_cons_self rfl
    have hcons : encode (entry :: entries) = encodeEntry entry ++ encode entries := rfl
    obtain ⟨b, bytes, hb⟩ := List.exists_cons_of_ne_nil (encodeEntry_ne_nil entry)
    have hround : readField schema values (encodeEntry entry ++ encode entries) =
        .ok (entry, encode entries) := readField_encodeEntry hnone hall.1
    rw [hcons, hb, List.cons_append] at hn ⊢
    rw [hb, List.cons_append] at hround
    rw [List.length_cons, List.length_append] at hn
    cases n with
    | zero => cases hn
    | succ n =>
      refine bind_eq_ok.mpr ⟨_, hround, ih ?_ hall.2 (by omega)⟩
      rw [OrderedMap.entries_set hnone, hentries, List.append_assoc]
      rfl

/-- The entries are read from their encoding, and from nothing else. -/
theorem fields_eq_ok : fields bytes schema = .ok values ↔
    bytes.length ≤ 16 * 1024 ∧ (∀ entry ∈ values.entries, Representable schema entry) ∧
      bytes = encode values.entries := by
  have hmax : MAX_HANDSHAKE_BYTES = 16 * 1024 := rfl
  rw [fields, hmax]
  constructor
  · intro h
    split at h
    · cases h
    · rename_i hshort
      obtain ⟨entries, hentries, hall, hbytes⟩ := readFields_sound h
      have heq : values.entries = entries := hentries
      rw [heq]
      exact ⟨Nat.not_lt.mp hshort, hall, hbytes⟩
  · rintro ⟨hshort, hall, rfl⟩
    rw [if_neg (Nat.not_lt.mpr hshort)]
    exact readFields_encode rfl hall (Nat.le_refl _)

end Fields

section Segments

theorem isVarint_iff : IsVarint value bytes ↔ bytes = varint value ∧ value < 2 ^ 32 := by
  rw [IsVarint, Protobuf.minimal_iff, Nat.le_sub_one_iff_lt (by decide)]

theorem isField_iff : IsField schema entry bytes ↔
    Representable schema entry ∧ bytes = encodeEntry entry := by
  obtain ⟨number, value⟩ := entry
  constructor
  · rintro ⟨definition, tag, payload, hdef, ha, htag, hpayload, rfl⟩
    obtain ⟨rfl, hlt⟩ := isVarint_iff.mp htag
    rw [encodeEntry_eq ha]
    cases value with
    | number value =>
      obtain ⟨rfl, hsize⟩ := isVarint_iff.mp hpayload
      exact ⟨⟨definition, hdef, ha, hlt, hsize⟩, rfl⟩
    | buffer content =>
      obtain ⟨length, hlength, rfl⟩ := hpayload
      obtain ⟨rfl, hsize⟩ := isVarint_iff.mp hlength
      exact ⟨⟨definition, hdef, ha, hlt, hsize⟩, rfl⟩
  · rintro ⟨⟨definition, hdef, ha, htag, hsize⟩, rfl⟩
    refine ⟨definition, _, _, hdef, ha, isVarint_iff.mpr ⟨rfl, htag⟩, ?_, encodeEntry_eq ha⟩
    cases value with
    | number value => exact isVarint_iff.mpr ⟨rfl, hsize⟩
    | buffer content => exact ⟨_, isVarint_iff.mpr ⟨rfl, hsize⟩, rfl⟩

/-- A canonical string is the encoding of a list of entries. -/
theorem canonical_iff : Canonical schema bytes ↔ bytes.length ≤ 16 * 1024 ∧
    ∃ values : OrderedMap ℕ WireValue, (∀ entry ∈ values.entries, Representable schema entry) ∧
      bytes = encode values.entries := by
  constructor
  · rintro ⟨hshort, parts, hparts, hnodup, rfl⟩
    refine ⟨hshort, ⟨parts.map Prod.fst, by rwa [List.map_map]⟩, ?_, ?_⟩
    · intro entry hm
      obtain ⟨part, hpart, rfl⟩ := List.mem_map.mp hm
      exact (isField_iff.mp (hparts part hpart)).1
    · rw [encode, List.flatMap_map, List.flatMap_def]
      congr 1
      refine List.map_congr_left fun part hpart ↦ ?_
      exact (isField_iff.mp (hparts part hpart)).2
  · rintro ⟨hshort, values, hall, rfl⟩
    refine ⟨hshort, values.entries.map fun entry ↦ (entry, encodeEntry entry), ?_, ?_, ?_⟩
    · intro part hm
      obtain ⟨entry, hentry, rfl⟩ := List.mem_map.mp hm
      exact isField_iff.mpr ⟨hall entry hentry, rfl⟩
    · rw [List.map_map]
      exact values.nodup
    · rw [List.map_map, encode, List.flatMap_def]
      rfl

theorem accepts_iff : (∃ values, fields bytes schema = .ok values) ↔ Canonical schema bytes := by
  rw [canonical_iff, ← exists_and_left]
  exact exists_congr fun values ↦ fields_eq_ok

/-- `fields` takes in the canonical strings and no others, and is a bijection from them to the
lists of entries that fit a handshake; encoding the entries leads back. -/
theorem fields_bijection (schema : Schema) :
    (∀ bytes, (∃ values, fields bytes schema = .ok values) ↔ Canonical schema bytes) ∧
    ∃ e : {bytes // Canonical schema bytes} ≃ {values // Fits schema values},
      ∀ s, fields s.1 schema = .ok (e s).1 ∧ encode (e s).1.entries = s.1 := by
  refine ⟨fun bytes ↦ accepts_iff, ?_⟩
  choose read hread using fun s : {bytes // Canonical schema bytes} ↦ accepts_iff.mpr s.2
  have hencode : ∀ s, encode (read s).entries = s.1 := fun s ↦ (fields_eq_ok.mp (hread s)).2.2.symm
  have hfits : ∀ s, Fits schema (read s) := by
    intro s
    obtain ⟨hshort, hall, -⟩ := fields_eq_ok.mp (hread s)
    exact ⟨hall, (hencode s).symm ▸ hshort⟩
  have hfields : ∀ values : {values // Fits schema values},
      fields (encode values.1.entries) schema = .ok values.1 :=
    fun values ↦ fields_eq_ok.mpr ⟨values.2.short, values.2.representable, rfl⟩
  let e : {bytes // Canonical schema bytes} ≃ {values // Fits schema values} :=
    { toFun s := ⟨read s, hfits s⟩
      invFun values := ⟨encode values.1.entries, accepts_iff.mp ⟨_, hfields values⟩⟩
      left_inv s := Subtype.ext (hencode s)
      right_inv values := by
        have hcanonical := accepts_iff.mp ⟨_, hfields values⟩
        have h := hread ⟨encode values.1.entries, hcanonical⟩
        exact Subtype.ext (Except.ok.inj (h.symm.trans (hfields values))) }
  exact ⟨e, fun s ↦ ⟨hread s, hencode s⟩⟩

end Segments

end RustdeskConsole.WebClient
