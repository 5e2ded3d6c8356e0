import Mathlib.Data.Nat.Bitwise
import Mathlib.Tactic.Ring
import RustdeskConsole.Effects.Outcomes
import RustdeskConsole.WebClient.Handshake

namespace RustdeskConsole.WebClient

open Collections Effects.Guard
open Protobuf (utf8 Record Message FieldType)

section Varint

theorem low_bits (b : UInt8) : (b &&& 127).toNat = b.toNat % 128 := by
  rw [UInt8.toNat_and]
  exact Nat.and_two_pow_sub_one_eq_mod b.toNat 7

theorem high_bit (b : UInt8) : b &&& 128 = 0 ↔ b.toNat < 128 := by
  have hb := b.toNat_lt
  rw [← UInt8.toNat_inj, UInt8.toNat_and]
  change b.toNat &&& 2 ^ 7 = 0 ↔ _
  rw [Nat.and_two_pow, Nat.testBit_eq_decide_div_mod_eq]
  by_cases hd : b.toNat / 2 ^ 7 % 2 = 1
  · rw [decide_eq_true hd, Bool.toNat_true]
    omega
  · rw [decide_eq_false hd, Bool.toNat_false]
    omega

/-- What the strict loop accepts, the reference reads the same way. -/
theorem readVarintFrom_digits {n k i value v : ℕ} {bytes rest : List UInt8}
    (h : readVarintFrom n i value bytes = .ok (v, rest)) (hi : n + i = 5) (hk : n ≤ k) :
    ∃ digits, Protobuf.readDigits k bytes = some (digits, rest) ∧
      v = value + digits * 2 ^ (7 * i) ∧ digits < 2 ^ (32 - 7 * i) := by
  induction n generalizing k i value bytes with
  | zero => cases h
  | succ n ih =>
    obtain ⟨k, rfl⟩ : ∃ k', k = k' + 1 := ⟨k - 1, by omega⟩
    cases bytes with
    | nil => cases h
    | cons b bytes =>
      rw [readVarintFrom] at h
      split at h
      · cases h
      rename_i hlast
      split at h
      · rename_i hbit
        rw [high_bit] at hbit
        split at h
        · cases h
        obtain ⟨rfl, rfl⟩ := Prod.mk.inj (Except.ok.inj h)
        refine ⟨b.toNat, ?_, ?_, ?_⟩
        · rw [Protobuf.readDigits, if_pos hbit]
        · rw [low_bits, Nat.mod_eq_of_lt hbit]
        · by_cases hi4 : i = 4
          · subst hi4
            have hb : ¬b > 15 := by simpa using hlast
            have hb : b.toNat ≤ 15 := UInt8.not_lt.mp hb
            change b.toNat < 16
            omega
          · have hle : 2 ^ 7 ≤ 2 ^ (32 - 7 * i) := Nat.pow_le_pow_right (by omega) (by omega)
            omega
      · rename_i hbit
        rw [high_bit] at hbit
        obtain ⟨digits, hd, hv, hb⟩ := ih (k := k) h (by omega) (by omega)
        refine ⟨b.toNat % 128 + 128 * digits, ?_, ?_, ?_⟩
        · rw [Protobuf.readDigits, if_neg hbit, hd]
          rfl
        · rw [hv, low_bits]
          ring
        · have hn : n ≠ 0 := by
            rintro rfl
            cases h
          have hpow : 2 ^ (32 - 7 * i) = 128 * 2 ^ (32 - 7 * (i + 1)) := by
            rw [show 32 - 7 * i = 7 + (32 - 7 * (i + 1)) by omega, Nat.pow_add]
          omega

theorem readVarint_eq {v : ℕ} {bytes rest : List UInt8} (h : readVarint bytes = .ok (v, rest)) :
    Protobuf.readVarint bytes = some (v, rest) ∧ v < 2 ^ 32 := by
  obtain ⟨digits, hd, hv, hb⟩ := readVarintFrom_digits (k := 10) h rfl (by omega)
  rw [Nat.mul_zero, Nat.pow_zero, Nat.mul_one, Nat.zero_add] at hv
  subst hv
  refine ⟨?_, hb⟩
  rw [Protobuf.readVarint, hd]
  exact congrArg (fun v ↦ some (v, rest)) (Nat.mod_eq_of_lt (by omega))

end Varint

section Fields

theorem check_eq_ok {condition : Bool} {u : Unit} : check condition = .ok u ↔ condition = true := by
  cases condition with
  | false => exact ⟨nofun, nofun⟩
  | true => exact ⟨fun _ ↦ rfl, fun _ ↦ rfl⟩

/-- An entry as the reference sees it. -/
def toRecord : ℕ × WireValue → Record
  | (number, .number value) => ⟨number, .varint value⟩
  | (number, .buffer bytes) => ⟨number, .len bytes⟩

theorem toRecord_number (entry : ℕ × WireValue) : (toRecord entry).number = entry.1 := by
  obtain ⟨number, value⟩ := entry
  cases value with
  | number => rfl
  | buffer => rfl

def Wire.Carries : Wire → WireValue → Prop
  | .varint, .number _ => True
  | .length, .buffer _ => True
  | _, _ => False

/-- An entry of a field of the schema, with the payload this asks for. -/
def Conforms (schema : Schema) (entry : ℕ × WireValue) : Prop :=
  ∃ definition, schema.field entry.1 = some definition ∧ definition.wire.Carries entry.2

variable {schema : Schema} {values values' : OrderedMap ℕ WireValue} {bytes rest : List UInt8}
  {entry : ℕ × WireValue}

theorem readField_eq (h0 : schema.field 0 = none)
    (h : readField schema values bytes = .ok (entry, rest)) :
    Protobuf.readRecord bytes = some (toRecord entry, rest) ∧ values.get? entry.1 = none ∧
      Conforms schema entry := by
  obtain ⟨⟨tag, bytes₁⟩, htag, h⟩ := bind_eq_ok.mp h
  obtain ⟨htag, hlt⟩ := readVarint_eq htag
  dsimp only at h
  split at h
  · cases h
  rename_i definition hdef
  have hpos : 0 < tag / 8 := by
    refine Nat.pos_of_ne_zero fun hz ↦ ?_
    rw [hz, h0] at hdef
    cases hdef
  obtain ⟨_, hc, h⟩ := bind_eq_ok.mp h
  obtain ⟨hwire, hnone⟩ := Bool.and_eq_true_iff.mp (check_eq_ok.mp hc)
  obtain ⟨⟨value, bytes₂⟩, hvalue, h⟩ := bind_eq_ok.mp h
  have hvalue := (readVarint_eq hvalue).1
  have hrecord : ∀ {v : Protobuf.WireValue}, Protobuf.readValue (tag % 8) bytes₁ = some (v, rest) →
      Protobuf.readRecord bytes = some (⟨tag / 8, v⟩, rest) := by
    intro v hv
    have hguard : 0 < tag / 8 ∧ tag / 8 < 2 ^ 29 := ⟨hpos, by omega⟩
    rw [Protobuf.readRecord, htag]
    simp only [Option.bind_eq_bind, Option.bind_some, guard, if_pos hguard, hv]
    rfl
  rw [Option.isNone_iff_eq_none] at hnone
  have hwire := of_decide_eq_true hwire
  dsimp only at h
  split at h
  · rename_i hw
    obtain ⟨_, -, h⟩ := bind_eq_ok.mp h
    obtain ⟨rfl, rfl⟩ := Prod.mk.inj (pure_eq_ok.mp h)
    refine ⟨hrecord ?_, hnone, definition, hdef, ?_⟩
    · rw [hwire, hw]
      exact Option.map_eq_some_iff.mpr ⟨_, hvalue, rfl⟩
    · rw [hw]
      trivial
  · rename_i hw
    obtain ⟨_, hlen, h⟩ := bind_eq_ok.mp h
    obtain ⟨rfl, rfl⟩ := Prod.mk.inj (pure_eq_ok.mp h)
    have hlen := of_decide_eq_true (Bool.and_eq_true_iff.mp (check_eq_ok.mp hlen)).2
    refine ⟨hrecord ?_, hnone, definition, hdef, ?_⟩
    · rw [hwire, hw]
      refine Option.bind_eq_some_iff.mpr ⟨_, hvalue, Option.bind_eq_some_iff.mpr ⟨_, if_pos hlen, rfl⟩⟩
    · rw [hw]
      trivial

theorem readFields_eq (h0 : schema.field 0 = none) {n : ℕ}
    (h : readFields schema n values bytes = .ok values') :
    ∃ entries, Protobuf.records bytes = some (entries.map toRecord) ∧
      values'.entries = values.entries ++ entries ∧ ∀ entry ∈ entries, Conforms schema entry := by
  induction n generalizing values bytes with
  | zero =>
    cases bytes with
    | nil =>
      obtain rfl := Except.ok.inj h
      exact ⟨[], rfl, (List.append_nil _).symm, by simp⟩
    | cons b bytes => cases h
  | succ n ih =>
    cases bytes with
    | nil =>
      obtain rfl := Except.ok.inj h
      exact ⟨[], rfl, (List.append_nil _).symm, by simp⟩
    | cons b bytes =>
      obtain ⟨⟨entry, rest⟩, hfield, h⟩ := bind_eq_ok.mp h
      obtain ⟨hrecord, hnone, hconforms⟩ := readField_eq h0 hfield
      obtain ⟨entries, hrecords, hentries, hall⟩ := ih h
      refine ⟨entry :: entries, ?_, ?_, ?_⟩
      · rw [Protobuf.records_of_readRecord hrecord, hrecords]
        rfl
      · rw [hentries, OrderedMap.entries_set hnone, List.append_assoc]
        rfl
      · rw [List.forall_mem_cons]
        exact ⟨hconforms, hall⟩

/-- Every round takes bytes, so the loop of `fields` ends by itself. -/
theorem readFields_fuel (h0 : schema.field 0 = none) {n m : ℕ} (hn : bytes.length ≤ n)
    (hm : bytes.length ≤ m) : readFields schema n values bytes = readFields schema m values bytes := by
  induction n generalizing m values bytes with
  | zero =>
    obtain rfl := List.eq_nil_of_length_eq_zero (Nat.le_zero.mp hn)
    cases m with
    | zero => rfl
    | succ m => rfl
  | succ n ih =>
    cases bytes with
    | nil =>
      cases m with
      | zero => rfl
      | succ m => rfl
    | cons b bytes =>
      obtain ⟨m, rfl⟩ : ∃ m', m = m' + 1 := ⟨m - 1, by rw [List.length_cons] at hm; omega⟩
      rw [readFields, readFields]
      rcases hfield : readField schema values (b :: bytes) with e | ⟨entry, rest⟩
      · rfl
      · have hl := Protobuf.readRecord_length (readField_eq h0 hfield).1
        rw [List.length_cons] at hn hm hl
        exact ih (by omega) (by omega)

/-- What the strict reader accepts, the reference splits into the same fields. -/
theorem fields_eq (h0 : schema.field 0 = none) (h : fields bytes schema = .ok values) :
    Protobuf.records bytes = some (values.entries.map toRecord) ∧
      ∀ entry ∈ values.entries, Conforms schema entry := by
  unfold fields at h
  split at h
  · cases h
  obtain ⟨entries, hrecords, hentries, hall⟩ := readFields_eq h0 h
  have he : values.entries = entries := hentries
  rw [he]
  exact ⟨hrecords, hall⟩

end Fields

section Reference

/-- The message types of the official protocol file. -/
structure Protocol where
  rendezvousMessage : Protobuf.Schema
  punchHoleRequest : Protobuf.Schema
  requestRelay : Protobuf.Schema
  relayResponse : Protobuf.Schema

inductive RendezvousMessage
  | punchHoleRequest (m : Message)
  | requestRelay (m : Message)
  | relayResponse (m : Message)
  | other

/-- How the other end reads a message. -/
def Protocol.decode (p : Protocol) (bytes : List UInt8) : Option RendezvousMessage := do
  let m ← Protobuf.decode p.rendezvousMessage bytes
  match m.which 0 with
  | some 8 =>
    (Protobuf.interpret p.punchHoleRequest ((m.messages 8).getD [])).map .punchHoleRequest
  | some 18 => (Protobuf.interpret p.requestRelay ((m.messages 18).getD [])).map .requestRelay
  | some 19 => (Protobuf.interpret p.relayResponse ((m.messages 19).getD [])).map .relayResponse
  | _ => some .other

/-- A schema gives fields these types, and the checked ones stand on their own. -/
structure Declares (schema : Protobuf.Schema) (types : List (ℕ × FieldType)) (checked : List ℕ) :
    Prop where
  type : ∀ f ∈ types, schema.type f.1 = some f.2
  single : ∀ n ∈ checked, schema.oneof n = none

/-- What the validators rely on of the official protocol file. -/
structure Protocol.Official (p : Protocol) : Prop where
  variant : ∀ n ∈ [8, 18, 19],
    p.rendezvousMessage.type n = some .message ∧ p.rendezvousMessage.oneof n = some 0
  punchHoleRequest : Declares p.punchHoleRequest
    [(1, .string), (2, .varint), (3, .string), (4, .varint), (6, .string), (8, .varint)] [1, 3, 4]
  requestRelay : Declares p.requestRelay
    [(1, .string), (2, .string), (6, .string), (7, .varint)] [1, 2, 6, 7]
  relayResponse : Declares p.relayResponse
    [(1, .bytes), (2, .string), (3, .string), (4, .string), (5, .bytes), (6, .string),
      (7, .string), (9, .varint), (10, .bytes), (11, .varint)] [2, 6]

variable {values : OrderedMap ℕ WireValue} {bytes body : List UInt8} {schema : Schema}
  {official : Protobuf.Schema} {k : ℕ}

theorem field_mem {definition : Field} (h : schema.field k = some definition) :
    (k, definition) ∈ schema := by
  obtain ⟨entry, hf, rfl⟩ := Option.map_eq_some_iff.mp h
  have hk : entry.1 = k := by simpa using List.find?_some hf
  rw [← hk]
  exact List.mem_of_find?_eq_some hf

theorem string_eq_ok {s : String} (h : string values k = .ok s) :
    (values.get? k = none ∧ s = "") ∨
      ∃ b, values.get? k = some (.buffer b) ∧ utf8 b = some s := by
  unfold string at h
  split at h
  · rename_i hget
    exact .inl ⟨hget, (Except.ok.inj h).symm⟩
  · cases h
  · rename_i b hget
    cases hu : utf8 b with
    | none =>
      rw [hu] at h
      cases h
    | some s' =>
      rw [hu] at h
      exact .inr ⟨b, hget, congrArg some (Except.ok.inj h) ▸ hu⟩

theorem number_eq_ok {v : ℕ} (h : number values k = .ok v) :
    (values.get? k = none ∧ v = 0) ∨ values.get? k = some (.number v) := by
  unfold number at h
  split at h
  · rename_i hget
    exact .inl ⟨hget, (Except.ok.inj h).symm⟩
  · rename_i v' hget
    exact .inr (Except.ok.inj h ▸ hget)
  · cases h

theorem number_not_mem (h : values.get? k = none) :
    ∀ r ∈ values.entries.map toRecord, r.number ≠ k := by
  intro r hr hk
  obtain ⟨entry, hm, rfl⟩ := List.mem_map.mp hr
  rw [toRecord_number] at hk
  rw [OrderedMap.get?_eq_some.mpr (show (k, entry.2) ∈ values.entries from hk ▸ hm)] at h
  cases h

theorem numbers_nodup : ((values.entries.map toRecord).map Record.number).Nodup := by
  rw [List.map_map, show Record.number ∘ toRecord = Prod.fst from funext toRecord_number]
  exact values.nodup

/-- The reference reads a string as the validator does. -/
theorem strings_eq {m : Message} {s : String}
    (hm : Protobuf.interpret official (values.entries.map toRecord) = some m)
    (ht : official.type k = some .string) (ho : official.oneof k = none)
    (h : string values k = .ok s) : m.strings k = s := by
  rcases string_eq_ok h with ⟨hget, rfl⟩ | ⟨b, hget, hu⟩
  · exact (Message.puts_agree hm (number_not_mem hget) ho).strings
  · have hr := List.mem_map_of_mem (f := toRecord) (OrderedMap.get?_eq_some.mp hget)
    have hs := Message.puts_string ht ho hm numbers_nodup hr
    exact Option.some.inj (hs.symm.trans hu)

theorem ints_eq {m : Message} {v : ℕ}
    (hm : Protobuf.interpret official (values.entries.map toRecord) = some m)
    (ht : official.type k = some .varint) (ho : official.oneof k = none)
    (h : number values k = .ok v) : m.ints k = v := by
  rcases number_eq_ok h with ⟨hget, rfl⟩ | hget
  · exact (Message.puts_agree hm (number_not_mem hget) ho).ints
  · have hr := List.mem_map_of_mem (f := toRecord) (OrderedMap.get?_eq_some.mp hget)
    exact Message.puts_int ht ho hm numbers_nodup hr

/-- The official type of a field suits its wire type, and strings were decoded. -/
def Suits (values : OrderedMap ℕ WireValue) (entry : ℕ × Field) (type : FieldType) : Prop :=
  match entry.2.wire, type with
  | .varint, .varint => True
  | .length, .bytes => True
  | .length, .string => ∃ s, string values entry.1 = .ok s
  | _, _ => False

theorem fits_of_suits {definition : Field} {value : WireValue} {type : FieldType}
    (hget : values.get? k = some value) (hs : Suits values (k, definition) type)
    (hc : definition.wire.Carries value) : type.Fits (toRecord (k, value)).value := by
  unfold Suits at hs
  dsimp only at hs
  cases hw : definition.wire with
  | varint =>
    rw [hw] at hs hc
    cases value with
    | buffer b => cases hc
    | number v =>
      cases type with
      | varint => trivial
      | _ => cases hs
  | length =>
    rw [hw] at hs hc
    cases value with
    | number v => cases hc
    | buffer b =>
      cases type with
      | bytes => trivial
      | string =>
        obtain ⟨s, hs⟩ := hs
        rcases string_eq_ok hs with ⟨hn, -⟩ | ⟨b', hb, hu⟩
        · rw [hn] at hget
          cases hget
        · rw [hb, Option.some.injEq, WireValue.buffer.injEq] at hget
          exact ⟨s, hget ▸ hu⟩
      | _ => cases hs

theorem exists_interpret (h0 : schema.field 0 = none) (h : fields body schema = .ok values)
    (hs : ∀ f ∈ schema, ∃ type, official.type f.1 = some type ∧ Suits values f type) :
    ∃ m, Protobuf.interpret official (values.entries.map toRecord) = some m := by
  refine Message.exists_puts (fun r hr ↦ ?_) _
  obtain ⟨entry, hm, rfl⟩ := List.mem_map.mp hr
  obtain ⟨definition, hdef, hc⟩ := (fields_eq h0 h).2 entry hm
  obtain ⟨type, ht, hsuits⟩ := hs _ (field_mem hdef)
  rw [← toRecord_number] at ht
  exact ⟨type, ht, fits_of_suits (OrderedMap.get?_eq_some.mpr hm) hsuits hc⟩

theorem envelope_eq {allowed : List ℕ} {field : ℕ} (h0 : 0 ∉ allowed)
    (h : envelope bytes allowed = .ok (field, body)) :
    field ∈ allowed ∧ Protobuf.records bytes = some [⟨field, .len body⟩] := by
  obtain ⟨values, hvalues, h⟩ := bind_eq_ok.mp h
  have hno : Schema.field (allowed.map (·, ⟨.length, none⟩)) 0 = none := by
    rw [← Option.not_isSome_iff_eq_none]
    intro hsome
    obtain ⟨definition, hdef⟩ := Option.isSome_iff_exists.mp hsome
    obtain ⟨n, hn, he⟩ := List.mem_map.mp (field_mem hdef)
    exact h0 ((Prod.mk.inj he).1 ▸ hn)
  obtain ⟨hrecords, hall⟩ := fields_eq hno hvalues
  split at h
  · rename_i field' body' hentries
    obtain ⟨rfl, rfl⟩ := Prod.mk.inj (Except.ok.inj h)
    rw [hentries] at hrecords hall
    obtain ⟨definition, hdef, -⟩ := hall _ (List.mem_singleton_self _)
    obtain ⟨n, hn, he⟩ := List.mem_map.mp (field_mem hdef)
    have hfield : n = field' := (Prod.mk.inj he).1
    exact ⟨hfield ▸ hn, hrecords⟩
  · cases h

theorem decode_variant {n : ℕ} {rs : List Record} (ht : official.type n = some .message)
    (ho : official.oneof n = some 0) (hb : Protobuf.records bytes = some [⟨n, .len body⟩])
    (hr : Protobuf.records body = some rs) :
    ∃ m, Protobuf.decode official bytes = some m ∧ m.which 0 = some n ∧ m.messages n = some rs := by
  rw [Protobuf.decode, hb]
  exact Protobuf.interpret_variant ht ho hr

variable {p : Protocol} {binding : ProtocolBinding}

theorem validatePunchHoleRequest_eq_ok (h : validatePunchHoleRequest bytes binding = .ok ()) :
    ∃ body values, Protobuf.records bytes = some [⟨8, .len body⟩] ∧
      fields body punchHoleRequestFields = .ok values ∧ string values 1 = .ok binding.targetId ∧
      string values 3 = .ok binding.serverPublicKey ∧
      number values 4 = .ok binding.kind.connType ∧ ∃ version, string values 6 = .ok version := by
  simp only [validatePunchHoleRequest, bind_eq_ok, check_eq_ok, exists_unit, pure_eq_ok,
    decide_eq_true_eq, Prod.exists] at h
  obtain ⟨field, body, henv, values, hvalues, s1, h1, hid, s3, h3, hkey, n4, h4, hconn, -, -, -,
    version, h6, -⟩ := h
  obtain ⟨hfield, hrecords⟩ := envelope_eq (by decide) henv
  obtain rfl := List.mem_singleton.mp hfield
  exact ⟨body, values, hrecords, hvalues, hid ▸ h1, hkey ▸ h3, hconn ▸ h4, version, h6⟩

theorem punchHoleRequest_read (hp : p.Official)
    (h : validatePunchHoleRequest bytes binding = .ok ()) :
    ∃ m, p.decode bytes = some (.punchHoleRequest m) ∧ m.strings 1 = binding.targetId ∧
      m.strings 3 = binding.serverPublicKey ∧ m.ints 4 = binding.kind.connType := by
  obtain ⟨body, values, hrecords, hvalues, h1, h3, h4, version, h6⟩ :=
    validatePunchHoleRequest_eq_ok h
  obtain ⟨htype, hsingle⟩ := hp.punchHoleRequest
  simp only [List.forall_mem_cons, List.not_mem_nil, false_imp_iff, implies_true, and_true]
    at htype hsingle
  obtain ⟨t1, t2, t3, t4, t6, t8⟩ := htype
  obtain ⟨o1, o3, o4⟩ := hsingle
  have hs : ∀ f ∈ punchHoleRequestFields, ∃ type, p.punchHoleRequest.type f.1 = some type ∧
      Suits values f type := by
    simp only [punchHoleRequestFields, List.forall_mem_cons, List.not_mem_nil, false_imp_iff,
      implies_true, and_true]
    exact ⟨⟨_, t1, _, h1⟩, ⟨_, t2, trivial⟩, ⟨_, t3, _, h3⟩, ⟨_, t4, trivial⟩, ⟨_, t6, _, h6⟩,
      ⟨_, t8, trivial⟩⟩
  obtain ⟨m, hm⟩ := exists_interpret (by decide) hvalues hs
  obtain ⟨ht, ho⟩ := hp.variant 8 (by decide)
  obtain ⟨m₀, hdecode, hwhich, hbody⟩ :=
    decode_variant ht ho hrecords (fields_eq (by decide) hvalues).1
  refine ⟨m, ?_, strings_eq hm t1 o1 h1, strings_eq hm t3 o3 h3, ints_eq hm t4 o4 h4⟩
  simp [Protocol.decode, hdecode, hwhich, hbody, hm]

theorem validateRequestRelay_eq_ok (h : validateRequestRelay bytes binding = .ok ()) :
    ∃ body values uuid, Protobuf.records bytes = some [⟨18, .len body⟩] ∧
      fields body requestRelayFields = .ok values ∧ binding.relayUuid = some uuid ∧
      string values 1 = .ok binding.targetId ∧ string values 2 = .ok uuid ∧
      string values 6 = .ok binding.serverPublicKey ∧
      number values 7 = .ok binding.kind.connType := by
  simp only [validateRequestRelay, bind_eq_ok, check_eq_ok, exists_unit, decide_eq_true_eq,
    Prod.exists] at h
  obtain ⟨field, body, henv, values, hvalues, -, s1, h1, hid, s2, h2, huuid, s6, h6, hkey, n7, h7,
    hconn⟩ := h
  obtain ⟨hfield, hrecords⟩ := envelope_eq (by decide) henv
  obtain rfl := List.mem_singleton.mp hfield
  exact ⟨body, values, s2, hrecords, hvalues, huuid.symm, hid ▸ h1, h2, hkey ▸ h6, hconn ▸ h7⟩

theorem requestRelay_read (hp : p.Official) (h : validateRequestRelay bytes binding = .ok ()) :
    ∃ m, p.decode bytes = some (.requestRelay m) ∧ m.strings 1 = binding.targetId ∧
      m.strings 6 = binding.serverPublicKey ∧ m.ints 7 = binding.kind.connType ∧
      some (m.strings 2) = binding.relayUuid := by
  obtain ⟨body, values, uuid, hrecords, hvalues, huuid, h1, h2, h6, h7⟩ :=
    validateRequestRelay_eq_ok h
  obtain ⟨htype, hsingle⟩ := hp.requestRelay
  simp only [List.forall_mem_cons, List.not_mem_nil, false_imp_iff, implies_true, and_true]
    at htype hsingle
  obtain ⟨t1, t2, t6, t7⟩ := htype
  obtain ⟨o1, o2, o6, o7⟩ := hsingle
  have hs : ∀ f ∈ requestRelayFields, ∃ type, p.requestRelay.type f.1 = some type ∧
      Suits values f type := by
    simp only [requestRelayFields, List.forall_mem_cons, List.not_mem_nil, false_imp_iff,
      implies_true, and_true]
    exact ⟨⟨_, t1, _, h1⟩, ⟨_, t2, _, h2⟩, ⟨_, t6, _, h6⟩, ⟨_, t7, trivial⟩⟩
  obtain ⟨m, hm⟩ := exists_interpret (by decide) hvalues hs
  obtain ⟨ht, ho⟩ := hp.variant 18 (by decide)
  obtain ⟨m₀, hdecode, hwhich, hbody⟩ :=
    decode_variant ht ho hrecords (fields_eq (by decide) hvalues).1
  refine ⟨m, ?_, strings_eq hm t1 o1 h1, strings_eq hm t6 o6 h6, ints_eq hm t7 o7 h7, ?_⟩
  · simp [Protocol.decode, hdecode, hwhich, hbody, hm]
  · rw [huuid, strings_eq hm t2 o2 h2]

theorem readRendezvousReply_eq_relay {uuid : String}
    (h : readRendezvousReply bytes = .ok (.relay uuid)) :
    ∃ body values, Protobuf.records bytes = some [⟨19, .len body⟩] ∧
      fields body relayResponseFields = .ok values ∧ string values 2 = .ok uuid ∧
      string values 6 = .ok "" ∧ ∀ k ∈ [3, 4, 7], ∃ s, string values k = .ok s := by
  simp only [readRendezvousReply, bind_eq_ok, Prod.exists] at h
  obtain ⟨field, body, henv, h⟩ := h
  obtain ⟨hfield, hrecords⟩ := envelope_eq (by decide) henv
  split at h
  · simp only [bind_eq_ok, pure_eq_ok, reduceCtorEq, and_false, exists_false] at h
  · rename_i hne
    obtain rfl : field = 19 := by simpa [hne] using hfield
    simp only [bind_eq_ok, check_eq_ok, exists_unit] at h
    obtain ⟨values, hvalues, -, s3, h3, s4, h4, s6, h6, s7, h7, s6', h6', h⟩ := h
    split at h
    · cases pure_eq_ok.mp h
    · rename_i hempty
      simp only [bind_eq_ok, check_eq_ok, exists_unit, pure_eq_ok, RendezvousReply.relay.injEq] at h
      obtain ⟨s2, h2, -, rfl⟩ := h
      rw [ne_eq, not_not] at hempty
      refine ⟨body, values, hrecords, hvalues, h2, hempty ▸ h6', ?_⟩
      simp only [List.forall_mem_cons, List.not_mem_nil, false_imp_iff, implies_true, and_true]
      exact ⟨⟨s3, h3⟩, ⟨s4, h4⟩, s7, h7⟩

theorem relayResponse_read {uuid : String} (hp : p.Official)
    (h : readRendezvousReply bytes = .ok (.relay uuid)) :
    ∃ m, p.decode bytes = some (.relayResponse m) ∧ m.strings 2 = uuid ∧ m.strings 6 = "" := by
  obtain ⟨body, values, hrecords, hvalues, h2, h6, hrest⟩ := readRendezvousReply_eq_relay h
  obtain ⟨htype, hsingle⟩ := hp.relayResponse
  simp only [List.forall_mem_cons, List.not_mem_nil, false_imp_iff, implies_true, and_true]
    at htype hsingle hrest
  obtain ⟨t1, t2, t3, t4, t5, t6, t7, t9, t10, t11⟩ := htype
  obtain ⟨h3, h4, h7⟩ := hrest
  have hs : ∀ f ∈ relayResponseFields, ∃ type, p.relayResponse.type f.1 = some type ∧
      Suits values f type := by
    simp only [relayResponseFields, List.forall_mem_cons, List.not_mem_nil, false_imp_iff,
      implies_true, and_true]
    exact ⟨⟨_, t1, trivial⟩, ⟨_, t2, _, h2⟩, ⟨_, t3, h3⟩, ⟨_, t4, h4⟩, ⟨_, t5, trivial⟩,
      ⟨_, t6, _, h6⟩, ⟨_, t7, h7⟩, ⟨_, t9, trivial⟩, ⟨_, t10, trivial⟩, ⟨_, t11, trivial⟩⟩
  obtain ⟨m, hm⟩ := exists_interpret (by decide) hvalues hs
  obtain ⟨ht, ho⟩ := hp.variant 19 (by decide)
  obtain ⟨m₀, hdecode, hwhich, hbody⟩ :=
    decode_variant ht ho hrecords (fields_eq (by decide) hvalues).1
  refine ⟨m, ?_, strings_eq hm t2 hsingle.1 h2, strings_eq hm t6 hsingle.2 h6⟩
  simp [Protocol.decode, hdecode, hwhich, hbody, hm]

theorem connType_injective : Function.Injective Kind.connType := by
  intro k k' h
  cases k with
  | desktop =>
    cases k' with
    | desktop => rfl
    | file => cases h
  | file =>
    cases k' with
    | desktop => cases h
    | file => rfl

/-- What the gateway lets through is bound: the other end reads from the very
bytes the target, the key, the connection type and the relay that were checked. -/
theorem handshake_bound (hp : p.Official) (bytes : List UInt8) :
    (∀ binding, validatePunchHoleRequest bytes binding = .ok () →
      ∃ m, p.decode bytes = some (.punchHoleRequest m) ∧ m.strings 1 = binding.targetId ∧
        m.strings 3 = binding.serverPublicKey ∧ m.ints 4 = binding.kind.connType) ∧
    (∀ binding, validateRequestRelay bytes binding = .ok () →
      ∃ m, p.decode bytes = some (.requestRelay m) ∧ m.strings 1 = binding.targetId ∧
        m.strings 6 = binding.serverPublicKey ∧ m.ints 7 = binding.kind.connType ∧
        some (m.strings 2) = binding.relayUuid) ∧
    (∀ binding binding', validatePunchHoleRequest bytes binding = .ok () →
      validatePunchHoleRequest bytes binding' = .ok () → binding.targetId = binding'.targetId ∧
        binding.serverPublicKey = binding'.serverPublicKey ∧ binding.kind = binding'.kind) ∧
    (∀ binding binding', validateRequestRelay bytes binding = .ok () →
      validateRequestRelay bytes binding' = .ok () → binding.targetId = binding'.targetId ∧
        binding.serverPublicKey = binding'.serverPublicKey ∧ binding.kind = binding'.kind ∧
        binding.relayUuid = binding'.relayUuid) ∧
    ∀ uuid, readRendezvousReply bytes = .ok (.relay uuid) →
      ∃ m, p.decode bytes = some (.relayResponse m) ∧ m.strings 2 = uuid ∧ m.strings 6 = "" := by
  refine ⟨fun _ h ↦ punchHoleRequest_read hp h, fun _ h ↦ requestRelay_read hp h, ?_, ?_,
    fun _ h ↦ relayResponse_read hp h⟩
  · intro binding binding' h h'
    obtain ⟨m, hm, hid, hkey, hconn⟩ := punchHoleRequest_read hp h
    obtain ⟨m', hm', hid', hkey', hconn'⟩ := punchHoleRequest_read hp h'
    obtain rfl : m = m' := by simpa [hm] using hm'
    exact ⟨hid.symm.trans hid', hkey.symm.trans hkey',
      connType_injective (hconn.symm.trans hconn')⟩
  · intro binding binding' h h'
    obtain ⟨m, hm, hid, hkey, hconn, huuid⟩ := requestRelay_read hp h
    obtain ⟨m', hm', hid', hkey', hconn', huuid'⟩ := requestRelay_read hp h'
    obtain rfl : m = m' := by simpa [hm] using hm'
    exact ⟨hid.symm.trans hid', hkey.symm.trans hkey',
      connType_injective (hconn.symm.trans hconn'), huuid.symm.trans huuid'⟩

def typesOf (types : List (ℕ × FieldType)) (n : ℕ) : Option FieldType :=
  (types.find? (·.1 = n)).map Prod.snd

/-- The messages with the fields the validators know. -/
def sampleProtocol : Protocol where
  rendezvousMessage :=
    ⟨typesOf [(8, .message), (11, .message), (18, .message), (19, .message)], fun _ ↦ some 0⟩
  punchHoleRequest := ⟨typesOf [(1, .string), (2, .varint), (3, .string), (4, .varint),
    (6, .string), (8, .varint)], fun _ ↦ none⟩
  requestRelay :=
    ⟨typesOf [(1, .string), (2, .string), (6, .string), (7, .varint)], fun _ ↦ none⟩
  relayResponse := ⟨typesOf [(1, .bytes), (2, .string), (3, .string), (4, .string), (5, .bytes),
    (6, .string), (7, .string), (9, .varint), (10, .bytes), (11, .varint)],
    fun n ↦ if n = 4 ∨ n = 5 then some 0 else none⟩

theorem sampleProtocol_official : sampleProtocol.Official where
  variant := by decide
  punchHoleRequest := ⟨by decide, by decide⟩
  requestRelay := ⟨by decide, by decide⟩
  relayResponse := ⟨by decide, by decide⟩

/-- The request for a file session with device `AB` under key `K1`. -/
def samplePunchHoleRequest : List UInt8 :=
  [0x42, 12, 0x0a, 2, 0x41, 0x42, 0x1a, 2, 0x4b, 0x31, 0x20, 1, 0x40, 1]

theorem samplePunchHoleRequest_bound : ∃ m,
    sampleProtocol.decode samplePunchHoleRequest = some (.punchHoleRequest m) ∧
      m.strings 1 = "AB" ∧ m.strings 3 = "K1" ∧ m.ints 4 = 1 :=
  (handshake_bound sampleProtocol_official samplePunchHoleRequest).1 ⟨"AB", .file, "K1", none⟩
    (by decide +kernel)

end Reference

end RustdeskConsole.WebClient
