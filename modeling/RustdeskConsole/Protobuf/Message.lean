import Mathlib.Data.List.Nodup
import RustdeskConsole.Protobuf.Wire

namespace RustdeskConsole.Protobuf

inductive FieldType
  | varint
  | fixed64
  | fixed32
  | string
  | bytes
  | message
  deriving DecidableEq

/-- The fields of a message type, and the oneof each belongs to, if any. -/
structure Schema where
  type : ℕ → Option FieldType
  oneof : ℕ → Option ℕ

/-- A message in memory. A field that was never set has its default. The
records of a submessage are kept together, however often it occurs. -/
structure Message where
  ints : ℕ → ℕ
  strings : ℕ → String
  bytes : ℕ → List UInt8
  messages : ℕ → Option (List Record)
  which : ℕ → Option ℕ

def utf8 (bytes : List UInt8) : Option String := String.fromUTF8? ⟨bytes.toArray⟩

namespace Message

def empty : Message := ⟨fun _ ↦ 0, fun _ ↦ "", fun _ ↦ [], fun _ ↦ none, fun _ ↦ none⟩

/-- Setting a member of a oneof forgets the other members. -/
def enter (schema : Schema) (m : Message) (number : ℕ) : Message :=
  match schema.oneof number with
  | none => m
  | some u =>
    if m.which u = some number then m
    else
      ⟨fun k ↦ if schema.oneof k = some u then 0 else m.ints k,
        fun k ↦ if schema.oneof k = some u then "" else m.strings k,
        fun k ↦ if schema.oneof k = some u then [] else m.bytes k,
        fun k ↦ if schema.oneof k = some u then none else m.messages k,
        Function.update m.which u (some number)⟩

/-- The last value of a field counts, and submessages are merged. -/
def set (m : Message) (number : ℕ) : FieldType → WireValue → Option Message
  | .varint, .varint v =>
    some ⟨Function.update m.ints number v, m.strings, m.bytes, m.messages, m.which⟩
  | .fixed64, .fixed64 b =>
    some ⟨m.ints, m.strings, Function.update m.bytes number b, m.messages, m.which⟩
  | .fixed32, .fixed32 b =>
    some ⟨m.ints, m.strings, Function.update m.bytes number b, m.messages, m.which⟩
  | .bytes, .len b =>
    some ⟨m.ints, m.strings, Function.update m.bytes number b, m.messages, m.which⟩
  | .string, .len b => (utf8 b).map fun s ↦
    ⟨m.ints, Function.update m.strings number s, m.bytes, m.messages, m.which⟩
  | .message, .len b => (records b).map fun rs ↦
    ⟨m.ints, m.strings, m.bytes,
      Function.update m.messages number (some ((m.messages number).getD [] ++ rs)), m.which⟩
  | _, _ => none

/-- Take in one record. Fields the schema does not know are passed over. -/
def put (schema : Schema) (m : Message) (record : Record) : Option Message :=
  match schema.type record.number with
  | none => some m
  | some type => (m.enter schema record.number).set record.number type record.value

def puts (schema : Schema) (m : Message) (rs : List Record) : Option Message :=
  rs.foldlM (put schema) m

end Message

/-- The records of a message, read by its schema. -/
def interpret (schema : Schema) (rs : List Record) : Option Message :=
  Message.empty.puts schema rs

def decode (schema : Schema) (bytes : List UInt8) : Option Message :=
  (records bytes).bind (interpret schema)

def FieldType.Fits : FieldType → WireValue → Prop
  | .varint, .varint _ => True
  | .bytes, .len _ => True
  | .string, .len b => ∃ s, utf8 b = some s
  | .message, .len b => ∃ rs, records b = some rs
  | _, _ => False

/-- The schema knows the field of the record, and its payload is of the type
this gives it. -/
def Record.Fits (schema : Schema) (record : Record) : Prop :=
  ∃ type, schema.type record.number = some type ∧ type.Fits record.value

namespace Message

variable {schema : Schema} {m m' : Message} {record : Record} {rs : List Record} {k : ℕ}

/-- The messages agree on a field. -/
structure Agree (k : ℕ) (m m' : Message) : Prop where
  ints : m'.ints k = m.ints k
  strings : m'.strings k = m.strings k
  messages : m'.messages k = m.messages k

theorem Agree.refl (m : Message) : Agree k m m := ⟨rfl, rfl, rfl⟩

theorem Agree.trans {m'' : Message} (h : Agree k m m') (h' : Agree k m' m'') : Agree k m m'' :=
  ⟨h'.ints.trans h.ints, h'.strings.trans h.strings, h'.messages.trans h.messages⟩

theorem enter_agree (n : ℕ) (hk : schema.oneof k = none) : Agree k m (m.enter schema n) := by
  unfold enter
  split
  · exact .refl m
  · split
    · exact .refl m
    · refine ⟨?_, ?_, ?_⟩
      · simp [hk]
      · simp [hk]
      · simp [hk]

theorem set_agree {n : ℕ} {type : FieldType} {value : WireValue} (h : m.set n type value = some m')
    (hn : n ≠ k) : Agree k m m' := by
  unfold set at h
  split at h
  · obtain rfl := Option.some.inj h
    exact ⟨Function.update_of_ne hn.symm _ _, rfl, rfl⟩
  · obtain rfl := Option.some.inj h
    exact ⟨rfl, rfl, rfl⟩
  · obtain rfl := Option.some.inj h
    exact ⟨rfl, rfl, rfl⟩
  · obtain rfl := Option.some.inj h
    exact ⟨rfl, rfl, rfl⟩
  · obtain ⟨s, _, rfl⟩ := Option.map_eq_some_iff.mp h
    exact ⟨rfl, Function.update_of_ne hn.symm _ _, rfl⟩
  · obtain ⟨rs, _, rfl⟩ := Option.map_eq_some_iff.mp h
    exact ⟨rfl, rfl, Function.update_of_ne hn.symm _ _⟩
  · cases h

theorem put_agree (h : m.put schema record = some m') (hn : record.number ≠ k)
    (hk : schema.oneof k = none) : Agree k m m' := by
  unfold put at h
  split at h
  · obtain rfl := Option.some.inj h
    exact .refl m
  · exact (enter_agree record.number hk).trans (set_agree h hn)

theorem puts_agree (h : m.puts schema rs = some m') (hn : ∀ r ∈ rs, r.number ≠ k)
    (hk : schema.oneof k = none) : Agree k m m' := by
  induction rs generalizing m with
  | nil =>
    obtain rfl := Option.some.inj h
    exact .refl m
  | cons r rs ih =>
    obtain ⟨m₁, h₁, h⟩ := Option.bind_eq_some_iff.mp h
    rw [List.forall_mem_cons] at hn
    exact (put_agree h₁ hn.1 hk).trans (ih h hn.2)

theorem put_int {v : ℕ} (ht : schema.type k = some .varint)
    (h : m.put schema ⟨k, .varint v⟩ = some m') : m'.ints k = v := by
  rw [put, ht] at h
  obtain rfl := Option.some.inj h
  exact Function.update_self _ _ _

theorem put_string {b : List UInt8} (ht : schema.type k = some .string)
    (h : m.put schema ⟨k, .len b⟩ = some m') : utf8 b = some (m'.strings k) := by
  rw [put, ht] at h
  obtain ⟨s, hs, rfl⟩ := Option.map_eq_some_iff.mp h
  rw [hs, Option.some.injEq]
  exact (Function.update_self k s (m.enter schema k).strings).symm

/-- A field that occurs once is read from its record. -/
theorem exists_put (ho : schema.oneof record.number = none) (h : m.puts schema rs = some m')
    (hd : (rs.map Record.number).Nodup) (hm : record ∈ rs) :
    ∃ before after : Message, before.put schema record = some after ∧ Agree record.number after m' := by
  induction rs generalizing m with
  | nil => cases hm
  | cons r rs ih =>
    obtain ⟨m₁, h₁, hrest⟩ := Option.bind_eq_some_iff.mp h
    rw [List.map_cons, List.nodup_cons] at hd
    rcases List.mem_cons.mp hm with rfl | hm
    · refine ⟨m, m₁, h₁, puts_agree hrest ?_ ho⟩
      intro r hr hn
      exact hd.1 (List.mem_map.mpr ⟨r, hr, hn⟩)
    · exact ih hrest hd.2 hm

theorem puts_int {v : ℕ} (ht : schema.type k = some .varint) (ho : schema.oneof k = none)
    (h : m.puts schema rs = some m') (hd : (rs.map Record.number).Nodup)
    (hm : ⟨k, .varint v⟩ ∈ rs) : m'.ints k = v := by
  obtain ⟨before, after, hput, ha⟩ := exists_put ho h hd hm
  rw [ha.ints]
  exact put_int ht hput

theorem puts_string {b : List UInt8} (ht : schema.type k = some .string)
    (ho : schema.oneof k = none) (h : m.puts schema rs = some m')
    (hd : (rs.map Record.number).Nodup) (hm : ⟨k, .len b⟩ ∈ rs) :
    utf8 b = some (m'.strings k) := by
  obtain ⟨before, after, hput, ha⟩ := exists_put ho h hd hm
  rw [ha.strings]
  exact put_string ht hput

theorem exists_set {type : FieldType} {value : WireValue} (hf : type.Fits value) (m : Message)
    (n : ℕ) : ∃ m', m.set n type value = some m' := by
  unfold FieldType.Fits at hf
  split at hf
  · exact ⟨_, rfl⟩
  · exact ⟨_, rfl⟩
  · obtain ⟨s, hs⟩ := hf
    exact ⟨_, Option.map_eq_some_iff.mpr ⟨s, hs, rfl⟩⟩
  · obtain ⟨rs, hrs⟩ := hf
    exact ⟨_, Option.map_eq_some_iff.mpr ⟨rs, hrs, rfl⟩⟩
  · cases hf

theorem exists_puts (hf : ∀ r ∈ rs, r.Fits schema) (m : Message) :
    ∃ m', m.puts schema rs = some m' := by
  induction rs generalizing m with
  | nil => exact ⟨m, rfl⟩
  | cons r rs ih =>
    rw [List.forall_mem_cons] at hf
    obtain ⟨⟨type, ht, hfit⟩, hf⟩ := hf
    obtain ⟨m₁, h₁⟩ := exists_set hfit (m.enter schema r.number) r.number
    obtain ⟨m', h⟩ := ih hf m₁
    refine ⟨m', Option.bind_eq_some_iff.mpr ⟨m₁, ?_, h⟩⟩
    rw [put, ht]
    exact h₁

end Message

/-- A message with a single record holds that member of the oneof. -/
theorem interpret_variant {schema : Schema} {n u : ℕ} {b : List UInt8} {rs : List Record}
    (ht : schema.type n = some .message) (ho : schema.oneof n = some u)
    (hr : records b = some rs) : ∃ m, interpret schema [⟨n, .len b⟩] = some m ∧
      m.which u = some n ∧ m.messages n = some rs := by
  have henter : Message.empty.enter schema n = ⟨fun _ ↦ 0, fun _ ↦ "", fun _ ↦ [], fun _ ↦ none,
      Function.update (fun _ ↦ none) u (some n)⟩ := by
    simp [Message.enter, Message.empty, ho]
  have hput : Message.empty.put schema ⟨n, .len b⟩ = some ⟨fun _ ↦ 0, fun _ ↦ "", fun _ ↦ [],
      Function.update (fun _ ↦ none) n (some rs), Function.update (fun _ ↦ none) u (some n)⟩ := by
    rw [Message.put, ht]
    change (Message.empty.enter schema n).set n .message (.len b) = _
    rw [henter, Message.set, hr]
    rfl
  refine ⟨_, Option.bind_eq_some_iff.mpr ⟨_, hput, rfl⟩, ?_, ?_⟩
  · exact Function.update_self u (some n) (fun _ ↦ none)
  · exact Function.update_self n (some rs) (fun _ ↦ none)

end RustdeskConsole.Protobuf
