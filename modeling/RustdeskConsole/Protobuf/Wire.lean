import Mathlib.Algebra.Ring.Nat
import Mathlib.Data.List.Basic

namespace RustdeskConsole.Protobuf

section Spelling

/-- Groups of seven bits, the lowest first. All bytes but the last have the high bit. -/
inductive Spells : ℕ → List UInt8 → Prop
  | last {b : UInt8} (hb : b.toNat < 128) : Spells b.toNat [b]
  | more {b : UInt8} {n : ℕ} {bytes : List UInt8} (hb : 128 ≤ b.toNat) (h : Spells n bytes) :
    Spells (b.toNat % 128 + 128 * n) (b :: bytes)

/-- A spelling that no other spelling of the number undercuts. -/
structure Minimal (n : ℕ) (bytes : List UInt8) : Prop where
  spells : Spells n bytes
  least : ∀ other, Spells n other → bytes.length ≤ other.length

def varint (n : ℕ) : List UInt8 :=
  if n < 128 then [UInt8.ofNat n] else UInt8.ofNat (n % 128 + 128) :: varint (n / 128)
termination_by n
decreasing_by omega

variable {n m : ℕ} {b : UInt8} {bytes other : List UInt8}

theorem varint_of_lt (h : n < 128) : varint n = [UInt8.ofNat n] := by
  rw [varint, if_pos h]

theorem varint_of_ge (h : 128 ≤ n) :
    varint n = UInt8.ofNat (n % 128 + 128) :: varint (n / 128) := by
  rw [varint, if_neg (Nat.not_lt.mpr h)]

theorem toNat_last (h : n < 128) : (UInt8.ofNat n).toNat = n := by
  rw [UInt8.toNat_ofNat']
  omega

theorem toNat_more : (UInt8.ofNat (n % 128 + 128)).toNat = n % 128 + 128 := by
  rw [UInt8.toNat_ofNat']
  omega

theorem varint_last (h : b.toNat < 128) : varint b.toNat = [b] := by
  rw [varint_of_lt h, UInt8.ofNat_toNat]

/-- A byte with the high bit goes before the digits of a number that is not zero. -/
theorem varint_more (hb : 128 ≤ b.toNat) (hn : n ≠ 0) :
    varint (b.toNat % 128 + 128 * n) = b :: varint n := by
  have hlt := b.toNat_lt
  have hhigh : (b.toNat % 128 + 128 * n) / 128 = n := by omega
  have hlow : (b.toNat % 128 + 128 * n) % 128 + 128 = b.toNat := by omega
  rw [varint_of_ge (by omega), hhigh, hlow, UInt8.ofNat_toNat]

theorem varint_ne_nil (n : ℕ) : varint n ≠ [] := by
  rw [varint]
  split
  · exact List.cons_ne_nil _ _
  · exact List.cons_ne_nil _ _

theorem length_varint_pos (n : ℕ) : 0 < (varint n).length :=
  List.length_pos_iff.mpr (varint_ne_nil n)

theorem spells_varint (n : ℕ) : Spells n (varint n) := by
  induction n using Nat.strongRecOn with
  | ind n ih =>
    by_cases h : n < 128
    · have hlast := toNat_last h
      rw [varint_of_lt h]
      simpa only [hlast] using Spells.last (b := UInt8.ofNat n) (by omega)
    · have hmore : (UInt8.ofNat (n % 128 + 128)).toNat = n % 128 + 128 := toNat_more
      have hspells := Spells.more (b := UInt8.ofNat (n % 128 + 128)) (by omega)
        (ih (n / 128) (by omega))
      have hsum : (n % 128 + 128) % 128 + 128 * (n / 128) = n := by omega
      rw [hmore, hsum] at hspells
      rw [varint_of_ge (Nat.not_lt.mp h)]
      exact hspells

theorem Spells.length_pos (h : Spells n bytes) : 0 < bytes.length := by
  cases h with
  | last hb => exact Nat.zero_lt_succ _
  | more hb h => exact Nat.zero_lt_succ _

/-- A spelling has at least the bytes of the digits, and no more of them only if it is they. -/
theorem Spells.varint_le (h : Spells n bytes) :
    (varint n).length ≤ bytes.length ∧ (bytes.length ≤ (varint n).length → bytes = varint n) := by
  induction h with
  | last hb =>
    rw [varint_last hb]
    exact ⟨Nat.le_refl _, fun _ ↦ rfl⟩
  | @more b n bytes hb h ih =>
    have hlt := b.toNat_lt
    by_cases hn : n = 0
    · have hpos := h.length_pos
      have hone : (varint (b.toNat % 128 + 128 * n)).length = 1 := by
        rw [varint_of_lt (by omega)]
        rfl
      rw [hone, List.length_cons]
      refine ⟨by omega, fun hle ↦ ?_⟩
      omega
    · rw [varint_more hb hn, List.length_cons, List.length_cons]
      refine ⟨Nat.succ_le_succ ih.1, fun hle ↦ ?_⟩
      rw [ih.2 (Nat.le_of_succ_le_succ hle)]

/-- There is one minimal spelling. -/
theorem minimal_iff : Minimal n bytes ↔ bytes = varint n := by
  constructor
  · intro h
    exact h.spells.varint_le.2 (h.least _ (spells_varint n))
  · rintro rfl
    exact ⟨spells_varint n, fun other h ↦ h.varint_le.1⟩

end Spelling

/-- The payload of a record as it stands on the wire. -/
inductive WireValue
  | varint (value : ℕ)
  | fixed64 (bytes : List UInt8)
  | len (bytes : List UInt8)
  | fixed32 (bytes : List UInt8)
  deriving DecidableEq

structure Record where
  number : ℕ
  value : WireValue
  deriving DecidableEq

/-- Digits to the base 128 in at most so many bytes, the lowest first. -/
def readDigits : ℕ → List UInt8 → Option (ℕ × List UInt8)
  | 0, _ => none
  | _ + 1, [] => none
  | n + 1, b :: rest =>
    if b.toNat < 128 then some (b.toNat, rest)
    else (readDigits n rest).map fun high ↦ (b.toNat % 128 + 128 * high.1, high.2)

def readVarint (bytes : List UInt8) : Option (ℕ × List UInt8) :=
  (readDigits 10 bytes).map fun digits ↦ (digits.1 % 2 ^ 64, digits.2)

def takeBytes (n : ℕ) (bytes : List UInt8) : Option (List UInt8 × List UInt8) :=
  if n ≤ bytes.length then some (bytes.take n, bytes.drop n) else none

def readValue (wire : ℕ) (bytes : List UInt8) : Option (WireValue × List UInt8) :=
  match wire with
  | 0 => (readVarint bytes).map fun v ↦ (.varint v.1, v.2)
  | 1 => (takeBytes 8 bytes).map fun b ↦ (.fixed64 b.1, b.2)
  | 2 => do
    let (n, rest) ← readVarint bytes
    let (b, rest) ← takeBytes n rest
    pure (.len b, rest)
  | 5 => (takeBytes 4 bytes).map fun b ↦ (.fixed32 b.1, b.2)
  | _ => none

def readRecord (bytes : List UInt8) : Option (Record × List UInt8) := do
  let (tag, rest) ← readVarint bytes
  guard (0 < tag / 8 ∧ tag / 8 < 2 ^ 29)
  let (value, rest) ← readValue (tag % 8) rest
  pure (⟨tag / 8, value⟩, rest)

def readRecords : ℕ → List UInt8 → Option (List Record)
  | _, [] => some []
  | 0, _ :: _ => none
  | n + 1, b :: bytes => do
    let (record, rest) ← readRecord (b :: bytes)
    let records ← readRecords n rest
    pure (record :: records)

/-- All records of a message. No record is empty, so there are no more of them
than bytes. -/
def records (bytes : List UInt8) : Option (List Record) := readRecords bytes.length bytes

theorem readDigits_length {n v : ℕ} {bytes rest : List UInt8}
    (h : readDigits n bytes = some (v, rest)) : rest.length < bytes.length := by
  induction n generalizing bytes v rest with
  | zero => cases h
  | succ n ih =>
    cases bytes with
    | nil => cases h
    | cons b bytes =>
      rw [readDigits] at h
      split at h
      · obtain ⟨rfl, rfl⟩ := Prod.mk.inj (Option.some.inj h)
        simp
      · obtain ⟨⟨high, rest'⟩, hd, h⟩ := Option.map_eq_some_iff.mp h
        obtain ⟨rfl, rfl⟩ := Prod.mk.inj h
        have hl := ih hd
        rw [List.length_cons]
        dsimp only
        omega

theorem readVarint_length {v : ℕ} {bytes rest : List UInt8}
    (h : readVarint bytes = some (v, rest)) : rest.length < bytes.length := by
  obtain ⟨⟨v', rest'⟩, hd, h⟩ := Option.map_eq_some_iff.mp h
  obtain ⟨rfl, rfl⟩ := Prod.mk.inj h
  exact readDigits_length hd

theorem takeBytes_length {n : ℕ} {bytes taken rest : List UInt8}
    (h : takeBytes n bytes = some (taken, rest)) : rest.length ≤ bytes.length := by
  rw [takeBytes] at h
  split at h
  · obtain ⟨rfl, rfl⟩ := Prod.mk.inj (Option.some.inj h)
    rw [List.length_drop]
    omega
  · cases h

theorem readValue_length {wire : ℕ} {bytes rest : List UInt8} {value : WireValue}
    (h : readValue wire bytes = some (value, rest)) : rest.length ≤ bytes.length := by
  unfold readValue at h
  split at h
  · obtain ⟨⟨v, rest'⟩, hv, h⟩ := Option.map_eq_some_iff.mp h
    obtain ⟨rfl, rfl⟩ := Prod.mk.inj h
    exact Nat.le_of_lt (readVarint_length hv)
  · obtain ⟨⟨b, rest'⟩, hb, h⟩ := Option.map_eq_some_iff.mp h
    obtain ⟨rfl, rfl⟩ := Prod.mk.inj h
    exact takeBytes_length hb
  · obtain ⟨⟨n, rest'⟩, hn, h⟩ := Option.bind_eq_some_iff.mp h
    obtain ⟨⟨b, rest''⟩, hb, h⟩ := Option.bind_eq_some_iff.mp h
    obtain ⟨rfl, rfl⟩ := Prod.mk.inj (Option.some.inj h)
    have hn := readVarint_length hn
    have hb := takeBytes_length hb
    omega
  · obtain ⟨⟨b, rest'⟩, hb, h⟩ := Option.map_eq_some_iff.mp h
    obtain ⟨rfl, rfl⟩ := Prod.mk.inj h
    exact takeBytes_length hb
  · cases h

theorem readRecord_length {bytes rest : List UInt8} {record : Record}
    (h : readRecord bytes = some (record, rest)) : rest.length < bytes.length := by
  obtain ⟨⟨tag, rest'⟩, ht, h⟩ := Option.bind_eq_some_iff.mp h
  obtain ⟨_, _, h⟩ := Option.bind_eq_some_iff.mp h
  obtain ⟨⟨value, rest''⟩, hv, h⟩ := Option.bind_eq_some_iff.mp h
  obtain ⟨rfl, rfl⟩ := Prod.mk.inj (Option.some.inj h)
  have ht := readVarint_length ht
  have hv := readValue_length hv
  omega

/-- More fuel than bytes changes nothing. -/
theorem readRecords_fuel {n m : ℕ} {bytes : List UInt8} (hn : bytes.length ≤ n)
    (hm : bytes.length ≤ m) : readRecords n bytes = readRecords m bytes := by
  induction n generalizing m bytes with
  | zero =>
    cases bytes with
    | nil => cases m <;> rfl
    | cons b bytes => simp at hn
  | succ n ih =>
    cases bytes with
    | nil => cases m <;> rfl
    | cons b bytes =>
      cases m with
      | zero => simp at hm
      | succ m =>
        rw [readRecords, readRecords]
        refine Option.bind_congr fun ⟨record, rest⟩ hr ↦ ?_
        have hl := readRecord_length hr
        rw [List.length_cons] at hn hm hl
        have hrest : readRecords n rest = readRecords m rest := ih (by omega) (by omega)
        dsimp only
        rw [hrest]

@[simp] theorem records_nil : records [] = some [] := rfl

theorem records_of_readRecord {bytes rest : List UInt8} {record : Record}
    (h : readRecord bytes = some (record, rest)) :
    records bytes = (records rest).map (record :: ·) := by
  have hl := readRecord_length h
  cases bytes with
  | nil => simp at hl
  | cons b bytes =>
    rw [List.length_cons] at hl
    have hrest : readRecords bytes.length rest = records rest :=
      readRecords_fuel (by omega) (Nat.le_refl _)
    rw [records, List.length_cons, readRecords, h]
    change (readRecords bytes.length rest).bind _ = _
    rw [hrest]
    cases records rest with
    | none => rfl
    | some tail => rfl

end RustdeskConsole.Protobuf
