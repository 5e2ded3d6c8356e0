import RustdeskConsole.Collections.OrderedMap
import RustdeskConsole.Protobuf.Message

namespace RustdeskConsole.WebClient

open Collections
open Protobuf (utf8)

inductive WireValue
  | number (value : ℕ)
  | buffer (bytes : List UInt8)
  deriving DecidableEq

inductive Wire
  | varint
  | length
  deriving DecidableEq

def Wire.code : Wire → ℕ
  | .varint => 0
  | .length => 2

structure Field where
  wire : Wire
  max : Option ℕ

abbrev Schema := List (ℕ × Field)

def Schema.field (schema : Schema) (number : ℕ) : Option Field :=
  (schema.find? (·.1 = number)).map Prod.snd

inductive Failure
  | error (message : String)
  | typeError
  deriving DecidableEq

def MAX_HANDSHAKE_BYTES : ℕ := 16 * 1024

def invalid {α : Type} : Except Failure α := .error (.error "Invalid web client handshake")

def check (condition : Bool) : Except Failure Unit := if condition then .ok () else invalid

/-- The loop of `readVarint` with `n` of its rounds to go. -/
def readVarintFrom : ℕ → ℕ → ℕ → List UInt8 → Except Failure (ℕ × List UInt8)
  | 0, _, _, _ => invalid
  | _ + 1, _, _, [] => invalid
  | n + 1, i, value, byte :: rest =>
    if i = 4 && byte > 15 then invalid
    else if byte &&& 128 = 0 then
      if i ≠ 0 && byte = 0 then invalid
      else .ok (value + (byte &&& 127).toNat * 2 ^ (7 * i), rest)
    else readVarintFrom n (i + 1) (value + (byte &&& 127).toNat * 2 ^ (7 * i)) rest

def readVarint (bytes : List UInt8) : Except Failure (ℕ × List UInt8) := readVarintFrom 5 0 0 bytes

/-- One round of the loop of `fields`. -/
def readField (schema : Schema) (values : OrderedMap ℕ WireValue) (bytes : List UInt8) :
    Except Failure ((ℕ × WireValue) × List UInt8) := do
  let (tag, bytes) ← readVarint bytes
  match schema.field (tag / 8) with
  | none => invalid
  | some definition =>
    check (tag % 8 = definition.wire.code && (values.get? (tag / 8)).isNone)
    let (value, bytes) ← readVarint bytes
    match definition.wire with
    | .varint =>
      check (definition.max.all (value ≤ ·))
      pure ((tag / 8, .number value), bytes)
    | .length =>
      check (value ≤ definition.max.getD MAX_HANDSHAKE_BYTES && value ≤ bytes.length)
      pure ((tag / 8, .buffer (bytes.take value)), bytes.drop value)

/-- The loop of `fields`; each round takes at least one of the bytes. -/
def readFields (schema : Schema) :
    ℕ → OrderedMap ℕ WireValue → List UInt8 → Except Failure (OrderedMap ℕ WireValue)
  | _, values, [] => .ok values
  | 0, _, _ :: _ => invalid
  | n + 1, values, byte :: bytes => do
    let (entry, bytes) ← readField schema values (byte :: bytes)
    readFields schema n (values.set entry.1 entry.2) bytes

def fields (bytes : List UInt8) (schema : Schema) : Except Failure (OrderedMap ℕ WireValue) :=
  if bytes.length > MAX_HANDSHAKE_BYTES then invalid
  else readFields schema bytes.length .empty bytes

def string (values : OrderedMap ℕ WireValue) (field : ℕ) : Except Failure String :=
  match values.get? field with
  | none => .ok ""
  | some (.number _) => invalid
  | some (.buffer bytes) => (utf8 bytes).elim (.error .typeError) .ok

def number (values : OrderedMap ℕ WireValue) (field : ℕ) : Except Failure ℕ :=
  match values.get? field with
  | none => .ok 0
  | some (.number value) => .ok value
  | some (.buffer _) => invalid

def envelope (bytes : List UInt8) (allowed : List ℕ) : Except Failure (ℕ × List UInt8) := do
  let values ← fields bytes (allowed.map (·, ⟨.length, none⟩))
  match values.entries with
  | [(field, .buffer value)] => .ok (field, value)
  | _ => invalid

inductive Kind
  | desktop
  | file
  deriving DecidableEq

def Kind.connType : Kind → ℕ
  | .desktop => 0
  | .file => 1

structure ProtocolBinding where
  targetId : String
  kind : Kind
  serverPublicKey : String
  relayUuid : Option String

def punchHoleRequestFields : Schema :=
  [(1, ⟨.length, some 256⟩), (2, ⟨.varint, some 2⟩), (3, ⟨.length, some 128⟩),
    (4, ⟨.varint, some 1⟩), (6, ⟨.length, some 64⟩), (8, ⟨.varint, some 1⟩)]

def validatePunchHoleRequest (bytes : List UInt8) (binding : ProtocolBinding) :
    Except Failure Unit := do
  let (_, body) ← envelope bytes [8]
  let values ← fields body punchHoleRequestFields
  check ((← string values 1) = binding.targetId)
  check ((← string values 3) = binding.serverPublicKey)
  check ((← number values 4) = binding.kind.connType)
  check ((← number values 8) = 1)
  let _ ← string values 6

def requestRelayFields : Schema :=
  [(1, ⟨.length, some 256⟩), (2, ⟨.length, some 36⟩), (6, ⟨.length, some 128⟩),
    (7, ⟨.varint, some 1⟩)]

def validateRequestRelay (bytes : List UInt8) (binding : ProtocolBinding) :
    Except Failure Unit := do
  let (_, body) ← envelope bytes [18]
  let values ← fields body requestRelayFields
  check (binding.relayUuid.any (· ≠ ""))
  check ((← string values 1) = binding.targetId)
  check (some (← string values 2) = binding.relayUuid)
  check ((← string values 6) = binding.serverPublicKey)
  check ((← number values 7) = binding.kind.connType)

inductive RendezvousReply
  | refused
  | relay (relayUuid : String)
  deriving DecidableEq

def punchHoleResponseFields : Schema :=
  [(3, ⟨.varint, some 4⟩), (4, ⟨.length, some 2048⟩), (7, ⟨.length, some 256⟩), (8, ⟨.varint, none⟩)]

def relayResponseFields : Schema :=
  [(1, ⟨.length, some 128⟩), (2, ⟨.length, some 36⟩), (3, ⟨.length, some 2048⟩),
    (4, ⟨.length, some 256⟩), (5, ⟨.length, some 4096⟩), (6, ⟨.length, some 256⟩),
    (7, ⟨.length, some 64⟩), (9, ⟨.varint, none⟩), (10, ⟨.length, some 128⟩),
    (11, ⟨.varint, some 65535⟩)]

def isHexDigit (c : Char) : Bool :=
  ('0' ≤ c && c ≤ '9') || ('a' ≤ c && c ≤ 'f') || ('A' ≤ c && c ≤ 'F')

/-- The pattern a relay UUID is tested against. -/
def isUuid (s : String) : Bool :=
  let parts := s.toList.splitOn '-'
  parts.map List.length = [8, 4, 4, 4, 12] && parts.all (·.all isHexDigit)

def readRendezvousReply (bytes : List UInt8) : Except Failure RendezvousReply := do
  let (field, body) ← envelope bytes [11, 19]
  if field = 11 then
    let values ← fields body punchHoleResponseFields
    check ([0, 2, 3, 4].contains (← number values 3))
    let _ ← string values 4
    let _ ← string values 7
    pure .refused
  else
    let values ← fields body relayResponseFields
    check !((values.get? 4).isSome && (values.get? 5).isSome)
    let _ ← string values 3
    let _ ← string values 4
    let _ ← string values 6
    let _ ← string values 7
    if (← string values 6) ≠ "" then pure .refused
    else
      let relayUuid ← string values 2
      check (isUuid relayUuid)
      pure (.relay relayUuid)

end RustdeskConsole.WebClient
