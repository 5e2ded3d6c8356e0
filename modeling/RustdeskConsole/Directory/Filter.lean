import Mathlib.Data.List.Basic
import Mathlib.Data.List.TakeWhile
import RustdeskConsole.Collections.Replacement

namespace RustdeskConsole.Directory

open Collections

/-- An octet of an assertion value, a wildcard, or what a placeholder stands for. -/
inductive Element
  | octet (b : UInt8)
  | any
  | hole
  deriving DecidableEq

inductive FilterType
  | equal
  | approx
  | greater
  | less
  | extensible
  deriving DecidableEq

/-- A search filter. An equality with wildcards is a presence or a substring match. -/
inductive Filter
  | and (filters : List Filter)
  | or (filters : List Filter)
  | not (filter : Filter)
  | item (attr : List Char) (type : FilterType) (value : List Element)

inductive Token
  | opening
  | closing
  | any
  | char (c : Char)
  | octet (b : UInt8)
  | hole
  deriving DecidableEq

namespace Filter

def hexDigit (c : Char) : Option ℕ :=
  if '0' ≤ c ∧ c ≤ '9' then some (c.toNat - 0x30)
  else if 'a' ≤ c ∧ c ≤ 'f' then some (c.toNat - 0x61 + 10)
  else if 'A' ≤ c ∧ c ≤ 'F' then some (c.toNat - 0x41 + 10)
  else none

def token (c : Char) : Option Token :=
  if c = '(' then some .opening
  else if c = ')' then some .closing
  else if c = '*' then some .any
  else if c = Char.ofNat 0 then none
  else some (.char c)

/-- A backslash and two hexadecimal digits are an octet. -/
def tokens : List Piece → Option (List Token)
  | [] => some []
  | .hole :: pieces => (tokens pieces).map (.hole :: ·)
  | .char c :: pieces =>
    if c = '\\' then
      match pieces with
      | .char high :: .char low :: pieces => do
        let high ← hexDigit high
        let low ← hexDigit low
        let rest ← tokens pieces
        some (.octet (UInt8.ofNat (16 * high + low)) :: rest)
      | _ => none
    else do
      let head ← token c
      let rest ← tokens pieces
      some (head :: rest)

def elements : Token → List Element
  | .char c => (String.utf8EncodeChar c).map .octet
  | .octet b => [.octet b]
  | .any => [.any]
  | .hole => [.hole]
  | _ => []

/-- The characters of an attribute description, and of the type of the match. -/
def attrChar : Token → Option Char
  | .char c => if c = '=' then none else some c
  | _ => none

def isValue : Token → Bool
  | .opening => false
  | .closing => false
  | _ => true

/-- The type of a match by the character before its equals sign. -/
def typeOf (left : List Char) : List Char × FilterType :=
  match left.getLast? with
  | some '~' => (left.dropLast, .approx)
  | some '>' => (left.dropLast, .greater)
  | some '<' => (left.dropLast, .less)
  | some ':' => (left.dropLast, .extensible)
  | _ => (left, .equal)

def isDescription (type : FilterType) (attr : List Char) : Bool :=
  !attr.isEmpty && attr.all fun c ↦
    c.isAlphanum || c ∈ ['-', '.', ';'] || (type = .extensible && c = ':')

/-- Only an equality has wildcards. -/
def build (left : List Char) (value : List Token) : Option Filter :=
  let (attr, type) := typeOf left
  if isDescription type attr && (type = .equal || .any ∉ value) then
    some (.item attr type (value.flatMap elements))
  else none

def readItem (ts : List Token) : Option (Filter × List Token) :=
  match ts.dropWhile fun t ↦ (attrChar t).isSome with
  | .char '=' :: right =>
    match right.dropWhile isValue with
    | .closing :: rest =>
      (build ((ts.takeWhile fun t ↦ (attrChar t).isSome).filterMap attrChar)
        (right.takeWhile isValue)).map (·, rest)
    | _ => none
  | _ => none

def close (filter : Filter) : List Token → Option (Filter × List Token)
  | .closing :: rest => some (filter, rest)
  | _ => none

/-- A reader for the filters between two parentheses. -/
abbrev Inner := List Token → Option (List Filter × List Token)

/-- One filter or more under a connective. -/
def several (inner : Inner) (connective : List Filter → Filter) (ts : List Token) :
    Option (Filter × List Token) := do
  let (fs, ts) ← inner ts
  if fs.isEmpty then none else close (connective fs) ts

def negated (inner : Inner) (ts : List Token) : Option (Filter × List Token) := do
  let (fs, ts) ← inner ts
  match fs with
  | [filter] => close (.not filter) ts
  | _ => none

/-- What follows an opening parenthesis. -/
def component (inner : Inner) : List Token → Option (Filter × List Token)
  | .char '&' :: ts => several inner .and ts
  | .char '|' :: ts => several inner .or ts
  | .char '!' :: ts => negated inner ts
  | ts => readItem ts

/-- As many filters as follow one another. -/
def filters : ℕ → List Token → Option (List Filter × List Token)
  | 0, _ => none
  | fuel + 1, .opening :: ts => do
    let (filter, ts) ← component (filters fuel) ts
    let (fs, ts) ← filters fuel ts
    some (filter :: fs, ts)
  | _ + 1, [] => some ([], [])
  | _ + 1, .closing :: ts => some ([], .closing :: ts)
  | _ + 1, _ => none

def parse (pieces : List Piece) : Option Filter := do
  let ts ← tokens pieces
  let (fs, rest) ← filters (ts.count .opening + 1) ts
  match fs, rest with
  | [filter], [] => some filter
  | _, _ => none

end Filter

def Element.subst (value : List Element) : Element → List Element
  | .hole => value
  | element => [element]

namespace Filter

mutual

def subst (value : List Element) : Filter → Filter
  | .and fs => .and (substs value fs)
  | .or fs => .or (substs value fs)
  | .not f => .not (subst value f)
  | .item attr type pattern => .item attr type (pattern.flatMap (Element.subst value))

def substs (value : List Element) : List Filter → List Filter
  | [] => []
  | f :: fs => subst value f :: substs value fs

end

end Filter

end RustdeskConsole.Directory
