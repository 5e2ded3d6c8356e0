import RustdeskConsole.Collections.OrderedMap
import RustdeskConsole.Collections.Numeral
import RustdeskConsole.Posix.Paths
import RustdeskConsole.Releases.Versions

namespace RustdeskConsole.Archives

open Collections Posix Effects.Guard
open Updater (Failure)
open Releases (check)

structure Entry where
  path : Path
  content : List UInt8
  mode : ℕ
  deriving DecidableEq

/-- What one header and its content say. -/
structure Member where
  path : Path
  type : List Char
  content : List UInt8
  modeField : List Char
  deriving DecidableEq

structure Listing where
  directories : List Path
  entries : List Entry
  count : ℕ
  seen : List Path
  extendedPath : Option Path

def start : Listing := ⟨[[]], [], 0, [], none⟩

def nul : Char := Char.ofNat 0

def maxSafeInteger : ℕ := 2 ^ 53 - 1

def octal (value : List Char) : Except Failure ℕ := do
  check (value.all fun c ↦ c = ' ' || ('0' ≤ c && c ≤ '7')) "ARCHIVE_INVALID"
    "The release archive contains an unsupported numeric field."
  pure (Nat.ofDigitChars 8 ((value.dropWhile (· = ' ')).takeWhile (· ≠ ' ')) 0)

/-- The sum of the bytes from one on, with blanks in place of the sum itself. -/
def checksumFrom : ℕ → List UInt8 → ℕ
  | _, [] => 0
  | i, byte :: header =>
    (if 148 ≤ i ∧ i < 156 then 32 else byte.toNat) + checksumFrom (i + 1) header

def checksum (header : List UInt8) : ℕ := checksumFrom 0 header

/-- `/^\d+ ([^=]+)=(.*)$/` -/
def parseAttribute (line : List Char) : Option (List Char × List Char) :=
  match line.takeWhile Char.isDigit, line.dropWhile Char.isDigit with
  | _ :: _, ' ' :: pair =>
    match pair.takeWhile (· ≠ '='), pair.dropWhile (· ≠ '=') with
    | c :: cs, _ :: value =>
      if value.any (· ∈ ['\n', '\r', '\u2028', '\u2029']) then none else some (c :: cs, value)
    | _, _ => none
  | _, _ => none

def readAttribute (extendedPath : Option Path) (line : List Char) :
    Except Failure (Option Path) := do
  let (key, value) ← require (parseAttribute line)
    (.update "ARCHIVE_INVALID" "Invalid archive extension.")
  check (key ∈ ["path".toList, "mtime".toList, "atime".toList, "ctime".toList]) "ARCHIVE_INVALID"
    "Unsupported archive extension."
  pure (if key = "path".toList then some value else extendedPath)

def isUnsafe (path : Path) : Bool :=
  isAbsolute path || path.contains '\\' || path.contains nul || (segments path).contains above ||
    match path with
    | c :: ':' :: _ => c.isAlpha
    | _ => false

/-- The directory and those above it, up to the last that has a name. -/
def ancestors : ℕ → Path → List Path
  | 0, _ => []
  | fuel + 1, parent =>
    if parent = current ∨ parent = [] then [] else parent :: ancestors fuel (dirname parent)

def fileMode (member : Member) : Except Failure ℕ := do
  let mode ← octal member.modeField
  pure (if mode &&& 0o111 = 0 then 0o644 else 0o755)

def normalized (path : Path) : Path := ofParts (parts (normalize path))

def admitMember (member : Member) (listing : Listing) : Except Failure Listing := do
  check (!isUnsafe member.path) "ARCHIVE_PATH_UNSAFE"
    "The release archive contains an unsafe path."
  let path := normalized member.path
  if path = current ∨ path = [] then
    check (member.type = ['5']) "ARCHIVE_PATH_UNSAFE" "Invalid root archive entry."
    pure listing
  else
    check (path ∉ listing.seen &&
        (member.type = ['0'] || member.type = [] || member.type = ['5'])) "ARCHIVE_PATH_UNSAFE"
      "Duplicate entries, links and special files are not supported in release bundles."
    let parent := if member.type = ['5'] then path else dirname path
    let listing :=
      { listing with
        seen := listing.seen ++ [path]
        directories := (ancestors parent.length parent).foldl addValue listing.directories }
    if member.type = ['5'] then pure listing
    else
      let mode ← fileMode member
      pure { listing with entries := listing.entries ++ [⟨path, member.content, mode⟩] }

def finish (listing : Listing) : Except Failure Unit := do
  check (0 < listing.count && (listing.extendedPath.getD []).isEmpty) "ARCHIVE_INVALID"
    "The release archive is empty or incomplete."
  check (listing.entries.all fun entry ↦ entry.path ∉ listing.directories) "ARCHIVE_PATH_UNSAFE"
    "A release archive file conflicts with a directory."

section Decoded

variable (decode : List UInt8 → List Char)

def field (header : List UInt8) (offset length : ℕ) : List Char :=
  (decode ((header.drop offset).take length)).takeWhile (· ≠ nul)

/-- The size and the type of a member. -/
def readHeader (header : List UInt8) : Except Failure (ℕ × List Char) := do
  let sum ← octal (field decode header 148 8)
  check (checksum header = sum) "ARCHIVE_INVALID" "The release archive header checksum is invalid."
  let size ← octal (field decode header 124 12)
  pure (size, field decode header 156 1)

def readAttributes (content : List UInt8) (extendedPath : Option Path) :
    Except Failure (Option Path) := do
  let attributes := decode content
  check (utf16Length (String.ofList attributes) < 16384) "ARCHIVE_INVALID"
    "The archive extension is too large."
  ((attributes.splitOn '\n').filter (· ≠ [])).foldlM readAttribute extendedPath

/-- The path that an extension gives to the member after it. -/
def extension (type : List Char) (content : List UInt8) (extendedPath : Option Path) :
    Option (Except Failure (Option Path)) :=
  if type = ['x'] then some (readAttributes decode content extendedPath)
  else if type = ['L'] then some (.ok (some ((decode content).takeWhile (· ≠ nul))))
  else none

def headerPath (header : List UInt8) : Path :=
  let lead := field decode header 345 155
  (if lead = [] then [] else lead ++ ['/']) ++ field decode header 0 100

def memberOf (header : List UInt8) (type : List Char) (content : List UInt8)
    (extendedPath : Option Path) : Member :=
  ⟨extendedPath.getD (headerPath decode header), type, content, field decode header 100 8⟩

/-- Where the header after a member of this size stands. -/
def padded (size : ℕ) : ℕ := 512 + (size + 511) / 512 * 512

def atEnd (bytes : List UInt8) : Bool := bytes.length < 512 || (bytes.take 512).all (· = 0)

def list : ℕ → List UInt8 → Listing → Except Failure Listing
  | 0, _, listing => .ok listing
  | fuel + 1, bytes, listing =>
    if atEnd bytes then .ok listing
    else do
      let (size, type) ← readHeader decode (bytes.take 512)
      check (size ≤ maxSafeInteger && size ≤ (bytes.drop 512).length && listing.count + 1 ≤ 50000)
        "ARCHIVE_INVALID" "The release archive exceeds supported bounds."
      let listing := { listing with count := listing.count + 1 }
      let content := (bytes.drop 512).take size
      match extension decode type content listing.extendedPath with
      | some extended =>
        let path ← extended
        list fuel (bytes.drop (padded size)) { listing with extendedPath := path }
      | none =>
        let listing ← admitMember (memberOf decode (bytes.take 512) type content listing.extendedPath)
          { listing with extendedPath := none }
        list fuel (bytes.drop (padded size)) listing

/-- The listing of a tar, by its headers alone. -/
def members : ℕ → List UInt8 → Option Path → List Member
  | 0, _, _ => []
  | fuel + 1, bytes, extendedPath =>
    if atEnd bytes then []
    else
      match readHeader decode (bytes.take 512) with
      | .error _ => []
      | .ok (size, type) =>
        let content := (bytes.drop 512).take size
        match extension decode type content extendedPath with
        | some (.error _) => []
        | some (.ok path) => members fuel (bytes.drop (padded size)) path
        | none =>
          memberOf decode (bytes.take 512) type content extendedPath ::
            members fuel (bytes.drop (padded size)) none

variable {decode} {fuel fuel' : ℕ} {bytes : List UInt8} {listing : Listing}

theorem atEnd_of_length (h : bytes.length < 512) : atEnd bytes = true := by
  simp [atEnd, h]

theorem length_of_not_atEnd (h : ¬atEnd bytes = true) : 512 ≤ bytes.length := by
  by_cases hl : bytes.length < 512
  · exact absurd (atEnd_of_length hl) h
  · omega

/-- A tar has no more headers than blocks. -/
theorem list_fuel (h : bytes.length / 512 ≤ fuel) (h' : bytes.length / 512 ≤ fuel') :
    list decode fuel bytes listing = list decode fuel' bytes listing := by
  induction fuel generalizing fuel' bytes listing with
  | zero =>
    cases fuel' with
    | zero => rfl
    | succ fuel' => rw [list, list, if_pos (atEnd_of_length (by omega))]
  | succ fuel ih =>
    cases fuel' with
    | zero => rw [list, list, if_pos (atEnd_of_length (by omega))]
    | succ fuel' =>
      by_cases hend : atEnd bytes = true
      · rw [list, list, if_pos hend, if_pos hend]
      · have hlen := length_of_not_atEnd hend
        have hrest (size : ℕ) (listing : Listing) :
            list decode fuel (bytes.drop (padded size)) listing =
              list decode fuel' (bytes.drop (padded size)) listing := by
          refine ih ?_ ?_ <;> rw [List.length_drop, padded] <;> omega
        simp only [list, hend, hrest]

end Decoded

end RustdeskConsole.Archives
