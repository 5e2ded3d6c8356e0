import Mathlib.Data.List.Sort
import RustdeskConsole.Releases.Manifest

namespace RustdeskConsole.Releases

open Effects.Guard Updater

abbrev Bytes := List UInt8

/-- What the URL parser makes of a text. -/
structure Url where
  protocol : String
  username : String
  password : String
  port : String
  hostname : String
  deriving DecidableEq

/-- The chunks of a body up to its end, or up to where it breaks off. -/
structure Body where
  chunks : List Bytes
  breaks : Bool
  deriving DecidableEq

/-- A reply. A header may be missing, and a length may be no number. -/
structure Response where
  status : ℕ
  location : Option String
  contentLength : Option (Option ℕ)
  body : Option Body
  deriving DecidableEq

/-- Everything outside: how a URL is parsed, how a location is resolved against
it, and what is answered to a request after these. -/
structure Web where
  parse : String → Option Url
  resolve : String → String → Option String
  fetch : List String → String → Option Response

/-- What fails or not and leaves a world behind it. -/
abbrev Loading (σ : Type) := ExceptT Failure (StateM σ)

abbrev FetchBytes (σ : Type) := String → Loading σ Bytes

def ensure {σ : Type} (condition : Bool) (code message : String) : Loading σ Unit :=
  if condition then pure () else throw (.update code message)

def trustedHosts : List String :=
  ["api.github.com", "github.com", "release-assets.githubusercontent.com",
    "objects.githubusercontent.com"]

def Url.trusted (url : Url) : Bool :=
  url.protocol = "https:" && url.username = "" && url.password = "" && url.port = "" &&
    trustedHosts.contains url.hostname

/-- The chunks that are read, of no more than so many bytes in all. -/
def readChunks (limit : ℕ) (breaks : Bool) : ℕ → List Bytes → Except Failure Bytes
  | _, [] => if breaks then .error .unknown else .ok []
  | size, chunk :: chunks => do
    let size := size + chunk.length
    check (size ≤ limit) "ARTIFACT_TOO_LARGE"
      "The official artifact exceeds the supported size."
    let rest ← readChunks limit breaks size chunks
    pure (chunk ++ rest)

def readResponse (limit : ℕ) (response : Response) : Except Failure Bytes := do
  refuseIf (response.status = 404) (.update "RELEASE_UNAVAILABLE"
    "The official release or required manifest is unavailable.")
  check (200 ≤ response.status && response.status ≤ 299) "CATALOG_UNAVAILABLE"
    "The official release catalog is temporarily unavailable."
  check ((response.contentLength.getD (some 0)).any (· ≤ limit)) "ARTIFACT_TOO_LARGE"
    "The official artifact exceeds the supported size."
  match response.body with
  | none => .error (.update "CATALOG_UNAVAILABLE" "The release response is empty.")
  | some body => readChunks limit body.breaks 0 body.chunks

def isRedirect (status : ℕ) : Bool := [301, 302, 303, 307, 308].contains status

/-- The requests of `officialFetch`, of which so many more may be made. The state
holds those that were made, the last first. -/
def follow (web : Web) (limit : ℕ) : ℕ → String → Loading (List String) Bytes
  | 0, _ => throw (.update "UNTRUSTED_SOURCE" "The release redirected too many times.")
  | n + 1, url =>
    match web.parse url with
    | none => throw .unknown
    | some parsed => do
      ensure parsed.trusted "UNTRUSTED_SOURCE"
        "The release redirected outside the official source allowlist."
      let requests ← get
      set (url :: requests)
      match web.fetch requests url with
      | none => throw .unknown
      | some response =>
        if isRedirect response.status then
          match response.location.filter (· ≠ "") with
          | none => throw (.update "UNTRUSTED_SOURCE" "The release redirect is invalid.")
          | some location =>
            match web.resolve location url with
            | none => throw .unknown
            | some next => follow web limit n next
        else
          match readResponse limit response with
          | .ok bytes => pure bytes
          | .error failure => throw failure

def officialFetch (web : Web) (limit : ℕ) : FetchBytes (List String) := follow web limit 6

def defaultLimit : ℕ := 2 * 1024 * 1024

/-- How the answers are read: a text that is no JSON is read as nothing, and what
is no list of releases as none. -/
structure Reader where
  releases : Bytes → Option (Option (List OfficialRelease))
  release : Bytes → Option OfficialRelease
  manifest : Bytes → Option Manifest
  sha : Bytes → Option String

def releasesUrl (component : Component) (page : ℕ) : String :=
  "https://api.github.com/repos/" ++ officialRepository component ++
    "/releases?per_page=100&page=" ++ toString page

def releaseUrl (component : Component) (releaseId : ℕ) : String :=
  "https://api.github.com/repos/" ++ officialRepository component ++ "/releases/" ++
    toString releaseId

def manifestUrl (component : Component) (tag : String) : String :=
  "https://github.com/" ++ officialRepository component ++ "/releases/download/" ++ tag ++
    "/update-manifest.json"

/-- The tag of a stable release has no character that is encoded. -/
def commitUrl (component : Component) (tag : String) : String :=
  "https://api.github.com/repos/" ++ officialRepository component ++ "/commits/" ++ tag

namespace OfficialCatalog

variable {σ : Type} (download : FetchBytes σ) (reader : Reader)

def json {α : Type} (read : Bytes → Option α) (url : String) : Loading σ α := do
  let bytes ← download url
  match read bytes with
  | none => throw .unknown
  | some a => pure a

/-- The stable releases of the last so many of ten pages. -/
def stableReleases (component : Component) : ℕ → Loading σ (List OfficialRelease)
  | 0 => pure []
  | n + 1 => do
    let page := 10 - n
    let batch ← json download reader.releases (releasesUrl component page)
    match batch with
    | none => throw (.update "CATALOG_UNAVAILABLE" "The official release catalog is invalid.")
    | some batch =>
      let releases := batch.filter isStableRelease
      if batch.length < 100 then pure releases
      else do
        ensure (page < 10) "CATALOG_LIMIT" "The release catalog requires a newer updater."
        let rest ← stableReleases component n
        pure (releases ++ rest)

/-- Whether a release may stand before another. Of stable ones the comparison
does not fail. -/
def precedes (a b : OfficialRelease) : Bool :=
  match compareVersions (tagVersion b.tagName) (tagVersion a.tagName) with
  | .ok k => k ≤ 0
  | .error _ => false

def newestFirst (releases : List OfficialRelease) : List OfficialRelease :=
  releases.insertionSort fun a b ↦ precedes a b = true

def read (component : Component) (release : OfficialRelease) : Loading σ Manifest := do
  ensure (isStableRelease release) "NON_STABLE_RELEASE"
    "Only official stable releases may be installed."
  let asset := release.assets.find? fun asset ↦ asset.name = "update-manifest.json"
  let expected := manifestUrl component release.tagName
  ensure (asset.any fun asset ↦ asset.browserDownloadUrl = expected) "MANIFEST_PENDING"
    "The latest official release is not yet ready for automatic updating."
  let manifest ← json download reader.manifest expected
  let commit ← json download reader.sha (commitUrl component release.tagName)
  match validateManifest manifest component release commit with
  | .ok manifest => pure manifest
  | .error failure => throw failure

def latest (component : Component) : Loading σ Manifest := do
  let releases ← stableReleases download reader component 10
  match newestFirst releases with
  | [] => throw (.update "RELEASE_UNAVAILABLE" "No official stable release is available.")
  | release :: _ => read download reader component release

def exact (component : Component) (releaseId : ℕ) : Loading σ Manifest := do
  ensure (isSafeInteger releaseId && releaseId > 0) "INVALID_MANIFEST"
    "The release identity is invalid."
  let release ← json download reader.release (releaseUrl component releaseId)
  read download reader component release

end OfficialCatalog

section Loading

variable {σ α β : Type} {w w' : σ} {p : Loading σ α} {f : α → Loading σ β} {a : α} {b : β}

def play (p : Loading σ α) (w : σ) : Except Failure α × σ := StateT.run (ExceptT.run p) w

theorem play_pure : play (pure a : Loading σ α) w = (.ok a, w) := rfl

theorem play_throw {failure : Failure} :
    play (throw failure : Loading σ α) w = (.error failure, w) := rfl

theorem play_bind : play (p >>= f) w =
    match play p w with
    | (.ok a, w') => play (f a) w'
    | (.error failure, w') => (.error failure, w') := by
  rw [play, ExceptT.run_bind, StateT.run_bind]
  change _ = match (StateT.run (ExceptT.run p) w : Except Failure α × σ) with
    | (.ok a, w') => play (f a) w'
    | (.error failure, w') => (.error failure, w')
  rcases (StateT.run (ExceptT.run p) w : Except Failure α × σ) with ⟨x, w'⟩
  cases x <;> rfl

/-- It ends with this result and leaves this world. -/
def Loads (p : Loading σ α) (w : σ) (a : α) (w' : σ) : Prop := play p w = (.ok a, w')

theorem loads_pure {a a' : α} : Loads (pure a) w a' w' ↔ a = a' ∧ w = w' := by
  rw [Loads, play_pure, Prod.mk.injEq, Except.ok.injEq]

theorem not_loads_throw {failure : Failure} : ¬Loads (throw failure) w a w' := by
  rw [Loads, play_throw]
  nofun

theorem loads_bind : Loads (p >>= f) w b w' ↔ ∃ a w₁, Loads p w a w₁ ∧ Loads (f a) w₁ b w' := by
  rw [Loads, play_bind]
  constructor
  · intro h
    split at h
    · next a w₁ hp => exact ⟨a, w₁, hp, h⟩
    · cases h
  · rintro ⟨a, w₁, hp, hf⟩
    rw [hp]
    exact hf

theorem loads_ensure {condition : Bool} {code message : String} {u : Unit} :
    Loads (ensure condition code message : Loading σ Unit) w u w' ↔
      condition = true ∧ w = w' := by
  rw [ensure]
  split
  · next h => rw [loads_pure, eq_self_iff_true, true_and, h, eq_self_iff_true, true_and]
  · next h => exact ⟨fun hl ↦ (not_loads_throw hl).elim, fun hc ↦ (h hc.1).elim⟩

end Loading

end RustdeskConsole.Releases
