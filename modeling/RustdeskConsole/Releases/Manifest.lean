import RustdeskConsole.Releases.Versions

namespace RustdeskConsole.Releases

open Collections Effects.Guard Updater

structure Platform where
  os : String
  arch : String
  libc : String
  deriving DecidableEq

inductive ArtifactKind
  | oci
  | archive
  | other
  deriving DecidableEq

structure Artifact where
  kind : ArtifactKind
  platform : Option Platform
  name : String
  url : String
  sha256 : String
  size : ℕ
  deriving DecidableEq

structure Manifest where
  schemaVersion : ℕ
  repository : String
  component : String
  version : String
  releaseId : ℕ
  tag : String
  sourceCommit : String
  publishedAt : String
  peerVersionRange : String
  updaterProtocol : ℕ
  maintenanceProtocol : ℕ
  bundleFormat : ℕ
  artifacts : List Artifact
  deriving DecidableEq

structure ReleaseAsset where
  name : String
  browserDownloadUrl : String
  size : ℕ
  deriving DecidableEq

structure OfficialRelease where
  id : ℕ
  tagName : String
  draft : Bool
  prerelease : Bool
  publishedAt : String
  assets : List ReleaseAsset

def componentName : Component → String
  | .backend => "backend"
  | .web => "web"

def officialRepository : Component → String
  | .backend => "databk/rustdesk-console"
  | .web => "databk/rustdesk-console-web"

def isSafeInteger (n : ℕ) : Bool := n ≤ 9007199254740991

def isHex (length : ℕ) (s : String) : Bool :=
  s.length = length && s.toList.all fun c ↦ c.isDigit || ('a' ≤ c && c ≤ 'f')

/-- `tag_name.replace(/^v/, '')` -/
def tagVersion (tag : String) : String :=
  match tag.toList with
  | 'v' :: cs => String.ofList cs
  | _ => tag

def isStableRelease (release : OfficialRelease) : Bool :=
  !release.draft && !release.prerelease && isStableVersion (tagVersion release.tagName) &&
    isSafeInteger release.id && release.id > 0 && release.publishedAt ≠ ""

/-- `/^[A-Za-z0-9][A-Za-z0-9._-]*\.tar\.gz$/` -/
def isArchiveName (name : String) : Bool :=
  let cs := name.toList
  let suffix := ".tar.gz".toList
  suffix.isSuffixOf cs && match cs.take (cs.length - suffix.length) with
    | [] => false
    | c :: rest => c.isAlphanum && rest.all fun d ↦ d.isAlphanum || d = '.' || d = '_' || d = '-'

def assertArtifact (artifact : Artifact) (component : Component) (tag : String) :
    Except Failure Unit := do
  check (artifact.platform.any fun platform ↦ platform.os = "linux" &&
      ["x64", "arm64"].contains platform.arch && ["glibc", "musl"].contains platform.libc)
    "INVALID_ARTIFACT" "The release platform is unsupported."
  check (isHex 64 artifact.sha256 && isSafeInteger artifact.size && artifact.size > 0)
    "INVALID_ARTIFACT" "The release artifact has no valid integrity metadata."
  if artifact.kind = .oci then
    check (artifact.url = "ghcr.io/" ++ officialRepository component ++ "@sha256:" ++ artifact.sha256)
      "UNTRUSTED_SOURCE" "Only digest-pinned official images are accepted."
  else
    check (artifact.kind = .archive && isArchiveName artifact.name)
      "INVALID_ARTIFACT" "The release archive format is unsupported."
    check (artifact.url = "https://github.com/" ++ officialRepository component ++
        "/releases/download/" ++ tag ++ "/" ++ artifact.name)
      "UNTRUSTED_SOURCE" "Only official release archives are accepted."

def assertArtifacts (artifacts : List Artifact) (component : Component)
    (release : OfficialRelease) : Except Failure Unit :=
  artifacts.forM fun artifact ↦ do
    assertArtifact artifact component release.tagName
    if artifact.kind = .archive then
      check (release.assets.any fun asset ↦ asset.name = artifact.name &&
          asset.browserDownloadUrl = artifact.url && asset.size = artifact.size)
        "ARTIFACTS_PENDING" "A declared release archive is missing."

def validateManifest (manifest : Manifest) (component : Component) (release : OfficialRelease)
    (commit : String) : Except Failure Manifest := do
  check (isStableRelease release) "NON_STABLE_RELEASE"
    "The selected release is not an official stable release."
  check (manifest.schemaVersion = 1 && manifest.component = componentName component &&
      manifest.repository = officialRepository component)
    "INVALID_MANIFEST" "The official update manifest is invalid."
  check (manifest.releaseId = release.id && manifest.tag = release.tagName &&
      manifest.version = tagVersion release.tagName && manifest.publishedAt = release.publishedAt)
    "RELEASE_CHANGED" "The release identity changed. Preview the update again."
  check (isHex 40 manifest.sourceCommit && manifest.sourceCommit = commit)
    "RELEASE_CHANGED" "The release source does not match its tag."
  check (manifest.updaterProtocol = 1 && manifest.maintenanceProtocol = 1 &&
      manifest.bundleFormat = 1)
    "PROTOCOL_UNSUPPORTED" "The release requires an unsupported updater protocol."
  check (acceptsRange manifest.peerVersionRange) "COMPATIBILITY_MISSING"
    "The release has no supported explicit compatibility range."
  check (manifest.artifacts.length > 0 && manifest.artifacts.length ≤ 32) "ARTIFACTS_PENDING"
    "The release artifacts are not complete."
  assertArtifacts manifest.artifacts component release
  pure manifest

def selects (platform : Platform) (kind : ArtifactKind) (artifact : Artifact) : Bool :=
  artifact.kind = kind && artifact.platform = some platform

def selectArtifact (manifest : Manifest) (platform : Platform) (kind : ArtifactKind) :
    Except Failure Artifact :=
  match manifest.artifacts.filter (selects platform kind) with
  | [artifact] => .ok artifact
  | _ => .error (.update "ARTIFACTS_PENDING"
    "Exactly one artifact for this installation platform is required.")

section Validation

variable {manifest accepted : Manifest} {component : Component} {release : OfficialRelease}
  {commit : String} {platform : Platform} {kind : ArtifactKind} {artifact : Artifact}

theorem check_eq_ok {condition : Bool} {code message : String} :
    check condition code message = .ok () ↔ condition = true := by
  rw [check, refuseIf_eq_ok, Bool.not_eq_false']

/-- A manifest that is accepted has a version and a range that can be compared. -/
theorem validateManifest_ok (h : validateManifest manifest component release commit = .ok accepted) :
    accepted = manifest ∧ isStableVersion manifest.version = true ∧
      acceptsRange manifest.peerVersionRange = true := by
  simp only [validateManifest, bind_eq_ok, exists_unit, check_eq_ok, pure_eq_ok] at h
  obtain ⟨hrelease, -, hidentity, -, -, hrange, -, -, heq⟩ := h
  simp only [isStableRelease, Bool.and_eq_true] at hrelease
  simp only [Bool.and_eq_true, decide_eq_true_eq] at hidentity
  obtain ⟨⟨⟨⟨⟨-, -⟩, hstable⟩, -⟩, -⟩, -⟩ := hrelease
  obtain ⟨⟨⟨-, -⟩, hversion⟩, -⟩ := hidentity
  exact ⟨heq.symm, hversion ▸ hstable, hrange⟩

theorem selectArtifact_eq_ok : selectArtifact manifest platform kind = .ok artifact ↔
    manifest.artifacts.filter (selects platform kind) = [artifact] := by
  rw [selectArtifact]
  split
  · next found hf => simp [hf]
  · next hno =>
    constructor
    · intro h
      cases h
    · intro h
      exact (hno artifact h).elim

end Validation

end RustdeskConsole.Releases
