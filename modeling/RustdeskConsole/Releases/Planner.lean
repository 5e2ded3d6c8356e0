import RustdeskConsole.Releases.Manifest

namespace RustdeskConsole.Releases

open Function Collections Effects.Guard
open Updater (Component DeploymentKind DatabaseKind Blocker Failure safeError)

structure Installed where
  version : String
  sourceCommit : String
  artifact : Artifact
  manifest : Manifest
  deriving DecidableEq

structure Installation where
  installationId : String
  deployment : DeploymentKind
  platform : Platform
  database : DatabaseKind
  current : Component → Installed

/-- What the adapters, the catalog and the store answer to one planning. -/
structure Environment where
  deploymentPreflight : Except Failure (List Blocker)
  backupPreflight : Except Failure (List Blocker)
  latest : Component → Except Failure Manifest
  fingerprint : Except Failure String
  digest : Manifest → String
  savePlan : Except Failure Unit
  planId : String
  createdAt : ℕ

structure ComponentChange where
  component : Component
  updates : Bool
  current : String
  target : String
  releaseUrl : String

structure Plan where
  installationId : String
  planId : String
  createdAt : ℕ
  expiresAt : ℕ
  components : List ComponentChange
  changes : Bool
  downtime : Bool
  database : DatabaseKind
  method : String
  blockers : List Blocker
  executable : Bool

structure StoredPlan where
  view : Plan
  targets : Component → Installed
  installationFingerprint : String
  manifestDigests : Component → String

def toBlocker (failure : Failure) : Blocker :=
  let (code, message) := safeError failure
  ⟨code, message⟩

def artifactKind : DeploymentKind → ArtifactKind
  | .managedCompose => .oci
  | .managedLinux => .archive

variable (i : Installation) (e : Environment)

def preflight : Except Failure (List Blocker) := do
  let deployment ← e.deploymentPreflight
  let backup ← e.backupPreflight
  pure (deployment ++ backup)

def blockers : List Blocker :=
  match preflight e with
  | .ok found => found
  | .error failure => [toBlocker failure]

/-- The latest release of a component, if it is above the installed one. -/
def latestAbove (component : Component) (installed : Installed) :
    Except Failure (Option Installed) := do
  let manifest ← e.latest component
  let order ← compareVersions manifest.version installed.version
  if order > 0 then
    let artifact ← selectArtifact manifest i.platform (artifactKind i.deployment)
    pure (some ⟨manifest.version, manifest.sourceCommit, artifact, manifest⟩)
  else pure none

/-- The targets and the blockers after one component. -/
def upgrade (state : (Component → Installed) × List Blocker) (component : Component) :
    (Component → Installed) × List Blocker :=
  match latestAbove i e component (state.1 component) with
  | .ok (some target) => (update state.1 component target, state.2)
  | .ok none => state
  | .error failure => (state.1, state.2 ++ [toBlocker failure])

def mutuallyCompatible (targets : Component → Installed) : Except Failure Bool := do
  let web ← satisfies (targets .web).version (targets .backend).manifest.peerVersionRange
  if !web then
    return false
  satisfies (targets .backend).version (targets .web).manifest.peerVersionRange

def incompatibleReleases : Blocker :=
  ⟨"INCOMPATIBLE_RELEASES",
    "The latest official frontend and backend releases are not mutually compatible."⟩

def componentChange (targets : Component → Installed) (component : Component) :
    ComponentChange where
  component := component
  updates := (targets component).version ≠ (i.current component).version
  current := (i.current component).version
  target := (targets component).version
  releaseUrl := "https://github.com/" ++ (targets component).manifest.repository ++
    "/releases/tag/" ++ (targets component).manifest.tag

def backupMethod : DatabaseKind → String
  | .sqlite => "consistent-sqlite-and-business-files"
  | .mysql => "dedicated-schema-dump-and-business-files"

/-- The plan that `create` saves, whose view it returns. -/
def create : Except Failure StoredPlan := do
  let (targets, found) := [Component.backend, .web].foldl (upgrade i e) (i.current, blockers e)
  let compatible ← mutuallyCompatible targets
  let found := if compatible then found else found ++ [incompatibleReleases]
  let components := [Component.backend, .web].map (componentChange i targets)
  let changes := components.any (·.updates)
  let fingerprint ← e.fingerprint
  let plan : StoredPlan :=
    { view :=
        { installationId := i.installationId
          planId := e.planId
          createdAt := e.createdAt
          expiresAt := e.createdAt + 15 * 60000
          components := components
          changes := changes
          downtime := changes
          database := i.database
          method := backupMethod i.database
          blockers := found
          executable := changes && found.isEmpty }
      targets := targets
      installationFingerprint := fingerprint
      manifestDigests := fun component ↦ e.digest (targets component).manifest }
  e.savePlan
  pure plan

section Soundness

/-- A version that can be compared is above another. -/
def Above (version other : String) : Prop := ∃ k, compareVersions version other = .ok k ∧ 0 < k

/-- The latest release of a component, with the only artifact that fits. -/
def Released (component : Component) (target : Installed) : Prop :=
  ∃ manifest, e.latest component = .ok manifest ∧ target.manifest = manifest ∧
    target.version = manifest.version ∧ target.sourceCommit = manifest.sourceCommit ∧
      manifest.artifacts.filter (selects i.platform (artifactKind i.deployment)) = [target.artifact]

structure Sound (targets : Component → Installed) : Prop where
  notDowngraded : ∀ component, (targets component).version = (i.current component).version ∨
    Above (targets component).version (i.current component).version
  upgraded : ∃ component, Above (targets component).version (i.current component).version
  web : satisfies (targets .web).version (targets .backend).manifest.peerVersionRange = .ok true
  backend : satisfies (targets .backend).version (targets .web).manifest.peerVersionRange =
    .ok true
  changed : ∀ component, (targets component).version ≠ (i.current component).version →
    Released i e component (targets component)
  unchanged : ∀ component, (targets component).version = (i.current component).version →
    targets component = i.current component

/-- A component is kept, or taken to a later release. -/
def Proper (component : Component) (target : Installed) : Prop :=
  target = i.current component ∨ Above target.version (i.current component).version ∧
    Released i e component target

variable {i e}

theorem Above.ne {version other : String} (h : Above version other) : version ≠ other := by
  rintro rfl
  obtain ⟨k, hk, hpos⟩ := h
  have hstable := (stable_of_compared hk).1
  obtain ⟨k', hk', -, hzero, -⟩ := compareVersions_spec ⟨version, hstable⟩ ⟨version, hstable⟩
  obtain rfl : k = k' := Except.ok.inj (hk.symm.trans hk')
  have heq := hzero.mpr rfl
  omega

theorem latestAbove_some {component : Component} {target : Installed}
    (h : latestAbove i e component (i.current component) = .ok (some target)) :
    Proper i e component target := by
  obtain ⟨manifest, hlatest, h⟩ := bind_eq_ok.mp h
  obtain ⟨order, horder, h⟩ := bind_eq_ok.mp h
  split at h
  · next hpos =>
    obtain ⟨artifact, hartifact, h⟩ := bind_eq_ok.mp h
    cases h
    exact .inr ⟨⟨order, horder, hpos⟩, manifest, hlatest, rfl, rfl, rfl,
      selectArtifact_eq_ok.mp hartifact⟩
  · cases h

/-- A component that adds no blocker is treated properly, and no other is touched. -/
theorem upgrade_spec {state : (Component → Installed) × List Blocker} {component : Component}
    (hs : state.1 component = i.current component) (hb : (upgrade i e state component).2 = []) :
    state.2 = [] ∧ (∀ other, other ≠ component →
      (upgrade i e state component).1 other = state.1 other) ∧
      Proper i e component ((upgrade i e state component).1 component) := by
  rw [upgrade, hs] at hb ⊢
  split at hb
  · next target h =>
    refine ⟨hb, fun other hne ↦ update_of_ne hne .., ?_⟩
    dsimp only
    rw [update_self]
    exact latestAbove_some h
  · exact ⟨hb, fun other _ ↦ rfl, .inl hs⟩
  · simp at hb

/-- Without a blocker both components are treated properly. -/
theorem targets_spec (hb : ([Component.backend, .web].foldl (upgrade i e)
    (i.current, blockers e)).2 = []) (component : Component) :
    Proper i e component (([Component.backend, .web].foldl (upgrade i e)
      (i.current, blockers e)).1 component) := by
  rw [List.foldl_cons, List.foldl_cons, List.foldl_nil] at hb ⊢
  generalize hfirst : upgrade i e (i.current, blockers e) .backend = first at hb ⊢
  have hcurrent : first.1 .web = i.current .web := by
    rw [← hfirst, upgrade]
    split
    · next target _ => exact update_of_ne (show Component.web ≠ .backend by decide) target i.current
    · rfl
    · rfl
  obtain ⟨hempty, hother, hweb⟩ := upgrade_spec hcurrent hb
  rw [← hfirst] at hempty
  obtain ⟨-, -, hbackend⟩ := upgrade_spec rfl hempty
  cases component with
  | backend =>
    rw [hother .backend (by decide), ← hfirst]
    exact hbackend
  | web => exact hweb

theorem mutuallyCompatible_true {targets : Component → Installed}
    (h : mutuallyCompatible targets = .ok true) :
    satisfies (targets .web).version (targets .backend).manifest.peerVersionRange = .ok true ∧
      satisfies (targets .backend).version (targets .web).manifest.peerVersionRange = .ok true := by
  obtain ⟨web, hweb, h⟩ := bind_eq_ok.mp h
  cases web with
  | false => cases h
  | true => exact ⟨hweb, h⟩

theorem sound_of_proper {targets : Component → Installed}
    (hp : ∀ component, Proper i e component (targets component))
    (hc : ∃ component, (targets component).version ≠ (i.current component).version)
    (hm : mutuallyCompatible targets = .ok true) : Sound i e targets where
  notDowngraded component := by
    rcases hp component with h | ⟨h, -⟩
    · exact .inl (congrArg Installed.version h)
    · exact .inr h
  upgraded := by
    obtain ⟨component, hne⟩ := hc
    rcases hp component with h | ⟨h, -⟩
    · exact absurd (congrArg Installed.version h) hne
    · exact ⟨component, h⟩
  web := (mutuallyCompatible_true hm).1
  backend := (mutuallyCompatible_true hm).2
  changed component hne := by
    rcases hp component with h | ⟨-, h⟩
    · exact absurd (congrArg Installed.version h) hne
    · exact h
  unchanged component heq := by
    rcases hp component with h | ⟨h, -⟩
    · exact h
    · exact absurd heq h.ne

theorem create_sound {plan : StoredPlan} (h : create i e = .ok plan)
    (hx : plan.view.executable = true) : Sound i e plan.targets := by
  rw [create] at h
  have hspec := @targets_spec i e
  generalize [Component.backend, .web].foldl (upgrade i e) (i.current, blockers e) = state at h hspec
  obtain ⟨targets, found⟩ := state
  obtain ⟨compatible, hcompatible, h⟩ := bind_eq_ok.mp h
  obtain ⟨fingerprint, -, h⟩ := bind_eq_ok.mp h
  obtain ⟨saved, -, h⟩ := bind_eq_ok.mp h
  cases h
  obtain ⟨hchanges, hempty⟩ := Bool.and_eq_true_iff.mp hx
  cases compatible with
  | false => simp at hempty
  | true =>
    refine sound_of_proper (hspec (List.isEmpty_iff.mp hempty)) ?_ hcompatible
    obtain ⟨change, hm, hu⟩ := List.any_eq_true.mp hchanges
    obtain ⟨component, -, rfl⟩ := List.mem_map.mp hm
    exact ⟨component, of_decide_eq_true hu⟩

/-- An executable plan is sound, the versions are in a strict total order, and a range
that is accepted says what the comparators in its text say. -/
theorem executable_plan_sound :
    (∀ i e plan, create i e = .ok plan → plan.view.executable = true → Sound i e plan.targets) ∧
      IsStrictTotalOrder StableVersion Lower ∧
      (∀ v w : StableVersion, (Lower v w ↔ numbers v < numbers w) ∧
        ∃ k, compareVersions v w = .ok k ∧
          (k < 0 ↔ Lower v w) ∧ (k = 0 ↔ v = w) ∧ (0 < k ↔ Lower w v)) ∧
      ∀ manifest component release commit accepted,
        validateManifest manifest component release commit = .ok accepted →
          ∃ comparators, Says accepted.peerVersionRange comparators ∧
            (∀ others, Says accepted.peerVersionRange others → others = comparators) ∧
            ∀ v : StableVersion, ∃ answer, satisfies v accepted.peerVersionRange = .ok answer ∧
              (answer = true ↔ ∀ comparator ∈ comparators,
                ∃ bound : StableVersion, bound.val = comparator.bound ∧
                  comparator.operator.Holds v bound) := by
  refine ⟨fun i e plan ↦ create_sound, inferInstance,
    fun v w ↦ ⟨lower_iff, compareVersions_spec v w⟩, ?_⟩
  intro manifest component release commit accepted h
  obtain ⟨rfl, -, hrange⟩ := validateManifest_ok h
  exact ⟨_, (says_iff hrange).mpr rfl, fun others ↦ (says_iff hrange).mp,
    fun v ↦ everyTerm_spec v (accepts_terms hrange)⟩

end Soundness

def samplePlatform : Platform := ⟨"linux", "x64", "glibc"⟩

def sampleArtifact : Artifact := ⟨.oci, some samplePlatform, "console", "", "", 1⟩

def sampleManifest (component version range : String) : Manifest :=
  ⟨1, "", component, version, 1, version, "", "", range, 1, 1, 1, [sampleArtifact]⟩

def sampleInstalled (component : String) : Installed :=
  ⟨"1.9.0", "", sampleArtifact, sampleManifest component "1.9.0" ">=1.0.0 <2.0.0"⟩

def sampleInstallation : Installation where
  installationId := ""
  deployment := .managedCompose
  platform := samplePlatform
  database := .sqlite
  current component := sampleInstalled (componentName component)

def sampleEnvironment : Environment where
  deploymentPreflight := .ok []
  backupPreflight := .ok []
  latest
    | .backend => .ok (sampleManifest "backend" "1.10.0" ">=1.0.0")
    | .web => .ok (sampleManifest "web" "1.8.0" "1.0.0")
  fingerprint := .ok ""
  digest _ := ""
  savePlan := .ok ()
  planId := ""
  createdAt := 0

def sampleRelease : OfficialRelease := ⟨7, "v1.10.0", false, false, "2026-01-01", []⟩

def sampleCommit : String := String.ofList (List.replicate 40 'c')

def sampleImage : Artifact :=
  let digest := String.ofList (List.replicate 64 'd')
  ⟨.oci, some samplePlatform, "console",
    "ghcr.io/databk/rustdesk-console@sha256:" ++ digest, digest, 1⟩

def sampleAccepted : Manifest :=
  ⟨1, "databk/rustdesk-console", "backend", "1.10.0", 7, "v1.10.0", sampleCommit, "2026-01-01",
    " >=1.8.0\t<2.0.0 ", 1, 1, 1, [sampleImage]⟩

theorem sample_says : Says sampleAccepted.peerVersionRange
    [⟨.atLeast, "1.8.0"⟩, ⟨.below, "2.0.0"⟩] := by
  refine ⟨[">=1.8.0".toList, "<2.0.0".toList], spaced_iff.mpr (by decide +kernel), ?_⟩
  exact .cons ⟨by decide +kernel, ['>', '='], by decide, by decide +kernel⟩
    (.cons ⟨by decide +kernel, ['<'], by decide, by decide +kernel⟩ .nil)

theorem sample_plan_sound :
    (∃ plan, create sampleInstallation sampleEnvironment = .ok plan ∧
      plan.view.executable = true ∧ Sound sampleInstallation sampleEnvironment plan.targets) ∧
    ∀ v : StableVersion, ∃ answer, satisfies v sampleAccepted.peerVersionRange = .ok answer ∧
      (answer = true ↔ ∀ comparator ∈ [(⟨.atLeast, "1.8.0"⟩ : Comparator), ⟨.below, "2.0.0"⟩],
        ∃ bound : StableVersion, bound.val = comparator.bound ∧
          comparator.operator.Holds v bound) := by
  obtain ⟨hsound, -, -, hranges⟩ := executable_plan_sound
  constructor
  · have hplan : ((create sampleInstallation sampleEnvironment).toOption.map
        (·.view.executable)) = some true := by
      decide +kernel
    cases hcreate : create sampleInstallation sampleEnvironment with
    | error =>
      rw [hcreate] at hplan
      cases hplan
    | ok plan =>
      rw [hcreate] at hplan
      have hexecutable : plan.view.executable = true := Option.some.inj hplan
      exact ⟨plan, rfl, hexecutable, hsound _ _ plan hcreate hexecutable⟩
  · obtain ⟨comparators, -, honly, hanswers⟩ :=
      hranges sampleAccepted .backend sampleRelease sampleCommit sampleAccepted (by decide +kernel)
    obtain rfl := honly _ sample_says
    exact hanswers

end RustdeskConsole.Releases
