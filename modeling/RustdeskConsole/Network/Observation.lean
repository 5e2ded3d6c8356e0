import RustdeskConsole.Collections.Numeral
import RustdeskConsole.Serialization.Json

namespace RustdeskConsole.Network

open Serialization

/-- The texts of an enumeration. -/
structure Names (α : Type) where
  all : List α
  text : α → String
  find : ∀ a, all.find? (fun b ↦ (text b).toList = (text a).toList) = some a

inductive Kind
  | system
  | connection
  deriving DecidableEq

inductive Status
  | identified
  | mixed
  | unavailable
  | notApplicable
  deriving DecidableEq

inductive Reason
  | permissionDenied
  | toolUnavailable
  | sourceUnavailable
  | invalidResponse
  | platformUnobservable
  | namespaceUnobservable
  | proxyUnobservable
  | connectionNotFound
  | ambiguousConnection
  | notConnected
  | notTcp
  | systemSelected
  deriving DecidableEq

inductive SystemName
  | linux
  | windows
  | macos
  | unknown
  deriving DecidableEq

inductive Deployment
  | native
  | container
  | kubernetes
  | unknown
  deriving DecidableEq

inductive NetworkMode
  | host
  | bridge
  | isolated
  | unknown
  deriving DecidableEq

inductive Scope
  | host
  | container
  | namespace
  | unknown
  deriving DecidableEq

inductive Source
  | sysctl
  | ss
  | powershell
  | unobserved
  deriving DecidableEq

def kinds : Names Kind where
  all := [.system, .connection]
  text
    | .system => "system"
    | .connection => "connection"
  find a := by cases a <;> decide

def statuses : Names Status where
  all := [.identified, .mixed, .unavailable, .notApplicable]
  text
    | .identified => "identified"
    | .mixed => "mixed"
    | .unavailable => "unavailable"
    | .notApplicable => "not_applicable"
  find a := by cases a <;> decide

def reasons : Names Reason where
  all := [.permissionDenied, .toolUnavailable, .sourceUnavailable, .invalidResponse,
    .platformUnobservable, .namespaceUnobservable, .proxyUnobservable, .connectionNotFound,
    .ambiguousConnection, .notConnected, .notTcp, .systemSelected]
  text
    | .permissionDenied => "permission_denied"
    | .toolUnavailable => "tool_unavailable"
    | .sourceUnavailable => "source_unavailable"
    | .invalidResponse => "invalid_response"
    | .platformUnobservable => "platform_unobservable"
    | .namespaceUnobservable => "namespace_unobservable"
    | .proxyUnobservable => "proxy_unobservable"
    | .connectionNotFound => "connection_not_found"
    | .ambiguousConnection => "ambiguous_connection"
    | .notConnected => "not_connected"
    | .notTcp => "not_tcp"
    | .systemSelected => "system_selected"
  find a := by cases a <;> decide

def systems : Names SystemName where
  all := [.linux, .windows, .macos, .unknown]
  text
    | .linux => "linux"
    | .windows => "windows"
    | .macos => "macos"
    | .unknown => "unknown"
  find a := by cases a <;> decide

def deployments : Names Deployment where
  all := [.native, .container, .kubernetes, .unknown]
  text
    | .native => "native"
    | .container => "container"
    | .kubernetes => "kubernetes"
    | .unknown => "unknown"
  find a := by cases a <;> decide

def networkModes : Names NetworkMode where
  all := [.host, .bridge, .isolated, .unknown]
  text
    | .host => "host"
    | .bridge => "bridge"
    | .isolated => "isolated"
    | .unknown => "unknown"
  find a := by cases a <;> decide

def scopes : Names Scope where
  all := [.host, .container, .namespace, .unknown]
  text
    | .host => "host"
    | .container => "container"
    | .namespace => "namespace"
    | .unknown => "unknown"
  find a := by cases a <;> decide

def sources : Names Source where
  all := [.sysctl, .ss, .powershell, .unobserved]
  text
    | .sysctl => "sysctl"
    | .ss => "ss"
    | .powershell => "powershell"
    | .unobserved => "unobserved"
  find a := by cases a <;> decide

structure Environment where
  system : SystemName
  release : Option Text
  deployment : Deployment
  networkMode : NetworkMode
  scope : Scope
  source : Source
  deriving DecidableEq

structure Profile where
  name : Text
  algorithm : Option Text
  deriving DecidableEq

structure TcpObservation where
  kind : Kind
  status : Status
  algorithm : Option Text
  algorithms : List Text
  algorithmsVerified : Bool
  profiles : List Profile
  reason : Option Reason
  environment : Environment
  observedAt : Text
  deriving DecidableEq

def unknownEnvironment : Environment where
  system := .unknown
  release := none
  deployment := .unknown
  networkMode := .unknown
  scope := .unknown
  source := .unobserved

def unavailable (now : Text) (kind : Kind) (reason : Reason) (environment : Environment) :
    TcpObservation where
  kind := kind
  status := .unavailable
  algorithm := none
  algorithms := []
  algorithmsVerified := false
  profiles := []
  reason := some reason
  environment := environment
  observedAt := now

section Texts

def isMark (c : Char) : Bool := c = '_' || c = '.' || c = '-'

/-- `/^[a-zA-Z0-9][a-zA-Z0-9_.-]{0,63}$/` -/
def validAlgorithm : Text → Bool
  | [] => false
  | c :: rest => c.isAlphanum && rest.length ≤ 63 && rest.all fun c ↦ c.isAlphanum || isMark c

/-- `/^[a-zA-Z0-9 _.-]{1,64}$/` -/
def validName (text : Text) : Bool :=
  text ≠ [] && text.length ≤ 64 && text.all fun c ↦ c.isAlphanum || c = ' ' || isMark c

def validRelease (text : Text) : Bool :=
  Collections.utf16Length (String.ofList text) ≤ 128 && text.all fun c ↦ 0x20 ≤ c.toNat

end Texts

section Parsing

variable {α : Type}

def Names.read (names : Names α) : Value → Option α
  | .string text => names.all.find? fun a ↦ (names.text a).toList = text
  | _ => none

def readText (valid : Text → Bool) : Value → Option Text
  | .string text => if valid text then some text else none
  | _ => none

def readBool : Value → Option Bool
  | .bool b => some b
  | _ => none

/-- `null` is read as none. -/
def nullable (read : Value → Option α) : Value → Option (Option α)
  | .null => some none
  | value => (read value).map some

/-- All elements of an array that is not too long. -/
def readArray (limit : ℕ) (read : Value → Option α) : Value → Option (List α)
  | .array elements => if elements.length ≤ limit then elements.mapM read else none
  | _ => none

def readProfile (value : Value) : Option Profile := do
  let name ← (value.get? "name").bind (readText validName)
  let algorithm ← (value.get? "algorithm").bind (nullable (readText validAlgorithm))
  some { name, algorithm }

def readEnvironment (value : Value) : Option Environment := do
  let system ← (value.get? "system").bind systems.read
  let deployment ← (value.get? "deployment").bind deployments.read
  let scope ← (value.get? "scope").bind scopes.read
  let source ← (value.get? "source").bind sources.read
  let networkMode ← (value.get? "network_mode").bind networkModes.read
  let release ← (value.get? "release").bind (nullable (readText validRelease))
  some { system, release, deployment, networkMode, scope, source }

/-- What the fields must be for each other. -/
def TcpObservation.consistent (o : TcpObservation) : Bool :=
  (if o.status = .identified then o.algorithm.isSome && o.reason.isNone
    else o.algorithm.isNone) &&
  (o.status ≠ .unavailable || o.reason.isSome) &&
  (o.status ≠ .mixed || (o.kind = .system && o.reason.isNone && 2 ≤ o.profiles.length)) &&
  (o.status ≠ .notApplicable || (o.kind = .connection && o.reason = some .notTcp))

def parseObservation (isDate : Text → Bool) (value : Value) : Option TcpObservation := do
  let version ← value.get? "api_version"
  match version with
  | .integer 1 =>
    let kind ← (value.get? "kind").bind kinds.read
    let status ← (value.get? "status").bind statuses.read
    let reason ← (value.get? "reason").bind (nullable reasons.read)
    let algorithm ← (value.get? "algorithm").bind (nullable (readText validAlgorithm))
    let algorithms ← (value.get? "algorithms").bind (readArray 128 (readText validAlgorithm))
    if !decide algorithms.Nodup then none
    else do
      let algorithmsVerified ← (value.get? "algorithms_verified").bind readBool
      let profiles ← (value.get? "profiles").bind (readArray 32 readProfile)
      let observedAt ← (value.get? "observed_at").bind (readText isDate)
      let environment ← (value.get? "environment").bind readEnvironment
      let o : TcpObservation := ⟨kind, status, algorithm, algorithms, algorithmsVerified, profiles,
        reason, environment, observedAt⟩
      if o.consistent then some o else none
  | _ => none

end Parsing

section Writing

def nullableText : Option Text → Value
  | none => .null
  | some text => .string text

def Profile.toValue (p : Profile) : Value :=
  .object [("name".toList, .string p.name), ("algorithm".toList, nullableText p.algorithm)]

def Environment.toValue (e : Environment) : Value :=
  .object [("system".toList, .string (systems.text e.system).toList),
    ("release".toList, nullableText e.release),
    ("deployment".toList, .string (deployments.text e.deployment).toList),
    ("network_mode".toList, .string (networkModes.text e.networkMode).toList),
    ("scope".toList, .string (scopes.text e.scope).toList),
    ("source".toList, .string (sources.text e.source).toList)]

def TcpObservation.toValue (o : TcpObservation) : Value :=
  .object [("api_version".toList, .integer 1),
    ("kind".toList, .string (kinds.text o.kind).toList),
    ("status".toList, .string (statuses.text o.status).toList),
    ("algorithm".toList, nullableText o.algorithm),
    ("algorithms".toList, .array (o.algorithms.map .string)),
    ("algorithms_verified".toList, .bool o.algorithmsVerified),
    ("profiles".toList, .array (o.profiles.map Profile.toValue)),
    ("reason".toList, nullableText (o.reason.map fun reason ↦ (reasons.text reason).toList)),
    ("environment".toList, o.environment.toValue),
    ("observed_at".toList, .string o.observedAt)]

end Writing

/-- What holds of an observation that is accepted. -/
structure Valid (isDate : Text → Bool) (o : TcpObservation) : Prop where
  algorithm : ∀ algorithm ∈ o.algorithm, validAlgorithm algorithm = true
  length : o.algorithms.length ≤ 128
  algorithms : ∀ algorithm ∈ o.algorithms, validAlgorithm algorithm = true
  nodup : o.algorithms.Nodup
  profiles_length : o.profiles.length ≤ 32
  profiles : ∀ p ∈ o.profiles, validName p.name = true ∧
    ∀ algorithm ∈ p.algorithm, validAlgorithm algorithm = true
  observedAt : isDate o.observedAt = true
  release : ∀ release ∈ o.environment.release, validRelease release = true
  consistent : o.consistent = true

section Proofs

variable {α : Type} {isDate : Text → Bool} {o : TcpObservation} {value : Value} {text : Text}
  {valid : Text → Bool} {read : Value → Option α} {write : α → Value} {limit : ℕ}

theorem read_text {names : Names α} {a : α} : names.read (.string (names.text a).toList) = some a :=
  names.find a

theorem readText_eq_some : readText valid value = some text ↔
    value = .string text ∧ valid text = true := by
  cases value <;> simp [readText]
  constructor
  · rintro ⟨hvalid, rfl⟩
    exact ⟨rfl, hvalid⟩
  · rintro ⟨rfl, hvalid⟩
    exact ⟨hvalid, rfl⟩

theorem readText_string : readText valid (.string text) = some text ↔ valid text = true := by
  rw [readText_eq_some]
  simp

/-- What is read from a nullable field is null or was read. -/
theorem nullable_eq_some {a : Option α} (h : nullable read value = some a) :
    ∀ b ∈ a, read value = some b := by
  cases value <;> simp [nullable] at h <;> grind

theorem nullable_text {text? : Option Text} :
    nullable (readText valid) (nullableText text?) = some text? ↔
      ∀ text ∈ text?, valid text = true := by
  cases text? <;> simp [nullable, nullableText, readText]

theorem nullable_name {names : Names α} {a : Option α} :
    nullable names.read (nullableText (a.map fun a ↦ (names.text a).toList)) = some a := by
  cases a with
  | none => rfl
  | some a => exact congrArg (Option.map some) read_text

theorem mapM_cons_eq_some {β : Type} {f : α → Option β} {a : α} {as : List α} {bs : List β} :
    (a :: as).mapM f = some bs ↔ ∃ b bs', f a = some b ∧ as.mapM f = some bs' ∧ bs = b :: bs' := by
  simp only [List.mapM_cons, Option.bind_eq_bind, Option.bind_eq_some_iff, Option.pure_def,
    Option.some.injEq]
  constructor
  · rintro ⟨b, hb, bs', hbs, rfl⟩
    exact ⟨b, bs', hb, hbs, rfl⟩
  · rintro ⟨b, bs', hb, hbs, rfl⟩
    exact ⟨b, hb, bs', hbs, rfl⟩

theorem mapM_map {as : List α} : (as.map write).mapM read = some as ↔
    ∀ a ∈ as, read (write a) = some a := by
  induction as with
  | nil => simp
  | cons a as ih =>
    rw [List.map_cons, mapM_cons_eq_some, List.forall_mem_cons, ← ih]
    constructor
    · rintro ⟨b, bs, hb, hbs, heq⟩
      obtain ⟨rfl, rfl⟩ := List.cons.inj heq
      exact ⟨hb, hbs⟩
    · exact fun h ↦ ⟨a, as, h.1, h.2, rfl⟩

theorem mem_mapM {elements : List Value} {as : List α} (h : elements.mapM read = some as) :
    as.length = elements.length ∧ ∀ a ∈ as, ∃ element, read element = some a := by
  induction elements generalizing as with
  | nil =>
    obtain rfl : [] = as := Option.some.inj h
    exact ⟨rfl, nofun⟩
  | cons element elements ih =>
    obtain ⟨a, as', ha, has, rfl⟩ := mapM_cons_eq_some.mp h
    obtain ⟨hlength, hread⟩ := ih has
    exact ⟨congrArg Nat.succ hlength, List.forall_mem_cons.mpr ⟨⟨element, ha⟩, hread⟩⟩

theorem readArray_eq_some {as : List α} (h : readArray limit read value = some as) :
    as.length ≤ limit ∧ ∀ a ∈ as, ∃ element, read element = some a := by
  cases value with
  | array elements =>
    rw [readArray] at h
    split at h
    · next hle =>
      obtain ⟨hlength, hread⟩ := mem_mapM h
      exact ⟨hlength ▸ hle, hread⟩
    · cases h
  | null | bool | integer | fraction | string | object => cases h

theorem readArray_map {as : List α} : readArray limit read (.array (as.map write)) = some as ↔
    as.length ≤ limit ∧ ∀ a ∈ as, read (write a) = some a := by
  rw [readArray, List.length_map]
  split
  · next hle => rw [mapM_map, and_iff_right hle]
  · next hlt => simp [hlt]

theorem readProfile_eq_some {p : Profile} (h : readProfile value = some p) :
    validName p.name = true ∧ ∀ algorithm ∈ p.algorithm, validAlgorithm algorithm = true := by
  simp only [readProfile, Option.bind_eq_bind, Option.bind_eq_some_iff, Option.some.injEq] at h
  obtain ⟨name, ⟨nameField, -, hname⟩, algorithm, ⟨algorithmField, -, halgorithm⟩, rfl⟩ := h
  refine ⟨(readText_eq_some.mp hname).2, fun text ht ↦ ?_⟩
  exact (readText_eq_some.mp (nullable_eq_some halgorithm text ht)).2

theorem readProfile_toValue {p : Profile} : readProfile p.toValue = some p ↔
    validName p.name = true ∧ ∀ algorithm ∈ p.algorithm, validAlgorithm algorithm = true := by
  refine ⟨readProfile_eq_some, fun h ↦ ?_⟩
  have hname : (p.toValue.get? "name").bind (readText validName) = some p.name :=
    readText_string.mpr h.1
  have halgorithm : (p.toValue.get? "algorithm").bind (nullable (readText validAlgorithm)) =
      some p.algorithm := nullable_text.mpr h.2
  rw [readProfile, hname, halgorithm]
  rfl

theorem readEnvironment_eq_some {e : Environment} (h : readEnvironment value = some e) :
    ∀ release ∈ e.release, validRelease release = true := by
  simp only [readEnvironment, Option.bind_eq_bind, Option.bind_eq_some_iff, Option.some.injEq] at h
  obtain ⟨_, -, _, -, _, -, _, -, _, -, release, ⟨field, -, hrelease⟩, rfl⟩ := h
  exact fun text ht ↦ (readText_eq_some.mp (nullable_eq_some hrelease text ht)).2

theorem readEnvironment_toValue {e : Environment} : readEnvironment e.toValue = some e ↔
    ∀ release ∈ e.release, validRelease release = true := by
  refine ⟨readEnvironment_eq_some, fun h ↦ ?_⟩
  have hsystem : (e.toValue.get? "system").bind systems.read = some e.system := read_text
  have hdeployment : (e.toValue.get? "deployment").bind deployments.read = some e.deployment :=
    read_text
  have hscope : (e.toValue.get? "scope").bind scopes.read = some e.scope := read_text
  have hsource : (e.toValue.get? "source").bind sources.read = some e.source := read_text
  have hmode : (e.toValue.get? "network_mode").bind networkModes.read = some e.networkMode :=
    read_text
  have hrelease : (e.toValue.get? "release").bind (nullable (readText validRelease)) =
      some e.release := nullable_text.mpr h
  rw [readEnvironment, hsystem, hdeployment, hscope, hsource, hmode, hrelease]
  rfl

/-- What is accepted is valid. -/
theorem valid_of_parse (h : parseObservation isDate value = some o) : Valid isDate o := by
  rw [parseObservation, Option.bind_eq_bind, Option.bind_eq_some_iff] at h
  obtain ⟨version, -, h⟩ := h
  split at h
  · simp only [Option.bind_eq_bind, Option.bind_eq_some_iff] at h
    obtain ⟨kind, -, status, -, reason, -, algorithm, ⟨algorithmField, -, halgorithm⟩, algorithms,
      ⟨algorithmsField, -, halgorithms⟩, h⟩ := h
    split at h
    · cases h
    · next hnodup =>
      simp only [Option.bind_eq_some_iff] at h
      obtain ⟨verified, -, profiles, ⟨profilesField, -, hprofiles⟩, observedAt,
        ⟨dateField, -, hdate⟩, environment, ⟨environmentField, -, henvironment⟩, h⟩ := h
      split at h
      · next hconsistent =>
        obtain rfl := Option.some.inj h
        obtain ⟨hlength, helements⟩ := readArray_eq_some halgorithms
        obtain ⟨hlength', helements'⟩ := readArray_eq_some hprofiles
        refine ⟨fun text ht ↦ ?_, hlength, fun text ht ↦ ?_, by simpa using hnodup, hlength',
          fun p hp ↦ ?_, (readText_eq_some.mp hdate).2, readEnvironment_eq_some henvironment,
          hconsistent⟩
        · exact (readText_eq_some.mp (nullable_eq_some halgorithm text ht)).2
        · obtain ⟨element, helement⟩ := helements text ht
          exact (readText_eq_some.mp helement).2
        · obtain ⟨element, helement⟩ := helements' p hp
          exact readProfile_eq_some helement
      · cases h
  · cases h

theorem parse_of_valid (h : Valid isDate o) : parseObservation isDate o.toValue = some o := by
  have hversion : o.toValue.get? "api_version" = some (.integer 1) := rfl
  have hkind : (o.toValue.get? "kind").bind kinds.read = some o.kind := read_text
  have hstatus : (o.toValue.get? "status").bind statuses.read = some o.status := read_text
  have hreason : (o.toValue.get? "reason").bind (nullable reasons.read) = some o.reason :=
    nullable_name
  have halgorithm : (o.toValue.get? "algorithm").bind (nullable (readText validAlgorithm)) =
      some o.algorithm := nullable_text.mpr h.algorithm
  have halgorithms : (o.toValue.get? "algorithms").bind
      (readArray 128 (readText validAlgorithm)) = some o.algorithms :=
    readArray_map.mpr ⟨h.length, fun text ht ↦ readText_string.mpr (h.algorithms text ht)⟩
  have hverified : (o.toValue.get? "algorithms_verified").bind readBool =
      some o.algorithmsVerified := rfl
  have hprofiles : (o.toValue.get? "profiles").bind (readArray 32 readProfile) =
      some o.profiles :=
    readArray_map.mpr ⟨h.profiles_length, fun p hp ↦ readProfile_toValue.mpr (h.profiles p hp)⟩
  have hdate : (o.toValue.get? "observed_at").bind (readText isDate) = some o.observedAt :=
    readText_string.mpr h.observedAt
  have henvironment : (o.toValue.get? "environment").bind readEnvironment = some o.environment :=
    readEnvironment_toValue.mpr h.release
  rw [parseObservation, hversion, hkind, hstatus, hreason, halgorithm, halgorithms, hverified,
    hprofiles, hdate, henvironment]
  simp [h.nodup, h.consistent]

theorem valid_iff : parseObservation isDate o.toValue = some o ↔ Valid isDate o :=
  ⟨valid_of_parse, parse_of_valid⟩

theorem elementsWellFormed_map {as : List α} (h : ∀ a, (write a).WellFormed) :
    ElementsWellFormed (as.map write) := by
  induction as with
  | nil => trivial
  | cons a as ih => exact ⟨h a, ih⟩

theorem nullableText_wellFormed {text? : Option Text} : (nullableText text?).WellFormed := by
  cases text? <;> trivial

theorem Profile.toValue_wellFormed {p : Profile} : p.toValue.WellFormed :=
  have hkeys : (["name", "algorithm"].map String.toList).Nodup := by decide
  ⟨hkeys, trivial, nullableText_wellFormed, trivial⟩

theorem Environment.toValue_wellFormed {e : Environment} : e.toValue.WellFormed :=
  have hkeys : (["system", "release", "deployment", "network_mode", "scope", "source"].map
    String.toList).Nodup := by decide
  ⟨hkeys, trivial, nullableText_wellFormed, trivial, trivial, trivial, trivial, trivial⟩

theorem toValue_wellFormed : o.toValue.WellFormed :=
  have hkeys : (["api_version", "kind", "status", "algorithm", "algorithms", "algorithms_verified",
    "profiles", "reason", "environment", "observed_at"].map String.toList).Nodup := by decide
  ⟨hkeys, trivial, trivial, trivial, nullableText_wellFormed,
    elementsWellFormed_map fun _ ↦ trivial, trivial,
    elementsWellFormed_map fun _ ↦ Profile.toValue_wellFormed, nullableText_wellFormed,
    Environment.toValue_wellFormed, trivial, trivial⟩

/-- The form of a date that has been written in full, which `Date.parse` takes. -/
def isIsoDate (text : Text) : Bool :=
  text.length = 24 && (text.zip "0000-00-00T00:00:00.000Z".toList).all fun (c, d) ↦
    if d = '0' then c.isDigit else c = d

def sampleObservation : TcpObservation where
  kind := .system
  status := .identified
  algorithm := some "cubic".toList
  algorithms := ["reno".toList, "cubic".toList]
  algorithmsVerified := true
  profiles := []
  reason := none
  environment := unknownEnvironment
  observedAt := "2026-03-01T08:30:00.000Z".toList

/-- Whatever is accepted is valid, and what is made of it is accepted as it is, also
when it has been sent as text. -/
theorem accepted_rebuilt (h : parseObservation isDate value = some o) :
    Valid isDate o ∧ parseObservation isDate o.toValue = some o ∧
      (parse (stringify o.toValue)).bind (parseObservation isDate) = some o := by
  have hvalid := valid_of_parse h
  refine ⟨hvalid, parse_of_valid hvalid, ?_⟩
  rw [parse_stringify toValue_wellFormed]
  exact parse_of_valid hvalid

theorem sample_rebuilt : Valid isIsoDate sampleObservation ∧
    parseObservation isIsoDate sampleObservation.toValue = some sampleObservation ∧
      (parse (stringify sampleObservation.toValue)).bind (parseObservation isIsoDate) =
        some sampleObservation :=
  accepted_rebuilt (by decide : parseObservation isIsoDate sampleObservation.toValue =
    some sampleObservation)

end Proofs

end RustdeskConsole.Network
