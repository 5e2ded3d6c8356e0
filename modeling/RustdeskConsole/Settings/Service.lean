import Mathlib.Data.Int.Notation
import Mathlib.Data.List.TakeWhile
import Mathlib.Tactic.MkIffOfInductiveProp
import RustdeskConsole.Collections.Numeral
import RustdeskConsole.Effects.Machine

namespace RustdeskConsole.Settings

open Collections Effects

section Keys

def watermarkEnabledKey := "general.watermarkEnabled"
def defaultLanguageKey := "general.defaultLanguage"
def jwtExpiryDaysKey := "general.jwtExpiryDays"
def auditRetentionDaysKey := "general.auditRetentionDays"
def siteFrontendUrlKey := "general.siteFrontendUrl"
def siteBackendUrlKey := "general.siteBackendUrl"
def webauthnEnabledKey := "general.webauthnEnabled"
def webauthnRpNameKey := "general.webauthnRpName"
def deviceCloneIsolationKey := "general.deviceCloneIsolation"

def allKeys : List String :=
  [watermarkEnabledKey, defaultLanguageKey, jwtExpiryDaysKey, auditRetentionDaysKey,
    siteFrontendUrlKey, siteBackendUrlKey, webauthnEnabledKey, webauthnRpNameKey,
    deviceCloneIsolationKey]

def defaultRpName := "RustDesk Console"
def defaultLanguage := "en-US"

end Keys

structure SystemSetting where
  value : String
  category : String
  isSensitive : Bool
  deriving DecidableEq

/-- The table of the settings, by key. -/
abbrev Rows := String → Option SystemSetting

structure GeneralSettings where
  watermarkEnabled : Bool
  defaultLanguage : String
  jwtExpiryDays : ℕ
  auditRetentionDays : ℕ
  deviceCloneIsolation : Bool
  frontendUrl : String
  backendUrl : String
  webauthnEnabled : Bool
  rpName : String
  deriving DecidableEq

structure SiteSettingsDto where
  frontendUrl : Option String
  backendUrl : Option String
  deriving DecidableEq

structure WebAuthnSettingsDto where
  enabled : Bool
  rpName : Option String
  deriving DecidableEq

structure UpdateGeneralSettingsDto where
  watermarkEnabled : Bool
  defaultLanguage : Option String
  jwtExpiryDays : Option ℕ
  auditRetentionDays : Option ℕ
  deviceCloneIsolation : Option Bool
  site : Option SiteSettingsDto
  webauthn : Option WebAuthnSettingsDto
  deriving DecidableEq

section Numbers

def parseDigits (cs : List Char) : Option ℕ :=
  match cs.takeWhile Char.isDigit with
  | [] => none
  | digits => some (Nat.ofDigitChars 10 digits 0)

/-- `parseInt(value, 10)`, without a value for `NaN`. -/
def parseInt (value : String) : Option ℤ :=
  match value.toList.dropWhile isSpace with
  | '-' :: cs => (parseDigits cs).map fun n ↦ -Int.ofNat n
  | '+' :: cs => (parseDigits cs).map Int.ofNat
  | cs => (parseDigits cs).map Int.ofNat

theorem parseInt_toString (n : ℕ) : parseInt (toString n) = some (n : ℤ) := by
  have hdigits : ∀ c ∈ Nat.toDigits 10 n, c.isDigit = true :=
    fun c hc ↦ Nat.isDigit_of_mem_toDigits (by omega) (by omega) hc
  have htake : (Nat.toDigits 10 n).takeWhile Char.isDigit = Nat.toDigits 10 n :=
    List.takeWhile_eq_self_iff.mpr hdigits
  have hparse : parseDigits (Nat.toDigits 10 n) = some n := by
    rw [parseDigits, htake]
    cases hd : Nat.toDigits 10 n with
    | nil => exact absurd hd Nat.toDigits_ne_nil
    | cons c cs =>
      dsimp only
      rw [← hd, Nat.ofDigitChars_toDigits (by omega) (by omega)]
  cases hd : Nat.toDigits 10 n with
  | nil => exact absurd hd Nat.toDigits_ne_nil
  | cons c cs =>
    have hc : c.isDigit = true := hdigits c (by rw [hd]; exact .head _)
    have hrange : 48 ≤ c.toNat ∧ c.toNat ≤ 57 := by
      simpa [Char.isDigit, UInt32.le_iff_toNat_le] using hc
    have hspace : isSpace c = false := by
      simp [isSpace]
      omega
    have hne : ∀ d : Char, d.toNat < 48 → c ≠ d := fun d hd heq ↦ by
      rw [heq] at hrange
      omega
    have hlist : (toString n).toList = c :: cs := by
      rw [← hd]
      exact Nat.toList_repr
    rw [parseInt, hlist, List.dropWhile_cons_of_neg (by simp [hspace])]
    split
    · next heq => exact absurd (List.cons.inj heq).1 (hne _ (by decide))
    · next heq => exact absurd (List.cons.inj heq).1 (hne _ (by decide))
    · rw [← hd, hparse]
      rfl

end Numbers

section Read

def readFlag (value : Option String) : Bool := value = some "true"

/-- `readWatermarkEnabled` and `readWebAuthnEnabled`. -/
def readEnabled (value : Option String) : Bool := value ≠ some "false"

def readJwtExpiryDays (value : Option String) : ℕ :=
  match parseInt (value.getD "") with
  | none => 30
  | some parsed => if parsed < 1 then 30 else parsed.toNat

def readAuditRetentionDays (value : Option String) : ℕ :=
  match parseInt (value.getD "") with
  | none => 0
  | some parsed => if parsed < 0 then 0 else parsed.toNat

def valueOf (rows : Rows) (key : String) : Option String := (rows key).map (·.value)

def getSettings (values : String → Option String) : GeneralSettings where
  watermarkEnabled := readEnabled (values watermarkEnabledKey)
  defaultLanguage := (values defaultLanguageKey).getD defaultLanguage
  jwtExpiryDays := readJwtExpiryDays (values jwtExpiryDaysKey)
  auditRetentionDays := readAuditRetentionDays (values auditRetentionDaysKey)
  deviceCloneIsolation := readFlag (values deviceCloneIsolationKey)
  frontendUrl := (values siteFrontendUrlKey).getD ""
  backendUrl := (values siteBackendUrlKey).getD ""
  webauthnEnabled := readEnabled (values webauthnEnabledKey)
  rpName := (values webauthnRpNameKey).getD defaultRpName

end Read

section Update

/-- The fields that an update mentions, and the rest as it was read. -/
def merge (dto : UpdateGeneralSettingsDto) (current : GeneralSettings) : GeneralSettings where
  watermarkEnabled := dto.watermarkEnabled
  defaultLanguage := dto.defaultLanguage.getD current.defaultLanguage
  jwtExpiryDays := dto.jwtExpiryDays.getD current.jwtExpiryDays
  auditRetentionDays := dto.auditRetentionDays.getD current.auditRetentionDays
  deviceCloneIsolation := dto.deviceCloneIsolation.getD current.deviceCloneIsolation
  frontendUrl := (dto.site.bind (·.frontendUrl)).getD current.frontendUrl
  backendUrl := (dto.site.bind (·.backendUrl)).getD current.backendUrl
  webauthnEnabled := (dto.webauthn.map (·.enabled)).getD current.webauthnEnabled
  rpName := (dto.webauthn.bind (·.rpName)).getD current.rpName

/-- The texts that an update stores. -/
def GeneralSettings.texts (merged : GeneralSettings) : List (String × String) :=
  [(watermarkEnabledKey, toString merged.watermarkEnabled),
    (defaultLanguageKey, merged.defaultLanguage),
    (jwtExpiryDaysKey, toString merged.jwtExpiryDays),
    (auditRetentionDaysKey, toString merged.auditRetentionDays),
    (deviceCloneIsolationKey, toString merged.deviceCloneIsolation),
    (siteFrontendUrlKey, merged.frontendUrl),
    (siteBackendUrlKey, merged.backendUrl),
    (webauthnEnabledKey, toString merged.webauthnEnabled),
    (webauthnRpNameKey, merged.rpName)]

/-- All rows of the category are written, whether they are there or not. -/
def save (merged : GeneralSettings) (rows : Rows) : Rows := fun key ↦
  match merged.texts.lookup key with
  | none => rows key
  | some value => some ⟨value, "general", false⟩

variable {rows : Rows} {merged : GeneralSettings}

/-- What an update leaves alone of what was there before. -/
@[mk_iff] structure Leaves (dto : UpdateGeneralSettingsDto) (before after : GeneralSettings) : Prop where
  defaultLanguage : dto.defaultLanguage = none → after.defaultLanguage = before.defaultLanguage
  jwtExpiryDays : dto.jwtExpiryDays = none → after.jwtExpiryDays = before.jwtExpiryDays
  auditRetentionDays : dto.auditRetentionDays = none →
    after.auditRetentionDays = before.auditRetentionDays
  deviceCloneIsolation : dto.deviceCloneIsolation = none →
    after.deviceCloneIsolation = before.deviceCloneIsolation
  frontendUrl : dto.site.bind (·.frontendUrl) = none → after.frontendUrl = before.frontendUrl
  backendUrl : dto.site.bind (·.backendUrl) = none → after.backendUrl = before.backendUrl
  webauthnEnabled : dto.webauthn = none → after.webauthnEnabled = before.webauthnEnabled
  rpName : dto.webauthn.bind (·.rpName) = none → after.rpName = before.rpName

instance {dto : UpdateGeneralSettingsDto} {before after : GeneralSettings} :
    Decidable (Leaves dto before after) := decidable_of_iff _ (leaves_iff ..).symm

@[simp] theorem readFlag_toString (b : Bool) : readFlag (some (toString b)) = b := by
  cases b <;> rfl

@[simp] theorem readEnabled_toString (b : Bool) : readEnabled (some (toString b)) = b := by
  cases b <;> rfl

theorem readJwtExpiryDays_toString {n : ℕ} (hn : 1 ≤ n) :
    readJwtExpiryDays (some (toString n)) = n := by
  rw [readJwtExpiryDays, Option.getD_some, parseInt_toString]
  dsimp only
  rw [if_neg (by omega)]
  rfl

theorem readAuditRetentionDays_toString {n : ℕ} :
    readAuditRetentionDays (some (toString n)) = n := by
  rw [readAuditRetentionDays, Option.getD_some, parseInt_toString]
  dsimp only
  rw [if_neg (by omega)]
  rfl

theorem one_le_readJwtExpiryDays {value : Option String} : 1 ≤ readJwtExpiryDays value := by
  rw [readJwtExpiryDays]
  split
  · omega
  · split
    · omega
    · omega

/-- What was saved reads as it was, but tokens expire after a day at least. -/
theorem getSettings_save : getSettings (valueOf (save merged rows)) =
    { merged with jwtExpiryDays := readJwtExpiryDays (some (toString merged.jwtExpiryDays)) } := by
  have hvalue : ∀ key value, merged.texts.lookup key = some value →
      valueOf (save merged rows) key = some value := by
    intro key value h
    rw [valueOf, save, h]
    rfl
  rw [getSettings, hvalue watermarkEnabledKey _ rfl, hvalue defaultLanguageKey _ rfl,
    hvalue jwtExpiryDaysKey _ rfl, hvalue auditRetentionDaysKey _ rfl,
    hvalue deviceCloneIsolationKey _ rfl, hvalue siteFrontendUrlKey _ rfl,
    hvalue siteBackendUrlKey _ rfl, hvalue webauthnEnabledKey _ rfl,
    hvalue webauthnRpNameKey _ rfl, readAuditRetentionDays_toString]
  simp only [readFlag_toString, readEnabled_toString, Option.getD_some]

/-- An update leaves what it does not mention if and only if it finds it as it
has read it. -/
theorem leaves_save {dto : UpdateGeneralSettingsDto} {read before : GeneralSettings}
    (hn : 1 ≤ read.jwtExpiryDays) :
    Leaves dto before (getSettings (valueOf (save (merge dto read) rows))) ↔
      Leaves dto read before := by
  have hdays : dto.jwtExpiryDays = none → readJwtExpiryDays
      (some (toString (dto.jwtExpiryDays.getD read.jwtExpiryDays))) = read.jwtExpiryDays :=
    fun h ↦ by rw [h, Option.getD_none, readJwtExpiryDays_toString hn]
  rw [getSettings_save]
  constructor
  · intro h
    refine ⟨fun hm ↦ ?_, fun hm ↦ ?_, fun hm ↦ ?_, fun hm ↦ ?_, fun hm ↦ ?_, fun hm ↦ ?_,
      fun hm ↦ ?_, fun hm ↦ ?_⟩
    · simpa [merge, hm] using (h.defaultLanguage hm).symm
    · exact (h.jwtExpiryDays hm).symm.trans (hdays hm)
    · simpa [merge, hm] using (h.auditRetentionDays hm).symm
    · simpa [merge, hm] using (h.deviceCloneIsolation hm).symm
    · simpa [merge, hm] using (h.frontendUrl hm).symm
    · simpa [merge, hm] using (h.backendUrl hm).symm
    · simpa [merge, hm] using (h.webauthnEnabled hm).symm
    · simpa [merge, hm] using (h.rpName hm).symm
  · intro h
    refine ⟨fun hm ↦ ?_, fun hm ↦ ?_, fun hm ↦ ?_, fun hm ↦ ?_, fun hm ↦ ?_, fun hm ↦ ?_,
      fun hm ↦ ?_, fun hm ↦ ?_⟩
    · simpa [merge, hm] using (h.defaultLanguage hm).symm
    · exact (hdays hm).trans (h.jwtExpiryDays hm).symm
    · simpa [merge, hm] using (h.auditRetentionDays hm).symm
    · simpa [merge, hm] using (h.deviceCloneIsolation hm).symm
    · simpa [merge, hm] using (h.frontendUrl hm).symm
    · simpa [merge, hm] using (h.backendUrl hm).symm
    · simpa [merge, hm] using (h.webauthnEnabled hm).symm
    · simpa [merge, hm] using (h.rpName hm).symm

theorem readFlag_save : readFlag (valueOf (save merged rows) deviceCloneIsolationKey) =
    merged.deviceCloneIsolation := by
  have hvalue : valueOf (save merged rows) deviceCloneIsolationKey =
    some (toString merged.deviceCloneIsolation) := rfl
  rw [hvalue, readFlag_toString]

end Update

inductive Failure
  | error (message : String)
  deriving DecidableEq

inductive Request
  | updateSettings (dto : UpdateGeneralSettingsDto)
  | refreshDeviceCloneIsolation
  deriving DecidableEq

structure Call where
  id : ℕ
  request : Request
  deriving DecidableEq

/-- An update has read the settings, has committed what it merged, and has stored
its flag in the cache. -/
inductive Event
  | read (current : GeneralSettings)
  | committed (merged : GeneralSettings)
  | finished
  deriving DecidableEq

abbrev History := List (Call × Event)

structure World where
  rows : Rows
  deviceCloneIsolationCache : Bool
  cacheGeneration : ℕ
  history : History

abbrev World.settings (w : World) : GeneralSettings := getSettings (valueOf w.rows)

abbrev World.flag (w : World) : Bool := readFlag (valueOf w.rows deviceCloneIsolationKey)

inductive Command
  | readSettings
  | transaction (merged : GeneralSettings)
  | storeFlag (flag : Bool)
  | generation
  | readFlag
  | refreshFlag (generation : ℕ) (flag : Bool)

@[reducible] def Reply : Command → Type
  | .readSettings => Except Failure GeneralSettings
  | .transaction _ => Except Failure Unit
  | .storeFlag _ | .refreshFlag .. => Unit
  | .generation => ℕ
  | .readFlag => Except Failure Bool

/-- `readSettings` and `readFlag` are one `find` each, and a transaction takes
effect when it commits or not at all. -/
def exec (call : Call) : (c : Command) → Except Failure Unit → World → World × Option (Reply c)
  | .readSettings, .error failure, w => (w, some (.error failure))
  | .readSettings, .ok (), w =>
    ({ w with history := (call, .read w.settings) :: w.history }, some (.ok w.settings))
  | .transaction _, .error failure, w => (w, some (.error failure))
  | .transaction merged, .ok (), w =>
    ({ w with
      rows := save merged w.rows
      history := (call, .committed merged) :: w.history }, some (.ok ()))
  | .storeFlag flag, _, w =>
    ({ w with
      cacheGeneration := w.cacheGeneration + 1
      deviceCloneIsolationCache := flag
      history := (call, .finished) :: w.history }, some ())
  | .generation, _, w => (w, some w.cacheGeneration)
  | .readFlag, .error failure, w => (w, some (.error failure))
  | .readFlag, .ok (), w => (w, some (.ok w.flag))
  | .refreshFlag generation flag, _, w =>
    (if generation ≠ w.cacheGeneration then w
      else { w with deviceCloneIsolationCache := flag }, some ())

abbrev Handler := Process Command Reply Unit Failure

def ask (c : Command) : Handler (Reply c) := invoke c .ok

/-- The command throws what it replies as a failure. -/
def attempt {α : Type} (c : Command) (h : Reply c = Except Failure α) : Handler α :=
  invoke c fun reply ↦ h ▸ reply

def updateSettings (dto : UpdateGeneralSettingsDto) : Handler GeneralSettings := do
  let current ← attempt .readSettings rfl
  let merged := merge dto current
  attempt (.transaction merged) rfl
  ask (.storeFlag merged.deviceCloneIsolation)
  pure merged

def refreshDeviceCloneIsolation : Handler Unit :=
  tryCatch
    (do
      let generation ← ask .generation
      let value ← attempt .readFlag rfl
      ask (.refreshFlag generation value))
    fun _ ↦ pure ()

def serve : Request → Handler Unit
  | .updateSettings dto => do
    let _ ← updateSettings dto
    pure ()
  | .refreshDeviceCloneIsolation => refreshDeviceCloneIsolation

def handler (request : Request) : Prog Command Reply Unit :=
  (serve request).start () >>= fun _ ↦ .done ()

/-- Any number of updates and refreshes at once. A call takes no part twice. -/
def machine : Machine Call Command Reply (Except Failure Unit) World where
  exec := exec
  admits call w p := (∀ event, (call, event) ∉ w.history) ∧ p = handler call.request

end RustdeskConsole.Settings
