import Mathlib.Data.List.Basic
import Mathlib.Data.Nat.Notation

namespace RustdeskConsole.UpdateChecks

variable {ρ : Type}

/-- One run of `performUpdateCheck`: the version that its request carries, and
when it has ended, the answer, if there was one. -/
structure Check (ρ : Type) where
  frontendVersion : Option String
  outcome : Option (Option ρ)
  deriving DecidableEq

/-- How far a call of `checkUpdate` has got: it awaits its `saveFrontendVersion`,
may evaluate the condition of its loop, awaits a check for another version, or
awaits what its `fetchUpdate` returned. -/
inductive Phase (ρ : Type)
  | saving
  | ready
  | waiting (check : ℕ)
  | joined (check : ℕ)
  | refused
  | returned (result : ρ)
  | thrown
  deriving DecidableEq

structure Call (ρ : Type) where
  frontendVersion : Option String
  phase : Phase ρ
  deriving DecidableEq

/-- The fields of the service. `frontendVersionUpdate` holds the calls that are
chained on it, and `pendingUpdate` the number of its check. -/
structure State (ρ : Type) where
  cachedResult : ρ
  cachedFrontendVersion : Option String
  lastKnownFrontendVersion : Option String
  frontendVersionUpdate : List ℕ
  pendingUpdate : Option ℕ
  checks : List (Check ρ)
  calls : List (Call ρ)
  deriving DecidableEq

/-- What happens next. Whether business writes are allowed is read from a file
each time. -/
inductive Action (ρ : Type)
  | checkUpdate (frontendVersion : Option String)
  | handleScheduledUpdateCheck (allowed : Bool)
  | save (fails : Bool)
  | resume (call : ℕ) (allowed : Bool)
  | answer (result : ρ)
  | fail
  | clear

namespace State

/-- The promise of a check resolves after `pendingUpdate` was cleared. -/
def resolved (s : State ρ) (check : ℕ) : Bool :=
  s.pendingUpdate != some check && (s.checks[check]?.bind Check.outcome).isSome

def mayResume (s : State ρ) : Phase ρ → Bool
  | .ready | .refused => true
  | .waiting check | .joined check => s.resolved check
  | _ => false

/-- Nothing is left to do before the next event from outside. -/
def drained (s : State ρ) : Bool := s.calls.all fun call ↦ !s.mayResume call.phase

def setPhase (s : State ρ) (i : ℕ) (call : Call ρ) (phase : Phase ρ) : State ρ :=
  { s with calls := s.calls.set i { call with phase } }

/-- The start of a check. -/
def performUpdateCheck (s : State ρ) (frontendVersion : Option String) : State ρ :=
  { s with
    pendingUpdate := some s.checks.length
    checks := s.checks ++ [⟨frontendVersion, none⟩] }

/-- The check whose promise `fetchUpdate` returns, if any. -/
def fetchUpdate (s : State ρ) (allowed : Bool) (frontendVersion : Option String) :
    State ρ × Option ℕ :=
  let frontendVersion := frontendVersion.or s.lastKnownFrontendVersion
  if !allowed then (s, none)
  else
    match s.pendingUpdate with
    | some check => (s, some check)
    | none => (s.performUpdateCheck frontendVersion, some s.checks.length)

/-- A check for another version that is under way. -/
def other (s : State ρ) (frontendVersion : Option String) : Option ℕ :=
  s.pendingUpdate.filter fun check ↦
    s.checks[check]?.map Check.frontendVersion != some frontendVersion

/-- The loop of `checkUpdate`, up to its next `await`. -/
def loop (s : State ρ) (i : ℕ) (call : Call ρ) (allowed : Bool) : State ρ :=
  if call.frontendVersion = s.cachedFrontendVersion then
    s.setPhase i call (.returned s.cachedResult)
  else
    match s.other call.frontendVersion with
    | some check => s.setPhase i call (.waiting check)
    | none =>
      match s.fetchUpdate allowed call.frontendVersion with
      | (s, some check) => s.setPhase i call (.joined check)
      | (s, none) => s.setPhase i call .refused

def checkUpdate (s : State ρ) (frontendVersion : Option String) : State ρ :=
  if frontendVersion.any (· ≠ "") then
    { s with
      frontendVersionUpdate := s.frontendVersionUpdate ++ [s.calls.length]
      calls := s.calls ++ [⟨frontendVersion, .saving⟩] }
  else { s with calls := s.calls ++ [⟨frontendVersion, .returned s.cachedResult⟩] }

/-- The first save of the chain ends. -/
def saveFrontendVersion (s : State ρ) (i : ℕ) (call : Call ρ) (fails : Bool) : State ρ :=
  if call.frontendVersion = s.lastKnownFrontendVersion then s.setPhase i call .ready
  else if fails then s.setPhase i call .thrown
  else { s.setPhase i call .ready with lastKnownFrontendVersion := call.frontendVersion }

def resume (s : State ρ) (i : ℕ) (call : Call ρ) (allowed : Bool) : State ρ :=
  match call.phase with
  | .joined _ | .refused => s.setPhase i call (.returned s.cachedResult)
  | _ => s.loop i call allowed

/-- The check that is under way, with its number. -/
def running (s : State ρ) : Option (ℕ × Check ρ) := do
  let id ← s.pendingUpdate
  let check ← s.checks[id]?
  if check.outcome.isNone then some (id, check) else none

def finish (s : State ρ) (id : ℕ) (check : Check ρ) (outcome : Option ρ) : State ρ :=
  { s with checks := s.checks.set id { check with outcome := some outcome } }

end State

/-- An answer comes from outside, when all that could go on has. -/
def step (s : State ρ) : Action ρ → Option (State ρ)
  | .checkUpdate frontendVersion => some (s.checkUpdate frontendVersion)
  | .handleScheduledUpdateCheck allowed => some (s.fetchUpdate allowed none).1
  | .save fails =>
    match s.frontendVersionUpdate with
    | [] => none
    | i :: rest => s.calls[i]?.map fun call ↦
      { s with frontendVersionUpdate := rest }.saveFrontendVersion i call fails
  | .resume i allowed =>
    (s.calls[i]?.filter fun call ↦ s.mayResume call.phase).map fun call ↦ s.resume i call allowed
  | .answer result =>
    if s.drained then
      s.running.map fun (id, check) ↦
        { s.finish id check (some result) with
          cachedResult := result
          cachedFrontendVersion := check.frontendVersion }
    else none
  | .fail => s.running.map fun (id, check) ↦ s.finish id check none
  | .clear =>
    if s.running.isNone && s.pendingUpdate.isSome then some { s with pendingUpdate := none }
    else none

/-- Whether the service does this by itself, once calls have come. -/
def Action.settles : Action ρ → Bool
  | .checkUpdate _ | .handleScheduledUpdateCheck _ => false
  | _ => true

/-- The service after `loadPersistedFrontendVersion`, with `EMPTY_RESPONSE`. -/
def initial (empty : ρ) (persisted : Option String) : State ρ :=
  ⟨empty, none, persisted, [], none, [], []⟩

def Step (s s' : State ρ) : Prop := ∃ action, step s action = some s'

/-- Neither a call arrives nor the timer goes off. -/
def Goes (s s' : State ρ) : Prop := ∃ action : Action ρ, action.settles ∧ step s action = some s'

end RustdeskConsole.UpdateChecks
