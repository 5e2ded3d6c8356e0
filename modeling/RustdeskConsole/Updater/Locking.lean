import Mathlib.Data.Nat.Notation
import Mathlib.Logic.Function.Basic
import Mathlib.Logic.Relation

namespace RustdeskConsole.Updater.Locking

open Function Relation

inductive Refusal
  | concurrentExecution
  | lockUnavailable
  | ownershipUncertain
  deriving DecidableEq

/-- `flock` with its `cat`: the exit of it is told to its parent once. -/
inductive Child
  | absent
  | asks
  | owns
  | exited (code : Option ℕ) (told : Bool)
  deriving DecidableEq

/-- One process and its call of `acquireProcessLock`: `echoed` is the token on its way
back, `answer` the promise of the lock, `returned` that of its release. -/
structure Process where
  running : Bool
  child : Child
  timer : Bool
  echoed : Bool
  established : Bool
  released : Bool
  answer : Option (Except Refusal Unit)
  returned : Bool

namespace Process

/-- A promise is settled once. -/
def settle (p : Process) (answer : Except Refusal Unit) : Process :=
  { p with answer := p.answer.or (some answer) }

def clearTimeout (p : Process) : Process := { p with timer := false }

def acquire (p : Process) : Process := { p with child := .asks, timer := true }

def onError (p : Process) : Process :=
  { p.clearTimeout.settle (.error .lockUnavailable) with child := .absent }

/-- The two listeners that `acquireProcessLock` has added, then that of a release. -/
def onExit (code : Option ℕ) (p : Process) : Process :=
  let p := { p with child := .exited code true }
  if p.established && !p.released then { p with running := false }
  else
    { p.clearTimeout.settle (.error (if code = some 73 then .concurrentExecution
        else .lockUnavailable)) with returned := p.released }

def onData (p : Process) : Process :=
  { p.clearTimeout.settle (.ok ()) with established := true, echoed := false }

def onTimeout (p : Process) : Process := p.clearTimeout.settle (.error .ownershipUncertain)

def onStdinError (p : Process) : Process := p.clearTimeout.settle (.error .lockUnavailable)

def release (p : Process) : Process := { p with released := true }

/-- The lock was given to the process and it has not given it back. -/
structure Executing (p : Process) : Prop where
  running : p.running = true
  answer : p.answer = some (.ok ())
  released : p.released = false

/-- The child is gone, and the process is about to be told. -/
def Lost (p : Process) : Prop := ∃ code, p.child = .exited code false

def Gone (p : Process) : Prop := ∃ code told, p.child = .exited code told

end Process

variable {ι : Type} [DecidableEq ι]

/-- The processes of an installation, and whose child has the lock of the kernel. -/
structure System (ι : Type) where
  processes : ι → Process
  lock : Option ι

def idle : Process := ⟨true, .absent, false, false, false, false, none, false⟩

def initial : System ι := ⟨fun _ ↦ idle, none⟩

def System.update (s : System ι) (i : ι) (p : Process) : System ι :=
  { s with processes := Function.update s.processes i p }

inductive Event (ι : Type)
  | acquire (i : ι)
  | error (i : ι)
  | take (i : ι)
  | conflict (i : ι)
  | echo (i : ι)
  | exit (i : ι) (code : Option ℕ)
  | unlock (i : ι)
  | told (i : ι) (code : Option ℕ)
  | data (i : ι)
  | timeout (i : ι)
  | stdinError (i : ι)
  | release (i : ι)
  | die (i : ι)

/-- When an event may happen. A child may die at any time, the kernel frees the lock at
some time after that, and what is told to a process may come in any order. -/
def Enabled (s : System ι) : Event ι → Prop
  | .acquire i => (s.processes i).running ∧ s.processes i = idle
  | .error i => (s.processes i).running ∧ (s.processes i).child = .asks
  | .take i => (s.processes i).child = .asks ∧ s.lock = none
  | .conflict i => (s.processes i).child = .asks ∧ s.lock ≠ none
  | .echo i => (s.processes i).child = .owns
  | .exit i _ => (s.processes i).child = .asks ∨ (s.processes i).child = .owns
  | .unlock i => s.lock = some i ∧ (s.processes i).Gone
  | .told i code => (s.processes i).running ∧ (s.processes i).child = .exited code false
  | .data i => (s.processes i).running ∧ (s.processes i).echoed
  | .timeout i => (s.processes i).running ∧ (s.processes i).timer
  | .stdinError i => (s.processes i).running ∧ (s.processes i).child ≠ .absent
  | .release i => (s.processes i).running ∧ (s.processes i).answer = some (.ok ()) ∧
      (s.processes i).released = false
  | .die i => (s.processes i).running

def next (s : System ι) : Event ι → System ι
  | .acquire i => s.update i (s.processes i).acquire
  | .error i => s.update i (s.processes i).onError
  | .take i => { s.update i { s.processes i with child := .owns } with lock := some i }
  | .conflict i => s.update i { s.processes i with child := .exited (some 73) false }
  | .echo i => s.update i { s.processes i with echoed := true }
  | .exit i code => s.update i { s.processes i with child := .exited code false }
  | .unlock _ => { s with lock := none }
  | .told i code => s.update i ((s.processes i).onExit code)
  | .data i => s.update i (s.processes i).onData
  | .timeout i => s.update i (s.processes i).onTimeout
  | .stdinError i => s.update i (s.processes i).onStdinError
  | .release i => s.update i (s.processes i).release
  | .die i => s.update i { s.processes i with running := false }

def Step (s s' : System ι) : Prop := ∃ event, Enabled s event ∧ s' = next s event

def Reachable (s : System ι) : Prop := ReflTransGen Step initial s

section Proofs

variable {p : Process} {s s' : System ι} {i : ι} {code : Option ℕ}

/-- What holds of one process whatever the others do. -/
structure Sound (p : Process) : Prop where
  established : p.answer = some (.ok ()) → p.established = true
  settled : p.established = true → p.answer ≠ none
  echoed : p.echoed = true → p.child = .owns ∨ p.Gone
  told : ∀ code, p.child = .exited code true → p.answer ≠ none
  kept : p.Executing → p.child = .owns ∨ p.Lost

theorem settle_ne_none {answer : Except Refusal Unit} : (p.settle answer).answer ≠ none := by
  rw [Process.settle]
  cases p.answer <;> exact nofun

/-- A refusal gives no one the lock. -/
theorem settle_error {refusal : Refusal} :
    (p.settle (.error refusal)).answer = some (.ok ()) ↔ p.answer = some (.ok ()) := by
  rw [Process.settle]
  cases p.answer <;> simp

theorem Sound.settle {refusal : Refusal} (h : Sound p) :
    Sound (p.clearTimeout.settle (.error refusal)) where
  established ha := h.established (settle_error.mp ha)
  settled _ := settle_ne_none
  echoed := h.echoed
  told _ _ := settle_ne_none
  kept he := h.kept ⟨he.running, settle_error.mp he.answer, he.released⟩

theorem sound_idle : Sound idle where
  established := nofun
  settled := nofun
  echoed := nofun
  told := nofun
  kept he := nomatch he.answer

theorem sound_acquire : Sound idle.acquire where
  established := nofun
  settled := nofun
  echoed := nofun
  told := nofun
  kept he := nomatch he.answer

theorem Sound.onError (h : Sound p) (hc : p.child = .asks) : Sound p.onError where
  established ha := h.established (settle_error.mp ha)
  settled _ := settle_ne_none
  echoed he := by
    rcases h.echoed he with ho | ⟨code, told, hx⟩
    · cases hc.symm.trans ho
    · cases hc.symm.trans hx
  told := nofun
  kept he := by
    rcases h.kept ⟨he.running, settle_error.mp he.answer, he.released⟩ with ho | ⟨code, hx⟩
    · cases hc.symm.trans ho
    · cases hc.symm.trans hx

theorem Sound.take (h : Sound p) : Sound { p with child := .owns } where
  established := h.established
  settled := h.settled
  echoed _ := .inl rfl
  told := nofun
  kept _ := .inl rfl

theorem Sound.exit (h : Sound p) : Sound { p with child := .exited code false } where
  established := h.established
  settled := h.settled
  echoed _ := .inr ⟨code, false, rfl⟩
  told := nofun
  kept _ := .inr ⟨code, rfl⟩

theorem Sound.echo (h : Sound p) (hc : p.child = .owns) : Sound { p with echoed := true } where
  established := h.established
  settled := h.settled
  echoed _ := .inl hc
  told := h.told
  kept _ := .inl hc

theorem onExit_lost (hc : (p.established && !p.released) = true) :
    p.onExit code = { p with child := .exited code true, running := false } := if_pos hc

theorem onExit_other (hc : ¬(p.established && !p.released) = true) : p.onExit code =
    { { p with child := .exited code true }.clearTimeout.settle
        (.error (if code = some 73 then .concurrentExecution else .lockUnavailable)) with
      returned := p.released } := if_neg hc

/-- Who is told of the end of its child executes no further. -/
theorem not_executing_onExit (h : Sound p) : ¬(p.onExit code).Executing := by
  intro he
  by_cases hc : (p.established && !p.released) = true
  · rw [onExit_lost hc] at he
    cases he.running
  · rw [onExit_other hc] at he
    refine hc (Bool.and_eq_true_iff.mpr ⟨h.established (settle_error.mp he.answer), ?_⟩)
    exact congrArg not he.released

theorem Sound.onExit (h : Sound p) : Sound (p.onExit code) := by
  have hnone : ¬(p.onExit code).Executing := not_executing_onExit h
  by_cases hc : (p.established && !p.released) = true
  · have hne := h.settled (Bool.and_eq_true_iff.mp hc).1
    rw [onExit_lost hc] at hnone ⊢
    exact ⟨h.established, h.settled, fun _ ↦ .inr ⟨code, true, rfl⟩, fun _ _ ↦ hne,
      fun he ↦ (hnone he).elim⟩
  · rw [onExit_other hc] at hnone ⊢
    exact ⟨fun ha ↦ h.established (settle_error.mp ha), fun _ ↦ settle_ne_none,
      fun _ ↦ .inr ⟨code, true, rfl⟩, fun _ _ ↦ settle_ne_none, fun he ↦ (hnone he).elim⟩

theorem Sound.onData (h : Sound p) (he : p.echoed = true) : Sound p.onData where
  established _ := rfl
  settled _ := settle_ne_none
  echoed := nofun
  told _ _ := settle_ne_none
  kept hx := by
    cases ha : p.answer with
    | some answer =>
      have hanswer : p.onData.answer = some answer := by
        rw [Process.onData, Process.settle, Process.clearTimeout, ha]
        rfl
      exact h.kept ⟨hx.running, ha.trans (hanswer.symm.trans hx.answer), hx.released⟩
    | none =>
      rcases h.echoed he with ho | ⟨code, told, hchild⟩
      · exact .inl ho
      · cases told with
        | false => exact .inr ⟨code, hchild⟩
        | true => exact (h.told code hchild ha).elim

theorem Sound.release (h : Sound p) : Sound p.release where
  established := h.established
  settled := h.settled
  echoed := h.echoed
  told := h.told
  kept hx := nomatch hx.released

theorem Sound.die (h : Sound p) : Sound { p with running := false } where
  established := h.established
  settled := h.settled
  echoed := h.echoed
  told := h.told
  kept hx := nomatch hx.running

/-- Each process is sound, and a child that owns the lock is the one that the kernel knows. -/
structure Safe (s : System ι) : Prop where
  sound : ∀ i, Sound (s.processes i)
  owner : ∀ i, (s.processes i).child = .owns → s.lock = some i
  held : ∀ i, s.lock = some i → (s.processes i).child = .owns ∨ (s.processes i).Gone

theorem update_processes {j : ι} :
    (s.update i p).processes j = if j = i then p else s.processes j := Function.update_apply ..

/-- What becomes of the child of a process that an event changes. -/
structure Keeps (p p' : Process) : Prop where
  owns : p'.child = .owns → p.child = .owns
  gone : p.child = .owns ∨ p.Gone → p'.child = .owns ∨ p'.Gone

theorem Keeps.of_eq {p' : Process} (h : p'.child = p.child) : Keeps p p' where
  owns := h.symm.trans
  gone hg := by rwa [Process.Gone, h]

theorem Keeps.of_gone {p' : Process} (h : p'.Gone) : Keeps p p' where
  owns ho := by
    obtain ⟨code, told, hchild⟩ := h
    cases hchild.symm.trans ho
  gone _ := .inr h

theorem Keeps.of_free {p' : Process} (hp : ¬(p.child = .owns ∨ p.Gone)) (hp' : p'.child ≠ .owns) :
    Keeps p p' where
  owns ho := (hp' ho).elim
  gone hg := (hp hg).elim

theorem free_of_child {child : Child} (hc : p.child = child) (ho : child ≠ .owns)
    (hx : ∀ code told, child ≠ .exited code told) : ¬(p.child = .owns ∨ p.Gone) := by
  rintro (h | ⟨code, told, h⟩)
  · exact ho (hc.symm.trans h)
  · exact hx code told (hc.symm.trans h)

theorem Safe.update (h : Safe s) (hp : Sound p) (hk : Keeps (s.processes i) p) :
    Safe (s.update i p) where
  sound j := by
    rw [update_processes]
    split
    · exact hp
    · exact h.sound j
  owner j hj := by
    rw [update_processes] at hj
    split at hj
    · next heq => exact heq ▸ h.owner i (hk.owns hj)
    · exact h.owner j hj
  held j hj := by
    rw [update_processes]
    split
    · next heq => exact hk.gone (heq ▸ h.held j hj)
    · exact h.held j hj

theorem gone_onExit : (p.onExit code).Gone := by
  by_cases hc : (p.established && !p.released) = true
  · rw [onExit_lost hc]
    exact ⟨code, true, rfl⟩
  · rw [onExit_other hc]
    exact ⟨code, true, rfl⟩

theorem Safe.take (h : Safe s) (hfree : s.lock = none) : Safe (next s (.take i)) := by
  have hprocesses j : (next s (.take i)).processes j =
      if j = i then { s.processes i with child := .owns } else s.processes j := update_processes
  refine ⟨fun j ↦ ?_, fun j hj ↦ ?_, fun j hj ↦ ?_⟩
  · rw [hprocesses]
    split
    · exact (h.sound i).take
    · exact h.sound j
  · rw [hprocesses] at hj
    split at hj
    · next heq => exact congrArg some heq.symm
    · cases hfree.symm.trans (h.owner j hj)
  · obtain rfl : i = j := Option.some.inj hj
    rw [hprocesses, if_pos rfl]
    exact .inl rfl

theorem Safe.next {event : Event ι} (h : Safe s) (he : Enabled s event) :
    Safe (next s event) := by
  cases event with
  | acquire i =>
    have hfree := free_of_child (congrArg Process.child he.2) nofun nofun
    refine h.update ?_ (.of_free hfree nofun)
    rw [he.2]
    exact sound_acquire
  | error i =>
    exact h.update ((h.sound i).onError he.2) (.of_free (free_of_child he.2 nofun nofun) nofun)
  | take i => exact h.take he.2
  | conflict i => exact h.update (h.sound i).exit (.of_gone ⟨some 73, false, rfl⟩)
  | echo i => exact h.update ((h.sound i).echo he) (.of_eq rfl)
  | exit i code => exact h.update (h.sound i).exit (.of_gone ⟨code, false, rfl⟩)
  | unlock i =>
    obtain ⟨hlock, code, told, hchild⟩ := he
    refine ⟨h.sound, fun j hj ↦ ?_, nofun⟩
    obtain rfl : i = j := Option.some.inj (hlock.symm.trans (h.owner j hj))
    cases hchild.symm.trans hj
  | told i code => exact h.update (h.sound i).onExit (.of_gone gone_onExit)
  | data i => exact h.update ((h.sound i).onData he.2) (.of_eq rfl)
  | timeout i => exact h.update (h.sound i).settle (.of_eq rfl)
  | stdinError i => exact h.update (h.sound i).settle (.of_eq rfl)
  | release i => exact h.update (h.sound i).release (.of_eq rfl)
  | die i => exact h.update (h.sound i).die (.of_eq rfl)

theorem reachable_safe (h : Reachable s) : Safe s := by
  induction h with
  | refl => exact ⟨fun _ ↦ sound_idle, fun _ ↦ nofun, fun _ ↦ nofun⟩
  | tail _ hstep ih =>
    obtain ⟨event, he, rfl⟩ := hstep
    exact ih.next he

theorem gone_update {j : ι} (hg : (s.processes j).Gone) (hp : (s.processes i).Gone → p.Gone) :
    ((s.update i p).processes j).Gone := by
  rw [update_processes]
  split
  · next heq => exact hp (heq ▸ hg)
  · exact hg

/-- A child that is gone does not come back. -/
theorem gone_next {event : Event ι} {j : ι} (he : Enabled s event) (hg : (s.processes j).Gone) :
    ((next s event).processes j).Gone := by
  have hne {i : ι} {child : Child} (hc : (s.processes i).child = child)
      (hx : ∀ code told, child ≠ .exited code told) : ¬(s.processes i).Gone := by
    rintro ⟨code, told, h⟩
    exact hx code told (hc.symm.trans h)
  cases event with
  | acquire i => exact gone_update hg fun h ↦ (hne (congrArg Process.child he.2) nofun h).elim
  | error i => exact gone_update hg fun h ↦ (hne he.2 nofun h).elim
  | take i => exact gone_update hg fun h ↦ (hne he.1 nofun h).elim
  | conflict i => exact gone_update hg fun _ ↦ ⟨some 73, false, rfl⟩
  | echo i => exact gone_update hg fun h ↦ h
  | exit i code => exact gone_update hg fun _ ↦ ⟨code, false, rfl⟩
  | unlock i => exact hg
  | told i code => exact gone_update hg fun _ ↦ gone_onExit
  | data i => exact gone_update hg fun h ↦ h
  | timeout i => exact gone_update hg fun h ↦ h
  | stdinError i => exact gone_update hg fun h ↦ h
  | release i => exact gone_update hg fun h ↦ h
  | die i => exact gone_update hg fun h ↦ h

theorem gone_run {j : ι} (hr : ReflTransGen Step s s') (hg : (s.processes j).Gone) :
    (s'.processes j).Gone := by
  induction hr with
  | refl => exact hg
  | tail _ hstep ih =>
    obtain ⟨event, he, rfl⟩ := hstep
    exact gone_next he ih

/-- However the processes of an installation run, die and are told of it: of those that were
given the lock and have not released it, each has its child, which has the lock of the kernel,
or has lost it, and so at most one has it. Who has lost it has lost it for good and stops when
it is told; and the lock is never left with no child to free it. -/
theorem one_executor (h : Reachable s) :
    (∀ i, (s.processes i).Executing →
      (s.processes i).child = .owns ∧ s.lock = some i ∨ (s.processes i).Lost) ∧
    (∀ i j, (s.processes i).Executing → (s.processes j).Executing →
      i = j ∨ (s.processes i).Lost ∨ (s.processes j).Lost) ∧
    (∀ i s', (s.processes i).Lost → ReflTransGen Step s s' → (s'.processes i).Executing →
      (s'.processes i).Lost) ∧
    (∀ i code, Enabled s (.told i code) → ¬((next s (.told i code)).processes i).Executing) ∧
    ∀ i, s.lock = some i → (s.processes i).child = .owns ∨ Enabled s (.unlock i) := by
  have hs := reachable_safe h
  have hlock i (hi : (s.processes i).Executing) :
      (s.processes i).child = .owns ∧ s.lock = some i ∨ (s.processes i).Lost :=
    ((hs.sound i).kept hi).imp_left fun ho ↦ ⟨ho, hs.owner i ho⟩
  refine ⟨hlock, fun i j hi hj ↦ ?_, fun i s' hl hr hi ↦ ?_, fun i code _ ↦ ?_, fun i hi ↦ ?_⟩
  · rcases hlock i hi with ⟨-, hi⟩ | hi
    · rcases hlock j hj with ⟨-, hj⟩ | hj
      · exact .inl (Option.some.inj (hi.symm.trans hj))
      · exact .inr (.inr hj)
    · exact .inr (.inl hi)
  · have hs' := reachable_safe (h.trans hr)
    obtain ⟨code, hchild⟩ := hl
    obtain ⟨code', told, hgone⟩ := gone_run hr ⟨code, false, hchild⟩
    rcases (hs'.sound i).kept hi with ho | hlost
    · cases hgone.symm.trans ho
    · exact hlost
  · rw [next, update_processes, if_pos rfl]
    exact not_executing_onExit (hs.sound i)
  · exact (hs.held i hi).imp_right fun hg ↦ ⟨hi, hg⟩

/-- The first process has been given the lock, and then the second has been refused it. -/
def sampleSystem : System ℕ :=
  [Event.acquire 0, .take 0, .echo 0, .data 0, .acquire 1, .conflict 1, .told 1 (some 73)].foldl
    next initial

theorem sample_reachable : Reachable sampleSystem :=
  .tail (.tail (.tail (.tail (.tail (.tail (.tail .refl ⟨.acquire 0, ⟨rfl, rfl⟩, rfl⟩)
    ⟨.take 0, ⟨rfl, rfl⟩, rfl⟩) ⟨.echo 0, rfl, rfl⟩) ⟨.data 0, ⟨rfl, rfl⟩, rfl⟩)
    ⟨.acquire 1, ⟨rfl, rfl⟩, rfl⟩) ⟨.conflict 1, ⟨rfl, nofun⟩, rfl⟩)
    ⟨.told 1 (some 73), ⟨rfl, rfl⟩, rfl⟩

theorem sample_executor : (sampleSystem.processes 0).Executing ∧
    (sampleSystem.processes 1).answer = some (.error .concurrentExecution) ∧
    (∀ i, (sampleSystem.processes i).Executing →
      (sampleSystem.processes i).child = .owns ∧ sampleSystem.lock = some i ∨
        (sampleSystem.processes i).Lost) ∧
    (∀ i j, (sampleSystem.processes i).Executing → (sampleSystem.processes j).Executing →
      i = j ∨ (sampleSystem.processes i).Lost ∨ (sampleSystem.processes j).Lost) ∧
    (∀ i s', (sampleSystem.processes i).Lost → ReflTransGen Step sampleSystem s' →
      (s'.processes i).Executing → (s'.processes i).Lost) ∧
    (∀ i code, Enabled sampleSystem (.told i code) →
      ¬((next sampleSystem (.told i code)).processes i).Executing) ∧
    ∀ i, sampleSystem.lock = some i →
      (sampleSystem.processes i).child = .owns ∨ Enabled sampleSystem (.unlock i) :=
  ⟨⟨rfl, rfl, rfl⟩, rfl, one_executor sample_reachable⟩

end Proofs

end RustdeskConsole.Updater.Locking
