import Mathlib.Logic.Function.Basic
import Mathlib.Logic.Relation

namespace RustdeskConsole.Effects

variable {C : Type} {R : C → Type} {σ ε α β : Type}

/-- A program is a tree of commands: each node performs one command `c` and
goes on with its reply. Every node is an await point. -/
inductive Prog (C : Type) (R : C → Type) (α : Type) : Type
  | done : α → Prog C R α
  | call (c : C) (k : R c → Prog C R α) : Prog C R α

namespace Prog

def bind : Prog C R α → (α → Prog C R β) → Prog C R β
  | .done a, f => f a
  | .call c k, f => .call c (fun r ↦ (k r).bind f)

instance : Monad (Prog C R) where
  pure := .done
  bind := bind

@[simp] theorem pure_eq_done (a : α) : (pure a : Prog C R α) = .done a := rfl

@[simp] theorem done_bind (a : α) (f : α → Prog C R β) : (.done a : Prog C R α) >>= f = f a := rfl

@[simp] theorem call_bind (c : C) (k : R c → Prog C R α) (f : α → Prog C R β) :
    (.call c k : Prog C R α) >>= f = .call c (fun r ↦ k r >>= f) := rfl

end Prog

/-- A process keeps a private memory `σ`, which outlives its exceptions but not
its crash. -/
abbrev Process (C : Type) (R : C → Type) (σ ε : Type) := ExceptT ε (StateT σ (Prog C R))

/-- Perform one command and turn its reply into a result or an exception. -/
def invoke (c : C) (f : R c → Except ε α) : Process C R σ ε α :=
  ExceptT.mk fun s ↦ .call c (fun r ↦ .done (f r, s))

namespace Process

def start (p : Process C R σ ε α) (s : σ) : Prog C R (Except ε α × σ) :=
  (ExceptT.run p).run s

theorem start_bind (p : Process C R σ ε α) (f : α → Process C R σ ε β) (s : σ) :
    (p >>= f).start s = p.start s >>= fun x ↦ match x.1 with
      | .ok a => (f a).start x.2
      | .error e => .done (.error e, x.2) := by
  change p.start s >>= _ = p.start s >>= _
  congr 1
  funext ⟨x, s⟩
  cases x <;> rfl

theorem start_tryCatch (p : Process C R σ ε α) (f : ε → Process C R σ ε α) (s : σ) :
    (tryCatch p f).start s = p.start s >>= fun x ↦ match x.1 with
      | .ok a => .done (.ok a, x.2)
      | .error e => (f e).start x.2 := by
  change p.start s >>= _ = p.start s >>= _
  congr 1
  funext ⟨x, s⟩
  cases x <;> rfl

theorem start_map (f : α → β) (p : Process C R σ ε α) (s : σ) :
    (f <$> p).start s = p.start s >>= fun x ↦ .done (x.1.map f, x.2) := by
  change p.start s >>= _ = p.start s >>= _
  congr 1
  funext ⟨x, s⟩
  cases x <;> rfl

end Process

/-- The command a program is waiting for. -/
def Prog.next : Prog C R α → Option C
  | .done _ => none
  | .call c _ => some c

def isDone : Option (Prog C R Unit) → Bool
  | some (.done ()) => true
  | _ => false

theorem eq_done {thread : Option (Prog C R Unit)} (hd : isDone thread = true) :
    thread = some (.done ()) := by
  match thread, hd with
  | some (.done ()), _ => rfl

end RustdeskConsole.Effects

namespace RustdeskConsole.Effects

open Function Relation

variable {ι C : Type} {R : C → Type} {O W : Type}

/-- The world a family of programs runs in. `O` collects everything the world
chooses by itself: failures, replies of other systems, the clock. A command
without a reply takes its program down with it. -/
structure Machine (ι C : Type) (R : C → Type) (O W : Type) where
  exec : ι → (c : C) → O → W → W × Option (R c)
  admits : ι → W → Prog C R Unit → Prop

/-- What a command that always replies did. -/
theorem map_some_inj {α : Type} {x : W × α} {w : W} {a : α} (h : x.map id some = (w, some a)) :
    x = (w, a) := by
  obtain ⟨hw, ha⟩ := Prod.mk.inj h
  exact Prod.ext hw (Option.some.inj ha)

structure Config (ι C : Type) (R : C → Type) (W : Type) where
  threads : ι → Option (Prog C R Unit)
  world : W

namespace Machine

def idle (w : W) : Config ι C R W := ⟨fun _ ↦ none, w⟩

variable [DecidableEq ι]

/-- One step of one thread. A thread may stop between any two of its commands,
and whatever the machine admits may be started in its place. -/
inductive Step (M : Machine ι C R O W) : Config ι C R W → Config ι C R W → Prop
  | spawn {threads w} {i : ι} {p : Prog C R Unit} :
      threads i = none → M.admits i w p → Step M ⟨threads, w⟩ ⟨update threads i (some p), w⟩
  | reply {threads w w'} {i : ι} {c : C} {k : R c → Prog C R Unit} (o : O) {r : R c} :
      threads i = some (.call c k) → M.exec i c o w = (w', some r) →
      Step M ⟨threads, w⟩ ⟨update threads i (some (k r)), w'⟩
  | abort {threads w w'} {i : ι} {c : C} {k : R c → Prog C R Unit} (o : O) :
      threads i = some (.call c k) → M.exec i c o w = (w', none) →
      Step M ⟨threads, w⟩ ⟨update threads i none, w'⟩
  | stop {threads w} (i : ι) : Step M ⟨threads, w⟩ ⟨update threads i none, w⟩

def Run (M : Machine ι C R O W) : Config ι C R W → Config ι C R W → Prop := ReflTransGen M.Step

/-- A run each step of which satisfies `P`. -/
def RunWhere (M : Machine ι C R O W) (P : Config ι C R W → Config ι C R W → Prop) :
    Config ι C R W → Config ι C R W → Prop :=
  ReflTransGen fun cfg cfg' ↦ M.Step cfg cfg' ∧ P cfg cfg'

theorem RunWhere.run {M : Machine ι C R O W} {P : Config ι C R W → Config ι C R W → Prop}
    {cfg cfg' : Config ι C R W} (h : M.RunWhere P cfg cfg') : M.Run cfg cfg' :=
  ReflTransGen.mono (fun _ _ ↦ And.left) _ _ h

/-- The part of a run in which thread `i` alone moves, with the world's choices
given one by one. A spent list of choices leaves the program where it is. -/
def play (M : Machine ι C R O W) (i : ι) :
    List O → Prog C R Unit → W → Option (Prog C R Unit) × W
  | [], p, w => (some p, w)
  | _ :: _, .done a, w => (some (.done a), w)
  | o :: os, .call c k, w =>
    match M.exec i c o w with
    | (w', some r) => M.play i os (k r) w'
    | (w', none) => (none, w')

/-- Whether each command of such a part takes the world only where `T` lets it. -/
def plays (M : Machine ι C R O W) (i : ι) (T : W → W → Bool) :
    List O → Prog C R Unit → W → Bool
  | [], _, _ => true
  | _ :: _, .done _, _ => true
  | o :: os, .call c k, w =>
    match M.exec i c o w with
    | (w', some r) => T w w' && M.plays i T os (k r) w'
    | (w', none) => T w w'

section Play

variable (M : Machine ι C R O W) (i : ι)

theorem play_runWhere {T : W → W → Bool} {P : Config ι C R W → Config ι C R W → Prop}
    (hT : ∀ a b, T a.world b.world = true → P a b) (os : List O) (p : Prog C R Unit) (w : W)
    (threads : ι → Option (Prog C R Unit)) (hp : threads i = some p)
    (h : M.plays i T os p w = true) :
    M.RunWhere P ⟨threads, w⟩ ⟨update threads i (M.play i os p w).1, (M.play i os p w).2⟩ := by
  induction os generalizing p w threads with
  | nil =>
    simp only [play, ← hp, update_eq_self]
    exact .refl
  | cons o os ih =>
    cases p with
    | done a =>
      simp only [play, ← hp, update_eq_self]
      exact .refl
    | call c k =>
      rcases he : M.exec i c o w with ⟨w', _ | r⟩
      · simp only [plays, he] at h
        simp only [play, he]
        exact .single ⟨.abort o hp he, hT _ _ h⟩
      · simp only [plays, he, Bool.and_eq_true] at h
        simp only [play, he]
        have hr := ih (k r) w' (update threads i (some (k r))) (update_self ..) h.2
        rw [update_idem] at hr
        exact .head ⟨.reply o hp he, hT _ _ h.1⟩ hr

omit [DecidableEq ι] in
theorem plays_true (os : List O) (p : Prog C R Unit) (w : W) :
    M.plays i (fun _ _ ↦ true) os p w = true := by
  induction os generalizing p w with
  | nil => rfl
  | cons o os ih =>
    cases p with
    | done a => rfl
    | call c k =>
      rcases he : M.exec i c o w with ⟨w', _ | r⟩
      · simp only [plays, he]
      · simp only [plays, he, ih, Bool.and_self]

theorem play_run (os : List O) (p : Prog C R Unit) (w : W)
    (threads : ι → Option (Prog C R Unit)) (hp : threads i = some p) :
    M.Run ⟨threads, w⟩ ⟨update threads i (M.play i os p w).1, (M.play i os p w).2⟩ :=
  (M.play_runWhere i (fun _ _ _ ↦ trivial) os p w threads hp (M.plays_true i os p w) :
    M.RunWhere (fun _ _ ↦ True) _ _).run

/-- A program started by an idle machine and played to some point. -/
theorem start_run (os : List O) {p : Prog C R Unit} {w : W}
    {threads : ι → Option (Prog C R Unit)} (hi : threads i = none) (ha : M.admits i w p) :
    M.Run ⟨threads, w⟩ ⟨update threads i (M.play i os p w).1, (M.play i os p w).2⟩ := by
  have h := M.play_run i os p w (update threads i (some p)) (update_self ..)
  rw [update_idem] at h
  exact .head (.spawn hi ha) h

/-- A run goes on with a thread that is still running. -/
def resume (os : List O) (cfg : Config ι C R W) : Config ι C R W :=
  match cfg.threads i with
  | none => cfg
  | some p => ⟨update cfg.threads i (M.play i os p cfg.world).1, (M.play i os p cfg.world).2⟩

def launch (p : Prog C R Unit) (cfg : Config ι C R W) : Config ι C R W :=
  ⟨update cfg.threads i (some p), cfg.world⟩

/-- One turn of a schedule: a thread that may start is started, and then moves. -/
def turn (program : ι → Prog C R Unit) (fresh : ι → W → Bool) (cfg : Config ι C R W)
    (t : ι × List O) : Config ι C R W :=
  M.resume t.1 t.2 (if (cfg.threads t.1).isNone && fresh t.1 cfg.world then
    launch t.1 (program t.1) cfg else cfg)

def schedule (program : ι → Prog C R Unit) (fresh : ι → W → Bool) (turns : List (ι × List O))
    (cfg : Config ι C R W) : Config ι C R W :=
  turns.foldl (M.turn program fresh) cfg

/-- Whether each command of a turn takes the world only where `T` lets it. -/
def turns (program : ι → Prog C R Unit) (fresh : ι → W → Bool) (T : W → W → Bool)
    (cfg : Config ι C R W) (t : ι × List O) : Bool :=
  let started := if (cfg.threads t.1).isNone && fresh t.1 cfg.world then
    launch t.1 (program t.1) cfg else cfg
  (started.threads t.1).all fun p ↦ M.plays t.1 T t.2 p cfg.world

def schedules (program : ι → Prog C R Unit) (fresh : ι → W → Bool) (T : W → W → Bool) :
    List (ι × List O) → Config ι C R W → Bool
  | [], _ => true
  | t :: ts, cfg => M.turns program fresh T cfg t &&
      schedules program fresh T ts (M.turn program fresh cfg t)

variable {M i} {cfg : Config ι C R W} {P : Config ι C R W → Config ι C R W → Prop}
  {program : ι → Prog C R Unit} {fresh : ι → W → Bool}

theorem resume_runWhere {T : W → W → Bool} (hT : ∀ a b, T a.world b.world = true → P a b)
    {os : List O} (h : ((cfg.threads i).all fun p ↦ M.plays i T os p cfg.world) = true) :
    M.RunWhere P cfg (M.resume i os cfg) := by
  unfold resume
  split
  · exact .refl
  · rename_i p hp
    rw [hp] at h
    exact M.play_runWhere i hT os p cfg.world cfg.threads hp h

/-- One choice takes a thread that waits for a command one step further. -/
theorem resume_step (o : O) (h : ((cfg.threads i).bind Prog.next).isSome = true) :
    M.Step cfg (M.resume i [o] cfg) := by
  unfold resume
  split
  · rename_i hp
    simp only [hp, Option.bind_none, Option.isSome_none, Bool.false_eq_true] at h
  · rename_i p hp
    cases p with
    | done a => simp only [hp, Option.bind_some, Prog.next, Option.isSome_none,
        Bool.false_eq_true] at h
    | call c k =>
      simp only [play]
      rcases he : M.exec i c o cfg.world with ⟨w', _ | r⟩
      · exact .abort o hp he
      · exact .reply o hp he

theorem turn_runWhere {T : W → W → Bool} (hT : ∀ a b, T a.world b.world = true → P a b)
    (hrefl : ∀ w, T w w = true) (ha : ∀ i w, fresh i w = true → M.admits i w (program i))
    {t : ι × List O} (h : M.turns program fresh T cfg t = true) :
    M.RunWhere P cfg (M.turn program fresh cfg t) := by
  unfold turn
  unfold turns at h
  split at h
  · rename_i hc
    obtain ⟨hi, hf⟩ := Bool.and_eq_true_iff.mp hc
    rw [if_pos hc]
    exact .head ⟨.spawn (Option.isNone_iff_eq_none.mp hi) (ha _ _ hf), hT _ _ (hrefl _)⟩
      (resume_runWhere hT h)
  · rename_i hc
    rw [if_neg hc]
    exact resume_runWhere hT h

theorem schedule_runWhere {T : W → W → Bool} (hT : ∀ a b, T a.world b.world = true → P a b)
    (hrefl : ∀ w, T w w = true) (ha : ∀ i w, fresh i w = true → M.admits i w (program i))
    (turns : List (ι × List O)) (h : M.schedules program fresh T turns cfg = true) :
    M.RunWhere P cfg (M.schedule program fresh turns cfg) := by
  induction turns generalizing cfg with
  | nil => exact .refl
  | cons t ts ih =>
    obtain ⟨ht, hts⟩ := Bool.and_eq_true_iff.mp h
    exact (turn_runWhere hT hrefl ha ht).trans (ih hts)

theorem schedules_true (turns : List (ι × List O)) :
    M.schedules program fresh (fun _ _ ↦ true) turns cfg = true := by
  induction turns generalizing cfg with
  | nil => rfl
  | cons t ts ih =>
    refine Bool.and_eq_true_iff.mpr ⟨?_, ih⟩
    simp only [Machine.turns, plays_true]
    split <;> simp

theorem schedule_run (ha : ∀ i w, fresh i w = true → M.admits i w (program i))
    (turns : List (ι × List O)) : M.Run cfg (M.schedule program fresh turns cfg) :=
  (schedule_runWhere (fun _ _ _ ↦ trivial) (fun _ ↦ rfl) ha turns (schedules_true turns) :
    M.RunWhere (fun _ _ ↦ True) _ _).run

end Play

end Machine

end RustdeskConsole.Effects
