import Mathlib.Data.List.Basic
import RustdeskConsole.Auth.Entities
import RustdeskConsole.Effects.Logic

namespace RustdeskConsole.Startup

open Effects
open Auth (UserStatus)

/-- What a start throws: a failed query, another failed call, or a message. -/
inductive Failure
  | query
  | unknown
  | error (message : String)
  deriving DecidableEq

structure User where
  guid : String
  username : String
  email : Option String
  password : Option String
  status : UserStatus
  isAdmin : Bool
  note : Option String
  userGroupGuid : Option String
  deriving DecidableEq

inductive DatabaseType
  | sqlite
  | mysql
  deriving DecidableEq

/-- One start of a server; `configuredPassword` is `ADMIN_PASSWORD`. -/
structure Start where
  type : DatabaseType
  configuredPassword : Option String
  deriving DecidableEq

inductive Command
  | initializeStorage
  | countOwners
  | createIndex
  | findOwner
  | uuidv4
  | hash (password : String)
  | save (user : User)
  | return
  | other (write : List User)

@[reducible] def Reply : Command → Type
  | .initializeStorage | .uuidv4 | .hash _ => Except Failure String
  | .countOwners => Except Failure ℕ
  | .findOwner => Except Failure (Option User)
  | _ => Except Failure Unit

/-- How a call fails, if it does, whether it was carried out all the same, and what
comes from outside: a guid, a hash, or the groups that `initializeStorage` gives to
the users there are. -/
structure Choice where
  failure : Option Failure
  done : Bool
  text : String
  groups : List (Option String)

/-- The users of a database, its index `UQ_users_single_owner`, and the starts that
have returned. -/
structure World where
  users : List User
  index : Bool
  returned : List ℕ

def World.owners (w : World) : List User := w.users.filter User.isAdmin

/-- Who owns the system. -/
def owning (users : List User) : List (String × String) :=
  (users.filter User.isAdmin).map fun user ↦ (user.guid, user.username)

/-- The unique columns of two rows. -/
def User.clashes (user user' : User) : Bool :=
  user.guid = user'.guid || user.username = user'.username ||
    (user.email.isSome && user.email = user'.email)

/-- Whether a row may be inserted. -/
def World.accepts (w : World) (user : User) : Bool :=
  !w.users.any user.clashes && !(w.index && user.isAdmin && !w.owners.isEmpty)

/-- `initializeStorage` changes no more of the users than their groups. -/
def World.regroup (w : World) (groups : List (Option String)) : World :=
  { w with users := w.users.zipIdx.map fun (user, i) ↦
      { user with userGroupGuid := groups.getD i user.userGroupGuid } }

def Choice.answer {α : Type} (o : Choice) (a : α) : Except Failure α :=
  match o.failure with
  | some failure => .error failure
  | none => .ok a

/-- What a call that changes something leaves. -/
def Choice.change (o : Choice) (w w' : World) : World :=
  if o.failure.isNone || o.done then w' else w

def exec (id : ℕ) : (c : Command) → Choice → World → World × Option (Reply c)
  | .initializeStorage, o, w => (o.change w (w.regroup o.groups), some (o.answer o.text))
  | .countOwners, o, w => (w, some (o.answer w.owners.length))
  | .createIndex, o, w =>
    if !w.index && 1 < w.owners.length then (w, some (.error .query))
    else (o.change w { w with index := true }, some (o.answer ()))
  | .findOwner, o, w => (w, some (o.answer w.owners.head?))
  | .uuidv4, o, w => (w, some (.ok o.text))
  | .hash _, o, w => (w, some (o.answer o.text))
  | .save user, o, w =>
    if !w.accepts user then (w, some (.error .query))
    else (o.change w { w with users := w.users ++ [user] }, some (o.answer ()))
  | .return, _, w => ({ w with returned := id :: w.returned }, some (.ok ()))
  | .other write, o, w =>
    if owning write = owning w.users then
      (o.change w { w with users := write }, some (o.answer ()))
    else (w, some (.error .unknown))

abbrev Handler := Process Command Reply Unit Failure

/-- The command throws what it replies as a failure. -/
def attempt {α : Type} (c : Command) (h : Reply c = Except Failure α) : Handler α :=
  invoke c fun reply ↦ h ▸ reply

namespace DatabaseInitService

def duplicates (owners : ℕ) : Failure :=
  .error ("Database contains " ++ toString owners ++
    " system owners; resolve the duplicate isAdmin rows offline before starting the server")

def createDefaultAdmin (start : Start) (defaultGroupGuid : String) : Handler Unit := do
  match ← attempt .findOwner rfl with
  | some _ => pure ()
  | none =>
    let adminPassword := start.configuredPassword.getD "databk"
    if adminPassword.isEmpty then throw (.error "ADMIN_PASSWORD must not be empty")
    else do
      let guid ← attempt .uuidv4 rfl
      let password ← attempt (.hash adminPassword) rfl
      tryCatch
        (attempt (.save
          { guid, username := "databk", email := some "databk@github.com"
            password := some password, status := .active, isAdmin := true
            note := some "Default administrator account"
            userGroupGuid := some defaultGroupGuid }) rfl)
        fun failure ↦
          if failure = .query then do
            match ← attempt .findOwner rfl with
            | some _ => pure ()
            | none => throw failure
          else throw failure

def ensureIndex : Handler Unit :=
  tryCatch (attempt .createIndex rfl) fun failure ↦
    if failure = .query then do
      let currentOwners ← attempt .countOwners rfl
      if 1 < currentOwners then throw (duplicates currentOwners) else throw failure
    else throw failure

/-- Without the two clean-ups at the end, which are of other tables. -/
def onModuleInit (start : Start) : Handler Unit := do
  let defaultGroup ← attempt .initializeStorage rfl
  let owners ← attempt .countOwners rfl
  if 1 < owners then throw (duplicates owners)
  else do
    if start.type = .sqlite then ensureIndex
    createDefaultAdmin start defaultGroup

end DatabaseInitService

/-- A server that starts, or any other write to the users, which changes no owner. -/
inductive Call
  | start (start : Start)
  | other (write : List User)

def handler : Call → Prog Command Reply Unit
  | .start start => (do
      DatabaseInitService.onModuleInit start
      attempt .return rfl : Handler Unit).start () >>= fun _ ↦ .done ()
  | .other write => (attempt (.other write) rfl : Handler Unit).start () >>= fun _ ↦ .done ()

/-- Any number of servers of one database start at once. -/
def machine (calls : ℕ → Call) : Machine ℕ Command Reply Choice World where
  exec := exec
  admits id _ p := p = handler (calls id)

section Proofs

variable {calls : ℕ → Call} {base : List (String × String)} {w w' : World} {id : ℕ}

/-- The owner is the one there was, or one that a start has made. -/
structure Sound (base : List (String × String)) (w : World) : Prop where
  owner : owning w.users = base ∨ base = [] ∧ ∃ guid, owning w.users = [(guid, "databk")]
  returned : ∀ id ∈ w.returned, (owning w.users).length = 1

def guard (base : List (String × String)) (c : Command) (w : World) : Prop :=
  match c with
  | .save user => base = [] ∧ user.username = "databk" ∧ user.isAdmin = true
  | .return => (owning w.users).length = 1
  | _ => True

/-- What a command does to the owners. -/
inductive Move (base : List (String × String)) (w w' : World) : Prop
  | same : owning w'.users = owning w.users →
      (∀ id ∈ w'.returned, id ∈ w.returned ∨ (owning w.users).length = 1) → Move base w w'
  | first (guid : String) : base = [] → owning w.users = [] →
      owning w'.users = [(guid, "databk")] → w'.returned = w.returned → Move base w w'

theorem owning_append {users users' : List User} :
    owning (users ++ users') = owning users ++ owning users' := by
  rw [owning, List.filter_append, List.map_append]
  rfl

theorem owning_regroup {groups : List (Option String)} :
    owning (w.regroup groups).users = owning w.users := by
  have hfst : (w.users.zipIdx).map Prod.fst = w.users := List.zipIdx_map_fst ..
  conv_rhs => rw [← hfst]
  simp only [owning, World.regroup, List.filter_map, List.map_map]
  rfl

theorem clashes_of_owning {user : User} {guid : String}
    (hm : (guid, user.username) ∈ owning w.users) : w.users.any user.clashes = true := by
  obtain ⟨other, hother, heq⟩ := List.mem_map.mp hm
  refine List.any_eq_true.mpr ⟨other, (List.mem_filter.mp hother).1, ?_⟩
  simp [User.clashes, (Prod.mk.inj heq).2]

theorem Move.none : Move base w w := .same rfl fun _ h ↦ .inl h

theorem Move.change {o : Choice} (h : Move base w w') : Move base w (o.change w w') := by
  rw [Choice.change]
  split
  · exact h
  · exact .none

theorem exec_move {c : Command} {o : Choice} (hs : Sound base w) (hg : guard base c w) :
    Move base w (exec id c o w).1 := by
  cases c with
  | initializeStorage => exact .change (.same owning_regroup fun _ h ↦ .inl h)
  | countOwners | findOwner | uuidv4 | hash => exact .none
  | createIndex =>
    rw [exec]
    split
    · exact .none
    · exact .change (.same rfl fun _ h ↦ .inl h)
  | save user =>
    obtain ⟨hbase, hname, hadmin⟩ := hg
    rw [exec]
    split
    · exact .none
    · next haccepts =>
      rw [Bool.not_eq_true', Bool.not_eq_false] at haccepts
      have hfree := (Bool.and_eq_true_iff.mp haccepts).1
      have hempty : owning w.users = [] := by
        rcases hs.owner with heq | ⟨-, guid, heq⟩
        · rw [heq, hbase]
        · have hmem : (guid, user.username) ∈ owning w.users := by
            rw [heq, hname]
            exact List.mem_singleton_self _
          simp [clashes_of_owning hmem] at hfree
      refine .change (.first user.guid hbase hempty ?_ rfl)
      rw [owning_append, hempty]
      simp [owning, hadmin, hname]
  | «return» =>
    refine .same rfl fun caller hc ↦ ?_
    rcases List.mem_cons.mp hc with rfl | hc
    · exact .inr hg
    · exact .inl hc
  | other write =>
    rw [exec]
    split
    · next heq => exact .change (.same heq fun _ h ↦ .inl h)
    · exact .none

theorem Move.sound (hm : Move base w w') (hs : Sound base w) : Sound base w' := by
  cases hm with
  | same heq hreturned =>
    refine ⟨heq ▸ hs.owner, fun caller hc ↦ ?_⟩
    rw [heq]
    exact (hreturned caller hc).elim (hs.returned caller) fun h ↦ h
  | first guid hbase hempty heq hreturned =>
    refine ⟨.inr ⟨hbase, guid, heq⟩, fun caller hc ↦ ?_⟩
    rw [heq]
    rfl

/-- An owner stays the owner. -/
def Stays (w w' : World) : Prop := owning w.users ≠ [] → owning w'.users = owning w.users

theorem Stays.trans {w'' : World} (h : Stays w w') (h' : Stays w' w'') : Stays w w'' := by
  intro hne
  have heq := h hne
  exact (h' (heq ▸ hne)).trans heq

theorem Move.stays (hm : Move base w w') : Stays w w' := by
  intro hne
  cases hm with
  | same heq => exact heq
  | first guid hbase hempty => exact (hne hempty).elim

/-- A start makes itself the first owner, or leaves the owners alone. -/
def logic (calls : ℕ → Call) (base : List (String × String)) : Logic (machine calls) where
  inv := Sound base
  guard _ := guard base
  rely _ := Stays
  rely_refl _ _ _ := rfl
  rely_trans _ := .trans
  keeps _ _ hs hg := (exec_move hs hg).sound hs
  interferes _ _ _ hs hg := (exec_move hs hg).stays

variable {α : Type} {Q : α → World → Prop} {P : World → Prop}

/-- The part of a start ends in `Q`, if it does not throw. -/
abbrev Does (calls : ℕ → Call) (base : List (String × String)) (id : ℕ) (p : Handler α)
    (Q : α → World → Prop) (w : World) : Prop :=
  (logic calls base).Ensures id p (fun a _ ↦ Q a) (fun _ _ _ ↦ True) () w

theorem Does.attempt {c : Command} {h : Reply c = Except Failure α}
    (hc : ∀ w, Sound base w → guard base c w ∧ ∀ o w' r, exec id c o w = (w', some r) →
      ∀ a, h ▸ r = Except.ok a → Q a w') : Does calls base id (attempt c h) Q w := by
  refine .invoke fun w₁ _ hs ↦ ?_
  obtain ⟨hguard, hdone⟩ := hc w₁ hs
  refine ⟨hguard, fun o w₂ r hexec _ ↦ ?_⟩
  cases hr : (h ▸ r : Except Failure α) with
  | ok a => exact hdone o w₂ r hexec a hr
  | error failure => trivial

theorem Does.bind {β : Type} {p : Handler α} {f : α → Handler β} {Q' : β → World → Prop}
    (hp : Does calls base id p Q w) (hf : ∀ a w, Q a w → Does calls base id (f a) Q' w) :
    Does calls base id (p >>= f) Q' w :=
  hp.andThen fun a _ w ↦ hf a w

theorem Does.tryCatch {p : Handler α} {f : Failure → Handler α} (hp : Does calls base id p Q w)
    (hf : ∀ failure w, Does calls base id (f failure) Q w) :
    Does calls base id (tryCatch p f) Q w :=
  Logic.Ensures.tryCatch (Q := fun a _ ↦ Q a)
    (hp.mono (fun _ _ _ h ↦ h) fun failure _ w _ ↦ hf failure w)

/-- Exactly one owner. -/
def Owned (w : World) : Prop := (owning w.users).length = 1

theorem Owned.stays (h : Owned w) (hw : Stays w w') : Owned w' := by
  rw [Owned, hw (List.ne_nil_of_length_eq_add_one h)]
  exact h

theorem Sound.owned (hs : Sound base w) (hb : base.length ≤ 1) (hne : owning w.users ≠ []) :
    Owned w := by
  rw [Owned]
  rcases hs.owner with heq | ⟨-, guid, heq⟩
  · have hpos := List.length_pos_iff.mpr hne
    rw [heq] at hpos ⊢
    exact Nat.le_antisymm hb hpos
  · rw [heq]
    rfl

theorem Sound.length_base (hs : Sound base w) (h : (owning w.users).length ≤ 1) :
    base.length ≤ 1 := by
  rcases hs.owner with heq | ⟨rfl, -⟩
  · rwa [heq] at h
  · exact Nat.zero_le 1

theorem Sound.base_eq_nil (hs : Sound base w) (h : owning w.users = []) : base = [] := by
  rcases hs.owner with heq | ⟨hbase, -⟩
  · exact heq.symm.trans h
  · exact hbase

theorem length_owners : w.owners.length = (owning w.users).length := (List.length_map ..).symm

theorem answer_eq_ok {o : Choice} {a a' : α} (h : o.answer a = .ok a') : a = a' := by
  rw [Choice.answer] at h
  split at h
  · cases h
  · exact Except.ok.inj h

theorem countOwners_spec : Does calls base id (attempt .countOwners rfl)
    (fun owners _ ↦ owners ≤ 1 → base.length ≤ 1) w := by
  refine .attempt fun w₁ hs ↦ ⟨trivial, fun o w₂ r he owners hr hle ↦ ?_⟩
  cases he
  obtain rfl := answer_eq_ok hr
  exact hs.length_base (length_owners ▸ hle)

theorem findOwner_spec (hb : base.length ≤ 1) : Does calls base id (attempt .findOwner rfl)
    (fun owner w ↦ (owner.isSome → Owned w) ∧ (owner = none → base = [])) w := by
  refine .attempt fun w₁ hs ↦ ⟨trivial, fun o w₂ r he owner hr ↦ ?_⟩
  cases he
  obtain rfl := answer_eq_ok hr
  refine ⟨fun hsome ↦ hs.owned hb fun hnil ↦ ?_, fun hnone ↦ hs.base_eq_nil ?_⟩
  · have hempty : w₁.owners = [] := List.map_eq_nil_iff.mp hnil
    rw [hempty] at hsome
    cases hsome
  · exact List.map_eq_nil_iff.mpr (List.head?_eq_none_iff.mp hnone)

theorem save_spec {user : User} (hb : base = []) (hname : user.username = "databk")
    (hadmin : user.isAdmin = true) :
    Does calls base id (attempt (.save user) rfl) (fun _ ↦ Owned) w := by
  refine .attempt fun w₁ hs ↦ ⟨⟨hb, hname, hadmin⟩, fun o w₂ r he _ hr ↦ ?_⟩
  obtain rfl : r = .ok () := hr
  have hmove : Move base w₁ (exec id (.save user) o w₁).1 := exec_move hs ⟨hb, hname, hadmin⟩
  rw [he] at hmove
  refine (hmove.sound hs).owned (hb ▸ Nat.zero_le 1) fun hnil ↦ ?_
  rw [exec] at he
  split at he
  · cases he
  · obtain ⟨rfl, hreply⟩ := Prod.mk.inj he
    have hdone : o.failure = none := by
      cases hf : o.failure with
      | none => rfl
      | some failure => simp [Choice.answer, hf] at hreply
    have hchange : o.change w₁ { w₁ with users := w₁.users ++ [user] } =
        { w₁ with users := w₁.users ++ [user] } := by simp [Choice.change, hdone]
    rw [hchange, owning_append, List.append_eq_nil_iff] at hnil
    simp [owning, hadmin] at hnil

theorem createDefaultAdmin_spec {start : Start} {defaultGroupGuid : String} (hb : base.length ≤ 1) :
    Does calls base id (DatabaseInitService.createDefaultAdmin start defaultGroupGuid)
      (fun _ ↦ Owned) w := by
  refine (findOwner_spec hb).bind fun owner w howner ↦ ?_
  cases owner with
  | some owner => exact .pure (howner.1 rfl)
  | none =>
    have hbase := howner.2 rfl
    dsimp only
    split
    · exact .throw trivial
    · have huuid : Does calls base id (attempt .uuidv4 rfl) (fun _ _ ↦ True) w :=
        .attempt fun _ _ ↦ ⟨trivial, fun _ _ _ _ _ _ ↦ trivial⟩
      refine huuid.bind fun guid w _ ↦ ?_
      have hhash : ∀ password, Does calls base id (attempt (.hash password) rfl)
          (fun _ _ ↦ True) w :=
        fun _ ↦ .attempt fun _ _ ↦ ⟨trivial, fun _ _ _ _ _ _ ↦ trivial⟩
      refine (hhash _).bind fun password w _ ↦ ?_
      refine (save_spec hbase rfl rfl).tryCatch fun failure w ↦ ?_
      split
      · refine (findOwner_spec hb).bind fun owner w howner ↦ ?_
        cases owner with
        | some owner => exact .pure (howner.1 rfl)
        | none => exact .throw trivial
      · exact .throw trivial

theorem ensureIndex_spec :
    Does calls base id DatabaseInitService.ensureIndex (fun _ _ ↦ True) w := by
  have hindex : Does calls base id (attempt .createIndex rfl) (fun _ _ ↦ True) w :=
    .attempt fun _ _ ↦ ⟨trivial, fun _ _ _ _ _ _ ↦ trivial⟩
  refine hindex.tryCatch fun failure w ↦ ?_
  split
  · refine countOwners_spec.bind fun owners w _ ↦ ?_
    split
    · exact .throw trivial
    · exact .throw trivial
  · exact .throw trivial

/-- A start that does not throw leaves one owner. -/
theorem onModuleInit_spec {start : Start} :
    Does calls base id (DatabaseInitService.onModuleInit start) (fun _ ↦ Owned) w := by
  have hstorage : Does calls base id (attempt .initializeStorage rfl) (fun _ _ ↦ True) w :=
    .attempt fun _ _ ↦ ⟨trivial, fun _ _ _ _ _ _ ↦ trivial⟩
  refine hstorage.bind fun defaultGroup w _ ↦ ?_
  refine countOwners_spec.bind fun owners w hb ↦ ?_
  split
  · exact .throw trivial
  · next hle =>
    have hb := hb (Nat.le_of_not_lt hle)
    split
    · exact ensureIndex_spec.bind fun _ _ _ ↦ createDefaultAdmin_spec hb
    · exact createDefaultAdmin_spec hb

theorem admissible : (logic calls base).Admissible := by
  rintro id w p - rfl
  cases calls id with
  | start start =>
    have hcall : Does calls base id (do DatabaseInitService.onModuleInit start; attempt .return rfl)
        (fun _ _ ↦ True) w := by
      refine onModuleInit_spec.bind fun _ w howned ↦ ?_
      exact .invoke fun w₁ hstays _ ↦ ⟨howned.stays hstays, fun _ _ r _ _ ↦ by
        cases r <;> trivial⟩
    exact Logic.Wp.bind (Logic.Wp.mono hcall fun _ _ _ ↦ trivial)
  | other write =>
    have hcall : Does calls base id (attempt (.other write) rfl) (fun _ _ ↦ True) w :=
      .attempt fun _ _ ↦ ⟨trivial, fun _ _ _ _ _ _ ↦ trivial⟩
    exact Logic.Wp.bind (Logic.Wp.mono hcall fun _ _ _ ↦ trivial)

end Proofs

section Runs

variable {calls : ℕ → Call} {w : World} {cfg cfg' : Config ℕ Command Reply World}

/-- Two servers start on an empty database. -/
def sampleCalls : ℕ → Call := fun _ ↦ .start ⟨.mysql, none⟩

def emptyWorld : World := ⟨[], false, []⟩

/-- Both of them have found no owner when the second one makes itself one. -/
def sampleTurns : List (ℕ × List Choice) :=
  [(0, List.replicate 3 ⟨none, false, "0", []⟩), (1, List.replicate 7 ⟨none, false, "1", []⟩),
    (0, List.replicate 5 ⟨none, false, "0", []⟩)]

def sampleRun : Config ℕ Command Reply World :=
  (machine sampleCalls).schedule (fun id ↦ handler (sampleCalls id)) (fun _ _ ↦ true) sampleTurns
    (Machine.idle emptyWorld)

theorem sample_run : (machine sampleCalls).Run (Machine.idle emptyWorld) sampleRun :=
  Machine.schedule_run (fun _ _ _ ↦ rfl) sampleTurns

example : sampleRun.world.returned = [0, 1] ∧ owning sampleRun.world.users = [("1", "databk")] := by
  decide

/-- Whichever servers start at once, and wherever one stops, an owner stays the
owner, no second one is made, and after a start that has returned there is exactly
one. -/
theorem one_owner (hw : w.returned = []) (hr : (machine calls).Run (Machine.idle w) cfg)
    (hr' : (machine calls).Run cfg cfg') :
    (owning cfg'.world.users = owning w.users ∨
        owning w.users = [] ∧ ∃ guid, owning cfg'.world.users = [(guid, "databk")]) ∧
      (owning cfg.world.users ≠ [] → owning cfg'.world.users = owning cfg.world.users) ∧
      ∀ id ∈ cfg.world.returned, ∃ owner, owning cfg'.world.users = [owner] := by
  have hstart : (logic calls (owning w.users)).Verified (Machine.idle w) :=
    Logic.verified_idle ⟨.inl rfl, fun id hid ↦ by
      rw [hw] at hid
      cases hid⟩
  have hverified := hstart.run admissible hr
  have hstays : Stays cfg.world cfg'.world :=
    hverified.run_within admissible (fun _ _ ↦ rfl) .trans
      (fun _ _ _ _ hs hg ↦ (exec_move hs hg).stays) hr'
  refine ⟨(hverified.run admissible hr').1.owner, hstays, fun id hid ↦ ?_⟩
  exact List.length_eq_one_iff.mp (Owned.stays (hverified.1.returned id hid) hstays)

theorem sample_owner :
    (owning sampleRun.world.users = [] ∨
        ([] : List (String × String)) = [] ∧
          ∃ guid, owning sampleRun.world.users = [(guid, "databk")]) ∧
      (owning sampleRun.world.users ≠ [] →
        owning sampleRun.world.users = owning sampleRun.world.users) ∧
      ∀ id ∈ sampleRun.world.returned, ∃ owner, owning sampleRun.world.users = [owner] :=
  one_owner rfl sample_run .refl

end Runs

end RustdeskConsole.Startup
