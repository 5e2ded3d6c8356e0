import RustdeskConsole.Effects.Logic
import RustdeskConsole.Accounts.Effect

namespace RustdeskConsole.Accounts

open Auth (UserStatus)
open Effects Effects.History

/-- A value kept in a column of the users table that operators may ask to set. -/
structure Field (α : Type) where
  value : User → α
  asked : String → Request → Option α
  permission : String
  rewrites : Change → Bool
  merge : ∀ change row, value (change.merge row) =
    if rewrites change then value change.saved else value row

def statusField : Field UserStatus where
  value := (·.status)
  asked := Request.askedStatus
  permission := "users.status"
  rewrites change := change.saved.status ≠ change.loaded.status
  merge change row := by
    by_cases h : change.saved.status = change.loaded.status <;> simp [Change.merge, column, h]

/-- The flag is one entry of the `info` column, which is written as a whole. -/
def enforceField : Field Bool where
  value := User.isEnforced
  asked := Request.askedEnforce
  permission := "users.security"
  rewrites change := change.saved.info ≠ change.loaded.info
  merge change row := by
    by_cases h : change.saved.info = change.loaded.info <;>
      simp [Change.merge, column, h, User.isEnforced, User.getUserInfo]

namespace Field

variable {α : Type} (F : Field α)

/-- What the event gave to the account because an operator asked for it. -/
def granted (guid : String) (e : Call × Event) : Option α :=
  ((changeOf e.2.changes guid).filter F.rewrites).bind fun _ ↦ F.asked guid e.1.request

/-- The value of the field once the events have come, if only operators change
it. -/
def current (user : User) (later : History) : α :=
  (later.findSome? (F.granted user.guid)).getD (F.value user)

/-- The call asks for the value that it saves, and was authorized to. -/
structure Granted (h : History) (call : Call) (change : Change) : Prop where
  asked : F.asked change.loaded.guid call.request = some (F.value change.saved)
  authorized : ∃ guids, (call, .authorized F.permission guids) ∈ h ∧ change.loaded.guid ∈ guids

/-- Nobody asked the call to set the field. It read the account, and `P` is
known of what it makes of it. -/
structure Unasked (P : Change → Prop) (h : History) (call : Call) (change : Change) : Prop where
  asked : F.asked change.loaded.guid call.request = none
  read : ∃ users, (call, .read users) ∈ h ∧ change.loaded ∈ users
  known : P change

/-- Every value of `guarded` that the row has is one that operators gave to the
account since any read of it, or that was read. -/
def Tracked (guarded : α → Prop) (w : World) : Prop :=
  ∀ later call users, Since (call, .read users) later w.history → ∀ user ∈ users, ∀ row ∈ w.users,
    row.guid = user.guid → guarded (F.value row) → F.current user later = F.value row

end Field

section Defs

variable (call : Call) (h : History) (change : Change)

/-- An invitation's acceptance is prompt if the account was not disabled when it
was read, and no operator has disabled it since. -/
def AcceptsInTime : Prop :=
  (∃ dto, call.request = .acceptInvitation dto) → ∀ later users,
    Since (call, .read users) later h → change.loaded ∈ users →
      statusField.current change.loaded later ≠ .disabled

/-- A save that rewrites `info` without being asked to set the flag is prompt if
no operator has changed the flag since the read. -/
def RewritesInTime : Prop :=
  enforceField.asked change.loaded.guid call.request = none → change.saved.info ≠ change.loaded.info →
    ∀ later users, Since (call, .read users) later h → change.loaded ∈ users →
      enforceField.current change.loaded later = change.loaded.isEnforced

end Defs

/-- Every save is prompt. -/
def prompt (h : History) (e : Call × Event) : Prop :=
  ∀ change ∈ e.2.changes, AcceptsInTime e.1 h change ∧ RewritesInTime e.1 h change

/-- What the operations know of the entities that they save. -/
structure Licensed (h : History) (call : Call) (change : Change) : Prop where
  guid : change.saved.guid = change.loaded.guid
  subject : change.saved.oidcSubject = change.loaded.oidcSubject
  status : change.saved.status ≠ change.loaded.status → statusField.Granted h call change ∨
    statusField.Unasked (fun change ↦ (∃ dto, call.request = .acceptInvitation dto) ∧
      change.saved.status = .active) h call change
  info : change.saved.info ≠ change.loaded.info → enforceField.Granted h call change ∨
    enforceField.Unasked (fun change ↦ change.saved.isEnforced = change.loaded.isEnforced)
      h call change

/-- The save leaves the login identifiers of its account alone. -/
def KeepsNames (change : Change) : Prop :=
  change.saved.username = change.loaded.username ∧ change.saved.email = change.loaded.email

/-- Several accounts are saved at once only for the sake of other columns. -/
def Modest (changes : List Change) : Prop :=
  changes.length = 1 ∨ ∀ change ∈ changes, KeepsNames change

/-- What the rows and the reads say of each other, whatever the operations do. -/
structure Rows (w : World) : Prop where
  unique : uniqueColumns w.users
  drawn : ∀ user ∈ w.users, user.guid ∈ w.drawn
  read : ∀ call users, (call, .read users) ∈ w.history → ∀ user ∈ users, user.guid ∈ w.drawn

section Rows

variable {call : Call} {c : Command} {w w' : World}

theorem Rows.step (hr : Rows w) (he : Effect call w c w') : Rows w' := by
  cases he with
  | quiet hu hd hh =>
    refine ⟨hu ▸ hr.unique, fun user hm ↦ hd (hr.drawn user (hu ▸ hm)), fun c users hm user hu ↦ ?_⟩
    exact hd (hr.read c users (hh ▸ hm) user hu)
  | noted event hc hs hu hd hh =>
    refine ⟨hu ▸ hr.unique, fun user hm ↦ ?_, fun c users hm user hmu ↦ ?_⟩
    · rw [hd]
      exact hr.drawn user (hu ▸ hm)
    · rw [hd]
      rw [hh] at hm
      rcases List.mem_cons.mp hm with heq | hm
      · exact hr.drawn user (hs users (Prod.mk.inj heq).2.symm hmu)
      · exact hr.read c users hm user hmu
  | created user hf hu hq hd hh hc =>
    refine ⟨hq, fun row hm ↦ ?_, fun c users hm row hmu ↦ ?_⟩
    · rw [hu] at hm
      rw [hd]
      rcases List.mem_cons.mp hm with rfl | hm
      · exact .head _
      · exact .tail _ (hr.drawn row hm)
    · rw [hh] at hm
      rw [hd]
      rcases List.mem_cons.mp hm with heq | hm
      · cases (Prod.mk.inj heq).2
      · exact .tail _ (hr.read c users hm row hmu)
  | wrote event hw hu hq hd hh =>
    refine ⟨hq, fun row hm ↦ ?_, fun c users hm row hmu ↦ ?_⟩
    · rw [hu] at hm
      rw [hd]
      obtain ⟨row₀, hm₀, rfl⟩ := List.mem_map.mp hm
      rw [applyChanges_guid]
      exact hr.drawn row₀ hm₀
    · rw [hd]
      rw [hh] at hm
      rcases List.mem_cons.mp hm with heq | hm
      · cases hw <;> cases (Prod.mk.inj heq).2
      · exact hr.read c users hm row hmu

end Rows

namespace Field

variable {α : Type} {F : Field α} {guarded : α → Prop} {call : Call} {c : Command} {w w' : World}

theorem value_applyChanges (changes : List Change) (row : User) :
    F.value (applyChanges changes row) =
      (((changeOf changes row.guid).filter F.rewrites).map (F.value ·.saved)).getD (F.value row) := by
  rw [applyChanges]
  cases changeOf changes row.guid with
  | none => rfl
  | some change =>
    simp only [F.merge, Option.filter_some]
    split <;> rfl

theorem current_cons (user : User) (e : Call × Event) (later : History) :
    F.current user (e :: later) = (F.granted user.guid e).getD (F.current user later) := by
  rw [current, List.findSome?_cons, current]
  cases F.granted user.guid e <;> rfl

theorem changeOf_spec {changes : List Change} {guid : String} {change : Change}
    (h : changeOf changes guid = some change) : change ∈ changes ∧ change.loaded.guid = guid := by
  refine ⟨List.mem_of_find?_eq_some h, ?_⟩
  simpa using List.find?_some h

/-- What a save may do to the field of a row: set it as an operator asked, or
leave it as it is where a guarded value is at stake. -/
def Allowed (F : Field α) (guarded : α → Prop) (h : History) (call : Call) (row : User)
    (change : Change) : Prop :=
  F.rewrites change = true → F.Granted h call change ∨
    F.asked change.loaded.guid call.request = none ∧
      (guarded (F.value change.saved) ∨ guarded (F.value row) →
        F.value change.saved = F.value row)

section Write

variable {event : Event} {row : User}
  (ha : ∀ change ∈ event.changes, change.loaded.guid = row.guid →
    F.Allowed guarded w.history call row change)

include ha

/-- A guarded value goes and comes as operators ask for it. -/
theorem write_cases : F.value (applyChanges event.changes row) = F.value row ∧
      (guarded (F.value row) → F.granted row.guid (call, event) = none) ∨
    F.granted row.guid (call, event) = some (F.value (applyChanges event.changes row)) ∧
      (∃ guids, (call, .authorized F.permission guids) ∈ w.history ∧ row.guid ∈ guids) ∨
    F.granted row.guid (call, event) = none ∧ ¬guarded (F.value row) ∧
      ¬guarded (F.value (applyChanges event.changes row)) := by
  rw [value_applyChanges, granted]
  rcases hc : changeOf event.changes row.guid with _ | change
  · exact .inl ⟨rfl, fun _ ↦ rfl⟩
  · obtain ⟨hm, hg⟩ := changeOf_spec hc
    cases hw : F.rewrites change with
    | false =>
      simp only [Option.filter_some, hw, Bool.false_eq_true, if_false]
      exact .inl ⟨rfl, fun _ ↦ rfl⟩
    | true =>
      simp only [Option.filter_some, hw, if_true, Option.map_some, Option.getD_some,
        Option.bind_some]
      rcases ha change hm hg hw with ⟨hask, hauth⟩ | ⟨hask, hidle⟩
      · rw [hg] at hask hauth
        exact .inr (.inl ⟨hask, hauth⟩)
      · rw [hg] at hask
        by_cases hgr : guarded (F.value row)
        · exact .inl ⟨hidle (.inr hgr), fun _ ↦ hask⟩
        · refine .inr (.inr ⟨hask, hgr, fun hs ↦ hgr ?_⟩)
          rwa [← hidle (.inl hs)]

end Write

theorem Tracked.step (ht : F.Tracked guarded w) (hr : Rows w) (he : Effect call w c w')
    (ha : ∀ event, Writes w c event → w'.history = (call, event) :: w.history →
      ∀ row ∈ w.users, ∀ change ∈ event.changes, change.loaded.guid = row.guid →
        F.Allowed guarded w.history call row change) :
    F.Tracked guarded w' := by
  intro later call' users hs user hmu row hm hg hv
  cases he with
  | quiet hu hd hh =>
    rw [hh] at hs
    rw [hu] at hm
    exact ht later call' users hs user hmu row hm hg hv
  | noted event hc hsub hu hd hh =>
    rw [hh] at hs
    rw [hu] at hm
    rcases since_cons.mp hs with ⟨rfl, heq⟩ | ⟨l, rfl, hl⟩
    · have hin := hsub users (Prod.mk.inj heq).2.symm hmu
      rw [eq_of_guid hr.unique hm hin hg]
      rfl
    · rw [current_cons, granted, event.changes_of_silent hc]
      exact ht l call' users hl user hmu row hm hg hv
  | created new hf hu hq hd hh hc =>
    rw [hh] at hs
    rw [hu] at hm
    rcases since_cons.mp hs with ⟨rfl, heq⟩ | ⟨l, rfl, hl⟩
    · cases (Prod.mk.inj heq).2
    · rw [current_cons, granted]
      rcases List.mem_cons.mp hm with rfl | hm
      · exact absurd (hg ▸ hr.read call' users hl.mem user hmu) hf
      · exact ht l call' users hl user hmu row hm hg hv
  | wrote event hw hu hq hd hh =>
    rw [hh] at hs
    rw [hu] at hm
    obtain ⟨row₀, hm₀, rfl⟩ := List.mem_map.mp hm
    rw [applyChanges_guid] at hg
    rcases since_cons.mp hs with ⟨rfl, heq⟩ | ⟨l, rfl, hl⟩
    · cases hw <;> cases (Prod.mk.inj heq).2
    · have hold := ht l call' users hl user hmu row₀ hm₀ hg
      rw [current_cons, ← hg]
      rcases write_cases (ha event hw hh row₀ hm₀) with ⟨heq, hgr⟩ | ⟨hgr, -⟩ | ⟨-, -, hn⟩
      · rw [heq] at hv ⊢
        rw [hgr hv]
        exact hold hv
      · rw [hgr]
        rfl
      · exact absurd hv hn

/-- A guarded value that goes is one that an operator replaced. -/
theorem step_granted (hr : Rows w) (he : Effect call w c w')
    (ha : ∀ event, Writes w c event → w'.history = (call, event) :: w.history →
      ∀ row ∈ w.users, ∀ change ∈ event.changes, change.loaded.guid = row.guid →
        F.Allowed guarded w.history call row change)
    {u u' : User} (hm : u ∈ w.users) (hm' : u' ∈ w'.users) (hg : u'.guid = u.guid)
    (hv : guarded (F.value u)) (hne : F.value u' ≠ F.value u) :
    F.asked u.guid call.request = some (F.value u') ∧
      (∃ guids, (call, .authorized F.permission guids) ∈ w.history ∧ u.guid ∈ guids) ∧
      ∃ event, w'.history = (call, event) :: w.history := by
  have hsame : ∀ users : List User, uniqueColumns users → u ∈ users → u' ∈ users → False := by
    intro users hq h h'
    exact hne (congrArg F.value (eq_of_guid hq h' h hg))
  cases he with
  | quiet hu => exact (hsame w.users hr.unique hm (hu ▸ hm')).elim
  | noted event _ _ hu => exact (hsame w.users hr.unique hm (hu ▸ hm')).elim
  | created new hf hu hq => exact (hsame w'.users hq (hu ▸ .tail _ hm) hm').elim
  | wrote event hw hu hq hd hh =>
    rw [hu] at hm'
    rw [applyChanges_of_guid hr.unique hm hm' hg] at hne ⊢
    rcases write_cases (ha event hw hh u hm) with ⟨heq, -⟩ | ⟨hgr, hauth⟩ | ⟨-, hn, -⟩
    · exact absurd heq hne
    · obtain ⟨change, -, hask⟩ := Option.bind_eq_some_iff.mp hgr
      exact ⟨hask, hauth, event, hh⟩
    · exact absurd hv hn

end Field

end RustdeskConsole.Accounts
