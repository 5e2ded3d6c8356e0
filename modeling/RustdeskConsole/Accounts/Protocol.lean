import RustdeskConsole.Accounts.Fields

namespace RustdeskConsole.Accounts

open Auth (UserStatus)
open Effects Effects.History

section Licences

variable {call : Call} {c : Command} {h : History} {w : World} {change : Change}

/-- What a command must know before it writes users or uses up an invitation. -/
def guard (call : Call) : Command → World → Prop
  | .saveUsers changes, w =>
    (∀ change ∈ changes, Licensed w.history call change) ∧ Modest changes
  | .commitReset _ _ change, w => Licensed w.history call change
  | .updateStatus guids status, w => ∀ guid ∈ guids,
    statusField.asked guid call.request = some status ∧
      ∃ targets, (call, .authorized statusField.permission targets) ∈ w.history ∧ guid ∈ targets
  | .insertUser draft, _ => draft.oidcSubject = call.request.subject
  | .saveInvitation invitation _, w =>
    (call, .invitationRead invitation) ∈ w.history ∧ invitation.usedAt = none
  | _, _ => True

theorem licensed_of_writes {event : Event} (hw : Writes w c event) (hg : guard call c w) :
    ∀ change ∈ event.changes, Licensed w.history call change := by
  cases hw with
  | save => exact hg.1
  | reset =>
    intro change hm
    rw [List.mem_singleton.mp hm]
    exact hg
  | status =>
    intro change hm
    obtain ⟨row, hr, rfl⟩ := List.mem_map.mp hm
    have hin := of_decide_eq_true (List.mem_filter.mp hr).2
    obtain ⟨hask, hauth⟩ := hg row.guid hin
    exact ⟨rfl, rfl, fun _ ↦ .inl ⟨hask, hauth⟩, fun hne ↦ absurd rfl hne⟩
  | avatar =>
    intro change hm
    obtain ⟨row, hr, rfl⟩ := List.mem_map.mp hm
    exact ⟨rfl, rfl, fun hne ↦ absurd rfl hne, fun hne ↦ absurd rfl hne⟩

theorem modest_of_writes {event : Event} (hw : Writes w c event) (hg : guard call c w) :
    Modest event.changes := by
  cases hw with
  | save => exact hg.2
  | reset => exact .inl rfl
  | status | avatar =>
    refine .inr fun change hm ↦ ?_
    obtain ⟨row, -, rfl⟩ := List.mem_map.mp hm
    exact ⟨rfl, rfl⟩

/-- No save that comes in time activates a disabled account unasked. -/
theorem Licensed.allowed_status (hl : Licensed w.history call change)
    (ht : statusField.Tracked (· = .disabled) w) (hp : AcceptsInTime call w.history change)
    {row : User} (hm : row ∈ w.users) (hg : change.loaded.guid = row.guid) :
    statusField.Allowed (· = .disabled) w.history call row change := by
  intro hr
  refine (hl.status (of_decide_eq_true hr)).imp id fun hu ↦ ⟨hu.asked, ?_⟩
  obtain ⟨users, hread, hin⟩ := hu.read
  obtain ⟨later, hs⟩ := exists_since hread
  have hnot : statusField.current change.loaded later ≠ .disabled := hp hu.known.1 later users hs hin
  rintro (hsaved | hrow)
  · have hactive : statusField.value change.saved = .active := hu.known.2
    rw [hactive] at hsaved
    cases hsaved
  · exact absurd ((ht later call users hs _ hin row hm hg.symm hrow).trans hrow) hnot

/-- No save that comes in time changes the flag unasked. -/
theorem Licensed.allowed_info (hl : Licensed w.history call change)
    (ht : enforceField.Tracked (fun _ ↦ True) w) (hp : RewritesInTime call w.history change)
    {row : User} (hm : row ∈ w.users) (hg : change.loaded.guid = row.guid) :
    enforceField.Allowed (fun _ ↦ True) w.history call row change := by
  intro hr
  have hne : change.saved.info ≠ change.loaded.info := of_decide_eq_true hr
  refine (hl.info hne).imp id fun hu ↦ ⟨hu.asked, fun _ ↦ ?_⟩
  obtain ⟨users, hread, hin⟩ := hu.read
  obtain ⟨later, hs⟩ := exists_since hread
  calc
    change.saved.isEnforced = change.loaded.isEnforced := hu.known
    _ = enforceField.current change.loaded later := (hp hu.asked hne later users hs hin).symm
    _ = row.isEnforced := ht later call users hs _ hin row hm hg.symm trivial

end Licences

/-- The rows are sound, and as long as every save was prompt they hold the
values that operators gave them. -/
def Sound (w : World) : Prop :=
  Rows w ∧ (Lawful prompt w.history →
    statusField.Tracked (· = .disabled) w ∧ enforceField.Tracked (fun _ ↦ True) w)

section Step

variable {call : Call} {c : Command} {w w' : World}

theorem allowed_of_prompt (hs : Sound w) (hg : guard call c w) (he : Effect call w c w')
    (hl : Lawful prompt w'.history) {event : Event} (hw : Writes w c event)
    (hh : w'.history = (call, event) :: w.history) {row : User} (hm : row ∈ w.users)
    {change : Change} (hc : change ∈ event.changes) (hid : change.loaded.guid = row.guid) :
    statusField.Allowed (· = .disabled) w.history call row change ∧
      enforceField.Allowed (fun _ ↦ True) w.history call row change := by
  obtain ⟨hst, hen⟩ := hs.2 (hl.of_suffix he.grows)
  rw [hh] at hl
  obtain ⟨hacc, hre⟩ := (lawful_cons.mp hl).1 change hc
  have hlic := licensed_of_writes hw hg change hc
  exact ⟨hlic.allowed_status hst hacc hm hid, hlic.allowed_info hen hre hm hid⟩

theorem Sound.step (hs : Sound w) (hg : guard call c w) (he : Effect call w c w') : Sound w' := by
  refine ⟨hs.1.step he, fun hl ↦ ?_⟩
  obtain ⟨hst, hen⟩ := hs.2 (hl.of_suffix he.grows)
  exact ⟨hst.step hs.1 he fun _ hw hh _ hm _ hc hid ↦
      (allowed_of_prompt hs hg he hl hw hh hm hc hid).1,
    hen.step hs.1 he fun _ hw hh _ hm _ hc hid ↦
      (allowed_of_prompt hs hg he hl hw hh hm hc hid).2⟩

end Step

/-- What a call may take for granted of the others: events are only added. -/
def logic (platform : Platform) : Logic (machine platform) where
  inv := Sound
  guard := guard
  rely _ w w' := w.history <:+ w'.history
  rely_refl _ _ := List.suffix_rfl
  rely_trans _ _ _ _ := List.IsSuffix.trans
  keeps _ _ hs hg := hs.step hg exec_effect
  interferes _ _ _ _ _ := exec_effect.grows

section Handlers

variable {platform : Platform} {call : Call} {w : World} {α β : Type}

/-- The process meets its guards from any world on, and leaves `P` behind. The
memory of a handler is empty, and its failures need no care. -/
abbrev Safe (platform : Platform) (call : Call) (p : Handler α) (P : α → World → Prop)
    (w : World) : Prop :=
  (logic platform).Ensures call p (fun a _ w ↦ P a w) (fun _ _ _ ↦ True) () w

theorem safe_bind {p : Handler α} {f : α → Handler β} {P : α → World → Prop} {Q : β → World → Prop}
    (hp : Safe platform call p P w)
    (hf : ∀ a w', P a w' → Safe platform call (f a) Q w') : Safe platform call (p >>= f) Q w := by
  refine Logic.Ensures.bind (hp.mono (fun a s w' h ↦ ?_) fun _ _ _ h ↦ h)
  cases s
  exact hf a w' h

/-- What a reply tells the call. -/
def Replies (call : Call) : (c : Command) → Reply c → World → Prop
  | .findUser guid, found, w => ∀ user ∈ found, (call, .read [user]) ∈ w.history ∧ user.guid = guid
  | .findUserBySubject _, found, w => ∀ user ∈ found, (call, .read [user]) ∈ w.history
  | .findUsers guids, found, w => (call, .read found) ∈ w.history ∧ ∀ user ∈ found, user.guid ∈ guids
  | .authorize _ permission guids, reply, w =>
    reply = .ok () → (call, .authorized permission guids) ∈ w.history
  | .findInvitation _, found, w => ∀ invitation ∈ found, (call, .invitationRead invitation) ∈ w.history
  | _, _, _ => True

theorem exec_replies {c : Command} {o : Choice} {w' : World} {r : Reply c}
    (he : exec platform call c o w = (w', some r)) : Replies call c r w' := by
  cases c with
  | findUser guid =>
    obtain ⟨rfl, hr⟩ := Prod.mk.inj he
    obtain rfl := Option.some.inj hr
    intro user hm
    have hf : w.users.find? (·.guid = guid) = some user := hm
    refine ⟨?_, by simpa using List.find?_some hf⟩
    rw [World.findUser, hf]
    exact .head _
  | findUserBySubject oidcSubject =>
    obtain ⟨rfl, hr⟩ := Prod.mk.inj he
    obtain rfl := Option.some.inj hr
    intro user hm
    have hf : w.users.find? (·.oidcSubject = some oidcSubject) = some user := hm
    rw [hf]
    exact .head _
  | findUsers guids =>
    obtain ⟨rfl, hr⟩ := Prod.mk.inj he
    obtain rfl := Option.some.inj hr
    refine ⟨.head _, fun user hm ↦ ?_⟩
    exact of_decide_eq_true (List.mem_filter.mp hm).2
  | authorize actorGuid permission guids =>
    intro hr
    subst hr
    rw [exec] at he
    split at he
    · obtain ⟨rfl, -⟩ := Prod.mk.inj he
      exact .head _
    · cases (Prod.mk.inj he).2
  | findInvitation token =>
    intro invitation hm
    rw [exec] at he
    split at he
    · obtain ⟨rfl, hr⟩ := Prod.mk.inj he
      rw [← Option.some.inj hr] at hm
      rw [Option.some.inj hm]
      exact .head _
    · rw [← Option.some.inj (Prod.mk.inj he).2] at hm
      cases hm
  | _ => trivial

theorem safe_invoke {c : Command} {f : Reply c → Except Failure α} {P : α → World → Prop}
    (hg : ∀ w', w.history <:+ w'.history → guard call c w')
    (hP : ∀ r a w', w.history <:+ w'.history → Replies call c r w' → f r = .ok a → P a w') :
    Safe platform call (invoke c f) P w := by
  refine Logic.Ensures.invoke fun w₁ hw _ ↦ ⟨hg w₁ hw, fun o w₂ r he _ ↦ ?_⟩
  have hw₂ : w₁.history <:+ w₂.history := by
    have hgrow : w₁.history <:+ (exec platform call c o w₁).1.history := exec_effect.grows
    have heq : exec platform call c o w₁ = (w₂, some r) := he
    rwa [heq] at hgrow
  cases hf : f r with
  | error e => trivial
  | ok a => exact hP r a w₂ (hw.trans hw₂) (exec_replies he) hf

theorem safe_pure {a : α} {P : α → World → Prop} (h : P a w) : Safe platform call (pure a) P w := h

theorem safe_throw {e : Failure} {P : α → World → Prop} :
    Safe platform call (throw e : Handler α) P w :=
  Logic.Ensures.throw trivial

/-- A process that has nothing to prove: it may run from any world on. -/
def Quiet (platform : Platform) (call : Call) (p : Handler α) : Prop :=
  ∀ w, Safe platform call p (fun _ w' ↦ w.history <:+ w'.history) w

namespace Quiet

theorem pure {a : α} : Quiet platform call (pure a) := fun _ ↦ safe_pure List.suffix_rfl

theorem throw {e : Failure} : Quiet platform call (throw e : Handler α) := fun _ ↦ safe_throw

theorem bind {p : Handler α} {f : α → Handler β} (hp : Quiet platform call p)
    (hf : ∀ a, Quiet platform call (f a)) : Quiet platform call (p >>= f) := by
  intro w
  refine safe_bind (hp w) fun a w' h ↦ ?_
  exact (hf a w').mono (fun _ _ _ h' ↦ h.trans h') fun _ _ _ h ↦ h

theorem invoke {c : Command} {f : Reply c → Except Failure α} (hg : ∀ w, guard call c w) :
    Quiet platform call (invoke c f) :=
  fun _ ↦ safe_invoke (fun w' _ ↦ hg w') fun _ _ _ h _ _ ↦ h

theorem ask {c : Command} (hg : ∀ w, guard call c w) : Quiet platform call (Handler.ask c) :=
  invoke hg

theorem assert {condition : Bool} {failure : Failure} :
    Quiet platform call (Handler.assert condition failure) := by
  rw [Handler.assert]
  split
  · exact pure
  · exact throw

theorem require {value : Option α} {failure : Failure} :
    Quiet platform call (Handler.require value failure) := by
  cases value with
  | none => exact throw
  | some a => exact pure

theorem findUser {guid : String} {failure : Failure} :
    Quiet platform call (findUser guid failure) :=
  (ask (c := .findUser guid) fun _ ↦ trivial).bind fun _ ↦ require

theorem assertUsername {username : String} {guid : Option String} :
    Quiet platform call (assertUsername username guid) :=
  (ask (c := .findUserByUsername username) fun _ ↦ trivial).bind fun _ ↦ assert

theorem assertEmail {email : String} {guid : Option String} :
    Quiet platform call (assertEmail email guid) :=
  (ask (c := .findUserByEmail email) fun _ ↦ trivial).bind fun _ ↦ assert

theorem assertSomeUsername {username guid : Option String} :
    Quiet platform call (assertSomeUsername username guid) := by
  cases username with
  | none => exact pure
  | some username => exact assertUsername

theorem assertSomeEmail {email guid : Option String} :
    Quiet platform call (assertSomeEmail email guid) := by
  rw [Accounts.assertSomeEmail]
  split
  · exact assertEmail
  · exact pure

theorem resolveUserGroupGuid {userGroupGuid : Option String} :
    Quiet platform call (resolveUserGroupGuid userGroupGuid) :=
  invoke fun _ ↦ trivial

theorem insertUser {draft : User} (hd : draft.oidcSubject = call.request.subject) :
    Quiet platform call (insertUser draft) :=
  invoke fun _ ↦ hd

theorem authorizeIf {condition : Bool} {actorGuid guid permission : String} :
    Quiet platform call (UserService.authorizeIf condition actorGuid guid permission) := by
  rw [UserService.authorizeIf]
  split
  · exact invoke fun _ ↦ trivial
  · exact pure

theorem thirdParty {user : User} : Quiet platform call (UserService.thirdParty user) := assert

end Quiet

/-- A quiet step keeps what is in the history. -/
theorem safe_after {p : Handler α} {f : α → Handler β} {Q : β → World → Prop}
    (hp : Quiet platform call p)
    (hf : ∀ a w', w.history <:+ w'.history → Safe platform call (f a) Q w') :
    Safe platform call (p >>= f) Q w :=
  safe_bind (hp w) hf

theorem Licensed.mono {h h' : History} {change : Change} (hl : Licensed h call change)
    (hs : h <:+ h') : Licensed h' call change where
  guid := hl.guid
  subject := hl.subject
  status hne := by
    rcases hl.status hne with ⟨hask, gs, hm, hg⟩ | ⟨hask, ⟨us, hm, hu⟩, hk⟩
    · exact .inl ⟨hask, gs, hs.subset hm, hg⟩
    · exact .inr ⟨hask, ⟨us, hs.subset hm, hu⟩, hk⟩
  info hne := by
    rcases hl.info hne with ⟨hask, gs, hm, hg⟩ | ⟨hask, ⟨us, hm, hu⟩, hk⟩
    · exact .inl ⟨hask, gs, hs.subset hm, hg⟩
    · exact .inr ⟨hask, ⟨us, hs.subset hm, hu⟩, hk⟩

theorem saveUsers_safe {changes : List Change}
    (hl : ∀ change ∈ changes, Licensed w.history call change) (hm : Modest changes) :
    Safe platform call (saveUsers changes) (fun _ w' ↦ w.history <:+ w'.history) w :=
  safe_invoke (fun _ hs ↦ ⟨fun change hc ↦ (hl change hc).mono hs, hm⟩) fun _ _ _ h _ _ ↦ h

theorem save_safe {loaded saved : User} (hl : Licensed w.history call ⟨loaded, saved⟩) :
    Safe platform call (save loaded saved) (fun _ w' ↦ w.history <:+ w'.history) w := by
  refine saveUsers_safe (fun change hm ↦ ?_) (.inl rfl)
  rw [List.mem_singleton.mp hm]
  exact hl

/-- A save that leaves both columns alone. -/
theorem licensed_of_eq {h : History} {loaded saved : User} (hg : saved.guid = loaded.guid)
    (ho : saved.oidcSubject = loaded.oidcSubject) (hs : saved.status = loaded.status)
    (hi : saved.info = loaded.info) : Licensed h call ⟨loaded, saved⟩ :=
  ⟨hg, ho, fun hne ↦ absurd hs hne, fun hne ↦ absurd hi hne⟩

/-- A user's own change of `info` keeps the flag that it read. -/
theorem licensed_of_info {h : History} {loaded saved : User} (hg : saved.guid = loaded.guid)
    (ho : saved.oidcSubject = loaded.oidcSubject) (hs : saved.status = loaded.status)
    (ha : call.request.askedEnforce loaded.guid = none)
    (hr : (call, .read [loaded]) ∈ h) (hk : saved.isEnforced = loaded.isEnforced) :
    Licensed h call ⟨loaded, saved⟩ :=
  ⟨hg, ho, fun hne ↦ absurd hs hne, fun _ ↦ .inr ⟨ha, ⟨[loaded], hr, .head _⟩, hk⟩⟩

theorem safe_require {value : Option α} {failure : Failure} :
    Safe platform call (Handler.require value failure) (fun a w' ↦ w' = w ∧ value = some a) w := by
  cases value with
  | none => exact safe_throw
  | some a => exact safe_pure ⟨rfl, rfl⟩

theorem safe_assert {condition : Bool} {failure : Failure} :
    Safe platform call (Handler.assert condition failure) (fun _ w' ↦ w' = w ∧ condition = true) w := by
  cases condition with
  | false => exact safe_throw
  | true => exact safe_pure ⟨rfl, rfl⟩

theorem findUser_safe {guid : String} {failure : Failure} :
    Safe platform call (findUser guid failure) (fun user w' ↦ w.history <:+ w'.history ∧
      (call, .read [user]) ∈ w'.history ∧ user.guid = guid) w := by
  have hask : Safe platform call (Handler.ask (.findUser guid)) (fun found w' ↦
      w.history <:+ w'.history ∧ Replies call (.findUser guid) found w') w :=
    safe_invoke (fun _ _ ↦ trivial) fun r a w' hw hr he ↦ ⟨hw, Except.ok.inj he ▸ hr⟩
  refine safe_bind hask fun found w' ⟨hw, hr⟩ ↦ ?_
  cases found with
  | none => exact safe_throw
  | some user => exact safe_pure ⟨hw, hr user rfl⟩

theorem findInvitation_safe {token : String} :
    Safe platform call (Handler.ask (.findInvitation token)) (fun found w' ↦
      ∀ invitation ∈ found, (call, .invitationRead invitation) ∈ w'.history) w :=
  safe_invoke (fun _ _ ↦ trivial) fun _ _ _ _ hr he ↦ Except.ok.inj he ▸ hr

theorem authorize_safe {actorGuid permission : String} {guids : List String} :
    Safe platform call (authorize actorGuid permission guids) (fun _ w' ↦
      w.history <:+ w'.history ∧ (call, .authorized permission guids) ∈ w'.history) w :=
  safe_invoke (fun _ _ ↦ trivial) fun _ _ _ hw hr he ↦ ⟨hw, hr he⟩

end Handlers

end RustdeskConsole.Accounts
