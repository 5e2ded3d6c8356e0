import RustdeskConsole.Accounts.Membership
import RustdeskConsole.UserGroups.Service

namespace RustdeskConsole.UserGroups

open Accounts (Failure)
open AddressBooks (AddressBookRule)
open Effects Relation

/-- What holds of the store once it is initialized. -/
structure Consistent (w : World) : Prop where
  guids : (w.groups.map (·.guid)).Nodup
  names : (w.groups.map (·.normalizedName)).Nodup
  default : ∃ group ∈ w.groups, group.isDefault ∧ ∀ other ∈ w.groups, other.isDefault → other = group
  members : ∀ user ∈ w.accounts.users, ∃ group ∈ w.groups, user.userGroupGuid = some group.guid
  targets : ∀ rule ∈ w.rules, ∀ guid, rule.targetGroupId = some guid →
    ∃ group ∈ w.groups, group.guid = guid

variable {platform : Platform} {call : Accounts.Call} {o : Choice} {w w' : World}
  {group other : UserGroup} {groups : List UserGroup} {guid : String} {α : Type}

theorem hasGroup_iff : w.hasGroup guid = true ↔ ∃ group ∈ w.groups, group.guid = guid := by
  simp [World.hasGroup]

/-- Of the groups that the indexes let in at most one is the default. -/
theorem default_unique (hu : uniqueGroups groups) (hm : group ∈ groups) (hd : group.isDefault)
    (hm' : other ∈ groups) (hd' : other.isDefault) : other = group := by
  have hle := hu.2.2
  have hg : group ∈ groups.filter (·.isDefault) := List.mem_filter.mpr ⟨hm, hd⟩
  have ho : other ∈ groups.filter (·.isDefault) := List.mem_filter.mpr ⟨hm', hd'⟩
  generalize groups.filter (·.isDefault) = defaults at hle hg ho
  match defaults, hle with
  | [row], _ => rw [List.mem_singleton.mp hg, List.mem_singleton.mp ho]

/-- A statement on the groups takes effect if it keeps the unique indexes. -/
theorem writeGroups_eq {β : Type} {g : Except Failure Unit → β} {reply : β}
    (h : (w.writeGroups groups).map id g = (w', reply)) :
    (reply = g (.ok ()) ∧ w' = { w with groups := groups } ∧ uniqueGroups groups) ∨
      (reply = g (.error .uniqueViolation) ∧ w' = w) := by
  rw [World.writeGroups] at h
  split at h
  · next hu =>
    cases h
    exact .inl ⟨rfl, rfl, hu⟩
  · cases h
    exact .inr ⟨rfl, rfl⟩

theorem insertGroup_eq {draft : UserGroup} {uuid : String} {reply : Except Failure UserGroup}
    (h : w.insertGroup draft uuid = (w', some reply)) :
    (∃ group, reply = .ok group ∧ group = { draft with guid := uuid } ∧
      w' = { w with groups := group :: w.groups } ∧ uniqueGroups (group :: w.groups)) ∨
      (reply = .error .uniqueViolation ∧ w' = w) := by
  rw [World.insertGroup] at h
  split at h
  · cases h
  · rcases writeGroups_eq h with ⟨hr, hw, hu⟩ | ⟨hr, hw⟩
    · exact .inl ⟨_, Option.some.inj hr, rfl, hw, hu⟩
    · exact .inr ⟨Option.some.inj hr, hw⟩

def replace (group : UserGroup) (groups : List UserGroup) : List UserGroup :=
  groups.map fun row ↦ if row.guid = group.guid then group else row

theorem saveGroup_eq {reply : Except Failure UserGroup}
    (h : w.saveGroup group = (w', some reply)) :
    (reply = .ok group ∧ w' = { w with groups := replace group w.groups } ∧
      uniqueGroups (replace group w.groups)) ∨ (reply = .error .uniqueViolation ∧ w' = w) := by
  rcases writeGroups_eq h with ⟨hr, hw, hu⟩ | ⟨hr, hw⟩
  · exact .inl ⟨Option.some.inj hr, hw, hu⟩
  · exact .inr ⟨Option.some.inj hr, hw⟩

theorem statement_eq {outcome : Except Failure Unit} {done : World × α} {reply : Except Failure α}
    (h : statement outcome w done = (w', some reply)) :
    (reply = .ok done.2 ∧ w' = done.1) ∨ ((∃ failure, reply = .error failure) ∧ w' = w) := by
  cases outcome with
  | ok u =>
    cases h
    exact .inl ⟨rfl, rfl⟩
  | error failure =>
    cases h
    exact .inr ⟨⟨failure, rfl⟩, rfl⟩

theorem transact_eq {x : Transaction α} {reply : Except Failure α}
    (h : transact x w = (w', reply)) :
    (∃ a, reply = .ok a ∧ x w = .ok a w') ∨ ((∃ failure, reply = .error failure) ∧ w' = w) := by
  rw [transact] at h
  split at h
  · next a w₁ hx =>
    cases h
    exact .inl ⟨a, rfl, hx⟩
  · next failure _ _ =>
    cases h
    exact .inr ⟨⟨failure, rfl⟩, rfl⟩

theorem mem_replace (hm : other ∈ groups) (hg : other.guid = group.guid) :
    group ∈ replace group groups :=
  List.mem_map.mpr ⟨other, hm, if_pos hg⟩

theorem replace_guids : (replace group groups).map (·.guid) = groups.map (·.guid) := by
  rw [replace, List.map_map]
  refine List.map_congr_left fun row _ ↦ ?_
  rw [Function.comp_apply]
  split
  · next heq => exact heq.symm
  · rfl

section Initialization

abbrev Serial (platform : Platform) (call : Accounts.Call) (p : Handler α) (w : World)
    (Q : Except Failure α → World → Prop) : Prop := Yields (machine platform) call p w Q

variable {β : Type} {Q : Except Failure β → World → Prop}

theorem serial_assert {condition : Bool} {failure : Failure} {f : Unit → Handler β}
    (he : Q (.error failure) w) (h : condition = true → Serial platform call (f ()) w Q) :
    Serial platform call (Handler.assert condition failure >>= f) w Q := by
  cases condition with
  | true => exact Evaluates.pure.bind_yields (h rfl)
  | false => exact Evaluates.throw.throw_yields he

/-- A lookup leaves the store as it is. -/
theorem serial_ask {c : Command} {reply : Reply c} {f : Reply c → Handler β}
    (he : ∀ o, exec platform call c o w = (w, some reply))
    (h : Serial platform call (f reply) w Q) :
    Serial platform call (Handler.ask c >>= f) w Q := by
  refine Yields.bind (P := fun r w' ↦ r = .ok reply ∧ w' = w) (.invoke fun o w' r hexec ↦ ?_)
    (fun a w' ha ↦ ?_) fun e w' he ↦ ?_
  · have hsame : exec platform call c o w = (w', some r) := hexec
    rw [he o] at hsame
    cases hsame
    exact ⟨rfl, rfl⟩
  · obtain ⟨heq, rfl⟩ := ha
    cases heq
    exact h
  · cases he.1

theorem serial_normalizeName {value : String} {f : String × String → Handler β}
    (he : ∀ failure, Q (.error failure) w)
    (h : ∀ names, Serial platform call (f names) w Q) :
    Serial platform call (UserGroupService.normalizeName platform value >>= f) w Q := by
  have hsame : Serial platform call (UserGroupService.normalizeName platform value) w
      fun _ w' ↦ w' = w := serial_assert rfl fun _ ↦ .pure rfl
  refine hsame.bind (fun names w' hw ↦ ?_) fun failure w' hw ↦ ?_
  · obtain rfl := hw
    exact h names
  · obtain rfl := hw
    exact he failure

/-- The indexes hold, and the group is there and is the default. -/
structure Defaulted (group : UserGroup) (w : World) : Prop where
  unique : uniqueGroups w.groups
  mem : group ∈ w.groups
  isDefault : group.isDefault = true

theorem defaulted_find (hu : uniqueGroups w.groups) (h : w.defaultGroup = some group) :
    Defaulted group w :=
  ⟨hu, List.mem_of_find?_eq_some h, List.find?_some h⟩

/-- What a program that makes sure of a default group leaves behind. -/
abbrev Settled (r : Except Failure UserGroup) (w : World) : Prop :=
  ∀ group, r = .ok group → Defaulted group w

theorem settled_error {failure : Failure} : Settled (.error failure) w := nofun

theorem serial_insertDefaultGroup {name normalizedName : String} (hu : uniqueGroups w.groups) :
    Serial platform call (UserGroupService.insertDefaultGroup name normalizedName) w Settled := by
  refine .tryCatch (P := fun r w' ↦ Settled r w' ∧ ((∃ failure, r = .error failure) → w' = w))
    (.invoke fun o w' r he ↦ ?_) (fun _ _ h ↦ h.1) fun failure w' h ↦ ?_
  · rcases insertGroup_eq he with ⟨group, rfl, rfl, rfl, hu⟩ | ⟨rfl, rfl⟩
    · refine ⟨fun group hg ↦ ?_, by simp⟩
      cases hg
      exact ⟨hu, .head _, rfl⟩
    · exact ⟨settled_error, fun _ ↦ rfl⟩
  · obtain rfl := h.2 ⟨failure, rfl⟩
    split
    · refine serial_ask (fun _ ↦ rfl) ?_
      cases hf : w'.defaultGroup with
      | some group => exact .pure fun _ hg ↦ by cases hg; exact defaulted_find hu hf
      | none => exact .throw settled_error
    · exact .throw settled_error

theorem serial_createDefaultGroup (hu : uniqueGroups w.groups) :
    Serial platform call (UserGroupService.createDefaultGroup platform) w Settled := by
  refine serial_normalizeName (fun _ ↦ settled_error) fun names ↦ serial_ask (fun _ ↦ rfl) ?_
  split
  · next existing hfound =>
    refine .invoke fun o w' r he ↦ ?_
    rcases saveGroup_eq he with ⟨rfl, rfl, hu⟩ | ⟨rfl, rfl⟩
    · intro group hg
      cases hg
      exact ⟨hu, mem_replace (List.mem_of_find?_eq_some hfound) rfl, rfl⟩
    · exact settled_error
  · exact serial_insertDefaultGroup hu

theorem serial_ensureDefaultGroup (hu : uniqueGroups w.groups) :
    Serial platform call (UserGroupService.ensureDefaultGroup platform) w Settled := by
  refine serial_ask (fun _ ↦ rfl) ?_
  split
  · next group hfound => exact .pure fun _ hg ↦ by cases hg; exact defaulted_find hu hfound
  · exact serial_createDefaultGroup hu

/-- A statement of the initialization, whose failure ends it. -/
theorem serial_statement {c : Command} {g : Reply c → Except Failure ℕ} {d : World → World × ℕ}
    {f : ℕ → Handler β} (hc : ∀ o r w', exec platform call c o w = (w', some r) →
      (g r = .ok (d w).2 ∧ w' = (d w).1) ∨ ((∃ failure, g r = .error failure) ∧ w' = w))
    (he : ∀ failure, Q (.error failure) w)
    (h : Serial platform call (f (d w).2) (d w).1 Q) :
    Serial platform call ((invoke c g : Handler ℕ) >>= f) w Q := by
  refine Yields.bind (P := fun r w' ↦ (r = .ok (d w).2 ∧ w' = (d w).1) ∨
    ((∃ failure, r = .error failure) ∧ w' = w)) (.invoke fun o w' r hexec ↦ hc o r w' hexec)
    (fun a w' ha ↦ ?_) fun e w' he' ↦ ?_
  · rcases ha with ⟨heq, rfl⟩ | ⟨⟨failure, heq⟩, -⟩
    · cases heq
      exact h
    · cases heq
  · rcases he' with ⟨heq, -⟩ | ⟨-, rfl⟩
    · cases heq
    · exact he e

theorem initialized (hd : Defaulted group w) : Consistent
    ((((w.backfillUsers group.guid).1.clearUserTargets).1.clearGroupTargets).1.deleteInvalidTargets).1 where
  guids := hd.unique.1
  names := hd.unique.2.1
  default := ⟨group, hd.mem, hd.isDefault, fun _ hm ho ↦
    default_unique hd.unique hd.mem hd.isDefault hm ho⟩
  members user hm := by
    obtain ⟨row, -, rfl⟩ := List.mem_map.mp hm
    split
    · exact ⟨group, hd.mem, rfl⟩
    · next hs =>
      rw [World.isStray, Bool.not_eq_true, Bool.not_eq_false', Option.any_eq_true] at hs
      obtain ⟨guid, hguid, hhas⟩ := hs
      obtain ⟨found, hfound, rfl⟩ := hasGroup_iff.mp hhas
      exact ⟨found, hfound, hguid⟩
  targets rule hm guid hguid := by
    have hall := (List.mem_filter.mp hm).2
    rw [hguid, Option.all_some] at hall
    exact hasGroup_iff.mp hall

/-- A store that is initialized is consistent, whatever it was before. -/
theorem initializeStorage_consistent (hu : uniqueGroups w.groups) :
    Serial platform call (UserGroupService.initializeStorage platform) w fun r w' ↦
      ∀ group, r = .ok group → Consistent w' := by
  refine (serial_ensureDefaultGroup hu).bind (fun group w₁ hd ↦ ?_) (by simp)
  refine serial_statement (d := (·.backfillUsers group.guid)) (fun _ _ _ ↦ statement_eq) (by simp) ?_
  refine serial_statement (d := (·.clearUserTargets)) (fun _ _ _ ↦ statement_eq) (by simp) ?_
  refine serial_statement (d := (·.clearGroupTargets)) (fun _ _ _ ↦ statement_eq) (by simp) ?_
  refine serial_statement (d := (·.deleteInvalidTargets)) (fun _ _ _ ↦ statement_eq) (by simp) ?_
  exact .pure fun _ _ ↦ initialized (hd group rfl)

end Initialization

namespace Consistent

section Statements

theorem of_eq (h : Consistent w) (hg : w'.groups = w.groups)
    (hu : ∀ user ∈ w'.accounts.users, ∃ group ∈ w.groups, user.userGroupGuid = some group.guid)
    (hr : ∀ rule ∈ w'.rules, ∀ guid, rule.targetGroupId = some guid →
      ∃ group ∈ w.groups, group.guid = guid) : Consistent w' where
  guids := hg ▸ h.guids
  names := hg ▸ h.names
  default := hg ▸ h.default
  members := hg ▸ hu
  targets := hg ▸ hr

/-- A new group that is not the default one. -/
theorem insert (h : Consistent w) (hd : group.isDefault = false)
    (hu : uniqueGroups (group :: w.groups)) : Consistent { w with groups := group :: w.groups } where
  guids := hu.1
  names := hu.2.1
  default := by
    obtain ⟨found, hm, hdefault, honly⟩ := h.default
    refine ⟨found, .tail _ hm, hdefault, fun other ho hother ↦ ?_⟩
    rcases List.mem_cons.mp ho with rfl | ho
    · rw [hd] at hother
      cases hother
    · exact honly other ho hother
  members user hm := by
    obtain ⟨found, hfound, heq⟩ := h.members user hm
    exact ⟨found, .tail _ hfound, heq⟩
  targets rule hm guid hguid := by
    obtain ⟨found, hfound, heq⟩ := h.targets rule hm guid hguid
    exact ⟨found, .tail _ hfound, heq⟩

/-- A group that is saved with other names. -/
theorem save (h : Consistent w) (hm : other ∈ w.groups) (hg : other.guid = group.guid)
    (hd : other.isDefault = group.isDefault) (hu : uniqueGroups (replace group w.groups)) :
    Consistent { w with groups := replace group w.groups } := by
  have hstays : ∀ row ∈ w.groups, ∃ row' ∈ replace group w.groups, row'.guid = row.guid := by
    intro row hrow
    have hmem := List.mem_map_of_mem (f := UserGroup.guid) hrow
    have hguids : (replace group w.groups).map UserGroup.guid = w.groups.map UserGroup.guid :=
      replace_guids
    rw [← hguids] at hmem
    exact List.mem_map.mp hmem
  refine ⟨hu.1, hu.2.1, ?_, fun user huser ↦ ?_, fun rule hrule guid hguid ↦ ?_⟩
  · obtain ⟨found, hfound, hdefault, -⟩ := h.default
    obtain ⟨row, hrow, hisDefault⟩ : ∃ row ∈ replace group w.groups, row.isDefault = true := by
      by_cases heq : found.guid = group.guid
      · refine ⟨group, mem_replace hm hg, ?_⟩
        rw [← hd, ← List.inj_on_of_nodup_map h.guids hfound hm (heq.trans hg.symm), hdefault]
      · exact ⟨found, List.mem_map.mpr ⟨found, hfound, if_neg heq⟩, hdefault⟩
    exact ⟨row, hrow, hisDefault, fun _ ho hother ↦ default_unique hu hrow hisDefault ho hother⟩
  · obtain ⟨found, hfound, heq⟩ := h.members user huser
    obtain ⟨row, hrow, hguid⟩ := hstays found hfound
    exact ⟨row, hrow, by rw [heq, hguid]⟩
  · obtain ⟨found, hfound, heq⟩ := h.targets rule hrule guid hguid
    obtain ⟨row, hrow, hsame⟩ := hstays found hfound
    exact ⟨row, hrow, hsame.trans heq⟩

theorem isSome (h : Consistent w) : ∀ user ∈ w.accounts.users, user.userGroupGuid.isSome := by
  intro user hm
  obtain ⟨group, -, heq⟩ := h.members user hm
  rw [heq]
  rfl

theorem account (h : Consistent w) {c : Accounts.Command} (hc : c.Assigns)
    {reply : Option (Accounts.Reply c)} (he : execAccount o platform call c w = (w', reply)) :
    Consistent w' := by
  rw [execAccount] at he
  split at he
  · next hall =>
    cases he
    refine h.of_eq rfl (fun user hm ↦ ?_) h.targets
    have hsome := Accounts.users_assigned hc h.isSome user hm
    have hrefers := List.all_eq_true.mp hall user hm
    rw [World.refers, Bool.or_eq_true, decide_eq_true_eq] at hrefers
    rcases hrefers with hold | hrefers
    · exact h.members user hold
    · obtain ⟨guid, hguid⟩ := Option.isSome_iff_exists.mp hsome
      rw [hguid, Option.all_some] at hrefers
      obtain ⟨found, hfound, rfl⟩ := hasGroup_iff.mp hrefers
      exact ⟨found, hfound, hguid⟩
  · cases he
    exact h

theorem updateUsers (h : Consistent w) {f : Accounts.User → Accounts.User}
    (hf : ∀ user ∈ w.accounts.users, (f user).userGroupGuid = user.userGroupGuid ∨
      ∃ group ∈ w.groups, (f user).userGroupGuid = some group.guid) :
    Consistent (w.updateUsers f) := by
  refine h.of_eq rfl (fun user hm ↦ ?_) h.targets
  obtain ⟨row, hrow, rfl⟩ := List.mem_map.mp hm
  rcases hf row hrow with heq | hgroup
  · rw [heq]
    exact h.members row hrow
  · exact hgroup

theorem filterRules (h : Consistent w) (p : AddressBookRule → Bool) :
    Consistent { w with rules := w.rules.filter p } :=
  h.of_eq rfl h.members fun rule hm ↦ h.targets rule (List.mem_of_mem_filter hm)

/-- A group that is not the default one, and has no members any more. -/
theorem deleteGroup (h : Consistent w) (hm : group ∈ w.groups) (hd : group.isDefault = false)
    (hempty : ∀ user ∈ w.accounts.users, user.userGroupGuid ≠ some group.guid) :
    Consistent (w.deleteGroup group.guid) where
  guids := (List.filter_sublist.map _).nodup h.guids
  names := (List.filter_sublist.map _).nodup h.names
  default := by
    obtain ⟨found, hfound, hdefault, honly⟩ := h.default
    refine ⟨found, List.mem_filter.mpr ⟨hfound, decide_eq_true fun heq ↦ ?_⟩, hdefault,
      fun other ho ↦ honly other (List.mem_of_mem_filter ho)⟩
    rw [List.inj_on_of_nodup_map h.guids hfound hm heq, hd] at hdefault
    cases hdefault
  members user hu := by
    obtain ⟨row, hrow, rfl⟩ := List.mem_map.mp hu
    rw [if_neg (hempty row hrow)]
    obtain ⟨found, hfound, heq⟩ := h.members row hrow
    refine ⟨found, List.mem_filter.mpr ⟨hfound, decide_eq_true fun hsame ↦ ?_⟩, heq⟩
    exact hempty row hrow (heq.trans (congrArg some hsame))
  targets rule hr guid hguid := by
    obtain ⟨hrule, hne⟩ := List.mem_filter.mp hr
    obtain ⟨found, hfound, rfl⟩ := h.targets rule hrule guid hguid
    refine ⟨found, List.mem_filter.mpr ⟨hfound, decide_eq_true fun hsame ↦ ?_⟩, rfl⟩
    exact of_decide_eq_true hne (hguid.trans (congrArg some hsame))

end Statements

section Transactions

open Checked

theorem select_bind {outcome : Except Failure Unit} {f : World → Transaction α}
    {Q : Except Failure α → World → Prop} (he : ∀ failure, Q (.error failure) w)
    (h : Ends (f w) w Q) : Ends (Transaction.select outcome >>= f) w Q := by
  cases outcome with
  | ok u => exact h
  | error failure => exact .throw (he failure)

theorem write_bind {outcome : Except Failure Unit} {g : World → World} {f : Unit → Transaction α}
    {Q : Except Failure α → World → Prop} (he : ∀ failure, Q (.error failure) w)
    (h : Ends (f ()) (g w) Q) : Ends (Transaction.write outcome g >>= f) w Q := by
  cases outcome with
  | ok u => exact h
  | error failure => exact .throw (he failure)

/-- What a transaction leaves behind that is not rolled back. -/
abbrev Commits (r : Except Failure α) (w : World) : Prop := (∃ a, r = .ok a) → Consistent w

theorem commits_error {failure : Failure} : Commits (.error failure : Except Failure α) w := by
  simp [Commits]

theorem deleteGroup_commits (h : Consistent w) :
    Ends (Transaction.deleteGroup o guid) w Commits := by
  refine select_bind (fun _ ↦ commits_error) (require_bind commits_error fun group hfound ↦
    assert_bind commits_error fun hd ↦ ?_)
  have hm := List.mem_of_find?_eq_some hfound
  have hguid : group.guid = guid := Collections.key_of_find? hfound
  subst hguid
  rw [Bool.not_eq_true'] at hd
  refine select_bind (fun _ ↦ commits_error) (require_bind commits_error fun defaultGroup hdef ↦ ?_)
  have hmdef := List.mem_of_find?_eq_some hdef
  have hne : defaultGroup.guid ≠ group.guid := by
    intro heq
    have hisDefault := List.find?_some hdef
    rw [List.inj_on_of_nodup_map h.guids hmdef hm heq, hd] at hisDefault
    cases hisDefault
  have hmoved : Consistent (w.updateUsers fun row ↦ if row.userGroupGuid = some group.guid then
      World.assign defaultGroup.guid row else row) := by
    refine h.updateUsers fun user _ ↦ ?_
    split
    · exact .inr ⟨defaultGroup, hmdef, rfl⟩
    · exact .inl rfl
  refine select_bind (fun _ ↦ commits_error) (reply_bind (fun _ ↦ commits_error) fun _ _ ↦
    write_bind (fun _ ↦ commits_error) (write_bind (fun _ ↦ commits_error)
      (write_bind (fun _ ↦ commits_error) (.pure fun _ ↦ ?_))))
  refine (hmoved.filterRules _).deleteGroup hm hd fun user hu heq ↦ ?_
  obtain ⟨row, -, rfl⟩ := List.mem_map.mp hu
  split at heq
  · exact hne (Option.some.inj heq)
  · next hother => exact hother heq

theorem moveUsers_commits {userGuids : List String} (h : Consistent w) :
    Ends (Transaction.moveUsers o guid userGuids) w Commits := by
  refine select_bind (fun _ ↦ commits_error) (require_bind commits_error fun group hfound ↦ ?_)
  have hm := List.mem_of_find?_eq_some hfound
  have hguid : group.guid = guid := Collections.key_of_find? hfound
  refine select_bind (fun _ ↦ commits_error) (assert_bind commits_error fun _ ↦
    reply_bind (fun _ ↦ commits_error) fun _ _ ↦ ?_)
  simp only [Transaction.moveAll]
  split
  · exact .pure fun _ ↦ h
  · refine write_bind (fun _ ↦ commits_error) (.pure fun _ ↦ h.updateUsers fun user _ ↦ ?_)
    split
    · exact .inr ⟨group, hm, by rw [hguid]; rfl⟩
    · exact .inl rfl

theorem deleteUser_commits (h : Consistent w) : Ends (Transaction.deleteUser o guid) w Commits := by
  refine select_bind (fun _ ↦ commits_error) (require_bind commits_error fun user _ ↦
    reply_bind (fun _ ↦ commits_error) fun _ _ ↦ ?_)
  cases o.outcome 2 with
  | ok u => exact fun _ ↦ h.of_eq rfl (fun user hm ↦ h.members user (List.mem_of_mem_filter hm)) h.targets
  | error failure => exact commits_error

theorem transact (h : Consistent w) {x : Transaction α} (hx : Ends x w Commits)
    {reply : Except Failure α} (he : transact x w = (w', reply)) : Consistent w' := by
  rcases transact_eq he with ⟨a, rfl, hok⟩ | ⟨-, rfl⟩
  · exact hx.of_ok hok ⟨a, rfl⟩
  · exact h

end Transactions

end Consistent

end RustdeskConsole.UserGroups
