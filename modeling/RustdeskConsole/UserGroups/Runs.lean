import RustdeskConsole.UserGroups.Consistency

namespace RustdeskConsole.UserGroups

open Accounts (Failure)
open Effects Relation

variable {platform : Platform} {call : Accounts.Call} {w w' w₀ w₁ : World} {α β : Type}
  {guid : String} {request : Request}

/-- One operation after the other, each run to its end, whether it succeeds or fails. -/
def Step (platform : Platform) (w w' : World) : Prop :=
  ∃ call request x, Completes (machine platform) call (serve platform request) w x w'

def World.memberships (w : World) : List (String × Option String) :=
  w.accounts.users.map fun user ↦ (user.guid, user.userGroupGuid)

/-- The requests that are about the members of a group. -/
def Request.isMembership : Request → Bool
  | .deleteGroup .. | .moveUsers .. => true
  | _ => false

section Rules

abbrev Keeps (platform : Platform) (call : Accounts.Call) (p : Handler α) : Prop :=
  Maintains (machine platform) call Consistent p

theorem keeps_ignore {p : Handler α} (hp : Keeps platform call p) : Keeps platform call (ignore p) :=
  .bind hp fun _ ↦ .pure ()

theorem keeps_assert {condition : Bool} {failure : Failure} :
    Keeps platform call (Handler.assert condition failure) := by
  cases condition with
  | true => exact .pure ()
  | false => exact .throw failure

theorem keeps_require {value : Option α} {failure : Failure} :
    Keeps platform call (Handler.require value failure) := by
  cases value with
  | some a => exact .pure a
  | none => exact .throw failure

theorem keeps_tryCatch {p : Handler α} {f : Failure → Handler α} (hp : Keeps platform call p)
    (hf : ∀ failure, Keeps platform call (f failure)) : Keeps platform call (tryCatch p f) :=
  fun w h ↦ (hp w h).tryCatch (fun _ _ h ↦ h) fun failure w' h ↦ hf failure w' h

/-- A lookup keeps the store. -/
theorem keeps_ask {c : Command} (hc : ∀ o w, (exec platform call c o w).1 = w) :
    Keeps platform call (Handler.ask c) := by
  refine .invoke fun w o w' r h he ↦ ?_
  have hsame : (exec platform call c o w).1 = w' := congrArg Prod.fst he
  rw [hc] at hsame
  exact hsame ▸ h

theorem keeps_normalizeName {value : String} :
    Keeps platform call (UserGroupService.normalizeName platform value) :=
  .bind keeps_assert fun _ ↦ .pure _

theorem keeps_rethrowUniqueName {failure : Failure} :
    Keeps platform call (UserGroupService.rethrowUniqueName failure : Handler α) := by
  rw [UserGroupService.rethrowUniqueName]
  split
  · exact .throw _
  · exact .throw _

end Rules

section Groups

theorem requireGroup_keeps : Keeps platform call (UserGroupService.requireGroup guid) :=
  .bind (keeps_ask fun _ _ ↦ rfl) fun _ ↦ keeps_require

/-- A consistent store has its default group. -/
theorem ensureDefaultGroup_keeps : Keeps platform call (UserGroupService.ensureDefaultGroup platform) := by
  intro w h
  refine serial_ask (fun _ ↦ rfl) ?_
  split
  · exact .pure h
  · next hnone =>
    obtain ⟨group, hm, hd, -⟩ := h.default
    exact absurd hd (List.find?_eq_none.mp hnone group hm)

theorem resolveUserGroupGuid_keeps {userGroupGuid : Option String} :
    Keeps platform call (UserGroupService.resolveUserGroupGuid platform userGroupGuid) := by
  rw [UserGroupService.resolveUserGroupGuid]
  split
  · exact .bind ensureDefaultGroup_keeps fun _ ↦ .pure _
  · exact .bind requireGroup_keeps fun _ ↦ .pure _

theorem assertNameAvailable_keeps {name : String} {ignoredGuid : Option String} :
    Keeps platform call (UserGroupService.assertNameAvailable name ignoredGuid) :=
  .bind (keeps_ask fun _ _ ↦ rfl) fun _ ↦ keeps_assert

theorem createGroup_keeps {dto : CreateUserGroupDto} :
    Keeps platform call (UserGroupService.createGroup platform dto) := by
  refine .bind keeps_normalizeName fun names ↦ .bind assertNameAvailable_keeps fun _ ↦
    keeps_tryCatch (.invoke fun w o w' r h he ↦ ?_) fun _ ↦ keeps_rethrowUniqueName
  rcases insertGroup_eq he with ⟨group, -, rfl, rfl, hu⟩ | ⟨-, rfl⟩
  · exact h.insert rfl hu
  · exact h

/-- A group that is renamed stays what it is. -/
theorem rename_yields {group : UserGroup} {name : Option String} :
    Yields (machine platform) call (UserGroupService.rename platform group name) w fun r w' ↦
      w' = w ∧ ∀ renamed, r = .ok renamed →
        renamed.guid = group.guid ∧ renamed.isDefault = group.isDefault := by
  cases name with
  | none => exact .pure ⟨rfl, fun renamed heq ↦ by cases heq; exact ⟨rfl, rfl⟩⟩
  | some name =>
    refine serial_normalizeName (fun _ ↦ ⟨rfl, by simp⟩) fun names ↦ ?_
    have hname : Yields (machine platform) call
        (UserGroupService.assertNameAvailable names.2 (some group.guid)) w fun _ w' ↦ w' = w := by
      refine serial_ask (fun _ ↦ rfl) ?_
      rw [Handler.assert]
      split
      · exact .pure rfl
      · exact .throw rfl
    refine hname.bind (fun _ w' hw ↦ .pure ⟨hw, fun renamed heq ↦ ?_⟩) fun _ w' hw ↦ ⟨hw, by simp⟩
    cases heq
    exact ⟨rfl, rfl⟩

theorem updateGroup_keeps {dto : UpdateUserGroupDto} :
    Keeps platform call (UserGroupService.updateGroup platform guid dto) := by
  intro w h
  have hfind : Yields (machine platform) call (UserGroupService.requireGroup guid) w fun r w' ↦
      w' = w ∧ ∀ group, r = .ok group → group ∈ w.groups := by
    refine serial_ask (fun _ ↦ rfl) ?_
    cases hfound : w.findGroup guid with
    | none => exact .throw ⟨rfl, by simp⟩
    | some group =>
      refine .pure ⟨rfl, fun row heq ↦ ?_⟩
      cases heq
      exact List.mem_of_find?_eq_some hfound
  refine hfind.bind (fun group w₁ ⟨hw₁, hm⟩ ↦ ?_) fun _ w₁ hw₁ ↦ hw₁.1 ▸ h
  obtain rfl : w = w₁ := hw₁.symm
  refine rename_yields.bind (fun renamed w₂ ⟨hw₂, hsame⟩ ↦ ?_) fun _ w₂ hw₂ ↦ hw₂.1 ▸ h
  obtain rfl : w = w₂ := hw₂.symm
  obtain ⟨hg, hd⟩ := hsame renamed rfl
  refine Yields.bind (P := fun _ ↦ Consistent) (.tryCatch (P := fun _ ↦ Consistent)
    (.invoke fun o w' r he ↦ ?_) (fun _ _ h ↦ h) fun _ w' h ↦ keeps_rethrowUniqueName w' h)
    (fun saved w' h ↦ ?_) fun _ _ h ↦ h
  · rcases saveGroup_eq he with ⟨-, rfl, hu⟩ | ⟨-, rfl⟩
    · exact h.save (hm group rfl) hg.symm hd.symm hu
    · exact h
  · exact serial_ask (fun _ ↦ rfl) (.pure h)

theorem assertUsersMutation_keeps {actorGuid permissionCode : String} {targetGuids : List String} :
    Keeps platform call (UserGroupService.assertUsersMutation actorGuid targetGuids permissionCode) := by
  refine .invoke fun w o w' r h he ↦ ?_
  have hc : (Accounts.Command.authorize actorGuid permissionCode targetGuids).Assigns := trivial
  exact h.account hc he

theorem deleteGroup_keeps {actorGuid : String} :
    Keeps platform call (UserGroupService.deleteGroup guid actorGuid) := by
  refine .bind (keeps_ask fun _ _ ↦ rfl) fun affectedUsers ↦ .bind ?_ fun _ ↦
    .invoke fun w o w' r h he ↦ h.transact (Consistent.deleteGroup_commits h) (map_some_inj he)
  rw [UserGroupService.assertMembers]
  split
  · exact .pure ()
  · exact assertUsersMutation_keeps

theorem moveUsers_keeps {userGuids : List String} {actorGuid : String} :
    Keeps platform call (UserGroupService.moveUsers guid userGuids actorGuid) :=
  .bind assertUsersMutation_keeps fun _ ↦ .invoke fun _ _ _ _ h he ↦
    h.transact (Consistent.moveUsers_commits h) (map_some_inj he)

end Groups

section Others

theorem lower_keeps {c : Accounts.Command} (hc : c.Assigns) {r : Accounts.Reply c}
    (h : Consistent w) (hs : Serves (machine platform) call (lower platform c) w r w') :
    Consistent w' := by
  have hcall : Serves (machine platform) call (.call (.account c) .done) w r w' → Consistent w' := by
    intro hs
    cases hs with
    | call he hdone =>
      cases hdone
      exact h.account hc he
  cases c with
  | resolveUserGroupGuid userGroupGuid =>
    obtain ⟨⟨x, u⟩, w₁, hstart, hdone⟩ := hs.of_bind
    cases hdone
    exact resolveUserGroupGuid_keeps w h x w' hstart
  | _ => exact hcall hs

theorem lift_keeps {handler : Accounts.Handler α} (ha : Accounts.Assigned handler) :
    Keeps platform call (lift platform handler) :=
  fun _ h _ _ hs ↦ Serves.of_expand (fun _ hc _ _ _ h hs ↦ lower_keeps hc h hs) ha h hs

theorem createRule_keeps {dto : CreateRuleDto} {userId : String} :
    Keeps platform call (AddressBookRuleService.createRule dto userId) := by
  refine .bind (.invoke fun w o w' r h he ↦ ?_) fun _ ↦ .bind keeps_assert fun _ ↦ .bind ?_ fun _ ↦
    .bind ?_ fun finalTargetGroupId ↦ .bind (keeps_ask fun _ _ ↦ rfl) fun _ ↦
    .bind keeps_assert fun _ ↦ .invoke fun w o w' r h he ↦ ?_
  · cases he
    exact h
  · cases Auth.truthy dto.user with
    | none => exact .pure _
    | some user =>
      exact .bind (keeps_ask fun _ _ ↦ rfl) fun _ ↦ .bind keeps_require fun _ ↦ .pure _
  · cases Auth.truthy dto.group with
    | none => exact .pure _
    | some group =>
      exact .bind requireGroup_keeps fun _ ↦ .pure _
  · have hrule : w.insertRule _ o.account.uuid = (w', r) := map_some_inj he
    simp only [World.insertRule] at hrule
    split at hrule
    · next hall =>
      cases hrule
      refine h.of_eq rfl h.members fun rule hm guid hguid ↦ ?_
      rcases List.mem_cons.mp hm with rfl | hm
      · have hguid : finalTargetGroupId = some guid := hguid
        rw [hguid, Option.all_some] at hall
        exact hasGroup_iff.mp hall
      · exact h.targets rule hm guid hguid
    · cases hrule
      exact h

theorem serve_keeps : Keeps platform call (serve platform request) := by
  cases request with
  | createGroup dto => exact keeps_ignore createGroup_keeps
  | updateGroup guid dto => exact keeps_ignore updateGroup_keeps
  | deleteGroup guid actorGuid => exact keeps_ignore deleteGroup_keeps
  | moveUsers guid userGuids actorGuid => exact keeps_ignore moveUsers_keeps
  | account request => exact lift_keeps (Accounts.serve_assigned platform.toPlatform request)
  | deleteUser guid =>
    exact .invoke fun _ _ _ _ h he ↦ h.transact (Consistent.deleteUser_commits h) (map_some_inj he)
  | createRule dto userId => exact keeps_ignore createRule_keeps

end Others

section Failures

/-- A failure leaves the memberships. -/
abbrev Spares (w : World) (r : Except Failure α) (w' : World) : Prop :=
  (∃ failure, r = .error failure) → w'.memberships = w.memberships

theorem assertUsersMutation_spares {actorGuid permissionCode : String}
    {targetGuids : List String} : Yields (machine platform) call
      (UserGroupService.assertUsersMutation actorGuid targetGuids permissionCode) w
      fun _ w' ↦ w'.memberships = w.memberships := by
  refine .invoke fun o w' r he ↦ ?_
  have hexec : execAccount o platform call
      (.authorize actorGuid permissionCode targetGuids) w = (w', some r) := he
  rw [execAccount] at hexec
  split at hexec
  · obtain ⟨rfl, -⟩ := Prod.mk.inj hexec
    rw [World.memberships, Accounts.exec]
    split <;> rfl
  · cases hexec

theorem transact_spares {x : Transaction α} {r : Except Failure α} (h : transact x w = (w', r)) :
    Spares w r w' := by
  rintro ⟨failure, rfl⟩
  rcases transact_eq h with ⟨a, heq, -⟩ | ⟨-, rfl⟩
  · cases heq
  · rfl

theorem ignore_spares {p : Handler α} (hp : Yields (machine platform) call p w (Spares w)) :
    Yields (machine platform) call (ignore p) w (Spares w) :=
  hp.bind (fun _ _ _ ↦ .pure (by simp)) fun _ _ h _ ↦ h ⟨_, rfl⟩

theorem memberships_spared (hr : request.isMembership = true) :
    Yields (machine platform) call (serve platform request) w (Spares w) := by
  cases request with
  | deleteGroup guid actorGuid =>
    refine ignore_spares (serial_ask (fun _ ↦ rfl) ?_)
    have hassert : Yields (machine platform) call (UserGroupService.assertMembers actorGuid
        ((w.members guid).map (·.guid))) w fun _ w' ↦ w'.memberships = w.memberships := by
      rw [UserGroupService.assertMembers]
      split
      · exact .pure rfl
      · exact assertUsersMutation_spares
    refine hassert.bind (fun _ w₁ hw₁ ↦ .invoke fun o w' r he hfail ↦ ?_) fun _ _ hw₁ _ ↦ hw₁
    exact (transact_spares (map_some_inj he) hfail).trans hw₁
  | moveUsers guid userGuids actorGuid =>
    refine ignore_spares (assertUsersMutation_spares.bind (fun _ w₁ hw₁ ↦
      .invoke fun o w' r he hfail ↦ ?_) fun _ _ hw₁ _ ↦ hw₁)
    exact (transact_spares (map_some_inj he) hfail).trans hw₁
  | _ => cases hr

end Failures

/-- Once the storage is initialized there is always one default group, users and
rules refer to groups that there are, and a deletion or a move that fails leaves
all memberships as they were. -/
theorem groups_consistent {group : UserGroup} (hu : uniqueGroups w₀.groups)
    (hinit : Completes (machine platform) call (UserGroupService.initializeStorage platform) w₀
      (.ok group) w₁) (h : ReflTransGen (Step platform) w₁ w) :
    Consistent w ∧ ∀ call request failure w', request.isMembership = true →
      Completes (machine platform) call (serve platform request) w (.error failure) w' →
        w'.memberships = w.memberships := by
  refine ⟨?_, fun call request failure w' hr hc ↦ memberships_spared hr _ w' hc ⟨failure, rfl⟩⟩
  induction h with
  | refl => exact initializeStorage_consistent hu _ w₁ hinit group rfl
  | tail _ hstep ih =>
    obtain ⟨call, request, x, hc⟩ := hstep
    exact serve_keeps _ ih x _ hc

def samplePlatform : Platform where
  compare password hash := hash = password
  hash password _ := password
  verifyTotp secret code _ := code = secret
  digest token := token
  isHttpUrl _ := false
  toLowerCase name := String.ofList (name.toList.map Char.toLower)
  isUUID user := user.length = 36

def sampleCall : Accounts.Call := ⟨0, .requestReset ""⟩

def sampleChoice (uuid : String) : Choice :=
  ⟨⟨0, uuid, "", 0, true, .ok "", .ok ()⟩, fun _ ↦ .ok ()⟩

def sampleUser : Accounts.User where
  guid := "u"
  username := "ann"
  displayName := none
  email := none
  password := none
  note := none
  status := .active
  isAdmin := false
  tfaSecret := none
  info := none
  thirdAuthType := none
  oidcSubject := none
  avatar := none
  userGroupGuid := none

/-- A user without a group, and a rule for a group that is gone. -/
def sampleLegacy : World :=
  ⟨⟨[sampleUser], [], [], [], []⟩, [], [], [⟨"r", "b", none, some "gone", 1⟩]⟩

/-- The operation run to its end, with every uuid that it draws. -/
def sampleRun {α : Type} (handler : Handler α) (uuid : String) (w : World) :
    Option ((Except Failure α × Unit) × World) :=
  (machine samplePlatform).complete sampleCall (List.replicate 9 (sampleChoice uuid))
    (handler.start ()) w

def sampleAfter {α : Type} (handler : Handler α) (uuid : String) (w : World) : World :=
  ((sampleRun handler uuid w).map Prod.snd).getD w

theorem sample_completes {α : Type} {handler : Handler α} {uuid : String} {w : World} {a : α}
    (h : (sampleRun handler uuid w).map (·.1.1.toOption) = some (some a)) :
    Completes (machine samplePlatform) sampleCall handler w (.ok a) (sampleAfter handler uuid w) := by
  obtain ⟨⟨⟨x, u⟩, w'⟩, hc, hx⟩ := Option.map_eq_some_iff.mp h
  rw [sampleAfter, hc]
  cases x with
  | ok b =>
    cases hx
    exact Serves.of_complete hc
  | error failure => cases hx

def sampleInitialized : World :=
  sampleAfter (UserGroupService.initializeStorage samplePlatform) "g" sampleLegacy

def sampleCreated : World :=
  sampleAfter (serve samplePlatform (.createGroup ⟨"Staff", none⟩)) "h" sampleInitialized

def sampleMoved : World :=
  sampleAfter (serve samplePlatform (.moveUsers "h" ["u"] "a")) "" sampleCreated

theorem sample_consistent : Consistent sampleMoved :=
  (groups_consistent (show uniqueGroups sampleLegacy.groups by decide)
    (sample_completes (a := ⟨"g", "Default", "default", none, true⟩) (by decide +kernel))
    (.tail (.single ⟨sampleCall, .createGroup ⟨"Staff", none⟩, .ok (),
        sample_completes (w := sampleInitialized) (by decide +kernel)⟩)
      ⟨sampleCall, .moveUsers "h" ["u"] "a", .ok (),
        sample_completes (w := sampleCreated) (by decide +kernel)⟩)).1

example : sampleMoved.memberships = [("u", some "h")] := by decide +kernel

end RustdeskConsole.UserGroups
