import RustdeskConsole.Devices.Service
import RustdeskConsole.Rbac.Delegation

namespace RustdeskConsole.Rbac

open Collections Effects.Guard
open Devices (Peer truthy)

/-- The devices by their uuid. -/
abbrev Peers := String → Option Peer

section Devices

variable (s : Store) (peers : Peers) (userGuid permissionCode : String)

def outsideScope (scope : PermissionScope) (peer : Peer) : Bool :=
  !(truthy peer.deviceGroupGuid).any (· ∈ scope.deviceGroupGuids)

def assertDeviceAccess (deviceUuid : String) : Except Failure (Peer × PermissionScope) := do
  let scope ← requirePermission s userGuid permissionCode
  match peers deviceUuid with
  | none => .error (.notFound "Device not found")
  | some peer =>
    if !scope.global && outsideScope scope peer then
      .error (.forbidden "Device is not in an authorized device group")
    else pure (peer, scope)

def assertDevicesAccess (deviceUuids : List String) :
    Except Failure (List Peer × PermissionScope) := do
  let scope ← requirePermission s userGuid permissionCode
  let unique := deviceUuids.eraseDups
  if unique.isEmpty then pure ([], scope)
  else
    let found := unique.filterMap peers
    if !scope.global && found.any (outsideScope scope) then
      .error (.forbidden "Batch request contains unauthorized devices")
    else pure (found, scope)

end Devices

section Users

variable (s : Store) (actorGuid permissionCode : String)

def assertSystemOwnerIsNotRemoved (target : User) : Except Failure Unit :=
  forbidIf (target.isAdmin && (permissionCode = "users.status" || permissionCode = "users.delete"))
    "The system owner account cannot be disabled or deleted"

def assertUserMutation (targetGuid : String) (transaction : Bool) : Except Failure Unit := do
  discard (requirePermission s actorGuid permissionCode)
  let target ← requireUser s targetGuid
  assertSystemOwnerIsNotRemoved permissionCode target
  if isProtectedUser s targetGuid target.isAdmin transaction then
    discard (requireSuperAdmin s actorGuid)
  else pure ()

/-- `getEffectiveProtectionMap`. -/
def getEffectiveProtectionMap (userGuids : List String) : OrderedMap String Bool :=
  let unique := userGuids.eraseDups
  let result := unique.foldl (fun m guid ↦ m.set guid false) .empty
  if unique.isEmpty then result
  else
    let users := s.users.filter fun user ↦ unique.contains user.guid
    let result := (users.filter User.isAdmin).foldl (fun m user ↦ m.set user.guid true) result
    let assignments := s.assignments.filter fun assignment ↦ unique.contains assignment.userGuid
    if assignments.isEmpty then result
    else
      let protectedRoles := ((s.roles.filter fun role ↦
        (assignments.map UserRoleAssignment.roleGuid).contains role.guid).filter
          Role.protectedAccount).map Role.guid
      (assignments.filter fun assignment ↦ protectedRoles.contains assignment.roleGuid).foldl
        (fun m assignment ↦ m.set assignment.userGuid true) result

def getProtectedUserGuids (userGuids knownOwners : List String) : List String :=
  let result := knownOwners.foldl (fun m guid ↦ m.set guid true) (getEffectiveProtectionMap s userGuids)
  (result.entries.filter Prod.snd).map Prod.fst

/-- `for (const user of users) this.assertSystemOwnerIsNotRemoved(user, ..)`. -/
def assertSystemOwnersAreNotRemoved : List User → Except Failure Unit
  | [] => pure ()
  | user :: users => do
    assertSystemOwnerIsNotRemoved permissionCode user
    assertSystemOwnersAreNotRemoved users

def assertUsersMutation (targetGuids : List String) : Except Failure Unit := do
  discard (requirePermission s actorGuid permissionCode)
  let unique := targetGuids.eraseDups
  if unique.isEmpty then pure ()
  else
    let users := s.users.filter fun user ↦ unique.contains user.guid
    assertSystemOwnersAreNotRemoved permissionCode users
    let protectedGuids := getProtectedUserGuids s (users.map User.guid)
      ((users.filter User.isAdmin).map User.guid)
    match users.find? fun user ↦ protectedGuids.contains user.guid with
    | some _ => discard (requireSuperAdmin s actorGuid)
    | none => pure ()

end Users

section Lemmas

variable {s : Store} {peers : Peers} {actorGuid permissionCode guid : String} {guids : List String}
  {user : User} {scope : PermissionScope} {transaction : Bool}

theorem user?_eq_some (hn : (s.users.map User.guid).Nodup) :
    s.user? guid = some user ↔ user ∈ s.users ∧ user.guid = guid := by
  unfold Store.user?
  constructor
  · intro h
    exact ⟨List.mem_of_find?_eq_some h, by simpa using List.find?_some h⟩
  · intro ⟨hm, hg⟩
    obtain ⟨other, ho⟩ : ∃ other, s.users.find? (·.guid = guid) = some other :=
      Option.isSome_iff_exists.mp (List.find?_isSome.mpr ⟨user, hm, by simpa using hg⟩)
    have hother : other.guid = guid := by simpa using List.find?_some ho
    have heq := List.inj_on_of_nodup_map hn (List.mem_of_find?_eq_some ho) hm (hother.trans hg.symm)
    exact heq ▸ ho

/-- The user is a super administrator, or has a protected role. -/
def Protected (s : Store) (guid : String) (isAdmin : Bool) : Prop :=
  isAdmin = true ∨ ∃ a ∈ s.assignments, a.userGuid = guid ∧
    ∃ role ∈ s.roles, role.guid = a.roleGuid ∧ role.protectedAccount = true

theorem isProtectedUser_iff :
    isProtectedUser s guid ((s.user? guid).any User.isAdmin) transaction = true ↔
      Protected s guid ((s.user? guid).any User.isAdmin) := by
  simp only [isProtectedUser, Protected, ite_self, Bool.or_eq_true, List.any_eq_true,
    List.mem_filter, List.contains_iff_mem, List.mem_map, decide_eq_true_eq]
  refine or_congr_right ⟨?_, ?_⟩
  · rintro ⟨role, ⟨hr, a, ⟨ha, hag⟩, har⟩, hp⟩
    exact ⟨a, ha, hag, role, hr, har.symm, hp⟩
  · rintro ⟨a, ha, hag, role, hr, har, hp⟩
    exact ⟨role, ⟨hr, a, ⟨ha, hag⟩, har.symm⟩, hp⟩

theorem user?_any (hn : (s.users.map User.guid).Nodup) :
    (s.user? guid).any User.isAdmin = true ↔
      ∃ user ∈ s.users, user.isAdmin = true ∧ user.guid = guid := by
  rw [Option.any_eq_true]
  constructor
  · intro ⟨user, hu, ha⟩
    obtain ⟨hm, hg⟩ := (user?_eq_some hn).mp hu
    exact ⟨user, hm, ha, hg⟩
  · intro ⟨user, hm, ha, hg⟩
    exact ⟨user, (user?_eq_some hn).mpr ⟨hm, hg⟩, ha⟩

theorem getEffectiveProtectionMap_get? (hn : (s.users.map User.guid).Nodup) (hm : guid ∈ guids) :
    (getEffectiveProtectionMap s guids).get? guid = some
      (isProtectedUser s guid ((s.user? guid).any User.isAdmin) transaction) := by
  have hu : guid ∈ guids.eraseDups := List.mem_eraseDups.mpr hm
  have hne : guids.eraseDups.isEmpty = false :=
    List.isEmpty_eq_false_iff_exists_mem.mpr ⟨guid, hu⟩
  have hadmins : (∃ user ∈ (s.users.filter fun user ↦ guids.eraseDups.contains user.guid).filter
      User.isAdmin, user.guid = guid) ↔ (s.user? guid).any User.isAdmin = true := by
    rw [user?_any hn]
    refine exists_congr fun user ↦ ?_
    simp only [List.mem_filter, List.contains_iff_mem]
    constructor
    · intro ⟨⟨⟨hs, _⟩, ha⟩, hg⟩
      exact ⟨hs, ha, hg⟩
    · intro ⟨hs, ha, hg⟩
      exact ⟨⟨⟨hs, hg ▸ hu⟩, ha⟩, hg⟩
  have hbase : ((s.users.filter fun user ↦ guids.eraseDups.contains user.guid).filter
      User.isAdmin |>.foldl (fun m user ↦ m.set user.guid true)
        (guids.eraseDups.foldl (fun m guid ↦ m.set guid false) OrderedMap.empty)).get? guid =
      some ((s.user? guid).any User.isAdmin) := by
    have hset := OrderedMap.get?_foldl_set guids.eraseDups id false .empty guid
    rw [if_pos ⟨guid, hu, rfl⟩] at hset
    rw [OrderedMap.get?_foldl_set]
    simp only [hadmins]
    split
    · rename_i ha
      rw [ha]
    · rename_i ha
      rw [Bool.not_eq_true] at ha
      rw [ha]
      exact hset
  unfold getEffectiveProtectionMap
  rw [if_neg (by simp [hne])]
  dsimp only
  split
  · rename_i hempty
    rw [hbase, Option.some.injEq, Bool.eq_iff_iff, isProtectedUser_iff, Protected]
    refine (or_iff_left ?_).symm
    intro ⟨a, ha, hag, _⟩
    have hmem : a ∈ s.assignments.filter fun a ↦ guids.eraseDups.contains a.userGuid :=
      List.mem_filter.mpr ⟨ha, List.contains_iff_mem.mpr (hag ▸ hu)⟩
    rw [List.isEmpty_iff.mp hempty] at hmem
    cases hmem
  · rw [OrderedMap.get?_foldl_set, hbase]
    have hroles : (∃ a ∈ (s.assignments.filter fun a ↦ guids.eraseDups.contains a.userGuid).filter
        fun a ↦ (((s.roles.filter fun role ↦ ((s.assignments.filter fun a ↦
          guids.eraseDups.contains a.userGuid).map UserRoleAssignment.roleGuid).contains
            role.guid).filter Role.protectedAccount).map Role.guid).contains a.roleGuid,
        a.userGuid = guid) ↔ ∃ a ∈ s.assignments, a.userGuid = guid ∧
          ∃ role ∈ s.roles, role.guid = a.roleGuid ∧ role.protectedAccount = true := by
      refine exists_congr fun a ↦ ?_
      simp only [List.mem_filter, List.contains_iff_mem, List.mem_map]
      constructor
      · intro ⟨⟨⟨ha, _⟩, role, ⟨⟨hr, _⟩, hp⟩, hg⟩, hag⟩
        exact ⟨ha, hag, role, hr, hg, hp⟩
      · intro ⟨ha, hag, role, hr, hg, hp⟩
        exact ⟨⟨⟨ha, hag ▸ hu⟩, role, ⟨⟨hr, a, ⟨ha, hag ▸ hu⟩, hg.symm⟩, hp⟩, hg⟩, hag⟩
    simp only [hroles]
    have hiff : isProtectedUser s guid ((s.user? guid).any User.isAdmin) transaction = true ↔
        Protected s guid ((s.user? guid).any User.isAdmin) := isProtectedUser_iff
    rw [Protected] at hiff
    split
    · rename_i hr
      rw [hiff.mpr (.inr hr)]
    · rename_i hr
      rw [Option.some.injEq, Bool.eq_iff_iff, hiff, or_iff_left hr]

theorem mem_getProtectedUserGuids (hn : (s.users.map User.guid).Nodup) {owners : List String}
    (hm : guid ∈ guids) (ho : ∀ owner ∈ owners, (s.user? owner).any User.isAdmin = true) :
    guid ∈ getProtectedUserGuids s guids owners ↔
      isProtectedUser s guid ((s.user? guid).any User.isAdmin) transaction = true := by
  have hget : ∀ m : OrderedMap String Bool,
      guid ∈ (m.entries.filter Prod.snd).map Prod.fst ↔ m.get? guid = some true := by
    intro m
    rw [OrderedMap.get?_eq_some, List.mem_map]
    constructor
    · rintro ⟨⟨k, b⟩, hb, rfl⟩
      obtain ⟨hmem, rfl⟩ := List.mem_filter.mp hb
      exact hmem
    · intro hmem
      exact ⟨(guid, true), List.mem_filter.mpr ⟨hmem, rfl⟩, rfl⟩
  rw [getProtectedUserGuids, hget, OrderedMap.get?_foldl_set _ fun owner ↦ owner,
    getEffectiveProtectionMap_get? hn hm]
  split
  · rename_i howner
    obtain ⟨owner, hmem, rfl⟩ := howner
    rw [isProtectedUser_iff, Protected, ho owner hmem]
    simp
  · rw [Option.some.injEq]

theorem assertSystemOwnersAreNotRemoved_eq_ok {users : List User} :
    assertSystemOwnersAreNotRemoved permissionCode users = .ok () ↔
      ∀ user ∈ users, assertSystemOwnerIsNotRemoved permissionCode user = .ok () := by
  induction users with
  | nil => simp [assertSystemOwnersAreNotRemoved, pure, Except.pure]
  | cons user users ih =>
    simp only [assertSystemOwnersAreNotRemoved, bind_eq_ok, exists_unit, ih, List.forall_mem_cons]

theorem assertUserMutation_eq_ok (hp : requirePermission s actorGuid permissionCode = .ok scope) :
    assertUserMutation s actorGuid permissionCode guid transaction = .ok () ↔
      ∃ target, s.user? guid = some target ∧
        assertSystemOwnerIsNotRemoved permissionCode target = .ok () ∧
        (isProtectedUser s guid target.isAdmin transaction = true →
          ∃ owner, requireSuperAdmin s actorGuid = .ok owner) := by
  simp only [assertUserMutation, bind_eq_ok, exists_unit, discard_eq_ok, hp, Except.ok.injEq,
    exists_eq', true_and, requireUser_eq_ok]
  refine exists_congr fun target ↦ and_congr_right fun _ ↦ and_congr_right fun _ ↦ ?_
  cases isProtectedUser s guid target.isAdmin transaction with
  | true => simp only [if_true, discard_eq_ok, true_implies]
  | false =>
    rw [if_neg Bool.false_ne_true]
    exact ⟨fun _ ↦ nofun, fun _ ↦ rfl⟩

theorem assertUsersMutation_eq_ok (hn : (s.users.map User.guid).Nodup)
    (hp : requirePermission s actorGuid permissionCode = .ok scope) :
    assertUsersMutation s actorGuid permissionCode guids = .ok () ↔
      ∀ guid ∈ guids, ∀ target, s.user? guid = some target →
        assertSystemOwnerIsNotRemoved permissionCode target = .ok () ∧
        (isProtectedUser s guid target.isAdmin transaction = true →
          ∃ owner, requireSuperAdmin s actorGuid = .ok owner) := by
  simp only [assertUsersMutation, bind_eq_ok, exists_unit, discard_eq_ok, hp, Except.ok.injEq,
    exists_eq', true_and]
  split
  · rename_i hempty
    refine ⟨fun _ guid hg ↦ ?_, fun _ ↦ rfl⟩
    rw [← List.mem_eraseDups, List.isEmpty_iff.mp hempty] at hg
    cases hg
  · rw [bind_eq_ok, exists_unit, assertSystemOwnersAreNotRemoved_eq_ok]
    have hmem : ∀ user, user ∈ (s.users.filter fun user ↦ guids.eraseDups.contains user.guid) ↔
        user.guid ∈ guids ∧ s.user? user.guid = some user := by
      intro user
      rw [user?_eq_some hn, List.mem_filter, List.contains_iff_mem, List.mem_eraseDups]
      simp only [true_and, and_comm]
    have hprot : ∀ user ∈ (s.users.filter fun user ↦ guids.eraseDups.contains user.guid),
        (user.guid ∈ getProtectedUserGuids s ((s.users.filter fun user ↦
          guids.eraseDups.contains user.guid).map User.guid) (((s.users.filter fun user ↦
            guids.eraseDups.contains user.guid).filter User.isAdmin).map User.guid) ↔
          isProtectedUser s user.guid user.isAdmin transaction = true) := by
      intro user hu
      rw [mem_getProtectedUserGuids hn (List.mem_map_of_mem hu) ?_,
        ((hmem user).mp hu).2, Option.any_some]
      intro owner ho
      obtain ⟨admin, ha, rfl⟩ := List.mem_map.mp ho
      obtain ⟨hs, hadmin⟩ := List.mem_filter.mp ha
      rw [((hmem admin).mp hs).2]
      exact hadmin
    have hlast : (match (s.users.filter fun user ↦ guids.eraseDups.contains user.guid).find?
        fun user ↦ (getProtectedUserGuids s ((s.users.filter fun user ↦
          guids.eraseDups.contains user.guid).map User.guid) (((s.users.filter fun user ↦
            guids.eraseDups.contains user.guid).filter User.isAdmin).map User.guid)).contains
              user.guid with
      | some _ => discard (requireSuperAdmin s actorGuid)
      | none => pure () : Except Failure Unit) = .ok () ↔
        ∀ user ∈ (s.users.filter fun user ↦ guids.eraseDups.contains user.guid),
          isProtectedUser s user.guid user.isAdmin transaction = true →
            ∃ owner, requireSuperAdmin s actorGuid = .ok owner := by
      split
      · rename_i found hf
        rw [discard_eq_ok]
        refine ⟨fun h _ _ _ ↦ h, fun h ↦ h found (List.mem_of_find?_eq_some hf) ?_⟩
        have hc := List.find?_some hf
        exact (hprot found (List.mem_of_find?_eq_some hf)).mp (List.contains_iff_mem.mp hc)
      · rename_i hf
        refine ⟨fun _ user hu hp ↦ ?_, fun _ ↦ rfl⟩
        have hc := List.find?_eq_none.mp hf user hu
        exact absurd (List.contains_iff_mem.mpr ((hprot user hu).mpr hp)) hc
    rw [hlast, ← forall₂_and]
    constructor
    · intro h guid hg target ht
      have hguid := ((user?_eq_some hn).mp ht).2
      subst hguid
      exact h target ((hmem target).mpr ⟨hg, ht⟩)
    · intro h user hu
      obtain ⟨hg, ht⟩ := (hmem user).mp hu
      exact h user.guid hg user ht

theorem assertDeviceAccess_eq_ok (hp : requirePermission s actorGuid permissionCode = .ok scope) :
    (∃ access, assertDeviceAccess s peers actorGuid permissionCode guid = .ok access) ↔
      ∃ peer, peers guid = some peer ∧ (scope.global = true ∨ outsideScope scope peer = false) := by
  simp only [assertDeviceAccess, hp, bind, Except.bind]
  cases hg : peers guid with
  | none => simp
  | some peer =>
    cases scope.global <;> cases hout : outsideScope scope peer <;>
      simp [hout, pure, Except.pure]

theorem assertDevicesAccess_eq_ok (hp : requirePermission s actorGuid permissionCode = .ok scope) :
    (∃ access, assertDevicesAccess s peers actorGuid permissionCode guids = .ok access) ↔
      ∀ guid ∈ guids, ∀ peer, peers guid = some peer →
        scope.global = true ∨ outsideScope scope peer = false := by
  simp only [assertDevicesAccess, hp, bind, Except.bind]
  split
  · rename_i hempty
    refine ⟨fun _ guid hg ↦ ?_, fun _ ↦ ⟨_, rfl⟩⟩
    rw [← List.mem_eraseDups, List.isEmpty_iff.mp hempty] at hg
    cases hg
  · split
    · rename_i hdenied
      refine ⟨fun ⟨_, h⟩ ↦ (by cases h), fun h ↦ ?_⟩
      obtain ⟨hg, hany⟩ := Bool.and_eq_true_iff.mp hdenied
      obtain ⟨peer, hm, hout⟩ := List.any_eq_true.mp hany
      obtain ⟨guid, hguid, hpeer⟩ := List.mem_filterMap.mp hm
      rcases h guid (List.mem_eraseDups.mp hguid) peer hpeer with hglobal | hin
      · simp [hglobal] at hg
      · rw [hin] at hout
        cases hout
    · rename_i hgranted
      refine ⟨fun _ guid hguid peer hpeer ↦ ?_, fun _ ↦ ⟨_, rfl⟩⟩
      rw [Bool.not_eq_true, Bool.and_eq_false_iff] at hgranted
      refine hgranted.imp (fun hg ↦ by simpa using hg) fun hall ↦ ?_
      rw [Bool.eq_false_iff]
      intro hout
      have hany := List.any_eq_true.mpr
        ⟨peer, List.mem_filterMap.mpr ⟨guid, List.mem_eraseDups.mpr hguid, hpeer⟩, hout⟩
      rw [hall] at hany
      cases hany

end Lemmas

/-- Checking a batch is checking each of its members that exists. -/
theorem batch_authorization (s : Store) (peers : Peers) (hn : (s.users.map User.guid).Nodup)
    (actorGuid permissionCode : String) (guids : List String) (transaction : Bool) :
    (∀ scope, requirePermission s actorGuid permissionCode = .ok scope →
      (assertUsersMutation s actorGuid permissionCode guids = .ok () ↔
        ∀ guid ∈ guids, (s.user? guid).isSome →
          assertUserMutation s actorGuid permissionCode guid transaction = .ok ()) ∧
      ((∃ access, assertDevicesAccess s peers actorGuid permissionCode guids = .ok access) ↔
        ∀ guid ∈ guids, (peers guid).isSome →
          ∃ access, assertDeviceAccess s peers actorGuid permissionCode guid = .ok access)) ∧
    ∀ guid ∈ guids, (getEffectiveProtectionMap s guids).get? guid =
      some (isProtectedUser s guid ((s.user? guid).any User.isAdmin) transaction) := by
  refine ⟨fun scope hp ↦ ⟨?_, ?_⟩, fun guid hg ↦ getEffectiveProtectionMap_get? hn hg⟩
  · rw [assertUsersMutation_eq_ok hn hp]
    refine forall₂_congr fun guid _ ↦ ?_
    rw [assertUserMutation_eq_ok hp, Option.isSome_iff_exists]
    constructor
    · intro h ⟨target, ht⟩
      exact ⟨target, ht, h target ht⟩
    · intro h target ht
      obtain ⟨other, ho, hok⟩ := h ⟨target, ht⟩
      obtain rfl := Option.some.inj (ht.symm.trans ho)
      exact hok
  · rw [assertDevicesAccess_eq_ok hp]
    refine forall₂_congr fun guid _ ↦ ?_
    rw [assertDeviceAccess_eq_ok hp, Option.isSome_iff_exists]
    constructor
    · intro h ⟨peer, hpeer⟩
      exact ⟨peer, hpeer, h peer hpeer⟩
    · intro h peer hpeer
      obtain ⟨other, ho, hok⟩ := h ⟨peer, hpeer⟩
      obtain rfl := Option.some.inj (hpeer.symm.trans ho)
      exact hok

theorem sample_batch_authorization :
    assertUsersMutation damagedStore "operator" "users.view" ["operator", "member", "member"] =
      .ok () ↔ ∀ guid ∈ ["operator", "member", "member"], (damagedStore.user? guid).isSome →
        assertUserMutation damagedStore "operator" "users.view" guid true = .ok () :=
  ((batch_authorization damagedStore (fun _ ↦ none) damagedStore_consistent.users "operator"
    "users.view" _ true).1 ⟨true, []⟩ (by decide +kernel)).1

end RustdeskConsole.Rbac
