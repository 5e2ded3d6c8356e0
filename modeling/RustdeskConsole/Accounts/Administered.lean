import RustdeskConsole.Accounts.Handlers

namespace RustdeskConsole.Accounts

open Auth (UserStatus)
open Effects Effects.History

/-- A database that no operation has touched yet. -/
structure World.Blank (w : World) : Prop where
  unique : uniqueColumns w.users
  drawn : ∀ user ∈ w.users, user.guid ∈ w.drawn
  history : w.history = []

theorem World.Blank.sound {w : World} (hb : w.Blank) : Sound w := by
  refine ⟨⟨hb.unique, hb.drawn, fun c users hm ↦ ?_⟩, fun _ ↦ ⟨fun l c users hs ↦ ?_,
    fun l c users hs ↦ ?_⟩⟩
  · rw [hb.history] at hm
    cases hm
  · have hm := hs.mem
    rw [hb.history] at hm
    cases hm
  · have hm := hs.mem
    rw [hb.history] at hm
    cases hm

/-- In a step of one call an operator gave the account the value that it asked
for, and was authorized to. -/
def Field.GrantedIn {α : Type} (F : Field α) (w w' : World) (guid : String) (value : α) : Prop :=
  ∃ call event, w'.history = (call, event) :: w.history ∧
    F.asked guid call.request = some value ∧
    ∃ targets, (call, .authorized F.permission targets) ∈ w.history ∧ guid ∈ targets

theorem Field.not_grantedIn {α : Type} {F : Field α} {w w' : World} {guid : String} {value : α}
    (h : ∀ e, w'.history.head? = some e → F.asked guid e.1.request = none) :
    ¬F.GrantedIn w w' guid value := by
  intro ⟨call, event, hh, hask, _⟩
  have hn := h (call, event) (by rw [hh, List.head?_cons])
  rw [hn] at hask
  cases hask

section Runs

variable {platform : Platform} {w₀ : World} {cfg cfg' : Config Call Command Reply World}

theorem verified_reachable (hb : w₀.Blank)
    (hr : (machine platform).Run (Machine.idle w₀) cfg) : (logic platform).Verified cfg :=
  (Logic.verified_idle hb.sound).run (admissible platform) hr

/-- As long as every save is prompt, the fields that operators control change
only as an authorized operator asks. -/
theorem administered (hb : w₀.Blank) (hr : (machine platform).Run (Machine.idle w₀) cfg)
    (hs : (machine platform).Step cfg cfg') (hl : Lawful prompt cfg'.world.history)
    {u u' : User} (hm : u ∈ cfg.world.users) (hm' : u' ∈ cfg'.world.users)
    (hg : u'.guid = u.guid) :
    (u.status = .disabled → u'.status = .active →
      statusField.GrantedIn cfg.world cfg'.world u.guid .active) ∧
    (u'.isEnforced ≠ u.isEnforced →
      enforceField.GrantedIn cfg.world cfg'.world u.guid u'.isEnforced) := by
  have hv := verified_reachable hb hr
  have hrows : Rows cfg.world := hv.1.1
  have hsame : cfg'.world.users = cfg.world.users → u' = u := by
    intro heq
    exact eq_of_guid hrows.unique (heq ▸ hm') hm hg
  rcases Logic.Leaves.step_cases (Q := fun _ _ ↦ True) hv hs with hw | ⟨call, c, o, hguard, hw⟩
  · rw [hsame (congrArg _ hw)]
    refine ⟨fun h h' ↦ ?_, fun h ↦ absurd rfl h⟩
    rw [h] at h'
    cases h'
  · have he : Effect call cfg.world c cfg'.world := hw ▸ exec_effect
    constructor
    · intro hd ha
      have hne : statusField.value u' ≠ statusField.value u := by
        intro heq
        have heq : u'.status = u.status := heq
        rw [hd, ha] at heq
        cases heq
      obtain ⟨hask, hauth, event, hh⟩ := Field.step_granted hrows he (fun _ hw hh _ hm _ hc hid ↦
        (allowed_of_prompt hv.1 hguard he hl hw hh hm hc hid).1) hm hm' hg hd hne
      exact ⟨call, event, hh, hask.trans (congrArg some ha), hauth⟩
    · intro hne
      obtain ⟨hask, hauth, event, hh⟩ := Field.step_granted hrows he (fun _ hw hh _ hm _ hc hid ↦
        (allowed_of_prompt hv.1 hguard he hl hw hh hm hc hid).2) hm hm' hg trivial hne
      exact ⟨call, event, hh, hask, hauth⟩

end Runs

section Sample

def samplePlatform : Platform where
  compare password hash := hash = "hash:" ++ password
  hash password _ := "hash:" ++ password
  verifyTotp secret code _ := code = secret ++ "-code"
  digest token := "digest:" ++ token
  isHttpUrl url := url.startsWith "https://"

def sampleUser (guid username : String) (status : UserStatus) : User where
  guid := guid
  username := username
  displayName := none
  email := none
  password := none
  note := none
  status := status
  isAdmin := false
  tfaSecret := none
  info := none
  thirdAuthType := none
  oidcSubject := none
  avatar := none
  userGroupGuid := none

def sampleInvitation : Invitation :=
  ⟨"i1", "t", "bob@example.com", "bob", none, none, none, some "u1", 1000, none⟩

/-- An invited account. -/
def sampleWorld (status : UserStatus) : World :=
  ⟨[sampleUser "u1" "bob" status], [sampleInvitation], [], ["u1", "i1"], []⟩

def sampleChoice (uuid text : String) : Choice := ⟨0, uuid, text, 0, true, .ok "g1", .ok ()⟩

def sampleFresh (call : Call) (w : World) : Bool := w.history.all fun e ↦ decide (e.1 ≠ call)

theorem sampleFresh_admits (call : Call) (w : World) (h : sampleFresh call w = true) :
    (machine samplePlatform).admits call w (handler samplePlatform call.request) := by
  refine ⟨fun event hm ↦ ?_, rfl⟩
  have hne := List.all_eq_true.mp h _ hm
  simp at hne

/-- The calls take turns, each with so many commands. -/
def sampleSchedule (turns : List (Call × ℕ)) (w : World) : Config Call Command Reply World :=
  (machine samplePlatform).schedule (fun call ↦ handler samplePlatform call.request) sampleFresh
    (turns.map fun t ↦ (t.1, List.replicate t.2 (sampleChoice "n1" "s"))) (Machine.idle w)

theorem sampleSchedule_run (turns : List (Call × ℕ)) (w : World) :
    (machine samplePlatform).Run (Machine.idle w) (sampleSchedule turns w) :=
  Machine.schedule_run sampleFresh_admits _

/-- The call performs one more command. -/
def sampleNext (call : Call) (cfg : Config Call Command Reply World) :
    Config Call Command Reply World :=
  (machine samplePlatform).resume call [sampleChoice "n1" "s"] cfg

theorem sampleWorld_blank (status : UserStatus) : (sampleWorld status).Blank := by
  refine ⟨by simp [uniqueColumns, sampleWorld, sampleUser], ?_, rfl⟩
  intro user hm
  rw [List.mem_singleton.mp hm]
  exact .head _

def sampleAcceptance : Call := ⟨0, .acceptInvitation ⟨"t", "secret"⟩⟩

/-- An account that is disabled when its invitation is accepted. -/
def sampleBefore : Config Call Command Reply World :=
  sampleSchedule [(sampleAcceptance, 4)] (sampleWorld .disabled)

def sampleSetup : Call := ⟨1, .setupTfa "u1" none⟩

def sampleEnforcement : Call := ⟨2, .updateUserSecurity "u1" ⟨some true, none, none⟩ "admin"⟩

/-- A user has begun to set up a second factor when an operator demands one. -/
def sampleDuring : Config Call Command Reply World :=
  sampleSchedule [(sampleSetup, 1), (sampleEnforcement, 3), (sampleSetup, 1)] (sampleWorld .active)

theorem sampleNext_step (call : Call) (cfg : Config Call Command Reply World)
    (h : ((cfg.threads call).bind Prog.next).isSome = true) :
    (machine samplePlatform).Step cfg (sampleNext call cfg) :=
  Machine.resume_step _ h

/-- An acceptance activates a disabled account, and a user's change of `info`
takes back what an operator has demanded since. -/
theorem administered_fields_overwritten :
    (∃ w₀ cfg cfg' u u', w₀.Blank ∧ (machine samplePlatform).Run (Machine.idle w₀) cfg ∧
      (machine samplePlatform).Step cfg cfg' ∧ u ∈ cfg.world.users ∧ u' ∈ cfg'.world.users ∧
      u'.guid = u.guid ∧ u.status = .disabled ∧ u'.status = .active ∧
      ¬statusField.GrantedIn cfg.world cfg'.world u.guid .active) ∧
    ∃ w₀ cfg cfg' u u', w₀.Blank ∧ (machine samplePlatform).Run (Machine.idle w₀) cfg ∧
      (machine samplePlatform).Step cfg cfg' ∧ u ∈ cfg.world.users ∧ u' ∈ cfg'.world.users ∧
      u'.guid = u.guid ∧ u'.isEnforced ≠ u.isEnforced ∧
      ¬enforceField.GrantedIn cfg.world cfg'.world u.guid u'.isEnforced := by
  constructor
  · have hu : sampleUser "u1" "bob" .disabled ∈ sampleBefore.world.users := by decide +kernel
    have hu' : { sampleUser "u1" "bob" .active with password := some "hash:secret" } ∈
        (sampleNext sampleAcceptance sampleBefore).world.users := by decide +kernel
    have hn : ∀ e, (sampleNext sampleAcceptance sampleBefore).world.history.head? = some e →
        statusField.asked "u1" e.1.request = none := by decide +kernel
    exact ⟨_, sampleBefore, _, _, _, sampleWorld_blank .disabled, sampleSchedule_run _ _,
      sampleNext_step _ _ (by decide +kernel), hu, hu', rfl, rfl, rfl, Field.not_grantedIn hn⟩
  · have hu : { sampleUser "u1" "bob" .active with info := some ⟨some false, some false,
        some ⟨some true, none, none⟩⟩ } ∈ sampleDuring.world.users := by decide +kernel
    have hu' : { sampleUser "u1" "bob" .active with info := some ⟨some false, some false,
        some ⟨none, some "s", none⟩⟩ } ∈ (sampleNext sampleSetup sampleDuring).world.users := by
      decide +kernel
    have hn : ∀ e, (sampleNext sampleSetup sampleDuring).world.history.head? = some e →
        enforceField.asked "u1" e.1.request = none := by decide +kernel
    exact ⟨_, sampleDuring, _, _, _, sampleWorld_blank .active, sampleSchedule_run _ _,
      sampleNext_step _ _ (by decide +kernel), hu, hu', rfl, nofun, Field.not_grantedIn hn⟩

def sampleEnabling : Call := ⟨3, .updateUser "u1" ⟨none, none, none, none, some .active, none, none⟩
  "admin"⟩

def sampleEnabled : Config Call Command Reply World :=
  sampleSchedule [(sampleEnabling, 2)] (sampleWorld .disabled)

theorem sample_administered : statusField.GrantedIn sampleEnabled.world
    (sampleNext sampleEnabling sampleEnabled).world "u1" .active := by
  have hu : sampleUser "u1" "bob" .disabled ∈ sampleEnabled.world.users := by decide +kernel
  have hu' : sampleUser "u1" "bob" .active ∈
      (sampleNext sampleEnabling sampleEnabled).world.users := by decide +kernel
  have hl : ∀ e ∈ (sampleNext sampleEnabling sampleEnabled).world.history,
      (∀ dto, e.1.request ≠ .acceptInvitation dto) ∧
        ∀ change ∈ e.2.changes, change.saved.info = change.loaded.info := by
    have hall : ∀ e ∈ (sampleNext sampleEnabling sampleEnabled).world.history,
        e.1 = sampleEnabling ∧ ∀ change ∈ e.2.changes, change.saved.info = change.loaded.info := by
      decide +kernel
    intro e hm
    refine ⟨fun dto hr ↦ ?_, (hall e hm).2⟩
    rw [(hall e hm).1] at hr
    cases hr
  refine (administered (sampleWorld_blank .disabled) (sampleSchedule_run _ _)
    (sampleNext_step _ _ (by decide +kernel)) (fun e earlier hs change hc ↦ ?_) hu hu' rfl).1 rfl rfl
  obtain ⟨hacc, hinfo⟩ := hl e (mem_of_suffix hs)
  exact ⟨fun ⟨dto, hr⟩ ↦ absurd hr (hacc dto), fun _ hne ↦ absurd (hinfo change hc) hne⟩

end Sample

end RustdeskConsole.Accounts
