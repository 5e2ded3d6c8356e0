import RustdeskConsole.Effects.History
import RustdeskConsole.Accounts.Service

namespace RustdeskConsole.Accounts

open Auth (UserStatus)
open Effects

abbrev History := List (Call × Event)

/-- Events that leave the users table alone. -/
def Event.silent : Event → Bool
  | .created _ | .wrote _ | .resetUsed .. => false
  | _ => true

theorem Event.changes_of_silent {event : Event} (h : event.silent = true) : event.changes = [] := by
  cases event <;> first | rfl | cases h

/-- What the commands that write users write to them. -/
inductive Writes (w : World) : Command → Event → Prop
  | save {changes} : Writes w (.saveUsers changes) (.wrote changes)
  | reset {record usedAt change} :
      Writes w (.commitReset record usedAt change) (.resetUsed record change)
  | status {guids status} : Writes w (.updateStatus guids status)
      (.wrote ((w.users.filter (·.guid ∈ guids)).map fun row ↦ ⟨row, { row with status := status }⟩))
  | avatar {guid avatar} : Writes w (.backfillAvatar guid avatar)
      (.wrote ((w.users.filter fun row ↦ row.guid = guid && row.avatar.isNone).map fun row ↦
        ⟨row, { row with avatar := some avatar }⟩))

/-- All that one command does to the users and the history. -/
inductive Effect (call : Call) (w : World) (c : Command) (w' : World) : Prop
  | quiet : w'.users = w.users → w.drawn ⊆ w'.drawn → w'.history = w.history → Effect call w c w'
  | noted (event : Event) : event.silent = true →
      (∀ users, event = .read users → users ⊆ w.users) →
      w'.users = w.users → w'.drawn = w.drawn → w'.history = (call, event) :: w.history →
      Effect call w c w'
  | created (user : User) : user.guid ∉ w.drawn → w'.users = user :: w.users →
      uniqueColumns w'.users → w'.drawn = user.guid :: w.drawn →
      w'.history = (call, .created user) :: w.history →
      (∃ draft, c = .insertUser draft ∧ user = { draft with guid := user.guid }) →
      Effect call w c w'
  | wrote (event : Event) : Writes w c event →
      w'.users = w.users.map (applyChanges event.changes) → uniqueColumns w'.users →
      w'.drawn = w.drawn → w'.history = (call, event) :: w.history → Effect call w c w'

section

variable {platform : Platform} {call : Call} {c : Command} {o : Choice} {w : World}

theorem noted_read {users : List User} (hs : users ⊆ w.users) :
    Effect call w c (w.record call (.read users)) :=
  .noted (.read users) rfl (fun _ he ↦ Event.read.inj he ▸ hs) rfl rfl rfl

theorem toList_find?_subset {p : User → Bool} : (w.users.find? p).toList ⊆ w.users := by
  intro user hm
  exact List.mem_of_find?_eq_some (Option.mem_toList.mp hm)

theorem still : Effect call w c w := .quiet rfl (List.Subset.refl _) rfl

/-- A statement takes effect if it keeps the unique indexes. -/
theorem writeUsers_cases (w : World) (call : Call) (users : List User) (event : Event) :
    (w.writeUsers call users event = ({ w with users := users }.record call event, .ok ()) ∧
      uniqueColumns users) ∨
    w.writeUsers call users event = (w, .error .uniqueViolation) := by
  rw [World.writeUsers]
  split
  · rename_i hu
    exact .inl ⟨rfl, hu⟩
  · exact .inr rfl

theorem saveUsers_effect {event : Event} (hw : Writes w c event) :
    Effect call w c (w.saveUsers call event).1 := by
  rw [World.saveUsers]
  rcases writeUsers_cases w call (w.users.map (applyChanges event.changes)) event with
    ⟨heq, hu⟩ | heq
  · rw [heq]
    exact .wrote event hw rfl hu rfl rfl
  · rw [heq]
    exact still

theorem updateStatus_effect {guids : List String} {status : UserStatus} :
    Effect call w (.updateStatus guids status) (w.updateStatus call guids status).1 := by
  rw [World.updateStatus]
  split
  · exact saveUsers_effect .status
  · exact still

theorem backfillAvatar_effect {guid avatar : String} :
    Effect call w (.backfillAvatar guid avatar) (w.backfillAvatar call guid avatar).1 := by
  rw [World.backfillAvatar]
  split
  · exact still
  · exact saveUsers_effect .avatar

theorem commitReset_effect {record : Auth.PasswordResetToken} {usedAt : ℕ} {change : Change} :
    Effect call w (.commitReset record usedAt change)
      (w.commitReset call record usedAt change).1 := by
  rw [World.commitReset]
  split
  · have hw : Writes w (.commitReset record usedAt change) (.resetUsed record change) := .reset
    have he : Effect call w _ (w.saveUsers call (.resetUsed record change)).1 := saveUsers_effect hw
    rcases hs : w.saveUsers call (.resetUsed record change) with ⟨w', _ | ⟨⟨⟩⟩⟩
    · rwa [hs] at he
    · rw [hs] at he
      cases he with
      | quiet hu hd hh => exact .quiet hu hd hh
      | noted event hc hr hu hd hh => exact .noted event hc hr hu hd hh
      | created user hf hu hq hd hh hc => exact .created user hf hu hq hd hh hc
      | wrote event hw hu hq hd hh => exact .wrote event hw hu hq hd hh
  · exact still

theorem insertUser_effect {draft : User} {uuid : String} :
    Effect call w (.insertUser draft) (w.insertUser call draft uuid).1 := by
  rw [World.insertUser]
  split
  · exact still
  · rename_i hf
    rcases writeUsers_cases { w with drawn := uuid :: w.drawn } call
      ({ draft with guid := uuid } :: w.users) (.created { draft with guid := uuid }) with
      ⟨heq, hu⟩ | heq
    · simp only [heq]
      exact .created { draft with guid := uuid } hf rfl hu rfl rfl ⟨draft, rfl, rfl⟩
    · simp only [heq]
      exact .quiet rfl (List.subset_cons_self _ _) rfl

theorem exec_effect : Effect call w c (exec platform call c o w).1 := by
  cases c with
  | findUser | findUserBySubject => exact noted_read toList_find?_subset
  | findUsers => exact noted_read (List.filter_subset_self _)
  | insertUser => exact insertUser_effect
  | saveUsers changes => exact saveUsers_effect .save
  | updateStatus => exact updateStatus_effect
  | backfillAvatar => exact backfillAvatar_effect
  | commitReset => exact commitReset_effect
  | findUnusedUsername =>
    rw [exec]
    split <;> exact still
  | authorize actorGuid permission userGuids =>
    rw [exec]
    split
    · exact .noted (.authorized permission userGuids) rfl nofun rfl rfl rfl
    · exact still
  | findInvitation token =>
    rw [exec]
    split
    · rename_i invitation _
      exact .noted (.invitationRead invitation) rfl nofun rfl rfl rfl
    · exact still
  | insertInvitation =>
    rw [exec, World.insertInvitation]
    split
    · exact still
    · exact .quiet rfl (List.subset_cons_self _ _) rfl
  | insertResetToken =>
    rw [exec, World.insertResetToken]
    split
    · exact still
    · exact .quiet rfl (List.subset_cons_self _ _) rfl
  | saveInvitation invitation usedAt =>
    exact .noted (.invitationUsed invitation) rfl nofun rfl rfl rfl
  | deleteResetTokens => exact .quiet rfl (List.Subset.refl _) rfl
  | now | randomText | findUserByUsername | findUserByEmail | findUserByUsernameOrEmail
  | countCredentials | resolveUserGroupGuid | hash | compare | verifyTfaCode | storeAvatar
  | getActiveSmtpConfig | sendInvitation | findResetToken => exact still

theorem Effect.history {w' : World} (he : Effect call w c w') :
    w'.history = w.history ∨ ∃ event, w'.history = (call, event) :: w.history := by
  cases he with
  | quiet _ _ hh => exact .inl hh
  | noted event _ _ _ _ hh | created _ _ _ _ _ hh | wrote event _ _ _ _ hh => exact .inr ⟨_, hh⟩

theorem Effect.grows {w' : World} (he : Effect call w c w') : w.history <:+ w'.history := by
  rcases he.history with hh | ⟨event, hh⟩
  · rw [hh]
  · rw [hh]
    exact List.suffix_cons ..

end

section Rows

theorem applyChanges_guid (changes : List Change) (row : User) :
    (applyChanges changes row).guid = row.guid := by
  rw [applyChanges]
  split <;> rfl

/-- The rows of a table are told apart by their guids. -/
theorem eq_of_guid {users : List User} (hu : uniqueColumns users) {u u' : User} (hm : u ∈ users)
    (hm' : u' ∈ users) (hg : u.guid = u'.guid) : u = u' :=
  List.inj_on_of_nodup_map hu.1 hm hm' hg

/-- A row after a write is what the write made of the row before it. -/
theorem applyChanges_of_guid {users : List User} (hu : uniqueColumns users) {changes : List Change}
    {u u' : User} (hm : u ∈ users) (hm' : u' ∈ users.map (applyChanges changes))
    (hg : u'.guid = u.guid) : u' = applyChanges changes u := by
  obtain ⟨u₀, hm₀, rfl⟩ := List.mem_map.mp hm'
  rw [applyChanges_guid] at hg
  rw [eq_of_guid hu hm₀ hm hg]

end Rows

end RustdeskConsole.Accounts
