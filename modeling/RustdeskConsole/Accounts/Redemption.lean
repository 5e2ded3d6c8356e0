import RustdeskConsole.Accounts.Administered
import RustdeskConsole.Auth.Soundness

namespace RustdeskConsole.Accounts

open Auth (PasswordResetToken)
open Effects Effects.History

/-- A kind of single-use credentials: its rows, with whether they are unused,
and the credential that an event uses up. -/
structure Kind where
  rows : World → List (String × Bool)
  used : Event → Option String

def invitationKind : Kind where
  rows w := w.invitations.map fun row ↦ (row.guid, row.usedAt.isNone)
  used
    | .invitationUsed invitation => some invitation.guid
    | _ => none

def resetKind : Kind where
  rows w := w.resetTokens.map fun row ↦ (row.guid, row.usedAt.isNone)
  used
    | .resetUsed record _ => some record.guid
    | _ => none

namespace Kind

variable (K : Kind)

def Uses (guid : String) (e : Call × Event) : Prop := K.used e.2 = some guid

/-- What a command does to the credentials of one kind. -/
inductive Effect (call : Call) (w w' : World) : Prop
  | kept : K.rows w' ⊆ K.rows w → w.drawn ⊆ w'.drawn →
      (w'.history = w.history ∨
        ∃ event, w'.history = (call, event) :: w.history ∧ K.used event = none) →
      Effect call w w'
  | issued (guid : String) (unused : Bool) : guid ∉ w.drawn → w'.drawn = guid :: w.drawn →
      K.rows w' = (guid, unused) :: K.rows w → w'.history = w.history → Effect call w w'
  | spent (guid : String) (event : Event) : guid ∈ w.drawn → w'.drawn = w.drawn →
      K.used event = some guid → w'.history = (call, event) :: w.history →
      (∀ row ∈ K.rows w', (row ∈ K.rows w ∧ row ≠ (guid, true)) ∨
        row.2 = false ∧ ∃ b, (row.1, b) ∈ K.rows w) → Effect call w w'

/-- An unused credential has never been used. -/
structure Intact (w : World) : Prop where
  drawn : ∀ row ∈ K.rows w, row.1 ∈ w.drawn
  used : ∀ e ∈ w.history, ∀ guid, K.Uses guid e → guid ∈ w.drawn
  unused : ∀ guid, (guid, true) ∈ K.rows w → ∀ e ∈ w.history, ¬K.Uses guid e

variable {K} {call : Call} {w w' : World}

theorem Intact.step (hi : K.Intact w) (he : K.Effect call w w') : K.Intact w' := by
  cases he with
  | kept hr hd hh =>
    have hmem : ∀ e ∈ w'.history, ∀ guid, K.Uses guid e → e ∈ w.history := by
      intro e hm guid hu
      rcases hh with hh | ⟨event, hh, hn⟩
      · exact hh ▸ hm
      · rw [hh] at hm
        rcases List.mem_cons.mp hm with rfl | hm
        · rw [Uses, hn] at hu
          cases hu
        · exact hm
    refine ⟨fun row hm ↦ hd (hi.drawn row (hr hm)), fun e hm guid hu ↦ ?_, fun guid hm e he hu ↦ ?_⟩
    · exact hd (hi.used e (hmem e hm guid hu) guid hu)
    · exact hi.unused guid (hr hm) e (hmem e he guid hu) hu
  | issued guid unused hf hd hr hh =>
    refine ⟨fun row hm ↦ ?_, fun e hm g hu ↦ ?_, fun g hm e he hu ↦ ?_⟩
    · rw [hr] at hm
      rw [hd]
      rcases List.mem_cons.mp hm with rfl | hm
      · exact .head _
      · exact .tail _ (hi.drawn row hm)
    · rw [hd]
      exact .tail _ (hi.used e (hh ▸ hm) g hu)
    · rw [hr] at hm
      rw [hh] at he
      rcases List.mem_cons.mp hm with heq | hm
      · rw [(Prod.mk.inj heq).1] at hu
        exact hf (hi.used e he guid hu)
      · exact hi.unused g hm e he hu
  | spent guid event hg hd hu hh hr =>
    refine ⟨fun row hm ↦ ?_, fun e hm g hg' ↦ ?_, fun g hm e he hg' ↦ ?_⟩
    · rw [hd]
      rcases hr row hm with ⟨hm, -⟩ | ⟨-, b, hb⟩
      · exact hi.drawn row hm
      · exact hi.drawn (row.1, b) hb
    · rw [hd]
      rw [hh] at hm
      rcases List.mem_cons.mp hm with rfl | hm
      · rw [Uses, hu] at hg'
        exact Option.some.inj hg' ▸ hg
      · exact hi.used e hm g hg'
    · rw [hh] at he
      rcases hr _ hm with ⟨hm, hne⟩ | ⟨hf, -⟩
      · rcases List.mem_cons.mp he with rfl | he
        · rw [Uses, hu] at hg'
          exact hne (Option.some.inj hg' ▸ rfl)
        · exact hi.unused g hm e he hg'
      · cases hf

end Kind

/-- Events that are about no invitation and no reset token. -/
def Event.unrelated : Event → Bool
  | .invitationRead _ | .invitationUsed _ | .resetUsed .. => false
  | _ => true

/-- All that one command does to the invitations and the reset tokens. -/
inductive Turn (call : Call) (w : World) (c : Command) (w' : World) : Prop
  | idle : w'.invitations = w.invitations → w'.resetTokens ⊆ w.resetTokens → w.drawn ⊆ w'.drawn →
      (w'.history = w.history ∨
        ∃ event, w'.history = (call, event) :: w.history ∧ event.unrelated = true) →
      Turn call w c w'
  | read (invitation : Invitation) : invitation ∈ w.invitations →
      w' = w.record call (.invitationRead invitation) → Turn call w c w'
  | invited (invitation : Invitation) : invitation.guid ∉ w.drawn →
      w' = { w with
        drawn := invitation.guid :: w.drawn
        invitations := invitation :: w.invitations } → Turn call w c w'
  | accepted (invitation : Invitation) (usedAt : ℕ) : c = .saveInvitation invitation usedAt →
      w' = w.saveInvitation call invitation usedAt → Turn call w c w'
  | issued (record : PasswordResetToken) : record.guid ∉ w.drawn →
      w' = { w with
        drawn := record.guid :: w.drawn
        resetTokens := record :: w.resetTokens } → Turn call w c w'
  | reset (record : PasswordResetToken) (usedAt : ℕ) (change : Change) :
      (∃ row ∈ w.resetTokens, World.unused record row = true) → w'.invitations = w.invitations →
      w'.resetTokens = w.resetTokens.map (World.mark record usedAt) → w'.drawn = w.drawn →
      w'.history = (call, .resetUsed record change) :: w.history → Turn call w c w'

section Exec

variable {platform : Platform} {call : Call} {c : Command} {o : Choice} {w : World}

theorem turn_still : Turn call w c w := .idle rfl (List.Subset.refl _) (List.Subset.refl _) (.inl rfl)

theorem turn_record {event : Event} (he : event.unrelated = true) :
    Turn call w c (w.record call event) :=
  .idle rfl (List.Subset.refl _) (List.Subset.refl _) (.inr ⟨event, rfl, he⟩)

theorem turn_saveUsers {event : Event} (he : event.unrelated = true) :
    Turn call w c (w.saveUsers call event).1 := by
  rw [World.saveUsers]
  rcases writeUsers_cases w call (w.users.map (applyChanges event.changes)) event with
    ⟨heq, -⟩ | heq
  · rw [heq]
    exact .idle rfl (List.Subset.refl _) (List.Subset.refl _) (.inr ⟨event, rfl, he⟩)
  · rw [heq]
    exact turn_still

theorem turn_insertUser {draft : User} {uuid : String} :
    Turn call w c (w.insertUser call draft uuid).1 := by
  rw [World.insertUser]
  split
  · exact turn_still
  · rcases writeUsers_cases { w with drawn := uuid :: w.drawn } call
      ({ draft with guid := uuid } :: w.users) (.created { draft with guid := uuid }) with
      ⟨heq, -⟩ | heq
    · simp only [heq]
      exact .idle rfl (List.Subset.refl _) (List.subset_cons_self _ _) (.inr ⟨_, rfl, rfl⟩)
    · simp only [heq]
      exact .idle rfl (List.Subset.refl _) (List.subset_cons_self _ _) (.inl rfl)

theorem turn_commitReset {record : PasswordResetToken} {usedAt : ℕ} {change : Change} :
    Turn call w c (w.commitReset call record usedAt change).1 := by
  rw [World.commitReset]
  split
  · rename_i hone
    have hrow : ∃ row ∈ w.resetTokens, World.unused record row = true := by
      apply List.countP_pos_iff.mp
      omega
    rw [World.saveUsers]
    rcases writeUsers_cases w call
      (w.users.map (applyChanges (Event.resetUsed record change).changes))
      (.resetUsed record change) with ⟨heq, -⟩ | heq
    · rw [heq]
      exact .reset record usedAt change hrow rfl rfl rfl rfl
    · rw [heq]
      exact turn_still
  · exact turn_still

theorem exec_turn : Turn call w c (exec platform call c o w).1 := by
  cases c with
  | findUser | findUserBySubject | findUsers => exact turn_record rfl
  | insertUser => exact turn_insertUser
  | saveUsers changes => exact turn_saveUsers rfl
  | commitReset => exact turn_commitReset
  | updateStatus =>
    rw [exec, World.updateStatus]
    split
    · exact turn_saveUsers rfl
    · exact turn_still
  | backfillAvatar guid avatar =>
    rw [exec, World.backfillAvatar]
    split
    · exact turn_still
    · exact turn_saveUsers rfl
  | findUnusedUsername =>
    rw [exec]
    split <;> exact turn_still
  | authorize =>
    rw [exec]
    split
    · exact turn_record rfl
    · exact turn_still
  | findInvitation token =>
    rw [exec]
    split
    · rename_i invitation hf
      exact .read invitation (List.mem_of_find?_eq_some hf) rfl
    · exact turn_still
  | insertInvitation draft =>
    rw [exec, World.insertInvitation]
    split
    · exact turn_still
    · rename_i hf
      exact .invited { draft with guid := o.uuid, token := o.text } hf rfl
  | insertResetToken userGuid expiresAt =>
    rw [exec, World.insertResetToken]
    split
    · exact turn_still
    · rename_i hf
      exact .issued ⟨o.uuid, platform.digest o.text, userGuid, expiresAt, none⟩ hf rfl
  | saveInvitation invitation usedAt => exact .accepted invitation usedAt rfl rfl
  | deleteResetTokens =>
    exact .idle rfl (List.filter_subset_self _) (List.Subset.refl _) (.inl rfl)
  | now | randomText | findUserByUsername | findUserByEmail | findUserByUsernameOrEmail
  | countCredentials | resolveUserGroupGuid | hash | compare | verifyTfaCode | storeAvatar
  | getActiveSmtpConfig | sendInvitation | findResetToken => exact turn_still

end Exec

section Kinds

variable {call : Call} {c : Command} {w w' : World}

theorem used_of_unrelated {event : Event} (he : event.unrelated = true) :
    invitationKind.used event = none ∧ resetKind.used event = none := by
  cases event <;> first | exact ⟨rfl, rfl⟩ | cases he

theorem Turn.resets (ht : Turn call w c w') (hi : resetKind.Intact w) :
    resetKind.Effect call w w' := by
  cases ht with
  | idle hi hr hd hh =>
    refine .kept (List.map_subset _ hr) hd (hh.imp id ?_)
    intro ⟨event, hh, he⟩
    exact ⟨event, hh, (used_of_unrelated he).2⟩
  | read invitation hm hw =>
    subst hw
    exact .kept (List.Subset.refl _) (List.Subset.refl _) (.inr ⟨_, rfl, rfl⟩)
  | invited invitation hf hw =>
    subst hw
    exact .kept (List.Subset.refl _) (List.subset_cons_self _ _) (.inl rfl)
  | accepted invitation usedAt hc hw =>
    subst hw
    exact .kept (List.Subset.refl _) (List.Subset.refl _) (.inr ⟨_, rfl, rfl⟩)
  | issued record hf hw =>
    subst hw
    exact .issued record.guid record.usedAt.isNone hf rfl rfl rfl
  | reset record usedAt change hrow hi' hr hd hh =>
    obtain ⟨row, hm, hu⟩ := hrow
    have hguid : row.guid = record.guid := of_decide_eq_true (Bool.and_eq_true_iff.mp hu).1
    have hdrawn : row.guid ∈ w.drawn :=
      hi.drawn (row.guid, row.usedAt.isNone) (List.mem_map.mpr ⟨row, hm, rfl⟩)
    refine .spent record.guid _ (hguid ▸ hdrawn) hd rfl hh fun pair hp ↦ ?_
    change pair ∈ w'.resetTokens.map _ at hp
    rw [hr, List.map_map] at hp
    obtain ⟨r, hmr, rfl⟩ := List.mem_map.mp hp
    have hin : (r.guid, r.usedAt.isNone) ∈ resetKind.rows w := List.mem_map.mpr ⟨r, hmr, rfl⟩
    rw [Function.comp_apply, World.mark]
    split
    · exact .inr ⟨rfl, _, hin⟩
    · rename_i hnot
      refine .inl ⟨hin, fun heq ↦ hnot ?_⟩
      obtain ⟨hg, hn⟩ := Prod.mk.inj heq
      rw [World.unused, hg, hn]
      simp

theorem Turn.invitations (ht : Turn call w c w')
    (hd : ∀ invitation usedAt, c = .saveInvitation invitation usedAt → invitation.guid ∈ w.drawn) :
    invitationKind.Effect call w w' := by
  cases ht with
  | idle hi hr hd hh =>
    have hsub : w'.invitations ⊆ w.invitations := hi ▸ List.Subset.refl _
    refine .kept (List.map_subset _ hsub) hd (hh.imp id ?_)
    intro ⟨event, hh, he⟩
    exact ⟨event, hh, (used_of_unrelated he).1⟩
  | read invitation hm hw =>
    subst hw
    exact .kept (List.Subset.refl _) (List.Subset.refl _) (.inr ⟨_, rfl, rfl⟩)
  | invited invitation hf hw =>
    subst hw
    exact .issued invitation.guid invitation.usedAt.isNone hf rfl rfl rfl
  | accepted invitation usedAt hc hw =>
    subst hw
    refine .spent invitation.guid _ (hd invitation usedAt hc) rfl rfl rfl fun pair hp ↦ ?_
    obtain ⟨row, hm, rfl⟩ := List.mem_map.mp hp
    obtain ⟨r, hmr, rfl⟩ := List.mem_map.mp hm
    have hin : (r.guid, r.usedAt.isNone) ∈ invitationKind.rows w := List.mem_map.mpr ⟨r, hmr, rfl⟩
    dsimp only
    split
    · exact .inr ⟨rfl, _, hin⟩
    · rename_i hne
      exact .inl ⟨hin, fun heq ↦ hne (Prod.mk.inj heq).1⟩
  | issued record hf hw =>
    subst hw
    exact .kept (List.Subset.refl _) (List.subset_cons_self _ _) (.inl rfl)
  | reset record usedAt change hrow hi' hr hd hh =>
    have hsub : w'.invitations ⊆ w.invitations := hi' ▸ List.Subset.refl _
    exact .kept (List.map_subset _ hsub) (hd ▸ List.Subset.refl _) (.inr ⟨_, hh, rfl⟩)

end Kinds

/-- No other acceptance has used an invitation up between the read and the save
of one that does. -/
def apart (h : History) (e : Call × Event) : Prop :=
  ∀ invitation, e.2 = .invitationUsed invitation → ∀ later,
    Since (e.1, .invitationRead invitation) later h →
      ∀ e' ∈ later, ¬invitationKind.Uses invitation.guid e'

/-- What the credentials and the history say of each other. -/
structure Redeemed (w : World) : Prop where
  invitations : invitationKind.Intact w
  resets : resetKind.Intact w
  drawn : ∀ c invitation, (c, .invitationRead invitation) ∈ w.history → invitation.guid ∈ w.drawn
  reads : ∀ c invitation earlier, (c, .invitationRead invitation) :: earlier <:+ w.history →
    invitation.usedAt = none → ∀ e ∈ earlier, ¬invitationKind.Uses invitation.guid e
  resetOnce : ∀ guid, AtMostOnce (resetKind.Uses guid) w.history
  invitationOnce : Lawful apart w.history →
    ∀ guid, AtMostOnce (invitationKind.Uses guid) w.history

section Step

variable {call : Call} {c : Command} {w w' : World}

/-- A reset token that is used up was unused. -/
theorem Turn.resetOnce (ht : Turn call w c w') (hi : resetKind.Intact w)
    (ho : ∀ guid, AtMostOnce (resetKind.Uses guid) w.history) (guid : String) :
    AtMostOnce (resetKind.Uses guid) w'.history := by
  have hquiet : ∀ event, resetKind.used event = none →
      AtMostOnce (resetKind.Uses guid) ((call, event) :: w.history) := by
    intro event hn
    refine unfollowed_cons.mpr ⟨fun hu ↦ ?_, ho guid⟩
    rw [Kind.Uses, hn] at hu
    cases hu
  cases ht with
  | idle _ _ _ hh =>
    rcases hh with hh | ⟨event, hh, he⟩
    · exact hh ▸ ho guid
    · exact hh ▸ hquiet event (used_of_unrelated he).2
  | read invitation hm hw => exact hw ▸ hquiet _ rfl
  | invited invitation hf hw => exact hw ▸ ho guid
  | accepted invitation usedAt hc hw => exact hw ▸ hquiet _ rfl
  | issued record hf hw => exact hw ▸ ho guid
  | reset record usedAt change hrow _ _ _ hh =>
    obtain ⟨row, hm, hu⟩ := hrow
    obtain ⟨hg, hn⟩ := Bool.and_eq_true_iff.mp hu
    have hg : row.guid = record.guid := of_decide_eq_true hg
    rw [hh]
    refine unfollowed_cons.mpr ⟨fun hu e he ↦ ?_, ho guid⟩
    have heq : record.guid = guid := Option.some.inj hu
    rw [← heq, ← hg]
    refine hi.unused row.guid ?_ e he
    rw [← hn]
    exact List.mem_map.mpr ⟨row, hm, rfl⟩

/-- An invitation that is used up was unused when it was read, and has not been
used since. -/
theorem Turn.invitationOnce (ht : Turn call w c w') (hr : Redeemed w) (hg : guard call c w)
    (hl : Lawful apart w'.history) (guid : String) :
    AtMostOnce (invitationKind.Uses guid) w'.history := by
  have hquiet : ∀ event, invitationKind.used event = none →
      w'.history = (call, event) :: w.history →
      AtMostOnce (invitationKind.Uses guid) w'.history := by
    intro event hn hh
    rw [hh] at hl ⊢
    refine unfollowed_cons.mpr ⟨fun hu ↦ ?_, hr.invitationOnce (lawful_cons.mp hl).2 guid⟩
    rw [Kind.Uses, hn] at hu
    cases hu
  have hsame : w'.history = w.history → AtMostOnce (invitationKind.Uses guid) w'.history := by
    intro hh
    rw [hh] at hl ⊢
    exact hr.invitationOnce hl guid
  cases ht with
  | idle _ _ _ hh =>
    rcases hh with hh | ⟨event, hh, he⟩
    · exact hsame hh
    · exact hquiet event (used_of_unrelated he).1 hh
  | read invitation hm hw => exact hquiet (.invitationRead invitation) rfl (by rw [hw]; rfl)
  | invited invitation hf hw => exact hsame (by rw [hw])
  | issued record hf hw => exact hsame (by rw [hw])
  | reset record usedAt change _ _ _ _ hh => exact hquiet _ rfl hh
  | accepted invitation usedAt hc hw =>
    subst hc hw
    obtain ⟨hread, hunused⟩ := hg
    obtain ⟨hap, hl⟩ := lawful_cons.mp hl
    refine unfollowed_cons.mpr ⟨fun hu e he ↦ ?_, hr.invitationOnce hl guid⟩
    have heq : invitation.guid = guid := Option.some.inj hu
    rw [← heq]
    obtain ⟨later, earlier, hh⟩ := exists_since hread
    have he : e ∈ w.history := he
    rw [hh] at he
    rcases List.mem_append.mp he with he | he
    · exact hap invitation rfl later ⟨earlier, hh⟩ e he
    · rcases List.mem_cons.mp he with rfl | he
      · exact nofun
      · exact hr.reads call invitation earlier ⟨later, hh.symm⟩ hunused e he

theorem Redeemed.step (hr : Redeemed w) (hg : guard call c w) (ht : Turn call w c w') :
    Redeemed w' := by
  have hd : ∀ invitation usedAt, c = .saveInvitation invitation usedAt →
      invitation.guid ∈ w.drawn := by
    intro invitation usedAt hc
    subst hc
    exact hr.drawn call invitation hg.1
  have hgrow : w.drawn ⊆ w'.drawn := by
    cases ht with
    | idle _ _ hd => exact hd
    | read _ _ hw | accepted _ _ _ hw => exact hw ▸ List.Subset.refl _
    | invited _ _ hw | issued _ _ hw => exact hw ▸ List.subset_cons_self _ _
    | reset _ _ _ _ _ _ hd => exact hd ▸ List.Subset.refl _
  have hnew : ∀ c' invitation earlier,
      (c', .invitationRead invitation) :: earlier <:+ w'.history →
      (c', .invitationRead invitation) :: earlier <:+ w.history ∨
        invitation ∈ w.invitations ∧ earlier = w.history := by
    intro c' invitation earlier hs
    have hold : ∀ event, w'.history = (call, event) :: w.history →
        event ≠ .invitationRead invitation →
        (c', .invitationRead invitation) :: earlier <:+ w.history := by
      intro event hh hne
      rw [hh] at hs
      rcases List.suffix_cons_iff.mp hs with heq | hs
      · exact absurd (Prod.mk.inj (List.cons_eq_cons.mp heq).1).2.symm hne
      · exact hs
    cases ht with
    | idle _ _ _ hh =>
      rcases hh with hh | ⟨event, hh, he⟩
      · exact .inl (hh ▸ hs)
      · refine .inl (hold event hh fun heq ↦ ?_)
        rw [heq] at he
        cases he
    | read inv hm hw =>
      subst hw
      rcases List.suffix_cons_iff.mp hs with heq | hs
      · obtain ⟨h₁, h₂⟩ := List.cons_eq_cons.mp heq
        have heq := Event.invitationRead.inj (Prod.mk.inj h₁).2
        exact .inr ⟨heq ▸ hm, h₂⟩
      · exact .inl hs
    | invited _ _ hw | issued _ _ hw =>
      subst hw
      exact .inl hs
    | accepted inv usedAt hc hw => exact .inl (hold (.invitationUsed inv) (by rw [hw]; rfl) nofun)
    | reset _ _ _ _ _ _ _ hh => exact .inl (hold _ hh nofun)
  refine ⟨hr.invitations.step (ht.invitations hd), hr.resets.step (ht.resets hr.resets),
    fun c' invitation hm ↦ ?_, fun c' invitation earlier hs hn ↦ ?_,
    ht.resetOnce hr.resets hr.resetOnce, ht.invitationOnce hr hg⟩
  · obtain ⟨earlier, hs⟩ := exists_suffix_of_mem hm
    rcases hnew c' invitation earlier hs with hs | ⟨hin, -⟩
    · exact hgrow (hr.drawn c' invitation (mem_of_suffix hs))
    · refine hgrow (hr.invitations.drawn (invitation.guid, invitation.usedAt.isNone) ?_)
      exact List.mem_map.mpr ⟨invitation, hin, rfl⟩
  · rcases hnew c' invitation earlier hs with hs | ⟨hin, rfl⟩
    · exact hr.reads c' invitation earlier hs hn
    · refine hr.invitations.unused invitation.guid (List.mem_map.mpr ⟨invitation, hin, ?_⟩)
      rw [hn]
      rfl

end Step

/-- The credentials that were issued before the run. -/
def World.Issued (w : World) : Prop :=
  (∀ row ∈ w.invitations, row.guid ∈ w.drawn) ∧ ∀ row ∈ w.resetTokens, row.guid ∈ w.drawn

theorem redeemed_blank {w : World} (hb : w.Blank) (hi : w.Issued) : Redeemed w := by
  have hno : ∀ {e : Call × Event}, e ∈ w.history → False := by
    intro e hm
    rw [hb.history] at hm
    cases hm
  refine ⟨⟨fun pair hm ↦ ?_, fun e hm ↦ (hno hm).elim, fun _ _ e hm ↦ (hno hm).elim⟩,
    ⟨fun pair hm ↦ ?_, fun e hm ↦ (hno hm).elim, fun _ _ e hm ↦ (hno hm).elim⟩,
    fun _ _ hm ↦ (hno hm).elim, fun _ _ _ hs ↦ (hno (mem_of_suffix hs)).elim,
    fun _ e _ hs ↦ (hno (mem_of_suffix hs)).elim, fun _ _ e _ hs ↦ (hno (mem_of_suffix hs)).elim⟩
  · obtain ⟨row, hr, rfl⟩ := List.mem_map.mp hm
    exact hi.1 row hr
  · obtain ⟨row, hr, rfl⟩ := List.mem_map.mp hm
    exact hi.2 row hr

section Runs

variable {platform : Platform} {w₀ : World} {cfg : Config Call Command Reply World}

theorem redeemed_reachable (hb : w₀.Blank) (hi : w₀.Issued)
    (hr : (machine platform).Run (Machine.idle w₀) cfg) : Redeemed cfg.world := by
  induction hr with
  | refl => exact redeemed_blank hb hi
  | tail hrun hs ih =>
    have hv := verified_reachable hb hrun
    rcases Logic.Leaves.step_cases (Q := fun _ _ ↦ True) hv hs with hw | ⟨call, c, o, hg, hw⟩
    · exact hw ▸ ih
    · exact hw ▸ ih.step hg exec_turn

/-- Login sessions and reset tokens are redeemed at most once, and so is every
invitation unless two acceptances of it overlap. -/
theorem credentials_redeemed_once {crypto : Auth.Crypto} {users : List Auth.User}
    {credentials : List Auth.PasskeyCredential} {resetTokens : List PasswordResetToken}
    {logins : Config Auth.Call Auth.Command Auth.Reply Auth.World}
    (hlogins : (Auth.machine crypto).Run
      (Machine.idle (Auth.World.initial users credentials resetTokens)) logins)
    (hb : w₀.Blank) (hi : w₀.Issued) (hr : (machine platform).Run (Machine.idle w₀) cfg) :
    (∀ guid, AtMostOnce (Auth.UsesSession guid) logins.world.history) ∧
    (∀ guid, AtMostOnce (resetKind.Uses guid) cfg.world.history) ∧
    (Lawful apart cfg.world.history →
      ∀ guid, AtMostOnce (invitationKind.Uses guid) cfg.world.history) := by
  have hred := redeemed_reachable hb hi hr
  exact ⟨Auth.session_used_once hlogins, hred.resetOnce, hred.invitationOnce⟩

end Runs

section Sample

theorem sampleWorld_issued (status : Auth.UserStatus) : (sampleWorld status).Issued := by
  refine ⟨fun row hm ↦ ?_, nofun⟩
  rw [List.mem_singleton.mp hm]
  exact .tail _ (.head _)

instance (guid : String) : DecidablePred (invitationKind.Uses guid) := fun e ↦
  inferInstanceAs (Decidable (invitationKind.used e.2 = some guid))

def sampleSecond : Call := ⟨1, .acceptInvitation ⟨"t", "other"⟩⟩

/-- A second acceptance runs between the read and the saves of the first. -/
def sampleTwice : Config Call Command Reply World :=
  sampleSchedule [(sampleAcceptance, 1), (sampleSecond, 7), (sampleAcceptance, 6)]
    (sampleWorld .unverified)

/-- One invitation is accepted by two overlapping requests. -/
theorem invitation_accepted_twice : ∃ w₀ cfg, w₀.Blank ∧ w₀.Issued ∧
    (machine samplePlatform).Run (Machine.idle w₀) cfg ∧
    ¬AtMostOnce (invitationKind.Uses "i1") cfg.world.history := by
  refine ⟨sampleWorld .unverified, sampleTwice, sampleWorld_blank _, sampleWorld_issued _,
    sampleSchedule_run _ _, fun ho ↦ ?_⟩
  have hcount : sampleTwice.world.history.countP (invitationKind.Uses "i1") = 2 := by decide +kernel
  have hle := ho.countP_le_one
  omega

def sampleOnce : Config Call Command Reply World :=
  sampleSchedule [(sampleAcceptance, 7), (sampleSecond, 7)] (sampleWorld .unverified)

/-- No invitation is used up after another. -/
def firstOnly : History → Bool
  | [] => true
  | e :: h => (invitationKind.used e.2 = none || h.all fun e' ↦ invitationKind.used e'.2 = none) &&
    firstOnly h

theorem lawful_of_firstOnly {h : History} (hf : firstOnly h = true) : Lawful apart h := by
  induction h with
  | nil => exact lawful_nil
  | cons e h ih =>
    obtain ⟨he, hf⟩ := Bool.and_eq_true_iff.mp hf
    refine lawful_cons.mpr ⟨fun invitation heq later ⟨before, hb⟩ e' hm hu ↦ ?_, ih hf⟩
    rcases Bool.or_eq_true_iff.mp he with hn | hall
    · have hn := of_decide_eq_true hn
      rw [heq] at hn
      cases hn
    · have hin : e' ∈ h := hb ▸ List.mem_append_left _ hm
      have hn := of_decide_eq_true (List.all_eq_true.mp hall e' hin)
      rw [Kind.Uses, hn] at hu
      cases hu

theorem sample_redeemed_once :
    AtMostOnce (Auth.UsesSession "s1") Auth.codePlayed.2.history ∧
    AtMostOnce (resetKind.Uses "r1") sampleOnce.world.history ∧
    AtMostOnce (invitationKind.Uses "i1") sampleOnce.world.history := by
  have hl : Lawful apart sampleOnce.world.history := lawful_of_firstOnly (by decide +kernel)
  obtain ⟨hs, hr, hi⟩ := credentials_redeemed_once Auth.codePlayed_run (sampleWorld_blank .unverified)
    (sampleWorld_issued _) (sampleSchedule_run _ _ : (machine samplePlatform).Run _ sampleOnce)
  exact ⟨hs "s1", hr "r1", hi hl "i1"⟩

end Sample

end RustdeskConsole.Accounts
