import RustdeskConsole.Collections.Rows
import RustdeskConsole.Effects.History
import RustdeskConsole.Effects.Logic
import RustdeskConsole.OidcLogins.Service

namespace RustdeskConsole.OidcLogins

open Accounts (Failure User)
open Collections Effects Effects.History Handler
open Oidc (OidcProvider OidcAuthState OidcAuthStatus OidcAuthRequestDto)

variable {w w' : World} {call other : Call} {event : Event} {guid code token : String}
  {row authState : OidcAuthState} {drawn drawn' : List OidcAuthState} {h h' : List (Call × Event)}

/-- What never changes of a state. -/
def identity (authState : OidcAuthState) :
    String × String × Option String × Option String :=
  (authState.guid, authState.code, authState.deviceId, authState.deviceUuid)

/-- The call polls for this state. -/
def Call.Polls (call : Call) (authState : OidcAuthState) : Prop :=
  ∃ deviceId deviceUuid, authState.deviceId = some deviceId ∧
    authState.deviceUuid = some deviceUuid ∧
    call.request = .queryAuth authState.code deviceId deviceUuid

/-- What is known of an event when it takes place. -/
def Law (drawn : List OidcAuthState) (earlier : List (Call × Event)) (e : Call × Event) : Prop :=
  match e.2 with
  | .found guid pending => pending = true → ∀ other, (other, .saved guid) ∉ earlier
  | .issued .. => ∀ guid token, (e.1, .issued guid token) ∉ earlier
  | .saved guid => (∃ token, (e.1, .issued guid token) ∈ earlier) ∧
      (∀ guid', (e.1, .saved guid') ∉ earlier) ∧ ∃ state ∈ drawn, state.guid = guid
  | .consumed code => ∃ state ∈ drawn, state.code = code ∧
      ∃ other, (other, .saved state.guid) ∈ earlier
  | .delivered guid token => (∃ other, (other, .issued guid token) ∈ earlier) ∧
      (∀ guid' token', (e.1, .delivered guid' token') ∉ earlier) ∧
      ∃ state ∈ drawn, state.guid = guid ∧ e.1.Polls state ∧ (e.1, .consumed state.code) ∈ earlier

/-- A stored row is a state that was drawn, is pending until a token is saved on
it, and holds a token that was issued for it. -/
structure Told (drawn : List OidcAuthState) (h : List (Call × Event)) (row : OidcAuthState) :
    Prop where
  drawn : identity row ∈ drawn.map identity
  pending : row.status = .pending → ∀ call, (call, .saved row.guid) ∉ h
  authorized : row.status = .authorized → ∃ call, (call, .saved row.guid) ∈ h
  token : ∀ token, row.accessToken = some token → ∃ call, (call, .issued row.guid token) ∈ h

structure Sound (w : World) : Prop where
  guids : (w.authStates.map (·.guid)).Nodup
  drawnGuids : (w.drawn.map (·.guid)).Nodup
  drawnCodes : (w.drawn.map (·.code)).Nodup
  rows : ∀ row ∈ w.authStates, Told w.drawn w.history row
  lawful : Lawful (Law w.drawn) w.history

def guard (call : Call) (c : Command) (w : World) : Prop :=
  match c with
  | .insertAuthState authState => authState.status = .pending ∧ authState.accessToken = none
  | .generateToken authState _ => (∀ guid token, (call, .issued guid token) ∉ w.history) ∧
      (call, .found authState.guid true) ∈ w.history
  | .saveAuthState authState => identity authState ∈ w.drawn.map identity ∧
      (∀ token, authState.accessToken = some token →
        ∃ other, (other, .issued authState.guid token) ∈ w.history) ∧
      (authState.status = .expired ∨ authState.status = .authorized ∧
        (∃ token, (call, .issued authState.guid token) ∈ w.history) ∧
        ∀ guid, (call, .saved guid) ∉ w.history)
  | .respond authState accessToken =>
      (∃ other, (other, .issued authState.guid accessToken) ∈ w.history) ∧
      (∀ guid token, (call, .delivered guid token) ∉ w.history) ∧
      ∃ state ∈ w.drawn, state.guid = authState.guid ∧ call.Polls state ∧
        (call, .consumed state.code) ∈ w.history
  | _ => True

theorem identity_guid {state : OidcAuthState} (h : identity state = identity row) :
    state.guid = row.guid := congrArg Prod.fst h

theorem identity_code {state : OidcAuthState} (h : identity state = identity row) :
    state.code = row.code := congrArg (fun i ↦ i.2.1) h

theorem drawn_of_identity (h : identity row ∈ drawn.map identity) :
    ∃ state ∈ drawn, identity state = identity row := List.mem_map.mp h

theorem Law.mono {e : Call × Event} (hl : Law drawn h e) (hd : drawn ⊆ drawn') :
    Law drawn' h e := by
  obtain ⟨c, event⟩ := e
  cases event with
  | found guid pending => exact hl
  | issued guid token => exact hl
  | saved guid =>
    obtain ⟨hissued, hone, state, hm, hguid⟩ := hl
    exact ⟨hissued, hone, state, hd hm, hguid⟩
  | consumed code =>
    obtain ⟨state, hm, h⟩ := hl
    exact ⟨state, hd hm, h⟩
  | delivered guid token =>
    obtain ⟨hissued, hone, state, hm, h⟩ := hl
    exact ⟨hissued, hone, state, hd hm, h⟩

namespace Told

/-- An event that saves nothing on the row leaves what is known of it. -/
theorem note (ht : Told drawn h row) (he : ∀ guid, event = .saved guid → guid ≠ row.guid) :
    Told drawn ((call, event) :: h) row where
  drawn := ht.drawn
  pending hp c hm := by
    rcases List.mem_cons.mp hm with heq | hm
    · exact he _ (Prod.mk.inj heq).2.symm rfl
    · exact ht.pending hp c hm
  authorized hp := (ht.authorized hp).imp fun _ hm ↦ .tail _ hm
  token t hrow := (ht.token t hrow).imp fun _ hm ↦ .tail _ hm

theorem mono (ht : Told drawn h row) (hd : drawn ⊆ drawn') : Told drawn' h row :=
  ⟨List.map_subset _ hd ht.drawn, ht.pending, ht.authorized, ht.token⟩

theorem withStatus (ht : Told drawn h row) {status : OidcAuthStatus} (hp : status ≠ .pending)
    (ha : status ≠ .authorized) : Told drawn h { row with status := status } :=
  ⟨ht.drawn, fun heq ↦ absurd heq hp, fun heq ↦ absurd heq ha, ht.token⟩

end Told

namespace Sound

theorem note (hs : Sound w) (hl : Law w.drawn w.history (call, event))
    (he : ∀ guid, event ≠ .saved guid) : Sound (w.note call event) where
  guids := hs.guids
  drawnGuids := hs.drawnGuids
  drawnCodes := hs.drawnCodes
  rows row hm := (hs.rows row hm).note fun guid heq ↦ absurd heq (he guid)
  lawful := lawful_cons.mpr ⟨hl, hs.lawful⟩

/-- The rows change, but are each still what is told. -/
theorem rows_changed (hs : Sound w) {rows : List OidcAuthState}
    (hg : (rows.map (·.guid)).Nodup) (hr : ∀ row ∈ rows, Told w.drawn w.history row) :
    Sound { w with authStates := rows } :=
  ⟨hg, hs.drawnGuids, hs.drawnCodes, hr, hs.lawful⟩

theorem removeWhere (hs : Sound w) (p : OidcAuthState → Bool) : Sound (w.removeWhere p) :=
  hs.rows_changed ((List.filter_sublist.map _).nodup hs.guids) fun row hm ↦
    hs.rows row (List.mem_of_mem_filter hm)

theorem accept (hs : Sound w) : Sound { w with accepted := code :: w.accepted } :=
  ⟨hs.guids, hs.drawnGuids, hs.drawnCodes, hs.rows, hs.lawful⟩

theorem insert (hs : Sound w) (hp : authState.status = .pending)
    (ht : authState.accessToken = none)
    (hfresh : ∀ state ∈ w.drawn, state.guid ≠ authState.guid ∧ state.code ≠ authState.code) :
    Sound { w with
      authStates := authState :: w.authStates
      drawn := authState :: w.drawn } where
  guids := by
    rw [List.map_cons, List.nodup_cons]
    refine ⟨fun hm ↦ ?_, hs.guids⟩
    obtain ⟨row, hrow, heq⟩ := List.mem_map.mp hm
    obtain ⟨state, hstate, hid⟩ := drawn_of_identity (hs.rows row hrow).drawn
    exact (hfresh state hstate).1 ((identity_guid hid).trans heq)
  drawnGuids := by
    rw [List.map_cons, List.nodup_cons, List.mem_map]
    exact ⟨fun ⟨state, hm, heq⟩ ↦ (hfresh state hm).1 heq, hs.drawnGuids⟩
  drawnCodes := by
    rw [List.map_cons, List.nodup_cons, List.mem_map]
    exact ⟨fun ⟨state, hm, heq⟩ ↦ (hfresh state hm).2 heq, hs.drawnCodes⟩
  rows row hm := by
    rcases List.mem_cons.mp hm with rfl | hm
    · refine ⟨List.mem_map_of_mem (.head _), fun _ c hsaved ↦ ?_, fun ha ↦ ?_, fun t hsome ↦ ?_⟩
      · obtain ⟨earlier, -, -, -, state, hstate, heq⟩ := hs.lawful.of_mem hsaved
        exact (hfresh state hstate).1 heq
      · rw [hp] at ha
        cases ha
      · rw [ht] at hsome
        cases hsome
    · exact (hs.rows row hm).mono (List.subset_cons_self ..)
  lawful e earlier hsuffix := (hs.lawful e earlier hsuffix).mono (List.subset_cons_self ..)

end Sound

theorem saveAuthState_guids (hs : (w.authStates.map (·.guid)).Nodup) :
    ((w.saveAuthState authState).authStates.map (·.guid)).Nodup := by
  rw [World.saveAuthState]
  split
  · rw [List.map_map]
    refine (List.map_congr_left fun row _ ↦ ?_) ▸ hs
    rw [Function.comp_apply]
    split
    · next heq => exact heq
    · rfl
  · next hany =>
    rw [List.map_cons, List.nodup_cons, List.mem_map]
    refine ⟨fun ⟨row, hm, heq⟩ ↦ hany ?_, hs⟩
    exact List.any_eq_true.mpr ⟨row, hm, decide_eq_true heq⟩

theorem mem_saveAuthState (hm : row ∈ (w.saveAuthState authState).authStates) :
    row = authState ∨ row ∈ w.authStates ∧ row.guid ≠ authState.guid := by
  rw [World.saveAuthState] at hm
  split at hm
  · obtain ⟨old, hold, rfl⟩ := List.mem_map.mp hm
    split
    · exact .inl rfl
    · next hne => exact .inr ⟨hold, hne⟩
  · next hany =>
    rcases List.mem_cons.mp hm with rfl | hm
    · exact .inl rfl
    · refine .inr ⟨hm, fun heq ↦ hany ?_⟩
      exact List.any_eq_true.mpr ⟨row, hm, decide_eq_true heq⟩

theorem Sound.save_expired (hs : Sound w) (ht : Told w.drawn w.history authState) :
    Sound (w.saveAuthState authState) := by
  refine hs.rows_changed (saveAuthState_guids hs.guids) fun row hm ↦ ?_
  rcases mem_saveAuthState hm with rfl | ⟨hm, -⟩
  · exact ht
  · exact hs.rows row hm

theorem Sound.save_authorized (hs : Sound w) (hg : guard call (.saveAuthState authState) w)
    (ha : authState.status = .authorized) :
    Sound ((w.saveAuthState authState).note call (.saved authState.guid)) := by
  obtain ⟨hid, htoken, hexpired | ⟨-, hissued, hone⟩⟩ := hg
  · rw [ha] at hexpired
    cases hexpired
  obtain ⟨state, hstate, heq⟩ := drawn_of_identity hid
  refine ⟨saveAuthState_guids hs.guids, hs.drawnGuids, hs.drawnCodes, fun row hm ↦ ?_,
    lawful_cons.mpr ⟨⟨hissued, hone, state, hstate, identity_guid heq⟩, hs.lawful⟩⟩
  rcases mem_saveAuthState hm with rfl | ⟨hm, hne⟩
  · refine ⟨hid, fun hp ↦ ?_, fun _ ↦ ⟨call, .head _⟩, fun t hsome ↦ ?_⟩
    · rw [ha] at hp
      cases hp
    · exact (htoken t hsome).imp fun _ hm ↦ .tail _ hm
  · refine (hs.rows row hm).note fun guid heq ↦ ?_
    cases heq
    exact hne.symm

theorem mem_consume {p : OidcAuthState → Bool} (hm : row ∈ (w.consume p).authStates) :
    ∃ old ∈ w.authStates, identity old = identity row ∧
      row = if p old then { old with status := .consumed } else old := by
  obtain ⟨old, hold, rfl⟩ := List.mem_map.mp hm
  refine ⟨old, hold, ?_, rfl⟩
  split <;> rfl

theorem Sound.consume (hs : Sound w) {p : OidcAuthState → Bool} (hm : row ∈ w.authStates)
    (ha : row.status = .authorized) (hc : row.code = code) :
    Sound ((w.consume p).note call (.consumed code)) := by
  have hrows : Sound (w.consume p) := by
    refine hs.rows_changed ?_ fun row' hm' ↦ ?_
    · rw [List.map_map]
      refine (List.map_congr_left fun row _ ↦ ?_) ▸ hs.guids
      rw [Function.comp_apply]
      split <;> rfl
    · obtain ⟨old, hold, -, rfl⟩ := mem_consume hm'
      split
      · exact (hs.rows old hold).withStatus (by decide) (by decide)
      · exact hs.rows old hold
  refine hrows.note ?_ nofun
  obtain ⟨state, hstate, heq⟩ := drawn_of_identity (hs.rows row hm).drawn
  refine ⟨state, hstate, (identity_code heq).trans hc, ?_⟩
  rw [identity_guid heq]
  exact (hs.rows row hm).authorized ha

theorem perform_sound {c : Command} {o : Choice} (hs : Sound w) (hg : guard call c w) :
    Sound (perform call c o w).1 := by
  cases c with
  | insertAuthState authState =>
    simp only [perform]
    split
    · exact hs
    · next hfresh =>
      exact hs.insert hg.1 hg.2 (by simpa using hfresh)
  | findAuthState state =>
    simp only [perform]
    split
    · next row hfound =>
      have hm := List.mem_of_find?_eq_some hfound
      exact hs.note (fun hp ↦ (hs.rows row hm).pending (of_decide_eq_true hp)) nofun
    · exact hs
  | saveAuthState authState =>
    simp only [perform]
    split
    · next ha => exact hs.save_authorized hg ha
    · next hne =>
      obtain ⟨hid, htoken, hexpired | ⟨ha, -⟩⟩ := hg
      · refine hs.save_expired ⟨hid, fun hp ↦ ?_, fun ha ↦ absurd ha hne, htoken⟩
        rw [hexpired] at hp
        cases hp
      · exact absurd ha hne
  | exchange provider authState code =>
    cases code with
    | none => exact hs
    | some code =>
      simp only [perform]
      split
      · exact hs
      · exact hs.accept
  | generateToken authState userGuid => exact hs.note hg.1 nofun
  | consume code deviceId deviceUuid now =>
    simp only [perform]
    split
    · exact hs
    · next hcount =>
      obtain ⟨row, hm, hp⟩ := List.countP_pos_iff.mp (Nat.pos_of_ne_zero hcount)
      simp only [isConsumable, isPolled, Bool.and_eq_true, decide_eq_true_eq] at hp
      exact hs.consume hm hp.1.2 hp.1.1.1.1
  | removeAuthState authState => exact hs.removeWhere _
  | respond authState accessToken => exact hs.note hg nofun
  | deleteExpired now => exact hs.removeWhere _
  | deleteStale => exact hs.removeWhere _
  | _ => exact hs

theorem exec_sound {c : Command} {o : Choice} (hs : Sound w) (hg : guard call c w) :
    Sound (exec call c o w).1 := by
  rw [exec]
  split
  · exact hs
  · exact perform_sound hs hg

/-- A command leaves at most events of its own call. -/
theorem exec_adds {c : Command} {o : Choice} :
    Adds (·.1 = call) w.history (exec call c o w).1.history ∧
      w.drawn ⊆ (exec call c o w).1.drawn := by
  have hsame : Adds (fun e : Call × Event ↦ e.1 = call) w.history w.history ∧ w.drawn ⊆ w.drawn :=
    ⟨.refl _, fun _ hm ↦ hm⟩
  have hnote {event : Event} : Adds (fun e : Call × Event ↦ e.1 = call) w.history
      ((call, event) :: w.history) ∧ w.drawn ⊆ w.drawn :=
    ⟨(Adds.refl _).cons rfl, fun _ hm ↦ hm⟩
  rw [exec]
  split
  · exact hsame
  · cases c with
    | insertAuthState authState =>
      simp only [perform]
      split
      · exact hsame
      · exact ⟨.refl _, List.subset_cons_self ..⟩
    | findAuthState state =>
      simp only [perform]
      split
      · exact hnote
      · exact hsame
    | saveAuthState authState =>
      simp only [perform]
      split
      · exact hnote
      · exact hsame
    | exchange provider authState code =>
      cases code with
      | none => exact hsame
      | some code =>
        simp only [perform]
        split <;> exact hsame
    | generateToken authState userGuid => exact hnote
    | consume code deviceId deviceUuid now =>
      simp only [perform]
      split
      · exact hsame
      · exact hnote
    | respond authState accessToken => exact hnote
    | _ => exact hsame

/-- What the other calls do: they add no event of this call, and forget no state. -/
structure Others (call : Call) (w w' : World) : Prop where
  history : Adds (·.1 ≠ call) w.history w'.history
  drawn : w.drawn ⊆ w'.drawn

/-- A call issues at most one token, saves it on the state it was issued for, and
answers with the token of the state it has consumed. -/
def logic : Logic machine where
  inv := Sound
  guard := guard
  rely := Others
  rely_refl _ _ := ⟨.refl _, fun _ hm ↦ hm⟩
  rely_trans _ := fun h h' ↦ ⟨h.history.trans h'.history, fun _ hm ↦ h'.drawn (h.drawn hm)⟩
  keeps _ _ hs hg := exec_sound hs hg
  interferes _ _ hne _ _ :=
    ⟨exec_adds.1.mono fun _ heq ↦ heq ▸ Ne.symm hne, exec_adds.2⟩

namespace Others

theorem refl : Others call w w := logic.rely_refl call w

theorem trans {w'' : World} (ho : Others call w w') (ho' : Others call w' w'') :
    Others call w w'' := logic.rely_trans call ho ho'

theorem not_mem (ho : Others call w w') (hn : (call, event) ∉ w.history) :
    (call, event) ∉ w'.history :=
  ho.history.not_mem hn fun hne ↦ hne rfl

end Others

/-- The call has not issued a token yet. -/
structure Unissued (call : Call) (w : World) : Prop where
  issued : ∀ guid token, (call, .issued guid token) ∉ w.history
  saved : ∀ guid, (call, .saved guid) ∉ w.history

theorem Unissued.others (hu : Unissued call w) (ho : Others call w w') : Unissued call w' :=
  ⟨fun _ _ ↦ ho.not_mem (hu.issued _ _), fun _ ↦ ho.not_mem (hu.saved _)⟩

/-- What a call knows of a state that it has loaded. -/
structure Loaded (authState : OidcAuthState) (w : World) : Prop where
  drawn : identity authState ∈ w.drawn.map identity
  token : ∀ token, authState.accessToken = some token →
    ∃ call, (call, .issued authState.guid token) ∈ w.history

theorem Loaded.mono (hl : Loaded authState w) (hd : w.drawn ⊆ w'.drawn)
    (hh : w.history ⊆ w'.history) : Loaded authState w' :=
  ⟨List.map_subset _ hd hl.drawn, fun t hsome ↦ (hl.token t hsome).imp fun _ hm ↦ hh hm⟩

theorem Loaded.others (hl : Loaded authState w) (ho : Others call w w') : Loaded authState w' :=
  hl.mono ho.drawn ho.history.suffix.subset

theorem Told.loaded (ht : Told w.drawn w.history row) : Loaded row w := ⟨ht.drawn, ht.token⟩

section Specs

variable {α β : Type} {s : Unit}

/-- The process ends, one way or another. -/
abbrev Does (call : Call) (p : Handler α) (Q : α → World → Prop) (w : World) : Prop :=
  logic.Ensures call p (fun a _ w ↦ Q a w) (fun _ _ _ ↦ True) () w

theorem does_bind {p : Handler α} {f : α → Handler β} {P : α → World → Prop}
    {Q : β → World → Prop} (hp : Does call p P w)
    (hf : ∀ a w', P a w' → Does call (f a) Q w') : Does call (p >>= f) Q w :=
  Logic.Ensures.andThen hp fun a _ w' ↦ hf a w'

/-- A command that leaves no event and forgets nothing. -/
def Command.quiet : Command → Bool
  | .findAuthState _ | .saveAuthState _ | .generateToken .. | .consume .. | .respond .. => false
  | _ => true

theorem exec_quiet {c : Command} {o : Choice} (hq : c.quiet = true) :
    (exec call c o w).1.history = w.history := by
  rw [exec]
  split
  · rfl
  · cases c with
    | insertAuthState authState =>
      simp only [perform]
      split <;> rfl
    | exchange provider authState code =>
      cases code with
      | none => rfl
      | some code =>
        simp only [perform]
        split <;> rfl
    | findAuthState | saveAuthState | generateToken | consume | respond => cases hq
    | _ => rfl

theorem attempt_quiet {c : Command} (hq : c.quiet = true) (hg : ∀ w, guard call c w) :
    Does call (attempt c) (fun _ w' ↦ Others call w w') w := by
  refine .invoke fun w₁ ho _ ↦ ⟨hg w₁, fun o w₂ r hx _ ↦ ?_⟩
  have hw : w₂ = (exec call c o w₁).1 := congrArg Prod.fst hx.symm
  have hlater : Others call w w₂ := by
    refine ho.trans ⟨?_, hw ▸ exec_adds.2⟩
    rw [hw, exec_quiet hq]
    exact .refl _
  cases r with
  | error failure => trivial
  | ok value => exact hlater

theorem assert_does {condition : Bool} {failure : Failure} :
    Does call (assert condition failure) (fun _ w' ↦ w' = w ∧ condition = true) w := by
  rw [assert]
  split
  · next hc => exact .pure ⟨rfl, hc⟩
  · exact .throw trivial

theorem require_does {value : Option α} {failure : Failure} :
    Does call (require value failure) (fun a w' ↦ w' = w ∧ value = some a) w := by
  cases value with
  | some a => exact .pure ⟨rfl, rfl⟩
  | none => exact .throw trivial

theorem reply_does {x : Except Failure α} : Does call (reply x) (fun _ w' ↦ w' = w) w := by
  cases x with
  | ok a => exact .pure rfl
  | error failure => exact .throw trivial

theorem findAuthState_does {state : String} (hu : Unissued call w) :
    Does call (attempt (.findAuthState state)) (fun found w' ↦ Unissued call w' ∧
      ∀ authState, found = some authState → Loaded authState w' ∧
        (authState.status = .pending → (call, .found authState.guid true) ∈ w'.history)) w := by
  refine .invoke fun w₁ ho hi ↦ ⟨trivial, fun o w₂ r hx _ ↦ ?_⟩
  have hu₁ := hu.others ho
  simp only [machine, exec] at hx
  split at hx
  · cases hx
    trivial
  · simp only [perform] at hx
    split at hx
    · next row hfound =>
      have hl := (hi.rows row (List.mem_of_find?_eq_some hfound)).loaded
      cases hx
      refine ⟨⟨fun guid token hm ↦ ?_, fun guid hm ↦ ?_⟩, fun authState heq ↦ ?_⟩
      · exact hu₁.issued guid token (by simpa [World.note] using hm)
      · exact hu₁.saved guid (by simpa [World.note] using hm)
      · cases heq
        refine ⟨hl.mono (fun _ hm ↦ hm) (List.subset_cons_self ..), fun hp ↦ ?_⟩
        rw [hp]
        exact .head _
    · cases hx
      exact ⟨hu₁, fun _ heq ↦ absurd heq.symm (Option.some_ne_none _)⟩

theorem saveAuthState_does
    (hg : ∀ w', Others call w w' → guard call (.saveAuthState authState) w') :
    Does call (attempt (.saveAuthState authState)) (fun _ _ ↦ True) w := by
  refine .invoke fun w₁ ho _ ↦ ⟨hg w₁ ho, fun o w₂ r hx _ ↦ ?_⟩
  cases r <;> trivial

theorem generateToken_does {userGuid : String} (hu : Unissued call w)
    (hf : (call, .found authState.guid true) ∈ w.history) :
    Does call (attempt (.generateToken authState userGuid)) (fun token w' ↦
      (call, .issued authState.guid token) ∈ w'.history ∧
        (∀ guid, (call, .saved guid) ∉ w'.history) ∧ w.drawn ⊆ w'.drawn) w := by
  refine .invoke fun w₁ ho _ ↦ ⟨⟨(hu.others ho).issued, ho.history.mem hf⟩, fun o w₂ r hx _ ↦ ?_⟩
  simp only [machine, exec] at hx
  split at hx
  · cases hx
    trivial
  · cases hx
    refine ⟨.head _, fun guid hm ↦ ?_, ho.drawn⟩
    exact (hu.others ho).saved guid (by simpa [perform, World.note] using hm)

theorem bindDevice_does {userGuid : String} : Does call (OidcService.bindDevice userGuid authState)
    (fun _ w' ↦ Others call w w') w := by
  rw [OidcService.bindDevice]
  split
  · exact attempt_quiet rfl fun _ ↦ trivial
  · exact .pure .refl

theorem complete_does {provider : OidcProvider} {code : Option String} (hu : Unissued call w)
    (hl : Loaded authState w) (hf : (call, .found authState.guid true) ∈ w.history) :
    Does call (OidcService.complete provider authState code) (fun _ _ ↦ True) w := by
  refine does_bind (attempt_quiet rfl fun _ ↦ trivial) fun r w₁ ho₁ ↦ ?_
  refine does_bind reply_does fun userInfo _ heq ↦ heq ▸ ?_
  refine does_bind (attempt_quiet rfl fun _ ↦ trivial) fun user w₂ ho₂ ↦ ?_
  refine does_bind bindDevice_does fun _ w₃ ho₃ ↦ ?_
  have ho := (ho₁.trans ho₂).trans ho₃
  refine does_bind (generateToken_does (hu.others ho) (ho.history.mem hf))
    fun token w₄ ⟨hissued, hnone, hd⟩ ↦ ?_
  refine does_bind (saveAuthState_does fun w₅ ho₅ ↦ ⟨?_, ?_, .inr ⟨rfl, ?_, ?_⟩⟩) fun _ _ _ ↦
    .pure trivial
  · exact List.map_subset _ (fun _ hm ↦ ho₅.drawn (hd hm)) (hl.others ho).drawn
  · intro t hsome
    cases hsome
    exact ⟨call, ho₅.history.mem hissued⟩
  · exact ⟨token, ho₅.history.mem hissued⟩
  · exact fun guid ↦ ho₅.not_mem (hnone guid)

theorem assertCurrent_does {now : ℕ} (hl : Loaded authState w) :
    Does call (OidcService.assertCurrent authState now) (fun _ w' ↦ w' = w) w := by
  rw [OidcService.assertCurrent]
  split
  · refine does_bind (saveAuthState_does fun w' ho ↦ ?_) fun _ _ _ ↦ .throw trivial
    exact ⟨(hl.others ho).drawn, (hl.others ho).token, .inl rfl⟩
  · exact .pure rfl

theorem handleCallback_does {state error code : Option String} (hu : Unissued call w) :
    Does call (OidcService.handleCallback state error code) (fun _ _ ↦ True) w := by
  refine does_bind assert_does fun _ _ ⟨heq, _⟩ ↦ heq ▸ ?_
  refine does_bind require_does fun state _ ⟨heq, _⟩ ↦ heq ▸ ?_
  refine does_bind (findAuthState_does hu) fun found w₁ ⟨hu₁, hl₁⟩ ↦ ?_
  refine does_bind require_does fun authState _ ⟨heq, hfound⟩ ↦ heq ▸ ?_
  refine does_bind (attempt_quiet rfl fun _ ↦ trivial) fun now w₂ ho₂ ↦ ?_
  obtain ⟨hl₁, hf₁⟩ := hl₁ authState hfound
  have hl₂ := hl₁.others ho₂
  refine does_bind (assertCurrent_does hl₂) fun _ _ heq ↦ heq ▸ ?_
  refine does_bind assert_does fun _ _ ⟨heq, hpending⟩ ↦ heq ▸ ?_
  have hf₂ := ho₂.history.mem (hf₁ (of_decide_eq_true hpending))
  refine does_bind (attempt_quiet rfl fun _ ↦ trivial) fun provider? w₃ ho₃ ↦ ?_
  refine does_bind require_does fun provider _ ⟨heq, _⟩ ↦ heq ▸ ?_
  refine .tryCatch ((complete_does ((hu₁.others ho₂).others ho₃) (hl₂.others ho₃)
    (ho₃.history.mem hf₂)).mono (fun _ _ _ h ↦ h) fun failure _ _ _ ↦ ?_)
  cases failure <;> exact .throw trivial

/-- The call has consumed the states of the code, and has not answered yet. -/
structure Consumed (call : Call) (code : String) (w : World) : Prop where
  consumed : (call, .consumed code) ∈ w.history
  unanswered : ∀ guid token, (call, .delivered guid token) ∉ w.history

theorem Consumed.others (hc : Consumed call code w) (ho : Others call w w') :
    Consumed call code w' :=
  ⟨ho.history.mem hc.consumed, fun _ _ ↦ ho.not_mem (hc.unanswered _ _)⟩

theorem consume_does {deviceId deviceUuid : String} {now : ℕ}
    (hn : ∀ event, (call, event) ∉ w.history) :
    Does call (attempt (.consume code deviceId deviceUuid now))
      (fun affected w' ↦ affected ≠ 0 → Consumed call code w') w := by
  refine .invoke fun w₁ ho _ ↦ ⟨trivial, fun o w₂ r hx _ ↦ ?_⟩
  simp only [machine, exec] at hx
  split at hx
  · cases hx
    trivial
  · simp only [perform] at hx
    split at hx
    · cases hx
      exact fun hne ↦ absurd rfl hne
    · cases hx
      refine fun _ ↦ ⟨.head _, fun guid token hm ↦ ?_⟩
      exact ho.not_mem (hn _) (by simpa [World.note, World.consume] using hm)

theorem findByDevice_does {deviceId deviceUuid : String} {status : Option OidcAuthStatus} :
    Does call (attempt (.findByDevice code deviceId deviceUuid status)) (fun found w' ↦
      Others call w w' ∧ ∀ authState, found = some authState →
        Loaded authState w' ∧ isPolled code deviceId deviceUuid authState = true) w := by
  refine .invoke fun w₁ ho hi ↦ ⟨trivial, fun o w₂ r hx _ ↦ ?_⟩
  simp only [machine, exec] at hx
  split at hx
  · cases hx
    trivial
  · cases hx
    refine ⟨ho, fun authState hfound ↦ ?_⟩
    have hp := List.find?_some hfound
    rw [Bool.and_eq_true] at hp
    exact ⟨(hi.rows authState (List.mem_of_find?_eq_some hfound)).loaded, hp.1⟩

theorem deliver_does {deviceId deviceUuid : String}
    (hr : call.request = .queryAuth code deviceId deviceUuid) (hc : Consumed call code w)
    (hl : Loaded authState w) (hp : isPolled code deviceId deviceUuid authState = true) :
    Does call (OidcService.deliver authState) (fun _ _ ↦ True) w := by
  refine does_bind require_does fun accessToken _ ⟨heq, htoken⟩ ↦ heq ▸ ?_
  refine does_bind (attempt_quiet rfl fun _ ↦ trivial) fun found w₁ ho₁ ↦ ?_
  refine does_bind require_does fun user _ ⟨heq, _⟩ ↦ heq ▸ ?_
  refine does_bind (attempt_quiet rfl fun _ ↦ trivial) fun _ w₂ ho₂ ↦ ?_
  have hrespond : Does call (attempt (.respond authState accessToken)) (fun _ _ ↦ True) w₂ := by
    refine .invoke fun w₃ ho₃ _ ↦ ⟨?_, fun o w₄ r hx _ ↦ ?_⟩
    · have ho := (ho₁.trans ho₂).trans ho₃
      simp only [isPolled, Bool.and_eq_true, decide_eq_true_eq] at hp
      obtain ⟨⟨rfl, hid⟩, huuid⟩ := hp
      refine ⟨(hl.others ho).token _ (Option.filter_eq_some_iff.mp htoken).1,
        (hc.others ho).unanswered, ?_⟩
      obtain ⟨state, hstate, heq⟩ := drawn_of_identity (hl.others ho).drawn
      simp only [identity, Prod.mk.injEq] at heq
      obtain ⟨hguid, hcode, hsid, hsuuid⟩ := heq
      refine ⟨state, hstate, hguid,
        ⟨deviceId, deviceUuid, hsid.trans hid, hsuuid.trans huuid, ?_⟩, ?_⟩
      · rw [hr, hcode]
      · rw [hcode]
        exact (hc.others ho).consumed
    · cases r <;> trivial
  exact does_bind hrespond fun _ _ _ ↦ .pure trivial

theorem queryAuth_does {deviceId deviceUuid : String}
    (hr : call.request = .queryAuth code deviceId deviceUuid)
    (hn : ∀ event, (call, event) ∉ w.history) :
    Does call (OidcService.queryAuth code deviceId deviceUuid) (fun _ _ ↦ True) w := by
  refine does_bind (attempt_quiet rfl fun _ ↦ trivial) fun now w₁ ho₁ ↦ ?_
  refine does_bind (consume_does fun _ ↦ ho₁.not_mem (hn _)) fun affected w₂ hc₂ ↦ ?_
  cases affected with
  | zero => exact does_bind (attempt_quiet rfl fun _ ↦ trivial) fun _ _ _ ↦ .throw trivial
  | succ n =>
    refine does_bind findByDevice_does fun found w₃ ⟨ho₃, hfound⟩ ↦ ?_
    refine does_bind require_does fun authState _ ⟨heq, hsome⟩ ↦ heq ▸ ?_
    obtain ⟨hl, hp⟩ := hfound authState hsome
    exact deliver_does hr ((hc₂ (Nat.succ_ne_zero n)).others ho₃) hl hp

theorem attempt_done {c : Command} (hq : c.quiet = true) (hg : ∀ w, guard call c w) :
    Does call (attempt c) (fun _ _ ↦ True) w :=
  (attempt_quiet hq hg).mono (fun _ _ _ _ ↦ trivial) fun _ _ _ h ↦ h

theorem assertCallbackUrl_does {callbackUrl : Option String} :
    Does call (OidcService.assertCallbackUrl callbackUrl) (fun _ _ ↦ True) w := by
  rw [OidcService.assertCallbackUrl]
  split
  · exact .pure trivial
  · refine does_bind (attempt_done rfl fun _ ↦ trivial) fun allowed _ _ ↦ ?_
    exact assert_does.mono (fun _ _ _ _ ↦ trivial) fun _ _ _ h ↦ h

theorem requestAuth_does {dto : OidcAuthRequestDto} :
    Does call (OidcService.requestAuth dto) (fun _ _ ↦ True) w := by
  refine does_bind (attempt_quiet rfl fun _ ↦ trivial) fun found w₁ _ ↦ ?_
  refine does_bind require_does fun provider _ _ ↦ ?_
  refine does_bind assertCallbackUrl_does fun _ _ _ ↦ ?_
  refine does_bind (attempt_quiet rfl fun _ ↦ trivial) fun code _ _ ↦ ?_
  refine does_bind (attempt_quiet rfl fun _ ↦ trivial) fun codeVerifier _ _ ↦ ?_
  refine does_bind (attempt_quiet rfl fun _ ↦ trivial) fun state _ _ ↦ ?_
  refine does_bind (attempt_quiet rfl fun _ ↦ trivial) fun nonce _ _ ↦ ?_
  refine does_bind (attempt_quiet rfl fun _ ↦ trivial) fun now _ _ ↦ ?_
  refine does_bind (attempt_quiet rfl fun _ ↦ trivial) fun effectiveBackendUrl _ _ ↦ ?_
  refine does_bind (attempt_quiet rfl fun _ ↦ trivial) fun guid _ _ ↦ ?_
  exact does_bind (attempt_quiet rfl fun _ ↦ ⟨rfl, rfl⟩) fun _ _ _ ↦ .pure trivial

theorem cleanup_does : Does call handleCleanupExpiredAuthStates (fun _ _ ↦ True) w := by
  refine does_bind (attempt_quiet rfl fun _ ↦ trivial) fun now _ _ ↦ ?_
  refine does_bind (attempt_quiet rfl fun _ ↦ trivial) fun _ _ _ ↦ ?_
  exact attempt_done rfl fun _ ↦ trivial

theorem ignore_does {p : Handler α} (hp : Does call p (fun _ _ ↦ True) w) :
    Does call (ignore p) (fun _ _ ↦ True) w := does_bind hp fun _ _ _ ↦ .pure trivial

theorem admissible : logic.Admissible := by
  rintro ⟨id, request⟩ w p - ⟨hn, rfl⟩
  have hserve : Does ⟨id, request⟩ (serve request) (fun _ _ ↦ True) w := by
    cases request with
    | requestAuth dto => exact ignore_does requestAuth_does
    | callback state error code =>
      exact ignore_does (handleCallback_does ⟨fun _ _ ↦ hn _, fun _ ↦ hn _⟩)
    | queryAuth code deviceId deviceUuid => exact ignore_does (queryAuth_does rfl hn)
    | cleanup => exact cleanup_does
  exact Logic.Wp.bind (Logic.Wp.mono hserve fun _ _ _ ↦ trivial)

end Specs

end RustdeskConsole.OidcLogins
