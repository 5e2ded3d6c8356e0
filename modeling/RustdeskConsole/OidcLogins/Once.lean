import RustdeskConsole.OidcLogins.Protocol

namespace RustdeskConsole.OidcLogins

open Accounts (Failure)
open Collections Effects Effects.History
open Oidc (OidcAuthState)

variable {w w' w₀ : World} {call other : Call} {event : Event} {guid code token : String}
  {row row' state state' : OidcAuthState} {cfg cfg' : Config Call Command Reply World}

def Event.Issues (guid : String) (event : Event) : Prop := ∃ token, event = .issued guid token

def Event.Delivers (guid : String) (event : Event) : Prop := ∃ token, event = .delivered guid token

/-- At most one token is issued for a state, and it is returned by at most one
poll, which knows the code, the id and the uuid of the state. -/
structure DeliveredOnce (w : World) : Prop where
  issued : ∀ guid, AtMostOnce (fun e ↦ e.2.Issues guid) w.history
  delivered : ∀ guid, AtMostOnce (fun e ↦ e.2.Delivers guid) w.history
  known : ∀ call guid token, (call, .delivered guid token) ∈ w.history →
    (∃ other, (other, .issued guid token) ∈ w.history) ∧
      ∃ state ∈ w.drawn, state.guid = guid ∧ call.Polls state

/-- A callback that issues a token for a state has read the state only after the others
that have issued one for it had saved it. -/
def Orderly (w : World) (call : Call) : Event → Prop
  | .issued guid _ => ∀ other token, other ≠ call → (other, .issued guid token) ∈ w.history →
      ∀ earlier pending, (call, .found guid pending) :: earlier <:+ w.history →
        (other, .saved guid) ∈ earlier
  | _ => True

def OrderlyTo (w w' : World) : Prop :=
  ∀ call event, w'.history = (call, event) :: w.history → Orderly w call event

def OrderlyStep (cfg cfg' : Config Call Command Reply World) : Prop :=
  OrderlyTo cfg.world cfg'.world

/-- What orderly steps keep: a state is authorized, and consumed, at most once. -/
structure Single (w : World) : Prop where
  issued : ∀ guid, AtMostOnce (fun e ↦ e.2.Issues guid) w.history
  consumed : ∀ code, AtMostOnce (fun e ↦ e.2 = .consumed code) w.history
  spent : ∀ row ∈ w.authStates, row.status = .authorized →
    ∀ call, (call, .consumed row.code) ∉ w.history

section Steps

/-- Who issues a token has found the state pending, so none was saved on it before. -/
theorem Orderly.unissued (ho : Orderly w call (.issued guid token)) (hs : Sound w)
    (hg : ∀ guid token, (call, .issued guid token) ∉ w.history)
    (hf : (call, .found guid true) ∈ w.history) : ∀ e ∈ w.history, ¬e.2.Issues guid := by
  rintro ⟨other, _⟩ hm ⟨token', rfl⟩
  have hne : other ≠ call := fun heq ↦ hg guid token' (heq ▸ hm)
  obtain ⟨later, earlier, heq⟩ := List.mem_iff_append.mp hf
  have hsuffix : (call, .found guid true) :: earlier <:+ w.history := ⟨later, heq.symm⟩
  exact hs.lawful _ _ hsuffix rfl other (ho other token' hne hm earlier true hsuffix)

theorem eq_of_code (hs : Sound w) (hm : row ∈ w.authStates) (hm' : row' ∈ w.authStates)
    (hc : row.code = row'.code) : row = row' := by
  obtain ⟨state, hstate, heq⟩ := drawn_of_identity (hs.rows row hm).drawn
  obtain ⟨state', hstate', heq'⟩ := drawn_of_identity (hs.rows row' hm').drawn
  have hsame : state = state' := List.inj_on_of_nodup_map hs.drawnCodes hstate hstate'
    ((identity_code heq).trans (hc.trans (identity_code heq').symm))
  refine List.inj_on_of_nodup_map hs.guids hm hm' ?_
  rw [← identity_guid heq, ← identity_guid heq', hsame]

/-- Nothing is consumed of a state on which no token was saved. -/
theorem not_consumed (hs : Sound w) (hm : state ∈ w.drawn)
    (hn : ∀ other, (other, .saved state.guid) ∉ w.history) :
    (call, .consumed state.code) ∉ w.history := by
  intro hc
  obtain ⟨earlier, hsuffix, state', hm', hcode, other, hsaved⟩ := hs.lawful.of_mem hc
  obtain rfl := List.inj_on_of_nodup_map hs.drawnCodes hm' hm hcode
  exact hn other ((List.suffix_cons ..).trans hsuffix |>.subset hsaved)

/-- The call is the first that saves a token on the state. -/
theorem first_saved (hs : Sound w) (hsingle : Single w)
    (hissued : (call, .issued guid token) ∈ w.history)
    (hn : ∀ guid, (call, .saved guid) ∉ w.history) : (other, .saved guid) ∉ w.history := by
  intro hsaved
  obtain ⟨earlier, hsuffix, ⟨token', hissued'⟩, -⟩ := hs.lawful.of_mem hsaved
  have hmem := ((List.suffix_cons ..).trans hsuffix).subset hissued'
  have heq := (hsingle.issued guid).eq hissued hmem ⟨token, rfl⟩ ⟨token', rfl⟩
  obtain rfl : call = other := (Prod.mk.inj heq).1
  exact hn guid hsaved

namespace Single

theorem note (hw : Single w) (hi : ∀ guid, ¬event.Issues guid)
    (hc : ∀ code, event ≠ .consumed code) : Single (w.note call event) where
  issued guid := unfollowed_cons.mpr ⟨fun h ↦ absurd h (hi guid), hw.issued guid⟩
  consumed code := unfollowed_cons.mpr ⟨fun h ↦ absurd h (hc code), hw.consumed code⟩
  spent row hm ha c hmem := by
    rcases List.mem_cons.mp hmem with heq | hmem
    · exact hc _ (Prod.mk.inj heq).2.symm
    · exact hw.spent row hm ha c hmem

theorem issue (hw : Single w) (hn : ∀ e ∈ w.history, ¬e.2.Issues guid) :
    Single (w.note call (.issued guid token)) where
  issued guid' := by
    refine unfollowed_cons.mpr ⟨?_, hw.issued guid'⟩
    rintro ⟨token', heq⟩
    cases heq
    exact hn
  consumed code := unfollowed_cons.mpr ⟨nofun, hw.consumed code⟩
  spent row hm ha c hmem := by
    rcases List.mem_cons.mp hmem with heq | hmem
    · cases heq
    · exact hw.spent row hm ha c hmem

theorem rows_changed (hw : Single w) {rows : List OidcAuthState}
    (hr : ∀ row ∈ rows, row.status = .authorized → ∀ call, (call, .consumed row.code) ∉ w.history) :
    Single { w with authStates := rows } := ⟨hw.issued, hw.consumed, hr⟩

theorem removeWhere (hw : Single w) (p : OidcAuthState → Bool) : Single (w.removeWhere p) :=
  hw.rows_changed fun row hm ↦ hw.spent row (List.mem_of_mem_filter hm)

theorem save (hw : Single w) (hs : Sound w) (hg : guard call (.saveAuthState row) w) :
    Single (w.saveAuthState row) := by
  refine hw.rows_changed fun row' hm ha c ↦ ?_
  rcases mem_saveAuthState hm with rfl | ⟨hm, -⟩
  · obtain ⟨hid, -, hexpired | ⟨-, ⟨token, hissued⟩, hone⟩⟩ := hg
    · rw [hexpired] at ha
      cases ha
    · obtain ⟨state, hstate, heq⟩ := drawn_of_identity hid
      rw [← identity_code heq]
      refine not_consumed hs hstate fun other ↦ ?_
      rw [identity_guid heq]
      exact first_saved hs hw hissued hone
  · exact hw.spent row' hm ha c

theorem consume (hw : Single w) (hs : Sound w) {p : OidcAuthState → Bool} (hm : row ∈ w.authStates)
    (hp : p row = true) (ha : row.status = .authorized) (hc : row.code = code) :
    Single ((w.consume p).note call (.consumed code)) where
  issued guid := unfollowed_cons.mpr ⟨nofun, hw.issued guid⟩
  consumed code' := by
    refine unfollowed_cons.mpr ⟨fun heq ↦ ?_, hw.consumed code'⟩
    cases heq
    rintro ⟨c, _⟩ hmem rfl
    exact hw.spent row hm ha c (hc ▸ hmem)
  spent row' hm' ha' c hmem := by
    obtain ⟨old, hold, hid, hrow⟩ := mem_consume hm'
    have hpending : p old = false := by
      cases hpo : p old with
      | false => rfl
      | true =>
        rw [hrow, hpo] at ha'
        cases ha'
    rw [hpending] at hrow
    obtain rfl : row' = old := hrow
    rcases List.mem_cons.mp hmem with heq | hmem
    · have hcode : row'.code = code := by
        cases heq
        rfl
      rw [eq_of_code hs hold hm (hcode.trans hc.symm), hp] at hpending
      cases hpending
    · exact hw.spent row' hold ha' c hmem

theorem deliveredOnce (hw : Single w) (hs : Sound w) : DeliveredOnce w where
  issued := hw.issued
  delivered guid := by
    rintro ⟨c, _⟩ earlier hsuffix ⟨token, rfl⟩ ⟨c', _⟩ hm ⟨token', rfl⟩
    obtain ⟨-, hone, state, hstate, hguid, -, hconsumed⟩ := hs.lawful _ _ hsuffix
    have hin : earlier <:+ w.history := (List.suffix_cons ..).trans hsuffix
    obtain ⟨earlier', hsuffix', -, -, state', hstate', hguid', -, hconsumed'⟩ :=
      hs.lawful.of_mem (hin.subset hm)
    have hin' : earlier' <:+ w.history := (List.suffix_cons ..).trans hsuffix'
    obtain rfl := List.inj_on_of_nodup_map hs.drawnGuids hstate' hstate (hguid'.trans hguid.symm)
    have heq := (hw.consumed _).eq (hin.subset hconsumed) (hin'.subset hconsumed') rfl rfl
    obtain rfl : c = c' := (Prod.mk.inj heq).1
    exact hone guid token' hm
  known call guid token hm := by
    obtain ⟨earlier, hsuffix, ⟨other, hissued⟩, -, state, hstate, hguid, hpolls, -⟩ :=
      hs.lawful.of_mem hm
    exact ⟨⟨other, ((List.suffix_cons ..).trans hsuffix).subset hissued⟩, state, hstate, hguid,
      hpolls⟩

end Single

theorem orderlyTo_note (h : w'.history = w.history) (ho : OrderlyTo w (w'.note call event)) :
    Orderly w call event := ho call event (by rw [World.note, h])

theorem perform_single {c : Command} {o : Choice} (hs : Sound w) (hg : guard call c w)
    (hw : Single w) (ho : OrderlyTo w (perform call c o w).1) :
    Single (perform call c o w).1 := by
  cases c with
  | insertAuthState authState =>
    simp only [perform]
    split
    · exact hw
    · refine ⟨hw.issued, hw.consumed, fun row hm ha ↦ ?_⟩
      rcases List.mem_cons.mp hm with rfl | hm
      · rw [hg.1] at ha
        cases ha
      · exact hw.spent row hm ha
  | findAuthState state =>
    simp only [perform]
    split
    · exact hw.note (by simp [Event.Issues]) (by simp)
    · exact hw
  | saveAuthState authState =>
    simp only [perform]
    split
    · exact (hw.save hs hg).note (by simp [Event.Issues]) (by simp)
    · exact hw.save hs hg
  | exchange provider authState code =>
    cases code with
    | none => exact hw
    | some code =>
      simp only [perform]
      split
      · exact hw
      · exact ⟨hw.issued, hw.consumed, hw.spent⟩
  | generateToken authState userGuid =>
    exact hw.issue ((orderlyTo_note rfl ho).unissued hs hg.1 hg.2)
  | consume code deviceId deviceUuid now =>
    simp only [perform]
    split
    · exact hw
    · next hcount =>
      obtain ⟨row, hm, hp⟩ := List.countP_pos_iff.mp (Nat.pos_of_ne_zero hcount)
      have hrow := hp
      simp only [isConsumable, isPolled, Bool.and_eq_true, decide_eq_true_eq] at hrow
      exact hw.consume hs hm hp hrow.1.2 hrow.1.1.1.1
  | removeAuthState authState => exact hw.removeWhere _
  | respond authState accessToken => exact hw.note (by simp [Event.Issues]) (by simp)
  | deleteExpired now => exact hw.removeWhere _
  | deleteStale => exact hw.removeWhere _
  | _ => exact hw

theorem exec_single {c : Command} {o : Choice} (hs : Sound w) (hg : guard call c w)
    (hw : Single w) (ho : OrderlyTo w (exec call c o w).1) : Single (exec call c o w).1 := by
  rw [exec] at ho ⊢
  split at ho
  · exact hw
  · exact perform_single hs hg hw ho

theorem orderlyTo_of_once (hd : DeliveredOnce w') : OrderlyTo w w' := by
  intro c event hh
  cases event with
  | issued guid token =>
    have honce := hd.issued guid
    rw [hh] at honce
    intro other token' _ hm
    exact absurd ⟨token', rfl⟩ ((unfollowed_cons.mp honce).1 ⟨token, rfl⟩ _ hm)
  | _ => trivial

end Steps

section Runs

/-- No login has been started yet. -/
structure Starts (w : World) : Prop where
  authStates : w.authStates = []
  drawn : w.drawn = []
  history : w.history = []

theorem Starts.sound (h₀ : Starts w) : Sound w := by
  obtain ⟨authStates, drawn, accepted, history⟩ := w
  obtain ⟨rfl, rfl, rfl⟩ := h₀
  exact ⟨.nil, .nil, .nil, by simp, lawful_nil⟩

theorem Starts.single (h₀ : Starts w) : Single w := by
  obtain ⟨authStates, drawn, accepted, history⟩ := w
  obtain ⟨rfl, rfl, rfl⟩ := h₀
  refine ⟨fun _ ↦ .of_not_mem ?_, fun _ ↦ .of_not_mem ?_, ?_⟩ <;> simp

theorem step_single (hv : logic.Verified cfg) (hw : Single cfg.world)
    (hs : machine.Step cfg cfg') (ho : OrderlyStep cfg cfg') : Single cfg'.world := by
  rw [OrderlyStep] at ho
  rcases Logic.Leaves.step_cases hv hs with heq | ⟨call, c, o, hg, heq⟩
  · rw [heq]
    exact hw
  · rw [heq] at ho ⊢
    exact exec_single hv.1 hg hw ho

/-- In an orderly run each login has one result, delivered at most once, and a
further step keeps it so if and only if it is orderly. -/
theorem login_delivered_once (h₀ : Starts w₀)
    (hr : machine.RunWhere OrderlyStep (Machine.idle w₀) cfg) :
    DeliveredOnce cfg.world ∧
      ∀ cfg', machine.Step cfg cfg' → (DeliveredOnce cfg'.world ↔ OrderlyStep cfg cfg') := by
  have hv {cfg : Config Call Command Reply World} (hrun : machine.Run (Machine.idle w₀) cfg) :
      logic.Verified cfg := (Logic.verified_idle h₀.sound).run admissible hrun
  have hw : Single cfg.world := by
    induction hr with
    | refl => exact h₀.single
    | tail hrun hs ih => exact step_single (hv (Machine.RunWhere.run hrun)) ih hs.1 hs.2
  refine ⟨hw.deliveredOnce (hv hr.run).1, fun cfg' hs ↦ ⟨orderlyTo_of_once, fun ho ↦ ?_⟩⟩
  exact (step_single (hv hr.run) hw hs ho).deliveredOnce (hv (hr.run.tail hs)).1

end Runs

section Sample

/-- No token has been issued before for the state that a token is issued for. -/
def orderlyStep (w w' : World) : Bool :=
  w'.history = w.history || match w'.history with
    | (_, .issued guid _) :: _ => w.history.all fun e ↦ match e.2 with
      | .issued guid' _ => guid' ≠ guid
      | _ => true
    | _ => true

theorem orderlyStep_iff (cfg cfg' : Config Call Command Reply World)
    (h : orderlyStep cfg.world cfg'.world = true) : OrderlyStep cfg cfg' := by
  intro call event hh
  rw [orderlyStep, hh, decide_eq_false (List.cons_ne_self _ _), Bool.false_or] at h
  cases event with
  | issued guid token =>
    intro other token' _ hm
    have hne := List.all_eq_true.mp h _ hm
    simp at hne
  | _ => trivial

def sampleFresh (call : Call) (w : World) : Bool := w.history.all fun e ↦ decide (e.1 ≠ call)

theorem sampleFresh_admits (call : Call) (w : World) (h : sampleFresh call w = true) :
    machine.admits call w (handler call) := by
  refine ⟨fun event hm ↦ ?_, rfl⟩
  have hne := List.all_eq_true.mp h _ hm
  simp at hne

def sampleProvider : Oidc.OidcProvider :=
  ⟨"p", "staff", .oidc, "https://login", "console", none, none, none, none, none, none, none, true⟩

def sampleUser : Accounts.User :=
  ⟨"u", "user", none, none, none, none, .active, false, none, none, none, none, none, none⟩

def sampleChoice (text : String) : Choice where
  outcome := .ok ()
  now := 0
  text := text
  flag := true
  provider := some sampleProvider
  userInfo := .ok ⟨"s", none, false, none, none, none⟩
  user := sampleUser
  userRow := some sampleUser
  stale := []

def sampleWorld : World := ⟨[], [], [], []⟩

theorem starts_sample : Starts sampleWorld := ⟨rfl, rfl, rfl⟩

def sampleRun (turns : List (Call × List String)) : Config Call Command Reply World :=
  machine.schedule handler sampleFresh (turns.map fun t ↦ (t.1, t.2.map sampleChoice))
    (Machine.idle sampleWorld)

def sampleAuth : Call := ⟨0, .requestAuth ⟨"oidc/staff", some "1", some "2", "{}", none⟩⟩

def sampleCallback (id : ℕ) (code : String) : Call :=
  ⟨id, .callback (some "state") none (some code)⟩

def samplePoll (id : ℕ) : Call := ⟨id, .queryAuth "code" "1" "2"⟩

/-- The texts that are drawn while a login is started. -/
def sampleTexts : List String := ["", "code", "", "state", "", "", "", "guid", ""]

/-- A second callback with another code overtakes a poll. -/
def sampleOnce : Config Call Command Reply World := sampleRun [(sampleAuth, sampleTexts),
  (sampleCallback 1 "a", List.replicate 8 "token"), (samplePoll 2, ["", ""]),
  (sampleCallback 3 "b", List.replicate 8 "other"), (samplePoll 2, List.replicate 4 "")]

theorem sample_delivered_once : DeliveredOnce sampleOnce.world ∧
    (samplePoll 2, .delivered "guid" "token") ∈ sampleOnce.world.history :=
  ⟨(login_delivered_once starts_sample (Machine.schedule_runWhere orderlyStep_iff
    (fun _ ↦ by simp [orderlyStep]) sampleFresh_admits _ (by decide +kernel))).1,
    by decide +kernel⟩

/-- Two callbacks with different codes find the same state pending. -/
def sampleTwice : Config Call Command Reply World := sampleRun [(sampleAuth, sampleTexts),
  (sampleCallback 1 "a", List.replicate 3 ""), (sampleCallback 2 "b", List.replicate 8 "other"),
  (samplePoll 3, List.replicate 6 ""), (sampleCallback 1 "a", List.replicate 5 "token"),
  (samplePoll 4, List.replicate 6 "")]

theorem login_delivered_twice : ¬ ∀ w₀ cfg, Starts w₀ → machine.Run (Machine.idle w₀) cfg →
    DeliveredOnce cfg.world := by
  intro hall
  have honce := hall sampleWorld sampleTwice starts_sample
    (Machine.schedule_run sampleFresh_admits _)
  have hfirst : (samplePoll 3, .delivered "guid" "other") ∈ sampleTwice.world.history := by
    decide +kernel
  have hsecond : (samplePoll 4, .delivered "guid" "token") ∈ sampleTwice.world.history := by
    decide +kernel
  have heq := (honce.delivered "guid").eq hfirst hsecond ⟨_, rfl⟩ ⟨_, rfl⟩
  exact absurd heq (by decide)

end Sample

end RustdeskConsole.OidcLogins
