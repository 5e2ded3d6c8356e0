import RustdeskConsole.Gateway.ServiceSpec

namespace RustdeskConsole.Gateway

open Effects Effects.History Effects.Guard Handler WebClientSessionService WebClientGateway WebClient

variable {runtime : Runtime} {call : Call} {w : World} {s : Locals} {α : Type}

section Relay

theorem activate_cases (w : World) (call : Call) (now : ℕ) (guid : String) :
    (∃ failure, w.activate call now guid = (w, .error failure)) ∨
    ∃ w', w.activate call now guid = (w', .ok ()) ∧
      w'.history = (call, .activated guid) :: w.history := by
  unfold World.activate
  split
  · exact .inl ⟨_, rfl⟩
  · exact .inr ⟨_, rfl, rfl⟩

/-- The relay opens only after its audit was written, and that is written once. -/
theorem markRelayOpen_ensures {guid : String} {P : Event → Prop} {Q : Unit → Locals → World → Prop}
    {E : Failure → Locals → World → Prop} (hcalm : ∀ e, e.Calm → P e)
    (hopened : P (.recorded guid .gatewayOpen)) (hactivated : P (.activated guid))
    (ho : Own call P w.history) (hopening : Opening w.history call guid)
    (hnone : (call, .recorded guid .gatewayOpen) ∉ w.history)
    (hq : ∀ w' : World, Own call P w'.history → w.history <:+ w'.history →
      Activated w'.history guid → Q () s w')
    (he : ∀ failure (w' : World), Own call P w'.history → w.history <:+ w'.history →
      E failure s w') :
    (logic runtime).Ensures call (markRelayOpen guid) Q E s w := by
  have hfail : ∀ failure w', Still call w.history w'.history → E failure s w' :=
    fun failure w' h ↦ he failure w' (ho.still h hcalm) h.suffix
  refine .bind (calm_ensures (fun _ ↦ rfl) (fun _ ↦ trivial) fun w₁ session h₁ _ ↦ ?_)
  rcases session with failure | session
  · exact hfail failure w₁ h₁
  refine .bind (Quiet.ensures ensureValid_quiet (fun _ w₂ h₂ ↦ ?_) fun failure w₂ h₂ ↦
    hfail failure w₂ (h₁.trans h₂))
  refine .bind (calm_ensures (fun _ ↦ rfl) (fun _ ↦ trivial) fun w₃ lifecycle h₃ _ ↦ ?_)
  have hstill : Still call w.history w₃.history := (h₁.trans h₂).trans h₃
  rcases lifecycle with failure | _
  · exact hfail failure w₃ hstill
  refine .bind (.tryCatch (record_ensures (fun w' hr ↦ ?_) fun w₄ w₅ result h₄ h₅ ↦ ?_))
  · have hs' := hstill.trans (.of_others hr)
    refine ⟨hopening.mono hs'.suffix, hs'.not_mem hnone fun hc ↦ ?_⟩
    cases hc rfl
  · have hs₄ : Still call w.history w₄.history := hstill.trans (.of_others h₄)
    have hs₅ : Still call ((call, .recorded guid .gatewayOpen) :: w₄.history) w₅.history :=
      h₅.mono fun e hx _ ↦ Event.calm_of_expiring hx.2
    have ho₅ : Own call P w₅.history := ((ho.still hs₄ hcalm).note hopened).still hs₅ hcalm
    have hsuf₅ : w.history <:+ w₅.history := (hs₄.suffix.trans (List.suffix_cons ..)).trans h₅.suffix
    rcases result with failure | _
    · refine .bind (Quiet.ensures closeGrant_quiet (fun _ w₆ h₆ ↦ .throw ?_) fun failure w₆ h₆ ↦ ?_)
      · exact he _ w₆ (ho₅.still h₆ hcalm) (hsuf₅.trans h₆.suffix)
      · exact he failure w₆ (ho₅.still h₆ hcalm) (hsuf₅.trans h₆.suffix)
    · refine .invoke fun w₆ h₆ _ ↦ ⟨h₆.mem (h₅.mem (.head _)), fun o w₇ r hx _ ↦ ?_⟩
      have ho₆ := ho₅.others h₆
      rcases activate_cases w₆ call o.now guid with ⟨failure, hc⟩ | ⟨w', hc, hh⟩
      · obtain ⟨rfl, rfl⟩ := Prod.mk.inj (hc.symm.trans (map_some_inj hx))
        exact he failure w₆ ho₆ (hsuf₅.trans h₆.suffix)
      · obtain ⟨rfl, rfl⟩ := Prod.mk.inj (hc.symm.trans (map_some_inj hx))
        refine hq w' (hh ▸ ho₆.note hactivated) ?_ ⟨call, hh ▸ .head _⟩
        rw [hh]
        exact (hsuf₅.trans h₆.suffix).trans (List.suffix_cons ..)

end Relay

section Channel

variable {channel : ℕ}

/-- What a call leaves before it forwards the first frame of its channel. -/
def Event.Preparing (e : Event) : Prop :=
  e.Calm ∨ (∃ channel bytes, e = .validated channel bytes) ∨ (∃ guid, e = .recorded guid .gatewayOpen) ∨
    ∃ guid, e = .activated guid

def Event.Serving (e : Event) : Prop := e.Preparing ∨ ∃ channel bytes, e = .toUpstream channel bytes

theorem Event.not_preparing (channel : ℕ) (bytes : List UInt8) :
    ¬(Event.toUpstream channel bytes).Preparing := by
  rintro (hc | ⟨_, _, heq⟩ | ⟨_, heq⟩ | ⟨_, heq⟩)
  · cases hc
  all_goals cases heq

theorem Discharged.of_serving {h : History} (ho : Own call Event.Serving h) : Discharged call h := by
  refine ⟨fun user hm ↦ ?_, fun channel value claim hm _ ↦ ?_⟩
  · rcases ho _ hm with (hc | ⟨_, _, heq⟩ | ⟨_, heq⟩ | ⟨_, heq⟩) | ⟨_, _, heq⟩
    · cases hc
    all_goals cases heq
  · rcases ho _ hm with (hc | ⟨_, _, heq⟩ | ⟨_, heq⟩ | ⟨_, heq⟩) | ⟨_, _, heq⟩
    · cases hc
    all_goals cases heq

/-- What `openUpstream` leaves to its last step. -/
def Served (call : Call) (closed : List Closed) (h : History) : Prop :=
  Own call Event.Serving h ∧ Owes call closed h

theorem proceed_ensures {stage : Stage} {request : List UInt8} {claim : GatewayClaim}
    (hv : (call, .validated channel request) ∈ w.history) (ho : Own call Event.Preparing w.history)
    (hclaim : Claimed w.history channel claim)
    (hphase : match claim.phase with
      | .rendezvous => stage = .reply
      | .relay => stage = .opaqueData ∧ Activated w.history claim.sessionGuid) :
    (logic runtime).Ensures call (ask (.proceed channel stage request))
      (fun closed s' w' ↦ s' = s ∧ Served call closed w'.history)
      (fun _ s' w' ↦ s' = s ∧ Own call Event.Serving w'.history) s w := by
  refine .invoke fun w₁ h₁ hi ↦ ?_
  have ho₁ := ho.others h₁
  have hg : guard runtime call (.proceed channel stage request) w₁ := by
    refine ⟨h₁.mem hv, fun ch bytes hm ↦ Event.not_preparing ch bytes (ho₁ _ hm), claim,
      hclaim.mono h₁.suffix, ?_⟩
    cases hp : claim.phase with
    | rendezvous =>
      rw [hp] at hphase
      exact hphase
    | relay =>
      rw [hp] at hphase
      exact ⟨hphase.1, hphase.2.mono h₁.suffix⟩
  refine ⟨hg, fun o w₂ closed hx hi₂ ↦ ?_⟩
  have hk := exec_keeps _ o hi.1 hi.2 hg
  rw [show exec runtime call (.proceed channel stage request) o w₁ = (w₂, some closed) from hx] at hk
  refine ⟨rfl, (ho₁.mono fun _ ↦ .inl).grow (hk.adds.mono fun e he _ ↦ ?_),
    .of_handed hi₂.1.lawful (hk.handed closed rfl)⟩
  rcases he.2 with hm | hc
  · rcases e with ⟨_, e⟩
    cases e with
    | toUpstream ch bytes => exact .inr ⟨ch, bytes, rfl⟩
    | _ => cases hm
  · exact .inl (.inl hc)

theorem upstream_ensures {request : List UInt8} (hv : (call, .validated channel request) ∈ w.history)
    (ho : Own call (fun e ↦ e.Calm ∨ ∃ channel bytes, e = .validated channel bytes) w.history) :
    (logic runtime).Ensures call (upstream channel request)
      (fun closed s' w' ↦ s' = s ∧ Served call closed w'.history)
      (fun _ s' w' ↦ s' = s ∧ Own call Event.Serving w'.history) s w := by
  have hserving : ∀ {w' : World}, Still call w.history w'.history →
      Own call Event.Serving w'.history := fun h ↦
    (ho.still h fun _ ↦ .inl).mono fun _ he ↦ .inl (he.imp_right .inl)
  refine .bind (read_ensures (fun _ _ ↦ rfl) (fun _ ↦ trivial) fun w₁ o h₁ hs₁ ↦ ?_)
  cases hreq : require ((w₁.sockets channel).bind (·.claim))
    (Failure.error "Cannot read properties of undefined") with
  | error failure => exact ⟨rfl, hserving h₁⟩
  | ok claim =>
    have hclaim : Claimed w₁.history channel claim := by
      obtain ⟨socket, hsock, hc⟩ := Option.bind_eq_some_iff.mp (require_eq_ok.mp hreq)
      exact ((hs₁.switchboard.traffic channel socket hsock).claim claim).mp hc
    refine .bind (Quiet.ensures ensureValid_quiet (fun _ w₂ h₂ ↦ ?_) fun _ w₂ h₂ ↦
      ⟨rfl, hserving (h₁.trans h₂)⟩)
    refine .bind (calm_ensures (fun _ ↦ rfl) (fun _ ↦ trivial) fun w₃ stopped h₃ _ ↦ ?_)
    have hs₃ := (h₁.trans h₂).trans h₃
    cases stopped with
    | true => exact .pure ⟨rfl, hserving hs₃, .nil⟩
    | false =>
      refine .bind (calm_ensures (fun _ ↦ rfl) (fun _ ↦ trivial) fun w₄ connected h₄ _ ↦ ?_)
      have hs₄ := hs₃.trans h₄
      rcases connected with _ | _
      · exact ⟨rfl, hserving hs₄⟩
      refine .bind (calm_ensures (fun _ ↦ rfl) (fun _ ↦ trivial) fun w₅ opened h₅ _ ↦ ?_)
      have hs₅ := hs₄.trans h₅
      rcases opened with _ | _
      · exact ⟨rfl, hserving hs₅⟩
      refine .bind (calm_ensures (fun _ ↦ rfl) (fun _ ↦ trivial) fun w₆ stopped h₆ _ ↦ ?_)
      have hs₆ := hs₅.trans h₆
      cases stopped with
      | true => exact .pure ⟨rfl, hserving hs₆, .nil⟩
      | false =>
        have ho₆ := ho.still hs₆ fun _ ↦ .inl
        have hprep : Own call Event.Preparing w₆.history := ho₆.mono fun _ he ↦ he.imp_right .inl
        have hclaim₆ := hclaim.mono (h₂.trans (h₃.trans (h₄.trans (h₅.trans h₆)))).suffix
        have hv₆ := hs₆.mem hv
        cases hp : claim.phase with
        | rendezvous => exact proceed_ensures hv₆ hprep hclaim₆ (by rw [hp])
        | relay =>
          refine .bind (markRelayOpen_ensures (P := Event.Preparing) (fun _ ↦ .inl)
            (.inr (.inr (.inl ⟨_, rfl⟩))) (.inr (.inr (.inr ⟨_, rfl⟩))) hprep
            ⟨channel, request, claim, hv₆, hclaim₆, hp, rfl⟩ (fun hm ↦ ?_)
            (fun w₇ ho₇ hsuf ha ↦ ?_) fun _ w₇ ho₇ _ ↦ ⟨rfl, ho₇.mono fun _ ↦ .inl⟩)
          · rcases ho₆ _ hm with hc | ⟨_, _, heq⟩
            · cases hc
            · cases heq
          · exact proceed_ensures (hsuf.subset hv₆) ho₇ (hclaim₆.mono hsuf) (by
              rw [hp]
              exact ⟨rfl, ha⟩)

theorem openUpstream_ensures {request : List UInt8}
    (hv : (call, .validated channel request) ∈ w.history)
    (ho : Own call (fun e ↦ e.Calm ∨ ∃ channel bytes, e = .validated channel bytes) w.history) :
    (logic runtime).Ensures call (openUpstream channel request)
      (fun _ _ w' ↦ Own call Event.Serving w'.history)
      (fun _ _ w' ↦ Own call Event.Serving w'.history) s w := by
  have hlast : ∀ {closed w'} s', Served call closed w'.history →
      (logic runtime).Ensures call (persistTerminations none closed)
        (fun _ _ w' ↦ Own call Event.Serving w'.history)
        (fun _ _ w' ↦ Own call Event.Serving w'.history) s' w' := by
    intro closed w' s' hs
    exact (persistTerminations_ensures hs.2).mono
      (fun _ _ _ h ↦ hs.1.still h.2 fun _ hc ↦ .inl (.inl hc)) fun _ _ _ h ↦
        hs.1.still h.2 fun _ hc ↦ .inl (.inl hc)
  refine .bind (.tryCatch ((upstream_ensures hv ho).mono (fun closed s' w' h ↦ hlast s' h.2)
    fun failure s' w₁ h ↦ ?_))
  refine calm_ensures (fun _ ↦ rfl) (fun _ ↦ trivial) fun w₂ closed h₂ howes ↦ ?_
  exact hlast s' ⟨h.2.still h₂ fun _ hc ↦ .inl (.inl hc), howes⟩

theorem Discharged.still {h h' : History} (hd : Discharged call h) (hs : Still call h h') :
    Discharged call h' := by
  refine ⟨fun user hm ↦ ?_, fun ch value claim ha hc ↦ ?_⟩
  · rcases hs.new _ hm with hm | hcalm
    · exact hs.mem (hd.released user hm)
    · cases hcalm rfl
  · rcases hs.new _ ha with ha | hcalm
    · rcases hs.new _ hc with hc | hcalm
      · exact hs.mem (hd.obtained ch value claim ha hc)
      · cases hcalm rfl
    · cases hcalm rfl

/-- What a call that presents a ticket leaves before it has the claim. -/
def Event.Presenting (channel : ℕ) (e : Event) : Prop :=
  e.Calm ∨ (∃ hash ticket, e = .taken hash ticket) ∨ e = .admitted channel

theorem Event.Presenting.discharged {h : History} (ho : Own call (Event.Presenting channel) h) :
    Discharged call h := by
  refine ⟨fun user hm ↦ ?_, fun ch value claim _ hm ↦ ?_⟩
  · rcases ho _ hm with hc | ⟨_, _, heq⟩ | heq
    · cases hc
    all_goals cases heq
  · rcases ho _ hm with hc | ⟨_, _, heq⟩ | heq
    · cases hc
    all_goals cases heq

/-- The claim of the ticket goes to the channel that presented it. -/
theorem authorized_ensures {claim : GatewayClaim} {value : String} {earlier : History}
    (ha : (call, .admitted channel) ∈ w.history)
    (ho : Own call (Event.Presenting channel) earlier)
    (hh : w.history = (call, .consumed value claim) :: earlier) :
    (logic runtime).Ensures call (finish (.authorized channel claim) id)
      (fun _ _ w' ↦ Discharged call w'.history) (fun _ _ w' ↦ Discharged call w'.history) s w := by
  have hown : Own call (fun e ↦ e.Presenting channel ∨ e = .consumed value claim) w.history :=
    hh ▸ (ho.mono fun _ ↦ .inl).note (.inr rfl)
  refine .bind (.invoke fun w₁ h₁ hi ↦ ?_)
  have hown₁ := hown.others h₁
  have hg : guard runtime call (.authorized channel claim) w₁ := by
    refine ⟨h₁.mem ha, ⟨value, h₁.mem (hh ▸ .head _)⟩, fun ch k hm ↦ ?_⟩
    rcases hown₁ _ hm with (hc | ⟨_, _, heq⟩ | heq) | heq
    · cases hc
    all_goals cases heq
  refine ⟨hg, fun o w₂ closed hx hi₂ ↦ ?_⟩
  have hk := exec_keeps _ o hi.1 hi.2 hg
  have hclaimed := (hi.1.authorized o.now hg).2.2
  have hres : w₁.authorized call channel o.now claim = (w₂, closed) := map_some_inj hx
  rw [hres] at hclaimed
  rw [show exec runtime call (.authorized channel claim) o w₁ = (w₂, some closed) from hx] at hk
  have hdone : Discharged call w₂.history := by
    have hown₂ : Own call (fun e ↦ (e.Presenting channel ∨ e = .consumed value claim) ∨
        ∃ ch k, e = .claimed ch k) w₂.history := by
      refine (hown₁.mono fun _ ↦ .inl).grow (hk.adds.mono fun e he _ ↦ ?_)
      rcases he.2 with hm | hc
      · rcases e with ⟨_, e⟩
        cases e with
        | claimed ch k => exact .inr ⟨ch, k, rfl⟩
        | _ => cases hm
      · exact .inl (.inl (.inl hc))
    refine ⟨fun user hm ↦ ?_, fun ch v k hma hmc ↦ ?_⟩
    · rcases hown₂ _ hm with ((hc | ⟨_, _, heq⟩ | heq) | heq) | ⟨_, _, heq⟩
      · cases hc
      all_goals cases heq
    · rcases hown₂ _ hma with ((hc | ⟨_, _, heq⟩ | heq) | heq) | ⟨_, _, heq⟩
      · cases hc
      · cases heq
      · obtain rfl := Event.admitted.inj heq
        rcases hown₂ _ hmc with ((hc | ⟨_, _, heq'⟩ | heq') | heq') | ⟨_, _, heq'⟩
        · cases hc
        · cases heq'
        · cases heq'
        · obtain ⟨-, rfl⟩ := Event.consumed.inj heq'
          exact hclaimed
        · cases heq'
      · cases heq
      · cases heq
  exact (persistTerminations_ensures (.of_handed hi₂.1.lawful (hk.handed closed rfl))).mono
    (fun _ _ _ h ↦ hdone.still h.2) fun _ _ _ h ↦ hdone.still h.2

theorem authorize_ensures {ticket : String} (ha : (call, .admitted channel) ∈ w.history)
    (ho : Own call (Event.Presenting channel) w.history) :
    (logic runtime).Ensures call (authorize channel ticket)
      (fun _ _ w' ↦ Discharged call w'.history) (fun _ _ w' ↦ Discharged call w'.history) s w := by
  refine .bind (.tryCatch (.bind (consumeTicket_ensures (P := Event.Presenting channel)
    (fun _ ↦ .inl) (fun hash ticket ↦ .inr (.inl ⟨hash, ticket, rfl⟩)) ?_ ho
    (fun claim w₁ earlier hh ho₁ hsuf _ ↦ ?_) fun failure w₁ ho₁ _ ↦ ?_)))
  · rintro v k (hc | ⟨_, _, heq⟩ | heq)
    · cases hc
    all_goals cases heq
  · exact .pure (authorized_ensures (hh ▸ .tail _ (hsuf.subset ha)) ho₁ hh)
  · refine .pure (Quiet.ensures (finish_quiet (fun _ ↦ rfl) (fun _ ↦ trivial) fun _ ↦ rfl)
      (fun _ w₂ h₂ ↦ ?_) fun _ w₂ h₂ ↦ ?_)
    · exact Event.Presenting.discharged (ho₁.still h₂ fun _ ↦ .inl)
    · exact Event.Presenting.discharged (ho₁.still h₂ fun _ ↦ .inl)

/-- What each outcome of a frame leaves in the history. -/
def Received.Leaves (call : Call) (channel : ℕ) (bytes : List UInt8) (h h' : History) :
    Received → Prop
  | .handled _ => Adds (fun e ↦ e.1 = call ∧ (e.2.Calm ∨ ∃ bytes, e.2 = .toUpstream channel bytes)) h h'
  | .authorize _ => h' = (call, .admitted channel) :: h
  | .openUpstream => h' = (call, .validated channel bytes) :: h

theorem receive_leaves (hs : Sound runtime none w) (call : Call) (channel : ℕ) (bytes : List UInt8)
    (binary room : Bool) :
    (w.receive call channel bytes binary room).2.Leaves call channel bytes w.history
      (w.receive call channel bytes binary room).1.history := by
  have hrefuse : ∀ reason, Adds (fun e ↦ e.1 = call ∧
      (e.2.Calm ∨ ∃ bytes, e.2 = .toUpstream channel bytes)) w.history
      (w.refuse call channel reason).1.history :=
    fun reason ↦ (hs.refuse call channel reason).2.adds.mono fun _ he ↦ ⟨he.1, .inl he.2⟩
  unfold World.receive
  split
  · exact .refl _
  · dsimp only
    split
    · exact .refl _
    · split
      · exact hrefuse _
      · split
        · split
          · exact hrefuse _
          · split
            · exact hrefuse _
            · rfl
        · exact hrefuse _
        · exact hrefuse _
        · exact hrefuse _
        · split
          · split
            · exact hrefuse _
            · rfl
          · exact hrefuse _
        · split
          · unfold World.forward
            split
            · exact (Adds.refl _).cons ⟨rfl, .inr ⟨bytes, rfl⟩⟩
            · exact hrefuse _
          · exact hrefuse _

theorem receive_ensures {bytes : List UInt8} {binary : Bool} (ho : Own call Event.Calm w.history) :
    (logic runtime).Ensures call (WebClientGateway.receive channel bytes binary)
      (fun _ _ w' ↦ Discharged call w'.history) (fun _ _ w' ↦ Discharged call w'.history) s w := by
  refine .bind (.invoke fun w₁ h₁ hi ↦ ?_)
  have ho₁ := ho.others h₁
  have hg : ∀ ch, (call, .admitted ch) ∉ w₁.history := by
    intro ch hm
    cases ho₁ _ hm
  refine ⟨hg, fun o w₂ r hx hi₂ ↦ ?_⟩
  have hk := exec_keeps (.receive channel bytes binary) o hi.1 hi.2 hg
  rw [show exec runtime call (.receive channel bytes binary) o w₁ = (w₂, some r) from hx] at hk
  have hleaves := receive_leaves hi.1 call channel bytes binary o.room
  have hres : w₁.receive call channel bytes binary o.room = (w₂, r) := map_some_inj hx
  rw [hres] at hleaves
  cases r with
  | handled closed =>
    have ho₂ : Own call Event.Serving w₂.history := by
      refine (ho₁.mono fun _ hc ↦ .inl (.inl hc)).grow (Adds.mono hleaves fun e he _ ↦ ?_)
      exact he.2.imp .inl fun ⟨bytes, heq⟩ ↦ ⟨channel, bytes, heq⟩
    exact (persistTerminations_ensures (.of_handed hi₂.1.lawful (hk.handed _ rfl))).mono
      (fun _ _ _ h ↦ (Discharged.of_serving ho₂).still h.2)
      fun _ _ _ h ↦ (Discharged.of_serving ho₂).still h.2
  | authorize ticket =>
    have hh : w₂.history = (call, .admitted channel) :: w₁.history := hleaves
    exact authorize_ensures (hh ▸ .head _) (hh ▸ (ho₁.mono fun _ ↦ .inl).note (.inr (.inr rfl)))
  | openUpstream =>
    have hh : w₂.history = (call, .validated channel bytes) :: w₁.history := hleaves
    exact (openUpstream_ensures (hh ▸ .head _) (hh ▸ (ho₁.mono fun _ ↦ .inl).note
      (.inr ⟨channel, bytes, rfl⟩))).mono (fun _ _ _ h ↦ .of_serving h) fun _ _ _ h ↦ .of_serving h

end Channel

section Serve

theorem ignore_ensures {p : Handler α} {Q : World → Prop}
    (hp : (logic runtime).Ensures call p (fun _ _ w' ↦ Q w') (fun _ _ w' ↦ Q w') s w) :
    (logic runtime).Ensures call (ignore p) (fun _ _ w' ↦ Q w') (fun _ _ w' ↦ Q w') s w :=
  .bind (hp.mono (fun _ _ _ h ↦ .pure h) fun _ _ _ h ↦ h)

theorem Quiet.discharged {p : Handler Unit} (hp : Quiet runtime call p)
    (ho : Own call Event.Calm w.history) : (logic runtime).Ensures call p
      (fun _ _ w' ↦ Discharged call w'.history) (fun _ _ w' ↦ Discharged call w'.history) s w :=
  hp.ensures (fun _ _ h ↦ .of_calm (ho.still h fun _ ↦ id)) fun _ _ h ↦ .of_calm (ho.still h fun _ ↦ id)

theorem Discharged.of_own {h : History} {P : Event → Prop} (ho : Own call P h)
    (hr : ∀ user, ¬P (.reserved user)) (ha : ∀ channel, ¬P (.admitted channel)) :
    Discharged call h :=
  ⟨fun user hm ↦ absurd (ho _ hm) (hr user), fun channel _ _ hm _ ↦ absurd (ho _ hm) (ha channel)⟩

/-- A single block and the termination records it leaves. -/
theorem finish_ensures {c : Command} {closed : Reply c → List Closed}
    (hg : ∀ w, guard runtime call c w) (hclosed : ∀ r, closed r = c.closed r)
    (hr : ∀ user, c.marks (.reserved user) = false) (ha : ∀ ch, c.marks (.admitted ch) = false)
    (ho : Own call Event.Calm w.history) :
    (logic runtime).Ensures call (finish c closed)
      (fun _ _ w' ↦ Discharged call w'.history) (fun _ _ w' ↦ Discharged call w'.history) s w := by
  refine .bind (.invoke fun w₁ h₁ hi ↦ ⟨hg w₁, fun o w₂ r hx hi₂ ↦ ?_⟩)
  have hk := exec_keeps c o hi.1 hi.2 (hg w₁)
  rw [show exec runtime call c o w₁ = (w₂, some r) from hx] at hk
  have ho₂ : Own call c.Leaves w₂.history :=
    ((ho.others h₁).mono fun _ ↦ .inr).grow (hk.adds.mono fun _ he _ ↦ he.2)
  have hd : Discharged call w₂.history := by
    refine .of_own ho₂ (fun user hm ↦ ?_) fun ch hm ↦ ?_
    · rcases hm with hm | hc
      · rw [hr] at hm
        cases hm
      · cases hc
    · rcases hm with hm | hc
      · rw [ha] at hm
        cases hm
      · cases hc
  have howes : Owes call (closed r) w₂.history := by
    rw [hclosed]
    exact .of_handed hi₂.1.lawful (hk.handed r rfl)
  exact (persistTerminations_ensures howes).mono (fun _ _ _ h ↦ hd.still h.2) fun _ _ _ h ↦
    hd.still h.2

theorem serve_ensures (request : Request) (ho : Own call Event.Calm w.history) :
    (logic runtime).Ensures call (serve runtime request)
      (fun _ _ w' ↦ Discharged call w'.history) (fun _ _ w' ↦ Discharged call w'.history) s w := by
  cases request with
  | create actor rawTargetId kind parentGuid =>
    exact ignore_ensures ((create_ensures ho).mono (fun _ _ _ h ↦ h.2) fun _ _ _ h ↦ h)
  | createFile actor parentGuid => exact ignore_ensures (createFile_ensures ho)
  | consumeTicket value =>
    refine ignore_ensures (consumeTicket_ensures
      (P := fun e ↦ e.Calm ∨ ∃ hash ticket, e = .taken hash ticket) (fun _ ↦ .inl)
      (fun hash ticket ↦ .inr ⟨hash, ticket, rfl⟩) ?_ (ho.mono fun _ ↦ .inl)
      (fun claim w₁ earlier hh ho₁ _ _ ↦ ?_) fun _ w₁ ho₁ _ ↦ .of_own ho₁ ?_ ?_)
    · rintro v k (hc | ⟨_, _, heq⟩)
      · cases hc
      · cases heq
    · have hown : Own call (fun e ↦ (e.Calm ∨ ∃ hash ticket, e = .taken hash ticket) ∨
          e = .consumed value claim) w₁.history := hh ▸ (ho₁.mono fun _ ↦ .inl).note (.inr rfl)
      refine .of_own hown ?_ ?_
      · rintro user ((hc | ⟨_, _, heq⟩) | heq)
        · cases hc
        all_goals cases heq
      · rintro channel ((hc | ⟨_, _, heq⟩) | heq)
        · cases hc
        all_goals cases heq
    · rintro user (hc | ⟨_, _, heq⟩)
      · cases hc
      · cases heq
    · rintro channel (hc | ⟨_, _, heq⟩)
      · cases hc
      · cases heq
  | ensureValid guid => exact ensureValid_quiet.discharged ho
  | closeGrant guid reason closedBy => exact closeGrant_quiet.discharged ho
  | report actor guid dto => exact report_quiet.discharged ho
  | requireOwnedActive actor guid => exact requireOwnedActive_quiet.discharged ho
  | endSession actor guid => exact endSession_quiet.discharged ho
  | revalidateSessions => exact revalidateSessions_quiet.discharged ho
  | browserMessage channel bytes binary => exact receive_ensures ho
  | emergencyAudit | destroySessions | browserError | browserClose | upstreamMessage | upstreamError
  | upstreamClose | sent | channelTimeout =>
    exact finish_ensures (fun _ ↦ trivial) (fun _ ↦ rfl) (fun _ ↦ rfl) (fun _ ↦ rfl) ho
  | expireRound | settle | refresh | upgrade | destroyGateway =>
    exact Quiet.discharged (.invoke (fun _ ↦ rfl) fun _ ↦ trivial) ho

theorem discharged_stable :
    (logic runtime).Stable fun call w ↦ Discharged call w.history :=
  fun _ _ _ hr hd ↦ hd.still (.of_others hr)

/-- Every call that ends has released what it reserved. -/
theorem delivers : (logic runtime).Delivers fun call w ↦ Discharged call w.history := by
  rintro call w p - ⟨hnone, rfl⟩
  refine Logic.Wp.bind (Logic.Wp.mono (serve_ensures call.request fun e hm ↦ absurd hm (hnone e)) ?_)
  rintro ⟨_ | _, _⟩ w' h <;> exact h

theorem admissible : (logic runtime).Admissible := by
  intro call w p hi ha
  exact (delivers call w p hi ha).mono fun _ _ _ ↦ trivial

end Serve

end RustdeskConsole.Gateway
