import RustdeskConsole.Gateway.Frames

namespace RustdeskConsole.Gateway

open Effects Effects.History Effects.Guard Handler WebClientSessionService WebClient

variable {runtime : Runtime} {call : Call} {w : World} {s : Locals} {α : Type}

section Records

variable {Q : Unit → Locals → World → Prop} {E : Failure → Locals → World → Prop}

/-- An audit record is on its way whether or not the database takes it in time. -/
theorem record_ensures {guid : String} {audit : Audit} {actorGuid : Option String}
    (hg : ∀ w', Adds (fun e ↦ e.1 ≠ call) w.history w'.history →
      guard runtime call (.record guid audit actorGuid) w')
    (hk : ∀ (w₁ w' : World) result, Adds (fun e ↦ e.1 ≠ call) w.history w₁.history →
      Adds (fun e ↦ e.1 = call ∧ e.2.expiring = true) ((call, .recorded guid audit) :: w₁.history)
        w'.history → Logic.Settles Q E s w' result) :
    (logic runtime).Ensures call (record guid audit actorGuid) Q E s w := by
  refine .invoke fun w₁ hr hi ↦ ⟨hg w₁ hr, fun o w₂ r he _ ↦ ?_⟩
  obtain ⟨-, -, -, ha⟩ := (hi.1.record (hg w₁ hr)).withDeadline hi.2 call o o.outcome
  obtain ⟨rfl, -⟩ := Prod.mk.inj he
  exact hk w₁ _ r hr ha

theorem record_quiet {guid : String} {audit : Audit} {actorGuid : Option String}
    (ha : audit ≠ .gatewayOpen) (hg : ∀ w, guard runtime call (.record guid audit actorGuid) w) :
    Quiet runtime call (record guid audit actorGuid) := by
  intro s w
  refine record_ensures (fun w' _ ↦ hg w') fun w₁ w' result h₁ h₂ ↦ ?_
  have hs : Still call w.history w'.history := by
    refine ((Still.of_others h₁).note (e := .recorded guid audit)
      (decide_eq_true ha)).trans (h₂.mono fun e he _ ↦ ?_)
    exact Event.calm_of_expiring he.2
  rcases result with _ | _ <;> exact ⟨rfl, hs⟩

/-- Every record it writes was handed to the call, and is written once. -/
theorem persistTerminations_ensures {closedBy : Option String} {closed : List Closed}
    (ho : Owes call closed w.history) : (logic runtime).Ensures call
      (persistTerminations closedBy closed)
      (fun _ s' w' ↦ s' = s ∧ Still call w.history w'.history)
      (fun _ s' w' ↦ s' = s ∧ Still call w.history w'.history) s w := by
  induction closed generalizing w with
  | nil => exact .pure ⟨rfl, .refl _⟩
  | cons item rest ih =>
    have hrest : ∀ w', Still call w.history w'.history → Owes call rest w'.history →
        ∀ recorded : Bool, (logic runtime).Ensures call
          (if recorded then persistTerminations closedBy rest else pure ())
          (fun _ s' w' ↦ s' = s ∧ Still call w.history w'.history)
          (fun _ s' w' ↦ s' = s ∧ Still call w.history w'.history) s w' := by
      intro w' hs ho' recorded
      cases recorded with
      | false => exact .pure ⟨rfl, hs⟩
      | true => exact (ih ho').mono (fun _ _ _ h ↦ ⟨h.1, hs.trans h.2⟩) fun _ _ _ h ↦ ⟨h.1, hs.trans h.2⟩
    refine .bind (.tryCatch (.bind (record_ensures (fun w' hr ↦ ?_) fun w₁ w' result h₁ h₂ ↦ ?_)))
    · have ho' := ho.others hr
      exact ⟨ho'.handed item (.head _), ho'.unrecorded item (.head _)⟩
    · have ho₁ := ho.others h₁
      have hnodup := List.nodup_cons.mp ho₁.nodup
      have hs : Still call w.history w'.history := by
        refine ((Still.of_others h₁).note (e := .recorded item.guid
          (.sessionEnded item.reason closedBy)) rfl).trans (h₂.mono fun e he _ ↦ ?_)
        exact Event.calm_of_expiring he.2
      have howes : Owes call rest w'.history := by
        refine ⟨hnodup.2, fun item' hm ↦ ?_, fun item' hm reason by' ↦ ?_⟩
        · exact (ho₁.handed item' (.tail _ hm)).mono ((List.suffix_cons ..).trans h₂.suffix)
        · refine h₂.not_mem (fun hr ↦ ?_) (fun he ↦ absurd he.2 (by simp [Event.expiring]))
          rcases List.mem_cons.mp hr with heq | hr
          · obtain ⟨hguid, -⟩ := Event.recorded.inj (Prod.mk.inj heq).2
            exact hnodup.1 (List.mem_map.mpr ⟨item', hm, hguid⟩)
          · exact ho₁.unrecorded item' (.tail _ hm) reason by' hr
      cases result with
      | ok _ => exact hrest w' hs howes true
      | error _ => exact hrest w' hs howes false

end Records

section Quiet

theorem closing_quiet {c : Command} {closedBy : Option String} {closed : Reply c → List Closed}
    (hc : ∀ e, c.marks e = false) (hg : ∀ w, guard runtime call c w)
    (hclosed : ∀ r, closed r = c.closed r) :
    Quiet runtime call (ask c >>= fun r ↦ persistTerminations closedBy (closed r)) := by
  intro s w
  refine .bind (calm_ensures hc hg fun w₁ r h₁ ho ↦ ?_)
  exact (persistTerminations_ensures (hclosed r ▸ ho)).mono (fun _ _ _ h ↦ ⟨h.1, h₁.trans h.2⟩)
    fun _ _ _ h ↦ ⟨h.1, h₁.trans h.2⟩

theorem closeGrant_quiet {guid : String} {reason : Reason} {closedBy : Option String} :
    Quiet runtime call (closeGrant guid reason closedBy) :=
  closing_quiet (fun _ ↦ rfl) (fun _ ↦ trivial) fun _ ↦ rfl

theorem finish_quiet {c : Command} {closed : Reply c → List Closed} (hc : ∀ e, c.marks e = false)
    (hg : ∀ w, guard runtime call c w) (hclosed : ∀ r, closed r = c.closed r) :
    Quiet runtime call (WebClientGateway.finish c closed) :=
  closing_quiet hc hg hclosed

theorem confirm_cases (w : World) (call : Call) (now : ℕ) (guid : String) (expiresAt : ℕ) :
    (∃ failure w', w.confirm call now guid expiresAt = (w', .error failure) ∧
      w'.history = w.history) ∨
    ∃ w', w.confirm call now guid expiresAt = (w', .ok ()) ∧
      w'.history = (call, .confirmed guid) :: w.history := by
  unfold World.confirm
  split
  · exact .inl ⟨_, _, rfl, rfl⟩
  · dsimp only
    split
    · exact .inl ⟨_, _, rfl, rfl⟩
    · exact .inr ⟨_, rfl, rfl⟩

/-- A session that passes was confirmed in the last block. -/
theorem ensureValid_ensures {guid : String} {Q : Unit → Locals → World → Prop}
    {E : Failure → Locals → World → Prop}
    (hq : ∀ (w' : World) earlier, Still call w.history earlier →
      w'.history = (call, .confirmed guid) :: earlier → Q () s w')
    (he : ∀ failure (w' : World), Still call w.history w'.history → E failure s w') :
    (logic runtime).Ensures call (ensureValid guid) Q E s w := by
  refine .bind (read_ensures (fun _ _ ↦ rfl) (fun _ ↦ trivial) fun w₁ o h₁ _ ↦ ?_)
  cases w₁.current o.now guid with
  | error failure => exact he failure w₁ h₁
  | ok session =>
    have hcatch : ∀ failure w', Still call w.history w'.history → (logic runtime).Ensures call
        (do
          closeGrant guid (Failure.reason failure) none
          throw failure) Q E s w' := by
      intro failure w' h'
      refine .bind (closeGrant_quiet.ensures (fun _ w'' h'' ↦ ?_) fun failure' w'' h'' ↦ ?_)
      · exact .throw (he failure w'' (h'.trans h''))
      · exact he failure' w'' (h'.trans h'')
    refine .tryCatch (.bind (calm_ensures (fun _ ↦ rfl) (fun _ ↦ trivial) fun w₂ r h₂ _ ↦ ?_))
    cases r with
    | error failure => exact hcatch failure w₂ (h₁.trans h₂)
    | ok verdict =>
      refine .invoke fun w₃ h₃ _ ↦ ⟨trivial, fun o w₄ r hx _ ↦ ?_⟩
      have hold := (h₁.trans h₂).trans (.of_others h₃)
      have hres := map_some_inj hx
      rcases confirm_cases w₃ call o.now guid verdict.2 with ⟨failure, w', hc, hh⟩ | ⟨w', hc, hh⟩
      · obtain ⟨rfl, rfl⟩ := Prod.mk.inj (hc.symm.trans hres)
        exact hcatch failure w' (hh ▸ hold)
      · obtain ⟨rfl, rfl⟩ := Prod.mk.inj (hc.symm.trans hres)
        exact hq w' w₃.history hold hh

theorem ensureValid_quiet {guid : String} : Quiet runtime call (ensureValid guid) := by
  intro s w
  refine ensureValid_ensures (fun w' earlier hs hh ↦ ⟨rfl, ?_⟩) fun _ w' hs ↦ ⟨rfl, hs⟩
  rw [hh]
  exact hs.note (e := .confirmed guid) rfl

/-- A failure of the denial's own audit is swallowed. -/
theorem recordDenied_ensures {guid actorGuid : String} {kind : Kind}
    {targetId parentGuid : Option String} {Q : Unit → Locals → World → Prop}
    {E : Failure → Locals → World → Prop}
    (hq : ∀ w' : World, Still call w.history w'.history → Q () s w') :
    (logic runtime).Ensures call
      (recordDenied guid (.requestDenied kind targetId parentGuid) actorGuid) Q E s w := by
  refine .bind (calm_ensures (fun _ ↦ rfl) (fun _ ↦ trivial) fun w₁ verifying h₁ _ ↦ ?_)
  cases verifying with
  | true => exact .pure (hq w₁ h₁)
  | false =>
    refine .tryCatch (Quiet.ensures (record_quiet nofun fun _ ↦ trivial) (fun _ w₂ h₂ ↦ ?_)
      fun _ w₂ h₂ ↦ ?_)
    · exact hq w₂ (h₁.trans h₂)
    · exact .pure (hq w₂ (h₁.trans h₂))

theorem revalidate_quiet {guids : List String} : Quiet runtime call (revalidate guids) := by
  induction guids with
  | nil => exact .pure
  | cons guid rest ih =>
    refine .bind (.invoke (fun _ ↦ rfl) fun _ ↦ trivial) fun inspection ↦ ?_
    cases inspection with
    | gone => exact ih
    | expired => exact .bind closeGrant_quiet fun _ ↦ ih
    | pendingExpired => exact .bind closeGrant_quiet fun _ ↦ ih
    | due => exact .bind (.tryCatch ensureValid_quiet fun _ ↦ .pure) fun _ ↦ ih

theorem revalidateSessions_quiet : Quiet runtime call revalidateSessions := by
  refine .bind (.invoke (fun _ ↦ rfl) fun _ ↦ trivial) fun round ↦ ?_
  cases round with
  | none => exact .pure
  | some round =>
    refine .bind (.invoke (fun _ ↦ rfl) fun _ ↦ trivial) fun guids ↦ ?_
    exact .bind revalidate_quiet fun _ ↦ .invoke (fun _ ↦ rfl) fun _ ↦ trivial

theorem report_quiet {actor : WebClientActor} {guid : String} {dto : WebClientEventDto} :
    Quiet runtime call (report actor guid dto) := by
  refine .bind (.invoke (fun _ ↦ rfl) fun _ ↦ trivial) fun session ↦ .bind ensureValid_quiet fun _ ↦ ?_
  refine .bind (.invoke (fun _ ↦ rfl) fun _ ↦ trivial) fun found ↦ .bind .assert fun _ ↦ ?_
  refine .bind .assert fun _ ↦ .bind (.invoke (fun _ ↦ rfl) fun _ ↦ trivial) fun _ ↦ ?_
  refine .bind (record_quiet nofun fun _ ↦ trivial) fun _ ↦ ?_
  exact .bind (.invoke (fun _ ↦ rfl) fun _ ↦ trivial) fun _ ↦ .pure

theorem requireOwnedActive_quiet {actor : WebClientActor} {guid : String} :
    Quiet runtime call (requireOwnedActive actor guid) := by
  refine .bind (.invoke (fun _ ↦ rfl) fun _ ↦ trivial) fun session ↦ .bind .assert fun _ ↦ ?_
  refine .bind ensureValid_quiet fun _ ↦ .bind (.invoke (fun _ ↦ rfl) fun _ ↦ trivial) fun _ ↦ ?_
  exact .assert

theorem endSession_quiet {actor : WebClientActor} {guid : String} :
    Quiet runtime call (endSession actor guid) := by
  refine .bind (.invoke (fun _ ↦ rfl) fun _ ↦ trivial) fun found ↦ ?_
  cases found with
  | none => exact .pure
  | some session =>
    dsimp only
    split
    · exact closeGrant_quiet
    · exact .bind (.invoke (fun _ ↦ rfl) fun _ ↦ trivial) fun _ ↦ closeGrant_quiet

end Quiet

section Create

variable {h h' : History} {guid user : String} {epoch : ℕ}

/-- What a call must have done when it ends: release what it reserved, and give
its channel the claim it consumed a ticket for. -/
structure Discharged (call : Call) (h : History) : Prop where
  released : ∀ user, (call, .reserved user) ∈ h → (call, .released user) ∈ h
  obtained : ∀ channel value claim, (call, .admitted channel) ∈ h →
    (call, .consumed value claim) ∈ h → (call, .claimed channel claim) ∈ h

theorem Discharged.of_calm (ho : Own call Event.Calm h) : Discharged call h := by
  refine ⟨fun user hm ↦ ?_, fun channel value claim hm _ ↦ ?_⟩
  · cases ho _ hm
  · cases ho _ hm

/-- A creation that has no reservation yet. -/
structure Fresh (call : Call) (guid : String) (epoch : ℕ) (h : History) : Prop where
  begun : (call, .begun guid epoch) ∈ h
  own : Own call (fun e ↦ e.Calm ∨ e = .begun guid epoch) h

/-- A creation that holds the reservation of its user. -/
structure Reserving (call : Call) (guid : String) (epoch : ℕ) (user : String) (h : History) :
    Prop where
  begun : (call, .begun guid epoch) ∈ h
  reserved : (call, .reserved user) ∈ h
  own : Own call (fun e ↦ e.Calm ∨ e = .begun guid epoch ∨ e = .reserved user) h

theorem Fresh.still (hf : Fresh call guid epoch h) (hs : Still call h h') :
    Fresh call guid epoch h' :=
  ⟨hs.mem hf.begun, hf.own.still hs fun _ ↦ .inl⟩

theorem Reserving.still (hr : Reserving call guid epoch user h) (hs : Still call h h') :
    Reserving call guid epoch user h' :=
  ⟨hs.mem hr.begun, hs.mem hr.reserved, hr.own.still hs fun _ ↦ .inl⟩

theorem Fresh.reserve (hf : Fresh call guid epoch h) :
    Reserving call guid epoch user ((call, .reserved user) :: h) :=
  ⟨.tail _ hf.begun, .head _, (hf.own.mono fun _ ↦ Or.imp_right .inl).note (.inr (.inr rfl))⟩

theorem Fresh.discharged (hf : Fresh call guid epoch h) : Discharged call h := by
  refine ⟨fun user hm ↦ ?_, fun channel value claim hm _ ↦ ?_⟩
  · rcases hf.own _ hm with hc | heq
    · cases hc
    · cases heq
  · rcases hf.own _ hm with hc | heq
    · cases hc
    · cases heq

namespace Reserving

theorem not_released (hr : Reserving call guid epoch user h) : (call, .released user) ∉ h := by
  intro hm
  rcases hr.own _ hm with hc | heq | heq
  · cases hc
  · cases heq
  · cases heq

theorem not_started (hr : Reserving call guid epoch user h) (session : Session) (a b : String) :
    (call, .started session a b) ∉ h := by
  intro hm
  rcases hr.own _ hm with hc | heq | heq
  · cases hc
  · cases heq
  · cases heq

/-- The release settles the call, whatever it did in between. -/
theorem discharged (hr : Reserving call guid epoch user h)
    (ha : Adds (fun e ↦ e.1 = call → (∀ user, e.2 ≠ .reserved user) ∧ ∀ channel, e.2 ≠ .admitted channel)
      h h') (hrel : (call, .released user) ∈ h') : Discharged call h' := by
  refine ⟨fun user' hm ↦ ?_, fun channel value claim hm _ ↦ ?_⟩
  · rcases ha.new _ hm with hm | hn
    · rcases hr.own _ hm with hc | heq | heq
      · cases hc
      · cases heq
      · cases heq
        exact hrel
    · exact absurd rfl ((hn rfl).1 user')
  · rcases ha.new _ hm with hm | hn
    · rcases hr.own _ hm with hc | heq | heq
      · cases hc
      · cases heq
      · cases heq
    · exact absurd rfl ((hn rfl).2 channel)

end Reserving

theorem Lineage.mono {actor : WebClientActor} {targetId : String} {parentGuid parent : Option String}
    {kind : Kind} (hl : Lineage h actor targetId parentGuid parent kind) (hs : h <:+ h') :
    Lineage h' actor targetId parentGuid parent kind := by
  cases kind with
  | desktop => exact hl
  | file =>
    obtain ⟨guid, c, s, a, b, hp, hpg, hm, hg, hk, hactor, ht, hact⟩ := hl
    exact ⟨guid, c, s, a, b, hp, hpg, hs.subset hm, hg, hk, hactor, ht, hact.mono hs⟩

theorem owned_eq_ok {now : ℕ} {actor : WebClientActor} {session : Session}
    (ho : w.owned now guid actor = .ok session) :
    w.current now guid = .ok session ∧ session.actor = actor := by
  simp only [World.owned, bind_eq_ok] at ho
  obtain ⟨found, hc, hrest⟩ := ho
  split at hrest
  · cases hrest
  · rename_i hactor
    cases hrest
    exact ⟨hc, Decidable.not_not.mp hactor⟩

/-- A session object is that of an earlier start. -/
theorem lineage_of_owned (hs : Sound runtime none w) {now : ℕ} {actor : WebClientActor}
    {parent : Session} {targetId : String} {parentGuid : Option String}
    (ho : w.owned now (parentGuid.getD "") actor = .ok parent)
    (hkind : parent.kind = .desktop) (htarget : parent.targetId = targetId)
    (hactive : parent.active = true) :
    Lineage w.history actor targetId parentGuid (some parent.guid) .file := by
  obtain ⟨hc, hactor⟩ := owned_eq_ok ho
  obtain ⟨hg, hobj, -, -⟩ := current_eq_ok hc
  have hne := hs.guid_ne_empty hg
  cases parentGuid with
  | none => exact absurd rfl hne
  | some guid =>
    rw [Option.getD_some] at hg hobj
    obtain ⟨⟨c, s, a, b, hm, hsg, hsame⟩, hact, -⟩ := hs.registry.object guid parent hobj
    exact ⟨guid, c, s, a, b, congrArg some (hsame.guid.trans hsg), rfl, hm, hsg, hsame.kind.symm.trans hkind,
      hsame.actor.symm.trans hactor, hsame.targetId.symm.trans htarget, hact.mp hactive⟩

theorem parentOf_ensures {actor : WebClientActor} {targetId : String} {kind : Kind}
    {parentGuid : Option String} {Q : Option Session → Locals → World → Prop}
    {E : Failure → Locals → World → Prop}
    (hq : ∀ parent (w' : World), Still call w.history w'.history →
      Lineage w'.history actor targetId parentGuid (parent.map (·.guid)) kind → Q parent s w')
    (he : ∀ failure (w' : World), Still call w.history w'.history → E failure s w') :
    (logic runtime).Ensures call (parentOf actor targetId kind parentGuid) Q E s w := by
  cases kind with
  | desktop =>
    refine .bind (assert_ensures (fun hnone ↦ ?_) (he _ w (.refl _)))
    exact .pure (hq none w (.refl _) (Option.isNone_iff_eq_none.mp hnone))
  | file =>
    refine .bind (read_ensures (fun _ _ ↦ rfl) (fun _ ↦ trivial) fun w₁ o h₁ hs₁ ↦ ?_)
    cases ho : w₁.owned o.now (parentGuid.getD "") actor with
    | error failure => exact he failure w₁ h₁
    | ok parent =>
      refine .bind (assert_ensures (fun hcond ↦ ?_) (he _ w₁ h₁))
      simp only [Bool.and_eq_true, decide_eq_true_eq] at hcond
      have hl := lineage_of_owned hs₁ ho hcond.1.1 hcond.1.2 hcond.2
      refine .bind (ensureValid_quiet.ensures (fun _ w₂ h₂ ↦ ?_) fun failure w₂ h₂ ↦ ?_)
      · exact .pure (hq (some parent) w₂ (h₁.trans h₂) (hl.mono h₂.suffix))
      · exact he failure w₂ (h₁.trans h₂)

theorem reserve_cases (w : World) (call : Call) (user : String) :
    (∃ failure, w.reserve call user = (w, .error failure)) ∨
      ∃ w', w.reserve call user = (w', .ok ()) ∧ w'.history = (call, .reserved user) :: w.history := by
  unfold World.reserve
  split
  · exact .inl ⟨_, rfl⟩
  · exact .inr ⟨_, rfl, rfl⟩

/-- The call has this moment started the session of the grant. -/
def Granted (call : Call) (grant : WebClientGrant) (h : History) : Prop :=
  ∃ user session a b earlier, h = (call, .released user) :: (call, .started session a b) :: earlier ∧
    session.guid = grant.sessionGuid

theorem startSession_cases {o : Choice} {session : Session} {parent : Option String} {w' : World}
    {r : Except Failure WebClientGrant}
    (he : w.startSession call runtime o session parent epoch = (w', some r)) :
    (∃ failure, r = .error failure ∧ w' = w) ∨ ∃ grant s a b, r = .ok grant ∧ w'.history =
      (call, .released session.actor.id) :: (call, .started s a b) :: w.history ∧
      s.guid = grant.sessionGuid := by
  unfold World.startSession at he
  split at he
  · obtain ⟨rfl, hr⟩ := Prod.mk.inj he
    exact .inl ⟨_, (Option.some.inj hr).symm, rfl⟩
  · dsimp only at he
    split at he
    · obtain ⟨rfl, hr⟩ := Prod.mk.inj he
      exact .inr ⟨_, _, _, _, (Option.some.inj hr).symm, rfl, rfl⟩
    · cases (Prod.mk.inj he).2

theorem establish_ensures {actor : WebClientActor} {targetId : String} {kind : Kind}
    {parentGuid : Option String} (hr : Reserving call guid epoch actor.id w.history) :
    (logic runtime).Ensures call (establish actor targetId kind parentGuid guid epoch)
      (fun grant _ w' ↦ Granted call grant w'.history ∧ Discharged call w'.history)
      (fun _ s' w' ↦ s' = s ∧ Reserving call guid epoch actor.id w'.history) s w := by
  refine .bind (calm_ensures (fun _ ↦ rfl) (fun _ ↦ trivial) fun w₁ configuration h₁ _ ↦ ?_)
  have hr₁ := hr.still h₁
  rcases configuration with _ | configuration
  · exact ⟨rfl, hr₁⟩
  refine .bind (calm_ensures (fun _ ↦ rfl) (fun _ ↦ trivial) fun w₂ profile h₂ _ ↦ ?_)
  have hr₂ := hr₁.still h₂
  rcases profile with _ | profile
  · exact ⟨rfl, hr₂⟩
  refine .bind (parentOf_ensures (fun parent w₃ h₃ hl ↦ ?_) fun _ w₃ h₃ ↦ ⟨rfl, hr₂.still h₃⟩)
  have hr₃ := hr₂.still h₃
  refine .bind (calm_ensures (fun _ ↦ rfl) (fun _ ↦ trivial) fun w₄ verdict h₄ _ ↦ ?_)
  have hr₄ := hr₃.still h₄
  rcases verdict with _ | verdict
  · exact ⟨rfl, hr₄⟩
  refine .bind (calm_ensures (fun _ ↦ rfl) (fun _ ↦ trivial) fun w₅ expiry h₅ _ ↦ ?_)
  have hr₅ := hr₄.still h₅
  refine .bind (Quiet.ensures (record_quiet nofun fun _ ↦ trivial) (fun _ w₆ h₆ ↦ ?_)
    fun _ w₆ h₆ ↦ ⟨rfl, hr₅.still h₆⟩)
  have hr₆ := hr₅.still h₆
  have hl₆ := hl.mono (h₄.trans (h₅.trans h₆)).suffix
  refine .invoke fun w₇ h₇ _ ↦ ?_
  have hr₇ := hr₆.still (.of_others h₇)
  refine ⟨⟨hr₇.begun, hr₇.not_started, hr₇.reserved, hr₇.not_released, rfl, rfl, rfl,
    hl₆.mono h₇.suffix⟩, fun o w₈ r he _ ↦ ?_⟩
  rcases startSession_cases he with ⟨failure, rfl, rfl⟩ | ⟨grant, session, a, b, rfl, hh, hg⟩
  · exact ⟨rfl, hr₇⟩
  · refine ⟨⟨actor.id, session, a, b, _, hh, hg⟩, ?_⟩
    apply hh ▸ hr₇.discharged _ (.head _)
    exact ((Adds.refl _).cons fun _ ↦ ⟨nofun, nofun⟩).cons fun _ ↦ ⟨nofun, nofun⟩

/-- The `try` block leaves its reservation to the `finally` unless it ends in a session. -/
theorem request_ensures {actor : WebClientActor} {rawTargetId : String} {kind : Kind}
    {parentGuid : Option String} (hf : Fresh call guid epoch w.history) :
    (logic runtime).Ensures call (request runtime actor rawTargetId kind parentGuid guid epoch)
      (fun grant _ w' ↦ Granted call grant w'.history ∧ Discharged call w'.history)
      (fun _ s' w' ↦ (s'.reserved = false ∧ Fresh call guid epoch w'.history) ∨
        (s'.reserved = true ∧ Reserving call guid epoch actor.id w'.history)) ⟨false, none⟩ w := by
  refine .bind (calm_ensures (fun _ ↦ rfl) (fun _ ↦ trivial) fun w₁ _ h₁ _ ↦ ?_)
  have hf₁ := hf.still h₁
  refine .bind (assert_ensures (fun _ ↦ ?_) (.inl ⟨rfl, hf₁⟩))
  refine .bind (unwrap_ensures (fun targetId ↦ ?_) fun _ ↦ .inl ⟨rfl, hf₁⟩)
  refine .bind (.modify ?_)
  refine .bind (.invoke fun w₂ hr₂ _ ↦ ?_)
  have hf₂ := hf₁.still (.of_others hr₂)
  refine ⟨fun user hm ↦ ?_, fun o w₃ r he _ ↦ ?_⟩
  · rcases hf₂.own _ hm with hc | heq
    · cases hc
    · cases heq
  · have hres := map_some_inj he
    rcases reserve_cases w₂ call actor.id with ⟨failure, hc⟩ | ⟨w', hc, hh⟩
    · obtain ⟨rfl, rfl⟩ := Prod.mk.inj (hc.symm.trans hres)
      exact .inl ⟨rfl, hf₂⟩
    · obtain ⟨rfl, rfl⟩ := Prod.mk.inj (hc.symm.trans hres)
      have hr₃ : Reserving call guid epoch actor.id w'.history := hh ▸ hf₂.reserve
      refine .bind (.modify ?_)
      exact (establish_ensures hr₃).mono (fun _ _ _ h ↦ h) fun _ _ _ h ↦ .inr ⟨h.1 ▸ rfl, h.2⟩

theorem begin_cases {o : Choice} {w' : World} {r : String × ℕ}
    (he : w.begin call o = (w', some r)) : w'.history = (call, .begun r.1 r.2) :: w.history := by
  unfold World.begin at he
  split at he
  · obtain ⟨rfl, hr⟩ := Prod.mk.inj he
    rw [← Option.some.inj hr]
    rfl
  · cases (Prod.mk.inj he).2

/-- What `create` reserved it releases, however it ends. -/
theorem create_ensures {actor : WebClientActor} {rawTargetId : String} {kind : Kind}
    {parentGuid : Option String} (ho : Own call Event.Calm w.history) :
    (logic runtime).Ensures call (create runtime actor rawTargetId kind parentGuid)
      (fun grant _ w' ↦ Granted call grant w'.history ∧ Discharged call w'.history)
      (fun _ _ w' ↦ Discharged call w'.history) s w := by
  refine .bind (.invoke fun w₁ h₁ _ ↦ ?_)
  have ho₁ := ho.others h₁
  refine ⟨fun guid epoch hm ↦ ?_, fun o w₂ r he _ ↦ ?_⟩
  · cases ho₁ _ hm
  · have hf : Fresh call r.1 r.2 w₂.history := by
      rw [begin_cases he]
      exact ⟨.head _, (ho₁.mono fun _ ↦ .inl).note (.inr rfl)⟩
    refine .bind (.set (.tryCatch ((request_ensures hf).mono (fun _ _ _ h ↦ h)
      fun failure s' w₃ h₃ ↦ ?_)))
    refine .bind (.get (.bind (recordDenied_ensures fun w₄ h₄ ↦ ?_)))
    rcases h₃ with ⟨hno, hf₃⟩ | ⟨hyes, hr₃⟩
    · rw [hno]
      exact .bind (.pure (.throw (hf₃.still h₄).discharged))
    · rw [hyes]
      have hr₄ := hr₃.still h₄
      refine .bind (.invoke fun w₅ h₅ _ ↦ ?_)
      have hr₅ := hr₄.still (.of_others h₅)
      refine ⟨⟨hr₅.reserved, hr₅.not_released⟩, fun o w₆ _ he₆ _ ↦ ?_⟩
      obtain ⟨rfl, -⟩ := Prod.mk.inj he₆
      exact .throw (hr₅.discharged ((Adds.refl _).cons fun _ ↦ ⟨nofun, nofun⟩) (.head _))

theorem createFile_ensures {actor : WebClientActor} {parentGuid : String}
    (ho : Own call Event.Calm w.history) :
    (logic runtime).Ensures call (createFile runtime actor parentGuid)
      (fun _ _ w' ↦ Discharged call w'.history) (fun _ _ w' ↦ Discharged call w'.history) s w := by
  refine .bind (.tryCatch (calm_ensures (fun _ ↦ rfl) (fun _ ↦ trivial) fun w₁ parent h₁ _ ↦ ?_))
  have ho₁ := ho.still h₁ fun _ ↦ id
  rcases parent with failure | parent
  · refine .bind (recordDenied_ensures fun w₂ h₂ ↦ ?_)
    exact .throw (.of_calm (ho₁.still h₂ fun _ ↦ id))
  · exact (create_ensures ho₁).mono (fun _ _ _ h ↦ h.2) fun _ _ _ h ↦ h

end Create

section Tickets

theorem takeTicket_cases (w : World) (call : Call) (now : ℕ) (hash : String) :
    (∃ failure w', w.takeTicket call now hash = (w', .error failure) ∧
      Adds (fun e ↦ e.1 = call ∧ ∃ ticket, e.2 = .taken hash ticket) w.history w'.history) ∨
    ∃ ticket w', w.takeTicket call now hash = (w', .ok ticket) ∧
      w'.history = (call, .taken hash ticket) :: w.history := by
  unfold World.takeTicket
  split
  · exact .inl ⟨_, _, rfl, .refl _⟩
  · rename_i ticket _
    generalize hr : (do
      refuseIf (ticket.expiresAt ≤ now) (.forbidden "Invalid or expired web client ticket")
      let session ← w.current now ticket.sessionGuid
      refuseIf (decide (ticket.phase = .relay) && (truthy session.relayUuid).isNone)
        (.forbidden "Relay has not been bound")
      pure ticket : Except Failure Ticket) = result
    cases result with
    | error failure => exact .inl ⟨_, _, rfl, (Adds.refl _).cons ⟨rfl, _, rfl⟩⟩
    | ok ticket' =>
      simp only [bind_eq_ok, pure_eq_ok] at hr
      obtain ⟨_, -, _, -, _, -, rfl⟩ := hr
      exact .inr ⟨_, _, rfl, rfl⟩

theorem claimTicket_cases (w : World) (call : Call) (now : ℕ) (value : String) (ticket : Ticket) :
    (∃ failure, w.claimTicket call now value ticket = (w, .error failure)) ∨
    ∃ claim w', w.claimTicket call now value ticket = (w', .ok claim) ∧
      w'.history = (call, .consumed value claim) :: w.history := by
  unfold World.claimTicket
  split
  · exact .inl ⟨_, rfl⟩
  · exact .inr ⟨_, _, rfl, rfl⟩

/-- A claim is that of a session that was confirmed after its ticket was taken. -/
theorem consumeTicket_ensures {value : String} {P : Event → Prop}
    {Q : GatewayClaim → Locals → World → Prop} {E : Failure → Locals → World → Prop}
    (hcalm : ∀ e, e.Calm → P e) (htaken : ∀ hash ticket, P (.taken hash ticket))
    (hnone : ∀ v k, ¬P (.consumed v k)) (ho : Own call P w.history)
    (hq : ∀ claim (w' : World) earlier, w'.history = (call, .consumed value claim) :: earlier →
      Own call P earlier → w.history <:+ earlier → Sound runtime none w' → Q claim s w')
    (he : ∀ failure (w' : World), Own call P w'.history → w.history <:+ w'.history →
      E failure s w') :
    (logic runtime).Ensures call (consumeTicket value) Q E s w := by
  refine .bind (assert_ensures (fun _ ↦ ?_) (he _ w ho List.suffix_rfl))
  refine .bind (.invoke fun w₁ h₁ _ ↦ ⟨trivial, fun o w₂ r hx _ ↦ ?_⟩)
  have ho₁ := ho.others h₁
  rcases takeTicket_cases w₁ call o.now (runtime.sha256 value) with
    ⟨failure, w', hc, ha⟩ | ⟨ticket, w', hc, hh⟩
  · obtain ⟨rfl, rfl⟩ := Prod.mk.inj (hc.symm.trans (map_some_inj hx))
    refine he failure w' (ho₁.grow (ha.mono ?_)) (h₁.suffix.trans ha.suffix)
    rintro e ⟨-, ticket, heq⟩ _
    rw [heq]
    exact htaken _ _
  · obtain ⟨rfl, rfl⟩ := Prod.mk.inj (hc.symm.trans (map_some_inj hx))
    have ho₂ : Own call P w'.history := hh ▸ ho₁.note (htaken _ _)
    have hsuf : w.history <:+ w'.history := by
      rw [hh]
      exact h₁.suffix.trans (List.suffix_cons ..)
    refine .bind (ensureValid_ensures (fun w₃ earlier h₃ hconf ↦ ?_) fun failure w₃ h₃ ↦ ?_)
    · have ho₃ : Own call P w₃.history := by
        rw [hconf]
        exact (ho₂.still h₃ hcalm).note (hcalm _ rfl)
      have hcons : Consuming w₃.history call (runtime.sha256 value) ticket :=
        ⟨earlier, hconf ▸ List.suffix_rfl, h₃.mem (hh ▸ .head _)⟩
      have hsuf₃ : w.history <:+ w₃.history := by
        rw [hconf]
        exact (hsuf.trans h₃.suffix).trans (List.suffix_cons ..)
      refine .invoke fun w₄ h₄ _ ↦ ?_
      have ho₄ := ho₃.others h₄
      refine ⟨⟨hcons.mono h₄.suffix, fun v k hm ↦ hnone v k (ho₄ _ hm)⟩, fun o w₅ r hx₅ hi₅ ↦ ?_⟩
      rcases claimTicket_cases w₄ call o.now value ticket with ⟨failure, hc₅⟩ | ⟨claim, w', hc₅, hh₅⟩
      · obtain ⟨rfl, rfl⟩ := Prod.mk.inj (hc₅.symm.trans (map_some_inj hx₅))
        exact he failure w₄ ho₄ (hsuf₃.trans h₄.suffix)
      · obtain ⟨rfl, rfl⟩ := Prod.mk.inj (hc₅.symm.trans (map_some_inj hx₅))
        exact hq claim w' w₄.history hh₅ ho₄ (hsuf₃.trans h₄.suffix) hi₅.1
    · exact he failure w₃ (ho₂.still h₃ hcalm) (hsuf.trans h₃.suffix)

end Tickets

end RustdeskConsole.Gateway
