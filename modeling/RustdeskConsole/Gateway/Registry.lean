import RustdeskConsole.Gateway.Lawful

namespace RustdeskConsole.Gateway

open Effects Effects.History Function WebClient

/-- The events that the session map and the session objects show. -/
def Event.ofSession : Event → Bool
  | .started .. | .ended _ | .activated _ | .bound .. => true
  | _ => false

section Note

variable {h : History} {c c' : Call} {e f : Event} {guid uuid hash user : String} {phase : Phase}

theorem mem_note (hne : f ≠ e) : (c', f) ∈ (c, e) :: h ↔ (c', f) ∈ h := by
  simp only [List.mem_cons, Prod.mk.injEq, hne, and_false, false_or]

theorem started_note (he : ∀ s a b, e ≠ .started s a b) :
    Started ((c, e) :: h) guid ↔ Started h guid := by
  simp only [Started, mem_note (he _ _ _).symm]

theorem ended_note (he : ∀ closed, e ≠ .ended closed) : Ended ((c, e) :: h) guid ↔ Ended h guid := by
  simp only [Ended, mem_note (he _).symm]

theorem ended_ended {closed : List Closed} :
    Ended ((c, .ended closed) :: h) guid ↔ guid ∈ closed.map (·.guid) ∨ Ended h guid := by
  simp [Ended, or_and_right, exists_or, and_assoc]

theorem live_note (hs : ∀ s a b, e ≠ .started s a b) (he : ∀ closed, e ≠ .ended closed) :
    Live ((c, e) :: h) guid ↔ Live h guid := by
  rw [Live, started_note hs, ended_note he, Live]

theorem activated_note (he : ∀ g, e ≠ .activated g) :
    Activated ((c, e) :: h) guid ↔ Activated h guid := by
  simp only [Activated, mem_note (he _).symm]

theorem bound_note (he : ∀ g u, e ≠ .bound g u) : Bound ((c, e) :: h) guid uuid ↔ Bound h guid uuid := by
  simp only [Bound, mem_note (he _ _).symm]

theorem issued_note (he : ∀ s a b, e ≠ .started s a b) :
    Issued ((c, e) :: h) hash guid phase ↔ Issued h hash guid phase := by
  constructor
  · intro hi
    cases hi with
    | rendezvous hm hg => exact .rendezvous ((mem_note (he _ _ _).symm).mp hm) hg
    | relay hm hg => exact .relay ((mem_note (he _ _ _).symm).mp hm) hg
  · intro hi
    exact hi.mono (List.suffix_cons ..)

theorem taken_note (he : ∀ a t, e ≠ .taken a t) : Taken ((c, e) :: h) hash ↔ Taken h hash := by
  simp only [Taken, mem_note (he _ _).symm]

theorem handed_note (he : ∀ closed, e ≠ .handed closed) :
    Handed ((c, e) :: h) guid ↔ Handed h guid := by
  simp only [Handed, HandedTo, mem_note (he _).symm]

theorem timeouts_note (he : e ≠ .timedOut) : timeouts ((c, e) :: h) = timeouts h := by
  simp only [timeouts, List.countP_cons, he, decide_false, Bool.false_eq_true, if_false,
    Nat.add_zero]

end Note

theorem Session.SameAs.refl (session : Session) : session.SameAs session :=
  ⟨rfl, rfl, rfl, rfl, rfl, rfl⟩

theorem Session.SameAs.trans {a b c : Session} (hab : a.SameAs b) (hbc : b.SameAs c) : a.SameAs c :=
  ⟨hab.guid.trans hbc.guid, hab.actor.trans hbc.actor, hab.targetId.trans hbc.targetId,
    hab.kind.trans hbc.kind, hab.parentGuid.trans hbc.parentGuid,
    hab.ticketHashes.trans hbc.ticketHashes⟩

theorem change_eq_some {κ α : Type} [DecidableEq κ] {m : κ → Option α} {f : α → α} {k k' : κ}
    {a' : α} : update m k ((m k).map f) k' = some a' ↔
      ∃ a, m k' = some a ∧ a' = if k' = k then f a else a := by
  by_cases hk : k' = k
  · subst hk
    simp only [update_self, Option.map_eq_some_iff, if_true, eq_comm]
  · simp only [update_of_ne hk, if_neg hk, exists_eq_right']

section Registry

variable {sessions : List String} {objects : String → Option Session} {h : History} {c : Call}
  {e : Event}

section Other

variable (he : e.ofSession = false)

include he

theorem Event.ofSession_started (s : Session) (a b : String) : e ≠ .started s a b := by
  rintro rfl
  cases he

theorem Event.ofSession_ended (closed : List Closed) : e ≠ .ended closed := by
  rintro rfl
  cases he

theorem Event.ofSession_activated (guid : String) : e ≠ .activated guid := by
  rintro rfl
  cases he

theorem Event.ofSession_bound (guid uuid : String) : e ≠ .bound guid uuid := by
  rintro rfl
  cases he

theorem Registry.note (hr : Registry sessions objects h) :
    Registry sessions objects ((c, e) :: h) where
  nodup := hr.nodup
  live guid := by
    rw [live_note (Event.ofSession_started he) (Event.ofSession_ended he), hr.live]
  object guid session ho := by
    obtain ⟨⟨c', s, a, b, hm, hg⟩, hact, huuid⟩ := hr.object guid session ho
    refine ⟨⟨c', s, a, b, .tail _ hm, hg⟩, ?_, fun uuid ↦ ?_⟩
    · rw [activated_note (Event.ofSession_activated he), hact]
    · rw [bound_note (Event.ofSession_bound he), huuid]
  started guid hs := hr.started guid ((started_note (Event.ofSession_started he)).mp hs)
  child := hr.child
  desktop := hr.desktop
  relayUuid a ha b hb uuid h₁ h₂ :=
    hr.relayUuid a ha b hb uuid ((bound_note (Event.ofSession_bound he)).mp h₁)
      ((bound_note (Event.ofSession_bound he)).mp h₂)

end Other

namespace Registry

/-- The heap may change the other fields, and activate. -/
theorem evolve {objects' : String → Option Session} {h' : History}
    (hr : Registry sessions objects h) (hlive : ∀ guid, Live h' guid ↔ Live h guid)
    (hstarted : ∀ guid, Started h' guid → Started h guid)
    (hsome : ∀ guid session, objects guid = some session → ∃ session', objects' guid = some session')
    (hsame : ∀ guid session', objects' guid = some session' → ∃ session,
      objects guid = some session ∧ session'.SameAs session ∧
        (session.active = true → session'.active = true))
    (hshows : ∀ guid session', objects' guid = some session' → Shows h' guid session')
    (huuid : ∀ a ∈ sessions, ∀ b ∈ sessions, ∀ uuid, Bound h' a uuid → Bound h' b uuid → a = b) :
    Registry sessions objects' h' where
  nodup := hr.nodup
  live guid := by rw [hlive, hr.live]
  object := hshows
  started guid hs := by
    obtain ⟨session, ho⟩ := hr.started guid (hstarted guid hs)
    exact hsome guid session ho
  child guid hm session' ho hk := by
    obtain ⟨session, hobj, hsa, -⟩ := hsame guid session' ho
    cases hr.child guid hm session hobj (hsa.kind.symm.trans hk) with
    | @intro p parent hg hp hpobj hpk hact hactor htarget =>
      obtain ⟨parent', hpobj'⟩ := hsome p parent hpobj
      obtain ⟨parent₀, hobj₀, hsame', hact'⟩ := hsame p parent' hpobj'
      obtain rfl := Option.some.inj (hpobj.symm.trans hobj₀)
      exact .intro (hsa.parentGuid.trans hg) hp hpobj' (hsame'.kind.trans hpk) (hact' hact)
        ((hsame'.actor.trans hactor).trans hsa.actor.symm)
        ((hsame'.targetId.trans htarget).trans hsa.targetId.symm)
  desktop guid session' ho hk := by
    obtain ⟨session, hobj, hsa, -⟩ := hsame guid session' ho
    rw [hsa.parentGuid]
    exact hr.desktop guid session hobj (hsa.kind.symm.trans hk)
  relayUuid := huuid

section Modify

variable {f : Session → Session} {guid : String}

theorem modify (hr : Registry sessions objects h) (hsame : ∀ session, (f session).SameAs session)
    (hactive : ∀ session, (f session).active = session.active)
    (hrelay : ∀ session, (f session).relayUuid = session.relayUuid) :
    Registry sessions (update objects guid ((objects guid).map f)) h := by
  refine hr.evolve (fun _ ↦ Iff.rfl) (fun _ hs ↦ hs) (fun g s ho ↦ ?_) (fun g s' ho ↦ ?_)
    (fun g s' ho ↦ ?_) hr.relayUuid
  · exact ⟨_, change_eq_some.mpr ⟨s, ho, rfl⟩⟩
  · obtain ⟨s, hs, rfl⟩ := change_eq_some.mp ho
    refine ⟨s, hs, ?_, ?_⟩
    · split
      · exact hsame s
      · exact .refl s
    · split
      · rw [hactive]
        exact id
      · exact id
  · obtain ⟨s, hobj, rfl⟩ := change_eq_some.mp ho
    have hs := hr.object g s hobj
    split
    · obtain ⟨c', s₀, a, b, hm, hg, hsa⟩ := hs.started
      refine ⟨⟨c', s₀, a, b, hm, hg, (hsame s).trans hsa⟩, ?_, fun uuid ↦ ?_⟩
      · rw [hactive, hs.active]
      · rw [hrelay, hs.relayUuid]
    · exact hs

/-- `session.active = true`. -/
theorem activate (hr : Registry sessions objects h) :
    Registry sessions (update objects guid ((objects guid).map fun s ↦ { s with active := true }))
      ((c, .activated guid) :: h) := by
  refine hr.evolve (fun g ↦ ?_) (fun g hs ↦ ?_) (fun g s ho ↦ ?_) (fun g s' ho ↦ ?_)
    (fun g s' ho ↦ ?_) fun a ha b hb uuid h₁ h₂ ↦ ?_
  · exact live_note (by simp) (by simp)
  · exact (started_note (by simp)).mp hs
  · exact ⟨_, change_eq_some.mpr ⟨s, ho, rfl⟩⟩
  · obtain ⟨s, hs, rfl⟩ := change_eq_some.mp ho
    refine ⟨s, hs, ?_, ?_⟩
    · split
      · exact ⟨rfl, rfl, rfl, rfl, rfl, rfl⟩
      · exact .refl s
    · split
      · intro _
        rfl
      · exact id
  · obtain ⟨s, hobj, rfl⟩ := change_eq_some.mp ho
    obtain ⟨⟨c', s₀, a, b, hm, hg, hsa⟩, hact, huuid⟩ := hr.object g s hobj
    have hact' : Activated ((c, .activated guid) :: h) g ↔ g = guid ∨ Activated h g := by
      simp only [Activated, List.mem_cons, Prod.mk.injEq, Event.activated.injEq, exists_or,
        exists_eq_left]
    have huuid' : ∀ uuid, s.relayUuid = some uuid ↔ Bound ((c, .activated guid) :: h) g uuid := by
      intro uuid
      rw [bound_note (by simp), huuid]
    split
    · rename_i hgg
      exact ⟨⟨c', s₀, a, b, .tail _ hm, hg, ⟨hsa.1, hsa.2, hsa.3, hsa.4, hsa.5, hsa.6⟩⟩,
        ⟨fun _ ↦ hact'.mpr (.inl hgg), fun _ ↦ rfl⟩, huuid'⟩
    · rename_i hgg
      refine ⟨⟨c', s₀, a, b, .tail _ hm, hg, hsa⟩, ?_, huuid'⟩
      rw [hact', hact, or_iff_right hgg]
  · exact hr.relayUuid a ha b hb uuid ((bound_note (by simp)).mp h₁) ((bound_note (by simp)).mp h₂)

/-- `session.relayUuid = uuid`. -/
theorem bind (hr : Registry sessions objects h) {uuid : String}
    (hnone : ∀ u, ¬Bound h guid u) (hother : ∀ g ∈ sessions, g ≠ guid → ¬Bound h g uuid) :
    Registry sessions
      (update objects guid ((objects guid).map fun s ↦ { s with relayUuid := some uuid }))
      ((c, .bound guid uuid) :: h) := by
  have hbound : ∀ g u, Bound ((c, .bound guid uuid) :: h) g u ↔ g = guid ∧ u = uuid ∨ Bound h g u := by
    intro g u
    simp only [Bound, List.mem_cons, Prod.mk.injEq, Event.bound.injEq, exists_or, exists_eq_left]
  refine hr.evolve (fun g ↦ ?_) (fun g hs ↦ ?_) (fun g s ho ↦ ?_) (fun g s' ho ↦ ?_)
    (fun g s' ho ↦ ?_) fun a ha b hb u h₁ h₂ ↦ ?_
  · exact live_note (by simp) (by simp)
  · exact (started_note (by simp)).mp hs
  · exact ⟨_, change_eq_some.mpr ⟨s, ho, rfl⟩⟩
  · obtain ⟨s, hs, rfl⟩ := change_eq_some.mp ho
    refine ⟨s, hs, ?_, ?_⟩
    · split
      · exact ⟨rfl, rfl, rfl, rfl, rfl, rfl⟩
      · exact .refl s
    · split
      · exact id
      · exact id
  · obtain ⟨s, hobj, rfl⟩ := change_eq_some.mp ho
    obtain ⟨⟨c', s₀, a, b, hm, hg, hsa⟩, hact, huuid⟩ := hr.object g s hobj
    have hact' : s.active = true ↔ Activated ((c, .bound guid uuid) :: h) g := by
      rw [activated_note (by simp), hact]
    split
    · rename_i hgg
      refine ⟨⟨c', s₀, a, b, .tail _ hm, hg, ⟨hsa.1, hsa.2, hsa.3, hsa.4, hsa.5, hsa.6⟩⟩, hact',
        fun u ↦ ?_⟩
      rw [hbound, hgg, or_iff_left (hnone u)]
      simp only [Option.some.injEq, true_and, eq_comm]
    · rename_i hgg
      refine ⟨⟨c', s₀, a, b, .tail _ hm, hg, hsa⟩, hact', fun u ↦ ?_⟩
      rw [hbound, huuid, or_iff_right fun hu ↦ hgg hu.1]
  · by_contra hne
    rcases (hbound a u).mp h₁ with ⟨ha', hu⟩ | h₁' <;>
      rcases (hbound b u).mp h₂ with ⟨hb', hu'⟩ | h₂'
    · exact hne (ha'.trans hb'.symm)
    · exact hother b hb (fun hbg ↦ hne (ha'.trans hbg.symm)) (hu ▸ h₂')
    · exact hother a ha (fun hag ↦ hne (hag.trans hb'.symm)) (hu' ▸ h₁')
    · exact hne (hr.relayUuid a ha b hb u h₁' h₂')

end Modify

/-- Sessions leave the map together with their children. -/
theorem remove (hr : Registry sessions objects h) {closed : List Closed}
    (hfamily : ∀ guid ∈ sessions, guid ∉ closed.map (·.guid) → ∀ session, objects guid = some session →
      ∀ parent ∈ closed.map (·.guid), session.parentGuid ≠ some parent) :
    Registry (sessions.filter fun guid ↦ guid ∉ closed.map (·.guid)) objects
      ((c, .ended closed) :: h) := by
  have hended : ∀ g, Ended ((c, .ended closed) :: h) g ↔ g ∈ closed.map (·.guid) ∨ Ended h g :=
    fun g ↦ ended_ended
  have hmem : ∀ g, g ∈ sessions.filter (fun guid ↦ guid ∉ closed.map (·.guid)) →
      g ∈ sessions ∧ g ∉ closed.map (·.guid) := by
    intro g hg
    obtain ⟨hs, hd⟩ := List.mem_filter.mp hg
    exact ⟨hs, of_decide_eq_true hd⟩
  refine ⟨hr.nodup.filter _, fun g ↦ ?_, fun g s ho ↦ ?_, fun g hs ↦ ?_, fun g hg s ho hk ↦ ?_,
    hr.desktop, fun a ha b hb uuid h₁ h₂ ↦ ?_⟩
  · rw [List.mem_filter, decide_eq_true_eq, hr.live, Live, Live, hended, not_or]
    rw [started_note (by simp)]
    tauto
  · obtain ⟨⟨c', s₀, a, b, hm, hg, hsa⟩, hact, huuid⟩ := hr.object g s ho
    refine ⟨⟨c', s₀, a, b, .tail _ hm, hg, hsa⟩, ?_, fun uuid ↦ ?_⟩
    · rw [activated_note (by simp), hact]
    · rw [bound_note (by simp), huuid]
  · apply hr.started
    exact (started_note (by simp)).mp hs
  · obtain ⟨hs, hn⟩ := hmem g hg
    cases hr.child g hs s ho hk with
    | @intro p parent hp hm hobj hpk hact hactor htarget =>
      refine .intro hp (List.mem_filter.mpr ⟨hm, decide_eq_true fun hpm ↦ ?_⟩) hobj hpk hact hactor
        htarget
      exact hfamily g hs hn s ho p hpm hp
  · exact hr.relayUuid a (hmem a ha).1 b (hmem b hb).1 uuid ((bound_note (by simp)).mp h₁)
      ((bound_note (by simp)).mp h₂)

/-- The session map gets a session that was never in it. -/
theorem start (hr : Registry sessions objects h) {runtime : Runtime} (hl : Lawful (law runtime) h)
    {session : Session} {rendezvous relay : String} (hnew : ¬Started h session.guid)
    (hactive : session.active = false) (hrelay : session.relayUuid = none)
    (hchild : session.kind = .file → Child sessions objects session)
    (hdesktop : session.kind = .desktop → truthy session.parentGuid = none) :
    Registry (sessions ++ [session.guid]) (update objects session.guid (some session))
      ((c, .started session rendezvous relay) :: h) := by
  have hstarted : ∀ g, Started ((c, .started session rendezvous relay) :: h) g ↔
      g = session.guid ∨ Started h g := by
    intro g
    simp only [Started, List.mem_cons, Prod.mk.injEq, Event.started.injEq, or_and_right, exists_or]
    refine or_congr ⟨?_, ?_⟩ Iff.rfl
    · rintro ⟨_, _, _, _, ⟨-, rfl, -, -⟩, rfl⟩
      rfl
    · rintro rfl
      exact ⟨_, _, _, _, ⟨rfl, rfl, rfl, rfl⟩, rfl⟩
  have hold : ∀ g s, objects g = some s → g ≠ session.guid := by
    rintro g s ho rfl
    obtain ⟨c', s₀, a, b, hm, hg, -⟩ := (hr.object _ s ho).started
    exact hnew ⟨c', s₀, a, b, hm, hg⟩
  have hended : ¬Ended h session.guid := fun he ↦ hnew (ended_started hl he)
  have hmem : ∀ g ∈ sessions, g ≠ session.guid := by
    rintro g hg rfl
    exact hnew ((hr.live _).mp hg).1
  have hnotin : session.guid ∉ sessions := fun hm ↦ hmem _ hm rfl
  have hgrow : ∀ {s : Session}, Child sessions objects s →
      Child (sessions ++ [session.guid]) (update objects session.guid (some session)) s := by
    intro s hc
    cases hc with
    | intro hp hm hobj hpk hact hactor htarget =>
      exact .intro hp (List.mem_append_left _ hm) (by rwa [update_of_ne (hold _ _ hobj)]) hpk hact
        hactor htarget
  have hbound : ∀ u, ¬Bound h session.guid u := fun u hb ↦ hnew (bound_started hl hb).2
  refine ⟨?_, fun g ↦ ?_, fun g s ho ↦ ?_, fun g hs ↦ ?_, fun g hg s ho hk ↦ ?_, fun g s ho hk ↦ ?_,
    fun a ha b hb uuid h₁ h₂ ↦ ?_⟩
  · rw [List.nodup_append]
    refine ⟨hr.nodup, List.nodup_singleton _, ?_⟩
    intro a ha b hb
    rw [List.mem_singleton] at hb
    exact hb ▸ hmem a ha
  · rw [List.mem_append, List.mem_singleton, hr.live, Live, Live, hstarted]
    have hne : Ended ((c, .started session rendezvous relay) :: h) g ↔ Ended h g := by
      exact ended_note (by simp)
    rw [hne]
    constructor
    · rintro (⟨hs, he⟩ | rfl)
      · exact ⟨.inr hs, he⟩
      · exact ⟨.inl rfl, hended⟩
    · rintro ⟨rfl | hs, he⟩
      · exact .inr rfl
      · exact .inl ⟨hs, he⟩
  · by_cases hg : g = session.guid
    · subst hg
      rw [update_self] at ho
      obtain rfl := Option.some.inj ho
      refine ⟨⟨c, session, rendezvous, relay, .head _, rfl, .refl _⟩, ?_, fun uuid ↦ ?_⟩
      · rw [hactive, activated_note (by simp)]
        exact ⟨nofun, fun ha ↦ absurd (activated_started hl ha) hnew⟩
      · rw [hrelay, bound_note (by simp)]
        exact ⟨nofun, fun hb ↦ absurd hb (hbound uuid)⟩
    · rw [update_of_ne hg] at ho
      obtain ⟨⟨c', s₀, a, b, hm, hg', hsa⟩, hact, huuid⟩ := hr.object g s ho
      refine ⟨⟨c', s₀, a, b, .tail _ hm, hg', hsa⟩, ?_, fun uuid ↦ ?_⟩
      · rw [activated_note (by simp), hact]
      · rw [bound_note (by simp), huuid]
  · rcases (hstarted g).mp hs with rfl | hs
    · exact ⟨session, update_self ..⟩
    · obtain ⟨s, ho⟩ := hr.started g hs
      exact ⟨s, by rwa [update_of_ne (hold g s ho)]⟩
  · by_cases hgg : g = session.guid
    · subst hgg
      rw [update_self] at ho
      obtain rfl := Option.some.inj ho
      exact hgrow (hchild hk)
    · rw [update_of_ne hgg] at ho
      rw [List.mem_append, List.mem_singleton, or_iff_left hgg] at hg
      exact hgrow (hr.child g hg s ho hk)
  · by_cases hgg : g = session.guid
    · subst hgg
      rw [update_self] at ho
      obtain rfl := Option.some.inj ho
      exact hdesktop hk
    · rw [update_of_ne hgg] at ho
      exact hr.desktop g s ho hk
  · rw [bound_note (by simp)] at h₁ h₂
    rw [List.mem_append, List.mem_singleton] at ha hb
    rcases ha with ha | rfl
    · rcases hb with hb | rfl
      · exact hr.relayUuid a ha b hb uuid h₁ h₂
      · exact absurd h₂ (hbound uuid)
    · exact absurd h₁ (hbound uuid)

end Registry

end Registry

section Ticketing

variable {sessions : List String} {tickets : String → Option Ticket} {h : History} {c : Call}
  {e : Event}

namespace Ticketing

theorem note (ht : Ticketing sessions tickets h) (hs : ∀ s a b, e ≠ .started s a b)
    (hk : ∀ hash t, e ≠ .taken hash t) : Ticketing sessions tickets ((c, e) :: h) := by
  intro hash ticket hm
  obtain ⟨hlive, hi, hn⟩ := ht hash ticket hm
  rw [issued_note hs, taken_note hk]
  exact ⟨hlive, hi, hn⟩

theorem narrow {tickets' : String → Option Ticket} (ht : Ticketing sessions tickets h)
    (hsub : ∀ hash ticket, tickets' hash = some ticket → tickets hash = some ticket) :
    Ticketing sessions tickets' h :=
  fun hash ticket hm ↦ ht hash ticket (hsub hash ticket hm)

theorem take (ht : Ticketing sessions tickets h) {hash : String} {ticket : Ticket} :
    Ticketing sessions (update tickets hash none) ((c, .taken hash ticket) :: h) := by
  intro hash' ticket' hm
  by_cases hh : hash' = hash
  · subst hh
    rw [update_self] at hm
    cases hm
  · rw [update_of_ne hh] at hm
    obtain ⟨hlive, hi, hn⟩ := ht hash' ticket' hm
    rw [issued_note (by simp)]
    refine ⟨hlive, hi, ?_⟩
    rintro ⟨c', t, hm'⟩
    rcases List.mem_cons.mp hm' with heq | hm'
    · cases heq
      exact hh rfl
    · exact hn ⟨c', t, hm'⟩

/-- The tickets of the sessions that leave go with them. -/
theorem remove (ht : Ticketing sessions tickets h) {closed : List Closed} {gone : String → Bool}
    (hgone : ∀ hash ticket, tickets hash = some ticket → ticket.sessionGuid ∈ closed.map (·.guid) →
      gone hash = true) :
    Ticketing (sessions.filter fun guid ↦ guid ∉ closed.map (·.guid))
      (fun hash ↦ if gone hash then none else tickets hash) ((c, .ended closed) :: h) := by
  intro hash ticket hm
  dsimp only at hm
  split at hm
  · cases hm
  · rename_i hg
    obtain ⟨hlive, hi, hn⟩ := ht hash ticket hm
    rw [issued_note (by simp), taken_note (by simp), List.mem_filter, decide_eq_true_eq]
    exact ⟨⟨hlive, fun hc ↦ hg (hgone hash ticket hm hc)⟩, hi, hn⟩

theorem start (ht : Ticketing sessions tickets h) {runtime : Runtime} (hl : Lawful (law runtime) h)
    {session : Session} {rendezvous relay : String} {expiresAt : ℕ} (hne : rendezvous ≠ relay)
    (hnew : ∀ guid phase, ¬Issued h rendezvous guid phase ∧ ¬Issued h relay guid phase) :
    Ticketing (sessions ++ [session.guid])
      (update (update tickets rendezvous (some ⟨session.guid, .rendezvous, expiresAt⟩)) relay
        (some ⟨session.guid, .relay, expiresAt⟩))
      ((c, .started session rendezvous relay) :: h) := by
  have htaken : ∀ hash, (∀ guid phase, ¬Issued h hash guid phase) →
      ¬Taken ((c, .started session rendezvous relay) :: h) hash := by
    intro hash hn
    rw [taken_note (by simp)]
    rintro ⟨c', ticket, hm⟩
    exact hn _ _ (taken_issued hl hm)
  intro hash ticket hm
  by_cases hr : hash = relay
  · subst hr
    rw [update_self] at hm
    obtain rfl := Option.some.inj hm
    exact ⟨List.mem_append_right _ (.head _), .relay (.head _) rfl,
      htaken hash fun guid phase ↦ (hnew guid phase).2⟩
  · rw [update_of_ne hr] at hm
    by_cases hv : hash = rendezvous
    · subst hv
      rw [update_self] at hm
      obtain rfl := Option.some.inj hm
      exact ⟨List.mem_append_right _ (.head _), .rendezvous (.head _) rfl,
        htaken hash fun guid phase ↦ (hnew guid phase).1⟩
    · rw [update_of_ne hv] at hm
      obtain ⟨hlive, hi, hn⟩ := ht hash ticket hm
      rw [taken_note (by simp)]
      exact ⟨List.mem_append_left _ hlive, hi.mono (List.suffix_cons ..), hn⟩

end Ticketing

end Ticketing

section Backlog

variable {emergencies : List (List Closed)} {h : History} {c : Call} {e : Event}
  {closed : List Closed}

namespace Backlog

theorem note (hb : Backlog emergencies h) (he : ∀ closed, e ≠ .handed closed) :
    Backlog emergencies ((c, e) :: h) := by
  refine ⟨hb.1, fun item hm ↦ ⟨(hb.2 item hm).1.mono (List.suffix_cons ..), ?_⟩⟩
  rw [handed_note he]
  exact (hb.2 item hm).2

theorem handed_handed {guid : String} :
    Handed ((c, .handed closed) :: h) guid ↔ guid ∈ closed.map (·.guid) ∨ Handed h guid := by
  simp only [Handed, HandedTo, List.mem_cons, Prod.mk.injEq, Event.handed.injEq, or_and_right,
    exists_or]
  refine or_congr ⟨?_, ?_⟩ Iff.rfl
  · rintro ⟨_, _, ⟨-, rfl⟩, hm⟩
    exact hm
  · intro hm
    exact ⟨_, _, ⟨rfl, rfl⟩, hm⟩

/-- Hand on sessions that are not in the backlog. -/
theorem hand (hb : Backlog emergencies h)
    (hn : ∀ item ∈ emergencies.flatten, item.guid ∉ closed.map (·.guid)) :
    Backlog emergencies ((c, .handed closed) :: h) := by
  refine ⟨hb.1, fun item hm ↦ ⟨(hb.2 item hm).1.mono (List.suffix_cons ..), ?_⟩⟩
  rw [handed_handed, not_or]
  exact ⟨hn item hm, (hb.2 item hm).2⟩

theorem enqueue (hb : Backlog emergencies h) (hnodup : (closed.map (·.guid)).Nodup)
    (hended : ∀ item ∈ closed, Ended h item.guid ∧ ¬Handed h item.guid)
    (hn : ∀ item ∈ emergencies.flatten, item.guid ∉ closed.map (·.guid)) :
    Backlog (emergencies ++ [closed]) h := by
  rw [Backlog, List.flatten_append, List.flatten_singleton, List.map_append, List.nodup_append]
  refine ⟨⟨hb.1, hnodup, ?_⟩, fun item hm ↦ ?_⟩
  · intro a ha b hb' hab
    obtain ⟨item, hm, rfl⟩ := List.mem_map.mp ha
    exact hn item hm (hab ▸ hb')
  · rcases List.mem_append.mp hm with hm | hm
    · exact hb.2 item hm
    · exact hended item hm

theorem take (hb : Backlog (closed :: emergencies) h) :
    Backlog emergencies ((c, .handed closed) :: h) := by
  obtain ⟨hnodup, hmem⟩ := hb
  rw [List.flatten_cons, List.map_append, List.nodup_append] at hnodup
  refine ⟨hnodup.2.1, fun item hm ↦ ?_⟩
  obtain ⟨hended, hhanded⟩ := hmem item (by
    rw [List.flatten_cons]
    exact List.mem_append_right _ hm)
  refine ⟨hended.mono (List.suffix_cons ..), ?_⟩
  rw [handed_handed, not_or]
  refine ⟨fun hc ↦ ?_, hhanded⟩
  exact hnodup.2.2 _ hc _ (List.mem_map_of_mem hm) rfl

end Backlog

end Backlog

end RustdeskConsole.Gateway
