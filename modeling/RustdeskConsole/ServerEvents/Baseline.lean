import RustdeskConsole.ServerEvents.Service

namespace RustdeskConsole.ServerEvents

open Collections Effects

variable {isToken : String → Prop} {s s' : State} {n a : ℕ} {uuid : String}

section Upstream

theorem relays_foldl (changes : List Change) (upstream : Upstream) :
    (changes.foldl Upstream.apply upstream).relays =
      changes.foldl relayLaw.step upstream.relays := by
  induction changes generalizing upstream with
  | nil => rfl
  | cons change changes ih => rw [List.foldl_cons, List.foldl_cons, ih, relays_apply]

theorem sessions_foldl (changes : List Change) (upstream : Upstream) :
    (changes.foldl Upstream.apply upstream).sessions =
      changes.foldl sessionLaw.step upstream.sessions := by
  induction changes generalizing upstream with
  | nil => rfl
  | cons change changes ih => rw [List.foldl_cons, List.foldl_cons, ih, sessions_apply]

theorem relays_upstreamAt :
    (s.upstreamAt n).relays = relayLaw.after s.base.relays s.events n := relays_foldl ..

theorem sessions_upstreamAt :
    (s.upstreamAt n).sessions = sessionLaw.after s.base.sessions s.events n := sessions_foldl ..

theorem upstreamAt_append {changes : List Change} (hn : n ≤ s.events.length) :
    { s with events := s.events ++ changes }.upstreamAt n = s.upstreamAt n := by
  rw [State.upstreamAt, State.upstreamAt, List.take_append_of_le_length hn]

theorem upstreamAt_succ {change : Change} :
    { s with events := s.events ++ [change] }.upstreamAt (s.events.length + 1) =
      s.upstream.apply change := by
  rw [State.upstreamAt, List.take_of_length_le (by simp), List.foldl_append, State.upstream,
    State.upstreamAt, List.take_length]
  rfl

theorem Upstream.WellFormed.apply {upstream : Upstream} {change : Change}
    (hu : upstream.WellFormed) (hn : change.Named isToken) (hp : change.Possible upstream) :
    (upstream.apply change).WellFormed := by
  cases change with
  | opened uuid relayId info =>
    refine ⟨hu.relays, fun k session hk ↦ ?_⟩
    by_cases hku : k = uuid
    · subst hku
      cases (Function.update_self ..).symm.trans hk
      exact ⟨hp, hn.2.2⟩
    · exact hu.sessions k session ((Function.update_of_ne hku ..).symm.trans hk)
  | closed uuid =>
    refine ⟨hu.relays, fun k session hk ↦ ?_⟩
    by_cases hku : k = uuid
    · subst hku
      cases (Function.update_self ..).symm.trans hk
    · exact hu.sessions k session ((Function.update_of_ne hku ..).symm.trans hk)
  | registered id =>
    refine ⟨fun k relay hk ↦ ?_, fun k session hk ↦ ?_⟩
    · by_cases hki : k = id
      · subst hki
        cases (Function.update_self ..).symm.trans hk
        exact ⟨rfl, hn.1⟩
      · exact hu.relays k relay ((Function.update_of_ne hki ..).symm.trans hk)
    · refine ⟨?_, (hu.sessions k session hk).2⟩
      by_cases hki : session.relayId = id
      · have hself : (upstream.apply (.registered id)).relays id = some ⟨id⟩ :=
          Function.update_self ..
        rw [hki, hself]
        rfl
      · exact (congrArg Option.isSome (Function.update_of_ne hki ..)).trans
          (hu.sessions k session hk).1
  | disconnected id =>
    refine ⟨fun k relay hk ↦ ?_, fun k session hk ↦ ?_⟩
    · by_cases hki : k = id
      · subst hki
        cases (Function.update_self ..).symm.trans hk
      · exact hu.relays k relay ((Function.update_of_ne hki ..).symm.trans hk)
    · obtain ⟨hold, hne⟩ := Option.filter_eq_some_iff.mp hk
      have hki : session.relayId ≠ id := by simpa using hne
      exact ⟨(congrArg Option.isSome (Function.update_of_ne hki ..)).trans
        (hu.sessions k session hold).1, (hu.sessions k session hold).2⟩
  | other kind => exact hu

end Upstream

section Baseline

/-- Nothing of the present connection has been served. -/
structure Quiet (s : State) : Prop where
  lastEventAt : s.lastEventAt ≤ 0
  lastKeepAliveAt : s.lastKeepAliveAt ≤ 0

/-- A view that replays the events of the stream over its baseline. -/
structure Synced (s : State) : Prop where
  relays : relayLaw.Chases s.base.relays s.events s.readAt (s.since + s.applied) s.view.relays.get?
  sessions : sessionLaw.Chases s.base.sessions s.events s.readAt (s.since + s.applied)
    s.view.sessions.get?
  readAt : s.readAt ≤ s.events.length

/-- A baseline on its way. The relays were read at `a`; `listed` are those of
them that are in the view, `read` those whose sessions are. -/
structure Partial (s : State) (a : ℕ) (listed read : List String)
    (rest : List (Option String)) : Prop where
  since : s.since ≤ a
  readAt : a ≤ s.readAt
  now : s.readAt ≤ s.events.length
  start : s.applied = 0
  relays : ∀ id, s.view.relays.get? id = if id ∈ listed then some ⟨id⟩ else none
  rows : ∀ id, ((s.upstreamAt a).relays id).isSome ↔ id ∈ listed ∨ id ≠ "" ∧ some id ∈ rest
  sessions : ∀ uuid, s.view.sessions.get? uuid = none ∨
    ∃ c, s.since ≤ c ∧ c ≤ s.readAt ∧ s.view.sessions.get? uuid = (s.upstreamAt c).sessions uuid
  kept : ∀ uuid session, session.relayId ∈ read →
    (∀ c, s.since ≤ c → c ≤ s.readAt → (s.upstreamAt c).sessions uuid = some session) →
      s.view.sessions.get? uuid = some session

/-- The part of the invariant that depends on where `run` is. -/
def At (s : State) : Phase → Prop
  | .connecting | .subscribing false => Quiet s
  | .subscribing true => Quiet s ∧ s.applied = 0
  | .relays answer => Quiet s ∧ s.applied = 0 ∧ ∀ rows, answer = some rows →
    s.since ≤ s.readAt ∧ s.readAt ≤ s.events.length ∧ RelayRows (s.upstreamAt s.readAt) rows
  | .sessions relayId answer rest => Quiet s ∧ (∃ a read, Partial s a (relayId :: read) read rest) ∧
    ∀ rows, answer = some rows → SessionRows (s.upstreamAt s.readAt) relayId rows
  | .reading => Synced s
  | .ending => Quiet s ∨ Synced s

/-- The invariant of the service and its upstream. -/
structure Tracking (isToken : String → Prop) (s : State) : Prop where
  named : ∀ change ∈ s.events, change.Named isToken
  token : s.phase ≠ .connecting → isToken s.token
  wellFormed : ∀ n, (s.upstreamAt n).WellFormed
  delivered : s.since + s.delivered ≤ s.events.length
  applied : s.applied ≤ s.delivered
  placed : At s s.phase

theorem Partial.synced {ids : List String} (hp : Partial s a ids ids [])
    (hw : ∀ n, (s.upstreamAt n).WellFormed) : Synced s := by
  have hrelays : s.view.relays.get? = (s.upstreamAt a).relays := by
    funext id
    have hrow := hp.rows id
    rw [hp.relays id]
    cases hr : (s.upstreamAt a).relays id with
    | none =>
      rw [hr] at hrow
      refine if_neg fun hid ↦ ?_
      cases hrow.mpr (.inl hid)
    | some relay =>
      rw [hr] at hrow
      rw [if_pos ((hrow.mp rfl).resolve_right fun h ↦ List.not_mem_nil h.2),
        ((hw a).relays id relay hr).1]
  have hready := hp.readAt
  have hsince := hp.since
  refine ⟨?_, ?_, hp.now⟩
  · refine EventLaw.Covers.chases fun id ↦ ?_
    rw [hrelays, relays_upstreamAt, hp.start]
    exact ⟨.inr ⟨a, by omega, by omega, rfl⟩, fun hall ↦ hall a (by omega) (by omega)⟩
  · refine EventLaw.Covers.chases fun uuid ↦ ⟨?_, fun hall ↦ ?_⟩
    · rcases hp.sessions uuid with hnone | ⟨c, hc, hcb, heq⟩
      · exact .inl hnone
      · rw [sessions_upstreamAt] at heq
        exact .inr ⟨c, by have := hp.start; omega, hcb, heq⟩
    · rw [hp.start] at hall ⊢
      have hconst : ∀ c, s.since ≤ c → c ≤ s.readAt →
          (s.upstreamAt c).sessions uuid = (s.upstreamAt s.since).sessions uuid := by
        intro c hc hcb
        rw [sessions_upstreamAt, sessions_upstreamAt]
        exact hall c hc hcb
      change _ = sessionLaw.after s.base.sessions s.events s.since uuid
      rw [← sessions_upstreamAt]
      cases hv : (s.upstreamAt s.since).sessions uuid with
      | none =>
        rcases hp.sessions uuid with hnone | ⟨c, hc, hcb, heq⟩
        · exact hnone
        · rw [heq, hconst c hc hcb, hv]
      | some session =>
        have hat : (s.upstreamAt a).sessions uuid = some session := by
          rw [hconst a hsince hready, hv]
        have hrelay := ((hw a).sessions uuid session hat).1
        have hread := ((hp.rows session.relayId).mp hrelay).resolve_right
          fun h ↦ List.not_mem_nil h.2
        refine hp.kept uuid session hread fun c hc hcb ↦ ?_
        rw [hconst c hc hcb, hv]

/-- The rows of a relay are put over what is there. -/
theorem get?_setSessions {relayId : String} {rows : List (Option Info)}
    {m : OrderedMap String LiveSession} {found : Option LiveSession}
    (hr : ∀ info, some info ∈ rows → info.uuid = some uuid → found = some ⟨relayId, info⟩) :
    (rows.foldl (State.setSession relayId) m).get? uuid = found ∨
      (∀ info, some info ∈ rows → info.uuid ≠ some uuid) ∧
        (rows.foldl (State.setSession relayId) m).get? uuid = m.get? uuid := by
  induction rows generalizing m with
  | nil => exact .inr ⟨fun _ h ↦ (List.not_mem_nil h).elim, rfl⟩
  | cons row rows ih =>
    have hrest := fun info hi ↦ hr info (List.mem_cons_of_mem row hi)
    rw [List.foldl_cons]
    rcases ih (m := State.setSession relayId m row) hrest with hfound | ⟨hno, hsame⟩
    · exact .inl hfound
    · rw [hsame]
      have hskip : (∀ info, row = some info → info.uuid ≠ some uuid) →
          (State.setSession relayId m row).get? uuid = m.get? uuid →
            (∀ info, some info ∈ row :: rows → info.uuid ≠ some uuid) ∧
              (State.setSession relayId m row).get? uuid = m.get? uuid := by
        refine fun hrow heq ↦ ⟨fun info hi ↦ ?_, heq⟩
        rcases List.mem_cons.mp hi with hi | hi
        · exact hrow info hi.symm
        · exact hno info hi
      cases row with
      | none => exact .inr (hskip (fun _ h ↦ by cases h) rfl)
      | some info =>
        cases hu : info.uuid with
        | none =>
          refine .inr (hskip (fun _ h ↦ ?_) ?_)
          · cases h
            rw [hu]
            exact (Option.some_ne_none _).symm
          · rw [State.setSession, hu]
            rfl
        | some v =>
          have hset : (State.setSession relayId m (some info)).get? uuid =
              if uuid = v then some ⟨relayId, info⟩ else m.get? uuid := by
            rw [State.setSession, hu]
            exact OrderedMap.get?_set
          by_cases huv : uuid = v
          · subst huv
            rw [hset, if_pos rfl]
            exact .inl (hr info (.head _) hu).symm
          · refine .inr (hskip (fun _ h ↦ ?_) (hset.trans (if_neg huv)))
            cases h
            rw [hu]
            exact fun heq ↦ huv (Option.some.inj heq).symm

theorem Partial.receive {relayId : String} {rows : List (Option Info)} {read : List String}
    {rest : List (Option String)} (hp : Partial s a (relayId :: read) read rest)
    (hw : (s.upstreamAt s.readAt).WellFormed)
    (hr : SessionRows (s.upstreamAt s.readAt) relayId rows) :
    Partial { s with view := { s.view with
      sessions := rows.foldl (State.setSession relayId) s.view.sessions } } a
      (relayId :: read) (relayId :: read) rest where
  since := hp.since
  readAt := hp.readAt
  now := hp.now
  start := hp.start
  relays := hp.relays
  rows := hp.rows
  sessions uuid := by
    rcases get?_setSessions (m := s.view.sessions) fun info hi hu ↦ (hr uuid info hu).mp hi with
      hfound | ⟨-, hsame⟩
    · exact .inr ⟨s.readAt, Nat.le_trans hp.since hp.readAt, Nat.le_refl _, hfound⟩
    · have hold := hp.sessions uuid
      rw [← hsame] at hold
      exact hold
  kept uuid session hrelay hall := by
    have hnow := hall s.readAt (Nat.le_trans hp.since hp.readAt) (Nat.le_refl _)
    rcases get?_setSessions (m := s.view.sessions) fun info hi hu ↦ (hr uuid info hu).mp hi with
      hfound | ⟨hno, hsame⟩
    · exact hfound.trans hnow
    · rcases List.mem_cons.mp hrelay with heq | hread
      · have hu := (hw.sessions uuid session hnow).2
        refine absurd hu (hno session.info ((hr uuid session.info hu).mpr ?_))
        rw [← heq]
        exact hnow
      · exact hsame.trans (hp.kept uuid session hread hall)

/-- A relay is listed before its sessions are asked for. -/
theorem Partial.list {id : String} {listed : List String} {rest : List (Option String)}
    (hp : Partial s a listed listed (some id :: rest)) (hid : id ≠ "") {phase : Phase} :
    Partial { s with
      view := { s.view with relays := s.view.relays.set id ⟨id⟩ }
      phase := phase } a (id :: listed) listed rest where
  since := hp.since
  readAt := hp.readAt
  now := hp.now
  start := hp.start
  relays k := by
    rw [OrderedMap.get?_set, hp.relays k]
    by_cases hk : k = id
    · subst hk
      rw [if_pos rfl, if_pos (List.mem_cons_self ..)]
    · simp [hk]
  rows k := by
    refine (hp.rows k).trans ?_
    by_cases hk : k = id
    · subst hk
      simp [hid]
    · simp [hk]
  sessions := hp.sessions
  kept := hp.kept

theorem Partial.skip {listed read : List String} {row : Option String}
    {rest : List (Option String)} (hp : Partial s a listed read (row :: rest))
    (hrow : ∀ id, row = some id → id = "") : Partial s a listed read rest where
  since := hp.since
  readAt := hp.readAt
  now := hp.now
  start := hp.start
  relays := hp.relays
  rows id := by
    refine (hp.rows id).trans (or_congr_right (and_congr_right fun hid ↦ ?_))
    rw [List.mem_cons]
    exact or_iff_right fun heq ↦ hid (hrow id heq.symm)
  sessions := hp.sessions
  kept := hp.kept

theorem Synced.readOn (hs : Synced s) : At s.readOn s.readOn.phase := by
  rw [State.readOn]
  split
  · exact .inr ⟨hs.relays, hs.sessions, hs.readAt⟩
  · exact ⟨hs.relays, hs.sessions, hs.readAt⟩

/-- The loop of the baseline gets to the next relay or to its end. -/
theorem Partial.nextRelay {listed : List String} {rest : List (Option String)}
    (hp : Partial s a listed listed rest) (hq : Quiet s) (hw : ∀ n, (s.upstreamAt n).WellFormed) :
    At (s.nextRelay rest) (s.nextRelay rest).phase := by
  induction rest with
  | nil =>
    have hs := hp.synced hw
    have hs' : Synced { s with lastKeepAliveAt := s.now } := ⟨hs.relays, hs.sessions, hs.readAt⟩
    exact hs'.readOn
  | cons row rest ih =>
    cases row with
    | none => exact ih (hp.skip fun _ h ↦ by cases h)
    | some id =>
      rw [State.nextRelay]
      split
      · next hid => exact ih (hp.skip fun _ h ↦ by cases h; exact hid)
      · next hid =>
        exact ⟨⟨hq.lastEventAt, hq.lastKeepAliveAt⟩, ⟨a, listed, hp.list hid⟩, fun _ h ↦ by cases h⟩

end Baseline

end RustdeskConsole.ServerEvents
