import Mathlib.Logic.Relation
import RustdeskConsole.ServerEvents.Baseline

namespace RustdeskConsole.ServerEvents

open Collections Effects Relation

variable {isToken : String → Prop} {s s' : State} {n a : ℕ}

section Steps

/-- The same upstream and the same place in its stream. -/
structure SameStream (s s' : State) : Prop where
  base : s'.base = s.base
  events : s'.events = s.events
  token : s'.token = s.token
  since : s'.since = s.since
  delivered : s'.delivered = s.delivered
  applied : s'.applied = s.applied

theorem readOn_same : SameStream s s.readOn := by
  rw [State.readOn]
  split <;> exact ⟨rfl, rfl, rfl, rfl, rfl, rfl⟩

theorem nextRelay_same {rest : List (Option String)} : SameStream s (s.nextRelay rest) := by
  induction rest with
  | nil =>
    have h : SameStream { s with lastKeepAliveAt := s.now } (s.nextRelay []) := readOn_same
    exact ⟨h.base, h.events, h.token, h.since, h.delivered, h.applied⟩
  | cons row rest ih =>
    cases row with
    | none => exact ih
    | some id =>
      rw [State.nextRelay]
      split
      · exact ih
      · exact ⟨rfl, rfl, rfl, rfl, rfl, rfl⟩

theorem Tracking.same (ht : Tracking isToken s) (hs : SameStream s s')
    (hphase : s.phase ≠ .connecting) (hp : At s' s'.phase) :
    Tracking isToken s' where
  named := hs.events ▸ ht.named
  token _ := hs.token ▸ ht.token hphase
  wellFormed n := by
    rw [State.upstreamAt, hs.base, hs.events]
    exact ht.wellFormed n
  delivered := by
    rw [hs.since, hs.delivered, hs.events]
    exact ht.delivered
  applied := by
    rw [hs.applied, hs.delivered]
    exact ht.applied
  placed := hp

/-- Each event that is replayed keeps up the chase. -/
theorem Synced.replay (hs : Synced s) (hnamed : ∀ change ∈ s.events, change.Named isToken)
    (htoken : isToken s.token) (hn : s.since + s.applied + n ≤ s.events.length) :
    relayLaw.Chases s.base.relays s.events s.readAt (s.since + s.applied + n)
        (((s.pending.take n).map Change.event).foldl (applyEvent s.token) s.view).relays.get? ∧
      sessionLaw.Chases s.base.sessions s.events s.readAt (s.since + s.applied + n)
        (((s.pending.take n).map Change.event).foldl (applyEvent s.token) s.view).sessions.get? := by
  induction n with
  | zero => exact ⟨hs.relays, hs.sessions⟩
  | succ n ih =>
    obtain ⟨hrelays, hsessions⟩ := ih (by omega)
    have hlt : s.since + s.applied + n < s.events.length := by omega
    have hget : s.events[s.since + s.applied + n]? = some s.events[s.since + s.applied + n] :=
      List.getElem?_eq_getElem hlt
    have hnext : s.pending[n]? = some s.events[s.since + s.applied + n] := by
      rw [State.pending, List.getElem?_drop, hget]
    have hchange := hnamed _ (List.getElem_mem hlt)
    rw [List.take_add_one, hnext, Option.toList_some, List.map_append, List.foldl_append,
      List.map_singleton, List.foldl_cons, List.foldl_nil, relays_applyEvent hchange htoken,
      sessions_applyEvent hchange htoken]
    exact ⟨hrelays.step hget, hsessions.step hget⟩

theorem Tracking.read (ht : Tracking isToken s) (hphase : s.phase = .reading)
    (hn : n ≤ s.delivered - s.applied) : Tracking isToken (s.read n) := by
  have hdelivered := ht.delivered
  have happlied := ht.applied
  have hplaced := ht.placed
  rw [hphase] at hplaced
  have hne : s.phase ≠ .connecting := by
    rw [hphase]
    exact Phase.noConfusion
  have hreplay := hplaced.replay ht.named (ht.token hne) (n := n) (by omega)
  rw [Nat.add_assoc] at hreplay
  have happ : s.applied + n ≤ s.delivered := by omega
  have htracking : Tracking isToken { s with
      view := ((s.pending.take n).map Change.event).foldl (applyEvent s.token) s.view
      lastKeepAliveAt := s.now
      lastEventAt := if n = 0 then s.lastEventAt else s.now
      applied := s.applied + n } := by
    refine ⟨ht.named, ht.token, ht.wellFormed, ht.delivered, happ, ?_⟩
    rw [hphase]
    exact ⟨hreplay.1, hreplay.2, hplaced.readAt⟩
  refine htracking.same readOn_same hne (Synced.readOn ?_)
  exact ⟨hreplay.1, hreplay.2, hplaced.readAt⟩

theorem upstreamAt_happen {change : Change} (hw : ∀ n, (s.upstreamAt n).WellFormed)
    (hn : change.Named isToken) (hp : change.Possible s.upstream) (n : ℕ) :
    ({ s with events := s.events ++ [change] }.upstreamAt n).WellFormed := by
  by_cases hle : n ≤ s.events.length
  · rw [upstreamAt_append hle]
    exact hw n
  · have hall : { s with events := s.events ++ [change] }.upstreamAt n =
        s.upstream.apply change := by
      rw [← upstreamAt_succ, State.upstreamAt, State.upstreamAt, List.take_of_length_le,
        List.take_of_length_le] <;> simp only [List.length_append, List.length_singleton] <;> omega
    rw [hall]
    exact (hw _).apply hn hp

theorem Partial.append {changes : List Change} {listed read : List String}
    {rest : List (Option String)} (hp : Partial s a listed read rest) :
    Partial { s with events := s.events ++ changes } a listed read rest where
  since := hp.since
  readAt := hp.readAt
  now := by
    have hnow := hp.now
    simp only [List.length_append]
    omega
  start := hp.start
  relays := hp.relays
  rows id := by
    rw [upstreamAt_append (Nat.le_trans hp.readAt hp.now)]
    exact hp.rows id
  sessions uuid := by
    rcases hp.sessions uuid with hnone | ⟨c, hc, hcb, heq⟩
    · exact .inl hnone
    · exact .inr ⟨c, hc, hcb, by rw [upstreamAt_append (Nat.le_trans hcb hp.now), ← heq]⟩
  kept uuid session hread hall := by
    refine hp.kept uuid session hread fun c hc hcb ↦ ?_
    rw [← hall c hc hcb, upstreamAt_append (Nat.le_trans hcb hp.now)]

theorem Synced.append {changes : List Change} (hs : Synced s)
    (hn : s.since + s.applied ≤ s.events.length) :
    Synced { s with events := s.events ++ changes } where
  relays := hs.relays.append hn hs.readAt
  sessions := hs.sessions.append hn hs.readAt
  readAt := by
    have hready := hs.readAt
    simp only [List.length_append]
    omega

theorem At.append {changes : List Change} {phase : Phase} (hp : At s phase)
    (hn : s.since + s.applied ≤ s.events.length) :
    At { s with events := s.events ++ changes } phase := by
  have hquiet : Quiet s → Quiet { s with events := s.events ++ changes } :=
    fun hq ↦ ⟨hq.lastEventAt, hq.lastKeepAliveAt⟩
  cases phase with
  | connecting => exact hquiet hp
  | subscribing accepted =>
    cases accepted with
    | false => exact hquiet hp
    | true => exact ⟨hquiet hp.1, hp.2⟩
  | relays answer =>
    refine ⟨hquiet hp.1, hp.2.1, fun rows hrows ↦ ?_⟩
    obtain ⟨hsince, hnow, hr⟩ := hp.2.2 rows hrows
    refine ⟨hsince, ?_, ?_⟩
    · simp only [List.length_append]
      omega
    · rw [upstreamAt_append hnow]
      exact hr
  | sessions relayId answer rest =>
    obtain ⟨hq, ⟨a, read, hpartial⟩, hr⟩ := hp
    refine ⟨hquiet hq, ⟨a, read, hpartial.append⟩, fun rows hrows ↦ ?_⟩
    rw [upstreamAt_append hpartial.now]
    exact hr rows hrows
  | reading => exact Synced.append hp hn
  | ending => exact hp.imp hquiet fun hs ↦ hs.append hn

/-- States that differ in nothing that `At` looks at. -/
structure Alike (s s' : State) : Prop where
  base : s'.base = s.base
  events : s'.events = s.events
  view : s'.view = s.view
  lastEventAt : s'.lastEventAt = s.lastEventAt
  lastKeepAliveAt : s'.lastKeepAliveAt = s.lastKeepAliveAt
  since : s'.since = s.since
  applied : s'.applied = s.applied
  readAt : s'.readAt = s.readAt

theorem Alike.upstreamAt (h : Alike s s') : s'.upstreamAt n = s.upstreamAt n := by
  rw [State.upstreamAt, State.upstreamAt, h.base, h.events]

theorem Alike.quiet (h : Alike s s') (hq : Quiet s) : Quiet s' where
  lastEventAt := h.lastEventAt ▸ hq.lastEventAt
  lastKeepAliveAt := h.lastKeepAliveAt ▸ hq.lastKeepAliveAt

theorem Alike.synced (h : Alike s s') (hs : Synced s) : Synced s' := by
  refine ⟨?_, ?_, ?_⟩
  · rw [h.base, h.events, h.view, h.since, h.applied, h.readAt]
    exact hs.relays
  · rw [h.base, h.events, h.view, h.since, h.applied, h.readAt]
    exact hs.sessions
  · rw [h.events, h.readAt]
    exact hs.readAt

theorem Alike.partial {listed read : List String} {rest : List (Option String)} (h : Alike s s')
    (hp : Partial s a listed read rest) : Partial s' a listed read rest where
  since := h.since ▸ hp.since
  readAt := h.readAt ▸ hp.readAt
  now := h.readAt ▸ h.events ▸ hp.now
  start := h.applied.trans hp.start
  relays := h.view ▸ hp.relays
  rows id := by
    rw [h.upstreamAt]
    exact hp.rows id
  sessions uuid := by
    simp only [h.view, h.since, h.readAt, h.upstreamAt]
    exact hp.sessions uuid
  kept uuid session := by
    simp only [h.view, h.since, h.readAt, h.upstreamAt]
    exact hp.kept uuid session

theorem Alike.at {phase : Phase} (h : Alike s s') (hp : At s phase) : At s' phase := by
  cases phase with
  | connecting => exact h.quiet hp
  | subscribing accepted =>
    cases accepted with
    | false => exact h.quiet hp
    | true => exact ⟨h.quiet hp.1, h.applied.trans hp.2⟩
  | relays answer =>
    refine ⟨h.quiet hp.1, h.applied.trans hp.2.1, ?_⟩
    rw [h.since, h.readAt, h.events, h.upstreamAt]
    exact hp.2.2
  | sessions relayId answer rest =>
    obtain ⟨hq, ⟨a, read, hpartial⟩, hr⟩ := hp
    refine ⟨h.quiet hq, ⟨a, read, h.partial hpartial⟩, ?_⟩
    rw [h.readAt, h.upstreamAt]
    exact hr
  | reading => exact h.synced hp
  | ending => exact hp.imp h.quiet h.synced

theorem Partial.answered {listed read : List String} {rest : List (Option String)}
    (hp : Partial s a listed read rest) {phase : Phase} :
    Partial { s with phase := phase, readAt := s.events.length } a listed read rest where
  since := hp.since
  readAt := Nat.le_trans hp.readAt hp.now
  now := Nat.le_refl _
  start := hp.start
  relays := hp.relays
  rows := hp.rows
  sessions uuid := by
    rcases hp.sessions uuid with hnone | ⟨c, hc, hcb, heq⟩
    · exact .inl hnone
    · exact .inr ⟨c, hc, Nat.le_trans hcb hp.now, heq⟩
  kept uuid session hread hall :=
    hp.kept uuid session hread fun c hc hcb ↦ hall c hc (Nat.le_trans hcb hp.now)

theorem partial_start {rows : List (Option String)} (hsince : s.since ≤ s.readAt)
    (hnow : s.readAt ≤ s.events.length) (happ : s.applied = 0)
    (hw : (s.upstreamAt s.readAt).WellFormed) (hr : RelayRows (s.upstreamAt s.readAt) rows) :
    Partial { s with view := .empty } s.readAt [] [] rows where
  since := hsince
  readAt := Nat.le_refl _
  now := hnow
  start := happ
  relays _ := rfl
  rows id := by
    refine Iff.trans ?_ (or_iff_right List.not_mem_nil).symm
    refine ⟨fun hsome ↦ ?_, fun h ↦ (hr id h.1).mp h.2⟩
    obtain ⟨relay, hrelay⟩ := Option.isSome_iff_exists.mp hsome
    have hid := (hw.relays id relay hrelay).2
    exact ⟨hid, (hr id hid).mpr hsome⟩
  sessions _ := .inl rfl
  kept _ _ hread := (List.not_mem_nil hread).elim

theorem Tracking.alike (ht : Tracking isToken s) (h : Alike s s') (htoken : s'.token = s.token)
    (hphase : s'.phase = s.phase) (hd : s'.since + s'.delivered ≤ s'.events.length)
    (ha : s'.applied ≤ s'.delivered) : Tracking isToken s' where
  named := h.events ▸ ht.named
  token hne := htoken ▸ ht.token (hphase ▸ hne)
  wellFormed n := by
    rw [h.upstreamAt]
    exact ht.wellFormed n
  delivered := hd
  applied := ha
  placed := by
    rw [hphase]
    exact h.at ht.placed

/-- Wherever `run` is, nothing is served or the view keeps up with the stream. -/
theorem At.quiet_or_synced {phase : Phase} (hp : At s phase) : Quiet s ∨ Synced s := by
  cases phase with
  | connecting => exact .inl hp
  | subscribing accepted =>
    cases accepted with
    | false => exact .inl hp
    | true => exact .inl hp.1
  | relays answer => exact .inl hp.1
  | sessions relayId answer rest => exact .inl hp.1
  | reading => exact .inr hp
  | ending => exact hp

theorem Tracking.step (ht : Tracking isToken s) (hs : Step isToken s s') :
    Tracking isToken s' := by
  have hplaced := ht.placed
  have hdelivered := ht.delivered
  have happlied := ht.applied
  have hne : ∀ phase, s.phase = phase → phase ≠ .connecting → isToken s.token :=
    fun phase heq hn ↦ ht.token (heq ▸ hn)
  cases hs with
  | happen change hn hp =>
    refine ⟨fun other ho ↦ ?_, ht.token, upstreamAt_happen ht.wellFormed hn hp, ?_, ht.applied,
      hplaced.append (by omega)⟩
    · rcases List.mem_append.mp ho with ho | ho
      · exact ht.named other ho
      · rw [List.mem_singleton.mp ho]
        exact hn
    · simp only [List.length_append]
      omega
  | tick now => exact ht.alike ⟨rfl, rfl, rfl, rfl, rfl, rfl, rfl, rfl⟩ rfl rfl hdelivered happlied
  | restart => exact ht.alike ⟨rfl, rfl, rfl, rfl, rfl, rfl, rfl, rfl⟩ rfl rfl hdelivered happlied
  | destroy => exact ht.alike ⟨rfl, rfl, rfl, rfl, rfl, rfl, rfl, rfl⟩ rfl rfl hdelivered happlied
  | load token hphase hstop htoken =>
    rw [hphase] at hplaced
    exact ⟨ht.named, fun _ ↦ htoken, ht.wellFormed, hdelivered, happlied,
      ⟨hplaced.lastEventAt, hplaced.lastKeepAliveAt⟩⟩
  | accept hphase =>
    rw [hphase] at hplaced
    exact ⟨ht.named, fun _ ↦ hne _ hphase Phase.noConfusion, ht.wellFormed, Nat.le_refl _,
      Nat.le_refl _, ⟨hplaced.lastEventAt, hplaced.lastKeepAliveAt⟩, rfl⟩
  | deliver hlt =>
    exact ht.alike ⟨rfl, rfl, rfl, rfl, rfl, rfl, rfl, rfl⟩ rfl rfl hlt (Nat.le_succ_of_le happlied)
  | subscribe hphase =>
    rw [hphase] at hplaced
    have hq : Quiet s := hplaced.1
    refine ⟨ht.named, fun _ ↦ hne _ hphase Phase.noConfusion, ht.wellFormed, hdelivered,
      happlied, ?_⟩
    dsimp only
    split
    · exact .inl ⟨hq.lastEventAt, hq.lastKeepAliveAt⟩
    · exact ⟨⟨hq.lastEventAt, hq.lastKeepAliveAt⟩, hplaced.2, fun _ h ↦ by cases h⟩
  | answerRelays rows hphase hr =>
    rw [hphase] at hplaced
    obtain ⟨hq, happ, -⟩ := hplaced
    refine ⟨ht.named, fun _ ↦ hne _ hphase Phase.noConfusion, ht.wellFormed, hdelivered,
      happlied, ⟨hq.lastEventAt, hq.lastKeepAliveAt⟩, happ, fun _ h ↦ ?_⟩
    cases h
    exact ⟨Nat.le_trans (Nat.le_add_right ..) hdelivered, Nat.le_refl _, hr⟩
  | receiveRelays rows hphase =>
    rw [hphase] at hplaced
    obtain ⟨hq, happ, hanswer⟩ := hplaced
    obtain ⟨hsince, hnow, hr⟩ := hanswer rows rfl
    have hpartial := partial_start hsince hnow happ (ht.wellFormed _) hr
    have hsame : SameStream { s with view := .empty } (s.receiveRelays rows) := nextRelay_same
    refine ht.same ⟨hsame.base, hsame.events, hsame.token, hsame.since, hsame.delivered,
      hsame.applied⟩ (by rw [hphase]; exact Phase.noConfusion) ?_
    exact hpartial.nextRelay ⟨hq.lastEventAt, hq.lastKeepAliveAt⟩ ht.wellFormed
  | answerSessions relayId rows rest hphase hr =>
    rw [hphase] at hplaced
    obtain ⟨hq, ⟨a, read, hpartial⟩, -⟩ := hplaced
    refine ⟨ht.named, fun _ ↦ hne _ hphase Phase.noConfusion, ht.wellFormed, hdelivered,
      happlied, ⟨hq.lastEventAt, hq.lastKeepAliveAt⟩, ⟨a, read, hpartial.answered⟩, fun _ h ↦ ?_⟩
    cases h
    exact hr
  | receiveSessions relayId rows rest hphase =>
    rw [hphase] at hplaced
    obtain ⟨hq, ⟨a, read, hpartial⟩, hanswer⟩ := hplaced
    have hpartial := hpartial.receive (ht.wellFormed _) (hanswer rows rfl)
    have hsame : SameStream { s with view := { s.view with
        sessions := rows.foldl (State.setSession relayId) s.view.sessions } }
        (s.receiveSessions relayId rows rest) := nextRelay_same
    refine ht.same ⟨hsame.base, hsame.events, hsame.token, hsame.since, hsame.delivered,
      hsame.applied⟩ (by rw [hphase]; exact Phase.noConfusion) ?_
    exact hpartial.nextRelay ⟨hq.lastEventAt, hq.lastKeepAliveAt⟩ ht.wellFormed
  | read n hphase hn => exact ht.read hphase hn
  | fail hphase =>
    refine ⟨ht.named, fun _ ↦ ht.token hphase, ht.wellFormed, hdelivered, happlied, ?_⟩
    have hend : At s .ending := hplaced.quiet_or_synced
    exact Alike.at (s := s) ⟨rfl, rfl, rfl, rfl, rfl, rfl, rfl, rfl⟩ hend
  | disconnect hphase =>
    exact ⟨ht.named, fun hn ↦ absurd rfl hn, ht.wellFormed, hdelivered, happlied,
      ⟨Int.le_refl _, Int.le_refl _⟩⟩

end Steps

section Runs

/-- A service that has not connected yet. -/
structure Starts (s : State) : Prop where
  wellFormed : s.base.WellFormed
  events : s.events = []
  phase : s.phase = .connecting
  lastEventAt : s.lastEventAt = 0
  lastKeepAliveAt : s.lastKeepAliveAt = 0
  stream : s.since = 0 ∧ s.delivered = 0 ∧ s.applied = 0

/-- The view is that of the server after the first `n` changes. -/
def ShowsAt (s : State) (n : ℕ) : Prop :=
  s.view.relays.get? = (s.upstreamAt n).relays ∧ s.view.sessions.get? = (s.upstreamAt n).sessions

theorem Starts.tracking (h₀ : Starts s) : Tracking isToken s where
  named change hc := by
    rw [h₀.events] at hc
    cases hc
  token hne := absurd h₀.phase hne
  wellFormed n := by
    rw [State.upstreamAt, h₀.events, List.take_nil]
    exact h₀.wellFormed
  delivered := by
    rw [h₀.stream.1, h₀.stream.2.1]
    omega
  applied := by
    rw [h₀.stream.2.2]
    omega
  placed := by
    rw [h₀.phase]
    exact ⟨by rw [h₀.lastEventAt], by rw [h₀.lastKeepAliveAt]⟩

theorem Tracking.run (ht : Tracking isToken s) (hr : ReflTransGen (Step isToken) s s') :
    Tracking isToken s' := by
  induction hr with
  | refl => exact ht
  | tail _ hs ih => exact ih.step hs

theorem Quiet.not_fresh (hq : Quiet s) : s.isFresh = false := by
  have hevent := hq.lastEventAt
  have halive := hq.lastKeepAliveAt
  have hlast : ¬0 < max s.lastEventAt s.lastKeepAliveAt := by omega
  rw [State.isFresh, decide_eq_false hlast, Bool.false_and]

/-- A fresh view that has applied what was delivered shows the server after it,
as soon as nothing in its baseline is newer. -/
theorem live_view_converges {s₀ : State} (h₀ : Starts s₀)
    (hr : ReflTransGen (Step isToken) s₀ s) (hf : s.isFresh = true) (ha : s.applied = s.delivered)
    (hb : s.readAt ≤ s.since + s.delivered) : ShowsAt s (s.since + s.applied) := by
  have ht := h₀.tracking.run hr
  rcases ht.placed.quiet_or_synced with hq | hs
  · rw [hq.not_fresh] at hf
    cases hf
  · rw [ShowsAt, relays_upstreamAt, sessions_upstreamAt]
    exact ⟨hs.relays.caught_up (ha ▸ hb), hs.sessions.caught_up (ha ▸ hb)⟩

end Runs

section Sample

def sampleBase : Upstream := ⟨fun id ↦ if id = "r" then some ⟨"r"⟩ else none, fun _ ↦ none⟩

def sampleStart : State :=
  ⟨sampleBase, [], "", .empty, 0, 0, 0, false, false, .connecting, 0, 0, 0, 0⟩

def sampleInfo : Info := ⟨some "u", []⟩

/-- The service has subscribed and knows the relay. -/
def sampleListed : State :=
  ⟨sampleBase, [], "token", ⟨OrderedMap.empty.set "r" ⟨"r"⟩, .empty⟩, 0, 0, 100, false, false,
    .sessions "r" none [], 0, 0, 0, 0⟩

/-- A session was opened before the server answered for the sessions of the relay,
and its event is still on its way. -/
def sampleAhead : State :=
  ⟨sampleBase, [.opened "u" "r" sampleInfo], "token", ⟨OrderedMap.empty.set "r" ⟨"r"⟩,
    OrderedMap.empty.set "u" ⟨"r", sampleInfo⟩⟩, 0, 100, 100, false, false, .reading, 0, 0, 0, 1⟩

def sampleCaughtUp : State := { sampleAhead with delivered := 1 }.read 1

theorem sample_starts : Starts sampleStart := by
  refine ⟨⟨fun id relay h ↦ ?_, fun uuid session h ↦ ?_⟩, rfl, rfl, rfl, rfl, rfl, rfl, rfl⟩
  · simp only [sampleStart, sampleBase] at h
    split at h
    · next hid =>
      cases h
      exact ⟨by rw [hid], by simp [hid]⟩
    · cases h
  · cases h

theorem sample_listed : ReflTransGen (Step (· = "token")) sampleStart sampleListed := by
  have hrows : RelayRows sampleStart.upstream [some "r"] := by
    intro id _
    by_cases hid : id = "r" <;> simp [sampleStart, State.upstream, State.upstreamAt, sampleBase, hid]
  refine .head (.tick 100) (.head (.load "token" rfl rfl rfl) (.head (.accept rfl) ?_))
  exact .head (.subscribe rfl) (.head (.answerRelays [some "r"] rfl hrows)
    (.single (.receiveRelays [some "r"] rfl)))

theorem sample_ahead : ReflTransGen (Step (· = "token")) sampleStart sampleAhead := by
  have hrows : SessionRows (sampleBase.apply (.opened "u" "r" sampleInfo)) "r"
      [some sampleInfo] := by
    intro uuid info hu
    rw [List.mem_singleton]
    constructor
    · intro heq
      cases heq
      cases hu
      rfl
    · intro hsession
      by_cases huuid : uuid = "u"
      · subst huuid
        have hself : (sampleBase.apply (.opened "u" "r" sampleInfo)).sessions "u" =
          some ⟨"r", sampleInfo⟩ := rfl
        cases hself.symm.trans hsession
        rfl
      · cases (Function.update_of_ne huuid ..).symm.trans hsession
  refine sample_listed.trans (.head (.happen (.opened "u" "r" sampleInfo) ?_ ?_) ?_)
  · exact ⟨by decide, by decide, rfl⟩
  · rfl
  · exact .head (.answerSessions "r" [some sampleInfo] [] rfl hrows)
      (.single (.receiveSessions "r" [some sampleInfo] [] rfl))

theorem sample_caughtUp : ReflTransGen (Step (· = "token")) sampleStart sampleCaughtUp := by
  refine (sample_ahead.tail (.deliver ?_)).tail (.read 1 rfl ?_)
  · decide
  · decide

theorem sample_converges : ShowsAt sampleCaughtUp 1 :=
  live_view_converges sample_starts sample_caughtUp (by decide) rfl (by decide)

theorem ahead_of_stream : ¬ ∀ (isToken : String → Prop) (s₀ s : State), Starts s₀ →
    ReflTransGen (Step isToken) s₀ s → s.isFresh = true → s.applied = s.delivered →
      ShowsAt s (s.since + s.applied) := by
  intro hall
  have hshows := (hall _ sampleStart sampleAhead sample_starts sample_ahead (by decide) rfl).2
  have hview : (sampleAhead.view.sessions.get? "u").isSome = true := by decide
  rw [hshows] at hview
  cases hview

end Sample

end RustdeskConsole.ServerEvents
