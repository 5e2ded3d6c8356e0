import RustdeskConsole.Collections.OrderedMap
import RustdeskConsole.Effects.Replay

namespace RustdeskConsole.ServerEvents

open Collections Effects Function

/-- The row of a session. `uuid` is there if it is a string. -/
structure Info where
  uuid : Option String
  fields : List (String × String)
  deriving DecidableEq

structure LiveSession where
  relayId : String
  info : Info
  deriving DecidableEq

structure RelayPresence where
  id : String
  deriving DecidableEq

/-- A field of the data of an event. -/
inductive Value
  | text (value : String)
  | record (info : Info)
  | other

structure EventData where
  uuid : Option Value
  relayId : Option Value
  session : Option Value
  id : Option Value

structure ServerEvent where
  kind : String
  data : EventData

structure View where
  relays : OrderedMap String RelayPresence
  sessions : OrderedMap String LiveSession

def View.empty : View := ⟨.empty, .empty⟩

def applyEvent (token : String) (view : View) (event : ServerEvent) : View :=
  match event.kind with
  | "session_opened" =>
    match event.data.uuid, event.data.relayId, event.data.session with
    | some (.text uuid), some (.text relayId), some (.record session) =>
      if uuid ≠ "" ∧ relayId ≠ "" then
        { view with sessions := view.sessions.set uuid ⟨relayId, session⟩ }
      else view
    | _, _, _ => view
  | "session_closed" =>
    match event.data.uuid with
    | some (.text uuid) => { view with sessions := view.sessions.erase uuid }
    | _ => view
  | "relay_registered" =>
    match event.data.id with
    | some (.text id) =>
      if id ≠ "" ∧ id ≠ token then { view with relays := view.relays.set id ⟨id⟩ } else view
    | _ => view
  | "relay_disconnected" =>
    match event.data.id with
    | some (.text id) =>
      if id ≠ "" then
        { relays := view.relays.erase id
          sessions := view.sessions.filterMap fun session ↦
            if session.relayId = id then none else some session }
      else view
    | _ => view
  | _ => view

section Upstream

/-- What happens at the server. -/
inductive Change
  | opened (uuid relayId : String) (info : Info)
  | closed (uuid : String)
  | registered (id : String)
  | disconnected (id : String)
  | other (kind : String)

/-- The event that a change is published as. -/
def Change.event : Change → ServerEvent
  | .opened uuid relayId info =>
    ⟨"session_opened", ⟨some (.text uuid), some (.text relayId), some (.record info), none⟩⟩
  | .closed uuid => ⟨"session_closed", ⟨some (.text uuid), none, none, none⟩⟩
  | .registered id => ⟨"relay_registered", ⟨none, none, none, some (.text id)⟩⟩
  | .disconnected id => ⟨"relay_disconnected", ⟨none, none, none, some (.text id)⟩⟩
  | .other kind => ⟨kind, ⟨none, none, none, none⟩⟩

/-- The relays and sessions at the server. -/
structure Upstream where
  relays : String → Option RelayPresence
  sessions : String → Option LiveSession

/-- The disconnection of a relay ends its sessions. -/
def Upstream.apply (upstream : Upstream) : Change → Upstream
  | .opened uuid relayId info =>
    { upstream with sessions := update upstream.sessions uuid (some ⟨relayId, info⟩) }
  | .closed uuid => { upstream with sessions := update upstream.sessions uuid none }
  | .registered id => { upstream with relays := update upstream.relays id (some ⟨id⟩) }
  | .disconnected id =>
    { relays := update upstream.relays id none
      sessions := fun uuid ↦ (upstream.sessions uuid).filter (·.relayId ≠ id) }
  | .other _ => upstream

/-- A session is one of a relay that is registered. -/
structure Upstream.WellFormed (upstream : Upstream) : Prop where
  relays : ∀ id relay, upstream.relays id = some relay → relay = ⟨id⟩ ∧ id ≠ ""
  sessions : ∀ uuid session, upstream.sessions uuid = some session →
    (upstream.relays session.relayId).isSome ∧ session.info.uuid = some uuid

/-- Names are not empty, and no relay has the name of a token. -/
def Change.Named (isToken : String → Prop) : Change → Prop
  | .opened uuid relayId info => uuid ≠ "" ∧ relayId ≠ "" ∧ info.uuid = some uuid
  | .closed _ => True
  | .registered id => id ≠ "" ∧ ¬isToken id
  | .disconnected id => id ≠ ""
  | .other kind =>
    kind ∉ ["session_opened", "session_closed", "relay_registered", "relay_disconnected"]

/-- A session is opened at a relay that is there. -/
def Change.Possible (upstream : Upstream) : Change → Prop
  | .opened _ relayId _ => (upstream.relays relayId).isSome
  | _ => True

/-- What a baseline request for the relays replies with. -/
def RelayRows (upstream : Upstream) (rows : List (Option String)) : Prop :=
  ∀ id, id ≠ "" → (some id ∈ rows ↔ (upstream.relays id).isSome)

/-- What a baseline request for the sessions of a relay replies with. -/
def SessionRows (upstream : Upstream) (relayId : String) (rows : List (Option Info)) : Prop :=
  ∀ uuid info, info.uuid = some uuid →
    (some info ∈ rows ↔ upstream.sessions uuid = some ⟨relayId, info⟩)

end Upstream

section Laws

def relayLaw : EventLaw String RelayPresence Change where
  write
    | .registered id, k => if k = id then some (some ⟨id⟩) else none
    | .disconnected id, k => if k = id then some none else none
    | _, _ => none
  drops _ _ := false

def sessionLaw : EventLaw String LiveSession Change where
  write
    | .opened uuid relayId info, k => if k = uuid then some (some ⟨relayId, info⟩) else none
    | .closed uuid, k => if k = uuid then some none else none
    | _, _ => none
  drops
    | .disconnected id, session => session.relayId = id
    | _, _ => false

variable {upstream : Upstream} {change : Change}

theorem relays_apply : (upstream.apply change).relays = relayLaw.step upstream.relays change := by
  funext k
  have hkeep : relayLaw.write change k = none →
      relayLaw.step upstream.relays change k = upstream.relays k :=
    fun h ↦ EventLaw.step_keep h fun _ ↦ rfl
  cases change with
  | registered id =>
    by_cases hk : k = id
    · subst hk
      rw [EventLaw.step_write (if_pos rfl)]
      exact update_self ..
    · rw [hkeep (if_neg hk)]
      exact update_of_ne hk ..
  | disconnected id =>
    by_cases hk : k = id
    · subst hk
      rw [EventLaw.step_write (if_pos rfl)]
      exact update_self ..
    · rw [hkeep (if_neg hk)]
      exact update_of_ne hk ..
  | opened uuid relayId info => exact (hkeep rfl).symm
  | closed uuid => exact (hkeep rfl).symm
  | other kind => exact (hkeep rfl).symm

theorem sessions_apply :
    (upstream.apply change).sessions = sessionLaw.step upstream.sessions change := by
  funext k
  have hkeep : sessionLaw.write change k = none →
      (∀ session, sessionLaw.drops change session = false) →
        sessionLaw.step upstream.sessions change k = upstream.sessions k := EventLaw.step_keep
  cases change with
  | opened uuid relayId info =>
    by_cases hk : k = uuid
    · subst hk
      rw [EventLaw.step_write (if_pos rfl)]
      exact update_self ..
    · rw [hkeep (if_neg hk) fun _ ↦ rfl]
      exact update_of_ne hk ..
  | closed uuid =>
    by_cases hk : k = uuid
    · subst hk
      rw [EventLaw.step_write (if_pos rfl)]
      exact update_self ..
    · rw [hkeep (if_neg hk) fun _ ↦ rfl]
      exact update_of_ne hk ..
  | disconnected id =>
    rw [EventLaw.step_drop rfl]
    simp [Upstream.apply, sessionLaw]
  | registered id => exact (hkeep rfl fun _ ↦ rfl).symm
  | other kind => exact (hkeep rfl fun _ ↦ rfl).symm

variable {isToken : String → Prop} {token : String} {view : View}

theorem applyEvent_other {kind : String} (hn : (Change.other kind).Named isToken) :
    applyEvent token view (Change.other kind).event = view := by
  simp only [Change.Named, List.mem_cons, List.not_mem_nil, or_false, not_or] at hn
  simp only [applyEvent, Change.event]
  split
  · exact absurd rfl hn.1
  · exact absurd rfl hn.2.1
  · exact absurd rfl hn.2.2.1
  · exact absurd rfl hn.2.2.2
  · rfl

/-- The view takes an event as the server took the change. -/
theorem relays_applyEvent (hn : change.Named isToken) (ht : isToken token) :
    (applyEvent token view change.event).relays.get? =
      relayLaw.step view.relays.get? change := by
  funext k
  have hkeep : relayLaw.write change k = none →
      relayLaw.step view.relays.get? change k = view.relays.get? k :=
    fun h ↦ EventLaw.step_keep h fun _ ↦ rfl
  cases change with
  | registered id =>
    have hid : id ≠ "" ∧ id ≠ token := ⟨hn.1, fun heq ↦ hn.2 (heq ▸ ht)⟩
    simp only [applyEvent, Change.event, if_pos hid]
    rw [OrderedMap.get?_set]
    split
    · next hk => rw [EventLaw.step_write (if_pos hk)]
    · next hk => rw [hkeep (if_neg hk)]
  | disconnected id =>
    simp only [applyEvent, Change.event, if_pos (show id ≠ "" from hn)]
    rw [OrderedMap.get?_erase]
    split
    · next hk => rw [EventLaw.step_write (if_pos hk)]
    · next hk => rw [hkeep (if_neg hk)]
  | opened uuid relayId info =>
    simp only [applyEvent, Change.event, if_pos (show uuid ≠ "" ∧ relayId ≠ "" from ⟨hn.1, hn.2.1⟩)]
    exact (hkeep rfl).symm
  | closed uuid => exact (hkeep rfl).symm
  | other kind =>
    rw [applyEvent_other hn]
    exact (hkeep rfl).symm

theorem sessions_applyEvent (hn : change.Named isToken) (ht : isToken token) :
    (applyEvent token view change.event).sessions.get? =
      sessionLaw.step view.sessions.get? change := by
  funext k
  have hkeep : sessionLaw.write change k = none →
      (∀ session, sessionLaw.drops change session = false) →
        sessionLaw.step view.sessions.get? change k = view.sessions.get? k := EventLaw.step_keep
  cases change with
  | opened uuid relayId info =>
    simp only [applyEvent, Change.event, if_pos (show uuid ≠ "" ∧ relayId ≠ "" from ⟨hn.1, hn.2.1⟩)]
    rw [OrderedMap.get?_set]
    split
    · next hk => rw [EventLaw.step_write (if_pos hk)]
    · next hk => rw [hkeep (if_neg hk) fun _ ↦ rfl]
  | closed uuid =>
    simp only [applyEvent, Change.event]
    rw [OrderedMap.get?_erase]
    split
    · next hk => rw [EventLaw.step_write (if_pos hk)]
    · next hk => rw [hkeep (if_neg hk) fun _ ↦ rfl]
  | disconnected id =>
    simp only [applyEvent, Change.event, if_pos (show id ≠ "" from hn)]
    rw [OrderedMap.get?_filterMap, EventLaw.step_drop rfl]
    cases view.sessions.get? k with
    | none => rfl
    | some session => by_cases hid : session.relayId = id <;> simp [sessionLaw, Option.filter, hid]
  | registered id =>
    have hid : id ≠ "" ∧ id ≠ token := ⟨hn.1, fun heq ↦ hn.2 (heq ▸ ht)⟩
    simp only [applyEvent, Change.event, if_pos hid]
    exact (hkeep rfl fun _ ↦ rfl).symm
  | other kind =>
    rw [applyEvent_other hn]
    exact (hkeep rfl fun _ ↦ rfl).symm

end Laws

/-- Where `run` is. A baseline request is answered by the server before its
answer arrives. -/
inductive Phase
  | connecting
  | subscribing (accepted : Bool)
  | relays (answer : Option (List (Option String)))
  | sessions (relayId : String) (answer : Option (List (Option Info)))
    (rest : List (Option String))
  | reading
  | ending

/-- The server with all that ever happened there, and the service. The stream
carries what has happened from `since` on; `delivered` and `applied` count its
events, and `readAt` is when the server last answered a baseline request. -/
structure State where
  base : Upstream
  events : List Change
  token : String
  view : View
  lastEventAt : ℤ
  lastKeepAliveAt : ℤ
  now : ℤ
  stopping : Bool
  restartRequested : Bool
  phase : Phase
  since : ℕ
  delivered : ℕ
  applied : ℕ
  readAt : ℕ

namespace State

variable (s : State)

def upstreamAt (n : ℕ) : Upstream := (s.events.take n).foldl Upstream.apply s.base

def upstream : Upstream := s.upstreamAt s.events.length

/-- The live view is only served while the stream is delivering. -/
def isFresh : Bool :=
  let last := max s.lastEventAt s.lastKeepAliveAt
  0 < last && s.now - last < 45000

/-- The top of the reading loop of `follow`. -/
def readOn : State :=
  if s.stopping || s.restartRequested then { s with phase := .ending }
  else { s with phase := .reading }

/-- The loop of `refreshBaseline`, up to the next request. -/
def nextRelay (s : State) : List (Option String) → State
  | [] => { s with lastKeepAliveAt := s.now }.readOn
  | none :: rest => s.nextRelay rest
  | some id :: rest =>
    if id = "" then s.nextRelay rest
    else { s with
      view := { s.view with relays := s.view.relays.set id ⟨id⟩ }
      phase := .sessions id none rest }

def setSession (relayId : String) (sessions : OrderedMap String LiveSession) :
    Option Info → OrderedMap String LiveSession
  | none => sessions
  | some info => info.uuid.elim sessions fun uuid ↦ sessions.set uuid ⟨relayId, info⟩

def receiveRelays (rows : List (Option String)) : State :=
  { s with view := .empty }.nextRelay rows

def receiveSessions (relayId : String) (rows : List (Option Info)) (rest : List (Option String)) :
    State :=
  { s with view := { s.view with
    sessions := rows.foldl (setSession relayId) s.view.sessions } }.nextRelay rest

/-- What the stream carries after what has been applied. -/
def pending : List Change := s.events.drop (s.since + s.applied)

/-- A chunk brings the next `n` events; with none it keeps the stream alive. -/
def read (n : ℕ) : State :=
  { s with
    view := ((s.pending.take n).map Change.event).foldl (applyEvent s.token) s.view
    lastKeepAliveAt := s.now
    lastEventAt := if n = 0 then s.lastEventAt else s.now
    applied := s.applied + n }.readOn

/-- The view is no longer served once the stream ends. -/
def disconnect : State :=
  { s with lastEventAt := 0, lastKeepAliveAt := 0, phase := .connecting }

end State

/-- One step of the server, the network or the service. `isToken` are the tokens
that the service ever uses. -/
inductive Step (isToken : String → Prop) (s : State) : State → Prop
  | happen (change : Change) : change.Named isToken → change.Possible s.upstream →
    Step isToken s { s with events := s.events ++ [change] }
  | tick (now : ℤ) : Step isToken s { s with now := now }
  | restart : Step isToken s { s with restartRequested := true }
  | destroy : Step isToken s { s with stopping := true }
  | load (token : String) : s.phase = .connecting → s.stopping = false → isToken token →
    Step isToken s
      { s with token := token, restartRequested := false, phase := .subscribing false }
  | accept : s.phase = .subscribing false → Step isToken s { s with
      phase := .subscribing true
      since := s.events.length
      delivered := 0
      applied := 0 }
  | deliver : s.since + s.delivered < s.events.length →
    Step isToken s { s with delivered := s.delivered + 1 }
  | subscribe : s.phase = .subscribing true → Step isToken s
      { s with phase := if s.restartRequested then .ending else .relays none }
  | answerRelays (rows : List (Option String)) : s.phase = .relays none →
    RelayRows s.upstream rows →
    Step isToken s { s with phase := .relays (some rows), readAt := s.events.length }
  | receiveRelays (rows : List (Option String)) : s.phase = .relays (some rows) →
    Step isToken s (s.receiveRelays rows)
  | answerSessions (relayId : String) (rows : List (Option Info)) (rest : List (Option String)) :
    s.phase = .sessions relayId none rest → SessionRows s.upstream relayId rows →
    Step isToken s
      { s with phase := .sessions relayId (some rows) rest, readAt := s.events.length }
  | receiveSessions (relayId : String) (rows : List (Option Info)) (rest : List (Option String)) :
    s.phase = .sessions relayId (some rows) rest →
    Step isToken s (s.receiveSessions relayId rows rest)
  | read (n : ℕ) : s.phase = .reading → n ≤ s.delivered - s.applied → Step isToken s (s.read n)
  | fail : s.phase ≠ .connecting → Step isToken s { s with phase := .ending }
  | disconnect : s.phase = .ending → Step isToken s s.disconnect

end RustdeskConsole.ServerEvents
