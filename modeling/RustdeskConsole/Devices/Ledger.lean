import Mathlib.Data.Set.Insert
import RustdeskConsole.Effects.History
import RustdeskConsole.Effects.Logic
import RustdeskConsole.Devices.Service

namespace RustdeskConsole.Devices

open Effects Effects.History Function

/-- What the console knows of its devices: which are registered, which are
deleted and under what device id, which deletions are marked as banned, and what
the servers ban. -/
@[ext] structure Ledger where
  live : Set String
  deleted : String → Option String
  marked : Set String
  bans : Set String

def World.ledger (w : World) : Ledger where
  live := {uuid | (w.peers uuid).isSome}
  deleted uuid := (w.tombstones uuid).map (·.deviceId)
  marked := {uuid | ∃ tombstone, w.tombstones uuid = some tombstone ∧ tombstone.banned = true}
  bans := {deviceId | deviceId ∈ w.bans}

/-- The call read the tombstone, and has lifted the ban that it found recorded there. -/
def Answered (h : History) (call : Call) (uuid : String) : Prop :=
  ∃ deviceId banned, (call, .found uuid deviceId banned) ∈ h ∧
    (banned = true → deviceId ≠ "" → (call, .lifted uuid deviceId) ∈ h)

namespace Ledger

variable (l : Ledger) (h : History) (call : Call)

/-- What an event makes of the ledger. -/
def after : Event → Ledger
  | .cleared _ | .found .. => l
  | .registered uuid => { l with live := insert uuid l.live }
  | .deleted uuid deviceId =>
    { l with live := l.live \ {uuid}, deleted := update l.deleted uuid (some deviceId) }
  | .banned _ deviceId => { l with bans := insert deviceId l.bans }
  | .patched _ false => l
  | .patched uuid true => { l with marked := l.marked ∪
      {u | u = uuid ∧ (l.deleted uuid).isSome ∧ ∃ deviceId, (call, .banned uuid deviceId) ∈ h} }
  | .lifted _ deviceId => { l with bans := l.bans \ {deviceId} }
  | .removed _ false => l
  | .removed uuid true =>
    { l with deleted := update l.deleted uuid none, marked := l.marked \ {uuid} }
  | .overwritten deviceIds => { l with bans := {deviceId | deviceId ∈ deviceIds} }

/-- When a call may leave an event. -/
def Allows : Event → Prop
  | .cleared uuid => l.deleted uuid = none
  | .found uuid deviceId banned =>
    l.deleted uuid = some deviceId ∧ (banned = true ↔ uuid ∈ l.marked)
  | .registered uuid => (call, .cleared uuid) ∈ h
  | .banned .. => ∀ u saved, (call, .patched u saved) ∉ h
  | .patched uuid _ => (∀ u saved, (call, .patched u saved) ∉ h) ∧
      ∀ u deviceId, (call, .banned u deviceId) ∈ h → u = uuid
  | .lifted .. => ∀ u saved, (call, .removed u saved) ∉ h
  | .removed uuid _ => (∀ u deviceId, (call, .lifted u deviceId) ∈ h → u = uuid) ∧
      Answered h call uuid
  | .deleted .. | .overwritten _ => True

end Ledger

/-- The events that a command may leave. -/
def notes : Command → Event → Prop
  | .findTombstone uuid, event =>
    event = .cleared uuid ∨ ∃ deviceId banned, event = .found uuid deviceId banned
  | .savePeer uuid _, event => event = .registered uuid
  | .deleteRow guid deviceId .., event => event = .deleted guid deviceId
  | .ban guid deviceId, event => event = .banned guid deviceId
  | .unban uuid deviceId, event => event = .lifted uuid deviceId
  | .patchTombstone uuid _, event => ∃ saved, event = .patched uuid saved
  | .removeTombstone uuid, event => ∃ saved, event = .removed uuid saved
  | .lateWrite _, event => ∃ deviceIds, event = .overwritten deviceIds
  | _, _ => False

/-- What the call itself must have done before a command. -/
def guard (call : Call) : Command → World → Prop
  | .savePeer uuid _, w => (call, .cleared uuid) ∈ w.history
  | .ban .., w => ∀ u saved, (call, .patched u saved) ∉ w.history
  | .unban .., w => ∀ u saved, (call, .removed u saved) ∉ w.history
  | .patchTombstone uuid patch, w => (∀ u saved, (call, .patched u saved) ∉ w.history) ∧
      (∀ u deviceId, (call, .banned u deviceId) ∈ w.history → u = uuid) ∧
      (patch.banned = true ↔ ∃ deviceId, (call, .banned uuid deviceId) ∈ w.history)
  | .removeTombstone uuid, w => (∀ u deviceId, (call, .lifted u deviceId) ∈ w.history → u = uuid) ∧
      Answered w.history call uuid
  | _, _ => True

/-- A command leaves the ledger alone, or an event tells what it did to it. -/
inductive Moves (call : Call) (c : Command) (w w' : World) : Prop
  | still : w'.history = w.history → w'.ledger = w.ledger → Moves call c w w'
  | logs (event : Event) : notes c event → w.ledger.Allows w.history call event →
      w'.history = (call, event) :: w.history →
      w'.ledger = w.ledger.after w.history call event → Moves call c w w'

section Exec

variable {call : Call} {c : Command} {w w' : World} {uuid deviceId : String}

theorem ledger_deleted_eq_none : w.ledger.deleted uuid = none ↔ w.tombstones uuid = none :=
  Option.map_eq_none_iff

theorem Moves.of_peers (hh : w'.history = w.history) (ht : w'.tombstones = w.tombstones)
    (hb : w'.bans = w.bans) (hp : ∀ u, (w'.peers u).isSome = (w.peers u).isSome) :
    Moves call c w w' := by
  refine .still hh ?_
  ext u
  · simp only [World.ledger, Set.mem_ofPred_eq, hp]
  · simp only [World.ledger, ht]
  · simp only [World.ledger, ht]
  · simp only [World.ledger, hb]

theorem updatePeer_isSome (f : Peer → Peer) (u : String) :
    ((w.updatePeer uuid f).peers u).isSome = (w.peers u).isSome := by
  by_cases hu : u = uuid
  · subst hu
    simp [World.updatePeer]
  · simp [World.updatePeer, hu]

theorem updatePeer_moves (f : Peer → Peer) : Moves call c w (w.updatePeer uuid f) :=
  .of_peers rfl rfl rfl (updatePeer_isSome f)

/-- What the buffered updates leave as it was. -/
structure Refreshes (w w' : World) : Prop where
  history : w'.history = w.history
  tombstones : w'.tombstones = w.tombstones
  bans : w'.bans = w.bans
  peers : ∀ u, (w'.peers u).isSome = (w.peers u).isSome

theorem foldl_refreshes {α : Type} (key : α → String) (f : α → Peer → Peer) (l : List α)
    (w : World) : Refreshes w (l.foldl (fun w a ↦ w.updatePeer (key a) (f a)) w) := by
  induction l generalizing w with
  | nil => exact ⟨rfl, rfl, rfl, fun _ ↦ rfl⟩
  | cons a l ih =>
    have hr := ih (w.updatePeer (key a) (f a))
    exact ⟨hr.history, hr.tombstones, hr.bans, fun u ↦
      (hr.peers u).trans (updatePeer_isSome (f a) u)⟩

theorem findTombstone_cases {r : Option DeviceTombstone}
    (h : w.findTombstone call uuid = (w', r)) :
    (r = none ∧ w.tombstones uuid = none ∧ w' = w.note call (.cleared uuid)) ∨
      ∃ tombstone, r = some tombstone ∧ w.tombstones uuid = some tombstone ∧
        w' = w.note call (.found uuid tombstone.deviceId tombstone.banned) := by
  unfold World.findTombstone at h
  split at h
  · rename_i hn
    obtain ⟨rfl, rfl⟩ := Prod.mk.inj h
    exact .inl ⟨rfl, hn, rfl⟩
  · rename_i tombstone hs
    obtain ⟨rfl, rfl⟩ := Prod.mk.inj h
    exact .inr ⟨tombstone, rfl, hs, rfl⟩

theorem findTombstone_moves : Moves call (.findTombstone uuid) w (w.findTombstone call uuid).1 := by
  unfold World.findTombstone
  split
  · rename_i hn
    exact .logs (.cleared uuid) (.inl rfl) (ledger_deleted_eq_none.mpr hn) rfl rfl
  · rename_i tombstone hs
    refine .logs (.found uuid tombstone.deviceId tombstone.banned) (.inr ⟨_, _, rfl⟩) ⟨?_, ?_⟩ rfl rfl
    · simp [World.ledger, hs]
    · simp [World.ledger, hs]

theorem savePeer_moves {peer : Peer} {data : HeartbeatDto} {outcome : Except Failure Unit}
    (hc : (call, .cleared peer.uuid) ∈ w.history) :
    Moves call (.savePeer peer.uuid data) w (w.savePeer call peer outcome).1 := by
  unfold World.savePeer
  split
  · exact .still rfl rfl
  · split
    · rename_i row hrow
      refine .of_peers rfl rfl rfl fun u ↦ ?_
      by_cases hu : u = peer.uuid
      · subst hu
        simp [hrow]
      · simp [hu]
    · refine .logs (.registered peer.uuid) rfl hc rfl ?_
      ext u
      · by_cases hu : u = peer.uuid
        · subst hu
          simp [World.ledger, World.note, Ledger.after]
        · simp [World.ledger, World.note, Ledger.after, hu]
      all_goals rfl

theorem deleteRow_moves {actorGuid : String} {scope : Rbac.PermissionScope}
    {outcome : Except Failure Unit} : Moves call (.deleteRow uuid deviceId actorGuid scope) w
      (w.deleteRow call uuid deviceId actorGuid scope outcome).1 := by
  unfold World.deleteRow
  split
  · exact .still rfl rfl
  · split
    · refine .logs (.deleted uuid deviceId) rfl trivial rfl ?_
      ext u d
      · by_cases hu : u = uuid
        · subst hu
          simp [World.ledger, World.note, Ledger.after]
        · simp [World.ledger, World.note, Ledger.after, hu]
      · by_cases hu : u = uuid
        · subst hu
          unfold World.entomb
          cases w.tombstones u <;> simp [World.ledger, World.note, Ledger.after]
        · simp [World.ledger, World.note, Ledger.after, hu]
      · by_cases hu : u = uuid
        · subst hu
          unfold World.entomb
          cases ht : w.tombstones u <;> simp [World.ledger, World.note, Ledger.after, ht]
        · simp [World.ledger, World.note, Ledger.after, hu]
      · rfl
    · exact .still rfl rfl

/-- A cycle of the bans moves the ledger only if its write is applied. -/
theorem syncDeviceBans_moves {add remove : List String} {event : Event} {o : BanOutcome}
    (happlied : Moves call c w (w.syncDeviceBans call add remove event .applied).1) :
    Moves call c w (w.syncDeviceBans call add remove event o).1 := by
  cases o with
  | notConfigured => exact .still rfl rfl
  | failed detail onItsWay =>
    cases onItsWay with
    | false => exact .still rfl rfl
    | true => exact .still rfl rfl
  | applied => exact happlied

theorem ban_moves {o : BanOutcome} (hg : ∀ u saved, (call, .patched u saved) ∉ w.history) :
    Moves call (.ban uuid deviceId) w
      (w.syncDeviceBans call [deviceId] [] (.banned uuid deviceId) o).1 := by
  refine syncDeviceBans_moves (.logs (.banned uuid deviceId) rfl hg rfl ?_)
  ext d
  · rfl
  · rfl
  · rfl
  · simp [World.ledger, World.note, World.syncDeviceBans, Ledger.after, or_comm]

theorem unban_moves {o : BanOutcome} (hg : ∀ u saved, (call, .removed u saved) ∉ w.history) :
    Moves call (.unban uuid deviceId) w
      (w.syncDeviceBans call [] [deviceId] (.lifted uuid deviceId) o).1 := by
  refine syncDeviceBans_moves (.logs (.lifted uuid deviceId) rfl hg rfl ?_)
  ext d
  · rfl
  · rfl
  · rfl
  · simp [World.ledger, World.note, World.syncDeviceBans, Ledger.after]

theorem patchTombstone_moves {patch : TombstonePatch} {outcome : Except Failure Unit}
    (hg : guard call (.patchTombstone uuid patch) w) :
    Moves call (.patchTombstone uuid patch) w (w.patchTombstone call uuid patch outcome).1 := by
  obtain ⟨hnone, hsole, hbanned⟩ := hg
  cases outcome with
  | error failure => exact .logs (.patched uuid false) ⟨_, rfl⟩ ⟨hnone, hsole⟩ rfl rfl
  | ok _ =>
    refine .logs (.patched uuid true) ⟨_, rfl⟩ ⟨hnone, hsole⟩ rfl ?_
    ext u d
    · rfl
    · by_cases hu : u = uuid
      · subst hu
        cases ht : w.tombstones u <;>
          simp [World.ledger, World.note, World.patchTombstone, Ledger.after, ht,
            TombstonePatch.apply]
      · simp [World.ledger, World.note, World.patchTombstone, Ledger.after, hu]
    · by_cases hu : u = uuid
      · subst hu
        cases ht : w.tombstones u <;>
          simp [World.ledger, World.note, World.patchTombstone, Ledger.after, ht,
            TombstonePatch.apply, hbanned]
      · simp [World.ledger, World.note, World.patchTombstone, Ledger.after, hu]
    · rfl

theorem removeTombstone_moves {outcome : Except Failure Unit}
    (hg : guard call (.removeTombstone uuid) w) :
    Moves call (.removeTombstone uuid) w (w.removeTombstone call uuid outcome).1 := by
  cases outcome with
  | error failure => exact .logs (.removed uuid false) ⟨_, rfl⟩ hg rfl rfl
  | ok _ =>
    refine .logs (.removed uuid true) ⟨_, rfl⟩ hg rfl ?_
    ext u d
    · rfl
    all_goals
      by_cases hu : u = uuid
      · subst hu
        simp [World.ledger, World.note, World.removeTombstone, Ledger.after]
      · simp [World.ledger, World.note, World.removeTombstone, Ledger.after, hu]

theorem patchTombstone_history {patch : TombstonePatch} {outcome r : Except Failure Unit}
    (h : w.patchTombstone call uuid patch outcome = (w', r)) :
    ∃ saved, w'.history = (call, .patched uuid saved) :: w.history := by
  cases outcome with
  | error failure => exact ⟨false, congrArg (·.1.history) h.symm⟩
  | ok _ => exact ⟨true, congrArg (·.1.history) h.symm⟩

theorem removeTombstone_history {outcome r : Except Failure Unit}
    (h : w.removeTombstone call uuid outcome = (w', r)) :
    ∃ saved, w'.history = (call, .removed uuid saved) :: w.history := by
  cases outcome with
  | error failure => exact ⟨false, congrArg (·.1.history) h.symm⟩
  | ok _ => exact ⟨true, congrArg (·.1.history) h.symm⟩

theorem lateWrite_moves {index : ℕ} : Moves call (.lateWrite index) w (w.lateWrite call index) := by
  unfold World.lateWrite
  split
  · exact .still rfl rfl
  · exact .logs (.overwritten _) ⟨_, rfl⟩ trivial rfl rfl

theorem exec_moves (o : Choice) (hg : guard call c w) : Moves call c w (exec call c o w).1 := by
  cases c with
  | findTombstone uuid => exact findTombstone_moves
  | savePeer uuid data => exact @savePeer_moves call w ⟨uuid, _, _, _, _, _, _⟩ data _ hg
  | deleteRow guid deviceId actorGuid scope => exact deleteRow_moves
  | ban guid deviceId => exact ban_moves hg
  | unban uuid deviceId => exact unban_moves hg
  | patchTombstone uuid patch => exact patchTombstone_moves hg
  | removeTombstone uuid => exact removeTombstone_moves hg
  | lateWrite index => exact lateWrite_moves
  | setDeviceGroup uuid deviceGroupGuid =>
    simp only [exec]
    split
    · exact .still rfl rfl
    · exact updatePeer_moves _
  | setNote uuid note =>
    simp only [exec]
    split
    · exact .still rfl rfl
    · exact updatePeer_moves _
  | saveSysinfo sysinfo =>
    simp only [exec]
    split
    · exact .still rfl rfl
    · exact .still rfl rfl
  | takeBuffer =>
    simp only [exec, World.takeBuffer]
    split
    · exact .still rfl rfl
    · exact .still rfl rfl
  | writeBuffer snapshot =>
    simp only [exec, World.writeBuffer]
    split
    · have hr := foldl_refreshes Prod.fst (fun (entry : String × BufferedPeerUpdate) row ↦
        { row with id := entry.2.id, ver := entry.2.ver, modifiedAt := entry.2.modifiedAt,
                   lastHeartbeat := entry.2.lastHeartbeat }) snapshot.entries w
      exact .of_peers hr.history hr.tombstones hr.bans hr.peers
    · exact .still rfl rfl
  | _ => exact .still rfl rfl

end Exec

end RustdeskConsole.Devices
