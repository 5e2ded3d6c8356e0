import RustdeskConsole.Heartbeats.Service

namespace RustdeskConsole.Heartbeats

open Collections Effects Function
open Devices (Failure Peer BufferedPeerUpdate)

variable {w w' : World} {call : Call} {uuid : String} {beat : Beat}

namespace World

/-- The update of a device that the next flushes write. -/
def pending (w : World) (uuid : String) : Option BufferedPeerUpdate :=
  (w.peerBuffer.get? uuid).or (w.activeFlush.bind (·.peers.get? uuid))

/-- What the row of a device holds once everything is flushed. -/
def latest (w : World) (uuid : String) : Option BufferedPeerUpdate :=
  (w.pending uuid).or ((w.peers uuid).map rowUpdate)

/-- The connections of a device once everything is flushed. -/
def connsOf (w : World) (uuid : String) : Conns :=
  ((w.connsBuffer.get? uuid).or (w.activeFlush.bind (·.conns.get? uuid))).getD
    (some (w.activeConnections uuid))

end World

/-- The list of connections, in some order. -/
def Lists (found : Conns) (conns : List ConnId) : Prop :=
  ∃ ids, found = some ids ∧ ids.Perm conns

/-- What is stored of the reported connections is stored as often as it is reported, and
the columns hold what is new as it is. -/
def Held (columns : Columns) (existing reported : List ConnId) : Prop :=
  ∀ c ∈ reported, if c ∈ existing then existing.count c = reported.count c
    else columns.connId c = some c

instance {columns : Columns} {existing reported : List ConnId} :
    Decidable (Held columns existing reported) :=
  inferInstanceAs (Decidable (∀ c ∈ reported,
    if c ∈ existing then existing.count c = reported.count c else columns.connId c = some c))

section Connections

variable {columns : Columns} {existing reported rows ids held : List ConnId} {c : ConnId}

theorem mapM_connId_self (h : ∀ c ∈ ids, columns.connId c = some c) :
    ids.mapM columns.connId = some ids := by
  induction ids with
  | nil => rfl
  | cons c ids ih =>
    obtain ⟨hc, h⟩ := List.forall_mem_cons.mp h
    rw [List.mapM_cons, hc, ih h]
    rfl

theorem mem_mapM_connId (h : ids.mapM columns.connId = some held) (hm : c ∈ held) :
    ∃ d ∈ ids, columns.connId d = some c := by
  induction ids generalizing held with
  | nil =>
    rw [← Option.some.inj h] at hm
    cases hm
  | cons d ids ih =>
    rw [List.mapM_cons] at h
    obtain ⟨first, hfirst, h⟩ := Option.bind_eq_some_iff.mp h
    obtain ⟨rest, hrest, h⟩ := Option.bind_eq_some_iff.mp h
    rw [← Option.some.inj h] at hm
    rcases List.mem_cons.mp hm with rfl | hm
    · exact ⟨d, .head _, hfirst⟩
    · obtain ⟨d', hd, hc⟩ := ih hrest hm
      exact ⟨d', .tail _ hd, hc⟩

theorem syncConnections_eq_some : syncConnections columns existing (some reported) = some rows ↔
    ∃ added, (reported.filter (· ∉ existing)).mapM columns.connId = some added ∧
      rows = existing.filter (· ∈ reported) ++ added := by
  rw [syncConnections]
  refine Option.bind_eq_some_iff.trans (exists_congr fun added ↦ and_congr_right fun _ ↦ ?_)
  exact Option.some_inj.trans eq_comm

/-- A connection that was not stored before is among the rows only if it is held as it is. -/
theorem connId_of_mem (h : syncConnections columns existing (some reported) = some rows)
    (hm : c ∈ rows) (hc : c ∉ existing) : columns.connId c = some c := by
  obtain ⟨added, hadded, rfl⟩ := syncConnections_eq_some.mp h
  rcases List.mem_append.mp hm with hm | hm
  · exact absurd (List.mem_of_mem_filter hm) hc
  · obtain ⟨d, -, hd⟩ := mem_mapM_connId hadded hm
    exact columns.held d c hd

/-- The rows where each new connection is held as it is. -/
theorem syncConnections_held (h : ∀ c ∈ reported, c ∉ existing → columns.connId c = some c) :
    syncConnections columns existing (some reported) =
      some (existing.filter (· ∈ reported) ++ reported.filter (· ∉ existing)) := by
  refine syncConnections_eq_some.mpr ⟨_, mapM_connId_self fun c hc ↦ ?_, rfl⟩
  rw [List.mem_filter, decide_eq_true_eq] at hc
  exact h c hc.1 hc.2

theorem Held.perm (h : Held columns existing reported)
    (hs : syncConnections columns existing (some reported) = some rows) : rows.Perm reported := by
  have hnew : ∀ c ∈ reported, c ∉ existing → columns.connId c = some c := fun c hc he ↦ by
    have hheld := h c hc
    rwa [if_neg he] at hheld
  rw [syncConnections_held hnew] at hs
  rw [← Option.some.inj hs, List.perm_iff_count]
  intro c
  rw [List.count_append]
  by_cases hc : c ∈ reported
  · rw [List.count_filter (by simpa using hc)]
    by_cases he : c ∈ existing
    · have hnone : c ∉ reported.filter (· ∉ existing) := by simp [he]
      have hheld := h c hc
      rw [if_pos he] at hheld
      rw [List.count_eq_zero_of_not_mem hnone, hheld, Nat.add_zero]
    · rw [List.count_eq_zero_of_not_mem he, List.count_filter (by simpa using he), Nat.zero_add]
  · have hleft : c ∉ existing.filter (· ∈ reported) := by simp [hc]
    have hright : c ∉ reported.filter (· ∉ existing) := by simp [hc]
    rw [List.count_eq_zero_of_not_mem hleft, List.count_eq_zero_of_not_mem hright,
      List.count_eq_zero_of_not_mem hc]

end Connections

section Transaction

variable {columns : Columns} {snapshot : Snapshot} {change : BufferedPeerUpdate}
  {peer : Option Peer} {conns : Conns} {existing : List ConnId}

/-- The rows with the updates that were taken from the buffer. -/
def Snapshot.updated (snapshot : Snapshot) (w : World) (uuid : String) : Option Peer :=
  (snapshot.peers.get? uuid).elim (w.peers uuid) fun change ↦
    (w.peers uuid).map (applyUpdate change)

/-- The connections with the lists that were taken from the buffer. -/
def Snapshot.synced (snapshot : Snapshot) (columns : Columns) (w : World) (uuid : String) :
    List ConnId :=
  (snapshot.conns.get? uuid).elim (w.activeConnections uuid) fun conns ↦
    if (w.peers uuid).isSome then
      (syncConnections columns (w.activeConnections uuid) conns).getD (w.activeConnections uuid)
    else w.activeConnections uuid

/-- The columns take what the transaction writes. -/
structure Writable (columns : Columns) (snapshot : Snapshot) (w : World) : Prop where
  taken : ∀ uuid change, snapshot.peers.get? uuid = some change → (w.peers uuid).isSome →
    columns.takes change = true
  synced : ∀ uuid conns, snapshot.conns.get? uuid = some conns → (w.peers uuid).isSome →
    (syncConnections columns (w.activeConnections uuid) conns).isSome

section Congr

variable (hp : w'.peers = w.peers) (hc : w'.activeConnections = w.activeConnections)

include hp hc

theorem Writable.congr (h : Writable columns snapshot w) : Writable columns snapshot w' := by
  refine ⟨?_, ?_⟩
  · rw [hp]
    exact h.taken
  · rw [hp, hc]
    exact h.synced

theorem Snapshot.synced_congr : snapshot.synced columns w' = snapshot.synced columns w := by
  funext uuid
  rw [Snapshot.synced, Snapshot.synced, hp, hc]

end Congr

theorem writePeer_isSome :
    (writePeer columns change peer).isSome ↔ (peer.isSome → columns.takes change = true) := by
  cases peer with
  | none => simp [writePeer]
  | some row => simp [writePeer]

theorem writePeer_getD (h : (writePeer columns change peer).isSome) :
    (writePeer columns change peer).getD peer = peer.map (applyUpdate change) := by
  cases peer with
  | none => rfl
  | some row =>
    rw [writePeer, if_pos (writePeer_isSome.mp h rfl)]
    rfl

theorem writeConns_isSome : (writeConns columns conns peer existing).isSome ↔
    (peer.isSome → (syncConnections columns existing conns).isSome) := by
  cases peer with
  | none => simp [writeConns]
  | some row => simp [writeConns]

theorem writeConns_getD : (writeConns columns conns peer existing).getD existing =
    if peer.isSome then (syncConnections columns existing conns).getD existing else existing := by
  cases peer with
  | none => rfl
  | some row => rfl

theorem Snapshot.updated_isSome {uuid : String} :
    (snapshot.updated w uuid).isSome = (w.peers uuid).isSome := by
  rw [Snapshot.updated]
  cases snapshot.peers.get? uuid with
  | none => rfl
  | some change => exact Option.isSome_map

theorem writePeers_eq_some {peers : String → Option Peer} :
    snapshot.peers.entries.foldlM (fun peers e ↦
      (writePeer columns e.2 (peers e.1)).map (update peers e.1)) w.peers = some peers ↔
        (∀ uuid change, snapshot.peers.get? uuid = some change → (w.peers uuid).isSome →
          columns.takes change = true) ∧ peers = snapshot.updated w := by
  refine (OrderedMap.foldlM_update_eq_some
    (g := fun _ change peer ↦ writePeer columns change peer)).trans ?_
  simp only [writePeer_isSome]
  refine and_congr_right fun h ↦ Eq.congr_right (funext fun uuid ↦ ?_)
  rw [Snapshot.updated]
  cases hget : snapshot.peers.get? uuid with
  | none => rfl
  | some change => exact writePeer_getD (writePeer_isSome.mpr (h uuid change hget))

theorem writeConnections_eq_some {connections : String → List ConnId} :
    snapshot.conns.entries.foldlM (fun connections e ↦
      (writeConns columns e.2 (snapshot.updated w e.1) (connections e.1)).map
        (update connections e.1)) w.activeConnections = some connections ↔
      (∀ uuid conns, snapshot.conns.get? uuid = some conns → (w.peers uuid).isSome →
        (syncConnections columns (w.activeConnections uuid) conns).isSome) ∧
        connections = snapshot.synced columns w := by
  refine (OrderedMap.foldlM_update_eq_some (g := fun uuid conns existing ↦
    writeConns columns conns (snapshot.updated w uuid) existing)).trans ?_
  simp only [writeConns_isSome, writeConns_getD, Snapshot.updated_isSome]
  rfl

theorem transaction_eq_some : w.transaction columns snapshot = some w' ↔
    Writable columns snapshot w ∧ w' = { w with
      peers := snapshot.updated w, activeConnections := snapshot.synced columns w
      activeFlush := none } := by
  rw [World.transaction]
  constructor
  · intro h
    obtain ⟨peers, hpeers, h⟩ := Option.bind_eq_some_iff.mp h
    obtain ⟨connections, hconnections, h⟩ := Option.bind_eq_some_iff.mp h
    obtain ⟨htaken, rfl⟩ := writePeers_eq_some.mp hpeers
    obtain ⟨hsynced, rfl⟩ := writeConnections_eq_some.mp hconnections
    exact ⟨⟨htaken, hsynced⟩, (Option.some.inj h).symm⟩
  · rintro ⟨⟨htaken, hsynced⟩, rfl⟩
    refine Option.bind_eq_some_iff.mpr ⟨_, writePeers_eq_some.mpr ⟨htaken, rfl⟩, ?_⟩
    exact Option.bind_eq_some_iff.mpr ⟨_, writeConnections_eq_some.mpr ⟨hsynced, rfl⟩, rfl⟩

end Transaction

theorem restoreBuffers_get? (w : World) (snapshot : Snapshot) (uuid : String) :
    ((w.restoreBuffers snapshot).peerBuffer.get? uuid =
      (w.peerBuffer.get? uuid).or (snapshot.peers.get? uuid)) ∧
    ((w.restoreBuffers snapshot).connsBuffer.get? uuid =
      (w.connsBuffer.get? uuid).or (snapshot.conns.get? uuid)) :=
  ⟨OrderedMap.get?_foldl_fill w.peerBuffer, OrderedMap.get?_foldl_fill w.connsBuffer⟩

/-- What is known of a device that is still there did not change. -/
structure Same (uuid : String) (w w' : World) : Prop where
  history : w'.history = w.history
  there : (w'.peers uuid).isSome → (w.peers uuid).isSome
  pending : (w'.pending uuid).isSome → (w.pending uuid).isSome
  latest : (w'.peers uuid).isSome → w'.latest uuid = w.latest uuid
  conns : (w'.peers uuid).isSome → ∀ conns, Lists (w.connsOf uuid) conns →
    Lists (w'.connsOf uuid) conns

/-- Where a flush has written the connections of a device and nothing newer is buffered,
they are held. -/
def Settling (columns : Columns) (w w' : World) : Prop :=
  ∀ snapshot uuid conns, w.activeFlush = some snapshot → w'.activeFlush = none →
    snapshot.conns.get? uuid = some (some conns) → w'.connsBuffer.get? uuid = none →
      (w.peers uuid).isSome → Held columns (w.activeConnections uuid) conns

section Same

variable {columns : Columns} {snapshot : Snapshot}

theorem Same.refl : Same uuid w w := ⟨rfl, fun h ↦ h, fun h ↦ h, fun _ ↦ rfl, fun _ _ h ↦ h⟩

theorem same_takeBuffers : Same uuid w w.takeBuffers.1 := by
  rw [World.takeBuffers]
  split
  · exact .refl
  · next hn =>
    have hidle : w.activeFlush = none := by
      cases hf : w.activeFlush with
      | none => rfl
      | some snapshot => simp [hf] at hn
    refine ⟨rfl, fun h ↦ h, fun h ↦ ?_, fun _ ↦ ?_, fun _ conns h ↦ ?_⟩
    · simpa [World.pending, hidle] using h
    · simp [World.latest, World.pending, hidle]
    · simpa [World.connsOf, hidle] using h

/-- Rolled back, a flush leaves everything in the buffers again. -/
theorem same_restoreBuffers (hf : w.activeFlush = some snapshot) :
    Same uuid w (w.restoreBuffers snapshot) := by
  obtain ⟨hpeers, hconns⟩ := restoreBuffers_get? w snapshot uuid
  have hpending : (w.restoreBuffers snapshot).pending uuid = w.pending uuid := by
    rw [World.pending, hpeers, World.pending, hf]
    simp [World.restoreBuffers]
  refine ⟨rfl, fun h ↦ h, fun h ↦ hpending ▸ h, fun _ ↦ ?_, fun _ conns h ↦ ?_⟩
  · rw [World.latest, hpending, World.latest]
    rfl
  · rw [World.connsOf, hf] at h
    rw [World.connsOf, hconns]
    simpa [World.restoreBuffers] using h

theorem same_transaction (hf : w.activeFlush = some snapshot)
    (ht : w.transaction columns snapshot = some w') (hs : Settling columns w w') :
    Same uuid w w' := by
  obtain ⟨hwritable, rfl⟩ := transaction_eq_some.mp ht
  refine ⟨rfl, fun h ↦ Snapshot.updated_isSome ▸ h, fun h ↦ ?_, fun h ↦ ?_, fun h conns hl ↦ ?_⟩
  · simp only [World.pending, Option.bind_none, Option.or_none] at h
    simp [World.pending, h]
  · obtain ⟨row, hrow⟩ := Option.isSome_iff_exists.mp (Snapshot.updated_isSome ▸ h)
    simp only [World.latest, World.pending, hf, Snapshot.updated, hrow, Option.bind_none,
      Option.or_none, Option.bind_some, Option.or_assoc]
    cases snapshot.peers.get? uuid with
    | none => rfl
    | some change => simp
  · have hthere : (w.peers uuid).isSome := Snapshot.updated_isSome ▸ h
    simp only [World.connsOf, hf, Option.bind_some, Option.bind_none, Option.or_none] at hl ⊢
    cases hbuffer : w.connsBuffer.get? uuid with
    | some newer =>
      rw [hbuffer] at hl
      exact hl
    | none =>
      rw [hbuffer, Option.none_or] at hl
      rw [Option.getD_none, Snapshot.synced]
      cases hget : snapshot.conns.get? uuid with
      | none =>
        rw [hget] at hl
        exact hl
      | some reported =>
        obtain ⟨rows, hrows⟩ := Option.isSome_iff_exists.mp (hwritable.synced uuid _ hget hthere)
        rw [hget] at hl
        obtain ⟨ids, rfl, hperm⟩ := hl
        have hheld := hs snapshot uuid ids hf rfl hget hbuffer hthere
        rw [Option.elim_some, if_pos hthere, hrows]
        exact ⟨rows, rfl, (hheld.perm hrows).trans hperm⟩

theorem same_endFlush (outcome : Except Failure Unit)
    (hs : Settling columns w (w.endFlush columns outcome)) :
    Same uuid w (w.endFlush columns outcome) := by
  rw [World.endFlush] at hs ⊢
  cases hf : w.activeFlush with
  | none => exact .refl
  | some snapshot =>
    rw [hf] at hs
    cases outcome with
    | error failure => exact same_restoreBuffers hf
    | ok u =>
      change Settling columns w ((w.transaction columns snapshot).getD _) at hs
      change Same uuid w ((w.transaction columns snapshot).getD _)
      cases ht : w.transaction columns snapshot with
      | none => exact same_restoreBuffers hf
      | some w' =>
        rw [ht] at hs
        exact same_transaction hf ht hs

theorem same_deleteRow {guid deviceId actorGuid : String} {scope : Rbac.PermissionScope}
    (outcome : Except Failure Unit) :
    Same uuid w (w.deleteRow guid deviceId actorGuid scope outcome).1 := by
  cases outcome with
  | error failure => exact .refl
  | ok u =>
    rw [World.deleteRow]
    split
    · by_cases hu : uuid = guid
      · subst hu
        refine ⟨rfl, fun h ↦ ?_, fun h ↦ h, fun h ↦ ?_, fun h ↦ ?_⟩
        · simp at h
        · simp at h
        · simp at h
      · refine ⟨rfl, fun h ↦ ?_, fun h ↦ h, fun _ ↦ ?_, fun _ conns h ↦ ?_⟩
        · simpa [hu] using h
        · simp [World.latest, World.pending, hu]
        · simpa [World.connsOf, hu] using h
    · exact .refl

theorem same_removeTombstone {device : String} (outcome : Except Failure Unit) :
    Same uuid w (w.removeTombstone device outcome).1 := by
  cases outcome with
  | error failure => exact .refl
  | ok u => exact ⟨rfl, fun h ↦ h, fun h ↦ h, fun _ ↦ rfl, fun _ _ h ↦ h⟩

/-- The commands of a heartbeat that accept it. -/
def Command.accepts : Command → Bool
  | .bufferHeartbeat .. | .savePeer .. | .bufferConns .. => true
  | _ => false

theorem exec_same {c : Command} (hc : c.accepts = false) (o : Choice)
    (hs : Settling columns w (exec columns call c o w).1) :
    Same uuid w (exec columns call c o w).1 := by
  cases c with
  | bufferHeartbeat => cases hc
  | savePeer => cases hc
  | bufferConns => cases hc
  | takeBuffers => exact same_takeBuffers
  | endFlush => exact same_endFlush o.outcome hs
  | deleteRow guid deviceId actorGuid scope => exact same_deleteRow o.outcome
  | removeTombstone device => exact same_removeTombstone o.outcome
  | findTombstone => exact .refl
  | findPeer => exact .refl
  | now => exact .refl
  | assertDeviceAccess => exact .refl
  | assertGlobalDeleteScope => exact .refl
  | liftBan => exact .refl
  | getBufferedConns => exact .refl
  | findConnections => exact .refl

@[simp] theorem endFlush_history (outcome : Except Failure Unit) :
    (w.endFlush columns outcome).history = w.history := by
  rw [World.endFlush]
  cases w.activeFlush with
  | none => rfl
  | some snapshot =>
    cases outcome with
    | error failure => rfl
    | ok u =>
      change ((w.transaction columns snapshot).getD _).history = w.history
      cases ht : w.transaction columns snapshot with
      | none => rfl
      | some w' =>
        obtain ⟨-, rfl⟩ := transaction_eq_some.mp ht
        rfl

theorem exec_history {c : Command} (hc : c.accepts = false) (o : Choice) :
    (exec columns call c o w).1.history = w.history := by
  cases c with
  | bufferHeartbeat => cases hc
  | savePeer => cases hc
  | bufferConns => cases hc
  | takeBuffers =>
    have hsame : Same "" w w.takeBuffers.1 := same_takeBuffers
    exact hsame.history
  | endFlush => exact endFlush_history o.outcome
  | deleteRow guid deviceId actorGuid scope =>
    have hsame : Same "" w (w.deleteRow guid deviceId actorGuid scope o.outcome).1 :=
      same_deleteRow o.outcome
    exact hsame.history
  | removeTombstone device =>
    have hsame : Same "" w (w.removeTombstone device o.outcome).1 := same_removeTombstone o.outcome
    exact hsame.history
  | findTombstone => rfl
  | findPeer => rfl
  | now => rfl
  | assertDeviceAccess => rfl
  | assertGlobalDeleteScope => rfl
  | liftBan => rfl
  | getBufferedConns => rfl
  | findConnections => rfl

end Same

end RustdeskConsole.Heartbeats
