import RustdeskConsole.Effects.Serial
import RustdeskConsole.Heartbeats.Owing

namespace RustdeskConsole.Heartbeats

open Collections Effects Effects.History Function
open Devices (Failure Peer BufferedPeerUpdate)

section Runs

/-- A console that has just been started. -/
structure Starts (w : World) : Prop where
  history : w.history = []
  peerBuffer : w.peerBuffer.entries = []
  activeFlush : w.activeFlush = none

/-- Every heartbeat that was accepted has been answered. -/
def Quiescent (cfg : Config Call Command Reply World) : Prop :=
  ∀ e ∈ cfg.world.history, isDone (cfg.threads e.1) = true

structure Flushed (w : World) : Prop where
  peerBuffer : w.peerBuffer.entries = []
  connsBuffer : w.connsBuffer.entries = []
  activeFlush : w.activeFlush = none

/-- The row of a device is that of its newest heartbeat, with its connections. -/
def Served (isolatedDeviceUuid : String → String → String) (cloneIsolation : Bool)
    (columns : Columns) (w : World) (uuid : String) (row : Peer) : Prop :=
  ∃ beat, Newest (accepted uuid w.history) beat ∧ rowUpdate row = beat.update ∧
    ∀ conns, beat.conns = some (some conns) → ∃ ids,
      (∀ call, Evaluates (machine isolatedDeviceUuid cloneIsolation columns) call
        (getActiveConnectionIds uuid) w (.ok (some ids)) w) ∧ ids.Perm conns

variable {isolatedDeviceUuid : String → String → String} {cloneIsolation : Bool}
  {columns : Columns} {w w₀ : World} {cfg : Config Call Command Reply World} {uuid : String}

theorem get?_of_entries {α : Type} {m : OrderedMap String α} (h : m.entries = []) :
    m.get? uuid = none := by
  rw [OrderedMap.get?, h]
  rfl

/-- With nothing buffered the connections are those of the table. -/
theorem getActiveConnectionIds_evaluates {call : Call} (hf : Flushed w) :
    Evaluates (machine isolatedDeviceUuid cloneIsolation columns) call
      (getActiveConnectionIds uuid) w (.ok (some (w.activeConnections uuid))) w := by
  have hask : ∀ {c : Command} {r : Reply c}, (∀ o, exec columns call c o w = (w, some r)) →
      Evaluates (machine isolatedDeviceUuid cloneIsolation columns) call (ask c) w (.ok r) w :=
    fun h ↦ .invoke ⟨0, .ok ⟨true, []⟩, true, .ok ()⟩ h
  have hnone : w.getBufferedConns uuid = none := by
    rw [World.getBufferedConns, get?_of_entries hf.connsBuffer, hf.activeFlush]
    rfl
  refine (hask fun _ ↦ rfl).bind ?_
  rw [hnone]
  exact (hask fun _ ↦ rfl).bind .pure

theorem tracked_start (h₀ : Starts w₀) : Tracked w₀ where
  backed uuid hp := by
    rw [World.pending, get?_of_entries h₀.peerBuffer, h₀.activeFlush] at hp
    cases hp
  current uuid _ hne := by
    rw [h₀.history] at hne
    exact absurd rfl hne

theorem run_tracked (h₀ : Starts w₀)
    (hr : (machine isolatedDeviceUuid cloneIsolation columns).RunWhere (OrderlyStep columns)
      (Machine.idle w₀) cfg) :
    Tracked cfg.world := by
  induction hr with
  | refl => exact tracked_start h₀
  | tail _ hs ih => exact step_tracked ih hs.1 hs.2

theorem Quiescent.not_owed (hq : Quiescent cfg)
    (hl : (logic isolatedDeviceUuid cloneIsolation columns).Leaves Settled cfg) {beat : Beat}
    {conns : Conns} (hb : beat.conns = some conns) : ¬Owed uuid beat cfg.world.history := by
  rintro ⟨call, ho⟩
  obtain ⟨later, e, earlier, heq, ⟨inserted, rfl⟩, -⟩ := id ho
  have hdone := hq (call, .saved uuid beat inserted) (by rw [heq]; simp)
  have hsettled := hl.ended (eq_done hdone)
  rw [hsettled uuid beat ho] at hb
  cases hb

/-- In an orderly run nothing newer is ever replaced by something older, and
what is flushed is the newest. -/
theorem newest_wins (h₀ : Starts w₀)
    (hr : (machine isolatedDeviceUuid cloneIsolation columns).RunWhere (OrderlyStep columns)
      (Machine.idle w₀) cfg) :
    (∀ uuid, (cfg.world.peers uuid).isSome → accepted uuid cfg.world.history ≠ [] →
      ∃ beat, Newest (accepted uuid cfg.world.history) beat ∧
        cfg.world.latest uuid = some beat.update) ∧
    (Quiescent cfg → Flushed cfg.world → ∀ uuid row, cfg.world.peers uuid = some row →
      accepted uuid cfg.world.history ≠ [] →
        Served isolatedDeviceUuid cloneIsolation columns cfg.world uuid row) := by
  have ht := run_tracked h₀ hr
  refine ⟨fun uuid hsome hne ↦ ?_, fun hq hf uuid row hrow hne ↦ ?_⟩
  · obtain ⟨beat, hn, hl, -⟩ := ht.current uuid hsome hne
    exact ⟨beat, hn, hl⟩
  · obtain ⟨beat, hn, hl, hconns⟩ := ht.current uuid (by rw [hrow]; rfl) hne
    have hleaves : (logic isolatedDeviceUuid cloneIsolation columns).Leaves Settled cfg :=
      Logic.Leaves.run stable_settled delivers (Logic.leaves_idle trivial) hr.run
    refine ⟨beat, hn, ?_, fun conns hb ↦ ⟨_, fun _ ↦ getActiveConnectionIds_evaluates hf, ?_⟩⟩
    · rw [World.latest, World.pending, get?_of_entries hf.peerBuffer, hf.activeFlush, hrow] at hl
      exact Option.some.inj hl
    · obtain ⟨ids, hids, hperm⟩ := (hconns conns hb).resolve_right (hq.not_owed hleaves hb)
      rw [World.connsOf, get?_of_entries hf.connsBuffer, hf.activeFlush] at hids
      rwa [Option.some.inj hids]

end Runs

section Sample

instance (w : World) : (event : Event) → Decidable (Orderly w event)
  | .buffered uuid beat => inferInstanceAs (Decidable ((w.peers uuid).isSome →
      ∀ other ∈ accepted uuid w.history, other.time ≤ beat.time))
  | .saved uuid beat inserted =>
    match hp : w.pending uuid with
    | some change => decidable_of_iff (inserted = false ∧ beat.time ≤ change.lastHeartbeat)
        (by simp only [Orderly, hp])
    | none => decidable_of_iff (inserted = false →
        ∀ other ∈ accepted uuid w.history, other.time ≤ beat.time) (by simp only [Orderly, hp])
  | .handed uuid beat => inferInstanceAs (Decidable ((w.peers uuid).isSome →
      ∀ other ∈ accepted uuid w.history, other.conns.join.isSome →
        other = beat ∨ beat ∈ accepted uuid w.history ∧ other.time < beat.time))

/-- What a flush under way has taken settles, checked over its entries. -/
def settling (columns : Columns) (w w' : World) : Bool :=
  match w.activeFlush with
  | none => true
  | some snapshot => w'.activeFlush.isSome || snapshot.conns.entries.all fun e ↦
      (w'.connsBuffer.get? e.1).isSome || (w.peers e.1).isNone ||
        e.2.all fun conns ↦ decide (Held columns (w.activeConnections e.1) conns)

theorem settling_spec {columns : Columns} {w w' : World} (h : settling columns w w' = true) :
    Settling columns w w' := by
  intro snapshot uuid conns hf hended hget hbuffer hthere
  rw [settling, hf] at h
  simp only [hended, Option.isSome_none, Bool.false_or, List.all_eq_true] at h
  have hentry := h (uuid, some conns) (OrderedMap.get?_eq_some.mp hget)
  obtain ⟨row, hrow⟩ := Option.isSome_iff_exists.mp hthere
  simpa [hbuffer, hrow] using hentry

def orderlyStep (columns : Columns) (w w' : World) : Bool :=
  settling columns w w' && (w'.history = w.history || match w'.history with
    | [] => true
    | (_, event) :: _ => decide (Orderly w event))

theorem orderlyStep_iff {columns : Columns} (cfg cfg' : Config Call Command Reply World)
    (h : orderlyStep columns cfg.world cfg'.world = true) : OrderlyStep columns cfg cfg' := by
  obtain ⟨hs, h⟩ := Bool.and_eq_true_iff.mp h
  refine ⟨fun call event hh ↦ ?_, settling_spec hs⟩
  rw [hh, decide_eq_false (List.cons_ne_self _ _), Bool.false_or] at h
  exact of_decide_eq_true h

theorem orderlyStep_refl {columns : Columns} (w : World) : orderlyStep columns w w = true := by
  rw [orderlyStep, decide_eq_true rfl, Bool.true_or, Bool.and_true, settling]
  cases w.activeFlush with
  | none => rfl
  | some snapshot => rfl

def sampleConnId : ConnId → Option ConnId
  | .integer n => if -2147483648 ≤ n ∧ n < 2147483648 then some (.integer n) else none
  | _ => none

theorem sampleConnId_held (c d : ConnId) (h : sampleConnId c = some d) :
    sampleConnId d = some d := by
  cases c with
  | integer n =>
    rw [sampleConnId] at h
    obtain ⟨hn, hd⟩ := Option.ite_none_right_eq_some.mp h
    rw [← Option.some.inj hd]
    exact if_pos hn
  | null => cases h
  | boolean => cases h
  | fraction => cases h
  | text => cases h
  | compound => cases h

/-- Columns that hold the integers of four bytes, and ids of 255 characters. -/
def sampleColumns : Columns where
  connId := sampleConnId
  takes change := change.id.length ≤ 255
  held := sampleConnId_held

def sampleMachine : Machine Call Command Reply Choice World :=
  machine (fun uuid _ ↦ uuid) false sampleColumns

def sampleWorld : World := ⟨fun _ ↦ none, fun _ ↦ none, fun _ ↦ [], .empty, .empty, none, []⟩

def sampleFresh (call : Call) (w : World) : Bool := w.history.all fun e ↦ decide (e.1 ≠ call)

theorem sampleFresh_admits (call : Call) (w : World) (h : sampleFresh call w = true) :
    sampleMachine.admits call w (handler (fun uuid _ ↦ uuid) false call.request) := by
  refine ⟨fun event hm ↦ ?_, rfl⟩
  have hne := List.all_eq_true.mp h _ hm
  simp at hne

/-- A request, its time, and how the database answers it. -/
abbrev SampleTurn := Request × ℕ × Except Failure Unit

def sampleTurns (turns : List SampleTurn) : List (Call × List Choice) :=
  turns.map fun t ↦ (⟨t.2.1, t.1⟩, List.replicate 5 ⟨t.2.1, .ok ⟨true, []⟩, true, t.2.2⟩)

/-- The requests come one after the other, each at its time. -/
def sampleRun (turns : List SampleTurn) : Config Call Command Reply World :=
  sampleMachine.schedule (fun call ↦ handler (fun uuid _ ↦ uuid) false call.request) sampleFresh
    (sampleTurns turns) (Machine.idle sampleWorld)

def sampleBeat (uuid : String) (ver : ℤ) (conns : List ℤ) : Request :=
  .heartbeat ⟨"1", uuid, ver, 0, some (some (conns.map .integer))⟩

/-- Two devices register. The first connects and is flushed, and connects again around a
flush that fails; the second is deleted, restored and registered again. -/
def sampleFlushed : Config Call Command Reply World :=
  sampleRun [(sampleBeat "u" 1 [], 1, .ok ()), (sampleBeat "v" 1 [8], 2, .ok ()),
    (sampleBeat "u" 2 [7, 7], 3, .ok ()), (.flush, 4, .ok ()),
    (sampleBeat "u" 3 [9, 7, 7], 5, .ok ()),
    (.flush, 6, .error (.conflict "Database is locked")),
    (.deleteDevice "v" "admin", 7, .ok ()), (.restoreTombstone "v", 8, .ok ()),
    (sampleBeat "v" 2 [4], 9, .ok ()), (.flush, 10, .ok ())]

theorem sampleFlushed_flushed : Flushed sampleFlushed.world :=
  ⟨by decide +kernel, by decide +kernel, by
    have hnone : sampleFlushed.world.activeFlush.isNone = true := by decide +kernel
    exact Option.isNone_iff_eq_none.mp hnone⟩

theorem sample_newest : ∃ row row', sampleFlushed.world.peers "u" = some row ∧
    sampleFlushed.world.peers "v" = some row' ∧
    Served (fun uuid _ ↦ uuid) false sampleColumns sampleFlushed.world "u" row ∧
    Served (fun uuid _ ↦ uuid) false sampleColumns sampleFlushed.world "v" row' ∧
    sampleFlushed.world.activeConnections "u" = [.integer 7, .integer 7, .integer 9] := by
  have hu : (sampleFlushed.world.peers "u").isSome = true := by decide +kernel
  have hv : (sampleFlushed.world.peers "v").isSome = true := by decide +kernel
  obtain ⟨row, hrow⟩ := Option.isSome_iff_exists.mp hu
  obtain ⟨row', hrow'⟩ := Option.isSome_iff_exists.mp hv
  have hr : sampleMachine.RunWhere (OrderlyStep sampleColumns) (Machine.idle sampleWorld)
      sampleFlushed :=
    Machine.schedule_runWhere orderlyStep_iff orderlyStep_refl sampleFresh_admits _
      (by decide +kernel)
  have hserved := (newest_wins ⟨rfl, rfl, rfl⟩ hr).2 (by unfold Quiescent; decide +kernel)
    sampleFlushed_flushed
  exact ⟨row, row', hrow, hrow', hserved "u" row hrow (by decide +kernel),
    hserved "v" row' hrow' (by decide +kernel), by decide +kernel⟩

/-- The heartbeat at 2 is still buffered when its device is deleted, restored
and registered again, and is flushed over the row of the heartbeat at 5. -/
def sampleStale : Config Call Command Reply World :=
  sampleRun [(sampleBeat "u" 1 [], 1, .ok ()), (sampleBeat "u" 2 [], 2, .ok ()),
    (.deleteDevice "u" "admin", 3, .ok ()), (.restoreTombstone "u", 4, .ok ()),
    (sampleBeat "u" 5 [], 5, .ok ()), (.flush, 6, .ok ())]

theorem stale_overwrites : ¬ ∀ (isolatedDeviceUuid : String → String → String)
    (cloneIsolation : Bool) (columns : Columns) (w₀ : World)
    (cfg : Config Call Command Reply World), Starts w₀ →
      (machine isolatedDeviceUuid cloneIsolation columns).Run (Machine.idle w₀) cfg →
        Quiescent cfg → Flushed cfg.world → ∀ uuid row, cfg.world.peers uuid = some row →
          accepted uuid cfg.world.history ≠ [] →
            Served isolatedDeviceUuid cloneIsolation columns cfg.world uuid row := by
  intro hall
  have hver : (sampleStale.world.peers "u").map (·.ver) = some 2 := by decide +kernel
  obtain ⟨row, hrow, hrv⟩ := Option.map_eq_some_iff.mp hver
  have hflushed : Flushed sampleStale.world :=
    ⟨by decide +kernel, by decide +kernel, by
      have hnone : sampleStale.world.activeFlush.isNone = true := by decide +kernel
      exact Option.isNone_iff_eq_none.mp hnone⟩
  obtain ⟨beat, hn, hb, -⟩ := hall (fun uuid _ ↦ uuid) false sampleColumns sampleWorld sampleStale
    ⟨rfl, rfl, rfl⟩ (Machine.schedule_run sampleFresh_admits _)
    (by unfold Quiescent; decide +kernel) hflushed "u" row hrow (by decide +kernel)
  have haccepted : accepted "u" sampleStale.world.history = [⟨⟨"1", 5, 0, 5⟩, some (some [])⟩] := by
    decide +kernel
  have hmem := hn.mem
  rw [haccepted, List.mem_singleton] at hmem
  rw [hmem] at hb
  have hfive : row.ver = 5 := congrArg BufferedPeerUpdate.ver hb
  omega

end Sample

/-- The heartbeats that are buffered between two flushes. -/
abbrev Batch := List (Call × String × Beat)

namespace Batch

variable (batch : Batch)

def buffer (w : World) : World := batch.foldl (fun w b ↦ w.bufferHeartbeat b.1 b.2.1 b.2.2) w

/-- What the last heartbeat of a device brings that brings something. -/
def lastOf {α : Type} (part : Beat → Option α) (uuid : String) (last : Option α) : Option α :=
  batch.foldl (fun last b ↦ if b.2.1 = uuid then (part b.2.2).or last else last) last

def reported (uuid : String) : Option Conns := batch.lastOf Beat.conns uuid none

def updated (uuid : String) : Option BufferedPeerUpdate :=
  batch.lastOf (fun beat ↦ some beat.update) uuid none

/-- What a flush takes of a batch. -/
def taken (w : World) : Snapshot := ⟨(batch.buffer w).peerBuffer, (batch.buffer w).connsBuffer⟩

end Batch

/-- Nothing is buffered, and no flush is under way. -/
structure Idle (w : World) : Prop where
  peerBuffer : w.peerBuffer.entries = []
  connsBuffer : w.connsBuffer.entries = []
  activeFlush : w.activeFlush = none

/-- What is stored of the reported connections is stored once, and what is new is
reported once and held as it is. -/
structure Mergeable (columns : Columns) (existing reported : List ConnId) : Prop where
  stored : (existing.filter (· ∈ reported)).Nodup
  added : (reported.filter (· ∉ existing)).Nodup
  held : ∀ c ∈ reported, c ∉ existing → columns.connId c = some c

/-- The connections of the devices that reported some are just these, each of
them once, and those of the others are as they were. -/
structure Synchronised (batch : Batch) (w w' : World) : Prop where
  exact : ∀ uuid conns, batch.reported uuid = some (some conns) →
    (w'.activeConnections uuid).Nodup ∧ ∀ c, c ∈ w'.activeConnections uuid ↔ c ∈ conns
  others : ∀ uuid, batch.reported uuid = none →
    w'.activeConnections uuid = w.activeConnections uuid

section Machine

variable (isolatedDeviceUuid : String → String → String) (cloneIsolation : Bool)
  (columns : Columns)

/-- A database where nothing fails that the columns take. -/
def workingMachine : Machine Call Command Reply Choice World :=
  { machine isolatedDeviceUuid cloneIsolation columns with
    exec := fun call c o w ↦ exec columns call c { o with outcome := .ok () } w }

end Machine

variable {isolatedDeviceUuid : String → String → String} {cloneIsolation : Bool}
  {columns : Columns} {w w' : World} {call : Call} {batch : Batch} {uuid : String}
  {existing reported rows : List ConnId}

theorem mergeable_iff (h : syncConnections columns existing (some reported) = some rows) :
    (rows.Nodup ∧ ∀ c, c ∈ rows ↔ c ∈ reported) ↔ Mergeable columns existing reported := by
  constructor
  · rintro ⟨hnodup, hmem⟩
    have hheld : ∀ c ∈ reported, c ∉ existing → columns.connId c = some c :=
      fun c hc ↦ connId_of_mem h ((hmem c).mpr hc)
    rw [syncConnections_held hheld] at h
    rw [← Option.some.inj h, List.nodup_append] at hnodup
    exact ⟨hnodup.1, hnodup.2.1, hheld⟩
  · rintro ⟨hstored, hadded, hheld⟩
    rw [syncConnections_held hheld] at h
    obtain rfl := Option.some.inj h
    refine ⟨List.nodup_append.mpr ⟨hstored, hadded, fun a ha b hb heq ↦ ?_⟩, fun c ↦ ?_⟩
    · subst heq
      simp only [List.mem_filter, decide_eq_true_eq] at ha hb
      exact hb.2 ha.1
    · simp only [List.mem_append, List.mem_filter, decide_eq_true_eq]
      by_cases hc : c ∈ existing
      · simp [hc]
      · simp [hc]

namespace Batch

/-- What there is of a device comes from a heartbeat of the batch. -/
theorem lastOf_mem {α : Type} {part : Beat → Option α} {last : Option α} {a : α}
    (h : batch.lastOf part uuid last = some a) :
    last = some a ∨ ∃ b ∈ batch, b.2.1 = uuid ∧ part b.2.2 = some a := by
  induction batch generalizing last with
  | nil => exact .inl h
  | cons b batch ih =>
    rw [lastOf, List.foldl_cons] at h
    rcases ih h with hlast | ⟨b', hm, hb'⟩
    · by_cases hb : b.2.1 = uuid
      · rw [if_pos hb] at hlast
        rcases Option.or_eq_some_iff.mp hlast with hpart | ⟨-, hlast⟩
        · exact .inr ⟨b, .head _, hb, hpart⟩
        · exact .inl hlast
      · rw [if_neg hb] at hlast
        exact .inl hlast
    · exact .inr ⟨b', .tail _ hm, hb'⟩

/-- Buffering leaves the tables alone and keeps the last of each device. -/
theorem buffer_spec : (batch.buffer w).activeConnections = w.activeConnections ∧
    (batch.buffer w).peers = w.peers ∧ (batch.buffer w).activeFlush = w.activeFlush ∧
      ∀ uuid, (batch.buffer w).peerBuffer.get? uuid =
          batch.lastOf (fun beat ↦ some beat.update) uuid (w.peerBuffer.get? uuid) ∧
        (batch.buffer w).connsBuffer.get? uuid =
          batch.lastOf Beat.conns uuid (w.connsBuffer.get? uuid) := by
  induction batch generalizing w with
  | nil => exact ⟨rfl, rfl, rfl, fun _ ↦ ⟨rfl, rfl⟩⟩
  | cons b batch ih =>
    obtain ⟨call, device, beat⟩ := b
    obtain ⟨hc, hp, hf, hget⟩ := ih (w := w.bufferHeartbeat call device beat)
    rw [Batch.buffer, List.foldl_cons]
    refine ⟨hc.trans ?_, hp.trans ?_, hf.trans ?_, fun uuid ↦
      ⟨(hget uuid).1.trans ?_, (hget uuid).2.trans ?_⟩⟩
    · rw [World.bufferHeartbeat, World.bufferConns]
      cases beat.conns <;> rfl
    · rw [World.bufferHeartbeat, World.bufferConns]
      cases beat.conns <;> rfl
    · rw [World.bufferHeartbeat, World.bufferConns]
      cases beat.conns <;> rfl
    · rw [lastOf, lastOf, List.foldl_cons]
      refine congrArg (fun last ↦ List.foldl _ last batch) ?_
      have hset : (w.bufferHeartbeat call device beat).peerBuffer =
          w.peerBuffer.set device beat.update := by
        rw [World.bufferHeartbeat, World.bufferConns]
        cases beat.conns <;> rfl
      simp only [hset, OrderedMap.get?_set, eq_comm (a := uuid), Option.some_or]
    · rw [lastOf, lastOf, List.foldl_cons]
      refine congrArg (fun last ↦ List.foldl _ last batch) ?_
      rw [World.bufferHeartbeat, World.bufferConns]
      cases hconns : beat.conns with
      | none =>
        simp only [World.note, Option.none_or]
        exact (ite_self _).symm
      | some conns =>
        simp only [World.note, OrderedMap.get?_set, eq_comm (a := uuid), Option.some_or]

theorem taken_get? (hi : Idle w) (uuid : String) :
    (batch.taken w).peers.get? uuid = batch.updated uuid ∧
      (batch.taken w).conns.get? uuid = batch.reported uuid := by
  obtain ⟨-, -, -, hget⟩ := batch.buffer_spec (w := w)
  obtain ⟨hpeers, hconns⟩ := hget uuid
  rw [get?_of_entries hi.peerBuffer] at hpeers
  rw [get?_of_entries hi.connsBuffer] at hconns
  exact ⟨hpeers, hconns⟩

/-- The rows are there, so it is the columns that decide. -/
theorem writable_iff (hi : Idle w) (hr : ∀ b ∈ batch, (w.peers b.2.1).isSome = true) :
    Writable columns (batch.taken w) w ↔
      (∀ uuid change, batch.updated uuid = some change → columns.takes change = true) ∧
        ∀ uuid reported, batch.reported uuid = some reported →
          (syncConnections columns (w.activeConnections uuid) reported).isSome := by
  have hthere : ∀ {α : Type} {part : Beat → Option α} {uuid : String} {a : α},
      batch.lastOf part uuid none = some a → (w.peers uuid).isSome := by
    intro α part uuid a h
    obtain ⟨b, hm, rfl, -⟩ := (lastOf_mem h).resolve_left nofun
    exact hr b hm
  constructor
  · rintro ⟨htaken, hsynced⟩
    refine ⟨fun uuid change h ↦ ?_, fun uuid reported h ↦ ?_⟩
    · exact htaken uuid change ((taken_get? hi uuid).1.trans h) (hthere h)
    · exact hsynced uuid reported ((taken_get? hi uuid).2.trans h) (hthere h)
  · rintro ⟨htaken, hsynced⟩
    refine ⟨fun uuid change h _ ↦ ?_, fun uuid reported h _ ↦ ?_⟩
    · exact htaken uuid change ((taken_get? hi uuid).1.symm.trans h)
    · exact hsynced uuid reported ((taken_get? hi uuid).2.symm.trans h)

end Batch

section Flush

variable (isolatedDeviceUuid : String → String → String) (cloneIsolation : Bool)
  (columns : Columns) (call : Call) (batch : Batch)

theorem ask_evaluates {c : Command} {r : Reply c}
    (h : ∀ o : Choice, exec columns call c { o with outcome := .ok () } w = (w', some r)) :
    Evaluates (workingMachine isolatedDeviceUuid cloneIsolation columns) call (ask c) w (.ok r)
      w' :=
  .invoke ⟨0, .ok ⟨true, []⟩, true, .ok ()⟩ h

/-- The flush of a batch writes it as a whole, or leaves it buffered. -/
theorem flush_evaluates (hi : Idle w) :
    ∃ w', Evaluates (workingMachine isolatedDeviceUuid cloneIsolation columns) call flush
      (batch.buffer w) (.ok ()) w' ∧
      (Writable columns (batch.taken w) w →
        Idle w' ∧ w'.activeConnections = (batch.taken w).synced columns w) ∧
      (¬Writable columns (batch.taken w) w → ∀ uuid,
        w'.peerBuffer.get? uuid = batch.updated uuid ∧
          w'.connsBuffer.get? uuid = batch.reported uuid) := by
  obtain ⟨hc, hp, hf, -⟩ := batch.buffer_spec (w := w)
  rw [hi.activeFlush] at hf
  by_cases hempty : ((batch.buffer w).peerBuffer.entries.isEmpty &&
      (batch.buffer w).connsBuffer.entries.isEmpty) = true
  · have htake : (batch.buffer w).takeBuffers = (batch.buffer w, false) := by
      rw [World.takeBuffers, hf, hempty]
      rfl
    rw [Bool.and_eq_true, List.isEmpty_iff, List.isEmpty_iff] at hempty
    have htook : Evaluates (workingMachine isolatedDeviceUuid cloneIsolation columns) call
        (ask .takeBuffers) (batch.buffer w) (.ok false) (batch.buffer w) :=
      ask_evaluates _ _ _ _ fun _ ↦ congrArg (Prod.map id some) htake
    refine ⟨batch.buffer w, htook.bind .pure, fun _ ↦ ⟨⟨hempty.1, hempty.2, hf⟩, ?_⟩,
      fun _ uuid ↦ Batch.taken_get? hi uuid⟩
    funext uuid
    rw [Snapshot.synced, Batch.taken, get?_of_entries hempty.2, hc]
    rfl
  · let taken : World := { batch.buffer w with
      activeFlush := some (batch.taken w), peerBuffer := .empty, connsBuffer := .empty }
    have htake : (batch.buffer w).takeBuffers = (taken, true) := by
      rw [World.takeBuffers, hf]
      exact if_neg hempty
    have htook : Evaluates (workingMachine isolatedDeviceUuid cloneIsolation columns) call
        (ask .takeBuffers) (batch.buffer w) (.ok true) taken :=
      ask_evaluates _ _ _ _ fun _ ↦ congrArg (Prod.map id some) htake
    have htp : taken.peers = w.peers := hp
    have htc : taken.activeConnections = w.activeConnections := hc
    refine ⟨taken.writeBuffers columns (batch.taken w) (.ok ()),
      htook.bind (ask_evaluates _ _ _ _ fun _ ↦ rfl), fun h ↦ ?_, fun h uuid ↦ ?_⟩
    · rw [World.writeBuffers, transaction_eq_some.mpr ⟨h.congr htp htc, rfl⟩, Option.getD_some]
      exact ⟨⟨rfl, rfl, rfl⟩, Snapshot.synced_congr htp htc⟩
    · have hfails : taken.transaction columns (batch.taken w) = none := by
        rw [Option.eq_none_iff_forall_ne_some]
        intro w' ht
        exact h ((transaction_eq_some.mp ht).1.congr htp.symm htc.symm)
      obtain ⟨hpeers, hconns⟩ := restoreBuffers_get? taken (batch.taken w) uuid
      rw [World.writeBuffers, hfails, Option.getD_none, hpeers, hconns]
      exact Batch.taken_get? hi uuid

/-- A flush leaves just what was reported last if and only if the columns take each last
update, and each last report is a list that can be merged with what is stored. -/
theorem flush_synchronises (hi : Idle w) (hr : ∀ b ∈ batch, (w.peers b.2.1).isSome = true) :
    ∃ w', Evaluates (workingMachine isolatedDeviceUuid cloneIsolation columns) call flush
      (batch.buffer w) (.ok ()) w' ∧ (Idle w' ∧ Synchronised batch w w' ↔
        (∀ uuid change, batch.updated uuid = some change → columns.takes change = true) ∧
          ∀ uuid reported, batch.reported uuid = some reported → ∃ conns, reported = some conns ∧
            Mergeable columns (w.activeConnections uuid) conns) := by
  obtain ⟨w', hrun, hwritten, hkept⟩ :=
    flush_evaluates isolatedDeviceUuid cloneIsolation columns call batch hi
  refine ⟨w', hrun, ?_⟩
  have hmerge : ∀ {existing conns : List ConnId}, Mergeable columns existing conns →
      (syncConnections columns existing (some conns)).isSome := fun h ↦ by
    rw [syncConnections_held h.held]
    rfl
  by_cases hw : Writable columns (batch.taken w) w
  · obtain ⟨hidle, hleft⟩ := hwritten hw
    obtain ⟨htakes, hsyncs⟩ := (Batch.writable_iff hi hr).mp hw
    have hrows : ∀ {uuid conns rows}, batch.reported uuid = some (some conns) →
        syncConnections columns (w.activeConnections uuid) (some conns) = some rows →
          w'.activeConnections uuid = rows := by
      intro uuid conns rows hreported hrows
      obtain ⟨b, hm, rfl, -⟩ := (Batch.lastOf_mem hreported).resolve_left nofun
      rw [hleft, Snapshot.synced, (Batch.taken_get? hi _).2, hreported, Option.elim_some,
        if_pos (hr b hm), hrows]
      rfl
    constructor
    · rintro ⟨-, hsync⟩
      refine ⟨htakes, fun uuid reported hreported ↦ ?_⟩
      obtain ⟨rows, hmerged⟩ := Option.isSome_iff_exists.mp (hsyncs uuid reported hreported)
      cases reported with
      | none => cases hmerged
      | some conns =>
        refine ⟨conns, rfl, (mergeable_iff hmerged).mp ?_⟩
        rw [← hrows hreported hmerged]
        exact hsync.exact uuid conns hreported
    · rintro ⟨-, hmergeable⟩
      refine ⟨hidle, fun uuid conns hreported ↦ ?_, fun uuid hnone ↦ ?_⟩
      · obtain ⟨_, heq, hm⟩ := hmergeable uuid _ hreported
        obtain rfl := Option.some.inj heq
        obtain ⟨rows, hmerged⟩ := Option.isSome_iff_exists.mp (hmerge hm)
        rw [hrows hreported hmerged]
        exact (mergeable_iff hmerged).mpr hm
      · rw [hleft, Snapshot.synced, (Batch.taken_get? hi uuid).2, hnone]
        rfl
  · constructor
    · rintro ⟨hidle, -⟩
      have hnone : ∀ uuid, batch.updated uuid = none ∧ batch.reported uuid = none := by
        intro uuid
        obtain ⟨hpeers, hconns⟩ := hkept hw uuid
        rw [← hpeers, ← hconns]
        exact ⟨get?_of_entries hidle.peerBuffer, get?_of_entries hidle.connsBuffer⟩
      refine ⟨fun uuid change h ↦ ?_, fun uuid reported h ↦ ?_⟩
      · rw [(hnone uuid).1] at h
        cases h
      · rw [(hnone uuid).2] at h
        cases h
    · rintro ⟨htakes, hmergeable⟩
      refine absurd ((Batch.writable_iff hi hr).mpr ⟨htakes, fun uuid reported h ↦ ?_⟩) hw
      obtain ⟨conns, rfl, hm⟩ := hmergeable uuid reported h
      exact hmerge hm

end Flush

section Sample

def sampleCall : Call := ⟨0, .flush⟩

def samplePeer (uuid : String) : Peer := ⟨uuid, uuid, 0, 0, 0, none, none⟩

/-- Three devices with stored connections. -/
def sampleStored : World := { sampleWorld with
  peers := fun uuid ↦ if uuid ∈ ["u", "v", "x"] then some (samplePeer uuid) else none
  activeConnections := fun uuid ↦
    if uuid = "u" then [.integer 7, .integer 5] else if uuid = "v" then [.integer 9, .integer 9]
    else if uuid = "x" then [.integer 3, .integer 3] else [] }

def sampleReport (uuid : String) (time : ℕ) (conns : Option (List ℤ)) : Call × String × Beat :=
  (⟨time, .flush⟩, uuid, ⟨⟨uuid, 1, 0, time⟩, conns.map fun ids ↦ some (ids.map ConnId.integer)⟩)

/-- One device reports twice, the other hangs up, and reports no connections after it. -/
def sampleBatch : Batch :=
  [sampleReport "u" 1 (some [5, 5]), sampleReport "v" 2 (some []), sampleReport "u" 3 (some [8, 7]),
    sampleReport "v" 4 none]

theorem sample_synchronises : ∃ w', Evaluates
    (workingMachine (fun uuid _ ↦ uuid) false sampleColumns) sampleCall flush
      (sampleBatch.buffer sampleStored) (.ok ()) w' ∧ Idle w' ∧
        Synchronised sampleBatch sampleStored w' := by
  obtain ⟨w', hrun, hiff⟩ := flush_synchronises (fun uuid _ ↦ uuid) false sampleColumns sampleCall
    sampleBatch (w := sampleStored) ⟨rfl, rfl, rfl⟩ (by decide)
  refine ⟨w', hrun, hiff.mpr ⟨fun uuid change h ↦ ?_, fun uuid reported h ↦ ?_⟩⟩
  · obtain ⟨b, hm, -, hb⟩ := (Batch.lastOf_mem h).resolve_left nofun
    have htakes : ∀ b ∈ sampleBatch, sampleColumns.takes b.2.2.update = true := by decide
    rw [← Option.some.inj hb]
    exact htakes b hm
  · obtain ⟨b, hm, rfl, -⟩ := (Batch.lastOf_mem h).resolve_left nofun
    have hdevice : ∀ b ∈ sampleBatch, b.2.1 = "u" ∨ b.2.1 = "v" := by decide
    rcases hdevice b hm with hu | hv
    · rw [hu] at h ⊢
      obtain rfl : some [.integer 8, .integer 7] = reported := Option.some.inj h
      exact ⟨_, rfl, by decide, by decide, by decide⟩
    · rw [hv] at h ⊢
      obtain rfl : some [] = reported := Option.some.inj h
      exact ⟨_, rfl, by decide, by decide, by decide⟩

/-- A device without stored connections. -/
def sampleRegistered : World := { sampleWorld with
  peers := fun uuid ↦ if uuid = "u" then some (samplePeer "u") else none }

/-- A connection that is reported twice is stored twice. -/
theorem duplicates_stored : ¬ ∀ (isolatedDeviceUuid : String → String → String)
    (cloneIsolation : Bool) (columns : Columns) (call : Call) (batch : Batch) (w w' : World),
    Idle w → (∀ b ∈ batch, (w.peers b.2.1).isSome = true) →
    Completes (workingMachine isolatedDeviceUuid cloneIsolation columns) call flush
      (batch.buffer w) (.ok ()) w' → Synchronised batch w w' := by
  intro hall
  let batch : Batch := [sampleReport "u" 5 (some [7, 7])]
  have hi : Idle sampleRegistered := ⟨rfl, rfl, rfl⟩
  have hr : ∀ b ∈ batch, (sampleRegistered.peers b.2.1).isSome = true := by decide
  obtain ⟨w', hrun, hwritten, -⟩ := flush_evaluates (fun uuid _ ↦ uuid) false sampleColumns
    sampleCall batch hi
  have hwritable : Writable sampleColumns (batch.taken sampleRegistered) sampleRegistered := by
    refine (Batch.writable_iff hi hr).mpr ⟨fun uuid change h ↦ ?_, fun uuid reported h ↦ ?_⟩
    · obtain ⟨b, hm, rfl, hb⟩ := (Batch.lastOf_mem h).resolve_left nofun
      obtain rfl := List.mem_singleton.mp hm
      rw [← Option.some.inj hb]
      decide
    · obtain ⟨b, hm, rfl, hb⟩ := (Batch.lastOf_mem h).resolve_left nofun
      obtain rfl := List.mem_singleton.mp hm
      rw [← Option.some.inj hb]
      decide
  have hsync := hall _ _ _ _ _ _ w' hi hr hrun.completes
  have hstored : w'.activeConnections "u" = [.integer 7, .integer 7] := by
    rw [(hwritten hwritable).2]
    decide
  have hnodup := (hsync.exact "u" [.integer 7, .integer 7] rfl).1
  rw [hstored] at hnodup
  simp at hnodup

end Sample

end RustdeskConsole.Heartbeats
