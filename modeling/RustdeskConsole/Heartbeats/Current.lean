import RustdeskConsole.Effects.History
import RustdeskConsole.Heartbeats.Pending

namespace RustdeskConsole.Heartbeats

open Collections Effects Effects.History Function
open Devices (Failure Peer BufferedPeerUpdate)

/-- The heartbeats accepted for a device since it was registered. -/
def accepted (uuid : String) : History → List Beat
  | [] => []
  | (_, .saved u beat true) :: h => if u = uuid then [beat] else accepted uuid h
  | (_, .saved u beat false) :: h => if u = uuid then beat :: accepted uuid h else accepted uuid h
  | (_, .buffered u beat) :: h => if u = uuid then beat :: accepted uuid h else accepted uuid h
  | (_, .handed ..) :: h => accepted uuid h

structure Newest (beats : List Beat) (beat : Beat) : Prop where
  mem : beat ∈ beats
  newest : ∀ other ∈ beats, other.time ≤ beat.time

/-- The call saved a heartbeat whose connections it has not handed in since. -/
def Owes (call : Call) (uuid : String) (beat : Beat) (h : History) : Prop :=
  Standing (fun e _ ↦ ∃ inserted, e = (call, .saved uuid beat inserted))
    (fun e ↦ ∃ other, e = (call, .handed uuid other)) h

def Owed (uuid : String) (beat : Beat) (h : History) : Prop := ∃ call, Owes call uuid beat h

/-- The row of a device, once everything is flushed, is that of its newest
heartbeat, and so are its connections. -/
def Current (w : World) (uuid : String) : Prop :=
  (w.peers uuid).isSome → accepted uuid w.history ≠ [] →
    ∃ beat, Newest (accepted uuid w.history) beat ∧ w.latest uuid = some beat.update ∧
      ∀ conns, beat.conns = some (some conns) →
        Lists (w.connsOf uuid) conns ∨ Owed uuid beat w.history

/-- The clock does not go back; a registration finds no update of its device
pending that is older, and no row that is newer; and what it hands in is not
older than what others brought. -/
def Orderly (w : World) : Event → Prop
  | .buffered uuid beat => (w.peers uuid).isSome →
      ∀ other ∈ accepted uuid w.history, other.time ≤ beat.time
  | .saved uuid beat inserted =>
    match w.pending uuid with
    | some change => inserted = false ∧ beat.time ≤ change.lastHeartbeat
    | none => inserted = false → ∀ other ∈ accepted uuid w.history, other.time ≤ beat.time
  | .handed uuid beat => (w.peers uuid).isSome →
      ∀ other ∈ accepted uuid w.history, other.conns.join.isSome →
        other = beat ∨ beat ∈ accepted uuid w.history ∧ other.time < beat.time

/-- Each heartbeat that a step accepts comes in order, and the connections that a flush
writes are held. -/
structure OrderlyStep (columns : Columns) (cfg cfg' : Config Call Command Reply World) :
    Prop where
  orderly : ∀ call event, cfg'.world.history = (call, event) :: cfg.world.history →
    Orderly cfg.world event
  settling : Settling columns cfg.world cfg'.world

section Steps

variable {w w' : World} {call : Call} {uuid u : String} {beat : Beat} {event : Event}
  {h : History}

theorem Newest.head {beats : List Beat} (hn : ∀ other ∈ beats, other.time ≤ beat.time) :
    Newest (beat :: beats) beat :=
  ⟨.head _, List.forall_mem_cons.mpr ⟨Nat.le_refl _, hn⟩⟩

theorem Newest.cons {beats : List Beat} {b : Beat} (hn : Newest beats beat)
    (hb : b.time ≤ beat.time) : Newest (b :: beats) beat :=
  ⟨.tail _ hn.mem, List.forall_mem_cons.mpr ⟨hb, hn.newest⟩⟩

theorem Owed.cons (ho : Owed uuid beat h) (he : ∀ b, event ≠ .handed uuid b) :
    Owed uuid beat ((call, event) :: h) := by
  obtain ⟨owing, hs⟩ := ho
  refine ⟨owing, standing_cons.mpr (.inr ⟨?_, hs⟩)⟩
  rintro ⟨b, heq⟩
  exact he b (Prod.mk.inj heq).2

theorem Current.same (hc : Current w uuid) (hs : Same uuid w w') : Current w' uuid := by
  intro hsome hne
  rw [hs.history] at hne ⊢
  obtain ⟨beat, hn, hl, hconns⟩ := hc (hs.there hsome) hne
  refine ⟨beat, hn, (hs.latest hsome).trans hl, fun conns hcs ↦ ?_⟩
  exact (hconns conns hcs).imp_left (hs.conns hsome conns)

/-- An event of another device. -/
theorem Current.elsewhere (hc : Current w uuid) (hp : w'.peers uuid = w.peers uuid)
    (hh : w'.history = (call, event) :: w.history)
    (ha : accepted uuid w'.history = accepted uuid w.history)
    (hl : w'.latest uuid = w.latest uuid) (hcs : w'.connsOf uuid = w.connsOf uuid)
    (he : ∀ b, event ≠ .handed uuid b) : Current w' uuid := by
  intro hsome hne
  rw [ha] at hne ⊢
  obtain ⟨beat, hn, hlatest, hconns⟩ := hc (hp ▸ hsome) hne
  refine ⟨beat, hn, hl.trans hlatest, fun conns hb ↦ ?_⟩
  rw [hcs, hh]
  exact (hconns conns hb).imp_right fun ho ↦ ho.cons he

@[simp] theorem bufferConns_peers : (w.bufferConns u beat).peers = w.peers := by
  unfold World.bufferConns
  split <;> rfl

@[simp] theorem bufferConns_history : (w.bufferConns u beat).history = w.history := by
  unfold World.bufferConns
  split <;> rfl

@[simp] theorem bufferConns_pending : (w.bufferConns u beat).pending uuid = w.pending uuid := by
  unfold World.bufferConns
  split <;> rfl

@[simp] theorem bufferConns_latest : (w.bufferConns u beat).latest uuid = w.latest uuid := by
  rw [World.latest, bufferConns_pending, bufferConns_peers, World.latest]

theorem bufferConns_connsOf : (w.bufferConns u beat).connsOf uuid =
    if uuid = u then beat.conns.getD (w.connsOf uuid) else w.connsOf uuid := by
  unfold World.bufferConns
  split
  · next hn => simp [hn]
  · next conns hs =>
    simp only [World.connsOf, OrderedMap.get?_set, hs]
    by_cases hu : uuid = u
    · simp [hu]
    · simp [hu]

/-- The world with the row update of a heartbeat in the buffer. -/
def bufferUpdate (w : World) (u : String) (beat : Beat) : World :=
  { w with peerBuffer := w.peerBuffer.set u beat.update }

theorem bufferUpdate_latest : (bufferUpdate w u beat).latest uuid =
    if uuid = u then some beat.update else w.latest uuid := by
  simp only [bufferUpdate, World.latest, World.pending, OrderedMap.get?_set]
  by_cases hu : uuid = u
  · simp [hu]
  · simp [hu]

theorem current_buffered (hc : Current w uuid) (ho : Orderly w (.buffered u beat)) :
    Current (w.bufferHeartbeat call u beat) uuid := by
  have hlatest : (w.bufferHeartbeat call u beat).latest uuid =
      if uuid = u then some beat.update else w.latest uuid :=
    (bufferConns_latest (w := bufferUpdate w u beat)).trans bufferUpdate_latest
  have hconns : (w.bufferHeartbeat call u beat).connsOf uuid =
      if uuid = u then beat.conns.getD (w.connsOf uuid) else w.connsOf uuid :=
    bufferConns_connsOf (w := bufferUpdate w u beat)
  have hhistory : (w.bufferHeartbeat call u beat).history =
      (call, .buffered u beat) :: w.history :=
    congrArg (List.cons _) (bufferConns_history (w := bufferUpdate w u beat))
  have hpeers : (w.bufferHeartbeat call u beat).peers = w.peers :=
    bufferConns_peers (w := bufferUpdate w u beat)
  by_cases hu : uuid = u
  · subst hu
    intro hsome _
    rw [hhistory, accepted, if_pos rfl]
    refine ⟨beat, .head (ho (hpeers ▸ hsome)), by rw [hlatest, if_pos rfl], fun conns hb ↦ .inl ?_⟩
    rw [hconns, if_pos rfl, hb]
    exact ⟨conns, rfl, .refl _⟩
  · refine hc.elsewhere (congrFun hpeers uuid) hhistory ?_ (by rw [hlatest, if_neg hu])
      (by rw [hconns, if_neg hu]) nofun
    rw [hhistory, accepted, if_neg (Ne.symm hu)]

theorem current_handed (hc : Current w uuid) (ho : Orderly w (.handed u beat)) :
    Current ((w.bufferConns u beat).note call (.handed u beat)) uuid := by
  have hhistory : ((w.bufferConns u beat).note call (.handed u beat)).history =
      (call, .handed u beat) :: w.history := congrArg (List.cons _) bufferConns_history
  have hpeers : ((w.bufferConns u beat).note call (.handed u beat)).peers = w.peers :=
    bufferConns_peers
  have hlatest : ((w.bufferConns u beat).note call (.handed u beat)).latest uuid =
      w.latest uuid := bufferConns_latest
  have hconns : ((w.bufferConns u beat).note call (.handed u beat)).connsOf uuid =
      if uuid = u then beat.conns.getD (w.connsOf uuid) else w.connsOf uuid := bufferConns_connsOf
  by_cases hu : uuid = u
  · subst hu
    intro hsome hne
    rw [hhistory, accepted] at hne ⊢
    rw [hpeers] at hsome
    obtain ⟨newest, hn, hl, -⟩ := hc hsome hne
    refine ⟨newest, hn, hlatest.trans hl, fun conns hb ↦ .inl ?_⟩
    rcases ho hsome newest hn.mem (by rw [hb]; rfl) with rfl | ⟨hm, hlt⟩
    · rw [hconns, if_pos rfl, hb]
      exact ⟨conns, rfl, .refl _⟩
    · have hle := hn.newest beat hm
      omega
  · refine hc.elsewhere (congrFun hpeers uuid) hhistory ?_ hlatest (by rw [hconns, if_neg hu])
      fun b he ↦ hu (Event.handed.inj he).1.symm
    rw [hhistory, accepted]

theorem current_inserted (hc : Current w uuid) (hp : w.peers u = none)
    (ho : Orderly w (.saved u beat true)) :
    Current (w.savePeer call u beat (.ok ())).1 uuid := by
  simp only [World.savePeer, hp]
  by_cases hu : uuid = u
  · subst hu
    intro _ _
    have hpending : w.pending uuid = none := by
      cases hw : w.pending uuid with
      | none => rfl
      | some change =>
        simp only [Orderly, hw] at ho
        exact absurd ho.1 (by decide)
    refine ⟨beat, ?_, ?_, fun conns _ ↦ .inr ⟨call, standing_cons.mpr (.inl ⟨true, rfl⟩)⟩⟩
    · simp only [World.note, accepted, if_pos]
      exact .head nofun
    · change (w.pending uuid).or _ = _
      rw [hpending]
      simp [World.note, rowUpdate]
  · refine hc.elsewhere (by simp [World.note, hu]) rfl ?_ ?_ rfl nofun
    · rw [World.note, accepted, if_neg (Ne.symm hu)]
    · simp [World.latest, World.note, World.pending, hu]

theorem current_saved {row : Peer} (hc : Current w uuid) (hp : w.peers u = some row)
    (hb : (w.pending u).isSome → accepted u w.history ≠ [])
    (ho : Orderly w (.saved u beat false)) :
    Current (w.savePeer call u beat (.ok ())).1 uuid := by
  simp only [World.savePeer, hp]
  by_cases hu : uuid = u
  · subst hu
    intro _ _
    have haccepted : ∀ h, accepted uuid ((call, .saved uuid beat false) :: h) =
        beat :: accepted uuid h := fun h ↦ by rw [accepted, if_pos rfl]
    cases hw : w.pending uuid with
    | none =>
      simp only [Orderly, hw] at ho
      refine ⟨beat, ?_, ?_, fun conns _ ↦ .inr ⟨call, standing_cons.mpr (.inl ⟨false, rfl⟩)⟩⟩
      · rw [World.note, haccepted]
        exact .head (ho trivial)
      · change (w.pending uuid).or _ = _
        rw [hw]
        simp [World.note]
    | some change =>
      simp only [Orderly, hw] at ho
      obtain ⟨newest, hn, hl, hconns⟩ := hc (by rw [hp]; rfl) (hb (by rw [hw]; rfl))
      have hchange : change = newest.update := by
        rw [World.latest, hw] at hl
        exact Option.some.inj hl
      refine ⟨newest, ?_, ?_, fun conns hcs ↦ ?_⟩
      · rw [World.note, haccepted]
        exact hn.cons (by rw [Beat.time, Beat.time, ← hchange]; exact ho.2)
      · change (w.pending uuid).or _ = _
        rw [hw, hchange]
        rfl
      · exact (hconns conns hcs).imp_right fun ho ↦ ho.cons (by simp)
  · refine hc.elsewhere (by simp [World.note, hu]) rfl ?_ ?_ rfl (by simp)
    · rw [World.note, accepted, if_neg (Ne.symm hu)]
    · simp [World.latest, World.note, World.pending, hu]

/-- An update is pending only where a heartbeat was accepted. -/
structure Tracked (w : World) : Prop where
  backed : ∀ uuid, (w.pending uuid).isSome → accepted uuid w.history ≠ []
  current : ∀ uuid, Current w uuid

theorem accepted_cons_ne (hne : accepted uuid h ≠ []) :
    accepted uuid ((call, event) :: h) ≠ [] := by
  cases event with
  | buffered u beat =>
    rw [accepted]
    split
    · exact List.cons_ne_nil _ _
    · exact hne
  | saved u beat inserted =>
    cases inserted with
    | true =>
      rw [accepted]
      split
      · exact List.cons_ne_nil _ _
      · exact hne
    | false =>
      rw [accepted]
      split
      · exact List.cons_ne_nil _ _
      · exact hne
  | handed u beat => exact hne

theorem Tracked.same (ht : Tracked w) (hs : ∀ uuid, Same uuid w w') : Tracked w' where
  backed uuid hp := by
    rw [(hs uuid).history]
    exact ht.backed uuid ((hs uuid).pending hp)
  current uuid := (ht.current uuid).same (hs uuid)

theorem exec_tracked {columns : Columns} {c : Command} {o : Choice} (ht : Tracked w)
    (ho : ∀ event, (exec columns call c o w).1.history = (call, event) :: w.history →
      Orderly w event) (hs : Settling columns w (exec columns call c o w).1) :
    Tracked (exec columns call c o w).1 := by
  cases c with
  | bufferHeartbeat u data =>
    have hhistory : (w.bufferHeartbeat call u (data.beat o.now)).history =
        (call, .buffered u (data.beat o.now)) :: w.history :=
      congrArg (List.cons _) (bufferConns_history (w := bufferUpdate w u _))
    refine ⟨fun uuid hp ↦ ?_, fun uuid ↦ current_buffered (ht.current uuid) (ho _ hhistory)⟩
    have hpending : (w.bufferHeartbeat call u (data.beat o.now)).pending uuid =
        (bufferUpdate w u (data.beat o.now)).pending uuid := bufferConns_pending
    rw [exec, hhistory]
    by_cases hu : uuid = u
    · subst hu
      rw [accepted, if_pos rfl]
      exact List.cons_ne_nil _ _
    · refine accepted_cons_ne (ht.backed uuid ?_)
      rw [exec, hpending] at hp
      simpa [bufferUpdate, World.pending, OrderedMap.get?_set, hu] using hp
  | savePeer u beat =>
    cases hout : o.outcome with
    | error failure =>
      rw [exec, hout]
      exact ht
    | ok x =>
      cases hp : w.peers u with
      | none =>
        have hw : (exec columns call (.savePeer u beat) o w).1 =
            (w.savePeer call u beat (.ok ())).1 := by
          rw [exec, hout]
          rfl
        rw [hw] at ho ⊢
        refine ⟨fun uuid hpending ↦ ?_, fun uuid ↦ current_inserted (ht.current uuid) hp
          (ho _ (by simp only [World.savePeer, hp, World.note]))⟩
        simp only [World.savePeer, hp] at hpending ⊢
        exact accepted_cons_ne (ht.backed uuid hpending)
      | some row =>
        have hw : (exec columns call (.savePeer u beat) o w).1 =
            (w.savePeer call u beat (.ok ())).1 := by
          rw [exec, hout]
          rfl
        rw [hw] at ho ⊢
        refine ⟨fun uuid hpending ↦ ?_, fun uuid ↦ current_saved (ht.current uuid) hp
          (ht.backed u) (ho _ (by simp only [World.savePeer, hp, World.note]))⟩
        simp only [World.savePeer, hp] at hpending ⊢
        exact accepted_cons_ne (ht.backed uuid hpending)
  | bufferConns u beat =>
    have hhistory : ((w.bufferConns u beat).note call (.handed u beat)).history =
        (call, .handed u beat) :: w.history := congrArg (List.cons _) bufferConns_history
    refine ⟨fun uuid hp ↦ ?_, fun uuid ↦ current_handed (ht.current uuid) (ho _ hhistory)⟩
    rw [exec, hhistory]
    refine accepted_cons_ne (ht.backed uuid ?_)
    have hpending : ((w.bufferConns u beat).note call (.handed u beat)).pending uuid =
        w.pending uuid := bufferConns_pending
    rwa [exec, hpending] at hp
  | findTombstone => exact ht.same fun _ ↦ exec_same rfl o hs
  | findPeer => exact ht.same fun _ ↦ exec_same rfl o hs
  | now => exact ht.same fun _ ↦ exec_same rfl o hs
  | takeBuffers => exact ht.same fun _ ↦ exec_same rfl o hs
  | endFlush => exact ht.same fun _ ↦ exec_same rfl o hs
  | assertDeviceAccess => exact ht.same fun _ ↦ exec_same rfl o hs
  | deleteRow => exact ht.same fun _ ↦ exec_same rfl o hs
  | assertGlobalDeleteScope => exact ht.same fun _ ↦ exec_same rfl o hs
  | liftBan => exact ht.same fun _ ↦ exec_same rfl o hs
  | removeTombstone => exact ht.same fun _ ↦ exec_same rfl o hs
  | getBufferedConns => exact ht.same fun _ ↦ exec_same rfl o hs
  | findConnections => exact ht.same fun _ ↦ exec_same rfl o hs

theorem step_tracked {isolatedDeviceUuid : String → String → String} {cloneIsolation : Bool}
    {columns : Columns} {cfg cfg' : Config Call Command Reply World} (ht : Tracked cfg.world)
    (hs : (machine isolatedDeviceUuid cloneIsolation columns).Step cfg cfg')
    (ho : OrderlyStep columns cfg cfg') : Tracked cfg'.world := by
  cases hs with
  | spawn => exact ht
  | stop => exact ht
  | @reply threads w w' call c k o r hi he =>
    have hw : (exec columns call c o w).1 = w' := congrArg Prod.fst he
    exact hw ▸ exec_tracked ht (fun event hh ↦ ho.orderly call event (hw ▸ hh))
      (hw.symm ▸ ho.settling)
  | @abort threads w w' call c k o hi he =>
    have hw : (exec columns call c o w).1 = w' := congrArg Prod.fst he
    exact hw ▸ exec_tracked ht (fun event hh ↦ ho.orderly call event (hw ▸ hh))
      (hw.symm ▸ ho.settling)

end Steps

end RustdeskConsole.Heartbeats
