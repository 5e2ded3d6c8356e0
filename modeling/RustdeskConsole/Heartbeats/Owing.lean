import RustdeskConsole.Effects.Logic
import RustdeskConsole.Heartbeats.Current

namespace RustdeskConsole.Heartbeats

open Collections Effects Effects.History Function
open Devices (Failure Peer BufferedPeerUpdate)

section Owing

variable {isolatedDeviceUuid : String → String → String} {cloneIsolation : Bool} {columns : Columns}
  {call : Call} {uuid u : String} {beat b : Beat} {event : Event} {h h' : History}

theorem owes_cons : Owes call u b ((call, event) :: h) ↔
    (∃ inserted, event = .saved u b inserted) ∨
      (∀ other, event ≠ .handed u other) ∧ Owes call u b h := by
  rw [Owes, standing_cons]
  simp [Owes]

theorem Owes.of_grown (hg : Grown (fun e ↦ e.1 ≠ call) h h') (ho : Owes call u b h') :
    Owes call u b h := by
  obtain ⟨later, rfl, hl⟩ := hg
  induction later with
  | nil => exact ho
  | cons e later ih =>
    obtain ⟨hne, hl⟩ := List.forall_mem_cons.mp hl
    rcases standing_cons.mp ho with ⟨inserted, rfl⟩ | ⟨-, ho⟩
    · exact absurd rfl hne
    · exact ih hl ho

/-- Between two commands of one call the others only add events of their own. -/
def logic (isolatedDeviceUuid : String → String → String) (cloneIsolation : Bool)
    (columns : Columns) : Logic (machine isolatedDeviceUuid cloneIsolation columns) where
  inv _ := True
  guard _ _ _ := True
  rely call w w' := Grown (fun e ↦ e.1 ≠ call) w.history w'.history
  rely_refl _ w := .refl w.history
  rely_trans _ := Grown.trans
  keeps _ _ _ _ := trivial
  interferes {call other c} o w hne _ _ := by
    have hgrown : ∀ event, Grown (fun e ↦ e.1 ≠ call) w.history ((other, event) :: w.history) :=
      fun event ↦ (Grown.refl _).cons hne.symm
    have hsame : c.accepts = false →
        Grown (fun e ↦ e.1 ≠ call) w.history (exec columns other c o w).1.history := fun hc ↦ by
      rw [exec_history hc]
      exact .refl _
    cases c with
    | bufferHeartbeat u data =>
      have hh : (exec columns other (.bufferHeartbeat u data) o w).1.history =
          (other, .buffered u (data.beat o.now)) :: w.history :=
        congrArg (List.cons _) (bufferConns_history (w := bufferUpdate w u _))
      exact hh ▸ hgrown _
    | savePeer u beat =>
      change Grown _ _ (exec columns other (.savePeer u beat) o w).1.history
      rw [exec]
      cases hout : o.outcome with
      | error failure => exact .refl _
      | ok x =>
        cases hp : w.peers u with
        | none =>
          simp only [World.savePeer, hp]
          exact hgrown _
        | some row =>
          simp only [World.savePeer, hp]
          exact hgrown _
    | bufferConns u beat =>
      have hh : (exec columns other (.bufferConns u beat) o w).1.history =
          (other, .handed u beat) :: w.history := congrArg (List.cons _) bufferConns_history
      exact hh ▸ hgrown _
    | findTombstone => exact hsame rfl
    | findPeer => exact hsame rfl
    | now => exact hsame rfl
    | takeBuffers => exact hsame rfl
    | endFlush => exact hsame rfl
    | assertDeviceAccess => exact hsame rfl
    | deleteRow => exact hsame rfl
    | assertGlobalDeleteScope => exact hsame rfl
    | liftBan => exact hsame rfl
    | removeTombstone => exact hsame rfl
    | getBufferedConns => exact hsame rfl
    | findConnections => exact hsame rfl

def Clean (call : Call) (w : World) : Prop := ∀ u b, ¬Owes call u b w.history

/-- What a call leaves behind that has ended. -/
def Settled (call : Call) (w : World) : Prop :=
  ∀ u b, Owes call u b w.history → b.conns = none

theorem Clean.others {w w' : World} (hc : Clean call w)
    (hg : Grown (fun e ↦ e.1 ≠ call) w.history w'.history) : Clean call w' :=
  fun u b ho ↦ hc u b (ho.of_grown hg)

/-- Started by a call that owes nothing, the handler ends with nothing owed. -/
def Tidy (isolatedDeviceUuid : String → String → String) (cloneIsolation : Bool)
    (columns : Columns) (call : Call) {α : Type} (p : Handler α) : Prop :=
  ∀ s w, Clean call w → (logic isolatedDeviceUuid cloneIsolation columns).Ensures call p
    (fun _ _ w' ↦ Clean call w') (fun _ _ w' ↦ Clean call w') s w

namespace Tidy

variable {α β : Type} {p : Handler α} {f : α → Handler β}

theorem pure {a : α} : Tidy isolatedDeviceUuid cloneIsolation columns call (pure a : Handler α) :=
  fun _ _ hc ↦ .pure hc

theorem throw {failure : Failure} :
    Tidy isolatedDeviceUuid cloneIsolation columns call (throw failure : Handler α) :=
  fun _ _ hc ↦ .throw hc

theorem bind (hp : Tidy isolatedDeviceUuid cloneIsolation columns call p)
    (hf : ∀ a, Tidy isolatedDeviceUuid cloneIsolation columns call (f a)) :
    Tidy isolatedDeviceUuid cloneIsolation columns call (p >>= f) :=
  fun s w hc ↦ .bind ((hp s w hc).mono (fun a s' w' hc' ↦ hf a s' w' hc') fun _ _ _ hc' ↦ hc')

theorem invoke {c : Command} {g : Reply c → Except Failure α} (ha : c.accepts = false) :
    Tidy isolatedDeviceUuid cloneIsolation columns call (invoke c g) := by
  intro s w hc
  refine .invoke fun w₁ hr _ ↦ ⟨trivial, fun o w₂ r hx _ ↦ ?_⟩
  have hw : (exec columns call c o w₁).1 = w₂ := congrArg Prod.fst hx
  have hh : w₂.history = w₁.history := hw ▸ exec_history ha o
  have hclean : Clean call w₂ := fun u b ho ↦ (hc.others hr) u b (hh ▸ ho)
  cases g r with
  | ok a => exact hclean
  | error failure => exact hclean

theorem ask {c : Command} (ha : c.accepts = false) :
    Tidy isolatedDeviceUuid cloneIsolation columns call (ask c) := invoke ha

end Tidy

theorem bufferHeartbeat_tidy {data : HeartbeatDto} :
    Tidy isolatedDeviceUuid cloneIsolation columns call (ask (.bufferHeartbeat uuid data)) := by
  intro s w hc
  refine .invoke fun w₁ hr _ ↦ ⟨trivial, fun o w₂ r hx _ u b ho ↦ ?_⟩
  have hw : (exec columns call (.bufferHeartbeat uuid data) o w₁).1 = w₂ := congrArg Prod.fst hx
  have hh : (exec columns call (.bufferHeartbeat uuid data) o w₁).1.history =
      (call, .buffered uuid (data.beat o.now)) :: w₁.history :=
    congrArg (List.cons _) (bufferConns_history (w := bufferUpdate w₁ uuid _))
  rw [← hw, hh] at ho
  rcases owes_cons.mp ho with ⟨inserted, he⟩ | ⟨-, ho⟩
  · cases he
  · exact hc.others hr u b ho

/-- The call owes at most the connections of one heartbeat. -/
def OwesOnly (call : Call) (uuid : String) (beat : Beat) (w : World) : Prop :=
  ∀ u b, Owes call u b w.history → u = uuid ∧ b = beat

theorem handConns_settles {s : Unit} {w : World} (ho : OwesOnly call uuid beat w) :
    (logic isolatedDeviceUuid cloneIsolation columns).Ensures call (handConns uuid beat)
      (fun _ _ w' ↦ Settled call w') (fun _ _ w' ↦ Settled call w') s w := by
  unfold handConns
  split
  · refine .invoke fun w₁ hr _ ↦ ⟨trivial, fun o w₂ r hx _ u b howes ↦ ?_⟩
    have hw : (exec columns call (.bufferConns uuid beat) o w₁).1 = w₂ := congrArg Prod.fst hx
    have hh : (exec columns call (.bufferConns uuid beat) o w₁).1.history =
        (call, .handed uuid beat) :: w₁.history := congrArg (List.cons _) bufferConns_history
    rw [← hw, hh] at howes
    rcases owes_cons.mp howes with ⟨inserted, he⟩ | ⟨hne, howes⟩
    · cases he
    · obtain ⟨rfl, -⟩ := ho u b (howes.of_grown hr)
      exact absurd rfl (hne beat)
  · next hn =>
    refine .pure fun u b howes ↦ ?_
    obtain ⟨-, rfl⟩ := ho u b howes
    exact Option.not_isSome_iff_eq_none.mp hn

theorem savePeer_owes {s : Unit} {w : World} (hc : Clean call w) :
    (logic isolatedDeviceUuid cloneIsolation columns).Ensures call
      (invoke (.savePeer uuid beat) fun reply ↦ reply) (fun _ _ w' ↦ OwesOnly call uuid beat w')
      (fun _ _ w' ↦ Clean call w') s w := by
  refine .invoke fun w₁ hr _ ↦ ⟨trivial, fun o w₂ r hx _ ↦ ?_⟩
  have hclean := hc.others hr
  have hx : w₁.savePeer call uuid beat o.outcome = (w₂, r) := map_some_inj hx
  have howes : ∀ inserted, w₂.history = (call, .saved uuid beat inserted) :: w₁.history →
      OwesOnly call uuid beat w₂ := by
    intro inserted hh u b ho
    rw [hh] at ho
    rcases owes_cons.mp ho with ⟨_, he⟩ | ⟨-, ho⟩
    · cases he
      exact ⟨rfl, rfl⟩
    · exact absurd ho (hclean u b)
  cases hout : o.outcome with
  | error failure =>
    rw [hout] at hx
    cases hx
    exact hclean
  | ok x =>
    cases hp : w₁.peers uuid with
    | none =>
      simp only [World.savePeer, hout, hp] at hx
      cases hx
      exact howes true rfl
    | some row =>
      simp only [World.savePeer, hout, hp] at hx
      cases hx
      exact howes false rfl

theorem Clean.settled {w : World} (hc : Clean call w) : Settled call w :=
  fun u b ho ↦ absurd ho (hc u b)

theorem register_settles {data : HeartbeatDto} {s : Unit} {w : World} (hc : Clean call w) :
    (logic isolatedDeviceUuid cloneIsolation columns).Ensures call (register uuid data)
      (fun _ _ w' ↦ Settled call w') (fun _ _ w' ↦ Settled call w') s w := by
  refine .bind (((Tidy.ask rfl) s w hc).mono (fun peer s₁ w₁ hc₁ ↦ ?_) fun _ _ _ h ↦ h.settled)
  cases peer with
  | some row =>
    refine (bufferHeartbeat_tidy s₁ w₁ hc₁).mono (fun _ _ _ h ↦ h.settled) fun _ _ _ h ↦ ?_
    exact h.settled
  | none =>
    refine .bind (((Tidy.ask rfl) s₁ w₁ hc₁).mono (fun tombstone s₂ w₂ hc₂ ↦ ?_)
      fun _ _ _ h ↦ h.settled)
    cases tombstone with
    | some tombstone => exact .pure hc₂.settled
    | none =>
      refine .bind (((Tidy.ask rfl) s₂ w₂ hc₂).mono (fun now s₃ w₃ hc₃ ↦ ?_)
        fun _ _ _ h ↦ h.settled)
      refine .bind ((savePeer_owes hc₃).mono (fun _ _ _ ho ↦ handConns_settles ho)
        fun _ _ _ h ↦ h.settled)

theorem resolveDeviceUuid_tidy {id : String} : Tidy isolatedDeviceUuid cloneIsolation columns call
    (resolveDeviceUuid isolatedDeviceUuid cloneIsolation uuid id) := by
  unfold resolveDeviceUuid
  split
  · refine .bind (.ask rfl) fun existing ↦ ?_
    split
    · exact .pure
    · exact .bind (.ask rfl) fun legacy ↦ .pure
  · exact .pure

theorem deletedBefore_tidy {data : HeartbeatDto} :
    Tidy isolatedDeviceUuid cloneIsolation columns call (deletedBefore cloneIsolation data) := by
  unfold deletedBefore
  split
  · exact .bind (.ask rfl) fun legacyTombstone ↦ .pure
  · exact .pure

theorem flush_tidy : Tidy isolatedDeviceUuid cloneIsolation columns call flush := by
  refine .bind (.ask rfl) fun took ↦ ?_
  split
  · exact .ask rfl
  · exact .pure

theorem deleteDevice_tidy {guid actorGuid : String} :
    Tidy isolatedDeviceUuid cloneIsolation columns call (deleteDevice guid actorGuid) :=
  .bind (.invoke rfl) fun _ ↦ .invoke rfl

theorem restoreTombstone_tidy :
    Tidy isolatedDeviceUuid cloneIsolation columns call (restoreTombstone uuid) := by
  refine .bind (.invoke rfl) fun _ ↦ .bind (.ask rfl) fun tombstone ↦ ?_
  cases tombstone with
  | none => exact .throw
  | some tombstone =>
    refine .bind (.ask rfl) fun lifted ↦ ?_
    split
    · exact .invoke rfl
    · exact .pure

theorem handleHeartbeat_settles {data : HeartbeatDto} {s : Unit} {w : World} (hc : Clean call w) :
    (logic isolatedDeviceUuid cloneIsolation columns).Ensures call
      (handleHeartbeat isolatedDeviceUuid cloneIsolation data)
      (fun _ _ w' ↦ Settled call w') (fun _ _ w' ↦ Settled call w') s w := by
  refine .bind ((deletedBefore_tidy s w hc).mono (fun deleted s₁ w₁ hc₁ ↦ ?_)
    fun _ _ _ h ↦ h.settled)
  cases deleted with
  | true => exact .pure hc₁.settled
  | false => exact .bind ((resolveDeviceUuid_tidy s₁ w₁ hc₁).mono
      (fun _ _ _ hc₂ ↦ register_settles hc₂) fun _ _ _ h ↦ h.settled)

theorem delivers : (logic isolatedDeviceUuid cloneIsolation columns).Delivers Settled := by
  rintro call w p - ⟨hfresh, rfl⟩
  have hclean : Clean call w := by
    rintro u b ⟨later, e, earlier, heq, ⟨inserted, rfl⟩, -⟩
    refine hfresh (.saved u b inserted) ?_
    rw [heq]
    simp
  have htidy : ∀ {p : Handler Unit}, Tidy isolatedDeviceUuid cloneIsolation columns call p →
      (logic isolatedDeviceUuid cloneIsolation columns).Ensures call p
        (fun _ _ w' ↦ Settled call w') (fun _ _ w' ↦ Settled call w') () w := fun ht ↦
    (ht () w hclean).mono (fun _ _ _ h ↦ h.settled) fun _ _ _ h ↦ h.settled
  have hserve : (logic isolatedDeviceUuid cloneIsolation columns).Ensures call
      (serve isolatedDeviceUuid cloneIsolation call.request)
      (fun _ _ w' ↦ Settled call w') (fun _ _ w' ↦ Settled call w') () w := by
    cases call.request with
    | heartbeat data => exact handleHeartbeat_settles hclean
    | flush => exact htidy flush_tidy
    | deleteDevice guid actorGuid => exact htidy deleteDevice_tidy
    | restoreTombstone uuid => exact htidy restoreTombstone_tidy
  refine Logic.Wp.bind (Logic.Wp.mono hserve fun x w' h ↦ ?_)
  obtain ⟨x, u⟩ := x
  cases x with
  | ok a => exact h
  | error failure => exact h

theorem stable_settled : (logic isolatedDeviceUuid cloneIsolation columns).Stable Settled :=
  fun _ _ _ hg hs u b ho ↦ hs u b (ho.of_grown hg)

end Owing

end RustdeskConsole.Heartbeats
