import RustdeskConsole.Gateway.Registry

namespace RustdeskConsole.Gateway

open Effects Effects.History Function Collections WebClient

section Outstanding

variable {h : History} {c : Call} {e : Event} {user user' : String}

theorem outstanding_note (hr : ∀ u, e ≠ .reserved u) (hl : ∀ u, e ≠ .released u) :
    outstanding ((c, e) :: h) user = outstanding h user := by
  simp only [outstanding, List.countP_cons, hr, false_and, decide_false, Bool.false_eq_true, if_false,
    Nat.add_zero, mem_note (hl _).symm]

theorem outstanding_reserved (hn : (c, .released user) ∉ h) :
    outstanding ((c, .reserved user) :: h) user' =
      outstanding h user' + if user' = user then 1 else 0 := by
  simp only [outstanding, List.countP_cons, mem_note (e := .reserved user) (f := .released user')
    (by simp), Event.reserved.injEq]
  by_cases hu : user' = user
  · subst hu
    simp [hn]
  · simp [hu, Ne.symm hu]

theorem countP_ne {α : Type} [DecidableEq α] {p : α → Bool} {a : α} (hp : p a = true) (l : List α) :
    l.countP p = l.countP (fun x ↦ p x && decide (x ≠ a)) + l.countP fun x ↦ decide (x = a) := by
  induction l with
  | nil => rfl
  | cons b l ih =>
    rw [List.countP_cons, List.countP_cons, List.countP_cons, ih]
    by_cases hb : b = a
    · subst hb
      simp [hp]
      omega
    · simp [hb]
      omega

variable {runtime : Runtime} (hl : Lawful (law runtime) h)

include hl

theorem countP_reserved (hr : (c, .reserved user) ∈ h) :
    h.countP (fun x ↦ decide (x = (c, .reserved user))) = 1 := by
  have ho : AtMostOnce (fun x : Call × Event ↦ x = (c, .reserved user)) h := by
    refine hl.unfollowed fun earlier x hx he p hp hpe ↦ ?_
    subst he hpe
    exact hx user hp
  have hle := ho.countP_le_one
  have hpos : 0 < h.countP fun x ↦ decide (x = (c, .reserved user)) :=
    List.countP_pos_iff.mpr ⟨_, hr, decide_eq_true rfl⟩
  omega

theorem outstanding_released (hr : (c, .reserved user) ∈ h) (hn : (c, .released user) ∉ h)
    (user' : String) :
    outstanding ((c, .released user) :: h) user' + (if user' = user then 1 else 0) =
      outstanding h user' := by
  by_cases hu : user' = user
  · subst hu
    have hold := countP_ne (a := (c, Event.reserved user'))
      (p := fun x ↦ decide (x.2 = .reserved user' ∧ (x.1, .released user') ∉ h)) (by simpa using hn) h
    rw [countP_reserved hl hr] at hold
    rw [if_pos rfl, outstanding, outstanding, List.countP_cons, hold]
    simp only [reduceCtorEq, false_and, decide_false, Bool.false_eq_true, if_false, Nat.add_zero,
      Nat.add_right_cancel_iff]
    refine List.countP_congr fun x hx ↦ ?_
    obtain ⟨c', e⟩ := x
    simp only [decide_eq_true_eq, Bool.and_eq_true, List.mem_cons, Prod.mk.injEq, and_true, not_or,
      ne_eq]
    constructor
    · rintro ⟨rfl, hc, hm⟩
      exact ⟨⟨rfl, hm⟩, fun heq ↦ hc heq.1⟩
    · rintro ⟨⟨rfl, hm⟩, hne⟩
      exact ⟨rfl, fun hc ↦ hne ⟨hc, rfl⟩, hm⟩
  · rw [if_neg hu, Nat.add_zero, outstanding, outstanding, List.countP_cons]
    simp only [reduceCtorEq, false_and, decide_false, Bool.false_eq_true, if_false, Nat.add_zero]
    refine List.countP_congr fun x hx ↦ ?_
    have hne : Event.released user' ≠ .released user := by
      intro heq
      exact hu (Event.released.inj heq)
    simp only [decide_eq_true_eq, mem_note hne]

end Outstanding

namespace Capacity

variable {w w' : World} {call : Call} {user : String}

/-- Sessions may leave, and nothing else may change. -/
theorem shrink (hc : Capacity w) (hs : w'.sessions.Sublist w.sessions)
    (ho : ∀ u, w'.owns u = w.owns u) (hr : w'.reservations = w.reservations)
    (hout : ∀ u, outstanding w'.history u = outstanding w.history u) : Capacity w' := by
  have hres : ∀ u, w'.reserved u = w.reserved u := by
    intro u
    rw [World.reserved, World.reserved, hr]
  refine ⟨fun u ↦ ?_, ?_, fun u ↦ ?_⟩
  · rw [hres, hout, hc.reserved]
  · have hlen := hs.length_le
    have ht := hc.total
    rw [hr]
    omega
  · have hcount := hs.countP_le (p := w.owns u)
    have hu := hc.user u
    rw [hres, ho]
    omega

theorem note (hc : Capacity w) {e : Event} (hr : ∀ u, e ≠ .reserved u) (hl : ∀ u, e ≠ .released u) :
    Capacity (w.note call e) :=
  hc.shrink (List.Sublist.refl _) (fun _ ↦ rfl) rfl fun _ ↦ outstanding_note hr hl

theorem reserve (hc : Capacity w) (hn : (call, .released user) ∉ w.history) :
    Capacity (w.reserve call user).1 := by
  unfold World.reserve
  split
  · exact hc
  · rename_i hlt
    simp only [Bool.or_eq_true, decide_eq_true_eq, not_or, Nat.not_le, ge_iff_le] at hlt
    have ht := w.reservations.total_set user (w.reserved user + 1)
    have hres : ∀ u, ((w.reservations.set user (w.reserved user + 1)).get? u).getD 0 =
        w.reserved u + if u = user then 1 else 0 := by
      intro u
      rw [OrderedMap.get?_set]
      by_cases hu : u = user
      · subst hu
        simp only [if_true, Option.getD_some]
      · simp only [if_neg hu, World.reserved, Nat.add_zero]
    refine ⟨fun u ↦ ?_, ?_, fun u ↦ ?_⟩
    · change ((w.reservations.set user (w.reserved user + 1)).get? u).getD 0 = _
      rw [hres, hc.reserved]
      exact (outstanding_reserved hn).symm
    · change w.sessions.length + (w.reservations.set user (w.reserved user + 1)).total ≤ 256
      have hd : (w.reservations.get? user).getD 0 = w.reserved user := rfl
      omega
    · change w.sessions.countP (w.owns u) +
        ((w.reservations.set user (w.reserved user + 1)).get? u).getD 0 ≤ 8
      rw [hres]
      have hu := hc.user u
      by_cases heq : u = user
      · subst heq
        rw [if_pos rfl]
        omega
      · rw [if_neg heq]
        omega

section Release

variable {runtime : Runtime} (hl : Lawful (law runtime) w.history)
  (hr : (call, .reserved user) ∈ w.history) (hn : (call, .released user) ∉ w.history)

include hr hn in
/-- A reservation that a call still holds is counted. -/
theorem reserved_pos (hc : Capacity w) : 0 < w.reserved user := by
  rw [hc.reserved, outstanding, List.countP_pos_iff]
  exact ⟨_, hr, decide_eq_true ⟨rfl, hn⟩⟩

variable (call) in
theorem release_reservations : (w.releaseReservation call user).reservations =
    if w.reserved user ≤ 1 then w.reservations.erase user
    else w.reservations.set user (w.reserved user - 1) := rfl

variable (call) in
theorem release_reserved (hpos : 0 < w.reserved user) (u : String) :
    (w.releaseReservation call user).reserved u + (if u = user then 1 else 0) = w.reserved u := by
  rw [World.reserved, release_reservations]
  by_cases hle : w.reserved user ≤ 1
  · rw [if_pos hle, OrderedMap.get?_erase]
    by_cases hu : u = user
    · subst hu
      rw [if_pos rfl, if_pos rfl, Option.getD_none]
      omega
    · rw [if_neg hu, if_neg hu, Nat.add_zero]
      rfl
  · rw [if_neg hle, OrderedMap.get?_set]
    by_cases hu : u = user
    · subst hu
      rw [if_pos rfl, if_pos rfl, Option.getD_some]
      omega
    · rw [if_neg hu, if_neg hu, Nat.add_zero]
      rfl

variable (call) in
theorem release_total (hpos : 0 < w.reserved user) :
    (w.releaseReservation call user).reservations.total + 1 = w.reservations.total := by
  rw [release_reservations]
  have hd : (w.reservations.get? user).getD 0 = w.reserved user := rfl
  by_cases hle : w.reserved user ≤ 1
  · have ht := w.reservations.total_erase user
    rw [if_pos hle]
    omega
  · have ht := w.reservations.total_set user (w.reserved user - 1)
    rw [if_neg hle]
    omega

include hl hr hn in
theorem release (hc : Capacity w) : Capacity (w.releaseReservation call user) := by
  have hpos := reserved_pos hr hn hc
  refine ⟨fun u ↦ ?_, ?_, fun u ↦ ?_⟩
  · have hres := release_reserved call hpos u
    have hout : _ = outstanding w.history u := outstanding_released hl hr hn u
    have heq := hc.reserved u
    change _ = outstanding ((call, .released user) :: w.history) u
    omega
  · have ht := release_total call hpos
    have htot := hc.total
    change w.sessions.length + (w.releaseReservation call user).reservations.total ≤ 256
    omega
  · have hres := release_reserved call hpos u
    have hu := hc.user u
    change w.sessions.countP (w.owns u) + (w.releaseReservation call user).reserved u ≤ 8
    omega

end Release

/-- The reservation becomes the session. -/
theorem start (hc : Capacity w) {runtime : Runtime} (hl : Lawful (law runtime) w.history)
    {session : Session} {rendezvous relay : String} (hnew : session.guid ∉ w.sessions)
    (hr : (call, .reserved session.actor.id) ∈ w.history)
    (hn : (call, .released session.actor.id) ∉ w.history)
    (hs : w'.sessions = w.sessions ++ [session.guid])
    (ho : w'.objects = update w.objects session.guid (some session))
    (hres : w'.reservations = w.reservations)
    (hh : w'.history = (call, .started session rendezvous relay) :: w.history) :
    Capacity (w'.releaseReservation call session.actor.id) := by
  have hsame : ∀ u, w'.reserved u = w.reserved u := by
    intro u
    rw [World.reserved, World.reserved, hres]
  have hpos : 0 < w'.reserved session.actor.id := by
    rw [hsame]
    exact reserved_pos hr hn hc
  refine ⟨fun u ↦ ?_, ?_, fun u ↦ ?_⟩
  · have hres := release_reserved call hpos u
    have hl' := outstanding_released hl hr hn u
    have hout : outstanding ((call, .released session.actor.id) :: w'.history) u =
        outstanding ((call, .released session.actor.id) :: w.history) u := by
      simp only [outstanding, hh, List.countP_cons, List.mem_cons, Prod.mk.injEq,
        reduceCtorEq, and_false, false_or, false_and, decide_false, Bool.false_eq_true, if_false,
        Nat.add_zero]
    have heq := hc.reserved u
    have hu := hsame u
    change _ = outstanding ((call, .released session.actor.id) :: w'.history) u
    omega
  · have ht := release_total call hpos
    have htot := hc.total
    rw [hres] at ht
    change w'.sessions.length + (w'.releaseReservation call session.actor.id).reservations.total ≤ 256
    rw [hs, List.length_append, List.length_singleton]
    omega
  · have hcount : (w.sessions ++ [session.guid]).countP (w'.owns u) =
        w.sessions.countP (w.owns u) + if u = session.actor.id then 1 else 0 := by
      have hold : w.sessions.countP (w'.owns u) = w.sessions.countP (w.owns u) := by
        refine List.countP_congr fun g hg ↦ ?_
        have hne : g ≠ session.guid := by
          rintro rfl
          exact hnew hg
        simp only [World.owns, ho, update_of_ne hne]
      rw [List.countP_append, hold, List.countP_singleton]
      simp only [World.owns, ho, update_self, Option.any_some, decide_eq_true_eq,
        @eq_comm _ session.actor.id]
    have hres := release_reserved call hpos u
    have hu := hc.user u
    have hus := hsame u
    change w'.sessions.countP (w'.owns u) +
      (w'.releaseReservation call session.actor.id).reserved u ≤ 8
    rw [hs]
    omega

end Capacity

end RustdeskConsole.Gateway
