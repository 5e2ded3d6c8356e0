import RustdeskConsole.Effects.Logic
import RustdeskConsole.ServerBans.Service

namespace RustdeskConsole.ServerBans

open Effects Function

namespace World

/-- The writes among the first `n` that reported success. -/
def succeeded (w : World) (n : ℕ) : List Job :=
  ((w.jobs.take n).zipIdx.filter fun job ↦ (w.reports job.2).any Report.succeeded).map Prod.fst

/-- The list after these writes, one after another. -/
def replay (w : World) (bans : Bans) (n : ℕ) : Bans :=
  (w.succeeded n).foldl (fun bans job ↦ job.apply bans) bans

end World

variable {w w' : World} {bans : Bans} {n ticket : ℕ} {job : Job} {report : Report}

/-- The link before the write with this ticket. -/
def before : ℕ → Link
  | 0 => .resolved
  | ticket + 1 => .settled ticket

/-- The chain goes through all the writes. The turns come in the order of the queue, and
between two turns the list is the one that the reports tell of. -/
structure Serial (bans : Bans) (w : World) : Prop where
  bansQueue : w.bansQueue = before w.jobs.length
  awaits : ∀ n < w.jobs.length, w.awaits n = before n
  ordered : ∀ n, w.started n = true → ∀ m < n, (w.reports m).isSome
  started : ∀ n, (w.reports n).isSome → w.started n = true
  queued : ∀ n, w.started n = true → n < w.jobs.length
  value : ∀ n, (∀ m < n, (w.reports m).isSome) → w.started n = false → w.bans = w.replay bans n

/-- The turn of a write has come and is not over. -/
structure Active (ticket : ℕ) (w : World) : Prop where
  started : w.started ticket = true
  report : w.reports ticket = none

section Replay

/-- What the other tasks leave as it is for the turn of a write. -/
structure Kept (ticket : ℕ) (w w' : World) : Prop where
  jobs : w.jobs <+: w'.jobs
  started : w'.started ticket = w.started ticket
  report : w'.reports ticket = w.reports ticket
  earlier : ∀ m < ticket, (w.reports m).isSome → w'.reports m = w.reports m
  bans : Active ticket w → w'.bans = w.bans

theorem succeeded_congr (hj : w'.jobs.take n = w.jobs.take n)
    (hr : ∀ m < n, w'.reports m = w.reports m) : w'.succeeded n = w.succeeded n := by
  rw [World.succeeded, World.succeeded, hj]
  congr 1
  refine List.filter_congr fun job hjob ↦ ?_
  have hlt := (List.mem_zipIdx hjob).2.1
  rw [hr job.2 (by have := List.length_take_le n w.jobs; omega)]

theorem prefix_take {α : Type} {as bs : List α} (h : as <+: bs) (hn : n ≤ as.length) :
    bs.take n = as.take n := by
  obtain ⟨cs, rfl⟩ := h
  exact List.take_append_of_le_length hn

theorem succeeded_succ (hj : w.jobs[n]? = some job) : w.succeeded (n + 1) =
    w.succeeded n ++ if (w.reports n).any Report.succeeded then [job] else [] := by
  obtain ⟨hlt, -⟩ := List.getElem?_eq_some_iff.mp hj
  have hlen : (w.jobs.take n).length = n := List.length_take_of_le (Nat.le_of_lt hlt)
  rw [World.succeeded, List.take_add_one, hj, Option.toList_some, List.zipIdx_append,
    List.filter_append, List.map_append, World.succeeded, hlen]
  congr 1
  split <;> simp_all

theorem replay_congr (hj : w'.jobs.take n = w.jobs.take n)
    (hr : ∀ m < n, w'.reports m = w.reports m) : w'.replay bans n = w.replay bans n := by
  rw [World.replay, World.replay, succeeded_congr hj hr]

theorem replay_succ (hj : w.jobs[n]? = some job) (hr : w.reports n = some report) :
    w.replay bans (n + 1) =
      if report.succeeded then job.apply (w.replay bans n) else w.replay bans n := by
  rw [World.replay, World.replay, succeeded_succ hj, hr, Option.any_some, List.foldl_append]
  split <;> rfl

end Replay

section Steps

theorem Serial.active_unique (hs : Serial bans w) {other : ℕ} (ha : Active ticket w)
    (ho : Active other w) : ticket = other := by
  rcases Nat.lt_trichotomy ticket other with hlt | heq | hlt
  · have hsome := hs.ordered other ho.started ticket hlt
    rw [ha.report] at hsome
    cases hsome
  · exact heq
  · have hsome := hs.ordered ticket ha.started other hlt
    rw [ho.report] at hsome
    cases hsome

/-- All writes have settled but those from the active one on. -/
theorem Serial.le_of_active (hs : Serial bans w) (ha : Active ticket w)
    (hn : ∀ m < n, (w.reports m).isSome) (hnone : w.started n = false) : False := by
  have hle : n ≤ ticket := by
    by_contra hlt
    have hsome := hn ticket (by omega)
    rw [ha.report] at hsome
    cases hsome
  rcases Nat.lt_or_eq_of_le hle with hlt | rfl
  · rw [hs.started n (hs.ordered ticket ha.started n hlt)] at hnone
    cases hnone
  · rw [ha.started] at hnone
    cases hnone

theorem Serial.le_length (hs : Serial bans w) (hn : ∀ m < n, (w.reports m).isSome) :
    n ≤ w.jobs.length := by
  cases n with
  | zero => omega
  | succ n => exact hs.queued n (hs.started n (hn n (by omega)))

/-- What is queued awaits the write before it. -/
theorem Serial.enqueueBansWrite (hs : Serial bans w) : Serial bans (w.enqueueBansWrite job) where
  bansQueue := by
    rw [World.enqueueBansWrite, List.length_append]
    rfl
  awaits n hn := by
    simp only [World.enqueueBansWrite, List.length_append, List.length_singleton] at hn ⊢
    by_cases heq : n = w.jobs.length
    · rw [heq, update_self, hs.bansQueue]
    · rw [update_of_ne heq]
      exact hs.awaits n (by omega)
  ordered := hs.ordered
  started := hs.started
  queued n hn := by
    have hlt := hs.queued n hn
    simp only [World.enqueueBansWrite, List.length_append]
    omega
  value n hn hnone := by
    have htake : (w.enqueueBansWrite job).jobs.take n = w.jobs.take n :=
      List.take_append_of_le_length (hs.le_length hn)
    rw [replay_congr htake fun _ _ ↦ rfl]
    exact hs.value n hn hnone

theorem Serial.start (hs : Serial bans w) (hq : ticket < w.jobs.length)
    (hd : ∀ m < ticket, (w.reports m).isSome) : Serial bans (w.start ticket) where
  bansQueue := hs.bansQueue
  awaits := hs.awaits
  ordered n hn := by
    by_cases heq : n = ticket
    · exact heq ▸ hd
    · exact hs.ordered n ((update_of_ne heq ..).symm.trans hn)
  started n hn := by
    by_cases heq : n = ticket
    · exact heq ▸ update_self ..
    · exact (update_of_ne heq ..).trans (hs.started n hn)
  queued n hn := by
    by_cases heq : n = ticket
    · exact heq ▸ hq
    · exact hs.queued n ((update_of_ne heq ..).symm.trans hn)
  value n hn hnone := by
    by_cases heq : n = ticket
    · rw [heq] at hnone
      cases (update_self ..).symm.trans hnone
    · exact hs.value n hn ((update_of_ne heq ..).symm.trans hnone)

theorem Serial.put (hs : Serial bans w) (ha : Active ticket w) (bans' : Bans) :
    Serial bans { w with bans := bans' } where
  bansQueue := hs.bansQueue
  awaits := hs.awaits
  ordered := hs.ordered
  started := hs.started
  queued := hs.queued
  value _ hn hnone := (hs.le_of_active ha hn hnone).elim

/-- What a write reports is true of the list that it leaves. -/
def Truthful (bans : Bans) (ticket : ℕ) (report : Report) (w : World) : Prop :=
  ∃ job, w.jobs[ticket]? = some job ∧
    w.bans = if report.succeeded then job.apply (w.replay bans ticket) else w.replay bans ticket

theorem Serial.settle (hs : Serial bans w) (ha : Active ticket w)
    (ht : Truthful bans ticket report w) : Serial bans (w.settle ticket report) where
  bansQueue := hs.bansQueue
  awaits := hs.awaits
  ordered n hn m hm := by
    by_cases heq : m = ticket
    · have hsome : (w.settle ticket report).reports m = some report := heq ▸ update_self ..
      rw [hsome]
      rfl
    · exact (congrArg Option.isSome (update_of_ne heq ..)).trans (hs.ordered n hn m hm)
  started n hn := by
    by_cases heq : n = ticket
    · exact heq ▸ ha.started
    · exact hs.started n ((congrArg Option.isSome (update_of_ne heq ..)).symm.trans hn)
  queued := hs.queued
  value n hn hnone := by
    have hother : ∀ m, m ≠ ticket → (w.settle ticket report).reports m = w.reports m :=
      fun m hm ↦ update_of_ne hm ..
    have hlt : ticket < n := by
      by_contra hle
      refine hs.le_of_active ha (fun m hm ↦ ?_) hnone
      rw [← hother m (by omega)]
      exact hn m hm
    have hn' : n = ticket + 1 := by
      by_contra hne
      have hsome := hn (ticket + 1) (by omega)
      rw [hother _ (by omega)] at hsome
      have hsome := hs.ordered _ (hs.started _ hsome) ticket (by omega)
      rw [ha.report] at hsome
      cases hsome
    obtain ⟨job, hj, hv⟩ := ht
    subst hn'
    have hself : (w.settle ticket report).reports ticket = some report := update_self ..
    have hjob : (w.settle ticket report).jobs[ticket]? = some job := hj
    have hreplay : (w.settle ticket report).replay bans ticket = w.replay bans ticket :=
      replay_congr rfl fun m hm ↦ hother m (by omega)
    rw [replay_succ hjob hself, hreplay]
    exact hv

end Steps

section Rules

variable {config : RuntimeConfig} {task other : Task}

def guard (bans : Bans) : Task → Command → World → Prop
  | .work ticket, .start, w =>
    ticket < w.jobs.length ∧ w.started ticket = false ∧ ∀ m < ticket, (w.reports m).isSome
  | .work ticket, .settle report, w => Active ticket w ∧ Truthful bans ticket report w
  | .work ticket, .putBans _, w => Active ticket w
  | .request .., .putBans _, _ => False
  | _, _, _ => True

def rely : Task → World → World → Prop
  | .request .., _, _ => True
  | .work ticket, w, w' => Kept ticket w w'

theorem Kept.refl : Kept ticket w w := ⟨List.prefix_rfl, rfl, rfl, fun _ _ _ ↦ rfl, fun _ ↦ rfl⟩

theorem Kept.trans {w'' : World} (hk : Kept ticket w w') (hk' : Kept ticket w' w'') :
    Kept ticket w w'' where
  jobs := hk.jobs.trans hk'.jobs
  started := hk'.started.trans hk.started
  report := hk'.report.trans hk.report
  earlier m hm hsome := by
    have heq := hk.earlier m hm hsome
    exact (hk'.earlier m hm (heq ▸ hsome)).trans heq
  bans ha := (hk'.bans ⟨hk.started.trans ha.started, hk.report.trans ha.report⟩).trans (hk.bans ha)

theorem exec_serial {c : Command} {o : Choice} (hs : Serial bans w)
    (hg : guard bans task c w) : Serial bans (exec config task c o w).1 := by
  cases c with
  | enqueueBansWrite job => cases task <;> exact hs.enqueueBansWrite
  | start =>
    cases task with
    | request id request => exact hs
    | work ticket => exact hs.start hg.1 hg.2.2
  | settle report =>
    cases task with
    | request id request => exact hs
    | work ticket => exact hs.settle hg.1 hg.2
  | putBans body =>
    cases task with
    | request id request => exact hg.elim
    | work ticket =>
      rw [exec]
      split
      · exact hs.put hg _
      · exact hs
  | runtime => cases task <;> exact hs
  | findRelay => cases task <;> exact hs
  | getBans => cases task <;> exact hs
  | recordDenied => cases task <;> exact hs
  | record => cases task <;> exact hs

theorem kept_start (hne : ticket ≠ n) :
    Kept ticket w (w.start n) :=
  ⟨List.prefix_rfl, update_of_ne hne .., rfl, fun _ _ _ ↦ rfl, fun _ ↦ rfl⟩

theorem kept_settle (hne : ticket ≠ n) (ha : Active n w) : Kept ticket w (w.settle n report) := by
  refine ⟨List.prefix_rfl, rfl, update_of_ne hne .., fun m _ hsome ↦ update_of_ne ?_ ..,
    fun _ ↦ rfl⟩
  rintro rfl
  rw [ha.report] at hsome
  cases hsome

theorem exec_kept {c : Command} {o : Choice} (hne : task ≠ other) (hs : Serial bans w)
    (hg : guard bans other c w) : rely task w (exec config other c o w).1 := by
  cases task with
  | request id request => trivial
  | work ticket =>
    cases c with
    | enqueueBansWrite job =>
      have hk : Kept ticket w (w.enqueueBansWrite job) :=
        ⟨List.prefix_append .., rfl, rfl, fun _ _ _ ↦ rfl, fun _ ↦ rfl⟩
      cases other <;> exact hk
    | start =>
      cases other with
      | request id request => exact Kept.refl
      | work n => exact kept_start fun heq ↦ hne (by rw [heq])
    | settle report =>
      cases other with
      | request id request => exact Kept.refl
      | work n => exact kept_settle (fun heq ↦ hne (by rw [heq])) hg.1
    | putBans body =>
      cases other with
      | request id request => exact hg.elim
      | work n =>
        rw [exec]
        split
        · refine ⟨List.prefix_rfl, rfl, rfl, fun _ _ _ ↦ rfl, fun ha ↦ ?_⟩
          exact absurd (by rw [hs.active_unique ha hg]) hne
        · exact Kept.refl
    | runtime => cases other <;> exact Kept.refl
    | findRelay => cases other <;> exact Kept.refl
    | getBans => cases other <;> exact Kept.refl
    | recordDenied => cases other <;> exact Kept.refl
    | record => cases other <;> exact Kept.refl

/-- A write reads and puts the list in its turn only, and tells the truth. -/
def logic (config : RuntimeConfig) (bans : Bans) : Logic (machine config) where
  inv := Serial bans
  guard := guard bans
  rely := rely
  rely_refl task _ := by
    cases task with
    | request id request => trivial
    | work ticket => exact Kept.refl
  rely_trans task {_ _ _} h h' := by
    cases task with
    | request id request => trivial
    | work ticket => exact Kept.trans h h'
  keeps _ _ hs hg := exec_serial hs hg
  interferes _ _ hne hs hg := exec_kept hne hs hg

end Rules

end RustdeskConsole.ServerBans
