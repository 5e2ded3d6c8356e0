import RustdeskConsole.Accounts.Administered

namespace RustdeskConsole.Accounts

open Effects Effects.History

/-- Every string identifies at most one user under `findByUsernameOrEmail`. -/
def World.Unambiguous (w : World) : Prop :=
  ∀ text, ∀ u ∈ w.users, ∀ v ∈ w.users,
    World.identifiedBy text text u = true → World.identifiedBy text text v = true → u = v

/-- Nobody's email is somebody else's username. -/
def Uncrossed (users : List User) : Prop :=
  ∀ u ∈ users, ∀ v ∈ users, v ≠ u → v.email ≠ some u.username

/-- The username that a statement writes is nobody else's email, and the email
nobody else's username. -/
structure Clear (w : World) (event : Event) : Prop where
  created : ∀ user, event = .created user → ∀ v ∈ w.users,
    v.email ≠ some user.username ∧ user.email ≠ some v.username
  wrote : ∀ u ∈ w.users, ∀ change, changeOf event.changes u.guid = some change →
    ∀ v ∈ w.users, v ≠ u →
      (change.saved.username ≠ change.loaded.username → v.email ≠ some change.saved.username) ∧
      (change.saved.email ≠ change.loaded.email → change.saved.email ≠ some v.username)

/-- The statement of the step, if it is one, is clear. -/
def Clearly (cfg cfg' : Config Call Command Reply World) : Prop :=
  ∀ call event, cfg'.world.history = (call, event) :: cfg.world.history → Clear cfg.world event

section Columns

variable {users : List User}

theorem eq_of_column {α : Type} {f : User → α} (h : (users.map f).Nodup) {u v : User}
    (hu : u ∈ users) (hv : v ∈ users) (he : f u = f v) : u = v :=
  List.inj_on_of_nodup_map h hu hv he

theorem eq_of_optional {f : User → Option String} (h : (users.filterMap f).Nodup) {u v : User}
    {text : String} (hu : u ∈ users) (hv : v ∈ users) (hfu : f u = some text)
    (hfv : f v = some text) : u = v := by
  induction users with
  | nil => cases hu
  | cons a users ih =>
    have hmem : ∀ {x}, x ∈ users → f x = some text → text ∈ users.filterMap f := by
      intro x hx hfx
      exact List.mem_filterMap.mpr ⟨x, hx, hfx⟩
    have htail : (users.filterMap f).Nodup := by
      rw [List.filterMap_cons] at h
      split at h
      · exact h
      · exact (List.nodup_cons.mp h).2
    have hhead : ∀ {x}, x ∈ users → f x = some text → f a ≠ some text := by
      intro x hx hfx hfa
      rw [List.filterMap_cons, hfa] at h
      exact (List.nodup_cons.mp h).1 (hmem hx hfx)
    rcases List.mem_cons.mp hu with rfl | hmu <;> rcases List.mem_cons.mp hv with rfl | hmv
    · rfl
    · exact absurd hfu (hhead hmv hfv)
    · exact absurd hfv (hhead hmu hfu)
    · exact ih htail hmu hmv

/-- The unique indexes leave only one way to be ambiguous. -/
theorem unambiguous_iff {w : World} (hq : uniqueColumns w.users) :
    w.Unambiguous ↔ Uncrossed w.users := by
  simp only [World.Unambiguous, World.identifiedBy, Bool.or_eq_true, decide_eq_true_eq]
  constructor
  · intro h u hu v hv hne he
    exact hne (h u.username v hv u hu (.inr he) (.inl rfl))
  · rintro h text u hu v hv (hut | hut) (hvt | hvt)
    · exact eq_of_column hq.2.1 hu hv (hut.trans hvt.symm)
    · by_contra hne
      exact h u hu v hv (Ne.symm hne) (hut ▸ hvt)
    · by_contra hne
      exact h v hv u hu hne (hvt ▸ hut)
    · exact eq_of_optional hq.2.2.1 hu hv hut hvt

end Columns

section Step

variable {call : Call} {c : Command} {w w' : World} {changes : List Change}

theorem applyChanges_names (changes : List Change) (u : User) :
    (∃ change, changeOf changes u.guid = some change ∧
      (applyChanges changes u).username =
        column change.loaded.username change.saved.username u.username ∧
      (applyChanges changes u).email = column change.loaded.email change.saved.email u.email) ∨
    changeOf changes u.guid = none ∧ applyChanges changes u = u := by
  rw [applyChanges]
  cases changeOf changes u.guid with
  | none => exact .inr ⟨rfl, rfl⟩
  | some change => exact .inl ⟨change, rfl, rfl, rfl⟩

/-- Of two accounts, a statement renames at most one. -/
theorem Modest.kept (hm : Modest changes) {u v : User} (hg : u.guid ≠ v.guid) :
    ((applyChanges changes u).username = u.username ∧ (applyChanges changes u).email = u.email) ∨
    ((applyChanges changes v).username = v.username ∧
      (applyChanges changes v).email = v.email) := by
  rcases applyChanges_names changes u with ⟨cu, hcu, hu₁, hu₂⟩ | ⟨-, hu⟩
  · rcases applyChanges_names changes v with ⟨cv, hcv, -, -⟩ | ⟨-, hv⟩
    · obtain ⟨hmu, hgu⟩ := Field.changeOf_spec hcu
      obtain ⟨hmv, hgv⟩ := Field.changeOf_spec hcv
      rcases hm with hone | hall
      · obtain ⟨change, hsingle⟩ := List.length_eq_one_iff.mp hone
        rw [hsingle] at hmu hmv
        rw [List.mem_singleton.mp hmu] at hgu
        rw [List.mem_singleton.mp hmv] at hgv
        exact absurd (hgu.symm.trans hgv) hg
      · obtain ⟨hn, he⟩ := hall cu hmu
        exact .inl ⟨by rw [hu₁, column, if_pos hn], by rw [hu₂, column, if_pos he]⟩
    · rw [hv]
      exact .inr ⟨rfl, rfl⟩
  · rw [hu]
    exact .inl ⟨rfl, rfl⟩

theorem column_cases {α : Type} [DecidableEq α] (loaded saved row : α) :
    (saved = loaded ∧ column loaded saved row = row) ∨
      (saved ≠ loaded ∧ column loaded saved row = saved) := by
  rw [column]
  split
  · rename_i h
    exact .inl ⟨h, rfl⟩
  · rename_i h
    exact .inr ⟨h, rfl⟩

/-- A write keeps the identifiers apart exactly if it is clear. -/
theorem uncrossed_wrote {event : Event} (hq : uniqueColumns w.users) (hm : Modest event.changes)
    (hu : Uncrossed w.users) (hne : ∀ user, event ≠ .created user) :
    Uncrossed (w.users.map (applyChanges event.changes)) ↔ Clear w event := by
  have hguid : ∀ {u v}, u ∈ w.users → v ∈ w.users → v ≠ u → u.guid ≠ v.guid := by
    intro u v hmu hmv hvu heq
    exact hvu (eq_of_guid hq hmv hmu heq.symm)
  constructor
  · refine fun h ↦ ⟨fun user he ↦ absurd he (hne user), fun u hmu change hc v hmv hvu ↦ ?_⟩
    have hpair := h _ (List.mem_map_of_mem hmu) _ (List.mem_map_of_mem hmv)
    have hpair' := h _ (List.mem_map_of_mem hmv) _ (List.mem_map_of_mem hmu)
    have hdist : (applyChanges event.changes v).guid ≠ (applyChanges event.changes u).guid := by
      rw [applyChanges_guid, applyChanges_guid]
      exact (hguid hmu hmv hvu).symm
    have hvu' := hpair fun heq ↦ hdist (congrArg _ heq)
    have huv' := hpair' fun heq ↦ hdist (congrArg _ heq.symm)
    have hkept := hm.kept (hguid hmu hmv hvu)
    have happly : applyChanges event.changes u = change.merge u := by rw [applyChanges, hc]
    rw [happly] at hvu' huv' hkept
    refine ⟨fun hw heq ↦ ?_, fun hw heq ↦ ?_⟩
    · have hname : (change.merge u).username = change.saved.username := if_neg hw
      rcases hkept with ⟨hk, -⟩ | ⟨-, hk⟩
      · exact hu u hmu v hmv hvu (heq.trans (congrArg some (hname.symm.trans hk)))
      · exact hvu' (hk.trans (heq.trans (congrArg some hname.symm)))
    · have hemail : (change.merge u).email = change.saved.email := if_neg hw
      rcases hkept with ⟨-, hk⟩ | ⟨hk, -⟩
      · exact hu v hmv u hmu hvu.symm ((hk.symm.trans hemail).trans heq)
      · exact huv' (hemail.trans (heq.trans (congrArg some hk.symm)))
  · intro h u' hmu' v' hmv' hvu heq
    obtain ⟨u, hmu, rfl⟩ := List.mem_map.mp hmu'
    obtain ⟨v, hmv, rfl⟩ := List.mem_map.mp hmv'
    have hne' : v ≠ u := fun heq ↦ hvu (congrArg _ heq)
    have hold := hu u hmu v hmv hne'
    rcases hm.kept (hguid hmu hmv hne') with ⟨hk, -⟩ | ⟨-, hk⟩
    · rw [hk] at heq
      rcases applyChanges_names event.changes v with ⟨change, hc, -, he⟩ | ⟨-, hv⟩
      · rw [he] at heq
        rcases column_cases change.loaded.email change.saved.email v.email with ⟨-, hcol⟩ | ⟨hw, hcol⟩
        · exact hold (hcol.symm.trans heq)
        · exact (h.wrote v hmv change hc u hmu hne'.symm).2 hw (hcol.symm.trans heq)
      · exact hold (hv ▸ heq)
    · rw [hk] at heq
      rcases applyChanges_names event.changes u with ⟨change, hc, hn, -⟩ | ⟨-, hu'⟩
      · rw [hn] at heq
        rcases column_cases change.loaded.username change.saved.username u.username with
          ⟨-, hcol⟩ | ⟨hw, hcol⟩
        · exact hold (heq.trans (congrArg some hcol))
        · exact (h.wrote u hmu change hc v hmv hne').1 hw (heq.trans (congrArg some hcol))
      · exact hold (hu' ▸ heq)

/-- A new account keeps them apart exactly if its own identifiers are clear. -/
theorem uncrossed_created {user : User} (hnew : user ∉ w.users) (hu : Uncrossed w.users) :
    Uncrossed (user :: w.users) ↔ Clear w (.created user) := by
  have hne : ∀ v ∈ w.users, v ≠ user := fun v hm heq ↦ hnew (heq ▸ hm)
  constructor
  · refine fun h ↦ ⟨fun u he v hm ↦ ?_, fun _ _ _ hc ↦ by cases hc⟩
    rw [← Event.created.inj he]
    exact ⟨h user (.head _) v (.tail _ hm) (hne v hm),
      h v (.tail _ hm) user (.head _) (hne v hm).symm⟩
  · intro h u hmu v hmv hvu
    rcases List.mem_cons.mp hmu with rfl | hmu' <;> rcases List.mem_cons.mp hmv with rfl | hmv'
    · exact absurd rfl hvu
    · exact (h.created _ rfl v hmv').1
    · exact (h.created _ rfl u hmu').2
    · exact hu u hmu' v hmv' hvu

/-- A statement that writes no user is clear. -/
theorem clear_silent {event : Event} (hs : event.silent = true) : Clear w event := by
  refine ⟨fun user he ↦ ?_, fun u _ change hc ↦ ?_⟩
  · rw [he] at hs
    cases hs
  · rw [event.changes_of_silent hs] at hc
    cases hc

/-- What a step means for the identifiers, by the event that it leaves. -/
theorem uncrossed_step (hr : Rows w) (hg : guard call c w) (he : Effect call w c w')
    (hu : Uncrossed w.users) :
    (Uncrossed w'.users ↔
      ∀ call' event, w'.history = (call', event) :: w.history → Clear w event) := by
  have hevent : ∀ event, w'.history = (call, event) :: w.history →
      (Clear w event ↔
        ∀ call' event', w'.history = (call', event') :: w.history → Clear w event') := by
    intro event hh
    refine ⟨fun hc call' event' hh' ↦ ?_, fun h ↦ h call event hh⟩
    have heq := (List.cons_eq_cons.mp (hh.symm.trans hh')).1
    exact (Prod.mk.inj heq).2 ▸ hc
  cases he with
  | quiet hu' hd hh =>
    rw [hu']
    refine ⟨fun _ call' event hh' ↦ ?_, fun _ ↦ hu⟩
    exact absurd (hh.symm.trans hh') (List.cons_ne_self _ _).symm
  | noted event hc hs hu' hd hh =>
    rw [hu', ← hevent event hh]
    exact ⟨fun _ ↦ clear_silent hc, fun _ ↦ hu⟩
  | created user hf hu' hq hd hh hc =>
    rw [hu', ← hevent _ hh]
    refine uncrossed_created (fun hm ↦ hf (hr.drawn user hm)) hu
  | wrote event hw hu' hq hd hh =>
    rw [hu', ← hevent event hh]
    refine uncrossed_wrote hr.unique (modest_of_writes hw hg) hu fun user heq ↦ ?_
    rw [heq] at hw
    cases hw

end Step

section Runs

variable {platform : Platform} {w₀ : World} {cfg cfg' : Config Call Command Reply World}

theorem unambiguous_step (hb : w₀.Blank) (hr : (machine platform).Run (Machine.idle w₀) cfg)
    (hs : (machine platform).Step cfg cfg') (hu : cfg.world.Unambiguous) :
    cfg'.world.Unambiguous ↔ Clearly cfg cfg' := by
  have hv := verified_reachable hb hr
  have hv' := verified_reachable hb (hr.tail hs)
  have hun := (unambiguous_iff hv.1.1.unique).mp hu
  rw [unambiguous_iff hv'.1.1.unique]
  rcases Logic.Leaves.step_cases (Q := fun _ _ ↦ True) hv hs with hw | ⟨call, c, o, hg, hw⟩
  · rw [hw]
    refine ⟨fun _ call event hh ↦ ?_, fun _ ↦ hun⟩
    rw [hw] at hh
    exact absurd hh (List.cons_ne_self _ _).symm
  · have he : Effect call cfg.world c cfg'.world := hw ▸ exec_effect
    exact uncrossed_step hv.1.1 hg he hun

/-- Login identifiers stay unambiguous as long as no statement writes a username
that is somebody else's email, or an email that is somebody else's username, and
no longer. -/
theorem identifiers_unambiguous (hb : w₀.Blank) (hu : w₀.Unambiguous)
    (hr : (machine platform).RunWhere Clearly (Machine.idle w₀) cfg) :
    cfg.world.Unambiguous ∧ ∀ cfg', (machine platform).Step cfg cfg' →
      (cfg'.world.Unambiguous ↔ Clearly cfg cfg') := by
  have hun : cfg.world.Unambiguous := by
    induction hr with
    | refl => exact hu
    | tail hrun hs ih => exact (unambiguous_step hb (Machine.RunWhere.run hrun) hs.1 ih).mpr hs.2
  exact ⟨hun, fun cfg' hs ↦ unambiguous_step hb hr.run hs hun⟩

end Runs

section Sample

/-- Two accounts; the second one is about to take the first one's name. -/
def sampleUsers : World :=
  ⟨[sampleUser "u1" "bob" .active, sampleUser "u2" "eve" .active], [], [], ["u1", "u2"], []⟩

theorem sampleUsers_blank : sampleUsers.Blank := by
  refine ⟨by simp [uniqueColumns, sampleUsers, sampleUser], ?_, rfl⟩
  have hall : ∀ user ∈ sampleUsers.users, user.guid ∈ sampleUsers.drawn := by decide
  exact hall

theorem sampleUsers_unambiguous : sampleUsers.Unambiguous := by
  refine (unambiguous_iff sampleUsers_blank.unique).mpr ?_
  have hall : ∀ v ∈ sampleUsers.users, v.email = none := by decide
  intro u _ v hv _ he
  rw [hall v hv] at he
  cases he

def sampleTakeover : Call := ⟨0, .updateCurrentUser "u2" ⟨none, some "bob", none⟩⟩

/-- A user may take another user's name as an email. -/
theorem identifier_taken : ∃ w₀ cfg, w₀.Blank ∧ w₀.Unambiguous ∧
    (machine samplePlatform).Run (Machine.idle w₀) cfg ∧ ¬cfg.world.Unambiguous := by
  refine ⟨sampleUsers, sampleSchedule [(sampleTakeover, 3)] sampleUsers, sampleUsers_blank,
    sampleUsers_unambiguous, sampleSchedule_run _ _, fun hu ↦ ?_⟩
  have hbob : sampleUser "u1" "bob" .active ∈
      (sampleSchedule [(sampleTakeover, 3)] sampleUsers).world.users := by decide +kernel
  have heve : { sampleUser "u2" "eve" .active with email := some "bob" } ∈
      (sampleSchedule [(sampleTakeover, 3)] sampleUsers).world.users := by decide +kernel
  have hguid : "u1" = "u2" := congrArg User.guid (hu "bob" _ hbob _ heve rfl rfl)
  revert hguid
  decide

/-- The statement, if there is one, writes no identifier that crosses another. -/
def plainly (w w' : World) : Bool :=
  w'.history = w.history || match w'.history with
    | (_, .created user) :: _ => w.users.all fun v ↦
      v.email ≠ some user.username && user.email ≠ some v.username
    | (_, event) :: _ => w.users.all fun u ↦ (changeOf event.changes u.guid).all fun change ↦
      w.users.all fun v ↦ v = u || (v.email ≠ some change.saved.username &&
        change.saved.email ≠ some v.username)
    | [] => true

theorem clearly_of_plainly (cfg cfg' : Config Call Command Reply World)
    (h : plainly cfg.world cfg'.world = true) : Clearly cfg cfg' := by
  intro call event hh
  rw [plainly, hh, decide_eq_false (List.cons_ne_self _ _), Bool.false_or] at h
  constructor
  · intro user he v hm
    rw [he] at h
    simpa using List.all_eq_true.mp h v hm
  · intro u hmu change hc v hmv hvu
    have hall : (cfg.world.users.all fun u ↦ (changeOf event.changes u.guid).all fun change ↦
        cfg.world.users.all fun v ↦ v = u || (v.email ≠ some change.saved.username &&
          change.saved.email ≠ some v.username)) = true := by
      cases event with
      | created => cases hc
      | _ => exact h
    have hu := List.all_eq_true.mp hall u hmu
    rw [hc] at hu
    have hv := List.all_eq_true.mp hu v hmv
    rw [decide_eq_false hvu, Bool.false_or, Bool.and_eq_true] at hv
    exact ⟨fun _ ↦ of_decide_eq_true hv.1, fun _ ↦ of_decide_eq_true hv.2⟩

def sampleRename : Call := ⟨0, .updateCurrentUser "u2" ⟨none, some "eve@example.com", none⟩⟩

/-- An email that is nobody's name does no harm. -/
theorem sample_unambiguous :
    (sampleSchedule [(sampleRename, 3)] sampleUsers).world.Unambiguous :=
  (identifiers_unambiguous sampleUsers_blank sampleUsers_unambiguous
    (Machine.schedule_runWhere clearly_of_plainly (fun _ ↦ by simp [plainly]) sampleFresh_admits _
      (by decide +kernel))).1

end Sample

end RustdeskConsole.Accounts
