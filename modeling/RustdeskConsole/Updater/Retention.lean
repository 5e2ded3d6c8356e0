import RustdeskConsole.Updater.Persistence

namespace RustdeskConsole.Updater.Persistence

open Effects Function Posix.Durability Serialization

variable {calls : ℕ → Write} {base : Base} {w w' : World} {id other i : ℕ} {path : FilePath}

/-- A temporary file that a write has opened and not renamed yet. -/
structure Draft (base : Base) (id : ℕ) (i : ℕ) (w : World) : Prop where
  owner : w.owner i = some id
  known : i < w.cache.next
  hidden : ∀ path : FilePath, path.Target →
    ¬Follows.Holds Prod.snd (base path) (w.register path) i

/-- The draft holds what it is to hold, and would still after a loss of power. -/
structure Ready (calls : ℕ → Write) (base : Base) (id : ℕ) (i : ℕ) (w : World) : Prop
    extends Draft base id i w where
  entry : w.cache.entry (calls id).staged = some i
  firm : w.cache.firm i = true
  content : w.cache.content i = contents (calls id).value

/-- What a version of a file holds. -/
abbrev content (calls : ℕ → Write) (version : Version) : List UInt8 :=
  contents (calls version.1).value

/-- Every file follows its register, and what was answered for is sure. -/
structure Sound (calls : ℕ → Write) (base : Base) (w : World) : Prop where
  follows : ∀ path : FilePath, path.Target →
    Follows w.cache path Prod.snd (content calls) (base path) (w.register path)
  own : ∀ path, ∀ version ∈ (w.register path).log, (calls version.1).path = path
  answered : ∀ id ∈ w.answered, ∃ i, (id, i) ∈ (w.register (calls id).path).sure

def guard (calls : ℕ → Write) (base : Base) (id : ℕ) (c : Command) (w : World) : Prop :=
  match c with
  | .openNew path _ => path = (calls id).staged
  | .writeFile handle _ | .sync handle => Draft base id handle w
  | .rename source target => source = (calls id).staged ∧ target = (calls id).path ∧ target.Target ∧
    ∃ i, Ready calls base id i w
  | .respond true => ∃ i, (id, i) ∈ (w.register (calls id).path).sure
  | _ => True

/-- What a guarded command of a write does. -/
inductive Change (calls : ℕ → Write) (base : Base) (id : ℕ) (w : World) : World → Prop
  | none : Change calls base id w w
  | created : w.cache.entry (calls id).staged = .none → Change calls base id w { w with
      cache := w.cache.create (calls id).staged []
      owner := update w.owner w.cache.next (some id) }
  | written (i : ℕ) (content : List UInt8) : Draft base id i w →
      Change calls base id w { w with cache := w.cache.write i content }
  | synced (i : ℕ) : Draft base id i w → Change calls base id w { w with cache := w.cache.sync i }
  | renamed (i : ℕ) : (calls id).path.Target → Ready calls base id i w →
      Change calls base id w (w.publish id (calls id).staged (calls id).path i)
  | settled (directory : Text) : Change calls base id w (w.settle directory)
  | answered (i : ℕ) : (id, i) ∈ (w.register (calls id).path).sure →
      Change calls base id w { w with answered := id :: w.answered }

theorem change_reply {o : Choice} (h : Change calls base id w w') :
    Change calls base id w (w.reply o w').1 := by
  rw [World.reply]
  split
  · exact .none
  · exact h

theorem exec_change {c : Command} {o : Choice} (hg : guard calls base id c w) :
    Change calls base id w (exec id c o w).1 := by
  cases c with
  | mkdir => exact change_reply .none
  | openNew path mode =>
    rw [exec]
    split
    · exact .none
    · next hfree =>
      rw [Bool.or_eq_true, not_or, Option.not_isSome_iff_eq_none] at hfree
      obtain rfl : path = (calls id).staged := hg
      exact .created hfree.2
  | chmod => exact change_reply .none
  | writeFile handle content =>
    rw [exec]
    split
    · exact .written handle o.left hg
    · exact .written handle content hg
  | sync handle => exact change_reply (.synced handle hg)
  | close => exact change_reply .none
  | rename source target =>
    obtain ⟨rfl, rfl, htarget, i, hready⟩ := hg
    rw [exec, hready.entry]
    exact change_reply (.renamed i htarget hready)
  | openDirectory => exact change_reply .none
  | syncDirectory directory => exact change_reply (.settled directory)
  | closeDirectory => exact change_reply .none
  | respond written =>
    cases written with
    | true =>
      obtain ⟨i, hi⟩ := hg
      exact .answered i hi
    | false => exact .none

theorem target_ne_staged (hp : path.Target) : path ≠ (calls id).staged :=
  fun heq ↦ not_target_temporary (heq ▸ hp)

section Updates

variable {source target : FilePath} {directory : Text} {version : Version}

theorem log_publish : version ∈ ((w.publish id source target i).register path).log ↔
    version ∈ (w.register path).log ∨ (path = target ∧ version = (id, i)) := by
  rw [World.publish]
  dsimp only
  split
  · next heq =>
    rw [Register.publish, List.mem_cons, or_comm]
    simp [heq]
  · next hne => simp [hne]

theorem sure_publish :
    ((w.publish id source target i).register path).sure = (w.register path).sure := by
  rw [World.publish]
  dsimp only
  split <;> rfl

theorem log_settle : ((w.settle directory).register path).log = (w.register path).log := by
  rw [World.settle]
  dsimp only
  split <;> rfl

theorem sure_settle (hv : version ∈ (w.register path).sure) :
    version ∈ ((w.settle directory).register path).sure := by
  rw [World.settle]
  dsimp only
  split
  · exact (w.register path).suffix.subset hv
  · exact hv

theorem holds_settle : Follows.Holds Prod.snd (base path) ((w.settle directory).register path) i ↔
    Follows.Holds Prod.snd (base path) (w.register path) i := by
  rw [Follows.Holds, Follows.Holds, log_settle]

theorem holds_publish {j : ℕ}
    (hh : Follows.Holds Prod.snd (base path)
      ((w.publish id source target i).register path) j) :
    Follows.Holds Prod.snd (base path) (w.register path) j ∨ j = i := by
  rcases hh with hm | hb
  · obtain ⟨version, hv, rfl⟩ := List.mem_map.mp hm
    rcases log_publish.mp hv with hv | ⟨-, rfl⟩
    · exact .inl (.inl (List.mem_map_of_mem hv))
    · exact .inr rfl
  · exact .inl (.inr hb)

end Updates

/-- Whatever a write does, every file follows its register. -/
theorem Change.sound (hc : Change calls base id w w') (hs : Sound calls base w) :
    Sound calls base w' := by
  cases hc with
  | none => exact hs
  | created hfree => exact ⟨fun path hp ↦ (hs.follows path hp).create (target_ne_staged hp),
      hs.own, hs.answered⟩
  | written i content hd => exact ⟨fun path hp ↦ (hs.follows path hp).write (hd.hidden path hp),
      hs.own, hs.answered⟩
  | synced i hd => exact ⟨fun path hp ↦ (hs.follows path hp).sync (hd.hidden path hp),
      hs.own, hs.answered⟩
  | renamed i htarget hready =>
    refine ⟨fun path hp ↦ ?_, fun path version hv ↦ ?_, fun caller hm ↦ ?_⟩
    · rw [World.publish]
      dsimp only
      split
      · next heq =>
        subst heq
        exact (hs.follows _ hp).rename (target_ne_staged hp) hready.entry hready.firm
          hready.content hready.known (hready.hidden _ hp)
      · next hne => exact (hs.follows path hp).rename_of_ne (target_ne_staged hp) hne
    · rcases log_publish.mp hv with hv | ⟨rfl, rfl⟩
      · exact hs.own path version hv
      · rfl
    · obtain ⟨j, hj⟩ := hs.answered caller hm
      refine ⟨j, ?_⟩
      rwa [sure_publish]
  | settled directory =>
    refine ⟨fun path hp ↦ ?_, fun path version hv ↦ hs.own path version (log_settle ▸ hv),
      fun caller hm ↦ ?_⟩
    · have h := @Follows.syncNames _ _ _ _ _ _ _ _ _ (fun path ↦ path.directory = directory)
        (hs.follows path hp)
      simp only [decide_eq_true_eq] at h
      exact h
    · obtain ⟨j, hj⟩ := hs.answered caller hm
      exact ⟨j, sure_settle hj⟩
  | answered i hi =>
    refine ⟨hs.follows, hs.own, fun caller hm ↦ ?_⟩
    rcases List.mem_cons.mp hm with rfl | hm
    · exact ⟨i, hi⟩
    · exact hs.answered caller hm

/-- What the other writes leave alone: what one is at work on, and what is in
place. -/
structure Others (calls : ℕ → Write) (base : Base) (id : ℕ) (w w' : World) : Prop where
  draft : ∀ i, Draft base id i w → Draft base id i w'
  file : ∀ i, Draft base id i w →
    w'.cache.firm i = w.cache.firm i ∧ w'.cache.content i = w.cache.content i
  entry : ∀ i, Draft base id i w → w.cache.entry (calls id).staged = some i →
    w'.cache.entry (calls id).staged = some i
  log : ∀ path, ∀ version ∈ (w.register path).log, version ∈ (w'.register path).log
  sure : ∀ path, ∀ version ∈ (w.register path).sure, version ∈ (w'.register path).sure

theorem Others.refl : Others calls base id w w :=
  ⟨fun _ h ↦ h, fun _ _ ↦ ⟨rfl, rfl⟩, fun _ _ h ↦ h, fun _ _ h ↦ h, fun _ _ h ↦ h⟩

theorem Others.trans {w'' : World} (ho : Others calls base id w w')
    (ho' : Others calls base id w' w'') :
    Others calls base id w w'' where
  draft i hd := ho'.draft i (ho.draft i hd)
  file i hd := by
    obtain ⟨hfirm, hcontent⟩ := ho.file i hd
    obtain ⟨hfirm', hcontent'⟩ := ho'.file i (ho.draft i hd)
    exact ⟨hfirm'.trans hfirm, hcontent'.trans hcontent⟩
  entry i hd he := ho'.entry i (ho.draft i hd) (ho.entry i hd he)
  log path version hv := ho'.log path version (ho.log path version hv)
  sure path version hv := ho'.sure path version (ho.sure path version hv)

theorem Others.ready (ho : Others calls base id w w') (hr : Ready calls base id i w) :
    Ready calls base id i w' where
  toDraft := ho.draft i hr.toDraft
  entry := ho.entry i hr.toDraft hr.entry
  firm := (ho.file i hr.toDraft).1.trans hr.firm
  content := (ho.file i hr.toDraft).2.trans hr.content

theorem Draft.ne {j : ℕ} (hd : Draft base id i w) (hd' : Draft base other j w)
    (hne : other ≠ id) : i ≠ j := by
  rintro rfl
  exact hne (Option.some.inj (hd'.owner.symm.trans hd.owner))

theorem Change.others (hc : Change calls base other w w') (hne : other ≠ id) :
    Others calls base id w w' := by
  cases hc with
  | none => exact .refl
  | created hfree =>
    have hold : ∀ i, Draft base id i w → i ≠ w.cache.next := fun i hd ↦ Nat.ne_of_lt hd.known
    refine ⟨fun i hd ↦ ⟨?_, Nat.lt_succ_of_lt hd.known, hd.hidden⟩, fun i hd ↦ ?_,
      fun i hd he ↦ ?_, fun _ _ h ↦ h, fun _ _ h ↦ h⟩
    · exact (update_of_ne (hold i hd) ..).trans hd.owner
    · exact ⟨update_of_ne (hold i hd) .., update_of_ne (hold i hd) ..⟩
    · refine (update_of_ne (fun heq ↦ ?_) ..).trans he
      rw [heq, hfree] at he
      cases he
  | written j content hd' =>
    refine ⟨fun i hd ↦ ⟨hd.owner, hd.known, hd.hidden⟩, fun i hd ↦ ?_, fun _ _ h ↦ h, fun _ _ h ↦ h,
      fun _ _ h ↦ h⟩
    exact ⟨update_of_ne (hd.ne hd' hne) .., update_of_ne (hd.ne hd' hne) ..⟩
  | synced j hd' =>
    refine ⟨fun i hd ↦ ⟨hd.owner, hd.known, hd.hidden⟩, fun i hd ↦ ?_, fun _ _ h ↦ h, fun _ _ h ↦ h,
      fun _ _ h ↦ h⟩
    exact ⟨update_of_ne (hd.ne hd' hne) .., rfl⟩
  | renamed j htarget hready =>
    refine ⟨fun i hd ↦ ⟨hd.owner, hd.known, fun path hp hh ↦ ?_⟩, fun _ _ ↦ ⟨rfl, rfl⟩,
      fun i hd he ↦ ?_, fun path version hv ↦ log_publish.mpr (.inl hv), fun path version hv ↦ ?_⟩
    · rcases holds_publish hh with hh | rfl
      · exact hd.hidden path hp hh
      · exact hd.ne hready.toDraft hne rfl
    · have hs : (calls id).staged ≠ (calls other).staged := by
        intro heq
        rw [heq, hready.entry] at he
        exact hd.ne hready.toDraft hne (Option.some.inj he).symm
      exact (update_of_ne hs ..).trans ((update_of_ne (target_ne_staged htarget).symm ..).trans he)
    · rwa [sure_publish]
  | settled directory =>
    exact ⟨fun i hd ↦ ⟨hd.owner, hd.known, fun path hp hh ↦ hd.hidden path hp (holds_settle.mp hh)⟩,
      fun _ _ ↦ ⟨rfl, rfl⟩, fun _ _ h ↦ h, fun path version hv ↦ by rwa [log_settle],
      fun path version hv ↦ sure_settle hv⟩
  | answered j hj => exact ⟨fun i hd ↦ ⟨hd.owner, hd.known, hd.hidden⟩, fun _ _ ↦ ⟨rfl, rfl⟩,
      fun _ _ h ↦ h, fun _ _ h ↦ h, fun _ _ h ↦ h⟩

/-- A write puts only its own synchronized file in place, and answers for it when
that is sure. -/
def logic (calls : ℕ → Write) (base : Base) : Logic (machine calls) where
  inv := Sound calls base
  guard := guard calls base
  rely := Others calls base
  rely_refl _ _ := .refl
  rely_trans _ := .trans
  keeps _ _ hs hg := (exec_change hg).sound hs
  interferes _ _ hne _ hg := (exec_change hg).others hne.symm

section Specs

variable {α : Type} {Q : α → World → Prop} {P : World → Prop}

/-- The part of a write ends in `Q`, if no call of it fails. -/
abbrev Does (calls : ℕ → Write) (base : Base) (id : ℕ) (p : Handler α) (Q : α → World → Prop)
    (w : World) : Prop :=
  (logic calls base).Ensures id p (fun a _ ↦ Q a) (fun _ _ _ ↦ True) () w

/-- A call of the system keeps what the other writes leave alone. -/
theorem Does.attempt {c : Command} {h : Reply c = Except Failure α}
    (hg : ∀ w', Others calls base id w w' → Sound calls base w' → guard calls base id c w' ∧
      ∀ o w'' r, exec id c o w' = (w'', some r) → ∀ a, h ▸ r = Except.ok a → Q a w'') :
    Does calls base id (attempt c h) Q w := by
  refine .invoke fun w₁ ho hs ↦ ?_
  obtain ⟨hguard, hdone⟩ := hg w₁ ho hs
  refine ⟨hguard, fun o w₂ r hexec _ ↦ ?_⟩
  cases hr : (h ▸ r : Except Failure α) with
  | ok a => exact hdone o w₂ r hexec a hr
  | error failure => trivial

/-- What no other write takes back. -/
def Lasts (calls : ℕ → Write) (base : Base) (id : ℕ) (P : World → Prop) : Prop :=
  ∀ w w', Others calls base id w w' → P w → P w'

/-- A call that may fail and does nothing else to the files. -/
theorem Does.still (c : Command) {h : Reply c = Except Failure Unit} (hP : Lasts calls base id P)
    (hg : ∀ w, guard calls base id c w) (hexec : ∀ o w, (exec id c o w).1 = w) (hw : P w) :
    Does calls base id (Persistence.attempt c h) (fun _ ↦ P) w := by
  refine .attempt fun w₁ ho _ ↦ ⟨hg w₁, fun o w₂ r he _ _ ↦ ?_⟩
  have hstill : w₂ = w₁ := by rw [← hexec o w₁, he]
  rw [hstill]
  exact hP w w₁ ho hw

theorem Does.finallyDo {p : Handler α} {last : Handler Unit} (hp : Does calls base id p Q w)
    (hlast : ∀ P : World → Prop, Lasts calls base id P → ∀ w, P w →
      Does calls base id last (fun _ ↦ P) w)
    (hQ : ∀ a, Lasts calls base id (Q a)) : Does calls base id (finallyDo p last) Q w := by
  refine .bind (.mono (.tryCatch (Q := fun a _ ↦ Q a) (hp.mono (fun _ _ _ h ↦ h) fun _ _ w _ ↦ ?_))
    (fun a _ w hq ↦ ?_) fun _ _ _ h ↦ h)
  · exact .bind ((hlast (fun _ ↦ True) (fun _ _ _ h ↦ h) w trivial).mono
      (fun _ _ _ _ ↦ .throw trivial) fun _ _ _ h ↦ h)
  · exact .bind ((hlast (Q a) (hQ a) w hq).mono (fun _ _ _ h ↦ .pure h) fun _ _ _ h ↦ h)

/-- What `open` has given the write to work on. -/
structure Opened (calls : ℕ → Write) (base : Base) (id : ℕ) (i : ℕ) (w : World) : Prop
    extends Draft base id i w where
  entry : w.cache.entry (calls id).staged = some i

def Placed (calls : ℕ → Write) (id : ℕ) (w : World) : Prop :=
  ∃ i, (id, i) ∈ (w.register (calls id).path).log

def Sure (calls : ℕ → Write) (id : ℕ) (w : World) : Prop :=
  ∃ i, (id, i) ∈ (w.register (calls id).path).sure

theorem lasts_opened : Lasts calls base id (Opened calls base id i) :=
  fun _ _ ho h ↦ ⟨ho.draft i h.toDraft, ho.entry i h.toDraft h.entry⟩

theorem lasts_ready : Lasts calls base id (Ready calls base id i) := fun _ _ ho h ↦ ho.ready h

theorem lasts_placed : Lasts calls base id (Placed calls id) :=
  fun _ _ ho ⟨i, h⟩ ↦ ⟨i, ho.log _ _ h⟩

theorem lasts_sure : Lasts calls base id (Sure calls id) := fun _ _ ho ⟨i, h⟩ ↦ ⟨i, ho.sure _ _ h⟩

theorem opened_create (hs : Sound calls base w) : Opened calls base id w.cache.next { w with
    cache := w.cache.create (calls id).staged []
    owner := update w.owner w.cache.next (some id) } where
  owner := update_self ..
  known := Nat.lt_succ_self _
  hidden path hp hh := Nat.lt_irrefl _ ((hs.follows path hp).lt_next hh)
  entry := update_self ..

theorem openNew_spec :
    Does calls base id (attempt (.openNew (calls id).staged (calls id).mode) rfl)
      (Opened calls base id) w := by
  refine .attempt fun w₁ _ hs ↦ ⟨rfl, fun o w₂ r he a hr ↦ ?_⟩
  rw [exec] at he
  split at he
  · cases he
    cases hr
  · cases he
    cases hr
    exact opened_create hs

theorem writeFile_spec (hw : Opened calls base id i w) :
    Does calls base id (attempt (.writeFile i (contents (calls id).value)) rfl) (fun _ w ↦
      Opened calls base id i w ∧ w.cache.content i = contents (calls id).value) w := by
  refine .attempt fun w₁ ho hs ↦ ?_
  have hopen := lasts_opened w w₁ ho hw
  refine ⟨hopen.toDraft, fun o w₂ r he a hr ↦ ?_⟩
  rw [exec] at he
  split at he
  · cases he
    cases hr
  · cases he
    exact ⟨⟨⟨hopen.owner, hopen.known, hopen.hidden⟩, hopen.entry⟩, update_self ..⟩

theorem reply_eq_ok {o : Choice} {w₂ : World} {u : Unit}
    (he : w.reply o w' = (w₂, some (.ok u))) : w₂ = w' := by
  rw [World.reply] at he
  split at he
  · cases he
  · cases he
    rfl

theorem reply_still {o : Choice} : (w.reply o w).1 = w := by
  rw [World.reply]
  split <;> rfl

theorem sync_spec (hw : Opened calls base id i w)
    (hc : w.cache.content i = contents (calls id).value) :
    Does calls base id (attempt (.sync i) rfl) (fun _ ↦ Ready calls base id i) w := by
  refine .attempt fun w₁ ho hs ↦ ?_
  have hopen := lasts_opened w w₁ ho hw
  refine ⟨hopen.toDraft, fun o w₂ r he a hr ↦ ?_⟩
  obtain rfl : r = .ok a := hr
  obtain rfl := reply_eq_ok he
  exact ⟨⟨hopen.owner, hopen.known, hopen.hidden⟩, hopen.entry, update_self ..,
    (ho.file i hw.toDraft).2.trans hc⟩

theorem rename_spec (hp : (calls id).path.Target) (hw : Ready calls base id i w) :
    Does calls base id (attempt (.rename (calls id).staged (calls id).path) rfl)
      (fun _ ↦ Placed calls id) w := by
  refine .attempt fun w₁ ho hs ↦ ?_
  have hready := ho.ready hw
  refine ⟨⟨rfl, rfl, hp, i, hready⟩, fun o w₂ r he a hr ↦ ?_⟩
  obtain rfl : r = .ok a := hr
  rw [exec, hready.entry] at he
  obtain rfl := reply_eq_ok he
  exact ⟨i, log_publish.mpr (.inr ⟨rfl, rfl⟩)⟩

theorem syncNames_spec (hw : Placed calls id w) :
    Does calls base id (attempt (.syncDirectory (calls id).path.directory) rfl)
      (fun _ ↦ Sure calls id) w := by
  refine .attempt fun w₁ ho hs ↦ ⟨trivial, fun o w₂ r he a hr ↦ ?_⟩
  obtain rfl : r = .ok a := hr
  obtain rfl := reply_eq_ok he
  obtain ⟨i, hi⟩ := lasts_placed w w₁ ho hw
  refine ⟨i, ?_⟩
  rw [World.settle]
  simp only [if_true]
  exact hi

theorem syncDirectory_spec (hw : Placed calls id w) :
    Does calls base id (syncDirectory (calls id).path.directory) (fun _ ↦ Sure calls id) w := by
  refine (Does.still (.openDirectory _) lasts_placed (fun _ ↦ trivial) (fun _ _ ↦ reply_still)
    hw).andThen fun _ _ w hw ↦ ?_
  exact Does.finallyDo (syncNames_spec hw)
    (fun _ hP _ hw ↦
      Does.still (.closeDirectory _) hP (fun _ ↦ trivial) (fun _ _ ↦ reply_still) hw)
    fun _ ↦ lasts_sure

/-- What is written to the temporary file. -/
theorem write_spec (hw : Opened calls base id i w) :
    Does calls base id
      (do
        attempt (.chmod i (calls id).mode) rfl
        attempt (.writeFile i (contents (calls id).value)) rfl
        attempt (.sync i) rfl) (fun _ ↦ Ready calls base id i) w := by
  refine (Does.still (.chmod ..) lasts_opened (fun _ ↦ trivial) (fun _ _ ↦ reply_still) hw).andThen
    fun _ _ w hw ↦ ?_
  exact (writeFile_spec hw).andThen fun _ _ w hw ↦ sync_spec hw.1 hw.2

/-- A write that succeeds has made a version that no loss of power takes back. -/
theorem atomicWrite_spec (hp : (calls id).path.Target) :
    Does calls base id
      (atomicWrite (calls id).path (calls id).value (calls id).mode (calls id).uuid)
      (fun _ ↦ Sure calls id) w := by
  have hmkdir : Does calls base id (attempt (.mkdir (calls id).path.directory 0o700) rfl)
      (fun _ _ ↦ True) w :=
    Does.still (P := fun _ ↦ True) (.mkdir ..) (fun _ _ _ h ↦ h) (fun _ ↦ trivial)
      (fun _ _ ↦ reply_still) trivial
  refine hmkdir.andThen fun _ _ w _ ↦ ?_
  refine openNew_spec.andThen fun i _ w hopen ↦ ?_
  have hclose : ∀ P : World → Prop, Lasts calls base id P → ∀ w, P w →
      Does calls base id (attempt (.close i) rfl) (fun _ ↦ P) w :=
    fun P hP w hw ↦ Does.still (.close i) hP (fun _ ↦ trivial) (fun _ _ ↦ reply_still) hw
  refine (Does.finallyDo (write_spec hopen) hclose fun _ ↦ lasts_ready).andThen
    fun _ _ w hready ↦ ?_
  exact (rename_spec hp hready).andThen fun _ _ w hw ↦ syncDirectory_spec hw

theorem admissible : (logic calls base).Admissible := by
  rintro id w p - ⟨hp, rfl⟩
  have hserve : (logic calls base).Ensures id (serve (calls id)) (fun _ _ _ ↦ True)
      (fun _ _ _ ↦ True) () w := by
    refine .tryCatch (.bind ((atomicWrite_spec hp).mono (fun _ _ w hsure ↦ ?_) fun _ _ w _ ↦ ?_))
    · exact .invoke fun w₁ ho _ ↦ ⟨lasts_sure w w₁ ho hsure, fun _ _ _ _ _ ↦ trivial⟩
    · exact .invoke fun w₁ _ _ ↦ ⟨trivial, fun _ _ _ _ _ ↦ trivial⟩
  exact Logic.Wp.bind (Logic.Wp.mono hserve fun _ _ _ ↦ trivial)

end Specs

section Runs

/-- Any number of writes at once, and losses of power at any time. -/
inductive Run (calls : ℕ → Write) :
    Config ℕ Command Reply World → Config ℕ Command Reply World → Prop
  | refl {cfg : Config ℕ Command Reply World} : Run calls cfg cfg
  | step {cfg cfg' cfg'' : Config ℕ Command Reply World} :
      Run calls cfg cfg' → (machine calls).Step cfg' cfg'' → Run calls cfg cfg''
  | loss {cfg cfg' : Config ℕ Command Reply World} (loss : Loss FilePath (List UInt8)) :
      Run calls cfg cfg' → Run calls cfg (Machine.idle (cfg'.world.lose loss))

variable {cfg cfg' cfg'' : Config ℕ Command Reply World} {loss : Loss FilePath (List UInt8)}

theorem Run.machine (hr : Run calls cfg cfg') (hm : (machine calls).Run cfg' cfg'') :
    Run calls cfg cfg'' := by
  induction hm with
  | refl => exact hr
  | tail _ hs ih => exact ih.step hs

theorem loses_lose : (w.register path).Loses ((w.lose loss).register path) :=
  Register.loses_cut ..

theorem Sound.lose (hs : Sound calls base w) (loss : Loss FilePath (List UInt8)) :
    Sound calls base (w.lose loss) where
  follows path hp := (hs.follows path hp).lose loss
  own path version hv := hs.own path version (loses_lose.log.subset hv)
  answered id hm := by
    obtain ⟨i, hi⟩ := hs.answered id hm
    refine ⟨i, ?_⟩
    rwa [loses_lose.sure]

/-- What a file shows was put there by a write to it, and newer ones come by
`rename` only. -/
theorem Change.moves (hc : Change calls base id w w') :
    Register.Evolves (fun version : Version ↦ (calls version.1).path = path)
      (w.register path) (w'.register path) := by
  cases hc with
  | none => exact .refl
  | created => exact .refl
  | written => exact .refl
  | synced => exact .refl
  | renamed i =>
    rw [World.publish]
    dsimp only
    split
    · next heq => exact .single (.publish heq.symm)
    · exact .refl
  | settled directory =>
    rw [World.settle]
    dsimp only
    split
    · exact .single .settle
    · exact .refl
  | answered => exact .refl

theorem Run.verified (hr : Run calls cfg cfg') (h : (logic calls base).Verified cfg) :
    (logic calls base).Verified cfg' := by
  induction hr with
  | refl => exact h
  | step _ hs ih => exact Logic.Verified.run admissible ih (.single hs)
  | loss loss _ ih => exact Logic.verified_idle (ih.1.lose loss)

theorem Run.evolves (hr : Run calls cfg cfg') (h : (logic calls base).Verified cfg) :
    Register.Evolves (fun version : Version ↦ (calls version.1).path = path)
      (cfg.world.register path) (cfg'.world.register path) := by
  induction hr with
  | refl => exact .refl
  | step hr hs ih =>
    refine ih.trans ?_
    rcases Logic.Leaves.step_cases (hr.verified h) hs with heq | ⟨id, c, o, hg, heq⟩
    · rw [heq]
    · rw [heq]
      exact (exec_change hg).moves
  | loss loss _ ih => exact ih.tail (.lose loses_lose)

/-- At first all files are on the disk, and nothing was written. -/
structure Starts (base : Base) (w : World) : Prop where
  entry : ∀ path, w.cache.entry path = (base path).map Prod.fst
  older : ∀ path, w.cache.older path = []
  file : ∀ path i content, base path = some (i, content) →
    w.cache.firm i = true ∧ w.cache.content i = content ∧ i < w.cache.next
  register : ∀ path, w.register path = .empty
  answered : w.answered = []

theorem Starts.verified (hw : Starts base w) : (logic calls base).Verified (Machine.idle w) := by
  refine Logic.verified_idle ⟨fun path _ ↦ ?_, fun path version hv ↦ ?_, fun id hm ↦ ?_⟩
  · rw [hw.register]
    refine ⟨hw.entry path, fun e he ↦ ?_, List.nodup_nil, nofun, nofun, fun i a hbase ↦ ?_⟩
    · rw [hw.older] at he
      cases he
    · obtain ⟨hfirm, hcontent, hlt⟩ := hw.file path i a hbase
      exact ⟨hfirm, hcontent, hlt, List.not_mem_nil⟩
  · rw [hw.register] at hv
    cases hv
  · rw [hw.answered] at hm
    cases hm

/-- What is read of a file when these versions of it are in place. -/
def shownJson (calls : ℕ → Write) (base : Base) (path : FilePath) (log : List Version) :
    Option Value :=
  match log with
  | version :: _ => some (calls version.1).value
  | [] => (base path).bind fun file ↦ readJson file.2

theorem Sound.readJson (hs : Sound calls base w) (hp : path.Target)
    (hv : ∀ id, (calls id).value.WellFormed) :
    (w.cache.read path).bind readJson = shownJson calls base path (w.register path).log := by
  rw [(hs.follows path hp).read]
  rcases hlog : (w.register path).log with _ | ⟨version, log⟩
  · rw [shown_nil, shownJson, Option.bind_map]
    rfl
  · exact readJson_contents (hv version.1)

section Sample

def sampleCalls : ℕ → Write :=
  fun _ ↦ ⟨⟨"jobs".toList, "journal".toList⟩, .null, 0o600, "1".toList⟩

def blank : World where
  cache := ⟨fun _ ↦ none, fun _ ↦ [], fun _ ↦ [], fun _ ↦ false, 0⟩
  register _ := .empty
  owner _ := none
  answered := []

/-- The first write has come to its end. -/
def written : Config ℕ Command Reply World :=
  let played := (machine sampleCalls).play 0 (List.replicate 12 ⟨false, []⟩)
    (handler (sampleCalls 0)) blank
  ⟨update (fun _ ↦ none) 0 played.1, played.2⟩

def sampleLoss : Loss FilePath (List UInt8) := ⟨fun _ ↦ none, fun _ ↦ []⟩

theorem blank_starts : Starts (fun _ ↦ none) blank :=
  ⟨fun _ ↦ rfl, fun _ ↦ rfl, fun _ _ _ h ↦ (Option.some_ne_none _ h.symm).elim, fun _ ↦ rfl, rfl⟩

theorem sample_target : (sampleCalls 0).path.Target := by
  unfold FilePath.Target
  decide

theorem written_run : Run sampleCalls (Machine.idle blank) written :=
  Run.refl.machine ((machine sampleCalls).start_run 0 _ rfl ⟨sample_target, rfl⟩)

end Sample

/-- The files are registers. Whatever the writes and the losses of power, a file
holds the whole of one version, a version comes into place when a write to it has
been synchronized, and only versions nobody was told of are taken back. -/
theorem files_refine_registers (hw : Starts base w) (hr : Run calls (Machine.idle w) cfg)
    (hr' : Run calls cfg cfg') (hp : path.Target) (hv : ∀ id, (calls id).value.WellFormed) :
    Register.Evolves (fun version : Version ↦ (calls version.1).path = path)
        (cfg.world.register path) (cfg'.world.register path) ∧
      (cfg'.world.cache.read path).bind readJson =
        shownJson calls base path (cfg'.world.register path).log :=
  ⟨hr'.evolves (hr.verified hw.verified),
    (hr'.verified (hr.verified hw.verified)).1.readJson hp hv⟩

theorem written_refines : Register.Evolves
      (fun version : Version ↦ (sampleCalls version.1).path = (sampleCalls 0).path)
      (written.world.register (sampleCalls 0).path)
      ((written.world.lose sampleLoss).register (sampleCalls 0).path) ∧
    ((written.world.lose sampleLoss).cache.read (sampleCalls 0).path).bind readJson =
      shownJson sampleCalls (fun _ ↦ none) (sampleCalls 0).path
        ((written.world.lose sampleLoss).register (sampleCalls 0).path).log :=
  files_refine_registers blank_starts written_run (.loss sampleLoss .refl) sample_target
    fun _ ↦ trivial

/-- What a write has succeeded in writing is read at any later time, power lost or
not, unless a newer version has come into its place. -/
theorem answered_kept (hw : Starts base w) (hr : Run calls (Machine.idle w) cfg)
    (hr' : Run calls cfg cfg') (hp : (calls id).path.Target) (hid : id ∈ cfg.world.answered)
    (hv : ∀ id, (calls id).value.WellFormed) :
    ∃ i newer older, (cfg'.world.register (calls id).path).log = newer ++ (id, i) :: older ∧
      (cfg'.world.cache.read (calls id).path).bind readJson =
        some (calls (((newer.map Prod.fst).head?).getD id)).value ∧
      ∀ version ∈ newer, (calls version.1).path = (calls id).path := by
  have hsound := (hr.verified hw.verified).1
  have hsound' := (hr'.verified (hr.verified hw.verified)).1
  obtain ⟨i, hi⟩ := hsound.answered id hid
  obtain ⟨newer, older, hlog, -⟩ := (hr'.evolves (hr.verified hw.verified)).log hi
  refine ⟨i, newer, older, hlog, ?_, fun version hm ↦ ?_⟩
  · rw [hsound'.readJson hp hv, hlog]
    cases newer <;> rfl
  · exact hsound'.own _ version (hlog ▸ List.mem_append_left _ hm)

theorem written_kept : ∃ i newer older,
    ((written.world.lose sampleLoss).register (sampleCalls 0).path).log =
        newer ++ (0, i) :: older ∧
      ((written.world.lose sampleLoss).cache.read (sampleCalls 0).path).bind readJson =
        some (sampleCalls (((newer.map Prod.fst).head?).getD 0)).value ∧
      ∀ version ∈ newer, (sampleCalls version.1).path = (sampleCalls 0).path :=
  answered_kept blank_starts written_run (.loss sampleLoss .refl) sample_target
    (by decide) fun _ ↦ trivial

end Runs

end RustdeskConsole.Updater.Persistence
