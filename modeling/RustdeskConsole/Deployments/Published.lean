import RustdeskConsole.Deployments.Linux

namespace RustdeskConsole.Deployments

open Effects Function LinuxDeployment
open Updater (Component)

variable {τ : Type} {b : Bundles τ} {calls : ℕ → Request} {w w' : World τ} {id other : ℕ}
  {release : Release} {staging : Staging}

/-- The whole of a release: its metadata names its version, its executable is there,
and it came out of the archive whose digest is recorded in it. -/
structure Complete (b : Bundles τ) (release : Release) (directory : Directory τ) : Prop where
  metadata : ∃ sourceCommit, b.metadata directory.tree = .holds (release.2, sourceCommit)
  executable : b.executable release.1 directory.tree = some true
  archive : ∃ archive, b.extractArchive archive = some directory.tree ∧
    directory.integrity = .holds (b.digest archive)

def Published (release : Release) (w : World τ) : Prop := ∃ directory,
  w.releases release = some directory

structure Leads (link : Link) (release : Release) (w : World τ) : Prop where
  component : release.1 = link.component
  published : Published release w

/-- What a call of `prepare` that has returned has seen to. -/
def Prepared (w : World τ) : Request → Prop
  | .prepare installation plan =>
    (∀ component, Published (component, installation.current component) w) ∧
      ∀ change ∈ plan.components.filter Change.update,
        Published (change.component, (plan.targets change.component).version) w
  | _ => True

structure Sound (b : Bundles τ) (calls : ℕ → Request) (w : World τ) : Prop where
  complete : ∀ release directory, w.releases release = some directory →
    Complete b release directory
  link : ∀ link release, w.links link = some release → Leads link release w
  temporary : ∀ link uuid release, w.temporary (link, uuid) = some release → Leads link release w
  prepared : ∀ id ∈ w.returned, Prepared w (calls id)

def Owns (id : ℕ) (staging : Staging) (directory : Directory τ) (w : World τ) : Prop :=
  w.stagings staging = some (id, directory)

def guard (b : Bundles τ) (calls : ℕ → Request) (id : ℕ) (c : Command) (w : World τ) : Prop :=
  match c with
  | .extractArchive _ staging | .writeIntegrity staging _ | .remove staging =>
    ∃ directory, Owns id staging directory w
  | .publish staging => ∃ directory, Owns id staging directory w ∧ Complete b staging.1 directory
  | .symlink release link _ => Leads link release w
  | .return => Prepared w (calls id)
  | _ => True

/-- What a guarded command of a call does. -/
inductive Move (b : Bundles τ) (calls : ℕ → Request) (id : ℕ) (w : World τ) : World τ → Prop
  | none : Move b calls id w w
  | staged (staging : Staging) (directory : Directory τ) :
      (∀ owner directory, Owns owner staging directory w → owner = id) →
      Move b calls id w { w with
        stagings := update w.stagings staging (some (id, directory)) }
  | removed (staging : Staging) (directory : Directory τ) : Owns id staging directory w →
      Move b calls id w { w with stagings := update w.stagings staging none }
  | published (staging : Staging) (directory : Directory τ) : Owns id staging directory w →
      Complete b staging.1 directory → w.releases staging.1 = .none →
      Move b calls id w { w with
        releases := update w.releases staging.1 (some directory)
        stagings := update w.stagings staging none }
  | linked (release : Release) (link : Link) (uuid : String) : Leads link release w →
      Move b calls id w { w with
        temporary := update w.temporary (link, uuid) (some release) }
  | renamed (release : Release) (link : Link) (uuid : String) :
      w.temporary (link, uuid) = some release →
      Move b calls id w { w with
        links := update w.links link (some release)
        temporary := update w.temporary (link, uuid) none }
  | recorded (installation : Installation) :
      Move b calls id w { w with recorded := some installation }
  | returned : Prepared w (calls id) →
      Move b calls id w { w with returned := id :: w.returned }

theorem move_reply {o : Choice τ} (h : Move b calls id w w') :
    Move b calls id w (w.reply o w').1 := by
  rw [World.reply]
  split
  · exact .none
  · exact h

theorem owner_eq {owner : ℕ} {directory directory' : Directory τ}
    (h : Owns id staging directory w) (h' : Owns owner staging directory' w) : owner = id :=
  congrArg Prod.fst (Option.some.inj (h'.symm.trans h))

theorem exec_move {c : Command} {o : Choice τ} (hg : guard b calls id c w) :
    Move b calls id w (exec b id c o w).1 := by
  cases c with
  | realpath | access | readMetadata | readIntegrity | download | randomUUID | lstat => exact .none
  | systemctl | syncDirectory | verifyHelper => exact move_reply .none
  | mkdir staging =>
    rw [exec]
    split
    · exact .none
    · next hfree =>
      rw [Bool.or_eq_true, not_or, Option.not_isSome_iff_eq_none] at hfree
      exact .staged staging o.left fun owner directory hown ↦
        (Option.some_ne_none _ (hown.symm.trans hfree.2)).elim
  | extractArchive archive staging =>
    obtain ⟨directory, hown⟩ := hg
    have hmine : ∀ owner directory, Owns owner staging directory w → owner = id :=
      fun owner directory' hown' ↦ owner_eq hown hown'
    rw [exec]
    split
    · split
      · exact .staged _ _ hmine
      · exact .staged _ _ hmine
    · exact .staged _ _ hmine
  | writeIntegrity staging sha256 =>
    obtain ⟨directory, hown⟩ := hg
    have hmine : ∀ owner directory, Owns owner staging directory w → owner = id :=
      fun owner directory' hown' ↦ owner_eq hown hown'
    rw [exec, show w.stagings staging = some (id, directory) from hown]
    dsimp only
    split
    · exact .staged _ _ hmine
    · exact .staged _ _ hmine
  | publish staging =>
    obtain ⟨directory, hown, hcomplete⟩ := hg
    rw [exec, show w.stagings staging = some (id, directory) from hown]
    dsimp only
    split
    · exact .none
    · next hfree =>
      rw [Bool.or_eq_true, not_or, Option.not_isSome_iff_eq_none] at hfree
      exact .published staging directory hown hcomplete hfree.2
  | remove staging =>
    obtain ⟨directory, hown⟩ := hg
    exact move_reply (.removed staging directory hown)
  | symlink release link uuid =>
    rw [exec]
    split
    · exact .none
    · exact .linked release link uuid hg
  | rename link uuid =>
    rw [exec]
    split
    · exact .none
    · next release htemporary => exact move_reply (.renamed release link uuid htemporary)
  | writeInstallation installation => exact move_reply (.recorded installation)
  | «return» => exact .returned hg

/-- What no call takes back. -/
structure Grows (w w' : World τ) : Prop where
  releases : ∀ release directory, w.releases release = some directory →
    w'.releases release = some directory
  links : ∀ link, (w.links link).isSome → (w'.links link).isSome

theorem Grows.refl : Grows w w := ⟨fun _ _ h ↦ h, fun _ h ↦ h⟩

theorem Grows.trans {w'' : World τ} (h : Grows w w') (h' : Grows w' w'') : Grows w w'' :=
  ⟨fun release directory hr ↦ h'.releases release directory (h.releases release directory hr),
    fun link hl ↦ h'.links link (h.links link hl)⟩

theorem of_update {α β : Type} [DecidableEq α] {f : α → Option β} {a x : α} {v : Option β} {y : β}
    (h : update f a v x = some y) : (x = a ∧ v = some y) ∨ f x = some y := by
  rw [update_apply] at h
  split at h
  · next heq => exact .inl ⟨heq, h⟩
  · exact .inr h

theorem Move.grows (hm : Move b calls id w w') : Grows w w' := by
  cases hm with
  | none | staged | removed | linked | recorded | returned => exact ⟨fun _ _ h ↦ h, fun _ h ↦ h⟩
  | published staging directory hown hcomplete hfree =>
    refine ⟨fun release directory' hr ↦ ?_, fun _ h ↦ h⟩
    refine (update_of_ne (fun heq ↦ ?_) ..).trans hr
    rw [heq, hfree] at hr
    cases hr
  | renamed release link uuid htemporary =>
    refine ⟨fun _ _ h ↦ h, fun other hl ↦ ?_⟩
    change (update w.links link (some release) other).isSome
    rw [update_apply]
    split
    · rfl
    · exact hl

theorem Published.grows (h : Published release w) (hw : Grows w w') : Published release w' :=
  h.imp fun _ hr ↦ hw.releases _ _ hr

theorem Leads.grows {link : Link} (h : Leads link release w) (hw : Grows w w') :
    Leads link release w' := ⟨h.component, h.published.grows hw⟩

theorem Prepared.grows {request : Request} (h : Prepared w request) (hw : Grows w w') :
    Prepared w' request := by
  cases request with
  | prepare installation plan =>
    exact ⟨fun component ↦ (h.1 component).grows hw, fun change hm ↦ (h.2 change hm).grows hw⟩
  | switchApplications | updateHelper | restoreDeployment => trivial

/-- Whatever a call does, links lead to complete releases. -/
theorem Move.sound (hm : Move b calls id w w') (hs : Sound b calls w) : Sound b calls w' := by
  have hw := hm.grows
  have hlink : ∀ link release, w.links link = some release → Leads link release w' :=
    fun link release hl ↦ (hs.link link release hl).grows hw
  have htemporary : ∀ link uuid release, w.temporary (link, uuid) = some release →
      Leads link release w' :=
    fun link uuid release ht ↦ (hs.temporary link uuid release ht).grows hw
  have hprepared : ∀ id ∈ w.returned, Prepared w' (calls id) :=
    fun id hid ↦ (hs.prepared id hid).grows hw
  cases hm with
  | none => exact hs
  | staged | removed | recorded => exact ⟨hs.complete, hlink, htemporary, hprepared⟩
  | published staging directory hown hcomplete hfree =>
    refine ⟨fun release directory' hr ↦ ?_, hlink, htemporary, hprepared⟩
    rcases of_update hr with ⟨rfl, heq⟩ | hr
    · exact Option.some.inj heq ▸ hcomplete
    · exact hs.complete release directory' hr
  | linked release link uuid hleads =>
    refine ⟨hs.complete, hlink, fun other uuid' release' ht ↦ ?_, hprepared⟩
    rcases of_update ht with ⟨heq, hrelease⟩ | ht
    · obtain ⟨rfl, rfl⟩ := Prod.mk.inj heq
      exact Option.some.inj hrelease ▸ hleads.grows hw
    · exact htemporary other uuid' release' ht
  | renamed release link uuid ht =>
    refine ⟨hs.complete, fun other release' hl ↦ ?_, fun other uuid' release' ht' ↦ ?_, hprepared⟩
    · rcases of_update hl with ⟨rfl, hrelease⟩ | hl
      · exact Option.some.inj hrelease ▸ htemporary other uuid release ht
      · exact hlink other release' hl
    · rcases of_update ht' with ⟨-, hnone⟩ | ht'
      · cases hnone
      · exact htemporary other uuid' release' ht'
  | returned hdone =>
    refine ⟨hs.complete, hlink, htemporary, fun caller hc ↦ ?_⟩
    rcases List.mem_cons.mp hc with rfl | hc
    · exact hdone.grows hw
    · exact hprepared caller hc

/-- What the other calls leave alone. -/
structure Others (id : ℕ) (w w' : World τ) : Prop extends Grows w w' where
  own : ∀ staging directory, Owns id staging directory w → Owns id staging directory w'

theorem Others.refl : Others id w w := ⟨.refl, fun _ _ h ↦ h⟩

theorem Others.trans {w'' : World τ} (h : Others id w w') (h' : Others id w' w'') :
    Others id w w'' :=
  ⟨h.toGrows.trans h'.toGrows,
    fun staging directory hown ↦ h'.own staging directory (h.own staging directory hown)⟩

theorem Move.others (hm : Move b calls other w w') (hne : other ≠ id) : Others id w w' := by
  have hkept : ∀ {staging' : Staging} {value : Option (ℕ × Directory τ)},
      (∀ owner directory, Owns owner staging' directory w → owner = other) →
      ∀ staging directory, Owns id staging directory w →
        update w.stagings staging' value staging = some (id, directory) := by
    intro staging' value hmine staging directory hown
    refine (update_of_ne (fun heq ↦ ?_) ..).trans hown
    subst heq
    exact hne (hmine id directory hown).symm
  refine ⟨hm.grows, ?_⟩
  cases hm with
  | none | linked | renamed | recorded | returned => exact fun _ _ h ↦ h
  | staged staging directory hmine => exact hkept hmine
  | removed staging directory hown =>
    exact hkept fun _ _ hown' ↦ owner_eq hown hown'
  | published staging directory hown =>
    exact hkept fun _ _ hown' ↦ owner_eq hown hown'

/-- A call publishes only what it has staged itself, and links only what is
published. -/
def logic (b : Bundles τ) (calls : ℕ → Request) : Logic (workerMachine b calls) where
  inv := Sound b calls
  guard := guard b calls
  rely := Others
  rely_refl _ _ := .refl
  rely_trans _ := .trans
  keeps _ _ hs hg := (exec_move hg).sound hs
  interferes _ _ hne _ hg := (exec_move hg).others hne.symm

section Specs

variable {α : Type} {Q : α → World τ → Prop} {P E : World τ → Prop}

/-- The part of a call ends in `Q`, or in `E` if it throws. -/
abbrev Does (b : Bundles τ) (calls : ℕ → Request) (id : ℕ) (p : Handler α)
    (Q : α → World τ → Prop) (E : World τ → Prop) (w : World τ) : Prop :=
  (logic b calls).Ensures id p (fun a _ ↦ Q a) (fun _ _ ↦ E) () w

/-- What no other call takes back. -/
def Lasts (id : ℕ) (P : World τ → Prop) : Prop := ∀ w w', Others id w w' → P w → P w'

/-- What no call takes back, this one neither. -/
def Permanent (P : World τ → Prop) : Prop := ∀ w w', Grows w w' → P w → P w'

theorem Permanent.lasts (hP : Permanent P) : Lasts id P := fun w w' hw ↦ hP w w' hw.toGrows

theorem permanent_published : Permanent (@Published τ release) := fun _ _ hw h ↦ h.grows hw

theorem permanent_prepared {request : Request} :
    Permanent fun w : World τ ↦ Prepared w request := fun _ _ hw h ↦ h.grows hw

theorem Does.frame {p : Handler α} (hP : Permanent P) (hp : Does b calls id p Q E w) (hw : P w) :
    Does b calls id p (fun a w ↦ P w ∧ Q a w) (fun w ↦ P w ∧ E w) w :=
  Logic.Ensures.frame hP.lasts (fun _ _ w hg ↦ hP w _ (exec_move hg).grows) hp hw

theorem Does.weaken {p : Handler α} {Q' : α → World τ → Prop} (hp : Does b calls id p Q E w)
    (hQ : ∀ a w, Q a w → Q' a w) : Does b calls id p Q' (fun _ ↦ True) w :=
  hp.mono (fun a _ w h ↦ hQ a w h) fun _ _ _ _ ↦ trivial

theorem Does.attempt {c : Command} {h : Reply c = Except Failure α} (hP : Lasts id P) (hw : P w)
    (hc : ∀ w, P w → Sound b calls w → guard b calls id c w ∧
      ∀ o w' r, exec b id c o w = (w', some r) →
        (∀ a, h ▸ r = Except.ok a → Q a w') ∧ ∀ failure, h ▸ r = Except.error failure → E w') :
    Does b calls id (attempt c h) Q E w := by
  refine .invoke fun w₁ ho hs ↦ ?_
  obtain ⟨hguard, hdone⟩ := hc w₁ (hP w w₁ ho hw) hs
  refine ⟨hguard, fun o w₂ r hexec _ ↦ ?_⟩
  cases hr : (h ▸ r : Except Failure α) with
  | ok a => exact (hdone o w₂ r hexec).1 a hr
  | error failure => exact (hdone o w₂ r hexec).2 failure hr

/-- A call of the system after which the world is as before. -/
theorem Does.still (c : Command) {h : Reply c = Except Failure α} (hP : Lasts id P) (hw : P w)
    (hg : ∀ w, guard b calls id c w) (hexec : ∀ o w, (exec b id c o w).1 = w)
    (hE : ∀ w, P w → E w) : Does b calls id (Deployments.attempt c h) (fun _ ↦ P) E w := by
  refine .attempt hP hw fun w₁ hw₁ _ ↦ ⟨hg w₁, fun o w₂ r he ↦ ?_⟩
  have hstill : w₂ = w₁ := by rw [← hexec o w₁, he]
  subst hstill
  exact ⟨fun _ _ ↦ hw₁, fun _ _ ↦ hE _ hw₁⟩

theorem Does.idle (c : Command) {h : Reply c = Except Failure α}
    (hg : ∀ w, guard b calls id c w) (hexec : ∀ o w, (exec b id c o w).1 = w) :
    Does b calls id (Deployments.attempt c h) (fun _ _ ↦ True) (fun _ ↦ True) w :=
  Does.still (P := fun _ ↦ True) c (fun _ _ _ h ↦ h) trivial hg hexec fun _ h ↦ h

theorem Does.assert {condition : Bool} {code message : String} {Q : Unit → World τ → Prop}
    (hE : E w) (hQ : condition = true → Q () w) :
    Does b calls id (assert condition code message) Q E w := by
  rw [Deployments.assert]
  split
  · next hc => exact .pure (hQ hc)
  · exact .throw hE

theorem Does.after_assert {condition : Bool} {code message : String} {q : Handler α} (hE : E w)
    (hq : condition = true → Does b calls id q Q E w) :
    Does b calls id (do Deployments.assert condition code message; q) Q E w :=
  .bind (Does.assert hE hq)

theorem Does.forM {β : Type} {xs : List β} {f : β → Handler Unit} {R : β → World τ → Prop}
    (hP : Permanent P) (hR : ∀ x, Permanent (R x)) (hw : P w)
    (hf : ∀ x ∈ xs, ∀ w, P w → Does b calls id (f x) (fun _ ↦ R x) (fun _ ↦ True) w) :
    Does b calls id (xs.forM f) (fun _ w ↦ ∀ x ∈ xs, R x w) (fun _ ↦ True) w := by
  induction xs generalizing w with
  | nil => exact .pure nofun
  | cons x xs ih =>
    have hx := ((hf x List.mem_cons_self w hw).frame hP hw).weaken fun _ _ h ↦ h
    refine hx.andThen fun _ _ w hw ↦ ?_
    have hxs := (ih hw.1 fun y hy ↦ hf y (List.mem_cons_of_mem _ hy)).frame (hR x) hw.2
    refine hxs.weaken fun _ w hw y hy ↦ ?_
    rcases List.mem_cons.mp hy with rfl | hy
    · exact hw.1
    · exact hw.2 y hy

theorem reply_still {o : Choice τ} : (w.reply o w).1 = w := by
  rw [World.reply]
  split <;> rfl

theorem reply_eq_ok {o : Choice τ} {w'' : World τ} {u : Unit}
    (he : w.reply o w' = (w'', some (.ok u))) : w'' = w' := by
  rw [World.reply] at he
  split at he
  · cases he
  · cases he
    rfl

theorem read_eq_ok {o : Choice τ} {found : Option (Except Failure α)} {a : α}
    (h : o.read found = .ok a) : found = some (.ok a) := by
  rw [Choice.read] at h
  split at h
  · cases h
  · cases found with
    | none => cases h
    | some found => exact congrArg some h

theorem Document.read_eq_ok {document : Document α} {a : α} (h : document.read = .ok a) :
    document = .holds a := by
  cases document with
  | missing | broken => cases h
  | holds a' =>
    cases h
    rfl

section Stage

variable {directory : Directory τ}

def Holding (id : ℕ) (staging : Staging) (w : World τ) : Prop := ∃ directory,
  Owns id staging directory w

theorem lasts_owns : Lasts id (@Owns τ id staging directory) :=
  fun _ _ ho hown ↦ ho.own staging directory hown

theorem lasts_holding : Lasts id (@Holding τ id staging) :=
  fun _ _ ho hown ↦ hown.imp fun directory ↦ ho.own staging directory

theorem mkdir_spec : Does b calls id (attempt (.mkdir staging) rfl)
    (fun _ ↦ Holding id staging) (fun _ ↦ True) w := by
  refine .attempt (P := fun _ ↦ True) (fun _ _ _ h ↦ h) trivial fun w₁ _ _ ↦ ⟨trivial, ?_⟩
  refine fun o w₂ r he ↦ ⟨fun _ hr ↦ ?_, fun _ _ ↦ trivial⟩
  obtain rfl : r = .ok () := hr
  rw [exec] at he
  split at he
  · cases he
  · cases he
    exact ⟨o.left, update_self ..⟩

theorem extractArchive_spec {archive : List UInt8} (hw : Holding id staging w) :
    Does b calls id (attempt (.extractArchive archive staging) rfl)
      (fun _ w ↦ ∃ directory, Owns id staging directory w ∧
        b.extractArchive archive = some directory.tree) (Holding id staging) w := by
  refine .attempt lasts_holding hw fun w₁ hw₁ _ ↦ ⟨hw₁, fun o w₂ r he ↦ ?_⟩
  rw [exec] at he
  split at he
  · next tree htree =>
    split at he
    · cases he
      exact ⟨nofun, fun _ _ ↦ ⟨_, update_self ..⟩⟩
    · cases he
      exact ⟨fun _ _ ↦ ⟨_, update_self .., htree⟩, nofun⟩
  · cases he
    exact ⟨nofun, fun _ _ ↦ ⟨_, update_self ..⟩⟩

theorem metadata_spec {version sourceCommit : String} (hw : Owns id staging directory w) :
    Does b calls id (metadata (.staging staging) version sourceCommit)
      (fun _ w ↦ Owns id staging directory w ∧
        b.metadata directory.tree = .holds (version, sourceCommit)) (Holding id staging) w := by
  have hread : Does b calls id (attempt (.readMetadata (.staging staging)) rfl)
      (fun found w ↦ Owns id staging directory w ∧ b.metadata directory.tree = .holds found)
      (Holding id staging) w := by
    refine .attempt lasts_owns hw fun w₁ hw₁ _ ↦ ⟨trivial, fun o w₂ r he ↦ ?_⟩
    cases he
    refine ⟨fun found hr ↦ ⟨hw₁, ?_⟩, fun _ _ ↦ ⟨directory, hw₁⟩⟩
    have hfound := read_eq_ok hr
    rw [World.directory, show w₁.stagings staging = some (id, directory) from hw₁] at hfound
    exact Document.read_eq_ok (Option.some.inj hfound)
  refine hread.andThen fun found _ w hw ↦ Does.assert ⟨directory, hw.1⟩ fun hfound ↦ ?_
  exact ⟨hw.1, of_decide_eq_true hfound ▸ hw.2⟩

theorem lstat_spec {component : Component} (hw : Owns id staging directory w) :
    Does b calls id (attempt (.lstat component staging) rfl)
      (fun info w ↦ Owns id staging directory w ∧ b.executable component directory.tree = some info)
      (Holding id staging) w := by
  refine .attempt lasts_owns hw fun w₁ hw₁ _ ↦ ⟨trivial, fun o w₂ r he ↦ ?_⟩
  cases he
  refine ⟨fun info hr ↦ ⟨hw₁, ?_⟩, fun _ _ ↦ ⟨directory, hw₁⟩⟩
  have hinfo := read_eq_ok hr
  rw [show w₁.stagings staging = some (id, directory) from hw₁, Option.bind_some,
    Option.map_eq_some_iff] at hinfo
  obtain ⟨info', hexecutable, heq⟩ := hinfo
  cases heq
  exact hexecutable

theorem writeIntegrity_spec {sha256 : String} (hw : Owns id staging directory w) :
    Does b calls id (attempt (.writeIntegrity staging sha256) rfl)
      (fun _ ↦ Owns id staging ⟨directory.tree, .holds sha256⟩) (Holding id staging) w := by
  refine .attempt lasts_owns hw fun w₁ hw₁ _ ↦ ⟨⟨directory, hw₁⟩, fun o w₂ r he ↦ ?_⟩
  rw [exec, show w₁.stagings staging = some (id, directory) from hw₁] at he
  dsimp only at he
  split at he
  · cases he
    exact ⟨nofun, fun _ _ ↦ ⟨_, update_self ..⟩⟩
  · cases he
    exact ⟨fun _ _ ↦ update_self .., nofun⟩

theorem publish_spec (hw : Owns id staging directory w)
    (hcomplete : Complete b staging.1 directory) :
    Does b calls id (attempt (.publish staging) rfl) (fun _ ↦ Published staging.1)
      (Holding id staging) w := by
  refine .attempt lasts_owns hw fun w₁ hw₁ _ ↦ ⟨⟨directory, hw₁, hcomplete⟩, fun o w₂ r he ↦ ?_⟩
  rw [exec, show w₁.stagings staging = some (id, directory) from hw₁] at he
  dsimp only at he
  split at he
  · cases he
    exact ⟨nofun, fun _ _ ↦ ⟨directory, hw₁⟩⟩
  · cases he
    exact ⟨fun _ _ ↦ ⟨directory, update_self ..⟩, nofun⟩

theorem remove_spec (hw : Holding id staging w) :
    Does b calls id (attempt (.remove staging) rfl) (fun _ _ ↦ True) (fun _ ↦ True) w :=
  .attempt lasts_holding hw
    fun _ hw₁ _ ↦ ⟨hw₁, fun _ _ _ _ ↦ ⟨fun _ _ ↦ trivial, fun _ _ ↦ trivial⟩⟩

/-- What becomes a release is complete. -/
theorem stage_spec {component : Component} {target : Target} {archive : List UInt8}
    (hrelease : staging.1 = (component, target.version))
    (hdigest : b.digest archive = target.sha256) (hw : Holding id staging w) :
    Does b calls id (stage component target archive staging) (fun _ ↦ Published staging.1)
      (Holding id staging) w := by
  refine (extractArchive_spec hw).andThen fun _ _ w hw ↦ ?_
  obtain ⟨directory, hown, harchive⟩ := hw
  refine (metadata_spec hown).andThen fun _ _ w hw ↦ ?_
  obtain ⟨hown, hmetadata⟩ := hw
  refine (lstat_spec hown).andThen fun info _ w hw ↦ ?_
  obtain ⟨hown, hexecutable⟩ := hw
  refine Does.after_assert ⟨directory, hown⟩ fun hinfo ↦ ?_
  subst hinfo
  refine (writeIntegrity_spec hown).andThen fun _ _ w hw ↦ publish_spec hw ⟨?_, ?_, archive, ?_, ?_⟩
  · exact ⟨target.sourceCommit, hrelease ▸ hmetadata⟩
  · exact hrelease ▸ hexecutable
  · exact harchive
  · rw [hdigest]

end Stage

section Calls

variable {component : Component} {target : Target} {installation : Installation} {plan : Plan}

theorem realpath_spec (link : Link) : Does b calls id (attempt (.realpath link) rfl)
    (fun release ↦ Published release) (fun _ ↦ True) w := by
  refine .attempt (P := fun _ ↦ True) (fun _ _ _ h ↦ h) trivial fun w₁ _ _ ↦ ⟨trivial, ?_⟩
  refine fun o w₂ r he ↦ ⟨fun release hr ↦ ?_, fun _ _ ↦ trivial⟩
  cases he
  have hfound := read_eq_ok hr
  obtain ⟨release', -, hfound⟩ := Option.bind_eq_some_iff.mp hfound
  obtain ⟨directory, hpublished, heq⟩ := Option.map_eq_some_iff.mp hfound
  cases heq
  exact ⟨directory, hpublished⟩

theorem access_spec : Does b calls id (attempt (.access release) rfl) (fun _ ↦ Published release)
    (fun _ ↦ True) w := by
  refine .attempt (P := fun _ ↦ True) (fun _ _ _ h ↦ h) trivial fun w₁ _ _ ↦ ⟨trivial, ?_⟩
  refine fun o w₂ r he ↦ ⟨fun _ hr ↦ ?_, fun _ _ ↦ trivial⟩
  cases he
  obtain ⟨directory, hpublished, -⟩ := Option.map_eq_some_iff.mp (read_eq_ok hr)
  exact ⟨directory, hpublished⟩

theorem metadata_published {version sourceCommit : String} (hw : Published release w) :
    Does b calls id (metadata (.release release) version sourceCommit)
      (fun _ ↦ Published release) (fun _ ↦ True) w := by
  refine (Does.still (.readMetadata _) permanent_published.lasts hw (fun _ ↦ trivial)
    (fun _ _ ↦ rfl) fun _ _ ↦ trivial).andThen fun _ _ w hw ↦ Does.assert trivial fun _ ↦ hw

theorem prepared_spec : Does b calls id (prepared release target)
    (fun there w ↦ there = true → Published release w) (fun _ ↦ True) w := by
  refine .tryCatch (Logic.Ensures.mono (Q := fun there _ w ↦ there = true → Published release w)
    (E := fun _ _ _ ↦ True) ?_ (fun _ _ _ h ↦ h) fun failure _ w _ ↦ ?_)
  · refine access_spec.andThen fun _ _ w hw ↦ (metadata_published hw).andThen fun _ _ w hw ↦ ?_
    refine (Does.still (.readIntegrity _) permanent_published.lasts hw (fun _ ↦ trivial)
      (fun _ _ ↦ rfl) fun _ _ ↦ trivial).andThen fun _ _ w hw ↦ ?_
    exact Does.after_assert trivial fun _ ↦ .pure fun _ ↦ hw
  · split
    · exact .pure nofun
    · exact .throw trivial

theorem prepareOne_spec : Does b calls id (prepareOne b component target)
    (fun _ ↦ Published (component, target.version)) (fun _ ↦ True) w := by
  refine prepared_spec.andThen fun there _ w hthere ↦ ?_
  split
  · next htrue => exact .pure (hthere htrue)
  · refine Does.after_assert trivial fun _ ↦ ?_
    refine (Does.idle (.download target.url) (fun _ ↦ trivial) fun _ _ ↦ rfl).andThen
      fun archive _ w _ ↦ Does.after_assert trivial fun hdigest ↦ ?_
    have hdigest := of_decide_eq_true (Bool.and_eq_true_iff.mp hdigest).2
    refine (Does.idle .randomUUID (fun _ ↦ trivial) fun _ _ ↦ rfl).andThen fun uuid _ w _ ↦ ?_
    refine mkdir_spec.andThen fun _ _ w hw ↦ ?_
    have hstage : Does b calls id
        (tryCatch (stage component target archive ((component, target.version), uuid))
          fun failure ↦ do
            tryCatch (attempt (.remove ((component, target.version), uuid)) rfl) fun _ ↦ pure ()
            throw failure) (fun _ ↦ Published (component, target.version)) (fun _ ↦ True) w := by
      refine .tryCatch ((stage_spec rfl hdigest hw).mono (fun _ _ _ h ↦ h) fun _ _ w hw ↦ ?_)
      have hremove : Does b calls id
          (tryCatch (attempt (.remove ((component, target.version), uuid)) rfl) fun _ ↦ pure ())
          (fun _ _ ↦ True) (fun _ ↦ True) w :=
        .tryCatch ((remove_spec hw).mono (fun _ _ _ h ↦ h) fun _ _ _ _ ↦ .pure trivial)
      exact hremove.andThen fun _ _ _ _ ↦ .throw trivial
    refine hstage.andThen fun _ _ w hw ↦ ?_
    exact Does.still .syncDirectory permanent_published.lasts hw (fun _ ↦ trivial)
      (fun _ _ ↦ reply_still) fun _ _ ↦ trivial

theorem fingerprint_spec : Does b calls id (fingerprint installation)
    (fun _ w ↦ ∀ component, Published (component, installation.current component) w)
    (fun _ ↦ True) w := by
  refine (realpath_spec .backend).andThen fun backend _ w hw ↦ ?_
  have hweb : Does b calls id (attempt (.realpath .web) rfl)
      (fun web w ↦ Published backend w ∧ Published web w) (fun _ ↦ True) w :=
    ((realpath_spec .web).frame permanent_published hw).weaken fun _ _ h ↦ h
  refine hweb.andThen fun web _ w hw ↦ ?_
  have hboth : Permanent fun w : World τ ↦ Published backend w ∧ Published web w :=
    fun _ _ hgrows h ↦ ⟨h.1.grows hgrows, h.2.grows hgrows⟩
  have hupdater : Does b calls id (attempt (.realpath .updater) rfl)
      (fun _ w ↦ Published backend w ∧ Published web w) (fun _ ↦ True) w :=
    ((realpath_spec .updater).frame hboth hw).weaken fun _ _ h ↦ h.1
  refine hupdater.andThen fun updater _ w hw ↦ Does.after_assert trivial fun hbackend ↦ ?_
  refine Does.after_assert trivial fun hweb ↦ Does.after_assert trivial fun _ ↦ ?_
  refine (Does.still (.systemctl "cat") hboth.lasts hw (fun _ ↦ trivial) (fun _ _ ↦ reply_still)
    fun _ _ ↦ trivial).weaken fun _ w hw component ↦ ?_
  cases component with
  | backend => exact of_decide_eq_true hbackend ▸ hw.1
  | web => exact of_decide_eq_true hweb ▸ hw.2

/-- When `prepare` returns, the releases it was for are published. -/
theorem prepare_spec : Does b calls id (prepare b installation plan)
    (fun _ w ↦ Prepared w (.prepare installation plan)) (fun _ ↦ True) w := by
  refine fingerprint_spec.andThen fun _ _ w hw ↦ ?_
  have hcurrent : Permanent fun w : World τ ↦
      ∀ component, Published (component, installation.current component) w :=
    fun _ _ hgrows h component ↦ (h component).grows hgrows
  have hall : Does b calls id ((plan.components.filter Change.update).forM fun change ↦
        prepareOne b change.component (plan.targets change.component))
      (fun _ w ↦ ∀ change ∈ plan.components.filter Change.update,
        Published (change.component, (plan.targets change.component).version) w)
      (fun _ ↦ True) w :=
    Does.forM hcurrent (fun _ ↦ permanent_published) hw fun _ _ _ _ ↦ prepareOne_spec
  exact (hall.frame hcurrent hw).weaken fun _ _ h ↦ h

theorem link_spec {name : Link} (hw : Leads name release w) :
    Does b calls id (link name release) (fun _ _ ↦ True) (fun _ ↦ True) w := by
  have hlasts : Lasts id (@Leads τ name release) := fun _ _ ho h ↦ h.grows ho.toGrows
  have huuid : Does b calls id (attempt .randomUUID rfl) (fun _ ↦ Leads name release)
      (fun _ ↦ True) w :=
    Does.still .randomUUID hlasts hw (fun _ ↦ trivial) (fun _ _ ↦ rfl) fun _ _ ↦ trivial
  refine huuid.andThen fun uuid _ w hw ↦ ?_
  have hsymlink : Does b calls id (attempt (.symlink release name uuid) rfl) (fun _ _ ↦ True)
      (fun _ ↦ True) w :=
    .attempt hlasts hw fun w₁ hw₁ _ ↦ ⟨hw₁, fun _ _ _ _ ↦ ⟨fun _ _ ↦ trivial, fun _ _ ↦ trivial⟩⟩
  have hrename : ∀ w, Does b calls id (attempt (.rename name uuid) rfl) (fun _ _ ↦ True)
      (fun _ ↦ True) w := fun w ↦ .attempt (P := fun _ ↦ True) (fun _ _ _ h ↦ h) trivial
    fun _ _ _ ↦ ⟨trivial, fun _ _ _ _ ↦ ⟨fun _ _ ↦ trivial, fun _ _ ↦ trivial⟩⟩
  refine hsymlink.andThen fun _ _ w _ ↦ (hrename w).andThen fun _ _ w _ ↦ ?_
  exact Does.idle .syncDirectory (fun _ ↦ trivial) fun _ _ ↦ reply_still

theorem switchApplications_spec (hplan : plan.Consistent)
    (hw : Prepared w (.prepare installation plan)) :
    Does b calls id (switchApplications plan) (fun _ _ ↦ True) (fun _ ↦ True) w := by
  refine (Does.forM (R := fun _ _ ↦ True) permanent_prepared (fun _ _ _ _ h ↦ h) hw
    fun change hm w hw ↦ link_spec ⟨?_, ?_⟩).weaken fun _ _ _ ↦ trivial
  · cases change.component <;> rfl
  · obtain ⟨hm', hupdate⟩ := List.mem_filter.mp hm
    exact hplan change hm' hupdate ▸ hw.2 change hm

theorem updateHelper_spec (hw : Prepared w (.prepare installation plan)) :
    Does b calls id (updateHelper plan) (fun _ _ ↦ True) (fun _ ↦ True) w := by
  have hverify : ∀ w, Does b calls id (attempt .verifyHelper rfl) (fun _ _ ↦ True)
      (fun _ ↦ True) w := fun _ ↦ Does.idle .verifyHelper (fun _ ↦ trivial) fun _ _ ↦ reply_still
  rw [updateHelper]
  split
  · next hany =>
    obtain ⟨change, hm, hchange⟩ := List.any_eq_true.mp hany
    obtain ⟨hbackend, hupdate⟩ := Bool.and_eq_true_iff.mp hchange
    have hpublished := hw.2 change (List.mem_filter.mpr ⟨hm, hupdate⟩)
    rw [of_decide_eq_true hbackend] at hpublished
    refine (link_spec ⟨rfl, hpublished⟩).andThen fun _ _ w _ ↦ ?_
    exact (Does.idle (.systemctl "restart") (fun _ ↦ trivial) fun _ _ ↦ reply_still).andThen
      fun _ _ w _ ↦ hverify w
  · exact hverify w

theorem restoreDeployment_spec (hw : Prepared w (.prepare installation plan)) :
    Does b calls id (restoreDeployment installation) (fun _ _ ↦ True) (fun _ ↦ True) w := by
  have hlink : ∀ (name : Link) (w : World τ), Prepared w (.prepare installation plan) →
      Does b calls id (link name (name.component, installation.current name.component))
        (fun _ w ↦ Prepared w (.prepare installation plan)) (fun _ ↦ True) w :=
    fun name w hw ↦ ((link_spec ⟨rfl, hw.1 _⟩).frame permanent_prepared hw).weaken fun _ _ h ↦ h.1
  refine (hlink .backend w hw).andThen fun _ _ w hw ↦ (hlink .web w hw).andThen fun _ _ w hw ↦ ?_
  refine (hlink .updater w hw).andThen fun _ _ w _ ↦ ?_
  have hrecord : Does b calls id (attempt (.writeInstallation installation) rfl) (fun _ _ ↦ True)
      (fun _ ↦ True) w := .attempt (P := fun _ ↦ True) (fun _ _ _ h ↦ h) trivial
    fun _ _ _ ↦ ⟨trivial, fun _ _ _ _ ↦ ⟨fun _ _ ↦ trivial, fun _ _ ↦ trivial⟩⟩
  refine hrecord.andThen fun _ _ w _ ↦ ?_
  refine (Does.idle (.systemctl "restart") (fun _ ↦ trivial) fun _ _ ↦ reply_still).andThen
    fun _ _ w _ ↦ Does.idle .verifyHelper (fun _ ↦ trivial) fun _ _ ↦ reply_still

theorem serve_spec (hs : Sound b calls w) (hready : Ready calls w (calls id)) :
    Does b calls id (serve b (calls id)) (fun _ w ↦ Prepared w (calls id)) (fun _ ↦ True) w := by
  cases hcall : calls id with
  | prepare installation plan => exact prepare_spec
  | switchApplications plan =>
    rw [hcall] at hready
    obtain ⟨hplan, earlier, hreturned, installation, hearlier⟩ := hready
    exact (switchApplications_spec hplan (hearlier ▸ hs.prepared earlier hreturned)).weaken
      fun _ _ _ ↦ trivial
  | updateHelper plan =>
    rw [hcall] at hready
    obtain ⟨-, earlier, hreturned, installation, hearlier⟩ := hready
    exact (updateHelper_spec (hearlier ▸ hs.prepared earlier hreturned)).weaken fun _ _ _ ↦ trivial
  | restoreDeployment original =>
    rw [hcall] at hready
    obtain ⟨earlier, hreturned, plan, hearlier⟩ := hready
    exact (restoreDeployment_spec (hearlier ▸ hs.prepared earlier hreturned)).weaken
      fun _ _ _ ↦ trivial

end Calls

theorem admissible : (logic b calls).Admissible := by
  rintro id w p hs ⟨hready, rfl⟩
  have hcall : Does b calls id (do serve b (calls id); attempt .return rfl) (fun _ _ ↦ True)
      (fun _ ↦ True) w := by
    refine (serve_spec hs hready).andThen fun _ _ w hw ↦ ?_
    exact Does.attempt permanent_prepared.lasts hw
      fun _ hw₁ _ ↦ ⟨hw₁, fun _ _ _ _ ↦ ⟨fun _ _ ↦ trivial, fun _ _ ↦ trivial⟩⟩
  exact Logic.Wp.bind (Logic.Wp.mono hcall fun _ _ _ ↦ trivial)

end Specs

section Runs

/-- At first every release is complete, and links lead to releases. -/
structure Starts (b : Bundles τ) (w : World τ) : Prop where
  complete : ∀ release directory, w.releases release = some directory →
    Complete b release directory
  link : ∀ link release, w.links link = some release → Leads link release w
  temporary : ∀ link uuid release, w.temporary (link, uuid) = some release → Leads link release w
  returned : w.returned = []

theorem Starts.sound (hw : Starts b w) : Sound b calls w :=
  ⟨hw.complete, hw.link, hw.temporary, fun id hid ↦ by
    rw [hw.returned] at hid
    cases hid⟩

section Sample

/-- An archive is the version it holds. -/
def sampleBundles : Bundles (List UInt8) where
  digest archive := toString archive.length
  extractArchive := some
  metadata tree := .holds (toString tree.length, "commit")
  executable _ _ := some true

def samplePlan : Plan where
  components := [⟨.backend, true, "2"⟩, ⟨.web, false, "1"⟩]
  targets := fun
    | .backend => ⟨"2", "commit", "backend", "2", 2⟩
    | .web => ⟨"1", "commit", "web", "1", 1⟩

def sampleInstallation : Installation := ⟨fun _ ↦ "1"⟩

def sampleCalls : ℕ → Request
  | 0 => .prepare sampleInstallation samplePlan
  | _ => .switchApplications samplePlan

/-- Version 1 is installed. -/
def sampleWorld : World (List UInt8) where
  releases release := if release.2 = "1" then some ⟨[0], .holds "1"⟩ else none
  stagings _ := none
  links link := some (link.component, "1")
  temporary _ := none
  recorded := some sampleInstallation
  returned := []

/-- The calls one after the other, each until it has returned. -/
def sampleRun (count : ℕ) : Config ℕ Command Reply (World (List UInt8)) :=
  (List.range count).foldl (fun cfg id ↦
    let played := (workerMachine sampleBundles sampleCalls).play id
      (List.replicate 15 ⟨false, ⟨[], .missing⟩, [0, 0], "uuid"⟩)
      (handler sampleBundles (sampleCalls id)) cfg.world
    ⟨update cfg.threads id played.1, played.2⟩) (Machine.idle sampleWorld)

theorem sample_starts : Starts sampleBundles sampleWorld where
  complete := by
    rintro ⟨component, version⟩ directory h
    obtain ⟨rfl, heq⟩ := Option.ite_none_right_eq_some.mp h
    cases heq
    exact ⟨⟨"commit", rfl⟩, rfl, [0], rfl, rfl⟩
  link := by
    rintro link release h
    cases h
    exact ⟨rfl, _, rfl⟩
  temporary := nofun
  returned := rfl

theorem sample_run : (workerMachine sampleBundles sampleCalls).Run (Machine.idle sampleWorld)
    (sampleRun 2) := by
  have hprepare : (workerMachine sampleBundles sampleCalls).Run (Machine.idle sampleWorld)
      (sampleRun 1) := (workerMachine sampleBundles sampleCalls).start_run 0 _ rfl ⟨trivial, rfl⟩
  refine hprepare.trans ((workerMachine sampleBundles sampleCalls).start_run 1 _ rfl ⟨?_, rfl⟩)
  exact ⟨by simp [Plan.Consistent, samplePlan], 0, by decide, sampleInstallation, rfl⟩

end Sample

variable {cfg cfg' : Config ℕ Command Reply (World τ)}

/-- Whatever calls the worker has at work at once, and whichever of them fail or are killed, a
link leads to a complete release at any time, and a release that is there stays as
it is. -/
theorem links_published (hw : Starts b w)
    (hr : (workerMachine b calls).Run (Machine.idle w) cfg)
    (hr' : (workerMachine b calls).Run cfg cfg') :
    (∀ link release, cfg'.world.links link = some release → release.1 = link.component ∧
        ∃ directory, cfg'.world.releases release = some directory ∧
          Complete b release directory) ∧
      Grows cfg.world cfg'.world := by
  have hstart : (logic b calls).Verified (Machine.idle w) := Logic.verified_idle hw.sound
  have hverified := hstart.run admissible hr
  have hsound := (hverified.run admissible hr').1
  refine ⟨fun link release hl ↦ ?_, hverified.run_within admissible (fun _ ↦ .refl) .trans
    (fun id c o w _ hg ↦ (exec_move hg).grows) hr'⟩
  obtain ⟨hcomponent, directory, hpublished⟩ := hsound.link link release hl
  exact ⟨hcomponent, directory, hpublished, hsound.complete release directory hpublished⟩

theorem sample_published :
    (∀ link release, (sampleRun 2).world.links link = some release → release.1 = link.component ∧
        ∃ directory, (sampleRun 2).world.releases release = some directory ∧
          Complete sampleBundles release directory) ∧
      Grows sampleWorld (sampleRun 2).world :=
  links_published sample_starts .refl sample_run

end Runs

end RustdeskConsole.Deployments
