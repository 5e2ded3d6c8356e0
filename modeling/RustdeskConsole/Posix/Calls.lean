import RustdeskConsole.Effects.Outcomes
import RustdeskConsole.Posix.Volume
import Mathlib.Order.Defs.Unbundled

namespace RustdeskConsole.Posix

open Effects Effects.Guard

/-- What becomes of a call. One that a fault stops may have got some way. -/
inductive Fate
  | done
  | fault (progress : ℕ)

structure System where
  volume : Volume
  fates : List Fate
  suffixes : List Name

inductive Trouble (ε : Type)
  | missing
  | system
  | raised (failure : ε)

abbrev Program (ε α : Type) := EStateM (Trouble ε) System α

namespace Calls

variable {ε α β : Type}

def refusal : Errno → Trouble ε
  | .missing => .missing
  | _ => .system

/-- One call. Where a program is stopped from outside, it is a fault nothing follows. -/
def call (halfway : ℕ → Volume → Volume) (op : Volume → Except Errno (α × Volume)) :
    Program ε α := fun s ↦
  match s.fates.head? with
  | some (.fault progress) =>
    .error .system { s with volume := halfway progress s.volume, fates := s.fates.tail }
  | _ =>
    match op s.volume with
    | .ok (a, volume) => .ok a { s with volume := volume, fates := s.fates.tail }
    | .error errno => .error (refusal errno) { s with fates := s.fates.tail }

def ask (op : Volume → Except Errno α) : Program ε α :=
  call (fun _ ↦ id) fun volume ↦ (op volume).map (·, volume)

def change (op : Volume → Except Errno Volume) : Program ε Unit :=
  call (fun _ ↦ id) fun volume ↦ (op volume).map ((), ·)

def draw : Program ε Name := fun s ↦
  .ok (s.suffixes.headD []) { s with suffixes := s.suffixes.tail }

def lstat (location : Location) : Program ε Node := ask (Volume.lookup location)

/-- Where a link leads is left out: a call that follows one fails. -/
def stat (location : Location) : Program ε Node := do
  let node ← lstat location
  Checked.assert (node.content ≠ .link) .system
  pure node

def readdir (location : Location) : Program ε (List Name) := ask (Volume.readdir location)

def readFile (location : Location) : Program ε (List UInt8) := ask (Volume.readFile location)

/-- `open` of what exists, which is then synchronized and closed. -/
def sync (location : Location) : Program ε Unit :=
  ask fun volume ↦ discard (volume.lookup location)

def mkdir (owner : Owner) (location : Location) (mode : ℕ) : Program ε Unit :=
  change (Volume.create location ⟨.directory, mode, owner, 1⟩)

def mkdirAll (owner : Owner) (location : Location) (mode : ℕ) : Program ε Unit :=
  location.inits.forM fun way ↦ do
    let found ← ask fun volume ↦ .ok (volume.node way)
    match found with
    | none => mkdir owner way mode
    | some node => Checked.assert (node.content = .directory) .system

/-- Make a directory whose name nothing has. -/
def mkdtemp (owner : Owner) (directory : Location) (start : Name) : Program ε Location := do
  let suffix ← draw
  mkdir owner (directory ++ [start ++ suffix]) 0o700
  pure (directory ++ [start ++ suffix])

def openNew (owner : Owner) (location : Location) (mode : ℕ) : Program ε Unit :=
  change (Volume.create location ⟨.file [], mode, owner, 1⟩)

def written (op : Volume → Except Errno Volume) (volume : Volume) : Volume :=
  (op volume).toOption.getD volume

def writeFile (location : Location) (content : List UInt8) : Program ε Unit :=
  call (fun progress ↦ written (Volume.write location (content.take progress)))
    fun volume ↦ (volume.write location content).map ((), ·)

def chmod (location : Location) (mode : ℕ) : Program ε Unit := change (Volume.chmod location mode)

def chown (location : Location) (owner : Owner) : Program ε Unit :=
  change (Volume.chown location owner)

def unlink (location : Location) : Program ε Unit := change (Volume.unlink location)

def rmdir (location : Location) : Program ε Unit := change (Volume.rmdir location)

def rename (source target : Location) : Program ε Unit := change (Volume.rename source target)

/-- The first bytes of a file, copied to where nothing is. -/
def copyBytes (owner : Owner) (source target : Location) (length : List UInt8 → ℕ)
    (volume : Volume) : Except Errno Volume := do
  let node ← volume.lookup source
  let content ← volume.readFile source
  volume.create target ⟨.file (content.take (length content)), node.mode, owner, 1⟩

/-- `copyFile` with `COPYFILE_EXCL`. What a fault has left of the copy may be removed again. -/
def copyFile (owner : Owner) (source target : Location) : Program ε Unit :=
  call
    (fun progress volume ↦
      if progress = 0 then volume
      else written (copyBytes owner source target fun _ ↦ progress - 1) volume)
    fun volume ↦ (copyBytes owner source target List.length volume).map ((), ·)

/-- `cp` with `recursive` and `errorOnExist`, down to some depth. -/
def cp (owner : Owner) : ℕ → Location → Location → Program ε Unit
  | 0, _, _ => throw .system
  | depth + 1, source, target => do
    let info ← lstat source
    (match info.content with
      | .directory => do
        mkdir owner target 0o777
        let names ← readdir source
        names.forM fun name ↦ cp owner depth (source ++ [name]) (target ++ [name])
      | .file _ => copyFile owner source target
      | content => change (Volume.create target ⟨content, info.mode, owner, 1⟩))
    chmod target info.mode

/-- `rm` with `recursive`, down to some depth. -/
def rm : ℕ → Location → Program ε Unit
  | 0, _ => throw .system
  | depth + 1, location => do
    let info ← lstat location
    if info.content = .directory then do
      let names ← readdir location
      names.forM fun name ↦ rm depth (location ++ [name])
      rmdir location
    else unlink location

/-- However the program ends, what it made of the volume stands in a relation. -/
def Respects (r : Volume → Volume → Prop) (x : Program ε α) : Prop :=
  ∀ s, Ends x s fun _ s' ↦ r s.volume s'.volume

/-- Nothing changed but in a part of the volume. -/
def Within (region : Location → Prop) (volume volume' : Volume) : Prop :=
  ∀ location, ¬region location → volume'.node location = volume.node location

/-- In a part of the volume something was made, and no file was lost. -/
structure Adds (region : Location → Prop) (volume volume' : Volume) : Prop where
  within : Within region volume volume'
  kept : ∀ location content, volume.bytes location = some content →
    volume'.bytes location = some content

variable {r r' : Volume → Volume → Prop} {region region' : Location → Prop}
  {volume volume' volume'' : Volume} {location other source target : Location}
  {x : Program ε α} {f : α → Program ε β} {s s' : System} {a : α} {b : β}

instance : IsPreorder Volume (Within region) where
  refl _ _ _ := rfl
  trans _ _ _ h h' location hl := (h' location hl).trans (h location hl)

instance : IsPreorder Volume (Adds region) where
  refl _ := ⟨fun _ _ ↦ rfl, fun _ _ h ↦ h⟩
  trans _ _ _ h h' := ⟨IsTrans.trans _ _ _ h.within h'.within,
    fun location content hc ↦ h'.kept location content (h.kept location content hc)⟩

theorem Within.free (h : Within region volume volume') (hl : ¬region location)
    (hn : volume.node location = none) : volume'.node location = none :=
  (h location hl).trans hn

theorem Within.mono (h : Within region volume volume') (hr : ∀ l, region l → region' l) :
    Within region' volume volume' :=
  fun location hl ↦ h location (mt (hr location) hl)

theorem Adds.mono (h : Adds region volume volume') (hr : ∀ l, region l → region' l) :
    Adds region' volume volume' :=
  ⟨h.within.mono hr, h.kept⟩

/-- Where there was no file, none is lost. -/
theorem Within.adds (h : Within region volume volume')
    (hr : ∀ l, region l → volume.bytes l = none) : Adds region volume volume' := by
  refine ⟨h, fun l content hc ↦ ?_⟩
  by_cases hl : region l
  · rw [hr l hl] at hc
    cases hc
  · rw [Volume.bytes, h l hl]
    exact hc

theorem bytes_congr (h : volume'.node location = volume.node other) :
    volume'.bytes location = volume.bytes other := by
  rw [Volume.bytes, h, Volume.bytes]

namespace Respects

theorem of_ok (h : Respects r x) (hx : x s = .ok a s') : r s.volume s'.volume := Ends.of_ok (h s) hx

theorem mono (h : Respects r x) (hr : ∀ v v', r v v' → r' v v') : Respects r' x :=
  fun s ↦ (h s).mono fun _ s' ↦ hr s.volume s'.volume

theorem ite {condition : Prop} [Decidable condition] {x y : Program ε α}
    (hx : condition → Respects r x) (hy : ¬condition → Respects r y) :
    Respects r (if condition then x else y) := by
  split
  · next h => exact hx h
  · next h => exact hy h

variable [IsPreorder Volume r]

/-- What has been done before a program goes on is known to what follows. -/
theorem go_on (hx : Ends x s fun _ s' ↦ r s.volume s'.volume) (hf : ∀ a s₁, x s = .ok a s₁ →
    Ends (f a) s₁ fun _ s' ↦ r s₁.volume s'.volume) :
    Ends (x >>= f) s fun _ s' ↦ r s.volume s'.volume := by
  have hb : (x >>= f) s = EStateM.bind x f s := rfl
  rw [Ends, hb, EStateM.bind]
  cases hs : x s with
  | ok a s₁ => exact (hf a s₁ hs).mono fun _ _ h' ↦ trans_of r (hx.of_ok hs) h'
  | error e s₁ => exact Ends.of_error hx hs

theorem andThen (hx : Respects r x) (hf : ∀ a s₁, x s = .ok a s₁ →
    Ends (f a) s₁ fun _ s' ↦ r s₁.volume s'.volume) :
    Ends (x >>= f) s fun _ s' ↦ r s.volume s'.volume :=
  go_on (hx s) hf

theorem pure : Respects r (Pure.pure a : Program ε α) := fun _ ↦ Ends.pure (refl_of r _)

theorem throw {e : Trouble ε} : Respects r (throw e : Program ε α) :=
  fun _ ↦ Ends.throw (refl_of r _)

theorem bind (hx : Respects r x) (hf : ∀ a, Respects r (f a)) : Respects r (x >>= f) := by
  intro s
  refine (hx s).bind (fun a s₁ h ↦ ?_) fun _ _ h ↦ h
  exact (hf a s₁).mono fun _ _ h' ↦ trans_of r h h'

theorem forM {as : List α} {turn : α → Program ε PUnit}
    (h : ∀ a ∈ as, Respects r (turn a)) : Respects r (as.forM turn) := by
  induction as with
  | nil => exact pure
  | cons a as ih =>
    exact bind (h a List.mem_cons_self) fun _ ↦ ih fun a ha ↦ h a (List.mem_cons_of_mem _ ha)

theorem foldlM {as : List α} {turn : β → α → Program ε β} {b : β}
    (h : ∀ b, ∀ a ∈ as, Respects r (turn b a)) : Respects r (as.foldlM turn b) := by
  induction as generalizing b with
  | nil => exact pure
  | cons a as ih =>
    rw [List.foldlM_cons]
    exact bind (h b a List.mem_cons_self) fun _ ↦
      ih fun b a ha ↦ h b a (List.mem_cons_of_mem _ ha)

theorem tryCatch {g : Trouble ε → Program ε α} (hx : Respects r x)
    (hg : ∀ e, Respects r (g e)) : Respects r (tryCatch x g) := by
  intro s
  refine (hx s).tryCatch (fun _ _ h ↦ h) fun e s₁ h ↦ ?_
  exact (hg e s₁).mono fun _ _ h' ↦ trans_of r h h'

theorem assert {condition : Bool} {e : Trouble ε} : Respects r (Checked.assert condition e) :=
  ite (fun _ ↦ pure) fun _ ↦ throw

theorem call {halfway : ℕ → Volume → Volume} {op : Volume → Except Errno (α × Volume)}
    (hfault : ∀ progress v, r v (halfway progress v))
    (hop : ∀ v a v', op v = .ok (a, v') → r v v') :
    Respects r (call halfway op : Program ε α) := by
  intro s
  rw [Ends, Calls.call]
  split
  · next heq =>
    split at heq
    · cases heq
    · split at heq
      · next hop' =>
        obtain ⟨rfl, rfl⟩ := EStateM.Result.ok.inj heq
        exact hop _ _ _ hop'
      · cases heq
  · next heq =>
    split at heq
    · obtain ⟨rfl, rfl⟩ := EStateM.Result.error.inj heq
      exact hfault _ _
    · split at heq
      · cases heq
      · obtain ⟨rfl, rfl⟩ := EStateM.Result.error.inj heq
        exact refl_of r _

theorem ask {op : Volume → Except Errno α} : Respects r (ask op : Program ε α) := by
  refine call (fun _ v ↦ refl_of r v) fun v a v' h ↦ ?_
  obtain ⟨_, -, h⟩ := map_eq_ok.mp h
  obtain ⟨-, rfl⟩ := Prod.mk.inj h
  exact refl_of r v

theorem change {op : Volume → Except Errno Volume} (hop : ∀ v v', op v = .ok v' → r v v') :
    Respects r (change op : Program ε Unit) := by
  refine call (fun _ v ↦ refl_of r v) fun v a v' h ↦ ?_
  obtain ⟨_, hv, h⟩ := map_eq_ok.mp h
  obtain ⟨-, rfl⟩ := Prod.mk.inj h
  exact hop v _ hv

theorem draw : Respects r (draw : Program ε Name) := fun _ ↦ refl_of r _

end Respects

theorem call_eq_ok {halfway : ℕ → Volume → Volume} {op : Volume → Except Errno (α × Volume)}
    (h : (call halfway op : Program ε α) s = .ok a s') : op s.volume = .ok (a, s'.volume) := by
  unfold call at h
  split at h
  · cases h
  · split at h
    · next hop =>
      obtain ⟨rfl, rfl⟩ := EStateM.Result.ok.inj h
      exact hop
    · cases h

theorem ask_eq_ok {op : Volume → Except Errno α} (h : (ask op : Program ε α) s = .ok a s') :
    op s.volume = .ok a ∧ s'.volume = s.volume := by
  obtain ⟨_, hop, h⟩ := map_eq_ok.mp (call_eq_ok h)
  obtain ⟨rfl, hv⟩ := Prod.mk.inj h
  exact ⟨hop, hv.symm⟩

theorem change_eq_ok {op : Volume → Except Errno Volume} {u : Unit}
    (h : (change op : Program ε Unit) s = .ok u s') : op s.volume = .ok s'.volume := by
  obtain ⟨_, hop, h⟩ := map_eq_ok.mp (call_eq_ok h)
  obtain ⟨-, rfl⟩ := Prod.mk.inj h
  exact hop

theorem bind_eq_ok {s₂ : System} (h : (x >>= f) s = .ok b s₂) :
    ∃ a s₁, x s = .ok a s₁ ∧ f a s₁ = .ok b s₂ := by
  have hb : (x >>= f) s = EStateM.bind x f s := rfl
  rw [hb, EStateM.bind] at h
  cases hx : x s with
  | ok a s₁ =>
    rw [hx] at h
    exact ⟨a, s₁, rfl, h⟩
  | error e s₁ =>
    rw [hx] at h
    cases h

theorem bind_eq_error {e : Trouble ε} (h : (x >>= f) s = .error e s') :
    x s = .error e s' ∨ ∃ a s₁, x s = .ok a s₁ ∧ f a s₁ = .error e s' := by
  have hb : (x >>= f) s = EStateM.bind x f s := rfl
  rw [hb, EStateM.bind] at h
  cases hx : x s with
  | ok a s₁ =>
    rw [hx] at h
    exact .inr ⟨a, s₁, rfl, h⟩
  | error e' s₁ =>
    rw [hx] at h
    obtain ⟨rfl, rfl⟩ := EStateM.Result.error.inj h
    exact .inl rfl

theorem call_eq_missing {halfway : ℕ → Volume → Volume}
    {op : Volume → Except Errno (α × Volume)}
    (h : (call halfway op : Program ε α) s = .error .missing s') :
    op s.volume = .error .missing ∧ s'.volume = s.volume := by
  unfold call at h
  split at h
  · cases h
  · split at h
    · cases h
    · next errno herror =>
      obtain ⟨hrefusal, rfl⟩ := EStateM.Result.error.inj h
      cases errno with
      | missing => exact ⟨herror, rfl⟩
      | _ => cases hrefusal

theorem map_eq_error {β γ : Type} {y : Except Errno β} {g : β → γ} {errno : Errno}
    (h : y.map g = .error errno) : y = .error errno := by
  cases y with
  | error errno' => exact congrArg Except.error (Except.error.inj h)
  | ok b => cases h

theorem ask_eq_missing {op : Volume → Except Errno α}
    (h : (ask op : Program ε α) s = .error .missing s') :
    op s.volume = .error .missing ∧ s'.volume = s.volume :=
  ⟨map_eq_error (call_eq_missing h).1, (call_eq_missing h).2⟩

theorem change_eq_missing {op : Volume → Except Errno Volume}
    (h : (change op : Program ε Unit) s = .error .missing s') :
    op s.volume = .error .missing ∧ s'.volume = s.volume :=
  ⟨map_eq_error (call_eq_missing h).1, (call_eq_missing h).2⟩

theorem lookup_eq_error {errno : Errno} (h : volume.lookup location = .error errno) :
    volume.node location = none := by
  unfold Volume.lookup at h
  split at h
  · cases h
  · next hn => exact hn

theorem sync_eq_missing (h : (sync location : Program ε Unit) s = .error .missing s') :
    s.volume.node location = none := by
  obtain ⟨hask, -⟩ := ask_eq_missing h
  exact lookup_eq_error (map_eq_error hask)

/-- A file that exists is not missing when it is copied into a directory that exists. -/
theorem copyFile_ne_missing {owner : Owner} {content : List UInt8}
    (hsource : s.volume.bytes source = some content) (ht : s.volume.IsDirectory target.dropLast)
    (hplain : ∀ name ∈ target, Plain name) :
    (copyFile owner source target : Program ε Unit) s ≠ .error .missing s' := by
  intro h
  have hcopy := map_eq_error (call_eq_missing h).1
  obtain ⟨node, hnode, -⟩ := Volume.bytes_eq_some.mp hsource
  have hlookup := Volume.lookup_eq_ok.mpr hnode
  have hread := Volume.readFile_eq_ok.mpr hsource
  unfold copyBytes at hcopy
  rw [hlookup] at hcopy
  change (s.volume.readFile source >>= _) = _ at hcopy
  rw [hread] at hcopy
  change Volume.create _ _ _ = _ at hcopy
  unfold Volume.create at hcopy
  split at hcopy
  · rw [dif_pos ⟨ht, hplain⟩] at hcopy
    cases hcopy
  · cases hcopy

theorem chmod_eq_missing {mode : ℕ}
    (h : (chmod location mode : Program ε Unit) s = .error .missing s') :
    s.volume.node location = none := by
  obtain ⟨hop, -⟩ := change_eq_missing h
  by_contra hne
  obtain ⟨node, hnode⟩ := Option.ne_none_iff_exists'.mp hne
  unfold Volume.chmod at hop
  rw [Volume.lookup_eq_ok.mpr hnode] at hop
  cases hop

theorem unlink_eq_missing (h : (unlink location : Program ε Unit) s = .error .missing s') :
    s.volume.node location = none := by
  obtain ⟨hop, -⟩ := change_eq_missing h
  by_contra hne
  obtain ⟨node, hnode⟩ := Option.ne_none_iff_exists'.mp hne
  unfold Volume.unlink at hop
  rw [Volume.lookup_eq_ok.mpr hnode] at hop
  change (if node.content = .directory then _ else _) = _ at hop
  split at hop
  · cases hop
  · change Volume.remove _ _ = _ at hop
    unfold Volume.remove at hop
    split at hop <;> cases hop

theorem lstat_eq_ok {node : Node} (h : (lstat location : Program ε Node) s = .ok node s') :
    s.volume.node location = some node ∧ s'.volume = s.volume :=
  ⟨Volume.lookup_eq_ok.mp (ask_eq_ok h).1, (ask_eq_ok h).2⟩

theorem assert_eq_ok {condition : Bool} {failure : Trouble ε} {u : Unit}
    (h : (Checked.assert condition failure : Program ε Unit) s = .ok u s') :
    condition = true ∧ s' = s := by
  cases condition with
  | true =>
    obtain ⟨-, rfl⟩ := EStateM.Result.ok.inj h
    exact ⟨rfl, rfl⟩
  | false => cases h

theorem assert_eq_error {condition : Bool} {e failure : Trouble ε}
    (h : (Checked.assert condition failure : Program ε Unit) s = .error e s') : e = failure := by
  cases condition with
  | true => cases h
  | false => exact (EStateM.Result.error.inj h).1.symm

theorem require_eq_ok {value : Option α} {failure : Trouble ε}
    (h : (Checked.require value failure : Program ε α) s = .ok a s') :
    value = some a ∧ s' = s := by
  cases value with
  | none => cases h
  | some b =>
    obtain ⟨rfl, rfl⟩ := EStateM.Result.ok.inj h
    exact ⟨rfl, rfl⟩

theorem pure_eq_ok {a' : α} (h : (pure a : Program ε α) s = .ok a' s') : a' = a ∧ s' = s := by
  obtain ⟨rfl, rfl⟩ := EStateM.Result.ok.inj h
  exact ⟨rfl, rfl⟩

theorem stat_eq_ok {node : Node} (h : (stat location : Program ε Node) s = .ok node s') :
    s.volume.node location = some node ∧ node.content ≠ .link ∧ s'.volume = s.volume := by
  obtain ⟨info, s₁, hc₁, h₁⟩ := bind_eq_ok h
  obtain ⟨⟨⟩, s₂, hc₂, h₂⟩ := bind_eq_ok h₁
  obtain ⟨hnode, hv⟩ := lstat_eq_ok hc₁
  obtain ⟨hlink, rfl⟩ := assert_eq_ok hc₂
  obtain ⟨rfl, rfl⟩ := pure_eq_ok h₂
  exact ⟨hnode, of_decide_eq_true hlink, hv⟩

theorem adds_create {given : Node} (h : volume.create location given = .ok volume') :
    Adds (· = location) volume volume' := by
  obtain ⟨hn, -, hnode⟩ := Volume.create_spec h
  have hout : ∀ l, l ≠ location → volume'.node l = volume.node l := by
    intro l hl
    rw [hnode, if_neg hl]
  refine ⟨hout, fun l content hc ↦ ?_⟩
  rw [bytes_congr (hout l _)]
  · exact hc
  · rintro rfl
    obtain ⟨node, hsome, -⟩ := Volume.bytes_eq_some.mp hc
    rw [hn] at hsome
    cases hsome

theorem adds_alter {node node' : Node} (hn : volume.node location = some node)
    (hnode : ∀ l, volume'.node l = if l = location then some node' else volume.node l)
    (hg : node'.content = node.content) : Adds (· = location) volume volume' := by
  refine ⟨fun l hl ↦ by rw [hnode, if_neg hl], fun l content hc ↦ ?_⟩
  obtain ⟨found, hfound, hcontent⟩ := Volume.bytes_eq_some.mp hc
  by_cases hl : l = location
  · subst hl
    obtain rfl := Option.some.inj (hn.symm.trans hfound)
    exact Volume.bytes_eq_some.mpr ⟨_, by rw [hnode, if_pos rfl], hg.trans hcontent⟩
  · rw [bytes_congr ((hnode l).trans (if_neg hl))]
    exact hc

section Regions

variable {owner : Owner} {mode depth : ℕ} {content : List UInt8}

theorem mkdir_adds : Respects (Adds (· = location)) (mkdir owner location mode : Program ε Unit) :=
  .change fun _ _ ↦ adds_create

theorem chmod_adds : Respects (Adds (· = location)) (chmod location mode : Program ε Unit) := by
  refine .change fun v v' h ↦ ?_
  obtain ⟨node, hn, hnode⟩ := Volume.chmod_spec h
  exact adds_alter hn hnode rfl

theorem chown_adds : Respects (Adds (· = location)) (chown location owner : Program ε Unit) := by
  refine .change fun v v' h ↦ ?_
  obtain ⟨node, hn, hnode⟩ := Volume.chown_spec h
  exact adds_alter hn hnode rfl

theorem adds_copyBytes {length : List UInt8 → ℕ}
    (h : copyBytes owner source target length volume = .ok volume') :
    Adds (· = target) volume volume' := by
  obtain ⟨node, -, h⟩ := Effects.Guard.bind_eq_ok.mp h
  obtain ⟨content, -, h⟩ := Effects.Guard.bind_eq_ok.mp h
  exact adds_create h

theorem written_cases {op : Volume → Except Errno Volume} (h : ∀ v', op volume = .ok v' → r volume v')
    [IsPreorder Volume r] : r volume (written op volume) := by
  unfold written
  cases hop : op volume with
  | error e => exact refl_of r volume
  | ok v' => exact h v' hop

theorem copyFile_adds :
    Respects (Adds (· = target)) (copyFile owner source target : Program ε Unit) := by
  refine .call (fun progress v ↦ ?_) fun v a v' h ↦ ?_
  · split
    · exact refl_of (Adds (· = target)) v
    · exact written_cases fun v' ↦ adds_copyBytes
  · obtain ⟨_, hv, h⟩ := map_eq_ok.mp h
    obtain ⟨-, rfl⟩ := Prod.mk.inj h
    exact adds_copyBytes hv

theorem mkdirAll_adds :
    Respects (Adds (· <+: location)) (mkdirAll owner location mode : Program ε Unit) := by
  refine .forM fun way hway ↦ .bind .ask fun found ↦ ?_
  cases found with
  | none =>
    refine mkdir_adds.mono fun v v' h ↦ h.mono ?_
    rintro _ rfl
    exact (List.mem_inits _ _).mp hway
  | some node => exact .assert

theorem cp_adds :
    Respects (Adds (target <+: ·)) (cp owner depth source target : Program ε Unit) := by
  have hself : ∀ l, l = target → target <+: l := by
    rintro _ rfl
    exact List.prefix_refl _
  induction depth generalizing source target with
  | zero => exact .throw
  | succ depth ih =>
    refine .bind .ask fun info ↦ .bind ?_ fun _ ↦ chmod_adds.mono fun v v' h ↦ h.mono hself
    split
    · refine .bind (mkdir_adds.mono fun v v' h ↦ h.mono hself) fun _ ↦ .bind .ask fun names ↦ ?_
      refine .forM fun name _ ↦ (ih ?_).mono fun v v' h ↦ h.mono fun l hl ↦ ?_
      · rintro _ rfl
        exact List.prefix_refl _
      · exact (List.prefix_append ..).trans hl
    · exact copyFile_adds.mono fun v v' h ↦ h.mono hself
    · exact .change fun v v' h ↦ (adds_create h).mono hself

theorem within_of_removed (h : ∀ l, volume'.node l = if l = location then none else volume.node l) :
    Within (· = location) volume volume' :=
  fun l hl ↦ (h l).trans (if_neg hl)

theorem unlink_within : Respects (Within (· = location)) (unlink location : Program ε Unit) := by
  refine .change fun v v' h ↦ ?_
  obtain ⟨_, -, -, hnode⟩ := Volume.unlink_spec h
  exact within_of_removed hnode

theorem rmdir_within : Respects (Within (· = location)) (rmdir location : Program ε Unit) :=
  .change fun _ _ h ↦ within_of_removed (Volume.rmdir_spec h)

theorem rename_within : Respects (Within fun l ↦ source <+: l ∨ target <+: l)
    (rename source target : Program ε Unit) := by
  refine .change fun v v' h ↦ ?_
  by_cases heq : source = target
  · obtain ⟨node, -, h⟩ := Effects.Guard.bind_eq_ok.mp h
    rw [if_pos heq] at h
    obtain rfl := Except.ok.inj h
    exact refl_of (Within _) v
  · intro l hl
    rw [not_or] at hl
    exact (Volume.rename_spec h heq).2 l hl.1 hl.2

theorem within_write (h : volume.write location content = .ok volume') :
    Within (· = location) volume volume' := by
  obtain ⟨node, -, hnode⟩ := Volume.write_spec h
  exact fun l hl ↦ (hnode l).trans (if_neg hl)

theorem writeFile_within :
    Respects (Within (· = location)) (writeFile location content : Program ε Unit) := by
  refine .call (fun progress v ↦ written_cases fun v' ↦ within_write) fun v a v' h ↦ ?_
  obtain ⟨_, hv, h⟩ := map_eq_ok.mp h
  obtain ⟨-, rfl⟩ := Prod.mk.inj h
  exact within_write hv

theorem openNew_adds :
    Respects (Adds (· = location)) (openNew owner location mode : Program ε Unit) :=
  .change fun _ _ ↦ adds_create

theorem rm_within : Respects (Within (location <+: ·)) (rm depth location : Program ε Unit) := by
  have hself : ∀ l l' : Location, l = l' → l' <+: l := by
    rintro _ _ rfl
    exact List.prefix_refl _
  induction depth generalizing location with
  | zero => exact .throw
  | succ depth ih =>
    refine .bind .ask fun info ↦ .ite (fun _ ↦ ?_) fun _ ↦ ?_
    · refine .bind .ask fun names ↦ .bind (.forM fun name _ ↦ ?_) fun _ ↦ ?_
      · exact ih.mono fun v v' h ↦ h.mono fun l hl ↦ (List.prefix_append ..).trans hl
      · exact rmdir_within.mono fun v v' h ↦ h.mono fun l ↦ hself l location
    · exact unlink_within.mono fun v v' h ↦ h.mono fun l ↦ hself l location

theorem mkdtemp_adds {directory : Location} {start : Name} :
    Respects (Adds fun l ↦ ∃ suffix, l = directory ++ [start ++ suffix])
      (mkdtemp owner directory start : Program ε Location) := by
  refine .bind .draw fun suffix ↦ .bind (mkdir_adds.mono fun v v' h ↦ h.mono ?_) fun _ ↦ .pure
  rintro _ rfl
  exact ⟨suffix, rfl⟩

end Regions

section Results

variable {owner : Owner} {mode depth : ℕ} {content : List UInt8} {u : Unit}

theorem forM_eq_ok {as : List α} {turn : α → Program ε PUnit} (inv : List α → System → Prop)
    (hstep : ∀ done a rest s s', as = done ++ a :: rest → inv done s → turn a s = .ok () s' →
      inv (done ++ [a]) s')
    (hs : inv [] s) (h : as.forM turn s = .ok () s') : inv as s' := by
  suffices hall : ∀ rest done s, as = done ++ rest → inv done s →
      rest.forM turn s = .ok () s' → inv as s' from hall as [] s rfl hs h
  intro rest
  induction rest with
  | nil =>
    intro done s has hinv h
    rw [List.append_nil] at has
    obtain ⟨-, rfl⟩ := EStateM.Result.ok.inj h
    exact has ▸ hinv
  | cons a rest ih =>
    intro done s has hinv h
    obtain ⟨⟨⟩, s₁, hturn, hrest⟩ := bind_eq_ok h
    exact ih (done ++ [a]) s₁ (by rw [has, List.append_assoc]; rfl)
      (hstep done a rest s s₁ has hinv hturn) hrest

theorem openNew_eq_ok (h : (openNew owner location mode : Program ε Unit) s = .ok u s') :
    s.volume.node location = none ∧ s'.volume.bytes location = some [] := by
  obtain ⟨hn, -, hnode⟩ := Volume.create_spec (change_eq_ok h)
  exact ⟨hn, Volume.bytes_eq_some.mpr ⟨_, (hnode location).trans (if_pos rfl), rfl⟩⟩

theorem writeFile_eq_ok {old : List UInt8} (hold : s.volume.bytes location = some old)
    (h : (writeFile location content : Program ε Unit) s = .ok u s') :
    s'.volume.bytes location = some content := by
  obtain ⟨v, hwrite, hv⟩ := map_eq_ok.mp (call_eq_ok h)
  obtain ⟨-, rfl⟩ := Prod.mk.inj hv
  obtain ⟨node, hnode, hwritten⟩ := Volume.write_spec hwrite
  obtain ⟨found, hfound, hcontent⟩ := Volume.bytes_eq_some.mp hold
  obtain rfl := Option.some.inj (hnode.symm.trans hfound)
  refine Volume.bytes_eq_some.mpr ⟨_, (hwritten location).trans (if_pos rfl), ?_⟩
  rw [Disk.setBytes, hcontent]

/-- What was moved stands where it was moved to. -/
theorem rename_eq_ok (h : (rename source target : Program ε Unit) s = .ok u s')
    (rest : List Name) :
    s'.volume.node (target ++ rest) = s.volume.node (source ++ rest) := by
  have hop := change_eq_ok h
  by_cases heq : source = target
  · obtain ⟨node, -, hop⟩ := Effects.Guard.bind_eq_ok.mp hop
    rw [if_pos heq] at hop
    rw [← Except.ok.inj hop, heq]
  · exact (Volume.rename_spec hop heq).1 rest

theorem create_of_mkdir (h : (mkdir owner location mode : Program ε Unit) s = .ok u s') :
    s.volume.node location = none ∧
      s'.volume.node location = some ⟨.directory, mode, owner, 1⟩ := by
  obtain ⟨hn, -, hnode⟩ := Volume.create_spec (change_eq_ok h)
  exact ⟨hn, (hnode location).trans (if_pos rfl)⟩

theorem mkdtemp_eq_ok {directory : Location} {start : Name}
    (h : (mkdtemp owner directory start : Program ε Location) s = .ok location s') :
    (∃ suffix, location = directory ++ [start ++ suffix]) ∧ s.volume.node location = none ∧
      s'.volume.IsDirectory location ∧ Adds (· = location) s.volume s'.volume := by
  obtain ⟨suffix, s₁, hdraw, h⟩ := bind_eq_ok h
  obtain ⟨-, rfl⟩ := EStateM.Result.ok.inj hdraw
  obtain ⟨⟨⟩, s₂, hmkdir, h⟩ := bind_eq_ok h
  obtain ⟨rfl, rfl⟩ := EStateM.Result.ok.inj h
  have hadds := mkdir_adds.of_ok hmkdir
  obtain ⟨hfree, hmade⟩ := create_of_mkdir hmkdir
  exact ⟨⟨suffix, rfl⟩, hfree, ⟨_, hmade, rfl⟩, hadds⟩

theorem unlink_eq_ok (h : (unlink location : Program ε Unit) s = .ok u s') :
    s'.volume.node location = none := by
  obtain ⟨_, -, -, hnode⟩ := Volume.unlink_spec (change_eq_ok h)
  exact (hnode location).trans (if_pos rfl)

theorem copyFile_eq_ok (h : (copyFile owner source target : Program ε Unit) s = .ok u s') :
    s.volume.node target = none ∧ ∃ content, s.volume.bytes source = some content ∧
      s'.volume.bytes target = some content := by
  obtain ⟨v, h, hv⟩ := map_eq_ok.mp (call_eq_ok h)
  obtain ⟨-, rfl⟩ := Prod.mk.inj hv
  obtain ⟨node, -, h⟩ := Effects.Guard.bind_eq_ok.mp h
  obtain ⟨content, hread, h⟩ := Effects.Guard.bind_eq_ok.mp h
  obtain ⟨hn, -, hnode⟩ := Volume.create_spec h
  rw [List.take_length] at hnode
  exact ⟨hn, content, Volume.readFile_eq_ok.mp hread,
    Volume.bytes_eq_some.mpr ⟨_, (hnode target).trans (if_pos rfl), rfl⟩⟩

theorem not_below (hst : ¬source <+: target) (hts : ¬target <+: source) (rest : List Name) :
    ¬target <+: source ++ rest := by
  intro h
  rcases List.prefix_or_prefix_of_prefix h (List.prefix_append source rest) with h | h
  · exact hts h
  · exact hst h

/-- Whatever file there is at the source has a copy, once the copying has succeeded. -/
theorem cp_eq_ok (hst : ¬source <+: target) (hts : ¬target <+: source)
    (h : (cp owner depth source target : Program ε Unit) s = .ok u s') (rest : List Name)
    (hc : s.volume.bytes (source ++ rest) = some content) :
    s'.volume.bytes (target ++ rest) = some content := by
  induction depth generalizing source target s s' u rest content with
  | zero => cases h
  | succ depth ih =>
    obtain ⟨info, s₁, hinfo, h⟩ := bind_eq_ok h
    obtain ⟨hnode, hv₁⟩ := lstat_eq_ok hinfo
    obtain ⟨⟨⟩, s₂, hcopy, hmode⟩ := bind_eq_ok h
    refine (chmod_adds.of_ok hmode).kept _ _ ?_
    obtain ⟨found, hfound, hf⟩ : ∃ found, s.volume.node (source ++ rest) = some found ∧
        found.content = .file content := Volume.bytes_eq_some.mp hc
    cases hcontent : info.content with
    | directory =>
      rw [hcontent] at hcopy
      obtain ⟨⟨⟩, s₃, hmkdir, hcopy⟩ := bind_eq_ok hcopy
      obtain ⟨names, s₄, hnames, hcopy⟩ := bind_eq_ok hcopy
      obtain ⟨hread, hv₄⟩ := ask_eq_ok hnames
      have hout : ∀ rest, s₄.volume.node (source ++ rest) = s.volume.node (source ++ rest) := by
        intro rest
        rw [hv₄, (mkdir_adds.of_ok hmkdir).within, hv₁]
        intro heq
        exact hst ⟨rest, heq⟩
      cases rest with
      | nil =>
        rw [List.append_nil, hnode] at hfound
        rw [← Option.some.inj hfound, hcontent] at hf
        cases hf
      | cons name rest =>
        have hname : name ∈ names := by
          rw [← (Volume.readdir_eq_ok.mp hread).2, ← hv₄, Volume.mem_names, hout]
          intro hnone
          rw [List.append_cons, Volume.node_append_eq_none hnone] at hfound
          cases hfound
        have hloop := forM_eq_ok (fun done s' ↦ Within (target <+: ·) s₄.volume s'.volume ∧
            ∀ name ∈ done, ∀ rest content, s₄.volume.bytes (source ++ name :: rest) = some content →
              s'.volume.bytes (target ++ name :: rest) = some content)
          (fun done name _ s₅ s₆ _ hinv hturn ↦ by
            have hadds := cp_adds.of_ok hturn
            refine ⟨trans_of (Within (target <+: ·)) hinv.1
              (hadds.within.mono fun l hl ↦ (List.prefix_append ..).trans hl), ?_⟩
            intro name' hname' rest content hc
            rcases List.mem_append.mp hname' with hdone | heq
            · exact hadds.kept _ _ (hinv.2 name' hdone rest content hc)
            · rw [List.mem_singleton.mp heq] at hc ⊢
              rw [List.append_cons]
              refine ih (fun hp ↦ ?_) (fun hp ↦ ?_) hturn rest ?_
              · exact not_below hts hst [name] ((List.prefix_append ..).trans hp)
              · exact not_below hst hts [name] ((List.prefix_append ..).trans hp)
              · rw [← List.append_cons, bytes_congr (hinv.1 _ (not_below hst hts _))]
                exact hc)
          ⟨refl_of (Within _) _, by simp⟩ hcopy
        refine hloop.2 name hname rest content ?_
        rw [bytes_congr (hout _)]
        exact hc
    | file bytes =>
      rw [hcontent] at hcopy
      obtain rfl := Volume.eq_nil_of_node hnode (by simp [hcontent]) hfound
      obtain ⟨-, bytes', hbytes, hcopied⟩ := copyFile_eq_ok hcopy
      rw [hv₁, ← List.append_nil source, hc] at hbytes
      rw [List.append_nil, hcopied, hbytes]
    | link =>
      obtain rfl := Volume.eq_nil_of_node hnode (by simp [hcontent]) hfound
      rw [List.append_nil, hnode] at hfound
      rw [← Option.some.inj hfound, hcontent] at hf
      cases hf
    | special =>
      obtain rfl := Volume.eq_nil_of_node hnode (by simp [hcontent]) hfound
      rw [List.append_nil, hnode] at hfound
      rw [← Option.some.inj hfound, hcontent] at hf
      cases hf

end Results

end Calls

/-- No call is stopped. -/
def System.Undisturbed (s : System) : Prop := ∀ fate ∈ s.fates, fate = .done

theorem System.Undisturbed.tail {s : System} (h : s.Undisturbed) {volume : Volume} :
    System.Undisturbed { s with volume := volume, fates := s.fates.tail } :=
  fun fate hm ↦ h fate (List.mem_of_mem_tail hm)

namespace Calls

variable {ε α β : Type} {volume : Volume} {location : Location} {x : Program ε α}
  {f : α → Program ε β} {a : α} {b : β} {s s' : System}

theorem call_of_undisturbed {halfway : ℕ → Volume → Volume}
    {op : Volume → Except Errno (α × Volume)} (h : s.Undisturbed) :
    (call halfway op : Program ε α) s = match op s.volume with
      | .ok (a, volume) => .ok a { s with volume := volume, fates := s.fates.tail }
      | .error errno => .error (refusal errno) { s with fates := s.fates.tail } := by
  have hhead : ∀ fate ∈ s.fates.head?, fate = .done := fun fate hm ↦
    h fate (List.mem_of_mem_head? hm)
  unfold call
  cases hfate : s.fates.head? with
  | none => rfl
  | some fate =>
    obtain rfl := hhead fate hfate
    rfl

/-- Undisturbed, the program comes to a result, and changes nothing. -/
def Finds (x : Program ε α) (volume : Volume) (a : α) : Prop :=
  ∀ s : System, s.volume = volume → s.Undisturbed →
    ∃ s', x s = .ok a s' ∧ s'.volume = volume ∧ s'.Undisturbed

namespace Finds

theorem pure : Finds (pure a : Program ε α) volume a := fun s hv hs ↦ ⟨s, rfl, hv, hs⟩

theorem bind (hx : Finds x volume a) (hf : Finds (f a) volume b) :
    Finds (x >>= f) volume b := by
  intro s hv hs
  obtain ⟨s₁, hs₁, hv₁, hd₁⟩ := hx s hv hs
  obtain ⟨s₂, hs₂, hv₂, hd₂⟩ := hf s₁ hv₁ hd₁
  exact ⟨s₂, (Effects.Loop.bind_ok hs₁).trans hs₂, hv₂, hd₂⟩

theorem ite {condition : Prop} [Decidable condition] {x y : Program ε α}
    (hx : condition → Finds x volume a) (hy : ¬condition → Finds y volume a) :
    Finds (if condition then x else y) volume a := by
  split
  · next h => exact hx h
  · next h => exact hy h

theorem forM {as : List α} {turn : α → Program ε PUnit}
    (h : ∀ a ∈ as, Finds (turn a) volume ()) : Finds (as.forM turn) volume () := by
  induction as with
  | nil => exact pure
  | cons a as ih =>
    exact bind (h a List.mem_cons_self) (ih fun a ha ↦ h a (List.mem_cons_of_mem _ ha))

theorem assert {condition : Bool} {failure : Trouble ε} (h : condition = true) :
    Finds (Checked.assert condition failure) volume () := by
  rw [Checked.assert, if_pos h]
  exact pure

theorem require {value : Option α} {failure : Trouble ε} (h : value = some a) :
    Finds (Checked.require value failure) volume a := by
  subst h
  exact pure

theorem ask {op : Volume → Except Errno α} (h : op volume = .ok a) :
    Finds (ask op : Program ε α) volume a := by
  intro s hv hs
  subst hv
  refine ⟨{ s with fates := s.fates.tail }, ?_, rfl, hs.tail⟩
  rw [Calls.ask, call_of_undisturbed hs, h]
  rfl

theorem lstat {node : Node} (h : volume.node location = some node) :
    Finds (lstat location : Program ε Node) volume node :=
  .ask (Volume.lookup_eq_ok.mpr h)

theorem stat {node : Node} (h : volume.node location = some node) (hl : node.content ≠ .link) :
    Finds (stat location : Program ε Node) volume node :=
  .bind (.lstat h) (.bind (.assert (decide_eq_true hl)) .pure)

theorem readFile {content : List UInt8} (h : volume.bytes location = some content) :
    Finds (readFile location : Program ε (List UInt8)) volume content :=
  .ask (Volume.readFile_eq_ok.mpr h)

theorem readdir (h : volume.IsDirectory location) :
    Finds (readdir location : Program ε (List Name)) volume (volume.names location) :=
  .ask (Volume.readdir_eq_ok.mpr ⟨h, rfl⟩)

end Finds

theorem call_undisturbed {halfway : ℕ → Volume → Volume}
    {op : Volume → Except Errno (α × Volume)} :
    Preserves System.Undisturbed (call halfway op : Program ε α) := by
  intro s hs
  rw [Ends, call_of_undisturbed hs]
  cases op s.volume with
  | ok result => exact hs.tail
  | error errno => exact hs.tail

theorem ask_undisturbed {op : Volume → Except Errno α} :
    Preserves System.Undisturbed (ask op : Program ε α) :=
  call_undisturbed

theorem change_undisturbed {op : Volume → Except Errno Volume} :
    Preserves System.Undisturbed (change op : Program ε Unit) :=
  call_undisturbed

theorem assert_undisturbed {condition : Bool} {failure : Trouble ε} :
    Preserves System.Undisturbed (Checked.assert condition failure) := by
  cases condition with
  | true => exact .pure
  | false => exact .throw

theorem forM_undisturbed {as : List α} {turn : α → Program ε PUnit}
    (h : ∀ a ∈ as, Preserves System.Undisturbed (turn a)) :
    Preserves System.Undisturbed (as.forM turn) := by
  induction as with
  | nil => exact .pure
  | cons a as ih =>
    exact .bind (h a List.mem_cons_self) fun _ ↦ ih fun a ha ↦ h a (List.mem_cons_of_mem _ ha)

theorem stat_undisturbed : Preserves System.Undisturbed (stat location : Program ε Node) :=
  .bind ask_undisturbed fun _ ↦ .bind assert_undisturbed fun _ ↦ .pure

theorem mkdirAll_undisturbed {owner : Owner} {mode : ℕ} :
    Preserves System.Undisturbed (mkdirAll owner location mode : Program ε Unit) := by
  refine forM_undisturbed fun way _ ↦ .bind ask_undisturbed fun found ↦ ?_
  cases found with
  | none => exact change_undisturbed
  | some node => exact assert_undisturbed

end Calls

end RustdeskConsole.Posix
