import Mathlib.Data.List.Infix
import Mathlib.Data.List.Nodup
import Mathlib.Logic.Function.Basic
import Mathlib.Logic.Relation

namespace RustdeskConsole.Posix.Durability

open Function Relation

variable {N A α : Type}

/-- A file system behind a cache. What a name leads to is `entry`, but until its
directory is synchronized a loss of power may bring back one of the `older`
entries; until a file is synchronized it may leave anything of its content. -/
structure Cache (N A : Type) where
  entry : N → Option ℕ
  older : N → List (Option ℕ)
  content : ℕ → A
  firm : ℕ → Bool
  next : ℕ

/-- What a loss of power makes of what was not synchronized. -/
structure Loss (N A : Type) where
  entry : N → Option ℕ
  content : ℕ → A

namespace Cache

def candidates (cache : Cache N A) (name : N) : List (Option ℕ) :=
  cache.entry name :: cache.older name

def read (cache : Cache N A) (name : N) : Option A := (cache.entry name).map cache.content

def write (cache : Cache N A) (inode : ℕ) (a : A) : Cache N A :=
  { cache with
    content := update cache.content inode a
    firm := update cache.firm inode false }

def sync (cache : Cache N A) (inode : ℕ) : Cache N A :=
  { cache with firm := update cache.firm inode true }

def syncNames (cache : Cache N A) (names : N → Bool) : Cache N A :=
  { cache with older := fun name ↦ if names name then [] else cache.older name }

def lose (cache : Cache N A) (loss : Loss N A) : Cache N A where
  entry name :=
    if loss.entry name ∈ cache.candidates name then loss.entry name else cache.entry name
  older _ := []
  content inode := if cache.firm inode then cache.content inode else loss.content inode
  firm _ := true
  next := cache.next

variable [DecidableEq N]

def create (cache : Cache N A) (name : N) (a : A) : Cache N A where
  entry := update cache.entry name (some cache.next)
  older := update cache.older name (cache.candidates name)
  content := update cache.content cache.next a
  firm := update cache.firm cache.next false
  next := cache.next + 1

/-- `rename`, which replaces what the target led to. -/
def rename (cache : Cache N A) (source target : N) : Cache N A :=
  { cache with
    entry := update (update cache.entry target (cache.entry source)) source none
    older := update (update cache.older target (cache.candidates target)) source
      (cache.candidates source) }

end Cache

/-- What a file is for: the versions that were put in place, newest first, and
those of them that no loss of power takes back. -/
structure Register (α : Type) where
  log : List α
  sure : List α
  suffix : sure <:+ log

namespace Register

def empty : Register α := ⟨[], [], List.suffix_rfl⟩

def publish (r : Register α) (a : α) : Register α :=
  ⟨a :: r.log, r.sure, r.suffix.trans (List.suffix_cons ..)⟩

def settle (r : Register α) : Register α := ⟨r.log, r.log, List.suffix_rfl⟩

/-- A loss of power takes back the newest versions, but none that is sure. -/
structure Loses (r r' : Register α) : Prop where
  log : r'.log <:+ r.log
  sure : r'.sure = r.sure

/-- What becomes of a register whose versions all satisfy `P`. -/
inductive Moves (P : α → Prop) : Register α → Register α → Prop
  | publish {r : Register α} {a : α} : P a → Moves P r (r.publish a)
  | settle {r : Register α} : Moves P r r.settle
  | lose {r r' : Register α} : r.Loses r' → Moves P r r'

abbrev Evolves (P : α → Prop) : Register α → Register α → Prop := ReflTransGen (Moves P)

variable {P : α → Prop} {r r' : Register α} {a : α}

theorem Moves.sure (h : Moves P r r') : r.sure <:+ r'.sure := by
  cases h with
  | publish => exact List.suffix_rfl
  | settle => exact r.suffix
  | lose hl => exact hl.sure ▸ List.suffix_rfl

/-- What is sure once is sure for ever, in its place. -/
theorem Evolves.sure (h : Evolves P r r') : r.sure <:+ r'.sure := by
  induction h with
  | refl => exact List.suffix_rfl
  | tail _ hm ih => exact ih.trans hm.sure

/-- A version that is sure gives way to newer ones only. -/
theorem Evolves.log (h : Evolves P r r') (ha : a ∈ r.sure) :
    ∃ newer older, r'.log = newer ++ a :: older ∧ a :: older <:+ r.sure := by
  obtain ⟨later, older, hsure⟩ := List.append_of_mem ha
  have ha' : a :: older <:+ r.sure := ⟨later, hsure.symm⟩
  obtain ⟨newer, hlog⟩ := (ha'.trans h.sure).trans r'.suffix
  exact ⟨newer, older, hlog.symm, ha'⟩

/-- The versions down to the first that `keep` holds of, and never less than is
sure. -/
def cut (r : Register α) (keep : α → Bool) : Register α :=
  if h : r.sure.length ≤ (r.log.dropWhile fun a ↦ !keep a).length then
    ⟨r.log.dropWhile fun a ↦ !keep a, r.sure,
      List.suffix_of_suffix_length_le r.suffix (List.dropWhile_suffix _) h⟩
  else r

theorem loses_cut (r : Register α) (keep : α → Bool) : r.Loses (r.cut keep) := by
  unfold cut
  split
  · exact ⟨List.dropWhile_suffix _, rfl⟩
  · exact ⟨List.suffix_rfl, rfl⟩

end Register

/-- What a name leads to when these versions of it are in place. -/
def top (inode : α → ℕ) (base : Option (ℕ × A)) (log : List α) : Option ℕ :=
  (log.head?.map inode).or (base.map Prod.fst)

/-- The content of a name when these versions of it are in place. -/
def shown (value : α → A) (base : Option (ℕ × A)) (log : List α) : Option A :=
  (log.head?.map value).or (base.map Prod.snd)

/-- A name follows a register: it leads to the newest version, and would lead to
one that is at least sure after a loss of power. -/
structure Follows (cache : Cache N A) (name : N) (inode : α → ℕ) (value : α → A)
    (base : Option (ℕ × A)) (r : Register α) : Prop where
  current : cache.entry name = top inode base r.log
  older : ∀ e ∈ cache.older name, ∃ log, log <:+ r.log ∧ r.sure <:+ log ∧ e = top inode base log
  nodup : (r.log.map inode).Nodup
  firm : ∀ a ∈ r.log, cache.firm (inode a) = true ∧ cache.content (inode a) = value a
  known : ∀ a ∈ r.log, inode a < cache.next
  base : ∀ i a, base = some (i, a) → cache.firm i = true ∧ cache.content i = a ∧ i < cache.next ∧
    i ∉ r.log.map inode

section Top

variable {inode : α → ℕ} {value : α → A} {base : Option (ℕ × A)} {log log' : List α} {a : α}

@[simp] theorem top_cons : top inode base (a :: log) = some (inode a) := rfl

@[simp] theorem top_nil : top inode base [] = base.map Prod.fst := rfl

@[simp] theorem shown_cons : shown value base (a :: log) = some (value a) := rfl

@[simp] theorem shown_nil : shown value base [] = base.map Prod.snd := rfl

/-- Down to the version that a name leads to, the versions are the ones that were
in place when it did. -/
theorem dropWhile_eq (hs : log' <:+ log) (hn : (log.map inode).Nodup)
    (hb : ∀ i a, base = some (i, a) → i ∉ log.map inode) :
    log.dropWhile (fun a ↦ !decide (some (inode a) = top inode base log')) = log' := by
  induction log with
  | nil => exact (List.suffix_nil.mp hs).symm
  | cons b log ih =>
    rw [List.map_cons, List.nodup_cons] at hn
    rcases List.suffix_cons_iff.mp hs with rfl | hs
    · simp
    · have hne : some (inode b) ≠ top inode base log' := by
        cases log' with
        | nil =>
          intro heq
          obtain ⟨⟨i, a⟩, hbase, hi⟩ := Option.map_eq_some_iff.mp heq.symm
          exact hb i a hbase (by rw [List.map_cons, ← hi]; exact List.mem_cons_self)
        | cons c log' =>
          intro heq
          rw [top_cons, Option.some.injEq] at heq
          exact hn.1 (heq ▸ List.mem_map_of_mem (hs.subset List.mem_cons_self))
      rw [List.dropWhile_cons_of_pos (by simpa using hne)]
      exact ih hs hn.2 fun i a hbase hm ↦ hb i a hbase (List.mem_cons_of_mem _ hm)

end Top

namespace Follows

variable {cache : Cache N A} {name other : N} {inode : α → ℕ} {value : α → A}
  {base : Option (ℕ × A)} {r : Register α} {i : ℕ} {a : A}

/-- What is read of the name is the newest version, whole. -/
theorem read (h : Follows cache name inode value base r) :
    cache.read name = shown value base r.log := by
  rw [Cache.read, h.current]
  rcases hlog : r.log with _ | ⟨b, log⟩
  · rw [top_nil, shown_nil]
    rcases hbase : base with _ | ⟨i, a⟩
    · rfl
    · rw [Option.map_some, Option.map_some, Option.map_some, (h.base i a hbase).2.1]
  · rw [top_cons, shown_cons, Option.map_some, (h.firm b (hlog ▸ List.mem_cons_self)).2]

/-- The files that a name may lead to. -/
def Holds (inode : α → ℕ) (base : Option (ℕ × A)) (r : Register α) (i : ℕ) : Prop :=
  i ∈ r.log.map inode ∨ ∃ a, base = some (i, a)

theorem lt_next (h : Follows cache name inode value base r) (hi : Holds inode base r i) :
    i < cache.next := by
  rcases hi with hi | ⟨a, hbase⟩
  · obtain ⟨b, hb, rfl⟩ := List.mem_map.mp hi
    exact h.known b hb
  · exact (h.base i a hbase).2.2.1

/-- What is done to files that the name cannot lead to does not matter. -/
theorem of_files {cache' : Cache N A} (h : Follows cache name inode value base r)
    (he : cache'.entry name = cache.entry name) (ho : cache'.older name = cache.older name)
    (hn : cache.next ≤ cache'.next)
    (hf : ∀ i, Holds inode base r i →
      cache'.firm i = cache.firm i ∧ cache'.content i = cache.content i) :
    Follows cache' name inode value base r where
  current := he.trans h.current
  older := ho ▸ h.older
  nodup := h.nodup
  firm b hb := by
    obtain ⟨hfirm, hcontent⟩ := hf _ (.inl (List.mem_map_of_mem hb))
    rw [hfirm, hcontent]
    exact h.firm b hb
  known b hb := Nat.lt_of_lt_of_le (h.known b hb) hn
  base i a hbase := by
    obtain ⟨hfirm, hcontent⟩ := hf i (.inr ⟨a, hbase⟩)
    obtain ⟨h₁, h₂, h₃, h₄⟩ := h.base i a hbase
    exact ⟨hfirm.trans h₁, hcontent.trans h₂, Nat.lt_of_lt_of_le h₃ hn, h₄⟩

theorem write (h : Follows cache name inode value base r) (hi : ¬Holds inode base r i) :
    Follows (cache.write i a) name inode value base r := by
  refine h.of_files rfl rfl (Nat.le_refl _) fun j hj ↦ ?_
  have hne : j ≠ i := fun heq ↦ hi (heq ▸ hj)
  exact ⟨update_of_ne hne .., update_of_ne hne ..⟩

theorem sync (h : Follows cache name inode value base r) (hi : ¬Holds inode base r i) :
    Follows (cache.sync i) name inode value base r := by
  refine h.of_files rfl rfl (Nat.le_refl _) fun j hj ↦ ?_
  have hne : j ≠ i := fun heq ↦ hi (heq ▸ hj)
  exact ⟨update_of_ne hne .., rfl⟩

/-- What the versions were is all the same for a name whose directory is not
synchronized. -/
theorem syncNames {names : N → Bool} (h : Follows cache name inode value base r) :
    Follows (cache.syncNames names) name inode value base
      (if names name then r.settle else r) := by
  split
  · next hname =>
    refine ⟨h.current, fun e he ↦ ?_, h.nodup, h.firm, h.known, h.base⟩
    rw [Cache.syncNames] at he
    simp [hname] at he
  · next hname =>
    refine ⟨h.current, fun e he ↦ h.older e ?_, h.nodup, h.firm, h.known, h.base⟩
    simpa [Cache.syncNames, hname] using he

theorem candidates (h : Follows cache name inode value base r) {e : Option ℕ}
    (he : e ∈ cache.candidates name) :
    ∃ log, log <:+ r.log ∧ r.sure <:+ log ∧ e = top inode base log := by
  rcases List.mem_cons.mp he with rfl | he
  · exact ⟨r.log, List.suffix_rfl, r.suffix, h.current⟩
  · exact h.older e he

/-- A loss of power leaves the name with versions that it had, and with all that
are sure. -/
theorem lose (h : Follows cache name inode value base r) (loss : Loss N A) :
    Follows (cache.lose loss) name inode value base
      (r.cut fun b ↦ decide (some (inode b) = (cache.lose loss).entry name)) := by
  have he : (cache.lose loss).entry name ∈ cache.candidates name := by
    rw [Cache.lose]
    dsimp only
    split
    · assumption
    · exact List.mem_cons_self
  obtain ⟨log, hlog, hsure, htop⟩ := h.candidates he
  have hcut : (r.cut fun b ↦ decide (some (inode b) = (cache.lose loss).entry name)).log = log := by
    have hdrop := dropWhile_eq hlog h.nodup fun i a hbase ↦ (h.base i a hbase).2.2.2
    rw [Register.cut, htop]
    simp only [hdrop, dif_pos hsure.length_le]
  refine ⟨hcut ▸ htop, fun e hm ↦ ?_, ?_, fun b hb ↦ ?_, fun b hb ↦ ?_, fun i a hbase ↦ ?_⟩
  · cases hm
  · rw [hcut]
    exact h.nodup.sublist (hlog.sublist.map inode)
  · obtain ⟨hfirm, hcontent⟩ := h.firm b (hlog.subset (hcut ▸ hb))
    exact ⟨rfl, (if_pos hfirm).trans hcontent⟩
  · exact h.known b (hlog.subset (hcut ▸ hb))
  · obtain ⟨hfirm, hcontent, hlt, hni⟩ := h.base i a hbase
    refine ⟨rfl, (if_pos hfirm).trans hcontent, hlt, fun hm ↦ hni ?_⟩
    rw [hcut] at hm
    exact (hlog.sublist.map inode).subset hm

variable [DecidableEq N]

theorem create (h : Follows cache name inode value base r) (hne : name ≠ other) :
    Follows (cache.create other a) name inode value base r := by
  refine h.of_files (update_of_ne hne ..) (update_of_ne hne ..) (Nat.le_succ _) fun j hj ↦ ?_
  have hj : j ≠ cache.next := Nat.ne_of_lt (h.lt_next hj)
  exact ⟨update_of_ne hj .., update_of_ne hj ..⟩

theorem rename_of_ne {source target : N} (h : Follows cache name inode value base r)
    (hs : name ≠ source) (ht : name ≠ target) :
    Follows (cache.rename source target) name inode value base r :=
  h.of_files ((update_of_ne hs ..).trans (update_of_ne ht ..))
    ((update_of_ne hs ..).trans (update_of_ne ht ..)) (Nat.le_refl _) fun _ _ ↦ ⟨rfl, rfl⟩

/-- A file that was synchronized is renamed to the name, which then has a new
version. -/
theorem rename {source : N} {b : α} (h : Follows cache name inode value base r)
    (hne : name ≠ source) (hsource : cache.entry source = some (inode b))
    (hfirm : cache.firm (inode b) = true) (hcontent : cache.content (inode b) = value b)
    (hlt : inode b < cache.next) (hnew : ¬Holds inode base r (inode b)) :
    Follows (cache.rename source name) name inode value base (r.publish b) where
  current := by
    change update (update cache.entry name (cache.entry source)) source none name = some (inode b)
    rw [update_of_ne hne, update_self, hsource]
  older e he := by
    have hc : e ∈ cache.candidates name := by
      change e ∈ update (update cache.older name (cache.candidates name)) source _ name at he
      rwa [update_of_ne hne, update_self] at he
    obtain ⟨log, hlog, hsure, htop⟩ := h.candidates hc
    exact ⟨log, hlog.trans (List.suffix_cons ..), hsure, htop⟩
  nodup := by
    change (inode b :: r.log.map inode).Nodup
    rw [List.nodup_cons]
    exact ⟨fun hm ↦ hnew (.inl hm), h.nodup⟩
  firm c hc := by
    rcases List.mem_cons.mp hc with rfl | hc
    · exact ⟨hfirm, hcontent⟩
    · exact h.firm c hc
  known c hc := by
    rcases List.mem_cons.mp hc with rfl | hc
    · exact hlt
    · exact h.known c hc
  base i a hbase := by
    obtain ⟨h₁, h₂, h₃, h₄⟩ := h.base i a hbase
    refine ⟨h₁, h₂, h₃, fun hm ↦ ?_⟩
    rcases List.mem_cons.mp hm with rfl | hm
    · exact hnew (.inr ⟨a, hbase⟩)
    · exact h₄ hm

end Follows

end RustdeskConsole.Posix.Durability
