import RustdeskConsole.AddressBooks.Profiles

namespace RustdeskConsole.AddressBooks

open Accounts (Failure)
open Auth (truthy)
open Collections Effects Effects.Checked Relation
open AddressBookPermissionService AddressBookRuleService

variable {s s' s₀ : Store} {o : Choice} {book : AddressBook} {guid owner userId : String}
  {request : Request}

/-- No two address books of one owner, other than personal ones, have the same name. -/
def NamesUnique (s : Store) : Prop :=
  ∀ a ∈ s.addressBooks, ∀ b ∈ s.addressBooks, a.isPersonal = false → b.isPersonal = false →
    a.owner = b.owner → a.name = b.name → a.guid = b.guid

/-- Among the books of the owner, only the one of that guid may have the name. -/
def Free (s : Store) (guid owner : String) (name : Option String) : Prop :=
  ∀ other ∈ s.addressBooks, other.isPersonal = false → other.owner = owner →
    other.name = name → other.guid = guid

instance {name : Option String} : Decidable (Free s guid owner name) :=
  inferInstanceAs (Decidable (∀ other ∈ s.addressBooks, _ → _ → _ → _))

/-- A book whose owner changes while its name does not takes no name that the new
owner has already given. -/
def Clear (s : Store) : Request → Prop
  | .updateShared dto _ => dto.name = none → ∀ book, findSharedAddressBook s dto.guid = some book →
      ∀ owner, dto.owner = some (some owner) → owner ≠ book.owner →
      Free s book.guid owner book.name
  | _ => True

/-- Guids are primary keys, and no user has the empty one. -/
structure Identified (s : Store) : Prop where
  guids : (s.addressBooks.map (·.guid)).Nodup
  users : s.user? "" = none

def Fresh (s : Store) (o : Choice) : Prop := ∀ book ∈ s.addressBooks, book.guid ≠ o.guid

instance : Decidable (Fresh s o) :=
  inferInstanceAs (Decidable (∀ book ∈ s.addressBooks, book.guid ≠ o.guid))

/-- Users and rules that come and go by requests of other kinds. -/
structure Elsewhere (s s' : Store) : Prop where
  addressBooks : s'.addressBooks = s.addressBooks
  users : s'.user? "" = none

/-- One request after the other, with the guid of a new book drawn afresh. -/
def Step (s s' : Store) : Prop :=
  Elsewhere s s' ∨ ∃ o request, Fresh s o ∧ s' = finalState (serve o request) s

def ClearStep (s s' : Store) : Prop :=
  Elsewhere s s' ∨ ∃ o request, Fresh s o ∧ Clear s request ∧ s' = finalState (serve o request) s

structure Named (s : Store) : Prop extends Identified s where
  unique : NamesUnique s

section Saves

theorem Named.of_eq (h : Named s) (hb : s'.addressBooks = s.addressBooks)
    (hu : s'.user? "" = none) : Named s' := by
  obtain ⟨users, books, rules⟩ := s'
  subst hb
  exact ⟨⟨h.guids, hu⟩, h.unique⟩

theorem Named.delete (h : Named s) (guids : List String) : Named (s.deleteAddressBooks guids) where
  guids := (List.filter_sublist.map _).nodup h.guids
  users := h.users
  unique a ha b hb := h.unique a (List.mem_of_mem_filter ha) b (List.mem_of_mem_filter hb)

theorem Named.create (h : Named s) (hfresh : ∀ row ∈ s.addressBooks, row.guid ≠ book.guid)
    (hf : ∀ other ∈ s.addressBooks, other.isPersonal = false → other.owner = book.owner →
      other.name ≠ book.name) : Named { s with addressBooks := book :: s.addressBooks } where
  guids := by
    rw [List.map_cons, List.nodup_cons, List.mem_map]
    exact ⟨fun ⟨row, hm, heq⟩ ↦ hfresh row hm heq, h.guids⟩
  users := h.users
  unique a ha b hb hpa hpb ho hn := by
    rcases List.mem_cons.mp ha with rfl | hma <;> rcases List.mem_cons.mp hb with rfl | hmb
    · rfl
    · exact absurd hn.symm (hf b hmb hpb ho.symm)
    · exact absurd hn (hf a hma hpa ho)
    · exact h.unique a hma b hmb hpa hpb ho hn

theorem mem_saveAddressBook {row : AddressBook} (hm : row ∈ (s.saveAddressBook book).addressBooks) :
    row = book ∨ row ∈ s.addressBooks ∧ row.guid ≠ book.guid := by
  obtain ⟨old, hold, rfl⟩ := List.mem_map.mp hm
  split
  · exact .inl rfl
  · next hne => exact .inr ⟨hold, hne⟩

theorem Identified.save (h : Identified s) (book : AddressBook) : Identified (s.saveAddressBook book) where
  guids := by
    rw [Store.saveAddressBook, List.map_map]
    refine (List.map_congr_left fun row _ ↦ ?_) ▸ h.guids
    rw [Function.comp_apply]
    split
    · next heq => exact heq
    · rfl
  users := h.users

/-- A saved book keeps the names unique if and only if no other stands in its way. -/
theorem NamesUnique.save_iff (h : NamesUnique s) (hm : ∃ row ∈ s.addressBooks, row.guid = book.guid)
    (hp : book.isPersonal = false) :
    NamesUnique (s.saveAddressBook book) ↔ Free s book.guid book.owner book.name := by
  constructor
  · intro hs row hrow hpr ho hn
    by_contra hne
    obtain ⟨old, hold, hg⟩ := hm
    have hself : book ∈ (s.saveAddressBook book).addressBooks :=
      List.mem_map.mpr ⟨old, hold, if_pos hg⟩
    have hstays : row ∈ (s.saveAddressBook book).addressBooks :=
      List.mem_map.mpr ⟨row, hrow, if_neg hne⟩
    exact hne (hs row hstays book hself hpr hp ho hn)
  · intro hf a ha b hb hpa hpb ho hn
    rcases mem_saveAddressBook ha with rfl | ⟨hma, -⟩ <;>
      rcases mem_saveAddressBook hb with rfl | ⟨hmb, -⟩
    · rfl
    · exact (hf b hmb hpb ho.symm hn.symm).symm
    · exact hf a hma hpa ho hn
    · exact h a hma b hmb hpa hpb ho hn

theorem NamesUnique.free (h : NamesUnique s) (hm : book ∈ s.addressBooks)
    (hp : book.isPersonal = false) : Free s book.guid book.owner book.name :=
  fun other hother hpo ho hn ↦ h other hother book hm hpo hp ho hn

theorem Named.save (h : Named s) (hm : ∃ row ∈ s.addressBooks, row.guid = book.guid)
    (hp : book.isPersonal = false) (hf : Free s book.guid book.owner book.name) :
    Named (s.saveAddressBook book) :=
  ⟨h.toIdentified.save book, (h.unique.save_iff hm hp).mpr hf⟩

end Saves

section Requests

theorem findNamed_none {name : String} (h : (s.findNamed name owner).isNone = true) :
    ∀ other ∈ s.addressBooks, other.isPersonal = false → other.owner = owner →
      other.name ≠ some name := by
  intro other hm hp ho hn
  have hno := List.find?_eq_none.mp (Option.isNone_iff_eq_none.mp h) other hm
  simp [hp, ho, hn] at hno

theorem findNamed_all (hs : NamesUnique s) {name : String}
    (h : (s.findNamed name owner).all (·.guid = guid) = true) :
    Free s guid owner (some name) := by
  intro other hm hp ho hn
  cases hf : s.findNamed name owner with
  | none => exact absurd hn (findNamed_none (Option.isNone_iff_eq_none.mpr hf) other hm hp ho)
  | some found =>
    rw [hf, Option.all_some, decide_eq_true_eq] at h
    have hfound := List.find?_some hf
    simp only [Bool.and_eq_true, decide_eq_true_eq, Bool.not_eq_true'] at hfound
    rw [← h]
    exact hs other hm found (List.mem_of_find?_eq_some hf) hp hfound.2
      (ho.trans hfound.1.2.symm) (hn.trans hfound.1.1.symm)

theorem ignore_ends {α : Type} {x : Handler α} {P : Store → Prop} (h : Ends x s fun _ ↦ P) :
    Ends (ignore x) s fun _ ↦ P :=
  h.bind (fun _ _ hs ↦ .pure hs) fun _ _ hs ↦ hs

theorem trimmed_ends {name : String} : Ends (trimmed name) s fun _ s' ↦ s' = s :=
  assert_bind rfl fun _ ↦ .pure rfl

theorem createAddressBookProfile_ends {name : String} {isShared : Bool}
    {note password : Option String} (h : Named s) (hfresh : Fresh s o) :
    Ends (createAddressBookProfile o name owner isShared note password) s fun _ ↦ Named := by
  refine trimmed_ends.bind (fun trimmedName s₁ hs₁ ↦ ?_) fun _ _ heq ↦ heq ▸ h
  obtain rfl : s = s₁ := hs₁.symm
  refine .get_bind (assert_bind h fun hnone ↦ reply_bind (fun _ ↦ h) fun _ _ ↦ ?_)
  exact .modify_bind (.pure (h.create hfresh (findNamed_none hnone)))

theorem assertName_ends {name : String} (hs : NamesUnique s) :
    Ends (assertName name owner guid) s fun r s' ↦ s' = s ∧ ∀ trimmedName, r = .ok trimmedName →
      Free s guid owner (some trimmedName) := by
  refine trimmed_ends.bind (fun trimmedName s₁ hs₁ ↦ ?_) fun _ _ heq ↦ ⟨heq, by simp⟩
  obtain rfl : s = s₁ := hs₁.symm
  refine .get_bind (assert_bind ⟨rfl, by simp⟩ fun hall ↦ .pure ⟨rfl, fun name' heq ↦ ?_⟩)
  cases heq
  exact findNamed_all hs hall

/-- A book that gets a name gets one that is free. -/
theorem updateName_ends {name : Option (Option String)} (hs : NamesUnique s) :
    Ends (updateName book name owner) s fun r s' ↦ s' = s ∧ ∀ saved, r = .ok saved →
      ∃ savedName, saved = { book with name := savedName } ∧ (name = none → savedName = book.name) ∧
        (name ≠ none → Free s book.guid owner savedName) := by
  cases name with
  | none =>
    refine .pure ⟨rfl, fun saved heq ↦ ?_⟩
    cases heq
    exact ⟨book.name, rfl, fun _ ↦ rfl, fun hne ↦ absurd rfl hne⟩
  | some name =>
  cases name with
  | none => exact .throw ⟨rfl, by simp⟩
  | some name =>
    refine (assertName_ends hs).bind (fun trimmedName s₁ hs₁ ↦ ?_) fun _ _ hs₁ ↦ ⟨hs₁.1, by simp⟩
    refine .pure ⟨hs₁.1, fun saved heq ↦ ?_⟩
    cases heq
    exact ⟨some trimmedName, rfl, by simp, fun _ ↦ hs₁.2 trimmedName rfl⟩

theorem updateCustomAddressBook_ends {name note : Option (Option String)} (h : Named s) :
    Ends (updateCustomAddressBook o guid userId name note) s fun _ ↦ Named := by
  refine assert_bind h fun _ ↦ .get_bind (require_bind h fun book hfound ↦ ?_)
  have hm := List.mem_of_find?_eq_some hfound
  have hbook := List.find?_some hfound
  simp only [Bool.and_eq_true, decide_eq_true_eq, Bool.not_eq_true'] at hbook
  obtain ⟨⟨⟨⟨-, ho⟩, hp⟩, -⟩, -⟩ := hbook
  refine (updateName_ends h.unique).bind (fun saved s₁ hs₁ ↦ ?_) fun _ _ hs₁ ↦ hs₁.1 ▸ h
  obtain ⟨rfl, hsaved⟩ := hs₁
  obtain ⟨savedName, rfl, hsame, hfree⟩ := hsaved saved rfl
  refine reply_bind (fun _ ↦ h) fun _ _ ↦ .modify (h.save ⟨book, hm, rfl⟩ hp ?_)
  cases name with
  | none =>
    obtain rfl := hsame rfl
    exact fun other ↦ h.unique.free hm hp other
  | some name =>
    obtain rfl := ho
    exact hfree (by simp)

theorem deleteCustomAddressBooks_ends {guids : List String} (h : Named s) :
    Ends (deleteCustomAddressBooks o guids userId) s fun _ ↦ Named :=
  .get_bind (assert_bind h fun _ ↦ reply_bind (fun _ ↦ h) fun _ _ ↦ .modify (h.delete _))

theorem deleteSharedAddressBooks_ends {guids : List String} (h : Named s) :
    Ends (deleteSharedAddressBooks o guids userId) s fun _ ↦ Named := by
  refine .get_bind (reply_bind (fun _ ↦ h) fun guidsToDelete _ ↦ ?_)
  split
  · exact .pure h
  · exact reply_bind (fun _ ↦ h) fun _ _ ↦ .modify (h.delete _)

theorem assertAccess_ends {userId : Option String} {required : ShareRule} :
    Ends (assertAccess guid userId required) s fun _ s' ↦ s' = s := by
  rw [assertAccess]
  split
  · exact .get_bind (reply_bind (fun _ ↦ rfl) fun _ _ ↦ .pure rfl)
  · exact .pure rfl

/-- A transfer that goes on has found its new owner, and books and users are as
they were. -/
theorem assertOwner_ends {owner : Option (Option String)} :
    Ends (assertOwner o book owner) s fun r s' ↦
      s'.addressBooks = s.addressBooks ∧ s'.users = s.users ∧ (r = .ok () → ∀ user,
        owner = some (some user) → user ≠ book.owner → (s.user? user).isSome) := by
  cases owner with
  | none => exact .pure ⟨rfl, rfl, by simp⟩
  | some owner =>
    simp only [assertOwner]
    split
    · next heq => exact .pure ⟨rfl, rfl, fun _ user hsome hne ↦ by simp_all⟩
    · refine .get_bind (require_bind ⟨rfl, rfl, by simp⟩ fun user huser ↦ ?_)
      have hfound : ∀ owner', some owner = some (some owner') → owner' ≠ book.owner →
          (s.user? owner').isSome := by
        rintro _ ⟨⟩ -
        have hsome : s.user? _ = some user := huser
        rw [hsome]
        rfl
      split
      · exact .pure ⟨rfl, rfl, fun _ ↦ hfound⟩
      · exact reply_bind (fun _ ↦ ⟨rfl, rfl, by simp⟩) fun _ _ ↦ .modify ⟨rfl, rfl, fun _ ↦ hfound⟩

theorem savedOwner_eq_ok {given : Option (Option String)}
    (h : savedOwner book given = .ok owner) :
    given ≠ some none ∧ owner = given.join.getD book.owner := by
  rcases given with _ | _ | given <;> cases h
  · exact ⟨by simp, rfl⟩
  · exact ⟨by simp, rfl⟩

theorem free_congr {name : Option String} (hb : s'.addressBooks = s.addressBooks) :
    Free s' guid owner name ↔ Free s guid owner name := by
  rw [Free, Free, hb]

/-- The name that an update leaves is free for the owner that it leaves just
when the update is clear. -/
theorem clear_iff {dto : UpdateAddressBookProfileDto} {user savedName : Option String}
    (hs : NamesUnique s) (hfound : findSharedAddressBook s dto.guid = some book)
    (hsame : dto.name = none → savedName = book.name)
    (hfree : dto.name ≠ none →
      Free s book.guid ((truthy dto.owner.join).getD book.owner) savedName)
    (howner : ∀ owner, dto.owner = some (some owner) → owner ≠ book.owner → owner ≠ "")
    (hnull : dto.owner ≠ some none) :
    Clear s (.updateShared dto user) ↔
      Free s book.guid (dto.owner.join.getD book.owner) savedName := by
  have hp := List.find?_some hfound
  simp only [Bool.and_eq_true, decide_eq_true_eq, Bool.not_eq_true'] at hp
  have hstays := hs.free (List.mem_of_find?_eq_some hfound) hp.1.2
  simp only [Clear, hfound, Option.some.injEq, forall_eq']
  by_cases hn : dto.name = none
  · obtain rfl := hsame hn
    rcases ho : dto.owner with _ | _ | owner
    · simp [hstays]
    · exact absurd ho hnull
    · by_cases heq : owner = book.owner
      · simp [heq, hstays]
      · simp [hn, heq]
  · refine iff_of_true (fun heq ↦ absurd heq hn) ?_
    have hfree := hfree hn
    rcases ho : dto.owner with _ | _ | owner
    · rw [ho] at hfree
      exact hfree
    · exact absurd ho hnull
    · rw [ho, Option.join_some, truthy, Option.filter_some] at hfree
      by_cases he : owner = ""
      · have heq : owner = book.owner := by
          by_contra hne
          exact howner owner ho hne he
        simpa [he, ← heq] using hfree
      · simpa [he] using hfree

/-- What a request makes of a store in which the names are unique. -/
def Verdict (s : Store) (request : Request) (r : Except Failure Unit) (s' : Store) : Prop :=
  ((∃ failure, r = .error failure) → Named s') ∧
    (r = .ok () → Identified s' ∧ (NamesUnique s' ↔ Clear s request))

theorem updateSharedAddressBook_ends {dto : UpdateAddressBookProfileDto} {userId : Option String}
    (h : Named s) : Ends (updateSharedAddressBook o dto userId) s
      (Verdict s (.updateShared dto userId)) := by
  refine .get_bind (require_bind ⟨fun _ ↦ h, by simp⟩ fun book hfound ↦ ?_)
  have hm := List.mem_of_find?_eq_some hfound
  have hbook := List.find?_some hfound
  simp only [Bool.and_eq_true, decide_eq_true_eq, Bool.not_eq_true'] at hbook
  obtain ⟨⟨-, hp⟩, -⟩ := hbook
  refine assertAccess_ends.bind (fun _ s₁ hs₁ ↦ ?_) fun _ _ heq ↦ ⟨fun _ ↦ heq ▸ h, by simp⟩
  obtain rfl : s = s₁ := hs₁.symm
  refine assertOwner_ends.bind (fun _ s₁ hs₁ ↦ ?_) fun _ s₁ hs₁ ↦
    ⟨fun _ ↦ h.of_eq hs₁.1 (by rw [Store.user?, hs₁.2.1]; exact h.users), by simp⟩
  obtain ⟨hb, hu, howner⟩ := hs₁
  have h₁ : Named s₁ := h.of_eq hb (by rw [Store.user?, hu]; exact h.users)
  refine (updateName_ends h₁.unique).bind (fun saved s₂ hs₂ ↦ ?_) fun _ _ hs₂ ↦
    ⟨fun _ ↦ hs₂.1 ▸ h₁, by simp⟩
  obtain ⟨rfl, hsaved⟩ := hs₂
  obtain ⟨savedName, rfl, hsame, hfree⟩ := hsaved saved rfl
  refine reply_bind (fun _ ↦ ⟨fun _ ↦ h₁, by simp⟩) fun owner hsavedOwner ↦
    reply_bind (fun _ ↦ ⟨fun _ ↦ h₁, by simp⟩) fun _ _ ↦
      .modify ⟨by simp, fun _ ↦ ⟨h₁.toIdentified.save _, ?_⟩⟩
  obtain ⟨hnull, rfl⟩ := savedOwner_eq_ok hsavedOwner
  refine Iff.trans (b := Free s₂ book.guid (dto.owner.join.getD book.owner) savedName)
    (h₁.unique.save_iff ⟨book, hb ▸ hm, rfl⟩ hp) ?_
  rw [free_congr hb] at hfree ⊢
  exact (clear_iff h.unique hfound hsame hfree (fun user hsome hne hempty ↦ by
    simpa only [hempty, h.users, Option.isSome_none, Bool.false_eq_true]
      using howner rfl user hsome hne) hnull).symm

theorem serve_ends (h : Named s) (hfresh : Fresh s o) :
    Ends (serve o request) s (Verdict s request) := by
  have hverdict : Clear s request → ∀ r s', Named s' → Verdict s request r s' :=
    fun hc _ _ hs ↦ ⟨fun _ ↦ hs, fun _ ↦ ⟨hs.toIdentified, iff_of_true hs.unique hc⟩⟩
  cases request with
  | addCustom name ownerUserId note password =>
    exact (ignore_ends (createAddressBookProfile_ends h hfresh)).mono (hverdict trivial)
  | updateCustom guid userId name note =>
    exact (updateCustomAddressBook_ends h).mono (hverdict trivial)
  | deleteCustom guids userId => exact (deleteCustomAddressBooks_ends h).mono (hverdict trivial)
  | addShared name ownerUserId note password =>
    exact (ignore_ends (createAddressBookProfile_ends h hfresh)).mono (hverdict trivial)
  | updateShared dto userId => exact updateSharedAddressBook_ends h
  | deleteShared guids userId => exact (deleteSharedAddressBooks_ends h).mono (hverdict trivial)

end Requests

theorem Named.step (h : Named s) (hstep : ClearStep s s') : Named s' := by
  rcases hstep with hels | ⟨o, request, hfresh, hc, rfl⟩
  · exact h.of_eq hels.addressBooks hels.users
  · refine ((serve_ends h hfresh).mono fun r s' hv ↦ ?_).finalState
    cases r with
    | ok u => exact ⟨(hv.2 rfl).1, (hv.2 rfl).2.mpr hc⟩
    | error failure => exact hv.1 ⟨failure, rfl⟩

/-- The names stay unique as long as each transfer that keeps the name of a book
is to an owner without such a name, and the first other one that succeeds ends
that. -/
theorem names_unique (h₀ : Named s₀) (h : ReflTransGen ClearStep s₀ s) :
    NamesUnique s ∧ ∀ o request s', Fresh s o → serve o request s = .ok () s' →
      (NamesUnique s' ↔ Clear s request) := by
  have hs : Named s := by
    induction h with
    | refl => exact h₀
    | tail _ hstep ih => exact ih.step hstep
  exact ⟨hs.unique, fun o request s' hfresh hok ↦ (((serve_ends hs hfresh).of_ok hok).2 rfl).2⟩

def sampleChoice (guid : String) : Choice := ⟨guid, guid, .ok (), .ok ()⟩

def sampleUsers : Store := ⟨[⟨"a", "ann", none⟩, ⟨"b", "bob", none⟩], [], []⟩

def sampleAdd (guid owner : String) (s : Store) : Store :=
  finalState (serve (sampleChoice guid) (.addShared "Office" owner none none)) s

def sampleBooks : Store := sampleAdd "2" "b" (sampleAdd "1" "a" sampleUsers)

theorem sample_named : Named sampleUsers :=
  ⟨⟨.nil, rfl⟩, by simp [NamesUnique, sampleUsers]⟩

/-- The first book goes to the other owner under a new name. -/
def sampleRenamed : Request :=
  .updateShared ⟨"1", some (some "Atelier"), none, some (some "b"), none⟩ (some "a")

/-- A book keeps its name and goes to an owner who has none of that name. -/
def sampleClear : Request := .updateShared ⟨"2", none, none, some (some "a"), none⟩ (some "b")

def sampleMoved : Store := finalState (serve (sampleChoice "3") sampleRenamed) sampleBooks

theorem sample_clear : Clear sampleMoved sampleClear := by
  intro _ book hfound owner howner _
  have hbook : findSharedAddressBook sampleMoved "2" =
      some ⟨"2", "b", false, true, some "Office", none, none⟩ := by decide
  cases hbook.symm.trans hfound
  cases howner
  decide

theorem sample_names_unique :
    NamesUnique sampleMoved ∧
      NamesUnique (finalState (serve (sampleChoice "4") sampleClear) sampleMoved) ∧
      (finalState (serve (sampleChoice "4") sampleClear) sampleMoved).addressBooks =
        [⟨"2", "a", false, true, some "Office", none, none⟩,
          ⟨"1", "b", false, true, some "Atelier", none, none⟩] := by
  have hmoved : ReflTransGen ClearStep sampleUsers sampleMoved := .tail (.tail (.tail .refl
    (.inr ⟨sampleChoice "1", .addShared "Office" "a" none none, by decide, trivial, rfl⟩))
    (.inr ⟨sampleChoice "2", .addShared "Office" "b" none none, by decide, trivial, rfl⟩))
    (.inr ⟨sampleChoice "3", sampleRenamed, by decide, nofun, rfl⟩)
  exact ⟨(names_unique sample_named hmoved).1, (names_unique sample_named
    (hmoved.tail (.inr ⟨sampleChoice "4", sampleClear, by decide, sample_clear, rfl⟩))).1,
    by decide⟩

/-- A book that is handed to an owner who has one of that name. -/
def sampleTransfer : Request := .updateShared ⟨"1", none, none, some (some "b"), none⟩ (some "a")

theorem transfer_not_unique : ¬ ∀ s₀ s, Named s₀ → ReflTransGen Step s₀ s → NamesUnique s := by
  intro hall
  have hunique := hall sampleUsers (finalState (serve (sampleChoice "3") sampleTransfer) sampleBooks)
    sample_named (.tail (.tail (.tail .refl
      (.inr ⟨sampleChoice "1", .addShared "Office" "a" none none, by decide, rfl⟩))
      (.inr ⟨sampleChoice "2", .addShared "Office" "b" none none, by decide, rfl⟩))
      (.inr ⟨sampleChoice "3", sampleTransfer, by decide, rfl⟩))
  have heq : finalState (serve (sampleChoice "3") sampleTransfer) sampleBooks =
      ⟨sampleUsers.users, [⟨"2", "b", false, true, some "Office", none, none⟩,
        ⟨"1", "b", false, true, some "Office", none, none⟩], [⟨"3", "1", some "b", none, 3⟩]⟩ := by
    decide
  rw [heq] at hunique
  exact absurd (hunique _ (.head _) _ (.tail _ (.head _)) rfl rfl rfl rfl) (by decide)

end RustdeskConsole.AddressBooks
