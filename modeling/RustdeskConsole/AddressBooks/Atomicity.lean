import RustdeskConsole.AddressBooks.Profiles

namespace RustdeskConsole.AddressBooks

open Accounts (Failure)
open Auth (truthy)
open Collections Effects Effects.Checked
open AddressBookPermissionService AddressBookRuleService

variable {s s' : Store} {o : Choice} {book : AddressBook} {guid : String} {userId : Option String}
  {dto : UpdateAddressBookProfileDto}

/-- The books and the rules are as they were. -/
def Untouched (s s' : Store) : Prop := s'.addressBooks = s.addressBooks ∧ s'.rules = s.rules

/-- The user may do to the book what the request asks for. -/
def AccessGranted (s : Store) (guid : String) (userId : Option String) (requiredRule : ShareRule) :
    Prop :=
  ∀ user, truthy userId = some user →
    ∃ found, checkAddressBookAccess s guid user requiredRule = .ok found

/-- The book goes to a user who has no rule of their own for it, and is given one. -/
def Grants (o : Choice) (s : Store) (book : AddressBook) (owner : Option (Option String)) : Prop :=
  ∃ user, owner = some user ∧ user ≠ some book.owner ∧ (findNewOwner s user).isSome = true ∧
    existingRule s book.guid user = false ∧ o.ruleSaved = .ok ()

/-- The name, where there is one, is a text that is not blank, and no other book of the
owner has it. -/
def NameAccepted (s : Store) (guid owner : String) (name : Option (Option String)) : Prop :=
  ∀ given, name = some given → ∃ asked, given = some asked ∧ String.ofList (trim asked) ≠ "" ∧
    (s.findNamed (String.ofList (trim asked)) owner).all (·.guid = guid) = true

/-- Nothing is wrong with the rest of a request that gives the new owner a rule. -/
def Sound (o : Choice) (s : Store) (dto : UpdateAddressBookProfileDto) (userId : Option String) :
    Prop :=
  ∀ book, findSharedAddressBook s dto.guid = some book →
    AccessGranted s dto.guid userId
      (if isChangingOwner book dto.owner then .fullControl else .readWrite) →
    Grants o s book dto.owner →
    NameAccepted s book.guid ((truthy dto.owner.join).getD book.owner) dto.name ∧
      dto.owner ≠ some none ∧ o.saved = .ok ()

section Phases

theorem assertAccess_granted {requiredRule : ShareRule} :
    Ends (assertAccess guid userId requiredRule) s fun r s' ↦
      s' = s ∧ ((∃ u, r = .ok u) ↔ AccessGranted s guid userId requiredRule) := by
  rw [assertAccess, AccessGranted]
  cases truthy userId with
  | none => exact .pure ⟨rfl, by simp⟩
  | some user =>
    refine .get_bind ?_
    cases hc : checkAddressBookAccess s guid user requiredRule with
    | ok found => exact .pure ⟨rfl, by simp [hc]⟩
    | error failure => exact .throw ⟨rfl, by simp [hc]⟩

/-- A request that goes on after the owner has either changed nothing yet or
given the new owner a rule. -/
theorem assertOwner_grants {owner : Option (Option String)} :
    Ends (assertOwner o book owner) s fun r s' ↦
      s'.addressBooks = s.addressBooks ∧
        (s'.rules = s.rules ∧ ¬ Grants o s book owner ∨
          s'.rules ≠ s.rules ∧ Grants o s book owner ∧ r = .ok ()) := by
  cases owner with
  | none => exact .pure ⟨rfl, .inl ⟨rfl, by simp [Grants]⟩⟩
  | some owner =>
    simp only [assertOwner, Grants, Option.some.injEq, exists_eq_left']
    split
    · next heq => exact .pure ⟨rfl, .inl ⟨rfl, fun hg ↦ hg.1 heq⟩⟩
    · next hne =>
      refine .get_bind ?_
      cases hu : findNewOwner s owner with
      | none => exact .throw ⟨rfl, .inl ⟨rfl, by simp⟩⟩
      | some user =>
        change Ends (ite _ _ _) s _
        split
        · next hany => exact .pure ⟨rfl, .inl ⟨rfl, by simp [hany]⟩⟩
        · next hany =>
          rw [Bool.not_eq_true] at hany
          cases hsaved : o.ruleSaved with
          | error failure => exact .throw ⟨rfl, .inl ⟨rfl, by simp⟩⟩
          | ok u => exact .modify ⟨rfl, .inr ⟨by simp, ⟨hne, rfl, hany, rfl⟩, rfl⟩⟩

theorem assertName_accepted {name owner : String} :
    Ends (assertName name owner guid) s fun r s' ↦ s' = s ∧ ((∃ trimmedName, r = .ok trimmedName) ↔
      String.ofList (trim name) ≠ "" ∧
        (s.findNamed (String.ofList (trim name)) owner).all (·.guid = guid) = true) := by
  by_cases hempty : String.ofList (trim name) = ""
  · rw [assertName, trimmed, hempty]
    exact .throw ⟨rfl, by simp⟩
  · have htrim : Ends (trimmed name) s fun r s' ↦ s' = s ∧ r = .ok (String.ofList (trim name)) := by
      rw [trimmed, decide_eq_true hempty]
      exact .pure ⟨rfl, rfl⟩
    refine htrim.bind (fun trimmedName s₁ hs₁ ↦ ?_) fun _ _ hs₁ ↦ by simp at hs₁
    obtain ⟨rfl, heq⟩ := hs₁
    cases heq
    refine .get_bind ?_
    cases hall : (s₁.findNamed (String.ofList (trim name)) owner).all (·.guid = guid) with
    | false => exact .throw ⟨rfl, by simp⟩
    | true => exact .pure ⟨rfl, by simp [hempty]⟩

theorem updateName_accepted {owner : String} {name : Option (Option String)} :
    Ends (updateName book name owner) s fun r s' ↦
      s' = s ∧ ((∃ saved, r = .ok saved) ↔ NameAccepted s book.guid owner name) := by
  cases name with
  | none => exact .pure ⟨rfl, by simp [NameAccepted]⟩
  | some name =>
  cases name with
  | none => exact .throw ⟨rfl, by simp [NameAccepted]⟩
  | some name =>
    simp only [NameAccepted, Option.some.injEq, forall_eq', exists_eq_left']
    refine assertName_accepted.bind (fun trimmedName s₁ hs₁ ↦ ?_) fun failure s₁ hs₁ ↦ ?_
    · exact .pure ⟨hs₁.1, iff_of_true ⟨_, rfl⟩ (hs₁.2.mp ⟨_, rfl⟩)⟩
    · exact ⟨hs₁.1, iff_of_false (by simp) fun ha ↦ by simpa using hs₁.2.mpr ha⟩

end Phases

theorem nameAccepted_congr {owner : String} {name : Option (Option String)}
    (hb : s'.addressBooks = s.addressBooks) :
    NameAccepted s' guid owner name ↔ NameAccepted s guid owner name := by
  simp only [NameAccepted, Store.findNamed, hb]

/-- A rejected request has left the store alone just when it was sound. -/
theorem updateSharedAddressBook_untouched :
    Ends (updateSharedAddressBook o dto userId) s fun r s' ↦
      ((∃ failure, r = .error failure) → Untouched s s') ↔ Sound o s dto userId := by
  refine .get_bind ?_
  cases hfound : findSharedAddressBook s dto.guid with
  | none => exact .throw (iff_of_true (fun _ ↦ ⟨rfl, rfl⟩) fun book heq ↦ by simp [hfound] at heq)
  | some book =>
    change Ends (bind _ _) s _
    have hsound : Sound o s dto userId ↔
        (AccessGranted s dto.guid userId
          (if isChangingOwner book dto.owner then .fullControl else .readWrite) →
        Grants o s book dto.owner →
        NameAccepted s book.guid ((truthy dto.owner.join).getD book.owner) dto.name ∧
          dto.owner ≠ some none ∧ o.saved = .ok ()) := by
      rw [Sound, hfound]
      simp only [Option.some.injEq, forall_eq']
    rw [hsound]
    refine assertAccess_granted.bind (fun u s₁ hs₁ ↦ ?_) fun failure s₁ hs₁ ↦ ?_
    swap
    · obtain ⟨rfl, hdenied⟩ := hs₁
      refine iff_of_true (fun _ ↦ ⟨rfl, rfl⟩) fun hg ↦ ?_
      simpa using hdenied.mpr hg
    obtain ⟨rfl, hgranted⟩ := hs₁
    have haccess := hgranted.mp ⟨_, rfl⟩
    simp only [haccess, true_imp_iff]
    refine assertOwner_grants.bind (fun u s₂ hs₂ ↦ ?_) fun failure s₂ hs₂ ↦ ?_
    swap
    · obtain ⟨hbooks, ⟨hrules, hno⟩ | ⟨-, -, herror⟩⟩ := hs₂
      · exact iff_of_true (fun _ ↦ ⟨hbooks, hrules⟩) fun hg ↦ absurd hg hno
      · simp at herror
    obtain ⟨hbooks, hrules⟩ := hs₂
    refine updateName_accepted.bind (fun saved s₃ hs₃ ↦ ?_) fun failure s₃ hs₃ ↦ ?_
    · obtain ⟨rfl, haccepted⟩ := hs₃
      rw [nameAccepted_congr hbooks] at haccepted
      have hname := haccepted.mp ⟨_, rfl⟩
      have hfailed (failure : Failure) (hbad : ¬(dto.owner ≠ some none ∧ o.saved = .ok ())) :
          ((∃ f, (.error failure : Except Failure Unit) = .error f) → Untouched s₁ s₃) ↔
            (Grants o s₁ book dto.owner →
              NameAccepted s₁ book.guid ((truthy dto.owner.join).getD book.owner) dto.name ∧
                dto.owner ≠ some none ∧ o.saved = .ok ()) := by
        rcases hrules with ⟨hsame, hno⟩ | ⟨hnew, hyes, -⟩
        · exact iff_of_true (fun _ ↦ ⟨hbooks, hsame⟩) fun hg ↦ absurd hg hno
        · exact iff_of_false (fun hu ↦ hnew (hu ⟨failure, rfl⟩).2) fun hg ↦ hbad (hg hyes).2
      cases howner : savedOwner saved dto.owner with
      | error failure =>
        refine .throw (hfailed failure fun hgood ↦ ?_)
        cases ho : dto.owner with
        | none => simp [savedOwner, ho] at howner
        | some owner =>
          cases owner with
          | none => exact hgood.1 ho
          | some owner => simp [savedOwner, ho] at howner
      | ok owner =>
        have hnotnull : dto.owner ≠ some none := by
          intro ho
          simp [savedOwner, ho] at howner
        cases hsaved : o.saved with
        | ok u => exact .modify (iff_of_true (by simp) fun _ ↦ ⟨hname, hnotnull, rfl⟩)
        | error failure =>
          exact .throw (hsaved ▸ hfailed failure fun hgood ↦ by simp [hsaved] at hgood)
    · obtain ⟨rfl, haccepted⟩ := hs₃
      rw [nameAccepted_congr hbooks] at haccepted
      rcases hrules with ⟨hsame, hno⟩ | ⟨hnew, hyes, -⟩
      · exact iff_of_true (fun _ ↦ ⟨hbooks, hsame⟩) fun hg ↦ absurd hg hno
      · exact iff_of_false (fun hu ↦ hnew (hu ⟨failure, rfl⟩).2) fun hg ↦ by
          simpa using haccepted.mpr (hg hyes).1

/-- A rejected update changes neither books nor rules, unless it was rejected
after the rule of a new owner had been written. -/
theorem update_untouched :
    (∀ failure s', updateSharedAddressBook o dto userId s = .error failure s' → Untouched s s') ↔
      Sound o s dto userId := by
  have h : Ends (updateSharedAddressBook o dto userId) s _ := updateSharedAddressBook_untouched
  cases hr : updateSharedAddressBook o dto userId s with
  | ok u s' =>
    rw [← h.of_ok hr]
    simp
  | error failure s' =>
    rw [← h.of_error hr]
    simp

def sampleOffices : Store :=
  ⟨[⟨"a", "ann", none⟩, ⟨"b", "bob", none⟩],
    [⟨"1", "a", false, true, some "Office", none, none⟩,
      ⟨"2", "b", false, true, some "Studio", none, none⟩], []⟩

def sampleSaved : Choice := ⟨"3", "4", .ok (), .ok ()⟩

/-- The book goes to a new owner, who gets a rule, under a name that is free. -/
def sampleRename : UpdateAddressBookProfileDto :=
  ⟨"1", some (some " Atelier "), some none, some (some "b"), none⟩

/-- The name is null, and the owner stays. -/
def sampleNameless : UpdateAddressBookProfileDto := ⟨"1", some none, none, none, none⟩

theorem sample_sound : Sound sampleSaved sampleOffices sampleRename (some "a") := by
  intro book hfound _ _
  have hbook : findSharedAddressBook sampleOffices "1" =
      some ⟨"1", "a", false, true, some "Office", none, none⟩ := by decide
  cases hbook.symm.trans hfound
  refine ⟨?_, by simp [sampleRename], rfl⟩
  rintro _ ⟨⟩
  exact ⟨_, rfl, by decide, by decide⟩

theorem sample_update_untouched :
    (∃ s', updateSharedAddressBook sampleSaved sampleRename (some "a") sampleOffices = .ok () s') ∧
    (∀ failure s', updateSharedAddressBook sampleSaved sampleRename (some "a") sampleOffices =
      .error failure s' → Untouched sampleOffices s') ∧
    (∃ s', updateSharedAddressBook sampleSaved sampleNameless (some "a") sampleOffices =
      .error nameNull s') ∧
    ∀ failure s', updateSharedAddressBook sampleSaved sampleNameless (some "a") sampleOffices =
      .error failure s' → Untouched sampleOffices s' :=
  ⟨⟨_, rfl⟩, update_untouched.mpr sample_sound, ⟨_, rfl⟩, update_untouched.mpr fun _ _ _ hgrants ↦
    nomatch hgrants.choose_spec.1⟩

/-- The book goes to an owner who has one of the name that it is to get. -/
def sampleHandover : UpdateAddressBookProfileDto :=
  ⟨"1", some (some "Studio"), none, some (some "b"), none⟩

theorem handover_touched :
    ¬ ∀ o s dto userId failure s',
      updateSharedAddressBook o dto userId s = .error failure s' → Untouched s s' := by
  intro hall
  have hrules := (hall sampleSaved sampleOffices sampleHandover (some "a") nameExists
    { sampleOffices with rules := [⟨"4", "1", some "b", none, 3⟩] } rfl).2
  simp [sampleOffices] at hrules

end RustdeskConsole.AddressBooks
