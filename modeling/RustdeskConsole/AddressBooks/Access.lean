import RustdeskConsole.AddressBooks.Listing

namespace RustdeskConsole.AddressBooks

open Accounts (Failure)
open Auth (truthy)
open Collections Effects.Guard
open AddressBookPermissionService AddressBookRuleService

variable {like : String → String → Bool} {s : Store} {user : User} {book : AddressBook}
  {row : JoinedRow} {query : PaginationDto}

/-- A query that filters nothing. -/
def PaginationDto.IsPlain (query : PaginationDto) : Prop := query.name = none ∧ query.note = none

/-- The rules of the store are of the three levels. -/
def Store.Ruled (s : Store) : Prop := ∀ rule ∈ s.rules, 1 ≤ rule.rule ∧ rule.rule ≤ 3

def keyOf (book : AddressBook) : SharedAddressBookKey :=
  ⟨book.guid, book.name, book.owner, book.note, book.info⟩

/-- What the listing is for: a row for each address book on which the user has a
level. -/
def listed (s : Store) (user : User) (book : AddressBook) : Option SharedAddressBookRow :=
  if book.isPersonal || levelOf s book user = 0 then none
  else some ⟨keyOf book, levelOf s book user⟩

section Rows

theorem subjectConditions_iff {rule : AddressBookRule} : subjectConditions user rule = true ↔
    (rule.targetUserId, rule.targetGroupId) ∈ applicableTargets user := by
  rw [subjectConditions, applicableTargets]
  cases truthy user.userGroupGuid with
  | none => simp
  | some group => simp [or_assoc]

/-- The rules that are joined are those that the check finds. -/
theorem leftJoin_eq : leftJoin s user book = joinRules book (applicableRules s book.guid user) := by
  refine congrArg (joinRules book) (List.filter_congr fun rule _ ↦ ?_)
  rw [Bool.eq_iff_iff, Bool.and_eq_true, Bool.and_eq_true, subjectConditions_iff,
    decide_eq_true_eq, decide_eq_true_eq]

theorem isSelected_plain (hq : query.IsPlain) : isSelected like s user query false none row =
    (!row.addressBook.isPersonal && (row.addressBook.owner = user.guid || row.rule.isSome)) := by
  have htext {column : Option String} : matchesText like none column = true := rfl
  simp [isSelected, hq.1, hq.2, htext, truthy]

theorem maximum_cons {n : ℕ} {levels : List (Option ℕ)} :
    maximum (some n :: levels) = max n (maximum levels) := by
  have hfold {ns : List ℕ} : ∀ m, ns.foldl max m = max m (ns.foldl max 0) := by
    induction ns with
    | nil => simp
    | cons k ns ih =>
      intro m
      rw [List.foldl_cons, List.foldl_cons, ih, ih (max 0 k)]
      omega
  rw [maximum, List.filterMap_cons, id_eq, List.foldl_cons, hfold, Nat.zero_max, maximum]

theorem maximum_rules {rules : List AddressBookRule} (ho : book.owner ≠ user.guid) :
    maximum (rules.map fun rule ↦ JoinedRow.level user ⟨book, some rule⟩) =
      effectiveRule rules := by
  induction rules with
  | nil => rfl
  | cons rule rules ih =>
    rw [List.map_cons, JoinedRow.level, if_neg ho, Option.map_some, maximum_cons, ih,
      effectiveRule_cons]

theorem maximum_owned {rows : List JoinedRow} (hne : rows ≠ [])
    (ho : ∀ row ∈ rows, row.addressBook.owner = user.guid) :
    maximum (rows.map (JoinedRow.level user)) = ShareRule.fullControl.level := by
  induction rows with
  | nil => exact absurd rfl hne
  | cons row rows ih =>
    rw [List.map_cons, JoinedRow.level, if_pos (ho row (.head _)), maximum_cons]
    cases rows with
    | nil => rfl
    | cons row' rows => rw [ih nofun fun row hm ↦ ho row (.tail _ hm), Nat.max_self]

/-- The rows of one address book that are selected, if any, and their maximum. -/
def rowsOf (s : Store) (user : User) (book : AddressBook) : List JoinedRow :=
  (leftJoin s user book).filter fun row ↦
    !row.addressBook.isPersonal && (row.addressBook.owner = user.guid || row.rule.isSome)

theorem mem_joinRules {rules : List AddressBookRule} (hm : row ∈ joinRules book rules) :
    row.addressBook = book := by
  cases rules with
  | nil => rw [List.mem_singleton.mp hm]
  | cons rule rules =>
    obtain ⟨rule, -, rfl⟩ := List.mem_map.mp hm
    rfl

theorem mem_rowsOf (hm : row ∈ rowsOf s user book) : row.addressBook = book :=
  mem_joinRules (List.mem_of_mem_filter hm)

theorem joinRules_ne_nil {rules : List AddressBookRule} : joinRules book rules ≠ [] := by
  cases rules <;> simp [joinRules]

theorem rowsOf_owned (hp : book.isPersonal = false) (ho : book.owner = user.guid) :
    rowsOf s user book = leftJoin s user book := by
  refine List.filter_eq_self.mpr fun row hm ↦ ?_
  rw [mem_joinRules hm, hp, ho]
  simp

theorem rowsOf_ruled (hp : book.isPersonal = false) (ho : book.owner ≠ user.guid) :
    rowsOf s user book =
      (applicableRules s book.guid user).map fun rule ↦ ⟨book, some rule⟩ := by
  rw [rowsOf, leftJoin_eq]
  cases applicableRules s book.guid user with
  | nil => simp [joinRules, ho]
  | cons rule rules =>
    refine List.filter_eq_self.mpr fun row hm ↦ ?_
    obtain ⟨rule, -, rfl⟩ := List.mem_map.mp hm
    simp [hp]

theorem effectiveRule_eq_zero {rules : List AddressBookRule} (h : ∀ rule ∈ rules, 1 ≤ rule.rule) :
    effectiveRule rules = 0 ↔ rules = [] := by
  cases rules with
  | nil => exact iff_of_true rfl rfl
  | cons rule rules =>
    rw [effectiveRule_cons]
    have hpos := h rule (.head _)
    exact iff_of_false (by omega) nofun

/-- The rows of an address book make up its row of the listing. -/
theorem listed_eq (hr : s.Ruled) : listed s user book = if rowsOf s user book = [] then none
    else some ⟨keyOf book, maximum ((rowsOf s user book).map (JoinedRow.level user))⟩ := by
  rw [listed]
  cases hp : book.isPersonal with
  | true =>
    have hnone : rowsOf s user book = [] := by
      refine List.filter_eq_nil_iff.mpr fun row hm ↦ ?_
      rw [mem_joinRules hm, hp]
      exact Bool.false_ne_true
    rw [Bool.true_or, if_pos rfl, if_pos hnone]
  | false =>
    rw [Bool.false_or, levelOf]
    by_cases ho : book.owner = user.guid
    · have hne : rowsOf s user book ≠ [] := by
        rw [rowsOf_owned hp ho]
        exact joinRules_ne_nil
      rw [if_pos ho, if_neg hne, maximum_owned hne fun row hm ↦ (mem_rowsOf hm).symm ▸ ho]
      rfl
    · have hzero := effectiveRule_eq_zero fun rule hm ↦
        (hr rule (List.mem_of_mem_filter (hm : rule ∈ applicableRules s book.guid user))).1
      simp only [if_neg ho, rowsOf_ruled hp ho, List.map_map, List.map_eq_nil_iff,
        decide_eq_true_eq, hzero, Function.comp_def, maximum_rules ho]

end Rows

section Pages

theorem selected_plain (hq : query.IsPlain) :
    selected like s user query false none = s.addressBooks.flatMap (rowsOf s user) := by
  have hplain : isSelected like s user query false none = fun row ↦
      !row.addressBook.isPersonal && (row.addressBook.owner = user.guid || row.rule.isSome) :=
    funext fun _ ↦ isSelected_plain hq
  rw [selected, List.filter_flatMap, hplain]
  rfl

theorem keys_nodup (hk : s.Keyed) : (s.addressBooks.map keyOf).Nodup := by
  refine List.Nodup.of_map SharedAddressBookKey.guid ?_
  rw [List.map_map]
  exact hk.addressBooks

/-- The groups are the rows of the listing. -/
theorem grouped_perm (hk : s.Keyed) (hr : s.Ruled) :
    (grouped user false (s.addressBooks.flatMap (rowsOf s user))).Perm
      (s.addressBooks.filterMap (listed s user)) := by
  have hkey : ∀ book ∈ s.addressBooks, ∀ row ∈ rowsOf s user book,
      JoinedRow.key false row = keyOf book := by
    intro book _ row hm
    rw [← mem_rowsOf hm]
    rfl
  have hgroup {book : AddressBook} (hm : book ∈ s.addressBooks) :=
    filter_flatMap_key hkey (keys_nodup hk) hm
  refine (List.perm_ext_iff_of_nodup ?_ ?_).mpr fun row ↦ ?_
  · refine List.Nodup.of_map SharedAddressBookRow.key ?_
    rw [grouped, List.map_map]
    exact OrderedMap.nodup _
  · refine List.Nodup.of_map SharedAddressBookRow.key ?_
    refine (sublist_map_filterMap (fun book row hrow ↦ ?_) s.addressBooks).nodup (keys_nodup hk)
    rw [listed] at hrow
    split at hrow
    · cases hrow
    · cases hrow
      rfl
  · rw [grouped, List.mem_map, List.mem_filterMap]
    constructor
    · rintro ⟨⟨k, levels⟩, he, rfl⟩
      have hget := OrderedMap.get?_eq_some.mpr he
      rw [OrderedMap.get?_group] at hget
      split at hget
      · cases hget
      · next hne =>
        obtain ⟨row, hrow⟩ := List.exists_mem_of_ne_nil _ hne
        obtain ⟨hm, hk⟩ := List.mem_filter.mp hrow
        obtain ⟨book, hbook, hm⟩ := List.mem_flatMap.mp hm
        obtain rfl : keyOf book = k := (hkey book hbook row hm).symm.trans (of_decide_eq_true hk)
        rw [hgroup hbook] at hget hne
        cases hget
        refine ⟨book, hbook, ?_⟩
        rw [listed_eq hr, if_neg hne]
    · rintro ⟨book, hbook, hrow⟩
      rw [listed_eq hr] at hrow
      split at hrow
      · cases hrow
      · next hne =>
        cases hrow
        refine ⟨(keyOf book, _), OrderedMap.get?_eq_some.mp ?_, rfl⟩
        rw [OrderedMap.get?_group, hgroup hbook, if_neg hne]

theorem listed_guid {row : SharedAddressBookRow} (h : listed s user book = some row) :
    row.key.guid = book.guid ∧ row.rule = levelOf s book user := by
  rw [listed] at h
  split at h
  · cases h
  · cases h
    exact ⟨rfl, rfl⟩

/-- The listing has at most as many rows as it says. -/
theorem length_le_total (hk : s.Keyed) (hr : s.Ruled) :
    (s.addressBooks.filterMap (listed s user)).length ≤
      ((s.addressBooks.flatMap (rowsOf s user)).map (·.addressBook.guid)).dedup.length := by
  have hnodup : ((s.addressBooks.filterMap (listed s user)).map (·.key.guid)).Nodup :=
    (sublist_map_filterMap (fun _ _ hrow ↦ (listed_guid hrow).1) s.addressBooks).nodup
      hk.addressBooks
  rw [← List.length_map (·.key.guid)]
  refine (List.subperm_of_subset hnodup fun guid hm ↦ List.mem_dedup.mpr ?_).length_le
  obtain ⟨row, hrow, rfl⟩ := List.mem_map.mp hm
  obtain ⟨book, hbook, hlisted⟩ := List.mem_filterMap.mp hrow
  have hne : rowsOf s user book ≠ [] := by
    intro hnil
    rw [listed_eq hr, if_pos hnil] at hlisted
    cases hlisted
  obtain ⟨joined, hjoined⟩ := List.exists_mem_of_ne_nil _ hne
  rw [(listed_guid hlisted).1, ← mem_rowsOf hjoined]
  exact List.mem_map_of_mem (List.mem_flatMap.mpr ⟨book, hbook, hjoined⟩)

/-- The rows of the listing that show an address book. -/
theorem filter_listed (hk : s.Keyed) (hm : book ∈ s.addressBooks) :
    (s.addressBooks.filterMap (listed s user)).filter (·.key.guid = book.guid) =
      (listed s user book).toList := by
  rw [List.filterMap_eq_flatMap_toList]
  refine filter_flatMap_key (fun book _ row hrow ↦ ?_) hk.addressBooks hm
  exact (listed_guid (Option.mem_toList.mp hrow)).1

def PaginationDto.at (query : PaginationDto) (i : ℕ) : PaginationDto :=
  { query with
    current := i + 1
    currentPos := Nat.succ_pos i }

/-- The highest level that the check grants the user. -/
def Granted (s : Store) (guid userId : String) (level : ShareRule) : Prop :=
  (∃ book, checkAddressBookAccess s guid userId level = .ok book) ∧
    ∀ higher : ShareRule, level.level < higher.level →
      ¬∃ book, checkAddressBookAccess s guid userId higher = .ok book

theorem levelOf_le (hr : s.Ruled) : levelOf s book user ≤ 3 := by
  rw [levelOf]
  split
  · exact Nat.le_refl 3
  · exact effectiveRule_le fun rule hm ↦ (hr rule (List.mem_of_mem_filter hm)).2

theorem levelOf_granted (hr : s.Ruled) {level : ShareRule}
    (hb : s.addressBook? book.guid = some book) (hu : s.user? user.guid = some user)
    (hg : Granted s book.guid user.guid level) : levelOf s book user = level.level := by
  obtain ⟨hok, hhigher⟩ := hg
  have hle := (access_iff hb hu).mp hok
  have hmax : levelOf s book user ≤ 3 := levelOf_le hr
  have hnot (higher : ShareRule) (hlt : level.level < higher.level) :
      ¬higher.level ≤ levelOf s book user := fun h ↦ hhigher higher hlt ((access_iff hb hu).mpr h)
  cases level with
  | read =>
    have h2 := hnot .readWrite (by decide)
    simp only [ShareRule.level] at *
    omega
  | readWrite =>
    have h3 := hnot .fullControl (by decide)
    simp only [ShareRule.level] at *
    omega
  | fullControl =>
    simp only [ShareRule.level] at *
    omega

/-- Over all its pages, the listing shows an address book once, with the level that
the check grants the user on it, and not at all if the check denies reading it. -/
theorem listing_matches_access (hk : s.Keyed) (hr : s.Ruled)
    (hu : s.user? user.guid = some user) (hq : query.IsPlain) :
    ∃ total, ∃ page : ℕ → List AccessibleAddressBook,
      (∀ i, getAccessibleAddressBooks like s user.guid (query.at i) false none =
        .ok (total, page i)) ∧
      ∀ n, total ≤ n * query.pageSize → ∀ book ∈ s.addressBooks, book.isPersonal = false →
        (∀ level, Granted s book.guid user.guid level →
          (((List.range n).flatMap page).filter (·.guid = book.guid)).map (·.rule) =
            [level.level]) ∧
        ((¬∃ found, checkAddressBookAccess s book.guid user.guid .read = .ok found) →
          ((List.range n).flatMap page).filter (·.guid = book.guid) = []) := by
  let rows := ordered (grouped user false (s.addressBooks.flatMap (rowsOf s user)))
  have hperm : rows.Perm (s.addressBooks.filterMap (listed s user)) :=
    (List.perm_insertionSort _ _).trans (grouped_perm hk hr)
  refine ⟨((s.addressBooks.flatMap (rowsOf s user)).map (·.addressBook.guid)).dedup.length,
    fun i ↦ ((rows.drop (i * query.pageSize)).take query.pageSize).map
      (present s user.guid false), fun i ↦ ?_, fun n hn book hm hp ↦ ?_⟩
  · have hplain : (query.at i).IsPlain := hq
    rw [getAccessibleAddressBooks, hu]
    refine bind_eq_ok.mpr ⟨user, rfl, ?_⟩
    simp only [selected_plain hplain]
    rfl
  · have hall : ((List.range n).flatMap fun i ↦ ((rows.drop (i * query.pageSize)).take
        query.pageSize).map (present s user.guid false)) = rows.map (present s user.guid false) := by
      rw [← List.map_flatMap, flatMap_pages, List.take_of_length_le]
      rw [hperm.length_eq]
      exact (length_le_total hk hr).trans hn
    have hshown : ((rows.map (present s user.guid false)).filter (·.guid = book.guid)).map (·.rule)
        = (listed s user book).toList.map (·.rule) := by
      have hfilter := (hperm.filter (·.key.guid = book.guid)).map (·.rule)
      rw [filter_listed hk hm] at hfilter
      rw [List.filter_map, List.map_map]
      cases hl : listed s user book with
      | none =>
        rw [hl] at hfilter
        exact hfilter.eq_nil
      | some row =>
        rw [hl] at hfilter
        exact List.perm_singleton.mp hfilter
    have hb : s.addressBook? book.guid = some book := find?_of_mem hk.addressBooks hm
    rw [hall]
    refine ⟨fun level hg ↦ ?_, fun hdenied ↦ ?_⟩
    · rw [hshown, listed, hp, levelOf_granted hr hb hu hg]
      cases level <;> rfl
    · rw [access_iff hb hu, ShareRule.level] at hdenied
      have hzero : levelOf s book user = 0 := by omega
      rw [← List.map_eq_nil_iff (f := (·.rule)), hshown, listed, hzero]
      simp

end Pages

section Sample

/-- A book of the user's own, one shared with everyone and the user's group, and
one shared with somebody else. -/
def sampleStore : Store where
  users := [⟨"u", "user", some "g"⟩]
  addressBooks := [⟨"1", "u", false, false, some "b", none, none⟩,
    ⟨"2", "v", false, true, some "a", none, none⟩, ⟨"3", "v", false, true, none, none, none⟩]
  rules := [⟨"r", "2", none, none, 1⟩, ⟨"t", "2", none, some "g", 2⟩, ⟨"v", "3", some "w", none, 3⟩]

def sampleQuery (current : ℕ) (h : 0 < current) : PaginationDto :=
  ⟨current, 1, none, none, h, Nat.one_pos⟩

theorem sample_listing : ∃ total, ∃ page : ℕ → List AccessibleAddressBook,
    (∀ i, getAccessibleAddressBooks (fun _ _ ↦ true) sampleStore "u"
      ((sampleQuery 1 Nat.one_pos).at i) false none = .ok (total, page i)) ∧
    ∀ n, total ≤ n * 1 → ∀ book ∈ sampleStore.addressBooks, book.isPersonal = false →
      (∀ level, Granted sampleStore book.guid "u" level →
        (((List.range n).flatMap page).filter (·.guid = book.guid)).map (·.rule) = [level.level]) ∧
      ((¬∃ found, checkAddressBookAccess sampleStore book.guid "u" .read = .ok found) →
        ((List.range n).flatMap page).filter (·.guid = book.guid) = []) :=
  @listing_matches_access (fun _ _ ↦ true) sampleStore ⟨"u", "user", some "g"⟩
    (sampleQuery 1 Nat.one_pos) ⟨by decide, by decide⟩ (by unfold Store.Ruled; decide) rfl
    ⟨rfl, rfl⟩

example : (getAccessibleAddressBooks (fun _ _ ↦ true) sampleStore "u" (sampleQuery 1 Nat.one_pos)
    false none).map (fun page ↦ (page.1, page.2.map fun row ↦ (row.guid, row.rule))) =
      .ok (2, [("2", 2)]) := by decide +kernel

end Sample

end RustdeskConsole.AddressBooks
