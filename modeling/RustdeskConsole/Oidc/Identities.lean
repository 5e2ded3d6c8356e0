import RustdeskConsole.Oidc.Handlers

namespace RustdeskConsole.Oidc

open Accounts (LinkedTo uniqueColumns)
open Effects Effects.History

/-- A successful callback: the record it came through, what the provider
answered and the account it was signed in to. -/
structure Login (h : History) (i : ℕ) (provider : OidcProvider) (answer : Answer)
    (account : String) : Prop where
  found : (i, .found provider) ∈ h
  answered : (i, .answered answer) ∈ h
  authorized : (i, .authorized account) ∈ h

/-- Two callbacks share an account only if they came through one record with one
subject, and none signs in without a subject. -/
structure Separated (h : History) : Prop where
  subject : ∀ i provider answer account, Login h i provider answer account → answer.subject ≠ none
  identity : ∀ i j p q a b account, Login h i p a account → Login h j q b account →
    p.guid = q.guid ∧ a.subject = b.subject

/-- The call signed in with the answer, through the record. -/
def SignedIn (h : History) (i : ℕ) (provider : OidcProvider) (answer : Answer) : Prop :=
  ∃ account, Login h i provider answer account

/-- What providers are called and answer leaves no two identities alike: every
answer has a subject, equal names and equal texts are the same record and the
same subject, and no text begins with what a longer name adds to the name. -/
structure Unmistakable (h : History) : Prop where
  subject : ∀ i p a, SignedIn h i p a → a.subject ≠ none
  name : ∀ i j p q a b, SignedIn h i p a → SignedIn h j q b → p.name = q.name → a.text = b.text →
    p.guid = q.guid ∧ a.subject = b.subject
  separator : ∀ i j p q a b, SignedIn h i p a → SignedIn h j q b → ∀ t s s',
    q.name = p.name ++ ":" ++ t → a.text = some s → b.text = some s' → s ≠ t ++ ":" ++ s'

section Keys

variable {name name' sub sub' : String}

theorem append_separator_eq {l l' m m' : List Char} {c : Char} :
    l ++ c :: m = l' ++ c :: m' ↔ (l = l' ∧ m = m') ∨
      (∃ t, l' = l ++ c :: t ∧ m = t ++ c :: m') ∨ ∃ t, l = l' ++ c :: t ∧ m' = t ++ c :: m := by
  rw [List.append_eq_append_iff]
  constructor
  · rintro (⟨t, rfl, heq⟩ | ⟨t, rfl, heq⟩)
    · cases t with
      | nil => exact .inl ⟨(List.append_nil l).symm, (List.cons_eq_cons.mp heq).2⟩
      | cons d t =>
        obtain ⟨rfl, rfl⟩ := List.cons_eq_cons.mp heq
        exact .inr (.inl ⟨t, rfl, rfl⟩)
    · cases t with
      | nil => exact .inl ⟨List.append_nil l', (List.cons_eq_cons.mp heq).2.symm⟩
      | cons d t =>
        obtain ⟨rfl, rfl⟩ := List.cons_eq_cons.mp heq
        exact .inr (.inr ⟨t, rfl, rfl⟩)
  · rintro (⟨rfl, rfl⟩ | ⟨t, rfl, rfl⟩ | ⟨t, rfl, rfl⟩)
    · exact .inl ⟨[], (List.append_nil l).symm, rfl⟩
    · exact .inl ⟨c :: t, rfl, rfl⟩
    · exact .inr ⟨c :: t, rfl, rfl⟩

theorem key_toList : (key name sub).toList = "oidc:".toList ++ (name.toList ++ ':' :: sub.toList) := by
  simp [key]

theorem toList_separator {t s : String} : (t ++ ":" ++ s).toList = t.toList ++ ':' :: s.toList := by
  simp

/-- Different names and texts make the same key exactly if one name is the other
one, a separator and what the text of the other begins with. -/
theorem key_eq_iff : key name sub = key name' sub' ↔ (name = name' ∧ sub = sub') ∨
    (∃ t, name' = name ++ ":" ++ t ∧ sub = t ++ ":" ++ sub') ∨
    ∃ t, name = name' ++ ":" ++ t ∧ sub' = t ++ ":" ++ sub := by
  have hof : ∀ l : List Char, ∃ t : String, t.toList = l := fun l ↦ ⟨String.ofList l, by simp⟩
  rw [← String.toList_inj, key_toList, key_toList, List.append_right_inj, append_separator_eq]
  simp only [← String.toList_inj, toList_separator]
  constructor
  · rintro (h | ⟨l, h⟩ | ⟨l, h⟩)
    · exact .inl h
    · obtain ⟨t, rfl⟩ := hof l
      exact .inr (.inl ⟨t, h⟩)
    · obtain ⟨t, rfl⟩ := hof l
      exact .inr (.inr ⟨t, h⟩)
  · rintro (h | ⟨t, h⟩ | ⟨t, h⟩)
    · exact .inl h
    · exact .inr (.inl ⟨_, h⟩)
    · exact .inr (.inr ⟨_, h⟩)

end Keys

section Logins

variable {w : World} {i j : ℕ} {p q : OidcProvider} {a b : Answer} {account account' : String}

theorem Login.linked (hb : Bound w) (hl : Login w.history i p a account) :
    ∃ sub, a.text = some sub ∧ LinkedTo w.accounts.users account (key p.name sub) := by
  obtain ⟨name, sub, hf, ha, hk⟩ := hb.keyed i account hl.authorized
  refine ⟨sub, ha a hl.answered, ?_⟩
  rwa [hf p hl.found]

/-- Two callbacks share an account exactly if they came with the same key. -/
theorem account_eq_iff (hb : Bound w) (hl : Login w.history i p a account)
    (hl' : Login w.history j q b account') {sub sub' : String} (ha : a.text = some sub)
    (hb' : b.text = some sub') : account = account' ↔ key p.name sub = key q.name sub' := by
  obtain ⟨s, hs, hk⟩ := hl.linked hb
  obtain ⟨s', hs', hk'⟩ := hl'.linked hb
  obtain rfl := Option.some.inj (ha.symm.trans hs)
  obtain rfl := Option.some.inj (hb'.symm.trans hs')
  constructor
  · rintro rfl
    exact hk.subject_eq hb.unique hk'
  · intro heq
    rw [heq] at hk
    exact hk.guid_eq hb.unique hk'

theorem text_eq_of_separator {s t : String} : s ≠ t ++ ":" ++ s := by
  intro heq
  have hlen := congrArg (fun s ↦ s.toList.length) heq
  simp only [toList_separator, List.length_append, List.length_cons] at hlen
  omega

theorem separated_iff (hb : Bound w) : Separated w.history ↔ Unmistakable w.history := by
  constructor
  · refine fun h ↦ ⟨fun i p a ⟨account, hl⟩ ↦ h.subject i p a account hl, ?_, ?_⟩
    · intro i j p q a b ⟨account, hl⟩ ⟨account', hl'⟩ hn ht
      obtain ⟨s, hs, -⟩ := hl.linked hb
      have heq : account = account' :=
        (account_eq_iff hb hl hl' hs (ht.symm.trans hs)).mpr (by rw [hn])
      subst heq
      exact h.identity i j p q a b account hl hl'
    · intro i j p q a b ⟨account, hl⟩ ⟨account', hl'⟩ t s s' hn hs hs' hsep
      have heq : account = account' :=
        (account_eq_iff hb hl hl' hs hs').mpr (key_eq_iff.mpr (.inr (.inl ⟨t, hn, hsep⟩)))
      subst heq
      obtain ⟨-, hsub⟩ := h.identity i j p q a b account hl hl'
      have hne := h.subject i p a account hl
      have htext : a.text = b.text := Answer.text_of_subject hsub hne
      rw [hs, hs'] at htext
      rw [Option.some.inj htext] at hsep
      exact text_eq_of_separator hsep
  · refine fun h ↦ ⟨fun i p a account hl ↦ h.subject i p a ⟨account, hl⟩, ?_⟩
    intro i j p q a b account hl hl'
    obtain ⟨s, hs, -⟩ := hl.linked hb
    obtain ⟨s', hs', -⟩ := hl'.linked hb
    have hi : SignedIn w.history i p a := ⟨account, hl⟩
    have hj : SignedIn w.history j q b := ⟨account, hl'⟩
    rcases key_eq_iff.mp ((account_eq_iff hb hl hl' hs hs').mp rfl) with
      ⟨hn, rfl⟩ | ⟨t, hn, hsep⟩ | ⟨t, hn, hsep⟩
    · exact h.name i j p q a b hi hj hn (hs.trans hs'.symm)
    · exact absurd hsep (h.separator i j p q a b hi hj t s s' hn hs hs')
    · exact absurd hsep (h.separator j i q p b a hj hi t s' s hn hs' hs)

end Logins

/-- In every run, external identities map injectively to accounts as long as what
the providers are called and answer leaves no two of them alike, and no longer. -/
theorem identities_separated {platform : Accounts.Platform} {w₀ : World}
    {cfg : Config ℕ Command Reply World} (hu : uniqueColumns w₀.accounts.users)
    (hh : w₀.history = []) (hr : (machine platform).Run (Machine.idle w₀) cfg) :
    Separated cfg.world.history ↔ Unmistakable cfg.world.history := by
  have hb : Bound w₀ := by
    refine ⟨hu, fun i account hm ↦ ?_⟩
    rw [hh] at hm
    cases hm
  have hv : (logic platform).Verified cfg := (Logic.verified_idle hb).run (admissible platform) hr
  exact separated_iff hv.1

section Sample

def samplePlatform : Accounts.Platform where
  compare password hash := hash = "hash:" ++ password
  hash password _ := "hash:" ++ password
  verifyTotp secret code _ := code = secret
  digest token := token
  isHttpUrl _ := true

def sampleWorld : World := ⟨⟨[], [], [], [], []⟩, [], [], []⟩

def sampleChoice (text : String) (data : Json) : Choice where
  now := 0
  uuid := text
  text := text
  row := 0
  flag := true
  config := ⟨"https://idp", none⟩
  claims := .ok none
  accessToken := .ok (some "t")
  fetched := none
  data := .ok data
  outcome := .ok ()
  token := .ok "jwt"
  account := ⟨0, text, text, 0, true, .ok "g1", .ok ()⟩

def sampleProvider (name : String) : CreateOidcProviderDto :=
  ⟨some .oauth2, name, "https://idp", "client", none, none, none, none, some "https://idp/user",
    none, none, none⟩

/-- The calls of the sample runs, by their numbers. -/
def sampleRequest : ℕ → Request
  | 0 => .create (sampleProvider "a")
  | 1 => .create (sampleProvider "a:b")
  | 2 => .requestAuth ⟨"oidc/a", none, none, "{}", none⟩
  | 3 => .requestAuth ⟨"oidc/a:b", none, none, "{}", none⟩
  | 4 => .callback (some "2") none
  | _ => .callback (some "3") none

def sampleFresh (i : ℕ) (w : World) : Bool := w.history.all fun e ↦ e.1 ≠ i

theorem sampleFresh_admits (i : ℕ) (w : World) (h : sampleFresh i w = true) :
    (machine samplePlatform).admits i w (handler samplePlatform (sampleRequest i)) := by
  refine ⟨fun event hm ↦ ?_, sampleRequest i, ?_, rfl⟩
  · have hne := List.all_eq_true.mp h _ hm
    simp at hne
  · match i with
    | 0 | 1 | 2 | 3 | 4 => decide
    | i + 5 => rfl

/-- The calls are served one after the other. -/
def sampleRun (calls : List (ℕ × Json)) : Config ℕ Command Reply World :=
  (machine samplePlatform).schedule (fun i ↦ handler samplePlatform (sampleRequest i)) sampleFresh
    (calls.map fun c ↦ (c.1, List.replicate 16 (sampleChoice (toString c.1) c.2)))
    (Machine.idle sampleWorld)

theorem sampleRun_run (calls : List (ℕ × Json)) :
    (machine samplePlatform).Run (Machine.idle sampleWorld) (sampleRun calls) :=
  Machine.schedule_run sampleFresh_admits _

theorem sampleWorld_unique : uniqueColumns sampleWorld.accounts.users := by
  simp [uniqueColumns, sampleWorld]

def foundIn (i : ℕ) (guid : String) : ℕ × Event → Bool
  | (j, .found provider) => j = i && provider.guid = guid
  | _ => false

def answeredIn (i : ℕ) (hasSubject : Bool) : ℕ × Event → Bool
  | (j, .answered answer) => j = i && answer.subject.isSome = hasSubject
  | _ => false

def authorizedIn (i : ℕ) (account : String) : ℕ × Event → Bool
  | (j, .authorized account') => j = i && account' = account
  | _ => false

theorem login_of_events (h : History) (i : ℕ) (guid account : String) (hasSubject : Bool)
    (hf : h.any (foundIn i guid) = true) (ha : h.any (answeredIn i hasSubject) = true)
    (hs : h.any (authorizedIn i account) = true) : ∃ p a, Login h i p a account ∧ p.guid = guid ∧
      a.subject.isSome = hasSubject := by
  obtain ⟨⟨j, ef⟩, hmf, hf⟩ := List.any_eq_true.mp hf
  obtain ⟨⟨k, ea⟩, hma, ha⟩ := List.any_eq_true.mp ha
  obtain ⟨⟨l, es⟩, hms, hs⟩ := List.any_eq_true.mp hs
  cases ef with
  | found provider =>
    cases ea with
    | answered answer =>
      cases es with
      | authorized account' =>
        simp only [foundIn, answeredIn, authorizedIn, Bool.and_eq_true, decide_eq_true_eq] at hf ha hs
        obtain ⟨rfl, hg⟩ := hf
        obtain ⟨rfl, hsub⟩ := ha
        obtain ⟨rfl, rfl⟩ := hs
        exact ⟨provider, answer, ⟨hmf, hma, hms⟩, hg, hsub⟩
      | _ => cases hs
    | _ => cases ha
  | _ => cases hf

def sampleId (id : String) : Json := .object [("id", .string id)]

/-- Two records whose names differ by what follows a colon share an account. -/
def sampleCollision : Config ℕ Command Reply World :=
  sampleRun [(0, .null), (1, .null), (2, .null), (3, .null), (4, sampleId "b:c"), (5, sampleId "c")]

/-- A provider answers with no subject at all. -/
def sampleNobody : Config ℕ Command Reply World :=
  sampleRun [(0, .null), (2, .null), (4, .object [])]

/-- Different identities come to share an account, and a response without a
subject signs in. -/
theorem identities_conflated :
    (∃ w₀ cfg i j p q a b account, uniqueColumns w₀.accounts.users ∧ w₀.history = [] ∧
      (machine samplePlatform).Run (Machine.idle w₀) cfg ∧ Login cfg.world.history i p a account ∧
      Login cfg.world.history j q b account ∧ p.guid ≠ q.guid) ∧
    ∃ w₀ cfg i p a account, uniqueColumns w₀.accounts.users ∧ w₀.history = [] ∧
      (machine samplePlatform).Run (Machine.idle w₀) cfg ∧ Login cfg.world.history i p a account ∧
      a.subject = none := by
  constructor
  · obtain ⟨p, a, hl, hp, -⟩ := login_of_events sampleCollision.world.history 4 "0" "4" true
      (by decide +kernel) (by decide +kernel) (by decide +kernel)
    obtain ⟨q, b, hl', hq, -⟩ := login_of_events sampleCollision.world.history 5 "1" "4" true
      (by decide +kernel) (by decide +kernel) (by decide +kernel)
    refine ⟨sampleWorld, sampleCollision, 4, 5, p, q, a, b, "4", sampleWorld_unique, rfl,
      sampleRun_run _, hl, hl', ?_⟩
    rw [hp, hq]
    decide
  · obtain ⟨p, a, hl, -, hs⟩ := login_of_events sampleNobody.world.history 4 "0" "4" false
      (by decide +kernel) (by decide +kernel) (by decide +kernel)
    refine ⟨sampleWorld, sampleNobody, 4, p, a, "4", sampleWorld_unique, rfl, sampleRun_run _, hl, ?_⟩
    exact Option.isNone_iff_eq_none.mp (Option.isSome_eq_false_iff.mp hs)

/-- The guid and the name of the record and the subject of each callback of a run. -/
def sampleIdentity (i : ℕ) : String × String × String :=
  if i % 2 = 0 then ("0", "a", "x") else ("1", "a:b", "y")

def ordinary (e : ℕ × Event) : Bool :=
  match e.2 with
  | .found provider => provider.guid = (sampleIdentity e.1).1 &&
      provider.name = (sampleIdentity e.1).2.1
  | .answered answer => match answer.subject with
    | some ⟨.id, .string id⟩ => id = (sampleIdentity e.1).2.2
    | _ => false
  | .authorized _ => true

theorem ordinary_login {h : History} {i : ℕ} {p : OidcProvider} {a : Answer}
    (hall : h.all ordinary = true) (hl : SignedIn h i p a) :
    p.guid = (sampleIdentity i).1 ∧ p.name = (sampleIdentity i).2.1 ∧
      a.subject = some ⟨.id, .string (sampleIdentity i).2.2⟩ := by
  obtain ⟨account, hl⟩ := hl
  have hf := List.all_eq_true.mp hall _ hl.found
  have ha := List.all_eq_true.mp hall _ hl.answered
  simp only [ordinary, Bool.and_eq_true, decide_eq_true_eq] at hf ha
  refine ⟨hf.1, hf.2, ?_⟩
  split at ha
  · next id hs => rw [hs, of_decide_eq_true ha]
  · cases ha

theorem ordinary_text {h : History} {i : ℕ} {p : OidcProvider} {a : Answer} {s : String}
    (hall : h.all ordinary = true) (hl : SignedIn h i p a) (hs : a.text = some s) :
    s = (sampleIdentity i).2.2 := by
  have hsubject := (ordinary_login hall hl).2.2
  have htext : a.text = (Answer.userInfo (sampleId (sampleIdentity i).2.2)).text :=
    Answer.text_of_subject hsubject (by rw [hsubject]; exact Option.some_ne_none _)
  exact Option.some.inj (hs.symm.trans htext)

theorem unmistakable_of_ordinary {h : History} (hall : h.all ordinary = true) :
    Unmistakable h where
  subject i p a hl := by
    rw [(ordinary_login hall hl).2.2]
    exact Option.some_ne_none _
  name i j p q a b hi hj hn _ := by
    obtain ⟨hg, hname, hs⟩ := ordinary_login hall hi
    obtain ⟨hg', hname', hs'⟩ := ordinary_login hall hj
    have heq : sampleIdentity i = sampleIdentity j := by
      rw [hname, hname'] at hn
      unfold sampleIdentity at hn ⊢
      split at hn <;> split at hn <;> simp_all
    rw [hg, hg', hs, hs', heq]
    exact ⟨rfl, rfl⟩
  separator i j p q a b hi hj t s s' _ hs hs' heq := by
    have hone : ∀ i, (sampleIdentity i).2.2.toList.length = 1 := by
      intro i
      unfold sampleIdentity
      split <;> rfl
    have hlen := congrArg (fun s ↦ s.toList.length) heq
    simp only [toList_separator, List.length_append, List.length_cons, ordinary_text hall hi hs,
      ordinary_text hall hj hs', hone] at hlen
    omega

/-- The name of one record begins with that of the other and a colon. -/
def sampleUsers : Config ℕ Command Reply World :=
  sampleRun [(0, .null), (1, .null), (2, .null), (3, .null), (4, sampleId "x"), (5, sampleId "y")]

theorem sample_separated : Separated sampleUsers.world.history ∧
    (∃ p a, Login sampleUsers.world.history 4 p a "4" ∧ p.guid = "0" ∧ a.subject.isSome = true) ∧
    ∃ p a, Login sampleUsers.world.history 5 p a "5" ∧ p.guid = "1" ∧ a.subject.isSome = true := by
  have hall : sampleUsers.world.history.all ordinary = true := by decide +kernel
  refine ⟨(identities_separated sampleWorld_unique rfl (sampleRun_run _)).mpr
    (unmistakable_of_ordinary hall), ?_, ?_⟩
  · exact login_of_events _ 4 "0" "4" true (by decide +kernel) (by decide +kernel)
      (by decide +kernel)
  · exact login_of_events _ 5 "1" "5" true (by decide +kernel) (by decide +kernel)
      (by decide +kernel)

end Sample

end RustdeskConsole.Oidc
