import RustdeskConsole.Releases.Catalog

namespace RustdeskConsole.Releases

open Collections Effects.Guard Updater

section Requests

variable {α β : Type} {web : Web} {m n limit : ℕ} {url : String} {requests w w' : List String}
  {bytes : Bytes} {p : Loading (List String) α} {f : α → Loading (List String) β}

def Trusted (web : Web) (url : String) : Prop :=
  ∃ parsed, web.parse url = some parsed ∧ parsed.trusted = true

/-- From one list of requests to the other at most so many were added, and only
to trusted hosts. -/
def Adds (web : Web) (n : ℕ) (w w' : List String) : Prop :=
  ∃ requests, w' = requests ++ w ∧ requests.length ≤ n ∧ ∀ url ∈ requests, Trusted web url

theorem Adds.refl : Adds web n w w := ⟨[], rfl, Nat.zero_le _, nofun⟩

theorem Adds.trans {w₁ : List String} (h : Adds web m w w₁) (h' : Adds web n w₁ w') :
    Adds web (m + n) w w' := by
  obtain ⟨requests, rfl, hlen, htrusted⟩ := h
  obtain ⟨requests', rfl, hlen', htrusted'⟩ := h'
  refine ⟨requests' ++ requests, (List.append_assoc ..).symm, ?_, fun url hm ↦ ?_⟩
  · rw [List.length_append]
    omega
  · exact (List.mem_append.mp hm).elim (htrusted' url) (htrusted url)

theorem Adds.mono (h : Adds web m w w') (hmn : m ≤ n) : Adds web n w w' := by
  obtain ⟨requests, heq, hlen, htrusted⟩ := h
  exact ⟨requests, heq, Nat.le_trans hlen hmn, htrusted⟩

/-- However it ends. -/
def Requests (web : Web) (n : ℕ) (p : Loading (List String) α) : Prop :=
  ∀ w, Adds web n w (play p w).2

theorem Requests.bind (hp : Requests web m p) (hf : ∀ a, Requests web n (f a)) :
    Requests web (m + n) (p >>= f) := by
  intro w
  have h := hp w
  rw [play_bind]
  split
  · next a w₁ heq =>
    rw [heq] at h
    exact h.trans (hf a w₁)
  · next failure w₁ heq =>
    rw [heq] at h
    exact h.mono (Nat.le_add_right ..)

theorem Requests.andThen {k : ℕ} (hp : Requests web m p) (hf : ∀ a, Requests web n (f a))
    (hk : m + n = k) : Requests web k (p >>= f) := hk ▸ hp.bind hf

theorem requests_pure {a : α} : Requests web n (pure a) := fun _ ↦ .refl

theorem requests_throw {failure : Failure} :
    Requests web n (throw failure : Loading (List String) α) := fun _ ↦ .refl

theorem Requests.after_ensure {condition : Bool} {code message : String}
    {q : Loading (List String) β} (hq : condition = true → Requests web n q) :
    Requests web n (do ensure condition code message; q) := by
  intro w
  rw [play_bind, ensure]
  cases hc : condition with
  | true => exact hq hc w
  | false => exact .refl

/-- What comes of one request of `officialFetch`. -/
inductive Follows (web : Web) (limit n : ℕ) (url : String) (w : List String) :
    Except Failure Bytes × List String → Prop
  | refused (failure : Failure) : Follows web limit n url w (.error failure, w)
  | failed (failure : Failure) : Trusted web url →
      Follows web limit n url w (.error failure, url :: w)
  | redirected (next : String) : Trusted web url →
      Follows web limit n url w (play (follow web limit n next) (url :: w))
  | answered (response : Response) : Trusted web url → web.fetch w url = some response →
      Follows web limit n url w (readResponse limit response, url :: w)

theorem follows_follow : Follows web limit n url w (play (follow web limit (n + 1) url) w) := by
  rw [follow]
  split
  · exact .refused .unknown
  · next parsed hparse =>
    rw [play_bind, ensure]
    cases htrusted : parsed.trusted with
    | false => exact .refused _
    | true =>
      have htrusted : Trusted web url := ⟨parsed, hparse, htrusted⟩
      change Follows web limit n url w (play _ (url :: w))
      split
      · exact .failed _ htrusted
      · next response hfetch =>
        split
        · split
          · exact .failed _ htrusted
          · split
            · exact .failed _ htrusted
            · next next _ => exact .redirected next htrusted
        · have h : Follows web limit n url w (readResponse limit response, url :: w) :=
            .answered response htrusted hfetch
          split
          · next bytes heq => rwa [heq] at h
          · next failure heq => rwa [heq] at h

/-- `officialFetch` asks no host it does not trust, and no more often than it may. -/
theorem requests_follow : Requests web n (follow web limit n url) := by
  induction n generalizing url with
  | zero => exact requests_throw
  | succ n ih =>
    intro w
    have hone : Trusted web url → Adds web 1 w (url :: w) := fun htrusted ↦
      ⟨[url], rfl, Nat.le_refl _, fun other hm ↦ List.mem_singleton.mp hm ▸ htrusted⟩
    have h := @follows_follow web n limit url w
    generalize play (follow web limit (n + 1) url) w = ended at h
    cases h with
    | refused => exact .refl
    | failed _ htrusted => exact (hone htrusted).mono (Nat.le_add_left ..)
    | redirected next htrusted =>
      exact ((hone htrusted).trans (ih (url :: w))).mono (Nat.le_of_eq (Nat.add_comm ..))
    | answered _ htrusted => exact (hone htrusted).mono (Nat.le_add_left ..)

theorem readChunks_eq_ok {breaks : Bool} {size : ℕ} {chunks : List Bytes} :
    readChunks limit breaks size chunks = .ok bytes ↔
      breaks = false ∧ bytes = chunks.flatten ∧
        (chunks = [] ∨ size + bytes.length ≤ limit) := by
  induction chunks generalizing size bytes with
  | nil => cases breaks <;> simp [readChunks, eq_comm]
  | cons chunk chunks ih =>
    simp only [readChunks, bind_eq_ok, exists_unit, check_eq_ok, decide_eq_true_eq, ih,
      pure_eq_ok]
    constructor
    · rintro ⟨hsize, rest, ⟨hends, rfl, hrest⟩, rfl⟩
      refine ⟨hends, rfl, .inr ?_⟩
      rw [List.length_append]
      rcases hrest with rfl | hrest
      · exact hsize
      · omega
    · rintro ⟨hends, rfl, hrest⟩
      have hsize := hrest.resolve_left (List.cons_ne_nil _ _)
      rw [List.flatten_cons, List.length_append] at hsize
      exact ⟨by omega, _, ⟨hends, rfl, .inr (by omega)⟩, rfl⟩

theorem readResponse_eq_ok {response : Response} (h : readResponse limit response = .ok bytes) :
    (200 ≤ response.status ∧ response.status ≤ 299) ∧ bytes.length ≤ limit ∧
      ∃ chunks, response.body = some ⟨chunks, false⟩ ∧ bytes = chunks.flatten := by
  simp only [readResponse, bind_eq_ok, exists_unit, check_eq_ok, Bool.and_eq_true,
    decide_eq_true_eq] at h
  obtain ⟨-, hstatus, -, h⟩ := h
  split at h
  · cases h
  · next body hbody =>
    obtain ⟨hends, rfl, hsize⟩ := readChunks_eq_ok.mp h
    refine ⟨hstatus, ?_, body.chunks, ?_, rfl⟩
    · rcases hsize with hnil | hsize
      · rw [hnil]
        exact Nat.zero_le _
      · omega
    · rw [hbody, ← hends]

/-- What `officialFetch` returns is the whole body of the last reply, and that was
a success. -/
structure Complete (web : Web) (limit : ℕ) (bytes : Bytes) (w : List String) : Prop where
  length : bytes.length ≤ limit
  body : ∃ url before response chunks, w = url :: before ∧ web.fetch before url = some response ∧
    (200 ≤ response.status ∧ response.status ≤ 299) ∧ response.body = some ⟨chunks, false⟩ ∧
      bytes = chunks.flatten

theorem complete_follow (h : Loads (follow web limit n url) w bytes w') :
    Complete web limit bytes w' := by
  induction n generalizing url w with
  | zero => exact (not_loads_throw h).elim
  | succ n ih =>
    have hf := @follows_follow web n limit url w
    rw [h] at hf
    generalize hended : ((Except.ok bytes : Except Failure Bytes), w') = ended at hf
    cases hf with
    | refused => cases hended
    | failed => cases hended
    | redirected next => exact ih hended.symm
    | answered response _ hfetch =>
      rw [Prod.mk.injEq] at hended
      obtain ⟨hread, rfl⟩ := hended
      obtain ⟨hstatus, hlength, chunks, hbody, hbytes⟩ := readResponse_eq_ok hread.symm
      exact ⟨hlength, url, w, response, chunks, rfl, hfetch, hstatus, hbody, hbytes⟩

variable {reader : Reader} {component : Component} {release : OfficialRelease}

namespace OfficialCatalog

theorem requests_json {read : Bytes → Option α} :
    Requests web 6 (json (officialFetch web limit) read url) := by
  refine Requests.andThen requests_follow (fun bytes ↦ ?_) (Nat.add_zero 6)
  split
  · exact requests_throw
  · exact requests_pure

theorem requests_read :
    Requests web 12 (OfficialCatalog.read (officialFetch web limit) reader component release) := by
  refine Requests.after_ensure fun _ ↦ Requests.after_ensure fun _ ↦ ?_
  refine Requests.andThen requests_json (fun manifest ↦ ?_) (Nat.add_comm 6 6)
  refine Requests.andThen requests_json (fun commit ↦ ?_) (Nat.add_zero 6)
  split
  · exact requests_pure
  · exact requests_throw

theorem requests_stableReleases :
    Requests web (6 * n) (stableReleases (officialFetch web limit) reader component n) := by
  induction n with
  | zero => exact requests_pure
  | succ n ih =>
    refine Requests.andThen requests_json (fun batch ↦ ?_) (Nat.add_comm 6 (6 * n))
    split
    · exact requests_throw
    · split
      · exact requests_pure
      · refine Requests.after_ensure fun _ ↦ ?_
        exact Requests.andThen ih (fun _ ↦ requests_pure) (Nat.add_zero _)

theorem requests_latest :
    Requests web 72 (latest (officialFetch web limit) reader component) := by
  refine Requests.andThen (n := 12) requests_stableReleases (fun releases ↦ ?_) rfl
  split
  · exact requests_throw
  · exact requests_read

theorem requests_exact {releaseId : ℕ} :
    Requests web 18 (exact (officialFetch web limit) reader component releaseId) := by
  refine Requests.after_ensure fun _ ↦ ?_
  exact Requests.andThen requests_json (fun _ ↦ requests_read) rfl

end OfficialCatalog

/-- Whatever is answered, where redirects lead and how URLs are parsed, a download
and a look at the catalogue ask trusted hosts only, over `https` and a bounded
number of times, and a download is no longer than it may be and never cut short. -/
theorem downloads_trusted (web : Web) (limit : ℕ) (reader : Reader) (component : Component) :
    (∀ url, Requests web 6 (officialFetch web limit url) ∧ ∀ w bytes w',
      Loads (officialFetch web limit url) w bytes w' → Complete web limit bytes w') ∧
    Requests web 72
      (OfficialCatalog.latest (officialFetch web limit) reader component) ∧
    ∀ releaseId, Requests web 18
      (OfficialCatalog.exact (officialFetch web limit) reader component releaseId) :=
  ⟨fun _ ↦ ⟨requests_follow, fun _ _ _ h ↦ complete_follow h⟩, OfficialCatalog.requests_latest,
    fun _ ↦ OfficialCatalog.requests_exact⟩

end Requests

section Newest

variable {σ : Type} {download : FetchBytes σ} {reader : Reader} {component : Component}
  {a b release : OfficialRelease} {releases rest : List OfficialRelease}
  {pages : List (List OfficialRelease)} {manifest : Manifest} {w w' w₁ : σ} {n : ℕ}

/-- As `compareVersions` has it. -/
def Below (a b : OfficialRelease) : Prop :=
  ∃ k, compareVersions (tagVersion a.tagName) (tagVersion b.tagName) = .ok k ∧ k < 0

abbrev rank (release : OfficialRelease) : List ℕ := numbers (tagVersion release.tagName)

theorem stable_version (h : isStableRelease release = true) :
    isStableVersion (tagVersion release.tagName) = true := by
  simp only [isStableRelease, Bool.and_eq_true] at h
  exact h.1.1.1.2

theorem below_iff (ha : isStableRelease a = true) (hb : isStableRelease b = true) :
    Below a b ↔ rank a < rank b := by
  exact @lower_iff ⟨_, stable_version ha⟩ ⟨_, stable_version hb⟩

namespace OfficialCatalog

theorem precedes_iff (ha : isStableRelease a = true) (hb : isStableRelease b = true) :
    precedes a b = true ↔ rank b ≤ rank a := by
  have hl := numbers_length (stable_version ha) (stable_version hb)
  have hlt := compareParts_lt hl
  have hneg := compareParts_neg hl
  rw [precedes, compareVersions_eq (stable_version hb) (stable_version ha), ← not_lt, ← hlt]
  simp only [decide_eq_true_eq]
  omega

/-- The first of the highest releases of a list. -/
def Newest (releases : List OfficialRelease) (release : OfficialRelease) : Prop :=
  ∃ before after, releases = before ++ release :: after ∧ (∀ a ∈ before, Below a release) ∧
    ∀ a ∈ after, ¬Below release a

theorem Newest.stable (hn : Newest releases release)
    (hs : ∀ a ∈ releases, isStableRelease a = true) :
    isStableRelease release = true ∧ ∀ a ∈ releases, rank a ≤ rank release := by
  obtain ⟨before, after, rfl, hbefore, hafter⟩ := hn
  have hrelease := hs release (List.mem_append_right _ List.mem_cons_self)
  refine ⟨hrelease, fun a ha ↦ ?_⟩
  have hstable := hs a ha
  rcases List.mem_append.mp ha with ha | ha
  · exact le_of_lt ((below_iff hstable hrelease).mp (hbefore a ha))
  · rcases List.mem_cons.mp ha with rfl | ha
    · exact le_refl _
    · exact not_lt.mp fun h ↦ hafter a ha ((below_iff hrelease hstable).mpr h)

theorem Newest.unique {other : OfficialRelease} (hn : Newest releases release)
    (ho : Newest releases other) : release = other := by
  obtain ⟨before, after, rfl, hbefore, hafter⟩ := hn
  obtain ⟨before', after', heq, hbefore', hafter'⟩ := ho
  rcases List.append_eq_append_iff.mp heq with ⟨rest, rfl, hrest⟩ | ⟨rest, rfl, hrest⟩
  · rcases rest with _ | ⟨a, rest⟩
    · exact (List.cons.inj hrest).1
    · obtain ⟨rfl, rfl⟩ := List.cons.inj hrest
      have hbelow := hbefore' release (List.mem_append_right _ List.mem_cons_self)
      exact (hafter other (List.mem_append_right _ List.mem_cons_self) hbelow).elim
  · rcases rest with _ | ⟨a, rest⟩
    · exact (List.cons.inj hrest).1.symm
    · obtain ⟨rfl, rfl⟩ := List.cons.inj hrest
      have hbelow := hbefore other (List.mem_append_right _ List.mem_cons_self)
      exact (hafter' release (List.mem_append_right _ List.mem_cons_self) hbelow).elim

/-- The sort is stable. -/
theorem newest_head (hs : ∀ a ∈ releases, isStableRelease a = true)
    (h : newestFirst releases = release :: rest) : Newest releases release := by
  induction releases generalizing release rest with
  | nil => cases h
  | cons a releases ih =>
    have hsa := hs a List.mem_cons_self
    have hsr : ∀ b ∈ releases, isStableRelease b = true :=
      fun b hb ↦ hs b (List.mem_cons_of_mem _ hb)
    rw [newestFirst, List.insertionSort_cons] at h
    rcases hr : releases.insertionSort fun a b ↦ precedes a b = true with _ | ⟨b, others⟩
    · have hnil : releases = [] := by
        refine List.eq_nil_iff_forall_not_mem.mpr fun c hc ↦ ?_
        have hm := (List.mem_insertionSort fun a b ↦ precedes a b = true).mpr hc
        rw [hr] at hm
        cases hm
      rw [hr] at h
      cases h
      exact ⟨[], releases, rfl, nofun, by rw [hnil]; nofun⟩
    · have hb := ih hsr hr
      obtain ⟨hsb, hmax⟩ := hb.stable hsr
      rw [hr, List.orderedInsert_cons] at h
      split at h
      · next hp =>
        cases h
        have hle := (precedes_iff hsa hsb).mp hp
        exact ⟨[], releases, rfl, nofun, fun c hc hbelow ↦
          not_lt.mpr ((hmax c hc).trans hle) ((below_iff hsa (hsr c hc)).mp hbelow)⟩
      · next hp =>
        cases h
        obtain ⟨before, after, rfl, hbefore, hafter⟩ := hb
        refine ⟨a :: before, after, rfl, fun c hc ↦ ?_, hafter⟩
        rcases List.mem_cons.mp hc with rfl | hc
        · exact (below_iff hsa hsb).mpr (not_le.mp fun hle ↦ hp ((precedes_iff hsa hsb).mpr hle))
        · exact hbefore c hc

theorem mem_newestFirst : a ∈ newestFirst releases ↔ a ∈ releases := List.mem_insertionSort _

theorem newestFirst_iff (hs : ∀ a ∈ releases, isStableRelease a = true) :
    Newest releases release ↔ ∃ rest, newestFirst releases = release :: rest := by
  refine ⟨fun hn ↦ ?_, fun ⟨rest, h⟩ ↦ newest_head hs h⟩
  rcases h : newestFirst releases with _ | ⟨first, rest⟩
  · obtain ⟨before, after, rfl, -⟩ := hn
    have hm := mem_newestFirst.mpr (List.mem_append_right before (List.mem_cons_self (a := release)
      (l := after)))
    rw [h] at hm
    cases hm
  · exact ⟨rest, by rw [hn.unique (newest_head hs h)]⟩

/-- The pages of the catalogue from this one to the last, which is the first that
is not full, as they are answered one after the other. -/
inductive Pages (download : FetchBytes σ) (reader : Reader) (component : Component) :
    ℕ → σ → List (List OfficialRelease) → σ → Prop
  | last {page : ℕ} {w w' : σ} {batch : List OfficialRelease} :
      Loads (json download reader.releases (releasesUrl component page)) w (some batch) w' →
      batch.length < 100 → Pages download reader component page w [batch] w'
  | more {page : ℕ} {w w₁ w' : σ} {batch : List OfficialRelease}
      {pages : List (List OfficialRelease)} :
      Loads (json download reader.releases (releasesUrl component page)) w (some batch) w₁ →
      100 ≤ batch.length → Pages download reader component (page + 1) w₁ pages w' →
      Pages download reader component page w (batch :: pages) w'

theorem loads_page : Loads (stableReleases download reader component (n + 1)) w releases w' ↔
    ∃ batch w₁,
      Loads (json download reader.releases (releasesUrl component (10 - n))) w (some batch) w₁ ∧
        (batch.length < 100 ∧ releases = batch.filter isStableRelease ∧ w₁ = w' ∨
          100 ≤ batch.length ∧ 10 - n < 10 ∧
            ∃ rest, Loads (stableReleases download reader component n) w₁ rest w' ∧
              releases = batch.filter isStableRelease ++ rest) := by
  rw [stableReleases, loads_bind]
  constructor
  · rintro ⟨batch, w₁, hbatch, h⟩
    split at h
    · exact (not_loads_throw h).elim
    · next batch =>
      refine ⟨batch, w₁, hbatch, ?_⟩
      split at h
      · next hlen =>
        obtain ⟨rfl, rfl⟩ := loads_pure.mp h
        exact .inl ⟨hlen, rfl, rfl⟩
      · next hlen =>
        obtain ⟨_, _, hensure, h⟩ := loads_bind.mp h
        obtain ⟨hpage, rfl⟩ := loads_ensure.mp hensure
        obtain ⟨rest, w₂, hrest, h⟩ := loads_bind.mp h
        obtain ⟨rfl, rfl⟩ := loads_pure.mp h
        exact .inr ⟨Nat.le_of_not_lt hlen, of_decide_eq_true hpage, rest, hrest, rfl⟩
  · rintro ⟨batch, w₁, hbatch, ⟨hlen, rfl, rfl⟩ | ⟨hlen, hpage, rest, hrest, rfl⟩⟩
    · refine ⟨some batch, w₁, hbatch, ?_⟩
      simp only [hlen, if_true]
      exact loads_pure.mpr ⟨rfl, rfl⟩
    · refine ⟨some batch, w₁, hbatch, ?_⟩
      simp only [Nat.not_lt.mpr hlen, if_false]
      exact loads_bind.mpr ⟨(), w₁, loads_ensure.mpr ⟨decide_eq_true hpage, rfl⟩,
        loads_bind.mpr ⟨rest, w', hrest, loads_pure.mpr ⟨rfl, rfl⟩⟩⟩

theorem loads_stableReleases (hn : n < 10) :
    Loads (stableReleases download reader component (n + 1)) w releases w' ↔
      ∃ pages, Pages download reader component (10 - n) w pages w' ∧ pages.length ≤ n + 1 ∧
        releases = pages.flatten.filter isStableRelease := by
  induction n generalizing w releases with
  | zero =>
    rw [loads_page]
    constructor
    · rintro ⟨batch, w₁, hbatch, ⟨hlen, rfl, rfl⟩ | ⟨-, hpage, -⟩⟩
      · exact ⟨[batch], .last hbatch hlen, Nat.le_refl _, by rw [List.flatten_singleton]⟩
      · exact (Nat.lt_irrefl _ hpage).elim
    · rintro ⟨pages, hpages, hlen, rfl⟩
      cases hpages with
      | last hbatch hshort =>
        exact ⟨_, w', hbatch, .inl ⟨hshort, by rw [List.flatten_singleton], rfl⟩⟩
      | more _ _ hmore =>
        have hnil := List.eq_nil_of_length_eq_zero (Nat.le_zero.mp (Nat.le_of_succ_le_succ hlen))
        subst hnil
        cases hmore
  | succ n ih =>
    have ih := fun w releases ↦ @ih releases w (by omega)
    have hnext : 10 - (n + 1) + 1 = 10 - n := by omega
    rw [loads_page]
    constructor
    · rintro ⟨batch, w₁, hbatch, ⟨hlen, rfl, rfl⟩ | ⟨hlen, -, rest, hrest, rfl⟩⟩
      · exact ⟨[batch], .last hbatch hlen, Nat.succ_le_succ (Nat.zero_le _),
          by rw [List.flatten_singleton]⟩
      · obtain ⟨pages, hpages, hle, rfl⟩ := (ih w₁ rest).mp hrest
        exact ⟨batch :: pages, .more hbatch hlen (hnext ▸ hpages), Nat.succ_le_succ hle,
          by rw [List.flatten_cons, List.filter_append]⟩
    · rintro ⟨pages, hpages, hlen, rfl⟩
      cases hpages with
      | last hbatch hshort =>
        exact ⟨_, w', hbatch, .inl ⟨hshort, by rw [List.flatten_singleton], rfl⟩⟩
      | more hbatch hfull hmore =>
        refine ⟨_, _, hbatch, .inr ⟨hfull, by omega, _, (ih _ _).mpr ⟨_, hnext ▸ hmore,
          Nat.le_of_succ_le_succ hlen, rfl⟩, ?_⟩⟩
        rw [List.flatten_cons, List.filter_append]

theorem validateManifest_version {accepted : Manifest} {commit : String}
    (h : validateManifest manifest component release commit = .ok accepted) :
    accepted.version = tagVersion release.tagName := by
  obtain ⟨rfl, -⟩ := validateManifest_ok h
  simp only [validateManifest, bind_eq_ok, exists_unit, check_eq_ok, Bool.and_eq_true,
    decide_eq_true_eq] at h
  exact h.2.2.1.1.2

theorem read_version
    (h : Loads (OfficialCatalog.read download reader component release) w manifest w') :
    manifest.version = tagVersion release.tagName := by
  obtain ⟨_, _, -, h⟩ := loads_bind.mp h
  obtain ⟨_, _, -, h⟩ := loads_bind.mp h
  obtain ⟨stated, _, -, h⟩ := loads_bind.mp h
  obtain ⟨commit, _, -, h⟩ := loads_bind.mp h
  split at h
  · next accepted hvalid =>
    obtain ⟨rfl, -⟩ := loads_pure.mp h
    exact validateManifest_version hvalid
  · exact (not_loads_throw h).elim

/-- `latest` returns a manifest just when the whole catalogue was read, in no more
than ten pages, and it is the manifest of the first of its highest stable releases. -/
theorem latest_newest :
    Loads (latest download reader component) w manifest w' ↔ ∃ pages w₁ release,
      Pages download reader component 1 w pages w₁ ∧ pages.length ≤ 10 ∧
        Newest (pages.flatten.filter isStableRelease) release ∧
        Loads (OfficialCatalog.read download reader component release) w₁ manifest w' ∧
        manifest.version = tagVersion release.tagName := by
  rw [latest, loads_bind]
  constructor
  · rintro ⟨releases, w₁, hreleases, h⟩
    obtain ⟨pages, hpages, hlen, rfl⟩ := (loads_stableReleases (by decide)).mp hreleases
    split at h
    · exact (not_loads_throw h).elim
    · next release rest heq =>
      have hnewest := newest_head (fun a ha ↦ (List.mem_filter.mp ha).2) heq
      exact ⟨pages, w₁, release, hpages, hlen, hnewest, h, read_version h⟩
  · rintro ⟨pages, w₁, release, hpages, hlen, hnewest, h, -⟩
    refine ⟨_, w₁, (loads_stableReleases (by decide)).mpr ⟨pages, hpages, hlen, rfl⟩, ?_⟩
    obtain ⟨rest, heq⟩ := (newestFirst_iff fun a ha ↦ (List.mem_filter.mp ha).2).mp hnewest
    rw [heq]
    exact h

end OfficialCatalog

end Newest

end RustdeskConsole.Releases
