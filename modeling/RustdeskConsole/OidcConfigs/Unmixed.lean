import RustdeskConsole.Collections.Rows
import RustdeskConsole.OidcConfigs.Service

namespace RustdeskConsole.OidcConfigs

open Accounts (Failure)
open Auth (truthy)
open Collections
open Effects Handler Relation
open Oidc (OidcProvider OidcAuthState OidcAuthRequestDto providerNameOf)

/-- The provider that last filled the cache of an issuer, and when, unless the
cache was cleared since. -/
def lastFill (issuer : String) : List Event → Option (OidcProvider × ℕ)
  | [] => none
  | .filled provider timestamp :: h =>
    if provider.issuer = issuer then some (provider, timestamp) else lastFill issuer h
  | .cleared cleared :: h =>
    if cleared = "" ∨ cleared = issuer then none else lastFill issuer h
  | .sent .. :: h => lastFill issuer h

def Outgoing.Uses (config : Configuration) : Outgoing → Prop
  | .authorization endpoint clientId =>
    truthy config.metadata.authorizationEndpoint = some endpoint ∧ clientId = config.clientId
  | .token endpoint clientId clientSecret =>
    truthy config.metadata.tokenEndpoint = some endpoint ∧ clientId = config.clientId ∧
      clientSecret = config.clientSecret
  | .userinfo endpoint => truthy config.metadata.userinfoEndpoint = some endpoint

/-- The provider whose login a request starts or completes. -/
def World.servedProvider (w : World) : Request → Option OidcProvider
  | .requestAuth dto => w.getProviderWithSecret (providerNameOf dto.op)
  | .callback state _ => ((truthy state).bind w.authState?).bind fun authState ↦
    w.getProviderWithSecret (providerNameOf authState.op)
  | _ => none

section Spec

variable (discovery : String → Option ServerMetadata)

/-- The cache of the provider's issuer was last filled by another provider with
another configuration. -/
def World.crossed (w : World) (provider : OidcProvider) (now : ℕ) : Bool :=
  match lastFill provider.issuer w.history with
  | some (other, timestamp) => timely timestamp now && other.guid ≠ provider.guid &&
      configurationOf discovery other ≠ configurationOf discovery provider
  | none => false

/-- One request after the other, with the guid of a new row drawn afresh. -/
def Step (w w' : World) : Prop :=
  ∃ o request, (∀ row ∈ w.providers, row.guid ≠ o.uuid) ∧
    w' = finalState (serve discovery o request) w

/-- A step that does not log in through a provider whose cache is another's. -/
def ClearStep (w w' : World) : Prop :=
  ∃ o request, (∀ row ∈ w.providers, row.guid ≠ o.uuid) ∧
    ((w.servedProvider request).all fun provider ↦ !w.crossed discovery provider o.now) = true ∧
    w' = finalState (serve discovery o request) w

/-- The server when it has just been started. -/
structure Initial (w : World) : Prop where
  guids : (w.providers.map (·.guid)).Nodup
  names : (w.providers.map (·.name)).Nodup
  configCache : w.configCache = .empty
  configCacheTimestamp : w.configCacheTimestamp = .empty
  history : w.history = []

/-- Each request was sent with the configuration of its provider as it was
stored at that time. -/
def Unmixed (w : World) : Prop :=
  ∀ stored outgoing, .sent stored outgoing ∈ w.history →
    ∃ provider, stored = some provider ∧ outgoing.Uses (configurationOf discovery provider)

/-- The cache holds what its history says, and what a provider filled it with is
still the configuration of that provider, but for the issuers in `S`. -/
structure SoundOff (S : Set String) (w : World) : Prop where
  guids : (w.providers.map (·.guid)).Nodup
  configs : ∀ issuer, w.configCache.get? issuer =
    (lastFill issuer w.history).map fun fill ↦ configurationOf discovery fill.1
  timestamps : ∀ issuer, w.configCacheTimestamp.get? issuer =
    (lastFill issuer w.history).map Prod.snd
  standing : ∀ issuer ∉ S, ∀ other timestamp,
    lastFill issuer w.history = some (other, timestamp) → ∃ row, w.provider? other.guid = some row ∧
      row.issuer = issuer ∧ configurationOf discovery row = configurationOf discovery other
  unmixed : Unmixed discovery w

abbrev Sound (w : World) : Prop := SoundOff discovery ∅ w

end Spec

variable {discovery : String → Option ServerMetadata} {o : Choice} {w w' : World} {S : Set String}
  {provider other row : OidcProvider} {issuer guid : String} {now timestamp : ℕ}
  {outgoing : Outgoing} {h : List Event}

theorem lastFill_cleared {cleared : String} {fill : OidcProvider × ℕ}
    (hf : lastFill issuer (.cleared cleared :: h) = some fill) :
    cleared ≠ issuer ∧ lastFill issuer h = some fill := by
  rw [lastFill] at hf
  split at hf
  · cases hf
  · next hc => exact ⟨fun heq ↦ hc (.inr heq), hf⟩

namespace SoundOff

theorem initial (h : Initial w) : Sound discovery w where
  guids := h.guids
  configs issuer := by rw [h.configCache, h.history]; rfl
  timestamps issuer := by rw [h.configCacheTimestamp, h.history]; rfl
  standing issuer _ other timestamp hf := by
    rw [h.history] at hf
    cases hf
  unmixed stored outgoing hm := by
    rw [h.history] at hm
    cases hm

theorem of_eq (hs : SoundOff discovery S w) (hp : w'.providers = w.providers)
    (hc : w'.configCache = w.configCache)
    (ht : w'.configCacheTimestamp = w.configCacheTimestamp) (hh : w'.history = w.history) :
    SoundOff discovery S w' where
  guids := hp ▸ hs.guids
  configs issuer := by rw [hc, hh, hs.configs]
  timestamps issuer := by rw [ht, hh, hs.timestamps]
  standing issuer hi other timestamp hf := by
    rw [World.provider?, hp]
    exact hs.standing issuer hi other timestamp (hh ▸ hf)
  unmixed stored outgoing hm := hs.unmixed stored outgoing (hh ▸ hm)

/-- A provider's login finds its own configuration in the cache just when no
other one's is there. -/
theorem cachedConfig_iff (hs : Sound discovery w) (hp : w.provider? provider.guid = some provider) :
    (∀ config, w.cachedConfig provider.issuer now = some config →
      config = configurationOf discovery provider) ↔ w.crossed discovery provider now = false := by
  rw [World.cachedConfig, hs.configs, hs.timestamps, World.crossed]
  cases hf : lastFill provider.issuer w.history with
  | none => exact iff_of_true nofun rfl
  | some fill =>
    obtain ⟨other, timestamp⟩ := fill
    obtain ⟨row, hrow, -, hconfig⟩ := hs.standing _ (Set.notMem_empty _) other timestamp hf
    by_cases ht : timely timestamp now
    · by_cases hg : other.guid = provider.guid
      · rw [hg, hp] at hrow
        cases hrow
        simp [ht, hg, hconfig]
      · simp [ht, hg]
    · simp [ht]

theorem cache (hs : Sound discovery w) (hp : w.provider? provider.guid = some provider) :
    Sound discovery (w.cacheConfig provider (configurationOf discovery provider) timestamp) where
  guids := hs.guids
  configs issuer := by
    simp only [World.cacheConfig, lastFill, OrderedMap.get?_set]
    by_cases hi : issuer = provider.issuer
    · simp [hi]
    · rw [if_neg hi, if_neg (Ne.symm hi), hs.configs]
  timestamps issuer := by
    simp only [World.cacheConfig, lastFill, OrderedMap.get?_set]
    by_cases hi : issuer = provider.issuer
    · simp [hi]
    · rw [if_neg hi, if_neg (Ne.symm hi), hs.timestamps]
  standing issuer hi other timestamp' hf := by
    simp only [World.cacheConfig, lastFill] at hf
    split at hf
    · next heq =>
      cases hf
      exact ⟨provider, hp, heq, rfl⟩
    · exact hs.standing issuer hi other timestamp' hf
  unmixed stored outgoing hm := by
    rcases List.mem_cons.mp hm with heq | hm
    · cases heq
    · exact hs.unmixed stored outgoing hm

theorem clear (hs : SoundOff discovery S w) (issuer : String) :
    SoundOff discovery (S \ {issuer}) (w.clearConfigCache issuer) where
  guids := hs.guids
  configs issuer' := by
    simp only [World.clearConfigCache, lastFill]
    by_cases he : issuer = ""
    · simp [he]
    · simp only [he, if_false, false_or, OrderedMap.get?_erase, hs.configs, eq_comm (a := issuer')]
      split <;> rfl
  timestamps issuer' := by
    simp only [World.clearConfigCache, lastFill]
    by_cases he : issuer = ""
    · simp [he]
    · simp only [he, if_false, false_or, OrderedMap.get?_erase, hs.timestamps, eq_comm (a := issuer')]
      split <;> rfl
  standing issuer' hi other timestamp hf := by
    obtain ⟨hne, hf⟩ := lastFill_cleared hf
    exact hs.standing issuer' (fun hm ↦ hi ⟨hm, Ne.symm hne⟩) other timestamp hf
  unmixed stored outgoing hm := by
    rcases List.mem_cons.mp hm with heq | hm
    · cases heq
    · exact hs.unmixed stored outgoing hm

theorem send (hs : SoundOff discovery S w) (hp : w.provider? guid = some provider)
    (hu : outgoing.Uses (configurationOf discovery provider)) :
    SoundOff discovery S (w.record (.sent (w.provider? guid) outgoing)) where
  guids := hs.guids
  configs := hs.configs
  timestamps := hs.timestamps
  standing := hs.standing
  unmixed stored outgoing' hm := by
    rcases List.mem_cons.mp hm with heq | hm
    · cases heq
      exact ⟨provider, hp, hu⟩
    · exact hs.unmixed stored outgoing' hm

theorem create (hs : Sound discovery w) (hfresh : ∀ row ∈ w.providers, row.guid ≠ provider.guid) :
    Sound discovery { w with providers := provider :: w.providers } where
  guids := by
    rw [List.map_cons, List.nodup_cons]
    refine ⟨fun hm ↦ ?_, hs.guids⟩
    obtain ⟨row, hrow, heq⟩ := List.mem_map.mp hm
    exact hfresh row hrow heq
  configs := hs.configs
  timestamps := hs.timestamps
  standing issuer hi other timestamp hf := by
    obtain ⟨row, hrow, h⟩ := hs.standing issuer hi other timestamp hf
    refine ⟨row, ?_, h⟩
    have hne : provider.guid ≠ other.guid := by
      rw [← key_of_find? hrow]
      exact (hfresh row (List.mem_of_find?_eq_some hrow)).symm
    rw [World.provider?, List.find?_cons_of_neg (by simpa using hne)]
    exact hrow
  unmixed := hs.unmixed

/-- A row that is saved with another configuration may no longer be what filled
the cache of its old issuer. -/
theorem save (hs : Sound discovery w) (provider : OidcProvider) (hp : w.provider? provider.guid = some row)
    (hsame : row.issuer ∈ S ∨ provider.issuer = row.issuer ∧
      configurationOf discovery provider = configurationOf discovery row) :
    SoundOff discovery S (w.saveProvider provider) := by
  have hkey : ∀ row : OidcProvider,
      (if row.guid = provider.guid then provider else row).guid = row.guid := by
    intro row
    split
    · next heq => exact heq.symm
    · rfl
  refine ⟨?_, hs.configs, hs.timestamps, fun issuer hi other timestamp hf ↦ ?_, hs.unmixed⟩
  · rw [World.saveProvider, List.map_map]
    exact (List.map_congr_left fun row _ ↦ (hkey row).symm) ▸ hs.guids
  · obtain ⟨row', hrow, hissuer, hconfig⟩ :=
      hs.standing issuer (Set.notMem_empty _) other timestamp hf
    have hsaved : (w.saveProvider provider).provider? other.guid =
        some (if row'.guid = provider.guid then provider else row') := by
      rw [World.provider?, World.saveProvider, find?_map_key hkey, ← World.provider?, hrow,
        Option.map_some]
    refine ⟨_, hsaved, ?_⟩
    split
    · next heq =>
      rw [key_of_find? hrow] at heq
      rw [heq, hp] at hrow
      cases hrow
      have hkept := hsame.resolve_left fun hm ↦ hi (hissuer ▸ hm)
      exact ⟨hkept.1.trans hissuer, hkept.2.trans hconfig⟩
    · exact ⟨hissuer, hconfig⟩

theorem remove (hs : Sound discovery w) (hp : w.provider? guid = some row)
    (hf : lastFill row.issuer w.history = none) : Sound discovery (w.removeProvider guid) where
  guids := (List.filter_sublist.map _).nodup hs.guids
  configs := hs.configs
  timestamps := hs.timestamps
  standing issuer hi other timestamp hfill := by
    obtain ⟨row', hrow, hissuer, hconfig⟩ := hs.standing issuer hi other timestamp hfill
    have hne : other.guid ≠ guid := by
      intro heq
      rw [heq, hp] at hrow
      cases hrow
      rw [hissuer] at hf
      exact Option.some_ne_none _ (hfill.symm.trans hf)
    refine ⟨row', ?_, hissuer, hconfig⟩
    exact (find?_filter_key hne).trans hrow
  unmixed := hs.unmixed

end SoundOff

/-- The stored providers do not change while a login goes through one of them. -/
structure Holding (discovery : String → Option ServerMetadata) (providers : List OidcProvider)
    (w : World) : Prop where
  sound : Sound discovery w
  providers : w.providers = providers

/-- A program that begins with a lookup. -/
theorem lookup_ends {α β : Type} {look : World → Option α} {failure : Failure}
    {f : α → Handler β} {P : World → Prop} (hw : P w)
    (h : ∀ a, look w = some a → Ends (f a) w fun _ ↦ P) :
    Ends ((do require (look (← get)) failure) >>= f) w fun _ ↦ P := by
  have hrequire : Ends (require (look w) failure >>= f) w fun _ ↦ P := by
    cases ha : look w with
    | some a => exact h a ha
    | none => exact .throw hw
  exact hrequire

section Login

variable {providers : List OidcProvider}

theorem preserves_send (hp : providers.find? (·.guid = guid) = some provider)
    (hu : outgoing.Uses (configurationOf discovery provider)) :
    Preserves (Holding discovery providers) (send guid outgoing) := by
  refine .modify fun w hw ↦ ⟨hw.sound.send ?_ hu, hw.providers⟩
  rw [World.provider?, hw.providers, hp]

theorem getOidcConfig_ends (hw : Holding discovery providers w)
    (hp : w.provider? provider.guid = some provider)
    (hc : w.crossed discovery provider o.now = false) :
    Ends (OidcService.getOidcConfig discovery o provider) w fun r w' ↦
      Holding discovery providers w' ∧ ∀ config, r = .ok config →
        config = configurationOf discovery provider := by
  refine .get_bind ?_
  split
  · next config hcached =>
    refine .pure ⟨hw, fun config' heq ↦ ?_⟩
    cases heq
    exact (hw.sound.cachedConfig_iff hp).mpr hc config hcached
  · refine .modify_bind (.pure ⟨⟨hw.sound.cache hp, hw.providers⟩, fun config heq ↦ ?_⟩)
    cases heq
    rfl

variable (hp : providers.find? (·.guid = provider.guid) = some provider)
include hp

theorem preserves_buildAuthorizationUrl : Preserves (Holding discovery providers)
    (OidcService.buildAuthorizationUrl provider.guid (configurationOf discovery provider)) :=
  preserves_require fun _ he ↦ preserves_send hp ⟨he, rfl⟩

theorem preserves_authorizationCodeGrant : Preserves (Holding discovery providers)
    (OidcService.authorizationCodeGrant o provider.guid (configurationOf discovery provider)) :=
  .bind preserves_reply fun _ ↦ preserves_require fun _ he ↦
    .bind (preserves_send hp ⟨he, rfl, rfl⟩) fun _ ↦ preserves_reply

theorem preserves_completeUserInfo {claims : Option Oidc.IdTokenClaims} :
    Preserves (Holding discovery providers)
      (OidcService.completeUserInfo o provider.guid (configurationOf discovery provider) claims) := by
  rw [OidcService.completeUserInfo]
  split
  · next endpoint he =>
    split
    · exact .bind (preserves_send hp he) fun _ ↦ .pure
    · exact .pure
  · exact .pure

theorem preserves_fetchOAuth2UserInfo (htype : provider.type = .oauth2) :
    Preserves (Holding discovery providers) (OidcService.fetchOAuth2UserInfo o provider) := by
  refine preserves_require fun endpoint he ↦ .bind (preserves_send hp ?_) fun _ ↦
    .bind preserves_reply fun _ ↦ preserves_require fun _ _ ↦ .pure
  simp only [Outgoing.Uses, configurationOf, discover, if_pos htype, Option.getD_none]
  exact he

theorem preserves_exchange {authState : OidcAuthState}
    (hn : providers.find? (fun p ↦ p.name = providerNameOf authState.op && p.enabled) =
      some provider) :
    Preserves (Holding discovery providers)
      (OidcService.exchange o provider (configurationOf discovery provider) authState) := by
  rw [OidcService.exchange]
  split
  · exact .bind (preserves_authorizationCodeGrant hp) fun tokens ↦ preserves_completeUserInfo hp
  · next htype =>
    refine .bind (preserves_authorizationCodeGrant hp) fun tokens ↦ preserves_require fun _ _ ↦
      fun w hw ↦ lookup_ends hw fun again hagain ↦ ?_
    rw [World.getProviderWithSecret, hw.providers, hn] at hagain
    cases hagain
    exact preserves_fetchOAuth2UserInfo hp htype w hw

theorem complete_ends {authState : OidcAuthState} (hw : Holding discovery providers w)
    (hn : providers.find? (fun p ↦ p.name = providerNameOf authState.op && p.enabled) =
      some provider) (hc : w.crossed discovery provider o.now = false) :
    Ends (OidcService.complete discovery o provider authState) w fun _ ↦
      Holding discovery providers := by
  have hstored : w.provider? provider.guid = some provider := by
    rw [World.provider?, hw.providers, hp]
  refine (getOidcConfig_ends hw hstored hc).bind (fun config w₁ hw₁ ↦ ?_) fun _ _ hw₁ ↦ hw₁.1
  obtain rfl := hw₁.2 config rfl
  have hsave : ∀ authState', ∀ w, Holding discovery providers w →
      Holding discovery providers (w.saveAuthState authState') := fun authState' w hw ↦
    ⟨hw.sound.of_eq rfl rfl rfl rfl, hw.providers⟩
  exact Preserves.bind (preserves_exchange hp hn) (fun _ ↦ .bind preserves_reply fun _ ↦
    .bind preserves_reply fun _ ↦ .modify (hsave _)) w₁ hw₁.1

end Login

theorem preserves_assertName {P : World → Prop} (name : String) :
    Preserves P (OidcAdminService.assertName name) :=
  .bind .get fun _ ↦ preserves_assert

theorem preserves_assertRename {P : World → Prop} (provider : OidcProvider) (name : Option String) :
    Preserves P (OidcAdminService.assertRename provider name) := by
  rw [OidcAdminService.assertRename]
  split
  · split
    · exact .pure
    · exact preserves_assertName _
  · exact .pure

theorem require_ends {α β : Type} {value : Option α} {failure : Failure} {f : α → Handler β}
    {P : World → Prop} (hw : P w) (h : ∀ a, value = some a → Ends (f a) w fun _ ↦ P) :
    Ends (require value failure >>= f) w fun _ ↦ P := by
  cases value with
  | some a => exact h a rfl
  | none => exact .throw hw

theorem reply_bind {α β : Type} {x : Except Failure α} {f : α → Handler β} {P : World → Prop}
    (hw : P w) (h : ∀ a, Ends (f a) w fun _ ↦ P) : Ends (reply x >>= f) w fun _ ↦ P := by
  cases x with
  | ok a => exact h a
  | error failure => exact .throw hw

theorem update_ends {dto : Oidc.UpdateOidcProviderDto} (hw : Sound discovery w) :
    Ends (OidcAdminService.update o guid dto) w fun _ ↦ Sound discovery := by
  refine lookup_ends hw fun provider hp ↦ ?_
  have hguid : (Oidc.OidcAdminService.assign provider dto).guid = guid := by
    rw [← key_of_find? hp]
    rfl
  generalize Oidc.OidcAdminService.assign provider dto = saved at hguid ⊢
  subst hguid
  have hrename : Preserves (· = w) _ := preserves_assertRename provider dto.name
  refine (hrename w rfl).bind (fun _ w₁ hw₁ ↦ ?_) fun _ _ heq ↦ heq ▸ hw
  obtain rfl : w = w₁ := hw₁.symm
  refine reply_bind hw fun _ ↦ .modify_bind (.modify_bind (.modify ?_))
  have hsaved := hw.save saved hp (.inl (Set.mem_singleton provider.issuer))
  split
  · have hcleared := hsaved.clear provider.issuer
    rw [Set.sdiff_self] at hcleared
    simpa only [Set.empty_sdiff] using hcleared.clear saved.issuer
  · next hissuer =>
    rw [ne_eq, not_not] at hissuer
    have hcleared := hsaved.clear provider.issuer
    rw [Set.sdiff_self, ← hissuer] at hcleared
    exact hcleared

theorem remove_ends (hw : Sound discovery w) :
    Ends (OidcAdminService.remove o guid) w fun _ ↦ Sound discovery := by
  refine lookup_ends hw fun provider hp ↦ .modify_bind ?_
  have hcleared := hw.clear provider.issuer
  rw [Set.empty_sdiff] at hcleared
  refine reply_bind hcleared fun _ ↦ .modify (hcleared.remove hp ?_)
  rw [World.clearConfigCache, lastFill, if_pos (.inr rfl)]

theorem toggle_ends {enabled : Bool} (hw : Sound discovery w) :
    Ends (OidcAdminService.toggle o guid enabled) w fun _ ↦ Sound discovery := by
  refine lookup_ends hw fun provider hp ↦ reply_bind hw fun _ ↦ .modify ?_
  obtain rfl := key_of_find? hp
  exact hw.save { provider with enabled := enabled } hp (.inr ⟨rfl, rfl⟩)

theorem create_ends {dto : Oidc.CreateOidcProviderDto} (hw : Sound discovery w)
    (hfresh : ∀ row ∈ w.providers, row.guid ≠ o.uuid) :
    Ends (OidcAdminService.create o dto) w fun _ ↦ Sound discovery := by
  have hname : Preserves (· = w) _ := preserves_assertName dto.name
  refine (hname w rfl).bind (fun _ w₁ hw₁ ↦ ?_) fun _ _ heq ↦ heq ▸ hw
  obtain rfl : w = w₁ := hw₁.symm
  exact reply_bind hw fun _ ↦ .modify (hw.create hfresh)

theorem testConnection_ends (hw : Sound discovery w) :
    Ends (OidcAdminService.testConnection discovery guid) w fun _ ↦ Sound discovery := by
  refine lookup_ends hw fun provider hp ↦ ?_
  split
  · have hcleared := hw.clear provider.issuer
    rw [Set.empty_sdiff] at hcleared
    exact .modify_bind (.pure hcleared)
  · exact .pure hw

theorem requestAuth_ends {dto : OidcAuthRequestDto} (hw : Sound discovery w)
    (hc : (w.servedProvider (.requestAuth dto)).all
      (fun provider ↦ !w.crossed discovery provider o.now) = true) :
    Ends (OidcService.requestAuth discovery o dto) w fun _ ↦ Sound discovery := by
  refine lookup_ends hw fun provider hfound ↦ ?_
  have hp := find?_of_mem hw.guids (List.mem_of_find?_eq_some hfound)
  have hclear : w.crossed discovery provider o.now = false := by
    simpa only [World.servedProvider, hfound, Option.all_some, Bool.not_eq_true'] using hc
  refine ((preserves_assert : Preserves (· = w) _) w rfl).bind (fun _ w₁ hw₁ ↦ ?_)
    fun _ _ heq ↦ heq ▸ hw
  obtain rfl : w = w₁ := hw₁.symm
  refine reply_bind hw fun _ ↦ .modify_bind ?_
  refine Ends.bind (Q := fun _ ↦ Sound discovery)
    (getOidcConfig_ends ⟨hw.of_eq rfl rfl rfl rfl, rfl⟩ hp hclear)
    (fun config w₂ hw₂ ↦ ?_) fun _ _ hw₂ ↦ hw₂.1.sound
  obtain rfl := hw₂.2 config rfl
  exact (Preserves.bind (preserves_buildAuthorizationUrl hp) (fun _ ↦ .pure) w₂ hw₂.1).mono
    fun _ _ hw₃ ↦ hw₃.sound

theorem assertCurrent_ends {authState : OidcAuthState} (hw : Sound discovery w) :
    Ends (OidcService.assertCurrent o authState) w fun r w' ↦
      Sound discovery w' ∧ (r = .ok () → w' = w) := by
  rw [OidcService.assertCurrent]
  split
  · cases o.authStateSaved with
    | ok u =>
      have hw' : Sound discovery (w.saveAuthState { authState with status := .expired }) :=
        hw.of_eq rfl rfl rfl rfl
      exact ⟨hw', by simp⟩
    | error failure => exact ⟨hw, by simp⟩
  · exact .pure ⟨hw, fun _ ↦ rfl⟩

theorem preserves_conceal {P : World → Prop} (failure : Failure) :
    Preserves P (OidcService.conceal failure) := by
  cases failure <;> exact .throw

theorem handleCallback_ends {state error : Option String} (hw : Sound discovery w)
    (hc : (w.servedProvider (.callback state error)).all
      (fun provider ↦ !w.crossed discovery provider o.now) = true) :
    Ends (OidcService.handleCallback discovery o state error) w fun _ ↦ Sound discovery := by
  refine ((preserves_assert : Preserves (· = w) _) w rfl).bind (fun _ w₁ hw₁ ↦ ?_)
    fun _ _ heq ↦ heq ▸ hw
  obtain rfl : w = w₁ := hw₁.symm
  refine require_ends hw fun state hstate ↦ lookup_ends hw fun authState hauth ↦ ?_
  refine (assertCurrent_ends hw).bind (fun _ w₁ hw₁ ↦ ?_) fun _ _ hw₁ ↦ hw₁.1
  obtain rfl : w = w₁ := (hw₁.2 rfl).symm
  refine ((preserves_assert : Preserves (· = w) _) w rfl).bind (fun _ w₁ hw₁ ↦ ?_)
    fun _ _ heq ↦ heq ▸ hw
  obtain rfl : w = w₁ := hw₁.symm
  refine lookup_ends hw fun provider hfound ↦ ?_
  have hp := find?_of_mem hw.guids (List.mem_of_find?_eq_some hfound)
  have hclear : w.crossed discovery provider o.now = false := by
    simpa only [World.servedProvider, hstate, hauth, Option.bind_some, hfound, Option.all_some,
      Bool.not_eq_true'] using hc
  refine (complete_ends hp ⟨hw, rfl⟩ hfound hclear).tryCatch (fun _ _ h ↦ h.sound)
    fun e w₁ hw₁ ↦ preserves_conceal e w₁ hw₁.sound

theorem ignore_ends {α : Type} {x : Handler α} (h : Ends x w fun _ ↦ Sound discovery) :
    Ends (ignore x) w fun _ ↦ Sound discovery :=
  h.bind (fun _ _ hw ↦ .pure hw) fun _ _ hw ↦ hw

theorem SoundOff.step (hs : Sound discovery w) (h : ClearStep discovery w w') :
    Sound discovery w' := by
  obtain ⟨o, request, hfresh, hc, rfl⟩ := h
  refine Ends.finalState ?_
  cases request with
  | create dto => exact create_ends hs hfresh
  | update guid dto => exact update_ends hs
  | remove guid => exact remove_ends hs
  | toggle guid enabled => exact toggle_ends hs
  | testConnection guid => exact ignore_ends (testConnection_ends hs)
  | requestAuth dto => exact ignore_ends (requestAuth_ends hs hc)
  | callback state error => exact handleCallback_ends hs hc

/-- As long as no login goes through a provider of whose issuer another one has
filled the cache, each request is sent with the configuration of its provider. -/
theorem configurations_unmixed (h₀ : Initial w)
    (h : ReflTransGen (ClearStep discovery) w w') : Unmixed discovery w' := by
  suffices hs : Sound discovery w' from hs.unmixed
  induction h with
  | refl => exact .initial h₀
  | tail _ hstep ih => exact ih.step hstep

def sampleProvider (guid name clientId : String) : OidcProvider :=
  ⟨guid, name, .oidc, "https://login", clientId, none, none, some "https://login/authorize",
    some "https://login/token", none, none, none, true⟩

def sampleWorld (providers : List OidcProvider) : World := ⟨providers, [], .empty, .empty, []⟩

def sampleChoice (uuid : String) : Choice where
  received := 1
  now := 1
  cached := 1
  uuid := uuid
  code := uuid
  state := uuid
  nonce := ""
  codeVerifier := ""
  callbackUrlAllowed := true
  effectiveBackendUrl := "https://console"
  saved := .ok ()
  authStateSaved := .ok ()
  validated := .ok ()
  granted := .ok ⟨none, none⟩
  fetched := none
  data := .ok .null
  signedIn := .ok ("user", "token")

def sampleLogin (uuid name : String) (w : World) : World :=
  finalState (serve (fun _ ↦ none) (sampleChoice uuid) (.requestAuth ⟨name, none, none, "", none⟩)) w

def sampleProviders : List OidcProvider :=
  [sampleProvider "0" "staff" "a", sampleProvider "1" "guests" "b"]

def sampleUpdate : Request :=
  .update "1" ⟨none, none, none, some "c", none, none, none, none, none, none, none, none⟩

/-- An update of the second provider of the issuer clears the cache. -/
def sampleCleared : World :=
  finalState (serve (fun _ ↦ none) (sampleChoice "3") sampleUpdate)
    (sampleLogin "2" "staff" (sampleWorld sampleProviders))

theorem sample_unmixed : Unmixed (fun _ ↦ none) (sampleLogin "4" "guests" sampleCleared) ∧
    (sampleLogin "4" "guests" sampleCleared).history.countP (fun
      | .sent _ (.authorization _ _) => true
      | _ => false) = 2 :=
  ⟨configurations_unmixed (w := sampleWorld sampleProviders)
    ⟨by decide, by decide, rfl, rfl, rfl⟩
    (((ReflTransGen.refl.tail ⟨sampleChoice "2", _, by decide, by decide, rfl⟩).tail
      ⟨sampleChoice "3", _, by decide, by decide, rfl⟩).tail
      ⟨sampleChoice "4", _, by decide, by decide, rfl⟩), by decide⟩

/-- Two providers of one issuer: the login of the second is started with the
client id of the first. -/
theorem configuration_crossed : ¬ ∀ discovery w w', Initial w →
    ReflTransGen (Step discovery) w w' → Unmixed discovery w' := by
  intro hall
  have hunmixed := hall (fun _ ↦ none)
    (sampleWorld sampleProviders)
    (sampleLogin "3" "guests" (sampleLogin "2" "staff" (sampleWorld sampleProviders)))
    ⟨by decide, by decide, rfl, rfl, rfl⟩
    (.tail (.tail .refl ⟨sampleChoice "2", _, by decide, rfl⟩)
      ⟨sampleChoice "3", _, by decide, rfl⟩)
  obtain ⟨provider, hstored, -, hclient⟩ := hunmixed (some (sampleProvider "1" "guests" "b"))
    (.authorization "https://login/authorize" "a") (by decide)
  cases hstored
  exact absurd hclient (by decide)

end RustdeskConsole.OidcConfigs
