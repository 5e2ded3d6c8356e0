import RustdeskConsole.Oidc.Protocol

namespace RustdeskConsole.Oidc

open Accounts (Failure OidcUserInfo User LinkedTo uniqueColumns)
open Auth (truthy)
open Effects Effects.History

section Handlers

variable {platform : Accounts.Platform} {i : ℕ} {w : World} {name : String}

/-- The call knows providers of the name, and nothing else. -/
def Named (name : String) (event : Event) : Prop :=
  ∃ provider, event = .found provider ∧ provider.name = name

theorem unsettled_named (ho : Own i (Named name) w.history) : Unsettled i w :=
  unsettled ho fun _ ⟨_, he, _⟩ ↦ by cases he

theorem Named.trail {sub : String} : ∀ event, Named name event → Trail name sub event := by
  rintro _ ⟨provider, rfl, hn⟩
  exact hn

theorem getProviderWithSecret_safe (ho : Own i (Named name) w.history) :
    Safe platform i (Handler.ask (.getProviderWithSecret name))
      (fun _ w ↦ Own i (Named name) w.history) w := by
  refine safe_invoke (fun w' hw ↦ unsettled_named (own_stays ho hw)) fun o w₁ w₂ r _ hw he _ ↦ ?_
  have ho₁ := own_stays ho hw
  have heff : Effect i w₁ (.getProviderWithSecret name) w₂ := by
    have h : Effect i w₁ _ (exec platform i (.getProviderWithSecret name) o w₁).1 := exec_effect
    have he : exec platform i _ o w₁ = (w₂, some r) := he
    rwa [he] at h
  cases heff with
  | quiet _ hh | account _ _ _ _ hh => exact hh ▸ ho₁
  | noted event hn _ hh =>
    cases hn with
    | found hp =>
      rw [hh]
      exact ho₁.note ⟨_, rfl, hp⟩

/-- An answer settles the text that the call came with. -/
theorem answer_safe {α : Type} {f : α → Answer} {a : α} {sub : String}
    {reply : Except Failure α} {w' : World} (ho : Own i (Named name) w.history)
    (he : w.answer i reply f = (w', some (.ok a))) (ht : (f a).text = some sub) :
    Own i (Trail name sub) w'.history := by
  cases reply with
  | error failure => cases (Prod.mk.inj he).2
  | ok b =>
    obtain ⟨rfl, hr⟩ := Prod.mk.inj he
    obtain rfl := Except.ok.inj (Option.some.inj hr)
    exact (ho.mono Named.trail).note ht

/-- A call that has settled what it came with may be given the account for it. -/
theorem authorize_safe {authState : OidcAuthState} {userGuid accessToken sub : String}
    (ho : Own i (Trail name sub) w.history)
    (hl : LinkedTo w.accounts.users userGuid (key name sub)) :
    Safe platform i (Handler.ask (.authorizeAuthState authState userGuid accessToken))
      (fun _ _ ↦ True) w := by
  refine safe_invoke (fun w' hw ↦ ?_) fun _ _ _ _ _ _ _ _ ↦ trivial
  have ho' := own_stays ho hw
  exact ⟨name, sub, fun _ ↦ ho' _, fun _ ↦ ho' _, hw.links _ _ hl⟩

namespace OidcService

theorem completeUserInfo_safe {P : Event → Prop} {config : OidcConfig}
    {claims : Option IdTokenClaims} (ho : Own i P w.history) :
    Safe platform i (completeUserInfo config claims) (fun userInfo w ↦
      Own i P w.history ∧ userInfo.sub = (claimsUserInfo claims).sub) w := by
  dsimp only [completeUserInfo]
  split
  · refine safe_after (.ask rfl) fun fetched w' hw ↦ safe_pure ⟨own_stays ho hw, ?_⟩
    cases fetched with
    | none => rfl
    | some fetched => exact mergeUserInfo_sub claims fetched
  · exact safe_pure ⟨ho, rfl⟩

theorem handleOidcCallback_safe {config : OidcConfig} {authState : OidcAuthState}
    (ho : Own i (Named name) w.history) :
    Safe platform i (handleOidcCallback config authState)
      (fun userInfo w ↦ Own i (Trail name userInfo.sub) w.history) w := by
  refine safe_bind (P := fun claims w ↦ Own i (Trail name (claimsUserInfo claims).sub) w.history)
    (safe_invoke (fun w' hw ↦ unsettled_named (own_stays ho hw)) fun o w₁ w₂ r claims hw he hr ↦ ?_)
    fun claims w' ho' ↦ ?_
  · subst hr
    exact answer_safe (own_stays ho hw) he (claimsUserInfo_sub claims)
  · refine (completeUserInfo_safe ho').mono (fun userInfo _ w'' ⟨ho'', hs⟩ ↦ ?_) fun _ _ _ h ↦ h
    dsimp only
    rwa [hs]

theorem fetchOAuth2UserInfo_safe {accessToken : String} {provider : OidcProvider}
    (ho : Own i (Named name) w.history) :
    Safe platform i (fetchOAuth2UserInfo accessToken provider)
      (fun userInfo w ↦ Own i (Trail name userInfo.sub) w.history) w := by
  refine safe_after .require fun endpoint w' hw ↦ ?_
  refine safe_bind (P := fun data w ↦ ∀ sub, subText data = some sub →
      Own i (Trail name sub) w.history)
    (safe_invoke (fun w' hw' ↦ unsettled_named (own_stays ho (hw.trans hw')))
      fun o w₁ w₂ r data hw' he hr sub hs ↦ ?_) fun data w' ho' ↦ ?_
  · subst hr
    exact answer_safe (own_stays ho (hw.trans hw')) he (by rw [← subText_eq, hs])
  · cases hs : subText data with
    | none => exact safe_throw
    | some sub => exact safe_pure (ho' sub hs)

theorem handleOAuth2Callback_safe {config : OidcConfig} {authState : OidcAuthState}
    (hn : providerNameOf authState.op = name) (ho : Own i (Named name) w.history) :
    Safe platform i (handleOAuth2Callback config authState)
      (fun userInfo w ↦ Own i (Trail name userInfo.sub) w.history) w := by
  subst hn
  refine safe_after (.invoke rfl) fun granted w' hw ↦ safe_after .require fun accessToken w'' hw' ↦ ?_
  refine safe_bind (getProviderWithSecret_safe (own_stays ho (hw.trans hw'))) fun found w₁ ho₁ ↦ ?_
  exact safe_after .require fun provider w₂ hw₂ ↦ fetchOAuth2UserInfo_safe (own_stays ho₁ hw₂)

theorem exchange_safe {provider : OidcProvider} {config : OidcConfig} {authState : OidcAuthState}
    (hn : providerNameOf authState.op = name) (ho : Own i (Named name) w.history) :
    Safe platform i (exchange provider config authState)
      (fun userInfo w ↦ Own i (Trail name userInfo.sub) w.history) w := by
  rw [exchange]
  split
  · exact handleOidcCallback_safe ho
  · exact handleOAuth2Callback_safe hn ho

theorem bindDevice_quiet {userGuid : String} {authState : OidcAuthState} :
    Quiet platform i (bindDevice userGuid authState) := by
  rw [bindDevice]
  split
  · exact .invoke rfl
  · exact .pure

/-- The exchange tells who has come, the account service finds the account for
it, and that is the account which is signed in. -/
theorem complete_safe {provider : OidcProvider} {authState : OidcAuthState}
    (ho : Own i (Named (providerNameOf authState.op)) w.history) :
    Safe platform i (complete platform provider authState) (fun _ _ ↦ True) w := by
  refine safe_after (.ask rfl) fun config w hw ↦ safe_bind (exchange_safe rfl (own_stays ho hw))
    fun userInfo w ho₁ ↦ safe_bind (safe_accounts ho₁ Accounts.OidcService.findOrCreateUser_links)
    fun user w ⟨ho₂, hl⟩ ↦ ?_
  refine safe_after bindDevice_quiet fun _ w hw₁ ↦ safe_after (.invoke rfl) fun accessToken w hw₂ ↦ ?_
  have hw' := hw₁.trans hw₂
  exact safe_bind (authorize_safe (own_stays ho₂ hw') (hw'.links _ _ hl)) fun _ _ _ ↦ safe_pure trivial

theorem assertCurrent_quiet {authState : OidcAuthState} {now : ℕ} :
    Quiet platform i (assertCurrent authState now) := by
  rw [assertCurrent]
  split
  · exact .bind (.ask rfl) fun _ ↦ .throw
  · exact .pure

theorem handleCallback_safe {state error : Option String}
    (ho : Own i (fun _ ↦ False) w.history) :
    Safe platform i (handleCallback platform state error) (fun _ _ ↦ True) w := by
  refine safe_after .assert fun _ w hw₁ ↦ safe_after .require fun state w hw₂ ↦
    safe_after (.ask rfl) fun found w hw₃ ↦ safe_after .require fun authState w hw₄ ↦
    safe_after (.ask rfl) fun now w hw₅ ↦ safe_after assertCurrent_quiet fun _ w hw₆ ↦
    safe_after .assert fun _ w hw₇ ↦ ?_
  have hw := ((((hw₁.trans hw₂).trans hw₃).trans hw₄).trans hw₅).trans (hw₆.trans hw₇)
  have ho' : Own i (Named (providerNameOf authState.op)) w.history :=
    (own_stays ho hw).mono fun _ ↦ False.elim
  refine safe_bind (getProviderWithSecret_safe ho') fun found w ho₁ ↦
    safe_after .require fun provider w hw₈ ↦ Logic.Ensures.tryCatch ?_
  refine (complete_safe (own_stays ho₁ hw₈)).mono (fun _ _ _ _ ↦ trivial) fun e s w _ ↦ ?_
  cases e with
  | badRequest | _ => exact Logic.Ensures.throw trivial

theorem requestAuth_safe {dto : OidcAuthRequestDto} (ho : Own i (fun _ ↦ False) w.history) :
    Safe platform i (requestAuth dto) (fun _ _ ↦ True) w := by
  have ho' : Own i (Named (providerNameOf dto.op)) w.history := ho.mono fun _ ↦ False.elim
  refine safe_bind (getProviderWithSecret_safe ho') fun found w _ ↦ Quiet.safe ?_ fun _ _ ↦ trivial
  refine .bind .require fun provider ↦ .bind ?_ fun _ ↦ .bind (.ask rfl) fun code ↦
    .bind (.ask rfl) fun codeVerifier ↦ .bind (.ask rfl) fun state ↦ .bind ?_ fun nonce ↦
    .bind (.ask rfl) fun now ↦ .bind (.ask rfl) fun url ↦ .bind (.ask rfl) fun _ ↦
    .bind (.ask rfl) fun config ↦ .bind (.ask rfl) fun _ ↦ .pure
  · rw [assertCallbackUrl]
    split
    · exact .pure
    · exact .bind (.ask rfl) fun _ ↦ .assert
  · cases provider.type with
    | oidc => exact .bind (.ask rfl) fun _ ↦ .pure
    | oauth2 => exact .pure

end OidcService

namespace OidcAdminService

theorem assertName_quiet {name : String} : Quiet platform i (assertName name) :=
  .bind (.ask rfl) fun _ ↦ .assert

theorem findProvider_quiet {guid : String} : Quiet platform i (findProvider guid) :=
  .bind (.ask rfl) fun _ ↦ .require

theorem create_quiet {dto : CreateOidcProviderDto} : Quiet platform i (create dto) :=
  .bind assertName_quiet fun _ ↦ .ask rfl

theorem update_quiet {guid : String} {dto : UpdateOidcProviderDto} :
    Quiet platform i (update guid dto) := by
  refine .bind findProvider_quiet fun provider ↦ .bind ?_ fun _ ↦ .bind (.ask rfl) fun _ ↦ .pure
  rw [assertRename]
  split
  · split
    · exact .pure
    · exact assertName_quiet
  · exact .pure

theorem remove_quiet {guid : String} : Quiet platform i (remove guid) :=
  .bind findProvider_quiet fun _ ↦ .ask rfl

theorem toggle_quiet {guid : String} {enabled : Bool} : Quiet platform i (toggle guid enabled) :=
  .bind findProvider_quiet fun _ ↦ .bind (.ask rfl) fun _ ↦ .pure

end OidcAdminService

theorem ignore_safe {α : Type} {p : Handler α} (hp : Safe platform i p (fun _ _ ↦ True) w) :
    Safe platform i (ignore p) (fun _ _ ↦ True) w :=
  safe_bind hp fun _ _ _ ↦ safe_pure trivial

theorem Quiet.served {α : Type} {p : Handler α} (hp : Quiet platform i p) :
    Safe platform i p (fun _ _ ↦ True) w := hp.safe fun _ _ ↦ trivial

theorem serve_safe {request : Request} (ho : Own i (fun _ ↦ False) w.history) :
    Safe platform i (serve platform request) (fun _ _ ↦ True) w := by
  cases request with
  | create => exact ignore_safe OidcAdminService.create_quiet.served
  | update => exact ignore_safe OidcAdminService.update_quiet.served
  | remove => exact OidcAdminService.remove_quiet.served
  | toggle => exact ignore_safe OidcAdminService.toggle_quiet.served
  | requestAuth => exact ignore_safe (OidcService.requestAuth_safe ho)
  | callback => exact ignore_safe (OidcService.handleCallback_safe ho)

theorem admissible (platform : Accounts.Platform) : (logic platform).Admissible := by
  intro i w p _ ⟨hfresh, request, _, hp⟩
  have ho : Own i (fun _ ↦ False) w.history := fun event hm ↦ hfresh event hm
  have hw : (logic platform).Wp i ((serve platform request).start ()) _ w := serve_safe ho
  rw [hp]
  exact Logic.Wp.bind (f := fun _ ↦ .done ()) (hw.mono fun _ _ _ ↦ trivial)

end Handlers

end RustdeskConsole.Oidc
