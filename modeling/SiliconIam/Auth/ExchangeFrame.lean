/-
# Auth.ExchangeFrame -- what the exchanges leave alone

An exchange of a code, a refresh token or a proof changes no principal and no
consent (`SameGrants`).  A login for an application changes no principal either, and
of the consents it makes active only those of the subject and session it is given,
for the application it names (`issueForSelection_consents`).
-/
import SiliconIam.Auth.AuthorityOperations

namespace SiliconIam.Auth.Authority

open SiliconIam.Theory

set_option autoImplicit false

structure SameGrants (db after : Db) : Prop where
  principals : after.principals = db.principals
  consents : after.consents = db.consents

theorem SameGrants.refl (db : Db) : SameGrants db db := ⟨rfl, rfl⟩

theorem SameGrants.trans {a b c : Db} (first : SameGrants a b) (second : SameGrants b c) :
    SameGrants a c :=
  ⟨second.principals.trans first.principals, second.consents.trans first.consents⟩

variable {access : AccessContext}

section Exchanges

variable {settings : SecuritySettings} {now : Nat} {db after : Db} {client : ApplicationIdentity}
  {fresh : Fresh}

theorem SameGrants.insertAccessToken {token : AccessToken}
    (done : insertAccessToken db token = some after) : SameGrants db after := by
  obtain ⟨-, access, -, rfl⟩ := insertAccessToken_eq_some done
  exact ⟨rfl, rfl⟩

theorem SameGrants.insertRefreshToken {token : RefreshToken}
    (done : insertRefreshToken db token = some after) : SameGrants db after := by
  obtain ⟨-, -, tokens, -, rfl⟩ := insertRefreshToken_eq_some done
  exact ⟨rfl, rfl⟩

theorem SameGrants.insertFamily {family : Family} (done : insertFamily db family = some after) :
    SameGrants db after := by
  obtain ⟨-, families, -, rfl⟩ := insertFamily_eq_some done
  exact ⟨rfl, rfl⟩

theorem SameGrants.exchangeAuthorizationCode {supplied : List Nat} {response : AppTokenResponse}
    (done : exchangeAuthorizationCode db settings now client supplied fresh =
      .ok (response, after)) : SameGrants db after := by
  obtain ⟨row, authority, -, -, -, -, issue⟩ := exchangeAuthorizationCode_eq_ok done
  obtain ⟨opened, issued, opening, issuing, renewing, -⟩ := issueTokens_first issue
  have consumed : SameGrants db (consumeCode db now row) := ⟨rfl, rfl⟩
  exact consumed.trans ((SameGrants.insertFamily opening).trans
    ((SameGrants.insertAccessToken issuing).trans (.insertRefreshToken renewing)))

theorem SameGrants.exchangeRefreshToken {supplied : List Nat} {result : RefreshExchange}
    (done : exchangeRefreshToken db settings now client supplied fresh = .ok (result, after)) :
    SameGrants db after := by
  obtain ⟨row, -, -, ⟨-, -, rfl⟩ | ⟨-, -, authority, response, -, -, -, issue⟩⟩ :=
    exchangeRefreshToken_eq_ok done
  · unfold compromiseRefreshFamily
    constructor <;> split <;> rfl
  · obtain ⟨issued, renewed, issuing, renewing, rfl, -⟩ := issueTokens_next issue
    have renewed : SameGrants db renewed :=
      (SameGrants.insertAccessToken issuing).trans (.insertRefreshToken renewing)
    exact renewed.trans ⟨rfl, rfl⟩

theorem SameGrants.oboExchange {request : OboExchangeRequest}
    {replayed : Option Nat} {response : Option OboProofResponse}
    (done : oboExchange db now client access request replayed fresh = .ok (response, after)) :
    SameGrants db after := by
  obtain ⟨-, -, organization, membership, authority, -, -, -, ⟨_, -, -, rfl, -⟩ | ⟨-, inserting⟩⟩ :=
    oboExchange_eq_ok done
  · exact .refl _
  · obtain ⟨-, proofs, -, rfl⟩ := insertProof_eq_some inserting
    exact ⟨rfl, rfl⟩

theorem SameGrants.oboVerify {supplied : List Nat} {request : OboVerifyRequest}
    {result : OboAccessResult} (done : oboVerify db now client supplied request = .ok (result, after)) :
    SameGrants db after := by
  obtain ⟨current, -, -, rfl⟩ := oboVerify_eq_ok done
  exact ⟨rfl, rfl⟩

theorem SameGrants.committed {ε α : Type} {result : Except ε (α × Db)}
    (same : ∀ value after, result = .ok (value, after) → SameGrants db after) :
    SameGrants db (committed db result) := by
  cases done : result with
  | error _ => exact .refl db
  | ok result => exact same result.1 result.2 done

end Exchanges

/-! ## Consents -/

section Consents

variable {settings : SecuritySettings} {now : Nat} {db after : Db} {fresh : Fresh}

/-- An active consent was active before, is new, or is the one the request is for. -/
theorem consentUpsert_active {request : AuthorizationRequest} {selected : List Nat}
    (done : consentUpsert db request selected fresh = some after) {row : Consent}
    (mem : row ∈ after.consents) (active : row.active = true) :
    (∃ old ∈ db.consents, old.id = row.id ∧ old.active = true) ∨ row.id ∉ db.drawn ∨
      Consent.forRequest request row = true := by
  simp only [consentUpsert] at done
  split at done
  · obtain rfl := Option.some.inj done
    obtain ⟨old, held, rfl⟩ := Table.of_mem_updated mem rfl
    by_cases picked : Consent.forRequest request old = true
    · right; right
      rw [if_pos picked]
      exact picked
    · rw [if_neg picked] at active ⊢
      exact .inl ⟨old, held, rfl, active⟩
  · obtain ⟨free, -, consents, inserted, rfl⟩ := insertConsent_eq_some done
    rcases ((Table.insert_spec inserted).2 row).mp mem with rfl | held
    · exact .inr (.inl free)
    · exact .inl ⟨row, held, rfl, active⟩

theorem consentUpsert_principals {request : AuthorizationRequest} {selected : List Nat}
    (done : consentUpsert db request selected fresh = some after) :
    after.principals = db.principals := by
  simp only [consentUpsert] at done
  split at done
  · obtain rfl := Option.some.inj done
    rfl
  · obtain ⟨-, -, consents, -, rfl⟩ := insertConsent_eq_some done
    rfl

/-- Whatever is written besides the upsert leaves the grants alone. -/
theorem approveRequest_grants {request : AuthorizationRequest} {selected : List Nat}
    (done : approveRequest db settings now request selected fresh = .ok after) :
    ∃ granted, consentUpsert db request selected fresh = some granted ∧ SameGrants granted after := by
  simp only [approveRequest] at done
  split at done
  · simp at done
  · rename_i granted granting
    refine ⟨granted, granting, ?_⟩
    split at done
    · split at done
      · simp at done
      · rename_i issued issuing
        obtain rfl := Except.ok.inj done
        obtain ⟨-, codes, -, rfl⟩ := insertCode_eq_some issuing
        exact ⟨rfl, rfl⟩
    · simp at done

/-- A login for an application mints its code for the caller's subject and session,
after the upsert of their consent. -/
theorem issueForSelection_mints {input : ShortLivedTokenRequest}
    (done : issueForSelection db settings now access input fresh = .ok after) :
    ∃ application ∈ db.directory.applications, application.appId = input.appId ∧
      ∃ requested request selected, SameGrants db requested ∧
        (∀ id ∈ db.drawn, id ∈ requested.drawn) ∧
        request.application = application.id ∧ request.subject = access.subject.id ∧
        request.session = access.session ∧
        approveRequest requested settings now request selected fresh = .ok after := by
  unfold issueForSelection at done
  split at done
  · simp at done
  · split at done
    · simp at done
    · rename_i application found
      have mem := List.mem_of_find?_eq_some found
      have named := List.find?_some found
      simp only [Bool.and_eq_true, decide_eq_true_eq] at named
      refine ⟨application, mem, named.1.1.1, ?_⟩
      split at done
      · simp at done
      · split at done
        · simp at done
        · split at done
          · simp at done
          · rename_i selected _
            split at done
            · simp at done
            · simp only [mintShortLivedToken] at done
              split at done
              · simp at done
              · rename_i requested requesting
                obtain ⟨-, -, requests, -, rfl⟩ := insertRequest_eq_some requesting
                refine ⟨_, _, selected, ?_, ?_, ?_, ?_, ?_, done⟩
                · exact ⟨rfl, rfl⟩
                · exact fun id => List.mem_cons_of_mem _
                · rfl
                · rfl
                · rfl

theorem issueForSelection_principals {input : ShortLivedTokenRequest}
    (done : issueForSelection db settings now access input fresh = .ok after) :
    after.principals = db.principals := by
  obtain ⟨-, -, -, requested, request, selected, same, -, -, -, -, approved⟩ :=
    issueForSelection_mints done
  obtain ⟨granted, granting, rest⟩ := approveRequest_grants approved
  rw [rest.principals, consentUpsert_principals granting, same.principals]

theorem issueForSelection_consents {input : ShortLivedTokenRequest}
    (done : issueForSelection db settings now access input fresh = .ok after) {row : Consent}
    (mem : row ∈ after.consents) (active : row.active = true) :
    (∃ old ∈ db.consents, old.id = row.id ∧ old.active = true) ∨ row.id ∉ db.drawn ∨
      row.subject = access.subject.id ∧ row.parentSession = access.session ∧
        ∃ application ∈ db.directory.applications, application.appId = input.appId ∧
          application.id = row.application := by
  obtain ⟨application, held, named, requested, request, selected, same, grows, own, subject,
    session, approved⟩ := issueForSelection_mints done
  obtain ⟨granted, granting, rest⟩ := approveRequest_grants approved
  rw [rest.consents] at mem
  rcases consentUpsert_active granting mem active with earlier | unknown | granting
  · rw [same.consents] at earlier
    exact .inl earlier
  · exact .inr (.inl fun drawn => unknown (grows _ drawn))
  · simp only [Consent.forRequest, Bool.and_eq_true, decide_eq_true_eq] at granting
    obtain ⟨⟨⟨toApplication, toSubject⟩, -⟩, toSession⟩ := granting
    exact .inr (.inr ⟨toSubject.trans subject, toSession.trans session, application, held, named,
      (toApplication.trans own).symm⟩)

end Consents

end SiliconIam.Auth.Authority
