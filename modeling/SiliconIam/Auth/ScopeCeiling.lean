/-
# Auth.ScopeCeiling -- the scopes of an application's tokens only narrow

A token is stored with scopes of its family's snapshot, and neither is written again
(`Snapshot`).  What a use of the token gives is cut down to the scopes the session's
consent grants at that moment and to those the application is approved for at that
moment (`WithinCeiling`), so a consent to more scopes widens nothing issued before.

A session has one consent for an application (`Grants`): an approval replaces its
scopes, and no second row can hold the ones from before.
-/
import SiliconIam.Auth.EndedSessions

namespace SiliconIam.Auth.Authority

open SiliconIam.Theory

set_option autoImplicit false

section Ceiling

variable {settings : SecuritySettings} {now : Nat} {db after : Db}

/-! ## Consents -/

theorem Grants.empty (directory : Directory) : Grants (.empty directory) where
  unique := fun _ mem => absurd mem Table.not_mem_empty
  unbound := fun _ mem => absurd mem Table.not_mem_empty

theorem Consent.grantKey_of_fixed {old consent : Consent} (same : old.fixed = consent.fixed) :
    old.grantKey = consent.grantKey :=
  (congrArg Consent.grantKey same :)

theorem Grants.write (write : Write now db after) (grants : Grants db) : Grants after := by
  cases write with
  | quiet quiet =>
      constructor
      · intro a ma b mb same
        obtain ⟨oldA, heldA, stepA⟩ := quiet.consents a ma
        obtain ⟨oldB, heldB, stepB⟩ := quiet.consents b mb
        have keys : oldA.grantKey = oldB.grantKey :=
          calc oldA.grantKey = a.grantKey := Consent.grantKey_of_fixed stepA.fixed
            _ = b.grantKey := same
            _ = oldB.grantKey := (Consent.grantKey_of_fixed stepB.fixed).symm
        have olds := grants.unique oldA heldA oldB heldB keys
        refine Table.unique ma mb ?_
        calc a.id = oldA.id := (Consent.keyed _ _ stepA.fixed).symm
          _ = oldB.id := by rw [olds]
          _ = b.id := Consent.keyed _ _ stepB.fixed
      · intro consent mem
        obtain ⟨old, held, step⟩ := quiet.consents consent mem
        have same : old.organization = consent.organization :=
          (congrArg Consent.organization step.fixed :)
        exact same ▸ grants.unbound old held
  | record _ _ _ _ _ grow => exact grow grants
  | session done =>
      obtain ⟨-, -, sessions, -, rfl⟩ := insertSubjectSession_eq_some done
      exact ⟨grants.unique, grants.unbound⟩
  | openFamily _ _ _ opening issuing done =>
      obtain ⟨-, families, -, rfl⟩ := insertFamily_eq_some opening
      obtain ⟨-, access, -, rfl⟩ := insertAccessToken_eq_some issuing
      obtain ⟨-, -, tokens, -, rfl⟩ := insertRefreshToken_eq_some done
      exact ⟨grants.unique, grants.unbound⟩
  | rotate _ _ _ _ _ _ issuing done =>
      obtain ⟨-, access, -, rfl⟩ := insertAccessToken_eq_some issuing
      obtain ⟨-, -, tokens, -, rfl⟩ := insertRefreshToken_eq_some done
      exact ⟨grants.unique, grants.unbound⟩

theorem Grants.next (grants : Grants db) (action : Action) : Grants (next settings db action) :=
  (next_writes settings db action).invariant (fun _ _ held write => held.write write) grants

theorem Grants.runs (grants : Grants db) (actions : List Action) :
    Grants (Runs.after (Authority.next settings) db actions) :=
  Runs.after_of_invariant (fun _ action held => held.next action) actions db grants

/-- The consent of the token's client, subject and session. -/
def Consent.ofSession (token : AccessToken) (consent : Consent) : Prop :=
  token.client = some consent.application ∧ consent.subject = token.subject ∧
    consent.parentSession = token.session

variable {token : AccessToken}

/-- A session has one consent for each application. -/
theorem Grants.ofSession_unique (grants : Grants db) {a b : Consent}
    (ma : a ∈ db.consents) (mb : b ∈ db.consents) (first : a.ofSession token)
    (second : b.ofSession token) : a = b := by
  refine grants.unique a ma b mb ?_
  have application : a.application = b.application :=
    Option.some.inj (first.1.symm.trans second.1)
  have subject : a.subject = b.subject := first.2.1.trans second.2.1.symm
  have session : a.parentSession = b.parentSession := first.2.2.trans second.2.2.symm
  have organization : a.organization = b.organization :=
    (grants.unbound a ma).trans (grants.unbound b mb).symm
  unfold Consent.grantKey
  rw [application, subject, session, organization]

/-! ## Snapshots -/

/-- The tokens issued from the family stay within its scopes. -/
def IssuedWithin (family : Family) (db : Db) : Prop :=
  ∀ token ∈ db.access, token.oauthRefreshFamily = some family.id → token.scopes ⊆ family.scopes

/-- The family's scopes are those of the snapshot, and what was issued from it stays
within them. -/
structure Snapshot (family : Family) (db : Db) : Prop where
  drawn : family.id ∈ db.drawn
  scopes : ∀ row ∈ db.families, row.id = family.id → row.scopes = family.scopes
  issued : IssuedWithin family db

theorem Snapshot.of_sound (sound : Sound db) {family : Family} (mem : family ∈ db.families) :
    Snapshot family db where
  drawn := sound.ids.families family mem
  scopes := fun _ rowMem same => congrArg Family.scopes (Table.unique rowMem mem same)
  issued := fun token tokenMem linked => (sound.links.linked token tokenMem family mem linked).2.1

theorem IssuedWithin.insertAccess {family row : Family}
    (linked : LinkedTo row token) (ceiling : row.id = family.id → row.scopes = family.scopes)
    (done : insertAccessToken db token = some after) (issued : IssuedWithin family db) :
    IssuedWithin family after := by
  obtain ⟨-, access, inserted, rfl⟩ := insertAccessToken_eq_some done
  intro other mem own
  rcases ((Table.insert_spec inserted).2 other).mp mem with rfl | held
  · rcases linked with unlinked | ⟨named, -, within⟩
    · simp [unlinked] at own
    · exact ceiling (Option.some.inj (named.symm.trans own)) ▸ within
  · exact issued other held own

theorem Snapshot.write {family : Family} (write : Write now db after)
    (snapshot : Snapshot family db) : Snapshot family after := by
  have evolves := write.evolves
  have drawn := evolves.drawn _ snapshot.drawn
  have scopes : ∀ row ∈ after.families, row.id = family.id → row.scopes = family.scopes := by
    intro row mem same
    obtain ⟨old, held, step⟩ := evolves.families.continues mem (same ▸ snapshot.drawn)
    have kept : old.scopes = row.scopes := (congrArg Family.scopes step.fixed :)
    exact kept.symm.trans
      (snapshot.scopes old held ((Family.keyed _ _ step.fixed).trans same))
  refine ⟨drawn, scopes, ?_⟩
  cases write with
  | quiet quiet =>
      intro token mem own
      obtain ⟨old, held, step⟩ := quiet.access token mem
      have kept : old.scopes = token.scopes := (congrArg AccessToken.scopes step.fixed :)
      exact kept ▸ snapshot.issued old held (AccessToken.linked_before step own)
  | record _ _ access => exact fun token mem => snapshot.issued token (access ▸ mem)
  | session done =>
      obtain ⟨-, -, sessions, -, rfl⟩ := insertSubjectSession_eq_some done
      exact snapshot.issued
  | openFamily _ _ pair opening issuing done =>
      obtain ⟨unused, families, inserted, rfl⟩ := insertFamily_eq_some opening
      have before : IssuedWithin family _ := snapshot.issued
      have issued := before.insertAccess pair.linked
        (fun same => absurd (same.symm ▸ snapshot.drawn) unused) issuing
      obtain ⟨-, -, tokens, -, rfl⟩ := insertRefreshToken_eq_some done
      exact issued
  | rotate mem _ _ _ _ pair issuing done =>
      have issued := snapshot.issued.insertAccess pair.linked (snapshot.scopes _ mem) issuing
      obtain ⟨-, -, tokens, -, rfl⟩ := insertRefreshToken_eq_some done
      exact issued

theorem Snapshot.runs {family : Family} (snapshot : Snapshot family db) (actions : List Action) :
    Snapshot family (Runs.after (Authority.next settings) db actions) :=
  Runs.after_of_invariant
    (fun db action held => (next_writes settings db action).invariant
      (fun _ _ held write => held.write write) held) actions db snapshot

/-! ## Uses -/

/-- The scope is stored, granted by the session's consent and approved, all of it now. -/
structure WithinCeiling (db : Db) (token : AccessToken) (scope : String) : Prop where
  stored : scope ∈ token.scopes
  approved : ∃ application ∈ db.directory.applications,
    token.client = some application.id ∧ scope ∈ application.approvedScopes
  consented : ∃ consent ∈ db.consents, consent.ofSession token ∧
    (∀ other ∈ db.consents, other.ofSession token → other = consent) ∧
      consent.active = true ∧ scope ∈ consent.scopes

theorem WithinCeiling.of_grants (grants : Grants db) {scope : String}
    {application : Application} {consent : Consent} (stored : scope ∈ token.scopes)
    (app : application ∈ db.directory.applications) (client : token.client = some application.id)
    (approved : scope ∈ application.approvedScopes) (mem : consent ∈ db.consents)
    (own : consent.ofSession token) (active : consent.active = true)
    (granted : scope ∈ consent.scopes) : WithinCeiling db token scope where
  stored := stored
  approved := ⟨application, app, client, approved⟩
  consented := ⟨consent, mem, own,
    fun _ otherMem other => grants.ofSession_unique otherMem mem other own, active, granted⟩

theorem authenticate_scopes {tokenClass : TokenClass} {supplied : List Nat} {access : AccessContext}
    (done : authenticate db now tokenClass supplied = some access) :
    ∃ token ∈ db.access, token.id = access.token ∧ access.scopes = effectiveScopes db token := by
  obtain ⟨token, found, done⟩ := Option.bind_eq_some_iff.mp done
  obtain ⟨session, -, done⟩ := Option.bind_eq_some_iff.mp done
  obtain ⟨subject, -, done⟩ := Option.bind_eq_some_iff.mp done
  split at done
  · obtain rfl := Option.some.inj done
    exact ⟨token, (Table.find?_spec found).1, rfl, rfl⟩
  · simp at done

/-- What authentication leaves of the stored scopes. -/
theorem effectiveScopes_within (grants : Grants db) {scope : String}
    (held : scope ∈ effectiveScopes db token) :
    scope ∈ token.scopes ∧ (token.client.isSome = true → WithinCeiling db token scope) := by
  obtain ⟨stored, holds⟩ := List.mem_filter.mp held
  refine ⟨stored, fun owned => ?_⟩
  obtain ⟨client, named⟩ := Option.isSome_iff_exists.mp owned
  simp only [named, Bool.and_eq_true, Table.any_eq_true] at holds
  obtain ⟨⟨approved, consent, mem, covers, granted⟩, -⟩ := holds
  simp only [Consent.covers, Consent.binds, Bool.and_eq_true, decide_eq_true_eq] at covers
  obtain ⟨⟨⟨⟨⟨⟨application, subject⟩, session⟩, -⟩, -⟩, active⟩, -⟩ := covers
  simp only [lockedApplicationApprovedScopes] at approved
  split at approved
  · simp at approved
  · rename_i row found
    have own : row.id = client := by simpa using List.find?_some found
    exact .of_grants grants stored (List.mem_of_find?_eq_some found) (own ▸ named)
      (by simpa using approved) mem ⟨application.symm, subject, session⟩ active
      (by simpa using granted)

/-- The scope an OBO exchange or verification needs of the token. -/
theorem externalScope_within (grants : Grants db) {context : DatabaseContext}
    {tokenId audienceId : Nat} {endpointId : String}
    (allowed : applicationTokenAllowsExternalScope db context now tokenId audienceId endpointId =
      true) :
    ∃ token ∈ db.access, token.id = tokenId ∧ ∃ audience ∈ db.directory.applications,
      audience.id = audienceId ∧ WithinCeiling db token (oboScope audience endpointId) := by
  simp only [applicationTokenAllowsExternalScope, Table.any_eq_true, List.any_eq_true,
    Bool.and_eq_true, decide_eq_true_eq] at allowed
  obtain ⟨token, mem, ⟨⟨same, -⟩, -⟩, issuer, issuerMem, ⟨⟨⟨⟨named, -⟩, -⟩, -⟩, -⟩, audience,
    audienceMem, ⟨⟨⟨⟨⟨⟨own, -⟩, stored⟩, approved⟩, -⟩, -⟩, consent, consentMem, ⟨⟨⟨⟨⟨⟨⟨application,
    subject⟩, session⟩, active⟩, granted⟩, -⟩, -⟩, -⟩⟩⟩ := allowed
  refine ⟨token, mem, same, audience, audienceMem, own, ?_⟩
  exact .of_grants grants (by simpa using stored) issuerMem named.symm (by simpa using approved)
    consentMem ⟨application ▸ named.symm, subject, session⟩ active (by simpa using granted)

/-! ## Runs -/

/-- The stored scopes of a token are never written again. -/
theorem stored_scopes_kept (ids : Ids db) (mem : token ∈ db.access)
    (later : List Action) :
    ∀ row ∈ (Runs.after (next settings) db later).access, row.id = token.id →
      row.scopes = token.scopes := by
  refine (Runs.after_of_invariant (I := fun db => token.id ∈ db.drawn ∧
    ∀ row ∈ db.access, row.id = token.id → row.scopes = token.scopes) ?_ later db ⟨?_, ?_⟩).2
  · rintro db action ⟨drawn, kept⟩
    have evolves := next_evolves settings db action
    refine ⟨evolves.drawn _ drawn, fun row rowMem same => ?_⟩
    obtain ⟨old, held, step⟩ := evolves.access.continues rowMem (same ▸ drawn)
    have scopes : old.scopes = row.scopes := (congrArg AccessToken.scopes step.fixed :)
    exact scopes.symm.trans (kept old held ((AccessToken.keyed _ _ step.fixed).trans same))
  · exact ids.access token mem
  · exact fun row rowMem same => congrArg AccessToken.scopes (Table.unique rowMem mem same)

/-- What the scopes of tokens are bounded by, in a state and in one reached later. -/
structure ScopesHeld (db later : Db) : Prop where
  /-- A token issued from a family carries scopes of the family's snapshot. -/
  issued : ∀ token ∈ db.access, ∀ family ∈ db.families,
    token.oauthRefreshFamily = some family.id → token.scopes ⊆ family.scopes
  /-- Bearer authentication gives scopes below every ceiling. -/
  bearer : ∀ now tokenClass supplied access,
    authenticate db now tokenClass supplied = some access →
      ∃ token ∈ db.access, token.id = access.token ∧ ∀ scope ∈ access.scopes,
        scope ∈ token.scopes ∧ (token.client.isSome = true → WithinCeiling db token scope)
  /-- So does a token that an OBO exchange or verification goes back to. -/
  delegated : ∀ context now tokenId audienceId endpointId,
    applicationTokenAllowsExternalScope db context now tokenId audienceId endpointId = true →
      ∃ token ∈ db.access, token.id = tokenId ∧ ∃ audience ∈ db.directory.applications,
        audience.id = audienceId ∧ WithinCeiling db token (oboScope audience endpointId)
  /-- Later uses of a token give scopes it was issued with. -/
  token : ∀ token ∈ db.access, ∀ now tokenClass supplied access,
    authenticate later now tokenClass supplied = some access → access.token = token.id →
      access.scopes ⊆ token.scopes
  /-- Later tokens of a family carry scopes of its snapshot. -/
  family : ∀ family ∈ db.families, ∀ token ∈ later.access,
    token.oauthRefreshFamily = some family.id → token.scopes ⊆ family.scopes

end Ceiling

/-- In every run the scopes of an application's tokens stay below the snapshot of
their family, the consent of the session and the approvals of the application, and
nothing that happens later widens a token or a family. -/
theorem scopes_held (settings : SecuritySettings) (directory : Directory)
    (before later : List Action) :
    ScopesHeld (Runs.after (next settings) (.empty directory) before)
      (Runs.after (next settings) (Runs.after (next settings) (.empty directory) before) later) := by
  have sound : Sound (Runs.after (next settings) (.empty directory) before) :=
    (Sound.empty directory).runs before
  have grants : Grants (Runs.after (next settings) (.empty directory) before) :=
    (Grants.empty directory).runs before
  constructor
  · intro token mem family familyMem linked
    exact (sound.links.linked token mem family familyMem linked).2.1
  · intro now tokenClass supplied access done
    obtain ⟨token, mem, same, scopes⟩ := authenticate_scopes done
    refine ⟨token, mem, same, fun scope held => ?_⟩
    rw [scopes] at held
    exact effectiveScopes_within grants held
  · intro context now tokenId audienceId endpointId allowed
    exact externalScope_within grants allowed
  · intro token mem now tokenClass supplied access done same
    obtain ⟨row, rowMem, own, scopes⟩ := authenticate_scopes done
    have kept := stored_scopes_kept sound.ids mem later row rowMem (own.trans same)
    rw [scopes, ← kept]
    exact fun scope held => (List.mem_filter.mp held).1
  · intro family mem token tokenMem linked
    exact ((Snapshot.of_sound sound mem).runs later).issued token tokenMem linked

open Scenario in
/-- Ada consents to fewer scopes: the token issued before gives only those. -/
example :
    let narrowed := Runs.after (next ttls) (.empty directory)
      (login ++ [.issueForSelection 40 ada
        { appId := "crm", orgIds := ["acme"], scopes := ["self.identity.read"] } (fresh 40)])
    (authenticate narrowed 50 .applicationAccess [1032]).map AccessContext.scopes =
      some ["self.identity.read"] := by
  decide +kernel

end SiliconIam.Auth.Authority
