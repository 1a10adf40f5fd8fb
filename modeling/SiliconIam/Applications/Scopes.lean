/-
# Applications.Scopes -- requested permissions and the endpoints they name

An application requests IAM permissions by name and external permissions as a
published endpoint of another application.  Both are stored as sorted names,
the external ones packed as `obo:{app_id}:{endpoint_id}`.

The packing can be undone: a valid app id has no colon and no IAM permission
starts with `obo:`.  So names determine a valid scope up to order
(`fromNames_names`, `names_injective`).  The endpoint grammars of the two sides
differ in one symbol: a published endpoint id may contain a colon, a requested
one may not (`scopes_agree`).
-/
import SiliconIam.Auth.OboSignature
import Mathlib.Data.List.Dedup
import Mathlib.Data.List.Perm.Basic

namespace SiliconIam.Applications.Scopes

open SiliconIam.Theory.Hex (Bytes ascii)
open SiliconIam.Domain
open SiliconIam.Auth (OboSignature.ApiError)
open SiliconIam.Auth.OboSignature (ApplicationOboEndpoint oboEndpoints oboEndpointsFrom
  oboEndpointId)

set_option autoImplicit false

/-! ## Scopes and their names -/

structure ExternalScope where
  appId : Bytes
  endpointId : Bytes
deriving DecidableEq

structure ApplicationScope where
  iam : List Bytes
  external : List ExternalScope
deriving DecidableEq

def oboMark : Bytes := ascii "obo:"

def ExternalScope.name (item : ExternalScope) : Bytes :=
  oboMark ++ item.appId ++ 58 :: item.endpointId

/-- The order of strings: byte by byte. -/
def bytesLe : Bytes → Bytes → Bool
  | [], _ => true
  | _ :: _, [] => false
  | a :: x, b :: y => a < b || (a = b && bytesLe x y)

def names (scope : ApplicationScope) : List Bytes :=
  (scope.iam ++ scope.external.map ExternalScope.name).mergeSort bytesLe

def stripPrefix (mark value : Bytes) : Option Bytes :=
  if mark.isPrefixOf value then some (value.drop mark.length) else none

/-- The external permission that a name packs. -/
def unpack (name : Bytes) : Option ExternalScope :=
  ((stripPrefix oboMark name).bind (splitOnce 58)).map fun parts =>
    { appId := parts.1, endpointId := parts.2 }

def fromNames : List Bytes → ApplicationScope
  | [] => { iam := [], external := [] }
  | name :: rest =>
      match unpack name with
      | some item => { fromNames rest with external := item :: (fromNames rest).external }
      | none => { fromNames rest with iam := name :: (fromNames rest).iam }

/-! ## Validation -/

def iamScopes : List Bytes :=
  ["self.identity.read", "self.profile.read", "self.email.read", "self.phone.read",
    "self.organizations.read", "self.membership.read", "self.capabilities.read",
    "self.job_role.read", "self.tags.read", "self.silicon_access.read", "self.hierarchy.read",
    "self.trust.read", "directory.carbons.read", "directory.silicons.read",
    "directory.profiles.read", "directory.memberships.read", "directory.capabilities.read",
    "directory.job_roles.read", "directory.tags.read", "directory.silicon_access.read",
    "directory.hierarchy.read", "organization.tags.read", "organization.trust.read",
    "organization.invitations.read", "organization.governance.read", "organizations.create",
    "organization.profile.update", "organization.invitations.create",
    "organization.invitations.revoke", "organization.silicons.create",
    "organization.testing_environments.create", "organization.silicons.update",
    "organization.carbons.remove", "organization.silicons.remove", "organization.tags.create",
    "organization.tags.update", "organization.tags.delete", "organization.member_tags.update",
    "organization.job_roles.update", "organization.silicon_access.update",
    "organization.trust.update", "organization.admins.promote", "organization.admins.demote",
    "organization.capabilities.update", "organization.change_requests.read",
    "organization.job_role_changes.request", "organization.tag_changes.request",
    "organization.change_requests.decide", "organization.job_role_history.read",
    "organization.tag_history.read", "organizations.join", "organization.sso.read",
    "organization.sso.manage", "organization.silicons.credentials.rotate"].map ascii

/-- `ApiError::validation`; a message may quote the request. -/
structure Refusal where
  field : String
  message : Bytes
deriving DecidableEq

def Refusal.of (error : ValidationError) : Refusal where
  field := error.field
  message := ascii error.message

/-- The symbols of a requested endpoint id. -/
def endpointSymbol (c : UInt8) : Bool :=
  asciiLowercase c || asciiDigit c || (c = 46 || c = 95 || c = 45)

def validateExternal : List ExternalScope → Except Refusal Unit
  | [] => .ok ()
  | external :: rest =>
      match localAppId external.appId with
      | .error error => .error (.of error)
      | .ok () =>
          if external.endpointId.isEmpty || 128 < external.endpointId.length ||
              !external.endpointId.all endpointSymbol then
            .error ⟨"app_scope.external", ascii "endpoint_id must name a published endpoint"⟩
          else validateExternal rest

def validate (scope : ApplicationScope) : Except Refusal Unit :=
  let all := names scope
  if all.isEmpty || 100 < all.length || all.dedup.length != all.length then
    .error ⟨"app_scope", ascii "must declare 1-100 unique permissions"⟩
  else
    match scope.iam.find? fun permission => !iamScopes.contains permission with
    | some permission =>
        .error ⟨"app_scope.iam", ascii "unknown IAM permission: " ++ permission⟩
    | none => validateExternal scope.external

/-! ## What a valid scope consists of -/

theorem validateExternal_ok {externals : List ExternalScope}
    (accepted : validateExternal externals = .ok ()) :
    ∀ e ∈ externals, localAppId e.appId = .ok () ∧ e.endpointId.all endpointSymbol = true := by
  induction externals with
  | nil => simp
  | cons external rest ih =>
      unfold validateExternal at accepted
      cases app : localAppId external.appId with
      | error error => simp [app] at accepted
      | ok _ =>
          simp only [app] at accepted
          split at accepted
          · cases accepted
          · rename_i symbols
            simp only [Bool.or_eq_true, Bool.not_eq_true', not_or, Bool.not_eq_false] at symbols
            intro e mem
            rcases List.mem_cons.mp mem with rfl | later
            · exact ⟨app, symbols.2⟩
            · exact ih accepted e later

/-- The parts of an accepted scope. -/
theorem validate_ok {scope : ApplicationScope} (accepted : validate scope = .ok ()) :
    (∀ permission ∈ scope.iam, permission ∈ iamScopes) ∧
      ∀ e ∈ scope.external, localAppId e.appId = .ok () ∧
        e.endpointId.all endpointSymbol = true := by
  unfold validate at accepted
  simp only at accepted
  split at accepted
  · cases accepted
  · split at accepted
    · cases accepted
    · rename_i known
      refine ⟨fun permission mem => ?_, validateExternal_ok accepted⟩
      have := List.find?_eq_none.mp known permission mem
      simpa using this

/-- An accepted app id has no colon. -/
theorem colon_not_mem_appId {app : Bytes} (accepted : localAppId app = .ok ()) : 58 ∉ app := by
  intro mem
  obtain ⟨n, inside, same⟩ := List.mem_iff_getElem.mp mem
  have pair : (app[n], n) ∈ app.zipIdx := by
    rw [List.mem_zipIdx_iff_getElem?]
    simp
  have symbol := (localAppId_ok_iff.mp accepted).2 _ pair
  simp only [same] at symbol
  revert symbol
  simp [asciiDigit, asciiLowercase]

theorem colon_not_mem_requested {id : Bytes} (symbols : id.all endpointSymbol = true) : 58 ∉ id := by
  intro mem
  have := List.all_eq_true.mp symbols 58 mem
  revert this
  decide

/-! ## Names determine scopes -/

theorem splitOnce_append {mark : UInt8} {before after_ : Bytes} (absent : mark ∉ before) :
    splitOnce mark (before ++ mark :: after_) = some (before, after_) := by
  induction before with
  | nil => simp [splitOnce]
  | cons c rest ih =>
      have other : c ≠ mark := fun same => absent (by simp [same])
      have later : mark ∉ rest := fun mem => absent (by simp [mem])
      rw [List.cons_append, splitOnce, if_neg other, ih later]
      rfl

theorem unpack_name {item : ExternalScope} (absent : 58 ∉ item.appId) :
    unpack item.name = some item := by
  have marked : oboMark.isPrefixOf item.name = true := by
    rw [List.isPrefixOf_iff_prefix, ExternalScope.name, List.append_assoc]
    exact List.prefix_append _ _
  have rest : item.name.drop oboMark.length = item.appId ++ 58 :: item.endpointId := by
    rw [ExternalScope.name, List.append_assoc, List.drop_left]
  rw [unpack, stripPrefix, if_pos marked, Option.bind_some, rest, splitOnce_append absent]
  rfl

/-- No IAM permission reads as an external one. -/
theorem unpack_iam : ∀ permission ∈ iamScopes, unpack permission = none := by
  decide +kernel

theorem fromNames_eq (all : List Bytes) :
    fromNames all =
      { iam := all.filter fun name => unpack name = none, external := all.filterMap unpack } := by
  induction all with
  | nil => rfl
  | cons name rest ih =>
      rw [fromNames, ih]
      cases found : unpack name with
      | some item => simp [found]
      | none => simp [found]

/-- The same permissions in another order. -/
def Same (s t : ApplicationScope) : Prop := s.iam.Perm t.iam ∧ s.external.Perm t.external

theorem fromNames_names {scope : ApplicationScope} (valid : validate scope = .ok ()) :
    Same (fromNames (names scope)) scope := by
  obtain ⟨known, externals⟩ := validate_ok valid
  have sorted : (names scope).Perm (scope.iam ++ scope.external.map ExternalScope.name) :=
    List.mergeSort_perm _ _
  have iam : ∀ permission ∈ scope.iam, unpack permission = none := fun permission mem =>
    unpack_iam permission (known permission mem)
  have external : ∀ e ∈ scope.external, unpack e.name = some e := fun e mem =>
    unpack_name (colon_not_mem_appId (externals e mem).1)
  rw [fromNames_eq]
  constructor
  · refine (sorted.filter _).trans ?_
    have all_ : scope.iam.filter (fun name => unpack name = none) = scope.iam := by
      simpa using iam
    have none_ : (scope.external.map ExternalScope.name).filter (fun name => unpack name = none) =
        [] := by
      rw [List.filter_eq_nil_iff]
      intro name mem
      obtain ⟨e, inside, rfl⟩ := List.mem_map.mp mem
      simp [external e inside]
    rw [List.filter_append, all_, none_, List.append_nil]
  · refine (sorted.filterMap _).trans ?_
    have none_ : scope.iam.filterMap unpack = [] := by
      rw [List.filterMap_eq_nil_iff]
      exact iam
    have all_ : (scope.external.map ExternalScope.name).filterMap unpack = scope.external := by
      have each : ∀ e ∈ scope.external, (unpack ∘ ExternalScope.name) e = some e := external
      rw [List.filterMap_map, List.filterMap_congr each, List.filterMap_some]
    rw [List.filterMap_append, none_, all_, List.nil_append]

theorem names_injective {s t : ApplicationScope} (validS : validate s = .ok ())
    (validT : validate t = .ok ()) (same : names s = names t) : Same s t := by
  obtain ⟨iamS, externalS⟩ := fromNames_names validS
  obtain ⟨iamT, externalT⟩ := fromNames_names validT
  rw [same] at iamS externalS
  exact ⟨iamS.symm.trans iamT, externalS.symm.trans externalT⟩

/-! ## Published endpoints -/

/-- Every application that publishes the endpoint can be asked for it. -/
def Requestable (id : Bytes) : Prop :=
  ∀ app, localAppId app = .ok () →
    ∃ scope, validate scope = .ok () ∧ ⟨app, id⟩ ∈ scope.external

section Published

variable {Metadata : Type} {oboMetadata : Metadata → Except OboSignature.ApiError Unit}

theorem oboEndpointsFrom_ids {values : List (ApplicationOboEndpoint Metadata)} :
    ∀ identifiers paths, oboEndpointsFrom oboMetadata identifiers paths values = .ok () →
      ∀ endpoint ∈ values, oboEndpointId endpoint.endpointId = .ok () := by
  induction values with
  | nil => simp
  | cons head rest ih =>
      intro identifiers paths accepted endpoint mem
      unfold oboEndpointsFrom at accepted
      split at accepted
      · cases accepted
      · cases id : oboEndpointId head.endpointId with
        | error error => simp [id] at accepted
        | ok _ =>
            simp only [id] at accepted
            split at accepted
            · cases accepted
            · split at accepted
              · cases accepted
              · split at accepted
                · cases accepted
                · split at accepted
                  · cases accepted
                  · rcases List.mem_cons.mp mem with rfl | later
                    · exact id
                    · exact ih _ _ accepted endpoint later

theorem oboEndpoints_ids {values : List (ApplicationOboEndpoint Metadata)}
    (accepted : oboEndpoints oboMetadata values = .ok ()) :
    ∀ endpoint ∈ values, oboEndpointId endpoint.endpointId = .ok () := by
  unfold oboEndpoints at accepted
  split at accepted
  · cases accepted
  · exact oboEndpointsFrom_ids _ _ accepted

end Published

theorem oboEndpointId_ok {id : Bytes} (accepted : oboEndpointId id = .ok ()) :
    (3 ≤ id.length ∧ id.length ≤ 128) ∧
      ∀ c ∈ id, asciiLowercase c = true ∨ asciiDigit c = true ∨ c = 95 ∨ c = 46 ∨ c = 58 ∨
        c = 45 := by
  unfold oboEndpointId at accepted
  split at accepted
  · cases accepted
  · rename_i legal
    simp only [Bool.or_eq_true, Bool.not_eq_true', not_or, Bool.not_eq_false, Bool.and_eq_true,
      decide_eq_true_eq, List.all_eq_true] at legal
    obtain ⟨length, first, later⟩ := legal
    refine ⟨length, fun c mem => ?_⟩
    rw [← List.take_append_drop 1 id, List.mem_append] at mem
    rcases mem with mem | mem
    · exact .inl (first c mem)
    · simpa [or_assoc] using later c mem

/-- A published endpoint can be requested exactly when its id has no colon. -/
theorem requestable_iff {id : Bytes} (published : oboEndpointId id = .ok ()) :
    Requestable id ↔ 58 ∉ id := by
  obtain ⟨length, symbols⟩ := oboEndpointId_ok published
  constructor
  · intro requestable
    obtain ⟨scope, valid, mem⟩ := requestable (ascii "files") (by decide)
    exact colon_not_mem_requested ((validate_ok valid).2 _ mem).2
  · intro absent app legal
    have all_ : id.all endpointSymbol = true := by
      rw [List.all_eq_true]
      intro c mem
      have other : c ≠ 58 := fun same => absent (same ▸ mem)
      have := symbols c mem
      simp only [endpointSymbol, Bool.or_eq_true, decide_eq_true_eq]
      tauto
    have some_ : id ≠ [] := by
      rintro rfl
      simp at length
    refine ⟨{ iam := [], external := [⟨app, id⟩] }, ?_, by simp⟩
    have external : validateExternal [⟨app, id⟩] = .ok () := by
      have short : ¬ 128 < id.length := by omega
      simp [validateExternal, legal, all_, some_, short]
    simp [validate, names, external]

/-- **Scopes and endpoints.** A published list of endpoints can be requested as a whole exactly
when none of its ids has a colon; and the names of a valid scope determine it up to order. -/
theorem scopes_agree {Metadata : Type} (oboMetadata : Metadata → Except OboSignature.ApiError Unit)
    (values : List (ApplicationOboEndpoint Metadata))
    (accepted : oboEndpoints oboMetadata values = .ok ()) :
    ((∀ endpoint ∈ values, Requestable endpoint.endpointId) ↔
      ∀ endpoint ∈ values, 58 ∉ endpoint.endpointId) ∧
    (∀ scope, validate scope = .ok () → Same (fromNames (names scope)) scope) ∧
    ∀ s t, validate s = .ok () → validate t = .ok () → names s = names t → Same s t := by
  refine ⟨?_, fun scope valid => fromNames_names valid,
    fun s t validS validT same => names_injective validS validT same⟩
  have each := oboEndpoints_ids accepted
  constructor
  · intro all_ endpoint mem
    exact (requestable_iff (each endpoint mem)).mp (all_ endpoint mem)
  · intro all_ endpoint mem
    exact (requestable_iff (each endpoint mem)).mpr (all_ endpoint mem)

/-- One endpoint, `files:read`. -/
def colonEndpoint : ApplicationOboEndpoint Unit where
  endpointId := ascii "files:read"
  path := ascii "/files"
  metadata := ()
  ttlSeconds := 300

def dotEndpoint : ApplicationOboEndpoint Unit :=
  { colonEndpoint with endpointId := ascii "files.read" }

theorem scopes_agree_dot :
    oboEndpoints (fun _ : Unit => .ok ()) [dotEndpoint] = .ok () ∧
      Requestable (ascii "files.read") := by
  have accepted : oboEndpoints (fun _ : Unit => .ok ()) [dotEndpoint] = .ok () := by decide +kernel
  refine ⟨accepted, ?_⟩
  exact (scopes_agree (fun _ : Unit => .ok ()) [dotEndpoint] accepted).1.mpr (by decide)
    dotEndpoint (by simp)

/-- An application may publish `files:read`, and no valid scope names it. -/
theorem colon_endpoint_unrequestable :
    oboEndpoints (fun _ : Unit => .ok ()) [colonEndpoint] = .ok () ∧
      ∀ scope, validate scope = .ok () → ∀ e ∈ scope.external,
        e.endpointId ≠ ascii "files:read" := by
  refine ⟨by decide +kernel, fun scope valid e mem same => ?_⟩
  have absent := colon_not_mem_requested ((validate_ok valid).2 e mem).2
  rw [same] at absent
  exact absent (by decide)

end SiliconIam.Applications.Scopes
