/-
# Organizations.ActionGate -- which actions a mutation needs

The gate sees a mutation twice removed from its handler: the captured request, whose
body is an untyped JSON document, and the matched route.  `actions` lists the sensitive
actions it finds there.  The handler reads the same document into its request type
(`readMembershipDirectoryPatch`, ...), and what it then writes is `writes`, a field
group for each gated kind of field.

A body that a handler refuses, because of a field that is there or of the member it is
for, writes nothing.
-/
import Mathlib.Data.List.Dedup
import SiliconIam.Domain.Id
import SiliconIam.Theory.Serde

namespace SiliconIam.Organizations

open SiliconIam.Domain
open SiliconIam.Theory.Hex (Bytes)
open SiliconIam.Theory.Serde

set_option autoImplicit false

/-! ## Requests -/

inductive Method where
  | get
  | head
  | options
  | post
  | put
  | patch
  | delete
deriving DecidableEq

/-- The routes under one organization, as the router matched them. -/
inductive Route where
  | organization
  | silicons
  | silicon
  | carbonInvites
  | member
  | memberJobRole
  | memberJobDescription
  | memberTags
  | tags
  | tag
  | trustDefault
  | trustRules
  | trustRule
  | other
deriving DecidableEq

inductive Action where
  | organizationProfileUpdate
  | membershipJobDescriptionUpdate
  | membershipTagsUpdate
  | membershipDirectoryUpdate
  | siliconHierarchyUpdate
  | siliconProfileUpdate
  | siliconSelfProfileUpdate
  | tagCreate
  | tagUpdate
  | tagDelete
  | trustDefaultUpdate
  | trustRuleCreate
  | trustRuleUpdate
  | trustRuleDelete
deriving DecidableEq

def Action.name : Action → String
  | .organizationProfileUpdate => "organization.profile.update"
  | .membershipJobDescriptionUpdate => "membership.job_description.update"
  | .membershipTagsUpdate => "membership.tags.update"
  | .membershipDirectoryUpdate => "membership.directory.update"
  | .siliconHierarchyUpdate => "silicon.hierarchy.update"
  | .siliconProfileUpdate => "silicon.profile.update"
  | .siliconSelfProfileUpdate => "silicon.self_profile.update"
  | .tagCreate => "tag.create"
  | .tagUpdate => "tag.update"
  | .tagDelete => "tag.delete"
  | .trustDefaultUpdate => "trust.default.update"
  | .trustRuleCreate => "trust.rule.create"
  | .trustRuleUpdate => "trust.rule.update"
  | .trustRuleDelete => "trust.rule.delete"

/-- The captured request.  `path` is the text of the URI, `body` null when there is
none. -/
structure MutationRequest where
  method : Method
  route : Route
  path : Bytes
  body : Json

/-- Reads are not captured, and nothing else is gated. -/
def captureRequest (method : Method) (route : Route) (path : Bytes) (body : Json) :
    Option MutationRequest :=
  match method with
  | .get | .head | .options => none
  | _ => some { method := method, route := route, path := path, body := body }

/-! ## Paths -/

/-- Percent signs that no two hexadecimal digits follow stay. -/
def percentDecode : Bytes → Bytes
  | [] => []
  | 37 :: high :: low :: rest =>
      match Theory.Hex.value high, Theory.Hex.value low with
      | some h, some l => (16 * h + l) :: percentDecode rest
      | _, _ => 37 :: percentDecode (high :: low :: rest)
  | c :: rest => c :: percentDecode rest

/-- The last segment of a path, without the query. -/
def lastSegment (path : Bytes) : Bytes :=
  ((path.takeWhile (· ≠ 63)).reverse.takeWhile (· ≠ 47)).reverse

/-- The value of `id` when `id=` and the segment are read as a form: up to the first
ampersand, a plus sign for a blank. -/
def formValue (segment : Bytes) : Bytes :=
  percentDecode ((segment.takeWhile (· ≠ 38)).map fun c => if c = 43 then 32 else c)

/-! ## The gate -/

/-- `White_Space`. -/
def whiteSpace (c : Char) : Bool :=
  let code := c.toNat
  (9 ≤ code && code ≤ 13) || code = 32 || code = 133 || code = 160 || code = 5760 ||
    (8192 ≤ code && code ≤ 8202) || code = 8232 || code = 8233 || code = 8239 || code = 8287 ||
    code = 12288

/-- Nothing is left when it is trimmed. -/
def blank (text : String) : Bool := text.toList.all whiteSpace

def nonemptyArray (body : Json) (field : String) : Bool :=
  ((body.get field).bind Json.asArray).any fun values => !values.isEmpty

def present (body : Json) (field : String) : Bool := (body.get field).isSome

def given (body : Json) (field : String) : Bool := (body.get field).any fun value => !value.isNull

def Action.when (action : Action) (condition : Bool) : List Action :=
  if condition then [action] else []

def initialAssignmentActions (body : Json) : List Action :=
  Action.membershipJobDescriptionUpdate.when
      (((body.get "job_description").bind Json.asString).any fun value => !blank value) ++
    Action.membershipTagsUpdate.when (nonemptyArray body "tag_ids") ++
    Action.siliconHierarchyUpdate.when (given body "reports_to_membership_id") ++
    Action.membershipDirectoryUpdate.when
      (given body "first_silicon_membership_id" ||
        nonemptyArray body "extra_silicon_membership_ids") ++
    Action.trustDefaultUpdate.when (given body "default_trust") ++
    Action.trustRuleCreate.when
      (nonemptyArray body "tag_trust_overrides" || nonemptyArray body "silicon_trust_overrides")

def memberPatchActions (body : Json) : List Action :=
  Action.membershipTagsUpdate.when (present body "tag_ids") ++
    Action.trustDefaultUpdate.when (present body "default_trust") ++
    Action.siliconHierarchyUpdate.when (present body "reports_to_membership_id") ++
    Action.siliconProfileUpdate.when (present body "profile_photo") ++
    Action.membershipDirectoryUpdate.when
      (present body "first_silicon_membership_id" || present body "extra_silicon_membership_ids")

def siliconPatchActions (request : MutationRequest) (actorId : Bytes) : List Action :=
  Action.siliconHierarchyUpdate.when (present request.body "reports_to_membership_id") ++
    (if formValue (lastSegment request.path) = actorId then Action.siliconSelfProfileUpdate
      else Action.siliconProfileUpdate).when
      (request.body.keys.any fun key => key ≠ "reports_to_membership_id")

/-- The actions that were inserted, in the order of their names. -/
def sorted (inserted : List Action) : List Action :=
  inserted.dedup.mergeSort fun a b => a.name ≤ b.name

def actions (request : MutationRequest) (actorId : Bytes) : List Action :=
  sorted <|
    match request.method, request.route with
    | .post, .silicons | .post, .carbonInvites => initialAssignmentActions request.body
    | .patch, .organization => [.organizationProfileUpdate]
    | .put, .memberJobRole | .put, .memberJobDescription => [.membershipJobDescriptionUpdate]
    | .put, .memberTags => [.membershipTagsUpdate]
    | .patch, .member => memberPatchActions request.body
    | .patch, .silicon => siliconPatchActions request actorId
    | .post, .tags => [.tagCreate]
    | .patch, .tag => [.tagUpdate]
    | .delete, .tag => [.tagDelete]
    | .put, .trustDefault => [.trustDefaultUpdate]
    | .post, .trustRules => [.trustRuleCreate]
    | .patch, .trustRule => [.trustRuleUpdate]
    | .delete, .trustRule => [.trustRuleDelete]
    | _, _ => []

@[simp] theorem mem_sorted {action : Action} {inserted : List Action} :
    action ∈ sorted inserted ↔ action ∈ inserted := by
  simp [sorted]

@[simp] theorem Action.mem_when {action other : Action} {condition : Bool} :
    action ∈ other.when condition ↔ condition = true ∧ action = other := by
  unfold Action.when
  split <;> simp_all

/-! ## Request types -/

inductive TrustBoundary where
  | internal
  | external
deriving DecidableEq

inductive TrustLevel where
  | notTrusted
  | needsApproval
  | trusted
deriving DecidableEq

structure TrustValue where
  boundary : TrustBoundary
  level : TrustLevel
deriving DecidableEq

structure MembershipDirectoryPatch where
  tagIds : Option (List Id)
  firstSiliconMembershipId : Option (Option Id)
  extraSiliconMembershipIds : Option (List Id)
  defaultTrust : Option TrustValue
  reportsToMembershipId : Option (Option Id)
  profilePhoto : Option (Option String)
deriving DecidableEq

structure SiliconCreate where
  siliconId : String
  displayName : Option String
  timezone : Option String
  profilePhoto : Option String
  jobRole : String
  reportsToMembershipId : Option Id
  tagIds : List Id
deriving DecidableEq

structure SiliconPatch where
  displayName : Option String
  timezone : Option String
  profilePhoto : Option (Option String)
  reportsToMembershipId : Option (Option Id)
  tagIds : Option (List Id)
deriving DecidableEq

structure InvitationTagTrustOverride where
  tagId : Id
  trust : TrustValue
deriving DecidableEq

structure InvitationSiliconTrustOverride where
  siliconMembershipId : Id
  trust : TrustValue
deriving DecidableEq

structure CarbonInviteCreate where
  carbonId : Option String
  email : Option String
  jobRole : String
  tagIds : List Id
  firstSiliconMembershipId : Option Id
  extraSiliconMembershipIds : List Id
  defaultTrust : TrustValue
  tagTrustOverrides : List InvitationTagTrustOverride
  siliconTrustOverrides : List InvitationSiliconTrustOverride
  redirectAppId : Option String
deriving DecidableEq

section Readers

variable (crate : UuidCrate)

def readId : Reader Id
  | .string value => (Id.deserialize crate value.toUTF8.toList).toOption
  | _ => none

def readTrustBoundary : Reader TrustBoundary :=
  readVariant [("internal", .internal), ("external", .external)]

def readTrustLevel : Reader TrustLevel :=
  readVariant [("not_trusted", .notTrusted), ("needs_approval", .needsApproval),
    ("trusted", .trusted)]

def readTrustValue : Reader TrustValue := fun document => do
  let from_ ← source ["boundary", "level"] document
  let boundary ← from_.required 0 "boundary" readTrustBoundary
  let level ← from_.required 1 "level" readTrustLevel
  pure { boundary := boundary, level := level }

def readMembershipDirectoryPatch : Reader MembershipDirectoryPatch := fun document => do
  let from_ ← source ["tag_ids", "first_silicon_membership_id", "extra_silicon_membership_ids",
    "default_trust", "reports_to_membership_id", "profile_photo"] document
  let tagIds ← from_.optional 0 "tag_ids" (readVec (readId crate))
  let first ← from_.defaulted 1 "first_silicon_membership_id" (readDoubleOption (readId crate)) none
  let extra ← from_.optional 2 "extra_silicon_membership_ids" (readVec (readId crate))
  let defaultTrust ← from_.optional 3 "default_trust" readTrustValue
  let reportsTo ← from_.defaulted 4 "reports_to_membership_id" (readDoubleOption (readId crate)) none
  let profilePhoto ← from_.defaulted 5 "profile_photo" (readDoubleOption readString) none
  pure
    { tagIds := tagIds
      firstSiliconMembershipId := first
      extraSiliconMembershipIds := extra
      defaultTrust := defaultTrust
      reportsToMembershipId := reportsTo
      profilePhoto := profilePhoto }

def readSiliconCreate : Reader SiliconCreate := fun document => do
  let from_ ← source ["silicon_id", "display_name", "timezone", "profile_photo", "job_description",
    "reports_to_membership_id", "tag_ids"] document
  let siliconId ← from_.required 0 "silicon_id" readString
  let displayName ← from_.optional 1 "display_name" readString
  let timezone ← from_.optional 2 "timezone" readString
  let profilePhoto ← from_.optional 3 "profile_photo" readString
  let jobRole ← from_.required 4 "job_description" readString
  let reportsTo ← from_.optional 5 "reports_to_membership_id" (readId crate)
  let tagIds ← from_.defaulted 6 "tag_ids" (readVec (readId crate)) []
  pure
    { siliconId := siliconId
      displayName := displayName
      timezone := timezone
      profilePhoto := profilePhoto
      jobRole := jobRole
      reportsToMembershipId := reportsTo
      tagIds := tagIds }

def readSiliconPatch : Reader SiliconPatch := fun document => do
  let from_ ← source ["display_name", "timezone", "profile_photo", "reports_to_membership_id",
    "tag_ids"] document
  let displayName ← from_.optional 0 "display_name" readString
  let timezone ← from_.optional 1 "timezone" readString
  let profilePhoto ← from_.defaulted 2 "profile_photo" (readDoubleOption readString) none
  let reportsTo ← from_.defaulted 3 "reports_to_membership_id" (readDoubleOption (readId crate)) none
  let tagIds ← from_.optional 4 "tag_ids" (readVec (readId crate))
  pure
    { displayName := displayName
      timezone := timezone
      profilePhoto := profilePhoto
      reportsToMembershipId := reportsTo
      tagIds := tagIds }

def readInvitationTagTrustOverride : Reader InvitationTagTrustOverride := fun document => do
  let from_ ← source ["tag_id", "trust"] document
  let tagId ← from_.required 0 "tag_id" (readId crate)
  let trust ← from_.required 1 "trust" readTrustValue
  pure { tagId := tagId, trust := trust }

def readInvitationSiliconTrustOverride : Reader InvitationSiliconTrustOverride := fun document => do
  let from_ ← source ["silicon_membership_id", "trust"] document
  let siliconMembershipId ← from_.required 0 "silicon_membership_id" (readId crate)
  let trust ← from_.required 1 "trust" readTrustValue
  pure { siliconMembershipId := siliconMembershipId, trust := trust }

def readCarbonInviteCreate : Reader CarbonInviteCreate := fun document => do
  let from_ ← source ["carbon_id", "email", "job_description", "tag_ids",
    "first_silicon_membership_id", "extra_silicon_membership_ids", "default_trust",
    "tag_trust_overrides", "silicon_trust_overrides", "redirect_app_id"] document
  let carbonId ← from_.optional 0 "carbon_id" readString
  let email ← from_.optional 1 "email" readString
  let jobRole ← from_.required 2 "job_description" readString
  let tagIds ← from_.defaulted 3 "tag_ids" (readVec (readId crate)) []
  let first ← from_.optional 4 "first_silicon_membership_id" (readId crate)
  let extra ← from_.defaulted 5 "extra_silicon_membership_ids" (readVec (readId crate)) []
  let defaultTrust ← from_.required 6 "default_trust" readTrustValue
  let tagOverrides ← from_.defaulted 7 "tag_trust_overrides"
    (readVec (readInvitationTagTrustOverride crate)) []
  let siliconOverrides ← from_.defaulted 8 "silicon_trust_overrides"
    (readVec (readInvitationSiliconTrustOverride crate)) []
  let redirectAppId ← from_.optional 9 "redirect_app_id" readString
  pure
    { carbonId := carbonId
      email := email
      jobRole := jobRole
      tagIds := tagIds
      firstSiliconMembershipId := first
      extraSiliconMembershipIds := extra
      defaultTrust := defaultTrust
      tagTrustOverrides := tagOverrides
      siliconTrustOverrides := siliconOverrides
      redirectAppId := redirectAppId }

end Readers

/-! ## What a handler writes -/

inductive FieldGroup where
  | tags
  | defaultTrust
  | reportingLine
  | profile
  | siliconAccess
  | jobDescription
  | trustOverrides
deriving DecidableEq

def FieldGroup.when (group : FieldGroup) (condition : Bool) : List FieldGroup :=
  if condition then [group] else []

@[simp] theorem FieldGroup.mem_when {group other : FieldGroup} {condition : Bool} :
    group ∈ other.when condition ↔ condition = true ∧ group = other := by
  unfold FieldGroup.when
  split <;> simp_all

inductive MemberKind where
  | carbon
  | silicon
deriving DecidableEq

/-- `update_member_directory`: tags are changed elsewhere, and each kind of member has
fields of its own. -/
def MembershipDirectoryPatch.writes (kind : MemberKind) (patch : MembershipDirectoryPatch) :
    List FieldGroup :=
  if patch.tagIds.isSome then []
  else
    match kind with
    | .carbon =>
        if patch.reportsToMembershipId.isSome || patch.profilePhoto.isSome then []
        else
          FieldGroup.siliconAccess.when
              (patch.firstSiliconMembershipId.isSome || patch.extraSiliconMembershipIds.isSome) ++
            FieldGroup.defaultTrust.when patch.defaultTrust.isSome
    | .silicon =>
        if patch.firstSiliconMembershipId.isSome || patch.extraSiliconMembershipIds.isSome ||
            patch.defaultTrust.isSome then []
        else
          FieldGroup.profile.when patch.profilePhoto.isSome ++
            FieldGroup.reportingLine.when patch.reportsToMembershipId.isSome

/-- `JobRole::try_from`. -/
def jobRoleAccepted (text : String) : Bool := text.length ≤ 5000

/-- `create_silicon`, of the fields that are gated. -/
def SiliconCreate.writes (input : SiliconCreate) : List FieldGroup :=
  if jobRoleAccepted input.jobRole then
    FieldGroup.jobDescription.when (input.jobRole ≠ "") ++
      FieldGroup.tags.when (!input.tagIds.isEmpty) ++
      FieldGroup.reportingLine.when input.reportsToMembershipId.isSome
  else []

/-- `update_silicon`. -/
def SiliconPatch.writes (patch : SiliconPatch) : List FieldGroup :=
  if patch.tagIds.isSome then []
  else
    FieldGroup.profile.when
        (patch.displayName.isSome || patch.timezone.isSome || patch.profilePhoto.isSome) ++
      FieldGroup.reportingLine.when patch.reportsToMembershipId.isSome

/-- `create_invitation`. -/
def CarbonInviteCreate.writes (input : CarbonInviteCreate) : List FieldGroup :=
  if jobRoleAccepted input.jobRole then
    FieldGroup.jobDescription.when (input.jobRole ≠ "") ++
      FieldGroup.tags.when (!input.tagIds.isEmpty) ++
      FieldGroup.siliconAccess.when
        (input.firstSiliconMembershipId.isSome || !input.extraSiliconMembershipIds.isEmpty) ++
      [.defaultTrust] ++
      FieldGroup.trustOverrides.when
        (!input.tagTrustOverrides.isEmpty || !input.siliconTrustOverrides.isEmpty)
  else []

/-- The Silicon a path names, as the router decodes it. -/
def siliconOf (path : Bytes) : Bytes := percentDecode (lastSegment path)

/-- Only a canonical identity is found. -/
def siliconFound (id : Bytes) : Bool := siliconMark.isPrefixOf id && validPart (id.drop 3) 3 50

/-! ## Gated calls -/

inductive Handler where
  | updateMemberDirectory (kind : MemberKind)
  | createSilicon
  | updateSilicon
  | createInvitation
deriving DecidableEq

/-- A call of a gated handler by a principal. -/
structure Call where
  handler : Handler
  path : Bytes
  actorId : Bytes
  body : Json

def Handler.method : Handler → Method
  | .updateMemberDirectory _ | .updateSilicon => .patch
  | .createSilicon | .createInvitation => .post

def Handler.route : Handler → Route
  | .updateMemberDirectory _ => .member
  | .createSilicon => .silicons
  | .updateSilicon => .silicon
  | .createInvitation => .carbonInvites

/-- The actions the gate asks for; without a captured request there are none. -/
def Call.asked (call : Call) : List Action :=
  match captureRequest call.handler.method call.handler.route call.path call.body with
  | none => []
  | some request => actions request call.actorId

/-- What the handler writes once it has read the body. -/
def Call.written (crate : UuidCrate) (call : Call) : Option (List FieldGroup) :=
  match call.handler with
  | .updateMemberDirectory kind =>
      (readMembershipDirectoryPatch crate call.body).map (MembershipDirectoryPatch.writes kind)
  | .createSilicon => (readSiliconCreate crate call.body).map SiliconCreate.writes
  | .updateSilicon =>
      (readSiliconPatch crate call.body).map fun patch =>
        if siliconFound (siliconOf call.path) then patch.writes else []
  | .createInvitation => (readCarbonInviteCreate crate call.body).map CarbonInviteCreate.writes

/-- A Silicon's own profile: the actor is the Silicon the path names. -/
def Call.editsOwnProfile (call : Call) : Bool :=
  call.handler = .updateSilicon && call.actorId = siliconOf call.path

def Call.governing (call : Call) : FieldGroup → Action
  | .tags => .membershipTagsUpdate
  | .defaultTrust => .trustDefaultUpdate
  | .reportingLine => .siliconHierarchyUpdate
  | .profile => if call.editsOwnProfile then .siliconSelfProfileUpdate else .siliconProfileUpdate
  | .siliconAccess => .membershipDirectoryUpdate
  | .jobDescription => .membershipJobDescriptionUpdate
  | .trustOverrides => .trustRuleCreate

/-- A description that is not empty but says nothing. -/
def blankDescription (body : Json) : Bool :=
  ((body.get "job_description").bind Json.asString).any fun text => text ≠ "" && blank text

/-- The two readings of the body agree: it is an object, and no description in it is
blank. -/
def Call.readAlike (call : Call) : Bool :=
  call.body.isObject &&
    match call.handler with
    | .createSilicon | .createInvitation => !blankDescription call.body
    | _ => true

/-- The gate asks for the action of everything the handler writes. -/
def Call.Covered (crate : UuidCrate) (call : Call) : Prop :=
  ∀ groups, call.written crate = some groups →
    ∀ group ∈ groups, call.governing group ∈ call.asked

end SiliconIam.Organizations
