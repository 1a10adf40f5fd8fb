/-
# Organizations.TrustRules -- the three evaluations of trust

A trust rule names who it is about, a membership or a tag, and whom it is for, a Silicon
or a tag.  Trust is evaluated in three places: for one pair (`evaluateTrust`), for a page
of the directory (`evaluateDirectoryTrust`) and for all active Silicons at once
(`effectiveTrustForSubjects`).  They match rules in SQL, one pair a query or all pairs in
one, and fold the rows with `evaluateMatches`.

Rows come back in any order (`RowOrder`).  Texts are those of the database; the two enums
are the only ones it can hold.
-/
import Mathlib.Data.List.MinMax
import Mathlib.Data.Prod.Lex
import Mathlib.Data.List.Nodup
import Mathlib.Tactic.Linarith
import SiliconIam.Theory.Fallible

namespace SiliconIam.Organizations.Trust

open SiliconIam.Theory

set_option autoImplicit false

/-! ## Values -/

abbrev Id := Nat

inductive TrustBoundary where
  | internal
  | external
  deriving DecidableEq, Repr

inductive TrustLevel where
  | notTrusted
  | needsApproval
  | trusted
  deriving DecidableEq, Repr

def TrustBoundary.asStr : TrustBoundary → String
  | .internal => "internal"
  | .external => "external"

def TrustLevel.asStr : TrustLevel → String
  | .notTrusted => "not_trusted"
  | .needsApproval => "needs_approval"
  | .trusted => "trusted"

structure TrustValue where
  boundary : TrustBoundary
  level : TrustLevel
  deriving DecidableEq, Repr

inductive AppError where
  | internal (category : String)
  | conflict (code : String)
  | forbidden
  | notFound
  deriving DecidableEq, Repr

structure TrustEvaluationResponse where
  trust : TrustValue
  source : String
  matchingRuleIds : List Id
  deriving DecidableEq, Repr

/-! ## Folding the matches -/

/-- A rule that matches a pair, as the queries return it. -/
structure MatchRow where
  id : Id
  subjectKind : String
  targetKind : String
  trustBoundary : String
  trustLevel : String
  deriving DecidableEq, Repr

def specificity (row : MatchRow) : Nat :=
  (if row.subjectKind = "membership" then 1 else 0) + (if row.targetKind = "silicon" then 1 else 0)

def levelRank (value : String) : Nat :=
  if value = "not_trusted" then 0
  else if value = "needs_approval" then 1
  else if value = "trusted" then 2
  else 255

def boundaryRank (value : String) : Nat :=
  if value = "external" then 0
  else if value = "internal" then 1
  else 255

def parseBoundary (boundary : String) : Except AppError TrustBoundary :=
  if boundary = "internal" then .ok .internal
  else if boundary = "external" then .ok .external
  else .error (.internal "trust_boundary")

def parseLevel (level : String) : Except AppError TrustLevel :=
  if level = "not_trusted" then .ok .notTrusted
  else if level = "needs_approval" then .ok .needsApproval
  else if level = "trusted" then .ok .trusted
  else .error (.internal "trust_level")

def parseTrust (boundary level : String) : Except AppError TrustValue := do
  let boundary ← parseBoundary boundary
  let level ← parseLevel level
  return { boundary := boundary, level := level }

/-- What the least permissive row is found by: the level, then the boundary. -/
def restrictiveness (row : MatchRow) : ℕ ×ₗ ℕ :=
  toLex (levelRank row.trustLevel, boundaryRank row.trustBoundary)

def evaluateMatches (defaultBoundary defaultLevel : String) (rows : List MatchRow) :
    Except AppError TrustEvaluationResponse :=
  match (rows.map specificity).max? with
  | none => do
      let trust ← parseTrust defaultBoundary defaultLevel
      return { trust := trust, source := "organization_default", matchingRuleIds := [] }
  | some maxSpecificity =>
      let candidates := rows.filter fun row => specificity row = maxSpecificity
      match candidates.argmin restrictiveness with
      | none => .error (.internal "trust_evaluation")
      | some selected => do
          let trust ← parseTrust selected.trustBoundary selected.trustLevel
          let source := if maxSpecificity = 2 then "exact_rule" else "tag_rule"
          return { trust := trust, source := source, matchingRuleIds := candidates.map MatchRow.id }

/-! ## Tables -/

/-- Who a rule is about. -/
inductive Subject where
  | membership (membership : Id)
  | tag (tag : Id)
  deriving DecidableEq, Repr

/-- Whom a rule is for. -/
inductive Target where
  | silicon (membership : Id)
  | tag (tag : Id)
  deriving DecidableEq, Repr

structure TrustRule where
  id : Id
  organization : Id
  subject : Subject
  target : Target
  trust : TrustValue
  archived : Bool
  deriving DecidableEq, Repr

structure Membership where
  id : Id
  organization : Id
  /-- `principal_kind`, which is `carbon` or `silicon`. -/
  isSilicon : Bool
  active : Bool
  /-- The principal of a Silicon is active and it is provisioned. -/
  provisioned : Bool
  deriving DecidableEq, Repr

structure MembershipTag where
  organization : Id
  membership : Id
  tag : Id
  deriving DecidableEq, Repr

/-- `carbon_membership_settings`, with its own default trust. -/
structure CarbonSettings where
  organization : Id
  membership : Id
  trust : TrustValue
  deriving DecidableEq, Repr

/-- The rows an evaluation reads, with the primary keys of the tables. -/
structure Directory where
  rules : List TrustRule
  tags : List MembershipTag
  memberships : List Membership
  settings : List CarbonSettings
  /-- The default trust of an organization. -/
  default_ : Id → TrustValue
  rulesUnique : (rules.map TrustRule.id).Nodup
  membershipsUnique : (memberships.map Membership.id).Nodup
  settingsUnique : (settings.map CarbonSettings.membership).Nodup

/-- The order in which the rows of a query come back. -/
structure RowOrder where
  apply : {α : Type} → List α → List α
  perm : ∀ {α : Type} (rows : List α), (apply rows).Perm rows

/-! ## Queries -/

def subjectKind : Subject → String
  | .membership _ => "membership"
  | .tag _ => "tag"

def targetKind : Target → String
  | .silicon _ => "silicon"
  | .tag _ => "tag"

def TrustRule.row (rule : TrustRule) : MatchRow :=
  { id := rule.id
    subjectKind := subjectKind rule.subject
    targetKind := targetKind rule.target
    trustBoundary := rule.trust.boundary.asStr
    trustLevel := rule.trust.level.asStr }

namespace Directory

variable (d : Directory)

def tagged (organization membership tag : Id) : Bool :=
  d.tags.any fun row =>
    row.organization = organization && row.membership = membership && row.tag = tag

/-- The condition on a rule that the two queries share. -/
def matching (organization subject target : Id) (rule : TrustRule) : Bool :=
  rule.organization = organization && !rule.archived &&
    (match rule.subject with
      | .membership membership => membership = subject
      | .tag tag => d.tagged organization subject tag) &&
    (match rule.target with
      | .silicon membership => membership = target
      | .tag tag => d.tagged organization target tag)

/-- `TRUST_MATCH_SQL`. -/
def trustMatch (organization subject target : Id) : List MatchRow :=
  (d.rules.filter (d.matching organization subject target)).map TrustRule.row

/-- The default of a subject: its settings if it is a Carbon that has some, else the
default of the organization. -/
def defaultOf (organization : Id) (member : Membership) : TrustValue :=
  match d.settings.find? fun row =>
      row.organization = organization && row.membership = member.id && !member.isSilicon with
  | some row => row.trust
  | none => d.default_ organization

/-- A row of the default queries, with the membership it is for. -/
structure DefaultRow where
  subject : Id
  boundary : String
  level : String
  deriving DecidableEq, Repr

/-- `DIRECTORY_TRUST_DEFAULT_SQL`; for one subject it is `TRUST_DEFAULT_FOR_SUBJECT_SQL`. -/
def trustDefaults (organization : Id) (subjects : List Id) : List DefaultRow :=
  (d.memberships.filter fun member =>
    member.organization = organization && member.id ∈ subjects && member.active).map fun member =>
      { subject := member.id
        boundary := (d.defaultOf organization member).boundary.asStr
        level := (d.defaultOf organization member).level.asStr }

/-- A pair to be evaluated, with the directory member it is for. -/
structure EvaluationTarget where
  directoryMember : Id
  subject : Id
  targetSilicon : Id
  deriving DecidableEq, Repr

/-- A match with the pair it belongs to. -/
structure DirectoryMatch where
  directoryMember : Id
  subject : Id
  row : MatchRow
  deriving DecidableEq, Repr

/-- `DIRECTORY_TRUST_MATCH_SQL`. -/
def directoryTrustMatch (organization : Id) (targets : List EvaluationTarget) :
    List DirectoryMatch :=
  targets.flatMap fun target =>
    (d.trustMatch organization target.subject target.targetSilicon).map fun row =>
      { directoryMember := target.directoryMember, subject := target.subject, row := row }

/-- `validate_active_membership`. -/
def validateActiveMembership (organization membership : Id) (requireSilicon : Bool) :
    Except AppError PUnit :=
  Fallible.require (d.memberships.any (fun member => member.organization = organization &&
      member.id = membership && member.active && (!requireSilicon || member.isSilicon)) = true)
    (.conflict "trust_selector_inactive")

/-! ## Evaluations -/

def evaluateTrust (order : RowOrder) (organization subject target : Id) :
    Except AppError TrustEvaluationResponse := do
  d.validateActiveMembership organization subject false
  d.validateActiveMembership organization target true
  let default_ ← Fallible.orElse (order.apply (d.trustDefaults organization [subject])).head?
    AppError.notFound
  evaluateMatches default_.boundary default_.level
    (order.apply (d.trustMatch organization subject target))

/-- What `entry(..).or_default().push(..)` has collected under a key. -/
def collected {κ : Type} [DecidableEq κ] (key : DirectoryMatch → κ) (rows : List DirectoryMatch)
    (k : κ) : List MatchRow :=
  (rows.filter fun row => key row = k).map DirectoryMatch.row

inductive ActorType where
  | carbon
  | silicon
  | application
  | service
  deriving DecidableEq, Repr

/-- A row of a directory page. -/
structure DirectoryRow where
  membershipId : Id
  principalKind : String
  deriving DecidableEq, Repr

def trustTarget (requester : Id) (requesterKind : ActorType) (row : DirectoryRow) :
    Except AppError (Option EvaluationTarget) :=
  match requesterKind with
  | .application => .error .forbidden
  | .service => .error .forbidden
  | _ =>
      if row.principalKind = "silicon" then
        .ok (some
          { directoryMember := row.membershipId, subject := requester
            targetSilicon := row.membershipId })
      else if row.principalKind = "carbon" then .ok none
      else .error (.internal "directory_principal_kind")

/-- The pairs of a page. -/
def trustTargets (requester : Id) (requesterKind : ActorType) :
    List DirectoryRow → Except AppError (List EvaluationTarget)
  | [] => .ok []
  | row :: rows => do
      let target ← trustTarget requester requesterKind row
      let targets ← trustTargets requester requesterKind rows
      return target.toList ++ targets

/-- The evaluations of a page, by member. -/
abbrev Evaluated := Std.TreeMap Id TrustEvaluationResponse compare

/-- The last loop of `evaluate_directory_trust`. -/
def evaluateTargets (defaults : List DefaultRow) (found : List DirectoryMatch) :
    List EvaluationTarget → Evaluated → Except AppError Evaluated
  | [], evaluated => .ok evaluated
  | target :: targets, evaluated => do
      let default_ ← Fallible.orElse (defaults.find? fun row => row.subject = target.subject)
        (AppError.internal "directory_trust_default")
      let response ← evaluateMatches default_.boundary default_.level
        (collected DirectoryMatch.directoryMember found target.directoryMember)
      evaluateTargets defaults found targets (evaluated.insert target.directoryMember response)

def evaluateDirectoryTrust (order : RowOrder) (organization requester : Id)
    (requesterKind : ActorType) (wantsTrust : Bool) (rows : List DirectoryRow) :
    Except AppError Evaluated :=
  if !wantsTrust then .ok ∅
  else do
    let targets ← trustTargets requester requesterKind rows
    let subjects := (targets.map EvaluationTarget.subject).dedup
    let defaults := order.apply (d.trustDefaults organization subjects)
    Fallible.require (defaults.length = subjects.length)
      (AppError.internal "directory_trust_default")
    let found := order.apply (d.directoryTrustMatch organization targets)
    evaluateTargets defaults found targets ∅

/-- The Silicons that effective trust is listed for. -/
def activeSilicons (organization : Id) : List Id :=
  (d.memberships.filter fun member => member.organization = organization && member.active &&
    member.isSilicon && member.provisioned).map Membership.id

/-- The trust of one subject toward every target. -/
def effectiveTrust (default_ : DefaultRow) (found : List DirectoryMatch) :
    List Id → Except AppError (List (Id × TrustValue))
  | [] => .ok []
  | target :: targets => do
      let response ← evaluateMatches default_.boundary default_.level
        (collected (fun row => (row.subject, row.directoryMember)) found
          (default_.subject, target))
      let effective ← effectiveTrust default_ found targets
      return (target, response.trust) :: effective

/-- The loop over the subjects of a listing. -/
def effectiveTrusts (found : List DirectoryMatch) (targets : List Id) :
    List DefaultRow → Except AppError (List (Id × List (Id × TrustValue)))
  | [] => .ok []
  | default_ :: defaults => do
      let effective ← effectiveTrust default_ found targets
      let listed ← effectiveTrusts found targets defaults
      return (default_.subject, effective) :: listed

def effectiveTrustForSubjects (order : RowOrder) (organization : Id) (subjects : List Id) :
    Except AppError (List (Id × List (Id × TrustValue))) :=
  let targets := d.activeSilicons organization
  let defaults := order.apply (d.trustDefaults organization subjects)
  let pairs := defaults.flatMap fun default_ => targets.map fun target =>
    { directoryMember := target, subject := default_.subject, targetSilicon := target }
  effectiveTrusts (order.apply (d.directoryTrustMatch organization pairs)) targets defaults

end Directory

end SiliconIam.Organizations.Trust
