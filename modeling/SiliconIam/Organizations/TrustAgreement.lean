/-
# Organizations.TrustAgreement -- the three evaluations agree

`IsTrust` says which trust a subject has toward a target: the least permissive of the
most specific live rules that match the pair, or the default of the subject.  There is
one (`existsUnique_trust`).  `evaluateTrust`, `evaluateDirectoryTrust` and
`effectiveTrustForSubjects` answer that trust in whatever order the rows come back, and
the two that report rules report those that decide.

`evaluateMatches_rows` is about one pair.  A batch is taken apart by the key under which
its rows are collected: `collected` gives back each pair's own rows and no others.
-/
import Mathlib.Data.List.Dedup
import SiliconIam.Theory.Keyed
import SiliconIam.Theory.Precedence
import SiliconIam.Organizations.TrustRules

namespace SiliconIam.Organizations.Trust

open SiliconIam.Theory

set_option autoImplicit false

/-! ## The order of trust -/

def TrustLevel.rank : TrustLevel → Nat
  | .notTrusted => 0
  | .needsApproval => 1
  | .trusted => 2

def TrustBoundary.rank : TrustBoundary → Nat
  | .external => 0
  | .internal => 1

/-- By level, then by boundary. -/
def TrustValue.permissiveness (trust : TrustValue) : ℕ ×ₗ ℕ :=
  toLex (trust.level.rank, trust.boundary.rank)

theorem permissiveness_injective {one two : TrustValue}
    (same : one.permissiveness = two.permissiveness) : one = two := by
  obtain ⟨boundary, level⟩ := one
  obtain ⟨boundary', level'⟩ := two
  have both := congrArg ofLex same
  simp only [TrustValue.permissiveness, ofLex_toLex, Prod.mk.injEq] at both
  cases level <;> cases level' <;> cases boundary <;> cases boundary' <;>
    simp_all [TrustLevel.rank, TrustBoundary.rank]

/-- How specific a rule is: two for a membership and a Silicon, none for two tags. -/
def TrustRule.specificity (rule : TrustRule) : Nat :=
  (match rule.subject with
    | .membership _ => 1
    | .tag _ => 0) +
  (match rule.target with
    | .silicon _ => 1
    | .tag _ => 0)

@[simp] theorem specificity_row (rule : TrustRule) :
    specificity rule.row = rule.specificity := by
  obtain ⟨id, organization, subject, target, trust, archived⟩ := rule
  cases subject <;> cases target <;> rfl

@[simp] theorem restrictiveness_row (rule : TrustRule) :
    restrictiveness rule.row = rule.trust.permissiveness := by
  obtain ⟨id, organization, subject, target, ⟨boundary, level⟩, archived⟩ := rule
  cases boundary <;> cases level <;> rfl

@[simp] theorem parseTrust_asStr (trust : TrustValue) :
    parseTrust trust.boundary.asStr trust.level.asStr = .ok trust := by
  obtain ⟨boundary, level⟩ := trust
  cases boundary <;> cases level <;> rfl

/-! ## One pair -/

/-- What a list of rules and a default give. -/
def Decided (rules : List TrustRule) (default_ trust : TrustValue) : Prop :=
  Precedence.Outcome TrustRule.specificity (fun rule => rule.trust.permissiveness) rules
    default_.permissiveness trust.permissiveness

/-- The rules that decide. -/
abbrev Decides (rules : List TrustRule) : TrustRule → Prop :=
  Precedence.Deciding TrustRule.specificity rules

/-- An answer with the decided trust that names the deciding rules, each once. -/
structure Answers (rules : List TrustRule) (default_ : TrustValue)
    (response : TrustEvaluationResponse) : Prop where
  trust : Decided rules default_ response.trust
  ids : ∀ id, id ∈ response.matchingRuleIds ↔ ∃ rule, Decides rules rule ∧ rule.id = id
  once : response.matchingRuleIds.Nodup

theorem Decided.unique {rules : List TrustRule} {default_ one two : TrustValue}
    (first : Decided rules default_ one) (second : Decided rules default_ two) : one = two :=
  permissiveness_injective (Precedence.Outcome.unique first second)

variable {rules : List TrustRule} {rows : List MatchRow} {default_ : TrustValue}

theorem evaluateMatches_none (boundary level : String) :
    evaluateMatches boundary level [] =
      (parseTrust boundary level).map fun trust =>
        { trust := trust, source := "organization_default", matchingRuleIds := [] } := by
  unfold evaluateMatches
  cases parseTrust boundary level with
  | error error => rfl
  | ok trust => rfl

theorem evaluateMatches_some (boundary level : String) {selected : MatchRow}
    (found : Precedence.select specificity restrictiveness rows = some selected) :
    ∃ source, evaluateMatches boundary level rows =
      (parseTrust selected.trustBoundary selected.trustLevel).map fun trust =>
        { trust := trust, source := source
          matchingRuleIds := (Precedence.candidates specificity rows).map MatchRow.id } := by
  unfold Precedence.select Precedence.candidates at found
  unfold evaluateMatches Precedence.candidates
  cases greatest : (rows.map specificity).max? with
  | none => simp [greatest] at found
  | some most =>
      simp only [greatest] at found ⊢
      refine ⟨if most = 2 then "exact_rule" else "tag_rule", ?_⟩
      rw [found]
      dsimp only
      cases parseTrust selected.trustBoundary selected.trustLevel with
      | error error => rfl
      | ok trust => rfl

/-- The rows of a list of rules, in any order, are folded to its answer. -/
theorem evaluateMatches_rows (distinct : (rules.map TrustRule.id).Nodup)
    (permuted : rows.Perm (rules.map TrustRule.row)) :
    ∃ response, evaluateMatches default_.boundary.asStr default_.level.asStr rows =
      .ok response ∧ Answers rules default_ response := by
  cases found : Precedence.select specificity restrictiveness rows with
  | none =>
      have empty := Precedence.select_eq_none.mp found
      subst empty
      have norules : rules = [] := by simpa using List.nil_perm.mp permuted
      subst norules
      rw [evaluateMatches_none, parseTrust_asStr]
      refine ⟨_, rfl, Precedence.outcome_nil, ?_, List.nodup_nil⟩
      intro id
      simp [Precedence.Deciding]
  | some selected =>
      obtain ⟨source, folded⟩ := evaluateMatches_some default_.boundary.asStr
        default_.level.asStr found
      have outcome : Precedence.Outcome specificity restrictiveness rows
          default_.permissiveness (restrictiveness selected) := Precedence.outcome_select found
      rw [Precedence.Outcome.perm permuted, Precedence.outcome_map] at outcome
      have decides : ∀ row, row ∈ Precedence.candidates specificity rows ↔
          ∃ rule, Decides rules rule ∧ rule.row = row := by
        intro row
        rw [Precedence.mem_candidates, Precedence.Deciding.perm permuted,
          Precedence.deciding_map]
        simp only [specificity_row]
      obtain ⟨rule, -, rfl⟩ := (decides selected).mp (List.argmin_mem found)
      rw [folded, show parseTrust rule.row.trustBoundary rule.row.trustLevel = .ok rule.trust
        from parseTrust_asStr rule.trust]
      refine ⟨_, rfl, ?_, ?_, ?_⟩
      · simpa [Decided] using outcome
      · intro id
        simp only [List.mem_map, decides]
        constructor
        · rintro ⟨row, ⟨rule, holds, rfl⟩, same⟩
          exact ⟨rule, holds, same⟩
        · rintro ⟨rule, holds, same⟩
          exact ⟨rule.row, ⟨rule, holds, rfl⟩, same⟩
      · have all : (rows.map MatchRow.id).Nodup := by
          rw [(permuted.map MatchRow.id).nodup_iff, List.map_map]
          exact distinct
        unfold Precedence.candidates
        split
        · exact List.nodup_nil
        · exact all.sublist (List.filter_sublist.map MatchRow.id)

/-! ## Rows and keys -/

namespace Directory

variable (d : Directory) {organization : Id}

/-- An active member. -/
structure Member (organization : Id) (member : Membership) : Prop where
  held : member ∈ d.memberships
  organization : member.organization = organization
  active : member.active = true

/-- The live rules that match a pair. -/
def matchingRules (organization subject target : Id) : List TrustRule :=
  d.rules.filter (d.matching organization subject target)

/-- The trust of a subject toward a target. -/
def IsTrust (organization : Id) (subject : Membership) (target : Id) (trust : TrustValue) : Prop :=
  Decided (d.matchingRules organization subject.id target) (d.defaultOf organization subject) trust

/-- An answer that is right for a pair. -/
abbrev Right (organization : Id) (subject : Membership) (target : Id) :
    TrustEvaluationResponse → Prop :=
  Answers (d.matchingRules organization subject.id target) (d.defaultOf organization subject)

/-- The row of a member in the queries for defaults. -/
def defaultRow (organization : Id) (member : Membership) : DefaultRow :=
  { subject := member.id
    boundary := (d.defaultOf organization member).boundary.asStr
    level := (d.defaultOf organization member).level.asStr }

variable {d}

theorem membership_eq {one two : Membership} (first : one ∈ d.memberships)
    (second : two ∈ d.memberships) (same : one.id = two.id) : one = two :=
  List.inj_on_of_nodup_map d.membershipsUnique first second same

theorem mem_trustDefaults {subjects : List Id} {row : DefaultRow} :
    row ∈ d.trustDefaults organization subjects ↔
      ∃ member, d.Member organization member ∧ member.id ∈ subjects ∧
        row = d.defaultRow organization member := by
  unfold trustDefaults
  simp only [List.mem_map, List.mem_filter, Bool.and_eq_true, decide_eq_true_eq]
  constructor
  · rintro ⟨member, ⟨held, ⟨own, asked⟩, active⟩, rfl⟩
    exact ⟨member, ⟨held, own, active⟩, asked, rfl⟩
  · rintro ⟨member, ⟨held, own, active⟩, asked, rfl⟩
    exact ⟨member, ⟨held, ⟨own, asked⟩, active⟩, rfl⟩

/-- The defaults hold one row a member. -/
theorem trustDefaults_subjects (subjects : List Id) :
    ((d.trustDefaults organization subjects).map DefaultRow.subject).Nodup := by
  unfold trustDefaults
  rw [List.map_map]
  exact d.membershipsUnique.sublist (List.filter_sublist.map Membership.id)

/-- The row found for an active member is its own. -/
theorem find_default (order : RowOrder) {subject : Membership} {subjects : List Id}
    (member : d.Member organization subject) (asked : subject.id ∈ subjects) :
    ((order.apply (d.trustDefaults organization subjects)).find? fun row =>
      row.subject = subject.id) = some (d.defaultRow organization subject) := by
  apply Keyed.find?_of_only
  · exact (order.perm _).mem_iff.mpr (mem_trustDefaults.mpr ⟨subject, member, asked, rfl⟩)
  · exact decide_eq_true rfl
  · intro row held same
    obtain ⟨other, active, -, rfl⟩ :=
      mem_trustDefaults.mp ((order.perm _).mem_iff.mp held)
    rw [membership_eq active.held member.held (of_decide_eq_true same)]

/-! ## What a key has collected -/

/-- A key collects the rows of its own pair, in some order. -/
theorem collected_perm {κ : Type} [DecidableEq κ] (key : DirectoryMatch → κ)
    (keyOf : EvaluationTarget → κ) (order : RowOrder)
    (own : ∀ target row, key
      { directoryMember := target.directoryMember, subject := target.subject, row := row } =
        keyOf target)
    {targets : List EvaluationTarget} (distinct : (targets.map keyOf).Nodup)
    {target : EvaluationTarget} (mem : target ∈ targets) :
    (collected key (order.apply (d.directoryTrustMatch organization targets))
      (keyOf target)).Perm (d.trustMatch organization target.subject target.targetSilicon) := by
  unfold collected
  have kept := (order.perm (d.directoryTrustMatch organization targets)).filter
    fun row => key row = keyOf target
  have same : ((d.directoryTrustMatch organization targets).filter fun row =>
      key row = keyOf target) = (d.trustMatch organization target.subject
        target.targetSilicon).map fun row =>
          { directoryMember := target.directoryMember, subject := target.subject, row := row } := by
    apply Keyed.filter_flatMap_own _ distinct mem
    intro other row made
    obtain ⟨found, -, rfl⟩ := List.mem_map.mp made
    exact own other found
  rw [same] at kept
  have rows := kept.map DirectoryMatch.row
  rw [List.map_map, show (DirectoryMatch.row ∘ fun row : MatchRow =>
    DirectoryMatch.mk target.directoryMember target.subject row) = id from rfl,
    List.map_id] at rows
  exact rows

/-- What the rows of a pair are folded to, with the default of its subject. -/
theorem evaluateMatches_right {subject : Membership} {target : Id} {rows : List MatchRow}
    (own : rows.Perm (d.trustMatch organization subject.id target)) :
    ∃ response, evaluateMatches (d.defaultRow organization subject).boundary
        (d.defaultRow organization subject).level rows = .ok response ∧
      d.Right organization subject target response :=
  evaluateMatches_rows (d.rulesUnique.sublist (List.filter_sublist.map TrustRule.id)) own

/-! ## The single evaluation -/

theorem validateActiveMembership_ok {member : Membership} {requireSilicon : Bool}
    (active : d.Member organization member)
    (kind : requireSilicon = true → member.isSilicon = true) :
    d.validateActiveMembership organization member.id requireSilicon = .ok ⟨⟩ := by
  unfold validateActiveMembership
  rw [Fallible.require_ok, List.any_eq_true]
  refine ⟨member, active.held, ?_⟩
  cases requireSilicon with
  | false => simp [active.organization, active.active]
  | true => simp [active.organization, active.active, kind rfl]

theorem evaluateTrust_right (order : RowOrder) {subject target : Membership}
    (member : d.Member organization subject) (active : d.Member organization target)
    (silicon : target.isSilicon = true) :
    ∃ response, d.evaluateTrust order organization subject.id target.id = .ok response ∧
      d.Right organization subject target.id response := by
  have head : (order.apply (d.trustDefaults organization [subject.id])).head? =
      some (d.defaultRow organization subject) := by
    have found := find_default order member (List.mem_singleton.mpr rfl)
    cases rows : order.apply (d.trustDefaults organization [subject.id]) with
    | nil => simp [rows] at found
    | cons row rest =>
        have held : row ∈ d.trustDefaults organization [subject.id] := by
          rw [← (order.perm _).mem_iff, rows]
          exact List.mem_cons_self
        obtain ⟨other, own, asked, rfl⟩ := mem_trustDefaults.mp held
        rw [List.head?_cons, membership_eq own.held member.held (List.mem_singleton.mp asked)]
  obtain ⟨response, folded, right⟩ := evaluateMatches_right
    (order.perm (d.trustMatch organization subject.id target.id))
  refine ⟨response, ?_, right⟩
  unfold evaluateTrust
  rw [validateActiveMembership_ok member (fun asked => by cases asked),
    validateActiveMembership_ok active (fun _ => silicon), head]
  exact folded

/-! ## The directory -/

/-- The pair of a Silicon on a page. -/
def pair (requester : Id) (row : DirectoryRow) : EvaluationTarget :=
  { directoryMember := row.membershipId, subject := requester, targetSilicon := row.membershipId }

def silicons (rows : List DirectoryRow) : List DirectoryRow :=
  rows.filter fun row => row.principalKind = "silicon"

theorem trustTargets_ok {requester : Id} {kind : ActorType} {rows : List DirectoryRow}
    (asks : kind = .carbon ∨ kind = .silicon)
    (kinds : ∀ row ∈ rows, row.principalKind = "silicon" ∨ row.principalKind = "carbon") :
    trustTargets requester kind rows = .ok ((silicons rows).map (pair requester)) := by
  induction rows with
  | nil => rfl
  | cons row rows ih =>
      have rest := ih fun other mem => kinds other (List.mem_cons_of_mem row mem)
      rcases kinds row List.mem_cons_self with silicon | carbon
      · have one : trustTarget requester kind row = .ok (some (pair requester row)) := by
          rcases asks with rfl | rfl <;> simp [trustTarget, silicon, pair]
        simp [trustTargets, one, rest, silicons, silicon, bind, Except.bind, pure, Except.pure]
      · have one : trustTarget requester kind row = .ok none := by
          rcases asks with rfl | rfl <;> simp [trustTarget, carbon]
        simp [trustTargets, one, rest, silicons, carbon, bind, Except.bind, pure, Except.pure]

/-- Targets that each have their answer are all answered under their own member. -/
theorem evaluateTargets_ok (defaults : List DefaultRow) (found : List DirectoryMatch)
    (P : EvaluationTarget → TrustEvaluationResponse → Prop) {targets : List EvaluationTarget}
    (distinct : (targets.map EvaluationTarget.directoryMember).Nodup)
    (each : ∀ target ∈ targets, ∃ default_ response,
      (defaults.find? fun row => row.subject = target.subject) = some default_ ∧
      evaluateMatches default_.boundary default_.level
        (collected DirectoryMatch.directoryMember found target.directoryMember) = .ok response ∧
      P target response) (evaluated : Evaluated) :
    ∃ result, evaluateTargets defaults found targets evaluated = .ok result ∧
      (∀ id, id ∉ targets.map EvaluationTarget.directoryMember → result[id]? = evaluated[id]?) ∧
      ∀ target ∈ targets, ∃ response, result[target.directoryMember]? = some response ∧
        P target response := by
  induction targets generalizing evaluated with
  | nil => exact ⟨evaluated, rfl, fun id _ => rfl, fun target mem => by cases mem⟩
  | cons target targets ih =>
      rw [List.map_cons, List.nodup_cons] at distinct
      obtain ⟨default_, response, row, folded, right⟩ := each target List.mem_cons_self
      obtain ⟨result, rest, others, answered⟩ := ih distinct.2
        (fun other mem => each other (List.mem_cons_of_mem target mem))
        (evaluated.insert target.directoryMember response)
      refine ⟨result, ?_, ?_, ?_⟩
      · simp only [evaluateTargets, row, Fallible.orElse, folded, bind, Except.bind, rest]
      · intro id outside
        rw [List.map_cons, List.mem_cons, not_or] at outside
        rw [others id outside.2, Std.TreeMap.getElem?_insert]
        simp [Ne.symm outside.1]
      · intro other mem
        rcases List.mem_cons.mp mem with rfl | mem
        · refine ⟨response, ?_, right⟩
          rw [others _ distinct.1, Std.TreeMap.getElem?_insert]
          simp
        · exact answered other mem

/-- The subjects of a page are its requester, if it asks for anything. -/
theorem length_trustDefaults (order : RowOrder) {requester : Membership}
    (member : d.Member organization requester) {subjects : List Id} (distinct : subjects.Nodup)
    (only : ∀ subject ∈ subjects, subject = requester.id) :
    (order.apply (d.trustDefaults organization subjects)).length = subjects.length := by
  rw [(order.perm _).length_eq, ← List.length_map DefaultRow.subject]
  apply List.Perm.length_eq
  rw [List.perm_ext_iff_of_nodup (trustDefaults_subjects subjects) distinct]
  intro subject
  rw [List.mem_map]
  constructor
  · rintro ⟨row, held, rfl⟩
    obtain ⟨other, -, asked, rfl⟩ := mem_trustDefaults.mp held
    exact asked
  · intro asked
    have own := only subject asked
    subst own
    exact ⟨_, mem_trustDefaults.mpr ⟨requester, member, asked, rfl⟩, rfl⟩

theorem evaluateDirectoryTrust_right (order : RowOrder) {requester : Membership}
    (member : d.Member organization requester) {kind : ActorType}
    (asks : kind = .carbon ∨ kind = .silicon) {rows : List DirectoryRow}
    (kinds : ∀ row ∈ rows, row.principalKind = "silicon" ∨ row.principalKind = "carbon")
    (page : (rows.map DirectoryRow.membershipId).Nodup) :
    ∃ evaluated, d.evaluateDirectoryTrust order organization requester.id kind true rows =
        .ok evaluated ∧
      (∀ row ∈ silicons rows, ∃ response, evaluated[row.membershipId]? = some response ∧
        d.Right organization requester row.membershipId response) ∧
      ∀ id response, evaluated[id]? = some response →
        ∃ row ∈ silicons rows, row.membershipId = id := by
  have ids : ((silicons rows).map (pair requester.id)).map EvaluationTarget.directoryMember =
      (silicons rows).map DirectoryRow.membershipId := by
    rw [List.map_map]
    rfl
  have distinct : (((silicons rows).map (pair requester.id)).map
      EvaluationTarget.directoryMember).Nodup := by
    rw [ids]
    exact page.sublist (List.filter_sublist.map DirectoryRow.membershipId)
  have subjects : ∀ subject ∈ (((silicons rows).map (pair requester.id)).map
      EvaluationTarget.subject).dedup, subject = requester.id := by
    intro subject mem
    rw [List.mem_dedup, List.map_map] at mem
    obtain ⟨row, -, rfl⟩ := List.mem_map.mp mem
    rfl
  obtain ⟨evaluated, answered, others, own⟩ := evaluateTargets_ok
    (order.apply (d.trustDefaults organization
      (((silicons rows).map (pair requester.id)).map EvaluationTarget.subject).dedup))
    (order.apply (d.directoryTrustMatch organization ((silicons rows).map (pair requester.id))))
    (fun target response => d.Right organization requester target.targetSilicon response)
    distinct
    (by
      intro target mem
      obtain ⟨row, held, rfl⟩ := List.mem_map.mp mem
      obtain ⟨response, folded, right⟩ := evaluateMatches_right
        (collected_perm DirectoryMatch.directoryMember EvaluationTarget.directoryMember order
          (fun _ _ => rfl) distinct mem)
      refine ⟨d.defaultRow organization requester, response, ?_, folded, right⟩
      apply find_default order member
      rw [List.mem_dedup]
      exact List.mem_map_of_mem mem)
    ∅
  refine ⟨evaluated, ?_, ?_, ?_⟩
  · simp only [evaluateDirectoryTrust, Bool.not_true, Bool.false_eq_true, if_false,
      trustTargets_ok asks kinds, bind, Except.bind]
    rw [Fallible.require, if_pos (length_trustDefaults order member (List.nodup_dedup _) subjects)]
    exact answered
  · intro row mem
    exact own (pair requester.id row) (List.mem_map_of_mem mem)
  · intro id response found
    by_contra outside
    rw [others id, Std.TreeMap.getElem?_emptyc] at found
    · cases found
    · rw [ids, List.mem_map]
      exact outside

/-! ## The listing -/

theorem effectiveTrust_ok (default_ : DefaultRow) (found : List DirectoryMatch)
    (P : Id → TrustValue → Prop) {targets : List Id}
    (each : ∀ target ∈ targets, ∃ response,
      evaluateMatches default_.boundary default_.level
        (collected (fun row => (row.subject, row.directoryMember)) found
          (default_.subject, target)) = .ok response ∧ P target response.trust) :
    ∃ effective, effectiveTrust default_ found targets = .ok effective ∧
      effective.map Prod.fst = targets ∧ ∀ one ∈ effective, P one.1 one.2 := by
  induction targets with
  | nil => exact ⟨[], rfl, rfl, fun one mem => by cases mem⟩
  | cons target targets ih =>
      obtain ⟨response, folded, right⟩ := each target List.mem_cons_self
      obtain ⟨effective, rest, names, holds⟩ :=
        ih fun other mem => each other (List.mem_cons_of_mem target mem)
      refine ⟨(target, response.trust) :: effective, ?_, ?_, ?_⟩
      · simp only [effectiveTrust, folded, rest, bind, Except.bind, pure, Except.pure]
      · rw [List.map_cons, names]
      · exact List.forall_mem_cons.mpr ⟨right, holds⟩

theorem effectiveTrusts_ok (found : List DirectoryMatch) (targets : List Id)
    (P : Id → List (Id × TrustValue) → Prop) {defaults : List DefaultRow}
    (each : ∀ default_ ∈ defaults, ∃ effective,
      effectiveTrust default_ found targets = .ok effective ∧ P default_.subject effective) :
    ∃ listed, effectiveTrusts found targets defaults = .ok listed ∧
      listed.map Prod.fst = defaults.map DefaultRow.subject ∧
      ∀ one ∈ listed, P one.1 one.2 := by
  induction defaults with
  | nil => exact ⟨[], rfl, rfl, fun one mem => by cases mem⟩
  | cons default_ defaults ih =>
      obtain ⟨effective, own, right⟩ := each default_ List.mem_cons_self
      obtain ⟨listed, rest, names, holds⟩ :=
        ih fun other mem => each other (List.mem_cons_of_mem default_ mem)
      refine ⟨(default_.subject, effective) :: listed, ?_, ?_, ?_⟩
      · simp only [effectiveTrusts, own, rest, bind, Except.bind, pure, Except.pure]
      · rw [List.map_cons, List.map_cons, names]
      · exact List.forall_mem_cons.mpr ⟨right, holds⟩

/-- The pairs of a listing have different keys. -/
theorem pairs_distinct {defaults : List DefaultRow} {targets : List Id}
    (subjects : (defaults.map DefaultRow.subject).Nodup) (distinct : targets.Nodup) :
    ((defaults.flatMap fun default_ => targets.map fun target =>
      (EvaluationTarget.mk target default_.subject target)).map fun pair =>
        (pair.subject, pair.directoryMember)).Nodup := by
  have product : ((defaults.map DefaultRow.subject).flatMap fun subject =>
      targets.map (Prod.mk subject)).Nodup := List.Nodup.product subjects distinct
  rw [List.flatMap_map] at product
  rw [List.map_flatMap]
  simpa only [List.map_map, Function.comp_def] using product

theorem effectiveTrustForSubjects_right (order : RowOrder) (subjects : List Id) :
    ∃ listed, d.effectiveTrustForSubjects order organization subjects = .ok listed ∧
      (listed.map Prod.fst).Nodup ∧
      ∀ subject, d.Member organization subject → subject.id ∈ subjects →
        ∃ effective, (subject.id, effective) ∈ listed ∧
          effective.map Prod.fst = d.activeSilicons organization ∧
          ∀ one ∈ effective, d.IsTrust organization subject one.1 one.2 := by
  have rows := order.perm (d.trustDefaults organization subjects)
  have once : ((order.apply (d.trustDefaults organization subjects)).map
      DefaultRow.subject).Nodup :=
    (rows.map DefaultRow.subject).nodup_iff.mpr (trustDefaults_subjects subjects)
  have distinct := pairs_distinct once
    (d.membershipsUnique.sublist (List.filter_sublist.map Membership.id) :
      (d.activeSilicons organization).Nodup)
  obtain ⟨listed, answered, names, right⟩ := effectiveTrusts_ok
    (order.apply (d.directoryTrustMatch organization
      ((order.apply (d.trustDefaults organization subjects)).flatMap fun default_ =>
        (d.activeSilicons organization).map fun target =>
          { directoryMember := target, subject := default_.subject, targetSilicon := target })))
    (d.activeSilicons organization)
    (fun id effective => ∀ subject, d.Member organization subject → subject.id = id →
      effective.map Prod.fst = d.activeSilicons organization ∧
        ∀ one ∈ effective, d.IsTrust organization subject one.1 one.2)
    (by
      intro default_ mem
      obtain ⟨subject, member, asked, rfl⟩ := mem_trustDefaults.mp (rows.mem_iff.mp mem)
      obtain ⟨effective, own, targets, holds⟩ := effectiveTrust_ok
        (d.defaultRow organization subject) _ (d.IsTrust organization subject)
        (by
          intro target active
          obtain ⟨response, folded, right⟩ := evaluateMatches_right
            (collected_perm (fun row => (row.subject, row.directoryMember))
              (fun pair => (pair.subject, pair.directoryMember)) order (fun _ _ => rfl)
              distinct (List.mem_flatMap.mpr ⟨_, mem, List.mem_map_of_mem active⟩))
          exact ⟨response, folded, right.trust⟩)
      refine ⟨effective, own, ?_⟩
      intro other active same
      obtain rfl := membership_eq active.held member.held same
      exact ⟨targets, holds⟩)
  refine ⟨listed, answered, names ▸ once, ?_⟩
  intro subject member asked
  have held : subject.id ∈ listed.map Prod.fst := by
    rw [names]
    exact List.mem_map_of_mem (rows.mem_iff.mpr
      (mem_trustDefaults.mpr ⟨subject, member, asked, rfl⟩))
  obtain ⟨⟨id, effective⟩, mem, rfl⟩ := List.mem_map.mp held
  exact ⟨effective, mem, right _ mem subject member rfl⟩

/-! ## A further rule -/

/-- The directory with one more rule. -/
def withRule (d : Directory) (rule : TrustRule) (fresh : rule.id ∉ d.rules.map TrustRule.id) :
    Directory :=
  { d with
    rules := rule :: d.rules
    rulesUnique := List.nodup_cons.mpr ⟨fresh, d.rulesUnique⟩ }

theorem matchingRules_withRule {rule : TrustRule} (fresh : rule.id ∉ d.rules.map TrustRule.id)
    (subject target : Id) :
    (d.withRule rule fresh).matchingRules organization subject target =
      if d.matching organization subject target rule then
        rule :: d.matchingRules organization subject target
      else d.matchingRules organization subject target :=
  List.filter_cons

/-- A rule that does not match a pair does not change its trust. -/
theorem isTrust_withRule_of_other {rule : TrustRule}
    {fresh : rule.id ∉ d.rules.map TrustRule.id} {subject : Membership} {target : Id}
    {trust : TrustValue} (other : d.matching organization subject.id target rule = false) :
    (d.withRule rule fresh).IsTrust organization subject target trust ↔
      d.IsTrust organization subject target trust := by
  unfold IsTrust
  rw [matchingRules_withRule, other]
  rfl

/-- A rule as specific as those that decide does not make the trust more permissive. -/
theorem isTrust_withRule_le {rule first : TrustRule}
    {fresh : rule.id ∉ d.rules.map TrustRule.id} {subject : Membership} {target : Id}
    {before after : TrustValue}
    (decides : Decides (d.matchingRules organization subject.id target) first)
    (specific : rule.specificity = first.specificity)
    (old : d.IsTrust organization subject target before)
    (new : (d.withRule rule fresh).IsTrust organization subject target after) :
    after.permissiveness ≤ before.permissiveness := by
  by_cases matched : d.matching organization subject.id target rule = true
  · unfold IsTrust at new
    rw [matchingRules_withRule, if_pos matched] at new
    exact Precedence.Outcome.le_of_cons decides specific old new
  · rw [isTrust_withRule_of_other (Bool.not_eq_true _ ▸ matched)] at new
    rw [Decided.unique new old]

/-! ## Agreement -/

theorem exists_trust (subject : Membership) (target : Id) :
    ∃ trust, d.IsTrust organization subject target trust := by
  obtain ⟨response, -, right⟩ := evaluateMatches_right
    (List.Perm.refl (d.trustMatch organization subject.id target))
  exact ⟨response.trust, right.trust⟩

/-- A list of trusts by target is the trust of each of its targets. -/
theorem effective_eq {subject : Membership} {trust : Id → TrustValue}
    (is : ∀ target, d.IsTrust organization subject target (trust target))
    {effective : List (Id × TrustValue)}
    (right : ∀ one ∈ effective, d.IsTrust organization subject one.1 one.2) :
    effective = (effective.map Prod.fst).map fun target => (target, trust target) := by
  rw [List.map_map]
  conv_lhs => rw [← List.map_id effective]
  apply List.map_congr_left
  rintro ⟨target, value⟩ mem
  exact Prod.ext rfl (Decided.unique (right _ mem) (is target))

/-- One trust a pair, in every evaluation and every order of rows.  A further rule leaves
the pairs it does not match alone, and if it is as specific as the rules that decide a pair
it does not make its trust more permissive. -/
theorem trust_agrees (d : Directory) (organization : Id) (subject : Membership)
    (member : d.Member organization subject) :
    ∃ trust : Id → TrustValue,
      (∀ target, d.IsTrust organization subject target (trust target)) ∧
      (∀ order : RowOrder,
        (∀ target, d.Member organization target → target.isSilicon = true →
          ∃ response, d.evaluateTrust order organization subject.id target.id = .ok response ∧
            response.trust = trust target.id ∧
            d.Right organization subject target.id response) ∧
        (∀ (kind : ActorType) (rows : List DirectoryRow), kind = .carbon ∨ kind = .silicon →
          (∀ row ∈ rows, row.principalKind = "silicon" ∨ row.principalKind = "carbon") →
          (rows.map DirectoryRow.membershipId).Nodup →
          ∃ evaluated, d.evaluateDirectoryTrust order organization subject.id kind true rows =
              .ok evaluated ∧
            (∀ row ∈ silicons rows, ∃ response, evaluated[row.membershipId]? = some response ∧
              response.trust = trust row.membershipId ∧
              d.Right organization subject row.membershipId response) ∧
            ∀ id response, evaluated[id]? = some response →
              ∃ row ∈ silicons rows, row.membershipId = id) ∧
        (∀ subjects : List Id, subject.id ∈ subjects →
          ∃ listed, d.effectiveTrustForSubjects order organization subjects = .ok listed ∧
            (listed.map Prod.fst).Nodup ∧
            (subject.id, (d.activeSilicons organization).map fun target =>
              (target, trust target)) ∈ listed)) ∧
      ∀ rule fresh target after, (d.withRule rule fresh).IsTrust organization subject target after →
        (d.matching organization subject.id target rule = false → after = trust target) ∧
        (∀ first, Decides (d.matchingRules organization subject.id target) first →
          rule.specificity = first.specificity →
            after.permissiveness ≤ (trust target).permissiveness) := by
  have trusted : ∀ target, ∃ trust, d.IsTrust organization subject target trust :=
    exists_trust subject
  choose trust is using trusted
  have same : ∀ {target response}, d.Right organization subject target response →
      response.trust = trust target := fun right => Decided.unique right.trust (is _)
  refine ⟨trust, is, ?_, ?_⟩
  · intro order
    refine ⟨?_, ?_, ?_⟩
    · intro target active silicon
      obtain ⟨response, answered, right⟩ := evaluateTrust_right order member active silicon
      exact ⟨response, answered, same right, right⟩
    · intro kind rows asks kinds page
      obtain ⟨evaluated, answered, own, only⟩ :=
        evaluateDirectoryTrust_right order member asks kinds page
      refine ⟨evaluated, answered, ?_, only⟩
      intro row mem
      obtain ⟨response, found, right⟩ := own row mem
      exact ⟨response, found, same right, right⟩
    · intro subjects asked
      obtain ⟨listed, answered, once, own⟩ :=
        @effectiveTrustForSubjects_right d organization order subjects
      obtain ⟨effective, mem, targets, right⟩ := own subject member asked
      rw [effective_eq is right, targets] at mem
      exact ⟨listed, answered, once, mem⟩
  · intro rule fresh target after new
    refine ⟨?_, ?_⟩
    · intro other
      exact Decided.unique ((isTrust_withRule_of_other other).mp new) (is target)
    · intro first decides specific
      exact isTrust_withRule_le decides specific (is target) new

/-! ## The rank of a further rule -/

theorem evaluateTrust_isTrust {order : RowOrder} {subject target : Membership}
    {response : TrustEvaluationResponse} (member : d.Member organization subject)
    (active : d.Member organization target) (silicon : target.isSilicon = true)
    (answered : d.evaluateTrust order organization subject.id target.id = .ok response) :
    d.IsTrust organization subject target.id response.trust := by
  obtain ⟨own, same, right⟩ := evaluateTrust_right order member active silicon
  obtain rfl := Except.ok.inj (same.symm.trans answered)
  exact right.trust

theorem Member.withRule {rule : TrustRule} {fresh : rule.id ∉ d.rules.map TrustRule.id}
    {member : Membership} (held : d.Member organization member) :
    (d.withRule rule fresh).Member organization member :=
  ⟨held.held, held.organization, held.active⟩

/-- A further rule that is more specific than all that match a pair decides the pair's trust
alone, and one that is less specific than a rule that decides changes nothing. -/
theorem further_rules_rank (d : Directory) (organization : Id) :
    (∀ subject target rule fresh order response, d.Member organization subject →
      d.Member organization target → target.isSilicon = true →
      d.matching organization subject.id target.id rule = true →
      (∀ other ∈ d.matchingRules organization subject.id target.id,
        other.specificity < rule.specificity) →
      (d.withRule rule fresh).evaluateTrust order organization subject.id target.id =
        .ok response → response.trust = rule.trust) ∧
    ∀ subject target rule fresh first order order' before after, d.Member organization subject →
      d.Member organization target → target.isSilicon = true →
      Decides (d.matchingRules organization subject.id target.id) first →
      rule.specificity < first.specificity →
      d.evaluateTrust order organization subject.id target.id = .ok before →
      (d.withRule rule fresh).evaluateTrust order' organization subject.id target.id = .ok after →
        after.trust = before.trust := by
  constructor
  · intro subject target rule fresh order response member active silicon matched above answered
    have new := evaluateTrust_isTrust member.withRule active.withRule silicon answered
    unfold IsTrust Decided at new
    rw [matchingRules_withRule, if_pos matched] at new
    exact permissiveness_injective (new.of_cons_above above)
  · intro subject target rule fresh first order order' before after member active silicon decides
      below answered changed
    have new := evaluateTrust_isTrust member.withRule active.withRule silicon changed
    refine Decided.unique ?_ (evaluateTrust_isTrust member active silicon answered)
    unfold IsTrust at new
    rw [matchingRules_withRule] at new
    split at new
    · exact new.of_cons_below decides below
    · exact new

/-! ## Two members -/

/-- A Carbon that trusts internally by its settings and a Silicon, both with one tag, in an
organization that does not trust. -/
def office (rules : List TrustRule) (unique : (rules.map TrustRule.id).Nodup) : Directory :=
  { rules := rules
    tags := [{ organization := 1, membership := 1, tag := 7 },
      { organization := 1, membership := 2, tag := 7 }]
    memberships :=
      [{ id := 1, organization := 1, isSilicon := false, active := true, provisioned := false },
        { id := 2, organization := 1, isSilicon := true, active := true, provisioned := true }]
    settings := [{ organization := 1, membership := 1, trust := ⟨.internal, .trusted⟩ }]
    default_ := fun _ => ⟨.external, .notTrusted⟩
    rulesUnique := unique
    membershipsUnique := by decide
    settingsUnique := by decide }

def asStored : RowOrder := { apply := id, perm := fun rows => List.Perm.refl rows }

def ruleOf (id : Id) (subject : Subject) (target : Target) (level : TrustLevel) : TrustRule :=
  { id := id, organization := 1, subject := subject, target := target
    trust := ⟨.internal, level⟩, archived := false }

/-- The Carbon of the office is asked for whatever the order of the rows. -/
theorem trust_agrees_office :
    ∃ trust : Id → TrustValue, trust 2 = ⟨.internal, .notTrusted⟩ ∧ ∀ order : RowOrder,
      ∃ response, (office [ruleOf 1 (.tag 7) (.tag 7) .notTrusted] (by decide)).evaluateTrust
        order 1 1 2 = .ok response ∧ response.trust = trust 2 := by
  obtain ⟨trust, -, agree, -⟩ := trust_agrees
    (office [ruleOf 1 (.tag 7) (.tag 7) .notTrusted] (by decide)) 1
    { id := 1, organization := 1, isSilicon := false, active := true, provisioned := false }
    { held := List.mem_cons_self, organization := rfl, active := rfl }
  have answered := fun order => (agree order).1
    { id := 2, organization := 1, isSilicon := true, active := true, provisioned := true }
    { held := List.mem_cons_of_mem _ List.mem_cons_self, organization := rfl, active := rfl } rfl
  refine ⟨trust, ?_, ?_⟩
  · obtain ⟨response, here, same, -⟩ := answered asStored
    have known : (office [ruleOf 1 (.tag 7) (.tag 7) .notTrusted] (by decide)).evaluateTrust
        asStored 1 1 2 = .ok { trust := ⟨.internal, .notTrusted⟩, source := "tag_rule",
                               matchingRuleIds := [1] } := rfl
    rw [known] at here
    rw [← same, ← Except.ok.inj here]
  · intro order
    obtain ⟨response, here, same, -⟩ := answered order
    exact ⟨response, here, same⟩

/-- Without a rule the subject's default counts, not the target's; and a rule of the
greatest specificity may be more permissive than the less specific one that decided. -/
theorem default_is_of_subject :
    ((office [] (by decide)).evaluateTrust asStored 1 1 2 =
        .ok { trust := ⟨.internal, .trusted⟩, source := "organization_default"
              matchingRuleIds := [] } ∧
      ∀ target ∈ (office [] (by decide)).memberships, target.id = 2 →
        (office [] (by decide)).defaultOf 1 target = ⟨.external, .notTrusted⟩) ∧
    (office [ruleOf 1 (.tag 7) (.tag 7) .notTrusted] (by decide)).evaluateTrust asStored 1 1 2 =
        .ok { trust := ⟨.internal, .notTrusted⟩, source := "tag_rule", matchingRuleIds := [1] } ∧
    (office [ruleOf 2 (.membership 1) (.silicon 2) .trusted,
        ruleOf 1 (.tag 7) (.tag 7) .notTrusted] (by decide)).evaluateTrust asStored 1 1 2 =
        .ok { trust := ⟨.internal, .trusted⟩, source := "exact_rule", matchingRuleIds := [2] } :=
  ⟨⟨rfl, by decide⟩, rfl, rfl⟩

end Directory

end SiliconIam.Organizations.Trust
