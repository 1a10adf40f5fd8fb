/-
# Auth.StepUpAssertions -- one challenge, one assertion, one use

A passed challenge leaves an assertion, and a protected operation consumes it.  `consume`
keeps the principal, the session and the assertion locked until its transaction ends, so
transactions that consume take effect one after the other, and one that fails afterwards
takes its mark back.  The operations of `Auth.SessionRevocation` are joined by any other that
consumes (`Move.protects`).

`Effect` lists what one transaction can do to challenges and assertions;
`step_up_single_use` is what follows for whole runs.
-/
import SiliconIam.Auth.SessionPolicy

namespace SiliconIam.Auth.SessionRevocation

open SiliconIam.Theory SiliconIam.Theory.Fallible
open SiliconIam.Theory.Runs (AllSteps)
open SiliconIam.Auth.Authority
open SiliconIam.Auth.StepUp (StepUpChallenge updateById)

set_option autoImplicit false

/-- `rest` is what another protected operation answers once the assertion is consumed. -/
inductive Move where
  | operation (a : Act)
  | protects (expected : Expectation) (supplied : List Nat) (rest : Except Refusal Db)

def guarded (w : World) (expected : Expectation) (supplied : List Nat)
    (rest : Except Refusal Db) : Except Refusal World := do
  let t ← consume w expected supplied
  let db ← rest
  return t.withDb db

def Move.run (settings : SecuritySettings) (w : World) : Move → World
  | .operation a => act settings w a
  | .protects expected supplied rest =>
      match guarded w expected supplied rest with
      | .ok t => t
      | .error _ => w

/-- What the assertion that a transaction consumes has to be for. -/
def Move.expected : Move → Option Expectation
  | .operation (.revokeSession access _ _ target) =>
      some ⟨access.session, access.subject.id, .accountSessionRevoke, target⟩
  | .operation (.logout command) =>
      some ⟨command.session, command.principal, .accountSessionsRevokeAll, command.principal⟩
  | .operation _ => none
  | .protects expected _ _ => some expected

def stepUpNext (settings : SecuritySettings) (w : World) (m : Nat × Move) : World :=
  m.2.run settings (w.advance m.1)

/-! ## What should hold -/

/-- An assertion changes only by being consumed, by a transaction for the Carbon, session,
action and resource of its challenge, while that session is current. -/
def SingleUse (settings : SecuritySettings) (w : World) (m : Move) : Prop :=
  ∀ row ∈ w.assertions, row ∈ (m.run settings w).assertions ∨
    row.consumedAt = none ∧ row.consume w.clock ∈ (m.run settings w).assertions ∧
      m.expected = some ⟨row.challengeScope.session, row.challengeScope.carbon,
        row.challengeScope.purpose, row.challengeScope.resource⟩ ∧
      currentAuthority w row.challengeScope.carbon row.challengeScope.session = true ∧
      requiredAssurance ≤ row.assuranceLevel ∧ w.clock < row.expiresAt

/-- A completed challenge has at most one assertion. -/
def OnePerChallenge (w : World) : Prop :=
  ∀ a ∈ w.assertions, ∀ b ∈ w.assertions, a.challengeScope = b.challengeScope →
    a.challenge = b.challenge → a = b

/-! ## Challenges -/

/-- A new challenge takes the next number of its scope. -/
def Numbered (rows : List StepUpChallenge) : Prop :=
  rows.map (·.id) = (List.range rows.length).reverse

/-- The numbers go on, and completed challenges stay. -/
structure Later (rows later : List StepUpChallenge) : Prop where
  numbered : Numbered rows → Numbered later
  completed : ∀ c ∈ rows, c.status = .completed → c ∈ later

theorem Later.refl (rows : List StepUpChallenge) : Later rows rows := ⟨id, fun _ mem _ => mem⟩

theorem Later.map {rows : List StepUpChallenge} {f : StepUpChallenge → StepUpChallenge}
    (ids : ∀ c, (f c).id = c.id) (ended : ∀ c, c.isPending = false → f c = c) :
    Later rows (rows.map f) where
  numbered numbered := by
    have same : (rows.map f).map (·.id) = rows.map (·.id) := by simp [ids]
    rw [Numbered, same, List.length_map]
    exact numbered
  completed c mem done := by
    refine List.mem_map.mpr ⟨c, mem, ended c ?_⟩
    simp [StepUpChallenge.isPending, done]

theorem Later.update {rows : List StepUpChallenge} {f : StepUpChallenge → StepUpChallenge}
    (number : Nat) (ids : ∀ c, (f c).id = c.id) (ended : ∀ c, c.isPending = false → f c = c) :
    Later rows (updateById number f rows) := by
  apply Later.map
  · intro c
    split
    · exact ids c
    · rfl
  · intro c lapsed
    split
    · exact ended c lapsed
    · rfl

theorem Later.create (now : Nat) (rows : List StepUpChallenge) :
    Later rows (StepUp.createChallenge now rows) := by
  have cancelled : Later rows (rows.map (·.cancel)) := by
    apply Later.map
    · intro c
      unfold StepUpChallenge.cancel
      split <;> rfl
    · intro c lapsed
      simp [StepUpChallenge.cancel, lapsed]
  constructor
  · intro numbered
    have old := cancelled.numbered numbered
    rw [Numbered, List.length_map] at old
    rw [Numbered, StepUp.createChallenge, List.map_cons, old, List.length_cons, List.length_map,
      List.range_succ, List.reverse_append]
    rfl
  · exact fun c mem done => List.mem_cons_of_mem _ (cancelled.completed c mem done)

/-- Only a pending challenge is completed. -/
theorem verifyChallenge_later {now number : Nat} {correct : Bool} {rows : List StepUpChallenge} :
    Later rows (StepUp.verifyChallenge now number correct rows).2 ∧
      ((StepUp.verifyChallenge now number correct rows).1 = .success →
        (∃ c ∈ rows, c.id = number ∧ c.isPending = true) ∧
          ∃ c ∈ (StepUp.verifyChallenge now number correct rows).2,
            c.id = number ∧ c.status = .completed) := by
  unfold StepUp.verifyChallenge
  split
  · exact ⟨.refl rows, fun done => by cases done⟩
  rename_i c found
  have mem := List.mem_of_find?_eq_some found
  have same : c.id = number := by simpa using List.find?_some found
  split
  · exact ⟨.refl rows, fun done => by cases done⟩
  rename_i admitted
  simp only [StepUpChallenge.active, Bool.or_eq_true, Bool.not_eq_true', not_or,
    Bool.not_eq_false, Bool.and_eq_true, decide_eq_true_eq] at admitted
  obtain ⟨pending, unexpired, -⟩ := admitted
  split
  · exact ⟨.refl rows, fun done => by cases done⟩
  split
  · refine ⟨.update number (fun c => ?_) fun c lapsed => ?_, fun _ => ⟨⟨c, mem, same, pending⟩, ?_⟩⟩
    · unfold StepUpChallenge.complete
      split <;> rfl
    · simp [StepUpChallenge.complete, lapsed]
    · refine ⟨c.complete now, List.mem_map.mpr ⟨c, mem, by rw [if_pos same]⟩, ?_⟩
      simp [StepUpChallenge.complete, pending, unexpired, same]
  · refine ⟨.update number (fun c => ?_) fun c lapsed => ?_, fun done => by cases done⟩
    · unfold StepUpChallenge.recordFailure
      split <;> rfl
    · simp [StepUpChallenge.recordFailure, lapsed]

/-! ## One transaction -/

/-- What a transaction does to challenges and assertions. -/
inductive Effect (w : World) (expected : Option Expectation) (t : World) : Prop
  | kept (challenges : ∀ scope, Later (w.challenges scope) (t.challenges scope))
      (assertions : t.assertions = w.assertions)
  | consumed {e : Expectation} {row : Assertion} (presented : expected = some e)
      (current : currentAuthority w e.carbon e.session = true) (mem : row ∈ w.assertions)
      (fits : consumable w e row.digest row = true) (challenges : t.challenges = w.challenges)
      (assertions : Table.Updated (fun other => other.id = row.id) (Assertion.consume w.clock)
        w.assertions t.assertions)
  | issued {row : Assertion} (challenges : ∀ scope, Later (w.challenges scope) (t.challenges scope))
      (passed : (∃ c ∈ w.challenges row.challengeScope, c.id = row.challenge ∧ c.isPending = true) ∧
        ∃ c ∈ t.challenges row.challengeScope, c.id = row.challenge ∧ c.status = .completed)
      (inserted : w.assertions.insert row = some t.assertions)

section Effects

variable {w t : World} {expected : Option Expectation}

theorem Effect.same : Effect w expected w := .kept (fun _ => .refl _) rfl

theorem later_setChallenges {scope : Scope} {rows : List StepUpChallenge}
    (later : Later (w.challenges scope) rows) (other : Scope) :
    Later (w.challenges other) ((w.setChallenges scope rows).challenges other) := by
  unfold World.setChallenges
  dsimp only
  split
  · rename_i same
    exact same ▸ later
  · exact .refl _

theorem consume_effect {e : Expectation} {supplied : List Nat} (presented : expected = some e)
    (done : consume w e supplied = .ok t) (db : Db) : Effect w expected (t.withDb db) := by
  obtain ⟨_, current, done⟩ := bind_ok.mp done
  obtain ⟨row, found, done⟩ := bind_ok.mp done
  obtain rfl := return_ok.mp done
  obtain ⟨digest, -, candidate⟩ := List.exists_of_findSome?_eq_some (orElse_ok.mp found)
  obtain ⟨mem, holds⟩ := Table.find?_spec candidate
  have own : row.digest = digest := by
    simp only [consumable, Bool.and_eq_true, decide_eq_true_eq] at holds
    exact holds.1.1.1.1.1.1.1.1
  exact .consumed presented (require_ok.mp current) mem (own ▸ holds) rfl rfl

theorem verifyChallenge_effect {access : AccessContext} {claim : Claim} {scope : Scope}
    {challenge assertion digest : Nat} {correct : Bool} {outcome : Outcome}
    (done : verifyChallenge w access claim scope challenge correct assertion digest =
      .ok (outcome, t)) : Effect w expected t := by
  obtain ⟨carbon, -, done⟩ := bind_ok.mp done
  rcases claim_ok done with ⟨-, rfl⟩ | done
  · exact .same
  obtain ⟨_, -, done⟩ := bind_ok.mp done
  obtain ⟨later, passes⟩ := @verifyChallenge_later w.clock challenge correct (w.challenges scope)
  split at done
  · split at done
    · rename_i rows verified
      rw [verified] at later passes
      obtain ⟨stored, insertion, done⟩ := bind_ok.mp done
      obtain ⟨-, rfl⟩ := Prod.mk.inj (return_ok.mp done)
      have insertion := orElse_ok.mp insertion
      unfold insertAssertion at insertion
      split at insertion
      · cases insertion
      · obtain ⟨assertions, inserted, rfl⟩ := Option.map_eq_some_iff.mp insertion
        obtain ⟨pending, completed⟩ := passes rfl
        refine .issued (later_setChallenges later) ⟨pending, ?_⟩ inserted
        simpa [World.setChallenges] using completed
    · rename_i rows verified
      rw [verified] at later
      obtain ⟨-, rfl⟩ := Prod.mk.inj (Except.ok.inj done)
      exact .kept (later_setChallenges later) rfl
    · cases done
    · obtain ⟨-, rfl⟩ := Prod.mk.inj (Except.ok.inj done)
      exact .same
  · obtain ⟨-, rfl⟩ := Prod.mk.inj (Except.ok.inj done)
    exact .same

theorem act_effect (settings : SecuritySettings) (w : World) (a : Act) :
    Effect w (Move.operation a).expected (act settings w a) := by
  cases a with
  | login => exact .kept (fun _ => .refl _) rfl
  | siliconLogin => exact .kept (fun _ => .refl _) rfl
  | other => exact .kept (fun _ => .refl _) rfl
  | createChallenge access claim limit action resource bound contact =>
      refine committed_of (P := fun t => Effect w _ t) .same fun outcome t done => ?_
      obtain ⟨subject, -, done⟩ := bind_ok.mp done
      rcases claim_ok done with ⟨-, rfl⟩ | done
      · exact .same
      · obtain ⟨_, -, done⟩ := bind_ok.mp done
        obtain ⟨_, -, done⟩ := bind_ok.mp done
        obtain ⟨_, -, done⟩ := bind_ok.mp done
        obtain ⟨_, -, done⟩ := bind_ok.mp done
        obtain ⟨-, rfl⟩ := Prod.mk.inj (return_ok.mp done)
        exact .kept (later_setChallenges (.create _ _)) rfl
  | confirmDelivery scope challenge =>
      simp only [act, confirmDelivery]
      split
      · refine .kept (later_setChallenges (.update _ (fun c => ?_) fun c lapsed => ?_)) rfl
        · unfold StepUpChallenge.confirmDelivery
          split <;> rfl
        · simp [StepUpChallenge.confirmDelivery, StepUpChallenge.awaitsDelivery, lapsed]
      · exact .same
  | failDelivery scope challenge =>
      refine .kept (later_setChallenges (.update _ (fun c => ?_) fun c lapsed => ?_)) rfl
      · unfold StepUpChallenge.failDelivery
        split <;> rfl
      · simp [StepUpChallenge.failDelivery, StepUpChallenge.awaitsDelivery, lapsed]
  | verifyChallenge access claim scope challenge correct assertion digest =>
      exact committed_of (P := fun t => Effect w _ t) .same fun outcome t => verifyChallenge_effect
  | revokeSession access claim stepUp target =>
      refine committed_of (P := fun t => Effect w _ t) .same fun outcome t done => ?_
      obtain ⟨subject, context, done⟩ := bind_ok.mp done
      obtain rfl := carbonContext_ok context
      rcases claim_ok done with ⟨-, rfl⟩ | done
      · exact .same
      · obtain ⟨supplied, -, done⟩ := bind_ok.mp done
        obtain ⟨used, consumed, done⟩ := bind_ok.mp done
        obtain ⟨_, -, done⟩ := bind_ok.mp done
        obtain ⟨_, -, done⟩ := bind_ok.mp done
        obtain ⟨-, rfl⟩ := Prod.mk.inj (return_ok.mp done)
        exact consume_effect rfl consumed _
  | logout command =>
      refine committed_of (P := fun t => Effect w _ t) .same fun outcome t done => ?_
      rcases logout_spec done with rfl | ⟨-, executed⟩
      · exact .same
      · obtain ⟨_, -, executed⟩ := bind_ok.mp executed
        obtain ⟨⟨all, used⟩, authorized, executed⟩ := bind_ok.mp executed
        obtain rfl := return_ok.mp executed
        unfold authorizeLogoutScope at authorized
        split at authorized
        · obtain ⟨-, rfl⟩ := Prod.mk.inj (Except.ok.inj authorized)
          exact .kept (fun _ => .refl _) rfl
        · obtain ⟨others, -, authorized⟩ := bind_ok.mp authorized
          split at authorized
          · obtain ⟨supplied, -, authorized⟩ := bind_ok.mp authorized
            obtain ⟨w', consumed, authorized⟩ := bind_ok.mp authorized
            obtain ⟨-, rfl⟩ := Prod.mk.inj (return_ok.mp authorized)
            exact consume_effect rfl consumed _
          · obtain ⟨-, rfl⟩ := Prod.mk.inj (return_ok.mp authorized)
            exact .kept (fun _ => .refl _) rfl

theorem run_effect (settings : SecuritySettings) (w : World) (m : Move) :
    Effect w m.expected (m.run settings w) := by
  cases m with
  | operation a => exact act_effect settings w a
  | protects expected supplied rest =>
      rw [Move.run]
      cases done : guarded w expected supplied rest with
      | ok t =>
          obtain ⟨used, consumed, done⟩ := bind_ok.mp done
          obtain ⟨db, -, done⟩ := bind_ok.mp done
          obtain rfl := return_ok.mp done
          exact consume_effect rfl consumed db
      | error refusal => exact .same

theorem Effect.singleUse {settings : SecuritySettings} {m : Move}
    (effect : Effect w m.expected (m.run settings w)) : SingleUse settings w m := by
  intro row mem
  cases effect with
  | kept _ assertions => exact .inl (assertions ▸ mem)
  | issued _ _ inserted => exact .inl (((Table.insert_spec inserted).2 row).mpr (.inr mem))
  | @consumed e used presented current held fits _ updated =>
      by_cases own : row.id = used.id
      · obtain rfl := Table.unique mem held own
        simp only [consumable, challengeCompleted, Bool.and_eq_true, decide_eq_true_eq,
          Option.isNone_iff_eq_none] at fits
        obtain ⟨⟨⟨⟨⟨⟨⟨⟨-, carbon⟩, session⟩, purpose⟩, assured⟩, unused⟩, unexpired⟩, scope⟩,
          resource⟩ := fits
        obtain ⟨⟨⟨ownSession, ownCarbon⟩, ownPurpose⟩, -⟩ := scope
        refine .inr ⟨unused, updated.mem.mpr ⟨row, mem, by simp⟩, ?_, ?_, assured, unexpired⟩
        · rw [presented, ownSession, ownCarbon, ownPurpose, session, carbon, purpose, resource]
        · rw [ownSession, ownCarbon, session, carbon]
          exact current
      · exact .inl (updated.mem.mpr ⟨row, mem, by simp [own]⟩)

/-! ## Runs -/

/-- The number of an assertion's challenge is that of a completed challenge only. -/
structure Sound (w : World) : Prop where
  numbered : ∀ scope, Numbered (w.challenges scope)
  completed : ∀ row ∈ w.assertions, ∃ c ∈ w.challenges row.challengeScope,
    c.id = row.challenge ∧ c.status = .completed
  once : OnePerChallenge w

/-- A pending challenge has no assertion. -/
theorem Sound.unissued (sound : Sound w) {row : Assertion} (mem : row ∈ w.assertions)
    {c : StepUpChallenge} (held : c ∈ w.challenges row.challengeScope)
    (pending : c.isPending = true) : c.id ≠ row.challenge := by
  intro same
  obtain ⟨done, doneMem, number, completed⟩ := sound.completed row mem
  have distinct : ((w.challenges row.challengeScope).map (·.id)).Nodup := by
    rw [sound.numbered row.challengeScope]
    exact List.nodup_reverse.mpr List.nodup_range
  obtain rfl := List.inj_on_of_nodup_map distinct held doneMem (same.trans number.symm)
  simp [StepUpChallenge.isPending, completed] at pending

theorem Sound.step (sound : Sound w) (effect : Effect w expected t) : Sound t := by
  cases effect with
  | kept challenges assertions =>
      refine ⟨fun scope => (challenges scope).numbered (sound.numbered scope), ?_, ?_⟩
      · intro row mem
        obtain ⟨c, held, same, done⟩ := sound.completed row (assertions ▸ mem)
        exact ⟨c, (challenges _).completed c held done, same, done⟩
      · unfold OnePerChallenge
        rw [assertions]
        exact sound.once
  | consumed _ _ _ _ challenges updated =>
      refine ⟨challenges ▸ sound.numbered, ?_, ?_⟩
      · intro row mem
        obtain ⟨old, held, rfl⟩ := updated.mem.mp mem
        rw [challenges]
        split <;> exact sound.completed old held
      · intro a aMem b bMem scope challenge
        obtain ⟨a, aHeld, rfl⟩ := updated.mem.mp aMem
        obtain ⟨b, bHeld, rfl⟩ := updated.mem.mp bMem
        have same : a = b := by
          apply sound.once a aHeld b bHeld
          · split at scope <;> split at scope <;> exact scope
          · split at challenge <;> split at challenge <;> exact challenge
        rw [same]
  | issued challenges passed inserted =>
      obtain ⟨⟨c, held, number, pending⟩, completed⟩ := passed
      have member := (Table.insert_spec inserted).2
      refine ⟨fun scope => (challenges scope).numbered (sound.numbered scope), ?_, ?_⟩
      · intro row mem
        rcases (member row).mp mem with rfl | old
        · exact completed
        · obtain ⟨c, held, same, done⟩ := sound.completed row old
          exact ⟨c, (challenges _).completed c held done, same, done⟩
      · intro a aMem b bMem scope challenge
        rcases (member a).mp aMem with rfl | aOld <;> rcases (member b).mp bMem with rfl | bOld
        · rfl
        · exact absurd (number.trans challenge) (sound.unissued bOld (scope ▸ held) pending)
        · exact absurd (number.trans challenge.symm)
            (sound.unissued aOld (scope ▸ held) pending)
        · exact sound.once a aOld b bOld scope challenge

end Effects

/-- No challenge was ever sent. -/
def World.unasked (clock : Nat) (db : Db) (createdAt : Nat → Nat) : World where
  clock := clock
  db := db
  createdAt := createdAt
  challenges := fun _ => []
  assertions := .empty _

/-- **Step-up assertions are bound and single use**, in every order of challenges,
verifications, consuming operations and session ends: every transaction uses assertions as
`SingleUse` says, a challenge has one assertion at most, a consumed assertion stays as it is,
and an operation that fails after consuming leaves everything as it was. -/
theorem step_up_single_use (settings : SecuritySettings) (clock : Nat) (db : Db)
    (createdAt : Nat → Nat) (moves rest : List (Nat × Move)) :
    AllSteps (stepUpNext settings) (fun w m => SingleUse settings (w.advance m.1) m.2)
        (.unasked clock db createdAt) (moves ++ rest) ∧
      OnePerChallenge (Runs.after (stepUpNext settings) (.unasked clock db createdAt) moves) ∧
      (∀ row ∈ (Runs.after (stepUpNext settings) (.unasked clock db createdAt) moves).assertions,
        row.consumedAt ≠ none →
          row ∈ (Runs.after (stepUpNext settings) (.unasked clock db createdAt)
            (moves ++ rest)).assertions) ∧
      ∀ w expected supplied refusal,
        (Move.protects expected supplied (.error refusal)).run settings w = w := by
  have single (w : World) (m : Nat × Move) : SingleUse settings (w.advance m.1) m.2 :=
    (run_effect settings _ m.2).singleUse
  refine ⟨?_, ?_, ?_, ?_⟩
  · exact Runs.allSteps_of_invariant (I := fun _ => True) (fun _ _ _ => trivial)
      (fun w m _ => single w m) _ _ trivial
  · have start : Sound (.unasked clock db createdAt) :=
      ⟨fun _ => rfl, fun _ mem => absurd mem Table.not_mem_empty,
        fun _ mem => absurd mem Table.not_mem_empty⟩
    refine (Runs.after_of_invariant (I := Sound) (fun w m sound => ?_) moves _ start).once
    have advanced : Sound (w.advance m.1) := ⟨sound.numbered, sound.completed, sound.once⟩
    exact advanced.step (run_effect settings _ m.2)
  · intro row mem consumed
    rw [Runs.after_append]
    refine Runs.after_of_invariant (I := fun w : World => row ∈ w.assertions)
      (fun w m held => ?_) rest _ mem
    rcases single w m row held with kept | ⟨unused, -⟩
    · exact kept
    · exact absurd unused consumed
  · intro w expected supplied refusal
    simp only [Move.run, guarded]
    cases consume w expected supplied <;> rfl

end SiliconIam.Auth.SessionRevocation
