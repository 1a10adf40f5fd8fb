/-
# Organizations.EditAnnouncements -- which edits announce exactly what they change

Over every edit and removal that commits: the events and versions are those of what
it has changed unless it removes a Silicon that somebody live reports to, and the
rows of what it has changed were locked before its first write unless it patches a
Carbon member.
-/
import SiliconIam.Organizations.RemovalAnnouncements

namespace SiliconIam.Organizations.Hierarchy

open SiliconIam.Theory SiliconIam.Theory.Transactions

set_option autoImplicit false

variable {d y : Directory} {xid : Nat}

/-- The patches and the removals. -/
def Request.edits : Request → Bool
  | .createSilicon _ => false
  | _ => true

/-- A Silicon is removed to which somebody live reports. -/
def Request.leavesReports (d : Directory) : Request → Bool
  | .removeSilicon silicon r => d.silicons.any fun s =>
      s.organization == r.organization && s.id == silicon &&
        !(d.reports r.organization Silicon.live s.membership).isEmpty
  | _ => false

def Request.patchesCarbon : Request → Bool
  | .updateCarbonMember _ => true
  | _ => false

theorem removeMember_announces (wf : d.WellFormed) {membership : Nat} (r : Removal)
    (ran : engine.atomic xid (.removeMember membership r) d = some y) :
    Announces (some membership) d y ∧
      LockedBy (Engine.locksBeforeWrite xid (program (.removeMember membership r)) Memory.empty d)
        (some membership) d y := by
  obtain ⟨left, permitted, ran, taken⟩ := run_query ran
  split at permitted
  · obtain ⟨m, mem, here, rfl, active, kind, version, ran, takenAfter⟩ :=
      fetchMembershipIdentity_spec ran
    have locks : Engine.locksBeforeWrite xid (program (.removeMember m.id r)) Memory.empty d = _ :=
      taken.trans takenAfter
    rw [locks]
    refine removal_announces wf r false ran (fun silicon => absurd silicon (by decide))
      (fun _ _ s _ _ about_ => absurd about_.1 (by decide)) fun left target b _ apart about_ => ?_
    exact apart (about_.2.symm.trans target)
  · exact absurd permitted (by simp)

/-- What the removal of a Silicon finds, and what it runs from there. -/
theorem removeSilicon_found {silicon : Nat} {r : Removal}
    (ran : engine.atomic xid (.removeSilicon silicon r) d = some y) :
    ∃ s ∈ d.silicons, s.organization = r.organization ∧ s.id = silicon ∧ ∃ memory,
      memory.principal = s.id ∧ memory.target = s.membership ∧
      engine.atomicFrom xid (r.fromLocks true
        (Removal.record .silicon Memory.principal "organization.silicon.removed.v1")) memory d =
          some y ∧
      Engine.locksBeforeWrite xid (program (.removeSilicon silicon r)) Memory.empty d =
        Engine.locksBeforeWrite xid (r.fromLocks true
          (Removal.record .silicon Memory.principal "organization.silicon.removed.v1")) memory d := by
  obtain ⟨left, permitted, ran, taken⟩ := run_query ran
  split at permitted
  · obtain ⟨s, mem, here, id, live, -, version, ran, takenAfter⟩ := fetchIdentity_spec ran
    obtain ⟨left, captured, ran, takenLast⟩ := run_query ran
    split at captured
    · obtain rfl := Option.some.inj captured
      exact ⟨s, mem, here, id, _, rfl, rfl, ran, taken.trans (takenAfter.trans takenLast)⟩
    · exact absurd captured (by simp)
  · exact absurd permitted (by simp)

theorem removed_silicon {s : Silicon} {silicon : Nat} {r : Removal} (mem : s ∈ d.silicons)
    (here : s.organization = r.organization) (id : s.id = silicon) :
    Request.removed d (.removeSilicon silicon r) = some s.membership := by
  have found : (d.silicons.find? fun s => s.organization == r.organization && s.id == silicon) =
      some s := by
    refine Table.find?_eq_some_of_key mem (by simp [here, id]) fun other _ holds => ?_
    simp only [Bool.and_eq_true, beq_iff_eq] at holds
    rw [holds.2, id]
  rw [Request.removed, found]
  rfl

theorem leavesReports_iff {s : Silicon} {silicon : Nat} {r : Removal} (mem : s ∈ d.silicons)
    (here : s.organization = r.organization) (id : s.id = silicon) :
    Request.leavesReports d (.removeSilicon silicon r) = true ↔
      ¬ Unreported d r.organization s.membership := by
  rw [Request.leavesReports, Table.any_eq_true, Unreported]
  constructor
  · rintro ⟨other, otherMem, holds⟩
    simp only [Bool.and_eq_true, beq_iff_eq, Bool.not_eq_true', List.isEmpty_eq_false_iff] at holds
    rw [← Table.unique otherMem mem (holds.1.2.trans id.symm)]
    exact holds.2
  · intro reported
    refine ⟨s, mem, ?_⟩
    simp [here, id, reported]

theorem removeSilicon_announces (wf : d.WellFormed) {silicon : Nat} (r : Removal)
    (ran : engine.atomic xid (.removeSilicon silicon r) d = some y)
    (unreported : ¬ Request.leavesReports d (.removeSilicon silicon r) = true) :
    Announces (Request.removed d (.removeSilicon silicon r)) d y ∧
      LockedBy (Engine.locksBeforeWrite xid (program (.removeSilicon silicon r)) Memory.empty d)
        (Request.removed d (.removeSilicon silicon r)) d y := by
  obtain ⟨s, mem, here, id, memory, principal, target, ran, locks⟩ := removeSilicon_found ran
  rw [leavesReports_iff mem here id, not_not, ← target] at unreported
  rw [removed_silicon mem here id, locks, ← target]
  refine removal_announces wf r true ran (fun _ => unreported) (fun left same b bMem apart about_ => ?_)
    fun _ _ b _ _ about_ => absurd about_.1 (by decide)
  refine apart ?_
  rw [Table.unique bMem mem (about_.2.symm.trans (same.trans principal)), target]

theorem removeSilicon_unannounced (wf : d.WellFormed) {silicon : Nat} (r : Removal)
    (ran : engine.atomic xid (.removeSilicon silicon r) d = some y)
    (reported : Request.leavesReports d (.removeSilicon silicon r) = true) :
    ¬ Announces (Request.removed d (.removeSilicon silicon r)) d y := by
  obtain ⟨s, mem, here, id, memory, principal, target, ran, -⟩ := removeSilicon_found ran
  rw [leavesReports_iff mem here id] at reported
  obtain ⟨report, listed⟩ := List.exists_mem_of_ne_nil _ reported
  obtain ⟨reportMem, -, live, reports⟩ := mem_reports.mp listed
  rw [removed_silicon mem here id, ← target]
  refine removal_unannounced wf r true ran reportMem live (target ▸ reports) fun left same about_ => ?_
  -- A Silicon that reports to itself is on a cycle of one link.
  obtain rfl := Table.unique reportMem mem (about_.symm.trans (same.trans principal))
  exact wf.tree report.organization |>.acyclic report.membership
    (.single ⟨report, mem, rfl, rfl, reports⟩)

/-- Silicons 1 and 3 at the root, and 2 reports to 1. -/
def reportingLine : List (Event Request) :=
  .start (createRoot 1) :: executes 0 6 ++ .commit 0 ::
  .start (createRoot 3) :: executes 1 6 ++ .commit 1 ::
  .start (.createSilicon ⟨1, 2, 102, "report", "UTC", none, some 101, true⟩) :: executes 2 6 ++
  [.commit 2]

/-- A directory with Silicons only, each with its membership. -/
theorem wellFormed_of_silicons (inv : Inv d)
    (seated : ∀ m ∈ d.memberships, ∀ s ∈ d.silicons, s.id = m.principal →
      m.id = s.membership ∧ m.organization = s.organization)
    (silicons : ∀ m ∈ d.memberships, m.kind = .silicon) (settings : d.settings.rows = [])
    (access : d.access.rows = []) : d.WellFormed where
  tree := inv
  home := fun m mem kind s sMem same =>
    ⟨(seated m mem s sMem same).1, (seated m mem s sMem same).2, same.symm, kind⟩
  settings := fun c mem => by
    rw [← Table.mem_rows, settings] at mem
    exact absurd mem List.not_mem_nil
  settled := fun m mem _ carbon => absurd ((silicons m mem).symm.trans carbon) (by decide)
  carbon := fun g mem => by
    rw [← Table.mem_rows, access] at mem
    exact absurd mem List.not_mem_nil
  silicon := fun g mem => by
    rw [← Table.mem_rows, access] at mem
    exact absurd mem List.not_mem_nil

theorem reportingLine_wellFormed {w : World Directory Write RowLock Memory Request}
    (played : engine.play (World.idle noRows.withoutSilicons) reportingLine = some w) :
    w.committed.WellFormed := by
  have rows : (engine.play (World.idle noRows.withoutSilicons) reportingLine).all (fun w =>
      (w.committed.memberships.rows.all fun m => w.committed.silicons.rows.all fun s =>
        s.id != m.principal || (m.id == s.membership && m.organization == s.organization)) &&
      (w.committed.memberships.rows.all fun m => m.kind == .silicon) &&
      w.committed.settings.rows.isEmpty && w.committed.access.rows.isEmpty) = true := by
    decide +kernel
  rw [played, Option.all_some] at rows
  simp only [Bool.and_eq_true, List.all_eq_true, Bool.or_eq_true, bne_iff_ne, beq_iff_eq,
    List.isEmpty_iff] at rows
  have sound := outline.sound (play_run played) (Outline.sound_idle (inv_withoutSilicons noRows))
  exact wellFormed_of_silicons sound.committed
    (fun m mem s sMem same => (rows.1.1.1 m mem s sMem).resolve_left fun other => other same)
    rows.1.1.2 rows.1.2 rows.2

/-- An edit of the reporting line commits and ends in rows and events that satisfy `shows`. -/
theorem reportingLine_edit (request : Request) (shows : Directory → Directory → Bool)
    (ended : (engine.play (World.idle noRows.withoutSilicons) reportingLine).any (fun w =>
      (engine.atomic 0 request w.committed).any (shows w.committed)) = true) :
    ∃ d y, d.WellFormed ∧ engine.atomic 0 request d = some y ∧ shows d y = true := by
  obtain ⟨w, played, ended⟩ := (Option.any_eq_true _ _).mp ended
  obtain ⟨y, ran, shown⟩ := (Option.any_eq_true _ _).mp ended
  exact ⟨w.committed, y, reportingLine_wellFormed played, ran, shown⟩

/-- Who reports to whom, and at which version. -/
def Directory.reportRows (d : Directory) : List (Nat × Option Nat × Nat) :=
  d.silicons.rows.map fun s => (s.id, s.reportsTo, s.version)

def Directory.eventRows (d : Directory) : List (AggregateType × Nat × Nat) :=
  d.outbox.map fun event => (event.aggregateType, event.aggregate, event.version)

def removeWith (silicon : Nat) (reassign : Option Nat) : Request :=
  .removeSilicon silicon ⟨1, 1, reassign, true⟩

/-- Silicon 1 is removed and 2 reports to 3 then, which no event of it tells. -/
theorem reassigned_report_unannounced :
    ∃ d y, d.WellFormed ∧ engine.atomic 0 (removeWith 1 (some 103)) d = some y ∧
      d.reportRows = [(2, some 101, 1), (3, none, 1), (1, none, 1)] ∧
      y.reportRows = [(1, none, 2), (2, some 103, 2), (3, none, 1)] ∧
      y.eventRows = d.eventRows ++ [(.silicon, 1, 2), (.organizationMembership, 102, 2)] ∧
      ¬ Announces ((removeWith 1 (some 103)).removed d) d y := by
  obtain ⟨d, y, wf, ran, shown⟩ := reportingLine_edit (removeWith 1 (some 103))
    (fun d y => decide ((removeWith 1 (some 103)).leavesReports d = true ∧
      d.reportRows = [(2, some 101, 1), (3, none, 1), (1, none, 1)] ∧
      y.reportRows = [(1, none, 2), (2, some 103, 2), (3, none, 1)] ∧
      y.eventRows = d.eventRows ++ [(.silicon, 1, 2), (.organizationMembership, 102, 2)]))
    (by decide +kernel)
  obtain ⟨reported, before, after_, events⟩ := of_decide_eq_true shown
  exact ⟨d, y, wf, ran, before, after_, events, removeSilicon_unannounced wf _ ran reported⟩

/-- Versions and events of every edit that commits, and the locks before it. -/
theorem edits_announce_iff (wf : d.WellFormed) (request : Request) (edits : request.edits = true)
    (ran : engine.atomic xid request d = some y) :
    (Announces (request.removed d) d y ∧
        LockedBy (Engine.locksBeforeWrite xid (program request) Memory.empty d)
          (request.removed d) d y ↔
      ¬ request.leavesReports d = true ∧ ¬ request.patchesCarbon = true) ∧
    (Announces (request.removed d) d y ↔ ¬ request.leavesReports d = true) := by
  cases request with
  | createSilicon r => exact absurd edits (by simp [Request.edits])
  | updateSilicon r =>
      have both := updateSilicon_announces wf r ran
      simpa [Request.leavesReports, Request.patchesCarbon, Request.removed] using ⟨both, both.1⟩
  | updateSiliconMember r =>
      have both := siliconBranch_announces wf r ran
      simpa [Request.leavesReports, Request.patchesCarbon, Request.removed] using ⟨both, both.1⟩
  | updateCarbonMember r =>
      obtain ⟨announces, unlocked⟩ := carbonBranch_announces wf r ran
      simpa [Request.leavesReports, Request.patchesCarbon, Request.removed] using
        ⟨fun _ => unlocked, announces⟩
  | removeMember membership r =>
      have both := removeMember_announces wf r ran
      simpa [Request.leavesReports, Request.patchesCarbon, Request.removed] using ⟨both, both.1⟩
  | removeSilicon silicon r =>
      by_cases reported : Request.leavesReports d (.removeSilicon silicon r) = true
      · have unannounced := removeSilicon_unannounced wf r ran reported
        simp only [reported, not_true_eq_false, false_and, iff_false]
        exact ⟨fun both => unannounced both.1, unannounced⟩
      · have both := removeSilicon_announces wf r ran reported
        have other : ¬ Request.patchesCarbon (.removeSilicon silicon r) = true := by
          simp [Request.patchesCarbon]
        exact ⟨⟨fun _ => ⟨reported, other⟩, fun _ => both⟩, fun _ => reported, fun _ => both.1⟩

/-- Silicon 1 is to report to 3, so that 2 moves a level down with it. -/
def moveUnder (silicon manager : Nat) : Request :=
  .updateSilicon ⟨1, silicon, 1, ⟨none, none, none, some (some manager)⟩, false, true⟩

theorem edits_announce_report :
    ∃ d y, d.WellFormed ∧ engine.atomic 0 (moveUnder 1 103) d = some y ∧
      d.reportRows = [(2, some 101, 1), (3, none, 1), (1, none, 1)] ∧
      y.reportRows = [(2, some 101, 2), (1, some 103, 2), (3, none, 1)] ∧
      y.eventRows = d.eventRows ++ [(.silicon, 1, 2), (.organizationMembership, 101, 2),
        (.silicon, 2, 2), (.organizationMembership, 102, 2)] ∧
      Announces ((moveUnder 1 103).removed d) d y ∧
      LockedBy (Engine.locksBeforeWrite 0 (program (moveUnder 1 103)) Memory.empty d)
        ((moveUnder 1 103).removed d) d y := by
  obtain ⟨d, y, wf, ran, shown⟩ := reportingLine_edit (moveUnder 1 103)
    (fun d y => decide (
      d.reportRows = [(2, some 101, 1), (3, none, 1), (1, none, 1)] ∧
      y.reportRows = [(2, some 101, 2), (1, some 103, 2), (3, none, 1)] ∧
      y.eventRows = d.eventRows ++ [(.silicon, 1, 2), (.organizationMembership, 101, 2),
        (.silicon, 2, 2), (.organizationMembership, 102, 2)]))
    (by decide +kernel)
  obtain ⟨before, after_, events⟩ := of_decide_eq_true shown
  have announced := (edits_announce_iff wf (moveUnder 1 103) rfl ran).1.mpr
    ⟨by simp [Request.leavesReports, moveUnder], by simp [Request.patchesCarbon, moveUnder]⟩
  exact ⟨d, y, wf, ran, before, after_, events, announced⟩

end SiliconIam.Organizations.Hierarchy
