/-
# Organizations.ReportingRemoval -- a removal leaves no live report behind

`remove_organization_membership` in the order of its writes: the live reports of
the removed Silicon are linked to the replacement one after the other
(`kept_reparent`), after which nobody live reports to it (`detach_unmanaged`), and
the Silicon and its membership leave together.  With the removal safe, so is every
request, and the reporting invariant holds in every committed state and in the
view of every open transaction.
-/
import SiliconIam.Organizations.ReportingForest

namespace SiliconIam.Organizations.Hierarchy

open SiliconIam.Theory SiliconIam.Theory.Transactions
open SiliconIam.Organizations.Roles (Membership)

set_option autoImplicit false

variable {d : Directory} {organization target : Nat} {need held : List RowLock} {ws : List Write}
variable {reassign : Option Nat} {surviving : List Nat}

/-! ## What the SQL functions do -/

theorem mem_reports {keep : Silicon → Bool} {s : Silicon} {manager : Nat} :
    s ∈ d.reports organization keep manager ↔
      s ∈ d.silicons ∧ s.organization = organization ∧ keep s = true ∧
        s.reportsTo = some manager := by
  simp only [Directory.reports, List.mem_filter, mem_siliconsOf, beq_iff_eq]
  tauto

theorem reparent_cons {report : Silicon} {rest : List Silicon}
    (done : Directory.reparent reassign d (report :: rest) = some ws) :
    ∃ row later, row = { report with reportsTo := reassign, version := report.version + 1 } ∧
      d.admitsLink row = true ∧
      Directory.reparent reassign (d.apply (.silicon row)) rest = some later ∧
      ws = .silicon row :: later := by
  rw [Directory.reparent] at done
  obtain ⟨admitted, done⟩ := Option.ite_none_right_eq_some.mp done
  obtain ⟨later, ran, rfl⟩ := Option.map_eq_some_iff.mp done
  exact ⟨_, later, rfl, admitted, ran, rfl⟩

theorem touchMoved_touches (done : d.touchMoved organization reassign surviving = some ws) :
    ∃ ids, ws = d.touchSilicons organization ids ∨ ws = [] := by
  cases reassign with
  | none => exact ⟨[], .inr (Option.some.inj done).symm⟩
  | some manager =>
      obtain ⟨below, -, rfl⟩ := Option.map_eq_some_iff.mp done
      exact ⟨_, .inl rfl⟩

theorem detach_spec (done : d.detach organization target reassign surviving = some ws) :
    ∃ delta links moved settings, d.hierarchyDelta organization target reassign = some delta ∧
      Directory.reparent reassign d (d.reports organization Silicon.live target) = some links ∧
      (if delta then (d.applyAll links).touchMoved organization reassign surviving else some []) =
        some moved ∧
      settings = ((d.settings.rows.filter fun c =>
        c.organization == organization && c.firstSilicon == some target).map fun c =>
          Write.settings { c with firstSilicon := none }) ∧
      ws = links ++ moved ++ settings := by
  simp only [Directory.detach, Option.bind_eq_some_iff, Option.map_eq_some_iff] at done
  obtain ⟨delta, known, links, reparented, moved, touched, rfl⟩ := done
  exact ⟨delta, links, moved, _, known, reparented, touched, rfl, rfl⟩

theorem deleteSilicon_spec {silicon expected : Nat} {row : Silicon}
    (done : d.deleteSilicon organization silicon expected = some row) :
    ∃ s ∈ d.silicons, s.organization = organization ∧ s.id = silicon ∧ s.version = expected ∧
      s.live = true ∧ row = { s with status := .deleted, version := s.version + 1 } := by
  obtain ⟨s, found, rfl⟩ := Option.map_eq_some_iff.mp done
  obtain ⟨mem, holds⟩ := Table.find?_spec found
  simp only [Bool.and_eq_true, beq_iff_eq] at holds
  exact ⟨s, mem, holds.1.1.1, holds.1.1.2, holds.1.2, holds.2, rfl⟩

theorem removeSilicon_spec {expected : Nat} {s : Silicon}
    (done : d.removeSilicon organization target expected reassign surviving s = some ws) :
    ∃ first row, 0 < expected ∧ s.version = expected ∧
      d.detach organization target reassign surviving = some first ∧
      (d.applyAll first).deleteSilicon organization s.id expected = some row ∧
      ws = first ++ [.silicon row, .principal ⟨s.id, .silicon, false⟩] := by
  rw [Directory.removeSilicon] at done
  obtain ⟨versions, done⟩ := Option.ite_none_left_eq_some.mp done
  simp only [Bool.or_eq_true, beq_iff_eq, bne_iff_ne, not_or, not_not] at versions
  obtain ⟨first, detached, done⟩ := Option.bind_eq_some_iff.mp done
  obtain ⟨row, deleted, rfl⟩ := Option.map_eq_some_iff.mp done
  exact ⟨first, row, Nat.pos_of_ne_zero versions.1, versions.2, detached, deleted, rfl⟩

theorem Directory.membership?_spec {id : Nat} {m : Membership}
    (found : d.membership? organization id = some m) :
    m ∈ d.memberships ∧ m.organization = organization ∧ m.id = id := by
  obtain ⟨mem, holds⟩ := Table.find?_spec found
  simp only [Bool.and_eq_true, beq_iff_eq] at holds
  exact ⟨mem, holds⟩

theorem removeMembership_spec {expected : Nat} {row : Membership}
    (done : d.removeMembership organization target expected = some row) :
    ∃ m, d.membership? organization target = some m ∧ m.version = expected ∧ m.active = true ∧
      row = { m with
        status := .removed, role := .member, roleGrantedBy := none, version := m.version + 1 } := by
  obtain ⟨m, found, done⟩ := Option.bind_eq_some_iff.mp done
  obtain ⟨met, done⟩ := Option.ite_none_right_eq_some.mp done
  simp only [Bool.and_eq_true, beq_iff_eq] at met
  exact ⟨m, found, met.1, met.2, (Option.some.inj done).symm⟩

/-- The first part of the removal, by the kind of the member. -/
inductive FirstPart (d : Directory) (organization target : Nat) (reassign : Option Nat)
    (surviving : List Nat) (m : Membership) : Option Nat → List Write → Prop
  | carbon (kind : m.kind = .carbon) (none : reassign = .none) :
      FirstPart d organization target reassign surviving m .none []
  | silicon {version : Nat} {s : Silicon} {ws : List Write} (kind : m.kind = .silicon)
      (mem : s ∈ d.silicons) (here : s.organization = organization) (at_ : s.membership = target)
      (principal : s.id = m.principal) (live : s.live = true)
      (removed : d.removeSilicon organization target version reassign surviving s = some ws) :
      FirstPart d organization target reassign surviving m (some version) ws

theorem removeOrganizationMembership_spec {expected : Nat} {silicon : Option Nat}
    (done : d.removeOrganizationMembership organization target expected silicon reassign = some ws) :
    ∃ scope m first row, d.removalScope organization target reassign = some scope ∧
      d.membership? organization target = some m ∧ m.version = expected ∧
      FirstPart d organization target reassign
        (scope.memberships.filter fun id => id != target) m silicon first ∧
      (d.applyAll (first ++ d.settleSurvivors organization target
        (scope.memberships.filter fun id => id != target))).removeMembership organization target
          expected = some row ∧
      ws = first ++ d.settleSurvivors organization target
        (scope.memberships.filter fun id => id != target) ++ [.membership row] := by
  obtain ⟨scope, within, done⟩ := Option.bind_eq_some_iff.mp done
  obtain ⟨m, found, done⟩ := Option.bind_eq_some_iff.mp done
  obtain ⟨versions, done⟩ := Option.ite_none_left_eq_some.mp done
  simp only [Bool.or_eq_true, beq_iff_eq, bne_iff_ne, not_or, not_not] at versions
  obtain ⟨first, part, done⟩ := Option.bind_eq_some_iff.mp done
  obtain ⟨row, removed, rfl⟩ := Option.map_eq_some_iff.mp done
  refine ⟨scope, m, first, row, within, found, versions.2, ?_, removed, rfl⟩
  cases kind : m.kind with
  | silicon =>
      cases silicon with
      | none => simp [kind] at part
      | some version =>
          rw [kind] at part
          obtain ⟨s, picked, gone⟩ := Option.bind_eq_some_iff.mp part
          obtain ⟨mem, holds⟩ := Table.find?_spec picked
          simp only [Bool.and_eq_true, beq_iff_eq] at holds
          exact .silicon kind mem holds.1.1.1 holds.1.1.2 holds.1.2 holds.2 gone
  | carbon =>
      cases silicon with
      | some version => simp [kind] at part
      | none =>
          rw [kind] at part
          dsimp only at part
          obtain ⟨unset, part⟩ := Option.ite_none_left_eq_some.mp part
          obtain rfl := Option.some.inj part
          exact .carbon kind (by simpa using unset)

/-- A Silicon's removal has a replacement that is not the Silicon, or no live report. -/
theorem removalScope_spec {scope : RemovalScope} {m : Membership}
    (within : d.removalScope organization target reassign = some scope)
    (found : d.membership? organization target = some m) (kind : m.kind = .silicon) :
    reassign ≠ some target ∧
      (reassign = none → d.reports organization Silicon.live target = []) := by
  rw [Directory.removalScope, found] at within
  dsimp only at within
  obtain ⟨-, within⟩ := Option.ite_none_left_eq_some.mp within
  rw [kind] at within
  dsimp only at within
  split at within
  · exact absurd within (by simp)
  · rw [Directory.siliconRemovalScope] at within
    obtain ⟨met, within⟩ := Option.ite_none_left_eq_some.mp within
    simp only [Bool.or_eq_true, Bool.and_eq_true, Bool.not_eq_true', not_or, not_and,
      Bool.not_eq_true, Bool.not_eq_false] at met
    refine ⟨?_, fun none => ?_⟩
    · rintro rfl
      simp [Directory.replacementActive] at met
    · subst none
      by_contra some
      have := met.1 (by simpa using some)
      simp at this

/-! ## Rows of a view -/

/-- After rows were written back every Silicon has its link. -/
theorem touched_silicons (touches : ∀ w ∈ ws, Touches d w) :
    ∀ row ∈ (d.applyAll ws).silicons, ∃ old ∈ d.silicons, SameLink old row := by
  induction ws generalizing d with
  | nil => exact fun row mem => ⟨row, mem, .refl row⟩
  | cons w rest ih =>
      have first : Touches d w := touches w List.mem_cons_self
      intro row mem
      obtain ⟨middle, middleMem, same⟩ := ih
        (fun other mem => (touches other (List.mem_cons_of_mem w mem)).apply first) row mem
      cases w with
      | silicon written =>
          rcases Table.mem_upsert.mp middleMem with rfl | ⟨old, -⟩
          · obtain ⟨old, oldMem, link⟩ := first
            exact ⟨old, oldMem, link.trans same⟩
          · exact ⟨middle, old, same⟩
      | _ => exact ⟨middle, middleMem, same⟩

theorem apply_silicon_comm {row : Silicon} {w : Write} (other : ∀ s, w ≠ .silicon s) :
    (d.apply (.silicon row)).apply w = (d.apply w).apply (.silicon row) := by
  cases w with
  | silicon s => exact absurd rfl (other s)
  | _ => rfl

/-- A Silicon row may be written after writes to other tables as well. -/
theorem applyAll_silicon_comm {row : Silicon} (others : ∀ s, .silicon s ∉ ws) :
    (d.apply (.silicon row)).applyAll ws = (d.applyAll ws).apply (.silicon row) := by
  induction ws generalizing d with
  | nil => rfl
  | cons w rest ih =>
      have first : ∀ s, w ≠ .silicon s := fun s same => others s (same ▸ List.mem_cons_self)
      rw [applyAll_cons, applyAll_cons, apply_silicon_comm first]
      exact ih fun s mem => others s (List.mem_cons_of_mem w mem)

theorem Kept.congr (other : List Write) (kept : Kept d held other)
    (same : d.applyAll ws = d.applyAll other) (sub : ∀ w ∈ ws, w ∈ other) : Kept d held ws where
  locked := fun w mem => kept.locked w (sub w mem)
  extends_ := same ▸ kept.extends_
  quiet := same ▸ kept.quiet
  tree := same ▸ kept.tree

/-! ## The reports -/

/-- The reports get the replacement, everyone else keeps the row. -/
theorem reparent_rows {reports : List Silicon} (distinct : (reports.map Silicon.id).Nodup)
    (done : Directory.reparent reassign d reports = some ws) :
    ∀ b ∈ (d.applyAll ws).silicons, (b ∈ d.silicons ∧ ∀ r ∈ reports, r.id ≠ b.id) ∨
      ∃ r ∈ reports, b = { r with reportsTo := reassign, version := r.version + 1 } := by
  induction reports generalizing d ws with
  | nil =>
      obtain rfl := Option.some.inj done
      exact fun b mem => .inl ⟨mem, by simp⟩
  | cons report rest ih =>
      obtain ⟨row, later, rfl, -, ran, rfl⟩ := reparent_cons done
      obtain ⟨apart, distinct⟩ := List.nodup_cons.mp distinct
      intro b mem
      rcases ih distinct ran b mem with ⟨middle, others⟩ | ⟨r, listed, same⟩
      · rcases Table.mem_upsert.mp middle with rfl | ⟨old, differs⟩
        · exact .inr ⟨report, List.mem_cons_self, rfl⟩
        · refine .inl ⟨old, fun r listed same => ?_⟩
          rcases List.mem_cons.mp listed with rfl | listed
          · exact differs same.symm
          · exact others r listed same
      · exact .inr ⟨r, List.mem_cons_of_mem report listed, same⟩

theorem reparent_writes {reports : List Silicon}
    (done : Directory.reparent reassign d reports = some ws) :
    ∀ w ∈ ws, ∃ r ∈ reports,
      w = .silicon { r with reportsTo := reassign, version := r.version + 1 } := by
  induction reports generalizing d ws with
  | nil =>
      obtain rfl := Option.some.inj done
      simp
  | cons report rest ih =>
      obtain ⟨row, later, rfl, -, ran, rfl⟩ := reparent_cons done
      intro w mem
      rcases List.mem_cons.mp mem with rfl | mem
      · exact ⟨report, List.mem_cons_self, rfl⟩
      · obtain ⟨r, listed, same⟩ := ih ran w mem
        exact ⟨r, List.mem_cons_of_mem report listed, same⟩

theorem kept_reparent {reports : List Silicon} (inv : Inv d)
    (hierarchy : .hierarchy organization ∈ held) (distinct : (reports.map Silicon.id).Nodup)
    (rows : ∀ r ∈ reports, r ∈ d.silicons ∧ r.organization = organization)
    (locked : ∀ w ∈ ws, ∀ k ∈ w.locks, k ∈ held)
    (done : Directory.reparent reassign d reports = some ws) : Kept d held ws := by
  induction reports generalizing d ws with
  | nil =>
      obtain rfl := Option.some.inj done
      exact .nil inv
  | cons report rest ih =>
      obtain ⟨row, later, rfl, admitted, ran, rfl⟩ := reparent_cons done
      obtain ⟨apart, distinct⟩ := List.nodup_cons.mp distinct
      obtain ⟨mem, here⟩ := rows report List.mem_cons_self
      have first : Kept d held
          [.silicon { report with reportsTo := reassign, version := report.version + 1 }] := by
        refine .link inv (locked _ List.mem_cons_self _ List.mem_cons_self) admitted
          (.inl ⟨report, mem, rfl, rfl, rfl, rfl, .inl ?_⟩)
        exact here ▸ hierarchy
      refine first.append (fun _ lock => lock) (ih first.tree distinct (fun r listed => ?_) ?_ ran)
      · obtain ⟨old, rHere⟩ := rows r (List.mem_cons_of_mem report listed)
        refine ⟨Table.mem_upsert.mpr (.inr ⟨old, fun same => apart ?_⟩), rHere⟩
        exact List.mem_map.mpr ⟨r, listed, same⟩
      · exact fun w mem => locked w (List.mem_cons_of_mem _ mem)

theorem nodup_reports {keep : Silicon → Bool} {manager : Nat} :
    ((d.reports organization keep manager).map Silicon.id).Nodup :=
  ((List.filter_sublist.trans List.filter_sublist).map Silicon.id).nodup d.silicons.distinct

/-! ## Leaving -/

section Leaving

variable {s : Silicon} {expected : Nat}

/-- What `detach` writes after the links is written back with its links. -/
theorem detach_touches {delta : Bool} {links moved : List Write}
    (touched : (if delta then (d.applyAll links).touchMoved organization reassign surviving
      else some []) = some moved) :
    ∀ w ∈ moved ++ ((d.settings.rows.filter fun c =>
        c.organization == organization && c.firstSilicon == some target).map fun c =>
          Write.settings { c with firstSilicon := none }), Touches (d.applyAll links) w := by
  intro w mem
  rcases List.mem_append.mp mem with touch | setting
  · cases delta with
    | true =>
        obtain ⟨ids, rfl | rfl⟩ := touchMoved_touches touched
        · exact touches_touchSilicons w touch
        · exact absurd touch List.not_mem_nil
    | false =>
        obtain rfl := Option.some.inj touched
        exact absurd touch List.not_mem_nil
  · obtain ⟨c, -, rfl⟩ := List.mem_map.mp setting
    trivial

theorem kept_detach (inv : Inv d) (hierarchy : .hierarchy organization ∈ held)
    (locked : ∀ w ∈ ws, ∀ k ∈ w.locks, k ∈ held)
    (done : d.detach organization target reassign surviving = some ws) : Kept d held ws := by
  obtain ⟨delta, links, moved, settings, -, reparented, touched, rfl, rfl⟩ := detach_spec done
  rw [List.append_assoc] at locked ⊢
  have linked : Kept d held links := by
    refine kept_reparent inv hierarchy nodup_reports (fun r listed => ?_)
      (fun w mem => locked w (List.mem_append_left _ mem)) reparented
    obtain ⟨mem, here, -⟩ := mem_reports.mp listed
    exact ⟨mem, here⟩
  refine linked.append (fun _ lock => lock) (.touches linked.tree (fun w mem => ?_)
    (detach_touches touched))
  exact locked w (List.mem_append_right _ mem)

/-- Nobody live reports to the Silicon afterwards. -/
theorem detach_unmanaged (other : reassign ≠ some target)
    (done : d.detach organization target reassign surviving = some ws) :
    ∀ b ∈ (d.applyAll ws).silicons, b.organization = organization → b.live = true →
      b.reportsTo ≠ some target := by
  obtain ⟨delta, links, moved, settings, -, reparented, touched, rfl, rfl⟩ := detach_spec done
  rw [List.append_assoc, applyAll_append]
  intro b mem here live reports
  obtain ⟨old, oldMem, same⟩ := touched_silicons (detach_touches touched) b mem
  rcases reparent_rows nodup_reports reparented old oldMem with ⟨before, others⟩ | ⟨r, -, rfl⟩
  · refine others old (mem_reports.mpr ⟨before, same.organization.trans here, ?_, ?_⟩) rfl
    · exact same.live.trans live
    · exact same.reportsTo.trans reports
  · exact other (same.reportsTo.trans reports)

theorem detach_memberships (done : d.detach organization target reassign surviving = some ws) :
    ∀ row, .membership row ∉ ws := by
  obtain ⟨delta, links, moved, settings, -, reparented, touched, rfl, rfl⟩ := detach_spec done
  intro row mem
  rcases List.mem_append.mp mem with mem | setting
  · rcases List.mem_append.mp mem with link | touch
    · obtain ⟨r, -, same⟩ := reparent_writes reparented _ link
      exact nomatch same
    · cases delta with
      | true =>
          obtain ⟨ids, rfl | rfl⟩ := touchMoved_touches touched
          · obtain ⟨_, -, same⟩ := List.mem_map.mp touch
            exact nomatch same
          · exact absurd touch List.not_mem_nil
      | false =>
          obtain rfl := Option.some.inj touched
          exact absurd touch List.not_mem_nil
  · obtain ⟨_, -, same⟩ := List.mem_map.mp setting
    exact nomatch same

theorem settleSurvivors_touches : ∀ w ∈ d.settleSurvivors organization target surviving,
    Touches d w ∧ ∀ s, w ≠ .silicon s := by
  intro w mem
  rcases List.mem_append.mp mem with revoked | touched
  · obtain ⟨g, -, rfl⟩ := List.mem_map.mp revoked
    exact ⟨trivial, fun _ same => nomatch same⟩
  · refine ⟨touches_touchMemberships w touched, fun s same => ?_⟩
    obtain ⟨m, -, rfl⟩ := List.mem_map.mp touched
    exact nomatch same

/-- Two directories with the same memberships, for writes that touch no Silicon. -/
theorem Touches.of_memberships {x : Directory} {w : Write} (touches : Touches d w)
    (other : ∀ s, w ≠ .silicon s) (same : x.memberships = d.memberships) : Touches x w := by
  cases w with
  | silicon s => exact absurd rfl (other s)
  | membership row =>
      obtain ⟨old, mem, standing⟩ := touches
      exact ⟨old, same ▸ mem, standing⟩
  | _ => trivial

theorem kept_removeSilicon {seat : Membership} {first : List Write} (inv : Inv d)
    (hierarchy : .hierarchy organization ∈ held) (other : reassign ≠ some target)
    (mem : s ∈ d.silicons) (at_ : s.membership = target)
    (removed : d.removeSilicon organization target expected reassign surviving s = some first)
    {version : Nat}
    (left : (d.applyAll (first ++ d.settleSurvivors organization target surviving)).removeMembership
      organization target version = some seat)
    (locked : ∀ w ∈ first ++ d.settleSurvivors organization target surviving ++ [.membership seat],
      ∀ k ∈ w.locks, k ∈ held) :
    Kept d held (first ++ d.settleSurvivors organization target surviving ++ [.membership seat]) := by
  obtain ⟨links, row, -, -, detached, deleted, rfl⟩ := removeSilicon_spec removed
  let settle := Write.principal ⟨s.id, .silicon, false⟩ ::
    d.settleSurvivors organization target surviving
  have noSilicon : ∀ b, .silicon b ∉ settle := by
    intro b listed
    rcases List.mem_cons.mp listed with same | listed
    · exact nomatch same
    · exact (settleSurvivors_touches _ listed).2 b rfl
  have whole : links ++ [.silicon row, .principal ⟨s.id, .silicon, false⟩] ++
      d.settleSurvivors organization target surviving ++ [.membership seat] =
      links ++ (.silicon row :: settle ++ [.membership seat]) := by simp [settle]
  rw [whole] at locked ⊢
  have linked : Kept d held links :=
    kept_detach inv hierarchy (fun w mem => locked w (List.mem_append_left _ mem)) detached
  refine linked.append (fun _ lock => lock) ?_
  -- The Silicon row may as well be written last but one.
  refine Kept.congr (settle ++ [.silicon row, .membership seat]) ?_ ?_ ?_
  · have settled : Kept (d.applyAll links) held settle := by
      refine .touches linked.tree (fun w mem => locked w ?_) fun w mem => ?_
      · exact List.mem_append_right _ (List.mem_append_left _ (List.mem_cons_of_mem _ mem))
      · rcases List.mem_cons.mp mem with rfl | listed
        · trivial
        · obtain ⟨touches, noneSilicon⟩ := settleSurvivors_touches _ listed
          exact touches.of_memberships noneSilicon
            (applyAll_memberships_of_none (detach_memberships detached))
    refine settled.append (fun _ lock => lock) ?_
    have silicons : ((d.applyAll links).applyAll settle).silicons = (d.applyAll links).silicons :=
      applyAll_silicons_of_none noSilicon
    obtain ⟨gone, goneMem, here, same, -, live, rfl⟩ := deleteSilicon_spec deleted
    obtain ⟨m, found, -, -, rfl⟩ := removeMembership_spec left
    have memberships : (d.applyAll (links ++
        [.silicon { gone with status := .deleted, version := gone.version + 1 },
          .principal ⟨s.id, .silicon, false⟩] ++
        d.settleSurvivors organization target surviving)).memberships =
        ((d.applyAll links).applyAll settle).memberships := by
      rw [List.append_assoc, applyAll_append, List.cons_append, List.cons_append, List.nil_append,
        applyAll_cons, applyAll_silicon_comm noSilicon]
      rfl
    obtain ⟨mMem, mHere, mAt⟩ := Directory.membership?_spec found
    rw [memberships] at mMem
    obtain ⟨row', rowMem, rowId, -, rowAt⟩ := linked.extends_.silicons s mem
    obtain rfl := Table.unique rowMem goneMem (rowId.trans same.symm)
    have goneAt : row'.membership = target := rowAt.trans at_
    have goneMem' : row' ∈ ((d.applyAll links).applyAll settle).silicons := silicons ▸ goneMem
    obtain ⟨n, nMem, seats, -⟩ := (settled.tree organization).seat row' goneMem' here
    obtain rfl := Table.unique mMem nMem (mAt.trans (goneAt.symm.trans seats.id.symm))
    refine .retire settled.tree ⟨seats, rfl, rfl, rfl, rfl, rfl, ⟨rfl, rfl, rfl, rfl⟩, rfl⟩ goneMem'
      mMem ?_ ?_ (here ▸ hierarchy) fun b bMem bHere bLive => ?_
    · exact locked _ (List.mem_append_right _ (List.mem_append_left _ List.mem_cons_self)) _
        List.mem_cons_self
    · exact locked _ (List.mem_append_right _ (List.mem_append_right _ (List.mem_singleton.mpr rfl))) _
        List.mem_cons_self
    · rw [goneAt]
      exact detach_unmanaged other detached b (silicons ▸ bMem) (bHere.trans here) bLive
  · rw [List.cons_append, applyAll_cons, applyAll_append, applyAll_silicon_comm noSilicon,
      applyAll_append, applyAll_cons]
    rfl
  · intro w mem
    simp only [List.cons_append, List.mem_cons, List.mem_append, List.not_mem_nil, or_false] at mem ⊢
    tauto

end Leaving

/-! ## Every request -/

theorem removalLocks_hierarchy {scope : RemovalScope} {m : Membership}
    (within : d.removalScope organization target reassign = some scope)
    (found : d.membership? organization target = some m) (kind : m.kind = .silicon) :
    .hierarchy organization ∈ d.removalLocks organization target reassign := by
  rw [Directory.removalLocks, within, found]
  simp [kind]

theorem kept_removeOrganizationMembership {expected : Nat} {silicon : Option Nat} (inv : Inv d)
    (taken : ∀ k ∈ d.removalLocks organization target reassign, k ∈ held)
    (locked : ∀ w ∈ ws, ∀ k ∈ w.locks, k ∈ held)
    (done : d.removeOrganizationMembership organization target expected silicon reassign = some ws) :
    Kept d held ws := by
  obtain ⟨scope, m, first, row, within, found, -, part, removed, rfl⟩ :=
    removeOrganizationMembership_spec done
  cases part with
  | carbon kind unset =>
      have settled : Kept d held (d.settleSurvivors organization target
          (scope.memberships.filter fun id => id != target)) :=
        .touches inv (fun w mem => locked w (List.mem_append_left _ mem))
          fun w mem => (settleSurvivors_touches w mem).1
      refine settled.append (fun _ lock => lock) (.touches settled.tree
        (fun w mem => locked w (List.mem_append_right _ mem)) fun w mem => ?_)
      rw [List.mem_singleton.mp mem]
      obtain ⟨left, leftFound, -, -, rfl⟩ := removeMembership_spec removed
      obtain ⟨leftMem, -, leftId⟩ := Directory.membership?_spec leftFound
      obtain ⟨mMem, -, mId⟩ := Directory.membership?_spec found
      obtain ⟨later, laterMem, sameId, -, -, sameKind⟩ := settled.extends_.memberships m mMem
      obtain rfl := Table.unique leftMem laterMem (leftId.trans (mId.symm.trans sameId.symm))
      refine ⟨left, leftMem, rfl, rfl, rfl, rfl, fun silicon => ?_⟩
      rw [sameKind, kind] at silicon
      exact nomatch silicon
  | silicon kind mem here at_ principal live removedSilicon =>
      exact kept_removeSilicon inv (taken _ (removalLocks_hierarchy within found kind))
        (removalScope_spec within found kind).1 mem at_ removedSilicon removed locked

namespace Removal

variable (r : Removal)

theorem keeps_lockScope : r.lockScope.Keeps need := by
  refine keeps_touches fun memory d left ws ran w mem => ?_
  obtain ⟨scope, -, same⟩ := Option.map_eq_some_iff.mp ran
  obtain ⟨-, rfl⟩ := Prod.mk.inj same
  exact absurd mem List.not_mem_nil

theorem keeps_execute (silicon : Bool) : (r.execute silicon).Keeps need := by
  refine keeps_command fun memory d left ws held inv _ taken locked ran => ?_
  obtain ⟨ws', done, same⟩ := Option.map_eq_some_iff.mp ran
  obtain ⟨-, rfl⟩ := Prod.mk.inj same
  exact kept_removeOrganizationMembership inv taken locked done

theorem keeps_record {aggregateType : AggregateType} {aggregate : Memory → Nat} {eventType : String} :
    (record aggregateType aggregate eventType).Keeps need := by
  refine keeps_touches fun memory d left ws ran w mem => ?_
  obtain ⟨-, rfl⟩ := Prod.mk.inj (Option.some.inj ran)
  rw [List.mem_singleton.mp mem]
  trivial

theorem keeps_recordSurvivors : r.recordSurvivors.Keeps need := by
  refine keeps_touches fun memory d left ws ran w mem => ?_
  obtain ⟨members, -, ran⟩ := Option.bind_eq_some_iff.mp ran
  split at ran
  · obtain ⟨-, rfl⟩ := Prod.mk.inj (Option.some.inj ran)
    obtain ⟨_, -, rfl⟩ := List.mem_map.mp mem
    trivial
  · exact absurd ran (by simp)

theorem safe_removeSilicon (silicon : Nat) : Safe Inv Kept need (r.removeSilicon silicon) := by
  refine .of_forall fun s mem => ?_
  simp only [removeSilicon, List.mem_cons, List.not_mem_nil, or_false] at mem
  rcases mem with rfl | rfl | rfl | rfl | rfl | rfl | rfl | rfl
  · exact keeps_query _
  · exact keeps_query _
  · exact keeps_query _
  · exact r.keeps_lockScope
  · exact keeps_query _
  · exact r.keeps_execute true
  · exact keeps_record
  · exact r.keeps_recordSurvivors

theorem safe_removeMember (membership : Nat) : Safe Inv Kept need (r.removeMember membership) := by
  refine .of_forall fun s mem => ?_
  simp only [removeMember, List.mem_cons, List.not_mem_nil, or_false] at mem
  rcases mem with rfl | rfl | rfl | rfl | rfl | rfl | rfl
  · exact keeps_query _
  · exact keeps_query _
  · exact r.keeps_lockScope
  · exact keeps_query _
  · exact r.keeps_execute false
  · exact keeps_record
  · exact r.keeps_recordSurvivors

end Removal

theorem safe_program (request : Request) : Safe Inv Kept [] (program request) := by
  cases request with
  | createSilicon r => exact safe_createSilicon r
  | updateSilicon r => exact safe_updateSilicon r
  | updateSiliconMember r => exact safe_siliconBranch r
  | updateCarbonMember r => exact safe_carbonBranch r
  | removeSilicon silicon r => exact r.safe_removeSilicon silicon
  | removeMember membership r => exact r.safe_removeMember membership

theorem outline : Outline engine Inv (Discipline.At Inv Kept) := discipline.outline safe_program

end SiliconIam.Organizations.Hierarchy
