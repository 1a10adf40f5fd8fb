/-
# Applications.ManagementRuns -- the outline of the management requests

One lemma a statement: `Facts.locked`, `Facts.looked`, `Facts.inserted` and
`Facts.finished` move a claim on, `Reads.read` and `Reads.accept` say what the
statements between them have found.  With `At.stable` they make the `outline`, so every
state of every run is `Sound`.

`Advances` relates the ends of a run: no application is lost and no revision of a
configuration decreases.
-/
import SiliconIam.Applications.ManagementOutline

namespace SiliconIam.Applications.Honeycomb

open SiliconIam.Theory SiliconIam.Theory.Transactions

set_option autoImplicit false

section Execution

variable {platform : Platform} {db : Db} {t u : Transaction} {ticket : Ticket}

/-! ## What is known, after more locks -/

variable {held : List Lock} {row : StoredOperation}

theorem Owned.mono {more : List Lock} {base : List Write}
    (owned : Owned db ticket held row base) (grown : ∀ l ∈ held, l ∈ more) :
    Owned db ticket more row base := by
  cases owned with
  | found mem named binding unfinished locked =>
      exact .found mem named binding unfinished (grown _ locked)
  | inserted same unclaimed locked key index =>
      exact .inserted same unclaimed (grown _ locked) (grown _ key) (grown _ index)

theorem Entered.mono {more : List Lock}
    (entered : Entered db held row) (grown : ∀ l ∈ held, l ∈ more) : Entered db more row :=
  entered.imp id fun outside => ⟨grown _ outside.1, outside.2⟩

variable {input : ActivationRequest}

theorem Accepted.mono {more : List Lock} {binding : Binding}
    (accepted : Accepted platform db held binding input) (grown : ∀ l ∈ held, l ∈ more) :
    Accepted platform db more binding input :=
  ⟨grown _ accepted.locked, accepted.current, accepted.pending⟩

/-- A statement that moves no claim and writes nothing. -/
theorem Facts.kept (facts : Facts platform db ticket t) (claim : u.memory.claim = t.memory.claim)
    (pending : u.pending = t.pending) (grown : ∀ l ∈ t.held, l ∈ u.held) :
    Facts platform db ticket u := by
  cases facts with
  | unclaimed at_ none => exact .unclaimed (claim.trans at_) (pending.trans none)
  | locked at_ none key => exact .locked (claim.trans at_) (pending.trans none) (grown _ key)
  | missing at_ none key absent =>
      exact .missing (claim.trans at_) (pending.trans none) (grown _ key) absent
  | conflict at_ none key apart =>
      exact .conflict (claim.trans at_) (pending.trans none) (grown _ key) apart
  | replay row response at_ none mem locked completed named binding replay =>
      exact .replay row response (claim.trans at_) (pending.trans none) mem (grown _ locked)
        completed named binding replay
  | acquired row at_ owned =>
      exact .acquired row (claim.trans at_) (pending ▸ owned.mono grown)
  | refused at_ written key apart =>
      exact .refused (claim.trans at_) (pending.trans written) (grown _ key) apart
  | replayed row response at_ written mem locked completed named binding replay =>
      exact .replayed row response (claim.trans at_) (pending.trans written) mem (grown _ locked)
        completed named binding replay
  | worked row base view work at_ owned proper entered locked written =>
      exact .worked row base view work (claim.trans at_) (owned.mono grown) proper
        (entered.mono grown) (fun l mem => grown _ (locked l mem)) (pending.trans written)

variable {target : Nat}

theorem Reads.kept (reads : Reads platform db ticket target t)
    (application : u.memory.application = t.memory.application)
    (accepted : u.memory.accepted = t.memory.accepted) (request : u.request = t.request)
    (grown : ∀ l ∈ t.held, l ∈ u.held) : Reads platform db ticket target u where
  application := by
    intro a found
    obtain ⟨named, mem, locked⟩ := reads.application a (application ▸ found)
    exact ⟨named, mem, grown _ locked⟩
  accepted := by
    intro checked
    obtain ⟨call, input, applied, same, holds⟩ := reads.accepted (accepted ▸ checked)
    exact ⟨call, input, applied, request.trans same, holds.mono grown⟩

/-! ## The statements of a claim -/

/-- What each decided claim rules out. -/
theorem Facts.owned (facts : Facts platform db ticket t)
    (claim : t.memory.claim = .acquired row) : Owned db ticket t.held row t.pending := by
  cases facts with
  | acquired other same owned =>
      obtain rfl := Claim.acquired.inj (claim.symm.trans same)
      exact owned
  | _ => simp_all

variable {rest : List Statement} {memory : Memory} {writes : List Write}

theorem Facts.lockKey (facts : Facts platform db ticket t)
    (done : (lockKey ticket).effect t.xid t.memory ((engine platform).view db t.pending) =
      some (memory, writes)) :
    Facts platform db ticket (t.advance rest memory writes
      ((lockKey ticket).locks t.memory ((engine platform).view db t.pending))) := by
  simp only [Honeycomb.lockKey] at done
  split at done
  · obtain ⟨rfl, rfl⟩ := Prod.mk.inj (Option.some.inj done)
    have pending : t.pending = [] := by cases facts <;> simp_all
    refine .locked rfl ?_ List.mem_cons_self
    rw [Transaction.advance, pending]
    rfl
  · cases done

theorem mem_matching : row ∈ matching db ticket ↔
    row ∈ db.operations ∧ row.binding.actor = ticket.binding.actor ∧
      row.binding.service = ticket.binding.service ∧
      (row.id = ticket.operation ∨
        row.binding.idempotencyDigest = ticket.binding.idempotencyDigest) := by
  rw [matching, List.mem_filter, decide_eq_true_eq, Table.mem_rows]

theorem Facts.lookup (sound : Sound platform db) (facts : Facts platform db ticket t)
    (done : (lookup ticket).effect t.xid t.memory ((engine platform).view db t.pending) =
      some (memory, writes)) :
    Facts platform db ticket (t.advance rest memory writes
      ((lookup ticket).locks t.memory ((engine platform).view db t.pending))) := by
  simp only [Honeycomb.lookup] at done
  split at done
  case h_2 => cases done
  obtain ⟨decided, found, same⟩ := Option.map_eq_some_iff.mp done
  obtain ⟨rfl, rfl⟩ := Prod.mk.inj same
  have known : t.pending = [] ∧
      .key ticket.binding.service ticket.binding.idempotencyDigest ∈ t.held := by
    cases facts <;> simp_all
  obtain ⟨pending, key⟩ := known
  have view : (engine platform).view db t.pending = db := by rw [pending]; rfl
  have left : (t.advance rest { t.memory with claim := decided } []
      ((Honeycomb.lookup ticket).locks t.memory ((engine platform).view db t.pending))).pending = [] := by
    rw [Transaction.advance, pending]
    rfl
  have taken : ∀ row ∈ matching db ticket, .operation row.id ∈
      (t.advance rest { t.memory with claim := decided } [] ((Honeycomb.lookup ticket).locks t.memory
        ((engine platform).view db t.pending))).held := by
    intro row mem
    refine List.mem_append_left _ (List.mem_map.mpr ⟨row, ?_, rfl⟩)
    rw [view]
    exact mem
  rw [view] at found
  cases rows : matching db ticket with
  | nil =>
      rw [rows] at found
      obtain rfl := Option.some.inj found
      refine .missing rfl left (List.mem_append_right _ key) fun other mem service digest actor => ?_
      have listed := mem_matching.mpr ⟨mem, actor, service, .inr digest⟩
      rw [rows] at listed
      exact List.not_mem_nil listed
  | cons row others =>
      have listed : row ∈ matching db ticket := by rw [rows]; exact List.mem_cons_self
      have locked := taken row listed
      obtain ⟨mem, actor, service, reached⟩ := mem_matching.mp listed
      rw [rows, classify] at found
      split at found
      · rename_i differs
        obtain rfl := Option.some.inj found
        refine .conflict rfl left (List.mem_append_right _ key) fun other otherMem named binding => ?_
        -- An exact match is the row that was found: by its id, or by its key and actor.
        have same : row = other := by
          rcases reached with id | digest
          · exact Table.unique mem otherMem (id.trans named.symm)
          · refine sound.keyed row mem other otherMem ?_
            rw [SameKey, binding]
            exact ⟨service, digest, .inl actor⟩
        subst same
        exact differs.elim (absurd named) (absurd binding)
      · rename_i same
        obtain ⟨named, binding⟩ := not_or.mp same
        split at found
        · rename_i completed
          obtain ⟨response, replay, rfl⟩ := Option.map_eq_some_iff.mp found
          exact .replay row response rfl left mem locked completed (not_not.mp named)
            (not_not.mp binding) replay
        · rename_i unfinished
          obtain rfl := Option.some.inj found
          refine .acquired row rfl ?_
          rw [left]
          exact .found mem (not_not.mp named) (not_not.mp binding) (by simpa using unfinished) locked

/-- The insert is refused, or it has found the id and the key free. -/
theorem insertClaim_cases (absent : ∀ other ∈ db.operations,
      other.binding.service = ticket.binding.service →
      other.binding.idempotencyDigest = ticket.binding.idempotencyDigest →
      other.binding.actor ≠ ticket.binding.actor) :
    insertClaim db ticket = .conflict ∨
      insertClaim db ticket = .acquired ticket.fresh ∧ Unclaimed db ticket := by
  unfold insertClaim
  split
  · exact .inl rfl
  · rename_i free
    rw [Bool.or_eq_true, not_or] at free
    have fresh : ∀ other ∈ db.operations, other.id ≠ ticket.operation := by
      intro other mem same
      exact free.1 (Table.any_eq_true.mpr ⟨other, mem, decide_eq_true same⟩)
    refine .inr ⟨rfl, fresh, ?_⟩
    rintro other mem ⟨service, digest, actor | environment⟩
    · exact absent other mem service digest actor
    · refine free.2 (Table.any_eq_true.mpr ⟨other, mem, decide_eq_true ?_⟩)
      exact ⟨fresh other mem, service, environment, digest⟩

theorem Facts.insertOperation (facts : Facts platform db ticket t)
    (done : (insertOperation ticket).effect t.xid t.memory ((engine platform).view db t.pending) =
      some (memory, writes)) :
    Facts platform db ticket (t.advance rest memory writes
      ((insertOperation ticket).locks t.memory ((engine platform).view db t.pending))) := by
  simp only [Honeycomb.insertOperation] at done ⊢
  split at done
  · have known : t.pending = [] ∧
        .key ticket.binding.service ticket.binding.idempotencyDigest ∈ t.held ∧
        ∀ other ∈ db.operations, other.binding.service = ticket.binding.service →
          other.binding.idempotencyDigest = ticket.binding.idempotencyDigest →
          other.binding.actor ≠ ticket.binding.actor := by
      cases facts <;> simp_all
    obtain ⟨pending, key, absent⟩ := known
    have view : (engine platform).view db t.pending = db := by rw [pending]; rfl
    rw [view] at done
    rcases insertClaim_cases absent with refused | ⟨inserted, unclaimed⟩
    · rw [refused] at done
      obtain ⟨rfl, rfl⟩ := Prod.mk.inj (Option.some.inj done)
      refine .conflict rfl ?_ (List.mem_append_right _ key) fun row mem _ binding => ?_
      · rw [Transaction.advance, pending]
        rfl
      · exact absent row mem (by rw [binding]) (by rw [binding]) (by rw [binding])
    · rw [inserted] at done
      obtain ⟨rfl, rfl⟩ := Prod.mk.inj (Option.some.inj done)
      refine .acquired ticket.fresh rfl ?_
      rw [Transaction.advance, pending]
      exact .inserted rfl unclaimed List.mem_cons_self (List.mem_append_right _ key) (by simp)
  · obtain ⟨rfl, rfl⟩ := Prod.mk.inj (Option.some.inj done)
    exact facts.kept rfl (List.append_nil _) fun l mem => List.mem_append_right _ mem

/-! ## The statements that read -/

/-- A transaction that owns its row has written at most that row. -/
theorem Owned.base {base : List Write}
    (owned : Owned db ticket held row base) : Base db ((engine platform).view db base) row := by
  cases owned with
  | found mem => exact ⟨mem, fun a old _ => old, rfl⟩
  | inserted =>
      refine ⟨Table.mem_upsert.mpr (.inl rfl), fun a mem differs => ?_, rfl⟩
      rcases Table.mem_upsert.mp mem with rfl | ⟨old, -⟩
      · exact absurd rfl differs
      · exact old

theorem currentApplication_spec {organization : Option Nat} {a : ManagedApplication}
    (found : currentApplication db target organization = some a) :
    a ∈ db.applications ∧ a.id = target := by
  obtain ⟨mem, holds⟩ := Table.find?_spec found
  exact ⟨mem, (of_decide_eq_true holds).1⟩

theorem readApplication_spec {organization : Option Nat} {xid : Nat} {m : Memory} {view : Db}
    (done : (readApplication target organization).effect xid m view = some (memory, writes)) :
    writes = [] ∧ memory.claim = m.claim ∧ memory.accepted = m.accepted ∧
      (memory.application = m.application ∨ ∃ row, m.claim = .acquired row ∧
        memory.application = currentApplication view target organization) := by
  simp only [readApplication] at done
  split at done
  · rename_i row claim
    obtain ⟨rfl, rfl⟩ := Prod.mk.inj (Option.some.inj done)
    exact ⟨rfl, rfl, rfl, .inr ⟨row, claim, rfl⟩⟩
  · obtain ⟨rfl, rfl⟩ := Prod.mk.inj (Option.some.inj done)
    exact ⟨rfl, rfl, rfl, .inl rfl⟩

theorem Reads.readApplication {organization : Option Nat}
    (reads : Reads platform db ticket target t) (facts : Facts platform db ticket t)
    (done : (readApplication target organization).effect t.xid t.memory
      ((engine platform).view db t.pending) = some (memory, writes)) :
    Reads platform db ticket target (t.advance rest memory writes
      ((Honeycomb.readApplication target organization).locks t.memory
        ((engine platform).view db t.pending))) := by
  have grown : ∀ locks : List Lock, ∀ l ∈ t.held, l ∈ locks ++ t.held :=
    fun _ l mem => List.mem_append_right _ mem
  obtain ⟨rfl, -, accepted, same | ⟨row, claim, read⟩⟩ := readApplication_spec done
  · exact reads.kept same accepted rfl (grown _)
  · refine ⟨fun a found => ?_, fun checked => ?_⟩
    · have found : currentApplication ((engine platform).view db t.pending) target organization =
          some a := read.symm.trans found
      obtain ⟨mem, named⟩ := currentApplication_spec found
      rw [(facts.owned claim).base.applications] at mem
      refine ⟨named, mem, List.mem_append_left _ ?_⟩
      simp only [Honeycomb.readApplication, claim, found]
      exact List.mem_singleton_self _
    · obtain ⟨call, input, applied, request, holds⟩ := reads.accepted (accepted ▸ checked)
      exact ⟨call, input, applied, request, holds.mono (grown _)⟩

theorem accept_spec {xid : Nat}
    {m : Memory} {view : Db}
    (done : (accept platform ticket input).effect xid m view = some (memory, writes)) :
    writes = [] ∧ memory.claim = m.claim ∧ memory.application = m.application ∧
      (memory.accepted = m.accepted ∨ ∃ row app, m.claim = .acquired row ∧
        m.application = some app ∧ acceptable platform ticket.binding input view app) := by
  simp only [accept] at done
  split at done
  · rename_i row app claim found
    split at done
    · rename_i holds
      obtain ⟨rfl, rfl⟩ := Prod.mk.inj (Option.some.inj done)
      exact ⟨rfl, rfl, rfl, .inr ⟨row, app, claim, found, holds⟩⟩
    · cases done
  · cases done
  · obtain ⟨rfl, rfl⟩ := Prod.mk.inj (Option.some.inj done)
    exact ⟨rfl, rfl, rfl, .inl rfl⟩

/-- What an activation has checked, seen from the committed rows: its own row, and every
open -/
theorem Owned.accepted {base : List Write} {app : ManagedApplication} (sound : Sound platform db)
    (owned : Owned db ticket held row base) (mem : app ∈ db.applications)
    (locked : .application app.id ∈ held)
    (holds : acceptable platform ticket.binding input ((engine platform).view db base) app) :
    Accepted platform db held ticket.binding input := by
  obtain ⟨-, -, named, -, -, -, current, -, -, listed⟩ := holds
  refine ⟨named ▸ locked, fun a aMem same => ?_, fun id pending => ?_⟩
  · obtain rfl := Table.unique aMem mem (same.trans named.symm)
    exact Nat.le_of_not_lt fun older => current (.inl older)
  · obtain ⟨waiting, waitingMem, found⟩ := Table.any_eq_true.mp (listed id pending)
    obtain ⟨same, asked, digest⟩ := of_decide_eq_true found
    have answered : waiting.result ≠ [] := by
      intro nothing
      rw [nothing] at digest
      cases digest
    have old : waiting ∈ db.operations := by
      rcases of_mem_operations _ waitingMem with written | ⟨old, -⟩
      · obtain rfl := owned.mem_base written
        cases owned with
        | found rowMem => exact rowMem
        | inserted fresh =>
            subst fresh
            exact absurd rfl answered
      · exact old
    refine ⟨waiting, old, same, asked, digest, ?_⟩
    by_contra unfinished
    refine answered (sound.unfinished waiting old (by simpa using unfinished) ?_)
    rw [asked.2.2.2.1]
    rfl

theorem Reads.accept {call : Call} {applied : Applied}
    (sound : Sound platform db) (reads : Reads platform db ticket target t)
    (facts : Facts platform db ticket t) (request : t.request = .activate call input applied)
    (done : (accept platform ticket input).effect t.xid t.memory
      ((engine platform).view db t.pending) = some (memory, writes)) :
    Reads platform db ticket target (t.advance rest memory writes
      ((Honeycomb.accept platform ticket input).locks t.memory
        ((engine platform).view db t.pending))) := by
  have grown : ∀ locks : List Lock, ∀ l ∈ t.held, l ∈ locks ++ t.held :=
    fun _ l mem => List.mem_append_right _ mem
  obtain ⟨rfl, -, application, same | ⟨row, app, claim, found, holds⟩⟩ := accept_spec done
  · exact reads.kept application same rfl (grown _)
  · refine ⟨fun a read => ?_, fun _ => ?_⟩
    · obtain ⟨named, mem, locked⟩ := reads.application a (application.symm.trans read)
      exact ⟨named, mem, grown _ _ locked⟩
    · obtain ⟨-, mem, locked⟩ := reads.application app found
      have accepted := (facts.owned claim).accepted sound mem locked holds
      exact ⟨call, input, applied, request, accepted.mono (grown _)⟩

/-! ## The end of a transaction -/

variable {work : Memory → StoredOperation → Db → Option Work}

theorem finish_spec {xid : Nat} {m : Memory} {view : Db}
    (done : (finish ticket work).effect xid m view = some (memory, writes)) :
    memory.claim = .finished := by
  simp only [finish] at done
  split at done
  · obtain ⟨rfl, -⟩ := Prod.mk.inj (Option.some.inj done)
    rfl
  · obtain ⟨rfl, -⟩ := Prod.mk.inj (Option.some.inj done)
    rfl
  · split at done
    · cases done
    · split at done
      · cases done
      · obtain ⟨rfl, -⟩ := Prod.mk.inj (Option.some.inj done)
        rfl
  · cases done

/-- The environment of the work has the key to itself. -/
theorem Owned.entered {base : List Write} {work : Work}
    (owned : Owned db ticket held row base)
    (free : ¬ (row.environment ≠ row.binding.resource.environment &&
      indexTaken ((engine platform).view db base) row.id row.binding.service
        row.binding.resource.environment row.binding.idempotencyDigest) = true) :
    Entered db (work.locks row ++ held) row := by
  by_cases inside : row.environment = row.binding.resource.environment
  · exact .inl inside
  · refine .inr ⟨List.mem_append_left _ ?_, fun other mem differs service digest environment => ?_⟩
    · rw [Work.locks, if_neg inside]
      exact List.mem_append_right _ (List.mem_singleton_self _)
    · refine free ?_
      rw [Bool.and_eq_true]
      refine ⟨decide_eq_true inside, Table.any_eq_true.mpr ⟨other, ?_, decide_eq_true ?_⟩⟩
      · refine mem_operations _ mem fun written listed same => ?_
        rw [owned.mem_base listed] at same
        exact differs same.symm
      · exact ⟨differs, service, environment, digest⟩

theorem Facts.finish {permitted : Bool}
    {statements : List Statement}
    (claims : Claims platform t.request permitted ticket target statements work)
    (reads : Reads platform db ticket target t) (facts : Facts platform db ticket t)
    (done : (finish ticket work).effect t.xid t.memory ((engine platform).view db t.pending) =
      some (memory, writes)) :
    Facts platform db ticket (t.advance rest memory writes
      ((finish ticket work).locks t.memory ((engine platform).view db t.pending))) := by
  simp only [Honeycomb.finish] at done ⊢
  split at done
  · obtain ⟨rfl, rfl⟩ := Prod.mk.inj (Option.some.inj done)
    have known : t.pending = [] ∧
        .key ticket.binding.service ticket.binding.idempotencyDigest ∈ t.held ∧
        ∀ row ∈ db.operations, row.id = ticket.operation → row.binding ≠ ticket.binding := by
      cases facts <;> simp_all
    obtain ⟨pending, key, apart⟩ := known
    refine .refused rfl ?_ (List.mem_append_right _ key) apart
    rw [Transaction.advance, pending]
    rfl
  · rename_i row response claim
    obtain ⟨rfl, rfl⟩ := Prod.mk.inj (Option.some.inj done)
    cases facts with
    | replay other shown same pending mem locked completed named binding replay =>
        obtain ⟨rfl, rfl⟩ := Claim.replay.inj (claim.symm.trans same)
        refine .replayed row response rfl ?_ mem (List.mem_append_right _ locked) completed named
          binding replay
        rw [Transaction.advance, pending]
        rfl
    | _ => simp_all
  · rename_i row claim
    have owned := facts.owned claim
    split at done
    · cases done
    · rename_i result found
      split at done
      · cases done
      · rename_i free
        obtain ⟨rfl, rfl⟩ := Prod.mk.inj (Option.some.inj done)
        simp only [claim, found, Option.elim]
        have proper := claims.working db _ t.held t.memory row result owned.base owned.named
          owned.binding (fun a read => ⟨(reads.application a read).1, (reads.application a read).2.1⟩)
          reads.accepted found
        exact .worked row t.pending _ result rfl
          (owned.mono fun l mem => List.mem_append_right _ mem) proper (owned.entered free)
          (fun l mem => List.mem_append_left _ mem) rfl
  · cases done

/-! ## Every interleaving -/

/-- The statements of a request that claims its operation, and which of them is the last. -/
theorem mem_claimed {permitted : Bool} {statements : List Statement} {s : Statement}
    (suffix : s :: rest <:+ claimed permitted ticket statements work) :
    (s = authorize permitted ∨ s = lockKey ticket ∨ s = lookup ticket ∨ s = insertOperation ticket ∨
      s ∈ statements ∨ s = finish ticket work) ∧ (rest = [] → s = finish ticket work) := by
  refine ⟨?_, fun last => ?_⟩
  · have mem : s ∈ claimed permitted ticket statements work := suffix.subset List.mem_cons_self
    simpa [claimed, or_assoc] using mem
  · subst last
    obtain ⟨front, same⟩ := suffix
    exact (List.append_inj_right' same rfl |> List.singleton_inj.mp)

/-- A statement that leaves what was read of applications and plans. -/
def Quiet (s : Statement) : Prop :=
  ∀ xid m view memory writes, s.effect xid m view = some (memory, writes) →
    memory.application = m.application ∧ memory.accepted = m.accepted

theorem quiet_authorize (permitted : Bool) : Quiet (authorize permitted) := by
  intro xid m view memory writes done
  simp only [authorize] at done
  grind

theorem quiet_lockKey (ticket : Ticket) : Quiet (lockKey ticket) := by
  intro xid m view memory writes done
  simp only [lockKey] at done
  grind

theorem quiet_lookup (ticket : Ticket) : Quiet (lookup ticket) := by
  intro xid m view memory writes done
  simp only [lookup] at done
  split at done
  · obtain ⟨claim, -, same⟩ := Option.map_eq_some_iff.mp done
    obtain ⟨rfl, -⟩ := Prod.mk.inj same
    exact ⟨rfl, rfl⟩
  · cases done

theorem quiet_insertOperation (ticket : Ticket) : Quiet (insertOperation ticket) := by
  intro xid m view memory writes done
  simp only [insertOperation] at done
  grind

theorem quiet_finish (ticket : Ticket) (work : Memory → StoredOperation → Db → Option Work) :
    Quiet (finish ticket work) := by
  intro xid m view memory writes done
  simp only [finish] at done
  grind

theorem At.fresh (platform : Platform) (db : Db) (xid : Nat) (request : Request) :
    At platform db ((engine platform).fresh xid request) := by
  rcases claims platform request with ⟨row, rfl⟩ | ⟨permitted, ticket, target, statements, work, claims⟩
  · exact .writing row (.before rfl rfl)
  · refine .claimed permitted ticket target statements work claims List.suffix_rfl ?_ ⟨nofun, nofun⟩
      (.unclaimed rfl rfl)
    intro nothing
    have program : program platform request = [] := nothing
    rw [claims.program] at program
    exact absurd program (List.cons_ne_nil _ _)

/-- One statement of a transaction. -/
theorem At.execute (sound : Sound platform db) (at_ : At platform db t) {s : Statement} (next : t.rest = s :: rest)
    (done : s.effect t.xid t.memory ((engine platform).view db t.pending) = some (memory, writes)) :
    At platform db
      (t.advance rest memory writes (s.locks t.memory ((engine platform).view db t.pending))) := by
  cases at_ with
  | writing row writing =>
      cases writing with
      | after _ _ _ _ finished =>
          rw [finished] at next
          cases next
      | before only pending =>
          obtain ⟨rfl, rfl⟩ := List.cons.inj (next.symm.trans only)
          simp only [writeApplication] at done
          split at done
          · obtain ⟨rfl, rfl⟩ := Prod.mk.inj (Option.some.inj done)
            let kept := { row with
              configurationRevision := (db.applications.find? fun a => a.id = row.id).elim 0
                ManagedApplication.configurationRevision }
            refine .writing row (.after kept ?_ List.mem_cons_self (fun old mem named => ?_) rfl)
            · rw [Transaction.advance, pending]
              rfl
            · have found : (db.applications.find? fun a => a.id = row.id) = some old := by
                refine Table.find?_eq_some_of_key mem (decide_eq_true named) fun other _ holds => ?_
                exact (of_decide_eq_true holds).trans named.symm
              show old.configurationRevision ≤ Option.elim _ 0 ManagedApplication.configurationRevision
              rw [found]
              exact Nat.le_refl _
          · cases done
  | claimed permitted ticket target statements work claims suffix ending reads facts =>
      rw [next, claims.program] at suffix
      obtain ⟨cases, last⟩ := mem_claimed suffix
      have grown : ∀ locks : List Lock, ∀ l ∈ t.held, l ∈ locks ++ t.held :=
        fun _ l mem => List.mem_append_right _ mem
      have remaining : rest <:+ program platform t.request := by
        rw [claims.program]
        exact (List.suffix_cons s rest).trans suffix
      have ending : rest = [] → memory.claim = .finished := by
        intro nothing
        rw [last nothing] at done
        exact finish_spec done
      have quiet : Quiet s → Reads platform db ticket target (t.advance rest memory writes
          (s.locks t.memory ((engine platform).view db t.pending))) := by
        intro quiet
        obtain ⟨application, accepted⟩ := quiet _ _ _ _ _ done
        exact reads.kept application accepted rfl (grown _)
      have kept : writes = [] → memory.claim = t.memory.claim → Facts platform db ticket
          (t.advance rest memory writes
            (s.locks t.memory ((engine platform).view db t.pending))) := by
        rintro rfl claim
        exact facts.kept claim (List.append_nil _) (grown _)
      refine .claimed permitted ticket target statements work claims remaining ending ?_ ?_
      · rcases cases with rfl | rfl | rfl | rfl | listed | rfl
        · exact quiet (quiet_authorize permitted)
        · exact quiet (quiet_lockKey ticket)
        · exact quiet (quiet_lookup ticket)
        · exact quiet (quiet_insertOperation ticket)
        · rcases claims.reading s listed with ⟨organization, rfl⟩ | ⟨call, input, applied, request, rfl⟩
          · exact reads.readApplication facts done
          · exact reads.accept sound facts request done
        · exact quiet (quiet_finish ticket work)
      · rcases cases with rfl | rfl | rfl | rfl | listed | rfl
        · simp only [authorize] at done
          split at done
          · obtain ⟨rfl, rfl⟩ := Prod.mk.inj (Option.some.inj done)
            exact kept rfl rfl
          · cases done
        · exact facts.lockKey done
        · exact facts.lookup sound done
        · exact facts.insertOperation done
        · rcases claims.reading s listed with ⟨organization, rfl⟩ | ⟨call, input, applied, request, rfl⟩
          · obtain ⟨quietly, claim, -⟩ := readApplication_spec done
            exact kept quietly claim
          · obtain ⟨quietly, claim, -⟩ := accept_spec done
            exact kept quietly claim
        · exact facts.finish claims reads done

theorem Sound.applications (sound : Sound platform db) (applications : Table ManagedApplication.id) :
    Sound platform { db with applications := applications } :=
  { sound with }

/-- A commit. -/
theorem At.commit (sound : Sound platform db) (at_ : At platform db t) (done : t.rest = []) :
    Sound platform ((engine platform).view db t.pending) := by
  cases at_ with
  | writing row writing =>
      cases writing with
      | before rest =>
          rw [rest] at done
          exact absurd done (List.cons_ne_nil _ _)
      | after a pending =>
          rw [pending]
          exact sound.applications _
  | claimed permitted ticket target statements work claims suffix ending reads facts =>
      cases facts with
      | refused claim pending key apart =>
          rw [pending]
          exact sound.answer (sound.conflict apart)
            (by rintro (started | ⟨r, completed⟩) <;> simp_all [Ticket.receipt])
            (fun answered => absurd rfl answered)
      | replayed row response claim pending mem locked completed named binding replay =>
          rw [pending]
          exact sound.answer (sound.replay mem completed named binding replay)
            (by rintro (started | ⟨r, completed⟩) <;> simp_all [Ticket.receipt])
            (fun _ => ⟨row, mem, named, binding⟩)
      | worked row base view work claim owned proper entered locked pending =>
          rw [pending]
          exact sound.commit owned proper entered
      | _ => simp_all

theorem outline (platform : Platform) : Outline (engine platform) (Sound platform) (At platform) where
  fresh := fun db xid request _ => At.fresh platform db xid request
  execute := fun _ _ _ _ _ _ sound at_ next done => at_.execute sound next done
  commit := fun _ _ sound at_ done => at_.commit sound done
  stable := fun _ _ _ sound tAt uAt done compatible => At.stable sound tAt uAt done compatible

/-! ## Revisions -/

/-- No application is lost, and none has an older configuration. -/
def Advances (before after : Db) : Prop :=
  ∀ old ∈ before.applications, ∃ a ∈ after.applications, a.id = old.id ∧
    old.configurationRevision ≤ a.configurationRevision

theorem Advances.refl (db : Db) : Advances db db :=
  fun old mem => ⟨old, mem, rfl, Nat.le_refl _⟩

theorem Advances.trans {a b c : Db} (first : Advances a b) (later : Advances b c) :
    Advances a c := by
  intro old mem
  obtain ⟨middle, held, named, le⟩ := first old mem
  obtain ⟨last, lastMem, same, further⟩ := later middle held
  exact ⟨last, lastMem, same.trans named, le.trans further⟩

/-- The applications that a finished transaction has written have no older configuration. -/
theorem At.pending_application (at_ : At platform db t) (done : t.rest = []) {a old : ManagedApplication}
    (written : .application a ∈ t.pending) (mem : old ∈ db.applications) (same : old.id = a.id) :
    old.configurationRevision ≤ a.configurationRevision := by
  cases at_ with
  | writing row writing =>
      cases writing with
      | before rest =>
          rw [rest] at done
          exact absurd done (List.cons_ne_nil _ _)
      | after other pending _ kept =>
          rw [pending] at written
          obtain rfl : a = other := by simpa using written
          exact kept old mem same
  | claimed permitted ticket target statements work claims suffix ending reads facts =>
      cases facts with
      | refused claim pending => simp_all
      | replayed row response claim pending => simp_all
      | worked row base view work claim owned proper entered locked pending =>
          rw [pending] at written
          rcases List.mem_append.mp written with first | later
          · exact absurd first owned.base_application
          · exact proper.application a (Work.mem_writes_application.mp later) old mem same
      | _ => simp_all

theorem At.advances (at_ : At platform db t) (done : t.rest = []) :
    Advances db ((engine platform).view db t.pending) := by
  intro old mem
  have kept : Table.Kept db.applications ((engine platform).view db t.pending).applications :=
    kept_applications _
  obtain ⟨a, held, named⟩ := kept old mem
  refine ⟨a, held, named, ?_⟩
  rcases of_mem_applications _ held with written | kept
  · exact at_.pending_application done written mem named.symm
  · rw [Table.unique kept mem named]

abbrev World := Transactions.World Db Write Lock Memory Request

/-- Committed and open transactions of a world that a run can reach. -/
abbrev Reached (platform : Platform) (w : World) : Prop :=
  Outline.Sound (engine platform) (Sound platform) (At platform) w

theorem Reached.advances {w after : World} (reached : Reached platform w)
    {event : Event Request} (taken : (engine platform).Steps w event after) :
    Advances w.committed after.committed := by
  rcases committed_cases taken with same | ⟨t, mem, done, same⟩
  · rw [same]
    exact .refl _
  · rw [same]
    exact (reached.opened t mem).advances done

/-- Over every run. -/
theorem Reached.run_advances {w after : World} (reached : Reached platform w)
    {events : List (Event Request)} (run : Runs.Run (engine platform).Steps w events after) :
    Advances w.committed after.committed := by
  have keeps : ∀ v event u, Reached platform v ∧ Advances w.committed v.committed →
      (engine platform).Steps v event u → Reached platform u ∧ Advances w.committed u.committed := by
    intro v event u ⟨held, advanced⟩ taken
    exact ⟨(outline platform).sound_step held taken, advanced.trans (held.advances taken)⟩
  exact (run.invariant keeps ⟨reached, .refl _⟩).2

end Execution

end SiliconIam.Applications.Honeycomb
