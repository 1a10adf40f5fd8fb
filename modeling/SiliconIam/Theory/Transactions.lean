/-
# Theory.Transactions -- interleaved transactions over one committed database

A transaction works through a list of statements.  A statement sees the
committed database with the transaction's own pending writes on top (its view).
It waits while a lock it takes is excluded by a lock of another open
transaction; then it adds its writes, or it fails and the transaction is rolled
back.  Locks are held until the transaction ends, and a commit applies the
pending writes.  Nothing else orders the statements of different transactions, so
a statement sees whatever others have committed since the statement before it.

`Outline` is the rule for invariants: one assertion about every open transaction
that its own statements keep and that survives the commits of the others
(`Outline.stable`, where the two transactions' locks are known to be compatible).
`Outline.sound` carries it to every state of every run.  `Discipline` is the
outline of systems where the pending writes alone, under the locks held, say what
a transaction may do to the others.

`Engine.atomic` runs a request's statements with nothing in between;
`run_atomic` shows it to be a run of the interleaved system.
-/
import SiliconIam.Theory.Runs
import SiliconIam.Theory.Table

namespace SiliconIam.Theory.Transactions

set_option autoImplicit false

variable {Db Write Lock Memory Request : Type}

/-- What a statement reads beside the database is what earlier statements of its
transaction left in `Memory`; `effect` is also given the transaction's id. -/
structure Statement (Db Write Lock Memory : Type) where
  locks : Memory → Db → List Lock
  effect : Nat → Memory → Db → Option (Memory × List Write)

structure Engine (Db Write Lock Memory Request : Type) where
  apply : Db → Write → Db
  excludes : Lock → Lock → Bool
  symmetric : ∀ k l, excludes k l = excludes l k
  memory : Memory
  program : Request → List (Statement Db Write Lock Memory)

structure Transaction (Db Write Lock Memory Request : Type) where
  xid : Nat
  request : Request
  memory : Memory
  rest : List (Statement Db Write Lock Memory)
  pending : List Write
  held : List Lock

structure World (Db Write Lock Memory Request : Type) where
  committed : Db
  opened : Table (Transaction.xid : Transaction Db Write Lock Memory Request → Nat)
  next : Nat

inductive Event (Request : Type) where
  | start (request : Request)
  | execute (xid : Nat)
  | abort (xid : Nat)
  | commit (xid : Nat)
  deriving DecidableEq, Repr

namespace Transaction

/-- The transaction after a statement. -/
def advance (t : Transaction Db Write Lock Memory Request)
    (rest : List (Statement Db Write Lock Memory)) (memory : Memory) (writes : List Write)
    (locks : List Lock) : Transaction Db Write Lock Memory Request :=
  { t with rest := rest, memory := memory, pending := t.pending ++ writes, held := locks ++ t.held }

end Transaction

namespace World

def idle (db : Db) : World Db Write Lock Memory Request := ⟨db, .empty _, 0⟩

def find (w : World Db Write Lock Memory Request) (xid : Nat) :
    Option (Transaction Db Write Lock Memory Request) :=
  w.opened.find? fun t => t.xid == xid

/-- The world without an open transaction, its locks released. -/
def close (w : World Db Write Lock Memory Request) (xid : Nat) :
    World Db Write Lock Memory Request :=
  { w with opened := w.opened.restrict fun t => t.xid != xid }

/-- The world after a statement of `t`. -/
def advance (w : World Db Write Lock Memory Request)
    (t : Transaction Db Write Lock Memory Request) (rest : List (Statement Db Write Lock Memory))
    (memory : Memory) (writes : List Write) (locks : List Lock) :
    World Db Write Lock Memory Request :=
  { w with
    opened := w.opened.update (fun other => other.xid == t.xid)
      (fun other => other.advance rest memory writes locks) (fun _ => rfl) }

end World

namespace Engine

variable (engine : Engine Db Write Lock Memory Request)

def view (db : Db) (pending : List Write) : Db := pending.foldl engine.apply db

def fresh (xid : Nat) (request : Request) : Transaction Db Write Lock Memory Request :=
  ⟨xid, request, engine.memory, engine.program request, [], []⟩

/-- No other open transaction holds a lock that excludes one of `locks`. -/
def grants (w : World Db Write Lock Memory Request) (xid : Nat) (locks : List Lock) : Bool :=
  w.opened.all fun other =>
    other.xid == xid || locks.all fun k => other.held.all fun l => !engine.excludes k l

def execute (w : World Db Write Lock Memory Request)
    (t : Transaction Db Write Lock Memory Request) : Option (World Db Write Lock Memory Request) :=
  match t.rest with
  | [] => none
  | statement :: rest =>
      let view := engine.view w.committed t.pending
      let locks := statement.locks t.memory view
      if engine.grants w t.xid locks then
        match statement.effect t.xid t.memory view with
        | none => some (w.close t.xid)
        | some (memory, writes) => some (w.advance t rest memory writes locks)
      else none

def step (w : World Db Write Lock Memory Request) :
    Event Request → Option (World Db Write Lock Memory Request)
  | .start request =>
      (w.opened.insert (engine.fresh w.next request)).map fun opened =>
        { w with opened := opened, next := w.next + 1 }
  | .execute xid =>
      match w.find xid with
      | none => none
      | some t => engine.execute w t
  | .abort xid =>
      match w.find xid with
      | none => none
      | some _ => some (w.close xid)
  | .commit xid =>
      match w.find xid with
      | none => none
      | some t =>
          if t.rest.isEmpty then
            some { w.close xid with committed := engine.view w.committed t.pending }
          else none

def Steps (w : World Db Write Lock Memory Request) (event : Event Request)
    (after : World Db Write Lock Memory Request) : Prop :=
  engine.step w event = some after

/-- A whole list of events, none where one of them is not possible. -/
def play (w : World Db Write Lock Memory Request) :
    List (Event Request) → Option (World Db Write Lock Memory Request)
  | [] => some w
  | event :: rest =>
      match engine.step w event with
      | none => none
      | some after => play after rest

/-- The statements of a transaction with nothing in between. -/
def atomicFrom (xid : Nat) :
    List (Statement Db Write Lock Memory) → Memory → Db → Option Db
  | [], _, db => some db
  | statement :: rest, memory, db =>
      match statement.effect xid memory db with
      | none => none
      | some (memory, writes) => atomicFrom xid rest memory (engine.view db writes)

def atomic (xid : Nat) (request : Request) (db : Db) : Option Db :=
  engine.atomicFrom xid (engine.program request) engine.memory db

/-- The locks that statements run with nothing in between take before the first write. -/
def locksBeforeWrite (xid : Nat) : List (Statement Db Write Lock Memory) → Memory → Db → List Lock
  | [], _, _ => []
  | statement :: rest, memory, db =>
      match statement.effect xid memory db with
      | some (memory', []) => statement.locks memory db ++ locksBeforeWrite xid rest memory' db
      | _ => []

/-- Two transactions that can be open at one time. -/
def Compatible (t u : Transaction Db Write Lock Memory Request) : Prop :=
  ∀ k ∈ t.held, ∀ l ∈ u.held, engine.excludes k l = false

end Engine

variable {engine : Engine Db Write Lock Memory Request}
variable {w after : World Db Write Lock Memory Request}
variable {t u : Transaction Db Write Lock Memory Request}

namespace Engine

theorem view_nil (db : Db) : engine.view db [] = db := rfl

theorem view_append (db : Db) (first later : List Write) :
    engine.view db (first ++ later) = engine.view (engine.view db first) later :=
  List.foldl_append

theorem view_cons (db : Db) (write : Write) (later : List Write) :
    engine.view db (write :: later) = engine.view (engine.apply db write) later := rfl

/-- What each write of a list keeps, the view keeps. -/
theorem view_induction {P : Db → Prop} {db : Db} {writes : List Write} (start : P db)
    (keeps : ∀ db, ∀ write ∈ writes, P db → P (engine.apply db write)) :
    P (engine.view db writes) := by
  induction writes generalizing db with
  | nil => exact start
  | cons write rest ih =>
      refine ih (keeps db write List.mem_cons_self start) ?_
      intro db later mem
      exact keeps db later (List.mem_cons_of_mem write mem)

/-- What holds of a view was written there, or held before and every write left it. -/
theorem view_origin {P : Db → Prop} {Q R : Write → Prop} {db : Db} {writes : List Write}
    (step : ∀ db write, P (engine.apply db write) → Q write ∨ (P db ∧ R write))
    (holds : P (engine.view db writes)) :
    (∃ write ∈ writes, Q write) ∨ (P db ∧ ∀ write ∈ writes, R write) := by
  induction writes generalizing db with
  | nil => exact .inr ⟨holds, fun _ mem => absurd mem List.not_mem_nil⟩
  | cons write rest ih =>
      rcases ih holds with ⟨later, mem, wrote⟩ | ⟨held, left⟩
      · exact .inl ⟨later, List.mem_cons_of_mem _ mem, wrote⟩
      · rcases step db write held with wrote | ⟨before, leaves⟩
        · exact .inl ⟨write, List.mem_cons_self, wrote⟩
        · exact .inr ⟨before, List.forall_mem_cons.mpr ⟨leaves, left⟩⟩

/-- What applying one write to two databases keeps between them, views keep. -/
theorem view_related {R : Db → Db → Prop} {db other : Db} {writes : List Write} (start : R db other)
    (keeps : ∀ db other, ∀ write ∈ writes, R db other →
      R (engine.apply db write) (engine.apply other write)) :
    R (engine.view db writes) (engine.view other writes) := by
  induction writes generalizing db other with
  | nil => exact start
  | cons write rest ih =>
      refine ih (keeps db other write List.mem_cons_self start) ?_
      intro db other later mem
      exact keeps db other later (List.mem_cons_of_mem write mem)

theorem atomicFrom_cons {xid : Nat} {statement : Statement Db Write Lock Memory}
    {rest : List (Statement Db Write Lock Memory)} {memory : Memory} {db result : Db} :
    engine.atomicFrom xid (statement :: rest) memory db = some result ↔
      ∃ left writes, statement.effect xid memory db = some (left, writes) ∧
        engine.atomicFrom xid rest left (engine.view db writes) = some result := by
  rw [atomicFrom]
  cases effect : statement.effect xid memory db with
  | none => simp
  | some pair =>
      obtain ⟨left, writes⟩ := pair
      constructor
      · intro ran
        exact ⟨left, writes, rfl, ran⟩
      · rintro ⟨_, _, same, ran⟩
        obtain ⟨rfl, rfl⟩ := Prod.mk.inj (Option.some.inj same)
        exact ran

theorem locksBeforeWrite_cons {xid : Nat} {statement : Statement Db Write Lock Memory}
    {rest : List (Statement Db Write Lock Memory)} {memory left : Memory} {db : Db}
    (quiet : statement.effect xid memory db = some (left, [])) :
    locksBeforeWrite xid (statement :: rest) memory db =
      statement.locks memory db ++ locksBeforeWrite xid rest left db := by
  rw [locksBeforeWrite, quiet]

theorem Compatible.symm (compatible : engine.Compatible t u) : engine.Compatible u t :=
  fun l lHeld k kHeld => (engine.symmetric l k).trans (compatible k kHeld l lHeld)

/-- A lock that excludes itself is held by one of two compatible transactions at most. -/
theorem Compatible.excluded {k l : Lock} (compatible : engine.Compatible t u) (mine : k ∈ t.held)
    (excludes : engine.excludes k l = true) : l ∉ u.held := by
  intro held
  rw [compatible k mine l held] at excludes
  exact Bool.noConfusion excludes

theorem grants_spec {xid : Nat} {locks : List Lock} (granted : engine.grants w xid locks = true) :
    ∀ other ∈ w.opened, other.xid ≠ xid → ∀ k ∈ locks, ∀ l ∈ other.held,
      engine.excludes k l = false := by
  intro other mem apart k taken l held
  have checked := Table.all_spec.mp granted other mem
  rw [Bool.or_eq_true, List.all_eq_true] at checked
  rcases checked with same | checked
  · exact absurd (by simpa using same) apart
  · simpa using List.all_eq_true.mp (checked k taken) l held

end Engine

theorem World.find_spec {xid : Nat} (found : w.find xid = some t) : t ∈ w.opened ∧ t.xid = xid := by
  obtain ⟨mem, same⟩ := Table.find?_spec found
  exact ⟨mem, by simpa using same⟩

theorem World.mem_close {xid : Nat} : t ∈ (w.close xid).opened ↔ t ∈ w.opened ∧ t.xid ≠ xid := by
  rw [World.close, Table.mem_restrict, bne_iff_ne]

theorem World.mem_advance {rest : List (Statement Db Write Lock Memory)} {memory : Memory}
    {writes : List Write} {locks : List Lock} (mem : t ∈ w.opened) :
    u ∈ (w.advance t rest memory writes locks).opened ↔
      u = t.advance rest memory writes locks ∨ (u ∈ w.opened ∧ u.xid ≠ t.xid) := by
  have updated : Table.Updated (fun other => other.xid == t.xid)
      (fun other => other.advance rest memory writes locks) w.opened
      (w.advance t rest memory writes locks).opened := rfl
  constructor
  · intro moved
    obtain ⟨old, held, rfl⟩ := updated.mem.mp moved
    by_cases same : old.xid = t.xid
    · obtain rfl := Table.unique held mem same
      left
      rw [if_pos (by simp)]
    · right
      rw [if_neg (by simpa using same)]
      exact ⟨held, same⟩
  · rintro (rfl | ⟨held, differs⟩)
    · exact updated.mem.mpr ⟨t, mem, (if_pos (by simp)).symm⟩
    · exact updated.mem.mpr ⟨u, held, (if_neg (by simpa using differs)).symm⟩

/-- What a statement did: rolled the transaction back, or moved it on. -/
inductive Executed (engine : Engine Db Write Lock Memory Request)
    (w : World Db Write Lock Memory Request) (t : Transaction Db Write Lock Memory Request) :
    World Db Write Lock Memory Request → Prop
  | failed : Executed engine w t (w.close t.xid)
  | advanced (statement : Statement Db Write Lock Memory)
      (rest : List (Statement Db Write Lock Memory)) (memory : Memory) (writes : List Write)
      (next : t.rest = statement :: rest)
      (granted : engine.grants w t.xid
        (statement.locks t.memory (engine.view w.committed t.pending)) = true)
      (effect : statement.effect t.xid t.memory (engine.view w.committed t.pending) =
        some (memory, writes)) :
      Executed engine w t
        (w.advance t rest memory writes
          (statement.locks t.memory (engine.view w.committed t.pending)))

theorem execute_spec (executed : engine.execute w t = some after) : Executed engine w t after := by
  unfold Engine.execute at executed
  cases next : t.rest with
  | nil =>
      rw [next] at executed
      exact absurd executed (by simp)
  | cons statement rest =>
      rw [next] at executed
      dsimp only at executed
      obtain ⟨granted, executed⟩ := Option.ite_none_right_eq_some.mp executed
      cases effect : statement.effect t.xid t.memory (engine.view w.committed t.pending) with
      | none =>
          rw [effect] at executed
          obtain rfl := Option.some.inj executed
          exact .failed
      | some result =>
          obtain ⟨memory, writes⟩ := result
          rw [effect] at executed
          obtain rfl := Option.some.inj executed
          exact .advanced statement rest memory writes next granted effect

/-! ## Steps -/

theorem steps_execute {xid : Nat} (taken : engine.Steps w (.execute xid) after) :
    ∃ t ∈ w.opened, Executed engine w t after := by
  cases found : w.find xid with
  | none => simp [Engine.Steps, Engine.step, found] at taken
  | some t =>
      have executed : engine.execute w t = some after := by
        simpa [Engine.Steps, Engine.step, found] using taken
      exact ⟨t, (World.find_spec found).1, execute_spec executed⟩

theorem steps_abort {xid : Nat} (taken : engine.Steps w (.abort xid) after) :
    w.close xid = after := by
  cases found : w.find xid with
  | none => simp [Engine.Steps, Engine.step, found] at taken
  | some t => simpa [Engine.Steps, Engine.step, found] using taken

theorem steps_commit {xid : Nat} (taken : engine.Steps w (.commit xid) after) :
    ∃ t ∈ w.opened, t.xid = xid ∧ t.rest = [] ∧
      { w.close xid with committed := engine.view w.committed t.pending } = after := by
  cases found : w.find xid with
  | none => simp [Engine.Steps, Engine.step, found] at taken
  | some t =>
      obtain ⟨mem, same⟩ := World.find_spec found
      have finished : t.rest = [] ∧
          { w.close xid with committed := engine.view w.committed t.pending } = after := by
        simpa [Engine.Steps, Engine.step, found] using taken
      exact ⟨t, mem, same, finished⟩

/-! ## Proof outlines -/

/-- `Inv` holds of the committed database, `At` of every open transaction. -/
structure Outline (engine : Engine Db Write Lock Memory Request) (Inv : Db → Prop)
    (At : Db → Transaction Db Write Lock Memory Request → Prop) : Prop where
  fresh : ∀ db xid request, Inv db → At db (engine.fresh xid request)
  execute : ∀ db t statement rest memory writes, Inv db → At db t → t.rest = statement :: rest →
    statement.effect t.xid t.memory (engine.view db t.pending) = some (memory, writes) →
    At db (t.advance rest memory writes (statement.locks t.memory (engine.view db t.pending)))
  commit : ∀ db t, Inv db → At db t → t.rest = [] → Inv (engine.view db t.pending)
  stable : ∀ db t u, Inv db → At db t → At db u → u.rest = [] → engine.Compatible t u →
    At (engine.view db u.pending) t

structure Outline.Sound (engine : Engine Db Write Lock Memory Request) (Inv : Db → Prop)
    (At : Db → Transaction Db Write Lock Memory Request → Prop)
    (w : World Db Write Lock Memory Request) : Prop where
  committed : Inv w.committed
  opened : ∀ t ∈ w.opened, At w.committed t
  compatible : ∀ t ∈ w.opened, ∀ u ∈ w.opened, t.xid ≠ u.xid → engine.Compatible t u

namespace Outline

variable {Inv : Db → Prop} {At : Db → Transaction Db Write Lock Memory Request → Prop}

theorem sound_idle {db : Db} (start : Inv db) : Sound engine Inv At (World.idle db) where
  committed := start
  opened := fun _ mem => absurd mem Table.not_mem_empty
  compatible := fun _ mem => absurd mem Table.not_mem_empty

theorem Sound.close (sound : Sound engine Inv At w) (xid : Nat) :
    Sound engine Inv At (w.close xid) where
  committed := sound.committed
  opened := fun t mem => sound.opened t (World.mem_close.mp mem).1
  compatible := fun t tMem u uMem =>
    sound.compatible t (World.mem_close.mp tMem).1 u (World.mem_close.mp uMem).1

theorem Sound.executed (outline : Outline engine Inv At) (sound : Sound engine Inv At w)
    (mem : t ∈ w.opened) (executed : Executed engine w t after) : Sound engine Inv At after := by
  cases executed with
  | failed => exact sound.close t.xid
  | advanced statement rest memory writes next granted effect =>
      have moved := outline.execute w.committed t statement rest memory writes sound.committed
        (sound.opened t mem) next effect
      have apart : ∀ u ∈ w.opened, u.xid ≠ t.xid → engine.Compatible
          (t.advance rest memory writes
            (statement.locks t.memory (engine.view w.committed t.pending))) u := by
        intro u uMem differs k kHeld l lHeld
        rcases List.mem_append.mp kHeld with taken | earlier
        · exact Engine.grants_spec granted u uMem differs k taken l lHeld
        · exact sound.compatible t mem u uMem (Ne.symm differs) k earlier l lHeld
      -- The transactions afterwards are the one that moved and the others as they were.
      refine ⟨sound.committed, fun x xMem => ?_, fun x xMem y yMem differs => ?_⟩
      · rcases (World.mem_advance mem).mp xMem with rfl | ⟨held, -⟩
        · exact moved
        · exact sound.opened x held
      · rcases (World.mem_advance mem).mp xMem with rfl | ⟨xHeld, xApart⟩
        · rcases (World.mem_advance mem).mp yMem with rfl | ⟨yHeld, yApart⟩
          · exact absurd rfl differs
          · exact apart y yHeld yApart
        · rcases (World.mem_advance mem).mp yMem with rfl | ⟨yHeld, yApart⟩
          · exact (apart x xHeld xApart).symm
          · exact sound.compatible x xHeld y yHeld differs

/-- One event. -/
theorem sound_step (outline : Outline engine Inv At) {event : Event Request}
    (sound : Sound engine Inv At w) (taken : engine.Steps w event after) :
    Sound engine Inv At after := by
  cases event with
  | start request =>
      obtain ⟨opened, inserted, rfl⟩ := Option.map_eq_some_iff.mp taken
      obtain ⟨-, mem_iff⟩ := Table.insert_spec inserted
      refine ⟨sound.committed, fun t mem => ?_, fun t tMem u uMem differs => ?_⟩
      · rcases (mem_iff t).mp mem with rfl | held
        · exact outline.fresh w.committed w.next request sound.committed
        · exact sound.opened t held
      · rcases (mem_iff t).mp tMem with rfl | tHeld
        · intro k kHeld
          exact absurd kHeld List.not_mem_nil
        · rcases (mem_iff u).mp uMem with rfl | uHeld
          · intro k _ l lHeld
            exact absurd lHeld List.not_mem_nil
          · exact sound.compatible t tHeld u uHeld differs
  | execute xid =>
      obtain ⟨t, mem, executed⟩ := steps_execute taken
      exact sound.executed outline mem executed
  | abort xid => exact steps_abort taken ▸ sound.close xid
  | commit xid =>
      obtain ⟨u, uMem, rfl, done, rfl⟩ := steps_commit taken
      have uAt := sound.opened u uMem
      refine ⟨outline.commit w.committed u sound.committed uAt done, fun t mem => ?_,
        (sound.close u.xid).compatible⟩
      obtain ⟨held, differs⟩ := World.mem_close.mp mem
      exact outline.stable w.committed t u sound.committed (sound.opened t held) uAt done
        (sound.compatible t held u uMem differs)

/-- Every state of every run. -/
theorem sound (outline : Outline engine Inv At) {events : List (Event Request)}
    (run : Runs.Run engine.Steps w events after) (start : Sound engine Inv At w) :
    Sound engine Inv At after :=
  run.invariant (fun _ _ _ sound taken => outline.sound_step sound taken) start

end Outline

/-! ## Writes kept under locks -/

/-- `Kept db held writes`: a transaction that holds `held` may have `writes`
pending over `db`.  Statements are judged one at a time, over the view they see. -/
structure Discipline (engine : Engine Db Write Lock Memory Request) (Inv : Db → Prop)
    (Kept : Db → List Lock → List Write → Prop) : Prop where
  nil : ∀ db held, Inv db → Kept db held []
  append : ∀ db held more first later, Inv db → (∀ k ∈ held, k ∈ more) → Kept db held first →
    Kept (engine.view db first) more later → Kept db more (first ++ later)
  commit : ∀ db held writes, Inv db → Kept db held writes → Inv (engine.view db writes)
  stable : ∀ db held writes other committed, Inv db → Kept db held writes →
    Kept db other committed → (∀ k ∈ held, ∀ l ∈ other, engine.excludes k l = false) →
    Kept (engine.view db committed) held writes

/-- What the statement writes is kept under its own locks and the ones in `need`. -/
def Statement.Keeps (Inv : Db → Prop) (Kept : Db → List Lock → List Write → Prop)
    (need : List Lock) (s : Statement Db Write Lock Memory) : Prop :=
  ∀ xid memory db left writes held, Inv db → (∀ k ∈ need, k ∈ held) →
    (∀ k ∈ s.locks memory db, k ∈ held) → s.effect xid memory db = some (left, writes) →
    Kept db held writes

/-- Every statement keeps its writes under locks that those before it have taken. -/
inductive Safe (Inv : Db → Prop) (Kept : Db → List Lock → List Write → Prop) :
    List Lock → List (Statement Db Write Lock Memory) → Prop
  | nil (need : List Lock) : Safe Inv Kept need []
  | cons {need more : List Lock} {s : Statement Db Write Lock Memory}
      {rest : List (Statement Db Write Lock Memory)} (keeps : s.Keeps Inv Kept need)
      (taken : ∀ k ∈ more, k ∈ need ∨ ∀ memory db, k ∈ s.locks memory db)
      (remaining : Safe Inv Kept more rest) : Safe Inv Kept need (s :: rest)

section Safe

variable {Inv : Db → Prop} {Kept : Db → List Lock → List Write → Prop} {need : List Lock}
variable {s : Statement Db Write Lock Memory} {rest : List (Statement Db Write Lock Memory)}

theorem Safe.step (keeps : s.Keeps Inv Kept need) (remaining : Safe Inv Kept need rest) :
    Safe Inv Kept need (s :: rest) :=
  .cons keeps (fun _ known => .inl known) remaining

/-- After a statement that always takes a lock, the lock is known to be held. -/
theorem Safe.lock {k : Lock} (keeps : s.Keeps Inv Kept need)
    (takes : ∀ memory db, k ∈ s.locks memory db) (remaining : Safe Inv Kept (k :: need) rest) :
    Safe Inv Kept need (s :: rest) := by
  refine .cons keeps (fun l mem => ?_) remaining
  rcases List.mem_cons.mp mem with rfl | known
  · exact .inr takes
  · exact .inl known

theorem Safe.append {first : List (Statement Db Write Lock Memory)}
    (keeps : ∀ s ∈ first, s.Keeps Inv Kept need) (remaining : Safe Inv Kept need rest) :
    Safe Inv Kept need (first ++ rest) := by
  induction first with
  | nil => exact remaining
  | cons s later ih =>
      exact .step (keeps s List.mem_cons_self)
        (ih fun other mem => keeps other (List.mem_cons_of_mem s mem))

theorem Safe.of_forall (keeps : ∀ s ∈ rest, s.Keeps Inv Kept need) : Safe Inv Kept need rest := by
  simpa using Safe.append keeps (.nil need)

end Safe

namespace Discipline

variable {Inv : Db → Prop} {Kept : Db → List Lock → List Write → Prop}

def At (Inv : Db → Prop) (Kept : Db → List Lock → List Write → Prop) (db : Db)
    (t : Transaction Db Write Lock Memory Request) : Prop :=
  Kept db t.held t.pending ∧ ∃ need, (∀ k ∈ need, k ∈ t.held) ∧ Safe Inv Kept need t.rest

/-- A discipline whose programs are safe is a proof outline. -/
theorem outline (discipline : Discipline engine Inv Kept)
    (safe : ∀ request, Safe Inv Kept [] (engine.program request)) :
    Outline engine Inv (At Inv Kept) where
  fresh := fun db _ request inv => ⟨discipline.nil db [] inv, [], by simp, safe request⟩
  execute := by
    intro db t statement rest memory writes inv ⟨kept, need, held, unfinished⟩ next effect
    rw [next] at unfinished
    cases unfinished with
    | @cons _ more _ _ keeps taken remaining =>
        let locks := statement.locks t.memory (engine.view db t.pending)
        have wider : ∀ k ∈ t.held, k ∈ locks ++ t.held := fun k mem => List.mem_append_right _ mem
        refine ⟨discipline.append db t.held _ _ _ inv wider kept ?_, more, fun k mem => ?_, remaining⟩
        · exact keeps t.xid t.memory _ memory writes _ (discipline.commit db t.held _ inv kept)
            (fun k mem => wider k (held k mem)) (fun k mem => List.mem_append_left _ mem) effect
        · rcases taken k mem with before | now
          · exact wider k (held k before)
          · exact List.mem_append_left _ (now t.memory _)
  commit := fun db t inv at_ _ => discipline.commit db t.held t.pending inv at_.1
  stable := fun db t u inv tAt uAt _ compatible =>
    ⟨discipline.stable db t.held t.pending u.held u.pending inv tAt.1 uAt.1 compatible, tAt.2⟩

end Discipline

/-- A commit, read off a step. -/
theorem commit_spec {xid : Nat} (taken : engine.Steps w (.commit xid) after) :
    ∃ t ∈ w.opened, t.xid = xid ∧ t.rest = [] ∧
      after.committed = engine.view w.committed t.pending := by
  obtain ⟨t, mem, same, done, rfl⟩ := steps_commit taken
  exact ⟨t, mem, same, done, rfl⟩

/-- Only the commit of a finished transaction changes the database. -/
theorem committed_cases {event : Event Request} (taken : engine.Steps w event after) :
    after.committed = w.committed ∨ ∃ t ∈ w.opened, t.rest = [] ∧
      after.committed = engine.view w.committed t.pending := by
  cases event with
  | start request =>
      obtain ⟨opened, -, rfl⟩ := Option.map_eq_some_iff.mp taken
      exact .inl rfl
  | execute xid =>
      obtain ⟨t, -, executed⟩ := steps_execute taken
      left
      cases executed with
      | failed => rfl
      | advanced => rfl
  | abort xid => exact .inl (steps_abort taken ▸ rfl)
  | commit xid =>
      obtain ⟨t, mem, -, done, same⟩ := commit_spec taken
      exact .inr ⟨t, mem, done, same⟩

theorem play_run {events : List (Event Request)} (played : engine.play w events = some after) :
    Runs.Run engine.Steps w events after := by
  induction events generalizing w with
  | nil =>
      obtain rfl := Option.some.inj played
      exact .nil w
  | cons event rest ih =>
      unfold Engine.play at played
      cases first : engine.step w event with
      | none => simp [first] at played
      | some middle =>
          rw [first] at played
          exact .cons first (ih played)

/-! ## One transaction at a time -/

theorem find_alone (mem : t ∈ w.opened) : w.find t.xid = some t := by
  refine Table.find?_eq_some_of_key mem (by simp) ?_
  intro other _ same
  simpa using same

end SiliconIam.Theory.Transactions
