/-
# Postgres.RuntimeKeyrings -- starting pods and operators over the key metadata

Pods register their keyrings, workers the contact-AEAD one, operators move an
active version forward; every call works on the rows of one purpose under that
purpose's advisory lock, held until its transaction ends.  `LegalRows` is what the
constraints of `cryptographic_key_versions` allow together with the activation
history; every interleaving keeps it (`outline`).

What a registration has established is read off its commit: the current version is
the active one and every required version is held (`Verified`), and every local
version is registered exactly when none was missing below the active one
(`NoGap`), because only versions above it are staged.
-/
import SiliconIam.Postgres.KeyMetadata
import SiliconIam.Theory.Transactions

namespace SiliconIam.Postgres.RuntimeKeyrings

open SiliconIam.Theory SiliconIam.Theory.Transactions
open SiliconIam.Postgres.KeyMetadata

set_option autoImplicit false

/-! ## Rows and calls -/

inductive Purpose where
  | tokenHmac
  | contactLookupHmac
  | contactAead
  deriving DecidableEq, Repr

/-- A row of `runtime_key_activations`. -/
structure Activation where
  purpose : Purpose
  previous : Int16
  activated : Int16
  deriving DecidableEq

structure Keys where
  metadata : Purpose → Metadata
  activations : List Activation

/-- The rows of a purpose after a call, and the history of activations. -/
inductive Write where
  | metadata (purpose : Purpose) (rows : Metadata)
  | activation (row : Activation)

def Keys.apply (keys : Keys) : Write → Keys
  | .metadata purpose rows =>
      { keys with metadata := fun other => if other = purpose then rows else keys.metadata other }
  | .activation row => { keys with activations := keys.activations ++ [row] }

def Keys.applyAll (keys : Keys) (ws : List Write) : Keys := ws.foldl Keys.apply keys

/-- `KeyringSettings` without its key material. -/
structure LocalKeyring where
  currentVersion : Int16
  versions : List Int16
  deriving DecidableEq

inductive Call where
  | reconcile (purpose : Purpose) (ring : LocalKeyring) (attested : Bool)
  | activate (purpose : Purpose) (expectedCurrentVersion newVersion : Int16) (attested : Bool)
  deriving DecidableEq

def Call.purpose : Call → Purpose
  | .reconcile purpose _ _ => purpose
  | .activate purpose _ _ _ => purpose

/-- `reconcile_runtime_keyring` and `activate_runtime_key_version`; none when they raise. -/
def Call.writes (keys : Keys) : Call → Option (List Write)
  | .reconcile purpose ring attested =>
      if !attested then none
      else
        match reconcileRuntimeKeyring (keys.metadata purpose) ring.currentVersion ring.versions with
        | .ok rows => some [.metadata purpose rows]
        | .error _ => none
  | .activate purpose expected newVersion attested =>
      if !attested then none
      else
        match activateRuntimeKeyVersion (keys.metadata purpose) expected newVersion with
        | .ok rows => some [.metadata purpose rows, .activation ⟨purpose, expected, newVersion⟩]
        | .error _ => none

inductive Request where
  | registerRuntimeKeyVersions (token blindIndex encryption : LocalKeyring)
  | registerRuntimeEncryptionKeyVersions (encryption : LocalKeyring) (worker : Bool)
  | activateRuntimeKeyVersion (purpose : Purpose) (expectedCurrentVersion newVersion : Int16)
      (operator : Bool)
  deriving DecidableEq

/-- The calls of one transaction, in their order. -/
def Request.calls : Request → List Call
  | .registerRuntimeKeyVersions token blindIndex encryption =>
      [.reconcile .tokenHmac token true, .reconcile .contactLookupHmac blindIndex true,
        .reconcile .contactAead encryption true]
  | .registerRuntimeEncryptionKeyVersions encryption worker =>
      [.reconcile .contactAead encryption worker]
  | .activateRuntimeKeyVersion purpose expected newVersion operator =>
      [.activate purpose expected newVersion operator]

abbrev Statement := Transactions.Statement Keys Write Purpose Unit

/-- A call waits for the advisory lock of its purpose and reads behind it. -/
def Call.statement (call : Call) : Statement where
  locks := fun _ _ => [call.purpose]
  effect := fun _ _ keys => (call.writes keys).map fun ws => ((), ws)

def engine : Engine Keys Write Purpose Unit Request where
  apply := Keys.apply
  excludes := fun k l => k == l
  symmetric := fun k l => by rw [Bool.beq_comm]
  memory := ()
  program := fun request => request.calls.map Call.statement

/-! ## The rows of one purpose -/

/-- The keys of the table and its index on active versions. -/
structure LegalRows (metadata : Metadata) : Prop where
  distinct : (metadata.map Prod.fst).Nodup
  oneActive : (activeVersions metadata).length ≤ 1

variable {metadata : Metadata}

theorem mem_activeVersions {version : Int16} :
    version ∈ activeVersions metadata ↔ (version, KeyStatus.active) ∈ metadata := by
  rw [activeVersions, List.mem_map]
  constructor
  · rintro ⟨⟨_, status⟩, listed, rfl⟩
    simp only [List.mem_filter, decide_eq_true_eq] at listed
    rw [← listed.2]
    exact listed.1
  · intro mem
    exact ⟨_, List.mem_filter.mpr ⟨mem, by simp⟩, rfl⟩

theorem mem_stage {version : Int16} {row : Int16 × KeyStatus} :
    row ∈ stage metadata version ↔
      row ∈ metadata ∨ (row = (version, .decryptOnly) ∧ ∀ other ∈ metadata, other.1 ≠ version) := by
  unfold stage
  split
  · rename_i taken
    obtain ⟨other, mem, same⟩ := List.any_eq_true.mp taken
    constructor
    · exact .inl
    · rintro (held | ⟨-, free⟩)
      · exact held
      · exact absurd (of_decide_eq_true same) (free other mem)
  · rename_i free
    have free : ∀ other ∈ metadata, other.1 ≠ version := by
      intro other mem same
      exact free (List.any_eq_true.mpr ⟨other, mem, decide_eq_true same⟩)
    rw [List.mem_append, List.mem_singleton]
    constructor
    · rintro (held | rfl)
      · exact .inl held
      · exact .inr ⟨rfl, free⟩
    · rintro (held | ⟨rfl, -⟩)
      · exact .inl held
      · exact .inr rfl

/-- Staging leaves the rows that are there and adds the missing versions. -/
theorem mem_foldl_stage {staged : List Int16} : ∀ {metadata : Metadata} {row : Int16 × KeyStatus},
    row ∈ staged.foldl stage metadata ↔ row ∈ metadata ∨
      (row.2 = .decryptOnly ∧ row.1 ∈ staged ∧ ∀ other ∈ metadata, other.1 ≠ row.1) := by
  induction staged with
  | nil => simp
  | cons version rest ih =>
      intro metadata row
      rw [List.foldl_cons, ih, mem_stage]
      constructor
      · rintro ((held | ⟨rfl, free⟩) | ⟨status, listed, free⟩)
        · exact .inl held
        · exact .inr ⟨rfl, List.mem_cons_self, free⟩
        · exact .inr ⟨status, List.mem_cons_of_mem _ listed,
            fun other mem => free other (mem_stage.mpr (.inl mem))⟩
      · rintro (held | ⟨status, listed, free⟩)
        · exact .inl (.inl held)
        · by_cases same : row.1 = version
          · refine .inl (.inr ⟨Prod.ext same status, ?_⟩)
            rwa [← same]
          · refine .inr ⟨status, (List.mem_cons.mp listed).resolve_left same, fun other mem => ?_⟩
            rcases mem_stage.mp mem with held | ⟨rfl, -⟩
            · exact free other held
            · exact Ne.symm same

theorem nodup_stage (distinct : (metadata.map Prod.fst).Nodup)
    (version : Int16) : ((stage metadata version).map Prod.fst).Nodup := by
  unfold stage
  split
  · exact distinct
  · rename_i free
    rw [List.map_append, List.nodup_append]
    refine ⟨distinct, List.nodup_singleton _, fun a mem b same => ?_⟩
    obtain ⟨other, held, rfl⟩ := List.mem_map.mp mem
    rw [List.map_singleton, List.mem_singleton] at same
    subst same
    intro equal
    exact free (List.any_eq_true.mpr ⟨other, held, decide_eq_true equal⟩)

theorem nodup_foldl_stage {staged : List Int16} : ∀ {metadata : Metadata},
    (metadata.map Prod.fst).Nodup → ((staged.foldl stage metadata).map Prod.fst).Nodup := by
  induction staged with
  | nil => exact fun distinct => distinct
  | cons version rest ih => exact fun distinct => ih (nodup_stage distinct version)

theorem activeVersions_stage (version : Int16) :
    activeVersions (stage metadata version) = activeVersions metadata := by
  unfold stage
  split
  · rfl
  · simp [activeVersions]

theorem activeVersions_foldl_stage (staged : List Int16) : ∀ {metadata : Metadata},
    activeVersions (staged.foldl stage metadata) = activeVersions metadata := by
  induction staged with
  | nil => exact rfl
  | cons version rest ih => exact ih.trans (activeVersions_stage version)

/-- What a reconciliation has found and left. -/
inductive ReconcileOutcome (before : Metadata) (ring : LocalKeyring) : Metadata → Prop
  | initialized (empty : before = []) (distinct : ring.versions.Nodup)
      (current : ring.currentVersion ∈ ring.versions) :
      ReconcileOutcome before ring (ring.versions.map fun version =>
        (version, if version = ring.currentVersion then .active else .decryptOnly))
  | verified (started : before ≠ []) (distinct : ring.versions.Nodup)
      (settled : ∀ row ∈ before, row.2 ≠ .pending)
      (active : activeVersions before = [ring.currentVersion])
      (complete : ∀ row ∈ before, row.2.required = true → row.1 ∈ ring.versions)
      (current : ∀ row ∈ before, row.2 = .retired → row.1 ∉ ring.versions) :
      ReconcileOutcome before ring
        ((ring.versions.filter fun version => ring.currentVersion < version).foldl stage before)

theorem reconcile_spec {before after : Metadata} {ring : LocalKeyring}
    (ok : reconcileRuntimeKeyring before ring.currentVersion ring.versions = .ok after) :
    ReconcileOutcome before ring after := by
  unfold reconcileRuntimeKeyring at ok
  split at ok
  · cases ok
  split at ok
  · cases ok
  rename_i unique
  simp only [not_or, not_not] at unique
  split at ok
  · rename_i empty
    cases ok
    exact .initialized empty unique.2.1 unique.2.2
  rename_i started
  split at ok
  · cases ok
  rename_i settled
  split at ok
  · rename_i databaseActive active
    split at ok
    · cases ok
    rename_i configured
    split at ok
    · cases ok
    rename_i complete
    split at ok
    · cases ok
    rename_i retired
    simp only [ne_eq, not_not] at configured complete
    subst configured
    cases ok
    refine .verified started unique.2.1 (fun row mem pending => settled ?_) active
      (fun row mem needed => ?_) fun row mem gone held => retired ?_
    · exact List.any_eq_true.mpr ⟨row, mem, decide_eq_true pending⟩
    · by_contra absent
      have lacking : row.1 ∈ missingLocalVersions before ring.versions := by
        refine List.mem_map.mpr ⟨row, List.mem_filter.mpr ⟨mem, ?_⟩, rfl⟩
        exact decide_eq_true ⟨needed, absent⟩
      rw [complete] at lacking
      exact List.not_mem_nil lacking
    · exact List.any_eq_true.mpr ⟨row, mem, decide_eq_true ⟨gone, held⟩⟩
  · cases ok

/-! ## What a call leaves -/

/-- The pod's current version is the active one, and it reads what is written. -/
structure Verified (ring : LocalKeyring) (metadata : Metadata) : Prop where
  active : activeVersions metadata = [ring.currentVersion]
  readable : ∀ row ∈ metadata, row.2 ≠ .retired → row.1 ∈ ring.versions

/-- What the pod may write with any of its keys refers to a registered version. -/
def Registered (ring : LocalKeyring) (metadata : Metadata) : Prop :=
  ∀ version ∈ ring.versions, ∃ status : KeyStatus, (version, status) ∈ metadata ∧ status ≠ .retired

/-- No local version below the current one is missing among the rows, if there are any. -/
def NoGap (ring : LocalKeyring) (metadata : Metadata) : Prop :=
  metadata = [] ∨
    ∀ version ∈ ring.versions, version < ring.currentVersion → version ∈ metadata.map Prod.fst

theorem activeVersions_eq_singleton (current : Int16)
    (distinct : (metadata.map Prod.fst).Nodup)
    (only : ∀ version, (version, KeyStatus.active) ∈ metadata ↔ version = current) :
    activeVersions metadata = [current] := by
  have nodup : (activeVersions metadata).Nodup := (List.filter_sublist.map Prod.fst).nodup distinct
  refine List.perm_singleton.mp
    ((List.perm_ext_iff_of_nodup nodup (List.nodup_singleton current)).mpr fun version => ?_)
  rw [mem_activeVersions, only, List.mem_singleton]

theorem active_of_singleton {current : Int16}
    (active : activeVersions metadata = [current]) : (current, KeyStatus.active) ∈ metadata :=
  mem_activeVersions.mp (active ▸ List.mem_singleton_self current)

namespace ReconcileOutcome

variable {before after : Metadata} {ring : LocalKeyring}

theorem legal (outcome : ReconcileOutcome before ring after) (legal : LegalRows before) :
    LegalRows after ∧ Verified ring after := by
  cases outcome with
  | initialized empty distinct current =>
      have keys : ((ring.versions.map fun version => (version,
          if version = ring.currentVersion then KeyStatus.active else .decryptOnly)).map
          Prod.fst).Nodup := by
        rw [List.map_map]
        exact (List.map_id _).symm ▸ distinct
      have active := activeVersions_eq_singleton ring.currentVersion keys fun version => by
        rw [List.mem_map]
        constructor
        · rintro ⟨other, -, same⟩
          obtain ⟨rfl, status⟩ := Prod.mk.inj same
          by_contra differs
          rw [if_neg differs] at status
          exact nomatch status
        · rintro rfl
          exact ⟨_, current, by rw [if_pos rfl]⟩
      refine ⟨⟨keys, by rw [active]; exact Nat.le_refl 1⟩, active, fun row mem _ => ?_⟩
      obtain ⟨version, held, rfl⟩ := List.mem_map.mp mem
      exact held
  | verified started distinct settled active complete current =>
      have same := (activeVersions_foldl_stage
        (ring.versions.filter fun version => ring.currentVersion < version)).trans active
      refine ⟨⟨nodup_foldl_stage legal.distinct, by rw [same]; exact Nat.le_refl 1⟩, same,
        fun row mem needed => ?_⟩
      rcases mem_foldl_stage.mp mem with held | ⟨-, listed, -⟩
      · refine complete row held ?_
        have pending := settled row held
        cases status : row.2 with
        | active => rfl
        | decryptOnly => rfl
        | pending => exact absurd status pending
        | retired => exact absurd status needed
      · exact (List.mem_filter.mp listed).1

theorem registered_iff (outcome : ReconcileOutcome before ring after) :
    Registered ring after ↔ NoGap ring before := by
  cases outcome with
  | initialized empty distinct current =>
      refine ⟨fun _ => .inl empty, fun _ version held => ⟨_, List.mem_map.mpr ⟨version, held, rfl⟩, ?_⟩⟩
      split <;> decide
  | verified started distinct settled active complete current =>
      constructor
      · intro registered
        refine .inr fun version held older => ?_
        obtain ⟨status, mem, -⟩ := registered version held
        rcases mem_foldl_stage.mp mem with row | ⟨-, listed, -⟩
        · exact List.mem_map.mpr ⟨_, row, rfl⟩
        · have newer : ring.currentVersion < version := by simpa using (List.mem_filter.mp listed).2
          exact absurd (Int16.lt_trans older newer) Int16.lt_irrefl
      · intro gapless version held
        have kept : ∀ row ∈ before, row.1 = version → row.2 ≠ .retired := by
          rintro row mem rfl gone
          exact current row mem gone held
        have found : version ∈ before.map Prod.fst → ∃ status : KeyStatus,
            (version, status) ∈ (ring.versions.filter fun version =>
              ring.currentVersion < version).foldl stage before ∧ status ≠ .retired := by
          intro listed
          obtain ⟨row, mem, rfl⟩ := List.mem_map.mp listed
          exact ⟨row.2, mem_foldl_stage.mpr (.inl mem), kept row mem rfl⟩
        by_cases known : version ∈ before.map Prod.fst
        · exact found known
        have differs : version ≠ ring.currentVersion := by
          rintro rfl
          exact known (List.mem_map.mpr ⟨_, active_of_singleton active, rfl⟩)
        have newer : ring.currentVersion < version := by
          refine Int16.lt_of_le_of_ne (Int16.not_lt.mp fun older => known ?_) differs.symm
          exact gapless.resolve_left started version held older
        refine ⟨.decryptOnly, mem_foldl_stage.mpr (.inr ⟨rfl, ?_, fun other mem same => known ?_⟩),
          by decide⟩
        · exact List.mem_filter.mpr ⟨held, by simpa using newer⟩
        · exact List.mem_map.mpr ⟨other, mem, same⟩

/-- The active version stays, where there was one. -/
theorem keeps_active (outcome : ReconcileOutcome before ring after) {version : Int16}
    (active : version ∈ activeVersions before) : version ∈ activeVersions after := by
  cases outcome with
  | initialized empty distinct current =>
      rw [empty] at active
      exact absurd active List.not_mem_nil
  | verified started distinct settled was complete current =>
      rwa [activeVersions_foldl_stage]

end ReconcileOutcome

/-- An activation moves the active version up to one that was preloaded. -/
theorem activate_spec {before after : Metadata} {expected newVersion : Int16} (legal : LegalRows before)
    (ok : activateRuntimeKeyVersion before expected newVersion = .ok after) :
    expected < newVersion ∧ activeVersions before = [expected] ∧ LegalRows after ∧
      activeVersions after = [newVersion] := by
  unfold activateRuntimeKeyVersion at ok
  split at ok
  · cases ok
  rename_i increasing
  split at ok
  · cases ok
  rename_i active
  split at ok
  · rename_i preloaded
    cases ok
    simp only [not_or, ne_eq, not_not] at increasing active
    have less : expected < newVersion := Int16.not_le.mp increasing.2
    obtain ⟨row, mem, same⟩ := List.any_eq_true.mp preloaded
    obtain rfl := of_decide_eq_true same
    have first : ∀ row, (activateRow expected newVersion row).1 = row.1 := by
      intro row
      unfold activateRow
      split
      · rfl
      split
      · rfl
      · rfl
    have keys : ((before.map (activateRow expected newVersion)).map Prod.fst).Nodup := by
      rw [List.map_map, show Prod.fst ∘ activateRow expected newVersion = Prod.fst from funext first]
      exact legal.distinct
    have one := activeVersions_eq_singleton newVersion keys fun version => by
      rw [List.mem_map]
      constructor
      · rintro ⟨old, oldMem, made⟩
        unfold activateRow at made
        split at made
        · exact nomatch (Prod.mk.inj made).2
        split at made
        · rename_i chosen
          rw [← (Prod.mk.inj made).1, chosen]
        · rename_i other _
          have was : version ∈ activeVersions before := mem_activeVersions.mpr (made ▸ oldMem)
          rw [active, List.mem_singleton] at was
          subst was
          exact absurd made other
      · rintro rfl
        refine ⟨_, mem, ?_⟩
        have other : ¬ ((version, KeyStatus.decryptOnly) : Int16 × KeyStatus) = (expected, .active) := by
          simp
        unfold activateRow
        rw [if_neg other, if_pos rfl]
    exact ⟨less, active, ⟨keys, by rw [one]; exact Nat.le_refl 1⟩, one⟩
  · cases ok

/-! ## One call after the other -/

/-- The rows of every purpose, and the activations so far in their order. -/
structure Legal (keys : Keys) : Prop where
  rows : ∀ purpose, LegalRows (keys.metadata purpose)
  increasing : keys.activations.Pairwise fun a b => a.purpose = b.purpose → a.activated < b.activated
  forward : ∀ a ∈ keys.activations, a.previous < a.activated
  reached : ∀ a ∈ keys.activations, ∃ version ∈ activeVersions (keys.metadata a.purpose),
    a.activated ≤ version

/-- The active versions have not gone back. -/
def Advanced (before after : Keys) : Prop :=
  ∀ purpose, ∀ version ∈ activeVersions (before.metadata purpose),
    ∃ later ∈ activeVersions (after.metadata purpose), version ≤ later

theorem Advanced.refl (keys : Keys) : Advanced keys keys :=
  fun _ version active => ⟨version, active, Int16.le_refl version⟩

theorem Advanced.trans {a b c : Keys} (first : Advanced a b) (second : Advanced b c) :
    Advanced a c := by
  intro purpose version active
  obtain ⟨middle, middleActive, less⟩ := first purpose version active
  obtain ⟨later, laterActive, more⟩ := second purpose middle middleActive
  exact ⟨later, laterActive, Int16.le_trans less more⟩

/-- What the calls of a transaction have pending, run over one database. -/
def performs : Keys → List Call → Option (List Write)
  | _, [] => some []
  | keys, call :: rest =>
      (call.writes keys).bind fun ws => (performs (keys.applyAll ws) rest).map fun later => ws ++ later

variable {keys other : Keys} {call : Call} {calls done left : List Call} {ws : List Write}

theorem applyAll_append (first later : List Write) :
    keys.applyAll (first ++ later) = (keys.applyAll first).applyAll later :=
  List.foldl_append

theorem performs_cons (ran : performs keys (call :: calls) = some ws) :
    ∃ first later, call.writes keys = some first ∧ performs (keys.applyAll first) calls = some later ∧
      ws = first ++ later := by
  obtain ⟨first, wrote, ran⟩ := Option.bind_eq_some_iff.mp ran
  obtain ⟨later, rest, rfl⟩ := Option.map_eq_some_iff.mp ran
  exact ⟨first, later, wrote, rest, rfl⟩

theorem performs_snoc {last : List Write} (ran : performs keys done = some ws)
    (wrote : call.writes (keys.applyAll ws) = some last) :
    performs keys (done ++ [call]) = some (ws ++ last) := by
  induction done generalizing keys ws with
  | nil =>
      obtain rfl := Option.some.inj ran
      have wrote : call.writes keys = some last := wrote
      simp [performs, wrote]
  | cons first rest ih =>
      obtain ⟨begun, later, firstWrote, ranRest, rfl⟩ := performs_cons ran
      rw [applyAll_append] at wrote
      rw [List.cons_append, performs, firstWrote, Option.bind_some, ih ranRest wrote, Option.map_some,
        List.append_assoc]

/-- The two shapes of what a call writes. -/
inductive Wrote (keys : Keys) : Call → List Write → Prop
  | reconcile {purpose : Purpose} {ring : LocalKeyring} {attested : Bool} {rows : Metadata}
      (outcome : ReconcileOutcome (keys.metadata purpose) ring rows) :
      Wrote keys (.reconcile purpose ring attested) [.metadata purpose rows]
  | activate {purpose : Purpose} {expected newVersion : Int16} {attested : Bool} {rows : Metadata}
      (ok : activateRuntimeKeyVersion (keys.metadata purpose) expected newVersion = .ok rows) :
      Wrote keys (.activate purpose expected newVersion attested)
        [.metadata purpose rows, .activation ⟨purpose, expected, newVersion⟩]

theorem writes_spec (wrote : call.writes keys = some ws) : Wrote keys call ws := by
  cases call with
  | reconcile purpose ring attested =>
      rw [Call.writes] at wrote
      split at wrote
      · exact absurd wrote (by simp)
      split at wrote
      · rename_i rows ok
        obtain rfl := Option.some.inj wrote
        exact .reconcile (reconcile_spec ok)
      · exact absurd wrote (by simp)
  | activate purpose expected newVersion attested =>
      rw [Call.writes] at wrote
      split at wrote
      · exact absurd wrote (by simp)
      split at wrote
      · rename_i rows ok
        obtain rfl := Option.some.inj wrote
        exact .activate ok
      · exact absurd wrote (by simp)

namespace Wrote

variable (wrote : Wrote keys call ws)
include wrote

theorem frame {purpose : Purpose} (apart : call.purpose ≠ purpose) :
    (keys.applyAll ws).metadata purpose = keys.metadata purpose := by
  cases wrote with
  | reconcile outcome => exact if_neg (Ne.symm apart)
  | activate ok => exact if_neg (Ne.symm apart)

theorem legal (legal : Legal keys) :
    Legal (keys.applyAll ws) ∧ Advanced keys (keys.applyAll ws) := by
  cases wrote with
  | @reconcile purpose ring attested rows outcome =>
      have own : (keys.applyAll [.metadata purpose rows]).metadata purpose = rows := if_pos rfl
      have others : ∀ p, p ≠ purpose →
          (keys.applyAll [.metadata purpose rows]).metadata p = keys.metadata p := fun p apart =>
        if_neg apart
      have advanced : Advanced keys (keys.applyAll [.metadata purpose rows]) := by
        intro p version active
        refine ⟨version, ?_, Int16.le_refl version⟩
        by_cases same : p = purpose
        · subst same
          rw [own]
          exact outcome.keeps_active active
        · rwa [others p same]
      refine ⟨⟨fun p => ?_, legal.increasing, legal.forward, fun a mem => ?_⟩, advanced⟩
      · by_cases same : p = purpose
        · subst same
          rw [own]
          exact (outcome.legal (legal.rows _)).1
        · rw [others p same]
          exact legal.rows p
      · obtain ⟨version, active, above⟩ := legal.reached a mem
        obtain ⟨later, laterActive, more⟩ := advanced a.purpose version active
        exact ⟨later, laterActive, Int16.le_trans above more⟩
  | @activate purpose expected newVersion attested rows ok =>
      obtain ⟨less, before, legalRows, after⟩ := activate_spec (legal.rows purpose) ok
      generalize made : keys.applyAll [.metadata purpose rows,
        .activation ⟨purpose, expected, newVersion⟩] = next
      have own : next.metadata purpose = rows := by rw [← made]; exact if_pos rfl
      have others : ∀ p, p ≠ purpose → next.metadata p = keys.metadata p := by
        intro p apart
        rw [← made]
        exact if_neg apart
      have history : next.activations = keys.activations ++ [⟨purpose, expected, newVersion⟩] := by
        rw [← made]
        rfl
      have advanced : Advanced keys next := by
        intro p version active
        by_cases same : p = purpose
        · subst same
          rw [before, List.mem_singleton] at active
          subst active
          exact ⟨newVersion, by rw [own, after]; exact List.mem_singleton_self _, Int16.le_of_lt less⟩
        · exact ⟨version, by rwa [others p same], Int16.le_refl version⟩
      refine ⟨⟨fun p => ?_, ?_, fun a mem => ?_, fun a mem => ?_⟩, advanced⟩
      · by_cases same : p = purpose
        · subst same
          rw [own]
          exact legalRows
        · rw [others p same]
          exact legal.rows p
      · rw [history, List.pairwise_append]
        refine ⟨legal.increasing, List.pairwise_singleton _ _, fun a mem b last same => ?_⟩
        rw [List.mem_singleton] at last
        subst last
        obtain ⟨version, active, above⟩ := legal.reached a mem
        rw [same, before, List.mem_singleton] at active
        subst active
        exact Int16.lt_of_le_of_lt above less
      · rw [history, List.mem_append, List.mem_singleton] at mem
        rcases mem with earlier | rfl
        · exact legal.forward a earlier
        · exact less
      · rw [history, List.mem_append, List.mem_singleton] at mem
        rcases mem with earlier | rfl
        · obtain ⟨version, active, above⟩ := legal.reached a earlier
          obtain ⟨later, laterActive, more⟩ := advanced a.purpose version active
          exact ⟨later, laterActive, Int16.le_trans above more⟩
        · refine ⟨newVersion, ?_, Int16.le_refl newVersion⟩
          show newVersion ∈ activeVersions (next.metadata purpose)
          rw [own, after]
          exact List.mem_singleton_self _

end Wrote

/-! ## Transactions -/

theorem performs_frame {purpose : Purpose} (ran : performs keys calls = some ws)
    (apart : ∀ call ∈ calls, call.purpose ≠ purpose) :
    (keys.applyAll ws).metadata purpose = keys.metadata purpose := by
  induction calls generalizing keys ws with
  | nil =>
      obtain rfl := Option.some.inj ran
      rfl
  | cons first rest ih =>
      obtain ⟨begun, later, wrote, ranRest, rfl⟩ := performs_cons ran
      rw [applyAll_append, ih ranRest fun call mem => apart call (List.mem_cons_of_mem _ mem)]
      exact (writes_spec wrote).frame (apart first List.mem_cons_self)

theorem performs_legal (legal : Legal keys) (ran : performs keys calls = some ws) :
    Legal (keys.applyAll ws) ∧ Advanced keys (keys.applyAll ws) := by
  induction calls generalizing keys ws with
  | nil =>
      obtain rfl := Option.some.inj ran
      exact ⟨legal, .refl keys⟩
  | cons first rest ih =>
      obtain ⟨begun, later, wrote, ranRest, rfl⟩ := performs_cons ran
      obtain ⟨middle, advanced⟩ := (writes_spec wrote).legal legal
      obtain ⟨last, further⟩ := ih middle ranRest
      rw [applyAll_append]
      exact ⟨last, advanced.trans further⟩

theorem writes_congr (same : keys.metadata call.purpose = other.metadata call.purpose) :
    call.writes keys = call.writes other := by
  cases call with
  | reconcile purpose ring attested =>
      have same : keys.metadata purpose = other.metadata purpose := same
      rw [Call.writes, Call.writes, same]
  | activate purpose expected newVersion attested =>
      have same : keys.metadata purpose = other.metadata purpose := same
      rw [Call.writes, Call.writes, same]

/-- Databases with the same rows of a purpose have the same after the same writes. -/
theorem metadata_congr {purpose : Purpose}
    (same : keys.metadata purpose = other.metadata purpose) :
    (keys.applyAll ws).metadata purpose = (other.applyAll ws).metadata purpose := by
  show (engine.view keys ws).metadata purpose = (engine.view other ws).metadata purpose
  refine Engine.view_related
    (R := fun a b : Keys => a.metadata purpose = b.metadata purpose) same fun a b w _ equal => ?_
  cases w with
  | metadata changed rows =>
      show (if purpose = changed then rows else a.metadata purpose) =
        if purpose = changed then rows else b.metadata purpose
      rw [equal]
  | activation row => exact equal

theorem performs_congr
    (same : ∀ call ∈ calls, keys.metadata call.purpose = other.metadata call.purpose) :
    performs keys calls = performs other calls := by
  induction calls generalizing keys other with
  | nil => rfl
  | cons first rest ih =>
      have wrote : first.writes keys = first.writes other := writes_congr (same first List.mem_cons_self)
      rw [performs, performs, wrote]
      congr 1
      funext ws
      rw [ih fun call mem => metadata_congr (same call (List.mem_cons_of_mem _ mem))]

/-- A call about a purpose that no other call of the transaction is about. -/
theorem performs_call (ran : performs keys calls = some ws) (mem : call ∈ calls)
    (distinct : (calls.map Call.purpose).Nodup) :
    ∃ before own, before.metadata call.purpose = keys.metadata call.purpose ∧
      Wrote before call own ∧
      (keys.applyAll ws).metadata call.purpose = (before.applyAll own).metadata call.purpose := by
  induction calls generalizing keys ws with
  | nil => exact absurd mem List.not_mem_nil
  | cons first rest ih =>
      obtain ⟨begun, later, wrote, ranRest, rfl⟩ := performs_cons ran
      obtain ⟨apart, distinct⟩ := List.nodup_cons.mp distinct
      have others : ∀ call ∈ rest, call.purpose ≠ first.purpose := fun call listed same =>
        apart (same ▸ List.mem_map_of_mem listed)
      rw [applyAll_append]
      rcases List.mem_cons.mp mem with rfl | listed
      · exact ⟨keys, begun, rfl, writes_spec wrote, performs_frame ranRest others⟩
      · obtain ⟨before, own, same, ownWrote, after⟩ := ih ranRest listed distinct
        refine ⟨before, own, same.trans ?_, ownWrote, after⟩
        exact (writes_spec wrote).frame (others call listed).symm

/-- How far an open transaction has come: its calls so far, on the rows whose
locks it holds. -/
def Progress (keys : Keys) (t : Transaction Keys Write Purpose Unit Request) : Prop :=
  ∃ done left : List Call, t.request.calls = done ++ left ∧ t.rest = left.map Call.statement ∧
    (∀ call ∈ done, call.purpose ∈ t.held) ∧ performs keys done = some t.pending

theorem outline : Outline engine Legal Progress where
  fresh := fun keys xid request _ => ⟨[], request.calls, rfl, rfl, fun _ mem => absurd mem List.not_mem_nil, rfl⟩
  execute := by
    rintro keys t statement rest memory writes legal ⟨done, left, split, remaining, held, ran⟩ next effect
    cases left with
    | nil => exact absurd (remaining.symm.trans next) (by simp)
    | cons call left =>
        rw [remaining, List.map_cons, List.cons.injEq] at next
        obtain ⟨rfl, rfl⟩ := next
        obtain ⟨ws, wrote, same⟩ := Option.map_eq_some_iff.mp effect
        obtain ⟨-, rfl⟩ := Prod.mk.inj same
        refine ⟨done ++ [call], left, ?_, rfl, fun made mem => ?_, performs_snoc ran wrote⟩
        · rw [List.append_assoc]
          exact split
        · rcases List.mem_append.mp mem with earlier | last
          · exact List.mem_append_right _ (held made earlier)
          · rw [List.mem_singleton.mp last]
            exact List.mem_append_left _ (List.mem_singleton_self _)
  commit := by
    rintro keys t legal ⟨done, left, -, -, -, ran⟩ -
    exact (performs_legal legal ran).1
  stable := by
    rintro keys t u legal ⟨done, left, split, remaining, held, ran⟩ ⟨uDone, uLeft, -, -, uHeld, uRan⟩ -
      compatible
    refine ⟨done, left, split, remaining, held, ?_⟩
    rw [← ran]
    refine performs_congr fun call mem => performs_frame uRan fun made uMem same => ?_
    have mine : call.purpose ∈ t.held := held call mem
    have theirs : call.purpose ∈ u.held := same ▸ uHeld made uMem
    have apart : (call.purpose == call.purpose) = false :=
      compatible call.purpose mine call.purpose theirs
    rw [beq_self_eq_true] at apart
    exact Bool.noConfusion apart

/-! ## Every run -/

variable {w after : World Keys Write Purpose Unit Request}
variable {t : Transaction Keys Write Purpose Unit Request}

theorem calls_distinct (request : Request) : (request.calls.map Call.purpose).Nodup := by
  cases request with
  | registerRuntimeKeyVersions token blindIndex encryption =>
      show [Purpose.tokenHmac, .contactLookupHmac, .contactAead].Nodup
      decide
  | registerRuntimeEncryptionKeyVersions encryption worker => exact List.nodup_singleton _
  | activateRuntimeKeyVersion purpose expected newVersion operator => exact List.nodup_singleton _

/-- A call that raises ends its transaction and leaves the database. -/
theorem raised {rest : List Statement} (mem : t ∈ w.opened) (next : t.rest = call.statement :: rest)
    (raises : call.writes (engine.view w.committed t.pending) = none)
    (step : engine.Steps w (.execute t.xid) after) :
    after.committed = w.committed ∧ ∀ u ∈ after.opened, u.xid ≠ t.xid := by
  have executed : engine.execute w t = some after := by
    simpa [Engine.Steps, Engine.step, find_alone mem] using step
  cases execute_spec executed with
  | failed => exact ⟨rfl, fun u uMem => (World.mem_close.mp uMem).2⟩
  | advanced statement rest memory writes other granted effect =>
      obtain ⟨rfl, rfl⟩ := List.cons.inj (next.symm.trans other)
      obtain ⟨ws, wrote, -⟩ := Option.map_eq_some_iff.mp effect
      exact absurd (raises.symm.trans wrote) (by simp)

/-- Sound, and the active versions have not gone back since `keys`. -/
def SoundSince (keys : Keys) (w : World Keys Write Purpose Unit Request) : Prop :=
  Outline.Sound engine Legal Progress w ∧ Advanced keys w.committed

theorem sound_since {events : List (Event Request)} (legal : Legal keys)
    (run : Runs.Run engine.Steps (World.idle keys) events w) : SoundSince keys w := by
  have start : SoundSince keys (World.idle keys) := ⟨Outline.sound_idle legal, .refl keys⟩
  refine run.invariant (fun w event after => ?_) start
  rintro ⟨sound, advanced⟩ step
  refine ⟨outline.sound_step sound step, ?_⟩
  rcases committed_cases step with same | ⟨t, mem, -, committed⟩
  · rw [same]
    exact advanced
  · obtain ⟨done, left, -, -, -, ran⟩ := sound.opened t mem
    rw [committed]
    exact advanced.trans (performs_legal sound.committed ran).2

/-- Version 2 is registered, then a pod starts whose keyring still holds version 1. -/
def laterOlderVersion : List (Event Request) :=
  [.start (.registerRuntimeEncryptionKeyVersions ⟨2, [2]⟩ true), .execute 0, .commit 0,
    .start (.registerRuntimeEncryptionKeyVersions ⟨2, [1, 2]⟩ true), .execute 1]

def noKeys : Keys := ⟨fun _ => [], []⟩

theorem legal_noKeys : Legal noKeys :=
  ⟨fun _ => ⟨List.nodup_nil, Nat.zero_le 1⟩, .nil, fun _ mem => absurd mem List.not_mem_nil,
    fun _ mem => absurd mem List.not_mem_nil⟩

/-- The registration succeeds, and no row is there for its version 1. -/
theorem older_version_unregistered :
    ∃ w after, Runs.Run engine.Steps (World.idle noKeys) laterOlderVersion w ∧
      (w.find 1).map Transaction.request =
        some (.registerRuntimeEncryptionKeyVersions ⟨2, [1, 2]⟩ true) ∧
      engine.Steps w (.commit 1) after ∧
      after.committed.metadata .contactAead = [(2, .active)] ∧
      ¬ Registered ⟨2, [1, 2]⟩ (after.committed.metadata .contactAead) := by
  obtain ⟨w, played⟩ : ∃ w, engine.play (World.idle noKeys) laterOlderVersion = some w :=
    Option.isSome_iff_exists.mp (by decide +kernel)
  have ended : (engine.play (World.idle noKeys) laterOlderVersion).all (fun w =>
      ((w.find 1).map Transaction.request ==
        some (.registerRuntimeEncryptionKeyVersions ⟨2, [1, 2]⟩ true)) &&
      (engine.step w (.commit 1)).any fun after =>
        after.committed.metadata .contactAead == [(2, .active)]) = true := by
    decide +kernel
  rw [played, Option.all_some, Bool.and_eq_true, beq_iff_eq, Option.any_eq_true] at ended
  obtain ⟨request, after, committed, rows⟩ := ended
  rw [beq_iff_eq] at rows
  refine ⟨w, after, play_run played, request, committed, rows, fun registered => ?_⟩
  obtain ⟨status, mem, -⟩ := registered 1 (by decide)
  rw [rows, List.mem_singleton] at mem
  exact absurd (Prod.mk.inj mem).1 (by decide)

/-- Every state of every run, every call that raises, and every registration that commits. -/
theorem keyrings_safe_iff (keys : Keys) (legal : Legal keys) (events : List (Event Request))
    (w : World Keys Write Purpose Unit Request)
    (run : Runs.Run engine.Steps (World.idle keys) events w) :
    Legal w.committed ∧ Advanced keys w.committed ∧
    (∀ t ∈ w.opened, ∀ (call : Call) (rest : List Statement), t.rest = call.statement :: rest →
      call.writes (engine.view w.committed t.pending) = none →
      ∀ after, engine.Steps w (.execute t.xid) after →
        after.committed = w.committed ∧ ∀ u ∈ after.opened, u.xid ≠ t.xid) ∧
    ∀ t ∈ w.opened, ∀ after, engine.Steps w (.commit t.xid) after →
      ∀ purpose ring attested, .reconcile purpose ring attested ∈ t.request.calls →
        Verified ring (after.committed.metadata purpose) ∧
        (Registered ring (after.committed.metadata purpose) ↔
          NoGap ring (w.committed.metadata purpose)) := by
  obtain ⟨sound, advanced⟩ := sound_since legal run
  refine ⟨sound.committed, advanced, fun t mem call rest next raises after step =>
    raised mem next raises step, fun t mem after step purpose ring attested listed => ?_⟩
  obtain ⟨u, uMem, same, finished, committed⟩ := commit_spec step
  obtain rfl := Table.unique mem uMem same.symm
  obtain ⟨done, left, split, remaining, -, ran⟩ := sound.opened t mem
  rw [finished] at remaining
  obtain rfl : left = [] := List.map_eq_nil_iff.mp remaining.symm
  rw [List.append_nil] at split
  rw [← split] at ran
  obtain ⟨before, own, rows, wrote, later⟩ := performs_call ran listed (calls_distinct t.request)
  have later : after.committed.metadata purpose = (before.applyAll own).metadata purpose := by
    rw [committed]
    exact later
  have rows : before.metadata purpose = w.committed.metadata purpose := rows
  cases wrote with
  | @reconcile _ _ _ next outcome =>
      have left : (before.applyAll [.metadata purpose next]).metadata purpose = next := if_pos rfl
      rw [later, left, ← rows]
      exact ⟨(outcome.legal (rows ▸ sound.committed.rows purpose)).2, outcome.registered_iff⟩

/-- A second version is preloaded by one pod, then activated; a third pod is about to commit. -/
def rotation : List (Event Request) :=
  [.start (.registerRuntimeKeyVersions ⟨1, [1, 2]⟩ ⟨1, [1]⟩ ⟨1, [1]⟩), .execute 0, .execute 0,
    .execute 0, .commit 0, .start (.activateRuntimeKeyVersion .tokenHmac 1 2 true), .execute 1,
    .commit 1, .start (.registerRuntimeKeyVersions ⟨2, [1, 2, 3]⟩ ⟨1, [1]⟩ ⟨1, [1]⟩), .execute 2,
    .execute 2, .execute 2]

theorem keyrings_safe_rotation :
    ∃ w after, Runs.Run engine.Steps (World.idle noKeys) rotation w ∧
      engine.Steps w (.commit 2) after ∧ Legal w.committed ∧
      w.committed.activations = [⟨.tokenHmac, 1, 2⟩] ∧
      Verified ⟨2, [1, 2, 3]⟩ (after.committed.metadata .tokenHmac) ∧
      Registered ⟨2, [1, 2, 3]⟩ (after.committed.metadata .tokenHmac) := by
  obtain ⟨w, played⟩ : ∃ w, engine.play (World.idle noKeys) rotation = some w :=
    Option.isSome_iff_exists.mp (by decide +kernel)
  have ended : (engine.play (World.idle noKeys) rotation).all (fun w =>
      (engine.step w (.commit 2)).isSome && (w.find 2).any (fun t => t.request ==
        .registerRuntimeKeyVersions ⟨2, [1, 2, 3]⟩ ⟨1, [1]⟩ ⟨1, [1]⟩) &&
      (w.committed.activations == [⟨.tokenHmac, 1, 2⟩] &&
        w.committed.metadata .tokenHmac == [(1, .decryptOnly), (2, .active)])) = true := by
    decide +kernel
  rw [played, Option.all_some] at ended
  simp only [Bool.and_eq_true, beq_iff_eq, Option.any_eq_true] at ended
  obtain ⟨⟨ready, t, found, request⟩, history, rows⟩ := ended
  obtain ⟨after, committed⟩ := Option.isSome_iff_exists.mp ready
  obtain ⟨mem, same⟩ := World.find_spec found
  have run := play_run played
  obtain ⟨legal, -, -, registered⟩ := keyrings_safe_iff noKeys legal_noKeys rotation w run
  obtain ⟨verified, complete⟩ := registered t mem after (same.symm ▸ committed) .tokenHmac
    ⟨2, [1, 2, 3]⟩ true (by rw [request]; exact List.mem_cons_self)
  refine ⟨w, after, run, committed, legal, history, verified, complete.mpr (.inr ?_)⟩
  rw [rows]
  show ∀ version ∈ ([1, 2, 3] : List Int16), version < 2 →
    version ∈ [(1, KeyStatus.decryptOnly), (2, KeyStatus.active)].map Prod.fst
  rw [List.forall_mem_cons, List.forall_mem_cons, List.forall_mem_singleton]
  exact ⟨by decide, by decide, by decide⟩

end SiliconIam.Postgres.RuntimeKeyrings
