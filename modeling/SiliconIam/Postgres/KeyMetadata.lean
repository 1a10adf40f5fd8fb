/-
# Postgres.KeyMetadata -- which key versions a pod must hold before it serves

The database keeps a row for every key version of a purpose.  A starting pod
reconciles its keyring with these rows and refuses to serve when a version the
database still needs is missing locally; an operator moves the active version
forward.  No function retires a version.

`Required` is what the database still needs.  A successful reconciliation proves
that the pod holds every required version (`reconcile_holds`), and neither
operation ever drops one (`reconcile_keeps`, `activate_keeps`), so what was once
required every later pod holds.
-/
import Mathlib.Data.List.Basic

namespace SiliconIam.Postgres.KeyMetadata

set_option autoImplicit false

inductive KeyStatus where
  | pending
  | active
  | decryptOnly
  | retired
deriving DecidableEq

/-- The rows of one purpose of `cryptographic_key_versions`. -/
abbrev Metadata := List (Int16 × KeyStatus)

inductive ReconcileError where
  | unsupportedMetadata
  | versionsNotUnique
  | pendingMetadata
  | notOneActive
  | activeDiffers (databaseActive configured : Int16)
  | missingLocal (versions : List Int16)
  | retiredLocal
deriving DecidableEq

inductive ActivateError where
  | notIncreasing
  | activeDiffers
  | notPreloaded
deriving DecidableEq

def activeVersions (metadata : Metadata) : List Int16 :=
  (metadata.filter fun row => row.2 = .active).map Prod.fst

/-- Rows that a pod must be able to read. -/
def KeyStatus.required : KeyStatus → Bool
  | .active | .decryptOnly => true
  | .pending | .retired => false

/-- The versions a keyring lacks. -/
def missingLocalVersions (metadata : Metadata) (localVersions : List Int16) : List Int16 :=
  (metadata.filter fun row => row.2.required ∧ row.1 ∉ localVersions).map Prod.fst

/-- `ON CONFLICT DO NOTHING` on the version. -/
def stage (metadata : Metadata) (version : Int16) : Metadata :=
  if metadata.any fun row => row.1 = version then metadata
  else metadata ++ [(version, .decryptOnly)]

/-- `reconcile_runtime_keyring`, for one supported purpose. -/
def reconcileRuntimeKeyring (metadata : Metadata) (currentVersion : Int16)
    (localVersions : List Int16) : Except ReconcileError Metadata :=
  if currentVersion ≤ 0 ∨ localVersions = [] then .error .unsupportedMetadata
  else if (∃ version ∈ localVersions, version ≤ 0) ∨ ¬ localVersions.Nodup ∨
      currentVersion ∉ localVersions then .error .versionsNotUnique
  else if metadata = [] then
    .ok (localVersions.map fun version =>
      (version, if version = currentVersion then .active else .decryptOnly))
  else if metadata.any fun row => row.2 = .pending then .error .pendingMetadata
  else
    match activeVersions metadata with
    | [databaseActive] =>
        if databaseActive ≠ currentVersion then
          .error (.activeDiffers databaseActive currentVersion)
        else if missingLocalVersions metadata localVersions ≠ [] then
          .error (.missingLocal (missingLocalVersions metadata localVersions))
        else if metadata.any fun row => row.2 = .retired ∧ row.1 ∈ localVersions then
          .error .retiredLocal
        else .ok ((localVersions.filter fun version => databaseActive < version).foldl stage metadata)
    | _ => .error .notOneActive

/-- What activation writes into one row. -/
def activateRow (databaseActive newVersion : Int16) (row : Int16 × KeyStatus) :
    Int16 × KeyStatus :=
  if row = (databaseActive, .active) then (row.1, .decryptOnly)
  else if row = (newVersion, .decryptOnly) then (row.1, .active)
  else row

/-- `activate_runtime_key_version`, for one supported purpose and an attested operator. -/
def activateRuntimeKeyVersion (metadata : Metadata) (expectedCurrentVersion newVersion : Int16) :
    Except ActivateError Metadata :=
  if expectedCurrentVersion ≤ 0 ∨ newVersion ≤ expectedCurrentVersion then .error .notIncreasing
  else if activeVersions metadata ≠ [expectedCurrentVersion] then .error .activeDiffers
  else if metadata.any fun row => row = (newVersion, .decryptOnly) then
    .ok (metadata.map (activateRow expectedCurrentVersion newVersion))
  else .error .notPreloaded

/-! ## What every later pod holds -/

/-- The database still needs this version. -/
def Required (metadata : Metadata) (version : Int16) : Prop :=
  ∃ status : KeyStatus, (version, status) ∈ metadata ∧ status.required

theorem required_stage {metadata : Metadata} {version : Int16} (required : Required metadata version)
    (staged : Int16) : Required (stage metadata staged) version := by
  obtain ⟨status, mem, needed⟩ := required
  refine ⟨status, ?_, needed⟩
  unfold stage
  split
  · exact mem
  · exact List.mem_append_left _ mem

theorem required_foldl_stage (staged : List Int16) : ∀ {metadata : Metadata} {version : Int16},
    Required metadata version → Required (staged.foldl stage metadata) version := by
  induction staged with
  | nil => exact fun required => required
  | cons first rest ih => exact fun required => ih (required_stage required first)

theorem required_of_active {metadata : Metadata} {version : Int16}
    (active : version ∈ activeVersions metadata) : Required metadata version := by
  obtain ⟨⟨found, status⟩, mem, rfl⟩ := List.mem_map.mp active
  simp only [List.mem_filter, decide_eq_true_eq] at mem
  obtain ⟨mem, rfl⟩ := mem
  exact ⟨.active, mem, rfl⟩

/-- Everything a successful reconciliation establishes. -/
structure Reconciled (before after : Metadata) (currentVersion : Int16)
    (localVersions : List Int16) : Prop where
  holds : ∀ version, Required before version → version ∈ localVersions
  keeps : ∀ version, Required before version → Required after version
  current : Required after currentVersion

theorem reconciled {before after : Metadata} {currentVersion : Int16} {localVersions : List Int16}
    (ok : reconcileRuntimeKeyring before currentVersion localVersions = .ok after) :
    Reconciled before after currentVersion localVersions := by
  unfold reconcileRuntimeKeyring at ok
  split at ok
  · cases ok
  split at ok
  · cases ok
  rename_i unique
  simp only [not_or, not_not] at unique
  split at ok
  · -- the first pod initializes the purpose
    rename_i empty
    cases ok
    subst empty
    refine ⟨?_, ?_, ⟨.active, ?_, rfl⟩⟩
    · rintro version ⟨status, mem, -⟩
      cases mem
    · rintro version ⟨status, mem, -⟩
      cases mem
    · exact List.mem_map.mpr ⟨currentVersion, unique.2.2, by simp⟩
  split at ok
  · cases ok
  split at ok
  · rename_i databaseActive active
    split at ok
    · cases ok
    rename_i configured
    split at ok
    · cases ok
    rename_i complete
    split at ok
    · cases ok
    simp only [ne_eq, not_not] at configured complete
    cases ok
    subst configured
    refine ⟨?_, fun version => required_foldl_stage _, required_foldl_stage _ ?_⟩
    · rintro version ⟨status, mem, needed⟩
      by_contra absent
      have lacking : version ∈ missingLocalVersions before localVersions := by
        refine List.mem_map.mpr ⟨(version, status), ?_, rfl⟩
        simp [mem, needed, absent]
      rw [complete] at lacking
      cases lacking
    · exact required_of_active (by rw [active]; exact List.mem_singleton_self _)
  · cases ok

theorem required_activateRow {row : Int16 × KeyStatus} (needed : row.2.required)
    (databaseActive newVersion : Int16) :
    (activateRow databaseActive newVersion row).1 = row.1 ∧
      (activateRow databaseActive newVersion row).2.required := by
  unfold activateRow
  split
  · exact ⟨rfl, rfl⟩
  split
  · exact ⟨rfl, rfl⟩
  · exact ⟨rfl, needed⟩

theorem activate_keeps {before after : Metadata} {expected newVersion version : Int16}
    (ok : activateRuntimeKeyVersion before expected newVersion = .ok after)
    (required : Required before version) : Required after version := by
  unfold activateRuntimeKeyVersion at ok
  split at ok
  · cases ok
  split at ok
  · cases ok
  split at ok
  · cases ok
    obtain ⟨status, mem, needed⟩ := required
    have needed : (version, status).2.required := needed
    obtain ⟨same, still⟩ := required_activateRow needed expected newVersion
    refine ⟨_, ?_, still⟩
    exact List.mem_map.mpr ⟨_, mem, Prod.ext same rfl⟩
  · cases ok

end SiliconIam.Postgres.KeyMetadata
