/-
# Applications.WebhookTables -- webhook destinations and their signing keys

The rows that decide where the events of an application go: the application
itself (its version is what a caller names), its webhook endpoints and the
keys that sign for each endpoint.  A `Store` holds the three tables together
with the constraints the database enforces on them: one URL digest and one
active endpoint for an application, one `secretVersion` and one active key for
an endpoint, and a key belongs to an endpoint of its own application.

Statements that only take rows out of use cannot break a constraint and are
total (`retireEndpoints`, `retireKeys`).  Statements that put a row in use
answer `none` where the database reports a unique violation.  Each statement has
one membership lemma, and the operations are only ever read through these.
-/
import SiliconIam.Theory.Hex
import SiliconIam.Theory.Table
import Mathlib.Data.List.MinMax
import Mathlib.Data.Prod.Lex

namespace SiliconIam.Applications

open SiliconIam.Theory
open SiliconIam.Theory.Hex (Bytes)

set_option autoImplicit false

inductive ReviewStatus where
  | underReview
  | verified
  | rejected
  | suspended
  | deleted
deriving DecidableEq

inductive EndpointStatus where
  | pendingReview
  | active
  | disabled
  | retired
deriving DecidableEq

inductive KeyStatus where
  | active
  | retiring
  | retired
  | compromised
deriving DecidableEq

/-- `deleted` stands for `deleted_at IS NOT NULL`. -/
structure Application where
  id : String
  reviewStatus : ReviewStatus
  visibilityPublic : Bool
  deleted : Bool
  configurationRevision : Nat
  version : Nat
deriving DecidableEq

structure Endpoint where
  id : Nat
  application : String
  url : String
  urlDigest : Bytes
  status : EndpointStatus
  createdAt : Nat
deriving DecidableEq

structure SigningKey where
  id : Nat
  application : String
  endpoint : Nat
  secretVersion : Nat
  secret : String
  status : KeyStatus
  createdAt : Nat
deriving DecidableEq

/-- `status IN ('active', 'pending_review')`. -/
def Endpoint.Live (e : Endpoint) : Prop := e.status = .active ∨ e.status = .pendingReview

instance (e : Endpoint) : Decidable e.Live := inferInstanceAs (Decidable (_ ∨ _))

/-- The constraints and unique indexes over endpoints and keys. -/
structure Constraints (applications : Table Application.id) (endpoints : Table Endpoint.id)
    (keys : Table SigningKey.id) : Prop where
  registered : ∀ e ∈ endpoints, ∃ a ∈ applications, a.id = e.application
  urls : ∀ e ∈ endpoints, ∀ f ∈ endpoints,
    e.application = f.application → e.urlDigest = f.urlDigest → e = f
  oneActive : ∀ e ∈ endpoints, ∀ f ∈ endpoints,
    e.application = f.application → e.status = .active → f.status = .active → e = f
  owned : ∀ k ∈ keys, ∃ e ∈ endpoints, e.id = k.endpoint ∧ e.application = k.application
  versions : ∀ k ∈ keys, ∀ l ∈ keys,
    k.endpoint = l.endpoint → k.secretVersion = l.secretVersion → k = l
  oneActiveKey : ∀ k ∈ keys, ∀ l ∈ keys,
    k.endpoint = l.endpoint → k.status = .active → l.status = .active → k = l

instance (applications : Table Application.id) (endpoints : Table Endpoint.id)
    (keys : Table SigningKey.id) : Decidable (Constraints applications endpoints keys) :=
  decidable_of_iff
    ((∀ e ∈ endpoints, ∃ a ∈ applications, a.id = e.application) ∧
      (∀ e ∈ endpoints, ∀ f ∈ endpoints,
        e.application = f.application → e.urlDigest = f.urlDigest → e = f) ∧
      (∀ e ∈ endpoints, ∀ f ∈ endpoints,
        e.application = f.application → e.status = .active → f.status = .active → e = f) ∧
      (∀ k ∈ keys, ∃ e ∈ endpoints, e.id = k.endpoint ∧ e.application = k.application) ∧
      (∀ k ∈ keys, ∀ l ∈ keys,
        k.endpoint = l.endpoint → k.secretVersion = l.secretVersion → k = l) ∧
      ∀ k ∈ keys, ∀ l ∈ keys,
        k.endpoint = l.endpoint → k.status = .active → l.status = .active → k = l)
    ⟨fun ⟨a, b, c, d, e, f⟩ => ⟨a, b, c, d, e, f⟩, fun ⟨a, b, c, d, e, f⟩ => ⟨a, b, c, d, e, f⟩⟩

structure Store where
  applications : Table Application.id
  endpoints : Table Endpoint.id
  keys : Table SigningKey.id
  valid : Constraints applications endpoints keys

namespace Store

def empty : Store where
  applications := .empty _
  endpoints := .empty _
  keys := .empty _
  valid := by decide

/-! ## Queries -/

/-- The applications a `resolve_*` query can return: not deleted. -/
def application? (s : Store) (app : String) : Option Application :=
  s.applications.find? fun a => a.id = app ∧ a.deleted = false

def endpointsOf (s : Store) (app : String) : List Endpoint :=
  s.endpoints.rows.filter fun e => e.application = app

def keysOf (s : Store) (app : String) : List SigningKey :=
  s.keys.rows.filter fun k => k.application = app

/-- `SELECT COALESCE(MAX(secret_version), 0)`. -/
def latestSecretVersion (s : Store) (app : String) : Nat :=
  ((s.keysOf app).map SigningKey.secretVersion).foldr max 0

def nextSigningSecretVersion (s : Store) (app : String) : Nat := s.latestSecretVersion app + 1

/-- `ORDER BY created_at DESC, id DESC LIMIT 1` among the pending endpoints. -/
def pendingEndpointForApproval (s : Store) (app : String) : Option Endpoint :=
  ((s.endpointsOf app).filter fun e => e.status = .pendingReview).argmax
    fun e => toLex (e.createdAt, e.id)

/-- The first row of this status that `load_webhook` meets, newest first. -/
def loadedUrl (s : Store) (app : String) (status : EndpointStatus) : Option String :=
  (((s.endpointsOf app).filter fun e => e.status = status).argmax Endpoint.createdAt).map
    Endpoint.url

/-- Usable keys of live endpoints: the active endpoint's first, then the newest. -/
def replacementSigningKey (s : Store) (app : String) : Option SigningKey :=
  ((s.keysOf app).filter fun k => (k.status = .active ∨ k.status = .retiring) ∧
      ∃ e ∈ s.endpoints, e.id = k.endpoint ∧ e.Live).argmax
    fun k => toLex
      (if s.endpoints.any fun e => e.id = k.endpoint ∧ e.status = .active then 1 else 0,
        k.createdAt)

theorem application?_spec {s : Store} {app : String} {a : Application}
    (found : s.application? app = some a) : a ∈ s.applications ∧ a.id = app ∧ a.deleted = false := by
  obtain ⟨mem, holds⟩ := Table.find?_spec found
  exact ⟨mem, of_decide_eq_true holds⟩

theorem application?_of_mem {s : Store} {a : Application} (mem : a ∈ s.applications)
    (kept : a.deleted = false) : s.application? a.id = some a := by
  refine Table.find?_eq_some_of_key mem (decide_eq_true ⟨rfl, kept⟩) fun other _ holds => ?_
  exact (of_decide_eq_true holds).1

theorem mem_endpointsOf {s : Store} {app : String} {e : Endpoint} :
    e ∈ s.endpointsOf app ↔ e ∈ s.endpoints ∧ e.application = app := by
  rw [endpointsOf, List.mem_filter, decide_eq_true_iff]
  exact Iff.rfl

theorem mem_keysOf {s : Store} {app : String} {k : SigningKey} :
    k ∈ s.keysOf app ↔ k ∈ s.keys ∧ k.application = app := by
  rw [keysOf, List.mem_filter, decide_eq_true_iff]
  exact Iff.rfl

theorem le_latest {s : Store} {k : SigningKey} (mem : k ∈ s.keys) :
    k.secretVersion ≤ s.latestSecretVersion k.application := by
  have listed : k.secretVersion ∈ (s.keysOf k.application).map SigningKey.secretVersion :=
    List.mem_map.mpr ⟨k, mem_keysOf.mpr ⟨mem, rfl⟩, rfl⟩
  rw [latestSecretVersion]
  generalize (s.keysOf k.application).map SigningKey.secretVersion = versions at listed
  induction versions with
  | nil => exact absurd listed List.not_mem_nil
  | cons first rest ih =>
      rw [List.foldr_cons]
      rcases List.mem_cons.mp listed with same | later
      · omega
      · have := ih later
        omega

theorem pendingEndpoint_spec {s : Store} {app : String} {e : Endpoint}
    (found : s.pendingEndpointForApproval app = some e) :
    e ∈ s.endpoints ∧ e.application = app ∧ e.status = .pendingReview := by
  have mem := List.argmax_mem (Option.mem_def.mpr found)
  obtain ⟨listed, status⟩ := List.mem_filter.mp mem
  obtain ⟨held, owner⟩ := mem_endpointsOf.mp listed
  exact ⟨held, owner, of_decide_eq_true status⟩

theorem loadedUrl_spec {s : Store} {app url : String} {status : EndpointStatus}
    (loaded : s.loadedUrl app status = some url) :
    ∃ e ∈ s.endpoints, e.application = app ∧ e.status = status ∧ e.url = url := by
  obtain ⟨e, found, same⟩ := Option.map_eq_some_iff.mp loaded
  obtain ⟨listed, holds⟩ := List.mem_filter.mp (List.argmax_mem (Option.mem_def.mpr found))
  obtain ⟨held, owner⟩ := mem_endpointsOf.mp listed
  exact ⟨e, held, owner, of_decide_eq_true holds, same⟩

/-! ## Statements -/

/-- `UPDATE iam.applications SET … WHERE id = app`. -/
def setApplication (s : Store) (app : String) (set : Application → Application)
    (keeps : ∀ a, (set a).id = a.id) : Store where
  applications := s.applications.update (fun a => a.id = app) set keeps
  endpoints := s.endpoints
  keys := s.keys
  valid := { s.valid with
    registered := by
      intro e mem
      obtain ⟨a, held, same⟩ := s.valid.registered e mem
      refine ⟨_, Table.mem_update_of_mem keeps held, ?_⟩
      split
      · exact (keeps a).trans same
      · exact same }

def insertApplication (s : Store) (row : Application) : Option Store :=
  match inserted : s.applications.insert row with
  | none => none
  | some applications => some
      { s with
        applications
        valid := { s.valid with
          registered := by
            intro e mem
            obtain ⟨a, held, same⟩ := s.valid.registered e mem
            exact ⟨a, ((Table.insert_spec inserted).2 a).mpr (.inr held), same⟩ } }

/-- `UPDATE … SET status` of the endpoints that meet `p`, to a status out of use. -/
def retireEndpoints (s : Store) (p : Endpoint → Bool) (status : EndpointStatus)
    (off : status ≠ .active) : Store where
  applications := s.applications
  endpoints := s.endpoints.update p (fun e => { e with status }) fun _ => rfl
  keys := s.keys
  valid := by
    constructor
    · intro e mem
      obtain ⟨old, held, rfl⟩ := Table.mem_update.mp mem
      obtain ⟨a, listed, same⟩ := s.valid.registered old held
      exact ⟨a, listed, by split <;> exact same⟩
    · intro e mem f memF sameApp sameUrl
      obtain ⟨old, held, rfl⟩ := Table.mem_update.mp mem
      obtain ⟨other, heldF, rfl⟩ := Table.mem_update.mp memF
      rw [s.valid.urls old held other heldF (by split at sameApp <;> split at sameApp <;> exact sameApp)
        (by split at sameUrl <;> split at sameUrl <;> exact sameUrl)]
    · intro e mem f memF sameApp on onF
      obtain ⟨old, held, rfl⟩ := Table.mem_update.mp mem
      obtain ⟨other, heldF, rfl⟩ := Table.mem_update.mp memF
      split at on
      · exact absurd on off
      · split at onF
        · exact absurd onF off
        · rw [if_neg ‹_›, if_neg ‹_›] at sameApp ⊢
          exact s.valid.oneActive old held other heldF sameApp on onF
    · intro k mem
      obtain ⟨e, held, same, owner⟩ := s.valid.owned k mem
      refine ⟨_, Table.mem_update.mpr ⟨e, held, rfl⟩, ?_⟩
      split <;> exact ⟨same, owner⟩
    · exact s.valid.versions
    · exact s.valid.oneActiveKey

/-- `UPDATE … SET status` of the keys that meet `p`, to a status out of use. -/
def retireKeys (s : Store) (p : SigningKey → Bool) (status : KeyStatus)
    (off : status ≠ .active) : Store where
  applications := s.applications
  endpoints := s.endpoints
  keys := s.keys.update p (fun k => { k with status }) fun _ => rfl
  valid := { s.valid with
    owned := by
      intro k mem
      obtain ⟨old, held, rfl⟩ := Table.mem_update.mp mem
      obtain ⟨e, listed, same, owner⟩ := s.valid.owned old held
      exact ⟨e, listed, by split <;> exact ⟨same, owner⟩⟩
    versions := by
      intro k mem l memL sameEndpoint sameVersion
      obtain ⟨old, held, rfl⟩ := Table.mem_update.mp mem
      obtain ⟨other, heldL, rfl⟩ := Table.mem_update.mp memL
      rw [s.valid.versions old held other heldL
        (by split at sameEndpoint <;> split at sameEndpoint <;> exact sameEndpoint)
        (by split at sameVersion <;> split at sameVersion <;> exact sameVersion)]
    oneActiveKey := by
      intro k mem l memL sameEndpoint on onL
      obtain ⟨old, held, rfl⟩ := Table.mem_update.mp mem
      obtain ⟨other, heldL, rfl⟩ := Table.mem_update.mp memL
      split at on
      · exact absurd on off
      · split at onL
        · exact absurd onL off
        · rw [if_neg ‹_›, if_neg ‹_›] at sameEndpoint ⊢
          exact s.valid.oneActiveKey old held other heldL sameEndpoint on onL }

/-- A statement whose result the database checks. -/
def checked (s : Store) (endpoints : Table Endpoint.id) (keys : Table SigningKey.id) :
    Option Store :=
  if valid : Constraints s.applications endpoints keys then
    some { s with endpoints, keys, valid }
  else none

def insertEndpoint (s : Store) (row : Endpoint) : Option Store :=
  (s.endpoints.insert row).bind fun endpoints => s.checked endpoints s.keys

/-- `UPDATE … SET status = 'active'` of the endpoints that meet `p`. -/
def activateEndpoint (s : Store) (p : Endpoint → Bool) : Option Store :=
  s.checked (s.endpoints.update p (fun e => { e with status := .active }) fun _ => rfl) s.keys

/-- `INSERT … ON CONFLICT (id) DO UPDATE`: the row of that identifier is pointed at the
URL again and pending; its digest and creation time stay. -/
def upsertEndpoint (s : Store) (row : Endpoint) : Option Store :=
  if s.endpoints.any fun e => e.id = row.id then
    s.checked
      (s.endpoints.update (fun e => e.id = row.id)
        (fun e => { e with url := row.url, status := row.status }) fun _ => rfl)
      s.keys
  else s.insertEndpoint row

def insertKey (s : Store) (row : SigningKey) : Option Store :=
  (s.keys.insert row).bind fun keys => s.checked s.endpoints keys

/-! ### What a statement leaves -/

section Statements

variable {s t : Store} {app : String}

theorem mem_setApplication {set : Application → Application} {keeps : ∀ a, (set a).id = a.id}
    {a : Application} :
    a ∈ (s.setApplication app set keeps).applications ↔
      ∃ old ∈ s.applications, a = if old.id = app then set old else old := by
  simp only [setApplication, Table.mem_update, decide_eq_true_eq]

theorem insertApplication_spec {row : Application} (done : s.insertApplication row = some t) :
    (∀ a ∈ s.applications, a.id ≠ row.id) ∧ t.endpoints = s.endpoints ∧ t.keys = s.keys ∧
      ∀ a, a ∈ t.applications ↔ a = row ∨ a ∈ s.applications := by
  unfold insertApplication at done
  split at done
  · cases done
  · rename_i applications inserted
    obtain rfl := Option.some.inj done
    obtain ⟨free, mem⟩ := Table.insert_spec inserted
    exact ⟨free, rfl, rfl, mem⟩

section Retire

variable {p : Endpoint → Bool} {status : EndpointStatus} {off : status ≠ .active}

theorem mem_retireEndpoints {e : Endpoint} :
    e ∈ (s.retireEndpoints p status off).endpoints ↔
      ∃ old ∈ s.endpoints, e = if p old then { old with status } else old :=
  Table.Updated.mem rfl

@[simp] theorem retireEndpoints_keys : (s.retireEndpoints p status off).keys = s.keys := rfl

end Retire

section RetireKeys

variable {p : SigningKey → Bool} {status : KeyStatus} {off : status ≠ .active}

theorem mem_retireKeys {k : SigningKey} :
    k ∈ (s.retireKeys p status off).keys ↔
      ∃ old ∈ s.keys, k = if p old then { old with status } else old :=
  Table.Updated.mem rfl

end RetireKeys

theorem checked_spec {endpoints : Table Endpoint.id} {keys : Table SigningKey.id}
    (done : s.checked endpoints keys = some t) :
    t.applications = s.applications ∧ t.endpoints = endpoints ∧ t.keys = keys := by
  unfold checked at done
  split at done
  · obtain rfl := Option.some.inj done
    exact ⟨rfl, rfl, rfl⟩
  · cases done

theorem checked_of_valid {endpoints : Table Endpoint.id} {keys : Table SigningKey.id}
    (valid : Constraints s.applications endpoints keys) : ∃ t, s.checked endpoints keys = some t :=
  ⟨_, dif_pos valid⟩

theorem insertEndpoint_spec {row : Endpoint} (done : s.insertEndpoint row = some t) :
    t.applications = s.applications ∧ t.keys = s.keys ∧ (∀ e ∈ s.endpoints, e.id ≠ row.id) ∧
      ∀ e, e ∈ t.endpoints ↔ e = row ∨ e ∈ s.endpoints := by
  obtain ⟨endpoints, inserted, done⟩ := Option.bind_eq_some_iff.mp done
  obtain ⟨free, mem⟩ := Table.insert_spec inserted
  obtain ⟨sameA, rfl, sameK⟩ := checked_spec done
  exact ⟨sameA, sameK, free, mem⟩

theorem insertKey_spec {row : SigningKey} (done : s.insertKey row = some t) :
    t.applications = s.applications ∧ t.endpoints = s.endpoints ∧ (∀ k ∈ s.keys, k.id ≠ row.id) ∧
      ∀ k, k ∈ t.keys ↔ k = row ∨ k ∈ s.keys := by
  obtain ⟨keys, inserted, done⟩ := Option.bind_eq_some_iff.mp done
  obtain ⟨free, mem⟩ := Table.insert_spec inserted
  obtain ⟨sameA, sameE, rfl⟩ := checked_spec done
  exact ⟨sameA, sameE, free, mem⟩

theorem activateEndpoint_spec {p : Endpoint → Bool} (done : s.activateEndpoint p = some t) :
    t.applications = s.applications ∧ t.keys = s.keys ∧
      ∀ e, e ∈ t.endpoints ↔
        ∃ old ∈ s.endpoints, e = if p old then { old with status := .active } else old := by
  obtain ⟨sameA, same, sameK⟩ := checked_spec done
  refine ⟨sameA, sameK, fun e => ?_⟩
  rw [same]
  exact Table.mem_update

theorem upsertEndpoint_spec {row : Endpoint} (done : s.upsertEndpoint row = some t) :
    t.applications = s.applications ∧ t.keys = s.keys ∧
      ((∃ old ∈ s.endpoints, old.id = row.id ∧ ∀ e, e ∈ t.endpoints ↔
          e = { old with url := row.url, status := row.status } ∨ (e ∈ s.endpoints ∧ e.id ≠ row.id)) ∨
        ((∀ e ∈ s.endpoints, e.id ≠ row.id) ∧ ∀ e, e ∈ t.endpoints ↔ e = row ∨ e ∈ s.endpoints)) := by
  unfold upsertEndpoint at done
  split at done
  · rename_i taken
    obtain ⟨old, held, same⟩ := Table.any_spec taken
    have same : old.id = row.id := of_decide_eq_true same
    obtain ⟨sameA, sameE, sameK⟩ := checked_spec done
    refine ⟨sameA, sameK, .inl ⟨old, held, same, fun e => ?_⟩⟩
    rw [sameE, Table.mem_update]
    constructor
    · rintro ⟨other, mem, rfl⟩
      by_cases picked : other.id = row.id
      · rw [s.endpoints.unique mem held (picked.trans same.symm)]
        exact .inl (by simp [same])
      · exact .inr (by simpa [picked] using mem)
    · rintro (rfl | ⟨mem, differs⟩)
      · exact ⟨old, held, by simp [same]⟩
      · exact ⟨e, mem, by simp [differs]⟩
  · obtain ⟨sameA, sameK, free, mem⟩ := insertEndpoint_spec done
    exact ⟨sameA, sameK, .inr ⟨free, mem⟩⟩

end Statements

end Store

end SiliconIam.Applications
