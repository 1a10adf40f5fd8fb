/-
# Applications.WebhookInvariants -- what every committed state keeps

`Sound` is the invariant of the webhook tables: every live endpoint has an
active key, an application has at most one pending endpoint, one secret goes
with one version, a row's digest is the digest of its URL, and an application
has a live endpoint exactly as long as it is not deleted.

The parts that an operation breaks between two of its statements are stated with
an exception (`Keyed bare`: every live endpoint but those in `bare`), and each
statement has one lemma: inserting an endpoint makes it bare, retiring its key
makes it bare, installing a key ends that.
-/
import SiliconIam.Applications.WebhookEffects

namespace SiliconIam.Applications

open SiliconIam.Theory

set_option autoImplicit false

variable {p : Platform} {s t : Store}

/-! ## Live endpoints have keys -/

/-- Every live endpoint outside `bare` has an active key. -/
def Keyed (bare : Nat → Prop) (s : Store) : Prop :=
  ∀ e ∈ s.endpoints, e.Live → ¬ bare e.id → ∃ k ∈ s.keys, k.endpoint = e.id ∧ k.status = .active

variable {f : Endpoint → Bool} {status : EndpointStatus} {row : Endpoint}

section Keyed

variable {bare other : Nat → Prop}

theorem Keyed.mono (keyed : Keyed bare s) (wider : ∀ i, bare i → other i) : Keyed other s :=
  fun e mem live apart => keyed e mem live fun held => apart (wider e.id held)

theorem Keyed.same_rows (keyed : Keyed bare s) (endpoints : t.endpoints = s.endpoints)
    (keys : t.keys = s.keys) : Keyed bare t := by
  unfold Keyed
  rw [endpoints, keys]
  exact keyed

theorem Keyed.retireEndpoints {off : status ≠ .active}
    (keyed : Keyed bare s) (dead : status ≠ .pendingReview) :
    Keyed bare (s.retireEndpoints f status off) := by
  intro e mem live apart
  obtain ⟨old, held, rfl⟩ := Store.mem_retireEndpoints.mp mem
  split at live
  · exact absurd live (not_or.mpr ⟨off, dead⟩)
  · rw [if_neg ‹_›] at apart ⊢
    exact keyed old held live apart

theorem Keyed.insertEndpoint (keyed : Keyed bare s)
    (done : s.insertEndpoint row = some t) : Keyed (fun i => bare i ∨ i = row.id) t := by
  obtain ⟨-, keys, -, endpoints⟩ := Store.insertEndpoint_spec done
  intro e mem live apart
  rw [not_or] at apart
  rw [keys]
  rcases (endpoints e).mp mem with rfl | old
  · exact absurd rfl apart.2
  · exact keyed e old live apart.1

theorem Keyed.upsertEndpoint (keyed : Keyed bare s)
    (done : s.upsertEndpoint row = some t) : Keyed (fun i => bare i ∨ i = row.id) t := by
  obtain ⟨-, keys, ⟨old, held, same, endpoints⟩ | ⟨-, endpoints⟩⟩ := Store.upsertEndpoint_spec done
  · intro e mem live apart
    rw [not_or] at apart
    rw [keys]
    rcases (endpoints e).mp mem with rfl | ⟨other, -⟩
    · exact absurd same apart.2
    · exact keyed e other live apart.1
  · intro e mem live apart
    rw [not_or] at apart
    rw [keys]
    rcases (endpoints e).mp mem with rfl | other
    · exact absurd rfl apart.2
    · exact keyed e other live apart.1

/-- An endpoint that goes active was live before. -/
theorem Keyed.activateEndpoint (keyed : Keyed bare s)
    (done : s.activateEndpoint f = some t) (live : ∀ e ∈ s.endpoints, f e = true → e.Live) :
    Keyed bare t := by
  obtain ⟨-, keys, endpoints⟩ := Store.activateEndpoint_spec done
  intro e mem alive apart
  obtain ⟨old, held, rfl⟩ := (endpoints e).mp mem
  rw [keys]
  split at alive
  · rw [if_pos ‹_›] at apart ⊢
    exact keyed old held (live old held ‹_›) apart
  · rw [if_neg ‹_›] at apart ⊢
    exact keyed old held alive apart

theorem Keyed.retireKeys {f : SigningKey → Bool} {status : KeyStatus} {off : status ≠ .active}
    (keyed : Keyed bare s)
    (covered : ∀ k ∈ s.keys, f k = true → ∀ e ∈ s.endpoints, e.Live → e.id = k.endpoint → bare e.id) :
    Keyed bare (s.retireKeys f status off) := by
  intro e mem live apart
  obtain ⟨k, held, at_, active⟩ := keyed e mem live apart
  refine ⟨k, Store.mem_retireKeys.mpr ⟨k, held, ?_⟩, at_, active⟩
  rw [if_neg]
  intro picked
  exact apart (covered k held picked e mem live at_.symm)

theorem Keyed.insertKey {row : SigningKey} (keyed : Keyed bare s)
    (done : s.insertKey row = some t) (active : row.status = .active) :
    Keyed (fun i => bare i ∧ i ≠ row.endpoint) t := by
  obtain ⟨-, endpoints, -, keys⟩ := Store.insertKey_spec done
  intro e mem live apart
  rw [endpoints] at mem
  by_cases here : e.id = row.endpoint
  · exact ⟨row, (keys row).mpr (.inl rfl), here.symm, active⟩
  · obtain ⟨k, held, at_, on⟩ := keyed e mem live fun held => apart ⟨held, here⟩
    exact ⟨k, (keys k).mpr (.inr held), at_, on⟩

end Keyed

/-! ## Pending endpoints -/

def OnePending (s : Store) : Prop :=
  ∀ e ∈ s.endpoints, ∀ f ∈ s.endpoints, e.application = f.application →
    e.status = .pendingReview → f.status = .pendingReview → e = f

/-- The application has no pending endpoint. -/
def NonePending (s : Store) (app : String) : Prop :=
  ∀ e ∈ s.endpoints, e.application = app → e.status ≠ .pendingReview

theorem OnePending.retireEndpoints
    {off : status ≠ .active} (one : OnePending s) (dead : status ≠ .pendingReview) :
    OnePending (s.retireEndpoints f status off) := by
  intro e mem g memG same on onG
  obtain ⟨old, held, rfl⟩ := Store.mem_retireEndpoints.mp mem
  obtain ⟨other, heldG, rfl⟩ := Store.mem_retireEndpoints.mp memG
  split at on
  · exact absurd on dead
  · split at onG
    · exact absurd onG dead
    · rw [if_neg ‹_›, if_neg ‹_›] at same ⊢
      exact one old held other heldG same on onG

theorem nonePending_retireEndpoints
    {off : status ≠ .active} {app : String} (dead : status ≠ .pendingReview)
    (all : ∀ e ∈ s.endpoints, e.application = app → e.status = .pendingReview → f e = true) :
    NonePending (s.retireEndpoints f status off) app := by
  intro e mem owner on
  obtain ⟨old, held, rfl⟩ := Store.mem_retireEndpoints.mp mem
  split at on
  · exact dead on
  · rw [if_neg ‹_›] at owner
    have picked := all old held owner on
    contradiction

/-- A pending endpoint is added where none is. -/
theorem OnePending.add (one : OnePending s)
    (none : row.status = .pendingReview → NonePending s row.application)
    (endpoints : ∀ e, e ∈ t.endpoints → e = row ∨ e ∈ s.endpoints) : OnePending t := by
  intro e mem f memF same on onF
  rcases endpoints e mem with rfl | old
  · rcases endpoints f memF with rfl | oldF
    · rfl
    · exact absurd onF (none on f oldF same.symm)
  · rcases endpoints f memF with rfl | oldF
    · exact absurd on (none onF e old same)
    · exact one e old f oldF same on onF

theorem OnePending.activateEndpoint (one : OnePending s)
    (done : s.activateEndpoint f = some t) : OnePending t := by
  obtain ⟨-, -, endpoints⟩ := Store.activateEndpoint_spec done
  intro e mem g memG same on onG
  obtain ⟨old, held, rfl⟩ := (endpoints e).mp mem
  obtain ⟨other, heldG, rfl⟩ := (endpoints g).mp memG
  split at on
  · cases on
  · split at onG
    · cases onG
    · rw [if_neg ‹_›, if_neg ‹_›] at same ⊢
      exact one old held other heldG same on onG

/-! ## Versions and secrets -/

/-- One version of an application, one secret. -/
def OneSecret (s : Store) : Prop :=
  ∀ k ∈ s.keys, ∀ l ∈ s.keys, k.application = l.application → k.secretVersion = l.secretVersion →
    k.secret = l.secret

theorem OneSecret.retireKeys {f : SigningKey → Bool} {status : KeyStatus} {off : status ≠ .active}
    (one : OneSecret s) : OneSecret (s.retireKeys f status off) := by
  intro k mem l memL sameApp sameVersion
  obtain ⟨old, held, rfl⟩ := Store.mem_retireKeys.mp mem
  obtain ⟨other, heldL, rfl⟩ := Store.mem_retireKeys.mp memL
  have equal := one old held other heldL
    (by split at sameApp <;> split at sameApp <;> exact sameApp)
    (by split at sameVersion <;> split at sameVersion <;> exact sameVersion)
  split <;> split <;> exact equal

theorem OneSecret.insertKey {row : SigningKey} (one : OneSecret s)
    (done : s.insertKey row = some t)
    (own : ∀ k ∈ s.keys, k.application = row.application →
      k.secretVersion = row.secretVersion → k.secret = row.secret) : OneSecret t := by
  obtain ⟨-, -, -, keys⟩ := Store.insertKey_spec done
  intro k mem l memL sameApp sameVersion
  rcases (keys k).mp mem with rfl | old
  · rcases (keys l).mp memL with rfl | oldL
    · rfl
    · exact (own l oldL sameApp.symm sameVersion.symm).symm
  · rcases (keys l).mp memL with rfl | oldL
    · exact own k old sameApp sameVersion
    · exact one k old l oldL sameApp sameVersion

/-- What never changes of a key once it is issued. -/
def SigningKey.issue (k : SigningKey) : SigningKey := { k with status := .active }

/-- No key is lost or reissued, and a new key has a version above every version its
application had. -/
structure Extends (s t : Store) : Prop where
  kept : ∀ old ∈ s.keys, ∃ k ∈ t.keys, k.issue = old.issue
  later : ∀ k ∈ t.keys, (∃ old ∈ s.keys, k.issue = old.issue) ∨
    ∀ old ∈ s.keys, old.application = k.application → old.secretVersion < k.secretVersion

theorem issue_fields {k l : SigningKey} (same : k.issue = l.issue) :
    k.id = l.id ∧ k.application = l.application ∧ k.endpoint = l.endpoint ∧
      k.secretVersion = l.secretVersion ∧ k.secret = l.secret := by
  simp only [SigningKey.issue, SigningKey.mk.injEq] at same
  exact ⟨same.1, same.2.1, same.2.2.1, same.2.2.2.1, same.2.2.2.2.1⟩

theorem Extends.of_keys (same : t.keys = s.keys) : Extends s t := by
  constructor
  · intro old mem
    exact ⟨old, same ▸ mem, rfl⟩
  · intro k mem
    exact .inl ⟨k, same ▸ mem, rfl⟩

theorem Extends.retireKeys {f : SigningKey → Bool} {status : KeyStatus} {off : status ≠ .active} :
    Extends s (s.retireKeys f status off) := by
  constructor
  · intro old mem
    refine ⟨_, Store.mem_retireKeys.mpr ⟨old, mem, rfl⟩, ?_⟩
    split <;> rfl
  · intro k mem
    obtain ⟨old, held, rfl⟩ := Store.mem_retireKeys.mp mem
    refine .inl ⟨old, held, ?_⟩
    split <;> rfl

/-- Keys are added above the versions there are. -/
theorem Extends.add {new : SigningKey → Prop} (keys : ∀ k, k ∈ t.keys ↔ new k ∨ k ∈ s.keys)
    (above : ∀ k, new k → ∀ old ∈ s.keys, old.application = k.application →
      old.secretVersion < k.secretVersion) : Extends s t := by
  constructor
  · intro old mem
    exact ⟨old, (keys old).mpr (.inr mem), rfl⟩
  · intro k mem
    rcases (keys k).mp mem with added | old
    · exact .inr (above k added)
    · exact .inl ⟨k, old, rfl⟩

theorem Extends.trans {u : Store} (first : Extends s t) (second : Extends t u) : Extends s u := by
  constructor
  · intro old mem
    obtain ⟨k, held, same⟩ := first.kept old mem
    obtain ⟨l, heldL, sameL⟩ := second.kept k held
    exact ⟨l, heldL, sameL.trans same⟩
  · intro k mem
    rcases second.later k mem with ⟨l, held, same⟩ | above
    · rcases first.later l held with ⟨old, heldOld, sameOld⟩ | above
      · exact .inl ⟨old, heldOld, same.trans sameOld⟩
      · obtain ⟨-, app, -, version, -⟩ := issue_fields same
        refine .inr fun old mem owner => ?_
        rw [version]
        exact above old mem (owner.trans app)
    · refine .inr fun old mem owner => ?_
      obtain ⟨l, held, same⟩ := first.kept old mem
      obtain ⟨-, app, -, version, -⟩ := issue_fields same
      rw [← version]
      exact above l held (app.trans owner)

/-! ## URLs and digests -/

def Digested (p : Platform) (s : Store) : Prop := ∀ e ∈ s.endpoints, e.urlDigest = p.sha256 e.url

theorem Digested.retireEndpoints
    {off : status ≠ .active} (digested : Digested p s) :
    Digested p (s.retireEndpoints f status off) := by
  intro e mem
  obtain ⟨old, held, rfl⟩ := Store.mem_retireEndpoints.mp mem
  split <;> exact digested old held

theorem Digested.activateEndpoint (digested : Digested p s)
    (done : s.activateEndpoint f = some t) : Digested p t := by
  obtain ⟨-, -, endpoints⟩ := Store.activateEndpoint_spec done
  intro e mem
  obtain ⟨old, held, rfl⟩ := (endpoints e).mp mem
  split <;> exact digested old held

theorem Digested.add (digested : Digested p s)
    (own : row.urlDigest = p.sha256 row.url)
    (endpoints : ∀ e, e ∈ t.endpoints → e = row ∨ e ∈ s.endpoints) : Digested p t := by
  intro e mem
  rcases endpoints e mem with rfl | old
  · exact own
  · exact digested e old

/-! ## The rows of other applications -/

/-- The rows of every application but `app` are the same. -/
structure Frame (app : String) (s t : Store) : Prop where
  applications : ∀ a : Application, a.id ≠ app → (a ∈ t.applications ↔ a ∈ s.applications)
  endpoints : ∀ e : Endpoint, e.application ≠ app → (e ∈ t.endpoints ↔ e ∈ s.endpoints)
  keys : ∀ k : SigningKey, k.application ≠ app → (k ∈ t.keys ↔ k ∈ s.keys)

section Frame

variable {app : String}

theorem Frame.refl (app : String) (s : Store) : Frame app s s :=
  ⟨fun _ _ => Iff.rfl, fun _ _ => Iff.rfl, fun _ _ => Iff.rfl⟩

theorem Frame.trans {u : Store} (first : Frame app s t) (second : Frame app t u) :
    Frame app s u :=
  ⟨fun a apart => (second.applications a apart).trans (first.applications a apart),
    fun e apart => (second.endpoints e apart).trans (first.endpoints e apart),
    fun k apart => (second.keys k apart).trans (first.keys k apart)⟩

theorem Frame.setApplication {set : Application → Application} {keeps : ∀ a, (set a).id = a.id} :
    Frame app s (s.setApplication app set keeps) := by
  refine ⟨fun a apart => ?_, fun _ _ => Iff.rfl, fun _ _ => Iff.rfl⟩
  rw [Store.mem_setApplication]
  constructor
  · rintro ⟨old, held, rfl⟩
    split at apart
    · exact absurd ((keeps old).trans ‹_›) apart
    · rwa [if_neg ‹_›]
  · intro held
    exact ⟨a, held, (if_neg apart).symm⟩

theorem Frame.insertApplication {row : Application} (done : s.insertApplication row = some t)
    (own : row.id = app) : Frame app s t := by
  obtain ⟨-, endpoints, keys, rows⟩ := Store.insertApplication_spec done
  refine ⟨fun a apart => ?_, fun e _ => by rw [endpoints], fun k _ => by rw [keys]⟩
  rw [rows]
  refine or_iff_right ?_
  rintro rfl
  exact apart own

theorem Frame.retireEndpoints
    {off : status ≠ .active} (own : ∀ e, f e = true → e.application = app) :
    Frame app s (s.retireEndpoints f status off) := by
  refine ⟨fun _ _ => Iff.rfl, fun e apart => ?_, fun _ _ => Iff.rfl⟩
  rw [Store.mem_retireEndpoints]
  constructor
  · rintro ⟨old, held, rfl⟩
    split at apart
    · exact absurd (own old ‹_›) apart
    · rwa [if_neg ‹_›]
  · intro held
    refine ⟨e, held, (if_neg fun picked => apart (own e picked)).symm⟩

theorem Frame.retireKeys {f : SigningKey → Bool} {status : KeyStatus} {off : status ≠ .active}
    (own : ∀ k ∈ s.keys, f k = true → k.application = app) :
    Frame app s (s.retireKeys f status off) := by
  refine ⟨fun _ _ => Iff.rfl, fun _ _ => Iff.rfl, fun k apart => ?_⟩
  rw [Store.mem_retireKeys]
  constructor
  · rintro ⟨old, held, rfl⟩
    split at apart
    · exact absurd (own old held ‹_›) apart
    · rwa [if_neg ‹_›]
  · intro held
    exact ⟨k, held, (if_neg fun picked => apart (own k held picked)).symm⟩

/-- Endpoints and keys of the application are added. -/
theorem Frame.add (applications : t.applications = s.applications)
    (endpoints : ∀ e : Endpoint, e.application ≠ app → (e ∈ t.endpoints ↔ e ∈ s.endpoints))
    (keys : ∀ k : SigningKey, k.application ≠ app → (k ∈ t.keys ↔ k ∈ s.keys)) : Frame app s t :=
  ⟨fun a _ => by rw [applications], endpoints, keys⟩

theorem Frame.insertEndpoint (done : s.insertEndpoint row = some t)
    (own : row.application = app) : Frame app s t := by
  obtain ⟨applications, keys, -, rows⟩ := Store.insertEndpoint_spec done
  refine .add applications (fun e apart => ?_) fun k _ => by rw [keys]
  rw [rows]
  refine or_iff_right ?_
  rintro rfl
  exact apart own

theorem Frame.insertKey {row : SigningKey} (done : s.insertKey row = some t)
    (own : row.application = app) : Frame app s t := by
  obtain ⟨applications, endpoints, -, rows⟩ := Store.insertKey_spec done
  refine .add applications (fun e _ => by rw [endpoints]) fun k apart => ?_
  rw [rows]
  refine or_iff_right ?_
  rintro rfl
  exact apart own

theorem Frame.activateEndpoint (done : s.activateEndpoint f = some t)
    (own : ∀ e ∈ s.endpoints, f e = true → e.application = app) : Frame app s t := by
  obtain ⟨applications, keys, rows⟩ := Store.activateEndpoint_spec done
  refine .add applications (fun e apart => ?_) fun k _ => by rw [keys]
  rw [rows]
  constructor
  · rintro ⟨old, held, rfl⟩
    split at apart
    · exact absurd (own old held ‹_›) apart
    · rwa [if_neg ‹_›]
  · intro held
    exact ⟨e, held, (if_neg fun picked => apart (own e held picked)).symm⟩

theorem Frame.upsertEndpoint (done : s.upsertEndpoint row = some t)
    (own : row.application = app)
    (taken : ∀ e ∈ s.endpoints, e.id = row.id → e.application = app) : Frame app s t := by
  obtain ⟨applications, keys, ⟨old, held, same, rows⟩ | ⟨-, rows⟩⟩ := Store.upsertEndpoint_spec done
  · refine .add applications (fun e apart => ?_) fun k _ => by rw [keys]
    rw [rows]
    constructor
    · rintro (rfl | ⟨mem, -⟩)
      · exact absurd (taken old held same) apart
      · exact mem
    · intro mem
      exact .inr ⟨mem, fun here => apart (taken e mem here)⟩
  · refine .add applications (fun e apart => ?_) fun k _ => by rw [keys]
    rw [rows]
    refine or_iff_right ?_
    rintro rfl
    exact apart own

end Frame

/-! ## Applications and their live endpoints -/

/-- An application has a live endpoint exactly as long as it is not deleted. -/
def Hosts (s : Store) : Prop :=
  ∀ a ∈ s.applications, a.deleted = false ↔ ∃ e ∈ s.endpoints, e.application = a.id ∧ e.Live

theorem Hosts.step {app : String} (hosts : Hosts s) (frame : Frame app s t)
    (own : ∀ a ∈ t.applications, a.id = app →
      (a.deleted = false ↔ ∃ e ∈ t.endpoints, e.application = app ∧ e.Live)) : Hosts t := by
  intro a mem
  by_cases same : a.id = app
  · rw [same]
    exact own a mem same
  · rw [hosts a ((frame.applications a same).mp mem)]
    constructor
    · rintro ⟨e, held, owner, live⟩
      exact ⟨e, (frame.endpoints e (owner ▸ same)).mpr held, owner, live⟩
    · rintro ⟨e, held, owner, live⟩
      exact ⟨e, (frame.endpoints e (owner ▸ same)).mp held, owner, live⟩

/-- The application's version goes up. -/
def Raised (app : String) (s t : Store) : Prop :=
  ∀ old ∈ s.applications, old.id = app → ∃ a ∈ t.applications, a.id = app ∧ old.version < a.version

theorem setApplication_raised {app : String} {set : Application → Application}
    {keeps : ∀ a, (set a).id = a.id} (same : t.applications = s.applications)
    (grows : ∀ a, a.version < (set a).version) : Raised app s (t.setApplication app set keeps) := by
  intro old held owner
  refine ⟨_, Store.mem_setApplication.mpr ⟨old, same ▸ held, rfl⟩, ?_⟩
  rw [if_pos owner]
  exact ⟨(keeps old).trans owner, grows old⟩

theorem bumpApplication_raised {app : String} (same : t.applications = s.applications) :
    Raised app s (bumpApplication t app) :=
  setApplication_raised same fun _ => Nat.lt_succ_self _

theorem Raised.trans {app : String} {u : Store} (first : Raised app s t) (second : Raised app t u) :
    Raised app s u := by
  intro old held owner
  obtain ⟨middle, memMiddle, here, less⟩ := first old held owner
  obtain ⟨a, mem, same, later⟩ := second middle memMiddle here
  exact ⟨a, mem, same, less.trans later⟩

/-- A bumped row is one from before, with its version raised. -/
theorem mem_bumpApplication {app : String} {a : Application}
    (mem : a ∈ (bumpApplication s app).applications) :
    ∃ old ∈ s.applications, a.id = old.id ∧ a.deleted = old.deleted := by
  obtain ⟨old, held, rfl⟩ := Store.mem_setApplication.mp mem
  refine ⟨old, held, ?_⟩
  split <;> exact ⟨rfl, rfl⟩

/-! ## The invariant -/

structure Sound (p : Platform) (s : Store) : Prop where
  keyed : Keyed (fun _ => False) s
  onePending : OnePending s
  oneSecret : OneSecret s
  digested : Digested p s
  hosts : Hosts s

theorem sound_empty (p : Platform) : Sound p Store.empty where
  keyed := fun _ mem => absurd mem Table.not_mem_empty
  onePending := fun _ mem => absurd mem Table.not_mem_empty
  oneSecret := fun _ mem => absurd mem Table.not_mem_empty
  digested := fun _ mem => absurd mem Table.not_mem_empty
  hosts := fun _ mem => absurd mem Table.not_mem_empty

/-- What a successful operation on `app` does. -/
structure Kept (p : Platform) (app : String) (s t : Store) : Prop where
  sound : Sound p t
  extends_ : Extends s t
  frame : Frame app s t
  raised : t = s ∨ Raised app s t

theorem Sound.bumpApplication {app : String} (sound : Sound p s) :
    Sound p (bumpApplication s app) where
  keyed := sound.keyed.same_rows rfl rfl
  onePending := sound.onePending
  oneSecret := sound.oneSecret
  digested := sound.digested
  hosts := by
    intro a mem
    obtain ⟨old, held, same, deleted⟩ := mem_bumpApplication mem
    rw [deleted, same]
    exact sound.hosts old held

end SiliconIam.Applications
