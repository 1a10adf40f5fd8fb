/-
# Applications.WebhookKeys -- signing keys over whole runs

Every request keeps `Sound` and extends the keys there are, so in every
committed state each live endpoint has exactly one active key, a version of an
application stands for one secret, and a key issued later has a larger version.
Two keys can carry one version: a rotation of the ordinary interface gives one
version to all its destinations on purpose, so that its answer names one version
(`version_shared`).

A rotation that is allowed succeeds in every state of a run in which the
application has a live endpoint: its version is above every version in use, so
no key it inserts can meet another.
-/
import SiliconIam.Applications.WebhookPreservation
import SiliconIam.Theory.Runs

namespace SiliconIam.Applications

open SiliconIam.Theory
open SiliconIam.Theory.Hex (Bytes)

set_option autoImplicit false

variable {p : Platform} {s t : Store}

/-- The committed state after a list of requests. -/
def committed (p : Platform) (requests : List Request) : Store :=
  Runs.after (next p) Store.empty requests

theorem sound_after {requests : List Request} (sound : Sound p s)
    (fresh : Runs.AllSteps (next p) Fresh s requests) :
    Sound p (Runs.after (next p) s requests) :=
  Runs.AllSteps.after (I := Sound p) (fun _ _ held step => (next_kept held step).sound) requests s sound fresh

theorem extends_after {requests : List Request} (sound : Sound p s)
    (fresh : Runs.AllSteps (next p) Fresh s requests) :
    Extends s (Runs.after (next p) s requests) :=
  Runs.allSteps_relates (I := Sound p) (R := Extends) (fun _ => .of_keys rfl) (fun _ _ _ first second => first.trans second)
    (fun _ _ held step => (next_kept held step).sound)
    (fun _ _ held step => (next_kept held step).extends_) requests s sound fresh

theorem sound_committed {requests : List Request}
    (fresh : Runs.AllSteps (next p) Fresh Store.empty requests) : Sound p (committed p requests) :=
  sound_after (sound_empty p) fresh

/-! ## Rotation succeeds -/

/-- A well-formed rotation by an authorized manager who names the current version. -/
structure Allowed (s : Store) (call : RotateCall) : Prop where
  secret : validSecret call.secret = true
  permitted : call.permitted = true
  stepUp : call.stepUp = true
  unused : Unused s call.generated
  version : ∃ a ∈ s.applications, a.id = call.application ∧ a.version = call.expected

/-- Every live endpoint of the application is signed for with the presented secret. -/
def Rekeyed (t : Store) (call : RotateCall) : Prop :=
  ∀ e ∈ t.endpoints, e.application = call.application → e.Live →
    ∃ k ∈ t.keys, k.endpoint = e.id ∧ k.status = .active ∧ k.secret = call.secret

variable {call : RotateCall}

theorem installed_of_allowed {endpoints : List Nat}
    {picked : SigningKey → Bool} {versionAt : Nat → Nat} (allowed : Allowed s call)
    (rotates : Rotates s call.application endpoints picked versionAt) :
    ∃ t, installKeys call.application call versionAt 0 endpoints
      (s.retireKeys picked .retiring (by decide)) = some t := by
  refine installKeys_of_free rotates.lists.distinct allowed.unused.injective ?_ ?_ ?_
  · intro i _ k mem
    obtain ⟨old, held, rfl⟩ := Store.mem_retireKeys.mp mem
    have unused := allowed.unused.keys i old held
    split <;> exact unused
  · intro e listed
    obtain ⟨row, held, same, owner, -⟩ := (rotates.lists.mem e).mp listed
    exact ⟨row, held, same, owner⟩
  · intro e listed k mem at_
    obtain ⟨old, held, rfl⟩ := Store.mem_retireKeys.mp mem
    have at_ : old.endpoint = e := by split at at_ <;> exact at_
    obtain ⟨row, rowMem, same, owner, -⟩ := (rotates.lists.mem e).mp listed
    obtain ⟨f, heldF, sameF, ownerF⟩ := s.valid.owned old held
    obtain rfl := s.endpoints.unique heldF rowMem ((sameF.trans at_).trans same.symm)
    have mine : old.application = call.application := ownerF.symm.trans owner
    have below : old.secretVersion ≤ s.latestSecretVersion call.application :=
      mine ▸ Store.le_latest held
    constructor
    · by_cases chosen : picked old = true
      · rw [if_pos chosen]
        exact nofun
      · rw [if_neg chosen]
        exact fun active => chosen (rotates.all old mine (at_ ▸ listed) active)
    · intro i _
      have above := rotates.above i
      split
      · show old.secretVersion ≠ versionAt i
        omega
      · omega

theorem rekeyed {endpoints : List Nat} {picked : SigningKey → Bool}
    {versionAt : Nat → Nat} (rotates : Rotates s call.application endpoints picked versionAt)
    (installed : installKeys call.application call versionAt 0 endpoints
      (s.retireKeys picked .retiring (by decide)) = some t) :
    Rekeyed (bumpApplication t call.application) call := by
  obtain ⟨-, sameE, rowsK⟩ := installKeys_spec installed
  intro e mem owner live
  have mem : e ∈ s.endpoints := by
    have mem : e ∈ t.endpoints := mem
    rwa [sameE] at mem
  have listed := (rotates.lists.mem e.id).mpr ⟨e, mem, rfl, owner, live⟩
  obtain ⟨j, at_⟩ := List.mem_iff_getElem?.mp listed
  exact ⟨_, (rowsK _).mpr (.inl ⟨j, e.id, at_, rfl⟩), rfl, rfl, rfl⟩

theorem listed_of_live {endpoints : List Nat}
    (lists : Lists s call.application endpoints)
    (served : ∃ e ∈ s.endpoints, e.application = call.application ∧ e.Live) : endpoints ≠ [] := by
  rintro rfl
  obtain ⟨e, mem, owner, live⟩ := served
  exact absurd ((lists.mem e.id).mpr ⟨e, mem, rfl, owner, live⟩) List.not_mem_nil

/-- The application of a live endpoint is not deleted, so its manager resolves it. -/
theorem resolved_of_live (sound : Sound p s) (allowed : Allowed s call)
    (served : ∃ e ∈ s.endpoints, e.application = call.application ∧ e.Live) :
    ∃ a, resolveApp s call.permitted call.application = .ok a ∧ a.id = call.application ∧
      a.version = call.expected := by
  obtain ⟨a, mem, same, version⟩ := allowed.version
  have kept : a.deleted = false := (sound.hosts a mem).mpr (same ▸ served)
  refine ⟨a, ?_, same, version⟩
  rw [allowed.permitted, ← same]
  exact resolveApp_of_mem mem kept

theorem rotateSecret_succeeds (sound : Sound p s) (allowed : Allowed s call)
    (served : ∃ e ∈ s.endpoints, e.application = call.application ∧ e.Live) :
    ∃ t, rotateSecret s call = .ok t ∧ Rekeyed t call := by
  have rotates := rotates_direct s call.application
  obtain ⟨a, resolved, same, version⟩ := resolved_of_live sound allowed served
  obtain ⟨s₁, installed⟩ := installed_of_allowed allowed rotates
  refine ⟨bumpApplication s₁ call.application, ?_, rekeyed rotates installed⟩
  refine bind_ok.mpr ⟨(), require_ok.mpr allowed.secret, ?_⟩
  refine bind_ok.mpr ⟨a, resolved, ?_⟩
  rw [same]
  refine bind_ok.mpr ⟨(), require_ok.mpr version, ?_⟩
  refine bind_ok.mpr ⟨(), require_ok.mpr allowed.stepUp, ?_⟩
  refine bind_ok.mpr ⟨(), require_ok.mpr (listed_of_live rotates.lists served), ?_⟩
  exact bind_ok.mpr ⟨s₁, orElse_ok.mpr installed, return_ok.mpr rfl⟩

theorem rotate_succeeds (sound : Sound p s) (allowed : Allowed s call)
    (served : ∃ e ∈ s.endpoints, e.application = call.application ∧ e.Live) :
    ∃ t, rotate s call = .ok t ∧ Rekeyed t call := by
  have rotates := rotates_managed s call.application
  obtain ⟨a, resolved, same, version⟩ := resolved_of_live sound allowed served
  obtain ⟨s₁, installed⟩ := installed_of_allowed allowed rotates
  refine ⟨bumpApplication s₁ call.application, ?_, rekeyed rotates installed⟩
  refine bind_ok.mpr ⟨(), require_ok.mpr allowed.secret, ?_⟩
  refine bind_ok.mpr ⟨a, resolved, ?_⟩
  rw [same]
  refine bind_ok.mpr ⟨(), require_ok.mpr version, ?_⟩
  refine bind_ok.mpr ⟨(), require_ok.mpr allowed.stepUp, ?_⟩
  refine bind_ok.mpr ⟨(), require_ok.mpr (listed_of_live rotates.lists served), ?_⟩
  exact bind_ok.mpr ⟨s₁, orElse_ok.mpr installed, return_ok.mpr rfl⟩

/-! ## A run with an active endpoint and a pending replacement -/

theorem unused_from {base : Nat} (endpoints : ∀ e ∈ s.endpoints, e.id < base)
    (keys : ∀ k ∈ s.keys, k.id < base) : Unused s fun i => base + i := by
  refine ⟨fun i j same => ?_, fun i e mem => ?_, fun i k mem => ?_⟩
  · omega
  · have := endpoints e mem
    omega
  · have := keys k mem
    omega

theorem fresh_from {base : Nat} {request : Request}
    (draws : request.generated = some fun i => base + i)
    (below : (∀ e ∈ s.endpoints, e.id < base) ∧ ∀ k ∈ s.keys, k.id < base) : Fresh s request := by
  intro generated drawn
  rw [draws] at drawn
  obtain rfl := Option.some.inj drawn
  exact unused_from below.1 below.2

theorem fresh_none {request : Request} (draws : request.generated = none) : Fresh s request := by
  intro generated drawn
  rw [draws] at drawn
  cases drawn

/-- Two destinations and their SHA-256 digests. -/
def firstUrl : String := "https://hooks.example/first"

def secondUrl : String := "https://hooks.example/second"

def secondDigest : Bytes :=
  [113, 90, 26, 136, 7, 0, 55, 0, 196, 147, 183, 20, 73, 178, 172, 234, 219, 64, 240, 60, 232, 233,
    172, 81, 242, 191, 78, 175, 2, 30, 0, 119]

def firstDigest : Bytes :=
  [165, 215, 38, 202, 207, 80, 17, 173, 94, 25, 129, 245, 208, 161, 94, 202, 194, 166, 132, 149, 90,
    234, 219, 118, 197, 246, 92, 110, 123, 152, 14, 99]

/-- The production service, for these two destinations. -/
def production : Platform where
  testing := false
  sha256 := fun url => if url = secondUrl then secondDigest else firstDigest
  webhookUrl := fun _ => .ok ()

def firstSecret : String := "caller-owned-webhook-secret-00001"

def secondSecret : String := "caller-owned-webhook-secret-00002"

def thirdSecret : String := "caller-owned-webhook-secret-00003"

/-- An application is created and approved, and a replacement is proposed. -/
def replacing : List Request :=
  [.create ⟨"org>app", firstUrl, firstSecret, true, true, fun i => 0 + i, 1⟩,
    .approve ⟨"org>app", 2, (0, firstUrl), true, true⟩,
    .replace ⟨"org>app", 3, secondUrl, some secondSecret, true, .ok (), fun i => 10 + i, "", 2⟩]

def rotation : RotateCall := ⟨"org>app", 4, thirdSecret, true, true, fun i => 20 + i, 3⟩

theorem replacing_fresh : Runs.AllSteps (next production) Fresh Store.empty replacing :=
  ⟨fresh_from rfl (by decide +kernel), fresh_none rfl, fresh_from rfl (by decide +kernel), trivial⟩

/-- A direct rotation gives its one version to two keys. -/
theorem version_shared :
    Runs.AllSteps (next production) Fresh Store.empty (replacing ++ [.rotateSecret rotation]) ∧
      ∃ k ∈ (committed production (replacing ++ [.rotateSecret rotation])).keys,
        ∃ l ∈ (committed production (replacing ++ [.rotateSecret rotation])).keys,
          k.id ≠ l.id ∧ k.application = l.application ∧ k.secretVersion = l.secretVersion := by
  constructor
  · rw [Runs.allSteps_append]
    exact ⟨replacing_fresh, fresh_from rfl (by decide +kernel), trivial⟩
  · decide +kernel

/-- Keys over every run, and the success of every allowed rotation. -/
theorem signing_keys (p : Platform) (requests : List Request)
    (fresh : Runs.AllSteps (next p) Fresh Store.empty requests) :
    (∀ e ∈ (committed p requests).endpoints, e.Live →
      ∃! k, k ∈ (committed p requests).keys ∧ k.endpoint = e.id ∧ k.status = .active) ∧
    (∀ k ∈ (committed p requests).keys, ∀ l ∈ (committed p requests).keys,
      k.application = l.application → k.secretVersion = l.secretVersion →
        k.secret = l.secret ∧ (k.endpoint = l.endpoint → k = l)) ∧
    (∀ more, Runs.AllSteps (next p) Fresh (committed p requests) more →
      Extends (committed p requests) (committed p (requests ++ more))) ∧
    ∀ call, Allowed (committed p requests) call →
      (∃ e ∈ (committed p requests).endpoints, e.application = call.application ∧ e.Live) →
      (∃ t, rotateSecret (committed p requests) call = .ok t ∧ Rekeyed t call) ∧
      ∃ t, rotate (committed p requests) call = .ok t ∧ Rekeyed t call := by
  have sound := sound_committed fresh
  have valid := (committed p requests).valid
  refine ⟨fun e mem live => ?_, fun k mem l memL sameApp version => ⟨?_, ?_⟩, fun more later => ?_,
    fun call allowed served => ⟨?_, ?_⟩⟩
  · obtain ⟨k, held, at_, active⟩ := sound.keyed e mem live id
    refine ⟨k, ⟨held, at_, active⟩, ?_⟩
    rintro l ⟨heldL, atL, activeL⟩
    exact valid.oneActiveKey l heldL k held (atL.trans at_.symm) activeL active
  · exact sound.oneSecret k mem l memL sameApp version
  · exact fun at_ => valid.versions k mem l memL at_ version
  · have extended := extends_after sound later
    rwa [committed, committed, Runs.after_append]
  · exact rotateSecret_succeeds sound allowed served
  · exact rotate_succeeds sound allowed served

/-- The rotation while an endpoint is active and its replacement pending. -/
theorem signing_keys_replacing :
    (∃ e ∈ (committed production replacing).endpoints, e.status = .active ∧ e.url = firstUrl) ∧
      (∃ e ∈ (committed production replacing).endpoints,
        e.status = .pendingReview ∧ e.url = secondUrl) ∧
      (∃ t, rotateSecret (committed production replacing) rotation = .ok t ∧ Rekeyed t rotation) ∧
      ∃ t, rotate (committed production replacing) rotation = .ok t ∧ Rekeyed t rotation := by
  have allowed : Allowed (committed production replacing) rotation :=
    ⟨by decide +kernel, rfl, rfl, unused_from (by decide +kernel) (by decide +kernel),
      by decide +kernel⟩
  obtain ⟨-, -, -, succeeds⟩ := signing_keys production replacing replacing_fresh
  exact ⟨by decide +kernel, by decide +kernel, succeeds rotation allowed (by decide +kernel)⟩

end SiliconIam.Applications
