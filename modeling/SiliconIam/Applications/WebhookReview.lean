/-
# Applications.WebhookReview -- which destination receives events

What the review of webhook destinations guarantees over whole runs.  An
application has at most one active and at most one pending endpoint.  In
production an endpoint goes active only through a stepped-up approval, and the
version it names is one at which that endpoint, URL and key were pending in
every state of the run (`aged`: rows of an application change only together with
its version).  A testing plane has no reviewer: creation and replacement
activate there at once.

A replacement always leaves the named URL and secret as the destination, and so
does a configuration whose URL is not the active one under a pending
replacement.  A configuration is accepted whatever URL it names; a different
secret for a URL in place is refused, since that is a rotation.  A replacement
is accepted for every URL the application has no row for.
-/
import SiliconIam.Applications.WebhookKeys

namespace SiliconIam.Applications

open SiliconIam.Theory

set_option autoImplicit false

variable {p : Platform} {s t : Store}

/-! ## Versions and rows -/

/-- The rows of one application are the same. -/
structure SameRows (app : String) (s t : Store) : Prop where
  endpoints : ∀ e : Endpoint, e.application = app → (e ∈ t.endpoints ↔ e ∈ s.endpoints)
  keys : ∀ k : SigningKey, k.application = app → (k ∈ t.keys ↔ k ∈ s.keys)

theorem SameRows.refl (app : String) (s : Store) : SameRows app s s :=
  ⟨fun _ _ => Iff.rfl, fun _ _ => Iff.rfl⟩

variable {app : String}

theorem SameRows.trans {u : Store} (first : SameRows app s t)
    (second : SameRows app t u) : SameRows app s u :=
  ⟨fun e owner => (second.endpoints e owner).trans (first.endpoints e owner),
    fun k owner => (second.keys k owner).trans (first.keys k owner)⟩

/-- The version does not go down, and while it stays the rows stay. -/
def Aged (app : String) (s t : Store) : Prop :=
  ∀ a ∈ s.applications, a.id = app → ∃ b ∈ t.applications, b.id = app ∧
    a.version ≤ b.version ∧ (a.version = b.version → SameRows app s t)

theorem Aged.refl (app : String) (s : Store) : Aged app s s :=
  fun a mem same => ⟨a, mem, same, Nat.le_refl _, fun _ => .refl app s⟩

theorem Aged.trans {u : Store} (first : Aged app s t) (second : Aged app t u) :
    Aged app s u := by
  intro a mem same
  obtain ⟨b, memB, sameB, less, rows⟩ := first a mem same
  obtain ⟨c, memC, sameC, later, rowsLater⟩ := second b memB sameB
  refine ⟨c, memC, sameC, less.trans later, fun equal => ?_⟩
  exact (rows (by omega)).trans (rowsLater (by omega))

theorem Kept.aged (kept : Kept p app s t) (other : String) : Aged other s t := by
  intro a mem same
  by_cases own : other = app
  · rcases kept.raised with rfl | raised
    · exact Aged.refl other t a mem same
    · obtain ⟨b, memB, sameB, less⟩ := raised a mem (same.trans own)
      exact ⟨b, memB, sameB.trans own.symm, less.le, fun equal => absurd equal less.ne⟩
  · refine ⟨a, (kept.frame.applications a (same ▸ own)).mpr mem, same, Nat.le_refl _, fun _ => ?_⟩
    exact ⟨fun e owner => kept.frame.endpoints e (owner ▸ own),
      fun k owner => kept.frame.keys k (owner ▸ own)⟩

theorem aged_after {requests : List Request} (app : String) (sound : Sound p s)
    (fresh : Runs.AllSteps (next p) Fresh s requests) :
    Aged app s (Runs.after (next p) s requests) :=
  Runs.allSteps_relates (I := Sound p) (R := Aged app) (Aged.refl app)
    (fun _ _ _ first second => first.trans second)
    (fun _ _ held step => (next_kept held step).sound)
    (fun _ _ held step => (next_kept held step).aged app) requests s sound fresh

/-! ## Activation -/

/-- The application and the version that a stepped-up approval names. -/
def Request.approves : Request → Option (String × Nat)
  | .approve call => if call.stepUp then some (call.application, call.expected) else none
  | .webhookApproval call =>
      if call.stepUp then some (call.application, call.expectedIamRevision) else none
  | _ => none

/-- What a testing plane activates without a review: its own creation or replacement. -/
def Request.activates : Request → Option (Nat × String)
  | .create call => some (call.generated 0, call.url)
  | .replace call => some (call.generated 0, call.url)
  | _ => none

/-- The endpoint is the pending one, and this key signs for it. -/
structure PendingAt (s : Store) (e : Endpoint) (k : SigningKey) : Prop where
  endpoint : { e with status := .pendingReview } ∈ s.endpoints
  key : k ∈ s.keys
  signs : k.endpoint = e.id ∧ k.status = .active

/-- A row that is not active before and active after was approved, or put in by a
testing plane. -/
def WentActive (s : Store) (e : Endpoint) : Prop :=
  e.status = .active ∧ ∀ old ∈ s.endpoints, old.id = e.id → old.status ≠ .active

variable {e : Endpoint}

theorem Activated.pending {version : Nat} {pending : Endpoint}
    (activated : Activated s t app version pending) (mem : e ∈ t.endpoints)
    (went : WentActive s e) :
    e = { pending with status := .active } := by
  obtain ⟨-, rows⟩ := activated.endpoints
  obtain ⟨old, held, rfl⟩ := (rows e).mp mem
  obtain ⟨active, before⟩ := went
  split at active
  · rename_i here
    rw [if_pos here, s.endpoints.unique held activated.mem here]
  · rename_i apart
    rw [if_neg apart] at before
    split at active
    · cases active
    · rename_i spared
      rw [if_neg spared] at before
      exact absurd active (before old held rfl)

theorem not_wentActive_retired {f : Endpoint → Bool} {status : EndpointStatus}
    {off : status ≠ .active} (mem : e ∈ (s.retireEndpoints f status off).endpoints) :
    ¬ WentActive s e := by
  rintro ⟨active, before⟩
  obtain ⟨old, held, rfl⟩ := Store.mem_retireEndpoints.mp mem
  split at active
  · exact off active
  · rename_i spared
    rw [if_neg spared] at before
    exact before old held rfl active

theorem not_wentActive_of_mem (mem : e ∈ s.endpoints) : ¬ WentActive s e :=
  fun went => went.2 e mem rfl went.1

theorem Configured.not_wentActive {webhook : Webhook} {generated : Nat → Nat}
    {now : Nat} (configured : Configured p s t app webhook generated now)
    (mem : e ∈ t.endpoints) : ¬ WentActive s e := by
  cases configured with
  | unchanged current memC owner digest live presented same =>
      subst same
      exact not_wentActive_of_mem mem
  | changed secret presented dead endpoint known s₁ upserted installed =>
      obtain ⟨-, sameE, -⟩ := Store.insertKey_spec installed
      rw [sameE] at mem
      rcases upserted_rows upserted e mem with old | ⟨-, -, status, -⟩
      · exact not_wentActive_retired old
      · intro went
        have active := went.1
        rw [status] at active
        cases active

/-- Who can have activated an endpoint, and that it was the pending one. -/
theorem activated_by {request : Request} (done : handle p s request = .ok t)
    (mem : e ∈ t.endpoints) (went : WentActive s e) :
    (∃ version, request.approves = some (e.application, version) ∧
        (∃ a ∈ s.applications, a.id = e.application ∧ a.version = version) ∧
        { e with status := .pendingReview } ∈ s.endpoints ∧ t.keys = s.keys) ∨
      p.testing = true ∧ request.activates = some (e.id, e.url) := by
  have approved : ∀ {app : String} {version : Nat} {pending : Endpoint},
      Activated s t app version pending → e.application = app ∧
        (∃ a ∈ s.applications, a.id = app ∧ a.version = version) ∧
        { e with status := .pendingReview } ∈ s.endpoints ∧ t.keys = s.keys := by
    intro app version pending activated
    obtain ⟨a, memA, same, -, named⟩ := activated.application
    obtain rfl := activated.pending mem went
    refine ⟨activated.owner, ⟨a, memA, same, named⟩, ?_, activated.endpoints.1⟩
    rw [← activated.status]
    exact activated.mem
  cases request with
  | create call =>
      obtain ⟨s₁, s₂, registered, inserted, keyed⟩ := create_effect done
      obtain ⟨-, sameE, -⟩ := Store.insertApplication_spec registered
      obtain ⟨-, -, -, rowsE⟩ := Store.insertEndpoint_spec inserted
      obtain ⟨-, sameE₂, -⟩ := Store.insertKey_spec keyed
      rw [sameE₂, rowsE, sameE] at mem
      rcases mem with rfl | old
      · refine .inr ⟨?_, rfl⟩
        cases testing : p.testing with
        | true => rfl
        | false => exact absurd went.1 (by simp [createdEndpoint, testing])
      · exact absurd went (not_wentActive_of_mem old)
  | replace call =>
      obtain ⟨a, oldKey, s₁, s₂, -, -, -, -, inserted, keyed, rfl⟩ := replace_effect done
      obtain ⟨-, -, -, rowsE⟩ := Store.insertEndpoint_spec inserted
      obtain ⟨-, sameE₂, -⟩ := Store.insertKey_spec keyed
      have mem : e ∈ s₂.endpoints := mem
      rw [sameE₂, rowsE] at mem
      rcases mem with rfl | old
      · refine .inr ⟨?_, rfl⟩
        cases testing : p.testing with
        | true => rfl
        | false => exact absurd went.1 (by simp [replacementEndpoint, testing])
      · exact absurd went (not_wentActive_retired old)
  | approve call =>
      obtain ⟨stepUp, pending, -, activated⟩ := approve_effect done
      obtain ⟨owner, rest⟩ := approved activated
      exact .inl ⟨call.expected, by simp [Request.approves, stepUp, owner], owner ▸ rest⟩
  | webhookApproval call =>
      obtain ⟨stepUp, pending, -, activated⟩ := webhookApproval_effect done
      obtain ⟨owner, rest⟩ := approved activated
      exact .inl ⟨call.expectedIamRevision, by simp [Request.approves, stepUp, owner], owner ▸ rest⟩
  | rotateSecret call =>
      obtain ⟨-, s₁, installed, rfl⟩ := rotateSecret_effect done
      have mem : e ∈ s₁.endpoints := mem
      rw [(installKeys_spec installed).2.1] at mem
      exact absurd went (not_wentActive_of_mem mem)
  | rotate call =>
      obtain ⟨-, s₁, installed, rfl⟩ := rotate_effect done
      have mem : e ∈ s₁.endpoints := mem
      rw [(installKeys_spec installed).2.1] at mem
      exact absurd went (not_wentActive_of_mem mem)
  | configure call =>
      rcases configure_effect done with rfl | ⟨s₀, s₁, ⟨rfl, -⟩ | registered, configured, rfl⟩
      · exact absurd went (not_wentActive_of_mem mem)
      · exact absurd went (configured.not_wentActive (s := prepared s₀ call) mem)
      · obtain ⟨-, sameE, -⟩ := Store.insertApplication_spec registered
        refine absurd ?_ (configured.not_wentActive (s := prepared s₀ call) mem)
        exact ⟨went.1, fun old held => went.2 old (sameE ▸ held)⟩
  | activate call =>
      obtain ⟨s₁, -, configured, rfl⟩ := activate_effect done
      exact absurd went (configured.not_wentActive (s := prepared s call) mem)
  | delete call =>
      obtain rfl := delete_effect done
      have retired : e ∈ (((markDeleted s call.application).retireKeys
          (compromisedKey call.application) .compromised (by decide)).retireEndpoints
          (fun e => e.application = call.application ∧ e.Live) .disabled (by decide)).endpoints := mem
      have stays := not_wentActive_retired retired
      exact absurd went stays
  | revise call =>
      obtain rfl := Except.ok.inj done
      exact absurd went (not_wentActive_of_mem mem)

/-! ## The destination -/

/-- Two URLs with one SHA-256 digest. -/
def Collision (p : Platform) (url other : String) : Prop :=
  url ≠ other ∧ p.sha256 url = p.sha256 other

/-- The endpoint that receives events once reviewed: the pending one, or the active
one when nothing is pending. -/
def Receives (s : Store) (e : Endpoint) : Prop :=
  e.status = .pendingReview ∨ (e.status = .active ∧ NonePending s e.application)

/-- That endpoint is at the URL and is signed for with the presented secret. -/
def Destination (p : Platform) (s : Store) (app url : String) (secret : Option String) : Prop :=
  ∃ e ∈ s.endpoints, e.application = app ∧ Receives s e ∧ (e.url = url ∨ Collision p e.url url) ∧
    ∃ k ∈ s.keys, k.endpoint = e.id ∧ k.status = .active ∧
      ∀ presented, secret = some presented → k.secret = presented

theorem replace_destination {call : ReplaceCall} (done : replace p s call = .ok t) :
    Destination p t call.application call.url call.secret := by
  obtain ⟨a, oldKey, s₁, s₂, -, -, -, -, inserted, keyed, rfl⟩ := replace_effect done
  obtain ⟨-, -, -, rowsE⟩ := Store.insertEndpoint_spec inserted
  obtain ⟨-, sameE, -, rowsK⟩ := Store.insertKey_spec keyed
  refine ⟨replacementEndpoint p call, ?_, rfl, ?_, .inl rfl, _, (rowsK _).mpr (.inl rfl), rfl, rfl, ?_⟩
  · show replacementEndpoint p call ∈ s₂.endpoints
    rw [sameE]
    exact (rowsE _).mpr (.inl rfl)
  · cases testing : p.testing with
    | false => exact .inl (by simp [replacementEndpoint, testing])
    | true =>
        refine .inr ⟨by simp [replacementEndpoint, testing], fun e mem owner => ?_⟩
        have mem : e ∈ s₂.endpoints := mem
        rw [sameE, rowsE] at mem
        rcases mem with rfl | old
        · simp [replacementEndpoint, testing]
        · refine nonePending_retireEndpoints (by decide) (fun f _ ownerF status => ?_) e old owner
          exact decide_eq_true ⟨ownerF, .inl status⟩
  · intro presented supplied
    simp [replacementKey, replacementSecret, supplied]

/-- The named URL is the active one and another endpoint is pending. -/
def UnderReplacement (p : Platform) (s : Store) (app url : String) : Prop :=
  (∃ e ∈ s.endpoints, e.application = app ∧ e.status = .active ∧ e.urlDigest = p.sha256 url) ∧
    ¬ NonePending s app

theorem url_or_collision (digested : Digested p s) {url : String}
    (mem : e ∈ s.endpoints) (digest : e.urlDigest = p.sha256 url) : e.url = url ∨ Collision p e.url url := by
  by_cases same : e.url = url
  · exact .inl same
  · exact .inr ⟨same, (digested e mem).symm.trans digest⟩

theorem Configured.destination {webhook : Webhook} {generated : Nat → Nat}
    {now : Nat} (keyed : Keyed (fun _ => False) s) (digested : Digested p s)
    (unused : ∀ e ∈ s.endpoints, e.id ≠ generated 0)
    (configured : Configured p s t app webhook generated now)
    (apart : ¬ UnderReplacement p s app webhook.url) :
    Destination p t app webhook.url webhook.secret := by
  cases configured with
  | unchanged current mem owner digest live presented same =>
      subst same
      refine ⟨current, mem, owner, ?_, url_or_collision digested mem digest, ?_⟩
      · rcases live with active | pending
        · refine .inr ⟨active, ?_⟩
          rw [owner]
          by_contra some
          exact apart ⟨⟨current, mem, owner, active, digest⟩, some⟩
        · exact .inl pending
      · cases given : webhook.secret with
        | none =>
            obtain ⟨k, held, at_, active⟩ := keyed current mem live id
            exact ⟨k, held, at_, active, nofun⟩
        | some secret =>
            obtain ⟨k, held, at_, active, equal⟩ := presented secret given
            refine ⟨k, held, at_, active, ?_⟩
            intro other same
            exact equal.trans (Option.some.inj same)
  | changed secret presented dead endpoint known s₁ upserted installed =>
      obtain ⟨-, sameE, -, rowsK⟩ := Store.insertKey_spec installed
      obtain ⟨row, mem, same, url, status⟩ := upserted_mem upserted
      have own : OwnRow s₁ app (p.sha256 webhook.url) endpoint :=
        (ownRow_of_known unused (known.imp_right And.right)).retireEndpoints.upserted upserted
      have owner : row.application = app := (own row mem same).1
      refine ⟨row, sameE ▸ mem, owner, .inl status, .inl url, _, (rowsK _).mpr (.inl rfl), same.symm,
        rfl, ?_⟩
      intro other given
      exact Option.some.inj (presented.symm.trans given)

/-! ## Acceptance -/

theorem Store.insertEndpoint_of_free (row : Endpoint) (unused : ∀ e ∈ s.endpoints, e.id ≠ row.id)
    (registered : ∃ a ∈ s.applications, a.id = row.application)
    (url : ∀ e ∈ s.endpoints, e.application = row.application → e.urlDigest ≠ row.urlDigest)
    (active : row.status = .active →
      ∀ e ∈ s.endpoints, e.application = row.application → e.status ≠ .active) :
    ∃ t, s.insertEndpoint row = some t := by
  obtain ⟨endpoints, inserted⟩ := Table.insert_of_free unused
  obtain ⟨-, mem⟩ := Table.insert_spec inserted
  have valid : Constraints s.applications endpoints s.keys :=
    { s.valid with
      registered := by
        intro e held
        rcases (mem e).mp held with rfl | old
        · exact registered
        · exact s.valid.registered e old
      urls := by
        intro e held f heldF same digest
        rcases (mem e).mp held with rfl | old
        · rcases (mem f).mp heldF with rfl | oldF
          · rfl
          · exact absurd digest.symm (url f oldF same.symm)
        · rcases (mem f).mp heldF with rfl | oldF
          · exact absurd digest (url e old same)
          · exact s.valid.urls e old f oldF same digest
      oneActive := by
        intro e held f heldF same on onF
        rcases (mem e).mp held with rfl | old
        · rcases (mem f).mp heldF with rfl | oldF
          · rfl
          · exact absurd onF (active on f oldF same.symm)
        · rcases (mem f).mp heldF with rfl | oldF
          · exact absurd on (active onF e old same)
          · exact s.valid.oneActive e old f oldF same on onF
      owned := by
        intro k held
        obtain ⟨e, old, same⟩ := s.valid.owned k held
        exact ⟨e, (mem e).mpr (.inr old), same⟩ }
  obtain ⟨t, done⟩ := Store.checked_of_valid valid
  exact ⟨t, by rw [Store.insertEndpoint, inserted]; exact done⟩

/-- A row that is not made active can be written again at its own URL. -/
theorem Store.upsertEndpoint_of_known (row old : Endpoint) (held : old ∈ s.endpoints)
    (same : old.id = row.id) (off : row.status ≠ .active) : ∃ t, s.upsertEndpoint row = some t := by
  have taken : (s.endpoints.any fun e => e.id = row.id) = true :=
    Table.any_eq_true.mpr ⟨old, held, decide_eq_true same⟩
  rw [Store.upsertEndpoint, if_pos taken]
  refine Store.checked_of_valid ?_
  constructor
  · intro e mem
    obtain ⟨older, heldE, rfl⟩ := Table.mem_update.mp mem
    obtain ⟨a, listed, sameA⟩ := s.valid.registered older heldE
    exact ⟨a, listed, by split <;> exact sameA⟩
  · intro e mem f memF sameApp sameUrl
    obtain ⟨older, heldE, rfl⟩ := Table.mem_update.mp mem
    obtain ⟨other, heldF, rfl⟩ := Table.mem_update.mp memF
    rw [s.valid.urls older heldE other heldF
      (by split at sameApp <;> split at sameApp <;> exact sameApp)
      (by split at sameUrl <;> split at sameUrl <;> exact sameUrl)]
  · intro e mem f memF sameApp on onF
    obtain ⟨older, heldE, rfl⟩ := Table.mem_update.mp mem
    obtain ⟨other, heldF, rfl⟩ := Table.mem_update.mp memF
    split at on
    · exact absurd on off
    · split at onF
      · exact absurd onF off
      · rw [if_neg ‹_›, if_neg ‹_›] at sameApp ⊢
        exact s.valid.oneActive older heldE other heldF sameApp on onF
  · intro k mem
    obtain ⟨e, heldE, sameId, owner⟩ := s.valid.owned k mem
    refine ⟨_, Table.mem_update.mpr ⟨e, heldE, rfl⟩, ?_⟩
    split <;> exact ⟨sameId, owner⟩
  · exact s.valid.versions
  · exact s.valid.oneActiveKey

/-- A presented secret of a destination in place that is not the one in use. -/
def AnotherSecret (p : Platform) (s : Store) (app url secret : String) : Prop :=
  ∃ e ∈ s.endpoints, e.application = app ∧ e.urlDigest = p.sha256 url ∧ e.Live ∧
    ∃ k ∈ s.keys, k.endpoint = e.id ∧ k.status = .active ∧ k.secret ≠ secret

/-- A destination in place is confirmed, or refused for its secret. -/
theorem presentedSecret_total (keyed : Keyed (fun _ => False) s) {current : Endpoint}
    (mem : current ∈ s.endpoints) (live : current.Live) (secret : String) :
    presentedSecret s current (some secret) = .ok () ∨
      presentedSecret s current (some secret) =
          .error (.conflict "webhook_secret_rotation_required") ∧
        ∃ k ∈ s.keys, k.endpoint = current.id ∧ k.status = .active ∧ k.secret ≠ secret := by
  obtain ⟨k, held, at_, active⟩ := keyed current mem live id
  have found : (s.keys.find? fun k => k.endpoint = current.id ∧ k.status = .active) = some k := by
    refine Table.find?_eq_some_of_key held (decide_eq_true ⟨at_, active⟩) fun l heldL picked => ?_
    obtain ⟨atL, activeL⟩ := of_decide_eq_true picked
    rw [s.valid.oneActiveKey l heldL k held (atL.trans at_.symm) activeL active]
  by_cases equal : k.secret = secret
  · exact .inl (bind_ok.mpr ⟨k, orElse_ok.mpr found, require_ok.mpr equal⟩)
  · refine .inr ⟨?_, k, held, at_, active, equal⟩
    rw [presentedSecret, found]
    show require (k.secret = secret) _ = _
    rw [require, if_neg equal]

theorem destinationEndpoint_known (s : Store) (app url : String) (fresh : Nat) :
    (∃ e ∈ s.endpoints, e.id = destinationEndpoint p s app url fresh ∧ e.application = app ∧
      e.urlDigest = p.sha256 url) ∨ destinationEndpoint p s app url fresh = fresh := by
  unfold destinationEndpoint
  cases known : s.endpoints.find? fun e => e.application = app ∧ e.urlDigest = p.sha256 url with
  | none => exact .inr rfl
  | some e =>
      obtain ⟨mem, picked⟩ := Table.find?_spec known
      exact .inl ⟨e, mem, rfl, of_decide_eq_true picked⟩

theorem configureWebhook_total (app secret url : String) {generated : Nat → Nat} (now : Nat)
    (keyed : Keyed (fun _ => False) s) (unused : Unused s generated)
    (present : ∃ a ∈ s.applications, a.id = app) :
    (∃ t, configureWebhook p s app ⟨url, some secret⟩ generated now = .ok t) ∨
      configureWebhook p s app ⟨url, some secret⟩ generated now =
          .error (.conflict "webhook_secret_rotation_required") ∧
        AnotherSecret p s app url secret := by
  unfold configureWebhook
  split
  · rename_i current found
    obtain ⟨mem, picked⟩ := Table.find?_spec found
    obtain ⟨owner, digest, live⟩ := of_decide_eq_true picked
    rcases presentedSecret_total keyed mem live secret with accepted | ⟨refused, k, held, at_, on, differs⟩
    · exact .inl ⟨s, bind_ok.mpr ⟨(), accepted, rfl⟩⟩
    · refine .inr ⟨?_, current, mem, owner, digest, live, k, held, at_, on, differs⟩
      show (presentedSecret s current (some secret) >>= _) = _
      rw [refused]
      rfl
  · refine .inl ?_
    have upsertable : ∃ s₁, (s.retireEndpoints
        (fun e => e.application = app ∧ e.status = .pendingReview) .retired (by decide)).upsertEndpoint
          (configuredEndpoint p app url (destinationEndpoint p s app url (generated 0)) now) =
            some s₁ := by
      unfold destinationEndpoint
      cases known : s.endpoints.find? fun e =>
          e.application = app ∧ e.urlDigest = p.sha256 url with
      | some e =>
          obtain ⟨mem, picked⟩ := Table.find?_spec known
          refine Store.upsertEndpoint_of_known _ _ (Store.mem_retireEndpoints.mpr ⟨e, mem, rfl⟩) ?_ nofun
          split <;> rfl
      | none =>
          have free : ∀ e ∈ (s.retireEndpoints (fun e => e.application = app ∧
              e.status = .pendingReview) .retired (by decide)).endpoints, e.id ≠ generated 0 ∧
              (e.application = app → e.urlDigest ≠ p.sha256 url) := by
            intro e mem
            obtain ⟨old, held, rfl⟩ := Store.mem_retireEndpoints.mp mem
            have apart := unused.endpoints 0 old held
            have other : old.application = app → old.urlDigest ≠ p.sha256 url := fun owner digest =>
              List.find?_eq_none.mp known old held (decide_eq_true ⟨owner, digest⟩)
            split <;> exact ⟨apart, other⟩
          rw [Store.upsertEndpoint, if_neg]
          · exact Store.insertEndpoint_of_free _ (fun e mem => (free e mem).1) present
              (fun e mem owner => (free e mem).2 owner) nofun
          · intro taken
            obtain ⟨e, mem, here⟩ := Table.any_spec taken
            exact (free e mem).1 (of_decide_eq_true here)
    obtain ⟨s₁, upserted⟩ := upsertable
    obtain ⟨-, sameK, -⟩ := Store.upsertEndpoint_spec upserted
    obtain ⟨row, rowMem, rowId, -, -⟩ := upserted_mem upserted
    have own : OwnRow s₁ app (p.sha256 url) (destinationEndpoint p s app url (generated 0)) :=
      (ownRow_of_known (unused.endpoints 0) (destinationEndpoint_known s app url _)).retireEndpoints.upserted
        upserted
    have owner : row.application = app := (own row rowMem rowId).1
    have insertable := Store.insertKey_of_free (s := s₁.retireKeys
      (fun k => k.endpoint = destinationEndpoint p s app url (generated 0) ∧
        (k.status = .active ∨ k.status = .retiring)) .retired (by decide))
      (configuredKey app secret (destinationEndpoint p s app url (generated 0)) (generated 1)
        ((s₁.retireKeys (fun k => k.endpoint = destinationEndpoint p s app url (generated 0) ∧
          (k.status = .active ∨ k.status = .retiring)) .retired
          (by decide)).nextSigningSecretVersion app) now)
      (fun k mem => by
        obtain ⟨old, held, rfl⟩ := Store.mem_retireKeys.mp mem
        rw [sameK] at held
        have apart := unused.keys 1 old held
        split <;> exact apart)
      ⟨row, rowMem, rowId, owner⟩
      (fun k mem at_ => by
        have below := Store.le_latest mem
        obtain ⟨e, held, same, ownerE⟩ := (s₁.retireKeys _ _ _).valid.owned k mem
        obtain rfl := s₁.endpoints.unique held rowMem ((same.trans at_).trans rowId.symm)
        rw [← ownerE, owner] at below
        exact Nat.ne_of_lt (Nat.lt_succ_of_le below))
      (fun k mem at_ active => by
        obtain ⟨old, held, rfl⟩ := Store.mem_retireKeys.mp mem
        split at active
        · cases active
        · rename_i spared
          rw [if_neg spared] at at_
          exact spared (decide_eq_true ⟨at_, .inl active⟩))
    obtain ⟨t, keyed⟩ := insertable
    refine ⟨t, bind_ok.mpr ⟨secret, rfl, ?_⟩⟩
    exact bind_ok.mpr ⟨s₁, orElse_ok.mpr upserted, orElse_ok.mpr keyed⟩

/-- A private configuration of an application that is there, allowed in every other
respect, that presents a signing secret. -/
structure Configurable (p : Platform) (s : Store) (call : ConfigureCall) (secret : String) : Prop where
  revision : 0 < call.configurationRevision
  url : p.webhookUrl call.webhook.url = .ok ()
  presented : call.webhook.secret = some secret
  valid : validSecret secret = true
  permitted : call.permitted = true
  unlisted : call.visibilityPublic = false
  applied : call.applied = .ok ()
  unused : Unused s call.generated
  current : ∃ a ∈ s.applications, a.id = call.application ∧ a.deleted = false ∧
    a.configurationRevision < call.configurationRevision ∧ a.version = call.expectedIamRevision

theorem configure_total {call : ConfigureCall} {secret : String} (sound : Sound p s)
    (configurable : Configurable p s call secret) :
    (∃ t, configure p s call = .ok t) ∨
      configure p s call = .error (.conflict "webhook_secret_rotation_required") ∧
        AnotherSecret p s call.application call.webhook.url secret := by
  obtain ⟨a, mem, same, kept, revision, version⟩ := configurable.current
  have validated : validateConfiguration p call = .ok () := by
    refine bind_ok.mpr ⟨(), require_ok.mpr configurable.revision, bind_ok.mpr ⟨(), ?_, ?_⟩⟩
    · rw [validateUrl, configurable.url]
      rfl
    · rw [configurable.presented]
      exact require_ok.mpr configurable.valid
  have reduced : configure p s call = applyConfiguration p s call := by
    have found := Store.application?_of_mem mem kept
    rw [same] at found
    rw [configure, validated, require, if_pos configurable.permitted, found]
    show (require (a.configurationRevision < call.configurationRevision) _ >>= fun _ =>
      require (a.version = call.expectedIamRevision) _ >>= fun _ => _) = _
    rw [require, if_pos revision, require, if_pos version, configurable.unlisted]
    rfl
  have applied : applyConfiguration p s call =
      (configureWebhook p (prepared s call) call.application call.webhook call.generated call.now >>=
        fun s₁ => .ok (revised s₁ call)) := by
    rw [applyConfiguration, configurable.applied]
    rfl
  have webhook : call.webhook = ⟨call.webhook.url, some secret⟩ := by
    rw [← configurable.presented]
  have total := configureWebhook_total (p := p) (s := prepared s call) call.application
    secret call.webhook.url call.now (sound.keyed.same_rows rfl rfl)
    ⟨configurable.unused.injective, configurable.unused.endpoints, configurable.unused.keys⟩
    ⟨_, Store.mem_setApplication.mpr ⟨a, mem, rfl⟩, by rw [if_pos same]; exact same⟩
  rw [reduced, applied, webhook]
  rcases total with ⟨t, accepted⟩ | ⟨refused, another⟩
  · exact .inl ⟨revised t call, bind_ok.mpr ⟨t, accepted, rfl⟩⟩
  · refine .inr ⟨?_, another⟩
    rw [refused]
    rfl

/-- A replacement that is allowed in every respect but perhaps its URL and secret. -/
structure Replaceable (p : Platform) (s : Store) (call : ReplaceCall) : Prop where
  url : p.webhookUrl call.url = .ok ()
  valid : optionalWebhookSecret call.secret = .ok ()
  permitted : call.permitted = true
  resolves : call.resolves = .ok ()
  unused : Unused s call.generated
  current : ∃ a ∈ s.applications, a.id = call.application ∧ a.deleted = false ∧
    a.version = call.expected

theorem replacementSigningKey_of_live (keyed : Keyed (fun _ => False) s)
    (mem : e ∈ s.endpoints) (live : e.Live) :
    ∃ k, s.replacementSigningKey e.application = some k := by
  obtain ⟨k, held, at_, active⟩ := keyed e mem live id
  obtain ⟨f, heldF, sameF, owner⟩ := s.valid.owned k held
  obtain rfl := s.endpoints.unique heldF mem (sameF.trans at_)
  refine Option.ne_none_iff_exists'.mp fun none => ?_
  have empty := List.argmax_eq_none.mp none
  have listed : k ∈ (s.keysOf f.application).filter fun k =>
      (k.status = .active ∨ k.status = .retiring) ∧ ∃ e ∈ s.endpoints, e.id = k.endpoint ∧ e.Live :=
    List.mem_filter.mpr ⟨Store.mem_keysOf.mpr ⟨held, owner.symm⟩,
      decide_eq_true ⟨.inl active, f, mem, sameF, live⟩⟩
  rw [empty] at listed
  exact absurd listed List.not_mem_nil

/-- A replacement up to its reads: what remains is the check and the writes. -/
theorem replace_reads {call : ReplaceCall} (sound : Sound p s) (replaceable : Replaceable p s call) :
    ∃ oldKey, s.replacementSigningKey call.application = some oldKey ∧
      replace p s call =
        (require (unchangedReplacement s call.application oldKey call = false)
            (.conflict "application_webhook_unchanged") >>= fun _ =>
          orElse ((s.retireEndpoints (replaced p call.application) .retired
            (by decide)).insertEndpoint (replacementEndpoint p call)) (.conflict "webhook_url_conflict")
          >>= fun s₁ =>
          orElse (s₁.insertKey
            (replacementKey p oldKey (s.nextSigningSecretVersion call.application) call))
            (.internal "webhook_signing_key_rebind") >>= fun s₂ =>
          .ok (bumpApplication s₂ call.application)) := by
  obtain ⟨a, mem, same, kept, version⟩ := replaceable.current
  obtain ⟨e, memE, owner, live⟩ := (sound.hosts a mem).mp kept
  obtain ⟨oldKey, selected⟩ := replacementSigningKey_of_live sound.keyed memE live
  rw [owner, same] at selected
  refine ⟨oldKey, selected, ?_⟩
  have url : validateUrl p call.url = .ok () := by
    rw [validateUrl, replaceable.url]
    rfl
  have resolved := resolveApp_of_mem mem kept
  rw [same] at resolved
  rw [replace, url, replaceable.valid, replaceable.resolves, replaceable.permitted, resolved, require,
    if_pos rfl]
  show (require (a.version = call.expected) _ >>= fun _ => orElse (s.replacementSigningKey a.id) _ >>=
    fun oldKey => _) = _
  rw [require, if_pos version, same, selected]
  rfl

theorem replace_accepted {call : ReplaceCall} (sound : Sound p s) (replaceable : Replaceable p s call)
    (fresh : ∀ e ∈ s.endpoints, e.application = call.application → e.urlDigest ≠ p.sha256 call.url) :
    ∃ t, replace p s call = .ok t := by
  obtain ⟨oldKey, -, reads⟩ := replace_reads sound replaceable
  obtain ⟨a, mem, same, -⟩ := replaceable.current
  have unloaded : ∀ status, s.loadedUrl call.application status ≠ some call.url := by
    intro status loaded
    obtain ⟨e, held, owner, -, url⟩ := Store.loadedUrl_spec loaded
    refine fresh e held owner ?_
    rw [sound.digested e held, url]
  have changes : unchangedReplacement s call.application oldKey call = false := by
    unfold unchangedReplacement
    cases call.secret <;> simp [unloaded]
  obtain ⟨s₁, inserted⟩ := Store.insertEndpoint_of_free (s := s.retireEndpoints
    (replaced p call.application) .retired (by decide)) (replacementEndpoint p call)
    (fun e held => by
      obtain ⟨old, heldOld, rfl⟩ := Store.mem_retireEndpoints.mp held
      have apart := replaceable.unused.endpoints 0 old heldOld
      split <;> exact apart)
    ⟨a, mem, same⟩
    (fun e held owner => by
      obtain ⟨old, heldOld, rfl⟩ := Store.mem_retireEndpoints.mp held
      have owner : old.application = call.application := by split at owner <;> exact owner
      have other := fresh old heldOld owner
      split <;> exact other)
    (fun active e held owner on => by
      have testing : p.testing = true := by
        cases testing : p.testing with
        | true => rfl
        | false => exact absurd active (by simp [replacementEndpoint, testing])
      obtain ⟨old, heldOld, rfl⟩ := Store.mem_retireEndpoints.mp held
      split at on
      · cases on
      · rename_i spared
        rw [if_neg spared] at owner
        exact spared (decide_eq_true ⟨owner, .inr ⟨testing, on⟩⟩))
  obtain ⟨-, sameK, free, rowsE⟩ := Store.insertEndpoint_spec inserted
  have bare : ∀ k ∈ s₁.keys, k.endpoint ≠ call.generated 0 := by
    intro k held here
    rw [sameK] at held
    obtain ⟨e, heldE, sameE, -⟩ := s.valid.owned k held
    exact replaceable.unused.endpoints 0 e heldE (sameE.trans here)
  obtain ⟨s₂, keyed⟩ := Store.insertKey_of_free (s := s₁)
    (replacementKey p oldKey (s.nextSigningSecretVersion call.application) call)
    (fun k held => replaceable.unused.keys 1 k (sameK ▸ held))
    ⟨replacementEndpoint p call, (rowsE _).mpr (.inl rfl), rfl, rfl⟩
    (fun k held here => absurd here (bare k held)) (fun k held here => absurd here (bare k held))
  refine ⟨bumpApplication s₂ call.application, ?_⟩
  rw [reads]
  refine bind_ok.mpr ⟨(), require_ok.mpr changes, bind_ok.mpr ⟨s₁, orElse_ok.mpr inserted, ?_⟩⟩
  exact bind_ok.mpr ⟨s₂, orElse_ok.mpr keyed, rfl⟩

/-- The row that is alone in its status is the one loaded. -/
theorem loadedUrl_of_unique (mem : e ∈ s.endpoints)
    (alone : ∀ f ∈ s.endpoints, f.application = e.application → f.status = e.status → f = e) :
    s.loadedUrl e.application e.status = some e.url := by
  have listed : e ∈ (s.endpointsOf e.application).filter fun f => f.status = e.status :=
    List.mem_filter.mpr ⟨Store.mem_endpointsOf.mpr ⟨mem, rfl⟩, decide_eq_true rfl⟩
  rw [Store.loadedUrl]
  cases found : ((s.endpointsOf e.application).filter fun f => f.status = e.status).argmax
      Endpoint.createdAt with
  | none =>
      rw [List.argmax_eq_none.mp found] at listed
      exact absurd listed List.not_mem_nil
  | some f =>
      obtain ⟨held, status⟩ := List.mem_filter.mp (List.argmax_mem (Option.mem_def.mpr found))
      obtain ⟨heldF, owner⟩ := Store.mem_endpointsOf.mp held
      rw [alone f heldF owner (of_decide_eq_true status)]
      rfl

theorem loadedUrl_live (sound : Sound p s) (mem : e ∈ s.endpoints) (live : e.Live) :
    s.loadedUrl e.application e.status = some e.url := by
  refine loadedUrl_of_unique mem fun f held owner status => ?_
  rcases live with active | pending
  · exact s.valid.oneActive f held e mem owner (status.trans active) active
  · exact sound.onePending f held e mem owner (status.trans pending) pending

/-- A live URL that is named again without a secret, or as active with the secret of
the key the service reads. -/
def Repeats (s : Store) (call : ReplaceCall) : Prop :=
  ∃ e ∈ s.endpoints, e.application = call.application ∧ e.url = call.url ∧ e.Live ∧
    ∀ presented, call.secret = some presented → e.status = .active ∧
      ∀ k, s.replacementSigningKey call.application = some k → k.secret = presented

theorem replace_unchanged {call : ReplaceCall} (sound : Sound p s)
    (replaceable : Replaceable p s call) (repeats : Repeats s call) :
    replace p s call = .error (.conflict "application_webhook_unchanged") := by
  obtain ⟨oldKey, selected, reads⟩ := replace_reads sound replaceable
  obtain ⟨e, mem, owner, url, live, equal⟩ := repeats
  have loaded := loadedUrl_live sound mem live
  rw [owner, url] at loaded
  have same : unchangedReplacement s call.application oldKey call = true := by
    unfold unchangedReplacement
    cases given : call.secret with
    | none =>
        rcases live with active | pending
        · rw [active] at loaded
          simp [loaded]
        · rw [pending] at loaded
          simp [loaded]
    | some presented =>
        obtain ⟨active, secret⟩ := equal presented given
        rw [active] at loaded
        simp [loaded, secret oldKey selected]
  rw [reads, require, if_neg (by rw [same]; decide)]
  rfl

/-! ## Applied configurations -/

/-- A configuration or activation that is applied leaves its destination. -/
theorem configure_destination {call : ConfigureCall} (sound : Sound p s)
    (unused : Unused s call.generated) (unlisted : call.visibilityPublic = false)
    (apart : ¬ UnderReplacement p s call.application call.webhook.url)
    (done : configure p s call = .ok t) :
    Destination p t call.application call.webhook.url call.webhook.secret := by
  have applied : ∀ s₀ : Store, s₀.endpoints = s.endpoints → s₀.keys = s.keys →
      applyConfiguration p s₀ call = .ok t →
      Destination p t call.application call.webhook.url call.webhook.secret := by
    intro s₀ sameE sameK done
    obtain ⟨s₁, configured, rfl⟩ := applyConfiguration_effect done
    have still : ¬ UnderReplacement p (prepared s₀ call) call.application call.webhook.url := by
      rintro ⟨⟨e, mem, active⟩, pending⟩
      exact apart ⟨⟨e, sameE ▸ mem, active⟩, fun none => pending fun f memF => none f (sameE ▸ memF)⟩
    have there := configured.destination (s := prepared s₀ call) (sound.keyed.same_rows sameE sameK)
      (fun e mem => sound.digested e (sameE ▸ mem)) (fun e mem => unused.endpoints 0 e (sameE ▸ mem))
      still
    exact there
  obtain ⟨-, -, done⟩ := bind_ok.mp done
  obtain ⟨-, -, done⟩ := bind_ok.mp done
  split at done
  · obtain ⟨-, -, done⟩ := bind_ok.mp done
    obtain ⟨-, -, done⟩ := bind_ok.mp done
    rw [unlisted] at done
    exact applied s rfl rfl done
  · obtain ⟨-, -, done⟩ := bind_ok.mp done
    obtain ⟨-, -, done⟩ := bind_ok.mp done
    obtain ⟨s₀, inserted, done⟩ := bind_ok.mp done
    obtain ⟨-, sameE, sameK, -⟩ := Store.insertApplication_spec (orElse_ok.mp inserted)
    exact applied s₀ sameE sameK done

theorem activate_destination {call : ConfigureCall} (sound : Sound p s)
    (unused : Unused s call.generated)
    (apart : ¬ UnderReplacement p s call.application call.webhook.url)
    (done : activate p s call = .ok t) :
    Destination p t call.application call.webhook.url call.webhook.secret := by
  obtain ⟨s₁, -, configured, rfl⟩ := activate_effect done
  have there := configured.destination (s := prepared s call) (sound.keyed.same_rows rfl rfl)
    sound.digested (unused.endpoints 0) apart
  exact there

/-! ## Runs -/

/-- A testing plane, for the same destinations. -/
def testingPlane : Platform := { production with testing := true }

/-- What `replacing` leaves pending, presented again with another secret. -/
def reconfigured : ConfigureCall :=
  ⟨"org>app", 1, 4, false, ⟨secondUrl, some thirdSecret⟩, true, .ok (), .verified, 2, fun i => 20 + i, 3⟩

/-- A testing plane activates without an approval, and a configuration with another
secret for a URL in place is neither accepted nor reported as unchanged. -/
theorem review_bounds :
    (∃ e ∈ (committed testingPlane [.create ⟨"org>app", firstUrl, firstSecret, true, true,
        fun i => 0 + i, 1⟩]).endpoints, e.status = .active) ∧
      Runs.AllSteps (next production) Fresh Store.empty replacing ∧
      Unused (committed production replacing) reconfigured.generated ∧
      validSecret thirdSecret = true ∧
      (match configure production (committed production replacing) reconfigured with
        | .ok _ => none
        | .error refusal => some refusal) = some (.conflict "webhook_secret_rotation_required") :=
  ⟨by decide +kernel, replacing_fresh, unused_from (by decide +kernel) (by decide +kernel),
    by decide +kernel, by decide +kernel⟩

/-- The approval names a version, and in every state of the run at that version this
endpoint with this URL and key was the pending one. -/
def Reviewed (p : Platform) (requests : List Request) (request : Request) (e : Endpoint) : Prop :=
  ∃ version k, request.approves = some (e.application, version) ∧
    (∃ a ∈ (committed p requests).applications, a.id = e.application ∧ a.version = version) ∧
    k ∈ (next p (committed p requests) request).keys ∧
    ∀ earlier, earlier <+: requests →
      (∃ a ∈ (committed p earlier).applications, a.id = e.application ∧ a.version = version) →
      PendingAt (committed p earlier) e k

theorem reviewed {requests : List Request} {request : Request}
    (fresh : Runs.AllSteps (next p) Fresh Store.empty requests)
    (mem : e ∈ (next p (committed p requests) request).endpoints)
    (went : WentActive (committed p requests) e) :
    Reviewed p requests request e ∨ p.testing = true ∧ request.activates = some (e.id, e.url) := by
  have sound := sound_committed fresh
  cases done : handle p (committed p requests) request with
  | error refusal =>
      rw [next, done] at mem
      exact absurd went (not_wentActive_of_mem mem)
  | ok t =>
      have settled : next p (committed p requests) request = t := by rw [next, done]
      rw [settled] at mem
      rcases activated_by done mem went with ⟨version, named, current, pending, keys⟩ | plane
      · obtain ⟨k, held, at_, active⟩ := sound.keyed _ pending (.inr rfl) id
        obtain ⟨f, heldF, sameF, owner⟩ := (committed p requests).valid.owned k held
        obtain rfl := (committed p requests).endpoints.unique heldF pending (sameF.trans at_)
        refine .inl ⟨version, k, named, current, ?_, fun earlier before at_version => ?_⟩
        · rw [settled, keys]
          exact held
        · -- no row of the application changed between two states of one version
          obtain ⟨rest, rfl⟩ := before
          obtain ⟨first, later⟩ := (Runs.allSteps_append _ _ _).mp fresh
          obtain ⟨a, memA, sameA, versionA⟩ := at_version
          obtain ⟨b, memB, sameB, less, rows⟩ :=
            aged_after e.application (sound_committed first) later a memA sameA
          obtain ⟨c, memC, sameC, versionC⟩ := current
          have split : committed p (earlier ++ rest) =
              Runs.after (next p) (committed p earlier) rest := Runs.after_append _ _ _
          rw [← split] at memB rows
          obtain rfl := (committed p (earlier ++ rest)).applications.unique memB memC
            (sameB.trans sameC.symm)
          have same := rows (versionA.trans versionC.symm)
          exact ⟨(same.endpoints { e with status := .pendingReview } rfl).mp pending,
            (same.keys k owner.symm).mp held, at_, active⟩
      · exact .inr plane

/-- Review over every run, destinations, and acceptance. -/
theorem webhook_review (p : Platform) (requests : List Request)
    (fresh : Runs.AllSteps (next p) Fresh Store.empty requests) :
    (∀ e ∈ (committed p requests).endpoints, ∀ f ∈ (committed p requests).endpoints,
      e.application = f.application → e.status = f.status → e.Live → e = f) ∧
    (∀ request, ∀ e ∈ (next p (committed p requests) request).endpoints,
      WentActive (committed p requests) e →
        Reviewed p requests request e ∨ p.testing = true ∧ request.activates = some (e.id, e.url)) ∧
    (∀ call t, replace p (committed p requests) call = .ok t →
      Destination p t call.application call.url call.secret) ∧
    (∀ call t, Unused (committed p requests) call.generated →
      ¬ UnderReplacement p (committed p requests) call.application call.webhook.url →
      (call.visibilityPublic = false ∧ configure p (committed p requests) call = .ok t ∨
        activate p (committed p requests) call = .ok t) →
      Destination p t call.application call.webhook.url call.webhook.secret) ∧
    (∀ call secret, Configurable p (committed p requests) call secret →
      (∃ t, configure p (committed p requests) call = .ok t) ∨
        configure p (committed p requests) call =
            .error (.conflict "webhook_secret_rotation_required") ∧
          AnotherSecret p (committed p requests) call.application call.webhook.url secret) ∧
    ∀ call, Replaceable p (committed p requests) call →
      ((∀ e ∈ (committed p requests).endpoints, e.application = call.application →
        e.urlDigest ≠ p.sha256 call.url) → ∃ t, replace p (committed p requests) call = .ok t) ∧
      (Repeats (committed p requests) call →
        replace p (committed p requests) call =
          .error (.conflict "application_webhook_unchanged")) := by
  have sound := sound_committed fresh
  refine ⟨fun e mem f memF owner status live => ?_, fun request e mem went => reviewed fresh mem went,
    fun call t done => replace_destination done, fun call t unused apart done => ?_,
    fun call secret configurable => configure_total sound configurable,
    fun call replaceable => ⟨replace_accepted sound replaceable, replace_unchanged sound replaceable⟩⟩
  · rcases live with active | pending
    · exact (committed p requests).valid.oneActive e mem f memF owner active (status.symm.trans active)
    · exact sound.onePending e mem f memF owner pending (status.symm.trans pending)
  · rcases done with ⟨unlisted, done⟩ | done
    · exact configure_destination sound unused unlisted apart done
    · exact activate_destination sound unused apart done

/-- The approval of the replacement: the version it names showed exactly what goes active. -/
theorem webhook_review_replacing :
    ∃ e ∈ (next production (committed production replacing)
        (.approve ⟨"org>app", 4, (10, secondUrl), true, true⟩)).endpoints,
      e.id = 10 ∧ e.url = secondUrl ∧ e.status = .active ∧
        Reviewed production replacing (.approve ⟨"org>app", 4, (10, secondUrl), true, true⟩) e := by
  obtain ⟨e, mem, here, url, active⟩ : ∃ e ∈ (next production (committed production replacing)
      (.approve ⟨"org>app", 4, (10, secondUrl), true, true⟩)).endpoints,
      e.id = 10 ∧ e.url = secondUrl ∧ e.status = .active := by decide +kernel
  have before : ∀ old ∈ (committed production replacing).endpoints, old.id = 10 →
      old.status ≠ .active := by decide +kernel
  obtain ⟨-, activation, -⟩ := webhook_review production replacing replacing_fresh
  refine ⟨e, mem, here, url, active, ?_⟩
  rcases activation _ e mem ⟨active, fun old held same => before old held (same.trans here)⟩ with
    reviewed | ⟨testing, -⟩
  · exact reviewed
  · cases testing

/-! ## What a version tells -/

/-- In every run the version of an application tells the state of its webhooks: it never goes
down, two states with one version have the same endpoints and keys, and requests about other
applications leave the application, its endpoints and its keys as they were. -/
theorem versions_tell (p : Platform) (earlier later : List Request)
    (fresh : Runs.AllSteps (next p) Fresh Store.empty (earlier ++ later)) (app : String) :
    Aged app (committed p earlier) (committed p (earlier ++ later)) ∧
      ((∀ request ∈ later, request.application ≠ app) →
        SameRows app (committed p earlier) (committed p (earlier ++ later)) ∧
          ∀ a : Application, a.id = app → (a ∈ (committed p (earlier ++ later)).applications ↔
            a ∈ (committed p earlier).applications)) := by
  obtain ⟨first, last⟩ := (Runs.allSteps_append _ _ _).mp fresh
  have sound := sound_committed first
  rw [show committed p (earlier ++ later) = Runs.after (next p) (committed p earlier) later from
    Runs.after_append _ _ _]
  refine ⟨aged_after app sound last, fun apart => ?_⟩
  exact Runs.allSteps_relates (I := Sound p)
    (R := fun s t => SameRows app s t ∧
      ∀ a : Application, a.id = app → (a ∈ t.applications ↔ a ∈ s.applications))
    (fun s => ⟨.refl app s, fun _ _ => Iff.rfl⟩)
    (fun _ _ _ one two => ⟨one.1.trans two.1, fun a own => (two.2 a own).trans (one.2 a own)⟩)
    (fun _ _ held step => (next_kept held step.1).sound)
    (fun _ _ held ⟨fresh, other⟩ => by
      have frame := (next_kept held fresh).frame
      exact ⟨⟨fun e own => frame.endpoints e (own ▸ other.symm),
        fun k own => frame.keys k (own ▸ other.symm)⟩,
        fun a own => frame.applications a (own ▸ other.symm)⟩)
    later _ sound (last.and _ _ (Runs.allSteps_of_forall later apart _))

/-- Another application is created. -/
theorem versions_tell_other :
    SameRows "org>app" (committed production replacing) (committed production
      (replacing ++ [.create ⟨"org>b", firstUrl, firstSecret, true, true, fun i => 30 + i, 4⟩])) :=
  have fresh : Runs.AllSteps (next production) Fresh Store.empty
      (replacing ++ [.create ⟨"org>b", firstUrl, firstSecret, true, true, fun i => 30 + i, 4⟩]) :=
    (Runs.allSteps_append _ _ _).mpr ⟨replacing_fresh, fresh_from rfl (by decide +kernel), trivial⟩
  ((versions_tell production replacing _ fresh "org>app").2 (by decide)).1

end SiliconIam.Applications
