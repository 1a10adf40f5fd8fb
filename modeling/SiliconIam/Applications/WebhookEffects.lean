/-
# Applications.WebhookEffects -- what a successful operation does to the tables

One lemma for each operation reads a successful call back as the statements it
ran, with the guards that let it through.  Invariants are proved from these
lemmas; no proof after this module unfolds an operation.
-/
import SiliconIam.Applications.WebhookOperations

namespace SiliconIam.Applications

open SiliconIam.Theory

set_option autoImplicit false

variable {p : Platform} {s t : Store}

/-! ## The error monad -/

theorem bind_ok {α β : Type} {x : Except ApiError α} {f : α → Except ApiError β} {b : β} :
    (x >>= f) = .ok b ↔ ∃ a, x = .ok a ∧ f a = .ok b := by
  cases x with
  | error e => simp [bind, Except.bind]
  | ok a => simp [bind, Except.bind]

theorem return_ok {α : Type} {a b : α} : (pure a : Except ApiError α) = .ok b ↔ a = b := by
  simp [pure, Except.pure]

theorem require_ok {holds : Prop} [Decidable holds] {error : ApiError} {u : Unit} :
    require holds error = .ok u ↔ holds := by
  unfold require
  split <;> simp_all

theorem orElse_ok {α : Type} {found : Option α} {error : ApiError} {a : α} :
    orElse found error = .ok a ↔ found = some a := by
  cases found <;> simp [orElse]

theorem resolveApp_ok {permitted : Bool} {app : String} {a : Application}
    (found : resolveApp s permitted app = .ok a) :
    permitted = true ∧ a ∈ s.applications ∧ a.id = app ∧ a.deleted = false := by
  have found := orElse_ok.mp found
  split at found
  · exact ⟨‹_›, Store.application?_spec found⟩
  · cases found

theorem resolveApp_of_mem {a : Application} (mem : a ∈ s.applications) (kept : a.deleted = false) :
    resolveApp s true a.id = .ok a := by
  rw [resolveApp, if_pos rfl, Store.application?_of_mem mem kept]
  rfl

/-! ## Operations -/

theorem create_effect {call : CreateCall} (done : create p s call = .ok t) :
    ∃ s₁ s₂, s.insertApplication (createdApplication call) = some s₁ ∧
      s₁.insertEndpoint (createdEndpoint p call) = some s₂ ∧
      s₂.insertKey (createdKey call) = some t := by
  obtain ⟨-, -, done⟩ := bind_ok.mp done
  obtain ⟨-, -, done⟩ := bind_ok.mp done
  obtain ⟨-, -, done⟩ := bind_ok.mp done
  obtain ⟨s₁, inserted, done⟩ := bind_ok.mp done
  obtain ⟨s₂, endpoint, done⟩ := bind_ok.mp done
  exact ⟨s₁, s₂, orElse_ok.mp inserted, orElse_ok.mp endpoint, orElse_ok.mp done⟩

theorem replace_effect {call : ReplaceCall} (done : replace p s call = .ok t) :
    ∃ a oldKey s₁ s₂, a ∈ s.applications ∧ a.id = call.application ∧ a.deleted = false ∧
      a.version = call.expected ∧
      (s.retireEndpoints (replaced p call.application) .retired (by decide)).insertEndpoint
        (replacementEndpoint p call) = some s₁ ∧
      s₁.insertKey (replacementKey p oldKey (s.nextSigningSecretVersion call.application) call) =
        some s₂ ∧
      t = bumpApplication s₂ call.application := by
  obtain ⟨-, -, done⟩ := bind_ok.mp done
  obtain ⟨-, -, done⟩ := bind_ok.mp done
  obtain ⟨-, -, done⟩ := bind_ok.mp done
  obtain ⟨-, -, done⟩ := bind_ok.mp done
  obtain ⟨a, found, done⟩ := bind_ok.mp done
  obtain ⟨-, mem, same, kept⟩ := resolveApp_ok found
  rw [same] at done
  obtain ⟨_, version, done⟩ := bind_ok.mp done
  obtain ⟨oldKey, -, done⟩ := bind_ok.mp done
  obtain ⟨-, -, done⟩ := bind_ok.mp done
  obtain ⟨s₁, endpoint, done⟩ := bind_ok.mp done
  obtain ⟨s₂, key, done⟩ := bind_ok.mp done
  exact ⟨a, oldKey, s₁, s₂, mem, same, kept, require_ok.mp version, orElse_ok.mp endpoint,
    orElse_ok.mp key, (return_ok.mp done).symm⟩

/-- What both approvals do: the other live endpoints retire and the pending one goes active. -/
structure Activated (s t : Store) (app : String) (version : Nat) (pending : Endpoint) : Prop where
  application : ∃ a ∈ s.applications, a.id = app ∧ a.deleted = false ∧ a.version = version
  mem : pending ∈ s.endpoints
  owner : pending.application = app
  status : pending.status = .pendingReview
  ran : ∃ s₁, (s.retireEndpoints (superseded app pending.id) .retired (by decide)).activateEndpoint
      (fun e => e.id = pending.id) = some s₁ ∧ t = bumpApplication s₁ app

theorem webhookApproval_effect {call : WebhookApproval} (done : webhookApproval s call = .ok t) :
    call.stepUp = true ∧ ∃ pending, pending.id = call.pendingEndpointId ∧
      Activated s t call.application call.expectedIamRevision pending := by
  obtain ⟨a, found, done⟩ := bind_ok.mp done
  obtain ⟨-, mem, same, kept⟩ := resolveApp_ok found
  rw [same] at done
  obtain ⟨_, version, done⟩ := bind_ok.mp done
  obtain ⟨pending, selected, done⟩ := bind_ok.mp done
  obtain ⟨held, picked⟩ := Table.find?_spec (orElse_ok.mp selected)
  obtain ⟨owner, named, status⟩ := of_decide_eq_true picked
  obtain ⟨_, stepUp, done⟩ := bind_ok.mp done
  obtain ⟨s₁, activated, done⟩ := bind_ok.mp done
  exact ⟨require_ok.mp stepUp, pending, named, ⟨⟨a, mem, same, kept, require_ok.mp version⟩, held,
    owner, status, ⟨s₁, orElse_ok.mp activated, (return_ok.mp done).symm⟩⟩⟩

/-- What `activateEndpoint` does depends on the rows picked only. -/
theorem activateEndpoint_congr {f g : Endpoint → Bool} (same : ∀ e ∈ s.endpoints, f e = g e) :
    s.activateEndpoint f = s.activateEndpoint g := by
  have tables : s.endpoints.update f (fun e => { e with status := .active }) (fun _ => rfl) =
      s.endpoints.update g (fun e => { e with status := .active }) fun _ => rfl := by
    unfold Table.update
    congr 1
    refine List.map_congr_left fun e mem => ?_
    rw [same e mem]
  rw [Store.activateEndpoint, Store.activateEndpoint, tables]

theorem approve_effect {call : ApproveCall} (done : approve s call = .ok t) :
    call.stepUp = true ∧ ∃ pending, (pending.id, pending.url) = call.seen ∧
      Activated s t call.application call.expected pending := by
  obtain ⟨a, found, done⟩ := bind_ok.mp done
  obtain ⟨-, mem, same, kept⟩ := resolveApp_ok found
  rw [same] at done
  obtain ⟨_, version, done⟩ := bind_ok.mp done
  obtain ⟨-, -, done⟩ := bind_ok.mp done
  obtain ⟨pending, selected, done⟩ := bind_ok.mp done
  obtain ⟨held, owner, status⟩ := Store.pendingEndpoint_spec (orElse_ok.mp selected)
  obtain ⟨_, seen, done⟩ := bind_ok.mp done
  obtain ⟨_, stepUp, done⟩ := bind_ok.mp done
  obtain ⟨s₁, activated, done⟩ := bind_ok.mp done
  refine ⟨require_ok.mp stepUp, pending, require_ok.mp seen, ⟨a, mem, same, kept,
    require_ok.mp version⟩, held, owner, status, s₁, ?_, (return_ok.mp done).symm⟩
  rw [← orElse_ok.mp activated]
  refine activateEndpoint_congr fun e listed => ?_
  -- the row of that identifier is the pending one, which the retirement passed by
  by_cases same : e.id = pending.id
  · obtain ⟨old, mem, rfl⟩ := Store.mem_retireEndpoints.mp listed
    have same : old.id = pending.id := by split at same <;> exact same
    obtain rfl := s.endpoints.unique mem held same
    simp [superseded, owner, status]
  · simp [same]

/-- What both rotations do: the keys picked retire and every live endpoint gets one. -/
structure Rotated (s t : Store) (call : RotateCall) (endpoints : List Nat)
    (picked : SigningKey → Bool) (versionAt : Nat → Nat) : Prop where
  application : ∃ a ∈ s.applications, a.id = call.application ∧ a.deleted = false
  ran : ∃ s₁, installKeys call.application call versionAt 0 endpoints
      (s.retireKeys picked .retiring (by decide)) = some s₁ ∧ t = bumpApplication s₁ call.application

def directEndpoints (s : Store) (app : String) : List Nat :=
  ((liveEndpoints s app).insertionSort (newestFirst · ·)).map Endpoint.id

def managedEndpoints (s : Store) (app : String) : List Nat :=
  ((liveEndpoints s app).map Endpoint.id).insertionSort (· ≤ ·)

def directPicked (s : Store) (app : String) (k : SigningKey) : Bool :=
  k.application = app ∧ k.endpoint ∈ directEndpoints s app ∧ k.status = .active

def managedPicked (app : String) (k : SigningKey) : Bool :=
  k.application = app ∧ k.status = .active

theorem rotateSecret_effect {call : RotateCall} (done : rotateSecret s call = .ok t) :
    Rotated s t call (directEndpoints s call.application) (directPicked s call.application)
      fun _ => s.nextSigningSecretVersion call.application := by
  obtain ⟨-, -, done⟩ := bind_ok.mp done
  obtain ⟨a, found, done⟩ := bind_ok.mp done
  obtain ⟨-, mem, same, kept⟩ := resolveApp_ok found
  rw [same] at done
  obtain ⟨-, -, done⟩ := bind_ok.mp done
  obtain ⟨-, -, done⟩ := bind_ok.mp done
  obtain ⟨-, -, done⟩ := bind_ok.mp done
  obtain ⟨s₁, installed, done⟩ := bind_ok.mp done
  exact ⟨⟨a, mem, same, kept⟩, s₁, orElse_ok.mp installed, (return_ok.mp done).symm⟩

theorem rotate_effect {call : RotateCall} (done : rotate s call = .ok t) :
    Rotated s t call (managedEndpoints s call.application) (managedPicked call.application)
      fun i => s.latestSecretVersion call.application + (i + 1) := by
  obtain ⟨-, -, done⟩ := bind_ok.mp done
  obtain ⟨a, found, done⟩ := bind_ok.mp done
  obtain ⟨-, mem, same, kept⟩ := resolveApp_ok found
  rw [same] at done
  obtain ⟨-, -, done⟩ := bind_ok.mp done
  obtain ⟨-, -, done⟩ := bind_ok.mp done
  obtain ⟨-, -, done⟩ := bind_ok.mp done
  obtain ⟨s₁, installed, done⟩ := bind_ok.mp done
  exact ⟨⟨a, mem, same, kept⟩, s₁, orElse_ok.mp installed, (return_ok.mp done).symm⟩

theorem delete_effect {call : DeleteCall} (done : delete s call = .ok t) :
    t = bumpApplication (retireApplicationCredentials (markDeleted s call.application)
      call.application) call.application := by
  obtain ⟨a, found, done⟩ := bind_ok.mp done
  obtain ⟨-, -, same, -⟩ := resolveApp_ok found
  rw [same] at done
  obtain ⟨-, -, done⟩ := bind_ok.mp done
  obtain ⟨-, -, done⟩ := bind_ok.mp done
  obtain ⟨-, -, done⟩ := bind_ok.mp done
  exact (return_ok.mp done).symm

/-! ### Configuration -/

/-- A configured destination: in place already, or pending with a new key. -/
inductive Configured (p : Platform) (s t : Store) (app : String) (webhook : Webhook)
    (generated : Nat → Nat) (now : Nat) : Prop where
  | unchanged (current : Endpoint) (mem : current ∈ s.endpoints) (owner : current.application = app)
      (digest : current.urlDigest = p.sha256 webhook.url) (live : current.Live)
      (presented : ∀ secret, webhook.secret = some secret →
        ∃ k ∈ s.keys, k.endpoint = current.id ∧ k.status = .active ∧ k.secret = secret)
      (same : t = s)
  | changed (secret : String) (presented : webhook.secret = some secret)
      (unused : ∀ e ∈ s.endpoints, e.application = app → e.urlDigest = p.sha256 webhook.url → ¬ e.Live)
      (endpoint : Nat)
      (known : (∃ e ∈ s.endpoints, e.id = endpoint ∧ e.application = app ∧
          e.urlDigest = p.sha256 webhook.url) ∨
        ((∀ e ∈ s.endpoints, e.application = app → e.urlDigest ≠ p.sha256 webhook.url) ∧
          endpoint = generated 0))
      (s₁ : Store)
      (upserted : (s.retireEndpoints
        (fun e => e.application = app ∧ e.status = .pendingReview) .retired (by decide)).upsertEndpoint
          (configuredEndpoint p app webhook.url endpoint now) = some s₁)
      (keyed : (s₁.retireKeys
        (fun k => k.endpoint = endpoint ∧ (k.status = .active ∨ k.status = .retiring))
        .retired (by decide)).insertKey
          (configuredKey app secret endpoint (generated 1)
            ((s₁.retireKeys
              (fun k => k.endpoint = endpoint ∧ (k.status = .active ∨ k.status = .retiring))
              .retired (by decide)).nextSigningSecretVersion app) now) = some t)

theorem presentedSecret_ok {current : Endpoint} {secret : Option String} {u : Unit}
    (accepted : presentedSecret s current secret = .ok u) :
    ∀ presented, secret = some presented →
      ∃ k ∈ s.keys, k.endpoint = current.id ∧ k.status = .active ∧ k.secret = presented := by
  rintro presented rfl
  obtain ⟨k, found, equal⟩ := bind_ok.mp accepted
  obtain ⟨mem, picked⟩ := Table.find?_spec (orElse_ok.mp found)
  obtain ⟨at_, active⟩ := of_decide_eq_true picked
  exact ⟨k, mem, at_, active, require_ok.mp equal⟩

theorem configureWebhook_effect {app : String} {webhook : Webhook} {generated : Nat → Nat}
    {now : Nat} (done : configureWebhook p s app webhook generated now = .ok t) :
    Configured p s t app webhook generated now := by
  unfold configureWebhook at done
  split at done
  · rename_i current found
    obtain ⟨mem, picked⟩ := Table.find?_spec found
    obtain ⟨owner, digest, live⟩ := of_decide_eq_true picked
    obtain ⟨_, presented, done⟩ := bind_ok.mp done
    exact .unchanged current mem owner digest live (presentedSecret_ok presented)
      (return_ok.mp done).symm
  · rename_i absent
    obtain ⟨secret, presented, done⟩ := bind_ok.mp done
    obtain ⟨s₁, upserted, done⟩ := bind_ok.mp done
    refine .changed secret (orElse_ok.mp presented) ?_ _ ?_ s₁ (orElse_ok.mp upserted)
      (orElse_ok.mp done)
    · intro e mem owner digest live
      exact List.find?_eq_none.mp absent e mem (decide_eq_true ⟨owner, digest, live⟩)
    · unfold destinationEndpoint
      cases known : s.endpoints.find? fun e =>
          e.application = app ∧ e.urlDigest = p.sha256 webhook.url with
      | none =>
          refine .inr ⟨fun e mem owner digest => ?_, rfl⟩
          exact List.find?_eq_none.mp known e mem (decide_eq_true ⟨owner, digest⟩)
      | some e =>
          obtain ⟨mem, picked⟩ := Table.find?_spec known
          exact .inl ⟨e, mem, rfl, of_decide_eq_true picked⟩

theorem applyConfiguration_effect {call : ConfigureCall}
    (done : applyConfiguration p s call = .ok t) :
    ∃ s₁, Configured p (prepared s call) s₁ call.application call.webhook call.generated call.now ∧
      t = revised s₁ call := by
  obtain ⟨-, -, done⟩ := bind_ok.mp done
  obtain ⟨s₁, webhook, done⟩ := bind_ok.mp done
  exact ⟨s₁, configureWebhook_effect webhook, (return_ok.mp done).symm⟩

/-- A configuration waits, or is applied to the application there is or to a new one. -/
theorem configure_effect {call : ConfigureCall} (done : configure p s call = .ok t) :
    t = s ∨ ∃ s₀ s₁, (s₀ = s ∧ (∃ a ∈ s.applications, a.id = call.application ∧ a.deleted = false) ∨
        s.insertApplication ⟨call.application, .verified, false, false, 0, 1⟩ = some s₀) ∧
      Configured p (prepared s₀ call) s₁ call.application call.webhook call.generated call.now ∧
      t = revised s₁ call := by
  obtain ⟨-, -, done⟩ := bind_ok.mp done
  obtain ⟨-, -, done⟩ := bind_ok.mp done
  split at done
  · rename_i a found
    obtain ⟨-, -, done⟩ := bind_ok.mp done
    obtain ⟨-, -, done⟩ := bind_ok.mp done
    split at done
    · exact .inl (return_ok.mp done).symm
    · obtain ⟨s₁, configured, same⟩ := applyConfiguration_effect done
      exact .inr ⟨s, s₁, .inl ⟨rfl, a, Store.application?_spec found⟩, configured, same⟩
  · obtain ⟨-, -, done⟩ := bind_ok.mp done
    obtain ⟨-, -, done⟩ := bind_ok.mp done
    obtain ⟨s₀, inserted, done⟩ := bind_ok.mp done
    obtain ⟨s₁, configured, same⟩ := applyConfiguration_effect done
    exact .inr ⟨s₀, s₁, .inr (orElse_ok.mp inserted), configured, same⟩

theorem activate_effect {call : ConfigureCall} (done : activate p s call = .ok t) :
    ∃ s₁, (∃ a ∈ s.applications, a.id = call.application ∧ a.deleted = false) ∧
      Configured p (prepared s call) s₁ call.application call.webhook call.generated call.now ∧
      t = revised s₁ call := by
  obtain ⟨-, -, done⟩ := bind_ok.mp done
  obtain ⟨a, found, done⟩ := bind_ok.mp done
  obtain ⟨-, mem, same, kept⟩ := resolveApp_ok found
  obtain ⟨-, -, done⟩ := bind_ok.mp done
  obtain ⟨s₁, configured, equal⟩ := applyConfiguration_effect done
  exact ⟨s₁, ⟨a, mem, same, kept⟩, configured, equal⟩

end SiliconIam.Applications
