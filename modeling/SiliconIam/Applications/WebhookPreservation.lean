/-
# Applications.WebhookPreservation -- every operation keeps the invariant

For each operation one lemma: a successful call on a sound store leaves a sound
store, extends the keys there are, touches rows of its own application only and
raises that application's version.  They are put together from the lemmas of the
statements; `next_kept` is all of them at once.
-/
import SiliconIam.Applications.WebhookInvariants

namespace SiliconIam.Applications

open SiliconIam.Theory
open SiliconIam.Theory.Hex (Bytes)

set_option autoImplicit false

variable {p : Platform} {s t : Store}

/-! ## The keys a rotation installs -/

variable {app : String} {versionAt : Nat → Nat}

theorem installKeys_spec {call : RotateCall}
    {endpoints : List Nat} : ∀ {i : Nat} {s : Store},
      installKeys app call versionAt i endpoints s = some t →
      t.applications = s.applications ∧ t.endpoints = s.endpoints ∧
        ∀ k, k ∈ t.keys ↔
          (∃ j e, endpoints[j]? = some e ∧ k = installedKey app call (versionAt (i + j)) (i + j) e) ∨
            k ∈ s.keys := by
  induction endpoints with
  | nil =>
      intro i s done
      obtain rfl := Option.some.inj done
      exact ⟨rfl, rfl, by simp⟩
  | cons first rest ih =>
      intro i s done
      obtain ⟨s₁, inserted, later⟩ := Option.bind_eq_some_iff.mp done
      obtain ⟨sameA, sameE, -, keys⟩ := Store.insertKey_spec inserted
      obtain ⟨restA, restE, restK⟩ := ih later
      refine ⟨restA.trans sameA, restE.trans sameE, fun k => ?_⟩
      rw [restK, keys]
      constructor
      · rintro (⟨j, e, at_, rfl⟩ | rfl | old)
        · refine .inl ⟨j + 1, e, by simpa using at_, ?_⟩
          rw [Nat.add_comm j 1, ← Nat.add_assoc]
        · exact .inl ⟨0, first, rfl, rfl⟩
        · exact .inr old
      · rintro (⟨j, e, at_, rfl⟩ | old)
        · cases j with
          | zero =>
              obtain rfl := Option.some.inj at_
              exact .inr (.inl rfl)
          | succ j =>
              refine .inl ⟨j, e, by simpa using at_, ?_⟩
              rw [Nat.add_comm j 1, ← Nat.add_assoc]
        · exact .inr (.inr old)

theorem installKeys_keyed {call : RotateCall}
    {endpoints : List Nat} : ∀ {i : Nat} {s : Store}, Keyed (fun e => e ∈ endpoints) s →
      installKeys app call versionAt i endpoints s = some t → Keyed (fun _ => False) t := by
  induction endpoints with
  | nil =>
      intro i s keyed done
      obtain rfl := Option.some.inj done
      exact keyed.mono fun i held => absurd held List.not_mem_nil
  | cons first rest ih =>
      intro i s keyed done
      obtain ⟨s₁, inserted, later⟩ := Option.bind_eq_some_iff.mp done
      refine ih ((keyed.insertKey inserted rfl).mono fun e held => ?_) later
      exact (List.mem_cons.mp held.1).resolve_left held.2

theorem Store.insertKey_of_free (row : SigningKey) (unused : ∀ k ∈ s.keys, k.id ≠ row.id)
    (owner : ∃ e ∈ s.endpoints, e.id = row.endpoint ∧ e.application = row.application)
    (version : ∀ k ∈ s.keys, k.endpoint = row.endpoint → k.secretVersion ≠ row.secretVersion)
    (bare : ∀ k ∈ s.keys, k.endpoint = row.endpoint → k.status ≠ .active) :
    ∃ t, s.insertKey row = some t := by
  obtain ⟨keys, inserted⟩ := Table.insert_of_free unused
  obtain ⟨-, mem⟩ := Table.insert_spec inserted
  have valid : Constraints s.applications s.endpoints keys :=
    { s.valid with
      owned := by
        intro k held
        rcases (mem k).mp held with rfl | old
        · exact owner
        · exact s.valid.owned k old
      versions := by
        intro k held l heldL at_ equal
        rcases (mem k).mp held with rfl | old
        · rcases (mem l).mp heldL with rfl | oldL
          · rfl
          · exact absurd equal.symm (version l oldL at_.symm)
        · rcases (mem l).mp heldL with rfl | oldL
          · exact absurd equal (version k old at_)
          · exact s.valid.versions k old l oldL at_ equal
      oneActiveKey := by
        intro k held l heldL at_ on onL
        rcases (mem k).mp held with rfl | old
        · rcases (mem l).mp heldL with rfl | oldL
          · rfl
          · exact absurd onL (bare l oldL at_.symm)
        · rcases (mem l).mp heldL with rfl | oldL
          · exact absurd on (bare k old at_)
          · exact s.valid.oneActiveKey k old l oldL at_ on onL }
  obtain ⟨t, done⟩ := Store.checked_of_valid valid
  exact ⟨t, by rw [Store.insertKey, inserted]; exact done⟩

/-- Keys can be installed at endpoints without an active key, above their versions. -/
theorem installKeys_of_free {call : RotateCall}
    {endpoints : List Nat} : ∀ {i : Nat} {s : Store}, endpoints.Nodup →
      Function.Injective call.generated →
      (∀ j, i ≤ j → ∀ k ∈ s.keys, k.id ≠ call.generated j) →
      (∀ e ∈ endpoints, ∃ row ∈ s.endpoints, row.id = e ∧ row.application = app) →
      (∀ e ∈ endpoints, ∀ k ∈ s.keys, k.endpoint = e →
        k.status ≠ .active ∧ ∀ j, i ≤ j → k.secretVersion ≠ versionAt j) →
      ∃ t, installKeys app call versionAt i endpoints s = some t := by
  induction endpoints with
  | nil => exact fun _ _ _ _ _ => ⟨_, rfl⟩
  | cons first rest ih =>
      intro i s distinct injective unused owner free
      obtain ⟨apart, distinct⟩ := List.nodup_cons.mp distinct
      obtain ⟨s₁, inserted⟩ := Store.insertKey_of_free
        (installedKey app call (versionAt i) i first) (unused i (Nat.le_refl i))
        (owner first List.mem_cons_self)
        (fun k held at_ => (free first List.mem_cons_self k held at_).2 i (Nat.le_refl i))
        (fun k held at_ => (free first List.mem_cons_self k held at_).1)
      obtain ⟨-, sameE, -, keys⟩ := Store.insertKey_spec inserted
      obtain ⟨t, done⟩ := ih (i := i + 1) (s := s₁) distinct injective
        (fun j above k held => by
          rcases (keys k).mp held with rfl | old
          · intro same
            have := injective same
            omega
          · exact unused j (by omega) k old)
        (fun e mem => by
          rw [sameE]
          exact owner e (List.mem_cons_of_mem _ mem))
        (fun e mem k held at_ => by
          rcases (keys k).mp held with rfl | old
          · have here : first = e := at_
            rw [here] at apart
            exact absurd mem apart
          · obtain ⟨off, versions⟩ := free e (List.mem_cons_of_mem _ mem) k old at_
            exact ⟨off, fun j above => versions j (by omega)⟩)
      exact ⟨t, by rw [installKeys, inserted]; exact done⟩

/-! ## Creation -/

/-- An application that is not registered has no rows. -/
theorem no_rows (absent : ∀ a ∈ s.applications, a.id ≠ app) :
    (∀ e ∈ s.endpoints, e.application ≠ app) ∧ ∀ k ∈ s.keys, k.application ≠ app := by
  have none : ∀ e ∈ s.endpoints, e.application ≠ app := by
    intro e mem owner
    obtain ⟨a, held, same⟩ := s.valid.registered e mem
    exact absent a held (same.trans owner)
  refine ⟨none, fun k mem owner => ?_⟩
  obtain ⟨e, held, -, same⟩ := s.valid.owned k mem
  exact none e held (same.trans owner)

theorem create_kept {call : CreateCall} (sound : Sound p s) (done : create p s call = .ok t) :
    Kept p call.application s t := by
  obtain ⟨s₁, s₂, registered, inserted, keyed⟩ := create_effect done
  obtain ⟨absent, sameE, sameK, rowsA⟩ := Store.insertApplication_spec registered
  obtain ⟨noEndpoint, noKey⟩ := no_rows absent
  obtain ⟨sameA₁, sameK₁, -, rowsE⟩ := Store.insertEndpoint_spec inserted
  obtain ⟨sameA₂, sameE₂, -, rowsK⟩ := Store.insertKey_spec keyed
  have frame : Frame call.application s t :=
    (Frame.insertApplication registered rfl).trans
      ((Frame.insertEndpoint inserted rfl).trans (Frame.insertKey keyed rfl))
  have endpoints : ∀ e, e ∈ t.endpoints ↔ e = createdEndpoint p call ∨ e ∈ s.endpoints := by
    intro e
    rw [sameE₂, rowsE, sameE]
  have keys : ∀ k, k ∈ t.keys ↔ k = createdKey call ∨ k ∈ s.keys := by
    intro k
    rw [rowsK, sameK₁, sameK]
  refine ⟨⟨?_, ?_, ?_, ?_, sound.hosts.step frame ?_⟩, ?_, frame, .inr ?_⟩
  · refine (((sound.keyed.same_rows sameE sameK).insertEndpoint inserted).insertKey keyed rfl).mono
      fun i held => ?_
    obtain ⟨nothing | here, apart⟩ := held
    · exact nothing
    · exact apart here
  · refine sound.onePending.add ?_ fun e mem => (endpoints e).mp mem
    exact fun _ e mem owner => absurd owner (noEndpoint e mem)
  · intro k mem l memL sameApp sameVersion
    rcases (keys k).mp mem with rfl | old
    · rcases (keys l).mp memL with rfl | oldL
      · rfl
      · exact absurd sameApp.symm (noKey l oldL)
    · rcases (keys l).mp memL with rfl | oldL
      · exact absurd sameApp (noKey k old)
      · exact sound.oneSecret k old l oldL sameApp sameVersion
  · exact sound.digested.add rfl fun e mem => (endpoints e).mp mem
  · intro a mem same
    rw [sameA₂, sameA₁] at mem
    rcases (rowsA a).mp mem with rfl | old
    · refine iff_of_true rfl ⟨_, (endpoints _).mpr (.inl rfl), rfl, ?_⟩
      cases testing : p.testing with
      | true => exact .inl (by simp [createdEndpoint, testing])
      | false => exact .inr (by simp [createdEndpoint, testing])
    · exact absurd same (absent a old)
  · refine .add keys ?_
    rintro k rfl old mem owner
    exact absurd owner (noKey old mem)
  · intro old mem owner
    exact absurd owner (absent old mem)

/-! ## Replacement -/

theorem replaced_own {e : Endpoint} (picked : replaced p app e = true) :
    e.application = app :=
  (of_decide_eq_true picked).1

theorem replace_kept {call : ReplaceCall} (sound : Sound p s) (done : replace p s call = .ok t) :
    Kept p call.application s t := by
  obtain ⟨a, oldKey, s₁, s₂, memA, idA, kept, -, inserted, keyed, rfl⟩ := replace_effect done
  obtain ⟨sameA₁, sameK₁, -, rowsE⟩ := Store.insertEndpoint_spec inserted
  obtain ⟨sameA₂, sameE₂, -, rowsK⟩ := Store.insertKey_spec keyed
  have frame : Frame call.application s s₂ :=
    (Frame.retireEndpoints fun _ => replaced_own).trans
      ((Frame.insertEndpoint inserted rfl).trans (Frame.insertKey keyed rfl))
  have keys : ∀ k, k ∈ s₂.keys ↔
      k = replacementKey p oldKey (s.nextSigningSecretVersion call.application) call ∨ k ∈ s.keys := by
    intro k
    rw [rowsK, sameK₁, Store.retireEndpoints_keys]
  have above : ∀ old ∈ s.keys, old.application = call.application →
      old.secretVersion < s.nextSigningSecretVersion call.application := by
    intro old mem owner
    rw [← owner]
    exact Nat.lt_succ_of_le (Store.le_latest mem)
  refine ⟨Sound.bumpApplication ⟨?_, ?_, ?_, ?_, sound.hosts.step frame ?_⟩, ?_,
    frame.trans .setApplication, .inr (bumpApplication_raised (sameA₂.trans sameA₁))⟩
  · refine (((sound.keyed.retireEndpoints (by decide)).insertEndpoint inserted).insertKey
      keyed rfl).mono fun i held => ?_
    obtain ⟨nothing | here, apart⟩ := held
    · exact nothing
    · exact apart here
  · refine (sound.onePending.retireEndpoints (by decide)).add ?_ fun e mem => (rowsE e).mp (sameE₂ ▸ mem)
    intro _
    refine nonePending_retireEndpoints (by decide) fun e _ owner status => ?_
    exact decide_eq_true ⟨owner, .inl status⟩
  · refine OneSecret.insertKey (s := s₁) ?_ keyed ?_
    · intro k mem l memL
      rw [sameK₁] at mem memL
      exact sound.oneSecret k mem l memL
    · intro k mem owner version
      rw [sameK₁] at mem
      have := above k mem owner
      exact absurd version (Nat.ne_of_lt this)
  · refine sound.digested.retireEndpoints.add rfl fun e mem => (rowsE e).mp (sameE₂ ▸ mem)
  · intro b mem same
    rw [sameA₂, sameA₁] at mem
    rw [s.applications.unique mem memA (same.trans idA.symm)]
    refine iff_of_true kept ⟨replacementEndpoint p call, ?_, rfl, ?_⟩
    · rw [sameE₂]
      exact (rowsE _).mpr (.inl rfl)
    · cases testing : p.testing with
      | true => exact .inl (by simp [replacementEndpoint, testing])
      | false => exact .inr (by simp [replacementEndpoint, testing])
  · refine .add keys ?_
    rintro k rfl
    exact above

/-! ## Approval -/

theorem superseded_own {approved : Nat} {e : Endpoint}
    (picked : superseded app approved e = true) : e.application = app :=
  (of_decide_eq_true picked).1

/-- The endpoints after an approval: the approved one active, the other live ones retired. -/
theorem Activated.endpoints {version : Nat} {pending : Endpoint}
    (activated : Activated s t app version pending) :
    t.keys = s.keys ∧ ∀ e, e ∈ t.endpoints ↔ ∃ old ∈ s.endpoints,
      e = if old.id = pending.id then { old with status := .active }
        else if superseded app pending.id old then { old with status := .retired } else old := by
  obtain ⟨s₁, done, rfl⟩ := activated.ran
  obtain ⟨-, keys, rows⟩ := Store.activateEndpoint_spec done
  refine ⟨keys, fun e => ?_⟩
  show e ∈ s₁.endpoints ↔ _
  rw [rows]
  have passed : superseded app pending.id pending = false := by simp [superseded]
  constructor
  · rintro ⟨middle, mem, rfl⟩
    obtain ⟨old, held, rfl⟩ := Store.mem_retireEndpoints.mp mem
    refine ⟨old, held, ?_⟩
    by_cases here : old.id = pending.id
    · rw [s.endpoints.unique held activated.mem here]
      simp [passed]
    · by_cases gone : superseded app pending.id old = true <;> simp [gone, here]
  · rintro ⟨old, held, rfl⟩
    refine ⟨_, Store.mem_retireEndpoints.mpr ⟨old, held, rfl⟩, ?_⟩
    by_cases here : old.id = pending.id
    · rw [s.endpoints.unique held activated.mem here]
      simp [passed]
    · by_cases gone : superseded app pending.id old = true <;> simp [gone, here]

theorem Activated.kept {version : Nat} {pending : Endpoint} (sound : Sound p s)
    (activated : Activated s t app version pending) : Kept p app s t := by
  obtain ⟨keys, rows⟩ := activated.endpoints
  obtain ⟨a, memA, idA, kept, -⟩ := activated.application
  obtain ⟨s₁, done, rfl⟩ := activated.ran
  obtain ⟨sameA, sameK, -⟩ := Store.activateEndpoint_spec done
  have own : ∀ e ∈ (s.retireEndpoints (superseded app pending.id) .retired (by decide)).endpoints,
      decide (e.id = pending.id) = true → e.application = app ∧ e.Live := by
    intro e mem picked
    have here := of_decide_eq_true picked
    obtain ⟨old, held, rfl⟩ := Store.mem_retireEndpoints.mp mem
    have here : old.id = pending.id := by split at here <;> exact here
    obtain rfl := s.endpoints.unique held activated.mem here
    rw [if_neg (by simp [superseded])]
    exact ⟨activated.owner, .inr activated.status⟩
  have frame : Frame app s s₁ :=
    (Frame.retireEndpoints fun _ => superseded_own).trans
      (Frame.activateEndpoint done fun e mem picked => (own e mem picked).1)
  refine ⟨Sound.bumpApplication ⟨?_, ?_, ?_, ?_, sound.hosts.step frame ?_⟩, .of_keys keys,
    frame.trans .setApplication, .inr (bumpApplication_raised sameA)⟩
  · exact (sound.keyed.retireEndpoints (by decide)).activateEndpoint done
      fun e mem picked => (own e mem picked).2
  · exact (sound.onePending.retireEndpoints (by decide)).activateEndpoint done
  · intro k mem l memL
    rw [sameK] at mem memL
    exact sound.oneSecret k mem l memL
  · exact sound.digested.retireEndpoints.activateEndpoint done
  · intro b mem same
    rw [sameA] at mem
    rw [s.applications.unique mem memA (same.trans idA.symm)]
    refine iff_of_true kept ⟨{ pending with status := .active }, ?_, activated.owner, .inl rfl⟩
    exact (rows _).mpr ⟨pending, activated.mem, by rw [if_pos rfl]⟩

/-! ## Rotation -/

/-- The endpoints a rotation lists are the live ones, each once. -/
structure Lists (s : Store) (app : String) (endpoints : List Nat) : Prop where
  distinct : endpoints.Nodup
  mem : ∀ i, i ∈ endpoints ↔ ∃ e ∈ s.endpoints, e.id = i ∧ e.application = app ∧ e.Live

theorem mem_liveEndpoints {e : Endpoint} :
    e ∈ liveEndpoints s app ↔ e ∈ s.endpoints ∧ e.application = app ∧ e.Live := by
  rw [liveEndpoints, List.mem_filter, Store.mem_endpointsOf, decide_eq_true_iff, and_assoc]

theorem lists_live (s : Store) (app : String) :
    Lists s app ((liveEndpoints s app).map Endpoint.id) := by
  constructor
  · exact ((List.filter_sublist.trans List.filter_sublist).map Endpoint.id).nodup
      s.endpoints.distinct
  · intro i
    rw [List.mem_map]
    constructor
    · rintro ⟨e, mem, rfl⟩
      obtain ⟨held, owner, live⟩ := mem_liveEndpoints.mp mem
      exact ⟨e, held, rfl, owner, live⟩
    · rintro ⟨e, held, rfl, owner, live⟩
      exact ⟨e, mem_liveEndpoints.mpr ⟨held, owner, live⟩, rfl⟩

theorem Lists.perm {endpoints other : List Nat} (lists : Lists s app endpoints)
    (perm : other.Perm endpoints) : Lists s app other :=
  ⟨perm.nodup_iff.mpr lists.distinct, fun i => perm.mem_iff.trans (lists.mem i)⟩

theorem lists_direct (s : Store) (app : String) : Lists s app (directEndpoints s app) :=
  (lists_live s app).perm ((List.perm_insertionSort _ _).map Endpoint.id)

theorem lists_managed (s : Store) (app : String) : Lists s app (managedEndpoints s app) :=
  (lists_live s app).perm (List.perm_insertionSort _ _)

/-- The conditions on what a rotation retires and on its versions. -/
structure Rotates (s : Store) (app : String) (endpoints : List Nat) (picked : SigningKey → Bool)
    (versionAt : Nat → Nat) : Prop where
  lists : Lists s app endpoints
  own : ∀ k, picked k = true → k.application = app
  all : ∀ k, k.application = app → k.endpoint ∈ endpoints → k.status = .active → picked k = true
  above : ∀ i, s.latestSecretVersion app < versionAt i

theorem rotates_direct (s : Store) (app : String) :
    Rotates s app (directEndpoints s app) (directPicked s app)
      fun _ => s.nextSigningSecretVersion app where
  lists := lists_direct s app
  own := fun _ picked => (of_decide_eq_true picked).1
  all := fun _ owner listed active => decide_eq_true ⟨owner, listed, active⟩
  above := fun _ => Nat.lt_succ_self _

theorem rotates_managed (s : Store) (app : String) :
    Rotates s app (managedEndpoints s app) (managedPicked app)
      fun i => s.latestSecretVersion app + (i + 1) where
  lists := lists_managed s app
  own := fun _ picked => (of_decide_eq_true picked).1
  all := fun _ owner _ active => decide_eq_true ⟨owner, active⟩
  above := fun i => by omega

theorem Rotated.kept {call : RotateCall} {endpoints : List Nat} {picked : SigningKey → Bool} (sound : Sound p s)
    (rotates : Rotates s call.application endpoints picked versionAt)
    (rotated : Rotated s t call endpoints picked versionAt) : Kept p call.application s t := by
  obtain ⟨a, memA, idA, kept⟩ := rotated.application
  obtain ⟨s₁, installed, rfl⟩ := rotated.ran
  obtain ⟨sameA, sameE, rowsK⟩ := installKeys_spec installed
  have above : ∀ i, ∀ old ∈ s.keys, old.application = call.application →
      old.secretVersion < versionAt i := by
    intro i old mem owner
    have below := Store.le_latest mem
    rw [owner] at below
    exact Nat.lt_of_le_of_lt below (rotates.above i)
  have extended : Extends s s₁ := by
    refine Extends.retireKeys.trans (.add rowsK ?_)
    rintro k ⟨j, e, -, rfl⟩ old mem owner
    obtain ⟨older, held, rfl⟩ := Store.mem_retireKeys.mp mem
    have owner : older.application = call.application := by split at owner <;> exact owner
    have := above (0 + j) older held owner
    split <;> exact this
  have frame : Frame call.application s s₁ := by
    refine (Frame.retireKeys fun k _ => rotates.own k).trans (.add sameA (fun e _ => by rw [sameE]) ?_)
    intro k apart
    rw [rowsK]
    refine or_iff_right ?_
    rintro ⟨j, e, -, rfl⟩
    exact apart rfl
  refine ⟨Sound.bumpApplication ⟨?_, ?_, ?_, ?_, sound.hosts.step frame ?_⟩,
    extended.trans (.of_keys rfl),
    frame.trans .setApplication, .inr (bumpApplication_raised sameA)⟩
  · refine installKeys_keyed ((sound.keyed.mono fun _ => False.elim).retireKeys ?_) installed
    intro k held chosen e mem live here
    obtain ⟨f, heldF, sameF, owner⟩ := s.valid.owned k held
    obtain rfl := s.endpoints.unique mem heldF (here.trans sameF.symm)
    exact (rotates.lists.mem _).mpr ⟨e, mem, rfl, owner.trans (rotates.own k chosen), live⟩
  · intro e mem f memF
    rw [sameE] at mem memF
    exact sound.onePending e mem f memF
  · intro k mem l memL sameApp sameVersion
    have older : ∀ k : SigningKey, k ∈ (s.retireKeys picked .retiring (by decide)).keys →
        k.application = call.application → ∀ i, k.secretVersion ≠ versionAt i := by
      intro k held owner i
      obtain ⟨old, heldOld, rfl⟩ := Store.mem_retireKeys.mp held
      have owner : old.application = call.application := by split at owner <;> exact owner
      have := above i old heldOld owner
      split <;> exact Nat.ne_of_lt this
    rcases (rowsK k).mp mem with ⟨i, e, -, rfl⟩ | old
    · rcases (rowsK l).mp memL with ⟨j, f, -, rfl⟩ | oldL
      · rfl
      · exact absurd sameVersion.symm (older l oldL sameApp.symm _)
    · rcases (rowsK l).mp memL with ⟨j, f, -, rfl⟩ | oldL
      · exact absurd sameVersion (older k old sameApp _)
      · exact sound.oneSecret.retireKeys k old l oldL sameApp sameVersion
  · intro e mem
    rw [sameE] at mem
    exact sound.digested e mem
  · intro b mem same
    rw [sameA] at mem
    rw [sameE, ← idA]
    obtain rfl := s.applications.unique mem memA (same.trans idA.symm)
    exact sound.hosts b mem

/-! ## Configuration -/

theorem upserted_mem {row : Endpoint} (done : s.upsertEndpoint row = some t) :
    ∃ e ∈ t.endpoints, e.id = row.id ∧ e.url = row.url ∧ e.status = row.status := by
  obtain ⟨-, -, ⟨old, held, same, rows⟩ | ⟨-, rows⟩⟩ := Store.upsertEndpoint_spec done
  · exact ⟨_, (rows _).mpr (.inl rfl), same, rfl, rfl⟩
  · exact ⟨row, (rows row).mpr (.inl rfl), rfl, rfl, rfl⟩

/-- What an upsert leaves: the row, and rows from before. -/
theorem upserted_rows {row : Endpoint} (done : s.upsertEndpoint row = some t) :
    ∀ e ∈ t.endpoints, e ∈ s.endpoints ∨ (e.id = row.id ∧ e.url = row.url ∧ e.status = row.status ∧
      (e = row ∨ ∃ old ∈ s.endpoints, old.id = row.id ∧ e.application = old.application ∧
        e.urlDigest = old.urlDigest)) := by
  intro e mem
  obtain ⟨-, -, ⟨old, held, same, rows⟩ | ⟨-, rows⟩⟩ := Store.upsertEndpoint_spec done
  · rcases (rows e).mp mem with rfl | ⟨other, -⟩
    · exact .inr ⟨same, rfl, rfl, .inr ⟨old, held, same, rfl, rfl⟩⟩
    · exact .inl other
  · rcases (rows e).mp mem with rfl | other
    · exact .inr ⟨rfl, rfl, rfl, .inl rfl⟩
    · exact .inl other

/-- The rows of this identifier are the application's, at this digest. -/
def OwnRow (s : Store) (app : String) (digest : Bytes) (endpoint : Nat) : Prop :=
  ∀ e ∈ s.endpoints, e.id = endpoint → e.application = app ∧ e.urlDigest = digest

theorem ownRow_of_known {digest : Bytes} {endpoint fresh : Nat}
    (unused : ∀ e ∈ s.endpoints, e.id ≠ fresh)
    (known : (∃ e ∈ s.endpoints, e.id = endpoint ∧ e.application = app ∧ e.urlDigest = digest) ∨
      endpoint = fresh) : OwnRow s app digest endpoint := by
  intro e mem here
  rcases known with ⟨f, memF, idF, owner, same⟩ | rfl
  · rw [s.endpoints.unique mem memF (here.trans idF.symm)]
    exact ⟨owner, same⟩
  · exact absurd here (unused e mem)

theorem OwnRow.retireEndpoints {digest : Bytes} {endpoint : Nat} {f : Endpoint → Bool}
    {status : EndpointStatus} {off : status ≠ .active} (own : OwnRow s app digest endpoint) :
    OwnRow (s.retireEndpoints f status off) app digest endpoint := by
  intro e mem here
  obtain ⟨old, held, rfl⟩ := Store.mem_retireEndpoints.mp mem
  have here : old.id = endpoint := by split at here <;> exact here
  split <;> exact own old held here

/-- The row an upsert leaves under its identifier is the application's. -/
theorem OwnRow.upserted {row : Endpoint} (own : OwnRow s row.application row.urlDigest row.id)
    (done : s.upsertEndpoint row = some t) : OwnRow t row.application row.urlDigest row.id := by
  intro e mem here
  rcases upserted_rows done e mem with old | ⟨-, -, -, rfl | ⟨old, held, same, owner, digest⟩⟩
  · exact own e old here
  · exact ⟨rfl, rfl⟩
  · obtain ⟨ownOwner, ownDigest⟩ := own old held same
    exact ⟨owner.trans ownOwner, digest.trans ownDigest⟩

/-- The tables once a destination is configured, for an application that is there. -/
theorem Configured.kept {webhook : Webhook} {generated : Nat → Nat} {now : Nat}
    (keyed : Keyed (fun _ => False) s) (onePending : OnePending s) (oneSecret : OneSecret s)
    (digested : Digested p s) (unused : ∀ e ∈ s.endpoints, e.id ≠ generated 0)
    (configured : Configured p s t app webhook generated now) :
    Keyed (fun _ => False) t ∧ OnePending t ∧ OneSecret t ∧ Digested p t ∧ Extends s t ∧
      Frame app s t ∧ t.applications = s.applications ∧
      ∃ e ∈ t.endpoints, e.application = app ∧ e.Live := by
  cases configured with
  | unchanged current mem owner digest live presented same =>
      subst same
      exact ⟨keyed, onePending, oneSecret, digested, .of_keys rfl, .refl app t, rfl, current, mem,
        owner, live⟩
  | changed secret presented dead endpoint known s₁ upserted installed =>
      obtain ⟨sameA₁, sameK₁, -⟩ := Store.upsertEndpoint_spec upserted
      have sameK₁ : s₁.keys = s.keys := sameK₁
      obtain ⟨sameA₂, sameE₂, -, rowsK⟩ := Store.insertKey_spec installed
      have ownRetired : OwnRow (s.retireEndpoints (fun e => e.application = app ∧
          e.status = .pendingReview) .retired (by decide)) app (p.sha256 webhook.url) endpoint :=
        (ownRow_of_known unused (known.imp_right And.right)).retireEndpoints
      have own : OwnRow s₁ app (p.sha256 webhook.url) endpoint := ownRetired.upserted upserted
      obtain ⟨row, rowMem, rowId, -, rowStatus⟩ := upserted_mem upserted
      have rowOwner : row.application = app := (own row rowMem rowId).1
      have ownKey : ∀ k ∈ s₁.keys, decide (k.endpoint = endpoint ∧
          (k.status = .active ∨ k.status = .retiring)) = true → k.application = app := by
        intro k mem picked
        obtain ⟨e, held, same, owner⟩ := s₁.valid.owned k mem
        obtain ⟨at_, -⟩ := of_decide_eq_true picked
        rw [← owner, s₁.endpoints.unique held rowMem ((same.trans at_).trans rowId.symm)]
        exact rowOwner
      have none : NonePending (s.retireEndpoints
          (fun e => e.application = app ∧ e.status = .pendingReview) .retired (by decide)) app :=
        nonePending_retireEndpoints (by decide) fun e _ owner status => decide_eq_true ⟨owner, status⟩
      have frame : Frame app s t :=
        (Frame.retireEndpoints fun e picked => (of_decide_eq_true picked).1).trans
          ((Frame.upsertEndpoint upserted rfl fun e mem here => (ownRetired e mem here).1).trans
            ((Frame.retireKeys ownKey).trans (Frame.insertKey installed rfl)))
      have above : ∀ old ∈ (s₁.retireKeys (fun k => k.endpoint = endpoint ∧
          (k.status = .active ∨ k.status = .retiring)) .retired (by decide)).keys,
          old.application = app → old.secretVersion <
            (s₁.retireKeys (fun k => k.endpoint = endpoint ∧
              (k.status = .active ∨ k.status = .retiring)) .retired
              (by decide)).nextSigningSecretVersion app := by
        intro old mem owner
        rw [← owner]
        exact Nat.lt_succ_of_le (Store.le_latest mem)
      refine ⟨?_, ?_, ?_, ?_, ?_, frame, sameA₂.trans sameA₁, row, sameE₂ ▸ rowMem, rowOwner,
        .inr rowStatus⟩
      · -- the endpoint is bare from its upsert until its key is installed
        have upserted := (keyed.retireEndpoints (by decide)).upsertEndpoint upserted
        refine ((upserted.retireKeys fun k _ picked e _ _ here => ?_).insertKey installed rfl).mono
          fun i held => ?_
        · exact .inr (here.trans (of_decide_eq_true picked).1)
        · obtain ⟨nothing | here, apart⟩ := held
          · exact nothing
          · exact apart here
      · have pending : OnePending s₁ := by
          intro e mem f memF same on onF
          rcases upserted_rows upserted e mem with old | ⟨idE, -⟩
          · rcases upserted_rows upserted f memF with oldF | ⟨idF, -⟩
            · exact onePending.retireEndpoints (by decide) e old f oldF same on onF
            · exact absurd on (none e old (same.trans (own f memF idF).1))
          · rcases upserted_rows upserted f memF with oldF | ⟨idF, -⟩
            · exact absurd onF (none f oldF (same.symm.trans (own e mem idE).1))
            · exact s₁.endpoints.unique mem memF (idE.trans idF.symm)
        intro e mem f memF
        rw [sameE₂] at mem memF
        exact pending e mem f memF
      · refine OneSecret.insertKey (OneSecret.retireKeys ?_) installed ?_
        · intro k mem l memL
          rw [sameK₁] at mem memL
          exact oneSecret k mem l memL
        · intro k mem owner version
          exact absurd version (Nat.ne_of_lt (above k mem owner))
      · intro e mem
        rw [sameE₂] at mem
        rcases upserted_rows upserted e mem with old | ⟨idE, url, -⟩
        · exact digested.retireEndpoints e old
        · rw [(own e mem idE).2, url]
          rfl
      · refine (Extends.of_keys sameK₁).trans (Extends.retireKeys.trans (.add rowsK ?_))
        rintro k rfl
        exact above

variable {call : ConfigureCall}

theorem prepared_rows {a : Application}
    (mem : a ∈ (prepared s call).applications) :
    ∃ old ∈ s.applications, a.id = old.id ∧ a.deleted = old.deleted := by
  obtain ⟨old, held, rfl⟩ := Store.mem_setApplication.mp mem
  refine ⟨old, held, ?_⟩
  split <;> exact ⟨rfl, rfl⟩

theorem revised_rows {a : Application}
    (mem : a ∈ (revised s call).applications) :
    ∃ old ∈ s.applications, a.id = old.id ∧ a.deleted = old.deleted := by
  obtain ⟨middle, mem, same, deleted⟩ := mem_bumpApplication mem
  obtain ⟨old, held, rfl⟩ := Store.mem_setApplication.mp mem
  refine ⟨old, held, same.trans ?_, deleted.trans ?_⟩ <;> split <;> rfl

theorem prepared_extends : Extends s (prepared s call) := .of_keys rfl

theorem revised_extends : Extends s (revised s call) := .of_keys rfl

theorem revised_raised (same : t.applications = (prepared s call).applications) :
    Raised call.application s (revised t call) := by
  intro old held owner
  have prep : { old with
      reviewStatus := call.status
      visibilityPublic := call.visibilityPublic
      version := old.version + call.writes } ∈ t.applications := by
    rw [same]
    exact Store.mem_setApplication.mpr ⟨old, held, by rw [if_pos owner]⟩
  refine ⟨_, Store.mem_setApplication.mpr ⟨_, Store.mem_setApplication.mpr ⟨_, prep, rfl⟩, rfl⟩, ?_⟩
  have owner' : old.id = call.application := owner
  simp only [owner', if_true]
  exact ⟨trivial, by omega⟩

/-- A configuration of an application that is there, applied. -/
theorem configured_kept {s₁ : Store} (sound : Sound p s)
    (unused : ∀ e ∈ s.endpoints, e.id ≠ call.generated 0)
    (present : ∃ a ∈ s.applications, a.id = call.application ∧ a.deleted = false)
    (configured : Configured p (prepared s call) s₁ call.application call.webhook call.generated
      call.now) : Kept p call.application s (revised s₁ call) := by
  obtain ⟨keyed, onePending, oneSecret, digested, extended, frame, sameA, e, mem, owner, live⟩ :=
    configured.kept (s := prepared s call) (sound.keyed.same_rows rfl rfl) sound.onePending sound.oneSecret sound.digested
      unused
  have frame : Frame call.application s (revised s₁ call) :=
    Frame.setApplication.trans (frame.trans (Frame.setApplication.trans .setApplication))
  refine ⟨⟨keyed.same_rows rfl rfl, onePending, oneSecret, digested, sound.hosts.step frame ?_⟩,
    prepared_extends.trans (extended.trans revised_extends), frame, .inr (revised_raised sameA)⟩
  intro b held same
  obtain ⟨middle, held, sameId, deleted⟩ := revised_rows held
  rw [sameA] at held
  obtain ⟨old, held, oldId, oldDeleted⟩ := prepared_rows held
  obtain ⟨a, memA, idA, kept⟩ := present
  obtain rfl := s.applications.unique held memA
    ((oldId.symm.trans (sameId.symm.trans same)).trans idA.symm)
  exact iff_of_true (deleted.trans (oldDeleted.trans kept)) ⟨e, mem, owner, live⟩

/-- A configuration of a new application. -/
theorem registered_kept {s₀ s₁ : Store} (sound : Sound p s)
    (unused : ∀ e ∈ s.endpoints, e.id ≠ call.generated 0)
    (registered : s.insertApplication ⟨call.application, .verified, false, false, 0, 1⟩ = some s₀)
    (configured : Configured p (prepared s₀ call) s₁ call.application call.webhook call.generated
      call.now) : Kept p call.application s (revised s₁ call) := by
  obtain ⟨absent, sameE, sameK, rowsA⟩ := Store.insertApplication_spec registered
  obtain ⟨keyed, onePending, oneSecret, digested, extended, frame, sameA, e, mem, owner, live⟩ :=
    configured.kept (s := prepared s₀ call) (sound.keyed.same_rows sameE sameK)
      (fun e mem f memF => sound.onePending e (sameE ▸ mem) f (sameE ▸ memF))
      (fun k mem l memL => sound.oneSecret k (sameK ▸ mem) l (sameK ▸ memL))
      (fun e mem => sound.digested e (sameE ▸ mem)) fun e mem => unused e (sameE ▸ mem)
  have frame : Frame call.application s (revised s₁ call) :=
    (Frame.insertApplication registered rfl).trans
      (Frame.setApplication.trans (frame.trans (Frame.setApplication.trans .setApplication)))
  refine ⟨⟨keyed.same_rows rfl rfl, onePending, oneSecret, digested, sound.hosts.step frame ?_⟩,
    (Extends.of_keys sameK).trans (prepared_extends.trans (extended.trans revised_extends)), frame,
    .inr ?_⟩
  · intro b held same
    obtain ⟨middle, held, sameId, deleted⟩ := revised_rows held
    rw [sameA] at held
    obtain ⟨old, held, oldId, oldDeleted⟩ := prepared_rows held
    rcases (rowsA old).mp held with rfl | older
    · exact iff_of_true (deleted.trans oldDeleted) ⟨e, mem, owner, live⟩
    · exact absurd (oldId.symm.trans (sameId.symm.trans same)) (absent old older)
  · intro old held here
    exact absurd here (absent old held)

/-! ## Deletion -/

theorem retireCredentials_onePending (one : OnePending s) :
    OnePending (retireApplicationCredentials s app) := by
  exact OnePending.retireEndpoints (s := s.retireKeys _ _ _) one (by decide)

theorem retireCredentials_digested (digested : Digested p s) :
    Digested p (retireApplicationCredentials s app) := by
  exact Digested.retireEndpoints (s := s.retireKeys _ _ _) digested

theorem retireCredentials_extends :
    Extends s (retireApplicationCredentials s app) := by
  have retired : Extends s (s.retireKeys (compromisedKey app) .compromised (by decide)) := .retireKeys
  exact retired.trans (.of_keys rfl)

theorem retireCredentials_oneSecret (one : OneSecret s) :
    OneSecret (retireApplicationCredentials s app) := by
  have retired : OneSecret (s.retireKeys (compromisedKey app) .compromised (by decide)) :=
    one.retireKeys
  exact retired

theorem markDeleted_rows {a : Application} (mem : a ∈ (markDeleted s app).applications) :
    a.id = app → a.deleted = true := by
  intro here
  obtain ⟨old, held, rfl⟩ := Store.mem_setApplication.mp mem
  have owner : old.id = app := by split at here <;> exact here
  rw [if_pos owner]

/-- A deleted application has no live endpoint. -/
theorem retireCredentials_dead :
    ∀ e ∈ (retireApplicationCredentials s app).endpoints, e.application = app → ¬ e.Live := by
  intro e mem owner live
  obtain ⟨old, held, rfl⟩ := Store.mem_retireEndpoints.mp mem
  split at live
  · exact absurd live (by simp [Endpoint.Live])
  · rename_i spared
    rw [if_neg spared] at owner
    exact spared (decide_eq_true ⟨owner, live⟩)

theorem delete_kept {call : DeleteCall} (sound : Sound p s) (done : delete s call = .ok t) :
    Kept p call.application s t := by
  obtain rfl := delete_effect done
  have frame : Frame call.application s
      (bumpApplication (retireApplicationCredentials (markDeleted s call.application)
        call.application) call.application) :=
    Frame.setApplication.trans
      ((Frame.retireKeys fun k _ picked => (of_decide_eq_true picked).1).trans
        ((Frame.retireEndpoints fun e picked => (of_decide_eq_true picked).1).trans
          .setApplication))
  have marked : Raised call.application s (markDeleted s call.application) :=
    setApplication_raised rfl fun _ => Nat.lt_succ_self _
  have markedKeys : Extends s (markDeleted s call.application) := .of_keys rfl
  refine ⟨⟨?_, retireCredentials_onePending sound.onePending,
    retireCredentials_oneSecret sound.oneSecret, retireCredentials_digested sound.digested,
    sound.hosts.step frame ?_⟩, markedKeys.trans (retireCredentials_extends.trans (.of_keys rfl)),
    frame, .inr (marked.trans (bumpApplication_raised rfl))⟩
  · -- a live endpoint afterwards is another application's, whose keys are kept
    intro e mem live _
    have apart : e.application ≠ call.application := fun owner =>
      retireCredentials_dead e mem owner live
    obtain ⟨k, held, at_, active⟩ := sound.keyed e ((frame.endpoints e apart).mp mem) live id
    obtain ⟨f, heldF, sameF, owner⟩ := s.valid.owned k held
    obtain rfl := s.endpoints.unique heldF ((frame.endpoints e apart).mp mem) (sameF.trans at_)
    exact ⟨k, (frame.keys k (owner ▸ apart)).mpr held, at_, active⟩
  · intro a mem same
    obtain ⟨middle, mem, sameId, deleted⟩ := mem_bumpApplication mem
    rw [deleted, markDeleted_rows mem (sameId.symm.trans same)]
    refine iff_of_false (by simp) ?_
    rintro ⟨e, held, owner, live⟩
    exact retireCredentials_dead e held owner live

/-! ## Requests -/

theorem revise_kept {call : ReviseCall} (sound : Sound p s) :
    Kept p call.application s (revise s call) := by
  refine ⟨⟨sound.keyed.same_rows rfl rfl, sound.onePending, sound.oneSecret, sound.digested, ?_⟩,
    .of_keys rfl, .setApplication, .inr (setApplication_raised rfl fun _ => Nat.lt_succ_self _)⟩
  intro a mem
  obtain ⟨old, held, rfl⟩ := Store.mem_setApplication.mp mem
  have hosts := sound.hosts old held
  split <;> exact hosts

theorem handle_kept {request : Request} (sound : Sound p s) (fresh : Fresh s request)
    (done : handle p s request = .ok t) : Kept p request.application s t := by
  cases request with
  | create call => exact create_kept sound done
  | replace call => exact replace_kept sound done
  | approve call =>
      obtain ⟨-, pending, -, activated⟩ := approve_effect done
      exact activated.kept sound
  | webhookApproval call =>
      obtain ⟨-, pending, -, activated⟩ := webhookApproval_effect done
      exact activated.kept sound
  | rotateSecret call =>
      exact (rotateSecret_effect done).kept sound (rotates_direct s call.application)
  | rotate call => exact (rotate_effect done).kept sound (rotates_managed s call.application)
  | configure call =>
      have unused := (fresh call.generated rfl).endpoints 0
      rcases configure_effect done with rfl | ⟨s₀, s₁, ⟨rfl, present⟩ | registered, configured, rfl⟩
      · exact ⟨sound, .of_keys rfl, .refl _ _, .inl rfl⟩
      · exact configured_kept sound unused present configured
      · exact registered_kept sound unused registered configured
  | activate call =>
      obtain ⟨s₁, present, configured, rfl⟩ := activate_effect done
      exact configured_kept sound ((fresh call.generated rfl).endpoints 0) present configured
  | delete call => exact delete_kept sound done
  | revise call =>
      obtain rfl := Except.ok.inj done
      exact revise_kept sound

/-- One request: refused and rolled back, or all that a success does. -/
theorem next_kept {request : Request} (sound : Sound p s) (fresh : Fresh s request) :
    Kept p request.application s (next p s request) := by
  unfold next
  split
  · exact handle_kept sound fresh ‹_›
  · exact ⟨sound, .of_keys rfl, .refl _ _, .inl rfl⟩

end SiliconIam.Applications
