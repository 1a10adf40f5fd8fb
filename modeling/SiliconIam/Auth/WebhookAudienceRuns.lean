/-
# Auth.WebhookAudienceRuns -- the audience of an event is fixed when it is committed

Nobody gets an event whose own transaction did not capture it for them
(`Inv.deliveries`, `captured_inForce`), and a delivery carries the projection of that
transaction (`projection_text`).  What was captured goes out later, too, whatever
happens to the scope it rested on; the consent and the membership, however, are
asked for again (`consentedAt`), by the time of the withdrawal.  That is the time at
which the withdrawing transaction began, and such a transaction may commit after an
event that began later: then the event counts as too late
(`earlier_withdrawal_suppresses`).  `Spares` is what a transaction has to leave alone
of the one consent and the one membership the capture rested on, and `Backed` is what
these two keep then.
-/
import SiliconIam.Auth.WebhookAudience

namespace SiliconIam.Auth.WebhookAudience

open SiliconIam.Theory SiliconIam.Theory.Runs
open SiliconIam.Auth.Authority

set_option autoImplicit false

/-! ## What is captured -/

/-- The consent and the membership are in force at the time for events of the
organization to the application. -/
structure Backs (rows : WebhookRows) (organization application at_ : Nat) (consent : Consent)
    (member : Membership) : Prop where
  own : consent.application = application
  consented : consentAt at_ consent = true
  selected : member.id ∈ consent.selectedMemberships
  subject : member.principal = consent.subject
  within : member.organization = organization
  standing : memberAt rows at_ member = true

/-- They entitle the application to such an event with a scope that is approved for it. -/
structure Entitles (rows : WebhookRows) (organization application at_ : Nat) (consent : Consent)
    (member : Membership) (approved : ScopeApproval) : Prop extends
    Backs rows organization application at_ consent member where
  scope : approved.scope ∈ consent.scopes
  approvedFor : approved.application = application
  approved : approvedAt at_ approved = true

/-- The capture of a transaction that saw `db` and `rows` rested on this consent and this
membership. -/
def RestsOn (db : Db) (rows : WebhookRows) (organization application at_ consent member : Nat) :
    Prop :=
  ∃ c ∈ db.consents, c.id = consent ∧ ∃ m ∈ db.directory.memberships, m.id = member ∧
    ∃ approved ∈ rows.approvals, Entitles rows organization application at_ c m approved

def InForce (db : Db) (rows : WebhookRows) (organization application at_ : Nat) : Prop :=
  ∃ consent member, RestsOn db rows organization application at_ consent member

section Capture

variable {db : Db} {rows : WebhookRows} {organization at_ : Nat}

theorem mem_standing {member : Membership} (mem : member ∈ standing db rows organization at_) :
    member ∈ db.directory.memberships ∧ member.organization = organization ∧
      memberAt rows at_ member = true := by
  obtain ⟨held, holds⟩ := List.mem_filter.mp mem
  simp only [Bool.and_eq_true, decide_eq_true_eq] at holds
  exact ⟨held, holds.1⟩

theorem memberAuthorization_inForce {memberships : List Nat} {row : AuthorizationRow}
    (listed : row ∈ listOrganizationMemberWebhookAuthorizations db rows organization memberships
      at_) : InForce db rows organization row.application at_ := by
  obtain ⟨member, -, listed⟩ := List.mem_flatMap.mp listed
  obtain ⟨selected, selectedMem, listed⟩ := List.mem_flatMap.mp listed
  obtain ⟨consent, consentMem, listed⟩ := List.mem_flatMap.mp listed
  obtain ⟨scope, scopeMem, listed⟩ := List.mem_flatMap.mp listed
  obtain ⟨approved, approvedMem, rfl⟩ := List.mem_map.mp listed
  obtain ⟨consentMem, chosen⟩ := List.mem_filter.mp consentMem
  obtain ⟨approvedMem, suits⟩ := List.mem_filter.mp approvedMem
  obtain ⟨held, within, present⟩ := mem_standing selectedMem
  simp only [selects, Bool.and_eq_true, decide_eq_true_eq, List.contains_iff_mem] at chosen suits
  obtain ⟨⟨⟨⟨subject, -⟩, picked⟩, consented⟩, -⟩ := chosen
  obtain ⟨⟨own, same⟩, inTime⟩ := suits
  refine ⟨_, _, consent, consentMem, rfl, selected, held, rfl, approved, approvedMem, ?_⟩
  exact
    { own := rfl
      consented := consented
      selected := picked
      subject := subject.symm
      within := within
      standing := present
      scope := by rw [same]; exact (List.mem_filter.mp scopeMem).1
      approvedFor := own
      approved := inTime }

theorem scopeAuthorization_inForce {scope : String} {row : Nat × Bool}
    (listed : row ∈ listOrganizationWebhookScopeAuthorizations db rows organization scope at_) :
    InForce db rows organization row.1 at_ := by
  obtain ⟨selected, selectedMem, listed⟩ := List.mem_flatMap.mp listed
  obtain ⟨consent, consentMem, listed⟩ := List.mem_flatMap.mp listed
  obtain ⟨approved, approvedMem, rfl⟩ := List.mem_map.mp listed
  obtain ⟨consentMem, chosen⟩ := List.mem_filter.mp consentMem
  obtain ⟨approvedMem, suits⟩ := List.mem_filter.mp approvedMem
  obtain ⟨held, within, present⟩ := mem_standing selectedMem
  simp only [Bool.and_eq_true, decide_eq_true_eq, List.contains_iff_mem] at chosen suits
  obtain ⟨⟨⟨⟨⟨subject, picked⟩, consented⟩, scopeMem⟩, -⟩, -⟩ := chosen
  obtain ⟨⟨⟨own, same⟩, -⟩, inTime⟩ := suits
  refine ⟨_, _, consent, consentMem, rfl, selected, held, rfl, approved, approvedMem, ?_⟩
  exact
    { own := rfl
      consented := consented
      selected := picked
      subject := subject.symm
      within := within
      standing := present
      scope := by rw [same]; exact scopeMem
      approvedFor := own
      approved := inTime }

/-- The rows with these identifiers are in force for the application at the time. -/
def Backed (at_ organization application consent member : Nat) (db : Db) (rows : WebhookRows) :
    Prop :=
  ∃ c ∈ db.consents, c.id = consent ∧ ∃ m ∈ db.directory.memberships, m.id = member ∧
    Backs rows organization application at_ c m

variable {application consent member : Nat}

theorem RestsOn.backed (rests : RestsOn db rows organization application at_ consent member) :
    Backed at_ organization application consent member db rows := by
  obtain ⟨c, consentMem, consentId, m, memberMem, memberId, approved, -, entitles⟩ := rests
  exact ⟨c, consentMem, consentId, m, memberMem, memberId, entitles.toBacks⟩

/-- Either row is found by the listing. -/
theorem Backed.consentedAt (backed : Backed at_ organization application consent member db rows) :
    consentedAt db rows application organization at_ = true := by
  obtain ⟨c, consentMem, -, m, memberMem, -, backs⟩ := backed
  simp only [Authority.consentedAt, Table.any_eq_true, List.any_eq_true, Bool.and_eq_true,
    decide_eq_true_eq, List.contains_iff_mem]
  exact ⟨c, consentMem, ⟨backs.own, backs.consented⟩, m, memberMem,
    ⟨⟨backs.selected, backs.subject⟩, backs.within⟩, backs.standing⟩

end Capture

namespace Recording

variable {r : Recording} {db : Db} {rows : WebhookRows} {application : Nat}

theorem scopeAuthorizations_inForce {scope : String}
    (mem : application ∈ r.scopeAuthorizations db rows scope) :
    InForce db rows r.organization application r.createdAt := by
  obtain ⟨row, listed, rfl⟩ := List.mem_map.mp mem
  exact scopeAuthorization_inForce listed

/-- An event is only captured for applications that are entitled to it. -/
theorem captured_inForce (captured : application ∈ r.capturedApplications db rows) :
    capturedEventTypes.contains r.eventType = true ∧
      InForce db rows r.organization application r.createdAt := by
  unfold capturedApplications at captured
  split at captured
  · cases captured
  · rename_i known
    have known : capturedEventTypes.contains r.eventType = true := by
      rw [Bool.or_eq_true, not_or] at known
      simpa using known.1
    refine ⟨known, ?_⟩
    split at captured
    · exact scopeAuthorizations_inForce (List.mem_dedup.mp captured)
    · split at captured
      · obtain ⟨row, listed, rfl⟩ := List.mem_map.mp (List.mem_dedup.mp captured)
        exact memberAuthorization_inForce (List.mem_filter.mp listed).1
      · rcases List.mem_append.mp (List.mem_dedup.mp captured) with byMember | byScope
        · obtain ⟨row, listed, rfl⟩ := List.mem_map.mp byMember
          exact memberAuthorization_inForce listed
        · split at byScope
          · exact scopeAuthorizations_inForce byScope
          · cases byScope

end Recording

/-! ## What a run has recorded -/

/-- A transaction that committed an event, with the rows its capture saw. -/
structure Commit where
  recording : Recording
  db : Db
  rows : WebhookRows

def Event.commit? : Event → Option Commit
  | .transaction _ _ _ => none
  | .record r db rows => some ⟨r, db, rows⟩
  | .expand _ _ _ => none

def commits (events : List Event) : List Commit := events.filterMap Event.commit?

section Histories

variable {π : Type} {project : Db → WebhookRows → Recording → Nat → π}

def Commit.captured (c : Commit) : List Nat := c.recording.capturedApplications c.db c.rows

def Commit.projection (project : Db → WebhookRows → Recording → Nat → π) (c : Commit)
    (application : Nat) : Projection π where
  outboxEvent := c.recording.id
  application := application
  payload := project c.db c.rows c.recording application

theorem next_events (s : State π) (e : Event) :
    (next project s e).events = s.events ++ (commits [e]).map fun c => c.recording.event := by
  cases e with
  | transaction at_ db rows => exact (List.append_nil _).symm
  | record r db rows => rfl
  | expand now event accepts => exact (List.append_nil _).symm

theorem next_projections (s : State π) (e : Event) :
    (next project s e).projections =
      s.projections ++ (commits [e]).flatMap fun c => c.captured.map (c.projection project) := by
  cases e with
  | transaction at_ db rows => exact (List.append_nil _).symm
  | record r db rows =>
      show _ = s.projections ++ (_ ++ [])
      rw [List.append_nil]
      rfl
  | expand now event accepts => exact (List.append_nil _).symm

variable {s : State π}

theorem after_events (events : List Event) (s : State π) :
    (after (next project) s events).events =
      s.events ++ (commits events).map fun c => c.recording.event := by
  induction events generalizing s with
  | nil => exact (List.append_nil _).symm
  | cons e rest ih =>
      show (after (next project) (next project s e) rest).events = _
      rw [ih, next_events, List.append_assoc, ← List.map_append]
      show _ = s.events ++ (commits ([e] ++ rest)).map _
      rw [commits, commits, commits, List.filterMap_append]

theorem after_projections (events : List Event) (s : State π) :
    (after (next project) s events).projections =
      s.projections ++
        (commits events).flatMap fun c => c.captured.map (c.projection project) := by
  induction events generalizing s with
  | nil => exact (List.append_nil _).symm
  | cons e rest ih =>
      show (after (next project) (next project s e) rest).projections = _
      rw [ih, next_projections, List.append_assoc, ← List.flatMap_append]
      show _ = s.projections ++ (commits ([e] ++ rest)).flatMap _
      rw [commits, commits, commits, List.filterMap_append]

theorem mem_commits {events : List Event} {c : Commit} :
    c ∈ commits events ↔ .record c.recording c.db c.rows ∈ events := by
  rw [commits, List.mem_filterMap]
  constructor
  · rintro ⟨e, mem, is⟩
    cases e with
    | transaction at_ db rows => cases is
    | record r db rows =>
        cases is
        exact mem
    | expand now event accepts => cases is
  · exact fun mem => ⟨_, mem, rfl⟩

/-! ## Deliveries -/

variable {recipient : Nat × Nat}

section Insert

variable {event : Nat} {recipients : List (Nat × Nat)} {deliveries : List Delivery}

def Delivery.key (d : Delivery) : Nat × Nat := (d.event, d.endpoint)

theorem mem_insertRecipient {d : Delivery}
    (mem : d ∈ State.insertRecipient deliveries event recipient) :
    d ∈ deliveries ∨ d = ⟨event, recipient.1, recipient.2⟩ := by
  unfold State.insertRecipient at mem
  split at mem
  · exact .inl mem
  · exact (List.mem_append.mp mem).imp_right List.mem_singleton.mp

theorem insertRecipient_keeps {d : Delivery} (mem : d ∈ deliveries) :
    d ∈ State.insertRecipient deliveries event recipient := by
  unfold State.insertRecipient
  split
  · exact mem
  · exact List.mem_append_left _ mem

theorem insertRecipient_key (recipient : Nat × Nat) :
    (event, recipient.1) ∈
      (State.insertRecipient deliveries event recipient).map Delivery.key := by
  unfold State.insertRecipient
  split
  · rename_i there
    obtain ⟨d, mem, same⟩ := List.any_eq_true.mp there
    simp only [Bool.and_eq_true, decide_eq_true_eq] at same
    exact List.mem_map.mpr ⟨d, mem, Prod.ext same.1 same.2⟩
  · exact List.mem_map.mpr ⟨_, List.mem_append_right _ (List.mem_singleton_self _), rfl⟩

theorem insertRecipient_nodup (recipient : Nat × Nat)
    (once : (deliveries.map Delivery.key).Nodup) :
    ((State.insertRecipient deliveries event recipient).map Delivery.key).Nodup := by
  unfold State.insertRecipient
  split
  · exact once
  · rename_i absent
    rw [List.map_append]
    refine List.Nodup.append once (List.nodup_singleton _) ?_
    intro key mem new
    obtain ⟨d, held, rfl⟩ := List.mem_map.mp mem
    have same := List.mem_singleton.mp new
    refine absent (List.any_eq_true.mpr ⟨d, held, ?_⟩)
    have event_ : d.event = event := congrArg Prod.fst same
    have endpoint : d.endpoint = recipient.1 := congrArg Prod.snd same
    simp [event_, endpoint]

def insertRecipients (event : Nat) (recipients : List (Nat × Nat)) (deliveries : List Delivery) :
    List Delivery :=
  recipients.foldl (fun deliveries recipient =>
    State.insertRecipient deliveries event recipient) deliveries

theorem mem_insertRecipients {d : Delivery}
    (mem : d ∈ insertRecipients event recipients deliveries) :
    d ∈ deliveries ∨ ∃ recipient ∈ recipients, d = ⟨event, recipient.1, recipient.2⟩ := by
  induction recipients generalizing deliveries with
  | nil => exact .inl mem
  | cons recipient rest ih =>
      rcases ih mem with earlier | ⟨other, later, rfl⟩
      · rcases mem_insertRecipient earlier with old | rfl
        · exact .inl old
        · exact .inr ⟨recipient, List.mem_cons_self, rfl⟩
      · exact .inr ⟨other, List.mem_cons_of_mem _ later, rfl⟩

theorem insertRecipients_keeps {d : Delivery} (mem : d ∈ deliveries) :
    d ∈ insertRecipients event recipients deliveries := by
  induction recipients generalizing deliveries with
  | nil => exact mem
  | cons recipient rest ih => exact ih (insertRecipient_keeps mem)

theorem insertRecipients_key (mem : recipient ∈ recipients) :
    (event, recipient.1) ∈
      (insertRecipients event recipients deliveries).map Delivery.key := by
  induction recipients generalizing deliveries with
  | nil => cases mem
  | cons first rest ih =>
      rcases List.mem_cons.mp mem with rfl | later
      · have there : (event, recipient.1) ∈
            (State.insertRecipient deliveries event recipient).map Delivery.key :=
          insertRecipient_key recipient
        obtain ⟨d, held, same⟩ := List.mem_map.mp there
        have kept : d ∈ insertRecipients event (recipient :: rest) deliveries := by
          show d ∈ insertRecipients event rest (State.insertRecipient deliveries event recipient)
          exact insertRecipients_keeps held
        exact List.mem_map.mpr ⟨d, kept, same⟩
      · exact ih later

theorem insertRecipients_nodup (once : (deliveries.map Delivery.key).Nodup) :
    ((insertRecipients event recipients deliveries).map Delivery.key).Nodup := by
  induction recipients generalizing deliveries with
  | nil => exact once
  | cons recipient rest ih => exact ih (insertRecipient_nodup recipient once)

end Insert

/-! ## The invariant -/

/-- A delivery goes to an endpoint of an application that the event was captured for. -/
structure Inv (s : State π) : Prop where
  endpointKeys : (s.rows.endpoints.map WebhookEndpoint.id).Nodup
  eventKeys : (s.events.map OutboxEvent.id).Nodup
  deliveries : ∀ d ∈ s.deliveries, ∃ projection ∈ s.projections,
    projection.outboxEvent = d.event ∧ ∃ endpoint ∈ s.rows.endpoints,
      endpoint.id = d.endpoint ∧ endpoint.application = projection.application
  once : (s.deliveries.map Delivery.key).Nodup

/-- A recipient is an endpoint of an application that has a projection of the event. -/
theorem recipient_spec {now : Nat} {event : OutboxEvent}
    (listed : recipient ∈ s.recipients now event) :
    capturedEventTypes.contains event.eventType = true ∧
      ∃ projection ∈ s.projections, projection.outboxEvent = event.id ∧
        (∃ application ∈ s.db.directory.applications,
          application.id = projection.application ∧
            capturedFor s.db s.webhookRows event application = true) ∧
          ∃ endpoint ∈ s.rows.endpoints, endpoint.id = recipient.1 ∧
            endpoint.application = projection.application := by
  obtain ⟨known, row, held, own, application, mem, same, holds, endpoint, endpointMem, belongs, -,
    key, -, rfl⟩ := mem_capturedRecipients.mp listed
  obtain ⟨projection, projectionMem, rfl⟩ := List.mem_map.mp held
  exact ⟨known, projection, projectionMem, own, ⟨application, mem, same, holds⟩, endpoint,
    endpointMem, rfl, belongs.trans same⟩

/-- A transaction keeps the invariant, whatever events and projections it adds. -/
theorem Inv.commit {at_ : Nat} {db : Db} {rows : WebhookRows} (inv : Inv s)
    (events : List OutboxEvent) (projections : List (Projection π))
    (changes : Changes at_ s.db s.rows db rows)
    (eventKeys : ((s.events ++ events).map OutboxEvent.id).Nodup) :
    Inv { s with
      db := db
      rows := rows
      events := s.events ++ events
      projections := s.projections ++ projections } where
  endpointKeys := changes.endpointKeys
  eventKeys := eventKeys
  deliveries := by
    intro d mem
    obtain ⟨projection, held, own, endpoint, endpointMem, same, belongs⟩ := inv.deliveries d mem
    obtain ⟨new, newMem, newId, newApplication⟩ := changes.endpoints endpoint endpointMem
    exact ⟨projection, List.mem_append_left _ held, own, new, newMem, newId.trans same,
      newApplication.trans belongs⟩
  once := inv.once

theorem Inv.expand {now : Nat} {event : OutboxEvent} {accepts : List Nat} (inv : Inv s) :
    Inv (s.expand now event accepts) where
  endpointKeys := inv.endpointKeys
  eventKeys := inv.eventKeys
  deliveries := by
    intro d mem
    rcases mem_insertRecipients mem with old | ⟨recipient, chosen, rfl⟩
    · exact inv.deliveries d old
    · obtain ⟨-, projection, held, own, -, endpoint, endpointMem, same, belongs⟩ :=
        recipient_spec (List.mem_filter.mp chosen).1
      exact ⟨projection, held, own, endpoint, endpointMem, same, belongs⟩
  once := insertRecipients_nodup inv.once

theorem Inv.step (s : State π) (e : Event) (inv : Inv s) (valid : Valid s e) :
    Inv (next project s e) := by
  cases e with
  | transaction at_ db rows =>
      have kept := inv.commit [] [] valid
        (by rw [List.append_nil]; exact inv.eventKeys)
      simp only [List.append_nil] at kept
      exact kept
  | record r db rows =>
      obtain ⟨changes, fresh⟩ := valid
      refine inv.commit [r.event] _ changes ?_
      rw [List.map_append]
      refine List.Nodup.append inv.eventKeys (List.nodup_singleton _) ?_
      intro id mem new
      obtain ⟨event, held, rfl⟩ := List.mem_map.mp mem
      exact fresh event held (List.mem_singleton.mp new)
  | expand now event accepts => exact inv.expand

theorem Inv.start {db : Db} {rows : WebhookRows}
    (endpointKeys : (rows.endpoints.map WebhookEndpoint.id).Nodup) :
    Inv (start (π := π) db rows) where
  endpointKeys := endpointKeys
  eventKeys := List.nodup_nil
  deliveries := by
    intro d mem
    cases mem
  once := List.nodup_nil

/-! ## What withdrawals leave -/

/-- The transaction does not take the consent or the membership out of force before the
time, and the consent goes on selecting the membership. -/
structure SparesRows (at_ consent member time : Nat) (db : Db) (rows : WebhookRows) (db' : Db)
    (rows' : WebhookRows) : Prop where
  selection : ∀ old ∈ db.consents, old.id = consent → ∀ new ∈ db'.consents, new.id = consent →
    member ∈ old.selectedMemberships → member ∈ new.selectedMemberships
  withdrawals : at_ ≤ time ∨
    (∀ old ∈ db.consents, old.id = consent → ∀ new ∈ db'.consents, new.id = consent →
      consentKept old new) ∧
    ∀ old ∈ db.directory.memberships, old.id = member → ∀ new ∈ db'.directory.memberships,
      new.id = member → memberKept rows rows' old new

def Spares (at_ consent member : Nat) (s : State π) : Event → Prop
  | .transaction time db rows => SparesRows at_ consent member time s.db s.rows db rows
  | .record r db rows => SparesRows at_ consent member r.createdAt s.db s.rows db rows
  | .expand _ _ _ => True

theorem consentKept.consentAt {at_ : Nat} {old new : Consent} (kept : consentKept old new)
    (consented : consentAt at_ old = true) : consentAt at_ new = true := by
  unfold Authority.consentAt at consented ⊢
  rcases kept with active | ⟨inactive, same⟩
  · simp [active]
  · rw [inactive, Bool.false_or] at consented
    rw [same, consented, Bool.or_true]

theorem endsKept.endedSince {before after_ : WebhookRows} {id at_ : Nat}
    (kept : endsKept before after_ id = true)
    (ended : endedSince before.membershipEnds id at_ = true) :
    endedSince after_.membershipEnds id at_ = true := by
  obtain ⟨row, mem, holds⟩ := List.any_eq_true.mp ended
  have own : row.row = id := by
    simp only [Bool.and_eq_true, decide_eq_true_eq] at holds
    exact holds.1
  have stays := List.all_eq_true.mp kept row mem
  simp only [own, ne_eq, not_true_eq_false, decide_false, Bool.false_or,
    List.contains_iff_mem] at stays
  exact List.any_eq_true.mpr ⟨row, stays, holds⟩

theorem memberKept.memberAt {rows rows' : WebhookRows} {at_ : Nat} {old new : Membership}
    (kept : memberKept rows rows' old new) (same : new.id = old.id)
    (stands : memberAt rows at_ old = true) : memberAt rows' at_ new = true := by
  unfold Authority.memberAt at stands ⊢
  rcases kept with active | ⟨inactive, ends⟩
  · simp [active]
  · rw [inactive, Bool.false_or, ← same] at stands
    rw [endsKept.endedSince ends stands, Bool.or_true]

theorem stampedSince_some {at_ time : Nat} (late : at_ ≤ time) :
    stampedSince at_ (some time) = true := decide_eq_true late

theorem endsAt.endedSince {rows : WebhookRows} {id at_ time : Nat} (late : at_ ≤ time)
    (ends : endsAt rows id time = true) : endedSince rows.membershipEnds id at_ = true := by
  obtain ⟨row, mem, holds⟩ := List.any_eq_true.mp ends
  refine List.any_eq_true.mpr ⟨row, mem, ?_⟩
  simp only [Bool.and_eq_true, Bool.or_eq_true, decide_eq_true_eq] at holds ⊢
  refine ⟨holds.1, ?_⟩
  rcases holds.2 with ended | suspended
  · exact .inl (by rw [ended]; exact stampedSince_some late)
  · exact .inr (by rw [suspended]; exact stampedSince_some late)

/-- A change that spares the two rows leaves them in force. -/
theorem SparesRows.backed {at_ organization application consent member time : Nat} {db db' : Db}
    {rows rows' : WebhookRows} (spares : SparesRows at_ consent member time db rows db' rows')
    (changes : Changes time db rows db' rows')
    (backed : Backed at_ organization application consent member db rows) :
    Backed at_ organization application consent member db' rows' := by
  obtain ⟨c, consentMem, consentId, m, memberMem, memberId, backs⟩ := backed
  obtain ⟨c', consentMem', sameConsent, own, subject, consentFate⟩ :=
    changes.consents c consentMem
  obtain ⟨m', memberMem', sameMember, within, principal, memberFate⟩ :=
    changes.memberships m memberMem
  have consentId' : c'.id = consent := sameConsent.trans consentId
  have memberId' : m'.id = member := sameMember.trans memberId
  have consented : consentAt at_ c' = true := by
    rcases spares.withdrawals with late | ⟨kept, -⟩
    · rcases consentFate with kept | revoked
      · exact kept.consentAt backs.consented
      · rw [consentAt, revoked, stampedSince_some late, Bool.or_true]
    · exact (kept c consentMem consentId c' consentMem' consentId').consentAt backs.consented
  have standing : memberAt rows' at_ m' = true := by
    rcases spares.withdrawals with late | ⟨-, kept⟩
    · rcases memberFate with kept | ends
      · exact kept.memberAt sameMember backs.standing
      · rw [memberAt, endsAt.endedSince late ends, Bool.or_true]
    · exact (kept m memberMem memberId m' memberMem' memberId').memberAt sameMember
        backs.standing
  have selected : m'.id ∈ c'.selectedMemberships := by
    rw [memberId']
    exact spares.selection c consentMem consentId c' consentMem' consentId'
      (memberId ▸ backs.selected)
  refine ⟨c', consentMem', consentId', m', memberMem', memberId', ?_⟩
  exact
    { own := own.trans backs.own
      consented := consented
      selected := selected
      subject := by rw [principal, subject, backs.subject]
      within := within.trans backs.within
      standing := standing }

theorem Spares.step {at_ organization application consent member : Nat} (s : State π) (e : Event)
    (backed : Backed at_ organization application consent member s.db s.rows)
    (spared : Valid s e ∧ Spares at_ consent member s e) :
    Backed at_ organization application consent member (next project s e).db
      (next project s e).rows := by
  obtain ⟨valid, spares⟩ := spared
  cases e with
  | transaction time db rows => exact spares.backed valid backed
  | record r db rows => exact spares.backed valid.1 backed
  | expand now event accepts => exact backed

/-! ## Whole runs -/

/-- The endpoint can be sent events of the organization. -/
structure Takes (s : State π) (now organization application : Nat) (endpoint : WebhookEndpoint) :
    Prop where
  current : ∃ app ∈ s.db.directory.applications, app.id = application ∧ app.current = true ∧
    visibleTo (some organization) app = true
  principal : ∃ principal ∈ s.db.principals, principal.id = application ∧
    principal.kind = .application ∧ principal.status = .active
  held : endpoint ∈ s.rows.endpoints
  belongs : endpoint.application = application
  active : endpoint.active = true
  key : ∃ key, currentSigningKey s.rows now application endpoint.id = some key

theorem Takes.of_expand {now organization application : Nat} {endpoint : WebhookEndpoint}
    {event : OutboxEvent} {accepts : List Nat}
    (takes : Takes (s.expand now event accepts) now organization application endpoint) :
    Takes s now organization application endpoint :=
  ⟨takes.current, takes.principal, takes.held, takes.belongs, takes.active, takes.key⟩

/-- An endpoint that takes an event is listed while its application is consented to. -/
theorem Takes.listed {now : Nat} {r : Recording} {application : Nat} {endpoint : WebhookEndpoint}
    (takes : Takes s now r.organization application endpoint)
    (known : capturedEventTypes.contains r.eventType = true) {projection : Projection π}
    (held : projection ∈ s.projections) (own : projection.outboxEvent = r.id)
    (same : projection.application = application)
    (consented : consentedAt s.db s.rows application r.organization r.createdAt = true) :
    ∃ key, (endpoint.id, key) ∈ s.recipients now r.event := by
  obtain ⟨app, appMem, rfl, current, visible⟩ := takes.current
  obtain ⟨principal, principalMem, principalId, kind, status⟩ := takes.principal
  obtain ⟨key, found⟩ := takes.key
  refine ⟨key.id, mem_capturedRecipients.mpr ⟨known, _, List.mem_map_of_mem held, own, app, appMem,
    same.symm, ?_, endpoint, takes.held, takes.belongs, takes.active, key, found, rfl⟩⟩
  simp only [capturedFor, current, Recording.event, visible, Bool.and_eq_true, Table.any_eq_true,
    decide_eq_true_eq, true_and]
  exact ⟨⟨principal, principalMem, ⟨principalId, kind⟩, status⟩, consented⟩

theorem projection_recorded {events : List Event} {db : Db} {rows : WebhookRows}
    {projection : Projection π}
    (held : projection ∈ (after (next project) (start db rows) events).projections) :
    ∃ c ∈ commits events, projection.application ∈ c.captured ∧
      projection = c.projection project projection.application := by
  rw [after_projections] at held
  obtain ⟨c, mem, held⟩ := List.mem_flatMap.mp held
  obtain ⟨application, captured, rfl⟩ := List.mem_map.mp held
  exact ⟨c, mem, captured, rfl⟩

/-- The projection of an event for an application is the one its transaction wrote. -/
theorem projection_text {events : List Event} {db : Db} {rows : WebhookRows} {c : Commit}
    (keys : ((after (next project) (start db rows) events).events.map OutboxEvent.id).Nodup)
    (mem : c ∈ commits events) {projection : Projection π}
    (held : projection ∈ (after (next project) (start db rows) events).projections)
    (own : projection.outboxEvent = c.recording.id) :
    projection = c.projection project projection.application := by
  obtain ⟨other, otherMem, -, text⟩ := projection_recorded held
  rw [after_events] at keys
  have keys : ((commits events).map fun c => c.recording.id).Nodup := by
    rw [start, List.nil_append, List.map_map] at keys
    exact keys
  have id : other.recording.id = c.recording.id := by
    rw [text] at own
    exact own
  rw [List.inj_on_of_nodup_map keys otherMem mem id] at text
  exact text

theorem loadProjection_spec {event : OutboxEvent} {application : Nat} {payload : π}
    (loaded : s.loadProjection event application = some payload) :
    ∃ projection ∈ s.projections, projection.outboxEvent = event.id ∧
      projection.application = application ∧ projection.payload = payload := by
  unfold State.loadProjection at loaded
  split at loaded
  · obtain ⟨projection, found, rfl⟩ := Option.map_eq_some_iff.mp loaded
    have holds := List.find?_some found
    simp only [Bool.and_eq_true, decide_eq_true_eq] at holds
    exact ⟨projection, List.mem_of_find?_eq_some found, holds.1, holds.2, rfl⟩
  · cases loaded

/-- What the listing returns can be loaded. -/
theorem Inv.loads (inv : Inv s) {now : Nat} {event : OutboxEvent} (held : event ∈ s.events) (listed : recipient ∈ s.recipients now event) :
    ∃ payload, s.loadEventData ⟨event.id, recipient.1, recipient.2⟩ = some payload := by
  obtain ⟨known, projection, projectionMem, own, ⟨application, mem, same, holds⟩, endpoint,
    endpointMem, endpointId, belongs⟩ := recipient_spec listed
  have endpointFound : Keyed.get WebhookEndpoint.id s.rows.endpoints recipient.1 = some endpoint := by
    rw [← endpointId]
    exact Keyed.get_of_unique endpointMem fun other otherMem same =>
      List.inj_on_of_nodup_map inv.endpointKeys otherMem endpointMem same
  have eventFound : Keyed.get OutboxEvent.id s.events event.id = some event :=
    Keyed.get_of_unique held fun other otherMem same =>
      List.inj_on_of_nodup_map inv.eventKeys otherMem held same
  have allowed : (s.db.directory.applications.any (fun app => app.id = endpoint.application &&
        (event.organization.isNone || visibleTo event.organization app)) &&
      event.organization.all (fun organization =>
        consentedAt s.db s.rows endpoint.application organization event.createdAt)) = true := by
    rw [belongs, ← same]
    simp only [capturedFor, Bool.and_eq_true] at holds
    obtain ⟨-, ruled⟩ := holds
    cases named : event.organization with
    | none =>
        simp only [Option.isNone_none, Bool.true_or, Bool.and_true, Option.all_none, List.any_eq_true,
          decide_eq_true_eq]
        exact ⟨application, mem, rfl⟩
    | some organization =>
        simp only [named, Bool.and_eq_true] at ruled
        simp only [Option.isNone_some, Bool.false_or, Option.all_some, Bool.and_eq_true,
          List.any_eq_true, decide_eq_true_eq]
        exact ⟨⟨application, mem, rfl, ruled.1⟩, ruled.2⟩
  have found : (s.projections.find? fun projection =>
      projection.outboxEvent = event.id && projection.application = endpoint.application).isSome =
        true := by
    rw [List.find?_isSome]
    exact ⟨projection, projectionMem, by simp [own, belongs]⟩
  obtain ⟨loaded, found⟩ := Option.isSome_iff_exists.mp found
  refine ⟨loaded.payload, ?_⟩
  rw [State.loadEventData, endpointFound, Option.bind_eq_bind, Option.bind_some, eventFound,
    Option.bind_eq_bind, Option.bind_some, State.loadProjection, known, Bool.true_and, if_pos allowed,
    found, Option.map_some]

variable (project)

/-- The audience of the events of a run. -/
structure AudienceHeld (db : Db) (rows : WebhookRows) (events : List Event) : Prop where
  /-- A delivery goes to an application that the event's transaction captured it for,
  because it was entitled to it then, and carries what that transaction wrote. -/
  captured : ∀ d ∈ (after (next project) (start db rows) events).deliveries,
    ∃ before r db' rows' rest, events = before ++ .record r db' rows' :: rest ∧ r.id = d.event ∧
      ∃ application ∈ r.capturedApplications db' rows',
        InForce db' rows' r.organization application r.createdAt ∧
          (∃ endpoint ∈ (after (next project) (start db rows) events).rows.endpoints,
            endpoint.id = d.endpoint ∧ endpoint.application = application) ∧
          ∀ payload, (after (next project) (start db rows) events).loadEventData d = some payload →
            payload = project db' rows' r application
  /-- An endpoint gets at most one delivery of an event. -/
  once : ((after (next project) (start db rows) events).deliveries.map Delivery.key).Nodup
  /-- What was captured is delivered while one consent and one membership that the capture
  rested on are spared: no transaction since withdrew either as of before the event, or
  took the membership out of the consent's selection. -/
  delivered : ∀ before r db' rows' since now accepts,
    events = before ++ .record r db' rows' :: (since ++ [.expand now r.event accepts]) →
      ∀ application ∈ r.capturedApplications db' rows', ∀ consent member,
        RestsOn db' rows' r.organization application r.createdAt consent member →
          AllSteps (next project) (Spares r.createdAt consent member)
              (after (next project) (start db rows) (before ++ [.record r db' rows'])) since →
            ∀ endpoint, endpoint.id ∈ accepts →
              Takes (after (next project) (start db rows) events) now r.organization application
                  endpoint →
                (r.id, endpoint.id) ∈
                  (after (next project) (start db rows) events).deliveries.map Delivery.key
  /-- What the listing returns can be loaded in the same state. -/
  loads : ∀ now, ∀ event ∈ (after (next project) (start db rows) events).events,
    ∀ recipient ∈ (after (next project) (start db rows) events).recipients now event,
      ∃ payload, (after (next project) (start db rows) events).loadEventData
        ⟨event.id, recipient.1, recipient.2⟩ = some payload

variable {project}

section Held

variable {db : Db} {rows : WebhookRows} {events : List Event}

theorem captured_deliveries (inv : Inv (after (next project) (start db rows) events))
    {d : Delivery} (mem : d ∈ (after (next project) (start db rows) events).deliveries) :
    ∃ c ∈ commits events, c.recording.id = d.event ∧ ∃ application ∈ c.captured,
      (∃ endpoint ∈ (after (next project) (start db rows) events).rows.endpoints,
        endpoint.id = d.endpoint ∧ endpoint.application = application) ∧
      ∀ payload, (after (next project) (start db rows) events).loadEventData d = some payload →
        payload = project c.db c.rows c.recording application := by
  obtain ⟨projection, held, own, endpoint, endpointMem, endpointId, belongs⟩ :=
    inv.deliveries d mem
  obtain ⟨c, commit, captured, text⟩ := projection_recorded held
  have named : c.recording.id = d.event := by
    rw [text] at own
    exact own
  refine ⟨c, commit, named, projection.application, captured,
    ⟨endpoint, endpointMem, endpointId, belongs⟩, fun payload loaded => ?_⟩
  obtain ⟨other, endpointFound, loaded⟩ := Option.bind_eq_some_iff.mp loaded
  obtain ⟨event, eventFound, loaded⟩ := Option.bind_eq_some_iff.mp loaded
  have same : other = endpoint := by
    refine List.inj_on_of_nodup_map inv.endpointKeys (Keyed.mem_of_get endpointFound) endpointMem ?_
    exact (Keyed.key_of_get endpointFound).trans endpointId.symm
  have eventId : event.id = c.recording.id := (Keyed.key_of_get eventFound).trans named.symm
  obtain ⟨loadedRow, loadedMem, loadedEvent, loadedApplication, rfl⟩ := loadProjection_spec loaded
  have written := projection_text inv.eventKeys commit loadedMem (loadedEvent.trans eventId)
  rw [written, loadedApplication, same, belongs]
  rfl

/-- A captured event goes out while its application is consented to. -/
theorem delivered_of_consented {r : Recording} {db' : Db} {rows' : WebhookRows}
    {application now : Nat} {accepts : List Nat} {endpoint : WebhookEndpoint} {before since : List Event}
    (captured : application ∈ r.capturedApplications db' rows')
    (consented : consentedAt s.db s.rows application r.organization r.createdAt = true)
    (reached : s = after (next project) (start db rows) (before ++ .record r db' rows' :: since))
    (accepted : endpoint.id ∈ accepts) (takes : Takes s now r.organization application endpoint) :
    (r.id, endpoint.id) ∈ (s.expand now r.event accepts).deliveries.map Delivery.key := by
  have held : Commit.projection project ⟨r, db', rows'⟩ application ∈ s.projections := by
    rw [reached, after_projections]
    refine List.mem_append_right _ (List.mem_flatMap.mpr ⟨⟨r, db', rows'⟩, ?_, ?_⟩)
    · exact mem_commits.mpr (List.mem_append_right _ List.mem_cons_self)
    · exact List.mem_map_of_mem captured
  obtain ⟨key, listed⟩ := takes.listed (Recording.captured_inForce captured).1 held rfl rfl consented
  refine insertRecipients_key (List.mem_filter.mpr ⟨listed, ?_⟩)
  simpa using accepted

end Held

end Histories

/-- The audience of an event is fixed when its transaction commits, as far as later
transactions do not withdraw a consent or a membership as of an earlier time. -/
theorem audience_fixed {π : Type} (project : Db → WebhookRows → Recording → Nat → π) (db : Db)
    (rows : WebhookRows) (endpointKeys : (rows.endpoints.map WebhookEndpoint.id).Nodup)
    (events : List Event) (valid : AllSteps (next project) Valid (start db rows) events) :
    AudienceHeld project db rows events := by
  have inv : Inv (after (next project) (start db rows) events) :=
    valid.after Inv.step events (start db rows) (Inv.start endpointKeys)
  refine
    { captured := ?_
      once := inv.once
      delivered := ?_
      loads := fun now event held recipient listed => inv.loads held listed }
  · intro d mem
    obtain ⟨c, commit, named, application, captured, goes, text⟩ := captured_deliveries inv mem
    obtain ⟨before, rest, split⟩ := List.append_of_mem (mem_commits.mp commit)
    exact ⟨before, c.recording, c.db, c.rows, rest, split, named, application, captured,
      (Recording.captured_inForce captured).2, goes, text⟩
  · rintro before r db' rows' since now accepts rfl application captured consent member rests
      spares endpoint accepted takes
    have split : before ++ .record r db' rows' :: (since ++ [.expand now r.event accepts]) =
        (before ++ .record r db' rows' :: since) ++ [.expand now r.event accepts] := by simp
    rw [split] at valid takes ⊢
    rw [after_append] at takes ⊢
    refine delivered_of_consented captured ?_ rfl accepted takes.of_expand
    have validSince := ((allSteps_append _ _ _).mp valid).1
    rw [List.append_cons, allSteps_append] at validSince
    rw [List.append_cons, after_append]
    have atCapture : Backed r.createdAt r.organization application consent member
        (after (next project) (start db rows) (before ++ [.record r db' rows'])).db
        (after (next project) (start db rows) (before ++ [.record r db' rows'])).rows := by
      rw [after_append]
      exact rests.backed
    exact ((validSince.2.and since _ spares).after Spares.step since _ atCapture).consentedAt

namespace Board

/-- Ada is a member of an organization and has consented to one of its applications. -/
def directory : Directory where
  carbons := []
  silicons := []
  organizations := []
  memberships :=
    [{ id := 3, organization := 2, principal := 1, principalKind := .carbon, active := true
       authzEpoch := 0 }]
  applications :=
    [{ id := 4, appId := "board", organization := 2, verified := true, deletedAt := none
       isPrivate := false, approvedScopes := ["self.membership.read"] }]
  endpoints := []

def consent : Consent where
  id := 5
  application := 4
  subject := 1
  subjectKind := .carbon
  organization := none
  membership := none
  parentSession := 6
  selectedMemberships := [3]
  active := true
  revokedAt := none
  scopes := ["self.membership.read"]

/-- The consent is revoked by a transaction of the time, if there is one. -/
def db (revokedAt : Option Nat) : Db :=
  { Db.empty directory with
    principals :=
      ⟨[{ id := 1, kind := .carbon, status := .active, authEpoch := 0 },
        { id := 4, kind := .application, status := .active, authEpoch := 0 }], by decide⟩
    consents := ⟨[{ consent with active := revokedAt.isNone, revokedAt := revokedAt }], by simp⟩ }

def endpoint : WebhookEndpoint where
  id := 70
  application := 4
  active := true

def rows : WebhookRows where
  endpoints := [endpoint]
  signingKeys :=
    [{ id := 71, endpoint := 70, application := 4, status := .active, retiresAt := none
       secretVersion := 1 }]
  projections := []
  membershipEnds := []
  principalEnds := []
  approvals :=
    [{ application := 4, scope := "self.membership.read", approvedAt := 1, revokedAt := none }]
  grants := [{ consent := 5, grantedAt := 1 }]

def updated : Recording where
  id := 80
  eventType := "organization.membership.updated.v1"
  organization := 2
  createdAt := 6
  named := [3]

/-- The event is committed, then a transaction of the time revokes the consent, and a worker
expands the event. -/
def revocation (at_ : Nat) : List Event :=
  [.record updated (db none) rows, .transaction at_ (db (some at_)) rows,
    .expand 9 updated.event [70]]

def project (_ : Db) (_ : WebhookRows) (r : Recording) (application : Nat) : Nat × Nat :=
  (r.id, application)

end Board

open Board in
theorem audience_fixed_revocation :
    AllSteps (next project) Valid (start (db none) rows) (revocation 7) ∧
      AudienceHeld project (db none) rows (revocation 7) :=
  have valid : AllSteps (next project) Valid (start (db none) rows) (revocation 7) := by
    decide +kernel
  ⟨valid, audience_fixed project (db none) rows (by decide) (revocation 7) valid⟩

open Board in
/-- A transaction that began before the event and commits after it withdraws the consent:
the event that was captured is not delivered. -/
theorem earlier_withdrawal_suppresses :
    ¬ ∀ (db : Db) (rows : WebhookRows) (events since : List Event) (r : Recording) (db' : Db)
      (rows' : WebhookRows) (now application : Nat) (accepts : List Nat) (endpoint : WebhookEndpoint),
      events = .record r db' rows' :: (since ++ [.expand now r.event accepts]) →
        AllSteps (next project) Valid (start db rows) events →
          application ∈ r.capturedApplications db' rows' → endpoint.id ∈ accepts →
            Takes (after (next project) (start db rows) events) now r.organization application
                endpoint →
              (r.id, endpoint.id) ∈
                (after (next project) (start db rows) events).deliveries.map Delivery.key := by
  intro claimed
  have valid : AllSteps (next project) Valid (start (db none) rows) (revocation 5) := by
    decide +kernel
  have captured : 4 ∈ updated.capturedApplications (db none) rows := by
    decide +kernel
  have none_ : (after (next project) (start (db none) rows) (revocation 5)).deliveries = [] := by
    decide +kernel
  have takes : Takes (after (next project) (start (db none) rows) (revocation 5)) 9 2 4 endpoint :=
    { current := by decide +kernel
      principal := by decide +kernel
      held := List.mem_singleton_self _
      belongs := rfl
      active := rfl
      key := ⟨_, rfl⟩ }
  have delivered := claimed (db none) rows (revocation 5) [.transaction 5 (db (some 5)) rows]
    updated (db none) rows 9 4 [70] endpoint rfl valid captured (by decide) takes
  rw [none_] at delivered
  cases delivered

end SiliconIam.Auth.WebhookAudience
