/-
# Crypto.Encryption -- authenticated encryption bound to a row

Protected fields are sealed with associated data built from the encryption
context: field, tenant and entity (`encryptionAad`).  `decrypt` opens under the
context it is given and then, for application material only, under the two
aliases registered for the context's application in the plane it selects
(`retainedContext`, `preSchemaContext`).

The associated data does not separate the tenant from the entity, and a handle
has no fixed length.  Every call site fixes one side of that boundary, by field
(`fieldBoundary`): the entity is a row UUID, or the tenant is absent or a UUID.
For such contexts the associated data determines field, tenant and entity
(`aad_eq_iff`); `decrypt_only_own` turns that into isolation of ciphertexts
under an ideal AEAD, and `decrypt_after_rotation` is the converse, for any
context and any later keyring that retains the version.
-/
import SiliconIam.Theory.Framing
import SiliconIam.Crypto.Keyring
import SiliconIam.Domain.Id

namespace SiliconIam.Crypto

open SiliconIam.Theory
open SiliconIam.Theory.Hex (Bytes ascii)
open SiliconIam.Domain (Id)

set_option autoImplicit false

def encryptionDomain : Bytes := ascii "silicon-iam:v1:encryption"

def encryptionSchemaVersion : UInt8 := 1

/-- Sensitive field protected by authenticated encryption. -/
inductive ProtectedField where
  | carbonEmail
  | invitationEmail
  | actionApprovalEmail
  | carbonPhone
  | idempotencySecretResponse
  | providerCredential
  | ssoReturnUri
  | testingApplicationSecret
  | applicationWebhookUrl
  | applicationWebhookSigningSecret
  | applicationWebhookEventPayload
  | siliconWebhookUrl
  | siliconWebhookSigningSecret
  | siliconHookUrl
  | testingEnvironmentKey
deriving DecidableEq

namespace ProtectedField

def label : ProtectedField → Bytes
  | .invitationEmail => ascii "invitation-email"
  | .actionApprovalEmail => ascii "action-approval-email"
  | .carbonEmail => ascii "carbon-email"
  | .carbonPhone => ascii "carbon-phone"
  | .idempotencySecretResponse => ascii "idempotency-secret-response"
  | .providerCredential => ascii "provider-credential"
  | .ssoReturnUri => ascii "sso-return-uri"
  | .testingApplicationSecret => ascii "testing-application-secret"
  | .applicationWebhookUrl => ascii "application-webhook-url"
  | .applicationWebhookSigningSecret => ascii "application-webhook-signing-secret"
  | .applicationWebhookEventPayload => ascii "application-webhook-event-payload"
  | .siliconWebhookUrl => ascii "silicon-webhook-url"
  | .siliconWebhookSigningSecret => ascii "silicon-webhook-signing-secret"
  | .siliconHookUrl => ascii "silicon-hook-url"
  | .testingEnvironmentKey => ascii "testing-environment-key"

def all : List ProtectedField :=
  [.carbonEmail, .invitationEmail, .actionApprovalEmail, .carbonPhone,
    .idempotencySecretResponse, .providerCredential, .ssoReturnUri, .testingApplicationSecret,
    .applicationWebhookUrl, .applicationWebhookSigningSecret, .applicationWebhookEventPayload,
    .siliconWebhookUrl, .siliconWebhookSigningSecret, .siliconHookUrl, .testingEnvironmentKey]

theorem mem_all (f : ProtectedField) : f ∈ all := by cases f <;> decide

theorem label_injective : Function.Injective label := by
  have distinct : ∀ a ∈ all, ∀ b ∈ all, a.label = b.label → a = b := by decide +kernel
  exact fun a b => distinct a a.mem_all b b.mem_all

theorem nul_not_mem_label (f : ProtectedField) : 0 ∉ f.label := by cases f <;> decide

end ProtectedField

/-- Typed, row-bound associated data. -/
structure EncryptionContext where
  field : ProtectedField
  tenantId : Option Id
  entityId : Id
  productionApplication : Bool
deriving DecidableEq

namespace EncryptionContext

def global (field : ProtectedField) (entityId : Id) : EncryptionContext where
  field := field
  tenantId := none
  entityId := entityId
  productionApplication := false

def tenant (field : ProtectedField) (tenantId entityId : Id) : EncryptionContext where
  field := field
  tenantId := some tenantId
  entityId := entityId
  productionApplication := false

/-- Select production metadata while the request runs in a testing environment. -/
def production (context : EncryptionContext) : EncryptionContext :=
  { context with productionApplication := true }

end EncryptionContext

def encryptionAad (context : EncryptionContext) (keyVersion : Int16) : Bytes :=
  encryptionDomain ++ (encryptionSchemaVersion :: (Framing.int16BeBytes keyVersion ++
    ((0 : UInt8) :: (context.field.label ++ ((0 : UInt8) ::
      ((match context.tenantId with
        | some tenantId => (1 : UInt8) :: tenantId.asBytes
        | none => [0]) ++ context.entityId.asBytes))))))

/-- A value at rest. -/
structure EncryptedValue where
  keyVersion : Int16
  nonce : Bytes
  ciphertext : Bytes
deriving DecidableEq

/-- The AEAD primitive, outside this repository. -/
structure Aead where
  encrypt : Key → Bytes → Bytes → Bytes → Bytes
  decrypt : Key → Bytes → Bytes → Bytes → Option Bytes

/-- An ideal AEAD opens a sealed message under its own key, nonce and associated
data, and under nothing else. -/
structure Aead.Ideal (aead : Aead) : Prop where
  opens : ∀ key nonce aad plaintext,
    aead.decrypt key nonce aad (aead.encrypt key nonce aad plaintext) = some plaintext
  bound : ∀ key nonce aad plaintext key' nonce' aad' opened,
    aead.decrypt key' nonce' aad' (aead.encrypt key nonce aad plaintext) = some opened →
      key' = key ∧ nonce' = nonce ∧ aad' = aad

/-- A registered alias table: plane (`none` in production) and application, to
the identifier that stood in the associated data before. -/
abbrev ContextTable := List ((Option Id × Id) × Id)

def lookupContext (table : ContextTable) (plane : Option Id) (application : Id) : Option Id :=
  (table.find? fun entry => entry.1 == (plane, application)).map Prod.snd

structure EncryptionService where
  encryptionKeys : Keyring
  applicationContexts : ContextTable
  publicIdContexts : ContextTable

/-- The application a context belongs to, for the fields that have one. -/
def contextApplication (context : EncryptionContext) : Option Id :=
  match context.field with
  | .applicationWebhookUrl | .applicationWebhookSigningSecret
  | .applicationWebhookEventPayload => context.tenantId
  | .testingApplicationSecret => some context.entityId
  | _ => none

/-- The plane whose metadata a context selects, `current` being the environment
of the request. -/
def contextPlane (current : Option Id) (context : EncryptionContext) : Option Id :=
  if context.productionApplication then none else current

/-- Put a registered identifier in the application's place. -/
def replaceApplication (context : EncryptionContext) (retained : Id) : EncryptionContext :=
  if context.field = .testingApplicationSecret then { context with entityId := retained }
  else { context with tenantId := some retained }

/-- The common body of the two alias functions. -/
def aliasContext (table : ContextTable) (current : Option Id) (context : EncryptionContext) :
    EncryptionContext :=
  match (contextApplication context).bind (lookupContext table (contextPlane current context)) with
  | some retained => replaceApplication context retained
  | none => context

namespace EncryptionService

def retainedContext (service : EncryptionService) (current : Option Id)
    (context : EncryptionContext) : EncryptionContext :=
  aliasContext service.applicationContexts current context

def preSchemaContext (service : EncryptionService) (current : Option Id)
    (context : EncryptionContext) : EncryptionContext :=
  aliasContext service.publicIdContexts current context

variable (aead : Aead)

/-- `encrypt`, with the nonce the operating system returned. -/
def encrypt (service : EncryptionService) (nonce : Bytes) (context : EncryptionContext)
    (plaintext : Bytes) : Except CryptoError EncryptedValue := do
  let (keyVersion, key) ← service.encryptionKeys.current
  let aad := encryptionAad context keyVersion
  pure { keyVersion := keyVersion, nonce := nonce, ciphertext := aead.encrypt key nonce aad plaintext }

/-- Open under one context of the chain. -/
def openUnder (key : Key) (encrypted : EncryptedValue) (context : EncryptionContext) :
    Option Bytes :=
  aead.decrypt key encrypted.nonce (encryptionAad context encrypted.keyVersion) encrypted.ciphertext

/-- One fallback of the chain: only tried when the alias differs from the context. -/
def openAlias (key : Key) (encrypted : EncryptedValue) (context retained : EncryptionContext) :
    Option Bytes :=
  if retained = context then none else openUnder aead key encrypted retained

def decrypt (service : EncryptionService) (current : Option Id) (context : EncryptionContext)
    (encrypted : EncryptedValue) : Except CryptoError Bytes := do
  let key ← service.encryptionKeys.key encrypted.keyVersion
  match
    (openUnder aead key encrypted context).or
      ((openAlias aead key encrypted context (service.retainedContext current context)).or
        (openAlias aead key encrypted context (service.preSchemaContext current context))) with
  | some plaintext => pure plaintext
  | none => .error .decryption

end EncryptionService

/-! ## What the associated data determines -/

/-- Which side of the tenant/entity boundary is a row UUID. -/
inductive Boundary where
  | entityRow
  | tenantRow
deriving DecidableEq

/-- The side each field's call sites fix: the shared application secret and the
replay receipts are keyed by a testing environment, everything else seals a row. -/
def fieldBoundary : ProtectedField → Boundary
  | .testingApplicationSecret | .idempotencySecretResponse => .tenantRow
  | _ => .entityRow

/-- A handle, or a UUID with the RFC variant bits that every generated UUID has:
its ninth byte is never ASCII. -/
def Generated : Id → Prop
  | .resource uuid => ∃ b ∈ uuid.bytes, 128 ≤ b
  | .identity _ => True

/-- A row UUID on one side of the boundary, whatever its bits, and a handle or a
generated UUID on the other. -/
inductive Placed (context : EncryptionContext) : Boundary → Prop
  | entityRow {uuid : Domain.Uuid} (entity : context.entityId = .resource uuid)
      (tenants : ∀ tenant, context.tenantId = some tenant → Generated tenant) :
      Placed context .entityRow
  | tenantRow (tenants : ∀ tenant, context.tenantId = some tenant → ∃ uuid, tenant = .resource uuid)
      (entity : Generated context.entityId) : Placed context .tenantRow

/-- A context as the call sites build it. -/
def WellPlaced (context : EncryptionContext) : Prop := Placed context (fieldBoundary context.field)

/-- Two contexts name one row: everything but the plane selector agrees. -/
def SameRow (a b : EncryptionContext) : Prop :=
  a.field = b.field ∧ a.tenantId = b.tenantId ∧ a.entityId = b.entityId

theorem asBytes_injective {a b : Id} (ga : Generated a) (gb : Generated b)
    (same : a.asBytes = b.asBytes) : a = b := by
  have apart : ∀ {uuid handle}, Generated (.resource uuid) →
      uuid.bytes ≠ Domain.IdentityId.bytes handle := by
    rintro uuid handle ⟨byte, mem, high⟩ eq
    rw [eq] at mem
    exact absurd (handle.ascii mem) (by simpa using high)
  cases a with
  | resource u =>
      cases b with
      | resource v => exact congrArg _ (Domain.Uuid.ext_bytes same)
      | identity j => exact absurd same (apart ga)
  | identity i =>
      cases b with
      | resource v => exact absurd same.symm (apart gb)
      | identity j => exact congrArg _ (Domain.IdentityId.ext_bytes same)

/-- The tenant part: its tag, and the tenant's bytes. -/
def tenantBytes : Option Id → Bytes
  | some tenantId => (1 : UInt8) :: tenantId.asBytes
  | none => [0]

theorem resource_asBytes_length (uuid : Domain.Uuid) : (Id.resource uuid).asBytes.length = 16 :=
  uuid.length_eq

theorem resource_inj {u v : Domain.Uuid}
    (same : (Id.resource u).asBytes = (Id.resource v).asBytes) : Id.resource u = Id.resource v :=
  congrArg _ (Domain.Uuid.ext_bytes same)

namespace Placed

variable {a b : EncryptionContext} {side : Boundary} {t u : Id}

/-- On the row's side two UUIDs are compared, on the other two generated identifiers. -/
theorem entity_inj (placedA : Placed a side) (placedB : Placed b side)
    (same : a.entityId.asBytes = b.entityId.asBytes) : a.entityId = b.entityId := by
  cases placedA with
  | entityRow entityA =>
      obtain ⟨entityB, -⟩ := placedB
      rw [entityA, entityB] at same ⊢
      exact resource_inj same
  | tenantRow _ entityA =>
      obtain _ | ⟨-, entityB⟩ := placedB
      exact asBytes_injective entityA entityB same

theorem tenant_inj (placedA : Placed a side) (placedB : Placed b side)
    (ownA : a.tenantId = some t) (ownB : b.tenantId = some u) (same : t.asBytes = u.asBytes) :
    t = u := by
  cases placedA with
  | entityRow _ tenantsA =>
      obtain ⟨-, tenantsB⟩ := placedB
      exact asBytes_injective (tenantsA t ownA) (tenantsB u ownB) same
  | tenantRow tenantsA =>
      obtain _ | ⟨tenantsB, -⟩ := placedB
      obtain ⟨x, rfl⟩ := tenantsA t ownA
      obtain ⟨y, rfl⟩ := tenantsB u ownB
      exact resource_inj same

/-- The sixteen bytes of the row mark the boundary from the one end or the other. -/
theorem split (placedA : Placed a side) (placedB : Placed b side)
    (ownA : a.tenantId = some t) (ownB : b.tenantId = some u)
    (same : t.asBytes ++ a.entityId.asBytes = u.asBytes ++ b.entityId.asBytes) :
    t.asBytes = u.asBytes ∧ a.entityId.asBytes = b.entityId.asBytes := by
  cases placedA with
  | entityRow entityA =>
      obtain ⟨entityB, -⟩ := placedB
      apply List.append_inj' same
      rw [entityA, entityB, resource_asBytes_length, resource_asBytes_length]
  | tenantRow tenantsA =>
      obtain _ | ⟨tenantsB, -⟩ := placedB
      obtain ⟨x, rfl⟩ := tenantsA t ownA
      obtain ⟨y, rfl⟩ := tenantsB u ownB
      apply List.append_inj same
      rw [resource_asBytes_length, resource_asBytes_length]

end Placed

/-- Tenant and entity can be told apart when one side of the boundary is a row
in both contexts. -/
theorem tenant_entity_inj {a b : EncryptionContext} (wa : WellPlaced a) (wb : WellPlaced b)
    (field : a.field = b.field)
    (same : tenantBytes a.tenantId ++ a.entityId.asBytes
      = tenantBytes b.tenantId ++ b.entityId.asBytes) :
    a.tenantId = b.tenantId ∧ a.entityId = b.entityId := by
  rw [WellPlaced, ← field] at wb
  cases ta : a.tenantId with
  | none =>
      cases tb : b.tenantId with
      | none =>
          simp only [ta, tb, tenantBytes, List.append_cancel_left_eq] at same
          exact ⟨rfl, Placed.entity_inj wa wb same⟩
      | some u => simp [ta, tb, tenantBytes] at same
  | some t =>
      cases tb : b.tenantId with
      | none => simp [ta, tb, tenantBytes] at same
      | some u =>
          simp only [ta, tb, tenantBytes, List.cons_append, List.cons.injEq, true_and] at same
          obtain ⟨tenants, entities⟩ := Placed.split wa wb ta tb same
          exact ⟨congrArg some (Placed.tenant_inj wa wb ta tb tenants),
            Placed.entity_inj wa wb entities⟩

theorem encryptionAad_congr {a b : EncryptionContext} (same : SameRow a b) (version : Int16) :
    encryptionAad a version = encryptionAad b version := by
  unfold encryptionAad
  rw [same.1, same.2.1, same.2.2]

/-- **The associated data of well-placed contexts determines version, field,
tenant and entity.** -/
theorem aad_eq_iff {a b : EncryptionContext} {v w : Int16} (wa : WellPlaced a)
    (wb : WellPlaced b) :
    encryptionAad a v = encryptionAad b w ↔ v = w ∧ SameRow a b := by
  constructor
  · intro same
    have layout : ∀ (c : EncryptionContext) (x : Int16), encryptionAad c x =
        encryptionDomain ++ (encryptionSchemaVersion :: (Framing.int16BeBytes x ++
          ((0 : UInt8) :: (c.field.label ++ ((0 : UInt8) ::
            (tenantBytes c.tenantId ++ c.entityId.asBytes)))))) := by
      intro c x
      rfl
    rw [layout, layout, List.append_cancel_left_eq] at same
    obtain ⟨version, afterVersion⟩ :=
      Framing.delimiting_int16BeBytes _ _ _ _ (List.cons.inj same).2
    obtain ⟨label, rest⟩ := Framing.append_stop_inj a.field.nul_not_mem_label
      b.field.nul_not_mem_label (List.cons.inj afterVersion).2
    have field := ProtectedField.label_injective label
    exact ⟨version, field, tenant_entity_inj wa wb field rest⟩
  · rintro ⟨rfl, row⟩
    exact encryptionAad_congr row v

/-! ## Aliases -/

/-- Every registered identifier is one that generated text or UUIDs can be. -/
def Registered (table : ContextTable) : Prop := ∀ entry ∈ table, Generated entry.2

theorem generated_of_lookup {table : ContextTable} (registered : Registered table)
    {plane : Option Id} {application retained : Id}
    (look : lookupContext table plane application = some retained) : Generated retained := by
  simp only [lookupContext, Option.map_eq_some_iff] at look
  obtain ⟨entry, find, rfl⟩ := look
  exact registered entry (List.mem_of_find?_eq_some find)

variable {context : EncryptionContext}

/-- The fields with an application put it on the side of the boundary that is
not the row. -/
theorem wellPlaced_replaceApplication {application retained : Id}
    (placed : WellPlaced context) (own : contextApplication context = some application)
    (generated : Generated retained) : WellPlaced (replaceApplication context retained) := by
  unfold WellPlaced at placed ⊢
  unfold replaceApplication
  split
  · rename_i field
    simp only [field, fieldBoundary] at placed ⊢
    obtain _ | ⟨tenants, -⟩ := placed
    exact .tenantRow tenants generated
  · rename_i field
    have side : fieldBoundary context.field = .entityRow := by
      cases name : context.field <;> simp only [contextApplication, name, reduceCtorEq] at own <;>
        first
        | rfl
        | exact absurd name field
    simp only [side] at placed ⊢
    obtain ⟨entity, -⟩ := placed
    exact .entityRow entity fun _ same => Option.some.inj same ▸ generated

theorem wellPlaced_aliasContext {table : ContextTable} (registered : Registered table)
    (current : Option Id) (placed : WellPlaced context) :
    WellPlaced (aliasContext table current context) := by
  unfold aliasContext
  split
  · rename_i retained found
    obtain ⟨application, own, look⟩ := Option.bind_eq_some_iff.mp found
    exact wellPlaced_replaceApplication placed own (generated_of_lookup registered look)
  · exact placed

/-! ## Isolation and recovery -/

namespace EncryptionService

variable {aead : Aead}

variable {service : EncryptionService} {encrypted : EncryptedValue}

theorem encrypt_eq_ok {nonce plaintext : Bytes}
    (sealed : service.encrypt aead nonce context plaintext = .ok encrypted) :
    ∃ key, service.encryptionKeys.Retains encrypted.keyVersion key ∧
      encrypted.ciphertext = aead.encrypt key encrypted.nonce
        (encryptionAad context encrypted.keyVersion) plaintext := by
  obtain ⟨key, own, retained⟩ := service.encryptionKeys.current_ok
  simp only [encrypt, own, bind, Except.bind, pure, Except.pure, Except.ok.injEq] at sealed
  subst sealed
  exact ⟨key, retained, rfl⟩

/-- What a successful `decrypt` opened: the value under its own context, or under
an alias that differs from it. -/
theorem decrypt_eq_ok {current : Option Id} {plaintext : Bytes}
    (opened : service.decrypt aead current context encrypted = .ok plaintext) :
    ∃ key under, service.encryptionKeys.Retains encrypted.keyVersion key ∧
      openUnder aead key encrypted under = some plaintext ∧
      (under = context ∨
        (under = service.retainedContext current context ∧ under ≠ context) ∨
        (under = service.preSchemaContext current context ∧ under ≠ context)) := by
  unfold decrypt at opened
  cases read : service.encryptionKeys.key encrypted.keyVersion with
  | error e => simp [read, bind, Except.bind] at opened
  | ok key =>
      simp only [read, bind, Except.bind] at opened
      have viaAlias : ∀ {retained}, openAlias aead key encrypted context retained = some plaintext →
          openUnder aead key encrypted retained = some plaintext ∧ retained ≠ context := by
        intro retained found
        unfold openAlias at found
        split at found
        · simp at found
        · rename_i differs
          exact ⟨found, differs⟩
      split at opened
      · rename_i found chain
        simp only [pure, Except.pure, Except.ok.injEq] at opened
        subst opened
        simp only [Option.or_eq_some_iff] at chain
        rcases chain with direct | ⟨-, retained | ⟨-, preSchema⟩⟩
        · exact ⟨key, context, read, direct, .inl rfl⟩
        · obtain ⟨under, differs⟩ := viaAlias retained
          exact ⟨key, _, read, under, .inr (.inl ⟨rfl, differs⟩)⟩
        · obtain ⟨under, differs⟩ := viaAlias preSchema
          exact ⟨key, _, read, under, .inr (.inr ⟨rfl, differs⟩)⟩
      · simp at opened

/-- **Recovery.**  Whatever context a value was sealed under, the same context
opens it, under any later keyring that retains the version, in any plane and
with any aliases registered. -/
theorem decrypt_after_rotation (ideal : aead.Ideal) {later : EncryptionService}
    {nonce plaintext : Bytes}
    (current : Option Id) (sealed : service.encrypt aead nonce context plaintext = .ok encrypted)
    (retains : ∀ key, service.encryptionKeys.Retains encrypted.keyVersion key →
      later.encryptionKeys.Retains encrypted.keyVersion key) :
    later.decrypt aead current context encrypted = .ok plaintext := by
  obtain ⟨key, own, ciphertext⟩ := encrypt_eq_ok sealed
  have read : later.encryptionKeys.key encrypted.keyVersion = .ok key := retains key own
  have direct : openUnder aead key encrypted context = some plaintext := by
    rw [openUnder, ciphertext, ideal.opens]
  simp [decrypt, read, direct, bind, Except.bind, pure, Except.pure]

/-- **Isolation.**  A well-placed value opens only under its own row, or under
the row that an alias registered for the asking context's application names. -/
theorem decrypt_only_own (ideal : aead.Ideal) {other : EncryptionService}
    {nonce plaintext opened : Bytes} {asked : EncryptionContext} (current : Option Id)
    (placed : WellPlaced context) (placedAsked : WellPlaced asked)
    (retained : Registered other.applicationContexts)
    (preSchema : Registered other.publicIdContexts)
    (sealed : service.encrypt aead nonce context plaintext = .ok encrypted)
    (read : other.decrypt aead current asked encrypted = .ok opened) :
    (SameRow asked context ∨
      (other.retainedContext current asked ≠ asked ∧
        SameRow (other.retainedContext current asked) context) ∨
      (other.preSchemaContext current asked ≠ asked ∧
        SameRow (other.preSchemaContext current asked) context)) ∧
      opened = plaintext := by
  obtain ⟨key, -, ciphertext⟩ := encrypt_eq_ok sealed
  obtain ⟨key', under, -, chain, which⟩ := decrypt_eq_ok read
  rw [openUnder, ciphertext] at chain
  obtain ⟨rfl, -, aad⟩ := ideal.bound _ _ _ _ _ _ _ _ chain
  rw [aad, ideal.opens, Option.some.injEq] at chain
  have placedUnder : WellPlaced under := by
    rcases which with rfl | ⟨rfl, -⟩ | ⟨rfl, -⟩
    · exact placedAsked
    · exact wellPlaced_aliasContext retained current placedAsked
    · exact wellPlaced_aliasContext preSchema current placedAsked
  have row := ((aad_eq_iff placedUnder placed).mp aad).2
  refine ⟨?_, chain.symm⟩
  rcases which with rfl | ⟨rfl, differs⟩ | ⟨rfl, differs⟩
  · exact .inl row
  · exact .inr (.inl ⟨differs, row⟩)
  · exact .inr (.inr ⟨differs, row⟩)

end EncryptionService

/-- **Ciphertexts are bound to their row.**  Under an ideal AEAD, what one service
seals for a well-placed context another service opens only for the same field,
tenant and entity, or through the alias registered for the asking context's
application in the plane it selects; what comes out is the plaintext; and every
context opens its own values after any rotation that retains the version. -/
theorem ciphertexts_bound_to_row (aead : Aead) (ideal : aead.Ideal)
    (service other : EncryptionService) (current : Option Id) (nonce plaintext : Bytes)
    (context : EncryptionContext) (encrypted : EncryptedValue)
    (sealed : service.encrypt aead nonce context plaintext = .ok encrypted) :
    (∀ (asked : EncryptionContext) (opened : Bytes),
      WellPlaced context → WellPlaced asked →
      Registered other.applicationContexts → Registered other.publicIdContexts →
      other.decrypt aead current asked encrypted = .ok opened →
      (SameRow asked context ∨
        (other.retainedContext current asked ≠ asked ∧
          SameRow (other.retainedContext current asked) context) ∨
        (other.preSchemaContext current asked ≠ asked ∧
          SameRow (other.preSchemaContext current asked) context)) ∧
      opened = plaintext) ∧
    ((∀ key, service.encryptionKeys.Retains encrypted.keyVersion key →
        other.encryptionKeys.Retains encrypted.keyVersion key) →
      other.decrypt aead current context encrypted = .ok plaintext) :=
  ⟨fun _ _ placed placedAsked retained preSchema read =>
      EncryptionService.decrypt_only_own ideal current placed placedAsked retained preSchema
        sealed read,
    EncryptionService.decrypt_after_rotation ideal current sealed⟩

/-! ## Poles -/

/-- A field preceded by its length in unary: delimiting. -/
def frameField (field : Bytes) : Bytes := List.replicate field.length (1 : UInt8) ++ [0] ++ field

theorem delimiting_frameField : Framing.Delimiting frameField := by
  intro a b x y same
  simp only [frameField, List.append_assoc, List.singleton_append] at same
  have marks : ∀ n, (0 : UInt8) ∉ List.replicate n (1 : UInt8) := by
    intro n mem
    exact absurd (List.eq_of_mem_replicate mem) (by decide)
  obtain ⟨length, rest⟩ := Framing.append_stop_inj (marks _) (marks _) same
  have : a.length = b.length := by simpa using congrArg List.length length
  exact List.append_inj rest this

/-- The AEAD that records what it was given in front of the plaintext. -/
def recordOf (p : Key × Bytes × Bytes) : Bytes :=
  p.1.bytes ++ (frameField p.2.1 ++ frameField p.2.2)

theorem delimiting_recordOf : Framing.Delimiting recordOf := by
  have key : Framing.Delimiting Key.bytes := by
    apply Framing.delimiting_of_length
    · intro k l same
      cases k; cases l
      simpa using same
    · intro k l
      rw [k.length_eq, l.length_eq]
  exact key.append (delimiting_frameField.append delimiting_frameField)

def recordingAead : Aead where
  encrypt key nonce aad plaintext := recordOf (key, nonce, aad) ++ plaintext
  decrypt key nonce aad ciphertext :=
    if (recordOf (key, nonce, aad)).isPrefixOf ciphertext then
      some (ciphertext.drop (recordOf (key, nonce, aad)).length)
    else none

theorem recordingAead_ideal : recordingAead.Ideal where
  opens key nonce aad plaintext := by simp [recordingAead]
  bound key nonce aad plaintext key' nonce' aad' opened read := by
    simp only [recordingAead] at read
    split at read
    · rename_i isPrefix
      obtain ⟨rest, whole⟩ := List.isPrefixOf_iff_prefix.mp isPrefix
      have eq := (delimiting_recordOf _ _ _ _ whole).1
      simpa using eq
    · simp at read

def singleKeyring : Keyring where
  currentVersion := 1
  keys := [(1, ⟨List.replicate 32 7, rfl⟩)]
  ordered := by simp
  present := by decide

def bareService : EncryptionService where
  encryptionKeys := singleKeyring
  applicationContexts := []
  publicIdContexts := []

def abHandle : Id := .identity ⟨ascii "ab", .inl (by decide)⟩

def abcHandle : Id := .identity ⟨ascii "abc", .inl (by decide)⟩

def defHandle : Id := .identity ⟨ascii "def", .inl (by decide)⟩

def cdefHandle : Id := .identity ⟨ascii "cdef", .inl (by decide)⟩

def rowId : Id := .resource ⟨List.replicate 16 128, rfl⟩

def appRow : EncryptionContext :=
  .tenant .applicationWebhookUrl abcHandle rowId

def sealedAppRow : EncryptedValue where
  keyVersion := 1
  nonce := []
  ciphertext := recordingAead.encrypt ⟨List.replicate 32 7, rfl⟩ [] (encryptionAad appRow 1) [9]

theorem ciphertexts_bound_to_row_appRow :
    bareService.decrypt recordingAead none appRow sealedAppRow = .ok [9] ∧
      bareService.decrypt recordingAead none
        (.tenant .applicationWebhookSigningSecret abcHandle rowId)
        sealedAppRow ≠ .ok [9] := by
  obtain ⟨isolated, recovered⟩ := ciphertexts_bound_to_row recordingAead recordingAead_ideal
    bareService bareService none [] [9] appRow sealedAppRow rfl
  have placed : ∀ field, fieldBoundary field = .entityRow →
      WellPlaced (.tenant field abcHandle rowId) := by
    intro field side
    rw [WellPlaced, EncryptionContext.tenant, side]
    refine .entityRow rfl ?_
    rintro tenant ⟨⟩
    trivial
  refine ⟨recovered fun _ own => own, fun read => ?_⟩
  rcases (isolated _ _ (placed _ rfl) (placed _ rfl) (by rintro _ ⟨⟩) (by rintro _ ⟨⟩) read).1 with
    row | ⟨differs, -⟩ | ⟨differs, -⟩
  · exact absurd row.1 (by decide)
  · exact differs rfl
  · exact differs rfl

/-- Sixteen ASCII bytes, as a UUID and as a bare handle. -/
def asciiUuid : Id := .resource ⟨ascii "abcdefghijklmnop", by decide⟩

def asciiHandle : Id := .identity ⟨ascii "abcdefghijklmnop", .inl (by decide)⟩

/-- `asked` opens what was sealed for `context`, though they differ and no alias
is registered. -/
def OpensForeign (asked context : EncryptionContext) : Prop :=
  asked ≠ context ∧
    (bareService.encrypt recordingAead [] context [9]).bind
      (bareService.decrypt recordingAead none asked) = .ok [9]

instance (asked context : EncryptionContext) : Decidable (OpensForeign asked context) := by
  unfold OpensForeign
  infer_instance

/-- Pairs of different contexts with one encoding: the plane selector is not bound, a
boundary between two handles can move, and a UUID may have the bytes of a handle,
as the entity of a field without a row there and as a tenant. -/
theorem contexts_share_encodings :
    OpensForeign appRow.production appRow ∧
      OpensForeign (.tenant .applicationWebhookUrl abHandle cdefHandle)
        (.tenant .applicationWebhookUrl abcHandle defHandle) ∧
      OpensForeign (.global .carbonEmail asciiUuid) (.global .carbonEmail asciiHandle) ∧
      OpensForeign (.tenant .applicationWebhookUrl asciiUuid rowId)
        (.tenant .applicationWebhookUrl asciiHandle rowId) := by
  decide +kernel

end SiliconIam.Crypto
