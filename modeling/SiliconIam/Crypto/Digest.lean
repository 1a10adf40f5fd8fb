/-
# Crypto.Digest -- keyed digests, and what their message determines

A keyed digest authenticates one byte string assembled from a domain, a key
version, a purpose, the testing environment in scope and the value
(`keyedDigestMessage`).  Everything before the value is delimiting, so the
message determines domain, version and purpose outright (`header_delimiting`).

The plane is different.  Inside a testing environment the value is preceded by
the environment's frame; in production nothing is added, so that production
digests stay what they were before testing environments existed.  Two testing
environments are therefore apart, but a production value that itself begins with
an environment's frame has the message of that environment's shorter value
(`message_eq_iff`).  That is the only coincidence, and `digest_verifies_iff`
carries it to verification under an ideal MAC.
-/
import SiliconIam.Theory.Framing
import SiliconIam.Crypto.Keyring
import SiliconIam.Domain.Id

namespace SiliconIam.Crypto

open SiliconIam.Theory
open SiliconIam.Theory.Hex (Bytes ascii)
open SiliconIam.Domain (Id)

set_option autoImplicit false

/-! ## Labels -/

def digestDomain : Bytes := ascii "silicon-iam:v1:digest"

def testingEnvironmentDomain : Bytes := ascii "silicon-iam:v1:testing-environment"

def blindIndexDomain : Bytes := ascii "silicon-iam:v1:blind-index"

/-- Closed domain separation for credential digests. -/
inductive DigestPurpose where
  | carbonAccessToken
  | siliconAccessToken
  | applicationAccessToken
  | refreshToken
  | oauthRefreshToken
  | authorizationCode
  | ssoState
  | ssoNonce
  | oboProof
  | stepUpOtp
  | stepUpAssertion
  | siliconCredential
  | applicationAccessKey
  | applicationSecret
  | webhookSigningSecret
  | signupEmailOtp
  | signupPhoneOtp
  | loginEmailOtp
  | loginPhoneOtp
  | invitationOtp
  | rateLimitScope
  | idempotencyCallerScope
  | idempotencyKey
  | idempotencyRequest
  | testingEnvironmentKey
deriving DecidableEq

/-- Closed domain separation for exact contact lookup. -/
inductive BlindIndexPurpose where
  | carbonEmail
  | carbonPhone
deriving DecidableEq

def DigestPurpose.label : DigestPurpose → Bytes
  | .carbonAccessToken => ascii "carbon-access-token"
  | .siliconAccessToken => ascii "silicon-access-token"
  | .applicationAccessToken => ascii "application-access-token"
  | .refreshToken => ascii "refresh-token"
  | .oauthRefreshToken => ascii "oauth-refresh-token"
  | .authorizationCode => ascii "authorization-code"
  | .ssoState => ascii "sso-state"
  | .ssoNonce => ascii "sso-nonce"
  | .oboProof => ascii "obo-proof"
  | .stepUpOtp => ascii "step-up-otp"
  | .stepUpAssertion => ascii "step-up-assertion"
  | .siliconCredential => ascii "silicon-credential"
  | .applicationSecret => ascii "application-secret"
  | .applicationAccessKey => ascii "application-access-key"
  | .webhookSigningSecret => ascii "webhook-signing-secret"
  | .signupEmailOtp => ascii "signup-email-otp"
  | .signupPhoneOtp => ascii "signup-phone-otp"
  | .loginEmailOtp => ascii "login-email-otp"
  | .loginPhoneOtp => ascii "login-phone-otp"
  | .invitationOtp => ascii "invitation-otp"
  | .rateLimitScope => ascii "rate-limit-scope"
  | .idempotencyCallerScope => ascii "idempotency-caller-scope"
  | .idempotencyKey => ascii "idempotency-key"
  | .idempotencyRequest => ascii "idempotency-request"
  | .testingEnvironmentKey => ascii "testing-environment-key"

def BlindIndexPurpose.label : BlindIndexPurpose → Bytes
  | .carbonEmail => ascii "carbon-email"
  | .carbonPhone => ascii "carbon-phone"

/-- Every purpose, for checks over the whole closed set. -/
def DigestPurpose.all : List DigestPurpose :=
  [.carbonAccessToken, .siliconAccessToken, .applicationAccessToken, .refreshToken,
    .oauthRefreshToken, .authorizationCode, .ssoState, .ssoNonce, .oboProof, .stepUpOtp,
    .stepUpAssertion, .siliconCredential, .applicationAccessKey, .applicationSecret,
    .webhookSigningSecret, .signupEmailOtp, .signupPhoneOtp, .loginEmailOtp, .loginPhoneOtp,
    .invitationOtp, .rateLimitScope, .idempotencyCallerScope, .idempotencyKey,
    .idempotencyRequest, .testingEnvironmentKey]

theorem DigestPurpose.mem_all (p : DigestPurpose) : p ∈ all := by cases p <;> decide

theorem DigestPurpose.label_injective : Function.Injective DigestPurpose.label := by
  have distinct : ∀ a ∈ all, ∀ b ∈ all, a.label = b.label → a = b := by decide +kernel
  exact fun a b => distinct a a.mem_all b b.mem_all

theorem DigestPurpose.nul_not_mem_label (p : DigestPurpose) : 0 ∉ p.label := by
  cases p <;> decide

theorem BlindIndexPurpose.label_injective : Function.Injective BlindIndexPurpose.label := by
  intro a b same
  cases a <;> cases b <;> first | rfl | exact absurd same (by decide)

theorem BlindIndexPurpose.nul_not_mem_label (p : BlindIndexPurpose) : 0 ∉ p.label := by
  cases p <;> decide

/-- The frame of the value inside one testing environment. -/
def testingFrame (environment : Id) : Bytes :=
  testingEnvironmentDomain ++ environment.asBytes ++ [0]

/-- The bytes `keyed_digest` feeds to the MAC, `plane` being the testing
environment in scope. -/
def keyedDigestMessage (plane : Option Id) (keyVersion : Int16) (domain purpose value : Bytes) :
    Bytes :=
  domain ++ (Framing.int16BeBytes keyVersion ++ ((0 : UInt8) :: (purpose ++ ((0 : UInt8) ::
    (match plane with
      | some environment => testingFrame environment ++ value
      | none => value)))))

/-! ## The header determines domain, version and purpose -/

/-- A domain with one of its own purposes: the closed set of digest uses. -/
inductive DigestUse where
  | secret (purpose : DigestPurpose)
  | blindIndex (purpose : BlindIndexPurpose)
deriving DecidableEq

namespace DigestUse

def isSecret : DigestUse → Bool
  | .secret _ => true
  | .blindIndex _ => false

def domainOf : Bool → Bytes
  | true => digestDomain
  | false => blindIndexDomain

def domain (use : DigestUse) : Bytes := domainOf use.isSecret

def label : DigestUse → Bytes
  | .secret purpose => purpose.label
  | .blindIndex purpose => purpose.label

theorem delimiting_domainOf : Framing.Delimiting domainOf := by
  apply Framing.delimiting_of_prefix_eq
  intro a b
  revert a b
  decide

theorem nul_not_mem_label (use : DigestUse) : 0 ∉ use.label := by
  cases use with
  | secret purpose => exact purpose.nul_not_mem_label
  | blindIndex purpose => exact purpose.nul_not_mem_label

theorem eq_of_label {a b : DigestUse} (kind : a.isSecret = b.isSecret) (same : a.label = b.label) :
    a = b := by
  cases a <;> cases b <;> simp only [isSecret, Bool.true_eq_false, Bool.false_eq_true] at kind
  · exact congrArg _ (DigestPurpose.label_injective same)
  · exact congrArg _ (BlindIndexPurpose.label_injective same)

end DigestUse

/-- A selected testing environment is a row of the control plane, so its
identifier is a resource UUID. -/
def ControlPlane (plane : Option Id) : Prop :=
  ∀ environment, plane = some environment → ∃ uuid, environment = Id.resource uuid

/-- Everything in front of the plane and the value. -/
def digestHeader (use : DigestUse) (keyVersion : Int16) : Bytes :=
  use.domain ++ (Framing.int16BeBytes keyVersion ++ ((0 : UInt8) :: (use.label ++ [0])))

/-- What stands after the header: the environment's frame, if any, and the value. -/
def planeValue (plane : Option Id) (value : Bytes) : Bytes :=
  match plane with
  | some environment => testingFrame environment ++ value
  | none => value

theorem header_delimiting : Framing.Delimiting fun p : DigestUse × Int16 => digestHeader p.1 p.2 := by
  rintro ⟨use, version⟩ ⟨use', version'⟩ x y same
  simp only [digestHeader, DigestUse.domain, List.append_assoc, List.cons_append,
    List.nil_append] at same
  obtain ⟨kind, afterDomain⟩ := DigestUse.delimiting_domainOf _ _ _ _ same
  obtain ⟨rfl, afterVersion⟩ := Framing.delimiting_int16BeBytes _ _ _ _ afterDomain
  obtain ⟨label, rest⟩ := Framing.append_stop_inj use.nul_not_mem_label use'.nul_not_mem_label
    (List.cons.inj afterVersion).2
  exact ⟨Prod.ext (DigestUse.eq_of_label kind label) rfl, rest⟩

/-! ## Whole inputs -/

/-- Everything a keyed digest depends on apart from the key. -/
structure DigestInput where
  use : DigestUse
  keyVersion : Int16
  plane : Option Id
  value : Bytes
deriving DecidableEq

namespace DigestInput

def message (input : DigestInput) : Bytes :=
  keyedDigestMessage input.plane input.keyVersion input.use.domain input.use.label input.value

theorem message_eq (input : DigestInput) :
    input.message =
      digestHeader input.use input.keyVersion ++ planeValue input.plane input.value := by
  simp only [message, keyedDigestMessage, digestHeader, List.append_assoc, List.cons_append,
    List.nil_append]
  rfl

/-- `production` is a production input whose value is exactly what the testing
input adds after the header: the environment's frame and the testing value. -/
structure Shadows (production testing : DigestInput) : Prop where
  use : production.use = testing.use
  keyVersion : production.keyVersion = testing.keyVersion
  plane : production.plane = none
  framed : ∃ environment, testing.plane = some environment ∧
    production.value = testingFrame environment ++ testing.value

end DigestInput

theorem testingFrame_delimiting :
    Framing.Delimiting fun uuid : Domain.Uuid => testingFrame (.resource uuid) := by
  apply Framing.delimiting_of_length
  · intro u v same
    simp only [testingFrame, Id.asBytes, List.append_assoc, List.append_cancel_left_eq,
      List.append_cancel_right_eq] at same
    exact Domain.Uuid.ext_bytes same
  · intro u v
    simp [testingFrame, Id.asBytes, u.length_eq, v.length_eq]

variable {plane : Option Id}

/-- Two planes with two values behind one header: the same plane and value, or
production on one side with the other side's frame inside its value. -/
theorem planeValue_eq_iff {plane' : Option Id} {value value' : Bytes}
    (control : ControlPlane plane) (control' : ControlPlane plane') :
    planeValue plane value = planeValue plane' value' ↔
      (plane = plane' ∧ value = value') ∨
      (plane = none ∧ ∃ e, plane' = some e ∧ value = testingFrame e ++ value') ∨
      (plane' = none ∧ ∃ e, plane = some e ∧ value' = testingFrame e ++ value) := by
  cases plane with
  | none =>
      cases plane' with
      | none => simp [planeValue]
      | some e => simp [planeValue]
  | some e =>
      cases plane' with
      | none =>
          simp only [planeValue, reduceCtorEq, false_and, true_and, false_or, Option.some.injEq,
            exists_eq_left']
          exact eq_comm
      | some e' =>
          obtain ⟨uuid, rfl⟩ := control e rfl
          obtain ⟨uuid', rfl⟩ := control' e' rfl
          simp only [planeValue, reduceCtorEq, false_and, or_false, Option.some.injEq,
            Id.resource.injEq]
          constructor
          · exact testingFrame_delimiting uuid uuid' value value'
          · rintro ⟨rfl, rfl⟩
            rfl

/-- **When two inputs have one message.**  Only when they are the same input, or
one is the production shadow of the other. -/
theorem message_eq_iff {a b : DigestInput} (control : ControlPlane a.plane)
    (control' : ControlPlane b.plane) :
    a.message = b.message ↔ a = b ∨ a.Shadows b ∨ b.Shadows a := by
  have parts : a.message = b.message ↔
      (a.use = b.use ∧ a.keyVersion = b.keyVersion) ∧
        planeValue a.plane a.value = planeValue b.plane b.value := by
    rw [a.message_eq, b.message_eq]
    constructor
    · intro same
      obtain ⟨header, rest⟩ :=
        header_delimiting (a.use, a.keyVersion) (b.use, b.keyVersion) _ _ same
      exact ⟨Prod.mk.inj header, rest⟩
    · rintro ⟨⟨use, version⟩, rest⟩
      rw [use, version, rest]
  rw [parts, planeValue_eq_iff control control']
  constructor
  · rintro ⟨⟨use, version⟩, ⟨plane, value⟩ | ⟨plane, framed⟩ | ⟨plane, framed⟩⟩
    · cases a; simp_all
    · exact .inr (.inl ⟨use, version, plane, framed⟩)
    · exact .inr (.inr ⟨use.symm, version.symm, plane, framed⟩)
  · rintro (rfl | shadow | shadow)
    · exact ⟨⟨rfl, rfl⟩, .inl ⟨rfl, rfl⟩⟩
    · exact ⟨⟨shadow.use, shadow.keyVersion⟩, .inr (.inl ⟨shadow.plane, shadow.framed⟩)⟩
    · exact ⟨⟨shadow.use.symm, shadow.keyVersion.symm⟩,
        .inr (.inr ⟨shadow.plane, shadow.framed⟩)⟩

/-! ## Digesting and verifying -/

section Mac

variable {D : Type} [DecidableEq D] (mac : Key → Bytes → D)

/-- A digest as it is stored: the version it was made with, and its bytes. -/
structure SecretDigest (D : Type) where
  keyVersion : Int16
  bytes : D

/-- `keyed_digest`.  A 32-byte key is always accepted by the HMAC primitive, so
its initialization error is not reachable from a keyring. -/
def keyedDigest (plane : Option Id) (key : Key) (keyVersion : Int16)
    (domain purpose value : Bytes) : SecretDigest D where
  keyVersion := keyVersion
  bytes := mac key (keyedDigestMessage plane keyVersion domain purpose value)

def digestSecret (ring : Keyring) (plane : Option Id) (purpose : DigestPurpose) (secret : Bytes) :
    Except CryptoError (SecretDigest D) := do
  let (version, key) ← ring.current
  pure (keyedDigest mac plane key version digestDomain purpose.label secret)

/-- Digests for every retained version, in version order. -/
def digestSecrets (ring : Keyring) (plane : Option Id) (purpose : DigestPurpose) (secret : Bytes) :
    List (SecretDigest D) :=
  ring.keys.map fun (version, key) =>
    keyedDigest mac plane key version digestDomain purpose.label secret

def verifySecret (ring : Keyring) (plane : Option Id) (purpose : DigestPurpose) (supplied : Bytes)
    (expected : SecretDigest D) : Except CryptoError Bool := do
  let key ← ring.key expected.keyVersion
  let actual := keyedDigest mac plane key expected.keyVersion digestDomain purpose.label supplied
  pure (decide (actual.bytes = expected.bytes))

/-- A MAC without collisions, over keys and messages alike. -/
def IdealMac : Prop := ∀ key message key' message',
  mac key message = mac key' message' → key = key' ∧ message = message'

/-- The input a secret digest is made from. -/
def secretInput (purpose : DigestPurpose) (version : Int16) (plane : Option Id) (value : Bytes) :
    DigestInput where
  use := .secret purpose
  keyVersion := version
  plane := plane
  value := value

variable {mac}

variable {purpose : DigestPurpose}

omit [DecidableEq D] in
theorem digestSecret_eq_ok {ring : Keyring}
    {secret : Bytes} {digest : SecretDigest D}
    (made : digestSecret mac ring plane purpose secret = .ok digest) :
    ∃ key, ring.Retains digest.keyVersion key ∧
      digest.bytes = mac key (secretInput purpose digest.keyVersion plane secret).message := by
  obtain ⟨key, own, retained⟩ := ring.current_ok
  simp only [digestSecret, own, bind, Except.bind, pure, Except.pure, Except.ok.injEq] at made
  subst made
  exact ⟨key, retained, rfl⟩

theorem verifySecret_eq_true {ring : Keyring}
    {supplied : Bytes} {expected : SecretDigest D} :
    verifySecret mac ring plane purpose supplied expected = .ok true ↔
      ∃ key, ring.Retains expected.keyVersion key ∧
        mac key (secretInput purpose expected.keyVersion plane supplied).message
          = expected.bytes := by
  unfold verifySecret Keyring.Retains
  cases read : ring.key expected.keyVersion with
  | error e => simp [bind, Except.bind]
  | ok key =>
      simp only [bind, Except.bind, pure, Except.pure, Except.ok.injEq, decide_eq_true_eq,
        exists_eq_left']
      rfl

theorem verified_inputs {ring ring' : Keyring} {plane' : Option Id}
    {purpose' : DigestPurpose} {secret supplied : Bytes} {digest : SecretDigest D}
    (ideal : IdealMac mac) (made : digestSecret mac ring plane purpose secret = .ok digest)
    (verified : verifySecret mac ring' plane' purpose' supplied digest = .ok true) :
    (secretInput purpose digest.keyVersion plane secret).message =
      (secretInput purpose' digest.keyVersion plane' supplied).message := by
  obtain ⟨key, -, bytes⟩ := digestSecret_eq_ok made
  obtain ⟨key', -, same⟩ := verifySecret_eq_true.mp verified
  rw [bytes] at same
  exact (ideal _ _ _ _ same).2.symm

end Mac

/-- Neither of two secrets is the other behind a testing environment's frame. -/
def Unshadowed (plane plane' : Option Id) (secret supplied : Bytes) : Prop :=
  (plane = none → ∀ e, plane' = some e → secret ≠ testingFrame e ++ supplied) ∧
    (plane' = none → ∀ e, plane = some e → supplied ≠ testingFrame e ++ secret)

/-- **Keyed digests separate versions, domains, purposes and planes, up to the
production shadow of a testing value.**  Equal messages come from one input or
from a production value that is the other's framed value; so under an ideal MAC
a digest verifies only for its own purpose, and for its own plane and secret
unless one of the two secrets is the framed form of the other. -/
theorem digests_separate {D : Type} [DecidableEq D] (mac : Key → Bytes → D)
    (ideal : IdealMac mac) :
    (∀ a b : DigestInput, ControlPlane a.plane → ControlPlane b.plane →
      (a.message = b.message ↔ a = b ∨ a.Shadows b ∨ b.Shadows a)) ∧
    ∀ (ring ring' : Keyring) (plane plane' : Option Id) (purpose purpose' : DigestPurpose)
      (secret supplied : Bytes) (digest : SecretDigest D),
      ControlPlane plane → ControlPlane plane' →
      digestSecret mac ring plane purpose secret = .ok digest →
      verifySecret mac ring' plane' purpose' supplied digest = .ok true →
      purpose = purpose' ∧
        (Unshadowed plane plane' secret supplied → plane = plane' ∧ secret = supplied) := by
  refine ⟨fun a b control control' => message_eq_iff control control', ?_⟩
  intro ring ring' plane plane' purpose purpose' secret supplied digest control control' made
    verified
  have same := verified_inputs ideal made verified
  rcases (message_eq_iff (a := secretInput purpose digest.keyVersion plane secret)
    (b := secretInput purpose' digest.keyVersion plane' supplied) control control').mp same with eq | shadow | shadow
  · simp only [secretInput, DigestInput.mk.injEq, DigestUse.secret.injEq] at eq
    exact ⟨eq.1, fun _ => ⟨eq.2.2.1, eq.2.2.2⟩⟩
  · refine ⟨DigestUse.secret.inj shadow.use, fun unshadowed => ?_⟩
    obtain ⟨e, plane, framed⟩ := shadow.framed
    exact absurd framed (unshadowed.1 shadow.plane e plane)
  · refine ⟨(DigestUse.secret.inj shadow.use).symm, fun unshadowed => ?_⟩
    obtain ⟨e, plane, framed⟩ := shadow.framed
    exact absurd framed (unshadowed.2 shadow.plane e plane)

/-! ## Poles -/

/-- The collision-free pairing MAC. -/
def pairMac (key : Key) (message : Bytes) : Key × Bytes := (key, message)

theorem pairMac_ideal : IdealMac pairMac := fun _ _ _ _ same => Prod.mk.inj same

def zeroKey : Key := ⟨List.replicate 32 0, rfl⟩

def singleRing : Keyring where
  currentVersion := 1
  keys := [(1, zeroKey)]
  ordered := by simp
  present := by decide

def nilEnvironment : Id := .resource ⟨List.replicate 16 0, rfl⟩

theorem controlPlane_nilEnvironment : ControlPlane (some nilEnvironment) := by
  rintro environment ⟨⟩
  exact ⟨_, rfl⟩

theorem digests_separate_pair :
    ((secretInput .applicationSecret 1 (some nilEnvironment) (ascii "x")).message ≠
      (secretInput .applicationSecret 1 none (ascii "x")).message) ∧
    ∀ digest, digestSecret pairMac singleRing none .oboProof (ascii "x") = .ok digest →
      verifySecret pairMac singleRing none .refreshToken (ascii "x") digest ≠ .ok true := by
  obtain ⟨messages, verifies⟩ := digests_separate pairMac pairMac_ideal
  have production : ControlPlane none := by rintro _ ⟨⟩
  refine ⟨fun same => ?_, fun digest made verified => ?_⟩
  · rcases (messages _ _ controlPlane_nilEnvironment production).mp same with eq | shadow | shadow
    · exact absurd eq (by decide)
    · exact absurd shadow.plane (by decide)
    · obtain ⟨e, plane, framed⟩ := shadow.framed
      exact absurd (congrArg List.length framed) (by
        simp [secretInput, testingFrame, testingEnvironmentDomain, ascii])
  · exact absurd
      (verifies _ _ _ _ _ _ _ _ digest production production made verified).1 (by decide)

/-- In production, the secret that spells out an environment's frame has the
message of that environment's shorter secret. -/
theorem production_shadow_collides :
    (secretInput .applicationSecret 1 none (testingFrame nilEnvironment ++ ascii "x")).message =
        (secretInput .applicationSecret 1 (some nilEnvironment) (ascii "x")).message ∧
      secretInput .applicationSecret 1 none (testingFrame nilEnvironment ++ ascii "x") ≠
        secretInput .applicationSecret 1 (some nilEnvironment) (ascii "x") := by
  decide

end SiliconIam.Crypto
