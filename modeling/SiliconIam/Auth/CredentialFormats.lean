/-
# Auth.CredentialFormats -- which strings pass for a credential

Every credential is a four-byte prefix and 43 base64url symbols.  The format is decided
in a dozen places, each by hand: some look at the prefix before they slice behind it,
`tokenClass` slices first, and the code and refresh exchanges look at prefix and length
alone.

`Field` lists where a caller's string comes in, `Field.parse` what becomes of it there.
The checks that slice behind a prefix, and those that strip it, decide the format of
their kind on every text (`checked_eq`, `strippedValid_iff`); `tokenClass` does so unless
a character lies across byte four (`accessToken_decides`, `accessToken_eq_none`).
-/
import SiliconIam.Theory.Utf8
import SiliconIam.Auth.OboSignature

namespace SiliconIam.Auth.CredentialFormats

open SiliconIam.Theory
open SiliconIam.Theory.Hex (Bytes ascii)
open SiliconIam.Theory.Utf8 (isAscii sliceFrom sliceTo isCharBoundary)
open SiliconIam.Auth.OboSignature (toStr isAsciiWhitespace)

set_option autoImplicit false

/-! ## Formats -/

inductive SecretKind where
  | carbonAccessToken
  | siliconAccessToken
  | applicationAccessToken
  | refreshToken
  | oauthRefreshToken
  | authorizationCode
  | oboProof
  | stepUpAssertion
  | applicationAccessKey
  deriving DecidableEq, Repr

def secretPrefix : SecretKind → Bytes
  | .carbonAccessToken => ascii "cat_"
  | .siliconAccessToken => ascii "sat_"
  | .applicationAccessToken => ascii "oat_"
  | .refreshToken => ascii "rft_"
  | .oauthRefreshToken => ascii "ort_"
  | .authorizationCode => ascii "oac_"
  | .oboProof => ascii "obo_"
  | .stepUpAssertion => ascii "sup_"
  | .applicationAccessKey => ascii "aak_"

/-- `is_ascii_alphanumeric`, `-` or `_`. -/
def isBase64Url (b : UInt8) : Bool :=
  (48 ≤ b && b ≤ 57) || (65 ≤ b && b ≤ 90) || (97 ≤ b && b ≤ 122) || b = 45 || b = 95

/-- The format of a kind: its prefix and 43 symbols. -/
def WellFormed (kind : SecretKind) (value : Bytes) : Prop :=
  ∃ encoded, value = secretPrefix kind ++ encoded ∧ encoded.length = 43 ∧
    encoded.all isBase64Url = true

/-- `starts_with`. -/
def startsWith (value : Bytes) (front : String) : Bool := (ascii front).isPrefixOf value

/-- `strip_prefix`. -/
def stripPrefix (value : Bytes) (front : String) : Option Bytes :=
  if startsWith value front then some (value.drop (ascii front).length) else none

/-! ## Parsers

A parser that slices has no answer where the slice panics. -/

inductive AccessTokenError where
  | invalidFormat
  deriving DecidableEq, Repr

inductive ApiError where
  | badRequest (code message : String)
  | validation (field message : String)
  | unauthenticated
  | preconditionFailed (code : String)
  deriving DecidableEq, Repr

/-- `token_class`: the kind of an access token. -/
def tokenClass (value : Bytes) : Option (Except AccessTokenError SecretKind) :=
  if value.length ≠ 47 then some (.error .invalidFormat)
  else
    match sliceFrom value 4 with
    | none => none
    | some rest =>
        if !rest.all isBase64Url then some (.error .invalidFormat)
        else if sliceTo value 4 = some (ascii "cat_") then some (.ok .carbonAccessToken)
        else if sliceTo value 4 = some (ascii "sat_") then some (.ok .siliconAccessToken)
        else if sliceTo value 4 = some (ascii "oat_") then some (.ok .applicationAccessToken)
        else some (.error .invalidFormat)

/-- A check of prefix, length and symbols that slices last, as `refresh_token`,
`validate_verify` and `key_format_is_valid` make it. -/
def checked (value : Bytes) (front : String) : Option Bool :=
  if value.length ≠ 47 then some false
  else if !startsWith value front then some false
  else
    match sliceFrom value 4 with
    | none => none
    | some rest => some (rest.all isBase64Url)

/-- `validation::refresh_token`, of a first-party session. -/
def refreshToken (value : Bytes) : Option (Except ApiError Bytes) :=
  match checked value "rft_" with
  | none => none
  | some valid => some (if !valid then .error .unauthenticated else .ok value)

def validateVerify (accessProof : Bytes) : Option (Except ApiError Unit) :=
  match checked accessProof "obo_" with
  | none => none
  | some valid =>
      some (if !valid then .error (.badRequest "invalid_proof" "The access proof is malformed.")
        else .ok ())

def keyFormatIsValid (key : Bytes) : Option Bool := checked key "aak_"

/-- A check behind a stripped prefix, which needs no slice. -/
def strippedValid (value : Bytes) (front : String) : Bool :=
  match stripPrefix value front with
  | none => false
  | some encoded => encoded.length = 43 && encoded.all isBase64Url

inductive StepUpTokenError where
  | invalidFormat
  deriving DecidableEq, Repr

/-- `StepUpToken::parse`. -/
def StepUpToken.parse (value : Bytes) : Except StepUpTokenError Bytes :=
  if !strippedValid value "sup_" then .error .invalidFormat else .ok value

/-- `require_credential` of the scoped application routes. -/
def requireCredential (value : Bytes) (front : String) : Except ApiError Unit :=
  if !strippedValid value front then
    .error (.badRequest "invalid_grant" "The credential is invalid.")
  else .ok ()

/-- What the exchange of a code looks at before its digest. -/
def exchangeAuthorizationCode (slt : Bytes) : Except ApiError Bytes :=
  if startsWith slt "oac_" && slt.length = 47 then .ok slt
  else .error (.badRequest "invalid_grant" "The short-lived token is invalid.")

/-- What the exchange of a refresh token looks at before its digest. -/
def exchangeRefreshToken (value : Bytes) : Except ApiError Bytes :=
  if startsWith value "ort_" && value.length = 47 then .ok value
  else .error (.badRequest "invalid_grant" "The refresh token is invalid.")

/-! ## Fields -/

/-- Where a string of the caller is taken for a credential.  `slt` fields know whether a
testing environment is selected. -/
inductive Field where
  /-- `Authorization`, of the API. -/
  | bearer
  /-- `Authorization`, of an application's routes. -/
  | applicationBearer
  /-- `Authorization`, of the scoped routes. -/
  | scopedBearer
  /-- `X-Honeycomb-Actor-Token`. -/
  | actorToken
  | subjectToken
  /-- `token`, to be introspected. -/
  | introspectedToken
  /-- `token`, to be revoked. -/
  | revokedToken
  | slt (testing : Bool)
  | scopedSlt (testing : Bool)
  | refreshToken
  | oauthRefreshToken
  | scopedRefreshToken
  | accessProof
  /-- `X-Step-Up-Token`. -/
  | stepUpToken
  | appAccessKey
  deriving DecidableEq, Repr

/-- The kinds a field is for. -/
def Field.kinds : Field → List SecretKind
  | .bearer => [.carbonAccessToken, .siliconAccessToken, .applicationAccessToken]
  | .applicationBearer => [.carbonAccessToken, .siliconAccessToken, .applicationAccessToken]
  | .scopedBearer => [.applicationAccessToken]
  | .actorToken => [.carbonAccessToken, .siliconAccessToken, .applicationAccessToken]
  | .subjectToken => [.carbonAccessToken, .siliconAccessToken, .applicationAccessToken]
  | .introspectedToken =>
      [.carbonAccessToken, .siliconAccessToken, .applicationAccessToken, .oauthRefreshToken]
  | .revokedToken => [.applicationAccessToken, .oauthRefreshToken]
  | .slt _ => [.authorizationCode]
  | .scopedSlt _ => [.authorizationCode]
  | .refreshToken => [.refreshToken]
  | .oauthRefreshToken => [.oauthRefreshToken]
  | .scopedRefreshToken => [.oauthRefreshToken]
  | .accessProof => [.oboProof]
  | .stepUpToken => [.stepUpAssertion]
  | .appAccessKey => [.applicationAccessKey]

/-- A kind if it passes. -/
def acceptIf (passes : Bool) (kind : SecretKind) : Option SecretKind :=
  if passes then some kind else none

/-- The access token of a field as far as its format goes. -/
def accessToken (value : Bytes) : Option (Option SecretKind) :=
  (tokenClass value).map Except.toOption

/-- A header value is text if it is visible ASCII, spaces or tabs. -/
def ofHeader (value : Bytes) (parse : Bytes → Option (Option SecretKind)) :
    Option (Option SecretKind) :=
  match toStr value with
  | none => some none
  | some text => parse text

/-- The short-lived token of `tokens_for_application`.  In a testing environment what is
no issued code names an actor. -/
def shortLived (testing : Bool) (value : Bytes) : Option SecretKind :=
  if testing && !strippedValid value "oac_" then none
  else acceptIf (exchangeAuthorizationCode value).isOk .authorizationCode

/-- What is made of a string: no answer if the parser panics, `some none` if it is refused,
otherwise the kind it passes for. -/
def Field.parse : Field → Bytes → Option (Option SecretKind)
  | .bearer, value => ofHeader value fun credential =>
      if credential = [] || credential.any isAsciiWhitespace then some none
      else accessToken credential
  | .applicationBearer, value => ofHeader value fun credential =>
      if credential.length ≠ 47 || credential.any fun b => !isBase64Url b then some none
      else accessToken credential
  | .scopedBearer, value => ofHeader value fun credential =>
      if !(requireCredential credential "oat_").isOk then some none
      else accessToken credential
  | .actorToken, value => ofHeader value accessToken
  | .subjectToken, value =>
      if !(32 ≤ value.length && value.length ≤ 4096) then some none
      else accessToken value
  | .introspectedToken, value =>
      if startsWith value "ort_" then some (acceptIf (value.length = 47) .oauthRefreshToken)
      else accessToken value
  | .revokedToken, value =>
      if value.length > 4096 || value.length < 32 then some none
      else if startsWith value "oat_" then some (some .applicationAccessToken)
      else some (acceptIf (startsWith value "ort_") .oauthRefreshToken)
  | .slt testing, value => some (shortLived testing value)
  | .scopedSlt testing, value =>
      if !testing && !(requireCredential value "oac_").isOk then some none
      else if testing && (value = [] || value.length > 101) then some none
      else some (shortLived testing value)
  | .refreshToken, value =>
      (CredentialFormats.refreshToken value).map fun checked =>
        acceptIf checked.isOk .refreshToken
  | .oauthRefreshToken, value =>
      some (acceptIf (exchangeRefreshToken value).isOk .oauthRefreshToken)
  | .scopedRefreshToken, value =>
      if !(requireCredential value "ort_").isOk then some none
      else some (acceptIf (exchangeRefreshToken value).isOk .oauthRefreshToken)
  | .accessProof, value =>
      (validateVerify value).map fun checked => acceptIf checked.isOk .oboProof
  | .stepUpToken, value => ofHeader value fun text =>
      some (acceptIf (StepUpToken.parse text).isOk .stepUpAssertion)
  | .appAccessKey, value =>
      (keyFormatIsValid value).map fun valid => acceptIf valid .applicationAccessKey

/-! ## What the checks decide -/

variable {value : Bytes} {kind : SecretKind}

theorem length_secretPrefix (kind : SecretKind) : (secretPrefix kind).length = 4 := by
  cases kind <;> rfl

theorem secretPrefix_isAscii (kind : SecretKind) : (secretPrefix kind).all isAscii = true := by
  cases kind <;> rfl

theorem secretPrefix_injective {kind other : SecretKind}
    (same : secretPrefix kind = secretPrefix other) : kind = other := by
  cases kind <;> cases other <;> first | rfl | exact absurd same (by decide)

/-- The format, as a check of prefix, length and what follows the prefix. -/
theorem wellFormed_iff :
    WellFormed kind value ↔ value.length = 47 ∧ secretPrefix kind <+: value ∧
      (value.drop 4).all isBase64Url = true := by
  have four := length_secretPrefix kind
  constructor
  · rintro ⟨encoded, rfl, long, symbols⟩
    refine ⟨?_, List.prefix_append _ _, ?_⟩
    · rw [List.length_append]
      omega
    · rw [← four, List.drop_left]
      exact symbols
  · rintro ⟨long, ⟨encoded, rfl⟩, symbols⟩
    rw [← four, List.drop_left] at symbols
    rw [List.length_append] at long
    exact ⟨encoded, rfl, by omega, symbols⟩

theorem startsWith_iff {front : String} (same : ascii front = secretPrefix kind) :
    startsWith value front = true ↔ secretPrefix kind <+: value := by
  rw [startsWith, same, List.isPrefixOf_iff_prefix]

theorem strippedValid_iff {front : String} (same : ascii front = secretPrefix kind) :
    strippedValid value front = true ↔ WellFormed kind value := by
  have four := length_secretPrefix kind
  rw [wellFormed_iff, strippedValid, stripPrefix, same, four]
  by_cases starts : startsWith value front = true
  · rw [if_pos starts]
    have front := (startsWith_iff same).mp starts
    simp only [Bool.and_eq_true, decide_eq_true_eq, List.length_drop, front, true_and]
    constructor
    · rintro ⟨rest, symbols⟩
      exact ⟨by omega, symbols⟩
    · rintro ⟨whole, symbols⟩
      exact ⟨by omega, symbols⟩
  · rw [if_neg starts]
    simp only [Bool.false_eq_true, false_iff]
    rintro ⟨-, front, -⟩
    exact starts ((startsWith_iff same).mpr front)

/-- Behind a prefix a text can be sliced. -/
theorem sliceFrom_of_prefix {text : List Char} (front : secretPrefix kind <+: Utf8.encode text) :
    sliceFrom (Utf8.encode text) 4 = some ((Utf8.encode text).drop 4) := by
  obtain ⟨rest, split⟩ := front
  have cut := Utf8.isCharBoundary_of_ascii split.symm (secretPrefix_isAscii kind)
  rw [length_secretPrefix] at cut
  rw [sliceFrom, if_pos cut]

/-- The check that slices behind a prefix is the one that strips it. -/
theorem checked_eq {text : List Char} {front : String} (same : ascii front = secretPrefix kind) :
    checked (Utf8.encode text) front = some (strippedValid (Utf8.encode text) front) := by
  have formed := @strippedValid_iff (Utf8.encode text) _ _ same
  rw [wellFormed_iff] at formed
  unfold checked
  by_cases long : (Utf8.encode text).length = 47
  · rw [if_neg (not_not_intro long)]
    by_cases starts : startsWith (Utf8.encode text) front = true
    · have begins := (startsWith_iff same).mp starts
      rw [if_neg (by simp [starts]), sliceFrom_of_prefix begins]
      simp only [long, begins, true_and] at formed
      exact congrArg some (Bool.eq_iff_iff.mpr formed.symm)
    · have invalid : strippedValid (Utf8.encode text) front = false := by
        rw [← Bool.not_eq_true, formed]
        rintro ⟨-, begins, -⟩
        exact starts ((startsWith_iff same).mpr begins)
      rw [if_pos (by simp [starts]), invalid]
  · have invalid : strippedValid (Utf8.encode text) front = false := by
      rw [← Bool.not_eq_true, formed]
      rintro ⟨whole, -⟩
      exact long whole
    rw [if_pos long, invalid]

/-- The kinds `tokenClass` knows. -/
def accessKinds : List SecretKind :=
  [.carbonAccessToken, .siliconAccessToken, .applicationAccessToken]

/-- A string of the right length with a character across byte four. -/
def CutsCharacter (value : Bytes) : Prop := value.length = 47 ∧ isCharBoundary value 4 = false

/-- The format is decided: there is an answer, and the kinds of the field are accepted in
their format only. -/
def Decides (parsed : Option (Option SecretKind)) (kinds : List SecretKind) (value : Bytes) :
    Prop :=
  ∃ verdict, parsed = some verdict ∧
    ∀ kind, verdict = some kind ↔ kind ∈ kinds ∧ WellFormed kind value

/-- A string has the format of one kind only. -/
theorem prefix_unique {kind other : SecretKind} (one : secretPrefix kind <+: value)
    (two : secretPrefix other <+: value) : kind = other := by
  apply secretPrefix_injective
  have long : (secretPrefix kind).length = (secretPrefix other).length := by
    rw [length_secretPrefix, length_secretPrefix]
  exact (List.prefix_of_prefix_length_le one two (Nat.le_of_eq long)).eq_of_length long

theorem WellFormed.front (formed : WellFormed kind value) : secretPrefix kind <+: value :=
  (wellFormed_iff.mp formed).2.1

theorem decides_kind {kinds : List SecretKind} (known : kind ∈ kinds)
    (formed : WellFormed kind value) : Decides (some (some kind)) kinds value := by
  refine ⟨some kind, rfl, ?_⟩
  intro other
  constructor
  · intro accepted
    cases accepted
    exact ⟨known, formed⟩
  · rintro ⟨-, held⟩
    rw [prefix_unique formed.front held.front]

theorem decides_refused {kinds : List SecretKind}
    (unformed : ∀ kind ∈ kinds, ¬WellFormed kind value) : Decides (some none) kinds value := by
  refine ⟨none, rfl, ?_⟩
  intro kind
  constructor
  · intro accepted
    cases accepted
  · rintro ⟨known, formed⟩
    exact absurd formed (unformed kind known)

theorem decides_single {passes : Bool} :
    Decides (some (acceptIf passes kind)) [kind] value ↔
      (passes = true ↔ WellFormed kind value) := by
  unfold acceptIf
  constructor
  · rintro ⟨verdict, same, exact_⟩
    cases same
    have own := exact_ kind
    simp only [List.mem_singleton, true_and] at own
    rw [← own]
    cases passes <;> simp
  · intro own
    refine ⟨_, rfl, ?_⟩
    intro other
    by_cases same : other = kind
    · subst same
      cases passes <;> simpa using own
    · cases passes with
      | true => simp [same, Ne.symm same]
      | false => simp [same]

theorem accessToken_eq_none : accessToken value = none ↔ CutsCharacter value := by
  unfold accessToken tokenClass CutsCharacter sliceFrom
  by_cases long : value.length = 47
  · rw [if_neg (not_not_intro long)]
    by_cases cut : isCharBoundary value 4 = true
    · rw [if_pos cut]
      simp only [long, cut, Option.map_eq_none_iff]
      split
      · simp
      · split
        · simp
        · split
          · simp
          · split <;> simp
    · simp [long, cut]
  · simp [long]

/-- Where the slice goes through, `tokenClass` decides its three kinds. -/
theorem accessToken_decides (cut : ¬CutsCharacter value) :
    Decides (accessToken value) accessKinds value := by
  by_cases long : value.length = 47
  · have boundary : isCharBoundary value 4 = true := by
      cases at_ : isCharBoundary value 4 with
      | true => rfl
      | false => exact absurd ⟨long, at_⟩ cut
    have begins : ∀ kind, value.take 4 = secretPrefix kind ↔ secretPrefix kind <+: value := by
      intro kind
      rw [List.prefix_iff_eq_take, length_secretPrefix, eq_comm]
    have formed : ∀ kind, WellFormed kind value ↔
        value.take 4 = secretPrefix kind ∧ (value.drop 4).all isBase64Url = true := by
      intro kind
      rw [wellFormed_iff, begins]
      simp [long]
    unfold accessToken tokenClass sliceFrom sliceTo
    rw [if_neg (not_not_intro long), if_pos boundary, if_pos boundary]
    by_cases symbols : (value.drop 4).all isBase64Url = true
    · simp only [symbols, Bool.not_true, Bool.false_eq_true, if_false, Option.some.injEq]
      by_cases carbon : value.take 4 = ascii "cat_"
      · rw [if_pos carbon]
        exact decides_kind (by decide) ((formed .carbonAccessToken).mpr ⟨carbon, symbols⟩)
      rw [if_neg carbon]
      by_cases silicon : value.take 4 = ascii "sat_"
      · rw [if_pos silicon]
        exact decides_kind (by decide) ((formed .siliconAccessToken).mpr ⟨silicon, symbols⟩)
      rw [if_neg silicon]
      by_cases application : value.take 4 = ascii "oat_"
      · rw [if_pos application]
        exact decides_kind (by decide) ((formed .applicationAccessToken).mpr ⟨application, symbols⟩)
      rw [if_neg application]
      apply decides_refused
      intro kind known held
      have front := ((formed kind).mp held).1
      simp only [accessKinds, List.mem_cons, List.not_mem_nil, or_false] at known
      rcases known with rfl | rfl | rfl
      · exact carbon front
      · exact silicon front
      · exact application front
    · simp only [symbols, Bool.not_false, if_true]
      apply decides_refused
      intro kind _ held
      exact symbols ((formed kind).mp held).2
  · unfold accessToken tokenClass
    rw [if_pos long]
    apply decides_refused
    intro kind _ formed
    exact long (wellFormed_iff.mp formed).1

end SiliconIam.Auth.CredentialFormats
