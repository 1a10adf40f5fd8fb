/-
# Auth.CredentialDecisions -- where a credential's format is decided

What `Auth.CredentialFormats` says of the checks, field by field.  Header fields are
visible ASCII before any check slices them, so no header makes a parser panic
(`ofHeader_decides`).

No string passes as two kinds, whatever the fields (`parse_unique`).  The rest fails
exactly on two kinds of strings: 47 bytes with a character across byte four, in the two
fields that hand unrestricted text to `tokenClass`; and strings with a right prefix and an
impossible rest, in the fields that look at prefix and length alone (`Exception`).
-/
import SiliconIam.Auth.CredentialFormats

namespace SiliconIam.Auth.CredentialFormats

open SiliconIam.Theory
open SiliconIam.Theory.Hex (Bytes ascii)
open SiliconIam.Theory.Utf8 (isAscii sliceFrom)
open SiliconIam.Auth.OboSignature (toStr isAsciiWhitespace)

set_option autoImplicit false

variable {value : Bytes} {kind : SecretKind}

/-! ## Headers -/

theorem isBase64Url_of_mem {b : UInt8} (formed : WellFormed kind value) (mem : b ∈ value) :
    isBase64Url b = true := by
  obtain ⟨encoded, rfl, -, symbols⟩ := formed
  have front : (secretPrefix kind).all isBase64Url = true := by cases kind <;> rfl
  rcases List.mem_append.mp mem with mem | mem
  · exact List.all_eq_true.mp front b mem
  · exact List.all_eq_true.mp symbols b mem

set_option maxRecDepth 20000 in
/-- The symbols of a credential are visible, no whitespace and ASCII. -/
theorem isBase64Url_visible (b : UInt8) (symbol : isBase64Url b = true) :
    ((32 ≤ b && b < 127) || b = 9) = true ∧ isAsciiWhitespace b = false := by
  revert b
  apply Hex.forall_byte
  decide

theorem toStr_of_wellFormed (formed : WellFormed kind value) : toStr value = some value := by
  have visible : (value.all fun c => (32 ≤ c && c < 127) || c = 9) = true := by
    rw [List.all_eq_true]
    intro b mem
    exact (isBase64Url_visible b (isBase64Url_of_mem formed mem)).1
  rw [toStr, if_pos visible]

set_option maxRecDepth 20000 in
theorem visible_isAscii (b : UInt8) (visible : ((32 ≤ b && b < 127) || b = 9) = true) :
    isAscii b = true := by
  revert b
  apply Hex.forall_byte
  decide

/-- What a header yields can be sliced anywhere. -/
theorem not_cuts_of_toStr {text : Bytes} (read : toStr value = some text) :
    text = value ∧ ¬CutsCharacter value := by
  unfold toStr at read
  split at read
  · rename_i visible
    cases read
    refine ⟨rfl, ?_⟩
    rintro ⟨long, cuts⟩
    have ascii_ : value.all isAscii = true := by
      rw [List.all_eq_true] at visible ⊢
      intro b mem
      exact visible_isAscii b (visible b mem)
    rw [Utf8.isCharBoundary_of_all ascii_ (by omega)] at cuts
    cases cuts
  · cases read

/-- A header field decides if what it makes of visible text does. -/
theorem ofHeader_decides {kinds : List SecretKind} {parse : Bytes → Option (Option SecretKind)}
    (decides : ¬CutsCharacter value → Decides (parse value) kinds value) :
    Decides (ofHeader value parse) kinds value := by
  unfold ofHeader
  cases read : toStr value with
  | none =>
      apply decides_refused
      intro kind _ formed
      rw [toStr_of_wellFormed formed] at read
      cases read
  | some text =>
      obtain ⟨rfl, cut⟩ := not_cuts_of_toStr read
      exact decides cut

/-! ## Fields -/

/-- A string with the prefix and the length of a kind and an impossible rest. -/
def Loose (kind : SecretKind) (value : Bytes) : Prop :=
  value.length = 47 ∧ secretPrefix kind <+: value ∧ (value.drop 4).all isBase64Url = false

/-- The strings a field does not decide. -/
def Exception : Field → Bytes → Prop
  | .subjectToken, value => CutsCharacter value
  | .introspectedToken, value => CutsCharacter value ∨ Loose .oauthRefreshToken value
  | .revokedToken, value => 32 ≤ value.length ∧ value.length ≤ 4096 ∧
      ∃ kind ∈ [SecretKind.applicationAccessToken, .oauthRefreshToken],
        secretPrefix kind <+: value ∧ ¬WellFormed kind value
  | .slt false, value => Loose .authorizationCode value
  | .oauthRefreshToken, value => Loose .oauthRefreshToken value
  | _, _ => False

theorem loose_iff {front : String} (same : ascii front = secretPrefix kind) :
    ((startsWith value front && decide (value.length = 47)) = true ↔ WellFormed kind value) ↔
      ¬Loose kind value := by
  rw [Bool.and_eq_true, startsWith_iff same, decide_eq_true_eq, wellFormed_iff, Loose,
    ← Bool.not_eq_true]
  tauto

theorem isOk_exchangeAuthorizationCode :
    (exchangeAuthorizationCode value).isOk =
      (startsWith value "oac_" && decide (value.length = 47)) := by
  unfold exchangeAuthorizationCode
  split
  · rename_i passes
    exact passes.symm
  · rename_i refused
    exact (Bool.not_eq_true _ ▸ refused).symm

theorem isOk_exchangeRefreshToken :
    (exchangeRefreshToken value).isOk =
      (startsWith value "ort_" && decide (value.length = 47)) := by
  unfold exchangeRefreshToken
  split
  · rename_i passes
    exact passes.symm
  · rename_i refused
    exact (Bool.not_eq_true _ ▸ refused).symm

theorem isOk_requireCredential {front : String} :
    (requireCredential value front).isOk = strippedValid value front := by
  unfold requireCredential
  cases strippedValid value front <;> rfl

/-- Behind the strict check of a prefix the loose one adds nothing. -/
theorem loose_of_strict {front : String} (same : ascii front = secretPrefix kind)
    (strict : strippedValid value front = true) :
    (startsWith value front && decide (value.length = 47)) = true := by
  have formed := wellFormed_iff.mp ((strippedValid_iff same).mp strict)
  rw [Bool.and_eq_true, startsWith_iff same, decide_eq_true_eq]
  exact ⟨formed.2.1, formed.1⟩

/-- Fields behind the strict check of their only prefix. -/
theorem strict_decides {front : String} {passes : Bool} (same : ascii front = secretPrefix kind)
    (loose : passes = (startsWith value front && decide (value.length = 47))) :
    Decides (if !strippedValid value front then some none else some (acceptIf passes kind)) [kind]
      value := by
  by_cases strict : strippedValid value front = true
  · rw [if_neg (by simp [strict]), decides_single, loose, loose_of_strict same strict]
    simpa using (strippedValid_iff same).mp strict
  · rw [if_pos (by simp [strict])]
    apply decides_refused
    intro other known formed
    rw [List.mem_singleton] at known
    subst known
    exact strict ((strippedValid_iff same).mpr formed)

theorem shortLived_decides (testing : Bool) :
    Decides (some (shortLived testing value)) [.authorizationCode] value ↔
      (testing = false → ¬Loose .authorizationCode value) := by
  have same : ascii "oac_" = secretPrefix .authorizationCode := rfl
  unfold shortLived
  cases testing with
  | false =>
      rw [Bool.false_and, if_neg Bool.false_ne_true, decides_single,
        isOk_exchangeAuthorizationCode, loose_iff same]
      simp
  | true =>
      have decides := @strict_decides value _ _ _ same isOk_exchangeAuthorizationCode
      by_cases strict : strippedValid value "oac_" = true
      · simpa [strict] using decides
      · simpa [strict] using decides

/-- An access token that has to be an application's. -/
theorem scoped_decides (decides : Decides (accessToken value) accessKinds value) :
    Decides (if !strippedValid value "oat_" then some none else accessToken value)
      [.applicationAccessToken] value := by
  have same : ascii "oat_" = secretPrefix .applicationAccessToken := rfl
  by_cases strict : strippedValid value "oat_" = true
  · have formed := (strippedValid_iff same).mp strict
    obtain ⟨verdict, parsed, exact_⟩ := decides
    have accepted : verdict = some .applicationAccessToken :=
      (exact_ .applicationAccessToken).mpr ⟨by decide, formed⟩
    rw [if_neg (by simp [strict]), parsed, accepted]
    exact decides_kind (List.mem_singleton.mpr rfl) formed
  · rw [if_pos (by simp [strict])]
    apply decides_refused
    intro other known formed
    rw [List.mem_singleton] at known
    subst known
    exact strict ((strippedValid_iff same).mpr formed)

/-- A kind accepted for its prefix is decided where the rest is right too. -/
theorem decides_accepted {kinds : List SecretKind} (known : kind ∈ kinds) :
    Decides (some (some kind)) kinds value ↔ WellFormed kind value := by
  constructor
  · rintro ⟨verdict, parsed, exact_⟩
    cases parsed
    exact ((exact_ kind).mp rfl).2
  · exact decides_kind known

/-- The token of an introspection: a refresh token by its prefix, else an access token. -/
theorem introspected_decides (text : List Char) :
    Decides (Field.introspectedToken.parse (Utf8.encode text)) Field.introspectedToken.kinds
        (Utf8.encode text) ↔
      ¬(CutsCharacter (Utf8.encode text) ∨ Loose .oauthRefreshToken (Utf8.encode text)) := by
  have same : ascii "ort_" = secretPrefix .oauthRefreshToken := rfl
  rw [Field.parse]
  by_cases refresh : startsWith (Utf8.encode text) "ort_" = true
  · have front := (startsWith_iff same).mp refresh
    have uncut : ¬CutsCharacter (Utf8.encode text) := by
      rintro ⟨-, cuts⟩
      have sliced := sliceFrom_of_prefix front
      rw [sliceFrom, cuts] at sliced
      cases sliced
    rw [if_pos refresh, or_iff_right uncut]
    by_cases long : (Utf8.encode text).length = 47
    · rw [acceptIf, if_pos (decide_eq_true long), decides_accepted (by decide),
        ← loose_iff same, refresh, Bool.true_and]
      simp [long]
    · rw [acceptIf, if_neg (by simp [long])]
      have tight : ¬Loose .oauthRefreshToken (Utf8.encode text) := fun loose => long loose.1
      simp only [tight, not_false_eq_true, iff_true]
      apply decides_refused
      intro kind _ formed
      exact long (wellFormed_iff.mp formed).1
  · have other : ¬Loose .oauthRefreshToken (Utf8.encode text) := by
      rintro ⟨-, front, -⟩
      exact refresh ((startsWith_iff same).mpr front)
    rw [if_neg refresh, or_iff_left other]
    constructor
    · rintro ⟨verdict, parsed, -⟩ cuts
      rw [accessToken_eq_none.mpr cuts] at parsed
      cases parsed
    · intro uncut
      obtain ⟨verdict, parsed, exact_⟩ := accessToken_decides uncut
      refine ⟨verdict, parsed, ?_⟩
      intro kind
      have both : Field.introspectedToken.kinds = accessKinds ++ [.oauthRefreshToken] := rfl
      rw [exact_, both, List.mem_append]
      constructor
      · rintro ⟨known, formed⟩
        exact ⟨.inl known, formed⟩
      · rintro ⟨known | known, formed⟩
        · exact ⟨known, formed⟩
        · rw [List.mem_singleton] at known
          subst known
          exact absurd ((startsWith_iff same).mpr formed.front) refresh

/-- The token of a revocation: the length and either prefix. -/
theorem revoked_decides :
    Decides (Field.revokedToken.parse value) Field.revokedToken.kinds value ↔
      ¬(32 ≤ value.length ∧ value.length ≤ 4096 ∧
        ∃ kind ∈ [SecretKind.applicationAccessToken, .oauthRefreshToken],
          secretPrefix kind <+: value ∧ ¬WellFormed kind value) := by
  have access : ascii "oat_" = secretPrefix .applicationAccessToken := rfl
  have refresh : ascii "ort_" = secretPrefix .oauthRefreshToken := rfl
  rw [Field.parse]
  by_cases out : value.length > 4096 ∨ value.length < 32
  · rw [if_pos (by simpa using out)]
    have none_ : Decides (some none) Field.revokedToken.kinds value := by
      apply decides_refused
      intro kind _ formed
      have long := (wellFormed_iff.mp formed).1
      omega
    simp only [none_, true_iff]
    rintro ⟨least, most, -⟩
    omega
  · have least : 32 ≤ value.length := by omega
    have most : value.length ≤ 4096 := by omega
    rw [if_neg (by simpa using out)]
    simp only [least, most, true_and, List.mem_cons, List.not_mem_nil, or_false, exists_eq_or_imp,
      exists_eq_left]
    by_cases oat : startsWith value "oat_" = true
    · have front := (startsWith_iff access).mp oat
      have other : ¬secretPrefix .oauthRefreshToken <+: value := by
        intro also
        cases prefix_unique front also
      rw [if_pos oat, decides_accepted (by decide)]
      simp [front, other]
    · have other : ¬secretPrefix .applicationAccessToken <+: value :=
        mt (startsWith_iff access).mpr oat
      rw [if_neg oat]
      by_cases ort : startsWith value "ort_" = true
      · have front := (startsWith_iff refresh).mp ort
        rw [acceptIf, if_pos ort, decides_accepted (by decide)]
        simp [front, other]
      · have neither : ¬secretPrefix .oauthRefreshToken <+: value :=
          mt (startsWith_iff refresh).mpr ort
        rw [acceptIf, if_neg ort]
        have none_ : Decides (some none) Field.revokedToken.kinds value := by
          apply decides_refused
          intro kind known formed
          simp only [Field.kinds, List.mem_cons, List.not_mem_nil, or_false] at known
          rcases known with rfl | rfl
          · exact other formed.front
          · exact neither formed.front
        simp [none_, other, neither]

/-- A field accepts in their format the kinds it is for, with an answer for every string,
exactly if the string is no exception of it. -/
theorem parse_decides (field : Field) (text : List Char) :
    Decides (field.parse (Utf8.encode text)) field.kinds (Utf8.encode text) ↔
      ¬Exception field (Utf8.encode text) := by
  cases field with
  | bearer =>
      simp only [Exception, not_false_eq_true, iff_true]
      apply ofHeader_decides
      intro cut
      split
      · rename_i blank
        apply decides_refused
        intro kind _ formed
        rw [Bool.or_eq_true, decide_eq_true_eq, List.any_eq_true] at blank
        rcases blank with none_ | ⟨b, mem, white⟩
        · rw [none_] at formed
          cases (wellFormed_iff.mp formed).1
        · rw [(isBase64Url_visible b (isBase64Url_of_mem formed mem)).2] at white
          cases white
      · exact accessToken_decides cut
  | applicationBearer =>
      simp only [Exception, not_false_eq_true, iff_true]
      apply ofHeader_decides
      intro cut
      split
      · rename_i odd
        apply decides_refused
        intro kind _ formed
        rw [Bool.or_eq_true, decide_eq_true_eq, List.any_eq_true] at odd
        rcases odd with short | ⟨b, mem, symbol⟩
        · exact short (wellFormed_iff.mp formed).1
        · rw [isBase64Url_of_mem formed mem] at symbol
          cases symbol
      · exact accessToken_decides cut
  | scopedBearer =>
      simp only [Exception, not_false_eq_true, iff_true]
      apply ofHeader_decides
      intro cut
      rw [isOk_requireCredential]
      exact scoped_decides (accessToken_decides cut)
  | actorToken =>
      simp only [Exception, not_false_eq_true, iff_true]
      exact ofHeader_decides accessToken_decides
  | subjectToken =>
      rw [Field.parse, Exception]
      by_cases long : (Utf8.encode text).length = 47
      · rw [long, if_neg (by decide)]
        constructor
        · rintro ⟨verdict, parsed, -⟩ cuts
          rw [accessToken_eq_none.mpr cuts] at parsed
          cases parsed
        · exact accessToken_decides
      · have uncut : ¬CutsCharacter (Utf8.encode text) := fun cuts => long cuts.1
        simp only [uncut, not_false_eq_true, iff_true]
        split
        · apply decides_refused
          intro kind _ formed
          exact long (wellFormed_iff.mp formed).1
        · exact accessToken_decides uncut
  | introspectedToken => exact introspected_decides text
  | revokedToken => exact revoked_decides
  | slt testing =>
      rw [Field.parse, Field.kinds, shortLived_decides]
      cases testing <;> simp [Exception]
  | scopedSlt testing =>
      have same : ascii "oac_" = secretPrefix .authorizationCode := rfl
      rw [Field.parse, isOk_requireCredential]
      cases testing with
      | false =>
          simp only [Exception, not_false_eq_true, iff_true, Bool.not_false, Bool.true_and,
            Bool.false_and, Bool.false_eq_true, if_false]
          exact strict_decides same isOk_exchangeAuthorizationCode
      | true =>
          simp only [Exception, not_false_eq_true, iff_true, Bool.not_true, Bool.false_and,
            Bool.true_and, Bool.false_eq_true, if_false]
          split
          · rename_i odd
            apply decides_refused
            intro kind _ formed
            have long := (wellFormed_iff.mp formed).1
            simp only [Bool.or_eq_true, decide_eq_true_eq] at odd
            rcases odd with none_ | most
            · rw [none_] at long
              cases long
            · omega
          · exact (shortLived_decides true).mpr (fun h => absurd h (by decide))
  | refreshToken =>
      have same : ascii "rft_" = secretPrefix .refreshToken := rfl
      simp only [Exception, not_false_eq_true, iff_true]
      rw [Field.parse, CredentialFormats.refreshToken, checked_eq same]
      apply decides_single.mpr
      rw [← strippedValid_iff same]
      cases strippedValid (Utf8.encode text) "rft_" <;> simp [Except.isOk, Except.toBool]
  | oauthRefreshToken =>
      rw [Field.parse, Field.kinds, decides_single, isOk_exchangeRefreshToken]
      exact loose_iff rfl
  | scopedRefreshToken =>
      simp only [Exception, not_false_eq_true, iff_true]
      rw [Field.parse, Field.kinds, isOk_requireCredential]
      exact strict_decides rfl isOk_exchangeRefreshToken
  | accessProof =>
      have same : ascii "obo_" = secretPrefix .oboProof := rfl
      simp only [Exception, not_false_eq_true, iff_true]
      rw [Field.parse, validateVerify, checked_eq same]
      apply decides_single.mpr
      rw [← strippedValid_iff same]
      cases strippedValid (Utf8.encode text) "obo_" <;> simp [Except.isOk, Except.toBool]
  | stepUpToken =>
      have same : ascii "sup_" = secretPrefix .stepUpAssertion := rfl
      simp only [Exception, not_false_eq_true, iff_true]
      apply ofHeader_decides
      intro _
      apply decides_single.mpr
      rw [← strippedValid_iff same, StepUpToken.parse]
      cases strippedValid (Utf8.encode text) "sup_" <;> simp [Except.isOk, Except.toBool]
  | appAccessKey =>
      have same : ascii "aak_" = secretPrefix .applicationAccessKey := rfl
      simp only [Exception, not_false_eq_true, iff_true]
      rw [Field.parse, keyFormatIsValid, checked_eq same]
      exact decides_single.mpr (strippedValid_iff same)

/-! ## One kind -/

theorem wellFormed_of_accessToken (accepted : accessToken value = some (some kind)) :
    WellFormed kind value := by
  by_cases cuts : CutsCharacter value
  · rw [accessToken_eq_none.mpr cuts] at accepted
    cases accepted
  · obtain ⟨verdict, parsed, exact_⟩ := accessToken_decides cuts
    cases parsed.symm.trans accepted
    exact ((exact_ kind).mp rfl).2

theorem acceptIf_eq_some {passes : Bool} {other : SecretKind} :
    acceptIf passes other = some kind ↔ passes = true ∧ other = kind := by
  cases passes <;> simp [acceptIf]

theorem ofHeader_eq_some {parse : Bytes → Option (Option SecretKind)}
    (accepted : ofHeader value parse = some (some kind)) : parse value = some (some kind) := by
  unfold ofHeader at accepted
  split at accepted
  · cases accepted
  · rename_i text read
    rw [(not_cuts_of_toStr read).1] at accepted
    exact accepted

theorem checked_eq_true {front : String} (passes : checked value front = some true) :
    startsWith value front = true := by
  unfold checked at passes
  split at passes
  · cases passes
  · split at passes
    · cases passes
    · rename_i starts
      simpa using starts

theorem shortLived_front {testing : Bool} (accepted : shortLived testing value = some kind) :
    secretPrefix kind <+: value := by
  unfold shortLived at accepted
  split at accepted
  · cases accepted
  · obtain ⟨passes, rfl⟩ := acceptIf_eq_some.mp accepted
    rw [isOk_exchangeAuthorizationCode, Bool.and_eq_true] at passes
    exact (@startsWith_iff _ .authorizationCode _ rfl).mp passes.1

theorem refreshed_front
    (accepted : acceptIf (exchangeRefreshToken value).isOk .oauthRefreshToken = some kind) :
    secretPrefix kind <+: value := by
  obtain ⟨passes, rfl⟩ := acceptIf_eq_some.mp accepted
  rw [isOk_exchangeRefreshToken, Bool.and_eq_true] at passes
  exact (@startsWith_iff _ .oauthRefreshToken _ rfl).mp passes.1

/-- What a field accepts has the prefix of the kind it is accepted as. -/
theorem accepted_front (field : Field) (accepted : field.parse value = some (some kind)) :
    secretPrefix kind <+: value := by
  cases field with
  | bearer =>
      have accepted := ofHeader_eq_some accepted
      split at accepted
      · cases accepted
      · exact (wellFormed_of_accessToken accepted).front
  | applicationBearer =>
      have accepted := ofHeader_eq_some accepted
      split at accepted
      · cases accepted
      · exact (wellFormed_of_accessToken accepted).front
  | scopedBearer =>
      have accepted := ofHeader_eq_some accepted
      split at accepted
      · cases accepted
      · exact (wellFormed_of_accessToken accepted).front
  | actorToken => exact (wellFormed_of_accessToken (ofHeader_eq_some accepted)).front
  | subjectToken =>
      rw [Field.parse] at accepted
      split at accepted
      · cases accepted
      · exact (wellFormed_of_accessToken accepted).front
  | introspectedToken =>
      rw [Field.parse] at accepted
      split at accepted
      · rename_i refresh
        obtain ⟨-, rfl⟩ := acceptIf_eq_some.mp (Option.some.inj accepted)
        exact (@startsWith_iff _ .oauthRefreshToken _ rfl).mp refresh
      · exact (wellFormed_of_accessToken accepted).front
  | revokedToken =>
      rw [Field.parse] at accepted
      split at accepted
      · cases accepted
      · split at accepted
        · rename_i access
          cases accepted
          exact (@startsWith_iff _ .applicationAccessToken _ rfl).mp access
        · obtain ⟨refresh, rfl⟩ := acceptIf_eq_some.mp (Option.some.inj accepted)
          exact (@startsWith_iff _ .oauthRefreshToken _ rfl).mp refresh
  | slt testing => exact shortLived_front (Option.some.inj accepted)
  | scopedSlt testing =>
      rw [Field.parse] at accepted
      split at accepted
      · cases accepted
      · split at accepted
        · cases accepted
        · exact shortLived_front (Option.some.inj accepted)
  | refreshToken =>
      obtain ⟨checked_, read, passes⟩ := Option.map_eq_some_iff.mp accepted
      obtain ⟨ok, rfl⟩ := acceptIf_eq_some.mp passes
      unfold CredentialFormats.refreshToken at read
      split at read
      · cases read
      · rename_i valid same
        cases read
        cases valid with
        | true => exact (@startsWith_iff _ .refreshToken _ rfl).mp (checked_eq_true same)
        | false => cases ok
  | oauthRefreshToken => exact refreshed_front (Option.some.inj accepted)
  | scopedRefreshToken =>
      rw [Field.parse] at accepted
      split at accepted
      · cases accepted
      · exact refreshed_front (Option.some.inj accepted)
  | accessProof =>
      obtain ⟨checked_, read, passes⟩ := Option.map_eq_some_iff.mp accepted
      obtain ⟨ok, rfl⟩ := acceptIf_eq_some.mp passes
      unfold validateVerify at read
      split at read
      · cases read
      · rename_i valid same
        cases read
        cases valid with
        | true => exact (@startsWith_iff _ .oboProof _ rfl).mp (checked_eq_true same)
        | false => cases ok
  | stepUpToken =>
      have accepted := ofHeader_eq_some accepted
      obtain ⟨ok, rfl⟩ := acceptIf_eq_some.mp (Option.some.inj accepted)
      unfold StepUpToken.parse at ok
      split at ok
      · cases ok
      · rename_i strict
        have formed := (@strippedValid_iff _ .stepUpAssertion _ rfl).mp (by simpa using strict)
        exact formed.front
  | appAccessKey =>
      obtain ⟨valid, read, passes⟩ := Option.map_eq_some_iff.mp accepted
      obtain ⟨rfl, rfl⟩ := acceptIf_eq_some.mp passes
      exact (@startsWith_iff _ .applicationAccessKey _ rfl).mp (checked_eq_true read)

/-- No string passes for two kinds, in whatever fields. -/
theorem parse_unique {one two : Field} {kind other : SecretKind}
    (first : one.parse value = some (some kind)) (second : two.parse value = some (some other)) :
    kind = other :=
  prefix_unique (accepted_front one first) (accepted_front two second)

/-- A string in a field has a verdict without a panic, is accepted exactly as the kinds of
the field whose format it has, and is taken for no other kind anywhere: exactly if it is no
exception of the field. -/
theorem formats_decided_iff (field : Field) (text : String) :
    (Decides (field.parse (Utf8.encode text.toList)) field.kinds (Utf8.encode text.toList) ∧
      ∀ (other : Field) (kind taken : SecretKind),
        field.parse (Utf8.encode text.toList) = some (some kind) →
        other.parse (Utf8.encode text.toList) = some (some taken) → kind = taken) ↔
      ¬Exception field (Utf8.encode text.toList) := by
  rw [parse_decides]
  constructor
  · exact And.left
  · intro regular
    refine ⟨regular, ?_⟩
    intro other kind taken first second
    exact parse_unique first second

/-- A subject token of 47 bytes whose fourth and fifth byte are one character. -/
def straddling : String := "abc" ++ "é" ++ String.ofList (List.replicate 42 'A')

/-- Its exchange has no verdict. -/
theorem straddling_panics :
    Field.subjectToken.parse (Utf8.encode straddling.toList) = none ∧
      ¬∃ verdict, Field.subjectToken.parse (Utf8.encode straddling.toList) = some verdict := by
  have panics : Field.subjectToken.parse (Utf8.encode straddling.toList) = none := by
    decide +kernel
  refine ⟨panics, ?_⟩
  rw [panics]
  simp

end SiliconIam.Auth.CredentialFormats
