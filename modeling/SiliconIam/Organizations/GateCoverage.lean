/-
# Organizations.GateCoverage -- when the gate asks for what the handler writes

On an object both readings of a body take a field from the same member, so the gate asks
for the action of every field group the handler writes; the one exception is a
description of blanks, which the gate trims and the handler stores.  On an array the
gate asks for nothing, while the request type reads the elements as its fields in their
order.

`gate_covers_iff` is the exact condition, `array_patch_skips_gate` a body that gets past
the gate.
-/
import Mathlib.Data.List.TakeWhile
import SiliconIam.Organizations.ActionGate

namespace SiliconIam.Organizations

open SiliconIam.Domain
open SiliconIam.Theory.Hex (Bytes ascii)
open SiliconIam.Theory.Serde

set_option autoImplicit false

/-! ## Paths -/

theorem mem_percentDecode {segment : Bytes} {c : UInt8} (mem : c ∈ segment) (mark : c ≠ 37)
    (digit : Theory.Hex.value c = none) : c ∈ percentDecode segment := by
  induction segment using percentDecode.induct with
  | case1 => exact mem
  | case2 high low rest h l lowRead highRead ih =>
      simp only [percentDecode, highRead, lowRead]
      rcases List.mem_cons.mp mem with rfl | mem
      · exact absurd rfl mark
      rcases List.mem_cons.mp mem with rfl | mem
      · rw [digit] at highRead
        cases highRead
      rcases List.mem_cons.mp mem with rfl | mem
      · rw [digit] at lowRead
        cases lowRead
      exact List.mem_cons_of_mem _ (ih mem)
  | case3 high low rest unread ih =>
      rw [percentDecode]
      rcases List.mem_cons.mp mem with rfl | mem
      · exact absurd rfl mark
      split
      · rename_i h l highRead lowRead
        exact (unread h l highRead lowRead).elim
      · exact List.mem_cons_of_mem _ (ih mem)
  | case4 d rest other ih =>
      rw [percentDecode]
      · rcases List.mem_cons.mp mem with rfl | mem
        · exact List.mem_cons_self
        · exact List.mem_cons_of_mem _ (ih mem)
      · exact other

/-- The two decodings of a segment agree where neither an ampersand nor a plus sign
stands. -/
theorem formValue_eq {segment : Bytes} (ampersand : (38 : UInt8) ∉ segment)
    (plus : (43 : UInt8) ∉ segment) : formValue segment = percentDecode segment := by
  unfold formValue
  have whole : segment.takeWhile (· ≠ 38) = segment := by
    rw [List.takeWhile_eq_self_iff]
    intro c mem
    have other : c ≠ 38 := fun same => ampersand (same ▸ mem)
    simpa using other
  have same : (segment.map fun c => if c = 43 then 32 else c) = segment := by
    rw [List.map_congr_left (g := id), List.map_id]
    intro c mem
    have other : c ≠ 43 := fun same => plus (same ▸ mem)
    exact if_neg other
  rw [whole, same]

theorem siliconFound_symbol {id : Bytes} (found : siliconFound id = true) {c : UInt8}
    (mem : c ∈ id) : c ≠ 38 ∧ c ≠ 43 := by
  simp only [siliconFound, Bool.and_eq_true] at found
  obtain ⟨marked, valid⟩ := found
  obtain ⟨rest, rfl⟩ := List.isPrefixOf_iff_prefix.mp marked
  rcases List.mem_append.mp mem with mark | tail
  · have spelled : siliconMark = [115, 105, 58] := by decide
    rw [spelled] at mark
    simp only [List.mem_cons, List.not_mem_nil, or_false] at mark
    rcases mark with rfl | rfl | rfl <;> decide
  · have symbol := validPart_mem valid (show c ∈ (siliconMark ++ rest).drop 3 from tail)
    constructor <;> rintro rfl <;> revert symbol <;> decide

/-- For a Silicon that is found, the gate and the router decode the same name. -/
theorem formValue_of_found {path : Bytes} (found : siliconFound (siliconOf path) = true) :
    formValue (lastSegment path) = siliconOf path := by
  refine formValue_eq ?_ ?_
  · intro mem
    exact (siliconFound_symbol found (mem_percentDecode mem (by decide) (by decide))).1 rfl
  · intro mem
    exact (siliconFound_symbol found (mem_percentDecode mem (by decide) (by decide))).2 rfl

section Coverage

variable {crate : UuidCrate} {call : Call} {groups : List FieldGroup}

/-! ## Arrays -/

/-- Of a body that is no object the gate sees no member. -/
theorem asked_of_not_object (other : call.body.isObject = false) : call.asked = [] := by
  have none_ (name : String) : call.body.get name = none := Json.get_of_not_object other name
  have initial : initialAssignmentActions call.body = [] := by
    simp [initialAssignmentActions, none_, nonemptyArray, given, Action.when]
  have member : memberPatchActions call.body = [] := by
    simp [memberPatchActions, present, none_, Action.when]
  unfold Call.asked captureRequest
  cases call.handler with
  | updateMemberDirectory kind => simp [Handler.method, Handler.route, actions, member, sorted]
  | createSilicon => simp [Handler.method, Handler.route, actions, initial, sorted]
  | updateSilicon =>
      simp [Handler.method, Handler.route, actions, siliconPatchActions, present, none_,
        Json.keys_of_not_object other, Action.when, sorted]
  | createInvitation => simp [Handler.method, Handler.route, actions, initial, sorted]

/-! ## Objects -/

variable {document : Json}

theorem Json.isObject_eq (isObject : document.isObject = true) :
    ∃ members, document = .object members := by
  cases document with
  | object members => exact ⟨members, rfl⟩
  | _ => cases isObject

section Fields

variable {α : Type} {read : Reader α} {names : List String} {members : List (String × Json)}
  {from_ : Source} {index : Nat} {name : String}

theorem present_of_double {value : Option (Option α)}
    (fields : source names (.object members) = some from_)
    (done : from_.defaulted index name (readDoubleOption read) none = some value)
    (filled : value.isSome = true) : present (.object members) name = true := by
  obtain ⟨inner, rfl⟩ := Option.isSome_iff_exists.mp filled
  obtain ⟨document, held⟩ := doubleOption_eq_some done
  have found := (source_field_eq_get fields index name).symm.trans held
  simp [present, found]

theorem given_of_optional {value : Option α}
    (fields : source names (.object members) = some from_)
    (done : from_.optional index name read = some value) (filled : value.isSome = true) :
    given (.object members) name = true := by
  obtain ⟨inner, rfl⟩ := Option.isSome_iff_exists.mp filled
  obtain ⟨document, held, notNull, -⟩ := optional_eq_some done
  have found := (source_field_eq_get fields index name).symm.trans held
  simp [given, found, notNull]

theorem given_of_required {value : α} (fields : source names (.object members) = some from_)
    (done : from_.required index name read = some value) (refusesNull : read .null = none) :
    given (.object members) name = true := by
  obtain ⟨document, held, taken⟩ := Option.bind_eq_some_iff.mp done
  have found := (source_field_eq_get fields index name).symm.trans held
  cases document with
  | null =>
      rw [refusesNull] at taken
      cases taken
  | _ => simp [given, found, Json.isNull]

theorem present_of_given (filled : given document name = true) :
    present document name = true := by
  cases found : document.get name with
  | none => simp [given, found] at filled
  | some value => simp [present, found]

theorem nonemptyArray_of_vec {values : List α}
    (fields : source names (.object members) = some from_)
    (done : from_.defaulted index name (readVec read) [] = some values)
    (filled : values.isEmpty = false) : nonemptyArray (.object members) name = true := by
  obtain ⟨items, held, some_⟩ := vec_eq_some done (by simpa using filled)
  have found := (source_field_eq_get fields index name).symm.trans held
  cases items with
  | nil => exact absurd rfl some_
  | cons => simp [nonemptyArray, found, Json.asArray]

theorem get_of_string {value : String} (fields : source names (.object members) = some from_)
    (done : from_.required index name readString = some value) :
    (Json.object members).get name = some (.string value) := by
  obtain ⟨document, held, text⟩ := Option.bind_eq_some_iff.mp done
  have found := (source_field_eq_get fields index name).symm.trans held
  cases document with
  | string text_ =>
      obtain rfl := Option.some.inj text
      exact found
  | _ => cases text

end Fields

/-- A description is asked for when it is not blank, and blank ones are told apart. -/
theorem described {text : String}
    (found : document.get "job_description" = some (.string text)) (filled : text ≠ "")
    (clear : blankDescription document = false) :
    .membershipJobDescriptionUpdate ∈ initialAssignmentActions document := by
  have notBlank : blank text = false := by simpa [blankDescription, found, Json.asString, filled] using clear
  simp [initialAssignmentActions, found, Json.asString, notBlank]

theorem memberPatch_covered {kind : MemberKind} {patch : MembershipDirectoryPatch}
    (isObject : document.isObject = true)
    (read : readMembershipDirectoryPatch crate document = some patch) {group : FieldGroup}
    (written : group ∈ patch.writes kind) :
    (group = .siliconAccess ∧ .membershipDirectoryUpdate ∈ memberPatchActions document) ∨
      (group = .defaultTrust ∧ .trustDefaultUpdate ∈ memberPatchActions document) ∨
      (group = .profile ∧ .siliconProfileUpdate ∈ memberPatchActions document) ∨
      (group = .reportingLine ∧ .siliconHierarchyUpdate ∈ memberPatchActions document) := by
  obtain ⟨members, rfl⟩ := Json.isObject_eq isObject
  simp only [readMembershipDirectoryPatch, Option.bind_eq_bind, Option.bind_eq_some_iff] at read
  obtain ⟨from_, fields, tagIds, -, first, firstRead, extra, extraRead, trust, trustRead, reports,
    reportsRead, photo, photoRead, same⟩ := read
  obtain rfl := Option.some.inj same
  unfold MembershipDirectoryPatch.writes at written
  split at written
  · simp at written
  · cases kind with
    | carbon =>
        simp only at written
        split at written
        · simp at written
        · simp only [List.mem_append, FieldGroup.mem_when, Bool.or_eq_true] at written
          rcases written with ⟨filled, rfl⟩ | ⟨filled, rfl⟩
          · have asked := filled.imp (present_of_double fields firstRead)
              fun filled => present_of_given (given_of_optional fields extraRead filled)
            exact .inl ⟨rfl, by simp [memberPatchActions, asked]⟩
          · have asked := present_of_given (given_of_optional fields trustRead filled)
            exact .inr (.inl ⟨rfl, by simp [memberPatchActions, asked]⟩)
    | silicon =>
        simp only at written
        split at written
        · simp at written
        · simp only [List.mem_append, FieldGroup.mem_when] at written
          rcases written with ⟨filled, rfl⟩ | ⟨filled, rfl⟩
          · have asked := present_of_double fields photoRead filled
            exact .inr (.inr (.inl ⟨rfl, by simp [memberPatchActions, asked]⟩))
          · have asked := present_of_double fields reportsRead filled
            exact .inr (.inr (.inr ⟨rfl, by simp [memberPatchActions, asked]⟩))

theorem siliconCreate_covered {input : SiliconCreate}
    (isObject : document.isObject = true) (clear : blankDescription document = false)
    (read : readSiliconCreate crate document = some input) {group : FieldGroup}
    (written : group ∈ input.writes) :
    call.governing group ∈ initialAssignmentActions document := by
  obtain ⟨members, rfl⟩ := Json.isObject_eq isObject
  simp only [readSiliconCreate, Option.bind_eq_bind, Option.bind_eq_some_iff] at read
  obtain ⟨from_, fields, siliconId, -, displayName, -, timezone, -, photo, -, jobRole, jobRead,
    reports, reportsRead, tagIds, tagsRead, same⟩ := read
  obtain rfl := Option.some.inj same
  unfold SiliconCreate.writes at written
  split at written
  · simp only [List.mem_append, FieldGroup.mem_when, decide_eq_true_eq, Bool.not_eq_true'] at written
    rcases written with (⟨filled, rfl⟩ | ⟨filled, rfl⟩) | ⟨filled, rfl⟩
    · exact described (get_of_string fields jobRead) filled clear
    · have asked := nonemptyArray_of_vec fields tagsRead filled
      simp [initialAssignmentActions, Call.governing, asked]
    · have asked := given_of_optional fields reportsRead filled
      simp [initialAssignmentActions, Call.governing, asked]
  · simp at written

theorem carbonInviteCreate_covered {input : CarbonInviteCreate}
    (isObject : document.isObject = true) (clear : blankDescription document = false)
    (read : readCarbonInviteCreate crate document = some input) {group : FieldGroup}
    (written : group ∈ input.writes) :
    call.governing group ∈ initialAssignmentActions document := by
  obtain ⟨members, rfl⟩ := Json.isObject_eq isObject
  simp only [readCarbonInviteCreate, Option.bind_eq_bind, Option.bind_eq_some_iff] at read
  obtain ⟨from_, fields, carbonId, -, email, -, jobRole, jobRead, tagIds, tagsRead, first, firstRead,
    extra, extraRead, trust, trustRead, tagOverrides, tagOverridesRead, siliconOverrides,
    siliconOverridesRead, redirect, -, same⟩ := read
  obtain rfl := Option.some.inj same
  unfold CarbonInviteCreate.writes at written
  split at written
  · simp only [List.mem_append, FieldGroup.mem_when, decide_eq_true_eq, Bool.not_eq_true',
      Bool.or_eq_true, List.mem_singleton] at written
    rcases written with (((⟨filled, rfl⟩ | ⟨filled, rfl⟩) | ⟨filled, rfl⟩) | rfl) | ⟨filled, rfl⟩
    · exact described (get_of_string fields jobRead) filled clear
    · have asked := nonemptyArray_of_vec fields tagsRead filled
      simp [initialAssignmentActions, Call.governing, asked]
    · have asked := filled.imp (given_of_optional fields firstRead)
        (nonemptyArray_of_vec fields extraRead)
      simp [initialAssignmentActions, Call.governing, asked]
    · have asked := given_of_required fields trustRead (by rfl)
      simp [initialAssignmentActions, Call.governing, asked]
    · have asked := filled.imp (nonemptyArray_of_vec fields tagOverridesRead)
        (nonemptyArray_of_vec fields siliconOverridesRead)
      simp [initialAssignmentActions, Call.governing, asked]
  · simp at written

/-- A member under another name than the reporting line's is a profile change. -/
theorem profile_asked {name : String} (held : present document name = true)
    (other : name ≠ "reports_to_membership_id") :
    (document.keys.any fun key => key ≠ "reports_to_membership_id") = true := by
  obtain ⟨value, found⟩ := Option.isSome_iff_exists.mp held
  exact List.any_eq_true.mpr ⟨name, Json.mem_keys_of_get found, by simpa using other⟩

theorem siliconPatch_covered {patch : SiliconPatch} (handler : call.handler = .updateSilicon)
    (isObject : call.body.isObject = true) (found : siliconFound (siliconOf call.path) = true)
    (read : readSiliconPatch crate call.body = some patch) {group : FieldGroup}
    (written : group ∈ patch.writes) {method : Method} {route : Route} :
    call.governing group ∈ siliconPatchActions
      { method := method, route := route, path := call.path, body := call.body } call.actorId := by
  obtain ⟨members, same⟩ := Json.isObject_eq isObject
  rw [same] at read ⊢
  simp only [readSiliconPatch, Option.bind_eq_bind, Option.bind_eq_some_iff] at read
  obtain ⟨from_, fields, displayName, displayRead, timezone, timezoneRead, photo, photoRead, reports,
    reportsRead, tagIds, -, same⟩ := read
  obtain rfl := Option.some.inj same
  unfold SiliconPatch.writes at written
  split at written
  · simp at written
  · simp only [List.mem_append, FieldGroup.mem_when, Bool.or_eq_true] at written
    rcases written with ⟨filled, rfl⟩ | ⟨filled, rfl⟩
    · have asked : ((Json.object members).keys.any fun key => key ≠ "reports_to_membership_id") =
          true := by
        rcases filled with (shown | zone) | pictured
        · exact profile_asked (present_of_given (given_of_optional fields displayRead shown))
            (by decide)
        · exact profile_asked (present_of_given (given_of_optional fields timezoneRead zone))
            (by decide)
        · exact profile_asked (present_of_double fields photoRead pictured) (by decide)
      have decoded := formValue_of_found found
      refine List.mem_append_right _ (Action.mem_when.mpr ⟨asked, ?_⟩)
      simp only [Call.governing, Call.editsOwnProfile, handler, decoded, decide_true, Bool.true_and,
        decide_eq_true_eq]
      by_cases own : call.actorId = siliconOf call.path
      · rw [if_pos own, if_pos own.symm]
      · rw [if_neg own, if_neg (Ne.symm own)]
    · have asked := present_of_double fields reportsRead filled
      simp [siliconPatchActions, Call.governing, asked]

/-- Where both readings agree, everything written is asked for. -/
theorem covered_of_readAlike (alike : call.readAlike = true) : call.Covered crate := by
  intro groups written group mem
  simp only [Call.readAlike, Bool.and_eq_true] at alike
  obtain ⟨isObject, clear⟩ := alike
  unfold Call.written at written
  unfold Call.asked captureRequest
  cases handler : call.handler with
  | updateMemberDirectory kind =>
      simp only [handler, Handler.method, Handler.route] at written ⊢
      obtain ⟨patch, read, rfl⟩ := Option.map_eq_some_iff.mp written
      rw [actions, mem_sorted]
      rcases memberPatch_covered isObject read mem with ⟨rfl, asked⟩ | ⟨rfl, asked⟩ |
        ⟨rfl, asked⟩ | ⟨rfl, asked⟩
      · exact asked
      · exact asked
      · simpa [Call.governing, Call.editsOwnProfile, handler] using asked
      · exact asked
  | createSilicon =>
      simp only [handler, Handler.method, Handler.route, Bool.not_eq_true'] at written clear ⊢
      obtain ⟨input, read, rfl⟩ := Option.map_eq_some_iff.mp written
      rw [actions, mem_sorted]
      exact siliconCreate_covered isObject clear read mem
  | updateSilicon =>
      simp only [handler, Handler.method, Handler.route] at written ⊢
      obtain ⟨patch, read, rfl⟩ := Option.map_eq_some_iff.mp written
      rw [actions, mem_sorted]
      split at mem
      · rename_i found
        exact siliconPatch_covered handler isObject found read mem
      · simp at mem
  | createInvitation =>
      simp only [handler, Handler.method, Handler.route, Bool.not_eq_true'] at written clear ⊢
      obtain ⟨input, read, rfl⟩ := Option.map_eq_some_iff.mp written
      rw [actions, mem_sorted]
      exact carbonInviteCreate_covered isObject clear read mem

/-! ## The exact condition -/

/-- A blank description is stored, and no action is asked for it. -/
theorem blank_not_asked (blank_ : blankDescription document = true) :
    .membershipJobDescriptionUpdate ∉ initialAssignmentActions document := by
  intro asked
  simp only [initialAssignmentActions, List.mem_append, Action.mem_when, reduceCtorEq, and_false,
    or_false, and_true] at asked
  cases text : (document.get "job_description").bind Json.asString with
  | none => simp [text] at asked
  | some value =>
      simp only [blankDescription, text, Option.any_some, Bool.and_eq_true] at blank_
      simp [text, blank_.2] at asked

theorem blank_written (blank_ : blankDescription document = true) {text : String}
    (found : document.get "job_description" = some (.string text)) : text ≠ "" := by
  simp only [blankDescription, found, Option.bind_some, Json.asString, Option.any_some,
    Bool.and_eq_true, decide_eq_true_eq] at blank_
  exact blank_.1

theorem siliconCreate_blank {input : SiliconCreate}
    (isObject : document.isObject = true) (blank_ : blankDescription document = true)
    (read : readSiliconCreate crate document = some input) (some_ : input.writes ≠ []) :
    .jobDescription ∈ input.writes := by
  obtain ⟨members, rfl⟩ := Json.isObject_eq isObject
  simp only [readSiliconCreate, Option.bind_eq_bind, Option.bind_eq_some_iff] at read
  obtain ⟨from_, fields, _, -, _, -, _, -, _, -, jobRole, jobRead, _, -, _, -, same⟩ := read
  obtain rfl := Option.some.inj same
  have filled := blank_written blank_ (get_of_string fields jobRead)
  unfold SiliconCreate.writes at some_ ⊢
  split at some_
  · rename_i accepted
    rw [if_pos accepted]
    simp [filled]
  · exact absurd rfl some_

theorem carbonInviteCreate_blank {input : CarbonInviteCreate}
    (isObject : document.isObject = true) (blank_ : blankDescription document = true)
    (read : readCarbonInviteCreate crate document = some input) (some_ : input.writes ≠ []) :
    .jobDescription ∈ input.writes := by
  obtain ⟨members, rfl⟩ := Json.isObject_eq isObject
  simp only [readCarbonInviteCreate, Option.bind_eq_bind, Option.bind_eq_some_iff] at read
  obtain ⟨from_, fields, _, -, _, -, jobRole, jobRead, _, -, _, -, _, -, _, -, _, -, _, -, _, -,
    same⟩ := read
  obtain rfl := Option.some.inj same
  have filled := blank_written blank_ (get_of_string fields jobRead)
  unfold CarbonInviteCreate.writes at some_ ⊢
  split at some_
  · rename_i accepted
    rw [if_pos accepted]
    simp [filled]
  · exact absurd rfl some_

theorem readAlike_of_covered (covered : call.Covered crate)
    (written : call.written crate = some groups) (some_ : groups ≠ []) : call.readAlike = true := by
  have isObject : call.body.isObject = true := by
    by_contra other
    obtain ⟨group, mem⟩ := List.exists_mem_of_ne_nil groups some_
    have asked := covered groups written group mem
    rw [asked_of_not_object (by simpa using other)] at asked
    cases asked
  unfold Call.readAlike
  rw [isObject, Bool.true_and]
  unfold Call.written at written
  have initial (mem : .jobDescription ∈ groups) (own : call.handler = .createSilicon ∨
      call.handler = .createInvitation) :
      .membershipJobDescriptionUpdate ∈ initialAssignmentActions call.body := by
    have asked := covered groups written _ mem
    unfold Call.asked captureRequest at asked
    rcases own with handler | handler <;>
      simpa [handler, Handler.method, Handler.route, actions, Call.governing] using asked
  cases handler : call.handler with
  | updateMemberDirectory kind => rfl
  | updateSilicon => rfl
  | createSilicon =>
      simp only [handler, Bool.not_eq_true'] at written ⊢
      obtain ⟨input, read, rfl⟩ := Option.map_eq_some_iff.mp written
      by_contra blank_
      rw [Bool.not_eq_false] at blank_
      exact blank_not_asked blank_
        (initial (siliconCreate_blank isObject blank_ read some_) (.inl handler))
  | createInvitation =>
      simp only [handler, Bool.not_eq_true'] at written ⊢
      obtain ⟨input, read, rfl⟩ := Option.map_eq_some_iff.mp written
      by_contra blank_
      rw [Bool.not_eq_false] at blank_
      exact blank_not_asked blank_
        (initial (carbonInviteCreate_blank isObject blank_ read some_) (.inr handler))

end Coverage

/-- The gate asks for what a handler writes exactly when the handler writes no gated
field, or both read the body alike. -/
theorem gate_covers_iff (crate : UuidCrate) (call : Call) :
    call.Covered crate ↔
      ∀ groups, call.written crate = some groups → groups = [] ∨ call.readAlike = true := by
  constructor
  · intro covered groups written
    exact or_iff_not_imp_left.mpr (readAlike_of_covered covered written)
  · intro alike groups written group mem
    rcases alike groups written with rfl | alike
    · cases mem
    · exact covered_of_readAlike alike groups written group mem

/-- A member patch as an array: null for the tags, the first Silicon, the further ones,
and the trust. -/
def arrayPatch : Call where
  handler := .updateMemberDirectory .carbon
  path := ascii "/api/v1/organizations/acme/members/m"
  actorId := ascii "c:ada"
  body :=
    .array
      [.null, .null, .null,
        .object [("boundary", .string "internal"), ("level", .string "trusted")]]

/-- It is read as a patch of the default trust and the Silicon access, and nothing is
asked for. -/
theorem array_patch_skips_gate : ¬ ∀ (crate : UuidCrate) (call : Call), call.Covered crate := by
  intro claimed
  have written : arrayPatch.written Uuid.reference = some [.siliconAccess, .defaultTrust] := by
    decide +kernel
  have asked : arrayPatch.asked = [] := asked_of_not_object rfl
  have needed := claimed Uuid.reference arrayPatch _ written .defaultTrust (by simp)
  rw [asked] at needed
  cases needed

end SiliconIam.Organizations
