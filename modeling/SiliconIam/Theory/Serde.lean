/-
# Theory.Serde -- two readings of one JSON document

A document as it is written, with the members of an object in order and repeated
names kept.  `Json.get` is the untyped reading: a name is looked up in an object, the
last of its members counts, and nothing else has members.  A `Reader` is the typed
one, built as derived deserializers are: a record is read from an object, where every
name must be a field and occur once, or from an array, where the elements are the
fields in their order.

On an object the two agree (`source_field_eq_get`).  On an array the untyped reading
sees no member at all (`get_of_not_object`).
-/
import Mathlib.Data.List.Basic
import Mathlib.Data.List.Nodup

namespace SiliconIam.Theory.Serde

set_option autoImplicit false

universe u

inductive Json where
  | null
  | bool (value : Bool)
  | number (text : String)
  | string (value : String)
  | array (items : List Json)
  | object (members : List (String × Json))

namespace Json

def isNull : Json → Bool
  | .null => true
  | _ => false

def isObject : Json → Bool
  | .object _ => true
  | _ => false

def asString : Json → Option String
  | .string value => some value
  | _ => none

def asArray : Json → Option (List Json)
  | .array items => some items
  | _ => none

/-- The names of an object. -/
def keys : Json → List String
  | .object members => members.map Prod.fst
  | _ => []

/-- The last member of the name. -/
def get (document : Json) (name : String) : Option Json :=
  match document with
  | .object members => (members.reverse.find? fun member => member.1 = name).map Prod.snd
  | _ => none

theorem get_of_not_object {document : Json} (other : document.isObject = false) (name : String) :
    document.get name = none := by
  cases document with
  | object members => cases other
  | _ => rfl

theorem keys_of_not_object {document : Json} (other : document.isObject = false) :
    document.keys = [] := by
  cases document with
  | object members => cases other
  | _ => rfl

theorem mem_keys_of_get {document value : Json} {name : String}
    (found : document.get name = some value) : name ∈ document.keys := by
  cases document with
  | object members =>
      obtain ⟨member, held, -⟩ := Option.map_eq_some_iff.mp found
      have same : member.1 = name := by simpa using List.find?_some held
      have mem : member ∈ members := List.mem_reverse.mp (List.mem_of_find?_eq_some held)
      exact same ▸ List.mem_map_of_mem mem
  | _ => cases found

end Json

/-! ## Readers -/

variable {α : Type u}

/-- A reader refuses a document or reads a value from it. -/
abbrev Reader (α : Type u) := Json → Option α

def readString : Reader String := Json.asString

def readOption (read : Reader α) : Reader (Option α)
  | .null => some none
  | document => (read document).map some

/-- A value that is there, be it null. -/
def readDoubleOption (read : Reader α) : Reader (Option (Option α)) := fun document =>
  (readOption read document).map some

def readVec (read : Reader α) : Reader (List α)
  | .array items => items.mapM read
  | _ => none

/-- A variant without data: its name, or an object with that one name and a null. -/
def readVariant (variants : List (String × α)) : Reader α
  | .string name => variants.lookup name
  | .object [(name, .null)] => variants.lookup name
  | _ => none

/-! ## Records -/

/-- What the fields of a record are taken from. -/
inductive Source where
  | elements (items : List Json)
  | members (named : List (String × Json))

/-- An array has no more elements than the record has fields, an object no name that is
not a field and none twice. -/
def source (fields : List String) : Json → Option Source
  | .array items => if items.length ≤ fields.length then some (.elements items) else none
  | .object members =>
      if (members.map Prod.fst).Nodup ∧ ∀ member ∈ members, member.1 ∈ fields then
        some (.members members)
      else none
  | _ => none

namespace Source

/-- The document of a field, by its place or by its name. -/
def field (source : Source) (index : Nat) (name : String) : Option Json :=
  match source with
  | .elements items => items[index]?
  | .members named => (named.find? fun member => member.1 = name).map Prod.snd

def required (source : Source) (index : Nat) (name : String) (read : Reader α) : Option α :=
  (source.field index name).bind read

def defaulted (source : Source) (index : Nat) (name : String) (read : Reader α) (absent : α) :
    Option α :=
  match source.field index name with
  | some document => read document
  | none => some absent

/-- An optional field may be left out of an object, but not of an array. -/
def optional (source : Source) (index : Nat) (name : String) (read : Reader α) :
    Option (Option α) :=
  match source.field index name, source with
  | some document, _ => readOption read document
  | none, .members _ => some none
  | none, .elements _ => none

end Source

/-! ## Agreement on objects -/

theorem find?_reverse_of_nodup {members : List (String × Json)} (name : String)
    (nodup : (members.map Prod.fst).Nodup) :
    members.reverse.find? (fun member => member.1 = name) =
      members.find? fun member => member.1 = name := by
  cases found : members.find? fun member => member.1 = name with
  | none =>
      rw [List.find?_eq_none] at found ⊢
      exact fun member mem => found member (List.mem_reverse.mp mem)
  | some member =>
      have same : member.1 = name := by simpa using List.find?_some found
      have held := List.mem_of_find?_eq_some found
      cases other : members.reverse.find? fun member => member.1 = name with
      | none =>
          rw [List.find?_eq_none] at other
          exact absurd same (by simpa using other member (List.mem_reverse.mpr held))
      | some last =>
          have lastSame : last.1 = name := by simpa using List.find?_some other
          have lastHeld := List.mem_reverse.mp (List.mem_of_find?_eq_some other)
          rw [List.inj_on_of_nodup_map nodup lastHeld held (lastSame.trans same.symm)]

/-- A record read from an object takes its fields from where the untyped reading
finds them. -/
theorem source_field_eq_get {fields : List String} {members : List (String × Json)} {from_ : Source}
    (read : source fields (.object members) = some from_) (index : Nat) (name : String) :
    from_.field index name = (Json.object members).get name := by
  simp only [source] at read
  split at read
  · rename_i strict
    obtain rfl := Option.some.inj read
    simp only [Source.field, Json.get, find?_reverse_of_nodup name strict.1]
  · simp at read

/-! ## What a field that was read says about its document -/

variable {from_ : Source} {index : Nat} {name : String} {read : Reader α}

theorem readOption_eq_some {document : Json} {value : α}
    (done : readOption read document = some (some value)) :
    document.isNull = false ∧ read document = some value := by
  cases document with
  | null => simp [readOption] at done
  | _ => simpa [readOption, Json.isNull] using done

theorem optional_eq_some {value : α} (done : from_.optional index name read = some (some value)) :
    ∃ document, from_.field index name = some document ∧ document.isNull = false ∧
      read document = some value := by
  unfold Source.optional at done
  split at done
  · rename_i document found
    exact ⟨document, found, readOption_eq_some done⟩
  · simp at done
  · simp at done

theorem doubleOption_eq_some {value : Option α}
    (done : from_.defaulted index name (readDoubleOption read) none = some (some value)) :
    ∃ document, from_.field index name = some document := by
  unfold Source.defaulted at done
  split at done
  · rename_i document found
    exact ⟨document, found⟩
  · simp at done

theorem vec_eq_some {values : List α}
    (done : from_.defaulted index name (readVec read) [] = some values) (filled : values ≠ []) :
    ∃ items, from_.field index name = some (.array items) ∧ items ≠ [] := by
  unfold Source.defaulted at done
  split at done
  · rename_i document found
    unfold readVec at done
    split at done
    · rename_i items
      refine ⟨items, found, fun empty => filled ?_⟩
      subst empty
      exact (Option.some.inj done).symm
    · simp at done
  · exact absurd (Option.some.inj done).symm filled

end SiliconIam.Theory.Serde
