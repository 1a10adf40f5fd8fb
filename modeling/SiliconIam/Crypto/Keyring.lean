/-
# Crypto.Keyring -- versioned key material

A keyring is a finite map from key versions to 32-byte keys with one version
selected for new values.  `Keyring.from_settings` refuses a ring whose current
version is absent, so a `Keyring` carries that fact (`present`), and the entries
are held in version order, the order in which retained versions are iterated.
-/
import SiliconIam.Theory.Hex

namespace SiliconIam.Crypto

open SiliconIam.Theory.Hex (Bytes)

set_option autoImplicit false

/-- A 256-bit key. -/
structure Key where
  bytes : Bytes
  length_eq : bytes.length = 32
deriving DecidableEq

inductive CryptoError where
  | invalidKey (name : String)
  | missingKeyVersion (version : Int16)
  | entropyUnavailable
  | digestInitialization
  | encryption
  | decryption
deriving DecidableEq

/-- The entry of one version. -/
def lookupKey (keys : List (Int16 × Key)) (version : Int16) : Option Key :=
  (keys.find? fun entry => entry.1 == version).map Prod.snd

structure Keyring where
  currentVersion : Int16
  keys : List (Int16 × Key)
  ordered : keys.Pairwise fun a b => a.1 < b.1
  present : (lookupKey keys currentVersion).isSome

namespace Keyring

def key (ring : Keyring) (version : Int16) : Except CryptoError Key :=
  match lookupKey ring.keys version with
  | some key => .ok key
  | none => .error (.missingKeyVersion version)

def current (ring : Keyring) : Except CryptoError (Int16 × Key) := do
  let key ← ring.key ring.currentVersion
  pure (ring.currentVersion, key)

/-- The versions the ring can still read. -/
def Retains (ring : Keyring) (version : Int16) (key : Key) : Prop :=
  ring.key version = .ok key

/-- A configured ring always has its current key. -/
theorem current_ok (ring : Keyring) :
    ∃ key, ring.current = .ok (ring.currentVersion, key) ∧
      ring.Retains ring.currentVersion key := by
  obtain ⟨found, look⟩ := Option.isSome_iff_exists.mp ring.present
  have read : ring.key ring.currentVersion = .ok found := by simp [key, look]
  exact ⟨found, by simp [current, read, bind, Except.bind, pure, Except.pure], read⟩

theorem mem_of_lookupKey {keys : List (Int16 × Key)} {version : Int16} {found : Key}
    (look : lookupKey keys version = some found) : (version, found) ∈ keys := by
  simp only [lookupKey, Option.map_eq_some_iff] at look
  obtain ⟨entry, find, rfl⟩ := look
  have := List.find?_some find
  simp only [beq_iff_eq] at this
  rw [← this]
  exact List.mem_of_find?_eq_some find

/-- A version has one entry, and the ring reads it. -/
theorem retains_of_mem {ring : Keyring} {version : Int16} {found : Key}
    (mem : (version, found) ∈ ring.keys) : ring.Retains version found := by
  have first : ∀ keys : List (Int16 × Key), keys.Pairwise (fun a b => a.1 < b.1) →
      (version, found) ∈ keys → lookupKey keys version = some found := by
    intro keys ordered
    induction ordered with
    | nil => exact fun mem => absurd mem List.not_mem_nil
    | @cons entry rest less _ ih =>
        intro mem
        rcases List.mem_cons.mp mem with rfl | later
        · simp [lookupKey]
        · have below : entry.1 ≠ version := fun same => by
            have := less _ later
            exact Int16.lt_irrefl (same ▸ this)
          simpa [lookupKey, below] using ih later
  simp [Retains, key, first ring.keys ring.ordered mem]

theorem mem_of_retains {ring : Keyring} {version : Int16} {found : Key}
    (retained : ring.Retains version found) : (version, found) ∈ ring.keys := by
  unfold Retains key at retained
  split at retained
  · rename_i look
    cases retained
    exact mem_of_lookupKey look
  · cases retained

def versions (ring : Keyring) : List Int16 := ring.keys.map Prod.fst

theorem mem_versions {ring : Keyring} {version : Int16} :
    version ∈ ring.versions ↔ ∃ found, ring.Retains version found := by
  constructor
  · intro mem
    obtain ⟨⟨_, found⟩, held, rfl⟩ := List.mem_map.mp mem
    exact ⟨found, retains_of_mem held⟩
  · rintro ⟨found, retained⟩
    exact List.mem_map.mpr ⟨_, mem_of_retains retained, rfl⟩

end Keyring

end SiliconIam.Crypto
