/-
# Webhook.PublicAddresses -- which addresses a delivery may go to

`isPublicDestination` is the classification of the delivery transport: ranges of IPv4 by
their octets, IPv6 only inside the global unicast allocation and outside a list of ranges
tested with masks, and an IPv4-mapped address by the IPv4 address it carries.

`ipv4Registry` and `ipv6Registry` are the IANA special-purpose registries, with the column
that says whether a range is globally reachable.  A public address is in no range of them
but four, all of them globally reachable (`isPublicIpv4_iff`, `isPublicIpv6_iff`), and
carries no IPv4 address in any form but the mapped one (`not_embedded`).
-/
import SiliconIam.Theory.Blocks

namespace SiliconIam.Webhook.PublicAddresses

open SiliconIam.Theory.Blocks

set_option autoImplicit false

/-! ## Addresses -/

/-- `Ipv4Addr`, by its octets. -/
structure Ipv4Addr where
  first : UInt8
  second : UInt8
  third : UInt8
  fourth : UInt8
  deriving DecidableEq, Repr

/-- `Ipv6Addr`, by its segments. -/
structure Ipv6Addr where
  s0 : UInt16
  s1 : UInt16
  s2 : UInt16
  s3 : UInt16
  s4 : UInt16
  s5 : UInt16
  s6 : UInt16
  s7 : UInt16
  deriving DecidableEq, Repr

inductive IpAddr where
  | v4 (address : Ipv4Addr)
  | v6 (address : Ipv6Addr)
  deriving DecidableEq, Repr

namespace Ipv4Addr

def groups (address : Ipv4Addr) : List Nat :=
  [address.first.toNat, address.second.toNat, address.third.toNat, address.fourth.toNat]

/-- The address is in the block. -/
def inside (address : Ipv4Addr) (block : Block) : Bool := block.contains 8 address.groups

end Ipv4Addr

namespace Ipv6Addr

def groups (address : Ipv6Addr) : List Nat :=
  [address.s0.toNat, address.s1.toNat, address.s2.toNat, address.s3.toNat,
    address.s4.toNat, address.s5.toNat, address.s6.toNat, address.s7.toNat]

/-- The address is in the block. -/
def inside (address : Ipv6Addr) (block : Block) : Bool := block.contains 16 address.groups

/-- `to_ipv4_mapped`: the address carried by `::ffff:a.b.c.d`. -/
def toIpv4Mapped (address : Ipv6Addr) : Option Ipv4Addr :=
  if address.s0 = 0 && address.s1 = 0 && address.s2 = 0 && address.s3 = 0 && address.s4 = 0 &&
      address.s5 = 0xffff then
    some
      { first := (address.s6 / 256).toUInt8, second := address.s6.toUInt8
        third := (address.s7 / 256).toUInt8, fourth := address.s7.toUInt8 }
  else none

end Ipv6Addr

/-! ## The classification -/

def isPublicIpv4 (address : Ipv4Addr) : Bool :=
  let first := address.first
  let second := address.second
  let third := address.third
  !((first = 0 || first = 10 || first = 127 || 224 ≤ first)
    || (first = 100 && (64 ≤ second && second ≤ 127))
    || (first = 169 && second = 254)
    || (first = 172 && (16 ≤ second && second ≤ 31))
    || (first = 192 && second = 0 && (third = 0 || third = 2))
    || (first = 192 && second = 88 && third = 99)
    || (first = 192 && second = 168)
    || (first = 198 && (second = 18 || second = 19))
    || (first = 198 && second = 51 && third = 100)
    || (first = 203 && second = 0 && third = 113))

/-- IPv6 is allowed within the global unicast allocation only, less the ranges listed. -/
def isPublicIpv6 (address : Ipv6Addr) : Bool :=
  let globalUnicast := address.s0 &&& 0xe000 = 0x2000
  let ipv4Compatible := address.s0 = 0 && address.s1 = 0 && address.s2 = 0 && address.s3 = 0 &&
    address.s4 = 0 && address.s5 = 0
  let wellKnownNat64 := address.s0 = 0x0064 && address.s1 = 0xff9b && address.s2 = 0 &&
    address.s3 = 0 && address.s4 = 0 && address.s5 = 0
  let localNat64 := address.s0 = 0x0064 && address.s1 = 0xff9b && address.s2 = 0x0001
  let discardOnly := address.s0 = 0x0100 && address.s1 = 0 && address.s2 = 0 && address.s3 = 0
  let ietfProtocolAssignment := address.s0 = 0x2001 && address.s1 &&& 0xfe00 = 0
  let documentation := address.s0 = 0x2001 && address.s1 = 0x0db8
  let extendedDocumentation := address.s0 = 0x3fff && address.s1 ≤ 0x0fff
  let uniqueLocal := address.s0 &&& 0xfe00 = 0xfc00
  let linkLocal := address.s0 &&& 0xffc0 = 0xfe80
  let deprecatedSiteLocal := address.s0 &&& 0xffc0 = 0xfec0
  let multicast := address.s0 &&& 0xff00 = 0xff00
  globalUnicast &&
    !(ipv4Compatible || wellKnownNat64 || localNat64 || discardOnly || ietfProtocolAssignment ||
      documentation || extendedDocumentation || address.s0 = 0x2002 || address.s0 = 0x5f00 ||
      uniqueLocal || linkLocal || deprecatedSiteLocal || multicast)

def isPublicDestination : IpAddr → Bool
  | .v4 address => isPublicIpv4 address
  | .v6 address =>
      match address.toIpv4Mapped with
      | none => isPublicIpv6 address
      | some carried => isPublicIpv4 carried

/-! ## The registries -/

/-- A row of a special-purpose address registry. -/
structure SpecialPurpose where
  block : Block
  globallyReachable : Bool
  deriving DecidableEq, Repr

def ipv4 (a b c d : Nat) (length : Nat) : Block := { base := [a, b, c, d], length := length }

/-- A block that is given by its leading segments. -/
def ipv6 (leading : List Nat) (length : Nat) : Block :=
  { base := leading ++ List.replicate (8 - leading.length) 0, length := length }

/-- The special-purpose ranges of IPv4. -/
def ipv4Registry : List SpecialPurpose :=
  [⟨ipv4 0 0 0 0 8, false⟩,
   ⟨ipv4 0 0 0 0 32, false⟩,
   ⟨ipv4 10 0 0 0 8, false⟩,
   ⟨ipv4 100 64 0 0 10, false⟩,
   ⟨ipv4 127 0 0 0 8, false⟩,
   ⟨ipv4 169 254 0 0 16, false⟩,
   ⟨ipv4 172 16 0 0 12, false⟩,
   ⟨ipv4 192 0 0 0 24, false⟩,
   ⟨ipv4 192 0 0 0 29, false⟩,
   ⟨ipv4 192 0 0 8 32, false⟩,
   ⟨ipv4 192 0 0 9 32, true⟩,
   ⟨ipv4 192 0 0 10 32, true⟩,
   ⟨ipv4 192 0 0 170 32, false⟩,
   ⟨ipv4 192 0 0 171 32, false⟩,
   ⟨ipv4 192 0 2 0 24, false⟩,
   ⟨ipv4 192 31 196 0 24, true⟩,
   ⟨ipv4 192 52 193 0 24, true⟩,
   ⟨ipv4 192 88 99 0 24, false⟩,
   ⟨ipv4 192 88 99 2 32, false⟩,
   ⟨ipv4 192 168 0 0 16, false⟩,
   ⟨ipv4 192 175 48 0 24, true⟩,
   ⟨ipv4 198 18 0 0 15, false⟩,
   ⟨ipv4 198 51 100 0 24, false⟩,
   ⟨ipv4 203 0 113 0 24, false⟩,
   ⟨ipv4 240 0 0 0 4, false⟩,
   ⟨ipv4 255 255 255 255 32, false⟩]

/-- The special-purpose ranges of IPv6. -/
def ipv6Registry : List SpecialPurpose :=
  [⟨ipv6 [0, 0, 0, 0, 0, 0, 0, 1] 128, false⟩,
   ⟨ipv6 [] 128, false⟩,
   ⟨ipv6 [0, 0, 0, 0, 0, 0xffff] 96, false⟩,
   ⟨ipv6 [0x64, 0xff9b] 96, true⟩,
   ⟨ipv6 [0x64, 0xff9b, 1] 48, false⟩,
   ⟨ipv6 [0x100] 64, false⟩,
   ⟨ipv6 [0x100, 0, 0, 1] 64, false⟩,
   ⟨ipv6 [0x2001] 23, false⟩,
   ⟨ipv6 [0x2001] 32, false⟩,
   ⟨ipv6 [0x2001, 1, 0, 0, 0, 0, 0, 1] 128, true⟩,
   ⟨ipv6 [0x2001, 1, 0, 0, 0, 0, 0, 2] 128, true⟩,
   ⟨ipv6 [0x2001, 1, 0, 0, 0, 0, 0, 3] 128, true⟩,
   ⟨ipv6 [0x2001, 2] 48, false⟩,
   ⟨ipv6 [0x2001, 3] 32, true⟩,
   ⟨ipv6 [0x2001, 4, 0x112] 48, true⟩,
   ⟨ipv6 [0x2001, 0x10] 28, false⟩,
   ⟨ipv6 [0x2001, 0x20] 28, true⟩,
   ⟨ipv6 [0x2001, 0x30] 28, true⟩,
   ⟨ipv6 [0x2001, 0xdb8] 32, false⟩,
   ⟨ipv6 [0x2002] 16, false⟩,
   ⟨ipv6 [0x2620, 0x4f, 0x8000] 48, true⟩,
   ⟨ipv6 [0x3fff] 20, false⟩,
   ⟨ipv6 [0x5f00] 16, false⟩,
   ⟨ipv6 [0xfc00] 7, false⟩,
   ⟨ipv6 [0xfe80] 10, false⟩]

/-- The rows that count as public: what answers for private reverse names, and multicast
tunnels. -/
def admitted4 : List SpecialPurpose :=
  [⟨ipv4 192 31 196 0 24, true⟩, ⟨ipv4 192 52 193 0 24, true⟩, ⟨ipv4 192 175 48 0 24, true⟩]

def admitted6 : List SpecialPurpose := [⟨ipv6 [0x2620, 0x4f, 0x8000] 48, true⟩]

/-- The forms in which an IPv6 address carries an IPv4 address, the mapped one apart:
compatible, NAT64 with the well-known and the local prefix, 6to4 and Teredo. -/
def embeddings : List Block :=
  [ipv6 [] 96, ipv6 [0x64, 0xff9b] 96, ipv6 [0x64, 0xff9b, 1] 48, ipv6 [0x2002] 16,
   ipv6 [0x2001, 0] 32]

/-! ## IPv4 -/

/-- The classification by the numbers of the octets. -/
def publicOctets (first second third : Nat) : Bool :=
  !((first = 0 || first = 10 || first = 127 || 224 ≤ first)
    || (first = 100 && (64 ≤ second && second ≤ 127))
    || (first = 169 && second = 254)
    || (first = 172 && (16 ≤ second && second ≤ 31))
    || (first = 192 && second = 0 && (third = 0 || third = 2))
    || (first = 192 && second = 88 && third = 99)
    || (first = 192 && second = 168)
    || (first = 198 && (second = 18 || second = 19))
    || (first = 198 && second = 51 && third = 100)
    || (first = 203 && second = 0 && third = 113))

theorem isPublicIpv4_eq (address : Ipv4Addr) :
    isPublicIpv4 address =
      publicOctets address.first.toNat address.second.toNat address.third.toNat := by
  simp only [isPublicIpv4, publicOctets, UInt8.le_iff_toNat_le, ← UInt8.toNat_inj,
    UInt8.reduceToNat]

/-- A public address is in no special-purpose range but three. -/
theorem isPublicIpv4_outside {address : Ipv4Addr} (isPublic : isPublicIpv4 address = true) :
    ∀ row ∈ ipv4Registry, address.inside row.block = true → row ∈ admitted4 := by
  rw [isPublicIpv4_eq] at isPublic
  unfold Ipv4Addr.inside Block.contains Ipv4Addr.groups
  generalize address.first.toNat = first at *
  simp [ipv4Registry, ipv4, covers, admitted4, Nat.shiftRight_eq_div_pow]
  repeat' apply And.intro
  all_goals
    repeat intro
    subst_vars
    simp [publicOctets] at isPublic
  all_goals omega

/-! ## IPv6 -/

theorem and_unicast (s : UInt16) : s &&& 0xe000 = 0x2000 ↔ s.toNat / 8192 = 1 := by
  have mask : s.toNat &&& 57344 = (s.toNat >>> 13) <<< 13 :=
    and_mask (show s.toNat < 2 ^ (3 + 13) from s.toNat_lt)
  rw [← UInt16.toNat_inj, UInt16.toNat_and]
  simp only [UInt16.reduceToNat, mask, Nat.shiftLeft_eq, Nat.shiftRight_eq_div_pow]
  omega

theorem and_assignment (s : UInt16) : s &&& 0xfe00 = 0 ↔ s.toNat / 512 = 0 := by
  have mask : s.toNat &&& 65024 = (s.toNat >>> 9) <<< 9 :=
    and_mask (show s.toNat < 2 ^ (7 + 9) from s.toNat_lt)
  rw [← UInt16.toNat_inj, UInt16.toNat_and]
  simp only [UInt16.reduceToNat, mask, Nat.shiftLeft_eq, Nat.shiftRight_eq_div_pow]
  omega

/-- The leading segments of a public address, as numbers: it is global unicast and not one
of the ranges listed there. -/
theorem isPublicIpv6_segments {address : Ipv6Addr} (isPublic : isPublicIpv6 address = true) :
    address.s0.toNat / 8192 = 1 ∧
      (address.s0.toNat = 0x2001 → address.s1.toNat / 512 ≠ 0 ∧ address.s1.toNat ≠ 0xdb8) ∧
      address.s0.toNat ≠ 0x2002 ∧ (address.s0.toNat = 0x3fff → 0xfff < address.s1.toNat) := by
  simp only [isPublicIpv6, Bool.and_eq_true, Bool.not_eq_true', Bool.or_eq_false_iff,
    decide_eq_true_eq, decide_eq_false_iff_not, Bool.and_eq_false_imp, and_unicast,
    and_assignment] at isPublic
  obtain ⟨unicast, ⟨⟨⟨⟨⟨⟨⟨⟨-, assignment⟩, documentation⟩, extended⟩, sixToFour⟩, -⟩, -⟩, -⟩, -⟩, -⟩ :=
    isPublic
  simp only [← UInt16.toNat_inj, UInt16.le_iff_toNat_le, UInt16.reduceToNat] at *
  refine ⟨unicast, ?_, sixToFour, ?_⟩
  · intro same
    exact ⟨assignment same, documentation same⟩
  · intro same
    exact Nat.lt_of_not_le (extended same)

/-- A public address is in no special-purpose range but one. -/
theorem isPublicIpv6_outside {address : Ipv6Addr} (isPublic : isPublicIpv6 address = true) :
    ∀ row ∈ ipv6Registry, address.inside row.block = true → row ∈ admitted6 := by
  obtain ⟨unicast, protocol, sixToFour, documentation⟩ := isPublicIpv6_segments isPublic
  unfold Ipv6Addr.inside Block.contains Ipv6Addr.groups
  simp [ipv6Registry, ipv6, covers, admitted6, Nat.shiftRight_eq_div_pow, List.replicate]
  repeat' apply And.intro
  all_goals
    repeat intro
    omega

/-- It carries no IPv4 address. -/
theorem not_embedded {address : Ipv6Addr} (isPublic : isPublicIpv6 address = true) :
    ∀ block ∈ embeddings, address.inside block = false := by
  obtain ⟨unicast, protocol, sixToFour, -⟩ := isPublicIpv6_segments isPublic
  unfold Ipv6Addr.inside Block.contains Ipv6Addr.groups
  simp [embeddings, ipv6, covers, List.replicate]
  repeat' apply And.intro
  all_goals
    repeat intro
    omega

/-! ## Destinations -/

/-- An IPv4-mapped address stands for the IPv4 address it carries. -/
def unmapped : IpAddr → IpAddr
  | .v4 address => .v4 address
  | .v6 address =>
      match address.toIpv4Mapped with
      | none => .v6 address
      | some carried => .v4 carried

/-- The address a connection goes to is in no special-purpose range but the four that are
globally reachable, and carries no IPv4 address in another form than the mapped one. -/
def Public (ip : IpAddr) : Prop :=
  match unmapped ip with
  | .v4 address => ∀ row ∈ ipv4Registry, address.inside row.block = true →
      row.globallyReachable = true ∧ row ∈ admitted4
  | .v6 address =>
      (∀ row ∈ ipv6Registry, address.inside row.block = true →
        row.globallyReachable = true ∧ row ∈ admitted6) ∧
      ∀ block ∈ embeddings, address.inside block = false

theorem public_of_isPublicDestination {ip : IpAddr} (isPublic : isPublicDestination ip = true) :
    Public ip := by
  have reachable4 : ∀ row ∈ admitted4, row.globallyReachable = true := by decide
  have reachable6 : ∀ row ∈ admitted6, row.globallyReachable = true := by decide
  have ipv4 : ∀ {address : Ipv4Addr}, isPublicIpv4 address = true → ∀ row ∈ ipv4Registry,
      address.inside row.block = true → row.globallyReachable = true ∧ row ∈ admitted4 := by
    intro address isPublic row mem inside
    have kept := isPublicIpv4_outside isPublic row mem inside
    exact ⟨reachable4 row kept, kept⟩
  cases ip with
  | v4 address => exact ipv4 isPublic
  | v6 address =>
      rw [isPublicDestination] at isPublic
      cases mapped : address.toIpv4Mapped with
      | none =>
          rw [mapped] at isPublic
          simp only [Public, unmapped, mapped]
          refine ⟨?_, not_embedded isPublic⟩
          intro row mem inside
          have kept := isPublicIpv6_outside isPublic row mem inside
          exact ⟨reachable6 row kept, kept⟩
      | some carried =>
          rw [mapped] at isPublic
          simp only [Public, unmapped, mapped]
          exact ipv4 isPublic

end SiliconIam.Webhook.PublicAddresses
