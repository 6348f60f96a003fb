import Mathlib.Data.Fin.Basic
import Authzoo.Lib.Cidr
import Authzoo.Oauth.Url

/-!
# Authzoo.Oauth.Address

`public_ip` of `client_metadata.rs`, with the address predicates of the standard library, and the
address blocks it stands for.

The code tests octets and segments; `publicIp_v4_iff` and `publicIp_v6_iff` say which blocks these
tests cut out, exactly. `publicIp_outside` is the guard against the special-purpose blocks, some of
which are narrower than what the code rejects.
-/

namespace Authzoo.Oauth

inductive IpAddr where
  | v4 (ip : Ipv4Addr)
  | v6 (ip : Ipv6Addr)
  deriving DecidableEq

structure SocketAddr where
  ip : IpAddr
  port : UInt16
  deriving DecidableEq

/-! ## The code's tests -/

namespace Ipv4Addr

variable (ip : Ipv4Addr)

def isPrivate : Bool :=
  ip.a = 10 || (ip.a = 172 && 16 ≤ ip.b && ip.b ≤ 31) || (ip.a = 192 && ip.b = 168)

def isLinkLocal : Bool := ip.a = 169 && ip.b = 254

def isMulticast : Bool := 224 ≤ ip.a && ip.a ≤ 239

def isBroadcast : Bool := ip = ⟨255, 255, 255, 255⟩

def isDocumentation : Bool :=
  (ip.a = 192 && ip.b = 0 && ip.c = 2) || (ip.a = 198 && ip.b = 51 && ip.c = 100) ||
    (ip.a = 203 && ip.b = 0 && ip.c = 113)

def isUnspecified : Bool := ip = ⟨0, 0, 0, 0⟩

end Ipv4Addr

def publicIp : IpAddr → Bool
  | .v4 ip =>
    !ip.isPrivate && !ip.isLoopback && !ip.isLinkLocal && !ip.isMulticast && !ip.isBroadcast &&
      !ip.isDocumentation && !ip.isUnspecified && ip.a ≠ 0 && ip.a < 224 &&
      !(ip.a = 100 && 64 ≤ ip.b && ip.b ≤ 127) && !(ip.a = 198 && (ip.b = 18 || ip.b = 19)) &&
      !(ip.a = 192 && ip.b = 0)
  | .v6 ip =>
    ip.s0 &&& 0xe000 = 0x2000 && !(ip.s0 = 0x2001 && (ip.s1 < 0x200 || ip.s1 = 0xdb8)) &&
      ip.s0 ≠ 0x2002 && !(ip.s0 = 0x3fff && ip.s1 < 0x1000)

/-! ## Blocks -/

namespace Ipv4Addr

def toNat (ip : Ipv4Addr) : Nat :=
  ip.a.toNat * 2 ^ 24 + (ip.b.toNat * 2 ^ 16 + (ip.c.toNat * 2 ^ 8 + ip.d.toNat))

theorem toNat_lt (ip : Ipv4Addr) : ip.toNat < 2 ^ 32 := by
  have ha := ip.a.toNat_lt
  have hb := ip.b.toNat_lt
  have hc := ip.c.toNat_lt
  have hd := ip.d.toNat_lt
  unfold toNat
  omega

def block (ip : Ipv4Addr) (len : Fin 33) : Cidr.Block 32 :=
  ⟨ip.toNat, len, ip.toNat_lt, by omega⟩

section

variable {ip base : Ipv4Addr} {len : Fin 33}

theorem low_lt (ip : Ipv4Addr) :
    ip.b.toNat * 2 ^ 16 + (ip.c.toNat * 2 ^ 8 + ip.d.toNat) < 2 ^ 24 ∧
      ip.c.toNat * 2 ^ 8 + ip.d.toNat < 2 ^ 16 ∧ ip.d.toNat < 2 ^ 8 := by
  have hb := ip.b.toNat_lt
  have hc := ip.c.toNat_lt
  have hd := ip.d.toNat_lt
  omega

theorem block_first (hlen : len.val ≤ 8) : (base.block len).Contains ip.toNat ↔
    Cidr.Agree (8 - len.val) ip.a.toNat base.a.toNat := by
  have hagree := Cidr.agree_high (j := 32 - len.val) (x := ip.a.toNat) (u := base.a.toNat)
    (by omega) ip.low_lt.1 base.low_lt.1
  rwa [show 32 - len.val - 24 = 8 - len.val by omega] at hagree

theorem block_second (hlen : 8 ≤ len.val) (hlen' : len.val ≤ 16) :
    (base.block len).Contains ip.toNat ↔ ip.a.toNat = base.a.toNat ∧
      Cidr.Agree (16 - len.val) ip.b.toNat base.b.toNat := by
  have hagree := Cidr.agree_low (j := 32 - len.val) (x := ip.a.toNat) (u := base.a.toNat)
    (by omega) ip.low_lt.1 base.low_lt.1
  rwa [Cidr.agree_high (by omega) ip.low_lt.2.1 base.low_lt.2.1,
    show 32 - len.val - 16 = 16 - len.val by omega] at hagree

theorem block_third (hlen : 16 ≤ len.val) (hlen' : len.val ≤ 24) :
    (base.block len).Contains ip.toNat ↔ ip.a.toNat = base.a.toNat ∧ ip.b.toNat = base.b.toNat ∧
      Cidr.Agree (24 - len.val) ip.c.toNat base.c.toNat := by
  have hagree := Cidr.agree_low (j := 32 - len.val) (x := ip.a.toNat) (u := base.a.toNat)
    (by omega) ip.low_lt.1 base.low_lt.1
  rwa [Cidr.agree_low (by omega) ip.low_lt.2.1 base.low_lt.2.1,
    Cidr.agree_high (by omega) ip.low_lt.2.2 base.low_lt.2.2,
    show 32 - len.val - 8 = 24 - len.val by omega] at hagree

end

end Ipv4Addr

namespace Ipv6Addr

/-- The segments that no block of the code's tests ends in. -/
def low (ip : Ipv6Addr) : Nat :=
  ip.s2.toNat * 2 ^ 80 + (ip.s3.toNat * 2 ^ 64 + (ip.s4.toNat * 2 ^ 48 + (ip.s5.toNat * 2 ^ 32 +
    (ip.s6.toNat * 2 ^ 16 + ip.s7.toNat))))

def toNat (ip : Ipv6Addr) : Nat := ip.s0.toNat * 2 ^ 112 + (ip.s1.toNat * 2 ^ 96 + ip.low)

theorem low_lt (ip : Ipv6Addr) :
    ip.s1.toNat * 2 ^ 96 + ip.low < 2 ^ 112 ∧ ip.low < 2 ^ 96 := by
  have h1 := ip.s1.toNat_lt
  have h2 := ip.s2.toNat_lt
  have h3 := ip.s3.toNat_lt
  have h4 := ip.s4.toNat_lt
  have h5 := ip.s5.toNat_lt
  have h6 := ip.s6.toNat_lt
  have h7 := ip.s7.toNat_lt
  unfold low
  omega

theorem toNat_lt (ip : Ipv6Addr) : ip.toNat < 2 ^ 128 := by
  calc ip.toNat < ip.s0.toNat * 2 ^ 112 + 2 ^ 112 := Nat.add_lt_add_left ip.low_lt.1 _
    _ = (ip.s0.toNat + 1) * 2 ^ 112 := (Nat.succ_mul _ _).symm
    _ ≤ 2 ^ 16 * 2 ^ 112 := Nat.mul_le_mul_right _ ip.s0.toNat_lt
    _ = 2 ^ 128 := by rw [← pow_add]

def block (ip : Ipv6Addr) (len : Fin 129) : Cidr.Block 128 :=
  ⟨ip.toNat, len, ip.toNat_lt, by omega⟩

variable {ip base : Ipv6Addr} {len : Fin 129}

theorem block_first (hlen : len.val ≤ 16) : (base.block len).Contains ip.toNat ↔
    Cidr.Agree (16 - len.val) ip.s0.toNat base.s0.toNat := by
  have hagree := Cidr.agree_high (j := 128 - len.val) (x := ip.s0.toNat) (u := base.s0.toNat)
    (by omega) ip.low_lt.1 base.low_lt.1
  rwa [show 128 - len.val - 112 = 16 - len.val by omega] at hagree

theorem block_second (hlen : 16 ≤ len.val) (hlen' : len.val ≤ 32) :
    (base.block len).Contains ip.toNat ↔ ip.s0.toNat = base.s0.toNat ∧
      Cidr.Agree (32 - len.val) ip.s1.toNat base.s1.toNat := by
  have hagree := Cidr.agree_low (j := 128 - len.val) (x := ip.s0.toNat) (u := base.s0.toNat)
    (by omega) ip.low_lt.1 base.low_lt.1
  rwa [Cidr.agree_high (by omega) ip.low_lt.2 base.low_lt.2,
    show 128 - len.val - 96 = 32 - len.val by omega] at hagree

end Ipv6Addr

/-- The special-purpose IPv4 blocks: this host, private, shared, loopback, link-local, protocol
assignments, documentation, benchmarking, multicast and reserved addresses. -/
def specialV4 : List (Cidr.Block 32) :=
  [Ipv4Addr.block ⟨0, 0, 0, 0⟩ 8, Ipv4Addr.block ⟨10, 0, 0, 0⟩ 8,
    Ipv4Addr.block ⟨100, 64, 0, 0⟩ 10, Ipv4Addr.block ⟨127, 0, 0, 0⟩ 8,
    Ipv4Addr.block ⟨169, 254, 0, 0⟩ 16, Ipv4Addr.block ⟨172, 16, 0, 0⟩ 12,
    Ipv4Addr.block ⟨192, 0, 0, 0⟩ 24, Ipv4Addr.block ⟨192, 0, 2, 0⟩ 24,
    Ipv4Addr.block ⟨192, 168, 0, 0⟩ 16, Ipv4Addr.block ⟨198, 18, 0, 0⟩ 15,
    Ipv4Addr.block ⟨198, 51, 100, 0⟩ 24, Ipv4Addr.block ⟨203, 0, 113, 0⟩ 24,
    Ipv4Addr.block ⟨224, 0, 0, 0⟩ 4, Ipv4Addr.block ⟨240, 0, 0, 0⟩ 4]

/-- What the code rejects: it takes all of `192.0/16`. -/
def rejectedV4 : List (Cidr.Block 32) :=
  [Ipv4Addr.block ⟨0, 0, 0, 0⟩ 8, Ipv4Addr.block ⟨10, 0, 0, 0⟩ 8,
    Ipv4Addr.block ⟨100, 64, 0, 0⟩ 10, Ipv4Addr.block ⟨127, 0, 0, 0⟩ 8,
    Ipv4Addr.block ⟨169, 254, 0, 0⟩ 16, Ipv4Addr.block ⟨172, 16, 0, 0⟩ 12,
    Ipv4Addr.block ⟨192, 0, 0, 0⟩ 16, Ipv4Addr.block ⟨192, 168, 0, 0⟩ 16,
    Ipv4Addr.block ⟨198, 18, 0, 0⟩ 15, Ipv4Addr.block ⟨198, 51, 100, 0⟩ 24,
    Ipv4Addr.block ⟨203, 0, 113, 0⟩ 24, Ipv4Addr.block ⟨224, 0, 0, 0⟩ 4,
    Ipv4Addr.block ⟨240, 0, 0, 0⟩ 4]

/-- `2000::/3`. -/
def globalUnicastV6 : Cidr.Block 128 := Ipv6Addr.block ⟨0x2000, 0, 0, 0, 0, 0, 0, 0⟩ 3

/-- Protocol assignments, documentation and 6to4 addresses inside `2000::/3`. -/
def specialV6 : List (Cidr.Block 128) :=
  [Ipv6Addr.block ⟨0x2001, 0, 0, 0, 0, 0, 0, 0⟩ 23,
    Ipv6Addr.block ⟨0x2001, 0xdb8, 0, 0, 0, 0, 0, 0⟩ 32,
    Ipv6Addr.block ⟨0x2002, 0, 0, 0, 0, 0, 0, 0⟩ 16,
    Ipv6Addr.block ⟨0x3fff, 0, 0, 0, 0, 0, 0, 0⟩ 20]

/-! ## The tests cut out blocks -/

section

variable (ip : Ipv4Addr)

theorem isPrivate_iff : ip.isPrivate = true ↔
    (Ipv4Addr.block ⟨10, 0, 0, 0⟩ 8).Contains ip.toNat ∨
    (Ipv4Addr.block ⟨172, 16, 0, 0⟩ 12).Contains ip.toNat ∨
    (Ipv4Addr.block ⟨192, 168, 0, 0⟩ 16).Contains ip.toNat := by
  simp (disch := decide) only [Ipv4Addr.block_first, Ipv4Addr.block_second]
  simp [Ipv4Addr.isPrivate, Cidr.Agree, ← UInt8.toNat_inj, UInt8.le_iff_toNat_le]
  omega

theorem isLoopback_iff : ip.isLoopback = true ↔
    (Ipv4Addr.block ⟨127, 0, 0, 0⟩ 8).Contains ip.toNat := by
  simp (disch := decide) only [Ipv4Addr.block_first]
  simp [Ipv4Addr.isLoopback, Cidr.Agree, ← UInt8.toNat_inj]

theorem isLinkLocal_iff : ip.isLinkLocal = true ↔
    (Ipv4Addr.block ⟨169, 254, 0, 0⟩ 16).Contains ip.toNat := by
  simp (disch := decide) only [Ipv4Addr.block_second]
  simp [Ipv4Addr.isLinkLocal, Cidr.Agree, ← UInt8.toNat_inj]

theorem isMulticast_iff : ip.isMulticast = true ↔
    (Ipv4Addr.block ⟨224, 0, 0, 0⟩ 4).Contains ip.toNat := by
  simp (disch := decide) only [Ipv4Addr.block_first]
  simp [Ipv4Addr.isMulticast, Cidr.Agree, UInt8.le_iff_toNat_le]
  omega

theorem isDocumentation_iff : ip.isDocumentation = true ↔
    (Ipv4Addr.block ⟨192, 0, 2, 0⟩ 24).Contains ip.toNat ∨
    (Ipv4Addr.block ⟨198, 51, 100, 0⟩ 24).Contains ip.toNat ∨
    (Ipv4Addr.block ⟨203, 0, 113, 0⟩ 24).Contains ip.toNat := by
  simp (disch := decide) only [Ipv4Addr.block_third]
  simp [Ipv4Addr.isDocumentation, Cidr.Agree, ← UInt8.toNat_inj]
  omega

/-- The comparisons of the first octet reject three blocks. -/
theorem firstOctet_iff : ip.a = 0 ∨ 224 ≤ ip.a ↔
    (Ipv4Addr.block ⟨0, 0, 0, 0⟩ 8).Contains ip.toNat ∨
    (Ipv4Addr.block ⟨224, 0, 0, 0⟩ 4).Contains ip.toNat ∨
    (Ipv4Addr.block ⟨240, 0, 0, 0⟩ 4).Contains ip.toNat := by
  have ha := ip.a.toNat_lt
  simp (disch := decide) only [Ipv4Addr.block_first]
  simp [Cidr.Agree, ← UInt8.toNat_inj, UInt8.le_iff_toNat_le]
  omega

theorem isBroadcast_first (h : ip.isBroadcast = true) : 224 ≤ ip.a := by
  simp only [Ipv4Addr.isBroadcast, decide_eq_true_eq] at h
  subst h
  decide

theorem isUnspecified_first (h : ip.isUnspecified = true) : ip.a = 0 := by
  simp only [Ipv4Addr.isUnspecified, decide_eq_true_eq] at h
  subst h
  rfl

theorem shared_iff : ip.a = 100 ∧ 64 ≤ ip.b ∧ ip.b ≤ 127 ↔
    (Ipv4Addr.block ⟨100, 64, 0, 0⟩ 10).Contains ip.toNat := by
  simp (disch := decide) only [Ipv4Addr.block_second]
  simp [Cidr.Agree, ← UInt8.toNat_inj, UInt8.le_iff_toNat_le]
  omega

theorem benchmarking_iff : ip.a = 198 ∧ (ip.b = 18 ∨ ip.b = 19) ↔
    (Ipv4Addr.block ⟨198, 18, 0, 0⟩ 15).Contains ip.toNat := by
  simp (disch := decide) only [Ipv4Addr.block_second]
  simp [Cidr.Agree, ← UInt8.toNat_inj]
  omega

theorem assignments_iff : ip.a = 192 ∧ ip.b = 0 ↔
    (Ipv4Addr.block ⟨192, 0, 0, 0⟩ 16).Contains ip.toNat := by
  simp (disch := decide) only [Ipv4Addr.block_second]
  simp [Cidr.Agree, ← UInt8.toNat_inj]

/-- The documentation block that the test for `192.0` takes anyway. -/
theorem documentation_assignments (h : (Ipv4Addr.block ⟨192, 0, 2, 0⟩ 24).Contains ip.toNat) :
    (Ipv4Addr.block ⟨192, 0, 0, 0⟩ 16).Contains ip.toNat :=
  Cidr.Block.mono (by decide) (by decide) h

theorem publicIp_v4_iff :
    publicIp (.v4 ip) = true ↔ ∀ block ∈ rejectedV4, ¬ block.Contains ip.toNat := by
  have hpublic : publicIp (.v4 ip) = true ↔ ¬ (ip.isPrivate = true ∨ ip.isLoopback = true ∨
      ip.isLinkLocal = true ∨ ip.isMulticast = true ∨ ip.isDocumentation = true ∨
      (ip.a = 0 ∨ 224 ≤ ip.a) ∨ (ip.a = 100 ∧ 64 ≤ ip.b ∧ ip.b ≤ 127) ∨
      (ip.a = 198 ∧ (ip.b = 18 ∨ ip.b = 19)) ∨ (ip.a = 192 ∧ ip.b = 0)) := by
    have hbroadcast := isBroadcast_first ip
    have hunspecified := isUnspecified_first ip
    simp [publicIp]
    grind
  rw [hpublic, isPrivate_iff, isLoopback_iff, isLinkLocal_iff, isMulticast_iff, isDocumentation_iff,
    firstOctet_iff, shared_iff, benchmarking_iff, assignments_iff]
  have hdoc := documentation_assignments ip
  simp only [rejectedV4, List.forall_mem_cons, List.not_mem_nil]
  grind

end

theorem publicIp_v6_iff (ip : Ipv6Addr) :
    publicIp (.v6 ip) = true ↔ globalUnicastV6.Contains ip.toNat ∧
      ∀ block ∈ specialV6, ¬ block.Contains ip.toNat := by
  have hmask : ip.s0.toNat &&& 57344 = ip.s0.toNat / 8192 * 8192 :=
    Cidr.and_netmask (w := 16) (j := 13) (by decide) ip.s0.toNat_lt
  simp (disch := decide) only [globalUnicastV6, specialV6, List.forall_mem_cons, List.not_mem_nil,
    Ipv6Addr.block_first, Ipv6Addr.block_second]
  simp [publicIp, Cidr.Agree, ← UInt16.toNat_inj, UInt16.lt_iff_toNat_lt]
  omega

/-! ## The guard -/

/-- Not in any of the special-purpose blocks. -/
def IpAddr.OutsideSpecial : IpAddr → Prop
  | .v4 ip => ∀ block ∈ specialV4, ¬ block.Contains ip.toNat
  | .v6 ip => globalUnicastV6.Contains ip.toNat ∧ ∀ block ∈ specialV6, ¬ block.Contains ip.toNat

theorem specialV4_rejected :
    ∀ b ∈ specialV4, ∃ c ∈ rejectedV4, c.len ≤ b.len ∧ c.Contains b.base := by
  decide

theorem publicIp_outside {ip : IpAddr} (h : publicIp ip = true) : ip.OutsideSpecial := by
  cases ip with
  | v4 ip =>
    intro b hb hin
    obtain ⟨c, hc, hlen, hbase⟩ := specialV4_rejected b hb
    exact (publicIp_v4_iff ip).mp h c hc (Cidr.Block.mono hlen hbase hin)
  | v6 ip => exact (publicIp_v6_iff ip).mp h

end Authzoo.Oauth
