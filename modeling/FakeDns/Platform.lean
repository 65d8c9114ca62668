import Mathlib.Data.List.Range

/-! The platform: a 64-bit little-endian Linux. Values of type `int` are kept as 32-bit
patterns, and a port as the 16-bit pattern that a socket address holds. -/

namespace FakeDns

def sizeofPtr : ℕ := 8
def sizeofInAddr : ℕ := 4
def sizeofIn6Addr : ℕ := 16
def sizeofSockaddr : ℕ := 16
def sizeofSockaddrIn : ℕ := 16
def sizeofSockaddrIn6 : ℕ := 28

def AF_INET : UInt32 := 2
def AF_INET6 : UInt32 := 10

def SOCK_STREAM : UInt32 := 1
def SOCK_DGRAM : UInt32 := 2

def EFAULT : UInt32 := 14
def ERANGE : UInt32 := 34
def ENODATA : UInt32 := 61
def HOST_NOT_FOUND : UInt32 := 1
def EAI_FAIL : Int := -4

/-- "tcp" -/
def protoTcp : List UInt8 := [116, 99, 112]

/-- "udp" -/
def protoUdp : List UInt8 := [117, 100, 112]

/-- "sctp" -/
def protoSctp : List UInt8 := [115, 99, 116, 112]

/-- "dccp" -/
def protoDccp : List UInt8 := [100, 99, 99, 112]

/-- `htons`, and so `ntohs`, on a little-endian machine: the two bytes change places. -/
def htons (v : UInt16) : UInt16 := UInt16.ofNat (v.toNat % 256 * 256 + v.toNat / 256)

theorem toNat_htons (v : UInt16) : (htons v).toNat = v.toNat % 256 * 256 + v.toNat / 256 := by
  have hv := v.toNat_lt
  have hlt : v.toNat % 256 * 256 + v.toNat / 256 < 2 ^ 16 := by omega
  rw [htons, UInt16.toNat_ofNat', Nat.mod_eq_of_lt hlt]

theorem htons_htons (v : UInt16) : htons (htons v) = v := by
  have hv := v.toNat_lt
  rw [← UInt16.toNat_inj, toNat_htons, toNat_htons]
  omega

theorem htons_eq_zero_iff (v : UInt16) : htons v = 0 ↔ v = 0 := by
  rw [← UInt16.toNat_inj, ← UInt16.toNat_inj, toNat_htons, UInt16.toNat_zero]
  omega

/-! ### Characters -/

def isspace (c : UInt8) : Bool := c == 32 || (9 ≤ c && c ≤ 13)

def isdigit (c : UInt8) : Bool := 48 ≤ c && c ≤ 57

def tolower (c : UInt8) : UInt8 := if 65 ≤ c ∧ c ≤ 90 then c + 32 else c

/-- A digit is neither white space nor a sign. -/
theorem isdigit_facts {c : UInt8} (h : isdigit c = true) : isspace c = false ∧ c ≠ 45 ∧ c ≠ 43 := by
  have hc : 48 ≤ c.toNat ∧ c.toNat ≤ 57 := by
    simpa [isdigit, UInt8.le_iff_toNat_le] using h
  refine ⟨?_, ?_, ?_⟩
  · rw [isspace, Bool.or_eq_false_iff]
    constructor
    · rw [beq_eq_false_iff_ne]
      rintro rfl
      exact absurd hc.1 (by decide)
    · rw [Bool.and_eq_false_iff]
      right
      rw [decide_eq_false_iff_not, UInt8.le_iff_toNat_le, Nat.not_le]
      exact Nat.lt_of_lt_of_le (by decide) hc.1
  · rintro rfl
    exact absurd hc.1 (by decide)
  · rintro rfl
    exact absurd hc.1 (by decide)

/-- `!strcasecmp (a, b)` -/
def strcaseeq (a b : List UInt8) : Bool := a.map tolower == b.map tolower

/-- `!strncasecmp (a, b, n)` -/
def strncaseeq (a b : List UInt8) (n : ℕ) : Bool := strcaseeq (a.take n) (b.take n)

theorem strcaseeq_iff (a b : List UInt8) : strcaseeq a b = true ↔ a.map tolower = b.map tolower := by
  rw [strcaseeq, beq_iff_eq]

theorem strncaseeq_iff {a b : List UInt8} {n : ℕ} (ha : a.length = n) (hb : b.length = n) :
    strncaseeq a b n = true ↔ a.map tolower = b.map tolower := by
  rw [strncaseeq, List.take_of_length_le ha.le, List.take_of_length_le hb.le, strcaseeq_iff]

end FakeDns
