import FakeDns.ByteMemory.Outcome

/-! The fixed parts of a DNS message. All fields are in network order. A header has the
query's id at offset 0, the flags at 2 and 3, and the numbers of questions, answers,
authorities and additional records from 4 on. A question ends with its type and class; a
resource record has, behind its name, type, class, time to live and data length. -/

namespace FakeDns

open ByteMemory

def ARES_ENODATA : UInt32 := 1
def ARES_EFORMERR : UInt32 := 2
def ARES_ESERVFAIL : UInt32 := 3
def ARES_EREFUSED : UInt32 := 6
def ARES_EBADQUERY : UInt32 := 7
def ARES_EBADNAME : UInt32 := 8
def ARES_EBADRESP : UInt32 := 10
def ARES_ECONNREFUSED : UInt32 := 11
def ARES_ETIMEOUT : UInt32 := 12
def ARES_EDESTRUCTION : UInt32 := 16
def ARES_ECANCELLED : UInt32 := 24

def NOERROR : ℕ := 0
def FORMERR : ℕ := 1
def SERVFAIL : ℕ := 2
def NXDOMAIN : ℕ := 3
def NOTIMP : ℕ := 4
def REFUSED : ℕ := 5

def HFIXEDSZ : ℕ := 12
def QFIXEDSZ : ℕ := 4
def RRFIXEDSZ : ℕ := 10
def MAXCDNAME : ℕ := 255
def MAXLABEL : ℕ := 63
def PACKETSZ : ℕ := 512

def C_IN : ℕ := 1
def T_A : ℕ := 1
def T_CNAME : ℕ := 5
def T_PTR : ℕ := 12
def T_AAAA : ℕ := 28

def QUERY : ℕ := 0

/-- `DNS__16BIT` -/
def dns16 (abuf : List UInt8) (p : ℕ) : Outcome UInt32 ℕ := do
  let a ← byteAt abuf p
  let b ← byteAt abuf (p + 1)
  .ok (a.toNat * 256 + b.toNat)

/-- `DNS__32BIT`, as the `int` it is stored in. -/
def dns32 (abuf : List UInt8) (p : ℕ) : Outcome UInt32 Int := do
  let hi ← dns16 abuf p
  let lo ← dns16 abuf (p + 2)
  let v := hi * 65536 + lo
  .ok (if v < 0x80000000 then v else v - 0x100000000)

/-- `DNS_HEADER_QID` -/
def headerQid (h : List UInt8) : Outcome UInt32 ℕ := dns16 h 0

/-- `DNS_HEADER_TC` -/
def headerTc (h : List UInt8) : Outcome UInt32 Bool := do
  let b ← byteAt h 2
  .ok ((b >>> 1) &&& 1 ≠ 0)

/-- `DNS_HEADER_RCODE` -/
def headerRcode (h : List UInt8) : Outcome UInt32 ℕ := do
  let b ← byteAt h 3
  .ok (b &&& 0xf).toNat

/-- `DNS__SET16BIT` -/
def set16 (v : ℕ) : List UInt8 := [UInt8.ofNat (v / 256), UInt8.ofNat v]

@[simp] theorem length_set16 (v : ℕ) : (set16 v).length = 2 := rfl

variable {abuf : List UInt8} {p : ℕ}

theorem dns16_of_lt (h : p + 1 < abuf.length) :
    dns16 abuf p = .ok (abuf[p].toNat * 256 + abuf[p + 1].toNat) := by
  rw [dns16, byteAt_of_lt (by omega), Outcome.bind_ok, byteAt_of_lt h, Outcome.bind_ok]

/-- A field that was set is read back. -/
theorem dns16_set16 (pre post : List UInt8) {v : ℕ} (hv : v < 65536) :
    dns16 (pre ++ set16 v ++ post) pre.length = .ok v := by
  rw [dns16_of_lt (by simp; omega)]
  congr 1
  simp [set16]
  omega

end FakeDns
