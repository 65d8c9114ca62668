import FakeDns.NameInfo.AresGetnameinfo
import FakeDns.Hostent.Callback

/-! `getnameinfo`. It translates the caller's flags with `&=` into a word that is zero, so
every flag is lost and `ares_getnameinfo` is asked for the host only: no service is ever
delivered and the service buffer is never written. Nothing is promised by a call that
fails, so the flags are honoured exactly when the lookup ends in an error that
`ares_getnameinfo` does not cover with the numeric form. -/

namespace FakeDns

open ByteMemory Mem

def NI_NUMERICHOST : UInt32 := 1
def NI_NUMERICSERV : UInt32 := 2
def NI_NOFQDN : UInt32 := 4
def NI_NAMEREQD : UInt32 := 8
def NI_DGRAM : UInt32 := 16

/-- The arguments of `getnameinfo`. -/
structure NameinfoArgs where
  sa : List UInt8
  salen : ℕ
  host : ℕ
  hostlen : UInt32
  serv : ℕ
  servlen : UInt32
  flags : UInt32

/-- One output of `getnameinfo_callback`: a bounded copy, and a zero at `dst[len-1]`, where
`len-1` is 32-bit arithmetic. -/
def copyOut (dst : ℕ) (len : UInt32) (str : Option (List UInt8)) (m : Mem) : Mem :=
  match str with
  | none => m
  | some s => if dst = 0 then m else (m.strncpy dst s len.toNat).write (dst + (len - 1).toNat) [0]

/-- `getnameinfo_callback`: the return value and the memory. -/
def getnameinfoCallback (out : NameinfoArgs) (reply : NameReply) (m : Mem) : Int × Mem :=
  if reply.status ≠ ARES_SUCCESS then (EAI_FAIL, m) else
    let m := copyOut out.host out.hostlen reply.node m
    let m := copyOut out.serv out.servlen reply.service m
    (0, m)

/-- The flags that `getnameinfo` hands on. -/
def translateFlags (uflags : UInt32) : UInt32 :=
  let flags : UInt32 := 0
  let flags := if hasFlag uflags NI_NUMERICHOST then flags &&& ARES_NI_NUMERICHOST else flags
  let flags := if hasFlag uflags NI_NUMERICSERV then flags &&& ARES_NI_NUMERICSERV else flags
  let flags := if hasFlag uflags NI_NOFQDN then flags &&& ARES_NI_NOFQDN else flags
  let flags := if hasFlag uflags NI_DGRAM then flags &&& ARES_NI_DGRAM else flags
  if hasFlag uflags NI_NAMEREQD then flags &&& ARES_NI_NAMEREQD else flags

/-- `getnameinfo` -/
def getnameinfo (st : Statics) (env : NameEnv) (a : NameinfoArgs) (w : World) : Int × World :=
  let w := aresInit st w
  let (ret, m) := getnameinfoCallback a (aresGetnameinfo env a.sa a.salen (translateFlags a.flags)) w.mem
  (ret, { w with mem := m })

/-! ### What the flags ask for -/

/-- The reverse lookup of the address. -/
def NameEnv.reverse (env : NameEnv) (sa : List UInt8) : Reply :=
  if saFamily sa = AF_INET then env.ares.gethostbyaddr (sinAddrOf sa) sizeofInAddr AF_INET
  else env.ares.gethostbyaddr (sin6AddrOf sa) sizeofIn6Addr AF_INET6

/-- The numeric form of the address, for IPv6 with or without a scope. -/
def NumericForm (env : NameEnv) (sa s : List UInt8) : Prop :=
  if saFamily sa = AF_INET then s = env.inetNtop AF_INET (sinAddrOf sa)
  else s = env.inetNtop AF_INET6 (sin6AddrOf sa) ∨ ∃ scope, s = env.inetNtop AF_INET6 (sin6AddrOf sa) ++ 37 :: scope

/-- A name that the reverse lookup found, perhaps without its domain. -/
def FoundName (env : NameEnv) (sa s : List UInt8) : Prop :=
  ∃ host, env.reverse sa = .success host ∧ s <+: host.hName

/-- The service string that the flags ask for. -/
def NameinfoArgs.service (a : NameinfoArgs) (env : NameEnv) : List UInt8 :=
  let port := decimal (htons (saPort a.sa)).toNat
  if hasFlag a.flags NI_NUMERICSERV then port
  else (env.getservbyport (saPort a.sa) (if hasFlag a.flags NI_DGRAM then protoUdp else protoTcp)).getD port

/-- The host and the service string are those the flags ask for. -/
structure AsAsked (env : NameEnv) (a : NameinfoArgs) (host serv : List UInt8) : Prop where
  numeric : hasFlag a.flags NI_NUMERICHOST = true → NumericForm env a.sa host
  required : hasFlag a.flags NI_NAMEREQD = true → hasFlag a.flags NI_NUMERICHOST = false →
    FoundName env a.sa host
  service : serv = a.service env

/-- Whatever the two buffers held before, a call that returns 0 has written both, with the
strings the flags ask for, cut to the buffers. -/
def FlagsHonoured (st : Statics) (env : NameEnv) (a : NameinfoArgs) (w : World) : Prop :=
  ∃ host serv, ∀ hostbuf servbuf : List UInt8,
    hostbuf.length = a.hostlen.toNat → servbuf.length = a.servlen.toNat →
    let w₁ := { w with mem := (w.mem.write a.host hostbuf).write a.serv servbuf }
    (getnameinfo st env a w₁).1 = 0 → AsAsked env a host serv ∧
      CString (getnameinfo st env a w₁).2.mem a.host (host.take (a.hostlen.toNat - 1)) ∧
      CString (getnameinfo st env a w₁).2.mem a.serv (serv.take (a.servlen.toNat - 1))

/-- An IPv4 or IPv6 socket address of its own length, and two buffers apart from each other
and from the static hostent. -/
structure NameinfoArgs.Valid (st : Statics) (a : NameinfoArgs) : Prop where
  address : (saFamily a.sa = AF_INET ∧ a.salen = sizeofSockaddrIn) ∨
    (saFamily a.sa = AF_INET6 ∧ a.salen = sizeofSockaddrIn6)
  hostlen : 0 < a.hostlen
  servlen : 0 < a.servlen
  layout : Layout [(st.he, sizeofHostent), (a.host, a.hostlen.toNat), (a.serv, a.servlen.toNat)]

/-- The lookup ends in an error other than `ARES_ENOTFOUND`. -/
def LookupFails (env : NameEnv) (sa : List UInt8) : Prop :=
  env.malloc = none ∨ ∃ status h, env.reverse sa = .failure status h ∧ status ≠ ARES_ENOTFOUND

/-! ### What the code does with them -/

@[simp] theorem copyOut_null (len : UInt32) (str : Option (List UInt8)) (m : Mem) : copyOut 0 len str m = m := by
  cases str <;> rfl

/-- Into a buffer that is not empty, an output is one padded copy. -/
theorem copyOut_eq {dst : ℕ} {len : UInt32} (hdst : dst ≠ 0) (hlen : len ≠ 0) (s : List UInt8) (m : Mem) :
    copyOut dst len (some s) m = m.write dst (padded (s.take (len.toNat - 1)) len.toNat) := by
  have hpos : 0 < len.toNat := Nat.pos_of_ne_zero fun h => hlen (UInt32.toNat_inj.mp h)
  have hlast : (len - 1).toNat = len.toNat - 1 :=
    UInt32.toNat_sub_of_le _ _ (UInt32.le_iff_toNat_le.mpr hpos)
  rw [copyOut, if_neg hdst, hlast, strncpy_terminate hpos]

/-- It stays inside the buffer. -/
theorem copyOut_frame {dst : ℕ} {len : UInt32} (hlen : len ≠ 0) (str : Option (List UInt8)) (m : Mem) :
    Frame (span dst len.toNat) m (copyOut dst len str m) := by
  cases str with
  | none => exact Frame.refl _ _
  | some s =>
    by_cases hdst : dst = 0
    · rw [copyOut, if_pos hdst]
      exact Frame.refl _ _
    · rw [copyOut_eq hdst hlen]
      apply (Frame.write m dst _).mono
      rw [length_padded]

/-- Every flag is lost. -/
theorem translateFlags_eq (uflags : UInt32) : translateFlags uflags = 0 := by
  simp [translateFlags]

section

variable {st : Statics} {env : NameEnv} {a : NameinfoArgs}

/-- Asked for the host only, the callback of the reverse lookup delivers no service. -/
theorem nameinfoCallback_lookuphost (bytes : List UInt8) (family : UInt32) (reply : Reply) :
    (nameinfoCallback env ⟨bytes, family, ARES_NI_LOOKUPHOST⟩ reply).service = none ∧
      ((nameinfoCallback env ⟨bytes, family, ARES_NI_LOOKUPHOST⟩ reply).status = ARES_SUCCESS ↔
        ¬ ∃ status h, reply = .failure status h ∧ status ≠ ARES_ENOTFOUND) := by
  have hserv : hasFlag ARES_NI_LOOKUPHOST ARES_NI_LOOKUPSERVICE = false := by decide
  have hreq : hasFlag ARES_NI_LOOKUPHOST ARES_NI_NAMEREQD = false := by decide
  cases reply with
  | success host => simp [nameinfoCallback, hserv]
  | failure status h =>
    by_cases hnf : status = ARES_ENOTFOUND
    · simp [nameinfoCallback, hserv, hreq, hnf]
    · simp [nameinfoCallback, hnf, h]

/-- Without flags, the answer is that of the reverse lookup, and it has no service. -/
theorem aresGetnameinfo_zero (hv : a.Valid st) :
    (aresGetnameinfo env a.sa a.salen 0).service = none ∧
      ((aresGetnameinfo env a.sa a.salen 0).status = ARES_SUCCESS ↔ ¬ LookupFails env a.sa) := by
  have hnone : ∀ mask, hasFlag 0 mask = false := fun mask => by simp [hasFlag]
  have hor : 0 ||| ARES_NI_LOOKUPHOST = ARES_NI_LOOKUPHOST := by decide
  have hhost : hasFlag ARES_NI_LOOKUPHOST ARES_NI_LOOKUPHOST = true := by decide
  have hnum : hasFlag ARES_NI_LOOKUPHOST ARES_NI_NUMERICHOST = false := by decide
  unfold aresGetnameinfo LookupFails NameEnv.reverse
  rw [if_pos hv.address]
  simp only [hnone, hor, hhost, hnum, and_self, Bool.true_eq_false, Bool.false_eq_true, ↓reduceIte]
  cases env.malloc with
  | none => simp [ARES_ENOMEM, ARES_SUCCESS]
  | some junk =>
    simp only [reduceCtorEq, false_or]
    split
    · exact nameinfoCallback_lookuphost _ _ _
    · exact nameinfoCallback_lookuphost _ _ _

/-- The return value does not depend on the memory. -/
theorem getnameinfo_value (hv : a.Valid st) (w : World) :
    (getnameinfo st env a w).1 = 0 ↔ ¬ LookupFails env a.sa := by
  rw [← (aresGetnameinfo_zero hv).2]
  simp only [getnameinfo, translateFlags_eq, getnameinfoCallback]
  split
  · rename_i h
    simp [h, EAI_FAIL]
  · rename_i h
    simpa using h

variable (env) in
/-- The service buffer is left alone. -/
theorem getnameinfo_serv (hv : a.Valid st) (w : World) :
    (getnameinfo st env a w).2.mem.read a.serv a.servlen.toNat = w.mem.read a.serv a.servlen.toNat := by
  have hap := hv.layout.apart
  simp only [List.pairwise_cons, List.mem_cons, List.not_mem_nil, or_false, forall_eq_or_imp, forall_eq,
    sizeofHostent] at hap
  obtain ⟨⟨_, hhe⟩, hserv, _⟩ := hap
  have hinit := (aresInit_frame st w).read (disjoint_span hhe).symm
  rw [← hinit]
  simp only [getnameinfo, translateFlags_eq, getnameinfoCallback, (aresGetnameinfo_zero hv).1]
  split
  · rfl
  · exact (copyOut_frame (UInt32.pos_iff_ne_zero.mp hv.hostlen) _ _).read (disjoint_span hserv).symm

/-- A call that returns 0 has not honoured the flags: a service buffer full of ones is
still full of ones. -/
theorem lookupFails_of_honoured (hv : a.Valid st) {w : World} (h : FlagsHonoured st env a w) :
    LookupFails env a.sa := by
  by_contra hok
  obtain ⟨host, serv, h⟩ := h
  set ones := List.replicate a.servlen.toNat (0xff : UInt8) with hones
  have hlen : ones.length = a.servlen.toNat := by simp [hones]
  obtain ⟨_, _, hstr⟩ := h (List.replicate a.hostlen.toNat 0) ones (by simp) hlen
    ((getnameinfo_value hv _).mpr hok)
  have hread := getnameinfo_serv env hv
    { w with mem := (w.mem.write a.host (List.replicate a.hostlen.toNat 0)).write a.serv ones }
  rw [← hlen, read_write, hlen] at hread
  have hl : 0 < a.servlen.toNat := UInt32.lt_iff_toNat_lt.mp hv.servlen
  have hk : (serv.take (a.servlen.toNat - 1)).length < ones.length := by
    rw [hlen, List.length_take]
    omega
  -- so there is no place for the terminating zero
  have hbyte := (read_eq_iff.mp hread).2 _ hk
  rw [hstr.terminator] at hbyte
  simp [hones] at hbyte

/-- The flags are honoured exactly when the lookup fails, so that nothing is promised. -/
theorem flags_honoured_iff (hv : a.Valid st) (w : World) :
    FlagsHonoured st env a w ↔ LookupFails env a.sa := by
  constructor
  · exact lookupFails_of_honoured hv
  · intro hfail
    exact ⟨[], [], fun hostbuf servbuf _ _ hret => absurd hfail ((getnameinfo_value hv _).mp hret)⟩

end

/-- 10.0.0.1 and port 80, asked for in numbers. -/
def NameinfoArgs.sample : NameinfoArgs where
  sa := [2, 0, 0, 80, 10, 0, 0, 1, 0, 0, 0, 0, 0, 0, 0, 0]
  salen := 16
  host := 0x7000
  hostlen := 64
  serv := 0x8000
  servlen := 32
  flags := NI_NUMERICHOST ||| NI_NUMERICSERV

/-- A library that formats one address, and a reverse lookup with the given reply. -/
def NameEnv.sample (reply : Reply) : NameEnv where
  inetNtop _ addr := if addr = [10, 0, 0, 1] then [49, 48, 46, 48, 46, 48, 46, 49] else []
  getservbyport _ _ := none
  ifIndextoname _ := none
  gethostname := []
  ares := .always reply
  malloc := some (List.replicate 28 0)

theorem NameinfoArgs.sample_valid : NameinfoArgs.sample.Valid .sample :=
  ⟨by decide, by decide, by decide, by decide⟩

theorem flags_honoured_sample :
    FlagsHonoured .sample (.sample .notFound) .sample .zero ↔ LookupFails (.sample .notFound) NameinfoArgs.sample.sa :=
  flags_honoured_iff NameinfoArgs.sample_valid .zero

/-- Asked for numbers, a call whose lookup finds a name returns 0 without a service. -/
theorem numeric_flags_lost :
    NameinfoArgs.sample.Valid .sample ∧
      (getnameinfo .sample (.sample (.success .sample)) .sample .zero).1 = 0 ∧
      CString (getnameinfo .sample (.sample (.success .sample)) .sample .zero).2.mem 0x7000 [97] ∧
      (getnameinfo .sample (.sample (.success .sample)) .sample .zero).2.mem.read 0x8000 32 =
        World.zero.mem.read 0x8000 32 ∧
      ¬ FlagsHonoured .sample (.sample (.success .sample)) .sample .zero := by
  have hok : ¬ LookupFails (.sample (.success .sample)) NameinfoArgs.sample.sa := by
    rintro (h | ⟨status, hs, h, _⟩)
    · cases h
    · rw [NameEnv.reverse, if_pos (by decide)] at h
      cases h
  refine ⟨NameinfoArgs.sample_valid, (getnameinfo_value NameinfoArgs.sample_valid _).mpr hok, ?_,
    getnameinfo_serv _ NameinfoArgs.sample_valid _, fun h => hok (lookupFails_of_honoured NameinfoArgs.sample_valid h)⟩
  decide +kernel

end FakeDns
