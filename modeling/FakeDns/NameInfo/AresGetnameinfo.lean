import FakeDns.Hostent.Layout

/-! `ares_getnameinfo`. It answers with one callback: a status, a host string and a service
string, either of which may be missing. A socket address is the list of its bytes. A host
lookup goes to the reverse resolver through a query record of which only the first bytes
of the socket address are filled; the rest of the record is what `malloc` left in it. -/

namespace FakeDns

open ByteMemory

def ARES_ENOTIMP : UInt32 := 5
def ARES_ENOMEM : UInt32 := 15
def ARES_EBADFLAGS : UInt32 := 18

def ARES_NI_NOFQDN : UInt32 := 1
def ARES_NI_NUMERICHOST : UInt32 := 2
def ARES_NI_NAMEREQD : UInt32 := 4
def ARES_NI_NUMERICSERV : UInt32 := 8
def ARES_NI_DGRAM : UInt32 := 16
def ARES_NI_UDP : UInt32 := ARES_NI_DGRAM
def ARES_NI_SCTP : UInt32 := 32
def ARES_NI_DCCP : UInt32 := 64
def ARES_NI_NUMERICSCOPE : UInt32 := 128
def ARES_NI_LOOKUPHOST : UInt32 := 256
def ARES_NI_LOOKUPSERVICE : UInt32 := 512

def IF_NAMESIZE : ℕ := 16
def IPBUFSIZ : ℕ := 46 + IF_NAMESIZE

/-- `flags & mask` as a condition. -/
def hasFlag (flags mask : UInt32) : Bool := flags &&& mask != 0

/-! ### Socket addresses -/

/-- The bytes of a field. -/
def field (sa : List UInt8) (offset size : ℕ) : List UInt8 := (sa.drop offset).take size

def saFamily (sa : List UInt8) : UInt32 := UInt32.ofNat (ofLE (field sa 0 2))

/-- `sin_port` and `sin6_port`, in network order. -/
def saPort (sa : List UInt8) : UInt16 := UInt16.ofNat (ofLE (field sa 2 2))

def sinAddrOf (sa : List UInt8) : List UInt8 := field sa 4 sizeofInAddr
def sin6AddrOf (sa : List UInt8) : List UInt8 := field sa 8 sizeofIn6Addr
def sin6ScopeIdOf (sa : List UInt8) : ℕ := ofLE (field sa 24 4)

/-- The code that `ares_getnameinfo` calls: the formatting of addresses, the services
database, the interface and host names, the reverse resolver, and the bytes in the record
that `malloc` returns, if it returns one. -/
structure NameEnv where
  inetNtop : UInt32 → List UInt8 → List UInt8
  getservbyport : UInt16 → List UInt8 → Option (List UInt8)
  ifIndextoname : ℕ → Option (List UInt8)
  gethostname : List UInt8
  ares : Ares
  malloc : Option (List UInt8)

/-- The arguments of the callback. -/
structure NameReply where
  status : UInt32
  node : Option (List UInt8)
  service : Option (List UInt8)

/-- `%u` -/
def decimal (n : ℕ) : List UInt8 := (Nat.toDigits 10 n).map fun c => UInt8.ofNat c.toNat

/-- The protocol that the flags ask for. -/
def protoOf (flags : UInt32) : List UInt8 :=
  if hasFlag flags ARES_NI_UDP then protoUdp
  else if hasFlag flags ARES_NI_SCTP then protoSctp
  else if hasFlag flags ARES_NI_DCCP then protoDccp
  else protoTcp

/-- `lookup_service`; `port` is in network order. -/
def lookupService (env : NameEnv) (port : UInt16) (flags : UInt32) (buflen : ℕ) : Option (List UInt8) :=
  if port ≠ 0 then
    let sep := if hasFlag flags ARES_NI_NUMERICSERV then none else env.getservbyport port (protoOf flags)
    let tmpbuf := match sep with
      | some name => name
      | none => decimal (htons port).toNat
    if tmpbuf.length < buflen then some tmpbuf else some []
  else none

/-- `append_scopeid` -/
def appendScopeid (env : NameEnv) (sa : List UInt8) (flags : UInt32) (buf : List UInt8) (buflen : ℕ) :
    List UInt8 :=
  let addr := sin6AddrOf sa
  let isLl := addr.getD 0 0 = 0xfe ∧ addr.getD 1 0 &&& 0xc0 = 0x80
  let isMcll := addr.getD 0 0 = 0xff ∧ addr.getD 1 0 &&& 0x0f = 0x02
  let scope :=
    if hasFlag flags ARES_NI_NUMERICSCOPE = true ∨ (¬ isLl ∧ ¬ isMcll) then decimal (sin6ScopeIdOf sa)
    else match env.ifIndextoname (sin6ScopeIdOf sa) with
      | none => decimal (sin6ScopeIdOf sa)
      | some name => name
  let tmpbuf := (37 :: scope).take (IF_NAMESIZE + 1)
  if buf.length + tmpbuf.length < buflen then buf ++ tmpbuf else buf

/-- `ares_striendstr`: where `s1` should be cut to lose the ending `s2`. -/
def aresStriendstr (s1 s2 : List UInt8) : Option ℕ :=
  if s2.length > s1.length then none
  else if (s1.drop (s1.length - s2.length)).map tolower ≠ s2.map tolower then none
  -- the position is returned only if `c2 == NULL`, and `c2` points behind `s2`
  else none

/-- The part of `struct nameinfo_query` that the callback reads. -/
structure NameinfoQuery where
  addr : List UInt8
  family : UInt32
  flags : UInt32

/-- `nameinfo_callback` -/
def nameinfoCallback (env : NameEnv) (niquery : NameinfoQuery) (reply : Reply) : NameReply :=
  let service := if hasFlag niquery.flags ARES_NI_LOOKUPSERVICE
    then lookupService env (saPort niquery.addr) niquery.flags 33 else none
  match reply with
  | .success host =>
    let node := if hasFlag niquery.flags ARES_NI_NOFQDN then
        match env.gethostname.dropWhile (· ≠ 46) with
        | [] => host.hName
        | domain => match aresStriendstr host.hName domain with
          | some cut => host.hName.take cut
          | none => host.hName
      else host.hName
    ⟨ARES_SUCCESS, some node, service⟩
  | .failure status _ =>
    if status = ARES_ENOTFOUND ∧ hasFlag niquery.flags ARES_NI_NAMEREQD = false then
      let ipbuf := if niquery.family = AF_INET then env.inetNtop AF_INET (sinAddrOf niquery.addr)
        else appendScopeid env niquery.addr niquery.flags
          (env.inetNtop AF_INET6 (sin6AddrOf niquery.addr)) IPBUFSIZ
      ⟨ARES_SUCCESS, some ipbuf, service⟩
    else ⟨status, none, none⟩

/-- `ares_getnameinfo` -/
def aresGetnameinfo (env : NameEnv) (sa : List UInt8) (salen : ℕ) (flags : UInt32) : NameReply :=
  if (saFamily sa = AF_INET ∧ salen = sizeofSockaddrIn) ∨ (saFamily sa = AF_INET6 ∧ salen = sizeofSockaddrIn6) then
    let port := saPort sa
    let flags := if hasFlag flags ARES_NI_LOOKUPSERVICE = false ∧ hasFlag flags ARES_NI_LOOKUPHOST = false
      then flags ||| ARES_NI_LOOKUPHOST else flags
    if hasFlag flags ARES_NI_LOOKUPHOST = false then
      ⟨ARES_SUCCESS, none, lookupService env port flags 33⟩
    else if hasFlag flags ARES_NI_NUMERICHOST then
      if hasFlag flags ARES_NI_NAMEREQD then ⟨ARES_EBADFLAGS, none, none⟩
      else
        let ipbuf := if salen = sizeofSockaddrIn6
          then appendScopeid env sa flags (env.inetNtop AF_INET6 (sin6AddrOf sa)) IPBUFSIZ
          else env.inetNtop AF_INET (sinAddrOf sa)
        ⟨ARES_SUCCESS, some ipbuf, if hasFlag flags ARES_NI_LOOKUPSERVICE
          then lookupService env port flags 33 else none⟩
    else
      match env.malloc with
      | none => ⟨ARES_ENOMEM, none, none⟩
      | some junk =>
        -- the copies into the record have the sizes of the addresses, not of the socket addresses
        if saFamily sa = AF_INET then
          nameinfoCallback env ⟨sa.take sizeofInAddr ++ junk.drop sizeofInAddr, AF_INET, flags⟩
            (env.ares.gethostbyaddr (sinAddrOf sa) sizeofInAddr AF_INET)
        else
          nameinfoCallback env ⟨sa.take sizeofIn6Addr ++ junk.drop sizeofIn6Addr, AF_INET6, flags⟩
            (env.ares.gethostbyaddr (sin6AddrOf sa) sizeofIn6Addr AF_INET6)
  else ⟨ARES_ENOTIMP, none, none⟩

end FakeDns
