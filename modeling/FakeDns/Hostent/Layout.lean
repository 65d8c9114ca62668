import FakeDns.ByteMemory.Strings
import FakeDns.ByteMemory.Lists
import FakeDns.Platform

/-! The data of the host lookups: the hostent that c-ares hands to a callback, the
static variables of the library, and the storage a callback copies an answer into.
A `struct hostent` has `h_name` at offset 0, `h_aliases` at 8, `h_addrtype`
at 16, `h_length` at 20 and `h_addr_list` at 24. -/

namespace FakeDns

open ByteMemory

def HLEN : ℕ := 1024
def ALEN : ℕ := 10

def sizeofHostent : ℕ := 32

def ARES_SUCCESS : UInt32 := 0

/-- A `struct hostent` as c-ares delivers it: a NUL-terminated name and a
NULL-terminated list of addresses of `h_length` bytes each. -/
structure Answer where
  hName : List UInt8
  hAddrtype : UInt32
  hLength : UInt32
  hAddrList : List (List UInt8)
  name_nonzero : 0 ∉ hName
  addr_length : ∀ a ∈ hAddrList, a.length = hLength.toNat

/-- What the callback of one lookup receives: `ARES_SUCCESS` with a hostent, or any
other status. -/
inductive Reply where
  | success (host : Answer)
  | failure (status : UInt32) (h : status ≠ ARES_SUCCESS)

/-- One IPv4 address under the name `a`. -/
def Answer.sample : Answer := ⟨[97], AF_INET, 4, [[10, 0, 0, 1]], by decide, by decide⟩

/-- Two IPv4 addresses under the name `a`. -/
def Answer.two : Answer := { Answer.sample with
  hAddrList := [[10, 0, 0, 1], [10, 0, 0, 2]]
  addr_length := List.forall_mem_cons.mpr ⟨rfl, List.forall_mem_singleton.mpr rfl⟩ }

/-- The answer of a name that has only an alias record: IPv4, no address. -/
def Answer.aliasOnly : Answer := ⟨[97], AF_INET, 4, [], by decide, by decide⟩

def ARES_ENOTFOUND : UInt32 := 4

def Reply.notFound : Reply := .failure ARES_ENOTFOUND (by decide)

/-- The resolver behind one call: its reply to a forward and to a reverse query. -/
structure Ares where
  gethostbyname : List UInt8 → UInt32 → Reply
  gethostbyaddr : List UInt8 → ℕ → UInt32 → Reply

/-- The resolver that gives one reply to every query. -/
def Ares.always (reply : Reply) : Ares := ⟨fun _ _ => reply, fun _ _ _ => reply⟩

/-- Where the linker put the static variables. -/
structure Statics where
  he : ℕ
  fName : ℕ
  fAddrlist : ℕ
  fAddrbuf : ℕ
  fEmpty : ℕ
  layout : Layout [(he, sizeofHostent), (fName, HLEN), (fAddrlist, ALEN * sizeofPtr),
    (fAddrbuf, ALEN * sizeofSockaddr), (fEmpty, sizeofPtr)]

/-- One placement of the statics. -/
def Statics.sample : Statics := ⟨0x1000, 0x2000, 0x3000, 0x4000, 0x5000, by decide⟩

/-- The state of the process: its memory, the flag `aresInitDone` and the blocks that
`allocaddrinfo` has allocated and nobody has freed. -/
structure World where
  mem : Mem
  aresInitDone : Bool
  live : List ℕ

/-- All memory zero, nothing initialised or allocated. -/
def World.zero : World := ⟨fun _ => 0, false, []⟩

/-! ### Field addresses -/

def hName (h : ℕ) : ℕ := h
def hAliases (h : ℕ) : ℕ := h + 8
def hAddrtype (h : ℕ) : ℕ := h + 16
def hLength (h : ℕ) : ℕ := h + 20
def hAddrList (h : ℕ) : ℕ := h + 24

/-- A hostent, its name, its address pointers, the address bytes and the empty alias
list, as separate objects. -/
structure Storage where
  out : ℕ
  name : ℕ
  list : ℕ
  addrbuf : ℕ
  empty : ℕ
  layout : Layout [(out, 32), (name, 1024), (list, 80), (addrbuf, 160), (empty, 8)]

namespace Storage

variable (S : Storage)

theorem objects : (0 < S.out ∧ S.out + 32 ≤ 2 ^ 64) ∧ (0 < S.name ∧ S.name + 1024 ≤ 2 ^ 64) ∧
    (0 < S.list ∧ S.list + 80 ≤ 2 ^ 64) ∧ (0 < S.addrbuf ∧ S.addrbuf + 160 ≤ 2 ^ 64) ∧
    (0 < S.empty ∧ S.empty + 8 ≤ 2 ^ 64) := by
  simpa using S.layout.object

/-- The ten pairs of objects, by the first of the two. -/
theorem apart : (Apart S.out 32 S.name 1024 ∧ Apart S.out 32 S.list 80 ∧ Apart S.out 32 S.addrbuf 160 ∧
      Apart S.out 32 S.empty 8) ∧
    (Apart S.name 1024 S.list 80 ∧ Apart S.name 1024 S.addrbuf 160 ∧ Apart S.name 1024 S.empty 8) ∧
    (Apart S.list 80 S.addrbuf 160 ∧ Apart S.list 80 S.empty 8) ∧ Apart S.addrbuf 160 S.empty 8 := by
  have h := S.layout.apart
  simp only [List.pairwise_cons, List.mem_cons, List.not_mem_nil, or_false, forall_eq_or_imp,
    forall_eq] at h
  exact ⟨h.1, h.2.1, h.2.2.1, h.2.2.2.1⟩

theorem out_apart : Apart S.out 32 S.name 1024 ∧ Apart S.out 32 S.list 80 ∧
    Apart S.out 32 S.addrbuf 160 ∧ Apart S.out 32 S.empty 8 := S.apart.1

theorem name_apart : Apart S.name 1024 S.list 80 ∧ Apart S.name 1024 S.addrbuf 160 ∧
    Apart S.name 1024 S.empty 8 := S.apart.2.1

theorem list_apart : Apart S.list 80 S.addrbuf 160 ∧ Apart S.list 80 S.empty 8 := S.apart.2.2.1

theorem addrbuf_apart : Apart S.addrbuf 160 S.empty 8 := S.apart.2.2.2

/-- The address pointers and the address bytes: what the copy loop writes. -/
def arrays : Set ℕ := span S.list 80 ∪ span S.addrbuf 160

theorem out_disjoint_arrays : Disjoint (span S.out 32) S.arrays :=
  Set.disjoint_union_right.mpr ⟨disjoint_span S.out_apart.2.1, disjoint_span S.out_apart.2.2.1⟩

theorem name_disjoint_arrays : Disjoint (span S.name 1024) S.arrays :=
  Set.disjoint_union_right.mpr ⟨disjoint_span S.name_apart.1, disjoint_span S.name_apart.2.1⟩

/-- The hostent points at its name and at its address pointers. -/
def Points (m : Mem) : Prop := m.loadPtr (hName S.out) = S.name ∧ m.loadPtr (hAddrList S.out) = S.list

end Storage

/-- The static storage that the non-reentrant lookups fill. -/
def Statics.storage (st : Statics) : Storage where
  out := st.he
  name := st.fName
  list := st.fAddrlist
  addrbuf := st.fAddrbuf
  empty := st.fEmpty
  layout := st.layout

end FakeDns
