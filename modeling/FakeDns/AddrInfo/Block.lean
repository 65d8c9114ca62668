import FakeDns.Hostent.Layout

/-! The heap block behind one `struct addrinfo`. `addinfo_data` is the addrinfo of 48 bytes,
a `struct sockaddr` of 16 bytes at 48 and the name of `HLEN` bytes at 64. In the addrinfo,
`ai_flags`, `ai_family`, `ai_socktype`, `ai_protocol` and `ai_addrlen` are the words at 0,
4, 8, 12 and 16, and `ai_addr`, `ai_canonname` and `ai_next` the pointers at 24, 32 and 40.
A `sockaddr_in` keeps its address at 4; a `sockaddr_in6` keeps the flow at 4, its address
at 8 and the scope at 24, so it runs 12 bytes into the name. -/

namespace FakeDns

open ByteMemory Mem

def sizeofAddinfoData : ℕ := 1088
def sizeofSaFamily : ℕ := 2

/-! ### Field addresses -/

def aiFlags (p : ℕ) : ℕ := p
def aiFamily (p : ℕ) : ℕ := p + 4
def aiSocktype (p : ℕ) : ℕ := p + 8
def aiProtocol (p : ℕ) : ℕ := p + 12
def aiAddrlen (p : ℕ) : ℕ := p + 16
def aiAddr (p : ℕ) : ℕ := p + 24
def aiCanonname (p : ℕ) : ℕ := p + 32
def aiNext (p : ℕ) : ℕ := p + 40

def sinFamily (s : ℕ) : ℕ := s
def sinPort (s : ℕ) : ℕ := s + 2
def sinAddr (s : ℕ) : ℕ := s + 4
def sin6Family (s : ℕ) : ℕ := s
def sin6Port (s : ℕ) : ℕ := s + 2
def sin6Flowinfo (s : ℕ) : ℕ := s + 4
def sin6Addr (s : ℕ) : ℕ := s + 8
def sin6ScopeId (s : ℕ) : ℕ := s + 24

/-- `allocaddrinfo`; `data` is the block that `malloc` returns. -/
def allocaddrinfo (data : ℕ) (w : World) : World :=
  let m := w.mem.write data (List.replicate sizeofAddinfoData 0)
  let m := m.storePtr (aiAddr data) (data + 48)
  let m := m.storePtr (aiCanonname data) (data + 64)
  { w with mem := m, live := data :: w.live }

/-- A block as `allocaddrinfo` leaves it: zeros but for the two inner pointers. -/
structure Allocated (m : Mem) (p : ℕ) : Prop where
  object : 0 < p ∧ p + 1088 ≤ 2 ^ 64
  head : m.read p 24 = List.replicate 24 0
  addr : m.loadPtr (aiAddr p) = p + 48
  canon : m.loadPtr (aiCanonname p) = p + 64
  next : m.loadPtr (aiNext p) = 0
  tail : m.read (p + 48) 1040 = List.replicate 1040 0

/-- Zeros read from a stretch of zeros. -/
theorem read_zeros {p n a k : ℕ} (m : Mem) (h₁ : p ≤ a) (h₂ : a + k ≤ p + n) :
    (m.write p (List.replicate n 0)).read a k = List.replicate k 0 := by
  rw [read_write_inside h₁ (by simpa using h₂), List.drop_replicate, List.take_replicate]
  congr 1
  omega

theorem allocaddrinfo_allocated {p : ℕ} (h : 0 < p ∧ p + 1088 ≤ 2 ^ 64) (w : World) :
    Allocated (allocaddrinfo p w).mem p := by
  have hp : p + 64 < 256 ^ 8 := by omega
  have hq : p + 48 < 256 ^ 8 := by omega
  unfold allocaddrinfo
  simp only [aiAddr, aiCanonname, sizeofAddinfoData]
  constructor
  · exact h
  · simp (disch := omega) only [read_store_apart]
    exact read_zeros _ (by omega) (by omega)
  · simp only [aiAddr]
    simp (disch := omega) only [load_store_apart, load_store_of_lt]
  · simp only [aiCanonname]
    simp (disch := omega) only [load_store_of_lt]
  · simp only [aiNext]
    simp (disch := omega) only [load_store_apart]
    rw [load, read_zeros _ (by omega) (by omega)]
    rfl
  · simp (disch := omega) only [read_store_apart]
    exact read_zeros _ (by omega) (by omega)

theorem allocaddrinfo_frame (p : ℕ) (w : World) : Frame (span p 1088) w.mem (allocaddrinfo p w).mem := by
  unfold allocaddrinfo
  refine Frame.store_of (Frame.store_of ((Frame.write w.mem p _).mono ?_) ?_) ?_
  · rw [List.length_replicate, sizeofAddinfoData]
  · exact span_subset (by simp [aiAddr]) (by simp [aiAddr])
  · exact span_subset (by simp [aiCanonname]) (by simp [aiCanonname])

theorem Allocated.frame {m m' : Mem} {p : ℕ} {R : Set ℕ} (h : Allocated m p) (hf : Frame R m m')
    (hd : Disjoint (span p 1088) R) : Allocated m' p := by
  have hsub : ∀ k n, k + n ≤ 1088 → Disjoint (span (p + k) n) R := fun k n hk =>
    hd.mono_left (span_subset (by omega) (by omega))
  exact ⟨h.object, (hf.read (hsub 0 24 (by omega))).trans h.head,
    (hf.load (hsub 24 8 (by omega))).trans h.addr, (hf.load (hsub 32 8 (by omega))).trans h.canon,
    (hf.load (hsub 40 8 (by omega))).trans h.next, (hf.read (hsub 48 1040 (by omega))).trans h.tail⟩

/-- What one node of a list is about. -/
structure NodeInfo where
  family : UInt32
  socktype : UInt32
  port : UInt16
  addr : List UInt8
  name : List UInt8

namespace NodeInfo

/-- An IPv4 or IPv6 address under its own family. -/
def Inet (n : NodeInfo) : Prop :=
  (n.family = AF_INET ∧ n.addr.length = 4) ∨ (n.family = AF_INET6 ∧ n.addr.length = 16)

/-- Where the address stands in the socket address. -/
def offset (n : NodeInfo) : ℕ := if n.family = AF_INET then 4 else 8

def addrlen (n : NodeInfo) : ℕ := if n.family = AF_INET then sizeofSockaddrIn else sizeofSockaddrIn6

/-- The bytes from `addr` to the end of the block: the socket address over zeros and the
name. -/
def image (n : NodeInfo) : List UInt8 :=
  toLE 2 n.family.toNat ++ toLE 2 n.port.toNat ++ List.replicate (n.offset - 4) 0 ++ n.addr ++
    (List.replicate 12 0 ++ padded (n.name.take 1023) 1024).drop (n.offset - 4 + n.addr.length)

theorem layout_inet {n : NodeInfo} (h : n.family = AF_INET) : n.offset = 4 ∧ n.addrlen = 16 := by
  simp [offset, addrlen, h, sizeofSockaddrIn]

theorem layout_inet6 {n : NodeInfo} (h : n.family = AF_INET6) : n.offset = 8 ∧ n.addrlen = 28 := by
  have hne : n.family ≠ AF_INET := by rw [h]; decide
  simp [offset, addrlen, hne, sizeofSockaddrIn6]

theorem Inet.offset_cases {n : NodeInfo} (h : n.Inet) :
    (n.offset = 4 ∧ n.addr.length = 4 ∧ n.addrlen = 16) ∨
      (n.offset = 8 ∧ n.addr.length = 16 ∧ n.addrlen = 28) := by
  rcases h with ⟨hf, hl⟩ | ⟨hf, hl⟩
  · exact .inl ⟨(layout_inet hf).1, hl, (layout_inet hf).2⟩
  · exact .inr ⟨(layout_inet6 hf).1, hl, (layout_inet6 hf).2⟩

end NodeInfo

/-- The block at `p` is a finished node; `ai_next` is left open. -/
structure Node (m : Mem) (p : ℕ) (n : NodeInfo) : Prop where
  flags : m.load 4 (aiFlags p) = 0
  family : m.load 4 (aiFamily p) = n.family.toNat
  socktype : m.load 4 (aiSocktype p) = n.socktype.toNat
  protocol : m.load 4 (aiProtocol p) = 0
  addrlen : m.load 4 (aiAddrlen p) = n.addrlen
  padding : m.read (p + 20) 4 = List.replicate 4 0
  addr : m.loadPtr (aiAddr p) = p + 48
  canon : m.loadPtr (aiCanonname p) = p + 64
  tail : m.read (p + 48) 1040 = n.image

/-- The bytes of a node that its content is made of: all but `ai_next`. -/
def nodeBytes (p : ℕ) : Set ℕ := span p 40 ∪ span (p + 48) 1040

theorem nodeBytes_subset_block (p : ℕ) : nodeBytes p ⊆ span p 1088 :=
  Set.union_subset (span_subset (by omega) (by omega)) (span_subset (by omega) (by omega))

theorem aiNext_subset_block (p : ℕ) : span (aiNext p) 8 ⊆ span p 1088 := by
  unfold aiNext
  exact span_subset (by omega) (by omega)

theorem Node.frame {m m' : Mem} {p : ℕ} {n : NodeInfo} {R : Set ℕ} (h : Node m p n) (hf : Frame R m m')
    (hd : Disjoint (nodeBytes p) R) : Node m' p n := by
  obtain ⟨hd₁, hd₂⟩ := Set.disjoint_union_left.mp hd
  have hsub : ∀ k n, k + n ≤ 40 → Disjoint (span (p + k) n) R := fun k n hk =>
    hd₁.mono_left (span_subset (by omega) (by omega))
  exact ⟨(hf.load (hsub 0 4 (by omega))).trans h.flags, (hf.load (hsub 4 4 (by omega))).trans h.family,
    (hf.load (hsub 8 4 (by omega))).trans h.socktype, (hf.load (hsub 12 4 (by omega))).trans h.protocol,
    (hf.load (hsub 16 4 (by omega))).trans h.addrlen, (hf.read (hsub 20 4 (by omega))).trans h.padding,
    (hf.load (hsub 24 8 (by omega))).trans h.addr, (hf.load (hsub 32 8 (by omega))).trans h.canon,
    (hf.read hd₂).trans h.tail⟩

/-- The parts of a node behind its pointers: family, port, the gap before the address, the
address, and what the address leaves of the zeros and the name. -/
theorem Node.parts {m : Mem} {p : ℕ} {n : NodeInfo} (h : Node m p n) (hn : n.Inet) :
    m.load 2 (p + 48) = n.family.toNat ∧ m.load 2 (p + 50) = n.port.toNat ∧
      m.read (p + 52) (n.offset - 4) = List.replicate (n.offset - 4) 0 ∧
      m.read (p + 48 + n.offset) n.addr.length = n.addr ∧
      m.read (p + 48 + (n.offset + n.addr.length)) (1040 - (n.offset + n.addr.length)) =
        (List.replicate 12 0 ++ padded (n.name.take 1023) 1024).drop (n.offset - 4 + n.addr.length) := by
  have hcases := hn.offset_cases
  have hfam : n.family.toNat < 256 ^ 2 := by
    rcases hn with ⟨hf, _⟩ | ⟨hf, _⟩ <;> rw [hf] <;> decide
  have hport := n.port.toNat_lt
  have ht := h.tail
  unfold NodeInfo.image at ht
  rw [show 1040 = 2 + 2 + (n.offset - 4) + n.addr.length + (1040 - (n.offset + n.addr.length)) by omega] at ht
  obtain ⟨ht, hrest⟩ := read_eq_append ht (by simp; omega)
  obtain ⟨ht, haddr⟩ := read_eq_append ht (by simp; omega)
  obtain ⟨ht, hgap⟩ := read_eq_append ht (by simp)
  obtain ⟨hfamily, hportBytes⟩ := read_eq_append ht (by simp)
  refine ⟨load_of_read hfamily hfam, load_of_read hportBytes (by omega), hgap, ?_, ?_⟩
  · rwa [show p + 48 + (2 + 2 + (n.offset - 4)) = p + 48 + n.offset by omega] at haddr
  · rwa [show p + 48 + (2 + 2 + (n.offset - 4) + n.addr.length) = p + 48 + (n.offset + n.addr.length) by
      omega] at hrest

/-- The family and the port behind `ai_addr`; `sin_` and `sin6_` fields agree in their places. -/
theorem Node.sock {m : Mem} {p : ℕ} {n : NodeInfo} (h : Node m p n) (hn : n.Inet) :
    m.load 2 (sinFamily (m.loadPtr (aiAddr p))) = n.family.toNat ∧
      m.load 2 (sinPort (m.loadPtr (aiAddr p))) = n.port.toNat := by
  rw [h.addr]
  exact ⟨(h.parts hn).1, (h.parts hn).2.1⟩

/-! ### Filling a block -/

/-- The stores that make a node, at the addresses they go to. -/
def stamp (m : Mem) (p : ℕ) (n : NodeInfo) : Mem :=
  let m := m.write (p + 64) (padded (n.name.take 1023) 1024)
  let m := m.store 4 (p + 4) n.family.toNat
  let m := m.store 4 (p + 8) n.socktype.toNat
  let m := m.store 4 (p + 12) 0
  let m := m.store 4 p 0
  let m := m.store 2 (p + 48) n.family.toNat
  let m := m.store 2 (p + 50) n.port.toNat
  let m := m.write (p + 48 + n.offset) n.addr
  m.store 4 (p + 16) n.addrlen

/-- The bytes behind the port before the address is written. -/
theorem read_behind_port {m : Mem} {p : ℕ} {pad : List UInt8} (h : Allocated m p) (hpad : pad.length = 1024) :
    (m.write (p + 64) pad).read (p + 52) 1036 = List.replicate 12 0 ++ pad := by
  have hz : m.read (p + 52) 12 = List.replicate 12 0 := by
    rw [← drop_take_read (a := p + 48) (j := 4) (n := 1040) (by omega), h.tail, List.drop_replicate,
      List.take_replicate]
    rfl
  rw [show 1036 = 12 + pad.length by omega, read_append, read_write_apart (by omega), hz,
    show p + 52 + 12 = p + 64 by omega, read_write]

/-- The socket address and the name that filling leaves. -/
theorem stamp_image {m : Mem} {p : ℕ} (h : Allocated m p) {n : NodeInfo} (hn : n.Inet) :
    (stamp m p n).read (p + 48) 1040 = n.image := by
  have hcases := hn.offset_cases
  have hpad := length_padded (n.name.take 1023) 1024
  have hbehind := read_behind_port h hpad
  set base := m.write (p + 64) (padded (n.name.take 1023) 1024) with hbase
  -- the address bytes end `k` bytes behind the port
  obtain ⟨k, hk⟩ : ∃ k, k = n.offset - 4 + n.addr.length := ⟨_, rfl⟩
  have hsplit : (stamp m p n).read (p + 48) 1040 = (stamp m p n).read (p + 48) 2 ++
      ((stamp m p n).read (p + 50) 2 ++ ((stamp m p n).read (p + 52) (n.offset - 4) ++
      ((stamp m p n).read (p + 48 + n.offset) n.addr.length ++
      (stamp m p n).read (p + 52 + k) (1036 - k)))) := by
    rw [show 1040 = 2 + (2 + (n.offset - 4 + (n.addr.length + (1036 - k)))) by omega, read_append,
      read_append, read_append, read_append, show p + 48 + 2 = p + 50 by omega,
      show p + 50 + 2 = p + 52 by omega, show p + 52 + (n.offset - 4) = p + 48 + n.offset by omega,
      show p + 48 + n.offset + n.addr.length = p + 52 + k by omega]
  have hfamily : (stamp m p n).read (p + 48) 2 = toLE 2 n.family.toNat := by
    simp only [stamp]
    simp (disch := omega) only [read_store_apart, read_write_apart, read_store]
  have hport : (stamp m p n).read (p + 50) 2 = toLE 2 n.port.toNat := by
    simp only [stamp]
    simp (disch := omega) only [read_store_apart, read_write_apart, read_store]
  have hzero : (stamp m p n).read (p + 52) (n.offset - 4) = List.replicate (n.offset - 4) 0 := by
    simp only [stamp, ← hbase]
    simp (disch := omega) only [read_store_apart, read_write_apart]
    have hread := take_read (m := base) (a := p + 52) (n := 1036) (k := n.offset - 4) (by omega)
    have hle : n.offset - 4 ≤ 12 := by omega
    rw [hbehind, List.take_append_of_le_length (by rwa [List.length_replicate]), List.take_replicate,
      Nat.min_eq_left hle] at hread
    exact hread.symm
  have hbytes : (stamp m p n).read (p + 48 + n.offset) n.addr.length = n.addr := by
    simp only [stamp]
    simp (disch := omega) only [read_store_apart, read_write]
  have hrest : (stamp m p n).read (p + 52 + k) (1036 - k) =
      (List.replicate 12 0 ++ padded (n.name.take 1023) 1024).drop k := by
    simp only [stamp, ← hbase]
    simp (disch := omega) only [read_store_apart, read_write_apart]
    have hread := drop_take_read (m := base) (a := p + 52) (n := 1036) (j := k) (k := 1036 - k) (by omega)
    rw [hbehind, List.take_of_length_le (by simp)] at hread
    exact hread.symm
  rw [hsplit, hfamily, hport, hzero, hbytes, hrest, hk]
  simp only [NodeInfo.image, List.append_assoc]

/-- An allocated block becomes a node; its `ai_next` stays NULL. -/
theorem stamp_node {m : Mem} {p : ℕ} (h : Allocated m p) {n : NodeInfo} (hn : n.Inet) :
    Node (stamp m p n) p n := by
  have hcases := hn.offset_cases
  have hf := n.family.toNat_lt
  have hs := n.socktype.toNat_lt
  have hpad := length_padded (n.name.take 1023) 1024
  have haddr := h.addr
  have hcanon := h.canon
  simp only [aiAddr, aiCanonname] at haddr hcanon
  constructor
  · simp only [stamp, aiFlags]
    simp (disch := omega) only [load_store_apart, load_write_apart, load_store_of_lt]
  · simp only [stamp, aiFamily]
    simp (disch := omega) only [load_store_apart, load_write_apart, load_store_of_lt]
  · simp only [stamp, aiSocktype]
    simp (disch := omega) only [load_store_apart, load_write_apart, load_store_of_lt]
  · simp only [stamp, aiProtocol]
    simp (disch := omega) only [load_store_apart, load_write_apart, load_store_of_lt]
  · simp only [stamp, aiAddrlen]
    simp (disch := omega) only [load_store_of_lt]
  · have hz : m.read (p + 20) 4 = List.replicate 4 0 := by
      rw [← drop_take_read (j := 20) (n := 24) (by omega), h.head, List.drop_replicate, List.take_replicate]
      rfl
    simp only [stamp]
    simp (disch := omega) only [read_store_apart, read_write_apart, hz]
  · simp only [stamp, aiAddr]
    simp (disch := omega) only [load_store_apart, load_write_apart, haddr]
  · simp only [stamp, aiCanonname]
    simp (disch := omega) only [load_store_apart, load_write_apart, hcanon]
  · exact stamp_image h hn

/-- The bytes of a block that filling it may change: all but the three pointers. -/
def fillable (p : ℕ) : Set ℕ := span p 24 ∪ span (p + 48) 1040

theorem fillable_subset_block (p : ℕ) : fillable p ⊆ span p 1088 :=
  Set.union_subset (span_subset (by omega) (by omega)) (span_subset (by omega) (by omega))

theorem header_fillable {p a n : ℕ} (h₁ : p ≤ a) (h₂ : a + n ≤ p + 24) : span a n ⊆ fillable p :=
  (span_subset h₁ h₂).trans Set.subset_union_left

theorem body_fillable {p a n : ℕ} (h₁ : p + 48 ≤ a) (h₂ : a + n ≤ p + 1088) : span a n ⊆ fillable p :=
  (span_subset h₁ (by omega)).trans Set.subset_union_right

theorem aiNext_fillable (p : ℕ) : Disjoint (span (aiNext p) 8) (fillable p) := by
  simp only [aiNext, fillable, Set.disjoint_union_right]
  constructor <;> exact disjoint_span (by omega)

theorem stamp_frame (m : Mem) (p : ℕ) {n : NodeInfo} (hn : n.Inet) : Frame (fillable p) m (stamp m p n) := by
  have hcases := hn.offset_cases
  have hpad := length_padded (n.name.take 1023) 1024
  unfold stamp
  refine Frame.store_of (Frame.write_of (Frame.store_of (Frame.store_of (Frame.store_of (Frame.store_of
    (Frame.store_of (Frame.store_of ((Frame.write m _ _).mono ?_) ?_) ?_) ?_) ?_) ?_) ?_) ?_) ?_
  · exact body_fillable (by omega) (by omega)
  · exact header_fillable (by omega) (by omega)
  · exact header_fillable (by omega) (by omega)
  · exact header_fillable (by omega) (by omega)
  · exact header_fillable (by omega) (by omega)
  · exact body_fillable (by omega) (by omega)
  · exact body_fillable (by omega) (by omega)
  · exact body_fillable (by omega) (by omega)
  · exact header_fillable (by omega) (by omega)

end FakeDns
