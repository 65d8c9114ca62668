import FakeDns.ByteMemory.Blocks
import FakeDns.AddrInfo.Block

/-! `getaddrinfo_callback`. It allocates one block for each delivered address, links it
behind the previous one and fills it. The step lemmas say what filling one block does; the
run of the loop is an induction on the addresses that are left, and its invariant is that
the block filled last still has NULL in `ai_next`. -/

namespace FakeDns

open ByteMemory Mem

/-- `getaddrinfo_callback_param`. The port is the 16-bit pattern that goes into a socket
address, so it is in network order. -/
structure GetaddrinfoCallbackParam where
  out : ℕ
  port : UInt16
  socktype : UInt32

/-- The body of the loop of `getaddrinfo_callback` after the allocation. -/
def fillNode (harg : GetaddrinfoCallbackParam) (host : Answer) (addr : List UInt8) (data : ℕ) (m : Mem) : Mem :=
  let m := m.strncpy (m.loadPtr (aiCanonname data)) host.hName HLEN
  let m := m.write (m.loadPtr (aiCanonname data) + (HLEN - 1)) [0]
  let m := m.store 4 (aiFamily data) host.hAddrtype.toNat
  let m := m.store 4 (aiSocktype data) harg.socktype.toNat
  let m := m.store 4 (aiProtocol data) 0
  let m := m.store 4 (aiFlags data) 0
  let m := m.store 4 (aiAddrlen data) (host.hLength.toNat + sizeofSaFamily)
  if host.hAddrtype = AF_INET ∧ host.hLength.toNat = sizeofInAddr then
    let sa := m.loadPtr (aiAddr data)
    let m := m.store 2 (sinFamily sa) AF_INET.toNat
    let m := m.store 2 (sinPort sa) harg.port.toNat
    let m := m.write (sinAddr sa) addr
    m.store 4 (aiAddrlen data) sizeofSockaddrIn
  else if host.hAddrtype = AF_INET6 ∧ host.hLength.toNat = sizeofIn6Addr then
    let sa := m.loadPtr (aiAddr data)
    let m := m.store 2 (sin6Family sa) AF_INET6.toNat
    let m := m.store 2 (sin6Port sa) harg.port.toNat
    let m := m.write (sin6Addr sa) addr
    m.store 4 (aiAddrlen data) sizeofSockaddrIn6
  else
    -- `ai_addr` is a pointer to `struct sockaddr`, so the offset counts whole ones
    m.write (m.loadPtr (aiAddr data) + sizeofSaFamily * sizeofSockaddr) addr

/-- The loop of `getaddrinfo_callback` from index `i` on; `malloc i` is the block of the
`i`-th allocation and `data` the block filled last, unset before the first iteration. -/
def callbackLoop (malloc : ℕ → ℕ) (harg : GetaddrinfoCallbackParam) (host : Answer) :
    List (List UInt8) → ℕ → ℕ → World → World
  | [], _, _, w => w
  | addr :: addrs, i, data, w =>
    let w := allocaddrinfo (malloc i) w
    let (data, m) :=
      if i = 0 then (malloc i, w.mem.storePtr harg.out (malloc i))
      else
        let m := w.mem.storePtr (aiNext data) (malloc i)
        (m.loadPtr (aiNext data), m)
    callbackLoop malloc harg host addrs (i + 1) data { w with mem := fillNode harg host addr data m }

/-- `getaddrinfo_callback`. -/
def getaddrinfoCallback (malloc : ℕ → ℕ) (harg : GetaddrinfoCallbackParam) (reply : Reply) (w : World) : World :=
  match reply with
  | .failure _ _ => { w with mem := w.mem.storePtr harg.out 0 }
  | .success host => callbackLoop malloc harg host host.hAddrList 0 0 w

/-! ### One block -/

/-- The node that the callback makes of one address. -/
def GetaddrinfoCallbackParam.nodeInfo (harg : GetaddrinfoCallbackParam) (host : Answer) (addr : List UInt8) :
    NodeInfo :=
  ⟨host.hAddrtype, harg.socktype, harg.port, addr, host.hName⟩

/-- An answer of IPv4 or IPv6 addresses under its own family, as c-ares delivers them. -/
def Answer.Inet (host : Answer) : Prop :=
  (host.hAddrtype = AF_INET ∧ host.hLength = 4) ∨ (host.hAddrtype = AF_INET6 ∧ host.hLength = 16)

instance (host : Answer) : Decidable host.Inet := inferInstanceAs (Decidable (_ ∨ _))

theorem Answer.Inet.nodeInfo {host : Answer} (h : host.Inet) (harg : GetaddrinfoCallbackParam)
    {addr : List UInt8} (ha : addr ∈ host.hAddrList) : (harg.nodeInfo host addr).Inet := by
  have hlen := host.addr_length addr ha
  rcases h with ⟨hf, hl⟩ | ⟨hf, hl⟩ <;> rw [hl] at hlen
  · exact .inl ⟨hf, hlen⟩
  · exact .inr ⟨hf, hlen⟩

theorem Answer.Inet.length_le {host : Answer} (h : host.Inet) : host.hLength.toNat ≤ 1008 := by
  rcases h with ⟨_, hl⟩ | ⟨_, hl⟩ <;> rw [hl] <;> decide

section Fill

variable {m : Mem} {p : ℕ}

/-- The bounded name copy into a block is one padded write. -/
theorem copy_canonname (h : Allocated m p) (name : List UInt8) :
    let m₁ := m.strncpy (m.loadPtr (aiCanonname p)) name HLEN
    m₁.write (m₁.loadPtr (aiCanonname p) + (HLEN - 1)) [0] =
      m.write (p + 64) (padded (name.take 1023) 1024) := by
  have hcanon : (m.strncpy (p + 64) name 1024).loadPtr (aiCanonname p) = p + 64 := by
    rw [strncpy, loadPtr, load_write_apart (by simp only [aiCanonname, length_padded]; omega)]
    exact h.canon
  simp only [HLEN, h.canon, hcanon]
  exact strncpy_terminate (by norm_num)

/-- A word that is stored again after stores elsewhere leaves no trace. -/
theorem store_overwritten {a b c d u v x y : ℕ} {bs : List UInt8} (hb : Apart a 4 b 2) (hc : Apart a 4 c 2)
    (hd : Apart a 4 d bs.length) :
    ((((m.store 4 a u).store 2 b v).store 2 c x).write d bs).store 4 a y =
      (((m.store 2 b v).store 2 c x).write d bs).store 4 a y := by
  rw [store_comm hb, store_comm hc, store_write_comm hd, store_store_same]

/-- Filling an allocated block with an IPv4 or IPv6 address stamps the node. -/
theorem fillNode_eq_stamp (h : Allocated m p) (harg : GetaddrinfoCallbackParam) (host : Answer)
    {addr : List UInt8} (ha : addr ∈ host.hAddrList) (hn : (harg.nodeInfo host addr).Inet) :
    fillNode harg host addr p m = stamp m p (harg.nodeInfo host addr) := by
  have hlen := host.addr_length addr ha
  have hpad := length_padded (host.hName.take 1023) 1024
  have hsa := h.addr
  simp only [aiAddr] at hsa
  unfold fillNode stamp
  simp only [copy_canonname h, aiFamily, aiSocktype, aiProtocol, aiFlags, aiAddrlen, aiAddr]
  simp (disch := omega) only [load_store_apart, load_write_apart, hsa]
  rcases hn with ⟨hf, hl⟩ | ⟨hf, hl⟩
  · obtain ⟨hoff, hlen'⟩ := NodeInfo.layout_inet hf
    rw [hoff, hlen']
    simp only [GetaddrinfoCallbackParam.nodeInfo] at hf hl ⊢
    rw [if_pos ⟨hf, by rw [← hlen, hl, sizeofInAddr]⟩, hf]
    simp only [sinFamily, sinPort, sinAddr, sizeofSockaddrIn]
    rw [store_overwritten (by omega) (by omega) (by omega)]
  · obtain ⟨hoff, hlen'⟩ := NodeInfo.layout_inet6 hf
    rw [hoff, hlen']
    simp only [GetaddrinfoCallbackParam.nodeInfo] at hf hl ⊢
    have hne : host.hAddrtype ≠ AF_INET := by rw [hf]; decide
    rw [if_neg (fun hc => hne hc.1), if_pos ⟨hf, by rw [← hlen, hl, sizeofIn6Addr]⟩, hf]
    simp only [sin6Family, sin6Port, sin6Addr, sizeofSockaddrIn6]
    rw [store_overwritten (by omega) (by omega) (by omega)]

/-- Filling a block stays inside it and off its pointers, whatever the address family. -/
theorem fillNode_frame (h : Allocated m p) (harg : GetaddrinfoCallbackParam) (host : Answer)
    (addr : List UInt8) (ha : addr.length ≤ 1008) : Frame (fillable p) m (fillNode harg host addr p m) := by
  have hpad := length_padded (host.hName.take 1023) 1024
  have hsa := h.addr
  simp only [aiAddr] at hsa
  unfold fillNode
  simp only [copy_canonname h, aiFamily, aiSocktype, aiProtocol, aiFlags, aiAddrlen, aiAddr]
  simp (disch := omega) only [load_store_apart, load_write_apart, hsa]
  have hheader : Frame (fillable p) m
      (((((m.write (p + 64) (padded (host.hName.take 1023) 1024)).store 4 (p + 4) host.hAddrtype.toNat).store 4
        (p + 8) harg.socktype.toNat).store 4 (p + 12) 0).store 4 p 0) := by
    refine Frame.store_of (Frame.store_of (Frame.store_of (Frame.store_of
      ((Frame.write m _ _).mono (body_fillable (by omega) (by omega))) ?_) ?_) ?_) ?_ <;>
    exact header_fillable (by omega) (by omega)
  have hlength := hheader.store_of (w := 4) (a := p + 16) (v := host.hLength.toNat + sizeofSaFamily)
    (header_fillable (by omega) (by omega))
  split
  · rename_i hif
    simp only [sinFamily, sinPort, sinAddr]
    exact Frame.store_of (Frame.write_of (Frame.store_of (Frame.store_of hlength
      (body_fillable (by omega) (by omega))) (body_fillable (by omega) (by omega))) (body_fillable (by omega) (by omega)))
      (header_fillable (by omega) (by omega))
  · split
    · simp only [sin6Family, sin6Port, sin6Addr]
      exact Frame.store_of (Frame.write_of (Frame.store_of (Frame.store_of hlength
        (body_fillable (by omega) (by omega))) (body_fillable (by omega) (by omega))) (body_fillable (by omega) (by omega)))
        (header_fillable (by omega) (by omega))
    · simp only [sizeofSaFamily, sizeofSockaddr]
      exact Frame.write_of hlength (body_fillable (by omega) (by omega))

end Fill

/-! ### The loop -/

/-- The first `n` blocks of an allocator are separate objects. -/
structure Blocks (malloc : ℕ → ℕ) (n : ℕ) : Prop where
  object : ∀ k < n, 0 < malloc k ∧ malloc k + 1088 ≤ 2 ^ 64
  apart : ∀ j k, j < k → k < n → Apart (malloc j) 1088 (malloc k) 1088

theorem Blocks.separate {malloc : ℕ → ℕ} {n : ℕ} (h : Blocks malloc n) :
    Separate 1088 ((List.range n).map malloc) := by
  rw [Separate, List.pairwise_map]
  apply List.pairwise_lt_range.imp_of_mem
  intro j k _ hk hjk
  exact h.apart j k hjk (List.mem_range.mp hk)

/-- The bytes of the blocks from `i` up to `n`. -/
def blocksFrom (malloc : ℕ → ℕ) (i n : ℕ) : Set ℕ := {j | ∃ k, i ≤ k ∧ k < n ∧ j ∈ span (malloc k) 1088}

theorem block_subset_blocksFrom {malloc : ℕ → ℕ} {i k n : ℕ} (h₁ : i ≤ k) (h₂ : k < n) :
    span (malloc k) 1088 ⊆ blocksFrom malloc i n := fun _ hj => ⟨k, h₁, h₂, hj⟩

theorem blocksFrom_mono {malloc : ℕ → ℕ} {i j n : ℕ} (h : i ≤ j) : blocksFrom malloc j n ⊆ blocksFrom malloc i n := by
  rintro x ⟨k, h₁, h₂, hx⟩
  exact ⟨k, h.trans h₁, h₂, hx⟩

/-- A pointer apart from every block from `i` on. -/
theorem disjoint_blocksFrom {malloc : ℕ → ℕ} {a i n : ℕ}
    (h : ∀ k, i ≤ k → k < n → Apart a 8 (malloc k) 1088) : Disjoint (span a 8) (blocksFrom malloc i n) := by
  rw [Set.disjoint_left]
  rintro x hx ⟨k, hk, hkn, hxk⟩
  exact Set.disjoint_left.mp (disjoint_span (h k hk hkn)) hx hxk

/-- What the loop writes behind block `i`: its `ai_next` and the later blocks. -/
theorem later_subset_blocksFrom (malloc : ℕ → ℕ) {i n : ℕ} (hi : i < n) :
    span (aiNext (malloc i)) 8 ∪ blocksFrom malloc (i + 1) n ⊆ blocksFrom malloc i n :=
  Set.union_subset ((aiNext_subset_block _).trans (block_subset_blocksFrom le_rfl hi))
    (blocksFrom_mono (Nat.le_succ i))

/-- The node in block `i` is out of its reach. -/
theorem Blocks.node_disjoint_later {malloc : ℕ → ℕ} {n : ℕ} (h : Blocks malloc n) (i : ℕ) :
    Disjoint (nodeBytes (malloc i)) (span (aiNext (malloc i)) 8 ∪ blocksFrom malloc (i + 1) n) := by
  refine Set.disjoint_union_right.mpr ⟨?_, ?_⟩
  · simp only [nodeBytes, aiNext, Set.disjoint_union_left]
    exact ⟨disjoint_span (by omega), disjoint_span (by omega)⟩
  · rw [Set.disjoint_left]
    rintro x hx ⟨j, hij, hjn, hxj⟩
    have hblock := nodeBytes_subset_block _ hx
    exact Set.disjoint_left.mp (disjoint_span (h.apart i j hij hjn)) hblock hxj

section Loop

variable {malloc : ℕ → ℕ} {n : ℕ}

/-- Where the pointer to block `i` goes: to `*out`, or to `ai_next` of the last block. -/
def linkOf (harg : GetaddrinfoCallbackParam) (i data : ℕ) : ℕ := if i = 0 then harg.out else aiNext data

/-- One iteration: the new block is linked behind the last one and filled. -/
theorem callbackLoop_step (hB : Blocks malloc n) (harg : GetaddrinfoCallbackParam) {host : Answer}
    (hlen : host.hLength.toNat ≤ 1008) {addr : List UInt8} (ha : addr ∈ host.hAddrList)
    (addrs : List (List UInt8)) (i data : ℕ) (hi : i < n)
    (hap : Apart (linkOf harg i data) 8 (malloc i) 1088) (w : World) :
    ∃ w₁ : World, callbackLoop malloc harg host (addr :: addrs) i data w =
        callbackLoop malloc harg host addrs (i + 1) (malloc i) w₁ ∧
      w₁.live = malloc i :: w.live ∧ w₁.aresInitDone = w.aresInitDone ∧
      w₁.mem.loadPtr (linkOf harg i data) = malloc i ∧ w₁.mem.loadPtr (aiNext (malloc i)) = 0 ∧
      Frame (span (linkOf harg i data) 8 ∪ span (malloc i) 1088) w.mem w₁.mem ∧
      ((harg.nodeInfo host addr).Inet → Node w₁.mem (malloc i) (harg.nodeInfo host addr)) := by
  obtain ⟨hpos, hmax⟩ := hB.object i hi
  set p := malloc i with hp
  set link := linkOf harg i data with hl
  have hall := allocaddrinfo_allocated ⟨hpos, hmax⟩ w
  have hfall := allocaddrinfo_frame p w
  set m₁ := (allocaddrinfo p w).mem.storePtr link p with hm₁
  have hflink : Frame (span link 8) (allocaddrinfo p w).mem m₁ := Frame.store _ 8 _ _
  have hall₁ : Allocated m₁ p := hall.frame hflink (disjoint_span (by omega))
  have hlink : m₁.loadPtr link = p := load_store_of_lt (by omega)
  have hffill := fillNode_frame hall₁ harg host addr (by rw [host.addr_length addr ha]; exact hlen)
  have hkeep : Disjoint (span link 8) (fillable p) :=
    (disjoint_span (by omega)).mono_right (fillable_subset_block p)
  refine ⟨{ allocaddrinfo p w with mem := fillNode harg host addr p m₁ }, ?_, rfl, rfl, ?_, ?_, ?_, ?_⟩
  · rw [callbackLoop]
    by_cases h0 : i = 0
    · rw [linkOf, if_pos h0] at hl
      simp only [h0, ↓reduceIte, ← hl]
      rw [← h0, ← hp]
    · rw [linkOf, if_neg h0] at hl
      simp only [h0, ↓reduceIte, ← hl, ← hp, ← hm₁, hlink]
  · exact (hffill.load hkeep).trans hlink
  · exact (hffill.load (aiNext_fillable p)).trans hall₁.next
  · exact ((hfall.mono Set.subset_union_right).trans (hflink.mono Set.subset_union_left)).trans
      (hffill.mono ((fillable_subset_block p).trans Set.subset_union_right))
  · intro hn
    simp only [fillNode_eq_stamp hall₁ harg host ha hn]
    exact stamp_node hall₁ hn

/-- The run of the loop from index `i` on: the remaining addresses become a list hanging off
the link of block `i`, every node of it made of its own address. -/
theorem callbackLoop_run (hB : Blocks malloc n) (harg : GetaddrinfoCallbackParam) {host : Answer}
    (hlen : host.hLength.toNat ≤ 1008) (addrs : List (List UInt8)) : ∀ (i data : ℕ) (w : World),
      (∀ a ∈ addrs, a ∈ host.hAddrList) → i + addrs.length = n →
      (∀ k, i ≤ k → k < n → Apart (linkOf harg i data) 8 (malloc k) 1088) →
      (addrs = [] → w.mem.loadPtr (linkOf harg i data) = 0) →
      ∃ w' : World, callbackLoop malloc harg host addrs i data w = w' ∧
        w'.live = ((List.range' i addrs.length).map malloc).reverse ++ w.live ∧
        w'.aresInitDone = w.aresInitDone ∧
        Chain w'.mem 40 (w'.mem.loadPtr (linkOf harg i data)) ((List.range' i addrs.length).map malloc) ∧
        Frame (span (linkOf harg i data) 8 ∪ blocksFrom malloc i n) w.mem w'.mem ∧
        ∀ t (h : t < addrs.length), (harg.nodeInfo host addrs[t]).Inet →
          Node w'.mem (malloc (i + t)) (harg.nodeInfo host addrs[t]) := by
  induction addrs with
  | nil =>
    intro i data w _ _ _ hz
    exact ⟨w, rfl, rfl, rfl, hz rfl, Frame.refl _ _, fun t h => absurd h (by simp)⟩
  | cons addr addrs ih =>
    intro i data w hmem hn hap _
    rw [List.length_cons] at hn
    have hi : i < n := by omega
    obtain ⟨w₁, hstep, hlive, hinit, hlink, hnext, hframe, hnode⟩ :=
      callbackLoop_step hB harg hlen (hmem addr List.mem_cons_self) addrs i data hi (hap i le_rfl hi) w
    -- the next link is `ai_next` of this block, still NULL
    have hlinkOf : linkOf harg (i + 1) (malloc i) = aiNext (malloc i) := if_neg (Nat.succ_ne_zero i)
    have hapart : ∀ k, i + 1 ≤ k → k < n → Apart (linkOf harg (i + 1) (malloc i)) 8 (malloc k) 1088 := by
      intro k hk hkn
      have := hB.apart i k hk hkn
      rw [hlinkOf, aiNext]
      omega
    have hnull : addrs = [] → w₁.mem.loadPtr (linkOf harg (i + 1) (malloc i)) = 0 := by
      rw [hlinkOf]
      exact fun _ => hnext
    obtain ⟨w', hrun, hlive', hinit', hchain, hframe', hnodes⟩ :=
      ih (i + 1) (malloc i) w₁ (fun a ha => hmem a (List.mem_cons_of_mem _ ha)) (by omega) hapart hnull
    rw [hlinkOf] at hchain hframe'
    generalize linkOf harg i data = link at hap hlink hframe ⊢
    have hlater := later_subset_blocksFrom malloc hi
    have hlink' : w'.mem.loadPtr link = malloc i :=
      (hframe'.load ((disjoint_blocksFrom hap).mono_right hlater)).trans hlink
    refine ⟨w', hstep.trans hrun, ?_, hinit'.trans hinit, ?_, ?_, ?_⟩
    · rw [hlive', hlive, List.length_cons, List.range'_succ, List.map_cons, List.reverse_cons,
        List.append_assoc, List.singleton_append]
    · rw [hlink', List.length_cons, List.range'_succ, List.map_cons, Chain.cons_iff]
      exact ⟨rfl, (hB.object i hi).1.ne', hchain⟩
    · have hblock : span (malloc i) 1088 ⊆ blocksFrom malloc i n := block_subset_blocksFrom le_rfl hi
      exact (hframe.mono (Set.union_subset_union le_rfl hblock)).trans
        (hframe'.mono (hlater.trans Set.subset_union_right))
    · intro t ht hinet
      cases t with
      | zero => exact (hnode hinet).frame hframe' (hB.node_disjoint_later i)
      | succ t =>
        have h := hnodes t (by simpa using ht) hinet
        rwa [show i + 1 + t = i + (t + 1) by omega] at h

/-- A successful callback with at least one address: `*out` is the head of one node for
each address, in order, and nothing but `*out` and the new blocks has changed. -/
theorem getaddrinfoCallback_success (hB : Blocks malloc n) (harg : GetaddrinfoCallbackParam) {host : Answer}
    (hlen : host.hLength.toNat ≤ 1008) (hn : host.hAddrList.length = n) (hpos : 0 < n)
    (hout : ∀ k < n, Apart harg.out 8 (malloc k) 1088) (w : World) :
    ∃ w' : World, getaddrinfoCallback malloc harg (.success host) w = w' ∧
      w'.live = ((List.range n).map malloc).reverse ++ w.live ∧ w'.aresInitDone = w.aresInitDone ∧
      Chain w'.mem 40 (w'.mem.loadPtr harg.out) ((List.range n).map malloc) ∧
      Frame (span harg.out 8 ∪ blocksFrom malloc 0 n) w.mem w'.mem ∧
      ∀ t (h : t < host.hAddrList.length), (harg.nodeInfo host host.hAddrList[t]).Inet →
        Node w'.mem (malloc t) (harg.nodeInfo host host.hAddrList[t]) := by
  have hne : host.hAddrList ≠ [] := List.length_pos_iff.mp (hn ▸ hpos)
  have hrun := callbackLoop_run hB harg hlen host.hAddrList 0 0 w (fun _ ha => ha) (by omega)
    (fun k _ hk => hout k hk) (fun h => absurd h hne)
  have hlinkOf : linkOf harg 0 0 = harg.out := if_pos rfl
  simpa only [getaddrinfoCallback, hlinkOf, hn, ← List.range_eq_range', Nat.zero_add] using hrun

end Loop

end FakeDns
