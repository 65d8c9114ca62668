import FakeDns.AddrInfo.Service
import FakeDns.Hostent.Callback

/-! `getaddrinfo`. A numeric name is answered by one node that the function fills itself;
any other name goes to the resolver and is answered by the callback. What the call is
about is the list `Env.nodeInfos`: one entry for each node it should build. A call with a
non-empty list builds exactly these nodes; the two theorems at the end say what any call
does to the caller's variable and what it returns. -/

namespace FakeDns

open ByteMemory Mem

/-- The code that `getaddrinfo` calls: the services database and `inet_pton` of the C
library, the resolver behind the call, and the blocks that `malloc` returns to it. -/
structure Env where
  services : List Servent
  inetPton4 : List UInt8 → Option (List UInt8)
  inetPton6 : List UInt8 → Option (List UInt8)
  ares : Ares
  malloc : ℕ → ℕ
  pton4_length : ∀ name ip4, inetPton4 name = some ip4 → ip4.length = sizeofInAddr
  pton6_length : ∀ name ip6, inetPton6 name = some ip6 → ip6.length = sizeofIn6Addr

/-- The branch of `getaddrinfo` for an IPv4 literal. -/
def inetLiteral (harg : GetaddrinfoCallbackParam) (name ip4 : List UInt8) (data : ℕ) (w : World) : World :=
  let w := allocaddrinfo data w
  let addr := w.mem.loadPtr (aiAddr data)
  let m := w.mem.storePtr harg.out data
  let m := m.strncpy (m.loadPtr (aiCanonname data)) name HLEN
  let m := m.write (m.loadPtr (aiCanonname data) + (HLEN - 1)) [0]
  let m := m.store 4 (aiFamily data) AF_INET.toNat
  let m := m.store 4 (aiSocktype data) harg.socktype.toNat
  let m := m.store 4 (aiProtocol data) 0
  let m := m.store 4 (aiFlags data) 0
  let m := m.store 2 (sinFamily addr) AF_INET.toNat
  let m := m.store 2 (sinPort addr) harg.port.toNat
  let m := m.write (sinAddr addr) ip4
  let m := m.store 4 (aiAddrlen data) sizeofSockaddrIn
  { w with mem := m }

/-- The branch of `getaddrinfo` for an IPv6 literal. -/
def inet6Literal (harg : GetaddrinfoCallbackParam) (name ip6 : List UInt8) (data : ℕ) (w : World) : World :=
  let w := allocaddrinfo data w
  let addr := w.mem.loadPtr (aiAddr data)
  let m := w.mem.storePtr harg.out data
  let m := m.strncpy (m.loadPtr (aiCanonname data)) name HLEN
  let m := m.write (m.loadPtr (aiCanonname data) + (HLEN - 1)) [0]
  let m := m.store 4 (aiFamily data) AF_INET6.toNat
  let m := m.store 4 (aiSocktype data) harg.socktype.toNat
  let m := m.store 4 (aiProtocol data) 0
  let m := m.store 4 (aiFlags data) 0
  let m := m.store 2 (sin6Family addr) AF_INET6.toNat
  let m := m.store 2 (sin6Port addr) harg.port.toNat
  let m := m.write (sin6Addr addr) ip6
  let m := m.store 4 (aiAddrlen data) sizeofSockaddrIn6
  { w with mem := m }

/-- The address family of the query. -/
def queryFamily (req : Option Hints) : UInt32 :=
  match req with
  | some r => if r.aiFamily ≠ 0 then r.aiFamily else AF_INET
  | none => AF_INET

/-- `getaddrinfo`; `pai` is the address of the caller's variable. -/
def getaddrinfo (st : Statics) (env : Env) (name : List UInt8) (service : Option (List UInt8))
    (req : Option Hints) (pai : ℕ) (w : World) : Int × World :=
  let harg := getaddrinfoParam env.services service req pai
  match env.inetPton4 name with
  | some ip4 => (0, inetLiteral harg name ip4 (env.malloc 0) w)
  | none =>
    match env.inetPton6 name with
    | some ip6 => (0, inet6Literal harg name ip6 (env.malloc 0) w)
    | none =>
      let w := aresInit st w
      let w := getaddrinfoCallback env.malloc harg (env.ares.gethostbyname name (queryFamily req)) w
      -- success is judged by the caller's variable
      if w.mem.loadPtr harg.out = 0 then (EAI_FAIL, w) else (0, w)

/-! ### What a call is about -/

namespace Env

/-- The resolver's reply to the query of the call. -/
def reply (env : Env) (name : List UInt8) (req : Option Hints) : Reply :=
  env.ares.gethostbyname name (queryFamily req)

/-- `inet_pton` accepts the name. -/
def Numeric (env : Env) (name : List UInt8) : Prop :=
  (env.inetPton4 name).isSome = true ∨ (env.inetPton6 name).isSome = true

instance (env : Env) (name : List UInt8) : Decidable (env.Numeric name) :=
  inferInstanceAs (Decidable (_ ∨ _))

theorem pton_eq_none {env : Env} {name : List UInt8} (h : ¬ env.Numeric name) :
    env.inetPton4 name = none ∧ env.inetPton6 name = none := by
  obtain ⟨h4, h6⟩ := not_or.mp h
  exact ⟨Option.not_isSome_iff_eq_none.mp h4, Option.not_isSome_iff_eq_none.mp h6⟩

/-- The nodes that a call is about, in order. -/
def nodeInfos (env : Env) (harg : GetaddrinfoCallbackParam) (name : List UInt8) (req : Option Hints) :
    List NodeInfo :=
  match env.inetPton4 name with
  | some ip4 => [⟨AF_INET, harg.socktype, harg.port, ip4, name⟩]
  | none =>
    match env.inetPton6 name with
    | some ip6 => [⟨AF_INET6, harg.socktype, harg.port, ip6, name⟩]
    | none =>
      match env.reply name req with
      | .success host => host.hAddrList.map (harg.nodeInfo host)
      | .failure _ _ => []

/-- The number of blocks a call allocates. -/
def blockCount (env : Env) (name : List UInt8) (req : Option Hints) : ℕ :=
  match env.inetPton4 name with
  | some _ => 1
  | none =>
    match env.inetPton6 name with
    | some _ => 1
    | none =>
      match env.reply name req with
      | .success host => host.hAddrList.length
      | .failure _ _ => 0

theorem length_nodeInfos (env : Env) (harg : GetaddrinfoCallbackParam) (name : List UInt8)
    (req : Option Hints) : (env.nodeInfos harg name req).length = env.blockCount name req := by
  unfold nodeInfos blockCount
  cases env.inetPton4 name with
  | some ip4 => rfl
  | none =>
    cases env.inetPton6 name with
    | some ip6 => rfl
    | none => cases env.reply name req <;> simp

/-- A node is about an IPv4 literal, an IPv6 literal, or an address of the answer. -/
theorem mem_nodeInfos (env : Env) {harg : GetaddrinfoCallbackParam} {name : List UInt8} {req : Option Hints}
    {n : NodeInfo} (hn : n ∈ env.nodeInfos harg name req) :
    (∃ ip4, env.inetPton4 name = some ip4 ∧ n = ⟨AF_INET, harg.socktype, harg.port, ip4, name⟩) ∨
      (∃ ip6, env.inetPton6 name = some ip6 ∧ n = ⟨AF_INET6, harg.socktype, harg.port, ip6, name⟩) ∨
      ∃ host addr, env.reply name req = .success host ∧ addr ∈ host.hAddrList ∧ n = harg.nodeInfo host addr := by
  unfold nodeInfos at hn
  cases h4 : env.inetPton4 name with
  | some ip4 =>
    rw [h4] at hn
    exact .inl ⟨ip4, rfl, List.mem_singleton.mp hn⟩
  | none =>
    cases h6 : env.inetPton6 name with
    | some ip6 =>
      rw [h4, h6] at hn
      exact .inr (.inl ⟨ip6, rfl, List.mem_singleton.mp hn⟩)
    | none =>
      rw [h4, h6] at hn
      cases hrep : env.reply name req with
      | failure status hs => simp [hrep] at hn
      | success host =>
        rw [hrep] at hn
        obtain ⟨addr, ha, rfl⟩ := List.mem_map.mp hn
        exact .inr (.inr ⟨host, addr, rfl, ha, rfl⟩)

/-- What holds when the call starts: the blocks that `malloc` will return are separate
objects that nobody owns, the caller's variable is apart from them and from the static
hostent, and the resolver's addresses fit a block. -/
structure Ready (env : Env) (st : Statics) (name : List UInt8) (req : Option Hints) (pai : ℕ) (w : World) :
    Prop where
  blocks : Blocks env.malloc (env.blockCount name req)
  fresh : ∀ k < env.blockCount name req, env.malloc k ∉ w.live
  pai_blocks : ∀ k < env.blockCount name req, Apart pai 8 (env.malloc k) 1088
  pai_he : Apart pai 8 st.he 32
  fits : ∀ host, env.reply name req = .success host → host.hLength.toNat ≤ 1008

/-- A symbolic name whose lookup succeeds without an address. -/
def WithoutAddress (env : Env) (name : List UInt8) (req : Option Hints) : Prop :=
  ¬ env.Numeric name ∧ ∃ host, env.reply name req = .success host ∧ host.hAddrList = []

/-- A call is about some node, or its lookup fails, or succeeds without an address. -/
theorem cases_call (env : Env) (name : List UInt8) (req : Option Hints) :
    0 < env.blockCount name req ∨
      (¬ env.Numeric name ∧ ∃ status hs, env.reply name req = .failure status hs) ∨
      env.WithoutAddress name req := by
  unfold blockCount WithoutAddress Numeric
  cases env.inetPton4 name with
  | some ip4 => simp
  | none =>
    cases env.inetPton6 name with
    | some ip6 => simp
    | none =>
      cases env.reply name req with
      | failure status hs => exact .inr (.inl ⟨by simp, status, hs, rfl⟩)
      | success host =>
        rcases Nat.eq_zero_or_pos host.hAddrList.length with h | h
        · exact .inr (.inr ⟨by simp, host, rfl, List.length_eq_zero_iff.mp h⟩)
        · exact .inl h

theorem WithoutAddress.blockCount {env : Env} {name : List UInt8} {req : Option Hints}
    (h : env.WithoutAddress name req) : env.blockCount name req = 0 := by
  obtain ⟨hnum, host, hrep, hempty⟩ := h
  obtain ⟨h4, h6⟩ := Env.pton_eq_none hnum
  simp [Env.blockCount, h4, h6, hrep, hempty]

theorem not_withoutAddress_of_pos {env : Env} {name : List UInt8} {req : Option Hints}
    (h : 0 < env.blockCount name req) : ¬ env.WithoutAddress name req := fun hw => h.ne' hw.blockCount

theorem not_withoutAddress_of_failure {env : Env} {name : List UInt8} {req : Option Hints} {status : UInt32}
    {hs : status ≠ ARES_SUCCESS} (h : env.reply name req = .failure status hs) :
    ¬ env.WithoutAddress name req := by
  rintro ⟨_, host, hrep, _⟩
  rw [h] at hrep
  cases hrep

/-- The services database plays no part in what a call needs. -/
theorem Ready.withServices {env : Env} {st : Statics} {name : List UInt8} {req : Option Hints} {pai : ℕ}
    {w : World} (h : env.Ready st name req pai w) (services : List Servent) :
    ({ env with services := services } : Env).Ready st name req pai w :=
  ⟨h.blocks, h.fresh, h.pai_blocks, h.pai_he, h.fits⟩

/-- "10.0.0.1" -/
def dotted : List UInt8 := [49, 48, 46, 48, 46, 48, 46, 49]

/-- "::1" -/
def loopback : List UInt8 := [58, 58, 49]

/-- A C library that knows two numeric names and no services, and a resolver that gives one
reply to every query. -/
def sample (reply : Reply) : Env where
  services := []
  inetPton4 name := if name = dotted then some [10, 0, 0, 1] else none
  inetPton6 name := if name = loopback then some (List.replicate 15 0 ++ [1]) else none
  ares := .always reply
  malloc k := 0x100000 + 0x1000 * k
  pton4_length name ip4 h := by
    obtain ⟨_, ⟨⟩⟩ := Option.ite_none_right_eq_some.mp h
    rfl
  pton6_length name ip6 h := by
    obtain ⟨_, ⟨⟩⟩ := Option.ite_none_right_eq_some.mp h
    rfl

theorem sample_ready_of {name : List UInt8} {req : Option Hints} {reply : Reply}
    (hn : (sample reply).blockCount name req ≤ 256)
    (hfits : ∀ host, reply = .success host → host.hLength.toNat ≤ 1008) (w : World) (hlive : w.live = []) :
    (sample reply).Ready .sample name req 0x6000 w := by
  refine ⟨⟨fun k hk => ?_, fun j k hj hk => ?_⟩, fun k _ => ?_, fun k hk => ?_, by decide, hfits⟩
  · simp only [sample]
    omega
  · simp only [sample]
    omega
  · simp [hlive]
  · simp only [sample]
    omega

theorem sample_ready (name : List UInt8) (host : Answer)
    (hn : (sample (.success host)).blockCount name none ≤ 256) (hlen : host.hLength.toNat ≤ 1008)
    (w : World) (hlive : w.live = []) : (sample (.success host)).Ready .sample name none 0x6000 w :=
  sample_ready_of hn (fun _ hh => Reply.success.inj hh ▸ hlen) w hlive

theorem sample_inet {name : List UInt8} {req : Option Hints} :
    ∀ host, (sample (.success .sample)).reply name req = .success host → host.Inet := by
  intro host hh
  obtain rfl := Reply.success.inj hh
  decide

end Env

/-! ### The numeric branches -/

section Literals

variable {p : ℕ} (harg : GetaddrinfoCallbackParam) (name : List UInt8) (w : World)

/-- A numeric branch links and stamps its one block. -/
theorem inetLiteral_eq (h : 0 < p ∧ p + 1088 ≤ 2 ^ 64) (hout : Apart harg.out 8 p 1088) (ip4 : List UInt8) :
    Allocated ((allocaddrinfo p w).mem.storePtr harg.out p) p ∧
      inetLiteral harg name ip4 p w = { allocaddrinfo p w with
        mem := stamp ((allocaddrinfo p w).mem.storePtr harg.out p) p
          ⟨AF_INET, harg.socktype, harg.port, ip4, name⟩ } := by
  have hall := allocaddrinfo_allocated h w
  have hall₁ : Allocated ((allocaddrinfo p w).mem.storePtr harg.out p) p :=
    hall.frame (Frame.store _ 8 _ _) (disjoint_span (by omega))
  refine ⟨hall₁, ?_⟩
  have hlay := NodeInfo.layout_inet (n := ⟨AF_INET, harg.socktype, harg.port, ip4, name⟩) rfl
  simp only [inetLiteral, copy_canonname hall₁, hall.addr, stamp, hlay.1, hlay.2, aiFamily, aiSocktype,
    aiProtocol, aiFlags, aiAddrlen, sinFamily, sinPort, sinAddr, sizeofSockaddrIn, Nat.add_assoc,
    Nat.reduceAdd]

theorem inet6Literal_eq (h : 0 < p ∧ p + 1088 ≤ 2 ^ 64) (hout : Apart harg.out 8 p 1088) (ip6 : List UInt8) :
    Allocated ((allocaddrinfo p w).mem.storePtr harg.out p) p ∧
      inet6Literal harg name ip6 p w = { allocaddrinfo p w with
        mem := stamp ((allocaddrinfo p w).mem.storePtr harg.out p) p
          ⟨AF_INET6, harg.socktype, harg.port, ip6, name⟩ } := by
  have hall := allocaddrinfo_allocated h w
  have hall₁ : Allocated ((allocaddrinfo p w).mem.storePtr harg.out p) p :=
    hall.frame (Frame.store _ 8 _ _) (disjoint_span (by omega))
  refine ⟨hall₁, ?_⟩
  have hlay := NodeInfo.layout_inet6 (n := ⟨AF_INET6, harg.socktype, harg.port, ip6, name⟩) rfl
  simp only [inet6Literal, copy_canonname hall₁, hall.addr, stamp, hlay.1, hlay.2, aiFamily, aiSocktype,
    aiProtocol, aiFlags, aiAddrlen, sin6Family, sin6Port, sin6Addr, sizeofSockaddrIn6, Nat.add_assoc,
    Nat.reduceAdd]

end Literals

/-! ### Any call -/

/-- The call has built its nodes: `*pai` is the head of the new blocks, in the order of
their allocation, and every block is the node it should be. -/
structure Builds (env : Env) (harg : GetaddrinfoCallbackParam) (name : List UInt8) (req : Option Hints)
    (w w' : World) : Prop where
  live : w'.live = ((List.range (env.blockCount name req)).map env.malloc).reverse ++ w.live
  chain : Chain w'.mem 40 (w'.mem.loadPtr harg.out) ((List.range (env.blockCount name req)).map env.malloc)
  nodes : ∀ t (h : t < (env.nodeInfos harg name req).length), (env.nodeInfos harg name req)[t].Inet →
    Node w'.mem (env.malloc t) (env.nodeInfos harg name req)[t]

/-- One linked and stamped block is a list of one node. -/
theorem stamped_chain {p out : ℕ} {m : Mem} (hall : Allocated m p) (hout : Apart out 8 p 1088)
    (hlink : m.loadPtr out = p) {n : NodeInfo} (hn : n.Inet) :
    Chain (stamp m p n) 40 ((stamp m p n).loadPtr out) [p] := by
  have hframe := stamp_frame m p hn
  have hkeep : Disjoint (span out 8) (fillable p) :=
    (disjoint_span hout).mono_right (fillable_subset_block p)
  have hhead : (stamp m p n).loadPtr out = p := (hframe.load hkeep).trans hlink
  rw [hhead, Chain.cons_iff]
  exact ⟨rfl, hall.object.1.ne', (hframe.load (aiNext_fillable p)).trans hall.next⟩

/-- Allocating, linking and stamping a block changes the link and the block. -/
theorem stamped_frame (p out : ℕ) {n : NodeInfo} (hn : n.Inet) (w : World) :
    Frame (span out 8 ∪ span p 1088) w.mem (stamp ((allocaddrinfo p w).mem.storePtr out p) p n) := by
  have halloc := (allocaddrinfo_frame p w).mono (Set.subset_union_right (s := span out 8))
  have hlink := halloc.store_of (w := 8) (a := out) (v := p) Set.subset_union_left
  exact hlink.trans ((stamp_frame _ p hn).mono ((fillable_subset_block p).trans Set.subset_union_right))

/-- The bytes a call may change: the static hostent, the caller's variable and the blocks it
allocates. -/
def touched (st : Statics) (env : Env) (name : List UInt8) (req : Option Hints) (pai : ℕ) : Set ℕ :=
  span st.he 32 ∪ (span pai 8 ∪ blocksFrom env.malloc 0 (env.blockCount name req))

section

variable {st : Statics} {env : Env} {name : List UInt8} {req : Option Hints} {pai : ℕ} {w : World}

theorem Env.block_touched (hcount : env.blockCount name req = 1) (out : ℕ) :
    span out 8 ∪ span (env.malloc 0) 1088 ⊆ touched st env name req out := by
  rw [touched, hcount]
  exact (Set.union_subset_union le_rfl (block_subset_blocksFrom le_rfl zero_lt_one)).trans
    Set.subset_union_right

/-- A call that is about one node builds it by stamping a linked block. -/
theorem Builds.of_stamp {harg : GetaddrinfoCallbackParam} {m : Mem} {n : NodeInfo}
    (hcount : env.blockCount name req = 1) (hinfos : env.nodeInfos harg name req = [n]) (hn : n.Inet)
    (hall : Allocated m (env.malloc 0)) (hout : Apart harg.out 8 (env.malloc 0) 1088)
    (hlink : m.loadPtr harg.out = env.malloc 0) :
    Builds env harg name req w
      { allocaddrinfo (env.malloc 0) w with mem := stamp m (env.malloc 0) n } := by
  refine ⟨?_, ?_, ?_⟩
  · rw [hcount]
    rfl
  · rw [hcount]
    exact stamped_chain hall hout hlink hn
  · rw [hinfos]
    intro t ht _
    obtain rfl : t = 0 := by simpa using ht
    exact stamp_node hall hn

/-- A call that is about at least one node returns 0, builds its nodes and touches nothing
else. -/
theorem getaddrinfo_builds_frame (hr : env.Ready st name req pai w) (service : Option (List UInt8))
    (hpos : 0 < env.blockCount name req) :
    ∃ w', getaddrinfo st env name service req pai w = (0, w') ∧
      Builds env (getaddrinfoParam env.services service req pai) name req w w' ∧
      Frame (touched st env name req pai) w.mem w'.mem := by
  have hout := getaddrinfoParam_out env.services service req pai
  unfold getaddrinfo
  generalize getaddrinfoParam env.services service req pai = harg at hout ⊢
  dsimp only
  have hblocks := hr.blocks
  have hpai := hr.pai_blocks
  rw [← hout] at hpai ⊢
  cases h4 : env.inetPton4 name with
  | some ip4 =>
    have hcount : env.blockCount name req = 1 := by simp [Env.blockCount, h4]
    have hinfos : env.nodeInfos harg name req = [⟨AF_INET, harg.socktype, harg.port, ip4, name⟩] := by
      simp [Env.nodeInfos, h4]
    have hn : NodeInfo.Inet ⟨AF_INET, harg.socktype, harg.port, ip4, name⟩ :=
      .inl ⟨rfl, env.pton4_length name ip4 h4⟩
    rw [hcount] at hblocks hpai
    have hobj := hblocks.object 0 zero_lt_one
    have hap := hpai 0 zero_lt_one
    obtain ⟨hall, heq⟩ := inetLiteral_eq harg name w hobj hap ip4
    refine ⟨_, rfl, ?_⟩
    rw [heq]
    exact ⟨.of_stamp hcount hinfos hn hall hap (load_store_of_lt (by omega)),
      (stamped_frame _ _ hn w).mono (Env.block_touched hcount harg.out)⟩
  | none =>
    dsimp only
    cases h6 : env.inetPton6 name with
    | some ip6 =>
      have hcount : env.blockCount name req = 1 := by simp [Env.blockCount, h4, h6]
      have hinfos : env.nodeInfos harg name req = [⟨AF_INET6, harg.socktype, harg.port, ip6, name⟩] := by
        simp [Env.nodeInfos, h4, h6]
      have hn : NodeInfo.Inet ⟨AF_INET6, harg.socktype, harg.port, ip6, name⟩ :=
        .inr ⟨rfl, env.pton6_length name ip6 h6⟩
      rw [hcount] at hblocks hpai
      have hobj := hblocks.object 0 zero_lt_one
      have hap := hpai 0 zero_lt_one
      obtain ⟨hall, heq⟩ := inet6Literal_eq harg name w hobj hap ip6
      refine ⟨_, rfl, ?_⟩
      rw [heq]
      exact ⟨.of_stamp hcount hinfos hn hall hap (load_store_of_lt (by omega)),
        (stamped_frame _ _ hn w).mono (Env.block_touched hcount harg.out)⟩
    | none =>
      dsimp only
      have hreply : env.ares.gethostbyname name (queryFamily req) = env.reply name req := rfl
      rw [hreply]
      cases hrep : env.reply name req with
      | failure status hs => simp [Env.blockCount, h4, h6, hrep] at hpos
      | success host =>
        have hcount : env.blockCount name req = host.hAddrList.length := by
          simp [Env.blockCount, h4, h6, hrep]
        have hinfos : env.nodeInfos harg name req = host.hAddrList.map (harg.nodeInfo host) := by
          simp [Env.nodeInfos, h4, h6, hrep]
        obtain ⟨w', hrun, hlive, _, hchain, hframe, hnodes⟩ := getaddrinfoCallback_success hblocks harg
          (hr.fits host hrep) hcount.symm hpos hpai (aresInit st w)
        have hhead : w'.mem.loadPtr harg.out ≠ 0 := hchain.head_ne_zero (by simpa using hpos.ne')
        rw [hrun, if_neg hhead]
        refine ⟨w', rfl, ⟨by rw [hlive, aresInit_live], hchain, ?_⟩, ?_⟩
        · simp only [hinfos, List.length_map, List.getElem_map]
          exact hnodes
        · exact ((aresInit_frame st w).mono Set.subset_union_left).trans (hframe.mono Set.subset_union_right)

theorem getaddrinfo_builds (hr : env.Ready st name req pai w) (service : Option (List UInt8))
    (hpos : 0 < env.blockCount name req) :
    ∃ w', getaddrinfo st env name service req pai w = (0, w') ∧
      Builds env (getaddrinfoParam env.services service req pai) name req w w' := by
  obtain ⟨w', hrun, hbuilds, _⟩ := getaddrinfo_builds_frame hr service hpos
  exact ⟨w', hrun, hbuilds⟩

theorem nodeInfos_inet (harg : GetaddrinfoCallbackParam)
    (hinet : ∀ host, env.reply name req = .success host → host.Inet) :
    ∀ n ∈ env.nodeInfos harg name req, n.Inet := by
  intro n hn
  rcases env.mem_nodeInfos hn with ⟨ip4, h4, rfl⟩ | ⟨ip6, h6, rfl⟩ | ⟨host, addr, hrep, ha, rfl⟩
  · exact .inl ⟨rfl, env.pton4_length name ip4 h4⟩
  · exact .inr ⟨rfl, env.pton6_length name ip6 h6⟩
  · exact (hinet host hrep).nodeInfo harg ha

theorem nodeInfos_name (harg : GetaddrinfoCallbackParam) (hname : 0 ∉ name) :
    ∀ n ∈ env.nodeInfos harg name req, 0 ∉ n.name := by
  intro n hn
  rcases env.mem_nodeInfos hn with ⟨ip4, _, rfl⟩ | ⟨ip6, _, rfl⟩ | ⟨host, addr, _, _, rfl⟩
  · exact hname
  · exact hname
  · exact host.name_nonzero

/-- The port and the socket type of every node are those of the request. -/
theorem nodeInfos_request (harg : GetaddrinfoCallbackParam) :
    ∀ n ∈ env.nodeInfos harg name req, n.port = harg.port ∧ n.socktype = harg.socktype := by
  intro n hn
  rcases env.mem_nodeInfos hn with ⟨ip4, _, rfl⟩ | ⟨ip6, _, rfl⟩ | ⟨host, addr, _, _, rfl⟩ <;>
    exact ⟨rfl, rfl⟩

/-- With IPv4 and IPv6 answers, the list of a successful call consists of finished nodes. -/
theorem getaddrinfo_nodes (hr : env.Ready st name req pai w) (service : Option (List UInt8))
    (hpos : 0 < env.blockCount name req) (hinet : ∀ host, env.reply name req = .success host → host.Inet) :
    ∃ w', getaddrinfo st env name service req pai w = (0, w') ∧
      Chain w'.mem 40 (w'.mem.loadPtr pai) ((List.range (env.blockCount name req)).map env.malloc) ∧
      ∀ t (h : t < (env.nodeInfos (getaddrinfoParam env.services service req pai) name req).length),
        Node w'.mem (env.malloc t) (env.nodeInfos (getaddrinfoParam env.services service req pai) name req)[t] := by
  obtain ⟨w', hrun, hb⟩ := getaddrinfo_builds hr service hpos
  have hchain := hb.chain
  rw [getaddrinfoParam_out] at hchain
  exact ⟨w', hrun, hchain, fun t h => hb.nodes t h (nodeInfos_inet _ hinet _ (List.getElem_mem h))⟩

variable (st pai w) in
/-- A failed lookup sets the caller's variable to NULL and is reported. -/
theorem getaddrinfo_failed (hnum : ¬ env.Numeric name) {status : UInt32} {hs : status ≠ ARES_SUCCESS}
    (hrep : env.reply name req = .failure status hs) (service : Option (List UInt8)) :
    getaddrinfo st env name service req pai w =
      (EAI_FAIL, { aresInit st w with mem := (aresInit st w).mem.storePtr pai 0 }) := by
  have hout := getaddrinfoParam_out env.services service req pai
  obtain ⟨h4, h6⟩ := Env.pton_eq_none hnum
  have hreply : env.ares.gethostbyname name (queryFamily req) = .failure status hs := hrep
  have hz : ((aresInit st w).mem.storePtr pai 0).loadPtr pai = 0 := load_store_of_lt (by norm_num)
  simp only [getaddrinfo, h4, h6, hreply, getaddrinfoCallback, hout, hz, ↓reduceIte]

variable (w) in
/-- A successful lookup without addresses leaves the caller's variable alone, and what was
there decides the return value. -/
theorem getaddrinfo_withoutAddress (h : env.WithoutAddress name req) (hpai : Apart pai 8 st.he 32)
    (service : Option (List UInt8)) :
    getaddrinfo st env name service req pai w =
      (if w.mem.loadPtr pai = 0 then EAI_FAIL else 0, aresInit st w) := by
  obtain ⟨hnum, host, hrep, hempty⟩ := h
  have hout := getaddrinfoParam_out env.services service req pai
  obtain ⟨h4, h6⟩ := Env.pton_eq_none hnum
  have hreply : env.ares.gethostbyname name (queryFamily req) = .success host := hrep
  simp only [getaddrinfo, h4, h6, hreply, getaddrinfoCallback, hempty, callbackLoop, hout, aresInit_loadPtr hpai]
  split <;> rfl

end

end FakeDns
