import FakeDns.AddrInfo.Getaddrinfo

/-! The list of `getaddrinfo` is the image of the answer. A resolver answer becomes one
node for each address, in order, and every node describes its address to a reader of the
`struct addrinfo`. A numeric name becomes one node, and its block is byte for byte the
block that the callback would have built for the same name and address, up to where the
two blocks stand. -/

namespace FakeDns

open ByteMemory Mem

/-- What a reader of the `struct addrinfo` at `p` finds. -/
structure Describes (m : Mem) (p : ℕ) (n : NodeInfo) : Prop where
  flags : m.load 4 (aiFlags p) = 0
  family : m.load 4 (aiFamily p) = n.family.toNat
  socktype : m.load 4 (aiSocktype p) = n.socktype.toNat
  protocol : m.load 4 (aiProtocol p) = 0
  addrlen : m.load 4 (aiAddrlen p) = if n.family = AF_INET then 16 else 28
  sockFamily : m.load 2 (m.loadPtr (aiAddr p)) = n.family.toNat
  sockPort : m.load 2 (m.loadPtr (aiAddr p) + 2) = n.port.toNat
  sockAddr : m.read (if n.family = AF_INET then sinAddr (m.loadPtr (aiAddr p))
    else sin6Addr (m.loadPtr (aiAddr p))) n.addr.length = n.addr

theorem Node.describes {m : Mem} {p : ℕ} {n : NodeInfo} (h : Node m p n) (hn : n.Inet) : Describes m p n := by
  obtain ⟨_, _, _, haddr, _⟩ := h.parts hn
  refine ⟨h.flags, h.family, h.socktype, h.protocol, h.addrlen, (h.sock hn).1, (h.sock hn).2, ?_⟩
  rw [h.addr]
  unfold NodeInfo.offset at haddr
  split <;> rename_i hf <;> simpa [hf, sinAddr, sin6Addr] using haddr

/-- The list at `*out` has one node for each address of the answer, in order. -/
def ListsAnswer (harg : GetaddrinfoCallbackParam) (host : Answer) (m : Mem) : Prop :=
  ∃ nodes, nodes.length = host.hAddrList.length ∧ nodes.Nodup ∧ Chain m 40 (m.loadPtr harg.out) nodes ∧
    ∀ i (h : i < nodes.length) (h' : i < host.hAddrList.length),
      Describes m nodes[i] (harg.nodeInfo host host.hAddrList[i])

/-- The callback lists any answer of IPv4 or IPv6 addresses, for every port and socket type. -/
theorem getaddrinfoCallback_lists {malloc : ℕ → ℕ} {host : Answer} (hB : Blocks malloc host.hAddrList.length)
    (harg : GetaddrinfoCallbackParam) (hinet : host.Inet) (hpos : 0 < host.hAddrList.length)
    (hout : ∀ k < host.hAddrList.length, Apart harg.out 8 (malloc k) 1088) (w : World) :
    ListsAnswer harg host (getaddrinfoCallback malloc harg (.success host) w).mem := by
  obtain ⟨w', hrun, _, _, hchain, _, hnodes⟩ :=
    getaddrinfoCallback_success hB harg hinet.length_le rfl hpos hout w
  rw [hrun]
  refine ⟨_, by simp, hB.separate.nodup (by norm_num), hchain, fun i h h' => ?_⟩
  have hi := hinet.nodeInfo harg (List.getElem_mem h')
  simpa using (hnodes i h' hi).describes hi

/-! ### Two blocks for one node -/

/-- The blocks at `p` and `q` agree in every byte but those of their inner pointers, and
these point to the same places in their blocks. -/
structure SameBlock (m : Mem) (p : ℕ) (m' : Mem) (q : ℕ) : Prop where
  bytes : ∀ k < 1088, k < 24 ∨ 40 ≤ k → m (p + k) = m' (q + k)
  addr : ∃ d, m.loadPtr (aiAddr p) = p + d ∧ m'.loadPtr (aiAddr q) = q + d
  canon : ∃ d, m.loadPtr (aiCanonname p) = p + d ∧ m'.loadPtr (aiCanonname q) = q + d

theorem byte_of_read {m m' : Mem} {p q a n : ℕ} (h : m.read (p + a) n = m'.read (q + a) n) {k : ℕ}
    (h₁ : a ≤ k) (h₂ : k < a + n) : m (p + k) = m' (q + k) := by
  have hbyte := (read_eq_iff.mp h).2 (k - a) (by simp; omega)
  rw [getElem_read] at hbyte
  rwa [show p + a + (k - a) = p + k by omega, show q + a + (k - a) = q + k by omega] at hbyte

theorem Node.sameBlock {m m' : Mem} {p q : ℕ} {n : NodeInfo} (h : Node m p n) (h' : Node m' q n)
    (hnext : m.loadPtr (aiNext p) = m'.loadPtr (aiNext q)) : SameBlock m p m' q := by
  refine ⟨fun k hk hk' => ?_, ⟨48, h.addr, h'.addr⟩, ⟨64, h.canon, h'.canon⟩⟩
  have hword : ∀ {a w : ℕ}, m.load w (p + a) = m'.load w (q + a) → a ≤ k → k < a + w → m (p + k) = m' (q + k) :=
    fun hl => byte_of_read (load_eq_iff.mp hl)
  rcases Nat.lt_or_ge k 4 with h0 | h0
  · exact hword (h.flags.trans h'.flags.symm) (Nat.zero_le k) (by omega)
  rcases Nat.lt_or_ge k 8 with h1 | h1
  · exact hword (h.family.trans h'.family.symm) h0 (by omega)
  rcases Nat.lt_or_ge k 12 with h2 | h2
  · exact hword (h.socktype.trans h'.socktype.symm) h1 (by omega)
  rcases Nat.lt_or_ge k 16 with h3 | h3
  · exact hword (h.protocol.trans h'.protocol.symm) h2 (by omega)
  rcases Nat.lt_or_ge k 20 with h4 | h4
  · exact hword (h.addrlen.trans h'.addrlen.symm) h3 (by omega)
  rcases Nat.lt_or_ge k 24 with h5 | h5
  · exact byte_of_read (h.padding.trans h'.padding.symm) h4 (by omega)
  rcases Nat.lt_or_ge k 48 with h6 | h6
  · exact hword (a := 40) (w := 8) hnext (by omega) (by omega)
  · exact byte_of_read (h.tail.trans h'.tail.symm) h6 (by omega)

/-- The family and the address of a numeric name. -/
def Env.literal (env : Env) (name : List UInt8) : Option (UInt32 × List UInt8) :=
  match env.inetPton4 name with
  | some ip4 => some (AF_INET, ip4)
  | none => (env.inetPton6 name).map fun ip6 => (AF_INET6, ip6)

/-- The answer with one address. -/
def Answer.single (name : List UInt8) (family : UInt32) (addr : List UInt8) (hname : 0 ∉ name)
    (hlen : addr.length < 2 ^ 32) : Answer where
  hName := name
  hAddrtype := family
  hLength := UInt32.ofNat addr.length
  hAddrList := [addr]
  name_nonzero := hname
  addr_length := by
    intro a ha
    obtain rfl := List.mem_singleton.mp ha
    rw [UInt32.toNat_ofNat', Nat.mod_eq_of_lt hlen]

section

variable {st : Statics} {env : Env} {name : List UInt8} {req : Option Hints} {pai : ℕ} {w : World}

variable (req) in
theorem literal_facts {family : UInt32} {addr : List UInt8} (h : env.literal name = some (family, addr))
    (harg : GetaddrinfoCallbackParam) :
    env.blockCount name req = 1 ∧
      env.nodeInfos harg name req = [⟨family, harg.socktype, harg.port, addr, name⟩] ∧
      ((family = AF_INET ∧ addr.length = 4) ∨ (family = AF_INET6 ∧ addr.length = 16)) := by
  unfold Env.literal at h
  cases h4 : env.inetPton4 name with
  | some ip4 =>
    simp only [h4, Option.some.injEq, Prod.mk.injEq] at h
    obtain ⟨rfl, rfl⟩ := h
    exact ⟨by simp [Env.blockCount, h4], by simp [Env.nodeInfos, h4], .inl ⟨rfl, env.pton4_length name _ h4⟩⟩
  | none =>
    cases h6 : env.inetPton6 name with
    | none => simp [h4, h6] at h
    | some ip6 =>
      simp only [h4, h6, Option.map_some, Option.some.injEq, Prod.mk.injEq] at h
      obtain ⟨rfl, rfl⟩ := h
      exact ⟨by simp [Env.blockCount, h4, h6], by simp [Env.nodeInfos, h4, h6],
        .inr ⟨rfl, env.pton6_length name _ h6⟩⟩

/-- The node of the callback for one address stands in a block of its own. -/
theorem getaddrinfoCallback_single {malloc : ℕ → ℕ} (hB : Blocks malloc 1) (harg : GetaddrinfoCallbackParam)
    (hout : Apart harg.out 8 (malloc 0) 1088) {family : UInt32} {addr : List UInt8} (hname : 0 ∉ name)
    (hlen : addr.length < 2 ^ 32)
    (hinet : (family = AF_INET ∧ addr.length = 4) ∨ (family = AF_INET6 ∧ addr.length = 16)) (w₂ : World) :
    ∃ w' : World, getaddrinfoCallback malloc harg (.success (.single name family addr hname hlen)) w₂ = w' ∧
      Chain w'.mem 40 (w'.mem.loadPtr harg.out) [malloc 0] ∧
      Node w'.mem (malloc 0) ⟨family, harg.socktype, harg.port, addr, name⟩ := by
  have hle : (Answer.single name family addr hname hlen).hLength.toNat ≤ 1008 := by
    simp only [Answer.single, UInt32.toNat_ofNat', Nat.mod_eq_of_lt hlen]
    omega
  obtain ⟨w', hrun, _, _, hchain, _, hnodes⟩ :=
    getaddrinfoCallback_success hB harg hle rfl zero_lt_one
      (fun k hk => by obtain rfl : k = 0 := by omega
                      exact hout) w₂
  exact ⟨w', hrun, hchain, hnodes 0 (by simp [Answer.single]) hinet⟩

/-- A call that is answered by the resolver lists the answer. -/
theorem getaddrinfo_lists (hr : env.Ready st name req pai w) (service : Option (List UInt8)) {host : Answer}
    (hnum : ¬ env.Numeric name) (hrep : env.reply name req = .success host) (hne : host.hAddrList ≠ [])
    (hinet : host.Inet) :
    ListsAnswer (getaddrinfoParam env.services service req pai) host
      (getaddrinfo st env name service req pai w).2.mem := by
  obtain ⟨h4, h6⟩ := Env.pton_eq_none hnum
  have hcount : env.blockCount name req = host.hAddrList.length := by simp [Env.blockCount, h4, h6, hrep]
  have hblocks := hr.blocks
  have hpai := hr.pai_blocks
  rw [hcount] at hblocks hpai
  rw [← getaddrinfoParam_out env.services service req pai] at hpai
  have hlists := getaddrinfoCallback_lists hblocks _ hinet (List.length_pos_of_ne_nil hne) hpai (aresInit st w)
  have hreply : env.ares.gethostbyname name (queryFamily req) = .success host := hrep
  have hmem : (getaddrinfo st env name service req pai w).2 = getaddrinfoCallback env.malloc
      (getaddrinfoParam env.services service req pai) (.success host) (aresInit st w) := by
    simp only [getaddrinfo, h4, h6, hreply]
    split <;> rfl
  rwa [hmem]

/-- The list of a call is the image of its answer, and the block of a numeric name is the
block of the callback for it. -/
theorem getaddrinfo_list_exact (hr : env.Ready st name req pai w) (service : Option (List UInt8))
    (hname : 0 ∉ name) :
    (∀ host, ¬ env.Numeric name → env.reply name req = .success host → host.hAddrList ≠ [] → host.Inet →
      ListsAnswer (getaddrinfoParam env.services service req pai) host
        (getaddrinfo st env name service req pai w).2.mem) ∧
    ∀ family addr, env.literal name = some (family, addr) →
      ∃ p hlen, Chain (getaddrinfo st env name service req pai w).2.mem 40
          ((getaddrinfo st env name service req pai w).2.mem.loadPtr pai) [p] ∧
        ∀ (malloc : ℕ → ℕ) (harg : GetaddrinfoCallbackParam) (w₂ : World), Blocks malloc 1 →
          Apart harg.out 8 (malloc 0) 1088 →
          harg.port = (getaddrinfoParam env.services service req pai).port →
          harg.socktype = (getaddrinfoParam env.services service req pai).socktype →
          ∃ w' q, getaddrinfoCallback malloc harg (.success (.single name family addr hname hlen)) w₂ = w' ∧
            Chain w'.mem 40 (w'.mem.loadPtr harg.out) [q] ∧
            SameBlock (getaddrinfo st env name service req pai w).2.mem p w'.mem q := by
  constructor
  · intro host hnum hrep hne hinet
    exact getaddrinfo_lists hr service hnum hrep hne hinet
  · intro family addr hlit
    obtain ⟨hcount, hinfos, hinet⟩ := literal_facts req hlit
      (getaddrinfoParam env.services service req pai)
    obtain ⟨w', hrun, hbuilds⟩ := getaddrinfo_builds hr service (by omega)
    have hchain := hbuilds.chain
    rw [hcount, getaddrinfoParam_out] at hchain
    have hnode := hbuilds.nodes
    rw [hinfos] at hnode
    have hnode₀ := hnode 0 (by simp) hinet
    rw [hrun]
    refine ⟨env.malloc 0, by omega, hchain, fun malloc harg w₂ hB hout hport hsock => ?_⟩
    obtain ⟨w₂', hrun₂, hchain₂, hnode₂⟩ :=
      getaddrinfoCallback_single hB harg hout hname (by omega) hinet w₂
    refine ⟨w₂', malloc 0, hrun₂, hchain₂, ?_⟩
    rw [hport, hsock] at hnode₂
    -- both lists end behind their only node
    exact Node.sameBlock hnode₀ hnode₂ (hchain.2.2.trans hchain₂.2.2.symm)

end

/-- A hint for a stream socket. -/
def Hints.stream : Hints := ⟨0, SOCK_STREAM⟩

/-- Two addresses for "a", and the node of "::1" next to that of the callback, with the service
"80" for a stream socket. -/
theorem getaddrinfo_list_sample :
    ListsAnswer (getaddrinfoParam [] (some [56, 48]) (some .stream) 0x6000) .two
        (getaddrinfo .sample (.sample (.success .two)) [97] (some [56, 48]) (some .stream) 0x6000 .zero).2.mem ∧
      ∃ p hlen w' q,
        Chain (getaddrinfo .sample (.sample (.success .two)) Env.loopback (some [56, 48]) (some .stream) 0x6000
            .zero).2.mem 40
          ((getaddrinfo .sample (.sample (.success .two)) Env.loopback (some [56, 48]) (some .stream) 0x6000
            .zero).2.mem.loadPtr 0x6000) [p] ∧
        getaddrinfoCallback (fun k => 0x200000 + 0x1000 * k) ⟨0x7000, htons 80, SOCK_STREAM⟩
          (.success (.single Env.loopback AF_INET6 (List.replicate 15 0 ++ [1]) (by decide) hlen)) .zero = w' ∧
        Chain w'.mem 40 (w'.mem.loadPtr 0x7000) [q] ∧
        SameBlock (getaddrinfo .sample (.sample (.success .two)) Env.loopback (some [56, 48]) (some .stream) 0x6000
          .zero).2.mem p w'.mem q := by
  have hr : ∀ name, (Env.sample (.success .two)).blockCount name (some .stream) ≤ 256 →
      (Env.sample (.success .two)).Ready .sample name (some .stream) 0x6000 .zero := fun name hcount =>
    Env.sample_ready_of hcount (fun _ hh => Reply.success.inj hh ▸ by decide) .zero rfl
  constructor
  · exact (getaddrinfo_list_exact (hr [97] (by decide)) (some [56, 48]) (by decide)).1 .two (by decide) rfl
      (by decide) (by decide)
  · obtain ⟨p, hlen, hchain, hsame⟩ := (getaddrinfo_list_exact (hr Env.loopback (by decide)) (some [56, 48])
      (by decide)).2 AF_INET6 (List.replicate 15 0 ++ [1]) rfl
    have hblocks : Blocks (fun k => 0x200000 + 0x1000 * k) 1 :=
      ⟨fun k hk => by omega, fun j k hj hk => by omega⟩
    obtain ⟨w', q, hrun, hchain', hblock⟩ := hsame _ ⟨0x7000, htons 80, SOCK_STREAM⟩ .zero hblocks (by decide)
      (by decide) (by decide)
    exact ⟨p, hlen, w', q, hchain, hrun, hchain', hblock⟩

end FakeDns
