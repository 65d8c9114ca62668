import FakeDns.AddrInfo.Getaddrinfo

/-! The overlap inside a block. A `sockaddr_in6` is 28 bytes long and stands in front of the
name in a field of 16, so the last 8 bytes of an IPv6 address replace the first 8 of the
name, and `sin6_scope_id` is read from the 4 bytes of the name behind them. An IPv4 node is
sound. An IPv6 node is sound only when nothing is lost: the name fits into the 8 replaced
bytes and is spelled by the address bytes that replace it. -/

namespace FakeDns

open ByteMemory Mem

/-- The canonical name reads as the name of the node, cut to `HLEN - 1` characters, and the
flow and the scope of an IPv6 node read as zero. -/
def Uncorrupted (m : Mem) (p : ℕ) (n : NodeInfo) : Prop :=
  CString m (m.loadPtr (aiCanonname p)) (n.name.take (HLEN - 1)) ∧
    (m.load 4 (aiFamily p) = AF_INET6.toNat →
      m.load 4 (sin6Flowinfo (m.loadPtr (aiAddr p))) = 0 ∧ m.load 4 (sin6ScopeId (m.loadPtr (aiAddr p))) = 0)

/-- The name survives: no IPv6 address is written over it, or the one that is spells it. -/
def NodeInfo.NameSurvives (n : NodeInfo) : Prop :=
  n.family = AF_INET ∨ (n.name.length ≤ 8 ∧ headString (n.addr.drop 8) = n.name)

instance (n : NodeInfo) : Decidable n.NameSurvives := inferInstanceAs (Decidable (_ ∨ _))

/-- A zero behind a string does not change it. -/
theorem headString_append_zeros (bs : List UInt8) (k : ℕ) : headString (bs ++ List.replicate k 0) = headString bs := by
  induction bs with
  | nil => cases k <;> simp [headString, List.replicate_succ]
  | cons b bs ih =>
    by_cases hb : b = 0
    · simp [headString, hb]
    · simpa [headString, hb] using ih

section

variable {m : Mem} {p : ℕ} {n : NodeInfo}

/-- An IPv4 node keeps its name. -/
theorem Node.uncorrupted_inet (h : Node m p n) (hf : n.family = AF_INET) (hl : n.addr.length = 4)
    (hname : 0 ∉ n.name) : Uncorrupted m p n := by
  obtain ⟨_, _, _, _, hrest⟩ := h.parts (.inl ⟨hf, hl⟩)
  rw [(NodeInfo.layout_inet hf).1, hl] at hrest
  constructor
  · -- eight zeros of the socket address, then the name
    have hbehind : m.read (p + 56) (8 + 1024) = List.replicate 8 0 ++ padded (n.name.take 1023) 1024 := by
      simpa [List.drop_append] using hrest
    have hname' : m.read (p + 64) 1024 = padded (n.name.take 1023) 1024 := (read_eq_append hbehind (by simp)).2
    rw [h.canon]
    exact CString.of_padded (fun hm => hname (List.mem_of_mem_take hm)) (by simp [HLEN]) hname'
  · intro hf6
    rw [h.family, hf] at hf6
    exact absurd hf6 (by decide)

/-- What an IPv6 node keeps in the place of its flow, its scope and its name. -/
theorem Node.parts_inet6 (h : Node m p n) (hf : n.family = AF_INET6) (hl : n.addr.length = 16) :
    m.load 4 (p + 52) = 0 ∧ m.read (p + 72) 1016 = padded ((n.name.take 1023).drop 8) 1016 ∧
      m.read (p + 64) 1024 = n.addr.drop 8 ++ padded ((n.name.take 1023).drop 8) 1016 := by
  obtain ⟨_, _, hflow, haddr, hrest⟩ := h.parts (.inr ⟨hf, hl⟩)
  rw [(NodeInfo.layout_inet6 hf).1] at hflow haddr hrest
  rw [hl] at haddr hrest
  have hover : m.read (p + 72) 1016 = padded ((n.name.take 1023).drop 8) 1016 := by
    rw [← drop_padded (n.name.take 1023) 8 1024]
    simpa [List.drop_append] using hrest
  refine ⟨load_eq_zero_iff.mpr hflow, hover, ?_⟩
  rw [show 1024 = 8 + 1016 by norm_num, read_append, hover, ← haddr,
    ← drop_take_read (a := p + 48 + 8) (j := 8) (n := 16) (k := 8) (by norm_num)]
  rw [List.take_of_length_le (by simp)]

/-- The scope of an IPv6 node is the part of its name behind the replaced bytes. -/
theorem Node.scope_eq_zero_iff (h : Node m p n) (hf : n.family = AF_INET6) (hl : n.addr.length = 16)
    (hname : 0 ∉ n.name) : m.load 4 (p + 72) = 0 ↔ n.name.length ≤ 8 := by
  obtain ⟨_, hover, _⟩ := h.parts_inet6 hf hl
  rw [load_eq_zero_iff]
  constructor
  · intro hz
    by_contra hlong
    -- the ninth character of the name would be a zero
    have hbyte := (read_eq_iff.mp hover).2 0 (by simp)
    have hzero := (read_eq_iff.mp hz).2 0 (by simp)
    rw [hzero, getElem_padded, List.getD_eq_getElem?_getD, List.getElem?_drop, List.getElem?_take_of_lt
      (by norm_num), List.getElem?_eq_getElem (by omega), Option.getD_some, List.getElem_replicate] at hbyte
    exact hname (hbyte ▸ List.getElem_mem _)
  · intro hshort
    rw [← take_read (k := 4) (n := 1016) (by norm_num), hover, List.drop_eq_nil_of_le (by simp; omega)]
    rfl

/-- An IPv6 node is sound exactly when the address bytes spell its name. -/
theorem Node.uncorrupted_inet6 (h : Node m p n) (hf : n.family = AF_INET6) (hl : n.addr.length = 16)
    (hname : 0 ∉ n.name) :
    Uncorrupted m p n ↔ n.name.length ≤ 8 ∧ headString (n.addr.drop 8) = n.name := by
  obtain ⟨hflow, _, hcanon⟩ := h.parts_inet6 hf hl
  have hzero : 0 ∈ m.read (p + 64) 1024 := by
    rw [hcanon]
    refine List.mem_append_right _ (List.mem_append_right _ (List.mem_replicate.mpr ⟨?_, rfl⟩))
    simp
    omega
  have hshort_name : n.name.length ≤ 8 →
      (n.name.take (HLEN - 1) = headString (n.addr.drop 8 ++ padded ((n.name.take 1023).drop 8) 1016) ↔
        headString (n.addr.drop 8) = n.name) := by
    intro hshort
    have htake : n.name.take 1023 = n.name := List.take_of_length_le (by omega)
    rw [show HLEN - 1 = 1023 from rfl, htake, List.drop_eq_nil_of_le hshort, padded, List.take_nil,
      List.nil_append, headString_append_zeros, eq_comm]
  unfold Uncorrupted
  rw [h.canon, h.addr, h.family, hf, CString.iff_headString hzero, hcanon]
  simp only [sin6Flowinfo, sin6ScopeId, Nat.add_assoc, Nat.reduceAdd, forall_const]
  rw [h.scope_eq_zero_iff hf hl hname]
  constructor
  · rintro ⟨hs, _, hshort⟩
    exact ⟨hshort, (hshort_name hshort).mp hs⟩
  · rintro ⟨hshort, hs⟩
    exact ⟨(hshort_name hshort).mpr hs, hflow, hshort⟩

theorem Node.uncorrupted_iff (h : Node m p n) (hn : n.Inet) (hname : 0 ∉ n.name) :
    Uncorrupted m p n ↔ n.NameSurvives := by
  rcases hn with ⟨hf, hl⟩ | ⟨hf, hl⟩
  · exact ⟨fun _ => .inl hf, fun _ => h.uncorrupted_inet hf hl hname⟩
  · have hne : n.family ≠ AF_INET := by rw [hf]; decide
    rw [h.uncorrupted_inet6 hf hl hname, NodeInfo.NameSurvives]
    simp [hne]

end

section

variable {st : Statics} {env : Env} {name : List UInt8} {req : Option Hints} {pai : ℕ} {w : World}

/-- In the list of any successful call, a node is sound exactly when its name survives. -/
theorem getaddrinfo_uncorrupted_iff (hr : env.Ready st name req pai w) (service : Option (List UInt8))
    (hname : 0 ∉ name) (hpos : 0 < env.blockCount name req)
    (hinet : ∀ host, env.reply name req = .success host → host.Inet) :
    ∃ w' nodes, getaddrinfo st env name service req pai w = (0, w') ∧
      Chain w'.mem 40 (w'.mem.loadPtr pai) nodes ∧
      nodes.length = (env.nodeInfos (getaddrinfoParam env.services service req pai) name req).length ∧
      ∀ i (h : i < nodes.length)
        (h' : i < (env.nodeInfos (getaddrinfoParam env.services service req pai) name req).length),
        (Uncorrupted w'.mem nodes[i] (env.nodeInfos (getaddrinfoParam env.services service req pai) name req)[i] ↔
          (env.nodeInfos (getaddrinfoParam env.services service req pai) name req)[i].NameSurvives) := by
  obtain ⟨w', hrun, hchain, hnodes⟩ := getaddrinfo_nodes hr service hpos hinet
  refine ⟨w', _, hrun, hchain, by rw [Env.length_nodeInfos]; simp, fun i h h' => ?_⟩
  have hmem := List.getElem_mem h'
  simpa using (hnodes i h').uncorrupted_iff (nodeInfos_inet _ hinet _ hmem) (nodeInfos_name _ hname _ hmem)

end

/-- The node of "::1". -/
theorem getaddrinfo_uncorrupted_sample :
    ∃ w' nodes, getaddrinfo .sample (.sample (.success .sample)) Env.loopback none none 0x6000 .zero = (0, w') ∧
      Chain w'.mem 40 (w'.mem.loadPtr 0x6000) nodes ∧ nodes.length = 1 ∧
      ∀ i (h : i < nodes.length) (_ : i < 1),
        (Uncorrupted w'.mem nodes[i] ⟨AF_INET6, 0, 0, List.replicate 15 0 ++ [1], Env.loopback⟩ ↔
          NodeInfo.NameSurvives ⟨AF_INET6, 0, 0, List.replicate 15 0 ++ [1], Env.loopback⟩) := by
  have hr : (Env.sample (.success .sample)).Ready .sample Env.loopback none 0x6000 .zero :=
    Env.sample_ready _ .sample (by decide) (by decide) .zero rfl
  obtain ⟨w', nodes, hrun, hchain, hlen, hall⟩ := getaddrinfo_uncorrupted_iff hr none (by decide) (by decide) Env.sample_inet
  refine ⟨w', nodes, hrun, hchain, hlen, fun i h h' => ?_⟩
  obtain rfl : i = 0 := by omega
  exact hall 0 h (by rw [← hlen]; exact h)

/-- The node of "::1" loses its name: its first characters are zeros of the address. -/
theorem loopback_loses_name :
    ∃ w', getaddrinfo .sample (.sample (.success .sample)) Env.loopback none none 0x6000 .zero = (0, w') ∧
      Chain w'.mem 40 (w'.mem.loadPtr 0x6000) [0x100000] ∧
      ¬ Uncorrupted w'.mem 0x100000 ⟨AF_INET6, 0, 0, List.replicate 15 0 ++ [1], Env.loopback⟩ := by
  have hr : (Env.sample (.success .sample)).Ready .sample Env.loopback none 0x6000 .zero :=
    Env.sample_ready _ .sample (by decide) (by decide) .zero rfl
  obtain ⟨w', hrun, hchain, hnodes⟩ := getaddrinfo_nodes hr none (by decide) Env.sample_inet
  have hnode : Node w'.mem 0x100000 ⟨AF_INET6, 0, 0, List.replicate 15 0 ++ [1], Env.loopback⟩ :=
    hnodes 0 (by decide)
  refine ⟨w', hrun, hchain, ?_⟩
  rw [hnode.uncorrupted_iff (.inr ⟨rfl, rfl⟩) (by decide)]
  decide

end FakeDns
