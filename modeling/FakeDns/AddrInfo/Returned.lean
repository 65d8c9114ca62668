import FakeDns.AddrInfo.Result

/-! What a caller finds in the list that `getaddrinfo` returns. A property that the content
of a node decides holds of the whole list exactly when every node the call is about has it.
One outcome returns a list of somebody else: a lookup without an address returns 0 and the
list that the caller's variable held before. -/

namespace FakeDns

open ByteMemory Mem

/-- Every cell of the list in the variable at `pai` has the property. -/
def ListAll (P : Mem → ℕ → Prop) (pai : ℕ) (m : Mem) : Prop :=
  ∀ nodes, Chain m 40 (m.loadPtr pai) nodes → ∀ a ∈ nodes, P m a

theorem listAll_iff {P : Mem → ℕ → Prop} {pai : ℕ} {m : Mem} {nodes : List ℕ}
    (h : Chain m 40 (m.loadPtr pai) nodes) : ListAll P pai m ↔ ∀ a ∈ nodes, P m a := by
  refine ⟨fun hall => hall nodes h, fun hall nodes' h' => ?_⟩
  rw [h'.unique h]
  exact hall

/-- If the call returns 0, every node of the returned list has the property. -/
def ReturnsAll (P : Mem → ℕ → Prop) (st : Statics) (env : Env) (name : List UInt8)
    (service : Option (List UInt8)) (req : Option Hints) (pai : ℕ) (w : World) : Prop :=
  (getaddrinfo st env name service req pai w).1 = 0 →
    ListAll P pai (getaddrinfo st env name service req pai w).2.mem

section

variable {st : Statics} {env : Env} {name : List UInt8} {req : Option Hints} {pai : ℕ} {w : World}
  {P : Mem → ℕ → Prop} {Q : NodeInfo → Prop}

/-- After a call that built its nodes. -/
theorem returnsAll_of_built (hr : env.Ready st name req pai w) (service : Option (List UInt8))
    (hpos : 0 < env.blockCount name req) (hinet : ∀ host, env.reply name req = .success host → host.Inet)
    (hPQ : ∀ {m p n}, Node m p n → n.Inet → (P m p ↔ Q n)) :
    ReturnsAll P st env name service req pai w ↔
      ∀ n ∈ env.nodeInfos (getaddrinfoParam env.services service req pai) name req, Q n := by
  obtain ⟨w', hrun, hchain, hnodes⟩ := getaddrinfo_nodes hr service hpos hinet
  have hlen := env.length_nodeInfos (getaddrinfoParam env.services service req pai) name req
  have hn := nodeInfos_inet (getaddrinfoParam env.services service req pai) hinet
  have hall : ReturnsAll P st env name service req pai w ↔ ListAll P pai w'.mem := by
    rw [ReturnsAll, hrun]
    exact ⟨fun h => h rfl, fun h _ => h⟩
  rw [hall, listAll_iff hchain]
  constructor
  · intro h n hmem
    obtain ⟨t, ht, rfl⟩ := List.getElem_of_mem hmem
    have ha := h (env.malloc t) (List.mem_map.mpr ⟨t, List.mem_range.mpr (hlen ▸ ht), rfl⟩)
    exact (hPQ (hnodes t ht) (hn _ hmem)).mp ha
  · intro h a ha
    obtain ⟨t, ht, rfl⟩ := List.mem_map.mp ha
    have ht' := hlen.symm ▸ List.mem_range.mp ht
    have hmem := List.getElem_mem ht'
    exact (hPQ (hnodes t ht') (hn _ hmem)).mpr (h _ hmem)

/-- After any call: the nodes of the call have the property, and so has the list that a
lookup without an address leaves. -/
theorem returnsAll_iff (hr : env.Ready st name req pai w) (service : Option (List UInt8))
    (hinet : ∀ host, env.reply name req = .success host → host.Inet)
    (hPQ : ∀ {m p n}, Node m p n → n.Inet → (P m p ↔ Q n)) :
    ReturnsAll P st env name service req pai w ↔
      (∀ n ∈ env.nodeInfos (getaddrinfoParam env.services service req pai) name req, Q n) ∧
        (env.WithoutAddress name req → ListAll P pai (aresInit st w).mem) := by
  have hlen := env.length_nodeInfos (getaddrinfoParam env.services service req pai) name req
  rcases env.cases_call name req with hpos | ⟨hnum, status, hs, hrep⟩ | hwithout
  · rw [returnsAll_of_built hr service hpos hinet hPQ]
    exact (and_iff_left fun h => absurd h (Env.not_withoutAddress_of_pos hpos)).symm
  · obtain ⟨h4, h6⟩ := Env.pton_eq_none hnum
    refine iff_of_true (fun h => ?_) ⟨?_, fun h => absurd h (Env.not_withoutAddress_of_failure hrep)⟩
    · rw [getaddrinfo_failed st pai w hnum hrep service] at h
      exact absurd (show EAI_FAIL = 0 from h) (by decide)
    · simp [Env.nodeInfos, h4, h6, hrep]
  · rw [hwithout.blockCount, List.length_eq_zero_iff] at hlen
    rw [ReturnsAll, getaddrinfo_withoutAddress w hwithout hr.pai_he service, hlen]
    dsimp only
    constructor
    · intro h
      refine ⟨by simp, fun _ => ?_⟩
      by_cases hz : w.mem.loadPtr pai = 0
      · -- the empty list
        rw [← aresInit_loadPtr hr.pai_he] at hz
        exact (listAll_iff (Chain.nil_iff.mpr hz)).mpr (by simp)
      · exact h (if_neg hz)
    · exact fun h _ => h.2 hwithout

end

end FakeDns
