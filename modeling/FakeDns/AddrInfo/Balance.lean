import FakeDns.ByteMemory.Owned
import FakeDns.AddrInfo.Freeaddrinfo
import FakeDns.AddrInfo.Getaddrinfo

/-! `getaddrinfo` and `freeaddrinfo` over a run. A client calls the two in any order and frees
only lists that it was given, or NULL. At every point the live blocks are the nodes of the
lists it holds, and each list is in blocks of its own. So every list can be freed, none is
freed with another, and a client that has freed all its lists has left no block behind. -/

namespace FakeDns

open ByteMemory Mem

/-- The process, and the lists its client holds, each by its first node. -/
structure Client where
  world : World
  heads : List ℕ

/-- What a client does: the two calls, and writes of the rest of the program. -/
inductive Action where
  | getaddrinfo (env : Env) (name : List UInt8) (service : Option (List UInt8)) (req : Option Hints) (pai : ℕ)
  | freeaddrinfo (ai : ℕ)
  | write (a : ℕ) (bs : List UInt8)

/-- The blocks that `malloc` returns are apart from the live ones and from the static hostent,
and the caller's variable is not in a live block. -/
structure Env.Fresh (env : Env) (st : Statics) (name : List UInt8) (req : Option Hints) (pai : ℕ) (w : World) :
    Prop where
  live : ∀ k < env.blockCount name req, ∀ b ∈ w.live, Apart (env.malloc k) 1088 b 1088
  he : ∀ k < env.blockCount name req, Apart (env.malloc k) 1088 st.he 32
  pai : ∀ b ∈ w.live, Apart pai 8 b 1088

namespace Action

/-- A lookup gets fresh blocks and is not one that succeeds without an address; only a list
that the client holds is freed, or NULL; the rest of the program writes elsewhere. -/
def Allowed (st : Statics) : Action → Client → Prop
  | getaddrinfo env name _ req pai, c =>
    env.Ready st name req pai c.world ∧ env.Fresh st name req pai c.world ∧ ¬ env.WithoutAddress name req
  | freeaddrinfo ai, c => ai = 0 ∨ ai ∈ c.heads
  | write a bs, c => ∀ b ∈ c.world.live, Apart a bs.length b 1088

/-- The client takes the list of a successful call, and forgets a list that it frees. None: the
call frees or reads a block that is not live. -/
def exec (st : Statics) (al : Allocator) : Action → Client → Option Client
  | getaddrinfo env name service req pai, c =>
    let (ret, w) := FakeDns.getaddrinfo st env name service req pai c.world
    some ⟨w, if ret = 0 then w.mem.loadPtr pai :: c.heads else c.heads⟩
  | freeaddrinfo ai, c => (FakeDns.freeaddrinfo al ai c.world).map fun w => ⟨w, c.heads.erase ai⟩
  | write a bs, c => some ⟨{ c.world with mem := c.world.mem.write a bs }, c.heads⟩

end Action

/-- The states of a client that begins with no list and no block. -/
inductive Reachable (st : Statics) (al : Allocator) : Client → Prop
  | start {w : World} (h : w.live = []) : Reachable st al ⟨w, []⟩
  | step {c c' : Client} {a : Action} (h : Reachable st al c) (ha : a.Allowed st c)
      (he : a.exec st al c = some c') : Reachable st al c'

/-- The lists that the client holds own the live blocks, which are apart from the statics. -/
structure Balanced (st : Statics) (c : Client) (nodes : ℕ → List ℕ) : Prop where
  owns : Owns 1088 40 c.world.mem c.world.live c.heads nodes
  he : ∀ b ∈ c.world.live, Apart b 1088 st.he 32

/-- The account of the blocks at one point of a run. The live blocks are, each once, the nodes
of the lists that the client holds; each list is NULL-terminated and repeats no node. Freeing
a list, or NULL, ends without an error: the nodes of the list leave the live blocks, each once,
and the blocks that stay are unchanged. -/
structure Accounted (al : Allocator) (c : Client) : Prop where
  lists : ∃ nodes : ℕ → List ℕ, (∀ h ∈ c.heads, Chain c.world.mem 40 h (nodes h) ∧ (nodes h).Nodup) ∧
    c.world.live.Perm (c.heads.flatMap nodes) ∧ c.world.live.Nodup
  empty : c.heads = [] → c.world.live = []
  frees : ∀ ai, ai = 0 ∨ ai ∈ c.heads → ∃ freed w, freeaddrinfo al ai c.world = some w ∧
    Chain c.world.mem 40 ai freed ∧ c.world.live.Perm (freed ++ w.live) ∧
    ∀ b ∈ w.live, w.mem.read b 1088 = c.world.mem.read b 1088

namespace Balanced

variable {st : Statics} {c : Client} {nodes : ℕ → List ℕ}

/-- A change off the live blocks. -/
theorem of_frame (hb : Balanced st c nodes) {w : World} {R : Set ℕ} (hlive : w.live = c.world.live)
    (hf : Frame R c.world.mem w.mem) (hd : Disjoint (blockBytes 1088 c.world.live) R) :
    Balanced st ⟨w, c.heads⟩ nodes where
  owns := by
    rw [hlive]
    exact hb.owns.frame hf hd (by norm_num)
  he := hlive ▸ hb.he

variable {env : Env} {name : List UInt8} {req : Option Hints} {pai : ℕ}

/-- A call touches no live block. -/
theorem disjoint_touched (hb : Balanced st c nodes) (hf : env.Fresh st name req pai c.world) :
    Disjoint (blockBytes 1088 c.world.live) (touched st env name req pai) := by
  apply Disjoint.symm
  apply disjoint_blockBytes
  intro b hmem
  simp only [touched, Set.disjoint_union_left]
  refine ⟨(disjoint_span (hb.he b hmem)).symm, disjoint_span (hf.pai b hmem), ?_⟩
  rw [Set.disjoint_left]
  rintro j ⟨k, _, hk, hj⟩
  exact Set.disjoint_left.mp (disjoint_span (hf.live k hk b hmem)) hj

/-- A call that builds its nodes hands the client one more list, in blocks of its own. -/
theorem builds (hb : Balanced st c nodes) (hr : env.Ready st name req pai c.world)
    (hf : env.Fresh st name req pai c.world) (hpos : 0 < env.blockCount name req)
    {harg : GetaddrinfoCallbackParam} (hout : harg.out = pai) {w : World}
    (hbuilds : Builds env harg name req c.world w)
    (hframe : Frame (touched st env name req pai) c.world.mem w.mem) :
    ∃ nodes', Balanced st ⟨w, w.mem.loadPtr pai :: c.heads⟩ nodes' := by
  set new := (List.range (env.blockCount name req)).map env.malloc with hnew
  have hblock : ∀ a ∈ new, ∃ k < env.blockCount name req, env.malloc k = a := fun a ha => by
    simpa [hnew] using ha
  have hchain : Chain w.mem 40 (w.mem.loadPtr pai) new := hout ▸ hbuilds.chain
  have hhead : w.mem.loadPtr pai ≠ 0 := hchain.head_ne_zero (by simpa [hnew] using hpos.ne')
  have hlive : (new ++ c.world.live).Perm w.live := by
    rw [hbuilds.live]
    exact (new.reverse_perm.append_right c.world.live).symm
  have hsep : Separate 1088 (new ++ c.world.live) := by
    refine List.pairwise_append.mpr ⟨hr.blocks.separate, hb.owns.separate, fun a ha b hmem => ?_⟩
    obtain ⟨k, hk, rfl⟩ := hblock a ha
    exact hf.live k hk b hmem
  have hold := hb.owns.frame hframe (hb.disjoint_touched hf) (by norm_num)
  obtain ⟨nodes', howns⟩ := hold.push (by norm_num) hhead hchain hsep
  refine ⟨nodes', howns.perm hlive, fun b hmem => ?_⟩
  rcases List.mem_append.mp (hlive.mem_iff.mpr hmem) with hmem | hmem
  · obtain ⟨k, hk, rfl⟩ := hblock b hmem
    exact hf.he k hk
  · exact hb.he b hmem

/-- Any allowed call keeps the balance. -/
theorem after_getaddrinfo (hb : Balanced st c nodes) (hr : env.Ready st name req pai c.world)
    (hf : env.Fresh st name req pai c.world) (hwithout : ¬ env.WithoutAddress name req)
    (service : Option (List UInt8)) :
    ∃ nodes', Balanced st ⟨(getaddrinfo st env name service req pai c.world).2,
      if (getaddrinfo st env name service req pai c.world).1 = 0 then
        (getaddrinfo st env name service req pai c.world).2.mem.loadPtr pai :: c.heads
      else c.heads⟩ nodes' := by
  rcases env.cases_call name req with hpos | ⟨hnum, status, hs, hrep⟩ | h
  · obtain ⟨w, hrun, hbuilds, hframe⟩ := getaddrinfo_builds_frame hr service hpos
    rw [hrun, if_pos rfl]
    exact hb.builds hr hf hpos (getaddrinfoParam_out _ _ _ _) hbuilds hframe
  · rw [getaddrinfo_failed st pai c.world hnum hrep service, if_neg (show EAI_FAIL ≠ 0 by decide)]
    have hframe : Frame (touched st env name req pai) c.world.mem
        ((aresInit st c.world).mem.storePtr pai 0) := by
      apply Frame.store_of ((aresInit_frame st c.world).mono Set.subset_union_left)
      exact Set.subset_union_left.trans Set.subset_union_right
    exact ⟨nodes, hb.of_frame (aresInit_live st c.world) hframe (hb.disjoint_touched hf)⟩
  · exact absurd h hwithout

/-- An allowed `freeaddrinfo` frees the nodes of its list, leaves the other live blocks alone
and keeps the balance. -/
theorem after_freeaddrinfo (hb : Balanced st c nodes) (al : Allocator) {ai : ℕ}
    (hai : ai = 0 ∨ ai ∈ c.heads) :
    ∃ freed w, freeaddrinfo al ai c.world = some w ∧ Chain c.world.mem 40 ai freed ∧
      c.world.live.Perm (freed ++ w.live) ∧ (∀ b ∈ w.live, w.mem.read b 1088 = c.world.mem.read b 1088) ∧
      Balanced st ⟨w, c.heads.erase ai⟩ nodes := by
  obtain ⟨freed, rest, hchain, hperm, hsep, hoff, howns⟩ := hb.owns.split hai
  obtain ⟨w, hrun, hlive, hframe⟩ := freeaddrinfo_run al hchain hperm hsep
  refine ⟨freed, w, hrun, hchain, hperm.trans (hlive.symm.append_left freed), fun b hmem => ?_, ?_, fun b hmem => ?_⟩
  · exact hframe.read (hoff.mono_left (block_subset (hlive.mem_iff.mp hmem)))
  · exact (howns.frame hframe hoff (by norm_num)).perm hlive.symm
  · exact hb.he b (hperm.mem_iff.mpr (List.mem_append_right _ (hlive.mem_iff.mp hmem)))

end Balanced

section

variable {st : Statics} {al : Allocator} {c : Client}

/-- One allowed action. -/
theorem exec_balanced {nodes : ℕ → List ℕ} (hb : Balanced st c nodes) {a : Action} (ha : a.Allowed st c)
    {c' : Client} (he : a.exec st al c = some c') : ∃ nodes', Balanced st c' nodes' := by
  cases a with
  | getaddrinfo env name service req pai =>
    obtain ⟨hr, hf, hwithout⟩ := ha
    obtain rfl := Option.some.inj he
    exact hb.after_getaddrinfo hr hf hwithout service
  | freeaddrinfo ai =>
    obtain ⟨freed, w, hrun, _, _, _, hb'⟩ := hb.after_freeaddrinfo al ha
    rw [Action.exec, hrun] at he
    obtain rfl := Option.some.inj he
    exact ⟨nodes, hb'⟩
  | write a bs =>
    obtain rfl := Option.some.inj he
    have hoff : Disjoint (span a bs.length) (blockBytes 1088 c.world.live) :=
      disjoint_blockBytes fun b hmem => disjoint_span (ha b hmem)
    exact ⟨nodes, hb.of_frame rfl (Frame.write _ a bs) hoff.symm⟩

/-- A whole run. -/
theorem reachable_balanced (h : Reachable st al c) : ∃ nodes, Balanced st c nodes := by
  induction h with
  | start hlive =>
    refine ⟨fun _ => [], ?_, by simp [hlive]⟩
    rw [hlive]
    exact .nil 1088 40 _
  | step _ ha he ih =>
    obtain ⟨nodes, hb⟩ := ih
    exact exec_balanced hb ha he

/-- At every point of a run the blocks are accounted for. -/
theorem addrinfo_balance (hc : Reachable st al c) : Accounted al c := by
  obtain ⟨nodes, hb⟩ := reachable_balanced hc
  have hsize : 0 < 1088 := by norm_num
  refine ⟨⟨nodes, fun h hh => ⟨(hb.owns.lists h hh).2, hb.owns.nodup_cells hsize hh⟩, hb.owns.blocks,
    hb.owns.separate.nodup hsize⟩, fun hnil => ?_, fun ai hai => ?_⟩
  · have hlive := hb.owns.blocks
    rw [hnil] at hlive
    exact hlive.eq_nil
  · obtain ⟨freed, w, hrun, hchain, hperm, hread, _⟩ := hb.after_freeaddrinfo al hai
    exact ⟨freed, w, hrun, hchain, hperm, hread⟩

end

/-- An allocator that leaves zeros. -/
def Allocator.sample : Allocator where
  scribble p m := m.write p (List.replicate 1088 0)
  frame p m := by
    have h := Frame.write m p (List.replicate 1088 0)
    rwa [List.length_replicate] at h

/-- A lookup of that name. -/
def Action.sample : Action := .getaddrinfo (.sample (.success .two)) [97] none none 0x6000

theorem sample_allowed : Action.sample.Allowed .sample ⟨.zero, []⟩ := by
  refine ⟨Env.sample_ready _ .two (by decide) (by decide) .zero rfl, ⟨?_, ?_, ?_⟩, ?_⟩
  · exact fun _ _ b hb => absurd hb List.not_mem_nil
  · intro k _
    simp only [Env.sample, Statics.sample]
    omega
  · exact fun b hb => absurd hb List.not_mem_nil
  · exact fun h => absurd h.blockCount (by decide)

/-- A client that holds a list of two nodes. -/
theorem addrinfo_balance_sample : ∃ c : Client, c.heads.length = 1 ∧ c.world.live.length = 2 ∧
    Accounted .sample c := by
  obtain ⟨w, hrun, hbuilds⟩ := getaddrinfo_builds (Env.sample_ready [97] .two (by decide) (by decide) .zero rfl)
    none (by decide)
  have hexec : Action.sample.exec .sample .sample ⟨.zero, []⟩ = some ⟨w, [w.mem.loadPtr 0x6000]⟩ := by
    simp only [Action.exec, Action.sample, hrun, ↓reduceIte]
  refine ⟨_, rfl, ?_, addrinfo_balance (.step (.start rfl) sample_allowed hexec)⟩
  rw [hbuilds.live]
  rfl

end FakeDns
