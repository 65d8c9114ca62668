import FakeDns.ByteMemory.Blocks
import FakeDns.AddrInfo.Block

/-! `freeaddrinfo`. The loop reads the next pointer of a node and then frees the node, so a
list is destroyed while it is walked. Reading or freeing a block that is not live is an
error here; a list of live and separate nodes is freed without one, each node once. -/

namespace FakeDns

open ByteMemory Mem

/-- What `free` of the C library leaves in a freed block. It changes no other memory. -/
structure Allocator where
  scribble : ℕ → Mem → Mem
  frame : ∀ p m, Frame (span p sizeofAddinfoData) m (scribble p m)

/-- `p->ai_next`; none if `p` is not a live block. -/
def readNext (p : ℕ) (w : World) : Option ℕ := if p ∈ w.live then some (w.mem.loadPtr (aiNext p)) else none

/-- `free (p)`; none if `p` is not a live block. -/
def free (al : Allocator) (p : ℕ) (w : World) : Option World :=
  if p ∈ w.live then some { w with mem := al.scribble p w.mem, live := w.live.erase p } else none

/-- The loop of `freeaddrinfo`, at most `fuel` times. None: a block that is not live is read or
freed, or the loop goes on. -/
def freeLoop (al : Allocator) : ℕ → ℕ → World → Option World
  | 0, next, w => if next = 0 then some w else none
  | fuel + 1, next, w =>
    if next = 0 then some w else
      let curr := next
      match readNext next w with
      | none => none
      | some next =>
        match free al curr w with
        | none => none
        | some w => freeLoop al fuel next w

/-- `freeaddrinfo`; every iteration frees a live block. -/
def freeaddrinfo (al : Allocator) (ai : ℕ) (w : World) : Option World := freeLoop al w.live.length ai w

section

variable {al : Allocator}

@[simp] theorem freeLoop_null (fuel : ℕ) (w : World) : freeLoop al fuel 0 w = some w := by
  cases fuel <;> simp [freeLoop]

/-- One iteration on a live block. -/
theorem freeLoop_live {p : ℕ} {w : World} (hp : p ≠ 0) (hlive : p ∈ w.live) (fuel : ℕ) :
    freeLoop al (fuel + 1) p w = freeLoop al fuel (w.mem.loadPtr (aiNext p))
      { w with mem := al.scribble p w.mem, live := w.live.erase p } := by
  simp only [freeLoop, readNext, free, hp, hlive, ↓reduceIte]

theorem freeLoop_dead {p : ℕ} {w : World} (hp : p ≠ 0) (hlive : p ∉ w.live) (fuel : ℕ) :
    freeLoop al fuel p w = none := by
  cases fuel <;> simp only [freeLoop, readNext, hp, hlive, ↓reduceIte]

/-- The number of live blocks is fuel enough: more iterations change nothing. -/
theorem freeLoop_fuel {fuel : ℕ} {ai : ℕ} {w : World} (h : w.live.length ≤ fuel) :
    freeLoop al fuel ai w = freeaddrinfo al ai w := by
  rw [freeaddrinfo]
  induction hn : w.live.length generalizing fuel ai w with
  | zero =>
    by_cases hp : ai = 0
    · rw [hp, freeLoop_null, freeLoop_null]
    · have hdead : ai ∉ w.live := by simp [List.length_eq_zero_iff.mp hn]
      rw [freeLoop_dead hp hdead, freeLoop_dead hp hdead]
  | succ n ih =>
    obtain ⟨k, rfl⟩ : ∃ k, fuel = k + 1 := ⟨fuel - 1, by omega⟩
    by_cases hp : ai = 0
    · rw [hp, freeLoop_null, freeLoop_null]
    · by_cases hlive : ai ∈ w.live
      · have hlen := List.length_erase_of_mem hlive
        rw [freeLoop_live hp hlive, freeLoop_live hp hlive]
        apply ih
        · simp only
          omega
        · simp only
          omega
      · rw [freeLoop_dead hp hlive, freeLoop_dead hp hlive]

/-- A list of live nodes is freed: each of its nodes leaves the live blocks, the others stay,
and nothing but the bytes of its nodes has changed. -/
theorem freeLoop_run {nodes rest : List ℕ} : ∀ (p fuel : ℕ) (w : World), Chain w.mem 40 p nodes →
    w.live.Perm (nodes ++ rest) → Separate 1088 nodes → nodes.length ≤ fuel →
    ∃ w', freeLoop al fuel p w = some w' ∧ w'.live.Perm rest ∧ Frame (blockBytes 1088 nodes) w.mem w'.mem := by
  induction nodes with
  | nil =>
    intro p fuel w hchain hperm _ _
    obtain rfl := hchain
    exact ⟨w, freeLoop_null fuel w, hperm, Frame.refl _ _⟩
  | cons a nodes ih =>
    intro p fuel w hchain hperm hsep hfuel
    obtain ⟨rfl, hne, hchain⟩ := hchain
    obtain ⟨k, rfl⟩ : ∃ k, fuel = k + 1 := ⟨fuel - 1, by rw [List.length_cons] at hfuel; omega⟩
    have hlive : p ∈ w.live := hperm.mem_iff.mpr (List.mem_append_left _ List.mem_cons_self)
    have hfree : Frame (span p 1088) w.mem (al.scribble p w.mem) := al.frame p w.mem
    obtain ⟨hap, hsep⟩ := List.pairwise_cons.mp hsep
    -- the rest of the list is in other blocks
    have hoff : Disjoint (blockBytes 1088 nodes) (span p 1088) :=
      (disjoint_blockBytes fun b hb => disjoint_span (hap b hb)).symm
    have hchain' := hchain.frame_blocks hfree hoff (by omega)
    have hperm' : (w.live.erase p).Perm (nodes ++ rest) := by
      have herase := hperm.erase p
      rwa [List.cons_append, List.erase_cons_head] at herase
    obtain ⟨w', hrun, hlive', hframe⟩ := ih _ k { w with mem := al.scribble p w.mem, live := w.live.erase p }
      hchain' hperm' hsep (by rw [List.length_cons] at hfuel; omega)
    refine ⟨w', (freeLoop_live hne hlive k).trans hrun, hlive', ?_⟩
    exact (hfree.mono (block_subset List.mem_cons_self)).trans
      (hframe.mono (blockBytes_subset (List.subset_cons_self p nodes)))

variable (al) in
/-- `freeaddrinfo` on a list of live nodes. -/
theorem freeaddrinfo_run {nodes rest : List ℕ} {ai : ℕ} {w : World} (hchain : Chain w.mem 40 ai nodes)
    (hperm : w.live.Perm (nodes ++ rest)) (hsep : Separate 1088 nodes) :
    ∃ w', freeaddrinfo al ai w = some w' ∧ w'.live.Perm rest ∧ Frame (blockBytes 1088 nodes) w.mem w'.mem := by
  apply freeLoop_run _ _ _ hchain hperm hsep
  rw [hperm.length_eq, List.length_append]
  omega

end

end FakeDns
