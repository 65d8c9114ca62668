import FakeDns.ByteMemory.Lists

/-! Blocks of one size. A list of addresses stands for the blocks that begin there. Blocks
are separate when no two of them share a byte; the order of the list does not matter. A
linked list whose cells are blocks survives any frame off its blocks. -/

namespace ByteMemory

/-- The bytes of the blocks of `size` bytes at the addresses `as`. -/
def blockBytes (size : ℕ) (as : List ℕ) : Set ℕ := {j | ∃ a ∈ as, j ∈ span a size}

/-- No two of the blocks share a byte. -/
def Separate (size : ℕ) (as : List ℕ) : Prop := as.Pairwise fun a b => Apart a size b size

section

variable {size a : ℕ} {as bs : List ℕ} {R : Set ℕ}

theorem block_subset (h : a ∈ as) : span a size ⊆ blockBytes size as := fun _ hj => ⟨a, h, hj⟩

theorem blockBytes_subset (h : as ⊆ bs) : blockBytes size as ⊆ blockBytes size bs :=
  fun _ ⟨a, ha, hj⟩ => ⟨a, h ha, hj⟩

theorem disjoint_blockBytes (h : ∀ a ∈ as, Disjoint R (span a size)) : Disjoint R (blockBytes size as) := by
  rw [Set.disjoint_left]
  rintro j hj ⟨a, ha, hja⟩
  exact Set.disjoint_left.mp (h a ha) hj hja

namespace Separate

theorem perm (h : Separate size as) (hp : as.Perm bs) : Separate size bs :=
  (hp.pairwise_iff fun hab => hab.symm).mp h

theorem nodup (h : Separate size as) (hsize : 0 < size) : as.Nodup :=
  h.imp fun hab heq => by omega

theorem of_append (h : Separate size (as ++ bs)) : Separate size as ∧ Separate size bs ∧
    Disjoint (blockBytes size as) (blockBytes size bs) := by
  obtain ⟨has, hbs, hcross⟩ := List.pairwise_append.mp h
  refine ⟨has, hbs, disjoint_blockBytes fun b hb => (disjoint_blockBytes fun a ha => ?_).symm⟩
  exact (disjoint_span (hcross a ha b hb)).symm

end Separate

/-- A linked list of blocks survives a frame off the blocks. -/
theorem Chain.frame_blocks {m m' : Mem} {next p : ℕ} (h : Chain m next p as) (hf : Frame R m m')
    (hd : Disjoint (blockBytes size as) R) (hnext : next + 8 ≤ size) : Chain m' next p as := by
  apply h.frame hf
  intro a ha
  exact hd.mono_left ((span_subset (by omega) (by omega)).trans (block_subset ha))

end

end ByteMemory
