import FakeDns.ByteMemory.Blocks
import Mathlib.Logic.Function.Basic

/-! Linked lists that own the live blocks of a heap. A list is known by its first cell. The
lists own the blocks when every live block is a cell of exactly one list. Three rules keep the
ownership: memory changes off the live blocks, one more list arrives in blocks of its own, and
one list is handed out. -/

namespace ByteMemory

/-- The lists that begin at `heads` are NULL-terminated, and their cells are the live blocks,
which share no byte. -/
structure Owns (size next : ℕ) (m : Mem) (live heads : List ℕ) (cells : ℕ → List ℕ) : Prop where
  lists : ∀ h ∈ heads, h ≠ 0 ∧ Chain m next h (cells h)
  blocks : live.Perm (heads.flatMap cells)
  separate : Separate size live

namespace Owns

variable {size next p : ℕ} {m m' : Mem} {live live' heads new : List ℕ} {cells : ℕ → List ℕ} {R : Set ℕ}

/-- No list, no block. -/
theorem nil (size next : ℕ) (m : Mem) : Owns size next m [] [] fun _ => [] :=
  ⟨by simp, by simp, List.Pairwise.nil⟩

theorem perm (h : Owns size next m live heads cells) (hp : live.Perm live') :
    Owns size next m live' heads cells :=
  ⟨h.lists, hp.symm.trans h.blocks, h.separate.perm hp⟩

theorem cells_subset (h : Owns size next m live heads cells) {q : ℕ} (hq : q ∈ heads) : cells q ⊆ live :=
  fun _ ha => h.blocks.mem_iff.mpr (List.mem_flatMap.mpr ⟨q, hq, ha⟩)

theorem head_live (h : Owns size next m live heads cells) {q : ℕ} (hq : q ∈ heads) : q ∈ live := by
  obtain ⟨hne, hchain⟩ := h.lists q hq
  exact h.cells_subset hq (hchain.head_mem hne)

/-- A list repeats no cell. -/
theorem nodup_cells (h : Owns size next m live heads cells) (hsize : 0 < size) {q : ℕ} (hq : q ∈ heads) :
    (cells q).Nodup :=
  (List.nodup_flatMap.mp (h.blocks.nodup_iff.mp (h.separate.nodup hsize))).1 q hq

/-- A change off the live blocks. -/
theorem frame (h : Owns size next m live heads cells) (hf : Frame R m m')
    (hd : Disjoint (blockBytes size live) R) (hnext : next + 8 ≤ size) : Owns size next m' live heads cells where
  lists q hq := by
    obtain ⟨hne, hchain⟩ := h.lists q hq
    exact ⟨hne, hchain.frame_blocks hf (hd.mono_left (blockBytes_subset (h.cells_subset hq))) hnext⟩
  blocks := h.blocks
  separate := h.separate

/-- One more list, in blocks of its own. -/
theorem push (h : Owns size next m live heads cells) (hsize : 0 < size) (hp : p ≠ 0)
    (hchain : Chain m next p new) (hsep : Separate size (new ++ live)) :
    ∃ cells', Owns size next m (new ++ live) (p :: heads) cells' := by
  have hnodup := List.nodup_append.mp (hsep.nodup hsize)
  -- the new list is none of the old ones
  have hold : ∀ q ∈ heads, q ≠ p := by
    rintro q hq rfl
    exact hnodup.2.2 q (hchain.head_mem hp) q (h.head_live hq) rfl
  have hkeep : ∀ q ∈ heads, Function.update cells p new q = cells q := fun q hq =>
    Function.update_of_ne (hold q hq) new cells
  refine ⟨Function.update cells p new, ?_, ?_, hsep⟩
  · intro q hq
    rcases List.mem_cons.mp hq with rfl | hq
    · rw [Function.update_self]
      exact ⟨hp, hchain⟩
    · rw [hkeep q hq]
      exact h.lists q hq
  · rw [List.flatMap_cons, Function.update_self, List.flatMap_congr hkeep]
    exact h.blocks.append_left new

/-- One list, or the empty one, is handed out: its cells, and the rest. -/
theorem split (h : Owns size next m live heads cells) (hp : p = 0 ∨ p ∈ heads) :
    ∃ out rest, Chain m next p out ∧ live.Perm (out ++ rest) ∧ Separate size out ∧
      Disjoint (blockBytes size rest) (blockBytes size out) ∧ Owns size next m rest (heads.erase p) cells := by
  obtain ⟨out, hchain, hperm⟩ : ∃ out, Chain m next p out ∧
      live.Perm (out ++ (heads.erase p).flatMap cells) := by
    rcases hp with rfl | hp
    · have h0 : 0 ∉ heads := fun hq => (h.lists 0 hq).1 rfl
      rw [List.erase_of_not_mem h0]
      exact ⟨[], rfl, h.blocks⟩
    · exact ⟨cells p, (h.lists p hp).2, h.blocks.trans ((List.perm_cons_erase hp).flatMap_right cells)⟩
  obtain ⟨hout, hrest, hoff⟩ := (h.separate.perm hperm).of_append
  exact ⟨out, _, hchain, hperm, hout, hoff.symm, fun q hq => h.lists q (List.mem_of_mem_erase hq), List.Perm.refl _,
    hrest⟩

end Owns

end ByteMemory
