import Mathlib.Algebra.Group.Nat.Defs
import Mathlib.Data.List.Range
import Mathlib.Data.Set.Lattice
import Mathlib.Order.CompletePartialOrder
import Mathlib.Order.Interval.Set.Basic

/-! A flat memory of bytes. Addresses are natural numbers; a write stores a list
of bytes from an address on, and a read returns the bytes of an interval. A
frame is a set of addresses outside of which two memories agree: every fact
about the bytes that an operation leaves alone goes through its frame. -/

namespace ByteMemory

/-- One byte at every address. -/
abbrev Mem := ℕ → UInt8

/-- The intervals `[a, a + n)` and `[b, b + k)` have no address in common. -/
abbrev Apart (a n b k : ℕ) : Prop := a + n ≤ b ∨ b + k ≤ a

namespace Mem

/-- Store `bs` from address `a` on. -/
def write (m : Mem) (a : ℕ) (bs : List UInt8) : Mem :=
  fun j => if a ≤ j ∧ j < a + bs.length then bs.getD (j - a) 0 else m j

/-- The `n` bytes from address `a` on. -/
def read (m : Mem) (a n : ℕ) : List UInt8 := (List.range n).map fun i => m (a + i)

variable {m m' m'' : Mem} {a b n k j : ℕ} {bs cs : List UInt8}

theorem write_inside (h₁ : a ≤ j) (h₂ : j - a < bs.length) : m.write a bs j = bs[j - a] := by
  rw [write, if_pos ⟨h₁, by omega⟩, List.getD_eq_getElem?_getD, List.getElem?_eq_getElem h₂,
    Option.getD_some]

theorem write_outside (h : j < a ∨ a + bs.length ≤ j) : m.write a bs j = m j := by
  rw [write, if_neg (by omega)]

@[simp] theorem length_read (m : Mem) (a n : ℕ) : (m.read a n).length = n := by simp [read]

@[simp] theorem getElem_read (m : Mem) (a n i : ℕ) (h : i < (m.read a n).length) :
    (m.read a n)[i] = m (a + i) := by simp [read]

theorem read_congr (h : ∀ i < n, m' (a + i) = m (b + i)) : m'.read a n = m.read b n :=
  List.map_congr_left fun i hi => h i (List.mem_range.mp hi)

theorem read_eq_iff : m.read a n = bs ↔ bs.length = n ∧ ∀ i (h : i < bs.length), m (a + i) = bs[i] := by
  constructor
  · rintro rfl
    exact ⟨by simp, fun i h => by simp⟩
  · rintro ⟨rfl, h⟩
    exact List.ext_getElem (by simp) fun i _ hi => by simpa using h i hi

theorem read_append (m : Mem) (a n k : ℕ) : m.read a (n + k) = m.read a n ++ m.read (a + n) k := by
  simp only [read, List.range_add, List.map_append, List.map_map]
  congr 1
  exact List.map_congr_left fun i _ => by simp [Nat.add_assoc]

/-- A read that is known in two parts. -/
theorem read_eq_append (h : m.read a (n + k) = bs ++ cs) (hb : bs.length = n) :
    m.read a n = bs ∧ m.read (a + n) k = cs := by
  rw [read_append] at h
  exact List.append_inj h (by rw [length_read, hb])

/-- A sub-interval of a read. -/
theorem drop_take_read (h : j + k ≤ n) : ((m.read a n).drop j).take k = m.read (a + j) k := by
  refine List.ext_getElem (by simp; omega) fun i _ _ => ?_
  simp [Nat.add_assoc]

theorem take_read (h : k ≤ n) : (m.read a n).take k = m.read a k := by
  simpa using drop_take_read (m := m) (a := a) (j := 0) (k := k) (n := n) (by omega)

@[simp] theorem read_write (m : Mem) (a : ℕ) (bs : List UInt8) :
    (m.write a bs).read a bs.length = bs := by
  refine read_eq_iff.mpr ⟨rfl, fun i h => ?_⟩
  rw [write_inside (by omega) (by omega)]
  congr 1
  omega

/-- Bytes inside one write. -/
theorem read_write_inside (h₁ : a ≤ b) (h₂ : b + n ≤ a + bs.length) :
    (m.write a bs).read b n = (bs.drop (b - a)).take n := by
  have h := drop_take_read (m := m.write a bs) (a := a) (n := bs.length) (j := b - a) (k := n) (by omega)
  rw [read_write, show a + (b - a) = b by omega] at h
  exact h.symm

theorem read_write_apart (h : Apart b n a bs.length) : (m.write a bs).read b n = m.read b n :=
  read_congr fun i hi => write_outside (by omega)

/-- A write hides an earlier write of the same interval. -/
theorem write_write_same (h : bs.length = cs.length) : (m.write a bs).write a cs = m.write a cs := by
  funext j
  by_cases hj : a ≤ j ∧ j < a + cs.length
  · rw [write_inside hj.1 (by omega), write_inside hj.1 (by omega)]
  · rw [write_outside (by omega), write_outside (by omega), write_outside (by omega)]

theorem write_comm (h : Apart a bs.length b cs.length) :
    (m.write a bs).write b cs = (m.write b cs).write a bs := by
  funext j
  by_cases hb : b ≤ j ∧ j < b + cs.length
  · rw [write_inside hb.1 (by omega), write_outside (by omega), write_inside hb.1 (by omega)]
  · rw [write_outside (m := m.write a bs) (by omega)]
    by_cases ha : a ≤ j ∧ j < a + bs.length
    · rw [write_inside ha.1 (by omega), write_inside ha.1 (by omega)]
    · rw [write_outside (by omega), write_outside (by omega), write_outside (by omega)]

end Mem

/-! ### Frames -/

/-- The addresses of the `n` bytes from `a` on. -/
def span (a n : ℕ) : Set ℕ := Set.Ico a (a + n)

@[simp] theorem mem_span {a n j : ℕ} : j ∈ span a n ↔ a ≤ j ∧ j < a + n := Iff.rfl

/-- The memories agree outside `R`. -/
def Frame (R : Set ℕ) (m m' : Mem) : Prop := Set.EqOn m' m Rᶜ

namespace Frame

variable {R S : Set ℕ} {m m' m'' : Mem} {a n : ℕ} {bs : List UInt8}

theorem refl (R : Set ℕ) (m : Mem) : Frame R m m := Set.eqOn_refl m Rᶜ

theorem trans (h : Frame R m m') (h' : Frame R m' m'') : Frame R m m'' := Set.EqOn.trans h' h

theorem mono (h : Frame R m m') (hs : R ⊆ S) : Frame S m m' :=
  Set.EqOn.mono (Set.compl_subset_compl.mpr hs) h

theorem write (m : Mem) (a : ℕ) (bs : List UInt8) : Frame (span a bs.length) m (m.write a bs) :=
  fun _ hj => Mem.write_outside (by rw [Set.mem_compl_iff, mem_span] at hj; omega)

/-- A write into `R` keeps the frame `R`. -/
theorem write_of (h : Frame R m m') (hs : span a bs.length ⊆ R) : Frame R m (m'.write a bs) :=
  h.trans ((Frame.write m' a bs).mono hs)

theorem read (h : Frame R m m') (hd : Disjoint (span a n) R) : m'.read a n = m.read a n :=
  Mem.read_congr fun i hi => h (Set.disjoint_left.mp hd ⟨by omega, by omega⟩)

end Frame

theorem span_subset {a n b k : ℕ} (h₁ : b ≤ a) (h₂ : a + n ≤ b + k) : span a n ⊆ span b k :=
  Set.Ico_subset_Ico h₁ h₂

theorem disjoint_span {a n b k : ℕ} (h : Apart a n b k) : Disjoint (span a n) (span b k) :=
  Set.disjoint_left.mpr fun j hj hj' => by rw [mem_span] at hj hj'; omega

/-- The intervals `(address, size)` are separate objects, none of them at NULL, inside a
64-bit address space. -/
structure Layout (rs : List (ℕ × ℕ)) : Prop where
  object : ∀ r ∈ rs, 0 < r.1 ∧ r.1 + r.2 ≤ 2 ^ 64
  apart : rs.Pairwise fun r s => Apart r.1 r.2 s.1 s.2

instance (rs : List (ℕ × ℕ)) : Decidable (Layout rs) :=
  decidable_of_iff ((∀ r ∈ rs, 0 < r.1 ∧ r.1 + r.2 ≤ 2 ^ 64) ∧
    rs.Pairwise fun r s => Apart r.1 r.2 s.1 s.2) ⟨fun h => ⟨h.1, h.2⟩, fun h => ⟨h.object, h.apart⟩⟩

end ByteMemory
