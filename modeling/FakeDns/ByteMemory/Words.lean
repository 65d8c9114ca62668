import FakeDns.ByteMemory.Bytes
import Mathlib.Data.Nat.Digits.Lemmas

/-! Little-endian words of a byte memory. A word of `w` bytes is a natural number
below `256 ^ w`; storing truncates and loading what was stored gives the number
back modulo `256 ^ w`. A pointer is a word of eight bytes. -/

namespace ByteMemory

/-- The `w` low bytes of `v`, least significant first. -/
def toLE : ℕ → ℕ → List UInt8
  | 0, _ => []
  | w + 1, v => UInt8.ofNat v :: toLE w (v / 256)

/-- The number spelled by a list of bytes, least significant first. -/
def ofLE (bs : List UInt8) : ℕ := Nat.ofDigits 256 (bs.map UInt8.toNat)

@[simp] theorem length_toLE (w v : ℕ) : (toLE w v).length = w := by
  induction w generalizing v with
  | zero => rfl
  | succ w ih => simp [toLE, ih]

theorem ofLE_cons (b : UInt8) (bs : List UInt8) : ofLE (b :: bs) = b.toNat + 256 * ofLE bs := by
  simp [ofLE, Nat.ofDigits_cons]

theorem ofLE_toLE (w v : ℕ) : ofLE (toLE w v) = v % 256 ^ w := by
  induction w generalizing v with
  | zero => simp [toLE, ofLE, Nat.mod_one]
  | succ w ih =>
    rw [toLE, ofLE_cons, ih, Nat.pow_succ', Nat.mod_mul]
    simp

theorem toLE_ofLE (bs : List UInt8) : toLE bs.length (ofLE bs) = bs := by
  induction bs with
  | nil => rfl
  | cons b bs ih =>
    have hb := b.toNat_lt
    rw [List.length_cons, toLE, ofLE_cons, show (b.toNat + 256 * ofLE bs) / 256 = ofLE bs by omega, ih]
    congr 1
    apply UInt8.toNat_inj.mp
    simp

namespace Mem

/-- Load a word of `w` bytes. -/
def load (m : Mem) (w a : ℕ) : ℕ := ofLE (m.read a w)

/-- Store a word of `w` bytes. -/
def store (m : Mem) (w a v : ℕ) : Mem := m.write a (toLE w v)

/-- Load a pointer. -/
abbrev loadPtr (m : Mem) (a : ℕ) : ℕ := m.load 8 a

/-- Store a pointer. -/
abbrev storePtr (m : Mem) (a p : ℕ) : Mem := m.store 8 a p

variable {m m' : Mem} {a b w k v : ℕ} {bs : List UInt8}

theorem load_store (m : Mem) (w a v : ℕ) : (m.store w a v).load w a = v % 256 ^ w := by
  have h := read_write m a (toLE w v)
  rw [length_toLE] at h
  rw [load, store, h, ofLE_toLE]

theorem load_store_of_lt (h : v < 256 ^ w) : (m.store w a v).load w a = v := by
  rw [load_store, Nat.mod_eq_of_lt h]

theorem read_store (m : Mem) (w a v : ℕ) : (m.store w a v).read a w = toLE w v := by
  have h := read_write m a (toLE w v)
  rwa [length_toLE] at h

theorem read_store_apart (h : Apart b k a w) : (m.store w a v).read b k = m.read b k :=
  read_write_apart (by rwa [length_toLE])

theorem load_write_apart (h : Apart b k a bs.length) : (m.write a bs).load k b = m.load k b := by
  rw [load, load, read_write_apart h]

theorem load_store_apart (h : Apart b k a w) : (m.store w a v).load k b = m.load k b := by
  rw [load, load, read_store_apart h]

theorem store_store_same (m : Mem) (w a u v : ℕ) : (m.store w a u).store w a v = m.store w a v :=
  write_write_same (by simp)

theorem store_comm {u : ℕ} (h : Apart a w b k) :
    (m.store w a u).store k b v = (m.store k b v).store w a u :=
  write_comm (by simpa using h)

theorem store_write_comm {u : ℕ} (h : Apart a w b bs.length) :
    (m.store w a u).write b bs = (m.write b bs).store w a u :=
  write_comm (by simpa using h)

/-- The bytes of a word are those of its value. -/
theorem read_eq_toLE (m : Mem) (a w : ℕ) : m.read a w = toLE w (m.load w a) := by
  have h := toLE_ofLE (m.read a w)
  rwa [length_read, eq_comm] at h

theorem load_eq_iff : m.load w a = m'.load w b ↔ m.read a w = m'.read b w := by
  constructor
  · intro h
    rw [read_eq_toLE, read_eq_toLE, h]
  · intro h
    rw [load, load, h]

theorem load_of_read (h : m.read a w = toLE w v) (hv : v < 256 ^ w) : m.load w a = v := by
  rw [load, h, ofLE_toLE, Nat.mod_eq_of_lt hv]

/-- A short word followed by zeros reads the same as a wide word. -/
theorem load_zero_extend {k : ℕ} (h : m.read (a + w) k = List.replicate k 0) : m.load (w + k) a = m.load w a := by
  rw [load, load, read_append, h, ofLE, ofLE, List.map_append, List.map_replicate, UInt8.toNat_zero,
    Nat.ofDigits_append_replicate_zero]

theorem toLE_zero (w : ℕ) : toLE w 0 = List.replicate w 0 := by
  induction w with
  | zero => rfl
  | succ w ih => rw [toLE, Nat.zero_div, ih, List.replicate_succ]; rfl

theorem load_eq_zero_iff : m.load w a = 0 ↔ m.read a w = List.replicate w 0 := by
  rw [← toLE_zero]
  exact ⟨fun h => by rw [read_eq_toLE, h], fun h => load_of_read h (Nat.pow_pos (by norm_num))⟩

end Mem

namespace Frame

variable {R : Set ℕ} {m m' : Mem} {a w v : ℕ}

theorem store (m : Mem) (w a v : ℕ) : Frame (span a w) m (m.store w a v) := by
  have h := Frame.write m a (toLE w v)
  rwa [length_toLE] at h

theorem store_of (h : Frame R m m') (hs : span a w ⊆ R) : Frame R m (m'.store w a v) :=
  h.trans ((Frame.store m' w a v).mono hs)

theorem load (h : Frame R m m') (hd : Disjoint (span a w) R) : m'.load w a = m.load w a := by
  rw [Mem.load, Mem.load, h.read hd]

end Frame

end ByteMemory
