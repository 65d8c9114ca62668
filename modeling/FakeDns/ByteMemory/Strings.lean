import FakeDns.ByteMemory.Words

/-! NUL-terminated strings in a byte memory, and the bounded copy `strncpy`, which
writes exactly `n` bytes: the first `n` characters of the source, then zeros.
A bounded copy whose last byte is overwritten with a zero is one write of the
source cut to `n - 1` characters and padded to `n` bytes. -/

namespace ByteMemory

/-- The first `n` bytes of `s`, filled up to `n` bytes with zeros. -/
def padded (s : List UInt8) (n : ℕ) : List UInt8 := s.take n ++ List.replicate (n - s.length) 0

@[simp] theorem length_padded (s : List UInt8) (n : ℕ) : (padded s n).length = n := by
  simp [padded]; omega

theorem getElem_padded (s : List UInt8) (n i : ℕ) (h : i < (padded s n).length) :
    (padded s n)[i] = s.getD i 0 := by
  rw [length_padded] at h
  rw [List.getD_eq_getElem?_getD]
  by_cases hi : i < s.length
  · simp [padded, hi, h]
  · simp [padded, List.getElem_append, hi]

/-- What a copy into `s` leaves behind its last character. -/
theorem drop_padded (s : List UInt8) (k n : ℕ) : (padded s n).drop k = padded (s.drop k) (n - k) := by
  refine List.ext_getElem (by simp) fun i _ _ => ?_
  rw [List.getElem_drop, getElem_padded, getElem_padded]
  simp [List.getD_eq_getElem?_getD, List.getElem?_drop]

/-- The string `s`, free of zeros, stands at `a` with its terminating zero. -/
def CString (m : Mem) (a : ℕ) (s : List UInt8) : Prop :=
  0 ∉ s ∧ m.read a (s.length + 1) = s ++ [0]

instance (m : Mem) (a : ℕ) (s : List UInt8) : Decidable (CString m a s) :=
  inferInstanceAs (Decidable (_ ∧ _))

/-- The string at the head of a list of bytes: everything before the first zero. -/
def headString (bs : List UInt8) : List UInt8 := bs.takeWhile (· ≠ 0)

theorem zero_notMem_headString (bs : List UInt8) : 0 ∉ headString bs := by
  induction bs with
  | nil => simp [headString]
  | cons b bs ih =>
    by_cases hb : b = 0
    · simp [headString, hb]
    · rw [show headString (b :: bs) = b :: headString bs by simp [headString, hb]]
      simpa [Ne.symm hb] using ih

theorem headString_eq_append {bs : List UInt8} (h : 0 ∈ bs) :
    ∃ rest, bs = headString bs ++ 0 :: rest := by
  induction bs with
  | nil => simp at h
  | cons b bs ih =>
    by_cases hb : b = 0
    · subst hb
      exact ⟨bs, by simp [headString]⟩
    · obtain ⟨rest, hr⟩ := ih (by simpa [Ne.symm hb] using h)
      refine ⟨rest, ?_⟩
      rw [show headString (b :: bs) = b :: headString bs by simp [headString, hb], List.cons_append, ← hr]

namespace CString

variable {m : Mem} {a n : ℕ} {s t : List UInt8}

theorem byte (h : CString m a s) (i : ℕ) (hi : i < s.length) : m (a + i) = s[i] := by
  have := (Mem.read_eq_iff.mp h.2).2 i (by simp; omega)
  rwa [List.getElem_append_left hi] at this

theorem terminator (h : CString m a s) : m (a + s.length) = 0 := by
  have := (Mem.read_eq_iff.mp h.2).2 s.length (by simp)
  simpa using this

theorem length_le (h : CString m a s) (h' : CString m a t) : s.length ≤ t.length := by
  by_contra hlt
  have hz := h.byte t.length (by omega)
  rw [h'.terminator] at hz
  exact h.1 (hz ▸ List.getElem_mem _)

/-- A string in memory is determined by its address. -/
theorem unique (h : CString m a s) (h' : CString m a t) : s = t :=
  List.ext_getElem (le_antisymm (h.length_le h') (h'.length_le h)) fun i hi hi' =>
    (h.byte i hi).symm.trans (h'.byte i hi')

theorem of_headString (hz : 0 ∈ m.read a n) : CString m a (headString (m.read a n)) := by
  obtain ⟨rest, hr⟩ := headString_eq_append hz
  have hn : (headString (m.read a n)).length + 1 ≤ n := by
    have := congrArg List.length hr
    simp only [Mem.length_read, List.length_append, List.length_cons] at this
    omega
  refine ⟨zero_notMem_headString _, ?_⟩
  rw [← Mem.take_read hn]
  generalize headString (m.read a n) = s at hr ⊢
  simp [hr, List.take_append]

/-- The string at `a` is read off any stretch of bytes from `a` on that holds a zero. -/
theorem iff_headString (hz : 0 ∈ m.read a n) : CString m a s ↔ s = headString (m.read a n) :=
  ⟨fun h => h.unique (of_headString hz), fun h => h ▸ of_headString hz⟩

/-- A padded copy that leaves room for the terminating zero is a string. -/
theorem of_padded (h0 : 0 ∉ s) (hs : s.length < n) (h : m.read a n = padded s n) : CString m a s := by
  refine ⟨h0, ?_⟩
  rw [← Mem.take_read (show s.length + 1 ≤ n by omega), h, padded,
    List.take_of_length_le (show s.length ≤ n by omega), List.take_append,
    List.take_of_length_le (show s.length ≤ s.length + 1 by omega), List.take_replicate,
    show min (s.length + 1 - s.length) (n - s.length) = 1 by omega]
  rfl

end CString

namespace Mem

/-- `strncpy (dst, src, n)`. -/
def strncpy (m : Mem) (dst : ℕ) (src : List UInt8) (n : ℕ) : Mem := m.write dst (padded src n)

variable {m : Mem} {a n : ℕ} {s : List UInt8}

/-- A bounded copy and a zero over its last byte are one padded copy of the first
`n - 1` characters. -/
theorem strncpy_terminate (hn : 0 < n) :
    (m.strncpy a s n).write (a + (n - 1)) [0] = m.write a (padded (s.take (n - 1)) n) := by
  funext j
  by_cases hj : a ≤ j ∧ j < a + n
  · have hr : m.write a (padded (s.take (n - 1)) n) j = (s.take (n - 1)).getD (j - a) 0 := by
      rw [write_inside hj.1 (by simp; omega), getElem_padded]
    rw [hr]
    by_cases hlast : j = a + (n - 1)
    · rw [write_inside (by omega) (by simp; omega)]
      simp [hlast, List.getD_eq_getElem?_getD]
    · rw [write_outside (by simp; omega), strncpy, write_inside hj.1 (by simp; omega), getElem_padded]
      simp only [List.getD_eq_getElem?_getD, List.getElem?_take]
      rw [if_pos (by omega)]
  · rw [write_outside (by simp; omega), strncpy, write_outside (by simp; omega),
      write_outside (by simp; omega)]

end Mem

end ByteMemory
