import FakeDns.ByteMemory.Words

/-! Two linked shapes of a byte memory: the NULL-terminated array of pointers, and the
singly linked list whose cells keep the next pointer at a fixed offset. Both are
determined by their address, and a list survives any frame that leaves its next
pointers alone. -/

namespace ByteMemory

/-- The pointers `ps`, none of them NULL, stand from `a` on, followed by NULL. -/
def PtrArray (m : Mem) (a : ℕ) (ps : List ℕ) : Prop :=
  (∀ i (h : i < ps.length), ps[i] ≠ 0 ∧ m.loadPtr (a + 8 * i) = ps[i]) ∧ m.loadPtr (a + 8 * ps.length) = 0

/-- The cells `as`, in order, are the list that starts at `p`. -/
def Chain (m : Mem) (next : ℕ) : ℕ → List ℕ → Prop
  | p, [] => p = 0
  | p, a :: as => p = a ∧ a ≠ 0 ∧ Chain m next (m.loadPtr (a + next)) as

namespace PtrArray

variable {m : Mem} {a : ℕ} {ps qs : List ℕ}

theorem nil_iff : PtrArray m a [] ↔ m.loadPtr a = 0 := by simp [PtrArray]

theorem length_le (h : PtrArray m a ps) (h' : PtrArray m a qs) : ps.length ≤ qs.length := by
  by_contra hlt
  obtain ⟨hne, heq⟩ := h.1 qs.length (by omega)
  exact hne (heq.symm.trans h'.2)

theorem unique (h : PtrArray m a ps) (h' : PtrArray m a qs) : ps = qs :=
  List.ext_getElem (le_antisymm (h.length_le h') (h'.length_le h)) fun i hi hi' =>
    (h.1 i hi).2.symm.trans (h'.1 i hi').2

end PtrArray

namespace Chain

variable {m m' : Mem} {next p q : ℕ} {as bs : List ℕ} {R : Set ℕ}

@[simp] theorem nil_iff : Chain m next p [] ↔ p = 0 := Iff.rfl

theorem cons_iff {a : ℕ} :
    Chain m next p (a :: as) ↔ p = a ∧ a ≠ 0 ∧ Chain m next (m.loadPtr (a + next)) as := Iff.rfl

theorem head_ne_zero (h : Chain m next p as) (hne : as ≠ []) : p ≠ 0 := by
  cases as with
  | nil => exact absurd rfl hne
  | cons a as => exact h.1 ▸ h.2.1

theorem head_mem (h : Chain m next p as) (hp : p ≠ 0) : p ∈ as := by
  cases as with
  | nil => exact absurd h hp
  | cons a as => exact h.1 ▸ List.mem_cons_self

theorem unique (h : Chain m next p as) (h' : Chain m next p bs) : as = bs := by
  induction as generalizing p bs with
  | nil =>
    cases bs with
    | nil => rfl
    | cons b bs => exact absurd (h.symm.trans h'.1).symm h'.2.1
  | cons a as ih =>
    cases bs with
    | nil => exact absurd (h.1.symm.trans h') h.2.1
    | cons b bs =>
      have hab : a = b := h.1.symm.trans h'.1
      subst hab
      rw [ih h.2.2 h'.2.2]

/-- A frame that leaves every next pointer alone keeps the list. -/
theorem frame (h : Chain m next p as) (hf : Frame R m m')
    (hd : ∀ a ∈ as, Disjoint (span (a + next) 8) R) : Chain m' next p as := by
  induction as generalizing p with
  | nil => exact h
  | cons a as ih =>
    refine ⟨h.1, h.2.1, ?_⟩
    rw [Mem.loadPtr, hf.load (hd a (by simp))]
    exact ih h.2.2 fun b hb => hd b (by simp [hb])

end Chain

end ByteMemory
