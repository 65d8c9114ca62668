import FakeDns.DomainName.Labels
import Mathlib.Data.Fintype.Card

/-! Domain names on the wire. A name is written as its labels, each behind a byte with its
length, and a zero at the end. Inside a message the tail of a name may be replaced by a
pointer, two bytes of which the first is at least 192, to another place of the message.
Reading such a name goes through any number of pointers, so it need not come to an end;
when it does, it has passed no place twice, and so fewer places than the message has
bytes. The wire format has labels of at most 63 bytes, and leaves the length bytes from 64
to 191 undefined; a reader that does not look for them takes them for lengths as well. -/

namespace DomainName

/-- The labels, each behind its length. -/
def body (ls : List Label) : List UInt8 := ls.flatMap fun l => UInt8.ofNat l.length :: l

/-- The bytes of a name without pointers. -/
def wire (ls : List Label) : List UInt8 := body ls ++ [0]

/-- The first byte of a pointer. -/
def Pointer (b : UInt8) : Prop := 192 ≤ b.toNat

instance (b : UInt8) : Decidable (Pointer b) := inferInstanceAs (Decidable (_ ≤ _))

/-- The place a pointer points at. -/
def target (b c : UInt8) : ℕ := (b.toNat - 192) * 256 + c.toNat

/-- At place `p` of the message stands the name `ls`, of labels of at most `limit` bytes: it
takes up `w` bytes there, and reading it goes through `n` pointers. -/
inductive ReadsUpTo (limit : ℕ) (msg : List UInt8) : ℕ → List Label → ℕ → ℕ → Prop
  | root {p : ℕ} (h : msg[p]? = some 0) : ReadsUpTo limit msg p [] 1 0
  | label {p w n : ℕ} {k : UInt8} {l : Label} {ls : List Label} (h : msg[p]? = some k) (hk : k ≠ 0)
      (hp : ¬ Pointer k) (hle : k.toNat ≤ limit) (hl : (msg.drop (p + 1)).take k.toNat = l)
      (rest : ReadsUpTo limit msg (p + 1 + k.toNat) ls w n) : ReadsUpTo limit msg p (l :: ls) (1 + k.toNat + w) n
  | pointer {p w n : ℕ} {b c : UInt8} {ls : List Label} (h : msg[p]? = some b) (hp : Pointer b)
      (hc : msg[p + 1]? = some c) (rest : ReadsUpTo limit msg (target b c) ls w n) :
      ReadsUpTo limit msg p ls 2 (n + 1)

/-- A name as the wire format has it. -/
abbrev Encoded : List UInt8 → ℕ → List Label → ℕ → ℕ → Prop := ReadsUpTo 63

/-- A name to a reader that takes every byte for a length that is no pointer. -/
abbrev Reads : List UInt8 → ℕ → List Label → ℕ → ℕ → Prop := ReadsUpTo 191

theorem le_of_not_pointer {b : UInt8} (h : ¬ Pointer b) : b.toNat ≤ 191 := Nat.lt_succ_iff.mp (not_le.mp h)

theorem Pointer.ne_zero {b : UInt8} (h : Pointer b) : b ≠ 0 := by
  rintro rfl
  exact absurd h (by decide)

namespace ReadsUpTo

variable {limit limit' : ℕ} {msg : List UInt8} {p w w' n n' : ℕ} {ls ls' : List Label}

theorem lt_length (h : ReadsUpTo limit msg p ls w n) : p < msg.length := by
  cases h with
  | root h | label h | pointer h => exact (List.getElem?_eq_some_iff.mp h).1

/-- The label at a place is as long as its length byte says. -/
theorem label_length (h : ReadsUpTo limit msg (p + 1 + n') ls w n) :
    ((msg.drop (p + 1)).take n').length = n' := by
  have := h.lt_length
  rw [List.length_take, List.length_drop]
  omega

/-- A name stands inside the message. -/
theorem width_le (h : ReadsUpTo limit msg p ls w n) : 0 < w ∧ p + w ≤ msg.length := by
  induction h with
  | root h => exact ⟨Nat.one_pos, (List.getElem?_eq_some_iff.mp h).1⟩
  | label h hk hp hle hl rest ih => omega
  | pointer h hp hc rest ih =>
    have := (List.getElem?_eq_some_iff.mp hc).1
    omega

/-- No label that is read is empty. -/
theorem label_ne_nil (h : ReadsUpTo limit msg p ls w n) : ∀ l ∈ ls, l ≠ [] := by
  induction h with
  | root => simp
  | label h hk hp hle hl rest ih =>
    refine List.forall_mem_cons.mpr ⟨?_, ih⟩
    rintro rfl
    have hlen := rest.label_length
    rw [hl, List.length_nil] at hlen
    exact hk (UInt8.toNat_inj.mp hlen.symm)
  | pointer _ _ _ _ ih => exact ih

/-- What stands at a place is determined. -/
theorem unique (h : ReadsUpTo limit msg p ls w n) (h' : ReadsUpTo limit msg p ls' w' n') :
    ls = ls' ∧ w = w' ∧ n = n' := by
  induction h generalizing ls' w' n' with
  | root h =>
    cases h' with
    | root => exact ⟨rfl, rfl, rfl⟩
    | label h₂ hk => exact absurd (Option.some_inj.mp (h₂.symm.trans h)) hk
    | pointer h₂ hp => exact absurd (Option.some_inj.mp (h₂.symm.trans h)) hp.ne_zero
  | label h hk hp hle hl rest ih =>
    cases h' with
    | root h₂ => exact absurd (Option.some_inj.mp (h.symm.trans h₂)) hk
    | label h₂ _ _ _ hl₂ rest₂ =>
      obtain rfl := Option.some_inj.mp (h.symm.trans h₂)
      obtain ⟨rfl, rfl, rfl⟩ := ih rest₂
      exact ⟨by rw [← hl, ← hl₂], rfl, rfl⟩
    | pointer h₂ hp₂ => exact absurd (Option.some_inj.mp (h₂.symm.trans h) ▸ hp₂) hp
  | pointer h hp hc rest ih =>
    cases h' with
    | root h₂ => exact absurd (Option.some_inj.mp (h.symm.trans h₂)) hp.ne_zero
    | label h₂ _ hp₂ => exact absurd (Option.some_inj.mp (h.symm.trans h₂) ▸ hp) hp₂
    | pointer h₂ _ hc₂ rest₂ =>
      obtain rfl := Option.some_inj.mp (h.symm.trans h₂)
      obtain rfl := Option.some_inj.mp (hc.symm.trans hc₂)
      obtain ⟨rfl, _, rfl⟩ := ih rest₂
      exact ⟨rfl, rfl, rfl⟩

/-- No label that is read is longer than the limit. -/
theorem length_le (h : ReadsUpTo limit msg p ls w n) : ∀ l ∈ ls, l.length ≤ limit := by
  induction h with
  | root => simp
  | label h hk hp hle hl rest ih =>
    refine List.forall_mem_cons.mpr ⟨?_, ih⟩
    rw [← hl, rest.label_length]
    exact hle
  | pointer _ _ _ _ ih => exact ih

/-- A name without a longer label is read under another limit as well. -/
theorem of_length_le (h : ReadsUpTo limit msg p ls w n) (hls : ∀ l ∈ ls, l.length ≤ limit') :
    ReadsUpTo limit' msg p ls w n := by
  induction h with
  | root h => exact .root h
  | label h hk hp hle hl rest ih =>
    rw [List.forall_mem_cons, ← hl, rest.label_length] at hls
    exact .label h hk hp hls.1 hl (ih hls.2)
  | pointer h hp hc rest ih => exact .pointer h hp hc (ih hls)

theorem mono (h : ReadsUpTo limit msg p ls w n) (hle : limit ≤ limit') : ReadsUpTo limit' msg p ls w n :=
  h.of_length_le fun l hl => (h.length_le l hl).trans hle

/-- The labels and pointers still ahead take every smaller value on the way. -/
theorem exists_steps (h : ReadsUpTo limit msg p ls w n) :
    ∀ k ≤ ls.length + n, ∃ q ls' w' n', ReadsUpTo limit msg q ls' w' n' ∧ ls'.length + n' = k := by
  induction h with
  | root h =>
    intro k hk
    exact ⟨_, _, _, _, .root h, (Nat.le_zero.mp hk).symm⟩
  | label h hk hp hk' hl rest ih =>
    intro k hle
    rcases hle.lt_or_eq with hlt | rfl
    · exact ih k (by rw [List.length_cons] at hlt; omega)
    · exact ⟨_, _, _, _, .label h hk hp hk' hl rest, rfl⟩
  | pointer h hp hc rest ih =>
    intro k hle
    rcases hle.lt_or_eq with hlt | rfl
    · exact ih k (by omega)
    · exact ⟨_, _, _, _, .pointer h hp hc rest, rfl⟩

/-- A name that can be read takes fewer steps than the message has bytes: places with
different numbers of steps ahead are different places. -/
theorem steps_lt (h : ReadsUpTo limit msg p ls w n) : ls.length + n < msg.length := by
  choose place ls' w' n' hr hk using fun k : Fin (ls.length + n + 1) =>
    h.exists_steps k (Nat.lt_succ_iff.mp k.isLt)
  have hinj : Function.Injective fun k => (⟨place k, (hr k).lt_length⟩ : Fin msg.length) := by
    intro i j hij
    have hp : place i = place j := congrArg Fin.val hij
    have hr' := hr i
    rw [hp] at hr'
    obtain ⟨h₁, -, h₂⟩ := hr'.unique (hr j)
    exact Fin.ext (by rw [← hk i, ← hk j, h₁, h₂])
  simpa [Nat.succ_le_iff] using Fintype.card_le_of_injective _ hinj

end ReadsUpTo

theorem Encoded.reads {msg : List UInt8} {p w n : ℕ} {ls : List Label} (h : Encoded msg p ls w n) :
    Reads msg p ls w n := h.mono (by decide)

/-- A text is shorter than the escaped bytes of labels of the greatest length. -/
theorem ReadsUpTo.length_dotted_le {limit : ℕ} {msg : List UInt8} {p w n : ℕ} {ls : List Label}
    (h : ReadsUpTo limit msg p ls w n) : (dotted ls).length ≤ (2 * limit + 1) * ls.length := by
  have hls := h.length_le
  clear h
  induction ls with
  | nil => rfl
  | cons l ls ih =>
    obtain ⟨hl, hls⟩ := List.forall_mem_cons.mp hls
    have hescape := length_escape_le l
    have hrest := ih hls
    rw [dotted_cons, List.length_append, List.length_cons, List.length_cons, Nat.mul_succ]
    omega

/-! ### Written names -/

/-- A label that can be written: not empty, and at most 63 bytes. -/
def Writable (l : Label) : Prop := l ≠ [] ∧ l.length ≤ 63

instance (l : Label) : Decidable (Writable l) := inferInstanceAs (Decidable (_ ∧ _))

@[simp] theorem wire_nil : wire [] = [0] := rfl

@[simp] theorem body_cons (l : Label) (ls : List Label) :
    body (l :: ls) = UInt8.ofNat l.length :: (l ++ body ls) := by simp [body]

@[simp] theorem wire_cons (l : Label) (ls : List Label) :
    wire (l :: ls) = UInt8.ofNat l.length :: (l ++ wire ls) := by simp [wire]

theorem length_body (ls : List Label) : (body ls).length = (ls.map List.length).sum + ls.length := by
  induction ls with
  | nil => rfl
  | cons l ls ih =>
    simp only [body_cons, List.length_cons, List.length_append, ih, List.map_cons, List.sum_cons]
    omega

/-- A written name can be read wherever it stands, without a pointer. -/
theorem encoded_wire {ls : List Label} (h : ∀ l ∈ ls, Writable l) (pre post : List UInt8) :
    Encoded (pre ++ wire ls ++ post) pre.length ls (wire ls).length 0 := by
  induction ls generalizing pre with
  | nil => exact .root (by simp)
  | cons l ls ih =>
    obtain ⟨hne, hlen⟩ := h l (by simp)
    have hpos := List.length_pos_of_ne_nil hne
    have hk : (UInt8.ofNat l.length).toNat = l.length := by
      rw [UInt8.toNat_ofNat', Nat.mod_eq_of_lt (by omega)]
    have hrest := ih (fun m hm => h m (by simp [hm])) (pre ++ UInt8.ofNat l.length :: l)
    have hmsg : pre ++ UInt8.ofNat l.length :: l ++ wire ls ++ post = pre ++ wire (l :: ls) ++ post := by simp
    rw [hmsg, show (pre ++ UInt8.ofNat l.length :: l).length = pre.length + 1 + (UInt8.ofNat l.length).toNat by
      rw [hk, List.length_append, List.length_cons]; omega] at hrest
    have hread := ReadsUpTo.label (l := l) (by simp) (fun hz => by rw [hz] at hk; simp at hk; omega)
      (fun hp => by rw [Pointer, hk] at hp; omega) (hk.trans_le hlen)
      (by simp [hk, List.drop_append, List.drop_of_length_le]) hrest
    rwa [hk, show 1 + l.length + (wire ls).length = (wire (l :: ls)).length by simp; omega] at hread

end DomainName
