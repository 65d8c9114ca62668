import Mathlib.Algebra.BigOperators.Group.List.Basic
import Mathlib.Algebra.Order.Ring.Nat

/-! Domain names as lists of labels, and their text. A label is any list of bytes; in the
text the labels stand with dots between them, and a backslash stands before a dot or a
backslash that belongs to a label. Reading a text takes a backslash off before any
character, and ends a label at every dot that has none; one dot at the end is ignored,
and a lone dot is the name without labels. -/

namespace DomainName

abbrev Label := List UInt8

def dot : UInt8 := 46
def backslash : UInt8 := 92

/-- The bytes that need a backslash inside a label. -/
def special (b : UInt8) : Bool := b == dot || b == backslash

def escapeByte (b : UInt8) : List UInt8 := if special b then [backslash, b] else [b]

def escape (l : Label) : List UInt8 := l.flatMap escapeByte

/-- Every label with a dot behind it. -/
def dotted (ls : List Label) : List UInt8 := ls.flatMap fun l => escape l ++ [dot]

/-- The text of a name: dots between the labels. -/
def text (ls : List Label) : List UInt8 := (dotted ls).dropLast

@[simp] theorem escape_nil : escape [] = [] := rfl

@[simp] theorem escape_cons (b : UInt8) (l : Label) : escape (b :: l) = escapeByte b ++ escape l := rfl

@[simp] theorem dotted_nil : dotted [] = [] := rfl

@[simp] theorem dotted_cons (l : Label) (ls : List Label) :
    dotted (l :: ls) = escape l ++ dot :: dotted ls := by simp [dotted]

@[simp] theorem text_nil : text [] = [] := rfl

theorem length_escapeByte (b : UInt8) : (escapeByte b).length = if special b then 2 else 1 := by
  unfold escapeByte
  split <;> rfl

theorem length_escape_le (l : Label) : (escape l).length ≤ 2 * l.length := by
  induction l with
  | nil => rfl
  | cons b l ih =>
    rw [escape_cons, List.length_append, length_escapeByte, List.length_cons]
    split <;> omega

theorem dotted_ne_nil {ls : List Label} (h : ls ≠ []) : dotted ls ≠ [] := by
  cases ls with
  | nil => exact absurd rfl h
  | cons l ls => simp

theorem getLast_dotted {ls : List Label} (h : dotted ls ≠ []) : (dotted ls).getLast h = dot := by
  induction ls with
  | nil => exact absurd rfl h
  | cons l ls ih =>
    by_cases hls : dotted ls = []
    · simp [hls]
    · simpa [List.getLast_append, List.getLast_cons, hls] using ih hls

theorem text_append_dot {ls : List Label} (h : ls ≠ []) : text ls ++ [dot] = dotted ls := by
  rw [text, ← getLast_dotted (dotted_ne_nil h)]
  exact List.dropLast_append_getLast _

theorem length_text (ls : List Label) : (text ls).length = (dotted ls).length - 1 := by simp [text]

theorem text_singleton (l : Label) : text [l] = escape l := by simp [text]

theorem text_cons_cons (l m : Label) (ls : List Label) :
    text (l :: m :: ls) = escape l ++ dot :: text (m :: ls) := by
  refine List.append_cancel_right (?_ : _ ++ [dot] = _ ++ [dot])
  rw [text_append_dot (by simp), dotted_cons, List.append_assoc, List.cons_append, text_append_dot (by simp)]

/-- A name with a label that is not empty has a text that is not empty. -/
theorem text_ne_nil {l : Label} (hl : l ≠ []) (ls : List Label) : text (l :: ls) ≠ [] := by
  obtain ⟨b, l, rfl⟩ := List.exists_cons_of_ne_nil hl
  cases ls with
  | nil =>
    rw [text_singleton, escape_cons, escapeByte]
    split <;> simp
  | cons m ls => simp [text_cons_cons]

/-! ### Reading a text -/

/-- The characters of a text, each with whether a backslash was taken off it. A backslash
at the very end stands for itself. -/
def chars : List UInt8 → List (UInt8 × Bool)
  | [] => []
  | [c] => [(c, false)]
  | c :: d :: s => if c = backslash then (d, true) :: chars s else (c, false) :: chars (d :: s)

/-- A dot that ends a label. -/
def separator (c : UInt8 × Bool) : Bool := c == (dot, false)

/-- What stands between the separators. -/
def parts (s : List UInt8) : List Label := ((chars s).splitOnP separator).map (List.map Prod.fst)

/-- Without an empty label at the end. -/
def dropEmptyEnd (ls : List Label) : List Label := if ls.getLast? = some [] then ls.dropLast else ls

/-- The labels of a text. -/
def labels (s : List UInt8) : List Label := if s = [dot] then [] else dropEmptyEnd (parts s)

/-- The last character is a dot with a backslash before it. -/
def EndsEscapedDot (s : List UInt8) : Prop := (chars s).getLast? = some (dot, true)

instance (s : List UInt8) : Decidable (EndsEscapedDot s) := inferInstanceAs (Decidable (_ = _))

@[simp] theorem chars_nil : chars [] = [] := rfl

theorem chars_cons {c : UInt8} (hc : c ≠ backslash) (s : List UInt8) :
    chars (c :: s) = (c, false) :: chars s := by
  cases s with
  | nil => rfl
  | cons d s => rw [chars, if_neg hc]

theorem chars_backslash (d : UInt8) (s : List UInt8) : chars (backslash :: d :: s) = (d, true) :: chars s := by
  rw [chars, if_pos rfl]

theorem parts_of_append {s p : List UInt8} {cs : List (UInt8 × Bool)} (hs : chars s = cs ++ chars p)
    (hc : ∀ c ∈ cs, separator c = false) :
    (p = [] → parts s = [cs.map Prod.fst]) ∧ ∀ q, p = dot :: q → parts s = cs.map Prod.fst :: parts q := by
  constructor
  · rintro rfl
    rw [parts, hs, chars_nil, List.append_nil, List.splitOnP_eq_singleton hc, List.map_singleton]
  · rintro q rfl
    rw [parts, hs, chars_cons (by decide), List.splitOnP_append_cons_of_forall_mem hc _ rfl, List.map_cons, parts]

theorem length_splitOnP {α : Type*} (p : α → Bool) (xs : List α) :
    ((xs.splitOnP p).map List.length).sum + (xs.splitOnP p).length = xs.length + 1 := by
  induction xs with
  | nil => rfl
  | cons x xs ih =>
    rw [List.splitOnP_cons_eq_if_modifyHead]
    split_ifs
    · simp only [List.map_cons, List.sum_cons, List.length_nil, List.length_cons]
      omega
    · obtain ⟨a, as, ha⟩ := List.exists_cons_of_ne_nil (List.splitOnP_ne_nil p xs)
      rw [ha] at ih ⊢
      simp only [List.modifyHead_cons, List.map_cons, List.sum_cons, List.length_cons] at ih ⊢
      omega

/-- The last part is empty when there is nothing to split or when it ends with a separator. -/
theorem getLast_splitOnP {α : Type*} (p : α → Bool) (xs : List α) :
    (xs.splitOnP p).getLast? = some [] ↔ ∀ x ∈ xs.getLast?, p x = true := by
  induction xs with
  | nil => simp
  | cons x xs ih =>
    have hne := List.splitOnP_ne_nil p xs
    have hlen := length_splitOnP p xs
    obtain ⟨a, as, ha⟩ := List.exists_cons_of_ne_nil hne
    rw [List.splitOnP_cons_eq_if_modifyHead]
    cases xs with
    | nil => by_cases hx : p x = true <;> simp [hx]
    | cons y ys =>
      rw [List.getLast?_cons_cons, ← ih, ha]
      split_ifs
      · rw [List.getLast?_cons_cons]
      · cases as with
        | nil =>
          rw [ha] at hlen
          have ha' : a ≠ [] := by
            rintro rfl
            simp at hlen
          simp [ha']
        | cons b bs => rw [List.modifyHead_cons, List.getLast?_cons_cons, List.getLast?_cons_cons]

theorem parts_ne_nil (s : List UInt8) : parts s ≠ [] := by simp [parts, List.splitOnP_ne_nil]

theorem parts_nil : parts [] = [[]] := rfl

theorem parts_dot (s : List UInt8) : parts (dot :: s) = [] :: parts s := by
  rw [parts, chars_cons (by decide), List.splitOnP_cons_eq_if_modifyHead, if_pos (by decide), List.map_cons, parts,
    List.map_nil]

theorem dropEmptyEnd_singleton {l : Label} (h : l ≠ []) : dropEmptyEnd [l] = [l] := by
  rw [dropEmptyEnd, if_neg (by simpa using h)]

theorem dropEmptyEnd_cons (l : Label) {ls : List Label} (h : ls ≠ []) :
    dropEmptyEnd (l :: ls) = l :: dropEmptyEnd ls := by
  obtain ⟨m, ls, rfl⟩ := List.exists_cons_of_ne_nil h
  rw [dropEmptyEnd, dropEmptyEnd, List.getLast?_cons_cons]
  split_ifs
  · rw [List.dropLast_cons_cons]
  · rfl

/-- The separators and the characters between them are all the characters. -/
theorem length_parts (s : List UInt8) :
    ((parts s).map List.length).sum + (parts s).length = (chars s).length + 1 := by
  rw [← length_splitOnP separator (chars s), parts, List.map_map, List.length_map]
  congr 2
  exact List.map_congr_left fun l _ => by simp

theorem getLast_parts (s : List UInt8) :
    (parts s).getLast? = some [] ↔ ∀ c ∈ (chars s).getLast?, c = (dot, false) := by
  have h := getLast_splitOnP separator (chars s)
  simp only [separator, beq_iff_eq] at h
  rw [← h, parts, List.getLast?_map, Option.map_eq_some_iff]
  constructor
  · rintro ⟨cs, hcs, hn⟩
    rw [List.map_eq_nil_iff] at hn
    rwa [hn] at hcs
  · intro hn
    exact ⟨[], hn, rfl⟩

/-- The length bytes and the labels: one byte more than there are characters, unless the
last one separates. -/
theorem length_dropEmptyEnd (s : List UInt8) :
    ((dropEmptyEnd (parts s)).map List.length).sum + (dropEmptyEnd (parts s)).length =
      (chars s).length + if (parts s).getLast? = some [] then 0 else 1 := by
  have hp := length_parts s
  rw [dropEmptyEnd]
  by_cases h : (parts s).getLast? = some []
  · rw [if_pos h, if_pos h]
    obtain ⟨ls, hls⟩ := List.getLast?_eq_some_iff.mp h
    rw [hls] at hp ⊢
    simp only [List.map_append, List.sum_append, List.length_append, List.dropLast_concat, List.map_cons,
      List.map_nil, List.sum_cons, List.sum_nil, List.length_nil, List.length_singleton] at hp ⊢
    omega
  · rw [if_neg h, if_neg h]
    omega

theorem getLast_chars (s : List UInt8) : (chars s).getLast?.map Prod.fst = s.getLast? := by
  induction s using chars.induct with
  | case1 => rfl
  | case2 c => rfl
  | case3 d s ih =>
    rw [chars_backslash, List.getLast?_cons, Option.map_some, List.getLast?_cons_cons, List.getLast?_cons, ← ih]
    cases (chars s).getLast? <;> rfl
  | case4 c d s hc ih =>
    rw [chars_cons hc, List.getLast?_cons, Option.map_some, List.getLast?_cons_cons, ← ih]
    cases hl : (chars (d :: s)).getLast? with
    | none =>
      rw [hl] at ih
      simp [List.getLast?_cons] at ih
    | some e => rfl

end DomainName
