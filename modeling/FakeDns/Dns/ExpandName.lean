import FakeDns.Dns.Message
import FakeDns.DomainName.Wire

/-! `ares_expand_name`: the name at a place of a DNS message, as text. `name_length` walks
over the name once, checking every step, and returns the length of the text; the loop of
`ares_expand_name` walks over it again without any check and writes the text into a
buffer of that length. Here every read outside the message, every write outside the
buffer and every loop without an end is a fault. There is none in a message of less than
4 megabytes, and the names that are accepted are exactly those that can be read: the limit
on the number of pointers turns nothing else away, and length bytes of 64 to 191 are taken
like any other. The length is an `int`. It may wrap around while the walk follows a loop of
pointers, but not on a name that is accepted. -/

namespace FakeDns

open ByteMemory DomainName

def INDIR_MASK : UInt8 := 0xc0

/-- `(p[0] & ~INDIR_MASK) << 8 | p[1]` -/
def indirection (b c : UInt8) : ℕ := (b &&& ~~~INDIR_MASK).toNat <<< 8 ||| c.toNat

/-- The value of an `int`. -/
def intValue (v : UInt32) : Int := if v < 0x80000000 then v.toNat else v.toNat - 0x100000000

/-- The inner loop of `name_length`: the bytes that the text of `offset` bytes takes. -/
def labelWidth (abuf : List UInt8) : ℕ → ℕ → UInt32 → Outcome UInt32 UInt32
  | 0, _, n => .ok n
  | offset + 1, encoded, n => do
    let b ← byteAt abuf encoded
    labelWidth abuf offset (encoded + 1) (n + if b = 46 ∨ b = 92 then 2 else 1)

/-- The outer loop of `name_length`, for at most `fuel` iterations. -/
def nameLengthLoop (abuf : List UInt8) : ℕ → ℕ → UInt32 → ℕ → Outcome UInt32 Int
  | 0, _, _, _ => .fault
  | fuel + 1, encoded, n, indir => do
    let b ← byteAt abuf encoded
    if b = 0 then .ok (intValue (if n ≠ 0 then n - 1 else n))
    else if b &&& INDIR_MASK = INDIR_MASK then
      if encoded + 1 ≥ abuf.length then .ok (-1) else
        let c ← byteAt abuf (encoded + 1)
        let offset := indirection b c
        if offset ≥ abuf.length then .ok (-1)
        else if indir + 1 > abuf.length then .ok (-1)
        else nameLengthLoop abuf fuel offset n (indir + 1)
    else if encoded + b.toNat + 1 ≥ abuf.length then .ok (-1)
    else
      let n ← labelWidth abuf b.toNat (encoded + 1) n
      nameLengthLoop abuf fuel (encoded + 1 + b.toNat) (n + 1) indir

/-- As many iterations as the checks of `name_length` can let through. -/
def nameLengthFuel (alen : ℕ) : ℕ := (alen + 1) * (alen + 1) + alen + 1

/-- `name_length` -/
def nameLength (encoded : ℕ) (abuf : List UInt8) : Outcome UInt32 Int :=
  if encoded = abuf.length then .ok (-1)
  else nameLengthLoop abuf (nameLengthFuel abuf.length) encoded 0 0

/-- `*q++ = c` in a buffer of `size` bytes, of which `q` are written. -/
def putChar (size : ℕ) (q : List UInt8) (c : UInt8) : Outcome UInt32 (List UInt8) :=
  if q.length < size then .ok (q ++ [c]) else .fault

/-- The inner loop of `ares_expand_name`. -/
def copyLabel (abuf : List UInt8) (size : ℕ) : ℕ → ℕ → List UInt8 → Outcome UInt32 (List UInt8)
  | 0, _, q => .ok q
  | len + 1, p, q => do
    let c ← byteAt abuf p
    let q ← (if c = 46 ∨ c = 92 then putChar size q 92 else .ok q)
    let q ← putChar size q c
    copyLabel abuf size len (p + 1) q

/-- The outer loop of `ares_expand_name`; `indir` holds `*enclen` once a pointer is met. -/
def expandLoop (abuf : List UInt8) (size encoded : ℕ) :
    ℕ → ℕ → List UInt8 → Option ℕ → Outcome UInt32 (List UInt8 × ℕ)
  | 0, _, _, _ => .fault
  | fuel + 1, p, q, indir => do
    let b ← byteAt abuf p
    if b = 0 then .ok (q, indir.getD (p + 1 - encoded))
    else if b &&& INDIR_MASK = INDIR_MASK then
      let c ← byteAt abuf (p + 1)
      expandLoop abuf size encoded fuel (indirection b c) q (some (indir.getD (p + 2 - encoded)))
    else
      let q ← copyLabel abuf size b.toNat (p + 1) q
      let q ← putChar size q 46
      expandLoop abuf size encoded fuel (p + 1 + b.toNat) q indir

/-- `ares_expand_name`: the text `*s`, without its terminating zero, and `*enclen`. -/
def aresExpandName (encoded : ℕ) (abuf : List UInt8) : Outcome UInt32 (List UInt8 × ℕ) := do
  let nlen ← nameLength encoded abuf
  if nlen < 0 then .fail ARES_EBADNAME
  else if nlen = 0 then
    let b ← byteAt abuf encoded
    .ok ([], if b &&& INDIR_MASK = INDIR_MASK then 2 else 1)
  else
    let (q, enclen) ← expandLoop abuf (nlen.toNat + 1) encoded (abuf.length + 1) encoded [] none
    -- the zero goes over the last dot
    .ok (q.dropLast, enclen)

/-- `ares__expand_name_for_response` -/
def aresExpandNameForResponse (encoded : ℕ) (abuf : List UInt8) : Outcome UInt32 (List UInt8 × ℕ) :=
  match aresExpandName encoded abuf with
  | .fail status => .fail (if status = ARES_EBADNAME then ARES_EBADRESP else status)
  | r => r

/-! ### Bytes -/

theorem indir_mask_iff (b : UInt8) : b &&& INDIR_MASK = INDIR_MASK ↔ Pointer b := by
  have h : ∀ i : Fin 256, UInt8.ofFin i &&& INDIR_MASK = INDIR_MASK ↔ Pointer (UInt8.ofFin i) := by
    decide +kernel
  exact h b.toFin

theorem toNat_unmask {b : UInt8} (h : Pointer b) : (b &&& ~~~INDIR_MASK).toNat = b.toNat - 192 := by
  have h' : ∀ i : Fin 256, Pointer (UInt8.ofFin i) →
      (UInt8.ofFin i &&& ~~~INDIR_MASK).toNat = (UInt8.ofFin i).toNat - 192 := by decide +kernel
  exact h' b.toFin h

theorem indirection_eq {b : UInt8} (h : Pointer b) (c : UInt8) : indirection b c = target b c := by
  rw [indirection, toNat_unmask h, ← Nat.shiftLeft_add_eq_or_of_lt c.toNat_lt, Nat.shiftLeft_eq, target]

theorem special_iff (b : UInt8) : special b = true ↔ b = 46 ∨ b = 92 := by
  simp [special, dot, backslash]

section

variable {abuf : List UInt8} {p w n size : ℕ} {ls : List Label} {q : List UInt8}

theorem take_drop_succ (h : p < abuf.length) (k : ℕ) :
    (abuf.drop p).take (k + 1) = abuf[p] :: (abuf.drop (p + 1)).take k := by
  rw [List.drop_eq_getElem_cons h, List.take_succ_cons]

/-! ### One label -/

theorem ofNat_length_escapeByte (b : UInt8) :
    UInt32.ofNat (escapeByte b).length = if b = 46 ∨ b = 92 then 2 else 1 := by
  rw [length_escapeByte]
  simp only [special_iff]
  split_ifs <;> rfl

theorem labelWidth_eq (k : ℕ) (hk : p + k ≤ abuf.length) (m : UInt32) :
    labelWidth abuf k p m = .ok (m + UInt32.ofNat (escape ((abuf.drop p).take k)).length) := by
  induction k generalizing p m with
  | zero => simp [labelWidth]
  | succ k ih =>
    have hp : p < abuf.length := by omega
    rw [labelWidth, byteAt_of_lt hp, Outcome.bind_ok, ih (by omega), take_drop_succ hp, escape_cons,
      List.length_append, UInt32.ofNat_add, ofNat_length_escapeByte, UInt32.add_assoc]

theorem putChar_eq (h : q.length < size) (c : UInt8) : putChar size q c = .ok (q ++ [c]) := if_pos h

theorem copyLabel_eq (k : ℕ) (hk : p + k ≤ abuf.length) (q : List UInt8)
    (hq : q.length + (escape ((abuf.drop p).take k)).length ≤ size) :
    copyLabel abuf size k p q = .ok (q ++ escape ((abuf.drop p).take k)) := by
  induction k generalizing p q with
  | zero => simp [copyLabel]
  | succ k ih =>
    have hp : p < abuf.length := by omega
    rw [take_drop_succ hp, escape_cons] at hq ⊢
    rw [List.length_append, length_escapeByte] at hq
    rw [copyLabel, byteAt_of_lt hp, Outcome.bind_ok, escapeByte]
    by_cases hs : special abuf[p] = true
    · rw [if_pos hs] at hq
      rw [if_pos ((special_iff _).mp hs), putChar_eq (by omega), Outcome.bind_ok,
        putChar_eq (by rw [List.length_append, List.length_singleton]; omega), Outcome.bind_ok,
        ih (by omega) _ (by simp only [List.length_append, List.length_singleton]; omega), if_pos hs]
      simp [backslash]
    · rw [if_neg hs] at hq
      rw [if_neg (fun h => hs ((special_iff _).mpr h)), Outcome.bind_ok, putChar_eq (by omega), Outcome.bind_ok,
        ih (by omega) _ (by simp only [List.length_append, List.length_singleton]; omega), if_neg hs]
      simp

/-! ### The two walks over a name that can be read -/

/-- The value that `name_length` returns for a text with dots behind all labels. -/
def lastDotOff (n : UInt32) : Int := intValue (if n ≠ 0 then n - 1 else n)

theorem nameLengthLoop_of_reads (h : Reads abuf p ls w n) :
    ∀ fuel m indir, ls.length + n < fuel → indir + n ≤ abuf.length →
      nameLengthLoop abuf fuel p m indir = .ok (lastDotOff (m + UInt32.ofNat (dotted ls).length)) := by
  induction h with
  | root h =>
    intro fuel m indir hf _
    obtain ⟨fuel, rfl⟩ := Nat.exists_eq_add_of_lt hf
    rw [nameLengthLoop, byteAt_eq_ok.mpr h, Outcome.bind_ok, if_pos rfl, dotted_nil,
      show UInt32.ofNat ([] : List UInt8).length = 0 from rfl, UInt32.add_zero]
    rfl
  | @label p w n k l ls h hk hp hle hl rest ih =>
    intro fuel m indir hf hi
    rw [List.length_cons] at hf
    obtain ⟨fuel, rfl⟩ := Nat.exists_eq_add_of_lt hf
    have hlt := rest.lt_length
    rw [nameLengthLoop, byteAt_eq_ok.mpr h, Outcome.bind_ok, if_neg hk,
      if_neg (fun hb => hp ((indir_mask_iff _).mp hb)), if_neg (by omega), labelWidth_eq _ (by omega), hl,
      Outcome.bind_ok, ih _ _ _ (by omega) hi, dotted_cons, List.length_append, List.length_cons, UInt32.ofNat_add,
      UInt32.ofNat_add, UInt32.add_assoc, UInt32.add_assoc, UInt32.add_comm 1]
    rfl
  | @pointer p w n b c ls h hp hc rest ih =>
    intro fuel m indir hf hi
    obtain ⟨fuel, rfl⟩ := Nat.exists_eq_add_of_lt hf
    have hlt := rest.lt_length
    have hlt' := (List.getElem?_eq_some_iff.mp hc).1
    rw [nameLengthLoop, byteAt_eq_ok.mpr h, Outcome.bind_ok, if_neg hp.ne_zero,
      if_pos ((indir_mask_iff _).mpr hp), if_neg (by omega), byteAt_eq_ok.mpr hc, Outcome.bind_ok,
      indirection_eq hp, if_neg (by omega), if_neg (by omega)]
    exact ih _ _ _ (by omega) (by omega)

theorem expandLoop_of_reads (h : Reads abuf p ls w n) (encoded : ℕ) :
    ∀ fuel q indir, ls.length + n < fuel → q.length + (dotted ls).length ≤ size →
      expandLoop abuf size encoded fuel p q indir = .ok (q ++ dotted ls, indir.getD (p + w - encoded)) := by
  induction h with
  | root h =>
    intro fuel q indir hf _
    obtain ⟨fuel, rfl⟩ := Nat.exists_eq_add_of_lt hf
    rw [expandLoop, byteAt_eq_ok.mpr h, Outcome.bind_ok, if_pos rfl, dotted_nil, List.append_nil]
  | @label p w n k l ls h hk hp hle hl rest ih =>
    intro fuel q indir hf hq
    rw [List.length_cons] at hf
    obtain ⟨fuel, rfl⟩ := Nat.exists_eq_add_of_lt hf
    have hlt := rest.lt_length
    rw [dotted_cons, List.length_append, List.length_cons] at hq
    rw [expandLoop, byteAt_eq_ok.mpr h, Outcome.bind_ok, if_neg hk,
      if_neg (fun hb => hp ((indir_mask_iff _).mp hb)), copyLabel_eq _ (by omega) _ (by rw [hl]; omega), hl,
      Outcome.bind_ok, putChar_eq (by rw [List.length_append]; omega), Outcome.bind_ok,
      ih _ _ _ (by omega) (by simp only [List.length_append, List.length_singleton]; omega), dotted_cons,
      show p + 1 + k.toNat + w - encoded = p + (1 + k.toNat + w) - encoded by omega]
    simp [dot]
  | @pointer p w n b c ls h hp hc rest ih =>
    intro fuel q indir hf hq
    obtain ⟨fuel, rfl⟩ := Nat.exists_eq_add_of_lt hf
    rw [expandLoop, byteAt_eq_ok.mpr h, Outcome.bind_ok, if_neg hp.ne_zero,
      if_pos ((indir_mask_iff _).mpr hp), byteAt_eq_ok.mpr hc, Outcome.bind_ok, indirection_eq hp,
      ih _ _ _ (by omega) hq, Option.getD_some]

/-! ### What `name_length` lets through -/

/-- One iteration of `name_length` ends the walk, or goes on from a place inside the
message: behind the label, or at the target of the pointer. -/
theorem nameLengthLoop_step (fuel : ℕ) (hp : p < abuf.length) (m : UInt32) (indir : ℕ) :
    (abuf[p]? = some 0 ∧ ∃ r, nameLengthLoop abuf (fuel + 1) p m indir = .ok r) ∨
    nameLengthLoop abuf (fuel + 1) p m indir = .ok (-1) ∨
    (∃ b c, abuf[p]? = some b ∧ Pointer b ∧ abuf[p + 1]? = some c ∧ target b c < abuf.length ∧
      indir + 1 ≤ abuf.length ∧
      nameLengthLoop abuf (fuel + 1) p m indir = nameLengthLoop abuf fuel (target b c) m (indir + 1)) ∨
    (∃ k m', abuf[p]? = some k ∧ k ≠ 0 ∧ ¬ Pointer k ∧ p + 1 + k.toNat < abuf.length ∧
      nameLengthLoop abuf (fuel + 1) p m indir = nameLengthLoop abuf fuel (p + 1 + k.toNat) m' indir) := by
  have hb := List.getElem?_eq_getElem hp
  rw [nameLengthLoop, byteAt_of_lt hp, Outcome.bind_ok]
  by_cases hz : abuf[p] = 0
  · left
    rw [if_pos hz]
    exact ⟨hz ▸ hb, _, rfl⟩
  rw [if_neg hz]
  right
  by_cases hm : abuf[p] &&& INDIR_MASK = INDIR_MASK
  · rw [if_pos hm]
    rw [indir_mask_iff] at hm
    by_cases hc : p + 1 ≥ abuf.length
    · left
      rw [if_pos hc]
    rw [if_neg hc, byteAt_of_lt (by omega), Outcome.bind_ok, indirection_eq hm]
    by_cases ht : target abuf[p] abuf[p + 1] ≥ abuf.length
    · left
      exact if_pos ht
    by_cases hi : indir + 1 > abuf.length
    · left
      exact (if_neg ht).trans (if_pos hi)
    right
    left
    exact ⟨_, _, hb, hm, List.getElem?_eq_getElem (by omega), not_le.mp ht, not_lt.mp hi,
      (if_neg ht).trans (if_neg hi)⟩
  · rw [if_neg hm]
    rw [indir_mask_iff] at hm
    by_cases hl : p + abuf[p].toNat + 1 ≥ abuf.length
    · left
      rw [if_pos hl]
    rw [if_neg hl, labelWidth_eq _ (by omega), Outcome.bind_ok]
    right
    right
    exact ⟨_, _, hb, hz, hm, by omega, rfl⟩

/-- With the iterations that its checks allow, the walk comes to an end, and a length that
is not negative is that of a name that can be read. Every pointer allows another walk
over the message. -/
theorem nameLengthLoop_result : ∀ fuel p m indir, p < abuf.length → indir ≤ abuf.length →
    (abuf.length - indir) * (abuf.length + 1) + (abuf.length - p) < fuel →
      ∃ r, nameLengthLoop abuf fuel p m indir = .ok r ∧ (0 ≤ r → ∃ ls w n, Reads abuf p ls w n) := by
  intro fuel
  induction fuel with
  | zero =>
    intro p m indir _ _ hf
    exact absurd hf (Nat.not_lt_zero _)
  | succ fuel ih =>
    intro p m indir hp hi hf
    rcases nameLengthLoop_step fuel hp m indir with ⟨hz, r, h⟩ | h | ⟨b, c, hb, hpt, hc, ht, hi', h⟩ |
      ⟨k, m', hb, hk, hpt, hl, h⟩
    · exact ⟨r, h, fun _ => ⟨_, _, _, .root hz⟩⟩
    · exact ⟨-1, h, fun hneg => absurd hneg (by decide)⟩
    · obtain ⟨d, hd⟩ : ∃ d, abuf.length - indir = d + 1 := ⟨abuf.length - indir - 1, by omega⟩
      rw [hd, Nat.add_mul] at hf
      obtain ⟨r, hr, hreads⟩ := ih (target b c) m (indir + 1) ht hi' (by
        rw [show abuf.length - (indir + 1) = d by omega]
        omega)
      refine ⟨r, h.trans hr, fun hr => ?_⟩
      obtain ⟨ls, w, n, hread⟩ := hreads hr
      exact ⟨_, _, _, .pointer hb hpt hc hread⟩
    · obtain ⟨r, hr, hreads⟩ := ih (p + 1 + k.toNat) m' indir hl hi (by omega)
      refine ⟨r, h.trans hr, fun hr => ?_⟩
      obtain ⟨ls, w, n, hread⟩ := hreads hr
      exact ⟨_, _, _, .label hb hk hpt (le_of_not_pointer hpt) rfl hread⟩

theorem lastDotOff_ofNat {k : ℕ} (h : k < 2 ^ 31) : lastDotOff (UInt32.ofNat k) = (k - 1 : ℕ) := by
  have hk : (UInt32.ofNat k).toNat = k := by
    rw [UInt32.toNat_ofNat', Nat.mod_eq_of_lt (by omega)]
  rw [lastDotOff]
  split_ifs with hz
  · have hpos : k ≠ 0 := by
      rintro rfl
      exact hz rfl
    have hsub : (UInt32.ofNat k - 1).toNat = k - 1 := by
      rw [UInt32.toNat_sub_of_le _ _ (UInt32.le_iff_toNat_le.mpr (by rw [hk]; exact Nat.pos_of_ne_zero hpos)), hk]
      rfl
    rw [intValue, if_pos (UInt32.lt_iff_toNat_lt.mpr (by rw [hsub]; exact Nat.lt_of_le_of_lt (Nat.sub_le k 1) h)), hsub]
  · rw [not_not] at hz
    have hzero : k = 0 := by rw [← hk, hz]; rfl
    subst hzero
    rfl

/-- The text of a name in a message of less than 4 megabytes has a length that fits an `int`. -/
theorem length_dotted_lt (h : Reads abuf p ls w n) (hsize : abuf.length < 2 ^ 22) : (dotted ls).length < 2 ^ 31 := by
  have hle := h.length_dotted_le
  have hn := h.steps_lt
  omega

theorem nameLength_of_reads (h : Reads abuf p ls w n) (hsize : abuf.length < 2 ^ 22) :
    nameLength p abuf = .ok ((text ls).length : Int) := by
  have hp := h.lt_length
  have hn := h.steps_lt
  have hf : ls.length + n < nameLengthFuel abuf.length := by
    rw [nameLengthFuel]
    omega
  rw [nameLength, if_neg (by omega), nameLengthLoop_of_reads h _ 0 0 hf (by omega), UInt32.zero_add,
    lastDotOff_ofNat (length_dotted_lt h hsize), length_text]

/-- A place without a name that can be read has a negative length. -/
theorem nameLength_of_not_reads (hp : p ≤ abuf.length) (h : ¬ ∃ ls w n, Reads abuf p ls w n) :
    ∃ r < 0, nameLength p abuf = .ok r := by
  rw [nameLength]
  split_ifs with he
  · exact ⟨-1, by decide, rfl⟩
  · have hlt : p < abuf.length := by omega
    obtain ⟨r, hr, hreads⟩ := nameLengthLoop_result (nameLengthFuel abuf.length) p 0 0 hlt (Nat.zero_le _)
      (by rw [nameLengthFuel, Nat.add_mul, Nat.sub_zero]; omega)
    exact ⟨r, not_le.mp fun hle => h (hreads hle), hr⟩

/-! ### The result -/

theorem aresExpandName_of_reads (h : Reads abuf p ls w n) (hsize : abuf.length < 2 ^ 22) :
    aresExpandName p abuf = .ok (text ls, w) := by
  rw [aresExpandName, nameLength_of_reads h hsize, Outcome.bind_ok, if_neg (by omega)]
  cases ls with
  | nil =>
    rw [if_pos (by simp)]
    cases h with
    | root h => rw [byteAt_eq_ok.mpr h, Outcome.bind_ok, if_neg (by decide), text_nil]
    | pointer h hp => rw [byteAt_eq_ok.mpr h, Outcome.bind_ok, if_pos ((indir_mask_iff _).mpr hp), text_nil]
  | cons l ls =>
    have hlen := List.length_pos_of_ne_nil (text_ne_nil (h.label_ne_nil l (by simp)) ls)
    have hd := length_text (l :: ls)
    have hs := h.steps_lt
    rw [if_neg (by omega), expandLoop_of_reads h _ _ _ _ (by omega) (by simp only [List.length_nil]; omega),
      Outcome.bind_ok, List.nil_append, Option.getD_none, Nat.add_sub_cancel_left]
    rfl

theorem aresExpandName_of_not_reads (hp : p ≤ abuf.length) (h : ¬ ∃ ls w n, Reads abuf p ls w n) :
    aresExpandName p abuf = .fail ARES_EBADNAME := by
  obtain ⟨r, hr, he⟩ := nameLength_of_not_reads hp h
  rw [aresExpandName, he, Outcome.bind_ok, if_pos hr]

/-- Expanding a name reads inside the message, writes inside its buffer and comes to an end;
the bytes that it reports to skip are bytes of the message. -/
theorem aresExpandName_returns (abuf : List UInt8) (hsize : abuf.length < 2 ^ 22) {p : ℕ} (hp : p ≤ abuf.length) :
    aresExpandName p abuf = .fail ARES_EBADNAME ∨
      ∃ s w, aresExpandName p abuf = .ok (s, w) ∧ 0 < w ∧ p + w ≤ abuf.length := by
  by_cases h : ∃ ls w n, Reads abuf p ls w n
  · obtain ⟨ls, w, n, h⟩ := h
    exact .inr ⟨text ls, w, aresExpandName_of_reads h hsize, h.width_le⟩
  · exact .inl (aresExpandName_of_not_reads hp h)

/-- The same for a name in a response. -/
theorem aresExpandNameForResponse_of_reads (h : Reads abuf p ls w n) (hsize : abuf.length < 2 ^ 22) :
    aresExpandNameForResponse p abuf = .ok (text ls, w) := by
  rw [aresExpandNameForResponse, aresExpandName_of_reads h hsize]

theorem aresExpandNameForResponse_of_not_reads (hp : p ≤ abuf.length)
    (h : ¬ ∃ ls w n, Reads abuf p ls w n) : aresExpandNameForResponse p abuf = .fail ARES_EBADRESP := by
  rw [aresExpandNameForResponse, aresExpandName_of_not_reads hp h]
  rfl

end

/-- A pointer to itself ends the walk. -/
theorem aresExpandName_returns_loop :
    aresExpandName 0 [192, 0] = .fail ARES_EBADNAME ∨
      ∃ s w, aresExpandName 0 [192, 0] = .ok (s, w) ∧ 0 < w ∧ 0 + w ≤ 2 :=
  aresExpandName_returns [192, 0] (by decide) (by decide)

end FakeDns
