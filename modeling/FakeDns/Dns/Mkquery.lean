import FakeDns.Dns.ExpandName

/-! `ares_mkquery`: the question for a name, as a message. A first pass over the name counts
its characters and allocates the buffer, the second writes the labels. Here a write
outside the buffer is a fault. The count takes a dot at the end of the name for one that
ends a label, so a name that ends with an escaped dot gets a buffer that is one byte too
short, and it is the only kind of name that does. A query that is written reads back as
the name it was asked for. -/

namespace FakeDns

open ByteMemory DomainName

/-- The counting pass over the name. -/
def countChars : List UInt8 → ℕ
  | [] => 0
  | [_] => 1
  | c :: d :: s => if c = 92 then countChars s + 1 else countChars (d :: s) + 1

/-- The loops over one label: its bytes, and the place where they stop. -/
def scanLabel : List UInt8 → List UInt8 × List UInt8
  | [] => ([], [])
  | [c] => if c = 46 then ([], [c]) else ([c], [])
  | c :: d :: s =>
    if c = 46 then ([], c :: d :: s)
    else if c = 92 then (d :: (scanLabel s).1, (scanLabel s).2)
    else (c :: (scanLabel (d :: s)).1, (scanLabel (d :: s)).2)

/-- Write `bs` behind `q` in a buffer of `size` bytes. -/
def putBytes (size : ℕ) (q bs : List UInt8) : Outcome UInt32 (List UInt8) :=
  if q.length + bs.length ≤ size then .ok (q ++ bs) else .fault

/-- The `while (*name)` loop of `ares_mkquery`, for at most `fuel` labels. -/
def writeLabels (size : ℕ) : ℕ → List UInt8 → List UInt8 → Outcome UInt32 (List UInt8)
  | 0, _, _ => .fault
  | _ + 1, [], q => .ok q
  | fuel + 1, c :: s, q =>
    if c = 46 then .fail ARES_EBADNAME
    else if (scanLabel (c :: s)).1.length > MAXLABEL then .fail ARES_EBADNAME
    else do
      let q ← putBytes size q (UInt8.ofNat (scanLabel (c :: s)).1.length :: (scanLabel (c :: s)).1)
      match (scanLabel (c :: s)).2 with
      | [] => .ok q
      | _ :: name => writeLabels size fuel name q

/-- The length of the encoded name, as the first pass computes it. -/
def queryNameLen (name : List UInt8) : ℕ :=
  let len := 1 + countChars name
  if name ≠ [] ∧ name.getLast? ≠ some 46 then len + 1 else len

/-- The header of a query. -/
def queryHeader (id : ℕ) (rd : Bool) : List UInt8 :=
  set16 id ++ [UInt8.ofNat (QUERY <<< 3) ||| if rd then 1 else 0, 0] ++ set16 1 ++ set16 0 ++ set16 0 ++ set16 0

/-- `ares_mkquery`: the bytes written to `*buf`, and `*buflen`. -/
def aresMkquery (name : List UInt8) (dnsclass type id : ℕ) (rd : Bool) : Outcome UInt32 (List UInt8 × ℕ) :=
  let len := queryNameLen name
  if len > MAXCDNAME then .fail ARES_EBADNAME
  else
    let buflen := len + HFIXEDSZ + QFIXEDSZ
    let name := if name = [46] then [] else name
    do
      let q ← writeLabels buflen (name.length + 1) name (queryHeader id rd)
      let q ← putBytes buflen q [0]
      let q ← putBytes buflen q (set16 type ++ set16 dnsclass)
      .ok (q, buflen)

/-! ### The passes and the labels -/

theorem countChars_eq (s : List UInt8) : countChars s = (chars s).length := by
  induction s using countChars.induct with
  | case1 => rfl
  | case2 c => rfl
  | case3 d s ih =>
    rw [countChars, if_pos rfl, ih]
    exact (congrArg List.length (chars_backslash d s)).symm
  | case4 c d s hc ih => rw [countChars, if_neg hc, ih, chars_cons hc, List.length_cons]

/-- A label is scanned up to the first dot that ends it. -/
theorem scanLabel_spec (s : List UInt8) : ∃ cs, chars s = cs ++ chars (scanLabel s).2 ∧
    (∀ c ∈ cs, separator c = false) ∧ cs.map Prod.fst = (scanLabel s).1 ∧
    (scanLabel s).2.length + cs.length ≤ s.length ∧
    ((scanLabel s).2 = [] ∨ ∃ name, (scanLabel s).2 = 46 :: name) := by
  have hsep : ∀ {c : UInt8} {e : Bool}, c ≠ 46 ∨ e = true → separator (c, e) = false := by
    intro c e h
    rw [separator, beq_eq_false_iff_ne, Ne, Prod.mk.injEq, not_and_or]
    rcases h with h | h
    · exact .inl h
    · exact .inr (by simp [h])
  induction s using scanLabel.induct with
  | case1 => exact ⟨[], rfl, by simp, rfl, le_rfl, .inl rfl⟩
  | case2 => exact ⟨[], rfl, by simp, rfl, le_rfl, .inr ⟨[], rfl⟩⟩
  | case3 c hc =>
    rw [scanLabel, if_neg hc]
    exact ⟨[(c, false)], rfl, by simpa using hsep (.inl hc), rfl, le_rfl, .inl rfl⟩
  | case4 d s =>
    rw [scanLabel, if_pos rfl]
    exact ⟨[], rfl, by simp, rfl, le_rfl, .inr ⟨_, rfl⟩⟩
  | case5 d s hc ih =>
    obtain ⟨cs, h₁, h₂, h₃, h₄, h₅⟩ := ih
    rw [scanLabel, if_neg hc, if_pos rfl]
    refine ⟨(d, true) :: cs, ?_, ?_, ?_, ?_, h₅⟩
    · exact (chars_backslash d s).trans (congrArg _ h₁)
    · exact List.forall_mem_cons.mpr ⟨hsep (.inr rfl), h₂⟩
    · rw [List.map_cons, h₃]
    · simp only [List.length_cons]
      omega
  | case6 c d s hc hb ih =>
    obtain ⟨cs, h₁, h₂, h₃, h₄, h₅⟩ := ih
    rw [scanLabel, if_neg hc, if_neg hb]
    refine ⟨(c, false) :: cs, ?_, ?_, ?_, ?_, h₅⟩
    · exact (chars_cons hb _).trans (congrArg _ h₁)
    · exact List.forall_mem_cons.mpr ⟨hsep (.inl hc), h₂⟩
    · rw [List.map_cons, h₃]
    · simp only [List.length_cons] at h₄ ⊢
      omega

/-- The label at the head of a name that does not start with a dot is the first part, and
the parts of what follows its dot are the others. -/
theorem scanLabel_cases {c : UInt8} (hc : c ≠ 46) (s : List UInt8) :
    ∃ l p, scanLabel (c :: s) = (l, p) ∧ l ≠ [] ∧
      ((p = [] ∧ parts (c :: s) = [l] ∧ (chars (c :: s)).length = l.length) ∨
        ∃ name, p = 46 :: name ∧ parts (c :: s) = l :: parts name ∧
          (chars (c :: s)).length = l.length + 1 + (chars name).length ∧ name.length ≤ s.length) := by
  obtain ⟨cs, hchars, hsep, hfst, hlen, hstop⟩ := scanLabel_spec (c :: s)
  obtain ⟨hend, hmore⟩ := parts_of_append hchars hsep
  have hne : (scanLabel (c :: s)).1 ≠ [] := by
    cases s with
    | nil => rw [scanLabel, if_neg hc]; simp
    | cons d s =>
      rw [scanLabel, if_neg hc]
      split_ifs <;> simp
  have hcs : cs.length = (scanLabel (c :: s)).1.length := by rw [← hfst, List.length_map]
  rw [hfst] at hend hmore
  refine ⟨_, _, rfl, hne, ?_⟩
  rcases hstop with hp | ⟨name, hp⟩
  · left
    exact ⟨hp, hend hp, by rw [hchars, hp, chars_nil, List.append_nil, hcs]⟩
  · right
    have hd : chars (46 :: name) = (46, false) :: chars name := chars_cons (by decide) name
    refine ⟨name, hp, hmore name hp, ?_, ?_⟩
    · rw [hchars, hp, hd, List.length_append, List.length_cons, hcs]
      omega
    · rw [hp] at hlen
      simp only [List.length_cons] at hlen
      have := List.length_pos_of_ne_nil hne
      omega

section

variable {size : ℕ} {q bs : List UInt8}

theorem putBytes_eq (h : q.length + bs.length ≤ size) : putBytes size q bs = .ok (q ++ bs) := if_pos h

/-- The loop writes the labels of the name, when all of them can be written; it needs a
byte more than the name has characters. -/
theorem writeLabels_eq : ∀ fuel name q, name.length < fuel → q.length + (chars name).length + 1 ≤ size →
    writeLabels size fuel name q =
      if ∀ l ∈ dropEmptyEnd (parts name), Writable l then .ok (q ++ body (dropEmptyEnd (parts name)))
      else .fail ARES_EBADNAME := by
  intro fuel
  induction fuel with
  | zero =>
    intro name q hf
    exact absurd hf (Nat.not_lt_zero _)
  | succ fuel ih =>
    intro name q hf hq
    cases name with
    | nil => simp [writeLabels, parts_nil, dropEmptyEnd, body]
    | cons c s =>
      rw [writeLabels]
      by_cases hc : c = 46
      · subst hc
        rw [if_pos rfl, show parts (46 :: s) = [] :: parts s from parts_dot s,
          dropEmptyEnd_cons _ (parts_ne_nil s), if_neg]
        intro h
        exact (h [] (by simp)).1 rfl
      obtain ⟨l, p, hscan, hne, hp⟩ := scanLabel_cases hc s
      rw [if_neg hc, hscan]
      dsimp only
      have hlabels : ∃ ls, dropEmptyEnd (parts (c :: s)) = l :: ls := by
        rcases hp with ⟨-, hparts, -⟩ | ⟨name, -, hparts, -⟩
        · exact ⟨[], by rw [hparts, dropEmptyEnd_singleton hne]⟩
        · exact ⟨_, by rw [hparts, dropEmptyEnd_cons _ (parts_ne_nil name)]⟩
      by_cases hmax : l.length > MAXLABEL
      · obtain ⟨ls, hls⟩ := hlabels
        rw [if_pos hmax, hls, if_neg]
        intro h
        exact absurd (h l (by simp)).2 (not_le.mpr hmax)
      have hw : Writable l := ⟨hne, not_lt.mp hmax⟩
      rw [if_neg hmax]
      rcases hp with ⟨rfl, hparts, hlen⟩ | ⟨name, rfl, hparts, hlen, hle⟩
      · rw [putBytes_eq (by rw [List.length_cons]; omega), hparts, dropEmptyEnd_singleton hne,
          if_pos (by simpa using hw), body_cons]
        simp [body]
      · rw [List.length_cons] at hf
        rw [putBytes_eq (by rw [List.length_cons]; omega), Outcome.bind_ok, hparts,
          dropEmptyEnd_cons _ (parts_ne_nil name)]
        dsimp only
        rw [ih name _ (by omega) (by simp only [List.length_append, List.length_cons]; omega)]
        simp only [List.forall_mem_cons, hw, true_and, body_cons, List.append_assoc, List.cons_append]

end

/-! ### The message -/

@[simp] theorem length_queryHeader (id : ℕ) (rd : Bool) : (queryHeader id rd).length = HFIXEDSZ := rfl

/-- A name that `ares_mkquery` has room for and can write. -/
def Accepted (name : List UInt8) : Prop := queryNameLen name ≤ MAXCDNAME ∧ ∀ l ∈ labels name, Writable l

instance (name : List UInt8) : Decidable (Accepted name) := inferInstanceAs (Decidable (_ ∧ _))

theorem labels_eq (name : List UInt8) :
    labels name = dropEmptyEnd (parts (if name = [46] then [] else name)) := by
  rw [labels, show [dot] = [(46 : UInt8)] from rfl]
  split_ifs
  · rfl
  · rfl

theorem length_chars_le (name : List UInt8) :
    (chars (if name = [46] then [] else name)).length ≤ (chars name).length := by
  split_ifs
  · exact Nat.zero_le _
  · exact le_rfl

/-- The encoded name has the length that the first pass computes, or one byte more when an
escaped dot ends it. A lone dot leaves one byte over. -/
theorem length_body_labels (name : List UInt8) :
    (body (labels name)).length + 1 + (if name = [46] then 1 else 0) =
      queryNameLen name + if EndsEscapedDot name then 1 else 0 := by
  by_cases hdot : name = [46]
  · subst hdot
    rfl
  by_cases hnil : name = []
  · subst hnil
    rfl
  have hlast := getLast_chars name
  cases hl : (chars name).getLast? with
  | none =>
    rw [hl, Option.map_none, eq_comm, List.getLast?_eq_none_iff] at hlast
    exact absurd hlast hnil
  | some c =>
    obtain ⟨c, e⟩ := c
    rw [hl, Option.map_some] at hlast
    have hsep : (parts name).getLast? = some [] ↔ c = 46 ∧ e = false := by
      simp [getLast_parts, hl, show dot = (46 : UInt8) from rfl]
    have hesc : EndsEscapedDot name ↔ c = 46 ∧ e = true := by
      simp [EndsEscapedDot, hl, show dot = (46 : UInt8) from rfl]
    have hadd : name ≠ [] ∧ name.getLast? ≠ some 46 ↔ c ≠ 46 := by simp [hnil, ← hlast]
    rw [labels_eq, if_neg hdot, if_neg hdot, length_body, length_dropEmptyEnd, queryNameLen, countChars_eq]
    simp only [hsep, hesc, hadd]
    by_cases hc : c = 46
    · cases e <;> simp [hc] <;> omega
    · simp [hc]
      omega

/-- What `ares_mkquery` does with any name. -/
theorem aresMkquery_eq (name : List UInt8) (dnsclass type id : ℕ) (rd : Bool) :
    aresMkquery name dnsclass type id rd =
      if ¬ Accepted name then .fail ARES_EBADNAME
      else if EndsEscapedDot name then .fault
      else .ok (queryHeader id rd ++ wire (labels name) ++ set16 type ++ set16 dnsclass,
        queryNameLen name + HFIXEDSZ + QFIXEDSZ) := by
  have hlen := length_body_labels name
  have hchars := length_chars_le name
  have hname : 1 + (chars name).length ≤ queryNameLen name := by
    rw [queryNameLen, countChars_eq]
    split_ifs
    · exact Nat.le_succ _
    · exact le_rfl
  rw [aresMkquery]
  by_cases hmax : queryNameLen name > MAXCDNAME
  · have ha : ¬ Accepted name := fun h => absurd h.1 (not_le.mpr hmax)
    rw [if_pos hmax, if_pos ha]
  rw [if_neg hmax]
  dsimp only
  rw [writeLabels_eq _ _ _ (Nat.lt_succ_self _) (by rw [length_queryHeader]; omega), ← labels_eq]
  by_cases hw : ∀ l ∈ labels name, Writable l
  · have ha : ¬ ¬ Accepted name := not_not.mpr ⟨not_lt.mp hmax, hw⟩
    have hbody : (body (labels name)).length ≤ queryNameLen name := by
      split_ifs at hlen <;> omega
    rw [if_pos hw, if_neg ha, Outcome.bind_ok,
      putBytes_eq (by simp only [List.length_append, length_queryHeader, List.length_singleton, QFIXEDSZ]; omega),
      Outcome.bind_ok, putBytes]
    simp only [List.length_append, length_queryHeader, List.length_singleton, length_set16]
    by_cases he : EndsEscapedDot name
    · rw [if_pos he] at hlen ⊢
      have hdot : name ≠ [46] := by
        rintro rfl
        exact absurd he (by decide)
      rw [if_neg hdot] at hlen
      rw [if_neg (by simp only [QFIXEDSZ]; omega), Outcome.bind_fault]
    · rw [if_neg he] at hlen ⊢
      rw [if_pos (by simp only [QFIXEDSZ]; omega), Outcome.bind_ok]
      simp only [wire, List.append_assoc]
  · have ha : ¬ Accepted name := fun h => hw h.2
    rw [if_neg hw, if_pos ha, Outcome.bind_fail]

/-- What a query is written as. -/
def queryBytes (name : List UInt8) (dnsclass type id : ℕ) (rd : Bool) : List UInt8 :=
  queryHeader id rd ++ wire (labels name) ++ set16 type ++ set16 dnsclass

theorem length_queryBytes (name : List UInt8) (dnsclass type id : ℕ) (rd : Bool) :
    (queryBytes name dnsclass type id rd).length = HFIXEDSZ + ((body (labels name)).length + 1) + QFIXEDSZ := by
  simp only [queryBytes, wire, List.length_append, length_queryHeader, length_set16, List.length_singleton, QFIXEDSZ]

/-- `ares_mkquery` writes outside its buffer exactly for the names that it accepts and that
end with an escaped dot. The buffer is then one byte too short for the query. -/
theorem aresMkquery_fault_iff (name : List UInt8) (dnsclass type id : ℕ) (rd : Bool) :
    (aresMkquery name dnsclass type id rd = .fault ↔ Accepted name ∧ EndsEscapedDot name) ∧
      (EndsEscapedDot name →
        (queryBytes name dnsclass type id rd).length = queryNameLen name + HFIXEDSZ + QFIXEDSZ + 1) ∧
      (¬ EndsEscapedDot name →
        (queryBytes name dnsclass type id rd).length ≤ queryNameLen name + HFIXEDSZ + QFIXEDSZ) := by
  have hlen := length_body_labels name
  refine ⟨?_, fun he => ?_, fun he => ?_⟩
  · rw [aresMkquery_eq]
    by_cases ha : Accepted name
    · rw [if_neg (not_not.mpr ha)]
      split_ifs with he
      · exact ⟨fun _ => ⟨ha, he⟩, fun _ => rfl⟩
      · exact ⟨nofun, fun h => absurd h.2 he⟩
    · rw [if_pos ha]
      exact ⟨nofun, fun h => absurd h.1 ha⟩
  · have hdot : name ≠ [46] := by
      rintro rfl
      exact absurd he (by decide)
    rw [if_neg hdot, if_pos he] at hlen
    rw [length_queryBytes]
    omega
  · rw [if_neg he] at hlen
    rw [length_queryBytes]
    omega

theorem aresMkquery_eq_ok {name q : List UInt8} {dnsclass type id buflen : ℕ} {rd : Bool}
    (h : aresMkquery name dnsclass type id rd = .ok (q, buflen)) :
    Accepted name ∧ ¬ EndsEscapedDot name ∧ buflen = queryNameLen name + HFIXEDSZ + QFIXEDSZ ∧
      q = queryHeader id rd ++ wire (labels name) ++ set16 type ++ set16 dnsclass := by
  rw [aresMkquery_eq] at h
  split_ifs at h with ha he
  obtain ⟨rfl, rfl⟩ := Prod.mk.inj (Outcome.ok.inj h)
  exact ⟨ha, he, rfl, rfl⟩

/-- The header of a query: its id, no flag but that for recursion, and one question. -/
structure QueryHeader (q : List UInt8) (id : ℕ) (rd : Bool) : Prop where
  qid : dns16 q 0 = .ok id
  flags : q[2]? = some (if rd then 1 else 0) ∧ q[3]? = some 0
  qdcount : dns16 q 4 = .ok 1
  ancount : dns16 q 6 = .ok 0
  nscount : dns16 q 8 = .ok 0
  arcount : dns16 q 10 = .ok 0

/-- A field of a header, whatever stands behind it. -/
theorem dns16_header (pre post rest : List UInt8) {q : List UInt8} {v : ℕ} (h : q = pre ++ set16 v ++ post)
    (hv : v < 65536) : dns16 (q ++ rest) pre.length = .ok v := by
  rw [h, List.append_assoc]
  exact dns16_set16 pre (post ++ rest) hv

theorem queryHeader_says {id : ℕ} (hi : id < 65536) (rd : Bool) (rest : List UInt8) :
    QueryHeader (queryHeader id rd ++ rest) id rd := by
  set flags : List UInt8 := [UInt8.ofNat (QUERY <<< 3) ||| if rd then 1 else 0, 0] with hflags
  have hheader : queryHeader id rd =
      set16 id ++ (flags ++ (set16 1 ++ (set16 0 ++ (set16 0 ++ set16 0)))) := by
    simp only [queryHeader, hflags, List.append_assoc]
  constructor
  · exact dns16_header [] _ rest hheader hi
  · cases rd <;> exact ⟨rfl, rfl⟩
  · exact dns16_header (set16 id ++ flags) (set16 0 ++ (set16 0 ++ set16 0)) rest
      (by simp only [hheader, List.append_assoc]) (by decide)
  · exact dns16_header (set16 id ++ flags ++ set16 1) (set16 0 ++ set16 0) rest
      (by simp only [hheader, List.append_assoc]) (by decide)
  · exact dns16_header (set16 id ++ flags ++ set16 1 ++ set16 0) (set16 0) rest
      (by simp only [hheader, List.append_assoc]) (by decide)
  · exact dns16_header (set16 id ++ flags ++ set16 1 ++ set16 0 ++ set16 0) [] rest
      (by simp only [hheader, List.append_assoc, List.append_nil]) (by decide)

/-- What a query says: its header, and the name, type and class of its question, with nothing
behind it. -/
theorem aresMkquery_says {name q : List UInt8} {dnsclass type id buflen : ℕ} {rd : Bool}
    (h : aresMkquery name dnsclass type id rd = .ok (q, buflen)) (hc : dnsclass < 65536) (ht : type < 65536)
    (hi : id < 65536) :
    QueryHeader q id rd ∧ ∃ w, Encoded q HFIXEDSZ (labels name) w 0 ∧
      dns16 q (HFIXEDSZ + w) = .ok type ∧ dns16 q (HFIXEDSZ + w + 2) = .ok dnsclass ∧
      q.length = HFIXEDSZ + w + QFIXEDSZ := by
  obtain ⟨⟨_, hw⟩, he, rfl, rfl⟩ := aresMkquery_eq_ok h
  have hread := encoded_wire hw (queryHeader id rd) (set16 type ++ set16 dnsclass)
  rw [length_queryHeader, ← List.append_assoc] at hread
  refine ⟨?_, _, hread, ?_, ?_, ?_⟩
  · rw [List.append_assoc, List.append_assoc]
    exact queryHeader_says hi rd _
  · have htype := dns16_set16 (queryHeader id rd ++ wire (labels name)) (set16 dnsclass) ht
    rwa [List.length_append, length_queryHeader] at htype
  · have hclass := dns16_set16 (queryHeader id rd ++ wire (labels name) ++ set16 type) [] hc
    rwa [List.append_nil, List.length_append, List.length_append, length_queryHeader, length_set16] at hclass
  · simp only [List.length_append, length_queryHeader, length_set16, QFIXEDSZ]

theorem aresMkquery_length {name q : List UInt8} {dnsclass type id buflen : ℕ} {rd : Bool}
    (h : aresMkquery name dnsclass type id rd = .ok (q, buflen)) :
    q.length ≤ buflen ∧ buflen ≤ MAXCDNAME + HFIXEDSZ + QFIXEDSZ := by
  obtain ⟨ha, he, rfl, rfl⟩ := aresMkquery_eq_ok h
  have hlen := (aresMkquery_fault_iff name dnsclass type id rd).2.2 he
  exact ⟨hlen, Nat.add_le_add_right (Nat.add_le_add_right ha.1 _) _⟩

end FakeDns
