import FakeDns.Dns.Mkquery
import FakeDns.Dns.Records

/-! `same_questions`: does a message ask what a query asks? Each question of the query is
looked for among the questions of the message, names being compared without regard to
case, and only up to a zero byte. The search through the message ends at a question that
does not read, so such a question hides the ones behind it. Memory is there for the names;
that it may not be is seen to where the function is called. For a query that `ares_mkquery`
wrote the answer is simple: the message has one question, and it is the one that was
asked. -/

namespace FakeDns

open ByteMemory DomainName

/-- A question: the local structs of `same_questions`. -/
structure Question where
  name : List UInt8
  type : ℕ
  dnsclass : ℕ

/-- "Compare the decoded questions." -/
def Question.same (q a : Question) : Bool :=
  sameName q.name a.name && q.type == a.type && q.dnsclass == a.dnsclass

/-- Decode the question at `p`, and the place behind it. -/
def questionAt (buf : List UInt8) (p : ℕ) : Outcome UInt32 (Option (Question × ℕ)) :=
  match aresExpandName p buf with
  | .fault => .fault
  | .fail _ => .ok none
  | .ok (name, namelen) =>
    let p := p + namelen
    if p + QFIXEDSZ > buf.length then .ok none
    else do
      let type ← dns16 buf p
      let dnsclass ← dns16 buf (p + 2)
      .ok (some (⟨name, type, dnsclass⟩, p + QFIXEDSZ))

/-- "Search for this question in the answer." -/
def findQuestion (abuf : List UInt8) (q : Question) : ℕ → ℕ → Outcome UInt32 Bool
  | 0, _ => .ok false
  | n + 1, p => do
    match ← questionAt abuf p with
    | none => .ok false
    | some (a, p) => if q.same a then .ok true else findQuestion abuf q n p

/-- "For each question in qbuf, find it in abuf." -/
def findQuestions (qbuf abuf : List UInt8) (adcount : ℕ) : ℕ → ℕ → Outcome UInt32 Bool
  | 0, _ => .ok true
  | n + 1, p => do
    match ← questionAt qbuf p with
    | none => .ok false
    | some (q, p) =>
      if ← findQuestion abuf q adcount HFIXEDSZ then findQuestions qbuf abuf adcount n p
      else .ok false

/-- `same_questions` -/
def sameQuestions (qbuf abuf : List UInt8) : Outcome UInt32 Bool :=
  if qbuf.length < HFIXEDSZ ∨ abuf.length < HFIXEDSZ then .ok false
  else do
    let qdcount ← dns16 qbuf 4
    let adcount ← dns16 abuf 4
    if qdcount ≠ adcount then .ok false
    else findQuestions qbuf abuf adcount qdcount HFIXEDSZ

/-! ### The questions of a message -/

/-- At `p` stands the question `q`, and behind it `p'`. -/
def Question.At (buf : List UInt8) (p : ℕ) (q : Question) (p' : ℕ) : Prop :=
  ∃ ls w n, Reads buf p ls w n ∧ q.name = text ls ∧ dns16 buf (p + w) = .ok q.type ∧
    dns16 buf (p + w + 2) = .ok q.dnsclass ∧ p' = p + w + QFIXEDSZ ∧ p' ≤ buf.length

/-- From `p` on, `n` questions can be read. -/
inductive Readable (buf : List UInt8) : ℕ → ℕ → Prop
  | nil {p : ℕ} : Readable buf 0 p
  | cons {n p p' : ℕ} {q : Question} (h : q.At buf p p') (rest : Readable buf n p') : Readable buf (n + 1) p

/-- Among the first `n` questions from `p` on, `q` can be read. -/
inductive Stands (buf : List UInt8) (q : Question) : ℕ → ℕ → Prop
  | here {n p p' : ℕ} (h : q.At buf p p') : Stands buf q (n + 1) p
  | later {n p p' : ℕ} {r : Question} (h : r.At buf p p') (rest : Stands buf q n p') : Stands buf q (n + 1) p

variable {buf abuf qbuf : List UInt8} {p p' p'' n m : ℕ} {q r : Question}

theorem Question.At.le_length (h : q.At buf p p') : p' ≤ buf.length := by
  obtain ⟨ls, w, n, -, -, -, -, -, hle⟩ := h
  exact hle

theorem Question.At.unique (h : q.At buf p p') (h' : r.At buf p p'') : q = r ∧ p' = p'' := by
  obtain ⟨ls, w, n, hr, hn, ht, hc, rfl, -⟩ := h
  obtain ⟨ls', w', n', hr', hn', ht', hc', rfl, -⟩ := h'
  obtain ⟨rfl, rfl, -⟩ := hr.unique hr'
  rw [ht] at ht'
  rw [hc] at hc'
  cases q
  cases r
  simp_all

theorem questionAt_cases (hsize : buf.length < 2 ^ 22) (hp : p ≤ buf.length) :
    (questionAt buf p = .ok none ∧ ¬ ∃ q p', Question.At buf p q p') ∨
      ∃ q p', questionAt buf p = .ok (some (q, p')) ∧ q.At buf p p' := by
  by_cases h : ∃ ls w n, Reads buf p ls w n
  · obtain ⟨ls, w, n, h⟩ := h
    rw [questionAt, aresExpandName_of_reads h hsize]
    dsimp only
    by_cases hlen : p + w + QFIXEDSZ > buf.length
    · left
      rw [if_pos hlen]
      refine ⟨rfl, ?_⟩
      rintro ⟨q, p', ls', w', n', h', -, -, -, rfl, hle⟩
      obtain ⟨-, rfl, -⟩ := h.unique h'
      omega
    · right
      rw [if_neg hlen]
      rw [QFIXEDSZ] at hlen
      rw [dns16_of_lt (by omega), Outcome.bind_ok, dns16_of_lt (by omega), Outcome.bind_ok]
      exact ⟨_, _, rfl, ls, w, n, h, rfl, dns16_of_lt (by omega), dns16_of_lt (by omega), rfl,
        by rw [QFIXEDSZ]; omega⟩
  · left
    rw [questionAt, aresExpandName_of_not_reads hp h]
    refine ⟨rfl, ?_⟩
    rintro ⟨q, p', ls, w, n, hr, -⟩
    exact h ⟨ls, w, n, hr⟩

theorem findQuestion_eq (hsize : abuf.length < 2 ^ 22) (q : Question) (n : ℕ) : ∀ {p : ℕ}, p ≤ abuf.length →
    ∃ b, findQuestion abuf q n p = .ok b ∧ (b = true ↔ ∃ a, Stands abuf a n p ∧ q.same a) := by
  induction n with
  | zero =>
    intro p _
    exact ⟨false, rfl, by simp only [Bool.false_eq_true, false_iff, not_exists]; rintro a ⟨ha, -⟩; cases ha⟩
  | succ n ih =>
    intro p hp
    rw [findQuestion]
    rcases questionAt_cases hsize hp with ⟨hq, hno⟩ | ⟨a, p', hq, hat⟩
    · rw [hq, Outcome.bind_ok]
      refine ⟨false, rfl, ?_⟩
      simp only [Bool.false_eq_true, false_iff, not_exists]
      rintro b ⟨hb, -⟩
      cases hb with
      | here h | later h => exact hno ⟨_, _, h⟩
    · rw [hq, Outcome.bind_ok]
      dsimp only
      by_cases hs : q.same a = true
      · rw [if_pos hs]
        exact ⟨true, rfl, fun _ => ⟨a, .here hat, hs⟩, fun _ => rfl⟩
      · rw [if_neg hs]
        obtain ⟨b, hb, hiff⟩ := ih hat.le_length
        refine ⟨b, hb, hiff.trans ⟨?_, ?_⟩⟩
        · rintro ⟨c, hc, hsame⟩
          exact ⟨c, .later hat hc, hsame⟩
        · rintro ⟨c, hc, hsame⟩
          cases hc with
          | here h =>
            obtain ⟨rfl, -⟩ := hat.unique h
            exact absurd hsame hs
          | later h rest =>
            obtain ⟨-, rfl⟩ := hat.unique h
            exact ⟨c, rest, hsame⟩

theorem findQuestions_eq (hsize : qbuf.length < 2 ^ 22) (hsize' : abuf.length < 2 ^ 22) (ha : HFIXEDSZ ≤ abuf.length)
    (m : ℕ) (n : ℕ) : ∀ {p : ℕ}, p ≤ qbuf.length →
    ∃ b, findQuestions qbuf abuf m n p = .ok b ∧ (b = true ↔ Readable qbuf n p ∧
      ∀ q, Stands qbuf q n p → ∃ a, Stands abuf a m HFIXEDSZ ∧ q.same a) := by
  induction n with
  | zero =>
    intro p _
    exact ⟨true, rfl, fun _ => ⟨.nil, nofun⟩, fun _ => rfl⟩
  | succ n ih =>
    intro p hp
    rw [findQuestions]
    rcases questionAt_cases hsize hp with ⟨hq, hno⟩ | ⟨q, p', hq, hat⟩
    · rw [hq, Outcome.bind_ok]
      refine ⟨false, rfl, ?_⟩
      simp only [Bool.false_eq_true, false_iff, not_and]
      intro hr
      cases hr with
      | cons h rest => exact absurd ⟨_, _, h⟩ hno
    · rw [hq, Outcome.bind_ok]
      dsimp only
      obtain ⟨b, hb, hfound⟩ := findQuestion_eq hsize' q m ha
      rw [hb, Outcome.bind_ok]
      cases b with
      | false =>
        refine ⟨false, rfl, ?_⟩
        simp only [Bool.false_eq_true, false_iff, not_and] at hfound ⊢
        exact fun _ hall => hfound (hall q (.here hat))
      | true =>
        obtain ⟨b, hb, hiff⟩ := ih hat.le_length
        refine ⟨b, hb, hiff.trans ⟨?_, ?_⟩⟩
        · rintro ⟨hr, hall⟩
          refine ⟨.cons hat hr, fun r hr => ?_⟩
          cases hr with
          | here h =>
            obtain ⟨rfl, -⟩ := hat.unique h
            exact hfound.mp rfl
          | later h rest =>
            obtain ⟨-, rfl⟩ := hat.unique h
            exact hall r rest
        · rintro ⟨hr, hall⟩
          refine ⟨?_, fun r hr => hall r (.later hat hr)⟩
          cases hr with
          | cons h rest =>
            obtain ⟨-, rfl⟩ := hat.unique h
            exact rest

/-- `same_questions` comes to an end inside both messages, and says yes when they have the
same number of questions, those of the query can all be read, and each of them can be read
in the other message. -/
theorem sameQuestions_eq (hsize : qbuf.length < 2 ^ 22) (hsize' : abuf.length < 2 ^ 22) :
    ∃ b, sameQuestions qbuf abuf = .ok b ∧ (b = true ↔
      HFIXEDSZ ≤ qbuf.length ∧ HFIXEDSZ ≤ abuf.length ∧ ∃ n, dns16 qbuf 4 = .ok n ∧ dns16 abuf 4 = .ok n ∧
        Readable qbuf n HFIXEDSZ ∧
        ∀ q, Stands qbuf q n HFIXEDSZ → ∃ a, Stands abuf a n HFIXEDSZ ∧ q.same a) := by
  rw [sameQuestions]
  by_cases hlen : qbuf.length < HFIXEDSZ ∨ abuf.length < HFIXEDSZ
  · rw [if_pos hlen]
    refine ⟨false, rfl, ?_⟩
    simp only [Bool.false_eq_true, false_iff]
    rintro ⟨hq, ha, -⟩
    omega
  rw [if_neg hlen]
  rw [not_or, not_lt, not_lt] at hlen
  have h12 : HFIXEDSZ = 12 := rfl
  have hqd := dns16_of_lt (show 4 + 1 < qbuf.length by omega)
  have had := dns16_of_lt (show 4 + 1 < abuf.length by omega)
  rw [hqd, Outcome.bind_ok, had, Outcome.bind_ok]
  split_ifs with hne
  · refine ⟨false, rfl, ?_⟩
    simp only [Bool.false_eq_true, false_iff]
    rintro ⟨-, -, n, hn, hn', -⟩
    exact hne ((Outcome.ok.inj hn).trans (Outcome.ok.inj hn').symm)
  · obtain ⟨b, hb, hiff⟩ := findQuestions_eq hsize hsize' hlen.2 (abuf[4].toNat * 256 + abuf[4 + 1].toNat)
      (qbuf[4].toNat * 256 + qbuf[4 + 1].toNat) hlen.1
    refine ⟨b, hb, hiff.trans ⟨?_, ?_⟩⟩
    · rintro ⟨hr, hall⟩
      rw [← not_ne_iff.mp hne] at hall
      exact ⟨hlen.1, hlen.2, _, rfl, congrArg _ (not_ne_iff.mp hne).symm, hr, hall⟩
    · rintro ⟨-, -, n, hn, hn', hr, hall⟩
      rw [← Outcome.ok.inj hn] at hr hall
      rw [← not_ne_iff.mp hne]
      exact ⟨hr, hall⟩

/-- The search stays inside the query and the message. A message is taken for a reply to the
query exactly when it has one question, of the type and class asked for, with the name asked
for up to case and up to a zero byte. -/
theorem sameQuestions_mkquery {name : List UInt8} {dnsclass type id buflen : ℕ} {rd : Bool}
    (h : aresMkquery name dnsclass type id rd = .ok (qbuf, buflen)) (hc : dnsclass < 65536) (ht : type < 65536)
    (hi : id < 65536) (hsize : abuf.length < 2 ^ 22) :
    ∃ b, sameQuestions qbuf abuf = .ok b ∧ (b = true ↔ HFIXEDSZ ≤ abuf.length ∧ dns16 abuf 4 = .ok 1 ∧
      ∃ a p', Question.At abuf HFIXEDSZ a p' ∧ sameName (text (labels name)) a.name ∧ a.type = type ∧
        a.dnsclass = dnsclass) := by
  obtain ⟨hheader, w, hread, htype, hclass, hlen⟩ := aresMkquery_says h hc ht hi
  have hcount := hheader.qdcount
  obtain ⟨hle, hmax⟩ := aresMkquery_length h
  have hat : Question.At qbuf HFIXEDSZ ⟨text (labels name), type, dnsclass⟩ (HFIXEDSZ + w + QFIXEDSZ) :=
    ⟨_, _, _, hread.reads, rfl, htype, hclass, rfl, hlen.ge⟩
  have hsame : ∀ a : Question, Question.same ⟨text (labels name), type, dnsclass⟩ a ↔
      sameName (text (labels name)) a.name ∧ a.type = type ∧ a.dnsclass = dnsclass := by
    intro a
    simp only [Question.same, Bool.and_eq_true, beq_iff_eq, and_assoc]
    tauto
  obtain ⟨b, hb, hiff⟩ := sameQuestions_eq ((hle.trans hmax).trans_lt (by decide)) hsize
  refine ⟨b, hb, hiff.trans ⟨?_, ?_⟩⟩
  · rintro ⟨-, ha, n, hn, hn', -, hall⟩
    rw [hcount, Outcome.ok.injEq] at hn
    subst hn
    obtain ⟨a, hs, hsa⟩ := hall _ (.here hat)
    cases hs with
    | here h => exact ⟨ha, hn', a, _, h, (hsame a).mp hsa⟩
    | later _ rest => cases rest
  · rintro ⟨ha, hn, a, p', hat', hsa⟩
    refine ⟨by omega, ha, 1, hcount, hn, .cons hat .nil, fun q hq => ?_⟩
    cases hq with
    | here h =>
      obtain ⟨rfl, -⟩ := hat.unique h
      exact ⟨a, .here hat', (hsame a).mpr hsa⟩
    | later _ rest => cases rest

/-- The query for "a" and a reply to it that spells the name "A". -/
theorem sameQuestions_mkquery_sample :
    sameQuestions [0, 7, 1, 0, 0, 1, 0, 0, 0, 0, 0, 0, 1, 97, 0, 0, 1, 0, 1]
      [0, 7, 129, 128, 0, 1, 0, 0, 0, 0, 0, 0, 1, 65, 0, 0, 1, 0, 1] = .ok true := by
  have hq : aresMkquery [97] C_IN T_A 7 true =
      .ok ([0, 7, 1, 0, 0, 1, 0, 0, 0, 0, 0, 0, 1, 97, 0, 0, 1, 0, 1], 19) := rfl
  have hsize : ([0, 7, 129, 128, 0, 1, 0, 0, 0, 0, 0, 0, 1, 65, 0, 0, 1, 0, 1] : List UInt8).length < 2 ^ 22 := by
    decide
  have hread : Reads [0, 7, 129, 128, 0, 1, 0, 0, 0, 0, 0, 0, 1, 65, 0, 0, 1, 0, 1] 12 [[65]] 3 0 :=
    .label (w := 1) (k := 1) rfl (by decide) (by decide) (by decide) rfl (.root rfl)
  obtain ⟨b, hb, hiff⟩ := sameQuestions_mkquery hq (by decide) (by decide) (by decide) hsize
  rw [hb, hiff.mpr ⟨by decide, rfl, ⟨[65], 1, 1⟩, 19, ⟨_, _, _, hread, rfl, rfl, rfl, rfl, by decide⟩, rfl, rfl, rfl⟩]

end FakeDns
