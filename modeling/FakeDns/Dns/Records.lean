import FakeDns.ByteMemory.Sequences
import FakeDns.ByteMemory.Strings
import FakeDns.Dns.ExpandName
import FakeDns.Platform

/-! What the three reply parsers share: the question, the records up to their data, and the
sequence of records that a loop over the answers walks through. A record is in order when
its fixed part and its data lie inside the message and, for an alias, the data is a name.
An alias record replaces the name that the records after it are about. The loops go through
the records once and do not look at the alias's own name, so what they find is the end of
a chain of aliases only when the chain stands in front of the other records, link by link. -/

namespace FakeDns

open ByteMemory DomainName

/-- A resource record up to its data, which starts at `data`. -/
structure Rr where
  name : List UInt8
  type : ℕ
  cls : ℕ
  ttl : Int
  len : ℕ
  data : ℕ

/-- `strcasecmp (a, b) == 0` for two buffers: what follows a zero is not compared. -/
def sameName (a b : List UInt8) : Bool := strcaseeq (headString a) (headString b)

/-- The checks of a reply before its records: the name of the question, the place behind
the question and the number of answers. -/
def decodeQuestion (abuf : List UInt8) : Outcome UInt32 (List UInt8 × ℕ × ℕ) :=
  if abuf.length < HFIXEDSZ then .fail ARES_EBADRESP
  else do
    let qdcount ← dns16 abuf 4
    let ancount ← dns16 abuf 6
    if qdcount ≠ 1 then .fail ARES_EBADRESP
    else do
      let (hostname, len) ← aresExpandNameForResponse HFIXEDSZ abuf
      if HFIXEDSZ + len + QFIXEDSZ > abuf.length then .fail ARES_EBADRESP
      else .ok (hostname, HFIXEDSZ + len + QFIXEDSZ, ancount)

/-- "Decode the RR up to the data field." -/
def decodeRr (abuf : List UInt8) (aptr : ℕ) : Outcome UInt32 Rr := do
  let (rrName, len) ← aresExpandNameForResponse aptr abuf
  let aptr := aptr + len
  if aptr + RRFIXEDSZ > abuf.length then .fail ARES_EBADRESP
  else do
    let rrType ← dns16 abuf aptr
    let rrClass ← dns16 abuf (aptr + 2)
    let rrTtl ← dns32 abuf (aptr + 4)
    let rrLen ← dns16 abuf (aptr + 8)
    .ok ⟨rrName, rrType, rrClass, rrTtl, rrLen, aptr + RRFIXEDSZ⟩

/-- The data of the record. -/
def Rr.bytes (abuf : List UInt8) (rr : Rr) : List UInt8 := (abuf.drop rr.data).take rr.len

/-- The record is an Internet record of type `t`. -/
def Rr.Has (rr : Rr) (t : ℕ) : Prop := rr.cls = C_IN ∧ rr.type = t

instance (rr : Rr) (t : ℕ) : Decidable (rr.Has t) := inferInstanceAs (Decidable (_ ∧ _))

/-- The name that the data of the record starts with. -/
def Rr.target (abuf : List UInt8) (rr : Rr) : Option (List UInt8) :=
  match aresExpandNameForResponse rr.data abuf with
  | .ok (s, _) => some s
  | _ => none

variable {abuf : List UInt8} {p : ℕ}

/-! ### Steps -/

theorem aresExpandNameForResponse_cases (hsize : abuf.length < 2 ^ 22) (hp : p ≤ abuf.length) :
    aresExpandNameForResponse p abuf = .fail ARES_EBADRESP ∨
      ∃ s w, aresExpandNameForResponse p abuf = .ok (s, w) ∧ 0 < w ∧ p + w ≤ abuf.length := by
  by_cases h : ∃ ls w n, Reads abuf p ls w n
  · obtain ⟨ls, w, n, h⟩ := h
    exact .inr ⟨text ls, w, aresExpandNameForResponse_of_reads h hsize, h.width_le⟩
  · exact .inl (aresExpandNameForResponse_of_not_reads hp h)

theorem Rr.target_cases (hsize : abuf.length < 2 ^ 22) {rr : Rr} (hd : rr.data ≤ abuf.length) :
    (rr.target abuf = none ∧ aresExpandNameForResponse rr.data abuf = .fail ARES_EBADRESP) ∨
      ∃ s w, rr.target abuf = some s ∧ aresExpandNameForResponse rr.data abuf = .ok (s, w) := by
  rw [Rr.target]
  rcases aresExpandNameForResponse_cases hsize hd with h | ⟨s, w, h, -⟩
  · rw [h]
    exact .inl ⟨rfl, rfl⟩
  · rw [h]
    exact .inr ⟨s, w, rfl, rfl⟩

theorem decodeRr_cases (hsize : abuf.length < 2 ^ 22) (hp : p ≤ abuf.length) :
    decodeRr abuf p = .fail ARES_EBADRESP ∨
      ∃ rr, decodeRr abuf p = .ok rr ∧ p < rr.data ∧ rr.data ≤ abuf.length := by
  rw [decodeRr]
  rcases aresExpandNameForResponse_cases hsize hp with h | ⟨s, w, h, hw, hle⟩
  · rw [h]
    exact .inl rfl
  rw [h, Outcome.bind_ok]
  dsimp only
  by_cases hr : p + w + RRFIXEDSZ > abuf.length
  · rw [if_pos hr]
    exact .inl rfl
  rw [if_neg hr]
  rw [RRFIXEDSZ] at hr ⊢
  rw [dns16_of_lt (by omega), Outcome.bind_ok, dns16_of_lt (by omega), Outcome.bind_ok, dns32,
    dns16_of_lt (by omega), Outcome.bind_ok, dns16_of_lt (by omega), Outcome.bind_ok, Outcome.bind_ok,
    dns16_of_lt (by omega), Outcome.bind_ok]
  exact .inr ⟨_, rfl, by dsimp only; omega, by dsimp only; omega⟩

theorem decodeQuestion_cases (hsize : abuf.length < 2 ^ 22) :
    decodeQuestion abuf = .fail ARES_EBADRESP ∨
      ∃ q p n, decodeQuestion abuf = .ok (q, p, n) ∧ p ≤ abuf.length := by
  rw [decodeQuestion]
  by_cases hh : abuf.length < HFIXEDSZ
  · rw [if_pos hh]
    exact .inl rfl
  rw [if_neg hh, dns16_of_lt (by rw [HFIXEDSZ] at hh; omega), Outcome.bind_ok,
    dns16_of_lt (by rw [HFIXEDSZ] at hh; omega), Outcome.bind_ok]
  split_ifs
  · exact .inl rfl
  rcases aresExpandNameForResponse_cases hsize (not_lt.mp hh) with h | ⟨s, w, h, hw, hle⟩
  · rw [h]
    exact .inl rfl
  rw [h, Outcome.bind_ok]
  dsimp only
  split_ifs with hq
  · exact .inl rfl
  · exact .inr ⟨_, _, _, rfl, not_lt.mp hq⟩

/-! ### The records of a reply -/

/-- A record in order at place `p`; its data is a name when it is `named`. -/
structure IsRecord (abuf : List UInt8) (named : Prop) (p : ℕ) (rr : Rr) : Prop where
  decode : decodeRr abuf p = .ok rr
  data_le : rr.data + rr.len ≤ abuf.length
  target : named → (rr.target abuf).isSome

/-- The records from place `p` up to place `p'`, behind the records `before`. Whether the
data of a record must be a name may depend on the records before it. -/
inductive Records (abuf : List UInt8) (named : List Rr → Rr → Prop) :
    List Rr → ℕ → List Rr → ℕ → Prop
  | nil {before : List Rr} {p : ℕ} : Records abuf named before p [] p
  | cons {before : List Rr} {p p' : ℕ} {rr : Rr} {rrs : List Rr} (h : IsRecord abuf (named before rr) p rr)
      (rest : Records abuf named (before ++ [rr]) (rr.data + rr.len) rrs p') :
      Records abuf named before p (rr :: rrs) p'

/-- The reply asks about `q`, and has as many records in order as it announces. -/
def Says (abuf : List UInt8) (named : List Rr → Rr → Prop) (q : List UInt8) (rrs : List Rr) : Prop :=
  ∃ p p', decodeQuestion abuf = .ok (q, p, rrs.length) ∧ Records abuf named [] p rrs p'

theorem Records.isRecord {named : List Rr → Rr → Prop} {before rrs : List Rr} {p p' : ℕ} {rr : Rr}
    (h : Records abuf named before p rrs p') (hrr : rr ∈ rrs) : ∃ n p, IsRecord abuf n p rr := by
  induction h with
  | nil => exact absurd hrr List.not_mem_nil
  | cons h _ ih =>
    rcases List.mem_cons.mp hrr with rfl | hrr
    · exact ⟨_, _, h⟩
    · exact ih hrr

theorem Says.data_le {named : List Rr → Rr → Prop} {q : List UInt8} {rrs : List Rr} {rr : Rr}
    (h : Says abuf named q rrs) (hrr : rr ∈ rrs) : rr.data + rr.len ≤ abuf.length := by
  obtain ⟨p, p', -, hrecords⟩ := h
  obtain ⟨_, _, hrecord⟩ := hrecords.isRecord hrr
  exact hrecord.data_le

/-- The alias records. -/
def aliases (rrs : List Rr) : List Rr := rrs.filter fun rr => rr.Has T_CNAME

/-- The name that the loops look for behind the records `rrs`: the data of the last alias,
whatever that alias is about, or the name of the question. -/
def current (abuf q : List UInt8) (rrs : List Rr) : List UInt8 :=
  ((aliases rrs).getLast?.bind (Rr.target abuf)).getD q

theorem aliases_concat (rrs : List Rr) (rr : Rr) :
    aliases (rrs ++ [rr]) = aliases rrs ++ if rr.Has T_CNAME then [rr] else [] := by
  simp only [aliases, List.filter_append, List.filter_singleton, Bool.cond_decide]

theorem current_concat (q : List UInt8) (rrs : List Rr) (rr : Rr) :
    current abuf q (rrs ++ [rr]) =
      if rr.Has T_CNAME then (rr.target abuf).getD q else current abuf q rrs := by
  rw [current, aliases_concat]
  split_ifs
  · simp
  · rw [List.append_nil, current]

/-- The aliases `cs` lead from the name `q` to the name `c`, each of them about the name that
the one before it leads to. -/
inductive Leads (abuf : List UInt8) : List UInt8 → List Rr → List UInt8 → Prop
  | nil {q : List UInt8} : Leads abuf q [] q
  | cons {q s c : List UInt8} {rr : Rr} {cs : List Rr} (hcname : rr.Has T_CNAME) (hname : sameName rr.name q)
      (htarget : rr.target abuf = some s) (rest : Leads abuf s cs c) : Leads abuf q (rr :: cs) c

theorem Leads.has {q c : List UInt8} {cs : List Rr} (h : Leads abuf q cs c) : ∀ rr ∈ cs, rr.Has T_CNAME := by
  induction h with
  | nil => exact fun _ h => absurd h List.not_mem_nil
  | cons hcname _ _ _ ih => exact List.forall_mem_cons.mpr ⟨hcname, ih⟩

theorem current_cons {q s : List UInt8} {rr : Rr} (hcname : rr.Has T_CNAME) (htarget : rr.target abuf = some s)
    (cs : List Rr) (hcs : ∀ r ∈ cs, r.Has T_CNAME → (r.target abuf).isSome) :
    current abuf q (rr :: cs) = current abuf s cs := by
  have haliases : aliases (rr :: cs) = rr :: aliases cs := List.filter_cons_of_pos (decide_eq_true hcname)
  rw [current, current, haliases]
  cases hlast : (aliases cs).getLast? with
  | none => rw [List.getLast?_eq_none_iff.mp hlast, List.getLast?_singleton, Option.bind_some, htarget]; rfl
  | some r =>
    have hr : r ∈ aliases cs := List.mem_of_getLast? hlast
    obtain ⟨hmem, hhas⟩ := List.mem_filter.mp hr
    obtain ⟨t, ht⟩ := Option.isSome_iff_exists.mp (hcs r hmem (of_decide_eq_true hhas))
    rw [List.getLast?_cons, hlast, Option.getD_some, Option.bind_some, ht]
    rfl

theorem Leads.target {q c : List UInt8} {cs : List Rr} (h : Leads abuf q cs c) :
    ∀ rr ∈ cs, rr.Has T_CNAME → (rr.target abuf).isSome := by
  induction h with
  | nil => exact fun _ h => absurd h List.not_mem_nil
  | cons _ _ htarget _ ih => exact List.forall_mem_cons.mpr ⟨fun _ => by rw [htarget]; rfl, ih⟩

/-- Behind a chain of aliases the loops look for its end. -/
theorem Leads.current_eq {q c : List UInt8} {cs : List Rr} (h : Leads abuf q cs c) {rrs : List Rr}
    (hrrs : ∀ rr ∈ rrs, ¬ rr.Has T_CNAME) : current abuf q (cs ++ rrs) = c := by
  induction h with
  | nil =>
    have hnone : aliases rrs = [] := List.filter_eq_nil_iff.mpr fun rr hrr => by simpa using hrrs rr hrr
    rw [List.nil_append, current, hnone]
    rfl
  | @cons _ _ _ _ cs hcname _ htarget rest ih =>
    rw [List.cons_append, current_cons hcname htarget _ fun r hr => ?_, ih]
    rcases List.mem_append.mp hr with hr | hr
    · exact rest.target r hr
    · exact fun h => absurd h (hrrs r hr)

theorem length_aliases_le (rrs : List Rr) : (aliases rrs).length ≤ rrs.length := List.length_filter_le _ _

/-! ### Loops over the records -/

/-- `for (i = 0; i < ancount; i++)` around the body `examine`. -/
def forRecords {σ : Type} (examine : σ → Outcome UInt32 σ) : ℕ → σ → Outcome UInt32 σ
  | 0, st => .ok st
  | n + 1, st => do
    let st ← examine st
    forRecords examine n st

/-- The body of a loop that is in the state `after done p` at place `p`, behind the records
`done`: it takes one record in order, and gives up when there is none. -/
def TakesRecord {σ : Type} (abuf : List UInt8) (named : List Rr → Rr → Prop) (cap : ℕ)
    (examine : σ → Outcome UInt32 σ) (after : List Rr → ℕ → σ) : Prop :=
  ∀ done p, p ≤ abuf.length → done.length < cap →
    (∃ rr, IsRecord abuf (named done rr) p rr ∧
      examine (after done p) = .ok (after (done ++ [rr]) (rr.data + rr.len))) ∨
    ((¬ ∃ rr, IsRecord abuf (named done rr) p rr) ∧ examine (after done p) = .fail ARES_EBADRESP)

variable {named : List Rr → Rr → Prop}

theorem Records.unique {before rrs rrs' : List Rr} {p' p'' : ℕ} (h : Records abuf named before p rrs p')
    (h' : Records abuf named before p rrs' p'') (hlen : rrs.length = rrs'.length) : rrs = rrs' := by
  induction h generalizing rrs' with
  | nil => exact (List.eq_nil_of_length_eq_zero hlen.symm).symm
  | cons h _ ih =>
    cases h' with
    | nil => simp at hlen
    | cons h₂ rest =>
      obtain rfl := Outcome.ok.inj (h.decode.symm.trans h₂.decode)
      rw [ih rest (by simpa using hlen)]

theorem Says.unique {q q' : List UInt8} {rrs rrs' : List Rr} (h : Says abuf named q rrs)
    (h' : Says abuf named q' rrs') : q = q' ∧ rrs = rrs' := by
  obtain ⟨p₁, p₂, hq, hr⟩ := h
  obtain ⟨p₁', p₂', hq', hr'⟩ := h'
  obtain ⟨rfl, hp⟩ := Prod.mk.inj (Outcome.ok.inj (hq.symm.trans hq'))
  obtain ⟨rfl, hlen⟩ := Prod.mk.inj hp
  exact ⟨rfl, hr.unique hr' hlen⟩

/-- Such a loop takes all the records, and gives up exactly when there are not as many. -/
theorem forRecords_cases {σ : Type} {cap : ℕ} {examine : σ → Outcome UInt32 σ} {after : List Rr → ℕ → σ}
    (hstep : TakesRecord abuf named cap examine after) (n : ℕ) :
    ∀ done p, p ≤ abuf.length → done.length + n ≤ cap →
      (∃ rrs p', Records abuf named done p rrs p' ∧ rrs.length = n ∧
        forRecords examine n (after done p) = .ok (after (done ++ rrs) p')) ∨
      ((¬ ∃ rrs p', Records abuf named done p rrs p' ∧ rrs.length = n) ∧
        forRecords examine n (after done p) = .fail ARES_EBADRESP) := by
  induction n with
  | zero =>
    intro done p _ _
    left
    exact ⟨[], p, .nil, rfl, by rw [List.append_nil, forRecords]⟩
  | succ n ih =>
    intro done p hp hcap
    rcases hstep done p hp (by omega) with ⟨rr, hr, he⟩ | ⟨hno, he⟩
    · rw [forRecords, he, Outcome.bind_ok]
      rcases ih (done ++ [rr]) _ hr.data_le (by simp; omega) with ⟨rrs, p', hrs, hlen, hok⟩ | ⟨hno, hfail⟩
      · left
        exact ⟨rr :: rrs, p', .cons hr hrs, by rw [List.length_cons, hlen], by rw [hok, List.append_assoc]; rfl⟩
      · right
        refine ⟨?_, hfail⟩
        rintro ⟨rrs, p', hrs, hlen⟩
        cases hrs with
        | nil => simp at hlen
        | cons h₂ rest =>
          obtain rfl := Outcome.ok.inj (hr.decode.symm.trans h₂.decode)
          exact hno ⟨_, p', rest, by simpa using hlen⟩
    · right
      refine ⟨?_, by rw [forRecords, he, Outcome.bind_fail]⟩
      rintro ⟨rrs, p', hrs, hlen⟩
      cases hrs with
      | nil => simp at hlen
      | cons h₂ => exact hno ⟨_, h₂⟩

/-- A parser that decodes the question and walks over the records with such a loop gives
up, or goes on with what the reply says. -/
theorem reply_cases (hsize : abuf.length < 2 ^ 22) {σ α : Type} {named : List UInt8 → List Rr → Rr → Prop}
    {examine : ℕ → σ → Outcome UInt32 σ} {after : List UInt8 → List Rr → ℕ → σ}
    {init : List UInt8 → ℕ → σ} (finish : ℕ → σ → Outcome UInt32 α)
    (hstep : ∀ q n, TakesRecord abuf (named q) n (examine n) (after q)) (hinit : ∀ q p, init q p = after q [] p) :
    (∃ q rrs p', Says abuf (named q) q rrs ∧
      (do
        let (q, p, n) ← decodeQuestion abuf
        let st ← forRecords (examine n) n (init q p)
        finish n st) = finish rrs.length (after q rrs p')) ∨
    ((¬ ∃ q rrs, Says abuf (named q) q rrs) ∧
      (do
        let (q, p, n) ← decodeQuestion abuf
        let st ← forRecords (examine n) n (init q p)
        finish n st) = .fail ARES_EBADRESP) := by
  rcases decodeQuestion_cases hsize with he | ⟨q, p, n, he, hp⟩
  · right
    refine ⟨?_, by rw [he, Outcome.bind_fail]⟩
    rintro ⟨q, rrs, p, p', hq, -⟩
    cases he.symm.trans hq
  rw [he, Outcome.bind_ok]
  dsimp only
  rw [hinit]
  rcases forRecords_cases (hstep q n) n [] p hp (by simp) with ⟨rrs, p', hrs, rfl, hok⟩ | ⟨hno, hfail⟩
  · left
    exact ⟨q, rrs, p', ⟨p, p', he, hrs⟩, by rw [hok, Outcome.bind_ok, List.nil_append]⟩
  · right
    refine ⟨?_, by rw [hfail, Outcome.bind_fail]⟩
    rintro ⟨q', rrs, p₁, p₂, hq, hrs⟩
    obtain ⟨rfl, hp'⟩ := Prod.mk.inj (Outcome.ok.inj (he.symm.trans hq))
    obtain ⟨rfl, rfl⟩ := Prod.mk.inj hp'
    exact hno ⟨rrs, p₂, hrs, rfl⟩

end FakeDns
