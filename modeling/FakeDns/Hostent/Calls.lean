import FakeDns.Hostent.Copy

/-! The six exported host lookups. The three that return a pointer fill the static
hostent; the three `_r` variants fill the caller's buffers. In each group the bodies
differ in the c-ares query only, so each group is one definition applied to the reply of
that query. The wait loop around `ares_fds`, `select` and `ares_process` ends after the
callback has run once with the reply, and `ares_destroy` leaves the memory alone. -/

namespace FakeDns

open ByteMemory Mem

/-- The common body of `gethostbyname`, `gethostbyname2` and `gethostbyaddr`. -/
def lookupStatic (st : Statics) (reply : Reply) (w : World) : ℕ × World :=
  let w := aresInit st w
  let m := gethostbynameCallback st ⟨st.he, st.fAddrbuf⟩ reply w.mem
  (if m.load 4 (hLength st.he) ≠ 0 then st.he else 0, { w with mem := m })

def gethostbyname (st : Statics) (ares : Ares) (name : List UInt8) (w : World) : ℕ × World :=
  lookupStatic st (ares.gethostbyname name AF_INET) w

def gethostbyaddr (st : Statics) (ares : Ares) (addr : List UInt8) (len : ℕ) (af : UInt32) (w : World) :
    ℕ × World :=
  lookupStatic st (ares.gethostbyaddr addr len af) w

def gethostbyname2 (st : Statics) (ares : Ares) (name : List UInt8) (af : UInt32) (w : World) : ℕ × World :=
  lookupStatic st (ares.gethostbyname name af) w

/-- The buffers of an `_r` call; `result` and `hErrnop` may be NULL. -/
structure ResultArgs where
  resultBuf : ℕ
  buf : ℕ
  buflen : ℕ
  result : ℕ
  hErrnop : ℕ

/-- `if(__result) *__result = p;` -/
def setResult (a : ResultArgs) (p : ℕ) (m : Mem) : Mem :=
  if a.result ≠ 0 then m.storePtr a.result p else m

/-- `if(__h_errnop) *__h_errnop = e;` -/
def setErrno (a : ResultArgs) (e : UInt32) (m : Mem) : Mem :=
  if a.hErrnop ≠ 0 then m.store 4 a.hErrnop e.toNat else m

/-- The common body of `gethostbyname_r`, `gethostbyname2_r` and `gethostbyaddr_r`. -/
def lookupReentrant (st : Statics) (a : ResultArgs) (reply : Reply) (w : World) : Int × World :=
  let (addrbuf, m) := initHostent st a.resultBuf a.buf a.buflen w.mem
  let w := { w with mem := m }
  if addrbuf = 0 then
    (-1, { w with mem := setErrno a ERANGE (setResult a 0 w.mem) })
  else
    let w := aresInit st w
    let m := gethostbynameCallback st ⟨a.resultBuf, addrbuf⟩ reply w.mem
    -- the test reads the static hostent, and control falls through to the success stores
    let m := if m.load 4 (hLength st.he) = 0 then setErrno a HOST_NOT_FOUND (setResult a 0 m) else m
    (0, { w with mem := setErrno a 0 (setResult a a.resultBuf m) })

def gethostbyaddrR (st : Statics) (ares : Ares) (addr : List UInt8) (len : ℕ) (af : UInt32)
    (a : ResultArgs) (w : World) : Int × World :=
  lookupReentrant st a (ares.gethostbyaddr addr len af) w

def gethostbynameR (st : Statics) (ares : Ares) (name : List UInt8) (a : ResultArgs) (w : World) :
    Int × World :=
  lookupReentrant st a (ares.gethostbyname name AF_INET) w

def gethostbyname2R (st : Statics) (ares : Ares) (name : List UInt8) (af : UInt32) (a : ResultArgs)
    (w : World) : Int × World :=
  lookupReentrant st a (ares.gethostbyname name af) w

/-! ### Runs -/

/-- A call of an exported lookup. -/
inductive Call where
  | gethostbyname (name : List UInt8)
  | gethostbyaddr (addr : List UInt8) (len : ℕ) (af : UInt32)
  | gethostbyname2 (name : List UInt8) (af : UInt32)
  | gethostbyaddrR (addr : List UInt8) (len : ℕ) (af : UInt32) (a : ResultArgs)
  | gethostbynameR (name : List UInt8) (a : ResultArgs)
  | gethostbyname2R (name : List UInt8) (af : UInt32) (a : ResultArgs)

namespace Call

/-- The buffers of an `_r` call, none for the others. -/
def buffers : Call → Option ResultArgs
  | gethostbyname _ | gethostbyaddr _ _ _ | gethostbyname2 _ _ => none
  | gethostbyaddrR _ _ _ a | gethostbynameR _ a | gethostbyname2R _ _ a => some a

/-- The reply that the call's own query gets. -/
def reply (ares : Ares) : Call → Reply
  | gethostbyname name | gethostbynameR name _ => ares.gethostbyname name AF_INET
  | gethostbyaddr addr len af | gethostbyaddrR addr len af _ => ares.gethostbyaddr addr len af
  | gethostbyname2 name af | gethostbyname2R name af _ => ares.gethostbyname name af

/-- The state after the call. -/
def exec (st : Statics) (ares : Ares) : Call → World → World
  | gethostbyname name, w => (FakeDns.gethostbyname st ares name w).2
  | gethostbyaddr addr len af, w => (FakeDns.gethostbyaddr st ares addr len af w).2
  | gethostbyname2 name af, w => (FakeDns.gethostbyname2 st ares name af w).2
  | gethostbyaddrR addr len af a, w => (FakeDns.gethostbyaddrR st ares addr len af a w).2
  | gethostbynameR name a, w => (FakeDns.gethostbynameR st ares name a w).2
  | gethostbyname2R name af a, w => (FakeDns.gethostbyname2R st ares name af a w).2

/-- The hostent pointer a non-reentrant call returns; the `_r` calls return none. -/
def returned (st : Statics) (ares : Ares) : Call → World → Option ℕ
  | gethostbyname name, w => some (FakeDns.gethostbyname st ares name w).1
  | gethostbyaddr addr len af, w => some (FakeDns.gethostbyaddr st ares addr len af w).1
  | gethostbyname2 name af, w => some (FakeDns.gethostbyname2 st ares name af w).1
  | gethostbyaddrR .., _ | gethostbynameR .., _ | gethostbyname2R .., _ => none

theorem returned_eq (st : Statics) (ares : Ares) {c : Call} (hb : c.buffers = none) (w : World) :
    c.returned st ares w = some (lookupStatic st (c.reply ares) w).1 := by
  cases c <;> first | rfl | cases hb

theorem exec_eq (st : Statics) (ares : Ares) (c : Call) (w : World) :
    c.exec st ares w = match c.buffers with
      | none => (lookupStatic st (c.reply ares) w).2
      | some a => (lookupReentrant st a (c.reply ares) w).2 := by
  cases c <;> rfl

end Call

/-- A call together with the resolver that serves it. -/
structure Event where
  call : Call
  ares : Ares

def Event.reply (e : Event) : Reply := e.call.reply e.ares

/-- The state after a history of calls. -/
def runCalls (st : Statics) (history : List Event) (w : World) : World :=
  history.foldl (fun w e => e.call.exec st e.ares w) w

theorem runCalls_append_single (st : Statics) (history : List Event) (e : Event) (w : World) :
    runCalls st (history ++ [e]) w = e.call.exec st e.ares (runCalls st history w) := by
  simp [runCalls]

/-- The state in which the library is loaded: its statics are zero. -/
structure Loaded (st : Statics) (w : World) : Prop where
  notDone : w.aresInitDone = false
  zero : ∀ j ∈ st.storage.filled ∪ span st.fEmpty sizeofPtr, w.mem j = 0

theorem loaded_zero : Loaded .sample .zero := ⟨rfl, fun _ _ => rfl⟩

/-! ### Caller buffers -/

namespace ResultArgs

/-- The objects the caller passes. -/
def regions (a : ResultArgs) : List (ℕ × ℕ) :=
  (a.resultBuf, sizeofHostent) :: (if a.buflen = 0 then [] else [(a.buf, a.buflen)]) ++
    ((if a.result = 0 then [] else [(a.result, sizeofPtr)]) ++
    (if a.hErrnop = 0 then [] else [(a.hErrnop, 4)]))

/-- The caller's objects are separate from each other and from the library's statics. -/
def Valid (st : Statics) (a : ResultArgs) : Prop :=
  Layout ([(st.he, sizeofHostent), (st.fName, HLEN), (st.fAddrlist, ALEN * sizeofPtr),
    (st.fAddrbuf, ALEN * sizeofSockaddr), (st.fEmpty, sizeofPtr)] ++ a.regions)

instance (st : Statics) (a : ResultArgs) : Decidable (a.Valid st) := inferInstanceAs (Decidable (Layout _))

/-- The size `initHostent` asks for. -/
def Sufficient (a : ResultArgs) : Prop := HLEN + sizeofPtr * ALEN + sizeofSockaddr * ALEN ≤ a.buflen

instance (a : ResultArgs) : Decidable a.Sufficient := inferInstanceAs (Decidable (_ ≤ _))

/-- The bytes of the caller's objects. -/
def owned (a : ResultArgs) : Set ℕ := {j | ∃ r ∈ a.regions, j ∈ span r.1 r.2}

/-- The variables that a call reports its outcome in. -/
def outcomeRegions (a : ResultArgs) : List (ℕ × ℕ) :=
  (if a.result = 0 then [] else [(a.result, sizeofPtr)]) ++ (if a.hErrnop = 0 then [] else [(a.hErrnop, 4)])

/-- Their bytes. -/
def outcome (a : ResultArgs) : Set ℕ := {j | ∃ r ∈ a.outcomeRegions, j ∈ span r.1 r.2}

variable {st : Statics} {a : ResultArgs}

theorem outcome_subset_owned (a : ResultArgs) : a.outcome ⊆ a.owned :=
  fun _ ⟨r, hr, hj⟩ => ⟨r, List.mem_append_right _ hr, hj⟩

theorem span_subset_owned {p n : ℕ} (h : (p, n) ∈ a.regions) : span p n ⊆ a.owned :=
  fun _ hj => ⟨(p, n), h, hj⟩

theorem resultBuf_mem : (a.resultBuf, 32) ∈ a.regions := by simp [regions, sizeofHostent]

theorem buf_mem (h : a.buflen ≠ 0) : (a.buf, a.buflen) ∈ a.regions := by simp [regions, h]

theorem result_subset_outcome (h : a.result ≠ 0) : span a.result 8 ⊆ a.outcome :=
  fun _ hj => ⟨(a.result, sizeofPtr), by simp [outcomeRegions, h], hj⟩

theorem hErrnop_subset_outcome (h : a.hErrnop ≠ 0) : span a.hErrnop 4 ⊆ a.outcome :=
  fun _ hj => ⟨(a.hErrnop, 4), by simp [outcomeRegions, h], hj⟩

namespace Valid

theorem object (hv : a.Valid st) {r : ℕ × ℕ} (hr : r ∈ a.regions) : 0 < r.1 ∧ r.1 + r.2 ≤ 2 ^ 64 :=
  Layout.object hv r (List.mem_append_right _ hr)

/-- No byte of the statics belongs to the caller. -/
theorem disjoint (hv : a.Valid st) : Disjoint (st.storage.filled ∪ span st.fEmpty 8) a.owned := by
  rw [Set.disjoint_left]
  rintro j hj ⟨r, hr, hjr⟩
  have hcross := fun s hs => (List.pairwise_append.mp (Layout.apart hv)).2.2 s hs r hr
  simp only [List.mem_cons, List.not_mem_nil, or_false, forall_eq_or_imp, forall_eq, sizeofHostent, HLEN,
    ALEN, sizeofPtr, sizeofSockaddr] at hcross
  obtain ⟨h₁, h₂, h₃, h₄, h₅⟩ := hcross
  simp only [Storage.filled, Statics.storage, Set.mem_union, mem_span] at hj hjr
  rcases hj with (((hj | hj) | hj) | hj) | hj
  · clear h₂ h₃ h₄ h₅; omega
  · clear h₁ h₃ h₄ h₅; omega
  · clear h₁ h₂ h₄ h₅; omega
  · clear h₁ h₂ h₃ h₅; omega
  · clear h₁ h₂ h₃ h₄; omega

theorem resultBuf_buf (hv : a.Valid st) (h : a.buflen ≠ 0) : Apart a.resultBuf 32 a.buf a.buflen := by
  have hin := (List.pairwise_append.mp (Layout.apart hv)).2.1
  rw [regions, List.cons_append, List.pairwise_cons] at hin
  exact hin.1 (a.buf, a.buflen) (by simp [h])

/-- The hostent and the buffer are apart from the outcome. -/
theorem disjoint_outcome (hv : a.Valid st) :
    Disjoint (span a.resultBuf 32) a.outcome ∧ (a.buflen ≠ 0 → Disjoint (span a.buf a.buflen) a.outcome) := by
  have hin := (List.pairwise_append.mp (Layout.apart hv)).2.1
  have hcross := (List.pairwise_append.mp (show List.Pairwise _ (_ ++ a.outcomeRegions) from hin)).2.2
  have hdis : ∀ r ∈ (a.resultBuf, sizeofHostent) :: (if a.buflen = 0 then [] else [(a.buf, a.buflen)]),
      Disjoint (span r.1 r.2) a.outcome := by
    intro r hr
    rw [Set.disjoint_left]
    rintro j hj ⟨s, hs, hjs⟩
    exact Set.disjoint_left.mp (disjoint_span (hcross r hr s hs)) hj hjs
  exact ⟨hdis _ List.mem_cons_self, fun h => hdis (a.buf, a.buflen) (by simp [h])⟩

theorem result_hErrnop (hv : a.Valid st) (h : a.result ≠ 0) (h' : a.hErrnop ≠ 0) :
    Apart a.result 8 a.hErrnop 4 := by
  have hin := (List.pairwise_append.mp (Layout.apart hv)).2.1
  rw [regions, List.pairwise_append, List.pairwise_append] at hin
  exact hin.2.1.2.2 (a.result, sizeofPtr) (by simp [h]) (a.hErrnop, 4) (by simp [h'])

/-- The storage that `initHostent` carves out of a sufficient buffer. -/
def storage (hv : a.Valid st) (hs : a.Sufficient) : Storage where
  out := a.resultBuf
  name := a.buf
  list := a.buf + 1024
  addrbuf := a.buf + 1104
  empty := st.fEmpty
  layout := by
    simp only [Sufficient, HLEN, ALEN, sizeofPtr, sizeofSockaddr] at hs
    have hne : a.buflen ≠ 0 := by omega
    have hrb := hv.resultBuf_buf hne
    have hout := hv.object resultBuf_mem
    have hbuf := hv.object (buf_mem hne)
    have hcross := fun r hr => (List.pairwise_append.mp (Layout.apart hv)).2.2 (st.fEmpty, sizeofPtr)
      (by simp) r hr
    have he₁ := hcross _ resultBuf_mem
    have he₂ := hcross _ (buf_mem hne)
    have hempty := st.storage.objects.2.2.2.2
    simp only [Statics.storage] at hempty
    simp only [sizeofPtr] at hout hbuf he₁ he₂
    constructor
    · simp only [List.mem_cons, List.not_mem_nil, or_false, forall_eq_or_imp, forall_eq]
      omega
    · simp only [List.pairwise_cons, List.mem_cons, List.not_mem_nil, or_false, forall_eq_or_imp, forall_eq]
      refine ⟨⟨?_, ?_, ?_, ?_⟩, ⟨?_, ?_, ?_⟩, ⟨?_, ?_⟩, ?_, by simp⟩ <;> omega

/-- So is everything a reader of the hostent visits. -/
theorem storage_disjoint_outcome (hv : a.Valid st) (hs : a.Sufficient) :
    Disjoint (hv.storage hs).filled a.outcome := by
  have hs' := hs
  simp only [Sufficient, HLEN, ALEN, sizeofPtr, sizeofSockaddr] at hs'
  obtain ⟨hout, hbuf⟩ := hv.disjoint_outcome
  have hsub : ∀ {b n : ℕ}, a.buf ≤ b → b + n ≤ a.buf + 1264 → Disjoint (span b n) a.outcome := fun h₁ h₂ =>
    (hbuf (by omega)).mono_left (span_subset h₁ (by omega))
  simp only [Storage.filled, storage, Set.disjoint_union_left]
  exact ⟨⟨⟨hout, hsub le_rfl (by omega)⟩, hsub (by omega) (by omega)⟩, hsub (by omega) (by omega)⟩

theorem filled_disjoint (hv : a.Valid st) : Disjoint st.storage.filled a.owned :=
  (Set.disjoint_union_left.mp hv.disjoint).1

theorem empty_disjoint (hv : a.Valid st) : Disjoint (span st.fEmpty 8) a.owned :=
  (Set.disjoint_union_left.mp hv.disjoint).2

/-- The carved storage lies inside the caller's objects. -/
theorem storage_filled_subset (hv : a.Valid st) (hs : a.Sufficient) : (hv.storage hs).filled ⊆ a.owned := by
  have hs' := hs
  simp only [Sufficient, HLEN, ALEN, sizeofPtr, sizeofSockaddr] at hs'
  have hbuf : span a.buf a.buflen ⊆ a.owned := span_subset_owned (buf_mem (by omega))
  refine Set.union_subset (Set.union_subset (Set.union_subset ?_ ?_) ?_) ?_
  · exact span_subset_owned resultBuf_mem
  all_goals exact (span_subset (by simp [storage]) (by simp [storage]; omega)).trans hbuf

end Valid

end ResultArgs

/-- The caller passes valid buffers and the reply fits the address slots. -/
def Event.Valid (st : Statics) (e : Event) : Prop :=
  e.reply.Fits ∧ ∀ a, e.call.buffers = some a → a.Valid st

/-- Buffers a caller may pass next to `Statics.sample`. -/
def ResultArgs.sample : ResultArgs := ⟨0x7000, 0x8000, 2048, 0x9000, 0xa000⟩

/-- A reentrant lookup that finds its name. -/
def Event.sample : Event := ⟨.gethostbynameR [97] .sample, .always (.success .sample)⟩

/-- A lookup that finds nothing. -/
def Event.missed : Event := ⟨.gethostbyname [98], .always .notFound⟩

theorem valid_sample : ∀ e ∈ [Event.sample], e.Valid .sample := by
  intro e he
  obtain rfl := List.mem_singleton.mp he
  refine ⟨⟨by decide, by decide⟩, ?_⟩
  rintro a ⟨⟩
  decide

end FakeDns
