import FakeDns.Hostent.Invariant

/-! Growing the buffer. The calling protocol of the `_r` functions is to call, and while
the function returns `ERANGE` to call again with the next larger buffer. A refused call
stores `ERANGE` in `*h_errnop` but returns -1, so the protocol ends there: it works only if
the first buffer is large enough. A refused call leaves the hostent and the buffer alone. -/

namespace FakeDns

open ByteMemory Mem

/-- A reentrant lookup without its buffers. -/
inductive Lookup where
  | gethostbyaddrR (addr : List UInt8) (len : ℕ) (af : UInt32)
  | gethostbynameR (name : List UInt8)
  | gethostbyname2R (name : List UInt8) (af : UInt32)

namespace Lookup

def call (st : Statics) (ares : Ares) : Lookup → ResultArgs → World → Int × World
  | gethostbyaddrR addr len af => FakeDns.gethostbyaddrR st ares addr len af
  | gethostbynameR name => FakeDns.gethostbynameR st ares name
  | gethostbyname2R name af => FakeDns.gethostbyname2R st ares name af

/-- The reply that the query of the lookup gets. -/
def reply (ares : Ares) : Lookup → Reply
  | gethostbyaddrR addr len af => ares.gethostbyaddr addr len af
  | gethostbynameR name => ares.gethostbyname name AF_INET
  | gethostbyname2R name af => ares.gethostbyname name af

theorem call_eq (st : Statics) (ares : Ares) (l : Lookup) (a : ResultArgs) (w : World) :
    l.call st ares a w = lookupReentrant st a (l.reply ares) w := by
  cases l <;> rfl

end Lookup

/-- The same call with the buffer `(buf, buflen)`. -/
def ResultArgs.withBuffer (a : ResultArgs) (b : ℕ × ℕ) : ResultArgs := { a with buf := b.1, buflen := b.2 }

/-- Call with the first buffer, and while the call returns `ERANGE` with the next one. The
result is the last buffer with the return value and the state; none if the buffers run out. -/
def retry (call : ℕ × ℕ → World → Int × World) : List (ℕ × ℕ) → World → Option ((ℕ × ℕ) × Int × World)
  | [], _ => none
  | b :: bs, w =>
    let (ret, w') := call b w
    if ret = ERANGE.toNat then retry call bs w' else some (b, ret, w')

/-- A call that does not return `ERANGE` ends the protocol. -/
theorem retry_ends (call : ℕ × ℕ → World → Int × World) {b : ℕ × ℕ} {w : World}
    (h : (call b w).1 ≠ ERANGE.toNat) (bs : List (ℕ × ℕ)) : retry call (b :: bs) w = some (b, call b w) := by
  rw [retry]
  exact if_neg h

/-- The caller finds the same pointer in `*result` and reads the same hostent. -/
structure SameOutcome (a : ResultArgs) (m m' : Mem) : Prop where
  result : a.result ≠ 0 → m.loadPtr a.result = m'.loadPtr a.result
  hostent : ∃ view, Presents m a.resultBuf view ∧ Presents m' a.resultBuf view

/-- The call leaves the hostent and every byte of the buffer alone. -/
def LeavesBuffers (a : ResultArgs) (m m' : Mem) : Prop :=
  m'.read a.resultBuf 32 = m.read a.resultBuf 32 ∧ m'.read a.buf a.buflen = m.read a.buf a.buflen

/-- Growing the buffer works: the protocol ends with a call whose buffer is large enough,
like one call with any such buffer, and no refused call touches hostent or buffer. -/
structure GrowingWorks (st : Statics) (ares : Ares) (l : Lookup) (a : ResultArgs) (buffers : List (ℕ × ℕ))
    (w : World) : Prop where
  reaches : ∃ b ret w', retry (fun b => l.call st ares (a.withBuffer b)) buffers w = some (b, ret, w') ∧
    (a.withBuffer b).Sufficient ∧ ∀ c, (a.withBuffer c).Valid st → (a.withBuffer c).Sufficient →
      ret = (l.call st ares (a.withBuffer c) w).1 ∧
        SameOutcome a w'.mem (l.call st ares (a.withBuffer c) w).2.mem
  untouched : ∀ b ∈ buffers, ¬ (a.withBuffer b).Sufficient → ∀ w,
    LeavesBuffers (a.withBuffer b) w.mem (l.call st ares (a.withBuffer b) w).2.mem

section

variable {st : Statics} {a : ResultArgs}

theorem refused_leaves (hv : a.Valid st) (hs : ¬ a.Sufficient) (reply : Reply) (w : World) :
    LeavesBuffers a w.mem (lookupReentrant st a reply w).2.mem := by
  have hf := setOutcome_frame a 0 ERANGE w.mem
  obtain ⟨hout, hbuf⟩ := hv.disjoint_outcome
  rw [lookupReentrant_refused st hs]
  refine ⟨hf.read hout, ?_⟩
  by_cases h0 : a.buflen = 0
  · rw [h0]
    rfl
  · exact hf.read (hbuf h0)

/-- Two served calls from one state agree. -/
theorem served_agree {c : Cache} {w : World} (h : Refines st c w) {reply : Reply} (hfit : reply.Fits)
    {b b' : ℕ × ℕ} (hv : (a.withBuffer b).Valid st) (hs : (a.withBuffer b).Sufficient)
    (hv' : (a.withBuffer b').Valid st) (hs' : (a.withBuffer b').Sufficient) :
    (lookupReentrant st (a.withBuffer b) reply w).1 = (lookupReentrant st (a.withBuffer b') reply w).1 ∧
      SameOutcome a (lookupReentrant st (a.withBuffer b) reply w).2.mem
        (lookupReentrant st (a.withBuffer b') reply w).2.mem := by
  obtain ⟨hret, hrefines, hshows⟩ := lookupReentrant_served h hv hs hfit
  obtain ⟨hret', hrefines', hshows'⟩ := lookupReentrant_served h hv' hs' hfit
  refine ⟨hret.trans hret'.symm, fun hr => ?_, _, hshows.presents hrefines.noAlias,
    hshows'.presents hrefines'.noAlias⟩
  exact (lookupReentrant_result hv hs hr reply w).trans (lookupReentrant_result hv' hs' hr reply w).symm

end

/-- After any history, for every reentrant lookup and every sequence of buffers: growing the
buffer works exactly when the first one is large enough. -/
theorem growing_works_iff {st : Statics} {w₀ : World} (hw : Loaded st w₀) {history : List Event}
    (hh : ∀ e ∈ history, e.Valid st) (ares : Ares) (l : Lookup) (hfit : (l.reply ares).Fits) {a : ResultArgs}
    {first : ℕ × ℕ} {later : List (ℕ × ℕ)} (hv : ∀ b ∈ first :: later, (a.withBuffer b).Valid st) :
    GrowingWorks st ares l a (first :: later) (runCalls st history w₀) ↔ (a.withBuffer first).Sufficient := by
  have hrun := run_refines hw hh
  have hfirst := hv first List.mem_cons_self
  constructor
  · rintro ⟨⟨b, ret, w', hretry, hs, _⟩, _⟩
    by_contra hrefused
    have hret : (l.call st ares (a.withBuffer first) (runCalls st history w₀)).1 ≠ ERANGE.toNat := by
      rw [l.call_eq, lookupReentrant_refused st hrefused]
      exact (by decide : (-1 : Int) ≠ ERANGE.toNat)
    -- the refused call ends the protocol
    rw [retry_ends _ hret] at hretry
    obtain ⟨rfl, _⟩ := Prod.mk.inj (Option.some.inj hretry)
    exact hrefused hs
  · intro hs
    have hserved := (lookupReentrant_served hrun hfirst hs hfit).1
    have hret : (l.call st ares (a.withBuffer first) (runCalls st history w₀)).1 ≠ ERANGE.toNat := by
      rw [l.call_eq, hserved]
      decide
    have hends := retry_ends (fun b => l.call st ares (a.withBuffer b)) hret later
    rw [l.call_eq] at hends
    refine ⟨⟨first, _, _, hends, hs, fun c hvc hsc => ?_⟩, fun b hb hrefused w => ?_⟩
    · rw [l.call_eq]
      exact served_agree hrun hfit hfirst hs hvc hsc
    · rw [l.call_eq]
      exact refused_leaves (hv b hb) hrefused _ w

/-- Two buffers at one address, 512 and 2048 bytes long. -/
def growingBuffers : List (ℕ × ℕ) := [(0x8000, 512), (0x8000, 2048)]

/-- A caller that starts with the smaller one. -/
theorem growing_works_sample :
    GrowingWorks .sample (.always (.success .two)) (.gethostbynameR [97]) .sample growingBuffers
        (runCalls .sample [.sample] .zero) ↔
      (ResultArgs.sample.withBuffer (0x8000, 512)).Sufficient :=
  growing_works_iff loaded_zero valid_sample (.always (.success .two)) (.gethostbynameR [97])
    (show (Reply.success .two).Fits from ⟨by decide, by decide⟩) (by decide)

/-- A first buffer of 512 bytes ends the protocol with -1. -/
theorem small_buffer_ends_retry :
    (∀ b ∈ growingBuffers, (ResultArgs.sample.withBuffer b).Valid .sample) ∧
      (ResultArgs.sample.withBuffer (0x8000, 2048)).Sufficient ∧
      (∃ w', retry (fun b => (Lookup.gethostbynameR [97]).call .sample (.always (.success .sample))
        (ResultArgs.sample.withBuffer b)) growingBuffers .zero = some ((0x8000, 512), -1, w')) ∧
      ¬ GrowingWorks .sample (.always (.success .sample)) (.gethostbynameR [97]) .sample growingBuffers .zero := by
  have hrefused : ¬ (ResultArgs.sample.withBuffer (0x8000, 512)).Sufficient := by decide
  have hends := lookupReentrant_refused .sample hrefused (.success .sample) .zero
  have hretry : retry (fun b => (Lookup.gethostbynameR [97]).call .sample (.always (.success .sample))
      (ResultArgs.sample.withBuffer b)) growingBuffers .zero = some ((0x8000, 512), _) := retry_ends _
    (show (lookupReentrant .sample _ (.success .sample) .zero).1 ≠ _ by rw [hends]; decide) _
  refine ⟨by decide, by decide, ⟨_, hretry.trans (congrArg (fun r => some (_, r)) hends)⟩, ?_⟩
  rintro ⟨⟨b, ret, w', h, hs, _⟩, _⟩
  rw [hretry] at h
  obtain ⟨rfl, _⟩ := Prod.mk.inj (Option.some.inj h)
  exact hrefused hs

end FakeDns
