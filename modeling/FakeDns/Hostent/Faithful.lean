import FakeDns.Hostent.Invariant

/-! A delivered answer is copied faithfully, into the static storage and into a caller's
buffer alike. The reader of the output hostent sees the answer, cut to `HLEN - 1` name
characters and `ALEN - 1` addresses; the name, the pointer slots and the address slots it
visits on the way do not overlap; and the callback writes nothing but the hostent and its
storage. -/

namespace FakeDns

open ByteMemory Mem

/-- The regions the reader of a hostent visits: the name, `n + 1` pointer slots and `n`
addresses of `len` bytes. -/
def visited (m : Mem) (h n len : ℕ) : List (ℕ × ℕ) :=
  (m.loadPtr (hName h), HLEN) ::
    ((List.range (n + 1)).map fun i => (m.loadPtr (hAddrList h) + sizeofPtr * i, sizeofPtr)) ++
    (List.range n).map fun i => (m.loadPtr (m.loadPtr (hAddrList h) + sizeofPtr * i), len)

/-- What a faithful copy of the answer to the hostent at `out` means; `storage` is the set
of bytes besides the hostent that the copy may change. -/
structure CopiedFaithfully (host : Answer) (out : ℕ) (storage : Set ℕ) (m m' : Mem) : Prop where
  presents : Presents m' out (.ofAnswer host)
  apart : (visited m' out (min host.hAddrList.length (ALEN - 1)) host.hLength.toNat).Pairwise
    fun r s => Apart r.1 r.2 s.1 s.2
  frame : Frame (span out sizeofHostent ∪ storage) m m'

/-- Slots of one width at different indices do not overlap. -/
theorem slots_apart (a : ℕ) {w len : ℕ} (h : len ≤ w) (n : ℕ) :
    ((List.range n).map fun i => (a + w * i, len)).Pairwise fun r s => Apart r.1 r.2 s.1 s.2 := by
  rw [List.pairwise_map]
  refine List.pairwise_lt_range.imp fun {i j} hij => ?_
  have hw : w * (i + 1) ≤ w * j := Nat.mul_le_mul_left w hij
  rw [Nat.mul_succ] at hw
  omega

/-- The regions visited through a copied answer, as regions of its storage. -/
theorem Storage.Holds.visited_eq {S : Storage} {host : Answer} {m : Mem} (h : S.Holds host m) :
    visited m S.out (min host.hAddrList.length (ALEN - 1)) host.hLength.toNat =
      (S.name, 1024) :: ((List.range (min host.hAddrList.length 9 + 1)).map fun i => (S.list + 8 * i, 8)) ++
        (List.range (min host.hAddrList.length 9)).map fun i =>
          (S.addrbuf + 16 * i, host.hLength.toNat) := by
  have hslots : ∀ i ∈ List.range (min host.hAddrList.length 9),
      (m.loadPtr (S.list + 8 * i), host.hLength.toNat) = (S.addrbuf + 16 * i, host.hLength.toNat) := by
    intro i hi
    have hlt := List.mem_range.mp hi
    rw [(h.slot i (by omega) (by omega)).1]
  simp only [visited, HLEN, ALEN, sizeofPtr, h.points.1, h.points.2, Nat.add_one_sub_one]
  rw [List.map_congr_left hslots]

theorem Storage.Holds.visited_apart {S : Storage} {host : Answer} {m : Mem} (h : S.Holds host m)
    (hl : host.hLength.toNat ≤ 16) :
    (visited m S.out (min host.hAddrList.length (ALEN - 1)) host.hLength.toNat).Pairwise
      fun r s => Apart r.1 r.2 s.1 s.2 := by
  obtain ⟨hnl, hna, _⟩ := S.name_apart
  obtain ⟨hla, _⟩ := S.list_apart
  rw [h.visited_eq, List.cons_append, List.pairwise_cons, List.pairwise_append]
  refine ⟨?_, slots_apart _ le_rfl _, slots_apart _ hl _, ?_⟩
  · intro r hr
    rcases List.mem_append.mp hr with hr | hr <;> obtain ⟨i, hi, rfl⟩ := List.mem_map.mp hr <;>
      have := List.mem_range.mp hi <;> simp only <;> omega
  · intro r hr s hs
    obtain ⟨i, hi, rfl⟩ := List.mem_map.mp hr
    obtain ⟨j, hj, rfl⟩ := List.mem_map.mp hs
    have hi' := List.mem_range.mp hi
    have hj' := List.mem_range.mp hj
    simp only
    omega

/-- Into whichever storage the hostent points, a delivered answer is copied faithfully. -/
theorem callback_copies (st : Statics) (S : Storage) (he : S.empty = st.fEmpty) {m : Mem}
    (hp : S.Points m) (hz : m.loadPtr S.empty = 0) (host : Answer) (hlen : host.hLength.toNat ≤ 16) :
    CopiedFaithfully host S.out (span S.name 1024 ∪ span S.list 80 ∪ span S.addrbuf 160) m
      (gethostbynameCallback st ⟨S.out, S.addrbuf⟩ (.success host) m) := by
  obtain ⟨hh, hf⟩ := callback_success st S he hp host hlen
  refine ⟨hh.presents ((hf.load S.empty_disjoint_filled).trans hz), hh.visited_apart hlen, hf.mono ?_⟩
  rw [Storage.filled, Set.union_assoc, Set.union_assoc, Set.union_assoc]
  exact le_rfl

/-- The name, the pointer slots and the address slots fill the head of the buffer. -/
theorem carved_storage (buf : ℕ) : span buf 1024 ∪ span (buf + 1024) 80 ∪ span (buf + 1104) 160 =
    span buf (HLEN + sizeofPtr * ALEN + sizeofSockaddr * ALEN) := by
  ext j
  simp only [Set.mem_union, mem_span, HLEN, ALEN, sizeofPtr, sizeofSockaddr]
  omega

/-- After any history, a delivered answer is copied faithfully into the static storage and
into every buffer that `initHostent` accepts. -/
theorem answer_copied_faithfully (st : Statics) (w₀ : World) (hw : Loaded st w₀) (history : List Event)
    (hh : ∀ e ∈ history, e.Valid st) (host : Answer)
    (hlen : host.hLength.toNat ≤ sizeofSockaddr) :
    (CopiedFaithfully host st.he
      (span st.fName HLEN ∪ span st.fAddrlist (ALEN * sizeofPtr) ∪ span st.fAddrbuf (ALEN * sizeofSockaddr))
      (aresInit st (runCalls st history w₀)).mem
      (gethostbynameCallback st ⟨st.he, st.fAddrbuf⟩ (.success host)
        (aresInit st (runCalls st history w₀)).mem)) ∧
    ∀ a : ResultArgs, a.Valid st → a.Sufficient →
      let (addrbuf, m) := initHostent st a.resultBuf a.buf a.buflen (runCalls st history w₀).mem
      let w := aresInit st { runCalls st history w₀ with mem := m }
      CopiedFaithfully host a.resultBuf (span a.buf (HLEN + sizeofPtr * ALEN + sizeofSockaddr * ALEN))
        w.mem (gethostbynameCallback st ⟨a.resultBuf, addrbuf⟩ (.success host) w.mem) := by
  have h := run_refines hw hh
  constructor
  · have hi := aresInit_refines h
    exact callback_copies st st.storage rfl (hi.points rfl).1 hi.noAlias host hlen
  · intro a hv hs
    obtain ⟨m, hinit, hi, hp, _⟩ := reentrant_ready h hv hs
    have hc := callback_copies st (hv.storage hs) rfl hp hi.noAlias host hlen
    rw [hinit]
    rwa [show span (hv.storage hs).name 1024 ∪ span (hv.storage hs).list 80 ∪
      span (hv.storage hs).addrbuf 160 = _ from carved_storage a.buf] at hc

/-- Two addresses, into the static storage and into a buffer of 2048 bytes. -/
theorem answer_copied_sample :
    CopiedFaithfully .two Statics.sample.he
        (span Statics.sample.fName HLEN ∪ span Statics.sample.fAddrlist (ALEN * sizeofPtr) ∪
          span Statics.sample.fAddrbuf (ALEN * sizeofSockaddr))
        (aresInit .sample (runCalls .sample [.sample] .zero)).mem
        (gethostbynameCallback .sample ⟨Statics.sample.he, Statics.sample.fAddrbuf⟩ (.success .two)
          (aresInit .sample (runCalls .sample [.sample] .zero)).mem) ∧
      let (addrbuf, m) := initHostent .sample 0x7000 0x8000 2048 (runCalls .sample [.sample] .zero).mem
      let w := aresInit .sample { runCalls .sample [.sample] .zero with mem := m }
      CopiedFaithfully .two 0x7000 (span 0x8000 (HLEN + sizeofPtr * ALEN + sizeofSockaddr * ALEN)) w.mem
        (gethostbynameCallback .sample ⟨0x7000, addrbuf⟩ (.success .two) w.mem) := by
  have h := answer_copied_faithfully .sample .zero loaded_zero [.sample] valid_sample .two (by decide)
  exact ⟨h.1, h.2 .sample (by decide) (by decide)⟩

end FakeDns
