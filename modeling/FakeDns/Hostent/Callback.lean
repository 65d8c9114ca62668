import FakeDns.Hostent.Layout

/-! The three functions every host lookup is made of: `aresInit` points the static
hostent at its storage once, `initHostent` carves the caller's buffer, and
`gethostbyname_callback` copies the delivered hostent, or marks the output empty.
Each is followed by what it does to the memory. -/

namespace FakeDns

open ByteMemory Mem

/-- `aresInit`: the channel set-up has no effect on the memory modelled here. -/
def aresInit (st : Statics) (w : World) : World :=
  if w.aresInitDone then w else
    let m := w.mem.storePtr (hName st.he) st.fName
    let m := m.storePtr (hAliases st.he) st.fEmpty
    let m := m.store 4 (hAddrtype st.he) 0
    let m := m.store 4 (hLength st.he) 0
    let m := m.storePtr (hAddrList st.he) st.fAddrlist
    { w with mem := m, aresInitDone := true }

theorem aresInit_frame (st : Statics) (w : World) : Frame (span st.he 32) w.mem (aresInit st w).mem := by
  unfold aresInit
  split
  · exact Frame.refl _ _
  · refine Frame.store_of (Frame.store_of (Frame.store_of (Frame.store_of
      (Frame.store_of (Frame.refl _ _) ?_) ?_) ?_) ?_) ?_ <;>
    exact span_subset (by simp [hName, hAliases, hAddrtype, hLength, hAddrList])
      (by simp [hName, hAliases, hAddrtype, hLength, hAddrList])

/-- A pointer elsewhere is as it was. -/
theorem aresInit_loadPtr {st : Statics} {p : ℕ} (h : Apart p 8 st.he 32) (w : World) :
    (aresInit st w).mem.loadPtr p = w.mem.loadPtr p := (aresInit_frame st w).load (disjoint_span h)

@[simp] theorem aresInit_live (st : Statics) (w : World) : (aresInit st w).live = w.live := by
  unfold aresInit
  split <;> rfl

/-- `initHostent`: the address buffer inside `buf`, or NULL when `buf` is too small. -/
def initHostent (st : Statics) (resultBuf buf buflen : ℕ) (m : Mem) : ℕ × Mem :=
  if buflen < HLEN + sizeofPtr * ALEN + sizeofSockaddr * ALEN then (0, m) else
    let m := m.storePtr (hName resultBuf) buf
    let m := m.storePtr (hAliases resultBuf) st.fEmpty
    let m := m.storePtr (hAddrList resultBuf) (buf + HLEN)
    (buf + HLEN + sizeofPtr * ALEN, m)

/-- `gethostbyname_callback_arg`. -/
structure GethostbynameCallbackArg where
  host : ℕ
  addrbuf : ℕ

/-- The copy loop of `gethostbyname_callback` from index `i` on; `addrs` is what is left
of `host->h_addr_list`. Returns the index at which the loop stops. -/
def copyAddrs (harg : GethostbynameCallbackArg) : List (List UInt8) → ℕ → Mem → ℕ × Mem
  | [], i, m => (i, m)
  | addr :: addrs, i, m =>
    if i < ALEN - 1 then
      let m := m.storePtr (m.loadPtr (hAddrList harg.host) + sizeofPtr * i)
        (harg.addrbuf + sizeofSockaddr * i)
      let m := m.write (m.loadPtr (m.loadPtr (hAddrList harg.host) + sizeofPtr * i)) addr
      copyAddrs harg addrs (i + 1) m
    else (i, m)

/-- `gethostbyname_callback`. -/
def gethostbynameCallback (st : Statics) (harg : GethostbynameCallbackArg) (reply : Reply) (m : Mem) : Mem :=
  match reply with
  | .failure _ _ =>
    let m := m.write (m.loadPtr (hName harg.host)) [0]
    let m := m.storePtr (m.loadPtr (hAliases harg.host)) 0
    let m := m.store 4 (hAddrtype harg.host) AF_INET.toNat
    let m := m.store 4 (hLength harg.host) 0
    m.storePtr (m.loadPtr (hAddrList harg.host)) 0
  | .success host =>
    let m := m.strncpy (m.loadPtr (hName harg.host)) host.hName HLEN
    let m := m.write (m.loadPtr (hName harg.host) + (HLEN - 1)) [0]
    let m := m.storePtr (hAliases harg.host) st.fEmpty
    let m := m.store 4 (hAddrtype harg.host) host.hAddrtype.toNat
    let m := m.store 4 (hLength harg.host) host.hLength.toNat
    let (i, m) := copyAddrs harg host.hAddrList 0 m
    m.storePtr (m.loadPtr (hAddrList harg.host) + sizeofPtr * i) 0

/-! ### The copy loop -/

/-- Pointer slots and address slots from index `i` on, up to the last one the loop fills. -/
def Storage.slotsFrom (S : Storage) (i : ℕ) : Set ℕ :=
  span (S.list + 8 * i) (8 * (9 - i)) ∪ span (S.addrbuf + 16 * i) (16 * (9 - i))

theorem Storage.slotsFrom_subset_arrays (S : Storage) {i : ℕ} (hi : i ≤ 9) : S.slotsFrom i ⊆ S.arrays :=
  Set.union_subset_union (span_subset (by omega) (by omega)) (span_subset (by omega) (by omega))

theorem Storage.slotsFrom_succ (S : Storage) {i : ℕ} (hi : i < 9) : S.slotsFrom (i + 1) ⊆ S.slotsFrom i :=
  Set.union_subset_union (span_subset (by omega) (by omega)) (span_subset (by omega) (by omega))

/-- One iteration: slot `i` points at the `i`-th address and holds it. -/
theorem copyAddrs_step (S : Storage) {m : Mem} (hl : m.loadPtr (hAddrList S.out) = S.list)
    {addr : List UInt8} (ha : addr.length ≤ 16) (addrs : List (List UInt8)) {i : ℕ} (hi : i < 9) :
    ∃ m', copyAddrs ⟨S.out, S.addrbuf⟩ (addr :: addrs) i m = copyAddrs ⟨S.out, S.addrbuf⟩ addrs (i + 1) m' ∧
      m'.loadPtr (S.list + 8 * i) = S.addrbuf + 16 * i ∧ m'.read (S.addrbuf + 16 * i) addr.length = addr ∧
      Frame (S.slotsFrom i) m m' := by
  obtain ⟨_, ho, ha', _⟩ := S.out_apart
  obtain ⟨hla, _⟩ := S.list_apart
  obtain ⟨_, _, _, ⟨_, hb⟩, _⟩ := S.objects
  set m₁ := m.storePtr (S.list + 8 * i) (S.addrbuf + 16 * i) with hm₁
  have hl₁ : m₁.loadPtr (hAddrList S.out) = S.list := by
    rw [← hl]
    exact load_store_apart (by simp only [hAddrList]; omega)
  have hs₁ : m₁.loadPtr (S.list + 8 * i) = S.addrbuf + 16 * i := load_store_of_lt (by omega)
  refine ⟨m₁.write (S.addrbuf + 16 * i) addr, ?_, ?_, Mem.read_write _ _ _, ?_⟩
  · rw [copyAddrs, if_pos (by simp only [ALEN]; omega)]
    simp only [sizeofPtr, sizeofSockaddr, hl, ← hm₁, hl₁, hs₁]
  · rw [← hs₁]
    exact load_write_apart (by omega)
  · refine Frame.write_of ((Frame.store m 8 _ _).mono ?_) ?_
    · exact (span_subset (by omega) (by omega)).trans Set.subset_union_left
    · exact (span_subset (by omega) (by omega)).trans Set.subset_union_right

/-- The loop stops after the last address or at slot `ALEN - 1`; every slot it passed
points at its own address bytes, and nothing else has changed. -/
theorem copyAddrs_run (S : Storage) (addrs : List (List UInt8)) (ha : ∀ a ∈ addrs, a.length ≤ 16) :
    ∀ (i : ℕ) (m : Mem), i ≤ 9 → m.loadPtr (hAddrList S.out) = S.list →
      (copyAddrs ⟨S.out, S.addrbuf⟩ addrs i m).1 = min (i + addrs.length) 9 ∧
      Frame (S.slotsFrom i) m (copyAddrs ⟨S.out, S.addrbuf⟩ addrs i m).2 ∧
      ∀ t (h : t < addrs.length), i + t < 9 →
        (copyAddrs ⟨S.out, S.addrbuf⟩ addrs i m).2.loadPtr (S.list + 8 * (i + t)) = S.addrbuf + 16 * (i + t) ∧
        (copyAddrs ⟨S.out, S.addrbuf⟩ addrs i m).2.read (S.addrbuf + 16 * (i + t)) addrs[t].length = addrs[t] := by
  induction addrs with
  | nil =>
    intro i m hi _
    refine ⟨by simp [copyAddrs]; omega, Frame.refl _ _, fun t ht => absurd ht (by simp)⟩
  | cons addr addrs ih =>
    intro i m hi hl
    rcases Nat.lt_or_ge i 9 with hlt | hge
    · obtain ⟨m', he, hptr, hbytes, hf⟩ := copyAddrs_step S hl (ha addr (by simp)) addrs hlt
      have hl' : m'.loadPtr (hAddrList S.out) = S.list := by
        rw [← hl]
        refine hf.load (S.out_disjoint_arrays.mono (span_subset ?_ ?_) (S.slotsFrom_subset_arrays hi)) <;>
          simp [hAddrList]
      obtain ⟨h1, h2, h3⟩ := ih (fun a h => ha a (by simp [h])) (i + 1) m' (by omega) hl'
      rw [he]
      refine ⟨by rw [h1, List.length_cons]; omega, hf.trans (h2.mono (S.slotsFrom_succ hlt)), ?_⟩
      intro t ht hit
      obtain ⟨hla, _⟩ := S.list_apart
      cases t with
      | zero =>
        -- the later iterations leave slot `i` alone
        have hlen := ha addr (by simp)
        simp only [List.getElem_cons_zero, Nat.add_zero]
        exact ⟨(h2.load (Set.disjoint_union_right.mpr
            ⟨disjoint_span (by omega), disjoint_span (by omega)⟩)).trans hptr,
          (h2.read (Set.disjoint_union_right.mpr
            ⟨disjoint_span (by omega), disjoint_span (by omega)⟩)).trans hbytes⟩
      | succ t =>
        have := h3 t (by simpa using ht) (by omega)
        simpa only [List.getElem_cons_succ, show i + 1 + t = i + (t + 1) by omega] using this
    · have he : i = 9 := by omega
      subst he
      refine ⟨by simp [copyAddrs, ALEN], ?_, fun t _ hit => absurd hit (by omega)⟩
      simp only [copyAddrs, ALEN, Nat.lt_irrefl, ↓reduceIte, Nat.add_one_sub_one]
      exact Frame.refl _ _

end FakeDns
