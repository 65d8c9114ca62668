import FakeDns.Hostent.Callback

/-! What a callback leaves in its storage. A successful reply is copied: the name cut to
`HLEN - 1` characters, the first `ALEN - 1` addresses, a NULL behind the last one. Any
other reply empties the hostent. A reader who follows the pointers of the hostent sees a
`HostView`, and a copied reply is presented as the view `HostView.ofAnswer`. -/

namespace FakeDns

open ByteMemory Mem

/-- What a caller can read out of a hostent. -/
@[ext] structure HostView where
  name : List UInt8
  aliases : List (List UInt8)
  addrtype : ℕ
  length : ℕ
  addrs : List (List UInt8)
  deriving DecidableEq

/-- The view a faithful copy of the answer has. -/
def HostView.ofAnswer (host : Answer) : HostView where
  name := host.hName.take (HLEN - 1)
  aliases := []
  addrtype := host.hAddrtype.toNat
  length := host.hLength.toNat
  addrs := host.hAddrList.take (ALEN - 1)

/-- The view of an emptied hostent. -/
def HostView.empty : HostView := ⟨[], [], AF_INET.toNat, 0, []⟩

/-- Following the pointers of the hostent at `h` reads the view `v`. -/
structure Presents (m : Mem) (h : ℕ) (v : HostView) : Prop where
  name : CString m (m.loadPtr (hName h)) v.name
  aliases : ∃ ps, PtrArray m (m.loadPtr (hAliases h)) ps ∧ ps.length = v.aliases.length ∧
    ∀ i (hp : i < ps.length) (hv : i < v.aliases.length), CString m ps[i] v.aliases[i]
  addrtype : m.load 4 (hAddrtype h) = v.addrtype
  length : m.load 4 (hLength h) = v.length
  addrs : ∃ ps, PtrArray m (m.loadPtr (hAddrList h)) ps ∧ ps.map (fun p => m.read p v.length) = v.addrs

/-- A hostent in memory has at most one view. -/
theorem Presents.unique {m : Mem} {h : ℕ} {v w : HostView} (hv : Presents m h v) (hw : Presents m h w) :
    v = w := by
  obtain ⟨ps, hps, hlen, hstr⟩ := hv.aliases
  obtain ⟨qs, hqs, hlen', hstr'⟩ := hw.aliases
  obtain ⟨as, has, hmap⟩ := hv.addrs
  obtain ⟨bs, hbs, hmap'⟩ := hw.addrs
  have hl : v.length = w.length := hv.length.symm.trans hw.length
  obtain rfl := hps.unique hqs
  obtain rfl := has.unique hbs
  refine HostView.ext (hv.name.unique hw.name) ?_ (hv.addrtype.symm.trans hw.addrtype) hl ?_
  · refine List.ext_getElem (hlen.symm.trans hlen') fun i hi hi' => ?_
    exact (hstr i (by omega) hi).unique (hstr' i (by omega) hi')
  · rw [← hmap, ← hmap', hl]

namespace Storage

variable (S : Storage)

/-- The bytes a successful callback may change. -/
def filled : Set ℕ := span S.out 32 ∪ span S.name 1024 ∪ span S.list 80 ∪ span S.addrbuf 160

theorem out_subset_filled {a n : ℕ} (h₁ : S.out ≤ a) (h₂ : a + n ≤ S.out + 32) : span a n ⊆ S.filled :=
  fun _ hj => .inl (.inl (.inl (span_subset h₁ h₂ hj)))

theorem name_subset_filled {a n : ℕ} (h₁ : S.name ≤ a) (h₂ : a + n ≤ S.name + 1024) : span a n ⊆ S.filled :=
  fun _ hj => .inl (.inl (.inr (span_subset h₁ h₂ hj)))

theorem list_subset_filled {a n : ℕ} (h₁ : S.list ≤ a) (h₂ : a + n ≤ S.list + 80) : span a n ⊆ S.filled :=
  fun _ hj => .inl (.inr (span_subset h₁ h₂ hj))

theorem empty_disjoint_filled : Disjoint (span S.empty 8) S.filled := by
  obtain ⟨_, _, _, hoe⟩ := S.out_apart
  obtain ⟨_, _, hne⟩ := S.name_apart
  obtain ⟨_, hle⟩ := S.list_apart
  have hbe := S.addrbuf_apart
  simp only [filled, Set.disjoint_union_right]
  exact ⟨⟨⟨disjoint_span (by omega), disjoint_span (by omega)⟩, disjoint_span (by omega)⟩,
    disjoint_span (by omega)⟩

/-- The answer stands in the storage. -/
structure Holds (host : Answer) (m : Mem) : Prop where
  points : S.Points m
  aliases : m.loadPtr (hAliases S.out) = S.empty
  addrtype : m.load 4 (hAddrtype S.out) = host.hAddrtype.toNat
  length : m.load 4 (hLength S.out) = host.hLength.toNat
  name : m.read S.name 1024 = padded (host.hName.take 1023) 1024
  slot : ∀ t (h : t < host.hAddrList.length), t < 9 →
    m.loadPtr (S.list + 8 * t) = S.addrbuf + 16 * t ∧
    m.read (S.addrbuf + 16 * t) host.hLength.toNat = host.hAddrList[t]
  terminator : m.loadPtr (S.list + 8 * min host.hAddrList.length 9) = 0

/-- The hostent reads as a failed lookup. -/
structure Vacant (m : Mem) : Prop where
  points : S.Points m
  aliases : m.loadPtr (hAliases S.out) = S.empty
  addrtype : m.load 4 (hAddrtype S.out) = AF_INET.toNat
  length : m.load 4 (hLength S.out) = 0
  name : m.read S.name 1 = [0]
  terminator : m.loadPtr S.list = 0

/-- The storage shows the reply of a lookup. -/
def Shows (reply : Reply) (m : Mem) : Prop :=
  match reply with
  | .success host => S.Holds host m
  | .failure _ _ => S.Vacant m

end Storage

/-- The bounded name copy of the callback is one padded write. -/
theorem copy_name (S : Storage) {m : Mem} (hp : S.Points m) (name : List UInt8) :
    let m₁ := m.strncpy (m.loadPtr (hName S.out)) name HLEN
    m₁.write (m₁.loadPtr (hName S.out) + (HLEN - 1)) [0] =
      m.write S.name (padded (name.take 1023) 1024) := by
  obtain ⟨hon, _⟩ := S.out_apart
  have hname : (m.strncpy S.name name 1024).loadPtr (hName S.out) = S.name :=
    (load_write_apart (by simp only [hName, length_padded]; omega)).trans hp.1
  simp only [HLEN, hp.1, hname]
  exact strncpy_terminate (by norm_num)

/-- The memory before the copy loop: name, aliases, type and length are in place. -/
theorem header_facts (S : Storage) {m : Mem} (hp : S.Points m) {name : List UInt8}
    (hn : name.length = 1024) (t l : UInt32) :
    let m' := (((m.write S.name name).storePtr (hAliases S.out) S.empty).store 4 (hAddrtype S.out)
      t.toNat).store 4 (hLength S.out) l.toNat
    S.Points m' ∧ m'.loadPtr (hAliases S.out) = S.empty ∧ m'.load 4 (hAddrtype S.out) = t.toNat ∧
      m'.load 4 (hLength S.out) = l.toNat ∧ m'.read S.name 1024 = name ∧ Frame S.filled m m' := by
  obtain ⟨hon, _⟩ := S.out_apart
  obtain ⟨_, _, _, _, _, hempty⟩ := S.objects
  have ht := t.toNat_lt
  have hl := l.toNat_lt
  obtain ⟨hp₁, hp₂⟩ := hp
  simp only [Storage.Points, hName, hAliases, hAddrtype, hLength, hAddrList] at hp₁ hp₂ ⊢
  refine ⟨⟨?_, ?_⟩, ?_, ?_, ?_, ?_, ?_⟩
  · simp (disch := omega) only [load_store_apart, load_write_apart, hp₁]
  · simp (disch := omega) only [load_store_apart, load_write_apart, hp₂]
  · simp (disch := omega) only [load_store_apart, load_store_of_lt]
  · simp (disch := omega) only [load_store_apart, load_store_of_lt]
  · simp (disch := omega) only [load_store_of_lt]
  · simp (disch := omega) only [read_store_apart]
    rw [← hn, read_write]
  · refine Frame.store_of (Frame.store_of (Frame.store_of ((Frame.write m _ _).mono ?_) ?_) ?_) ?_
    · exact S.name_subset_filled le_rfl (by omega)
    all_goals exact S.out_subset_filled (by omega) (by omega)

/-- A successful callback leaves a faithful copy of the answer and writes nothing else. -/
theorem callback_success (st : Statics) (S : Storage) (he : S.empty = st.fEmpty) {m : Mem}
    (hp : S.Points m) (host : Answer) (hlen : host.hLength.toNat ≤ 16) :
    S.Holds host (gethostbynameCallback st ⟨S.out, S.addrbuf⟩ (.success host) m) ∧
      Frame S.filled m (gethostbynameCallback st ⟨S.out, S.addrbuf⟩ (.success host) m) := by
  obtain ⟨hla, _⟩ := S.list_apart
  obtain ⟨hpts, hal, hty, hle, hname, hfr⟩ := header_facts S hp
    (length_padded (host.hName.take 1023) 1024) host.hAddrtype host.hLength
  have hrun := copyAddrs_run S host.hAddrList (fun a ha => by rw [host.addr_length a ha]; exact hlen) 0
  simp only [gethostbynameCallback, copy_name S hp, ← he]
  set m₄ := (((m.write S.name (padded (host.hName.take 1023) 1024)).storePtr (hAliases S.out)
    S.empty).store 4 (hAddrtype S.out) host.hAddrtype.toNat).store 4 (hLength S.out) host.hLength.toNat
  obtain ⟨hi, hloop, hslot⟩ := hrun m₄ (by omega) hpts.2
  set m₅ := (copyAddrs ⟨S.out, S.addrbuf⟩ host.hAddrList 0 m₄).2
  have hloop' : Frame S.arrays m₄ m₅ := hloop.mono (S.slotsFrom_subset_arrays (Nat.zero_le 9))
  have hout : ∀ a n, S.out ≤ a → a + n ≤ S.out + 32 → Disjoint (span a n) S.arrays := fun a n h₁ h₂ =>
    S.out_disjoint_arrays.mono_left (span_subset h₁ h₂)
  have hlist : m₅.loadPtr (hAddrList S.out) = S.list :=
    (hloop'.load (hout _ _ (by simp [hAddrList]) (by simp [hAddrList]))).trans hpts.2
  rw [Nat.zero_add] at hi
  simp only [hi, hlist, sizeofPtr]
  set k := min host.hAddrList.length 9 with hk
  -- the loop and the terminator stay inside the two arrays
  have htail : Frame S.arrays m₄ (m₅.storePtr (S.list + 8 * k) 0) :=
    hloop'.store_of ((span_subset (by omega) (by omega)).trans Set.subset_union_left)
  refine ⟨⟨?_, ?_, ?_, ?_, ?_, ?_, ?_⟩, ?_⟩
  · exact ⟨(htail.load (hout _ _ (by simp [hName]) (by simp [hName]))).trans hpts.1,
      (htail.load (hout _ _ (by simp [hAddrList]) (by simp [hAddrList]))).trans hpts.2⟩
  · exact (htail.load (hout _ _ (by simp [hAliases]) (by simp [hAliases]))).trans hal
  · exact (htail.load (hout _ _ (by simp [hAddrtype]) (by simp [hAddrtype]))).trans hty
  · exact (htail.load (hout _ _ (by simp [hLength]) (by simp [hLength]))).trans hle
  · exact (htail.read S.name_disjoint_arrays).trans hname
  · intro t ht ht9
    obtain ⟨h₁, h₂⟩ := hslot t ht (by omega)
    rw [Nat.zero_add] at h₁ h₂
    rw [host.addr_length _ (List.getElem_mem ht)] at h₂
    exact ⟨(load_store_apart (by omega)).trans h₁, (read_store_apart (by omega)).trans h₂⟩
  · exact load_store_of_lt (by norm_num)
  · refine hfr.trans (htail.mono (Set.union_subset ?_ Set.subset_union_right))
    exact S.list_subset_filled le_rfl le_rfl

/-- The five stores of a failed callback, at the addresses they go to. -/
theorem callback_failure_eq (st : Statics) (S : Storage) {m : Mem} (hp : S.Points m)
    (hal : m.loadPtr (hAliases S.out) = S.empty) (status : UInt32) (hs : status ≠ ARES_SUCCESS) :
    gethostbynameCallback st ⟨S.out, S.addrbuf⟩ (.failure status hs) m =
      ((((m.write S.name [0]).storePtr S.empty 0).store 4 (S.out + 16) AF_INET.toNat).store 4
        (S.out + 20) 0).storePtr S.list 0 := by
  obtain ⟨hon, _, _, hoe⟩ := S.out_apart
  obtain ⟨hp₁, hp₂⟩ := hp
  simp only [hName, hAliases, hAddrList] at hp₁ hp₂ hal
  have hal' : (m.write S.name [0]).loadPtr (S.out + 8) = S.empty := by
    rw [← hal]
    exact load_write_apart (by simp; omega)
  have hlist : ((((m.write S.name [0]).storePtr S.empty 0).store 4 (S.out + 16) AF_INET.toNat).store 4
      (S.out + 20) 0).loadPtr (S.out + 24) = S.list := by
    rw [← hp₂]
    simp (disch := first | omega | (simp; omega)) only [load_store_apart, load_write_apart]
  simp only [gethostbynameCallback, hName, hAliases, hAddrtype, hLength, hAddrList, hp₁, hal', hlist]

/-- A failed callback leaves an empty hostent; it also writes NULL into the alias list. -/
theorem callback_failure (st : Statics) (S : Storage) {m : Mem} (hp : S.Points m)
    (hal : m.loadPtr (hAliases S.out) = S.empty) (status : UInt32) (hs : status ≠ ARES_SUCCESS) :
    let m' := gethostbynameCallback st ⟨S.out, S.addrbuf⟩ (.failure status hs) m
    S.Vacant m' ∧ m'.loadPtr S.empty = 0 ∧ Frame (S.filled ∪ span S.empty 8) m m' := by
  obtain ⟨hon, hol, _, hoe⟩ := S.out_apart
  intro m'
  simp only [m', callback_failure_eq st S hp hal]
  obtain ⟨hp₁, hp₂⟩ := hp
  simp only [hName, hAliases, hAddrList] at hp₁ hp₂ hal
  have h0 : ([0] : List UInt8).length = 1 := rfl
  have haf : AF_INET.toNat < 256 ^ 4 := by decide
  refine ⟨⟨⟨?_, ?_⟩, ?_, ?_, ?_, ?_, ?_⟩, ?_, ?_⟩
  · simp only [hName]
    simp (disch := omega) only [load_store_apart, load_write_apart, hp₁]
  · simp only [hAddrList]
    simp (disch := omega) only [load_store_apart, load_write_apart, hp₂]
  · simp only [hAliases]
    simp (disch := omega) only [load_store_apart, load_write_apart, hal]
  · simp only [hAddrtype]
    simp (disch := omega) only [load_store_apart, load_store_of_lt]
  · simp only [hLength]
    simp (disch := omega) only [load_store_apart, load_store_of_lt]
  · obtain ⟨hnl, _, hne⟩ := S.name_apart
    clear hol hoe
    simp (disch := omega) only [read_store_apart]
    exact read_write m S.name [0]
  · simp (disch := omega) only [load_store_of_lt]
  · obtain ⟨_, hle⟩ := S.list_apart
    clear hon hol
    simp (disch := omega) only [load_store_apart, load_store_of_lt]
  · refine Frame.store_of (Frame.store_of (Frame.store_of (Frame.store_of
      ((Frame.write m _ _).mono ?_) ?_) ?_) ?_) ?_
    · exact (S.name_subset_filled le_rfl (by omega)).trans Set.subset_union_left
    · exact Set.subset_union_right
    · exact (S.out_subset_filled (by omega) (by omega)).trans Set.subset_union_left
    · exact (S.out_subset_filled (by omega) (by omega)).trans Set.subset_union_left
    · exact (S.list_subset_filled le_rfl (by omega)).trans Set.subset_union_left

/-- The reply's hostent fits the address slots. -/
def Reply.Fits : Reply → Prop
  | .success host => 1 ≤ host.hLength.toNat ∧ host.hLength.toNat ≤ sizeofSockaddr
  | .failure _ _ => True

/-- Whatever the reply, the storage shows it afterwards and the alias list stays empty. -/
theorem callback_shows (st : Statics) (S : Storage) (he : S.empty = st.fEmpty) {m : Mem}
    (hp : S.Points m) (hal : m.loadPtr (hAliases S.out) = S.empty) (hz : m.loadPtr S.empty = 0)
    (reply : Reply) (hfit : reply.Fits) :
    let m' := gethostbynameCallback st ⟨S.out, S.addrbuf⟩ reply m
    S.Shows reply m' ∧ m'.loadPtr S.empty = 0 ∧ Frame (S.filled ∪ span S.empty 8) m m' := by
  cases reply with
  | success host =>
    obtain ⟨hh, hf⟩ := callback_success st S he hp host hfit.2
    exact ⟨hh, (hf.load S.empty_disjoint_filled).trans hz, hf.mono Set.subset_union_left⟩
  | failure status hs => exact callback_failure st S hp hal status hs

/-! ### Views -/

/-- The view of a storage that shows the reply. -/
def HostView.ofReply : Reply → HostView
  | .success host => .ofAnswer host
  | .failure _ _ => .empty

namespace Storage

variable {S : Storage} {m m' : Mem} {R : Set ℕ}

/-- The address pointers of a copy: the first slots of the address buffer. -/
def slots (S : Storage) (n : ℕ) : List ℕ := (List.range n).map fun t => S.addrbuf + 16 * t

/-- A copied answer is presented as its view. -/
theorem Holds.presents {host : Answer} (h : S.Holds host m) (hz : m.loadPtr S.empty = 0) :
    Presents m S.out (.ofAnswer host) := by
  obtain ⟨_, _, _, hb, _⟩ := S.objects
  have hname : 0 ∉ host.hName.take (HLEN - 1) := fun hm => host.name_nonzero (List.mem_of_mem_take hm)
  constructor
  · rw [h.points.1]
    exact CString.of_padded hname (by simp [HLEN, HostView.ofAnswer]) h.name
  · exact ⟨[], by rw [h.aliases]; exact PtrArray.nil_iff.mpr hz, rfl, fun i hi => absurd hi (by simp)⟩
  · exact h.addrtype
  · exact h.length
  · refine ⟨S.slots (min host.hAddrList.length 9), ?_, ?_⟩
    · rw [h.points.2]
      refine ⟨fun i hi => ?_, by simpa [slots] using h.terminator⟩
      simp only [slots, List.length_map, List.length_range] at hi
      simp only [slots, List.getElem_map, List.getElem_range]
      exact ⟨by omega, (h.slot i (by omega) (by omega)).1⟩
    · refine List.ext_getElem (by simp [slots, HostView.ofAnswer, ALEN, Nat.min_comm]) fun i hi hi' => ?_
      simp only [slots, List.length_map, List.length_range] at hi
      simp only [slots, List.getElem_map, List.getElem_range, HostView.ofAnswer, List.getElem_take]
      exact (h.slot i (by omega) (by omega)).2

/-- A vacant hostent is presented as the empty view. -/
theorem Vacant.presents (h : S.Vacant m) (hz : m.loadPtr S.empty = 0) : Presents m S.out .empty := by
  constructor
  · rw [h.points.1]
    exact ⟨by simp [HostView.empty], by simp [HostView.empty, h.name]⟩
  · exact ⟨[], by rw [h.aliases]; exact PtrArray.nil_iff.mpr hz, rfl, fun i hi => absurd hi (by simp)⟩
  · exact h.addrtype
  · exact h.length
  · exact ⟨[], by rw [h.points.2]; exact PtrArray.nil_iff.mpr h.terminator, rfl⟩

theorem Shows.presents {reply : Reply} (h : S.Shows reply m) (hz : m.loadPtr S.empty = 0) :
    Presents m S.out (.ofReply reply) := by
  cases reply with
  | success host => exact Holds.presents h hz
  | failure status hs => exact Vacant.presents h hz

/-- A frame outside the storage keeps what it shows. -/
theorem Shows.frame {reply : Reply} (h : S.Shows reply m) (hfit : reply.Fits) (hf : Frame R m m')
    (hd : Disjoint S.filled R) : S.Shows reply m' := by
  have hload : ∀ {w a : ℕ}, span a w ⊆ S.filled → m'.load w a = m.load w a := fun hs =>
    hf.load (hd.mono_left hs)
  have hout : ∀ {w k : ℕ}, k + w ≤ 32 → m'.load w (S.out + k) = m.load w (S.out + k) := fun hk =>
    hload (S.out_subset_filled (by omega) (by omega))
  have hpoints : S.Points m → S.Points m' := fun hp =>
    ⟨(hout (k := 0) (by omega)).trans hp.1, (hout (k := 24) (by omega)).trans hp.2⟩
  cases reply with
  | success host =>
    refine ⟨hpoints h.points, (hout (k := 8) (by omega)).trans h.aliases,
      (hout (k := 16) (by omega)).trans h.addrtype, (hout (k := 20) (by omega)).trans h.length,
      (hf.read (hd.mono_left (S.name_subset_filled le_rfl le_rfl))).trans h.name, ?_, ?_⟩
    · intro t ht ht9
      have hl := hfit.2
      simp only [sizeofSockaddr] at hl
      obtain ⟨h₁, h₂⟩ := h.slot t ht ht9
      refine ⟨(hload (S.list_subset_filled (by omega) (by omega))).trans h₁, (hf.read (hd.mono_left ?_)).trans h₂⟩
      exact (span_subset (by omega) (by omega)).trans Set.subset_union_right
    · exact (hload (S.list_subset_filled (by omega) (by omega))).trans h.terminator
  | failure status hs =>
    exact ⟨hpoints h.points, (hout (k := 8) (by omega)).trans h.aliases,
      (hout (k := 16) (by omega)).trans h.addrtype, (hout (k := 20) (by omega)).trans h.length,
      (hf.read (hd.mono_left (S.name_subset_filled le_rfl (by omega)))).trans h.name,
      (hload (S.list_subset_filled le_rfl (by omega))).trans h.terminator⟩

end Storage

end FakeDns
