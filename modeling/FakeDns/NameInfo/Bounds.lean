import FakeDns.NameInfo.Getnameinfo

/-! Where `getnameinfo` writes. Into a buffer that is not empty an output is one padded
copy. A buffer of length 0, which means that the output is not wanted, is copied nothing
to, but `len-1` wraps around: the terminating zero goes 4 GiB behind the buffer. -/

namespace FakeDns

open ByteMemory Mem

/-- What the callback stores through one of its pointers stays inside that buffer. It is
what the callback stores when the other pointer is NULL. -/
structure StoresInside (out : NameinfoArgs) (reply : NameReply) : Prop where
  host : ∀ m, Frame (span out.host out.hostlen.toNat) m (getnameinfoCallback { out with serv := 0 } reply m).2
  serv : ∀ m, Frame (span out.serv out.servlen.toNat) m (getnameinfoCallback { out with host := 0 } reply m).2

/-- A delivered string stands in the buffer that wants it, cut to the buffer. -/
def Delivers (dst : ℕ) (len : UInt32) (str : Option (List UInt8)) (m : Mem) : Prop :=
  dst ≠ 0 → 0 < len → ∀ s ∈ str, CString m dst (s.take (len.toNat - 1))

/-- The callback writes inside the two buffers, and after a success both are delivered. -/
structure WritesBuffers (out : NameinfoArgs) (reply : NameReply) : Prop where
  inside : StoresInside out reply
  delivers : reply.status = ARES_SUCCESS → ∀ m,
    Delivers out.host out.hostlen reply.node (getnameinfoCallback out reply m).2 ∧
      Delivers out.serv out.servlen reply.service (getnameinfoCallback out reply m).2

/-- No string is delivered for a buffer of length 0. -/
def HasRoom (dst : ℕ) (len : UInt32) (str : Option (List UInt8)) : Prop :=
  dst = 0 ∨ str = none ∨ len ≠ 0

instance (dst : ℕ) (len : UInt32) (str : Option (List UInt8)) : Decidable (HasRoom dst len str) :=
  inferInstanceAs (Decidable (_ ∨ _))

/-! ### One output -/

section

variable {dst : ℕ} {len : UInt32} {str : Option (List UInt8)}

theorem copyOut_inside (h : HasRoom dst len str) (m : Mem) :
    Frame (span dst len.toNat) m (copyOut dst len str m) := by
  rcases h with rfl | rfl | hlen
  · rw [copyOut_null]
    exact Frame.refl _ _
  · exact Frame.refl _ _
  · exact copyOut_frame hlen str m

/-- The terminator of a buffer of length 0 goes behind it. -/
theorem copyOut_wraps (hdst : dst ≠ 0) (s : List UInt8) (m : Mem) :
    copyOut dst 0 (some s) m (dst + 0xffffffff) = 0 := by
  have hlast : ((0 : UInt32) - 1).toNat = 0xffffffff := by decide
  have hpos : dst + 0xffffffff - (dst + 0xffffffff) < [(0 : UInt8)].length := by simp
  rw [copyOut, if_neg hdst, hlast, write_inside le_rfl hpos]
  simp

theorem copyOut_inside_iff :
    (∀ m, Frame (span dst len.toNat) m (copyOut dst len str m)) ↔ HasRoom dst len str := by
  constructor
  · intro h
    by_contra hroom
    simp only [HasRoom, not_or, not_not] at hroom
    obtain ⟨hdst, hstr, rfl⟩ := hroom
    obtain ⟨s, rfl⟩ := Option.ne_none_iff_exists'.mp hstr
    -- a memory of ones shows the zero behind the empty buffer
    have hone : copyOut dst 0 (some s) (fun _ => 1) (dst + 0xffffffff) = 1 := by
      apply h (fun _ => 1)
      simp
    rw [copyOut_wraps hdst] at hone
    exact absurd hone (by decide)
  · exact copyOut_inside

theorem copyOut_delivers (hstr : ∀ s ∈ str, 0 ∉ s) (m : Mem) : Delivers dst len str (copyOut dst len str m) := by
  rintro hdst hlen s rfl
  have hpos : 0 < len.toNat := UInt32.lt_iff_toNat_lt.mp hlen
  rw [copyOut_eq hdst (UInt32.pos_iff_ne_zero.mp hlen)]
  apply CString.of_padded (n := len.toNat)
  · exact fun h => hstr s rfl (List.mem_of_mem_take h)
  · rw [List.length_take]
    omega
  · have h := read_write m dst (padded (s.take (len.toNat - 1)) len.toNat)
    rwa [length_padded] at h

/-- What is delivered stays under a frame off the buffer. -/
theorem Delivers.frame {m m' : Mem} {R : Set ℕ} (h : Delivers dst len str m) (hf : Frame R m m')
    (hd : dst ≠ 0 → Disjoint (span dst len.toNat) R) : Delivers dst len str m' := by
  intro hdst hlen s hs
  have hstring := h hdst hlen s hs
  have hpos : 0 < len.toNat := UInt32.lt_iff_toNat_lt.mp hlen
  have hsub : span dst ((s.take (len.toNat - 1)).length + 1) ⊆ span dst len.toNat := by
    apply span_subset le_rfl
    rw [List.length_take]
    omega
  exact ⟨hstring.1, (hf.read ((hd hdst).mono_left hsub)).trans hstring.2⟩

end

/-! ### The callback -/

section

variable {out : NameinfoArgs} {reply : NameReply}

theorem getnameinfoCallback_failure (h : reply.status ≠ ARES_SUCCESS) (m : Mem) :
    getnameinfoCallback out reply m = (EAI_FAIL, m) := if_pos h

theorem getnameinfoCallback_success (h : reply.status = ARES_SUCCESS) (m : Mem) :
    getnameinfoCallback out reply m =
      (0, copyOut out.serv out.servlen reply.service (copyOut out.host out.hostlen reply.node m)) :=
  if_neg (not_not.mpr h)

theorem storesInside_iff :
    StoresInside out reply ↔ (reply.status = ARES_SUCCESS →
      HasRoom out.host out.hostlen reply.node ∧ HasRoom out.serv out.servlen reply.service) := by
  by_cases hs : reply.status = ARES_SUCCESS
  · rw [← copyOut_inside_iff, ← copyOut_inside_iff]
    constructor
    · rintro ⟨hhost, hserv⟩ _
      simp only [getnameinfoCallback_success hs, copyOut_null] at hhost hserv
      exact ⟨hhost, hserv⟩
    · intro h
      obtain ⟨hhost, hserv⟩ := h hs
      constructor <;> intro m <;> rw [getnameinfoCallback_success hs]
      · simpa only [copyOut_null] using hhost m
      · simpa only [copyOut_null] using hserv m
  · refine iff_of_true ?_ fun h => absurd h hs
    constructor <;> intro m <;> rw [getnameinfoCallback_failure hs] <;> exact Frame.refl _ _

variable (out reply) in
/-- The callback writes as it should exactly when it fails or delivers nothing for a buffer
of length 0. -/
theorem getnameinfo_bounds_iff
    (hap : out.host ≠ 0 → out.serv ≠ 0 → Apart out.host out.hostlen.toNat out.serv out.servlen.toNat)
    (hnode : ∀ s ∈ reply.node, 0 ∉ s) (hservice : ∀ s ∈ reply.service, 0 ∉ s) :
    WritesBuffers out reply ↔ (reply.status = ARES_SUCCESS →
      HasRoom out.host out.hostlen reply.node ∧ HasRoom out.serv out.servlen reply.service) := by
  rw [← storesInside_iff]
  refine ⟨WritesBuffers.inside, fun hinside => ⟨hinside, fun hs m => ?_⟩⟩
  have hroom := (storesInside_iff.mp hinside hs).2
  rw [getnameinfoCallback_success hs]
  refine ⟨?_, copyOut_delivers hservice _⟩
  -- the service goes to another buffer, or nowhere
  by_cases hserv : out.serv = 0
  · rw [hserv, copyOut_null]
    exact copyOut_delivers hnode m
  · exact (copyOut_delivers hnode m).frame (copyOut_inside hroom _) fun hhost => disjoint_span (hap hhost hserv)

end

/-- `getnameinfo` changes the static hostent and the two buffers, and nothing else. -/
theorem getnameinfo_frame {st : Statics} {env : NameEnv} {a : NameinfoArgs}
    (h : (aresGetnameinfo env a.sa a.salen (translateFlags a.flags)).status = ARES_SUCCESS →
      HasRoom a.host a.hostlen (aresGetnameinfo env a.sa a.salen (translateFlags a.flags)).node ∧
        HasRoom a.serv a.servlen (aresGetnameinfo env a.sa a.salen (translateFlags a.flags)).service) (w : World) :
    Frame (span st.he 32 ∪ (span a.host a.hostlen.toNat ∪ span a.serv a.servlen.toNat)) w.mem
      (getnameinfo st env a w).2.mem := by
  have hinit := (aresInit_frame st w).mono (Set.subset_union_left
    (t := span a.host a.hostlen.toNat ∪ span a.serv a.servlen.toNat))
  simp only [getnameinfo]
  generalize aresGetnameinfo env a.sa a.salen (translateFlags a.flags) = reply at h ⊢
  by_cases hs : reply.status = ARES_SUCCESS
  · obtain ⟨hhost, hserv⟩ := h hs
    rw [getnameinfoCallback_success hs]
    apply hinit.trans
    apply Frame.mono _ Set.subset_union_right
    exact ((copyOut_inside hhost _).mono Set.subset_union_left).trans
      ((copyOut_inside hserv _).mono Set.subset_union_right)
  · rw [getnameinfoCallback_failure hs]
    exact hinit

theorem getnameinfo_bounds_sample :
    WritesBuffers .sample ⟨ARES_SUCCESS, some [97], none⟩ ↔ (ARES_SUCCESS = ARES_SUCCESS →
      HasRoom 0x7000 64 (some [97]) ∧ HasRoom 0x8000 32 none) :=
  getnameinfo_bounds_iff .sample ⟨ARES_SUCCESS, some [97], none⟩ (by decide) (by decide) (by decide)

/-- The host is not wanted, but its pointer is not NULL. -/
def NameinfoArgs.zeroHostlen : NameinfoArgs := { NameinfoArgs.sample with hostlen := 0 }

/-- A one stands 4 GiB behind the host buffer. -/
def World.behindHost : World := { World.zero with mem := World.zero.mem.write (0x7000 + 0xffffffff) [1] }

/-- A found name is not copied into a host buffer of length 0, but its terminator is
written 4 GiB behind it. -/
theorem zero_hostlen_writes_behind :
    (getnameinfo .sample (.sample (.success .sample)) .zeroHostlen .behindHost).1 = 0 ∧
      World.behindHost.mem (0x7000 + 0xffffffff) = 1 ∧
      (getnameinfo .sample (.sample (.success .sample)) .zeroHostlen .behindHost).2.mem (0x7000 + 0xffffffff) = 0 ∧
      ¬ WritesBuffers .zeroHostlen (aresGetnameinfo (.sample (.success .sample)) NameinfoArgs.sample.sa 16 0) := by
  refine ⟨by decide +kernel, by decide +kernel, by decide +kernel, fun h => ?_⟩
  exact absurd (storesInside_iff.mp h.inside rfl).1 (by decide)

end FakeDns
