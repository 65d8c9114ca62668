import FakeDns.AddrInfo.Getaddrinfo

/-! What the return value of `getaddrinfo` says. It should be 0 exactly when the call has
built a list. The function judges by the caller's variable, which one outcome leaves
alone: a successful lookup without addresses. There the earlier content of the variable
decides; everywhere else the return value is right and does not depend on it. -/

namespace FakeDns

open ByteMemory Mem

/-- `*pai` is the head of a non-empty list of nodes that the call allocated. -/
def BuiltList (w w' : World) (pai : ℕ) : Prop :=
  ∃ nodes, nodes ≠ [] ∧ Chain w'.mem 40 (w'.mem.loadPtr pai) nodes ∧
    ∀ a ∈ nodes, a ∈ w'.live ∧ a ∉ w.live

section

variable {st : Statics} {env : Env} {name : List UInt8} {req : Option Hints} {pai : ℕ} {w w' : World}

theorem Builds.builtList (hr : env.Ready st name req pai w) (hpos : 0 < env.blockCount name req)
    {harg : GetaddrinfoCallbackParam} (hout : harg.out = pai) (h : Builds env harg name req w w') :
    BuiltList w w' pai := by
  refine ⟨_, by simpa using hpos.ne', hout ▸ h.chain, fun a ha => ?_⟩
  refine ⟨?_, ?_⟩
  · rw [h.live]
    exact List.mem_append_left _ (List.mem_reverse.mpr ha)
  · obtain ⟨k, hk, rfl⟩ := List.mem_map.mp ha
    exact hr.fresh k (List.mem_range.mp hk)

theorem not_builtList_of_null (h : w'.mem.loadPtr pai = 0) : ¬ BuiltList w w' pai := by
  rintro ⟨nodes, hne, hchain, _⟩
  exact hchain.head_ne_zero hne h

theorem not_builtList_of_live (h : w'.live = w.live) : ¬ BuiltList w w' pai := by
  rintro ⟨nodes, hne, _, hnew⟩
  obtain ⟨a, ha⟩ := List.exists_mem_of_ne_nil nodes hne
  obtain ⟨hin, hout⟩ := hnew a ha
  exact hout (h ▸ hin)

/-- What a call returns, outcome by outcome. -/
theorem getaddrinfo_value (hr : env.Ready st name req pai w) (service : Option (List UInt8)) :
    (0 < env.blockCount name req → (getaddrinfo st env name service req pai w).1 = 0) ∧
      ((¬ env.Numeric name ∧ ∃ status hs, env.reply name req = .failure status hs) →
        (getaddrinfo st env name service req pai w).1 = EAI_FAIL) ∧
      (env.WithoutAddress name req → (getaddrinfo st env name service req pai w).1 =
        if w.mem.loadPtr pai = 0 then EAI_FAIL else 0) := by
  refine ⟨fun hpos => ?_, ?_, ?_⟩
  · obtain ⟨w', hrun, _⟩ := getaddrinfo_builds hr service hpos
    rw [hrun]
  · rintro ⟨hnum, status, hs, hrep⟩
    rw [getaddrinfo_failed st pai w hnum hrep service]
  · intro hwithout
    rw [getaddrinfo_withoutAddress w hwithout hr.pai_he service]

theorem getaddrinfo_reports_iff (hr : env.Ready st name req pai w) (service : Option (List UInt8)) :
    ((getaddrinfo st env name service req pai w).1 = 0 ↔
        BuiltList w (getaddrinfo st env name service req pai w).2 pai) ↔
      ¬ (env.WithoutAddress name req ∧ w.mem.loadPtr pai ≠ 0) := by
  rcases env.cases_call name req with hpos | ⟨hnum, status, hs, hrep⟩ | hwithout
  · obtain ⟨w', hrun, hb⟩ := getaddrinfo_builds hr service hpos
    have hbuilt := hb.builtList hr hpos (getaddrinfoParam_out _ _ _ _)
    rw [hrun]
    simp [hbuilt, Env.not_withoutAddress_of_pos hpos]
  · have hnull : ¬ BuiltList w { aresInit st w with mem := (aresInit st w).mem.storePtr pai 0 } pai :=
      not_builtList_of_null (load_store_of_lt (by norm_num))
    rw [getaddrinfo_failed st pai w hnum hrep service]
    exact iff_of_true (iff_of_false (show EAI_FAIL ≠ 0 by decide) hnull) fun h =>
      Env.not_withoutAddress_of_failure hrep h.1
  · have hnone : ¬ BuiltList w (aresInit st w) pai := not_builtList_of_live (aresInit_live st w)
    rw [getaddrinfo_withoutAddress w hwithout hr.pai_he service]
    by_cases hz : w.mem.loadPtr pai = 0 <;> simp [hnone, hwithout, hz, EAI_FAIL]

theorem getaddrinfo_independent_iff (hr : env.Ready st name req pai w) (service : Option (List UInt8)) :
    (∀ v v' : ℕ, (getaddrinfo st env name service req pai { w with mem := w.mem.storePtr pai v }).1 =
        (getaddrinfo st env name service req pai { w with mem := w.mem.storePtr pai v' }).1) ↔
      ¬ env.WithoutAddress name req := by
  have hr' : ∀ v, env.Ready st name req pai { w with mem := w.mem.storePtr pai v } := fun v =>
    ⟨hr.blocks, hr.fresh, hr.pai_blocks, hr.pai_he, hr.fits⟩
  constructor
  · intro h hwithout
    -- NULL and a wild pointer in the caller's variable
    have h0 := (getaddrinfo_value (hr' 0) service).2.2 hwithout
    have h1 := (getaddrinfo_value (hr' 1) service).2.2 hwithout
    have hl0 : (w.mem.storePtr pai 0).loadPtr pai = 0 := load_store_of_lt (by norm_num)
    have hl1 : (w.mem.storePtr pai 1).loadPtr pai = 1 := load_store_of_lt (by norm_num)
    rw [h 0 1, h1, hl0, hl1] at h0
    exact absurd h0 (by decide)
  · intro hwithout v v'
    rcases env.cases_call name req with hpos | hfail | h
    · rw [(getaddrinfo_value (hr' v) service).1 hpos, (getaddrinfo_value (hr' v') service).1 hpos]
    · rw [(getaddrinfo_value (hr' v) service).2.1 hfail, (getaddrinfo_value (hr' v') service).2.1 hfail]
    · exact absurd h hwithout

/-- The return value is 0 exactly when the call built a list, unless a lookup without an
address meets a caller's variable that is not NULL; and it depends on the earlier content
of that variable only after such a lookup. -/
theorem getaddrinfo_success_iff (hr : env.Ready st name req pai w) (service : Option (List UInt8)) :
    (((getaddrinfo st env name service req pai w).1 = 0 ↔
        BuiltList w (getaddrinfo st env name service req pai w).2 pai) ↔
      ¬ (env.WithoutAddress name req ∧ w.mem.loadPtr pai ≠ 0)) ∧
    ((∀ v v' : ℕ, (getaddrinfo st env name service req pai { w with mem := w.mem.storePtr pai v }).1 =
        (getaddrinfo st env name service req pai { w with mem := w.mem.storePtr pai v' }).1) ↔
      ¬ env.WithoutAddress name req) :=
  ⟨getaddrinfo_reports_iff hr service, getaddrinfo_independent_iff hr service⟩

end

theorem getaddrinfo_success_sample :
    ((getaddrinfo .sample (.sample (.success .sample)) [97] none none 0x6000 .zero).1 = 0 ↔
        BuiltList .zero (getaddrinfo .sample (.sample (.success .sample)) [97] none none 0x6000 .zero).2 0x6000) ↔
      ¬ ((Env.sample (.success .sample)).WithoutAddress [97] none ∧ World.zero.mem.loadPtr 0x6000 ≠ 0) :=
  (getaddrinfo_success_iff (Env.sample_ready _ .sample (by decide) (by decide) .zero rfl) none).1

/-- The caller's variable holds a pointer from before the call. -/
def World.dirty : World := { World.zero with mem := World.zero.mem.storePtr 0x6000 0xdead }

/-- An alias-only answer and an uninitialised variable: 0 is returned and nothing is built. -/
theorem aliasOnly_returns_wild_pointer :
    (Env.sample (.success .aliasOnly)).Ready .sample [97] none 0x6000 .dirty ∧
      (getaddrinfo .sample (.sample (.success .aliasOnly)) [97] none none 0x6000 .dirty).1 = 0 ∧
      (getaddrinfo .sample (.sample (.success .aliasOnly)) [97] none none 0x6000 .dirty).2.mem.loadPtr 0x6000 =
        0xdead ∧
      ¬ BuiltList .dirty
        (getaddrinfo .sample (.sample (.success .aliasOnly)) [97] none none 0x6000 .dirty).2 0x6000 := by
  have hr : (Env.sample (.success .aliasOnly)).Ready .sample [97] none 0x6000 .dirty :=
    Env.sample_ready _ .aliasOnly (by decide) (by decide) .dirty rfl
  have hprior : World.dirty.mem.loadPtr 0x6000 = 0xdead := load_store_of_lt (by norm_num)
  have hwithout : (Env.sample (.success .aliasOnly)).WithoutAddress [97] none := ⟨by decide, .aliasOnly, rfl, rfl⟩
  rw [getaddrinfo_withoutAddress .dirty hwithout hr.pai_he none, hprior, if_neg (by norm_num)]
  exact ⟨hr, rfl, (aresInit_loadPtr hr.pai_he _).trans hprior, not_builtList_of_live (aresInit_live _ _)⟩

end FakeDns
