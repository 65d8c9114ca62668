import FakeDns.Hostent.Calls

/-! The state of the host lookups over a run of calls. What the library promises is the
state of a small cache: whether it has been initialised, and the reply of the last
non-reentrant call. Every run of calls refines the run of the cache: the static hostent
points at its own storage from the first initialising call on, and shows exactly the
reply that the cache remembers. -/

namespace FakeDns

open ByteMemory Mem

/-- The abstract state: no memory, no pointers. -/
structure Cache where
  inited : Bool
  last : Option Reply

/-- A non-reentrant call is remembered; an accepted `_r` call only initialises. -/
def Cache.step (c : Cache) (e : Event) : Cache :=
  match e.call.buffers with
  | none => ⟨true, some e.reply⟩
  | some a => ⟨c.inited || decide a.Sufficient, c.last⟩

/-- The cache after a history. -/
def cacheOf (history : List Event) : Cache := history.foldl Cache.step ⟨false, none⟩

theorem cacheOf_append_single (history : List Event) (e : Event) :
    cacheOf (history ++ [e]) = (cacheOf history).step e := by
  simp [cacheOf]

/-- The call gets as far as `aresInit`. -/
def Event.Initialises (e : Event) : Prop := ∀ a, e.call.buffers = some a → a.Sufficient

theorem cacheOf_inited {history : List Event} (h : ∃ e ∈ history, e.Initialises) :
    (cacheOf history).inited = true := by
  induction history using List.reverseRecOn with
  | nil => simp at h
  | append_singleton history e ih =>
    rw [cacheOf_append_single, Cache.step]
    split
    · rfl
    · rename_i a ha
      obtain ⟨e', he', hi⟩ := h
      rcases List.mem_append.mp he' with he' | he'
      · simp [ih ⟨e', he', hi⟩]
      · obtain rfl := List.mem_singleton.mp he'
        simp [hi a ha]

theorem cacheOf_last {history : List Event} (h : ∃ e ∈ history, e.call.buffers = none) :
    ∃ reply, (cacheOf history).last = some reply := by
  induction history using List.reverseRecOn with
  | nil => simp at h
  | append_singleton history e ih =>
    rw [cacheOf_append_single, Cache.step]
    split
    · exact ⟨_, rfl⟩
    · rename_i a ha
      obtain ⟨e', he', hn⟩ := h
      rcases List.mem_append.mp he' with he' | he'
      · exact ih ⟨e', he', hn⟩
      · obtain rfl := List.mem_singleton.mp he'
        rw [hn] at ha
        contradiction

/-- The process state refines the cache. -/
structure Refines (st : Statics) (c : Cache) (w : World) : Prop where
  inited : w.aresInitDone = c.inited
  noAlias : w.mem.loadPtr st.fEmpty = 0
  points : c.inited = true → st.storage.Points w.mem ∧ w.mem.loadPtr (hAliases st.he) = st.fEmpty
  shows : ∀ reply, c.last = some reply →
    c.inited = true ∧ reply.Fits ∧ st.storage.Shows reply w.mem

theorem refines_loaded {st : Statics} {w : World} (h : Loaded st w) : Refines st ⟨false, none⟩ w where
  inited := h.notDone
  noAlias := by
    have hz : w.mem.read st.fEmpty 8 = List.replicate 8 0 :=
      List.ext_getElem (by simp) fun i hi _ => by
        rw [getElem_read, List.getElem_replicate]
        rw [length_read] at hi
        exact h.zero _ (.inr (by simp only [sizeofPtr, mem_span]; omega))
    rw [loadPtr, load, hz]
    rfl
  points := by simp
  shows := by simp

section Steps

variable {st : Statics} {c : Cache} {w : World} {R : Set ℕ} {m m' : Mem} {a : ResultArgs}

/-- Changes outside the static storage keep the refinement, as long as the empty alias
list stays empty. -/
theorem Refines.of_frame (h : Refines st c w) (hf : Frame R w.mem m)
    (hd : Disjoint st.storage.filled R) (hz : m.loadPtr st.fEmpty = 0) :
    Refines st c { w with mem := m } where
  inited := h.inited
  noAlias := hz
  points hi := by
    obtain ⟨⟨h₁, h₂⟩, h₃⟩ := h.points hi
    have hload : ∀ k, k + 8 ≤ 32 → m.loadPtr (st.he + k) = w.mem.loadPtr (st.he + k) := fun k hk =>
      hf.load (hd.mono_left (st.storage.out_subset_filled (Nat.le_add_right _ _)
        (by simp only [Statics.storage]; omega)))
    exact ⟨⟨(hload 0 (by omega)).trans h₁, (hload 24 (by omega)).trans h₂⟩, (hload 8 (by omega)).trans h₃⟩
  shows reply hr := by
    obtain ⟨hi, hfit, hs⟩ := h.shows reply hr
    exact ⟨hi, hfit, hs.frame hfit hf hd⟩

/-- `aresInit` initialises the cache and nothing else. -/
theorem aresInit_refines (h : Refines st c w) : Refines st ⟨true, c.last⟩ (aresInit st w) := by
  by_cases hdone : w.aresInitDone = true
  · have hi : c.inited = true := h.inited.symm.trans hdone
    rw [show aresInit st w = w by simp [aresInit, hdone]]
    exact ⟨hdone, h.noAlias, fun _ => h.points hi, fun r hr => ⟨rfl, (h.shows r hr).2⟩⟩
  · obtain ⟨_, _, _, hoe⟩ := st.storage.out_apart
    obtain ⟨_, ⟨_, hn⟩, ⟨_, hl⟩, _, ⟨_, he⟩⟩ := st.storage.objects
    simp only [Statics.storage] at hoe hn hl he
    refine ⟨by simp [aresInit, hdone], ?_, fun _ => ⟨⟨?_, ?_⟩, ?_⟩, fun r hr => ?_⟩
    · exact ((aresInit_frame st w).load (disjoint_span (by omega))).trans h.noAlias
    · simp only [aresInit, hdone, Bool.false_eq_true, ↓reduceIte, Statics.storage, hName, hAliases, hAddrtype,
        hLength, hAddrList]
      simp (disch := omega) only [load_store_apart, load_store_of_lt]
    · simp only [aresInit, hdone, Bool.false_eq_true, ↓reduceIte, Statics.storage, hName, hAliases, hAddrtype,
        hLength, hAddrList]
      simp (disch := omega) only [load_store_of_lt]
    · simp only [aresInit, hdone, Bool.false_eq_true, ↓reduceIte, hName, hAliases, hAddrtype,
        hLength, hAddrList]
      simp (disch := omega) only [load_store_apart, load_store_of_lt]
    · exact absurd (h.inited.trans (h.shows r hr).1) hdone

theorem lookupStatic_world (st : Statics) (reply : Reply) (w : World) :
    (lookupStatic st reply w).2 = { aresInit st w with
      mem := gethostbynameCallback st ⟨st.storage.out, st.storage.addrbuf⟩ reply (aresInit st w).mem } := rfl

/-- A non-reentrant call makes the static hostent show its own reply. -/
theorem lookupStatic_refines (h : Refines st c w) {reply : Reply} (hfit : reply.Fits) :
    Refines st ⟨true, some reply⟩ (lookupStatic st reply w).2 := by
  have h' := aresInit_refines h
  obtain ⟨hp, hal⟩ := h'.points rfl
  have hcb := callback_shows st st.storage rfl hp hal h'.noAlias reply hfit
  rw [lookupStatic_world]
  generalize gethostbynameCallback st ⟨st.storage.out, st.storage.addrbuf⟩ reply (aresInit st w).mem = m at hcb
  obtain ⟨hs, hz, _⟩ := hcb
  refine ⟨h'.inited, hz, fun _ => ?_, ?_⟩
  · cases reply with
    | success host => exact ⟨hs.points, hs.aliases⟩
    | failure status hne => exact ⟨hs.points, hs.aliases⟩
  · intro r hr
    obtain rfl := Option.some.inj hr
    exact ⟨rfl, hfit, hs⟩

theorem setResult_frame (a : ResultArgs) (p : ℕ) (m : Mem) : Frame a.outcome m (setResult a p m) := by
  unfold setResult
  split
  · rename_i h
    exact (Frame.store m 8 _ _).mono (ResultArgs.result_subset_outcome h)
  · exact Frame.refl _ _

theorem setErrno_frame (a : ResultArgs) (e : UInt32) (m : Mem) : Frame a.outcome m (setErrno a e m) := by
  unfold setErrno
  split
  · rename_i h
    exact (Frame.store m 4 _ _).mono (ResultArgs.hErrnop_subset_outcome h)
  · exact Frame.refl _ _

theorem setOutcome_frame (a : ResultArgs) (p : ℕ) (e : UInt32) (m : Mem) :
    Frame a.outcome m (setErrno a e (setResult a p m)) :=
  (setResult_frame a p m).trans (setErrno_frame a e _)

/-- An accepted `initHostent` points the caller's hostent into the caller's buffer. -/
theorem initHostent_points (hv : a.Valid st) (hs : a.Sufficient) (m : Mem) :
    ∃ m', initHostent st a.resultBuf a.buf a.buflen m = (a.buf + 1104, m') ∧
      (hv.storage hs).Points m' ∧ m'.loadPtr (hAliases a.resultBuf) = st.fEmpty ∧
      Frame (span a.resultBuf 32) m m' := by
  obtain ⟨_, ⟨_, hn⟩, ⟨_, hl⟩, _, ⟨_, he⟩⟩ := (hv.storage hs).objects
  simp only [ResultArgs.Valid.storage] at hn hl he
  unfold initHostent
  rw [if_neg (by rw [not_lt]; exact hs)]
  refine ⟨_, rfl, ⟨?_, ?_⟩, ?_, ?_⟩
  · simp only [ResultArgs.Valid.storage, hName, hAliases, hAddrList, HLEN]
    simp (disch := omega) only [load_store_apart, load_store_of_lt]
  · simp only [ResultArgs.Valid.storage, hName, hAliases, hAddrList, HLEN]
    simp (disch := omega) only [load_store_of_lt]
  · simp only [hName, hAliases, hAddrList, HLEN]
    simp (disch := omega) only [load_store_apart, load_store_of_lt]
  · refine Frame.store_of (Frame.store_of (Frame.store_of (Frame.refl _ _) ?_) ?_) ?_ <;>
    exact span_subset (by simp [hName, hAliases, hAddrList]) (by simp [hName, hAliases, hAddrList])

/-- When the callback of an accepted `_r` call runs, the library is initialised and the
caller's hostent points into the caller's buffer. -/
theorem reentrant_ready (h : Refines st c w) (hv : a.Valid st) (hs : a.Sufficient) :
    ∃ m₁, initHostent st a.resultBuf a.buf a.buflen w.mem = (a.buf + 1104, m₁) ∧
      Refines st ⟨true, c.last⟩ (aresInit st { w with mem := m₁ }) ∧
      (hv.storage hs).Points (aresInit st { w with mem := m₁ }).mem ∧
      (aresInit st { w with mem := m₁ }).mem.loadPtr (hAliases a.resultBuf) = st.fEmpty := by
  obtain ⟨m₁, hinit, hp, hal, hf⟩ := initHostent_points hv hs w.mem
  have hfo := hf.mono (ResultArgs.span_subset_owned ResultArgs.resultBuf_mem)
  have h₁ : Refines st c { w with mem := m₁ } :=
    h.of_frame hfo hv.filled_disjoint ((hfo.load hv.empty_disjoint).trans h.noAlias)
  have hf₂ := aresInit_frame st { w with mem := m₁ }
  have hhe : ∀ k, k + 8 ≤ 32 → Disjoint (span (a.resultBuf + k) 8) (span st.he 32) := fun k hk =>
    (hv.filled_disjoint.mono (st.storage.out_subset_filled le_rfl le_rfl)
      ((span_subset (by omega) (by omega)).trans
        (ResultArgs.span_subset_owned ResultArgs.resultBuf_mem))).symm
  exact ⟨m₁, hinit, aresInit_refines h₁, ⟨(hf₂.load (hhe 0 (by omega))).trans hp.1,
    (hf₂.load (hhe 24 (by omega))).trans hp.2⟩, (hf₂.load (hhe 8 (by omega))).trans hal⟩

/-- A served `_r` call returns 0, leaves what the cache remembers alone and shows its reply in
the caller's storage. -/
theorem lookupReentrant_served (h : Refines st c w) (hv : a.Valid st) (hs : a.Sufficient) {reply : Reply}
    (hfit : reply.Fits) :
    (lookupReentrant st a reply w).1 = 0 ∧ Refines st ⟨true, c.last⟩ (lookupReentrant st a reply w).2 ∧
      (hv.storage hs).Shows reply (lookupReentrant st a reply w).2.mem := by
  obtain ⟨m₁, hinit, h₂, hp₂, hal₂⟩ := reentrant_ready h hv hs
  have hcb := callback_shows st (hv.storage hs) rfl hp₂ hal₂ h₂.noAlias reply hfit
  simp only [lookupReentrant, hinit, show a.buf + 1104 ≠ 0 by omega, if_false]
  rw [show (hv.storage hs).out = a.resultBuf from rfl,
    show (hv.storage hs).addrbuf = a.buf + 1104 from rfl] at hcb
  generalize aresInit st { w with mem := m₁ } = w₂ at h₂ hcb ⊢
  generalize gethostbynameCallback st ⟨a.resultBuf, a.buf + 1104⟩ reply w₂.mem = m₃ at hcb ⊢
  obtain ⟨hshows, hz, hf₃⟩ := hcb
  -- the callback writes caller memory, and NULL into the empty alias list
  have h₃ : Refines st ⟨true, c.last⟩ { w₂ with mem := m₃ } := by
    refine h₂.of_frame hf₃ (Set.disjoint_union_right.mpr ⟨?_, ?_⟩) hz
    · exact hv.filled_disjoint.mono_right (hv.storage_filled_subset hs)
    · exact st.storage.empty_disjoint_filled.symm
  have hf₄ : Frame a.outcome m₃ (setErrno a 0 (setResult a a.resultBuf
      (if m₃.load 4 (hLength st.he) = 0 then setErrno a HOST_NOT_FOUND (setResult a 0 m₃) else m₃))) := by
    refine Frame.trans ?_ (setOutcome_frame a _ _ _)
    split
    · exact setOutcome_frame a _ _ _
    · exact Frame.refl _ _
  have hfo := hf₄.mono a.outcome_subset_owned
  exact ⟨trivial, h₃.of_frame hfo hv.filled_disjoint ((hfo.load hv.empty_disjoint).trans h₃.noAlias),
    hshows.frame hfit hf₄ (hv.storage_disjoint_outcome hs)⟩

/-- The last two stores of an accepted call. -/
theorem lookupReentrant_last_stores (hv : a.Valid st) (hs : a.Sufficient) (reply : Reply) (w : World) :
    ∃ m, (lookupReentrant st a reply w).2.mem = setErrno a 0 (setResult a a.resultBuf m) := by
  obtain ⟨m', hinit, _⟩ := initHostent_points hv hs w.mem
  simp only [lookupReentrant, hinit]
  rw [if_neg (by omega)]
  exact ⟨_, rfl⟩

/-- An accepted call stores its hostent in `*result`. -/
theorem lookupReentrant_result (hv : a.Valid st) (hs : a.Sufficient) (hr : a.result ≠ 0) (reply : Reply)
    (w : World) : (lookupReentrant st a reply w).2.mem.loadPtr a.result = a.resultBuf := by
  obtain ⟨m, hm⟩ := lookupReentrant_last_stores hv hs reply w
  have hbuf := (hv.object ResultArgs.resultBuf_mem).2
  have hset : (setResult a a.resultBuf m).loadPtr a.result = a.resultBuf := by
    rw [setResult, if_pos hr]
    exact load_store_of_lt (by simp only at hbuf; omega)
  rw [hm, setErrno]
  split
  · rename_i he
    exact (load_store_apart (hv.result_hErrnop hr he)).trans hset
  · exact hset

/-- A refused `_r` call returns -1 and stores its outcome, nothing else. -/
theorem lookupReentrant_refused (st : Statics) (hs : ¬ a.Sufficient) (reply : Reply) (w : World) :
    lookupReentrant st a reply w = (-1, { w with mem := setErrno a ERANGE (setResult a 0 w.mem) }) := by
  have hlt : a.buflen < HLEN + sizeofPtr * ALEN + sizeofSockaddr * ALEN := not_le.mp hs
  simp only [lookupReentrant, initHostent, hlt, ↓reduceIte]

/-- An `_r` call leaves what the cache remembers alone, whether it is refused or served. -/
theorem lookupReentrant_refines (h : Refines st c w) (hv : a.Valid st) {reply : Reply} (hfit : reply.Fits) :
    Refines st ⟨c.inited || decide a.Sufficient, c.last⟩ (lookupReentrant st a reply w).2 := by
  by_cases hs : a.Sufficient
  · simp only [hs, decide_true, Bool.or_true]
    exact (lookupReentrant_served h hv hs hfit).2.1
  · simp only [hs, decide_false, Bool.or_false, lookupReentrant_refused st hs]
    have hfo := (setOutcome_frame a 0 ERANGE w.mem).mono a.outcome_subset_owned
    exact h.of_frame hfo hv.filled_disjoint ((hfo.load hv.empty_disjoint).trans h.noAlias)

theorem exec_refines (h : Refines st c w) {e : Event} (he : e.Valid st) :
    Refines st (c.step e) (e.call.exec st e.ares w) := by
  rw [Call.exec_eq, Cache.step]
  cases hb : e.call.buffers with
  | none => exact lookupStatic_refines h he.1
  | some a => exact lookupReentrant_refines h (he.2 a hb) he.1

end Steps

/-- Every run of valid calls refines the run of the cache. -/
theorem run_refines {st : Statics} {w₀ : World} (hw : Loaded st w₀) {history : List Event}
    (hv : ∀ e ∈ history, e.Valid st) : Refines st (cacheOf history) (runCalls st history w₀) := by
  induction history using List.reverseRecOn with
  | nil => exact refines_loaded hw
  | append_singleton history e ih =>
    rw [cacheOf_append_single, runCalls_append_single]
    exact exec_refines (ih fun e' he' => hv e' (by simp [he'])) (hv e (by simp))

end FakeDns
