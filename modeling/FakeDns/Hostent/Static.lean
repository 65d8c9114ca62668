import FakeDns.Hostent.Invariant

/-! What the non-reentrant lookups return, over any history. The static hostent always
points at its own storage, the storage is always well formed, and what a caller reads
through the returned pointer depends on the reply of the call alone. The pointer itself
tells success by `h_length`, so it is right unless the answer has no addresses. -/

namespace FakeDns

open ByteMemory Mem

section

variable {st : Statics} {c : Cache} {w : World}

/-- The static hostent after a success, NULL after a failure. -/
def Statics.pointerFor (st : Statics) : Reply → ℕ
  | .success _ => st.he
  | .failure _ _ => 0

theorem lookupStatic_value (h : Refines st c w) {reply : Reply} (hfit : reply.Fits) :
    (lookupStatic st reply w).1 = st.pointerFor reply := by
  have hs := ((lookupStatic_refines h hfit).shows reply rfl).2.2
  have hv : (lookupStatic st reply w).1 =
      if (lookupStatic st reply w).2.mem.load 4 (hLength st.he) ≠ 0 then st.he else 0 := by
    simp only [lookupStatic]
    congr
  rw [hv]
  cases reply with
  | success host =>
    rw [show (lookupStatic st (.success host) w).2.mem.load 4 (hLength st.he) = _ from hs.length,
      if_pos (Nat.one_le_iff_ne_zero.mp hfit.1), Statics.pointerFor]
  | failure status hne =>
    rw [show (lookupStatic st (.failure status hne) w).2.mem.load 4 (hLength st.he) = _ from hs.length,
      if_neg (by simp), Statics.pointerFor]

/-- After a call the static hostent reads as the reply of that call. -/
theorem lookupStatic_presents (h : Refines st c w) {reply : Reply} (hfit : reply.Fits) :
    Presents (lookupStatic st reply w).2.mem st.he (.ofReply reply) := by
  have hr := lookupStatic_refines h hfit
  exact (hr.shows reply rfl).2.2.presents hr.noAlias

/-- The name in `f_name` and the pointers in `f_addrlist` are terminated inside their
arrays, and the pointers are those of the first slots of `f_addrbuf`. -/
structure WellFormed (st : Statics) (m : Mem) : Prop where
  name : ∃ k < HLEN, m (st.fName + k) = 0
  addrs : ∃ n < ALEN, m.loadPtr (st.fAddrlist + sizeofPtr * n) = 0 ∧
    ∀ i < n, m.loadPtr (st.fAddrlist + sizeofPtr * i) = st.fAddrbuf + sizeofSockaddr * i

theorem Storage.Shows.wellFormed {reply : Reply} {m : Mem} (h : st.storage.Shows reply m) :
    WellFormed st m := by
  cases reply with
  | success host =>
    have hname : CString m st.fName (host.hName.take 1023) :=
      CString.of_padded (fun hm => host.name_nonzero (List.mem_of_mem_take hm)) (by simp) h.name
    exact ⟨⟨_, by simp [HLEN], hname.terminator⟩, min host.hAddrList.length 9, by simp [ALEN], h.terminator,
      fun i hi => (h.slot i (by omega) (by omega)).1⟩
  | failure status hne =>
    have hname : CString m st.fName [] := ⟨by simp, h.name⟩
    exact ⟨⟨0, by simp [HLEN], hname.terminator⟩, 0, by simp [ALEN], h.terminator,
      fun i hi => absurd hi (by simp)⟩

end

/-- Over any history: the static hostent points at its storage from the first call on that
is not refused, its storage is well formed from the first non-reentrant call on, and two
histories that end in one non-reentrant call with one reply agree on what is returned and
on everything that can be read through it. -/
theorem static_hostent_never_stale (st : Statics) (w₀ : World) (hw : Loaded st w₀)
    (history : List Event) (hh : ∀ e ∈ history, e.Valid st) :
    ((∃ e ∈ history, e.Initialises) →
      (runCalls st history w₀).mem.loadPtr (hName st.he) = st.fName ∧
      (runCalls st history w₀).mem.loadPtr (hAliases st.he) = st.fEmpty ∧
      (runCalls st history w₀).mem.loadPtr st.fEmpty = 0 ∧
      (runCalls st history w₀).mem.loadPtr (hAddrList st.he) = st.fAddrlist) ∧
    ((∃ e ∈ history, e.call.buffers = none) → WellFormed st (runCalls st history w₀).mem) ∧
    ∀ (w₁ : World) (history' : List Event) (ares ares' : Ares) (c : Call), Loaded st w₁ →
      (∀ e ∈ history', e.Valid st) → c.buffers = none → c.reply ares = c.reply ares' →
      (c.reply ares).Fits →
      c.returned st ares (runCalls st history w₀) = c.returned st ares' (runCalls st history' w₁) ∧
      ∃ view, Presents (c.exec st ares (runCalls st history w₀)).mem st.he view ∧
        Presents (c.exec st ares' (runCalls st history' w₁)).mem st.he view := by
  have h := run_refines hw hh
  refine ⟨fun hi => ?_, fun hn => ?_, ?_⟩
  · obtain ⟨⟨h₁, h₂⟩, h₃⟩ := h.points (cacheOf_inited hi)
    exact ⟨h₁, h₃, h.noAlias, h₂⟩
  · obtain ⟨reply, hr⟩ := cacheOf_last hn
    exact (h.shows reply hr).2.2.wellFormed
  · intro w₁ history' ares ares' c hw₁ hh' hb hreply hfit
    have h' := run_refines hw₁ hh'
    have hfit' : (c.reply ares').Fits := hreply ▸ hfit
    rw [Call.returned_eq st ares hb, Call.returned_eq st ares' hb, lookupStatic_value h hfit,
      lookupStatic_value h' hfit', Call.exec_eq, Call.exec_eq, hb, ← hreply]
    exact ⟨rfl, _, lookupStatic_presents h hfit, lookupStatic_presents h' hfit⟩

theorem static_hostent_never_stale_sample :
    (runCalls .sample [.sample, .missed] .zero).mem.loadPtr (hName Statics.sample.he) = Statics.sample.fName ∧
      WellFormed .sample (runCalls .sample [.sample, .missed] .zero).mem ∧
      ∃ view, Presents ((Call.gethostbyname [97]).exec .sample (.always (.success .sample))
          (runCalls .sample [.sample, .missed] .zero)).mem Statics.sample.he view ∧
        Presents ((Call.gethostbyname [97]).exec .sample (.always (.success .sample))
          (runCalls .sample [.sample] .zero)).mem Statics.sample.he view := by
  have hvalid : ∀ e ∈ [Event.sample, .missed], e.Valid .sample := by
    intro e he
    rcases List.mem_cons.mp he with rfl | he
    · exact valid_sample _ List.mem_cons_self
    · obtain rfl := List.mem_singleton.mp he
      exact ⟨trivial, by rintro a ⟨⟩⟩
  obtain ⟨hinit, hwell, hagree⟩ := static_hostent_never_stale .sample .zero loaded_zero _ hvalid
  refine ⟨(hinit ⟨.missed, by simp, by rintro a ⟨⟩⟩).1, hwell ⟨.missed, by simp, rfl⟩, ?_⟩
  exact (hagree .zero [.sample] (.always (.success .sample)) (.always (.success .sample)) (.gethostbyname [97])
    loaded_zero valid_sample rfl rfl ⟨by decide, by decide⟩).2

/-- The returned pointer tells success, and its hostent then carries an address. -/
def CarriesAddress (reply : Reply) (p : ℕ) (m : Mem) : Prop :=
  (p ≠ 0 ↔ ∃ host, reply = .success host ∧ host.hAddrList ≠ []) ∧
    (p ≠ 0 → m.loadPtr (m.loadPtr (hAddrList p)) ≠ 0)

/-- The first pointer of the copied address list is NULL only for an answer without
addresses. -/
theorem Storage.Holds.first_address {S : Storage} {host : Answer} {m : Mem} (h : S.Holds host m)
    (hne : host.hAddrList ≠ []) : m.loadPtr (m.loadPtr (hAddrList S.out)) ≠ 0 := by
  obtain ⟨_, _, _, ⟨hb, _⟩, _⟩ := S.objects
  have hlen := List.length_pos_of_ne_nil hne
  have hfirst := (h.slot 0 hlen (by norm_num)).1
  rw [Nat.mul_zero, Nat.add_zero] at hfirst
  rw [h.points.2, hfirst]
  omega

theorem lookupStatic_carries_iff {st : Statics} {c : Cache} {w : World} (h : Refines st c w)
    {reply : Reply} (hfit : reply.Fits) :
    CarriesAddress reply (lookupStatic st reply w).1 (lookupStatic st reply w).2.mem ↔
      ¬ ∃ host, reply = .success host ∧ host.hAddrList = [] := by
  have hs := ((lookupStatic_refines h hfit).shows reply rfl).2.2
  have hhe : st.he ≠ 0 := (st.storage.objects.1.1).ne'
  rw [CarriesAddress, lookupStatic_value h hfit]
  unfold Statics.pointerFor
  cases reply with
  | success host =>
    by_cases hn : host.hAddrList = []
    · simp [hn, hhe]
    · have hfirst : (lookupStatic st (.success host) w).2.mem.loadPtr
          ((lookupStatic st (.success host) w).2.mem.loadPtr (hAddrList st.he)) ≠ 0 := hs.first_address hn
      simp [hn, hhe, hfirst]
  | failure status hne => simp

/-- After any history, a non-reentrant lookup returns a hostent exactly when it found an
address, except for a successful answer that carries none. -/
theorem hostent_carries_address_iff (st : Statics) (w₀ : World) (hw : Loaded st w₀)
    (history : List Event) (hh : ∀ e ∈ history, e.Valid st) (ares : Ares) (c : Call)
    (hb : c.buffers = none)
    (hlen : ∀ host, c.reply ares = .success host → host.hLength = 4 ∨ host.hLength = 16) :
    (∃ p, c.returned st ares (runCalls st history w₀) = some p ∧
        CarriesAddress (c.reply ares) p (c.exec st ares (runCalls st history w₀)).mem) ↔
      ¬ ∃ host, c.reply ares = .success host ∧ host.hAddrList = [] := by
  have hfit : (c.reply ares).Fits := by
    cases hr : c.reply ares with
    | success host => rcases hlen host hr with h | h <;> simp [Reply.Fits, h, sizeofSockaddr]
    | failure status hne => trivial
  rw [← lookupStatic_carries_iff (run_refines hw hh) hfit, Call.returned_eq st ares hb, Call.exec_eq, hb]
  simp

theorem hostent_carries_address_sample :
    (∃ p, (Call.gethostbyname [97]).returned .sample (.always (.success .sample))
          (runCalls .sample [.sample] .zero) = some p ∧
        CarriesAddress (.success .sample) p ((Call.gethostbyname [97]).exec .sample
          (.always (.success .sample)) (runCalls .sample [.sample] .zero)).mem) ↔
      ¬ ∃ host, Reply.success .sample = .success host ∧ host.hAddrList = [] :=
  hostent_carries_address_iff .sample .zero loaded_zero [.sample] valid_sample
    (.always (.success .sample)) (.gethostbyname [97]) rfl (by
      intro host hh
      obtain rfl := Reply.success.inj hh
      exact .inl rfl)

/-- An alias-only answer gives the caller a hostent without an address. -/
theorem aliasOnly_hostent_without_address :
    (gethostbyname .sample (.always (.success .aliasOnly)) [97] .zero).1 = Statics.sample.he ∧
      ¬ CarriesAddress (.success .aliasOnly)
        (gethostbyname .sample (.always (.success .aliasOnly)) [97] .zero).1
        (gethostbyname .sample (.always (.success .aliasOnly)) [97] .zero).2.mem := by
  have hfit : (Reply.success .aliasOnly).Fits := ⟨by decide, by decide⟩
  have h := refines_loaded loaded_zero
  have hcall : gethostbyname .sample (.always (.success .aliasOnly)) [97] .zero =
      lookupStatic .sample (.success .aliasOnly) .zero := rfl
  rw [hcall]
  refine ⟨lookupStatic_value h hfit, fun hc => ?_⟩
  exact (lookupStatic_carries_iff h hfit).mp hc ⟨.aliasOnly, rfl, rfl⟩

end FakeDns
