import FakeDns.Channel.Genuine
import Mathlib.Algebra.BigOperators.Group.Finset.Piecewise
import Mathlib.Algebra.Order.Ring.Nat

/-! Reasoning about clients. A client is a program of its own; its steps come in between those
of the channel and of other clients. A property that the steps of a client keep holds of it
whenever it is called back, and what a client owes its caller is not lost while it waits. -/

namespace FakeDns.Channel

/-- A property of clients that they keep, when the replies that they get are among `R`. A client
that asks goes on, and what it leaves behind waits. -/
structure Closed (R : List UInt8 → Reply → Prop) (I : Client → Prop) : Prop where
  alloc : ∀ {next}, I (.alloc next) → ∀ ok, I (next ok)
  draw : ∀ {next}, I (.draw next) → ∀ id, I (next id)
  tell : ∀ {told next}, I (.tell told next) → I next
  ask : ∀ {qbuf callback next}, I (.ask qbuf callback next) → I next ∧ I (.ask qbuf callback .done)
  reply : ∀ {qbuf callback next reply}, I (.ask qbuf callback next) → R qbuf reply → I (callback reply)

/-- The client does not call `ares_send` again. -/
def Client.Quiet : Client → Prop
  | .done | .stray => True
  | .alloc next => ∀ ok, (next ok).Quiet
  | .draw next => ∀ id, (next id).Quiet
  | .tell _ next => next.Quiet
  | .ask _ _ _ => False

/-- The client that a query waits with. -/
def Query.client (x : Query) : Client := .ask x.qbuf x.callback .done

/-- The clients that run and those that wait have a property, and so had those that told
their callers something. -/
structure Served (I : Client → Prop) (σ : Sys) : Prop where
  waiting : ∀ {q x}, σ.ch.query q = some x → I x.client
  running : ∀ c ∈ σ.clients, I c
  told : ∀ {told}, .told told ∈ σ.ch.trace → ∃ next, I (.tell told next)
  stray : .stray ∈ σ.ch.trace → I .stray

variable {cfg : Config} {env : Env} {S : Set ℕ} {σ τ : Sys} {ch ch' : State} {q : ℕ} {x y : Query}
  {R : List UInt8 → Reply → Prop} {I : Client → Prop} {c : Client} {events : List Event} {acts : List Act}

/-- All that a quiet client changes is what its callers are told. -/
theorem Client.Quiet.run_eq (cfg : Config) (env : Env) : ∀ {c : Client}, c.Quiet → ∀ ch : State, ∃ calls acts,
    c.run cfg env ch = { ch with calls := calls, trace := ch.trace ++ acts } ∧
      ∀ a ∈ acts, a = .stray ∨ ∃ told, a = .told told
  | .done, _, ch => ⟨ch.calls, [], by rw [List.append_nil]; rfl, nofun⟩
  | .stray, _, ch => ⟨ch.calls, [.stray], rfl, fun _ h => .inl (List.mem_singleton.mp h)⟩
  | .alloc next, h, ch => (h (env.malloc ch.calls)).run_eq cfg env ch.tick
  | .draw next, h, ch => (h (env.rand ch.calls)).run_eq cfg env ch.tick
  | .tell told next, h, ch => by
    have hnext : next.Quiet := h
    obtain ⟨calls, acts, heq, hacts⟩ := hnext.run_eq cfg env (ch.emit (.told told))
    refine ⟨calls, .told told :: acts, ?_, fun a ha => ?_⟩
    · exact heq.trans (by simp [State.emit])
    · rcases List.mem_cons.mp ha with rfl | ha
      · exact .inr ⟨told, rfl⟩
      · exact hacts a ha

/-- A step of a client, or one that no client has a part in. -/
theorem Served.step (h : Served I σ) (ht : τ.ch.trace = σ.ch.trace ++ acts)
    (hq : ∀ {q y}, τ.ch.query q = some y → I y.client) (hc : ∀ c ∈ τ.clients, I c)
    (htold : ∀ told, .told told ∈ acts → ∃ next, I (.tell told next)) (hstray : .stray ∈ acts → I .stray) :
    Served I τ where
  waiting := hq
  running := hc
  told {told} hmem := by
    rw [ht] at hmem
    exact (List.mem_append.mp hmem).elim h.told (htold told)
  stray hmem := by
    rw [ht] at hmem
    exact (List.mem_append.mp hmem).elim h.stray hstray

/-- Changing one query, but not its client. -/
theorem Served.update (h : Served I σ) (hx : σ.ch.query q = some x) {z : Query} {r : ℕ}
    (hz : Function.update σ.ch.query q (some y) r = some z) (hy : y.client = x.client) : I z.client := by
  rcases Rings.update_eq_some.mp hz with ⟨-, hyz⟩ | ⟨-, hz⟩
  · cases hyz
    exact hy ▸ h.waiting hx
  · exact h.waiting hz

theorem Move.served (hI : Closed (Credible cfg env events) I) (h : Move cfg env S σ τ) (ha : Asked σ.ch)
    (hseen : σ.ch.trace ⊆ (run cfg env events).trace) (hs : Served I σ) : Served I τ := by
  have hnext : ∀ {c d : Client} {K : List Client}, (∀ c ∈ d :: K, I c) → I c → ∀ e ∈ c :: K, I e :=
    fun hK hc e he => (List.mem_cons.mp he).elim (fun h => h ▸ hc) fun h => hK e (List.mem_cons_of_mem _ h)
  have hrest : ∀ {d : Client} {K : List Client}, (∀ c ∈ d :: K, I c) → ∀ c ∈ K, I c :=
    fun hK c hc => hK c (List.mem_cons_of_mem _ hc)
  have hcons : ∀ {c : Client} {K : List Client}, I c → (∀ c ∈ K, I c) → ∀ e ∈ c :: K, I e :=
    fun hc hK e he => (List.mem_cons.mp he).elim (fun h => h ▸ hc) (hK e)
  have hmute : ∀ {a : Act}, (∀ told, a ≠ .told told) → ∀ told, .told told ∈ [a] → ∃ next, I (.tell told next) :=
    fun ha told h => absurd (List.mem_singleton.mp h).symm (ha told)
  have hsound : ∀ {a : Act}, a ≠ .stray → .stray ∈ [a] → I .stray :=
    fun ha h => absurd (List.mem_singleton.mp h).symm ha
  cases h with
  | tick | pick | steal | openTcp | openUdp | close => exact ⟨hs.waiting, hs.running, hs.told, hs.stray⟩
  | done => exact ⟨hs.waiting, hrest hs.running, hs.told, hs.stray⟩
  | stray =>
    exact hs.step rfl hs.waiting (hrest hs.running) (hmute nofun) fun _ => hs.running _ List.mem_cons_self
  | alloc =>
    exact ⟨hs.waiting, hnext hs.running (hI.alloc (hs.running _ List.mem_cons_self) _), hs.told, hs.stray⟩
  | draw =>
    exact ⟨hs.waiting, hnext hs.running (hI.draw (hs.running _ List.mem_cons_self) _), hs.told, hs.stray⟩
  | @tell _ _ _ _ _ told next =>
    have htell : I (.tell told next) := hs.running _ List.mem_cons_self
    apply hs.step
    · rfl
    · exact hs.waiting
    · exact hnext hs.running (hI.tell htell)
    · intro told' hmem
      cases List.mem_singleton.mp hmem
      exact ⟨next, htell⟩
    · exact hsound nofun
  | @refuse ch _ _ _ _ qbuf callback next status hstatus =>
    have htrace : ((ask ch qbuf).emit (.answered ch.issued ⟨status, 0, []⟩)).trace =
        ch.trace ++ [.asked ch.issued qbuf, .answered ch.issued ⟨status, 0, []⟩] := List.append_assoc _ _ _
    have hask : I (.ask qbuf callback next) := hs.running _ List.mem_cons_self
    apply hs.step
    · exact htrace
    · exact hs.waiting
    · exact hcons (hI.reply hask (credible_of_failure cfg env events qbuf hstatus 0 []))
        (hnext hs.running (hI.ask hask).1)
    · exact fun _ h => (List.mem_cons.mp h).elim nofun fun h => absurd (List.mem_singleton.mp h) nofun
    · exact fun h => (List.mem_cons.mp h).elim nofun fun h => absurd (List.mem_singleton.mp h) nofun
  | @enlist ch _ _ _ _ qbuf qid callback next =>
    have hask : I (.ask qbuf callback next) := hs.running _ List.mem_cons_self
    apply hs.step
    · rfl
    · intro r z hz
      rcases Rings.update_eq_some.mp hz with ⟨-, hyz⟩ | ⟨-, hz⟩
      · cases hyz
        exact (hI.ask hask).2
      · exact hs.waiting hz
    · exact hnext hs.running (hI.ask hask).1
    · exact hmute nofun
    · exact hsound nofun
  | late _ hx | retry _ hx | useTcp _ hx => exact ⟨fun hz => hs.update hx hz rfl, hs.running, hs.told, hs.stray⟩
  | @skip _ _ _ _ _ _ x i _ hx =>
    have hclient : (x.skip i).client = x.client := rfl
    exact ⟨fun hz => hs.update hx hz hclient, hs.running, hs.told, hs.stray⟩
  | queue _ hx | send _ hx =>
    apply hs.step
    · rfl
    · exact fun hz => hs.update hx hz rfl
    · exact hs.running
    · exact hmute nofun
    · exact hsound nofun
  | @release ch _ _ _ _ q status i =>
    obtain ⟨acts, htrace, hfault⟩ := releaseServer_trace env q status ch i
    apply hs.step
    · exact htrace
    · intro r y hy
      rw [releaseServer_query] at hy
      exact hs.waiting hy
    · exact hs.running
    · exact fun _ h => absurd (hfault _ h) nofun
    · exact fun h => absurd (hfault _ h) nofun
  | @answer ch _ _ _ _ q x status abuf _ hx _ _ hg =>
    apply hs.step
    · rfl
    · exact hs.waiting
    · exact hcons (hI.reply (hs.waiting hx) (credible_of_genuine hg ha hseen hx _)) hs.running
    · exact hmute nofun
    · exact hsound nofun
  | free =>
    refine ⟨fun hy => ?_, hs.running, hs.told, hs.stray⟩
    rcases Rings.update_eq_some.mp hy with ⟨-, hy⟩ | ⟨-, hy⟩
    · cases hy
    · exact hs.waiting hy
  | write => exact hs.step rfl hs.waiting hs.running (hmute nofun) (hsound nofun)

/-- The rule of clients: what they keep holds of those that wait, and held of those that told
their callers something. -/
theorem run_served (cfg : Config) (env : Env) (events : List Event) (hI : Closed (Credible cfg env events) I)
    (hstart : ∀ c, .run c ∈ events → I c) : Served I (run cfg env events).idle := by
  have hinit : Served I (init cfg env).idle :=
    ⟨nofun, fun _ h => absurd h List.not_mem_nil, fun h => absurd h List.not_mem_nil,
      fun h => absurd h List.not_mem_nil⟩
  refine (run_keep_seen (P := fun σ => Asked σ.ch ∧ Served I σ) events ?_ ?_ ?_ ⟨init_asked cfg env, hinit⟩).2
  · exact fun hm _ _ hseen h => ⟨hm.asked h.1, hm.served hI h.1 hseen h.2⟩
  · intro ch client hmem h
    refine ⟨h.1, h.2.waiting, fun c hc => ?_, h.2.told, h.2.stray⟩
    exact List.mem_singleton.mp hc ▸ hstart client hmem
  · intro e ch ch' he hadvance h
    refine ⟨hadvance.asked h.1, ?_⟩
    have hmute : ∀ {a : Act}, (∀ told, a ≠ .told told) → ∀ told, .told told ∈ [a] → ∃ next, I (.tell told next) :=
      fun ha told h => absurd (List.mem_singleton.mp h).symm (ha told)
    have hsound : ∀ {a : Act}, a ≠ .stray → .stray ∈ [a] → I .stray :=
      fun ha h => absurd (List.mem_singleton.mp h).symm ha
    cases hadvance with
    | now | timeouts | consumed => exact ⟨h.2.waiting, h.2.running, h.2.told, h.2.stray⟩
    | packet | more => exact h.2.step rfl h.2.waiting h.2.running (hmute (by simp)) (hsound (by simp))
    | @message ch i bytes =>
      have hread : Served I (sread ch i bytes).idle :=
        h.2.step rfl h.2.waiting h.2.running (hmute (by simp)) (hsound (by simp))
      exact hread.step rfl hread.waiting hread.running (hmute (by simp)) (hsound (by simp))

/-! ### What is owed -/

/-- The client will tell the caller `call` something just so many times, and does not go
astray. -/
def Client.Owes (R : List UInt8 → Reply → Prop) (call : ℕ) : Client → ℕ → Prop
  | .done, n => n = 0
  | .stray, _ => False
  | .alloc next, n => ∀ ok, (next ok).Owes R call n
  | .draw next, n => ∀ id, (next id).Owes R call n
  | .tell told next, n => ∃ m, n = m + (if told.call = call then 1 else 0) ∧ next.Owes R call m
  | .ask qbuf callback next, n => ∃ m k, n = m + k ∧ (∀ reply, R qbuf reply → (callback reply).Owes R call m) ∧
      next.Owes R call k

/-- The caller `call` is told something. -/
def Act.tells (call : ℕ) : Act → Bool
  | .told t => t.call = call
  | _ => false

/-- How often the caller `call` was told something. -/
def State.told (ch : State) (call : ℕ) : ℕ := ch.trace.countP (Act.tells call)

/-- What was told, what the waiting clients owe by `w` and what the running ones owe make up
`total`. -/
structure Owing (R : List UInt8 → Reply → Prop) (call total : ℕ) (w : ℕ → ℕ) (ns : List ℕ) (σ : Sys) : Prop where
  waiting : ∀ {q x}, σ.ch.query q = some x → q ∉ σ.ending → x.client.Owes R call (w q)
  live : ∀ {q}, w q ≠ 0 → q ∉ σ.ending ∧ ∃ x, σ.ch.query q = some x
  running : List.Forall₂ (Client.Owes R call) σ.clients ns
  total : σ.ch.told call + ∑ q ∈ Finset.range σ.ch.issued, w q + ns.sum = total

variable {call total m : ℕ} {w : ℕ → ℕ} {ns : List ℕ} {a : Act}

theorem told_emit (ch : State) (a : Act) (call : ℕ) :
    (ch.emit a).told call = ch.told call + if a.tells call then 1 else 0 := by
  rw [State.told, State.emit, List.countP_append, List.countP_singleton]
  rfl

theorem told_emit_of_not (h : a.tells call = false) : (ch.emit a).told call = ch.told call := by
  rw [told_emit, h]
  rfl

theorem releaseServer_told (env : Env) (q : ℕ) (status : UInt32) (ch : State) (i call : ℕ) :
    (releaseServer env q status ch i).told call = ch.told call := by
  simp only [releaseServer]
  split
  · rfl
  · exact told_emit_of_not rfl

/-- A quiet client pays at once. -/
theorem Client.Owes.run_quiet : ∀ {c : Client} {n : ℕ}, c.Owes R call n → c.Quiet → ∀ ch : State,
    (c.run cfg env ch).told call = ch.told call + n
  | .done, _, h, _, _ => by rw [show _ = 0 from h]; rfl
  | .alloc next, _, h, hq, ch => (h (env.malloc ch.calls)).run_quiet (hq _) ch.tick
  | .draw next, _, h, hq, ch => (h (env.rand ch.calls)).run_quiet (hq _) ch.tick
  | .tell told next, _, h, hq, ch => by
    obtain ⟨m, rfl, hnext⟩ := h
    have hquiet : next.Quiet := hq
    have htold : (ch.emit (.told told)).told call = ch.told call + if told.call = call then 1 else 0 :=
      (told_emit _ _ _).trans (by simp [Act.tells])
    refine (hnext.run_quiet hquiet (ch.emit (.told told))).trans ?_
    rw [htold]
    omega

theorem owes_client {n : ℕ} : x.client.Owes R call n ↔ ∀ reply, R x.qbuf reply → (x.callback reply).Owes R call n := by
  constructor
  · rintro ⟨m, k, rfl, h, hdone⟩
    have hk : k = 0 := hdone
    rw [hk]
    exact h
  · exact fun h => ⟨n, 0, rfl, h, rfl⟩

/-- A query that was not asked yet owes nothing. -/
theorem Owing.unasked (h : Owing R call total w ns σ) (hr : Rings σ.ch.tables σ.hand σ.ending) : w σ.ch.issued = 0 := by
  by_contra hw
  obtain ⟨-, x, hx⟩ := h.live hw
  exact lt_irrefl _ (hr.fresh hx)

/-- What a query owes, apart from the others. -/
theorem sum_range_update {n : ℕ} (w : ℕ → ℕ) (h : q < n) :
    ∑ r ∈ Finset.range n, w r = w q + ∑ r ∈ Finset.range n, Function.update w q 0 r := by
  have hmem : q ∈ Finset.range n := Finset.mem_range.mpr h
  rw [Finset.sum_update_of_mem hmem, Nat.zero_add]
  exact Finset.sum_eq_add_sum_sdiff_singleton_of_mem hmem w

/-- A move that no client has a part in. -/
theorem Owing.step (h : Owing R call total w ns σ) (hc : τ.clients = σ.clients) (hE : τ.ending = σ.ending)
    (hq : ∀ {q y}, τ.ch.query q = some y → ∃ x, σ.ch.query q = some x ∧ y.client = x.client)
    (hlive : ∀ {q x}, σ.ch.query q = some x → ∃ y, τ.ch.query q = some y) (hi : τ.ch.issued = σ.ch.issued)
    (ht : τ.ch.told call = σ.ch.told call) : Owing R call total w ns τ where
  waiting {q y} hy hq' := by
    obtain ⟨x, hx, hxy⟩ := hq hy
    exact hxy ▸ h.waiting hx (hE ▸ hq')
  live hw := by
    obtain ⟨hE', x, hx⟩ := h.live hw
    exact ⟨hE ▸ hE', hlive hx⟩
  running := hc ▸ h.running
  total := by
    rw [hi, ht]
    exact h.total

theorem Owing.same (h : Owing R call total w ns σ) (hc : τ.clients = σ.clients) (hE : τ.ending = σ.ending)
    (hq : τ.ch.query = σ.ch.query) (hi : τ.ch.issued = σ.ch.issued) (ht : τ.ch.told call = σ.ch.told call) :
    Owing R call total w ns τ :=
  h.step hc hE (fun hy => ⟨_, hq ▸ hy, rfl⟩) (fun hx => ⟨_, hq ▸ hx⟩) hi ht

/-- Changing one query, but not its client. -/
theorem Owing.update (h : Owing R call total w ns σ) (hx : σ.ch.query q = some x) (hc : τ.clients = σ.clients)
    (hE : τ.ending = σ.ending) (hq : τ.ch.query = Function.update σ.ch.query q (some y)) (hy : y.client = x.client)
    (hi : τ.ch.issued = σ.ch.issued) (ht : τ.ch.told call = σ.ch.told call) : Owing R call total w ns τ := by
  apply h.step hc hE _ _ hi ht
  · intro r z hz
    rw [hq] at hz
    rcases Rings.update_eq_some.mp hz with ⟨rfl, hyz⟩ | ⟨-, hz⟩
    · cases hyz
      exact ⟨x, hx, hy⟩
    · exact ⟨z, hz, rfl⟩
  · intro r z hz
    rw [hq]
    by_cases hr : r = q
    · subst hr
      exact ⟨y, Function.update_self _ _ _⟩
    · exact ⟨z, (Function.update_of_ne hr _ _).trans hz⟩

/-- Nothing that is owed is lost. -/
theorem Move.owing (h : Move cfg env S σ τ) (ha : Asked σ.ch) (hseen : σ.ch.trace ⊆ (run cfg env events).trace)
    (hr : Rings σ.ch.tables σ.hand σ.ending) (ho : Owing (Credible cfg env events) call total w ns σ) :
    ∃ w ns, Owing (Credible cfg env events) call total w ns τ := by
  cases h with
  | tick | pick | steal | openTcp | openUdp | close => exact ⟨w, ns, ho.same rfl rfl rfl rfl rfl⟩
  | write => exact ⟨w, ns, ho.same rfl rfl rfl rfl (told_emit_of_not rfl)⟩
  | done =>
    cases ho.running with
    | cons hzero hrest =>
      refine ⟨w, _, ho.waiting, ho.live, hrest, ?_⟩
      have htotal := ho.total
      rw [List.sum_cons, show _ = 0 from hzero, Nat.zero_add] at htotal
      exact htotal
  | stray =>
    cases ho.running with
    | cons hstray => exact absurd hstray id
  | alloc | draw =>
    cases ho.running with
    | cons howes hrest => exact ⟨w, _, ho.waiting, ho.live, .cons (howes _) hrest, ho.total⟩
  | @tell ch _ _ _ _ told next =>
    cases ho.running with
    | @cons _ n _ ns howes hrest =>
      obtain ⟨m, rfl, hnext⟩ := howes
      refine ⟨w, _, ho.waiting, ho.live, .cons hnext hrest, ?_⟩
      have htold : (ch.emit (.told told)).told call = ch.told call + if told.call = call then 1 else 0 :=
        (told_emit _ _ _).trans (by simp [Act.tells])
      have htotal : ch.told call + ∑ q ∈ Finset.range ch.issued, w q + (_ :: ns).sum = total := ho.total
      rw [List.sum_cons] at htotal ⊢
      change (ch.emit (.told told)).told call + ∑ q ∈ Finset.range ch.issued, w q + _ = _
      rw [htold]
      omega
  | @refuse ch _ _ _ _ qbuf callback next status hstatus =>
    cases ho.running with
    | @cons _ n _ ns howes hrest =>
      obtain ⟨m, k, rfl, hcallback, hnext⟩ := howes
      have htold : ((ask ch qbuf).emit (.answered ch.issued ⟨status, 0, []⟩)).told call = ch.told call :=
        (told_emit_of_not rfl).trans (told_emit_of_not rfl)
      refine ⟨w, m :: k :: ns, ho.waiting, ho.live,
        .cons (hcallback _ (credible_of_failure cfg env events qbuf hstatus 0 [])) (.cons hnext hrest), ?_⟩
      have htotal : ch.told call + ∑ q ∈ Finset.range ch.issued, w q + ((m + k) :: ns).sum = total := ho.total
      change State.told (State.emit _ _) call + ∑ q ∈ Finset.range (ch.issued + 1), w q + _ = _
      rw [htold, Finset.sum_range_succ, ho.unasked hr, Nat.add_zero, List.sum_cons, List.sum_cons, ← Nat.add_assoc m]
      rwa [List.sum_cons] at htotal
  | @enlist ch H E _ _ qbuf qid callback next =>
    cases ho.running with
    | @cons _ n _ ns howes hrest =>
      obtain ⟨m, k, rfl, hcallback, hnext⟩ := howes
      have hE : ch.issued ∉ E := fun h => by
        obtain ⟨z, hz⟩ := hr.hand_live (hr.ending_hand h)
        exact Option.some_ne_none z (hz.symm.trans hr.unused)
      refine ⟨Function.update w ch.issued m, k :: ns, fun {q y} hy hq => ?_, fun {q} hq => ?_, .cons hnext hrest, ?_⟩
      · rcases Rings.update_eq_some.mp hy with ⟨rfl, hxy⟩ | ⟨hne, hy⟩
        · cases hxy
          rw [Function.update_self]
          exact owes_client.mpr hcallback
        · rw [Function.update_of_ne hne]
          exact ho.waiting hy hq
      · by_cases hne : q = ch.issued
        · subst hne
          exact ⟨hE, _, Function.update_self _ _ _⟩
        · rw [Function.update_of_ne hne] at hq
          obtain ⟨hE, x, hx⟩ := ho.live hq
          exact ⟨hE, x, (Function.update_of_ne hne _ _).trans hx⟩
      · have htotal : ch.told call + ∑ q ∈ Finset.range ch.issued, w q + ((m + k) :: ns).sum = total := ho.total
        have hold : ∑ q ∈ Finset.range ch.issued, Function.update w ch.issued m q = ∑ q ∈ Finset.range ch.issued, w q :=
          Finset.sum_congr rfl fun q hq => Function.update_of_ne (Finset.mem_range.mp hq).ne _ _
        have htold : (Channel.enlist cfg (ask ch qbuf) ch.issued (newQuery cfg ch.lastServer qid qbuf callback)).told
            call = ch.told call := told_emit_of_not rfl
        change State.told (Channel.enlist _ _ _ _) call + ∑ q ∈ Finset.range (ch.issued + 1), _ + _ = _
        rw [List.sum_cons] at htotal
        rw [htold, Finset.sum_range_succ, hold, Function.update_self, List.sum_cons]
        omega
  | late _ hx | retry _ hx | useTcp _ hx => exact ⟨w, ns, ho.update hx rfl rfl rfl rfl rfl rfl⟩
  | @skip _ _ _ _ _ _ x i _ hx =>
    have hclient : (x.skip i).client = x.client := rfl
    exact ⟨w, ns, ho.update hx rfl rfl rfl hclient rfl rfl⟩
  | queue _ hx | send _ hx =>
    refine ⟨w, ns, ?_⟩
    apply ho.update hx
    · rfl
    · rfl
    · rfl
    · rfl
    · rfl
    · exact told_emit_of_not rfl
  | @release ch _ _ _ _ q status i =>
    exact ⟨w, ns, ho.same rfl rfl (releaseServer_query _ _ _ _) (releaseServer_issued _ _ _ _)
      (releaseServer_told _ _ _ _ _ _)⟩
  | @answer ch H E _ _ q x status abuf _ hx hE _ hg =>
    have hcredible := credible_of_genuine hg ha hseen hx x.timeouts
    refine ⟨Function.update w q 0, w q :: ns, fun {r y} hy hr' => ?_, fun {r} hr' => ?_,
      .cons (owes_client.mp (ho.waiting hx hE) _ hcredible) ho.running, ?_⟩
    · obtain ⟨hne, hr'⟩ := not_or.mp (mt List.mem_cons.mpr hr')
      rw [Function.update_of_ne hne]
      exact ho.waiting hy hr'
    · by_cases hne : r = q
      · subst hne
        exact absurd (Function.update_self _ _ _) hr'
      · rw [Function.update_of_ne hne] at hr'
        obtain ⟨hE', y, hy⟩ := ho.live hr'
        exact ⟨List.not_mem_cons_of_ne_of_not_mem hne hE', y, hy⟩
    · have htotal : ch.told call + ∑ q ∈ Finset.range ch.issued, w q + ns.sum = total := ho.total
      have hq : q < ch.issued := hr.fresh hx
      have htold : (ch.emit (.answered q ⟨status, x.timeouts, abuf⟩)).told call = ch.told call := told_emit_of_not rfl
      change State.told (State.emit _ _) call + ∑ q ∈ Finset.range ch.issued, _ + _ = _
      rw [sum_range_update w hq] at htotal
      rw [htold, List.sum_cons]
      omega
  | @free ch H E _ q =>
    refine ⟨w, ns, fun {r y} hy hr' => ?_, fun {r} hr' => ?_, ho.running, ho.total⟩
    · rcases Rings.update_eq_some.mp hy with ⟨-, hy⟩ | ⟨hne, hy⟩
      · cases hy
      · exact ho.waiting hy (List.not_mem_cons_of_ne_of_not_mem hne hr')
    · obtain ⟨hE, x, hx⟩ := ho.live hr'
      obtain ⟨hne, hE⟩ := not_or.mp (mt List.mem_cons.mpr hE)
      exact ⟨hE, x, (Function.update_of_ne hne _ _).trans hx⟩

/-- What an event adds to what is owed. -/
def Event.due (due : Client → ℕ) : Event → ℕ
  | .run client => due client
  | _ => 0

/-- What holds between two events. -/
def Accounted (cfg : Config) (env : Env) (events : List Event) (call total : ℕ) (σ : Sys) : Prop :=
  Asked σ.ch ∧ ∃ w ns, Owing (Credible cfg env events) call total w ns σ

theorem Move.accounted (h : Move cfg env S σ τ) (hr : Rings σ.ch.tables σ.hand σ.ending)
    (hseen : σ.ch.trace ⊆ (run cfg env events).trace) (ha : Accounted cfg env events call total σ) :
    Accounted cfg env events call total τ := by
  obtain ⟨ha, w, ns, ho⟩ := ha
  exact ⟨h.asked ha, h.owing ha hseen hr ho⟩

theorem step_accounted (h : Sound cfg env ch) (ha : Accounted cfg env events call total ch.idle) {e : Event}
    (hseen : (step cfg env ch e).trace ⊆ (run cfg env events).trace) {due : Client → ℕ}
    (hdue : ∀ c, e = .run c → c.Owes (Credible cfg env events) call (due c)) :
    Accounted cfg env events call (total + e.due due) (step cfg env ch e).idle := by
  have hother : (∀ c, e ≠ .run c) → Accounted cfg env events call total (step cfg env ch e).idle := by
    intro hne
    apply step_keep_seen (fun hm _ hr hs => hm.accounted hr hs) (fun h => absurd h (hne _)) _ h hseen ha
    intro ch ch' hadvance ha
    refine ⟨hadvance.asked ha.1, ?_⟩
    obtain ⟨-, w, ns, ho⟩ := ha
    refine ⟨w, ns, ?_⟩
    cases hadvance with
    | now | timeouts | consumed => exact ho.same rfl rfl rfl rfl rfl
    | packet | more => exact ho.same rfl rfl rfl rfl (told_emit_of_not rfl)
    | message => exact ho.same rfl rfl rfl rfl ((told_emit_of_not rfl).trans (told_emit_of_not rfl))
  cases e with
  | run c =>
    obtain ⟨hh, w, ns, ho⟩ := ha
    have hstart : Accounted cfg env events call (total + due c) (ch.running c) := by
      refine ⟨hh, w, [due c], ho.waiting, ho.live, .cons (hdue c rfl) .nil, ?_⟩
      have hnil : ns = [] := List.forall₂_nil_left_iff.mp ho.running
      have htotal := ho.total
      rw [hnil, List.sum_nil, Nat.add_zero] at htotal
      rw [List.sum_singleton, ← htotal]
    exact Moves.keep_seen (fun hm _ hr hs => hm.accounted hr hs) (c.run_moves ch [] [] [] h.conns nofun) h.conns h.rings
      hseen hstart
  | now | write | read | packets | timeouts | broken => exact hother nofun

/-- The rule of what is owed: what the clients that were started owed has been told, or is
owed by the clients that wait. -/
theorem run_owed (cfg : Config) (env : Env) (events : List Event) (call : ℕ) (due : Client → ℕ)
    (hstart : ∀ c, .run c ∈ events → c.Owes (Credible cfg env events) call (due c)) :
    ∃ w : ℕ → ℕ,
      (∀ q x, (run cfg env events).query q = some x → x.client.Owes (Credible cfg env events) call (w q)) ∧
      (∀ q, w q ≠ 0 → ∃ x, (run cfg env events).query q = some x) ∧
      (run cfg env events).told call + ∑ q ∈ Finset.range (run cfg env events).issued, w q =
        (events.map (Event.due due)).sum := by
  have hrun : ∀ es more : List Event, es ++ more = events →
      Accounted cfg env events call (es.map (Event.due due)).sum (run cfg env es).idle := by
    intro es
    induction es using List.reverseRecOn with
    | nil => exact fun _ _ => ⟨init_asked cfg env, fun _ => 0, [], nofun, fun h => absurd rfl h, .nil, rfl⟩
    | append_singleton es e ih =>
      intro more hmore
      have hrest : es ++ (e :: more) = events := by rw [← hmore, List.append_assoc, List.singleton_append]
      have he : e ∈ events := hrest ▸ List.mem_append_right _ List.mem_cons_self
      have hseen := run_trace_subset cfg env (es ++ [e]) more
      rw [hmore, run, List.foldl_append, List.foldl_cons, List.foldl_nil, ← run] at hseen
      have hstep := step_accounted (run_sound cfg env es) (ih _ hrest) hseen (fun c hc => hstart c (hc ▸ he))
      rw [run, List.foldl_append, List.foldl_cons, List.foldl_nil, ← run, List.map_append, List.sum_append,
        List.map_singleton, List.sum_singleton]
      exact hstep
  obtain ⟨-, w, ns, ho⟩ := hrun events [] (List.append_nil _)
  have hnil : ns = [] := List.forall₂_nil_left_iff.mp ho.running
  refine ⟨w, fun q x hx => ho.waiting hx List.not_mem_nil, fun q hq => (ho.live hq).2, ?_⟩
  have htotal := ho.total
  rw [hnil, List.sum_nil, Nat.add_zero] at htotal
  exact htotal

end FakeDns.Channel
