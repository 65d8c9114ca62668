import FakeDns.Channel.Runs

/-! A channel uses no query that has been freed. The rings see to that for the queries
themselves; the requests in the send queues point into the queries' buffers, and a query
that ends while one of them waits gives it a copy or marks the connection as broken. -/

namespace FakeDns.Channel

/-- A request has its own data, or none, or points into the buffer of a query that is there. -/
def SendRequest.Backed (query : ℕ → Option Query) (ending : List ℕ) (r : SendRequest) : Prop :=
  match r.ownerQuery with
  | some q => q ∉ ending ∧ r.dataStorage = false ∧ ∃ x, query q = some x ∧ r.data <:+ x.tcpbuf
  | none => r.dataStorage = true ∨ r.data = []

/-- No fault so far, and none in the send queues. -/
structure Safe (cfg : Config) (σ : Sys) : Prop where
  trace : Act.fault ∉ σ.ch.trace
  queue : ∀ i < cfg.nservers, ∀ r ∈ (σ.ch.server i).queue, r.Backed σ.ch.query σ.ending

variable {cfg : Config} {env : Env} {S : Set ℕ} {σ τ : Sys} {ch ch' : State} {q i : ℕ} {x y : Query}
  {r : SendRequest} {query query' : ℕ → Option Query} {E E' : List ℕ}

namespace SendRequest

theorem Backed.of_eq (h : r.Backed query E) (hE : ∀ q, r.ownerQuery = some q → q ∈ E' → q ∈ E)
    (hq : ∀ q x, r.ownerQuery = some q → query q = some x → ∃ y, query' q = some y ∧ y.qbuf = x.qbuf) :
    r.Backed query' E' := by
  rw [Backed] at h ⊢
  cases ho : r.ownerQuery with
  | none => simpa only [ho] using h
  | some q =>
    rw [ho] at h
    obtain ⟨hq₁, hs, x, hx, hd⟩ := h
    obtain ⟨y, hy, hbuf⟩ := hq q x ho hx
    refine ⟨fun h => hq₁ (hE q ho h), hs, y, hy, ?_⟩
    rwa [Query.tcpbuf, hbuf]

/-- A request of which some bytes were sent. -/
theorem Backed.of_suffix {s : SendRequest} (h : s.Backed query E) (ho : r.ownerQuery = s.ownerQuery)
    (hs : r.dataStorage = s.dataStorage) (hd : r.data <:+ s.data) : r.Backed query E := by
  rw [Backed] at h ⊢
  rw [ho, hs]
  cases hq : s.ownerQuery with
  | none =>
    rw [hq] at h
    rcases h with h | hnil
    · exact .inl h
    · exact .inr (List.suffix_nil.mp (hnil ▸ hd))
  | some q =>
    rw [hq] at h
    obtain ⟨hE, hstored, x, hx, hsuffix⟩ := h
    exact ⟨hE, hstored, x, hx, hd.trans hsuffix⟩

end SendRequest

theorem mem_advanceTcpSendQueue {n : ℕ} {queue : List SendRequest} (h : r ∈ advanceTcpSendQueue n queue) :
    ∃ s ∈ queue, r.ownerQuery = s.ownerQuery ∧ r.dataStorage = s.dataStorage ∧ r.data <:+ s.data := by
  fun_induction advanceTcpSendQueue n queue with
  | case1 queue => exact ⟨r, h, rfl, rfl, List.suffix_rfl⟩
  | case2 => exact absurd h List.not_mem_nil
  | case3 n s queue _ ih =>
    obtain ⟨t, ht, h⟩ := ih h
    exact ⟨t, List.mem_cons_of_mem s ht, h⟩
  | case4 n s queue _ =>
    rcases List.mem_cons.mp h with rfl | h
    · exact ⟨s, List.mem_cons_self, rfl, rfl, List.drop_suffix _ _⟩
    · exact ⟨r, List.mem_cons_of_mem s h, rfl, rfl, List.suffix_rfl⟩

/-- A step that changes no queue, and no query that a request is for. -/
theorem Safe.of_query (h : Safe cfg σ) (ht : Act.fault ∉ τ.ch.trace)
    (hs : ∀ i, (τ.ch.server i).queue = (σ.ch.server i).queue) (hE : τ.ending = σ.ending)
    (hq : ∀ q x, σ.ch.query q = some x → ∃ y, τ.ch.query q = some y ∧ y.qbuf = x.qbuf) : Safe cfg τ where
  trace := ht
  queue i hi r hr := by
    rw [hs i] at hr
    exact (h.queue i hi r hr).of_eq (fun q _ hq => hE ▸ hq) fun q x _ => hq q x

theorem fault_not_mem_emit {a : Act} (h : Act.fault ∉ ch.trace) (ha : a ≠ .fault) :
    Act.fault ∉ (ch.emit a).trace := by
  rw [State.emit, List.mem_append, List.mem_singleton, not_or]
  exact ⟨h, Ne.symm ha⟩

theorem setServer_queue {s : Server} (hs : s.queue = (ch.server i).queue) (j : ℕ) :
    ((ch.setServer i s).server j).queue = (ch.server j).queue := by
  by_cases hj : j = i
  · subst hj
    rw [State.setServer_self, hs]
  · rw [State.setServer_of_ne hj]

theorem update_qbuf (hx : query q = some x) (hy : y.qbuf = x.qbuf) (r : ℕ) (z : Query) (hz : query r = some z) :
    ∃ w, Function.update query q (some y) r = some w ∧ w.qbuf = z.qbuf := by
  by_cases hr : r = q
  · subst hr
    obtain rfl := Option.some.inj (hx.symm.trans hz)
    exact ⟨y, Function.update_self _ _ _, hy⟩
  · exact ⟨z, (Function.update_of_ne hr _ _).trans hz, rfl⟩

/-- The assertion of `end_query` holds. -/
theorem unstored_of_backed {queue : List SendRequest} (h : ∀ r ∈ queue, r.Backed query E) (q : ℕ) :
    unstored q queue = true := by
  rw [unstored, List.all_eq_true]
  intro r hr
  have hb := h r hr
  rw [SendRequest.Backed] at hb
  cases ho : r.ownerQuery with
  | none => simp
  | some p =>
    rw [ho] at hb
    simp [hb.2.1]

/-- `end_query` leaves the queue of a server in order. -/
theorem Safe.releaseServer {H : List ℕ} {a : Bool} {K : List Client} (h : Safe cfg ⟨ch, H, E, a, K⟩)
    (hi : i < cfg.nservers) (q : ℕ) (status : UInt32) : Safe cfg ⟨releaseServer env q status ch i, H, E, a, K⟩ := by
  have hall := unstored_of_backed (h.queue i hi) q
  simp only [Channel.releaseServer, hall, if_true]
  refine ⟨h.trace, fun j hj r hr => ?_⟩
  by_cases hji : j = i
  · subst hji
    rw [State.setServer_self] at hr
    rcases mem_releaseRequests q status _ _ r hr with ⟨hr, -⟩ | ⟨ho, hd⟩
    · exact h.queue j hj r hr
    · rw [SendRequest.Backed, ho]
      exact hd
  · rw [State.setServer_of_ne hji] at hr
    exact h.queue j hj r hr

theorem Move.safe (h : Move cfg env S σ τ) (hr : Rings σ.ch.tables σ.hand σ.ending) (hs : Safe cfg σ) :
    Safe cfg τ := by
  cases h with
  | tick | done | alloc | draw | pick | steal => exact ⟨hs.trace, hs.queue⟩
  | stray | tell => exact ⟨fault_not_mem_emit hs.trace nofun, hs.queue⟩
  | refuse =>
    exact ⟨fault_not_mem_emit (fault_not_mem_emit hs.trace nofun) nofun, hs.queue⟩
  | enlist =>
    refine hs.of_query (fault_not_mem_emit hs.trace nofun) (fun _ => rfl) rfl fun q x hx => ⟨x, ?_, rfl⟩
    exact (Function.update_of_ne (hr.fresh hx).ne _ _).trans hx
  | late _ hx | retry _ hx | useTcp _ hx =>
    exact hs.of_query hs.trace (fun _ => rfl) rfl (update_qbuf hx rfl)
  | @skip _ _ _ _ _ _ x i _ hx =>
    have hbuf : (x.skip i).qbuf = x.qbuf := rfl
    exact hs.of_query hs.trace (fun _ => rfl) rfl (update_qbuf hx hbuf)
  | openTcp | openUdp =>
    exact hs.of_query hs.trace (setServer_queue (by rfl)) rfl fun q x hx => ⟨x, hx, rfl⟩
  | send _ hx =>
    exact hs.of_query (fault_not_mem_emit hs.trace nofun) (fun _ => rfl) rfl (update_qbuf hx (by rfl))
  | @queue ch H E _ q x now _ hx hE _ _ _ _ _ _ =>
    have hquery := update_qbuf (y := { x.sentOn x.server (ch.server x.server).generation with
      timeout := timeadd now (timeplus cfg (x.sentOn x.server (ch.server x.server).generation)
        (env.rand (ch.calls + 1))) }) hx rfl
    refine ⟨fault_not_mem_emit hs.trace nofun, fun i hi r hr => ?_⟩
    have hold : r ∈ (ch.server i).queue → r.Backed (queueRequest cfg env now ch q x).query E := fun hr =>
      (hs.queue i hi r hr).of_eq (fun _ _ h => h) fun p z _ hz => hquery p z hz
    change r ∈ (Function.update ch.server x.server _ i).queue at hr
    by_cases his : i = x.server
    · subst his
      rw [Function.update_self, List.mem_append, List.mem_singleton] at hr
      rcases hr with hr | rfl
      · exact hold hr
      · exact ⟨hE, rfl, _, Function.update_self _ _ _, List.suffix_rfl⟩
    · rw [Function.update_of_ne his] at hr
      exact hold hr
  | release _ _ hi => exact hs.releaseServer hi _ _
  | @answer ch H E _ _ q x status abuf _ _ _ hrel _ =>
    refine ⟨fault_not_mem_emit hs.trace nofun, fun i hi r hr => ?_⟩
    refine (hs.queue i hi r hr).of_eq (fun p hp hE => ?_) fun p z _ hz => ⟨z, hz, rfl⟩
    rcases List.mem_cons.mp hE with rfl | hE
    · exact absurd hp (hrel i hi r hr)
    · exact hE
  | @free ch H E _ q _ =>
    refine ⟨hs.trace, fun i hi r hr => ?_⟩
    have hb := hs.queue i hi r hr
    refine hb.of_eq (fun p _ hE => List.mem_cons_of_mem q hE) fun p z hp hz => ⟨z, ?_, rfl⟩
    -- no request is for the query that is freed
    have hpq : p ≠ q := by
      rintro rfl
      rw [SendRequest.Backed, hp] at hb
      exact hb.1 List.mem_cons_self
    exact (Function.update_of_ne hpq _ _).trans hz
  | @close ch H E _ _ i =>
    refine ⟨hs.trace, fun j hj r hr => ?_⟩
    by_cases hji : j = i
    · subst hji
      rw [closeSockets, State.setServer_self] at hr
      exact absurd hr List.not_mem_nil
    · rw [closeSockets, State.setServer_of_ne hji] at hr
      exact hs.queue j hj r hr
  | @write ch H E _ _ i n hi _ _ =>
    refine ⟨fault_not_mem_emit hs.trace (by simp), fun j hj r hr => ?_⟩
    by_cases hji : j = i
    · subst hji
      rw [State.setServer_self] at hr
      obtain ⟨s, hs', ho, hd, hsuf⟩ := mem_advanceTcpSendQueue hr
      exact (hs.queue j hj s hs').of_suffix ho hd hsuf
    · rw [State.setServer_of_ne hji] at hr
      exact hs.queue j hj r hr

theorem run_safety (cfg : Config) (env : Env) (events : List Event) : Safe cfg (run cfg env events).idle := by
  have hinit : Safe cfg (init cfg env).idle := ⟨List.not_mem_nil, fun _ _ _ hr => absurd hr List.not_mem_nil⟩
  refine run_keep events (fun hm _ hr => hm.safe hr) (fun _ hs => ⟨hs.trace, hs.queue⟩)
    (fun _ hadvance hs => ?_) hinit
  cases hadvance with
  | now | timeouts => exact ⟨hs.trace, hs.queue⟩
  | packet => exact ⟨fault_not_mem_emit hs.trace nofun, hs.queue⟩
  | more =>
    exact hs.of_query (fault_not_mem_emit hs.trace (by simp)) (setServer_queue (by rfl)) rfl fun q x hx => ⟨x, hx, rfl⟩
  | message =>
    exact ⟨fault_not_mem_emit (fault_not_mem_emit hs.trace (by simp)) nofun, hs.queue⟩
  | consumed => exact hs.of_query hs.trace (setServer_queue (by rfl)) rfl fun q x hx => ⟨x, hx, rfl⟩

/-- In every run no query is used after it was freed and no assertion fails, and every
request in a send queue has its own data, or none, or points into the buffer of a query
that is still there. -/
theorem run_safe (cfg : Config) (env : Env) (events : List Event) :
    Act.fault ∉ (run cfg env events).trace ∧
      ∀ i < cfg.nservers, ∀ r ∈ ((run cfg env events).server i).queue, r.Backed (run cfg env events).query [] :=
  ⟨(run_safety cfg env events).trace, (run_safety cfg env events).queue⟩

end FakeDns.Channel
