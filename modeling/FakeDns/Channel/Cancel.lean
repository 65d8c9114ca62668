import FakeDns.Channel.Clients
import FakeDns.Channel.Memory
import FakeDns.Channel.Once

/-! `ares_cancel` and `ares_destroy`. Both walk over all queries, calling each back and freeing
it, and take for granted that the clients do not send queries meanwhile. They do not look at
the send queues; closing the connections takes care of those, but `ares_cancel` keeps the
connections when it is told to. -/

namespace FakeDns.Channel

section

variable (cfg : Config) (env : Env)

/-- The loop over all queries, as long as it does not take more than so many rounds. -/
def endAll (status : UInt32) : ℕ → Option ℕ → State → Option State
  | _, none, ch => some ch
  | 0, some _, _ => none
  | n + 1, some q, ch =>
    match ch.query q with
    | none => some (ch.emit .fault)
    | some x =>
      -- "since we're deleting the query"
      let next := Buckets.next q ch.allQueries
      let reply := ⟨status, 0, []⟩
      endAll status n next (freeQuery (x.answer cfg env reply (ch.emit (.answered q reply))) q)

/-- "All query lists should be empty now." -/
def assertEmpty (ch : State) : State :=
  if ch.allQueries = [] ∧ (∀ b < ARES_QID_TABLE_SIZE, ch.byQid b = []) ∧
      ∀ b < ARES_TIMEOUT_TABLE_SIZE, ch.byTimeout b = [] then ch
  else ch.emit .fault

/-- `ares_cancel` -/
def aresCancel (fuel : ℕ) (ch : State) : Option State := do
  let ch ← endAll cfg env ARES_ECANCELLED fuel ch.allQueries.head? ch
  let ch := assertEmpty ch
  some (if ¬ cfg.has ARES_FLAG_STAYOPEN then (List.range cfg.nservers).foldl closeSockets ch else ch)

/-- One server's turn in `ares__destroy_servers_state`. -/
def destroyServer (ch : State) (i : ℕ) : State :=
  let ch := closeSockets ch i
  if ch.toServer (some i) = [] then ch else ch.emit .fault

/-- `ares_destroy`, up to the freeing of the channel. -/
def aresDestroy (fuel : ℕ) (ch : State) : Option State := do
  let ch ← endAll cfg env ARES_EDESTRUCTION fuel ch.allQueries.head? ch
  some ((List.range cfg.nservers).foldl destroyServer (assertEmpty ch))

end

/-- The clients that wait do not send queries when they are told `status`. -/
def State.Quits (ch : State) (status : UInt32) : Prop :=
  ∀ q x, ch.query q = some x → (x.callback ⟨status, 0, []⟩).Quiet

/-- What the loop does with one query. -/
def endOne (cfg : Config) (env : Env) (status : UInt32) (ch : State) (q : ℕ) (x : Query) : State :=
  freeQuery (x.answer cfg env ⟨status, 0, []⟩ (ch.emit (.answered q ⟨status, 0, []⟩))) q

/-- What holds while the loop goes on. -/
structure Ending (ch ch' : State) : Prop where
  rings : Rings ch'.tables [] []
  answered : Answered ch' []
  trace : Act.fault ∉ ch'.trace
  server : ch'.server = ch.server
  issued : ch'.issued = ch.issued

variable {cfg : Config} {env : Env} {ch ch' : State} {q n i : ℕ} {x : Query} {status : UInt32} {qs : List ℕ}
  {call total : ℕ} {w : ℕ → ℕ} {events : List Event}

/-- What a quiet client adds to the trace. -/
theorem Ending.quiet (h : Ending ch ch') (hx : ch'.query q = some x) (hq : (x.callback ⟨status, 0, []⟩).Quiet) :
    Ending ch (endOne cfg env status ch' q x) := by
  set ch₁ := ch'.emit (.answered q ⟨status, 0, []⟩) with hch
  obtain ⟨calls, acts, heq, hacts⟩ := hq.run_eq cfg env ch₁
  have hrun : endOne cfg env status ch' q x = freeQuery { ch₁ with calls := calls, trace := ch₁.trace ++ acts } q :=
    congrArg (freeQuery · q) heq
  have hnot : ∀ r, acts.countP (Act.answers r) = 0 := by
    intro r
    rw [List.countP_eq_zero]
    intro a ha
    rcases hacts a ha with rfl | ⟨told, rfl⟩ <;> exact Bool.false_ne_true
  have hanswered : Answered { ch₁ with calls := calls, trace := ch₁.trace ++ acts } [q] := by
    intro r
    apply (h.answered.answer (h.rings.fresh hx) hx List.not_mem_nil ⟨status, 0, []⟩).at_of_eq
    · rw [State.answers, List.countP_append, hnot, Nat.add_zero]
      rfl
    · rfl
  rw [hrun]
  refine ⟨((h.rings.pick hx List.not_mem_nil).answer List.not_mem_nil).free, hanswered.free, ?_, h.server, h.issued⟩
  intro hmem
  rcases List.mem_append.mp hmem with hmem | hmem
  · have htrace : Act.fault ∉ ch₁.trace := fault_not_mem_emit h.trace (by simp)
    exact htrace hmem
  · rcases hacts _ hmem with h | ⟨told, h⟩
    · cases h
    · cases h

theorem endOne_query (hquiet : (x.callback ⟨status, 0, []⟩).Quiet) :
    (endOne cfg env status ch q x).query = Function.update ch.query q none := by
  obtain ⟨calls, acts, heq, -⟩ := hquiet.run_eq cfg env (ch.emit (.answered q ⟨status, 0, []⟩))
  rw [endOne, Query.answer, heq]
  rfl

theorem State.Quits.step (hquit : ch.Quits status) (hx : ch.query q = some x) :
    (endOne cfg env status ch q x).Quits status := by
  intro r y hy
  rw [endOne_query (hquit q x hx)] at hy
  rcases Rings.update_eq_some.mp hy with ⟨-, hy⟩ | ⟨-, hy⟩
  · cases hy
  · exact hquit r y hy

/-- The loop ends every query, if the clients quit. -/
theorem endAll_eq (cfg : Config) (env : Env) {P : State → Prop}
    (hP : ∀ {ch' q x}, Ending ch ch' → ch'.query q = some x → (x.callback ⟨status, 0, []⟩).Quiet → P ch' →
      P (endOne cfg env status ch' q x)) (hquit : ch'.Quits status) (hall : ch'.allQueries = qs) (hn : qs.length ≤ n)
    (h : Ending ch ch') (hP' : P ch') :
    ∃ ch'', endAll cfg env status n qs.head? ch' = some ch'' ∧ Ending ch ch'' ∧ ch''.allQueries = [] ∧ P ch'' := by
  induction qs generalizing ch' n with
  | nil =>
    refine ⟨ch', ?_, h, hall, hP'⟩
    cases n <;> rfl
  | cons q qs ih =>
    obtain ⟨n, rfl⟩ := Nat.exists_eq_add_one_of_ne_zero (Nat.ne_of_gt (Nat.lt_of_lt_of_le (Nat.succ_pos _) hn))
    have hmem : q ∈ ch'.allQueries := hall ▸ List.mem_cons_self
    have hlive : ∃ x, ch'.query q = some x := h.rings.mem_all.mp hmem
    obtain ⟨x, hx⟩ := hlive
    have hnext : Buckets.next q ch'.allQueries = qs.head? := by rw [hall, Buckets.next, if_pos rfl]
    have hrest : (endOne cfg env status ch' q x).allQueries = qs := by
      obtain ⟨calls, acts, heq, -⟩ := (hquit q x hx).run_eq cfg env (ch'.emit (.answered q ⟨status, 0, []⟩))
      rw [endOne, Query.answer, heq]
      change ch'.allQueries.erase q = qs
      rw [hall, List.erase_cons_head]
    obtain ⟨ch'', heq, hend⟩ := ih (hquit.step hx) hrest (Nat.le_of_succ_le_succ hn) (h.quiet hx (hquit q x hx))
      (hP h hx (hquit q x hx) hP')
    refine ⟨ch'', ?_, hend⟩
    rw [List.head?_cons, endAll, hx]
    dsimp only
    rw [hnext]
    exact heq

/-- When no queries are left, all lists are empty. -/
theorem Ending.empty (h : Ending ch ch') (hall : ch'.allQueries = []) :
    (∀ q, ch'.query q = none) ∧ (∀ b, ch'.byQid b = []) ∧ (∀ b, ch'.byTimeout b = []) ∧ ∀ b, ch'.toServer b = [] := by
  have hnone : ∀ q, ch'.query q = none := fun q => Option.eq_none_iff_forall_ne_some.mpr fun x hx => by
    have hmem : q ∈ ch'.allQueries := h.rings.mem_all.mpr ⟨x, hx⟩
    rw [hall] at hmem
    exact List.not_mem_nil hmem
  have hdead : ∀ {q x}, ch'.query q ≠ some x := fun {q _} hx => absurd ((hnone q).symm.trans hx) nofun
  refine ⟨hnone, fun b => ?_, fun b => ?_, fun b => ?_⟩
  · apply List.eq_nil_iff_forall_not_mem.mpr
    intro q hq
    obtain ⟨x, hx, -⟩ := h.rings.mem_qid.mp hq
    exact hdead hx
  · apply List.eq_nil_iff_forall_not_mem.mpr
    intro q hq
    obtain ⟨x, hx, -⟩ := h.rings.of_mem_timeout hq
    exact hdead hx
  · apply List.eq_nil_iff_forall_not_mem.mpr
    intro q hq
    obtain ⟨x, hx⟩ := h.rings.of_mem_server hq
    exact hdead hx

theorem Ending.assertEmpty (h : Ending ch ch') (hall : ch'.allQueries = []) : assertEmpty ch' = ch' := by
  obtain ⟨-, hqid, htimeout, -⟩ := h.empty hall
  exact if_pos ⟨hall, fun b _ => hqid b, fun b _ => htimeout b⟩

theorem run_ending (cfg : Config) (env : Env) (events : List Event) :
    Ending (run cfg env events) (run cfg env events) :=
  ⟨(run_sound cfg env events).rings, run_answered cfg env events, (run_safety cfg env events).trace, rfl, rfl⟩

/-- A query that ends pays what it owes. -/
theorem Owing.endOne {R : List UInt8 → Reply → Prop} (h : Owing R call total w [] ch.idle) (hx : ch.query q = some x)
    (hlt : q < ch.issued) (hquiet : (x.callback ⟨status, 0, []⟩).Quiet) (hR : R x.qbuf ⟨status, 0, []⟩) :
    Owing R call total (Function.update w q 0) [] (endOne cfg env status ch q x).idle := by
  set ch₁ := ch.emit (.answered q ⟨status, 0, []⟩) with hch
  have howes : (x.callback ⟨status, 0, []⟩).Owes R call (w q) := owes_client.mp (h.waiting hx List.not_mem_nil) _ hR
  have htold : (x.answer cfg env ⟨status, 0, []⟩ ch₁).told call = ch.told call + w q := by
    rw [Query.answer, howes.run_quiet hquiet, hch, told_emit_of_not rfl]
  obtain ⟨calls, acts, heq, -⟩ := hquiet.run_eq cfg env ch₁
  have hquery : (Channel.endOne cfg env status ch q x).query = Function.update ch.query q none := endOne_query hquiet
  have hissued : (Channel.endOne cfg env status ch q x).issued = ch.issued := by
    rw [Channel.endOne, Query.answer, heq]
    rfl
  refine ⟨fun {r y} hy _ => ?_, fun {r} hr => ⟨List.not_mem_nil, ?_⟩, .nil, ?_⟩
  · change (Channel.endOne cfg env status ch q x).query r = some y at hy
    rw [hquery] at hy
    rcases Rings.update_eq_some.mp hy with ⟨-, hy⟩ | ⟨hne, hy⟩
    · cases hy
    · rw [Function.update_of_ne hne]
      exact h.waiting hy List.not_mem_nil
  · change ∃ y, (Channel.endOne cfg env status ch q x).query r = some y
    by_cases hne : r = q
    · subst hne
      exact absurd (Function.update_self _ _ _) hr
    · rw [Function.update_of_ne hne] at hr
      obtain ⟨-, y, hy⟩ := h.live hr
      exact ⟨y, hquery ▸ (Function.update_of_ne hne _ _).trans hy⟩
  · have htotal : ch.told call + ∑ r ∈ Finset.range ch.issued, w r + 0 = total := h.total
    rw [sum_range_update w hlt] at htotal
    change (x.answer cfg env ⟨status, 0, []⟩ ch₁).told call +
      ∑ r ∈ Finset.range (Channel.endOne cfg env status ch q x).issued, Function.update w q 0 r + 0 = total
    rw [htold, hissued]
    omega

/-- A quiet client tells its callers what it has for them. -/
theorem Client.Quiet.told {R : List UInt8 → Reply → Prop} {I : Client → Prop} (hI : Closed R I) {told : Told} :
    ∀ {c : Client}, c.Quiet → I c → ∀ ch : State, .told told ∈ (c.run cfg env ch).trace →
      .told told ∈ ch.trace ∨ ∃ next, I (.tell told next)
  | .done, _, _, _, h => .inl h
  | .stray, _, _, _, h => .inl ((List.mem_append.mp h).resolve_right (by simp))
  | .alloc next, hq, hc, ch, h => (hq (env.malloc ch.calls)).told hI (hI.alloc hc _) ch.tick h
  | .draw next, hq, hc, ch, h => (hq (env.rand ch.calls)).told hI (hI.draw hc _) ch.tick h
  | .tell told' next, hq, hc, ch, h => by
    have hquiet : next.Quiet := hq
    rcases hquiet.told hI (hI.tell hc) (ch.emit (.told told')) h with h | h
    · rcases List.mem_append.mp h with h | h
      · exact .inl h
      · cases List.mem_singleton.mp h
        exact .inr ⟨next, hc⟩
    · exact .inr h

/-- The clients that wait have the property `I`, and so had those that told their callers
something. -/
structure Upheld (I : Client → Prop) (ch : State) : Prop where
  waiting : ∀ {q x}, ch.query q = some x → I x.client
  told : ∀ {told}, .told told ∈ ch.trace → ∃ next, I (.tell told next)

theorem Upheld.endOne {R : List UInt8 → Reply → Prop} {I : Client → Prop} (hI : Closed R I) (h : Upheld I ch)
    (hx : ch.query q = some x) (hquiet : (x.callback ⟨status, 0, []⟩).Quiet) (hR : R x.qbuf ⟨status, 0, []⟩) :
    Upheld I (endOne cfg env status ch q x) where
  waiting {r y} hy := by
    rw [endOne_query hquiet] at hy
    rcases Rings.update_eq_some.mp hy with ⟨-, hy⟩ | ⟨-, hy⟩
    · cases hy
    · exact h.waiting hy
  told {told} hmem := by
    have hI' : I (x.callback ⟨status, 0, []⟩) := hI.reply (h.waiting hx) hR
    rcases hquiet.told hI hI' (ch.emit (.answered q ⟨status, 0, []⟩)) hmem with hmem | hmem
    · exact h.told ((List.mem_append.mp hmem).resolve_right (by simp))
    · exact hmem

/-- Every query that was asked has been called back. -/
theorem Ending.answers (h : Ending ch ch') (hall : ch'.allQueries = []) (q : ℕ) :
    ch'.answers q = if q < ch.issued then 1 else 0 := by
  have hdone : Done ch' [] q ↔ q < ch.issued := by
    rw [Done, h.issued]
    exact and_iff_left (.inl ((h.empty hall).1 q))
  split_ifs with hq
  · exact (h.answered q).1 (hdone.mpr hq)
  · exact (h.answered q).2 fun hd => hq (hdone.mp hd)

/-! ### Connections -/

/-- The server has no sockets, and nothing to send. -/
structure Server.Closed (s : Server) : Prop where
  queue : s.queue = []
  tcpSocket : s.tcpSocket = false
  udpSocket : s.udpSocket = false

theorem closeAll_closed : ∀ (is : List ℕ) (ch : State) (j : ℕ), (j ∈ is ∨ (ch.server j).Closed) →
    ((is.foldl closeSockets ch).server j).Closed
  | [], _, _, h => h.resolve_left List.not_mem_nil
  | i :: is, ch, j, h => by
    apply closeAll_closed is (closeSockets ch i)
    by_cases hj : j = i
    · subst hj
      refine .inr ?_
      rw [closeSockets, State.setServer_self]
      exact ⟨rfl, rfl, rfl⟩
    · rw [closeSockets, State.setServer_of_ne hj]
      exact h.imp_left fun h => (List.mem_cons.mp h).resolve_left hj

theorem closeAll_frame : ∀ (is : List ℕ) (ch : State), (is.foldl closeSockets ch).tables = ch.tables ∧
    (is.foldl closeSockets ch).trace = ch.trace
  | [], _ => ⟨rfl, rfl⟩
  | i :: is, ch => closeAll_frame is (closeSockets ch i)

theorem destroyAll_eq : ∀ (is : List ℕ) (ch : State), (∀ b, ch.toServer b = []) →
    is.foldl destroyServer ch = is.foldl closeSockets ch
  | [], _, _ => rfl
  | i :: is, ch, h => by
    have hi : destroyServer ch i = closeSockets ch i := if_pos (h (some i))
    rw [List.foldl_cons, List.foldl_cons, hi]
    exact destroyAll_eq is (closeSockets ch i) h

/-- When the loop has ended every query, no assertion of `ares_destroy` fails. -/
theorem aresDestroy_eq (heq : endAll cfg env ARES_EDESTRUCTION n ch.allQueries.head? ch = some ch')
    (h : Ending ch ch') (hall : ch'.allQueries = []) :
    aresDestroy cfg env n ch = some ((List.range cfg.nservers).foldl closeSockets ch') := by
  rw [aresDestroy, heq]
  change some ((List.range cfg.nservers).foldl destroyServer (assertEmpty ch')) = _
  rw [h.assertEmpty hall, destroyAll_eq _ ch' (h.empty hall).2.2.2]

/-- In every run, `ares_destroy` ends if the clients that wait send nothing more: no assertion
fails, every connection is closed, and all that was ever asked has been called back once. -/
theorem run_destroy (cfg : Config) (env : Env) (events : List Event)
    (hquit : (run cfg env events).Quits ARES_EDESTRUCTION) :
    ∃ ch, aresDestroy cfg env (run cfg env events).allQueries.length (run cfg env events) = some ch ∧
      Act.fault ∉ ch.trace ∧ ch.allQueries = [] ∧ (∀ i < cfg.nservers, (ch.server i).Closed) ∧
      ∀ q, ch.answers q = if q < (run cfg env events).issued then 1 else 0 := by
  obtain ⟨ch, heq, h, hall, -⟩ := endAll_eq (P := fun _ => True) cfg env (fun _ _ _ _ => trivial) hquit rfl le_rfl
    (run_ending cfg env events) trivial
  have hframe := closeAll_frame (List.range cfg.nservers) ch
  refine ⟨(List.range cfg.nservers).foldl closeSockets ch, aresDestroy_eq heq h hall, ?_, ?_, ?_, ?_⟩
  · rw [hframe.2]
    exact h.trace
  · exact (congrArg Tables.allQueries hframe.1).trans hall
  · exact fun i hi => closeAll_closed _ ch i (.inl (List.mem_range.mpr hi))
  · intro q
    rw [State.answers, hframe.2]
    exact h.answers hall q

/-- The callers have been told all that they were owed when `ares_destroy` returns, and told it
by clients with the property `I`, if the clients have it, keep it and quit by it. -/
theorem run_destroy_told (cfg : Config) (env : Env) (events : List Event) {I : Client → Prop}
    (hI : Closed (Credible cfg env events) I)
    (hquit : ∀ {qbuf callback}, I (.ask qbuf callback .done) → (callback ⟨ARES_EDESTRUCTION, 0, []⟩).Quiet)
    (due : ℕ → Client → ℕ)
    (hstart : ∀ c, .run c ∈ events → I c ∧ ∀ call, c.Owes (Credible cfg env events) call (due call c)) :
    ∃ ch, aresDestroy cfg env (run cfg env events).allQueries.length (run cfg env events) = some ch ∧
      (∀ call, ch.told call = (events.map (Event.due (due call))).sum) ∧
      ∀ told, .told told ∈ ch.trace → ∃ next, I (.tell told next) := by
  have hserved := run_served cfg env events hI fun c hc => (hstart c hc).1
  have hquits : (run cfg env events).Quits ARES_EDESTRUCTION := fun q x hx => hquit (hserved.waiting hx)
  have hfail : ARES_EDESTRUCTION ≠ ARES_SUCCESS := by decide
  have howed : ∀ call, ∃ w, Owing (Credible cfg env events) call (events.map (Event.due (due call))).sum w []
      (run cfg env events).idle := by
    intro call
    obtain ⟨w, hw, hlive, htotal⟩ := run_owed cfg env events call (due call) fun c hc => (hstart c hc).2 call
    exact ⟨w, fun hx _ => hw _ _ hx, fun hq => ⟨List.not_mem_nil, hlive _ hq⟩, .nil, htotal⟩
  have hfailed : ∀ qbuf, Credible cfg env events qbuf ⟨ARES_EDESTRUCTION, 0, []⟩ :=
    fun qbuf => credible_of_failure cfg env events qbuf hfail 0 []
  obtain ⟨ch, heq, h, hall, hend, hwaiting⟩ := endAll_eq (P := fun ch => (∀ call, ∃ w,
      Owing (Credible cfg env events) call (events.map (Event.due (due call))).sum w [] ch.idle) ∧ Upheld I ch) cfg env
    (fun h hx hquiet hP => by
      refine ⟨fun call => ?_, hP.2.endOne hI hx hquiet (hfailed _)⟩
      obtain ⟨w, ho⟩ := hP.1 call
      exact ⟨_, ho.endOne hx (h.rings.fresh hx) hquiet (hfailed _)⟩)
    hquits rfl le_rfl (run_ending cfg env events) ⟨howed, hserved.waiting, hserved.told⟩
  have hframe := closeAll_frame (List.range cfg.nservers) ch
  refine ⟨(List.range cfg.nservers).foldl closeSockets ch, aresDestroy_eq heq h hall, ?_,
    fun told htold => hwaiting.told (hframe.2 ▸ htold)⟩
  intro call
  obtain ⟨w, ho⟩ := hend call
  have hzero : ∀ q, w q = 0 := by
    intro q
    by_contra hq
    obtain ⟨-, x, hx⟩ := ho.live hq
    exact Option.some_ne_none x (hx.symm.trans ((h.empty hall).1 q))
  rw [State.told, hframe.2, ← ho.total, Finset.sum_eq_zero fun q _ => hzero q]
  rfl

/-- With no queries left, a request must have its own data, or none. -/
theorem backed_iff {query : ℕ → Option Query} {r : SendRequest} (h : ∀ q, query q = none) :
    r.Backed query [] ↔ r.ownerQuery = none ∧ (r.dataStorage = true ∨ r.data = []) := by
  rw [SendRequest.Backed]
  cases r.ownerQuery with
  | none => exact (and_iff_right rfl).symm
  | some q => simp [h]

theorem SendRequest.Backed.stored {query : ℕ → Option Query} {E : List ℕ} {r : SendRequest} (h : r.Backed query E)
    (ho : r.ownerQuery = none) : r.dataStorage = true ∨ r.data = [] := by
  rwa [SendRequest.Backed, ho] at h

/-- After `ares_cancel` no request in a send queue uses a query that was freed, just if the
connections are closed, or no query had a request of its own waiting. -/
theorem run_cancel (cfg : Config) (env : Env) (events : List Event)
    (hquit : (run cfg env events).Quits ARES_ECANCELLED) :
    ∃ ch, aresCancel cfg env (run cfg env events).allQueries.length (run cfg env events) = some ch ∧
      Act.fault ∉ ch.trace ∧ (∀ q, ch.answers q = if q < (run cfg env events).issued then 1 else 0) ∧
      ((∀ i < cfg.nservers, ∀ r ∈ (ch.server i).queue, r.Backed ch.query []) ↔
        ¬ cfg.has ARES_FLAG_STAYOPEN ∨
          ∀ i < cfg.nservers, ∀ r ∈ ((run cfg env events).server i).queue, r.ownerQuery = none) := by
  obtain ⟨ch, heq, h, hall, -⟩ := endAll_eq (P := fun _ => True) cfg env (fun _ _ _ _ => trivial) hquit rfl le_rfl
    (run_ending cfg env events) trivial
  have hcancel : aresCancel cfg env (run cfg env events).allQueries.length (run cfg env events) =
      some (if ¬ cfg.has ARES_FLAG_STAYOPEN then (List.range cfg.nservers).foldl closeSockets ch else ch) := by
    rw [aresCancel, heq]
    change some (if ¬ cfg.has ARES_FLAG_STAYOPEN then (List.range cfg.nservers).foldl closeSockets (assertEmpty ch)
      else assertEmpty ch) = _
    rw [h.assertEmpty hall]
  have hframe := closeAll_frame (List.range cfg.nservers) ch
  refine ⟨_, hcancel, ?_⟩
  by_cases hstay : ¬ cfg.has ARES_FLAG_STAYOPEN = true
  · rw [if_pos hstay]
    refine ⟨hframe.2 ▸ h.trace, fun q => ?_, iff_of_true (fun i hi r hr => ?_) (.inl hstay)⟩
    · rw [State.answers, hframe.2]
      exact h.answers hall q
    · have hclosed := closeAll_closed (List.range cfg.nservers) ch i (.inl (List.mem_range.mpr hi))
      rw [hclosed.queue] at hr
      exact absurd hr List.not_mem_nil
  · rw [if_neg hstay]
    refine ⟨h.trace, h.answers hall, ?_⟩
    rw [h.server, or_iff_right hstay]
    refine forall₄_congr fun i hi r hr => ?_
    rw [backed_iff (h.empty hall).1]
    exact and_iff_left_of_imp fun ho => ((run_safety cfg env events).queue i hi r hr).stored ho

/-- A client's query waits for the connection, and the sockets stay open. -/
def Config.stayopen : Config := { Config.single with flags := ARES_FLAG_USEVC ||| ARES_FLAG_STAYOPEN }

theorem once_quits (status : UInt32) : (run .stayopen (.steady 0) [.run .once]).Quits status := by
  intro q x hx
  match q with
  | 0 =>
    obtain rfl := Option.some.inj (show some _ = some x from hx)
    exact trivial
  | q + 1 => exact absurd (show none = some x from hx) nofun

theorem run_destroy_sample :
    ∃ ch, aresDestroy .stayopen (.steady 0) 1 (run .stayopen (.steady 0) [.run .once]) = some ch ∧
      Act.fault ∉ ch.trace ∧ ch.allQueries = [] ∧ (∀ i < 1, (ch.server i).Closed) ∧
      ∀ q, ch.answers q = if q < 1 then 1 else 0 :=
  run_destroy .stayopen (.steady 0) [.run .once] (once_quits _)

/-- The request that waits uses the query that was freed. -/
theorem run_cancel_sample :
    ∃ ch, aresCancel .stayopen (.steady 0) 1 (run .stayopen (.steady 0) [.run .once]) = some ch ∧
      ¬ ∀ i < 1, ∀ r ∈ (ch.server i).queue, r.Backed ch.query [] := by
  obtain ⟨ch, heq, -, -, hiff⟩ := run_cancel .stayopen (.steady 0) [.run .once] (once_quits _)
  refine ⟨ch, heq, fun hall => ?_⟩
  rcases hiff.mp hall with hflag | hnone
  · exact hflag rfl
  · exact absurd (hnone 0 Nat.one_pos _ List.mem_cons_self) nofun

end FakeDns.Channel
