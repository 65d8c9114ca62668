import FakeDns.Channel.Input
import FakeDns.Channel.Rings

/-! Everything a channel does is made of moves. The clients' own calls come in between: while
a query is in hand, a client touches none but the queries that it sends itself. -/

namespace FakeDns.Channel

open ByteMemory

/-- What a query knows of its servers: it was sent to one of them, and on no connection that
is yet to come. A query that has not used TCP was sent on no connection. Its length fits
into a length word. -/
structure Fits (cfg : Config) (server : ℕ → Server) (x : Query) : Prop where
  server_lt : x.server < cfg.nservers
  generation_le : ∀ i < cfg.nservers, (x.serverInfo i).tcpConnectionGeneration ≤ (server i).generation
  unused : x.usingTcp = false → ∀ i, (x.serverInfo i).tcpConnectionGeneration = 0
  error : x.errorStatus ≠ ARES_SUCCESS
  length_lt : x.qbuf.length < 2 ^ 16

/-- The connections are numbered upwards, what was read of a message is in order, and the time
is one that the clock has shown. -/
structure Conns (cfg : Config) (env : Env) (ch : State) : Prop where
  lastServer : ch.lastServer < cfg.nservers
  generation : ∀ i < cfg.nservers, 0 < (ch.server i).generation ∧ (ch.server i).generation ≤ ch.generation
  fits : ∀ {q x}, ch.query q = some x → Fits cfg ch.server x
  input : ∀ i, (ch.server i).input.Pending
  clock : ∃ c < ch.calls, ch.now = env.tvnow c

variable {cfg : Config} {env : Env} {S T : Set ℕ} {σ τ : Sys} {ch ch' : State} {q i : ℕ} {x y : Query}

theorem Conns.current (h : Conns cfg env ch) : Current env ch ch.now := ⟨h.clock, fun _ => le_rfl⟩

theorem Fits.of_le {server server' : ℕ → Server} (h : Fits cfg server x)
    (hg : ∀ i < cfg.nservers, (server i).generation ≤ (server' i).generation) : Fits cfg server' x :=
  ⟨h.server_lt, fun i hi => (h.generation_le i hi).trans (hg i hi), h.unused, h.error, h.length_lt⟩

theorem Fits.skip {server : ℕ → Server} (h : Fits cfg server x) (i : ℕ) : Fits cfg server (x.skip i) := by
  have hg : ∀ j, ((x.skip i).serverInfo j).tcpConnectionGeneration = (x.serverInfo j).tcpConnectionGeneration := by
    intro j
    rw [Query.skip]
    by_cases hj : j = i
    · subst hj
      simp
    · simp [hj]
  exact ⟨h.server_lt, fun j hj => (hg j).trans_le (h.generation_le j hj), fun ht j => (hg j).trans (h.unused ht j),
    h.error, h.length_lt⟩

theorem Fits.sentOn {server : ℕ → Server} (h : Fits cfg server x) (ht : x.usingTcp = true) (i : ℕ) :
    Fits cfg server (x.sentOn i (server i).generation) := by
  refine ⟨h.server_lt, fun j hj => ?_, fun hu => absurd (ht.symm.trans hu) nofun, h.error, h.length_lt⟩
  rw [Query.sentOn]
  by_cases hji : j = i
  · subst hji
    simp
  · simpa [hji] using h.generation_le j hj

theorem Conns.step (h : Conns cfg env ch) (hl : ch'.lastServer < cfg.nservers)
    (hg : ∀ i < cfg.nservers, (ch.server i).generation ≤ (ch'.server i).generation ∧
      (ch'.server i).generation ≤ ch'.generation)
    (hq : ∀ q x, ch'.query q = some x → ch.query q = some x ∨ Fits cfg ch'.server x)
    (hin : ∀ i, (ch'.server i).input.Pending) (hcalls : ch.calls ≤ ch'.calls) (hnow : ch'.now = ch.now) :
    Conns cfg env ch' where
  lastServer := hl
  generation i hi := ⟨(h.generation i hi).1.trans_le (hg i hi).1, (hg i hi).2⟩
  fits {q x} hx := (hq q x hx).elim (fun hx => (h.fits hx).of_le fun i hi => (hg i hi).1) id
  input := hin
  clock := by
    obtain ⟨c, hc, hnow'⟩ := h.clock
    exact ⟨c, hc.trans_le hcalls, hnow.trans hnow'⟩

/-- The same connection, and the same of its next message. -/
def Server.Keeps (s t : Server) : Prop := s.generation = t.generation ∧ s.input = t.input

theorem releaseServer_keeps (q : ℕ) (status : UInt32) (ch : State) (i j : ℕ) :
    ((releaseServer env q status ch i).server j).Keeps (ch.server j) := by
  simp only [releaseServer]
  by_cases hj : j = i
  · subst hj
    rw [State.setServer_self]
    exact ⟨rfl, rfl⟩
  · rw [State.setServer_of_ne hj]
    split <;> exact ⟨rfl, rfl⟩

theorem releaseServer_fields (q : ℕ) (status : UInt32) (ch : State) (i : ℕ) :
    (releaseServer env q status ch i).lastServer = ch.lastServer ∧
      (releaseServer env q status ch i).generation = ch.generation := by
  simp only [releaseServer]
  split <;> exact ⟨rfl, rfl⟩

/-- Replacing a server by one of the same connection. -/
theorem setServer_keeps {s : Server} (hs : s.Keeps (ch.server i)) (j : ℕ) :
    ((ch.setServer i s).server j).Keeps (ch.server j) := by
  by_cases hj : j = i
  · subst hj
    rwa [State.setServer_self]
  · rw [State.setServer_of_ne hj]
    exact ⟨rfl, rfl⟩

/-- Replacing what was read of a message. -/
theorem Conns.setInput (h : Conns cfg env ch) {s : Server} (hs : s.input.Pending) (j : ℕ) :
    (Function.update ch.server i s j).input.Pending := by
  by_cases hj : j = i
  · subst hj
    rwa [Function.update_self]
  · rw [Function.update_of_ne hj]
    exact h.input j

/-- Starting a new connection with a server. -/
theorem Conns.renew (h : Conns cfg env ch) {s : Server} (hs : s.generation = ch.generation + 1) {j : ℕ}
    (hj : j < cfg.nservers) :
    (ch.server j).generation ≤ (Function.update ch.server i s j).generation ∧
      (Function.update ch.server i s j).generation ≤ ch.generation + 1 := by
  have := h.generation j hj
  by_cases hji : j = i
  · subst hji
    rw [Function.update_self, hs]
    omega
  · rw [Function.update_of_ne hji]
    omega

theorem Conns.closeSockets (h : Conns cfg env ch) (i : ℕ) : Conns cfg env (closeSockets ch i) := by
  apply h.step
  · exact h.lastServer
  · intro j hj
    simp only [Channel.closeSockets, State.setServer]
    by_cases ht : (ch.server i).tcpSocket = true
    · simp only [ht, if_true]
      exact h.renew rfl hj
    · simp only [ht]
      by_cases hji : j = i
      · subst hji
        rw [Function.update_self]
        exact ⟨le_rfl, (h.generation j hj).2⟩
      · rw [Function.update_of_ne hji]
        exact ⟨le_rfl, (h.generation j hj).2⟩
  · exact fun q x hx => .inl hx
  · exact h.setInput (pending_empty _)
  · exact le_rfl
  · rfl

/-- Changing one query. -/
theorem Conns.setQuery (h : Conns cfg env ch) (hl : ch'.lastServer < cfg.nservers)
    (hg : ∀ i, (ch'.server i).Keeps (ch.server i)) (hgen : ch'.generation = ch.generation)
    (hq : ch'.query = Function.update ch.query q (some y)) (hcalls : ch.calls ≤ ch'.calls) (hnow : ch'.now = ch.now)
    (hy : Fits cfg ch.server y) : Conns cfg env ch' := by
  refine h.step hl (fun i hi => ⟨(hg i).1.ge, ?_⟩) (fun r z hz => ?_) (fun i => (hg i).2 ▸ h.input i) hcalls hnow
  · rw [(hg i).1, hgen]
    exact (h.generation i hi).2
  · rw [hq] at hz
    rcases Rings.update_eq_some.mp hz with ⟨-, hz⟩ | ⟨-, hz⟩
    · exact .inr (Option.some.inj hz ▸ hy.of_le fun i _ => (hg i).1.ge)
    · exact .inl hz

theorem Move.conns (h : Move cfg env S σ τ) (hc : Conns cfg env σ.ch) : Conns cfg env τ.ch := by
  have hcalls := h.calls_le
  have hnow := h.clock_eq.1
  have hsame : ∀ {ch : State}, Conns cfg env ch → ∀ i < cfg.nservers, (ch.server i).generation ≤
      (ch.server i).generation ∧ (ch.server i).generation ≤ ch.generation :=
    fun hc i hi => ⟨le_rfl, (hc.generation i hi).2⟩
  cases h with
  | tick | done | stray | alloc | draw | tell | refuse | pick | steal | answer =>
    exact hc.step hc.lastServer (hsame hc) (fun _ _ hx => .inl hx) hc.input hcalls hnow
  | enlist _ hlen =>
    refine hc.setQuery ?_ (fun _ => ⟨rfl, rfl⟩) rfl rfl hcalls hnow ⟨hc.lastServer, fun _ _ => Nat.zero_le _,
      fun _ _ => rfl, show ARES_ECONNREFUSED ≠ ARES_SUCCESS by decide, hlen.2⟩
    simp only [Channel.enlist, ask, State.emit]
    split_ifs
    · exact Nat.mod_lt _ cfg.nservers_pos
    · exact hc.lastServer
  | late _ hx =>
    exact hc.setQuery hc.lastServer (fun _ => ⟨rfl, rfl⟩) rfl rfl hcalls hnow
      ⟨(hc.fits hx).server_lt, (hc.fits hx).generation_le, (hc.fits hx).unused,
        show ARES_ETIMEOUT ≠ ARES_SUCCESS by decide, (hc.fits hx).length_lt⟩
  | retry _ hx _ hs =>
    exact hc.setQuery hc.lastServer (fun _ => ⟨rfl, rfl⟩) rfl rfl hcalls hnow
      ⟨hs, (hc.fits hx).generation_le, (hc.fits hx).unused, (hc.fits hx).error, (hc.fits hx).length_lt⟩
  | skip _ hx => exact hc.setQuery hc.lastServer (fun _ => ⟨rfl, rfl⟩) rfl rfl hcalls hnow ((hc.fits hx).skip _)
  | useTcp _ hx =>
    exact hc.setQuery hc.lastServer (fun _ => ⟨rfl, rfl⟩) rfl rfl hcalls hnow
      ⟨(hc.fits hx).server_lt, (hc.fits hx).generation_le, fun h => absurd h nofun, (hc.fits hx).error,
        (hc.fits hx).length_lt⟩
  | @openTcp _ _ _ _ _ i =>
    exact hc.step hc.lastServer (fun _ hj => hc.renew rfl hj) (fun _ _ hx => .inl hx)
      (hc.setInput (hc.input i).clear) hcalls hnow
  | @openUdp _ _ _ _ _ i | @write _ _ _ _ _ i =>
    refine hc.step hc.lastServer (fun j hj => ?_) (fun _ _ hx => .inl hx) (hc.setInput (hc.input i)) hcalls hnow
    rw [(setServer_keeps (by exact ⟨rfl, rfl⟩) _).1]
    exact hsame hc j hj
  | @queue ch _ _ _ _ x _ _ hx _ ht =>
    refine hc.setQuery hc.lastServer (fun j => setServer_keeps (by exact ⟨rfl, rfl⟩) j) rfl rfl hcalls hnow ?_
    have hfit := (hc.fits hx).sentOn ht x.server
    exact ⟨hfit.server_lt, hfit.generation_le, hfit.unused, hfit.error, hfit.length_lt⟩
  | send _ hx =>
    have hfit := hc.fits hx
    exact hc.setQuery hc.lastServer (fun _ => ⟨rfl, rfl⟩) rfl rfl hcalls hnow
      ⟨hfit.server_lt, hfit.generation_le, hfit.unused, hfit.error, hfit.length_lt⟩
  | release =>
    refine hc.step ?_ (fun j hj => ?_) (fun q x hx => .inl ?_) (fun j => ?_) hcalls hnow
    · rw [(releaseServer_fields _ _ _ _).1]
      exact hc.lastServer
    · rw [(releaseServer_keeps _ _ _ _ _).1, (releaseServer_fields _ _ _ _).2]
      exact hsame hc j hj
    · rwa [releaseServer_query] at hx
    · rw [(releaseServer_keeps _ _ _ _ _).2]
      exact hc.input j
  | free =>
    refine hc.step hc.lastServer (hsame hc) (fun r x hx => .inl ?_) hc.input hcalls hnow
    rcases Rings.update_eq_some.mp hx with ⟨-, hx⟩ | ⟨-, hx⟩
    · cases hx
    · exact hx
  | close => exact hc.closeSockets _

/-- What holds of every query that is not in hand. -/
def Waiting (P : ℕ → Query → Prop) (σ : Sys) : Prop :=
  ∀ q x, σ.ch.query q = some x → q ∉ σ.hand → P q x

theorem waiting_update {P : ℕ → Query → Prop} {H : List ℕ} {a : Bool} {E : List ℕ} {K : List Client}
    (h : Waiting P ⟨ch, H, E, a, K⟩)
    (hq : ch'.query = Function.update ch.query q (some y)) {H' E' : List ℕ} {a' : Bool} {K' : List Client}
    (hH : ∀ r, r ≠ q → r ∉ H' → r ∉ H) (hy : q ∉ H' → P q y) : Waiting P ⟨ch', H', E', a', K'⟩ := by
  intro r z hz hr
  rw [hq] at hz
  rcases Rings.update_eq_some.mp hz with ⟨hrq, hyz⟩ | ⟨hne, hz⟩
  · exact hrq ▸ Option.some.inj hyz ▸ hy (hrq ▸ hr)
  · exact h r z hz (hH r hne hr)

/-- A query leaves the hands of the channel only when it has been sent. -/
theorem Move.waiting {P : ℕ → Query → Prop} (h : Move cfg env S σ τ) (hskip : ∀ q x i, P q x → P q (x.skip i))
    (hsent : ∀ (q : ℕ) (y : Query) (now : Timeval) (rand : ℕ), y.tryCount < cfg.attempts →
      Current env σ.ch now →
      P q { y with timeout := timeadd now (timeplus cfg y rand) })
    (hP : Waiting P σ) : Waiting P τ := by
  have hcons : ∀ {H : List ℕ} {q : ℕ}, ∀ r, r ≠ q → r ∉ H → r ∉ q :: H :=
    fun _ hne hr => List.not_mem_cons_of_ne_of_not_mem hne hr
  cases h with
  | tick | done | stray | alloc | draw | tell | refuse | openTcp | openUdp | answer | close | write => exact hP
  | enlist =>
    exact waiting_update hP rfl (fun _ _ hr hH => hr (List.mem_cons_of_mem _ hH)) fun h =>
      absurd List.mem_cons_self h
  | pick => exact fun r z hx hr => hP r z hx fun hH => hr (List.mem_cons_of_mem _ hH)
  | steal => exact fun r z hx _ => hP r z hx List.not_mem_nil
  | late | retry | useTcp =>
    exact waiting_update hP rfl (fun _ _ hr => hr) fun h => absurd List.mem_cons_self h
  | skip _ hx => exact waiting_update hP rfl (fun _ _ hr => hr) fun h => hskip _ _ _ (hP _ _ hx h)
  | @queue ch _ _ _ q x now _ _ _ _ _ _ _ hn hnow =>
    apply waiting_update hP rfl hcons
    exact fun _ => hsent q (x.sentOn x.server (ch.server x.server).generation) now _ hn hnow
  | @send ch _ _ _ q x now _ _ _ _ hn hnow =>
    apply waiting_update hP rfl hcons
    exact fun _ => hsent q x now _ hn hnow
  | release =>
    intro r z hz hr
    rw [releaseServer_query] at hz
    exact hP r z hz hr
  | free =>
    intro r z hz hr
    rcases Rings.update_eq_some.mp hz with ⟨-, hz⟩ | ⟨hne, hz⟩
    · cases hz
    · exact hP r z hz (hcons r hne hr)

/-- A query that is not in hand was not sent too often. -/
def Settled (cfg : Config) : Sys → Prop := Waiting fun _ x => x.tryCount < cfg.attempts

theorem Moves.settled (h : Moves cfg env S σ τ) (hs : Settled cfg σ) : Settled cfg τ :=
  h.keep (P := Settled cfg) (fun _ _ hm => hm.waiting (fun _ _ _ hn => hn) fun _ _ _ _ hn _ => hn) hs

theorem Moves.conns (h : Moves cfg env S σ τ) (hc : Conns cfg env σ.ch) : Conns cfg env τ.ch :=
  h.keep (P := fun σ => Conns cfg env σ.ch) (fun _ _ hm => hm.conns) hc

/-! ### Sending -/

variable {H E : List ℕ} {K : List Client} {a : Bool} {status : UInt32} {abuf : List UInt8} {now : Timeval}

/-- `skip_server` changes nothing of a query but what it knows of its servers. -/
theorem skipServer_moves (cfg : Config) (env : Env) (H : List ℕ) (a : Bool) (K : List Client) (hx : ch.query q = some x)
    (hE : q ∉ E) (i : ℕ) :
    Moves cfg env {q} ⟨ch, H, E, a, K⟩ ⟨skipServer cfg ch q i, H, E, a, K⟩ ∧
      ∃ y, (skipServer cfg ch q i).query q = some y ∧ y.server = x.server ∧ y.tryCount = x.tryCount ∧
        y.callback = x.callback := by
  rw [skipServer, State.withQuery_some hx]
  split_ifs
  · exact ⟨.single (.skip rfl hx hE), x.skip i, Function.update_self _ _ _, rfl, rfl, rfl⟩
  · exact ⟨.refl, x, hx, rfl, rfl, rfl⟩

theorem openTcpSocket_moves (hc : Conns cfg env ch) (hx : ch.query q = some x) (hs : x.server < cfg.nservers)
    (ho : (x.serverInfo x.server).tcpConnectionGeneration < (ch.server x.server).generation)
    (h : openTcpSocket env ch x.server = some ch') :
    Moves cfg env {q} ⟨ch, H, E, a, K⟩ ⟨ch', H, E, a, K⟩ ∧ ch'.query q = some x ∧
      (ch'.server x.server).tcpSocket = true ∧
      (x.serverInfo x.server).tcpConnectionGeneration < (ch'.server x.server).generation := by
  simp only [openTcpSocket] at h
  split_ifs at h with ht hopen
  · cases h
    exact ⟨.refl, hx, ht, ho⟩
  · cases h
    have hle := (hc.generation _ hs).2
    refine ⟨.tail (.single .tick) (.openTcp hs (Bool.not_eq_true _ ▸ ht)), hx, ?_, ?_⟩
    · rw [State.setServer_self]
    · rw [State.setServer_self]
      exact Nat.lt_succ_of_lt (ho.trans_le hle)

theorem openUdpSocket_moves (cfg : Config) (hx : ch.query q = some x) (h : openUdpSocket env ch i = some ch') :
    Moves cfg env {q} ⟨ch, H, E, a, K⟩ ⟨ch', H, E, a, K⟩ ∧ ch'.query q = some x := by
  simp only [openUdpSocket] at h
  split_ifs at h
  · cases h
    exact ⟨.refl, hx⟩
  · cases h
    exact ⟨.tail (.single .tick) .openUdp, hx⟩

/-- A try to send either sends the query, or leaves it in hand. -/
theorem trySend_moves (hc : Conns cfg env ch) (hx : ch.query q = some x) (hE : q ∉ E) (hn : x.tryCount < cfg.attempts)
    (ho : x.usingTcp = true →
      (x.serverInfo x.server).tcpConnectionGeneration < (ch.server x.server).generation)
    (hnow : Current env ch now) :
    (∃ ch', trySend cfg env now ch q x = (.sent, ch') ∧
      Moves cfg env {q} ⟨ch, q :: H, E, true, K⟩ ⟨ch', H, E, false, K⟩) ∨
    ∃ ch' y, (trySend cfg env now ch q x = (.failed, ch') ∨ trySend cfg env now ch q x = (.nomem, ch')) ∧
      Moves cfg env {q} ⟨ch, q :: H, E, true, K⟩ ⟨ch', q :: H, E, true, K⟩ ∧ ch'.query q = some y ∧
      y.tryCount = x.tryCount ∧ y.callback = x.callback := by
  have hs := (hc.fits hx).server_lt
  have hfail : ∀ {ch : State} (i : ℕ), ch.query q = some x →
      Moves cfg env {q} ⟨ch, q :: H, E, true, K⟩ ⟨skipServer cfg ch.tick q i, q :: H, E, true, K⟩ ∧
        ∃ y, (skipServer cfg ch.tick q i).query q = some y ∧ y.tryCount = x.tryCount ∧ y.callback = x.callback := by
    intro ch i hx
    obtain ⟨hm, y, hy, -, hcount⟩ :=
      skipServer_moves cfg env (q :: H) true K (show ch.tick.query q = some x from hx) hE i
    exact ⟨.trans (.single .tick) hm, y, hy, hcount⟩
  rw [trySend]
  dsimp only
  cases ht : x.usingTcp with
  | true =>
    rw [if_pos rfl]
    cases hopen : openTcpSocket env ch x.server with
    | none =>
      obtain ⟨hm, y, hy⟩ := hfail x.server hx
      exact .inr ⟨_, y, .inl rfl, hm, hy⟩
    | some ch' =>
      obtain ⟨hm, hx', hsock, hgen⟩ :=
        openTcpSocket_moves (a := true) (E := E) (H := q :: H) (K := K) hc hx hs (ho ht) hopen
      dsimp only
      split_ifs
      · exact .inl ⟨_, rfl, hm.tail (.queue rfl hx' hE ht hs hgen hsock hn (hnow.moves hm))⟩
      · exact .inr ⟨_, x, .inr rfl, hm.tail .tick, hx', rfl, rfl⟩
  | false =>
    rw [if_neg Bool.false_ne_true]
    cases hopen : openUdpSocket env ch x.server with
    | none =>
      obtain ⟨hm, y, hy⟩ := hfail x.server hx
      exact .inr ⟨_, y, .inl rfl, hm, hy⟩
    | some ch' =>
      obtain ⟨hm, hx'⟩ := openUdpSocket_moves cfg (E := E) (a := true) (H := q :: H) (K := K) hx hopen
      dsimp only
      split_ifs
      · exact .inl ⟨_, rfl, hm.tail (.send rfl hx' hE ht hn (hnow.moves hm))⟩
      · obtain ⟨hm', y, hy⟩ := hfail x.server hx'
        exact .inr ⟨_, y, .inl rfl, hm.trans hm', hy⟩

/-! ### Ending -/

/-- No request of the server is for the query. -/
def Server.Released (s : Server) (q : ℕ) : Prop := ∀ r ∈ s.queue, r.ownerQuery ≠ some q

/-- What the loop of `end_query` leaves of a queue: other queries' requests, and requests
without an owner that have their own data or none. -/
theorem mem_releaseRequests (q : ℕ) (status : UInt32) (queue : List SendRequest) :
    ∀ calls, ∀ r ∈ (releaseRequests env q status calls queue).1,
      (r ∈ queue ∧ r.ownerQuery ≠ some q) ∨ r.ownerQuery = none ∧ (r.dataStorage = true ∨ r.data = []) := by
  induction queue with
  | nil => exact fun _ _ hr => absurd hr List.not_mem_nil
  | cons s queue ih =>
    intro calls r hr
    have htail : ∀ calls, r ∈ (releaseRequests env q status calls queue).1 →
        (r ∈ s :: queue ∧ r.ownerQuery ≠ some q) ∨ r.ownerQuery = none ∧ (r.dataStorage = true ∨ r.data = []) :=
      fun calls hr => (ih calls r hr).imp_left fun h => ⟨List.mem_cons_of_mem s h.1, h.2⟩
    simp only [releaseRequests] at hr
    split_ifs at hr with hs hstatus hmalloc
    · rcases List.mem_cons.mp hr with rfl | hr
      · exact .inr ⟨rfl, .inl rfl⟩
      · exact htail _ hr
    · rcases List.mem_cons.mp hr with rfl | hr
      · exact .inr ⟨rfl, .inr rfl⟩
      · exact htail _ hr
    · rcases List.mem_cons.mp hr with rfl | hr
      · exact .inr ⟨rfl, .inr rfl⟩
      · exact htail _ hr
    · rcases List.mem_cons.mp hr with rfl | hr
      · exact .inl ⟨List.mem_cons_self, hs⟩
      · exact htail _ hr

theorem releaseServer_released (q : ℕ) (status : UInt32) (ch : State) (i j : ℕ)
    (h : j = i ∨ (ch.server j).Released q) : ((releaseServer env q status ch i).server j).Released q := by
  simp only [releaseServer]
  by_cases hj : j = i
  · subst hj
    rw [State.setServer_self]
    intro r hr
    rcases mem_releaseRequests q status _ _ r hr with ⟨-, hr⟩ | ⟨hr, -⟩
    · exact hr
    · exact hr ▸ (Option.some_ne_none q).symm
  · rw [State.setServer_of_ne hj]
    split <;> exact h.resolve_left hj

/-- The first loop of `end_query`. -/
theorem releaseAll_moves (env : Env) (status : UInt32) (hE : q ∉ E) : ∀ (is : List ℕ) (ch : State),
    (∀ i ∈ is, i < cfg.nservers) →
    Moves cfg env {q} ⟨ch, q :: H, E, a, K⟩ ⟨is.foldl (releaseServer env q status) ch, q :: H, E, a, K⟩ ∧
      ∀ j, (j ∈ is ∨ (ch.server j).Released q) → ((is.foldl (releaseServer env q status) ch).server j).Released q
  | [], _, _ => ⟨.refl, fun _ h => h.resolve_left List.not_mem_nil⟩
  | i :: is, ch, hi => by
    obtain ⟨hm, hr⟩ := releaseAll_moves env status hE is (releaseServer env q status ch i)
      fun j hj => hi j (List.mem_cons_of_mem i hj)
    refine ⟨.head (.release rfl hE (hi i List.mem_cons_self)) hm, fun j hj => hr j ?_⟩
    rcases hj with hj | hj
    · exact (List.mem_cons.mp hj).elim (fun e => .inr (releaseServer_released q status ch i j (.inl e))) .inl
    · exact .inr (releaseServer_released q status ch i j (.inr hj))

theorem closeAll_moves : ∀ (is : List ℕ) (ch : State),
    Moves cfg env S ⟨ch, H, E, a, K⟩ ⟨is.foldl closeSockets ch, H, E, a, K⟩
  | [], _ => .refl
  | i :: is, ch => .head .close (closeAll_moves is (closeSockets ch i))

/-- What a client does when it is called back: with nothing left to send in hand, it sends
queries of its own. -/
def Silent (cfg : Config) (env : Env) (callback : Reply → Client) (answer : Reply → State → State) : Prop :=
  ∀ (reply : Reply) (ch : State) (H E : List ℕ) (K : List Client), Conns cfg env ch → (∀ r ∈ E, r < ch.issued) →
    Moves cfg env (Set.Ici ch.issued) ⟨ch, H, E, false, callback reply :: K⟩ ⟨answer reply ch, H, E, false, K⟩

/-- The query `q` and those that are yet to come. -/
def Own (q : ℕ) (ch : State) : Set ℕ := {r | r = q ∨ ch.issued ≤ r}

theorem singleton_subset_own : {q} ⊆ Own q ch := fun _ hr => .inl hr

variable {answer : Reply → State → State} {callback : Reply → Client}

theorem endQuery_moves (ha : Silent cfg env x.callback answer) (hc : Conns cfg env ch) (hx : ch.query q = some x)
    (hq : q < ch.issued) (hE : q ∉ E) (hissued : ∀ r ∈ E, r < ch.issued)
    (hg : status = ARES_SUCCESS → Genuine cfg ch x abuf) :
    Moves cfg env (Own q ch) ⟨ch, q :: H, E, a, K⟩ ⟨endQuery cfg env answer ch q status abuf, H, E, false, K⟩ := by
  rw [endQuery, State.withQuery_some hx]
  obtain ⟨hm, hr⟩ := releaseAll_moves env (H := H) (K := K) (a := a) status hE (List.range cfg.nservers) ch
    fun i (hi : i ∈ List.range cfg.nservers) => List.mem_range.mp hi
  set ch₁ := (List.range cfg.nservers).foldl (releaseServer env q status) ch
  have hx₁ : ch₁.query q = some x := by
    have hquery : ∀ (is : List ℕ) (ch : State), (is.foldl (releaseServer env q status) ch).query = ch.query := by
      intro is
      induction is with
      | nil => exact fun _ => rfl
      | cons i is ih => exact fun ch => (ih _).trans (releaseServer_query q status ch i)
    rw [hquery, hx]
  set reply : Reply := ⟨status, x.timeouts, abuf⟩
  have hanswer : Move cfg env {q} ⟨ch₁, q :: H, E, a, K⟩ ⟨ch₁.emit (.answered q reply), q :: H, q :: E, false,
      x.callback reply :: K⟩ :=
    .answer rfl hx₁ hE (fun i hi => hr i (.inl (List.mem_range.mpr hi))) fun h => by
      obtain ⟨i, tcp, msg, tc, rcode, hreceived, hrest⟩ := hg h
      exact ⟨i, tcp, msg, tc, rcode, hm.mem_trace hreceived, hrest⟩
  have hm₁ : Moves cfg env {q} _ _ := hm.tail hanswer
  have hle := hm₁.issued_le
  have hclient := ha reply (ch₁.emit (.answered q reply)) (q :: H) (q :: E) K (hm₁.conns hc) fun r hr =>
    (List.mem_cons.mp hr).elim (fun e => e ▸ hq.trans_le hle) fun hr => (hissued r hr).trans_le hle
  have hall := ((hm₁.mono singleton_subset_own).trans
    (hclient.mono fun r hr => .inr (hle.trans hr))).tail (Move.free (Or.inl rfl))
  dsimp only
  split_ifs
  · exact hall.trans (closeAll_moves _ _)
  · exact hall

/-- `next_server` sends the query again or ends it. -/
theorem nextServer_moves (ha : Silent cfg env callback answer) (hE : q ∉ E) :
    ∀ (left : ℕ) (ch : State) (x : Query) (a : Bool), Conns cfg env ch → ch.query q = some x →
      x.callback = callback → q < ch.issued → (∀ r ∈ E, r < ch.issued) → x.tryCount + left < cfg.attempts →
      Current env ch now →
      Moves cfg env (Own q ch) ⟨ch, q :: H, E, a, K⟩ ⟨nextServer cfg env answer now left ch q, H, E, false, K⟩ := by
  intro left
  induction left with
  | zero =>
    intro ch x a hc hx hcall hq hissued hn hnow
    rw [nextServer, State.withQuery_some hx]
    have hfit := hc.fits hx
    have hretry : Move cfg env {q} ⟨ch, q :: H, E, a, K⟩
        ⟨ch.setQuery q { x with tryCount := x.tryCount + 1, server := x.server }, q :: H, E, true, K⟩ :=
      .retry rfl hx hE hfit.server_lt
    refine .head (hretry.mono singleton_subset_own) ?_
    exact endQuery_moves (hcall ▸ ha) (hretry.conns hc) State.setQuery_self hq hE hissued fun h => absurd h hfit.error
  | succ left ih =>
    intro ch x a hc hx hcall hq hissued hn hnow
    rw [nextServer, State.withQuery_some hx]
    dsimp only
    set y : Query := { x with tryCount := x.tryCount + 1, server := (x.server + 1) % cfg.nservers } with hy
    have hretry : Move cfg env {q} ⟨ch, q :: H, E, a, K⟩ ⟨ch.setQuery q y, q :: H, E, true, K⟩ :=
      .retry rfl hx hE (Nat.mod_lt _ cfg.nservers_pos)
    have hc₁ : Conns cfg env (ch.setQuery q y) := hretry.conns hc
    have hx₁ : (ch.setQuery q y).query q = some y := State.setQuery_self
    split_ifs with htest
    · have ho : y.usingTcp = true → (y.serverInfo y.server).tcpConnectionGeneration <
          ((ch.setQuery q y).server y.server).generation := fun ht =>
        lt_of_le_of_ne ((hc₁.fits hx₁).generation_le _ (hc₁.fits hx₁).server_lt) fun e => htest.2.2 ⟨ht, e⟩
      rcases trySend_moves (H := H) hc₁ hx₁ hE (show x.tryCount + 1 < _ by omega) ho
          ⟨hnow.read, hnow.later⟩ with
        ⟨ch', he, hm⟩ | ⟨ch', z, he, hm, hz, hcount, hcall'⟩
      · rw [he]
        exact Moves.mono singleton_subset_own (.head hretry hm)
      · have hm₁ : Moves cfg env {q} _ _ := .head hretry hm
        have hle := hm₁.issued_le
        have hrest : ∀ {ch'' : State}, Moves cfg env (Own q ch') ⟨ch', q :: H, E, true, K⟩ ⟨ch'', H, E, false, K⟩ →
            Moves cfg env (Own q ch) ⟨ch, q :: H, E, a, K⟩ ⟨ch'', H, E, false, K⟩ := fun h =>
          (hm₁.mono singleton_subset_own).trans (h.mono fun r hr => hr.imp_right (hle.trans ·))
        have hissued' : ∀ r ∈ E, r < ch'.issued := fun r hr => (hissued r hr).trans_le hle
        rcases he with he | he
        · rw [he]
          exact hrest (ih ch' z true (hm₁.conns hc) hz (hcall'.trans hcall) (hq.trans_le hle) hissued'
            (by rw [hcount, hy]; dsimp only; omega) (hnow.moves hm₁))
        · rw [he]
          exact hrest (endQuery_moves (hcall'.trans hcall ▸ ha) (hm₁.conns hc) hz (hq.trans_le hle) hE hissued' fun h =>
            absurd h (by decide))
    · exact .head (hretry.mono singleton_subset_own) (ih (ch.setQuery q y) y true hc₁ hx₁ hcall hq hissued
        (by rw [hy]; dsimp only; omega) ⟨hnow.read, hnow.later⟩)

theorem triesLeft_lt (h : x.tryCount < cfg.attempts) : x.tryCount + triesLeft cfg x < cfg.attempts := by
  rw [Config.attempts] at h ⊢
  rw [triesLeft]
  omega

/-- `ares__send_query`, for a query that was not sent over the present connection. -/
theorem sendQuery_moves (ha : Silent cfg env x.callback answer) (hc : Conns cfg env ch) (hx : ch.query q = some x)
    (hq : q < ch.issued) (hE : q ∉ E) (hissued : ∀ r ∈ E, r < ch.issued) (hn : x.tryCount < cfg.attempts)
    (ho : x.usingTcp = true →
      (x.serverInfo x.server).tcpConnectionGeneration < (ch.server x.server).generation)
    (hnow : Current env ch now) :
    Moves cfg env (Own q ch) ⟨ch, q :: H, E, true, K⟩ ⟨sendQuery cfg env answer now ch q, H, E, false, K⟩ := by
  rw [sendQuery, State.withQuery_some hx]
  rcases trySend_moves (H := H) hc hx hE hn ho hnow with ⟨ch', he, hm⟩ | ⟨ch', z, he, hm, hz, hcount, hcall'⟩
  · rw [he]
    exact Moves.mono singleton_subset_own hm
  · have hle := hm.issued_le
    have hrest : ∀ {ch'' : State}, Moves cfg env (Own q ch') ⟨ch', q :: H, E, true, K⟩ ⟨ch'', H, E, false, K⟩ →
        Moves cfg env (Own q ch) ⟨ch, q :: H, E, true, K⟩ ⟨ch'', H, E, false, K⟩ := fun h =>
      (hm.mono singleton_subset_own).trans (h.mono fun r hr => hr.imp_right (hle.trans ·))
    rcases he with he | he
    · rw [he]
      exact hrest (nextServer_moves ha hE _ ch' z true (hm.conns hc) hz hcall' (hq.trans_le hle)
        (fun r hr => (hissued r hr).trans_le hle) (hcount ▸ triesLeft_lt hn) (hnow.moves hm))
    · rw [he]
      exact hrest (endQuery_moves (hcall' ▸ ha) (hm.conns hc) hz (hq.trans_le hle) hE
        (fun r hr => (hissued r hr).trans_le hle) fun h => absurd h (by decide))

/-! ### Clients -/

theorem aresSend_moves (ha : Silent cfg env callback answer) (hc : Conns cfg env ch) (hissued : ∀ r ∈ E, r < ch.issued)
    (qbuf : List UInt8) (next : Client) :
    Moves cfg env (Set.Ici ch.issued) ⟨ch, H, E, false, .ask qbuf callback next :: K⟩
      ⟨aresSend cfg env answer qbuf callback ch, H, E, false, next :: K⟩ := by
  have hlater : Set.Ici (ch.issued + 1) ⊆ Set.Ici ch.issued := fun r hr => Nat.le_of_succ_le hr
  have hticks : Moves cfg env (Set.Ici ch.issued) ⟨ch, H, E, false, .ask qbuf callback next :: K⟩
      ⟨ch.tick.tick.tick, H, E, false, .ask qbuf callback next :: K⟩ :=
    .tail (.tail (.single .tick) .tick) .tick
  have hrefuse : ∀ {ch' : State} {status : UInt32}, status ≠ ARES_SUCCESS → ch'.issued = ch.issued → Conns cfg env ch' →
      Moves cfg env (Set.Ici ch.issued) ⟨ch', H, E, false, .ask qbuf callback next :: K⟩
        ⟨answer ⟨status, 0, []⟩ ((ask ch' qbuf).emit (.answered ch'.issued ⟨status, 0, []⟩)), H, E, false,
          next :: K⟩ := by
    intro ch' status hs hi hc'
    have hmove : Move cfg env (Set.Ici ch.issued) ⟨ch', H, E, false, .ask qbuf callback next :: K⟩
        ⟨(ask ch' qbuf).emit (.answered ch'.issued ⟨status, 0, []⟩), H, E, false,
          callback ⟨status, 0, []⟩ :: next :: K⟩ := .refuse hs hi.ge
    have hclient := ha ⟨status, 0, []⟩ _ H E (next :: K) (hmove.conns hc') fun r hr =>
      (hissued r hr).trans_le (hi.ge.trans hmove.issued_le)
    exact .head hmove (hclient.mono (hi ▸ hlater))
  simp only [aresSend]
  split_ifs with hlen hmalloc
  · exact hrefuse (by decide) rfl hc
  · rw [not_or, not_lt, not_le] at hlen
    have hqid : ∃ qid, headerQid qbuf = .ok qid :=
      ⟨_, dns16_of_lt (by have : HFIXEDSZ = 12 := rfl; omega)⟩
    obtain ⟨qid, hqid⟩ := hqid
    rw [hqid]
    dsimp only
    set x := newQuery cfg ch.lastServer qid qbuf callback
    have henlist : Move cfg env (Set.Ici ch.issued) ⟨ch.tick.tick.tick, H, E, false, .ask qbuf callback next :: K⟩
        ⟨enlist cfg (ask ch.tick.tick.tick qbuf) ch.issued x, ch.issued :: H, E, true, next :: K⟩ :=
      .enlist hqid hlen Set.self_mem_Ici
    have hm : Moves cfg env (Set.Ici ch.issued) _ ⟨_, ch.issued :: H, E, true, next :: K⟩ :=
      (hticks.tail henlist).tail .tick
    have hnow : env.Monotone → ch.now.micros ≤ (env.tvnow (ch.calls + 3)).micros := by
      intro hmono
      obtain ⟨c, hc, hnow⟩ := hc.clock
      rw [hnow]
      exact hmono c _ (Nat.le_add_right_of_le hc.le)
    have hcurrent : Current env (enlist cfg (ask ch.tick.tick.tick qbuf) ch.issued x).tick
        (env.tvnow (ch.calls + 3)) := ⟨⟨ch.calls + 3, Nat.lt_succ_self _, rfl⟩, hnow⟩
    have hsend := sendQuery_moves (H := H) (K := next :: K) ha (hm.conns hc)
      (show _ = some x from State.setQuery_self) (Nat.lt_succ_self _) (fun h => lt_irrefl _ (hissued _ h))
      (fun r hr => Nat.lt_succ_of_lt (hissued r hr)) (Nat.lt_of_lt_of_le Nat.one_pos (le_max_left _ _))
      (fun _ => (hc.generation _ hc.lastServer).1) hcurrent
    exact hm.trans (hsend.mono fun r hr => hr.elim (fun e => e.ge) fun h => Nat.le_of_succ_le h)
  · exact hticks.trans (hrefuse (by decide) rfl (hticks.conns hc))

theorem Client.run_moves (client : Client) : ∀ (ch : State) (H E : List ℕ) (K : List Client), Conns cfg env ch →
    (∀ r ∈ E, r < ch.issued) →
    Moves cfg env (Set.Ici ch.issued) ⟨ch, H, E, false, client :: K⟩ ⟨client.run cfg env ch, H, E, false, K⟩ := by
  induction client with
  | done => exact fun _ _ _ _ _ _ => .single .done
  | stray => exact fun _ _ _ _ _ _ => .single .stray
  | alloc next ih =>
    intro ch H E K hc hissued
    have hmove : Move cfg env (Set.Ici ch.issued) ⟨ch, H, E, false, .alloc next :: K⟩ _ := .alloc
    exact .head hmove (ih _ ch.tick H E K (hmove.conns hc) hissued)
  | draw next ih =>
    intro ch H E K hc hissued
    have hmove : Move cfg env (Set.Ici ch.issued) ⟨ch, H, E, false, .draw next :: K⟩ _ := .draw
    exact .head hmove (ih _ ch.tick H E K (hmove.conns hc) hissued)
  | tell told next ih =>
    intro ch H E K hc hissued
    have hmove : Move cfg env (Set.Ici ch.issued) ⟨ch, H, E, false, .tell told next :: K⟩ _ := .tell
    exact .head hmove (ih (ch.emit (.told told)) H E K (hmove.conns hc) hissued)
  | ask qbuf callback next ih ihnext =>
    intro ch H E K hc hissued
    have hm := aresSend_moves (H := H) (K := K) (fun reply => ih reply) hc hissued qbuf next
    have hle := hm.issued_le
    have hnext := ihnext (aresSend cfg env (fun reply => Client.run cfg env (callback reply)) qbuf callback ch) H E K
      (hm.conns hc) fun r hr => (hissued r hr).trans_le hle
    exact hm.trans (hnext.mono fun r hr => hle.trans hr)

theorem silent_answer (x : Query) : Silent cfg env x.callback (x.answer cfg env) := fun reply =>
  Client.run_moves (x.callback reply)

end FakeDns.Channel
