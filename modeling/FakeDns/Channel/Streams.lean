import FakeDns.Channel.Asked

/-! What is written to a connection. The queries that are sent over it, each with its length in
front, make up one stream; the system takes it in pieces of any size, and queries end while
they wait. What was written is always a beginning of that stream, and on a connection that
is in order what waits is the rest of it. -/

namespace FakeDns.Channel

open ByteMemory

/-- What an act adds to the stream of connection `g` with server `i`: a query with its length
in front. -/
def Act.framed (i g : ℕ) : Act → List UInt8
  | .queued _ j h qbuf => if j = i ∧ h = g then frame set16 qbuf else []
  | _ => []

/-- What an act writes to that connection. -/
def Act.written (i g : ℕ) : Act → List UInt8
  | .wrote j h bytes => if j = i ∧ h = g then bytes else []
  | _ => []

/-- The queries that were sent over that connection, each with its length in front. -/
def State.framed (ch : State) (i g : ℕ) : List UInt8 := ch.trace.flatMap (Act.framed i g)

def State.written (ch : State) (i g : ℕ) : List UInt8 := ch.trace.flatMap (Act.written i g)

structure Streams (cfg : Config) (ch : State) : Prop where
  closed : ∀ i < cfg.nservers, (ch.server i).tcpSocket = false → (ch.server i).queue = []
  later : ∀ i < cfg.nservers, ∀ g, (ch.server i).generation < g → ch.framed i g = [] ∧ ch.written i g = []
  begins : ∀ i < cfg.nservers, ∀ g, ch.written i g <+: ch.framed i g
  rest : ∀ i < cfg.nservers, (ch.server i).tcpSocket = true → (ch.server i).isBroken = false →
    ch.written i (ch.server i).generation ++ SendRequest.pending (ch.server i).queue =
      ch.framed i (ch.server i).generation

variable {cfg : Config} {env : Env} {S : Set ℕ} {σ τ : Sys} {ch ch' : State} {q i j g n : ℕ} {x : Query} {a : Act}

/-! ### Queues -/

theorem pending_append (queue : List SendRequest) (r : SendRequest) :
    SendRequest.pending (queue ++ [r]) = SendRequest.pending queue ++ r.data := by
  rw [SendRequest.pending, List.flatMap_append, List.flatMap_singleton, SendRequest.pending]

theorem pending_cons (r : SendRequest) (queue : List SendRequest) :
    SendRequest.pending (r :: queue) = r.data ++ SendRequest.pending queue := List.flatMap_cons ..

/-- `advance_tcp_send_queue` takes bytes from the front. -/
theorem pending_advanceTcpSendQueue (n : ℕ) (queue : List SendRequest) :
    SendRequest.pending (advanceTcpSendQueue n queue) = (SendRequest.pending queue).drop n := by
  fun_induction advanceTcpSendQueue n queue with
  | case1 => rfl
  | case2 => rw [SendRequest.pending, List.flatMap_nil, List.drop_nil]
  | case3 n r queue hle ih =>
    rw [ih, pending_cons, List.drop_append, List.drop_of_length_le hle, List.nil_append]
  | case4 n r queue hlt =>
    rw [pending_cons, pending_cons, List.drop_append_of_le_length (by omega)]

/-- A query that ends leaves the bytes that wait as they are, or breaks the connection. -/
theorem pending_releaseRequests (q : ℕ) (status : UInt32) (queue : List SendRequest) :
    ∀ calls, (releaseRequests env q status calls queue).2.1 = false →
      SendRequest.pending (releaseRequests env q status calls queue).1 = SendRequest.pending queue := by
  induction queue with
  | nil => exact fun _ _ => rfl
  | cons r queue ih =>
    intro calls h
    simp only [releaseRequests] at h ⊢
    split_ifs at h ⊢
    · rw [pending_cons, pending_cons, ih _ h]
    · rw [pending_cons, pending_cons, ih _ h]

/-! ### Moves -/

theorem framed_emit (ch : State) (a : Act) (i g : ℕ) : (ch.emit a).framed i g = ch.framed i g ++ a.framed i g := by
  rw [State.framed, State.emit, List.flatMap_append, List.flatMap_singleton, State.framed]

theorem written_emit (ch : State) (a : Act) (i g : ℕ) :
    (ch.emit a).written i g = ch.written i g ++ a.written i g := by
  rw [State.written, State.emit, List.flatMap_append, List.flatMap_singleton, State.written]

theorem framed_emit_of_nil (h : a.framed i g = []) : (ch.emit a).framed i g = ch.framed i g := by
  rw [framed_emit, h, List.append_nil]

theorem written_emit_of_nil (h : a.written i g = []) : (ch.emit a).written i g = ch.written i g := by
  rw [written_emit, h, List.append_nil]

/-- What the streams depend on of a server. -/
def Server.Same (s t : Server) : Prop :=
  s.tcpSocket = t.tcpSocket ∧ s.queue = t.queue ∧ s.generation = t.generation ∧ s.isBroken = t.isBroken

theorem Streams.of_eq (h : Streams cfg ch) (hs : ∀ i, (ch'.server i).Same (ch.server i))
    (hf : ∀ i g, ch'.framed i g = ch.framed i g) (hw : ∀ i g, ch'.written i g = ch.written i g) : Streams cfg ch' where
  closed i hi ht := (hs i).2.1.trans (h.closed i hi ((hs i).1.symm.trans ht))
  later i hi g hg := by
    rw [hf, hw]
    exact h.later i hi g ((hs i).2.2.1 ▸ hg)
  begins i hi g := by
    rw [hf, hw]
    exact h.begins i hi g
  rest i hi ht hb := by
    rw [hf, hw, (hs i).2.1, (hs i).2.2.1]
    exact h.rest i hi ((hs i).1.symm.trans ht) ((hs i).2.2.2.symm.trans hb)

theorem same_setServer {s : Server} (hs : s.Same (ch.server i)) (j : ℕ) :
    ((ch.setServer i s).server j).Same (ch.server j) := by
  by_cases hj : j = i
  · subst hj
    rwa [State.setServer_self]
  · rw [State.setServer_of_ne hj]
    exact ⟨rfl, rfl, rfl, rfl⟩

/-- Replacing one server. -/
theorem Streams.setServer {s : Server} (h : Streams cfg ch) (hi : i < cfg.nservers)
    (hserver : ch'.server = Function.update ch.server i s)
    (hf : ∀ j g, j ≠ i → ch'.framed j g = ch.framed j g) (hw : ∀ j g, j ≠ i → ch'.written j g = ch.written j g)
    (hclosed : s.tcpSocket = false → s.queue = [])
    (hlater : ∀ g, s.generation < g → ch'.framed i g = [] ∧ ch'.written i g = [])
    (hbegins : ∀ g, ch'.written i g <+: ch'.framed i g)
    (hrest : s.tcpSocket = true → s.isBroken = false →
      ch'.written i s.generation ++ SendRequest.pending s.queue = ch'.framed i s.generation) : Streams cfg ch' := by
  have hself : ch'.server i = s := by rw [hserver, Function.update_self]
  have hother : ∀ j, j ≠ i → ch'.server j = ch.server j := fun j hj => by rw [hserver, Function.update_of_ne hj]
  constructor
  · intro j hj ht
    by_cases hji : j = i
    · subst hji
      rw [hself] at ht ⊢
      exact hclosed ht
    · rw [hother j hji] at ht ⊢
      exact h.closed j hj ht
  · intro j hj g hg
    by_cases hji : j = i
    · subst hji
      exact hlater g (hself ▸ hg)
    · rw [hf j g hji, hw j g hji]
      exact h.later j hj g (hother j hji ▸ hg)
  · intro j hj g
    by_cases hji : j = i
    · exact hji ▸ hbegins g
    · rw [hf j g hji, hw j g hji]
      exact h.begins j hj g
  · intro j hj ht hb
    by_cases hji : j = i
    · subst hji
      rw [hself] at ht hb ⊢
      exact hrest ht hb
    · rw [hother j hji] at ht hb ⊢
      rw [hf j _ hji, hw j _ hji]
      exact h.rest j hj ht hb

theorem Streams.releaseServer (h : Streams cfg ch) (hi : i < cfg.nservers) (q : ℕ) (status : UInt32) :
    Streams cfg (releaseServer env q status ch i) := by
  have hf : ∀ j g, (Channel.releaseServer env q status ch i).framed j g = ch.framed j g := by
    intro j g
    simp only [Channel.releaseServer]
    split
    · rfl
    · exact framed_emit_of_nil rfl
  have hw : ∀ j g, (Channel.releaseServer env q status ch i).written j g = ch.written j g := by
    intro j g
    simp only [Channel.releaseServer]
    split
    · rfl
    · exact written_emit_of_nil rfl
  have hserver : (Channel.releaseServer env q status ch i).server = Function.update ch.server i
      { ch.server i with
        queue := (releaseRequests env q status ch.calls (ch.server i).queue).1
        isBroken := (ch.server i).isBroken || (releaseRequests env q status ch.calls (ch.server i).queue).2.1 } := by
    simp only [Channel.releaseServer]
    split <;> rfl
  refine h.setServer hi hserver (fun j g _ => hf j g) (fun j g _ => hw j g) (fun ht => ?_) (fun g hg => ?_)
    (fun g => ?_) fun ht hb => ?_
  · dsimp only
    rw [h.closed i hi ht]
    rfl
  · rw [hf, hw]
    exact h.later i hi g hg
  · rw [hf, hw]
    exact h.begins i hi g
  · rw [Bool.or_eq_false_iff] at hb
    dsimp only
    rw [hf, hw, pending_releaseRequests q status _ _ hb.2]
    exact h.rest i hi ht hb.1

theorem Streams.close (h : Streams cfg ch) (hc : Conns cfg env ch) (i : ℕ) : Streams cfg (closeSockets ch i) := by
  by_cases hi : i < cfg.nservers
  · refine h.setServer hi (show (Channel.closeSockets ch i).server = _ from rfl) (fun _ _ _ => rfl) (fun _ _ _ => rfl)
      (fun _ => rfl) (fun g hg => h.later i hi g ?_) (h.begins i hi) fun ht => absurd ht nofun
    have hle := (hc.generation i hi).2
    dsimp only at hg
    split_ifs at hg <;> omega
  · have hother : ∀ j < cfg.nservers, (closeSockets ch i).server j = ch.server j := by
      intro j hj
      have hji : j ≠ i := fun e => hi (e ▸ hj)
      exact Function.update_of_ne hji _ _
    constructor
    · exact fun j hj ht => (congrArg _ (hother j hj)).trans (h.closed j hj (hother j hj ▸ ht))
    · exact fun j hj g hg => h.later j hj g (hother j hj ▸ hg)
    · exact h.begins
    · intro j hj ht hb
      rw [hother j hj] at ht hb ⊢
      exact h.rest j hj ht hb

theorem Move.streams (h : Move cfg env S σ τ) (hc : Conns cfg env σ.ch) (hs : Streams cfg σ.ch) : Streams cfg τ.ch := by
  have hsame : ∀ s : Server, s.Same s := fun _ => ⟨rfl, rfl, rfl, rfl⟩
  cases h with
  | tick | done | alloc | draw | pick | steal | late | retry | skip | useTcp | free =>
    exact ⟨hs.closed, hs.later, hs.begins, hs.rest⟩
  | refuse =>
    exact hs.of_eq (fun _ => hsame _) (fun _ _ => (framed_emit_of_nil rfl).trans (framed_emit_of_nil rfl))
      fun _ _ => (written_emit_of_nil rfl).trans (written_emit_of_nil rfl)
  | stray | tell | enlist | send | answer =>
    exact hs.of_eq (fun _ => hsame _) (fun _ _ => framed_emit_of_nil rfl) fun _ _ => written_emit_of_nil rfl
  | openUdp =>
    exact hs.of_eq (same_setServer ⟨rfl, rfl, rfl, rfl⟩) (fun _ _ => rfl) fun _ _ => rfl
  | @openTcp ch H E _ _ i hi ht =>
    have hle := (hc.generation i hi).2
    refine hs.setServer hi rfl (fun _ _ _ => rfl) (fun _ _ _ => rfl) (fun ht => absurd ht nofun) (fun g hg => ?_)
      (hs.begins i hi) fun _ _ => ?_
    · exact hs.later i hi g ((Nat.lt_succ_of_le hle).trans hg)
    · -- nothing was sent over the new connection yet
      obtain ⟨hf, hw⟩ := hs.later i hi (ch.generation + 1) (Nat.lt_succ_of_le hle)
      change ch.written i (ch.generation + 1) ++ SendRequest.pending (ch.server i).queue =
        ch.framed i (ch.generation + 1)
      rw [hf, hw, hs.closed i hi ht]
      rfl
  | @queue ch H E _ q x now _ _ _ _ hi _ ho _ _ =>
    have hf : ∀ j g, (queueRequest cfg env now ch q x).framed j g =
        ch.framed j g ++ if x.server = j ∧ (ch.server x.server).generation = g then frame set16 x.qbuf else [] :=
      fun j g => framed_emit _ _ j g
    have hw : ∀ j g, (queueRequest cfg env now ch q x).written j g = ch.written j g :=
      fun j g => written_emit_of_nil rfl
    refine hs.setServer hi rfl (fun j g hj => ?_) (fun j g _ => hw j g) (fun ht => ?_) (fun g hg => ?_) (fun g => ?_)
      fun _ hb => ?_
    · rw [hf, if_neg fun h => hj h.1.symm, List.append_nil]
    · exact absurd (ho.symm.trans ht) nofun
    · rw [hf, hw, if_neg fun h => hg.ne h.2, List.append_nil]
      exact hs.later _ hi g hg
    · rw [hf, hw]
      exact (hs.begins _ hi g).trans (List.prefix_append _ _)
    · rw [hf, hw, if_pos ⟨rfl, rfl⟩, ← hs.rest _ hi ho hb]
      exact (congrArg _ (pending_append _ _)).trans (List.append_assoc _ _ _).symm
  | release _ _ hi => exact hs.releaseServer hi _ _
  | close => exact hs.close hc _
  | @write ch H E _ _ i n hi ho hb =>
    set bytes := (SendRequest.pending (ch.server i).queue).take n
    have hrest := hs.rest i hi ho hb
    have hf : ∀ j g, (ch.emit (.wrote i (ch.server i).generation bytes)).framed j g = ch.framed j g :=
      fun j g => framed_emit_of_nil rfl
    have hw : ∀ j g, (ch.emit (.wrote i (ch.server i).generation bytes)).written j g =
        ch.written j g ++ if i = j ∧ (ch.server i).generation = g then bytes else [] :=
      fun j g => written_emit _ _ j g
    have hsplit : bytes ++ SendRequest.pending (advanceTcpSendQueue n (ch.server i).queue) =
        SendRequest.pending (ch.server i).queue := by
      rw [pending_advanceTcpSendQueue, List.take_append_drop]
    refine hs.setServer hi rfl (fun j g _ => hf j g) (fun j g hj => ?_) (fun ht => ?_) (fun g hg => ?_) (fun g => ?_)
      fun _ _ => ?_
    · exact (hw j g).trans (by rw [if_neg fun h => hj h.1.symm, List.append_nil])
    · exact absurd (ho.symm.trans ht) nofun
    · refine ⟨(hf i g).trans (hs.later i hi g hg).1, (hw i g).trans ?_⟩
      rw [if_neg fun h => hg.ne h.2, List.append_nil]
      exact (hs.later i hi g hg).2
    · change (ch.emit _).written i g <+: (ch.emit _).framed i g
      rw [hf, hw]
      split_ifs with h
      · rw [← h.2, ← hrest, ← hsplit, ← List.append_assoc]
        exact List.prefix_append _ _
      · rw [List.append_nil]
        exact hs.begins i hi g
    · change (ch.emit _).written i _ ++ SendRequest.pending (advanceTcpSendQueue n _) = (ch.emit _).framed i _
      rw [hf, hw, if_pos ⟨rfl, rfl⟩, List.append_assoc, hsplit]
      exact hrest

theorem run_streamed (cfg : Config) (env : Env) (events : List Event) : Streams cfg (run cfg env events) := by
  have hinit : Streams cfg (init cfg env) :=
    ⟨fun _ _ _ => rfl, fun _ _ _ _ => ⟨rfl, rfl⟩, fun _ _ _ => List.prefix_rfl, fun _ _ h => absurd h nofun⟩
  refine run_keep (P := fun σ => Streams cfg σ.ch) events (fun hm hc _ => hm.streams hc) (fun _ => id)
    (fun _ hadvance hs => ?_) hinit
  have hsame : ∀ s : Server, s.Same s := fun _ => ⟨rfl, rfl, rfl, rfl⟩
  cases hadvance with
  | now | timeouts => exact ⟨hs.closed, hs.later, hs.begins, hs.rest⟩
  | packet => exact hs.of_eq (fun _ => hsame _) (fun _ _ => framed_emit_of_nil rfl) fun _ _ => written_emit_of_nil rfl
  | more =>
    exact hs.of_eq (same_setServer (by exact hsame _)) (fun _ _ => framed_emit_of_nil rfl) fun _ _ =>
      written_emit_of_nil rfl
  | message =>
    exact hs.of_eq (fun _ => hsame _) (fun _ _ => (framed_emit_of_nil rfl).trans (framed_emit_of_nil rfl)) fun _ _ =>
      (written_emit_of_nil rfl).trans (written_emit_of_nil rfl)
  | consumed => exact hs.of_eq (same_setServer (by exact hsame _)) (fun _ _ => rfl) fun _ _ => rfl

/-- In every run, what was written to a connection is a beginning of the queries that were
sent over it, each with its length in front; as long as the connection is in order, the
send queue holds the rest. Only what was asked is sent. -/
theorem run_streams (cfg : Config) (env : Env) (events : List Event) {i : ℕ} (hi : i < cfg.nservers) :
    (∀ g, (run cfg env events).written i g <+: (run cfg env events).framed i g) ∧
      (((run cfg env events).server i).tcpSocket = true → ((run cfg env events).server i).isBroken = false →
        (run cfg env events).written i ((run cfg env events).server i).generation ++
            SendRequest.pending ((run cfg env events).server i).queue =
          (run cfg env events).framed i ((run cfg env events).server i).generation) ∧
      ∀ q g qbuf, .queued q i g qbuf ∈ (run cfg env events).trace → .asked q qbuf ∈ (run cfg env events).trace := by
  have hs := run_streamed cfg env events
  exact ⟨hs.begins i hi, hs.rest i hi, fun _ _ _ => (run_asked cfg env events).queued⟩

/-- Five bytes of a query with its length in front were written. -/
theorem run_streams_sample :
    (run .usevc (.steady 0) [.run .once, .write 0 (some 5)]).written 0 2 <+:
      (run .usevc (.steady 0) [.run .once, .write 0 (some 5)]).framed 0 2 :=
  (run_streams .usevc (.steady 0) [.run .once, .write 0 (some 5)] Nat.one_pos).1 2

end FakeDns.Channel
