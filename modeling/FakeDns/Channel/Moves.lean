import FakeDns.Channel.Process
import Mathlib.Logic.Relation

/-! The single moves that a channel makes. Whatever a channel does is a sequence of moves,
with those that a client makes while it is called back between the others. A move says
all that it does, and what held when it was made, so that a property of all runs has only
to be looked at move by move. -/

namespace FakeDns.Channel

open ByteMemory

/-- A channel, and what it is at: the queries in hand, the innermost first, those of them
that have been called back, whether the first query in hand is still to be sent, and the
clients that are running, the innermost first. -/
structure Sys where
  ch : State
  hand : List ℕ
  ending : List ℕ
  armed : Bool
  clients : List Client

/-- A message that was received is an answer to the query `x`, and `abuf` is what a client
gets of it. -/
def Genuine (cfg : Config) (ch : State) (x : Query) (abuf : List UInt8) : Prop :=
  ∃ i via msg tc rcode, .received i via msg ∈ ch.trace ∧ answerHeader msg = .ok (x.qid, tc, rcode) ∧
    sameQuestions x.qbuf msg = .ok true ∧
    (¬ cfg.has ARES_FLAG_NOCHECKRESP → rcode ≠ SERVFAIL ∧ rcode ≠ NOTIMP ∧ rcode ≠ REFUSED) ∧
    HFIXEDSZ ≤ abuf.length ∧ abuf <+: msg

/-- A reply to the query `x` that came in a packet was cut short. -/
def Truncated (ch : State) (x : Query) : Prop :=
  ∃ i msg tc rcode, .received i none msg ∈ ch.trace ∧ answerHeader msg = .ok (x.qid, tc, rcode) ∧
    sameQuestions x.qbuf msg = .ok true ∧ (tc = true ∨ msg.length > PACKETSZ)

/-- The time was read off the clock, and not before that of the channel. -/
structure Current (env : Env) (ch : State) (now : Timeval) : Prop where
  read : ∃ c < ch.calls, now = env.tvnow c
  later : env.Monotone → ch.now.micros ≤ now.micros

/-- The first thing `ares_send` does. -/
def ask (ch : State) (qbuf : List UInt8) : State :=
  { ch with issued := ch.issued + 1 }.emit (.asked ch.issued qbuf)

section

variable (cfg : Config) (env : Env)

/-- "Queue a send request." -/
def queueRequest (now : Timeval) (ch : State) (q : ℕ) (x : Query) : State :=
  let server := ch.server x.server
  let ch := ch.tick.setServer x.server { server with queue := server.queue ++ [⟨x.tcpbuf, some q, false⟩] }
  schedule cfg env now (ch.emit (.queued q x.server server.generation x.qbuf)) q
    (x.sentOn x.server server.generation)

/-- Send a datagram. -/
def sendDatagram (now : Timeval) (ch : State) (q : ℕ) (x : Query) : State :=
  schedule cfg env now (ch.tick.emit (.sent q x.server x.qbuf)) q x

/-- One move, of the queries in `S` only. -/
inductive Move (S : Set ℕ) : Sys → Sys → Prop
  | tick {ch H E a K} : Move S ⟨ch, H, E, a, K⟩ ⟨ch.tick, H, E, a, K⟩
  | done {ch H E a K} : Move S ⟨ch, H, E, a, .done :: K⟩ ⟨ch, H, E, a, K⟩
  | stray {ch : State} {H E a K} : Move S ⟨ch, H, E, a, .stray :: K⟩ ⟨ch.emit .stray, H, E, a, K⟩
  | alloc {ch H E a K next} :
      Move S ⟨ch, H, E, a, .alloc next :: K⟩ ⟨ch.tick, H, E, a, next (env.malloc ch.calls) :: K⟩
  | draw {ch H E a K next} :
      Move S ⟨ch, H, E, a, .draw next :: K⟩ ⟨ch.tick, H, E, a, next (env.rand ch.calls) :: K⟩
  | tell {ch : State} {H E a K told next} :
      Move S ⟨ch, H, E, a, .tell told next :: K⟩ ⟨ch.emit (.told told), H, E, a, next :: K⟩
  | refuse {ch : State} {H E a K qbuf callback next status} (hs : status ≠ ARES_SUCCESS) (hS : ch.issued ∈ S) :
      Move S ⟨ch, H, E, a, .ask qbuf callback next :: K⟩
        ⟨(ask ch qbuf).emit (.answered ch.issued ⟨status, 0, []⟩), H, E, a, callback ⟨status, 0, []⟩ :: next :: K⟩
  | enlist {ch : State} {H E a K qbuf qid callback next} (hid : headerQid qbuf = .ok qid)
      (hlen : HFIXEDSZ ≤ qbuf.length ∧ qbuf.length < 2 ^ 16) (hS : ch.issued ∈ S) :
      Move S ⟨ch, H, E, a, .ask qbuf callback next :: K⟩
        ⟨enlist cfg (ask ch qbuf) ch.issued (newQuery cfg ch.lastServer qid qbuf callback), ch.issued :: H, E, true,
          next :: K⟩
  | pick {ch : State} {H E a K q x} (hS : q ∈ S) (hx : ch.query q = some x) (hH : q ∉ H) :
      Move S ⟨ch, H, E, a, K⟩ ⟨ch, q :: H, E, false, K⟩
  | steal {ch : State} {a K i} : Move S ⟨ch, [], [], a, K⟩ ⟨steal ch i, (steal ch i).toServer none, [], false, K⟩
  | late {ch : State} {H E a K q x} (hS : q ∈ S) (hx : ch.query q = some x) (hE : q ∉ E) :
      Move S ⟨ch, q :: H, E, a, K⟩
        ⟨ch.setQuery q { x with errorStatus := ARES_ETIMEOUT, timeouts := x.timeouts + 1 }, q :: H, E, a, K⟩
  | retry {ch : State} {H E a K q x server} (hS : q ∈ S) (hx : ch.query q = some x) (hE : q ∉ E)
      (hs : server < cfg.nservers) :
      Move S ⟨ch, q :: H, E, a, K⟩
        ⟨ch.setQuery q { x with tryCount := x.tryCount + 1, server := server }, q :: H, E, true, K⟩
  | skip {ch : State} {H E a K q x i} (hS : q ∈ S) (hx : ch.query q = some x) (hE : q ∉ E) :
      Move S ⟨ch, H, E, a, K⟩ ⟨ch.setQuery q (x.skip i), H, E, a, K⟩
  | useTcp {ch : State} {H E a K q x} (hS : q ∈ S) (hx : ch.query q = some x) (hE : q ∉ E)
      (ht : x.usingTcp = false) (hg : Truncated ch x) :
      Move S ⟨ch, q :: H, E, a, K⟩ ⟨ch.setQuery q { x with usingTcp := true }, q :: H, E, true, K⟩
  | openTcp {ch : State} {H E a K i} (hi : i < cfg.nservers) (ht : (ch.server i).tcpSocket = false) :
      Move S ⟨ch, H, E, a, K⟩ ⟨{ ch with generation := ch.generation + 1 }.setServer i
        { ch.server i with
          tcpSocket := true
          generation := ch.generation + 1
          input := { (ch.server i).input with buffer := [] } }, H, E, a, K⟩
  | openUdp {ch : State} {H E a K i} :
      Move S ⟨ch, H, E, a, K⟩ ⟨ch.setServer i { ch.server i with udpSocket := true }, H, E, a, K⟩
  | queue {ch : State} {H E K q x now} (hS : q ∈ S) (hx : ch.query q = some x) (hE : q ∉ E)
      (ht : x.usingTcp = true) (hi : x.server < cfg.nservers)
      (hg : (x.serverInfo x.server).tcpConnectionGeneration < (ch.server x.server).generation)
      (ho : (ch.server x.server).tcpSocket = true) (hn : x.tryCount < cfg.attempts)
      (hnow : Current env ch now) :
      Move S ⟨ch, q :: H, E, true, K⟩ ⟨queueRequest cfg env now ch q x, H, E, false, K⟩
  | send {ch : State} {H E K q x now} (hS : q ∈ S) (hx : ch.query q = some x) (hE : q ∉ E)
      (ht : x.usingTcp = false) (hn : x.tryCount < cfg.attempts)
      (hnow : Current env ch now) :
      Move S ⟨ch, q :: H, E, true, K⟩ ⟨sendDatagram cfg env now ch q x, H, E, false, K⟩
  | release {ch : State} {H E a K q status i} (hS : q ∈ S) (hE : q ∉ E) (hi : i < cfg.nservers) :
      Move S ⟨ch, q :: H, E, a, K⟩ ⟨releaseServer env q status ch i, q :: H, E, a, K⟩
  | answer {ch : State} {H E a K q x status abuf} (hS : q ∈ S) (hx : ch.query q = some x) (hE : q ∉ E)
      (hr : ∀ i < cfg.nservers, ∀ r ∈ (ch.server i).queue, r.ownerQuery ≠ some q)
      (hg : status = ARES_SUCCESS → Genuine cfg ch x abuf) :
      Move S ⟨ch, q :: H, E, a, K⟩ ⟨ch.emit (.answered q ⟨status, x.timeouts, abuf⟩), q :: H, q :: E, false,
        x.callback ⟨status, x.timeouts, abuf⟩ :: K⟩
  | free {ch : State} {H E K q} (hS : q ∈ S) :
      Move S ⟨ch, q :: H, q :: E, false, K⟩ ⟨freeQuery ch q, H, E, false, K⟩
  | close {ch : State} {H E a K i} : Move S ⟨ch, H, E, a, K⟩ ⟨closeSockets ch i, H, E, a, K⟩
  | write {ch : State} {H E a K i n} (hi : i < cfg.nservers) (ho : (ch.server i).tcpSocket = true)
      (hb : (ch.server i).isBroken = false) :
      Move S ⟨ch, H, E, a, K⟩
        ⟨(ch.emit (.wrote i (ch.server i).generation ((SendRequest.pending (ch.server i).queue).take n))).setServer i
          { ch.server i with queue := advanceTcpSendQueue n (ch.server i).queue }, H, E, a, K⟩

/-- A sequence of moves. -/
abbrev Moves (S : Set ℕ) : Sys → Sys → Prop := Relation.ReflTransGen (Move cfg env S)

end

variable {cfg : Config} {env : Env} {S T : Set ℕ} {σ τ : Sys}

theorem Move.mono (hST : S ⊆ T) (h : Move cfg env S σ τ) : Move cfg env T σ τ := by
  cases h with
  | tick => exact .tick
  | done => exact .done
  | stray => exact .stray
  | alloc => exact .alloc
  | draw => exact .draw
  | tell => exact .tell
  | refuse hs hS => exact .refuse hs (hST hS)
  | enlist hid hlen hS => exact .enlist hid hlen (hST hS)
  | pick hS hx hH => exact .pick (hST hS) hx hH
  | steal => exact .steal
  | late hS hx hE => exact .late (hST hS) hx hE
  | retry hS hx hE hs => exact .retry (hST hS) hx hE hs
  | skip hS hx hE => exact .skip (hST hS) hx hE
  | useTcp hS hx hE ht hg => exact .useTcp (hST hS) hx hE ht hg
  | openTcp hi ht => exact .openTcp hi ht
  | openUdp => exact .openUdp
  | queue hS hx hE ht hi hg ho hn hnow => exact .queue (hST hS) hx hE ht hi hg ho hn hnow
  | send hS hx hE ht hn hnow => exact .send (hST hS) hx hE ht hn hnow
  | release hS hE hi => exact .release (hST hS) hE hi
  | answer hS hx hE hr hg => exact .answer (hST hS) hx hE hr hg
  | free hS => exact .free (hST hS)
  | close => exact .close
  | write hi ho hb => exact .write hi ho hb

theorem Moves.mono (hST : S ⊆ T) (h : Moves cfg env S σ τ) : Moves cfg env T σ τ :=
  Relation.ReflTransGen.mono (fun _ _ => Move.mono hST) _ _ h

/-- What every move keeps holds after a sequence of moves. -/
theorem Moves.keep {P : Sys → Prop} (hP : ∀ σ τ, Move cfg env S σ τ → P σ → P τ)
    (h : Moves cfg env S σ τ) (hσ : P σ) : P τ := by
  induction h with
  | refl => exact hσ
  | tail _ hm ih => exact hP _ _ hm ih

/-! ### Frames -/

@[simp] theorem releaseServer_query (q : ℕ) (status : UInt32) (ch : State) (i : ℕ) :
    (releaseServer env q status ch i).query = ch.query := by
  simp only [releaseServer]
  split <;> rfl

theorem releaseServer_issued (q : ℕ) (status : UInt32) (ch : State) (i : ℕ) :
    (releaseServer env q status ch i).issued = ch.issued := by
  simp only [releaseServer]
  split <;> rfl

/-- A move leaves the other queries as they are. -/
theorem Move.query_eq (h : Move cfg env S σ τ) {r : ℕ} (hr : r ∉ S) : τ.ch.query r = σ.ch.query r := by
  have hne : ∀ {q : ℕ}, q ∈ S → r ≠ q := fun hq e => hr (e ▸ hq)
  cases h with
  | tick | done | stray | alloc | draw | tell | refuse | pick | steal | openTcp | openUdp | answer | close
  | write => rfl
  | enlist _ _ hS | late hS | retry hS | skip hS | useTcp hS | queue hS | send hS | free hS =>
    exact Function.update_of_ne (hne hS) _ _
  | release => exact congrFun (releaseServer_query _ _ _ _) r

theorem Move.issued_le (h : Move cfg env S σ τ) : σ.ch.issued ≤ τ.ch.issued := by
  cases h with
  | refuse | enlist => exact Nat.le_succ _
  | release => exact (releaseServer_issued _ _ _ _).ge
  | tick | done | stray | alloc | draw | tell | pick | steal | late | retry | skip | useTcp | openTcp | openUdp
  | queue | send | answer | free | close | write => exact le_rfl

theorem releaseServer_clock (q : ℕ) (status : UInt32) (ch : State) (i : ℕ) :
    (releaseServer env q status ch i).now = ch.now ∧
      (releaseServer env q status ch i).lastTimeoutProcessed = ch.lastTimeoutProcessed := by
  simp only [releaseServer]
  split <;> exact ⟨rfl, rfl⟩

/-- The clock stands still while moves are made. -/
theorem Move.clock_eq (h : Move cfg env S σ τ) :
    τ.ch.now = σ.ch.now ∧ τ.ch.lastTimeoutProcessed = σ.ch.lastTimeoutProcessed := by
  cases h with
  | release => exact releaseServer_clock _ _ _ _
  | tick | done | stray | alloc | draw | tell | refuse | enlist | pick | steal | late | retry | skip | useTcp
  | openTcp | openUdp | queue | send | answer | free | close | write => exact ⟨rfl, rfl⟩

theorem Moves.clock_eq (h : Moves cfg env S σ τ) :
    τ.ch.now = σ.ch.now ∧ τ.ch.lastTimeoutProcessed = σ.ch.lastTimeoutProcessed :=
  h.keep (P := fun τ => τ.ch.now = σ.ch.now ∧ τ.ch.lastTimeoutProcessed = σ.ch.lastTimeoutProcessed)
    (fun _ _ hm e => ⟨hm.clock_eq.1.trans e.1, hm.clock_eq.2.trans e.2⟩) ⟨rfl, rfl⟩

/-- An act that the network has no part in. -/
def Act.Own : Act → Prop
  | .read _ _ _ | .received _ _ _ => False
  | _ => True

theorem releaseServer_trace (env : Env) (q : ℕ) (status : UInt32) (ch : State) (i : ℕ) :
    ∃ acts, (releaseServer env q status ch i).trace = ch.trace ++ acts ∧ ∀ a ∈ acts, a = .fault := by
  simp only [releaseServer]
  split
  · exact ⟨[], (List.append_nil _).symm, nofun⟩
  · exact ⟨[.fault], rfl, fun a ha => List.mem_singleton.mp ha⟩

/-- A move may only add to the trace, and no message. -/
theorem Move.trace (h : Move cfg env S σ τ) : ∃ acts, τ.ch.trace = σ.ch.trace ++ acts ∧ ∀ a ∈ acts, a.Own := by
  have hsingle : ∀ {a b : Act}, b ∈ [a] → a.Own → b.Own := fun hb ha => List.mem_singleton.mp hb ▸ ha
  cases h with
  | tick | done | alloc | draw | pick | steal | late | retry | skip | useTcp | openTcp | openUdp | free | close =>
    exact ⟨[], (List.append_nil _).symm, nofun⟩
  | @refuse ch _ _ _ _ qbuf _ _ status =>
    have htrace : ((ask ch qbuf).emit (.answered ch.issued ⟨status, 0, []⟩)).trace =
        ch.trace ++ [.asked ch.issued qbuf, .answered ch.issued ⟨status, 0, []⟩] := List.append_assoc _ _ _
    refine ⟨_, htrace, fun b hb => ?_⟩
    rcases List.mem_cons.mp hb with rfl | hb
    · trivial
    · exact hsingle hb trivial
  | stray | tell | enlist | queue | send | answer | write => exact ⟨_, rfl, fun b hb => hsingle hb trivial⟩
  | release =>
    obtain ⟨acts, hacts, hfault⟩ := releaseServer_trace env _ _ _ _
    exact ⟨acts, hacts, fun a ha => hfault a ha ▸ trivial⟩

theorem Moves.trace (h : Moves cfg env S σ τ) : ∃ acts, τ.ch.trace = σ.ch.trace ++ acts ∧ ∀ a ∈ acts, a.Own := by
  apply h.keep (P := fun τ => ∃ acts, τ.ch.trace = σ.ch.trace ++ acts ∧ ∀ a ∈ acts, a.Own)
  · rintro τ υ hm ⟨acts, hacts, hown⟩
    obtain ⟨more, hmore, hown'⟩ := hm.trace
    refine ⟨acts ++ more, ?_, fun a ha => (List.mem_append.mp ha).elim (hown a) (hown' a)⟩
    rw [hmore, hacts, List.append_assoc]
  · exact ⟨[], (List.append_nil _).symm, nofun⟩

theorem Moves.mem_trace (h : Moves cfg env S σ τ) {a : Act} (ha : a ∈ σ.ch.trace) : a ∈ τ.ch.trace := by
  obtain ⟨acts, hacts, -⟩ := h.trace
  exact hacts ▸ List.mem_append_left acts ha

theorem le_releaseRequests (q : ℕ) (status : UInt32) (queue : List SendRequest) :
    ∀ calls, calls ≤ (releaseRequests env q status calls queue).2.2 := by
  induction queue with
  | nil => exact fun _ => le_rfl
  | cons r queue ih =>
    intro calls
    simp only [releaseRequests]
    split_ifs
    · exact Nat.le_of_succ_le (ih (calls + 1))
    · exact Nat.le_of_succ_le (ih (calls + 1))
    · exact ih calls
    · exact ih calls

theorem releaseServer_calls (q : ℕ) (status : UInt32) (ch : State) (i : ℕ) :
    ch.calls ≤ (releaseServer env q status ch i).calls := by
  simp only [releaseServer]
  split <;> exact le_releaseRequests q status _ _

theorem Move.calls_le (h : Move cfg env S σ τ) : σ.ch.calls ≤ τ.ch.calls := by
  cases h with
  | tick | alloc | draw => exact Nat.le_succ _
  | queue | send => exact Nat.le_add_right _ 2
  | release => exact releaseServer_calls _ _ _ _
  | done | stray | tell | refuse | enlist | pick | steal | late | retry | skip | useTcp | openTcp | openUdp | answer
  | free | close | write => exact le_rfl

theorem Moves.calls_le (h : Moves cfg env S σ τ) : σ.ch.calls ≤ τ.ch.calls :=
  h.keep (P := fun τ => σ.ch.calls ≤ τ.ch.calls) (fun _ _ hm e => e.trans hm.calls_le) le_rfl

theorem Current.moves {now : Timeval} (h : Current env σ.ch now) (hm : Moves cfg env S σ τ) : Current env τ.ch now where
  read := by
    obtain ⟨c, hc, hnow⟩ := h.read
    exact ⟨c, hc.trans_le hm.calls_le, hnow⟩
  later := hm.clock_eq.1 ▸ h.later

theorem Moves.query_eq (h : Moves cfg env S σ τ) {r : ℕ} (hr : r ∉ S) : τ.ch.query r = σ.ch.query r :=
  h.keep (P := fun τ => τ.ch.query r = σ.ch.query r) (fun _ _ hm e => (hm.query_eq hr).trans e) rfl

theorem Moves.issued_le (h : Moves cfg env S σ τ) : σ.ch.issued ≤ τ.ch.issued :=
  h.keep (P := fun τ => σ.ch.issued ≤ τ.ch.issued) (fun _ _ hm e => e.trans hm.issued_le) le_rfl

end FakeDns.Channel
