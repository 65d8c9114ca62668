import FakeDns.Channel.Simulation

/-! Every event is a sequence of moves that starts and ends with nothing in hand, and so is
every run. -/

namespace FakeDns.Channel

open ByteMemory

/-- A channel with nothing in hand. -/
abbrev State.idle (ch : State) : Sys := ⟨ch, [], [], false, []⟩

/-- What holds of a channel between two events. -/
structure Sound (cfg : Config) (env : Env) (ch : State) : Prop where
  conns : Conns cfg env ch
  rings : Rings ch.tables [] []
  settled : ∀ {q x}, ch.query q = some x → x.tryCount < cfg.attempts

variable {cfg : Config} {env : Env} {S : Set ℕ} {σ τ : Sys} {ch ch' : State} {q i : ℕ} {x y : Query}
  {H E qs : List ℕ}

theorem Moves.rings (h : Moves cfg env S σ τ) (hr : Rings σ.ch.tables σ.hand σ.ending) :
    Rings τ.ch.tables τ.hand τ.ending :=
  h.keep (P := fun σ => Rings σ.ch.tables σ.hand σ.ending) (fun _ _ hm => hm.rings) hr

theorem Sound.moves (h : Sound cfg env ch) (hm : Moves cfg env S ch.idle ch'.idle) : Sound cfg env ch' :=
  ⟨hm.conns h.conns, hm.rings h.rings, fun hx =>
    hm.settled (fun _ _ hx _ => h.settled hx) _ _ hx List.not_mem_nil⟩

/-- The other queries stay as they are while one query is dealt with. -/
theorem Moves.others (h : Moves cfg env (Own q ch) σ τ) {qs : List ℕ} (hq : q ∉ qs)
    (hqs : ∀ r ∈ qs, r < ch.issued) : ∀ r ∈ qs, τ.ch.query r = σ.ch.query r := by
  intro r hr
  apply h.query_eq
  rintro (rfl | hle)
  · exact hq hr
  · exact absurd (hqs r hr) (not_lt.mpr hle)

/-! ### Errors -/

theorem moveOn_moves (h : Conns cfg env ch) (hr : Rings ch.tables (q :: H) []) (hx : ch.query q = some x)
    (hi : x.server = i) (hn : x.tryCount < cfg.attempts) :
    Moves cfg env (Own q ch) ⟨ch, q :: H, [], false, []⟩ ⟨moveOn cfg env i ch q, H, [], false, []⟩ := by
  have hq : q < ch.issued := hr.fresh hx
  rw [moveOn, State.withQuery_some hx]
  dsimp only
  rw [if_pos hi]
  obtain ⟨hm, y, hy, -, hcount, hcall⟩ := skipServer_moves cfg env (q :: H) false [] hx List.not_mem_nil i
  have hle := hm.issued_le
  have hnext := nextServer_moves (H := H) (K := []) (silent_answer x) List.not_mem_nil (triesLeft cfg x) _ y false
    (hm.conns h) hy hcall (hq.trans_le hle) nofun (hcount ▸ triesLeft_lt hn) (h.current.moves hm)
  exact (hm.mono singleton_subset_own).trans (hnext.mono fun r hr => hr.imp_right (hle.trans ·))

theorem moveOnAll_moves : ∀ (qs : List ℕ) (ch : State), Conns cfg env ch → Rings ch.tables qs [] →
    (∀ q ∈ qs, ∃ x, ch.query q = some x ∧ x.server = i ∧ x.tryCount < cfg.attempts) →
    Moves cfg env Set.univ ⟨ch, qs, [], false, []⟩ (qs.foldl (moveOn cfg env i) ch).idle
  | [], _, _, _, _ => .refl
  | q :: qs, ch, hc, hr, hqs => by
    obtain ⟨x, hx, hi, hn⟩ := hqs q List.mem_cons_self
    have hm := moveOn_moves hc hr hx hi hn
    have hothers := hm.others (List.nodup_cons.mp hr.hand_nodup).1 fun r hr' => by
      obtain ⟨y, hy, -⟩ := hqs r (List.mem_cons_of_mem q hr')
      exact hr.fresh hy
    refine (hm.mono (Set.subset_univ _)).trans (moveOnAll_moves qs _ (hm.conns hc) (hm.rings hr) fun r hr' => ?_)
    obtain ⟨y, hy, hyi⟩ := hqs r (List.mem_cons_of_mem q hr')
    exact ⟨y, (hothers r hr').trans hy, hyi⟩

theorem handleError_moves (h : Sound cfg env ch) (i : ℕ) :
    Moves cfg env Set.univ ch.idle (handleError cfg env ch i).idle := by
  rw [handleError]
  set ch₁ := steal (closeSockets ch i) i with hch
  have hsteal : Moves cfg env Set.univ ch.idle ⟨ch₁, ch₁.toServer none, [], false, []⟩ := .tail (.single .close) .steal
  have hrings : Rings ch₁.tables (ch₁.toServer none) [] := hsteal.rings h.rings
  have hqs : ∀ q ∈ ch₁.toServer none, ∃ x, ch₁.query q = some x ∧ x.server = i ∧ x.tryCount < cfg.attempts := by
    intro q hq
    have hempty : Function.update ch.toServer none [] = ch.toServer := by
      rw [← h.rings.local_empty]
      exact Function.update_eq_self _ _
    change q ∈ Buckets.swap (Function.update ch.toServer none []) none (some i) none at hq
    rw [hempty, Buckets.swap, Equiv.swap_apply_left] at hq
    obtain ⟨x, hx, hi⟩ := h.rings.server_eq hq
    exact ⟨x, hx, hi, h.settled hx⟩
  have hall : Moves cfg env Set.univ _ _ := hsteal.trans (moveOnAll_moves _ _ (hsteal.conns h.conns) hrings hqs)
  exact (if_pos (hall.rings h.rings).local_empty : (if _ then _ else _) = _) ▸ hall

/-! ### Answers -/

/-- The search for the query of a packet only asks for memory, and what it finds is a query
with the id and the questions of the packet. -/
theorem findQuery_moves (cfg : Config) (env : Env) {abuf : List UInt8} (hsize : abuf.length < 2 ^ 16) (id : ℕ) :
    ∀ ch : State, (∀ q ∈ qs, ∃ x, ch.query q = some x ∧ x.qbuf.length < 2 ^ 16) →
      ∃ ch' o, findQuery env abuf id qs ch = (ch', o) ∧ ch'.query = ch.query ∧ ch'.trace = ch.trace ∧
        Moves cfg env Set.univ ch.idle ch'.idle ∧
        ∀ q, o = some q → ∃ x, ch.query q = some x ∧ x.qid = id ∧ sameQuestions x.qbuf abuf = .ok true := by
  induction qs with
  | nil => exact fun ch _ => ⟨ch, none, rfl, rfl, rfl, .refl, nofun⟩
  | cons q qs ih =>
    intro ch hlive
    have hrest : ∀ r ∈ qs, ∃ x, ch.query r = some x ∧ x.qbuf.length < 2 ^ 16 :=
      fun r hr => hlive r (List.mem_cons_of_mem q hr)
    obtain ⟨x, hx, hlt⟩ := hlive q List.mem_cons_self
    have htick : Move cfg env Set.univ ch.idle ch.tick.idle := .tick
    rw [findQuery, hx]
    dsimp only
    split_ifs with hid
    · obtain ⟨same, hsame, -⟩ := sameQuestions_eq (hlt.trans (by norm_num)) (hsize.trans (by norm_num : 2 ^ 16 < 2 ^ 22))
      rw [hsame]
      dsimp only
      split_ifs with hfound
      · obtain ⟨rfl, -⟩ := hfound
        refine ⟨ch.tick, some q, rfl, rfl, rfl, .single htick, ?_⟩
        rintro _ ⟨⟩
        exact ⟨x, hx, hid, hsame⟩
      · obtain ⟨ch', o, heq, hquery, htrace, hm, hfound⟩ := ih ch.tick hrest
        exact ⟨ch', o, heq, hquery, htrace, .head htick hm, hfound⟩
    · exact ih ch hrest

theorem answerHeader_eq {abuf : List UInt8} (h : HFIXEDSZ ≤ abuf.length) :
    ∃ id tc rcode, answerHeader abuf = .ok (id, tc, rcode) := by
  have h12 : HFIXEDSZ = 12 := rfl
  rw [answerHeader, headerQid, dns16_of_lt (by omega), Outcome.bind_ok, headerTc, byteAt_of_lt (by omega),
    Outcome.bind_ok, Outcome.bind_ok, headerRcode, byteAt_of_lt (by omega), Outcome.bind_ok, Outcome.bind_ok]
  exact ⟨_, _, _, rfl⟩

theorem acceptAnswer_moves (h : Sound cfg env ch) (hx : ch.query q = some x) {msg : List UInt8} {tc : Bool} {rcode : ℕ}
    (hlen : HFIXEDSZ ≤ msg.length) (hheader : answerHeader msg = .ok (x.qid, tc, rcode))
    (hsame : sameQuestions x.qbuf msg = .ok true) {i : ℕ} (tcp : Bool) {via : Option ℕ}
    (hvia : tcp = false → via = none) (hreceived : .received i via msg ∈ ch.trace) :
    Moves cfg env Set.univ ch.idle (acceptAnswer cfg env ch q x msg i tcp tc rcode).idle := by
  have hq : q < ch.issued := h.rings.fresh hx
  have hn : x.tryCount < cfg.attempts := h.settled hx
  have hpick : Move cfg env Set.univ ch.idle ⟨ch, [q], [], false, []⟩ := .pick trivial hx List.not_mem_nil
  rw [acceptAnswer]
  dsimp only
  by_cases htrunc : (tc = true ∨ msg.length > PACKETSZ) ∧ ¬ tcp = true ∧ ¬ cfg.has ARES_FLAG_IGNTC = true
  · rw [if_pos htrunc]
    by_cases htcp : x.usingTcp = true
    · rw [if_pos htcp]
    · rw [if_neg htcp]
      rw [Bool.not_eq_true] at htcp
      have huse : Move cfg env Set.univ ⟨ch, [q], [], false, []⟩
          ⟨ch.setQuery q { x with usingTcp := true }, [q], [], true, []⟩ := .useTcp trivial hx List.not_mem_nil htcp
            ⟨i, msg, tc, rcode, hvia (Bool.not_eq_true _ ▸ htrunc.2.1) ▸ hreceived, hheader, hsame, htrunc.1⟩
      have hm : Moves cfg env Set.univ ch.idle _ := .tail (.single hpick) huse
      -- a query that has not used TCP was sent over no connection
      have hunused : (x.serverInfo x.server).tcpConnectionGeneration < (ch.server x.server).generation :=
        ((h.conns.fits hx).unused htcp x.server).trans_lt (h.conns.generation _ (h.conns.fits hx).server_lt).1
      have hc := hm.conns h.conns
      exact hm.trans (Moves.mono (Set.subset_univ _) (sendQuery_moves (x := { x with usingTcp := true })
        (silent_answer x) hc State.setQuery_self hq List.not_mem_nil nofun hn (fun _ => hunused) hc.current))
  rw [if_neg htrunc]
  by_cases hrcode : ¬ cfg.has ARES_FLAG_NOCHECKRESP = true ∧ (rcode = SERVFAIL ∨ rcode = NOTIMP ∨ rcode = REFUSED)
  · rw [if_pos hrcode]
    have hskip : ∀ H, _ := fun H => skipServer_moves cfg env H false [] hx List.not_mem_nil i
    by_cases hserver : x.server = i
    · rw [if_pos hserver]
      obtain ⟨hskip, y, hy, -, hcount, hcall⟩ := hskip [q]
      have hm : Moves cfg env Set.univ ch.idle _ := .head hpick (hskip.mono (Set.subset_univ _))
      have hle := hm.issued_le
      exact hm.trans (Moves.mono (Set.subset_univ _) (nextServer_moves (silent_answer x) List.not_mem_nil _ _ y false
        (hm.conns h.conns) hy hcall (hq.trans_le hle) nofun (hcount ▸ triesLeft_lt hn)
        (hm.conns h.conns).current))
    · rw [if_neg hserver]
      exact (hskip []).1.mono (Set.subset_univ _)
  · rw [if_neg hrcode]
    refine .head hpick (Moves.mono (Set.subset_univ _) (endQuery_moves (silent_answer x) h.conns hx hq List.not_mem_nil
      nofun fun _ => ⟨i, via, msg, tc, rcode, hreceived, hheader, hsame, fun hcheck => ?_, ?_, ?_⟩))
    · have hr := not_and.mp hrcode hcheck
      rwa [not_or, not_or] at hr
    · split_ifs with hcut
      · rw [List.length_take]
        exact le_min (by decide) hlen
      · exact hlen
    · split_ifs
      · exact List.take_prefix _ _
      · exact List.prefix_rfl

theorem Sound.emit (h : Sound cfg env ch) (a : Act) : Sound cfg env (ch.emit a) :=
  ⟨⟨h.conns.lastServer, h.conns.generation, h.conns.fits, h.conns.input, h.conns.clock⟩, h.rings, h.settled⟩

theorem processAnswer_moves (h : Sound cfg env ch) {abuf : List UInt8} (hsize : abuf.length < 2 ^ 16) {i : ℕ}
    {tcp : Bool} {via : Option ℕ} (hvia : (if tcp then some (ch.server i).generation else none) = via) :
    Moves cfg env Set.univ (ch.emit (.received i via abuf)).idle (processAnswer cfg env ch abuf i tcp).idle := by
  rw [processAnswer, hvia]
  by_cases hlen : abuf.length < HFIXEDSZ
  · rw [if_pos hlen]
  rw [if_neg hlen]
  replace h := h.emit (.received i via abuf)
  set ch₁ := ch.emit (.received i via abuf) with hch
  obtain ⟨id, tc, rcode, hheader⟩ := answerHeader_eq (not_lt.mp hlen)
  have hlive : ∀ q ∈ ch₁.byQid (id % ARES_QID_TABLE_SIZE), ∃ x, ch₁.query q = some x ∧ x.qbuf.length < 2 ^ 16 := by
    intro q hq
    obtain ⟨x, hx, -⟩ := h.rings.mem_qid.mp hq
    exact ⟨x, hx, (h.conns.fits hx).length_lt⟩
  obtain ⟨ch₂, o, heq, hquery, htrace, hm, hfound⟩ := findQuery_moves cfg env hsize id ch₁ hlive
  rw [hheader]
  dsimp only
  rw [heq]
  refine hm.trans ?_
  cases o with
  | none => exact .refl
  | some q =>
    obtain ⟨x, hx, rfl, hsame⟩ := hfound q rfl
    rw [← hquery] at hx
    dsimp only
    rw [State.withQuery_some hx]
    have hnone : tcp = false → via = none := fun ht => by rw [← hvia, ht, if_neg Bool.false_ne_true]
    refine acceptAnswer_moves (h.moves hm) hx (not_lt.mp hlen) hheader hsame tcp hnone ?_
    rw [htrace]
    exact List.mem_append_right ch.trace (List.mem_singleton_self _)

/-! ### Connections -/

theorem writeTcpData_moves (h : Sound cfg env ch) (hi : i < cfg.nservers) (count : Option ℕ) :
    Moves cfg env Set.univ ch.idle (writeTcpData cfg env ch i count).idle := by
  rw [writeTcpData.eq_def]
  dsimp only
  by_cases hguard : (ch.server i).queue = [] ∨ ¬ (ch.server i).tcpSocket = true ∨ (ch.server i).isBroken = true
  · rw [if_pos hguard]
  · rw [if_neg hguard]
    rw [not_or, not_or, not_not, Bool.not_eq_true] at hguard
    cases count with
    | none => exact handleError_moves h i
    | some n => exact .single (.write hi hguard.2.1 hguard.2.2)

/-- What an event does besides moves. -/
inductive Advance (cfg : Config) (env : Env) : Event → State → State → Prop
  | now {ch : State} : Advance cfg env .now ch { ch.tick with now := env.tvnow ch.calls }
  | timeouts {ch : State} {visits} :
      Advance cfg env (.timeouts visits) ch { ch with lastTimeoutProcessed := ch.now.sec }
  | packet {ch : State} {i packets sender abuf} (hi : i < cfg.nservers) (hmem : some (sender, abuf) ∈ packets)
      (hsender : sameAddress sender (cfg.addr i) = true) :
      Advance cfg env (.packets i packets) ch (ch.emit (.received i none (abuf.take (PACKETSZ + 1))))
  | more {ch : State} {i bytes input} (hi : i < cfg.nservers) (ho : (ch.server i).tcpSocket = true)
      (hread : (ch.server i).input.read bytes = .more input) :
      Advance cfg env (.read i bytes) ch ((sread ch i bytes).setServer i { ch.server i with input := input })
  | message {ch : State} {i bytes input abuf} (hi : i < cfg.nservers) (ho : (ch.server i).tcpSocket = true)
      (hread : (ch.server i).input.read bytes = .message input abuf) :
      Advance cfg env (.read i bytes) ch ((sread ch i bytes).emit (.received i (some (ch.server i).generation) abuf))
  | consumed {ch : State} {i bytes length} :
      Advance cfg env (.read i bytes) ch (ch.setServer i { ch.server i with input := ⟨[], length, []⟩ })

/-- A channel with a client that is about to run. -/
abbrev State.running (ch : State) (client : Client) : Sys := ⟨ch, [], [], false, [client]⟩

/-- What an event does at a time. -/
inductive Turn (cfg : Config) (env : Env) : Event → State → State → Prop
  | moves {e ch ch'} (h : Moves cfg env Set.univ ch.idle ch'.idle) : Turn cfg env e ch ch'
  | client {client ch ch'} (h : Moves cfg env Set.univ (ch.running client) ch'.idle) :
      Turn cfg env (.run client) ch ch'
  | advance {e ch ch'} (h : Advance cfg env e ch ch') : Turn cfg env e ch ch'

theorem Sound.setInput (h : Sound cfg env ch) {input : TcpInput} (hinput : input.Pending) :
    Sound cfg env (ch.setServer i { ch.server i with input := input }) where
  conns := by
    have hkeep : ∀ j, ((ch.setServer i { ch.server i with input := input }).server j).generation =
        (ch.server j).generation := by
      intro j
      by_cases hj : j = i
      · subst hj
        rw [State.setServer_self]
      · rw [State.setServer_of_ne hj]
    refine h.conns.step h.conns.lastServer (fun j hj => ?_) (fun _ _ hx => .inl hx) (h.conns.setInput hinput) le_rfl rfl
    rw [hkeep]
    exact ⟨le_rfl, (h.conns.generation j hj).2⟩
  rings := h.rings
  settled := h.settled

theorem Sound.advance {e : Event} (h : Sound cfg env ch) (ha : Advance cfg env e ch ch') : Sound cfg env ch' := by
  cases ha with
  | now =>
    have hclock : ∃ c < ch.calls + 1, env.tvnow ch.calls = env.tvnow c := ⟨ch.calls, Nat.lt_succ_self _, rfl⟩
    exact ⟨⟨h.conns.lastServer, h.conns.generation, h.conns.fits, h.conns.input, hclock⟩, h.rings, h.settled⟩
  | timeouts =>
    exact ⟨⟨h.conns.lastServer, h.conns.generation, h.conns.fits, h.conns.input, h.conns.clock⟩, h.rings, h.settled⟩
  | packet => exact h.emit _
  | message => exact (h.emit _).emit _
  | @more ch i bytes input _ _ hread =>
    obtain ⟨hnil, -⟩ | ⟨next, hnext, hpending, -⟩ | ⟨length, abuf, hmsg, -⟩ := (h.conns.input i).read_cases bytes
    · exact absurd (hread.symm.trans hnil) nofun
    · cases hread.symm.trans hnext
      exact (h.emit _).setInput hpending
    · exact absurd (hread.symm.trans hmsg) nofun
  | consumed => exact h.setInput (pending_empty _)

/-- Apart from what else events do, a turn is made of moves. -/
theorem Turn.moves_or {e : Event} (h : Turn cfg env e ch ch') :
    (∃ K, Moves cfg env Set.univ ⟨ch, [], [], false, K⟩ ch'.idle) ∨ Advance cfg env e ch ch' := by
  cases h with
  | moves hm | client hm => exact .inl ⟨_, hm⟩
  | advance ha => exact .inr ha

theorem Sound.turn {e : Event} (h : Sound cfg env ch) (ht : Turn cfg env e ch ch') : Sound cfg env ch' := by
  cases ht with
  | moves hm => exact h.moves hm
  | client hm =>
    exact ⟨hm.conns h.conns, hm.rings h.rings, fun hx =>
      hm.settled (fun _ _ hx _ => h.settled hx) _ _ hx List.not_mem_nil⟩
  | advance ha => exact h.advance ha

/-- The turns of an event. -/
abbrev Turns (cfg : Config) (env : Env) (e : Event) : State → State → Prop := Relation.ReflTransGen (Turn cfg env e)

theorem Turns.of_moves {e : Event} (h : Moves cfg env Set.univ ch.idle ch'.idle) : Turns cfg env e ch ch' :=
  .single (.moves h)

/-- A turn of `read_tcp_data`: nothing is read, or part of a message, or what completes one,
which is dealt with before the connection is ready for the next one. -/
inductive Reads (cfg : Config) (env : Env) (i : ℕ) (bytes : List UInt8) : State → State → Prop
  | nothing {ch ch' : State} (hm : Moves cfg env Set.univ ch.idle ch'.idle) : Reads cfg env i bytes ch ch'
  | part {ch ch' : State} {input} (ho : (ch.server i).tcpSocket = true)
      (hread : (ch.server i).input.read bytes = .more input)
      (hm : Moves cfg env Set.univ ((sread ch i bytes).setServer i { ch.server i with input := input }).idle ch'.idle) :
      Reads cfg env i bytes ch ch'
  | message {ch ch' : State} {length abuf} (ho : (ch.server i).tcpSocket = true)
      (hread : (ch.server i).input.read bytes = .message ⟨[], length, []⟩ abuf)
      (hm : Moves cfg env Set.univ ((sread ch i bytes).emit (.received i (some (ch.server i).generation) abuf)).idle
        ch'.idle) :
      Reads cfg env i bytes ch (ch'.setServer i { ch'.server i with input := ⟨[], length, []⟩ })

theorem readTcpData_reads (h : Sound cfg env ch) (hi : i < cfg.nservers) (bytes : List UInt8) :
    Reads cfg env i bytes ch (readTcpData cfg env ch i bytes) := by
  rw [readTcpData]
  dsimp only
  by_cases hguard : ¬ (ch.server i).tcpSocket = true ∨ (ch.server i).isBroken = true
  · rw [if_pos hguard]
    exact .nothing .refl
  rw [if_neg hguard]
  have ho : (ch.server i).tcpSocket = true := not_not.mp (not_or.mp hguard).1
  obtain ⟨hread, -⟩ | ⟨next, hread, hnext, -⟩ | ⟨length, abuf, hread, -, hlt, -⟩ := (h.conns.input i).read_cases bytes
  · rw [hread]
    exact .nothing (handleError_moves h i)
  · rw [hread]
    dsimp only
    have hpart := h.advance (.more hi ho hread)
    apply Reads.part ho hread
    split_ifs
    · exact .single .tick
    · have htick : Moves cfg env Set.univ ((sread ch i bytes).setServer i { ch.server i with input := next }).idle
          ((sread ch i bytes).tick.setServer i { ch.server i with input := next }).idle := .single .tick
      exact htick.trans (handleError_moves (hpart.moves htick) i)
    · exact .refl
  · rw [hread]
    exact .message ho hread (processAnswer_moves (h.emit _) hlt rfl)

theorem readTcpData_turns (h : Sound cfg env ch) (hi : i < cfg.nservers) (bytes : List UInt8) :
    Turns cfg env (.read i bytes) ch (readTcpData cfg env ch i bytes) := by
  have hreads := readTcpData_reads h hi bytes
  generalize readTcpData cfg env ch i bytes = ch' at hreads ⊢
  cases hreads with
  | nothing hm => exact .of_moves hm
  | part ho hread hm => exact .tail (.single (.advance (.more hi ho hread))) (.moves hm)
  | message ho hread hm =>
    exact .tail (.tail (.single (.advance (.message hi ho hread))) (.moves hm)) (.advance .consumed)

theorem readPackets_turns (hi : i < cfg.nservers) {all : List (Option (Addr × List UInt8))} :
    ∀ (packets : List (Option (Addr × List UInt8))) (ch : State), Sound cfg env ch → (∀ p ∈ packets, p ∈ all) →
      Turns cfg env (.packets i all) ch (readPackets cfg env i packets ch)
  | [], _, _, _ => .refl
  | none :: _, _, h, _ => .of_moves (handleError_moves h i)
  | some (sender, abuf) :: packets, ch, h, hall => by
    rw [readPackets]
    split_ifs with hnil hsender
    · exact .of_moves (handleError_moves h i)
    · have hpacket : Turn cfg env (.packets i all) ch _ :=
        .advance (.packet hi (hall _ List.mem_cons_self) hsender)
      have hm : Moves cfg env Set.univ (ch.emit (.received i none (abuf.take (PACKETSZ + 1)))).idle
          (processAnswer cfg env ch (abuf.take (PACKETSZ + 1)) i false).idle :=
        processAnswer_moves h ((List.length_take_le _ _).trans_lt (by decide)) rfl
      have hrest := readPackets_turns hi packets _ ((h.turn hpacket).moves hm) fun p hp =>
        hall p (List.mem_cons_of_mem _ hp)
      exact .head hpacket (.head (.moves hm) hrest)
    · exact .refl

theorem readUdpPackets_turns (h : Sound cfg env ch) (hi : i < cfg.nservers)
    (packets : List (Option (Addr × List UInt8))) :
    Turns cfg env (.packets i packets) ch (readUdpPackets cfg env ch i packets) := by
  rw [readUdpPackets]
  split_ifs
  · exact .refl
  · exact readPackets_turns hi packets ch h fun _ hp => hp

/-! ### Timeouts -/

/-- The query is due. -/
def Due (ch : State) (x : Query) : Prop := x.timeout.sec ≠ 0 ∧ timedout ch.now x.timeout

theorem expire_of_not_due (hx : ch.query q = some x) (hdue : ¬ Due ch x) : expire cfg env ch q = ch := by
  rw [expire, State.withQuery_some hx]
  exact if_neg hdue

/-- A query that is due is sent again or ends. -/
theorem expire_due (h : Sound cfg env ch) (hx : ch.query q = some x) (hdue : Due ch x) :
    Moves cfg env (Own q ch) ⟨ch, [q], [], false, []⟩ (expire cfg env ch q).idle := by
  rw [expire, State.withQuery_some hx, if_pos (show x.timeout.sec ≠ 0 ∧ _ from hdue)]
  have hlate : Move cfg env (Own q ch) ⟨ch, [q], [], false, []⟩ ⟨ch.setQuery q { x with
      errorStatus := ARES_ETIMEOUT
      timeouts := x.timeouts + 1 }, [q], [], false, []⟩ := .late (.inl rfl) hx List.not_mem_nil
  have hpick : Move cfg env Set.univ ch.idle ⟨ch, [q], [], false, []⟩ := .pick trivial hx List.not_mem_nil
  have hn : x.tryCount + triesLeft cfg x < cfg.attempts := triesLeft_lt (h.settled hx)
  have hc := hlate.conns (hpick.conns h.conns)
  exact .head hlate (nextServer_moves (silent_answer x) List.not_mem_nil _ _ _ _ hc State.setQuery_self rfl
    (h.rings.fresh hx) nofun hn hc.current)

theorem expire_moves (h : Sound cfg env ch) (hx : ch.query q = some x) :
    Moves cfg env (Own q ch) ch.idle (expire cfg env ch q).idle := by
  by_cases hdue : Due ch x
  · exact .head (.pick (.inl rfl) hx List.not_mem_nil) (expire_due h hx hdue)
  · rw [expire_of_not_due hx hdue]

/-- The next query of a list stays in it when one has had its turn. -/
theorem expire_next (h : Sound cfg env ch) {b r : ℕ} (hq : q ∈ ch.byTimeout b)
    (hr : Buckets.next q (ch.byTimeout b) = some r) : r ∈ (expire cfg env ch q).byTimeout b := by
  obtain ⟨x, hx, -⟩ := h.rings.of_mem_timeout hq
  obtain ⟨pre, tail, hsplit⟩ := List.append_of_mem hq
  have hnd : (ch.byTimeout b).Nodup := h.rings.timeout_apart.nodup b
  rw [hsplit] at hr hnd
  have hpre : q ∉ pre := fun hm => (List.nodup_append.mp hnd).2.2 q hm q List.mem_cons_self rfl
  rw [Buckets.next_append hpre] at hr
  have hmem : r ∈ tail := List.mem_of_head? hr
  have hne : r ≠ q := fun e => (List.nodup_cons.mp (List.nodup_append.mp hnd).2.1).1 (e ▸ hmem)
  have hbucket : r ∈ ch.byTimeout b := hsplit ▸ List.mem_append_right pre (List.mem_cons_of_mem q hmem)
  obtain ⟨y, hy, rfl⟩ := h.rings.of_mem_timeout hbucket
  have hout : r ∉ Own q ch := fun hm => hm.elim hne fun hle => absurd (h.rings.fresh hy) (not_lt.mpr hle)
  have hm := expire_moves h hx
  exact (h.moves hm).rings.mem_timeout ((hm.query_eq hout).trans hy) List.not_mem_nil

theorem walk_moves (b : ℕ) : ∀ (n : ℕ) (node : Option ℕ) (ch : State), Sound cfg env ch →
    (∀ q, node = some q → q ∈ ch.byTimeout b) → Moves cfg env Set.univ ch.idle (walk cfg env b n node ch).2.idle
  | 0, _, _, _, _ => .refl
  | _ + 1, none, _, _, _ => .refl
  | n + 1, some q, ch, h, hnode => by
    have hq := hnode q rfl
    obtain ⟨x, hx, -⟩ := h.rings.of_mem_timeout hq
    have hm := expire_moves h hx
    exact (hm.mono (Set.subset_univ _)).trans
      (walk_moves b n _ _ (h.moves hm) fun r hr => expire_next h hq hr)

theorem walkBucket_moves (h : Sound cfg env ch) (b n : ℕ) :
    Moves cfg env Set.univ ch.idle (walk cfg env b n (ch.byTimeout b).head? ch).2.idle :=
  walk_moves b n _ ch h fun _ hq => List.mem_of_head? hq

/-- `process_timeouts` makes moves, and notes the time when it is through. -/
theorem expireBuckets_moves (visits : ℕ) : ∀ (ts : List ℕ) (ch : State), Sound cfg env ch →
    ∃ ch', Moves cfg env Set.univ ch.idle ch'.idle ∧ (expireBuckets cfg env visits ts ch = (false, ch') ∨
      expireBuckets cfg env visits ts ch = (true, { ch' with lastTimeoutProcessed := ch'.now.sec }))
  | [], ch, _ => ⟨ch, .refl, .inr rfl⟩
  | t :: ts, ch, h => by
    have hm := walkBucket_moves h (t % ARES_TIMEOUT_TABLE_SIZE) visits
    rw [expireBuckets]
    split
    next ch₁ heq =>
      rw [heq] at hm
      obtain ⟨ch', hm', hcase⟩ := expireBuckets_moves visits ts ch₁ (h.moves hm)
      exact ⟨ch', hm.trans hm', hcase⟩
    next ch₁ heq =>
      rw [heq] at hm
      exact ⟨ch₁, hm, .inl rfl⟩

/-! ### Runs -/

/-- Every event is a sequence of turns. -/
theorem step_turns (h : Sound cfg env ch) (e : Event) : Turns cfg env e ch (step cfg env ch e) := by
  cases e with
  | run client => exact .single (.client ((client.run_moves ch [] [] [] h.conns nofun).mono (Set.subset_univ _)))
  | now => exact .single (.advance .now)
  | write i count =>
    rw [step]
    split_ifs with hi
    · exact .of_moves (writeTcpData_moves h hi count)
    · exact .refl
  | read i bytes =>
    rw [step]
    split_ifs with hi
    · exact readTcpData_turns h hi bytes
    · exact .refl
  | packets i packets =>
    rw [step]
    split_ifs with hi
    · exact readUdpPackets_turns h hi packets
    · exact .refl
  | timeouts visits =>
    obtain ⟨ch', hm, heq | heq⟩ := @expireBuckets_moves cfg env visits
      (List.range' ch.lastTimeoutProcessed (ch.now.sec + 1 - ch.lastTimeoutProcessed)) ch h
    · rw [step, processTimeouts, heq]
      exact .of_moves hm
    · rw [step, processTimeouts, heq]
      exact .tail (Turns.of_moves hm) (.advance .timeouts)
  | broken i =>
    rw [step, processBrokenConnection]
    split_ifs
    · exact .of_moves (handleError_moves h i)
    · exact .refl
    · exact .refl

/-- What every turn keeps, an event keeps. -/
theorem turns_induction {P : State → Prop} {e : Event}
    (hturn : ∀ {ch ch'}, Sound cfg env ch → Turn cfg env e ch ch' → P ch → P ch')
    (h : Sound cfg env ch) (ht : Turns cfg env e ch ch') (hP : P ch) : Sound cfg env ch' ∧ P ch' := by
  induction ht with
  | refl => exact ⟨h, hP⟩
  | tail _ ht ih => exact ⟨ih.1.turn ht, hturn ih.1 ht ih.2⟩

theorem step_sound (h : Sound cfg env ch) (e : Event) : Sound cfg env (step cfg env ch e) :=
  (turns_induction (P := fun _ => True) (fun _ _ _ => trivial) h (step_turns h e) trivial).1

theorem init_sound (cfg : Config) (env : Env) : Sound cfg env (init cfg env) where
  conns :=
    ⟨cfg.nservers_pos, fun i hi => ⟨Nat.succ_pos i, hi⟩, nofun, fun _ => pending_empty 0, 0, Nat.one_pos, rfl⟩
  rings :=
    { fresh := nofun
      hand_nodup := List.nodup_nil
      hand_live := nofun
      ending_nodup := List.nodup_nil
      ending_hand := nofun
      all_nodup := List.nodup_nil
      mem_all := ⟨nofun, nofun⟩
      qid_apart := Buckets.apart_empty
      mem_qid := ⟨nofun, nofun⟩
      timeout_apart := Buckets.apart_empty
      of_mem_timeout := nofun
      mem_timeout := nofun
      server_apart := Buckets.apart_empty
      of_mem_server := nofun
      mem_server := nofun }
  settled := nofun

/-- What every event keeps holds after any events. -/
theorem steps_induction {P : State → Prop} (events : List Event)
    (hstep : ∀ {ch}, Sound cfg env ch → P ch → ∀ e ∈ events, P (step cfg env ch e)) : Sound cfg env ch → P ch →
      Sound cfg env (events.foldl (step cfg env) ch) ∧ P (events.foldl (step cfg env) ch) := by
  induction events generalizing ch with
  | nil => exact And.intro
  | cons e events ih =>
    exact fun h hP => ih (fun h hP e he => hstep h hP e (List.mem_cons_of_mem _ he)) (step_sound h e)
      (hstep h hP e List.mem_cons_self)

theorem run_sound (cfg : Config) (env : Env) (events : List Event) : Sound cfg env (run cfg env events) :=
  (steps_induction (P := fun _ => True) events (fun _ _ _ _ => trivial) (init_sound cfg env) trivial).1

/-- What every move keeps, a sequence of moves keeps in a channel that is in order. -/
theorem Moves.keep_sound {P : Sys → Prop}
    (hmove : ∀ {σ τ}, Move cfg env S σ τ → Conns cfg env σ.ch → Rings σ.ch.tables σ.hand σ.ending → P σ → P τ)
    (h : Moves cfg env S σ τ) (hc : Conns cfg env σ.ch) (hr : Rings σ.ch.tables σ.hand σ.ending) (hP : P σ) : P τ :=
  (h.keep (P := fun σ => (Conns cfg env σ.ch ∧ Rings σ.ch.tables σ.hand σ.ending) ∧ P σ)
    (fun _ _ hm hP => ⟨⟨hm.conns hP.1.1, hm.rings hP.1.2⟩, hmove hm hP.1.1 hP.1.2 hP.2⟩) ⟨⟨hc, hr⟩, hP⟩).2

/-- What every move keeps, and what else an event does, holds after the event. -/
theorem step_keep {P : Sys → Prop} {e : Event}
    (hmove : ∀ {σ τ}, Move cfg env Set.univ σ τ → Conns cfg env σ.ch → Rings σ.ch.tables σ.hand σ.ending → P σ → P τ)
    (hstart : ∀ {ch : State} {client}, e = .run client → P ch.idle → P (ch.running client))
    (hadvance : ∀ {ch ch'}, Advance cfg env e ch ch' → P ch.idle → P ch'.idle) (h : Sound cfg env ch)
    (hP : P ch.idle) : P (step cfg env ch e).idle := by
  apply (turns_induction (P := fun ch => P ch.idle) _ h (step_turns h e) hP).2
  intro ch ch' h ht hP
  cases ht with
  | moves hm => exact hm.keep_sound hmove h.conns h.rings hP
  | client hm => exact hm.keep_sound hmove h.conns h.rings (hstart rfl hP)
  | advance ha => exact hadvance ha hP

theorem run_keep {P : Sys → Prop} (events : List Event)
    (hmove : ∀ {σ τ}, Move cfg env Set.univ σ τ → Conns cfg env σ.ch → Rings σ.ch.tables σ.hand σ.ending → P σ → P τ)
    (hstart : ∀ {ch : State} {client}, .run client ∈ events → P ch.idle → P (ch.running client))
    (hadvance : ∀ {e ch ch'}, e ∈ events → Advance cfg env e ch ch' → P ch.idle → P ch'.idle)
    (hinit : P (init cfg env).idle) : P (run cfg env events).idle := by
  apply (steps_induction (P := fun ch => P ch.idle) events _ (init_sound cfg env) hinit).2
  intro ch h hP e he
  apply step_keep hmove _ (hadvance he) h hP
  rintro ch client rfl
  exact hstart he

/-! ### What has happened -/

theorem Turn.trace_subset {e : Event} (h : Turn cfg env e ch ch') : ch.trace ⊆ ch'.trace := by
  rcases h.moves_or with ⟨_, hm⟩ | hadvance
  · exact fun _ ha => hm.mem_trace ha
  · cases hadvance with
    | now | timeouts | consumed => exact List.Subset.refl _
    | packet | more => exact List.subset_append_left _ _
    | message => exact List.Subset.trans (List.subset_append_left _ _) (List.subset_append_left _ _)

theorem step_trace_subset (h : Sound cfg env ch) (e : Event) : ch.trace ⊆ (step cfg env ch e).trace :=
  (turns_induction (P := fun ch' => ch.trace ⊆ ch'.trace)
    (fun _ ht hsub => List.Subset.trans hsub ht.trace_subset) h (step_turns h e) (List.Subset.refl _)).2

theorem run_trace_subset (cfg : Config) (env : Env) (events more : List Event) :
    (run cfg env events).trace ⊆ (run cfg env (events ++ more)).trace := by
  rw [run, run, List.foldl_append, ← run]
  exact (steps_induction (P := fun ch => (run cfg env events).trace ⊆ ch.trace) more
    (fun h hsub e _ => List.Subset.trans hsub (step_trace_subset h e)) (run_sound cfg env events)
    (List.Subset.refl _)).2

theorem Move.trace_subset (h : Move cfg env S σ τ) : σ.ch.trace ⊆ τ.ch.trace := fun _ ha =>
  Moves.mem_trace (.single h) ha

theorem Advance.trace_subset {e : Event} (h : Advance cfg env e ch ch') : ch.trace ⊆ ch'.trace :=
  Turn.trace_subset (.advance h)

/-- A move that keeps something if it is made before all of `seen` has happened. -/
theorem Move.keep_seen {P : Sys → Prop} {seen : List Act}
    (hmove : Move cfg env S σ τ → Conns cfg env σ.ch → Rings σ.ch.tables σ.hand σ.ending → σ.ch.trace ⊆ seen →
      P σ → P τ)
    (h : Move cfg env S σ τ) (hc : Conns cfg env σ.ch) (hr : Rings σ.ch.tables σ.hand σ.ending)
    (hP : σ.ch.trace ⊆ seen → P σ) (hseen : τ.ch.trace ⊆ seen) : P τ :=
  hmove h hc hr (List.Subset.trans h.trace_subset hseen) (hP (List.Subset.trans h.trace_subset hseen))

/-- What every move keeps that is made before all of `seen` has happened. -/
theorem Moves.keep_seen {P : Sys → Prop} {seen : List Act}
    (hmove : ∀ {σ τ}, Move cfg env S σ τ → Conns cfg env σ.ch → Rings σ.ch.tables σ.hand σ.ending →
      σ.ch.trace ⊆ seen → P σ → P τ)
    (h : Moves cfg env S σ τ) (hc : Conns cfg env σ.ch) (hr : Rings σ.ch.tables σ.hand σ.ending)
    (hseen : τ.ch.trace ⊆ seen) (hP : P σ) : P τ :=
  h.keep_sound (P := fun σ => σ.ch.trace ⊆ seen → P σ) (fun hm => hm.keep_seen hmove) hc hr (fun _ => hP) hseen

/-- What every move keeps that is made before all of `seen` has happened holds after the event. -/
theorem step_keep_seen {P : Sys → Prop} {seen : List Act} {e : Event}
    (hmove : ∀ {σ τ}, Move cfg env Set.univ σ τ → Conns cfg env σ.ch → Rings σ.ch.tables σ.hand σ.ending →
      σ.ch.trace ⊆ seen → P σ → P τ)
    (hstart : ∀ {ch : State} {client}, e = .run client → P ch.idle → P (ch.running client))
    (hadvance : ∀ {ch ch'}, Advance cfg env e ch ch' → P ch.idle → P ch'.idle) (h : Sound cfg env ch)
    (hseen : (step cfg env ch e).trace ⊆ seen) (hP : P ch.idle) : P (step cfg env ch e).idle :=
  step_keep (P := fun σ => σ.ch.trace ⊆ seen → P σ) (fun hm => hm.keep_seen hmove)
    (fun he hP hsub => hstart he (hP hsub))
    (fun ha hP hsub => hadvance ha (hP (List.Subset.trans ha.trace_subset hsub))) h (fun _ => hP) hseen

/-- What every move of a run keeps, given all that happens in the run, holds at its end. -/
theorem run_keep_seen {P : Sys → Prop} (events : List Event)
    (hmove : ∀ {σ τ}, Move cfg env Set.univ σ τ → Conns cfg env σ.ch → Rings σ.ch.tables σ.hand σ.ending →
      σ.ch.trace ⊆ (run cfg env events).trace → P σ → P τ)
    (hstart : ∀ {ch : State} {client}, .run client ∈ events → P ch.idle → P (ch.running client))
    (hadvance : ∀ {e ch ch'}, e ∈ events → Advance cfg env e ch ch' → P ch.idle → P ch'.idle)
    (hinit : P (init cfg env).idle) : P (run cfg env events).idle :=
  run_keep (P := fun σ => σ.ch.trace ⊆ (run cfg env events).trace → P σ) events (fun hm => hm.keep_seen hmove)
    (fun he hP hsub => hstart he (hP hsub))
    (fun he ha hP hsub => hadvance he ha (hP (List.Subset.trans ha.trace_subset hsub))) (fun _ => hinit)
    (List.Subset.refl _)

/-! ### A plain channel -/

/-- One server, and the options that `ares_init` sets by default. -/
def Config.single : Config where
  flags := 0
  timeout := 5000
  tries := 4
  rotate := false
  nservers := 1
  addr := fun _ => ⟨AF_INET, [127, 0, 0, 1]⟩
  nservers_pos := Nat.one_pos
  timeout_fits := by decide

/-- Every query goes over TCP. -/
def Config.usevc : Config := { Config.single with flags := ARES_FLAG_USEVC }

/-- Every call succeeds, and the clock is at a later second each time it is read. -/
def Env.steady (seconds : ℕ) : Env where
  malloc := fun _ => true
  openTcp := fun _ => true
  openUdp := fun _ => true
  writeUdp := fun _ => true
  rand := fun _ => 0
  tvnow := fun c => ⟨1 + seconds * c, 0, Nat.succ_pos _⟩

theorem steady_monotone (seconds : ℕ) : (Env.steady seconds).Monotone := by
  intro c d hcd
  have := Nat.mul_le_mul_left seconds hcd
  simp only [Env.steady, Timeval.micros]
  omega

/-- A client that sends one query and is done. -/
def Client.once : Client := .ask (List.replicate 12 0) (fun _ => .done) .done

end FakeDns.Channel
