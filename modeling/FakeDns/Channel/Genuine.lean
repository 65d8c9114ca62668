import FakeDns.Channel.Asked
import FakeDns.Channel.Messages

/-! What a client may rely on. Whatever comes in from the network, a query ends well only with
a message that came from one of the servers, and that has the id and asks the questions of
the query. -/

namespace FakeDns.Channel

open ByteMemory

/-- How a message came in: in a packet from the address of a server, or as one of the messages
that were read from a connection with one. -/
inductive Came (cfg : Config) (env : Env) (events : List Event) : ℕ → Option ℕ → List UInt8 → Prop
  | packet {i packets sender abuf} (hi : i < cfg.nservers) (hevent : .packets i packets ∈ events)
      (hmem : some (sender, abuf) ∈ packets) (hsender : sameAddress sender (cfg.addr i) = true) :
      Came cfg env events i none (abuf.take (PACKETSZ + 1))
  | stream {i g ms rest msg} (hi : i < cfg.nservers)
      (hread : (run cfg env events).reads i g = frames set16 ms ++ rest) (hmem : msg ∈ ms)
      (hlt : msg.length < 65536) : Came cfg env events i (some g) msg

/-- `abuf` answers the query `qbuf`, as the beginning of the message `msg` at least. -/
structure Answers (cfg : Config) (qbuf abuf msg : List UInt8) : Prop where
  header : ∃ qid tc rcode, headerQid qbuf = .ok qid ∧ answerHeader abuf = .ok (qid, tc, rcode) ∧
    (¬ cfg.has ARES_FLAG_NOCHECKRESP → rcode ≠ SERVFAIL ∧ rcode ≠ NOTIMP ∧ rcode ≠ REFUSED)
  length : HFIXEDSZ ≤ abuf.length
  isPrefix : abuf <+: msg
  questions : sameQuestions qbuf msg = .ok true

/-- The query `q` with these bytes was asked, and a server answered it with `abuf`. -/
def Replied (cfg : Config) (env : Env) (events : List Event) (q : ℕ) (qbuf abuf : List UInt8) : Prop :=
  .asked q qbuf ∈ (run cfg env events).trace ∧ ∃ i via msg, Came cfg env events i via msg ∧ Answers cfg qbuf abuf msg

/-- If the reply to the query `qbuf` is a success, then its buffer is what a server answered to
a query with these bytes. -/
def Credible (cfg : Config) (env : Env) (events : List Event) (qbuf : List UInt8) (reply : Reply) : Prop :=
  reply.status = ARES_SUCCESS → ∃ q, Replied cfg env events q qbuf reply.abuf

variable {cfg : Config} {env : Env} {S : Set ℕ} {σ τ : Sys} {ch ch' : State} {q i : ℕ} {x y : Query}
  {abuf msg qbuf : List UInt8} {events : List Event} {via : Option ℕ} {status : UInt32}

theorem credible_of_failure (cfg : Config) (env : Env) (events : List Event) (qbuf : List UInt8)
    (h : status ≠ ARES_SUCCESS) (timeouts : ℕ) (abuf : List UInt8) :
    Credible cfg env events qbuf ⟨status, timeouts, abuf⟩ := fun hs => absurd hs h

theorem Came.length_lt (h : Came cfg env events i via msg) : msg.length < 65536 := by
  cases h with
  | packet => exact (List.length_take_le _ _).trans_lt (by decide)
  | stream _ _ _ hlt => exact hlt

theorem Replied.length_lt (h : Replied cfg env events q qbuf abuf) : abuf.length < 65536 := by
  obtain ⟨-, i, via, msg, hcame, hanswers⟩ := h
  exact hanswers.isPrefix.length_le.trans_lt hcame.length_lt

/-! ### Messages -/

/-- Where the messages of a trace come from, as far as the events tell. -/
def Heard (cfg : Config) (events : List Event) (ch : State) : Prop :=
  ∀ i via msg, .received i via msg ∈ ch.trace → i < cfg.nservers ∧ (via = none → ∃ packets sender abuf,
    .packets i packets ∈ events ∧ some (sender, abuf) ∈ packets ∧ sameAddress sender (cfg.addr i) = true ∧
      msg = abuf.take (PACKETSZ + 1))

theorem Move.heard (h : Move cfg env S σ τ) (hh : Heard cfg events σ.ch) : Heard cfg events τ.ch := by
  intro i via msg hmem
  obtain ⟨acts, hacts, hown⟩ := h.trace
  rw [hacts] at hmem
  rcases List.mem_append.mp hmem with hmem | hmem
  · exact hh i via msg hmem
  · exact (hown _ hmem).elim

theorem Advance.heard {e : Event} (he : e ∈ events) (h : Advance cfg env e ch ch') (hh : Heard cfg events ch) :
    Heard cfg events ch' := by
  intro j via msg hmem
  cases h with
  | now | timeouts | consumed => exact hh j via msg hmem
  | packet hi hp hsender =>
    rcases List.mem_append.mp hmem with hmem | hmem
    · exact hh j via msg hmem
    · cases List.mem_singleton.mp hmem
      exact ⟨hi, fun _ => ⟨_, _, _, he, hp, hsender, rfl⟩⟩
  | more =>
    rcases List.mem_append.mp hmem with hmem | hmem
    · exact hh j via msg hmem
    · cases List.mem_singleton.mp hmem
  | message hi =>
    rcases List.mem_append.mp hmem with hmem | hmem
    · rcases List.mem_append.mp hmem with hmem | hmem
      · exact hh j via msg hmem
      · cases List.mem_singleton.mp hmem
    · cases List.mem_singleton.mp hmem
      exact ⟨hi, nofun⟩

theorem run_heard (cfg : Config) (env : Env) (events : List Event) : Heard cfg events (run cfg env events) :=
  run_keep (P := fun σ => Heard cfg events σ.ch) events (fun hm _ _ => hm.heard) (fun _ => id)
    (fun he hadvance => hadvance.heard he) fun _ _ _ h => absurd h List.not_mem_nil

/-- Every message that is dealt with has come in. -/
theorem came_of_received (h : .received i via msg ∈ (run cfg env events).trace) : Came cfg env events i via msg := by
  obtain ⟨hi, hpacket⟩ := run_heard cfg env events i via msg h
  cases via with
  | none =>
    obtain ⟨packets, sender, abuf, hevent, hmem, hsender, rfl⟩ := hpacket rfl
    exact .packet hi hevent hmem hsender
  | some g =>
    obtain ⟨input, hmakes⟩ := (run_incoming cfg env events).makes i hi g
    have hmem : msg ∈ (run cfg env events).receives i g := List.mem_flatMap.mpr ⟨_, h, by simp [Act.receives]⟩
    exact .stream hi hmakes.stream hmem (hmakes.messages msg hmem).2

/-- The header of a message is in its first bytes. -/
theorem answerHeader_append (h : HFIXEDSZ ≤ abuf.length) (rest : List UInt8) :
    answerHeader (abuf ++ rest) = answerHeader abuf := by
  have h12 : HFIXEDSZ = 12 := rfl
  have hbyte : ∀ k < 12, (byteAt (abuf ++ rest) k : Outcome UInt32 UInt8) = byteAt abuf k := by
    intro k hk
    rw [byteAt, byteAt, List.getElem?_append_left (by omega)]
  simp only [answerHeader, headerQid, headerTc, headerRcode, dns16, hbyte 0 (by norm_num), hbyte 2 (by norm_num),
    hbyte (0 + 1) (by norm_num), hbyte 3 (by norm_num)]

/-- The channel takes a message for an answer only if it is one. -/
theorem Genuine.replied (h : Genuine cfg ch x abuf) (ha : Asked ch) (hseen : ch.trace ⊆ (run cfg env events).trace)
    (hx : ch.query q = some x) : Replied cfg env events q x.qbuf abuf := by
  obtain ⟨i, via, msg, tc, rcode, hreceived, hheader, hsame, hcheck, hlen, rest, rfl⟩ := h
  rw [answerHeader_append hlen] at hheader
  exact ⟨hseen (ha.query hx).1, i, via, _, came_of_received (hseen hreceived),
    ⟨⟨x.qid, tc, rcode, (ha.query hx).2, hheader, hcheck⟩, hlen, List.prefix_append _ _, hsame⟩⟩

theorem credible_of_genuine (hg : status = ARES_SUCCESS → Genuine cfg ch x abuf) (ha : Asked ch)
    (hseen : ch.trace ⊆ (run cfg env events).trace) (hx : ch.query q = some x) (timeouts : ℕ) :
    Credible cfg env events x.qbuf ⟨status, timeouts, abuf⟩ :=
  fun hs => ⟨q, (hg hs).replied ha hseen hx⟩

/-! ### Runs -/

end FakeDns.Channel
