import FakeDns.Channel.Runs

/-! What comes over a connection. The system hands out the stream of a connection in pieces of
any size, while queries come and go and connections are closed and opened again. The
messages that are dealt with are the complete ones of what was read, in order and
unchanged, and what is held of the next one is the rest. -/

namespace FakeDns.Channel

open ByteMemory

/-- What an act reads from connection `g` with server `i`. -/
def Act.reads (i g : ℕ) : Act → List UInt8
  | .read j h bytes => if j = i ∧ h = g then bytes else []
  | _ => []

/-- The message that an act receives over that connection. -/
def Act.receives (i g : ℕ) : Act → List (List UInt8)
  | .received j via abuf => if j = i ∧ via = some g then [abuf] else []
  | _ => []

def State.reads (ch : State) (i g : ℕ) : List UInt8 := ch.trace.flatMap (Act.reads i g)

def State.receives (ch : State) (i g : ℕ) : List (List UInt8) := ch.trace.flatMap (Act.receives i g)

/-- What was read makes up these messages, and what is held of the next one. -/
structure Makes (read : List UInt8) (ms : List (List UInt8)) (input : TcpInput) : Prop where
  stream : read = frames set16 ms ++ input.held
  messages : ∀ m ∈ ms, m ≠ [] ∧ m.length < 65536
  pending : input.Pending

/-- The streams of all connections, when the last message of the server `busy` is still being
dealt with. -/
structure Incoming (cfg : Config) (busy : Option ℕ) (ch : State) : Prop where
  closed : ∀ i < cfg.nservers, (ch.server i).tcpSocket = false → (ch.server i).input.held = []
  later : ∀ i < cfg.nservers, ∀ g, (ch.server i).generation < g → ch.reads i g = [] ∧ ch.receives i g = []
  now : ∀ i < cfg.nservers, (ch.server i).tcpSocket = true → Makes (ch.reads i (ch.server i).generation)
    (ch.receives i (ch.server i).generation) (if busy = some i then .empty else (ch.server i).input)
  makes : ∀ i < cfg.nservers, ∀ g, ∃ input, Makes (ch.reads i g) (ch.receives i g) input

variable {cfg : Config} {env : Env} {S : Set ℕ} {σ τ : Sys} {ch ch' : State} {i j g : ℕ} {a : Act}
  {busy : Option ℕ} {bytes abuf : List UInt8} {input : TcpInput}

theorem makes_nil {input : TcpInput} (h : input.Pending) (hheld : input.held = []) : Makes [] [] input :=
  ⟨hheld.symm, nofun, h⟩

/-! ### Acts -/

theorem reads_emit (ch : State) (a : Act) (i g : ℕ) : (ch.emit a).reads i g = ch.reads i g ++ a.reads i g := by
  rw [State.reads, State.emit, List.flatMap_append, List.flatMap_singleton, State.reads]

theorem receives_emit (ch : State) (a : Act) (i g : ℕ) :
    (ch.emit a).receives i g = ch.receives i g ++ a.receives i g := by
  rw [State.receives, State.emit, List.flatMap_append, List.flatMap_singleton, State.receives]

theorem reads_of_own (acts : List Act) (h : ∀ a ∈ acts, a.Own) (i g : ℕ) : acts.flatMap (Act.reads i g) = [] := by
  rw [List.flatMap_eq_nil_iff]
  intro a ha
  have hown := h a ha
  cases a <;> first | rfl | exact hown.elim

theorem receives_of_own (acts : List Act) (h : ∀ a ∈ acts, a.Own) (i g : ℕ) :
    acts.flatMap (Act.receives i g) = [] := by
  rw [List.flatMap_eq_nil_iff]
  intro a ha
  have hown := h a ha
  cases a <;> first | rfl | exact hown.elim

/-- No move reads or receives anything. -/
theorem Move.incoming_eq (h : Move cfg env S σ τ) (i g : ℕ) :
    τ.ch.reads i g = σ.ch.reads i g ∧ τ.ch.receives i g = σ.ch.receives i g := by
  obtain ⟨acts, hacts, hown⟩ := h.trace
  rw [State.reads, State.receives, hacts, List.flatMap_append, List.flatMap_append, reads_of_own acts hown,
    receives_of_own acts hown, List.append_nil, List.append_nil]
  exact ⟨rfl, rfl⟩

/-! ### Moves -/

/-- What the streams depend on of a server. -/
def Server.Continues (s t : Server) : Prop := s.tcpSocket = t.tcpSocket ∧ s.Keeps t

theorem Incoming.of_eq (h : Incoming cfg busy ch) (hs : ∀ i < cfg.nservers, (ch'.server i).Continues (ch.server i))
    (hr : ∀ i g, ch'.reads i g = ch.reads i g ∧ ch'.receives i g = ch.receives i g) : Incoming cfg busy ch' where
  closed i hi ht := by
    rw [(hs i hi).2.2]
    exact h.closed i hi ((hs i hi).1.symm.trans ht)
  later i hi g hg := by
    rw [(hr i g).1, (hr i g).2]
    exact h.later i hi g ((hs i hi).2.1 ▸ hg)
  now i hi ht := by
    rw [(hr i _).1, (hr i _).2, (hs i hi).2.1, (hs i hi).2.2]
    exact h.now i hi ((hs i hi).1.symm.trans ht)
  makes i hi g := by
    rw [(hr i g).1, (hr i g).2]
    exact h.makes i hi g

/-- Replacing one server, when nothing is read. -/
theorem Incoming.setServer {s : Server} (h : Incoming cfg busy ch)
    (hserver : ch'.server = Function.update ch.server i s)
    (hr : ∀ i g, ch'.reads i g = ch.reads i g ∧ ch'.receives i g = ch.receives i g)
    (hclosed : i < cfg.nservers → s.tcpSocket = false → s.input.held = [])
    (hlater : i < cfg.nservers → (ch.server i).generation ≤ s.generation)
    (hnow : i < cfg.nservers → s.tcpSocket = true →
      Makes (ch.reads i s.generation) (ch.receives i s.generation) (if busy = some i then .empty else s.input)) :
    Incoming cfg busy ch' := by
  have hself : ch'.server i = s := by rw [hserver, Function.update_self]
  have hother : ∀ j, j ≠ i → ch'.server j = ch.server j := fun j hj => by rw [hserver, Function.update_of_ne hj]
  constructor
  · intro j hj ht
    by_cases hji : j = i
    · subst hji
      rw [hself] at ht ⊢
      exact hclosed hj ht
    · rw [hother j hji] at ht ⊢
      exact h.closed j hj ht
  · intro j hj g hg
    rw [(hr j g).1, (hr j g).2]
    by_cases hji : j = i
    · subst hji
      rw [hself] at hg
      exact h.later j hj g ((hlater hj).trans_lt hg)
    · exact h.later j hj g (hother j hji ▸ hg)
  · intro j hj ht
    rw [(hr j _).1, (hr j _).2]
    by_cases hji : j = i
    · subst hji
      rw [hself] at ht ⊢
      exact hnow hj ht
    · rw [hother j hji] at ht ⊢
      exact h.now j hj ht
  · intro j hj g
    rw [(hr j g).1, (hr j g).2]
    exact h.makes j hj g

theorem continues_setServer {s : Server} (hs : s.Continues (ch.server i)) (j : ℕ) :
    ((ch.setServer i s).server j).Continues (ch.server j) := by
  refine ⟨?_, setServer_keeps hs.2 j⟩
  by_cases hj : j = i
  · subst hj
    rw [State.setServer_self, hs.1]
  · rw [State.setServer_of_ne hj]

theorem releaseServer_continues (q : ℕ) (status : UInt32) (ch : State) (i j : ℕ) :
    ((releaseServer env q status ch i).server j).Continues (ch.server j) := by
  refine ⟨?_, releaseServer_keeps q status ch i j⟩
  simp only [releaseServer]
  by_cases hj : j = i
  · subst hj
    rw [State.setServer_self]
  · rw [State.setServer_of_ne hj]
    split <;> rfl

theorem Move.incoming (h : Move cfg env S σ τ) (hc : Conns cfg env σ.ch) (hs : Incoming cfg busy σ.ch) :
    Incoming cfg busy τ.ch := by
  have heq := h.incoming_eq
  have hsame : ∀ s : Server, s.Continues s := fun _ => ⟨rfl, rfl, rfl⟩
  cases h with
  | tick | done | stray | alloc | draw | tell | refuse | enlist | pick | steal | late | retry | skip | useTcp | send
  | answer | free => exact hs.of_eq (fun _ _ => hsame _) heq
  | openUdp | write | queue => exact hs.of_eq (fun j _ => continues_setServer (by exact hsame _) j) heq
  | release => exact hs.of_eq (fun j _ => releaseServer_continues _ _ _ _ j) heq
  | @openTcp ch H E _ _ i hi ht =>
    refine hs.setServer rfl heq (fun _ ht => absurd ht nofun) (fun hi => Nat.le_succ_of_le (hc.generation i hi).2)
      fun hi _ => ?_
    -- nothing was read from the new connection yet, and nothing is left of the old one
    obtain ⟨hreads, hreceives⟩ := hs.later i hi (ch.generation + 1) (Nat.lt_succ_of_le (hc.generation i hi).2)
    dsimp only
    rw [hreads, hreceives]
    split_ifs
    · exact makes_nil (pending_empty 0) rfl
    · exact makes_nil (hc.input i).clear (TcpInput.held_clear (hs.closed i hi ht))
  | @close ch H E _ _ i =>
    refine hs.setServer rfl heq (fun _ _ => rfl) (fun hi => ?_) fun _ ht => absurd ht nofun
    have hle : (ch.server i).generation ≤ ch.generation := (hc.generation i hi).2
    dsimp only
    split_ifs <;> omega

theorem Moves.incoming (h : Moves cfg env S σ τ) (hc : Conns cfg env σ.ch) (hs : Incoming cfg busy σ.ch) :
    Incoming cfg busy τ.ch :=
  (h.keep (P := fun σ => Conns cfg env σ.ch ∧ Incoming cfg busy σ.ch)
    (fun _ _ hm hP => ⟨hm.conns hP.1, hm.incoming hP.1 hP.2⟩) ⟨hc, hs⟩).2

/-! ### Reading -/

theorem reads_sread (ch : State) (i : ℕ) (bytes : List UInt8) (j g : ℕ) :
    (sread ch i bytes).reads j g =
      ch.reads j g ++ if i = j ∧ (ch.server i).generation = g then bytes.take (ch.server i).input.wants else [] :=
  reads_emit _ _ j g

theorem receives_sread (ch : State) (i : ℕ) (bytes : List UInt8) (j g : ℕ) :
    (sread ch i bytes).receives j g = ch.receives j g :=
  (receives_emit _ _ j g).trans (List.append_nil _)

/-- One connection goes on: `data` is read from it, and makes the messages `ms` complete. -/
theorem Incoming.grow (h : Incoming cfg none ch) (hi : i < cfg.nservers) {data : List UInt8} {ms : List (List UInt8)}
    (hreads : ∀ j g, ch'.reads j g = ch.reads j g ++ if i = j ∧ (ch.server i).generation = g then data else [])
    (hreceives : ∀ j g, ch'.receives j g = ch.receives j g ++ if i = j ∧ (ch.server i).generation = g then ms else [])
    (hother : ∀ j, j ≠ i → ch'.server j = ch.server j) (hbusy : ∀ j, j ≠ i → busy ≠ some j)
    (hgen : (ch'.server i).generation = (ch.server i).generation) (ho : (ch'.server i).tcpSocket = true)
    (hmakes : Makes (ch'.reads i (ch.server i).generation) (ch'.receives i (ch.server i).generation)
      (if busy = some i then .empty else (ch'.server i).input)) : Incoming cfg busy ch' := by
  have hkeep : ∀ j g, (i = j → (ch.server i).generation ≠ g) →
      ch'.reads j g = ch.reads j g ∧ ch'.receives j g = ch.receives j g := by
    intro j g hne
    rw [hreads, hreceives, if_neg fun h => hne h.1 h.2, if_neg fun h => hne h.1 h.2, List.append_nil, List.append_nil]
    exact ⟨rfl, rfl⟩
  constructor
  · intro j hj ht
    by_cases hji : j = i
    · subst hji
      exact absurd (ho.symm.trans ht) nofun
    · rw [hother j hji] at ht ⊢
      exact h.closed j hj ht
  · intro j hj g hg
    by_cases hji : j = i
    · subst hji
      rw [hgen] at hg
      rw [(hkeep j g fun _ => hg.ne).1, (hkeep j g fun _ => hg.ne).2]
      exact h.later j hj g hg
    · rw [hother j hji] at hg
      rw [(hkeep j g fun e => absurd e.symm hji).1, (hkeep j g fun e => absurd e.symm hji).2]
      exact h.later j hj g hg
  · intro j hj ht
    by_cases hji : j = i
    · subst hji
      rw [hgen]
      exact hmakes
    · rw [hother j hji] at ht ⊢
      rw [(hkeep j _ fun e => absurd e.symm hji).1, (hkeep j _ fun e => absurd e.symm hji).2, if_neg (hbusy j hji)]
      exact h.now j hj ht
  · intro j hj g
    by_cases hsame : i = j ∧ (ch.server i).generation = g
    · obtain ⟨rfl, rfl⟩ := hsame
      exact ⟨_, hmakes⟩
    · have hne : i = j → (ch.server i).generation ≠ g := fun e e' => hsame ⟨e, e'⟩
      rw [(hkeep j g hne).1, (hkeep j g hne).2]
      exact h.makes j hj g

/-- A part of a message was read. -/
theorem Incoming.part (h : Incoming cfg none ch) (hc : Conns cfg env ch) (hi : i < cfg.nservers)
    (ho : (ch.server i).tcpSocket = true) (hread : (ch.server i).input.read bytes = .more input) :
    Incoming cfg none ((sread ch i bytes).setServer i { ch.server i with input := input }) := by
  have hnow : Makes _ _ (ch.server i).input := h.now i hi ho
  obtain ⟨hnil, -⟩ | ⟨next, hnext, hpending, hheld⟩ | ⟨length, abuf, hmsg, -⟩ := (hc.input i).read_cases bytes
  · exact absurd (hread.symm.trans hnil) nofun
  · cases hread.symm.trans hnext
    have hreceives : ∀ j g, (sread ch i bytes).receives j g =
        ch.receives j g ++ if i = j ∧ (ch.server i).generation = g then [] else [] := fun j g =>
      (receives_sread ch i bytes j g).trans (by rw [ite_self, List.append_nil])
    refine h.grow hi (reads_sread ch i bytes) hreceives (fun j hj => State.setServer_of_ne hj) (fun _ _ => nofun) ?_ ?_
      ⟨?_, ?_, ?_⟩
    · rw [State.setServer_self]
    · rw [State.setServer_self]
      exact ho
    · rw [if_neg nofun, State.setServer_self]
      refine (reads_sread ch i bytes i _).trans ?_
      rw [if_pos ⟨rfl, rfl⟩, hnow.stream, List.append_assoc, ← hheld]
      exact congrArg (frames set16 · ++ _) (receives_sread ch i bytes i _).symm
    · exact fun m hm => hnow.messages m ((receives_sread ch i bytes i _) ▸ hm)
    · rw [if_neg nofun, State.setServer_self]
      exact hpending
  · exact absurd (hread.symm.trans hmsg) nofun

/-- A message is complete, and about to be dealt with. -/
theorem Incoming.message (h : Incoming cfg none ch) (hc : Conns cfg env ch) (hi : i < cfg.nservers)
    (ho : (ch.server i).tcpSocket = true) (hread : (ch.server i).input.read bytes = .message input abuf) :
    Incoming cfg (some i) ((sread ch i bytes).emit (.received i (some (ch.server i).generation) abuf)) := by
  have hnow : Makes _ _ (ch.server i).input := h.now i hi ho
  obtain ⟨hnil, -⟩ | ⟨next, hnext, -⟩ | ⟨length, abuf', hmsg, hne, hlt, hframe⟩ := (hc.input i).read_cases bytes
  · exact absurd (hread.symm.trans hnil) nofun
  · exact absurd (hread.symm.trans hnext) nofun
  · cases hread.symm.trans hmsg
    have hreads : ∀ j g, ((sread ch i bytes).emit (.received i (some (ch.server i).generation) abuf)).reads j g =
        ch.reads j g ++ if i = j ∧ (ch.server i).generation = g then bytes.take (ch.server i).input.wants else [] :=
      fun j g => (reads_emit _ _ j g).trans ((List.append_nil _).trans (reads_sread ch i bytes j g))
    have hreceives : ∀ j g, ((sread ch i bytes).emit (.received i (some (ch.server i).generation) abuf)).receives j g =
        ch.receives j g ++ if i = j ∧ (ch.server i).generation = g then [abuf] else [] := by
      intro j g
      refine (receives_emit _ _ j g).trans (congrArg₂ _ (receives_sread ch i bytes j g) ?_)
      simp only [Act.receives, Option.some.injEq]
    refine h.grow hi hreads hreceives (fun _ _ => rfl) (fun j hj e => hj (Option.some.inj e).symm) rfl ho ⟨?_, ?_, ?_⟩
    · rw [hreads, hreceives, if_pos ⟨rfl, rfl⟩, if_pos ⟨rfl, rfl⟩, if_pos rfl, hnow.stream, frames_append,
        frames_singleton, hframe, List.append_assoc]
      exact (List.append_nil _).symm
    · intro m hm
      rw [hreceives, if_pos ⟨rfl, rfl⟩] at hm
      rcases List.mem_append.mp hm with hm | hm
      · exact hnow.messages m hm
      · exact List.mem_singleton.mp hm ▸ ⟨hne, hlt⟩
    · rw [if_pos rfl]
      exact pending_empty 0

/-- The message was dealt with, and the connection is ready for the next one. -/
theorem Incoming.consumed (h : Incoming cfg (some i) ch) (length : ℕ) :
    Incoming cfg none (ch.setServer i { ch.server i with input := ⟨[], length, []⟩ }) where
  closed j hj ht := by
    by_cases hji : j = i
    · subst hji
      rw [State.setServer_self]
      rfl
    · rw [State.setServer_of_ne hji] at ht ⊢
      exact h.closed j hj ht
  later j hj g hg := by
    by_cases hji : j = i
    · subst hji
      rw [State.setServer_self] at hg
      exact h.later j hj g hg
    · rw [State.setServer_of_ne hji] at hg
      exact h.later j hj g hg
  now j hj ht := by
    rw [if_neg nofun]
    by_cases hji : j = i
    · subst hji
      rw [State.setServer_self] at ht ⊢
      have hnow := h.now j hj ht
      rw [if_pos rfl] at hnow
      exact ⟨hnow.stream, hnow.messages, pending_empty length⟩
    · rw [State.setServer_of_ne hji] at ht ⊢
      have hnow := h.now j hj ht
      rwa [if_neg fun e => hji (Option.some.inj e).symm] at hnow
  makes := h.makes

/-! ### Runs -/

theorem readTcpData_incoming (h : Sound cfg env ch) (hi : i < cfg.nservers) (hs : Incoming cfg none ch)
    (bytes : List UInt8) : Incoming cfg none (readTcpData cfg env ch i bytes) := by
  have hreads := readTcpData_reads h hi bytes
  generalize readTcpData cfg env ch i bytes = ch' at hreads ⊢
  cases hreads with
  | nothing hm => exact hm.incoming h.conns hs
  | part ho hread hm => exact hm.incoming (h.advance (.more hi ho hread)).conns (hs.part h.conns hi ho hread)
  | message ho hread hm =>
    exact (hm.incoming (h.advance (.message hi ho hread)).conns (hs.message h.conns hi ho hread)).consumed _

/-- Other events read nothing. -/
theorem Advance.incoming {e : Event} (h : Advance cfg env e ch ch') (he : ∀ i bytes, e ≠ .read i bytes)
    (hs : Incoming cfg none ch) : Incoming cfg none ch' := by
  cases h with
  | now | timeouts => exact ⟨hs.closed, hs.later, hs.now, hs.makes⟩
  | packet =>
    refine hs.of_eq (fun _ _ => ⟨rfl, rfl, rfl⟩) fun _ _ => ⟨?_, ?_⟩
    · exact (reads_emit _ _ _ _).trans (List.append_nil _)
    · exact (receives_emit _ _ _ _).trans (by simp [Act.receives])
  | more | message | consumed => exact absurd rfl (he _ _)

theorem step_incoming (h : Sound cfg env ch) (hs : Incoming cfg none ch) (e : Event) :
    Incoming cfg none (step cfg env ch e) := by
  cases e with
  | read i bytes =>
    rw [step]
    split_ifs with hi
    · exact readTcpData_incoming h hi hs bytes
    · exact hs
  | run | now | write | packets | timeouts | broken =>
    refine (turns_induction (P := Incoming cfg none) (fun hsound hturn hs => ?_) h (step_turns h _) hs).2
    rcases hturn.moves_or with ⟨_, hm⟩ | hadvance
    · exact hm.incoming hsound.conns hs
    · exact hadvance.incoming (by simp) hs

theorem init_incoming (cfg : Config) (env : Env) : Incoming cfg none (init cfg env) where
  closed _ _ _ := rfl
  later _ _ _ _ := ⟨rfl, rfl⟩
  now _ _ ht := absurd ht nofun
  makes _ _ _ := ⟨.empty, makes_nil (pending_empty 0) rfl⟩

theorem run_incoming (cfg : Config) (env : Env) (events : List Event) : Incoming cfg none (run cfg env events) :=
  (steps_induction events (fun h hs e _ => step_incoming h hs e) (init_sound cfg env) (init_incoming cfg env)).2

/-- In every run, what was read from a connection is the messages that were dealt with, each with
its length in front, and a part of the next one. So if the server sends messages that have
bytes, those that are dealt with are the first of them, and all of them once all was read;
and as long as the connection is open, there is something that the channel wants of it. -/
theorem run_receives (cfg : Config) (env : Env) (events : List Event) {i : ℕ} (hi : i < cfg.nservers) (g : ℕ) :
    (∃ rest, (run cfg env events).reads i g = frames set16 ((run cfg env events).receives i g) ++ rest ∧
      ∀ m, m ≠ [] → m.length < 65536 → ¬ frame set16 m <+: rest) ∧
      ∀ ms, (∀ m ∈ ms, m ≠ [] ∧ m.length < 65536) → (run cfg env events).reads i g <+: frames set16 ms →
        (run cfg env events).receives i g <+: ms ∧
        ((run cfg env events).reads i g = frames set16 ms → (run cfg env events).receives i g = ms) ∧
        (((run cfg env events).server i).tcpSocket = true → g = ((run cfg env events).server i).generation →
          0 < ((run cfg env events).server i).input.wants) := by
  have hs := run_incoming cfg env events
  obtain ⟨input, hmakes⟩ := hs.makes i hi g
  refine ⟨⟨input.held, hmakes.stream, fun m hne hlt ⟨rest, hrest⟩ => ?_⟩, fun ms hms ⟨rest, hrest⟩ =>
    ⟨?_, fun hall => ?_, fun ho hg => ?_⟩⟩
  · exact held_ne_frames hmakes.pending hne hlt rest hrest.symm
  · rw [hmakes.stream] at hrest
    exact (hmakes.pending.frames_prefix hmakes.messages hms hrest).1
  · rw [hmakes.stream] at hall
    exact (hmakes.pending.frames_prefix hmakes.messages hms ((List.append_nil _).trans hall)).2.1 rfl
  · subst hg
    have hnow := hs.now i hi ho
    rw [if_neg nofun] at hnow
    rw [hnow.stream] at hrest
    exact (hnow.pending.frames_prefix hnow.messages hms hrest).2.2

/-- Two messages, byte by byte. -/
theorem run_receives_sample :
    (run .usevc (.steady 0) (.run .once :: [0, 2, 7, 8, 0, 1, 9].map fun a => .read 0 [a])).receives 0 2 =
      [[7, 8], [9]] :=
  ((run_receives .usevc (.steady 0) (.run .once :: [0, 2, 7, 8, 0, 1, 9].map fun a => .read 0 [a]) Nat.one_pos 2).2
    [[7, 8], [9]] (by decide) (by decide +kernel)).2.1 (by decide +kernel)

end FakeDns.Channel
