import FakeDns.Channel.Asked

/-! How often a query is sent. Each try takes a step on the count of tries, and there are at
most as many tries as the configuration says; the switch to TCP, when a reply is cut
short, is one more. Over one connection a query is sent once. -/

namespace FakeDns.Channel

open ByteMemory

/-- The query is sent, as a datagram or over a connection. -/
def Act.sends (q : ℕ) : Act → Bool
  | .sent r _ _ => r = q
  | .queued r _ _ _ => r = q
  | _ => false

/-- The query is sent over that connection. -/
def Act.sendsOver (q i g : ℕ) : Act → Bool
  | .queued r j h _ => r = q ∧ j = i ∧ h = g
  | _ => false

/-- How often the query was sent. -/
def State.sends (ch : State) (q : ℕ) : ℕ := ch.trace.countP (Act.sends q)

/-- How often the query was sent over the connection `g` with server `i`. -/
def State.sendsOver (ch : State) (q i g : ℕ) : ℕ := ch.trace.countP (Act.sendsOver q i g)

/-- A reply to the query `q` came in a packet, and was cut short. -/
def CutShort (acts : List Act) (q : ℕ) : Prop :=
  ∃ qbuf qid i msg tc rcode, .asked q qbuf ∈ acts ∧ headerQid qbuf = .ok qid ∧ .received i none msg ∈ acts ∧
    answerHeader msg = .ok (qid, tc, rcode) ∧ sameQuestions qbuf msg = .ok true ∧ (tc = true ∨ msg.length > PACKETSZ)

open Classical in
/-- The switch to TCP of a query that did not use it from the start. -/
noncomputable def State.switched (ch : State) (q : ℕ) (x : Query) : ℕ :=
  if x.usingTcp = true ∧ CutShort ch.trace q then 1 else 0

/-- The query in hand that is still to be sent. -/
def Sys.waits (σ : Sys) (q : ℕ) : ℕ := if σ.armed = true ∧ σ.hand.head? = some q then 1 else 0

/-- The tries of a query pay for its sends. -/
structure Tried (cfg : Config) (σ : Sys) : Prop where
  fresh : ∀ q, σ.ch.issued ≤ q → σ.ch.sends q = 0
  paid : ∀ q x, σ.ch.query q = some x → σ.ch.sends q + σ.waits q ≤ x.tryCount + 1 + σ.ch.switched q x
  bound : ∀ q, σ.ch.sends q ≤ cfg.attempts ∨ σ.ch.sends q = cfg.attempts + 1 ∧ CutShort σ.ch.trace q

variable {cfg : Config} {env : Env} {S : Set ℕ} {σ τ : Sys} {ch ch' : State} {q i g : ℕ} {x y : Query} {a : Act}

theorem sends_emit (ch : State) (a : Act) (q : ℕ) : (ch.emit a).sends q = ch.sends q + if a.sends q then 1 else 0 := by
  rw [State.sends, State.emit, List.countP_append, List.countP_singleton]
  rfl

theorem sends_emit_of_not (h : a.sends q = false) : (ch.emit a).sends q = ch.sends q := by
  rw [sends_emit, h]
  rfl

theorem CutShort.mono {acts acts' : List Act} (h : CutShort acts q) (hacts : acts ⊆ acts') : CutShort acts' q := by
  obtain ⟨qbuf, qid, i, msg, tc, rcode, hasked, hid, hreceived, hrest⟩ := h
  exact ⟨qbuf, qid, i, msg, tc, rcode, hacts hasked, hid, hacts hreceived, hrest⟩

theorem Truncated.cutShort (h : Truncated ch x) (ha : Asked ch) (hx : ch.query q = some x) : CutShort ch.trace q := by
  obtain ⟨i, msg, tc, rcode, hreceived, hrest⟩ := h
  exact ⟨x.qbuf, x.qid, i, msg, tc, rcode, (ha.query hx).1, (ha.query hx).2, hreceived, hrest⟩

theorem switched_le (h : ch.trace ⊆ ch'.trace) (ht : y.usingTcp = x.usingTcp) : ch.switched q x ≤ ch'.switched q y := by
  rw [State.switched, State.switched, ht]
  split_ifs with h₁ h₂
  · exact le_rfl
  · exact absurd ⟨h₁.1, h₁.2.mono h⟩ h₂
  · exact Nat.zero_le _
  · exact le_rfl

theorem switched_of_cutShort (h : CutShort ch.trace q) (ht : x.usingTcp = true) : ch.switched q x = 1 :=
  if_pos ⟨ht, h⟩

theorem switched_cases (ch : State) (q : ℕ) (x : Query) :
    ch.switched q x = 0 ∨ ch.switched q x = 1 ∧ CutShort ch.trace q := by
  rw [State.switched]
  split_ifs with h
  · exact .inr ⟨rfl, h.2⟩
  · exact .inl rfl

theorem waits_le (σ : Sys) (q : ℕ) : σ.waits q ≤ 1 := by
  rw [Sys.waits]
  split_ifs <;> omega

theorem waits_of_not_armed (h : σ.armed = false) (q : ℕ) : σ.waits q = 0 := if_neg fun hw => by
  rw [h] at hw
  exact absurd hw.1 nofun

/-- A move that sends nothing, and gives no other query leave to be sent. -/
theorem Tried.of_eq (h : Tried cfg σ) (hi : σ.ch.issued ≤ τ.ch.issued) (ht : σ.ch.trace ⊆ τ.ch.trace)
    (hs : ∀ q, τ.ch.sends q = σ.ch.sends q)
    (hq : ∀ q y, τ.ch.query q = some y → (∃ x, σ.ch.query q = some x ∧
      τ.waits q + x.tryCount + σ.ch.switched q x ≤ σ.waits q + y.tryCount + τ.ch.switched q y) ∨ σ.ch.issued ≤ q) :
    Tried cfg τ where
  fresh q hle := (hs q).trans (h.fresh q (hi.trans hle))
  paid q y hy := by
    rw [hs q]
    rcases hq q y hy with ⟨x, hx, hle⟩ | hnew
    · have := h.paid q x hx
      omega
    · have := h.fresh q hnew
      have := waits_le τ q
      omega
  bound q := by
    rw [hs]
    exact (h.bound q).imp_right fun hb => ⟨hb.1, hb.2.mono ht⟩

/-- A move that adds to the trace, but sends nothing and changes no query. -/
theorem Tried.emit (h : Tried cfg σ) (hi : σ.ch.issued ≤ τ.ch.issued) (ht : σ.ch.trace ⊆ τ.ch.trace)
    (hs : ∀ q, τ.ch.sends q = σ.ch.sends q) (hq : τ.ch.query = σ.ch.query) (hw : ∀ q, τ.waits q ≤ σ.waits q) :
    Tried cfg τ := by
  refine h.of_eq hi ht hs fun q y hy => .inl ⟨y, hq ▸ hy, ?_⟩
  have := switched_le (q := q) (x := y) ht rfl
  have := hw q
  omega

theorem releaseServer_sends (q : ℕ) (status : UInt32) (ch : State) (i r : ℕ) :
    (releaseServer env q status ch i).sends r = ch.sends r := by
  simp only [releaseServer]
  split
  · rfl
  · exact sends_emit_of_not rfl

/-- A query in hand is sent. -/
theorem Tried.send {H E : List ℕ} {K : List Client} (h : Tried cfg ⟨ch, q :: H, E, true, K⟩)
    (hr : Rings ch.tables (q :: H) E)
    (hx : ch.query q = some x) (hn : x.tryCount < cfg.attempts) (hi : ch'.issued = ch.issued)
    (ht : ch.trace ⊆ ch'.trace) (hs : ∀ r, ch'.sends r = ch.sends r + if q = r then 1 else 0)
    (hq : ch'.query = Function.update ch.query q (some y)) (hy : y.tryCount = x.tryCount)
    (hy' : y.usingTcp = x.usingTcp) : Tried cfg ⟨ch', H, E, false, K⟩ := by
  have hpaid := h.paid q x hx
  have hwaits : (⟨ch, q :: H, E, true, K⟩ : Sys).waits q = 1 := if_pos ⟨rfl, rfl⟩
  have hswitch := switched_le (q := q) ht hy'
  dsimp only at hpaid
  constructor
  · intro r hr'
    have hqr : q ≠ r := by
      have hlt : q < ch.issued := hr.fresh hx
      have hle : ch.issued ≤ r := hi.ge.trans hr'
      omega
    exact (hs r).trans (by rw [if_neg hqr]; exact h.fresh r (hi.ge.trans hr'))
  · intro r z hz
    rw [waits_of_not_armed rfl]
    change ch'.query r = some z at hz
    rw [hq] at hz
    have hsr := hs r
    rcases Rings.update_eq_some.mp hz with ⟨hrq, hz⟩ | ⟨hne, hz⟩
    · cases hz
      rw [if_pos hrq.symm, hrq] at hsr
      rw [hrq]
      dsimp only
      omega
    · rw [if_neg (Ne.symm hne)] at hsr
      have := h.paid r z hz
      have := switched_le (q := r) (x := z) ht rfl
      dsimp only at *
      omega
  · intro r
    have hsr := hs r
    have hbound := (h.bound r).imp_right fun hb => And.intro hb.1 (hb.2.mono ht)
    dsimp only at hbound ⊢
    rw [hsr]
    split_ifs with hqr
    · subst hqr
      rcases switched_cases ch q x with hzero | ⟨hone, hcut⟩
      · exact .inl (by omega)
      · rcases Nat.lt_or_ge (ch.sends q + 1) (cfg.attempts + 1) with hlt | hge
        · exact .inl (Nat.le_of_lt_succ hlt)
        · exact .inr ⟨by omega, hcut.mono ht⟩
    · exact hbound

/-- A query changes; it may be given leave to be sent for a step on its count of tries. -/
theorem Tried.edit {H E : List ℕ} {K : List Client} {a a' : Bool} (h : Tried cfg ⟨ch, H, E, a, K⟩)
    (hx : ch.query q = some x) (hother : ∀ r ≠ q, (⟨ch, H, E, a', K⟩ : Sys).waits r ≤ (⟨ch, H, E, a, K⟩ : Sys).waits r)
    (hq : (⟨ch, H, E, a', K⟩ : Sys).waits q + x.tryCount + ch.switched q x ≤
      (⟨ch, H, E, a, K⟩ : Sys).waits q + y.tryCount + ch.switched q y) :
    Tried cfg ⟨ch.setQuery q y, H, E, a', K⟩ := by
  refine h.of_eq le_rfl (List.Subset.refl _) (fun _ => rfl) fun r z hz => .inl ?_
  rcases Rings.update_eq_some.mp hz with ⟨hrq, hyz⟩ | ⟨hne, hz⟩
  · cases hyz
    subst hrq
    exact ⟨x, hx, hq⟩
  · refine ⟨z, hz, ?_⟩
    have := hother r hne
    have : ch.switched r z ≤ (ch.setQuery q y).switched r z := switched_le (List.Subset.refl _) rfl
    dsimp only [Sys.waits] at *
    omega

theorem waits_of_ne {H E : List ℕ} {K : List Client} {r : ℕ} (hne : r ≠ q) (a : Bool) :
    (⟨ch, q :: H, E, a, K⟩ : Sys).waits r = 0 :=
  if_neg fun h => hne (Option.some.inj h.2).symm

theorem Move.tried (h : Move cfg env S σ τ) (ha : Asked σ.ch) (hr : Rings σ.ch.tables σ.hand σ.ending)
    (ht : Tried cfg σ) : Tried cfg τ := by
  have hothers : ∀ {ch : State} {H E : List ℕ} {K : List Client} {a a' : Bool} {q : ℕ}, ∀ r ≠ q,
      (⟨ch, q :: H, E, a', K⟩ : Sys).waits r ≤ (⟨ch, q :: H, E, a, K⟩ : Sys).waits r :=
    fun r hne => (waits_of_ne hne _).trans_le (Nat.zero_le _)
  have hidle : ∀ {ch : State} {H E : List ℕ} {K : List Client} (q : ℕ),
      (⟨ch, H, E, false, K⟩ : Sys).waits q ≤ σ.waits q := fun q => (waits_of_not_armed rfl q).trans_le (Nat.zero_le _)
  have hadds : ∀ acts more : List Act, acts ⊆ acts ++ more := List.subset_append_left
  cases h with
  | tick | done | alloc | draw | openTcp | openUdp | close => exact ⟨ht.fresh, ht.paid, ht.bound⟩
  | stray | tell | write => exact ht.emit le_rfl (hadds _ _) (fun _ => sends_emit_of_not rfl) rfl fun _ => le_rfl
  | refuse =>
    refine ht.emit (Nat.le_succ _) (List.Subset.trans (hadds _ _) (hadds _ _)) (fun q => ?_) rfl fun _ => le_rfl
    exact (sends_emit_of_not rfl).trans (sends_emit_of_not rfl)
  | @enlist ch H E _ _ qbuf qid callback _ _ _ _ =>
    refine ht.of_eq (Nat.le_succ _) (hadds _ _) (fun q => sends_emit_of_not rfl) fun q y hy => ?_
    rcases Rings.update_eq_some.mp hy with ⟨hq, -⟩ | ⟨hne, hy⟩
    · exact .inr hq.ge
    · refine .inl ⟨y, hy, ?_⟩
      have : ch.switched q y ≤ (Channel.enlist cfg (ask ch qbuf) ch.issued
          (newQuery cfg ch.lastServer qid qbuf callback)).switched q y := switched_le (hadds _ _) rfl
      rw [waits_of_ne hne]
      dsimp only
      omega
  | pick | steal => exact ht.emit le_rfl (List.Subset.refl _) (fun _ => rfl) rfl hidle
  | late _ hx => exact ht.edit hx hothers (Nat.add_le_add_left (switched_le (List.Subset.refl _) rfl) _)
  | @retry ch H E _ K q x server _ hx _ _ =>
    refine ht.edit hx hothers ?_
    have hw := waits_le ⟨ch, q :: H, E, true, K⟩ q
    have hs : ch.switched q x ≤ ch.switched q { x with tryCount := x.tryCount + 1, server := server } :=
      switched_le (List.Subset.refl _) rfl
    dsimp only at *
    omega
  | @skip ch _ _ _ _ q x i _ hx =>
    refine ht.edit hx (fun _ _ => le_rfl) ?_
    have hs : ch.switched q x ≤ ch.switched q (x.skip i) := switched_le (List.Subset.refl _) rfl
    have hcount : (x.skip i).tryCount = x.tryCount := rfl
    omega
  | @useTcp ch H E _ K q x _ hx _ hu hg =>
    refine ht.edit hx hothers ?_
    have hw := waits_le ⟨ch, q :: H, E, true, K⟩ q
    have hold : ch.switched q x = 0 := if_neg fun h => absurd (hu.symm.trans h.1) Bool.false_ne_true
    have hnew : ch.switched q { x with usingTcp := true } = 1 := switched_of_cutShort (hg.cutShort ha hx) rfl
    rw [hold, hnew]
    dsimp only
    omega
  | queue _ hx _ _ _ _ _ hn _ =>
    refine ht.send hr hx hn rfl (hadds _ _) (fun r => (sends_emit _ _ _).trans ?_) rfl rfl rfl
    simp [Act.sends, State.sends, State.tick, State.setServer]
  | send _ hx _ _ hn _ =>
    refine ht.send hr hx hn rfl (hadds _ _) (fun r => (sends_emit _ _ _).trans ?_) rfl rfl rfl
    simp [Act.sends, State.sends, State.tick]
  | release =>
    obtain ⟨acts, htrace, -⟩ := releaseServer_trace env _ _ _ _
    exact ht.emit (releaseServer_issued _ _ _ _).ge (htrace ▸ (hadds _ _)) (fun r => releaseServer_sends _ _ _ _ r)
      (releaseServer_query _ _ _ _) fun _ => le_rfl
  | answer => exact ht.emit le_rfl (hadds _ _) (fun _ => sends_emit_of_not rfl) rfl hidle
  | free =>
    refine ht.of_eq le_rfl (List.Subset.refl _) (fun _ => rfl) fun r y hy => .inl ?_
    rcases Rings.update_eq_some.mp hy with ⟨-, hy⟩ | ⟨-, hy⟩
    · cases hy
    · refine ⟨y, hy, ?_⟩
      exact Nat.add_le_add (Nat.add_le_add_right (hidle r) _) (switched_le (List.Subset.refl _) rfl)

/-- In every run a query is sent at most as often as the servers may be tried; once more only
if a reply to it came in a packet and was cut short. -/
theorem run_sends (cfg : Config) (env : Env) (events : List Event) (q : ℕ) :
    (run cfg env events).sends q ≤ cfg.attempts ∨
      (run cfg env events).sends q = cfg.attempts + 1 ∧ CutShort (run cfg env events).trace q := by
  have hinit : Tried cfg (init cfg env).idle :=
    ⟨fun _ _ => rfl, nofun, fun _ => .inl (Nat.zero_le _)⟩
  have htried := run_keep (P := fun σ => Asked σ.ch ∧ Tried cfg σ) events
    (fun hm _ hr h => ⟨hm.asked h.1, hm.tried h.1 hr h.2⟩) (fun _ h => ⟨h.1, h.2.fresh, h.2.paid, h.2.bound⟩)
    (fun _ hadvance h => ⟨hadvance.asked h.1, ?_⟩) ⟨init_asked cfg env, hinit⟩
  · exact htried.2.bound q
  · obtain ⟨-, ht⟩ := h
    have hadds : ∀ acts more : List Act, acts ⊆ acts ++ more := List.subset_append_left
    cases hadvance with
    | now | timeouts | consumed => exact ⟨ht.fresh, ht.paid, ht.bound⟩
    | packet | more => exact ht.emit le_rfl (hadds _ _) (fun _ => sends_emit_of_not rfl) rfl fun _ => le_rfl
    | message =>
      refine ht.emit le_rfl (List.Subset.trans (hadds _ _) (hadds _ _)) (fun _ => ?_) rfl fun _ => le_rfl
      exact (sends_emit_of_not rfl).trans (sends_emit_of_not rfl)

/-! ### Connections -/

/-- A query knows the last connection with a server that it was sent over. -/
structure Over (σ : Sys) : Prop where
  fresh : ∀ q i g, σ.ch.issued ≤ q → σ.ch.sendsOver q i g = 0
  last : ∀ q x i g, σ.ch.query q = some x → (x.serverInfo i).tcpConnectionGeneration < g → σ.ch.sendsOver q i g = 0
  once : ∀ q i g, σ.ch.sendsOver q i g ≤ 1

theorem sendsOver_emit (ch : State) (a : Act) (q i g : ℕ) :
    (ch.emit a).sendsOver q i g = ch.sendsOver q i g + if a.sendsOver q i g then 1 else 0 := by
  rw [State.sendsOver, State.emit, List.countP_append, List.countP_singleton]
  rfl

theorem sendsOver_emit_of_not (h : a.sendsOver q i g = false) : (ch.emit a).sendsOver q i g = ch.sendsOver q i g := by
  rw [sendsOver_emit, h]
  rfl

theorem Over.of_eq (h : Over σ) (hi : σ.ch.issued ≤ τ.ch.issued)
    (hs : ∀ q i g, τ.ch.sendsOver q i g = σ.ch.sendsOver q i g)
    (hq : ∀ q y, τ.ch.query q = some y → (∃ x, σ.ch.query q = some x ∧ ∀ i,
      (x.serverInfo i).tcpConnectionGeneration = (y.serverInfo i).tcpConnectionGeneration) ∨ σ.ch.issued ≤ q) :
    Over τ where
  fresh q i g hle := (hs q i g).trans (h.fresh q i g (hi.trans hle))
  last q y i g hy hg := by
    rw [hs]
    rcases hq q y hy with ⟨x, hx, he⟩ | hnew
    · exact h.last q x i g hx (he i ▸ hg)
    · exact h.fresh q i g hnew
  once q i g := (hs q i g).trans_le (h.once q i g)

theorem Over.edit {H E : List ℕ} {K : List Client} {a a' : Bool} (h : Over ⟨ch, H, E, a, K⟩) (hx : ch.query q = some x)
    (hi : ch'.issued = ch.issued) (hs : ∀ q i g, ch'.sendsOver q i g = ch.sendsOver q i g)
    (hq : ch'.query = Function.update ch.query q (some y))
    (hy : ∀ i, (x.serverInfo i).tcpConnectionGeneration = (y.serverInfo i).tcpConnectionGeneration)
    {H' E' : List ℕ} {K' : List Client} : Over ⟨ch', H', E', a', K'⟩ := by
  refine h.of_eq hi.ge hs fun r z hz => .inl ?_
  change ch'.query r = some z at hz
  rw [hq] at hz
  rcases Rings.update_eq_some.mp hz with ⟨hrq, hyz⟩ | ⟨-, hz⟩
  · cases hyz
    subst hrq
    exact ⟨x, hx, hy⟩
  · exact ⟨z, hz, fun _ => rfl⟩

theorem releaseServer_sendsOver (q : ℕ) (status : UInt32) (ch : State) (i r j g : ℕ) :
    (releaseServer env q status ch i).sendsOver r j g = ch.sendsOver r j g := by
  simp only [releaseServer]
  split
  · rfl
  · exact sendsOver_emit_of_not rfl

theorem Move.over (h : Move cfg env S σ τ) (hr : Rings σ.ch.tables σ.hand σ.ending) (ho : Over σ) : Over τ := by
  have hemit : ∀ {ch : State} {a : Act} {q i g : ℕ}, a.sendsOver q i g = false →
      (ch.emit a).sendsOver q i g = ch.sendsOver q i g := fun h => sendsOver_emit_of_not h
  cases h with
  | tick | done | alloc | draw | pick | steal | openTcp | openUdp | close => exact ⟨ho.fresh, ho.last, ho.once⟩
  | stray | tell | write | answer =>
    exact ho.of_eq le_rfl (fun _ _ _ => hemit rfl) fun q y hy => .inl ⟨y, hy, fun _ => rfl⟩
  | refuse =>
    refine ho.of_eq (Nat.le_succ _) (fun q i g => ?_) fun q y hy => .inl ⟨y, hy, fun _ => rfl⟩
    exact (hemit rfl).trans (hemit rfl)
  | enlist =>
    refine ho.of_eq (Nat.le_succ _) (fun _ _ _ => hemit rfl) fun q y hy => ?_
    rcases Rings.update_eq_some.mp hy with ⟨hq, -⟩ | ⟨-, hy⟩
    · exact .inr hq.ge
    · exact .inl ⟨y, hy, fun _ => rfl⟩
  | late _ hx | retry _ hx | useTcp _ hx =>
    apply ho.edit hx
    · rfl
    · exact fun _ _ _ => rfl
    · rfl
    · exact fun _ => rfl
  | @skip _ _ _ _ _ _ x i _ hx =>
    apply ho.edit hx
    · rfl
    · exact fun _ _ _ => rfl
    · rfl
    · intro j
      rw [Query.skip]
      by_cases hj : j = i
      · subst hj
        simp
      · simp [hj]
  | send _ hx =>
    apply ho.edit hx
    · rfl
    · exact fun _ _ _ => hemit rfl
    · rfl
    · exact fun _ => rfl
  | @queue ch H E _ q x now _ hx _ _ _ hg _ _ _ =>
    have hs : ∀ r i g, (queueRequest cfg env now ch q x).sendsOver r i g = ch.sendsOver r i g +
        if q = r ∧ x.server = i ∧ (ch.server x.server).generation = g then 1 else 0 := by
      intro r i g
      exact (sendsOver_emit _ _ _ _ _).trans (by simp [Act.sendsOver, State.sendsOver, State.tick, State.setServer])
    have hquery : (queueRequest cfg env now ch q x).query = Function.update ch.query q _ := rfl
    have hfirst := ho.last q x x.server (ch.server x.server).generation hx hg
    constructor
    · intro r i g hle
      have hqr : q ≠ r := by
        have hlt : q < ch.issued := hr.fresh hx
        have hle : ch.issued ≤ r := hle
        omega
      exact (hs r i g).trans (by rw [if_neg fun h => hqr h.1]; exact ho.fresh r i g hle)
    · intro r z i g hz hlt
      refine (hs r i g).trans ?_
      rcases Rings.update_eq_some.mp hz with ⟨hrq, hz⟩ | ⟨hne, hz⟩
      · cases hz
        subst hrq
        by_cases hi : i = x.server
        · subst hi
          simp only [Query.sentOn, Function.update_self] at hlt
          rw [if_neg fun h => hlt.ne h.2.2]
          exact ho.last r x x.server g hx (hg.trans hlt)
        · simp only [Query.sentOn, Function.update_of_ne hi] at hlt
          rw [if_neg fun h => hi h.2.1.symm]
          exact ho.last r x i g hx hlt
      · rw [if_neg fun h => hne h.1.symm]
        exact ho.last r z i g hz hlt
    · intro r i g
      refine (hs r i g).trans_le ?_
      split_ifs with h
      · obtain ⟨rfl, rfl, rfl⟩ := h
        exact (Nat.add_le_add_right hfirst.le 1).trans_eq (Nat.zero_add 1)
      · exact ho.once r i g
  | release =>
    refine ho.of_eq (releaseServer_issued _ _ _ _).ge (fun _ _ _ => releaseServer_sendsOver _ _ _ _ _ _ _)
      fun r y hy => .inl ?_
    rw [releaseServer_query] at hy
    exact ⟨y, hy, fun _ => rfl⟩
  | free =>
    refine ho.of_eq le_rfl (fun _ _ _ => rfl) fun r y hy => .inl ?_
    rcases Rings.update_eq_some.mp hy with ⟨-, hy⟩ | ⟨-, hy⟩
    · cases hy
    · exact ⟨y, hy, fun _ => rfl⟩

/-- In every run a query is sent at most once over one connection. -/
theorem run_sendsOver (cfg : Config) (env : Env) (events : List Event) (q i g : ℕ) :
    (run cfg env events).sendsOver q i g ≤ 1 := by
  have hinit : Over (init cfg env).idle := ⟨fun _ _ _ _ => rfl, nofun, fun _ _ _ => Nat.zero_le _⟩
  have hover := run_keep (P := Over) events (fun hm _ hr => hm.over hr) (fun _ ho => ⟨ho.fresh, ho.last, ho.once⟩)
    (fun _ hadvance ho => ?_) hinit
  · exact hover.once q i g
  · cases hadvance with
    | now | timeouts | consumed => exact ⟨ho.fresh, ho.last, ho.once⟩
    | packet | more =>
      exact ho.of_eq le_rfl (fun _ _ _ => sendsOver_emit_of_not rfl) fun q y hy => .inl ⟨y, hy, fun _ => rfl⟩
    | message =>
      refine ho.of_eq le_rfl (fun _ _ _ => ?_) fun q y hy => .inl ⟨y, hy, fun _ => rfl⟩
      exact (sendsOver_emit_of_not rfl).trans (sendsOver_emit_of_not rfl)

end FakeDns.Channel
