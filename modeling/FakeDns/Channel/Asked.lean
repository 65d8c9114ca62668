import FakeDns.Channel.Runs

/-! The queries of a channel are those that were asked: what a query sends, as a datagram or
over a connection, are the bytes that a client gave to `ares_send`, and its id is theirs. -/

namespace FakeDns.Channel

open ByteMemory

/-- The queries that are there were asked, and so was all that has been sent. -/
structure Asked (ch : State) : Prop where
  query : ∀ {q x}, ch.query q = some x → .asked q x.qbuf ∈ ch.trace ∧ headerQid x.qbuf = .ok x.qid
  sent : ∀ {q i qbuf}, .sent q i qbuf ∈ ch.trace → .asked q qbuf ∈ ch.trace
  queued : ∀ {q i g qbuf}, .queued q i g qbuf ∈ ch.trace → .asked q qbuf ∈ ch.trace

/-- An act that sends nothing. -/
def Act.Mute : Act → Prop
  | .sent _ _ _ | .queued _ _ _ _ => False
  | _ => True

variable {cfg : Config} {env : Env} {S : Set ℕ} {σ τ : Sys} {ch ch' : State} {q : ℕ} {x y : Query} {acts : List Act}

/-- A step that adds to the trace, and changes no query's id or buffer. -/
theorem Asked.step (h : Asked ch) (ht : ch'.trace = ch.trace ++ acts)
    (hq : ∀ q y, ch'.query q = some y → (∃ x, ch.query q = some x ∧ y.qbuf = x.qbuf ∧ y.qid = x.qid) ∨
      .asked q y.qbuf ∈ acts ∧ headerQid y.qbuf = .ok y.qid)
    (ha : ∀ a ∈ acts, a.Mute ∨ ∃ q x i, ch.query q = some x ∧ (a = .sent q i x.qbuf ∨ ∃ g, a = .queued q i g x.qbuf)) :
    Asked ch' where
  query {q y} hy := by
    rw [ht]
    rcases hq q y hy with ⟨x, hx, hbuf, hid⟩ | ⟨hasked, hid⟩
    · rw [hbuf, hid]
      exact ⟨List.mem_append_left _ (h.query hx).1, (h.query hx).2⟩
    · exact ⟨List.mem_append_right _ hasked, hid⟩
  sent {q i qbuf} hmem := by
    rw [ht] at hmem ⊢
    apply List.mem_append_left
    rcases List.mem_append.mp hmem with hmem | hmem
    · exact h.sent hmem
    · obtain hmute | ⟨r, x, j, hx, he | ⟨g, he⟩⟩ := ha _ hmem
      · exact hmute.elim
      · cases he
        exact (h.query hx).1
      · cases he
  queued {q i g qbuf} hmem := by
    rw [ht] at hmem ⊢
    apply List.mem_append_left
    rcases List.mem_append.mp hmem with hmem | hmem
    · exact h.queued hmem
    · obtain hmute | ⟨r, x, j, hx, he | ⟨g, he⟩⟩ := ha _ hmem
      · exact hmute.elim
      · cases he
      · cases he
        exact (h.query hx).1

/-- A step that sends nothing and changes no query. -/
theorem Asked.mute (h : Asked ch) (hq : ch'.query = ch.query) (ht : ch'.trace = ch.trace ++ acts)
    (ha : ∀ a ∈ acts, a.Mute) : Asked ch' :=
  h.step ht (fun _ y hy => .inl ⟨y, hq ▸ hy, rfl, rfl⟩) fun a hm => .inl (ha a hm)

/-- A step that changes one query, but not its id or buffer. -/
theorem Asked.update (h : Asked ch) (hx : ch.query q = some x) (ht : ch'.trace = ch.trace ++ acts)
    (hq : ch'.query = Function.update ch.query q (some y)) (hbuf : y.qbuf = x.qbuf) (hid : y.qid = x.qid)
    (ha : ∀ a ∈ acts, ∃ i, a = .sent q i x.qbuf ∨ ∃ g, a = .queued q i g x.qbuf) : Asked ch' := by
  apply h.step ht
  · intro r z hz
    rw [hq] at hz
    rcases Rings.update_eq_some.mp hz with ⟨rfl, hyz⟩ | ⟨-, hz⟩
    · cases hyz
      exact .inl ⟨x, hx, hbuf, hid⟩
    · exact .inl ⟨z, hz, rfl, rfl⟩
  · intro a hm
    obtain ⟨i, hi⟩ := ha a hm
    exact .inr ⟨q, x, i, hx, hi⟩

theorem Move.asked (h : Move cfg env S σ τ) (ha : Asked σ.ch) : Asked τ.ch := by
  have hsingle : ∀ {a b : Act}, b ∈ [a] → a.Mute → b.Mute := fun hb ha => List.mem_singleton.mp hb ▸ ha
  cases h with
  | tick | done | alloc | draw | pick | steal | openTcp | openUdp | close => exact ⟨ha.query, ha.sent, ha.queued⟩
  | stray | tell | write | answer => exact ha.mute rfl rfl fun _ hb => hsingle hb trivial
  | @refuse ch _ _ _ _ qbuf _ _ status =>
    have htrace : ((ask ch qbuf).emit (.answered ch.issued ⟨status, 0, []⟩)).trace =
        ch.trace ++ [.asked ch.issued qbuf, .answered ch.issued ⟨status, 0, []⟩] := List.append_assoc _ _ _
    refine ha.mute rfl htrace fun b hb => ?_
    rcases List.mem_cons.mp hb with rfl | hb
    · trivial
    · exact hsingle hb trivial
  | @enlist ch _ _ _ _ qbuf qid callback _ hid =>
    apply ha.step
    · rfl
    · intro q y hy
      change Function.update ch.query ch.issued (some (newQuery cfg ch.lastServer qid qbuf callback)) q = some y at hy
      rcases Rings.update_eq_some.mp hy with ⟨hq, hxy⟩ | ⟨-, hy⟩
      · obtain rfl := Option.some.inj hxy
        subst hq
        exact .inr ⟨List.mem_singleton_self _, hid⟩
      · exact .inl ⟨y, hy, rfl, rfl⟩
    · exact fun _ hb => .inl (hsingle hb trivial)
  | late _ hx | retry _ hx | useTcp _ hx => exact ha.update hx (List.append_nil _).symm rfl rfl rfl nofun
  | @skip _ _ _ _ _ _ x i _ hx =>
    have hskip : (x.skip i).qbuf = x.qbuf ∧ (x.skip i).qid = x.qid := ⟨rfl, rfl⟩
    exact ha.update hx (List.append_nil _).symm rfl hskip.1 hskip.2 nofun
  | queue _ hx =>
    apply ha.update hx
    · rfl
    · rfl
    · rfl
    · rfl
    · exact fun _ hb => ⟨_, .inr ⟨_, List.mem_singleton.mp hb⟩⟩
  | send _ hx =>
    apply ha.update hx
    · rfl
    · rfl
    · rfl
    · rfl
    · exact fun _ hb => ⟨_, .inl (List.mem_singleton.mp hb)⟩
  | release =>
    obtain ⟨acts, htrace, hfault⟩ := releaseServer_trace env _ _ _ _
    exact ha.mute (releaseServer_query _ _ _ _) htrace fun a hm => hfault a hm ▸ trivial
  | free =>
    apply ha.step
    · exact (List.append_nil _).symm
    · intro r y hy
      rcases Rings.update_eq_some.mp hy with ⟨-, hy⟩ | ⟨-, hy⟩
      · cases hy
      · exact .inl ⟨y, hy, rfl, rfl⟩
    · exact nofun

theorem Advance.asked {e : Event} (h : Advance cfg env e ch ch') (ha : Asked ch) : Asked ch' := by
  cases h with
  | now | timeouts | consumed => exact ⟨ha.query, ha.sent, ha.queued⟩
  | packet | more => exact ha.mute rfl rfl fun _ hb => List.mem_singleton.mp hb ▸ trivial
  | message =>
    refine ha.mute rfl (List.append_assoc _ _ _) fun b hb => ?_
    rcases List.mem_cons.mp hb with rfl | hb
    · trivial
    · exact List.mem_singleton.mp hb ▸ trivial

theorem init_asked (cfg : Config) (env : Env) : Asked (init cfg env) :=
  ⟨nofun, fun h => absurd h List.not_mem_nil, fun h => absurd h List.not_mem_nil⟩

theorem run_asked (cfg : Config) (env : Env) (events : List Event) : Asked (run cfg env events) :=
  run_keep (P := fun σ => Asked σ.ch) events (fun hm _ _ => hm.asked) (fun _ => id) (fun _ hadvance => hadvance.asked)
    (init_asked cfg env)

end FakeDns.Channel
