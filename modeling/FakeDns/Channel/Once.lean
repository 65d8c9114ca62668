import FakeDns.Channel.Runs

/-! Every call of `ares_send` is answered once, when its query is freed. -/

namespace FakeDns.Channel

/-- The callback of query `q` is called. -/
def Act.answers (q : ℕ) : Act → Bool
  | .answered r _ => r = q
  | _ => false

/-- How often the callback of query `q` was called. -/
def State.answers (ch : State) (q : ℕ) : ℕ := ch.trace.countP (Act.answers q)

/-- The query was asked, and has been freed or is about to be. -/
def Done (ch : State) (ending : List ℕ) (q : ℕ) : Prop := q < ch.issued ∧ (ch.query q = none ∨ q ∈ ending)

/-- A query that is done was called back once, any other not at all. -/
def Answered (ch : State) (ending : List ℕ) : Prop :=
  ∀ q, (Done ch ending q → ch.answers q = 1) ∧ (¬ Done ch ending q → ch.answers q = 0)

variable {cfg : Config} {env : Env} {S : Set ℕ} {σ τ : Sys} {ch ch' : State} {a : Act} {q : ℕ} {x y : Query}
  {E E' : List ℕ}

theorem answers_emit (ch : State) (a : Act) (q : ℕ) :
    (ch.emit a).answers q = ch.answers q + if a.answers q then 1 else 0 := by
  rw [State.answers, State.emit, List.countP_append, List.countP_singleton]
  rfl

theorem answers_emit_of_not (h : a.answers q = false) : (ch.emit a).answers q = ch.answers q := by
  rw [answers_emit, h]
  rfl

theorem Answered.at_of_eq (h : Answered ch E) (ha : ch'.answers q = ch.answers q)
    (hd : Done ch' E' q ↔ Done ch E q) :
    (Done ch' E' q → ch'.answers q = 1) ∧ (¬ Done ch' E' q → ch'.answers q = 0) := by
  rw [ha, hd]
  exact h q

theorem update_eq_none {f : ℕ → Option Query} (hx : f q = some x) (y : Query) {r : ℕ} :
    Function.update f q (some y) r = none ↔ f r = none := by
  by_cases hr : r = q
  · subst hr
    simp [hx]
  · simp [hr]

theorem releaseServer_answers (q : ℕ) (status : UInt32) (ch : State) (i r : ℕ) :
    (releaseServer env q status ch i).answers r = ch.answers r := by
  simp only [releaseServer]
  split
  · rfl
  · exact answers_emit_of_not rfl

/-- A query that is called back is about to be freed. -/
theorem Answered.answer (h : Answered ch E) (hq : q < ch.issued) (hx : ch.query q = some x) (hE : q ∉ E)
    (reply : Reply) : Answered (ch.emit (.answered q reply)) (q :: E) := by
  intro r
  have hemit : (ch.emit (.answered q reply)).answers r = ch.answers r + if q = r then 1 else 0 := by
    rw [answers_emit]
    simp [Act.answers]
  by_cases hrq : q = r
  · subst hrq
    have hdone : Done (ch.emit (.answered q reply)) (q :: E) q := ⟨hq, .inr List.mem_cons_self⟩
    have hzero : ch.answers q = 0 := (h q).2 fun h => h.2.elim (fun h => by rw [hx] at h; cases h) hE
    exact ⟨fun _ => by rw [hemit, hzero, if_pos rfl], fun h => absurd hdone h⟩
  · rw [if_neg hrq, Nat.add_zero] at hemit
    refine h.at_of_eq hemit (and_congr_right fun _ => or_congr_right ?_)
    exact ⟨fun h => (List.mem_cons.mp h).resolve_left (Ne.symm hrq), List.mem_cons_of_mem q⟩

theorem Answered.free (h : Answered ch (q :: E)) : Answered (freeQuery ch q) E := by
  intro r
  refine h.at_of_eq rfl ?_
  by_cases hrq : r = q
  · subst hrq
    exact and_congr_right fun _ =>
      ⟨fun _ => .inr List.mem_cons_self, fun _ => .inl (Function.update_self _ _ _)⟩
  · simp [Done, freeQuery, hrq]

/-- Every move calls back the queries that it ends, and no other. -/
theorem Move.answered (h : Move cfg env S σ τ) (hr : Rings σ.ch.tables σ.hand σ.ending)
    (ha : Answered σ.ch σ.ending) : Answered τ.ch τ.ending := by
  cases h with
  | tick | done | alloc | draw | pick | steal | openTcp | openUdp | close => exact ha
  | @refuse ch H E _ _ qbuf _ _ status _ _ =>
    intro q
    have hemit : ((ask ch qbuf).emit (.answered ch.issued ⟨status, 0, []⟩)).answers q =
        ch.answers q + if ch.issued = q then 1 else 0 := by
      rw [answers_emit, ask, answers_emit_of_not rfl]
      simp [Act.answers, State.answers]
    by_cases hq : ch.issued = q
    · subst hq
      have hdone : Done (ask ch qbuf) E ch.issued := ⟨Nat.lt_succ_self _, .inl hr.unused⟩
      have hzero : ch.answers ch.issued = 0 := (ha ch.issued).2 fun h => lt_irrefl _ h.1
      exact ⟨fun _ => by rw [hemit, hzero, if_pos rfl], fun h => absurd hdone h⟩
    · rw [if_neg hq, Nat.add_zero] at hemit
      refine ha.at_of_eq hemit (and_congr_left fun _ => ?_)
      exact ⟨fun h => lt_of_le_of_ne (Nat.le_of_lt_succ h) (Ne.symm hq), Nat.lt_succ_of_lt⟩
  | @enlist ch H E _ _ qbuf qid callback _ _ _ _ =>
    intro q
    by_cases hq : q = ch.issued
    · subst hq
      have hE : ch.issued ∉ E := fun h => by
        obtain ⟨z, hz⟩ := hr.hand_live (hr.ending_hand h)
        exact Option.some_ne_none z (hz.symm.trans hr.unused)
      refine ha.at_of_eq (answers_emit_of_not rfl) ⟨fun h => ?_, fun h => absurd h.1 (lt_irrefl _)⟩
      rcases h.2 with h | h
      · exact absurd ((Function.update_self _ _ _).symm.trans h) (Option.some_ne_none _)
      · exact absurd h hE
    · refine ha.at_of_eq (answers_emit_of_not rfl) (and_congr ?_ (or_congr_left ?_))
      · exact ⟨fun h => lt_of_le_of_ne (Nat.le_of_lt_succ h) hq, Nat.lt_succ_of_lt⟩
      · exact iff_of_eq (congrArg (· = none) (Function.update_of_ne hq _ _))
  | late _ hx | retry _ hx | skip _ hx | useTcp _ hx =>
    exact fun q => ha.at_of_eq rfl (and_congr_right fun _ => or_congr_left (update_eq_none hx _))
  | queue _ hx | send _ hx =>
    exact fun q => ha.at_of_eq (answers_emit_of_not rfl)
      (and_congr_right fun _ => or_congr_left (update_eq_none hx _))
  | release =>
    intro r
    apply ha.at_of_eq (releaseServer_answers _ _ _ _ r)
    simp only [Done, releaseServer_query, releaseServer_issued]
  | answer _ hx hE => exact ha.answer (hr.fresh hx) hx hE _
  | free => exact ha.free
  | stray | tell | write => exact fun q => ha.at_of_eq (answers_emit_of_not rfl) Iff.rfl

theorem run_answered (cfg : Config) (env : Env) (events : List Event) : Answered (run cfg env events) [] := by
  have hinit : Answered (init cfg env) [] := fun q => ⟨fun h => absurd h.1 (Nat.not_lt_zero _), fun _ => rfl⟩
  refine run_keep (P := fun σ => Answered σ.ch σ.ending) events (fun hm _ hr => hm.answered hr) (fun _ => id)
    (fun _ hadvance ha => ?_) hinit
  cases hadvance with
  | now | timeouts | consumed => exact ha
  | packet | more => exact fun q => ha.at_of_eq (answers_emit_of_not rfl) Iff.rfl
  | message =>
    exact fun q => ha.at_of_eq ((answers_emit_of_not rfl).trans (answers_emit_of_not rfl)) Iff.rfl

/-- In every run, whatever the network, the system and the clients do, each call of
`ares_send` is called back once if its query has ended and not at all as long as it is
among the queries of the channel; nothing else is called back. -/
theorem run_answers (cfg : Config) (env : Env) (events : List Event) (q : ℕ) :
    (run cfg env events).answers q =
      if q < (run cfg env events).issued ∧ q ∉ (run cfg env events).allQueries then 1 else 0 := by
  have hmem : q ∈ (run cfg env events).allQueries ↔ ∃ x, (run cfg env events).query q = some x :=
    (run_sound cfg env events).rings.mem_all
  have hlive : q ∉ (run cfg env events).allQueries ↔ (run cfg env events).query q = none := by
    rw [hmem, Option.eq_none_iff_forall_ne_some, not_exists]
  have ha := run_answered cfg env events q
  split_ifs with hdone
  · exact ha.1 ⟨hdone.1, .inl (hlive.mp hdone.2)⟩
  · exact ha.2 fun h => hdone ⟨h.1, hlive.mpr (h.2.resolve_right List.not_mem_nil)⟩

end FakeDns.Channel
