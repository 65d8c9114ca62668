import FakeDns.Channel.Attempts
import FakeDns.Channel.Once
import FakeDns.Channel.Timeouts

/-! Every query ends. As long as the clock goes on and the timeouts are processed, a query is
sent again or ends in each round, whatever else happens meanwhile; and it can be sent again
only so often. -/

namespace FakeDns.Channel

/-- The longest time that a query waits for a reply, in milliseconds. -/
def Config.longest (cfg : Config) : ℕ := cfg.timeout <<< cfg.tries

/-- The switch to TCP. -/
def Query.switches (x : Query) : ℕ := if x.usingTcp then 1 else 0

/-- How far the query has got: the steps on its count of tries, and the switch to TCP. -/
def Query.tried (x : Query) : ℕ := x.tryCount + x.switches

/-- No query waits for longer than that. -/
def Soon (cfg : Config) (env : Env) (σ : Sys) : Prop :=
  Waiting (fun _ x => ∃ c < σ.ch.calls, x.timeout.micros ≤ (env.tvnow c).micros + cfg.longest * 1000) σ

/-- The query has got further than `n`, or has got there and is not sent again before it is
due at `t`. -/
def Onward (n t q : ℕ) (σ : Sys) : Prop :=
  ∀ x, σ.ch.query q = some x → n < x.tried ∨ n ≤ x.tried ∧ x.timeout.micros ≤ t ∧ σ.waits q = 0

variable {cfg : Config} {env : Env} {S : Set ℕ} {σ τ : Sys} {ch ch' : State} {n t q : ℕ} {x y : Query}

theorem switches_le (x : Query) : x.switches ≤ 1 := by
  rw [Query.switches]
  split_ifs <;> omega

theorem jitter_le (h : x.tryCount < cfg.attempts) (rand : ℕ) :
    (cfg.timeout <<< (x.tryCount / cfg.nservers)) * (9 + rand % 8) ≤ 16 * cfg.longest := by
  have hround : x.tryCount / cfg.nservers ≤ cfg.tries := by
    apply Nat.div_le_of_le_mul
    rw [Config.attempts] at h
    omega
  have hshift : cfg.timeout <<< (x.tryCount / cfg.nservers) ≤ cfg.longest := by
    rw [Config.longest, Nat.shiftLeft_eq, Nat.shiftLeft_eq]
    exact Nat.mul_le_mul_left _ (Nat.pow_le_pow_right Nat.two_pos hround)
  calc
    _ ≤ cfg.longest * 16 := Nat.mul_le_mul hshift (by omega)
    _ = 16 * cfg.longest := Nat.mul_comm _ _

theorem timeplus_le (h : x.tryCount < cfg.attempts) (rand : ℕ) : timeplus cfg x rand ≤ cfg.longest :=
  Nat.div_le_of_le_mul (jitter_le h rand)

/-- The int of the source holds the time with its jitter, before it is divided. -/
theorem jitter_fits (h : x.tryCount < cfg.attempts) (rand : ℕ) :
    (cfg.timeout <<< (x.tryCount / cfg.nservers)) * (9 + rand % 8) < 2 ^ 31 := by
  apply (jitter_le h rand).trans_lt
  rw [Config.longest, Nat.shiftLeft_eq, Nat.mul_comm]
  exact cfg.timeout_fits

theorem Move.soon (h : Move cfg env S σ τ) (hs : Soon cfg env σ) : Soon cfg env τ := by
  have hw : Waiting (fun _ x => ∃ c < σ.ch.calls, x.timeout.micros ≤ (env.tvnow c).micros + cfg.longest * 1000) τ := by
    apply h.waiting _ _ hs
    · exact fun _ _ _ h => h
    · rintro q y now rand hn ⟨⟨c, hc, rfl⟩, -⟩
      have hle := timeplus_le hn rand
      refine ⟨c, hc, ?_⟩
      rw [micros_timeadd]
      omega
  intro q x hx hq
  obtain ⟨c, hc, hle⟩ := hw q x hx hq
  exact ⟨c, hc.trans_le h.calls_le, hle⟩

/-! ### Moves -/

/-- A move that lets a query alone, or takes it further, or sends it when it has got further. -/
theorem Onward.of (h : Onward n t q σ) (hq : ∀ y, τ.ch.query q = some y → ∃ x, σ.ch.query q = some x ∧
      x.tried ≤ y.tried ∧ (y.timeout = x.timeout ∧ τ.waits q ≤ σ.waits q ∨ x.tried < y.tried + σ.waits q)) :
    Onward n t q τ := by
  intro y hy
  obtain ⟨x, hx, hle, hcase⟩ := hq y hy
  rcases h x hx with hlt | ⟨hn, ht, hw⟩
  · exact .inl (hlt.trans_le hle)
  · rcases hcase with ⟨htime, hwaits⟩ | hlt
    · exact .inr ⟨hn.trans hle, htime ▸ ht, Nat.le_zero.mp (hw ▸ hwaits)⟩
    · rw [hw] at hlt
      exact .inl (hn.trans_lt hlt)

/-- A move that changes one query. -/
theorem Onward.update {r : ℕ} (h : Onward n t q σ) (hx : σ.ch.query r = some x)
    (hq : τ.ch.query = Function.update σ.ch.query r (some y)) (hle : x.tried ≤ y.tried)
    (hself : y.timeout = x.timeout ∧ τ.waits r ≤ σ.waits r ∨ x.tried < y.tried + σ.waits r)
    (hother : q ≠ r → τ.waits q ≤ σ.waits q) : Onward n t q τ := by
  apply h.of
  intro z hz
  rw [hq] at hz
  rcases Rings.update_eq_some.mp hz with ⟨rfl, hyz⟩ | ⟨hne, hz⟩
  · cases hyz
    exact ⟨x, hx, hle, hself⟩
  · exact ⟨z, hz, le_rfl, .inl ⟨rfl, hother hne⟩⟩

theorem Move.onward (h : Move cfg env S σ τ) (hq : q < σ.ch.issued) (ho : Onward n t q σ) : Onward n t q τ := by
  have hidle : ∀ {ch : State} {H E : List ℕ} {K : List Client}, (⟨ch, H, E, false, K⟩ : Sys).waits q ≤
      σ.waits q := fun {_ _ _ _} => (waits_of_not_armed rfl q).trans_le (Nat.zero_le _)
  have hother : ∀ {ch : State} {H E : List ℕ} {K : List Client} {a : Bool} {r : ℕ}, q ≠ r →
      (⟨ch, r :: H, E, a, K⟩ : Sys).waits q ≤ σ.waits q := fun {_ _ _ _ a _} hne =>
    (waits_of_ne hne a).trans_le (Nat.zero_le _)
  cases h with
  | tick | done | stray | alloc | draw | tell | refuse | openTcp | openUdp | close | write => exact ho
  | @enlist ch =>
    apply ho.of
    intro y hy
    have hne : q ≠ ch.issued := Nat.ne_of_lt hq
    exact ⟨y, (Function.update_of_ne hne _ _).symm.trans hy, le_rfl, .inl ⟨rfl, hother hne⟩⟩
  | pick | steal | answer => exact ho.of fun y hy => ⟨y, hy, le_rfl, .inl ⟨rfl, hidle⟩⟩
  | late _ hx => exact ho.update hx rfl le_rfl (.inl ⟨rfl, le_rfl⟩) hother
  | @retry _ _ _ _ _ _ x server _ hx =>
    have hlt : x.tried < ({ x with tryCount := x.tryCount + 1, server := server } : Query).tried :=
      Nat.add_lt_add_right (Nat.lt_succ_self _) _
    exact ho.update hx rfl hlt.le (.inr (Nat.lt_add_right _ hlt)) hother
  | @skip _ _ _ _ _ _ x i _ hx =>
    have hskip : (x.skip i).tried = x.tried ∧ (x.skip i).timeout = x.timeout := ⟨rfl, rfl⟩
    exact ho.update hx rfl hskip.1.ge (.inl ⟨hskip.2, le_rfl⟩) fun _ => le_rfl
  | @useTcp _ _ _ _ _ _ x _ hx _ hu _ =>
    have hold : x.switches = 0 := by rw [Query.switches, hu, if_neg Bool.false_ne_true]
    have hlt : x.tried < ({ x with usingTcp := true } : Query).tried := by
      rw [Query.tried, hold]
      exact Nat.lt_succ_self _
    exact ho.update hx rfl hlt.le (.inr (Nat.lt_add_right _ hlt)) hother
  | @queue ch H E K r x now _ hx =>
    have hw : (⟨ch, r :: H, E, true, K⟩ : Sys).waits r = 1 := if_pos ⟨rfl, rfl⟩
    apply ho.update hx rfl
    · exact le_rfl
    · refine .inr ?_
      rw [hw]
      exact Nat.lt_succ_self _
    · exact fun _ => hidle
  | @send ch H E K r x now _ hx =>
    have hw : (⟨ch, r :: H, E, true, K⟩ : Sys).waits r = 1 := if_pos ⟨rfl, rfl⟩
    apply ho.update hx rfl
    · exact le_rfl
    · refine .inr ?_
      rw [hw]
      exact Nat.lt_succ_self _
    · exact fun _ => hidle
  | release =>
    intro y hy
    rw [releaseServer_query] at hy
    exact ho y hy
  | free =>
    apply ho.of
    intro y hy
    rcases Rings.update_eq_some.mp hy with ⟨-, hy⟩ | ⟨-, hy⟩
    · cases hy
    · exact ⟨y, hy, le_rfl, .inl ⟨rfl, hidle⟩⟩

/-! ### Rounds -/

/-- The channel when some events have happened and the clock is read. -/
def timeAfter (cfg : Config) (env : Env) (ch : State) (events : List Event) : State :=
  step cfg env (events.foldl (step cfg env) ch) .now

/-- A round: whatever happens, and then the clock is read and the timeouts are processed. -/
def roundEvents (rounds : List (List Event × ℕ)) : List Event :=
  rounds.flatMap fun round => round.1 ++ [.now, .timeouts round.2]

/-- In each round the clock is read when every query that was waiting before it is due, and
`process_timeouts` is given the turns that it takes. -/
def TimePasses (cfg : Config) (env : Env) : State → List (List Event × ℕ) → Prop
  | _, [] => True
  | ch, (events, visits) :: rounds =>
    (∀ c < ch.calls, (env.tvnow c).micros + cfg.longest * 1000 ≤ (timeAfter cfg env ch events).now.micros) ∧
      (processTimeouts cfg env visits (timeAfter cfg env ch events)).1 = true ∧
      TimePasses cfg env (step cfg env (timeAfter cfg env ch events) (.timeouts visits)) rounds

instance decidableTimePasses (cfg : Config) (env : Env) : ∀ ch rounds, Decidable (TimePasses cfg env ch rounds)
  | _, [] => .isTrue trivial
  | ch, (events, visits) :: rounds =>
    have := decidableTimePasses cfg env (step cfg env (timeAfter cfg env ch events) (.timeouts visits)) rounds
    inferInstanceAs (Decidable
      ((∀ c < ch.calls,
        (env.tvnow c).micros + cfg.longest * 1000 ≤ (timeAfter cfg env ch events).now.micros) ∧ _ ∧ _))

/-- What holds between two rounds. -/
structure Timed (cfg : Config) (env : Env) (ch : State) : Prop where
  clocked : Clocked ch
  soon : Soon cfg env ch.idle

theorem step_timed (h : Sound cfg env ch) (ht : Timed cfg env ch) (htimer : 2 ≤ cfg.timeout) (hmono : env.Monotone)
    (e : Event) : Timed cfg env (step cfg env ch e) where
  clocked := step_clocked h ht.clocked htimer hmono e
  soon := by
    apply step_keep (fun hm _ _ => hm.soon) (fun _ => id) _ h ht.soon
    intro ch ch' hadvance hs
    cases hadvance with
    | now =>
      intro q x hx hq
      obtain ⟨c, hc, hle⟩ := hs q x hx hq
      exact ⟨c, Nat.lt_succ_of_lt hc, hle⟩
    | timeouts | packet | more | message | consumed => exact hs

theorem step_onward (h : Sound cfg env ch) (hq : q < ch.issued ∧ Onward n t q ch.idle) (e : Event) :
    q < (step cfg env ch e).issued ∧ Onward n t q (step cfg env ch e).idle := by
  apply step_keep (P := fun σ => q < σ.ch.issued ∧ Onward n t q σ) _ (fun _ => id) _ h hq
  · exact fun hm _ _ hP => ⟨hP.1.trans_le hm.issued_le, hm.onward hP.1 hP.2⟩
  · intro ch ch' hadvance hP
    cases hadvance <;> exact hP

theorem timeAfter_keep {P : State → Prop} (hstep : ∀ {ch}, Sound cfg env ch → P ch → ∀ e, P (step cfg env ch e))
    (h : Sound cfg env ch) (hP : P ch) (events : List Event) :
    Sound cfg env (timeAfter cfg env ch events) ∧ P (timeAfter cfg env ch events) := by
  obtain ⟨hs, hP⟩ := steps_induction events (fun h hP e _ => hstep h hP e) h hP
  exact ⟨step_sound hs .now, hstep hs hP .now⟩

/-- In a round, a query gets further or ends. -/
theorem round_tried (h : Sound cfg env ch) (ht : Timed cfg env ch) (htimer : 2 ≤ cfg.timeout) (hmono : env.Monotone)
    (events : List Event) (visits : ℕ)
    (htime : ∀ c < ch.calls,
      (env.tvnow c).micros + cfg.longest * 1000 ≤ (timeAfter cfg env ch events).now.micros)
    (hend : (processTimeouts cfg env visits (timeAfter cfg env ch events)).1 = true)
    (hq : q < ch.issued) (hn : ∀ x, ch.query q = some x → n ≤ x.tried) :
    q < (step cfg env (timeAfter cfg env ch events) (.timeouts visits)).issued ∧
      ∀ x, (step cfg env (timeAfter cfg env ch events) (.timeouts visits)).query q = some x → n < x.tried := by
  have hstart : Onward n (timeAfter cfg env ch events).now.micros q ch.idle := by
    intro x hx
    obtain ⟨c, hc, hle⟩ := ht.soon q x hx List.not_mem_nil
    exact .inr ⟨hn x hx, hle.trans (htime c hc), waits_of_not_armed rfl q⟩
  obtain ⟨hs, ht'⟩ := timeAfter_keep (fun h ht e => step_timed h ht htimer hmono e) h ht events
  obtain ⟨-, ho⟩ := timeAfter_keep (fun h hP e => step_onward h hP e) h ⟨hq, hstart⟩ events
  obtain ⟨hissued, honward⟩ := step_onward hs ho (.timeouts visits)
  refine ⟨hissued, fun x hx => ?_⟩
  have hspared := processTimeouts_spared htimer hmono hs ht'.clocked hend hx
  exact (honward x hx).resolve_right fun h => absurd h.2.1 (not_le.mpr hspared)

theorem rounds_tried (htimer : 2 ≤ cfg.timeout) (hmono : env.Monotone) : ∀ (rounds : List (List Event × ℕ)) (ch : State)
    (n : ℕ), Sound cfg env ch → Timed cfg env ch → TimePasses cfg env ch rounds → q < ch.issued →
    (∀ x, ch.query q = some x → n ≤ x.tried) →
    q < ((roundEvents rounds).foldl (step cfg env) ch).issued ∧
      ∀ x, ((roundEvents rounds).foldl (step cfg env) ch).query q = some x → n + rounds.length ≤ x.tried
  | [], _, _, _, _, _, hq, hn => ⟨hq, hn⟩
  | (events, visits) :: rounds, ch, n, h, ht, htime, hq, hn => by
    obtain ⟨hfirst, hend, hrest⟩ := htime
    obtain ⟨hq, hn⟩ := round_tried h ht htimer hmono events visits hfirst hend hq hn
    obtain ⟨hs, ht⟩ := timeAfter_keep (fun h ht e => step_timed h ht htimer hmono e) h ht events
    have hround : (roundEvents ((events, visits) :: rounds)).foldl (step cfg env) ch =
        (roundEvents rounds).foldl (step cfg env) (step cfg env (timeAfter cfg env ch events) (.timeouts visits)) := by
      rw [roundEvents, List.flatMap_cons, List.foldl_append, List.foldl_append]
      rfl
    obtain ⟨hq, hn⟩ := rounds_tried htimer hmono rounds _ (n + 1) (step_sound hs (.timeouts visits))
      (step_timed hs ht htimer hmono (.timeouts visits)) hrest hq hn
    rw [hround]
    refine ⟨hq, fun x hx => ?_⟩
    have := hn x hx
    rw [List.length_cons]
    omega

/-- With a retry timer of two milliseconds or more, a query that was asked is called back once,
when time passes and the timeouts are processed more often than it can be tried: whatever
else happens, and even if no reply ever comes. -/
theorem run_ends (cfg : Config) (env : Env) (htimer : 2 ≤ cfg.timeout) (hmono : env.Monotone)
    (hpos : 0 < (env.tvnow 0).sec) (events : List Event) (rounds : List (List Event × ℕ))
    (hlen : cfg.attempts < rounds.length) (htime : TimePasses cfg env (run cfg env events) rounds) (q : ℕ)
    (hq : q < (run cfg env events).issued) : (run cfg env (events ++ roundEvents rounds)).answers q = 1 := by
  have hinit : Timed cfg env (init cfg env) := ⟨⟨hpos, le_rfl, nofun⟩, nofun⟩
  obtain ⟨hs, ht⟩ :=
    steps_induction events (fun h ht e _ => step_timed h ht htimer hmono e) (init_sound cfg env) hinit
  obtain ⟨hissued, htried⟩ := rounds_tried htimer hmono rounds _ 0 hs ht htime hq fun _ _ => Nat.zero_le _
  rw [← run] at hissued htried
  have hrun : run cfg env (events ++ roundEvents rounds) =
      (roundEvents rounds).foldl (step cfg env) (run cfg env events) := by
    rw [run, List.foldl_append, ← run]
  have hanswered := run_answered cfg env (events ++ roundEvents rounds) q
  have hsound := run_sound cfg env (events ++ roundEvents rounds)
  rw [hrun] at hanswered hsound ⊢
  apply hanswered.1
  refine ⟨hissued, .inl (Option.eq_none_iff_forall_ne_some.mpr fun x hx => ?_)⟩
  have hle := htried x hx
  have hlt := hsound.settled hx
  have hswitch := switches_le x
  rw [Query.tried] at hle
  omega

/-- Nothing is heard of the query for five rounds. -/
theorem run_ends_sample :
    (run .single (.steady 100) ([.run .once] ++ roundEvents (List.replicate 5 ([], 1)))).answers 0 = 1 :=
  run_ends .single (.steady 100) (by decide) (steady_monotone 100) Nat.one_pos [.run .once]
    (List.replicate 5 ([], 1)) (Nat.lt_succ_self _) (by decide +kernel) 0 Nat.one_pos

end FakeDns.Channel
