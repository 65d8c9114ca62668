import FakeDns.Channel.Runs

/-! The timeouts. The queries are kept in lists by the second of their time, modulo the number
of lists, and `process_timeouts` looks only at the lists of the seconds since it was last
called. It finds every query that is due all the same, and touches no other; and its walks
end, since the queries that they meet a second time are not due. All this takes a clock that
does not go back, and a retry timer of more than a millisecond. -/

namespace FakeDns.Channel

/-- The query is due after `now`, or is excepted with the time that it has. -/
def Spared (now : Timeval) (except : ℕ → Timeval → Prop) (q : ℕ) (x : Query) : Prop :=
  now.micros < x.timeout.micros ∨ except q x.timeout

/-- Timeouts were processed up to a second in which or after which every query is due. -/
structure Clocked (ch : State) : Prop where
  pos : 0 < ch.lastTimeoutProcessed
  le_now : ch.lastTimeoutProcessed ≤ ch.now.sec
  le_timeout : ∀ {q x}, ch.query q = some x → ch.lastTimeoutProcessed ≤ x.timeout.sec

variable {cfg : Config} {env : Env} {S : Set ℕ} {σ τ : Sys} {ch ch' : State} {q : ℕ} {x : Query}
  {now t u : Timeval} {K : List Client} {except except' : ℕ → Timeval → Prop}

theorem sec_le (h : t.micros ≤ u.micros) : t.sec ≤ u.sec := by
  have ht := t.usec_lt
  have hu := u.usec_lt
  rw [Timeval.micros, Timeval.micros] at h
  omega

theorem due_iff (h : 0 < x.timeout.sec) : Due ch x ↔ x.timeout.micros ≤ ch.now.micros := by
  rw [Due, timedout_iff]
  exact and_iff_right h.ne'

/-- A query always waits for some time. -/
theorem timeplus_pos (htimer : 2 ≤ cfg.timeout) (x : Query) (rand : ℕ) : 0 < timeplus cfg x rand := by
  have hpow : 2 ≤ cfg.timeout <<< (x.tryCount / cfg.nservers) := by
    rw [Nat.shiftLeft_eq]
    exact htimer.trans (Nat.le_mul_of_pos_right _ (Nat.two_pow_pos _))
  rw [timeplus]
  apply Nat.div_pos
  · calc
      16 ≤ 2 * 9 := by norm_num
      _ ≤ _ := Nat.mul_le_mul hpow (Nat.le_add_right 9 _)
  · norm_num

theorem Spared.imp (h : Spared now except q x) (hex : except q x.timeout → except' q x.timeout) :
    Spared now except' q x := Or.imp_right hex h

/-- No move makes a query due. -/
theorem Moves.spared (h : Moves cfg env S σ τ) (htimer : 2 ≤ cfg.timeout) (hmono : env.Monotone) (hnow : now = σ.ch.now)
    (hs : Waiting (Spared now except) σ) : Waiting (Spared now except) τ := by
  have hkeep := h.keep (P := fun σ => σ.ch.now = now ∧ Waiting (Spared now except) σ) (fun σ τ hm hP => ?_)
    ⟨hnow.symm, hs⟩
  · exact hkeep.2
  · refine ⟨hm.clock_eq.1.trans hP.1, hm.waiting (fun _ _ _ h => h) (fun q y now' rand _ hle => .inl ?_) hP.2⟩
    have hle := hle.later hmono
    have hpos := timeplus_pos htimer y rand
    rw [hP.1] at hle
    rw [micros_timeadd]
    omega

theorem Clocked.moves (h : Clocked ch) (htimer : 2 ≤ cfg.timeout) (hmono : env.Monotone)
    (hm : Moves cfg env S ⟨ch, [], [], false, K⟩ ch'.idle) :
    Clocked ch' := by
  obtain ⟨hnow, hlast⟩ := hm.clock_eq
  dsimp only at hnow hlast
  refine ⟨hlast ▸ h.pos, hnow ▸ hlast ▸ h.le_now, fun {q x} hx => ?_⟩
  have hs : Waiting (Spared ch.now fun _ t => ch.lastTimeoutProcessed ≤ t.sec) ch'.idle :=
    hm.spared htimer hmono rfl fun q x hx _ => .inr (h.le_timeout hx)
  rw [hlast]
  rcases hs q x hx List.not_mem_nil with hlt | hle
  · exact h.le_now.trans (sec_le hlt.le)
  · exact hle

/-! ### One query -/

/-- The turn of a query leaves the others alone. -/
theorem not_own_of_query {r : ℕ} {y : Query} (h : Sound cfg env ch) (hy : ch.query r = some y) (hne : r ≠ q) :
    r ∉ Own q ch := fun hm => hm.elim hne fun hle => absurd (h.rings.fresh hy) (not_lt.mpr hle)

theorem not_own_of_mem {b r : ℕ} (h : Sound cfg env ch) (hr : r ∈ ch.byTimeout b) (hne : r ≠ q) : r ∉ Own q ch := by
  obtain ⟨y, hy, -⟩ := h.rings.of_mem_timeout hr
  exact not_own_of_query h hy hne

theorem expire_spared (h : Sound cfg env ch) (htimer : 2 ≤ cfg.timeout) (hmono : env.Monotone)
    (hx : ch.query q = some x)
    (hpos : 0 < x.timeout.sec) (hs : Waiting (Spared ch.now fun r t => r = q ∨ except r t) ch.idle) :
    Waiting (Spared ch.now except) (expire cfg env ch q).idle := by
  by_cases hdue : Due ch x
  · apply (expire_due h hx hdue).spared htimer hmono rfl
    intro r y hy hr
    exact (hs r y hy List.not_mem_nil).imp fun he => he.resolve_left fun e => hr (List.mem_singleton.mpr e)
  · rw [expire_of_not_due hx hdue]
    intro r y hy hr
    rcases hs r y hy hr with hlt | rfl | he
    · exact .inl hlt
    · obtain rfl := Option.some.inj (hx.symm.trans hy)
      rw [due_iff hpos, not_le] at hdue
      exact .inl hdue
    · exact .inr he

/-- A query that has had its turn is not due, nor is any that was sent meanwhile. -/
theorem expire_fresh (h : Sound cfg env ch) (htimer : 2 ≤ cfg.timeout) (hmono : env.Monotone) (hx : ch.query q = some x)
    (hpos : 0 < x.timeout.sec) {r : ℕ} {y : Query} (hr : r ∈ Own q ch) (hy : (expire cfg env ch q).query r = some y) :
    ch.now.micros < y.timeout.micros := by
  have hs : Waiting (Spared ch.now fun r _ => r = q ∨ r ∉ Own q ch) ch.idle := by
    intro p z hz _
    by_cases hp : p = q
    · exact .inr (.inl hp)
    · exact .inr (.inr (not_own_of_query h hz hp))
  exact (expire_spared h htimer hmono hx hpos hs r y hy List.not_mem_nil).resolve_right fun hout => hout hr

theorem expire_kept (h : Sound cfg env ch) {r : ℕ} {y : Query} (hx : ch.query q = some x) (hy : ch.query r = some y)
    (hdue : ¬ Due ch y) : (expire cfg env ch q).query r = some y := by
  by_cases hr : r = q
  · subst hr
    obtain rfl := Option.some.inj (hx.symm.trans hy)
    rw [expire_of_not_due hx hdue, hx]
  · exact ((expire_moves h hx).query_eq (not_own_of_query h hy hr)).trans hy

/-- A move of the queries in `S` puts them at the end of a list, and leaves the others there in
their places. -/
theorem Move.around {pre tail : List ℕ} {b : ℕ} (h : Move cfg env S σ τ) (hpre : ∀ r ∈ pre, r ∉ S)
    (htail : ∀ r ∈ tail, r ∉ S) (ha : Buckets.Around S pre tail (σ.ch.byTimeout b)) :
    Buckets.Around S pre tail (τ.ch.byTimeout b) := by
  cases h with
  | tick | done | stray | alloc | draw | tell | refuse | enlist | pick | steal | late | retry | skip | useTcp
  | openTcp | openUdp | answer | close | write => exact ha
  | queue hS | send hS => exact Buckets.Around.insert (ha.remove hS hpre htail) hS _
  | @release ch _ _ _ _ r status i =>
    have htables : (releaseServer env r status ch i).byTimeout = ch.byTimeout :=
      congrArg Tables.byTimeout (@releaseServer_tables env r status ch i)
    rw [htables]
    exact ha
  | free hS => exact ha.remove hS hpre htail

/-- What one turn does to the list that is walked. -/
theorem expire_around {pre tail : List ℕ} {b : ℕ} (h : Sound cfg env ch) (hb : ch.byTimeout b = pre ++ q :: tail) :
    Buckets.Around (Own q ch) pre tail ((expire cfg env ch q).byTimeout b) := by
  have hnd : (pre ++ q :: tail).Nodup := hb ▸ h.rings.timeout_apart.nodup b
  obtain ⟨-, htail, hdisj⟩ := List.nodup_append.mp hnd
  have hpre' : ∀ r ∈ pre, r ∉ Own q ch := fun r hr =>
    not_own_of_mem h (hb ▸ List.mem_append_left _ hr) (hdisj r hr q List.mem_cons_self)
  have htail' : ∀ r ∈ tail, r ∉ Own q ch := fun r hr =>
    not_own_of_mem h (hb ▸ List.mem_append_right _ (List.mem_cons_of_mem q hr)) fun e =>
      (List.nodup_cons.mp htail).1 (e ▸ hr)
  have hq : q ∈ ch.byTimeout b := hb ▸ List.mem_append_right _ List.mem_cons_self
  obtain ⟨x, hx, -⟩ := h.rings.of_mem_timeout hq
  exact (expire_moves h hx).keep (P := fun τ => Buckets.Around (Own q ch) pre tail (τ.ch.byTimeout b))
    (fun _ _ hm ha => hm.around hpre' htail' ha) (hb ▸ Buckets.Around.start (.inl rfl))

/-! ### One list -/

theorem walk_none (b n : ℕ) (ch : State) : walk cfg env b n none ch = (none, ch) := by cases n <;> rfl

/-- A walk that has ended stays at its end. -/
theorem walk_of_ended {b n m : ℕ} {node : Option ℕ} (h : (walk cfg env b n node ch).1 = none) (hm : n ≤ m) :
    walk cfg env b m node ch = walk cfg env b n node ch := by
  induction n generalizing m node ch with
  | zero =>
    rw [walk] at h ⊢
    dsimp only at h
    rw [h, walk_none]
  | succ n ih =>
    obtain ⟨m, rfl⟩ := Nat.exists_eq_add_one_of_ne_zero (Nat.ne_of_gt (Nat.lt_of_lt_of_le (Nat.succ_pos n) hm))
    cases node with
    | none => rfl
    | some q => exact ih h (Nat.le_of_succ_le_succ hm)

/-- The walk goes past the queries that are not due. -/
theorem walk_fresh (h : Sound cfg env ch) {b : ℕ} : ∀ (qs pre : List ℕ) (n : ℕ), ch.byTimeout b = pre ++ qs →
    (∀ r ∈ qs, ∀ x, ch.query r = some x → ¬ Due ch x) → qs.length ≤ n → walk cfg env b n qs.head? ch = (none, ch)
  | [], _, n, _, _, _ => walk_none b n ch
  | q :: qs, pre, n, hb, hqs, hn => by
    obtain ⟨n, rfl⟩ := Nat.exists_eq_add_one_of_ne_zero (Nat.ne_of_gt (Nat.lt_of_lt_of_le (Nat.succ_pos _) hn))
    have hq : q ∈ ch.byTimeout b := hb ▸ List.mem_append_right _ List.mem_cons_self
    obtain ⟨x, hx, -⟩ := h.rings.of_mem_timeout hq
    have hnd : (pre ++ q :: qs).Nodup := hb ▸ h.rings.timeout_apart.nodup b
    have hpre : q ∉ pre := fun hm => (List.nodup_append.mp hnd).2.2 q hm q List.mem_cons_self rfl
    rw [List.head?_cons, walk, expire_of_not_due hx (hqs q List.mem_cons_self x hx), hb, Buckets.next_append hpre]
    exact walk_fresh h qs (pre ++ [q]) n (hb.trans (by simp)) (fun r hr => hqs r (List.mem_cons_of_mem q hr))
      (Nat.le_of_succ_le_succ hn)

/-- The walk over a list ends when it has met the queries `todo`, and leaves none of them due.
What is behind them was put there meanwhile. -/
theorem walk_ends (htimer : 2 ≤ cfg.timeout) (hmono : env.Monotone) {b : ℕ} : ∀ (todo pre more : List ℕ) (ch : State),
    Sound cfg env ch → Clocked ch → ch.byTimeout b = pre ++ (todo ++ more) →
    (∀ r ∈ more, ∀ x, ch.query r = some x → ch.now.micros < x.timeout.micros) → now = ch.now →
    Waiting (Spared now fun r t => r ∈ todo ∨ except r t) ch.idle →
    ∃ n ch', (∀ m ≥ n, walk cfg env b m (todo ++ more).head? ch = (none, ch')) ∧
      Waiting (Spared now except) ch'.idle
  | [], pre, more, ch, h, hc, hb, hmore, _, hs => by
    refine ⟨more.length, ch, fun m hm => walk_fresh h more pre m hb (fun r hr x hx => ?_) hm, fun r x hx hr =>
      (hs r x hx hr).imp fun he => he.resolve_left List.not_mem_nil⟩
    rw [due_iff (hc.pos.trans_le (hc.le_timeout hx)), not_le]
    exact hmore r hr x hx
  | q :: todo, pre, more, ch, h, hc, hb, hmore, hnow, hs => by
    have hq : q ∈ ch.byTimeout b := hb ▸ List.mem_append_right _ List.mem_cons_self
    obtain ⟨x, hx, -⟩ := h.rings.of_mem_timeout hq
    have hpos := hc.pos.trans_le (hc.le_timeout hx)
    have hm := expire_moves h hx
    set ch₁ := expire cfg env ch q with hch
    have hclock : ch₁.now = ch.now := hm.clock_eq.1
    have hnd : (pre ++ q :: (todo ++ more)).Nodup := hb ▸ h.rings.timeout_apart.nodup b
    have hpre : q ∉ pre := fun hm => (List.nodup_append.mp hnd).2.2 q hm q List.mem_cons_self rfl
    have hturn : ∀ m, walk cfg env b (m + 1) (q :: todo ++ more).head? ch =
        walk cfg env b m (todo ++ more).head? ch₁ := by
      intro m
      rw [List.cons_append, List.head?_cons, walk, hb, List.cons_append, Buckets.next_append hpre]
    have hs₁ : Waiting (Spared now fun r t => r ∈ todo ∨ except r t) ch₁.idle := by
      rw [hnow]
      apply expire_spared h htimer hmono hx hpos
      intro r y hy hr
      rw [← hnow]
      apply (hs r y hy hr).imp
      rw [List.mem_cons, or_assoc]
      exact id
    obtain ⟨mid, more', hb₁, -, hmore'⟩ := expire_around h (hb.trans (by rw [List.cons_append]))
    have hmore₁ : ∀ r ∈ more ++ more', ∀ y, ch₁.query r = some y → ch₁.now.micros < y.timeout.micros := by
      intro r hr y hy
      rw [hclock]
      rcases List.mem_append.mp hr with hr | hr
      · have hbucket : r ∈ ch.byTimeout b := hb ▸ by simp [hr]
        have hne : r ≠ q := fun e =>
          (List.nodup_cons.mp (List.nodup_append.mp hnd).2.1).1 (e ▸ List.mem_append_right todo hr)
        exact hmore r hr y ((hm.query_eq (not_own_of_mem h hbucket hne)).symm.trans hy)
      · exact expire_fresh h htimer hmono hx hpos (hmore' r hr) hy
    by_cases hnil : todo ++ more = []
    · refine ⟨1, ch₁, fun m hm => ?_, fun r y hy hr => (hs₁ r y hy hr).imp fun he => he.resolve_left ?_⟩
      · obtain ⟨m, rfl⟩ := Nat.exists_eq_add_one_of_ne_zero (Nat.ne_of_gt hm)
        rw [hturn, hnil]
        exact walk_none b m ch₁
      · rw [(List.append_eq_nil_iff.mp hnil).1]
        exact List.not_mem_nil
    · obtain ⟨n, ch', hend, hs'⟩ := walk_ends htimer hmono todo (pre ++ mid) (more ++ more') ch₁ (h.moves hm)
        (hc.moves htimer hmono hm) (hb₁.trans (by simp)) hmore₁ (hnow.trans hclock.symm) hs₁
      refine ⟨n + 1, ch', fun m hm => ?_, hs'⟩
      obtain ⟨m, rfl⟩ := Nat.exists_eq_add_one_of_ne_zero (Nat.ne_of_gt (Nat.lt_of_lt_of_le (Nat.succ_pos n) hm))
      rw [hturn, ← hend m (Nat.le_of_succ_le_succ hm), ← List.append_assoc, List.head?_append_of_ne_nil _ hnil]

/-- The list of a second holds every query whose time is in that second. -/
theorem walkBucket_ends (htimer : 2 ≤ cfg.timeout) (hmono : env.Monotone) (h : Sound cfg env ch) (hc : Clocked ch)
    (s : ℕ) (hnow : now = ch.now) (hs : Waiting (Spared now except) ch.idle) :
    ∃ n ch', (∀ m ≥ n, walk cfg env (s % ARES_TIMEOUT_TABLE_SIZE) m
      (ch.byTimeout (s % ARES_TIMEOUT_TABLE_SIZE)).head? ch = (none, ch')) ∧
      Waiting (Spared now fun r t => except r t ∧ t.sec ≠ s) ch'.idle := by
  set bucket := ch.byTimeout (s % ARES_TIMEOUT_TABLE_SIZE) with hbucket
  have hs' : Waiting (Spared now fun r t => r ∈ bucket ∨ except r t ∧ t.sec ≠ s) ch.idle := by
    refine fun r x hx hr => (hs r x hx hr).imp fun he => ?_
    by_cases hsec : x.timeout.sec = s
    · exact .inl (hbucket ▸ hsec ▸ h.rings.mem_timeout hx List.not_mem_nil)
    · exact .inr ⟨he, hsec⟩
  have hends := walk_ends htimer hmono bucket [] [] ch h hc (by rw [List.append_nil, List.nil_append]) nofun hnow hs'
  rwa [List.append_nil] at hends

/-! ### All lists -/

theorem expireBuckets_of_ended {n m : ℕ} : ∀ (ts : List ℕ) (ch : State), (expireBuckets cfg env n ts ch).1 = true →
    n ≤ m → expireBuckets cfg env m ts ch = expireBuckets cfg env n ts ch
  | [], _, _, _ => rfl
  | t :: ts, ch, h, hm => by
    rw [expireBuckets] at h
    split at h
    next ch₁ heq =>
      have heq' := walk_of_ended (congrArg Prod.fst heq) hm
      rw [expireBuckets, expireBuckets, heq', heq]
      exact expireBuckets_of_ended ts ch₁ h hm
    next => exact absurd h Bool.false_ne_true

theorem expireBuckets_ends (htimer : 2 ≤ cfg.timeout) (hmono : env.Monotone) : ∀ (ts : List ℕ) (ch : State)
    (except : ℕ → Timeval → Prop), Sound cfg env ch → Clocked ch → now = ch.now → Waiting (Spared now except) ch.idle →
    ∃ n ch', (∀ m ≥ n, expireBuckets cfg env m ts ch = (true, ch')) ∧
      Waiting (Spared now fun r t => except r t ∧ t.sec ∉ ts) ch'.idle
  | [], ch, _, _, _, _, hs => ⟨0, { ch with lastTimeoutProcessed := ch.now.sec }, fun _ _ => rfl, fun r x hx hr =>
      (hs r x hx hr).imp fun he => ⟨he, List.not_mem_nil⟩⟩
  | s :: ts, ch, except, h, hc, hnow, hs => by
    obtain ⟨n, ch₁, hwalk, hs₁⟩ := walkBucket_ends htimer hmono h hc s hnow hs
    have hm := walkBucket_moves h (s % ARES_TIMEOUT_TABLE_SIZE) n
    rw [hwalk n le_rfl] at hm
    obtain ⟨n', ch', hends, hs'⟩ := expireBuckets_ends htimer hmono ts ch₁ _ (h.moves hm) (hc.moves htimer hmono hm)
      (hnow.trans hm.clock_eq.1.symm) hs₁
    refine ⟨max n n', ch', fun m hmax => ?_, fun r x hx hr => (hs' r x hx hr).imp ?_⟩
    · rw [expireBuckets, hwalk m ((le_max_left n n').trans hmax)]
      exact hends m ((le_max_right n n').trans hmax)
    · rintro ⟨⟨he, hs⟩, hts⟩
      exact ⟨he, List.not_mem_cons_of_ne_of_not_mem hs hts⟩

/-- `process_timeouts` returns, and then no query is due. -/
theorem processTimeouts_ends (htimer : 2 ≤ cfg.timeout) (hmono : env.Monotone) (h : Sound cfg env ch)
    (hc : Clocked ch) :
    ∃ n ch', (∀ visits ≥ n, processTimeouts cfg env visits ch = (true, ch')) ∧
      ∀ q x, ch'.query q = some x → ch.now.micros < x.timeout.micros := by
  obtain ⟨n, ch', hends, hs⟩ := expireBuckets_ends htimer hmono
    (List.range' ch.lastTimeoutProcessed (ch.now.sec + 1 - ch.lastTimeoutProcessed)) ch
    (fun _ t => ch.lastTimeoutProcessed ≤ t.sec) h hc rfl fun q x hx _ => .inr (hc.le_timeout hx)
  refine ⟨n, ch', hends, fun q x hx => ?_⟩
  rcases hs q x hx List.not_mem_nil with hlt | ⟨hle, hnot⟩
  · exact hlt
  · have hle_now := hc.le_now
    have hsec : ¬ x.timeout.sec ≤ ch.now.sec := fun hsec => hnot (List.mem_range'_1.mpr (by omega))
    exact lt_of_not_ge fun hlt => hsec (sec_le hlt)

theorem processTimeouts_spared (htimer : 2 ≤ cfg.timeout) (hmono : env.Monotone) (h : Sound cfg env ch)
    (hc : Clocked ch) {visits : ℕ} (hend : (processTimeouts cfg env visits ch).1 = true)
    (hx : (processTimeouts cfg env visits ch).2.query q = some x) : ch.now.micros < x.timeout.micros := by
  obtain ⟨n, ch', hends, hspared⟩ := processTimeouts_ends htimer hmono h hc
  have heq : processTimeouts cfg env (max visits n) ch = processTimeouts cfg env visits ch :=
    expireBuckets_of_ended _ ch hend (le_max_left visits n)
  rw [← heq, hends _ (le_max_right visits n)] at hx
  exact hspared q x hx

/-- A query that is not due stays as it is. -/
theorem walk_kept {b r : ℕ} {y : Query} : ∀ (n : ℕ) (node : Option ℕ) (ch : State), Sound cfg env ch →
    (∀ q, node = some q → q ∈ ch.byTimeout b) → ch.query r = some y → ¬ Due ch y →
    (walk cfg env b n node ch).2.query r = some y
  | 0, _, _, _, _, hy, _ => hy
  | _ + 1, none, _, _, _, hy, _ => hy
  | n + 1, some q, ch, h, hnode, hy, hdue => by
    have hq := hnode q rfl
    obtain ⟨x, hx, -⟩ := h.rings.of_mem_timeout hq
    have hm := expire_moves h hx
    apply walk_kept n _ _ (h.moves hm) fun r hr => expire_next h hq hr
    · exact expire_kept h hx hy hdue
    · rw [Due, show (expire cfg env ch q).now = ch.now from hm.clock_eq.1]
      exact hdue

theorem expireBuckets_kept {r visits : ℕ} {y : Query} : ∀ (ts : List ℕ) (ch : State), Sound cfg env ch →
    ch.query r = some y → ¬ Due ch y → (expireBuckets cfg env visits ts ch).2.query r = some y
  | [], _, _, hy, _ => hy
  | t :: ts, ch, h, hy, hdue => by
    have hm := walkBucket_moves h (t % ARES_TIMEOUT_TABLE_SIZE) visits
    have hkept := walk_kept visits (ch.byTimeout (t % ARES_TIMEOUT_TABLE_SIZE)).head? ch h
      (fun _ hq => List.mem_of_head? hq) hy hdue
    rw [expireBuckets]
    split
    next ch₁ heq =>
      rw [heq] at hm hkept
      apply expireBuckets_kept ts ch₁ (h.moves hm) hkept
      rw [Due, show ch₁.now = ch.now from hm.clock_eq.1]
      exact hdue
    next ch₁ heq =>
      rw [heq] at hkept
      exact hkept

/-! ### Runs -/

theorem step_clocked (h : Sound cfg env ch) (hc : Clocked ch) (htimer : 2 ≤ cfg.timeout) (hmono : env.Monotone)
    (e : Event) :
    Clocked (step cfg env ch e) := by
  cases e with
  | now =>
    obtain ⟨c, hlt, hnow⟩ := h.conns.clock
    have hle := hmono c ch.calls hlt.le
    rw [← hnow] at hle
    exact ⟨hc.pos, hc.le_now.trans (sec_le hle), hc.le_timeout⟩
  | timeouts visits =>
    obtain ⟨ch', hm, heq⟩ := @expireBuckets_moves cfg env visits
      (List.range' ch.lastTimeoutProcessed (ch.now.sec + 1 - ch.lastTimeoutProcessed)) ch h
    rw [← processTimeouts] at heq
    rw [step]
    rcases heq with heq | heq
    · rw [heq]
      exact hc.moves htimer hmono hm
    · have hnow : ch'.now = ch.now := hm.clock_eq.1
      have hspared : ∀ {q x}, (processTimeouts cfg env visits ch).2.query q = some x →
          ch.now.micros < x.timeout.micros := processTimeouts_spared htimer hmono h hc (congrArg Prod.fst heq)
      rw [heq] at hspared ⊢
      refine ⟨?_, le_rfl, fun hx => ?_⟩
      · rw [hnow]
        exact hc.pos.trans_le hc.le_now
      · rw [hnow]
        exact sec_le (hspared hx).le
  | run | write | read | packets | broken =>
    refine (turns_induction (fun _ ht hc => ?_) h (step_turns h _) hc).2
    rcases ht.moves_or with ⟨_, hm⟩ | ha
    · exact hc.moves htimer hmono hm
    · cases ha <;> exact ⟨hc.pos, hc.le_now, hc.le_timeout⟩

theorem run_clocked (htimer : 2 ≤ cfg.timeout) (hmono : env.Monotone) (hpos : 0 < (env.tvnow 0).sec)
    (events : List Event) : Clocked (run cfg env events) :=
  (steps_induction events (fun h hc e _ => step_clocked h hc htimer hmono e) (init_sound cfg env)
    ⟨hpos, le_rfl, nofun⟩).2

/-- In every run under a clock that does not go back, with a retry timer of two milliseconds or
more, `process_timeouts` returns. Then it has left no query that is due, though it looks at
a few lists only; and it leaves every query as it is that is not. -/
theorem run_timeouts (cfg : Config) (env : Env) (htimer : 2 ≤ cfg.timeout) (hmono : env.Monotone)
    (hpos : 0 < (env.tvnow 0).sec) (events : List Event) :
    (∃ n, ∀ visits ≥ n, (processTimeouts cfg env visits (run cfg env events)).1 = true) ∧
      ∀ visits q x, ((processTimeouts cfg env visits (run cfg env events)).1 = true →
          (run cfg env (events ++ [.timeouts visits])).query q = some x →
          timedout (run cfg env events).now x.timeout = false) ∧
        ((run cfg env events).query q = some x → timedout (run cfg env events).now x.timeout = false →
          (run cfg env (events ++ [.timeouts visits])).query q = some x) := by
  have hs := run_sound cfg env events
  have hc := run_clocked htimer hmono hpos events
  have hlast : ∀ visits, run cfg env (events ++ [.timeouts visits]) =
      (processTimeouts cfg env visits (run cfg env events)).2 := by
    intro visits
    rw [run, List.foldl_append, List.foldl_cons, List.foldl_nil, ← run]
    rfl
  refine ⟨?_, fun visits q x => ⟨fun hend hx => ?_, fun hx hdue => ?_⟩⟩
  · obtain ⟨n, ch', hends, -⟩ := processTimeouts_ends htimer hmono hs hc
    exact ⟨n, fun visits hv => by rw [hends visits hv]⟩
  · rw [hlast] at hx
    rw [Bool.eq_false_iff, Ne, timedout_iff, not_le]
    exact processTimeouts_spared htimer hmono hs hc hend hx
  · rw [hlast]
    apply expireBuckets_kept _ _ hs hx
    rintro ⟨-, h⟩
    exact absurd (hdue.symm.trans h) Bool.false_ne_true

/-- A query that is due is sent again, and then it is not due. -/
theorem run_timeouts_sample :
    let ch := run .single (.steady 10) [.run .once, .now]
    let ch' := run .single (.steady 10) [.run .once, .now, .timeouts 1]
    (∃ x, ch.query 0 = some x ∧ timedout ch.now x.timeout = true) ∧
      ∃ x, ch'.query 0 = some x ∧ x.tryCount = 1 ∧ timedout ch.now x.timeout = false := by
  intro ch ch'
  obtain ⟨-, hrun⟩ :=
    run_timeouts .single (.steady 10) (by decide) (steady_monotone 10) Nat.one_pos [.run .once, .now]
  obtain ⟨x, hx, htried⟩ : ∃ x, ch'.query 0 = some x ∧ x.tryCount = 1 := ⟨_, rfl, rfl⟩
  exact ⟨⟨_, rfl, rfl⟩, x, hx, htried, (hrun 1 0 x).1 rfl hx⟩

end FakeDns.Channel
