import FakeDns.Channel.Moves

/-! The rings of a channel agree with its queries, whatever moves it makes. Every query that
has not been freed is in the ring of all queries and in the ring of its id; and, unless it
is in hand, in the ring of its time and in that of its server. Nothing else is in them. -/

namespace FakeDns.Channel

/-- The queries of a channel and the rings that hold them. -/
structure Tables where
  query : ℕ → Option Query
  allQueries : List ℕ
  byQid : ℕ → List ℕ
  byTimeout : ℕ → List ℕ
  toServer : Option ℕ → List ℕ
  issued : ℕ

def State.tables (ch : State) : Tables :=
  ⟨ch.query, ch.allQueries, ch.byQid, ch.byTimeout, ch.toServer, ch.issued⟩

structure Rings (t : Tables) (hand ending : List ℕ) : Prop where
  fresh : ∀ {q x}, t.query q = some x → q < t.issued
  hand_nodup : hand.Nodup
  hand_live : ∀ {q}, q ∈ hand → ∃ x, t.query q = some x
  ending_nodup : ending.Nodup
  ending_hand : ∀ {q}, q ∈ ending → q ∈ hand
  all_nodup : t.allQueries.Nodup
  mem_all : ∀ {q}, q ∈ t.allQueries ↔ ∃ x, t.query q = some x
  qid_apart : Buckets.Apart t.byQid
  mem_qid : ∀ {q b}, q ∈ t.byQid b ↔ ∃ x, t.query q = some x ∧ b = x.qid % ARES_QID_TABLE_SIZE
  timeout_apart : Buckets.Apart t.byTimeout
  of_mem_timeout : ∀ {q b}, q ∈ t.byTimeout b →
    ∃ x, t.query q = some x ∧ b = x.timeout.sec % ARES_TIMEOUT_TABLE_SIZE
  mem_timeout : ∀ {q x}, t.query q = some x → q ∉ hand → q ∈ t.byTimeout (x.timeout.sec % ARES_TIMEOUT_TABLE_SIZE)
  server_apart : Buckets.Apart t.toServer
  of_mem_server : ∀ {q b}, q ∈ t.toServer b → ∃ x, t.query q = some x
  mem_server : ∀ {q x}, t.query q = some x → q ∉ hand → q ∈ t.toServer (some x.server)

namespace Rings

variable {t : Tables} {H E : List ℕ} {q : ℕ} {x y : Query}

/-- The issued numbers that are not in use. -/
theorem unused (h : Rings t H E) : t.query t.issued = none := by
  cases hq : t.query t.issued with
  | none => rfl
  | some x => exact absurd (h.fresh hq) (lt_irrefl _)

/-- The queries after one of them has changed. -/
theorem update_eq_some {f : ℕ → Option Query} {o : Option Query} {q r : ℕ} {z : Query} :
    Function.update f q o r = some z ↔ r = q ∧ o = some z ∨ r ≠ q ∧ f r = some z := by
  by_cases hr : r = q
  · subst hr
    simp
  · simp [hr]

theorem live_update {f : ℕ → Option Query} (hx : f q = some x) (y : Query) {r : ℕ} :
    (∃ z, Function.update f q (some y) r = some z) ↔ ∃ z, f r = some z := by
  by_cases hr : r = q
  · subst hr
    simp [hx]
  · simp [hr]

theorem fresh_update (h : Rings t H E) (hx : t.query q = some x) {y z : Query} {r : ℕ}
    (hz : Function.update t.query q (some y) r = some z) : r < t.issued := by
  obtain ⟨z, hz⟩ := (live_update hx y).mp ⟨z, hz⟩
  exact h.fresh hz

theorem mem_qid_update (h : Rings t H E) (hx : t.query q = some x) (hid : y.qid = x.qid) {r b : ℕ} :
    r ∈ t.byQid b ↔
      ∃ z, Function.update t.query q (some y) r = some z ∧ b = z.qid % ARES_QID_TABLE_SIZE := by
  rw [h.mem_qid]
  by_cases hr : r = q
  · subst hr
    simp [hx, hid]
  · simp [hr]

/-- A query may change, as long as its id and its time stay; its server only while it is in
hand. -/
theorem edit (h : Rings t H E) (hH : q ∈ H ∨ y.server = x.server) (hx : t.query q = some x) (hid : y.qid = x.qid)
    (ht : y.timeout = x.timeout) : Rings { t with query := Function.update t.query q (some y) } H E where
  fresh hz := h.fresh_update hx hz
  hand_nodup := h.hand_nodup
  hand_live hr := (live_update hx y).mpr (h.hand_live hr)
  ending_nodup := h.ending_nodup
  ending_hand := h.ending_hand
  all_nodup := h.all_nodup
  mem_all := h.mem_all.trans (live_update hx y).symm
  qid_apart := h.qid_apart
  mem_qid := h.mem_qid_update hx hid
  timeout_apart := h.timeout_apart
  of_mem_timeout {r b} hb := by
    obtain ⟨z, hz, hb⟩ := h.of_mem_timeout hb
    by_cases hr : r = q
    · subst hr
      obtain rfl := Option.some.inj (hx.symm.trans hz)
      exact ⟨y, update_eq_some.mpr (.inl ⟨rfl, rfl⟩), ht ▸ hb⟩
    · exact ⟨z, update_eq_some.mpr (.inr ⟨hr, hz⟩), hb⟩
  mem_timeout {r z} hz hr := by
    rcases update_eq_some.mp hz with ⟨rfl, hy⟩ | ⟨-, hz⟩
    · cases hy
      exact ht ▸ h.mem_timeout hx hr
    · exact h.mem_timeout hz hr
  server_apart := h.server_apart
  of_mem_server hb := (live_update hx y).mpr (h.of_mem_server hb)
  mem_server {r z} hz hr := by
    rcases update_eq_some.mp hz with ⟨rfl, hy⟩ | ⟨-, hz⟩
    · cases hy
      exact hH.resolve_left hr ▸ h.mem_server hx hr
    · exact h.mem_server hz hr

/-- A query that has been sent is put into the rings of its time and its server. -/
theorem schedule (h : Rings t (q :: H) E) (hE : q ∉ E) (hx : t.query q = some x) (hid : y.qid = x.qid) :
    Rings { t with
      query := Function.update t.query q (some y)
      byTimeout := Buckets.insert (Buckets.remove t.byTimeout q) q (y.timeout.sec % ARES_TIMEOUT_TABLE_SIZE)
      toServer := Buckets.insert (Buckets.remove t.toServer q) q (some y.server) } H E where
  fresh hz := h.fresh_update hx hz
  hand_nodup := h.hand_nodup.of_cons
  hand_live hr := (live_update hx y).mpr (h.hand_live (List.mem_cons_of_mem q hr))
  ending_nodup := h.ending_nodup
  ending_hand {r} hr := by
    rcases List.mem_cons.mp (h.ending_hand hr) with rfl | hr'
    · exact absurd hr hE
    · exact hr'
  all_nodup := h.all_nodup
  mem_all := h.mem_all.trans (live_update hx y).symm
  qid_apart := h.qid_apart
  mem_qid := h.mem_qid_update hx hid
  timeout_apart := h.timeout_apart.move q _
  of_mem_timeout {r b} hb := by
    rcases h.timeout_apart.mem_move.mp hb with ⟨hr, hb⟩ | ⟨rfl, rfl⟩
    · obtain ⟨z, hz, hb⟩ := h.of_mem_timeout hb
      exact ⟨z, update_eq_some.mpr (.inr ⟨hr, hz⟩), hb⟩
    · exact ⟨y, update_eq_some.mpr (.inl ⟨rfl, rfl⟩), rfl⟩
  mem_timeout {r z} hz hr := by
    apply h.timeout_apart.mem_move.mpr
    rcases update_eq_some.mp hz with ⟨hrq, hy⟩ | ⟨hrq, hz⟩
    · cases hy
      exact .inr ⟨hrq, rfl⟩
    · exact .inl ⟨hrq, h.mem_timeout hz (List.not_mem_cons_of_ne_of_not_mem hrq hr)⟩
  server_apart := h.server_apart.move q _
  of_mem_server {r b} hb := by
    apply (live_update hx y).mpr
    rcases h.server_apart.mem_move.mp hb with ⟨hr, hb⟩ | ⟨rfl, rfl⟩
    · exact h.of_mem_server hb
    · exact ⟨x, hx⟩
  mem_server {r z} hz hr := by
    apply h.server_apart.mem_move.mpr
    rcases update_eq_some.mp hz with ⟨hrq, hy⟩ | ⟨hrq, hz⟩
    · cases hy
      exact .inr ⟨hrq, rfl⟩
    · exact .inl ⟨hrq, h.mem_server hz (List.not_mem_cons_of_ne_of_not_mem hrq hr)⟩

/-- A new query is in hand, and in the rings of all queries and of its id. -/
theorem enlist (h : Rings t H E) (x : Query) :
    Rings { t with
      query := Function.update t.query t.issued (some x)
      allQueries := t.allQueries ++ [t.issued]
      byQid := Buckets.insert t.byQid t.issued (x.qid % ARES_QID_TABLE_SIZE)
      issued := t.issued + 1 } (t.issued :: H) E := by
  have hnew : ∀ {r z}, t.query r = some z → r ≠ t.issued := fun hz e => (h.fresh hz).ne e
  have hlive : ∀ {r z}, t.query r = some z → Function.update t.query t.issued (some x) r = some z :=
    fun hz => update_eq_some.mpr (.inr ⟨hnew hz, hz⟩)
  constructor
  · intro r z hz
    rcases update_eq_some.mp hz with ⟨rfl, -⟩ | ⟨-, hz⟩
    · exact Nat.lt_succ_self _
    · exact Nat.lt_succ_of_lt (h.fresh hz)
  · refine List.nodup_cons.mpr ⟨fun hm => ?_, h.hand_nodup⟩
    obtain ⟨z, hz⟩ := h.hand_live hm
    exact hnew hz rfl
  · intro r hr
    rcases List.mem_cons.mp hr with rfl | hr
    · exact ⟨x, update_eq_some.mpr (.inl ⟨rfl, rfl⟩)⟩
    · obtain ⟨z, hz⟩ := h.hand_live hr
      exact ⟨z, hlive hz⟩
  · exact h.ending_nodup
  · exact fun hr => List.mem_cons_of_mem _ (h.ending_hand hr)
  · refine List.nodup_append.mpr ⟨h.all_nodup, List.nodup_singleton _, fun i hi j hj hij => ?_⟩
    obtain ⟨z, hz⟩ := h.mem_all.mp hi
    exact hnew hz (hij.trans (List.mem_singleton.mp hj))
  · intro r
    rw [List.mem_append, List.mem_singleton, h.mem_all]
    by_cases hr : r = t.issued
    · subst hr
      simp
    · simp [hr]
  · refine h.qid_apart.insert (fun b hb => ?_) _
    obtain ⟨z, hz, -⟩ := h.mem_qid.mp hb
    exact hnew hz rfl
  · intro r b
    rw [Buckets.mem_insert, h.mem_qid]
    by_cases hr : r = t.issued
    · subst hr
      simp [h.unused]
    · simp [hr]
  · exact h.timeout_apart
  · intro r b hb
    obtain ⟨z, hz, hb⟩ := h.of_mem_timeout hb
    exact ⟨z, hlive hz, hb⟩
  · intro r z hz hr
    rw [List.mem_cons, not_or] at hr
    exact h.mem_timeout ((update_eq_some.mp hz).resolve_left fun e => hr.1 e.1).2 hr.2
  · exact h.server_apart
  · intro r b hb
    obtain ⟨z, hz⟩ := h.of_mem_server hb
    exact ⟨z, hlive hz⟩
  · intro r z hz hr
    rw [List.mem_cons, not_or] at hr
    exact h.mem_server ((update_eq_some.mp hz).resolve_left fun e => hr.1 e.1).2 hr.2

/-- A freed query is in no ring. -/
theorem free (h : Rings t (q :: H) (q :: E)) :
    Rings { t with
      query := Function.update t.query q none
      byQid := Buckets.remove t.byQid q
      byTimeout := Buckets.remove t.byTimeout q
      toServer := Buckets.remove t.toServer q
      allQueries := t.allQueries.erase q } H E := by
  have hlive : ∀ {r z}, Function.update t.query q none r = some z ↔ r ≠ q ∧ t.query r = some z := by
    intro r z
    rw [update_eq_some]
    simp
  have hnot : ∀ {r}, r ∈ H → r ≠ q := fun hr e => (List.nodup_cons.mp h.hand_nodup).1 (e ▸ hr)
  constructor
  · exact fun hz => h.fresh (hlive.mp hz).2
  · exact h.hand_nodup.of_cons
  · intro r hr
    obtain ⟨z, hz⟩ := h.hand_live (List.mem_cons_of_mem q hr)
    exact ⟨z, hlive.mpr ⟨hnot hr, hz⟩⟩
  · exact h.ending_nodup.of_cons
  · intro r hr
    rcases List.mem_cons.mp (h.ending_hand (List.mem_cons_of_mem q hr)) with rfl | hr'
    · exact absurd hr (List.nodup_cons.mp h.ending_nodup).1
    · exact hr'
  · exact h.all_nodup.erase q
  · intro r
    rw [h.all_nodup.mem_erase_iff, h.mem_all]
    simp only [hlive, exists_and_left]
  · exact h.qid_apart.remove q
  · intro r b
    rw [h.qid_apart.mem_remove, h.mem_qid]
    simp only [hlive, and_assoc, exists_and_left]
  · exact h.timeout_apart.remove q
  · intro r b hb
    obtain ⟨hr, hb⟩ := h.timeout_apart.mem_remove.mp hb
    obtain ⟨z, hz, hb⟩ := h.of_mem_timeout hb
    exact ⟨z, hlive.mpr ⟨hr, hz⟩, hb⟩
  · intro r z hz hr
    obtain ⟨hrq, hz⟩ := hlive.mp hz
    exact h.timeout_apart.mem_remove.mpr
      ⟨hrq, h.mem_timeout hz (List.not_mem_cons_of_ne_of_not_mem hrq hr)⟩
  · exact h.server_apart.remove q
  · intro r b hb
    obtain ⟨hr, hb⟩ := h.server_apart.mem_remove.mp hb
    obtain ⟨z, hz⟩ := h.of_mem_server hb
    exact ⟨z, hlive.mpr ⟨hr, hz⟩⟩
  · intro r z hz hr
    obtain ⟨hrq, hz⟩ := hlive.mp hz
    exact h.server_apart.mem_remove.mpr ⟨hrq, h.mem_server hz (List.not_mem_cons_of_ne_of_not_mem hrq hr)⟩

/-- With nothing in hand, the local ring of `handle_error` is empty. -/
theorem local_empty (h : Rings t [] E) : t.toServer none = [] := by
  apply List.eq_nil_iff_forall_not_mem.mpr
  intro q hq
  obtain ⟨x, hx⟩ := h.of_mem_server hq
  exact absurd (h.server_apart.once hq (h.mem_server hx List.not_mem_nil)) nofun

/-- A list of `handle_error` has the queries that were sent to that server. -/
theorem server_eq {i : ℕ} (h : Rings t [] E) (hq : q ∈ t.toServer (some i)) :
    ∃ x, t.query q = some x ∧ x.server = i := by
  obtain ⟨x, hx⟩ := h.of_mem_server hq
  exact ⟨x, hx, Option.some.inj (h.server_apart.once (h.mem_server hx List.not_mem_nil) hq)⟩

theorem pick (h : Rings t H E) (hx : t.query q = some x) (hH : q ∉ H) : Rings t (q :: H) E :=
  { h with
    hand_nodup := List.nodup_cons.mpr ⟨hH, h.hand_nodup⟩
    hand_live := fun hr => (List.mem_cons.mp hr).elim (fun e => ⟨x, e ▸ hx⟩) h.hand_live
    ending_hand := fun hr => List.mem_cons_of_mem q (h.ending_hand hr)
    mem_timeout := fun hz hr => h.mem_timeout hz fun hm => hr (List.mem_cons_of_mem q hm)
    mem_server := fun hz hr => h.mem_server hz fun hm => hr (List.mem_cons_of_mem q hm) }

theorem answer (h : Rings t (q :: H) E) (hE : q ∉ E) : Rings t (q :: H) (q :: E) :=
  { h with
    ending_nodup := List.nodup_cons.mpr ⟨hE, h.ending_nodup⟩
    ending_hand := fun hr => (List.mem_cons.mp hr).elim (fun e => e ▸ List.mem_cons_self) h.ending_hand }

/-- `handle_error` takes the whole list of a server in hand. -/
theorem steal (h : Rings t [] []) (i : ℕ) :
    Rings { t with toServer := Buckets.swap (Function.update t.toServer none []) none (some i) }
      (Buckets.swap (Function.update t.toServer none []) none (some i) none) [] := by
  have hempty : Function.update t.toServer none [] = t.toServer := by
    rw [← h.local_empty, Function.update_eq_self]
  have hlocal : Buckets.swap t.toServer none (some i) none = t.toServer (some i) := by
    rw [Buckets.swap, Equiv.swap_apply_left]
  rw [hempty, hlocal]
  exact { h with
    hand_nodup := h.server_apart.nodup _
    hand_live := h.of_mem_server
    ending_hand := nofun
    mem_timeout := fun hz _ => h.mem_timeout hz List.not_mem_nil
    server_apart := h.server_apart.swap _ _
    of_mem_server := fun hb => h.of_mem_server (Buckets.mem_swap.mp hb)
    mem_server := fun {q x} hz hr => by
      have hq := h.mem_server hz List.not_mem_nil
      have hi : x.server ≠ i := fun e => hr (e ▸ hq)
      rwa [Buckets.mem_swap,
        Equiv.swap_apply_of_ne_of_ne (Option.some_ne_none _) fun e => hi (Option.some.inj e)] }

end Rings

variable {cfg : Config} {env : Env} {S : Set ℕ} {σ τ : Sys}

theorem releaseServer_tables (q : ℕ) (status : UInt32) (ch : State) (i : ℕ) :
    (releaseServer env q status ch i).tables = ch.tables := by
  simp only [releaseServer]
  split <;> rfl

theorem Move.rings (h : Move cfg env S σ τ) (hr : Rings σ.ch.tables σ.hand σ.ending) :
    Rings τ.ch.tables τ.hand τ.ending := by
  cases h with
  | tick | done | stray | alloc | draw | tell | openTcp | openUdp | close | write => exact hr
  | refuse => exact { hr with fresh := fun hx => Nat.lt_succ_of_lt (hr.fresh hx) }
  | enlist => exact hr.enlist _
  | pick _ hx hH => exact hr.pick hx hH
  | steal => exact hr.steal _
  | late _ hx | retry _ hx | useTcp _ hx => exact hr.edit (.inl List.mem_cons_self) hx rfl rfl
  | @skip _ _ _ _ _ _ x i _ hx =>
    have hserver : (x.skip i).server = x.server := rfl
    exact hr.edit (.inr hserver) hx rfl rfl
  | queue _ hx hE => exact hr.schedule hE hx rfl
  | send _ hx hE => exact hr.schedule hE hx rfl
  | release => exact (releaseServer_tables _ _ _ _).symm ▸ hr
  | answer _ _ hE => exact hr.answer hE
  | free => exact hr.free

end FakeDns.Channel
