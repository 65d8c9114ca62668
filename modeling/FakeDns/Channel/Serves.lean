import FakeDns.Channel.Cancel

/-! Clients that serve one caller each: they call it back once, whatever becomes of their
queries, and send nothing more when the channel is destroyed. -/

namespace FakeDns.Channel

/-- The client calls the caller `call` back once, with something of `G`, and ends; if it waits
when the channel is destroyed, then it does so without another query. -/
def Client.Serves (R : List UInt8 → Reply → Prop) (G : Told → Prop) (call : ℕ) : Client → Prop
  | .done | .stray => False
  | .alloc next => ∀ ok, (next ok).Serves R G call
  | .draw next => ∀ n, (next n).Serves R G call
  | .tell told next => told.call = call ∧ G told ∧ next = .done
  | .ask qbuf callback next => (callback ⟨ARES_EDESTRUCTION, 0, []⟩).Quiet ∧
      (∀ reply, R qbuf reply → (callback reply).Serves R G call) ∧ next = .done

variable {R : List UInt8 → Reply → Prop} {G : Told → Prop} {call call' : ℕ} {c : Client} {cfg : Config} {env : Env}
  {events : List Event} {told : Told}

theorem Client.Serves.owes (h : c.Serves R G call) : c.Owes R call' (if call = call' then 1 else 0) := by
  induction c with
  | done | stray => exact h.elim
  | alloc next ih => exact fun ok => ih ok (h ok)
  | draw next ih => exact fun n => ih n (h n)
  | tell told next =>
    obtain ⟨rfl, -, rfl⟩ := h
    exact ⟨0, (Nat.zero_add _).symm, rfl⟩
  | ask qbuf callback next ih =>
    obtain ⟨-, hreply, rfl⟩ := h
    exact ⟨_, 0, (Nat.add_zero _).symm, fun reply hr => ih reply (hreply reply hr), rfl⟩

/-- A client serves one caller only. -/
theorem Client.Serves.unique (hR : ∀ qbuf, R qbuf ⟨ARES_EDESTRUCTION, 0, []⟩) (h : c.Serves R G call)
    (h' : c.Serves R G call') : call = call' := by
  induction c with
  | done | stray => exact h.elim
  | alloc next ih => exact ih true (h true) (h' true)
  | draw next ih => exact ih 0 (h 0) (h' 0)
  | tell told next => exact h.1.symm.trans h'.1
  | ask qbuf callback next ih => exact ih _ (h.2.1 _ (hR qbuf)) (h'.2.1 _ (hR qbuf))

theorem Client.Serves.serves_iff (hR : ∀ qbuf, R qbuf ⟨ARES_EDESTRUCTION, 0, []⟩) (h : c.Serves R G call) :
    c.Serves R G call' ↔ call = call' := by
  refine ⟨h.unique hR, ?_⟩
  rintro rfl
  exact h

/-- What the caller of a lookup gets: a hostent just if the status is a success, and then one
of `S`. -/
structure Told.Gives (S : Hostent → Prop) (call : ℕ) (told : Told) : Prop where
  call : told.call = call
  success : told.status = ARES_SUCCESS → ∃ host, told.host = some host ∧ S host
  failure : told.status ≠ ARES_SUCCESS → told.host = none

theorem Told.Gives.not_success {S : Hostent → Prop} {status : UInt32} (h : status ≠ ARES_SUCCESS) {timeouts : ℕ}
    (hcall : call' = call) : Told.Gives S call ⟨call', status, timeouts, none⟩ :=
  ⟨hcall, fun hs => absurd hs h, fun _ => rfl⟩

/-- A client that serves someone, or has done so. -/
def Client.Service (R : List UInt8 → Reply → Prop) (G : Told → Prop) (c : Client) : Prop :=
  c = .done ∨ ∃ call, c.Serves R G call

theorem closed_service (R : List UInt8 → Reply → Prop) (G : Told → Prop) : Closed R (Client.Service R G) where
  alloc h ok := by
    obtain ⟨call, h⟩ := h.resolve_left (by simp)
    exact .inr ⟨call, h ok⟩
  draw h n := by
    obtain ⟨call, h⟩ := h.resolve_left (by simp)
    exact .inr ⟨call, h n⟩
  tell h := by
    obtain ⟨call, -, -, hnext⟩ := h.resolve_left (by simp)
    exact .inl hnext
  ask h := by
    obtain ⟨call, hquiet, hreply, rfl⟩ := h.resolve_left (by simp)
    exact ⟨.inl rfl, .inr ⟨call, hquiet, hreply, rfl⟩⟩
  reply h hr := by
    obtain ⟨call, -, hreply, -⟩ := h.resolve_left (by simp)
    exact .inr ⟨call, hreply _ hr⟩

/-- The event starts a client that serves the caller `call`. -/
def Event.Serves (R : List UInt8 → Reply → Prop) (G : Told → Prop) (call : ℕ) (e : Event) : Prop :=
  ∃ c, e = .run c ∧ c.Serves R G call

open Classical in
theorem sum_due_serves (R : List UInt8 → Reply → Prop) (G : Told → Prop) (call : ℕ) (events : List Event) :
    (events.map (Event.due fun c => if c.Serves R G call then 1 else 0)).sum =
      events.countP (Event.Serves R G call) := by
  induction events with
  | nil => rfl
  | cons e events ih =>
    rw [List.map_cons, List.sum_cons, ih, List.countP_cons, Nat.add_comm]
    congr 1
    cases e with
    | run c => exact if_congr (by simp [Event.Serves]) rfl rfl
    | now | write | read | packets | timeouts | broken => exact (if_neg (by simp [Event.Serves])).symm

theorem credible_destruction (cfg : Config) (env : Env) (events : List Event) (qbuf : List UInt8) :
    Credible cfg env events qbuf ⟨ARES_EDESTRUCTION, 0, []⟩ :=
  credible_of_failure cfg env events qbuf (by decide) 0 []

open Classical in
/-- When the channel has been destroyed, every caller has been called back just as often as
clients were started for it, with something of `G`. -/
theorem run_destroy_service (cfg : Config) (env : Env) (events : List Event)
    (hstart : ∀ c, .run c ∈ events → ∃ call, c.Serves (Credible cfg env events) G call) :
    ∃ ch, aresDestroy cfg env (run cfg env events).allQueries.length (run cfg env events) = some ch ∧
      (∀ call, ch.told call = events.countP (Event.Serves (Credible cfg env events) G call)) ∧
      ∀ told, .told told ∈ ch.trace → G told := by
  have hquit : ∀ {qbuf callback}, Client.Service (Credible cfg env events) G (.ask qbuf callback .done) →
      (callback ⟨ARES_EDESTRUCTION, 0, []⟩).Quiet := by
    intro qbuf callback h
    obtain ⟨call, hquiet, -⟩ := h.resolve_left (by simp)
    exact hquiet
  have howes : ∀ c, .run c ∈ events → Client.Service (Credible cfg env events) G c ∧ ∀ call,
      c.Owes (Credible cfg env events) call (if c.Serves (Credible cfg env events) G call then 1 else 0) := by
    intro c hc
    obtain ⟨call, h⟩ := hstart c hc
    refine ⟨.inr ⟨call, h⟩, fun call' => ?_⟩
    rw [if_congr (h.serves_iff (credible_destruction cfg env events)) rfl rfl]
    exact h.owes
  obtain ⟨ch, heq, htold, hgood⟩ := run_destroy_told cfg env events (closed_service _ G) hquit _ howes
  refine ⟨ch, heq, fun call => (htold call).trans (sum_due_serves _ G call events), fun told hmem => ?_⟩
  obtain ⟨next, hnext⟩ := hgood told hmem
  obtain ⟨call, -, hG, -⟩ := hnext.resolve_left (by simp)
  exact hG

end FakeDns.Channel
