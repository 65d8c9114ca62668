import FakeDns.Hostent.Invariant

/-! What the reentrant lookups report. The caller of an `_r` lookup learns the outcome
from `*result` and `*h_errnop`. After an accepted call these always say success: the test
for a failure reads the static hostent, and its branch runs on into the success stores.
So the report is right exactly when the lookup itself succeeded, after any history. -/

namespace FakeDns

open ByteMemory Mem

/-- The caller reads the outcome of the lookup: the hostent and no error on success, NULL
and some error otherwise. -/
def OutcomeReported (a : ResultArgs) (reply : Reply) (m : Mem) : Prop :=
  match reply with
  | .success _ => m.loadPtr a.result = a.resultBuf ∧ m.load 4 a.hErrnop = 0
  | .failure _ _ => m.loadPtr a.result = 0 ∧ m.load 4 a.hErrnop ≠ 0

section

variable {st : Statics} {a : ResultArgs}

/-- An accepted call reports success, whatever the reply and the earlier state. -/
theorem lookupReentrant_report (hv : a.Valid st) (hs : a.Sufficient) (hr : a.result ≠ 0)
    (he : a.hErrnop ≠ 0) (reply : Reply) (w : World) :
    (lookupReentrant st a reply w).2.mem.loadPtr a.result = a.resultBuf ∧
      (lookupReentrant st a reply w).2.mem.load 4 a.hErrnop = 0 := by
  refine ⟨lookupReentrant_result hv hs hr reply w, ?_⟩
  obtain ⟨m, hm⟩ := lookupReentrant_last_stores hv hs reply w
  rw [hm, setErrno, if_pos he]
  exact load_store_of_lt (by decide)

/-- The report of an accepted call is right exactly when its lookup succeeded. -/
theorem lookupReentrant_reported_iff (hv : a.Valid st) (hs : a.Sufficient) (hr : a.result ≠ 0)
    (he : a.hErrnop ≠ 0) (reply : Reply) (w : World) :
    OutcomeReported a reply (lookupReentrant st a reply w).2.mem ↔ ∃ host, reply = .success host := by
  have hrep := lookupReentrant_report hv hs hr he reply w
  cases reply with
  | success host => exact ⟨fun _ => ⟨host, rfl⟩, fun _ => hrep⟩
  | failure status hne =>
    constructor
    · intro h
      exact absurd hrep.2 h.2
    · rintro ⟨host, hh⟩
      cases hh

/-- After any history of calls, a reentrant lookup reports its outcome exactly when its
own query succeeded. -/
theorem reentrant_reports_iff (history : List Event) (w₀ : World) (ares : Ares) (c : Call)
    (hb : c.buffers = some a) (hv : a.Valid st) (hs : a.Sufficient) (hr : a.result ≠ 0)
    (he : a.hErrnop ≠ 0) :
    OutcomeReported a (c.reply ares) (c.exec st ares (runCalls st history w₀)).mem ↔
      ∃ host, c.reply ares = .success host := by
  rw [Call.exec_eq, hb]
  exact lookupReentrant_reported_iff hv hs hr he _ _

end

theorem reentrant_reports_sample :
    OutcomeReported .sample (.success .sample)
        ((Call.gethostbynameR [97] .sample).exec .sample (.always (.success .sample))
          (runCalls .sample [.sample] .zero)).mem ↔
      ∃ host, Reply.success .sample = .success host :=
  reentrant_reports_iff [.sample] .zero (.always (.success .sample)) (.gethostbynameR [97] .sample) rfl
    (by decide) (by decide) (by decide) (by decide)

/-- A name that does not exist is reported as found. -/
theorem reentrant_hides_notFound :
    ResultArgs.Valid .sample .sample ∧ ResultArgs.sample.Sufficient ∧
      ResultArgs.sample.result ≠ 0 ∧ ResultArgs.sample.hErrnop ≠ 0 ∧
      ¬ OutcomeReported .sample .notFound
        ((Call.gethostbynameR [97] .sample).exec .sample (.always .notFound) (runCalls .sample [] .zero)).mem := by
  refine ⟨by decide, by decide, by decide, by decide, ?_⟩
  rw [Call.exec_eq]
  intro h
  obtain ⟨_, hh⟩ := (lookupReentrant_reported_iff (by decide) (by decide) (by decide) (by decide) _ _).mp h
  cases hh

end FakeDns
