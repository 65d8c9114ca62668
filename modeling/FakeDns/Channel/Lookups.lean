import FakeDns.Channel.Gethostbyaddr

/-! Runs of lookups. Names and addresses are looked up over one channel, in any order, and
whatever the network and the system do, every caller is called back once. -/

namespace FakeDns.Channel

/-- A call of `ares_gethostbyname` or `ares_gethostbyaddr`; `call` stands for what is called
back. -/
inductive Lookup
  | byName (name : List UInt8) (family : UInt32) (call : ℕ)
  | byAddr (addr : List UInt8) (family : UInt32) (call : ℕ)

namespace Lookup

def call : Lookup → ℕ
  | .byName _ _ call => call
  | .byAddr _ _ call => call

def client (cfg : Config) (res : Resolver) : Lookup → Client
  | .byName name family call => aresGethostbyname cfg res name family call
  | .byAddr addr family call => aresGethostbyaddr cfg res addr family call

/-- A name must be one that can be searched for. -/
def Valid (cfg : Config) (res : Resolver) : Lookup → Prop
  | .byName name _ _ => Searchable cfg res.toDomains name
  | .byAddr _ _ _ => True

/-- Where a hostent for the lookup comes from. -/
def Source (cfg : Config) (res : Resolver) (env : Env) (events : List Event) : Lookup → Hostent → Prop
  | .byName name family _ => Channel.Source cfg res env events name family
  | .byAddr addr family _ => AddrSource cfg res env events addr family

variable {cfg : Config} {res : Resolver} {env : Env} {events : List Event} {G : Told → Prop}

theorem client_serves : ∀ {l : Lookup}, l.Valid cfg res →
    (∀ told, told.Gives (l.Source cfg res env events) l.call → G told) →
      (l.client cfg res).Serves (Credible cfg env events) G l.call
  | .byName _ _ _, hname, hG => aresGethostbyname_serves hname hG
  | .byAddr _ _ _, _, hG => aresGethostbyaddr_serves hG

end Lookup

/-- The clients of a run are lookups. -/
def OnlyLookups (cfg : Config) (res : Resolver) (events : List Event) : Prop :=
  ∀ c, .run c ∈ events → ∃ l : Lookup, l.Valid cfg res ∧ c = l.client cfg res

/-- What a lookup of the run may tell its caller. -/
def Gives (cfg : Config) (res : Resolver) (env : Env) (events : List Event) (told : Told) : Prop :=
  ∃ l : Lookup, .run (l.client cfg res) ∈ events ∧ told.Gives (l.Source cfg res env events) l.call

theorem Lookup.Valid.serves {cfg : Config} {res : Resolver} {env : Env} {events : List Event} {l : Lookup}
    (hl : l.Valid cfg res) (h : .run (l.client cfg res) ∈ events) :
    (l.client cfg res).Serves (Credible cfg env events) (Gives cfg res env events) l.call :=
  Lookup.client_serves hl fun _ hgives => ⟨l, h, hgives⟩

theorem OnlyLookups.serves {cfg : Config} {res : Resolver} {env : Env} {events : List Event}
    (h : OnlyLookups cfg res events) :
    ∀ c, .run c ∈ events → ∃ call, c.Serves (Credible cfg env events) (Gives cfg res env events) call := by
  intro c hc
  obtain ⟨l, hl, rfl⟩ := h c hc
  exact ⟨l.call, hl.serves hc⟩

/-- The event starts a lookup for the caller `call`. -/
def Event.LooksUp (cfg : Config) (res : Resolver) (call : ℕ) (e : Event) : Prop :=
  ∃ l : Lookup, l.Valid cfg res ∧ l.call = call ∧ e = .run (l.client cfg res)

/-- A host without a hosts file or search domains, whose `inet_addr` reads "1.2.3.4". -/
def Resolver.sample : Resolver where
  ndots := 1
  domains := []
  hostaliases := none
  lookups := [102, 98]
  sortlist := []
  hostsFile := .error ENOENT
  inetAddr := fun name => if name = [49, 46, 50, 46, 51, 46, 52] then some [1, 2, 3, 4] else none
  inetPton := fun _ => none

theorem onlyLookups_singleton {l : Lookup} (hl : l.Valid .single .sample) :
    OnlyLookups .single .sample [.run (l.client .single .sample)] :=
  fun _ hc => ⟨l, hl, Event.run.inj (List.mem_singleton.mp hc)⟩

open Classical in
/-- Every caller of lookups is called back once for each, with what it is for, when the channel
is destroyed at the latest. -/
theorem run_destroy_lookups (cfg : Config) (res : Resolver) (env : Env) (events : List Event)
    (hevents : OnlyLookups cfg res events) :
    ∃ ch, aresDestroy cfg env (run cfg env events).allQueries.length (run cfg env events) = some ch ∧
      (∀ call, ch.told call = events.countP (Event.LooksUp cfg res call)) ∧
      ∀ told, .told told ∈ ch.trace →
        ∃ l : Lookup, .run (l.client cfg res) ∈ events ∧ told.Gives (l.Source cfg res env events) l.call := by
  have hstart := @OnlyLookups.serves cfg res env events hevents
  obtain ⟨ch, heq, htold, hgood⟩ := run_destroy_service cfg env events hstart
  refine ⟨ch, heq, fun call => (htold call).trans (List.countP_congr fun e he => ?_), hgood⟩
  simp only [decide_eq_true_eq]
  constructor
  · rintro ⟨c, rfl, hc⟩
    obtain ⟨l, hl, rfl⟩ := hevents c he
    exact ⟨l, hl, (hl.serves he).unique (credible_destruction cfg env events) hc, rfl⟩
  · rintro ⟨l, hl, rfl, rfl⟩
    exact ⟨_, rfl, hl.serves he⟩

/-- A lookup that waits for an answer is told of the destruction. -/
theorem run_destroy_lookups_sample :
    let l : Lookup := .byAddr [10, 0, 0, 9] AF_INET 7
    ∃ ch, aresDestroy .single (.steady 0) 1 (run .single (.steady 0) [.run (l.client .single .sample)]) = some ch ∧
      ch.told 7 = 1 := by
  intro l
  have hl : l.Valid .single .sample := trivial
  obtain ⟨ch, heq, htold, -⟩ := run_destroy_lookups .single .sample (.steady 0) _ (onlyLookups_singleton hl)
  refine ⟨ch, heq, (htold 7).trans (List.countP_eq_length.mpr fun e he => ?_)⟩
  simp only [decide_eq_true_eq]
  exact ⟨l, hl, rfl, List.mem_singleton.mp he⟩

end FakeDns.Channel
