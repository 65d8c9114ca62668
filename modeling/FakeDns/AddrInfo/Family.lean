import FakeDns.AddrInfo.Returned

/-! The address family of a list. The resolver is asked for the hinted family, and its
answers keep to it. A numeric name never reaches the resolver: its node is of the family
that the name is written in, whatever the hints say. -/

namespace FakeDns

open ByteMemory Mem

/-- The node at `a` is of the family, in `ai_family` and behind `ai_addr`. -/
def OfFamily (family : UInt32) (m : Mem) (a : ℕ) : Prop :=
  m.load 4 (aiFamily a) = family.toNat ∧ m.load 2 (sinFamily (m.loadPtr (aiAddr a))) = family.toNat

theorem Node.ofFamily_iff {m : Mem} {p : ℕ} {n : NodeInfo} (h : Node m p n) (hn : n.Inet) (family : UInt32) :
    OfFamily family m p ↔ n.family = family := by
  rw [OfFamily, h.family, (h.sock hn).1, and_self, UInt32.toNat_inj]

/-- The family a numeric name is written in. -/
def Env.literalFamily (env : Env) (name : List UInt8) : Option UInt32 :=
  match env.inetPton4 name with
  | some _ => some AF_INET
  | none => (env.inetPton6 name).map fun _ => AF_INET6

/-- A numeric name is written in the family. -/
def Env.LiteralOf (env : Env) (name : List UInt8) (family : UInt32) : Prop :=
  ∀ f ∈ env.literalFamily name, f = family

example : (Env.sample .notFound).literalFamily Env.dotted = some AF_INET := rfl

/-- The nodes of a call are of one family exactly when a numeric name is written in it,
provided that the answers to a symbolic name are. -/
theorem nodeInfos_family_iff {env : Env} {name : List UInt8} {req : Option Hints} {family : UInt32}
    (harg : GetaddrinfoCallbackParam)
    (hans : ∀ host, env.reply name req = .success host → host.hAddrtype = family) :
    (∀ n ∈ env.nodeInfos harg name req, n.family = family) ↔ env.LiteralOf name family := by
  unfold Env.LiteralOf Env.literalFamily Env.nodeInfos
  cases env.inetPton4 name with
  | some ip4 => simp
  | none =>
    cases env.inetPton6 name with
    | some ip6 => simp
    | none =>
      -- a symbolic name: both sides hold
      cases hrep : env.reply name req with
      | failure status hs => simp
      | success host => simp [GetaddrinfoCallbackParam.nodeInfo, hans host hrep]

theorem queryFamily_hint {hints : Hints} (h : hints.aiFamily = AF_INET ∨ hints.aiFamily = AF_INET6) :
    queryFamily (some hints) = hints.aiFamily := by
  rw [queryFamily]
  apply if_pos
  rcases h with h | h <;> rw [h] <;> decide

/-- The returned list is of the hinted family exactly when a numeric name is written in
that family and a lookup without an address leaves no list of another one. -/
theorem getaddrinfo_family_iff {st : Statics} {env : Env} {name : List UInt8} (hints : Hints) {pai : ℕ}
    {w : World} (hhint : hints.aiFamily = AF_INET ∨ hints.aiFamily = AF_INET6)
    (hr : env.Ready st name (some hints) pai w)
    (hans : ∀ host, env.reply name (some hints) = .success host →
      host.Inet ∧ host.hAddrtype = queryFamily (some hints)) (service : Option (List UInt8)) :
    ReturnsAll (OfFamily hints.aiFamily) st env name service (some hints) pai w ↔
      env.LiteralOf name hints.aiFamily ∧
        (env.WithoutAddress name (some hints) →
          ListAll (OfFamily hints.aiFamily) pai (aresInit st w).mem) := by
  rw [queryFamily_hint hhint] at hans
  rw [returnsAll_iff hr service (fun host hh => (hans host hh).1) fun h hn => h.ofFamily_iff hn hints.aiFamily,
    nodeInfos_family_iff _ fun host hh => (hans host hh).2]

/-- The hint AF_INET6. -/
def Hints.inet6 : Hints := ⟨AF_INET6, 0⟩

theorem notFound_ready {name : List UInt8} {req : Option Hints}
    (hn : (Env.sample .notFound).blockCount name req ≤ 256) :
    (Env.sample .notFound).Ready .sample name req 0x6000 .zero :=
  Env.sample_ready_of hn (fun _ hh => by cases hh) .zero rfl

theorem notFound_answers {name : List UInt8} {req : Option Hints} {P : Answer → Prop} :
    ∀ host, (Env.sample .notFound).reply name req = .success host → P host :=
  fun _ hh => by cases hh

theorem getaddrinfo_family_loopback :
    ReturnsAll (OfFamily AF_INET6) .sample (.sample .notFound) Env.loopback none (some .inet6) 0x6000 .zero ↔
      (Env.sample .notFound).LiteralOf Env.loopback AF_INET6 ∧
        ((Env.sample .notFound).WithoutAddress Env.loopback (some .inet6) →
          ListAll (OfFamily AF_INET6) 0x6000 (aresInit .sample .zero).mem) :=
  getaddrinfo_family_iff .inet6 (.inr rfl) (notFound_ready (by decide)) notFound_answers none

/-- "10.0.0.1" under the hint AF_INET6 returns an IPv4 node. -/
theorem dotted_ignores_family :
    (getaddrinfo .sample (.sample .notFound) Env.dotted none (some .inet6) 0x6000 .zero).1 = 0 ∧
      ReturnsAll (OfFamily AF_INET) .sample (.sample .notFound) Env.dotted none (some .inet6) 0x6000 .zero ∧
      ¬ ReturnsAll (OfFamily AF_INET6) .sample (.sample .notFound) Env.dotted none (some .inet6) 0x6000 .zero := by
  have hr : (Env.sample .notFound).Ready .sample Env.dotted (some .inet6) 0x6000 .zero :=
    notFound_ready (by decide)
  have hfamily := fun family => returnsAll_of_built hr none (by decide) notFound_answers
    fun h hn => h.ofFamily_iff hn family
  have hinfos : ∀ family, (∀ n ∈ (Env.sample .notFound).nodeInfos
      (getaddrinfoParam [] none (some .inet6) 0x6000) Env.dotted (some .inet6), n.family = family) ↔
      AF_INET = family := fun family => by
    rw [show (Env.sample .notFound).nodeInfos (getaddrinfoParam [] none (some .inet6) 0x6000) Env.dotted
      (some .inet6) = [⟨AF_INET, 0, 0, [10, 0, 0, 1], Env.dotted⟩] from rfl, List.forall_mem_singleton]
  refine ⟨(getaddrinfo_value hr none).1 (by decide), ?_, ?_⟩
  · exact (hfamily AF_INET).mpr ((hinfos AF_INET).mpr rfl)
  · intro h
    exact absurd ((hinfos AF_INET6).mp ((hfamily AF_INET6).mp h)) (by decide)

end FakeDns
