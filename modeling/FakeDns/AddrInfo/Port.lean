import FakeDns.AddrInfo.Returned

/-! The port in the nodes of a list. All nodes of one call carry the port that the code
found for the service string. `ServicePort` says which port the string stands for; the
code finds it except in two cases. A service name that begins with a numeral is read as
that numeral, and a numeral above 65535 is cut to its low 16 bits. A lookup without an
address builds no nodes: what it returns are those of an earlier call. -/

namespace FakeDns

open ByteMemory Mem

/-- The port that a service string stands for: a numeral from 1 to 65535 for itself, another
string for its entry in the database, a larger numeral that is no entry for no port. -/
def ServicePort (services : List Servent) (s : List UInt8) (port : UInt16) : Prop :=
  (IsNumeral s → 1 ≤ numeral s → numeral s ≤ 65535 → port = htons (UInt16.ofNat (numeral s))) ∧
    (¬ IsNumeral s → ∀ serv, getservbyname services s = some serv → port = serv.sPort.toUInt16) ∧
    (IsNumeral s → 65535 < numeral s → getservbyname services s = none → port = 0)

/-- The service string is read as it stands: a name in the database has no leading numeral
that counts, and a numeral above 65535 that is no entry has its low 16 bits zero. -/
def ReadAsMeant (services : List Servent) (s : List UInt8) : Prop :=
  (¬ IsNumeral s → ∀ serv, getservbyname services s = some serv →
      UInt16.ofInt (atoi s) = 0 ∨ htons (UInt16.ofInt (atoi s)) = serv.sPort.toUInt16) ∧
    (IsNumeral s → 65535 < numeral s → getservbyname services s = none → numeral s % 65536 = 0)

theorem servicePort_iff (services : List Servent) (s : List UInt8) (req : Option Hints) (pai : ℕ) :
    ServicePort services s (getaddrinfoParam services (some s) req pai).port ↔ ReadAsMeant services s := by
  rw [getaddrinfoParam_port]
  have hlow := htons_eq_zero_iff (UInt16.ofInt (atoi s))
  constructor
  · rintro ⟨_, hentry, hlarge⟩
    refine ⟨fun hnum serv hserv => ?_, fun hnum hlt hnone => ?_⟩
    · by_cases h0 : htons (UInt16.ofInt (atoi s)) = 0
      · exact .inl (hlow.mp h0)
      · have := hentry hnum serv hserv
        rw [if_neg h0] at this
        exact .inr this
    · by_contra hne
      have h0 : htons (UInt16.ofInt (atoi s)) ≠ 0 := fun h => hne ((htons_numeral_eq_zero_iff hnum).mp h)
      have := hlarge hnum hlt hnone
      rw [if_neg h0] at this
      exact h0 this
  · rintro ⟨hentry, hlarge⟩
    refine ⟨fun hnum h1 hle => ?_, fun hnum serv hserv => ?_, fun hnum hlt hnone => ?_⟩
    · have h0 : htons (UInt16.ofInt (atoi s)) ≠ 0 := fun h => by
        have := (htons_numeral_eq_zero_iff hnum).mp h
        omega
      rw [if_neg h0, atoi_numeral hnum, ofInt_natCast]
    · by_cases h0 : htons (UInt16.ofInt (atoi s)) = 0
      · rw [if_pos h0, hserv]
      · rw [if_neg h0]
        exact (hentry hnum serv hserv).resolve_left fun h => h0 (hlow.mpr h)
    · rw [if_pos ((htons_numeral_eq_zero_iff hnum).mpr (hlarge hnum hlt hnone)), hnone]

/-- Every node carries the port; `sin_port` and `sin6_port` stand at the same place. -/
def CarryPort (m : Mem) (nodes : List ℕ) (port : UInt16) : Prop :=
  ∀ a ∈ nodes, m.load 2 (sinPort (m.loadPtr (aiAddr a))) = port.toNat

section

variable {st : Statics} {env : Env} {name : List UInt8} {req : Option Hints} {pai : ℕ} {w : World}

/-- The list of a successful call: its nodes carry one port, that of the request. -/
theorem getaddrinfo_carries (hr : env.Ready st name req pai w) (service : Option (List UInt8))
    (hpos : 0 < env.blockCount name req) (hinet : ∀ host, env.reply name req = .success host → host.Inet) :
    ∃ w' nodes, getaddrinfo st env name service req pai w = (0, w') ∧
      Chain w'.mem 40 (w'.mem.loadPtr pai) nodes ∧ nodes ≠ [] ∧
      ∀ port, CarryPort w'.mem nodes port ↔ port = (getaddrinfoParam env.services service req pai).port := by
  obtain ⟨w', hrun, hchain, hnodes⟩ := getaddrinfo_nodes hr service hpos hinet
  have hport : ∀ t < env.blockCount name req, w'.mem.load 2 (sinPort (w'.mem.loadPtr (aiAddr (env.malloc t)))) =
      (getaddrinfoParam env.services service req pai).port.toNat := by
    intro t ht
    have ht' := ht
    rw [← env.length_nodeInfos (getaddrinfoParam env.services service req pai)] at ht'
    have hmem := List.getElem_mem ht'
    rw [← (nodeInfos_request _ _ hmem).1]
    exact ((hnodes t ht').sock (nodeInfos_inet _ hinet _ hmem)).2
  refine ⟨w', _, hrun, hchain, by simpa using hpos.ne', fun port => ⟨fun h => ?_, ?_⟩⟩
  · have hfirst := h (env.malloc 0) (List.mem_map.mpr ⟨0, List.mem_range.mpr hpos, rfl⟩)
    rw [hport 0 hpos] at hfirst
    exact (UInt16.toNat_inj.mp hfirst).symm
  · rintro rfl a ha
    obtain ⟨t, ht, rfl⟩ := List.mem_map.mp ha
    exact hport t (List.mem_range.mp ht)

/-- The nodes of the list in the variable at `pai` carry one port, the one that the service
string stands for. -/
def ListPort (services : List Servent) (s : List UInt8) (pai : ℕ) (m : Mem) : Prop :=
  ∀ nodes, Chain m 40 (m.loadPtr pai) nodes → nodes ≠ [] →
    ∃ port, CarryPort m nodes port ∧ ServicePort services s port

/-- After a call that built its nodes. -/
theorem listPort_of_built (hr : env.Ready st name req pai w) (s : List UInt8)
    (hpos : 0 < env.blockCount name req) (hinet : ∀ host, env.reply name req = .success host → host.Inet) :
    (getaddrinfo st env name (some s) req pai w).1 = 0 ∧
      (ListPort env.services s pai (getaddrinfo st env name (some s) req pai w).2.mem ↔
        ReadAsMeant env.services s) := by
  obtain ⟨w', nodes, hrun, hchain, hne, hcarry⟩ := getaddrinfo_carries hr (some s) hpos hinet
  rw [hrun, ← servicePort_iff env.services s req pai]
  refine ⟨rfl, fun h => ?_, fun hservice nodes' hchain' _ => ?_⟩
  · obtain ⟨port, hport, hservice⟩ := h nodes hchain hne
    rwa [(hcarry port).mp hport] at hservice
  · rw [hchain'.unique hchain]
    exact ⟨_, (hcarry _).mpr rfl, hservice⟩

/-- If the call returns 0, the nodes of the list carry one port, the one that the service string
stands for, exactly when the string is read as it stands for the nodes that the call builds, and
a lookup without an address leaves no list with another port. -/
theorem getaddrinfo_port_iff (hr : env.Ready st name req pai w) (s : List UInt8)
    (hinet : ∀ host, env.reply name req = .success host → host.Inet) :
    ((getaddrinfo st env name (some s) req pai w).1 = 0 →
        ListPort env.services s pai (getaddrinfo st env name (some s) req pai w).2.mem) ↔
      (0 < env.blockCount name req → ReadAsMeant env.services s) ∧
        (env.WithoutAddress name req → ListPort env.services s pai (aresInit st w).mem) := by
  rcases env.cases_call name req with hpos | ⟨hnum, status, hs, hrep⟩ | hwithout
  · obtain ⟨hzero, hlist⟩ := listPort_of_built hr s hpos hinet
    have hnot := Env.not_withoutAddress_of_pos hpos
    constructor
    · exact fun h => ⟨fun _ => hlist.mp (h hzero), fun hw => absurd hw hnot⟩
    · exact fun h _ => hlist.mpr (h.1 hpos)
  · have hfail := (getaddrinfo_value hr (some s)).2.1 ⟨hnum, status, hs, hrep⟩
    rw [hfail]
    refine iff_of_true (fun h => absurd h (by decide)) ⟨fun hpos => ?_, fun h => ?_⟩
    · obtain ⟨h4, h6⟩ := Env.pton_eq_none hnum
      simp [Env.blockCount, h4, h6, hrep] at hpos
    · exact absurd h (Env.not_withoutAddress_of_failure hrep)
  · rw [getaddrinfo_withoutAddress w hwithout hr.pai_he (some s)]
    dsimp only
    constructor
    · intro h
      refine ⟨fun hpos => absurd hwithout (Env.not_withoutAddress_of_pos hpos), fun _ => ?_⟩
      by_cases hz : w.mem.loadPtr pai = 0
      · -- the empty list
        rw [← aresInit_loadPtr hr.pai_he] at hz
        intro nodes hchain hne
        exact absurd hz (hchain.head_ne_zero hne)
      · exact h (if_neg hz)
    · exact fun h _ => h.2 hwithout

end

/-- "3com-tsmux", port 106. -/
def Servent.tsmux : Servent := ⟨[51, 99, 111, 109, 45, 116, 115, 109, 117, 120], 27136, protoTcp⟩

/-- The sample library with one service. -/
def Env.withTsmux : Env := { Env.sample (.success .sample) with services := [.tsmux] }

theorem withTsmux_ready : Env.withTsmux.Ready .sample [97] none 0x6000 .zero :=
  (Env.sample_ready [97] .sample (by decide) (by decide) .zero rfl).withServices [.tsmux]

/-- The service "80". -/
theorem getaddrinfo_port_sample :
    ((getaddrinfo .sample .withTsmux [97] (some [56, 48]) none 0x6000 .zero).1 = 0 →
        ListPort [.tsmux] [56, 48] 0x6000
          (getaddrinfo .sample .withTsmux [97] (some [56, 48]) none 0x6000 .zero).2.mem) ↔
      (0 < Env.withTsmux.blockCount [97] none → ReadAsMeant [.tsmux] [56, 48]) ∧
        (Env.withTsmux.WithoutAddress [97] none → ListPort [.tsmux] [56, 48] 0x6000 (aresInit .sample .zero).mem) :=
  getaddrinfo_port_iff withTsmux_ready [56, 48] Env.sample_inet

/-- The service "3com-tsmux" is taken for port 3, and the service "65616" for port 80. -/
theorem leading_numeral_taken_for_port :
    (∃ w' nodes, getaddrinfo .sample .withTsmux [97] (some Servent.tsmux.sName) none 0x6000 .zero = (0, w') ∧
      Chain w'.mem 40 (w'.mem.loadPtr 0x6000) nodes ∧ nodes ≠ [] ∧ CarryPort w'.mem nodes (htons 3) ∧
      ¬ ∃ port, CarryPort w'.mem nodes port ∧ ServicePort [.tsmux] Servent.tsmux.sName port) ∧
    ∃ w' nodes, getaddrinfo .sample .withTsmux [97] (some [54, 53, 54, 49, 54]) none 0x6000 .zero = (0, w') ∧
      Chain w'.mem 40 (w'.mem.loadPtr 0x6000) nodes ∧ nodes ≠ [] ∧ CarryPort w'.mem nodes (htons 80) ∧
      ¬ ∃ port, CarryPort w'.mem nodes port ∧ ServicePort [.tsmux] [54, 53, 54, 49, 54] port := by
  constructor
  · obtain ⟨w', nodes, hrun, hchain, hne, hcarry⟩ :=
      getaddrinfo_carries withTsmux_ready (some Servent.tsmux.sName) (by decide) Env.sample_inet
    refine ⟨w', nodes, hrun, hchain, hne, (hcarry _).mpr (by decide), ?_⟩
    rintro ⟨port, hport, _, hentry, _⟩
    have := hentry (by decide) .tsmux rfl
    rw [(hcarry port).mp hport] at this
    exact absurd this (by decide)
  · obtain ⟨w', nodes, hrun, hchain, hne, hcarry⟩ :=
      getaddrinfo_carries withTsmux_ready (some [54, 53, 54, 49, 54]) (by decide) Env.sample_inet
    refine ⟨w', nodes, hrun, hchain, hne, (hcarry _).mpr (by decide), ?_⟩
    rintro ⟨port, hport, _, _, hlarge⟩
    have := hlarge (by decide) (by decide) (by decide)
    rw [(hcarry port).mp hport] at this
    exact absurd this (by decide)

end FakeDns
