import FakeDns.AddrInfo.Returned

/-! Port and socket type of a named service. The code takes the port of the first entry
with that name. Without a hint it takes the socket type of the same entry; with a hint it
keeps the hinted type, and the two agree only if the database has that port for it. -/

namespace FakeDns

open ByteMemory Mem

/-- The database has the service under this port and protocol. -/
def HasEntry (services : List Servent) (s : List UInt8) (port : ℕ) (proto : List UInt8) : Prop :=
  ∃ e ∈ services, e.sName = s ∧ e.sPort.toUInt16.toNat = port ∧ e.sProto = proto

instance (services : List Servent) (s : List UInt8) (port : ℕ) (proto : List UInt8) :
    Decidable (HasEntry services s port proto) :=
  inferInstanceAs (Decidable (∃ e ∈ services, _))

/-- A stream port is in the database with "tcp", a datagram port with "udp". -/
def OneEntry (services : List Servent) (s : List UInt8) (socktype port : ℕ) : Prop :=
  (socktype = SOCK_STREAM.toNat → HasEntry services s port protoTcp) ∧
    (socktype = SOCK_DGRAM.toNat → HasEntry services s port protoUdp)

instance (services : List Servent) (s : List UInt8) (socktype port : ℕ) :
    Decidable (OneEntry services s socktype port) :=
  inferInstanceAs (Decidable (_ ∧ _))

/-- Socket type and port of the node at `a` come from one entry. -/
def FromEntry (services : List Servent) (s : List UInt8) (m : Mem) (a : ℕ) : Prop :=
  OneEntry services s (m.load 4 (aiSocktype a)) (m.load 2 (sinPort (m.loadPtr (aiAddr a))))

theorem Node.fromEntry_iff {m : Mem} {p : ℕ} {n : NodeInfo} (h : Node m p n) (hn : n.Inet)
    (services : List Servent) (s : List UInt8) :
    FromEntry services s m p ↔ OneEntry services s n.socktype.toNat n.port.toNat := by
  rw [FromEntry, h.socktype, (h.sock hn).2]

/-- The socket type of the hints, 0 without hints. -/
def hintedSocktype (req : Option Hints) : UInt32 :=
  match req with
  | some r => r.aiSocktype
  | none => 0

/-- The socket type that goes with a protocol. -/
def protoSocktype (proto : List UInt8) : UInt32 :=
  if proto = protoUdp then SOCK_DGRAM else if proto = protoTcp then SOCK_STREAM else 0

/-- What the code makes of a service that is not a number and has an entry. -/
theorem getaddrinfoParam_entry {services : List Servent} {s : List UInt8} {serv : Servent}
    (h0 : atoi s = 0) (hserv : getservbyname services s = some serv) (req : Option Hints) (pai : ℕ) :
    (getaddrinfoParam services (some s) req pai).port = serv.sPort.toUInt16 ∧
      (getaddrinfoParam services (some s) req pai).socktype =
        if hintedSocktype req = 0 then protoSocktype serv.sProto else hintedSocktype req := by
  have hz : htons (UInt16.ofInt (atoi s)) = 0 := by
    rw [h0]
    rfl
  constructor
  · rw [getaddrinfoParam_port, if_pos hz, hserv]
  · have hne : protoTcp ≠ protoUdp := by decide
    simp only [getaddrinfoParam, hz, hserv, ↓reduceIte]
    change GetaddrinfoCallbackParam.socktype (if hintedSocktype req = 0 then _ else _) = _
    by_cases hhint : hintedSocktype req = 0
    · simp only [hhint, ↓reduceIte, protoSocktype]
      by_cases hudp : serv.sProto = protoUdp
      · simp only [hudp, hne.symm, ↓reduceIte]
      · by_cases htcp : serv.sProto = protoTcp
        · simp only [htcp, hne, ↓reduceIte]
        · simp only [hudp, htcp, ↓reduceIte]
          exact hhint
    · simp only [hhint, ↓reduceIte]
      rfl

/-- The hinted socket type has the port of the first entry. -/
def HintedEntry (services : List Servent) (s : List UInt8) (req : Option Hints) : Prop :=
  ∀ serv ∈ getservbyname services s, OneEntry services s (hintedSocktype req).toNat serv.sPort.toUInt16.toNat

instance (services : List Servent) (s : List UInt8) (req : Option Hints) : Decidable (HintedEntry services s req) :=
  inferInstanceAs (Decidable (∀ serv ∈ getservbyname services s, _))

/-- The socket type that the code takes from the first entry has its port. -/
theorem oneEntry_first {services : List Servent} {s : List UInt8} {serv : Servent}
    (hserv : getservbyname services s = some serv) :
    OneEntry services s (protoSocktype serv.sProto).toNat serv.sPort.toUInt16.toNat := by
  have hmem : serv ∈ services := List.mem_of_find?_eq_some hserv
  have hfirst : services.find? (fun e => decide (e.sName = s)) = some serv := hserv
  have hname : serv.sName = s := by simpa using List.find?_some hfirst
  constructor
  · intro htype
    refine ⟨serv, hmem, hname, rfl, ?_⟩
    by_contra htcp
    rw [protoSocktype, if_neg htcp] at htype
    split at htype <;> exact absurd htype (by decide)
  · intro htype
    refine ⟨serv, hmem, hname, rfl, ?_⟩
    by_contra hudp
    rw [protoSocktype, if_neg hudp] at htype
    split at htype <;> exact absurd htype (by decide)

theorem param_oneEntry_iff {services : List Servent} {s : List UInt8} (h0 : atoi s = 0)
    (hs : ∃ e ∈ services, e.sName = s) (req : Option Hints) (pai : ℕ) :
    OneEntry services s (getaddrinfoParam services (some s) req pai).socktype.toNat
        (getaddrinfoParam services (some s) req pai).port.toNat ↔
      HintedEntry services s req := by
  obtain ⟨serv, hserv⟩ : ∃ serv, getservbyname services s = some serv := by
    apply Option.isSome_iff_exists.mp
    simpa [getservbyname] using hs
  obtain ⟨hport, htype⟩ := getaddrinfoParam_entry h0 hserv req pai
  have hhinted : HintedEntry services s req ↔
      OneEntry services s (hintedSocktype req).toNat serv.sPort.toUInt16.toNat := by
    simp [HintedEntry, hserv]
  rw [hport, htype, hhinted]
  by_cases hhint : hintedSocktype req = 0
  · rw [if_pos hhint, hhint]
    apply iff_of_true (oneEntry_first hserv)
    constructor <;> intro h <;> exact absurd h (by decide)
  · rw [if_neg hhint]

section

variable {st : Statics} {env : Env} {name : List UInt8} {req : Option Hints} {pai : ℕ} {w : World}

/-- All nodes of a call have the socket type and the port of the request. -/
theorem nodeInfos_entry_iff (harg : GetaddrinfoCallbackParam) (services : List Servent) (s : List UInt8) :
    (∀ n ∈ env.nodeInfos harg name req, OneEntry services s n.socktype.toNat n.port.toNat) ↔
      (0 < env.blockCount name req → OneEntry services s harg.socktype.toNat harg.port.toNat) := by
  have hlen := env.length_nodeInfos harg name req
  constructor
  · intro h hpos
    obtain ⟨n, hn⟩ := List.exists_mem_of_length_pos (hlen ▸ hpos)
    obtain ⟨hport, htype⟩ := nodeInfos_request harg n hn
    rw [← hport, ← htype]
    exact h n hn
  · intro h n hn
    obtain ⟨hport, htype⟩ := nodeInfos_request harg n hn
    rw [hport, htype]
    apply h
    rw [← hlen]
    exact List.length_pos_of_mem hn

/-- For a service that is not a number and has an entry: port and socket type of every
returned node come from one entry exactly when the hinted socket type has the port of the
first one, or no node is built, and a lookup without an address leaves no other list. -/
theorem getaddrinfo_entry_iff (hr : env.Ready st name req pai w)
    (hinet : ∀ host, env.reply name req = .success host → host.Inet) {s : List UInt8} (h0 : atoi s = 0)
    (hs : ∃ e ∈ env.services, e.sName = s) :
    ReturnsAll (FromEntry env.services s) st env name (some s) req pai w ↔
      (0 < env.blockCount name req → HintedEntry env.services s req) ∧
        (env.WithoutAddress name req → ListAll (FromEntry env.services s) pai (aresInit st w).mem) := by
  rw [returnsAll_iff hr (some s) hinet fun h hn => h.fromEntry_iff hn env.services s, nodeInfos_entry_iff,
    param_oneEntry_iff h0 hs]

end

/-- "tftp", port 69 of "udp" only. -/
def Servent.tftp : Servent := ⟨[116, 102, 116, 112], 17664, protoUdp⟩

/-- The sample library with one service. -/
def Env.withTftp : Env := { Env.sample (.success .sample) with services := [.tftp] }

/-- The hint of a socket type. -/
def Hints.ofSocktype (socktype : UInt32) : Hints := ⟨0, socktype⟩

example : HintedEntry [.tftp] Servent.tftp.sName (some (.ofSocktype SOCK_DGRAM)) ∧
    ¬ HintedEntry [.tftp] Servent.tftp.sName (some (.ofSocktype SOCK_STREAM)) := by decide

theorem withTftp_ready (req : Option Hints) : Env.withTftp.Ready .sample [97] req 0x6000 .zero :=
  have hcount : (Env.sample (.success .sample)).blockCount [97] req ≤ 256 := (by decide : 1 ≤ 256)
  (Env.sample_ready_of hcount (fun _ hh => Reply.success.inj hh ▸ by decide) .zero rfl).withServices [.tftp]

/-- A datagram socket for "tftp". -/
theorem getaddrinfo_entry_dgram :
    ReturnsAll (FromEntry [.tftp] Servent.tftp.sName) .sample .withTftp [97] (some Servent.tftp.sName)
        (some (.ofSocktype SOCK_DGRAM)) 0x6000 .zero ↔
      (0 < Env.withTftp.blockCount [97] (some (.ofSocktype SOCK_DGRAM)) →
        HintedEntry [.tftp] Servent.tftp.sName (some (.ofSocktype SOCK_DGRAM))) ∧
      (Env.withTftp.WithoutAddress [97] (some (.ofSocktype SOCK_DGRAM)) →
        ListAll (FromEntry [.tftp] Servent.tftp.sName) 0x6000 (aresInit .sample .zero).mem) :=
  getaddrinfo_entry_iff (withTftp_ready _) Env.sample_inet (by decide) ⟨.tftp, List.mem_singleton_self _, rfl⟩

/-- A stream socket for "tftp": the node has port 69, which the database has for "udp" only. -/
theorem tftp_stream_has_no_entry :
    (getaddrinfo .sample .withTftp [97] (some Servent.tftp.sName) (some (.ofSocktype SOCK_STREAM)) 0x6000
        .zero).1 = 0 ∧
      atoi Servent.tftp.sName = 0 ∧ getservbyname [.tftp] Servent.tftp.sName = some .tftp ∧
      ¬ ReturnsAll (FromEntry [.tftp] Servent.tftp.sName) .sample .withTftp [97] (some Servent.tftp.sName)
        (some (.ofSocktype SOCK_STREAM)) 0x6000 .zero := by
  have hr := withTftp_ready (some (.ofSocktype SOCK_STREAM))
  refine ⟨(getaddrinfo_value hr _).1 (by decide), by decide, rfl, fun h => ?_⟩
  have hnodes := (returnsAll_of_built hr _ (by decide) Env.sample_inet
    fun h hn => h.fromEntry_iff hn [.tftp] Servent.tftp.sName).mp h
  have hentry := (nodeInfos_entry_iff _ [.tftp] Servent.tftp.sName).mp hnodes (by decide)
  exact absurd hentry (by decide)

end FakeDns
