import FakeDns.Hostent.Layout

/-! `getservbyport` and the table behind it. The function searches a static array of private
records and returns a pointer into it as a `struct servent`. The search is right: it finds
the first entry for the port and the protocol, and NULL when there is none. The record it
finds is not a `struct servent`: its port is a 16-bit number in host order where the public
field is an `int` in network order, and its alias list is NULL. -/

namespace FakeDns

open ByteMemory Mem

/-- `struct pvt_servent`; every entry of the table has `{NULL}` for its aliases. -/
structure PvtServent where
  sName : List UInt8
  sPort : UInt16
  sProto : List UInt8

def sizeofServent : ℕ := 32

/-- The protocol that `ares_getservbyport` searches for, or its error. -/
def protocolOf (proto : Option (List UInt8)) : Except UInt32 (Option (List UInt8)) :=
  match proto with
  | none => .ok none
  | some proto =>
    match proto.length with
    | 3 =>
      if strncaseeq proto protoTcp 3 then .ok (some protoTcp)
      else if strncaseeq proto protoUdp 3 then .ok (some protoUdp)
      else .error EFAULT
    | 4 =>
      if strncaseeq proto protoSctp 4 then .ok (some protoSctp)
      else if strncaseeq proto protoDccp 4 then .ok (some protoDccp)
      else .error EFAULT
    | _ => .error EFAULT

/-- The search loop from index `i` on. -/
def searchPorts (uPort : UInt16) (protocol : Option (List UInt8)) : List PvtServent → ℕ → Option ℕ
  | [], _ => none
  | e :: es, i =>
    if uPort = e.sPort then
      match protocol with
      | none => some i
      | some q => if strcaseeq q e.sProto then some i else searchPorts uPort protocol es (i + 1)
    else searchPorts uPort protocol es (i + 1)

/-- `ares_getservbyport`: the returned pointer, and `errno` where it is set. `ports` is the
table `IANAports` at address `iana` without its sentinel. -/
def aresGetservbyport (iana : ℕ) (ports : List PvtServent) (port : UInt32) (proto : Option (List UInt8)) :
    ℕ × Option UInt32 :=
  let uPort := htons port.toUInt16
  match protocolOf proto with
  | .error error => (0, some error)
  | .ok protocol =>
    match searchPorts uPort protocol ports 0 with
    | some i => (iana + sizeofServent * i, none)
    | none => (0, some ENODATA)

def getservbyport (iana : ℕ) (ports : List PvtServent) (port : UInt32) (proto : Option (List UInt8)) :
    ℕ × Option UInt32 :=
  aresGetservbyport iana ports port proto

/-! ### The search -/

/-- The entry is for the port and, if a protocol is given, for that protocol. -/
def PvtServent.Matches (e : PvtServent) (p : UInt16) (proto : Option (List UInt8)) : Prop :=
  e.sPort = p ∧ ∀ q, proto = some q → q.map tolower = e.sProto.map tolower

/-- The protocols of the table. -/
def protocols : List (List UInt8) := [protoTcp, protoUdp, protoSctp, protoDccp]

/-- The choice between two protocols of one length. -/
theorem pick_protocol {proto a b : List UInt8} {n : ℕ} (hp : proto.length = n) (ha : a.length = n)
    (hb : b.length = n) {r : Except UInt32 (Option (List UInt8))}
    (hr : r = if strncaseeq proto a n then .ok (some a) else if strncaseeq proto b n then .ok (some b)
      else .error EFAULT) :
    (∃ q, (q = a ∨ q = b) ∧ r = .ok (some q) ∧ proto.map tolower = q.map tolower) ∨
      (r = .error EFAULT ∧ proto.map tolower ≠ a.map tolower ∧ proto.map tolower ≠ b.map tolower) := by
  by_cases h₁ : proto.map tolower = a.map tolower
  · rw [if_pos ((strncaseeq_iff hp ha).mpr h₁)] at hr
    exact .inl ⟨a, .inl rfl, hr, h₁⟩
  rw [if_neg (fun h => h₁ ((strncaseeq_iff hp ha).mp h))] at hr
  by_cases h₂ : proto.map tolower = b.map tolower
  · rw [if_pos ((strncaseeq_iff hp hb).mpr h₂)] at hr
    exact .inl ⟨b, .inr rfl, hr, h₂⟩
  · rw [if_neg (fun h => h₂ ((strncaseeq_iff hp hb).mp h))] at hr
    exact .inr ⟨hr, h₁, h₂⟩

/-- The normalised protocol is the one of the table that the caller spelled; an error means
that none of them is spelled. -/
theorem protocolOf_some (proto : List UInt8) :
    (∃ q ∈ protocols, protocolOf (some proto) = .ok (some q) ∧ proto.map tolower = q.map tolower) ∨
      (protocolOf (some proto) = .error EFAULT ∧ ∀ q ∈ protocols, proto.map tolower ≠ q.map tolower) := by
  have hlen : ∀ q : List UInt8, proto.length ≠ q.length → proto.map tolower ≠ q.map tolower := fun q hne h =>
    hne (by simpa using congrArg List.length h)
  by_cases h3 : proto.length = 3
  · rcases pick_protocol h3 (a := protoTcp) (b := protoUdp) rfl rfl (r := protocolOf (some proto))
      (by simp only [protocolOf, h3]) with ⟨q, hq, hok, hlow⟩ | ⟨herr, h₁, h₂⟩
    · exact .inl ⟨q, by rcases hq with rfl | rfl <;> simp [protocols], hok, hlow⟩
    · refine .inr ⟨herr, ?_⟩
      simp only [protocols, List.forall_mem_cons, List.not_mem_nil, IsEmpty.forall_iff, implies_true, and_true]
      exact ⟨h₁, h₂, hlen _ (by rw [h3]; decide), hlen _ (by rw [h3]; decide)⟩
  by_cases h4 : proto.length = 4
  · rcases pick_protocol h4 (a := protoSctp) (b := protoDccp) rfl rfl (r := protocolOf (some proto))
      (by simp only [protocolOf, h4]) with ⟨q, hq, hok, hlow⟩ | ⟨herr, h₁, h₂⟩
    · exact .inl ⟨q, by rcases hq with rfl | rfl <;> simp [protocols], hok, hlow⟩
    · refine .inr ⟨herr, ?_⟩
      simp only [protocols, List.forall_mem_cons, List.not_mem_nil, IsEmpty.forall_iff, implies_true, and_true]
      exact ⟨hlen _ (by rw [h4]; decide), hlen _ (by rw [h4]; decide), h₁, h₂⟩
  · refine .inr ⟨?_, ?_⟩
    · rw [protocolOf]
      split
      · contradiction
      · contradiction
      · rfl
    · simp only [protocols, List.forall_mem_cons, List.not_mem_nil, IsEmpty.forall_iff, implies_true, and_true]
      exact ⟨hlen _ h3, hlen _ h3, hlen _ h4, hlen _ h4⟩

/-- The loop stops at the first entry for the port and the normalised protocol. -/
theorem searchPorts_cases (p : UInt16) (protocol : Option (List UInt8)) (ports : List PvtServent) (i : ℕ) :
    (searchPorts p protocol ports i = none ∧ ∀ e ∈ ports, ¬ e.Matches p protocol) ∨
      ∃ j, ∃ h : j < ports.length, searchPorts p protocol ports i = some (i + j) ∧
        ports[j].Matches p protocol ∧ ∀ k (hk : k < j), ¬ ports[k].Matches p protocol := by
  induction ports generalizing i with
  | nil => exact .inl ⟨rfl, by simp⟩
  | cons e es ih =>
    by_cases hm : e.Matches p protocol
    · refine .inr ⟨0, by simp, ?_, hm, by simp⟩
      obtain ⟨hport, hq⟩ := hm
      cases protocol with
      | none => simp [searchPorts, hport]
      | some q => simp [searchPorts, hport, (strcaseeq_iff q e.sProto).mpr (hq q rfl)]
    · have hskip : searchPorts p protocol (e :: es) i = searchPorts p protocol es (i + 1) := by
        by_cases hp : p = e.sPort
        · cases protocol with
          | none => exact absurd ⟨hp.symm, by simp⟩ hm
          | some q =>
            have hq : strcaseeq q e.sProto ≠ true := fun h =>
              hm ⟨hp.symm, by rintro _ ⟨⟩; exact (strcaseeq_iff q e.sProto).mp h⟩
            simp [searchPorts, hq]
        · cases protocol <;> simp [searchPorts, hp]
      rw [hskip]
      rcases ih (i + 1) with ⟨hn, hall⟩ | ⟨j, hj, hs, hmj, hfirst⟩
      · exact .inl ⟨hn, List.forall_mem_cons.mpr ⟨hm, hall⟩⟩
      · refine .inr ⟨j + 1, by simpa using hj, by rw [hs]; congr 1; omega, by simpa using hmj, ?_⟩
        intro k hk
        cases k with
        | zero => exact hm
        | succ k => exact hfirst k (by omega)

/-- Normalising the protocol does not change which entries of the table are meant. -/
theorem matches_protocolOf {proto protocol : Option (List UInt8)} (h : protocolOf proto = .ok protocol)
    (e : PvtServent) (p : UInt16) : e.Matches p protocol ↔ e.Matches p proto := by
  cases proto with
  | none =>
    obtain rfl := Except.ok.inj h
    rfl
  | some pr =>
    rcases protocolOf_some pr with ⟨q, _, hok, hlow⟩ | ⟨herr, _⟩
    · obtain rfl := Except.ok.inj (hok.symm.trans h)
      simp [PvtServent.Matches, hlow]
    · rw [herr] at h
      cases h

/-- `getservbyport` finds the first entry for the port and the protocol, and NULL exactly
when the table has none. -/
theorem getservbyport_cases (iana : ℕ) {ports : List PvtServent} (hproto : ∀ e ∈ ports, e.sProto ∈ protocols)
    (p : UInt16) (proto : Option (List UInt8)) :
    ((getservbyport iana ports (htons p).toUInt32 proto).1 = 0 ∧ ∀ e ∈ ports, ¬ e.Matches p proto) ∨
      ∃ i, ∃ h : i < ports.length,
        getservbyport iana ports (htons p).toUInt32 proto = (iana + 32 * i, none) ∧
        ports[i].Matches p proto ∧ ∀ k (hk : k < i), ¬ ports[k].Matches p proto := by
  have hport : htons (htons p).toUInt32.toUInt16 = p := by
    rw [UInt16.toUInt16_toUInt32, htons_htons]
  unfold getservbyport aresGetservbyport
  simp only [hport]
  cases hpr : protocolOf proto with
  | error error =>
    refine .inl ⟨rfl, fun e he hm => ?_⟩
    cases proto with
    | none => cases hpr
    | some pr =>
      rcases protocolOf_some pr with ⟨q, _, hok, _⟩ | ⟨_, hnone⟩
      · rw [hok] at hpr
        cases hpr
      · exact hnone _ (hproto e he) (hm.2 pr rfl)
  | ok protocol =>
    rcases searchPorts_cases p protocol ports 0 with ⟨hn, hall⟩ | ⟨i, hi, hs, hm, hfirst⟩
    · simp only [hn]
      exact .inl ⟨trivial, fun e he => by rw [← matches_protocolOf hpr]; exact hall e he⟩
    · simp only [hs]
      refine .inr ⟨i, hi, by rw [Nat.zero_add]; rfl, (matches_protocolOf hpr _ p).mp hm, fun k hk => ?_⟩
      rw [← matches_protocolOf hpr]
      exact hfirst k hk

/-! ### The record as the caller reads it -/

def servName (r : ℕ) : ℕ := r
def servAliases (r : ℕ) : ℕ := r + 8
def servPort (r : ℕ) : ℕ := r + 16
def servProto (r : ℕ) : ℕ := r + 24

/-- The static table in memory: `struct pvt_servent` has `s_name` at 0, `s_aliases` at 8, a
16-bit `s_port` at 16, zeros up to `s_proto` at 24, and 32 bytes in all. -/
structure TableAt (m : Mem) (iana : ℕ) (ports : List PvtServent) : Prop where
  object : 0 < iana
  name : ∀ i (h : i < ports.length), CString m (m.loadPtr (iana + 32 * i)) ports[i].sName
  aliases : ∀ i < ports.length, m.loadPtr (iana + 32 * i + 8) = 0
  port : ∀ i (h : i < ports.length), m.load 2 (iana + 32 * i + 16) = ports[i].sPort.toNat
  padding : ∀ i < ports.length, m.read (iana + 32 * i + 18) 6 = List.replicate 6 0
  proto : ∀ i (h : i < ports.length), CString m (m.loadPtr (iana + 32 * i + 24)) ports[i].sProto

/-- A `struct servent` for an entry: its name and its protocol, the port in network order,
and a NULL-terminated list of aliases. -/
structure ServentFor (m : Mem) (r : ℕ) (e : PvtServent) (p : UInt16) : Prop where
  name : CString m (m.loadPtr (servName r)) e.sName
  port : m.load 4 (servPort r) = (htons p).toNat
  proto : CString m (m.loadPtr (servProto r)) e.sProto
  aliases : m.loadPtr (servAliases r) ≠ 0 ∧ ∃ ps, PtrArray m (m.loadPtr (servAliases r)) ps

/-- What a caller of `getservbyport` with `htons (p)` expects of the result `r`. -/
def AnswersPort (m : Mem) (iana : ℕ) (ports : List PvtServent) (p : UInt16) (proto : Option (List UInt8))
    (r : ℕ) : Prop :=
  (r = 0 ↔ ∀ e ∈ ports, ¬ e.Matches p proto) ∧
    (r ≠ 0 → ∃ i, ∃ h : i < ports.length, r = iana + 32 * i ∧ ports[i].Matches p proto ∧
      (∀ k (hk : k < i), ¬ ports[k].Matches p proto) ∧ ServentFor m r ports[i] p)

/-- The public port field of an entry holds the port in host order. -/
theorem TableAt.servPort_eq {m : Mem} {iana : ℕ} {ports : List PvtServent} (h : TableAt m iana ports) {i : ℕ}
    (hi : i < ports.length) : m.load 4 (servPort (iana + 32 * i)) = ports[i].sPort.toNat := by
  have hz : m.read (iana + 32 * i + 16 + 2) 2 = List.replicate 2 0 := by
    rw [← take_read (n := 6) (by norm_num), h.padding i hi]
    rfl
  rw [servPort, ← h.port i hi]
  exact load_zero_extend (w := 2) (k := 2) hz

/-- An entry of the table is no `struct servent`: it has no list of aliases. -/
theorem TableAt.not_serventFor {m : Mem} {iana : ℕ} {ports : List PvtServent} (h : TableAt m iana ports) {i : ℕ}
    (hi : i < ports.length) (e : PvtServent) (p : UInt16) : ¬ ServentFor m (iana + 32 * i) e p := by
  intro hs
  exact hs.aliases.1 (h.aliases i hi)

/-- The result is what the caller expects only when there is no entry for the port. -/
theorem getservbyport_answers_iff {m : Mem} {iana : ℕ} {ports : List PvtServent} (h : TableAt m iana ports)
    (hproto : ∀ e ∈ ports, e.sProto ∈ protocols) (p : UInt16) (proto : Option (List UInt8)) :
    AnswersPort m iana ports p proto (getservbyport iana ports (htons p).toUInt32 proto).1 ↔
      ∀ e ∈ ports, ¬ e.Matches p proto := by
  rcases getservbyport_cases iana hproto p proto with ⟨h0, hnone⟩ | ⟨i, hi, hr, hm, hfirst⟩
  · rw [h0]
    exact ⟨fun _ => hnone, fun _ => ⟨⟨fun _ => hnone, fun _ => rfl⟩, fun hne => absurd rfl hne⟩⟩
  · rw [hr]
    constructor
    · rintro ⟨_, hserv⟩
      have hne : iana + 32 * i ≠ 0 := by have := h.object; omega
      obtain ⟨j, hj, hrj, _, _, hs⟩ := hserv hne
      rw [hrj] at hs
      exact absurd hs (h.not_serventFor hj _ _)
    · intro hnone
      exact absurd hm (hnone _ (List.getElem_mem hi))

/-- The entry "http", port 80, "tcp". -/
def PvtServent.http : PvtServent := ⟨[104, 116, 116, 112], 80, protoTcp⟩

/-- A memory with the table of that entry at 0x1000 and its strings behind it. -/
def httpTable : Mem :=
  let m : Mem := fun _ => 0
  let m := m.write 0x2000 [104, 116, 116, 112, 0]
  let m := m.write 0x2010 [116, 99, 112, 0]
  let m := m.storePtr 0x1000 0x2000
  let m := m.store 2 0x1010 80
  m.storePtr 0x1018 0x2010

theorem httpTable_at : TableAt httpTable 0x1000 [.http] := by
  have hone : ∀ i, i < [PvtServent.http].length → i = 0 := fun i hi => by simpa using hi
  constructor
  · decide
  all_goals
    intro i hi
    obtain rfl := hone i hi
    decide +kernel +revert

theorem http_protocols : ∀ e ∈ [PvtServent.http], e.sProto ∈ protocols := by decide

theorem getservbyport_answers_sample :
    AnswersPort httpTable 0x1000 [.http] 81 none (getservbyport 0x1000 [.http] (htons 81).toUInt32 none).1 ↔
      ∀ e ∈ [PvtServent.http], ¬ e.Matches 81 none :=
  getservbyport_answers_iff httpTable_at http_protocols 81 none

/-- The entry for port 80 reads as port 80 in host order, and has no alias list. -/
theorem http_is_no_servent :
    (getservbyport 0x1000 [.http] (htons 80).toUInt32 (some protoTcp)).1 = 0x1000 ∧
      httpTable.load 4 (servPort 0x1000) = 80 ∧ (htons 80).toNat = 20480 ∧
      httpTable.loadPtr (servAliases 0x1000) = 0 ∧
      ¬ AnswersPort httpTable 0x1000 [.http] 80 (some protoTcp)
        (getservbyport 0x1000 [.http] (htons 80).toUInt32 (some protoTcp)).1 := by
  have hr : (getservbyport 0x1000 [.http] (htons 80).toUInt32 (some protoTcp)).1 = 0x1000 := by decide
  have hport : httpTable.load 4 (servPort 0x1000) = 80 := httpTable_at.servPort_eq (i := 0) (by decide)
  refine ⟨hr, hport, by decide, httpTable_at.aliases 0 (by decide), ?_⟩
  rintro ⟨_, hserv⟩
  obtain ⟨i, hi, hri, _, _, hs⟩ := hserv (by rw [hr]; decide)
  rw [hri] at hs
  exact httpTable_at.not_serventFor hi _ _ hs

end FakeDns
