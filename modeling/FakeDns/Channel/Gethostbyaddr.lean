import FakeDns.Channel.Gethostbyname
import FakeDns.Dns.PtrReply

/-! `ares_gethostbyaddr` as a client of a channel. The address is looked up in the hosts file
and by a query for the name that stands for it in the tree of addresses. -/

namespace FakeDns.Channel

open ByteMemory DomainName

/-- `struct addr_query`, with what stands for `callback` and `arg`. -/
structure AddrQuery where
  addr : List UInt8
  family : UInt32
  timeouts : ℕ
  call : ℕ

/-- `end_aquery` -/
def endAquery (aquery : AddrQuery) (status : UInt32) (host : Option Hostent) : Client :=
  .tell ⟨aquery.call, status, aquery.timeouts, host⟩ .done

/-- `%x`, of four bits. -/
def hexDigit (b : UInt8) : UInt8 := if b < 10 then 48 + b else 87 + b

/-- "in-addr.arpa" -/
def inAddrArpa : List UInt8 := [105, 110, 45, 97, 100, 100, 114, 46, 97, 114, 112, 97]

/-- "ip6.arpa" -/
def ip6Arpa : List UInt8 := [105, 112, 54, 46, 97, 114, 112, 97]

/-- `ptr_rr_name` -/
def ptrRrName (addr : List UInt8) (family : UInt32) : List UInt8 :=
  if family = AF_INET then addr.reverse.flatMap (fun b => decimal b.toNat ++ [46]) ++ inAddrArpa
  else addr.reverse.flatMap (fun b => [hexDigit (b &&& 0xf), 46, hexDigit (b >>> 4), 46]) ++ ip6Arpa

/-- An entry with the address. -/
def hostAt (addr : List UInt8) (family : UInt32) (host : Hostent) : Bool :=
  host.hAddrtype == family && host.hAddrList.head? == some addr

section

variable (cfg : Config) (res : Resolver)

/-- `file_lookup`, for an address -/
def AddrQuery.fileLookup (aquery : AddrQuery) : UInt32 × Option Hostent :=
  lookupFile res (hostAt aquery.addr aquery.family) aquery.family

/-- `addr_callback`; `next` is `next_lookup`, with the lookups that remain. The memory of the
parser is as in `hostCallback`. -/
def addrCallback (next : AddrQuery → Client) (aquery : AddrQuery) (reply : Reply) : Client :=
  let aquery := { aquery with timeouts := aquery.timeouts + reply.timeouts }
  if reply.status = ARES_SUCCESS then
    withMalloc (endAquery aquery ARES_ENOMEM none) <|
      match aresParsePtrReply reply.abuf aquery.addr aquery.family with
      | .ok host => endAquery aquery ARES_SUCCESS (some host)
      | .fail status => endAquery aquery status none
      | .fault => .stray
  else if reply.status = ARES_EDESTRUCTION then endAquery aquery ARES_EDESTRUCTION none
  else next aquery

/-- `next_lookup`, for an address, with the remaining lookups. The name goes to a buffer of 128
bytes. -/
def AddrQuery.nextLookup : List UInt8 → AddrQuery → Client
  | [], aquery => endAquery aquery ARES_ENOTFOUND none
  | p :: remaining, aquery =>
    if p = 98 then
      let name := ptrRrName aquery.addr aquery.family
      if name.length < 128 then aresQuery cfg name C_IN T_PTR (addrCallback (nextLookup remaining) aquery) else .stray
    else if p = 102 then
      match aquery.fileLookup res with
      | (status, host) => if status = ARES_SUCCESS then endAquery aquery status host else nextLookup remaining aquery
    else nextLookup remaining aquery

/-- `ares_gethostbyaddr`, for the `addrlen` bytes at `addr`. -/
def aresGethostbyaddr (addr : List UInt8) (family : UInt32) (call : ℕ) : Client :=
  let refuse := fun status => .tell ⟨call, status, 0, none⟩ .done
  if family ≠ AF_INET ∧ family ≠ AF_INET6 then refuse ARES_ENOTIMP
  else if (family = AF_INET ∧ addr.length ≠ sizeofInAddr) ∨ (family = AF_INET6 ∧ addr.length ≠ sizeofIn6Addr) then
    refuse ARES_ENOTIMP
  else withMalloc (refuse ARES_ENOMEM) (AddrQuery.nextLookup cfg res res.lookups ⟨addr, family, 0, call⟩)

end

/-! ### What a lookup delivers -/

/-- The family of an address, and its size. -/
inductive IsAddr : List UInt8 → UInt32 → Prop
  | inet {addr} (h : addr.length = sizeofInAddr) : IsAddr addr AF_INET
  | inet6 {addr} (h : addr.length = sizeofIn6Addr) : IsAddr addr AF_INET6

/-- Where the hostent of an address comes from: an entry of the hosts file, or the answer of a
server to the query for its name. -/
inductive AddrSource (cfg : Config) (res : Resolver) (env : Env) (events : List Event) (addr : List UInt8)
    (family : UInt32) : Hostent → Prop
  | file {file host} (haddr : IsAddr addr family) (hfile : res.hostsFile = .ok file) (hmem : host ∈ file.entries family)
      (hat : hostAt addr family host = true) : AddrSource cfg res env events addr family host
  | answer {abuf host} (haddr : IsAddr addr family)
      (hsaid : Said cfg env events (ptrRrName addr family) C_IN T_PTR abuf)
      (hparse : aresParsePtrReply abuf addr family = .ok host) : AddrSource cfg res env events addr family host

variable {cfg : Config} {res : Resolver} {env : Env} {events : List Event} {addr : List UInt8} {family : UInt32}
  {call : ℕ} {aquery : AddrQuery} {status : UInt32} {host : Hostent} {G : Told → Prop} {reply : Reply}
  {next : AddrQuery → Client}

theorem length_decimal_le (b : UInt8) : (decimal b.toNat).length ≤ 3 := by
  rw [decimal, List.length_map]
  exact Nat.toDigits_length 10 _ 3 (by decide) (b.toNat_lt.trans (by decide))

theorem length_flatMap_le {f : UInt8 → List UInt8} {n : ℕ} (hf : ∀ b, (f b).length ≤ n) (bs : List UInt8) :
    (bs.flatMap f).length ≤ bs.length * n := by
  induction bs with
  | nil => exact Nat.zero_le _
  | cons b bs ih =>
    rw [List.flatMap_cons, List.length_append, List.length_cons, Nat.succ_mul, Nat.add_comm]
    exact Nat.add_le_add ih (hf b)

/-- The name of an address fits its buffer. -/
theorem length_ptrRrName (h : IsAddr addr family) : (ptrRrName addr family).length < 128 := by
  cases h with
  | inet h =>
    have hdigits := length_flatMap_le (f := fun b => decimal b.toNat ++ [46]) (n := 4)
      (fun b => by rw [List.length_append]; exact Nat.succ_le_succ (length_decimal_le b)) addr.reverse
    rw [List.length_reverse, h] at hdigits
    rw [ptrRrName, if_pos rfl, List.length_append]
    exact Nat.lt_of_le_of_lt (Nat.add_le_add_right hdigits _) (by decide)
  | inet6 h =>
    have hdigits := length_flatMap_le (f := fun b => [hexDigit (b &&& 0xf), 46, hexDigit (b >>> 4), 46]) (n := 4)
      (fun _ => le_rfl) addr.reverse
    have hfamily : AF_INET6 ≠ AF_INET := by decide
    rw [List.length_reverse, h] at hdigits
    rw [ptrRrName, if_neg hfamily, List.length_append]
    exact Nat.lt_of_le_of_lt (Nat.add_le_add_right hdigits _) (by decide)

/-- The name of an address does not end in a dot. -/
theorem ptrRrName_ends (addr : List UInt8) (family : UInt32) : ¬ EndsEscapedDot (ptrRrName addr family) := by
  intro h
  have hlast := getLast_chars (ptrRrName addr family)
  have hend : (ptrRrName addr family).getLast? = some 97 := by
    rw [ptrRrName]
    split_ifs <;> rw [List.getLast?_append] <;> rfl
  rw [show (chars (ptrRrName addr family)).getLast? = some (dot, true) from h, hend] at hlast
  exact absurd hlast (by decide)

/-- The lookup that an address query is for. -/
structure AddrQuery.For (addr : List UInt8) (family : UInt32) (call : ℕ) (aquery : AddrQuery) : Prop where
  addr : aquery.addr = addr
  family : aquery.family = family
  call : aquery.call = call

theorem endAquery_gives {R : List UInt8 → Reply → Prop}
    (hG : ∀ told, told.Gives (AddrSource cfg res env events addr family) call → G told)
    (hfor : aquery.For addr family call) (hsource : AddrSource cfg res env events addr family host) :
    (endAquery aquery ARES_SUCCESS (some host)).Serves R G call :=
  ⟨hfor.call, hG _ ⟨hfor.call, fun _ => ⟨host, rfl, hsource⟩, fun h => absurd rfl h⟩, rfl⟩

theorem endAquery_fails {R : List UInt8 → Reply → Prop}
    (hG : ∀ told, told.Gives (AddrSource cfg res env events addr family) call → G told)
    (hfor : aquery.For addr family call) (hs : status ≠ ARES_SUCCESS) : (endAquery aquery status none).Serves R G call :=
  ⟨hfor.call, hG _ (.not_success hs hfor.call), rfl⟩

theorem quits_addrCallback : Quits (addrCallback next aquery) := by
  intro timeouts
  have hfail : ARES_EDESTRUCTION ≠ ARES_SUCCESS := by decide
  rw [addrCallback, if_neg hfail, if_pos rfl]
  exact trivial

theorem addrCallback_serves (haddr : IsAddr addr family)
    (hG : ∀ told, told.Gives (AddrSource cfg res env events addr family) call → G told)
    (hnext : ∀ aquery, aquery.For addr family call → (next aquery).Serves (Credible cfg env events) G call)
    (hfor : aquery.For addr family call)
    (h : reply.status = ARES_SUCCESS → Said cfg env events (ptrRrName addr family) C_IN T_PTR reply.abuf) :
    (addrCallback next aquery reply).Serves (Credible cfg env events) G call := by
  have hfor' : AddrQuery.For addr family call { aquery with timeouts := aquery.timeouts + reply.timeouts } :=
    ⟨hfor.addr, hfor.family, hfor.call⟩
  rw [addrCallback]
  by_cases hs : reply.status = ARES_SUCCESS
  · rw [if_pos hs]
    dsimp only
    have hsaid := h hs
    refine serves_withMalloc (endAquery_fails hG hfor' (by decide)) ?_
    rcases aresParsePtrReply_ends hsaid.length_lt aquery.addr aquery.family with
      ⟨host, hparse⟩ | ⟨status, hparse, hstatus⟩
    · rw [hparse]
      refine endAquery_gives hG hfor' (.answer haddr hsaid ?_)
      rw [← hfor.addr, ← hfor.family]
      exact hparse
    · rw [hparse]
      have hne : status ≠ ARES_SUCCESS := by rcases hstatus with rfl | rfl <;> decide
      exact endAquery_fails hG hfor' hne
  · rw [if_neg hs]
    split_ifs
    · exact endAquery_fails hG hfor' (by decide)
    · exact hnext _ hfor'

/-- The lookups that remain call back once. -/
theorem AddrQuery.nextLookup_serves (haddr : IsAddr addr family)
    (hG : ∀ told, told.Gives (AddrSource cfg res env events addr family) call → G told) :
    ∀ (remaining : List UInt8) (aquery : AddrQuery), aquery.For addr family call →
      (AddrQuery.nextLookup cfg res remaining aquery).Serves (Credible cfg env events) G call
  | [], aquery, hfor => endAquery_fails hG hfor (by decide)
  | p :: remaining, aquery, hfor => by
    have hnext := AddrQuery.nextLookup_serves haddr hG remaining
    have hname : ptrRrName aquery.addr aquery.family = ptrRrName addr family := by rw [hfor.addr, hfor.family]
    rw [AddrQuery.nextLookup]
    by_cases hdns : p = 98
    · rw [if_pos hdns]
      dsimp only
      rw [hname, if_pos (length_ptrRrName haddr)]
      exact aresQuery_serves (fun h => ptrRrName_ends _ _ h.2) quits_addrCallback fun reply hsaid =>
        addrCallback_serves haddr hG hnext hfor hsaid
    rw [if_neg hdns]
    by_cases hhosts : p = 102
    · rw [if_pos hhosts]
      rcases lookupFile_cases res (hostAt aquery.addr aquery.family) aquery.family with
        ⟨host, file, heq, hfile, hmem, hat⟩ | ⟨status, heq, hstatus⟩
      · rw [AddrQuery.fileLookup, heq]
        rw [hfor.family] at hmem
        rw [hfor.addr, hfor.family] at hat
        exact endAquery_gives hG hfor (.file haddr hfile hmem hat)
      · rw [AddrQuery.fileLookup, heq]
        dsimp only
        rw [if_neg hstatus]
        exact hnext aquery hfor
    · rw [if_neg hhosts]
      exact hnext aquery hfor

/-- The rule of `ares_gethostbyaddr`. -/
theorem aresGethostbyaddr_serves (hG : ∀ told, told.Gives (AddrSource cfg res env events addr family) call → G told) :
    (aresGethostbyaddr cfg res addr family call).Serves (Credible cfg env events) G call := by
  have hrefuse : ∀ status, status ≠ ARES_SUCCESS →
      (Client.tell ⟨call, status, 0, none⟩ .done).Serves (Credible cfg env events) G call :=
    fun status hs => ⟨rfl, hG _ (.not_success hs rfl), rfl⟩
  rw [aresGethostbyaddr]
  by_cases hfamily : family ≠ AF_INET ∧ family ≠ AF_INET6
  · rw [if_pos hfamily]
    exact hrefuse _ (by decide)
  rw [if_neg hfamily]
  by_cases hsize : (family = AF_INET ∧ addr.length ≠ sizeofInAddr) ∨ (family = AF_INET6 ∧ addr.length ≠ sizeofIn6Addr)
  · rw [if_pos hsize]
    exact hrefuse _ (by decide)
  rw [if_neg hsize]
  have haddr : IsAddr addr family := by
    obtain ⟨hinet, hinet6⟩ := not_or.mp hsize
    by_cases h : family = AF_INET
    · subst h
      exact .inet (not_not.mp fun hlen => hinet ⟨rfl, hlen⟩)
    · obtain rfl := not_not.mp fun h6 => hfamily ⟨h, h6⟩
      exact .inet6 (not_not.mp fun hlen => hinet6 ⟨rfl, hlen⟩)
  exact serves_withMalloc (hrefuse _ (by decide)) (AddrQuery.nextLookup_serves haddr hG _ _ ⟨rfl, rfl, rfl⟩)

end FakeDns.Channel
