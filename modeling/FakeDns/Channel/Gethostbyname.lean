import FakeDns.Channel.Search
import Mathlib.Data.List.Sort

/-! `ares_gethostbyname` as a client of a channel. A name that is an address is answered at
once; any other is looked up where the channel's configuration says, in the hosts file and
by a search for its addresses. -/

namespace FakeDns.Channel

open ByteMemory DomainName

def AF_UNSPEC : UInt32 := 0

def ENOENT : UInt32 := 2
def ESRCH : UInt32 := 3

/-! ### Configuration -/

/-- The `mask` of a `struct apattern`, which is a union. -/
inductive AddrMask
  | mask (bytes : List UInt8)
  | cidr (bits : ℕ)

/-- The union, read as `bits`. -/
def AddrMask.bits : AddrMask → ℕ
  | .mask bytes => ofLE (bytes.take 2)
  | .cidr bits => bits

/-- `struct apattern` -/
structure Apattern where
  family : UInt32
  addr : List UInt8
  mask : AddrMask

/-- What `ares__get_hostent` reads from the hosts file, entry by entry, for a family of
addresses, and the status that it ends with. -/
structure HostsFile where
  entries : UInt32 → List Hostent
  ends : UInt32
  ends_ne : ends ≠ ARES_SUCCESS

/-- What a lookup reads of the channel and of the system. The hosts file may be missing, with
an `errno`. -/
structure Resolver extends Domains where
  lookups : List UInt8
  sortlist : List Apattern
  hostsFile : Except UInt32 HostsFile
  inetAddr : List UInt8 → Option (List UInt8)
  inetPton : List UInt8 → Option (List UInt8)

/-! ### Sorting -/

/-- `!ares_bitncmp(l, r, n)` -/
def sameBits (l r : List UInt8) (n : ℕ) : Bool :=
  l.take (n / 8) = r.take (n / 8) ∧
    (n % 8 = 0 ∨ (l.getD (n / 8) 0).toNat / 2 ^ (8 - n % 8) = (r.getD (n / 8) 0).toNat / 2 ^ (8 - n % 8))

/-- `get_address_index` -/
def getAddressIndex (sortlist : List Apattern) (addr : List UInt8) : ℕ :=
  sortlist.findIdx fun p => p.family == AF_INET &&
    match p.mask with
    | .mask bytes => List.zipWith (· &&& ·) addr bytes == p.addr
    | .cidr bits => sameBits addr p.addr bits

/-- `get6_address_index` -/
def get6AddressIndex (sortlist : List Apattern) (addr : List UInt8) : ℕ :=
  sortlist.findIdx fun p => p.family == AF_INET6 && sameBits addr p.addr p.mask.bits

/-- The inner loop of the insertion sort. The addresses to the left come in reverse. -/
def moveBack (index : List UInt8 → ℕ) (a₁ : List UInt8) : List (List UInt8) → List (List UInt8)
  | [] => [a₁]
  | a₂ :: left => if index a₂ ≤ index a₁ then a₁ :: a₂ :: left else a₂ :: moveBack index a₁ left

/-- `sort_addresses` and `sort6_addresses` -/
def sortAddresses (index : List UInt8 → ℕ) (addrs : List (List UInt8)) : List (List UInt8) :=
  (addrs.foldl (fun left a₁ => moveBack index a₁ left) []).reverse

/-! ### Lookups -/

/-- `struct host_query`, with what stands for `callback` and `arg`. -/
structure HostQuery where
  name : List UInt8
  sentFamily : Option UInt32
  wantFamily : UInt32
  timeouts : ℕ
  call : ℕ

/-- `end_hquery` -/
def endHquery (hquery : HostQuery) (status : UInt32) (host : Option Hostent) : Client :=
  .tell ⟨hquery.call, status, hquery.timeouts, host⟩ .done

/-- "It only looks like an IP address if it's all numbers and dots." -/
def looksNumeric (name : List UInt8) : Bool := name.all (fun c => isdigit c || c == 46) && name.count 46 == 3

section

variable (cfg : Config) (res : Resolver)

/-- The address that `fake_hostent` finds in a name. -/
def literalOf (name : List UInt8) (family : UInt32) : Option (UInt32 × List UInt8) :=
  match (if (family = AF_INET ∨ family = AF_INET6) ∧ looksNumeric name then res.inetAddr name else none) with
  | some addr => some (AF_INET, addr)
  | none => if family = AF_INET6 then (res.inetPton name).map fun addr => (AF_INET6, addr) else none

/-- The hostent of an address. -/
def literalHost (name : List UInt8) (family : UInt32) (addr : List UInt8) : Hostent :=
  ⟨name, [], family, if family = AF_INET then sizeofInAddr else sizeofIn6Addr, [addr]⟩

/-- `fake_hostent`; `next` is what comes if it returns false. -/
def fakeHostent (name : List UInt8) (family : UInt32) (call : ℕ) (next : Client) : Client :=
  match literalOf res name family with
  | none => next
  | some (family, addr) =>
    withMalloc (.tell ⟨call, ARES_ENOMEM, 0, none⟩ .done)
      (.tell ⟨call, ARES_SUCCESS, 0, some (literalHost name family addr)⟩ .done)

/-- The name, or an alias, of an entry. -/
def hostNamed (name : List UInt8) (host : Hostent) : Bool :=
  strcaseeq host.hName name || host.hAliases.any (strcaseeq · name)

/-- The two functions `file_lookup` look for the first entry that `p` holds of. -/
def lookupFile (p : Hostent → Bool) (family : UInt32) : UInt32 × Option Hostent :=
  match res.hostsFile with
  | .error errno => (if errno = ENOENT ∨ errno = ESRCH then ARES_ENOTFOUND else ARES_EFILE, none)
  | .ok file =>
    match (file.entries family).find? p with
    | some host => (ARES_SUCCESS, some host)
    | none => (if file.ends = ARES_EOF then ARES_ENOTFOUND else file.ends, none)

/-- `file_lookup`, for a name -/
def fileLookup (name : List UInt8) (family : UInt32) : UInt32 × Option Hostent := lookupFile res (hostNamed name) family

/-- `if (host && channel->nsort)`, with `sort_addresses` or `sort6_addresses`. -/
def sortHost (index : List Apattern → List UInt8 → ℕ) (host : Hostent) : Hostent :=
  if res.sortlist = [] then host else { host with hAddrList := sortAddresses (index res.sortlist) host.hAddrList }

/-- `host_callback`; `next` is `next_lookup`, with the lookups that remain. Whether a parser gets
the memory it asks for is one answer of the system. -/
def hostCallback (next : HostQuery → UInt32 → Client) (hquery : HostQuery) (reply : Reply) : Client :=
  let hquery' := { hquery with timeouts := hquery.timeouts + reply.timeouts }
  if reply.status = ARES_SUCCESS then
    if hquery.sentFamily = some AF_INET then
      withMalloc (endHquery hquery' ARES_ENOMEM none) <|
        match aresParseAReply reply.abuf true 0 with
        | .ok r => endHquery hquery' ARES_SUCCESS (r.host.map (sortHost res getAddressIndex))
        | .fail status => endHquery hquery' status none
        | .fault => .stray
    else if _hsent : hquery.sentFamily = some AF_INET6 then
      withMalloc (endHquery hquery' ARES_ENOMEM none) <|
        match aresParseAaaaReply reply.abuf true 0 with
        | .ok r => endHquery hquery' ARES_SUCCESS (r.host.map (sortHost res get6AddressIndex))
        | .fail status =>
          -- "Try looking up A instead."
          if (status = ARES_ENODATA ∨ status = ARES_EBADRESP) ∧ hquery.wantFamily = AF_UNSPEC then
            aresSearch cfg res.toDomains hquery.name C_IN T_A
              (hostCallback next { hquery' with sentFamily := some AF_INET })
          else endHquery hquery' status none
        | .fault => .stray
    else endHquery hquery' ARES_SUCCESS none
  else if _hretry : (reply.status = ARES_ENODATA ∨ reply.status = ARES_EBADRESP ∨ reply.status = ARES_ETIMEOUT) ∧
      hquery.sentFamily = some AF_INET6 ∧ hquery.wantFamily = AF_UNSPEC then
    aresSearch cfg res.toDomains hquery.name C_IN T_A (hostCallback next { hquery' with sentFamily := some AF_INET })
  else if reply.status = ARES_EDESTRUCTION then endHquery hquery' ARES_EDESTRUCTION none
  else next hquery' reply.status
termination_by if hquery.sentFamily = some AF_INET6 then 1 else 0
decreasing_by
  · rw [if_pos _hsent]
    exact Nat.one_pos
  · rw [if_pos _hretry.2.1]
    exact Nat.one_pos

/-- `next_lookup`, with the remaining lookups. -/
def nextLookup : List UInt8 → HostQuery → UInt32 → Client
  | [], hquery, status => endHquery hquery status none
  | p :: remaining, hquery, statusCode =>
    if p = 98 then
      if hquery.wantFamily = AF_INET6 ∨ hquery.wantFamily = AF_UNSPEC then
        aresSearch cfg res.toDomains hquery.name C_IN T_AAAA
          (hostCallback cfg res (nextLookup remaining) { hquery with sentFamily := some AF_INET6 })
      else
        aresSearch cfg res.toDomains hquery.name C_IN T_A
          (hostCallback cfg res (nextLookup remaining) { hquery with sentFamily := some AF_INET })
    else if p = 102 then
      match fileLookup res hquery.name hquery.wantFamily with
      | (status, host) =>
        if status = ARES_SUCCESS then endHquery hquery status host else nextLookup remaining hquery statusCode
    else nextLookup remaining hquery statusCode

/-- `ares_gethostbyname` -/
def aresGethostbyname (name : List UInt8) (family : UInt32) (call : ℕ) : Client :=
  let refuse := fun status => .tell ⟨call, status, 0, none⟩ .done
  if ¬ (family = AF_INET ∨ family = AF_INET6 ∨ family = AF_UNSPEC) then refuse ARES_ENOTIMP
  else
    fakeHostent res name family call <| withMalloc (refuse ARES_ENOMEM) <| withMalloc (refuse ARES_ENOMEM) <|
      nextLookup cfg res res.lookups ⟨name, none, family, 0, call⟩ ARES_ECONNREFUSED

end

/-! ### What a lookup delivers -/

/-- The records that a lookup for a family asks for, and the order it brings the addresses in. -/
inductive Wants (family : UInt32) : AddrKind → (List Apattern → List UInt8 → ℕ) → Prop
  | inet (h : family ≠ AF_INET6) : Wants family kindA getAddressIndex
  | inet6 (h : family ≠ AF_INET) : Wants family kindAaaa get6AddressIndex

/-- Where a hostent comes from: the name itself, an entry of the hosts file, or the answer of a
server to one of the names that a search asks for, with its addresses sorted. -/
inductive Source (cfg : Config) (res : Resolver) (env : Env) (events : List Event) (name : List UInt8)
    (family : UInt32) : Hostent → Prop
  | literal {f addr} (h : literalOf res name family = some (f, addr)) :
      Source cfg res env events name family (literalHost name f addr)
  | file {file host} (hfile : res.hostsFile = .ok file) (hmem : host ∈ file.entries family)
      (hnamed : hostNamed name host = true) : Source cfg res env events name family host
  | answer {k index s abuf r host addrs} (hwants : Wants family k index) (hasks : Asks cfg res.toDomains name s)
      (hsaid : Said cfg env events s C_IN k.rrType abuf) (hparse : parseAddrReply k true 0 abuf = .ok r)
      (hhost : r.host = some host) (hperm : addrs.Perm host.hAddrList)
      (hsorted : addrs.Pairwise fun a b => index res.sortlist a ≤ index res.sortlist b) :
      Source cfg res env events name family { host with hAddrList := addrs }

variable {cfg : Config} {res : Resolver} {env : Env} {events : List Event} {index : List UInt8 → ℕ} {name : List UInt8}
  {family : UInt32} {call : ℕ} {hquery : HostQuery} {status : UInt32} {found : Option Hostent} {G : Told → Prop}
  {next : HostQuery → UInt32 → Client}

theorem moveBack_eq (index : List UInt8 → ℕ) (a : List UInt8) (left : List (List UInt8)) :
    moveBack index a left = left.orderedInsert (fun a b => index b ≤ index a) a := by
  induction left with
  | nil => rfl
  | cons b left ih => rw [moveBack, List.orderedInsert_cons, ih]

theorem sortAddresses_eq (index : List UInt8 → ℕ) (addrs : List (List UInt8)) :
    sortAddresses index addrs = (addrs.reverse.insertionSort fun a b => index b ≤ index a).reverse := by
  simp only [sortAddresses, moveBack_eq, List.insertionSort, List.foldr_reverse]

theorem sortAddresses_perm (index : List UInt8 → ℕ) (addrs : List (List UInt8)) :
    (sortAddresses index addrs).Perm addrs := by
  rw [sortAddresses_eq]
  exact (List.reverse_perm _).trans ((List.perm_insertionSort _ _).trans (List.reverse_perm _))

theorem pairwise_sortAddresses (index : List UInt8 → ℕ) (addrs : List (List UInt8)) :
    (sortAddresses index addrs).Pairwise fun a b => index a ≤ index b := by
  have htotal : Std.Total fun a b => index b ≤ index a := ⟨fun _ _ => le_total _ _⟩
  have htrans : IsTrans _ fun a b => index b ≤ index a := ⟨fun _ _ _ h h' => h'.trans h⟩
  rw [sortAddresses_eq, List.pairwise_reverse]
  exact List.pairwise_insertionSort _ _

theorem parse_ne_fault (k : AddrKind) {abuf : List UInt8} (hsize : abuf.length < 2 ^ 22) :
    parseAddrReply k true 0 abuf ≠ .fault := by
  rcases parseAddrReply_ends k 0 hsize with ⟨r, host, hok, -⟩ | ⟨status, hfail, -⟩
  · rw [hok]
    exact nofun
  · rw [hfail]
    exact nofun

theorem parse_ne_success {k : AddrKind} {abuf : List UInt8} (hsize : abuf.length < 2 ^ 22)
    (h : parseAddrReply k true 0 abuf = .fail status) : status ≠ ARES_SUCCESS := by
  rcases parseAddrReply_ends k 0 hsize with ⟨r, host, hok, -⟩ | ⟨status', hfail, hstatus⟩
  · cases hok.symm.trans h
  · obtain rfl := Outcome.fail.inj (hfail.symm.trans h)
    rcases hstatus with rfl | rfl <;> decide

/-- A parsed answer, sorted, is what the caller gets. -/
theorem Source.sort {k : AddrKind} {index : List Apattern → List UInt8 → ℕ} {s abuf : List UInt8} {r : AddrResult}
    (hwants : Wants family k index) (hasks : Asks cfg res.toDomains name s)
    (hsaid : Said cfg env events s C_IN k.rrType abuf) (hparse : parseAddrReply k true 0 abuf = .ok r) :
    ∃ host, r.host.map (sortHost res index) = some host ∧ Source cfg res env events name family host := by
  rcases parseAddrReply_ends k 0 hsaid.length_lt with ⟨r', host, hok, hhost⟩ | ⟨status, hfail, -⟩
  swap
  · cases hfail.symm.trans hparse
  obtain rfl := Outcome.ok.inj (hok.symm.trans hparse)
  rw [hhost, Option.map_some]
  refine ⟨_, rfl, ?_⟩
  rw [sortHost]
  split_ifs with hnil
  · -- without a sort list every address has the same index
    apply Source.answer hwants hasks hsaid hparse hhost (List.Perm.refl _)
    rw [hnil]
    cases hwants <;> exact List.pairwise_of_forall fun _ _ => le_rfl
  · exact .answer hwants hasks hsaid hparse hhost (sortAddresses_perm _ _) (pairwise_sortAddresses _ _)

/-- The lookup that a host query is for. -/
structure HostQuery.For (name : List UInt8) (family : UInt32) (call : ℕ) (hquery : HostQuery) : Prop where
  name : hquery.name = name
  wantFamily : hquery.wantFamily = family
  call : hquery.call = call

theorem HostQuery.For.update (hfor : hquery.For name family call) (sent : Option UInt32) (timeouts : ℕ) :
    HostQuery.For name family call { hquery with sentFamily := sent, timeouts := timeouts } :=
  ⟨hfor.name, hfor.wantFamily, hfor.call⟩

/-- What a host query has asked for last. -/
inductive HostQuery.Sent (hquery : HostQuery) : ℕ → Prop
  | inet (h : hquery.sentFamily = some AF_INET) (hwant : hquery.wantFamily ≠ AF_INET6) : hquery.Sent T_A
  | inet6 (h : hquery.sentFamily = some AF_INET6) (hwant : hquery.wantFamily ≠ AF_INET) : hquery.Sent T_AAAA

theorem HostQuery.Sent.of_inet {type : ℕ} (h : hquery.Sent type) (hs : hquery.sentFamily = some AF_INET) :
    type = T_A ∧ hquery.wantFamily ≠ AF_INET6 := by
  cases h with
  | inet _ hwant => exact ⟨rfl, hwant⟩
  | inet6 h => exact absurd (h.symm.trans hs) (by decide)

theorem HostQuery.Sent.of_inet6 {type : ℕ} (h : hquery.Sent type) (hs : hquery.sentFamily = some AF_INET6) :
    type = T_AAAA ∧ hquery.wantFamily ≠ AF_INET := by
  cases h with
  | inet h => exact absurd (h.symm.trans hs) (by decide)
  | inet6 _ hwant => exact ⟨rfl, hwant⟩

theorem unspec_ne {family : UInt32} (h : family = AF_UNSPEC) : family ≠ AF_INET6 := by
  rw [h]
  decide

theorem endHquery_gives {R : List UInt8 → Reply → Prop}
    (hG : ∀ told, told.Gives (Source cfg res env events name family) call → G told) (hfor : hquery.For name family call)
    (hfound : ∃ host, found = some host ∧ Source cfg res env events name family host) :
    (endHquery hquery ARES_SUCCESS found).Serves R G call :=
  ⟨hfor.call, hG _ ⟨hfor.call, fun _ => hfound, fun h => absurd rfl h⟩, rfl⟩

theorem endHquery_fails {R : List UInt8 → Reply → Prop}
    (hG : ∀ told, told.Gives (Source cfg res env events name family) call → G told) (hfor : hquery.For name family call)
    (hs : status ≠ ARES_SUCCESS) : (endHquery hquery status none).Serves R G call :=
  ⟨hfor.call, hG _ (.not_success hs hfor.call), rfl⟩

theorem quits_hostCallback : Quits (hostCallback cfg res next hquery) := by
  intro timeouts
  have hfail : ARES_EDESTRUCTION ≠ ARES_SUCCESS := by decide
  have hfatal : ¬ (ARES_EDESTRUCTION = ARES_ENODATA ∨ ARES_EDESTRUCTION = ARES_EBADRESP ∨
      ARES_EDESTRUCTION = ARES_ETIMEOUT) := by decide
  rw [hostCallback, if_neg hfail, dif_neg fun h => hfatal h.1, if_pos rfl]
  exact trivial

/-- A host query that gets an answer calls back, or goes on with what remains. -/
theorem hostCallback_serves (hname : Searchable cfg res.toDomains name)
    (hG : ∀ told, told.Gives (Source cfg res env events name family) call → G told)
    (hnext : ∀ hquery status, hquery.For name family call → status ≠ ARES_SUCCESS →
      (next hquery status).Serves (Credible cfg env events) G call) (hquery : HostQuery) (reply : Reply)
    (hfor : hquery.For name family call) {type : ℕ} (hsent : hquery.Sent type)
    (h : reply.status = ARES_SUCCESS →
      ∃ s, Asks cfg res.toDomains hquery.name s ∧ Said cfg env events s C_IN type reply.abuf) :
    (hostCallback cfg res next hquery reply).Serves (Credible cfg env events) G call := by
  fun_induction hostCallback cfg res next hquery reply generalizing type with
  | case1 hquery reply hquery' hs hinet =>
    obtain ⟨rfl, hwant⟩ := hsent.of_inet hinet
    have hfor' : hquery'.For name family call := hfor.update _ _
    obtain ⟨s, hasks, hsaid⟩ := h hs
    refine serves_withMalloc (endHquery_fails hG hfor' (by decide)) ?_
    cases hparse : aresParseAReply reply.abuf true 0 with
    | ok r =>
      have hwants : Wants family kindA getAddressIndex := .inet (hfor.wantFamily ▸ hwant)
      exact endHquery_gives hG hfor' (Source.sort hwants (hfor.name ▸ hasks) hsaid hparse)
    | fail status => exact endHquery_fails hG hfor' (parse_ne_success hsaid.length_lt hparse)
    | fault => exact absurd hparse (parse_ne_fault _ hsaid.length_lt)
  | case2 hquery reply hquery' hs hinet hinet6 ih =>
    obtain ⟨rfl, hwant⟩ := hsent.of_inet6 hinet6
    have hfor' : hquery'.For name family call := hfor.update _ _
    obtain ⟨s, hasks, hsaid⟩ := h hs
    refine serves_withMalloc (endHquery_fails hG hfor' (by decide)) ?_
    cases hparse : aresParseAaaaReply reply.abuf true 0 with
    | ok r =>
      have hwants : Wants family kindAaaa get6AddressIndex := .inet6 (hfor.wantFamily ▸ hwant)
      exact endHquery_gives hG hfor' (Source.sort hwants (hfor.name ▸ hasks) hsaid hparse)
    | fail status =>
      dsimp only
      split_ifs with hunspec
      · exact aresSearch_serves (hfor.name ▸ hname) quits_hostCallback fun reply hsaid =>
          ih reply (hfor.update _ _) (.inet rfl (unspec_ne hunspec.2)) hsaid
      · exact endHquery_fails hG hfor' (parse_ne_success hsaid.length_lt hparse)
    | fault => exact absurd hparse (parse_ne_fault _ hsaid.length_lt)
  | case3 hquery reply hquery' hs hinet hinet6 =>
    cases hsent with
    | inet hsent => exact absurd hsent hinet
    | inet6 hsent => exact absurd hsent hinet6
  | case4 hquery reply hquery' hs hretry ih =>
    exact aresSearch_serves (hfor.name ▸ hname) quits_hostCallback fun reply hsaid =>
      ih reply (hfor.update _ _) (.inet rfl (unspec_ne hretry.2.2)) hsaid
  | case5 hquery reply hquery' hs hretry hdestruction => exact endHquery_fails hG (hfor.update _ _) (by decide)
  | case6 hquery reply hquery' hs => exact hnext _ _ (hfor.update _ _) hs

/-- An entry of the hosts file, or an error. -/
theorem lookupFile_cases (res : Resolver) (p : Hostent → Bool) (family : UInt32) :
    (∃ host file, lookupFile res p family = (ARES_SUCCESS, some host) ∧ res.hostsFile = .ok file ∧
      host ∈ file.entries family ∧ p host = true) ∨
      ∃ status, lookupFile res p family = (status, none) ∧ status ≠ ARES_SUCCESS := by
  rw [lookupFile]
  cases hfile : res.hostsFile with
  | error errno =>
    refine .inr ⟨_, rfl, ?_⟩
    split_ifs <;> decide
  | ok file =>
    dsimp only
    cases hfind : (file.entries family).find? p with
    | some host => exact .inl ⟨host, file, rfl, rfl, List.mem_of_find?_eq_some hfind, List.find?_some hfind⟩
    | none =>
      refine .inr ⟨_, rfl, ?_⟩
      split_ifs
      · decide
      · exact file.ends_ne

/-- The lookups that remain call back once. -/
theorem nextLookup_serves (hname : Searchable cfg res.toDomains name)
    (hG : ∀ told, told.Gives (Source cfg res env events name family) call → G told) :
    ∀ (remaining : List UInt8) (hquery : HostQuery) (status : UInt32), hquery.For name family call →
      status ≠ ARES_SUCCESS → (nextLookup cfg res remaining hquery status).Serves (Credible cfg env events) G call
  | [], hquery, status, hfor, hs => endHquery_fails hG hfor hs
  | p :: remaining, hquery, statusCode, hfor, hs => by
    have hnext := nextLookup_serves hname hG remaining
    have hsearch : ∀ {family type}, HostQuery.Sent { hquery with sentFamily := some family } type →
        (aresSearch cfg res.toDomains hquery.name C_IN type
          (hostCallback cfg res (nextLookup cfg res remaining) { hquery with sentFamily := some family })).Serves
          (Credible cfg env events) G call := fun hsent =>
      aresSearch_serves (hfor.name ▸ hname) quits_hostCallback fun reply hsaid =>
        hostCallback_serves hname hG hnext _ reply (hfor.update _ _) hsent hsaid
    rw [nextLookup]
    by_cases hdns : p = 98
    · rw [if_pos hdns]
      split_ifs with hfamily
      · refine hsearch (.inet6 rfl ?_)
        rcases hfamily with h | h <;> rw [h] <;> decide
      · exact hsearch (.inet rfl (not_or.mp hfamily).1)
    rw [if_neg hdns]
    by_cases hhosts : p = 102
    · rw [if_pos hhosts]
      rcases lookupFile_cases res (hostNamed hquery.name) hquery.wantFamily with
        ⟨host, file, heq, hfile, hmem, hnamed⟩ | ⟨status, heq, hstatus⟩
      · rw [fileLookup, heq]
        exact endHquery_gives hG hfor ⟨host, rfl, .file hfile (hfor.wantFamily ▸ hmem) (hfor.name ▸ hnamed)⟩
      · rw [fileLookup, heq]
        dsimp only
        rw [if_neg hstatus]
        exact hnext hquery statusCode hfor hs
    · rw [if_neg hhosts]
      exact hnext hquery statusCode hfor hs

/-- The rule of `ares_gethostbyname`. -/
theorem aresGethostbyname_serves (hname : Searchable cfg res.toDomains name)
    (hG : ∀ told, told.Gives (Source cfg res env events name family) call → G told) :
    (aresGethostbyname cfg res name family call).Serves (Credible cfg env events) G call := by
  have hrefuse : ∀ status, status ≠ ARES_SUCCESS →
      (Client.tell ⟨call, status, 0, none⟩ .done).Serves (Credible cfg env events) G call :=
    fun status hs => ⟨rfl, hG _ (.not_success hs rfl), rfl⟩
  rw [aresGethostbyname]
  by_cases hfamily : family = AF_INET ∨ family = AF_INET6 ∨ family = AF_UNSPEC
  swap
  · rw [if_pos hfamily]
    exact hrefuse _ (by decide)
  rw [if_neg (not_not.mpr hfamily), fakeHostent]
  cases hliteral : literalOf res name family with
  | none =>
    refine serves_withMalloc (hrefuse _ (by decide)) (serves_withMalloc (hrefuse _ (by decide)) ?_)
    exact nextLookup_serves hname hG _ _ _ ⟨rfl, rfl, rfl⟩ (by decide)
  | some literal =>
    refine serves_withMalloc (hrefuse _ (by decide)) ⟨rfl, hG _ ⟨rfl, fun _ => ⟨_, rfl, .literal hliteral⟩, ?_⟩, rfl⟩
    exact fun h => absurd rfl h

end FakeDns.Channel
