import FakeDns.Dns.Records

/-! `ares_parse_a_reply` and `ares_parse_aaaa_reply`. The two bodies differ in the record
type, the size and family of an address, and in whether a reply with aliases and no
address counts as an answer. The addresses delivered are those of the records whose name
is, up to case, the one that the last alias record before them leads to: behind a chain of
aliases, those of its end. They fit the arrays that were allocated for `ancount` records.
Memory is there when the parsers ask for it; that it may not be is seen to where they are
called. -/

namespace FakeDns

open ByteMemory DomainName

def INT_MAX : Int := 2147483647

/-- What differs between the two parsers. -/
structure AddrKind where
  rrType : ℕ
  size : ℕ
  addrtype : UInt32
  noData : ℕ → ℕ → Bool

/-- A hostent as the parsers build it. -/
structure Hostent where
  hName : List UInt8
  hAliases : List (List UInt8)
  hAddrtype : UInt32
  hLength : ℕ
  hAddrList : List (List UInt8)

/-- `*host`, unless it was not asked for, and the first `*naddrttls` entries of `addrttls`. -/
structure AddrResult where
  host : Option Hostent
  addrttls : List (List UInt8 × Int)

/-- The variables of the loop. -/
structure AddrScan where
  aptr : ℕ
  hostname : List UInt8
  aliases : List (List UInt8)
  addrs : List (List UInt8)
  addrttls : List (List UInt8 × Int)
  naddrs : ℕ
  naliases : ℕ
  cnameTtl : Int

section

variable (k : AddrKind) (host : Bool) (maxAddrTtls ancount : ℕ) (abuf : List UInt8)

/-- `memcpy (&addrs[naddrs], aptr, sizeof (struct in_addr))`, when there is an array. -/
def storeAddr (rr : Rr) (st : AddrScan) : Outcome UInt32 AddrScan :=
  if host then
    if rr.data + k.size > abuf.length then .fail ARES_EBADRESP
    else if st.addrs.length < ancount then
      .ok { st with addrs := st.addrs ++ [(abuf.drop rr.data).take k.size] }
    else .fault
  else .ok st

/-- The same for `addrttls[naddrs]`. -/
def storeTtl (rr : Rr) (st : AddrScan) : Outcome UInt32 AddrScan :=
  if st.naddrs < maxAddrTtls then
    if rr.data + k.size > abuf.length then .fail ARES_EBADRESP
    else .ok { st with addrttls := st.addrttls ++ [((abuf.drop rr.data).take k.size, rr.ttl)] }
  else .ok st

/-- The body of the first `if`: an address record of the name asked about. -/
def takeAddr (rr : Rr) (st : AddrScan) : Outcome UInt32 AddrScan :=
  if rr.Has k.rrType ∧ rr.len = k.size ∧ sameName rr.name st.hostname then do
    let st ← storeAddr k host ancount abuf rr st
    let st ← storeTtl k maxAddrTtls abuf rr st
    .ok { st with naddrs := st.naddrs + 1 }
  else .ok st

/-- `aliases[naliases] = rr_name`; the array has one slot more than there are records. -/
def storeAlias (rr : Rr) (st : AddrScan) : Outcome UInt32 AddrScan :=
  if host then
    if st.aliases.length < ancount + 1 then .ok { st with aliases := st.aliases ++ [rr.name] } else .fault
  else .ok st

/-- The body of the second `if`: an alias record. -/
def takeCname (rr : Rr) (st : AddrScan) : Outcome UInt32 AddrScan :=
  if rr.Has T_CNAME then do
    let st ← storeAlias host ancount rr st
    let (rrData, _) ← aresExpandNameForResponse rr.data abuf
    .ok { st with
      naliases := st.naliases + 1
      hostname := rrData
      cnameTtl := if st.cnameTtl > rr.ttl then rr.ttl else st.cnameTtl }
  else .ok st

/-- One iteration of the loop. -/
def examineAddr (st : AddrScan) : Outcome UInt32 AddrScan := do
  let rr ← decodeRr abuf st.aptr
  let st ← takeAddr k host maxAddrTtls ancount abuf rr st
  let st ← takeCname host ancount abuf rr st
  if rr.data + rr.len > abuf.length then .fail ARES_EBADRESP
  else .ok { st with aptr := rr.data + rr.len }

/-- "Ensure that each A TTL is no larger than the CNAME TTL." -/
def capTtl (cnameTtl : Int) (at' : List UInt8 × Int) : List UInt8 × Int :=
  if at'.2 > cnameTtl then (at'.1, cnameTtl) else at'

end

/-- What the parsers do behind the loop. -/
def finishAddr (k : AddrKind) (host : Bool) (maxAddrTtls ancount : ℕ) (st : AddrScan) :
    Outcome UInt32 AddrResult :=
  if k.noData st.naddrs st.naliases then .fail ARES_ENODATA
  -- `aliases[naliases] = NULL`
  else if host ∧ ancount + 1 ≤ st.naliases then .fault
  else .ok {
    host := if host then some ⟨st.hostname, st.aliases, k.addrtype, k.size, st.addrs⟩ else none
    addrttls := (st.addrttls.take (min st.naddrs maxAddrTtls)).map (capTtl st.cnameTtl) }

/-- The common body of the two parsers. -/
def parseAddrReply (k : AddrKind) (host : Bool) (maxAddrTtls : ℕ) (abuf : List UInt8) :
    Outcome UInt32 AddrResult := do
  let (hostname, aptr, ancount) ← decodeQuestion abuf
  let st ← forRecords (examineAddr k host maxAddrTtls ancount abuf) ancount
    ⟨aptr, hostname, [], [], [], 0, 0, INT_MAX⟩
  finishAddr k host maxAddrTtls ancount st

/-- An answer with aliases and no address is not an error. -/
def kindA : AddrKind := ⟨T_A, sizeofInAddr, AF_INET, fun naddrs naliases => naddrs == 0 && naliases == 0⟩

def kindAaaa : AddrKind := ⟨T_AAAA, sizeofIn6Addr, AF_INET6, fun naddrs _ => naddrs == 0⟩

/-- `ares_parse_a_reply` -/
def aresParseAReply (abuf : List UInt8) (host : Bool) (naddrttls : ℕ) : Outcome UInt32 AddrResult :=
  parseAddrReply kindA host naddrttls abuf

/-- `ares_parse_aaaa_reply` -/
def aresParseAaaaReply (abuf : List UInt8) (host : Bool) (naddrttls : ℕ) : Outcome UInt32 AddrResult :=
  parseAddrReply kindAaaa host naddrttls abuf

/-! ### What a reply says -/

section

variable (k : AddrKind) (host : Bool) (maxAddrTtls ancount : ℕ) (abuf q : List UInt8)

/-- An address record of the name that is asked about behind the records `before`. -/
def addressAt (before : List Rr) (rr : Rr) : Option (List UInt8 × Int) :=
  if rr.Has k.rrType ∧ rr.len = k.size ∧ sameName rr.name (current abuf q before) then
    some (rr.bytes abuf, rr.ttl)
  else none

/-- The addresses of a reply, with their times to live. -/
def addresses (rrs : List Rr) : List (List UInt8 × Int) := collect (addressAt k abuf q) rrs

/-- The smallest time to live of the alias records. -/
def cnameTtl (rrs : List Rr) : Int := ((aliases rrs).map Rr.ttl).foldl min INT_MAX

/-- What the parser delivers for the question `q` and the records `rrs`. No time to live is
longer than that of an alias record. -/
def addrResult (rrs : List Rr) : AddrResult where
  host := if host then some {
    hName := current abuf q rrs
    hAliases := (aliases rrs).map Rr.name
    hAddrtype := k.addrtype
    hLength := k.size
    hAddrList := (addresses k abuf q rrs).map Prod.fst } else none
  addrttls := ((addresses k abuf q rrs).take maxAddrTtls).map fun a => (a.1, min a.2 (cnameTtl rrs))

/-- The state of the loop behind the records `done`. -/
def addrScan (done : List Rr) (p : ℕ) : AddrScan where
  aptr := p
  hostname := current abuf q done
  aliases := if host then (aliases done).map Rr.name else []
  addrs := if host then (addresses k abuf q done).map Prod.fst else []
  addrttls := (addresses k abuf q done).take maxAddrTtls
  naddrs := (addresses k abuf q done).length
  naliases := (aliases done).length
  cnameTtl := cnameTtl done

end

section

variable {k : AddrKind} {host : Bool} {maxAddrTtls ancount : ℕ} {abuf q : List UInt8} {done : List Rr} {rr : Rr}
  {p : ℕ}

theorem addresses_concat (done : List Rr) (rr : Rr) :
    addresses k abuf q (done ++ [rr]) = addresses k abuf q done ++ (addressAt k abuf q done rr).toList :=
  collect_concat _ done rr

theorem cnameTtl_concat (done : List Rr) (rr : Rr) :
    cnameTtl (done ++ [rr]) = if rr.Has T_CNAME then min (cnameTtl done) rr.ttl else cnameTtl done := by
  rw [cnameTtl, aliases_concat]
  split_ifs
  · simp [cnameTtl]
  · rw [List.append_nil, cnameTtl]

theorem storeAddr_eq {st : AddrScan} (hin : rr.data + k.size ≤ abuf.length) (hcap : st.addrs.length < ancount) :
    storeAddr k host ancount abuf rr st =
      .ok { st with addrs := if host then st.addrs ++ [(abuf.drop rr.data).take k.size] else st.addrs } := by
  rw [storeAddr, if_neg (not_lt.mpr hin), if_pos hcap]
  cases host <;> rfl

theorem storeTtl_eq {st : AddrScan} (hin : rr.data + k.size ≤ abuf.length) :
    storeTtl k maxAddrTtls abuf rr st =
      .ok { st with addrttls := if st.naddrs < maxAddrTtls
        then st.addrttls ++ [((abuf.drop rr.data).take k.size, rr.ttl)] else st.addrttls } := by
  rw [storeTtl, if_neg (not_lt.mpr hin)]
  split_ifs <;> rfl

/-- The state behind the first `if`, for a record that lies inside the message. -/
def addAddr (k : AddrKind) (host : Bool) (maxAddrTtls : ℕ) (abuf : List UInt8) (rr : Rr) (st : AddrScan) :
    AddrScan :=
  if rr.Has k.rrType ∧ rr.len = k.size ∧ sameName rr.name st.hostname then
    { st with
      addrs := if host then st.addrs ++ [rr.bytes abuf] else st.addrs
      addrttls := if st.naddrs < maxAddrTtls then st.addrttls ++ [(rr.bytes abuf, rr.ttl)] else st.addrttls
      naddrs := st.naddrs + 1 }
  else st

/-- The state behind the second `if`, for an alias whose data is a name or another record. -/
def addCname (host : Bool) (abuf : List UInt8) (rr : Rr) (st : AddrScan) : AddrScan :=
  if rr.Has T_CNAME then
    { st with
      aliases := if host then st.aliases ++ [rr.name] else st.aliases
      naliases := st.naliases + 1
      hostname := (rr.target abuf).getD st.hostname
      cnameTtl := min st.cnameTtl rr.ttl }
  else st

theorem addAddr_aliases (st : AddrScan) : (addAddr k host maxAddrTtls abuf rr st).aliases = st.aliases := by
  rw [addAddr]
  split_ifs <;> rfl

theorem takeAddr_eq {st : AddrScan} (hin : rr.data + rr.len ≤ abuf.length) (hcap : st.addrs.length < ancount) :
    takeAddr k host maxAddrTtls ancount abuf rr st = .ok (addAddr k host maxAddrTtls abuf rr st) := by
  rw [takeAddr, addAddr]
  by_cases hm : rr.Has k.rrType ∧ rr.len = k.size ∧ sameName rr.name st.hostname = true
  · have hsize : rr.data + k.size ≤ abuf.length := hm.2.1 ▸ hin
    rw [if_pos hm, if_pos hm, storeAddr_eq hsize hcap, Outcome.bind_ok, storeTtl_eq hsize, Outcome.bind_ok, ← hm.2.1]
    rfl
  · rw [if_neg hm, if_neg hm]

theorem takeCname_eq (hsize : abuf.length < 2 ^ 22) {st : AddrScan} (hcap : st.aliases.length < ancount + 1)
    (ht : rr.Has T_CNAME → (rr.target abuf).isSome) (hd : rr.data ≤ abuf.length) :
    takeCname host ancount abuf rr st = .ok (addCname host abuf rr st) := by
  rw [takeCname, addCname]
  by_cases hc : rr.Has T_CNAME
  · rw [if_pos hc, if_pos hc]
    rcases Rr.target_cases hsize hd with ⟨hnone, -⟩ | ⟨s, w, hs, he⟩
    · have := ht hc
      rw [hnone] at this
      cases this
    · rw [storeAlias, if_pos hcap, he, hs]
      have hmin : (if st.cnameTtl > rr.ttl then rr.ttl else st.cnameTtl) = min st.cnameTtl rr.ttl := by
        split_ifs <;> omega
      cases host <;> simp [hmin]
  · rw [if_neg hc, if_neg hc]

/-- What happens to any other record: an error, not a fault. -/
theorem takeAddr_safe {st : AddrScan} (hcap : st.addrs.length < ancount) :
    takeAddr k host maxAddrTtls ancount abuf rr st = .fail ARES_EBADRESP ∨
      ∃ st', takeAddr k host maxAddrTtls ancount abuf rr st = .ok st' ∧ st'.aliases = st.aliases := by
  rw [takeAddr]
  split_ifs
  · by_cases hin : rr.data + k.size ≤ abuf.length
    · rw [storeAddr_eq hin hcap, Outcome.bind_ok, storeTtl_eq hin]
      exact .inr ⟨_, rfl, rfl⟩
    · cases host with
      | true =>
        rw [storeAddr, if_pos rfl, if_pos (not_le.mp hin)]
        exact .inl rfl
      | false =>
        rw [show storeAddr k false ancount abuf rr st = .ok st from rfl, Outcome.bind_ok, storeTtl,
          if_pos (not_le.mp hin)]
        split_ifs
        · exact .inl rfl
        · exact .inr ⟨_, rfl, rfl⟩
  · exact .inr ⟨_, rfl, rfl⟩

theorem takeCname_safe (hsize : abuf.length < 2 ^ 22) {st : AddrScan} (hcap : st.aliases.length < ancount + 1)
    (hd : rr.data ≤ abuf.length) :
    takeCname host ancount abuf rr st = .fail ARES_EBADRESP ∨
      ∃ st', takeCname host ancount abuf rr st = .ok st' ∧ (rr.Has T_CNAME → (rr.target abuf).isSome) := by
  rw [takeCname]
  split_ifs with hc
  · rcases Rr.target_cases hsize hd with ⟨-, he⟩ | ⟨s, w, hs, he⟩
    · left
      rw [storeAlias, if_pos hcap, he]
      cases host <;> rfl
    · right
      rw [storeAlias, if_pos hcap, he, hs]
      cases host <;> exact ⟨_, rfl, fun _ => rfl⟩
  · exact .inr ⟨_, rfl, fun h => absurd h hc⟩

theorem take_concat {α : Type*} (xs : List α) (x : α) (n : ℕ) :
    (xs ++ [x]).take n = if xs.length < n then xs.take n ++ [x] else xs.take n := by
  rw [List.take_append]
  split_ifs with h
  · rw [List.take_of_length_le (show [x].length ≤ n - xs.length by rw [List.length_singleton]; omega)]
  · rw [Nat.sub_eq_zero_of_le (not_lt.mp h), List.take_zero, List.append_nil]

theorem addAddr_addrScan (done : List Rr) (p : ℕ) :
    addAddr k host maxAddrTtls abuf rr (addrScan k host maxAddrTtls abuf q done p) =
      { addrScan k host maxAddrTtls abuf q done p with
        addrs := (addrScan k host maxAddrTtls abuf q (done ++ [rr]) p).addrs
        addrttls := (addrScan k host maxAddrTtls abuf q (done ++ [rr]) p).addrttls
        naddrs := (addrScan k host maxAddrTtls abuf q (done ++ [rr]) p).naddrs } := by
  rw [addAddr, show (addrScan k host maxAddrTtls abuf q done p).hostname = current abuf q done from rfl]
  by_cases hm : rr.Has k.rrType ∧ rr.len = k.size ∧ sameName rr.name (current abuf q done) = true
  · have hadd : addresses k abuf q (done ++ [rr]) = addresses k abuf q done ++ [(rr.bytes abuf, rr.ttl)] := by
      rw [addresses_concat, addressAt, if_pos hm, Option.toList_some]
    simp only [if_pos hm, addrScan, hadd, take_concat, List.map_append, List.map_singleton, List.length_append,
      List.length_singleton]
    cases host <;> rfl
  · have hadd : addresses k abuf q (done ++ [rr]) = addresses k abuf q done := by
      rw [addresses_concat, addressAt, if_neg hm, Option.toList_none, List.append_nil]
    simp only [if_neg hm, addrScan, hadd]

/-- The two `if`s together take the state to that for the longer list of records. -/
theorem addrScan_concat (ht : rr.Has T_CNAME → (rr.target abuf).isSome) (done : List Rr) (p p' : ℕ) :
    { addCname host abuf rr (addAddr k host maxAddrTtls abuf rr (addrScan k host maxAddrTtls abuf q done p)) with
      aptr := p' } = addrScan k host maxAddrTtls abuf q (done ++ [rr]) p' := by
  rw [addAddr_addrScan]
  by_cases hc : rr.Has T_CNAME
  · obtain ⟨s, hs⟩ := Option.isSome_iff_exists.mp (ht hc)
    simp only [addCname, addrScan, aliases_concat, current_concat, cnameTtl_concat, if_pos hc, hs, Option.getD_some]
    cases host <;> simp
  · simp only [addCname, addrScan, aliases_concat, current_concat, cnameTtl_concat, if_neg hc, List.append_nil]

/-- One iteration takes one record in order: the state behind it is the state for the longer
list of records. -/
theorem examineAddr_takes (hsize : abuf.length < 2 ^ 22) :
    TakesRecord abuf (fun _ rr => rr.Has T_CNAME) ancount (examineAddr k host maxAddrTtls ancount abuf)
    (addrScan k host maxAddrTtls abuf q) := by
  intro done p hp hcap
  have haddrs : (addrScan k host maxAddrTtls abuf q done p).addrs.length < ancount := by
    have := length_collect_le (addressAt k abuf q) done
    cases host with
    | true =>
      show ((addresses k abuf q done).map Prod.fst).length < ancount
      rw [List.length_map, addresses]
      omega
    | false => exact Nat.zero_lt_of_lt hcap
  have haliases : (addrScan k host maxAddrTtls abuf q done p).aliases.length < ancount + 1 := by
    have := length_aliases_le done
    cases host with
    | true =>
      show ((aliases done).map Rr.name).length < ancount + 1
      rw [List.length_map]
      omega
    | false => exact Nat.succ_pos _
  rw [examineAddr, show (addrScan k host maxAddrTtls abuf q done p).aptr = p from rfl]
  rcases decodeRr_cases hsize hp with he | ⟨rr, he, -, hd⟩
  · right
    refine ⟨?_, by rw [he, Outcome.bind_fail]⟩
    rintro ⟨rr, hr⟩
    cases he.symm.trans hr.decode
  rw [he, Outcome.bind_ok]
  by_cases hin : rr.data + rr.len ≤ abuf.length ∧ (rr.Has T_CNAME → (rr.target abuf).isSome)
  · left
    refine ⟨rr, ⟨he, hin.1, hin.2⟩, ?_⟩
    rw [takeAddr_eq hin.1 haddrs, Outcome.bind_ok, takeCname_eq hsize (by rwa [addAddr_aliases]) hin.2 hd,
      Outcome.bind_ok, if_neg (not_lt.mpr hin.1), addrScan_concat hin.2]
  · right
    constructor
    · rintro ⟨rr', hr⟩
      obtain rfl := Outcome.ok.inj (he.symm.trans hr.decode)
      exact hin ⟨hr.data_le, hr.target⟩
    · rcases takeAddr_safe haddrs with hfail | ⟨st, hok, hsame⟩
      · rw [hfail, Outcome.bind_fail]
      rw [hok, Outcome.bind_ok]
      rcases takeCname_safe hsize (hsame ▸ haliases) hd with hfail | ⟨st', hok', htarget⟩
      · rw [hfail, Outcome.bind_fail]
      rw [hok', Outcome.bind_ok, if_pos (not_le.mp fun hle => hin ⟨hle, htarget⟩)]

theorem capTtl_eq (c : Int) (a : List UInt8 × Int) : capTtl c a = (a.1, min a.2 c) := by
  rw [capTtl]
  split_ifs with h
  · rw [min_eq_right (le_of_lt h)]
  · rw [min_eq_left (not_lt.mp h)]

/-- The loop takes the records in order, or comes to one that is malformed. -/
theorem parseAddrReply_eq (k : AddrKind) (host : Bool) (maxAddrTtls : ℕ) (hsize : abuf.length < 2 ^ 22) :
    (∃ q rrs p', Says abuf (fun _ rr => rr.Has T_CNAME) q rrs ∧ parseAddrReply k host maxAddrTtls abuf =
      finishAddr k host maxAddrTtls rrs.length (addrScan k host maxAddrTtls abuf q rrs p')) ∨
    ((¬ ∃ q rrs, Says abuf (fun _ rr => rr.Has T_CNAME) q rrs) ∧
      parseAddrReply k host maxAddrTtls abuf = .fail ARES_EBADRESP) := by
  have hinit : ∀ q p, (⟨p, q, [], [], [], 0, 0, INT_MAX⟩ : AddrScan) =
      addrScan k host maxAddrTtls abuf q [] p := by
    intro q p
    cases host <;> simp [addrScan, addresses, aliases, current, cnameTtl]
  rw [parseAddrReply]
  exact reply_cases hsize (finishAddr k host maxAddrTtls) (fun q n => examineAddr_takes hsize (q := q)) hinit

/-- There is room for the `NULL` behind the aliases. -/
theorem aliases_fit (rrs : List Rr) : ¬ (host = true ∧ rrs.length + 1 ≤ (aliases rrs).length) := by
  have := length_aliases_le rrs
  omega

/-- A reply gives a hostent, or an error. -/
theorem parseAddrReply_ends (k : AddrKind) (maxAddrTtls : ℕ) (hsize : abuf.length < 2 ^ 22) :
    (∃ r host, parseAddrReply k true maxAddrTtls abuf = .ok r ∧ r.host = some host) ∨
      ∃ status, parseAddrReply k true maxAddrTtls abuf = .fail status ∧
        (status = ARES_ENODATA ∨ status = ARES_EBADRESP) := by
  rcases parseAddrReply_eq k true maxAddrTtls hsize with ⟨q, rrs, p', -, he⟩ | ⟨-, he⟩
  · rw [he, finishAddr, if_neg (show ¬ (true = true ∧ _ ≤ (addrScan k true maxAddrTtls abuf q rrs p').naliases) from
      aliases_fit rrs)]
    split
    · exact .inr ⟨_, rfl, .inl rfl⟩
    · exact .inl ⟨_, _, rfl, rfl⟩
  · exact .inr ⟨_, he, .inr rfl⟩

/-- Behind a chain of aliases, the addresses are those of the name at its end. -/
theorem addresses_of_leads {c : List UInt8} {cs rrs : List Rr} (hk : k.rrType ≠ T_CNAME) (h : Leads abuf q cs c)
    (hrrs : ∀ rr ∈ rrs, ¬ rr.Has T_CNAME) :
    addresses k abuf q (cs ++ rrs) =
      (rrs.filter fun rr => rr.Has k.rrType ∧ rr.len = k.size ∧ sameName rr.name c).map fun rr =>
        (rr.bytes abuf, rr.ttl) := by
  have hchain : addresses k abuf q cs = [] := collect_eq_nil fun before rr hrr =>
    if_neg fun h' => hk (h'.1.2.symm.trans (h.has rr hrr).2)
  rw [addresses, collect_append_eq (g := fun rr => if rr.Has k.rrType ∧ rr.len = k.size ∧ sameName rr.name c then
    some (rr.bytes abuf, rr.ttl) else none) hchain rrs]
  · rw [← List.filterMap_eq_map, List.filterMap_filter]
    refine List.filterMap_congr fun rr _ => ?_
    simp only [decide_eq_true_eq]
    rfl
  · intro before rr hpre
    rw [addressAt, h.current_eq fun r hr => hrrs r (hpre.subset (List.mem_append_left _ hr))]

/-- Both parsers read inside the message, write inside their arrays and come to an end: they
turn a malformed reply away, and deliver what any other reply says. If it begins with a chain
of aliases and has no other, it says the addresses of the name at the end of the chain. -/
theorem parseAddrReply_cases (k : AddrKind) (host : Bool) (maxAddrTtls : ℕ) (hk : k.rrType ≠ T_CNAME)
    (hsize : abuf.length < 2 ^ 22) :
    (∃ q rrs, Says abuf (fun _ rr => rr.Has T_CNAME) q rrs ∧
      parseAddrReply k host maxAddrTtls abuf =
        (if k.noData (addresses k abuf q rrs).length (aliases rrs).length then .fail ARES_ENODATA
        else .ok (addrResult k host maxAddrTtls abuf q rrs)) ∧
      ∀ cs as c, rrs = cs ++ as → Leads abuf q cs c → (∀ rr ∈ as, ¬ rr.Has T_CNAME) →
        addresses k abuf q rrs =
          (as.filter fun rr => rr.Has k.rrType ∧ rr.len = k.size ∧ sameName rr.name c).map fun rr =>
            (rr.bytes abuf, rr.ttl)) ∨
    ((¬ ∃ q rrs, Says abuf (fun _ rr => rr.Has T_CNAME) q rrs) ∧
      parseAddrReply k host maxAddrTtls abuf = .fail ARES_EBADRESP) := by
  rcases parseAddrReply_eq k host maxAddrTtls hsize with ⟨q, rrs, p', hsays, he⟩ | hno
  · left
    refine ⟨q, rrs, hsays, he.trans ?_, ?_⟩
    · have httls : ∀ xs : List (List UInt8 × Int), (xs.take maxAddrTtls).take (min xs.length maxAddrTtls) =
          xs.take maxAddrTtls := fun xs => List.take_of_length_le (by rw [List.length_take, min_comm])
      simp only [finishAddr, addrScan, httls]
      rw [if_neg (aliases_fit rrs), addrResult, List.map_congr_left fun a _ => capTtl_eq (cnameTtl rrs) a]
      cases host <;> rfl
    · rintro cs as c rfl h has
      exact addresses_of_leads hk h has
  · exact .inr hno

end

/-- A reply about "a" with an alias to "b" and an address of "b". -/
def aliasReply : List UInt8 :=
  [0, 7, 129, 128, 0, 1, 0, 2, 0, 0, 0, 0, 1, 97, 0, 0, 1, 0, 1,
    1, 97, 0, 0, 5, 0, 1, 0, 0, 0, 60, 0, 3, 1, 98, 0,
    1, 98, 0, 0, 1, 0, 1, 0, 0, 0, 90, 0, 4, 10, 0, 0, 1]

/-- The address is that of the alias, for as long as the alias lives. -/
theorem parseAddrReply_sample : ∃ q rrs, Says aliasReply (fun _ rr => rr.Has T_CNAME) q rrs ∧
    parseAddrReply kindA true 5 aliasReply = .ok (addrResult kindA true 5 aliasReply q rrs) ∧
    (addrResult kindA true 5 aliasReply q rrs).addrttls = [([10, 0, 0, 1], 60)] := by
  have httls : (parseAddrReply kindA true 5 aliasReply >>= fun r => .ok r.addrttls) = .ok [([10, 0, 0, 1], 60)] := by
    decide +kernel
  rcases parseAddrReply_cases kindA true 5 (by decide) (show aliasReply.length < 2 ^ 22 by decide) with
    ⟨q, rrs, hsays, he, -⟩ | ⟨-, he⟩
  · rw [he] at httls
    split_ifs at httls with hno
    · cases httls
    · exact ⟨q, rrs, hsays, he.trans (if_neg hno), Outcome.ok.inj httls⟩
  · rw [he] at httls
    cases httls

end FakeDns
