import FakeDns.Channel.Serves
import FakeDns.Dns.Mkquery

/-! `ares_query` and `ares_search` as clients of a channel. A query is composed and sent; a
search asks for one name after another, the name as it is and the name in each of the search
domains, until an answer is final. -/

namespace FakeDns.Channel

open ByteMemory DomainName

def ARES_EOF : UInt32 := 13
def ARES_EFILE : UInt32 := 14

def ARES_FLAG_NORECURSE : UInt32 := 8
def ARES_FLAG_NOSEARCH : UInt32 := 32
def ARES_FLAG_NOALIASES : UInt32 := 64

/-- `DNS_HEADER_ANCOUNT` -/
def headerAncount (h : List UInt8) : Outcome UInt32 ℕ := dns16 h 6

/-- What a search reads of the channel and of the system: the search domains, and the file
that `HOSTALIASES` names, if it is there: its lines and how reading them ends, or none if it
cannot be read. -/
structure Domains where
  ndots : ℕ
  domains : List (List UInt8)
  hostaliases : Option (Option (List (List UInt8) × UInt32))

section

variable (cfg : Config) (dom : Domains)

/-- "Convert errors." -/
def convertError (status : UInt32) (rcode ancount : ℕ) : UInt32 :=
  if rcode = NOERROR then if ancount > 0 then ARES_SUCCESS else ARES_ENODATA
  else if rcode = FORMERR then ARES_EFORMERR
  else if rcode = SERVFAIL then ARES_ESERVFAIL
  else if rcode = NXDOMAIN then ARES_ENOTFOUND
  else if rcode = NOTIMP then ARES_ENOTIMP
  else if rcode = REFUSED then ARES_EREFUSED
  else status

/-- The response code and the answer count of a packet. -/
def answerCounts (abuf : List UInt8) : Outcome UInt32 (ℕ × ℕ) := do
  let rcode ← headerRcode abuf
  let ancount ← headerAncount abuf
  .ok (rcode, ancount)

/-- `qcallback` -/
def qcallback (callback : Reply → Client) (reply : Reply) : Client :=
  if reply.status ≠ ARES_SUCCESS then callback reply
  else
    match answerCounts reply.abuf with
    | .ok (rcode, ancount) => callback { reply with status := convertError reply.status rcode ancount }
    | _ => .stray

/-- Go on if memory can be allocated. -/
def withMalloc (nomem next : Client) : Client := .alloc fun ok => if ok then next else nomem

/-- `ares_query`. The id is the channel's next one; what the buffer has room for behind the
query is not initialised. -/
def aresQuery (name : List UInt8) (dnsclass type : ℕ) (callback : Reply → Client) : Client :=
  let refuse := fun status => callback ⟨status, 0, []⟩
  if queryNameLen name > MAXCDNAME then refuse ARES_EBADNAME
  else
    withMalloc (refuse ARES_ENOMEM) <| .draw fun id =>
      match aresMkquery name dnsclass type (id % 65536) (¬ cfg.has ARES_FLAG_NORECURSE) with
      | .ok (qbuf, qlen) => .draw fun junk =>
        withMalloc (refuse ARES_ENOMEM) <|
          .ask (qbuf ++ List.replicate (qlen - qbuf.length) (UInt8.ofNat junk)) (qcallback callback) .done
      | .fail status => refuse status
      | .fault => .stray

/-! ### Searches -/

/-- `struct search_query`, with the search domains that are left to try. -/
structure SearchQuery where
  statusAsIs : Option UInt32
  domains : List (List UInt8)
  tryingAsIs : Bool
  timeouts : ℕ
  everGotNodata : Bool

/-- `cat_domain` -/
def catDomain (name domain : List UInt8) : List UInt8 := name ++ 46 :: domain

/-- `end_squery` -/
def endSquery (callback : Reply → Client) (squery : SearchQuery) (status : UInt32) (abuf : List UInt8) : Client :=
  callback ⟨status, squery.timeouts, abuf⟩

/-- What `search_callback` keeps of a reply that does not end the search. -/
def SearchQuery.note (squery : SearchQuery) (status : UInt32) : SearchQuery :=
  { squery with
    statusAsIs := if squery.tryingAsIs then some status else squery.statusAsIs
    everGotNodata := squery.everGotNodata || status = ARES_ENODATA }

/-- The errors that do not end a search. -/
def NonFatal (status : UInt32) : Prop := status = ARES_ENODATA ∨ status = ARES_ESERVFAIL ∨ status = ARES_ENOTFOUND

instance (status : UInt32) : Decidable (NonFatal status) := inferInstanceAs (Decidable (_ ∨ _))

/-- `search_callback` -/
def searchCallback (name : List UInt8) (dnsclass type : ℕ) (callback : Reply → Client) (squery : SearchQuery)
    (reply : Reply) : Client :=
  let timeouts := squery.timeouts + reply.timeouts
  if ¬ NonFatal reply.status then endSquery callback { squery with timeouts := timeouts } reply.status reply.abuf
  else
    let noted := { squery.note reply.status with timeouts := timeouts }
    match _hdomains : squery.domains with
    | domain :: domains =>
      withMalloc (endSquery callback noted ARES_ENOMEM []) <|
        aresQuery cfg (catDomain name domain) dnsclass type
          (searchCallback name dnsclass type callback { noted with tryingAsIs := false, domains := domains })
    | [] =>
      match _hstatus : (squery.note reply.status).statusAsIs with
      | none =>
        aresQuery cfg name dnsclass type (searchCallback name dnsclass type callback { noted with tryingAsIs := true })
      | some status =>
        if status = ARES_ENOTFOUND ∧ noted.everGotNodata then endSquery callback noted ARES_ENODATA []
        else endSquery callback noted status []
termination_by (squery.domains.length, if squery.tryingAsIs then 0 else 1)
decreasing_by
  · rw [_hdomains]
    exact Prod.Lex.left _ _ (Nat.lt_succ_self _)
  · have htrying : squery.tryingAsIs = false := by
      by_contra htrying
      rw [SearchQuery.note, if_pos (eq_true_of_ne_false htrying)] at _hstatus
      cases _hstatus
    rw [htrying]
    exact Prod.Lex.right _ Nat.one_pos

/-- The alias that a line of the file gives for a name. -/
def aliasIn (name line : List UInt8) : Option (List UInt8) :=
  if strncaseeq line name name.length ∧ ((line.drop name.length).head?.any isspace) then
    match (line.drop name.length).dropWhile isspace with
    | [] => none
    | c :: cs => some (c :: cs.takeWhile fun c => ¬ isspace c)
  else none

/-- "The name might be a host alias." -/
def hostAlias (name : List UInt8) : Except UInt32 (Option (List UInt8)) :=
  if cfg.has ARES_FLAG_NOALIASES ∨ 46 ∈ name then .ok none
  else
    match dom.hostaliases with
    | none => .ok none
    | some none => .error ARES_EFILE
    | some (some (lines, status)) =>
      match lines.findSome? (aliasIn name) with
      | some s => .ok (some s)
      | none => if status ≠ ARES_SUCCESS ∧ status ≠ ARES_EOF then .error status else .ok none

/-- `single_domain`: `next` gets what it returns. It looks at the last byte of the name, which
an empty name does not have. -/
def singleDomain (name : List UInt8) (next : Except UInt32 (Option (List UInt8)) → Client) : Client :=
  let copy := fun s => withMalloc (next (.error ARES_ENOMEM)) (next (.ok (some s)))
  match name.getLast? with
  | none => .stray
  | some c =>
    if c = 46 then copy name
    else
      match hostAlias cfg dom name with
      | .error status => next (.error status)
      | .ok (some s) => copy s
      | .ok none => if cfg.has ARES_FLAG_NOSEARCH ∨ dom.domains = [] then copy name else next (.ok none)

/-- `ares_search`, for a name that yields more than one query. -/
def searchDomains (name : List UInt8) (dnsclass type : ℕ) (callback : Reply → Client) : Client :=
  let refuse := fun status => callback ⟨status, 0, []⟩
  withMalloc (refuse ARES_ENOMEM) <| withMalloc (refuse ARES_ENOMEM) <|
    if name.count 46 ≥ dom.ndots then
      -- "Try the name as-is first."
      aresQuery cfg name dnsclass type
        (searchCallback cfg name dnsclass type callback ⟨none, dom.domains, true, 0, false⟩)
    else
      match dom.domains with
      | [] => .stray
      | domain :: domains =>
        withMalloc (refuse ARES_ENOMEM) <|
          aresQuery cfg (catDomain name domain) dnsclass type
            (searchCallback cfg name dnsclass type callback ⟨none, domains, false, 0, false⟩)

/-- `ares_search` -/
def aresSearch (name : List UInt8) (dnsclass type : ℕ) (callback : Reply → Client) : Client :=
  singleDomain cfg dom name fun
    | .error status => callback ⟨status, 0, []⟩
    | .ok (some s) => aresQuery cfg s dnsclass type callback
    | .ok none => searchDomains cfg dom name dnsclass type callback

end

/-! ### What a search delivers -/

/-- The names that a search asks for. -/
inductive Asks (cfg : Config) (dom : Domains) (name : List UInt8) : List UInt8 → Prop
  | asIs : Asks cfg dom name name
  | hostAlias {s} (h : hostAlias cfg dom name = .ok (some s)) : Asks cfg dom name s
  | domain {d} (h : d ∈ dom.domains) : Asks cfg dom name (catDomain name d)

/-- The name has a last byte, and `ares_mkquery` has room for all that is asked. -/
structure Searchable (cfg : Config) (dom : Domains) (name : List UInt8) : Prop where
  ne_nil : name ≠ []
  room : ∀ {s}, Asks cfg dom name s → ¬ (Accepted s ∧ EndsEscapedDot s)

/-- A query for the name was asked, and a server answered it with `abuf`. What may stand behind
the question was not initialised. -/
def Said (cfg : Config) (env : Env) (events : List Event) (name : List UInt8) (dnsclass type : ℕ)
    (abuf : List UInt8) : Prop :=
  ∃ q id qbuf qlen junk, id < 65536 ∧
    aresMkquery name dnsclass type id (¬ cfg.has ARES_FLAG_NORECURSE) = .ok (qbuf, qlen) ∧
    Replied cfg env events q (qbuf ++ junk) abuf

/-- What is called back when the channel is destroyed sends nothing more. -/
def Quits (callback : Reply → Client) : Prop := ∀ timeouts, (callback ⟨ARES_EDESTRUCTION, timeouts, []⟩).Quiet

variable {cfg : Config} {dom : Domains} {env : Env} {events : List Event} {name s : List UInt8} {dnsclass type call : ℕ}
  {callback : Reply → Client} {reply : Reply} {G : Told → Prop} {abuf : List UInt8} {squery : SearchQuery}

/-- An answer is short enough for the parsers. -/
theorem Said.length_lt (h : Said cfg env events name dnsclass type abuf) : abuf.length < 2 ^ 22 := by
  obtain ⟨_, _, _, _, _, -, -, hreplied⟩ := h
  exact hreplied.length_lt.trans (by decide)

theorem hostAlias_ne_success {status : UInt32} (h : hostAlias cfg dom name = .error status) :
    status ≠ ARES_SUCCESS := by
  rw [hostAlias] at h
  split_ifs at h
  split at h
  · cases h
  · cases h
    decide
  · split at h
    · cases h
    · split_ifs at h with hs
      cases h
      exact hs.1

theorem serves_withMalloc {R : List UInt8 → Reply → Prop} {nomem next : Client} (hnomem : nomem.Serves R G call)
    (hnext : next.Serves R G call) : (withMalloc nomem next).Serves R G call
  | true => hnext
  | false => hnomem

theorem answerCounts_ok (h : HFIXEDSZ ≤ abuf.length) : ∃ rcode ancount, answerCounts abuf = .ok (rcode, ancount) := by
  have h12 : HFIXEDSZ = 12 := rfl
  rw [answerCounts, headerRcode, headerAncount, byteAt_of_lt (by omega), dns16_of_lt (by omega)]
  exact ⟨_, _, rfl⟩

theorem quits_qcallback (h : Quits callback) : Quits (qcallback callback) := by
  intro timeouts
  have hstatus : ARES_EDESTRUCTION ≠ ARES_SUCCESS := by decide
  rw [qcallback, if_pos hstatus]
  exact h timeouts

theorem quits_searchCallback (h : Quits callback) :
    Quits (searchCallback cfg name dnsclass type callback squery) := by
  intro timeouts
  have hfatal : ¬ NonFatal ARES_EDESTRUCTION := by decide
  rw [searchCallback, if_pos hfatal]
  exact h _

theorem qcallback_serves {R : List UInt8 → Reply → Prop}
    (hcallback : ∀ reply, (reply.status = ARES_SUCCESS → Said cfg env events name dnsclass type reply.abuf) →
      (callback reply).Serves R G call)
    (h : reply.status = ARES_SUCCESS → Said cfg env events name dnsclass type reply.abuf) :
    (qcallback callback reply).Serves R G call := by
  rw [qcallback]
  split_ifs with hstatus
  · exact hcallback reply h
  · have hsaid := h (not_not.mp hstatus)
    have hlen : HFIXEDSZ ≤ reply.abuf.length := by
      obtain ⟨_, _, _, _, _, -, -, -, _, _, _, -, hanswers⟩ := hsaid
      exact hanswers.length
    obtain ⟨rcode, ancount, hcounts⟩ := answerCounts_ok hlen
    rw [hcounts]
    exact hcallback _ fun _ => hsaid

/-- A query calls back once, if the name does not need more room than the buffer has. -/
theorem aresQuery_serves (hroom : ¬ (Accepted name ∧ EndsEscapedDot name)) (hquit : Quits callback)
    (hcallback : ∀ reply, (reply.status = ARES_SUCCESS → Said cfg env events name dnsclass type reply.abuf) →
      (callback reply).Serves (Credible cfg env events) G call) :
    (aresQuery cfg name dnsclass type callback).Serves (Credible cfg env events) G call := by
  have hrefuse : ∀ status, status ≠ ARES_SUCCESS → (callback ⟨status, 0, []⟩).Serves (Credible cfg env events) G call :=
    fun status hs => hcallback _ fun h => absurd h hs
  rw [aresQuery]
  split_ifs with hlen
  · exact hrefuse _ (by decide)
  refine serves_withMalloc (hrefuse _ (by decide)) fun id => ?_
  dsimp only
  cases hq : aresMkquery name dnsclass type (id % 65536) (¬ cfg.has ARES_FLAG_NORECURSE) with
  | fault =>
    rw [aresMkquery_eq] at hq
    split_ifs at hq with ha he
    exact absurd ⟨ha, he⟩ hroom
  | fail status =>
    rw [aresMkquery_eq] at hq
    split_ifs at hq
    obtain rfl := Outcome.fail.inj hq
    exact hrefuse _ (by decide)
  | ok q =>
    intro junk
    refine serves_withMalloc (hrefuse _ (by decide)) ⟨quits_qcallback hquit 0, fun reply hreply => ?_, rfl⟩
    refine qcallback_serves hcallback fun hs => ?_
    obtain ⟨q, hreplied⟩ := hreply hs
    exact ⟨q, _, _, _, _, Nat.mod_lt _ (by decide), hq, hreplied⟩

/-- A search that goes on: it tries domains of the channel, and what it got for the name as it
is did not end it. -/
structure SearchQuery.Valid (dom : Domains) (squery : SearchQuery) : Prop where
  domains : squery.domains ⊆ dom.domains
  statusAsIs : ∀ status, squery.statusAsIs = some status → NonFatal status

theorem SearchQuery.Valid.note (h : squery.Valid dom) {status : UInt32} (hs : NonFatal status) :
    (squery.note status).Valid dom := by
  refine ⟨h.domains, fun status' hstatus => ?_⟩
  rw [SearchQuery.note] at hstatus
  split_ifs at hstatus
  · exact Option.some.inj hstatus ▸ hs
  · exact h.statusAsIs _ hstatus

theorem NonFatal.ne_success {status : UInt32} (h : NonFatal status) : status ≠ ARES_SUCCESS := by
  rintro rfl
  exact absurd h (by decide)

/-- A search calls back once, with an answer to one of the names that it asks for. -/
theorem searchCallback_serves (hname : Searchable cfg dom name) (hquit : Quits callback)
    (hcallback : ∀ reply, (reply.status = ARES_SUCCESS →
      ∃ s, Asks cfg dom name s ∧ Said cfg env events s dnsclass type reply.abuf) →
      (callback reply).Serves (Credible cfg env events) G call) (squery : SearchQuery) (reply : Reply)
    (hvalid : squery.Valid dom)
    (h : reply.status = ARES_SUCCESS → ∃ s, Asks cfg dom name s ∧ Said cfg env events s dnsclass type reply.abuf) :
    (searchCallback cfg name dnsclass type callback squery reply).Serves (Credible cfg env events) G call := by
  have hend : ∀ squery status, status ≠ ARES_SUCCESS →
      (endSquery callback squery status []).Serves (Credible cfg env events) G call :=
    fun _ _ hs => hcallback _ fun h => absurd h hs
  fun_induction searchCallback cfg name dnsclass type callback squery reply with
  | case1 => exact hcallback _ h
  | case2 squery reply timeouts hfatal noted domain domains hdomains ih =>
    have hnoted := hvalid.note (not_not.mp hfatal)
    obtain ⟨hdomain, hrest⟩ := List.cons_subset.mp (hdomains ▸ hvalid.domains)
    have hasks : Asks cfg dom name (catDomain name domain) := .domain hdomain
    refine serves_withMalloc (hend _ _ (by decide)) ?_
    refine aresQuery_serves (hname.room hasks) (quits_searchCallback hquit) ?_
    exact fun reply hsaid => ih reply ⟨hrest, hnoted.statusAsIs⟩ fun hs => ⟨_, hasks, hsaid hs⟩
  | case3 squery reply timeouts hfatal noted hdomains hstatus ih =>
    have hnoted := hvalid.note (not_not.mp hfatal)
    refine aresQuery_serves (hname.room .asIs) (quits_searchCallback hquit) ?_
    exact fun reply hsaid => ih reply ⟨hnoted.domains, hnoted.statusAsIs⟩ fun hs => ⟨_, .asIs, hsaid hs⟩
  | case4 => exact hend _ _ (by decide)
  | case5 squery reply timeouts hfatal noted hdomains status hstatus =>
    exact hend _ _ ((hvalid.note (not_not.mp hfatal)).statusAsIs _ hstatus).ne_success

theorem searchDomains_serves (hname : Searchable cfg dom name) (hdomains : dom.domains ≠ []) (hquit : Quits callback)
    (hcallback : ∀ reply, (reply.status = ARES_SUCCESS →
      ∃ s, Asks cfg dom name s ∧ Said cfg env events s dnsclass type reply.abuf) →
      (callback reply).Serves (Credible cfg env events) G call) :
    (searchDomains cfg dom name dnsclass type callback).Serves (Credible cfg env events) G call := by
  have hnomem : (callback ⟨ARES_ENOMEM, 0, []⟩).Serves (Credible cfg env events) G call :=
    hcallback _ fun h => absurd h (by decide)
  refine serves_withMalloc hnomem (serves_withMalloc hnomem ?_)
  split_ifs
  · refine aresQuery_serves (hname.room .asIs) (quits_searchCallback hquit) fun reply hsaid => ?_
    exact searchCallback_serves hname hquit hcallback _ reply ⟨List.Subset.refl _, nofun⟩ fun hs => ⟨_, .asIs, hsaid hs⟩
  · cases hd : dom.domains with
    | nil => exact absurd hd hdomains
    | cons domain domains =>
      have hmem : ∀ d ∈ domain :: domains, d ∈ dom.domains := fun d h => hd ▸ h
      have hasks : Asks cfg dom name (catDomain name domain) := .domain (hmem _ List.mem_cons_self)
      refine serves_withMalloc hnomem (aresQuery_serves (hname.room hasks) (quits_searchCallback hquit) ?_)
      refine fun reply hsaid => searchCallback_serves hname hquit hcallback _ reply ⟨?_, nofun⟩ fun hs =>
        ⟨_, hasks, hsaid hs⟩
      exact fun d h => hmem d (List.mem_cons_of_mem _ h)

/-- The rule of `ares_search`. -/
theorem aresSearch_serves (hname : Searchable cfg dom name) (hquit : Quits callback)
    (hcallback : ∀ reply, (reply.status = ARES_SUCCESS →
      ∃ s, Asks cfg dom name s ∧ Said cfg env events s dnsclass type reply.abuf) →
      (callback reply).Serves (Credible cfg env events) G call) :
    (aresSearch cfg dom name dnsclass type callback).Serves (Credible cfg env events) G call := by
  have hrefuse : ∀ status, status ≠ ARES_SUCCESS → (callback ⟨status, 0, []⟩).Serves (Credible cfg env events) G call :=
    fun status hs => hcallback _ fun h => absurd h hs
  have hquery : ∀ {s}, Asks cfg dom name s →
      (aresQuery cfg s dnsclass type callback).Serves (Credible cfg env events) G call := fun hs =>
    aresQuery_serves (hname.room hs) hquit fun reply hsaid => hcallback reply fun h => ⟨_, hs, hsaid h⟩
  have hcopy : ∀ {s}, Asks cfg dom name s →
      (withMalloc (callback ⟨ARES_ENOMEM, 0, []⟩) (aresQuery cfg s dnsclass type callback)).Serves
        (Credible cfg env events) G call := fun hs => serves_withMalloc (hrefuse _ (by decide)) (hquery hs)
  rw [aresSearch, singleDomain]
  cases hlast : name.getLast? with
  | none => exact absurd (List.getLast?_eq_none_iff.mp hlast) hname.ne_nil
  | some c =>
    dsimp only
    by_cases hdot : c = 46
    · rw [if_pos hdot]
      exact hcopy .asIs
    rw [if_neg hdot]
    cases halias : hostAlias cfg dom name with
    | error status => exact hrefuse _ (hostAlias_ne_success halias)
    | ok found =>
      cases found with
      | some s => exact hcopy (.hostAlias halias)
      | none =>
        dsimp only
        split_ifs with hsearch
        · exact hcopy .asIs
        · exact searchDomains_serves hname (not_or.mp hsearch).2 hquit hcallback

end FakeDns.Channel
