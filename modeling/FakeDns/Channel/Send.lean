import FakeDns.Channel.State

/-! `ares_send` and what it sets off. A query is sent to its server; if that fails it is
sent to the next one, until every server has been tried often enough, and then it ends:
its client is called back and may send more queries before the ended one is freed. -/

namespace FakeDns.Channel

/-- The links of `server_info[i]`: "skip_server = 1". -/
def Query.skip (x : Query) (i : ℕ) : Query :=
  { x with serverInfo := Function.update x.serverInfo i { x.serverInfo i with skipServer := true } }

/-- `server_info[i].tcp_connection_generation = g` -/
def Query.sentOn (x : Query) (i g : ℕ) : Query :=
  { x with serverInfo := Function.update x.serverInfo i { x.serverInfo i with tcpConnectionGeneration := g } }

/-- Did we send this query over this exact connection? -/
def Query.sentOver (x : Query) (server : Server) : Prop :=
  x.usingTcp = true ∧ (x.serverInfo x.server).tcpConnectionGeneration = server.generation

instance (x : Query) (server : Server) : Decidable (x.sentOver server) := inferInstanceAs (Decidable (_ ∧ _))

/-- `ares__close_sockets` -/
def closeSockets (ch : State) (i : ℕ) : State :=
  let server := ch.server i
  let generation := ch.generation + 1
  { ch with generation := if server.tcpSocket then generation else ch.generation }.setServer i
    { udpSocket := false, tcpSocket := false, input := ⟨[], server.input.length, []⟩, queue := [],
      generation := if server.tcpSocket then generation else server.generation, isBroken := false }

/-- `ares__free_query` -/
def freeQuery (ch : State) (q : ℕ) : State :=
  { ch with
    query := Function.update ch.query q none
    byQid := Buckets.remove ch.byQid q
    byTimeout := Buckets.remove ch.byTimeout q
    toServer := Buckets.remove ch.toServer q
    allQueries := ch.allQueries.erase q }

section

variable (cfg : Config) (env : Env)

/-- `skip_server` -/
def skipServer (ch : State) (q i : ℕ) : State :=
  ch.withQuery q fun x => if cfg.nservers > 1 then ch.setQuery q (x.skip i) else ch

/-- `open_tcp_socket`, if there is no socket yet. -/
def openTcpSocket (ch : State) (i : ℕ) : Option State :=
  let server := ch.server i
  let generation := ch.generation + 1
  if server.tcpSocket then some ch
  else if env.openTcp ch.calls then
    some ({ ch.tick with generation := generation }.setServer i
      { server with tcpSocket := true, generation := generation, input := { server.input with buffer := [] } })
  else none

/-- `open_udp_socket`, if there is no socket yet. -/
def openUdpSocket (ch : State) (i : ℕ) : Option State :=
  let server := ch.server i
  if server.udpSocket then some ch
  else if env.openUdp ch.calls then some (ch.tick.setServer i { server with udpSocket := true })
  else none

/-- The time to wait for a reply, in milliseconds. -/
def timeplus (x : Query) (rand : ℕ) : ℕ :=
  (cfg.timeout <<< (x.tryCount / cfg.nservers)) * (9 + rand % 8) / 16

/-- The end of `ares__send_query`: "keep track of queries bucketed by timeout" and "by
server". -/
def schedule (now : Timeval) (ch : State) (q : ℕ) (x : Query) : State :=
  let timeout := timeadd now (timeplus cfg x (env.rand ch.calls))
  { ch.tick.setQuery q { x with timeout := timeout } with
    byTimeout := Buckets.insert (Buckets.remove ch.byTimeout q) q (timeout.sec % ARES_TIMEOUT_TABLE_SIZE)
    toServer := Buckets.insert (Buckets.remove ch.toServer q) q (some x.server) }

inductive Attempt
  | sent
  | failed
  | nomem

/-- `ares__send_query` up to its calls of `next_server` and `end_query`. -/
def trySend (now : Timeval) (ch : State) (q : ℕ) (x : Query) : Attempt × State :=
  let i := x.server
  if x.usingTcp then
    match openTcpSocket env ch i with
    | none => (.failed, skipServer cfg ch.tick q i)
    | some ch =>
      if env.malloc ch.calls then
        let server := ch.server i
        let ch := ch.tick.setServer i { server with queue := server.queue ++ [⟨x.tcpbuf, some q, false⟩] }
        (.sent, schedule cfg env now (ch.emit (.queued q i server.generation x.qbuf)) q
          (x.sentOn i server.generation))
      else (.nomem, ch.tick)
  else
    match openUdpSocket env ch i with
    | none => (.failed, skipServer cfg ch.tick q i)
    | some ch =>
      if env.writeUdp ch.calls then (.sent, schedule cfg env now (ch.tick.emit (.sent q i x.qbuf)) q x)
      else (.failed, skipServer cfg ch.tick q i)

/-- The loop of `end_query` over one send queue: the queue, whether the connection is
broken, and the number of system calls made. -/
def releaseRequests (q : ℕ) (status : UInt32) : ℕ → List SendRequest → List SendRequest × Bool × ℕ
  | calls, [] => ([], false, calls)
  | calls, r :: rs =>
    if r.ownerQuery = some q then
      if status = ARES_SUCCESS then
        let (rest, broken, calls') := releaseRequests q status (calls + 1) rs
        if env.malloc calls then (⟨r.data, none, true⟩ :: rest, broken, calls')
        else (⟨[], none, false⟩ :: rest, true, calls')
      else
        let (rest, _, calls) := releaseRequests q status calls rs
        (⟨[], none, false⟩ :: rest, true, calls)
    else
      let (rest, broken, calls) := releaseRequests q status calls rs
      (r :: rest, broken, calls)

/-- The assertion of that loop: a request with an owner has no data of its own. -/
def unstored (q : ℕ) (queue : List SendRequest) : Bool :=
  queue.all fun r => !(r.ownerQuery = some q && r.dataStorage)

def releaseServer (q : ℕ) (status : UInt32) (ch : State) (i : ℕ) : State :=
  let server := ch.server i
  let ch := if unstored q server.queue then ch else ch.emit .fault
  let (queue, broken, calls) := releaseRequests env q status ch.calls server.queue
  { ch with calls := calls }.setServer i { server with queue := queue, isBroken := server.isBroken || broken }

/-- `end_query`. Calling back, `answer` is what the client does. -/
def endQuery (answer : Reply → State → State) (ch : State) (q : ℕ) (status : UInt32) (abuf : List UInt8) :
    State :=
  ch.withQuery q fun x =>
    let ch := (List.range cfg.nservers).foldl (releaseServer env q status) ch
    let reply := ⟨status, x.timeouts, abuf⟩
    let ch := answer reply (ch.emit (.answered q reply))
    let ch := freeQuery ch q
    if ¬ cfg.has ARES_FLAG_STAYOPEN ∧ ch.allQueries = [] then (List.range cfg.nservers).foldl closeSockets ch
    else ch

/-- How often the test of the loop of `next_server` will still hold. -/
def triesLeft (x : Query) : ℕ := cfg.nservers * cfg.tries - 1 - x.tryCount

/-- `next_server`, for a query with that many tries left. -/
def nextServer (answer : Reply → State → State) (now : Timeval) : ℕ → State → ℕ → State
  | 0, ch, q => ch.withQuery q fun x =>
    endQuery cfg env answer (ch.setQuery q { x with tryCount := x.tryCount + 1 }) q x.errorStatus []
  | left + 1, ch, q => ch.withQuery q fun x =>
    let x := { x with tryCount := x.tryCount + 1, server := (x.server + 1) % cfg.nservers }
    let ch := ch.setQuery q x
    let server := ch.server x.server
    if ¬ server.isBroken ∧ ¬ (x.serverInfo x.server).skipServer ∧ ¬ x.sentOver server then
      match trySend cfg env now ch q x with
      | (.sent, ch) => ch
      | (.failed, ch) => nextServer answer now left ch q
      | (.nomem, ch) => endQuery cfg env answer ch q ARES_ENOMEM []
    else nextServer answer now left ch q

/-- `ares__send_query` -/
def sendQuery (answer : Reply → State → State) (now : Timeval) (ch : State) (q : ℕ) : State :=
  ch.withQuery q fun x =>
    match trySend cfg env now ch q x with
    | (.sent, ch) => ch
    | (.failed, ch) => nextServer cfg env answer now (triesLeft cfg x) ch q
    | (.nomem, ch) => endQuery cfg env answer ch q ARES_ENOMEM []

/-- The query that `ares_send` sets up. -/
def newQuery (server qid : ℕ) (qbuf : List UInt8) (callback : Reply → Client) : Query where
  qid := qid
  timeout := ⟨0, 0, by decide⟩
  qbuf := qbuf
  callback := callback
  tryCount := 0
  server := server
  serverInfo := fun _ => ⟨false, 0⟩
  usingTcp := cfg.has ARES_FLAG_USEVC || qbuf.length > PACKETSZ
  errorStatus := ARES_ECONNREFUSED
  timeouts := 0

/-- Chain a query into the lists of all queries and of those with its id. -/
def enlist (ch : State) (q : ℕ) (x : Query) : State :=
  { ch.setQuery q x with
    lastServer := if cfg.rotate then (ch.lastServer + 1) % cfg.nservers else ch.lastServer
    allQueries := ch.allQueries ++ [q]
    byQid := Buckets.insert ch.byQid q (x.qid % ARES_QID_TABLE_SIZE) }

/-- `ares_send`: the query gets the next number. -/
def aresSend (answer : Reply → State → State) (qbuf : List UInt8) (callback : Reply → Client) (ch : State) :
    State :=
  let q := ch.issued
  let ch := { ch with issued := q + 1 }.emit (.asked q qbuf)
  let refuse := fun (ch : State) (status : UInt32) => answer ⟨status, 0, []⟩ (ch.emit (.answered q ⟨status, 0, []⟩))
  if qbuf.length < HFIXEDSZ ∨ qbuf.length ≥ 2 ^ 16 then refuse ch ARES_EBADQUERY
  else if env.malloc ch.calls ∧ env.malloc (ch.calls + 1) ∧ env.malloc (ch.calls + 2) then
    match headerQid qbuf with
    | .ok qid =>
      let ch := enlist cfg ch.tick.tick.tick q (newQuery cfg ch.lastServer qid qbuf callback)
      sendQuery cfg env answer (env.tvnow ch.calls) ch.tick q
    | _ => ch.emit .fault
  else refuse ch.tick.tick.tick ARES_ENOMEM

/-- What a client does. -/
def Client.run : Client → State → State
  | .done => id
  | .stray => fun ch => ch.emit .stray
  | .alloc next => fun ch => (next (env.malloc ch.calls)).run ch.tick
  | .draw next => fun ch => (next (env.rand ch.calls)).run ch.tick
  | .tell told next => fun ch => next.run (ch.emit (.told told))
  | .ask qbuf callback next => fun ch =>
    next.run (aresSend cfg env (fun reply => Client.run (callback reply)) qbuf callback ch)

end

end FakeDns.Channel
