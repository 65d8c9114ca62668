import FakeDns.Channel.Send

/-! `ares_process`: what a channel does when its sockets are ready, when queries time out and
when connections break. A call of `ares_process` reads the clock, writes to and reads from
the sockets of one server after the other, and ends with the timeouts and the broken
connections, so it is a sequence of the events below. With the calls of clients, that is all
that happens between `ares_init` and `ares_destroy`, unless `ares_cancel` is called. -/

namespace FakeDns.Channel

open ByteMemory

section

variable (cfg : Config) (env : Env)

/-- What the callback of a query does with the reply. -/
def Query.answer (x : Query) (reply : Reply) : State → State := Client.run cfg env (x.callback reply)

/-- "Tell a query to move on and not try this server again." -/
def moveOn (i : ℕ) (ch : State) (q : ℕ) : State :=
  ch.withQuery q fun x =>
    let ch := if x.server = i then ch else ch.emit .fault
    nextServer cfg env (x.answer cfg env) ch.now (triesLeft cfg x) (skipServer cfg ch q i) q

/-- "We steal the current list of queries that were in-flight to this server." -/
def steal (ch : State) (i : ℕ) : State :=
  { ch with toServer := Buckets.swap (Function.update ch.toServer none []) none (some i) }

/-- `handle_error` -/
def handleError (ch : State) (i : ℕ) : State :=
  let ch := steal (closeSockets ch i) i
  let ch := (ch.toServer none).foldl (moveOn cfg env i) ch
  if ch.toServer none = [] then ch else ch.emit .fault

/-! ### Answers -/

/-- The id, the truncation bit and the response code of an answer. -/
def answerHeader (abuf : List UInt8) : Outcome UInt32 (ℕ × Bool × ℕ) := do
  let id ← headerQid abuf
  let tc ← headerTc abuf
  let rcode ← headerRcode abuf
  .ok (id, tc, rcode)

/-- "Find the query corresponding to this packet." Whether `same_questions` gets the memory for
the names that it compares is one answer of the system; without it the questions are not the
same. -/
def findQuery (abuf : List UInt8) (id : ℕ) : List ℕ → State → State × Option ℕ
  | [], ch => (ch, none)
  | q :: qs, ch =>
    match ch.query q with
    | none => (ch.emit .fault, none)
    | some x =>
      if x.qid = id then
        match sameQuestions x.qbuf abuf with
        | .ok same => if same ∧ env.malloc ch.calls then (ch.tick, some q) else findQuery abuf id qs ch.tick
        | _ => (ch.emit .fault, none)
      else findQuery abuf id qs ch

/-- `process_answer`, once the query of the packet is found. -/
def acceptAnswer (ch : State) (q : ℕ) (x : Query) (abuf : List UInt8) (whichserver : ℕ) (tcp tc : Bool)
    (rcode : ℕ) : State :=
  let answer := x.answer cfg env
  if (tc ∨ abuf.length > PACKETSZ) ∧ ¬ tcp ∧ ¬ cfg.has ARES_FLAG_IGNTC then
    if x.usingTcp then ch
    else sendQuery cfg env answer ch.now (ch.setQuery q { x with usingTcp := true }) q
  else
    let abuf := if abuf.length > PACKETSZ ∧ ¬ tcp then abuf.take PACKETSZ else abuf
    if ¬ cfg.has ARES_FLAG_NOCHECKRESP ∧ (rcode = SERVFAIL ∨ rcode = NOTIMP ∨ rcode = REFUSED) then
      let ch := skipServer cfg ch q whichserver
      if x.server = whichserver then nextServer cfg env answer ch.now (triesLeft cfg x) ch q else ch
    else endQuery cfg env answer ch q ARES_SUCCESS abuf

/-- `process_answer` -/
def processAnswer (ch : State) (abuf : List UInt8) (whichserver : ℕ) (tcp : Bool) : State :=
  let via := if tcp then some (ch.server whichserver).generation else none
  let ch := ch.emit (.received whichserver via abuf)
  if abuf.length < HFIXEDSZ then ch
  else
    match answerHeader abuf with
    | .ok (id, tc, rcode) =>
      match findQuery env abuf id (ch.byQid (id % ARES_QID_TABLE_SIZE)) ch with
      | (ch, none) => ch
      | (ch, some q) => ch.withQuery q fun x => acceptAnswer cfg env ch q x abuf whichserver tcp tc rcode
    | _ => ch.emit .fault

/-! ### Connections -/

/-- `advance_tcp_send_queue` -/
def advanceTcpSendQueue : ℕ → List SendRequest → List SendRequest
  | 0, queue => queue
  | _, [] => []
  | n + 1, r :: rs =>
    if n + 1 ≥ r.data.length then advanceTcpSendQueue (n + 1 - r.data.length) rs
    else { r with data := r.data.drop (n + 1) } :: rs
termination_by _ queue => queue.length

/-- The bytes that wait to be sent. -/
def SendRequest.pending (queue : List SendRequest) : List UInt8 := queue.flatMap (·.data)

/-- One server's turn in `write_tcp_data`: the system takes `count` bytes, or none at all and
reports an error. -/
def writeTcpData (ch : State) (i : ℕ) (count : Option ℕ) : State :=
  let server := ch.server i
  if server.queue = [] ∨ ¬ server.tcpSocket ∨ server.isBroken then ch
  else
    match count with
    | none => handleError cfg env ch i
    | some n =>
      (ch.emit (.wrote i server.generation ((SendRequest.pending server.queue).take n))).setServer i
        { server with queue := advanceTcpSendQueue n server.queue }

/-- How many bytes the next `sread` asks for. -/
def TcpInput.wants (input : TcpInput) : ℕ :=
  if input.lenbuf.length = 2 then input.length - input.buffer.length else 2 - input.lenbuf.length

/-- What a turn of `read_tcp_data` makes of the bytes that were read: a connection that
ended, more input, or input that completes a message. -/
inductive Received
  | broken
  | more (input : TcpInput)
  | message (input : TcpInput) (abuf : List UInt8)

/-- "Read data into the allocated buffer", or the length word before that. The system has
`bytes` to read. -/
def TcpInput.read (input : TcpInput) (bytes : List UInt8) : Received :=
  match input.lenbuf with
  | [hi, lo] =>
    let count := bytes.take (input.length - input.buffer.length)
    if count = [] then .broken
    else
      let buffer := input.buffer ++ count
      if buffer.length = input.length then .message ⟨[], input.length, []⟩ buffer
      else .more ⟨[hi, lo], input.length, buffer⟩
  | lenbuf =>
    let count := bytes.take (2 - lenbuf.length)
    if count = [] then .broken
    else
      match lenbuf ++ count with
      | [hi, lo] => .more ⟨[hi, lo], hi.toNat * 256 + lo.toNat, []⟩
      | lenbuf => .more ⟨lenbuf, input.length, input.buffer⟩

/-- Read what is wanted of the bytes that the system has. -/
def sread (ch : State) (i : ℕ) (bytes : List UInt8) : State :=
  ch.emit (.read i (ch.server i).generation (bytes.take (ch.server i).input.wants))

/-- One server's turn in `read_tcp_data`. -/
def readTcpData (ch : State) (i : ℕ) (bytes : List UInt8) : State :=
  let server := ch.server i
  if ¬ server.tcpSocket ∨ server.isBroken then ch
  else
    match server.input.read bytes with
    | .broken => handleError cfg env ch i
    | .more input =>
      let ch := sread ch i bytes
      -- the buffer is allocated when the length word is complete
      if input.lenbuf.length = 2 ∧ server.input.lenbuf.length ≠ 2 then
        if env.malloc ch.calls then ch.tick.setServer i { server with input := input }
        else handleError cfg env (ch.tick.setServer i { server with input := input }) i
      else ch.setServer i { server with input := input }
    | .message input abuf =>
      let ch := processAnswer cfg env (sread ch i bytes) abuf i true
      ch.setServer i { ch.server i with input := input }

/-- The loop of `read_udp_packets` over the packets of one socket: datagrams and their
senders, or an error. What lies behind an error or a packet from another address waits. -/
def readPackets (i : ℕ) : List (Option (Addr × List UInt8)) → State → State
  | [], ch => ch
  | none :: _, ch => handleError cfg env ch i
  | some (sender, abuf) :: packets, ch =>
    if abuf = [] then handleError cfg env ch i
    else if ¬ sameAddress sender (cfg.addr i) then ch
    else readPackets i packets (processAnswer cfg env ch (abuf.take (PACKETSZ + 1)) i false)

/-- One server's turn in `read_udp_packets`. -/
def readUdpPackets (ch : State) (i : ℕ) (packets : List (Option (Addr × List UInt8))) : State :=
  let server := ch.server i
  if ¬ server.udpSocket ∨ server.isBroken then ch else readPackets cfg env i packets ch

/-! ### Timeouts -/

/-- One query's turn in `process_timeouts`. -/
def expire (ch : State) (q : ℕ) : State :=
  ch.withQuery q fun x =>
    if x.timeout.sec ≠ 0 ∧ timedout ch.now x.timeout then
      nextServer cfg env (x.answer cfg env) ch.now (triesLeft cfg x)
        (ch.setQuery q { x with errorStatus := ARES_ETIMEOUT, timeouts := x.timeouts + 1 }) q
    else ch

/-- The walk of `process_timeouts` over the list `b`, from a node on: where it is after so many
turns, and the channel then. -/
def walk (b : ℕ) : ℕ → Option ℕ → State → Option ℕ × State
  | 0, node, ch => (node, ch)
  | _ + 1, none, ch => (none, ch)
  | n + 1, some q, ch =>
    -- "in case the query gets deleted"
    let next := Buckets.next q (ch.byTimeout b)
    walk b n next (expire cfg env ch q)

/-- The loop of `process_timeouts`. Whether a walk ends is not plain, since it meets the queries
that are put into its list meanwhile; one that takes more turns than `visits` is broken off. -/
def expireBuckets (visits : ℕ) : List ℕ → State → Bool × State
  | [], ch => (true, { ch with lastTimeoutProcessed := ch.now.sec })
  | t :: ts, ch =>
    let b := t % ARES_TIMEOUT_TABLE_SIZE
    match walk cfg env b visits (ch.byTimeout b).head? ch with
    | (none, ch) => expireBuckets visits ts ch
    | (some _, ch) => (false, ch)

/-- `process_timeouts`: whether it has returned, and the channel. -/
def processTimeouts (visits : ℕ) (ch : State) : Bool × State :=
  expireBuckets cfg env visits (List.range' ch.lastTimeoutProcessed (ch.now.sec + 1 - ch.lastTimeoutProcessed)) ch

/-- One server's turn in `process_broken_connections`. -/
def processBrokenConnection (ch : State) (i : ℕ) : State :=
  if (ch.server i).isBroken then handleError cfg env ch i else ch

/-! ### Runs -/

/-- What can happen to a channel. -/
inductive Event
  | run (client : Client)
  | now
  | write (i : ℕ) (count : Option ℕ)
  | read (i : ℕ) (bytes : List UInt8)
  | packets (i : ℕ) (packets : List (Option (Addr × List UInt8)))
  | timeouts (visits : ℕ)
  | broken (i : ℕ)

def step (ch : State) : Event → State
  | .run client => client.run cfg env ch
  | .now => { ch.tick with now := env.tvnow ch.calls }
  | .write i count => if i < cfg.nservers then writeTcpData cfg env ch i count else ch
  | .read i bytes => if i < cfg.nservers then readTcpData cfg env ch i bytes else ch
  | .packets i packets => if i < cfg.nservers then readUdpPackets cfg env ch i packets else ch
  | .timeouts visits => (processTimeouts cfg env visits ch).2
  | .broken i => if i < cfg.nservers then processBrokenConnection cfg env ch i else ch

/-- A channel that has just been set up: each server has its own generation. -/
def init : State where
  query := fun _ => none
  allQueries := []
  byQid := fun _ => []
  byTimeout := fun _ => []
  toServer := fun _ => []
  server := fun i => ⟨false, false, .empty, [], i + 1, false⟩
  generation := cfg.nservers
  lastTimeoutProcessed := (env.tvnow 0).sec
  lastServer := 0
  now := env.tvnow 0
  issued := 0
  calls := 1
  trace := []

def run (events : List Event) : State := events.foldl (step cfg env) (init cfg env)

end

end FakeDns.Channel
