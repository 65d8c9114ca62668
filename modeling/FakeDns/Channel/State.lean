import FakeDns.Dns.AddrReply
import FakeDns.Dns.Questions
import FakeDns.Hostent.Layout
import FakeDns.Keyed.Buckets
import FakeDns.NameInfo.AresGetnameinfo

/-! The state of a channel: its servers, and the queries on their way. A query is known by a
number, which stands for the address of its block; the four rings that a query is linked
into hold these numbers. What happens outside, in the operating system and in the
callbacks' clients, is written down in a trace, and so is a fault: the use of a query
that has been freed, or an assertion that fails. -/

namespace FakeDns.Channel

open ByteMemory

def ARES_FLAG_USEVC : UInt32 := 1
def ARES_FLAG_IGNTC : UInt32 := 4
def ARES_FLAG_STAYOPEN : UInt32 := 16
def ARES_FLAG_NOCHECKRESP : UInt32 := 128

def ARES_QID_TABLE_SIZE : ℕ := 2048
def ARES_TIMEOUT_TABLE_SIZE : ℕ := 1024

/-! ### Time -/

/-- `struct timeval`, with less than a second of microseconds. -/
structure Timeval where
  sec : ℕ
  usec : ℕ
  usec_lt : usec < 1000000

/-- The time in microseconds. -/
def Timeval.micros (t : Timeval) : ℕ := t.sec * 1000000 + t.usec

/-- `ares__timedout` -/
def timedout (now check : Timeval) : Bool :=
  if now.sec > check.sec then true
  else if now.sec < check.sec then false
  else now.usec ≥ check.usec

/-- `ares__timeadd` -/
def timeadd (now : Timeval) (millisecs : ℕ) : Timeval :=
  if h : now.usec + millisecs % 1000 * 1000 ≥ 1000000 then
    ⟨now.sec + millisecs / 1000 + 1, now.usec + millisecs % 1000 * 1000 - 1000000, by
      have := now.usec_lt
      omega⟩
  else ⟨now.sec + millisecs / 1000, now.usec + millisecs % 1000 * 1000, not_le.mp h⟩

theorem timedout_iff (now check : Timeval) : timedout now check = true ↔ check.micros ≤ now.micros := by
  have hn := now.usec_lt
  have hc := check.usec_lt
  rw [timedout, Timeval.micros, Timeval.micros]
  split_ifs
  · simp only [true_iff]
    omega
  · simp only [false_iff]
    omega
  · rw [decide_eq_true_iff]
    omega

theorem micros_timeadd (now : Timeval) (millisecs : ℕ) :
    (timeadd now millisecs).micros = now.micros + millisecs * 1000 := by
  have hn := now.usec_lt
  rw [timeadd]
  split_ifs <;> simp only [Timeval.micros] <;> omega

/-! ### Configuration and environment -/

/-- `struct ares_addr`, and what `same_address` looks at of a `struct sockaddr`. -/
structure Addr where
  family : UInt32
  bytes : List UInt8
deriving DecidableEq

/-- `same_address` -/
def sameAddress (sa aa : Addr) : Bool :=
  if sa.family = aa.family then
    if aa.family = AF_INET ∨ aa.family = AF_INET6 then sa.bytes = aa.bytes else false
  else false

/-- The configuration data of a channel that has been set up. The retry timer is small enough
for an `int` to hold what is made of it. -/
structure Config where
  flags : UInt32
  timeout : ℕ
  tries : ℕ
  rotate : Bool
  nservers : ℕ
  addr : ℕ → Addr
  nservers_pos : 0 < nservers
  timeout_fits : timeout * 2 ^ tries * 16 < 2 ^ 31

/-- How often a query is sent at most: once to begin with, or else every server `tries` times. -/
def Config.attempts (cfg : Config) : ℕ := max 1 (cfg.nservers * cfg.tries)

def Config.has (cfg : Config) (flag : UInt32) : Bool := cfg.flags &&& flag ≠ 0

/-- What the system answers, by the number of calls made before. -/
structure Env where
  malloc : ℕ → Bool
  openTcp : ℕ → Bool
  openUdp : ℕ → Bool
  writeUdp : ℕ → Bool
  rand : ℕ → ℕ
  tvnow : ℕ → Timeval

/-- The clock does not go back. -/
def Env.Monotone (env : Env) : Prop := ∀ c d, c ≤ d → (env.tvnow c).micros ≤ (env.tvnow d).micros

/-! ### Queries -/

/-- What a callback of `ares_send` is told. -/
structure Reply where
  status : UInt32
  timeouts : ℕ
  abuf : List UInt8

/-- What the caller of a client is told; `call` stands for the argument of its callback. -/
structure Told where
  call : ℕ
  status : UInt32
  timeouts : ℕ
  host : Option Hostent

/-- A client: what it does when it runs. It allocates memory, draws a number that it does not
choose, calls back its own caller, or calls `ares_send` and goes on when that returns; what it
does when it is called back is a client too. A client that uses memory that is not its own
goes astray. -/
inductive Client
  | done
  | stray
  | alloc (next : Bool → Client)
  | draw (next : ℕ → Client)
  | tell (told : Told) (next : Client)
  | ask (qbuf : List UInt8) (callback : Reply → Client) (next : Client)

/-- `struct query_server_info` -/
structure QueryServerInfo where
  skipServer : Bool
  tcpConnectionGeneration : ℕ

/-- `struct query`. The links are the rings of the channel. -/
structure Query where
  qid : ℕ
  timeout : Timeval
  qbuf : List UInt8
  callback : Reply → Client
  tryCount : ℕ
  server : ℕ
  serverInfo : ℕ → QueryServerInfo
  usingTcp : Bool
  errorStatus : UInt32
  timeouts : ℕ

/-- The query with its length in front. -/
def Query.tcpbuf (q : Query) : List UInt8 := set16 q.qbuf.length ++ q.qbuf

/-! ### Servers -/

/-- `struct send_request`: the data that is left to send, and whether it is the request's
own copy. Otherwise it points into the `tcpbuf` of its owner. -/
structure SendRequest where
  data : List UInt8
  ownerQuery : Option ℕ
  dataStorage : Bool

/-- What was read of the next message of a connection. -/
structure TcpInput where
  lenbuf : List UInt8
  length : ℕ
  buffer : List UInt8

def TcpInput.empty : TcpInput := ⟨[], 0, []⟩

/-- `struct server_state` -/
structure Server where
  udpSocket : Bool
  tcpSocket : Bool
  input : TcpInput
  queue : List SendRequest
  generation : ℕ
  isBroken : Bool

/-! ### The channel -/

/-- What can be seen from outside. A message is received over a connection, the one of that
generation, or in a packet. -/
inductive Act
  | asked (q : ℕ) (qbuf : List UInt8)
  | sent (q server : ℕ) (qbuf : List UInt8)
  | queued (q server generation : ℕ) (qbuf : List UInt8)
  | wrote (server generation : ℕ) (bytes : List UInt8)
  | read (server generation : ℕ) (bytes : List UInt8)
  | received (server : ℕ) (via : Option ℕ) (abuf : List UInt8)
  | answered (q : ℕ) (reply : Reply)
  | told (told : Told)
  | stray
  | fault

/-- `struct ares_channeldata`. The ring `none` of `toServer` is the local list of
`handle_error`. -/
structure State where
  query : ℕ → Option Query
  allQueries : List ℕ
  byQid : ℕ → List ℕ
  byTimeout : ℕ → List ℕ
  toServer : Option ℕ → List ℕ
  server : ℕ → Server
  generation : ℕ
  lastTimeoutProcessed : ℕ
  lastServer : ℕ
  now : Timeval
  issued : ℕ
  calls : ℕ
  trace : List Act

namespace State

variable (ch : State)

def emit (a : Act) : State := { ch with trace := ch.trace ++ [a] }

def setQuery (q : ℕ) (x : Query) : State := { ch with query := Function.update ch.query q (some x) }

def setServer (i : ℕ) (s : Server) : State := { ch with server := Function.update ch.server i s }

def tick : State := { ch with calls := ch.calls + 1 }

/-- Do `f` with the query, which must not have been freed. -/
def withQuery (q : ℕ) (f : Query → State) : State :=
  match ch.query q with
  | none => ch.emit .fault
  | some x => f x

variable {ch : State} {q i j : ℕ} {x : Query} {s : Server}

@[simp] theorem setQuery_self : (ch.setQuery q x).query q = some x := Function.update_self _ _ _

@[simp] theorem setServer_self : (ch.setServer i s).server i = s := Function.update_self _ _ _

theorem setServer_of_ne (h : j ≠ i) : (ch.setServer i s).server j = ch.server j := Function.update_of_ne h _ _

theorem withQuery_some (hx : ch.query q = some x) (f : Query → State) : ch.withQuery q f = f x := by
  rw [withQuery, hx]

end State

end FakeDns.Channel
