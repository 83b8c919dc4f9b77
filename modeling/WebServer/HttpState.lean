import WebServer.UtilSocket

/-! The state of one connection: the enumerations and fields of `HttpData`, its `Channel`, its socket,
and the calls its handlers make to the timer, to the poller and to `handleError`, in order. Those calls
take effect in the event loop that owns the connection; the handlers read nothing back from them. -/

namespace WebServer

inductive ProcessState where
  | parseURI
  | parseHeaders
  | recvBody
  | analysis
  | finish
  deriving DecidableEq, Repr

inductive URIState where
  | again
  | error
  | success
  deriving DecidableEq, Repr

inductive HeaderState where
  | success
  | again
  | error
  deriving DecidableEq, Repr

/-- The integer an enumerator of `URIState` compares as. -/
def URIState.toNat : URIState → Nat
  | .again => 1
  | .error => 2
  | .success => 3

/-- The integer an enumerator of `HeaderState` compares as. -/
def HeaderState.toNat : HeaderState → Nat
  | .success => 1
  | .again => 2
  | .error => 3

inductive AnalysisState where
  | success
  | error
  deriving DecidableEq, Repr

inductive ParseState where
  | start
  | key
  | colon
  | spacesAfterColon
  | value
  | cr
  | lf
  | endCr
  | endLf
  deriving DecidableEq, Repr

inductive ConnectionState where
  | connected
  | disconnecting
  | disconnected
  deriving DecidableEq, Repr

inductive HttpMethod where
  | post
  | get
  | head
  deriving DecidableEq, Repr

inductive HttpVersion where
  | http10
  | http11
  deriving DecidableEq, Repr

abbrev EventMask := BitVec 32

def EPOLLIN : EventMask := 0x001

def EPOLLPRI : EventMask := 0x002

def EPOLLOUT : EventMask := 0x004

def EPOLLERR : EventMask := 0x008

def EPOLLHUP : EventMask := 0x010

def EPOLLRDHUP : EventMask := 0x2000

def EPOLLONESHOT : EventMask := 0x40000000

def EPOLLET : EventMask := 0x80000000

/-- `mask & bits` read as a condition. -/
def EventMask.has (mask bits : EventMask) : Prop := mask &&& bits ≠ 0

instance (mask bits : EventMask) : Decidable (EventMask.has mask bits) :=
  inferInstanceAs (Decidable (_ ≠ _))

structure Channel where
  fd : Nat
  events : EventMask
  revents : EventMask
  lastEvents : EventMask
  deriving DecidableEq

/-- The flag returned, and the channel with its last events updated. -/
def Channel.equalAndUpdateLastEvents (ch : Channel) : Bool × Channel :=
  (ch.lastEvents == ch.events, { ch with lastEvents := ch.events })

/-- `std::map<std::string, std::string>`. -/
abbrev HeaderMap := List (Bytes × Bytes)

def HeaderMap.find (m : HeaderMap) (key : Bytes) : Option Bytes :=
  (List.find? (fun entry => entry.1 == key) m).map Prod.snd

/-- `m[key] = value`. -/
def HeaderMap.assign (m : HeaderMap) (key value : Bytes) : HeaderMap :=
  (key, value) :: List.filter (fun entry => entry.1 != key) m

/-- What a name leads to: what `stat`, `open` and `mmap` answer for it. -/
inductive FileState where
  | missing
  /-- `stat` succeeds and `open` fails. -/
  | unreadable (size : Nat)
  /-- `stat` and `open` succeed and `mmap` fails. -/
  | unmappable (size : Nat)
  | regular (content : Bytes)
  deriving DecidableEq

abbrev FileSystem := Bytes → FileState

/-- `stat(name, &sbuf)`: the size, or `none` for a negative return. -/
def FileState.stat : FileState → Option Nat
  | .missing => none
  | .unreadable size => some size
  | .unmappable size => some size
  | .regular content => some content.length

/-- Whether `open(name, O_RDONLY, 0)` gives a descriptor. -/
def FileState.opens : FileState → Bool
  | .missing => false
  | .unreadable _ => false
  | .unmappable _ => true
  | .regular _ => true

/-- What `mmap` of the whole file maps; a length of zero fails. -/
def FileState.mmap : FileState → Option Bytes
  | .regular content => if content = [] then none else some content
  | _ => none

structure HttpData where
  fd : Nat
  inBuffer : Bytes
  outBuffer : Bytes
  error : Bool
  connectionState : ConnectionState
  method : HttpMethod
  httpVersion : HttpVersion
  fileName : Bytes
  path : Bytes
  nowReadPos : Int
  state : ProcessState
  hState : ParseState
  keepAlive : Bool
  headers : HeaderMap
  deriving DecidableEq

/-- The constructor of `HttpData`. It leaves `m_nowReadPos` uninitialised; zero stands for it. -/
def HttpData.new (connfd : Nat) : HttpData where
  fd := connfd
  inBuffer := []
  outBuffer := []
  error := false
  connectionState := .connected
  method := .get
  httpVersion := .http11
  fileName := []
  path := []
  nowReadPos := 0
  state := .parseURI
  hState := .start
  keepAlive := false
  headers := []

def Channel.new (fd : Nat) : Channel := ⟨fd, 0, 0, 0⟩

/-- The calls of a handler that take effect outside its connection, and those of `handleError`. -/
inductive Call where
  /-- The block of `reset` and `seperateTimer` that clears and unlinks the timer. -/
  | clearTimer
  | handleError (errNum : Nat) (shortMsg : Bytes)
  | updatePoller (timeout : Int)
  | handleClose
  deriving DecidableEq

structure Conn where
  http : HttpData
  chan : Channel
  sock : Socket
  calls : List Call
  deriving DecidableEq

/-- A connection just accepted. -/
def Conn.fresh (connfd : Nat) : Conn := ⟨HttpData.new connfd, Channel.new connfd, ⟨[], [], []⟩, []⟩

def Conn.call (c : Conn) (k : Call) : Conn := { c with calls := c.calls ++ [k] }

/-- `HttpData::seperateTimer`. -/
def seperateTimer (c : Conn) : Conn := c.call .clearTimer

/-- `HttpData::reset`. -/
def reset (c : Conn) : Conn :=
  Conn.call { c with http := { c.http with
    fileName := [], path := [], nowReadPos := 0, state := .parseURI, hState := .start,
    headers := [] } } .clearTimer

end WebServer
