import WServer.Channel
import WServer.HttpContext

/-!
# TCP connections

A connection and its handlers, with what they act on: the channel and the epoll of its loop, the timers
the loop holds for it, the bytes the kernel accepted for the peer, and the calls of the close callback.
A handler ends in `Stop` where the source calls `LOG_FATAL`, and where the parser does not come to an
end.

The scripts are what the kernel answers while a handler runs; `now` is the text of the time stamp the
response generator reads.  `connStep` is one event of the loop: a dispatch, the expiry of a timer, or the
removal of the connection.
-/

namespace WServer

inductive StateE where
  | kConnecting
  | kConnected
  | kDisconnected
  | kDisconnecting
  deriving DecidableEq

/-- Class `TcpConnection`.  Both buffers are part of the context. -/
structure TcpConnection where
  state : StateE
  channel : Channel
  context : HttpContext
  alive : Bool
  timeout : Bool
  -- the loop: its epoll, and the timers it holds for `closeLongConnection`
  epoll : Epoll
  timers : ℕ
  -- the peer and the server: bytes accepted, write side shut down, calls of the close callback
  sent : List UInt8
  writeShut : Bool
  closeCallbacks : ℕ

namespace TcpConnection

/-- The constructor, for a socket of a loop. -/
def init (self fd : ℕ) (epoll : Epoll) : TcpConnection where
  state := .kConnecting
  channel := Channel.init self fd
  context := HttpContext.init Buffer.init Buffer.init
  alive := false
  timeout := false
  epoll := epoll
  timers := 0
  sent := []
  writeShut := false
  closeCallbacks := 0

/-- A call of a member of the channel. -/
def onChannel (f : Channel → Epoll → Except Stop (Channel × Epoll)) (c : TcpConnection) :
    Except Stop TcpConnection := do
  let (channel, epoll) ← f c.channel c.epoll
  return { c with channel := channel, epoll := epoll }

def connectEstablished (c : TcpConnection) : Except Stop TcpConnection :=
  ({ c with state := .kConnected } : TcpConnection).onChannel Channel.enableReading

def connectDestroyed (c : TcpConnection) : Except Stop TcpConnection := do
  let c ← (if c.state = .kConnected then
      ({ c with state := .kDisconnected } : TcpConnection).onChannel Channel.disableAll
    else .ok c)
  c.onChannel Channel.remove

/-- A long connection stays open until its timer; any other one is unregistered and reported. -/
def handleClose (c : TcpConnection) : Except Stop TcpConnection :=
  if c.alive = true ∧ c.timeout = false then .ok c
  else if c.state ≠ .kConnected ∧ c.state ≠ .kDisconnecting then .error .handleClose
  else do
    let c ← ({ c with state := .kDisconnected } : TcpConnection).onChannel Channel.disableAll
    let c := if c.alive = false then { c with writeShut := true } else c
    return { c with closeCallbacks := c.closeCallbacks + 1 }

def closeLongConnection (c : TcpConnection) : Except Stop TcpConnection :=
  ({ c with timeout := true } : TcpConnection).handleClose

/-- `getsockopt` only tells what to log. -/
def handleError (c : TcpConnection) : Except Stop TcpConnection := c.handleClose

/-- The connection after `m_output_buffer.writeToFd`. -/
def written (ws : WriteScript) (c : TcpConnection) : TcpConnection :=
  let (_, sent, output) := c.context.outputBuffer.writeToFd ws
  { c with context := { c.context with outputBuffer := output }, sent := c.sent ++ sent }

def handleWrite (ws : WriteScript) (c : TcpConnection) : Except Stop TcpConnection :=
  let bytes := (c.context.outputBuffer.writeToFd ws).1
  let c := c.written ws
  if bytes < 0 then c.handleError
  -- the peer has closed the connection, the response has been sent
  else if bytes = 0 ∧ c.context.outputBuffer.readableBytes = 0 then c.handleClose
  -- the peer has closed the connection, the response has not been sent
  else if bytes = 0 ∧ c.context.outputBuffer.readableBytes > 0 then c.handleError
  else if bytes > 0 ∧ c.context.outputBuffer.readableBytes > 0 then
    c.onChannel Channel.enableWriting
  else if bytes > 0 ∧ c.alive = true ∧ c.timeout = false then
    ({ c with context := c.context.reset } : TcpConnection).onChannel Channel.enableReading
  else c.handleClose

/-- The connection after `m_input_buffer.readFromFd`. -/
def drained (rs : ReadScript) (c : TcpConnection) : TcpConnection :=
  { c with context := { c.context with inputBuffer := (c.context.inputBuffer.readFromFd rs).2 } }

/-- The first keep-alive request makes the connection a long one, with a timer. -/
def startKeepAlive (c : TcpConnection) : TcpConnection :=
  if c.alive = false ∧ c.context.isKeepAlive = true then
    { c with alive := true, timers := c.timers + 1 }
  else c

def handleRead (rs : ReadScript) (ws : WriteScript) (now : List UInt8) (c : TcpConnection) :
    Except Stop TcpConnection :=
  let bytes := (c.context.inputBuffer.readFromFd rs).1
  let c := c.drained rs
  if bytes > 0 then
    match c.context.work now with
    | none => .error .parserLoop
    | some context => ({ c with context := context } : TcpConnection).startKeepAlive.handleWrite ws
  -- the peer has closed the connection
  else if bytes = 0 then c.handleClose
  else c.handleError

/-- `Channel::handleEvent`, the handlers being those of the connection. -/
def handleEvent (rs : ReadScript) (ws ws' : WriteScript) (now : List UInt8) (c : TcpConnection) :
    Except Stop TcpConnection := do
  let c ← (if c.channel.revents.has EPOLLHUP ∧ ¬ c.channel.revents.has EPOLLIN then c.handleClose
    else .ok c)
  let c ← (if c.channel.revents.has EPOLLERR then c.handleError else .ok c)
  let c ← (if c.channel.revents.has (EPOLLIN ||| EPOLLPRI ||| EPOLLRDHUP) then
      c.handleRead rs ws now
    else .ok c)
  if c.channel.revents.has EPOLLOUT then c.handleWrite ws' else .ok c

/-- `epoll_wait` can report `revents` for the connection: a set of the events it is registered for, of
errors and of hang-ups. -/
def Reports (c : TcpConnection) (revents : Events) : Prop :=
  Registered c.channel c.epoll ∧ revents.Within (c.channel.events ||| EPOLLERR ||| EPOLLHUP)

instance (c : TcpConnection) (revents : Events) : Decidable (c.Reports revents) :=
  inferInstanceAs (Decidable (_ = _ ∧ _))

end TcpConnection

/-! ### Events -/

/-- What the loop does with a connection. -/
inductive ConnEvent where
  /-- An event is dispatched; `rs` and `ws` are for the read handler, `ws'` for the write handler. -/
  | dispatch (revents : Events) (rs : ReadScript) (ws ws' : WriteScript) (now : List UInt8)
  /-- A timer of the connection expires. -/
  | expire
  /-- `connectDestroyed` runs. -/
  | destroyed

open TcpConnection in
/-- One event.  An event that cannot happen is passed over. -/
def connStep (c : TcpConnection) : ConnEvent → Except Stop TcpConnection
  | .dispatch revents rs ws ws' now =>
      if c.Reports revents then
        handleEvent rs ws ws' now { c with channel := c.channel.setRevents revents }
      else .ok c
  | .expire => if 0 < c.timers then closeLongConnection { c with timers := c.timers - 1 } else .ok c
  | .destroyed => c.connectDestroyed

end WServer
