import WServer.EventLoop
import WServer.TcpConnection

/-!
# The server and its loops

The main loop accepts connections and hands each one to an I/O loop, in turn; there its handlers run.
`connectEstablished` and `connectDestroyed` come to the I/O loop as functors, and the report of a closed
connection comes to the main loop as one.  The destructor of the server runs in the main thread when the
main loop has returned; the I/O loops keep running.

The threads share nothing but the queues of the loops, so a step is a step of a loop (`loopStep`)
together with the functor it calls, or one handler, or one call of `newConnection`.  `handler` takes the
answers of the kernel; to a connection whose write side is shut down `write` answers with an error.

* A `TcpConnection` is named by the number of its creation, and its channel by its address.  An address
  and a descriptor are free again when the connection has been destroyed.
* `destruct` is the destructor of a connection, which no `shared_ptr` holds any more (`Referenced`).
* `calls` records which members of which connections were called, in their order.
* The descriptors of the loops themselves, and those above `MAXFD`, are never a connection's.
-/

namespace WServer

/-- What is queued for the main loop. -/
inductive MainFunctor where
  | removeConnectionInLoop (conn : ℕ)
  deriving DecidableEq

/-- What is queued for an I/O loop. -/
inductive IoFunctor where
  | connectEstablished (conn : ℕ)
  | connectDestroyed (conn : ℕ)
  | handleTimeoutEvents
  deriving DecidableEq

/-- The calls of members of a connection; `handler` is any handler of its channel or its timer. -/
inductive Call where
  | connectEstablished (conn : ℕ)
  | handler (conn : ℕ)
  | connectDestroyed (conn : ℕ)
  deriving DecidableEq

/-! ### Handlers -/

/-- The handlers that `Channel::handleEvent` may call, in their order. -/
inductive Handler where
  | close
  | error
  | read
  | write
  deriving DecidableEq

namespace Handler

def next : Handler → Option Handler
  | .close => some .error
  | .error => some .read
  | .read => some .write
  | .write => none

/-- The condition on `m_revents` for its call. -/
def Called (revents : Events) : Handler → Prop
  | .close => revents.has EPOLLHUP ∧ ¬ revents.has EPOLLIN
  | .error => revents.has EPOLLERR
  | .read => revents.has (EPOLLIN ||| EPOLLPRI ||| EPOLLRDHUP)
  | .write => revents.has EPOLLOUT

instance (revents : Events) : (h : Handler) → Decidable (h.Called revents)
  | .close => inferInstanceAs (Decidable (_ ∧ _))
  | .error | .read | .write => inferInstanceAs (Decidable (Events.has _ _))

/-- The handler of a connection. -/
def call (rs : ReadScript) (ws : WriteScript) (now : List UInt8) :
    Handler → TcpConnection → Except Stop TcpConnection
  | .close => TcpConnection.handleClose
  | .error => TcpConnection.handleError
  | .read => TcpConnection.handleRead rs ws now
  | .write => TcpConnection.handleWrite ws

/-- The call, if the events of the channel ask for it. -/
def handle (rs : ReadScript) (ws : WriteScript) (now : List UInt8) (h : Handler) (c : TcpConnection) :
    Except Stop TcpConnection :=
  if h.Called c.channel.revents then h.call rs ws now c else .ok c

end Handler

/-- **A dispatch** is the four handlers, one after the other. -/
theorem TcpConnection.handleEvent_eq (rs : ReadScript) (ws ws' : WriteScript) (now : List UInt8)
    (c : TcpConnection) : c.handleEvent rs ws ws' now =
      (do
        let c ← Handler.close.handle rs ws now c
        let c ← Handler.error.handle rs ws now c
        let c ← Handler.read.handle rs ws now c
        Handler.write.handle rs ws' now c) := rfl

/-- What `write` answers: an error, when the write side is shut down. -/
def TcpConnection.writes (ws : WriteScript) (c : TcpConnection) : WriteScript :=
  if c.writeShut = true then [.error] else ws

/-! ### The server -/

variable {n : ℕ}

/-- A `TcpConnection` with its name and its loop, one of `n + 1`. -/
structure Connection (n : ℕ) where
  name : List Char
  loop : Fin (n + 1)
  tcp : TcpConnection

/-- An I/O thread: its loop with its `Epoll`, the connection whose events it handles with the next handler
to be called, and whether the parser has got hold of it for ever. -/
structure IoThread where
  loop : EventLoop IoFunctor
  epoll : Epoll
  handling : Option (ℕ × Handler)
  parsing : Bool

/-- Class `TcpServer`, with the loops and the connections.  `nextLoop` is the index of `getNextLoop`;
`destroying` tells that its destructor runs, or has run. -/
structure TcpServer (n : ℕ) where
  name : List Char
  main : EventLoop MainFunctor
  io : Fin (n + 1) → IoThread
  nextLoop : Fin (n + 1)
  nextConnId : ℕ
  connections : List (List Char × ℕ)
  destroying : Bool
  objects : ℕ → Option (Connection n)
  calls : List Call

/-- Why a step is not taken: a `LOG_FATAL`, the use of a connection that is gone, the overflow of an
`int`, or threads that do not stand where the step starts. -/
inductive ServerFault where
  | stop (stop : Stop)
  | abortNotInLoopThread
  | destructor
  | dangling
  | overflow
  | notThere
  deriving DecidableEq

/-- `release` is one iteration of the loop in `~TcpServer`, for an entry of `m_connections`; `poll` begins
the handling of an event that `poll` reports, `timerRead` is `TimerHeap::handleRead`, and `expire` one
iteration of `handleTimeoutEvents`. -/
inductive ServerEvent (n : ℕ) where
  | main (e : LoopEvent MainFunctor)
  | accept (fd self : ℕ)
  | destroy
  | release (entry : List Char × ℕ)
  | io (l : Fin (n + 1)) (e : LoopEvent IoFunctor)
  | poll (l : Fin (n + 1)) (conn : ℕ) (revents : Events)
  | handler (l : Fin (n + 1)) (rs : ReadScript) (ws : WriteScript) (now : List UInt8)
  | timerRead (l : Fin (n + 1))
  | expire (l : Fin (n + 1)) (conn : ℕ)
  | destruct (conn : ℕ)

def IoThread.init : IoThread := ⟨EventLoop.init, Epoll.init, none, false⟩

namespace TcpServer

def MAXFD : ℕ := 100000

/-- A server and its loops before the first connection. -/
def init (name : List Char) : TcpServer n where
  name := name
  main := EventLoop.init
  io _ := IoThread.init
  nextLoop := 0
  nextConnId := 1
  connections := []
  destroying := false
  objects _ := none
  calls := []

/-- `m_name` followed by what `snprintf` makes of the number. -/
def connName (s : TcpServer n) (id : ℕ) : List Char :=
  s.name ++ ['#', 'c', 'o', 'n', 'n', '-', 'i', 'd', ':', ' '] ++ Nat.toDigits 10 id

def setIo (l : Fin (n + 1)) (thread : IoThread) (s : TcpServer n) : TcpServer n :=
  { s with io := Function.update s.io l thread }

/-- A call of `queueInLoop` in the main thread, for an I/O loop. -/
def queueInLoop (l : Fin (n + 1)) (cb : IoFunctor) (s : TcpServer n) : TcpServer n :=
  s.setIo l { s.io l with loop := (s.io l).loop.queueInLoop cb }

def record (call : Call) (s : TcpServer n) : TcpServer n := { s with calls := s.calls ++ [call] }

/-- A connection with the epoll of its loop. -/
def loaded (s : TcpServer n) (conn : Connection n) : TcpConnection :=
  { conn.tcp with epoll := (s.io conn.loop).epoll }

/-- The server after a member of a connection has left `c`.  Each call of the close callback is one of
`TcpServer::removeConnection`, in an I/O thread, which reads `m_main_loop` only. -/
def store (id : ℕ) (conn : Connection n) (c : TcpConnection) (s : TcpServer n) : TcpServer n :=
  { s with
    main := (EventLoop.queueInLoop (.removeConnectionInLoop id))^[c.closeCallbacks -
      conn.tcp.closeCallbacks] s.main
    io := Function.update s.io conn.loop { s.io conn.loop with epoll := c.epoll }
    objects := Function.update s.objects id (some { conn with tcp := c }) }

/-- A member of a connection, called in the thread of an I/O loop. -/
def onConnection (l : Fin (n + 1)) (id : ℕ) (f : TcpConnection → Except Stop TcpConnection)
    (s : TcpServer n) : Except ServerFault (TcpServer n) :=
  match s.objects id with
  | none => .error .dangling
  | some conn =>
      if conn.loop = l then
        match f (s.loaded conn) with
        | .error stop => .error (.stop stop)
        | .ok c => .ok (s.store id conn c)
      else .error .abortNotInLoopThread

/-- The `TcpConnection` that `newConnection` makes, for a descriptor and the address of its channel. -/
def newObject (fd self : ℕ) (s : TcpServer n) : Connection n where
  name := s.connName s.nextConnId
  loop := s.nextLoop
  tcp := TcpConnection.init self fd (s.io s.nextLoop).epoll

/-- The server with that connection in `m_connections`. -/
def insert (fd self : ℕ) (s : TcpServer n) : TcpServer n :=
  let conn := s.newObject fd self
  { s with
    nextConnId := s.nextConnId + 1
    nextLoop := s.nextLoop + 1
    connections := (conn.name, s.nextConnId) ::
      s.connections.filter fun entry => entry.1 ≠ conn.name
    objects := Function.update s.objects s.nextConnId (some conn) }

def newConnection (fd self : ℕ) (s : TcpServer n) : Except ServerFault (TcpServer n) :=
  if s.nextConnId = INT_MAX then .error .overflow
  else .ok ((s.insert fd self).queueInLoop s.nextLoop (.connectEstablished s.nextConnId))

/-- The server without an entry of `m_connections`. -/
def erase (name : List Char) (s : TcpServer n) : TcpServer n :=
  { s with connections := s.connections.filter fun entry => entry.1 ≠ name }

def removeConnectionInLoop (id : ℕ) (s : TcpServer n) : Except ServerFault (TcpServer n) :=
  match s.objects id with
  | none => .error .dangling
  | some conn => .ok ((s.erase conn.name).queueInLoop conn.loop (.connectDestroyed id))

/-- What the functor called in the main loop does. -/
def runMain : Option MainFunctor → TcpServer n → Except ServerFault (TcpServer n)
  | none, s => .ok s
  | some (.removeConnectionInLoop id), s => s.removeConnectionInLoop id

/-- What the functor called in an I/O loop does.  `handleTimeoutEvents` goes on with `expire`. -/
def runIo (l : Fin (n + 1)) : Option IoFunctor → TcpServer n → Except ServerFault (TcpServer n)
  | some (.connectEstablished id), s =>
      (s.record (.connectEstablished id)).onConnection l id TcpConnection.connectEstablished
  | some (.connectDestroyed id), s =>
      (s.record (.connectDestroyed id)).onConnection l id TcpConnection.connectDestroyed
  | some .handleTimeoutEvents, s | none, s => .ok s

/-- `~TcpServer` lets go of one connection: an entry whose pointer is reset counts as gone. -/
def release (entry : List Char × ℕ) (s : TcpServer n) : Except ServerFault (TcpServer n) :=
  match s.objects entry.2 with
  | none => .error .dangling
  | some conn => .ok ((s.erase entry.1).queueInLoop conn.loop (.connectDestroyed entry.2))

/-- `poll` has reported an event of a connection, and `Channel::handleEvent` begins. -/
def handleEvent (id : ℕ) (conn : Connection n) (revents : Events) (s : TcpServer n) : TcpServer n :=
  { s with
    io := Function.update s.io conn.loop { s.io conn.loop with handling := some (id, .close) }
    objects := Function.update s.objects id (some { conn with
      tcp := { s.loaded conn with channel := conn.tcp.channel.setRevents revents } }) }

/-- The next handler of the event an I/O thread is handling.  If the parser does not come to an end, nor
does the handling. -/
def handleNext (l : Fin (n + 1)) (rs : ReadScript) (ws : WriteScript) (now : List UInt8) (id : ℕ)
    (h : Handler) (s : TcpServer n) : Except ServerFault (TcpServer n) :=
  let goOn (s : TcpServer n) : TcpServer n :=
    s.setIo l { s.io l with handling := h.next.map fun h => (id, h) }
  match s.objects id with
  | none => .error .dangling
  | some conn =>
      if h.Called conn.tcp.channel.revents then
        let s := s.record (.handler id)
        match s.onConnection l id fun c => h.call rs (c.writes ws) now c with
        | .ok s => .ok (goOn s)
        | .error (.stop .parserLoop) =>
            .ok (s.setIo l { s.io l with parsing := true })
        | .error fault => .error fault
      else .ok (goOn s)

/-- No connection has the descriptor, or a channel at the address. -/
def Unused (fd self : ℕ) (s : TcpServer n) : Prop :=
  ∀ id < s.nextConnId, ∀ conn ∈ s.objects id,
    conn.tcp.channel.fd ≠ fd ∧ conn.tcp.channel.self ≠ self

instance (fd self : ℕ) (s : TcpServer n) : Decidable (s.Unused fd self) :=
  inferInstanceAs (Decidable (∀ _ < _, _))

/-- A `shared_ptr` to the connection exists: in `m_connections`, in a functor or in a timer.
`connectEstablished` is bound to a plain pointer. -/
def Referenced (id : ℕ) (s : TcpServer n) : Prop :=
  id ∈ s.connections.map Prod.snd ∨
    .removeConnectionInLoop id ∈ s.main.spent ++ s.main.waiting ∨
    (∃ l, .connectDestroyed id ∈ (s.io l).loop.spent ++ (s.io l).loop.waiting) ∨
    ∃ conn ∈ s.objects id, 0 < conn.tcp.timers

instance (id : ℕ) (s : TcpServer n) : Decidable (s.Referenced id) :=
  inferInstanceAs (Decidable (_ ∨ _ ∨ _ ∨ _))

/-- The server without a connection: its descriptor is closed, so that no epoll watches it. -/
def free (id fd : ℕ) (s : TcpServer n) : TcpServer n :=
  { s with
    objects := Function.update s.objects id none
    io := fun l => { s.io l with epoll := { (s.io l).epoll with
      kernel := Function.update (s.io l).epoll.kernel fd none } } }

/-- `~TcpConnection` -/
def destruct (id : ℕ) (conn : Connection n) (s : TcpServer n) : Except ServerFault (TcpServer n) :=
  if conn.tcp.state ≠ .kDisconnected then .error .destructor
  else .ok (s.free id conn.tcp.channel.fd)

end TcpServer

open TcpServer in
/-- One step of the threads. -/
def serverStep (s : TcpServer n) : ServerEvent n → Except ServerFault (TcpServer n)
  | .main e =>
      if e.pushed.isEmpty = true ∧ (e.isOwn = true → s.destroying = false) then
        match loopStep s.main e with
        | .error _ => .error .notThere
        | .ok main => runMain (s.main.called e) { s with main := main }
      else .error .notThere
  | .accept fd self =>
      if s.main.pc = .handling ∧ s.main.queueing = false ∧ s.destroying = false ∧
          s.Unused fd self then
        if MAXFD < fd then .ok s else s.newConnection fd self
      else .error .notThere
  | .destroy =>
      if s.main.pc = .outside ∧ s.destroying = false then .ok { s with destroying := true }
      else .error .notThere
  | .release entry =>
      if s.destroying = true ∧ entry ∈ s.connections then s.release entry else .error .notThere
  | .io l e =>
      if e.pushed.isEmpty = true ∧ e.quits = false ∧
          (e.isOwn = true → (s.io l).handling = none) then
        match loopStep (s.io l).loop e with
        | .error _ => .error .notThere
        | .ok loop => runIo l ((s.io l).loop.called e)
            (s.setIo l { s.io l with loop := loop })
      else .error .notThere
  | .poll l id revents =>
      match s.objects id with
      | none => .error .notThere
      | some conn =>
          if (s.io l).loop.pc = .handling ∧ (s.io l).loop.queueing = false ∧
              (s.io l).handling = none ∧ conn.loop = l ∧ (s.loaded conn).Reports revents then
            .ok (s.handleEvent id conn revents)
          else .error .notThere
  | .handler l rs ws now =>
      match (s.io l).handling with
      | none => .error .notThere
      | some (id, h) =>
          if (s.io l).parsing = false then s.handleNext l rs ws now id h else .error .notThere
  | .timerRead l =>
      if (s.io l).loop.pc = .handling ∧ (s.io l).handling = none then
        match loopStep (s.io l).loop (.queueInLoopOwn .handleTimeoutEvents) with
        | .error _ => .error .notThere
        | .ok loop => .ok (s.setIo l { s.io l with loop := loop })
      else .error .notThere
  | .expire l id =>
      match s.objects id with
      | none => .error .notThere
      | some conn =>
          if (s.io l).loop.running = some .handleTimeoutEvents ∧ conn.loop = l ∧
              0 < conn.tcp.timers then
            (s.record (.handler id)).onConnection l id fun c =>
              TcpConnection.closeLongConnection { c with timers := c.timers - 1 }
          else .error .notThere
  | .destruct id =>
      match s.objects id with
      | none => .error .notThere
      | some conn => if s.Referenced id then .error .notThere else s.destruct id conn

end WServer
