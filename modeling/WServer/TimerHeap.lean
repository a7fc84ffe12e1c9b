import Mathlib.Data.Int.Order.Basic
import WServer.Library.BinaryHeap

/-!
# The timer heap

`TimerHeap` keeps the timers of an event loop in a binary heap ordered by their expiry, and one timer
descriptor, `m_timerfd`, for all of them.

* `Timer`, `percolateUp`, `percolateDown`, `pop` — the heap and its moves;
* `TimerFd`, `setTimer`, `readTimerFd` — the descriptor: one shot, armed relatively to the monotonic clock;
* `TimerLoop`, `timerStep` — the heap and its descriptor in the loop that owns them, from one step of
  `EventLoop::loop` and `handleTimeoutEvents` to the next.

The wall clock and the monotonic clock advance together: there is one clock, in nanoseconds, and
`time(NULL)` reads its seconds.
-/

namespace WServer

open Library

/-! ### Timers -/

/-- Nanoseconds in a second. -/
def nsPerSecond : ℕ := 1000000000

/-- `time(NULL)` -/
def time (now : ℕ) : ℤ := ((now / nsPerSecond : ℕ) : ℤ)

/-- A whole number of seconds later. -/
theorem time_add (now : ℕ) {delay : ℤ} (h : 0 ≤ delay) :
    time (now + delay.toNat * nsPerSecond) = time now + delay := by
  rw [time, time, Nat.add_mul_div_right _ _ (by decide)]
  omega

/-- A timer and what it calls. -/
structure Timer (κ : Type) where
  expireTime : ℤ
  cb : κ
  deriving DecidableEq, Repr

variable {κ : Type}

/-- The constructor of `Timer`. -/
def Timer.make (now : ℕ) (delay : ℤ) (cb : κ) : Timer κ :=
  { expireTime := time now + delay, cb := cb }

/-! ### The timer descriptor -/

/-- `m_timerfd`: the instant it is armed for, and whether it has expired and was not read since. -/
structure TimerFd where
  armed : Option ℕ
  expired : Bool
  deriving DecidableEq, Repr

/-- The clock reaches `now`. -/
def TimerFd.advance (fd : TimerFd) (now : ℕ) : TimerFd :=
  match fd.armed with
  | some a => if a ≤ now then { armed := none, expired := true } else fd
  | none => fd

/-- `timerfd_settime` with a delay in seconds and no interval: a negative delay is refused, zero disarms,
and what the descriptor was armed for before, or had reported, is gone. -/
def setTimer (fd : TimerFd) (now : ℕ) (delay : ℤ) : TimerFd :=
  if delay < 0 then fd
  else if delay = 0 then { armed := none, expired := false }
  else { armed := some (now + delay.toNat * nsPerSecond), expired := false }

def readTimerFd (fd : TimerFd) : TimerFd :=
  { fd with expired := false }

/-! ### The heap -/

/-- `percolateUp`: the timer at `index` is swapped with its parent while it expires before it. -/
def percolateUp (heap : Array (Timer κ)) (index : ℕ) (h : index < heap.size) : Array (Timer κ) :=
  BinaryHeap.siftUp Timer.expireTime heap index h

/-- `percolateDown`: the timer at `index` is swapped with the first of its children to expire, while that
one expires before it. -/
def percolateDown (heap : Array (Timer κ)) (index : ℕ) : Array (Timer κ) :=
  BinaryHeap.siftDown Timer.expireTime heap index

/-- `m_min_heap` with one more timer. -/
def insert (heap : Array (Timer κ)) (timer : Timer κ) : Array (Timer κ) :=
  percolateUp (heap.push timer) heap.size (by rw [Array.size_push]; omega)

/-- `pop`, on a heap that is not empty. -/
def pop (heap : Array (Timer κ)) (h : 0 < heap.size) : Array (Timer κ) :=
  percolateDown (heap.swap 0 (heap.size - 1)).pop 0

theorem insert_eq_push (heap : Array (Timer κ)) (timer : Timer κ) :
    insert heap timer = BinaryHeap.push Timer.expireTime heap timer := rfl

theorem mem_insert {heap : Array (Timer κ)} {timer t : Timer κ} :
    t ∈ insert heap timer ↔ t ∈ heap ∨ t = timer := by
  rw [insert_eq_push, BinaryHeap.mem_push]

theorem insert_isHeap {heap : Array (Timer κ)} (h : BinaryHeap.IsHeap Timer.expireTime heap)
    (timer : Timer κ) : BinaryHeap.IsHeap Timer.expireTime (insert heap timer) :=
  BinaryHeap.push_isHeap h timer

/-- Where the owner loop stands: between two iterations (in `poll`), handling events, or running the
pending functors. -/
inductive Phase where
  | polling
  | handling
  | functors
  deriving DecidableEq, Repr

/-- Where `handleTimeoutEvents` stands, with its reading of the clock: not running, at the test of its
loop, or in the callback of the front timer. -/
inductive Pass where
  | idle
  | looping (now : ℤ)
  | callback (now : ℤ)
  deriving DecidableEq, Repr

/-- The timer heap in its owner loop: `reported` is set while the read handler of `m_timer_channel` has
still to run in this iteration, `queued` counts the calls of `handleTimeoutEvents` in
`m_pending_functors`, `batch` those in the functors being run. -/
structure TimerLoop (κ : Type) where
  now : ℕ
  timerfd : TimerFd
  minHeap : Array (Timer κ)
  phase : Phase
  reported : Bool
  queued : ℕ
  batch : ℕ
  pass : Pass
  deriving DecidableEq, Repr

/-- A new `TimerHeap`, before the first iteration. -/
def TimerLoop.start (now : ℕ) : TimerLoop κ where
  now := now
  timerfd := { armed := none, expired := false }
  minHeap := #[]
  phase := .polling
  reported := false
  queued := 0
  batch := 0
  pass := .idle

/-- One step: the clock advances, a timer is added (by a handler, a functor, a callback, or before the
loop), or the loop goes on. -/
inductive TimerEvent (κ : Type) where
  | tick (ns : ℕ)
  | addTimerInLoop (cb : κ) (delay : ℤ) (hdelay : 1 ≤ delay)
  | poll (timerReady : Bool)
  | handleRead
  | doPendingFunctors
  | handleTimeoutEvents
  | test
  | pop
  | nextIteration

namespace TimerLoop

/-- The clock advances. -/
def tick (s : TimerLoop κ) (ns : ℕ) : TimerLoop κ :=
  { s with now := s.now + ns, timerfd := s.timerfd.advance (s.now + ns) }

def addTimerInLoop (s : TimerLoop κ) (cb : κ) (delay : ℤ) : TimerLoop κ :=
  { s with
    timerfd := setTimer s.timerfd s.now delay
    minHeap := insert s.minHeap (Timer.make s.now delay cb) }

/-- `poll` returns, with the timer's channel among the active ones or not. -/
def poll (s : TimerLoop κ) (timerReady : Bool) : TimerLoop κ :=
  { s with phase := .handling, reported := timerReady && s.timerfd.expired }

def handleRead (s : TimerLoop κ) : TimerLoop κ :=
  { s with timerfd := readTimerFd s.timerfd, reported := false, queued := s.queued + 1 }

/-- The pending functors become the batch to run. -/
def doPendingFunctors (s : TimerLoop κ) : TimerLoop κ :=
  { s with phase := .functors, batch := s.queued, queued := 0 }

/-- A queued `handleTimeoutEvents` begins: it reads the clock. -/
def handleTimeoutEvents (s : TimerLoop κ) : TimerLoop κ :=
  { s with batch := s.batch - 1, pass := .looping (time s.now) }

/-- One test of its loop, at the clock reading `now`: the pass is over if the heap is empty or the front
timer has not expired, else the callback of that timer is called. -/
def test (s : TimerLoop κ) (now : ℤ) : TimerLoop κ :=
  if h : 0 < s.minHeap.size then
    if now < s.minHeap[0].expireTime then { s with pass := .idle } else { s with pass := .callback now }
  else { s with pass := .idle }

end TimerLoop

end WServer
