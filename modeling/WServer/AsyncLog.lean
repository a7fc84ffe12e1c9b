import WServer.LogStream

/-!
# The asynchronous logger

`AsyncLog` takes the lines of any number of threads into large buffers, and a thread of its own writes
the full ones to the log file.  The front end fills `m_cur_buffer` and moves it to `m_buffers` when it
is full; the log thread takes all buffers in a critical section, hands their bytes to the `LogFile`
outside of it, and keeps two of them as spares for the next one.

The machine below has one step for `append`, which runs under `m_mutex`, one for each of the
assignments of `stop` and `flush`, and one for each part of `threadFunc` that touches shared data or
ends at a test (`ThreadPc`).  Between two steps `m_mutex` is free.  A missing buffer is `none`, and a
step that would use it stops with a `LogFault`.
-/

namespace WServer

/-- `AsyncLog::Buffer` -/
abbrev LargeBuffer : Type := FixedBuffer kLargerBufferSize

/-- Where `threadFunc` stands: at the test of `m_running`, before its critical section, in the wait of
it, before the loop that hands the buffers to the log file, before the spares are taken back, at the test
of `m_flush`, behind the loop, or returned. -/
inductive ThreadPc where
  | loopTest
  | lock
  | waiting
  | writeOut
  | recycle
  | flushTest
  | epilogue
  | returned
  deriving DecidableEq, Repr

/-- The logger and the locals of its thread.  `output` holds the bytes handed to the `LogFile`,
`flushCallers` and `flushWaiters` count the calls of `flush` that have set `m_flush` and do not wait yet,
and those that wait. -/
structure AsyncLog where
  running : Bool
  flush : Bool
  flushCallers : ℕ
  flushWaiters : ℕ
  curBuffer : Option LargeBuffer
  nextBuffer : Option LargeBuffer
  buffers : List (Option LargeBuffer)
  pc : ThreadPc
  newBuffer1 : Option LargeBuffer
  newBuffer2 : Option LargeBuffer
  writeToFile : List (Option LargeBuffer)
  output : List UInt8
  deriving DecidableEq, Repr

/-- A step that dereferences a missing buffer (in `append`, in the loop that writes, in `reset`), that
takes the last of no buffers, or that is not taken where the thread stands. -/
inductive LogFault where
  | appendNull
  | writeNull
  | resetNull
  | backOfEmpty
  | notThere
  deriving DecidableEq, Repr

/-- `append` takes messages up to the size of the front end's buffers; `threadFunc` is one step of the
log thread, with what `timeStamp()` returns if it is called. -/
inductive LogEvent where
  | append (msg : List UInt8) (hlen : msg.length ≤ kSmallBufferSize)
  | stop
  | flush
  | flushWait
  | threadFunc (timeStamp : List UInt8)

/-- The message `x` fits. -/
theorem oneByte_fits : [(120 : UInt8)].length ≤ kSmallBufferSize := by decide

namespace AsyncLog

/-- The logger after `start()`. -/
def start : AsyncLog where
  running := true
  flush := false
  flushCallers := 0
  flushWaiters := 0
  curBuffer := some FixedBuffer.make
  nextBuffer := some FixedBuffer.make
  buffers := []
  pc := .loopTest
  newBuffer1 := some FixedBuffer.make
  newBuffer2 := some FixedBuffer.make
  writeToFile := []
  output := []

/-! ### The front end -/

/-- `m_cur_buffer->append(msg, len)` -/
def writeCurBuffer (s : AsyncLog) (msg : List UInt8) : Except LogFault AsyncLog :=
  match s.curBuffer with
  | some cur => .ok { s with curBuffer := some (cur.append msg) }
  | none => .error .appendNull

/-- `m_buffers.push_back(std::move(m_cur_buffer))` -/
def pushCurBuffer (s : AsyncLog) : AsyncLog :=
  { s with buffers := s.buffers ++ [s.curBuffer], curBuffer := none }

def append (s : AsyncLog) (msg : List UInt8) : Except LogFault AsyncLog :=
  match s.curBuffer with
  | none => .error .appendNull
  | some cur =>
      if msg.length ≤ cur.available then s.writeCurBuffer msg
      else
        let s := s.pushCurBuffer
        let s : AsyncLog :=
          match s.nextBuffer with
          | none => { s with nextBuffer := some FixedBuffer.make }
          | some next => { s with curBuffer := some next, nextBuffer := s.curBuffer }
        s.writeCurBuffer msg

/-- `stop` -/
def stop (s : AsyncLog) : AsyncLog :=
  { s with running := false }

/-- `flush`, up to its wait. -/
def setFlush (s : AsyncLog) : AsyncLog :=
  { s with flush := true, flushCallers := s.flushCallers + 1 }

/-- A caller of `flush` starts to wait. -/
def flushWait (s : AsyncLog) : AsyncLog :=
  { s with flushCallers := s.flushCallers - 1, flushWaiters := s.flushWaiters + 1 }

/-! ### The log thread -/

/-- The critical section, behind the wait. -/
def takeBuffers (s : AsyncLog) : AsyncLog :=
  let s := s.pushCurBuffer
  let s : AsyncLog := { s with curBuffer := s.newBuffer1, newBuffer1 := s.curBuffer }
  let s : AsyncLog := { s with writeToFile := s.buffers, buffers := s.writeToFile }
  match s.nextBuffer with
  | none => { s with nextBuffer := s.newBuffer2, newBuffer2 := none, pc := .writeOut }
  | some _ => { s with pc := .writeOut }

/-- The line that stands for dropped buffers, cut to the 255 characters of its array. -/
def dropNotice (timeStamp : List UInt8) (dropped : ℕ) : List UInt8 :=
  (ascii "Dropped log message at " ++ timeStamp ++ ascii ", " ++ ascii (toString dropped)
    ++ ascii " larger buffers\n").take 255

/-- Too many buffers: all but two are dropped. -/
def dropBuffers (s : AsyncLog) (timeStamp : List UInt8) : AsyncLog :=
  if 20 < s.writeToFile.length then
    { s with
      output := s.output ++ dropNotice timeStamp (s.writeToFile.length - 2)
      writeToFile := s.writeToFile.take 2 }
  else s

/-- The bytes of a list of buffers, one after the other. -/
def bytesOf : List (Option LargeBuffer) → Except LogFault (List UInt8)
  | [] => .ok []
  | none :: _ => .error .writeNull
  | some b :: bs =>
      match bytesOf bs with
      | .ok bytes => .ok (b.content ++ bytes)
      | .error f => .error f

/-- The loop over `write_to_file`. -/
def writeBuffers (s : AsyncLog) : Except LogFault AsyncLog :=
  match bytesOf s.writeToFile with
  | .ok bytes => .ok { s with output := s.output ++ bytes, pc := .recycle }
  | .error f => .error f

/-- A missing spare is the last buffer of `write_to_file`, emptied. -/
def takeSpare (spare : Option LargeBuffer) (writeToFile : List (Option LargeBuffer)) :
    Except LogFault (Option LargeBuffer × List (Option LargeBuffer)) :=
  match spare with
  | some b => .ok (some b, writeToFile)
  | none =>
      match writeToFile.getLast? with
      | none => .error .backOfEmpty
      | some none => .error .resetNull
      | some (some b) => .ok (some b.reset, writeToFile.dropLast)

/-- From the resize of `write_to_file` to its clearing. -/
def recycle (s : AsyncLog) : Except LogFault AsyncLog :=
  let writeToFile := if 2 < s.writeToFile.length then s.writeToFile.take 2 else s.writeToFile
  match takeSpare s.newBuffer1 writeToFile with
  | .error f => .error f
  | .ok (newBuffer1, writeToFile) =>
      match takeSpare s.newBuffer2 writeToFile with
      | .error f => .error f
      | .ok (newBuffer2, _) =>
          .ok { s with
            newBuffer1 := newBuffer1
            newBuffer2 := newBuffer2
            writeToFile := []
            pc := .flushTest }

/-- One step of `threadFunc`.  The wait ends with a signal, with its timeout, or for no reason. -/
def threadFunc (s : AsyncLog) (timeStamp : List UInt8) : Except LogFault AsyncLog :=
  match s.pc with
  | .loopTest => .ok { s with pc := if s.running then .lock else .epilogue }
  | .lock => if s.buffers = [] then .ok { s with pc := .waiting } else .ok s.takeBuffers
  | .waiting => .ok s.takeBuffers
  | .writeOut => (s.dropBuffers timeStamp).writeBuffers
  | .recycle => s.recycle
  | .flushTest => .ok { s with running := if s.flush then false else s.running, pc := .loopTest }
  | .epilogue =>
      .ok { s with
        flushWaiters := if s.flush then s.flushWaiters - 1 else s.flushWaiters
        pc := .returned }
  | .returned => .error .notThere

end AsyncLog

/-- One step of the front end or of the log thread. -/
def logStep (s : AsyncLog) : LogEvent → Except LogFault AsyncLog
  | .append msg _ => s.append msg
  | .stop => .ok s.stop
  | .flush => .ok s.setFlush
  | .flushWait => if 0 < s.flushCallers then .ok s.flushWait else .error .notThere
  | .threadFunc timeStamp => s.threadFunc timeStamp

namespace AsyncLog

/-! ### What the steps do -/

variable {s : AsyncLog} {msg : List UInt8}

theorem append_fits {cur : LargeBuffer} (hcur : s.curBuffer = some cur)
    (hfits : msg.length ≤ cur.available) :
    s.append msg = .ok { s with curBuffer := some (cur.append msg) } := by
  simp only [append, hcur, if_pos hfits, writeCurBuffer]

theorem append_switches {cur next : LargeBuffer} (hcur : s.curBuffer = some cur)
    (hfull : ¬ msg.length ≤ cur.available) (hnext : s.nextBuffer = some next) :
    s.append msg = .ok { s with
      curBuffer := some (next.append msg)
      nextBuffer := none
      buffers := s.buffers ++ [some cur] } := by
  simp only [append, hcur, if_neg hfull, pushCurBuffer, hnext, writeCurBuffer]

theorem append_faults {cur : LargeBuffer} (hcur : s.curBuffer = some cur)
    (hfull : ¬ msg.length ≤ cur.available) (hnext : s.nextBuffer = none) :
    s.append msg = .error .appendNull := by
  simp only [append, hcur, if_neg hfull, pushCurBuffer, hnext, writeCurBuffer]

/-- What a successful `append` does: it writes into the current buffer, or into the spare one and moves
the current one to `m_buffers`. -/
theorem append_cases {s' : AsyncLog} (h : s.append msg = .ok s') :
    (∃ cur, s.curBuffer = some cur ∧ s' = { s with curBuffer := some (cur.append msg) }) ∨
      ∃ cur next, s.curBuffer = some cur ∧ s.nextBuffer = some next ∧
        s' = { s with
          curBuffer := some (next.append msg)
          nextBuffer := none
          buffers := s.buffers ++ [some cur] } := by
  cases hcur : s.curBuffer with
  | none => simp only [append, hcur, reduceCtorEq] at h
  | some cur =>
      by_cases hfits : msg.length ≤ cur.available
      · rw [append_fits hcur hfits] at h
        cases h
        exact Or.inl ⟨cur, rfl, rfl⟩
      · cases hnext : s.nextBuffer with
        | none =>
            rw [append_faults hcur hfits hnext] at h
            cases h
        | some next =>
            rw [append_switches hcur hfits hnext] at h
            cases h
            exact Or.inr ⟨cur, next, rfl, rfl, rfl⟩

theorem logStep_flushWait {s' : AsyncLog} (h : logStep s .flushWait = .ok s') : s' = s.flushWait := by
  rw [logStep] at h
  split at h
  · cases h
    rfl
  · cases h

/-- The critical section gives the front end the first spare, and the second one if it needs it. -/
theorem takeBuffers_eq (s : AsyncLog) :
    s.takeBuffers = { s with
      curBuffer := s.newBuffer1
      nextBuffer := s.nextBuffer.or s.newBuffer2
      buffers := s.writeToFile
      pc := .writeOut
      newBuffer1 := none
      newBuffer2 := if s.nextBuffer = none then none else s.newBuffer2
      writeToFile := s.buffers ++ [s.curBuffer] } := by
  cases hnext : s.nextBuffer with
  | none => simp only [takeBuffers, pushCurBuffer, hnext, Option.none_or, if_true]
  | some next =>
      simp only [takeBuffers, pushCurBuffer, hnext, Option.some_or, reduceCtorEq, if_false]

/-- Buffers that are all there give their bytes. -/
theorem bytesOf_eq (bs : List LargeBuffer) :
    bytesOf (bs.map some) = .ok (bs.flatMap FixedBuffer.content) := by
  induction bs with
  | nil => rfl
  | cons b bs ih => simp only [List.map_cons, bytesOf, ih, List.flatMap_cons]

end AsyncLog

end WServer
