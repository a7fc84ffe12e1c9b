import WServer.LogBuffers

/-!
# Where the bytes of the log are

The bytes of the messages pass from the front end's buffers through `write_to_file` to the `LogFile`.

* `output`, `inFlight`, `pending` — what the `LogFile` has been handed, what the log thread has taken
  and not handed over, and what waits for a critical section;
* `Clean` — the spare buffers are empty, so a buffer that is recycled brings nothing along;
* `ThreadStep`, `cut` — what one step of the log thread does, where it drops no buffers and where it does;
* `Clean.threadFunc` — there is nothing else it does.
-/

namespace WServer

/-- The bytes an `append` stores. -/
def LogEvent.stored : LogEvent → List UInt8
  | .append msg _ => strncpy msg
  | _ => []

namespace AsyncLog

variable {s s' : AsyncLog}

def contentOf : Option LargeBuffer → List UInt8
  | some b => b.content
  | none => []

/-- The bytes the log thread has taken and not handed to the `LogFile`. -/
def inFlight (s : AsyncLog) : List UInt8 :=
  if s.pc = .writeOut then s.writeToFile.flatMap contentOf else []

/-- The bytes that wait for a critical section. -/
def pending (s : AsyncLog) : List UInt8 := s.buffers.flatMap contentOf ++ contentOf s.curBuffer

/-- The bytes that are handed to the `LogFile`, or will be without another critical section. -/
def handed (s : AsyncLog) : List UInt8 := s.output ++ s.inFlight

/-- All bytes stored so far, the oldest first. -/
def total (s : AsyncLog) : List UInt8 := s.handed ++ s.pending

theorem inFlight_of_ne (h : s.pc ≠ .writeOut) : s.inFlight = [] := if_neg h

theorem handed_of_ne (h : s.pc ≠ .writeOut) : s.handed = s.output := by
  rw [handed, inFlight_of_ne h, List.append_nil]

/-- An intact logger whose spare buffers are empty. -/
structure Clean (s : AsyncLog) : Prop extends Intact s where
  nextEmpty : contentOf s.nextBuffer = []
  newBuffer1Empty : contentOf s.newBuffer1 = []
  newBuffer2Empty : contentOf s.newBuffer2 = []

theorem clean_start : Clean start := ⟨intact_start, rfl, rfl, rfl⟩

/-! ### The steps of the log thread -/

/-- One step of the log thread that drops no buffers. -/
inductive ThreadStep (s : AsyncLog) : AsyncLog → Prop where
  | testRunning (hpc : s.pc = .loopTest) :
      ThreadStep s { s with pc := if s.running = true then .lock else .epilogue }
  | wait (hpc : s.pc = .lock) : ThreadStep s { s with pc := .waiting }
  | take (hpc : s.pc = .lock ∨ s.pc = .waiting) : ThreadStep s s.takeBuffers
  | write (hpc : s.pc = .writeOut) :
      ThreadStep s { s with output := s.output ++ s.inFlight, pc := .recycle }
  | recycle (hpc : s.pc = .recycle) (b1 b2 : LargeBuffer) (h1 : b1.content = []) (h2 : b2.content = []) :
      ThreadStep s { s with
        newBuffer1 := some b1
        newBuffer2 := some b2
        writeToFile := []
        pc := .flushTest }
  | testFlush (hpc : s.pc = .flushTest) (running : Bool) (hflush : s.flush = true → running = false)
      (hkeep : s.running = false → running = false) :
      ThreadStep s { s with running := running, pc := .loopTest }
  | finish (hpc : s.pc = .epilogue) (waiters : ℕ) :
      ThreadStep s { s with flushWaiters := waiters, pc := .returned }

/-- The step that writes out too many buffers: a notice and the first two of them. -/
def cut (s : AsyncLog) (timeStamp : List UInt8) : AsyncLog :=
  { s with
    output := s.output ++ dropNotice timeStamp (s.writeToFile.length - 2)
      ++ (s.writeToFile.take 2).flatMap contentOf
    writeToFile := s.writeToFile.take 2
    pc := .recycle }

/-- Buffers that are all there give their bytes. -/
theorem bytesOf_content {ws : List (Option LargeBuffer)} (h : ∃ bs : List LargeBuffer, ws = bs.map some) :
    bytesOf ws = .ok (ws.flatMap contentOf) := by
  obtain ⟨bs, rfl⟩ := h
  rw [bytesOf_eq, List.flatMap_map]
  rfl

/-- A spare taken back is empty. -/
theorem takeSpare_content {b b' : Option LargeBuffer} {ws ws' : List (Option LargeBuffer)}
    (h : takeSpare b ws = .ok (b', ws')) (hb : contentOf b = []) : contentOf b' = [] := by
  cases b with
  | some b =>
      cases h
      exact hb
  | none =>
      rw [takeSpare] at h
      split at h
      · cases h
      · cases h
      · cases h
        rfl

/-- The buffers the log thread writes out are there. -/
theorem Intact.writeToFile_there (h : Intact s) (hbusy : s.Busy) :
    ∃ bs : List LargeBuffer, s.writeToFile = bs.map some := by
  obtain ⟨bs, hbs, -⟩ := (h.writing hbusy).writeToFile
  exact ⟨bs, hbs⟩

/-- **The log thread** drops no buffers, or it cuts more than twenty of them down to two. -/
theorem Clean.threadFunc {timeStamp : List UInt8} (h : Clean s)
    (hstep : s.threadFunc timeStamp = .ok s') :
    (ThreadStep s s' ∧ (s.pc = .writeOut → s.writeToFile.length ≤ 20)) ∨
      (s.pc = .writeOut ∧ 20 < s.writeToFile.length ∧ s' = s.cut timeStamp) := by
  rw [AsyncLog.threadFunc] at hstep
  cases hpc : s.pc with
  | loopTest =>
      simp only [hpc] at hstep
      cases hstep
      exact Or.inl ⟨.testRunning hpc, fun h => by cases h⟩
  | lock =>
      simp only [hpc] at hstep
      split at hstep
      · cases hstep
        exact Or.inl ⟨.wait hpc, fun h => by cases h⟩
      · cases hstep
        exact Or.inl ⟨.take (Or.inl hpc), fun h => by cases h⟩
  | waiting =>
      simp only [hpc] at hstep
      cases hstep
      exact Or.inl ⟨.take (Or.inr hpc), fun h => by cases h⟩
  | writeOut =>
      obtain ⟨bs, hbs⟩ := h.writeToFile_there (Or.inl hpc)
      simp only [hpc] at hstep
      by_cases hmany : 20 < s.writeToFile.length
      · right
        refine ⟨rfl, hmany, ?_⟩
        have hthere : ∃ bs : List LargeBuffer, s.writeToFile.take 2 = bs.map some :=
          ⟨bs.take 2, by rw [hbs, List.map_take]⟩
        simp only [dropBuffers, if_pos hmany, writeBuffers, bytesOf_content hthere] at hstep
        cases hstep
        rfl
      · left
        simp only [dropBuffers, if_neg hmany, writeBuffers, bytesOf_content ⟨bs, hbs⟩] at hstep
        cases hstep
        have hwrite := ThreadStep.write hpc
        rw [inFlight, if_pos hpc] at hwrite
        exact ⟨hwrite, fun _ => Nat.not_lt.mp hmany⟩
  | recycle =>
      left
      obtain ⟨c1, c2, rest, hc1, rest', hc2⟩ := (h.writing (Or.inr hpc)).recycled
      simp only [hpc, AsyncLog.recycle, hc1, hc2] at hstep
      cases hstep
      exact ⟨.recycle hpc c1 c2 (takeSpare_content hc1 h.newBuffer1Empty)
        (takeSpare_content hc2 h.newBuffer2Empty), fun h => by cases h⟩
  | flushTest =>
      left
      simp only [hpc] at hstep
      cases hstep
      refine ⟨.testFlush hpc _ (fun hflush => if_pos hflush) fun hrunning => ?_, fun h => by cases h⟩
      rw [hrunning, ite_self]
  | epilogue =>
      simp only [hpc] at hstep
      cases hstep
      exact Or.inl ⟨.finish hpc _, fun h => by cases h⟩
  | returned =>
      simp only [hpc, reduceCtorEq] at hstep

theorem ThreadStep.not_busy (h : s.pc = .lock ∨ s.pc = .waiting) : ¬ s.Busy := by
  rintro (hat | hat) <;> rcases h with hpc | hpc <;> rw [hpc] at hat <;> cases hat

/-- The critical section takes what waits, and leaves empty buffers to the front end. -/
theorem Clean.takeBuffers (h : Clean s) (hpc : s.pc = .lock ∨ s.pc = .waiting) :
    s.takeBuffers.inFlight = s.pending ∧ s.takeBuffers.pending = [] := by
  have hwrite := (h.resting (ThreadStep.not_busy hpc)).writeToFile
  rw [takeBuffers_eq]
  constructor
  · show (s.buffers ++ [s.curBuffer]).flatMap contentOf = _
    rw [List.flatMap_append, List.flatMap_singleton, pending]
  · show s.writeToFile.flatMap contentOf ++ contentOf s.newBuffer1 = _
    rw [hwrite, h.newBuffer1Empty]
    rfl

theorem takeBuffers_output (s : AsyncLog) : s.takeBuffers.output = s.output := by
  rw [takeBuffers_eq]

/-! ### The invariant -/

/-- The spares stay empty. -/
theorem Clean.threadStep (h : Clean s) (hintact : Intact s') (hstep : ThreadStep s s') : Clean s' := by
  cases hstep with
  | testRunning hpc => exact ⟨hintact, h.nextEmpty, h.newBuffer1Empty, h.newBuffer2Empty⟩
  | wait hpc => exact ⟨hintact, h.nextEmpty, h.newBuffer1Empty, h.newBuffer2Empty⟩
  | take hpc =>
      rw [takeBuffers_eq] at hintact ⊢
      refine ⟨hintact, ?_, rfl, ?_⟩
      · show contentOf (s.nextBuffer.or s.newBuffer2) = []
        cases hnext : s.nextBuffer with
        | none => exact h.newBuffer2Empty
        | some next =>
            have hempty := h.nextEmpty
            rw [hnext] at hempty
            exact hempty
      · show contentOf (if s.nextBuffer = none then none else s.newBuffer2) = []
        split
        · rfl
        · exact h.newBuffer2Empty
  | write hpc => exact ⟨hintact, h.nextEmpty, h.newBuffer1Empty, h.newBuffer2Empty⟩
  | recycle hpc b1 b2 h1 h2 => exact ⟨hintact, h.nextEmpty, h1, h2⟩
  | testFlush hpc running hflush hkeep =>
      exact ⟨hintact, h.nextEmpty, h.newBuffer1Empty, h.newBuffer2Empty⟩
  | finish hpc waiters => exact ⟨hintact, h.nextEmpty, h.newBuffer1Empty, h.newBuffer2Empty⟩

theorem Clean.append {msg : List UInt8} (h : Clean s) (hstep : s.append msg = .ok s') : Clean s' := by
  have hintact := h.toIntact.append hstep
  rcases append_cases hstep with ⟨cur, hcur, rfl⟩ | ⟨cur, next, hcur, hnext, rfl⟩
  · exact ⟨hintact, h.nextEmpty, h.newBuffer1Empty, h.newBuffer2Empty⟩
  · exact ⟨hintact, rfl, h.newBuffer1Empty, h.newBuffer2Empty⟩

/-- **An append** puts its message behind all that waits. -/
theorem Clean.pending_append {msg : List UInt8} (h : Clean s) (hstep : s.append msg = .ok s') :
    s'.pending = s.pending ++ strncpy msg ∧ s'.inFlight = s.inFlight ∧ s'.output = s.output := by
  rcases append_cases hstep with ⟨cur, hcur, rfl⟩ | ⟨cur, next, hcur, hnext, rfl⟩
  · refine ⟨?_, rfl, rfl⟩
    simp only [pending, hcur, contentOf, FixedBuffer.append_content, List.append_assoc]
  · have hempty : next.content = [] := by
      have hnone := h.nextEmpty
      rw [hnext] at hnone
      exact hnone
    refine ⟨?_, rfl, rfl⟩
    simp only [pending, hcur, contentOf, FixedBuffer.append_content, hempty, List.flatMap_append,
      List.flatMap_singleton, List.nil_append, List.append_assoc]

/-- **One step** keeps the spare buffers empty, whatever is dropped. -/
theorem clean_step (s : AsyncLog) (e : LogEvent) (s' : AsyncLog) (h : Clean s)
    (hstep : logStep s e = .ok s') : Clean s' := by
  have hintact := intact_step s e s' h.toIntact hstep
  cases e with
  | append msg hlen => exact h.append hstep
  | stop =>
      cases hstep
      exact ⟨hintact, h.nextEmpty, h.newBuffer1Empty, h.newBuffer2Empty⟩
  | flush =>
      cases hstep
      exact ⟨hintact, h.nextEmpty, h.newBuffer1Empty, h.newBuffer2Empty⟩
  | flushWait =>
      cases logStep_flushWait hstep
      exact ⟨hintact, h.nextEmpty, h.newBuffer1Empty, h.newBuffer2Empty⟩
  | threadFunc timeStamp =>
      rcases h.threadFunc hstep with ⟨hthread, -⟩ | ⟨-, -, rfl⟩
      · exact h.threadStep hintact hthread
      · exact ⟨hintact, h.nextEmpty, h.newBuffer1Empty, h.newBuffer2Empty⟩

end AsyncLog

end WServer
