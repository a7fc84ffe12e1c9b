import WServer.AsyncLog
import WServer.Library.Runs

/-!
# No missing buffer

The buffers of the logger move between the front end, the list of full buffers and the log thread.  The
front end has two of them; `append` needs a third one when both fill up before the next critical section
of the log thread, and then it gives the new buffer to `m_next_buffer` instead of `m_cur_buffer`.

* `Intact` — who holds which buffers between two steps;
* `Intact.threadFunc` — the log thread never misses one;
* `append_faults_iff` — when `append` does;
* `buffers_present_iff` — whole runs.
-/

namespace WServer

namespace AsyncLog

open Library.Runs

variable {s s' : AsyncLog}

/-! ### The invariant -/

/-- The log thread has both spares, and nothing to write. -/
structure Resting (newBuffer1 newBuffer2 : Option LargeBuffer)
    (writeToFile : List (Option LargeBuffer)) : Prop where
  newBuffer1 : newBuffer1 ≠ none
  newBuffer2 : newBuffer2 ≠ none
  writeToFile : writeToFile = []

/-- The log thread has given away one spare or both, and has as many buffers to take them back from. -/
structure Writing (newBuffer1 newBuffer2 : Option LargeBuffer)
    (writeToFile : List (Option LargeBuffer)) : Prop where
  newBuffer1 : newBuffer1 = none
  writeToFile : ∃ bs : List LargeBuffer, writeToFile = bs.map some ∧ 0 < bs.length ∧
    (newBuffer2 = none → 2 ≤ bs.length)

/-- Between the critical section and the clearing of `write_to_file`. -/
def Busy (s : AsyncLog) : Prop := s.pc = .writeOut ∨ s.pc = .recycle

/-- No buffer is missing: the front end has one to write to, and a second one unless the first one was
full before; the list of full buffers has no gap; and the log thread has its own. -/
structure Intact (s : AsyncLog) : Prop where
  cur : s.curBuffer ≠ none
  next : s.nextBuffer = none → s.buffers ≠ []
  buffers : ∃ bs : List LargeBuffer, s.buffers = bs.map some
  writing : s.Busy → Writing s.newBuffer1 s.newBuffer2 s.writeToFile
  resting : ¬ s.Busy → Resting s.newBuffer1 s.newBuffer2 s.writeToFile

theorem intact_start : Intact start := by
  refine ⟨nofun, nofun, ⟨[], rfl⟩, ?_, fun _ => ⟨nofun, nofun, rfl⟩⟩
  rintro (h | h) <;> cases h

/-! ### The front end -/

/-- The condition on a step: the current buffer has room for the message, or the next one is there. -/
def HasSpare (s : AsyncLog) : LogEvent → Prop
  | .append msg _ =>
      (∃ cur, s.curBuffer = some cur ∧ msg.length ≤ cur.available) ∨ s.nextBuffer ≠ none
  | _ => True

/-- **`append` misses a buffer** exactly when the current one is full and the next one is in use. -/
theorem append_faults_iff {msg : List UInt8} (hlen : msg.length ≤ kSmallBufferSize)
    (hcur : s.curBuffer ≠ none) :
    s.append msg = .error .appendNull ↔ ¬ HasSpare s (.append msg hlen) := by
  obtain ⟨cur, hcur⟩ := Option.ne_none_iff_exists'.mp hcur
  rw [HasSpare, not_or, not_not]
  by_cases hfits : msg.length ≤ cur.available
  · rw [append_fits hcur hfits]
    constructor
    · intro h
      cases h
    · intro h
      exact absurd ⟨cur, hcur, hfits⟩ h.1
  · have hroom : ¬ ∃ c, s.curBuffer = some c ∧ msg.length ≤ c.available := by
      rintro ⟨c, hc, hle⟩
      rw [hcur] at hc
      cases hc
      exact hfits hle
    cases hnext : s.nextBuffer with
    | none =>
        rw [append_faults hcur hfits hnext]
        exact ⟨fun _ => ⟨hroom, rfl⟩, fun _ => rfl⟩
    | some next =>
        rw [append_switches hcur hfits hnext]
        simp

/-- `append` with a buffer to write into. -/
theorem append_ok {msg : List UInt8} (hlen : msg.length ≤ kSmallBufferSize) (hcur : s.curBuffer ≠ none)
    (hspare : HasSpare s (.append msg hlen)) : ∃ s', s.append msg = .ok s' := by
  obtain ⟨cur, hcur⟩ := Option.ne_none_iff_exists'.mp hcur
  by_cases hfits : msg.length ≤ cur.available
  · exact ⟨_, append_fits hcur hfits⟩
  · rcases hspare with ⟨c, hc, hle⟩ | hnext
    · rw [hcur] at hc
      cases hc
      exact absurd hle hfits
    · obtain ⟨next, hnext⟩ := Option.ne_none_iff_exists'.mp hnext
      exact ⟨_, append_switches hcur hfits hnext⟩

theorem Intact.append {msg : List UInt8} (h : Intact s) (happend : s.append msg = .ok s') :
    Intact s' := by
  rcases append_cases happend with ⟨cur, _, rfl⟩ | ⟨cur, next, _, _, rfl⟩
  · exact ⟨nofun, h.next, h.buffers, h.writing, h.resting⟩
  · refine ⟨nofun, fun _ => by simp, ?_, h.writing, h.resting⟩
    obtain ⟨bs, hbs⟩ := h.buffers
    exact ⟨bs ++ [cur], by simp [hbs]⟩

/-! ### The log thread -/

/-- The critical section takes one buffer at least, and a second one if it gives both spares away. -/
theorem Intact.takeBuffers (h : Intact s) (hidle : ¬ s.Busy) : Intact s.takeBuffers := by
  have hrest := h.resting hidle
  obtain ⟨cur, hcur⟩ := Option.ne_none_iff_exists'.mp h.cur
  obtain ⟨bs, hbs⟩ := h.buffers
  rw [takeBuffers_eq]
  refine ⟨hrest.newBuffer1, fun hnone => ?_, ⟨[], hrest.writeToFile⟩, fun _ => ⟨rfl, ?_⟩,
    fun hbusy => absurd (Or.inl rfl) hbusy⟩
  · exact absurd (Option.or_eq_none_iff.mp hnone).2 hrest.newBuffer2
  · refine ⟨bs ++ [cur], by simp [hbs, hcur], by simp, ?_⟩
    intro hnone
    have hnext : s.nextBuffer = none := by
      by_contra hn
      exact hrest.newBuffer2 (by simpa [hn] using hnone)
    have hne := h.next hnext
    rw [hbs] at hne
    have hpos : 0 < bs.length := List.length_pos_iff.mpr fun hnil => hne (by rw [hnil]; rfl)
    rw [List.length_append, List.length_singleton]
    omega

section

variable {b1 b2 : Option LargeBuffer} {ws : List (Option LargeBuffer)}

/-- Two buffers are enough. -/
theorem Writing.take_two (h : Writing b1 b2 ws) (hmany : 2 < ws.length) :
    Writing b1 b2 (ws.take 2) := by
  obtain ⟨bs, hbs, -, -⟩ := h.writeToFile
  rw [hbs, List.length_map] at hmany
  have htwo : (bs.take 2).length = 2 := by
    rw [List.length_take]
    omega
  exact ⟨h.newBuffer1, bs.take 2, by rw [hbs, List.map_take], by omega, fun _ => by omega⟩

theorem takeSpare_some (b : LargeBuffer) : takeSpare (some b) ws = .ok (some b, ws) := rfl

/-- A spare that is missing is taken from a buffer that is there. -/
theorem takeSpare_none (bs : List LargeBuffer) (hpos : 0 < bs.length) :
    ∃ b, takeSpare none (bs.map some) = .ok (some b, bs.dropLast.map some) := by
  have hne : bs ≠ [] := List.length_pos_iff.mp hpos
  have hlast : (bs.map some).getLast? = some (some (bs.getLast hne)) := by
    rw [List.getLast?_map, List.getLast?_eq_some_getLast hne]
    rfl
  refine ⟨(bs.getLast hne).reset, ?_⟩
  simp only [takeSpare, hlast, List.map_dropLast]

/-- Both spares are taken back. -/
theorem Writing.takeSpares (h : Writing b1 b2 ws) : ∃ c1 c2 rest,
    takeSpare b1 ws = .ok (some c1, rest) ∧ ∃ rest', takeSpare b2 rest = .ok (some c2, rest') := by
  obtain ⟨rfl, bs, rfl, hpos, htwo⟩ := h
  obtain ⟨c1, hc1⟩ := takeSpare_none bs hpos
  cases b2 with
  | some c2 => exact ⟨c1, c2, _, hc1, _, takeSpare_some c2⟩
  | none =>
      have hrest : 0 < bs.dropLast.length := by
        have htwo := htwo rfl
        rw [List.length_dropLast]
        omega
      obtain ⟨c2, hc2⟩ := takeSpare_none bs.dropLast hrest
      exact ⟨c1, c2, _, hc1, _, hc2⟩

/-- So they are from `write_to_file` resized. -/
theorem Writing.recycled (h : Writing b1 b2 ws) : ∃ c1 c2 rest,
    takeSpare b1 (if 2 < ws.length then ws.take 2 else ws) = .ok (some c1, rest) ∧
      ∃ rest', takeSpare b2 rest = .ok (some c2, rest') := by
  split
  · exact (h.take_two ‹_›).takeSpares
  · exact h.takeSpares

end

/-- Dropping keeps what the log thread needs. -/
theorem Intact.dropBuffers (h : Intact s) (timeStamp : List UInt8) :
    Intact (s.dropBuffers timeStamp) := by
  rw [AsyncLog.dropBuffers]
  split
  · rename_i hmany
    refine ⟨h.cur, h.next, h.buffers, fun hbusy => (h.writing hbusy).take_two (by omega),
      fun hidle => ?_⟩
    have hnil := (h.resting hidle).writeToFile
    rw [hnil, List.length_nil] at hmany
    omega
  · exact h

theorem dropBuffers_pc (timeStamp : List UInt8) : (s.dropBuffers timeStamp).pc = s.pc := by
  rw [AsyncLog.dropBuffers]
  split <;> rfl

/-- **Writing out** never meets a missing buffer. -/
theorem Intact.writeBuffers (h : Intact s) (hpc : s.pc = .writeOut) :
    ∃ s', s.writeBuffers = .ok s' ∧ Intact s' := by
  have hwriting := h.writing (Or.inl hpc)
  obtain ⟨bs, hbs, -, -⟩ := hwriting.writeToFile
  have heq : s.writeBuffers = .ok { s with
      output := s.output ++ bs.flatMap FixedBuffer.content
      pc := .recycle } := by
    simp only [AsyncLog.writeBuffers, hbs, bytesOf_eq]
  exact ⟨_, heq, h.cur, h.next, h.buffers, fun _ => hwriting, fun hidle => absurd (Or.inr rfl) hidle⟩

/-- **Recycling** never fails, and restores both spares. -/
theorem Intact.recycle (h : Intact s) (hpc : s.pc = .recycle) :
    ∃ s', s.recycle = .ok s' ∧ Intact s' := by
  obtain ⟨c1, c2, rest, hc1, rest', hc2⟩ := (h.writing (Or.inr hpc)).recycled
  have heq : s.recycle = .ok { s with
      newBuffer1 := some c1
      newBuffer2 := some c2
      writeToFile := []
      pc := .flushTest } := by
    simp only [AsyncLog.recycle, hc1, hc2]
  refine ⟨_, heq, h.cur, h.next, h.buffers, ?_, fun _ => ⟨nofun, nofun, rfl⟩⟩
  rintro (hat | hat) <;> cases hat

/-- A step that moves only the thread and its flags, outside the writing. -/
theorem Intact.move (h : Intact s) (hidle : ¬ s.Busy) (running : Bool) (waiters : ℕ) {pc : ThreadPc}
    (hpc : pc ≠ .writeOut ∧ pc ≠ .recycle) :
    Intact { s with running := running, flushWaiters := waiters, pc := pc } :=
  ⟨h.cur, h.next, h.buffers, fun hbusy => absurd hbusy (not_or.mpr hpc), fun _ => h.resting hidle⟩

/-- **The log thread never misses a buffer.** -/
theorem Intact.threadFunc (h : Intact s) (timeStamp : List UInt8) (hpc : s.pc ≠ .returned) :
    ∃ s', s.threadFunc timeStamp = .ok s' ∧ Intact s' := by
  have hidle (hat : s.pc ≠ .writeOut ∧ s.pc ≠ .recycle) : ¬ s.Busy := not_or.mpr hat
  rw [AsyncLog.threadFunc]
  cases hat : s.pc with
  | loopTest =>
      refine ⟨_, rfl, h.move (hidle (by simp [hat])) _ _ ?_⟩
      cases s.running <;> decide
  | lock =>
      by_cases hempty : s.buffers = []
      · exact ⟨_, if_pos hempty, h.move (hidle (by simp [hat])) _ _ (by decide)⟩
      · exact ⟨_, if_neg hempty, h.takeBuffers (hidle (by simp [hat]))⟩
  | waiting => exact ⟨_, rfl, h.takeBuffers (hidle (by simp [hat]))⟩
  | writeOut => exact (h.dropBuffers timeStamp).writeBuffers (by rw [dropBuffers_pc, hat])
  | recycle => exact h.recycle hat
  | flushTest => exact ⟨_, rfl, h.move (hidle (by simp [hat])) _ _ (by decide)⟩
  | epilogue => exact ⟨_, rfl, h.move (hidle (by simp [hat])) _ _ (by decide)⟩
  | returned => exact absurd hat hpc

/-! ### Whole runs -/

/-- **One step** keeps the buffers where they belong. -/
theorem intact_step (s : AsyncLog) (e : LogEvent) (s' : AsyncLog) (h : Intact s)
    (hstep : logStep s e = .ok s') : Intact s' := by
  cases e with
  | append msg hlen => exact h.append hstep
  | stop =>
      cases hstep
      exact ⟨h.cur, h.next, h.buffers, h.writing, h.resting⟩
  | flush =>
      cases hstep
      exact ⟨h.cur, h.next, h.buffers, h.writing, h.resting⟩
  | flushWait =>
      cases logStep_flushWait hstep
      exact ⟨h.cur, h.next, h.buffers, h.writing, h.resting⟩
  | threadFunc timeStamp =>
      by_cases hpc : s.pc = .returned
      · simp only [logStep, AsyncLog.threadFunc, hpc, reduceCtorEq] at hstep
      · obtain ⟨t, ht, hintact⟩ := h.threadFunc timeStamp hpc
        rw [logStep, ht] at hstep
        cases hstep
        exact hintact

/-- A step of an intact logger misses the current buffer exactly in an `append` without a spare. -/
theorem appendNull_iff (s : AsyncLog) (e : LogEvent) (h : Intact s) :
    logStep s e = .error .appendNull ↔ ¬ HasSpare s e := by
  cases e with
  | append msg hlen => exact append_faults_iff hlen h.cur
  | stop => exact ⟨nofun, fun hn => absurd trivial hn⟩
  | flush => exact ⟨nofun, fun hn => absurd trivial hn⟩
  | flushWait =>
      refine ⟨?_, fun hn => absurd trivial hn⟩
      intro hstep
      rw [logStep] at hstep
      split at hstep <;> cases hstep
  | threadFunc timeStamp =>
      refine ⟨?_, fun hn => absurd trivial hn⟩
      intro hstep
      by_cases hpc : s.pc = .returned
      · simp only [logStep, AsyncLog.threadFunc, hpc, reduceCtorEq, Except.error.injEq] at hstep
      · obtain ⟨t, ht, -⟩ := h.threadFunc timeStamp hpc
        rw [logStep, ht] at hstep
        cases hstep

/-- **No missing buffer.**  In a run of the logger, `append` always has a buffer to write into, and the
current buffer is there whenever `m_mutex` is free, exactly if at every `append` the message fits into
the current buffer or the next one is at hand. -/
theorem buffers_present_iff (es : List LogEvent) :
    (runFrom logStep start es ≠ .error .appendNull ∧
        ∀ s, ReachedBy logStep start es s → s.curBuffer ≠ none) ↔
      Along logStep HasSpare start es := by
  have hfail := run_failure_iff (f := LogFault.appendNull) intact_step appendNull_iff es intact_start
  refine ⟨fun h => hfail.mp h.1, fun h => ⟨hfail.mpr h, fun s hs => ?_⟩⟩
  exact (run_invariant (fun s e s' hi _ => intact_step s e s' hi) es intact_start h s hs).cur

/-- A burst of messages of one size that fits into the current buffer. -/
theorem burst_fits {msg : List UInt8} (hlen : msg.length ≤ kSmallBufferSize) (n : ℕ) {cur : LargeBuffer}
    (hcur : s.curBuffer = some cur) (hroom : cur.length + n * msg.length ≤ kLargerBufferSize) :
    ∃ cur' : LargeBuffer, cur'.length = cur.length + n * msg.length ∧
      runFrom logStep s (List.replicate n (.append msg hlen)) = .ok { s with curBuffer := some cur' } := by
  induction n generalizing s cur with
  | zero => exact ⟨cur, by omega, by rw [← hcur]; rfl⟩
  | succ n ih =>
      rw [Nat.succ_mul] at hroom
      have havail : msg.length ≤ cur.available := by
        rw [FixedBuffer.available_eq (by omega) (by decide)]
        omega
      have hgrown := cur.append_length msg
      obtain ⟨cur', hlen', hrun⟩ := ih (s := { s with curBuffer := some (cur.append msg) })
        rfl (by omega)
      have hstep : logStep s (.append msg hlen) = .ok { s with curBuffer := some (cur.append msg) } :=
        append_fits hcur havail
      refine ⟨cur', by rw [hlen', hgrown, Nat.succ_mul]; omega, ?_⟩
      rw [List.replicate_succ, runFrom_cons_ok _ hstep, hrun]

section

variable {msg : List UInt8} (hlen : msg.length ≤ kSmallBufferSize) (n : ℕ) {cur next : LargeBuffer}
  (hcur : s.curBuffer = some cur) (hroom : cur.length + n * msg.length ≤ kLargerBufferSize)
  (hfull : kLargerBufferSize < cur.length + n * msg.length + msg.length)

include hroom hfull

/-- The message behind a burst that has filled the current buffer does not fit. -/
theorem burst_full {cur' : LargeBuffer} (hburst : cur'.length = cur.length + n * msg.length) :
    ¬ msg.length ≤ cur'.available := by
  rw [FixedBuffer.available_eq (by omega) (by decide)]
  omega

include hcur

/-- It goes into the next buffer, if this one is at hand. -/
theorem burst_switches (hnext : s.nextBuffer = some next) :
    ∃ cur', runFrom logStep s (List.replicate (n + 1) (.append msg hlen)) = .ok { s with
      curBuffer := some (next.append msg)
      nextBuffer := none
      buffers := s.buffers ++ [some cur'] } := by
  obtain ⟨cur', hcur', hrun⟩ := burst_fits hlen n hcur hroom
  have hstep := append_switches (s := { s with curBuffer := some cur' }) rfl
    (burst_full n hroom hfull hcur') hnext
  refine ⟨cur', ?_⟩
  rw [List.replicate_succ', runFrom_append _ hrun]
  exact runFrom_cons_ok [] hstep

/-- Else it is written through the current buffer, which is gone. -/
theorem burst_faults (hnext : s.nextBuffer = none) :
    runFrom logStep s (List.replicate (n + 1) (.append msg hlen)) = .error .appendNull := by
  obtain ⟨cur', hcur', hrun⟩ := burst_fits hlen n hcur hroom
  have hstep := append_faults (s := { s with curBuffer := some cur' }) rfl
    (burst_full n hroom hfull hcur') hnext
  rw [List.replicate_succ', runFrom_append _ hrun]
  exact runFrom_cons_error [] hstep

end

/-- Two thousand lines as long as the front end's buffers, before the log thread enters its critical
section, fill both buffers; the next one finds none. -/
theorem long_burst_faults {msg : List UInt8} (hlen : msg.length ≤ kSmallBufferSize)
    (hline : msg.length = 4000) :
    runFrom logStep start (List.replicate 2001 (.append msg hlen)) = .error .appendNull := by
  have hgrown := (FixedBuffer.make : LargeBuffer).append_length msg
  obtain ⟨cur, hfirst⟩ := burst_switches (s := start) hlen 1000 rfl
    (by rw [hline]; decide) (by rw [hline]; decide) rfl
  rw [show List.replicate 2001 (LogEvent.append msg hlen) = _ from List.replicate_add 1001 1000 _,
    runFrom_append _ hfirst]
  exact burst_faults hlen 999 rfl (by rw [hgrown, hline]; decide) (by rw [hgrown, hline]; decide) rfl

theorem missing_buffer_used :
    runFrom logStep start
        (List.replicate 2001
          (.append (List.replicate 4000 120) (Nat.le_of_eq List.length_replicate))) =
      .error .appendNull :=
  long_burst_faults _ List.length_replicate

end AsyncLog

end WServer
