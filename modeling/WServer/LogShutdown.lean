import WServer.LogBytes

/-!
# What a shutdown leaves behind

`stop` and `flush` are to make the log thread write everything out before it returns.  Both only set a
flag; the thread tests it after it has taken the buffers, so what is appended behind its last critical
section stays in the current buffer.

* `Steady` — the logger while few buffers are waiting, so that none are dropped;
* `total_step` — no step loses bytes or changes their order;
* `HandsOver` — the condition on a call: another critical section is to come, or nothing waits;
* `shutdown_complete_iff` — whole runs.
-/

namespace WServer

/-- A call of `stop` or `flush`. -/
def LogEvent.IsShutdown : LogEvent → Prop
  | .stop => True
  | .flush => True
  | _ => False

namespace AsyncLog

open Library.Runs

variable {s s' : AsyncLog}

/-- Fewer than twenty buffers wait. -/
def FewBuffers (s : AsyncLog) (_ : LogEvent) : Prop := s.buffers.length < 20

instance (s : AsyncLog) (e : LogEvent) : Decidable (FewBuffers s e) := Nat.decLt _ _

/-- An intact logger whose spare buffers are empty, and that drops no buffers. -/
structure Steady (s : AsyncLog) : Prop extends Intact s where
  nextEmpty : contentOf s.nextBuffer = []
  newBuffer1Empty : contentOf s.newBuffer1 = []
  newBuffer2Empty : contentOf s.newBuffer2 = []
  few : s.pc = .writeOut → s.writeToFile.length ≤ 20

theorem Clean.steady (h : Clean s) (hfew : s.pc = .writeOut → s.writeToFile.length ≤ 20) : Steady s :=
  ⟨h.toIntact, h.nextEmpty, h.newBuffer1Empty, h.newBuffer2Empty, hfew⟩

theorem Steady.clean (h : Steady s) : Clean s :=
  ⟨h.toIntact, h.nextEmpty, h.newBuffer1Empty, h.newBuffer2Empty⟩

theorem steady_start : Steady start := clean_start.steady nofun

/-! ### One step -/

theorem Steady.threadFunc {timeStamp : List UInt8} (h : Steady s)
    (hstep : s.threadFunc timeStamp = .ok s') : ThreadStep s s' := by
  rcases h.clean.threadFunc hstep with ⟨hthread, -⟩ | ⟨hpc, hmany, -⟩
  · exact hthread
  · exact absurd hmany (Nat.not_lt.mpr (h.few hpc))

/-- The critical section takes what waits, and leaves empty buffers to the front end. -/
theorem Steady.takeBuffers (h : Steady s) (hpc : s.pc = .lock ∨ s.pc = .waiting) :
    s.takeBuffers.handed = s.total ∧ s.takeBuffers.pending = [] := by
  obtain ⟨hflight, hpending⟩ := h.clean.takeBuffers hpc
  have hbefore : s.handed = s.output := by
    rcases hpc with hpc | hpc <;> exact handed_of_ne (by rw [hpc]; decide)
  exact ⟨by rw [handed, hflight, takeBuffers_output, total, hbefore], hpending⟩

/-- All other steps of the log thread leave the bytes where they are. -/
theorem ThreadStep.cases_take (hstep : ThreadStep s s') :
    ((s.pc = .lock ∨ s.pc = .waiting) ∧ s' = s.takeBuffers) ∨
      s'.handed = s.handed ∧ s'.pending = s.pending := by
  have hsame {pc : ThreadPc} (hpc : s.pc = pc) (hne : pc ≠ .writeOut) : s.handed = s.output :=
    handed_of_ne (by rw [hpc]; exact hne)
  cases hstep with
  | testRunning hpc =>
      have hne : (if s.running = true then ThreadPc.lock else .epilogue) ≠ .writeOut := by
        split <;> decide
      right
      rw [handed_of_ne hne, hsame hpc (by decide)]
      exact ⟨rfl, rfl⟩
  | wait hpc =>
      right
      rw [handed_of_ne (by exact nofun), hsame hpc (by decide)]
      exact ⟨rfl, rfl⟩
  | take hpc => exact Or.inl ⟨hpc, rfl⟩
  | write hpc =>
      right
      rw [handed_of_ne (by exact nofun)]
      exact ⟨rfl, rfl⟩
  | recycle hpc b1 b2 h1 h2 =>
      right
      rw [handed_of_ne (by exact nofun), hsame hpc (by decide)]
      exact ⟨rfl, rfl⟩
  | testFlush hpc running hflush hkeep =>
      right
      rw [handed_of_ne (by exact nofun), hsame hpc (by decide)]
      exact ⟨rfl, rfl⟩
  | finish hpc waiters =>
      right
      rw [handed_of_ne (by exact nofun), hsame hpc (by decide)]
      exact ⟨rfl, rfl⟩

/-- **A step of the log thread** loses no byte. -/
theorem Steady.total_threadStep (h : Steady s) (hstep : ThreadStep s s') : s'.total = s.total := by
  rcases hstep.cases_take with ⟨hpc, rfl⟩ | ⟨hhanded, hpending⟩
  · obtain ⟨htaken, hleft⟩ := h.takeBuffers hpc
    rw [total, htaken, hleft, List.append_nil]
  · rw [total, hhanded, hpending, total]

/-- **An append** stores its message behind all others. -/
theorem Steady.total_append {msg : List UInt8} (h : Steady s) (hstep : s.append msg = .ok s') :
    s'.total = s.total ++ strncpy msg := by
  obtain ⟨hpending, hflight, houtput⟩ := h.clean.pending_append hstep
  rw [total, handed, hpending, hflight, houtput, ← List.append_assoc]
  rfl

/-- While few buffers wait, the log thread takes few. -/
theorem ThreadStep.few (hfew : s.buffers.length < 20) (hstep : ThreadStep s s') :
    s'.pc = .writeOut → s'.writeToFile.length ≤ 20 := by
  cases hstep with
  | testRunning hpc =>
      show (if s.running = true then ThreadPc.lock else .epilogue) = .writeOut → _
      split <;> exact nofun
  | take hpc =>
      intro _
      rw [takeBuffers_eq]
      show (s.buffers ++ [s.curBuffer]).length ≤ 20
      rw [List.length_append, List.length_singleton]
      omega
  | wait hpc | write hpc | recycle hpc | testFlush hpc | finish hpc => exact nofun

theorem steady_step (s : AsyncLog) (e : LogEvent) (s' : AsyncLog) (h : Steady s)
    (hfew : FewBuffers s e) (hstep : logStep s e = .ok s') : Steady s' := by
  refine (clean_step s e s' h.clean hstep).steady ?_
  cases e with
  | append msg hlen =>
      rcases append_cases hstep with ⟨cur, hcur, rfl⟩ | ⟨cur, next, hcur, hnext, rfl⟩
      · exact h.few
      · exact h.few
  | stop =>
      cases hstep
      exact h.few
  | flush =>
      cases hstep
      exact h.few
  | flushWait =>
      cases logStep_flushWait hstep
      exact h.few
  | threadFunc timeStamp => exact (h.threadFunc hstep).few hfew

/-- **One step** stores the bytes of its `append`, and moves the others along. -/
theorem total_step (s : AsyncLog) (e : LogEvent) (s' : AsyncLog) (h : Steady s)
    (_ : FewBuffers s e) (hstep : logStep s e = .ok s') : s'.total = s.total ++ e.stored := by
  cases e with
  | append msg hlen => exact h.total_append hstep
  | stop =>
      cases hstep
      exact (List.append_nil _).symm
  | flush =>
      cases hstep
      exact (List.append_nil _).symm
  | flushWait =>
      cases logStep_flushWait hstep
      exact (List.append_nil _).symm
  | threadFunc timeStamp =>
      rw [h.total_threadStep (h.threadFunc hstep)]
      exact (List.append_nil _).symm

/-! ### What a call needs -/

/-- The condition on a call of `stop` or `flush`: a critical section of the log thread is still to come,
or nothing waits for one. -/
def HandsOver (s : AsyncLog) : LogEvent → Prop
  | .stop => s.pc = .lock ∨ s.pc = .waiting ∨ s.pending = []
  | .flush => s.pc = .lock ∨ s.pc = .waiting ∨ (s.pc = .loopTest ∧ s.running = true) ∨ s.pending = []
  | _ => True

instance (s : AsyncLog) : (e : LogEvent) → Decidable (HandsOver s e)
  | .stop => inferInstanceAs (Decidable (_ ∨ _ ∨ _))
  | .flush => inferInstanceAs (Decidable (_ ∨ _ ∨ _ ∧ _ ∨ _))
  | .append _ _ => isTrue trivial
  | .flushWait => isTrue trivial
  | .threadFunc _ => isTrue trivial

/-- The first `n` bytes are handed over, or a critical section is to come. -/
def Covered (n : ℕ) (s : AsyncLog) : Prop :=
  n ≤ s.handed.length ∨ s.pc = .lock ∨ s.pc = .waiting ∨ (s.pc = .loopTest ∧ s.running = true)

/-- The first `n` bytes are not all handed over, and there will be no critical section any more. -/
structure Abandoned (n : ℕ) (s : AsyncLog) : Prop where
  missing : s.handed.length < n
  pc : s.pc ≠ .lock ∧ s.pc ≠ .waiting
  ends : s.running = false ∨
    (s.flush = true ∧ (s.pc = .writeOut ∨ s.pc = .recycle ∨ s.pc = .flushTest)) ∨
    s.pc = .epilogue ∨ s.pc = .returned

variable {n : ℕ}

/-- The log thread goes on to hand over what is covered. -/
theorem Covered.threadStep (h : Covered n s) (hsteady : Steady s) (hn : n ≤ s.total.length)
    (hstep : ThreadStep s s') : Covered n s' := by
  have htake (hpc : s.pc = .lock ∨ s.pc = .waiting) : Covered n s.takeBuffers := by
    left
    rw [(hsteady.takeBuffers hpc).1]
    exact hn
  rcases h with h | h
  · rcases hstep.cases_take with ⟨hpc, rfl⟩ | ⟨hhanded, -⟩
    · exact htake hpc
    · left
      rw [hhanded]
      exact h
  · cases hstep with
    | testRunning hpc =>
        rw [hpc] at h
        have hrunning : s.running = true := by simpa using h
        exact Or.inr (Or.inl (if_pos hrunning))
    | wait hpc => exact Or.inr (Or.inr (Or.inl rfl))
    | take hpc => exact htake hpc
    | write hpc | recycle hpc | testFlush hpc | finish hpc =>
        rw [hpc] at h
        simp at h

/-- Nothing the log thread does hands over what is abandoned. -/
theorem Abandoned.threadStep (h : Abandoned n s) (hstep : ThreadStep s s') : Abandoned n s' := by
  have hmissing : s'.handed.length < n := by
    rcases hstep.cases_take with ⟨hpc | hpc, -⟩ | ⟨hhanded, -⟩
    · exact absurd hpc h.pc.1
    · exact absurd hpc h.pc.2
    · rw [hhanded]
      exact h.missing
  refine ⟨hmissing, ?_, ?_⟩
  · cases hstep with
    | testRunning hpc =>
        have hends := h.ends
        rw [hpc] at hends
        have hstopped : s.running = false := by simpa using hends
        simp [hstopped]
    | wait hpc => exact absurd hpc h.pc.1
    | take hpc => exact absurd hpc (not_or.mpr h.pc)
    | write hpc | recycle hpc | testFlush hpc | finish hpc => simp
  · have hends := h.ends
    cases hstep with
    | testRunning hpc =>
        rw [hpc] at hends
        have hstopped : s.running = false := by simpa using hends
        exact Or.inl hstopped
    | wait hpc => exact absurd hpc h.pc.1
    | take hpc => exact absurd hpc (not_or.mpr h.pc)
    | write hpc | recycle hpc =>
        rw [hpc] at hends
        simpa using hends
    | testFlush hpc running hflush hkeep =>
        left
        rw [hpc] at hends
        rcases hends with hstopped | ⟨hflushed, -⟩ | hat | hat
        · exact hkeep hstopped
        · exact hflush hflushed
        · cases hat
        · cases hat
    | finish hpc => exact Or.inr (Or.inr (Or.inr rfl))

/-! ### Whole runs -/

/-- One step of a run whose calls meet the condition: what is covered stays covered. -/
theorem covered_step (s : AsyncLog) (e : LogEvent) (s' : AsyncLog)
    (h : Steady s ∧ n ≤ s.total.length ∧ Covered n s) (hgood : FewBuffers s e ∧ HandsOver s e)
    (hstep : logStep s e = .ok s') : Steady s' ∧ n ≤ s'.total.length ∧ Covered n s' := by
  obtain ⟨hsteady, hn, hcovered⟩ := h
  refine ⟨steady_step s e s' hsteady hgood.1 hstep, ?_, ?_⟩
  · rw [total_step s e s' hsteady hgood.1 hstep, List.length_append]
    omega
  · cases e with
    | append msg hlen =>
        rcases append_cases hstep with ⟨cur, _, rfl⟩ | ⟨cur, next, _, _, rfl⟩
        · exact hcovered
        · exact hcovered
    | stop =>
        cases hstep
        rcases hcovered with h | h | h | ⟨h, -⟩
        · exact Or.inl h
        · exact Or.inr (Or.inl h)
        · exact Or.inr (Or.inr (Or.inl h))
        · left
          have hempty : s.pending = [] := by
            have hhands : _ ∨ _ ∨ _ := hgood.2
            rw [h] at hhands
            simpa using hhands
          rw [total, hempty, List.append_nil] at hn
          exact hn
    | flush =>
        cases hstep
        exact hcovered
    | flushWait =>
        cases logStep_flushWait hstep
        exact hcovered
    | threadFunc timeStamp => exact hcovered.threadStep hsteady hn (hsteady.threadFunc hstep)

/-- One step of a run behind a call that does not meet the condition. -/
theorem abandoned_step (s : AsyncLog) (e : LogEvent) (s' : AsyncLog) (h : Steady s ∧ Abandoned n s)
    (hfew : FewBuffers s e) (hstep : logStep s e = .ok s') : Steady s' ∧ Abandoned n s' := by
  obtain ⟨hsteady, hlost⟩ := h
  refine ⟨steady_step s e s' hsteady hfew hstep, ?_⟩
  cases e with
  | append msg hlen =>
      rcases append_cases hstep with ⟨cur, _, rfl⟩ | ⟨cur, next, _, _, rfl⟩
      · exact ⟨hlost.missing, hlost.pc, hlost.ends⟩
      · exact ⟨hlost.missing, hlost.pc, hlost.ends⟩
  | stop =>
      cases hstep
      exact ⟨hlost.missing, hlost.pc, Or.inl rfl⟩
  | flush =>
      cases hstep
      exact ⟨hlost.missing, hlost.pc, hlost.ends.imp_right (Or.imp_left fun h => ⟨rfl, h.2⟩)⟩
  | flushWait =>
      cases logStep_flushWait hstep
      exact ⟨hlost.missing, hlost.pc, hlost.ends⟩
  | threadFunc timeStamp => exact hlost.threadStep (hsteady.threadFunc hstep)

/-- A call that meets the condition covers what was stored before it. -/
theorem covered_call {e : LogEvent} (hcall : e.IsShutdown) (h : HandsOver s e)
    (hstep : logStep s e = .ok s') : Covered s.total.length s' := by
  have hall (hempty : s.pending = []) : s.total.length ≤ s.handed.length := by
    rw [total, hempty, List.append_nil]
  cases e with
  | append msg hlen => cases hcall
  | flushWait => cases hcall
  | threadFunc timeStamp => cases hcall
  | stop =>
      cases hstep
      rcases h with h | h | h
      · exact Or.inr (Or.inl h)
      · exact Or.inr (Or.inr (Or.inl h))
      · exact Or.inl (hall h)
  | flush =>
      cases hstep
      rcases h with h | h | h | h
      · exact Or.inr (Or.inl h)
      · exact Or.inr (Or.inr (Or.inl h))
      · exact Or.inr (Or.inr (Or.inr h))
      · exact Or.inl (hall h)

/-- A call that does not meet it abandons some of that. -/
theorem abandoned_call {e : LogEvent} (h : ¬ HandsOver s e) (hstep : logStep s e = .ok s') :
    Abandoned s.total.length s' := by
  have hless (hne : ¬ s.pending = []) : s.handed.length < s.total.length := by
    rw [total, List.length_append]
    have hpos := List.length_pos_iff.mpr hne
    omega
  cases e with
  | append msg hlen => exact absurd trivial h
  | flushWait => exact absurd trivial h
  | threadFunc timeStamp => exact absurd trivial h
  | stop =>
      cases hstep
      obtain ⟨hlock, hwaiting, hne⟩ : ¬ _ ∧ ¬ _ ∧ ¬ _ := by simpa only [HandsOver, not_or] using h
      exact ⟨hless hne, ⟨hlock, hwaiting⟩, Or.inl rfl⟩
  | flush =>
      cases hstep
      obtain ⟨hlock, hwaiting, htest, hne⟩ : ¬ _ ∧ ¬ _ ∧ ¬ _ ∧ ¬ _ := by
        simpa only [HandsOver, not_or] using h
      refine ⟨hless hne, ⟨hlock, hwaiting⟩, ?_⟩
      show s.running = false ∨ (true = true ∧ (s.pc = _ ∨ s.pc = _ ∨ s.pc = _)) ∨ s.pc = _ ∨ s.pc = _
      cases hpc : s.pc with
      | loopTest => simpa [hpc] using htest
      | lock => exact absurd hpc hlock
      | waiting => exact absurd hpc hwaiting
      | writeOut | recycle | flushTest | epilogue | returned => simp

theorem isShutdown_of_not {e : LogEvent} (h : ¬ HandsOver s e) : e.IsShutdown := by
  cases e with
  | stop | flush => trivial
  | append | flushWait | threadFunc => exact absurd trivial h

/-- A run split at one of its events: the logger is steady there, and has stored what came before. -/
theorem split_run {pre post : List LogEvent} {e : LogEvent}
    (hrun : runFrom logStep start (pre ++ e :: post) = .ok s)
    (hfew : Along logStep FewBuffers start (pre ++ e :: post)) :
    ∃ u v, runFrom logStep start pre = .ok u ∧ u.total = pre.flatMap LogEvent.stored ∧ Steady u ∧
      logStep u e = .ok v ∧ Steady v ∧ v.total = u.total ++ e.stored ∧
        runFrom logStep v post = .ok s ∧ Along logStep FewBuffers v post := by
  obtain ⟨u, hu, hrest⟩ := runFrom_append_eq_ok hrun
  obtain ⟨v, hv, hpost⟩ := runFrom_cons_eq_ok hrest
  obtain ⟨hpre, hfewu, hfewv⟩ := along_append hu hfew
  have hsteady := run_invariant steady_step pre steady_start hpre u (reachedBy_end hu)
  exact ⟨u, v, hu, run_accumulates steady_step total_step pre steady_start hpre hu, hsteady, hv,
    steady_step u e v hsteady hfewu hv, total_step u e v hsteady hfewu hv, hpost, hfewv v hv⟩

/-- **What a shutdown writes.**  In a run of the logger in which `threadFunc` has returned, and in which
fewer than twenty buffers have waited at a time, the bytes stored before each call of `stop` or `flush`
have been handed to the `LogFile` exactly if each of these calls came while another critical section
was still to come, or while nothing waited. -/
theorem shutdown_complete_iff (es : List LogEvent) (s : AsyncLog)
    (hrun : runFrom logStep start es = .ok s) (hreturned : s.pc = .returned)
    (hfew : Along logStep FewBuffers start es) :
    (∀ pre e post, es = pre ++ e :: post → e.IsShutdown → pre.flatMap LogEvent.stored <+: s.output) ↔
      Along logStep HandsOver start es := by
  have hout : s.handed = s.output := handed_of_ne (by rw [hreturned]; decide)
  constructor
  · intro h
    rw [along_iff]
    rintro pre e post rfl u hu
    by_contra hn
    obtain ⟨u', v, hu', htotal, -, hv, hsteady, -, hpost, hfewv⟩ := split_run hrun hfew
    rw [hu] at hu'
    cases hu'
    have hlost := (run_invariant abandoned_step post ⟨hsteady, abandoned_call hn hv⟩ hfewv s
      (reachedBy_end hpost)).2.missing
    have hle := (h pre e post rfl (isShutdown_of_not hn)).length_le
    rw [hout, htotal] at hlost
    omega
  · rintro hgood pre e post rfl hcall
    obtain ⟨u, v, hu, htotal, -, hv, hsteady, hgrown, hpost, hfewv⟩ := split_run hrun hfew
    obtain ⟨-, hhere, hthere⟩ := along_append hu hgood
    have hn : u.total.length ≤ v.total.length := by
      rw [hgrown, List.length_append]
      omega
    have hcovered := (run_invariant covered_step post ⟨hsteady, hn, covered_call hcall hhere hv⟩
      (hfewv.and (hthere v hv)) s (reachedBy_end hpost)).2.2
    have hlen : u.total.length ≤ s.handed.length := by
      rw [Covered, hreturned] at hcovered
      simpa using hcovered
    have hall : s.total = v.total ++ post.flatMap LogEvent.stored :=
      run_accumulates steady_step total_step post hsteady hfewv hpost
    rw [← htotal, ← hout]
    refine List.prefix_of_prefix_length_le ?_ (List.prefix_append s.handed s.pending) hlen
    rw [show s.handed ++ s.pending = s.total from rfl, hall, hgrown, List.append_assoc]
    exact List.prefix_append _ _

/-- A message, and `stop` while the log thread waits. -/
def stopWhileWaiting : List LogEvent :=
  [.append [120] oneByte_fits, .threadFunc [], .threadFunc [], .stop, .threadFunc [], .threadFunc [],
    .threadFunc [], .threadFunc [], .threadFunc [], .threadFunc []]

theorem shutdown_complete_waiting :
    ∃ s, runFrom logStep start stopWhileWaiting = .ok s ∧
      ∀ pre e post, stopWhileWaiting = pre ++ e :: post → e.IsShutdown →
        pre.flatMap LogEvent.stored <+: s.output :=
  ⟨_, rfl, (shutdown_complete_iff stopWhileWaiting _ rfl rfl (by decide)).mpr (by decide)⟩

/-- A message appended while the log thread writes. -/
def appendWhileWriting : List LogEvent :=
  [.threadFunc [], .threadFunc [], .threadFunc [], .append [120] oneByte_fits]

/-- `stop` after it: the thread returns without another critical section. -/
theorem message_left_behind :
    ∃ s, runFrom logStep start (appendWhileWriting ++ .stop :: List.replicate 5 (.threadFunc [])) =
        .ok s ∧
      s.pc = .returned ∧ ¬ appendWhileWriting.flatMap LogEvent.stored <+: s.output :=
  ⟨_, rfl, rfl, by decide⟩

end AsyncLog

end WServer
