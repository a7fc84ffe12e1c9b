import WServer.AsyncLog
import WServer.Library.Runs

/-!
# Who waits for the last flush

`flush` sets `m_flush` and then waits on `m_flush_cond`; `threadFunc` signals the condition once, behind
its loop, if `m_flush` is set.  A signal ends one wait that has started, and no other.

* `LeftWaiting` — `threadFunc` has returned and a call of `flush` has not;
* `Released` — the condition on a step: the only signal finds every call of `flush` waiting, and there
  is one at most; and no call starts behind it;
* `flush_returns_iff` — whole runs.
-/

namespace WServer

namespace AsyncLog

open Library.Runs

variable {s s' : AsyncLog}

/-- No signal will come any more, and a caller of `flush` waits for one, or is about to. -/
def LeftWaiting (s : AsyncLog) : Prop := s.pc = .returned ∧ 0 < s.flushCallers + s.flushWaiters

/-- The last step of `threadFunc` finds no caller of `flush` before its wait, and one at most in it; and
`flush` is not called behind it. -/
def Released (s : AsyncLog) : LogEvent → Prop
  | .threadFunc _ => s.pc = .epilogue → s.flushCallers = 0 ∧ s.flushWaiters ≤ 1
  | .flush => s.pc ≠ .returned
  | _ => True

/-- Whoever waits has set `m_flush`, and nobody does when the thread has returned. -/
structure FlushSeen (s : AsyncLog) : Prop where
  flag : 0 < s.flushCallers + s.flushWaiters → s.flush = true
  nobody : s.pc = .returned → s.flushCallers + s.flushWaiters = 0

theorem flushSeen_start : FlushSeen start := ⟨by simp [start], by simp [start]⟩

theorem FlushSeen.not_leftWaiting (h : FlushSeen s) : ¬ LeftWaiting s := by
  rintro ⟨hpc, hpos⟩
  have := h.nobody hpc
  omega

/-! ### One step -/

/-- What a step of the log thread does to the callers of `flush`: nothing, or it is the last one. -/
structure Quiet (s s' : AsyncLog) : Prop where
  flush : s'.flush = s.flush
  callers : s'.flushCallers = s.flushCallers
  waiters : s'.flushWaiters = s.flushWaiters
  pc : s'.pc ≠ .returned

theorem takeBuffers_quiet (s : AsyncLog) : Quiet s s.takeBuffers := by
  rw [takeBuffers_eq]
  exact ⟨rfl, rfl, rfl, nofun⟩

theorem writeOut_quiet {timeStamp : List UInt8} (h : (s.dropBuffers timeStamp).writeBuffers = .ok s') :
    Quiet s s' := by
  rw [writeBuffers, dropBuffers] at h
  split at h
  · cases h
    split
    · exact ⟨rfl, rfl, rfl, nofun⟩
    · exact ⟨rfl, rfl, rfl, nofun⟩
  · cases h

theorem recycle_quiet (h : s.recycle = .ok s') : Quiet s s' := by
  simp only [recycle] at h
  split at h
  · cases h
  · split at h
    · cases h
    · cases h
      exact ⟨rfl, rfl, rfl, nofun⟩

/-- **The log thread** wakes a caller of `flush` in its last step only. -/
theorem threadFunc_flush {timeStamp : List UInt8} (h : s.threadFunc timeStamp = .ok s') :
    Quiet s s' ∨ (s.pc = .epilogue ∧ s' = { s with
      flushWaiters := if s.flush then s.flushWaiters - 1 else s.flushWaiters
      pc := .returned }) := by
  rw [threadFunc] at h
  cases hpc : s.pc with
  | loopTest =>
      simp only [hpc] at h
      cases h
      refine Or.inl ⟨rfl, rfl, rfl, ?_⟩
      show (if s.running = true then ThreadPc.lock else .epilogue) ≠ .returned
      split <;> decide
  | lock =>
      simp only [hpc] at h
      split at h
      · cases h
        exact Or.inl ⟨rfl, rfl, rfl, nofun⟩
      · cases h
        exact Or.inl (takeBuffers_quiet s)
  | waiting =>
      simp only [hpc] at h
      cases h
      exact Or.inl (takeBuffers_quiet s)
  | writeOut =>
      simp only [hpc] at h
      exact Or.inl (writeOut_quiet h)
  | recycle =>
      simp only [hpc] at h
      exact Or.inl (recycle_quiet h)
  | flushTest =>
      simp only [hpc] at h
      cases h
      exact Or.inl ⟨rfl, rfl, rfl, nofun⟩
  | epilogue =>
      simp only [hpc] at h
      cases h
      exact Or.inr ⟨rfl, rfl⟩
  | returned => simp only [hpc, reduceCtorEq] at h

/-- A step that meets the condition leaves nobody waiting behind the last signal. -/
theorem flushSeen_step (s : AsyncLog) (e : LogEvent) (s' : AsyncLog) (h : FlushSeen s)
    (hgood : Released s e) (hstep : logStep s e = .ok s') : FlushSeen s' := by
  cases e with
  | append msg hlen =>
      rcases append_cases hstep with ⟨cur, _, rfl⟩ | ⟨cur, next, _, _, rfl⟩
      · exact ⟨h.flag, h.nobody⟩
      · exact ⟨h.flag, h.nobody⟩
  | stop =>
      cases hstep
      exact ⟨h.flag, h.nobody⟩
  | flush =>
      cases hstep
      exact ⟨fun _ => rfl, fun hpc => absurd hpc hgood⟩
  | flushWait =>
      have hcaller : 0 < s.flushCallers := by
        rw [logStep] at hstep
        split at hstep
        · assumption
        · cases hstep
      cases logStep_flushWait hstep
      refine ⟨fun _ => h.flag (by omega), fun hpc => ?_⟩
      have := h.nobody hpc
      omega
  | threadFunc timeStamp =>
      rcases threadFunc_flush hstep with ⟨hflush, hcallers, hwaiters, hpc⟩ | ⟨hpc, rfl⟩
      · refine ⟨?_, fun hret => absurd hret hpc⟩
        rw [hflush, hcallers, hwaiters]
        exact h.flag
      · obtain ⟨hcallers, hwaiters⟩ : s.flushCallers = 0 ∧ s.flushWaiters ≤ 1 := hgood hpc
        have hnone : s.flushCallers
            + (if s.flush = true then s.flushWaiters - 1 else s.flushWaiters) = 0 := by
          split
          · omega
          · rename_i hflush
            by_contra hpos
            exact hflush (h.flag (by omega))
        refine ⟨fun hpos => ?_, fun _ => hnone⟩
        exact absurd hnone hpos.ne'

/-- A step that does not meet the condition leaves a caller of `flush` waiting for ever. -/
theorem leftWaiting_step (s : AsyncLog) (e : LogEvent) (_ : FlushSeen s) (hbad : ¬ Released s e) :
    ∃ s', logStep s e = .ok s' ∧ ¬ ¬ LeftWaiting s' := by
  cases e with
  | append msg hlen => exact absurd trivial hbad
  | stop => exact absurd trivial hbad
  | flushWait => exact absurd trivial hbad
  | flush =>
      rw [Released, not_not] at hbad
      refine ⟨s.setFlush, rfl, not_not.mpr ⟨hbad, ?_⟩⟩
      show 0 < s.flushCallers + 1 + s.flushWaiters
      omega
  | threadFunc timeStamp =>
      obtain ⟨hpc, hmany⟩ : s.pc = .epilogue ∧ ¬ (s.flushCallers = 0 ∧ s.flushWaiters ≤ 1) := by
        simpa only [Released, Classical.not_imp] using hbad
      have hlast : logStep s (.threadFunc timeStamp) = .ok { s with
          flushWaiters := if s.flush = true then s.flushWaiters - 1 else s.flushWaiters
          pc := .returned } := by
        simp only [logStep, threadFunc, hpc]
      refine ⟨_, hlast, not_not.mpr ⟨rfl, ?_⟩⟩
      show 0 < s.flushCallers + if s.flush = true then s.flushWaiters - 1 else s.flushWaiters
      split <;> omega

/-! ### Whole runs -/

/-- **The last flush.**  In a run of the logger no caller of `flush` is left waiting by a thread that has
returned exactly if every step of the run meets the condition. -/
theorem flush_returns_iff (es : List LogEvent) :
    (∀ t, ReachedBy logStep start es t → ¬ LeftWaiting t) ↔ Along logStep Released start es :=
  reached_forall_iff (fun _ h => h.not_leftWaiting) flushSeen_step leftWaiting_step es flushSeen_start

/-- `flush` sets its flag and the log thread goes through to its end before the caller waits. -/
def signalBeforeWait : List LogEvent := .flush :: List.replicate 8 (.threadFunc []) ++ [.flushWait]

/-- Two callers wait, and the log thread goes through to its end. -/
def twoCallers : List LogEvent :=
  [.flush, .flush, .flushWait, .flushWait] ++ List.replicate 8 (.threadFunc [])

instance (s : AsyncLog) : Decidable (LeftWaiting s) := inferInstanceAs (Decidable (_ ∧ _))

/-- In both orders a caller waits for ever. -/
theorem caller_left_waiting :
    (∃ s, runFrom logStep start signalBeforeWait = .ok s ∧ LeftWaiting s) ∧
      ∃ s, runFrom logStep start twoCallers = .ok s ∧ LeftWaiting s :=
  ⟨⟨_, rfl, by decide⟩, ⟨_, rfl, by decide⟩⟩

end AsyncLog

end WServer
