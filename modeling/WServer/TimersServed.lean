import WServer.TimerHeap
import WServer.Library.Projections

/-!
# No timer is left without an expiry to come

One descriptor serves all timers of a loop.  `addTimerInLoop` arms it for the newest timer, whatever it
was armed for, and `handleTimeoutEvents` does not arm it again for the timers it leaves.  Between two
iterations every timer is still waited for as long as no step does harm in this way.

What the descriptor is armed for is a matter of the calls of `addTimerInLoop` and of the clock, so the
condition on a step is about the timer that was added last.

* `Served` — the descriptor has expired, a pass is queued, or it is armed in time for every timer;
* `Newest` — the timer added last, as an observer of the calls knows it;
* `KeepsServed` — the condition on a step;
* `linked_step` — the descriptor is armed for the timer added last, until its delay runs out;
* `waits_step` — one step keeps the invariant;
* `timers_served` — whole runs.
-/

namespace WServer

namespace TimerLoop

open Library Library.Runs

variable {κ : Type} {s s' : TimerLoop κ}

/-! ### What is asked -/

/-- The descriptor is armed to expire no later than every timer of the heap.  A timer is due when
`time(NULL)` has reached its `m_expire_time`, so the instant is compared by the second it falls in. -/
def Armed (s : TimerLoop κ) : Prop :=
  ∃ a, s.timerfd.armed = some a ∧ ∀ t ∈ s.minHeap, time a ≤ t.expireTime

/-- Timers that are waited for: there are none, or the descriptor has expired and was not read, or
`handleTimeoutEvents` is queued, or the descriptor is armed for no later than the first of them. -/
def Served (s : TimerLoop κ) : Prop :=
  s.minHeap.size = 0 ∨ s.timerfd.expired = true ∨ 0 < s.queued ∨ s.Armed

/-- A pass of `handleTimeoutEvents` is running or will run. -/
def PassPending (s : TimerLoop κ) : Prop :=
  s.reported = true ∨ 0 < s.queued ∨ 0 < s.batch ∨ s.pass ≠ .idle

theorem Served.of_queued (h : 0 < s.queued) : s.Served := Or.inr (Or.inr (Or.inl h))

theorem Served.of_armed (h : s.Armed) : s.Served := Or.inr (Or.inr (Or.inr h))

theorem PassPending.of_queued (h : 0 < s.queued) : s.PassPending := Or.inr (Or.inl h)

theorem PassPending.of_batch (h : 0 < s.batch) : s.PassPending := Or.inr (Or.inr (Or.inl h))

theorem PassPending.of_pass (h : s.pass ≠ .idle) : s.PassPending := Or.inr (Or.inr (Or.inr h))

/-- The clock, the instant at which the delay of the timer added last runs out, and whether `handleRead`
has been called since then. -/
structure Newest where
  clock : ℕ
  runsOut : Option ℕ
  read : Bool

namespace Newest

def start (now : ℕ) : Newest := ⟨now, none, false⟩

/-- The calls that it depends on, and the clock. -/
def observe (n : Newest) : TimerEvent κ → Newest
  | .tick ns => { n with clock := n.clock + ns }
  | .addTimerInLoop _ delay _ =>
      { n with runsOut := some (n.clock + delay.toNat * nsPerSecond), read := false }
  | .handleRead => { n with read := n.read || n.runsOut.any fun instant => decide (instant ≤ n.clock) }
  | .poll _ | .doPendingFunctors | .handleTimeoutEvents | .test | .pop | .nextIteration => n

/-- The timer added last is due no later than another one, or its delay has run out; and no `handleRead`
has come behind that. -/
def InTime (n : Newest) (t : Timer κ) : Prop :=
  n.read = false ∧ ∃ instant ∈ n.runsOut, instant ≤ n.clock ∨ time instant ≤ t.expireTime

instance (n : Newest) (t : Timer κ) : Decidable (n.InTime t) :=
  inferInstanceAs (Decidable (n.read = false ∧
    ∃ instant ∈ n.runsOut, instant ≤ n.clock ∨ time instant ≤ t.expireTime))

end Newest

/-- The timer that is not due yet, where a pass stops. -/
def stopsAt (s : TimerLoop κ) : Option (Timer κ) :=
  match s.pass with
  | .looping now =>
      if h : 0 < s.minHeap.size then
        if now < s.minHeap[0].expireTime then some s.minHeap[0] else none
      else none
  | .idle | .callback _ => none

/-- The condition on a step.  A timer added while no pass is to come is due no later than the others; and
where a pass stops before a timer, another pass is queued, or the timer added last is in time for it. -/
def KeepsServed (o : TimerLoop κ × Newest) : TimerEvent κ → Prop
  | .addTimerInLoop _ delay _ =>
      o.1.PassPending ∨ ∀ t ∈ o.1.minHeap, time o.1.now + delay ≤ t.expireTime
  | .test => 0 < o.1.queued ∨ 0 < o.1.batch ∨ ∀ t ∈ o.1.stopsAt, o.2.InTime t
  | .tick _ | .poll _ | .handleRead | .doPendingFunctors | .handleTimeoutEvents | .pop | .nextIteration =>
      True

instance (o : TimerLoop κ × Newest) (e : TimerEvent κ) : Decidable (KeepsServed o e) :=
  match e with
  | .addTimerInLoop _ delay _ => inferInstanceAs (Decidable
      ((o.1.reported = true ∨ 0 < o.1.queued ∨ 0 < o.1.batch ∨ o.1.pass ≠ .idle) ∨
        ∀ t ∈ o.1.minHeap, time o.1.now + delay ≤ t.expireTime))
  | .test => inferInstanceAs (Decidable
      (0 < o.1.queued ∨ 0 < o.1.batch ∨ ∀ t ∈ o.1.stopsAt, o.2.InTime t))
  | .tick _ | .poll _ | .handleRead | .doPendingFunctors | .handleTimeoutEvents | .pop | .nextIteration =>
      isTrue trivial

/-- The descriptor and the timer added last. -/
structure Linked (s : TimerLoop κ) (n : Newest) : Prop where
  clock : n.clock = s.now
  unused : n.runsOut = none → s.timerfd = ⟨none, false⟩
  coming : ∀ instant ∈ n.runsOut, s.now < instant → s.timerfd = ⟨some instant, false⟩ ∧ n.read = false
  gone : ∀ instant ∈ n.runsOut, instant ≤ s.now → s.timerfd = ⟨none, !n.read⟩

/-- The invariant: the heap is one, a pass is where the loop stands, and timers are waited for. -/
structure Waits (s : TimerLoop κ) : Prop where
  heap : BinaryHeap.IsHeap Timer.expireTime s.minHeap
  reported : s.phase ≠ .handling → s.reported = false
  batch : s.phase ≠ .functors → s.batch = 0 ∧ s.pass = .idle
  served : s.PassPending ∨ s.Served

/-- A pass runs among the functors. -/
theorem Waits.in_functors (h : Waits s) (hpass : s.pass ≠ .idle) : s.phase = .functors := by
  by_contra hne
  exact hpass (h.batch hne).2

/-- Between two iterations the only pass to come is a queued one. -/
theorem Waits.served_polling (h : Waits s) (hphase : s.phase = .polling) : s.Served := by
  have hrep := h.reported (by rw [hphase]; decide)
  obtain ⟨hbatch, hpass⟩ := h.batch (by rw [hphase]; decide)
  rcases h.served with (hr | hq | hb | hp) | hserved
  · rw [hrep] at hr
    cases hr
  · exact .of_queued hq
  · omega
  · exact absurd hpass hp
  · exact hserved

/-! ### The descriptor -/

variable {n : Newest}

theorem Linked.tick (h : Linked s n) (ns : ℕ) :
    Linked (s.tick ns) (n.observe (.tick ns : TimerEvent κ)) := by
  have hlater : s.now ≤ s.now + ns := Nat.le_add_right _ _
  refine ⟨congrArg (· + ns) h.clock, fun hnone => ?_, fun instant hinstant hcoming => ?_,
    fun instant hinstant hgone => ?_⟩
  · show s.timerfd.advance (s.now + ns) = _
    rw [h.unused hnone]
    rfl
  · have hcoming' : s.now + ns < instant := hcoming
    obtain ⟨hfd, hread⟩ := h.coming instant hinstant (hlater.trans_lt hcoming')
    refine ⟨?_, hread⟩
    show s.timerfd.advance (s.now + ns) = _
    rw [hfd]
    exact if_neg (Nat.not_le.mpr hcoming')
  · have hgone' : instant ≤ s.now + ns := hgone
    show s.timerfd.advance (s.now + ns) = ⟨none, !n.read⟩
    rcases Nat.lt_or_ge s.now instant with hcoming | hpast
    · obtain ⟨hfd, hread⟩ := h.coming instant hinstant hcoming
      rw [hfd, hread]
      exact if_pos hgone'
    · rw [h.gone instant hinstant hpast]
      rfl

theorem Linked.addTimerInLoop (h : Linked s n) (cb : κ) {delay : ℤ} (hdelay : 1 ≤ delay) :
    Linked (s.addTimerInLoop cb delay) (n.observe (.addTimerInLoop cb delay hdelay)) := by
  have hset : (s.addTimerInLoop cb delay).timerfd = ⟨some (s.now + delay.toNat * nsPerSecond), false⟩ := by
    show setTimer s.timerfd s.now delay = _
    rw [setTimer, if_neg (by omega), if_neg (by omega)]
  refine ⟨h.clock, nofun, fun instant hinstant _ => ?_, fun instant hinstant hgone => ?_⟩
  · cases hinstant
    rw [hset, h.clock]
    exact ⟨rfl, rfl⟩
  · cases hinstant
    -- a delay of a second or more has not run out
    have hgone' : n.clock + delay.toNat * nsPerSecond ≤ s.now := hgone
    have hpos : 0 < delay.toNat * nsPerSecond := Nat.mul_pos (by omega) (by decide)
    rw [h.clock] at hgone'
    omega

theorem Linked.handleRead (h : Linked s n) :
    Linked s.handleRead (n.observe (.handleRead : TimerEvent κ)) := by
  refine ⟨h.clock, fun hnone => ?_, fun instant hinstant hcoming => ?_, fun instant hinstant hgone => ?_⟩
  · show readTimerFd s.timerfd = _
    rw [h.unused hnone]
    rfl
  · obtain ⟨hfd, hread⟩ := h.coming instant hinstant hcoming
    have hsome : n.runsOut = some instant := hinstant
    have hnot : ¬ instant ≤ n.clock := Nat.not_le.mpr (h.clock ▸ hcoming)
    refine ⟨?_, ?_⟩
    · show readTimerFd s.timerfd = _
      rw [hfd]
      rfl
    · show (n.read || n.runsOut.any fun instant => decide (instant ≤ n.clock)) = false
      rw [hread, hsome, Option.any_some, decide_eq_false hnot]
      rfl
  · have hsome : n.runsOut = some instant := hinstant
    have hpast : instant ≤ n.clock := h.clock ▸ hgone
    show readTimerFd s.timerfd = ⟨none, !(n.read || n.runsOut.any fun instant => decide (instant ≤ n.clock))⟩
    rw [h.gone instant hinstant hgone, hsome, Option.any_some, decide_eq_true hpast, Bool.or_true]
    rfl

/-- **The timer added last** is in time for another one exactly if the descriptor has expired and was not
read, or is armed for no later than that one. -/
theorem Linked.inTime_iff (h : Linked s n) (t : Timer κ) : n.InTime t ↔
    s.timerfd.expired = true ∨ ∃ a, s.timerfd.armed = some a ∧ time a ≤ t.expireTime := by
  constructor
  · rintro ⟨hread, instant, hinstant, hwhen⟩
    rcases Nat.lt_or_ge s.now instant with hcoming | hpast
    · obtain ⟨hfd, -⟩ := h.coming instant hinstant hcoming
      rw [h.clock] at hwhen
      exact Or.inr ⟨instant, by rw [hfd], hwhen.resolve_left (Nat.not_le.mpr hcoming)⟩
    · rw [h.gone instant hinstant hpast, hread]
      exact Or.inl rfl
  · intro hfd
    cases hnewest : n.runsOut with
    | none =>
        rw [h.unused hnewest] at hfd
        rcases hfd with hexp | ⟨a, ha, -⟩
        · cases hexp
        · cases ha
    | some instant =>
        rcases Nat.lt_or_ge s.now instant with hcoming | hpast
        · obtain ⟨heq, hread⟩ := h.coming instant hnewest hcoming
          rw [heq] at hfd
          rcases hfd with hexp | ⟨a, ha, hle⟩
          · cases hexp
          · cases ha
            exact ⟨hread, instant, hnewest, Or.inr hle⟩
        · rw [h.gone instant hnewest hpast] at hfd
          rcases hfd with hexp | ⟨a, ha, -⟩
          · exact ⟨by simpa using hexp, instant, hnewest, Or.inl (h.clock ▸ hpast)⟩
          · cases ha

/-! ### One step -/

/-- Timers that are waited for are so when the clock advances: the descriptor may expire. -/
theorem Served.tick (ns : ℕ) (h : s.Served) : (s.tick ns).Served := by
  rcases h with hempty | hexp | hq | ⟨a, ha, hall⟩
  · exact Or.inl hempty
  · right; left
    show (s.timerfd.advance (s.now + ns)).expired = true
    rw [TimerFd.advance]
    split
    · split
      · rfl
      · exact hexp
    · exact hexp
  · exact .of_queued hq
  · by_cases hle : a ≤ s.now + ns
    · right; left
      show (s.timerfd.advance (s.now + ns)).expired = true
      simp only [TimerFd.advance, ha, if_pos hle]
    · refine .of_armed ⟨a, ?_, hall⟩
      show (s.timerfd.advance (s.now + ns)).armed = some a
      simp only [TimerFd.advance, ha, if_neg hle]

/-- A timer due no later than the others arms the descriptor for all. -/
theorem armed_addTimerInLoop (cb : κ) {delay : ℤ} (hdelay : 1 ≤ delay)
    (h : ∀ t ∈ s.minHeap, time s.now + delay ≤ t.expireTime) : (s.addTimerInLoop cb delay).Armed := by
  refine ⟨s.now + delay.toNat * nsPerSecond, ?_, ?_⟩
  · show (setTimer s.timerfd s.now delay).armed = _
    rw [setTimer, if_neg (by omega), if_neg (by omega)]
  · intro t ht
    rw [time_add s.now (by omega)]
    rcases mem_insert.mp ht with hold | rfl
    · exact h t hold
    · exact le_refl _

theorem Waits.tick (h : Waits s) (ns : ℕ) : Waits (s.tick ns) :=
  ⟨h.heap, h.reported, h.batch, h.served.imp id (Served.tick ns)⟩

theorem Waits.addTimerInLoop (h : Waits s) (cb : κ) {delay : ℤ} (hdelay : 1 ≤ delay)
    (hgood : s.PassPending ∨ ∀ t ∈ s.minHeap, time s.now + delay ≤ t.expireTime) :
    Waits (s.addTimerInLoop cb delay) := by
  refine ⟨insert_isHeap h.heap _, h.reported, h.batch, ?_⟩
  rcases hgood with hpending | hfirst
  · exact Or.inl hpending
  · exact Or.inr (.of_armed (armed_addTimerInLoop cb hdelay hfirst))

theorem Waits.poll (h : Waits s) (hphase : s.phase = .polling) (timerReady : Bool) :
    Waits (s.poll timerReady) :=
  ⟨h.heap, fun hne => absurd rfl hne, fun _ => h.batch (by rw [hphase]; decide),
    Or.inr (h.served_polling hphase)⟩

theorem Waits.handleRead (h : Waits s) : Waits s.handleRead :=
  ⟨h.heap, fun _ => rfl, h.batch, Or.inl (.of_queued (Nat.succ_pos _))⟩

theorem Waits.doPendingFunctors (h : Waits s) (hphase : s.phase = .handling)
    (hreported : s.reported = false) : Waits s.doPendingFunctors := by
  obtain ⟨hbatch, hpass⟩ := h.batch (by rw [hphase]; decide)
  refine ⟨h.heap, fun _ => hreported, fun hne => absurd rfl hne, ?_⟩
  rcases h.served with (hr | hq | hb | hp) | hempty | hexp | hq | harmed
  · rw [hreported] at hr
    cases hr
  · exact Or.inl (.of_batch hq)
  · omega
  · exact absurd hpass hp
  · exact Or.inr (Or.inl hempty)
  · exact Or.inr (Or.inr (Or.inl hexp))
  · exact Or.inl (.of_batch hq)
  · exact Or.inr (.of_armed harmed)

theorem Waits.handleTimeoutEvents (h : Waits s) (hphase : s.phase = .functors) :
    Waits s.handleTimeoutEvents :=
  ⟨h.heap, h.reported, fun hne => absurd hphase hne, Or.inl (.of_pass (by exact nofun))⟩

/-- A pass that stops at the front timer of a heap has the other timers behind it. -/
theorem Waits.test (h : Waits s) (hlinked : Linked s n) {now : ℤ} (hpass : s.pass = .looping now)
    (hgood : KeepsServed (s, n) .test) : Waits (s.test now) := by
  have hphase := h.in_functors (by rw [hpass]; exact nofun)
  rw [TimerLoop.test]
  split
  · rename_i hpos
    split
    · rename_i hlater
      have hstops : s.stopsAt = some s.minHeap[0] := by
        rw [stopsAt, hpass]
        simp only [dif_pos hpos, if_pos hlater]
      refine ⟨h.heap, h.reported, fun hne => absurd hphase hne, ?_⟩
      rcases hgood with hq | hb | hintime
      · exact Or.inl (.of_queued hq)
      · exact Or.inl (.of_batch hb)
      · rcases (hlinked.inTime_iff _).mp (hintime _ hstops) with hexp | ⟨a, ha, hle⟩
        · exact Or.inr (Or.inr (Or.inl hexp))
        · refine Or.inr (.of_armed ⟨a, ha, ?_⟩)
          intro t ht
          obtain ⟨i, hi, rfl⟩ := Array.mem_iff_getElem.mp ht
          exact hle.trans (h.heap.front_le hpos i hi)
    · exact ⟨h.heap, h.reported, fun hne => absurd hphase hne, Or.inl (.of_pass (by exact nofun))⟩
  · rename_i hempty
    exact ⟨h.heap, h.reported, fun hne => absurd hphase hne,
      Or.inr (Or.inl (Nat.eq_zero_of_not_pos hempty))⟩

end TimerLoop

end WServer
