import Mathlib.Data.Int.CardIntervalMod
import WServer.Buffer
import WServer.TcpServer

/-!
# The pool of loops

`EventLoopThreadPool::getNextLoop` hands out the loops of the pool in turn.  What `setThreadNums` takes is
not checked: with a number that is not positive, no loop is started, and the first call reads behind the
end of an empty vector.

* `getNextLoop` — with the conversions between `int` and `size_t`, and the ways it can go wrong;
* `InTurn` — the invariant: the calls have returned the loops in turn;
* `spread_evenly_iff` — any number of calls;
* `getNextLoop_insert` — the server gives a new connection the loop that the pool returns.
-/

namespace WServer

open Library.Runs

/-- Class `EventLoopThreadPool`.  A thread is known by its number, and its loop by the number of the
thread. -/
structure EventLoopThreadPool where
  threadNums : ℤ
  next : ℤ
  threads : ℕ
  loops : List ℕ

/-- A read outside the vector of the loops, and a remainder modulo zero. -/
inductive PoolFault where
  | outOfRange
  | divisionByZero
  deriving DecidableEq, Repr

namespace EventLoopThreadPool

def DEFAUTL_THREAD_NUMS : ℤ := 4

def init : EventLoopThreadPool where
  threadNums := DEFAUTL_THREAD_NUMS
  next := 0
  threads := 0
  loops := []

def setThreadNums (nums : ℤ) (pool : EventLoopThreadPool) : EventLoopThreadPool :=
  { pool with threadNums := nums }

/-- One iteration of the loop in `start`: a new thread, and the loop that its `startLoop` returns. -/
def startLoop (pool : EventLoopThreadPool) : EventLoopThreadPool :=
  { pool with
    threads := pool.threads + 1
    loops := pool.loops ++ [pool.threads] }

/-- `for (int i = 0; i < m_thread_nums; ++i)` -/
def start (pool : EventLoopThreadPool) : EventLoopThreadPool := startLoop^[pool.threadNums.toNat] pool

def getNextLoop (pool : EventLoopThreadPool) : Except PoolFault (ℕ × EventLoopThreadPool) :=
  match pool.loops[IntConv.wrapped.toSize pool.next]? with
  | none => .error .outOfRange
  | some loop =>
      if pool.loops.length = 0 then .error .divisionByZero
      else .ok (loop, { pool with
        next := IntConv.wrapped.toInt
          (IntConv.wrapped.toSize (pool.next + 1) % pool.loops.length : ℕ) })

end EventLoopThreadPool

/-- A pool, with what the calls of `getNextLoop` have returned. -/
structure LoopCalls where
  pool : EventLoopThreadPool
  returned : List ℕ

def LoopCalls.getNextLoop (s : LoopCalls) : Except PoolFault LoopCalls :=
  match s.pool.getNextLoop with
  | .ok (loop, pool) => .ok ⟨pool, s.returned ++ [loop]⟩
  | .error fault => .error fault

/-- One call. -/
def poolStep (s : LoopCalls) (_ : Unit) : Except PoolFault LoopCalls := s.getNextLoop

namespace EventLoopThreadPool

/-- `k` calls on a pool whose number of threads was set to `n` all return a loop that was started, and each
loop was returned `⌊k / n⌋` or `⌈k / n⌉` times. -/
def SpreadsEvenly (n : ℤ) (k : ℕ) : Prop :=
  let pool := (init.setThreadNums n).start
  ∃ s, runFrom poolStep ⟨pool, []⟩ (List.replicate k ()) = .ok s ∧
    s.returned.length = k ∧ (∀ loop ∈ s.returned, loop ∈ pool.loops) ∧
    ∀ loop ∈ pool.loops, s.returned.count loop = k / pool.loops.length ∨
      s.returned.count loop = (k + (pool.loops.length - 1)) / pool.loops.length

/-! ### The start -/

theorem startLoop_iterate (k : ℕ) (pool : EventLoopThreadPool) :
    startLoop^[k] pool = { pool with
      threads := pool.threads + k
      loops := pool.loops ++ List.range' pool.threads k } := by
  induction k generalizing pool with
  | zero => simp
  | succ k ih =>
      rw [Function.iterate_succ_apply, ih, startLoop]
      simp only [List.append_assoc, List.singleton_append, List.range'_succ]
      rw [Nat.add_right_comm, Nat.add_assoc]

/-- As many loops are started as the number says, if it is positive. -/
theorem start_eq (n : ℤ) : (init.setThreadNums n).start =
    { threadNums := n, next := 0, threads := n.toNat, loops := List.range n.toNat } := by
  rw [start, startLoop_iterate]
  simp [setThreadNums, init, List.range_eq_range']

/-! ### The turns -/

/-- Of `n` loops, `k` calls have returned one after the other. -/
structure InTurn (n k : ℕ) (s : LoopCalls) : Prop where
  loops : s.pool.loops = List.range n
  next : s.pool.next = (k % n : ℕ)
  returned : s.returned = (List.range k).map (· % n)

variable {n k : ℕ} {s : LoopCalls}

/-- **One call** returns the next loop, and the index stays inside the vector. -/
theorem getNextLoop_eq {pool : EventLoopThreadPool} (hn : n ≤ INT_MAX) (hloops : pool.loops = List.range n)
    {i : ℕ} (hi : i < n) (hnext : pool.next = i) :
    pool.getNextLoop = .ok (i, { pool with next := ((i + 1) % n : ℕ) }) := by
  have hindex : IntConv.wrapped.toSize i = i := (IntConv.wrapped_exactUpTo i (by omega)).2
  have hsum : IntConv.wrapped.toSize (i + 1) = i + 1 := by
    have hsum := (IntConv.wrapped_exactUpTo (i + 1) (by omega)).2
    rwa [Nat.cast_succ] at hsum
  have hmod : IntConv.wrapped.toInt ((i + 1) % n : ℕ) = ((i + 1) % n : ℕ) :=
    (IntConv.wrapped_exactUpTo _ ((Nat.le_of_lt (Nat.mod_lt _ (by omega))).trans hn)).1
  rw [getNextLoop, hnext, hindex, hloops, List.getElem?_range hi]
  simp only [List.length_range]
  rw [if_neg (by omega), hsum, hmod]

theorem inTurn_start (n : ℤ) : InTurn n.toNat 0 ⟨(init.setThreadNums n).start, []⟩ := by
  rw [start_eq]
  refine ⟨rfl, ?_, rfl⟩
  rw [Nat.zero_mod]
  rfl

/-- A call keeps the turns. -/
theorem InTurn.step (h : InTurn n k s) (hpos : 0 < n) (hn : n ≤ INT_MAX) :
    ∃ s', poolStep s () = .ok s' ∧ InTurn n (k + 1) s' := by
  have hcall := getNextLoop_eq hn h.loops (Nat.mod_lt k hpos) h.next
  refine ⟨⟨{ s.pool with next := ((k % n + 1) % n : ℕ) }, s.returned ++ [k % n]⟩, ?_, h.loops, ?_, ?_⟩
  · rw [poolStep, LoopCalls.getNextLoop, hcall]
  · rw [Nat.mod_add_mod]
  · rw [h.returned, List.range_succ, List.map_append]
    rfl

/-- Any number of calls. -/
theorem inTurn_run (hpos : 0 < n) (hn : n ≤ INT_MAX) (h : InTurn n 0 s) (k : ℕ) :
    ∃ t, runFrom poolStep s (List.replicate k ()) = .ok t ∧ InTurn n k t := by
  have hstep : ∀ (pre : List Unit) (t : LoopCalls) (e : Unit), InTurn n pre.length t → True →
      ∃ t', poolStep t e = .ok t' ∧ InTurn n (pre ++ [e]).length t' := by
    intro pre t _ ht _
    obtain ⟨t', hcall, ht'⟩ := ht.step hpos hn
    exact ⟨t', hcall, by rwa [List.length_append]⟩
  have hrun := @run_history _ _ _ poolStep (fun _ _ => True) _ hstep s [] (List.replicate k ()) h
    (along_true _ _)
  rwa [List.nil_append, List.length_replicate] at hrun

/-- How often each loop comes up in `k` turns. -/
theorem count_turns {i : ℕ} (hi : i < n) (k : ℕ) :
    ((List.range k).map (· % n)).count i = k / n + if i < k % n then 1 else 0 := by
  have hturns : ((List.range k).map (· % n)).count i = k.count (· ≡ i [MOD n]) := by
    rw [List.count, List.countP_map, Nat.count]
    refine List.countP_congr fun j _ => ?_
    simp only [Function.comp_apply, beq_iff_eq, decide_eq_true_eq, Nat.ModEq, Nat.mod_eq_of_lt hi]
  rw [hturns, Nat.count_modEq_card k (by omega), Nat.mod_eq_of_lt hi]

/-- Two counts that differ by the remainder's share are the two quotients. -/
theorem ceil_div (hpos : 0 < n) (k i : ℕ) :
    (k / n + if i < k % n then 1 else 0) = k / n ∨
      (k / n + if i < k % n then 1 else 0) = (k + (n - 1)) / n := by
  split
  · rename_i hlt
    have hdiv := Nat.div_add_mod k n
    have hmod := Nat.mod_lt k hpos
    refine Or.inr (Nat.div_eq_of_lt_le ?_ ?_).symm
    · rw [Nat.succ_mul, Nat.mul_comm]
      omega
    · rw [Nat.succ_mul, Nat.succ_mul, Nat.mul_comm]
      omega
  · exact Or.inl rfl

/-- **Loops are handed out evenly**, however many calls there are, exactly if a positive number of threads
was asked for, or nothing is called. -/
theorem spread_evenly_iff (n : ℤ) (hn : n ≤ INT_MAX) (k : ℕ) : SpreadsEvenly n k ↔ 0 < n ∨ k = 0 := by
  have hloops : (init.setThreadNums n).start.loops = List.range n.toNat := by rw [start_eq]
  rw [SpreadsEvenly]
  simp only [hloops, List.mem_range, List.length_range]
  constructor
  · rintro ⟨s, hrun, -⟩
    by_contra hnone
    rw [not_or] at hnone
    obtain ⟨k, rfl⟩ := Nat.exists_eq_succ_of_ne_zero hnone.2
    rw [start_eq, Int.toNat_of_nonpos (by omega), List.replicate_succ] at hrun
    cases hrun
  · rintro (hpos | rfl)
    · obtain ⟨s, hrun, hs⟩ := inTurn_run (by omega) (by omega) (inTurn_start n) k
      refine ⟨s, hrun, ?_, fun loop hloop => ?_, fun loop hloop => ?_⟩
      · rw [hs.returned, List.length_map, List.length_range]
      · rw [hs.returned] at hloop
        obtain ⟨j, -, rfl⟩ := List.mem_map.mp hloop
        exact Nat.mod_lt _ (by omega)
      · rw [hs.returned, count_turns hloop]
        exact ceil_div (by omega) k loop
    · exact ⟨_, runFrom_nil _, rfl, fun _ h => absurd h List.not_mem_nil, fun _ _ => Or.inl (by simp)⟩

theorem spread_evenly_iff_default : SpreadsEvenly DEFAUTL_THREAD_NUMS 1000 :=
  (spread_evenly_iff DEFAUTL_THREAD_NUMS (by decide) 1000).mpr (Or.inl (by decide))

/-- Without threads the first connection finds no loop. -/
theorem noThreads_noLoop : ¬ SpreadsEvenly 0 1 := by
  rintro ⟨s, hrun, -⟩
  cases hrun

/-- **The loop of a new connection** is what the pool of the server returns, and the indices of the two
move together. -/
theorem getNextLoop_insert {m : ℕ} (hm : m + 1 ≤ INT_MAX) {pool : EventLoopThreadPool}
    (hloops : pool.loops = List.range (m + 1)) (s : TcpServer m) (hnext : pool.next = (s.nextLoop : ℕ))
    (fd self : ℕ) :
    pool.getNextLoop = .ok (((s.newObject fd self).loop : ℕ),
      { pool with next := ((s.insert fd self).nextLoop : ℕ) }) := by
  rw [getNextLoop_eq hm hloops s.nextLoop.isLt hnext, TcpServer.insert, Fin.val_add, Fin.val_one',
    Nat.add_mod_mod]
  rfl

end EventLoopThreadPool

end WServer
