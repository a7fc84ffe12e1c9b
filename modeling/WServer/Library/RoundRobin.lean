import Mathlib.Algebra.Group.Nat.Defs
import Mathlib.Data.List.Basic
import Mathlib.Tactic.Common
import WServer.Library.Runs

/-!
# Rounds over a queue

A queue is served in rounds.  A round of capacity `n` looks at the elements from the front on until `n` of
them have reported, or none is left; what it has looked at leaves the queue, and may come back behind the
others.  A round that has filled its capacity doubles it for those that follow.  Between two rounds elements
may come at the end and go anywhere.

* `round` — what a round looks at, and what it leaves;
* `RoundRobin` — a machine some of whose steps are such rounds;
* `looked_within` — an element at position `p` is looked at within `k` rounds if `p < n * (2 ^ k - 1)`,
  however many come behind it;
* `capacity_eq`, `capacity_le` — the capacity is a power of two times the first one, and at most twice the
  longest queue.
-/

namespace WServer.Library.Rounds

open Runs

variable {α : Type*}

/-! ### One round -/

/-- What a round of a capacity looks at, and what it leaves. -/
def round (reports : α → Bool) : ℕ → List α → List α × List α
  | 0, queue => ([], queue)
  | _ + 1, [] => ([], [])
  | n + 1, a :: queue =>
      let next := round reports (if reports a then n else n + 1) queue
      (a :: next.1, next.2)

def looked (reports : α → Bool) (n : ℕ) (queue : List α) : List α := (round reports n queue).1

def left (reports : α → Bool) (n : ℕ) (queue : List α) : List α := (round reports n queue).2

/-- Those that report. -/
def served (reports : α → Bool) (n : ℕ) (queue : List α) : List α := (looked reports n queue).filter reports

variable {reports : α → Bool} {n : ℕ} {queue : List α} {a : α}

theorem looked_zero : looked reports 0 queue = [] := by
  rw [looked, round]

theorem left_zero : left reports 0 queue = queue := by
  rw [left, round]

theorem looked_cons : looked reports (n + 1) (a :: queue) =
    a :: looked reports (if reports a then n else n + 1) queue := rfl

theorem left_cons : left reports (n + 1) (a :: queue) =
    left reports (if reports a then n else n + 1) queue := rfl

/-- A round cuts the queue in two. -/
theorem looked_append_left (reports : α → Bool) (n : ℕ) (queue : List α) :
    looked reports n queue ++ left reports n queue = queue := by
  induction queue generalizing n with
  | nil => cases n <;> rfl
  | cons a queue ih =>
      cases n with
      | zero => rw [looked_zero, left_zero, List.nil_append]
      | succ n => rw [looked_cons, left_cons, List.cons_append, ih]

theorem served_cons : served reports (n + 1) (a :: queue) =
    if reports a then a :: served reports n queue else served reports (n + 1) queue := by
  rw [served, looked_cons, List.filter_cons]
  by_cases ha : reports a = true
  · simp only [if_pos ha]
    rfl
  · simp only [if_neg ha]
    rfl

theorem served_length_le (reports : α → Bool) (n : ℕ) (queue : List α) :
    (served reports n queue).length ≤ n := by
  induction queue generalizing n with
  | nil => cases n <;> exact Nat.zero_le _
  | cons a queue ih =>
      cases n with
      | zero =>
          rw [served, looked_zero]
          exact Nat.zero_le _
      | succ n =>
          rw [served_cons]
          split
          · rw [List.length_cons]
            exact Nat.succ_le_succ (ih n)
          · exact ih (n + 1)

/-- A round that leaves something has filled its capacity. -/
theorem served_length_eq (h : left reports n queue ≠ []) : (served reports n queue).length = n := by
  induction queue generalizing n with
  | nil => cases n <;> exact absurd rfl h
  | cons a queue ih =>
      cases n with
      | zero => exact Nat.le_zero.mp (served_length_le reports 0 _)
      | succ n =>
          rw [left_cons] at h
          rw [served_cons]
          by_cases ha : reports a = true
          · rw [if_pos ha] at h ⊢
            rw [List.length_cons, ih h]
          · rw [if_neg ha] at h ⊢
            exact ih h

theorem served_length_le_looked (reports : α → Bool) (n : ℕ) (queue : List α) :
    (served reports n queue).length ≤ (looked reports n queue).length :=
  List.length_filter_le _ _

/-- An element that a round has looked at was in the queue. -/
theorem mem_of_mem_looked (h : a ∈ looked reports n queue) : a ∈ queue := by
  rw [← looked_append_left reports n queue]
  exact List.mem_append_left _ h

theorem mem_of_mem_left (h : a ∈ left reports n queue) : a ∈ queue := by
  rw [← looked_append_left reports n queue]
  exact List.mem_append_right _ h

section

variable [DecidableEq α]

/-- How many stand before an element. -/
def ahead (a : α) (queue : List α) : ℕ := queue.idxOf a

/-- **A round** that does not look at an element of the queue leaves it there, with as many less before it
as its capacity. -/
theorem ahead_left (hmem : a ∈ queue) (hnot : a ∉ looked reports n queue) :
    a ∈ left reports n queue ∧ ahead a (left reports n queue) + n ≤ ahead a queue := by
  have hcut := looked_append_left reports n queue
  have hleft : a ∈ left reports n queue := by
    rw [← hcut] at hmem
    exact (List.mem_append.mp hmem).resolve_left hnot
  have hfull := served_length_eq (List.ne_nil_of_mem hleft)
  have hlooked := served_length_le_looked reports n queue
  have hahead : ahead a queue = (looked reports n queue).length + ahead a (left reports n queue) := by
    conv_lhs => rw [← hcut]
    exact List.idxOf_append_of_notMem hnot
  refine ⟨hleft, ?_⟩
  omega

theorem ahead_append (hmem : a ∈ queue) (come : List α) : ahead a (queue ++ come) = ahead a queue :=
  List.idxOf_append_of_mem hmem

/-- Where some go, no element moves back. -/
theorem ahead_filter_le {keep : α → Bool} (hkeep : keep a = true) (hmem : a ∈ queue) :
    ahead a (queue.filter keep) ≤ ahead a queue := by
  induction queue with
  | nil => cases hmem
  | cons b queue ih =>
      by_cases hb : b = a
      · subst hb
        rw [List.filter_cons_of_pos hkeep, ahead, List.idxOf_cons_self]
        exact Nat.zero_le _
      · have hmem' : a ∈ queue := (List.mem_cons.mp hmem).resolve_left (Ne.symm hb)
        have hahead : ahead a (b :: queue) = ahead a queue + 1 := List.idxOf_cons_ne _ hb
        by_cases hkeepb : keep b = true
        · rw [List.filter_cons_of_pos hkeepb, hahead,
            show ahead a (b :: queue.filter keep) = ahead a (queue.filter keep) + 1 from
              List.idxOf_cons_ne _ hb]
          exact Nat.succ_le_succ (ih hmem')
        · rw [List.filter_cons_of_neg hkeepb, hahead]
          exact Nat.le_succ_of_le (ih hmem')

end

/-- Of the room of all rounds, the first one uses its own up, and the others have twice its capacity. -/
theorem room_next {p p' c k : ℕ} (hroom : p < c * (2 ^ (k + 1) - 1)) (hahead : p' + c ≤ p) :
    p' < 2 * c * (2 ^ k - 1) := by
  rw [Nat.mul_sub, Nat.pow_succ, ← Nat.mul_assoc, Nat.mul_one] at hroom
  rw [Nat.mul_sub, Nat.mul_assoc, Nat.mul_one]
  omega

/-! ### A machine with rounds -/

/-- A machine that serves a queue in rounds: what it lets come back, keep its place and come. -/
structure RoundRobin {σ ε φ : Type*} (step : σ → ε → Except φ σ) (α : Type*) where
  queue : σ → List α
  capacity : σ → ℕ
  isRound : ε → Bool
  reports : σ → ε → α → Bool
  round_queue : ∀ {s e s'}, step s e = .ok s' → isRound e = true →
    ∃ back, queue s' = left (reports s e) (capacity s) (queue s) ++ back
  round_capacity : ∀ {s e s'}, step s e = .ok s' → isRound e = true → capacity s' =
    if (served (reports s e) (capacity s) (queue s)).length = capacity s then 2 * capacity s else capacity s
  other_queue : ∀ {s e s'}, step s e = .ok s' → isRound e = false →
    ∃ keep come, queue s' = (queue s).filter keep ++ come ∧ ∀ a ∈ come, a ∉ queue s
  other_capacity : ∀ {s e s'}, step s e = .ok s' → isRound e = false → capacity s' = capacity s

namespace RoundRobin

variable {σ ε φ : Type*} {step : σ → ε → Except φ σ} (m : RoundRobin step α) {s t : σ} {es : List ε}

/-- A step looks at an element. -/
def LooksAt (a : α) (s : σ) (e : ε) : Prop :=
  m.isRound e = true ∧ a ∈ looked (m.reports s e) (m.capacity s) (m.queue s)

/-- A step that is no round leaves an element in the queue. -/
def Stays (a : α) (s : σ) (e : ε) : Prop :=
  m.isRound e = false → ∀ s', step s e = .ok s' → a ∈ m.queue s → a ∈ m.queue s'

/-- Between two rounds no element of the queue moves back. -/
theorem ahead_other [DecidableEq α] {e : ε} {s' : σ} (hs : step s e = .ok s') (hround : m.isRound e = false)
    (hmem : a ∈ m.queue s) (hmem' : a ∈ m.queue s') : ahead a (m.queue s') ≤ ahead a (m.queue s) := by
  obtain ⟨keep, come, hqueue, hnew⟩ := m.other_queue hs hround
  rw [hqueue] at hmem' ⊢
  have hkept := (List.mem_append.mp hmem').resolve_right fun hcome => hnew a hcome hmem
  rw [ahead_append hkept]
  exact ahead_filter_le (List.mem_filter.mp hkept).2 hmem

/-- **Served in turn**: an element that has fewer before it than `k` rounds have room for is looked at in
one of them. -/
theorem looked_within [DecidableEq α] (hmem : a ∈ m.queue s) (hrun : runFrom step s es = .ok t)
    (hstays : Along step (m.Stays a) s es)
    (hroom : ahead a (m.queue s) < m.capacity s * (2 ^ es.countP m.isRound - 1)) :
    ∃ before e after u, es = before ++ e :: after ∧ runFrom step s before = .ok u ∧ m.LooksAt a u e := by
  induction es generalizing s with
  | nil => cases hroom
  | cons e es ih =>
      by_cases hlooks : m.LooksAt a s e
      · exact ⟨[], e, es, s, rfl, rfl, hlooks⟩
      · obtain ⟨s', hs, hrest⟩ := runFrom_cons_eq_ok hrun
        suffices hnext : a ∈ m.queue s' ∧
            ahead a (m.queue s') < m.capacity s' * (2 ^ es.countP m.isRound - 1) by
          obtain ⟨before, e', after, u, rfl, hu, hlooks'⟩ :=
            ih hnext.1 hrest (hstays.2 s' hs) hnext.2
          exact ⟨e :: before, e', after, u, rfl, (runFrom_cons_ok before hs).trans hu, hlooks'⟩
        cases hround : m.isRound e with
        | true =>
            have hnot : a ∉ looked (m.reports s e) (m.capacity s) (m.queue s) :=
              fun hlooked => hlooks ⟨hround, hlooked⟩
            obtain ⟨hleft, hahead⟩ := ahead_left hmem hnot
            obtain ⟨back, hqueue⟩ := m.round_queue hs hround
            have hcap := m.round_capacity hs hround
            rw [if_pos (served_length_eq (List.ne_nil_of_mem hleft))] at hcap
            rw [hqueue, ahead_append hleft, hcap]
            rw [List.countP_cons_of_pos hround] at hroom
            exact ⟨List.mem_append_left _ hleft, room_next hroom hahead⟩
        | false =>
            have hcap := m.other_capacity hs hround
            have hmem' := hstays.1 hround s' hs hmem
            have hahead := m.ahead_other hs hround hmem hmem'
            rw [List.countP_cons_of_neg (Bool.eq_false_iff.mp hround)] at hroom
            refine ⟨hmem', ?_⟩
            rw [hcap]
            exact Nat.lt_of_le_of_lt hahead hroom

/-- A step keeps the capacity, or doubles it when it has served as many. -/
theorem capacity_step {e : ε} {s' : σ} (hs : step s e = .ok s') :
    m.capacity s' = m.capacity s ∨ (m.capacity s' = 2 * m.capacity s ∧ m.capacity s ≤ (m.queue s).length) := by
  cases hround : m.isRound e with
  | true =>
      have hcap := m.round_capacity hs hround
      split at hcap
      · next hfull =>
          refine Or.inr ⟨hcap, ?_⟩
          have hcut := congrArg List.length
            (looked_append_left (m.reports s e) (m.capacity s) (m.queue s))
          have hserved := served_length_le_looked (m.reports s e) (m.capacity s) (m.queue s)
          rw [List.length_append] at hcut
          omega
      · exact Or.inl hcap
  | false => exact Or.inl (m.other_capacity hs hround)

/-- **The capacity** has been doubled some number of times. -/
theorem capacity_eq (hrun : runFrom step s es = .ok t) : ∃ k, m.capacity t = 2 ^ k * m.capacity s := by
  have hstep : ∀ u e u', (∃ k, m.capacity u = 2 ^ k * m.capacity s) → True → step u e = .ok u' →
      ∃ k, m.capacity u' = 2 ^ k * m.capacity s := by
    rintro u e u' ⟨k, hk⟩ - hs
    rcases m.capacity_step hs with hsame | ⟨hdouble, -⟩
    · exact ⟨k, hsame.trans hk⟩
    · exact ⟨k + 1, by rw [hdouble, hk, Nat.pow_succ', Nat.mul_assoc]⟩
  exact run_invariant hstep es ⟨0, by rw [Nat.pow_zero, Nat.one_mul]⟩ (along_true _ es) t (reachedBy_end hrun)

/-- **The capacity** outgrows no bound on the queue more than twice. -/
theorem capacity_le {bound : ℕ} (hrun : runFrom step s es = .ok t)
    (hqueue : Along step (fun u _ => (m.queue u).length ≤ bound) s es) :
    m.capacity t ≤ max (m.capacity s) (2 * bound) := by
  have hstep : ∀ u e u', m.capacity u ≤ max (m.capacity s) (2 * bound) → (m.queue u).length ≤ bound →
      step u e = .ok u' → m.capacity u' ≤ max (m.capacity s) (2 * bound) := by
    intro u e u' hu hlength hs
    rcases m.capacity_step hs with hsame | ⟨hdouble, hfull⟩
    · rw [hsame]
      exact hu
    · rw [hdouble]
      exact Nat.le_trans (Nat.mul_le_mul_left 2 (Nat.le_trans hfull hlength)) (Nat.le_max_right _ _)
  exact run_invariant hstep es (Nat.le_max_left _ _) hqueue t (reachedBy_end hrun)

end RoundRobin

end WServer.Library.Rounds
