import Mathlib.Data.Int.Order.Basic
import Mathlib.Data.List.Perm.Basic
import Mathlib.Tactic.Common

/-!
# Accepting connections

The channel of the listening socket is edge-triggered, so `Acceptor::handleRead` is called once for all
the connections that wait then: those it leaves in the listen queue are not reported again before another
one arrives.

* `AcceptResult`, `Answers` — what `accept` answers, and the answers that a listen queue can give;
* `Socket.accept`, `Acceptor.handleRead` — the source;
* `handleRead_run` — a call, by the first answer at which its loop ends;
* `accept_drains_iff` — the queues that a call drains.
-/

namespace WServer

/-! ### The listen queue -/

/-- The values of `errno` that `Socket::accept` tells apart. -/
inductive Errno where
  | EAGAIN
  | ECONNABORTED
  | EINTR
  | EPROTO
  | EPERM
  | EMFILE
  | other
  deriving DecidableEq, Repr

/-- One answer of `::accept`: a new descriptor, or -1 and a value of `errno`. -/
inductive AcceptResult where
  | connection (fd : ℕ)
  | failure (errno : Errno)
  deriving DecidableEq, Repr

/-- The descriptor that an answer hands over. -/
def AcceptResult.fd? : AcceptResult → Option ℕ
  | .connection fd => some fd
  | .failure _ => none

/-- The answers of a listen queue in which `waiting` connections wait, up to its EAGAIN: each connection
is accepted or has been aborted, a call may be interrupted, and another connection may arrive. -/
inductive Answers : ℕ → List AcceptResult → Prop where
  | empty : Answers 0 [.failure .EAGAIN]
  | accepted {waiting : ℕ} {answers : List AcceptResult} (fd : ℕ) (h : Answers waiting answers) :
      Answers (waiting + 1) (.connection fd :: answers)
  | aborted {waiting : ℕ} {answers : List AcceptResult} {e : Errno}
      (he : e = .ECONNABORTED ∨ e = .EPROTO) (h : Answers waiting answers) :
      Answers (waiting + 1) (.failure e :: answers)
  | interrupted {waiting : ℕ} {answers : List AcceptResult} (h : Answers waiting answers) :
      Answers waiting (.failure .EINTR :: answers)
  | arrival {waiting : ℕ} {answers : List AcceptResult} (h : Answers (waiting + 1) answers) :
      Answers waiting answers

/-! ### The source -/

/-- Why a call has no end: a LOG_FATAL, or an answer that is missing. -/
inductive AcceptStop where
  | logFatal
  | noAnswer
  deriving DecidableEq, Repr

/-- `Socket::accept` -/
def Socket.accept : AcceptResult → Except AcceptStop ℤ
  | .connection fd => .ok fd
  | .failure errno =>
      match errno with
      | .EAGAIN | .ECONNABORTED | .EINTR | .EPROTO | .EPERM | .EMFILE => .ok (-1)
      | .other => .error .logFatal

/-- What a call of `handleRead` has done: the answers it got, the descriptors it passed to
`m_new_conn_callback`, and those it closed. -/
structure AcceptRun where
  answers : List AcceptResult
  handed : List ℤ
  closed : List ℤ
  deriving DecidableEq, Repr

namespace Acceptor

def MAXFD : ℕ := 100000

/-- `handleRead`, with the answers that `::accept` will give; `callback` tells whether
`m_new_conn_callback` is set. -/
def handleRead (callback : Bool) : List AcceptResult → Except AcceptStop AcceptRun
  | [] => .error .noAnswer
  | answer :: answers =>
      match Socket.accept answer with
      | .error stop => .error stop
      | .ok connfd =>
          if connfd < 0 then .ok { answers := [answer], handed := [], closed := [] }
          -- limitation of connection numbers
          else if (MAXFD : ℤ) < connfd then .ok { answers := [answer], handed := [], closed := [connfd] }
          else
            match handleRead callback answers with
            | .error stop => .error stop
            | .ok run =>
                .ok {
                  answers := answer :: run.answers
                  handed := if callback then connfd :: run.handed else run.handed
                  closed := if callback then run.closed else connfd :: run.closed }

end Acceptor

namespace AcceptRun

/-- The call returned after `accept` had reported EAGAIN. -/
def Drained (run : AcceptRun) : Prop := run.answers.getLast? = some (.failure .EAGAIN)

/-- The descriptors that were accepted. -/
def accepted (run : AcceptRun) : List ℤ := (run.answers.filterMap AcceptResult.fd?).map Int.ofNat

/-- Every accepted descriptor was passed to the callback or closed, and no other one was. -/
def Disposed (run : AcceptRun) : Prop := (run.handed ++ run.closed).Perm run.accepted

end AcceptRun

namespace Acceptor

variable {callback : Bool} {answer : AcceptResult} {answers : List AcceptResult} {waiting : ℕ}

/-! ### One turn of the loop -/

/-- A connection with which the loop goes on. -/
def Proceeds (answer : AcceptResult) : Prop := ∃ fd, answer = .connection fd ∧ fd ≤ MAXFD

/-- A turn with which the loop goes on. -/
theorem handleRead_proceeds {fd : ℕ} (hfd : fd ≤ MAXFD) {run : AcceptRun}
    (hrun : handleRead callback answers = .ok run) :
    handleRead callback (.connection fd :: answers) = .ok {
      answers := .connection fd :: run.answers
      handed := if callback then (fd : ℤ) :: run.handed else run.handed
      closed := if callback then run.closed else (fd : ℤ) :: run.closed } := by
  have hneg : ¬ (fd : ℤ) < 0 := by omega
  have hmax : ¬ (MAXFD : ℤ) < fd := by omega
  simp only [handleRead, Socket.accept, if_neg hneg, if_neg hmax, hrun]

/-- A turn with which the loop ends. -/
theorem handleRead_ends (callback : Bool) (answers : List AcceptResult) (hanswer : ¬ Proceeds answer)
    (hknown : answer ≠ .failure .other) : ∃ closed,
      handleRead callback (answer :: answers) = .ok { answers := [answer], handed := [], closed := closed } ∧
        closed = (answer.fd?.map Int.ofNat).toList := by
  cases answer with
  | connection fd =>
      have hmax : (MAXFD : ℤ) < fd := by
        by_contra hle
        exact hanswer ⟨fd, rfl, by omega⟩
      have hneg : ¬ (fd : ℤ) < 0 := by omega
      refine ⟨[(fd : ℤ)], ?_, rfl⟩
      simp only [handleRead, Socket.accept, if_neg hneg, if_pos hmax]
  | failure errno =>
      refine ⟨[], ?_, rfl⟩
      cases errno with
      | other => exact absurd rfl hknown
      | EAGAIN | ECONNABORTED | EINTR | EPROTO | EPERM | EMFILE => rfl

/-! ### A whole call -/

/-- The answers of a listen queue end with the only EAGAIN of them, and each is one that
`Socket::accept` knows. -/
theorem answers_split (h : Answers waiting answers) : ∃ before,
    answers = before ++ [.failure .EAGAIN] ∧ .failure .EAGAIN ∉ before ∧ .failure .other ∉ before := by
  induction h with
  | empty => exact ⟨[], rfl, List.not_mem_nil, List.not_mem_nil⟩
  | accepted fd h ih =>
      obtain ⟨before, rfl, hagain, hother⟩ := ih
      exact ⟨.connection fd :: before, rfl, by simp [hagain], by simp [hother]⟩
  | aborted he h ih =>
      obtain ⟨before, rfl, hagain, hother⟩ := ih
      rcases he with rfl | rfl
      · exact ⟨.failure .ECONNABORTED :: before, rfl, by simp [hagain], by simp [hother]⟩
      · exact ⟨.failure .EPROTO :: before, rfl, by simp [hagain], by simp [hother]⟩
  | interrupted h ih =>
      obtain ⟨before, rfl, hagain, hother⟩ := ih
      exact ⟨.failure .EINTR :: before, rfl, by simp [hagain], by simp [hother]⟩
  | arrival h ih => exact ih

/-- A connection in front of the answers of a call. -/
theorem drained_cons (fd : ℕ) (answers : List AcceptResult) (handed closed handed' closed' : List ℤ) :
    AcceptRun.Drained { answers := .connection fd :: answers, handed := handed, closed := closed } ↔
      AcceptRun.Drained { answers := answers, handed := handed', closed := closed' } := by
  rw [AcceptRun.Drained, AcceptRun.Drained, List.getLast?_cons, Option.some.injEq]
  cases answers.getLast? with
  | none =>
      constructor
      · intro h
        cases h
      · intro h
        cases h
  | some last => rw [Option.getD_some, Option.some.injEq]

/-- **A call** ends, disposes of what it accepts, and drains the queue exactly if its loop goes on at
every answer before the EAGAIN. -/
theorem handleRead_run (callback : Bool) {before : List AcceptResult}
    (hagain : .failure .EAGAIN ∉ before) (hother : .failure .other ∉ before) :
    ∃ run, handleRead callback (before ++ [.failure .EAGAIN]) = .ok run ∧ run.Disposed ∧
      (run.Drained ↔ ∀ answer ∈ before, Proceeds answer) := by
  induction before with
  | nil =>
      exact ⟨{ answers := [.failure .EAGAIN], handed := [], closed := [] }, rfl, List.Perm.refl [],
        ⟨fun _ => by simp, fun _ => rfl⟩⟩
  | cons answer before ih =>
      rw [List.mem_cons, not_or] at hagain hother
      by_cases hgo : Proceeds answer
      · obtain ⟨run, hrun, hdisposed, hdrained⟩ := ih hagain.2 hother.2
        obtain ⟨fd, rfl, hfd⟩ := hgo
        refine ⟨_, handleRead_proceeds hfd hrun, ?_, ?_⟩
        · have hadd : ((fd : ℤ) :: (run.handed ++ run.closed)).Perm ((fd : ℤ) :: run.accepted) :=
            hdisposed.cons _
          cases callback with
          | true => exact hadd
          | false => exact List.perm_middle.trans hadd
        · rw [drained_cons, hdrained]
          refine ⟨fun h a ha => ?_, fun h a ha => h a (List.mem_cons_of_mem _ ha)⟩
          rcases List.mem_cons.mp ha with rfl | ha
          · exact ⟨fd, rfl, hfd⟩
          · exact h a ha
      · obtain ⟨closed, hrun, hclosed⟩ := handleRead_ends callback
          (before ++ [.failure .EAGAIN]) hgo (fun h => hother.1 h.symm)
        refine ⟨_, hrun, ?_, fun hdrained => ?_, fun h => absurd (h answer List.mem_cons_self) hgo⟩
        · rw [AcceptRun.Disposed, AcceptRun.accepted, hclosed, List.nil_append]
          cases answer with
          | connection fd => exact List.Perm.refl _
          | failure errno => exact List.Perm.refl _
        · exact absurd (Option.some.inj hdrained).symm hagain.1

/-- **The acceptor.**  For every listen queue and every sequence of answers it can give: a call of
`handleRead` ends, and it returns after an EAGAIN, with every accepted descriptor passed on or closed,
exactly if every answer before the EAGAIN is a descriptor not greater than `MAXFD`. -/
theorem accept_drains_iff (callback : Bool) (h : Answers waiting answers) :
    ∃ run, handleRead callback answers = .ok run ∧
      (run.Drained ∧ run.Disposed ↔
        ∀ answer ∈ answers, answer = .failure .EAGAIN ∨ ∃ fd, answer = .connection fd ∧ fd ≤ MAXFD) := by
  obtain ⟨before, rfl, hagain, hother⟩ := answers_split h
  obtain ⟨run, hrun, hdisposed, hdrained⟩ := handleRead_run callback hagain hother
  refine ⟨run, hrun, ?_⟩
  rw [and_iff_left hdisposed, hdrained]
  constructor
  · intro hall answer ha
    rcases List.mem_append.mp ha with ha | ha
    · exact Or.inr (hall answer ha)
    · exact Or.inl (List.mem_singleton.mp ha)
  · intro hall answer ha
    rcases hall answer (List.mem_append_left _ ha) with rfl | hgo
    · exact absurd ha hagain
    · exact hgo

/-- A queue of one connection. -/
theorem accept_drains_iff_one : ∃ run,
    handleRead true [.connection 7, .failure .EAGAIN] = .ok run ∧ run.Drained := by
  obtain ⟨run, hrun, hiff⟩ := accept_drains_iff true (.accepted 7 .empty)
  refine ⟨run, hrun, (hiff.mpr fun answer ha => ?_).1⟩
  rcases List.mem_cons.mp ha with rfl | ha
  · exact Or.inr ⟨7, rfl, by decide⟩
  · exact Or.inl (List.mem_singleton.mp ha)

/-- An interrupted call in front of a waiting connection. -/
theorem interrupted_not_drained : ∃ answers, Answers 1 answers ∧
    ∃ run, handleRead true answers = .ok run ∧ ¬ run.Drained := by
  refine ⟨[.failure .EINTR, .connection 7, .failure .EAGAIN], .interrupted (.accepted 7 .empty), _, rfl, ?_⟩
  intro hdrained
  cases Option.some.inj hdrained

end Acceptor

end WServer
