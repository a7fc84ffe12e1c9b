import WServer.ConnectionLifecycle
import WServer.FunctorQueue

/-!
# The invariant of the server

What the queues, the calls and the epolls of the server say about each connection.  A step either is one
for a single connection, or touches none.

* `progress` — the numbers of `Progress` for a connection, read off the queues and the calls;
* `Inv` — every connection is `Lawful`, the connections have distinct descriptors, and the queues and the
  epolls mention existing connections only;
* `inv_touches` — a member of one connection does not disturb the others;
* `inv_frame` — nor does a step of the loops only.
-/

namespace WServer

open Library.Runs TcpConnection

/-! ### The queues -/

namespace EventLoop

variable {Functor : Type*} {l l' : EventLoop Functor}

theorem LoopStep.waiting {e : LoopEvent Functor} (h : LoopStep l l') (hl : BatchOver l)
    (he : e = .loop) : l.waiting = (l.called e).toList ++ l'.waiting := by
  subst he
  cases h with
  | swap hpc =>
      have hnone : l.functors = [] := hl (by rw [hpc]; decide) (by rw [hpc]; decide)
      rw [EventLoop.called, if_neg (by rw [hpc]; decide), EventLoop.waiting, hnone]
      exact (List.append_nil _).symm
  | lowerFlag hpc hnone =>
      rw [EventLoop.called, if_pos hpc, EventLoop.waiting, hnone]
      rfl
  | call hpc func functors hnext =>
      rw [EventLoop.called, if_pos hpc, EventLoop.waiting, hnext]
      rfl
  | enter hpc | testQuit hpc | poll hpc | handled hpc | raiseFlag hpc | called hpc =>
      rw [EventLoop.called, if_neg (by rw [hpc]; decide)]
      rfl

/-- **One step** of a loop that queues nothing calls the first functor that waits, or none. -/
theorem loopStep_waiting {e : LoopEvent Functor} (h : loopStep l e = .ok l') (he : e.pushed = [])
    (hl : BatchOver l) : l.waiting = (l.called e).toList ++ l'.waiting := by
  rcases loopStep_cases h with ⟨rfl, hstep⟩ | ⟨cb, _, _, hpushed, rfl⟩ | ⟨_, _, _, _, _, -, hcalled, rfl⟩
  · exact hstep.waiting hl rfl
  · rw [he] at hpushed
    cases hpushed
  · rw [hcalled]
    rfl

/-- A step of another thread leaves the loop thread where it is. -/
theorem loopStep_other {e : LoopEvent Functor} (h : loopStep l e = .ok l') (he : e.isOwn = false) :
    l'.pc = l.pc ∧ l.called e = none := by
  cases e with
  | queueInLoop cb | quit =>
      cases h
      exact ⟨rfl, rfl⟩
  | wakeup | quitWakeup =>
      rw [loopStep] at h
      split at h
      · cases h
        exact ⟨rfl, rfl⟩
      · cases h
  | queueInLoopOwn cb | queued | quitOwn | handleRead | loop => cases he

@[simp] theorem waiting_queueInLoop (cb : Functor) (l : EventLoop Functor) :
    (l.queueInLoop cb).waiting = l.waiting ++ [cb] := (List.append_assoc _ _ _).symm

theorem waiting_iterate_queueInLoop (cb : Functor) (k : ℕ) (l : EventLoop Functor) :
    ((queueInLoop cb)^[k] l).waiting = l.waiting ++ List.replicate k cb := by
  induction k with
  | zero => exact (List.append_nil _).symm
  | succ k ih =>
      rw [Function.iterate_succ_apply', waiting_queueInLoop, ih, List.append_assoc,
        ← List.replicate_succ']

theorem batchOver_iterate_queueInLoop (cb : Functor) (k : ℕ) (h : BatchOver l) :
    BatchOver ((queueInLoop cb)^[k] l) := by
  induction k with
  | zero => exact h
  | succ k ih =>
      rw [Function.iterate_succ_apply']
      exact ih

end EventLoop

/-! ### The invariant -/

namespace IoFunctor

/-- The connection a functor is bound to. -/
def conn : IoFunctor → Option ℕ
  | .connectEstablished id | .connectDestroyed id => some id
  | .handleTimeoutEvents => none

/-- `f` does not destroy the connection that `g` establishes. -/
def InOrder (f g : IoFunctor) : Prop := ∀ id, f = .connectDestroyed id → g ≠ .connectEstablished id

end IoFunctor

/-- The connection of a call. -/
def Call.conn : Call → ℕ
  | .connectEstablished id | .handler id | .connectDestroyed id => id

/-- Before every handler of a connection, `connectEstablished` has been called. -/
def HandledAfter (calls : List Call) : Prop :=
  ∀ pre id, pre ++ [.handler id] <+: calls → .connectEstablished id ∈ pre

theorem HandledAfter.append {calls : List Call} (h : HandledAfter calls) {call : Call}
    (hcall : ∀ id, call = .handler id → .connectEstablished id ∈ calls) :
    HandledAfter (calls ++ [call]) := by
  intro pre id hpre
  rcases List.prefix_concat_iff.mp hpre with heq | hpre
  · obtain ⟨rfl, hlast⟩ := List.append_inj' heq rfl
    exact hcall id (List.singleton_inj.mp hlast).symm
  · exact h pre id hpre

namespace TcpServer

variable {n : ℕ} {s s' : TcpServer n} {l : Fin (n + 1)} {id : ℕ} {conn : Connection n}
  {c c' : TcpConnection}

/-- The functors that wait in an I/O loop. -/
def queue (s : TcpServer n) (l : Fin (n + 1)) : List IoFunctor := (s.io l).loop.waiting

/-- The connection is in `m_connections`. -/
def Listed (s : TcpServer n) (id : ℕ) : Prop := id ∈ s.connections.map Prod.snd

instance (s : TcpServer n) (id : ℕ) : Decidable (s.Listed id) := inferInstanceAs (Decidable (_ ∈ _))

/-- How far a connection of a loop has come. -/
def progress (s : TcpServer n) (l : Fin (n + 1)) (id : ℕ) : Progress where
  establishing := (s.queue l).count (.connectEstablished id)
  established := s.calls.count (.connectEstablished id)
  destroying := (s.queue l).count (.connectDestroyed id)
  destroyed := s.calls.count (.connectDestroyed id)
  removing := s.main.waiting.count (.removeConnectionInLoop id)
  listed := decide (s.Listed id)
  serving := !s.destroying

theorem established_mem (h : (s.progress l id).established = 1) : .connectEstablished id ∈ s.calls := by
  have hcount : s.calls.count (.connectEstablished id) = 1 := h
  exact List.count_pos_iff.mp (by rw [hcount]; exact Nat.one_pos)

/-- A loop that handles events of a connection is at the handlers, and the connection serves. -/
structure Handles (s : TcpServer n) (l : Fin (n + 1)) (id : ℕ) : Prop where
  pc : (s.io l).loop.pc = .handling
  serves : ∃ conn, s.objects id = some conn ∧ conn.loop = l ∧ Serves (s.loaded conn)
  destroyed : s.calls.count (.connectDestroyed id) = 0

/-- The invariant. -/
structure Inv (s : TcpServer n) : Prop where
  mainBatch : s.main.BatchOver
  ioBatch : ∀ l, (s.io l).loop.BatchOver
  lawful : ∀ id conn, s.objects id = some conn → Lawful (s.progress conn.loop id) (s.loaded conn)
  named : ∀ id conn, s.objects id = some conn → conn.name = s.connName id
  listed : ∀ entry ∈ s.connections, entry.1 = s.connName entry.2 ∧ s.objects entry.2 ≠ none
  distinct : ∀ i j ci cj, s.objects i = some ci → s.objects j = some cj →
    ci.tcp.channel.fd = cj.tcp.channel.fd ∨ ci.tcp.channel.self = cj.tcp.channel.self → i = j
  unborn : ∀ i, s.nextConnId ≤ i → s.objects i = none ∧ ∀ call ∈ s.calls, call.conn ≠ i
  gone : ∀ i, s.objects i = none →
    s.calls.count (.connectEstablished i) ≤ 1 ∧ s.calls.count (.connectDestroyed i) ≤ 1
  owned : ∀ l, ∀ f ∈ s.queue l, ∀ i, f.conn = some i →
    ∃ conn, s.objects i = some conn ∧ conn.loop = l
  removable : ∀ i, .removeConnectionInLoop i ∈ s.main.waiting → s.objects i ≠ none
  order : ∀ l, (s.queue l).Pairwise IoFunctor.InOrder
  handling : ∀ l i h, (s.io l).handling = some (i, h) → s.Handles l i
  handled : HandledAfter s.calls
  entries : ∀ l fd, (s.io l).epoll.channels fd ≠ none ∨ (s.io l).epoll.kernel fd ≠ none →
    ∃ i conn, s.objects i = some conn ∧ conn.loop = l ∧ conn.tcp.channel.fd = fd

theorem inv_init (name : List Char) : Inv (init name : TcpServer n) where
  mainBatch := EventLoop.batchOver_init
  ioBatch _ := EventLoop.batchOver_init
  lawful _ _ h := by cases h
  named _ _ h := by cases h
  listed _ h := by cases h
  distinct _ _ _ _ h := by cases h
  unborn _ _ := ⟨rfl, fun _ h => by cases h⟩
  gone _ _ := ⟨Nat.zero_le 1, Nat.zero_le 1⟩
  owned _ _ h := by cases h
  removable _ h := by cases h
  order _ := List.Pairwise.nil
  handling _ _ _ h := by cases h
  handled pre id h := by
    have := List.prefix_nil.mp h
    simp at this
  entries _ _ h := by rcases h with h | h <;> exact absurd rfl h

/-- Two connections have different descriptors. -/
theorem Inv.fd_ne (hinv : Inv s) {i j : ℕ} {ci cj : Connection n} (hci : s.objects i = some ci)
    (hcj : s.objects j = some cj) (hne : i ≠ j) : ci.tcp.channel.fd ≠ cj.tcp.channel.fd := fun hfd =>
  hne (hinv.distinct i j ci cj hci hcj (Or.inl hfd))

/-! ### A member of one connection -/

/-- Only this connection, its epoll, and what is queued and recorded for it has changed: from
the queue of its loop functors have been called, and it may have been reported. -/
structure Touches (s s' : TcpServer n) (id : ℕ) (conn : Connection n) (c' : TcpConnection) : Prop where
  name : s'.name = s.name
  nextConnId : s'.nextConnId = s.nextConnId
  connections : s'.connections = s.connections
  destroying : s'.destroying = s.destroying
  objects : s'.objects = Function.update s.objects id (some { conn with tcp := c' })
  epoll : (s'.io conn.loop).epoll = c'.epoll
  io : ∀ l, l ≠ conn.loop → s'.io l = s.io l
  mainBatch : s'.main.BatchOver
  removals : ∃ k, s'.main.waiting = s.main.waiting ++ List.replicate k (.removeConnectionInLoop id)
  ioBatch : (s'.io conn.loop).loop.BatchOver
  queue : ∃ called, s.queue conn.loop = called ++ s'.queue conn.loop ∧
    ∀ f ∈ called, f.conn = some id ∨ f.conn = none
  calls : ∃ new, s'.calls = s.calls ++ new ∧ ∀ call ∈ new, call.conn = id

namespace Touches

theorem connName (h : Touches s s' id conn c') (i : ℕ) : s'.connName i = s.connName i := by
  rw [TcpServer.connName, TcpServer.connName, h.name]

theorem object (h : Touches s s' id conn c') : s'.objects id = some { conn with tcp := c' } := by
  rw [h.objects, Function.update_self]

theorem object_other (h : Touches s s' id conn c') {i : ℕ} (hi : i ≠ id) :
    s'.objects i = s.objects i := by
  rw [h.objects, Function.update_of_ne hi]

/-- The connections that exist, and where they belong. -/
theorem origin (h : Touches s s' id conn c') (hconn : s.objects id = some conn)
    (hfd : c'.channel.fd = conn.tcp.channel.fd) (hself : c'.channel.self = conn.tcp.channel.self)
    (i : ℕ) (ci : Connection n) (hci : s'.objects i = some ci) :
    ∃ cj, s.objects i = some cj ∧ ci.loop = cj.loop ∧ ci.name = cj.name ∧
      ci.tcp.channel.fd = cj.tcp.channel.fd ∧ ci.tcp.channel.self = cj.tcp.channel.self := by
  by_cases hi : i = id
  · subst hi
    rw [h.object] at hci
    cases hci
    exact ⟨conn, hconn, rfl, rfl, hfd, hself⟩
  · rw [h.object_other hi] at hci
    exact ⟨ci, hci, rfl, rfl, rfl, rfl⟩

theorem exists_object (h : Touches s s' id conn c') (hfd : c'.channel.fd = conn.tcp.channel.fd)
    (hconn : s.objects id = some conn) {i : ℕ} {ci : Connection n} (hci : s.objects i = some ci) :
    ∃ cj, s'.objects i = some cj ∧ cj.loop = ci.loop ∧ cj.tcp.channel.fd = ci.tcp.channel.fd := by
  by_cases hi : i = id
  · subst hi
    rw [hconn] at hci
    cases hci
    exact ⟨_, h.object, rfl, hfd⟩
  · exact ⟨ci, (h.object_other hi).trans hci, rfl, rfl⟩

theorem queue_sublist (h : Touches s s' id conn c') (l : Fin (n + 1)) :
    (s'.queue l).Sublist (s.queue l) := by
  by_cases hl : l = conn.loop
  · subst hl
    obtain ⟨called, hqueue, -⟩ := h.queue
    rw [hqueue]
    exact List.sublist_append_right called _
  · rw [TcpServer.queue, TcpServer.queue, h.io l hl]

/-- **Nothing has changed for any other connection** but the epoll of its loop. -/
theorem progress_other (h : Touches s s' id conn c') {i : ℕ} (hi : i ≠ id) (l : Fin (n + 1)) :
    s'.progress l i = s.progress l i := by
  have hqueue : ∀ f : IoFunctor, f.conn = some i → (s'.queue l).count f = (s.queue l).count f := by
    intro f hf
    by_cases hl : l = conn.loop
    · subst hl
      obtain ⟨called, hqueue, hcalled⟩ := h.queue
      have hnone : called.count f = 0 := by
        refine List.count_eq_zero.mpr fun hmem => ?_
        have hconn := hcalled f hmem
        rw [hf] at hconn
        rcases hconn with hconn | hconn
        · exact hi (Option.some.inj hconn)
        · cases hconn
      rw [hqueue, List.count_append, hnone, Nat.zero_add]
    · rw [TcpServer.queue, TcpServer.queue, h.io l hl]
  have hcalls : ∀ call : Call, call.conn = i → s'.calls.count call = s.calls.count call := by
    intro call hcall
    obtain ⟨new, hnew, hof⟩ := h.calls
    have hnone : new.count call = 0 :=
      List.count_eq_zero.mpr fun hmem => hi (hcall.symm.trans (hof call hmem))
    rw [hnew, List.count_append, hnone, Nat.add_zero]
  have hremovals : s'.main.waiting.count (.removeConnectionInLoop i) =
      s.main.waiting.count (.removeConnectionInLoop i) := by
    obtain ⟨k, hmain⟩ := h.removals
    have hnone : (List.replicate k (MainFunctor.removeConnectionInLoop id)).count
        (.removeConnectionInLoop i) = 0 :=
      List.count_eq_zero.mpr fun hmem =>
        hi (MainFunctor.removeConnectionInLoop.inj (List.eq_of_mem_replicate hmem))
    rw [hmain, List.count_append, hnone, Nat.add_zero]
  have hlisted : decide (s'.Listed i) = decide (s.Listed i) :=
    decide_eq_decide.mpr (by rw [Listed, Listed, h.connections])
  rw [progress, progress, hqueue _ rfl, hqueue _ rfl, hcalls _ rfl, hcalls _ rfl, hremovals,
    hlisted, h.destroying]

theorem loaded (h : Touches s s' id conn c') : s'.loaded { conn with tcp := c' } = c' := by
  rw [TcpServer.loaded, h.epoll]

end Touches

/-- The other connections on a loop see a change under a descriptor that is not theirs. -/
theorem Touches.loaded_other (h : Touches s s' id conn c') (hinv : Inv s)
    (hconn : s.objects id = some conn) (helse : Elsewhere (s.loaded conn) c') {i : ℕ}
    {ci : Connection n} (hi : i ≠ id) (hci : s.objects i = some ci) :
    ∃ fd, ci.tcp.channel.fd ≠ fd ∧
      SameElsewhere fd (s.loaded ci).epoll (s'.loaded ci).epoll := by
  refine ⟨conn.tcp.channel.fd, hinv.fd_ne hci hconn hi, ?_⟩
  by_cases hl : ci.loop = conn.loop
  · show SameElsewhere _ (s.io ci.loop).epoll (s'.io ci.loop).epoll
    rw [hl, h.epoll]
    exact helse.same
  · show SameElsewhere _ (s.io ci.loop).epoll (s'.io ci.loop).epoll
    rw [h.io _ hl]
    exact fun _ _ => ⟨rfl, rfl⟩

/-- **A member of one connection** that leaves it lawful keeps the invariant. -/
theorem inv_touches (hinv : Inv s) (hconn : s.objects id = some conn) (h : Touches s s' id conn c')
    (helse : Elsewhere (s.loaded conn) c') (hlawful : Lawful (s'.progress conn.loop id) c')
    (hhandling : ∀ i h, (s'.io conn.loop).handling = some (i, h) → s'.Handles conn.loop i)
    (hhandled : HandledAfter s'.calls) : Inv s' where
  mainBatch := h.mainBatch
  ioBatch l := by
    by_cases hl : l = conn.loop
    · rw [hl]
      exact h.ioBatch
    · rw [h.io l hl]
      exact hinv.ioBatch l
  lawful i ci hci := by
    by_cases hi : i = id
    · subst hi
      rw [h.object] at hci
      cases hci
      rw [h.loaded]
      exact hlawful
    · rw [h.object_other hi] at hci
      obtain ⟨fd, hfd, hsame⟩ := h.loaded_other hinv hconn helse hi hci
      rw [h.progress_other hi]
      exact (hinv.lawful i ci hci).elsewhere hsame hfd
  named i ci hci := by
    obtain ⟨cj, hcj, -, hname, -⟩ := h.origin hconn helse.fd helse.self i ci hci
    rw [hname, h.connName, hinv.named i cj hcj]
  listed entry hentry := by
    rw [h.connections] at hentry
    obtain ⟨hname, hobject⟩ := hinv.listed entry hentry
    refine ⟨by rw [h.connName, hname], ?_⟩
    obtain ⟨ci, hci⟩ := Option.ne_none_iff_exists'.mp hobject
    obtain ⟨cj, hcj, -⟩ := h.exists_object helse.fd hconn hci
    rw [hcj]
    exact Option.some_ne_none cj
  distinct i j ci cj hci hcj heq := by
    obtain ⟨ci', hci', -, -, hfdi, hselfi⟩ := h.origin hconn helse.fd helse.self i ci hci
    obtain ⟨cj', hcj', -, -, hfdj, hselfj⟩ := h.origin hconn helse.fd helse.self j cj hcj
    rw [hfdi, hfdj, hselfi, hselfj] at heq
    exact hinv.distinct i j ci' cj' hci' hcj' heq
  unborn i hi := by
    rw [h.nextConnId] at hi
    obtain ⟨hobject, hcalls⟩ := hinv.unborn i hi
    have hne : i ≠ id := by
      rintro rfl
      rw [hconn] at hobject
      cases hobject
    refine ⟨(h.object_other hne).trans hobject, fun call hcall => ?_⟩
    obtain ⟨new, hnew, hof⟩ := h.calls
    rw [hnew, List.mem_append] at hcall
    rcases hcall with hcall | hcall
    · exact hcalls call hcall
    · exact fun heq => hne (heq.symm.trans (hof call hcall))
  gone i hi := by
    have hne : i ≠ id := by
      rintro rfl
      rw [h.object] at hi
      cases hi
    rw [h.object_other hne] at hi
    have hes : s'.calls.count (.connectEstablished i) = s.calls.count (.connectEstablished i) :=
      congrArg Progress.established (h.progress_other hne conn.loop)
    have hds : s'.calls.count (.connectDestroyed i) = s.calls.count (.connectDestroyed i) :=
      congrArg Progress.destroyed (h.progress_other hne conn.loop)
    rw [hes, hds]
    exact hinv.gone i hi
  owned l f hf i hfi := by
    obtain ⟨ci, hci, hloop⟩ := hinv.owned l f ((h.queue_sublist l).subset hf) i hfi
    obtain ⟨cj, hcj, hloop', -⟩ := h.exists_object helse.fd hconn hci
    exact ⟨cj, hcj, hloop'.trans hloop⟩
  removable i hi := by
    obtain ⟨k, hmain⟩ := h.removals
    rw [hmain, List.mem_append] at hi
    by_cases hne : i = id
    · rw [hne, h.object]
      exact Option.some_ne_none _
    · rw [h.object_other hne]
      refine hinv.removable i (hi.resolve_right fun hmem => hne ?_)
      exact MainFunctor.removeConnectionInLoop.inj (List.eq_of_mem_replicate hmem)
  order l := (hinv.order l).sublist (h.queue_sublist l)
  handling l i hd hl := by
    by_cases hloop : l = conn.loop
    · subst hloop
      exact hhandling i hd hl
    · rw [h.io l hloop] at hl
      obtain ⟨hpc, ⟨ci, hci, hcl, hserves⟩, hdestroyed⟩ := hinv.handling l i hd hl
      have hne : i ≠ id := by
        rintro rfl
        rw [hconn] at hci
        cases hci
        exact hloop hcl.symm
      refine ⟨by rw [h.io l hloop]; exact hpc, ⟨ci, (h.object_other hne).trans hci, hcl, ?_⟩, ?_⟩
      · obtain ⟨fd, hfd, hsame⟩ := h.loaded_other hinv hconn helse hne hci
        exact hserves.elsewhere hsame hfd
      · exact (congrArg Progress.destroyed (h.progress_other hne l)).trans hdestroyed
  handled := hhandled
  entries l fd hentry := by
    have hold : (∃ i ci, s.objects i = some ci ∧ ci.loop = l ∧ ci.tcp.channel.fd = fd) := by
      by_cases hl : l = conn.loop
      · by_cases hfd : fd = conn.tcp.channel.fd
        · exact ⟨id, conn, hconn, hl.symm, hfd.symm⟩
        · subst hl
          rw [h.epoll] at hentry
          obtain ⟨hchannels, hkernel⟩ := helse.same fd hfd
          rw [hchannels, hkernel] at hentry
          exact hinv.entries _ fd hentry
      · rw [h.io l hl] at hentry
        exact hinv.entries l fd hentry
    obtain ⟨i, ci, hci, hloop, hfd⟩ := hold
    obtain ⟨cj, hcj, hloop', hfd'⟩ := h.exists_object helse.fd hconn hci
    exact ⟨i, cj, hcj, hloop'.trans hloop, hfd'.trans hfd⟩

/-! ### Steps that touch no connection -/

/-- Only the loops have moved on, and connections may have been handled; the server may have begun to
be destroyed. -/
structure Frame (s s' : TcpServer n) : Prop where
  name : s'.name = s.name := by rfl
  nextConnId : s'.nextConnId = s.nextConnId := by rfl
  connections : s'.connections = s.connections := by rfl
  objects : s'.objects = s.objects := by rfl
  destroying : s'.destroying = s.destroying ∨ s'.destroying = true := by exact Or.inl rfl
  mainBatch : s'.main.BatchOver
  main : s'.main.waiting = s.main.waiting
  epoll : ∀ l, (s'.io l).epoll = (s.io l).epoll
  ioBatch : ∀ l, (s'.io l).loop.BatchOver
  queue : ∀ l f, f.conn ≠ none → (s'.queue l).count f = (s.queue l).count f
  order : ∀ l, (s'.queue l).Pairwise IoFunctor.InOrder
  handling : ∀ l i h, (s'.io l).handling = some (i, h) →
    (∃ h', (s.io l).handling = some (i, h')) ∧ (s'.io l).loop.pc = (s.io l).loop.pc
  calls : ∃ new, s'.calls = s.calls ++ new ∧ ∀ call ∈ new, ∃ id, call = .handler id ∧
    s.objects id ≠ none
  handled : HandledAfter s'.calls

theorem inv_frame (hinv : Inv s) (h : Frame s s') : Inv s' := by
  have hloaded : ∀ conn : Connection n, s'.loaded conn = s.loaded conn := by
    intro conn
    rw [loaded, loaded, h.epoll]
  have hcount : ∀ call : Call, (∀ id, call ≠ .handler id) → s'.calls.count call = s.calls.count call := by
    intro call hcall
    obtain ⟨new, hnew, hof⟩ := h.calls
    have hnone : new.count call = 0 := by
      refine List.count_eq_zero.mpr fun hmem => ?_
      obtain ⟨id, heq, -⟩ := hof call hmem
      exact hcall id heq
    rw [hnew, List.count_append, hnone, Nat.add_zero]
  have hlisted : ∀ i, decide (s'.Listed i) = decide (s.Listed i) := fun i =>
    decide_eq_decide.mpr (by rw [Listed, Listed, h.connections])
  have hname : ∀ i, s'.connName i = s.connName i := fun i => by rw [connName, connName, h.name]
  have hqueue : ∀ l, ∀ f ∈ s'.queue l, f.conn ≠ none → f ∈ s.queue l := by
    intro l f hf hconn
    rw [← List.count_pos_iff, ← h.queue l f hconn]
    exact List.count_pos_iff.mpr hf
  refine {
    mainBatch := h.mainBatch
    ioBatch := h.ioBatch
    lawful := ?lawful
    named := ?named
    listed := ?listed
    distinct := ?distinct
    unborn := ?unborn
    gone := ?gone
    owned := ?owned
    removable := ?removable
    order := h.order
    handling := ?handling
    handled := h.handled
    entries := ?entries }
  case lawful =>
    intro i ci hci
    rw [h.objects] at hci
    have hlawful := hinv.lawful i ci hci
    rw [hloaded, progress, h.queue _ _ (fun hh => by cases hh), h.queue _ _ (fun hh => by cases hh),
      hcount _ (fun _ hh => by cases hh), hcount _ (fun _ hh => by cases hh), h.main, hlisted]
    rcases h.destroying with heq | heq
    · rw [heq]
      exact hlawful
    · rw [heq]
      exact hlawful.stop
  case named =>
    rw [h.objects]
    intro i ci hci
    rw [hname]
    exact hinv.named i ci hci
  case listed =>
    rw [h.connections, h.objects]
    intro entry hentry
    rw [hname]
    exact hinv.listed entry hentry
  case distinct =>
    rw [h.objects]
    exact hinv.distinct
  case unborn =>
    rw [h.nextConnId, h.objects]
    intro i hi
    obtain ⟨hobject, hcalls⟩ := hinv.unborn i hi
    refine ⟨hobject, fun call hcall => ?_⟩
    obtain ⟨new, hnew, hof⟩ := h.calls
    rw [hnew, List.mem_append] at hcall
    rcases hcall with hcall | hcall
    · exact hcalls call hcall
    · obtain ⟨id, rfl, hexists⟩ := hof call hcall
      rintro rfl
      exact hexists hobject
  case gone =>
    rw [h.objects]
    intro i hi
    rw [hcount _ (fun _ hh => by cases hh), hcount _ (fun _ hh => by cases hh)]
    exact hinv.gone i hi
  case owned =>
    rw [h.objects]
    intro l f hf i hfi
    exact hinv.owned l f (hqueue l f hf (by rw [hfi]; exact Option.some_ne_none i)) i hfi
  case removable =>
    rw [h.objects, h.main]
    exact hinv.removable
  case handling =>
    intro l i hd hl
    obtain ⟨⟨h', hl'⟩, hpc⟩ := h.handling l i hd hl
    obtain ⟨hpc', ⟨ci, hci, hloop, hserves⟩, hdestroyed⟩ := hinv.handling l i h' hl'
    refine ⟨hpc.trans hpc', ⟨ci, by rw [h.objects, hci], hloop, by rwa [hloaded]⟩, ?_⟩
    rw [hcount _ (fun _ hh => by cases hh)]
    exact hdestroyed
  case entries =>
    intro l fd hentry
    rw [h.epoll] at hentry
    rw [h.objects]
    exact hinv.entries l fd hentry

end TcpServer

end WServer
