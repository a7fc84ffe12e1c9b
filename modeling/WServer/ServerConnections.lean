import WServer.ServerInvariant

/-!
# Connections come and go

`newConnection` makes a connection that the epolls do not know and queues its `connectEstablished`;
`removeConnectionInLoop` and the destructor of the server take one out of `m_connections` and queue its
`connectDestroyed`; the destructor of a connection finds nothing that waits for it.
-/

namespace WServer

open TcpConnection

namespace TcpServer

variable {n : ℕ} {s s' : TcpServer n} {l : Fin (n + 1)} {id : ℕ} {conn : Connection n}
  {c c' : TcpConnection}

/-! ### The queue of a loop grows -/

/-- Two states of an I/O thread that differ in what is queued only. -/
structure SameButQueue (t t' : IoThread) : Prop where
  epoll : t'.epoll = t.epoll
  handling : t'.handling = t.handling
  pc : t'.loop.pc = t.loop.pc
  batchOver : t.loop.BatchOver → t'.loop.BatchOver

section

variable (l l' : Fin (n + 1)) (cb : IoFunctor)

theorem queueInLoop_io_of_ne (h : l' ≠ l) : (s.queueInLoop l cb).io l' = s.io l' :=
  Function.update_of_ne h _ _

theorem queueInLoop_io_self :
    (s.queueInLoop l cb).io l = { s.io l with loop := (s.io l).loop.queueInLoop cb } :=
  Function.update_self _ _ _

theorem queueInLoop_queue_of_ne (h : l' ≠ l) : (s.queueInLoop l cb).queue l' = s.queue l' := by
  rw [queue, queue, queueInLoop_io_of_ne l l' cb h]

theorem queueInLoop_queue_self : (s.queueInLoop l cb).queue l = s.queue l ++ [cb] := by
  rw [queue, queueInLoop_io_self, EventLoop.waiting_queueInLoop]
  rfl

/-- Nothing else of the loops changes. -/
theorem queueInLoop_kept : SameButQueue (s.io l') ((s.queueInLoop l cb).io l') := by
  by_cases h : l' = l
  · subst h
    rw [queueInLoop_io_self]
    exact ⟨rfl, rfl, rfl, id⟩
  · rw [queueInLoop_io_of_ne l l' cb h]
    exact ⟨rfl, rfl, rfl, id⟩

theorem mem_queueInLoop {f : IoFunctor} (h : f ∈ (s.queueInLoop l cb).queue l') :
    f ∈ s.queue l' ∨ (f = cb ∧ l' = l) := by
  by_cases hl : l' = l
  · subst hl
    rw [queueInLoop_queue_self, List.mem_append, List.mem_singleton] at h
    exact h.imp_right fun hf => ⟨hf, rfl⟩
  · rw [queueInLoop_queue_of_ne l l' cb hl] at h
    exact Or.inl h

theorem count_queueInLoop_of_ne {f : IoFunctor} (hf : f ≠ cb) :
    ((s.queueInLoop l cb).queue l').count f = (s.queue l').count f := by
  by_cases hl : l' = l
  · subst hl
    have hnone : [cb].count f = 0 :=
      List.count_eq_zero.mpr fun hmem => hf (List.mem_singleton.mp hmem)
    rw [queueInLoop_queue_self, List.count_append, hnone, Nat.add_zero]
  · rw [queueInLoop_queue_of_ne l l' cb hl]

theorem order_queueInLoop (h : (s.queue l').Pairwise IoFunctor.InOrder)
    (hcb : ∀ f ∈ s.queue l, IoFunctor.InOrder f cb) :
    ((s.queueInLoop l cb).queue l').Pairwise IoFunctor.InOrder := by
  by_cases hl : l' = l
  · subst hl
    rw [queueInLoop_queue_self, List.pairwise_append]
    refine ⟨h, List.pairwise_singleton _ _, fun f hf g hg => ?_⟩
    rw [List.mem_singleton.mp hg]
    exact hcb f hf
  · rwa [queueInLoop_queue_of_ne l l' cb hl]

end

/-! ### New connections -/

/-- **Names** tell the connections apart. -/
theorem connName_injective (s : TcpServer n) : Function.Injective s.connName := by
  intro i j h
  have hdigits : Nat.toDigits 10 i = Nat.toDigits 10 j := List.append_cancel_left h
  rw [← Nat.ofDigitChars_ten_toDigits (n := i), hdigits, Nat.ofDigitChars_ten_toDigits]

theorem Inv.unused (hinv : Inv s) {fd self : ℕ} (h : s.Unused fd self) {i : ℕ} {ci : Connection n}
    (hci : s.objects i = some ci) : ci.tcp.channel.fd ≠ fd ∧ ci.tcp.channel.self ≠ self := by
  refine h i ?_ ci hci
  by_contra hi
  rw [(hinv.unborn i (Nat.le_of_not_lt hi)).1] at hci
  cases hci

/-- A descriptor that no connection has is watched by no epoll. -/
theorem Inv.no_entry (hinv : Inv s) {fd self : ℕ} (h : s.Unused fd self) (l : Fin (n + 1)) :
    (s.io l).epoll.channels fd = none ∧ (s.io l).epoll.kernel fd = none := by
  have hno : ¬ ((s.io l).epoll.channels fd ≠ none ∨ (s.io l).epoll.kernel fd ≠ none) := by
    intro hentry
    obtain ⟨i, ci, hci, -, hfd⟩ := hinv.entries l fd hentry
    exact (hinv.unused h hci).1 hfd
  rw [not_or, not_not, not_not] at hno
  exact hno

/-- Nothing is queued or recorded for a connection that does not exist yet. -/
theorem Inv.next_progress (hinv : Inv s) (l : Fin (n + 1)) :
    s.progress l s.nextConnId = ⟨0, 0, 0, 0, 0, false, !s.destroying⟩ := by
  obtain ⟨hobject, hcalls⟩ := hinv.unborn s.nextConnId (Nat.le_refl _)
  have hqueue : ∀ f : IoFunctor, f.conn = some s.nextConnId → (s.queue l).count f = 0 := by
    intro f hf
    refine List.count_eq_zero.mpr fun hmem => ?_
    obtain ⟨ci, hci, -⟩ := hinv.owned l f hmem _ hf
    rw [hobject] at hci
    cases hci
  have hcall : ∀ call : Call, call.conn = s.nextConnId → s.calls.count call = 0 := fun call h =>
    List.count_eq_zero.mpr fun hmem => hcalls call hmem h
  have hremoval : s.main.waiting.count (.removeConnectionInLoop s.nextConnId) = 0 :=
    List.count_eq_zero.mpr fun hmem => hinv.removable _ hmem hobject
  have hlisted : ¬ s.Listed s.nextConnId := by
    intro h
    obtain ⟨entry, hentry, heq⟩ := List.mem_map.mp h
    exact (hinv.listed entry hentry).2 (heq ▸ hobject)
  rw [progress, hqueue _ rfl, hqueue _ rfl, hcall _ rfl, hcall _ rfl, hremoval, decide_eq_false hlisted]

theorem Inv.connections_insert (hinv : Inv s) (fd self : ℕ) :
    (s.insert fd self).connections = (s.connName s.nextConnId, s.nextConnId) :: s.connections := by
  have hkept : (s.connections.filter fun entry => entry.1 ≠ (s.newObject fd self).name) =
      s.connections := by
    refine List.filter_eq_self.mpr fun entry hentry => decide_eq_true fun hname => ?_
    obtain ⟨hname', hexists⟩ := hinv.listed entry hentry
    rw [hname'] at hname
    exact hexists (connName_injective s hname ▸ (hinv.unborn _ (Nat.le_refl _)).1)
  rw [insert, hkept]
  rfl

/-- The server after `newConnection`. -/
def accepted (s : TcpServer n) (fd self : ℕ) : TcpServer n :=
  (s.insert fd self).queueInLoop s.nextLoop (.connectEstablished s.nextConnId)

theorem accepted_object (s : TcpServer n) (fd self : ℕ) :
    (s.accepted fd self).objects s.nextConnId = some (s.newObject fd self) :=
  Function.update_self _ _ _

theorem accepted_object_other (s : TcpServer n) (fd self : ℕ) {i : ℕ} (hi : i ≠ s.nextConnId) :
    (s.accepted fd self).objects i = s.objects i := Function.update_of_ne hi _ _

/-- The connections afterwards: the new one, and those that were there. -/
theorem object_of_accepted {fd self i : ℕ} {ci : Connection n}
    (hci : (s.accepted fd self).objects i = some ci) :
    (i = s.nextConnId ∧ ci = s.newObject fd self) ∨ (i ≠ s.nextConnId ∧ s.objects i = some ci) := by
  by_cases hi : i = s.nextConnId
  · subst hi
    rw [accepted_object] at hci
    exact Or.inl ⟨rfl, (Option.some.inj hci).symm⟩
  · rw [accepted_object_other s fd self hi] at hci
    exact Or.inr ⟨hi, hci⟩

theorem Inv.accepted_old (hinv : Inv s) (fd self : ℕ) {i : ℕ} {ci : Connection n}
    (hci : s.objects i = some ci) : (s.accepted fd self).objects i = some ci := by
  rw [accepted_object_other s fd self, hci]
  rintro rfl
  rw [(hinv.unborn _ (Nat.le_refl _)).1] at hci
  cases hci

theorem accepted_loaded (s : TcpServer n) (fd self : ℕ) (ci : Connection n) :
    (s.accepted fd self).loaded ci = s.loaded ci := by
  rw [loaded, loaded, accepted, (queueInLoop_kept _ _ _).epoll]
  rfl

/-- The progress of the connections that exist already. -/
theorem progress_accepted (hinv : Inv s) (fd self : ℕ) {i : ℕ} (hi : i ≠ s.nextConnId)
    (l : Fin (n + 1)) : (s.accepted fd self).progress l i = s.progress l i := by
  have hlisted : decide ((s.accepted fd self).Listed i) = decide (s.Listed i) := by
    refine decide_eq_decide.mpr ?_
    show i ∈ (s.insert fd self).connections.map Prod.snd ↔ _
    rw [hinv.connections_insert, List.map_cons, List.mem_cons]
    exact or_iff_right hi
  rw [progress, progress, hlisted, accepted, count_queueInLoop_of_ne, count_queueInLoop_of_ne]
  · rfl
  · exact fun h => by cases h
  · exact fun h => hi (IoFunctor.connectEstablished.inj h)

theorem progress_accepted_new (hinv : Inv s) (fd self : ℕ) :
    (s.accepted fd self).progress s.nextLoop s.nextConnId = ⟨1, 0, 0, 0, 0, true, !s.destroying⟩ := by
  have hnext := hinv.next_progress s.nextLoop
  have hlisted : (s.accepted fd self).Listed s.nextConnId := by
    show _ ∈ (s.insert fd self).connections.map Prod.snd
    rw [hinv.connections_insert]
    exact List.mem_cons_self
  have hcount : ((s.accepted fd self).queue s.nextLoop).count (.connectEstablished s.nextConnId) =
      (s.queue s.nextLoop).count (.connectEstablished s.nextConnId) + 1 := by
    rw [accepted, queueInLoop_queue_self, List.count_append, List.count_singleton_self]
    rfl
  rw [progress, Progress.mk.injEq] at hnext
  obtain ⟨hes, hes', hds, hds', hrm, -, -⟩ := hnext
  rw [progress, hcount, decide_eq_true hlisted, accepted, count_queueInLoop_of_ne]
  · rw [Progress.mk.injEq]
    exact ⟨by rw [hes], hes', hds, hds', hrm, rfl, rfl⟩
  · exact fun h => by cases h

/-- **newConnection** makes a connection whose `connectEstablished` waits in its loop. -/
theorem inv_accepted (hinv : Inv s) {fd self : ℕ} (hunused : s.Unused fd self) :
    Inv (s.accepted fd self) := by
  have hkept := queueInLoop_kept (s := s.insert fd self) s.nextLoop
  refine {
    mainBatch := hinv.mainBatch
    ioBatch := fun l => (hkept l _).batchOver (hinv.ioBatch l)
    lawful := ?lawful
    named := ?named
    listed := ?listed
    distinct := ?distinct
    unborn := ?unborn
    gone := ?gone
    owned := ?owned
    removable := ?removable
    order := ?order
    handling := ?handling
    handled := hinv.handled
    entries := ?entries }
  case lawful =>
    intro i ci hci
    rcases object_of_accepted hci with ⟨rfl, rfl⟩ | ⟨hi, hci⟩
    · have hloop : (s.newObject fd self).loop = s.nextLoop := rfl
      rw [hloop, progress_accepted_new hinv, accepted_loaded]
      obtain ⟨hchannels, hkernel⟩ := hinv.no_entry hunused s.nextLoop
      exact ⟨.connecting (connecting_init hchannels hkernel), rfl, rfl, Nat.zero_le _,
        fun _ => Or.inl rfl⟩
    · rw [progress_accepted hinv fd self hi, accepted_loaded]
      exact hinv.lawful i ci hci
  case named =>
    intro i ci hci
    rcases object_of_accepted hci with ⟨rfl, rfl⟩ | ⟨-, hci⟩
    · rfl
    · exact hinv.named i ci hci
  case listed =>
    intro entry hentry
    have hmem : entry ∈ (s.insert fd self).connections := hentry
    rw [hinv.connections_insert, List.mem_cons] at hmem
    rcases hmem with rfl | hmem
    · refine ⟨rfl, ?_⟩
      rw [accepted_object]
      exact Option.some_ne_none _
    · obtain ⟨hname, hexists⟩ := hinv.listed entry hmem
      obtain ⟨ci, hci⟩ := Option.ne_none_iff_exists'.mp hexists
      rw [hinv.accepted_old fd self hci]
      exact ⟨hname, Option.some_ne_none ci⟩
  case distinct =>
    intro i j ci cj hci hcj heq
    rcases object_of_accepted hci with ⟨rfl, rfl⟩ | ⟨-, hci⟩
    · rcases object_of_accepted hcj with ⟨rfl, rfl⟩ | ⟨-, hcj⟩
      · rfl
      · obtain ⟨hfd, hself⟩ := hinv.unused hunused hcj
        exact absurd heq (not_or.mpr ⟨fun h => hfd h.symm, fun h => hself h.symm⟩)
    · rcases object_of_accepted hcj with ⟨rfl, rfl⟩ | ⟨-, hcj⟩
      · obtain ⟨hfd, hself⟩ := hinv.unused hunused hci
        exact absurd heq (not_or.mpr ⟨hfd, hself⟩)
      · exact hinv.distinct i j ci cj hci hcj heq
  case unborn =>
    intro i hi
    have hi' : s.nextConnId + 1 ≤ i := hi
    obtain ⟨hobject', hcalls'⟩ := hinv.unborn i (by omega)
    exact ⟨by rwa [accepted_object_other s fd self (by omega)], hcalls'⟩
  case gone =>
    intro i hi
    by_cases hne : i = s.nextConnId
    · rw [hne, accepted_object] at hi
      cases hi
    · rw [accepted_object_other s fd self hne] at hi
      exact hinv.gone i hi
  case owned =>
    intro l f hf i hfi
    rcases mem_queueInLoop _ _ _ hf with hf | ⟨rfl, rfl⟩
    · obtain ⟨ci, hci, hloop⟩ := hinv.owned l f hf i hfi
      exact ⟨ci, hinv.accepted_old fd self hci, hloop⟩
    · cases hfi
      exact ⟨_, accepted_object s fd self, rfl⟩
  case removable =>
    intro i hi
    obtain ⟨ci, hci⟩ := Option.ne_none_iff_exists'.mp (hinv.removable i hi)
    rw [hinv.accepted_old fd self hci]
    exact Option.some_ne_none ci
  case order =>
    intro l
    refine order_queueInLoop _ _ _ (hinv.order l) fun f hf i hfi => ?_
    rintro heq
    cases heq
    obtain ⟨ci, hci, -⟩ := hinv.owned _ f hf s.nextConnId (by rw [hfi]; rfl)
    rw [(hinv.unborn _ (Nat.le_refl _)).1] at hci
    cases hci
  case handling =>
    intro l i h hl
    rw [accepted, (hkept l _).handling] at hl
    obtain ⟨hpc, ⟨ci, hci, hloop, hserves⟩, hdestroyed⟩ := hinv.handling l i h hl
    exact ⟨(hkept l _).pc.trans hpc, ⟨ci, hinv.accepted_old fd self hci, hloop,
      by rwa [accepted_loaded]⟩, hdestroyed⟩
  case entries =>
    intro l fd' hentry
    rw [accepted, (hkept l _).epoll] at hentry
    obtain ⟨i, ci, hci, hloop, hfd⟩ := hinv.entries l fd' hentry
    exact ⟨i, ci, hinv.accepted_old fd self hci, hloop, hfd⟩

/-! ### Connections leave the server -/

/-- The server after a connection has left `m_connections`, with its `connectDestroyed` queued; the main
loop is now `main`. -/
def unlisted (s : TcpServer n) (id : ℕ) (conn : Connection n) (main : EventLoop MainFunctor) :
    TcpServer n :=
  (({ s with main := main } : TcpServer n).erase conn.name).queueInLoop conn.loop
    (.connectDestroyed id)

theorem unlisted_loaded (s : TcpServer n) (id : ℕ) (conn : Connection n)
    (main : EventLoop MainFunctor) (ci : Connection n) :
    (s.unlisted id conn main).loaded ci = s.loaded ci := by
  rw [loaded, loaded, unlisted, (queueInLoop_kept _ _ _).epoll]
  rfl

/-- The entries that are left are those of the other connections. -/
theorem Inv.listed_erase (hinv : Inv s) (hconn : s.objects id = some conn) (i : ℕ) :
    (s.erase conn.name).Listed i ↔ s.Listed i ∧ i ≠ id := by
  have hname := hinv.named id conn hconn
  constructor
  · intro h
    obtain ⟨entry, hentry, rfl⟩ := List.mem_map.mp h
    obtain ⟨hmem, hne⟩ := List.mem_filter.mp hentry
    refine ⟨List.mem_map.mpr ⟨entry, hmem, rfl⟩, fun heq => of_decide_eq_true hne ?_⟩
    rw [(hinv.listed entry hmem).1, heq, hname]
  · rintro ⟨h, hi⟩
    obtain ⟨entry, hmem, rfl⟩ := List.mem_map.mp h
    refine List.mem_map.mpr ⟨entry, List.mem_filter.mpr ⟨hmem, decide_eq_true fun heq => hi ?_⟩, rfl⟩
    rw [(hinv.listed entry hmem).1, hname] at heq
    exact connName_injective s heq

theorem progress_unlisted (hinv : Inv s) (hconn : s.objects id = some conn)
    (main : EventLoop MainFunctor) :
    (s.unlisted id conn main).progress conn.loop id = { s.progress conn.loop id with
      destroying := (s.progress conn.loop id).destroying + 1
      removing := main.waiting.count (.removeConnectionInLoop id)
      listed := false } := by
  have hlisted : ¬ (s.unlisted id conn main).Listed id := fun h =>
    ((hinv.listed_erase hconn id).mp h).2 rfl
  have hcount : ((s.unlisted id conn main).queue conn.loop).count (.connectDestroyed id) =
      (s.queue conn.loop).count (.connectDestroyed id) + 1 := by
    rw [unlisted, queueInLoop_queue_self, List.count_append, List.count_singleton_self]
    rfl
  rw [progress, hcount, decide_eq_false hlisted, unlisted, count_queueInLoop_of_ne]
  · rfl
  · exact fun h => by cases h

theorem progress_unlisted_other (hinv : Inv s) (hconn : s.objects id = some conn)
    {main : EventLoop MainFunctor} {i : ℕ} (hi : i ≠ id)
    (hmain : main.waiting.count (.removeConnectionInLoop i) =
      s.main.waiting.count (.removeConnectionInLoop i)) (l : Fin (n + 1)) :
    (s.unlisted id conn main).progress l i = s.progress l i := by
  have hlisted : decide ((s.unlisted id conn main).Listed i) = decide (s.Listed i) :=
    decide_eq_decide.mpr ((hinv.listed_erase hconn i).trans (and_iff_left hi))
  have hmain' : (s.unlisted id conn main).main.waiting.count (.removeConnectionInLoop i) =
      s.main.waiting.count (.removeConnectionInLoop i) := hmain
  rw [progress, progress, hlisted, hmain', unlisted, count_queueInLoop_of_ne, count_queueInLoop_of_ne]
  · rfl
  · exact fun h => hi (IoFunctor.connectDestroyed.inj h)
  · exact fun h => by cases h

/-- **A connection leaves** the server: by `removeConnectionInLoop`, or by the destructor. -/
theorem inv_unlisted (hinv : Inv s) (hconn : s.objects id = some conn) {main : EventLoop MainFunctor}
    (hbatch : main.BatchOver) (hmain : ∀ f ∈ main.waiting, f ∈ s.main.waiting)
    (hother : ∀ i ≠ id, main.waiting.count (.removeConnectionInLoop i) =
      s.main.waiting.count (.removeConnectionInLoop i))
    (hlawful : Lawful { s.progress conn.loop id with
      destroying := (s.progress conn.loop id).destroying + 1
      removing := main.waiting.count (.removeConnectionInLoop id)
      listed := false } (s.loaded conn)) : Inv (s.unlisted id conn main) := by
  have hkept := queueInLoop_kept (s := ({ s with main := main } : TcpServer n).erase conn.name) conn.loop
  refine {
    mainBatch := hbatch
    ioBatch := fun l => (hkept l _).batchOver (hinv.ioBatch l)
    lawful := ?lawful
    named := hinv.named
    listed := ?listed
    distinct := hinv.distinct
    unborn := hinv.unborn
    gone := hinv.gone
    owned := ?owned
    removable := ?removable
    order := ?order
    handling := ?handling
    handled := hinv.handled
    entries := ?entries }
  case lawful =>
    intro i ci hci
    rw [unlisted_loaded]
    by_cases hi : i = id
    · subst hi
      rw [show s.objects i = some ci from hci] at hconn
      cases hconn
      rw [progress_unlisted hinv hci]
      exact hlawful
    · rw [progress_unlisted_other hinv hconn hi (hother i hi)]
      exact hinv.lawful i ci hci
  case listed =>
    intro entry hentry
    exact hinv.listed entry (List.mem_filter.mp hentry).1
  case owned =>
    intro l f hf i hfi
    rcases mem_queueInLoop _ _ _ hf with hf | ⟨rfl, rfl⟩
    · exact hinv.owned l f hf i hfi
    · cases hfi
      exact ⟨conn, hconn, rfl⟩
  case removable =>
    exact fun i hi => hinv.removable i (hmain _ hi)
  case order =>
    exact fun l => order_queueInLoop _ _ _ (hinv.order l) fun f _ i _ heq => by cases heq
  case handling =>
    intro l i h hl
    rw [unlisted, (hkept l _).handling] at hl
    obtain ⟨hpc, ⟨ci, hci, hloop, hserves⟩, hdestroyed⟩ := hinv.handling l i h hl
    exact ⟨(hkept l _).pc.trans hpc, ⟨ci, hci, hloop, by rwa [unlisted_loaded]⟩, hdestroyed⟩
  case entries =>
    intro l fd hentry
    rw [unlisted, (hkept l _).epoll] at hentry
    exact hinv.entries l fd hentry

/-- A connection that nothing refers to has been destroyed by its loop, and nothing waits for it. -/
theorem Inv.unreferenced (hinv : Inv s) (hconn : s.objects id = some conn) (h : ¬ s.Referenced id) :
    (s.progress conn.loop id).destroyed = 1 ∧ (s.progress conn.loop id).establishing = 0 ∧
      (s.progress conn.loop id).destroying = 0 ∧ (s.progress conn.loop id).removing = 0 ∧
        ¬ s.Listed id := by
  rw [Referenced, not_or, not_or, not_or] at h
  obtain ⟨hlisted, hmain, hio, -⟩ := h
  have hdestroying : (s.progress conn.loop id).destroying = 0 :=
    List.count_eq_zero.mpr fun hmem => hio ⟨conn.loop, List.mem_append_right _ hmem⟩
  have hremoving : (s.progress conn.loop id).removing = 0 :=
    List.count_eq_zero.mpr fun hmem => hmain (List.mem_append_right _ hmem)
  obtain ⟨hdestroyed, -, hestablishing⟩ := (hinv.lawful id conn hconn).destroyed_of_unreferenced
    (decide_eq_false hlisted) hdestroying
  exact ⟨hdestroyed, hestablishing, hdestroying, hremoving, hlisted⟩

/-- It is disconnected when its destructor runs. -/
theorem Inv.unreferenced_state (hinv : Inv s) (hconn : s.objects id = some conn)
    (h : ¬ s.Referenced id) : conn.tcp.state = .kDisconnected :=
  (hinv.lawful id conn hconn).stage.disconnected (hinv.unreferenced hconn h).1

/-- No functor is bound to it. -/
theorem Inv.unreferenced_queue (hinv : Inv s) (hconn : s.objects id = some conn)
    (h : ¬ s.Referenced id) {f : IoFunctor} (hf : f ∈ s.queue l) : f.conn ≠ some id := by
  obtain ⟨-, hestablishing, hdestroying, -⟩ := hinv.unreferenced hconn h
  intro hfi
  obtain ⟨ci, hci, rfl⟩ := hinv.owned l f hf id hfi
  rw [hconn] at hci
  cases hci
  cases f with
  | connectEstablished j =>
      cases hfi
      exact List.count_eq_zero.mp hestablishing hf
  | connectDestroyed j =>
      cases hfi
      exact List.count_eq_zero.mp hdestroying hf
  | handleTimeoutEvents => cases hfi

/-- The entries of its descriptor have been removed. -/
theorem Inv.unreferenced_entry (hinv : Inv s) (hconn : s.objects id = some conn)
    (h : ¬ s.Referenced id) (l : Fin (n + 1)) :
    (s.io l).epoll.channels conn.tcp.channel.fd = none := by
  by_contra hchannels
  obtain ⟨i, ci, hci, rfl, hfd⟩ := hinv.entries l _ (Or.inl hchannels)
  obtain rfl : i = id := hinv.distinct _ _ _ _ hci hconn (Or.inl hfd)
  rw [hconn] at hci
  cases hci
  have hstage := (hinv.lawful i conn hconn).stage
  exact hchannels (hstage.entry (Or.inr (hinv.unreferenced hconn h).1)).1

theorem free_object (s : TcpServer n) (id fd : ℕ) : (s.free id fd).objects id = none :=
  Function.update_self _ _ _

theorem free_object_other (s : TcpServer n) {id : ℕ} (fd : ℕ) {i : ℕ} (hi : i ≠ id) :
    (s.free id fd).objects i = s.objects i := Function.update_of_ne hi _ _

/-- The connections that are left. -/
theorem object_of_free {fd i : ℕ} {ci : Connection n} (hci : (s.free id fd).objects i = some ci) :
    i ≠ id ∧ s.objects i = some ci := by
  by_cases hi : i = id
  · subst hi
    rw [free_object] at hci
    cases hci
  · rw [free_object_other s fd hi] at hci
    exact ⟨hi, hci⟩

theorem free_sameElsewhere (s : TcpServer n) (id fd : ℕ) (l : Fin (n + 1)) :
    SameElsewhere fd (s.io l).epoll ((s.free id fd).io l).epoll := fun _ hfd =>
  ⟨rfl, Function.update_of_ne hfd _ _⟩

/-- **The destructor** of a connection that nothing refers to leaves nothing of it. -/
theorem inv_free (hinv : Inv s) (hconn : s.objects id = some conn) (h : ¬ s.Referenced id) :
    Inv (s.free id conn.tcp.channel.fd) := by
  obtain ⟨hdestroyed, -, -, hremoving, hlisted⟩ := hinv.unreferenced hconn h
  have hkeeps : ∀ {i : ℕ}, i ≠ id → (s.free id conn.tcp.channel.fd).objects i = s.objects i :=
    fun hi => free_object_other s _ hi
  have hsame := free_sameElsewhere s id conn.tcp.channel.fd
  refine {
    mainBatch := hinv.mainBatch
    ioBatch := hinv.ioBatch
    lawful := ?lawful
    named := fun i ci hci => hinv.named i ci (object_of_free hci).2
    listed := ?listed
    distinct := fun i j ci cj hci hcj =>
      hinv.distinct i j ci cj (object_of_free hci).2 (object_of_free hcj).2
    unborn := ?unborn
    gone := ?gone
    owned := ?owned
    removable := ?removable
    order := hinv.order
    handling := ?handling
    handled := hinv.handled
    entries := ?entries }
  case lawful =>
    intro i ci hci
    obtain ⟨hi, hci⟩ := object_of_free hci
    exact (hinv.lawful i ci hci).elsewhere (hsame ci.loop) (hinv.fd_ne hci hconn hi)
  case listed =>
    intro entry hentry
    obtain ⟨hname, hexists⟩ := hinv.listed entry hentry
    refine ⟨hname, ?_⟩
    rwa [hkeeps fun heq => hlisted (List.mem_map.mpr ⟨entry, hentry, heq⟩)]
  case unborn =>
    intro i hi
    obtain ⟨hobject, hcalls⟩ := hinv.unborn i hi
    refine ⟨?_, hcalls⟩
    rwa [hkeeps]
    rintro rfl
    rw [hconn] at hobject
    cases hobject
  case gone =>
    intro i hi
    by_cases hne : i = id
    · subst hne
      have hcounts := (hinv.lawful i conn hconn).stage.counts
      exact ⟨hcounts.1, hcounts.2.trans hcounts.1⟩
    · rw [hkeeps hne] at hi
      exact hinv.gone i hi
  case owned =>
    intro l f hf i hfi
    obtain ⟨ci, hci, hloop⟩ := hinv.owned l f hf i hfi
    have hne : i ≠ id := by
      rintro rfl
      exact hinv.unreferenced_queue hconn h hf hfi
    exact ⟨ci, (hkeeps hne).trans hci, hloop⟩
  case removable =>
    intro i hi
    have hne : i ≠ id := by
      rintro rfl
      exact List.count_eq_zero.mp hremoving hi
    rw [hkeeps hne]
    exact hinv.removable i hi
  case handling =>
    intro l i hd hl
    obtain ⟨hpc, ⟨ci, hci, hloop, hserves⟩, hzero⟩ := hinv.handling l i hd hl
    have hne : i ≠ id := by
      rintro rfl
      rw [show s.calls.count _ = 1 from hdestroyed] at hzero
      cases hzero
    exact ⟨hpc, ⟨ci, (hkeeps hne).trans hci, hloop,
      hserves.elsewhere (hsame ci.loop) (hinv.fd_ne hci hconn hne)⟩, hzero⟩
  case entries =>
    intro l fd hentry
    have hfd : fd ≠ conn.tcp.channel.fd := by
      rintro rfl
      rcases hentry with hchannels | hkernel
      · exact hchannels (hinv.unreferenced_entry hconn h l)
      · exact hkernel (Function.update_self _ _ _)
    obtain ⟨hchannels, hkernel⟩ := hsame l fd hfd
    rw [hchannels, hkernel] at hentry
    obtain ⟨i, ci, hci, hloop, hci'⟩ := hinv.entries l fd hentry
    have hne : i ≠ id := by
      rintro rfl
      rw [hconn] at hci
      cases hci
      exact hfd hci'.symm
    exact ⟨i, ci, (hkeeps hne).trans hci, hloop, hci'⟩

end TcpServer

end WServer
