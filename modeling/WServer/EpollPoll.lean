import Mathlib.Algebra.Group.Nat.Defs
import Mathlib.Data.Fintype.Card
import WServer.EpollMirror
import WServer.Library.RoundRobin

/-!
# Polling

`EventLoop::loop` clears its active channels and calls `Epoll::poll`, which asks the kernel with `epoll_wait`
for at most `m_events.size()` of the descriptors that are ready, and doubles `m_events` when it got as many.

The kernel keeps the watched descriptors that have become ready in a list.  `epoll_wait` takes them from its
front, skips those without an event of interest by now, and puts the level-triggered ones back at its end;
`EPOLL_CTL_DEL` takes a descriptor out.  The events come with the pointer that `epoll_ctl` was given, which
`fillActiveChannels` casts to a channel; `channelAt` tells which channel stands at an address.

* `pollStep` — one call on a channel, one descriptor that becomes ready, one `poll`;
* `Polled` — the invariant of a loop that removes only channels that `disableAll` has taken out;
* `poll_reports` — then every pointer is that of a channel of the loop, in `m_channels` under its descriptor;
* `poll_events_bounded` — `m_events` has `16 * 2 ^ k` places, and at most twice as many as were ever ready;
* `poll_served` — every ready channel is reported in its turn.
-/

namespace WServer

open Library.Runs Library.Rounds

variable {ι : Type*} [DecidableEq ι]

/-- Channels with distinct descriptors, and what stands at an address. -/
structure ChannelHeap (ι : Type*) extends ChannelSet ι where
  channelAt : ℕ → Option ι
  channelAt_self : ∀ i, channelAt (self i) = some i

/-- An `EventLoop` with its `Epoll`: the channels, the ready list of the kernel, `m_events.size()` and
`m_active_channels`. -/
structure PollLoop (ι : Type*) where
  registry : Registry ι
  ready : List ℕ
  events : ℕ
  activeChannels : List ι

/-- A call of a method of a channel, a descriptor that becomes ready, a `poll` with the events that the
descriptors have by now, and one whose `epoll_wait` fails. -/
inductive PollEvent (ι : Type*) where
  | call (e : ι × ChannelCall)
  | ready (fd : ℕ)
  | poll (now : ℕ → Events)
  | interrupted

/-- A `LOG_FATAL`, or a cast of a pointer at which no channel stands. -/
inductive PollFault where
  | stop (stop : Stop)
  | noChannel
  deriving DecidableEq

def kInitEventListSize : ℕ := 16

/-! ### The kernel -/

/-- What `epoll_wait` hands out for a descriptor: the kernel adds `EPOLLERR` and `EPOLLHUP` to every
interest. -/
def report (now : ℕ → Events) (kernel : Interest) (fd : ℕ) : Option (ℕ × Events) :=
  match kernel fd with
  | none => none
  | some (ptr, events) =>
      let revents := now fd &&& (events ||| EPOLLERR ||| EPOLLHUP)
      if revents = 0 then none else some (ptr, revents)

def reports (now : ℕ → Events) (kernel : Interest) (fd : ℕ) : Bool := (report now kernel fd).isSome

/-- A descriptor that goes back to the ready list. -/
def levelTriggered (kernel : Interest) (fd : ℕ) : Bool :=
  match kernel fd with
  | none => false
  | some (_, events) => decide (¬ events.has EPOLLET)

/-- The events of one `epoll_wait`. -/
def epollWait (now : ℕ → Events) (kernel : Interest) (maxevents : ℕ) (ready : List ℕ) :
    List (ℕ × Events) :=
  (served (reports now kernel) maxevents ready).filterMap (report now kernel)

/-- The ready list behind it. -/
def waited (now : ℕ → Events) (kernel : Interest) (maxevents : ℕ) (ready : List ℕ) : List ℕ :=
  left (reports now kernel) maxevents ready ++
    (served (reports now kernel) maxevents ready).filter (levelTriggered kernel)

/-! ### The loop -/

namespace PollLoop

variable (heap : ChannelHeap ι)

/-- The constructors. -/
def init (heap : ChannelHeap ι) : PollLoop ι where
  registry := heap.registry
  ready := []
  events := kInitEventListSize
  activeChannels := []

/-- The loop of `fillActiveChannels`; its checks only write log lines. -/
def fillActiveChannels : List (ℕ × Events) → PollLoop ι → Except PollFault (PollLoop ι)
  | [], s => .ok s
  | (ptr, revents) :: events, s =>
      match heap.channelAt ptr with
      | none => .error .noChannel
      | some i =>
          let channel := Function.update s.registry.channel i ((s.registry.channel i).setRevents revents)
          fillActiveChannels events
            { s with
              registry := { s.registry with channel := channel }
              activeChannels := s.activeChannels ++ [i] }

/-- `poll`, when `epoll_wait` has not failed. -/
def poll (now : ℕ → Events) (s : PollLoop ι) : Except PollFault (PollLoop ι) :=
  let events := epollWait now s.registry.epoll.kernel s.events s.ready
  let s := { s with ready := waited now s.registry.epoll.kernel s.events s.ready }
  if 0 < events.length then
    match fillActiveChannels heap events s with
    | .error fault => .error fault
    | .ok s => .ok (if events.length = s.events then { s with events := s.events * 2 } else s)
  else .ok s

/-- A call on a channel; a descriptor that the kernel does not watch any more leaves the ready list. -/
def call (e : ι × ChannelCall) (s : PollLoop ι) : Except PollFault (PollLoop ι) :=
  match registryStep s.registry e with
  | .error stop => .error (.stop stop)
  | .ok registry =>
      .ok { s with
        registry := registry
        ready := s.ready.filter fun fd => (registry.epoll.kernel fd).isSome }

/-- A watched descriptor becomes ready. -/
def becomesReady (fd : ℕ) (s : PollLoop ι) : PollLoop ι :=
  if (s.registry.epoll.kernel fd).isSome ∧ fd ∉ s.ready then { s with ready := s.ready ++ [fd] } else s

/-- `m_active_channels.clear()`. -/
def clear (s : PollLoop ι) : PollLoop ι := { s with activeChannels := [] }

end PollLoop

/-- One step of the loop or of the kernel. -/
def pollStep (heap : ChannelHeap ι) (s : PollLoop ι) : PollEvent ι → Except PollFault (PollLoop ι)
  | .call e => s.call e
  | .ready fd => .ok (s.becomesReady fd)
  | .poll now => s.clear.poll heap now
  | .interrupted => .ok s.clear

/-! ### One channel -/

variable {ch ch' : Channel} {ep ep' : Epoll}

/-- A channel that is not new is in the map. -/
def Mapped (ch : Channel) (ep : Epoll) : Prop := ch.index ≠ kNew → ep.channels ch.fd = some ch.self

theorem update_channels {op : EpollOp} (h : ep.update op ch = .ok ep') : ep'.channels = ep.channels := by
  rw [Epoll.update] at h
  split at h
  · cases h
    rfl
  · split at h
    · cases h
      rfl
    · cases h

/-- What `updateChannel` does to the map and to the channel. -/
theorem updateChannel_keeps (h : ep.updateChannel ch = .ok (ch', ep')) :
    ch'.self = ch.self ∧ (Mapped ch ep → Mapped ch' ep') := by
  rw [Epoll.updateChannel] at h
  split at h
  · next hnew =>
      obtain ⟨ep₁, hupdate, hpure⟩ := ok_of_bind h
      cases hpure
      refine ⟨rfl, fun hmapped _ => ?_⟩
      rw [update_channels hupdate]
      show (if ch.index = kNew then _ else ep).channels ch.fd = some ch.self
      split
      · exact Function.update_self _ _ _
      · next hne => exact hmapped hne
  · next hnew =>
      split at h
      · next hadd =>
          have hkept : Mapped ch ep → ep.channels ch.fd = some ch.self := fun hmapped =>
            hmapped fun hne => hnew (Or.inl hne)
          split at h
          · obtain ⟨ep₁, hupdate, hpure⟩ := ok_of_bind h
            cases hpure
            exact ⟨rfl, fun hmapped _ => (congrFun (update_channels hupdate) _).trans (hkept hmapped)⟩
          · obtain ⟨ep₁, hupdate, hpure⟩ := ok_of_bind h
            cases hpure
            exact ⟨rfl, fun hmapped _ => (congrFun (update_channels hupdate) _).trans (hkept hmapped)⟩
      · cases h
        exact ⟨rfl, id⟩

/-- `removeChannel` takes a deleted channel out of the map. -/
theorem removeChannel_keeps (h : ep.removeChannel ch = .ok (ch', ep')) (hdeleted : ch.index = kDeleted)
    (hquiet : ch.events = 0) (hmapped : Mapped ch ep) : ch'.self = ch.self ∧ Mapped ch' ep' := by
  have hnew : ch.index ≠ kNew := by
    rw [hdeleted]
    decide
  rw [Epoll.removeChannel, if_pos ⟨hmapped hnew, hquiet, Or.inr hdeleted⟩] at h
  obtain ⟨ep₁, hupdate, hpure⟩ := ok_of_bind h
  cases hpure
  exact ⟨rfl, fun hne => absurd rfl hne⟩

/-! ### All channels -/

/-- The channels are tracked and stand at their addresses, those that are not new are in the map, and the
kernel watches no other descriptors. -/
structure Listed (heap : ChannelHeap ι) (r : Registry ι) : Prop extends Kept heap.toChannelSet r where
  self : ∀ i, (r.channel i).self = heap.self i
  mapped : ∀ i, Mapped (r.channel i) r.epoll
  owned : ∀ fd, r.epoll.kernel fd ≠ none → ∃ i, heap.fd i = fd

/-- A channel is removed only when its index is `kDeleted`: the `disableAll` of an added channel, which
takes it out of the kernel's list, leaves it so, and the one of a new channel does not. -/
def RemovesDeleted (r : Registry ι) (e : ι × ChannelCall) : Prop :=
  e.2 = .remove → (r.channel e.1).index = kDeleted

variable {heap : ChannelHeap ι} {r r' : Registry ι} {s s' : PollLoop ι}

omit [DecidableEq ι] in
theorem listed_registry (heap : ChannelHeap ι) : Listed heap heap.registry where
  toKept := kept_registry heap.toChannelSet
  self _ := rfl
  mapped _ h := absurd rfl h
  owned _ h := absurd rfl h

theorem Listed.called (h : Listed heap r) {i : ι} (hcall : Called (r.channel i) r.epoll ch ep)
    (hself : ch.self = (r.channel i).self) (hmapped : Mapped ch ep) :
    Listed heap ⟨Function.update r.channel i ch, ep⟩ := by
  refine ⟨h.toKept.called hcall, fun j => ?_, fun j => ?_, fun fd hfd => ?_⟩
  · show (Function.update r.channel i ch j).self = heap.self j
    by_cases hj : j = i
    · rw [hj, Function.update_self, hself, h.self]
    · rw [Function.update_of_ne hj, h.self]
  · show Mapped (Function.update r.channel i ch j) ep
    by_cases hj : j = i
    · rw [hj, Function.update_self]
      exact hmapped
    · rw [Function.update_of_ne hj]
      have hne : (r.channel j).fd ≠ (r.channel i).fd := by
        rw [h.fd, h.fd]
        exact fun hfd => hj (heap.fd_injective hfd)
      intro hnew
      rw [(hcall.elsewhere _ hne).1]
      exact h.mapped j hnew
  · by_cases hown : fd = (r.channel i).fd
    · exact ⟨i, by rw [hown, h.fd]⟩
    · exact h.owned fd (by rwa [← (hcall.elsewhere fd hown).2])

/-- **One call.** -/
theorem Listed.step (h : Listed heap r) {e : ι × ChannelCall} (hgood : RemovesDeleted r e) :
    ∃ r', registryStep r e = .ok r' ∧ Listed heap r' := by
  obtain ⟨i, call⟩ := e
  have htracked := h.tracked i
  rcases call.apply_cases (r.channel i) with ⟨events, -, happly⟩ | rfl
  · obtain ⟨-, ch', ep', hset, hcall⟩ := htracked.setEvents events
    obtain ⟨hself, hkeeps⟩ := updateChannel_keeps hset
    refine ⟨⟨Function.update r.channel i ch', ep'⟩, ?_, h.called hcall hself (hkeeps (h.mapped i))⟩
    simp only [registryStep, happly, hset]
  · have hdeleted := hgood rfl
    have hwatched : (r.channel i).index ≠ kAdded := by
      rw [hdeleted]
      decide
    obtain ⟨-, ch', ep', hremove, hcall, -⟩ := htracked.remove hwatched
    have hmapped : Mapped { r.channel i with index := kDeleted } r.epoll := fun _ =>
      h.mapped i (by rw [hdeleted]; decide)
    have hcalled : r.epoll.removeChannel { r.channel i with index := kDeleted } = .ok (ch', ep') := hremove
    obtain ⟨hself, hmapped'⟩ := removeChannel_keeps hcalled rfl (htracked.quiet hwatched) hmapped
    refine ⟨⟨Function.update r.channel i ch', ep'⟩, ?_, h.called hcall hself hmapped'⟩
    simp only [registryStep, ChannelCall.apply, hremove]

omit [DecidableEq ι] in
/-- Other `revents` change nothing of this. -/
theorem Listed.setRevents (h : Listed heap r) {channel : ι → Channel}
    (hchannel : ∀ i, ∃ revents, channel i = (r.channel i).setRevents revents) :
    Listed heap ⟨channel, r.epoll⟩ := by
  refine ⟨⟨fun i => ?_, fun i => ?_⟩, fun i => ?_, fun i => ?_, h.owned⟩
  · obtain ⟨revents, heq⟩ := hchannel i
    show (channel i).fd = _
    rw [heq]
    exact h.fd i
  · obtain ⟨revents, heq⟩ := hchannel i
    show Tracked (channel i) r.epoll
    rw [heq]
    have htracked := h.tracked i
    exact ⟨⟨htracked.index_cases, htracked.kernel⟩, htracked.quiet, htracked.entry⟩
  · obtain ⟨revents, heq⟩ := hchannel i
    show (channel i).self = _
    rw [heq]
    exact h.self i
  · obtain ⟨revents, heq⟩ := hchannel i
    show Mapped (channel i) r.epoll
    rw [heq]
    exact h.mapped i

omit [DecidableEq ι] in
/-- What the kernel hands out for a descriptor it watches. -/
theorem Listed.reported (h : Listed heap r) {now : ℕ → Events} {fd : ℕ} {e : ℕ × Events}
    (he : report now r.epoll.kernel fd = some e) :
    ∃ i, heap.fd i = fd ∧ e.1 = heap.self i ∧ (r.channel i).index = kAdded ∧
      r.epoll.channels fd = some (heap.self i) ∧
      e.2 = now fd &&& ((r.channel i).events ||| EPOLLERR ||| EPOLLHUP) ∧ e.2 ≠ 0 := by
  rw [WServer.report] at he
  split at he
  · cases he
  · next ptr events hkernel =>
      simp only at he
      split at he
      · cases he
      · next hne =>
          cases he
          obtain ⟨i, rfl⟩ := h.owned fd (by rw [hkernel]; exact nofun)
          have hmirror := (h.tracked i).kernel
          rw [h.fd, hkernel] at hmirror
          split at hmirror
          · next hadd =>
              cases hmirror
              have hmap := h.mapped i (by rw [hadd]; decide)
              rw [h.fd, h.self] at hmap
              exact ⟨i, rfl, h.self i, hadd, hmap, rfl, hne⟩
          · cases hmirror

omit [DecidableEq ι] in
/-- The kernel watches an added channel for the events it asked for. -/
theorem Listed.kernel_added (h : Listed heap r) {i : ι} (hadded : (r.channel i).index = kAdded) :
    r.epoll.kernel (heap.fd i) = some (heap.self i, (r.channel i).events) := by
  have hmirror := (h.tracked i).kernel
  rwa [h.fd, if_pos hadded, h.self] at hmirror

omit [DecidableEq ι] in
/-- It reports an added channel exactly if one of these, an error or a hang-up stands for it. -/
theorem Listed.reports_added (h : Listed heap r) {i : ι} (hadded : (r.channel i).index = kAdded)
    (now : ℕ → Events) : reports now r.epoll.kernel (heap.fd i) = true ↔
      now (heap.fd i) &&& ((r.channel i).events ||| EPOLLERR ||| EPOLLHUP) ≠ 0 := by
  rw [reports, WServer.report, h.kernel_added hadded]
  simp only
  split
  · next hnone => exact iff_of_false Bool.false_ne_true (not_not_intro hnone)
  · next hevent => exact iff_of_true rfl hevent

/-! ### One poll -/

namespace PollLoop

theorem fillActiveChannels_frame {events : List (ℕ × Events)}
    (h : fillActiveChannels heap events s = .ok s') : s'.ready = s.ready ∧ s'.events = s.events := by
  induction events generalizing s with
  | nil =>
      cases h
      exact ⟨rfl, rfl⟩
  | cons e events ih =>
      rw [fillActiveChannels] at h
      split at h
      · cases h
      · have hframe := ih h
        exact hframe

/-- The pointers of channels are cast to these. -/
theorem fillActiveChannels_eq (active : List ι) (revents : ι → Events) (s : PollLoop ι) :
    fillActiveChannels heap (active.map fun i => (heap.self i, revents i)) s = .ok
      { s with
        registry := { s.registry with
          channel := fun i =>
            if i ∈ active then (s.registry.channel i).setRevents (revents i) else s.registry.channel i }
        activeChannels := s.activeChannels ++ active } := by
  induction active generalizing s with
  | nil =>
      show Except.ok s = _
      simp only [List.not_mem_nil, if_false, List.append_nil]
  | cons i active ih =>
      rw [List.map_cons, fillActiveChannels, heap.channelAt_self]
      simp only
      rw [ih]
      simp only [List.append_assoc, List.singleton_append]
      congr 3
      funext j
      by_cases hj : j = i
      · subst hj
        rw [Function.update_self, if_pos List.mem_cons_self]
        split <;> rfl
      · rw [Function.update_of_ne hj]
        simp only [List.mem_cons, hj, false_or]

end PollLoop

/-- The events that a channel is given. -/
def revents (heap : ChannelHeap ι) (r : Registry ι) (now : ℕ → Events) (i : ι) : Events :=
  now (heap.fd i) &&& ((r.channel i).events ||| EPOLLERR ||| EPOLLHUP)

omit [DecidableEq ι] in
/-- Descriptors that report are those of channels, and come with their addresses. -/
theorem Listed.handed (h : Listed heap r) {now : ℕ → Events} {fds : List ℕ}
    (hreports : ∀ fd ∈ fds, reports now r.epoll.kernel fd = true) :
    ∃ active : List ι, active.map heap.fd = fds ∧
      fds.filterMap (report now r.epoll.kernel) =
        active.map fun i => (heap.self i, revents heap r now i) := by
  induction fds with
  | nil => exact ⟨[], rfl, rfl⟩
  | cons fd fds ih =>
      obtain ⟨active, hfds, hevents⟩ := ih fun g hg => hreports g (List.mem_cons_of_mem _ hg)
      obtain ⟨e, he⟩ := Option.isSome_iff_exists.mp (hreports fd List.mem_cons_self)
      obtain ⟨i, rfl, hptr, -, -, hrevents, -⟩ := h.reported he
      refine ⟨i :: active, by rw [List.map_cons, hfds], ?_⟩
      rw [List.filterMap_cons_some he, hevents, List.map_cons]
      congr 1
      exact Prod.ext hptr hrevents

/-- The loop between two steps: its channels are listed, and the ready list holds watched descriptors, each
once. -/
structure Polled (heap : ChannelHeap ι) (s : PollLoop ι) : Prop where
  listed : Listed heap s.registry
  nodup : s.ready.Nodup
  watched : ∀ fd ∈ s.ready, (s.registry.epoll.kernel fd).isSome = true

omit [DecidableEq ι] in
theorem polled_init (heap : ChannelHeap ι) : Polled heap (PollLoop.init heap) where
  listed := listed_registry heap
  nodup := List.nodup_nil
  watched := nofun

theorem served_reports (reports : ℕ → Bool) (n : ℕ) (ready : List ℕ) :
    ∀ fd ∈ served reports n ready, reports fd = true :=
  fun _ hfd => (List.mem_filter.mp hfd).2

theorem mem_of_mem_served {reports : ℕ → Bool} {n fd : ℕ} {ready : List ℕ}
    (h : fd ∈ served reports n ready) : fd ∈ ready :=
  mem_of_mem_looked (List.mem_filter.mp h).1

theorem epollWait_length (now : ℕ → Events) (kernel : Interest) (n : ℕ) (ready : List ℕ) :
    (epollWait now kernel n ready).length = (served (reports now kernel) n ready).length := by
  rw [epollWait, List.length_filterMap_eq_countP, List.countP_eq_length]
  exact served_reports _ _ _

theorem mem_of_mem_waited {now : ℕ → Events} {kernel : Interest} {n fd : ℕ} {ready : List ℕ}
    (h : fd ∈ waited now kernel n ready) : fd ∈ ready := by
  rcases List.mem_append.mp h with hleft | hback
  · exact mem_of_mem_left hleft
  · exact mem_of_mem_served (List.mem_filter.mp hback).1

theorem waited_nodup {now : ℕ → Events} {kernel : Interest} {n : ℕ} {ready : List ℕ} (h : ready.Nodup) :
    (waited now kernel n ready).Nodup := by
  rw [← looked_append_left (reports now kernel) n ready] at h
  obtain ⟨hlooked, hleft, hdisjoint⟩ := List.nodup_append.mp h
  refine List.nodup_append.mpr ⟨hleft, (hlooked.filter _).filter _, fun fd hfd g hg => ?_⟩
  exact (hdisjoint g (List.mem_filter.mp (List.mem_filter.mp hg).1).1 fd hfd).symm

/-- What a `poll` leaves: the active channels are those of the descriptors that the kernel has handed out, in
its order, each with its events. -/
structure Reports (heap : ChannelHeap ι) (now : ℕ → Events) (s s' : PollLoop ι) : Prop where
  active : s'.activeChannels.map heap.fd =
    served (reports now s.registry.epoll.kernel) s.events s.ready
  channel : ∀ i, s'.registry.channel i =
    if i ∈ s'.activeChannels then (s.registry.channel i).setRevents (revents heap s.registry now i)
    else s.registry.channel i
  epoll : s'.registry.epoll = s.registry.epoll
  ready : s'.ready = waited now s.registry.epoll.kernel s.events s.ready

/-- **One poll** casts only pointers of channels. -/
theorem Polled.poll (h : Polled heap s) (now : ℕ → Events) :
    ∃ s', pollStep heap s (.poll now) = .ok s' ∧ Reports heap now s s' := by
  have hreports := served_reports (reports now s.registry.epoll.kernel) s.events s.ready
  obtain ⟨active, hfds, hevents⟩ := h.listed.handed hreports
  rw [pollStep, PollLoop.poll]
  simp only [PollLoop.clear, epollWait, hevents]
  by_cases hnums : 0 < (active.map fun i => (heap.self i, revents heap s.registry now i)).length
  · rw [if_pos hnums, PollLoop.fillActiveChannels_eq]
    refine ⟨_, rfl, ?_⟩
    split <;> exact ⟨hfds, fun _ => rfl, rfl, rfl⟩
  · rw [if_neg hnums]
    have hnone : active = [] := by
      rw [List.length_map] at hnums
      exact List.length_eq_zero_iff.mp (Nat.eq_zero_of_not_pos hnums)
    rw [hnone] at hfds
    exact ⟨_, rfl, hfds, fun _ => rfl, rfl, rfl⟩

/-- A loop that removes only channels whose index is `kDeleted`. -/
def Ordinary (s : PollLoop ι) : PollEvent ι → Prop
  | .call e => RemovesDeleted s.registry e
  | .ready _ | .poll _ | .interrupted => True

/-- **One step.** -/
theorem polled_step (h : Polled heap s) {e : PollEvent ι} (hgood : Ordinary s e) :
    ∃ s', pollStep heap s e = .ok s' ∧ Polled heap s' := by
  cases e with
  | call e =>
      obtain ⟨registry, hstep, hlisted⟩ := h.listed.step hgood
      have hcall : pollStep heap s (.call e) = .ok { s with
          registry := registry
          ready := s.ready.filter fun fd => (registry.epoll.kernel fd).isSome } := by
        rw [pollStep, PollLoop.call, hstep]
      exact ⟨_, hcall, hlisted, h.nodup.filter _, fun fd hfd => (List.mem_filter.mp hfd).2⟩
  | ready fd =>
      refine ⟨_, rfl, ?_⟩
      rw [PollLoop.becomesReady]
      split
      · next hcomes =>
          refine ⟨h.listed, ?_, fun g hg => ?_⟩
          · exact List.nodup_append.mpr ⟨h.nodup, List.pairwise_singleton _ fd, fun a ha b hb => by
              rintro rfl
              exact hcomes.2 (List.mem_singleton.mp hb ▸ ha)⟩
          · rcases List.mem_append.mp hg with hg | hg
            · exact h.watched g hg
            · rw [List.mem_singleton.mp hg]
              exact hcomes.1
      · exact h
  | poll now =>
      obtain ⟨s', hstep, hreports⟩ := h.poll now
      refine ⟨s', hstep, ?_, ?_, ?_⟩
      · have hchannel : ∀ i, ∃ revents,
            s'.registry.channel i = (s.registry.channel i).setRevents revents := by
          intro i
          rw [hreports.channel]
          split
          · exact ⟨_, rfl⟩
          · exact ⟨(s.registry.channel i).revents, rfl⟩
        have hlisted := h.listed.setRevents hchannel
        rw [← hreports.epoll] at hlisted
        exact hlisted
      · rw [hreports.ready]
        exact waited_nodup h.nodup
      · rw [hreports.ready, hreports.epoll]
        exact fun fd hfd => h.watched fd (mem_of_mem_waited hfd)
  | interrupted => exact ⟨_, rfl, h.listed, h.nodup, h.watched⟩

theorem polled_run {es : List (PollEvent ι)} (h : Polled heap s)
    (hgood : Along (pollStep heap) Ordinary s es) :
    ∃ t, runFrom (pollStep heap) s es = .ok t ∧ Polled heap t := by
  induction es generalizing s with
  | nil => exact ⟨s, rfl, h⟩
  | cons e es ih =>
      obtain ⟨s', hstep, hpolled⟩ := polled_step h hgood.1
      obtain ⟨t, hrun, ht⟩ := ih hpolled (hgood.2 s' hstep)
      exact ⟨t, (runFrom_cons_ok es hstep).trans hrun, ht⟩

/-- **What a poll reports**: in a loop that removes channels only after `disableAll`, no call stops the
process and every pointer is that of a channel.  The active channels are those of the first
`m_events.size()` ready descriptors that have events of interest, in the order of the ready list and none
twice; each of them is in `m_channels` under its descriptor, and its `m_revents` are the events it asked
for, errors and hang-ups. -/
theorem poll_reports (heap : ChannelHeap ι) {es : List (PollEvent ι)}
    (hgood : Along (pollStep heap) Ordinary (PollLoop.init heap) es) :
    (∃ t, runFrom (pollStep heap) (PollLoop.init heap) es = .ok t) ∧
      ∀ before now after, es = before ++ .poll now :: after →
        ∃ s s', runFrom (pollStep heap) (PollLoop.init heap) before = .ok s ∧
          pollStep heap s (.poll now) = .ok s' ∧
          s'.activeChannels.map heap.fd = served (reports now s.registry.epoll.kernel) s.events s.ready ∧
          s'.activeChannels.Nodup ∧ s'.activeChannels.length ≤ s.events ∧
          ∀ i ∈ s'.activeChannels, (s.registry.channel i).index = kAdded ∧
            s'.registry.epoll.channels (heap.fd i) = some (heap.self i) ∧
            (s'.registry.channel i).revents =
              now (heap.fd i) &&& ((s.registry.channel i).events ||| EPOLLERR ||| EPOLLHUP) ∧
            (s'.registry.channel i).revents ≠ 0 := by
  constructor
  · obtain ⟨t, hrun, -⟩ := polled_run (polled_init heap) hgood
    exact ⟨t, hrun⟩
  · rintro before now after rfl
    obtain ⟨t, hrun, -⟩ := polled_run (polled_init heap) hgood
    obtain ⟨s, hbefore, -⟩ := runFrom_append_eq_ok hrun
    obtain ⟨s₁, hbefore', hpolled⟩ :=
      polled_run (polled_init heap) (along_append hbefore hgood).1
    obtain rfl : s₁ = s := Except.ok.inj (hbefore'.symm.trans hbefore)
    obtain ⟨s', hstep, hreports⟩ := hpolled.poll now
    refine ⟨s₁, s', hbefore, hstep, hreports.active, ?_, ?_, fun i hi => ?_⟩
    · refine List.Nodup.of_map heap.fd ?_
      rw [hreports.active]
      have hnodup := hpolled.nodup
      rw [← looked_append_left (reports now s₁.registry.epoll.kernel) s₁.events s₁.ready] at hnodup
      exact (List.nodup_append.mp hnodup).1.filter _
    · rw [← List.length_map heap.fd, hreports.active]
      exact served_length_le _ _ _
    · have hserved : heap.fd i ∈ served (reports now s₁.registry.epoll.kernel) s₁.events s₁.ready := by
        rw [← hreports.active]
        exact List.mem_map_of_mem hi
      obtain ⟨e, he⟩ := Option.isSome_iff_exists.mp (served_reports _ _ _ _ hserved)
      obtain ⟨j, hfd, -, hadded, hmap, hrevents, hne⟩ := hpolled.listed.reported he
      obtain rfl := heap.fd_injective hfd
      rw [hreports.epoll, hreports.channel, if_pos hi]
      refine ⟨hadded, hmap, rfl, ?_⟩
      rw [hrevents] at hne
      exact hne

/-- Two channels, with descriptors 3 and 4. -/
def twoChannels : ChannelHeap Bool where
  self i := 100 + i.toNat
  fd i := 3 + i.toNat
  fd_injective := by decide
  channelAt ptr := if ptr = 100 then some false else if ptr = 101 then some true else none
  channelAt_self := by decide

/-- Both become ready. -/
def bothReady : List (PollEvent Bool) :=
  [.call (false, .enableReading), .call (true, .enableReading), .ready 4, .ready 3]

/-- They are polled, when the descriptor 3 has nothing to read any more. -/
def oneLeft : List (PollEvent Bool) :=
  [.interrupted, .poll fun fd => if fd = 4 then EPOLLIN else 0]

theorem ordinary_bothReady :
    Along (pollStep twoChannels) Ordinary (PollLoop.init twoChannels) (bothReady ++ oneLeft) :=
  ⟨by rintro ⟨⟩, fun _ _ => ⟨by rintro ⟨⟩, fun _ _ => ⟨trivial, fun _ _ => ⟨trivial, fun _ _ => ⟨trivial, fun _ _ =>
    ⟨trivial, fun _ _ => trivial⟩⟩⟩⟩⟩⟩

theorem poll_reports_bothReady :
    ∃ s s', runFrom (pollStep twoChannels) (PollLoop.init twoChannels) (bothReady ++ [.interrupted]) = .ok s ∧
      pollStep twoChannels s (.poll fun fd => if fd = 4 then EPOLLIN else 0) = .ok s' ∧
      s'.activeChannels.map twoChannels.fd =
        served (reports (fun fd => if fd = 4 then EPOLLIN else 0) s.registry.epoll.kernel) s.events s.ready ∧
      s'.activeChannels.Nodup ∧ s'.activeChannels.length ≤ s.events := by
  obtain ⟨s, s', hs, hs', hactive, hnodup, hlength, -⟩ :=
    (poll_reports twoChannels ordinary_bothReady).2 (bothReady ++ [.interrupted]) _ [] rfl
  exact ⟨s, s', hs, hs', hactive, hnodup, hlength⟩

/-! ### The turns of the ready descriptors -/

theorem PollLoop.poll_frame {now : ℕ → Events} (h : s.poll heap now = .ok s') :
    s'.ready = waited now s.registry.epoll.kernel s.events s.ready ∧
      s'.events = if (served (reports now s.registry.epoll.kernel) s.events s.ready).length = s.events then
        2 * s.events else s.events := by
  rw [PollLoop.poll] at h
  rw [← epollWait_length]
  by_cases hnums : 0 < (epollWait now s.registry.epoll.kernel s.events s.ready).length
  · rw [if_pos hnums] at h
    split at h
    · cases h
    · next s₁ hfill =>
        obtain ⟨hready, hevents⟩ := fillActiveChannels_frame hfill
        cases h
        simp only at hready hevents
        rw [hevents]
        split
        · exact ⟨hready, Nat.mul_comm _ _⟩
        · exact ⟨hready, hevents⟩
  · rw [if_neg hnums] at h
    cases h
    rw [Nat.eq_zero_of_not_pos hnums]
    refine ⟨rfl, ?_⟩
    split
    · next hevents => rw [← hevents]
    · rfl

theorem poll_frame {now : ℕ → Events} (h : pollStep heap s (.poll now) = .ok s') :
    s'.ready = waited now s.registry.epoll.kernel s.events s.ready ∧
      s'.events = if (served (reports now s.registry.epoll.kernel) s.events s.ready).length = s.events then
        2 * s.events else s.events := by
  have hframe := PollLoop.poll_frame h
  exact hframe

theorem call_frame {e : ι × ChannelCall} (h : pollStep heap s (.call e) = .ok s') :
    s'.ready = s.ready.filter (fun fd => (s'.registry.epoll.kernel fd).isSome) ∧ s'.events = s.events := by
  rw [pollStep, PollLoop.call] at h
  split at h
  · cases h
  · cases h
    exact ⟨rfl, rfl⟩

/-- The ready list is served in rounds of `m_events.size()`. -/
def turns (heap : ChannelHeap ι) : RoundRobin (pollStep heap) ℕ where
  queue := PollLoop.ready
  capacity := PollLoop.events
  isRound
    | .poll _ => true
    | .call _ | .ready _ | .interrupted => false
  reports
    | s, .poll now => reports now s.registry.epoll.kernel
    | _, .call _ | _, .ready _ | _, .interrupted => fun _ => false
  round_queue := by
    intro s e s' hstep hround
    cases e with
    | poll now => exact ⟨_, (poll_frame hstep).1⟩
    | call | ready | interrupted => cases hround
  round_capacity := by
    intro s e s' hstep hround
    cases e with
    | poll now => exact (poll_frame hstep).2
    | call | ready | interrupted => cases hround
  other_queue := by
    intro s e s' hstep hround
    cases e with
    | poll now => cases hround
    | call e => exact ⟨_, [], by rw [(call_frame hstep).1, List.append_nil], nofun⟩
    | ready fd =>
        cases hstep
        rw [PollLoop.becomesReady]
        split
        · next hcomes =>
            refine ⟨fun _ => true, [fd], by rw [List.filter_true], fun g hg => ?_⟩
            rw [List.mem_singleton.mp hg]
            exact hcomes.2
        · exact ⟨fun _ => true, [], by rw [List.filter_true, List.append_nil], nofun⟩
    | interrupted =>
        cases hstep
        exact ⟨fun _ => true, [], by rw [List.filter_true, List.append_nil]; rfl, nofun⟩
  other_capacity := by
    intro s e s' hstep hround
    cases e with
    | poll now => cases hround
    | call e => exact (call_frame hstep).2
    | ready fd =>
        cases hstep
        rw [PollLoop.becomesReady]
        split <;> rfl
    | interrupted =>
        cases hstep
        rfl

omit [DecidableEq ι] in
/-- A watched descriptor is that of an added channel. -/
theorem Listed.watched (h : Listed heap r) {fd : ℕ} (hfd : (r.epoll.kernel fd).isSome = true) :
    ∃ i, heap.fd i = fd ∧ (r.channel i).index = kAdded := by
  obtain ⟨w, hw⟩ := Option.isSome_iff_exists.mp hfd
  obtain ⟨i, rfl⟩ := h.owned fd (by rw [hw]; exact nofun)
  refine ⟨i, rfl, ?_⟩
  by_contra hadded
  have hmirror := (h.tracked i).kernel
  rw [h.fd, hw, if_neg hadded] at hmirror
  cases hmirror

omit [DecidableEq ι] in
/-- The ready descriptors are those of different added channels. -/
theorem Polled.channels (h : Polled heap s) : ∃ channels : List ι, channels.map heap.fd = s.ready ∧
    channels.Nodup ∧ ∀ i ∈ channels, (s.registry.channel i).index = kAdded := by
  have hexists : ∀ fds : List ℕ, (∀ fd ∈ fds, (s.registry.epoll.kernel fd).isSome = true) →
      ∃ channels : List ι, channels.map heap.fd = fds ∧
        ∀ i ∈ channels, (s.registry.channel i).index = kAdded := by
    intro fds hfds
    induction fds with
    | nil => exact ⟨[], rfl, nofun⟩
    | cons fd fds ih =>
        obtain ⟨channels, hmap, hadded⟩ := ih fun g hg => hfds g (List.mem_cons_of_mem _ hg)
        obtain ⟨i, rfl, hi⟩ := h.listed.watched (hfds fd List.mem_cons_self)
        exact ⟨i :: channels, by rw [List.map_cons, hmap], List.forall_mem_cons.mpr ⟨hi, hadded⟩⟩
  obtain ⟨channels, hmap, hadded⟩ := hexists s.ready h.watched
  refine ⟨channels, hmap, List.Nodup.of_map heap.fd ?_, hadded⟩
  rw [hmap]
  exact h.nodup

/-- In every state of such a run the loop is polled. -/
theorem polled_reached {es : List (PollEvent ι)} {t : PollLoop ι} (h : Polled heap s)
    (hgood : Along (pollStep heap) Ordinary s es) (hreached : ReachedBy (pollStep heap) s es t) :
    Polled heap t := by
  refine run_invariant (fun s e s' h hgood hstep => ?_) es h hgood t hreached
  obtain ⟨t, ht, hpolled⟩ := polled_step h hgood
  obtain rfl : t = s' := Except.ok.inj (ht.symm.trans hstep)
  exact hpolled

/-- **The size of `m_events`** is 16 times a power of two, and outgrows the channels that are added at one
time at most twice. -/
theorem poll_events_bounded (heap : ChannelHeap ι) {es : List (PollEvent ι)} {bound : ℕ}
    (hgood : Along (pollStep heap) Ordinary (PollLoop.init heap) es)
    (hbound : ∀ u, ReachedBy (pollStep heap) (PollLoop.init heap) es u → ∀ channels : List ι,
      channels.Nodup → (∀ i ∈ channels, (u.registry.channel i).index = kAdded) →
      channels.length ≤ bound) :
    ∃ t k, runFrom (pollStep heap) (PollLoop.init heap) es = .ok t ∧ t.events = 2 ^ k * kInitEventListSize ∧
      t.events ≤ max kInitEventListSize (2 * bound) := by
  obtain ⟨t, hrun, -⟩ := polled_run (polled_init heap) hgood
  obtain ⟨k, hk⟩ := (turns heap).capacity_eq hrun
  refine ⟨t, k, hrun, hk, (turns heap).capacity_le hrun ?_⟩
  refine along_iff.mpr fun before e after hes u hu => ?_
  have hreached : ReachedBy (pollStep heap) (PollLoop.init heap) es u :=
    ⟨before, hes ▸ List.prefix_append before (e :: after), hu⟩
  obtain ⟨channels, hmap, hnodup, hadded⟩ := (polled_reached (polled_init heap) hgood hreached).channels
  show u.ready.length ≤ bound
  rw [← hmap, List.length_map]
  exact hbound u hreached channels hnodup hadded

theorem poll_events_bounded_bothReady :
    ∃ t k, runFrom (pollStep twoChannels) (PollLoop.init twoChannels) (bothReady ++ oneLeft) = .ok t ∧
      t.events = 2 ^ k * kInitEventListSize ∧ t.events ≤ max kInitEventListSize (2 * 2) :=
  poll_events_bounded twoChannels ordinary_bothReady fun _ _ _ hnodup _ => hnodup.length_le_card

def isPoll : PollEvent ι → Bool
  | .poll _ => true
  | .call _ | .ready _ | .interrupted => false

/-- A step that is no poll leaves a descriptor ready that is still watched after it. -/
theorem ready_step {heap : ChannelHeap ι} {e : PollEvent ι} {fd : ℕ} (hpoll : isPoll e = false)
    (hstep : pollStep heap s e = .ok s') (hwatched : (s'.registry.epoll.kernel fd).isSome = true)
    (hmem : fd ∈ s.ready) : fd ∈ s'.ready := by
  cases e with
  | poll now => cases hpoll
  | call e =>
      rw [(call_frame hstep).1]
      exact List.mem_filter.mpr ⟨hmem, hwatched⟩
  | ready fd' =>
      cases hstep
      show fd ∈ (s.becomesReady fd').ready
      rw [PollLoop.becomesReady]
      split
      · exact List.mem_append_left _ hmem
      · exact hmem
  | interrupted =>
      cases hstep
      exact hmem

/-- **Every ready channel has its turn**: from any state of a run in which its descriptor stands in the ready
list behind fewer than `m_events.size() * (2 ^ k - 1)` others, a channel that stays added is looked at in
one of the next `k` polls, and is active there exactly if it still has an event of interest, however many
others become ready in between. -/
theorem poll_served (heap : ChannelHeap ι) {es es' : List (PollEvent ι)} {s t : PollLoop ι} {i : ι}
    (hgood : Along (pollStep heap) Ordinary (PollLoop.init heap) (es ++ es'))
    (hs : runFrom (pollStep heap) (PollLoop.init heap) es = .ok s)
    (ht : runFrom (pollStep heap) s es' = .ok t) (hready : heap.fd i ∈ s.ready)
    (hadded : ∀ u, ReachedBy (pollStep heap) s es' u → (u.registry.channel i).index = kAdded)
    (hroom : s.ready.idxOf (heap.fd i) < s.events * (2 ^ es'.countP isPoll - 1)) :
    ∃ before now after u u', es' = before ++ .poll now :: after ∧
      runFrom (pollStep heap) s before = .ok u ∧ pollStep heap u (.poll now) = .ok u' ∧
      heap.fd i ∈ looked (reports now u.registry.epoll.kernel) u.events u.ready ∧
      (i ∈ u'.activeChannels ↔
        now (heap.fd i) &&& ((u.registry.channel i).events ||| EPOLLERR ||| EPOLLHUP) ≠ 0) := by
  obtain ⟨hgood₁, hgood₂⟩ := along_append hs hgood
  have hpolled := polled_reached (polled_init heap) hgood₁ (reachedBy_end hs)
  have hstays : Along (pollStep heap) ((turns heap).Stays (heap.fd i)) s es' := by
    refine along_iff.mpr fun before e after hes u hu hround u' hu' hmem => ?_
    have hreached : ReachedBy (pollStep heap) s es' u' := by
      refine ⟨before ++ [e], ⟨after, by rw [hes, List.append_assoc]; rfl⟩, ?_⟩
      rw [runFrom_append [e] hu, runFrom_cons_ok [] hu']
      rfl
    have hwatched : (u'.registry.epoll.kernel (heap.fd i)).isSome = true := by
      rw [(polled_reached hpolled hgood₂ hreached).listed.kernel_added (hadded u' hreached)]
      rfl
    refine ready_step ?_ hu' hwatched hmem
    cases e <;> exact hround
  have hcount : es'.countP isPoll = es'.countP (turns heap).isRound := by
    refine List.countP_congr fun e _ => ?_
    cases e <;> exact Iff.rfl
  rw [hcount] at hroom
  obtain ⟨before, e, after, u, hes, hu, hround, hlooked⟩ :=
    (turns heap).looked_within hready ht hstays hroom
  have hreached : ReachedBy (pollStep heap) s es' u :=
    ⟨before, hes ▸ List.prefix_append before (e :: after), hu⟩
  cases e with
  | call | ready | interrupted => cases hround
  | poll now =>
      have hnext := polled_reached hpolled hgood₂ hreached
      obtain ⟨u', hu', hreports⟩ := hnext.poll now
      refine ⟨before, now, after, u, u', hes, hu, hu', hlooked, ?_⟩
      have hactive : i ∈ u'.activeChannels ↔ heap.fd i ∈ u'.activeChannels.map heap.fd :=
        (List.mem_map_of_injective heap.fd_injective).symm
      rw [hactive, hreports.active, ← hnext.listed.reports_added (hadded u hreached) now]
      exact List.mem_filter.trans (and_iff_right hlooked)

theorem poll_served_bothReady : ∃ s t, runFrom (pollStep twoChannels) (PollLoop.init twoChannels) bothReady =
      .ok s ∧ runFrom (pollStep twoChannels) s oneLeft = .ok t ∧
    ∃ before now after u u', oneLeft = before ++ .poll now :: after ∧
      runFrom (pollStep twoChannels) s before = .ok u ∧ pollStep twoChannels u (.poll now) = .ok u' ∧
      twoChannels.fd true ∈ looked (reports now u.registry.epoll.kernel) u.events u.ready ∧
      (true ∈ u'.activeChannels ↔
        now (twoChannels.fd true) &&& ((u.registry.channel true).events ||| EPOLLERR ||| EPOLLHUP) ≠ 0) := by
  refine ⟨_, _, rfl, rfl, poll_served twoChannels ordinary_bothReady rfl rfl ?_ ?_ ?_⟩
  · decide
  · intro u hu
    rcases reachedBy_cons_cases hu with rfl | ⟨s₁, hs₁, hu⟩
    · rfl
    · cases hs₁
      rcases reachedBy_cons_cases hu with rfl | ⟨s₂, hs₂, hu⟩
      · rfl
      · cases hs₂
        obtain ⟨pre, hpre, hrun⟩ := hu
        obtain rfl := List.prefix_nil.mp hpre
        cases hrun
        rfl
  · decide

end WServer
