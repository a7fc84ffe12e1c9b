import WServer.EpollMirror

/-!
# Removing channels while events are handled

`EventLoop::loop` calls the handlers of the active channels one after the other, and
`EventLoop::removeChannel` is to refuse the removal of a channel whose turn may still come.  Its test
joins two conditions by "or": that the channel is not the current one, and that it is an active one.

A handler is given by the calls it makes on channels of the loop; a removal is a `disableAll` followed by
`Channel::remove`.

* `dispatch` — one pass over the active channels;
* `removeChannel_aborts` — no removal passes the test: the current channel is an active one;
* `dispatch_aborts` — a pass ends at its first removal;
* `removals_checked_iff` — when the passes end as they should.
-/

namespace WServer

open Library.Runs

variable {ι : Type*} [DecidableEq ι]

/-- What a handler does to a channel. -/
inductive HandlerCall (ι : Type*) where
  | interest (ch : ι) (call : InterestCall)
  | remove (ch : ι)

/-- A channel that has an event, with the calls that its handlers make. -/
abbrev ActiveChannel (ι : Type*) := ι × List (HandlerCall ι)

/-- What `EventLoop::removeChannel` reads, and the channels of the loop. -/
structure DispatchLoop (ι : Type*) where
  registry : Registry ι
  activeChannels : List ι
  currentActiveChannel : Option ι
  eventHandling : Bool

/-- The `LOG_FATAL` of `Epoll`, or that of `EventLoop::removeChannel`: the channel it was called for, and
the current one. -/
inductive DispatchFault (ι : Type*) where
  | stop (stop : Stop)
  | removeChannel (current : Option ι) (channel : ι)

namespace DispatchLoop

/-- A call that reaches `Epoll`. -/
def onRegistry (e : ι × ChannelCall) (s : DispatchLoop ι) :
    Except (DispatchFault ι) (DispatchLoop ι) :=
  match registryStep s.registry e with
  | .ok registry => .ok { s with registry := registry }
  | .error stop => .error (.stop stop)

/-- `Channel::remove`, with `EventLoop::removeChannel`, in the thread of the loop. -/
def removeChannel (channel : ι) (s : DispatchLoop ι) : Except (DispatchFault ι) (DispatchLoop ι) :=
  if s.eventHandling = true ∧
      (s.currentActiveChannel ≠ some channel ∨ channel ∈ s.activeChannels) then
    .error (.removeChannel s.currentActiveChannel channel)
  else s.onRegistry (channel, .remove)

end DispatchLoop

open DispatchLoop in
/-- One call of a handler. -/
def handlerStep (s : DispatchLoop ι) : HandlerCall ι → Except (DispatchFault ι) (DispatchLoop ι)
  | .interest ch call => s.onRegistry (ch, call.1)
  | .remove ch =>
      match s.onRegistry (ch, .disableAll) with
      | .ok s => s.removeChannel ch
      | .error fault => .error fault

namespace DispatchLoop

/-- The loop over the active channels. -/
def handleEvents : List (ActiveChannel ι) → DispatchLoop ι →
    Except (DispatchFault ι) (DispatchLoop ι)
  | [], s => .ok { s with currentActiveChannel := none, eventHandling := false }
  | (channel, calls) :: rest, s =>
      match runFrom handlerStep { s with currentActiveChannel := some channel } calls with
      | .ok s => handleEvents rest s
      | .error fault => .error fault

/-- The handling of the events that `poll` has reported. -/
def dispatch (active : List (ActiveChannel ι)) (registry : Registry ι) :
    Except (DispatchFault ι) (DispatchLoop ι) :=
  handleEvents active
    { registry := registry
      activeChannels := active.map Prod.fst
      currentActiveChannel := none
      eventHandling := true }

/-! ### What is asked of a pass -/

/-- The channel is an active one, and not the current one. -/
def OtherActive (active : List (ActiveChannel ι)) (current channel : ι) : Prop :=
  channel ≠ current ∧ channel ∈ active.map Prod.fst

/-- A pass aborts at the removal of another active channel only, and is completed if no handler removes
one. -/
structure RemovalsChecked (registry : Registry ι) (active : List (ActiveChannel ι)) : Prop where
  abort : ∀ current channel, dispatch active registry = .error (.removeChannel current channel) →
    ∃ c, current = some c ∧ OtherActive active c channel
  complete : (∀ handler ∈ active, ∀ channel, .remove channel ∈ handler.2 →
      ¬ OtherActive active handler.1 channel) → ∃ s, dispatch active registry = .ok s

/-- The first channel that handlers remove. -/
def firstRemoved : List (HandlerCall ι) → Option ι
  | [] => none
  | .interest _ _ :: calls => firstRemoved calls
  | .remove channel :: _ => some channel

/-- The first channel removed in a pass, and the channel whose handler removes it. -/
def firstRemoval : List (ActiveChannel ι) → Option (ι × ι)
  | [] => none
  | (current, calls) :: rest =>
      match firstRemoved calls with
      | some channel => some (current, channel)
      | none => firstRemoval rest

/-! ### One handler -/

variable {cs : ChannelSet ι} {s : DispatchLoop ι}

/-- **No removal** passes the test while events are handled. -/
theorem removeChannel_aborts (hhandling : s.eventHandling = true)
    (hcurrent : ∀ c, s.currentActiveChannel = some c → c ∈ s.activeChannels) (channel : ι) :
    s.removeChannel channel = .error (.removeChannel s.currentActiveChannel channel) := by
  refine if_pos ⟨hhandling, ?_⟩
  by_cases h : s.currentActiveChannel = some channel
  · exact Or.inr (hcurrent channel h)
  · exact Or.inl h

/-- A change of interest succeeds, and leaves the rest of the loop alone. -/
theorem onRegistry_interest (h : Kept cs s.registry) (ch : ι) (call : InterestCall) :
    ∃ registry, s.onRegistry (ch, call.1) = .ok { s with registry := registry } ∧ Kept cs registry := by
  obtain ⟨-, registry, hstep, hkept⟩ := h.step (ch, call.1) fun hremove => absurd hremove call.2
  refine ⟨registry, ?_, hkept⟩
  rw [onRegistry, hstep]

/-- **A handler** comes to its end if it removes no channel, and aborts at the first one it removes. -/
theorem handler_run (calls : List (HandlerCall ι)) (h : Kept cs s.registry)
    (hhandling : s.eventHandling = true)
    (hcurrent : ∀ c, s.currentActiveChannel = some c → c ∈ s.activeChannels) :
    match firstRemoved calls with
    | none => ∃ registry, runFrom handlerStep s calls = .ok { s with registry := registry } ∧
        Kept cs registry
    | some channel =>
        runFrom handlerStep s calls = .error (.removeChannel s.currentActiveChannel channel) := by
  induction calls generalizing s with
  | nil => exact ⟨s.registry, rfl, h⟩
  | cons call calls ih =>
      cases call with
      | interest ch call =>
          obtain ⟨registry, hok, hkept⟩ := onRegistry_interest h ch call
          have hstep : handlerStep s (.interest ch call) = .ok { s with registry := registry } := hok
          rw [runFrom_cons_ok calls hstep]
          exact @ih { s with registry := registry } hkept hhandling hcurrent
      | remove ch =>
          obtain ⟨registry, hok, -⟩ := onRegistry_interest h ch ⟨.disableAll, by decide⟩
          refine runFrom_cons_error calls ?_
          rw [handlerStep]
          simp only [hok]
          exact removeChannel_aborts (s := { s with registry := registry }) hhandling hcurrent ch

/-! ### A pass -/

/-- **A pass** is completed if no handler removes a channel, and aborts at the first one removed. -/
theorem handleEvents_run (active : List (ActiveChannel ι)) (h : Kept cs s.registry)
    (hhandling : s.eventHandling = true)
    (hactive : ∀ handler ∈ active, handler.1 ∈ s.activeChannels) :
    match firstRemoval active with
    | none => ∃ t, handleEvents active s = .ok t
    | some (current, channel) =>
        handleEvents active s = .error (.removeChannel (some current) channel) := by
  induction active generalizing s with
  | nil => exact ⟨_, rfl⟩
  | cons handler rest ih =>
      obtain ⟨current, calls⟩ := handler
      obtain ⟨hfirst, hrest⟩ := List.forall_mem_cons.mp hactive
      have hrun := @handler_run _ _ cs { s with currentActiveChannel := some current } calls h hhandling
        fun c hc => by
          rw [← Option.some.inj hc]
          exact hfirst
      rw [firstRemoval, handleEvents]
      cases hremoved : firstRemoved calls with
      | some channel =>
          rw [hremoved] at hrun
          simp only at hrun ⊢
          rw [hrun]
      | none =>
          rw [hremoved] at hrun
          obtain ⟨registry, hok, hkept⟩ := hrun
          simp only [hok]
          exact @ih { s with registry := registry, currentActiveChannel := some current } hkept hhandling hrest

theorem dispatch_run {registry : Registry ι} (h : Kept cs registry) (active : List (ActiveChannel ι)) :
    match firstRemoval active with
    | none => ∃ t, dispatch active registry = .ok t
    | some (current, channel) =>
        dispatch active registry = .error (.removeChannel (some current) channel) :=
  handleEvents_run active h rfl fun _ hhandler => List.mem_map_of_mem hhandler

omit [DecidableEq ι] in
/-- The channel removed first is removed by the handler of an active channel. -/
theorem firstRemoval_mem {active : List (ActiveChannel ι)} {current channel : ι}
    (h : firstRemoval active = some (current, channel)) :
    ∃ calls, (current, calls) ∈ active ∧ .remove channel ∈ calls := by
  have hcalls : ∀ calls : List (HandlerCall ι), firstRemoved calls = some channel →
      .remove channel ∈ calls := by
    intro calls
    induction calls with
    | nil => exact fun hnone => by cases hnone
    | cons call calls ih =>
        cases call with
        | interest ch call => exact fun hsome => List.mem_cons_of_mem _ (ih hsome)
        | remove ch =>
            intro hsome
            rw [Option.some.inj hsome]
            exact List.mem_cons_self
  induction active with
  | nil => cases h
  | cons handler rest ih =>
      obtain ⟨c, calls⟩ := handler
      rw [firstRemoval] at h
      cases hremoved : firstRemoved calls with
      | some ch =>
          rw [hremoved] at h
          cases h
          exact ⟨calls, List.mem_cons_self, hcalls calls hremoved⟩
      | none =>
          rw [hremoved] at h
          obtain ⟨calls', hmem, hremove⟩ := ih h
          exact ⟨calls', List.mem_cons_of_mem _ hmem, hremove⟩

/-- **Removals during a pass.**  For every list of active channels and all handlers: the pass ends as it
should exactly if no channel is removed in it, or the first one that is removed is another active
channel. -/
theorem removals_checked_iff (cs : ChannelSet ι) (es : List (ι × ChannelCall)) (registry : Registry ι)
    (hes : Along registryStep RemovesUnwatched cs.registry es)
    (hrun : runFrom registryStep cs.registry es = .ok registry) (active : List (ActiveChannel ι)) :
    RemovalsChecked registry active ↔
      ∀ current channel, firstRemoval active = some (current, channel) →
        OtherActive active current channel := by
  have hkept : Kept cs registry :=
    run_invariant kept_step es (kept_registry cs) hes registry (reachedBy_end hrun)
  have hpass := dispatch_run hkept active
  cases hfirst : firstRemoval active with
  | none =>
      rw [hfirst] at hpass
      obtain ⟨t, ht⟩ := hpass
      refine iff_of_true ⟨fun current channel habort => ?_, fun _ => ⟨t, ht⟩⟩ fun _ _ h => by cases h
      rw [ht] at habort
      cases habort
  | some removal =>
      obtain ⟨current, channel⟩ := removal
      rw [hfirst] at hpass
      simp only at hpass
      constructor
      · rintro hchecked _ _ ⟨⟩
        obtain ⟨c, hc, hother⟩ := hchecked.abort _ _ hpass
        cases hc
        exact hother
      · intro hother
        refine ⟨fun current' channel' habort => ?_, fun hnone => ?_⟩
        · rw [hpass] at habort
          cases habort
          exact ⟨current, rfl, hother _ _ rfl⟩
        · obtain ⟨calls, hmem, hremove⟩ := firstRemoval_mem hfirst
          exact absurd (hother _ _ rfl) (hnone _ hmem _ hremove)

/-- A channel that reads, in a pass that removes nothing. -/
theorem removals_checked_iff_quiet :
    ∃ registry, runFrom registryStep oneChannel.registry [((), .enableReading)] = .ok registry ∧
      RemovalsChecked registry [((), [])] := by
  obtain ⟨registry, hstep, -⟩ : ∃ registry,
      registryStep oneChannel.registry ((), .enableReading) = .ok registry ∧ Kept oneChannel registry :=
    ((kept_registry oneChannel).step ((), .enableReading) fun h => by cases h).2
  have hrun : runFrom registryStep oneChannel.registry [((), .enableReading)] = .ok registry := by
    rw [runFrom_cons_ok [] hstep, runFrom_nil]
  have hunwatched : Along registryStep RemovesUnwatched oneChannel.registry [((), .enableReading)] :=
    ⟨fun h => absurd h (by decide), fun _ _ => trivial⟩
  refine ⟨registry, hrun, ?_⟩
  refine (removals_checked_iff oneChannel _ registry hunwatched hrun [((), [])]).mpr fun _ _ h => ?_
  cases h

/-- A handler removes its own channel: the pass aborts. -/
theorem own_removal_aborts :
    ∃ registry, runFrom registryStep oneChannel.registry [((), .enableReading)] = .ok registry ∧
      ¬ RemovalsChecked registry [((), [.remove ()])] := by
  obtain ⟨registry, hstep, hkept⟩ :=
    ((kept_registry oneChannel).step ((), .enableReading) fun h => by cases h).2
  refine ⟨registry, by rw [runFrom_cons_ok [] hstep, runFrom_nil], fun hchecked => ?_⟩
  obtain ⟨c, -, hother⟩ := hchecked.abort _ _ (dispatch_run hkept [((), [.remove ()])])
  exact hother.1 rfl

end DispatchLoop

end WServer
