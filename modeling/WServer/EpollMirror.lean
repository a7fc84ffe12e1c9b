import WServer.Channel
import WServer.Library.Runs

/-!
# The channels of a loop and the kernel

Any number of channels with distinct descriptors, and any order of the calls that change their interest
or remove them.  `registryStep` is one such call, `ChannelCall.ctl` the call of `epoll_ctl` it makes.

* `updateChannel_makes`, `removeChannel_makes` — these are the calls of the source;
* `Tracked` — what holds of a channel between two calls, as long as no watched channel is removed;
* `call_spec` — a call on a tracked channel;
* `remove_watched` — the removal of a channel that the kernel watches leaves it watched: `Channel::remove`
  overwrites the index that would tell `Epoll::removeChannel` to take the descriptor out;
* `mirror_iff` — whole runs.
-/

namespace WServer

open Library.Runs

/-- A call of a method of `Channel` that reaches `Epoll`. -/
inductive ChannelCall where
  | enableReading
  | enableWriting
  | disableReading
  | disableWriting
  | disableAll
  | remove
  deriving DecidableEq

/-- A call that changes the interest of a channel. -/
abbrev InterestCall := {call : ChannelCall // call ≠ .remove}

/-! ### The calls of `epoll_ctl` -/

namespace Epoll

/-- The call of `epoll_ctl` that `updateChannel` makes. -/
def updateCall (ch : Channel) : Option EpollOp :=
  if ch.index = kNew ∨ ch.index = kDeleted then some .EPOLL_CTL_ADD
  else if ch.index = kAdded then
    if ch.isNoneEvent then some .EPOLL_CTL_DEL else some .EPOLL_CTL_MOD
  else none

/-- The call of `epoll_ctl` that `removeChannel` makes. -/
def removeCall (ch : Channel) (ep : Epoll) : Option EpollOp :=
  if ep.channels ch.fd = some ch.self ∧ ch.isNoneEvent ∧ ch.index = kAdded then some .EPOLL_CTL_DEL
  else none

variable (ch : Channel) (ep : Epoll)

/-- `updateChannel` makes its call on the kernel as it is, and makes one exactly if the index is one of
the three. -/
theorem updateChannel_makes :
    (∃ op, updateCall ch = some op ∧ ∃ (ep₀ : Epoll) (ch' : Channel), ep₀.kernel = ep.kernel ∧
        ep.updateChannel ch = (ep₀.update op ch).map fun ep' => (ch', ep')) ∨
      (updateCall ch = none ∧ ep.updateChannel ch = .ok (ch, ep)) := by
  rw [updateCall, updateChannel]
  by_cases hnew : ch.index = kNew ∨ ch.index = kDeleted
  · rw [if_pos hnew, if_pos hnew]
    refine Or.inl ⟨_, rfl, if ch.index = kNew then
      { ep with channels := Function.update ep.channels ch.fd (some ch.self) } else ep,
      { ch with index := kAdded }, ?_, ?_⟩
    · split <;> rfl
    · simp only [update, epollCtl]
      split <;> rfl
  · rw [if_neg hnew, if_neg hnew]
    by_cases hadd : ch.index = kAdded
    · rw [if_pos hadd, if_pos hadd]
      left
      by_cases hev : ch.isNoneEvent
      · rw [if_pos hev, if_pos hev]
        exact ⟨_, rfl, ep, { ch with index := kDeleted }, rfl, rfl⟩
      · rw [if_neg hev, if_neg hev]
        exact ⟨_, rfl, ep, ch, rfl, rfl⟩
    · rw [if_neg hadd, if_neg hadd]
      exact Or.inr ⟨rfl, rfl⟩

/-- So does `removeChannel`, or it makes none and leaves the kernel alone. -/
theorem removeChannel_makes :
    (∃ op, removeCall ch ep = some op ∧ ∃ (ep₀ : Epoll) (ch' : Channel), ep₀.kernel = ep.kernel ∧
        ep.removeChannel ch = (ep₀.update op ch).map fun ep' => (ch', ep')) ∨
      (removeCall ch ep = none ∧ ∃ (ep' : Epoll) (ch' : Channel), ep'.kernel = ep.kernel ∧
        ep.removeChannel ch = .ok (ch', ep')) := by
  rw [removeCall, removeChannel]
  by_cases hadd : ch.index = kAdded
  · by_cases hmap : ep.channels ch.fd = some ch.self ∧ ch.isNoneEvent
    · rw [if_pos ⟨hmap.1, hmap.2, hadd⟩, if_pos ⟨hmap.1, hmap.2, Or.inl hadd⟩]
      simp only [if_pos hadd]
      exact Or.inl ⟨_, rfl, { ep with channels := Function.update ep.channels ch.fd none },
        { ch with index := kNew }, rfl, rfl⟩
    · rw [if_neg fun h => hmap ⟨h.1, h.2.1⟩, if_neg fun h => hmap ⟨h.1, h.2.1⟩]
      exact Or.inr ⟨rfl, ep, ch, rfl, rfl⟩
  · rw [if_neg fun h => hadd h.2.2]
    right
    refine ⟨rfl, ?_⟩
    split
    · simp only
      exact ⟨{ ep with channels := Function.update ep.channels ch.fd none }, { ch with index := kNew },
        rfl, rfl⟩
    · exact ⟨ep, ch, rfl, rfl⟩

end Epoll

namespace ChannelCall

/-- The events a call asks for; `remove` asks for none. -/
def interest (ch : Channel) : ChannelCall → Option Events
  | enableReading => some Channel.kReadEvent
  | enableWriting => some Channel.kWriteEvent
  | disableReading => some (ch.events &&& ~~~Channel.kReadEvent)
  | disableWriting => some (ch.events &&& ~~~Channel.kNoneEvent)
  | disableAll => some Channel.kNoneEvent
  | remove => none

def apply (call : ChannelCall) (ch : Channel) (ep : Epoll) : Except Stop (Channel × Epoll) :=
  match call with
  | enableReading => ch.enableReading ep
  | enableWriting => ch.enableWriting ep
  | disableReading => ch.disableReading ep
  | disableWriting => ch.disableWriting ep
  | disableAll => ch.disableAll ep
  | remove => ch.remove ep

/-- The call of `epoll_ctl` it makes, with the channel as it is then. -/
def ctl (call : ChannelCall) (ch : Channel) (ep : Epoll) : Option (EpollOp × Channel) :=
  match call.interest ch with
  | some events =>
      (Epoll.updateCall { ch with events := events }).map fun op => (op, { ch with events := events })
  | none =>
      (Epoll.removeCall { ch with index := kDeleted } ep).map fun op => (op, { ch with index := kDeleted })

/-- The kernel refuses that call. -/
def Fails (call : ChannelCall) (ch : Channel) (ep : Epoll) : Prop :=
  ∃ op ch', call.ctl ch ep = some (op, ch') ∧ epollCtl op ch' ep.kernel = none

/-- A call sets the events of the channel, or removes it. -/
theorem apply_cases (call : ChannelCall) (ch : Channel) :
    (∃ events, call.interest ch = some events ∧ ∀ ep, call.apply ch ep = ch.setEvents events ep) ∨
      call = remove := by
  cases call with
  | remove => exact Or.inr rfl
  | enableReading | enableWriting | disableReading | disableWriting | disableAll =>
      exact Or.inl ⟨_, rfl, fun _ => rfl⟩

end ChannelCall

/-! ### One channel -/

/-- A channel between two calls: mirrored, without events if the kernel does not watch it, and the only
one that may be in the map under its descriptor. -/
structure Tracked (ch : Channel) (ep : Epoll) : Prop extends Mirrored ch ep where
  quiet : ch.index ≠ kAdded → ch.events = 0
  entry : ep.channels ch.fd = none ∨ ep.channels ch.fd = some ch.self

/-- Nothing has changed under other descriptors. -/
def SameElsewhere (fd : ℕ) (ep ep' : Epoll) : Prop :=
  ∀ g, g ≠ fd → ep'.channels g = ep.channels g ∧ ep'.kernel g = ep.kernel g

variable {ch ch' : Channel} {ep ep' : Epoll}

theorem Tracked.elsewhere {fd : ℕ} (h : Tracked ch ep) (hsame : SameElsewhere fd ep ep')
    (hne : ch.fd ≠ fd) : Tracked ch ep' := by
  obtain ⟨hchannels, hkernel⟩ := hsame ch.fd hne
  exact ⟨⟨h.index_cases, by rw [hkernel, h.kernel]⟩, h.quiet, by rw [hchannels]; exact h.entry⟩

/-- What a call leaves of a channel. -/
structure Called (ch : Channel) (ep : Epoll) (ch' : Channel) (ep' : Epoll) : Prop where
  tracked : Tracked ch' ep'
  fd : ch'.fd = ch.fd
  elsewhere : SameElsewhere ch.fd ep ep'

/-- A new entry for the channel in the map and in the kernel's list. -/
theorem sameElsewhere_update (ep : Epoll) (fd : ℕ) (channels : ℕ → Option ℕ) (w : Option (ℕ × Events))
    (hchannels : ∀ g, g ≠ fd → channels g = ep.channels g) :
    SameElsewhere fd ep ⟨channels, Function.update ep.kernel fd w⟩ :=
  fun g hg => ⟨hchannels g hg, Function.update_of_ne hg _ _⟩

/-- **A change of interest** of a tracked channel makes a call that the kernel accepts, and keeps it
tracked. -/
theorem Tracked.setEvents (h : Tracked ch ep) (interest : Events) :
    (∀ op, Epoll.updateCall { ch with events := interest } = some op →
        epollCtl op { ch with events := interest } ep.kernel ≠ none) ∧
      ∃ ch' ep', ch.setEvents interest ep = .ok (ch', ep') ∧ Called ch ep ch' ep' := by
  obtain ⟨⟨hidx, hker⟩, hquiet, hentry⟩ := h
  by_cases hadd : ch.index = kAdded
  · have hnew : ¬ (ch.index = kNew ∨ ch.index = kDeleted) := by rw [hadd]; decide
    rw [if_pos hadd] at hker
    by_cases hev : interest = 0
    · refine ⟨fun op hop => ?_, _, _,
        updateChannel_del { ch with events := interest } hadd hev hker, ⟨⟨?_, ?_⟩, ?_, hentry⟩, rfl, ?_⟩
      · rw [Epoll.updateCall, if_neg hnew, if_pos hadd,
          if_pos (show ({ ch with events := interest } : Channel).isNoneEvent from hev)] at hop
        cases hop
        simp [epollCtl, hker]
      · exact Or.inr (Or.inr rfl)
      · rw [if_neg (show kDeleted ≠ kAdded by decide)]
        exact Function.update_self ch.fd none ep.kernel
      · exact fun _ => hev
      · exact sameElsewhere_update ep ch.fd ep.channels none fun _ _ => rfl
    · refine ⟨fun op hop => ?_, _, _,
        updateChannel_mod { ch with events := interest } hadd hev hker, ⟨⟨?_, ?_⟩, ?_, hentry⟩, rfl, ?_⟩
      · rw [Epoll.updateCall, if_neg hnew, if_pos hadd,
          if_neg (show ¬ ({ ch with events := interest } : Channel).isNoneEvent from hev)] at hop
        cases hop
        simp [epollCtl, hker]
      · exact Or.inr (Or.inl hadd)
      · rw [if_pos hadd]
        exact Function.update_self ch.fd _ ep.kernel
      · exact fun hne => absurd hadd hne
      · exact sameElsewhere_update ep ch.fd ep.channels _ fun _ _ => rfl
  · have hnew : ch.index = kNew ∨ ch.index = kDeleted := by tauto
    rw [if_neg hadd] at hker
    refine ⟨fun op hop => ?_, _, _,
      updateChannel_add_eq { ch with events := interest } hnew hker, ⟨⟨?_, ?_⟩, ?_, ?_⟩, rfl, ?_⟩
    · rw [Epoll.updateCall, if_pos hnew] at hop
      cases hop
      simp [epollCtl, hker]
    · exact Or.inr (Or.inl rfl)
    · rw [if_pos rfl]
      exact Function.update_self ch.fd _ ep.kernel
    · exact fun hne => absurd rfl hne
    · show (if ch.index = kNew then _ else ep.channels) ch.fd = none ∨ _ = some ch.self
      split
      · right
        exact Function.update_self ch.fd _ ep.channels
      · exact hentry
    · refine sameElsewhere_update ep ch.fd _ _ fun g hg => ?_
      show (if ch.index = kNew then _ else ep.channels) g = _
      split
      · exact Function.update_of_ne hg _ _
      · rfl

/-- **The removal** of a tracked channel that the kernel does not watch makes no call, and leaves it
neither in the map nor in the kernel's list. -/
theorem Tracked.remove (h : Tracked ch ep) (hi : ch.index ≠ kAdded) :
    Epoll.removeCall { ch with index := kDeleted } ep = none ∧
      ∃ ch' ep', ch.remove ep = .ok (ch', ep') ∧ Called ch ep ch' ep' ∧
        ep'.channels ch.fd = none ∧ ep'.kernel ch.fd = none := by
  obtain ⟨⟨hidx, hker⟩, hquiet, hentry⟩ := h
  have hev := hquiet hi
  rw [if_neg hi] at hker
  refine ⟨if_neg fun hh => absurd hh.2.2 (show kDeleted ≠ kAdded by decide), ?_⟩
  rw [Channel.remove, Epoll.removeChannel]
  rcases hentry with hnone | hsome
  · rw [if_neg fun hh => by rw [hnone] at hh; cases hh.1]
    refine ⟨_, _, rfl,
      ⟨⟨⟨Or.inr (Or.inr rfl), ?_⟩, fun _ => hev, Or.inl hnone⟩, rfl, fun g _ => ⟨rfl, rfl⟩⟩,
      hnone, hker⟩
    rw [if_neg (show kDeleted ≠ kAdded by decide)]
    exact hker
  · rw [if_pos ⟨hsome, hev, Or.inr rfl⟩]
    have hgone : Function.update ep.channels ch.fd none ch.fd = none := Function.update_self ch.fd _ _
    refine ⟨_, _, rfl, ⟨⟨⟨Or.inl rfl, ?_⟩, fun _ => hev, Or.inl hgone⟩, rfl, ?_⟩, hgone, hker⟩
    · rw [if_neg (show kNew ≠ kAdded by decide)]
      exact hker
    · exact fun g hg => ⟨Function.update_of_ne hg _ _, rfl⟩

/-- **The removal of a watched channel** leaves it in the kernel's list. -/
theorem remove_watched (h : Tracked ch ep) (hi : ch.index = kAdded) {ch' : Channel} {ep' : Epoll}
    (hremove : ch.remove ep = .ok (ch', ep')) : ep'.kernel ch.fd ≠ none := by
  have hker := h.kernel
  rw [if_pos hi] at hker
  rw [Channel.remove, Epoll.removeChannel] at hremove
  split at hremove
  · cases hremove
    exact ne_of_eq_of_ne hker (Option.some_ne_none _)
  · cases hremove
    exact ne_of_eq_of_ne hker (Option.some_ne_none _)

/-! ### Any number of channels -/

section

variable {ι : Type*} [DecidableEq ι]

/-- Channels with distinct descriptors, by their addresses. -/
structure ChannelSet (ι : Type*) where
  self : ι → ℕ
  fd : ι → ℕ
  fd_injective : Function.Injective fd

/-- The channels of a loop, and its `Epoll`. -/
structure Registry (ι : Type*) where
  channel : ι → Channel
  epoll : Epoll

/-- New channels, none of them in use. -/
def ChannelSet.registry (cs : ChannelSet ι) : Registry ι where
  channel i := Channel.init (cs.self i) (cs.fd i)
  epoll := Epoll.init

/-- One call on one of the channels. -/
def registryStep (r : Registry ι) (e : ι × ChannelCall) : Except Stop (Registry ι) :=
  match e.2.apply (r.channel e.1) r.epoll with
  | .ok (ch, ep) => .ok ⟨Function.update r.channel e.1 ch, ep⟩
  | .error f => .error f

/-- The call is accepted by the kernel; after it every channel is mirrored; and a channel it has removed
is neither in the map nor in the kernel's list. -/
structure Mirrors (r : Registry ι) (e : ι × ChannelCall) : Prop where
  accepted : ¬ e.2.Fails (r.channel e.1) r.epoll
  mirrored : ∃ r', registryStep r e = .ok r' ∧ (∀ i, Mirrored (r'.channel i) r'.epoll) ∧
    (e.2 = .remove → r'.epoll.channels (r.channel e.1).fd = none ∧
      r'.epoll.kernel (r.channel e.1).fd = none)

/-- A channel is only removed when the kernel does not watch it. -/
def RemovesUnwatched (r : Registry ι) (e : ι × ChannelCall) : Prop :=
  e.2 = .remove → (r.channel e.1).index ≠ kAdded

/-- All channels are tracked, each under its own descriptor. -/
structure Kept (cs : ChannelSet ι) (r : Registry ι) : Prop where
  fd : ∀ i, (r.channel i).fd = cs.fd i
  tracked : ∀ i, Tracked (r.channel i) r.epoll

variable {cs : ChannelSet ι} {r : Registry ι}

omit [DecidableEq ι] in
theorem kept_registry (cs : ChannelSet ι) : Kept cs cs.registry := by
  refine ⟨fun _ => rfl, fun i => ⟨⟨Or.inl rfl, ?_⟩, fun _ => rfl, Or.inl rfl⟩⟩
  show none = if kNew = kAdded then _ else none
  rw [if_neg (show kNew ≠ kAdded by decide)]

/-- A call on one channel does not disturb the others. -/
theorem Kept.called (h : Kept cs r) {i : ι} {ch : Channel} {ep : Epoll}
    (hcall : Called (r.channel i) r.epoll ch ep) : Kept cs ⟨Function.update r.channel i ch, ep⟩ := by
  constructor
  · intro j
    show (Function.update r.channel i ch j).fd = cs.fd j
    by_cases hj : j = i
    · rw [hj, Function.update_self, hcall.fd, h.fd]
    · rw [Function.update_of_ne hj, h.fd]
  · intro j
    show Tracked (Function.update r.channel i ch j) ep
    by_cases hj : j = i
    · rw [hj, Function.update_self]
      exact hcall.tracked
    · rw [Function.update_of_ne hj]
      refine (h.tracked j).elsewhere hcall.elsewhere fun heq => hj (cs.fd_injective ?_)
      rw [← h.fd, ← h.fd, heq]

/-- **One call** that meets the condition mirrors the kernel, and keeps all channels tracked. -/
theorem Kept.step (h : Kept cs r) (e : ι × ChannelCall) (hgood : RemovesUnwatched r e) :
    Mirrors r e ∧ ∃ r', registryStep r e = .ok r' ∧ Kept cs r' := by
  obtain ⟨i, call⟩ := e
  have htracked := h.tracked i
  rcases call.apply_cases (r.channel i) with ⟨events, hinterest, happly⟩ | rfl
  · obtain ⟨haccept, ch', ep', hset, hcall⟩ := htracked.setEvents events
    have hstep : registryStep r (i, call) = .ok ⟨Function.update r.channel i ch', ep'⟩ := by
      simp only [registryStep, happly, hset]
    have hkept := h.called hcall
    refine ⟨⟨?_, _, hstep, fun j => (hkept.tracked j).toMirrored, ?_⟩, _, hstep, hkept⟩
    · rintro ⟨op, ch, hctl, hfail⟩
      simp only [ChannelCall.ctl, hinterest, Option.map_eq_some_iff, Prod.mk.injEq] at hctl
      obtain ⟨op', hop, rfl, rfl⟩ := hctl
      exact haccept op' hop hfail
    · rintro rfl
      cases hinterest
  · obtain ⟨hnone, ch', ep', hremove, hcall, hchannels, hkernel⟩ := htracked.remove (hgood rfl)
    have hstep : registryStep r (i, .remove) = .ok ⟨Function.update r.channel i ch', ep'⟩ := by
      simp only [registryStep, ChannelCall.apply, hremove]
    have hkept := h.called hcall
    refine ⟨⟨?_, _, hstep, fun j => (hkept.tracked j).toMirrored, fun _ => ⟨hchannels, hkernel⟩⟩, _,
      hstep, hkept⟩
    rintro ⟨op, ch, hctl, -⟩
    simp only [ChannelCall.ctl, ChannelCall.interest, hnone, Option.map_none, reduceCtorEq] at hctl

theorem kept_step (r : Registry ι) (e : ι × ChannelCall) (r' : Registry ι) (h : Kept cs r)
    (hgood : RemovesUnwatched r e) (hstep : registryStep r e = .ok r') : Kept cs r' := by
  obtain ⟨-, t, ht, hkept⟩ := h.step e hgood
  rw [ht] at hstep
  cases hstep
  exact hkept

/-- A call that does not meet the condition does not mirror the kernel. -/
theorem Kept.not_mirrors (h : Kept cs r) (e : ι × ChannelCall) (hbad : ¬ RemovesUnwatched r e) :
    ¬ Mirrors r e := by
  obtain ⟨i, call⟩ := e
  obtain ⟨rfl, hi⟩ : call = .remove ∧ (r.channel i).index = kAdded := by
    simpa [RemovesUnwatched] using hbad
  rintro ⟨-, r', hstep, -, hgone⟩
  simp only [registryStep, ChannelCall.apply] at hstep
  split at hstep
  · rename_i ch' ep' hremove
    cases hstep
    exact remove_watched (h.tracked i) hi hremove (hgone rfl).2
  · cases hstep

/-- **The mirror.**  Every call of a run is accepted by the kernel and leaves the indices in agreement
with it, and every removed channel is gone, exactly if no channel is removed while the kernel watches
it. -/
theorem mirror_iff (cs : ChannelSet ι) (es : List (ι × ChannelCall)) :
    Along registryStep Mirrors cs.registry es ↔ Along registryStep RemovesUnwatched cs.registry es := by
  have hiff : ∀ r e, Kept cs r → (Mirrors r e ↔ RemovesUnwatched r e) := by
    intro r e h
    refine ⟨fun hm => ?_, fun hgood => (h.step e hgood).1⟩
    by_contra hbad
    exact h.not_mirrors e hbad hm
  exact along_congr hiff kept_step es (kept_registry cs)

/-- A single channel, with descriptor 3. -/
def oneChannel : ChannelSet Unit where
  self _ := 7
  fd _ := 3
  fd_injective := Function.injective_of_subsingleton _

/-- Neither the removal of an enabled channel takes it out of the kernel's list, nor that of a new one
after `disableAll`, which `Acceptor::~Acceptor` makes of a channel that was never enabled. -/
theorem watched_channel_removed :
    ¬ Along registryStep Mirrors oneChannel.registry [((), .enableReading), ((), .remove)] ∧
      ¬ Along registryStep Mirrors oneChannel.registry [((), .disableAll), ((), .remove)] := by
  have hwatched : ∀ call : ChannelCall, call ≠ .remove →
      (∀ r', registryStep oneChannel.registry ((), call) = .ok r' → (r'.channel ()).index = kAdded) →
      ¬ Along registryStep Mirrors oneChannel.registry [((), call), ((), .remove)] := by
    intro call hcall hindex h
    obtain ⟨-, r', hr', hkept⟩ := (kept_registry oneChannel).step ((), call) fun hrem =>
      absurd hrem hcall
    exact hkept.not_mirrors ((), .remove) (fun hgood => hgood rfl (hindex r' hr')) (h.2 r' hr').1
  constructor
  · refine hwatched .enableReading nofun fun r' hr' => ?_
    cases hr'
    rfl
  · refine hwatched .disableAll nofun fun r' hr' => ?_
    cases hr'
    rfl

end

end WServer
