import Mathlib.Data.Int.Basic
import Mathlib.Logic.Function.Basic
import Mathlib.Tactic.Common

/-!
# Channels and epoll

A channel is a file descriptor with the events it is interested in; `Epoll` keeps a map from
descriptors to channels and asks the kernel, with `epoll_ctl`, to watch them.  The kernel's interest
list is part of the model: an addition fails if the descriptor is in it, a modification or a removal if
it is not.  A failed addition or modification ends the process.

A channel is named by its address.  The checks of the source that only write a log line are left out.

* `Mirrored` — the index of a channel tells whether the kernel watches its descriptor, and for what;
* `setEvents_spec` — from there a change of interest cannot fail, and keeps this agreement;
* `remove_spec` — so does the removal of a channel the kernel has stopped to watch.
-/

namespace WServer

/-- Why the process stops answering: the `LOG_FATAL` it runs into, or the loop it does not leave. -/
inductive Stop where
  | epollUpdate
  | handleClose
  | parserLoop
  deriving DecidableEq

/-- A set of epoll events, `uint32_t`. -/
abbrev Events := BitVec 32

def EPOLLIN : Events := 0x1
def EPOLLPRI : Events := 0x2
def EPOLLOUT : Events := 0x4
def EPOLLERR : Events := 0x8
def EPOLLHUP : Events := 0x10
def EPOLLRDHUP : Events := 0x2000
def EPOLLET : Events := 0x80000000

/-- `revents & mask` as a condition. -/
def Events.has (revents mask : Events) : Prop := revents &&& mask ≠ 0

instance (revents mask : Events) : Decidable (revents.has mask) :=
  inferInstanceAs (Decidable (_ ≠ _))

/-- Every event of `revents` is one of `allowed`. -/
def Events.Within (revents allowed : Events) : Prop := revents &&& ~~~allowed = 0

instance (revents allowed : Events) : Decidable (revents.Within allowed) :=
  inferInstanceAs (Decidable (_ = _))

/-- Events outside `allowed` do not occur in a set within it. -/
theorem Events.Within.not_has {revents allowed mask : Events} (h : revents.Within allowed)
    (hmask : mask &&& allowed = 0) : ¬ revents.has mask := by
  rw [Events.has, not_not]
  apply BitVec.eq_of_getLsbD_eq
  intro i _
  have h₁ := congrArg (fun v : BitVec 32 => v.getLsbD i) h
  have h₂ := congrArg (fun v : BitVec 32 => v.getLsbD i) hmask
  simp only [BitVec.getLsbD_and, BitVec.getLsbD_not] at h₁ h₂ ⊢
  cases hr : revents.getLsbD i <;> cases hm : mask.getLsbD i <;> cases ha : allowed.getLsbD i <;>
    simp_all

/-- A set that has an event of a mask has one of any wider mask. -/
theorem Events.has_mono {revents mask wider : Events} (h : revents.has mask) (hle : mask.Within wider) :
    revents.has wider := by
  intro hnone
  apply h
  apply BitVec.eq_of_getLsbD_eq
  intro i _
  have h₁ := congrArg (fun v : BitVec 32 => v.getLsbD i) hnone
  have h₂ := congrArg (fun v : BitVec 32 => v.getLsbD i) hle
  simp only [BitVec.getLsbD_and, BitVec.getLsbD_not] at h₁ h₂ ⊢
  cases hr : revents.getLsbD i <;> cases hm : mask.getLsbD i <;> cases ha : wider.getLsbD i <;>
    simp_all

/-! ### Channels -/

def kNew : ℤ := -1
def kAdded : ℤ := 1
def kDeleted : ℤ := 2

/-- Class `Channel`, its handlers apart.  `self` is its address. -/
structure Channel where
  self : ℕ
  fd : ℕ
  events : Events
  revents : Events
  index : ℤ

namespace Channel

def kNoneEvent : Events := 0
def kReadEvent : Events := EPOLLIN ||| EPOLLPRI ||| EPOLLET
def kWriteEvent : Events := EPOLLOUT ||| EPOLLET

/-- The constructor, at an address. -/
def init (self fd : ℕ) : Channel where
  self := self
  fd := fd
  events := 0
  revents := 0
  index := kNew

def isNoneEvent (ch : Channel) : Prop := ch.events = kNoneEvent

instance (ch : Channel) : Decidable ch.isNoneEvent := inferInstanceAs (Decidable (_ = _))

def isWriting (ch : Channel) : Prop := ch.events.has kWriteEvent

def setRevents (revents : Events) (ch : Channel) : Channel := { ch with revents := revents }

end Channel

/-! ### The interest list of the kernel -/

/-- The descriptors the kernel watches: the pointer handed back with an event, and the events. -/
abbrev Interest := ℕ → Option (ℕ × Events)

inductive EpollOp where
  | EPOLL_CTL_ADD
  | EPOLL_CTL_MOD
  | EPOLL_CTL_DEL
  deriving DecidableEq

/-- `epoll_ctl`, or `none` if it fails. -/
def epollCtl (op : EpollOp) (ch : Channel) (kernel : Interest) : Option Interest :=
  match op, kernel ch.fd with
  | .EPOLL_CTL_ADD, none => some (Function.update kernel ch.fd (some (ch.self, ch.events)))
  | .EPOLL_CTL_ADD, some _ => none
  | .EPOLL_CTL_MOD, none => none
  | .EPOLL_CTL_MOD, some _ => some (Function.update kernel ch.fd (some (ch.self, ch.events)))
  | .EPOLL_CTL_DEL, none => none
  | .EPOLL_CTL_DEL, some _ => some (Function.update kernel ch.fd none)

/-- Class `Epoll`: its map from descriptors to channels, and the kernel's interest list. -/
structure Epoll where
  channels : ℕ → Option ℕ
  kernel : Interest

namespace Epoll

def init : Epoll := ⟨fun _ => none, fun _ => none⟩

def update (op : EpollOp) (ch : Channel) (ep : Epoll) : Except Stop Epoll :=
  match epollCtl op ch ep.kernel with
  | some kernel => .ok { ep with kernel := kernel }
  | none => if op = .EPOLL_CTL_DEL then .ok ep else .error .epollUpdate

def updateChannel (ch : Channel) (ep : Epoll) : Except Stop (Channel × Epoll) :=
  if ch.index = kNew ∨ ch.index = kDeleted then do
    let ep := if ch.index = kNew then
        { ep with channels := Function.update ep.channels ch.fd (some ch.self) } else ep
    let ch := { ch with index := kAdded }
    let ep ← ep.update .EPOLL_CTL_ADD ch
    return (ch, ep)
  else if ch.index = kAdded then
    if ch.isNoneEvent then do
      let ep ← ep.update .EPOLL_CTL_DEL ch
      return ({ ch with index := kDeleted }, ep)
    else do
      let ep ← ep.update .EPOLL_CTL_MOD ch
      return (ch, ep)
  else return (ch, ep)

def removeChannel (ch : Channel) (ep : Epoll) : Except Stop (Channel × Epoll) :=
  if ep.channels ch.fd = some ch.self ∧ ch.isNoneEvent ∧
      (ch.index = kAdded ∨ ch.index = kDeleted) then do
    let ep := { ep with channels := Function.update ep.channels ch.fd none }
    let ep ← (if ch.index = kAdded then ep.update .EPOLL_CTL_DEL ch else .ok ep)
    return ({ ch with index := kNew }, ep)
  else return (ch, ep)

end Epoll

namespace Channel

/-- An assignment to `m_events`, then `update()`. -/
def setEvents (events : Events) (ch : Channel) (ep : Epoll) : Except Stop (Channel × Epoll) :=
  ep.updateChannel { ch with events := events }

def enableReading (ch : Channel) (ep : Epoll) : Except Stop (Channel × Epoll) :=
  ch.setEvents kReadEvent ep

def enableWriting (ch : Channel) (ep : Epoll) : Except Stop (Channel × Epoll) :=
  ch.setEvents kWriteEvent ep

def disableReading (ch : Channel) (ep : Epoll) : Except Stop (Channel × Epoll) :=
  ch.setEvents (ch.events &&& ~~~kReadEvent) ep

/-- The source masks with `~kNoneEvent`, which masks nothing out. -/
def disableWriting (ch : Channel) (ep : Epoll) : Except Stop (Channel × Epoll) :=
  ch.setEvents (ch.events &&& ~~~kNoneEvent) ep

def disableAll (ch : Channel) (ep : Epoll) : Except Stop (Channel × Epoll) :=
  ch.setEvents kNoneEvent ep

def remove (ch : Channel) (ep : Epoll) : Except Stop (Channel × Epoll) :=
  ep.removeChannel { ch with index := kDeleted }

end Channel

/-! ### The index mirrors the kernel -/

/-- The kernel watches the descriptor of a channel exactly when its index is `kAdded`, and then for the
events of the channel. -/
structure Mirrored (ch : Channel) (ep : Epoll) : Prop where
  index_cases : ch.index = kNew ∨ ch.index = kAdded ∨ ch.index = kDeleted
  kernel : ep.kernel ch.fd = if ch.index = kAdded then some (ch.self, ch.events) else none

/-- The kernel watches the channel: an event on its descriptor reaches it. -/
def Registered (ch : Channel) (ep : Epoll) : Prop := ep.kernel ch.fd = some (ch.self, ch.events)

variable {ch : Channel} {ep : Epoll}

theorem Mirrored.registered (h : Mirrored ch ep) (hi : ch.index = kAdded) : Registered ch ep := by
  rw [Registered, h.kernel, if_pos hi]

theorem Mirrored.not_registered (h : Mirrored ch ep) (hi : ch.index ≠ kAdded) :
    ¬ Registered ch ep := by
  rw [Registered, h.kernel, if_neg hi]
  exact nofun

/-- What a change of interest leaves: the channel with the new events, mirrored by the kernel. -/
structure Updated (ch : Channel) (interest : Events) (ch' : Channel) (ep' : Epoll) : Prop where
  mirrored : Mirrored ch' ep'
  self : ch'.self = ch.self
  fd : ch'.fd = ch.fd
  events : ch'.events = interest
  revents : ch'.revents = ch.revents
  index : ch'.index = if ch.index = kAdded ∧ interest = 0 then kDeleted else kAdded

theorem update_add (h : ep.kernel ch.fd = none) :
    ep.update .EPOLL_CTL_ADD ch
      = .ok { ep with kernel := Function.update ep.kernel ch.fd (some (ch.self, ch.events)) } := by
  simp only [Epoll.update, epollCtl, h]

theorem update_mod {w : ℕ × Events} (h : ep.kernel ch.fd = some w) :
    ep.update .EPOLL_CTL_MOD ch
      = .ok { ep with kernel := Function.update ep.kernel ch.fd (some (ch.self, ch.events)) } := by
  simp only [Epoll.update, epollCtl, h]

theorem update_del {w : ℕ × Events} (h : ep.kernel ch.fd = some w) :
    ep.update .EPOLL_CTL_DEL ch
      = .ok { ep with kernel := Function.update ep.kernel ch.fd none } := by
  simp only [Epoll.update, epollCtl, h]

/-- A channel the kernel does not watch is added; a new one also gets its entry in the map. -/
theorem updateChannel_add_eq (ch : Channel) (hi : ch.index = kNew ∨ ch.index = kDeleted)
    (h : ep.kernel ch.fd = none) :
    ep.updateChannel ch = .ok ({ ch with index := kAdded },
      ⟨if ch.index = kNew then Function.update ep.channels ch.fd (some ch.self) else ep.channels,
        Function.update ep.kernel ch.fd (some (ch.self, ch.events))⟩) := by
  rw [Epoll.updateChannel, if_pos hi]
  simp only
  by_cases hnew : ch.index = kNew
  · rw [if_pos hnew, if_pos hnew, update_add]
    · rfl
    · exact h
  · rw [if_neg hnew, if_neg hnew, update_add]
    · rfl
    · exact h

theorem updateChannel_add (ch : Channel) (hi : ch.index = kNew ∨ ch.index = kDeleted)
    (h : ep.kernel ch.fd = none) :
    ∃ channels, ep.updateChannel ch = .ok ({ ch with index := kAdded },
      ⟨channels, Function.update ep.kernel ch.fd (some (ch.self, ch.events))⟩) :=
  ⟨_, updateChannel_add_eq ch hi h⟩

/-- A watched channel without events is given up. -/
theorem updateChannel_del (ch : Channel) {w : ℕ × Events} (hi : ch.index = kAdded) (hev : ch.isNoneEvent)
    (h : ep.kernel ch.fd = some w) :
    ep.updateChannel ch = .ok ({ ch with index := kDeleted },
      { ep with kernel := Function.update ep.kernel ch.fd none }) := by
  rw [Epoll.updateChannel, if_neg (by rw [hi]; decide), if_pos hi, if_pos hev, update_del h]
  rfl

/-- A watched channel with events is watched for these. -/
theorem updateChannel_mod (ch : Channel) {w : ℕ × Events} (hi : ch.index = kAdded) (hev : ¬ ch.isNoneEvent)
    (h : ep.kernel ch.fd = some w) :
    ep.updateChannel ch = .ok (ch,
      { ep with kernel := Function.update ep.kernel ch.fd (some (ch.self, ch.events)) }) := by
  rw [Epoll.updateChannel, if_neg (by rw [hi]; decide), if_pos hi, if_neg hev, update_mod h]
  rfl

/-- **A change of interest** of a mirrored channel succeeds.  A channel without events is given up if
the kernel watched it; every other change ends with the kernel watching. -/
theorem setEvents_spec (h : Mirrored ch ep) (interest : Events) :
    ∃ ch' ep', ch.setEvents interest ep = .ok (ch', ep') ∧ Updated ch interest ch' ep' := by
  obtain ⟨hidx, hker⟩ := h
  by_cases hadd : ch.index = kAdded
  · rw [if_pos hadd] at hker
    by_cases hev : interest = 0
    · refine ⟨_, _, updateChannel_del { ch with events := interest } hadd hev hker, ?_⟩
      refine ⟨⟨Or.inr (Or.inr rfl), ?_⟩, rfl, rfl, rfl, rfl, ?_⟩
      · rw [if_neg (show kDeleted ≠ kAdded by decide)]
        exact Function.update_self ch.fd none ep.kernel
      · rw [if_pos ⟨hadd, hev⟩]
    · refine ⟨_, _, updateChannel_mod { ch with events := interest } hadd hev hker, ?_⟩
      refine ⟨⟨Or.inr (Or.inl hadd), ?_⟩, rfl, rfl, rfl, rfl, ?_⟩
      · rw [if_pos hadd]
        exact Function.update_self ch.fd _ ep.kernel
      · rw [if_neg fun hh => hev hh.2]
        exact hadd
  · have hnew : ch.index = kNew ∨ ch.index = kDeleted := by tauto
    rw [if_neg hadd] at hker
    obtain ⟨channels, hupd⟩ := updateChannel_add { ch with events := interest } hnew hker
    refine ⟨_, _, hupd, ⟨Or.inr (Or.inl rfl), ?_⟩, rfl, rfl, rfl, rfl, ?_⟩
    · rw [if_pos rfl]
      exact Function.update_self ch.fd _ ep.kernel
    · rw [if_neg fun hh => hadd hh.1]

theorem Updated.not_added {ch ch' : Channel} {ep' : Epoll} (hi : ch.index = kAdded)
    (h : Updated ch 0 ch' ep') : ch'.index ≠ kAdded := by
  rw [h.index, if_pos ⟨hi, rfl⟩]
  decide

theorem Updated.added {ch ch' : Channel} {interest : Events} {ep' : Epoll} (hne : interest ≠ 0)
    (h : Updated ch interest ch' ep') : ch'.index = kAdded := by
  rw [h.index, if_neg fun hh => hne hh.2]

theorem kReadEvent_ne_zero : Channel.kReadEvent ≠ 0 := by decide

theorem kWriteEvent_ne_zero : Channel.kWriteEvent ≠ 0 := by decide

/-- **The removal** of a channel the kernel does not watch succeeds, and the kernel does not watch it
afterwards. -/
theorem remove_spec (h : Mirrored ch ep) (hi : ch.index ≠ kAdded) :
    ∃ ch' ep', ch.remove ep = .ok (ch', ep') ∧ Mirrored ch' ep' ∧ ch'.index ≠ kAdded := by
  have hker := h.kernel
  rw [if_neg hi] at hker
  rw [Channel.remove, Epoll.removeChannel]
  split
  · refine ⟨_, _, rfl, ⟨Or.inl rfl, ?_⟩, show kNew ≠ kAdded by decide⟩
    simp [hker, kNew, kAdded]
  · refine ⟨_, _, rfl, ⟨Or.inr (Or.inr rfl), ?_⟩, show kDeleted ≠ kAdded by decide⟩
    simp [hker, kDeleted, kAdded]

end WServer
