import WServer.HandlerEffects

/-!
# What the server knows of a connection

`Progress` counts, for one connection, what is on its way between the loops and what has been called, and
tells whether the server still lists it.  `Lawful` is the law of these numbers: a connection has one
`connectEstablished`, waiting or called; and it is listed, or has one `connectDestroyed`, waiting or
called.  The number of calls fixes the state of the connection (`Stage`).

Each lemma is one step of the server, as far as this connection is concerned.
-/

namespace WServer

open TcpConnection

/-- The functors that wait and the calls made for one connection, whether it is in `m_connections`, and
whether the destructor of the server has not begun. -/
structure Progress where
  establishing : ℕ
  established : ℕ
  destroying : ℕ
  destroyed : ℕ
  removing : ℕ
  listed : Bool
  serving : Bool

/-- The state of a connection after so many calls of `connectEstablished` and `connectDestroyed`. -/
inductive Stage (c : TcpConnection) : ℕ → ℕ → Prop where
  | connecting (h : Connecting c) : Stage c 0 0
  | connected (h : Connected c ∨ Disconnected c) : Stage c 1 0
  | removed (h : Removed c) : Stage c 1 1

/-- The law of a connection that has not been destroyed. -/
structure Lawful (p : Progress) (c : TcpConnection) : Prop where
  stage : Stage c p.established p.destroyed
  established : p.establishing + p.established = 1
  destroyed : p.listed.toNat + p.destroying + p.destroyed = 1
  removing : p.removing ≤ c.closeCallbacks
  serving : p.serving = true → p.listed = true ∨ (c.closeCallbacks = 1 ∧ p.removing = 0)

variable {p : Progress} {c c' : TcpConnection} {es ds : ℕ}

/-! ### Stages -/

theorem Stage.counts (h : Stage c es ds) : es ≤ 1 ∧ ds ≤ es := by
  cases h with
  | connecting h => exact ⟨Nat.zero_le 1, Nat.le_refl 0⟩
  | connected h => exact ⟨Nat.le_refl 1, Nat.zero_le 1⟩
  | removed h => exact ⟨Nat.le_refl 1, Nat.le_refl 1⟩

theorem Stage.tracked (h : Stage c es ds) : Tracked c.channel c.epoll := by
  cases h with
  | connecting h => exact h.tracked
  | connected h => exact h.elim Connected.tracked Disconnected.tracked
  | removed h => exact h.tracked

theorem Stage.entry (h : Stage c es ds) (hends : es = 0 ∨ ds = 1) :
    c.epoll.channels c.channel.fd = none ∧ c.epoll.kernel c.channel.fd = none := by
  have hunwatched : c.channel.index ≠ kAdded → c.epoll.kernel c.channel.fd = none := by
    intro hi
    rw [h.tracked.kernel, if_neg hi]
  cases h with
  | connecting h => exact ⟨h.entry, hunwatched h.index⟩
  | connected h => rcases hends with hends | hends <;> cases hends
  | removed h => exact ⟨h.entry, hunwatched h.index⟩

/-- The epoll has an entry for the channel at `self`, in `m_channels` or in the kernel. -/
def Epoll.Holds (ep : Epoll) (fd self : ℕ) : Prop :=
  ep.channels fd = some self ∨ ∃ events, ep.kernel fd = some (self, events)

theorem Epoll.Holds.ne_none {ep : Epoll} {fd self : ℕ} (h : ep.Holds fd self) :
    ep.channels fd ≠ none ∨ ep.kernel fd ≠ none := by
  rcases h with h | ⟨events, h⟩
  · left
    rw [h]
    exact Option.some_ne_none self
  · right
    rw [h]
    exact Option.some_ne_none _

/-- The entries under the descriptor of a tracked channel are its own. -/
theorem Tracked.self_of_holds {ch : Channel} {ep : Epoll} {self : ℕ} (h : Tracked ch ep)
    (hholds : ep.Holds ch.fd self) : ch.self = self := by
  rcases hholds with hmap | ⟨events, hker⟩
  · have hentry := h.entry
    rw [hmap] at hentry
    rcases hentry with hentry | hentry
    · cases hentry
    · exact (Option.some.inj hentry).symm
  · have hkernel := h.kernel
    rw [hker] at hkernel
    split at hkernel
    · exact congrArg Prod.fst (Option.some.inj hkernel).symm
    · cases hkernel

/-- A new channel has no entry. -/
theorem Stage.entry_of_new (h : Stage c es ds) (hnew : c.channel.index = kNew) :
    c.epoll.channels c.channel.fd = none := by
  cases h with
  | connecting h => exact h.entry
  | connected h =>
      have hused : c.channel.index ≠ kNew := by
        rcases h with h | h
        · rw [h.index]
          decide
        · rw [h.index]
          decide
      exact absurd hnew hused
  | removed h => exact h.entry

theorem Stage.callbacks (h : Stage c es ds) : c.closeCallbacks ≤ 1 := by
  cases h with
  | connecting h => rw [h.callbacks]; exact Nat.zero_le 1
  | connected h =>
      rcases h with h | h
      · rw [h.callbacks]
        exact Nat.zero_le 1
      · rw [h.callbacks]
  | removed h => exact h.callbacks

theorem Stage.disconnected (h : Stage c es ds) (hends : ds = 1) : c.state = .kDisconnected := by
  cases h with
  | connecting h => cases hends
  | connected h => cases hends
  | removed h => exact h.state

theorem Stage.states (h : Stage c es ds) :
    Connecting c ∨ Connected c ∨ c.state = .kDisconnected := by
  cases h with
  | connecting h => exact Or.inl h
  | connected h => exact Or.inr (h.imp_right Disconnected.state)
  | removed h => exact Or.inr (Or.inr h.state)

theorem Stage.of_connected (h : Stage c es ds) (hc : Connected c) : es = 1 ∧ ds = 0 := by
  have hstate := hc.state
  cases h with
  | connecting h =>
      rw [h.state] at hstate
      cases hstate
  | connected h => exact ⟨rfl, rfl⟩
  | removed h =>
      rw [h.state] at hstate
      cases hstate

/-- A connection that the kernel watches is connected. -/
theorem Stage.connected_of_registered (h : Stage c es ds) (hreg : Registered c.channel c.epoll) :
    Connected c ∧ ds = 0 := by
  have hnot := h.tracked.toMirrored.not_registered
  cases h with
  | connecting h => exact absurd hreg (hnot h.index)
  | connected h =>
      rcases h with h | h
      · exact ⟨h, rfl⟩
      · exact absurd hreg (hnot h.not_added)
  | removed h => exact absurd hreg (hnot h.index)

/-- A connection whose events are handled has been established. -/
theorem Stage.of_serves (h : Stage c es ds) (hserves : Serves c) (hds : ds = 0) : es = 1 := by
  cases h with
  | connecting h =>
      have hstate := h.state
      rcases hserves with hc | ⟨hc, -⟩
      · rw [hc.state] at hstate
        cases hstate
      · rw [hc.state] at hstate
        cases hstate
  | connected h => rfl
  | removed h => cases hds

theorem TcpConnection.Serves.stage (h : Serves c) : Stage c 1 0 := .connected (h.imp_right And.left)

/-- Two channels that differ in the events reported only. -/
theorem Tracked.setRevents {ch : Channel} {ep : Epoll} (h : Tracked ch ep) (revents : Events) :
    Tracked (ch.setRevents revents) ep :=
  ⟨⟨h.index_cases, h.kernel⟩, h.quiet, h.entry⟩

theorem TcpConnection.Connected.setRevents (h : Connected c) (revents : Events) :
    Connected { c with channel := c.channel.setRevents revents } :=
  ⟨h.state, Tracked.setRevents h.tracked revents, h.index, h.timeout, h.callbacks⟩

/-- A change under another descriptor leaves the stage. -/
theorem Stage.elsewhere {fd : ℕ} {ep : Epoll} (h : Stage c es ds) (hsame : SameElsewhere fd c.epoll ep)
    (hne : c.channel.fd ≠ fd) : Stage { c with epoll := ep } es ds := by
  have htracked := h.tracked.elsewhere hsame hne
  have hchannels := (hsame c.channel.fd hne).1
  cases h with
  | connecting h =>
      exact .connecting ⟨h.state, htracked, h.index, hchannels.trans h.entry, h.timeout, h.callbacks⟩
  | connected h =>
      refine .connected ?_
      rcases h with h | h
      · exact Or.inl ⟨h.state, htracked, h.index, h.timeout, h.callbacks⟩
      · exact Or.inr ⟨h.state, htracked, h.index, h.callbacks⟩
  | removed h =>
      exact .removed ⟨h.state, htracked, h.index, hchannels.trans h.entry, h.callbacks⟩

theorem TcpConnection.Serves.elsewhere {fd : ℕ} {ep : Epoll} (h : Serves c)
    (hsame : SameElsewhere fd c.epoll ep) (hne : c.channel.fd ≠ fd) : Serves { c with epoll := ep } := by
  rcases h with h | ⟨h, hshut⟩
  · exact Or.inl ⟨h.state, h.tracked.elsewhere hsame hne, h.index, h.timeout, h.callbacks⟩
  · exact Or.inr ⟨⟨h.state, h.tracked.elsewhere hsame hne, h.index, h.callbacks⟩, hshut⟩

/-- The number of timers does not matter. -/
theorem Stage.withTimers (h : Stage c es ds) (timers : ℕ) :
    Stage { c with timers := timers } es ds := by
  cases h with
  | connecting h =>
      exact .connecting ⟨h.state, h.tracked, h.index, h.entry, h.timeout, h.callbacks⟩
  | connected h =>
      refine .connected ?_
      rcases h with h | h
      · exact Or.inl ⟨h.state, h.tracked, h.index, h.timeout, h.callbacks⟩
      · exact Or.inr ⟨h.state, h.tracked, h.index, h.callbacks⟩
  | removed h => exact .removed ⟨h.state, h.tracked, h.index, h.entry, h.callbacks⟩

/-! ### Steps -/

namespace Lawful

theorem elsewhere {fd : ℕ} {ep : Epoll} (h : Lawful p c) (hsame : SameElsewhere fd c.epoll ep)
    (hne : c.channel.fd ≠ fd) : Lawful p { c with epoll := ep } :=
  ⟨h.stage.elsewhere hsame hne, h.established, h.destroyed, h.removing, h.serving⟩

/-- `connectEstablished` is called. -/
theorem establish (h : Lawful { p with establishing := p.establishing + 1 } c)
    (hok : c.connectEstablished = .ok c') :
    Lawful { p with established := p.established + 1 } c' ∧ Elsewhere c c' ∧
      c'.closeCallbacks = c.closeCallbacks := by
  obtain ⟨hstage, hes, hds, hremoving, hserving⟩ := h
  simp only at hstage hes hds hremoving hserving
  have hnone : p.established = 0 := by omega
  have hzero : p.destroyed = 0 := by
    have := hstage.counts.2
    omega
  rw [hnone, hzero] at hstage
  cases hstage with
  | connecting h =>
      obtain ⟨hconn, helse⟩ := h.established hok
      have hcalls : c'.closeCallbacks = c.closeCallbacks := by rw [hconn.callbacks, h.callbacks]
      refine ⟨⟨?_, by simp only; omega, hds, hcalls ▸ hremoving, hcalls ▸ hserving⟩, helse, hcalls⟩
      simp only [hnone, hzero]
      exact .connected (Or.inl hconn)

/-- `connectDestroyed` is called, behind `connectEstablished`. -/
theorem destroy (h : Lawful { p with destroying := p.destroying + 1 } c) (hnone : p.establishing = 0)
    (hok : c.connectDestroyed = .ok c') :
    Lawful { p with destroyed := p.destroyed + 1 } c' ∧ Elsewhere c c' ∧
      c'.closeCallbacks = c.closeCallbacks := by
  obtain ⟨hstage, hes, hds, hremoving, hserving⟩ := h
  simp only at hstage hes hds hremoving hserving
  have hone : p.established = 1 := by omega
  have hzero : p.destroyed = 0 := by omega
  rw [hone, hzero] at hstage
  cases hstage with
  | connected h =>
      obtain ⟨hremoved, helse, hcalls⟩ := connectDestroyed_ok h hok
      refine ⟨⟨?_, hes, by simp only; omega, hcalls ▸ hremoving, hcalls ▸ hserving⟩, helse, hcalls⟩
      simp only [hone, hzero]
      exact .removed hremoved

/-- A handler is called. -/
theorem handle (h : Lawful p c) (hserves : Serves c) (hds : p.destroyed = 0) (he : Effect c c') :
    Lawful { p with removing := p.removing + (c'.closeCallbacks - c.closeCallbacks) } c' ∧
      Serves c' ∧ Elsewhere c c' := by
  obtain ⟨hserves', helse⟩ := hserves.effect he
  have hmono : c.closeCallbacks ≤ c'.closeCallbacks := by
    cases he with
    | kept h => rw [h.closeCallbacks]
    | interest _ _ _ _ h => rw [h.closeCallbacks]
    | closed _ _ _ _ _ hcalls => omega
  have hle := hserves'.stage.callbacks
  refine ⟨⟨?_, h.established, h.destroyed, ?_, fun hserving => ?_⟩, hserves', helse⟩
  · simp only [h.stage.of_serves hserves hds, hds]
    exact hserves'.stage
  · have := h.removing
    simp only
    omega
  · refine (h.serving hserving).imp_right fun ⟨hone, hzero⟩ => ?_
    simp only
    omega

/-- A timer of the connection expires. -/
theorem expire (h : Lawful p c) {timers : ℕ}
    (hok : ({ c with timers := timers } : TcpConnection).closeLongConnection = .ok c') :
    Lawful { p with removing := p.removing + (c'.closeCallbacks - c.closeCallbacks) } c' ∧
      Elsewhere c c' ∧ p.established = 1 := by
  obtain ⟨hstage, hes, hds, hremoving, hserving⟩ := h
  obtain ⟨hconn, hdis, helse⟩ := closeLongConnection_ok (hstage.withTimers timers).states hok
  have hcounts := (hstage.withTimers timers).of_connected hconn
  have helse : Elsewhere c c' := ⟨helse.self, helse.fd, helse.same⟩
  rw [show c.closeCallbacks = 0 from hconn.callbacks] at hremoving hserving ⊢
  refine ⟨⟨?_, hes, hds, ?_, fun hs => ?_⟩, helse, hcounts.1⟩
  · simp only [hcounts.1, hcounts.2]
    exact .connected (Or.inr hdis)
  · simp only [hdis.callbacks]
    omega
  · exact Or.inl ((hserving hs).resolve_right fun hh => by cases hh.1)

/-- `removeConnectionInLoop` is called: the connection is still listed. -/
theorem remove (h : Lawful { p with removing := p.removing + 1 } c) (hserving : p.serving = true) :
    p.listed = true ∧ Lawful { p with listed := false, destroying := p.destroying + 1 } c := by
  obtain ⟨hstage, hes, hds, hremoving, hlisted⟩ := h
  simp only at hstage hes hds hremoving hlisted
  have hl : p.listed = true := (hlisted hserving).resolve_right fun hh => by omega
  have hcalls := hstage.callbacks
  rw [hl, Bool.toNat_true] at hds
  refine ⟨hl, hstage, hes, ?_, by simp only; omega, fun _ => Or.inr ⟨by omega, by simp only; omega⟩⟩
  simp only [Bool.toNat_false]
  omega

/-- `~TcpServer` lets go of the connection. -/
theorem release (h : Lawful p c) (hserving : p.serving = false) (hl : p.listed = true) :
    Lawful { p with listed := false, destroying := p.destroying + 1 } c := by
  obtain ⟨hstage, hes, hds, hremoving, -⟩ := h
  rw [hl, Bool.toNat_true] at hds
  refine ⟨hstage, hes, ?_, hremoving, fun hs => ?_⟩
  · simp only [Bool.toNat_false]
    omega
  · rw [hserving] at hs
    cases hs

/-- `~TcpServer` begins. -/
theorem stop (h : Lawful p c) : Lawful { p with serving := false } c :=
  ⟨h.stage, h.established, h.destroyed, h.removing, fun hs => by cases hs⟩

/-- A connection that nothing refers to has been through `connectDestroyed`. -/
theorem destroyed_of_unreferenced (h : Lawful p c) (hl : p.listed = false) (hw : p.destroying = 0) :
    p.destroyed = 1 ∧ p.established = 1 ∧ p.establishing = 0 := by
  obtain ⟨hstage, hes, hds, -, -⟩ := h
  rw [hl, Bool.toNat_false] at hds
  have := hstage.counts
  omega

end Lawful

end WServer
