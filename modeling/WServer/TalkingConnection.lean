import WServer.EndOfStream

/-!
# Connected connections

What holds of a connection at every time while it is connected, whatever has been dispatched to it.

* `Talking` — a connected connection of a run, `talks_run` — every connected state of any run is one;
* `Stays` — no event connects a connection again, or shuts its write side and leaves it connected.
-/

namespace WServer

namespace TcpConnection

open Library.Runs HttpContext

variable {c c' : TcpConnection} {rs : ReadScript} {ws ws' : WriteScript} {now : List UInt8}
  {revents : Events}

/-! ### Handlers -/

/-- Connected, and long if a request has asked for it. -/
structure Talking (c : TcpConnection) : Prop extends Serving c where
  mode : c.alive = false → c.context.isKeepAlive = false

/-- The invariant of all runs: while a connection is connected, it is one of these. -/
def Talks (c : TcpConnection) : Prop := c.state = .kConnected → Talking c

theorem Talks.of_disconnected (h : c.state ≠ .kConnected) : Talks c := fun hs => absurd hs h

theorem talks_closed (ch : Channel) (ep : Epoll) (c : TcpConnection) : Talks (c.closed ch ep) :=
  Talks.of_disconnected (show StateE.kDisconnected ≠ .kConnected by decide)

theorem Established.talking (h : Established c) : Talking c := by
  refine ⟨⟨h.toWatched, h.timeout, Or.inl h.interest⟩, fun _ => ?_⟩
  rw [h.context]
  rfl

theorem Talking.reported (h : Talking c) : Talking { c with channel := c.channel.setRevents revents } :=
  ⟨h.toServing.reported, h.mode⟩

/-- No handler connects a connection again. -/
def Leaves (c c' : TcpConnection) : Prop := c'.state = c.state ∨ c'.state = .kDisconnected

theorem Leaves.talks (h : Leaves c c') (hs : c.state ≠ .kConnected) : Talks c' := by
  refine Talks.of_disconnected ?_
  rcases h with h | h
  · rw [h]
    exact hs
  · rw [h]
    decide

/-- Nor does one shut the write side of a connection that it leaves connected. -/
def Stays (c c' : TcpConnection) : Prop :=
  (c'.state = c.state ∧ c'.writeShut = c.writeShut) ∨ c'.state = .kDisconnected

theorem Stays.leaves (h : Stays c c') : Leaves c c' := h.imp_left And.left

theorem Stays.refl (c : TcpConnection) : Stays c c := Or.inl ⟨rfl, rfl⟩

theorem Stays.trans {d : TcpConnection} (h : Stays c d) (h' : Stays d c') : Stays c c' := by
  rcases h' with ⟨hstate, hshut⟩ | hclosed
  · rcases h with ⟨hs, hw⟩ | hclosed
    · exact Or.inl ⟨hstate.trans hs, hshut.trans hw⟩
    · exact Or.inr (hstate.trans hclosed)
  · exact Or.inr hclosed

theorem handleClose_stays (h : c.handleClose = .ok c') : Stays c c' := by
  rcases handleClose_ok h with ⟨-, rfl⟩ | ⟨-, -, ch, ep, -, rfl⟩
  · exact Stays.refl _
  · exact Or.inr rfl

theorem onChannel_stays {f : Channel → Epoll → Except Stop (Channel × Epoll)}
    (h : c.onChannel f = .ok c') : Stays c c' := by
  obtain ⟨ch, ep, -, rfl⟩ := onChannel_ok h
  exact Or.inl ⟨rfl, rfl⟩

theorem handleWrite_stays (h : c.handleWrite ws = .ok c') : Stays c c' := by
  have hclose : (c.written ws).handleClose = .ok c' → Stays c c' := handleClose_stays
  rw [handleWrite] at h
  split_ifs at h
  · exact hclose h
  · exact hclose h
  · exact hclose h
  · exact onChannel_stays (c := c.written ws) h
  · exact onChannel_stays (c := { c.written ws with context := (c.written ws).context.reset }) h
  · exact hclose h

theorem answered_stays (rs : ReadScript) (context : HttpContext) (c : TcpConnection) :
    Stays c (c.answered rs context) := by
  refine Or.inl ⟨answered_state rs context c, ?_⟩
  rw [answered]
  rcases startKeepAlive_cases { c.drained rs with context := context } with heq | ⟨-, heq⟩
  · rw [heq]
    rfl
  · rw [heq]
    rfl

theorem handleRead_stays (h : c.handleRead rs ws now = .ok c') : Stays c c' := by
  have hclose : (c.drained rs).handleClose = .ok c' → Stays c c' := handleClose_stays
  rw [handleRead] at h
  split at h
  · cases hwork : (c.drained rs).context.work now with
    | none =>
        rw [hwork] at h
        cases h
    | some context =>
        rw [hwork] at h
        exact (answered_stays rs context c).trans (handleWrite_stays h)
  · split at h
    · exact hclose h
    · exact hclose h

theorem connectDestroyed_stays (h : c.connectDestroyed = .ok c') :
    Stays c c' ∧ c'.state ≠ .kConnected := by
  rw [connectDestroyed] at h
  obtain ⟨d, hd, hremove⟩ := ok_of_bind h
  obtain ⟨ch, ep, -, rfl⟩ := onChannel_ok hremove
  split at hd
  · obtain ⟨ch, ep, -, rfl⟩ := onChannel_ok hd
    exact ⟨Or.inr rfl, show StateE.kDisconnected ≠ .kConnected by decide⟩
  · rename_i hs
    cases hd
    exact ⟨Or.inl ⟨rfl, rfl⟩, hs⟩

/-- A write leaves a connection talking or closed. -/
theorem WriteOutcome.talks (h : Talking c) (hout : WriteOutcome ws c c') : Talks c' := by
  cases hout with
  | partly ch ep _ _ _ hupd =>
      exact fun _ => ⟨⟨⟨h.state, hupd.mirrored, hupd.added kWriteEvent_ne_zero⟩, h.timeout,
        Or.inr hupd.events⟩, h.mode⟩
  | wholly ch ep _ _ _ ha hupd =>
      refine fun _ => ⟨⟨⟨h.state, hupd.mirrored, hupd.added kReadEvent_ne_zero⟩, h.timeout,
        Or.inl hupd.events⟩, fun hn => ?_⟩
      rw [show c.alive = false from hn] at ha
      cases ha
  | kept _ _ => exact fun _ => ⟨⟨h.toWatched.written, h.timeout, h.interest⟩, h.mode⟩
  | closed ch ep _ _ _ => exact talks_closed _ _ _

/-- The connection handed to the write handler is talking. -/
theorem Talking.answered (h : Talking c) (context : HttpContext) : Talking (c.answered rs context) := by
  obtain ⟨hw, ht, hev⟩ := answered_watched rs context h.toServing
  refine ⟨⟨hw, ht, by rw [hev]; exact h.interest⟩, ?_⟩
  rw [answered_alive, answered_context]
  exact fun ha => (Bool.or_eq_false_iff.mp ha).2

/-- What a handler leaves, by whether it was called on a connected connection. -/
theorem Talks.after (h : Talks c) (hleaves : Leaves c c') (htalking : Talking c → Talks c') : Talks c' := by
  by_cases hs : c.state = .kConnected
  · exact htalking (h hs)
  · exact hleaves.talks hs

theorem handleClose_talks (h : Talks c) (hok : c.handleClose = .ok c') : Talks c' := by
  refine h.after (handleClose_stays hok).leaves fun htalking => ?_
  rcases handleClose_cases htalking.toWatched htalking.timeout with ⟨-, hkept⟩ | ⟨-, ch, ep, hclosed, -⟩
  · rw [hkept] at hok
    cases hok
    exact h
  · rw [hclosed] at hok
    cases hok
    exact talks_closed _ _ _

theorem handleWrite_talks (h : Talks c) (hok : c.handleWrite ws = .ok c') : Talks c' := by
  refine h.after ((handleWrite_stays hok).leaves) fun htalking => ?_
  obtain ⟨d, hd, hout⟩ := handleWrite_spec ws htalking.toWatched htalking.timeout
  rw [hd] at hok
  cases hok
  exact hout.talks htalking

theorem handleRead_talks (h : Talks c) (hok : c.handleRead rs ws now = .ok c') : Talks c' := by
  refine h.after ((handleRead_stays hok).leaves) fun htalking => ?_
  have hspec := handleRead_spec rs ws now htalking.toWatched htalking.timeout
  rw [hok] at hspec
  cases hspec with
  | answers _ _ hout => exact hout.talks (htalking.answered _)
  | kept _ _ =>
      exact fun _ => ⟨⟨htalking.toWatched.drained, htalking.timeout, htalking.interest⟩, htalking.mode⟩
  | closed _ _ _ _ _ => exact talks_closed _ _ _

/-- One of the conditional calls of `handleEvent`. -/
theorem Talks.call {p : Prop} [Decidable p] {r : Except Stop TcpConnection} (h : Talks c)
    (hcall : r = .ok c' → Talks c') (hok : (if p then r else .ok c) = .ok c') : Talks c' := by
  split at hok
  · exact hcall hok
  · cases hok
    exact h

/-- **One event**, whatever it is. -/
theorem talks_step (e : ConnEvent) (h : Talks c) (hok : connStep c e = .ok c') : Talks c' := by
  cases e with
  | dispatch revents rs ws ws' now =>
      rw [connStep] at hok
      refine h.call (fun hok => ?_) hok
      have h₀ : Talks { c with channel := c.channel.setRevents revents } := fun hs => (h hs).reported
      rw [handleEvent] at hok
      obtain ⟨c₁, hclose, hok⟩ := ok_of_bind hok
      obtain ⟨c₂, herror, hok⟩ := ok_of_bind hok
      obtain ⟨c₃, hread, hwrite⟩ := ok_of_bind hok
      have h₁ := h₀.call (handleClose_talks h₀) hclose
      have h₂ := h₁.call (handleClose_talks h₁) herror
      have h₃ := h₂.call (handleRead_talks h₂) hread
      exact h₃.call (handleWrite_talks h₃) hwrite
  | expire =>
      rw [connStep] at hok
      refine h.call (fun hok => ?_) hok
      have hleaves : Leaves { c with timers := c.timers - 1, timeout := true } c' := (handleClose_stays hok).leaves
      refine h.after hleaves fun htalking => ?_
      obtain ⟨ch, ep, hclosed, -⟩ := closeLongConnection_spec (c := { c with timers := c.timers - 1 })
        ⟨htalking.state, htalking.mirrored, htalking.index⟩
      rw [hclosed] at hok
      cases hok
      exact talks_closed _ _ _
  | destroyed => exact Talks.of_disconnected (connectDestroyed_stays hok).2

/-- A conditional call stays if the call does. -/
theorem Stays.call {p : Prop} [Decidable p] {r : Except Stop TcpConnection} {d : TcpConnection}
    (hcall : r = .ok c' → Stays d c') (hd : Stays d c) (hok : (if p then r else .ok c) = .ok c') :
    Stays d c' := by
  split at hok
  · exact hcall hok
  · cases hok
    exact hd

/-- **No event** connects a connection again, or shuts the write side of one that it leaves connected. -/
theorem connStep_stays (e : ConnEvent) (hok : connStep c e = .ok c') : Stays c c' := by
  cases e with
  | dispatch revents rs ws ws' now =>
      rw [connStep] at hok
      refine Stays.call (fun hok => ?_) (Stays.refl c) hok
      rw [handleEvent] at hok
      obtain ⟨c₁, hclose, hok⟩ := ok_of_bind hok
      obtain ⟨c₂, herror, hok⟩ := ok_of_bind hok
      obtain ⟨c₃, hread, hwrite⟩ := ok_of_bind hok
      have h₀ : Stays c { c with channel := c.channel.setRevents revents } := Or.inl ⟨rfl, rfl⟩
      have h₁ : Stays c c₁ := Stays.call (fun h => h₀.trans (handleClose_stays h)) h₀ hclose
      have h₂ : Stays c c₂ := Stays.call (fun h => h₁.trans (handleClose_stays h)) h₁ herror
      have h₃ : Stays c c₃ := Stays.call (fun h => h₂.trans (handleRead_stays h)) h₂ hread
      exact Stays.call (fun h => h₃.trans (handleWrite_stays h)) h₃ hwrite
  | expire =>
      rw [connStep] at hok
      refine Stays.call (fun hok => ?_) (Stays.refl c) hok
      exact handleClose_stays (c := { c with timers := c.timers - 1, timeout := true }) hok
  | destroyed => exact (connectDestroyed_stays hok).1

/-- **Whole runs.** -/
theorem talks_run {t : TcpConnection} {events : List ConnEvent} (h : Established c)
    (hrun : runFrom connStep c events = .ok t) : Talks t :=
  run_invariant (fun _ e _ hd _ hok => talks_step e hd hok) events (fun _ => h.talking)
    (along_true c events) t (reachedBy_end hrun)

end TcpConnection

end WServer
