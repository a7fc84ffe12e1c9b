import WServer.AcceptedRequest
import WServer.ConnectionHandlers
import WServer.Library.Runs

/-!
# No response is abandoned

Runs without hard errors: reads and writes deliver counts, `EINTR` and `EAGAIN`, and the peer does not
close.  A response is abandoned when unsent bytes are left without interest in writing, or when the
connection is closed over them.  `writeToFd` returns `0` both for a full socket and for a closed peer, and
`handleWrite` takes the first for the second.

* `Live`, `Done` — the states of a run that abandons nothing;
* `write_delivers`, `write_abandons` — the outcomes of a write, by whether the kernel takes a byte;
* `softStep_delivers`, `softStep_abandons` — one event;
* `output_delivered_iff` — nothing is abandoned exactly when every write finds room, and nothing closes
  the connection over unsent bytes.
-/

namespace WServer

namespace TcpConnection

open Library.Runs HttpContext

/-! ### Runs without hard errors -/

/-- A reading that ends with `EAGAIN`. -/
abbrev SoftRead := {rs : ReadScript // rs.stop = .eagain}

/-- A writing without a hard error. -/
abbrev SoftWrite := {ws : WriteScript // .error ∉ ws}

inductive SoftEvent where
  | dispatch (revents : Events) (rs : SoftRead) (ws ws' : SoftWrite) (now : List UInt8)
  | expire
  | destroyed

/-- One event.  Errors and hang-ups are not reported. -/
def softStep (c : TcpConnection) : SoftEvent → Except Stop TcpConnection
  | .dispatch revents rs ws ws' now =>
      if revents.Within c.channel.events then
        connStep c (.dispatch revents rs.1 ws.1 ws'.1 now)
      else .ok c
  | .expire => connStep c .expire
  | .destroyed => connStep c .destroyed

/-- **Nothing is abandoned.**  Unsent bytes of a connected connection have interest in writing
registered, and a disconnected connection has none. -/
structure Delivering (c : TcpConnection) : Prop where
  registered : c.state = .kConnected → c.output ≠ [] →
    Registered c.channel c.epoll ∧ c.channel.events.has EPOLLOUT
  sent : c.state = .kDisconnected → c.output = []

/-- **The condition on an event.**  The write behind a read with new bytes takes a byte; so does the write
of a connection that is not kept alive; and nothing is waiting when a timer expires or the loop destroys
the connection. -/
def FindsRoom (c : TcpConnection) : SoftEvent → Prop
  | .dispatch revents rs ws ws' _ =>
      c.Reports revents → revents.Within c.channel.events →
        (revents.has (EPOLLIN ||| EPOLLPRI ||| EPOLLRDHUP) → rs.1.received ≠ [] → ws.1.Accepts) ∧
          (revents.has EPOLLOUT → c.alive = false → ws'.1.Accepts)
  | .expire => 0 < c.timers → c.output = []
  | .destroyed => c.output = []

/-! ### The invariant -/

/-- Waiting for requests with nothing to send, or waiting for room with something to send. -/
structure Live (c : TcpConnection) : Prop extends Watched c where
  timeout : c.timeout = false
  timers : c.alive = false → c.timers = 0
  waiting : (c.channel.events = Channel.kReadEvent ∧ c.output = [] ∧ Receiving c.context) ∨
    (c.channel.events = Channel.kWriteEvent ∧ c.output ≠ [])

/-- Closed, with nothing left to send. -/
structure Done (c : TcpConnection) : Prop where
  state : c.state = .kDisconnected
  mirrored : Mirrored c.channel c.epoll
  index : c.channel.index ≠ kAdded
  sent : c.output = []

variable {c c' : TcpConnection} {ws ws' : SoftWrite} {rs : SoftRead} {now : List UInt8}
  {revents : Events}

theorem Established.live (h : Established c) : Live c := by
  have hctx : c.context = HttpContext.init Buffer.init Buffer.init := h.context
  refine ⟨h.toWatched, h.timeout, fun _ => h.timers, Or.inl ⟨h.interest, ?_, ?_⟩⟩
  · rw [output, hctx]
    exact Buffer.content_init
  · rw [hctx]
    exact Or.inl rfl

theorem Live.delivering (h : Live c) : Delivering c := by
  refine ⟨fun _ hne => ⟨h.mirrored.registered h.index, ?_⟩, fun hs => ?_⟩
  · rcases h.waiting with ⟨_, hempty, _⟩ | ⟨hev, _⟩
    · exact absurd hempty hne
    · rw [hev]
      decide
  · rw [h.state] at hs
    cases hs

theorem Done.delivering (h : Done c) : Delivering c := by
  refine ⟨?_, fun _ => h.sent⟩
  intro hs
  rw [h.state] at hs
  cases hs

/-- Unsent bytes without interest in writing are abandoned. -/
theorem not_delivering_reading (hs : c.state = .kConnected) (hne : c.output ≠ [])
    (hev : c.channel.events = Channel.kReadEvent) : ¬ Delivering c := by
  intro h
  have hout := (h.registered hs hne).2
  rw [hev] at hout
  revert hout
  decide

/-- So are the unsent bytes of a connection that is closed. -/
theorem not_delivering_closed (hs : c.state = .kDisconnected) (hne : c.output ≠ []) :
    ¬ Delivering c := fun h => hne (h.sent hs)

/-! ### A write -/

/-- **A write that finds room**, or that a long connection will repeat, abandons nothing. -/
theorem write_delivers (hw : Watched c) (ht : c.timeout = false)
    (htimers : c.alive = false → c.timers = 0) (hne : c.output ≠ [])
    (hroom : ws.1.Accepts ∨ (c.alive = true ∧ c.channel.events = Channel.kWriteEvent))
    (h : WriteOutcome ws.1 c c') : Live c' ∨ Done c' := by
  have hpos := List.length_pos_of_ne_nil hne
  have hsoft := WriteScript.not_fails ws.2 c.output.length
  have hacc := ws.1.accepts_iff hpos
  cases h with
  | partly ch ep _ htaken hlt hupd =>
      refine Or.inl ⟨⟨hw.state, hupd.mirrored, hupd.added kWriteEvent_ne_zero⟩, ht, htimers,
        Or.inr ⟨hupd.events, ?_⟩⟩
      show (c.written ws.1).output ≠ []
      rw [output_written, ne_eq, List.drop_eq_nil_iff]
      omega
  | wholly ch ep _ _ hall _ hupd =>
      refine Or.inl ⟨⟨hw.state, hupd.mirrored, hupd.added kReadEvent_ne_zero⟩, ht, htimers,
        Or.inl ⟨hupd.events, ?_, Or.inl rfl⟩⟩
      show (c.written ws.1).output = []
      rw [output_written, hall, List.drop_length]
  | kept hwhy _ =>
      have h0 : ws.1.taken c.output.length = 0 := by
        rcases hwhy with hf | h0
        · rw [hsoft] at hf
          cases hf
        · exact h0
      rcases hroom with haccepts | ⟨_, hev⟩
      · have := hacc.mp haccepts
        omega
      · refine Or.inl ⟨hw.written, ht, htimers, Or.inr ⟨hev, ?_⟩⟩
        rw [output_written, h0]
        exact hne
  | closed ch ep hwhy hn hupd =>
      have htaken : 0 < ws.1.taken c.output.length := by
        rcases hroom with haccepts | ⟨ha, _⟩
        · exact hacc.mp haccepts
        · rw [ha] at hn
          cases hn
      have hall : ws.1.taken c.output.length = c.output.length := by
        rcases hwhy with hf | h0 | hall
        · rw [hsoft] at hf
          cases hf
        · omega
        · exact hall
      refine Or.inr ⟨rfl, hupd.mirrored, hupd.not_added hw.index, ?_⟩
      show (c.written ws.1).output = []
      rw [output_written, hall, List.drop_length]

/-- **A write that finds no room** abandons the output, unless a long connection will repeat it. -/
theorem write_abandons (hw : Watched c) (hne : c.output ≠ []) (hroom : ¬ ws.1.Accepts)
    (hwhy : c.alive = false ∨ c.channel.events = Channel.kReadEvent)
    (h : WriteOutcome ws.1 c c') : ¬ Delivering c' := by
  have h0 : ws.1.taken c.output.length = 0 := by
    rw [ws.1.accepts_iff (List.length_pos_of_ne_nil hne)] at hroom
    omega
  have hout : (c.written ws.1).output ≠ [] := by
    rw [output_written, h0]
    exact hne
  cases h with
  | partly _ _ _ htaken _ _ => omega
  | wholly _ _ _ htaken _ _ _ => omega
  | kept _ ha =>
      rcases hwhy with hn | hev
      · rw [ha] at hn
        cases hn
      · exact not_delivering_reading hw.state hout hev
  | closed _ _ _ _ _ => exact not_delivering_closed rfl hout

/-! ### A read -/

/-- What a read makes of a connection that waits for requests: nothing is abandoned if there was nothing
to read, or if the write behind it finds room; otherwise the response is. -/
theorem read_outcome (rs : SoftRead) (ws : SoftWrite) (now : List UInt8) (h : Live c)
    (hev : c.channel.events = Channel.kReadEvent) (hempty : c.output = []) (hrec : Receiving c.context) :
    ∃ c', c.handleRead rs.1 ws.1 now = .ok c' ∧
      ((rs.1.received ≠ [] → ws.1.Accepts) → Live c' ∨ Done c') ∧
      (rs.1.received ≠ [] → ¬ ws.1.Accepts → ¬ Delivering c') := by
  have hret : rs.1.returned = rs.1.received.length := by rw [ReadScript.returned, rs.2]
  have hspec := handleRead_spec rs.1 ws.1 now h.toWatched h.timeout
  have hrec' : Receiving (c.drained rs.1).context := hrec
  generalize c.handleRead rs.1 ws.1 now = res at hspec
  cases hspec with
  | loops _ hwork =>
      obtain ⟨e, he⟩ := handleHttpRequest_total hrec'.ne_END
      rw [work, he] at hwork
      cases hwork
  | @answers context c' hpos hwork hout =>
      have hne : rs.1.received ≠ [] := by
        intro hnil
        rw [hret, hnil] at hpos
        exact absurd hpos (by simp)
      set d := c.answered rs.1 context with hd
      have hdw : Watched d := h.toWatched.answered _
      have hdt : d.timeout = false := by
        rw [hd, answered_timeout]
        exact h.timeout
      have hdout : d.output ≠ [] := by
        rw [hd, answered_output]
        exact List.length_pos_iff.mp (work_output_pos hwork)
      have hdev : d.channel.events = Channel.kReadEvent := by
        rw [hd, answered_channel]
        exact hev
      refine ⟨c', rfl, ?_, ?_⟩
      · intro hroom
        exact write_delivers hdw hdt (startKeepAlive_timers h.timers) hdout (Or.inl (hroom hne)) hout
      · intro _ hroom
        exact write_abandons hdw hdout hroom (Or.inr hdev) hout
  | kept hn _ =>
      have hnil : rs.1.received = [] := by
        rw [hret] at hn
        exact List.length_eq_zero_iff.mp (by omega)
      exact ⟨_, rfl, fun _ => Or.inl ⟨h.toWatched.drained, h.timeout, h.timers,
        Or.inl ⟨hev, hempty, hrec'⟩⟩, fun hne => absurd hnil hne⟩
  | closed ch ep hn _ hupd =>
      have hnil : rs.1.received = [] := by
        rw [hret] at hn
        exact List.length_eq_zero_iff.mp (by omega)
      exact ⟨_, rfl, fun _ => Or.inr ⟨rfl, hupd.mirrored, hupd.not_added h.index, hempty⟩,
        fun hne => absurd hnil hne⟩

/-! ### One event -/

/-- A dispatch that the loop can make, on a connection that abandons nothing. -/
theorem dispatch_outcome (rs : SoftRead) (ws ws' : SoftWrite) (now : List UInt8) (h : Live c)
    (hwithin : revents.Within c.channel.events) :
    ∃ c', handleEvent rs.1 ws.1 ws'.1 now { c with channel := c.channel.setRevents revents } = .ok c' ∧
      ((revents.has (EPOLLIN ||| EPOLLPRI ||| EPOLLRDHUP) → rs.1.received ≠ [] → ws.1.Accepts) ∧
          (revents.has EPOLLOUT → c.alive = false → ws'.1.Accepts) → Live c' ∨ Done c') ∧
      (¬ ((revents.has (EPOLLIN ||| EPOLLPRI ||| EPOLLRDHUP) → rs.1.received ≠ [] → ws.1.Accepts) ∧
          (revents.has EPOLLOUT → c.alive = false → ws'.1.Accepts)) → ¬ Delivering c') := by
  set d := ({ c with channel := c.channel.setRevents revents } : TcpConnection) with hd
  have hlive : Live d := ⟨⟨h.state, ⟨h.mirrored.index_cases, h.mirrored.kernel⟩, h.index⟩, h.timeout,
    h.timers, h.waiting⟩
  rcases h.waiting with ⟨hev, hempty, hrec⟩ | ⟨hev, hne⟩
  · -- waiting for requests: only the read handler can be called
    rw [hev] at hwithin
    have hout : ¬ revents.has EPOLLOUT := hwithin.not_has (by decide)
    rw [handleEvent_reads hlive.toWatched hlive.timeout (fun hh => hwithin.not_has (by decide) hh.1)
      (hwithin.not_has (by decide)) hout]
    by_cases hin : revents.has (EPOLLIN ||| EPOLLPRI ||| EPOLLRDHUP)
    · rw [if_pos (show d.channel.revents.has _ from hin)]
      obtain ⟨c', hok, hgood, hbad⟩ := read_outcome rs ws now hlive hev
        hempty hrec
      refine ⟨c', hok, fun hroom => hgood (hroom.1 hin), ?_⟩
      intro hroom
      rw [not_and_or] at hroom
      simp only [Classical.not_imp] at hroom
      rcases hroom with ⟨_, hrs, hws⟩ | ⟨ho, _⟩
      · exact hbad hrs hws
      · exact absurd ho hout
    · rw [if_neg (show ¬ d.channel.revents.has _ from hin)]
      exact ⟨d, rfl, fun _ => Or.inl hlive, fun hroom => absurd ⟨fun hh => absurd hh hin,
        fun hh => absurd hh hout⟩ hroom⟩
  · -- waiting for room: only the write handler can be called
    rw [hev] at hwithin
    have hin : ¬ revents.has (EPOLLIN ||| EPOLLPRI ||| EPOLLRDHUP) := hwithin.not_has (by decide)
    rw [handleEvent_writes (hwithin.not_has (by decide)) (hwithin.not_has (by decide)) hin]
    by_cases hout : revents.has EPOLLOUT
    · rw [if_pos (show d.channel.revents.has _ from hout)]
      obtain ⟨c', hok, hspec⟩ := handleWrite_spec ws'.1 hlive.toWatched hlive.timeout
      refine ⟨c', hok, ?_, ?_⟩
      · intro hroom
        refine write_delivers hlive.toWatched hlive.timeout hlive.timers hne ?_ hspec
        rcases Bool.eq_false_or_eq_true c.alive with ha | ha
        · exact Or.inr ⟨ha, hev⟩
        · exact Or.inl (hroom.2 hout ha)
      · intro hroom
        rw [not_and_or] at hroom
        simp only [Classical.not_imp] at hroom
        rcases hroom with ⟨hi, _⟩ | ⟨_, ha, hws⟩
        · exact absurd hi hin
        · exact write_abandons hlive.toWatched hne hws (Or.inl ha) hspec
    · rw [if_neg (show ¬ d.channel.revents.has _ from hout)]
      exact ⟨d, rfl, fun _ => Or.inl hlive, fun hroom => absurd ⟨fun hh => absurd hh hin,
        fun hh => absurd hh hout⟩ hroom⟩

/-- The timer closes a live connection, whatever is waiting. -/
theorem expire_outcome (h : Live c) (htimer : 0 < c.timers) :
    ∃ c', connStep c .expire = .ok c' ∧ c'.state = .kDisconnected ∧ c'.output = c.output ∧
      Mirrored c'.channel c'.epoll ∧ c'.channel.index ≠ kAdded := by
  obtain ⟨ch, ep, hok, hupd⟩ := closeLongConnection_spec (c := { c with timers := c.timers - 1 })
    ⟨h.state, h.mirrored, h.index⟩
  refine ⟨closed ch ep { c with timers := c.timers - 1, timeout := true }, ?_, rfl, rfl, hupd.mirrored,
    hupd.not_added h.index⟩
  rw [connStep, if_pos htimer]
  exact hok

/-- So does the loop that destroys it. -/
theorem destroyed_outcome (h : Live c ∨ Done c) :
    ∃ c', connStep c .destroyed = .ok c' ∧ c'.state = .kDisconnected ∧ c'.output = c.output ∧
      Mirrored c'.channel c'.epoll ∧ c'.channel.index ≠ kAdded := by
  rcases h with hlive | hdone
  · obtain ⟨ch, ep, hok, hrest⟩ := connectDestroyed_spec hlive.mirrored (Or.inl hlive.toWatched)
    exact ⟨_, hok, rfl, rfl, hrest⟩
  · obtain ⟨ch, ep, hok, hrest⟩ := connectDestroyed_spec hdone.mirrored
      (Or.inr ⟨hdone.state, hdone.index⟩)
    exact ⟨_, hok, rfl, rfl, hrest⟩

/-- **One event under the condition** abandons nothing. -/
theorem softStep_delivers (e : SoftEvent) (h : Live c ∨ Done c) (hgood : FindsRoom c e)
    (hok : softStep c e = .ok c') : Live c' ∨ Done c' := by
  cases e with
  | dispatch revents rs ws ws' now =>
      rw [softStep] at hok
      split at hok
      · rename_i hwithin
        rw [connStep] at hok
        split at hok
        · rename_i hrep
          have hlive : Live c :=
            h.resolve_right fun hd => hd.mirrored.not_registered hd.index hrep.1
          obtain ⟨d, hd, hdeliver, -⟩ := dispatch_outcome rs ws ws' now
            hlive hwithin
          rw [hd] at hok
          cases hok
          exact hdeliver (hgood hrep hwithin)
        · cases hok
          exact h
      · cases hok
        exact h
  | expire =>
      rw [softStep] at hok
      by_cases htimer : 0 < c.timers
      · rcases h with hlive | hdone
        · obtain ⟨d, hd, hs, hout, hm, hi⟩ := expire_outcome hlive htimer
          rw [hd] at hok
          cases hok
          exact Or.inr ⟨hs, hm, hi, hout.trans (hgood htimer)⟩
        · -- the timer of a connection already destroyed aborts the process
          rw [connStep, if_pos htimer, closeLongConnection, handleClose, if_neg (fun hh => by cases hh.2),
            if_pos ⟨by rw [show _ = StateE.kDisconnected from hdone.state]; decide,
              by rw [show _ = StateE.kDisconnected from hdone.state]; decide⟩] at hok
          cases hok
      · rw [connStep, if_neg htimer] at hok
        cases hok
        exact h
  | destroyed =>
      rw [softStep] at hok
      obtain ⟨d, hd, hs, hout, hm, hi⟩ := destroyed_outcome h
      rw [hd] at hok
      cases hok
      exact Or.inr ⟨hs, hm, hi, hout.trans hgood⟩

/-- **One event outside the condition** abandons a response. -/
theorem softStep_abandons (e : SoftEvent) (h : Live c ∨ Done c) (hbad : ¬ FindsRoom c e) :
    ∃ c', softStep c e = .ok c' ∧ ¬ Delivering c' := by
  cases e with
  | dispatch revents rs ws ws' now =>
      rw [FindsRoom, Classical.not_imp, Classical.not_imp] at hbad
      obtain ⟨hrep, hwithin, hroom⟩ := hbad
      have hlive : Live c := h.resolve_right fun hd => hd.mirrored.not_registered hd.index hrep.1
      obtain ⟨d, hd, -, habandon⟩ := dispatch_outcome rs ws ws' now hlive hwithin
      refine ⟨d, ?_, habandon hroom⟩
      rw [softStep, if_pos hwithin, connStep, if_pos hrep]
      exact hd
  | expire =>
      rw [FindsRoom, Classical.not_imp] at hbad
      obtain ⟨htimer, hne⟩ := hbad
      have hlive : Live c := h.resolve_right fun hd => hne hd.sent
      obtain ⟨d, hd, hs, hout, -⟩ := expire_outcome hlive htimer
      exact ⟨d, hd, not_delivering_closed hs (by rw [hout]; exact hne)⟩
  | destroyed =>
      rw [FindsRoom] at hbad
      obtain ⟨d, hd, hs, hout, -⟩ := destroyed_outcome h
      exact ⟨d, hd, not_delivering_closed hs (by rw [hout]; exact hbad)⟩

/-! ### Whole runs -/

/-- **No response is abandoned.**  In every run of a new connection without hard errors, nothing is
abandoned in any state exactly when every event meets the condition. -/
theorem output_delivered_iff (s : NewSocket) :
    ∃ c, s.connection.connectEstablished = .ok c ∧ ∀ events : List SoftEvent,
      (∀ t, ReachedBy softStep c events t → Delivering t) ↔ Along softStep FindsRoom c events := by
  obtain ⟨c, hc, hest⟩ := connectEstablished_spec s
  refine ⟨c, hc, ?_⟩
  intro events
  have hsafe : ∀ d, Live d ∨ Done d → Delivering d :=
    fun d hd => hd.elim Live.delivering Done.delivering
  exact reached_forall_iff hsafe (fun d e d' hd hgood hok => softStep_delivers e hd hgood hok)
    (fun d e hd hbad => softStep_abandons e hd hbad) events (Or.inl hest.live)

/-- A keep-alive request whose response meets a full socket. -/
def fullSocket : SoftEvent :=
  .dispatch EPOLLIN ⟨keepAliveRead, rfl⟩ ⟨[.eagain], by simp⟩ ⟨[], by simp⟩ []

/-- Its response is abandoned. -/
theorem output_abandoned :
    ∃ c t, NewSocket.first.connection.connectEstablished = .ok c ∧
      runFrom softStep c [fullSocket] = .ok t ∧ ¬ Delivering t := by
  obtain ⟨c, hc, hest⟩ := connectEstablished_spec NewSocket.first
  have hbad : ¬ FindsRoom c fullSocket := by
    intro hroom
    have hrep : c.Reports EPOLLIN := by
      refine ⟨hest.mirrored.registered hest.index, ?_⟩
      rw [hest.interest]
      decide
    have hwithin : EPOLLIN.Within c.channel.events := by
      rw [hest.interest]
      decide
    exact absurd ((hroom hrep hwithin).1 (by decide) (by decide)) (Nat.lt_irrefl 0)
  obtain ⟨t, hok, ht⟩ := softStep_abandons fullSocket (Or.inl hest.live) hbad
  refine ⟨c, t, hc, ?_, ht⟩
  rw [runFrom_cons_ok [] hok]
  rfl

end TcpConnection

end WServer
