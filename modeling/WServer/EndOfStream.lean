import WServer.ConnectionHandlers
import WServer.Library.Runs

/-!
# The timing of the end of the stream

The peer sends its bytes and ends the stream.  The end can be found by the reading that delivers the last
bytes, or by a later one; `readFromFd` reports the first as `0` bytes, and the last bytes are then not
parsed.

* `Quiet` — states in which no event of the end of a stream writes anything;
* `last_with_end`, `last_without_end` — the reading of the last bytes, in the two timings;
* `end_of_stream_iff` — when the two timings write the same bytes to the peer.
-/

namespace WServer

namespace TcpConnection

open Library.Runs HttpContext

/-! ### Two timings -/

/-- Pieces delivered one after the other: `read` answers with data, or is interrupted. -/
abbrev Pieces := {rs : ReadScript // .eof ∉ rs ∧ .eagain ∉ rs ∧ .error ∉ rs}

/-- A dispatch without error or hang-up. -/
structure Readiness where
  revents : Events
  within : revents.Within (EPOLLIN ||| EPOLLPRI ||| EPOLLOUT ||| EPOLLET)
  rs : {rs : ReadScript // rs.stop = .eagain}
  ws : WriteScript
  ws' : WriteScript
  now : List UInt8

def Readiness.event (r : Readiness) : ConnEvent := .dispatch r.revents r.rs.1 r.ws r.ws' r.now

/-- The read handler is dispatched, for the answers `rs`. -/
def readable (rs : ReadScript) (ws : WriteScript) (now : List UInt8) : ConnEvent :=
  .dispatch EPOLLIN rs ws [] now

/-- The write handler is dispatched. -/
def writable (ws' : WriteScript) : ConnEvent := .dispatch EPOLLOUT [] [] ws' []

/-- The end of the stream is found by the reading of the last bytes. -/
def endWithBytes (last : Pieces) (ws : WriteScript) (now : List UInt8) (room : List WriteScript) :
    List ConnEvent :=
  readable (last.1 ++ [.eof]) ws now :: room.map writable

/-- The end of the stream is found by a reading of its own. -/
def endLater (last : Pieces) (ws : WriteScript) (now : List UInt8) (room : List WriteScript)
    (ws₁ : WriteScript) (now₁ : List UInt8) : List ConnEvent :=
  readable last.1 ws now :: (room.map writable ++ [readable [.eof] ws₁ now₁])

/-- The bytes the peer gets in a run: those of the last state, if an event does not come to an end. -/
def bytesWritten : TcpConnection → List ConnEvent → List UInt8
  | c, [] => c.sent
  | c, e :: es =>
      match connStep c e with
      | .ok c' => bytesWritten c' es
      | .error _ => c.sent

/-- **The condition.**  There are no last bytes, or no read handler is dispatched for them, or the parser
does not come to an end on them, or the kernel takes no byte in answer to them. -/
def Indifferent (c : TcpConnection) (last : Pieces) (ws : WriteScript) : Prop :=
  last.1.received = [] ∨ ¬ c.Reports EPOLLIN ∨
    (c.context.checkState = .END ∧
      ∃ line rest, LineCut (c.context.inputBuffer.content ++ last.1.received) line rest) ∨
    ¬ ws.Accepts

/-! ### What the readings amount to -/

theorem received_append_eof (rs : ReadScript) (h : .eof ∉ rs ∧ .eagain ∉ rs ∧ .error ∉ rs) :
    ReadScript.stop rs = .eagain ∧ ReadScript.returned (rs ++ [.eof]) = 0 := by
  have hstop : ReadScript.stop rs = .eagain ∧ ReadScript.stop (rs ++ [.eof]) = .eof := by
    induction rs with
    | nil => exact ⟨rfl, rfl⟩
    | cons r rs ih =>
        simp only [List.mem_cons, not_or] at h
        have hrest := ih ⟨h.1.2, h.2.1.2, h.2.2.2⟩
        cases r with
        | data bytes => exact hrest
        | eintr => exact hrest
        | eof => exact absurd rfl h.1.1
        | eagain => exact absurd rfl h.2.1.1
        | error => exact absurd rfl h.2.2.1
  refine ⟨hstop.1, ?_⟩
  rw [ReadScript.returned, hstop.2]

theorem Pieces.returned (last : Pieces) :
    ReadScript.returned last.1 = (ReadScript.received last.1).length := by
  rw [ReadScript.returned, (received_append_eof last.1 last.2).1]

/-! ### The invariant of the runs before -/

/-- Connected and watched, for reading or for writing. -/
structure Serving (c : TcpConnection) : Prop extends Watched c where
  timeout : c.timeout = false
  interest : c.channel.events = Channel.kReadEvent ∨ c.channel.events = Channel.kWriteEvent

/-- Not watched: no event is dispatched any more. -/
structure Shut (c : TcpConnection) : Prop where
  mirrored : Mirrored c.channel c.epoll
  index : c.channel.index ≠ kAdded

/-- A connection in which no event of the end of a stream writes anything. -/
def Quiet (c : TcpConnection) : Prop :=
  (Serving c ∧ c.channel.events = Channel.kReadEvent) ∨ Shut c

variable {c c' : TcpConnection} {rs : ReadScript} {ws ws' : WriteScript} {now : List UInt8}
  {revents : Events} {last : Pieces}

theorem Shut.not_reports (h : Shut c) : ¬ c.Reports revents :=
  fun hrep => h.mirrored.not_registered h.index hrep.1

theorem Serving.reported (h : Serving c) :
    Serving { c with channel := c.channel.setRevents revents } :=
  ⟨⟨h.state, ⟨h.mirrored.index_cases, h.mirrored.kernel⟩, h.index⟩, h.timeout, h.interest⟩

/-- A write leaves the connection served or shut; if it takes nothing, with its interest. -/
theorem WriteOutcome.serving (hw : Watched c) (ht : c.timeout = false)
    (hi : c.channel.events = Channel.kReadEvent ∨ c.channel.events = Channel.kWriteEvent)
    (h : WriteOutcome ws c c') : Serving c' ∨ Shut c' := by
  cases h with
  | partly ch ep _ _ _ hupd =>
      exact Or.inl ⟨⟨hw.state, hupd.mirrored, hupd.added kWriteEvent_ne_zero⟩, ht, Or.inr hupd.events⟩
  | wholly ch ep _ _ _ _ hupd =>
      exact Or.inl ⟨⟨hw.state, hupd.mirrored, hupd.added kReadEvent_ne_zero⟩, ht, Or.inl hupd.events⟩
  | kept _ _ => exact Or.inl ⟨hw.written, ht, hi⟩
  | closed ch ep _ _ hupd => exact Or.inr ⟨hupd.mirrored, hupd.not_added hw.index⟩

/-- What a write has sent: a prefix of the output, of the length the kernel took. -/
theorem WriteOutcome.sent_eq (h : WriteOutcome ws c c') :
    c'.sent = c.sent ++ c.output.take (ws.taken c.output.length) := by
  cases h with
  | partly _ _ _ _ _ _ => exact sent_written ws c
  | wholly _ _ _ _ _ _ _ => exact sent_written ws c
  | kept _ _ => exact sent_written ws c
  | closed _ _ _ _ _ => exact sent_written ws c

/-- A write that takes nothing leaves the connection quiet if it was registered for reading. -/
theorem WriteOutcome.quiet (hw : Watched c) (ht : c.timeout = false)
    (hev : c.channel.events = Channel.kReadEvent) (h0 : ws.taken c.output.length = 0)
    (h : WriteOutcome ws c c') : Quiet c' := by
  cases h with
  | partly _ _ _ htaken _ _ => omega
  | wholly _ _ _ htaken _ _ _ => omega
  | kept _ _ => exact Or.inl ⟨⟨hw.written, ht, Or.inl hev⟩, hev⟩
  | closed ch ep _ _ hupd => exact Or.inr ⟨hupd.mirrored, hupd.not_added hw.index⟩

theorem answered_watched (rs : ReadScript) (context : HttpContext) (h : Serving c) :
    Watched (c.answered rs context) ∧ (c.answered rs context).timeout = false ∧
      (c.answered rs context).channel.events = c.channel.events := by
  refine ⟨h.toWatched.answered context, ?_, ?_⟩
  · rw [answered_timeout]
    exact h.timeout
  · rw [answered_channel]

/-- A read leaves the connection served or shut. -/
theorem ReadOutcome.serving (h : Serving c) (hout : ReadOutcome rs ws now c (.ok c')) :
    Serving c' ∨ Shut c' := by
  cases hout with
  | answers _ _ hwrite =>
      obtain ⟨hw, ht, hev⟩ := answered_watched _ _ h
      exact hwrite.serving hw ht (by rw [hev]; exact h.interest)
  | kept _ _ => exact Or.inl ⟨h.toWatched.drained, h.timeout, h.interest⟩
  | closed ch ep _ _ hupd => exact Or.inr ⟨hupd.mirrored, hupd.not_added h.index⟩

/-- A reading of a connection registered for reading calls the read handler, and no other. -/
theorem readable_step (rs : ReadScript) (ws : WriteScript) (now : List UInt8) (h : Serving c)
    (hrep : c.Reports EPOLLIN) :
    ReadOutcome rs ws now { c with channel := c.channel.setRevents EPOLLIN }
      (connStep c (readable rs ws now)) := by
  set d := ({ c with channel := c.channel.setRevents EPOLLIN } : TcpConnection) with hd
  have hserving : Serving d := h.reported
  have hin : d.channel.revents.has (EPOLLIN ||| EPOLLPRI ||| EPOLLRDHUP) :=
    show EPOLLIN.has (EPOLLIN ||| EPOLLPRI ||| EPOLLRDHUP) by decide
  rw [readable, connStep, if_pos hrep, handleEvent_reads hserving.toWatched hserving.timeout
    (show ¬ (EPOLLIN.has EPOLLHUP ∧ ¬ EPOLLIN.has EPOLLIN) by decide)
    (show ¬ EPOLLIN.has EPOLLERR by decide)
    (show ¬ EPOLLIN.has EPOLLOUT by decide), if_pos hin]
  exact handleRead_spec rs ws now hserving.toWatched hserving.timeout

/-- A connection registered for writing is not reported readable. -/
theorem Serving.reading (h : Serving c) (hrep : c.Reports EPOLLIN) :
    c.channel.events = Channel.kReadEvent := by
  refine h.interest.resolve_right fun hev => ?_
  have hwithin := hrep.2
  rw [hev] at hwithin
  revert hwithin
  decide

/-- **Before the end**, every dispatch leaves the connection served or shut. -/
theorem readiness_step (r : Readiness) (h : Serving c ∨ Shut c)
    (hok : connStep c r.event = .ok c') : Serving c' ∨ Shut c' := by
  rw [Readiness.event, connStep] at hok
  split at hok
  · rename_i hrep
    have hserving : Serving c := h.resolve_right fun hs => hs.not_reports hrep
    have hserving' : Serving { c with channel := c.channel.setRevents r.revents } := hserving.reported
    have hhup : ¬ r.revents.has EPOLLHUP := r.within.not_has (by decide)
    have herr : ¬ r.revents.has EPOLLERR := r.within.not_has (by decide)
    have hwithin := hrep.2
    rcases hserving.interest with hev | hev
    · rw [hev] at hwithin
      rw [handleEvent_reads hserving'.toWatched hserving'.timeout (fun hh => hhup hh.1) herr
        (hwithin.not_has (by decide))] at hok
      split at hok
      · have hspec := handleRead_spec r.rs.1 r.ws r.now hserving'.toWatched hserving'.timeout
        rw [hok] at hspec
        exact hspec.serving hserving'
      · cases hok
        exact Or.inl hserving'
    · rw [hev] at hwithin
      rw [handleEvent_writes hhup herr (hwithin.not_has (by decide))] at hok
      split at hok
      · obtain ⟨d, hd, hspec⟩ := handleWrite_spec r.ws' hserving'.toWatched hserving'.timeout
        rw [hd] at hok
        cases hok
        exact hspec.serving hserving'.toWatched hserving'.timeout (Or.inr hev)
      · cases hok
        exact Or.inl hserving'
  · cases hok
    exact h

/-! ### Room for writing, and the end of the stream -/

/-- Room for writing is not reported to a quiet connection. -/
theorem Quiet.writable (h : Quiet c) : connStep c (writable ws') = .ok c := by
  rw [TcpConnection.writable, connStep, if_neg]
  rintro ⟨hreg, hwithin⟩
  rcases h with ⟨_, hev⟩ | hshut
  · rw [hev] at hwithin
    revert hwithin
    decide
  · exact hshut.mirrored.not_registered hshut.index hreg

/-- Room for writing that is reported calls the write handler, and no other. -/
theorem writable_outcome (ws' : WriteScript) (h : Serving c) (hrep : c.Reports EPOLLOUT) :
    ∃ c', connStep c (writable ws') = .ok c' ∧
      WriteOutcome ws' { c with channel := c.channel.setRevents EPOLLOUT } c' := by
  set d := ({ c with channel := c.channel.setRevents EPOLLOUT } : TcpConnection) with hd
  have hreported : Serving d := h.reported
  have hout : d.channel.revents.has EPOLLOUT := show EPOLLOUT.has EPOLLOUT by decide
  rw [TcpConnection.writable, connStep, if_pos hrep,
    handleEvent_writes (show ¬ EPOLLOUT.has EPOLLHUP by decide)
      (show ¬ EPOLLOUT.has EPOLLERR by decide)
      (show ¬ EPOLLOUT.has (EPOLLIN ||| EPOLLPRI ||| EPOLLRDHUP) by decide), if_pos hout]
  exact handleWrite_spec ws' hreported.toWatched hreported.timeout

/-- Room for writing makes a connection write, and takes nothing back. -/
theorem writable_step (ws' : WriteScript) (h : Serving c ∨ Shut c) :
    ∃ c', connStep c (writable ws') = .ok c' ∧ (Serving c' ∨ Shut c') ∧ c.sent <+: c'.sent := by
  by_cases hrep : c.Reports EPOLLOUT
  · have hserving : Serving c := h.resolve_right fun hs => hs.not_reports hrep
    have hreported : Serving { c with channel := c.channel.setRevents EPOLLOUT } := hserving.reported
    obtain ⟨c', hok, hspec⟩ := writable_outcome ws' hserving hrep
    refine ⟨c', hok, hspec.serving hreported.toWatched hreported.timeout hreported.interest, ?_⟩
    rw [hspec.sent_eq]
    exact List.prefix_append _ _
  · refine ⟨c, ?_, h, List.prefix_rfl⟩
    rw [TcpConnection.writable, connStep, if_neg hrep]

/-- A reading that returns `0` writes nothing, and leaves the connection quiet if it is reported. -/
theorem readable_nothing (ws : WriteScript) (now : List UInt8) (h : Serving c ∨ Shut c)
    (h0 : ¬ 0 < rs.returned) :
    ∃ c', connStep c (readable rs ws now) = .ok c' ∧ (c.Reports EPOLLIN → Quiet c') ∧
      c'.sent = c.sent := by
  by_cases hrep : c.Reports EPOLLIN
  · have hserving : Serving c := h.resolve_right fun hs => hs.not_reports hrep
    have hread := hserving.reading hrep
    have hspec := readable_step rs ws now hserving hrep
    generalize connStep c (readable rs ws now) = res at hspec
    have hreported : Serving { c with channel := c.channel.setRevents EPOLLIN } := hserving.reported
    cases hspec with
    | loops hpos _ => exact absurd hpos h0
    | answers hpos _ _ => exact absurd hpos h0
    | kept _ _ =>
        exact ⟨_, rfl, fun _ => Or.inl ⟨⟨hreported.toWatched.drained, hreported.timeout, Or.inl hread⟩,
          hread⟩, rfl⟩
    | closed ch ep _ _ hupd =>
        exact ⟨_, rfl, fun _ => Or.inr ⟨hupd.mirrored, hupd.not_added hreported.index⟩, rfl⟩
  · refine ⟨c, ?_, fun hh => absurd hh hrep, rfl⟩
    rw [readable, connStep, if_neg hrep]

theorem bytesWritten_ok {e : ConnEvent} (es : List ConnEvent) (h : connStep c e = .ok c') :
    bytesWritten c (e :: es) = bytesWritten c' es := by
  rw [bytesWritten, h]

theorem bytesWritten_error {e : ConnEvent} {stop : Stop} (es : List ConnEvent)
    (h : connStep c e = .error stop) : bytesWritten c (e :: es) = c.sent := by
  rw [bytesWritten, h]

theorem end_returns_nothing : ¬ 0 < ReadScript.returned [.eof] := Int.lt_irrefl 0

/-- The end of the stream alone writes nothing. -/
theorem bytesWritten_end (h : Serving c ∨ Shut c) (room : List WriteScript) :
    bytesWritten c (room.map writable ++ [readable [.eof] ws now])
      = bytesWritten c (room.map writable) := by
  induction room generalizing c with
  | nil =>
      obtain ⟨d, hd, -, hsent⟩ := readable_nothing ws now h end_returns_nothing
      rw [List.map_nil, List.nil_append, bytesWritten_ok [] hd]
      exact hsent
  | cons ws' room ih =>
      obtain ⟨d, hd, hserved, -⟩ := writable_step ws' h
      rw [List.map_cons, List.cons_append, bytesWritten_ok _ hd, bytesWritten_ok _ hd, ih hserved]

/-- Room for writing takes nothing back. -/
theorem bytesWritten_grows (h : Serving c ∨ Shut c) (room : List WriteScript) :
    c.sent <+: bytesWritten c (room.map writable) := by
  induction room generalizing c with
  | nil => exact List.prefix_rfl
  | cons ws' room ih =>
      obtain ⟨d, hd, hserved, hsent⟩ := writable_step ws' h
      rw [List.map_cons, bytesWritten_ok _ hd]
      exact hsent.trans (ih hserved)

/-- Room for writing makes a quiet connection write nothing. -/
theorem Quiet.bytesWritten_eq (h : Quiet c) (room : List WriteScript) :
    bytesWritten c (room.map TcpConnection.writable) = c.sent := by
  induction room with
  | nil => rfl
  | cons ws' room ih =>
      rw [List.map_cons, bytesWritten_ok _ h.writable]
      exact ih

theorem Quiet.served (h : Quiet c) : Serving c ∨ Shut c := h.imp_left And.left

/-! ### The reading of the last bytes -/

/-- **With the end**, the last bytes are not parsed, and nothing is written. -/
theorem last_with_end (h : Serving c ∨ Shut c) (hrep : c.Reports EPOLLIN) (room : List WriteScript) :
    bytesWritten c (endWithBytes last ws now room) = c.sent := by
  have h0 : ¬ 0 < ReadScript.returned (last.1 ++ [.eof]) := by
    rw [(received_append_eof last.1 last.2).2]
    exact Int.lt_irrefl 0
  obtain ⟨d, hd, hquiet, hsent⟩ := readable_nothing ws now h h0
  rw [endWithBytes, bytesWritten_ok _ hd]
  exact ((hquiet hrep).bytesWritten_eq room).trans hsent

/-- **Without the end**, the last bytes are parsed and answered: nothing is written if there are none, if
the parser does not come to an end, or if the kernel takes nothing. -/
theorem last_without_end (h : Serving c) (hrep : c.Reports EPOLLIN) (room : List WriteScript)
    {ws₁ : WriteScript} {now₁ : List UInt8} :
    bytesWritten c (endLater last ws now room ws₁ now₁) = c.sent ↔
      last.1.received = [] ∨
        (c.context.checkState = .END ∧
          ∃ line rest, LineCut (c.context.inputBuffer.content ++ last.1.received) line rest) ∨
        ¬ ws.Accepts := by
  set d := ({ c with channel := c.channel.setRevents EPOLLIN } : TcpConnection) with hd
  have hreported : Serving d := h.reported
  have hread : d.channel.events = Channel.kReadEvent := h.reading hrep
  by_cases hnil : last.1.received = []
  · -- nothing to parse
    have h0 : ¬ 0 < ReadScript.returned last.1 := by
      rw [Pieces.returned, hnil]
      exact Int.lt_irrefl 0
    obtain ⟨c', hok, hquiet, hsent⟩ := readable_nothing ws now (Or.inl h) h0
    refine iff_of_true ?_ (Or.inl hnil)
    rw [endLater, bytesWritten_ok _ hok, bytesWritten_end (hquiet hrep).served]
    exact ((hquiet hrep).bytesWritten_eq room).trans hsent
  · have hlen := List.length_pos_of_ne_nil hnil
    have hpos : 0 < ReadScript.returned last.1 := by
      rw [Pieces.returned]
      omega
    have hin : (d.drained last.1).context.inputBuffer.content
        = c.context.inputBuffer.content ++ last.1.received :=
      Buffer.content_readFromFd last.1 c.context.inputBuffer
    have hspec := readable_step last.1 ws now h hrep
    cases hres : connStep c (readable last.1 ws now) with
    | error stop =>
        rw [hres] at hspec
        cases hspec with
        | loops _ hwork =>
            refine iff_of_true (bytesWritten_error _ hres) (Or.inr (Or.inl ?_))
            rw [work, Option.map_eq_none_iff, handleHttpRequest_eq_none_iff, hin] at hwork
            exact hwork
    | ok c' =>
        rw [hres] at hspec
        rw [endLater, bytesWritten_ok _ hres]
        cases hspec with
        | kept hn _ => exact absurd hpos hn
        | closed _ _ hn _ _ => exact absurd hpos hn
        | @answers context _ _ hwork hwrite =>
            obtain ⟨e, he, -⟩ := work_some hwork
            obtain ⟨hw, ht, hev⟩ := answered_watched last.1 context hreported
            rw [hread] at hev
            have hnotloop : ¬ (c.context.checkState = .END ∧
                ∃ line rest, LineCut (c.context.inputBuffer.content ++ last.1.received) line rest) := by
              rw [← hin]
              intro hloop
              have hnone := (handleHttpRequest_eq_none_iff (d.drained last.1).context).mpr hloop
              rw [hnone] at he
              cases he
            have hout : 0 < (d.answered last.1 context).output.length := by
              rw [answered_output]
              exact work_output_pos hwork
            have hsent : c'.sent = c.sent ++ (d.answered last.1 context).output.take
                (ws.taken (d.answered last.1 context).output.length) :=
              hwrite.sent_eq.trans (congrArg (· ++ _) (startKeepAlive_sent _))
            have hserved := hwrite.serving hw ht (Or.inl hev)
            rw [bytesWritten_end hserved]
            rcases Nat.eq_zero_or_pos (ws.taken (d.answered last.1 context).output.length) with h0 | htaken
            · have hquiet := hwrite.quiet hw ht hev h0
              have hrefuses : ¬ ws.Accepts := by
                rw [ws.accepts_iff hout]
                omega
              refine iff_of_true ?_ (Or.inr (Or.inr hrefuses))
              rw [hquiet.bytesWritten_eq, hsent, h0, List.take_zero, List.append_nil]
            · refine iff_of_false (fun heq => ?_) ?_
              · -- what was sent in answer is still there
                have hprefix := (bytesWritten_grows hserved room).length_le
                rw [heq, hsent, List.length_append, List.length_take] at hprefix
                omega
              · rintro (hh | hh | hh)
                · exact hnil hh
                · exact hnotloop hh
                · exact hh ((ws.accepts_iff hout).mpr htaken)

/-- **Both timings**, from a state of a run. -/
theorem end_of_stream_at (h : Serving c ∨ Shut c) (room : List WriteScript) (ws₁ : WriteScript)
    (now₁ : List UInt8) :
    bytesWritten c (endWithBytes last ws now room)
        = bytesWritten c (endLater last ws now room ws₁ now₁) ↔ Indifferent c last ws := by
  by_cases hrep : c.Reports EPOLLIN
  · have hserving : Serving c := h.resolve_right fun hs => hs.not_reports hrep
    rw [last_with_end h hrep, eq_comm, last_without_end hserving hrep, Indifferent]
    simp only [hrep, not_true_eq_false, false_or]
  · refine iff_of_true ?_ (Or.inr (Or.inl hrep))
    have hskip : ∀ rs, connStep c (readable rs ws now) = .ok c := by
      intro rs
      rw [readable, connStep, if_neg hrep]
    rw [endWithBytes, endLater, bytesWritten_ok _ (hskip _), bytesWritten_ok _ (hskip _),
      bytesWritten_end h]

/-! ### Whole runs -/

theorem bytesWritten_append {t : TcpConnection} {es : List ConnEvent} (fs : List ConnEvent)
    (h : runFrom connStep c es = .ok t) : bytesWritten c (es ++ fs) = bytesWritten t fs := by
  induction es generalizing c with
  | nil =>
      rw [runFrom_nil] at h
      cases h
      rfl
  | cons e es ih =>
      obtain ⟨d, hd, hrest⟩ := runFrom_cons_eq_ok h
      rw [List.cons_append, bytesWritten_ok _ hd]
      exact ih hrest

/-- Nothing is written behind an event that does not come to an end. -/
theorem bytesWritten_append_error {stop : Stop} {es : List ConnEvent} (fs gs : List ConnEvent)
    (h : runFrom connStep c es = .error stop) :
    bytesWritten c (es ++ fs) = bytesWritten c (es ++ gs) := by
  induction es generalizing c with
  | nil => cases h
  | cons e es ih =>
      cases he : connStep c e with
      | error stop' =>
          rw [List.cons_append, List.cons_append, bytesWritten_error _ he, bytesWritten_error _ he]
      | ok d =>
          rw [runFrom_cons_ok es he] at h
          rw [List.cons_append, List.cons_append, bytesWritten_ok _ he, bytesWritten_ok _ he]
          exact ih h

/-- **The timing of the end.**  On a new connection, after any dispatches without error and hang-up, the
peer gets the same bytes in both timings exactly when the last bytes are indifferent. -/
theorem end_of_stream_iff (s : NewSocket) :
    ∃ c, s.connection.connectEstablished = .ok c ∧
      ∀ (before : List Readiness) (last : Pieces) (ws : WriteScript) (now : List UInt8)
        (room : List WriteScript) (ws₁ : WriteScript) (now₁ : List UInt8),
        bytesWritten c (before.map Readiness.event ++ endWithBytes last ws now room)
            = bytesWritten c (before.map Readiness.event ++ endLater last ws now room ws₁ now₁) ↔
          ∀ t, runFrom connStep c (before.map Readiness.event) = .ok t → Indifferent t last ws := by
  obtain ⟨c, hc, hest⟩ := connectEstablished_spec s
  refine ⟨c, hc, ?_⟩
  intro before last ws now room ws₁ now₁
  have hstart : Serving c ∨ Shut c := Or.inl ⟨hest.toWatched, hest.timeout, Or.inl hest.interest⟩
  have hrun : ∀ (before : List Readiness) (c t : TcpConnection), Serving c ∨ Shut c →
      runFrom connStep c (before.map Readiness.event) = .ok t → Serving t ∨ Shut t := by
    intro before
    induction before with
    | nil =>
        intro c t h hok
        rw [List.map_nil, runFrom_nil] at hok
        cases hok
        exact h
    | cons r before ih =>
        intro c t h hok
        obtain ⟨d, hd, hrest⟩ := runFrom_cons_eq_ok hok
        exact ih d t (readiness_step r h hd) hrest
  cases hres : runFrom connStep c (before.map Readiness.event) with
  | error stop => exact iff_of_true (bytesWritten_append_error _ _ hres) fun t ht => nomatch ht
  | ok t =>
      rw [bytesWritten_append _ hres, bytesWritten_append _ hres,
        end_of_stream_at (hrun before c t hstart hres)]
      exact ⟨fun h u hu => by cases hu; exact h, fun h => h t rfl⟩

/-- The pieces of a request that arrives whole. -/
def keepAlivePieces : Pieces := ⟨keepAliveRead, by simp [keepAliveRead]⟩

/-- The request is answered only if the end of the stream comes later. -/
theorem end_of_stream_shows :
    ∃ c, NewSocket.first.connection.connectEstablished = .ok c ∧
      bytesWritten c (endWithBytes keepAlivePieces [.count 1] [] [])
        ≠ bytesWritten c (endLater keepAlivePieces [.count 1] [] [] [] []) := by
  obtain ⟨c, hc, hest⟩ := connectEstablished_spec NewSocket.first
  refine ⟨c, hc, ?_⟩
  intro heq
  have hstart : Serving c ∨ Shut c := Or.inl ⟨hest.toWatched, hest.timeout, Or.inl hest.interest⟩
  rcases (end_of_stream_at hstart [] [] []).mp heq with hnil | hnot | ⟨hend, _⟩ | hrefuses
  · revert hnil
    decide
  · refine hnot ⟨hest.mirrored.registered hest.index, ?_⟩
    rw [hest.interest]
    decide
  · rw [hest.context] at hend
    cases hend
  · exact hrefuses (show 0 < WriteScript.taken [.count 1] 1 by decide)

end TcpConnection

end WServer
