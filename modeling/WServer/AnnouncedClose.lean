import WServer.ConnectionMode
import WServer.HeadRequest
import WServer.TalkingConnection

/-!
# The close a response announces

Every response but one tells the peer `Connection: close`.  `getHttpResponse` writes the header by the
state of the request and its URI; whether the connection is closed is decided by `handleWrite` and
`handleClose`, by what the requests asked for.

* `announcesClose_response` — the responses that announce the close;
* `completes_closes` — a response written completely closes the connection exactly when no request has
  asked to keep it;
* `announced_close_iff` — the same on whole runs.
-/

namespace WServer

open Library.Runs

/-! ### What a response announces -/

namespace HttpContext

/-- The header line. -/
def closeLine : List UInt8 := ascii "Connection: close\r\n"

/-- The header is in the head of the answer. -/
def AnnouncesClose (answer : List UInt8) : Prop :=
  ∃ head body, splitHead answer = some (head, body) ∧ closeLine <:+: head

/-- An answer whose head ends with its only empty line announces the close if the head has the header. -/
theorem announcesClose_append {version : HTTP_VERSION} {head : List UInt8} (body : List UInt8)
    (h : splitHead (versionText version ++ head) = some (versionText version ++ head, [])) :
    AnnouncesClose (versionText version ++ (head ++ body)) ↔ closeLine <:+: versionText version ++ head := by
  have hsplit := splitHead_append h body
  rw [List.append_assoc, List.nil_append] at hsplit
  constructor
  · rintro ⟨head', body', hsplit', hline⟩
    rw [hsplit] at hsplit'
    cases hsplit'
    exact hline
  · exact fun hline => ⟨_, _, hsplit, hline⟩

theorem closeLine_within (first head tail : List UInt8) : closeLine <:+: first ++ (head ++ closeLine ++ tail) :=
  ⟨first ++ head, tail, by simp only [List.append_assoc]⟩

/-- Of the answers to a complete request, the one that nothing has been found for does not announce it. -/
theorem announcesClose_answer (version : HTTP_VERSION) (uri now : List UInt8) :
    AnnouncesClose (versionText version ++ answerText uri now) ↔ HasBody uri := by
  obtain ⟨head, hhead, body, hsplit, -, hfound⟩ := answerText_split uri now
  rw [hsplit, announcesClose_append body (splitHead_heads version hhead), ← not_iff_not, ← hfound]
  simp only [List.mem_cons, List.not_mem_nil, or_false] at hhead
  rcases hhead with rfl | rfl | rfl | rfl
  · exact iff_of_false (not_not_intro (closeLine_within _ _ _)) (by decide)
  · refine iff_of_false (not_not_intro ?_) (by decide)
    rw [faviconHead, List.append_assoc _ (ascii "Header: QWQ-SERVER\r\n")]
    exact closeLine_within _ _ _
  · refine iff_of_false (not_not_intro ?_) (by decide)
    rw [helloHead, List.append_assoc _ (ascii "Header: QWQ-SERVER\r\n")]
    exact closeLine_within _ _ _
  · refine iff_of_true ?_ rfl
    cases version <;> decide

/-- **Which responses announce the close**: those to requests that are incomplete or bad, and those with a
body. -/
theorem announcesClose_response (version : HTTP_VERSION) (state : REQUEST_STATE) (uri now : List UInt8) :
    AnnouncesClose (response version state uri now) ↔
      state = .NO_REQUEST ∨ state = .BAD_REQUEST ∨ (state = .GET_REQUEST ∧ HasBody uri) := by
  -- a response without a body
  have hplain : ∀ text : List UInt8, splitHead text = some (text, []) →
      (AnnouncesClose (versionText version ++ text) ↔ closeLine <:+: versionText version ++ text) := by
    intro text h
    rw [← announcesClose_append [] (splitHead_version version h), List.append_nil]
  have hbad : AnnouncesClose (versionText version ++ badRequestText) :=
    (hplain badRequestText rfl).mpr (closeLine_within _ _ _)
  cases state with
  | GET_REQUEST => simpa [response] using announcesClose_answer version uri now
  | NO_REQUEST => exact iff_of_true hbad (Or.inl rfl)
  | BAD_REQUEST => exact iff_of_true hbad (Or.inr (Or.inl rfl))
  | FORBIDDEN_REQUEST =>
      refine iff_of_false (fun h => ?_) (by simp)
      rw [response, hplain _ rfl] at h
      revert h
      cases version <;> decide
  | INTERNAL_ERROR =>
      refine iff_of_false (fun h => ?_) (by simp)
      rw [response, hplain _ rfl] at h
      revert h
      cases version <;> decide
  | CLOSED_CONNECTION =>
      refine iff_of_false ?_ (by simp)
      rintro ⟨head, body, h, -⟩
      rw [response, splitHead_without_cr (by cases version <;> decide)] at h
      cases h

end HttpContext

namespace TcpConnection

open HttpContext

/-! ### A request and the writing of its response -/

/-- A reading that is reported without an error, and the room for writing reported after it. -/
structure Transaction where
  revents : Events
  readable : revents.has EPOLLIN
  noError : ¬ revents.has EPOLLERR
  rs : ReadScript
  ws : WriteScript
  now : List UInt8
  room : List WriteScript

namespace Transaction

/-- The event of the reading. -/
def reading (x : Transaction) : ConnEvent := .dispatch x.revents x.rs x.ws [] x.now

def events (x : Transaction) : List ConnEvent := x.reading :: x.room.map writable

/-- The bytes read are processed, and `answer` is the response to them. -/
def Answers (x : Transaction) (c : TcpConnection) (answer : List UInt8) : Prop :=
  c.Reports x.revents ∧ 0 < x.rs.returned ∧ ∃ context, (c.drained x.rs).context.work x.now = some context ∧
    context.outputBuffer.content = c.output ++ answer

/-- The events end in `t`, and the peer has got everything up to the end of the response. -/
def Completes (x : Transaction) (c : TcpConnection) (answer : List UInt8) (t : TcpConnection) : Prop :=
  runFrom connStep c x.events = .ok t ∧ t.sent = c.sent ++ (c.output ++ answer)

/-- The connection is kept for a request read before, or for the one read now. -/
def KeptAlive (x : Transaction) (c : TcpConnection) : Prop :=
  c.alive = true ∨ AsksKeepAlive (c.drained x.rs).context

end Transaction

variable {c c' : TcpConnection} {rs : ReadScript} {ws ws' : WriteScript} {now : List UInt8}
  {revents : Events}

/-! ### The writing of a response -/

variable {x : Transaction} {answer : List UInt8} {t : TcpConnection}

/-- The reading of a transaction calls the read handler, and no other. -/
theorem Transaction.reading_outcome (x : Transaction) (h : Talking c) (hrep : c.Reports x.revents) :
    ReadOutcome x.rs x.ws x.now { c with channel := c.channel.setRevents x.revents }
      (connStep c x.reading) := by
  set d := ({ c with channel := c.channel.setRevents x.revents } : TcpConnection) with hd
  have hreported : Talking d := h.reported
  have hread : c.channel.events = Channel.kReadEvent := by
    refine h.interest.resolve_right fun hev => ?_
    have hwithin := hrep.2
    rw [hev] at hwithin
    exact hwithin.not_has (by decide) x.readable
  have hwithin := hrep.2
  rw [hread] at hwithin
  have hin : d.channel.revents.has (EPOLLIN ||| EPOLLPRI ||| EPOLLRDHUP) :=
    Events.has_mono x.readable (by decide)
  rw [Transaction.reading, connStep, if_pos hrep, handleEvent_reads hreported.toWatched hreported.timeout
    (fun hhup => hhup.2 x.readable) x.noError (hwithin.not_has (by decide)), if_pos hin]
  exact handleRead_spec x.rs x.ws x.now hreported.toWatched hreported.timeout

/-- **The reading**, up to the write behind it: the response is in the output of a connection that is a
long one exactly if a request has asked for it. -/
theorem Transaction.Answers.written (h : Talking c) (hans : x.Answers c answer) :
    ∃ d c', connStep c x.reading = .ok c' ∧ WriteOutcome x.ws d c' ∧ Talking d ∧
      d.output = c.output ++ answer ∧ d.sent = c.sent ∧ (d.alive = true ↔ x.KeptAlive c) := by
  obtain ⟨hrep, hpos, context, hwork, hout⟩ := hans
  have hspec := x.reading_outcome h hrep
  have hreported : Talking { c with channel := c.channel.setRevents x.revents } := h.reported
  generalize connStep c x.reading = res at hspec
  cases hspec with
  | loops _ hnone => cases hnone.symm.trans hwork
  | kept hn _ => exact absurd hpos hn
  | closed _ _ hn _ _ => exact absurd hpos hn
  | @answers context' c' _ hwork' hwrite =>
      obtain rfl : context' = context := Option.some.inj (hwork'.symm.trans hwork)
      refine ⟨_, c', rfl, hwrite, hreported.answered context', ?_, ?_, ?_⟩
      · rw [answered_output]
        exact hout
      · rw [answered_sent]
      · obtain ⟨e, he, rfl⟩ := work_some hwork
        have hmode : (e.getHttpResponse x.now).isKeepAlive = true ↔
            c.context.isKeepAlive = true ∨ AsksKeepAlive (c.drained x.rs).context :=
          handleHttpRequest_keepAlive he
        rw [answered_alive, Bool.or_eq_true_iff, Transaction.KeptAlive]
        show c.alive = true ∨ (e.getHttpResponse x.now).isKeepAlive = true ↔ _
        rw [hmode]
        cases ha : c.alive with
        | true => simp
        | false => simp [h.mode ha]

/-- A write of a long connection leaves it connected. -/
theorem WriteOutcome.long (h : Talking c) (ha : c.alive = true) (hout : WriteOutcome ws c c') :
    Talking c' ∧ c'.alive = true := by
  have htalks := hout.talks h
  cases hout with
  | partly _ _ _ _ _ _ => exact ⟨htalks h.state, ha⟩
  | wholly _ _ _ _ _ _ _ => exact ⟨htalks h.state, ha⟩
  | kept _ _ => exact ⟨htalks h.state, ha⟩
  | closed _ _ _ hn _ =>
      rw [ha] at hn
      cases hn

/-- A short connection on its way: some of `total` has not been sent, or the connection is closed. -/
def Closing (total : List UInt8) (c : TcpConnection) : Prop :=
  (Talking c ∧ c.alive = false ∧ c.output ≠ [] ∧ c.sent ++ c.output = total) ∨
    (c.state = .kDisconnected ∧ Shut c)

/-- A write of a short connection closes it, or leaves a part of the output. -/
theorem WriteOutcome.short (h : Talking c) (ha : c.alive = false) (hout : WriteOutcome ws c c') :
    Closing (c.sent ++ c.output) c' := by
  have htalks := hout.talks h
  cases hout with
  | partly ch ep _ _ hlt _ =>
      refine Or.inl ⟨htalks h.state, ha, ?_, ?_⟩
      · show (c.written ws).output ≠ []
        rw [output_written, ne_eq, List.drop_eq_nil_iff]
        omega
      · show (c.written ws).sent ++ (c.written ws).output = _
        rw [sent_written, output_written, List.append_assoc, List.take_append_drop]
  | wholly _ _ _ _ _ hn _ =>
      rw [ha] at hn
      cases hn
  | kept _ hn =>
      rw [ha] at hn
      cases hn
  | closed ch ep _ _ hupd => exact Or.inr ⟨rfl, hupd.mirrored, hupd.not_added h.index⟩

/-- Room for writing, as far as one kind of state is concerned. -/
theorem writable_run {P : TcpConnection → Prop}
    (hstep : ∀ c c' ws, P c → connStep c (writable ws) = .ok c' → P c') {room : List WriteScript}
    (h : P c) (hrun : runFrom connStep c (room.map writable) = .ok t) : P t := by
  induction room generalizing c with
  | nil =>
      rw [List.map_nil, runFrom_nil] at hrun
      cases hrun
      exact h
  | cons ws room ih =>
      rw [List.map_cons] at hrun
      obtain ⟨d, hd, hrest⟩ := runFrom_cons_eq_ok hrun
      exact ih (hstep c d ws h hd) hrest

theorem writable_long (c c' : TcpConnection) (ws : WriteScript) (h : Talking c ∧ c.alive = true)
    (hok : connStep c (writable ws) = .ok c') : Talking c' ∧ c'.alive = true := by
  obtain ⟨htalking, ha⟩ := h
  by_cases hrep : c.Reports EPOLLOUT
  · have hreported : Talking { c with channel := c.channel.setRevents EPOLLOUT } := htalking.reported
    obtain ⟨d, hd, hout⟩ := writable_outcome ws htalking.toServing hrep
    rw [hd] at hok
    cases hok
    exact hout.long hreported ha
  · rw [writable, connStep, if_neg hrep] at hok
    cases hok
    exact ⟨htalking, ha⟩

theorem writable_short {total : List UInt8} (c c' : TcpConnection) (ws : WriteScript)
    (h : Closing total c) (hok : connStep c (writable ws) = .ok c') : Closing total c' := by
  by_cases hrep : c.Reports EPOLLOUT
  · rcases h with ⟨htalking, ha, -, rfl⟩ | ⟨-, hshut⟩
    · have hreported : Talking { c with channel := c.channel.setRevents EPOLLOUT } := htalking.reported
      obtain ⟨d, hd, hout⟩ := writable_outcome ws htalking.toServing hrep
      rw [hd] at hok
      cases hok
      have hclosing := hout.short hreported ha
      exact hclosing
    · exact absurd hrep hshut.not_reports
  · rw [writable, connStep, if_neg hrep] at hok
    cases hok
    exact h

/-- **The close**: a response written completely closes the connection exactly when no request has asked
to keep it. -/
theorem completes_closes (h : Talking c) (hans : x.Answers c answer) (hdone : x.Completes c answer t) :
    t.state = .kDisconnected ↔ ¬ x.KeptAlive c := by
  obtain ⟨hrun, hsent⟩ := hdone
  obtain ⟨d, c', hreading, hout, htalking, houtput, hsent', hkept⟩ := hans.written h
  obtain ⟨c₁, hc₁, hroom⟩ := runFrom_cons_eq_ok hrun
  rw [hreading] at hc₁
  cases hc₁
  rw [← hkept, Bool.not_eq_true]
  cases ha : d.alive with
  | true =>
      obtain ⟨htalks, -⟩ := writable_run writable_long (hout.long htalking ha) hroom
      rw [htalks.state]
      decide
  | false =>
      have hclosing := writable_run writable_short (hout.short htalking ha) hroom
      rcases hclosing with ⟨-, -, hleft, htotal⟩ | ⟨hstate, -⟩
      · -- everything has been sent, so nothing is left
        rw [hsent, hsent', houtput, List.append_right_eq_self] at htotal
        exact absurd htotal hleft
      · exact iff_of_true hstate rfl

/-! ### Whole runs -/

/-- **Announced and done.**  On a new connection, after any events, a response that announces the close and
is written completely closes the connection exactly when no request has asked to keep it. -/
theorem announced_close_iff (s : NewSocket) (c₀ c t : TcpConnection) (before : List ConnEvent)
    (x : Transaction) (answer : List UInt8) (hstart : s.connection.connectEstablished = .ok c₀)
    (hrun : runFrom connStep c₀ before = .ok c) (hconnected : c.state = .kConnected)
    (hans : x.Answers c answer) (hdone : x.Completes c answer t) :
    AnnouncesClose answer → (t.state = .kDisconnected ↔ ¬ x.KeptAlive c) := by
  obtain ⟨d, hd, hest⟩ := connectEstablished_spec s
  rw [hstart] at hd
  cases hd
  exact fun _ => completes_closes (talks_run hest hrun hconnected) hans hdone

/-! ### Two requests -/

/-- A request that arrives in one piece on a new connection, and whose response is written at once. -/
structure Prompt (x : Transaction) (r : Request) : Prop where
  revents : x.revents = EPOLLIN
  delivers : Delivers x.rs r.bytes
  takes : x.ws.TakesAll (response r.version .GET_REQUEST r.uri x.now).length
  room : x.room = []

/-- It is answered, the response is written completely, and it asks to keep the connection if one of its
headers does. -/
theorem Prompt.completes {r : Request} (hx : Prompt x r) (h : Established c) (hcons : r.Consistent) :
    x.Answers c (response r.version .GET_REQUEST r.uri x.now) ∧
      (∃ t, x.Completes c (response r.version .GET_REQUEST r.uri x.now) t) ∧
      (x.KeptAlive c ↔ ∃ header ∈ r.headers, IsKeepAliveHeader header) := by
  have hin : c.context.inputBuffer.content = [] := by rw [h.context]; exact Buffer.content_init
  have hout : c.output = [] := by rw [output, h.context]; exact Buffer.content_init
  have hcs : c.context.checkState = .REQUEST_LINE := by rw [h.context]; rfl
  have hmode : c.context.connection = .CLOSE := by rw [h.context]; rfl
  obtain ⟨e, he, hread⟩ := parse_request (c := (c.drained x.rs).context) r [] hcons hcs
    (by rw [hx.delivers.drained hin, List.append_nil])
  have hans : x.Answers c (response r.version .GET_REQUEST r.uri x.now) := by
    refine ⟨⟨h.mirrored.registered h.index, ?_⟩, ?_, e.getHttpResponse x.now, by rw [work, he]; rfl, ?_⟩
    · rw [h.interest, hx.revents]
      decide
    · rw [hx.delivers.returned]
      have := r.bytes_pos
      omega
    · rw [content_getHttpResponse x.now he, hread.version, hread.complete, hread.uri]
      rfl
  refine ⟨hans, ?_, ?_⟩
  · obtain ⟨d, c', hreading, hwrite, -, houtput, hsent, -⟩ := hans.written h.talking
    rw [hout, List.nil_append] at houtput
    refine ⟨c', ?_, ?_⟩
    · rw [Transaction.events, hx.room, List.map_nil, runFrom_cons_ok [] hreading, runFrom_nil]
    · rw [hwrite.sent_eq, hsent, houtput, hx.takes.2, List.take_length, hout, List.nil_append]
  · have hkeep := handleHttpRequest_keepAlive he
    rw [isKeepAlive_iff, isKeepAlive_iff, hread.connection, Request.connectionFrom] at hkeep
    have hclose : (c.drained x.rs).context.connection = .CLOSE := hmode
    rw [Transaction.KeptAlive, h.alive]
    rw [hclose] at hkeep
    split_ifs at hkeep with hasks
    · simpa [hasks] using hkeep
    · simpa [hasks] using hkeep

/-- `GET / HTTP/1.1` without headers, answered at once. -/
def plainTransaction : Transaction where
  revents := EPOLLIN
  readable := by decide
  noError := by decide
  rs := [.data ⟨rootRequest.bytes, by decide⟩]
  ws := [.count (response .HTTP_1_1 .GET_REQUEST (ascii "/") []).length]
  now := []
  room := []

/-- The same with the header `Connection: Keep-Alive`. -/
def keepAliveTransaction : Transaction := { plainTransaction with rs := keepAliveRead }

theorem plainTransaction_prompt : Prompt plainTransaction rootRequest.toRequest :=
  ⟨rfl, ⟨List.append_nil _, rfl⟩, WriteScript.takesAll_count (Nat.le_refl _), rfl⟩

theorem keepAliveTransaction_prompt : Prompt keepAliveTransaction keepAliveRequest :=
  ⟨rfl, keepAliveRead_delivers, WriteScript.takesAll_count (Nat.le_refl _), rfl⟩

/-- The plain request closes the connection, as its response announces. -/
theorem announced_close_iff_plain :
    ∃ c t, NewSocket.first.connection.connectEstablished = .ok c ∧
      plainTransaction.Completes c (response .HTTP_1_1 .GET_REQUEST (ascii "/") []) t ∧
      t.state = .kDisconnected := by
  obtain ⟨c, hc, hest⟩ := connectEstablished_spec NewSocket.first
  obtain ⟨hans, ⟨t, hdone⟩, hkept⟩ := plainTransaction_prompt.completes hest rootRequest.consistent
  refine ⟨c, t, hc, hdone, ?_⟩
  refine (announced_close_iff NewSocket.first c c t [] plainTransaction _ hc rfl hest.state hans hdone
    ?_).mpr ?_
  · exact (announcesClose_response _ _ _ _).mpr (Or.inr (Or.inr ⟨rfl, Or.inl rfl⟩))
  · rw [hkept]
    rintro ⟨header, hmem, -⟩
    cases hmem

/-- The keep-alive request gets the same response, and the connection stays open. -/
theorem announced_but_kept :
    ∃ c t answer, NewSocket.first.connection.connectEstablished = .ok c ∧ c.state = .kConnected ∧
      keepAliveTransaction.Answers c answer ∧ keepAliveTransaction.Completes c answer t ∧
      AnnouncesClose answer ∧ t.state ≠ .kDisconnected := by
  obtain ⟨c, hc, hest⟩ := connectEstablished_spec NewSocket.first
  obtain ⟨hans, ⟨t, hdone⟩, hkept⟩ := keepAliveTransaction_prompt.completes hest (by decide)
  refine ⟨c, t, _, hc, hest.state, hans, hdone, ?_, fun hstate => ?_⟩
  · exact (announcesClose_response _ _ _ _).mpr (Or.inr (Or.inr ⟨rfl, Or.inl rfl⟩))
  · exact (completes_closes hest.talking hans hdone).mp hstate
      (hkept.mpr ⟨_, List.mem_singleton_self _, by decide⟩)

end TcpConnection

end WServer
