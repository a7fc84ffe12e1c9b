import WServer.Library.MessageFormat
import WServer.ParserRun

/-!
# The responses are messages

The generator builds its answers from string literals.  Each answer it can be asked for is the text of one
message, with a status line, header fields and a body; the branches for the other request states are never
taken.

* `Reply` — what a request is answered with, and its `message`;
* `response_eq_print` — the response is the text of the message;
* `output_work` — what the parser and the generator append to the output.
-/

namespace WServer

open Library.MessageFormat

namespace HttpContext

variable {c d : HttpContext}

def COLON : UInt8 := 58

/-- The delimiters of HTTP. -/
def http : Delimiters UInt8 := ⟨CR, LF, COLON, SP, by decide, by decide⟩

/-- What a request is answered with. -/
inductive Reply where
  | page (now : List UInt8)
  | icon
  | hello
  | notFound
  | badRequest
  deriving DecidableEq

namespace Reply

/-- The reply to a request, by its state and its URI. -/
def of (state : REQUEST_STATE) (uri now : List UInt8) : Reply :=
  if state = .GET_REQUEST then
    if uri = ascii "/" then .page now
    else if uri = ascii "/favicon.ico" then .icon
    else if uri = ascii "/hello" then .hello
    else .notFound
  else .badRequest

def status : Reply → List UInt8
  | .page _ | .icon | .hello => ascii "200 OK"
  | .notFound => ascii "404 Not Found"
  | .badRequest => ascii "400 Bad Request"

def connectionField : Field http := ⟨ascii "Connection", ascii "close", by decide, by decide⟩

def serverField : Field http := ⟨ascii "Header", ascii "QWQ-SERVER", by decide, by decide⟩

def fields : Reply → List (Field http)
  | .page _ => [⟨ascii "Content-Type", ascii "text/html", by decide, by decide⟩, serverField,
      connectionField]
  | .icon => [⟨ascii "Content-Type", ascii "image/png", by decide, by decide⟩, connectionField,
      serverField]
  | .hello => [⟨ascii "Content-Type", ascii "text/plain", by decide, by decide⟩, connectionField,
      serverField]
  | .notFound => []
  | .badRequest => [connectionField]

def body : Reply → List UInt8
  | .page now => ascii "<html><head><title>This is title</title></head><body><h1>Hello</h1>Now is "
      ++ now ++ ascii "</body></html>"
  | .icon => cString favicon
  | .hello => ascii "<html><head>" ++ ascii "hello, world!\n" ++ ascii "</head></html>"
  | .notFound | .badRequest => []

/-- The reply as a message of a version. -/
def message (version : HTTP_VERSION) (r : Reply) : Message http where
  start := versionText version ++ r.status
  fields := r.fields
  body := r.body
  start_free := by cases version <;> cases r <;> simp only [status] <;> decide

end Reply

/-! ### The generator -/

/-- The header lines of a reply, after its status. -/
theorem print_message (version : HTTP_VERSION) (r : Reply) : (r.message version).print =
    versionText version ++ (r.status ++ [CR, LF] ++ printFields r.fields ++ r.body) := by
  simp only [Message.print, Reply.message, line, List.append_assoc]
  rfl

theorem answerText_eq (uri now : List UInt8) : answerText uri now =
    (Reply.of .GET_REQUEST uri now).status ++ [CR, LF] ++
      printFields (Reply.of .GET_REQUEST uri now).fields ++ (Reply.of .GET_REQUEST uri now).body := by
  simp only [answerText, Reply.of, if_true]
  split_ifs
  · simp only [Reply.status, Reply.fields, Reply.body, ← List.append_assoc]
    rfl
  · rfl
  · rfl
  · rfl

/-- **The response** to a request in one of the three verdicts is the text of its message. -/
theorem response_eq_print (version : HTTP_VERSION) {state : REQUEST_STATE} (uri now : List UInt8)
    (h : state = .GET_REQUEST ∨ state = .NO_REQUEST ∨ state = .BAD_REQUEST) :
    response version state uri now = ((Reply.of state uri now).message version).print := by
  rw [print_message]
  rcases h with rfl | rfl | rfl
  · exact congrArg (versionText version ++ ·) (answerText_eq uri now)
  · rfl
  · rfl

/-! ### The parser and the generator -/

/-- Every call of the parser ends in one of the three verdicts. -/
theorem ParseRun.verdict {line : LINE_STATE} (h : ParseRun line c d) :
    d.requestState = .GET_REQUEST ∨ d.requestState = .NO_REQUEST ∨ d.requestState = .BAD_REQUEST := by
  induction h with
  | @exit line c hline =>
      cases line with
      | OK => exact absurd rfl hline
      | BAD => exact Or.inr (Or.inr rfl)
      | OPEN => exact Or.inr (Or.inl rfl)
  | badRequestLine _ hbad | badHeader _ hbad => exact Or.inr (Or.inr hbad)
  | requestLine _ _ _ ih | header _ _ _ _ ih => exact ih
  | lastHeader _ _ _ | body _ => exact Or.inl rfl

/-- The message that `work` answers with, after the parser has left the context. -/
def reply (now : List UInt8) (c : HttpContext) : Message http :=
  (Reply.of c.requestState c.uri now).message c.version

/-- **The work** of a context appends one message to its output. -/
theorem output_work {now : List UInt8} (h : c.handleHttpRequest = some d) :
    (d.getHttpResponse now).outputBuffer.content = c.outputBuffer.content ++ (d.reply now).print := by
  rw [content_getHttpResponse now h, response_eq_print _ _ _ (handleHttpRequest_sound h).verdict]
  rfl

end HttpContext

end WServer
