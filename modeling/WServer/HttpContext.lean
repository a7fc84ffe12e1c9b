import WServer.BufferFifo

/-!
# The HTTP context

The request parser and the response generator of a connection.  The parser is a state machine fed by
the lines of the input buffer; it keeps its check state between calls, so a request may arrive in
pieces.  `parseLoop` is the loop of `handleHttpRequest`; it takes a fuel argument, because the loop of
the source has a check state in which it makes no progress, and `handleHttpRequest` supplies one unit
for every byte of the input, and two more.  `none` means that the fuel ran out.

The `int` in which `parseMessageHeader` keeps its place is not bounded here; `LineScan` tells where the
machine agrees.

`now` is the text of the time stamp the response generator reads.
-/

namespace WServer

open Library.Segments

def NUL : UInt8 := 0
def SP : UInt8 := 32

inductive METHOD where
  | GET
  | HEAD
  deriving DecidableEq

inductive CHECK_STATE where
  | REQUEST_LINE
  | HEADER
  | BODY
  | END
  deriving DecidableEq

inductive LINE_STATE where
  | OK
  | BAD
  | OPEN
  deriving DecidableEq

inductive REQUEST_STATE where
  | NO_REQUEST
  | GET_REQUEST
  | BAD_REQUEST
  | FORBIDDEN_REQUEST
  | INTERNAL_ERROR
  | CLOSED_CONNECTION
  deriving DecidableEq

inductive HTTP_VERSION where
  | HTTP_1_0
  | HTTP_1_1
  deriving DecidableEq

inductive CONNECTION where
  | CLOSE
  | KEEP_ALIVE
  deriving DecidableEq

/-! ### Scanning a line -/

/-- The byte at an index of a `std::string`, whose end reads as NUL. -/
def charAt (line : List UInt8) (i : ℕ) : UInt8 := line.getD i NUL

/-- `while (p(line[i])) ++i;` -/
def scanWhile (p : UInt8 → Bool) (line : List UInt8) (i : ℕ) : ℕ :=
  i + ((line.drop i).takeWhile p).length

/-- `line.substr(start, n)` -/
def substr (line : List UInt8) (start n : ℕ) : List UInt8 := (line.drop start).take n

/-- `line[end] != ' ' && line[end] != '\0'` -/
def isToken (c : UInt8) : Bool := c != SP && c != NUL

/-- `line[end] == ' ' && line[end] != '\0'` -/
def isBlank (c : UInt8) : Bool := c == SP && c != NUL

def tolower (c : UInt8) : UInt8 := if 65 ≤ c ∧ c ≤ 90 then c + 32 else c

/-- `strncasecmp(a, b, n) == 0` -/
def strncasecmpEq : List UInt8 → List UInt8 → ℕ → Bool
  | _, _, 0 => true
  | a, b, n + 1 =>
      if tolower (charAt a 0) = tolower (charAt b 0) then
        charAt a 0 == NUL || strncasecmpEq a.tail b.tail n
      else false

/-- The method a request line names. -/
def methodOf (name : List UInt8) : Option METHOD :=
  if name = ascii "GET" then some .GET else if name = ascii "HEAD" then some .HEAD else none

/-- The version a request line names. -/
def versionOf (text : List UInt8) : Option HTTP_VERSION :=
  if text = ascii "HTTP/1.0" then some .HTTP_1_0
  else if text = ascii "HTTP/1.1" then some .HTTP_1_1 else none

/-- The scan of `parseLine` for the first CR that is not the last byte of the line. -/
def scanLine : List UInt8 → LINE_STATE × List UInt8
  | c :: d :: rest =>
      if c = CR then
        if d = LF then (.OK, NUL :: NUL :: rest) else (.BAD, c :: d :: rest)
      else
        let r := scanLine (d :: rest)
        (r.1, c :: r.2)
  | line => (.OPEN, line)

/-! ### The parser -/

/-- Class `HttpContext`, the two buffers it points to included. -/
structure HttpContext where
  method : METHOD
  version : HTTP_VERSION
  connection : CONNECTION
  requestState : REQUEST_STATE
  checkState : CHECK_STATE
  uri : List UInt8
  newLine : List UInt8
  inputBuffer : Buffer
  outputBuffer : Buffer

namespace HttpContext

/-- The constructor, over two buffers. -/
def init (inputBuffer outputBuffer : Buffer) : HttpContext where
  method := .GET
  version := .HTTP_1_0
  connection := .CLOSE
  requestState := .NO_REQUEST
  checkState := .REQUEST_LINE
  uri := []
  newLine := []
  inputBuffer := inputBuffer
  outputBuffer := outputBuffer

/-- The context of a new connection. -/
def fresh : HttpContext := init Buffer.init Buffer.init

def isKeepAlive (c : HttpContext) : Bool := c.connection = .KEEP_ALIVE

def parseLine (c : HttpContext) : LINE_STATE × HttpContext :=
  let (line, input) := c.inputBuffer.getAnHTTPLine
  let r := scanLine line
  (r.1, { c with newLine := r.2, inputBuffer := input })

def parseRequestLine (c : HttpContext) : HttpContext :=
  let start := 0
  let stop := scanWhile isToken c.newLine 0
  -- get method
  match methodOf (substr c.newLine start (stop - start)) with
  | none => { c with requestState := .BAD_REQUEST }
  | some method =>
      -- get URI
      let start := scanWhile isBlank c.newLine stop
      let stop := scanWhile isToken c.newLine start
      let uri := substr c.newLine start (stop - start)
      -- get version
      let start := scanWhile isBlank c.newLine stop
      let stop := scanWhile isToken c.newLine start
      match versionOf (substr c.newLine start (stop - start)) with
      | none => { c with method := method, uri := uri, requestState := .BAD_REQUEST }
      | some version =>
          { c with
            method := method
            uri := uri
            version := version
            checkState := .HEADER
            requestState := .NO_REQUEST }

def parseMessageHeader (c : HttpContext) : HttpContext :=
  if c.newLine ≠ [] ∧ charAt c.newLine 0 = NUL then
    -- the end of the header lines
    { c with checkState := .BODY, requestState := .NO_REQUEST }
  else if strncasecmpEq c.newLine (ascii "Connection:") 11 then
    let start := scanWhile (· == SP) c.newLine 11
    if strncasecmpEq (c.newLine.drop start) (ascii "Keep-Alive") 10 then
      { c with connection := .KEEP_ALIVE, requestState := .NO_REQUEST }
    else { c with requestState := .BAD_REQUEST }
  else { c with requestState := .NO_REQUEST }

def parseMessageBody (c : HttpContext) : HttpContext :=
  { c with checkState := .END, requestState := .GET_REQUEST }

/-- What follows the loop of `handleHttpRequest`. -/
def afterLoop (line : LINE_STATE) (c : HttpContext) : HttpContext :=
  match line with
  | .OPEN => { c with requestState := .NO_REQUEST }
  | .BAD => { c with requestState := .BAD_REQUEST }
  | .OK => c

/-- The loop of `handleHttpRequest`, at most `fuel` times around. -/
def parseLoop : ℕ → LINE_STATE → HttpContext → Option HttpContext
  | 0, _, _ => none
  | fuel + 1, line, c =>
      if line = .OK then
        match c.checkState with
        | .REQUEST_LINE =>
            let c := c.parseRequestLine
            if c.requestState = .BAD_REQUEST then some c
            else parseLoop fuel c.parseLine.1 c.parseLine.2
        | .HEADER =>
            let c := c.parseMessageHeader
            if c.requestState = .BAD_REQUEST then some c
            else if c.checkState ≠ .BODY then parseLoop fuel c.parseLine.1 c.parseLine.2
            else parseLoop fuel line c
        | .BODY =>
            let c := c.parseMessageBody
            if c.requestState = .BAD_REQUEST then some c else some (c.afterLoop line)
        | .END => parseLoop fuel line c
      else some (c.afterLoop line)

/-- `handleHttpRequest` with an explicit bound on the number of rounds of its loop. -/
def handleHttpRequestWithin (fuel : ℕ) (c : HttpContext) : Option HttpContext :=
  parseLoop fuel c.parseLine.1 c.parseLine.2

/-- The loop of `handleHttpRequest` comes to an end. -/
def Terminates (c : HttpContext) : Prop := ∃ fuel, (c.handleHttpRequestWithin fuel).isSome

def handleHttpRequest (c : HttpContext) : Option HttpContext :=
  c.handleHttpRequestWithin (c.inputBuffer.content.length + 2)

/-! ### The response -/

/-- The icon up to its first NUL: `std::string(favicon)` reads no further. -/
def favicon : List UInt8 := [0x89, 0x50, 0x4E, 0x47, 0x0D, 0x0A, 0x1A, 0x0A, 0x00]

/-- The string a `const char*` stands for. -/
def cString (s : List UInt8) : List UInt8 := s.takeWhile (· != NUL)

def versionText : HTTP_VERSION → List UInt8
  | .HTTP_1_0 => ascii "HTTP/1.0 "
  | .HTTP_1_1 => ascii "HTTP/1.1 "

/-- The answer to a complete request, after the version. -/
def answerText (uri now : List UInt8) : List UInt8 :=
  if uri = ascii "/" then
    ascii "200 OK\r\n" ++ ascii "Content-Type: text/html\r\n" ++ ascii "Header: QWQ-SERVER\r\n"
      ++ ascii "Connection: close\r\n" ++ ascii "\r\n"
      ++ ascii "<html><head><title>This is title</title></head><body><h1>Hello</h1>Now is "
      ++ now ++ ascii "</body></html>"
  else if uri = ascii "/favicon.ico" then
    ascii "200 OK\r\n" ++ ascii "Content-Type: image/png\r\n" ++ ascii "Connection: close\r\n"
      ++ ascii "Header: QWQ-SERVER\r\n" ++ ascii "\r\n" ++ cString favicon
  else if uri = ascii "/hello" then
    ascii "200 OK\r\n" ++ ascii "Content-Type: text/plain\r\n" ++ ascii "Connection: close\r\n"
      ++ ascii "Header: QWQ-SERVER\r\n" ++ ascii "\r\n" ++ ascii "<html><head>"
      ++ ascii "hello, world!\n" ++ ascii "</head></html>"
  else ascii "404 Not Found\r\n" ++ ascii "\r\n"

def response (version : HTTP_VERSION) (state : REQUEST_STATE) (uri now : List UInt8) : List UInt8 :=
  versionText version ++
    match state with
    | .GET_REQUEST => answerText uri now
    | .BAD_REQUEST | .NO_REQUEST =>
        ascii "400 Bad Request\r\n" ++ ascii "Connection: close\r\n" ++ ascii "\r\n"
    | .FORBIDDEN_REQUEST => ascii "403 Forbidden Error\r\n" ++ ascii "\r\n"
    | .INTERNAL_ERROR => ascii "500 Internal Server Error\r\n" ++ ascii "\r\n"
    | .CLOSED_CONNECTION => []

def getHttpResponse (now : List UInt8) (c : HttpContext) : HttpContext :=
  { c with outputBuffer := c.outputBuffer.append (response c.version c.requestState c.uri now) }

/-- `work`, or `none` if the parser does not come to an end. -/
def work (now : List UInt8) (c : HttpContext) : Option HttpContext :=
  c.handleHttpRequest.map (getHttpResponse now)

def reset (c : HttpContext) : HttpContext where
  method := .GET
  version := .HTTP_1_0
  connection := .KEEP_ALIVE
  requestState := .NO_REQUEST
  checkState := .REQUEST_LINE
  uri := []
  newLine := []
  inputBuffer := c.inputBuffer.retrieveAll
  outputBuffer := c.outputBuffer

end HttpContext

end WServer
