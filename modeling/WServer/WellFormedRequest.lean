import WServer.ParserRun

/-!
# Well-formed requests are accepted

A well-formed request as a value: a method, a URI, a version and header lines, each carrying the proof
that it holds no byte that would end it early.  `Request.bytes` is its text on the wire.  The parser,
given that text at the start of its input, ends with a complete request, the fields of the value, and
exactly what follows the text left in the input (`parse_request`), provided its `Connection` headers
all ask for `Keep-Alive`.

* `scanWhile_token`, `substr_token` — the scanners cut a line into the tokens it was made of;
* `strncasecmpEq_iff` — the header comparison is a comparison of lower-case prefixes;
* `parseRequestLine_line`, `parseMessageHeader_line` — one line;
* `parseRun_headers` — the header lines, by induction on their list.
-/

namespace WServer

open Library.Segments

/-! ### Requests as values -/

/-- A property of bytes, checked along a text. -/
theorem forall_bytes {p : UInt8 → Prop} [DecidablePred p] {l : List UInt8}
    (h : l.all (fun b => decide (p b)) = true) : ∀ b ∈ l, p b := by
  intro b hb
  exact of_decide_eq_true (List.all_eq_true.mp h b hb)

def methodName : METHOD → List UInt8
  | .GET => ascii "GET"
  | .HEAD => ascii "HEAD"

def versionName : HTTP_VERSION → List UInt8
  | .HTTP_1_0 => ascii "HTTP/1.0"
  | .HTTP_1_1 => ascii "HTTP/1.1"

def lower (s : List UInt8) : List UInt8 := s.map tolower

/-- A header line of the field `Connection`, in any case. -/
def IsConnectionHeader (h : List UInt8) : Prop := lower (h.take 11) = ascii "connection:"

/-- A `Connection` header whose value starts with `Keep-Alive`, in any case. -/
def IsKeepAliveHeader (h : List UInt8) : Prop :=
  IsConnectionHeader h ∧
    lower (((h.drop 11).dropWhile (· == SP)).take 10) = ascii "keep-alive"

instance (h : List UInt8) : Decidable (IsConnectionHeader h) := inferInstanceAs (Decidable (_ = _))

instance (h : List UInt8) : Decidable (IsKeepAliveHeader h) := inferInstanceAs (Decidable (_ ∧ _))

/-- A complete request without a body. -/
structure Request where
  method : METHOD
  uri : List UInt8
  version : HTTP_VERSION
  headers : List (List UInt8)
  uri_ne_nil : uri ≠ []
  uri_bytes : ∀ b ∈ uri, b ≠ SP ∧ b ≠ CR ∧ b ≠ LF ∧ b ≠ NUL
  header_ne_nil : ∀ h ∈ headers, h ≠ []
  header_bytes : ∀ h ∈ headers, ∀ b ∈ h, b ≠ CR ∧ b ≠ LF ∧ b ≠ NUL

/-- Lines on the wire, each ended by CR LF. -/
def wireLines (lines : List (List UInt8)) : List UInt8 :=
  (lines.map fun line => line ++ [CR, LF]).flatten

theorem wireLines_cons (line : List UInt8) (lines : List (List UInt8)) :
    wireLines (line :: lines) = line ++ CR :: LF :: wireLines lines := by
  rw [wireLines, List.map_cons, List.flatten_cons, List.append_assoc]
  rfl

namespace Request

def requestLine (r : Request) : List UInt8 :=
  methodName r.method ++ SP :: (r.uri ++ SP :: versionName r.version)

/-- The request on the wire: request line, header lines, empty line. -/
def bytes (r : Request) : List UInt8 := wireLines (r.requestLine :: (r.headers ++ [[]]))

/-- Every `Connection` header asks for `Keep-Alive`. -/
def Consistent (r : Request) : Prop :=
  ∀ h ∈ r.headers, IsConnectionHeader h → IsKeepAliveHeader h

instance (r : Request) : Decidable r.Consistent :=
  inferInstanceAs (Decidable (∀ h ∈ r.headers, IsConnectionHeader h → IsKeepAliveHeader h))

/-- The connection mode the headers leave, from the mode before them. -/
def connectionFrom (k : CONNECTION) (headers : List (List UInt8)) : CONNECTION :=
  if ∃ h ∈ headers, IsKeepAliveHeader h then .KEEP_ALIVE else k

theorem bytes_pos (r : Request) : 0 < r.bytes.length := by
  rw [bytes, wireLines_cons, List.length_append, List.length_cons]
  omega

end Request

theorem rootUri_ne_nil : ascii "/" ≠ [] := by decide

theorem rootUri_bytes : ∀ b ∈ ascii "/", b ≠ SP ∧ b ≠ CR ∧ b ≠ LF ∧ b ≠ NUL :=
  forall_bytes (by decide)

/-- `GET / HTTP/1.1` with the header `Connection: Keep-Alive`. -/
def keepAliveRequest : Request where
  method := .GET
  uri := ascii "/"
  version := .HTTP_1_1
  headers := [ascii "Connection: Keep-Alive"]
  uri_ne_nil := rootUri_ne_nil
  uri_bytes := rootUri_bytes
  header_ne_nil := by decide
  header_bytes := List.forall_mem_singleton.mpr (forall_bytes (by decide))

/-! ### The scanners on a line made of tokens -/

/-- A scan over a token stops at the first byte behind it. -/
theorem scanWhile_token (p : UInt8 → Bool) (pre tok rest : List UInt8) {c : UInt8}
    (htok : ∀ b ∈ tok, p b = true) (hc : p c = false) :
    scanWhile p (pre ++ (tok ++ c :: rest)) pre.length = (pre ++ tok).length := by
  rw [scanWhile, List.drop_left, List.takeWhile_append_of_pos htok,
    List.takeWhile_cons_of_neg (by simp [hc]), List.append_nil, List.length_append]

theorem substr_token (pre tok rest : List UInt8) :
    substr (pre ++ (tok ++ rest)) pre.length ((pre ++ tok).length - pre.length) = tok := by
  rw [substr, List.drop_left, List.length_append, Nat.add_sub_cancel_left, List.take_left]

/-- A blank followed by a token: the scan over blanks stops at the token. -/
theorem scanWhile_blank {pre tok rest : List UInt8} (hne : tok ≠ [])
    (htok : ∀ b ∈ tok, b ≠ SP) :
    scanWhile isBlank (pre ++ SP :: (tok ++ rest)) pre.length = (pre ++ [SP]).length := by
  obtain ⟨c, tok, rfl⟩ := List.exists_cons_of_ne_nil hne
  have hc : isBlank c = false := by simp [isBlank, htok c (by simp)]
  have hscan := scanWhile_token isBlank pre [SP] (tok ++ rest)
    (by simp [isBlank, SP, NUL]) hc
  simpa using hscan

theorem isToken_of_ne {b : UInt8} (h₁ : b ≠ SP) (h₂ : b ≠ NUL) : isToken b = true := by
  simp [isToken, h₁, h₂]

theorem methodName_token (m : METHOD) : ∀ b ∈ methodName m, isToken b = true := by
  cases m <;> exact forall_bytes (by decide)

theorem versionName_token (v : HTTP_VERSION) : ∀ b ∈ versionName v, isToken b = true := by
  cases v <;> exact forall_bytes (by decide)

theorem methodOf_methodName (m : METHOD) : methodOf (methodName m) = some m := by
  cases m <;> decide

theorem versionOf_versionName (v : HTTP_VERSION) : versionOf (versionName v) = some v := by
  cases v <;> decide

theorem CR_notMem_requestLine (r : Request) : CR ∉ r.requestLine := by
  have hm : CR ∉ methodName r.method := by cases r.method <;> decide
  have hv : CR ∉ versionName r.version := by cases r.version <;> decide
  have hu : CR ∉ r.uri := fun h => (r.uri_bytes CR h).2.1 rfl
  have hsp : CR ≠ SP := by decide
  simp [Request.requestLine, hm, hv, hu, hsp]

/-! ### The header comparison -/

theorem tolower_ne_NUL {b : UInt8} (h : b ≠ NUL) : tolower b ≠ NUL := by
  intro hb
  rw [tolower] at hb
  split at hb
  · rename_i hrange
    obtain ⟨hlo, hhi⟩ := hrange
    rw [NUL, UInt8.ext_iff, UInt8.toNat_add] at hb
    rw [UInt8.le_iff_toNat_le] at hlo hhi
    simp only [UInt8.reduceToNat] at hb hlo hhi
    omega
  · exact h hb

/-- Against a word without NUL the comparison decides equality up to case. -/
theorem strncasecmpEq_iff {b : List UInt8} (hb : ∀ x ∈ b, x ≠ NUL) (a : List UInt8) :
    strncasecmpEq a b b.length = true ↔ lower (a.take b.length) = lower b := by
  induction b generalizing a with
  | nil => simp [strncasecmpEq, lower]
  | cons y b ih =>
      have hy : y ≠ NUL := hb y (by simp)
      have hb' : ∀ x ∈ b, x ≠ NUL := fun x hx => hb x (by simp [hx])
      cases a with
      | nil =>
          have hne : tolower NUL ≠ tolower y := by
            rw [show tolower NUL = NUL from rfl]
            exact (tolower_ne_NUL hy).symm
          simp [strncasecmpEq, charAt, lower, hne]
      | cons x a =>
          by_cases hxy : tolower x = tolower y
          · have hx : x ≠ NUL := by
              rintro rfl
              exact tolower_ne_NUL hy hxy.symm
            have hih := ih hb' a
            simp only [lower] at hih
            simp [strncasecmpEq, charAt, lower, hxy, hx, hih]
          · simp [strncasecmpEq, charAt, lower, hxy]

/-- Two NULs behind a line do not change its comparison with a NUL-free word. -/
theorem lower_take_terminated {b : List UInt8} {n : ℕ} (hn : b.length = n)
    (hb : ∀ x ∈ b, x ≠ NUL) (h : List UInt8) :
    lower ((h ++ [NUL, NUL]).take n) = b ↔ lower (h.take n) = b := by
  subst hn
  by_cases hlen : b.length ≤ h.length
  · rw [List.take_append_of_le_length hlen]
  · rw [not_le] at hlen
    refine iff_of_false (fun heq => ?_) fun heq => ?_
    · -- the NUL behind the line falls inside the compared part
      have hmem : NUL ∈ b := by
        rw [← heq, lower, List.mem_map]
        refine ⟨NUL, ?_, rfl⟩
        rw [List.take_append, List.mem_append]
        refine Or.inr ?_
        obtain ⟨k, hk⟩ : ∃ k, b.length - h.length = k + 1 := ⟨b.length - h.length - 1, by omega⟩
        rw [hk]
        simp
      exact hb NUL hmem rfl
    · have := congrArg List.length heq
      rw [lower, List.length_map, List.length_take] at this
      omega

/-- A terminated line starts with a word, up to case, if it does so without its terminator. -/
theorem strncasecmpEq_terminated {word low : List UInt8} {n : ℕ} (hn : word.length = n)
    (hword : ∀ x ∈ word, x ≠ NUL) (hlow : lower word = low) (h : List UInt8) :
    strncasecmpEq (h ++ [NUL, NUL]) word n = true ↔ lower (h.take n) = low := by
  subst hn hlow
  rw [strncasecmpEq_iff hword]
  refine lower_take_terminated (by rw [lower, List.length_map]) (fun x hx => ?_) h
  rw [lower, List.mem_map] at hx
  obtain ⟨y, hy, rfl⟩ := hx
  exact tolower_ne_NUL (hword y hy)

theorem isConnectionHeader_iff (h : List UInt8) :
    strncasecmpEq (h ++ [NUL, NUL]) (ascii "Connection:") 11 = true ↔ IsConnectionHeader h :=
  strncasecmpEq_terminated (by decide) (forall_bytes (by decide)) (by decide) h

theorem IsConnectionHeader.length {h : List UInt8} (hc : IsConnectionHeader h) : 11 ≤ h.length := by
  have := congrArg List.length hc
  rw [lower, List.length_map, List.length_take, show (ascii "connection:").length = 11 from rfl]
    at this
  omega

/-- The value of a terminated `Connection` header, its leading blanks skipped. -/
theorem drop_scanWhile_blank {h : List UInt8} (hlen : 11 ≤ h.length) :
    (h ++ [NUL, NUL]).drop (scanWhile (· == SP) (h ++ [NUL, NUL]) 11)
      = (h.drop 11).dropWhile (· == SP) ++ [NUL, NUL] := by
  have hdrop : (h ++ [NUL, NUL]).drop 11 = h.drop 11 ++ [NUL, NUL] :=
    List.drop_append_of_le_length hlen
  have hsplit : ∀ l : List UInt8,
      (l ++ [NUL, NUL]).drop ((l ++ [NUL, NUL]).takeWhile (· == SP)).length
        = l.dropWhile (· == SP) ++ [NUL, NUL] := by
    intro l
    induction l with
    | nil => rfl
    | cons x l ih =>
        by_cases hx : x = SP
        · simpa [hx] using ih
        · simp [hx]
  rw [scanWhile, ← List.drop_drop, hdrop]
  exact hsplit (h.drop 11)

theorem isKeepAliveHeader_iff {h : List UInt8} (hc : IsConnectionHeader h) :
    strncasecmpEq ((h ++ [NUL, NUL]).drop (scanWhile (· == SP) (h ++ [NUL, NUL]) 11))
      (ascii "Keep-Alive") 10 = true ↔ IsKeepAliveHeader h := by
  rw [drop_scanWhile_blank hc.length,
    strncasecmpEq_terminated (by decide) (forall_bytes (by decide))
      (show lower (ascii "Keep-Alive") = ascii "keep-alive" by decide)]
  exact ⟨fun hv => ⟨hc, hv⟩, fun hk => hk.2⟩

/-! ### One line -/

namespace HttpContext

variable {c : HttpContext}

/-- **The request line** of a well-formed request is read back. -/
theorem parseRequestLine_line (r : Request) (h : c.newLine = r.requestLine ++ [NUL, NUL]) :
    c.parseRequestLine
      = { c with
          method := r.method
          uri := r.uri
          version := r.version
          checkState := .HEADER
          requestState := .NO_REQUEST } := by
  have hsp : isToken SP = false := by decide
  have hnul : isToken NUL = false := by decide
  have hurisp : ∀ b ∈ r.uri, b ≠ SP := fun b hb => (r.uri_bytes b hb).1
  have huritok : ∀ b ∈ r.uri, isToken b = true := fun b hb =>
    isToken_of_ne (r.uri_bytes b hb).1 (r.uri_bytes b hb).2.2.2
  have hvne : versionName r.version ≠ [] := by cases r.version <;> decide
  have hvsp : ∀ b ∈ versionName r.version, b ≠ SP := by
    cases r.version <;> exact forall_bytes (by decide)
  -- the line, cut behind each of its five pieces
  set m := methodName r.method with hm
  set v := versionName r.version with hv
  have hline : c.newLine = m ++ SP :: (r.uri ++ SP :: (v ++ [NUL, NUL])) := by
    rw [h, Request.requestLine]
    simp only [List.append_assoc, List.cons_append]
    rfl
  have hline₂ : c.newLine = (m ++ [SP]) ++ (r.uri ++ SP :: (v ++ [NUL, NUL])) := by
    rw [hline]
    simp
  have hline₃ : c.newLine = (m ++ [SP] ++ r.uri) ++ SP :: (v ++ [NUL, NUL]) := by
    rw [hline]
    simp
  have hline₄ : c.newLine = (m ++ [SP] ++ r.uri ++ [SP]) ++ (v ++ NUL :: [NUL]) := by
    rw [hline]
    simp
  have e₁ : scanWhile isToken c.newLine 0 = m.length := by
    have := scanWhile_token isToken [] m (r.uri ++ SP :: (v ++ [NUL, NUL]))
      (methodName_token r.method) hsp
    rw [hline]
    simpa using this
  have t₁ : substr c.newLine 0 (m.length - 0) = m := by
    have := substr_token [] m (SP :: (r.uri ++ SP :: (v ++ [NUL, NUL])))
    rw [hline]
    simpa using this
  have e₂ : scanWhile isBlank c.newLine m.length = (m ++ [SP]).length := by
    rw [hline]
    exact scanWhile_blank r.uri_ne_nil hurisp
  have e₃ : scanWhile isToken c.newLine (m ++ [SP]).length = (m ++ [SP] ++ r.uri).length := by
    rw [hline₂]
    exact scanWhile_token isToken _ _ _ huritok hsp
  have t₃ : substr c.newLine (m ++ [SP]).length
      ((m ++ [SP] ++ r.uri).length - (m ++ [SP]).length) = r.uri := by
    rw [hline₂]
    exact substr_token _ _ _
  have e₄ : scanWhile isBlank c.newLine (m ++ [SP] ++ r.uri).length
      = (m ++ [SP] ++ r.uri ++ [SP]).length := by
    rw [hline₃]
    exact scanWhile_blank hvne hvsp
  have e₅ : scanWhile isToken c.newLine (m ++ [SP] ++ r.uri ++ [SP]).length
      = (m ++ [SP] ++ r.uri ++ [SP] ++ v).length := by
    rw [hline₄]
    exact scanWhile_token isToken _ _ _ (versionName_token r.version) hnul
  have t₅ : substr c.newLine (m ++ [SP] ++ r.uri ++ [SP]).length
      ((m ++ [SP] ++ r.uri ++ [SP] ++ v).length - (m ++ [SP] ++ r.uri ++ [SP]).length) = v := by
    rw [hline₄]
    exact substr_token _ _ _
  rw [parseRequestLine]
  simp only [e₁, t₁, e₂, e₃, t₃, e₄, e₅, t₅]
  rw [hm, methodOf_methodName, hv]
  simp only [versionOf_versionName]

/-- A header line of a consistent request: the connection mode is its only effect. -/
theorem parseMessageHeader_line {h : List UInt8} (hne : h ≠ []) (hbytes : ∀ b ∈ h, b ≠ NUL)
    (hcons : IsConnectionHeader h → IsKeepAliveHeader h) (hline : c.newLine = h ++ [NUL, NUL]) :
    c.parseMessageHeader
      = { c with
          connection := if IsKeepAliveHeader h then .KEEP_ALIVE else c.connection
          requestState := .NO_REQUEST } := by
  obtain ⟨x, t, rfl⟩ := List.exists_cons_of_ne_nil hne
  have hfirst : ¬ (c.newLine ≠ [] ∧ charAt c.newLine 0 = NUL) := by
    rw [hline]
    exact fun hh => hbytes x (by simp) hh.2
  rw [parseMessageHeader, if_neg hfirst, hline]
  by_cases hc : IsConnectionHeader (x :: t)
  · have hk := hcons hc
    simp only [(isConnectionHeader_iff _).mpr hc, (isKeepAliveHeader_iff hc).mpr hk, hk, if_true]
  · have hk : ¬ IsKeepAliveHeader (x :: t) := fun hk => hc hk.1
    have hcmp : strncasecmpEq (x :: t ++ [NUL, NUL]) (ascii "Connection:") 11 = false := by
      rw [Bool.eq_false_iff]
      exact fun hh => hc ((isConnectionHeader_iff _).mp hh)
    simp only [hcmp, hk, if_false, Bool.false_eq_true]

/-- The empty line ends the headers. -/
theorem parseMessageHeader_empty (hline : c.newLine = [NUL, NUL]) :
    c.parseMessageHeader = { c with checkState := .BODY, requestState := .NO_REQUEST } := by
  rw [parseMessageHeader, if_pos]
  rw [hline]
  exact ⟨by simp, rfl⟩

/-! ### The whole request -/

/-- What the parser makes of the headers: the request is complete, nothing else has changed. -/
structure HeadersRead (c c' : HttpContext) (headers : List (List UInt8)) (rest : List UInt8) :
    Prop where
  method : c'.method = c.method
  uri : c'.uri = c.uri
  version : c'.version = c.version
  connection : c'.connection = Request.connectionFrom c.connection headers
  complete : c'.requestState = .GET_REQUEST
  checkState : c'.checkState = .END
  input : c'.inputBuffer.content = rest
  output : c'.outputBuffer = c.outputBuffer

theorem lineCut_wireLines {line : List UInt8} (hline : CR ∉ line) (lines : List (List UInt8))
    (rest : List UInt8) :
    LineCut (wireLines (line :: lines) ++ rest) line (wireLines lines ++ rest) := by
  refine ⟨?_, hline⟩
  rw [wireLines_cons, List.append_assoc]
  rfl

/-- **The headers.**  From check state HEADER the loop reads the header lines and the empty line. -/
theorem parseRun_headers (rest : List UInt8) :
    ∀ (headers : List (List UInt8)) (c : HttpContext), (∀ h ∈ headers, h ≠ []) →
      (∀ h ∈ headers, ∀ b ∈ h, b ≠ CR ∧ b ≠ LF ∧ b ≠ NUL) →
      (∀ h ∈ headers, IsConnectionHeader h → IsKeepAliveHeader h) → c.checkState = .HEADER →
      c.inputBuffer.content = wireLines (headers ++ [[]]) ++ rest →
      ∃ c', ParseRun c.parseLine.1 c.parseLine.2 c' ∧ HeadersRead c c' headers rest := by
  intro headers
  induction headers with
  | nil =>
      intro c _ _ _ hcs hin
      have hcut : LineCut c.inputBuffer.content [] rest := by
        rw [hin]
        exact lineCut_wireLines (by simp) [] rest
      obtain ⟨hok, hnew, hleft⟩ := parseLine_of_lineCut hcut
      have hmsg := parseMessageHeader_empty (c := c.parseLine.2) hnew
      have hrun := ParseRun.lastHeader (c := c.parseLine.2) hcs (by rw [hmsg]; simp)
        (by rw [hmsg])
      refine ⟨_, by rw [hok]; exact hrun, ?_⟩
      rw [hmsg]
      refine ⟨rfl, rfl, rfl, ?_, rfl, rfl, hleft, rfl⟩
      rw [Request.connectionFrom, if_neg (by simp)]
      rfl
  | cons h headers ih =>
      intro c hne hbytes hcons hcs hin
      have hcr : CR ∉ h := fun hmem => (hbytes h (by simp) CR hmem).1 rfl
      have hcut : LineCut c.inputBuffer.content h (wireLines (headers ++ [[]]) ++ rest) := by
        rw [hin]
        exact lineCut_wireLines hcr (headers ++ [[]]) rest
      obtain ⟨hok, hnew, hleft⟩ := parseLine_of_lineCut hcut
      have hmsg := parseMessageHeader_line (c := c.parseLine.2) (hne h (by simp))
        (fun b hb => (hbytes h (by simp) b hb).2.2) (hcons h (by simp)) hnew
      obtain ⟨c', hrun, hread⟩ := ih c.parseLine.2.parseMessageHeader
        (fun g hg => hne g (by simp [hg])) (fun g hg => hbytes g (by simp [hg]))
        (fun g hg => hcons g (by simp [hg])) (by rw [hmsg]; exact hcs)
        (by rw [parseMessageHeader_inputBuffer]; exact hleft)
      have hheader := ParseRun.header (c := c.parseLine.2) hcs (by rw [hmsg]; simp)
        (by rw [hmsg, parseLine_checkState, hcs]; decide) hrun
      obtain ⟨hm, hu, hv, hk, hg, he, hi, ho⟩ := hread
      rw [hmsg] at hm hu hv hk ho
      refine ⟨c', by rw [hok]; exact hheader, hm, hu, hv, ?_, hg, he, hi, ho⟩
      rw [hk, Request.connectionFrom, Request.connectionFrom]
      by_cases hkeep : IsKeepAliveHeader h
      · simp [hkeep]
      · simp [hkeep]

/-- The parser has read the request `r`; `rest` is what it has not read. -/
structure RequestRead (c c' : HttpContext) (r : Request) (rest : List UInt8) : Prop where
  method : c'.method = r.method
  uri : c'.uri = r.uri
  version : c'.version = r.version
  connection : c'.connection = Request.connectionFrom c.connection r.headers
  complete : c'.requestState = .GET_REQUEST
  checkState : c'.checkState = .END
  input : c'.inputBuffer.content = rest
  output : c'.outputBuffer = c.outputBuffer

/-- **Acceptance.**  A well-formed request at the start of the input is read completely, and nothing
behind it is. -/
theorem parse_request (r : Request) (rest : List UInt8) (hcons : r.Consistent)
    (hcs : c.checkState = .REQUEST_LINE) (hin : c.inputBuffer.content = r.bytes ++ rest) :
    ∃ c', c.handleHttpRequest = some c' ∧ RequestRead c c' r rest := by
  have hcut : LineCut c.inputBuffer.content r.requestLine
      (wireLines (r.headers ++ [[]]) ++ rest) := by
    rw [hin]
    exact lineCut_wireLines (CR_notMem_requestLine r) (r.headers ++ [[]]) rest
  obtain ⟨hok, hnew, hleft⟩ := parseLine_of_lineCut hcut
  have hreq := parseRequestLine_line (c := c.parseLine.2) r hnew
  obtain ⟨c', hrun, hread⟩ := parseRun_headers rest r.headers c.parseLine.2.parseRequestLine
    r.header_ne_nil r.header_bytes hcons (by rw [hreq])
    (by rw [parseRequestLine_inputBuffer]; exact hleft)
  have hfirst := ParseRun.requestLine (c := c.parseLine.2) hcs (by rw [hreq]; simp) hrun
  obtain ⟨hm, hu, hv, hk, hg, he, hi, ho⟩ := hread
  rw [hreq] at hm hu hv hk ho
  refine ⟨c', handleHttpRequest_of_parseRun (by rw [hcs]; decide) (by rw [hok]; exact hfirst), ?_⟩
  exact ⟨hm, hu, hv, hk, hg, he, hi, ho⟩

end HttpContext

end WServer
