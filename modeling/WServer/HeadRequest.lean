import WServer.Segmentation

/-!
# The answer to HEAD

A HEAD request should be answered with the status line and the headers of the answer to the GET request
for the same URI, and with nothing behind them.  `getHttpResponse` looks at the version and the URI of a
request, not at its method.

* `splitHead` — the head of an answer, up to its empty line, and what follows;
* `appends_request` — what `work` appends for a request without `Connection` headers;
* `response_split` — the head and the body of the answer to a complete request;
* `head_mirrors_get_iff` — the URIs for which the answer to HEAD is the head of the answer to GET.
-/

namespace WServer

namespace HttpContext

/-! ### Head and body -/

/-- The end of the last header line, and the empty line. -/
def headEnd : List UInt8 := [CR, LF, CR, LF]

/-- An answer up to its first empty line, that line included, and the bytes behind it. -/
def splitHead : List UInt8 → Option (List UInt8 × List UInt8)
  | [] => none
  | b :: answer =>
      if headEnd.isPrefixOf (b :: answer) then some (headEnd, (b :: answer).drop headEnd.length)
      else (splitHead answer).map fun p => (b :: p.1, p.2)

theorem splitHead_length {answer : List UInt8} {p : List UInt8 × List UInt8}
    (h : splitHead answer = some p) : headEnd.length ≤ answer.length := by
  induction answer generalizing p with
  | nil => cases h
  | cons b answer ih =>
      rw [splitHead] at h
      split at h
      · rename_i hend
        exact (List.isPrefixOf_iff_prefix.mp hend).length_le
      · obtain ⟨q, hq, -⟩ := Option.map_eq_some_iff.mp h
        rw [List.length_cons]
        exact (ih hq).trans (Nat.le_succ _)

/-- **The head** of an answer does not depend on what follows it. -/
theorem splitHead_append {answer head body : List UInt8} (h : splitHead answer = some (head, body))
    (more : List UInt8) : splitHead (answer ++ more) = some (head, body ++ more) := by
  have hlen := splitHead_length h
  induction answer generalizing head body with
  | nil => cases h
  | cons b answer ih =>
      have hpre : headEnd.isPrefixOf (b :: (answer ++ more)) = headEnd.isPrefixOf (b :: answer) := by
        rw [Bool.eq_iff_iff, List.isPrefixOf_iff_prefix, List.isPrefixOf_iff_prefix, ← List.cons_append]
        constructor
        · intro hp
          exact List.prefix_of_prefix_length_le hp (List.prefix_append _ _) hlen
        · exact fun hp => hp.trans (List.prefix_append _ _)
      rw [splitHead] at h
      rw [List.cons_append, splitHead, hpre]
      split at h
      · rename_i hend
        cases h
        rw [if_pos hend, ← List.cons_append, List.drop_append_of_le_length hlen]
      · rename_i hend
        obtain ⟨q, hq, hp⟩ := Option.map_eq_some_iff.mp h
        cases hp
        rw [if_neg hend, ih hq (splitHead_length hq)]
        rfl

/-- Bytes that are no CR belong to the head. -/
theorem splitHead_without_cr {first : List UInt8} (h : CR ∉ first) (answer : List UInt8) :
    splitHead (first ++ answer) = (splitHead answer).map fun p => (first ++ p.1, p.2) := by
  induction first with
  | nil =>
      rw [List.nil_append]
      exact Option.map_id'.symm
  | cons b first ih =>
      rw [List.mem_cons, not_or] at h
      have hend : ¬ headEnd.isPrefixOf (b :: (first ++ answer)) := by
        rw [List.isPrefixOf_iff_prefix, headEnd, List.cons_prefix_cons]
        exact fun hp => h.1 hp.1
      rw [List.cons_append, splitHead, if_neg hend, ih h.2, Option.map_map]
      rfl

/-! ### The answer to a complete request -/

/-- The URIs that are answered with a body. -/
def HasBody (uri : List UInt8) : Prop :=
  uri = ascii "/" ∨ uri = ascii "/favicon.ico" ∨ uri = ascii "/hello"

instance (uri : List UInt8) : Decidable (HasBody uri) := inferInstanceAs (Decidable (_ ∨ _))

/-- The heads of the answers, behind the version. -/
def rootHead : List UInt8 :=
  ascii "200 OK\r\n" ++ ascii "Content-Type: text/html\r\n" ++ ascii "Header: QWQ-SERVER\r\n"
    ++ ascii "Connection: close\r\n" ++ ascii "\r\n"

def faviconHead : List UInt8 :=
  ascii "200 OK\r\n" ++ ascii "Content-Type: image/png\r\n" ++ ascii "Connection: close\r\n"
    ++ ascii "Header: QWQ-SERVER\r\n" ++ ascii "\r\n"

def helloHead : List UInt8 :=
  ascii "200 OK\r\n" ++ ascii "Content-Type: text/plain\r\n" ++ ascii "Connection: close\r\n"
    ++ ascii "Header: QWQ-SERVER\r\n" ++ ascii "\r\n"

def notFoundHead : List UInt8 := ascii "404 Not Found\r\n" ++ ascii "\r\n"

/-- A version is passed over. -/
theorem splitHead_version (version : HTTP_VERSION) {head : List UInt8}
    (h : splitHead head = some (head, [])) :
    splitHead (versionText version ++ head) = some (versionText version ++ head, []) := by
  rw [splitHead_without_cr (by cases version <;> decide), h]
  rfl

/-- Each of the heads, behind a version, has its empty line at its end. -/
theorem splitHead_heads (version : HTTP_VERSION) {head : List UInt8}
    (h : head ∈ [rootHead, faviconHead, helloHead, notFoundHead]) :
    splitHead (versionText version ++ head) = some (versionText version ++ head, []) := by
  simp only [List.mem_cons, List.not_mem_nil, or_false] at h
  refine splitHead_version version ?_
  rcases h with rfl | rfl | rfl | rfl <;> rfl

/-- **Head and body** of the answer to a complete request: unless the URI is one of three, nothing has been
found, and the body is empty. -/
theorem answerText_split (uri now : List UInt8) :
    ∃ head ∈ [rootHead, faviconHead, helloHead, notFoundHead], ∃ body,
      answerText uri now = head ++ body ∧ (body = [] ↔ ¬ HasBody uri) ∧
        (head = notFoundHead ↔ ¬ HasBody uri) := by
  rw [HasBody]
  by_cases hroot : uri = ascii "/"
  · refine ⟨rootHead, by simp,
      ascii "<html><head><title>This is title</title></head><body><h1>Hello</h1>Now is " ++
        (now ++ ascii "</body></html>"), ?_, ?_, ?_⟩
    · rw [answerText, if_pos hroot]
      simp only [rootHead, List.append_assoc]
    · simp only [hroot, true_or, not_true, iff_false]
      exact List.append_ne_nil_of_left_ne_nil (by decide) _
    · simp only [hroot, true_or, not_true, iff_false]
      decide
  · by_cases hfavicon : uri = ascii "/favicon.ico"
    · refine ⟨faviconHead, by simp, cString favicon, ?_, ?_, ?_⟩
      · rw [answerText, if_neg hroot, if_pos hfavicon, faviconHead]
      · simp only [hfavicon, true_or, or_true, not_true, iff_false]
        decide
      · simp only [hfavicon, true_or, or_true, not_true, iff_false]
        decide
    · by_cases hhello : uri = ascii "/hello"
      · refine ⟨helloHead, by simp,
          ascii "<html><head>" ++ ascii "hello, world!\n" ++ ascii "</head></html>", ?_, ?_, ?_⟩
        · rw [answerText, if_neg hroot, if_neg hfavicon, if_pos hhello]
          simp only [helloHead, List.append_assoc]
        · simp only [hhello, or_true, not_true, iff_false]
          decide
        · simp only [hhello, or_true, not_true, iff_false]
          decide
      · refine ⟨notFoundHead, by simp, [], ?_, ?_, ?_⟩
        · rw [answerText, if_neg hroot, if_neg hfavicon, if_neg hhello, List.append_nil, notFoundHead]
        · simp only [hroot, hfavicon, hhello, or_self, not_false_eq_true]
        · simp only [hroot, hfavicon, hhello, or_self, not_false_eq_true]

end HttpContext

/-! ### The two requests -/

/-- The same request with another method. -/
def PlainRequest.withMethod (r : PlainRequest) (method : METHOD) : PlainRequest :=
  { r with method := method }

namespace HttpContext

/-- `work` appends `answer` when the request arrives at a context between two requests. -/
def Appends (now : List UInt8) (i : IdleContext) (r : PlainRequest) (answer : List UInt8) : Prop :=
  ∃ d, deliver now i.toHttpContext r.bytes = some d ∧
    d.outputBuffer.content = i.outputBuffer.content ++ answer

/-- **The answer** to a request without `Connection` headers. -/
theorem appends_request (now : List UInt8) (i : IdleContext) (r : PlainRequest) :
    Appends now i r (versionText r.version ++ answerText r.uri now) :=
  deliver_whole now i r.toRequest r.consistent

/-- There is no other one. -/
theorem Appends.unique {now : List UInt8} {i : IdleContext} {r : PlainRequest} {answer answer' : List UInt8}
    (h : Appends now i r answer) (h' : Appends now i r answer') : answer = answer' := by
  obtain ⟨d, hd, hanswer⟩ := h
  obtain ⟨d', hd', hanswer'⟩ := h'
  rw [hd] at hd'
  cases hd'
  exact List.append_cancel_left (hanswer.symm.trans hanswer')

/-- `work` appends for the HEAD request the head of what it appends for the GET request. -/
def HeadMirrorsGet (now : List UInt8) (i : IdleContext) (r : PlainRequest) : Prop :=
  ∃ answer head body, Appends now i (r.withMethod .GET) answer ∧ splitHead answer = some (head, body) ∧
    Appends now i (r.withMethod .HEAD) head

/-- It does so exactly when the answer has no body. -/
theorem headMirrorsGet_iff_body {now : List UInt8} {r : PlainRequest} {text body : List UInt8}
    (htext : text ∈ [rootHead, faviconHead, helloHead, notFoundHead])
    (hsplit : answerText r.uri now = text ++ body) (i : IdleContext) :
    HeadMirrorsGet now i r ↔ body = [] := by
  have hget : Appends now i (r.withMethod .GET) (versionText r.version ++ (text ++ body)) := by
    rw [← hsplit]
    exact appends_request now i (r.withMethod .GET)
  have hhead : Appends now i (r.withMethod .HEAD) (versionText r.version ++ (text ++ body)) := by
    rw [← hsplit]
    exact appends_request now i (r.withMethod .HEAD)
  have hcut : splitHead (versionText r.version ++ (text ++ body)) =
      some (versionText r.version ++ text, body) := by
    rw [← List.append_assoc, splitHead_append (splitHead_heads r.version htext), List.nil_append]
  constructor
  · rintro ⟨answer, head, body', hanswer, hcut', hmirror⟩
    obtain rfl := hanswer.unique hget
    rw [hcut] at hcut'
    cases hcut'
    have hsame := List.append_cancel_left (hmirror.unique hhead)
    exact List.append_right_eq_self.mp hsame.symm
  · rintro rfl
    rw [List.append_nil] at hhead hget hcut
    exact ⟨_, _, [], hget, hcut, hhead⟩

/-- **HEAD mirrors GET** exactly for the URIs whose answer has no body: in every context between two
requests, for every version and all header lines that are no `Connection` headers. -/
theorem head_mirrors_get_iff (now : List UInt8) (i : IdleContext) (r : PlainRequest) :
    HeadMirrorsGet now i r ↔
      r.uri ≠ ascii "/" ∧ r.uri ≠ ascii "/favicon.ico" ∧ r.uri ≠ ascii "/hello" := by
  obtain ⟨text, htext, body, hsplit, hbody, -⟩ := answerText_split r.uri now
  rw [headMirrorsGet_iff_body htext hsplit i, hbody, HasBody, not_or, not_or]

/-- `HEAD /` is answered with the page. -/
theorem headRoot_answered_with_body : ¬ HeadMirrorsGet [] IdleContext.fresh rootRequest := by
  obtain ⟨text, htext, body, hsplit, hbody, -⟩ := answerText_split rootRequest.uri []
  rw [headMirrorsGet_iff_body htext hsplit, hbody, not_not]
  exact Or.inl rfl

end HttpContext

end WServer
