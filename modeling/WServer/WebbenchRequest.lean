import WServer.BuildRequest

/-!
# What the server makes of the requests of `webbench`

The options and the URL of a request of `webbench` are what the parser reads in it, where it takes it: a `GET`
or a `HEAD` of HTTP/1.0, or of HTTP/1.1 with the option `-k`.

* `ReadsRequest.eq_lines` — a request ends with its empty line;
* `not_answered_method`, `not_answered_version` — request lines that are refused;
* `Url.request` — a request of `webbench` as a request of the parser;
* `build_request_answered` — which ones are taken, and what is read.
-/

namespace WServer

namespace HttpContext

variable {c d : HttpContext} {line rest : List UInt8} {lines headers : List (List UInt8)}

/-! ### The lines of an accepted text -/

/-- The parser makes a complete request of a text. -/
def Answered (text : List UInt8) : Prop :=
  ∃ c, (holding text).handleHttpRequest = some c ∧ c.requestState = .GET_REQUEST

/-- Of two comparable lists the first elements are the same, and the rests are comparable. -/
theorem comparable_cons {a b : List UInt8} {l m : List (List UInt8)}
    (h : a :: l <+: b :: m ∨ b :: m <+: a :: l) : a = b ∧ (l <+: m ∨ m <+: l) := by
  rcases h with h | h
  · obtain ⟨heq, hrest⟩ := List.cons_prefix_cons.mp h
    exact ⟨heq, Or.inl hrest⟩
  · obtain ⟨heq, hrest⟩ := List.cons_prefix_cons.mp h
    exact ⟨heq.symm, Or.inr hrest⟩

/-- Lines that are read to the end of the headers are those up to the empty line. -/
theorem ReadsRequest.eq_lines (h : ReadsRequest c lines d) (hcs : c.checkState = .HEADER)
    (hheaders : ∀ h ∈ headers, ¬ LooksEmpty h)
    (hcomparable : lines <+: headers ++ [[]] ∨ headers ++ [[]] <+: lines) : lines = headers ++ [[]] := by
  induction h generalizing headers with
  | @last c line _ _ hbody =>
      have hempty := (takeLine_ends hcs).mp hbody
      cases headers with
      | nil => rw [(comparable_cons hcomparable).1, List.nil_append]
      | cons first headers =>
          rw [(comparable_cons hcomparable).1] at hempty
          exact absurd hempty (hheaders first List.mem_cons_self)
  | @more c d line lines _ hhead _ ih =>
      cases headers with
      | nil =>
          have hempty : LooksEmpty line := by
            rw [(comparable_cons hcomparable).1]
            rfl
          rw [(takeLine_ends hcs).mpr hempty] at hhead
          cases hhead
      | cons first headers =>
          obtain ⟨heq, hrest⟩ := comparable_cons hcomparable
          rw [heq, ih hhead (fun h hh => hheaders h (List.mem_cons_of_mem first hh)) hrest, List.cons_append]

/-- What is known of a text that is accepted and starts with a line. -/
theorem Answered.first {text : List UInt8} (h : Answered text)
    (htext : text = wireLines (line :: lines)) (hline : CR ∉ line) :
    ∃ hs d rest, Holds (wireLines lines) hs rest ∧
      ((holding text).takeLine line).requestState ≠ .BAD_REQUEST ∧
      ((holding text).takeLine line).checkState = .HEADER ∧
      ReadsRequest ((holding text).takeLine line) hs d := by
  obtain ⟨c, hc, hget⟩ := h
  obtain ⟨first, hs, d, hholds, hok, hhead, hreads⟩ := holding_reads hc hget
  have hcut : LineCut text line (wireLines lines) := by
    have hwire := lineCut_wireLines hline lines []
    rwa [List.append_nil, List.append_nil, ← htext] at hwire
  obtain ⟨rfl, hrest⟩ := lineCut_unique hholds.lineCut hcut
  have htail := hholds.tail
  rw [hrest] at htail
  exact ⟨hs, d, _, htail, hok, hhead, hreads⟩

/-- A request line with a method that the parser does not know. -/
theorem not_answered_method {text name : List UInt8} (htext : text = wireLines ((name ++ SP :: rest) :: lines))
    (hline : CR ∉ name ++ SP :: rest) (hname : ∀ b ∈ name, isToken b = true) (hnone : methodOf name = none) :
    ¬ Answered text := by
  intro h
  obtain ⟨hs, d, rest', -, hok, -, -⟩ := h.first htext hline
  refine hok ?_
  have hscan : scanWhile isToken (name ++ SP :: (rest ++ [NUL, NUL])) 0 = name.length := by
    have htoken := scanWhile_token isToken [] name (rest ++ [NUL, NUL]) hname (show isToken SP = false by decide)
    simpa using htoken
  have hcut : substr (name ++ SP :: (rest ++ [NUL, NUL])) 0 (name.length - 0) = name := by
    have htoken := substr_token [] name (SP :: (rest ++ [NUL, NUL]))
    simpa using htoken
  rw [takeLine, if_pos (show (holding text).checkState = .REQUEST_LINE from rfl), parseRequestLine]
  simp only [List.append_assoc, List.cons_append, hscan, hcut, hnone]

/-- A request line without a version. -/
theorem not_answered_version {text uri : List UInt8} {m : METHOD}
    (htext : text = wireLines ((methodName m ++ SP :: uri) :: lines))
    (huri : ∀ b ∈ uri, b ≠ SP ∧ b ≠ CR ∧ b ≠ LF ∧ b ≠ NUL) (hne : uri ≠ []) : ¬ Answered text := by
  intro h
  have hmethod : CR ∉ methodName m := by cases m <;> decide
  have hline : CR ∉ methodName m ++ SP :: uri := by
    rw [List.mem_append, List.mem_cons]
    rintro (hmem | hmem | hmem)
    · exact hmethod hmem
    · exact absurd hmem (by decide)
    · exact (huri CR hmem).2.1 rfl
  obtain ⟨hs, d, rest, -, hok, -, -⟩ := h.first htext hline
  refine hok ?_
  -- the line, cut behind its method, the blank and the URI
  obtain ⟨new, hnew⟩ : ∃ new, new = methodName m ++ SP :: uri ++ [NUL, NUL] := ⟨_, rfl⟩
  have hnew₁ : new = methodName m ++ SP :: (uri ++ [NUL, NUL]) := by rw [hnew, List.append_assoc, List.cons_append]
  have hnew₂ : new = methodName m ++ [SP] ++ (uri ++ NUL :: [NUL]) := by
    rw [hnew₁, List.append_assoc, List.singleton_append]
  have hnew₃ : new = methodName m ++ [SP] ++ uri ++ ([] ++ NUL :: [NUL]) := by
    rw [hnew₂, List.append_assoc, List.append_assoc, List.nil_append, List.append_assoc]
  have hm : scanWhile isToken new 0 = (methodName m).length := by
    have htoken := scanWhile_token isToken [] (methodName m) (uri ++ [NUL, NUL]) (methodName_token m)
      (show isToken SP = false by decide)
    rw [hnew₁]
    simpa using htoken
  have hname : substr new 0 ((methodName m).length - 0) = methodName m := by
    have htoken := substr_token [] (methodName m) (SP :: (uri ++ [NUL, NUL]))
    rw [hnew₁]
    simpa using htoken
  have hblank : scanWhile isBlank new (methodName m).length = (methodName m ++ [SP]).length := by
    rw [hnew₁]
    exact scanWhile_blank hne fun b hb => (huri b hb).1
  have hend : scanWhile isToken new (methodName m ++ [SP]).length = (methodName m ++ [SP] ++ uri).length := by
    rw [hnew₂]
    exact scanWhile_token isToken _ uri [NUL] (fun b hb => isToken_of_ne (huri b hb).1 (huri b hb).2.2.2)
      (by decide)
  have hstop : ∀ p : UInt8 → Bool, p NUL = false →
      scanWhile p new (methodName m ++ [SP] ++ uri).length = (methodName m ++ [SP] ++ uri).length := by
    intro p hp
    rw [hnew₃]
    have htoken := scanWhile_token p (methodName m ++ [SP] ++ uri) [] [NUL] (List.forall_mem_nil _) hp
    rwa [List.append_nil] at htoken
  rw [takeLine, if_pos (show (holding text).checkState = .REQUEST_LINE from rfl), parseRequestLine, ← hnew]
  have hempty : ∀ i, substr new i 0 = [] := fun i => List.take_zero
  have hnone : versionOf [] = none := by decide
  simp only [hm, hname, methodOf_methodName, hblank, hend, hstop isBlank (by decide), hstop isToken (by decide),
    Nat.sub_self, hempty, hnone]

/-- An accepted text that starts with the lines of a request is consistent with `Keep-Alive`. -/
theorem Answered.consistent {r : Request} (h : Answered r.bytes) : r.Consistent := by
  obtain ⟨hs, d, rest, hholds, -, hhead, hreads⟩ := h.first rfl (CR_notMem_requestLine r)
  have hheaders : ∀ h ∈ r.headers, ¬ LooksEmpty h := by
    intro h hh hempty
    obtain ⟨x, t, rfl⟩ := List.exists_cons_of_ne_nil (r.header_ne_nil h hh)
    exact (r.header_bytes _ hh x List.mem_cons_self).2.2 hempty
  have hlines : Holds (wireLines (r.headers ++ [[]])) (r.headers ++ [[]]) [] := by
    have htail := (holds_request r []).tail
    rwa [List.append_nil] at htail
  have heq := hreads.eq_lines hhead hheaders (holds_comparable hholds hlines)
  intro h hh
  refine hreads.consistent hhead h ?_ (hheaders h hh)
  rw [heq]
  exact List.mem_append_left _ hh

end HttpContext

namespace Webbench

open HttpContext

/-! ### A request of `webbench` as a request of the parser -/

/-- The methods that the parser knows. -/
def parserMethod : Method → Option METHOD
  | .GET => some .GET
  | .HEAD => some .HEAD
  | .OPTIONS | .TRACE => none

theorem methodOf_methodText (m : Method) : methodOf (methodText m) = parserMethod m := by
  cases m <;> decide

theorem methodName_of_parserMethod {m : Method} {m' : METHOD} (h : parserMethod m = some m') :
    methodText m = methodName m' := by
  cases m <;> cases h <;> rfl

/-- A byte that may stand in a URI. -/
def UriByte (b : UInt8) : Prop := b ≠ SP ∧ b ≠ CR ∧ b ≠ LF ∧ b ≠ NUL

instance (b : UInt8) : Decidable (UriByte b) := inferInstanceAs (Decidable (_ ∧ _))

namespace Url

variable {o : Options} {u : Url}

theorem mem_text_of_host {b : UInt8} (h : b ∈ u.host) : b ∈ u.text :=
  List.mem_append_right _ (List.mem_append_left _ ((List.takeWhile_prefix _).mem h))

theorem target_bytes (h : ∀ b ∈ u.text, UriByte b) : ∀ b ∈ u.target o, UriByte b := by
  intro b hb
  rw [target] at hb
  split at hb
  · exact h b (List.mem_append_right _ (List.mem_append_right _ hb))
  · exact h b hb

theorem target_ne_nil (o : Options) (u : Url) : u.target o ≠ [] := by
  have hpath : u.path ≠ [] := by
    intro hnil
    have hhead := u.path_head
    rw [hnil] at hhead
    cases hhead
  rw [target]
  split
  · exact hpath
  · exact List.append_ne_nil_of_right_ne_nil _ (List.append_ne_nil_of_right_ne_nil _ hpath)

/-- A header line of a request of `webbench`. -/
inductive HeaderLine (o : Options) (u : Url) : List UInt8 → Prop where
  | agent : HeaderLine o u (ascii "User-Agent: WebBench 1.5")
  | host : HeaderLine o u (ascii "Host: " ++ u.host)
  | pragma : HeaderLine o u (ascii "Pragma: no-cache")
  | keepAlive : o.forced = 2 → o.keepAlive = true → HeaderLine o u (ascii "Connection: Keep-Alive")
  | close : o.forced = 2 → o.keepAlive = false → HeaderLine o u (ascii "Connection: close")

theorem headerLine_of_mem {h : List UInt8} (hh : h ∈ u.headers o) : HeaderLine o u h := by
  rw [headers, List.mem_append, List.mem_append, List.mem_append] at hh
  rcases hh with ((hh | hh) | hh) | hh
  · rw [List.mem_singleton.mp hh]
    exact .agent
  · split at hh
    · rw [List.mem_singleton.mp hh]
      exact .host
    · cases hh
  · split at hh
    · rw [List.mem_singleton.mp hh]
      exact .pragma
    · cases hh
  · split at hh
    · next htwo =>
        rw [List.mem_singleton.mp hh]
        split
        · next hkeep => exact .keepAlive htwo hkeep
        · next hclose => exact .close htwo (Bool.eq_false_iff.mpr hclose)
    · cases hh

theorem connection_mem (h : o.forced = 2) :
    (if o.keepAlive then ascii "Connection: Keep-Alive" else ascii "Connection: close") ∈ u.headers o := by
  rw [headers, if_pos h]
  exact List.mem_append_right _ (List.mem_singleton_self _)

namespace HeaderLine

variable {line : List UInt8}

theorem ne_nil (h : HeaderLine o u line) : line ≠ [] := by
  cases h with
  | host => exact List.append_ne_nil_of_left_ne_nil (by decide) _
  | agent | pragma | keepAlive | close => decide

theorem bytes (h : HeaderLine o u line) (hplain : ∀ b ∈ u.text, UriByte b) :
    ∀ b ∈ line, b ≠ CR ∧ b ≠ LF ∧ b ≠ NUL := by
  cases h with
  | host =>
      intro b hb
      rcases List.mem_append.mp hb with hname | hhost
      · exact forall_bytes (p := fun b => b ≠ CR ∧ b ≠ LF ∧ b ≠ NUL) (by decide) b hname
      · exact (hplain b (mem_text_of_host hhost)).2
  | agent | pragma | keepAlive | close => exact forall_bytes (by decide)

/-- Which of the lines speak of the connection. -/
theorem connection (h : HeaderLine o u line) (hconn : IsConnectionHeader line) :
    o.forced = 2 ∧ (o.keepAlive = true ↔ IsKeepAliveHeader line) := by
  cases h with
  | agent | pragma => exact absurd hconn (by decide)
  | host => exact absurd (List.cons.inj hconn).1 (by decide)
  | keepAlive htwo hkeep => exact ⟨htwo, iff_of_true hkeep (by decide)⟩
  | close htwo hclose => exact ⟨htwo, iff_of_false (Bool.eq_false_iff.mp hclose) (by decide)⟩

end HeaderLine

/-- A request that the parser may take. -/
def request (o : Options) (u : Url) (m : METHOD) (hplain : ∀ b ∈ u.text, UriByte b) : Request where
  method := m
  uri := u.target o
  version := o.version
  headers := u.headers o
  uri_ne_nil := target_ne_nil o u
  uri_bytes := target_bytes hplain
  header_ne_nil _ hh := (headerLine_of_mem hh).ne_nil
  header_bytes _ hh := (headerLine_of_mem hh).bytes hplain

theorem request_bytes {m : METHOD} (hm : parserMethod o.method = some m) (hforced : o.forced ≠ 0)
    (hplain : ∀ b ∈ u.text, UriByte b) : (u.request o m hplain).bytes = (u.built o).request := by
  have hversion : versionName (u.request o m hplain).version =
      if o.forced = 1 then ascii "HTTP/1.0" else ascii "HTTP/1.1" := by
    rw [request, Options.version]
    split <;> rfl
  rw [Request.bytes, Request.requestLine, hversion, built, lines, if_neg hforced,
    methodName_of_parserMethod hm]
  rfl

theorem request_consistent_iff {m : METHOD} (hplain : ∀ b ∈ u.text, UriByte b) :
    (u.request o m hplain).Consistent ↔ (o.forced = 2 → o.keepAlive = true) := by
  constructor
  · intro hcons htwo
    have hmem := @connection_mem o u htwo
    have hconn : IsConnectionHeader
        (if o.keepAlive then ascii "Connection: Keep-Alive" else ascii "Connection: close") := by
      split <;> decide
    exact ((headerLine_of_mem hmem).connection hconn).2.mpr (hcons _ hmem hconn)
  · intro hkeep h hh hconn
    obtain ⟨htwo, hiff⟩ := (headerLine_of_mem hh).connection hconn
    exact hiff.mp (hkeep htwo)

theorem request_keepAlive_iff {m : METHOD} (hplain : ∀ b ∈ u.text, UriByte b) :
    (∃ h ∈ (u.request o m hplain).headers, IsKeepAliveHeader h) ↔ o.forced = 2 ∧ o.keepAlive = true := by
  constructor
  · rintro ⟨h, hh, hkeep⟩
    obtain ⟨htwo, hiff⟩ := (headerLine_of_mem hh).connection hkeep.1
    exact ⟨htwo, hiff.mpr hkeep⟩
  · rintro ⟨htwo, hkeep⟩
    have hmem := @connection_mem o u htwo
    rw [if_pos hkeep] at hmem
    exact ⟨_, hmem, by decide⟩

theorem parserMethod_isSome_iff (m : Method) : (∃ m', parserMethod m = some m') ↔ m = .GET ∨ m = .HEAD := by
  cases m <;> simp [parserMethod]

/-- The request line of a method that the parser does not know. -/
theorem not_answered_of_none (hplain : ∀ b ∈ u.text, UriByte b) (hnone : parserMethod o.method = none) :
    ¬ Answered (u.built o).request := by
  have hmethod : ∀ b ∈ methodText o.method, isToken b = true ∧ b ≠ CR := by
    cases o.method <;> exact forall_bytes (by decide)
  have huri : CR ∉ u.target o := fun hmem => (target_bytes hplain CR hmem).2.1 rfl
  have hversion : CR ∉ if o.forced = 1 then ascii "HTTP/1.0" else ascii "HTTP/1.1" := by
    split <;> decide
  have hname : CR ∉ methodText o.method := fun hmem => (hmethod CR hmem).2 rfl
  have hblank : CR ≠ SP := by decide
  rw [built, lines]
  dsimp only
  split
  · refine not_answered_method rfl ?_ (fun b hb => (hmethod b hb).1) ((methodOf_methodText _).trans hnone)
    simp only [List.mem_append, List.mem_cons, hname, hblank, huri, or_self, not_false_eq_true]
  · refine not_answered_method rfl ?_ (fun b hb => (hmethod b hb).1) ((methodOf_methodText _).trans hnone)
    simp only [List.mem_append, List.mem_cons, hname, hblank, huri, hversion, or_self, not_false_eq_true]

/-- A request of these options is read. -/
theorem request_read {m : METHOD} (hm : parserMethod o.method = some m) (htaken : Taken o)
    (hplain : ∀ b ∈ u.text, UriByte b) : ∃ c, (holding (u.built o).request).handleHttpRequest = some c ∧
      RequestRead (holding (u.built o).request) c (u.request o m hplain) [] := by
  refine parse_request _ [] ((request_consistent_iff hplain).mpr htaken.2.2) rfl ?_
  rw [holding_content, request_bytes hm htaken.2.1 hplain, List.append_nil]

/-- **The parser takes** the requests of these options, and no others. -/
theorem answered_iff (hplain : ∀ b ∈ u.text, UriByte b) : Answered (u.built o).request ↔ Taken o := by
  constructor
  · intro h
    cases hm : parserMethod o.method with
    | none => exact absurd h (not_answered_of_none hplain hm)
    | some m =>
        have hforced : o.forced ≠ 0 := by
          intro hzero
          have hline : (u.built o).request = wireLines ((methodName m ++ SP :: u.target o) :: []) := by
            rw [built, lines, if_pos hzero, methodName_of_parserMethod hm]
          exact not_answered_version hline (target_bytes hplain) (target_ne_nil o u) h
        rw [← request_bytes hm hforced hplain] at h
        exact ⟨(parserMethod_isSome_iff _).mp ⟨m, hm⟩, hforced, (request_consistent_iff hplain).mp h.consistent⟩
  · intro htaken
    obtain ⟨m, hm⟩ := (parserMethod_isSome_iff _).mpr htaken.1
    obtain ⟨c, hc, hread⟩ := request_read hm htaken hplain
    exact ⟨c, hc, hread.complete⟩

/-- **The server and `webbench`.**  A URL whose parts fit into the arrays, and in which no byte ends a URI
early, makes a request that the parser takes exactly for a `GET` or a `HEAD` of HTTP/1.0, or of HTTP/1.1 with
`-k`.  Then it reads what was asked for, keeps the connection exactly for HTTP/1.1, and leaves nothing. -/
theorem build_request_answered (hfits : u.Fits o) (hplain : ∀ b ∈ u.text, UriByte b) :
    ∃ b, buildRequest o u.text = .ok b ∧ (Answered b.request ↔ Taken o) ∧
      ∀ c, (holding b.request).handleHttpRequest = some c → c.requestState = .GET_REQUEST →
        methodName c.method = methodText o.method ∧ c.uri = u.target o ∧
          (c.version = .HTTP_1_1 ↔ o.forced = 2) ∧ (c.connection = .KEEP_ALIVE ↔ o.forced = 2) ∧
          c.inputBuffer.content = [] := by
  refine ⟨u.built o, built_of_fits hfits, answered_iff hplain, fun c hc hget => ?_⟩
  have htaken := (answered_iff hplain).mp ⟨c, hc, hget⟩
  obtain ⟨m, hm⟩ := (parserMethod_isSome_iff _).mpr htaken.1
  obtain ⟨c', hc', hread⟩ := request_read hm htaken hplain
  rw [hc] at hc'
  cases hc'
  refine ⟨?_, hread.uri, ?_, ?_, hread.input⟩
  · rw [hread.method, methodName_of_parserMethod hm]
    rfl
  · rw [hread.version, request, Options.version]
    have hforced := htaken.2.1
    dsimp only
    split
    · next hone => exact iff_of_false (by decide) (by rw [hone]; decide)
    · exact iff_of_true rfl (by omega)
  · rw [hread.connection, Request.connectionFrom]
    have hkeep := @request_keepAlive_iff o u m hplain
    split
    · next hasks => exact iff_of_true rfl (hkeep.mp hasks).1
    · next hasks =>
        refine iff_of_false (show CONNECTION.CLOSE ≠ .KEEP_ALIVE by decide) fun htwo => ?_
        exact hasks (hkeep.mpr ⟨htwo, htaken.2.2 htwo⟩)

/-- `webbench -2 -k http://a:1/` -/
def localUrl : Url where
  scheme := ascii "http://"
  authority := ascii "a:1"
  path := ascii "/"
  scheme_eq := by decide
  authority_bytes := by decide
  path_head := rfl

def keepOptions : Options := ⟨.GET, Fin.last 2, false, none, 80, true⟩

theorem build_request_answered_local : ∃ b, buildRequest keepOptions (ascii "http://a:1/") = .ok b ∧
    (Answered b.request ↔ Taken keepOptions) ∧
      ∀ c, (holding b.request).handleHttpRequest = some c → c.requestState = .GET_REQUEST →
        methodName c.method = methodText keepOptions.method ∧ c.uri = localUrl.target keepOptions ∧
          (c.version = .HTTP_1_1 ↔ keepOptions.forced = 2) ∧
          (c.connection = .KEEP_ALIVE ↔ keepOptions.forced = 2) ∧ c.inputBuffer.content = [] :=
  build_request_answered (u := localUrl) (o := keepOptions)
    ⟨by decide, fun _ => by decide, fun _ _ => by decide, fun _ => by decide⟩ (forall_bytes (by decide))

end Url

end Webbench

end WServer
