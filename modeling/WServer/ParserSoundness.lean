import Mathlib.Data.List.DropRight
import Mathlib.Data.List.TakeWhile
import WServer.RequestGrammar

/-!
# What the parser accepts

Is everything that a fresh context accepts a well-formed request?  `RequestForm` is the grammar: a
request line of method, URI and version, header lines, an empty line.  The parser reads the request line
word by word and stops behind the version, and it tells an empty line by its first byte.

* `parseRequestLine_words` — a request line the parser takes starts with the words of one;
* `behindVersion_words` — what follows them is what `behindVersion` finds in the line;
* `accepted_form_iff` — an accepted text is well-formed exactly where only blanks follow the version in
  its request line and no line of its headers starts with a NUL.
-/

namespace WServer

namespace HttpContext

variable {c d : HttpContext} {line content rest rest' : List UInt8} {lines lines' : List (List UInt8)}

/-! ### The grammar -/

/-- The words of a request line and the blanks between them. -/
structure RequestWords where
  method : METHOD
  gap : ℕ
  uri : List UInt8
  gap' : ℕ
  version : HTTP_VERSION
  gap_pos : 0 < gap
  uri_ne_nil : uri ≠ []
  uri_bytes : SP ∉ uri
  gap'_pos : 0 < gap'

/-- The text of the words. -/
def RequestWords.text (w : RequestWords) : List UInt8 :=
  methodName w.method ++ (List.replicate w.gap SP ++ (w.uri ++ (List.replicate w.gap' SP ++
    versionName w.version)))

/-- Method, URI and version, and nothing else but trailing blanks. -/
def RequestLineForm (line : List UInt8) : Prop :=
  ∃ (w : RequestWords) (n : ℕ), line = w.text ++ List.replicate n SP

/-- A request line, header lines that are not empty, an empty line. -/
def RequestForm (bytes : List UInt8) : Prop :=
  ∃ first headers, bytes = wireLines (first :: (headers ++ [[]])) ∧ RequestLineForm first ∧
    (∀ h ∈ headers, h ≠ []) ∧ ∀ line ∈ first :: headers, CR ∉ line

/-! ### Runs of tokens and blanks -/

/-- What follows the third word of a line; blanks separate the words, and a NUL ends the last. -/
def behindVersion (line : List UInt8) : List UInt8 :=
  ((((line.dropWhile isToken).dropWhile isBlank).dropWhile isToken).dropWhile isBlank).dropWhile isToken

theorem takeWhile_dropWhile (p : UInt8 → Bool) (l : List UInt8) :
    (l.dropWhile p).takeWhile p = [] := by
  have h := List.takeWhile_append_dropWhile (p := p) (l := l.dropWhile p)
  rw [List.dropWhile_idempotent] at h
  simpa using h

theorem dropWhile_of_takeWhile {p : UInt8 → Bool} {l : List UInt8} (h : l.takeWhile p = []) :
    l.dropWhile p = l := by
  have h' := List.takeWhile_append_dropWhile (p := p) (l := l)
  rwa [h, List.nil_append] at h'

/-- A run of bytes that satisfy `p`, followed by none, is what `dropWhile` drops. -/
theorem dropWhile_run {p : UInt8 → Bool} {l rest : List UInt8} (hl : ∀ b ∈ l, p b = true)
    (hrest : rest.takeWhile p = []) : (l ++ rest).dropWhile p = rest := by
  rw [List.dropWhile_append_of_pos hl, dropWhile_of_takeWhile hrest]

theorem drop_scanWhile (p : UInt8 → Bool) (l : List UInt8) (i : ℕ) :
    l.drop (scanWhile p l i) = (l.drop i).dropWhile p := by
  rw [scanWhile, ← List.drop_drop]
  nth_rewrite 2 [← List.takeWhile_append_dropWhile (p := p) (l := l.drop i)]
  exact List.drop_left

theorem substr_scanWhile (p : UInt8 → Bool) (l : List UInt8) (i : ℕ) :
    substr l i (scanWhile p l i - i) = (l.drop i).takeWhile p := by
  rw [substr, scanWhile, Nat.add_sub_cancel_left]
  nth_rewrite 2 [← List.takeWhile_append_dropWhile (p := p) (l := l.drop i)]
  exact List.take_left

theorem blanks_eq_replicate (l : List UInt8) :
    l.takeWhile isBlank = List.replicate (l.takeWhile isBlank).length SP := by
  refine List.eq_replicate_of_mem fun b hb => ?_
  have := List.mem_takeWhile_imp hb
  simp only [isBlank, Bool.and_eq_true, beq_iff_eq] at this
  exact this.1

theorem methodOf_eq_some {name : List UInt8} {m : METHOD} (h : methodOf name = some m) :
    name = methodName m := by
  rw [methodOf] at h
  split at h
  · cases h
    assumption
  · split at h
    · cases h
      assumption
    · cases h

theorem versionOf_eq_some {text : List UInt8} {v : HTTP_VERSION} (h : versionOf text = some v) :
    text = versionName v := by
  rw [versionOf] at h
  split at h
  · cases h
    assumption
  · split at h
    · cases h
      assumption
    · cases h

theorem versionName_ne_nil (v : HTTP_VERSION) : versionName v ≠ [] := by cases v <;> decide

/-! ### The request line -/

/-- A request line that is taken has a method and, two runs of blanks later, a version. -/
theorem parseRequestLine_tokens (h : c.parseRequestLine.requestState ≠ .BAD_REQUEST) :
    ∃ m v, c.newLine.takeWhile isToken = methodName m ∧
      ((((c.newLine.dropWhile isToken).dropWhile isBlank).dropWhile isToken).dropWhile
        isBlank).takeWhile isToken = versionName v := by
  rw [parseRequestLine] at h
  simp only [substr_scanWhile, drop_scanWhile, List.drop_zero] at h
  cases hm : methodOf (c.newLine.takeWhile isToken) with
  | none => simp [hm] at h
  | some m =>
      simp only [hm] at h
      split at h
      · exact absurd rfl h
      · rename_i v hv
        exact ⟨m, v, methodOf_eq_some hm, versionOf_eq_some hv⟩

/-- **The words of a request line.**  A line that the parser takes starts with them, and the last one
ends where the line of the parser says. -/
theorem parseRequestLine_words (h : c.parseRequestLine.requestState ≠ .BAD_REQUEST) :
    ∃ (w : RequestWords) (tail : List UInt8), NUL ∉ w.uri ∧ c.newLine = w.text ++ tail ∧
      tail.takeWhile isToken = [] := by
  obtain ⟨m, v, hm, hv⟩ := parseRequestLine_tokens h
  -- the line, cut into runs: method, blanks, URI, blanks, version, tail
  set d₁ := c.newLine.dropWhile isToken with hd₁
  set s₁ := d₁.dropWhile isBlank with hs₁
  set d₂ := s₁.dropWhile isToken with hd₂
  set s₂ := d₂.dropWhile isBlank with hs₂
  have hvne : s₂.takeWhile isToken ≠ [] := by
    rw [hv]
    exact versionName_ne_nil v
  have huri : s₁.takeWhile isToken ≠ [] := by
    -- without a URI there would be no version
    intro hnil
    refine hvne ?_
    rw [hs₂, hd₂, dropWhile_of_takeWhile hnil, hs₁, List.dropWhile_idempotent, ← hs₁, hnil]
  have hblank : d₁.takeWhile isBlank ≠ [] := by
    intro hnil
    refine huri ?_
    rw [hs₁, dropWhile_of_takeWhile hnil, hd₁, takeWhile_dropWhile]
  have hblank' : d₂.takeWhile isBlank ≠ [] := by
    intro hnil
    refine hvne ?_
    rw [hs₂, dropWhile_of_takeWhile hnil, hd₂, takeWhile_dropWhile]
  have htoken : ∀ b ∈ s₁.takeWhile isToken, b ≠ SP ∧ b ≠ NUL := by
    intro b hb
    simpa [isToken] using List.mem_takeWhile_imp hb
  refine ⟨⟨m, (d₁.takeWhile isBlank).length, s₁.takeWhile isToken, (d₂.takeWhile isBlank).length, v,
    List.length_pos_iff.mpr hblank, huri, fun hsp => (htoken SP hsp).1 rfl,
    List.length_pos_iff.mpr hblank'⟩, s₂.dropWhile isToken, fun hnul => (htoken NUL hnul).2 rfl, ?_,
    takeWhile_dropWhile _ _⟩
  rw [RequestWords.text, ← blanks_eq_replicate, ← blanks_eq_replicate, ← hm, ← hv]
  simp only [List.append_assoc, List.takeWhile_append_dropWhile]
  rw [hs₂, List.takeWhile_append_dropWhile, hd₂, List.takeWhile_append_dropWhile, hs₁,
    List.takeWhile_append_dropWhile, hd₁, List.takeWhile_append_dropWhile]

/-- A NUL-free beginning of a terminated line is a beginning of the line. -/
theorem terminated_append {words tail : List UInt8} (hnul : NUL ∉ words)
    (h : line ++ [NUL, NUL] = words ++ tail) : ∃ t, line = words ++ t ∧ tail = t ++ [NUL, NUL] := by
  rcases List.append_eq_append_iff.mp h with ⟨t, hwords, htail⟩ | ⟨t, hline, htail⟩
  · -- the words would reach into the terminator
    cases t with
    | nil => exact ⟨[], by simpa using hwords.symm, htail.symm⟩
    | cons x t =>
        obtain ⟨rfl, -⟩ := List.cons.inj htail
        exact absurd (by rw [hwords]; simp) hnul
  · exact ⟨t, hline, htail⟩

theorem NUL_notMem_text (w : RequestWords) (h : NUL ∉ w.uri) : NUL ∉ w.text := by
  have hm : NUL ∉ methodName w.method := by cases w.method <;> decide
  have hv : NUL ∉ versionName w.version := by cases w.version <;> decide
  have hsp : NUL ≠ SP := by decide
  simp [RequestWords.text, hm, hv, h, hsp]

/-- **Accepted request lines** start with the words of one, and the last word ends there. -/
theorem accepted_words (hcs : c.checkState = .REQUEST_LINE)
    (hok : (c.takeLine line).requestState ≠ .BAD_REQUEST) :
    ∃ (w : RequestWords) (tail : List UInt8), NUL ∉ w.uri ∧ line = w.text ++ tail ∧
      tail.takeWhile isToken = [] := by
  rw [takeLine, if_pos hcs] at hok
  obtain ⟨w, tail, hnul, hline, htail⟩ := parseRequestLine_words hok
  obtain ⟨t, rfl, rfl⟩ := terminated_append (NUL_notMem_text w hnul) hline
  refine ⟨w, t, hnul, rfl, ?_⟩
  cases t with
  | nil => rfl
  | cons x t =>
      rw [List.cons_append, List.takeWhile_cons] at htail
      rw [List.takeWhile_cons]
      split at htail
      · cases htail
      · simp [*]

/-- The words up to the version, skipped by any reading that tells tokens from blanks. -/
theorem dropWhile_words {p q : UInt8 → Bool} (w : RequestWords) (tail : List UInt8)
    (hsp : p SP = false) (hsp' : q SP = true) (hpq : ∀ b, p b = true → q b = false)
    (hm : ∀ b ∈ methodName w.method, p b = true) (hu : ∀ b ∈ w.uri, p b = true)
    (hv : ∀ b ∈ versionName w.version, p b = true) :
    ((((w.text ++ tail).dropWhile p).dropWhile q).dropWhile p).dropWhile q
      = versionName w.version ++ tail := by
  have hblank : ∀ n, ∀ b ∈ List.replicate n SP, q b = true := by
    intro n b hb
    rw [List.eq_of_mem_replicate hb]
    exact hsp'
  -- a run of tokens ends at the blanks behind it, and a run of blanks at the token behind it
  have hstop : ∀ (n : ℕ) (s : List UInt8), 0 < n →
      (List.replicate n SP ++ s).takeWhile p = [] := by
    intro n s hn
    obtain ⟨k, rfl⟩ := Nat.exists_eq_succ_of_ne_zero hn.ne'
    rw [List.replicate_succ, List.cons_append, List.takeWhile_cons_of_neg (by rw [hsp]; simp)]
  have hstop' : ∀ t s : List UInt8, t ≠ [] → (∀ b ∈ t, p b = true) → (t ++ s).takeWhile q = [] := by
    intro t s hne ht
    obtain ⟨x, t, rfl⟩ := List.exists_cons_of_ne_nil hne
    rw [List.cons_append, List.takeWhile_cons_of_neg (by rw [hpq x (ht x (by simp))]; simp)]
  rw [RequestWords.text]
  simp only [List.append_assoc]
  rw [dropWhile_run hm (hstop _ _ w.gap_pos), dropWhile_run (hblank _) (hstop' _ _ w.uri_ne_nil hu),
    dropWhile_run hu (hstop _ _ w.gap'_pos),
    dropWhile_run (hblank _) (hstop' _ _ (versionName_ne_nil _) hv)]

/-- **Behind the version** the line holds what follows its words. -/
theorem behindVersion_words (w : RequestWords) {tail : List UInt8} (hnul : NUL ∉ w.uri)
    (htail : tail.takeWhile isToken = []) : behindVersion (w.text ++ tail) = tail := by
  have huri : ∀ b ∈ w.uri, isToken b = true := fun b hb =>
    isToken_of_ne (fun h => w.uri_bytes (h ▸ hb)) (fun h => hnul (h ▸ hb))
  have hpq : ∀ b, isToken b = true → isBlank b = false := by
    intro b hb
    simp only [isToken, Bool.and_eq_true, bne_iff_ne] at hb
    simp [isBlank, hb.1]
  rw [behindVersion, dropWhile_words w tail (by decide) (by decide) hpq (methodName_token w.method) huri
    (versionName_token w.version), dropWhile_run (versionName_token w.version) htail]

theorem versionName_length (v : HTTP_VERSION) : (versionName v).length = 8 := by cases v <;> decide

/-- However a line is cut into words and a tail, the tail is the same. -/
theorem tail_unique {w w' : RequestWords} {tail tail' : List UInt8}
    (h : w.text ++ tail = w'.text ++ tail') : tail = tail' := by
  have hskip : ∀ (w : RequestWords) (tail : List UInt8),
      ((((w.text ++ tail).dropWhile (· != SP)).dropWhile (· == SP)).dropWhile (· != SP)).dropWhile
        (· == SP) = versionName w.version ++ tail := by
    intro w tail
    refine dropWhile_words w tail (by decide) (by decide) (fun b hb => by simpa using hb) ?_ ?_ ?_
    · cases w.method <;> exact forall_bytes (by decide)
    · intro b hb
      have hne : b ≠ SP := fun hsp => w.uri_bytes (by rw [← hsp]; exact hb)
      simpa using hne
    · cases w.version <;> exact forall_bytes (by decide)
  have hversions : versionName w.version ++ tail = versionName w'.version ++ tail' := by
    rw [← hskip w tail, h, hskip w' tail']
  have hdrop := congrArg (List.drop 8) hversions
  rwa [List.drop_left' (versionName_length _), List.drop_left' (versionName_length _)] at hdrop

/-- **One request line.**  A line that the parser takes has the form of one exactly where only blanks
follow the version. -/
theorem requestLineForm_iff (hcs : c.checkState = .REQUEST_LINE)
    (hok : (c.takeLine line).requestState ≠ .BAD_REQUEST) :
    RequestLineForm line ↔ ∀ b ∈ behindVersion line, b = SP := by
  obtain ⟨w, tail, hnul, rfl, htail⟩ := accepted_words hcs hok
  rw [behindVersion_words w hnul htail]
  constructor
  · rintro ⟨w', n, heq⟩ b hb
    rw [tail_unique heq] at hb
    exact List.eq_of_mem_replicate hb
  · intro hblank
    exact ⟨w, tail.length, by rw [← List.eq_replicate_of_mem hblank]⟩

/-! ### The whole text -/

/-- Only blanks follow the third word of the first line. -/
def BlankBehindVersion (input : List UInt8) : Prop :=
  ∀ line rest, LineCut input line rest → ∀ b ∈ behindVersion line, b = SP

/-- No line between the first line and the first empty one starts with a NUL. -/
def NoNulHeader (input : List UInt8) : Prop :=
  ∀ first headers line rest, Holds input (first :: (headers ++ [line])) rest →
    (∀ h ∈ headers, h ≠ []) → line.head? ≠ some NUL

theorem looksEmpty_iff (line : List UInt8) : LooksEmpty line ↔ line = [] ∨ line.head? = some NUL := by
  cases line with
  | nil => simp [LooksEmpty, charAt]
  | cons x line => simp [LooksEmpty, charAt]

/-- The lines of a well-formed text. -/
theorem RequestForm.holds {bytes : List UInt8} (h : RequestForm bytes) (rest : List UInt8) :
    ∃ first headers, Holds (bytes ++ rest) (first :: (headers ++ [[]])) rest ∧ RequestLineForm first ∧
      ∀ h ∈ headers, h ≠ [] := by
  obtain ⟨first, headers, rfl, hform, hne, hcr⟩ := h
  refine ⟨first, headers, ⟨rfl, fun line hline => ?_⟩, hform, hne⟩
  rw [← List.cons_append, List.mem_append, List.mem_singleton] at hline
  rcases hline with hline | rfl
  · exact hcr line hline
  · simp

/-- What an accepted text owes to being well-formed. -/
theorem conditions_of_form {input : List UInt8} (h : (holding input).handleHttpRequest = some c)
    (hget : c.requestState = .GET_REQUEST) {bytes : List UInt8}
    (hbytes : bytes ++ c.inputBuffer.content = input) (hform : RequestForm bytes) :
    BlankBehindVersion input ∧ NoNulHeader input := by
  obtain ⟨first, hs, d, hholds, hok, hhead, hreads⟩ := holding_reads h hget
  obtain ⟨first', headers, hholds', hline, hne⟩ := hform.holds c.inputBuffer.content
  rw [hbytes] at hholds'
  obtain ⟨rfl, rfl⟩ := List.cons.inj (holds_unique hholds hholds')
  refine ⟨fun line rest hcut => ?_, fun first' headers' line rest hother hne' hnul => ?_⟩
  · obtain ⟨rfl, -⟩ := lineCut_unique hcut hholds.lineCut
    exact (requestLineForm_iff rfl hok).mp hline
  · -- both are beginnings of the text, and the empty line ends the shorter one
    have hmem : line ∈ headers ++ [[]] := by
      rcases holds_comparable hother hholds with hp | hp
      · have hp' := (List.cons_prefix_cons.mp hp).2
        exact hp'.subset (by simp)
      · have hp' := (List.cons_prefix_cons.mp hp).2
        have hlast : ([] : List UInt8) ∈ headers' ++ [line] := hp'.subset (by simp)
        rcases List.mem_append.mp hlast with hmem | hmem
        · exact absurd rfl (hne' _ hmem)
        · rw [← List.mem_singleton.mp hmem]
          simp
    obtain ⟨hs, last, heq, hhs, hlast⟩ := hreads.headers hhead
    obtain ⟨rfl, hlast'⟩ := List.append_inj' heq rfl
    rcases List.mem_append.mp hmem with hmem | hmem
    · exact hhs line hmem ((looksEmpty_iff line).mpr (Or.inr hnul))
    · rw [List.mem_singleton.mp hmem] at hnul
      cases hnul

/-- **Soundness.**  What the parser has consumed of a text it accepts is a well-formed request exactly
where only blanks follow the version and no header line starts with a NUL. -/
theorem accepted_form_iff {input : List UInt8} (h : (holding input).handleHttpRequest = some c)
    (hget : c.requestState = .GET_REQUEST) :
    (∃ consumed, consumed ++ c.inputBuffer.content = input ∧ RequestForm consumed) ↔
      BlankBehindVersion input ∧ NoNulHeader input := by
  constructor
  · rintro ⟨consumed, hbytes, hform⟩
    exact conditions_of_form h hget hbytes hform
  · rintro ⟨hblank, hnul⟩
    obtain ⟨first, hs, d, hholds, hok, hhead, hreads⟩ := holding_reads h hget
    obtain ⟨headers, last, rfl, hheaders, hlast⟩ := hreads.headers hhead
    have hne : ∀ h ∈ headers, h ≠ [] := fun h hh hnil =>
      hheaders h hh ((looksEmpty_iff h).mpr (Or.inl hnil))
    obtain rfl : last = [] := by
      rcases (looksEmpty_iff last).mp hlast with hnil | hhead'
      · exact hnil
      · exact absurd hhead' (hnul first headers last _ hholds hne)
    refine ⟨_, hholds.content_eq.symm, first, headers, rfl, ?_, hne, fun line hline => ?_⟩
    · exact (requestLineForm_iff rfl hok).mpr (hblank first _ hholds.lineCut)
    · exact hholds.line_bytes line (by rw [← List.cons_append]; exact List.mem_append_left _ hline)

theorem accepted_form_iff_keepAlive :
    ∃ c, (holding keepAliveRequest.bytes).handleHttpRequest = some c ∧
      ((∃ consumed, consumed ++ c.inputBuffer.content = keepAliveRequest.bytes ∧ RequestForm consumed) ↔
        BlankBehindVersion keepAliveRequest.bytes ∧ NoNulHeader keepAliveRequest.bytes) := by
  obtain ⟨c, hc, hread⟩ := parse_request (c := holding keepAliveRequest.bytes) keepAliveRequest []
    (by decide) rfl (by rw [holding_content, List.append_nil])
  exact ⟨c, hc, accepted_form_iff hc hread.complete⟩

/-- The parser accepts the text, although what it consumes is not a well-formed request. -/
def Misaccepted (input : List UInt8) : Prop :=
  ∃ c, (holding input).handleHttpRequest = some c ∧ c.requestState = .GET_REQUEST ∧
    ¬ ∃ consumed, consumed ++ c.inputBuffer.content = input ∧ RequestForm consumed

/-- A fourth word in the request line. -/
def fourWords : List UInt8 := ascii "GET / HTTP/1.1 junk\r\n\r\n"

/-- A header line that starts with a NUL, where the empty line is missing. -/
def nulHeader : List UInt8 := ascii "GET / HTTP/1.1\r\n" ++ NUL :: ascii "x\r\n"

/-- A text that starts with lines the parser takes is accepted. -/
theorem holding_accepts {input : List UInt8} (hholds : Holds input lines rest)
    (hreads : ReadsRequest (holding input) lines d) :
    ∃ c, (holding input).handleHttpRequest = some c ∧ c.requestState = .GET_REQUEST := by
  obtain ⟨c, hc, hend⟩ := (complete_iff (c := holding input) (Or.inl rfl)).mpr
    ⟨lines, rest, d, by rw [holding_content]; exact hholds, hreads⟩
  have hstart : Receiving (holding input) := Or.inl rfl
  exact ⟨c, hc, ((handleHttpRequest_sound hc).outcome hstart.ne_END).complete_iff.mpr hend⟩

/-- Both are accepted. -/
theorem malformed_accepted : Misaccepted fourWords ∧ Misaccepted nulHeader := by
  constructor
  · obtain ⟨c, hc, hget⟩ := holding_accepts
      (show Holds fourWords [ascii "GET / HTTP/1.1 junk", []] [] from ⟨by decide, by decide⟩)
      (.more (by decide) (by decide) (.last (by decide) (by decide) (by decide)))
    refine ⟨c, hc, hget, fun ⟨consumed, hbytes, hform⟩ => ?_⟩
    have hblank := (conditions_of_form hc hget hbytes hform).1
      (ascii "GET / HTTP/1.1 junk") (ascii "\r\n") ⟨by decide, by decide⟩
    exact absurd (hblank 106 (by decide)) (by decide)
  · obtain ⟨c, hc, hget⟩ := holding_accepts
      (show Holds nulHeader [ascii "GET / HTTP/1.1", NUL :: ascii "x"] [] from ⟨by decide, by decide⟩)
      (.more (by decide) (by decide) (.last (by decide) (by decide) (by decide)))
    refine ⟨c, hc, hget, fun ⟨consumed, hbytes, hform⟩ => ?_⟩
    exact (conditions_of_form hc hget hbytes hform).2 (ascii "GET / HTTP/1.1") [] (NUL :: ascii "x") []
      ⟨by decide, by decide⟩ (by simp) rfl

end HttpContext

end WServer
