import WServer.Library.Scan
import WServer.WellFormedRequest

/-!
# The scans of a line stay inside it

`parseRequestLine` and `parseMessageHeader` walk along `m_new_line` in loops that make no test for its
end: they rely on the NULs that `parseLine` leaves in place of CR LF.  Here both functions are written with
checked reads, checked parts and bounded loops.  `parseMessageHeader` keeps its place in an `int`, so
its version takes the conversions `conv`, as the operations of the buffer do.

* `strncasecmpAt`, `parseRequestLineWithin`, `parseMessageHeaderWithin` — the checked functions;
* `parseRequestLineWithin_ok`, `parseMessageHeaderWithin_ok` — on a line with a NUL they do not fail, and
  do what the unchecked functions do, as long as the `int` is counted right;
* `parseMessageHeaderWithin_padded` — the `int` wraps round on a `Connection` header with spaces up to
  `INT_MAX`;
* `parseLoopWithin_ok` — whole runs of the loop of `handleHttpRequest`;
* `scansInside_iff` — for which content of the input buffer the scans stay inside.
-/

namespace WServer

open Library.Segments Library.Scan

/-! ### Checked scans -/

/-- `while (p(line[i])) ++i;` with a `size_t`. -/
def scanSize (p : UInt8 → Bool) (line : List UInt8) (fuel i : ℕ) : Except ScanFault ℕ :=
  scan (fun k : ℕ => (k : ℤ)) (fun k => k + 1) p line fuel i

/-- `while (p(line[i])) ++i;` with an `int`. -/
def scanInt (conv : IntConv) (p : UInt8 → Bool) (line : List UInt8) (fuel : ℕ) (i : ℤ) :
    Except ScanFault ℤ :=
  scan (fun k : ℤ => k) (fun k => conv.toInt (k + 1)) p line fuel i

/-- `strncasecmp(line.data() + start, text, n) == 0`: it reads up to the first difference and the first
NUL. -/
def strncasecmpAt (line : List UInt8) : ℤ → List UInt8 → ℕ → Except ScanFault Bool
  | _, _, 0 => .ok true
  | start, text, n + 1 =>
      match readAt line start with
      | .error fault => .error fault
      | .ok c =>
          if tolower c = tolower (charAt text 0) then
            if c = NUL then .ok true else strncasecmpAt line (start + 1) text.tail n
          else .ok false

namespace HttpContext

/-- `parseRequestLine`, each loop at most `fuel` times around. -/
def parseRequestLineWithin (fuel : ℕ) (c : HttpContext) : Except ScanFault HttpContext := do
  let start := 0
  let stop ← scanSize isToken c.newLine fuel 0
  -- get method
  let name ← partAt c.newLine start (stop - start)
  match methodOf name with
  | none => return { c with requestState := .BAD_REQUEST }
  | some method =>
      -- get URI
      let start ← scanSize isBlank c.newLine fuel stop
      let stop ← scanSize isToken c.newLine fuel start
      let uri ← partAt c.newLine start (stop - start)
      -- get version
      let start ← scanSize isBlank c.newLine fuel stop
      let stop ← scanSize isToken c.newLine fuel start
      let text ← partAt c.newLine start (stop - start)
      match versionOf text with
      | none => return { c with method := method, uri := uri, requestState := .BAD_REQUEST }
      | some version =>
          return { c with
            method := method
            uri := uri
            version := version
            checkState := .HEADER
            requestState := .NO_REQUEST }

/-- `parseMessageHeader`, its loop at most `fuel` times around. -/
def parseMessageHeaderWithin (conv : IntConv) (fuel : ℕ) (c : HttpContext) :
    Except ScanFault HttpContext := do
  let first ← if c.newLine = [] then pure none else some <$> readAt c.newLine 0
  if first = some NUL then
    -- the end of the header lines
    return { c with checkState := .BODY, requestState := .NO_REQUEST }
  else
    let isConnection ← strncasecmpAt c.newLine 0 (ascii "Connection:") 11
    if isConnection then
      let start ← scanInt conv (· == SP) c.newLine fuel 11
      let isKeepAlive ← strncasecmpAt c.newLine start (ascii "Keep-Alive") 10
      if isKeepAlive then return { c with connection := .KEEP_ALIVE, requestState := .NO_REQUEST }
      else return { c with requestState := .BAD_REQUEST }
    else return { c with requestState := .NO_REQUEST }

end HttpContext

/-! ### Lines with a NUL -/

section Terminated

variable {l : List UInt8} {z i : ℕ}

/-- A scan that a NUL ends stops where `scanWhile` says. -/
theorem scanWhile_stopsAt {p : UInt8 → Bool} (hz : l[z]? = some NUL) (hp : p NUL = false)
    (hi : i ≤ z) : StopsAt p l i (scanWhile p l i) := stopsAt_takeWhile hz hp hi

theorem scanWhile_le {p : UInt8 → Bool} (hz : l[z]? = some NUL) (hp : p NUL = false) (hi : i ≤ z) :
    scanWhile p l i ≤ z := (scanWhile_stopsAt hz hp hi).le_of_fails hz hp hi

/-- **A loop over a `size_t`** ends, at a place inside the line. -/
theorem scanSize_ok {p : UInt8 → Bool} (hz : l[z]? = some NUL) (hp : p NUL = false) (hi : i ≤ z)
    {fuel : ℕ} (hfuel : z < fuel) : scanSize p l fuel i = .ok (scanWhile p l i) := by
  have hle := scanWhile_le hz hp hi
  exact scan_ok (v := fun k => k) (fun _ => rfl) (scanWhile_stopsAt hz hp hi) (fun _ _ _ => rfl) (by omega)

/-- **A loop over an `int`** does so too, if the `int` is exact up to there. -/
theorem scanInt_ok {conv : IntConv} {p : UInt8 → Bool} (hz : l[z]? = some NUL) (hp : p NUL = false)
    (hi : i ≤ z) {fuel : ℕ} (hfuel : z < fuel) (hconv : conv.ExactUpTo (scanWhile p l i)) :
    scanInt conv p l fuel i = .ok (scanWhile p l i : ℤ) := by
  have hle := scanWhile_le hz hp hi
  refine scan_ok (v := fun k : ℕ => (k : ℤ)) (fun _ => rfl) (scanWhile_stopsAt hz hp hi) ?_ (by omega)
  intro k _ hk
  exact (hconv (k + 1) hk).1

/-- **The comparison** with a text reads no byte behind the first NUL. -/
theorem strncasecmpAt_ok (hz : l[z]? = some NUL) (text : List UInt8) (n : ℕ) (hi : i ≤ z) :
    strncasecmpAt l i text n = .ok (strncasecmpEq (l.drop i) text n) := by
  induction n generalizing i text with
  | zero => rfl
  | succ n ih =>
      obtain ⟨hlt, hnul⟩ := List.getElem?_eq_some_iff.mp hz
      have hread : l[i]? = some l[i] := List.getElem?_eq_getElem (by omega)
      rw [strncasecmpAt, readAt_ok hread, ← List.getElem_cons_drop (show i < l.length by omega),
        strncasecmpEq]
      show (if tolower l[i] = tolower (charAt text 0) then _ else _) =
        Except.ok (if tolower l[i] = tolower (charAt text 0) then l[i] == NUL || _ else _)
      by_cases heq : tolower l[i] = tolower (charAt text 0)
      · rw [if_pos heq, if_pos heq]
        by_cases hend : l[i] = NUL
        · rw [if_pos hend, hend]
          rfl
        · have hne : i ≠ z := by
            rintro rfl
            exact hend hnul
          rw [if_neg hend, beq_false_of_ne hend, Bool.false_or]
          exact ih text.tail (show i + 1 ≤ z by omega)
      · rw [if_neg heq, if_neg heq]

/-- The first NUL of a line that starts with a word is behind the word. -/
theorem le_of_strncasecmpEq {word : List UInt8} (hword : ∀ x ∈ word, x ≠ NUL)
    (h : strncasecmpEq l word word.length = true) (hz : l[z]? = some NUL) : word.length ≤ z := by
  by_contra hlt
  rw [not_le] at hlt
  have hmem : NUL ∈ lower (l.take word.length) := by
    rw [lower, List.mem_map]
    refine ⟨NUL, ?_, rfl⟩
    rw [List.mem_iff_getElem?]
    exact ⟨z, by rw [List.getElem?_take_of_lt hlt, hz]⟩
  rw [(strncasecmpEq_iff hword l).mp h, lower, List.mem_map] at hmem
  obtain ⟨x, hx, heq⟩ := hmem
  exact tolower_ne_NUL (hword x hx) heq

end Terminated

/-- The line that `parseLine` leaves has a NUL behind its text. -/
theorem getElem?_end (h : List UInt8) : (h ++ [NUL, NUL])[h.length]? = some NUL := by
  rw [List.getElem?_append_right (Nat.le_refl _), Nat.sub_self]
  rfl

theorem readAt_first {l : List UInt8} (h : l ≠ []) : readAt l 0 = .ok (charAt l 0) := by
  cases l with
  | nil => exact absurd rfl h
  | cons b tail => rfl

/-! ### The two functions -/

namespace HttpContext

variable {c : HttpContext}

/-- **The request line.**  On a line with a NUL every read is inside, every part starts inside and every
loop ends, and the outcome is that of `parseRequestLine`. -/
theorem parseRequestLineWithin_ok (h : NUL ∈ c.newLine) {fuel : ℕ} (hfuel : c.newLine.length ≤ fuel) :
    c.parseRequestLineWithin fuel = .ok c.parseRequestLine := by
  obtain ⟨z, hz⟩ := List.mem_iff_getElem?.mp h
  obtain ⟨hlt, -⟩ := List.getElem?_eq_some_iff.mp hz
  -- one scan: its outcome, and the place it ends at
  have hscan : ∀ {p : UInt8 → Bool} {i : ℕ}, p NUL = false → i ≤ z →
      scanSize p c.newLine fuel i = .ok (scanWhile p c.newLine i) ∧ scanWhile p c.newLine i ≤ z := by
    intro p i hp hi
    exact ⟨scanSize_ok hz hp hi (by omega), scanWhile_le hz hp hi⟩
  have hpart : ∀ {start : ℕ} (n : ℕ), start ≤ z →
      partAt c.newLine start n = .ok (substr c.newLine start n) := fun n hs => partAt_ok (by omega) n
  obtain ⟨hmethod, hz₁⟩ := @hscan isToken 0 rfl (Nat.zero_le z)
  obtain ⟨hblank₁, hz₂⟩ := @hscan isBlank _ rfl hz₁
  obtain ⟨huri, hz₃⟩ := @hscan isToken _ rfl hz₂
  obtain ⟨hblank₂, hz₄⟩ := @hscan isBlank _ rfl hz₃
  obtain ⟨hversion, -⟩ := @hscan isToken _ rfl hz₄
  simp only [parseRequestLineWithin, parseRequestLine, hmethod, hblank₁, huri, hblank₂, hversion,
    hpart _ (Nat.zero_le z), hpart _ hz₂, hpart _ hz₄, bind, Except.bind, pure, Except.pure]
  -- the ends of the scans are the same on both sides
  generalize scanWhile isToken c.newLine 0 = stop₁
  generalize scanWhile isBlank c.newLine stop₁ = start₂
  generalize scanWhile isToken c.newLine start₂ = stop₂
  generalize scanWhile isBlank c.newLine stop₂ = start₃
  generalize scanWhile isToken c.newLine start₃ = stop₃
  cases methodOf (substr c.newLine 0 (stop₁ - 0)) with
  | none => rfl
  | some method =>
      cases versionOf (substr c.newLine start₃ (stop₃ - start₃)) with
      | none => rfl
      | some version => rfl

/-- **A header line.**  The same, as long as the `int` is exact up to the value of a `Connection` header. -/
theorem parseMessageHeaderWithin_ok {conv : IntConv} (h : NUL ∈ c.newLine) {fuel : ℕ}
    (hfuel : c.newLine.length ≤ fuel)
    (hconv : strncasecmpEq c.newLine (ascii "Connection:") 11 = true →
      conv.ExactUpTo (scanWhile (· == SP) c.newLine 11)) :
    c.parseMessageHeaderWithin conv fuel = .ok c.parseMessageHeader := by
  obtain ⟨z, hz⟩ := List.mem_iff_getElem?.mp h
  obtain ⟨hlt, -⟩ := List.getElem?_eq_some_iff.mp hz
  have hne : c.newLine ≠ [] := List.ne_nil_of_mem h
  have hcompare := strncasecmpAt_ok hz (ascii "Connection:") 11 (Nat.zero_le z)
  rw [List.drop_zero, Nat.cast_zero] at hcompare
  rw [parseMessageHeaderWithin, parseMessageHeader, if_neg hne, readAt_first hne, hcompare]
  by_cases hnul : charAt c.newLine 0 = NUL
  · rw [if_pos ⟨hne, hnul⟩, hnul]
    rfl
  · rw [if_neg fun hh => hnul hh.2]
    simp only [bind, Except.bind, pure, Except.pure, Functor.map, Except.map, Option.some.injEq,
      if_neg hnul]
    cases hconnection : strncasecmpEq c.newLine (ascii "Connection:") 11 with
    | false => rfl
    | true =>
        have hbehind : 11 ≤ z := le_of_strncasecmpEq (forall_bytes (by decide)) hconnection hz
        have hscan := scanInt_ok (p := (· == SP)) hz rfl hbehind (show z < fuel by omega)
          (hconv hconnection)
        have hvalue := strncasecmpAt_ok hz (ascii "Keep-Alive") 10
          (scanWhile_le (p := (· == SP)) hz rfl hbehind)
        rw [Nat.cast_ofNat] at hscan
        simp only [if_true, hscan, hvalue]
        split
        · rfl
        · rfl

end HttpContext

/-! ### The `int` of `parseMessageHeader` -/

/-- A `Connection` header whose value is behind index `INT_MAX`: there are spaces up to there. -/
def PaddedHeader (h : List UInt8) : Prop :=
  IsConnectionHeader h ∧ ∀ k, 11 ≤ k → k ≤ INT_MAX → h[k]? = some SP

/-- `++start` at `INT_MAX`. -/
theorem wrapped_negative : IntConv.wrapped.toInt ((INT_MAX : ℤ) + 1) < 0 := by
  decide

theorem getElem?_terminated (h : List UInt8) (k : ℕ) :
    (h ++ [NUL, NUL])[k]? = some SP ↔ h[k]? = some SP := by
  rw [List.getElem?_append]
  split
  · exact Iff.rfl
  · rename_i hle
    refine iff_of_false (fun hsp => ?_) fun hsp => ?_
    · exact absurd (List.mem_of_getElem? hsp) (by decide)
    · rw [List.getElem?_eq_none (not_lt.mp hle)] at hsp
      cases hsp

/-- The value of any other `Connection` header starts at most at `INT_MAX`. -/
theorem scanWhile_le_of_not_padded {line : List UInt8} (hc : IsConnectionHeader line)
    (h : ¬ PaddedHeader line) : scanWhile (· == SP) (line ++ [NUL, NUL]) 11 ≤ INT_MAX := by
  have hstop := scanWhile_stopsAt (p := (· == SP)) (getElem?_end line) rfl hc.length
  by_contra hlt
  refine h ⟨hc, fun k hk hle => ?_⟩
  rw [← getElem?_terminated]
  have hin : k < (line ++ [NUL, NUL]).length := by
    have := hstop.lt_length
    omega
  by_contra hne
  rw [List.getElem?_eq_getElem hin, Option.some.injEq] at hne
  have := hstop.le_of_fails (List.getElem?_eq_getElem hin) (beq_false_of_ne hne) hk
  omega

namespace HttpContext

variable {c d : HttpContext} {line : List UInt8}

/-- **A padded header** is read outside: `start` wraps round to a negative number. -/
theorem parseMessageHeaderWithin_padded (hline : c.newLine = line ++ [NUL, NUL])
    (h : PaddedHeader line) (fuel : ℕ) :
    ∃ fault, c.parseMessageHeaderWithin .wrapped fuel = .error fault := by
  obtain ⟨hc, hspaces⟩ := h
  have hz : c.newLine[line.length]? = some NUL := by
    rw [hline]
    exact getElem?_end line
  have hne : c.newLine ≠ [] := List.ne_nil_of_mem (List.mem_of_getElem? hz)
  have hconnection : strncasecmpEq c.newLine (ascii "Connection:") 11 = true := by
    rw [hline]
    exact (isConnectionHeader_iff line).mpr hc
  have hcompare := strncasecmpAt_ok hz (ascii "Connection:") 11 (Nat.zero_le _)
  rw [List.drop_zero, Nat.cast_zero, hconnection] at hcompare
  have hfirst : charAt c.newLine 0 ≠ NUL := by
    intro hnul
    obtain ⟨b, tail, hcons⟩ := List.exists_cons_of_ne_nil hne
    rw [hcons] at hnul
    have hbehind := le_of_strncasecmpEq (z := 0) (forall_bytes (by decide)) hconnection
      (by rw [hcons]; exact congrArg some hnul)
    exact absurd hbehind (by decide)
  obtain ⟨fault, hescape⟩ : ∃ fault, scanInt .wrapped (· == SP) c.newLine fuel 11 = .error fault := by
    refine scan_escapes (v := fun k : ℕ => (k : ℤ)) (i := 11) (m := INT_MAX) (fun _ => rfl) ?_ ?_
      wrapped_negative (by decide) fuel
    · intro k hk hle
      refine ⟨SP, ?_, rfl⟩
      rw [hline]
      exact (getElem?_terminated line k).mpr (hspaces k hk hle)
    · intro k _ hlt
      exact (IntConv.wrapped_exactUpTo (k + 1) hlt).1
  refine ⟨fault, ?_⟩
  rw [parseMessageHeaderWithin, if_neg hne, readAt_first hne, hcompare]
  simp only [bind, Except.bind, Functor.map, Except.map, Option.some.injEq, if_neg hfirst, if_true, hescape]

/-! ### The line that `parseLine` leaves -/

/-- The scans of `parseRequestLine` and of `parseMessageHeader` over the line come to an end without a
read outside it and without a part that starts behind its end. -/
structure ScansInside (conv : IntConv) (c : HttpContext) : Prop where
  requestLine : ∃ fuel d, c.parseRequestLineWithin fuel = .ok d
  messageHeader : ∃ fuel d, c.parseMessageHeaderWithin conv fuel = .ok d

theorem exactUpTo_of_not_padded (hline : c.newLine = line ++ [NUL, NUL]) (h : ¬ PaddedHeader line)
    (hconnection : strncasecmpEq c.newLine (ascii "Connection:") 11 = true) :
    IntConv.wrapped.ExactUpTo (scanWhile (· == SP) c.newLine 11) := by
  rw [hline] at hconnection ⊢
  exact IntConv.wrapped_exactUpTo.mono
    (scanWhile_le_of_not_padded ((isConnectionHeader_iff line).mp hconnection) h)

theorem NUL_mem_newLine (hline : c.newLine = line ++ [NUL, NUL]) : NUL ∈ c.newLine := by
  rw [hline]
  exact List.mem_append_right line List.mem_cons_self

/-- A line that is no padded header. -/
theorem scansInside_of_not_padded (hline : c.newLine = line ++ [NUL, NUL]) (h : ¬ PaddedHeader line) :
    ScansInside .wrapped c := by
  have hmem := NUL_mem_newLine hline
  exact ⟨⟨_, _, parseRequestLineWithin_ok hmem (Nat.le_refl _)⟩,
    ⟨_, _, parseMessageHeaderWithin_ok hmem (Nat.le_refl _) (exactUpTo_of_not_padded hline h)⟩⟩

/-- On a padded header they do not. -/
theorem not_scansInside_of_padded {rest : List UInt8} (hcut : LineCut c.inputBuffer.content line rest)
    (h : PaddedHeader line) : ¬ (c.parseLine.1 = .OK → ScansInside .wrapped c.parseLine.2) := by
  intro hinside
  obtain ⟨hok, hline, -⟩ := parseLine_of_lineCut hcut
  obtain ⟨fuel, d, hd⟩ := (hinside hok).messageHeader
  obtain ⟨fault, hfault⟩ := parseMessageHeaderWithin_padded hline h fuel
  rw [hd] at hfault
  cases hfault

/-- **Scanning stays inside the line.**  For every content of the input buffer, in every state of the
parser: when `parseLine` has returned `LINE_OK`, the scans of the line stay inside it and end, exactly if
that line is no `Connection` header with spaces up to index `INT_MAX`. -/
theorem scansInside_iff (c : HttpContext) :
    (c.parseLine.1 = .OK → ScansInside .wrapped c.parseLine.2) ↔
      ∀ line rest, LineCut c.inputBuffer.content line rest → ¬ PaddedHeader line := by
  constructor
  · intro h line rest hcut hpadded
    exact not_scansInside_of_padded hcut hpadded h
  · intro h hok
    obtain ⟨line, rest, hcut⟩ := (parseLine_ok_iff c).mp hok
    exact scansInside_of_not_padded (parseLine_of_lineCut hcut).2.1 (h line rest hcut)

/-- A `Connection` header of that many spaces. -/
def spacesHeader (n : ℕ) : List UInt8 := ascii "Connection:" ++ List.replicate n SP

theorem paddedHeader_spaces {n : ℕ} (h : INT_MAX < n) : PaddedHeader (spacesHeader n) := by
  have hlen : (ascii "Connection:").length = 11 := by decide
  refine ⟨?_, fun k hk hle => ?_⟩
  · rw [IsConnectionHeader, spacesHeader, List.take_left' hlen]
    decide
  · rw [spacesHeader, List.getElem?_append_right (by omega), List.getElem?_replicate, if_pos (by omega)]

theorem lineCut_spaces (n : ℕ) (rest : List UInt8) :
    LineCut (spacesHeader n ++ CR :: LF :: rest) (spacesHeader n) rest := by
  refine ⟨rfl, fun h => ?_⟩
  rcases List.mem_append.mp h with h | h
  · exact absurd h (by decide)
  · exact absurd (List.eq_of_mem_replicate h) (by decide)

/-- A parser that has read a request line, with a `Connection` header of `2 ^ 31` spaces and the end of the
headers in its input. -/
def behindRequestLine : HttpContext :=
  { fresh with
    checkState := .HEADER
    inputBuffer := Buffer.init.append (spacesHeader (2 ^ 31) ++ CR :: LF :: [CR, LF]) }

theorem spaces_read_outside : ¬ (behindRequestLine.parseLine.1 = .OK →
    ScansInside .wrapped behindRequestLine.parseLine.2) := by
  have hcut : LineCut behindRequestLine.inputBuffer.content (spacesHeader (2 ^ 31)) [CR, LF] := by
    rw [behindRequestLine, Buffer.content_append, Buffer.content_init]
    exact lineCut_spaces (2 ^ 31) [CR, LF]
  exact not_scansInside_of_padded hcut (paddedHeader_spaces (by decide))

/-! ### Whole calls -/

/-- The complete lines of a content. -/
inductive HasLine : List UInt8 → List UInt8 → Prop where
  | here {content line rest : List UInt8} : LineCut content line rest → HasLine content line
  | next {content first rest line : List UInt8} : LineCut content first rest → HasLine rest line →
      HasLine content line

/-- The loop of `handleHttpRequest` over the checked functions. -/
def parseLoopWithin (conv : IntConv) (fuel : ℕ) :
    ℕ → LINE_STATE → HttpContext → Except ScanFault HttpContext
  | 0, _, _ => .error .unfinished
  | rounds + 1, line, c =>
      if line = .OK then
        match c.checkState with
        | .REQUEST_LINE => do
            let c ← c.parseRequestLineWithin fuel
            if c.requestState = .BAD_REQUEST then return c
            else parseLoopWithin conv fuel rounds c.parseLine.1 c.parseLine.2
        | .HEADER => do
            let c ← c.parseMessageHeaderWithin conv fuel
            if c.requestState = .BAD_REQUEST then return c
            else if c.checkState ≠ .BODY then parseLoopWithin conv fuel rounds c.parseLine.1 c.parseLine.2
            else parseLoopWithin conv fuel rounds line c
        | .BODY =>
            let c := c.parseMessageBody
            if c.requestState = .BAD_REQUEST then .ok c else .ok (c.afterLoop line)
        | .END => parseLoopWithin conv fuel rounds line c
      else .ok (c.afterLoop line)

/-- What the loop finds at the start of a round: a line that is no padded header, in an input that holds
none, and bounds that suffice for both. -/
structure Scannable (fuel : ℕ) (c : HttpContext) : Prop where
  line : ∃ l, c.newLine = l ++ [NUL, NUL] ∧ ¬ PaddedHeader l
  length : c.newLine.length ≤ fuel
  lines : ∀ l, HasLine c.inputBuffer.content l → ¬ PaddedHeader l
  input : c.inputBuffer.content.length ≤ fuel

/-- The next line is as good as the one before. -/
theorem scannable_parseLine {fuel : ℕ} (hlines : ∀ l, HasLine c.inputBuffer.content l → ¬ PaddedHeader l)
    (hinput : c.inputBuffer.content.length ≤ fuel) (hok : c.parseLine.1 = .OK) :
    Scannable fuel c.parseLine.2 := by
  obtain ⟨l, rest, hcut⟩ := (parseLine_ok_iff c).mp hok
  obtain ⟨-, hline, hrest⟩ := parseLine_of_lineCut hcut
  have hlen := congrArg List.length hcut.1
  rw [List.length_append, List.length_cons, List.length_cons] at hlen
  refine ⟨⟨l, hline, hlines l (.here hcut)⟩, ?_, fun l' hl' => ?_, ?_⟩
  · rw [hline, List.length_append]
    show l.length + 2 ≤ fuel
    omega
  · rw [hrest] at hl'
    exact hlines l' (.next hcut hl')
  · rw [hrest]
    omega

theorem Scannable.requestLine {fuel : ℕ} (h : Scannable fuel c) :
    c.parseRequestLineWithin fuel = .ok c.parseRequestLine := by
  obtain ⟨l, hl, -⟩ := h.line
  exact parseRequestLineWithin_ok (NUL_mem_newLine hl) h.length

theorem Scannable.messageHeader {fuel : ℕ} (h : Scannable fuel c) :
    c.parseMessageHeaderWithin .wrapped fuel = .ok c.parseMessageHeader := by
  obtain ⟨l, hl, hpadded⟩ := h.line
  exact parseMessageHeaderWithin_ok (NUL_mem_newLine hl) h.length (exactUpTo_of_not_padded hl hpadded)

theorem parseMessageHeader_newLine (c : HttpContext) : c.parseMessageHeader.newLine = c.newLine := by
  rw [parseMessageHeader]
  split
  · rfl
  · simp only
    split
    · split <;> rfl
    · rfl

theorem Scannable.parseMessageHeader {fuel : ℕ} (h : Scannable fuel c) :
    Scannable fuel c.parseMessageHeader := by
  refine ⟨?_, ?_, ?_, ?_⟩
  · rw [parseMessageHeader_newLine]
    exact h.line
  · rw [parseMessageHeader_newLine]
    exact h.length
  · rw [parseMessageHeader_inputBuffer]
    exact h.lines
  · rw [parseMessageHeader_inputBuffer]
    exact h.input

/-- **The loop over the checked functions** does what the loop over the unchecked ones does. -/
theorem parseLoopWithin_ok {fuel rounds : ℕ} {line : LINE_STATE} (hscan : line = .OK → Scannable fuel c)
    (hrun : parseLoop rounds line c = some d) : parseLoopWithin .wrapped fuel rounds line c = .ok d := by
  induction rounds generalizing line c with
  | zero => cases hrun
  | succ rounds ih =>
      rw [parseLoop] at hrun
      rw [parseLoopWithin]
      by_cases hline : line = .OK
      · subst hline
        have hs := hscan rfl
        -- the rounds after a line that was read with `c₁`'s buffer left
        have hnext : ∀ c₁ : HttpContext, c₁.inputBuffer = c.inputBuffer →
            parseLoop rounds c₁.parseLine.1 c₁.parseLine.2 = some d →
            parseLoopWithin .wrapped fuel rounds c₁.parseLine.1 c₁.parseLine.2 = .ok d := by
          intro c₁ hbuffer hrest
          refine ih (fun hok => scannable_parseLine ?_ ?_ hok) hrest
          · rw [hbuffer]
            exact hs.lines
          · rw [hbuffer]
            exact hs.input
        rw [if_pos rfl] at hrun ⊢
        cases hcs : c.checkState with
        | REQUEST_LINE =>
            simp only [hcs, hs.requestLine, bind, Except.bind, pure, Except.pure] at hrun ⊢
            split at hrun
            · rename_i hbad
              cases hrun
              rw [if_pos hbad]
            · rename_i hbad
              rw [if_neg hbad]
              exact hnext _ (parseRequestLine_inputBuffer c) hrun
        | HEADER =>
            simp only [hcs, hs.messageHeader, bind, Except.bind, pure, Except.pure] at hrun ⊢
            split at hrun
            · rename_i hbad
              cases hrun
              rw [if_pos hbad]
            · rename_i hbad
              rw [if_neg hbad]
              split at hrun
              · rename_i hbody
                rw [if_pos hbody]
                exact hnext _ (parseMessageHeader_inputBuffer c) hrun
              · rename_i hbody
                rw [if_neg hbody]
                exact ih (fun _ => hs.parseMessageHeader) hrun
        | BODY =>
            simp only [hcs] at hrun ⊢
            split at hrun
            · rename_i hbad
              cases hrun
              rw [if_pos hbad]
            · rename_i hbad
              cases hrun
              rw [if_neg hbad]
        | END =>
            simp only [hcs] at hrun ⊢
            exact ih hscan hrun
      · rw [if_neg hline] at hrun ⊢
        cases hrun
        rfl

/-- **A whole call** on an input without padded headers, with as many rounds and as long scans as there
are bytes in the input. -/
theorem handleHttpRequest_within (h : ∀ l, HasLine c.inputBuffer.content l → ¬ PaddedHeader l)
    (hrun : c.handleHttpRequest = some d) :
    parseLoopWithin .wrapped c.inputBuffer.content.length (c.inputBuffer.content.length + 2)
      c.parseLine.1 c.parseLine.2 = .ok d :=
  parseLoopWithin_ok (scannable_parseLine h (Nat.le_refl _)) hrun

end HttpContext

end WServer
