import Mathlib.Data.List.TakeWhile
import WServer.RequestGrammar
import WServer.ResponseForm

/-!
# The requests of `webbench`

`webbench` makes its request once, from the URL on its command line and the options before it, and sends
this text all the time.  `build_request` cuts the URL with the functions of `string.h` and appends the parts
to arrays of fixed sizes.

* `buildRequest` — the function, with the texts it quits with and the arrays it overruns;
* `Url`, `Url.built` — a URL by its parts, and what it is to be made of;
* `build_request_ok_iff` — what is built, and from which URLs.
-/

namespace WServer

namespace Webbench

open HttpContext

/-! ### The functions of `string.h` -/

def SLASH : UInt8 := 47

/-- `strstr(s, word) - s` -/
def strstr (word : List UInt8) : List UInt8 → Option ℕ
  | [] => if word = [] then some 0 else none
  | b :: s => if word <+: b :: s then some 0 else (strstr word s).map (· + 1)

/-- `strcspn(s, c)`, for one byte. -/
def strcspn (s : List UInt8) (c : UInt8) : ℕ := (s.takeWhile (· != c)).length

/-- `strchr(s, c) - s` -/
def strchr (s : List UInt8) (c : UInt8) : Option ℕ := if c ∈ s then some (strcspn s c) else none

def isspace (b : UInt8) : Bool := b == SP || (9 ≤ b && b ≤ 13)

def isdigit (b : UInt8) : Bool := 48 ≤ b && b ≤ 57

/-- The digits that a text starts with. -/
def digits (s : List UInt8) : ℤ := (s.takeWhile isdigit).foldl (fun n b => 10 * n + (b.toNat - 48)) 0

def atoi (s : List UInt8) : ℤ :=
  match s.dropWhile isspace with
  | 43 :: s => digits s
  | 45 :: s => -digits s
  | s => digits s

/-- What `atoi` reads as digits begins here. -/
def unsigned (s : List UInt8) : List UInt8 :=
  match s.dropWhile isspace with
  | 43 :: s | 45 :: s => s
  | s => s

/-- `atoi` does not read behind these bytes: one of them ends the number. -/
def EndsNumber (s : List UInt8) : Prop := ∃ b ∈ unsigned s, isdigit b = false

instance (s : List UInt8) : Decidable (EndsNumber s) :=
  inferInstanceAs (Decidable (∃ b ∈ unsigned s, isdigit b = false))

/-! ### `build_request` -/

inductive Method where
  | GET | HEAD | OPTIONS | TRACE
  deriving DecidableEq

/-- The globals that `main` sets: `http10` is 0 for HTTP/0.9, 1 for HTTP/1.0 and 2 for HTTP/1.1. -/
structure Options where
  method : Method
  http10 : Fin 3
  forceReload : Bool
  proxyhost : Option (List UInt8)
  proxyport : ℤ
  keepAlive : Bool

/-- The arrays. -/
inductive Target where
  | host | tmp | request
  deriving DecidableEq

/-- `exit(2)` with a text on the standard error, or bytes behind the end of an array. -/
inductive Abort where
  | exit (text : List UInt8)
  | overrun (target : Target)
  deriving DecidableEq

/-- The globals that the function sets. -/
structure Built where
  request : List UInt8
  host : List UInt8
  proxyport : ℤ
  http10 : Fin 3

def MAXHOSTNAMELEN : ℕ := 64
def REQUEST_SIZE : ℕ := 2048

/-- `char tmp[10]`, filled with zeros before `strncpy`, takes these bytes, and `atoi` stops inside it. -/
def TmpTakes (port : List UInt8) : Prop := port.length < 10 ∨ port.length = 10 ∧ EndsNumber port

instance (port : List UInt8) : Decidable (TmpTakes port) :=
  inferInstanceAs (Decidable (port.length < 10 ∨ port.length = 10 ∧ EndsNumber port))

def methodText : Method → List UInt8
  | .GET => ascii "GET"
  | .HEAD => ascii "HEAD"
  | .OPTIONS => ascii "OPTIONS"
  | .TRACE => ascii "TRACE"

variable {o : Options}

/-- The version after the tests at the start of the function. -/
def Options.forced (o : Options) : Fin 3 :=
  let http10 := if o.forceReload ∧ o.proxyhost ≠ none ∧ o.http10 < 1 then 1 else o.http10
  let http10 := if o.method = .HEAD ∧ http10 < 1 then 1 else http10
  let http10 := if o.method = .OPTIONS ∧ http10 < 2 then 2 else http10
  if o.method = .TRACE ∧ http10 < 2 then 2 else http10

/-- The version in the request line, where there is one. -/
def Options.version (o : Options) : HTTP_VERSION := if o.forced = 1 then .HTTP_1_0 else .HTTP_1_1

/-- The host and the port, from what follows the `://`; the first `/` is at `slash`.  `strncpy` may fill the
whole array of the host. -/
def hostAndPort (o : Options) (rest : List UInt8) (slash : ℕ) : Except Abort (List UInt8 × ℤ) :=
  match strchr rest COLON with
  | some colon =>
      if colon < slash then
        let host := rest.take colon
        let tmp := (rest.drop (colon + 1)).take (slash - colon - 1)
        if MAXHOSTNAMELEN < host.length then .error (.overrun .host)
        else if TmpTakes tmp then .ok (host, if atoi tmp = 0 then 80 else atoi tmp)
        else .error (.overrun .tmp)
      else if MAXHOSTNAMELEN < slash then .error (.overrun .host)
      else .ok (rest.take slash, o.proxyport)
  | none =>
      if MAXHOSTNAMELEN < slash then .error (.overrun .host)
      else .ok (rest.take slash, o.proxyport)

/-- The calls of `strcat`, one behind the other. -/
def requestText (o : Options) (target host : List UInt8) : List UInt8 :=
  methodText o.method ++ [SP] ++ target
    ++ (if o.forced = 1 then ascii " HTTP/1.0" else if o.forced = 2 then ascii " HTTP/1.1" else [])
    ++ [CR, LF]
    ++ (if 0 < o.forced then ascii "User-Agent: WebBench 1.5\r\n" else [])
    ++ (if o.proxyhost = none ∧ 0 < o.forced then ascii "Host: " ++ host ++ [CR, LF] else [])
    ++ (if o.forceReload ∧ o.proxyhost ≠ none then ascii "Pragma: no-cache\r\n" else [])
    ++ (if 1 < o.forced then
          if o.keepAlive then ascii "Connection: Keep-Alive\r\n" else ascii "Connection: close\r\n"
        else [])
    ++ (if 0 < o.forced then [CR, LF] else [])

/-- The request is written into its array; the last `strcat` writes furthest.  The one that appends the host
reads behind it, if the host fills its array. -/
def finishRequest (o : Options) (target host : List UInt8) (proxyport : ℤ) : Except Abort Built :=
  if o.proxyhost = none ∧ 0 < o.forced ∧ MAXHOSTNAMELEN ≤ host.length then .error (.overrun .host)
  else if (requestText o target host).length < REQUEST_SIZE then
    .ok ⟨requestText o target host, host, proxyport, o.forced⟩
  else .error (.overrun .request)

def buildRequest (o : Options) (url : List UInt8) : Except Abort Built :=
  match strstr (ascii "://") url with
  | none => .error (.exit (ascii "\n" ++ url ++ ascii ": is not a valid URL.\n"))
  | some delimiter =>
      if 1500 < url.length then .error (.exit (ascii "URL is too long.\n"))
      else if strncasecmpEq (ascii "http://") url 7 = false then
        .error (.exit
          (ascii "\nOnly HTTP protocol is directly supported, set --proxy for others.\n"))
      else
        let rest := url.drop (delimiter + 3)
        match strchr rest SLASH with
        | none => .error (.exit (ascii "\nInvalid URL syntax - hostname don't ends with '/'.\n"))
        | some slash =>
            match o.proxyhost with
            | some _ => finishRequest o url [] o.proxyport
            | none =>
                match hostAndPort o rest slash with
                | .error abort => .error abort
                | .ok (host, proxyport) =>
                    finishRequest o (rest.drop (strcspn rest SLASH)) host proxyport

/-! ### URLs by their parts -/

/-- A URL that is taken: the scheme in any case, what stands before the next `/`, and the rest. -/
structure Url where
  scheme : List UInt8
  authority : List UInt8
  path : List UInt8
  scheme_eq : lower scheme = ascii "http://"
  authority_bytes : SLASH ∉ authority
  path_head : path.head? = some SLASH

namespace Url

def text (u : Url) : List UInt8 := u.scheme ++ (u.authority ++ u.path)

/-- Before the first `:` of the authority. -/
def host (u : Url) : List UInt8 := u.authority.takeWhile (· != COLON)

/-- Behind the first `:` of the authority. -/
def port (u : Url) : Option (List UInt8) :=
  if COLON ∈ u.authority then some (u.authority.drop (u.host.length + 1)) else none

/-- The arrays take its parts, and nothing is read behind them. -/
structure Fits (o : Options) (u : Url) : Prop where
  length_le : u.text.length ≤ 1500
  host_le : o.proxyhost = none → u.host.length ≤ MAXHOSTNAMELEN
  host_ended : o.proxyhost = none → 0 < o.forced → u.host.length < MAXHOSTNAMELEN
  port_taken : o.proxyhost = none → ∀ port ∈ u.port, TmpTakes port

/-- What is asked for: a proxy is asked for the whole URL. -/
def target (o : Options) (u : Url) : List UInt8 := if o.proxyhost = none then u.path else u.text

/-- The header lines of a request that is not one of HTTP/0.9. -/
def headers (o : Options) (u : Url) : List (List UInt8) :=
  [ascii "User-Agent: WebBench 1.5"]
    ++ (if o.proxyhost = none then [ascii "Host: " ++ u.host] else [])
    ++ (if o.forceReload ∧ o.proxyhost ≠ none then [ascii "Pragma: no-cache"] else [])
    ++ (if o.forced = 2 then
          [if o.keepAlive then ascii "Connection: Keep-Alive" else ascii "Connection: close"]
        else [])

/-- The lines of the request. -/
def lines (o : Options) (u : Url) : List (List UInt8) :=
  if o.forced = 0 then [methodText o.method ++ SP :: u.target o]
  else (methodText o.method ++ SP :: (u.target o ++ SP ::
    (if o.forced = 1 then ascii "HTTP/1.0" else ascii "HTTP/1.1"))) :: (u.headers o ++ [[]])

/-- The port to connect to. -/
def portNumber (o : Options) (u : Url) : ℤ :=
  match u.port with
  | none => o.proxyport
  | some port => if atoi port = 0 then 80 else atoi port

/-- Which options make a request that the server takes. -/
def Taken (o : Options) : Prop :=
  (o.method = .GET ∨ o.method = .HEAD) ∧ o.forced ≠ 0 ∧ (o.forced = 2 → o.keepAlive = true)

/-- What is built from it. -/
def built (o : Options) (u : Url) : Built where
  request := wireLines (u.lines o)
  host := if o.proxyhost = none then u.host else []
  proxyport := if o.proxyhost = none then u.portNumber o else o.proxyport
  http10 := o.forced

end Url

/-! ### The text -/

theorem wireLines_optional {p : Prop} [Decidable p] {line text : List UInt8} (h : line ++ [CR, LF] = text) :
    wireLines (if p then [line] else []) = if p then text else [] := by
  subst h
  split
  · rw [wireLines_cons]
    rfl
  · rfl

theorem wireLines_headers (o : Options) (u : Url) : wireLines (u.headers o) =
    ascii "User-Agent: WebBench 1.5\r\n"
      ++ (if o.proxyhost = none then ascii "Host: " ++ u.host ++ [CR, LF] else [])
      ++ (if o.forceReload ∧ o.proxyhost ≠ none then ascii "Pragma: no-cache\r\n" else [])
      ++ (if o.forced = 2 then
            if o.keepAlive then ascii "Connection: Keep-Alive\r\n" else ascii "Connection: close\r\n"
          else []) := by
  have hconnection : (if o.keepAlive then ascii "Connection: Keep-Alive" else ascii "Connection: close")
      ++ [CR, LF] = if o.keepAlive then ascii "Connection: Keep-Alive\r\n"
        else ascii "Connection: close\r\n" := by
    split <;> rfl
  rw [Url.headers, HttpContext.wireLines_append, HttpContext.wireLines_append,
    HttpContext.wireLines_append, wireLines_optional rfl, wireLines_optional rfl,
    wireLines_optional hconnection]
  rfl

theorem forced_of_reload (h : o.forceReload = true ∧ o.proxyhost ≠ none) : o.forced ≠ 0 := by
  rw [Options.forced]
  have hsmall := o.http10.isLt
  simp only [h.1, h.2, true_and, ne_eq, not_false_eq_true]
  split_ifs <;> omega

/-- The calls of `strcat` make these lines. -/
theorem requestText_eq (o : Options) (u : Url) :
    requestText o (u.target o) (if o.proxyhost = none then u.host else []) = wireLines (u.lines o) := by
  rw [requestText, Url.lines]
  by_cases hforced : o.forced = 0
  · have hreload : ¬ (o.forceReload = true ∧ o.proxyhost ≠ none) := fun h => forced_of_reload h hforced
    rw [if_pos hforced, if_neg hreload, hforced, wireLines_cons]
    simp [wireLines]
  · have hpos : 0 < o.forced := by omega
    rw [if_neg hforced, wireLines_cons, HttpContext.wireLines_append, wireLines_headers]
    have htwo : 1 < o.forced ↔ o.forced = 2 := by omega
    have hversion : (if o.forced = 1 then ascii " HTTP/1.0"
        else if o.forced = 2 then ascii " HTTP/1.1" else []) =
        SP :: if o.forced = 1 then ascii "HTTP/1.0" else ascii "HTTP/1.1" := by
      rcases (by omega : o.forced = 1 ∨ o.forced = 2) with h | h <;> rw [h] <;> rfl
    simp only [hpos, htwo, hversion, and_true, if_true]
    by_cases hproxy : o.proxyhost = none <;> simp [hproxy, wireLines]

theorem length_optional {p : Prop} [Decidable p] {text : List UInt8} {n : ℕ} (h : text.length ≤ n) :
    (if p then text else []).length ≤ n := by
  split
  · exact h
  · exact Nat.zero_le n

/-- **The array of the request is large enough** for what the tests before let through. -/
theorem requestText_length {target host : List UInt8} (htarget : target.length ≤ 1500)
    (hhost : host.length ≤ MAXHOSTNAMELEN) : (requestText o target host).length < REQUEST_SIZE := by
  have hmethod : (methodText o.method).length ≤ 7 := by cases o.method <;> decide
  have hversion : (if o.forced = 1 then ascii " HTTP/1.0"
      else if o.forced = 2 then ascii " HTTP/1.1" else []).length ≤ 9 := by
    split
    · decide
    · exact length_optional (by decide)
  have hagent : (if 0 < o.forced then ascii "User-Agent: WebBench 1.5\r\n" else []).length ≤ 26 :=
    length_optional (by decide)
  have hline : (if o.proxyhost = none ∧ 0 < o.forced then ascii "Host: " ++ host ++ [CR, LF]
      else []).length ≤ 6 + host.length + 2 :=
    length_optional (by simp only [List.length_append]; exact le_refl _)
  have hpragma : (if o.forceReload ∧ o.proxyhost ≠ none then ascii "Pragma: no-cache\r\n"
      else []).length ≤ 18 := length_optional (by decide)
  have hconnection : (if 1 < o.forced then
      if o.keepAlive then ascii "Connection: Keep-Alive\r\n" else ascii "Connection: close\r\n"
      else []).length ≤ 24 := length_optional (by split <;> decide)
  have hend : (if 0 < o.forced then [CR, LF] else []).length ≤ 2 := length_optional (le_refl _)
  rw [MAXHOSTNAMELEN] at hhost
  rw [requestText, REQUEST_SIZE]
  simp only [List.length_append, List.length_cons, List.length_nil]
  omega

/-! ### The cuts -/

/-- A byte that is no letter has no other case. -/
theorem tolower_eq_iff {b c : UInt8} (hc : c.toNat < 65) : tolower b = c ↔ b = c := by
  rw [tolower]
  split
  · next hrange =>
      rw [UInt8.le_iff_toNat_le, UInt8.le_iff_toNat_le] at hrange
      rw [UInt8.ext_iff, UInt8.ext_iff, UInt8.toNat_add]
      simp only [UInt8.reduceToNat] at hrange ⊢
      omega
  · exact Iff.rfl

/-- The comparison does not depend on the order of the two texts. -/
theorem strncasecmpEq_comm (a b : List UInt8) (n : ℕ) : strncasecmpEq a b n = strncasecmpEq b a n := by
  induction n generalizing a b with
  | zero => rw [strncasecmpEq, strncasecmpEq]
  | succ n ih =>
      rw [strncasecmpEq, strncasecmpEq, ih]
      by_cases heq : tolower (charAt a 0) = tolower (charAt b 0)
      · have hnul : charAt a 0 = NUL ↔ charAt b 0 = NUL := by
          rw [← tolower_eq_iff (show NUL.toNat < 65 by decide), heq,
            tolower_eq_iff (show NUL.toNat < 65 by decide)]
        rw [if_pos heq, if_pos heq.symm]
        congr 1
        rw [Bool.eq_iff_iff, beq_iff_eq, beq_iff_eq]
        exact hnul
      · rw [if_neg heq, if_neg (Ne.symm heq)]

/-- The test of the scheme. -/
theorem scheme_iff (url : List UInt8) :
    strncasecmpEq (ascii "http://") url 7 = true ↔ lower (url.take 7) = ascii "http://" := by
  rw [strncasecmpEq_comm]
  exact strncasecmpEq_iff (b := ascii "http://") (forall_bytes (by decide)) url

/-- A word behind bytes that are not its first one is found there. -/
theorem strstr_behind {c : UInt8} {word before rest : List UInt8} (h : c ∉ before) :
    strstr (c :: word) (before ++ (c :: word ++ rest)) = some before.length := by
  induction before with
  | nil =>
      rw [List.nil_append, List.cons_append, strstr, if_pos]
      · rfl
      · rw [List.cons_prefix_cons]
        exact ⟨rfl, List.prefix_append word rest⟩
  | cons b before ih =>
      rw [List.mem_cons, not_or] at h
      rw [List.cons_append, strstr, if_neg, ih h.2]
      · rfl
      · rw [List.cons_prefix_cons]
        exact fun hp => h.1 hp.1

theorem scheme_length {scheme : List UInt8} (h : lower scheme = ascii "http://") : scheme.length = 7 := by
  have hlen := congrArg List.length h
  rwa [lower, List.length_map] at hlen

/-- The `://` is where the scheme ends. -/
theorem strstr_scheme {scheme : List UInt8} (h : lower scheme = ascii "http://") (rest : List UInt8) :
    strstr (ascii "://") (scheme ++ rest) = some 4 := by
  obtain ⟨a, b, c, d, e, f, g, rfl⟩ : ∃ a b c d e f g, scheme = [a, b, c, d, e, f, g] := by
    match scheme, scheme_length h with
    | [a, b, c, d, e, f, g], _ => exact ⟨a, b, c, d, e, f, g, rfl⟩
  rw [show ascii "http://" = [104, 116, 116, 112, COLON, SLASH, SLASH] from rfl] at h
  simp only [lower, List.map_cons, List.map_nil, List.cons.injEq, and_true] at h
  obtain ⟨ha, hb, hc, hd, he, hf, hg⟩ := h
  rw [tolower_eq_iff (by decide)] at he hf hg
  subst he hf hg
  have hcolon : COLON ∉ [a, b, c, d] := by
    intro hmem
    have hlower : tolower COLON ∈ [a, b, c, d].map tolower := List.mem_map_of_mem hmem
    rw [List.map_cons, List.map_cons, List.map_cons, List.map_cons, ha, hb, hc, hd] at hlower
    exact absurd hlower (by decide)
  exact @strstr_behind COLON [SLASH, SLASH] [a, b, c, d] rest hcolon

namespace Url

variable (u : Url)

theorem strstr_text : strstr (ascii "://") u.text = some 4 := strstr_scheme u.scheme_eq _

theorem drop_text : u.text.drop (4 + 3) = u.authority ++ u.path := by
  rw [text, List.drop_left' (scheme_length u.scheme_eq)]

/-- The first `/` is where the authority ends. -/
theorem strcspn_slash : strcspn (u.authority ++ u.path) SLASH = u.authority.length := by
  have hall : ∀ b ∈ u.authority, (b != SLASH) = true := fun b hb =>
    bne_iff_ne.mpr fun heq => u.authority_bytes (heq ▸ hb)
  obtain ⟨t, ht⟩ := List.head?_eq_some_iff.mp u.path_head
  rw [strcspn, List.takeWhile_append_of_pos hall, ht, List.takeWhile_cons_of_neg (by simp), List.append_nil]

theorem strchr_slash : strchr (u.authority ++ u.path) SLASH = some u.authority.length := by
  have hmem : SLASH ∈ u.authority ++ u.path :=
    List.mem_append_right _ (List.mem_of_mem_head? (by rw [u.path_head]; rfl))
  rw [strchr, if_pos hmem, strcspn_slash]

/-- The first `:`, if it stands in the authority. -/
theorem strchr_colon (h : COLON ∈ u.authority) :
    strchr (u.authority ++ u.path) COLON = some u.host.length ∧ u.host.length < u.authority.length := by
  have hne : u.host.length ≠ u.authority.length := by
    intro hlen
    have hall := List.takeWhile_eq_self_iff.mp ((List.takeWhile_prefix _).eq_of_length hlen) COLON h
    exact bne_iff_ne.mp hall rfl
  refine ⟨?_, lt_of_le_of_ne (List.takeWhile_prefix _).length_le hne⟩
  rw [strchr, if_pos (List.mem_append_left _ h), strcspn, List.takeWhile_append, ← host, if_neg hne]

/-- A `:` that does not stand in the authority stands behind it. -/
theorem strchr_colon_behind (h : COLON ∉ u.authority) {colon : ℕ}
    (hcolon : strchr (u.authority ++ u.path) COLON = some colon) : ¬ colon < u.authority.length := by
  have hall : ∀ b ∈ u.authority, (b != COLON) = true := fun b hb =>
    bne_iff_ne.mpr fun heq => h (heq ▸ hb)
  rw [strchr] at hcolon
  split at hcolon
  · cases hcolon
    rw [strcspn, List.takeWhile_append_of_pos hall, List.length_append]
    omega
  · cases hcolon

theorem host_eq_authority (h : COLON ∉ u.authority) : u.host = u.authority :=
  List.takeWhile_eq_self_iff.mpr fun _ hb => bne_iff_ne.mpr fun heq => h (heq ▸ hb)

theorem take_host : (u.authority ++ u.path).take u.host.length = u.host := by
  have hprefix : u.host <+: u.authority ++ u.path :=
    (List.takeWhile_prefix _).trans (List.prefix_append _ _)
  exact (List.prefix_iff_eq_take.mp hprefix).symm

/-- **The host and the port** are those of the URL, if there is room for them. -/
theorem hostAndPort_text (o : Options) :
    hostAndPort o (u.authority ++ u.path) u.authority.length =
      if MAXHOSTNAMELEN < u.host.length then .error (.overrun .host)
      else if ∀ port ∈ u.port, TmpTakes port then .ok (u.host, u.portNumber o)
      else .error (.overrun .tmp) := by
  rw [hostAndPort]
  by_cases hcolon : COLON ∈ u.authority
  · obtain ⟨hstrchr, hlt⟩ := u.strchr_colon hcolon
    have htmp : ((u.authority ++ u.path).drop (u.host.length + 1)).take
        (u.authority.length - u.host.length - 1) = u.authority.drop (u.host.length + 1) := by
      rw [List.drop_append_of_le_length (by omega), List.take_left' (by rw [List.length_drop]; omega)]
    have hport : u.port = some (u.authority.drop (u.host.length + 1)) := if_pos hcolon
    have hroom : (∀ port ∈ u.port, TmpTakes port) ↔ TmpTakes (u.authority.drop (u.host.length + 1)) := by
      rw [hport]
      exact ⟨fun h => h _ rfl, fun h port hp => by cases hp; exact h⟩
    simp only [hroom]
    simp only [hstrchr, if_pos hlt, u.take_host, htmp, portNumber, hport]
  · have hport : u.port = none := if_neg hcolon
    have hroom : ∀ port ∈ u.port, TmpTakes port := by
      rw [hport]
      exact nofun
    have htake : (u.authority ++ u.path).take u.authority.length = u.authority := List.take_left
    rw [if_pos hroom, portNumber, hport, u.host_eq_authority hcolon]
    split
    · next colon hstrchr => rw [if_neg (u.strchr_colon_behind hcolon hstrchr), htake]
    · rw [htake]

/-! ### What is built -/

/-- The request fits into its array. -/
theorem finishRequest_text (hlong : ¬ 1500 < u.text.length)
    (hhost : (if o.proxyhost = none then u.host else []).length ≤ MAXHOSTNAMELEN)
    (hended : ¬ (o.proxyhost = none ∧ 0 < o.forced ∧
      MAXHOSTNAMELEN ≤ (if o.proxyhost = none then u.host else []).length)) (proxyport : ℤ) :
    finishRequest o (u.target o) (if o.proxyhost = none then u.host else []) proxyport =
      .ok { u.built o with proxyport := proxyport } := by
  have htarget : (u.target o).length ≤ 1500 := by
    rw [target]
    split
    · rw [text, List.length_append, List.length_append] at hlong
      omega
    · omega
  rw [finishRequest, if_neg hended, if_pos (requestText_length htarget hhost), requestText_eq]
  rfl

/-- **A URL of this form** is taken, if it is not too long and there is room for its parts. -/
theorem buildRequest_text (o : Options) : buildRequest o u.text =
    if 1500 < u.text.length then .error (.exit (ascii "URL is too long.\n"))
    else if o.proxyhost = none ∧ MAXHOSTNAMELEN < u.host.length then .error (.overrun .host)
    else if o.proxyhost = none ∧ ¬ (∀ port ∈ u.port, TmpTakes port) then .error (.overrun .tmp)
    else if o.proxyhost = none ∧ 0 < o.forced ∧ MAXHOSTNAMELEN ≤ u.host.length then
      .error (.overrun .host)
    else .ok (u.built o) := by
  have hscheme : ¬ strncasecmpEq (ascii "http://") u.text 7 = false := by
    rw [Bool.not_eq_false, scheme_iff, text, List.take_left' (scheme_length u.scheme_eq)]
    exact u.scheme_eq
  rw [buildRequest, u.strstr_text]
  by_cases hlong : 1500 < u.text.length
  · simp only [if_pos hlong]
  · simp only [if_neg hlong, if_neg hscheme, u.drop_text, u.strchr_slash]
    cases hproxy : o.proxyhost with
    | some proxy =>
        have hfinish := @finishRequest_text o u hlong (by rw [hproxy, if_neg (by simp)]; decide)
          (fun h => by rw [hproxy] at h; cases h.1) o.proxyport
        simp only [hproxy, target, built, reduceCtorEq, if_false, false_and] at hfinish ⊢
        exact hfinish
    | none =>
        have hcut : (u.authority ++ u.path).drop u.authority.length = u.path := List.drop_left
        simp only [u.hostAndPort_text, u.strcspn_slash, hcut, true_and]
        by_cases hhost : MAXHOSTNAMELEN < u.host.length
        · simp only [if_pos hhost]
        · by_cases hport : ∀ port ∈ u.port, TmpTakes port
          · simp only [if_neg hhost, if_pos hport, if_neg (not_not_intro hport)]
            by_cases hended : 0 < o.forced ∧ MAXHOSTNAMELEN ≤ u.host.length
            · rw [finishRequest, if_pos ⟨hproxy, hended⟩, if_pos hended]
            · have hfinish := @finishRequest_text o u hlong (by rw [if_pos hproxy]; exact Nat.not_lt.mp hhost)
                (by rw [if_pos hproxy]; exact fun h => hended h.2) (u.portNumber o)
              simp only [hproxy, target, built, if_true] at hfinish ⊢
              rw [if_neg hended, hfinish]
          · simp only [if_neg hhost, if_neg hport]
            rw [if_pos hport]

/-- A URL that passes the tests has this form. -/
theorem exists_text {url : List UInt8} (hscheme : lower (url.take 7) = ascii "http://")
    (hslash : SLASH ∈ url.drop 7) : ∃ u : Url, u.text = url := by
  have hpath : ((url.drop 7).dropWhile (· != SLASH)).head? = some SLASH := by
    cases hcut : (url.drop 7).dropWhile (· != SLASH) with
    | nil => exact absurd rfl (bne_iff_ne.mp (List.dropWhile_eq_nil_iff.mp hcut SLASH hslash))
    | cons b t =>
        have hhead := List.head?_dropWhile_not (· != SLASH) (url.drop 7)
        rw [hcut] at hhead
        rw [List.head?_cons, bne_eq_false_iff_eq.mp hhead]
  refine ⟨⟨url.take 7, (url.drop 7).takeWhile (· != SLASH), (url.drop 7).dropWhile (· != SLASH), hscheme,
    fun hmem => ?_, hpath⟩, ?_⟩
  · exact bne_iff_ne.mp (List.mem_takeWhile_imp (p := (· != SLASH)) hmem) rfl
  · rw [text, List.takeWhile_append_dropWhile, List.take_append_drop]

/-- **What is taken** is a URL of this form. -/
theorem exists_of_ok {url : List UInt8} {b : Built} (h : buildRequest o url = .ok b) :
    ∃ u : Url, u.text = url := by
  rw [buildRequest] at h
  split at h
  · cases h
  · next delimiter hdelimiter =>
      split at h
      · cases h
      · split at h
        · cases h
        · next hscheme =>
            rw [Bool.not_eq_false, scheme_iff] at hscheme
            have hfour := strstr_scheme hscheme (url.drop 7)
            rw [List.take_append_drop, hdelimiter] at hfour
            cases hfour
            dsimp only at h
            split at h
            · cases h
            · next slash hslash =>
                refine exists_text hscheme ?_
                rw [strchr] at hslash
                split at hslash
                · next hmem => exact hmem
                · cases hslash

theorem built_of_fits {u : Url} (h : u.Fits o) : buildRequest o u.text = .ok (u.built o) := by
  rw [u.buildRequest_text, if_neg (Nat.not_lt.mpr h.length_le),
    if_neg fun hhost => Nat.not_lt.mpr (h.host_le hhost.1) hhost.2,
    if_neg fun hport => hport.2 (h.port_taken hport.1),
    if_neg fun hended => Nat.not_lt.mpr hended.2.2 (h.host_ended hended.1 hended.2.1)]

/-- A URL from which a request is built fits. -/
theorem fits_of_ok {u : Url} {b : Built} (h : buildRequest o u.text = .ok b) :
    u.Fits o ∧ b = u.built o := by
  rw [u.buildRequest_text] at h
  split at h
  · cases h
  · next hlong =>
      split at h
      · cases h
      · next hhost =>
          split at h
          · cases h
          · next hport =>
              split at h
              · cases h
              · next hended =>
                  cases h
                  exact ⟨{ length_le := Nat.not_lt.mp hlong
                           host_le := fun hproxy => Nat.not_lt.mp fun hlt => hhost ⟨hproxy, hlt⟩
                           host_ended := fun hproxy hforced => Nat.not_le.mp fun hle =>
                             hended ⟨hproxy, hforced, hle⟩
                           port_taken := fun hproxy => not_not.mp fun hnot => hport ⟨hproxy, hnot⟩ }, rfl⟩

/-- **What `build_request` builds**, and from which URLs: there is no other way to come out of it. -/
theorem build_request_ok_iff (o : Options) (url : List UInt8) (b : Built) :
    buildRequest o url = .ok b ↔ ∃ u : Url, u.text = url ∧ u.Fits o ∧ b = u.built o := by
  constructor
  · intro h
    obtain ⟨u, rfl⟩ := exists_of_ok h
    exact ⟨u, rfl, fits_of_ok h⟩
  · rintro ⟨u, rfl, hfits, rfl⟩
    exact built_of_fits hfits

end Url

end Webbench

end WServer
