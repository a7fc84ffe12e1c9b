import Mathlib.Data.Nat.ModEq
import WServer.ServerConnections

/-!
# The names of connections

The server keeps its connections in a map under their names, and makes a name from `m_next_conn_id`, an
`int` that is only counted up.  Here the counter wraps around, and a run may be longer than its range:
`mapStep` is a call of `newConnection` or of `removeConnectionInLoop`, in any order, with what it does to
the map.  A connection is known by the number of its creation, and is live until the server is asked to
remove it.

* `connName_eq_iff` — two connections have the same name exactly if their numbers are congruent modulo
  `2 ^ 32`;
* `KeepsEntries` — a call leaves the live connections in the map, and finds the one it removes;
* `names_unique_iff` — whole runs;
* `Matches` — up to the last `int` the map is that of the server.
-/

namespace WServer

open Library.Runs

/-- The text of an `int`, as `snprintf` makes it for `%d`. -/
def intText (z : ℤ) : List Char :=
  if z < 0 then '-' :: Nat.toDigits 10 z.natAbs else Nat.toDigits 10 z.natAbs

/-- What `newConnection` and `removeConnectionInLoop` use of class `TcpServer`.  `names` are the names
that the connections were created with, `created` their number, and `live` those that have not been
removed. -/
structure ConnectionMap where
  name : List Char
  nextConnId : BitVec 32
  connections : List (List Char × ℕ)
  names : ℕ → List Char
  created : ℕ
  live : List ℕ

inductive MapCall where
  | newConnection
  | removeConnectionInLoop (conn : ℕ)

/-- A call for a connection that does not exist. -/
inductive MapFault where
  | noConnection

namespace ConnectionMap

def init (name : List Char) : ConnectionMap where
  name := name
  nextConnId := 1
  connections := []
  names _ := []
  created := 0
  live := []

/-- `snprintf(buf, sizeof(buf), "#conn-id: %d", m_next_conn_id)`, without the NUL. -/
def connBuf (id : BitVec 32) : List Char :=
  (['#', 'c', 'o', 'n', 'n', '-', 'i', 'd', ':', ' '] ++ intText id.toInt).take 31

def connName (s : ConnectionMap) (id : BitVec 32) : List Char := s.name ++ connBuf id

def newConnection (s : ConnectionMap) : ConnectionMap :=
  let connName := s.connName s.nextConnId
  let conn := s.created + 1
  { s with
    nextConnId := s.nextConnId + 1
    connections := (connName, conn) :: s.connections.filter fun entry => entry.1 ≠ connName
    names := Function.update s.names conn connName
    created := conn
    live := conn :: s.live }

def removeConnectionInLoop (conn : ℕ) (s : ConnectionMap) : ConnectionMap :=
  { s with
    connections := s.connections.filter fun entry => entry.1 ≠ s.names conn
    live := s.live.filter (· ≠ conn) }

/-- The connection has been created. -/
def Created (conn : ℕ) (s : ConnectionMap) : Prop := 0 < conn ∧ conn ≤ s.created

instance (conn : ℕ) (s : ConnectionMap) : Decidable (s.Created conn) :=
  inferInstanceAs (Decidable (_ ∧ _))

end ConnectionMap

/-- One call. -/
def mapStep (s : ConnectionMap) : MapCall → Except MapFault ConnectionMap
  | .newConnection => .ok s.newConnection
  | .removeConnectionInLoop conn =>
      if s.Created conn then .ok (s.removeConnectionInLoop conn) else .error .noConnection

/-! ### Names -/

theorem intText_injective : Function.Injective intText := by
  have hdigit : ∀ (n : ℕ) (rest : List Char), Nat.toDigits 10 n ≠ '-' :: rest := by
    intro n rest h
    have hmem : '-' ∈ Nat.toDigits 10 n := by rw [h]; exact List.mem_cons_self
    exact absurd (Nat.isDigit_of_mem_toDigits (by decide) (by decide) hmem) (by decide)
  have hinj : ∀ m n : ℕ, Nat.toDigits 10 m = Nat.toDigits 10 n → m = n := by
    intro m n h
    rw [← Nat.ofDigitChars_ten_toDigits (n := m), h, Nat.ofDigitChars_ten_toDigits]
  intro a b h
  rw [intText, intText] at h
  split at h <;> split at h
  · have := hinj _ _ (List.tail_eq_of_cons_eq h)
    omega
  · exact absurd h.symm (hdigit _ _)
  · exact absurd h (hdigit _ _)
  · have := hinj _ _ h
    omega

/-- The buffer of `newConnection` is long enough. -/
theorem connBuf_eq (id : BitVec 32) : ConnectionMap.connBuf id
    = ['#', 'c', 'o', 'n', 'n', '-', 'i', 'd', ':', ' '] ++ intText id.toInt := by
  have hrange : id.toInt.natAbs < 10 ^ 10 := by
    have := id.isLt
    rw [BitVec.toInt_eq_toNat_cond]
    split <;> omega
  have hdigits := (Nat.length_toDigits_le_iff (b := 10) (k := 10) (by decide) (by decide)).mpr hrange
  refine List.take_of_length_le ?_
  rw [List.length_append, intText]
  split <;> simp only [List.length_cons, List.length_nil] <;> omega

namespace ConnectionMap

variable {s s' : ConnectionMap}

theorem connName_injective (s : ConnectionMap) : Function.Injective s.connName := by
  intro i j h
  have hbuf := List.append_cancel_left h
  rw [connBuf_eq, connBuf_eq] at hbuf
  exact BitVec.eq_of_toInt_eq (intText_injective (List.append_cancel_left hbuf))

/-- **Names repeat** with a period of `2 ^ 32`. -/
theorem connName_eq_iff (s : ConnectionMap) (i j : ℕ) :
    s.connName (BitVec.ofNat 32 i) = s.connName (BitVec.ofNat 32 j) ↔ i ≡ j [MOD 2 ^ 32] := by
  rw [s.connName_injective.eq_iff, ← BitVec.toNat_inj, BitVec.toNat_ofNat, BitVec.toNat_ofNat]
  exact Iff.rfl

/-! ### One call -/

/-- What is asked of a call: no live connection loses its entry but the one that is removed, and that one
has its entry and loses it. -/
def KeepsEntries (s : ConnectionMap) (call : MapCall) : Prop :=
  ∀ s', mapStep s call = .ok s' →
    match call with
    | .newConnection => ∀ entry ∈ s.connections, entry.2 ∈ s.live → entry ∈ s'.connections
    | .removeConnectionInLoop conn =>
        (∀ entry ∈ s.connections, entry.2 ∈ s.live → entry.2 ≠ conn → entry ∈ s'.connections) ∧
          (conn ∈ s.live → (s.names conn, conn) ∈ s.connections) ∧
          (s.names conn, conn) ∉ s'.connections

/-- No live connection has the name of the one that a call creates or removes: their numbers do not differ
by a multiple of `2 ^ 32`. -/
def NoNamesake (s : ConnectionMap) : MapCall → Prop
  | .newConnection => ∀ id ∈ s.live, ¬ id ≡ s.created + 1 [MOD 2 ^ 32]
  | .removeConnectionInLoop conn =>
      s.Created conn → ∀ id ∈ s.live, id ≠ conn → ¬ id ≡ conn [MOD 2 ^ 32]

/-- Every live connection has its entry. -/
structure Mapped (s : ConnectionMap) : Prop where
  nextConnId : s.nextConnId = BitVec.ofNat 32 (s.created + 1)
  names : ∀ id, s.Created id → s.names id = s.connName (BitVec.ofNat 32 id)
  created : ∀ id ∈ s.live, s.Created id
  entries : ∀ id ∈ s.live, (s.names id, id) ∈ s.connections
  entry_name : ∀ entry ∈ s.connections, s.Created entry.2 ∧ entry.1 = s.names entry.2

theorem mapped_init (name : List Char) : Mapped (init name) where
  nextConnId := rfl
  names := fun _ h => absurd h.1 (Nat.not_lt.mpr h.2)
  created := fun _ h => absurd h List.not_mem_nil
  entries := fun _ h => absurd h List.not_mem_nil
  entry_name := fun _ h => absurd h List.not_mem_nil

/-- The name of a connection tells its number, up to multiples of `2 ^ 32`. -/
theorem Mapped.name_eq_iff (h : Mapped s) {i j : ℕ} (hi : s.Created i) (hj : s.Created j) :
    s.names i = s.names j ↔ i ≡ j [MOD 2 ^ 32] := by
  rw [h.names i hi, h.names j hj, connName_eq_iff]

theorem Mapped.nextName_eq_iff (h : Mapped s) {i : ℕ} (hi : s.Created i) :
    s.names i = s.connName s.nextConnId ↔ i ≡ s.created + 1 [MOD 2 ^ 32] := by
  rw [h.names i hi, h.nextConnId, connName_eq_iff]

theorem Created.ne_next {id : ℕ} (h : s.Created id) : id ≠ s.created + 1 :=
  Nat.ne_of_lt (Nat.lt_succ_of_le h.2)

/-- An entry stays in the map when a connection is created, if its name is another one. -/
theorem Mapped.mem_newConnection (h : Mapped s) {id : ℕ} (hid : s.Created id)
    (hmem : (s.names id, id) ∈ s.connections) :
    (s.names id, id) ∈ s.newConnection.connections ↔ ¬ id ≡ s.created + 1 [MOD 2 ^ 32] := by
  rw [newConnection, ← h.nextName_eq_iff hid]
  simp only [List.mem_cons, List.mem_filter, hmem, true_and, decide_eq_true_eq, Prod.mk.injEq]
  exact or_iff_right fun heq => hid.ne_next heq.2

/-- And when another one is removed. -/
theorem Mapped.mem_removeConnectionInLoop (h : Mapped s) {id conn : ℕ} (hid : s.Created id)
    (hconn : s.Created conn) (hmem : (s.names id, id) ∈ s.connections) :
    (s.names id, id) ∈ (s.removeConnectionInLoop conn).connections ↔ ¬ id ≡ conn [MOD 2 ^ 32] := by
  rw [removeConnectionInLoop, ← h.name_eq_iff hid hconn]
  simp only [List.mem_filter, hmem, true_and, decide_eq_true_eq]

/-- **One call** keeps the live connections in the map exactly if none has the name in question. -/
theorem Mapped.keepsEntries_iff (h : Mapped s) (call : MapCall) :
    KeepsEntries s call ↔ NoNamesake s call := by
  cases call with
  | newConnection =>
      constructor
      · intro hkeeps id hid
        have hmem := h.entries id hid
        exact (h.mem_newConnection (h.created id hid) hmem).mp (hkeeps _ rfl _ hmem hid)
      · intro hno s' hok entry hentry hlive
        cases hok
        obtain ⟨hcreated, hname⟩ := h.entry_name entry hentry
        obtain ⟨name, id⟩ := entry
        obtain rfl : name = s.names id := hname
        exact (h.mem_newConnection hcreated hentry).mpr (hno id hlive)
  | removeConnectionInLoop conn =>
      constructor
      · intro hkeeps hconn id hid hne
        have hmem := h.entries id hid
        have hok : mapStep s (.removeConnectionInLoop conn) = .ok (s.removeConnectionInLoop conn) :=
          if_pos hconn
        exact (h.mem_removeConnectionInLoop (h.created id hid) hconn hmem).mp
          ((hkeeps _ hok).1 _ hmem hid hne)
      · intro hno s' hok
        rw [mapStep] at hok
        split at hok
        case isFalse => cases hok
        case isTrue hconn =>
          cases hok
          refine ⟨fun entry hentry hlive hne => ?_, h.entries conn, ?_⟩
          · obtain ⟨hcreated, hname⟩ := h.entry_name entry hentry
            obtain ⟨name, id⟩ := entry
            obtain rfl : name = s.names id := hname
            exact (h.mem_removeConnectionInLoop hcreated hconn hentry).mpr (hno hconn id hlive hne)
          · intro hmem
            have hne := (List.mem_filter.mp hmem).2
            exact of_decide_eq_true hne rfl

theorem Mapped.newConnection (h : Mapped s) (hno : NoNamesake s .newConnection) : Mapped s.newConnection := by
  have hnames : ∀ id, s.Created id → s.newConnection.names id = s.names id := fun id hid =>
    Function.update_of_ne hid.ne_next _ _
  have hself : s.newConnection.names (s.created + 1) = s.connName s.nextConnId :=
    Function.update_self _ _ _
  have hgrows : ∀ id, s.Created id → s.newConnection.Created id := fun id hid =>
    ⟨hid.1, Nat.le_succ_of_le hid.2⟩
  have hnew : s.newConnection.Created (s.created + 1) := ⟨Nat.succ_pos _, Nat.le_refl _⟩
  refine ⟨?_, fun id hid => ?_, fun id hid => ?_, fun id hid => ?_, fun entry hentry => ?_⟩
  · show s.nextConnId + 1 = BitVec.ofNat 32 (s.created + 1 + 1)
    rw [h.nextConnId, BitVec.ofNat_add (s.created + 1) 1]
    rfl
  · rcases Nat.lt_or_eq_of_le hid.2 with hlt | rfl
    · have hold : s.Created id := ⟨hid.1, Nat.le_of_lt_succ hlt⟩
      rw [hnames id hold, h.names id hold]
      rfl
    · rw [show s.newConnection.created = s.created + 1 from rfl, hself, h.nextConnId]
      rfl
  · rcases List.mem_cons.mp hid with rfl | hid
    · exact hnew
    · exact hgrows id (h.created id hid)
  · rcases List.mem_cons.mp hid with rfl | hid
    · rw [hself]
      exact List.mem_cons_self
    · rw [hnames id (h.created id hid)]
      exact (h.mem_newConnection (h.created id hid) (h.entries id hid)).mpr (hno id hid)
  · rcases List.mem_cons.mp hentry with rfl | hentry
    · exact ⟨hnew, hself.symm⟩
    · obtain ⟨hcreated, hname⟩ := h.entry_name entry (List.mem_filter.mp hentry).1
      exact ⟨hgrows _ hcreated, hname.trans (hnames _ hcreated).symm⟩

theorem Mapped.removeConnectionInLoop (h : Mapped s) {conn : ℕ} (hconn : s.Created conn)
    (hno : NoNamesake s (.removeConnectionInLoop conn)) : Mapped (s.removeConnectionInLoop conn) := by
  have hlive : ∀ id ∈ (s.removeConnectionInLoop conn).live, id ∈ s.live ∧ id ≠ conn := fun id hid =>
    ⟨(List.mem_filter.mp hid).1, of_decide_eq_true (List.mem_filter.mp hid).2⟩
  refine ⟨h.nextConnId, h.names, fun id hid => h.created id (hlive id hid).1, fun id hid => ?_,
    fun entry hentry => h.entry_name entry (List.mem_filter.mp hentry).1⟩
  obtain ⟨hid, hne⟩ := hlive id hid
  exact (h.mem_removeConnectionInLoop (h.created id hid) hconn (h.entries id hid)).mpr
    (hno hconn id hid hne)

theorem mapped_step (s : ConnectionMap) (call : MapCall) (s' : ConnectionMap) (h : Mapped s)
    (hno : NoNamesake s call) (hok : mapStep s call = .ok s') : Mapped s' := by
  cases call with
  | newConnection =>
      cases hok
      exact h.newConnection hno
  | removeConnectionInLoop conn =>
      rw [mapStep] at hok
      split at hok
      case isFalse => cases hok
      case isTrue hconn =>
        cases hok
        exact h.removeConnectionInLoop hconn hno

/-! ### Whole runs -/

/-- **Names of connections.**  In a run of any length, every call keeps the entries of the live connections,
and finds the one it removes, exactly if at every call no live connection has the name in question. -/
theorem names_unique_iff (name : List Char) (calls : List MapCall) :
    Along mapStep KeepsEntries (init name) calls ↔ Along mapStep NoNamesake (init name) calls :=
  along_congr (fun _ call h => h.keepsEntries_iff call) mapped_step calls (mapped_init name)

/-! ### The map of the server -/

/-- The map is the one of a server whose counter has not come to its end. -/
structure Matches {n : ℕ} (server : TcpServer n) (s : ConnectionMap) : Prop where
  range : server.nextConnId ≤ INT_MAX
  name : s.name = server.name
  nextConnId : s.nextConnId = BitVec.ofNat 32 server.nextConnId
  created : s.created + 1 = server.nextConnId
  connections : s.connections = server.connections
  names : ∀ id, ∀ conn ∈ server.objects id, s.names id = conn.name

/-- Up to the last `int` the text of the counter is that of its number. -/
theorem intText_ofNat {id : ℕ} (h : id ≤ INT_MAX) :
    intText (BitVec.ofNat 32 id).toInt = Nat.toDigits 10 id := by
  have hint : (BitVec.ofNat 32 id).toInt = id := by
    simp only [INT_MAX] at h
    rw [BitVec.toInt_ofNat', Int.bmod_eq_of_le (by omega) (by omega)]
  rw [hint, intText, if_neg (by omega), Int.natAbs_natCast]

theorem Matches.connName {n : ℕ} {server : TcpServer n} (h : Matches server s) :
    s.connName s.nextConnId = server.connName server.nextConnId := by
  rw [ConnectionMap.connName, h.nextConnId, connBuf_eq, intText_ofNat h.range, h.name, TcpServer.connName,
    List.append_assoc]

/-- **A new connection** of the server is one of the map. -/
theorem Matches.newConnection {n : ℕ} {server server' : TcpServer n} (h : Matches server s) {fd self : ℕ}
    (hok : server.newConnection fd self = .ok server') : Matches server' s.newConnection := by
  rw [TcpServer.newConnection] at hok
  split at hok
  case isTrue => cases hok
  case isFalse hrange =>
    cases hok
    refine ⟨?_, h.name, ?_, ?_, ?_, fun id conn hconn => ?_⟩
    · show server.nextConnId + 1 ≤ INT_MAX
      have := h.range
      omega
    · show s.nextConnId + 1 = BitVec.ofNat 32 (server.nextConnId + 1)
      rw [h.nextConnId, BitVec.ofNat_add server.nextConnId 1]
      rfl
    · exact congrArg (· + 1) h.created
    · show (s.connName s.nextConnId, s.created + 1) :: _ = (server.connName server.nextConnId, _) :: _
      rw [h.connName, h.created, h.connections]
      rfl
    · show Function.update s.names (s.created + 1) (s.connName s.nextConnId) id = conn.name
      have hconn' : Function.update server.objects server.nextConnId
          (some (server.newObject fd self)) id = some conn := hconn
      rw [h.created]
      by_cases hid : id = server.nextConnId
      · subst hid
        rw [Function.update_self] at hconn' ⊢
        rw [← Option.some.inj hconn', h.connName]
        rfl
      · rw [Function.update_of_ne hid] at hconn' ⊢
        exact h.names id conn hconn'

/-- **And a removal.** -/
theorem Matches.removeConnectionInLoop {n : ℕ} {server server' : TcpServer n} (h : Matches server s)
    {id : ℕ} (hok : server.removeConnectionInLoop id = .ok server') :
    Matches server' (s.removeConnectionInLoop id) := by
  rw [TcpServer.removeConnectionInLoop] at hok
  split at hok
  case h_1 => cases hok
  case h_2 conn hconn =>
    cases hok
    refine ⟨h.range, h.name, h.nextConnId, h.created, ?_, h.names⟩
    show s.connections.filter (fun entry => entry.1 ≠ s.names id) = _
    rw [h.names id conn hconn, h.connections]
    rfl

/-! ### A run longer than the range of the counter -/

/-- Connections that come and go while the first one stays. -/
def comeAndGo : ℕ → ℕ → List MapCall
  | 0, _ => []
  | n + 1, conn => .newConnection :: .removeConnectionInLoop conn :: comeAndGo n (conn + 1)

theorem comeAndGo_run (n : ℕ) (hlive : s.live = [1]) (hpos : 0 < s.created) :
    ∃ t, runFrom mapStep s (comeAndGo n (s.created + 1)) = .ok t ∧ t.created = s.created + n ∧
      t.live = [1] := by
  induction n generalizing s with
  | zero => exact ⟨s, rfl, rfl, hlive⟩
  | succ n ih =>
      have hcreated : s.newConnection.Created (s.created + 1) := ⟨Nat.succ_pos _, Nat.le_refl _⟩
      have hremoved : ((s.newConnection).removeConnectionInLoop (s.created + 1)).live = [1] := by
        show ((s.created + 1) :: s.live).filter (· ≠ s.created + 1) = [1]
        rw [hlive, List.filter_cons_of_neg (by simp), List.filter_cons_of_pos (by simp; omega),
          List.filter_nil]
      obtain ⟨t, hrun, hcount, ht⟩ := ih hremoved (Nat.succ_pos _)
      refine ⟨t, ?_, ?_, ht⟩
      · rw [comeAndGo, runFrom_cons_ok _ (show mapStep s .newConnection = .ok s.newConnection from rfl),
          runFrom_cons_ok _ (if_pos hcreated)]
        exact hrun
      · rw [hcount]
        show s.created + 1 + n = s.created + (n + 1)
        omega

/-- The first connection stays, `n` others come and go, and one more comes. -/
def longRun (n : ℕ) : List MapCall := .newConnection :: comeAndGo n 2 ++ [.newConnection]

/-- It comes with the number `n + 2`, while the first one is there. -/
theorem longRun_namesake (n : ℕ) (h : Along mapStep NoNamesake (init []) (longRun n)) :
    ¬ 1 ≡ n + 2 [MOD 2 ^ 32] := by
  obtain ⟨t, hrun, hcount, hlive⟩ := @comeAndGo_run (init []).newConnection n rfl Nat.one_pos
  have hend : runFrom mapStep (init []) (.newConnection :: comeAndGo n 2) = .ok t := hrun
  obtain ⟨-, hlast, -⟩ := along_append hend h
  have hne := hlast 1 (by rw [hlive]; exact List.mem_singleton_self 1)
  have hone : (init []).newConnection.created = 1 := rfl
  rw [hcount, hone, Nat.add_comm 1 n] at hne
  exact hne

/-- The connection that is created after `2 ^ 32` others takes the entry of the first one. -/
theorem entry_overwritten :
    ¬ Along mapStep KeepsEntries (init []) (longRun (2 ^ 32 - 1)) := by
  rw [names_unique_iff]
  intro h
  exact longRun_namesake (2 ^ 32 - 1) h (by decide)

end ConnectionMap

end WServer
